import FfVpn.Library.Transition
import FfVpn.Model.Service

/-!
# `MainActivity.kt`: the calls on the control channel

The handler of `ff.vpn/control` and `onActivityResult`. A call that needs the VPN permission is
answered when the permission dialog returns: until then `pendingResult` holds its `Result` and
`pendingArgs` its arguments. Both run on the main thread, one at a time, and between the launch of a
dialog and its result any other call may come in.

`Activity` numbers the calls and keeps what each has been answered. An exception of a call of the
platform is an input of the step: in the handler `MethodChannel` answers it with an error, in
`onActivityResult` it ends the app.
-/

set_option autoImplicit false

namespace FfVpn.Model.MainActivity

open FfVpn.Model.Service

/-- A call on the control channel. -/
inductive Method
  | hasPermission
  | requestPermission
  | connect (args : StartExtras)
  | disconnect
  | status
  | other (name : String)
  deriving DecidableEq, Repr

/-- The value of a `success` reply; `map json` is what `parseJson(json)` gives. -/
inductive Value
  | null
  | bool (b : Bool)
  | map (json : String)
  deriving DecidableEq, Repr

/-- A reply: `success`, `error` or `notImplemented` of a `MethodChannel.Result`. -/
inductive Reply
  | success (value : Value)
  | error (code : String) (message : Option String)
  | notImplemented
  deriving DecidableEq, Repr

/-- `MainActivity`, the calls it was given and the replies to them. -/
structure Activity where
  /-- `VpnService.prepare` returns `null`. -/
  permitted : Bool := false
  pendingResult : Option Nat := none
  pendingArgs : Option StartExtras := none
  /-- The dialogs that are launched and have not returned. -/
  dialogs : Nat := 0
  /-- What `NativeBridge.statusJson()` returns. -/
  statusJson : String := ""
  intents : List Intent := []
  calls : Nat → Option Method := fun _ => none
  replies : Nat → List Reply := fun _ => []
  /-- An exception has left `onActivityResult`. -/
  crashed : Bool := false

/-- How the handler is left. -/
inductive Handled
  | replies (reply : Reply)
  | launched
  | throws (message : String)

/-- What the caller is sent: `MethodChannel` turns an exception into an error. -/
def Handled.reply : Handled → Option Reply
  | .replies reply => some reply
  | .launched => none
  | .throws message => some (.error "error" (some message))

/-- `startVpn`, whose cast of the config throws where there is none. -/
def startVpn (args : StartExtras) (refused : Option String) : Except String Intent :=
  match args.config, refused with
  | none, _ => .error "null cannot be cast to non-null type kotlin.String"
  | some _, some message => .error message
  | some _, none => .ok (.start args)

/-- The three lines that keep the call and launch the dialog. -/
def Activity.launch (s : Activity) (i : Nat) (args : Option StartExtras) (refused : Option String) :
    Activity × Handled :=
  match refused with
  | some message => ({ s with pendingResult := some i, pendingArgs := args }, .throws message)
  | none =>
    ({ s with pendingResult := some i, pendingArgs := args, dialogs := s.dialogs + 1 }, .launched)

/-- The method call handler, for the call numbered `i`. `refused` is the exception of the one call
of the platform each branch makes. -/
def Activity.handle (s : Activity) (i : Nat) (refused : Option String) :
    Method → Activity × Handled
  | .hasPermission => (s, .replies (.success (.bool s.permitted)))
  | .requestPermission =>
    if s.permitted then (s, .replies (.success (.bool true))) else s.launch i none refused
  | .connect args =>
    if s.permitted then
      match startVpn args refused with
      | .ok intent => ({ s with intents := s.intents ++ [intent] }, .replies (.success .null))
      | .error message => (s, .throws message)
    else s.launch i (some args) refused
  | .disconnect =>
    match refused with
    | none => ({ s with intents := s.intents ++ [.stop] }, .replies (.success .null))
    | some message => (s, .throws message)
  | .status => (s, .replies (.success (.map s.statusJson)))
  | .other _ => (s, .replies .notImplemented)

/-- `pending?.success(..)` and `pending?.error(..)`: a second reply to one call throws. -/
def Activity.answer (s : Activity) (pending : Option Nat) (reply : Reply) : Activity :=
  match pending with
  | none => s
  | some i =>
    if s.replies i = [] then { s with replies := Function.update s.replies i [reply] }
    else { s with crashed := true }

/-- `onActivityResult`. -/
def Activity.onActivityResult (s : Activity) (granted : Bool) (refused : Option String) :
    Activity :=
  let args := s.pendingArgs
  let pending := s.pendingResult
  let s := { s with pendingResult := none, pendingArgs := none }
  if granted = false then
    s.answer pending (.error "PERMISSION_DENIED" (some "VPN permission was not granted"))
  else
    match args with
    | some args =>
      match startVpn args refused with
      | .ok intent =>
        { s with intents := s.intents ++ [intent] }.answer pending (.success .null)
      | .error _ => { s with crashed := true }
    | none => s.answer pending (.success (.bool true))

/-- What can happen. -/
inductive ActivityAct
  /-- The call numbered `i` comes in. -/
  | call (i : Nat) (method : Method) (refused : Option String)
  /-- A dialog returns. -/
  | activityResult (granted : Bool) (refused : Option String)
  /-- The permission is given or taken elsewhere. -/
  | permit (b : Bool)
  /-- The status of the native side changes. -/
  | native (json : String)

/-- One step. -/
def Activity.step (s : Activity) : ActivityAct → Option Activity
  | .call i method refused =>
    if s.crashed = false ∧ s.calls i = none then
      let (s', handled) := s.handle i refused method
      some { s' with
        calls := Function.update s'.calls i (some method)
        replies := Function.update s'.replies i handled.reply.toList }
    else none
  | .activityResult granted refused =>
    if s.crashed = false ∧ s.dialogs ≠ 0 then
      some ({ s with
        dialogs := s.dialogs - 1
        permitted := s.permitted || granted }.onActivityResult granted refused)
    else none
  | .permit b => some { s with permitted := b }
  | .native json => some { s with statusJson := json }

end FfVpn.Model.MainActivity
