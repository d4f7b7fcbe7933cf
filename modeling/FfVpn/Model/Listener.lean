import FfVpn.Model.Controller

/-!
# `vpn_state.dart`: the controller and the events as they arrive

`Model.Controller` has the payloads that the service sends. Here an event is any map the event
channel may hand to the listener, and every change of the state is a `copyWith`, as in the source:
those of the listener, of `_bootstrap`, of the setters, and those of an import, a `connect()` or a
`disconnect()` each time it goes on after an `await`. What a call awaits is an input.
-/

set_option autoImplicit false

namespace FfVpn.Model.Listener

open FfVpn.Model.Service FfVpn.Model.Controller

/-! ## Events -/

/-- A `dynamic`, told apart as far as the listener does; `other` is a number, a list or a map, as
the codec of the channel writes it. -/
inductive Dyn
  | null
  | bool (b : Bool)
  | string (s : String)
  | other (encoded : List UInt8)
  deriving DecidableEq, Repr

/-- `Map<String, dynamic>`. -/
abbrev EventMap := List (String × Dyn)

/-- `event[key]`. -/
def EventMap.get (event : EventMap) (key : String) : Dyn := (event.lookup key).getD .null

/-- `as String?`; `none` where the cast throws. -/
def Dyn.asStringOrNull : Dyn → Option (Option String)
  | .null => some none
  | .string s => some (some s)
  | .bool _ | .other _ => none

/-! ## The state -/

/-- An argument of `copyWith` whose default is `_unset`. -/
inductive Arg (α : Type)
  | unset
  | set (value : Option α)
  deriving DecidableEq, Repr

/-- `identical(arg, _unset) ? this.field : arg`. -/
def Arg.orElse {α : Type} (arg : Arg α) (field : Option α) : Option α :=
  match arg with
  | .unset => field
  | .set value => value

/-- `VpnState`; `κ` is the type of its config. -/
structure VpnState (κ : Type) where
  status : VpnStatus := .disconnected
  config : Option κ := none
  exitCountry : Option String := none
  allowedPackages : Option (List String) := none
  disallowedPackages : Option (List String) := none
  errorMessage : Option String := none
  lastStatusJson : Option EventMap := none
  logs : List String := []
  deriving DecidableEq

/-- The arguments of `copyWith`. -/
structure CopyArgs (κ : Type) where
  status : Option VpnStatus := none
  config : Arg κ := .unset
  exitCountry : Arg String := .unset
  allowedPackages : Arg (List String) := .unset
  disallowedPackages : Arg (List String) := .unset
  errorMessage : Arg String := .unset
  lastStatusJson : Arg EventMap := .unset
  logs : Option (List String) := none

variable {κ : Type}

/-- `copyWith`. -/
def VpnState.copyWith (s : VpnState κ) (args : CopyArgs κ) : VpnState κ where
  status := args.status.getD s.status
  config := args.config.orElse s.config
  exitCountry := args.exitCountry.orElse s.exitCountry
  allowedPackages := args.allowedPackages.orElse s.allowedPackages
  disallowedPackages := args.disallowedPackages.orElse s.disallowedPackages
  errorMessage := args.errorMessage.orElse s.errorMessage
  lastStatusJson := args.lastStatusJson.orElse s.lastStatusJson
  logs := args.logs.getD s.logs

@[simp] theorem VpnState.copyWith_logs (s : VpnState κ) (args : CopyArgs κ) :
    (s.copyWith args).logs = args.logs.getD s.logs := rfl

/-- The list the `log` case of the listener makes: one line more, then without what is too much at
the front. -/
def appendLog (logs : List String) (line : String) : List String :=
  let logs := logs ++ [line]
  if 500 < logs.length then logs.drop (logs.length - 500) else logs

/-- The `next` of the `status` case. -/
def nextStatus (status : VpnStatus) (running : Dyn) : Option VpnStatus :=
  if running = .bool true then some .connected
  else if running = .bool false ∧ status ≠ .connecting then some .disconnected
  else none

/-- The listener of `_bootstrap`; `none` where a cast in it throws. -/
def VpnState.listener (s : VpnState κ) (event : EventMap) : Option (VpnState κ) := do
  let kind := (← (event.get "kind").asStringOrNull).getD ""
  if kind = "status" then
    return s.copyWith {
      lastStatusJson := .set (some event), status := nextStatus s.status (event.get "running") }
  else if kind = "log" then
    let line := (← (event.get "line").asStringOrNull).getD ""
    return s.copyWith { logs := some (appendLog s.logs line) }
  else if kind = "error" then
    let message ← (event.get "message").asStringOrNull
    return s.copyWith { status := some .error, errorMessage := .set message }
  else
    return s

/-! ## The calls -/

/-- Which `await` a call is at. -/
inductive Call (κ : Type)
  | idle
  /-- `importFromUrl`, `importFromText`: the config is fetched, parsed and saved. -/
  | importing
  | hasPermission (cfg : κ)
  | requestPermission (cfg : κ)
  /-- `channel.connect` with these arguments. -/
  | connecting (args : StartExtras)
  | disconnecting
  | done

/-- `VpnController`: its state, whether it listens already, and its calls. -/
structure VpnController (κ : Type) where
  state : VpnState κ := {}
  listening : Bool := false
  calls : Nat → Call κ := fun _ => .idle

/-- What can happen. A failed `await` comes with the text of what it throws. -/
inductive Act (κ : Type)
  /-- The `load()` of `_bootstrap` is over. -/
  | loaded (saved : Except String (Option κ))
  /-- The event channel hands an event to the listener. -/
  | event (event : EventMap)
  | importFrom (i : Nat)
  | imported (i : Nat) (cfg : Except String κ)
  | connect (i : Nat)
  | hasPermission (i : Nat) (granted : Except String Bool)
  | requestPermission (i : Nat) (result : Except String Unit)
  | connected (i : Nat) (result : Except String Unit)
  | disconnect (i : Nat)
  | disconnected (i : Nat) (result : Except String Unit)
  | setCountry (code : Option String)
  | setAllowedPackages (pkgs : Option (List String))
  | setDisallowedPackages (pkgs : Option (List String))

/-- `state = state.copyWith(..)`. -/
def VpnController.copyWith (c : VpnController κ) (args : CopyArgs κ) : VpnController κ :=
  { c with state := c.state.copyWith args }

/-- Call `i` is now at `call`. -/
def VpnController.setCall (c : VpnController κ) (i : Nat) (call : Call κ) : VpnController κ :=
  { c with calls := Function.update c.calls i call }

/-- The `catch` of `connect()` and of `disconnect()`. -/
def VpnController.caught (c : VpnController κ) (i : Nat) (e : String) : VpnController κ :=
  (c.copyWith { status := some .error, errorMessage := .set (some e) }).setCall i .done

/-- `connect()` comes to `channel.connect`. -/
def VpnController.channelConnect (encode : κ → String) (c : VpnController κ) (i : Nat) (cfg : κ) :
    VpnController κ :=
  c.setCall i (.connecting {
    config := some (encode cfg)
    exitCountry := c.state.exitCountry
    allowed := c.state.allowedPackages
    disallowed := c.state.disallowedPackages })

/-- One step. `encode` is `jsonEncode(cfg.toJson())`. -/
def VpnController.step (encode : κ → String) (c : VpnController κ) :
    Act κ → Option (VpnController κ)
  | .loaded saved =>
    if c.listening then none
    else
      let c := { c with listening := true }
      match saved with
      | .ok (some cfg) => some (c.copyWith { config := .set (some cfg) })
      | .ok none => some c
      | .error e =>
        some (c.copyWith { errorMessage := .set (some s!"Failed to load saved config: {e}") })
  | .event event =>
    -- an exception in the listener ends neither the controller nor its subscription
    if c.listening then some { c with state := (c.state.listener event).getD c.state } else none
  | .importFrom i =>
    match c.calls i with
    | .idle => some (c.setCall i .importing)
    | _ => none
  | .imported i cfg =>
    match c.calls i, cfg with
    | .importing, .ok cfg => some ((c.copyWith { config := .set (some cfg) }).setCall i .done)
    | .importing, .error _ => some (c.setCall i .done)
    | _, _ => none
  | .connect i =>
    match c.calls i, c.state.config with
    | .idle, none =>
      some ((c.copyWith {
        status := some .error, errorMessage := .set (some "No config") }).setCall i .done)
    | .idle, some cfg =>
      some ((c.copyWith {
        status := some .connecting, errorMessage := .set none }).setCall i (.hasPermission cfg))
    | _, _ => none
  | .hasPermission i granted =>
    match c.calls i, granted with
    | .hasPermission cfg, .ok true => some (c.channelConnect encode i cfg)
    | .hasPermission cfg, .ok false => some (c.setCall i (.requestPermission cfg))
    | .hasPermission _, .error e => some (c.caught i e)
    | _, _ => none
  | .requestPermission i result =>
    match c.calls i, result with
    | .requestPermission cfg, .ok _ => some (c.channelConnect encode i cfg)
    | .requestPermission _, .error e => some (c.caught i e)
    | _, _ => none
  | .connected i result =>
    match c.calls i, result with
    | .connecting _, .ok _ => some (c.setCall i .done)
    | .connecting _, .error e => some (c.caught i e)
    | _, _ => none
  | .disconnect i =>
    match c.calls i with
    | .idle => some ((c.copyWith { status := some .disconnecting }).setCall i .disconnecting)
    | _ => none
  | .disconnected i result =>
    match c.calls i, result with
    | .disconnecting, .ok _ =>
      some ((c.copyWith {
        status := some .disconnected, errorMessage := .set none }).setCall i .done)
    | .disconnecting, .error e => some (c.caught i e)
    | _, _ => none
  | .setCountry code => some (c.copyWith { exitCountry := .set code })
  | .setAllowedPackages pkgs => some (c.copyWith { allowedPackages := .set pkgs })
  | .setDisallowedPackages pkgs => some (c.copyWith { disallowedPackages := .set pkgs })

section Frames

variable (c : VpnController κ) (args : CopyArgs κ) (i : Nat) (call : Call κ) (e : String) (cfg : κ)
  (encode : κ → String)

@[simp] theorem VpnController.copyWith_state :
    (c.copyWith args).state = c.state.copyWith args := rfl
@[simp] theorem VpnController.setCall_state : (c.setCall i call).state = c.state := rfl
@[simp] theorem VpnController.caught_logs : (c.caught i e).state.logs = c.state.logs := rfl
@[simp] theorem VpnController.channelConnect_state :
    (c.channelConnect encode i cfg).state = c.state := rfl

end Frames

end FfVpn.Model.Listener
