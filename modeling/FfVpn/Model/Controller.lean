import FfVpn.Library.Transition
import FfVpn.Model.Service

/-!
# `vpn_state.dart` and `MainActivity.kt`: the controller, composed with the service

`VpnController` keeps the status the UI shows. `connect()` and `disconnect()` set it and then await
method calls that `MainActivity` answers; between two awaits anything else may happen. The payloads
of the service reach `onEvent`, in their order. `App` is the composition: the controller's state,
the calls under way, what `MainActivity` keeps for the permission dialog, the intents on their way
to the service, and the payloads on their way back.
-/

set_option autoImplicit false

namespace FfVpn.Model.Controller

open FfVpn.Model.Service

/-- `VpnStatus`. -/
inductive VpnStatus
  | disconnected
  | connecting
  | connected
  | disconnecting
  | error
  deriving DecidableEq, Repr

/-- `VpnState`; `κ` is the type of its config. -/
structure VpnState (κ : Type) where
  status : VpnStatus := .disconnected
  config : Option κ := none
  exitCountry : Option String := none
  allowedPackages : Option (List String) := none
  disallowedPackages : Option (List String) := none
  errorMessage : Option String := none
  lastStatusJson : Option Event := none
  logs : List String := []

variable {κ : Type}

/-- The listener of `_bootstrap`. A `running: false` does not end the handshake. -/
def VpnState.onEvent (s : VpnState κ) (event : Event) : VpnState κ :=
  match event with
  | .status running =>
    let next : Option VpnStatus :=
      if running = some true then some .connected
      else if running = some false ∧ s.status ≠ .connecting then some .disconnected
      else none
    { s with lastStatusJson := some event, status := next.getD s.status }
  | .log line =>
    let logs := s.logs ++ [line]
    { s with logs := logs.drop (logs.length - 500) }
  | .error message => { s with status := .error, errorMessage := message }

/-- The first lines of `connect()`, with a config and without. -/
def VpnState.beginConnect (s : VpnState κ) : VpnState κ :=
  { s with status := .connecting, errorMessage := none }

def VpnState.noConfig (s : VpnState κ) : VpnState κ :=
  { s with status := .error, errorMessage := some "No config" }

/-- The `catch` blocks of `connect()` and `disconnect()`. -/
def VpnState.failed (s : VpnState κ) (message : String) : VpnState κ :=
  { s with status := .error, errorMessage := some message }

/-- `disconnect()` before and after its await. -/
def VpnState.beginDisconnect (s : VpnState κ) : VpnState κ := { s with status := .disconnecting }

def VpnState.endDisconnect (s : VpnState κ) : VpnState κ :=
  { s with status := .disconnected, errorMessage := none }

/-- Where a `connect()` is: a method call sent, the permission dialog shown for it, its reply on the
way back (`error` is a `PlatformException` with its text). `config` is the `cfg` the call began
with; `args` are the arguments of `channel.connect`. -/
inductive Connect
  | idle
  | hasPermission (config : String)
  | hasPermissionReply (config : String) (granted : Bool)
  | requestPermission (config : String)
  | requestDialog (config : String)
  | requestReply (config : String) (error : Option String)
  | connect (args : StartExtras)
  | connectDialog (args : StartExtras)
  | connectReply (error : Option String)
  | done
  deriving DecidableEq, Repr

/-- Where a `disconnect()` is. -/
inductive Disconnect
  | idle
  | sent
  | reply (error : Option String)
  | done
  deriving DecidableEq, Repr

/-- The call has been made and has not gone on after its await. -/
def Disconnect.inFlight : Disconnect → Bool
  | .sent | .reply _ => true
  | .idle | .done => false

/-- The controller and everything between it and the service. -/
structure App (κ : Type) where
  ui : VpnState κ
  connects : Nat → Connect := fun _ => .idle
  disconnects : Nat → Disconnect := fun _ => .idle
  /-- `VpnService.prepare` returns `null`. -/
  permitted : Bool := false
  /-- `pendingResult`: the call the permission dialog answers. A second dialog replaces it. -/
  pending : Option Nat := none
  intents : List Intent := []
  /-- The service has called `stopSelf()`, or the system stops it: `onDestroy` is due. -/
  destroyDue : Bool := false
  events : List Event := []

/-- What can happen. -/
inductive AppAct (κ : Type)
  /-- The user calls `connect()`, `disconnect()`. -/
  | connect (i : Nat)
  | disconnect (i : Nat)
  /-- The user imports a config or changes the country or the app lists. -/
  | importConfig (config : κ)
  | setCountry (code : Option String)
  | setAllowedPackages (pkgs : Option (List String))
  | setDisallowedPackages (pkgs : Option (List String))
  /-- `MainActivity` handles the method call of a `connect()`; `refused` is the exception where
  `startForegroundService` throws. -/
  | control (i : Nat) (refused : Option String)
  /-- The permission dialog is answered. -/
  | dialog (granted : Bool)
  /-- The controller goes on after an await of a `connect()`. -/
  | resume (i : Nat)
  /-- `MainActivity` handles `disconnect`; `refused` is the exception of `startService`, if any. -/
  | controlStop (i : Nat) (refused : Option String)
  | resumeStop (i : Nat)
  /-- The permission is given or taken elsewhere. -/
  | permit (b : Bool)
  /-- The service handles its next intent. -/
  | onStartCommand (a : Attempt)
  /-- The system stops the service. -/
  | systemStop
  | onDestroy
  /-- The next payload reaches the listener. -/
  | deliver

/-- The arguments of `channel.connect`, read when the call is made. -/
def connectArgs (ui : VpnState κ) (config : String) : StartExtras where
  config := some config
  exitCountry := ui.exitCountry
  allowed := ui.allowedPackages
  disallowed := ui.disallowedPackages

/-- A callback of the service has run. -/
def App.served (s : App κ) (o : Outcome) : App κ :=
  { s with events := s.events ++ o.events, destroyDue := s.destroyDue || o.stopsSelf }

/-- The `connect()` call `i` is now at `c`. -/
def App.setConnect (s : App κ) (i : Nat) (c : Connect) : App κ :=
  { s with connects := Function.update s.connects i c }

/-- The `disconnect()` call `i` is now at `d`. -/
def App.setDisconnect (s : App κ) (i : Nat) (d : Disconnect) : App κ :=
  { s with disconnects := Function.update s.disconnects i d }

/-- `startVpn`. -/
def App.startVpn (s : App κ) (args : StartExtras) : App κ :=
  { s with intents := s.intents ++ [.start args] }

/-- The text of the `PlatformException` of a refused permission. -/
def permissionDenied : String :=
  "PlatformException(PERMISSION_DENIED, VPN permission was not granted, null, null)"

/-- One step. `encode` is `jsonEncode(cfg.toJson())`. -/
def App.step (encode : κ → String) (s : App κ) : AppAct κ → Option (App κ)
  | .connect i =>
    if s.connects i = .idle then
      match s.ui.config with
      | none => some ({ s with ui := s.ui.noConfig }.setConnect i .done)
      | some config =>
        some ({ s with ui := s.ui.beginConnect }.setConnect i (.hasPermission (encode config)))
    else none
  | .disconnect i =>
    if s.disconnects i = .idle then
      some ({ s with ui := s.ui.beginDisconnect }.setDisconnect i .sent)
    else none
  | .importConfig config => some { s with ui := { s.ui with config := some config } }
  | .setCountry code => some { s with ui := { s.ui with exitCountry := code } }
  | .setAllowedPackages pkgs => some { s with ui := { s.ui with allowedPackages := pkgs } }
  | .setDisallowedPackages pkgs => some { s with ui := { s.ui with disallowedPackages := pkgs } }
  | .control i refused =>
    match s.connects i with
    | .hasPermission config => some (s.setConnect i (.hasPermissionReply config s.permitted))
    | .requestPermission config =>
      if s.permitted then some (s.setConnect i (.requestReply config none))
      else some ({ s with pending := some i }.setConnect i (.requestDialog config))
    | .connect args =>
      if s.permitted then
        match refused with
        | none => some ((s.startVpn args).setConnect i (.connectReply none))
        | some message => some (s.setConnect i (.connectReply (some message)))
      else some ({ s with pending := some i }.setConnect i (.connectDialog args))
    | _ => none
  | .dialog granted =>
    match s.pending with
    | none => none
    | some i =>
      let s := { s with pending := none, permitted := s.permitted || granted }
      match s.connects i with
      | .requestDialog config =>
        some (s.setConnect i
          (.requestReply config (if granted then none else some permissionDenied)))
      | .connectDialog args =>
        if granted then some ((s.startVpn args).setConnect i (.connectReply none))
        else some (s.setConnect i (.connectReply (some permissionDenied)))
      | _ => none
  | .resume i =>
    match s.connects i with
    | .hasPermissionReply config granted =>
      if granted then some (s.setConnect i (.connect (connectArgs s.ui config)))
      else some (s.setConnect i (.requestPermission config))
    | .requestReply config none => some (s.setConnect i (.connect (connectArgs s.ui config)))
    | .connectReply none => some (s.setConnect i .done)
    | .requestReply _ (some message) | .connectReply (some message) =>
      some ({ s with ui := s.ui.failed message }.setConnect i .done)
    | _ => none
  | .controlStop i refused =>
    if s.disconnects i = .sent then
      match refused with
      | none =>
        some ({ s with intents := s.intents ++ [Intent.stop] }.setDisconnect i (.reply none))
      | some message => some (s.setDisconnect i (.reply (some message)))
    else none
  | .resumeStop i =>
    match s.disconnects i with
    | .reply none => some ({ s with ui := s.ui.endDisconnect }.setDisconnect i .done)
    | .reply (some message) => some ({ s with ui := s.ui.failed message }.setDisconnect i .done)
    | _ => none
  | .permit b => some { s with permitted := b }
  | .onStartCommand a =>
    match s.intents with
    | [] => none
    | intent :: rest => some ({ s with intents := rest }.served (onStartCommand intent a))
  | .systemStop => some { s with destroyDue := true }
  | .onDestroy =>
    -- the `stopSelf()` of a service that is being destroyed has no effect
    if s.destroyDue then
      some { s with events := s.events ++ Service.onDestroy.events, destroyDue := false }
    else none
  | .deliver =>
    match s.events with
    | [] => none
    | event :: rest => some { s with ui := s.ui.onEvent event, events := rest }

section Frames

variable (s : App κ) (i j : Nat) (c : Connect) (d : Disconnect) (args : StartExtras) (o : Outcome)

@[grind =] theorem App.setConnect_connects :
    (s.setConnect i c).connects j = if j = i then c else s.connects j := by
  simp [App.setConnect, Function.update_apply]

theorem App.setConnect_self : (s.setConnect i c).connects i = c := by
  simp [App.setConnect]

@[grind =] theorem App.setDisconnect_disconnects :
    (s.setDisconnect i d).disconnects j = if j = i then d else s.disconnects j := by
  simp [App.setDisconnect, Function.update_apply]

@[simp, grind =] theorem App.setConnect_ui : (s.setConnect i c).ui = s.ui := rfl
@[simp, grind =] theorem App.setConnect_disconnects :
    (s.setConnect i c).disconnects = s.disconnects := rfl
@[simp, grind =] theorem App.setConnect_intents : (s.setConnect i c).intents = s.intents := rfl
@[simp, grind =] theorem App.setConnect_events : (s.setConnect i c).events = s.events := rfl
@[simp, grind =] theorem App.setConnect_destroyDue :
    (s.setConnect i c).destroyDue = s.destroyDue := rfl
@[simp, grind =] theorem App.setDisconnect_ui : (s.setDisconnect i d).ui = s.ui := rfl
@[simp, grind =] theorem App.setDisconnect_connects :
    (s.setDisconnect i d).connects = s.connects := rfl
@[simp, grind =] theorem App.setDisconnect_intents :
    (s.setDisconnect i d).intents = s.intents := rfl
@[simp, grind =] theorem App.setDisconnect_events : (s.setDisconnect i d).events = s.events := rfl
@[simp, grind =] theorem App.setDisconnect_destroyDue :
    (s.setDisconnect i d).destroyDue = s.destroyDue := rfl
@[simp, grind =] theorem App.startVpn_connects : (s.startVpn args).connects = s.connects := rfl
@[simp, grind =] theorem App.startVpn_disconnects :
    (s.startVpn args).disconnects = s.disconnects := rfl
@[simp, grind =] theorem App.startVpn_intents :
    (s.startVpn args).intents = s.intents ++ [.start args] := rfl
@[simp, grind =] theorem App.startVpn_destroyDue :
    (s.startVpn args).destroyDue = s.destroyDue := rfl
@[simp, grind =] theorem App.served_connects : (s.served o).connects = s.connects := rfl
@[simp, grind =] theorem App.served_disconnects : (s.served o).disconnects = s.disconnects := rfl

end Frames

/-- Every callback of the service has run, every payload is delivered, and no `disconnect()` is
under way. -/
structure App.Quiescent (s : App κ) : Prop where
  intents : s.intents = []
  destroyDue : s.destroyDue = false
  events : s.events = []
  disconnects : ∀ i, (s.disconnects i).inFlight = false

end FfVpn.Model.Controller
