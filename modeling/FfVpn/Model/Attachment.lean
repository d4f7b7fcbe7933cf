import FfVpn.Model.Controller

/-!
# `_bootstrap` and `VpnEventBus`: the UI comes and goes

The service and its engine outlive the Flutter UI. A new `VpnController` begins with a constant
state, loads the saved config and then listens; `VpnEventBus` passes a payload on where a sink is
registered when the payload's turn comes, and drops it otherwise. `Host` is the app of
`Controller.App` with a controller that comes and goes, and with the engine the service has started.
-/

set_option autoImplicit false

namespace FfVpn.Model.Attachment

open FfVpn.Model.Service FfVpn.Model.Controller

/-- The engine in the slot. `ended` is one that has stopped running by itself and is still there. -/
inductive Engine
  | absent
  | running
  | ended
  deriving DecidableEq, Repr

/-- Where the controller of the UI is. -/
inductive Stage
  | detached
  /-- `_bootstrap` awaits the saved config. -/
  | loading
  /-- It has called `listen`, and `onListen` has not run yet. -/
  | loaded
  /-- The sink of `VpnEventBus` is the controller's. -/
  | listening
  deriving DecidableEq, Repr

/-- The app process, from the start of the process on. -/
structure Host (κ : Type) where
  app : App κ := { ui := {} }
  stage : Stage := .detached
  engine : Engine := .absent

variable {κ : Type}

/-- The engine after a callback of the service, by what `onStartCommand` does. -/
def engineAfter (engine : Engine) (intent : Intent) (a : Attempt) : Engine :=
  match intent with
  | .stop => .absent
  | .start extras =>
    match (if a.extra then extras.config else none) with
    | none => engine
    | some _ =>
      if a.established = false then engine
      else
        match a.native with
        | .throwsBefore _ | .throws _ => .absent
        | .returns rc => if rc ≠ 0 then .absent else .running

/-- `start` returns `AlreadyRunning` where there is an engine in the slot. -/
def possible (engine : Engine) (intent : Intent) (a : Attempt) : Bool :=
  match intent with
  | .stop => true
  | .start extras => !a.succeeds extras || engine == .absent

/-- The step is a call of the user, made on the screen of a controller. -/
def ofUser : AppAct κ → Bool
  | .connect _ | .disconnect _ | .importConfig _ | .setCountry _ | .setAllowedPackages _
  | .setDisallowedPackages _ => true
  | _ => false

/-- `_bootstrap`, after `load()`. -/
def bootstrapLoad (ui : VpnState κ) : Except String (Option κ) → VpnState κ
  | .ok (some config) => { ui with config := some config }
  | .ok none => ui
  | .error e => { ui with errorMessage := some ("Failed to load saved config: " ++ e) }

/-- The controller is disposed of with the calls it was waiting for, and `MainActivity` with the
result it kept for the dialog. The next controller begins with a constant state. -/
def disposed (app : App κ) : App κ :=
  { app with
    ui := {}
    connects := fun _ => .idle
    disconnects := fun _ => .idle
    pending := none }

/-- What can happen. -/
inductive HostAct (κ : Type)
  | app (a : AppAct κ)
  /-- A `VpnController` is created. -/
  | attach
  | load (saved : Except String (Option κ))
  /-- `VpnEventBus.onListen`. -/
  | listen
  /-- The UI goes: its controller, its sink and its activity. -/
  | detach
  /-- The engine stops running by itself. Nobody tells the service. -/
  | engineEnds

/-- One step of the app with whatever controller there is. -/
def Host.appStep (encode : κ → String) (s : Host κ) (a : AppAct κ) : Option (Host κ) :=
  match a with
  | .deliver =>
    if s.stage = .listening then (s.app.step encode .deliver).map fun app => { s with app := app }
    else
      -- `sink?.success(payload)` with no sink
      match s.app.events with
      | [] => none
      | _ :: rest => some { s with app := { s.app with events := rest } }
  | .onStartCommand attempt =>
    match s.app.intents with
    | [] => none
    | intent :: _ =>
      if possible s.engine intent attempt then
        (s.app.step encode (.onStartCommand attempt)).map fun app =>
          { s with app := app, engine := engineAfter s.engine intent attempt }
      else none
  | .onDestroy =>
    (s.app.step encode .onDestroy).map fun app => { s with app := app, engine := .absent }
  | a =>
    if ofUser a ∧ s.stage = .detached then none
    else (s.app.step encode a).map fun app => { s with app := app }

/-- One step of the process. -/
def Host.step (encode : κ → String) (s : Host κ) : HostAct κ → Option (Host κ)
  | .app a => s.appStep encode a
  | .attach => if s.stage = .detached then some { s with stage := .loading } else none
  | .load saved =>
    if s.stage = .loading then
      some { s with stage := .loaded, app := { s.app with ui := bootstrapLoad s.app.ui saved } }
    else none
  | .listen => if s.stage = .loaded then some { s with stage := .listening } else none
  | .detach =>
    if s.stage = .detached then none
    else some { s with stage := .detached, app := disposed s.app }
  | .engineEnds => if s.engine = .running then some { s with engine := .ended } else none

/-- What a `startTunnel` says and leaves: it gives up before it gets to an engine, it ends in
`stopTunnel`, or an engine runs. -/
inductive TunnelEnd (engine : Engine) (o : Outcome) : Engine → Prop
  | nothing (ho : o = stopSelfSafely) : TunnelEnd engine o engine
  | stopped (before : List Event) (hbefore : ∀ e ∈ before, ∃ m, e = .error m)
    (hevents : o.events = before ++ [.status (some false)]) : TunnelEnd engine o .absent
  | running (hevents : o.events = [.status (some true)]) : TunnelEnd engine o .running

theorem tunnelEnd_start (engine : Engine) (extras : StartExtras) (a : Attempt) :
    TunnelEnd engine (startTunnel extras a) (engineAfter engine (.start extras) a) := by
  simp only [startTunnel, engineAfter]
  cases (if a.extra then extras.config else none) with
  | none => exact .nothing rfl
  | some config =>
    by_cases hestablished : a.established = false
    · simp only [hestablished, if_true]
      exact .nothing rfl
    · simp only [hestablished]
      cases a.native with
      | throwsBefore message | throws message =>
        exact .stopped [caught message] (by simp [caught]) rfl
      | returns rc =>
        by_cases hrc : rc ≠ 0
        · simp only [if_pos hrc]
          exact .stopped [] (by simp) rfl
        · simp only [if_neg hrc]
          exact .running rfl

end FfVpn.Model.Attachment
