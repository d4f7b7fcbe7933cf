import Mathlib.Data.Option.Basic

/-!
# `FfVpnService.kt`: the Android service

The service runs on the main thread of the app, one callback at a time: `onStartCommand` for the
intents it is sent, in their order, and `onDestroy` some time after `stopSelf()`. What it tells the
UI goes through `VpnEventBus`, which posts each payload to the main thread, so that payloads are
delivered in the order in which they are emitted.

What the platform and the native side answer (is the extra there, does `establish()` give an
interface, what does the block around `NativeBridge.start` do) is an input of the callback.
-/

set_option autoImplicit false

namespace FfVpn.Model.Service

/-- A payload of `VpnEventBus`, by its `kind`. -/
inductive Event
  | status (running : Option Bool)
  | log (line : String)
  | error (message : Option String)
  deriving DecidableEq, Repr

/-- The extras of an `ACTION_START` intent. -/
structure StartExtras where
  config : Option String
  exitCountry : Option String
  allowed : Option (List String)
  disallowed : Option (List String)
  deriving DecidableEq, Repr

/-- An intent `MainActivity` sends. -/
inductive Intent
  | start (extras : StartExtras)
  | stop
  deriving DecidableEq, Repr

/-- What the `try` block of `startTunnel` does. -/
inductive Native
  /-- It throws before `NativeBridge.start` is called. -/
  | throwsBefore (message : Option String)
  /-- `NativeBridge.start` throws. -/
  | throws (message : Option String)
  /-- `NativeBridge.start` returns. -/
  | returns (rc : Int)
  deriving DecidableEq, Repr

/-- What `startTunnel` meets: whether the config extra arrives, whether `establish()` returns an
interface, and the `try` block. -/
structure Attempt where
  extra : Bool
  established : Bool
  native : Native
  deriving DecidableEq, Repr

/-- What a callback leaves: the payloads it emits, and whether it has called `stopSelf()`. -/
structure Outcome where
  events : List Event
  stopsSelf : Bool
  deriving DecidableEq, Repr

/-- `stopSelfSafely`. -/
def stopSelfSafely : Outcome := { events := [], stopsSelf := true }

/-- `stopTunnel`. Whether `NativeBridge.stop` throws makes no difference. -/
def stopTunnel : Outcome := { events := [.status (some false)], stopsSelf := true }

/-- The `catch` block of `startTunnel`, up to `stopTunnel`. -/
def caught (message : Option String) : Event := .error (some (message.getD "start failed"))

/-- `startTunnel`. -/
def startTunnel (extras : StartExtras) (a : Attempt) : Outcome :=
  match (if a.extra then extras.config else none) with
  | none => stopSelfSafely
  | some _ =>
    if a.established = false then stopSelfSafely
    else
      match a.native with
      | .throwsBefore message | .throws message =>
        { stopTunnel with events := caught message :: stopTunnel.events }
      | .returns rc =>
        if rc ≠ 0 then stopTunnel
        else { events := [.status (some true)], stopsSelf := false }

/-- `onStartCommand`. -/
def onStartCommand (intent : Intent) (a : Attempt) : Outcome :=
  match intent with
  | .start extras => startTunnel extras a
  | .stop => stopTunnel

/-- `onDestroy`. -/
def onDestroy : Outcome := stopTunnel

/-- `startTunnel` ends in its `catch` block. -/
def Attempt.caught (extras : StartExtras) (a : Attempt) : Bool :=
  a.extra && extras.config.isSome && a.established &&
    match a.native with
    | .throwsBefore _ | .throws _ => true
    | .returns _ => false

/-- `startTunnel` ends with a running engine. -/
def Attempt.succeeds (extras : StartExtras) (a : Attempt) : Bool :=
  a.extra && extras.config.isSome && a.established && a.native == .returns 0

/-- An error is emitted by the `catch` block and by nothing else. -/
theorem error_mem_startTunnel (extras : StartExtras) (a : Attempt) :
    (∃ m, .error m ∈ (startTunnel extras a).events) ↔ a.caught extras = true := by
  obtain ⟨extra, established, native⟩ := a
  cases extra <;> cases hc : extras.config <;> cases established <;> cases native <;>
    simp [startTunnel, stopSelfSafely, stopTunnel, Attempt.caught, Service.caught, hc]
  split <;> simp

/-- `running: true` is emitted where the engine runs and nowhere else. -/
theorem running_mem_startTunnel (extras : StartExtras) (a : Attempt) :
    .status (some true) ∈ (startTunnel extras a).events ↔ a.succeeds extras = true := by
  obtain ⟨extra, established, native⟩ := a
  cases extra <;> cases hc : extras.config <;> cases established <;> cases native <;>
    simp [startTunnel, stopSelfSafely, stopTunnel, Attempt.succeeds, Service.caught, hc]
  split <;> simp_all

end FfVpn.Model.Service
