import FfVpn.Model.Ipc
import FfVpn.Model.LeafConfig

/-!
# The tasks of one session

`Engine::start` spawns a dozen kinds of tasks for a session: the two Leaf instances
(`leaf_config.rs`), the Arti task with its SOCKS5 listener and one handler and two pumps for each
connection (`arti_runtime.rs`), the DNS proxy with one task for each query (`dns.rs`), and the IPC
accept loop with one handler for each client (`ipc.rs`). They share the session's cancel token and
nothing else. `Tasks` holds where each of them is and `Tasks.step` what each of them can do next;
only the two Leaf wrappers, Arti, the DNS proxy and the IPC loop have a join handle that anybody
keeps.
-/

set_option autoImplicit false

namespace FfVpn.Model.Session

open FfVpn.Model.Ipc FfVpn.Model.LeafConfig

/-- `arti_runtime::handle_socks_conn`: the SOCKS5 exchange, the dial through Tor, and the two pumps
with the handler awaiting them. -/
inductive SocksPhase
  | absent
  | handshake
  | dialing
  | pumping (up down : Bool)
  | ended
  deriving DecidableEq, Repr

/-- The handler or one of its pumps is still there. -/
def SocksPhase.active : SocksPhase → Bool
  | .absent | .ended => false
  | _ => true

/-- What can happen on a connection of the SOCKS5 listener. -/
inductive SocksAct
  /-- The listener accepts the connection and spawns its handler. -/
  | accept
  /-- `socks5_handshake` and `socks5_read_request` have succeeded. -/
  | request
  /-- The dial has succeeded, the reply is written and the pumps are spawned. -/
  | connected
  /-- `?` returns: a refused exchange, a failed dial, a failed write. -/
  | fail
  /-- One pump ends: end of input, an error, or the token. -/
  | upEnd
  | downEnd
  /-- Both pumps have ended and the handler returns. -/
  | finish
  deriving DecidableEq, Repr

/-- One step of a SOCKS connection; `listening` is whether the accept loop runs. -/
def SocksPhase.step (listening : Bool) : SocksPhase → SocksAct → Option SocksPhase
  | .absent, .accept => if listening then some .handshake else none
  | .handshake, .request => some .dialing
  | .handshake, .fail => some .ended
  | .dialing, .connected => some (.pumping true true)
  | .dialing, .fail => some .ended
  | .pumping true down, .upEnd => some (.pumping false down)
  | .pumping up true, .downEnd => some (.pumping up false)
  | .pumping false false, .finish => some .ended
  | _, _ => none

/-- The handler of an IPC connection is still there. -/
def connActive (c : Conn) : Bool :=
  match c.phase with
  | .absent | .closed => false
  | .spawned | .reading | .subscribed => true

/-- Everything spawned on behalf of one session, and its cancel token. -/
structure Tasks where
  cancelled : Bool := false
  leaf1 : Leaf := {}
  leaf2 : Leaf := {}
  arti : Task := .absent
  /-- `run` has bootstrapped and bound its SOCKS5 listener. -/
  listening : Bool := false
  dns : Task := .absent
  ipc : Task := .absent
  socks : Nat → SocksPhase := fun _ => .absent
  forwards : Nat → Task := fun _ => .absent
  conns : Nat → Conn := fun _ => {}

/-- What the tasks of a session do. -/
inductive TaskAct
  | leaf1 (a : LeafAct)
  | leaf2 (a : LeafAct)
  /-- Arti is bootstrapped and listens. -/
  | artiListen
  /-- `run` returns: an error before it listens, or the token. `spawn_arti` then cancels. -/
  | artiReturn
  /-- The Arti task panics, or the scheduler drops it after `abort()`. -/
  | artiPanic
  | artiReap
  | socks (i : Nat) (a : SocksAct)
  /-- A query arrives and is handed to a task of its own. -/
  | dnsRecv (i : Nat)
  /-- The query is answered, or not. -/
  | forwardEnd (i : Nat)
  | dnsReturn
  | dnsReap
  | conn (i : Nat) (a : ConnAct)
  /-- The IPC loop takes its cancelled branch: the socket file is removed. -/
  | ipcReturn
  | ipcReap

/-- What a step of the tasks does outside of them. -/
inductive TaskEffect
  | none
  /-- Leaf #2 closes the TUN descriptor. -/
  | closeTun
  /-- `remove_file` on the path of the IPC socket. -/
  | removeSocket
  deriving DecidableEq, Repr

/-- One step of the tasks of a session. `status` and `token` are what an IPC client can be told and
has to present. The Leaf #1 of a session has no TUN inbound. -/
def Tasks.step (status : Status) (token : String) (t : Tasks) :
    TaskAct → Option (Tasks × TaskEffect)
  | .leaf1 a =>
    if a = .tunUp then none
    else (t.leaf1.step t.cancelled a).map fun (l, e) =>
      ({ t with leaf1 := l, cancelled := t.cancelled || e == .cancel }, .none)
  | .leaf2 a =>
    (t.leaf2.step t.cancelled a).map fun (l, e) =>
      ({ t with leaf2 := l, cancelled := t.cancelled || e == .cancel },
        if e = .closeTun then .closeTun else .none)
  | .artiListen =>
    if t.arti.active ∧ t.listening = false then some ({ t with listening := true }, .none)
    else none
  | .artiReturn =>
    -- the accept loop of `run` is left only through `cancelled()`
    if t.arti.active ∧ (t.listening = false ∨ t.cancelled = true) then
      some ({ t with arti := .ended, listening := false, cancelled := true }, .none)
    else none
  | .artiPanic =>
    if t.arti.active then some ({ t with arti := .ended, listening := false }, .none) else none
  | .artiReap =>
    if t.arti = .aborting then some ({ t with arti := .ended, listening := false }, .none)
    else none
  | .socks i a =>
    ((t.socks i).step (t.arti.active && t.listening) a).map fun p =>
      ({ t with socks := Function.update t.socks i p }, .none)
  | .dnsRecv i =>
    if t.dns.active ∧ t.forwards i = .absent then
      some ({ t with forwards := Function.update t.forwards i .live }, .none)
    else none
  | .forwardEnd i =>
    if t.forwards i = .live then
      some ({ t with forwards := Function.update t.forwards i .ended }, .none)
    else none
  | .dnsReturn =>
    if t.dns.active ∧ t.cancelled then some ({ t with dns := .ended }, .none) else none
  | .dnsReap => if t.dns = .aborting then some ({ t with dns := .ended }, .none) else none
  | .conn i a =>
    -- a connection is accepted by the loop; what follows is its handler's
    if (t.conns i).phase = .absent ∧ t.ipc.active = false then none
    else ((t.conns i).step status token t.cancelled a).map fun (c, cancels) =>
      ({ t with conns := Function.update t.conns i c, cancelled := t.cancelled || cancels }, .none)
  | .ipcReturn =>
    if t.ipc.active ∧ t.cancelled then some ({ t with ipc := .ended }, .removeSocket) else none
  | .ipcReap => if t.ipc = .aborting then some ({ t with ipc := .ended }, .none) else none

/-- The steps of the tasks, with what each finds and leaves. -/
inductive TaskMove (status : Status) (token : String) (t : Tasks) :
    TaskAct → Tasks → TaskEffect → Prop
  | leaf1 {a : LeafAct} {l : Leaf} {e : LeafEffect} (hnoTun : a ≠ .tunUp)
    (hleaf : t.leaf1.step t.cancelled a = some (l, e)) :
    TaskMove status token t (.leaf1 a)
      { t with leaf1 := l, cancelled := t.cancelled || e == .cancel } .none
  | leaf2 {a : LeafAct} {l : Leaf} {e : LeafEffect}
    (hleaf : t.leaf2.step t.cancelled a = some (l, e)) :
    TaskMove status token t (.leaf2 a)
      { t with leaf2 := l, cancelled := t.cancelled || e == .cancel }
      (if e = .closeTun then .closeTun else .none)
  | artiListen (hactive : t.arti.active = true) (hnot : t.listening = false) :
    TaskMove status token t .artiListen { t with listening := true } .none
  | artiReturn (hactive : t.arti.active = true)
    (hleaves : t.listening = false ∨ t.cancelled = true) :
    TaskMove status token t .artiReturn
      { t with arti := .ended, listening := false, cancelled := true } .none
  | artiPanic (hactive : t.arti.active = true) :
    TaskMove status token t .artiPanic { t with arti := .ended, listening := false } .none
  | artiReap (haborting : t.arti = .aborting) :
    TaskMove status token t .artiReap { t with arti := .ended, listening := false } .none
  | socks {i : Nat} {a : SocksAct} {p : SocksPhase}
    (hsocks : (t.socks i).step (t.arti.active && t.listening) a = some p) :
    TaskMove status token t (.socks i a) { t with socks := Function.update t.socks i p } .none
  | dnsRecv {i : Nat} (hactive : t.dns.active = true) (hfree : t.forwards i = .absent) :
    TaskMove status token t (.dnsRecv i)
      { t with forwards := Function.update t.forwards i .live } .none
  | forwardEnd {i : Nat} (hlive : t.forwards i = .live) :
    TaskMove status token t (.forwardEnd i)
      { t with forwards := Function.update t.forwards i .ended } .none
  | dnsReturn (hactive : t.dns.active = true) (hcancelled : t.cancelled = true) :
    TaskMove status token t .dnsReturn { t with dns := .ended } .none
  | dnsReap (haborting : t.dns = .aborting) :
    TaskMove status token t .dnsReap { t with dns := .ended } .none
  | conn {i : Nat} {a : ConnAct} {c : Conn} {cancels : Bool}
    (hopen : (t.conns i).phase = .absent → t.ipc.active = true)
    (hconn : (t.conns i).step status token t.cancelled a = some (c, cancels)) :
    TaskMove status token t (.conn i a)
      { t with conns := Function.update t.conns i c, cancelled := t.cancelled || cancels } .none
  | ipcReturn (hactive : t.ipc.active = true) (hcancelled : t.cancelled = true) :
    TaskMove status token t .ipcReturn { t with ipc := .ended } .removeSocket
  | ipcReap (haborting : t.ipc = .aborting) :
    TaskMove status token t .ipcReap { t with ipc := .ended } .none

theorem taskMove_of_step {status : Status} {token : String} {t t' : Tasks} {a : TaskAct}
    {e : TaskEffect} (h : t.step status token a = some (t', e)) :
    TaskMove status token t a t' e := by
  cases a with
  | leaf1 a =>
    simp only [Tasks.step, Option.ite_none_left_eq_some, Option.map_eq_some_iff] at h
    obtain ⟨hnoTun, _, hl, heq⟩ := h
    obtain ⟨rfl, rfl⟩ := Prod.mk.inj heq
    exact .leaf1 hnoTun hl
  | leaf2 a =>
    simp only [Tasks.step, Option.map_eq_some_iff] at h
    obtain ⟨_, hl, heq⟩ := h
    obtain ⟨rfl, rfl⟩ := Prod.mk.inj heq
    exact .leaf2 hl
  | socks i a =>
    simp only [Tasks.step, Option.map_eq_some_iff] at h
    obtain ⟨_, hp, heq⟩ := h
    obtain ⟨rfl, rfl⟩ := Prod.mk.inj heq
    exact .socks hp
  | conn i a =>
    simp only [Tasks.step, Option.ite_none_left_eq_some, Option.map_eq_some_iff] at h
    obtain ⟨hopen, _, hc, heq⟩ := h
    obtain ⟨rfl, rfl⟩ := Prod.mk.inj heq
    exact .conn (fun habsent => by simpa [habsent] using hopen) hc
  | _ =>
    simp only [Tasks.step, Option.ite_none_right_eq_some, Option.some.injEq, Prod.mk.injEq] at h
    obtain ⟨hguard, rfl, rfl⟩ := h
    first
      | exact .artiListen hguard.1 hguard.2
      | exact .artiReturn hguard.1 hguard.2
      | exact .artiPanic hguard
      | exact .artiReap hguard
      | exact .dnsRecv hguard.1 hguard.2
      | exact .forwardEnd hguard
      | exact .dnsReturn hguard.1 hguard.2
      | exact .dnsReap hguard
      | exact .ipcReturn hguard.1 hguard.2
      | exact .ipcReap hguard

/-- The tasks whose join handle `Engine` keeps in `tasks`, in its order. -/
inductive Tracked
  | arti
  | leaf
  | dns
  | ipc
  deriving DecidableEq, Repr

/-- The next handle of the list. -/
def Tracked.next : Tracked → Option Tracked
  | .arti => some .leaf
  | .leaf => some .dns
  | .dns => some .ipc
  | .ipc => none

/-- The task behind a handle. -/
def Tasks.tracked (t : Tasks) : Tracked → Task
  | .arti => t.arti
  | .leaf => t.leaf2.wrapper
  | .dns => t.dns
  | .ipc => t.ipc

/-- `abort()` on a handle of the list. -/
def Tasks.abort (t : Tasks) : Tracked → Tasks
  | .arti => { t with arti := t.arti.abort }
  | .leaf => { t with leaf2 := { t.leaf2 with wrapper := t.leaf2.wrapper.abort } }
  | .dns => { t with dns := t.dns.abort }
  | .ipc => { t with ipc := t.ipc.abort }

/-- `abort()` on the handle `LeafSocksPt` keeps. -/
def Tasks.abortPt (t : Tasks) : Tasks :=
  { t with leaf1 := { t.leaf1 with wrapper := t.leaf1.wrapper.abort } }

end FfVpn.Model.Session
