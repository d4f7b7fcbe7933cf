import FfVpn.Model.Hops

/-!
# The ports of a session's two SOCKS endpoints

`random_local_port` binds port 0 of `127.0.0.1`, reads which port the OS chose and drops the
listener. `Engine::start` does this for the transport's endpoint, spawns Leaf #1, which binds the
port in its own time, and does it again for Arti's endpoint, which Arti binds later still. A port is
held by one socket at a time, whose owner may be anybody: which port the OS chooses among the free
ones, and what other sockets do, is an input. Neither Leaf #1 nor Arti tries a second time to bind.
-/

set_option autoImplicit false

namespace FfVpn.Model.Ports

open FfVpn.Model.Hops

/-- Whose socket holds a port. -/
inductive Holder
  /-- The listener of `random_local_port`. -/
  | probe
  | leaf
  | arti
  | other
  deriving DecidableEq, Repr

/-- Where `Engine::start` is. -/
inductive Pc
  /-- Before the `bind` for the transport's endpoint. -/
  | ptProbe
  /-- The port has been read, the listener not yet dropped. -/
  | ptDrop (port : UInt16)
  | leafSpawn
  | artiProbe
  | artiDrop (port : UInt16)
  | artiSpawn
  | up
  | failed
  deriving DecidableEq, Repr

/-- A SOCKS server that is started in the background. -/
inductive Component
  | absent
  /-- Spawned, before its `bind`. -/
  | starting
  | listening
  | ended
  deriving DecidableEq, Repr

/-- A bring-up, and who holds which port. -/
structure Bringup where
  pc : Pc := .ptProbe
  holder : UInt16 → Option Holder
  ptSocks : Option SocksEndpoint := none
  artiSocks : Option SocksEndpoint := none
  leaf : Component := .absent
  arti : Component := .absent

/-- What can happen. -/
inductive Act
  /-- The `bind` of `random_local_port`: the OS chooses this port. -/
  | bind (port : UInt16)
  /-- The `bind`, or the text or the parsing of Leaf #1's config, fails. -/
  | fail
  /-- The listener is dropped, and the username and password are drawn. -/
  | drop (user : List.Vector (Fin 62) 12) (pass : List.Vector (Fin 62) 32)
  | spawnLeaf
  | spawnArti
  /-- Leaf #1, or Arti, comes to its `bind`. -/
  | leafBinds
  | artiBinds
  /-- Leaf #1, or Arti, ends, for whatever reason. -/
  | leafEnds
  | artiEnds
  /-- A socket of somebody else. -/
  | otherBinds (port : UInt16)
  | otherCloses (port : UInt16)

/-- A port has a new holder, or none. -/
def Bringup.setHolder (s : Bringup) (port : UInt16) (h : Option Holder) : Bringup :=
  { s with holder := Function.update s.holder port h }

/-- A component comes to its `bind`: it fails where the port is held, and that is its end. -/
def Bringup.bindFor (s : Bringup) (socks : SocksEndpoint) (h : Holder) : Bringup × Component :=
  if s.holder socks.addr.port = none then (s.setHolder socks.addr.port (some h), .listening)
  else (s, .ended)

/-- A component ends; its listener, if it has one, is closed. -/
def Bringup.endFor (s : Bringup) (socks : SocksEndpoint) (c : Component) : Bringup :=
  if c = .listening then s.setHolder socks.addr.port none else s

/-- One step. The OS does not choose a port that is held. -/
def Bringup.step (s : Bringup) : Act → Option Bringup
  | .bind port =>
    if s.holder port = none ∧ port ≠ 0 then
      match s.pc with
      | .ptProbe => some { s.setHolder port (some .probe) with pc := .ptDrop port }
      | .artiProbe => some { s.setHolder port (some .probe) with pc := .artiDrop port }
      | _ => none
    else none
  | .fail =>
    match s.pc with
    | .ptProbe | .leafSpawn | .artiProbe => some { s with pc := .failed }
    | _ => none
  | .drop user pass =>
    match s.pc with
    | .ptDrop port => some { s.setHolder port none with
        ptSocks := some (.newRandom port user pass), pc := .leafSpawn }
    | .artiDrop port => some { s.setHolder port none with
        artiSocks := some (.newRandom port user pass), pc := .artiSpawn }
    | _ => none
  | .spawnLeaf =>
    if s.pc = .leafSpawn then some { s with leaf := .starting, pc := .artiProbe } else none
  | .spawnArti =>
    if s.pc = .artiSpawn then some { s with arti := .starting, pc := .up } else none
  | .leafBinds =>
    match s.leaf, s.ptSocks with
    | .starting, some socks =>
      let (s, leaf) := s.bindFor socks .leaf
      some { s with leaf := leaf }
    | _, _ => none
  | .artiBinds =>
    match s.arti, s.artiSocks with
    | .starting, some socks =>
      let (s, arti) := s.bindFor socks .arti
      some { s with arti := arti }
    | _, _ => none
  | .leafEnds => s.ptSocks.bind fun socks =>
    if s.leaf = .starting ∨ s.leaf = .listening then
      some { s.endFor socks s.leaf with leaf := .ended }
    else none
  | .artiEnds => s.artiSocks.bind fun socks =>
    if s.arti = .starting ∨ s.arti = .listening then
      some { s.endFor socks s.arti with arti := .ended }
    else none
  | .otherBinds port =>
    if s.holder port = none then some (s.setHolder port (some .other)) else none
  | .otherCloses port =>
    if s.holder port = some .other then some (s.setHolder port none) else none

section Frames

variable (s : Bringup) (port : UInt16) (h : Option Holder) (socks : SocksEndpoint) (o : Holder)
  (c : Component)

@[simp] theorem setHolder_pc : (s.setHolder port h).pc = s.pc := rfl
@[simp] theorem setHolder_ptSocks : (s.setHolder port h).ptSocks = s.ptSocks := rfl
@[simp] theorem setHolder_artiSocks : (s.setHolder port h).artiSocks = s.artiSocks := rfl
@[simp] theorem setHolder_leaf : (s.setHolder port h).leaf = s.leaf := rfl
@[simp] theorem setHolder_arti : (s.setHolder port h).arti = s.arti := rfl

@[simp] theorem setHolder_self : (s.setHolder port h).holder port = h := Function.update_self _ _ _

/-- A port keeps its holder when a port of another holder, or of none, changes hands. -/
theorem setHolder_keeps {s : Bringup} {port' : UInt16} {o : Holder} (hold : s.holder port' = some o)
    (hother : s.holder port ≠ some o) : (s.setHolder port h).holder port' = some o := by
  have hne : port' ≠ port := by
    rintro rfl
    exact hother hold
  exact (Function.update_of_ne hne _ _).trans hold

@[simp] theorem bindFor_pc : (s.bindFor socks o).1.pc = s.pc := by
  unfold Bringup.bindFor
  split <;> rfl

@[simp] theorem bindFor_ptSocks : (s.bindFor socks o).1.ptSocks = s.ptSocks := by
  unfold Bringup.bindFor
  split <;> rfl

@[simp] theorem bindFor_artiSocks : (s.bindFor socks o).1.artiSocks = s.artiSocks := by
  unfold Bringup.bindFor
  split <;> rfl

@[simp] theorem endFor_pc : (s.endFor socks c).pc = s.pc := by
  unfold Bringup.endFor
  split <;> rfl

@[simp] theorem endFor_ptSocks : (s.endFor socks c).ptSocks = s.ptSocks := by
  unfold Bringup.endFor
  split <;> rfl

@[simp] theorem endFor_artiSocks : (s.endFor socks c).artiSocks = s.artiSocks := by
  unfold Bringup.endFor
  split <;> rfl

end Frames

end FfVpn.Model.Ports
