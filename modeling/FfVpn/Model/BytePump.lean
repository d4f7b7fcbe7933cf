import FfVpn.Library.CopyLoop

/-!
# `arti_runtime.rs`: the byte pump of a SOCKS connection

The end of `handle_socks_conn`. The client's socket is split with `into_split()`, the Tor stream
with `tokio::io::split`; task `a` copies from the client to the Tor stream and task `b` back, each
until `tokio::io::copy` returns or the session is cancelled. The halves are dropped with the tasks
that own them: `a` has the client's read half and the stream's write half, `b` the other two.
-/

set_option autoImplicit false

namespace FfVpn.Model.BytePump

open FfVpn.Library.CopyLoop

/-- How a stream was split into halves. -/
inductive Split
  | intoSplit
  | ioSplit
  deriving DecidableEq, Repr

/-- Whether the sending side of a stream is shut down, by the halves of it that have been dropped.
The write half of `into_split()` shuts it down when it is dropped; one of `tokio::io::split` does
not, and the stream is closed when both halves are gone. -/
def Split.shutDown : Split → (readDropped writeDropped : Bool) → Bool
  | .intoSplit, _, writeDropped => writeDropped
  | .ioSplit, readDropped, writeDropped => readDropped && writeDropped

/-- The size of the buffer of `tokio::io::copy`. -/
def bufSize : Nat := 8192

/-- The two tasks and the token they select on. -/
structure Pump where
  a : Loop UInt8 := {}
  b : Loop UInt8 := {}
  cancelled : Bool := false

/-- The task is over, and the halves it owned are dropped. -/
def isOver (task : Loop UInt8) : Bool := task.phase != .running

/-- The client socket's sending side is shut down: `sr` is dropped with `a`, `sw` with `b`. -/
def Pump.clientShut (s : Pump) : Bool := Split.intoSplit.shutDown (isOver s.a) (isOver s.b)

/-- The Tor stream's sending side is shut down: `tr` is dropped with `b`, `tw` with `a`. -/
def Pump.torShut (s : Pump) : Bool := Split.ioSplit.shutDown (isOver s.b) (isOver s.a)

/-- What can happen. -/
inductive PumpAct
  | a (act : LoopAct UInt8)
  | b (act : LoopAct UInt8)
  | cancel

/-- The `select!` of a task: the copy goes on, or is dropped once the token is cancelled. -/
def select (cancelled : Bool) (task : Loop UInt8) (act : LoopAct UInt8) : Option (Loop UInt8) :=
  match act with
  | .abandon => if cancelled then task.step bufSize .abandon else none
  | act => task.step bufSize act

/-- One step. -/
def Pump.step (s : Pump) : PumpAct → Option Pump
  | .a act => (select s.cancelled s.a act).map fun task => { s with a := task }
  | .b act => (select s.cancelled s.b act).map fun task => { s with b := task }
  | .cancel => some { s with cancelled := true }

/-- No task has a step left to take. -/
structure Pump.Quiescent (s : Pump) : Prop where
  a : ∀ act : LoopAct UInt8, act.own = true ∨ act = .abandon → select s.cancelled s.a act = none
  b : ∀ act : LoopAct UInt8, act.own = true ∨ act = .abandon → select s.cancelled s.b act = none

end FfVpn.Model.BytePump
