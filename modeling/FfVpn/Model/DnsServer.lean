import FfVpn.Model.Dns
import FfVpn.Model.Hops

/-!
# `dns.rs`: the receive loop and its tasks

`Model.Dns` follows the requests that a forward makes. Here a forward is what it comes to, and the
loop of `run` is as it stands: one buffer for all datagrams, a copy of the received bytes for each
task, and tasks that go on in any order, each with its own outcome, and whose `send_to` may fail.
-/

set_option autoImplicit false

namespace FfVpn.Model.DnsServer

open FfVpn.Model.Dns FfVpn.Model.Hops

/-- `buf`. -/
abbrev Buffer := List.Vector UInt8 maxUdpDns

/-- `recv_from`: the datagram overwrites the front of the buffer, cut off where the buffer ends, and
leaves the rest of it as it was. The result is the buffer and the number of bytes. -/
def recvFrom (buf : Buffer) (datagram : List UInt8) : Buffer × Nat :=
  let n := min datagram.length maxUdpDns
  (⟨datagram.take n ++ buf.toList.drop n, by
    rw [List.length_append, List.length_take, List.length_drop, List.Vector.toList_length]
    omega⟩, n)

/-- `buf[..n].to_vec()`. -/
def bufPrefix (buf : Buffer) (n : Nat) : List UInt8 := buf.toList.take n

/-- What the HTTP exchange that posts a query comes to: no response, or a status and a body, unless
the body breaks off. -/
inductive Outcome
  | failed
  | response (status : Nat) (body : Option (List UInt8))
  deriving DecidableEq, Repr

/-- `forward_doh`: `none` is its `Err`. -/
def forwardDoh : Outcome → Option (List UInt8)
  | .failed => none
  | .response status body => if 400 ≤ status ∧ status < 600 then none else body

/-- Where a spawned task is. -/
inductive Phase
  /-- In `forward_doh`. -/
  | forwarding
  /-- In `send_to`, with these bytes. -/
  | sending (message : List UInt8)
  | done
  deriving DecidableEq, Repr

/-- A spawned task: what it captures and where it is. -/
structure Task where
  query : List UInt8
  peer : SocketAddr
  phase : Phase := .forwarding

/-- A datagram that a task has sent. -/
structure Outgoing where
  task : Nat
  peer : SocketAddr
  message : List UInt8

/-- `run`, with the tasks it has spawned and the datagrams they have sent. -/
structure Server where
  buf : Buffer := List.Vector.replicate maxUdpDns 0
  listening : Bool := true
  tasks : List Task := []
  sent : List Outgoing := []

/-- What can happen. -/
inductive Act
  | receive (peer : SocketAddr) (datagram : List UInt8)
  /-- `recv_from` fails. -/
  | receiveError
  | cancel
  /-- The `forward_doh` of a task returns. -/
  | forwarded (i : Nat) (outcome : Outcome)
  /-- The `send_to` of a task returns. -/
  | written (i : Nat) (ok : Bool)

variable (ext : Externals)

/-- What a task does after `forward_doh`. -/
def Task.answer (t : Task) (outcome : Outcome) : Phase :=
  match forwardDoh outcome with
  | some answer => .sending answer
  | none =>
    match buildServfail ext t.query with
    | some servfail => .sending servfail
    | none => .done

/-- Task `i` is now at `phase`. -/
def Server.setPhase (s : Server) (i : Nat) (phase : Phase) : Server :=
  { s with tasks := s.tasks.modify i fun t => { t with phase := phase } }

/-- One step, where `doh` says what posting a body to the DoH server may come to. -/
def Server.step (doh : List UInt8 → Outcome → Bool) (s : Server) : Act → Option Server
  | .receive peer datagram =>
    if s.listening then
      let (buf, n) := recvFrom s.buf datagram
      some { s with buf := buf, tasks := s.tasks ++ [{ query := bufPrefix buf n, peer := peer }] }
    else none
  | .receiveError => if s.listening then some s else none
  | .cancel => some { s with listening := false }
  | .forwarded i outcome => s.tasks[i]?.bind fun t =>
    if t.phase = .forwarding ∧ doh t.query outcome = true then
      some (s.setPhase i (t.answer ext outcome))
    else none
  | .written i ok => s.tasks[i]?.bind fun t =>
    match t.phase with
    | .sending message =>
      some { s.setPhase i .done with
        sent := if ok then s.sent ++ [⟨i, t.peer, message⟩] else s.sent }
    | _ => none

/-- The task copies the datagram, or as much of it as fits: whatever was in the buffer before. -/
theorem bufPrefix_recvFrom (buf : Buffer) (datagram : List UInt8) :
    bufPrefix (recvFrom buf datagram).1 (recvFrom buf datagram).2 = datagram.take maxUdpDns := by
  have hlen : (datagram.take (min datagram.length maxUdpDns)).length =
      min datagram.length maxUdpDns := by
    rw [List.length_take]
    omega
  show (datagram.take _ ++ buf.toList.drop _).take (min datagram.length maxUdpDns) = _
  rw [List.take_left' hlen, List.take_eq_take_iff]
  omega

section Frames

variable (s : Server) (i : Nat) (phase : Phase)

theorem setPhase_getElem? (j : Nat) : (s.setPhase i phase).tasks[j]? =
    if j = i then s.tasks[j]?.map fun t => { t with phase := phase } else s.tasks[j]? := by
  rw [Server.setPhase, List.getElem?_modify]
  by_cases h : i = j
  · simp [h]
  · simp [h, Ne.symm h]

@[simp] theorem setPhase_length : (s.setPhase i phase).tasks.length = s.tasks.length := by
  simp [Server.setPhase]

@[simp] theorem setPhase_sent : (s.setPhase i phase).sent = s.sent := rfl

end Frames

end FfVpn.Model.DnsServer
