import FfVpn.Library.Watch

/-!
# `runtime.rs`: the cancellation token

A `Cancel` is a receiver and a sender of one watch channel of a flag. `Clones` has the channel that
the clones of a token share, and the calls of `cancelled()` on them. The clone or drop of a token is
one step; a call takes one for each of its three parts.

The future of a call has the token by reference. So a token that is borrowed is not dropped before
the call has returned or its future has been dropped (`borrowers`).
-/

set_option autoImplicit false

namespace FfVpn.Model.Runtime

open FfVpn.Library.Watch

/-- Where a call of `cancelled()` is, and its token. -/
inductive Call
  | idle
  /-- The future has not been polled. -/
  | called (i : Nat)
  /-- It has its own receiver. -/
  | cloned (i : Nat)
  /-- It has found the flag down and awaits `changed()`. -/
  | waiting (i : Nat)
  | ready
  /-- The future was dropped before it was ready. -/
  | dropped
  deriving DecidableEq, Repr

/-- The token that the call borrows. -/
def Call.token : Call → Option Nat
  | .called i | .cloned i | .waiting i => some i
  | .idle | .ready | .dropped => none

/-- The receivers: the `rx` of each token, and one for each call. -/
inductive Receiver
  | token (i : Nat)
  | call (k : Nat)
  deriving DecidableEq, Repr

/-- The clones of one token. Those that are held are the ones whose `tx` is a sender. -/
structure Clones where
  chan : Chan Bool Receiver Nat
  /-- The calls that borrow each token. -/
  borrowers : Nat → Finset Nat := fun _ => ∅
  calls : Nat → Call := fun _ => .idle

/-- `Cancel::new`. -/
def Clones.new : Clones where
  chan := Chan.new false (.token 0) 0

/-- What can happen. -/
inductive CancelAct
  /-- The token `j` is a clone of `i`. -/
  | clone (i j : Nat)
  | drop (i : Nat)
  | cancel (i : Nat)
  | isCancelled (i : Nat)
  /-- The call `k` of `cancelled()` on the token `i`. -/
  | cancelled (i k : Nat)
  /-- Its parts: the receiver is cloned, the flag is looked at, `changed()` is ready. -/
  | cloneRx (k : Nat)
  | inspect (k : Nat)
  | changed (k : Nat)
  /-- Its future is dropped. -/
  | abandon (k : Nat)
  deriving DecidableEq, Repr

/-- The step is one of the call `k`. -/
def CancelAct.own (k : Nat) : CancelAct → Bool
  | .cloneRx k' | .inspect k' | .changed k' => k' = k
  | _ => false

/-- The call `k` on the token `i` is over, and its receiver and its borrow with it. -/
def Clones.finish (s : Clones) (i k : Nat) (call : Call) : Clones where
  chan := s.chan.dropReceiver (.call k)
  borrowers := Function.update s.borrowers i ((s.borrowers i).erase k)
  calls := Function.update s.calls k call

/-- `is_cancelled()` on a token that is held. -/
def Clones.isCancelled (s : Clones) (i : Nat) : Option Bool :=
  if i ∈ s.chan.senders then some s.chan.value else none

/-- One step. -/
def Clones.step (s : Clones) : CancelAct → Option Clones
  | .clone i j =>
    if i ∈ s.chan.senders ∧ j ∉ s.chan.senders then
      some { s with chan := (s.chan.cloneReceiver (.token i) (.token j)).cloneSender j }
    else none
  | .drop i =>
    if i ∈ s.chan.senders ∧ s.borrowers i = ∅ then
      some { s with chan := (s.chan.dropReceiver (.token i)).dropSender i }
    else none
  | .cancel i =>
    -- the result of `send` is ignored
    if i ∈ s.chan.senders then some { s with chan := s.chan.send true } else none
  | .isCancelled i => (s.isCancelled i).map fun _ => s
  | .cancelled i k =>
    if i ∈ s.chan.senders ∧ s.calls k = .idle then
      some { s with
        borrowers := Function.update s.borrowers i (insert k (s.borrowers i))
        calls := Function.update s.calls k (.called i) }
    else none
  | .cloneRx k =>
    match s.calls k with
    | .called i =>
      some { s with
        chan := s.chan.cloneReceiver (.token i) (.call k)
        calls := Function.update s.calls k (.cloned i) }
    | _ => none
  | .inspect k =>
    match s.calls k with
    | .cloned i =>
      if s.chan.value then some (s.finish i k .ready)
      else some { s with calls := Function.update s.calls k (.waiting i) }
    | _ => none
  | .changed k =>
    match s.calls k with
    | .waiting i =>
      if s.chan.changed (.call k) then
        some ({ s with chan := s.chan.markSeen (.call k) }.finish i k .ready)
      else none
    | _ => none
  | .abandon k => (s.calls k).token.map fun i => s.finish i k .dropped

end FfVpn.Model.Runtime
