import Mathlib.Data.Finset.Card
import Mathlib.Logic.Function.Basic

/-!
# A watch channel

A channel that holds one value and counts its versions. Receivers compare the version with the one
they have seen: `changed()` is ready when the two differ, or when no sender is left. A send bumps
the version, and is refused without storing when no receiver is left. A receiver that is cloned
has seen what the original has; `borrow()` reads the value and marks nothing.

A channel whose receivers mark nothing is a latch (`Latch`): every receiver, whenever it was cloned,
finds it changed from the first send on (`Latch.changed_iff`), so that a value looked at before the
wait cannot be stale at the wait.
-/

set_option autoImplicit false

namespace FfVpn.Library.Watch

variable {α ρ τ : Type}

/-- A channel: `ρ` names the receivers and `τ` the senders. -/
structure Chan (α ρ τ : Type) where
  value : α
  version : Nat := 0
  receivers : Finset ρ
  senders : Finset τ
  /-- The version each receiver has seen. -/
  seen : ρ → Nat := fun _ => 0

/-- A new channel with one receiver and one sender. -/
def Chan.new (value : α) (r : ρ) (t : τ) : Chan α ρ τ where
  value := value
  receivers := {r}
  senders := {t}

/-- `send`. -/
def Chan.send (c : Chan α ρ τ) (value : α) : Chan α ρ τ :=
  if c.receivers.card = 0 then c else { c with value := value, version := c.version + 1 }

/-- `changed()` is ready. -/
def Chan.changed (c : Chan α ρ τ) (r : ρ) : Bool := c.seen r ≠ c.version || c.senders.card = 0

/-- `changed()` returns: the receiver has seen the version. -/
def Chan.markSeen [DecidableEq ρ] (c : Chan α ρ τ) (r : ρ) : Chan α ρ τ :=
  { c with seen := Function.update c.seen r c.version }

def Chan.cloneReceiver [DecidableEq ρ] (c : Chan α ρ τ) (r r' : ρ) : Chan α ρ τ :=
  { c with receivers := insert r' c.receivers, seen := Function.update c.seen r' (c.seen r) }

def Chan.dropReceiver [DecidableEq ρ] (c : Chan α ρ τ) (r : ρ) : Chan α ρ τ :=
  { c with receivers := c.receivers.erase r }

def Chan.cloneSender [DecidableEq τ] (c : Chan α ρ τ) (t : τ) : Chan α ρ τ :=
  { c with senders := insert t c.senders }

def Chan.dropSender [DecidableEq τ] (c : Chan α ρ τ) (t : τ) : Chan α ρ τ :=
  { c with senders := c.senders.erase t }

theorem Chan.send_of_receiver {c : Chan α ρ τ} {r : ρ} (h : r ∈ c.receivers) (value : α) :
    c.send value = { c with value := value, version := c.version + 1 } := by
  rw [Chan.send, if_neg (Finset.card_ne_zero_of_mem h)]

/-! ## A latch -/

/-- The channel holds `off` as long as nothing has been sent, holds `on` after that, and no
receiver has marked a version as seen. -/
structure Latch (off on : α) (c : Chan α ρ τ) : Prop where
  seen : ∀ r ∈ c.receivers, c.seen r = 0
  value : c.value = if c.version = 0 then off else on

variable {off on : α} {c : Chan α ρ τ}

theorem Latch.new (off on : α) (r : ρ) (t : τ) : Latch off on (Chan.new off r t) where
  seen := fun _ _ => rfl
  value := rfl

theorem Latch.send (h : Latch off on c) : Latch off on (c.send on) := by
  unfold Chan.send
  split
  · exact h
  · exact ⟨h.seen, by simp⟩

/-- The clone of a receiver has seen what it has, which is nothing. -/
theorem Latch.cloneReceiver [DecidableEq ρ] (h : Latch off on c) {r : ρ} (hr : r ∈ c.receivers)
    (r' : ρ) :
    Latch off on (c.cloneReceiver r r') where
  seen := by
    intro q hq
    by_cases hqr : q = r'
    · rw [hqr]
      simpa [Chan.cloneReceiver] using h.seen r hr
    · have hmem : q ∈ c.receivers := by simpa [Chan.cloneReceiver, hqr] using hq
      simpa [Chan.cloneReceiver, hqr] using h.seen q hmem
  value := h.value

theorem Latch.dropReceiver [DecidableEq ρ] (h : Latch off on c) (r : ρ) :
    Latch off on (c.dropReceiver r) where
  seen := fun q hq => h.seen q (Finset.mem_of_mem_erase hq)
  value := h.value

/-- A receiver that is dropped once it has seen the version leaves the others as they were. -/
theorem Latch.consume [DecidableEq ρ] (h : Latch off on c) (r : ρ) :
    Latch off on ((c.markSeen r).dropReceiver r) where
  seen := by
    intro q hq
    obtain ⟨hqr, hmem⟩ := Finset.mem_erase.mp hq
    simpa [Chan.dropReceiver, Chan.markSeen, hqr] using h.seen q hmem
  value := h.value

theorem Latch.cloneSender [DecidableEq τ] (h : Latch off on c) (t : τ) :
    Latch off on (c.cloneSender t) :=
  ⟨h.seen, h.value⟩

theorem Latch.dropSender [DecidableEq τ] (h : Latch off on c) (t : τ) :
    Latch off on (c.dropSender t) :=
  ⟨h.seen, h.value⟩

/-- The value tells whether anything has been sent. -/
theorem Latch.value_eq_on (h : Latch off on c) (hne : off ≠ on) : c.value = on ↔ 0 < c.version := by
  rw [h.value]
  split
  · simp [*]
  · simp [Nat.pos_iff_ne_zero, *]

/-- **No lost and no spurious wake-up**: while a sender is left, a receiver of a latch finds it
changed exactly when its value says so. -/
theorem Latch.changed_iff (h : Latch off on c) (hne : off ≠ on) {r : ρ} {t : τ}
    (hr : r ∈ c.receivers) (ht : t ∈ c.senders) : c.changed r = true ↔ c.value = on := by
  have hsenders : c.senders.card ≠ 0 := Finset.card_ne_zero_of_mem ht
  rw [h.value_eq_on hne, Chan.changed, h.seen r hr, Bool.or_eq_true, decide_eq_true_iff,
    decide_eq_true_iff]
  omega

end FfVpn.Library.Watch
