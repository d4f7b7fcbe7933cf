import FfVpn.Library.Transition
import FfVpn.Model.Runtime

/-!
# Nobody misses a cancellation

The channel of a token is a latch: its flag only goes up, and no receiver ever marks a version as
seen, for the receivers of the tokens are only cloned and looked at, and that of a call is dropped
when `changed()` returns. So it does not matter whether the flag goes up before a call looks at it,
or between that and its wait, or while it waits. The sender in the token a call borrows keeps
`changed()` from being ready for want of senders, and the receiver in the token that is cancelled
keeps `send` from being refused.

- `Inv.step`: what the tokens and the calls hold of the channel;
- `Inv.enabled` and `Inv.progress`: with the flag up, a call has a step to take, and each of its own
  steps takes it closer to its end;
- `Inv.polled_iff`: a task that awaits the token waits for a flag, which is how the tasks of a
  session are modelled;
- `cancel_wakes`: the three promises, in every state of every run.
-/

set_option autoImplicit false

namespace FfVpn.Analysis.CancelWakeup

open FfVpn.Library.Transition FfVpn.Library.Watch FfVpn.Model.Runtime

/-! ## What is held -/

/-- The call has a receiver of its own. -/
def hasReceiver : Call → Prop
  | .cloned _ | .waiting _ => True
  | _ => False

/-- The invariant: the channel is a latch, a token that is held has both its ends, a call its
receiver, and its token is held. -/
structure Inv (s : Clones) : Prop where
  latch : Latch false true s.chan
  tokens : ∀ i ∈ s.chan.senders, .token i ∈ s.chan.receivers
  calls : ∀ k, hasReceiver (s.calls k) → .call k ∈ s.chan.receivers
  borrows : ∀ k i, (s.calls k).token = some i → k ∈ s.borrowers i ∧ i ∈ s.chan.senders

variable {s s' : Clones}

theorem Inv.new : Inv Clones.new where
  latch := Latch.new false true _ _
  tokens := by simp [Clones.new, Chan.new]
  calls := by simp [Clones.new, hasReceiver]
  borrows := by simp [Clones.new, Call.token]

theorem Inv.clone (h : Inv s) {i : Nat} (hi : i ∈ s.chan.senders) (j : Nat) :
    Inv { s with chan := (s.chan.cloneReceiver (.token i) (.token j)).cloneSender j } where
  latch := (h.latch.cloneReceiver (h.tokens i hi) _).cloneSender j
  tokens := by
    intro l hl
    rcases Finset.mem_insert.mp hl with rfl | hl
    · exact Finset.mem_insert_self ..
    · exact Finset.mem_insert_of_mem (h.tokens l hl)
  calls := fun k hk => Finset.mem_insert_of_mem (h.calls k hk)
  borrows := fun k l hk => ⟨(h.borrows k l hk).1, Finset.mem_insert_of_mem (h.borrows k l hk).2⟩

/-- A token that nobody borrows is no call's. -/
theorem Inv.drop (h : Inv s) {i : Nat} (hfree : s.borrowers i = ∅) :
    Inv { s with chan := (s.chan.dropReceiver (.token i)).dropSender i } where
  latch := (h.latch.dropReceiver _).dropSender i
  tokens := by
    intro l hl
    obtain ⟨hli, hmem⟩ := Finset.mem_erase.mp hl
    exact Finset.mem_erase.mpr ⟨by simpa using hli, h.tokens l hmem⟩
  calls := fun k hk => Finset.mem_erase.mpr ⟨by simp, h.calls k hk⟩
  borrows := by
    intro k l hk
    obtain ⟨hborrow, hmem⟩ := h.borrows k l hk
    have hli : l ≠ i := by
      rintro rfl
      simp [hfree] at hborrow
    exact ⟨hborrow, Finset.mem_erase.mpr ⟨hli, hmem⟩⟩

theorem Inv.cancel (h : Inv s) {i : Nat} (hi : i ∈ s.chan.senders) :
    Inv { s with chan := s.chan.send true } := by
  have hlatch := h.latch.send
  rw [Chan.send_of_receiver (h.tokens i hi)] at hlatch ⊢
  exact ⟨hlatch, h.tokens, h.calls, h.borrows⟩

theorem Inv.called (h : Inv s) {i k : Nat} (hi : i ∈ s.chan.senders) :
    Inv { s with
      borrowers := Function.update s.borrowers i (insert k (s.borrowers i))
      calls := Function.update s.calls k (.called i) } where
  latch := h.latch
  tokens := h.tokens
  calls := by
    intro l hl
    by_cases hlk : l = k
    · simp [hlk, hasReceiver] at hl
    · exact h.calls l (by simpa [hlk] using hl)
  borrows := by
    intro l j hl
    by_cases hlk : l = k
    · obtain rfl : i = j := by simpa [hlk, Call.token] using hl
      exact ⟨by simp [hlk], hi⟩
    · obtain ⟨hborrow, hmem⟩ := h.borrows l j (by simpa [hlk] using hl)
      refine ⟨?_, hmem⟩
      by_cases hji : j = i
      · subst hji
        simp [hborrow]
      · simpa [hji] using hborrow

/-- A call goes on with the token it has. -/
theorem Inv.go (h : Inv s) {i k : Nat} {call : Call} (hk : (s.calls k).token = some i)
    (hcall : call.token = some i) {chan : Chan Bool Receiver Nat}
    (hlatch : Latch false true chan) (hsenders : chan.senders = s.chan.senders)
    (hreceivers : s.chan.receivers ⊆ chan.receivers) (hown : .call k ∈ chan.receivers) :
    Inv { s with chan := chan, calls := Function.update s.calls k call } where
  latch := hlatch
  tokens := fun l hl => hreceivers (h.tokens l (hsenders ▸ hl))
  calls := by
    intro l hl
    by_cases hlk : l = k
    · rw [hlk]
      exact hown
    · exact hreceivers (h.calls l (by simpa [hlk] using hl))
  borrows := by
    intro l j hl
    simp only [hsenders]
    by_cases hlk : l = k
    · obtain rfl : i = j := by simpa [hlk, hcall] using hl
      rw [hlk]
      exact h.borrows k i hk
    · exact h.borrows l j (by simpa [hlk] using hl)

/-- A call that is over gives back what it had. -/
theorem Inv.finish (h : Inv s) {i k : Nat} {call : Call} (hcall : call.token = none)
    (hreceiver : ¬ hasReceiver call) {chan : Chan Bool Receiver Nat}
    (hlatch : Latch false true (chan.dropReceiver (.call k)))
    (hsenders : chan.senders = s.chan.senders) (hreceivers : chan.receivers = s.chan.receivers) :
    Inv ({ s with chan := chan }.finish i k call) where
  latch := hlatch
  tokens := by
    intro l hl
    have hmem := h.tokens l (hsenders ▸ hl)
    exact Finset.mem_erase.mpr ⟨by simp, hreceivers ▸ hmem⟩
  calls := by
    intro l hl
    by_cases hlk : l = k
    · simp [Clones.finish, hlk, hreceiver] at hl
    · have hmem := h.calls l (by simpa [Clones.finish, hlk] using hl)
      exact Finset.mem_erase.mpr ⟨by simpa using hlk, hreceivers ▸ hmem⟩
  borrows := by
    intro l j hl
    by_cases hlk : l = k
    · simp [Clones.finish, hlk, hcall] at hl
    · obtain ⟨hborrow, hmem⟩ := h.borrows l j (by simpa [Clones.finish, hlk] using hl)
      refine ⟨?_, hsenders ▸ hmem⟩
      by_cases hji : j = i
      · subst hji
        simpa [Clones.finish, hlk] using hborrow
      · simpa [Clones.finish, hji] using hborrow

/-! ## The steps -/

/-- A step of a call: it has the token, and goes on or is over. -/
theorem step_cloneRx {k : Nat} (hs : s.step (.cloneRx k) = some s') :
    ∃ i, s.calls k = .called i ∧ s' = { s with
      chan := s.chan.cloneReceiver (.token i) (.call k)
      calls := Function.update s.calls k (.cloned i) } := by
  simp only [Clones.step] at hs
  split at hs
  · rename_i i hk
    exact ⟨i, hk, (Option.some.inj hs).symm⟩
  · cases hs

theorem step_inspect {k : Nat} (hs : s.step (.inspect k) = some s') :
    ∃ i, s.calls k = .cloned i ∧
      (s.chan.value = true ∧ s' = s.finish i k .ready ∨
        s.chan.value = false ∧
          s' = { s with calls := Function.update s.calls k (.waiting i) }) := by
  simp only [Clones.step] at hs
  split at hs
  · rename_i i hk
    refine ⟨i, hk, ?_⟩
    split at hs
    · exact .inl ⟨‹_›, (Option.some.inj hs).symm⟩
    · exact .inr ⟨by simpa using ‹¬ s.chan.value = true›, (Option.some.inj hs).symm⟩
  · cases hs

theorem step_changed {k : Nat} (hs : s.step (.changed k) = some s') :
    ∃ i, s.calls k = .waiting i ∧ s.chan.changed (.call k) = true ∧
      s' = { s with chan := s.chan.markSeen (.call k) }.finish i k .ready := by
  simp only [Clones.step] at hs
  split at hs
  · rename_i i hk
    simp only [Option.ite_none_right_eq_some, Option.some.injEq] at hs
    exact ⟨i, hk, hs.1, hs.2.symm⟩
  · cases hs

theorem Inv.step {a : CancelAct} (h : Inv s) (hs : s.step a = some s') : Inv s' := by
  cases a with
  | clone i j =>
    simp only [Clones.step, Option.ite_none_right_eq_some, Option.some.injEq] at hs
    obtain ⟨⟨hi, -⟩, rfl⟩ := hs
    exact h.clone hi j
  | drop i =>
    simp only [Clones.step, Option.ite_none_right_eq_some, Option.some.injEq] at hs
    obtain ⟨⟨-, hfree⟩, rfl⟩ := hs
    exact h.drop hfree
  | cancel i =>
    simp only [Clones.step, Option.ite_none_right_eq_some, Option.some.injEq] at hs
    obtain ⟨hi, rfl⟩ := hs
    exact h.cancel hi
  | isCancelled i =>
    simp only [Clones.step, Option.map_eq_some_iff] at hs
    obtain ⟨-, -, rfl⟩ := hs
    exact h
  | cancelled i k =>
    simp only [Clones.step, Option.ite_none_right_eq_some, Option.some.injEq] at hs
    obtain ⟨⟨hi, -⟩, rfl⟩ := hs
    exact h.called hi
  | cloneRx k =>
    obtain ⟨i, hk, rfl⟩ := step_cloneRx hs
    have htoken : (s.calls k).token = some i := by rw [hk]; rfl
    have hrx : .token i ∈ s.chan.receivers := h.tokens i (h.borrows k i htoken).2
    exact h.go htoken rfl (h.latch.cloneReceiver hrx _) rfl (Finset.subset_insert ..)
      (Finset.mem_insert_self ..)
  | inspect k =>
    obtain ⟨i, hk, ⟨-, rfl⟩ | ⟨-, rfl⟩⟩ := step_inspect hs
    · exact h.finish rfl id (h.latch.dropReceiver _) rfl rfl
    · exact h.go (by rw [hk]; rfl) rfl h.latch rfl subset_rfl (h.calls k (by rw [hk]; trivial))
  | changed k =>
    obtain ⟨i, -, -, rfl⟩ := step_changed hs
    exact h.finish rfl id (h.latch.consume _) rfl rfl
  | abandon k =>
    simp only [Clones.step, Option.map_eq_some_iff] at hs
    obtain ⟨i, -, rfl⟩ := hs
    exact h.finish rfl id (h.latch.dropReceiver _) rfl rfl

/-- **The flag** goes up with `cancel()` and with nothing else. -/
theorem Inv.value_step {a : CancelAct} (h : Inv s) (hs : s.step a = some s') :
    s'.chan.value = true ↔ s.chan.value = true ∨ ∃ i, a = .cancel i := by
  cases a with
  | cancel i =>
    simp only [Clones.step, Option.ite_none_right_eq_some, Option.some.injEq] at hs
    obtain ⟨hi, rfl⟩ := hs
    rw [Chan.send_of_receiver (h.tokens i hi)]
    simp
  | clone | drop | cancelled =>
    simp only [Clones.step, Option.ite_none_right_eq_some, Option.some.injEq] at hs
    obtain ⟨-, rfl⟩ := hs
    simp [Chan.cloneReceiver, Chan.cloneSender, Chan.dropReceiver, Chan.dropSender]
  | isCancelled | abandon =>
    simp only [Clones.step, Option.map_eq_some_iff] at hs
    obtain ⟨-, -, rfl⟩ := hs
    simp [Clones.finish, Chan.dropReceiver]
  | cloneRx k =>
    obtain ⟨i, -, rfl⟩ := step_cloneRx hs
    simp [Chan.cloneReceiver]
  | inspect k =>
    obtain ⟨i, -, ⟨-, rfl⟩ | ⟨-, rfl⟩⟩ := step_inspect hs
    · simp [Clones.finish, Chan.dropReceiver]
    · simp
  | changed k =>
    obtain ⟨i, -, -, rfl⟩ := step_changed hs
    simp [Clones.finish, Chan.dropReceiver, Chan.markSeen]

/-- A call that waits finds the channel changed exactly when the flag is up. -/
theorem Inv.changed_iff (h : Inv s) {i k : Nat} (hk : s.calls k = .waiting i) :
    s.chan.changed (.call k) = true ↔ s.chan.value = true := by
  have htoken : (s.calls k).token = some i := by rw [hk]; rfl
  have hrx : .call k ∈ s.chan.receivers := h.calls k (by rw [hk]; trivial)
  exact h.latch.changed_iff (by decide) hrx (h.borrows k i htoken).2

/-! ## One call -/

/-- What a call's own step does to it. -/
theorem Inv.own_step (h : Inv s) {k : Nat} {a : CancelAct} (ha : a.own k = true)
    (hs : s.step a = some s') :
    (∃ i, s.calls k = .called i ∧ s'.calls k = .cloned i) ∨
      (∃ i, s.calls k = .cloned i ∧
        s'.calls k = if s.chan.value then .ready else .waiting i) ∨
      ∃ i, s.calls k = .waiting i ∧ s.chan.value = true ∧ s'.calls k = .ready := by
  cases a with
  | clone | drop | cancel | isCancelled | cancelled | abandon => cases ha
  | cloneRx k' =>
    obtain rfl : k' = k := by simpa [CancelAct.own] using ha
    obtain ⟨i, hk, rfl⟩ := step_cloneRx hs
    exact .inl ⟨i, hk, by simp⟩
  | inspect k' =>
    obtain rfl : k' = k := by simpa [CancelAct.own] using ha
    obtain ⟨i, hk, ⟨hup, rfl⟩ | ⟨hdown, rfl⟩⟩ := step_inspect hs
    · exact .inr (.inl ⟨i, hk, by simp [hup, Clones.finish]⟩)
    · exact .inr (.inl ⟨i, hk, by simp [hdown]⟩)
  | changed k' =>
    obtain rfl : k' = k := by simpa [CancelAct.own] using ha
    obtain ⟨i, hk, hchanged, rfl⟩ := step_changed hs
    exact .inr (.inr ⟨i, hk, (h.changed_iff hk).mp hchanged, by simp [Clones.finish]⟩)

/-- The other steps leave a call alone, apart from its beginning and the drop of its future. -/
theorem calls_of_not_own {k : Nat} {a : CancelAct} (ha : a.own k = false) (hne : a ≠ .abandon k)
    (hs : s.step a = some s') :
    s'.calls k = s.calls k ∨ s.calls k = .idle ∧ ∃ i, s'.calls k = .called i := by
  cases a with
  | clone | drop | cancel =>
    simp only [Clones.step, Option.ite_none_right_eq_some, Option.some.injEq] at hs
    obtain ⟨-, rfl⟩ := hs
    exact .inl rfl
  | isCancelled i =>
    simp only [Clones.step, Option.map_eq_some_iff] at hs
    obtain ⟨-, -, rfl⟩ := hs
    exact .inl rfl
  | cancelled i l =>
    simp only [Clones.step, Option.ite_none_right_eq_some, Option.some.injEq] at hs
    obtain ⟨⟨-, hidle⟩, rfl⟩ := hs
    by_cases hkl : k = l
    · rw [hkl]
      exact .inr ⟨hidle, i, by simp⟩
    · exact .inl (by simp [hkl])
  | cloneRx l =>
    have hkl : k ≠ l := by simpa [CancelAct.own, eq_comm] using ha
    obtain ⟨i, -, rfl⟩ := step_cloneRx hs
    exact .inl (by simp [hkl])
  | inspect l =>
    have hkl : k ≠ l := by simpa [CancelAct.own, eq_comm] using ha
    obtain ⟨i, -, ⟨-, rfl⟩ | ⟨-, rfl⟩⟩ := step_inspect hs
    · exact .inl (by simp [hkl, Clones.finish])
    · exact .inl (by simp [hkl])
  | changed l =>
    have hkl : k ≠ l := by simpa [CancelAct.own, eq_comm] using ha
    obtain ⟨i, -, -, rfl⟩ := step_changed hs
    exact .inl (by simp [hkl, Clones.finish])
  | abandon l =>
    have hkl : k ≠ l := by
      rintro rfl
      exact hne rfl
    simp only [Clones.step, Option.map_eq_some_iff] at hs
    obtain ⟨i, -, rfl⟩ := hs
    exact .inl (by simp [hkl, Clones.finish])

/-- **No spurious wake-up**: a call becomes ready with the flag up. -/
theorem Inv.ready_step (h : Inv s) {k : Nat} {a : CancelAct} (hs : s.step a = some s')
    (hready : s'.calls k = .ready) : s.calls k = .ready ∨ s.chan.value = true := by
  cases ha : a.own k with
  | true =>
    rcases h.own_step ha hs with ⟨i, -, hk'⟩ | ⟨i, -, hk'⟩ | ⟨i, -, hup, -⟩
    · simp [hk'] at hready
    · cases hup : s.chan.value with
      | true => exact .inr rfl
      | false => simp [hk', hup] at hready
    · exact .inr hup
  | false =>
    by_cases habandon : a = .abandon k
    · subst habandon
      simp only [Clones.step, Option.map_eq_some_iff] at hs
      obtain ⟨i, -, rfl⟩ := hs
      simp [Clones.finish] at hready
    · rcases calls_of_not_own ha habandon hs with hsame | ⟨-, i, hcalled⟩
      · exact .inl (hsame ▸ hready)
      · simp [hcalled] at hready

/-- The steps a call has left with the flag up, if it is under way or ready. -/
def left : Call → Option Nat
  | .called _ => some 2
  | .cloned _ | .waiting _ => some 1
  | .ready => some 0
  | .idle | .dropped => none

theorem left_of_token {call : Call} {i : Nat} (h : call.token = some i) :
    ∃ n ≤ 2, left call = some n := by
  cases call with
  | idle | ready | dropped => cases h
  | called => exact ⟨2, le_rfl, rfl⟩
  | cloned | waiting => exact ⟨1, by decide, rfl⟩

/-- **No lost wake-up**: with the flag up, a call that is not ready has a step to take. -/
theorem Inv.enabled (h : Inv s) (hup : s.chan.value = true) {k n : Nat}
    (hk : left (s.calls k) = some n) :
    s.calls k = .ready ∨ ∃ a, a.own k = true ∧ (s.step a).isSome = true := by
  cases hcall : s.calls k with
  | idle | dropped =>
    rw [hcall] at hk
    cases hk
  | ready => exact .inl rfl
  | called j => exact .inr ⟨.cloneRx k, by simp [CancelAct.own], by simp [Clones.step, hcall]⟩
  | cloned j => exact .inr ⟨.inspect k, by simp [CancelAct.own], by simp [Clones.step, hcall, hup]⟩
  | waiting j =>
    have hchanged := (h.changed_iff hcall).mpr hup
    exact .inr ⟨.changed k, by simp [CancelAct.own], by simp [Clones.step, hcall, hchanged]⟩

/-- With the flag up, each of a call's own steps is one of those it has left, and the steps of the
others leave it as many. -/
theorem Inv.progress (h : Inv s) (hup : s.chan.value = true) {k n : Nat}
    (hk : left (s.calls k) = some n) {a : CancelAct} (hne : a ≠ .abandon k)
    (hs : s.step a = some s') :
    ∃ m, left (s'.calls k) = some m ∧ n = m + if a.own k then 1 else 0 := by
  cases ha : a.own k with
  | true =>
    rcases h.own_step ha hs with ⟨i, hcall, hk'⟩ | ⟨i, hcall, hk'⟩ | ⟨i, hcall, -, hk'⟩
    · rw [hcall] at hk
      exact ⟨1, by rw [hk']; rfl, (Option.some.inj hk).symm⟩
    · rw [hcall] at hk
      exact ⟨0, by rw [hk', hup]; rfl, (Option.some.inj hk).symm⟩
    · rw [hcall] at hk
      exact ⟨0, by rw [hk']; rfl, (Option.some.inj hk).symm⟩
  | false =>
    rcases calls_of_not_own ha hne hs with hsame | ⟨hidle, -⟩
    · exact ⟨n, by rw [hsame, hk], rfl⟩
    · rw [hidle] at hk
      cases hk

/-- Along a run with the flag up: what a call has done, and what it has left. -/
theorem Inv.progress_run (h : Inv s) (hup : s.chan.value = true) {k n : Nat}
    (hk : left (s.calls k) = some n) {as : List CancelAct} (hne : .abandon k ∉ as)
    (hrun : run Clones.step s as = some s') :
    Inv s' ∧ s'.chan.value = true ∧
      ∃ m, left (s'.calls k) = some m ∧ n = m + as.countP (CancelAct.own k) := by
  induction as generalizing s n with
  | nil =>
    obtain rfl : s = s' := by simpa using hrun
    exact ⟨h, hup, n, hk, rfl⟩
  | cons a as ih =>
    obtain ⟨t, ht, hrest⟩ := run_cons_eq_some.mp hrun
    obtain ⟨hnea, hne⟩ := List.ne_and_not_mem_of_not_mem_cons hne
    have hup' : t.chan.value = true := (h.value_step ht).mpr (.inl hup)
    obtain ⟨m, hm, hn⟩ := h.progress hup hk hnea.symm ht
    obtain ⟨hinv, hval, l, hl, hml⟩ := ih (h.step ht) hup' hm hne hrest
    refine ⟨hinv, hval, l, hl, ?_⟩
    rw [List.countP_cons]
    omega

/-! ## A poll -/

theorem value_of_own {k : Nat} {a : CancelAct} (h : Inv s) (ha : a.own k = true)
    (hs : s.step a = some s') : s'.chan.value = true ↔ s.chan.value = true := by
  rw [h.value_step hs]
  refine or_iff_left ?_
  rintro ⟨i, rfl⟩
  cases ha

/-- With the flag up, a call can be polled to its end. -/
theorem Inv.exists_poll (h : Inv s) (hup : s.chan.value = true) {k n : Nat}
    (hk : left (s.calls k) = some n) :
    ∃ as s', as.all (CancelAct.own k) = true ∧ run Clones.step s as = some s' ∧
      s'.calls k = .ready := by
  induction n using Nat.strong_induction_on generalizing s with
  | _ n ih =>
    rcases h.enabled hup hk with hready | ⟨a, ha, henabled⟩
    · exact ⟨[], s, rfl, rfl, hready⟩
    · obtain ⟨t, ht⟩ := Option.isSome_iff_exists.mp henabled
      have hne : a ≠ .abandon k := by
        rintro rfl
        cases ha
      obtain ⟨m, hm, hn⟩ := h.progress hup hk hne ht
      rw [if_pos ha] at hn
      obtain ⟨as, s', has, hrun, hready⟩ :=
        ih m (by omega) (h.step ht) ((value_of_own h ha ht).mpr hup) hm
      exact ⟨a :: as, s', by simp [ha, has], run_cons_eq_some.mpr ⟨t, ht, hrun⟩, hready⟩

/-- **The token is its flag**: a call that is under way can be polled to its end exactly when the
flag is up. So a task that awaits `cancelled()` is one that waits for a flag. -/
theorem Inv.polled_iff (h : Inv s) {k i : Nat} (hk : (s.calls k).token = some i) :
    (∃ as s', as.all (CancelAct.own k) = true ∧ run Clones.step s as = some s' ∧
      s'.calls k = .ready) ↔ s.chan.value = true := by
  constructor
  · rintro ⟨as, s', has, hrun, hready⟩
    have hnot : s.calls k ≠ .ready := by
      intro hready
      rw [hready] at hk
      cases hk
    clear hk
    induction as generalizing s with
    | nil =>
      obtain rfl : s = s' := by simpa using hrun
      exact absurd hready hnot
    | cons a as ih =>
      obtain ⟨t, ht, hrest⟩ := run_cons_eq_some.mp hrun
      rw [List.all_cons, Bool.and_eq_true] at has
      by_cases hnext : t.calls k = .ready
      · exact (h.ready_step ht hnext).resolve_left hnot
      · exact (value_of_own h has.1 ht).mp (ih (h.step ht) has.2 hrest hnext)
  · intro hup
    obtain ⟨n, -, hleft⟩ := left_of_token hk
    exact h.exists_poll hup hleft

/-! ## The three promises -/

/-- `cancel()` has been called on some clone. -/
def Requested (as : List CancelAct) : Prop := ∃ i, .cancel i ∈ as

/-- In the state `s` after the steps `as`: no call is ready before a `cancel()`; after one, whatever
else happens, each call under way has at most two steps of its own left, and one to take until it
is ready; `is_cancelled()` says whether there was one, on every clone, and once true stays true. -/
structure Promises (as : List CancelAct) (s : Clones) : Prop where
  notEarly : ∀ k, s.calls k = .ready → Requested as
  woken : Requested as → ∀ k i, (s.calls k).token = some i → ∀ bs s',
    run Clones.step s bs = some s' → .abandon k ∉ bs →
      bs.countP (CancelAct.own k) ≤ 2 ∧
        (s'.calls k = .ready ∨ ∃ a, CancelAct.own k a = true ∧ (s'.step a).isSome = true)
  tells : ∀ i b, s.isCancelled i = some b → (b = true ↔ Requested as)
  stays : ∀ i, s.isCancelled i = some true → ∀ bs s', run Clones.step s bs = some s' →
    ∀ j b, s'.isCancelled j = some b → b = true

/-- What the steps so far say of the state. -/
structure After (as : List CancelAct) (s : Clones) : Prop where
  inv : Inv s
  value : s.chan.value = true ↔ Requested as
  ready : ∀ k, s.calls k = .ready → Requested as

theorem After.step {as : List CancelAct} {a : CancelAct} (h : After as s)
    (hs : s.step a = some s') : After (as ++ [a]) s' := by
  have hmore : Requested (as ++ [a]) ↔ Requested as ∨ ∃ i, a = .cancel i := by
    simp [Requested, exists_or, eq_comm]
  refine ⟨h.inv.step hs, ?_, fun k hk => ?_⟩
  · rw [h.inv.value_step hs, h.value, hmore]
  · rw [hmore]
    rcases h.inv.ready_step hs hk with hready | hup
    · exact .inl (h.ready k hready)
    · exact .inl (h.value.mp hup)

theorem After.of_run {as : List CancelAct} (hrun : run Clones.step Clones.new as = some s) :
    After as s := by
  refine run_history ?_ (fun as s a s' _ h hs => h.step hs) hrun
  exact ⟨Inv.new, by simp [Clones.new, Chan.new, Requested], by simp [Clones.new]⟩

theorem isCancelled_eq_some {i : Nat} {b : Bool} (h : s.isCancelled i = some b) :
    s.chan.value = b := by
  unfold Clones.isCancelled at h
  split at h
  · exact Option.some.inj h
  · cases h

/-- **Nobody misses a cancellation**, and nobody sees one that was not: after every run of clones,
drops, `cancel()`, `is_cancelled()` and the parts of any number of calls of `cancelled()`. -/
theorem cancel_wakes {as : List CancelAct} (hrun : run Clones.step Clones.new as = some s) :
    Promises as s := by
  have h := After.of_run hrun
  refine ⟨h.ready, fun hreq k i hk bs s' hbs hne => ?_, fun i b hb => ?_,
    fun i hi bs s' hbs j b hj => ?_⟩
  · obtain ⟨n, hn, hleft⟩ := left_of_token hk
    obtain ⟨hinv, hup, m, hm, hcount⟩ :=
      h.inv.progress_run (h.value.mpr hreq) hleft hne hbs
    exact ⟨by omega, hinv.enabled hup hm⟩
  · rw [← isCancelled_eq_some hb]
    exact h.value
  · have hrun' : run Clones.step Clones.new (as ++ bs) = some s' := by
      rw [run_append, hrun]
      exact hbs
    obtain ⟨l, hl⟩ := h.value.mp (isCancelled_eq_some hi)
    have hreq : Requested (as ++ bs) := ⟨l, List.mem_append_left _ hl⟩
    rw [← isCancelled_eq_some hj]
    exact (After.of_run hrun').value.mpr hreq

/-- The token is cancelled between the two looks of a call: after it has found the flag down, and
before it waits. -/
theorem cancel_wakes_between :
    ∃ s, run Clones.step Clones.new
        [.clone 0 1, .cancelled 0 0, .cloneRx 0, .inspect 0, .cancel 1, .drop 1] = some s ∧
      Promises [.clone 0 1, .cancelled 0 0, .cloneRx 0, .inspect 0, .cancel 1, .drop 1] s := by
  obtain ⟨s, hs⟩ := Option.isSome_iff_exists.mp (show (run Clones.step Clones.new
    [.clone 0 1, .cancelled 0 0, .cloneRx 0, .inspect 0, .cancel 1, .drop 1]).isSome = true
      by decide)
  exact ⟨s, hs, cancel_wakes hs⟩

end FfVpn.Analysis.CancelWakeup
