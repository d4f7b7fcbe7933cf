import FfVpn.Model.Engine

/-!
# Who holds the slot's mutex, who is in the slot

The calls of `start` and `stop` meet in the slot and its mutex and nowhere else. `SlotInv` is what
the mutex gives: the holder is the one start between its `lock` and its `unlock`, an engine in the
slot was brought up to the end, and an engine that a stop has taken out never comes back.
-/

set_option autoImplicit false

namespace FfVpn.Analysis.SlotInvariant

open FfVpn.Model.Ipc FfVpn.Model.LeafConfig FfVpn.Model.Session FfVpn.Model.Engine

/-- The start is between its `lock` and its `unlock`. -/
def inside : StartPc → Bool
  | .idle | .parse | .lock | .ok | .dropGuard _ | .err _ => false
  | _ => true

/-- `Engine::start` has returned an engine and `*slot = Some(engine)` is done. -/
def stored : StartPc → Bool
  | .disarm | .unlock | .ok => true
  | _ => false

/-- The engine a stop has taken out of the slot. -/
def engineOf : StopPc → Option Nat
  | .idle | .take => none
  | .cancel k | .shutdownPt k | .joinPt k | .abort k _ | .join k _ | .clear k => some k
  | .done k => k

/-- The stop is between `slot.take()` and its return. -/
def tearing : StopPc → Bool
  | .idle | .take | .done _ => false
  | _ => true

/-- What the slot's mutex gives. -/
structure SlotInv (c : Core) : Prop where
  holder : ∀ k, c.lock = some k ↔ inside (c.starts k).pc = true
  occupant : ∀ k, c.slot = some k → stored (c.starts k).pc = true
  taken : ∀ n k, engineOf (c.stops n).pc = some k → (c.starts k).pc = .ok ∧ c.slot ≠ some k

theorem slotInv_start : SlotInv {} := by
  constructor <;> simp [inside, engineOf]

/-- The invariant speaks of where the calls are, of the slot and of its mutex, and of nothing
else. -/
theorem SlotInv.congr {c c' : Core} (h : SlotInv c)
    (hpc : ∀ k, (c'.starts k).pc = (c.starts k).pc) (hstops : c'.stops = c.stops)
    (hslot : c'.slot = c.slot) (hlock : c'.lock = c.lock) : SlotInv c' := by
  constructor
  · intro k
    rw [hlock, hpc, h.holder]
  · intro k hk
    rw [hpc]
    exact h.occupant k (hslot ▸ hk)
  · intro n k hk
    rw [hpc, hslot]
    exact h.taken n k (hstops ▸ hk)

/-- An engine in the slot whose start is no longer inside the mutex has been handed out. -/
theorem ok_of_stored {pc : StartPc} (hs : stored pc = true) (hi : inside pc = false) :
    pc = .ok := by
  cases pc <;> simp_all [stored, inside]

section StartStep

variable {v : View} {s s' : Session} {ok : Bool} {e : CallEffect}

/-- A start that takes the mutex was waiting for it and found it free. -/
theorem startStep_lock (h : s.startStep v ok = some (s', .lock)) :
    v.locked = false ∧ s.pc = .lock ∧ s'.pc = .check := by
  cases startStep_cases h with
  | lock hpc hfree => exact ⟨hfree, hpc, rfl⟩

/-- A start that releases the mutex is inside, and is outside afterwards. -/
theorem startStep_unlock (h : s.startStep v ok = some (s', .unlock)) :
    inside s.pc = true ∧ inside s'.pc = false ∧ (stored s.pc = true → stored s'.pc = true) := by
  cases startStep_cases h with
  | unlock hpc | unlockErr hpc => simp [hpc, inside, stored]

/-- A start that stores its engine does so as its last fallible step is behind it. -/
theorem startStep_store (h : s.startStep v ok = some (s', .store)) :
    s.pc = .store ∧ s'.pc = .disarm := by
  cases startStep_cases h with
  | store hpc => exact ⟨hpc, rfl⟩

/-- Any other step of a start stays on its side of the mutex, and does not leave the slot. -/
theorem startStep_other (h : s.startStep v ok = some (s', e)) (h1 : e ≠ .lock) (h2 : e ≠ .unlock)
    (h3 : e ≠ .store) :
    inside s'.pc = inside s.pc ∧ (stored s.pc = true → stored s'.pc = true) := by
  have hedge := startStep_edge h
  generalize s.pc = pc, s'.pc = pc' at hedge ⊢
  cases hedge <;> first | exact ⟨rfl, id⟩ | exact ⟨rfl, nofun⟩ | contradiction

/-- A start that has returned takes no step. -/
theorem startStep_ok (hpc : s.pc = .ok) : s.startStep v ok = none := by
  simp [Session.startStep, hpc]

end StartStep

/-- A call is inside nothing and has stored nothing. -/
theorem inside_called (args : StartArgs) : inside (Session.called args).pc = false := by
  cases h : args.entry <;> simp [Session.called, h, inside]

/-- A start that has not returned moves on: what the invariant says of the slot stays, where an
engine in the slot stays stored, and what it says of the stops stays as it is. -/
theorem SlotInv.start_frame {c : Core} (h : SlotInv c) {k : Nat} {s : Session}
    (hnotok : (c.starts k).pc ≠ .ok) (hkeep : stored (c.starts k).pc = true → stored s.pc = true) :
    (∀ j, c.slot = some j → stored ((c.modify k fun _ => s).starts j).pc = true) ∧
    (∀ n j, engineOf (c.stops n).pc = some j →
      ((c.modify k fun _ => s).starts j).pc = .ok ∧ c.slot ≠ some j) := by
  constructor
  · intro j hj
    by_cases hjk : j = k
    · subst hjk
      simpa using hkeep (h.occupant j hj)
    · simpa [hjk] using h.occupant j hj
  · intro n j hj
    have htaken := h.taken n j hj
    have hjk : j ≠ k := by
      rintro rfl
      exact hnotok htaken.1
    simpa [hjk] using htaken

/-- A step of a start keeps the invariant: the mutex is taken where it is free and released by its
holder, and only its holder stores. -/
theorem SlotInv.start {c : Core} (h : SlotInv c) {k : Nat} {ok : Bool} {s : Session}
    {e : CallEffect}
    (hstep : (c.starts k).startStep (c.view k) ok = some (s, e)) :
    SlotInv ((c.modify k fun _ => s).apply k e) := by
  have hnotok : (c.starts k).pc ≠ .ok := by
    intro hok
    rw [startStep_ok hok] at hstep
    cases hstep
  cases e with
  | lock =>
    obtain ⟨hfree, hpc, hpc'⟩ := startStep_lock hstep
    have hlock : c.lock = none := by simpa [Core.view] using hfree
    obtain ⟨hoccupant, htaken⟩ := h.start_frame (s := s) hnotok (by simp [hpc, stored])
    refine ⟨?_, hoccupant, htaken⟩
    intro j
    by_cases hj : j = k
    · subst hj
      simp [Core.apply, hpc', inside]
    · have := h.holder j
      simp only [hlock] at this
      simp [Core.apply, hj, Ne.symm hj, ← this]
  | unlock =>
    obtain ⟨hin, hout, hkeep⟩ := startStep_unlock hstep
    have hlock := (h.holder k).mpr hin
    obtain ⟨hoccupant, htaken⟩ := h.start_frame hnotok hkeep
    refine ⟨?_, hoccupant, htaken⟩
    intro j
    by_cases hj : j = k
    · subst hj
      simp [Core.apply, hout]
    · have := h.holder j
      simp only [hlock, Option.some.injEq] at this
      simp [Core.apply, hj, ← this, Ne.symm hj]
  | store =>
    obtain ⟨hpc, hpc'⟩ := startStep_store hstep
    obtain ⟨-, htaken⟩ := h.start_frame (s := s) hnotok (by simp [hpc, stored])
    constructor
    · intro j
      by_cases hj : j = k
      · subst hj
        have := h.holder j
        simpa [Core.apply, hpc', hpc, inside] using this
      · simpa [Core.apply, hj] using h.holder j
    · intro j hj
      obtain rfl : k = j := by simpa [Core.apply] using hj
      simp [hpc', stored]
    · intro n j hj
      -- the engine of a stop has been handed out, so it is not the one that is stored here
      refine ⟨by simpa using (htaken n j hj).1, ?_⟩
      have hjk : k ≠ j := by
        rintro rfl
        exact hnotok (h.taken n k hj).1
      simpa [Core.apply] using hjk
  | none | removeSocket | bindSocket | rotate =>
    obtain ⟨hin, hkeep⟩ := startStep_other hstep (by simp) (by simp) (by simp)
    obtain ⟨hoccupant, htaken⟩ := h.start_frame hnotok hkeep
    refine ⟨?_, hoccupant, htaken⟩
    intro j
    by_cases hj : j = k
    · subst hj
      simpa [Core.apply, hin] using h.holder j
    · simpa [Core.apply, hj] using h.holder j

/-- What a stop does to the session it tears down, one line at a time. -/
inductive Teardown : (Session → Session) → Prop
  | keep : Teardown id
  | cancel : Teardown Session.cancel
  | releasePt : Teardown Session.releasePt
  | abort (t : Tracked) : Teardown fun s => { s with tasks := s.tasks.abort t }
  | clear : Teardown fun s => { s with status := { s.status with running := false } }

/-- None of it moves the start of the session. -/
theorem Teardown.pc {f : Session → Session} (h : Teardown f) (s : Session) : (f s).pc = s.pc := by
  cases h <;> rfl

section StopStep

variable {c c' : Core} {n : Nat} {timedOut : Bool}

/-- `stop`'s first line: with the mutex free, the slot is emptied. -/
theorem stopStep_take (hpc : (c.stops n).pc = .take) (h : c.stopStep n timedOut = some c') :
    c.lock = none ∧
      ((∃ k, c.slot = some k ∧ c' = { c with slot := none }.goto n (.cancel k)) ∨
        (c.slot = none ∧ c' = c.goto n (.done none))) := by
  simp only [Core.stopStep, hpc] at h
  cases hlock : c.lock <;> cases hslot : c.slot <;>
    simp only [hlock, hslot, Option.isSome, reduceIte, Option.some.injEq, reduceCtorEq] at h
  · exact ⟨rfl, .inr ⟨rfl, h.symm⟩⟩
  · exact ⟨rfl, .inl ⟨_, rfl, h.symm⟩⟩

/-- Every later line works on the engine the stop has taken, and goes on with the same engine. -/
theorem stopStep_tear (hpc : tearing (c.stops n).pc = true) (h : c.stopStep n timedOut = some c') :
    ∃ k f pc, engineOf (c.stops n).pc = some k ∧ engineOf pc = some k ∧ Teardown f ∧
      c' = (c.modify k f).goto n pc := by
  have hid : ∀ k, c.modify k id = c := by
    intro k
    simp [Core.modify]
  cases hstop : (c.stops n).pc with
  | idle | take | done => simp [hstop, tearing] at hpc
  | cancel k =>
    simp only [Core.stopStep, hstop, Option.some.injEq] at h
    exact ⟨k, _, _, rfl, rfl, .cancel, h.symm⟩
  | shutdownPt k =>
    simp only [Core.stopStep, hstop] at h
    split at h
    · exact ⟨k, _, .joinPt k, rfl, rfl, .releasePt, (Option.some.inj h).symm⟩
    · exact ⟨k, id, .abort k .arti, rfl, rfl, .keep, by rw [hid]; exact (Option.some.inj h).symm⟩
  | joinPt k =>
    simp only [Core.stopStep, hstop] at h
    split at h
    · cases h
    · exact ⟨k, id, .abort k .arti, rfl, rfl, .keep, by rw [hid]; exact (Option.some.inj h).symm⟩
  | abort k t =>
    simp only [Core.stopStep, hstop, Option.some.injEq] at h
    exact ⟨k, _, _, rfl, rfl, .abort t, h.symm⟩
  | join k t =>
    simp only [Core.stopStep, hstop] at h
    split at h
    · cases h
    · refine ⟨k, id, _, rfl, ?_, .keep, by rw [hid]; exact (Option.some.inj h).symm⟩
      cases t <;> rfl
  | clear k =>
    simp only [Core.stopStep, hstop, Option.some.injEq] at h
    exact ⟨k, _, _, rfl, rfl, .clear, h.symm⟩

/-- A stop that takes a step is at its first line or in the middle of a teardown. -/
theorem stopStep_pc (h : c.stopStep n timedOut = some c') :
    (c.stops n).pc = .take ∨ tearing (c.stops n).pc = true := by
  cases hpc : (c.stops n).pc <;> simp_all [Core.stopStep, tearing]

end StopStep

/-- Where the calls of `stop` are changes only at the call that goes on. -/
theorem engineOf_goto (c : Core) (n m : Nat) (pc : StopPc) :
    engineOf ((c.goto n pc).stops m).pc =
      if m = n then engineOf pc else engineOf (c.stops m).pc := by
  by_cases h : m = n
  · subst h
    simp
  · simp [h]

/-- A step of a stop keeps the invariant: it takes the engine with the mutex free, and afterwards
touches nothing the invariant speaks of but its own place. -/
theorem SlotInv.stop {c c' : Core} (h : SlotInv c) {n : Nat} {timedOut : Bool}
    (hstep : c.stopStep n timedOut = some c') : SlotInv c' := by
  rcases stopStep_pc hstep with hpc | hpc
  · obtain ⟨hlock, ⟨k, hslot, rfl⟩ | ⟨-, rfl⟩⟩ := stopStep_take hpc hstep
    · have hout : inside (c.starts k).pc = false := by
        have := h.holder k
        simpa [hlock] using this
      have hok : (c.starts k).pc = .ok := ok_of_stored (h.occupant k hslot) hout
      constructor
      · exact h.holder
      · intro j hj
        simp at hj
      · intro m j hj
        rw [engineOf_goto] at hj
        split at hj
        · obtain rfl : k = j := by simpa [engineOf] using hj
          exact ⟨hok, by simp⟩
        · exact ⟨(h.taken m j hj).1, by simp⟩
    · constructor
      · exact h.holder
      · exact h.occupant
      · intro m j hj
        rw [engineOf_goto] at hj
        split at hj
        · simp [engineOf] at hj
        · exact h.taken m j hj
  · obtain ⟨k, f, pc, hold, hnew, hf, rfl⟩ := stopStep_tear hpc hstep
    have hpcs : ∀ j, ((c.modify k f).starts j).pc = (c.starts j).pc := by
      intro j
      by_cases hj : j = k
      · subst hj
        simp [hf.pc]
      · simp [hj]
    constructor
    · intro j
      simpa [hpcs] using h.holder j
    · intro j hj
      simpa [hpcs] using h.occupant j hj
    · intro m j hj
      rw [engineOf_goto] at hj
      split at hj
      · obtain rfl : k = j := by simpa [hnew] using hj
        simpa [hf.pc] using h.taken n k hold
      · simpa [hpcs] using h.taken m j hj

theorem SlotInv.next {c c' : Core} {a : Act} (h : SlotInv c) (hstep : c.step a = some c') :
    SlotInv c' := by
  cases a with
  | call k args =>
    obtain ⟨hidle, rfl⟩ := Core.step_call hstep
    constructor
    · intro j
      by_cases hj : j = k
      · subst hj
        have hout : inside (c.starts j).pc = false := by
          rw [hidle]
          rfl
        simpa [inside_called, hout] using h.holder j
      · simpa [hj] using h.holder j
    · intro j hj
      have hstored := h.occupant j hj
      by_cases hjk : j = k
      · subst hjk
        simp [hidle, stored] at hstored
      · simpa [hjk] using hstored
    · intro n j hj
      have htaken := h.taken n j hj
      by_cases hjk : j = k
      · subst hjk
        simp [hidle] at htaken
      · simpa [hjk] using htaken
  | start k ok =>
    obtain ⟨s, e, hs, rfl⟩ := Core.step_start hstep
    exact h.start hs
  | callStop n =>
    obtain ⟨-, rfl⟩ := Core.step_callStop hstep
    refine ⟨h.holder, h.occupant, ?_⟩
    intro m j hj
    by_cases hm : m = n
    · subst hm
      simp [engineOf] at hj
    · exact h.taken m j (by simpa [hm] using hj)
  | stop n timedOut => exact h.stop hstep
  | handleStop k =>
    obtain ⟨-, rfl⟩ := Core.step_handleStop hstep
    refine h.congr ?_ rfl rfl rfl
    intro j
    by_cases hj : j = k <;> simp [hj]
  | task k a =>
    obtain ⟨t, e, -, rfl⟩ := Core.step_task hstep
    refine h.congr ?_ (by simp) (by simp) (by simp)
    intro j
    rw [Core.task_starts]
    by_cases hj : j = k <;> simp [hj]

/-- What one step of the process can make of session `j`. -/
inductive SessionStep (c : Core) (a : Act) (j : Nat) : Session → Prop
  | same : SessionStep c a j (c.starts j)
  | called {args : StartArgs} : a = .call j args → (c.starts j).pc = .idle →
      SessionStep c a j (Session.called args)
  | start {ok : Bool} {s : Session} {e : CallEffect} : a = .start j ok →
      (c.starts j).startStep (c.view j) ok = some (s, e) → SessionStep c a j s
  | teardown {f : Session → Session} : Teardown f → SessionStep c a j (f (c.starts j))
  | task {b : TaskAct} {t : Tasks} {e : TaskEffect} : a = .task j b →
      (c.starts j).tasks.step (c.starts j).status c.token b = some (t, e) →
      SessionStep c a j { c.starts j with
        tasks := t, fdLog := (c.starts j).fdLog ++ taskEvents (c.starts j).args.fd e }

theorem session_next {c c' : Core} {a : Act} (hstep : c.step a = some c') (j : Nat) :
    SessionStep c a j (c'.starts j) := by
  cases a with
  | call k args =>
    obtain ⟨hidle, rfl⟩ := Core.step_call hstep
    by_cases hj : j = k
    · subst hj
      rw [Core.modify_self]
      exact .called rfl hidle
    · rw [Core.modify_of_ne _ _ _ hj]
      exact .same
  | start k ok =>
    obtain ⟨s, e, hs, rfl⟩ := Core.step_start hstep
    rw [Core.apply_starts]
    by_cases hj : j = k
    · subst hj
      rw [Core.modify_self]
      exact .start rfl hs
    · rw [Core.modify_of_ne _ _ _ hj]
      exact .same
  | callStop n =>
    obtain ⟨-, rfl⟩ := Core.step_callStop hstep
    exact .same
  | stop n b =>
    rcases stopStep_pc hstep with hpc | hpc
    · obtain ⟨-, ⟨k, -, rfl⟩ | ⟨-, rfl⟩⟩ := stopStep_take hpc hstep
      · exact .same
      · exact .same
    · obtain ⟨k, f, pc, -, -, hf, rfl⟩ := stopStep_tear hpc hstep
      rw [Core.goto_starts]
      by_cases hj : j = k
      · subst hj
        rw [Core.modify_self]
        exact .teardown hf
      · rw [Core.modify_of_ne _ _ _ hj]
        exact .same
  | handleStop k =>
    obtain ⟨-, rfl⟩ := Core.step_handleStop hstep
    by_cases hj : j = k
    · subst hj
      rw [Core.modify_self]
      exact .teardown .cancel
    · rw [Core.modify_of_ne _ _ _ hj]
      exact .same
  | task k b =>
    obtain ⟨t, e, ht, rfl⟩ := Core.step_task hstep
    rw [Core.task_starts]
    split
    · rename_i hj
      subst hj
      exact .task rfl ht
    · exact .same

end FfVpn.Analysis.SlotInvariant
