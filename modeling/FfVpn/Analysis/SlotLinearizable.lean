import FfVpn.Analysis.FailedBringUp
import FfVpn.Library.Linearizable

/-!
# Is the engine slot linearizable

`start` and `stop` may be called from any threads at once. `slotNext` is the slot as a single thread
would see it: a start puts its engine into an empty slot, and is refused by one that is not; a stop
empties it. A start takes effect where it stores its engine or is about to give the mutex back with
an error, a stop where it takes the engine, and an engine is in the slot between the two
(`SeenInv`). So the calls of every run have an order in which one thread could have made them.
-/

set_option autoImplicit false

namespace FfVpn.Analysis.SlotLinearizable

open FfVpn.Library.Transition FfVpn.Library.Linearizable FfVpn.Model.Session FfVpn.Model.Engine
  FfVpn.Analysis.SlotInvariant FfVpn.Analysis.SlotLiveness FfVpn.Analysis.SessionEnd
  FfVpn.Analysis.FailedBringUp

/-! ## One thread -/

/-- A call of `start` or `stop`. -/
inductive ApiCall
  | start (k : Nat)
  | stop (n : Nat)
  deriving DecidableEq

/-- What it returns; `stopped` says which engine has been torn down. -/
inductive ApiResult
  | started
  | failed (f : FailPoint)
  | stopped (engine : Option Nat)
  deriving DecidableEq

/-- Where a start may fail, by what is in the slot: with `AlreadyRunning` exactly if there is an
engine. -/
def failsOn (slot : Option Nat) : FailPoint → Bool
  | .arguments => true
  | .alreadyRunning => slot.isSome
  | _ => slot.isNone

/-- The slot after a call with a result; `none` where the call cannot have the result. -/
def slotNext (slot : Option Nat) : ApiCall → ApiResult → Option (Option Nat)
  | .start k, .started => if slot = none then some (some k) else none
  | .start _, .failed f => if failsOn slot f then some slot else none
  | .stop _, .stopped engine => if engine = slot then some none else none
  | _, _ => none

/-! ## The process -/

/-- The call has been made. -/
def called (c : Core) : ApiCall → Prop
  | .start k => (c.starts k).pc ≠ .idle
  | .stop n => (c.stops n).pc ≠ .idle

/-- The call has returned. -/
def returned (c : Core) : ApiCall → ApiResult → Prop
  | .start k, .started => (c.starts k).pc = .ok
  | .start k, .failed f => (c.starts k).pc = .err f
  | .stop n, .stopped engine => (c.stops n).pc = .done engine
  | _, _ => False

/-- The process, as an object with these calls. -/
def slotObject : Object Core Act ApiCall ApiResult where
  step := Core.step
  called := called
  returned := returned

/-- The result of a start that has taken effect. -/
def startResult : StartPc → Option ApiResult
  | .disarm | .unlock | .ok => some .started
  | .dropGuard f | .err f => some (.failed f)
  | _ => none

/-- The result of a stop that has taken effect. -/
def stopResult (pc : StopPc) : Option ApiResult :=
  match pc with
  | .idle | .take => none
  | pc => some (.stopped (engineOf pc))

/-- The result with which a start takes effect in its next line. -/
def startPoint : StartPc → Bool → Option ApiResult
  | .parse, false => some (.failed .arguments)
  | .store, _ => some .started
  | .unlockErr f, _ => some (.failed f)
  | _, _ => none

/-- The call that takes effect in a step. -/
def point (c : Core) : Act → Option (ApiCall × ApiResult)
  | .start k ok => (startPoint (c.starts k).pc ok).map fun r => (.start k, r)
  | .stop n _ => if (c.stops n).pc = .take then some (.stop n, .stopped c.slot) else none
  | _ => none

def passed (c : Core) : ApiCall → Option ApiResult
  | .start k => startResult (c.starts k).pc
  | .stop n => stopResult (c.stops n).pc

/-! ## What a start has seen -/

/-- What a start inside the mutex has seen of the slot: nothing while it brings its engine up, and
otherwise what it fails with. -/
def sees (slot : Option Nat) : StartPc → Bool
  | .dropPt f | .unlockErr f => failsOn slot f
  | pc => !insideEngineStart pc || slot.isNone

/-- What a start has seen is still so. -/
def SeenInv (c : Core) : Prop := ∀ k, sees c.slot (c.starts k).pc = true

theorem sees_of_outside {slot : Option Nat} {pc : StartPc} (h : inside pc = false) :
    sees slot pc = true := by
  cases pc <;> simp_all [inside, sees, insideEngineStart]

theorem startStep_sees {v : View} {s s' : Session} {ok : Bool} {e : CallEffect} {slot : Option Nat}
    (h : s.startStep v ok = some (s', e)) (hview : v.occupied = slot.isSome)
    (hsees : sees slot s.pc = true) (he : e ≠ .store) : sees slot s'.pc = true := by
  have hedge := startStep_edge h
  generalize s.pc = pc, s'.pc = pc' at hedge hsees ⊢
  cases hedge with
  | parse | refuse | unlock | dropGuard => exact sees_of_outside rfl
  | store => exact absurd rfl he
  | _ => simp_all [sees, insideEngineStart, failsOn]

theorem SeenInv.next {c c' : Core} {a : Act} (h : SeenInv c) (hslot : SlotInv c)
    (hstep : c.step a = some c') : SeenInv c' := by
  intro j
  cases a with
  | call k args =>
    obtain ⟨-, rfl⟩ := Core.step_call hstep
    by_cases hj : j = k
    · subst hj
      rw [Core.modify_self]
      exact sees_of_outside (inside_called args)
    · simpa [hj] using h j
  | start k ok =>
    obtain ⟨s, e, hs, rfl⟩ := Core.step_start hstep
    rw [Core.apply_starts, apply_slot, Core.modify_slot]
    by_cases he : e = .store
    · -- whoever stores has the mutex, and nobody else is inside
      rw [if_pos he]
      obtain ⟨hstore, hdisarm⟩ := startStep_store (he ▸ hs)
      by_cases hj : j = k
      · subst hj
        rw [Core.modify_self, hdisarm]
        rfl
      · rw [Core.modify_of_ne _ _ _ hj]
        apply sees_of_outside
        have hlock := (hslot.holder k).mpr (by rw [hstore]; rfl)
        have hother := hslot.holder j
        rw [hlock, Option.some.injEq] at hother
        simpa using mt hother.mpr (Ne.symm hj)
    · rw [if_neg he]
      by_cases hj : j = k
      · subst hj
        rw [Core.modify_self]
        exact startStep_sees hs rfl (h j) he
      · rw [Core.modify_of_ne _ _ _ hj]
        exact h j
  | callStop n =>
    obtain ⟨-, rfl⟩ := Core.step_callStop hstep
    exact h j
  | stop n b =>
    rcases stopStep_pc hstep with hpc | hpc
    · obtain ⟨hlock, htake⟩ := stopStep_take hpc hstep
      have houtside : inside (c.starts j).pc = false := by
        have := hslot.holder j
        simpa [hlock] using this
      rcases htake with ⟨k, -, rfl⟩ | ⟨-, rfl⟩ <;> exact sees_of_outside houtside
    · obtain ⟨k, f, pc, -, -, hf, rfl⟩ := stopStep_tear hpc hstep
      by_cases hj : j = k
      · subst hj
        simpa [hf.pc] using h j
      · simpa [hj] using h j
  | handleStop k =>
    obtain ⟨-, rfl⟩ := Core.step_handleStop hstep
    by_cases hj : j = k
    · subst hj
      simpa using h j
    · simpa [hj] using h j
  | task k b =>
    obtain ⟨t, e, -, rfl⟩ := Core.step_task hstep
    rw [Core.applyTask_slot, Core.task_starts]
    by_cases hj : j = k <;> simpa [hj] using h _

/-! ## Points -/

/-- A line of a start in which it does not take effect leaves the slot as it is. -/
theorem startStep_quiet {v : View} {s s' : Session} {ok : Bool} {e : CallEffect}
    (h : s.startStep v ok = some (s', e)) (hpoint : startPoint s.pc ok = none) :
    startResult s'.pc = startResult s.pc ∧ e ≠ .store := by
  have hedge := startStep_edge h
  generalize s.pc = pc, s'.pc = pc' at hedge hpoint ⊢
  cases hedge <;> simp_all [startPoint, startResult]

/-- The line in which it does. -/
theorem startStep_effect {v : View} {s s' : Session} {ok : Bool} {e : CallEffect} {r : ApiResult}
    (h : s.startStep v ok = some (s', e)) (hpoint : startPoint s.pc ok = some r) :
    startResult s.pc = none ∧ startResult s'.pc = some r ∧
      ((r = .started ∧ s.pc = .store ∧ e = .store) ∨
        ∃ f, r = .failed f ∧ e ≠ .store ∧ (f = .arguments ∨ s.pc = .unlockErr f)) := by
  have hedge := startStep_edge h
  generalize s.pc = pc, s'.pc = pc' at hedge hpoint ⊢
  cases hedge with
  | refuse hok =>
    obtain rfl : .failed .arguments = r := by simpa [startPoint, hok] using hpoint
    simp [startResult]
  | store =>
    obtain rfl : .started = r := by simpa [startPoint] using hpoint
    simp [startResult]
  | unlockErr f =>
    obtain rfl : .failed f = r := by simpa [startPoint] using hpoint
    simp [startResult]
  | _ => simp_all [startPoint]

/-- The points of the process. -/
def slotPoints : Points Core Act (Option Nat) ApiCall ApiResult where
  abs := Core.slot
  point := point
  passed := passed
  Inv := fun c => SlotInv c ∧ SeenInv c

/-- A line of a stop in which it does not take effect. -/
theorem stopStep_quiet {c c' : Core} {n : Nat} {b : Bool} (h : c.stopStep n b = some c')
    (hpoint : (c.stops n).pc ≠ .take) : c'.slot = c.slot ∧ ∀ x, passed c' x = passed c x := by
  have htear : tearing (c.stops n).pc = true := (stopStep_pc h).resolve_left hpoint
  obtain ⟨k, f, pc, hold, hnew, hf, rfl⟩ := stopStep_tear htear h
  refine ⟨rfl, fun x => ?_⟩
  cases x with
  | start j =>
    by_cases hj : j = k
    · subst hj
      simp [passed, hf.pc]
    · simp [passed, hj]
  | stop m =>
    by_cases hm : m = n
    · -- the engine is that which the stop has taken
      subst hm
      have hresult : ∀ pc, engineOf pc = some k → stopResult pc = some (.stopped (some k)) := by
        intro pc hpc
        cases pc <;> simp_all [stopResult, engineOf]
      simp [passed, hresult _ hnew, hresult _ hold]
    · simp [passed, hm]

/-- The line in which it does. -/
theorem stopStep_effect {c c' : Core} {n : Nat} {b : Bool} (h : c.stopStep n b = some c')
    (hpoint : (c.stops n).pc = .take) :
    c'.slot = none ∧ passed c (.stop n) = none ∧ passed c' (.stop n) = some (.stopped c.slot) ∧
      ∀ y, y ≠ .stop n → passed c' y = passed c y := by
  have hother : ∀ (d : Core) (pc : StopPc) (y : ApiCall), d.starts = c.starts → d.stops = c.stops →
      y ≠ .stop n → passed (d.goto n pc) y = passed c y := by
    intro d pc y hstarts hstops hy
    cases y with
    | start j => simp [passed, hstarts]
    | stop m =>
      have hm : m ≠ n := by
        rintro rfl
        exact hy rfl
      simp [passed, hm, hstops]
  have hbefore : passed c (.stop n) = none := by simp [passed, stopResult, hpoint]
  obtain ⟨-, ⟨k, hslot, rfl⟩ | ⟨hslot, rfl⟩⟩ := stopStep_take hpoint h
  · refine ⟨rfl, hbefore, ?_, fun y hy => hother _ _ y rfl rfl hy⟩
    simp [passed, stopResult, engineOf, hslot]
  · refine ⟨hslot, hbefore, ?_, fun y hy => hother _ _ y rfl rfl hy⟩
    simp [passed, stopResult, engineOf, hslot]

/-- A step of start `k`, for the other calls. -/
theorem passed_start_of_ne (c : Core) (k : Nat) (s : Session) (e : CallEffect) {y : ApiCall}
    (hy : y ≠ .start k) : passed ((c.modify k fun _ => s).apply k e) y = passed c y := by
  cases y with
  | start j =>
    have hj : j ≠ k := by
      rintro rfl
      exact hy rfl
    simp [passed, hj]
  | stop m => simp [passed]

theorem slotPoints_quiet {c c' : Core} {a : Act} (hstep : c.step a = some c')
    (hpoint : point c a = none) : c'.slot = c.slot ∧ ∀ x, passed c' x = passed c x := by
  have hframe : c'.slot = c.slot →
      (∀ j, startResult (c'.starts j).pc = startResult (c.starts j).pc) →
      (∀ n, stopResult (c'.stops n).pc = stopResult (c.stops n).pc) →
      c'.slot = c.slot ∧ ∀ x, passed c' x = passed c x := by
    intro hslot hstarts hstops
    refine ⟨hslot, fun x => ?_⟩
    cases x with
    | start j => exact hstarts j
    | stop n => exact hstops n
  cases a with
  | call k args =>
    obtain ⟨hidle, rfl⟩ := Core.step_call hstep
    refine hframe rfl (fun j => ?_) fun _ => rfl
    by_cases hj : j = k
    · subst hj
      rw [Core.modify_self, hidle]
      cases hentry : args.entry <;> simp [Session.called, hentry, startResult]
    · simp [hj]
  | start k ok =>
    obtain ⟨s, e, hs, rfl⟩ := Core.step_start hstep
    obtain ⟨hresult, he⟩ := startStep_quiet hs (by simpa [point] using hpoint)
    refine hframe ?_ (fun j => ?_) fun _ => by simp
    · rw [apply_slot, if_neg he, Core.modify_slot]
    · by_cases hj : j = k
      · subst hj
        simp [hresult]
      · simp [hj]
  | callStop n =>
    obtain ⟨hidle, rfl⟩ := Core.step_callStop hstep
    refine hframe rfl (fun _ => rfl) fun m => ?_
    by_cases hm : m = n
    · subst hm
      simp [hidle, stopResult]
    · simp [hm]
  | stop n b =>
    refine stopStep_quiet hstep fun hpc => ?_
    simp [point, hpc] at hpoint
  | handleStop k =>
    obtain ⟨-, rfl⟩ := Core.step_handleStop hstep
    refine hframe rfl (fun j => ?_) fun _ => rfl
    by_cases hj : j = k <;> simp [hj]
  | task k b =>
    obtain ⟨t, e, -, rfl⟩ := Core.step_task hstep
    refine hframe (by simp) (fun j => ?_) fun _ => by simp
    rw [Core.task_starts]
    by_cases hj : j = k <;> simp [hj]

theorem slotPoints_effect {c c' : Core} {a : Act} {x : ApiCall} {r : ApiResult} (hseen : SeenInv c)
    (hstep : c.step a = some c') (hpoint : point c a = some (x, r)) :
    slotNext c.slot x r = some c'.slot ∧ passed c x = none ∧ passed c' x = some r ∧
      ∀ y, y ≠ x → passed c' y = passed c y := by
  cases a with
  | start k ok =>
    obtain ⟨s, e, hs, rfl⟩ := Core.step_start hstep
    simp only [point, Option.map_eq_some_iff, Prod.mk.injEq] at hpoint
    obtain ⟨_, hr, rfl, rfl⟩ := hpoint
    obtain ⟨hbefore, hafter, heffect⟩ := startStep_effect hs hr
    refine ⟨?_, hbefore, by simpa [passed] using hafter,
      fun y hy => passed_start_of_ne c k s e hy⟩
    have hsees := hseen k
    rcases heffect with ⟨rfl, hstore, rfl⟩ | ⟨f, rfl, he, hfail⟩
    · have hslot : c.slot = none := by simpa [sees, hstore, insideEngineStart] using hsees
      simp [slotNext, hslot, apply_slot]
    · have hfails : failsOn c.slot f = true := by
        rcases hfail with rfl | hpc
        · rfl
        · simpa [sees, hpc] using hsees
      simp [slotNext, hfails, apply_slot, he]
  | stop n b =>
    have hpc : (c.stops n).pc = .take := by
      by_contra hne
      simp [point, hne] at hpoint
    simp only [point, hpc, if_true, Option.some.injEq, Prod.mk.injEq] at hpoint
    obtain ⟨rfl, rfl⟩ := hpoint
    obtain ⟨hslot, heffect⟩ := stopStep_effect hstep hpc
    exact ⟨by simp [slotNext, hslot], heffect⟩
  | call | callStop | handleStop | task => cases hpoint

theorem slotPoints_lawful : slotPoints.Lawful slotObject slotNext {} where
  start := ⟨slotInv_start, fun _ => rfl⟩
  fresh := fun x => by cases x <;> rfl
  inv := fun _ _ _ h hstep => ⟨h.1.next hstep, h.2.next h.1 hstep⟩
  quiet := fun _ _ _ _ hstep hpoint => slotPoints_quiet hstep hpoint
  effect := fun _ _ _ _ _ h hstep hpoint => slotPoints_effect h.2 hstep hpoint
  returned := fun c x r _ h => by
    cases x <;> cases r <;> simp_all [slotObject, returned, slotPoints, passed, startResult,
      stopResult, engineOf]
  called := fun c x r _ h => by
    cases x with
    | start k =>
      intro hidle
      simp [slotPoints, passed, hidle, startResult] at h
    | stop n =>
      intro hidle
      simp [slotPoints, passed, hidle, stopResult] at h

/-- **The engine slot is linearizable.** In every run of any number of `start` and `stop` calls, of
the tasks of their sessions and of whatever else cancels these, the calls that have taken effect
have an order in which one thread could have made them, with the results they have returned: a start
succeeds only on an empty slot, is refused with `AlreadyRunning` exactly on one with an engine, and
every engine is taken by one stop at most. A call that returned before another one was made comes
first. What is in the slot is what the order leaves there. -/
theorem slot_linearizable (as : List Act) (c : Core) (hrun : run Core.step {} as = some c) :
    ∃ order, Linearization slotObject slotNext none {} as c order ∧
      replay slotNext none order = some c.slot :=
  ⟨_, slotPoints_lawful.linearization hrun⟩

/-- A second thread starts while the first one's engine is being torn down: its start finds the slot
empty, as if it had been called after the stop. -/
theorem slot_linearizable_during_stop :
    ∃ c order, run Core.step {} (startOk 0 {} ++
        [Act.callStop 0, .stop 0 false, .call 1 {}] ++ List.replicate 19 (Act.start 1 true)) = some c ∧
      Linearization slotObject slotNext none {} (startOk 0 {} ++
        [Act.callStop 0, .stop 0 false, .call 1 {}] ++ List.replicate 19 (Act.start 1 true)) c order ∧
      (.start 1, .started) ∈ order ∧ replay slotNext none order = some (some 1) := by
  obtain ⟨c, hrun, hreturned, hslot⟩ : ∃ c, run Core.step {} (startOk 0 {} ++
      [Act.callStop 0, .stop 0 false, .call 1 {}] ++ List.replicate 19 (Act.start 1 true)) = some c ∧
      (c.starts 1).pc = .ok ∧ c.slot = some 1 := ⟨_, rfl, rfl, rfl⟩
  obtain ⟨order, horder, hreplay⟩ := slot_linearizable _ c hrun
  exact ⟨c, order, hrun, horder, horder.complete _ _ hreturned, hslot ▸ hreplay⟩

end FfVpn.Analysis.SlotLinearizable
