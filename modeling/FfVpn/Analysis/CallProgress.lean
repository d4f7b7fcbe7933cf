import FfVpn.Analysis.SlotLinearizable

/-!
# Do the calls return

A call of `start` has at most twenty lines, one of `stop` thirteen (`linesLeft`). A call that has
not returned can go on with its next line, or waits for the slot's mutex, which a start has that can
go on itself; or it is a stop that waits for the task of Leaf #1, which it has aborted already
(`ReapInv`). So no two calls wait for each other, whatever the tasks of the sessions do.
-/

set_option autoImplicit false

namespace FfVpn.Analysis.CallProgress

open FfVpn.Library.Transition FfVpn.Model.Ipc FfVpn.Model.LeafConfig FfVpn.Model.Session
  FfVpn.Model.Engine FfVpn.Analysis.SlotInvariant FfVpn.Analysis.SessionEnd
  FfVpn.Analysis.SlotLinearizable

/-! ## Lines -/

/-- How many lines a start has before it at most. -/
def startLinesLeft : StartPc → Nat
  | .idle | .parse => 20
  | .lock => 19
  | .check => 18
  | .ptProvider => 17
  | .ptPort => 16
  | .ptConfig => 15
  | .ptSpawn => 14
  | .artiPort => 13
  | .artiSpawn => 12
  | .leafConfig => 11
  | .leafSpawn => 10
  | .dnsBind => 9
  | .dohClient => 8
  | .ipcStale => 7
  | .ipcBind => 6
  | .ipcPerms => 5
  | .ipcSpawn => 4
  | .store | .dropPt _ => 3
  | .disarm | .unlockErr _ => 2
  | .unlock | .dropGuard _ => 1
  | .ok | .err _ => 0

/-- How many handles a stop has before it, that at hand included. -/
def handlesLeft : Tracked → Nat
  | .arti => 4
  | .leaf => 3
  | .dns => 2
  | .ipc => 1

/-- How many lines a stop has before it. -/
def stopLinesLeft : StopPc → Nat
  | .idle | .take => 13
  | .cancel _ => 12
  | .shutdownPt _ => 11
  | .joinPt _ => 10
  | .abort _ t => 2 * handlesLeft t + 1
  | .join _ t => 2 * handlesLeft t
  | .clear _ => 1
  | .done _ => 0

/-- The lines a call has before it. -/
def linesLeft (c : Core) : ApiCall → Nat
  | .start k => startLinesLeft (c.starts k).pc
  | .stop n => stopLinesLeft (c.stops n).pc

/-- The lines a call has altogether. -/
def maxLines : ApiCall → Nat
  | .start _ => 20
  | .stop _ => 13

/-- The step is a line of the call. -/
def lineOf : ApiCall → Act → Bool
  | .start k, .start j _ => j == k
  | .stop n, .stop m _ => m == n
  | _, _ => false

theorem startStep_less {v : View} {s s' : Session} {ok : Bool} {e : CallEffect}
    (h : s.startStep v ok = some (s', e)) : startLinesLeft s'.pc < startLinesLeft s.pc := by
  have hedge := startStep_edge h
  generalize s.pc = pc, s'.pc = pc' at hedge ⊢
  cases hedge <;> simp [startLinesLeft]

theorem stopStep_less {c c' : Core} {n : Nat} {b : Bool} (h : c.stopStep n b = some c') :
    stopLinesLeft (c'.stops n).pc < stopLinesLeft (c.stops n).pc := by
  cases hpc : (c.stops n).pc with
  | idle | done => simp [Core.stopStep, hpc] at h
  | take =>
    obtain ⟨-, ⟨k, -, rfl⟩ | ⟨-, rfl⟩⟩ := stopStep_take hpc h <;> simp [stopLinesLeft]
  | cancel k | abort k t | clear k =>
    simp only [Core.stopStep, hpc, Option.some.injEq] at h
    subst h
    simp [stopLinesLeft]
  | shutdownPt k | joinPt k =>
    simp only [Core.stopStep, hpc] at h
    split at h <;> simp only [Option.some.injEq, reduceCtorEq] at h <;> subst h <;>
      simp [stopLinesLeft, handlesLeft]
  | join k t =>
    simp only [Core.stopStep, hpc] at h
    split at h
    · cases h
    · obtain rfl := Option.some.inj h
      cases t <;> simp [Tracked.next, stopLinesLeft, handlesLeft]

theorem sessionStep_le {c : Core} {a : Act} {k : Nat} {s : Session} (h : SessionStep c a k s) :
    startLinesLeft s.pc ≤ startLinesLeft (c.starts k).pc := by
  cases h with
  | same | task => exact Nat.le_refl _
  | called _ hidle =>
    rename_i args _
    rw [hidle]
    cases hentry : args.entry <;> simp [Session.called, hentry, startLinesLeft]
  | start _ hs => exact Nat.le_of_lt (startStep_less hs)
  | teardown hf => rw [hf.pc]

/-- A line brings its call nearer to its return. -/
theorem linesLeft_line {c c' : Core} {a : Act} {x : ApiCall} (hstep : c.step a = some c')
    (hline : lineOf x a = true) : linesLeft c' x < linesLeft c x := by
  cases x with
  | start k =>
    cases a with
    | start j ok =>
      obtain rfl : j = k := by simpa [lineOf] using hline
      obtain ⟨s, e, hs, rfl⟩ := Core.step_start hstep
      simpa [linesLeft] using startStep_less hs
    | call | callStop | stop | handleStop | task => cases hline
  | stop n =>
    cases a with
    | stop m b =>
      obtain rfl : m = n := by simpa [lineOf] using hline
      exact stopStep_less hstep
    | call | start | callStop | handleStop | task => cases hline

/-- No step takes it back. -/
theorem linesLeft_le {c c' : Core} {a : Act} (hstep : c.step a = some c') (x : ApiCall) :
    linesLeft c' x ≤ linesLeft c x := by
  cases x with
  | start k => exact sessionStep_le (session_next hstep k)
  | stop n =>
    rcases stops_next hstep n with hsame | ⟨rfl, htake⟩ | ⟨b, -, hs⟩
    · rw [linesLeft, linesLeft, hsame]
    · obtain ⟨hidle, -⟩ := Core.step_callStop hstep
      simp [linesLeft, htake, hidle, stopLinesLeft]
    · exact Nat.le_of_lt (stopStep_less hs)

/-! ## Leaf #1 -/

/-- The task around Leaf #1 is not there to stay. -/
def Reaped (t : Tasks) : Prop := t.leaf1.wrapper ≠ .live

theorem leaf_step_reaped {l l' : Leaf} {cancelled : Bool} {a : LeafAct} {e : LeafEffect}
    (h : l.step cancelled a = some (l', e)) (hw : l.wrapper ≠ .live) : l'.wrapper ≠ .live := by
  cases a <;> simp only [Leaf.step] at h <;> split at h <;>
    simp only [Option.some.injEq, Prod.mk.injEq, reduceCtorEq] at h <;> obtain ⟨rfl, -⟩ := h <;>
    simp_all

theorem abort_ne_live (t : Task) : t.abort ≠ .live := by
  cases t <;> simp [Task.abort]

theorem reaped_stable : Stable Reaped := by
  constructor
  · intro status token t t' a e hstep h
    cases taskMove_of_step hstep with
    | leaf1 _ hleaf => exact leaf_step_reaped hleaf h
    | _ => exact h
  · exact fun h => h
  · exact fun _ => abort_ne_live _
  · intro t hd h
    cases hd <;> exact h

/-- A stop that waits for the task of Leaf #1 has aborted it. -/
def ReapInv (c : Core) : Prop :=
  ∀ n k, (c.stops n).pc = .joinPt k → Reaped (c.starts k).tasks

/-- A stop comes to wait for it by the line that aborts it. -/
theorem stopStep_joinPt {c c' : Core} {n k : Nat} {b : Bool} (h : c.stopStep n b = some c')
    (hjoin : (c'.stops n).pc = .joinPt k) :
    c' = (c.modify k Session.releasePt).goto n (.joinPt k) := by
  cases hpc : (c.stops n).pc with
  | idle | done => simp [Core.stopStep, hpc] at h
  | take => obtain ⟨-, ⟨j, -, rfl⟩ | ⟨-, rfl⟩⟩ := stopStep_take hpc h <;> simp at hjoin
  | cancel j | abort j t | clear j =>
    simp only [Core.stopStep, hpc, Option.some.injEq] at h
    subst h
    simp at hjoin
  | shutdownPt j =>
    simp only [Core.stopStep, hpc] at h
    split at h <;> simp only [Option.some.injEq] at h <;> subst h
    · obtain rfl : j = k := by simpa using hjoin
      rfl
    · simp at hjoin
  | joinPt j =>
    simp only [Core.stopStep, hpc] at h
    split at h
    · cases h
    · obtain rfl := Option.some.inj h
      simp at hjoin
  | join j t =>
    simp only [Core.stopStep, hpc] at h
    split at h
    · cases h
    · obtain rfl := Option.some.inj h
      cases t <;> simp [Tracked.next] at hjoin

theorem ReapInv.next {c c' : Core} {a : Act} (h : ReapInv c) (hslot : SlotInv c)
    (hstep : c.step a = some c') : ReapInv c' := by
  intro n k hjoin
  rcases stops_next hstep n with hsame | ⟨rfl, htake⟩ | ⟨b, -, hs⟩
  · rw [hsame] at hjoin
    have hok := (hslot.taken n k (by rw [hjoin]; rfl)).1
    exact (reaped_stable.next hok hstep).2.2 (h n k hjoin)
  · rw [htake] at hjoin
    cases hjoin
  · -- the line before it drops the transport
    obtain rfl := stopStep_joinPt hs hjoin
    simpa [Reaped, Session.releasePt, Tasks.abortPt] using abort_ne_live _

/-! ## Calls -/

/-- The call can go on: with its next line, whatever the outcome; of a join, where its two seconds
are over. -/
def CanGo (c : Core) : ApiCall → Prop
  | .start k => ∀ ok, (c.step (.start k ok)).isSome
  | .stop n => (c.step (.stop n true)).isSome

/-- A start that has been called and has not returned goes on wherever it does not wait for the
mutex. -/
theorem startStep_isSome {v : View} {s : Session} (hlines : startLinesLeft s.pc ≠ 0)
    (hcalled : s.pc ≠ .idle) (hfree : s.pc = .lock → v.locked = false) (ok : Bool) :
    (s.startStep v ok).isSome := by
  cases hpc : s.pc <;> simp_all [Session.startStep, startLinesLeft] <;> split <;> rfl

theorem canGo_start {c : Core} {k : Nat} (hlines : startLinesLeft (c.starts k).pc ≠ 0)
    (hcalled : (c.starts k).pc ≠ .idle) (hfree : (c.starts k).pc = .lock → c.lock = none) :
    CanGo c (.start k) := by
  intro ok
  simp only [Core.step, Option.isSome_map]
  exact startStep_isSome hlines hcalled (fun hpc => by simp [Core.view, hfree hpc]) ok

/-- The start that has the mutex goes on. -/
theorem canGo_holder {c : Core} (hslot : SlotInv c) {k : Nat} (hlock : c.lock = some k) :
    CanGo c (.start k) := by
  have hinside := (hslot.holder k).mp hlock
  apply canGo_start
  · cases hpc : (c.starts k).pc <;> simp_all [inside, startLinesLeft]
  · intro hidle
    simp [hidle, inside] at hinside
  · intro hpc
    simp [hpc, inside] at hinside

/-- A stop that waits for the task of Leaf #1 goes on as soon as that is dropped. -/
theorem canGo_reaped {c : Core} (h : ReapInv c) {n k : Nat} (hpc : (c.stops n).pc = .joinPt k) :
    CanGo c (.stop n) ∨
      ∃ c', c.step (.task k (.leaf1 .wrapReap)) = some c' ∧ CanGo c' (.stop n) := by
  cases hactive : (c.starts k).tasks.leaf1.wrapper.active with
  | false => exact .inl (by simp [CanGo, Core.step, Core.stopStep, hpc, hactive])
  | true =>
    have haborting : (c.starts k).tasks.leaf1.wrapper = .aborting := by
      have hreaped := h n k hpc
      unfold Reaped at hreaped
      cases hw : (c.starts k).tasks.leaf1.wrapper <;> simp_all [Task.active]
    refine .inr ⟨_, by simp [Core.step, Tasks.step, Leaf.step, haborting]; rfl, ?_⟩
    simp [CanGo, Core.step, Core.stopStep, hpc, Core.applyTask, Task.active]

/-- A stop that has been called and has not returned goes on, waits for the mutex, or waits for the
task of Leaf #1. -/
theorem canGo_stop {c : Core} {n : Nat} (hlines : stopLinesLeft (c.stops n).pc ≠ 0)
    (hcalled : (c.stops n).pc ≠ .idle) :
    CanGo c (.stop n) ∨ ((c.stops n).pc = .take ∧ c.lock ≠ none) ∨
      ∃ k, (c.stops n).pc = .joinPt k := by
  cases hpc : (c.stops n).pc with
  | idle => exact absurd hpc hcalled
  | done => simp [hpc, stopLinesLeft] at hlines
  | take =>
    by_cases hlock : c.lock = none
    · left
      cases hslot : c.slot <;> simp [CanGo, Core.step, Core.stopStep, hpc, hlock, hslot]
    · exact .inr (.inl ⟨rfl, hlock⟩)
  | joinPt k => exact .inr (.inr ⟨k, rfl⟩)
  | shutdownPt k =>
    left
    simp only [CanGo, Core.step, Core.stopStep, hpc]
    split <;> rfl
  | cancel k | abort k t | join k t | clear k =>
    exact .inl (by simp [CanGo, Core.step, Core.stopStep, hpc])

/-- A call that has not returned has lines before it. -/
theorem linesLeft_ne_zero {c : Core} {x : ApiCall} (h : ∀ r, ¬ returned c x r) :
    linesLeft c x ≠ 0 := by
  cases x with
  | start k =>
    have hok := h .started
    have herr := fun f => h (.failed f)
    simp only [returned] at hok herr
    cases hpc : (c.starts k).pc <;> simp_all [linesLeft, startLinesLeft]
  | stop n =>
    have hdone := fun engine => h (.stopped engine)
    simp only [returned] at hdone
    cases hpc : (c.stops n).pc with
    | done engine => exact absurd hpc (hdone engine)
    | abort k t | join k t => cases t <;> simp [linesLeft, hpc, stopLinesLeft, handlesLeft]
    | idle | take | cancel | shutdownPt | joinPt | clear =>
      simp [linesLeft, hpc, stopLinesLeft]

/-- **The calls return.** In every run of any number of `start` and `stop` calls and of the tasks of
their sessions, a start takes twenty lines at most and a stop thirteen. And in every state of it, a
call that has not returned can go on; or the slot's mutex is taken, by a start that can go on; or
the call is a stop before which only the scheduler's dropping of Leaf #1's aborted task stands. -/
theorem calls_return (as : List Act) (c : Core) (hrun : run Core.step {} as = some c)
    (x : ApiCall) :
    as.countP (lineOf x) ≤ maxLines x ∧
    (called c x → (∀ r, ¬ returned c x r) →
      CanGo c x ∨ (∃ k, c.lock = some k ∧ CanGo c (.start k)) ∨
        ∃ n k, x = .stop n ∧ (c.stops n).pc = .joinPt k ∧
          ∃ c', c.step (.task k (.leaf1 .wrapReap)) = some c' ∧ CanGo c' (.stop n)) := by
  have hinv : SlotInv c ∧ ReapInv c := by
    refine (AllStates.of_invariant (I := fun c => SlotInv c ∧ ReapInv c) ?_ as
      ⟨slotInv_start, by simp [ReapInv]⟩).last hrun
    exact fun c a c' h hstep => ⟨h.1.next hstep, h.2.next h.1 hstep⟩
  constructor
  · have hcount := @countP_le_of_measure _ _ Core.step (fun c => linesLeft c x) (lineOf x)
      (fun _ _ _ hstep hline => linesLeft_line hstep hline)
      (fun _ _ _ hstep _ => linesLeft_le hstep x) _ _ _ hrun
    have hmost : linesLeft {} x = maxLines x := by cases x <;> rfl
    omega
  · intro hcalled hwaits
    have hlines := linesLeft_ne_zero hwaits
    have hholder : c.lock ≠ none → ∃ k, c.lock = some k ∧ CanGo c (.start k) := by
      intro hlock
      obtain ⟨k, hk⟩ := Option.ne_none_iff_exists'.mp hlock
      exact ⟨k, hk, canGo_holder hinv.1 hk⟩
    cases x with
    | start k =>
      by_cases hlock : (c.starts k).pc = .lock ∧ c.lock ≠ none
      · exact .inr (.inl (hholder hlock.2))
      · refine .inl (canGo_start hlines hcalled fun hpc => ?_)
        by_contra hne
        exact hlock ⟨hpc, hne⟩
    | stop n =>
      rcases canGo_stop hlines hcalled with hgo | ⟨-, hlock⟩ | ⟨k, hpc⟩
      · exact .inl hgo
      · exact .inr (.inl (hholder hlock))
      · rcases canGo_reaped hinv.2 hpc with hgo | hreap
        · exact .inl hgo
        · exact .inr (.inr ⟨n, k, rfl, hpc, hreap⟩)

/-- A start is called while a stop waits for Leaf #1 with the slot empty: both can go on, the stop
when the task is dropped. -/
theorem calls_return_during_stop :
    ∃ c, run Core.step {} (startOk 0 {} ++ [.callStop 0, .stop 0 false, .stop 0 false,
        .stop 0 false, .call 1 {}]) = some c ∧ (c.stops 0).pc = .joinPt 0 ∧
      CanGo c (.start 1) ∧
      ∃ c', c.step (.task 0 (.leaf1 .wrapReap)) = some c' ∧ CanGo c' (.stop 0) := by
  obtain ⟨c, hrun, hpc, hlock, hstart, hblocked⟩ : ∃ c, run Core.step {} (startOk 0 {} ++
      [.callStop 0, .stop 0 false, .stop 0 false, .stop 0 false, .call 1 {}]) = some c ∧
      (c.stops 0).pc = .joinPt 0 ∧ c.lock = none ∧ (c.starts 1).pc = .lock ∧
      c.step (.stop 0 true) = none := ⟨_, rfl, rfl, rfl, rfl, rfl⟩
  have hreturns := calls_return _ c hrun
  refine ⟨c, hrun, hpc, ?_, ?_⟩
  · have hwaits : ∀ r, ¬ returned c (.start 1) r := by
      intro r
      cases r <;> simp [returned, hstart]
    rcases (hreturns (.start 1)).2 (by simp [called, hstart]) hwaits with hgo | ⟨k, hk, -⟩ | hstop
    · exact hgo
    · rw [hlock] at hk
      cases hk
    · obtain ⟨n, k, hx, -⟩ := hstop
      cases hx
  · have hwaits : ∀ r, ¬ returned c (.stop 0) r := by
      intro r
      cases r <;> simp [returned, hpc]
    rcases (hreturns (.stop 0)).2 (by simp [called, hpc]) hwaits with hgo | ⟨k, hk, -⟩ | hstop
    · rw [CanGo, hblocked] at hgo
      cases hgo
    · rw [hlock] at hk
      cases hk
    · obtain ⟨n, k, hx, hjoin, hreap⟩ := hstop
      obtain rfl := ApiCall.stop.inj hx
      obtain rfl : 0 = k := by simpa [hpc] using hjoin
      exact hreap

end FfVpn.Analysis.CallProgress
