import FfVpn.Analysis.SlotInvariant

/-!
# Is the engine in the slot alive?

The slot says which engine is running: `start` refuses while it is occupied, and `status` reports
what the engine in it says. Its token is cancelled from elsewhere: by the handle, by an IPC client,
by the end of Arti or of either Leaf instance. None of these empties the slot. `cancelTarget` names
the sessions they cancel, and `AliveInSlot` survives a step exactly where the step neither cancels
the engine in the slot nor stores an engine that was cancelled while it came up.
-/

set_option autoImplicit false

namespace FfVpn.Analysis.SlotLiveness

open FfVpn.Library.Transition FfVpn.Model.Ipc FfVpn.Model.LeafConfig FfVpn.Model.Session
  FfVpn.Model.Engine FfVpn.Analysis.SlotInvariant

/-- The step is one of those that cancel their session: the end of Arti, the return of a Leaf
runtime, or the `Stop` of an authenticated client whose reply is written. -/
def taskCancels (status : Status) (t : Tasks) : TaskAct → Bool
  | .leaf1 a | .leaf2 a => a == .threadCancel
  | .artiReturn => true
  | .conn i (.line request writeOk) =>
    (serve status (t.conns i).expected (t.conns i).authed writeOk request).cancels
  | _ => false

/-- The session that a step from outside of `start` and `stop` cancels. -/
def cancelTarget (c : Core) : Act → Option Nat
  | .handleStop k => some k
  | .task k a => if taskCancels (c.starts k).status (c.starts k).tasks a then some k else none
  | _ => none

/-- The token of the engine in the slot is not cancelled. -/
def AliveInSlot (c : Core) : Prop :=
  ∀ k, c.slot = some k → (c.starts k).tasks.cancelled = false

/-- What the process tells about liveness: of the slot, and through `status()`. -/
structure Truthful (c : Core) : Prop where
  slot : AliveInSlot c
  status : c.status.running = true →
    ∃ k, c.slot = some k ∧ (c.starts k).tasks.cancelled = false

/-- A start that is refused as `AlreadyRunning` is refused for an engine whose token is not
cancelled. -/
def RefusesForLive (c : Core) (a : Act) : Prop :=
  ∀ k ok, a = .start k ok → (c.starts k).pc = .check → ∀ j, c.slot = some j →
    (c.starts j).tasks.cancelled = false

/-- The step does not cancel the engine in the slot from outside of `stop`, and does not store an
engine whose token is already cancelled. -/
structure KeepsSlotAlive (c : Core) (a : Act) : Prop where
  cancel : ∀ k, c.slot = some k → cancelTarget c a ≠ some k
  store : ∀ k ok, a = .start k ok → (c.starts k).pc = .store →
    (c.starts k).tasks.cancelled = false

/-- `status()` only repeats what the slot holds. -/
theorem truthful_iff (c : Core) : Truthful c ↔ AliveInSlot c := by
  constructor
  · exact Truthful.slot
  · intro h
    refine ⟨h, ?_⟩
    intro hrunning
    cases hslot : c.slot with
    | none => simp [Core.status, hslot] at hrunning
    | some k => exact ⟨k, rfl, h k hslot⟩

/-- A Leaf instance cancels its session with the line after `leaf::start`, and with no other. -/
theorem leaf_effect_cancel {l l' : Leaf} {cancelled : Bool} {a : LeafAct} {e : LeafEffect}
    (h : l.step cancelled a = some (l', e)) : (e == .cancel) = (a == .threadCancel) := by
  cases a <;> simp only [Leaf.step, Leaf.endEffect] at h <;> grind

/-- A connection cancels its session with a line that `serve` says cancels, and with nothing
else. -/
theorem conn_cancels {c c' : Conn} {status : Status} {token : String} {cancelled cancels : Bool}
    {a : ConnAct} (h : c.step status token cancelled a = some (c', cancels)) :
    cancels = match a with
      | .line request writeOk => (serve status c.expected c.authed writeOk request).cancels
      | _ => false := by
  cases a <;> simp only [Conn.step] at h <;> grind

/-- A step of the tasks cancels the session exactly where `taskCancels` says so. -/
theorem task_step_cancelled {status : Status} {token : String} {t t' : Tasks} {a : TaskAct}
    {e : TaskEffect} (h : t.step status token a = some (t', e)) :
    t'.cancelled = (t.cancelled || taskCancels status t a) := by
  cases taskMove_of_step h with
  | leaf1 _ hleaf | leaf2 hleaf => simp [taskCancels, leaf_effect_cancel hleaf]
  | @conn i a c cancels _ hconn =>
    have hcancels := conn_cancels hconn
    cases a <;> simp_all [taskCancels]
  | _ => simp [taskCancels]

/-- From `*slot = Some(engine)` on, a start leaves its tasks alone. -/
theorem startStep_tasks {v : View} {s s' : Session} {ok : Bool} {e : CallEffect}
    (h : s.startStep v ok = some (s', e)) (hpc : s.pc = .store ∨ stored s.pc = true) :
    s'.tasks = s.tasks := by
  refine (startStep_frame h).tasks ?_
  cases hline : s.pc <;> simp_all [stored, StartPc.changesTasks]

/-- A start stores its engine at one line, and that line does nothing else to the slot. -/
theorem startStep_store_iff {v : View} {s s' : Session} {ok : Bool} {e : CallEffect}
    (h : s.startStep v ok = some (s', e)) : e = .store ↔ s.pc = .store := by
  have hedge := startStep_edge h
  generalize s.pc = pc, s'.pc = pc' at hedge ⊢
  cases hedge <;> simp

/-- The slot after a step of a start. -/
theorem apply_slot (c : Core) (k : Nat) (e : CallEffect) :
    (c.apply k e).slot = if e = .store then some k else c.slot := by
  cases e <;> rfl

theorem alive_start {c : Core} (hinv : SlotInv c) (halive : AliveInSlot c) {k : Nat} {ok : Bool}
    {s : Session} {e : CallEffect}
    (hstep : (c.starts k).startStep (c.view k) ok = some (s, e)) :
    AliveInSlot ((c.modify k fun _ => s).apply k e) ↔ KeepsSlotAlive c (.start k ok) := by
  have hstore := startStep_store_iff hstep
  by_cases he : (c.starts k).pc = .store
  · have htasks : s.tasks = (c.starts k).tasks := startStep_tasks hstep (.inl he)
    constructor
    · intro h
      have hk := h k (by simp [apply_slot, hstore.mpr he])
      refine ⟨by simp [cancelTarget], ?_⟩
      intro j ok' hj _
      obtain ⟨rfl, rfl⟩ : k = j ∧ ok = ok' := by simpa using hj
      simpa [htasks] using hk
    · intro h j hj
      obtain rfl : k = j := by simpa [apply_slot, hstore.mpr he] using hj
      simpa [htasks] using h.store k ok rfl he
  · constructor
    · intro _
      refine ⟨by simp [cancelTarget], ?_⟩
      intro j ok' hj hpc
      obtain ⟨rfl, rfl⟩ : k = j ∧ ok = ok' := by simpa using hj
      exact absurd hpc he
    · intro _ j hj
      have hslot : c.slot = some j := by simpa [apply_slot, mt hstore.mp he] using hj
      by_cases hjk : j = k
      · subst hjk
        have htasks := startStep_tasks hstep (.inr (hinv.occupant j hslot))
        simpa [htasks] using halive j hslot
      · simpa [hjk] using halive j hslot

/-- A step of a stop never cancels the engine in the slot: what it cancels it has taken out. -/
theorem alive_stop {c c' : Core} (hinv : SlotInv c) (halive : AliveInSlot c) {n : Nat}
    {timedOut : Bool} (hstep : c.stopStep n timedOut = some c') : AliveInSlot c' := by
  rcases stopStep_pc hstep with hpc | hpc
  · obtain ⟨-, ⟨k, hslot, rfl⟩ | ⟨-, rfl⟩⟩ := stopStep_take hpc hstep
    · intro j hj
      simp at hj
    · exact halive
  · obtain ⟨k, f, pc, hold, -, -, rfl⟩ := stopStep_tear hpc hstep
    intro j hj
    have hslot : c.slot = some j := hj
    have hjk : j ≠ k := by
      rintro rfl
      exact (hinv.taken n j hold).2 hslot
    simpa [hjk] using halive j hslot

/-- The slot's engine stays alive over a step exactly where the step keeps it alive. -/
theorem alive_step {c c' : Core} {a : Act} (hinv : SlotInv c) (halive : AliveInSlot c)
    (hstep : c.step a = some c') : AliveInSlot c' ↔ KeepsSlotAlive c a := by
  -- what is neither a start, a handle nor a task meets the condition as it stands
  have htrivial : (∀ k, cancelTarget c a ≠ some k) → (∀ k ok, a ≠ .start k ok) →
      KeepsSlotAlive c a :=
    fun h1 h2 => ⟨fun k _ => h1 k, fun k ok h => absurd h (h2 k ok)⟩
  cases a with
  | call k args =>
    obtain ⟨hidle, rfl⟩ := Core.step_call hstep
    constructor
    · intro _
      exact htrivial (by simp [cancelTarget]) (by simp)
    · intro _ j hj
      have hjk : j ≠ k := by
        rintro rfl
        have := hinv.occupant j hj
        simp [hidle, stored] at this
      simpa [hjk] using halive j hj
  | start k ok =>
    obtain ⟨s, e, hs, rfl⟩ := Core.step_start hstep
    exact alive_start hinv halive hs
  | callStop n =>
    obtain ⟨-, rfl⟩ := Core.step_callStop hstep
    constructor
    · intro _
      exact htrivial (by simp [cancelTarget]) (by simp)
    · intro _
      exact halive
  | stop n timedOut =>
    constructor
    · intro _
      exact htrivial (by simp [cancelTarget]) (by simp)
    · intro _
      exact alive_stop hinv halive hstep
  | handleStop k =>
    obtain ⟨-, rfl⟩ := Core.step_handleStop hstep
    constructor
    · intro h
      refine ⟨?_, by simp⟩
      rintro j hslot hj
      obtain rfl : k = j := by simpa [cancelTarget] using hj
      have := h k hslot
      simp [Session.cancel] at this
    · intro h j hj
      have hslot : c.slot = some j := hj
      have hjk : j ≠ k := by
        rintro rfl
        exact h.cancel j hslot rfl
      simpa [hjk] using halive j hslot
  | task k a =>
    obtain ⟨t, e, ht, rfl⟩ := Core.step_task hstep
    have hcancelled := task_step_cancelled ht
    have hslot' : ∀ j, ((c.modify k fun s => { s with tasks := t }).applyTask k e).slot = some j ↔
        c.slot = some j := by simp
    constructor
    · intro h
      refine ⟨?_, by simp⟩
      intro j hslot hj
      have hcancels : taskCancels (c.starts k).status (c.starts k).tasks a = true ∧ k = j := by
        simpa [cancelTarget] using hj
      have := h j ((hslot' j).mpr hslot)
      rw [Core.task_starts, if_pos hcancels.2.symm] at this
      simp [hcancelled, hcancels.1] at this
    · intro h j hj
      have hslot : c.slot = some j := (hslot' j).mp hj
      rw [Core.task_starts]
      split
      · rename_i hjk
        subst hjk
        have hkeeps := h.cancel j hslot
        have hnot : taskCancels (c.starts j).status (c.starts j).tasks a = false := by
          simpa [cancelTarget] using hkeeps
        simp [hcancelled, hnot, halive j hslot]
      · exact halive j hslot

/-- **Is liveness told truthfully?** Over every run of `start`, `stop`, the handles, the IPC
clients and the tasks: the engine in the slot is never a cancelled one, `status()` never reports a
cancelled session as running, and no `start` is refused for one, exactly in the runs in which
nothing but `stop` cancels an engine in the slot and no engine is stored after its token was
cancelled. -/
theorem liveness_told_truthfully_iff (as : List Act) :
    (AllStates Core.step Truthful {} as ∧ AllSteps Core.step RefusesForLive {} as) ↔
      AllSteps Core.step KeepsSlotAlive {} as := by
  have hiff : AllStates Core.step Truthful {} as ↔ AllSteps Core.step KeepsSlotAlive {} as := by
    rw [show Truthful = AliveInSlot from funext fun c => propext (truthful_iff c)]
    apply allStates_iff_allSteps (I := SlotInv)
    · intro c a c' h hs
      exact h.next hs
    · intro c a c' hinv halive hs
      exact alive_step hinv halive hs
    · exact slotInv_start
    · simp [AliveInSlot]
  constructor
  · intro h
    exact hiff.mp h.1
  · intro hok
    refine ⟨hiff.mpr hok, ?_⟩
    refine AllSteps.of_guarded (I := fun c => SlotInv c ∧ AliveInSlot c) ?_ ?_
      ⟨slotInv_start, by simp [AliveInSlot]⟩ hok
    · intro c a c' hI hkeeps hs
      exact ⟨hI.1.next hs, (alive_step hI.1 hI.2 hs).mpr hkeeps⟩
    · intro c a c' hI _ _ k ok _ _ j hj
      exact hI.2 j hj

/-- A session whose handle is stopped: it stays in the slot and is reported as running, and the
next `start` is refused. No `stop()` was called. -/
theorem handle_stop_leaves_slot :
    ∃ c, run Core.step {}
        (startOk 0 {} ++ [.handleStop 0, .call 1 {}, .start 1 true, .start 1 true]) = some c ∧
      c.slot = some 0 ∧ (c.starts 0).tasks.cancelled = true ∧ c.status.running = true ∧
      (c.starts 1).pc = .unlockErr .alreadyRunning ∧ ∀ n, (c.stops n).pc = .idle := by
  refine ⟨_, rfl, rfl, rfl, rfl, rfl, fun _ => rfl⟩

end FfVpn.Analysis.SlotLiveness
