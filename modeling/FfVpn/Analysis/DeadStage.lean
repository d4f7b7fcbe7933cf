import FfVpn.Analysis.SessionEnd

/-!
# Does a dead stage take its session down?

Leaf #1, Arti and Leaf #2 are the pipeline: where one of them is gone, the others must not go on.
Each cancels the session with the line after its call has returned, with an error or without. A
panic leaves that line out: it ends the Arti task, or the closure on Leaf's thread, of which the
wrapper only logs the `JoinError`. Every other way to end a stage is an abort, and whoever aborts
has cancelled before.
-/

set_option autoImplicit false

namespace FfVpn.Analysis.DeadStage

open FfVpn.Library.Transition FfVpn.Model.Ipc FfVpn.Model.LeafConfig FfVpn.Model.Session
  FfVpn.Model.Engine FfVpn.Analysis.SlotInvariant FfVpn.Analysis.SlotLiveness
  FfVpn.Analysis.SessionEnd

/-- The stages of the pipeline. -/
inductive Stage
  | leaf1
  | arti
  | leaf2
  deriving DecidableEq, Repr

/-- The thread of an instance has ended, or the task around it. -/
def leafEnded (l : Leaf) : Bool := l.thread == .done || l.wrapper == .ended

/-- The task of the stage has ended. -/
def stageEnded (t : Tasks) : Stage → Bool
  | .leaf1 => leafEnded t.leaf1
  | .arti => t.arti == .ended
  | .leaf2 => leafEnded t.leaf2

/-- Where a stage has ended, the session is cancelled. -/
def TakenDown (t : Tasks) : Prop := ∀ stage, stageEnded t stage = true → t.cancelled = true

/-- The stage ends with a panic. -/
def panics : TaskAct → Bool
  | .leaf1 a | .leaf2 a => a == .threadPanic
  | .artiPanic => true
  | _ => false

/-- No stage panics in a session that is not cancelled. -/
def NoPanicWhileUp (c : Core) (a : Act) : Prop :=
  ∀ k b, a = .task k b → panics b = true → (c.starts k).tasks.cancelled = true

/-! ## One Leaf instance -/

/-- The line after `leaf::start` has run where the thread is past it, and a wrapper is aborted in a
cancelled session only. -/
structure LeafInv (cancelled : Bool) (l : Leaf) : Prop where
  thread : l.thread = .cancelled → cancelled = true
  wrapper : l.wrapper = .aborting → cancelled = true

theorem LeafInv.step {cancelled : Bool} {l l' : Leaf} {a : LeafAct} {e : LeafEffect}
    (h : LeafInv cancelled l) (hs : l.step cancelled a = some (l', e)) :
    LeafInv (cancelled || e == .cancel) l' := by
  obtain ⟨hthread, hwrapper⟩ := h
  cases a <;> simp only [Leaf.step, Leaf.endEffect] at hs <;> constructor <;>
    grind [Thread.shutdown]

/-- Of the ways in which an instance can end, only a panic ends it uncancelled. -/
theorem leafEnded_step {cancelled : Bool} {l l' : Leaf} {a : LeafAct} {e : LeafEffect}
    (h : LeafInv cancelled l) (hs : l.step cancelled a = some (l', e))
    (hended : leafEnded l = true → cancelled = true) :
    (leafEnded l' = true → (cancelled || e == .cancel) = true) ↔
      (a = .threadPanic → cancelled = true) := by
  obtain ⟨hthread, hwrapper⟩ := h
  cases a <;> simp only [Leaf.step, Leaf.endEffect] at hs <;> grind [Thread.shutdown, leafEnded]

/-! ## The session -/

structure StageInv (t : Tasks) : Prop where
  leaf1 : LeafInv t.cancelled t.leaf1
  leaf2 : LeafInv t.cancelled t.leaf2
  arti : t.arti = .aborting → t.cancelled = true

theorem stageInv_start : StageInv {} := by
  constructor <;> first | constructor <;> simp | simp

/-- A cancelled session meets every condition of this file. -/
theorem of_cancelled {t : Tasks} (h : t.cancelled = true) : StageInv t ∧ TakenDown t :=
  ⟨⟨⟨fun _ => h, fun _ => h⟩, ⟨fun _ => h, fun _ => h⟩, fun _ => h⟩, fun _ _ => h⟩

theorem LeafInv.mono {cancelled cancelled' : Bool} {l : Leaf} (h : LeafInv cancelled l)
    (hstays : cancelled = true → cancelled' = true) : LeafInv cancelled' l :=
  ⟨fun ht => hstays (h.thread ht), fun hw => hstays (h.wrapper hw)⟩

/-- Where only one stage may have ended since, a session is still taken down exactly if that stage
has taken it down. -/
theorem takenDown_iff_of_others {t t' : Tasks} (hdown : TakenDown t) (stage : Stage)
    (hothers : ∀ other ≠ stage, stageEnded t' other = stageEnded t other)
    (hstays : t.cancelled = true → t'.cancelled = true) :
    TakenDown t' ↔ (stageEnded t' stage = true → t'.cancelled = true) := by
  constructor
  · intro hdown'
    exact hdown' stage
  · intro hstage other hended
    by_cases hother : other = stage
    · exact hstage (hother ▸ hended)
    · exact hstays (hdown other (hothers other hother ▸ hended))

/-- A stage that has not ended takes nothing down. -/
theorem takenDown_of_not_ended {t t' : Tasks} (hdown : TakenDown t) (stage : Stage)
    (hothers : ∀ other ≠ stage, stageEnded t' other = stageEnded t other)
    (hstays : t.cancelled = true → t'.cancelled = true) (hended : stageEnded t' stage = false) :
    TakenDown t' :=
  (takenDown_iff_of_others hdown stage hothers hstays).mpr (by simp [hended])

/-- A step that touches no stage. -/
theorem StageInv.frame {t t' : Tasks} {a : TaskAct} (h : StageInv t) (ha : panics a = false)
    (h1 : t'.leaf1 = t.leaf1) (harti : t'.arti = t.arti) (h2 : t'.leaf2 = t.leaf2)
    (hstays : t.cancelled = true → t'.cancelled = true) :
    StageInv t' ∧ (TakenDown t → (TakenDown t' ↔ (panics a = true → t.cancelled = true))) := by
  refine ⟨⟨?_, ?_, ?_⟩, ?_⟩
  · rw [h1]
    exact h.leaf1.mono hstays
  · rw [h2]
    exact h.leaf2.mono hstays
  · rw [harti]
    exact fun haborting => hstays (h.arti haborting)
  · intro hdown
    refine ⟨fun _ hpanics => by simp [ha] at hpanics, fun _ stage hended => ?_⟩
    refine hstays (hdown stage ?_)
    cases stage <;> simpa [stageEnded, h1, harti, h2] using hended

/-- A step of the tasks keeps the invariant, and takes the session down with the stage it ends,
unless the stage panics. -/
theorem StageInv.step {status : Status} {token : String} {t t' : Tasks} {a : TaskAct}
    {e : TaskEffect} (h : StageInv t) (hs : t.step status token a = some (t', e)) :
    StageInv t' ∧ (TakenDown t →
      (TakenDown t' ↔ (panics a = true → t.cancelled = true))) := by
  cases taskMove_of_step hs with
  | leaf1 _ hleaf =>
    refine ⟨⟨h.leaf1.step hleaf, h.leaf2.mono (by simp +contextual), ?_⟩, ?_⟩
    · intro harti
      simp [h.arti harti]
    · intro hdown
      have hiff := leafEnded_step h.leaf1 hleaf (hdown .leaf1)
      refine (takenDown_iff_of_others hdown .leaf1 ?_ (by simp +contextual)).trans ?_
      · intro other hother
        cases other <;> first | rfl | exact absurd rfl hother
      · simpa only [panics, beq_iff_eq, stageEnded] using hiff
  | leaf2 hleaf =>
    refine ⟨⟨h.leaf1.mono (by simp +contextual), h.leaf2.step hleaf, ?_⟩, ?_⟩
    · intro harti
      simp [h.arti harti]
    · intro hdown
      have hiff := leafEnded_step h.leaf2 hleaf (hdown .leaf2)
      refine (takenDown_iff_of_others hdown .leaf2 ?_ (by simp +contextual)).trans ?_
      · intro other hother
        cases other <;> first | rfl | exact absurd rfl hother
      · simpa only [panics, beq_iff_eq, stageEnded] using hiff
  | artiReturn =>
    obtain ⟨hinv, hdown⟩ := of_cancelled (t := { t with
      arti := .ended, listening := false, cancelled := true }) rfl
    exact ⟨hinv, fun _ => by simp [hdown, panics]⟩
  | artiPanic =>
    refine ⟨⟨h.leaf1, h.leaf2, by simp⟩, ?_⟩
    intro hdown
    refine (takenDown_iff_of_others hdown .arti ?_ ?_).trans ?_
    · intro other hother
      cases other <;> first | rfl | exact absurd rfl hother
    · exact fun hup => hup
    · simp [panics, stageEnded]
  | artiReap haborting =>
    obtain ⟨hinv, hdown⟩ := of_cancelled (t := { t with arti := .ended, listening := false })
      (h.arti haborting)
    exact ⟨hinv, fun _ => by simp [hdown, panics]⟩
  | conn => exact h.frame rfl rfl rfl rfl (by simp +contextual)
  | _ => exact h.frame rfl rfl rfl rfl id

/-- A line of a start spawns stages and ends none. -/
theorem StageInv.start {v : View} {s s' : Session} {ok : Bool} {e : CallEffect}
    (h : StageInv s.tasks) (hs : s.startStep v ok = some (s', e)) :
    StageInv s'.tasks ∧ (TakenDown s.tasks → TakenDown s'.tasks) := by
  obtain ⟨h1, h2, harti⟩ := h
  cases startStep_cases hs with
  | ptSpawn =>
    refine ⟨⟨⟨by simp [Leaf.spawned], by simp [Leaf.spawned]⟩, h2, harti⟩, fun hdown => ?_⟩
    refine takenDown_of_not_ended hdown .leaf1 ?_ (fun hup => hup) rfl
    intro other hother
    cases other <;> first | rfl | exact absurd rfl hother
  | artiSpawn =>
    refine ⟨⟨h1, h2, by simp⟩, fun hdown => ?_⟩
    refine takenDown_of_not_ended hdown .arti ?_ (fun hup => hup) rfl
    intro other hother
    cases other <;> first | rfl | exact absurd rfl hother
  | leafSpawn =>
    refine ⟨⟨h1, ⟨by simp [Leaf.spawned], by simp [Leaf.spawned]⟩, harti⟩, fun hdown => ?_⟩
    refine takenDown_of_not_ended hdown .leaf2 ?_ (fun hup => hup) rfl
    intro other hother
    cases other <;> first | rfl | exact absurd rfl hother
  | dropPt =>
    have hcancelled := of_cancelled (t := s.releasePt.tasks) rfl
    exact ⟨hcancelled.1, fun _ => hcancelled.2⟩
  | _ => exact ⟨⟨h1, h2, harti⟩, fun hdown => hdown⟩

/-! ## The process -/

structure CoreInv (c : Core) : Prop where
  slot : SlotInv c
  cancelled : StopsCancelled c
  stages : ∀ k, StageInv (c.starts k).tasks

/-- In every session, a stage that has ended has taken its session down. -/
def DeadStagesTakeDown (c : Core) : Prop := ∀ k, TakenDown (c.starts k).tasks

theorem takenDown_start : TakenDown {} := by
  intro stage hended
  cases stage <;> simp [stageEnded, leafEnded] at hended

theorem CoreInv.next {c c' : Core} {a : Act} (h : CoreInv c) (hstep : c.step a = some c') :
    CoreInv c' := by
  refine ⟨h.slot.next hstep, h.cancelled.next h.slot hstep, ?_⟩
  intro k
  rcases ownStep_or_cancelled h.slot h.cancelled hstep k with hown | ⟨-, hcancelled⟩
  · generalize c'.starts k = s at hown ⊢
    cases hown with
    | same => exact h.stages k
    | called => exact Session.called_tasks _ ▸ stageInv_start
    | start _ hs => exact ((h.stages k).start hs).1
    | task _ ht => exact ((h.stages k).step ht).1
  · exact (of_cancelled hcancelled).1

theorem deadStages_step {c c' : Core} {a : Act} (h : CoreInv c) (hdown : DeadStagesTakeDown c)
    (hstep : c.step a = some c') : DeadStagesTakeDown c' ↔ NoPanicWhileUp c a := by
  constructor
  · rintro hdown' k b rfl hpanics
    obtain ⟨t, e, ht, rfl⟩ := Core.step_task hstep
    have hk := hdown' k
    rw [Core.task_starts, if_pos rfl] at hk
    exact (((h.stages k).step ht).2 (hdown k)).mp hk hpanics
  · intro hnopanic k
    rcases ownStep_or_cancelled h.slot h.cancelled hstep k with hown | ⟨-, hcancelled⟩
    · generalize c'.starts k = s at hown ⊢
      cases hown with
      | same => exact hdown k
      | called => exact Session.called_tasks _ ▸ takenDown_start
      | start _ hs => exact ((h.stages k).start hs).2 (hdown k)
      | @task b _ _ ha ht => exact (((h.stages k).step ht).2 (hdown k)).mpr (hnopanic k b ha)
    · exact (of_cancelled hcancelled).2

/-- **A dead stage takes its session down**, in every run of the process, exactly as long as none
of the three panics in a session that is not cancelled. -/
theorem dead_stage_takes_session_down_iff (as : List Act) :
    AllStates Core.step DeadStagesTakeDown {} as ↔ AllSteps Core.step NoPanicWhileUp {} as := by
  apply allStates_iff_allSteps (I := CoreInv)
  · intro c a c' h hs
    exact h.next hs
  · intro c a c' h hdown hs
    exact deadStages_step h hdown hs
  · exact ⟨slotInv_start, stopsCancelled_start, fun _ => stageInv_start⟩
  · exact fun _ => takenDown_start

/-- Leaf #1 panics inside `leaf::start` while its session is up. The wrapper ends, and Arti, Leaf
#2, the DNS proxy and the IPC loop go on in a session that nobody has cancelled. -/
theorem panic_leaves_session_up :
    ∃ c, run Core.step {} (startOk 0 {} ++
        [.task 0 (.leaf1 .threadRun), .task 0 (.leaf1 .register), .task 0 (.leaf1 .threadPanic),
          .task 0 (.leaf1 .join)]) = some c ∧
      stageEnded (c.starts 0).tasks .leaf1 = true ∧ (c.starts 0).tasks.cancelled = false ∧
      (c.starts 0).pc = .ok ∧ (c.starts 0).tasks.arti = .live ∧
      (c.starts 0).tasks.leaf2.wrapper = .live ∧ (c.starts 0).tasks.dns = .live ∧
      (c.starts 0).tasks.ipc = .live := by
  refine ⟨_, rfl, rfl, rfl, rfl, rfl, rfl, rfl, rfl⟩

end FfVpn.Analysis.DeadStage
