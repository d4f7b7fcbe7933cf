import FfVpn.Model.LeafConfig

/-!
# The window in which a Leaf shutdown is lost

The watcher calls `leaf::shutdown` once. `Lost` is the state in which that call is spent and the
runtime is up, or may still come up. `WatcherInv` says what a finished watcher tells about the
token; with it, the only step into a lost state is the watcher's own, taken while `leaf::start` has
not registered the id.
-/

set_option autoImplicit false

namespace FfVpn.Analysis.LeafShutdown

open FfVpn.Library.Transition FfVpn.Model.LeafConfig

/-- The token is cancelled, the watcher has finished, and the runtime is running or may still start
running: nobody is left to shut it down. -/
def Lost (s : Instance) : Prop :=
  s.cancelled = true ∧ s.leaf.watcher = .ended ∧ s.leaf.thread.mayRun = true

/-- The watcher does not make its one call before the id is registered. -/
def WatchesLate (s : Instance) (a : InstanceAct) : Prop :=
  a = .leaf .watch → s.leaf.thread ≠ .queued ∧ s.leaf.thread ≠ .starting

/-- What is known of the watcher: it is spawned with the thread, it finishes only after a
cancellation or after the thread, and it is aborted only by the thread. -/
structure WatcherInv (s : Instance) : Prop where
  absent : s.leaf.thread = .absent → s.leaf.watcher = .absent
  ended : s.leaf.watcher = .ended → s.cancelled = true ∨ s.leaf.thread = .done
  aborting : s.leaf.watcher = .aborting → s.leaf.thread = .done

theorem watcherInv_start : WatcherInv {} := by
  constructor <;> simp

/-- The invariant is kept by what the parts of the instance do: the thread never goes back to
`absent` or leaves `done`, and the watcher ends where the token is cancelled or after an abort. -/
theorem WatcherInv.leaf {s : Instance} (h : WatcherInv s) {a : LeafAct} {l : Leaf} {e : LeafEffect}
    (hstep : s.leaf.step s.cancelled a = some (l, e)) :
    WatcherInv { cancelled := s.cancelled || e == .cancel, leaf := l } := by
  obtain ⟨habsent, hended, haborting⟩ := h
  cases a <;> simp only [Leaf.step] at hstep <;> split at hstep <;>
    simp only [Option.some.injEq, Prod.mk.injEq, reduceCtorEq] at hstep <;>
    obtain ⟨rfl, rfl⟩ := hstep
  all_goals constructor <;> grind

theorem WatcherInv.next {s s' : Instance} {a : InstanceAct} (h : WatcherInv s)
    (hstep : s.step a = some s') : WatcherInv s' := by
  cases a with
  | spawn =>
    simp only [Instance.step, Option.ite_none_right_eq_some, Option.some.injEq] at hstep
    obtain ⟨-, rfl⟩ := hstep
    constructor <;> simp [Leaf.spawned]
  | cancel =>
    simp only [Instance.step, Option.some.injEq] at hstep
    subst hstep
    exact ⟨h.absent, fun _ => .inl rfl, h.aborting⟩
  | abort =>
    simp only [Instance.step, Option.some.injEq] at hstep
    subst hstep
    exact ⟨h.absent, h.ended, h.aborting⟩
  | leaf a =>
    simp only [Instance.step, Option.map_eq_some_iff] at hstep
    obtain ⟨⟨l, e⟩, hl, rfl⟩ := hstep
    exact h.leaf hl

/-- The watcher's own step: the shutdown is lost exactly where the id is not registered yet. -/
theorem lost_after_watch {s s' : Instance} (hstep : s.step (.leaf .watch) = some s') :
    Lost s' ↔ s.leaf.thread = .queued ∨ s.leaf.thread = .starting := by
  simp only [Instance.step, Leaf.step, Option.map_eq_some_iff, Option.ite_none_right_eq_some,
    Option.some.injEq] at hstep
  obtain ⟨⟨l, e⟩, ⟨⟨hactive, hcancelled⟩, hl⟩, rfl⟩ := hstep
  obtain ⟨rfl, rfl⟩ := Prod.mk.inj hl
  cases hthread : s.leaf.thread <;> simp [Lost, hcancelled, Thread.shutdown, Thread.mayRun]

/-- No other step loses a shutdown: the watcher it needs is still there, or the thread is past
`leaf::start`. -/
theorem not_lost_of_ne_watch {s s' : Instance} {a : InstanceAct} (hinv : WatcherInv s)
    (hnot : ¬ Lost s) (ha : a ≠ .leaf .watch) (hstep : s.step a = some s') : ¬ Lost s' := by
  obtain ⟨-, hended, haborting⟩ := hinv
  simp only [Lost] at hnot ⊢
  cases a with
  | spawn =>
    simp only [Instance.step, Option.ite_none_right_eq_some, Option.some.injEq] at hstep
    obtain ⟨-, rfl⟩ := hstep
    simp [Leaf.spawned]
  | cancel =>
    simp only [Instance.step, Option.some.injEq] at hstep
    subst hstep
    rintro ⟨-, hwatcher, hthread⟩
    rcases hended hwatcher with hc | hd
    · exact hnot ⟨hc, hwatcher, hthread⟩
    · simp [hd, Thread.mayRun] at hthread
  | abort =>
    simp only [Instance.step, Option.some.injEq] at hstep
    subst hstep
    exact hnot
  | leaf a =>
    simp only [Instance.step, Option.map_eq_some_iff] at hstep
    obtain ⟨⟨l, e⟩, hl, rfl⟩ := hstep
    cases a <;> simp only [Leaf.step] at hl <;> split at hl <;>
      simp only [Option.some.injEq, Prod.mk.injEq, reduceCtorEq] at hl <;>
      obtain ⟨rfl, rfl⟩ := hl
    case leaf.watch.isTrue => exact absurd rfl ha
    all_goals grind [Thread.mayRun]

/-- The token, the watcher and the thread of one instance, over every interleaving of their steps
and of any `cancel()`: the shutdown is never lost exactly in the runs whose watcher never calls
`leaf::shutdown` before the id is registered. -/
theorem run_leaf_never_lost_iff (as : List InstanceAct) :
    AllStates Instance.step (fun s => ¬ Lost s) {} as ↔
      AllSteps Instance.step WatchesLate {} as := by
  apply allStates_iff_allSteps (I := WatcherInv) (fun s a s' h hs => h.next hs)
  · intro s a s' hinv hnot hstep
    by_cases ha : a = .leaf .watch
    · subst ha
      rw [lost_after_watch hstep]
      simp [WatchesLate, not_or]
    · constructor
      · intro _ h
        exact absurd h ha
      · intro _
        exact not_lost_of_ne_watch hinv hnot ha hstep
  · exact watcherInv_start
  · simp [Lost]

/-- A cancel that arrives while the thread is still queued: the watcher spends its only call, and
the runtime comes up afterwards. -/
theorem run_leaf_loses_shutdown :
    ∃ s', run Instance.step {}
      [.spawn, .cancel, .leaf .watch, .leaf .threadRun, .leaf .register] = some s' ∧ Lost s' := by
  refine ⟨_, rfl, ?_⟩
  exact ⟨rfl, rfl, rfl⟩

end FfVpn.Analysis.LeafShutdown
