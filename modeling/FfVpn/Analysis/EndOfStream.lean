import FfVpn.Model.BytePump

/-!
# End of stream through the byte pump

When one side of a SOCKS connection has closed its sending side and its bytes are through, the other
side is to be told (`EndsTold`). A pump at rest tells the client as soon as task `b` is over, since
the write half of its socket is one of `into_split()`. The Tor stream has to wait for both tasks:
the write half `a` drops was made by `tokio::io::split`. So a client that half-closes while the
other side goes on waiting for that end leaves a pump at rest with the Tor stream not told
(`HalfClosed`), and this is the only such state.

`exists_quiescent`: the tasks come to rest whenever their surroundings let them.
-/

set_option autoImplicit false

namespace FfVpn.Analysis.EndOfStream

open FfVpn.Library.Transition FfVpn.Library.CopyLoop FfVpn.Model.BytePump

/-- Each side that has ended, with all its bytes copied, has its end passed on. -/
structure EndsTold (s : Pump) : Prop where
  tor : s.a.ended = true → Copied s.a → s.torShut = true
  client : s.b.ended = true → Copied s.b → s.clientShut = true

/-- The client has closed its sending side and its bytes are through, and nothing ends the other
direction: no cancellation, no read or write that failed, and Tor has not ended with its bytes
through. -/
structure HalfClosed (s : Pump) : Prop where
  ended : s.a.ended = true
  copied : Copied s.a
  running : s.cancelled = false
  sound : s.b.phase ≠ .failed
  pending : ¬ (s.b.ended = true ∧ Copied s.b)

/-! ## One task -/

theorem bufSize_pos : 0 < bufSize := by decide

/-- The invariant of a task: that of its copy, and that only the cancellation drops it. -/
structure TaskInv (cancelled : Bool) (task : Loop UInt8) : Prop where
  copy : Inv bufSize task
  abandoned : task.phase = .abandoned → cancelled = true

theorem TaskInv.start (cancelled : Bool) : TaskInv cancelled {} := ⟨Inv.start, by simp⟩

theorem TaskInv.cancel {cancelled : Bool} {task : Loop UInt8} (h : TaskInv cancelled task) :
    TaskInv true task :=
  ⟨h.copy, fun _ => rfl⟩

/-- A task that is not dropped in this step is where it was before, or its copy has gone on. -/
theorem phase_of_step {task task' : Loop UInt8} {act : LoopAct UInt8} (hact : act ≠ .abandon)
    (hs : task.step bufSize act = some task') (habandoned : task'.phase = .abandoned) :
    task.phase = .abandoned := by
  cases act with
  | abandon => exact absurd rfl hact
  | close | block =>
    obtain rfl := Option.some.inj hs
    exact habandoned
  | arrive | read | eof | write | flush =>
    simp only [Loop.step, Option.ite_none_right_eq_some, Option.some.injEq] at hs
    obtain ⟨-, rfl⟩ := hs
    exact habandoned
  | fail | finish =>
    simp only [Loop.step, Option.ite_none_right_eq_some, Option.some.injEq] at hs
    obtain ⟨-, rfl⟩ := hs
    cases habandoned

theorem TaskInv.next {cancelled : Bool} {task task' : Loop UInt8} {act : LoopAct UInt8}
    (h : TaskInv cancelled task) (hs : select cancelled task act = some task') :
    TaskInv cancelled task' := by
  by_cases hact : act = .abandon
  · subst hact
    simp only [select, Option.ite_none_right_eq_some] at hs
    exact ⟨h.copy.step hs.2, fun _ => hs.1⟩
  · have hstep : task.step bufSize act = some task' := by
      cases act with
      | abandon => exact absurd rfl hact
      | _ => exact hs
    exact ⟨h.copy.step hstep, fun habandoned => h.abandoned (phase_of_step hact hstep habandoned)⟩

/-- **When a task at rest is over**: the session is cancelled, a read or a write of it has failed,
or its side has ended and all is copied. -/
theorem over_iff {cancelled : Bool} {task : Loop UInt8} (h : TaskInv cancelled task)
    (hrest : ∀ act : LoopAct UInt8, act.own = true ∨ act = .abandon →
      select cancelled task act = none) :
    isOver task = true ↔
      cancelled = true ∨ task.phase = .failed ∨ (task.ended = true ∧ Copied task) := by
  have hquiet : Quiet bufSize task := by
    intro act hown
    have hselect := hrest act (.inl hown)
    cases act with
    | abandon => cases hown
    | _ => exact hselect
  have hover : isOver task = true ↔ task.phase ≠ .running := by simp [isOver]
  rw [hover, hquiet.over_iff h.copy bufSize_pos]
  constructor
  · rintro (habandoned | hrest)
    · exact .inl (h.abandoned habandoned)
    · exact .inr hrest
  · rintro (hcancelled | hrest')
    · -- the cancellation would drop a task that still runs
      have hdropped := hrest .abandon (.inr rfl)
      rw [← hquiet.over_iff h.copy bufSize_pos]
      intro hrunning
      simp [select, hcancelled, Loop.step, hrunning] at hdropped
    · exact .inr hrest'

/-! ## The pump -/

structure PumpInv (s : Pump) : Prop where
  a : TaskInv s.cancelled s.a
  b : TaskInv s.cancelled s.b

theorem PumpInv.step {s s' : Pump} {act : PumpAct} (h : PumpInv s) (hs : s.step act = some s') :
    PumpInv s' := by
  cases act with
  | a act =>
    simp only [Pump.step, Option.map_eq_some_iff] at hs
    obtain ⟨task, htask, rfl⟩ := hs
    exact ⟨h.a.next htask, h.b⟩
  | b act =>
    simp only [Pump.step, Option.map_eq_some_iff] at hs
    obtain ⟨task, htask, rfl⟩ := hs
    exact ⟨h.a, h.b.next htask⟩
  | cancel =>
    obtain rfl := Option.some.inj hs
    exact ⟨h.a.cancel, h.b.cancel⟩

/-- The step is one of the two tasks. -/
def OfTask : PumpAct → Prop
  | .a act | .b act => act.own = true ∨ act = .abandon
  | .cancel => False

theorem select_decreases {cancelled : Bool} {task task' : Loop UInt8} {act : LoopAct UInt8}
    (hact : act.own = true ∨ act = .abandon) (hs : select cancelled task act = some task') :
    task'.remaining < task.remaining := by
  rcases hact with hown | rfl
  · have hstep : task.step bufSize act = some task' := by
      cases act with
      | abandon => cases hown
      | _ => exact hs
    exact own_decreases hown hstep
  · simp only [select, Loop.step, Option.ite_none_right_eq_some, Option.some.injEq] at hs
    obtain ⟨-, hrunning, rfl⟩ := hs
    simp [Loop.remaining, hrunning]

theorem step_decreases {s s' : Pump} {act : PumpAct} (hact : OfTask act)
    (hs : s.step act = some s') :
    s'.a.remaining + s'.b.remaining < s.a.remaining + s.b.remaining := by
  cases act with
  | a act =>
    simp only [Pump.step, Option.map_eq_some_iff] at hs
    obtain ⟨task, htask, rfl⟩ := hs
    exact Nat.add_lt_add_right (select_decreases hact htask) _
  | b act =>
    simp only [Pump.step, Option.map_eq_some_iff] at hs
    obtain ⟨task, htask, rfl⟩ := hs
    exact Nat.add_lt_add_left (select_decreases hact htask) _
  | cancel => exact hact.elim

/-- **The tasks come to rest** from every state, by steps of their own. -/
theorem exists_quiescent (s : Pump) :
    ∃ acts s', run Pump.step s acts = some s' ∧ (∀ act ∈ acts, OfTask act) ∧ s'.Quiescent := by
  induction hn : s.a.remaining + s.b.remaining using Nat.strong_induction_on generalizing s with
  | _ n ih =>
    by_cases hmoves : ∃ act s', OfTask act ∧ s.step act = some s'
    · obtain ⟨act, s', hact, hs⟩ := hmoves
      have hlt := step_decreases hact hs
      obtain ⟨acts, s'', hrun, hacts, hrest⟩ := ih _ (hn ▸ hlt) s' rfl
      exact ⟨act :: acts, s'', run_cons_eq_some.mpr ⟨s', hs, hrun⟩,
        List.forall_mem_cons.mpr ⟨hact, hacts⟩, hrest⟩
    · have hnone : ∀ act, OfTask act → s.step act = none := fun act hact =>
        Option.eq_none_iff_forall_ne_some.mpr fun s' hs => hmoves ⟨act, s', hact, hs⟩
      refine ⟨[], s, rfl, by simp, fun act hact => ?_, fun act hact => ?_⟩
      · simpa [Pump.step] using hnone (.a act) hact
      · simpa [Pump.step] using hnone (.b act) hact

/-- **The client is always told.** -/
theorem client_told {s : Pump} (h : PumpInv s) (hrest : s.Quiescent) (hended : s.b.ended = true)
    (hcopied : Copied s.b) : s.clientShut = true :=
  (over_iff h.b hrest.b).mpr (.inr (.inr ⟨hended, hcopied⟩))

/-- **The Tor stream is told where the other direction is over too.** -/
theorem tor_told_iff {s : Pump} (h : PumpInv s) (hrest : s.Quiescent) (hended : s.a.ended = true)
    (hcopied : Copied s.a) : s.torShut = true ↔ isOver s.b = true := by
  have hover : isOver s.a = true := (over_iff h.a hrest.a).mpr (.inr (.inr ⟨hended, hcopied⟩))
  simp [Pump.torShut, Split.shutDown, hover]

/-- **End of stream is passed on in a pump at rest if and only if it is not half-closed by the
client**: in every state of every run, whatever the two sides and the tasks do and in whatever
order. -/
theorem ends_told_iff (acts : List PumpAct) :
    AllStates Pump.step (fun s => s.Quiescent → (EndsTold s ↔ ¬ HalfClosed s)) {} acts := by
  have hinv : AllStates Pump.step PumpInv {} acts :=
    AllStates.of_invariant (fun _ _ _ h hs => PumpInv.step h hs) acts
      ⟨TaskInv.start false, TaskInv.start false⟩
  refine hinv.mono fun s h hrest => ?_
  have hover := over_iff h.b hrest.b
  constructor
  · intro htold hhalf
    have hshut := htold.tor hhalf.ended hhalf.copied
    rw [tor_told_iff h hrest hhalf.ended hhalf.copied, hover] at hshut
    rcases hshut with hcancelled | hfailed | hend
    · simp [hhalf.running] at hcancelled
    · exact hhalf.sound hfailed
    · exact hhalf.pending hend
  · intro hnot
    refine ⟨fun hended hcopied => ?_, client_told h hrest⟩
    rw [tor_told_iff h hrest hended hcopied, hover]
    by_contra hgoes
    simp only [not_or, Bool.not_eq_true] at hgoes
    exact hnot ⟨hended, hcopied, hgoes.1, hgoes.2.1, hgoes.2.2⟩

/-- A task that is over takes no step. -/
theorem rest_of_over {cancelled : Bool} {task : Loop UInt8} (hover : task.phase ≠ .running)
    (act : LoopAct UInt8) (hact : act.own = true ∨ act = .abandon) :
    select cancelled task act = none := by
  cases act with
  | arrive | close | block | fail => simp [LoopAct.own] at hact
  | abandon => simp [select, Loop.step, hover]
  | read | eof | write | flush | finish => simp [select, Loop.step, hover]

/-- A task whose side has sent nothing and not ended waits. -/
theorem rest_of_start (act : LoopAct UInt8) (hact : act.own = true ∨ act = .abandon) :
    select false {} act = none := by
  cases act with
  | arrive | close | block | fail => simp [LoopAct.own] at hact
  | abandon | eof | flush | finish => rfl
  | read n | write n =>
    simp only [select, Loop.step, List.length_nil, ite_eq_right_iff]
    omega

/-- A client that closes its sending side without a byte: both tasks are at rest, the other
direction is open, and the Tor stream is not told. -/
theorem half_closed_not_told :
    ∃ s, run Pump.step {} [.a .close, .a .eof, .a .finish] = some s ∧ s.Quiescent ∧
      s.a.ended = true ∧ Copied s.a ∧ s.torShut = false :=
  ⟨{ a := { ended := true, readDone := true, phase := .finished } }, rfl,
    ⟨rest_of_over (by decide), rest_of_start⟩, rfl, ⟨rfl, rfl⟩, rfl⟩

end FfVpn.Analysis.EndOfStream
