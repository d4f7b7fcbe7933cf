import FfVpn.Analysis.SessionEnd

/-!
# What a stop has joined

A stop goes through the transport and then through the handles of its engine, one abort and one
join after the other. `PtInv` says that the engine is torn down by one stop, which finds the
transport in it. `JoinInv` follows the joins: where none of them gives up after its two seconds,
what the stop has passed has ended, and stays so.
-/

set_option autoImplicit false

namespace FfVpn.Analysis.StopJoins

open FfVpn.Model.Session FfVpn.Model.Engine FfVpn.Analysis.SlotInvariant
  FfVpn.Analysis.SessionEnd

/-- The transport of the session is up. -/
def hasPt : StartPc → Bool
  | .artiPort | .artiSpawn | .leafConfig | .leafSpawn | .dnsBind | .dohClient | .ipcStale
  | .ipcBind | .ipcPerms | .ipcSpawn | .store | .disarm | .unlock | .ok | .dropPt _ => true
  | _ => false

/-- An engine is torn down by one stop, and that stop finds the transport in it. -/
structure PtInv (c : Core) : Prop where
  unique : ∀ n m k, engineOf (c.stops n).pc = some k → engineOf (c.stops m).pc = some k → n = m
  up : ∀ k, hasPt (c.starts k).pc = true → (∀ n, engineOf (c.stops n).pc ≠ some k) →
    (c.starts k).pt = true
  fresh : ∀ n k, (c.stops n).pc = .cancel k ∨ (c.stops n).pc = .shutdownPt k →
    (c.starts k).pt = true

theorem ptInv_start : PtInv {} := by
  constructor <;> simp [engineOf, hasPt]

/-- The transport comes up with one line of the start and goes down with another. -/
theorem startStep_pt {v : View} {s s' : Session} {ok : Bool} {e : CallEffect}
    (h : s.startStep v ok = some (s', e)) (hpt : hasPt s'.pc = true) :
    s'.pt = true ∨ (hasPt s.pc = true ∧ s'.pt = s.pt) := by
  have hedge := startStep_edge h
  rcases (startStep_frame h).pt with hsame | ⟨-, hup⟩ | ⟨f, hdrop⟩
  · by_cases hspawn : s.pc = .ptSpawn
    · obtain ⟨rfl, -⟩ : _ = s' ∧ _ = e := by simpa [Session.startStep, hspawn] using h
      exact .inl rfl
    · refine .inr ⟨?_, hsame⟩
      generalize s.pc = pc, s'.pc = pc' at hedge hspawn hpt
      cases hedge <;> first | exact absurd rfl hspawn | exact hpt | cases hpt
  · exact .inl hup
  · generalize s.pc = pc, s'.pc = pc' at hedge hdrop hpt
    subst hdrop
    cases hedge
    cases hpt

/-- A step that moves no stop, and keeps the transport of every session that is up, keeps the
invariant. -/
theorem PtInv.congr {c c' : Core} (h : PtInv c) (hstops : c'.stops = c.stops)
    (hup : ∀ k, hasPt (c'.starts k).pc = true → (c'.starts k).pt = true ∨
      (hasPt (c.starts k).pc = true ∧ (c'.starts k).pt = (c.starts k).pt))
    (hfresh : ∀ n k, engineOf (c.stops n).pc = some k → (c'.starts k).pt = (c.starts k).pt) :
    PtInv c' := by
  constructor
  · rw [hstops]
    exact h.unique
  · intro k hk hnone
    rcases hup k hk with hpt | ⟨hpc, hpt⟩
    · exact hpt
    · rw [hpt]
      exact h.up k hpc (by simpa [hstops] using hnone)
  · intro n k hn
    rw [hstops] at hn
    rw [hfresh n k (by rcases hn with hn | hn <;> rw [hn] <;> rfl)]
    exact h.fresh n k hn

/-- A stop that goes on to `pc` keeps it, where the engine it works on is nobody else's and the
transport of that engine is still up as long as `pc` counts on it. -/
theorem PtInv.goto {c c' : Core} (h : PtInv c) (n : Nat) (pc : StopPc)
    (hstops : ∀ m, (c'.stops m).pc = if m = n then pc else (c.stops m).pc)
    (hpcs : ∀ j, (c'.starts j).pc = (c.starts j).pc)
    (hpt : ∀ j, engineOf pc ≠ some j → (c'.starts j).pt = (c.starts j).pt)
    (hkeep : ∀ k, engineOf (c.stops n).pc = some k → engineOf pc = some k)
    (hown : ∀ k, engineOf pc = some k → ∀ m, engineOf (c.stops m).pc = some k → m = n)
    (hfresh : ∀ k, pc = .cancel k ∨ pc = .shutdownPt k → (c'.starts k).pt = true) : PtInv c' := by
  have heng : ∀ m, engineOf (c'.stops m).pc = if m = n then engineOf pc else
      engineOf (c.stops m).pc := by
    intro m
    rw [hstops]
    split <;> rfl
  constructor
  · intro m m' k hm hm'
    rw [heng] at hm hm'
    split at hm <;> split at hm'
    · simp_all
    · rename_i hmn hmn'
      exact absurd (hown k hm m' hm') hmn'
    · rename_i hmn hmn'
      exact absurd (hown k hm' m hm) hmn
    · exact h.unique m m' k hm hm'
  · intro k hk hnone
    rw [hpcs] at hk
    have hn : engineOf pc ≠ some k := by
      have := hnone n
      rwa [heng, if_pos rfl] at this
    rw [hpt k hn]
    refine h.up k hk ?_
    intro m hm
    by_cases hmn : m = n
    · subst hmn
      exact hn (hkeep k hm)
    · have := hnone m
      rw [heng, if_neg hmn] at this
      exact this hm
  · intro m k hm
    rw [hstops] at hm
    by_cases hmn : m = n
    · rw [if_pos hmn] at hm
      exact hfresh k hm
    · rw [if_neg hmn] at hm
      have hold := h.fresh m k hm
      have hother : engineOf (c.stops m).pc = some k := by
        rcases hm with hm | hm <;> rw [hm] <;> rfl
      rw [hpt k ?_]
      · exact hold
      · intro hpc
        exact hmn (hown k hpc m hother)

/-- The transport is still up when a stop comes to shut it down. -/
theorem stopStep_fresh {c c' : Core} {n k : Nat} {timedOut : Bool}
    (hpc : tearing (c.stops n).pc = true) (hstep : c.stopStep n timedOut = some c')
    (hnew : (c'.stops n).pc = .cancel k ∨ (c'.stops n).pc = .shutdownPt k) :
    (c.stops n).pc = .cancel k ∧ (c'.starts k).pt = (c.starts k).pt := by
  cases hstop : (c.stops n).pc with
  | idle | take | done => simp [hstop, tearing] at hpc
  | cancel j =>
    simp only [Core.stopStep, hstop, Option.some.injEq] at hstep
    subst hstep
    obtain rfl : j = k := by simpa using hnew
    simp [Session.cancel]
  | shutdownPt j | joinPt j =>
    simp only [Core.stopStep, hstop] at hstep
    split at hstep <;> simp only [Option.some.injEq, reduceCtorEq] at hstep <;> subst hstep <;>
      simp at hnew
  | abort j t | clear j =>
    simp only [Core.stopStep, hstop, Option.some.injEq] at hstep
    subst hstep
    simp at hnew
  | join j t =>
    simp only [Core.stopStep, hstop] at hstep
    split at hstep
    · cases hstep
    · obtain rfl := Option.some.inj hstep
      cases t <;> simp [Tracked.next] at hnew

theorem PtInv.stop {c c' : Core} (h : PtInv c) (hslot : SlotInv c) {n : Nat} {timedOut : Bool}
    (hstep : c.stopStep n timedOut = some c') : PtInv c' := by
  rcases stopStep_pc hstep with hpc | hpc
  · have hnone : engineOf (c.stops n).pc = none := by rw [hpc]; rfl
    obtain ⟨-, ⟨k, hk, rfl⟩ | ⟨-, rfl⟩⟩ := stopStep_take hpc hstep
    · have hfree : ∀ m, engineOf (c.stops m).pc ≠ some k :=
        fun m hm => (hslot.taken m k hm).2 hk
      have hup : (c.starts k).pt = true := by
        refine h.up k ?_ hfree
        have := hslot.occupant k hk
        cases hp : (c.starts k).pc <;> simp_all [stored, hasPt]
      apply h.goto n (.cancel k)
      · intro m
        by_cases hm : m = n <;> simp [Core.goto, hm]
      · exact fun _ => rfl
      · exact fun _ _ => rfl
      · simp [hnone]
      · intro j hj m hm
        obtain rfl : k = j := by simpa [engineOf] using hj
        exact absurd hm (hfree m)
      · intro j hj
        obtain rfl : k = j := by simpa using hj
        exact hup
    · apply h.goto n (.done none)
      · intro m
        by_cases hm : m = n <;> simp [Core.goto, hm]
      · exact fun _ => rfl
      · exact fun _ _ => rfl
      · simp [hnone]
      · simp [engineOf]
      · simp
  · have hfresh := fun k => stopStep_fresh (k := k) hpc hstep
    obtain ⟨k, f, pc, hold, hnew, hf, rfl⟩ := stopStep_tear hpc hstep
    apply h.goto n pc
    · intro m
      by_cases hm : m = n <;> simp [Core.goto, hm]
    · intro j
      by_cases hj : j = k <;> simp [hj, hf.pc]
    · intro j hj
      have hjk : j ≠ k := by
        rintro rfl
        exact hj hnew
      simp [hjk]
    · intro j hj
      rwa [hnew, ← hold]
    · intro j hj m hm
      rw [hnew, ← hold] at hj
      exact h.unique m n j hm hj
    · intro j hj
      obtain ⟨hcancel, hpt⟩ := hfresh j (by simpa using hj)
      rw [hpt]
      exact h.fresh n j (.inl hcancel)

theorem PtInv.next {c c' : Core} {a : Act} (h : PtInv c) (hslot : SlotInv c)
    (hstep : c.step a = some c') : PtInv c' := by
  cases a with
  | call k args =>
    obtain ⟨hidle, rfl⟩ := Core.step_call hstep
    refine h.congr rfl ?_ ?_
    · intro j hj
      by_cases hjk : j = k
      · subst hjk
        cases hentry : args.entry <;> simp [Session.called, hentry, hasPt] at hj
      · exact .inr (by simpa [hjk] using hj)
    · intro n j hj
      have hjk : j ≠ k := by
        rintro rfl
        simp [(hslot.taken n j hj).1] at hidle
      simp [hjk]
  | start k ok =>
    obtain ⟨s, e, hs, rfl⟩ := Core.step_start hstep
    refine h.congr (by simp) ?_ ?_
    · intro j hj
      by_cases hjk : j = k
      · subst hjk
        simpa using startStep_pt hs (by simpa using hj)
      · exact .inr (by simpa [hjk] using hj)
    · intro n j hj
      have hjk : j ≠ k := by
        rintro rfl
        rw [startStep_ok (hslot.taken n j hj).1] at hs
        cases hs
      simp [hjk]
  | callStop n =>
    obtain ⟨hidle, rfl⟩ := Core.step_callStop hstep
    have heng : ∀ m, engineOf ((Function.update c.stops n
        { pc := .take, upAtCall := c.slot }) m).pc = engineOf (c.stops m).pc := by
      intro m
      by_cases hm : m = n
      · subst hm
        simp [hidle, engineOf]
      · simp [hm]
    constructor
    · intro m m' k hm hm'
      rw [heng] at hm hm'
      exact h.unique m m' k hm hm'
    · intro k hk hnone
      exact h.up k hk (fun m => heng m ▸ hnone m)
    · intro m k hm
      by_cases hmn : m = n
      · subst hmn
        simp at hm
      · exact h.fresh m k (by simpa [hmn] using hm)
  | stop n timedOut => exact h.stop hslot hstep
  | handleStop k =>
    obtain ⟨-, rfl⟩ := Core.step_handleStop hstep
    refine h.congr rfl ?_ ?_
    · intro j hj
      right
      by_cases hjk : j = k <;> simp_all [Session.cancel]
    · intro n j _
      by_cases hjk : j = k <;> simp [hjk, Session.cancel]
  | task k a =>
    obtain ⟨t, e, -, rfl⟩ := Core.step_task hstep
    refine h.congr (by simp) ?_ ?_
    · intro j hj
      rw [Core.task_starts] at hj ⊢
      right
      by_cases hjk : j = k <;> simp_all
    · intro n j _
      rw [Core.task_starts]
      by_cases hjk : j = k <;> simp [hjk]

/-- No join of a stop gives up. -/
def Awaits (c : Core) (a : Act) : Prop :=
  ∀ n k h b, a = .stop n b → (c.stops n).pc = .join k h → b = false

/-- The handles a stop has joined when it comes to a handle. -/
def before : Tracked → List Tracked
  | .arti => []
  | .leaf => [.arti]
  | .dns => [.arti, .leaf]
  | .ipc => [.arti, .leaf, .dns]

/-- The engine a stop works on and the handles it has joined, from its first `abort` on. -/
def joinedBy : StopPc → Option (Nat × List Tracked)
  | .abort k t | .join k t => some (k, before t)
  | .clear k => some (k, handles)
  | _ => none

/-- What a stop has joined has ended. -/
def JoinInv (c : Core) : Prop :=
  ∀ n k hs, joinedBy (c.stops n).pc = some (k, hs) → Joined hs (c.starts k).tasks

/-- The engine of `joinedBy` is the one the stop has taken. -/
theorem engineOf_of_joinedBy {pc : StopPc} {k : Nat} {hs : List Tracked}
    (h : joinedBy pc = some (k, hs)) : engineOf pc = some k := by
  cases pc <;> simp_all [joinedBy, engineOf]

/-- One more line of a stop: what it has joined by then has ended. -/
theorem joined_stopStep {c c' : Core} {n : Nat} {b : Bool} (h : JoinInv c) (hpt : PtInv c)
    (hawaits : Awaits c (.stop n b)) (hstep : c.stopStep n b = some c') {k : Nat}
    {hs : List Tracked} (hnew : joinedBy (c'.stops n).pc = some (k, hs)) :
    Joined hs (c'.starts k).tasks := by
  cases hstop : (c.stops n).pc with
  | idle | done => simp [Core.stopStep, hstop] at hstep
  | take =>
    obtain ⟨-, ⟨j, -, rfl⟩ | ⟨-, rfl⟩⟩ := stopStep_take hstop hstep <;> simp [joinedBy] at hnew
  | cancel j =>
    simp only [Core.stopStep, hstop, Option.some.injEq] at hstep
    subst hstep
    simp [joinedBy] at hnew
  | shutdownPt j =>
    -- the transport is there, so the next line is the await of its wrapper
    have hup := hpt.fresh n j (.inr hstop)
    simp only [Core.stopStep, hstop, hup, if_true, Option.some.injEq] at hstep
    subst hstep
    simp [joinedBy] at hnew
  | joinPt j =>
    simp only [Core.stopStep, hstop] at hstep
    split at hstep
    · cases hstep
    · rename_i hended
      obtain rfl := Option.some.inj hstep
      obtain ⟨rfl, rfl⟩ : j = k ∧ [] = hs := by simpa [joinedBy, before] using hnew
      exact ⟨by simpa using hended, by simp⟩
  | abort j t =>
    simp only [Core.stopStep, hstop, Option.some.injEq] at hstep
    subst hstep
    obtain ⟨rfl, rfl⟩ : j = k ∧ before t = hs := by simpa [joinedBy] using hnew
    have hold := h n j (before t) (by rw [hstop]; rfl)
    simpa using (joined_stable _).abort t hold
  | join j t =>
    have hended := hawaits n j t b rfl hstop
    have hold := h n j (before t) (by rw [hstop]; rfl)
    simp only [Core.stopStep, hstop] at hstep
    split at hstep
    · cases hstep
    · rename_i hwoken
      obtain rfl := Option.some.inj hstep
      have hkeep : j = k ∧ hs = before t ++ [t] := by
        cases t <;> simp_all [Tracked.next, joinedBy, before, handles]
      obtain ⟨rfl, rfl⟩ := hkeep
      refine ⟨hold.pt, ?_⟩
      intro hd hmem
      rcases List.mem_append.mp hmem with hmem | hmem
      · exact hold.handles hd hmem
      · rw [List.mem_singleton.mp hmem]
        simpa [hended] using hwoken
  | clear j =>
    simp only [Core.stopStep, hstop, Option.some.injEq] at hstep
    subst hstep
    simp [joinedBy] at hnew

theorem joinInv_next {c c' : Core} {a : Act} (h : JoinInv c) (hslot : SlotInv c) (hpt : PtInv c)
    (hawaits : Awaits c a) (hstep : c.step a = some c') : JoinInv c' := by
  intro n k hs hnew
  rcases stops_next hstep n with hsame | ⟨-, htake⟩ | ⟨b, rfl, hs'⟩
  · rw [hsame] at hnew
    have hok := (hslot.taken n k (engineOf_of_joinedBy hnew)).1
    exact ((joined_stable hs).next hok hstep).2.2 (h n k hs hnew)
  · simp [htake, joinedBy] at hnew
  · exact joined_stopStep h hpt hawaits hs' hnew

/-- A stop returns from a teardown with one line. -/
theorem stopStep_done {c c' : Core} {n k : Nat} {b : Bool} (hstep : c.stopStep n b = some c')
    (hdone : (c'.stops n).pc = .done (some k)) : (c.stops n).pc = .clear k := by
  cases hpc : (c.stops n).pc with
  | idle | done => simp [Core.stopStep, hpc] at hstep
  | take =>
    obtain ⟨-, ⟨j, -, rfl⟩ | ⟨-, rfl⟩⟩ := stopStep_take hpc hstep <;> simp at hdone
  | clear j =>
    simp only [Core.stopStep, hpc, Option.some.injEq] at hstep
    subst hstep
    simpa using hdone
  | join j t =>
    simp only [Core.stopStep, hpc] at hstep
    split at hstep
    · cases hstep
    · obtain rfl := Option.some.inj hstep
      cases t <;> simp [Tracked.next] at hdone
  | _ =>
    simp only [Core.stopStep, hpc] at hstep
    try split at hstep
    all_goals simp only [Option.some.injEq, reduceCtorEq] at hstep
    all_goals
      subst hstep
      simp at hdone

end FfVpn.Analysis.StopJoins
