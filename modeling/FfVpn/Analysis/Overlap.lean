import FfVpn.Analysis.FailedBringUp
import FfVpn.Analysis.Teardown

/-!
# Do sessions overlap?

`start` keeps the slot's mutex from its check to its end; `stop` gives it back as soon as the slot
is empty, with the whole teardown still ahead, and a start that fails gives it back with the tasks
it has spawned merely cancelled. So a start may find the slot empty while an earlier session is
still there, and a stop may find nothing to do while the engine that was up when it was called is
being torn down. `TakesTurns` excludes the three; where sessions wind down, they then follow one
another.
-/

set_option autoImplicit false

namespace FfVpn.Analysis.Overlap

open FfVpn.Library.Transition FfVpn.Model.Session FfVpn.Model.Engine FfVpn.Analysis.SlotInvariant
  FfVpn.Analysis.SessionEnd FfVpn.Analysis.StopJoins FfVpn.Analysis.SlotLiveness
  FfVpn.Analysis.FailedBringUp FfVpn.Analysis.WindDown FfVpn.Analysis.Teardown

/-- The first task of the session's engine, Leaf #1, has been spawned. -/
def Begun (s : Session) : Prop := s.tasks.leaf1 ≠ {}

/-- The next line of the stop is its last: it returns `Ok`. -/
def returning (c : Core) (n : Nat) : Prop :=
  (∃ k, (c.stops n).pc = .clear k) ∨
    ((c.stops n).pc = .take ∧ c.lock = none ∧ c.slot = none)

/-- A start that begins to bring up an engine does so with no session's task left and every engine
begun before it cancelled; and no stop returns while another one is tearing down the engine that was
up when it was called. -/
structure NoOverlap (c : Core) (a : Act) : Prop where
  begin : ∀ k ok, a = .start k ok → (c.starts k).pc = .check → c.slot = none →
    ∀ j, AllEnded (c.starts j).tasks ∧
      (Begun (c.starts j) → (c.starts j).tasks.cancelled = true)
  returns : ∀ n b k, a = .stop n b → returning c n → (c.stops n).upAtCall = some k →
    ∀ m, m ≠ n → tearing (c.stops m).pc = true → engineOf (c.stops m).pc ≠ some k

/-- Sessions wind down; no start finds the slot empty while a stop is at its teardown or after a
bring-up that failed past its first spawn; and no stop takes the engine that was up when another
one, which still waits for the slot, was called. -/
structure TakesTurns (c : Core) (a : Act) : Prop extends WindsDown c a where
  begin : ∀ k ok, a = .start k ok → (c.starts k).pc = .check → c.slot = none →
    (∀ n, tearing (c.stops n).pc = false) ∧ ∀ j, dropped (c.starts j).pc = false
  take : ∀ n b k, a = .stop n b → (c.stops n).pc = .take → c.slot = some k →
    ∀ m, m ≠ n → (c.stops m).pc = .take → (c.stops m).upAtCall ≠ some k

/-! ## Whose engine it is -/

/-- The engine a stop has taken out of the slot stays the one it works on. -/
theorem engineOf_next {c c' : Core} {a : Act} (hstep : c.step a = some c') {n k : Nat}
    (h : engineOf (c.stops n).pc = some k) : engineOf (c'.stops n).pc = some k := by
  rcases stops_next hstep n with hsame | ⟨rfl, -⟩ | ⟨b, rfl, hs⟩
  · rwa [hsame]
  · have hidle := (Core.step_callStop hstep).1
    simp [hidle, engineOf] at h
  · rcases stopStep_pc hs with hpc | hpc
    · simp [hpc, engineOf] at h
    · obtain ⟨j, f, pc, hold, hnew, -, rfl⟩ := stopStep_tear hpc hs
      obtain rfl : j = k := Option.some.inj (hold.symm.trans h)
      simpa using hnew

/-- An engine that is stored was so before, or is stored with this step. -/
theorem stored_next {c c' : Core} {a : Act} (hstep : c.step a = some c') {k : Nat}
    (h : stored (c'.starts k).pc = true) :
    stored (c.starts k).pc = true ∨ ((c.starts k).pc = .store ∧ c'.slot = some k) := by
  have hnext := session_next hstep k
  generalize hs' : c'.starts k = s at hnext h
  cases hnext with
  | same | task => exact .inl h
  | @called args =>
    cases hentry : args.entry <;> simp [Session.called, hentry, stored] at h
  | teardown hf => exact .inl (by rwa [hf.pc] at h)
  | @start ok s e ha hs =>
    have hedge := startStep_edge hs
    have hstore := startStep_store_iff hs
    by_cases hpc : (c.starts k).pc = .store
    · refine .inr ⟨hpc, ?_⟩
      subst ha
      obtain ⟨s'', e'', hs'', rfl⟩ := Core.step_start hstep
      rw [hs] at hs''
      obtain ⟨rfl, rfl⟩ := Prod.mk.inj (Option.some.inj hs'')
      rw [apply_slot, if_pos (hstore.mpr hpc)]
    · left
      generalize (c.starts k).pc = pc, s.pc = pc' at hedge h hpc ⊢
      cases hedge <;> first | rfl | exact absurd rfl hpc | cases h

/-- Every engine that is up is in the slot or in the hands of a stop. -/
def Owned (c : Core) : Prop :=
  ∀ k, stored (c.starts k).pc = true → c.slot = some k ∨ ∃ n, engineOf (c.stops n).pc = some k

theorem Owned.next {c c' : Core} {a : Act} (h : Owned c) (hvacant : Vacant c)
    (hstep : c.step a = some c') : Owned c' := by
  intro k hk
  rcases stored_next hstep hk with hold | ⟨-, hfilled⟩
  · rcases h k hold with hin | ⟨n, hn⟩
    · cases slot_next hstep with
      | same hsame => exact .inl (hsame.trans hin)
      | @taken n j b _ _ hslot _ hpc' =>
        obtain rfl : j = k := Option.some.inj (hslot.symm.trans hin)
        exact .inr ⟨n, by rw [hpc']; rfl⟩
      | @filled j hpc =>
        -- the start that stores has found the slot empty
        have hnone := hvacant j (by rw [hpc]; rfl)
        rw [hnone] at hin
        cases hin
    · exact .inr ⟨n, engineOf_next hstep hn⟩
  · exact .inl hfilled

/-- The engine that was up when a stop was called is in the slot as long as the stop waits for it,
and is then the one it tears down. -/
def CalledFor (c : Core) : Prop :=
  ∀ n k, (c.stops n).upAtCall = some k →
    ((c.stops n).pc = .take ∧ c.slot = some k) ∨ engineOf (c.stops n).pc = some k

theorem CalledFor.next {c c' : Core} {a : Act} (h : CalledFor c) (hvacant : Vacant c)
    (hturn : TakesTurns c a) (hstep : c.step a = some c') : CalledFor c' := by
  intro n k hup
  rcases stops_next hstep n with hsame | ⟨rfl, -⟩ | ⟨b, rfl, hs⟩
  · rw [hsame] at hup
    rcases h n k hup with ⟨htake, hslot⟩ | hengine
    · refine .inl ⟨by rw [hsame, htake], ?_⟩
      cases slot_next hstep with
      | same hslot' => exact hslot'.trans hslot
      | @taken m j b ha hpc hj _ hpc' =>
        obtain rfl : j = k := Option.some.inj (hj.symm.trans hslot)
        have hmn : n ≠ m := by
          rintro rfl
          rw [hsame, htake] at hpc'
          cases hpc'
        exact absurd hup (hturn.take m b j ha hpc hj n hmn htake)
      | @filled j hpc =>
        have hnone := hvacant j (by rw [hpc]; rfl)
        rw [hnone] at hslot
        cases hslot
    · exact .inr (by rwa [hsame])
  · obtain ⟨-, rfl⟩ := Core.step_callStop hstep
    exact .inl (by simpa using hup)
  · right
    rcases stopStep_pc hs with hpc | hpc
    · obtain ⟨-, htaken⟩ := stopStep_take hpc hs
      have hup' : (c.stops n).upAtCall = some k := by
        rcases htaken with ⟨j, -, rfl⟩ | ⟨-, rfl⟩ <;> simpa using hup
      have hslot : c.slot = some k := by
        rcases h n k hup' with ⟨-, hslot⟩ | hengine
        · exact hslot
        · simp [hpc, engineOf] at hengine
      rcases htaken with ⟨j, hj, rfl⟩ | ⟨hnone, rfl⟩
      · obtain rfl : j = k := Option.some.inj (hj.symm.trans hslot)
        simp [engineOf]
      · rw [hnone] at hslot
        cases hslot
    · obtain ⟨j, f, pc, hold, hnew, -, rfl⟩ := stopStep_tear hpc hs
      rcases h n k (by simpa using hup) with ⟨htake, -⟩ | hengine
      · rw [htake] at hpc
        cases hpc
      · simpa [hnew, hold] using hengine

/-! ## Turns -/

/-- What holds along a run in which the calls take turns. -/
structure TurnInv (c : Core) : Prop where
  core : CoreInv c
  tasks : EndInv c
  owned : Owned c
  called : CalledFor c

theorem turnInv_start : TurnInv {} := by
  refine ⟨coreInv_start, endInv_start, ?_, ?_⟩
  · intro k hk
    cases hk
  · intro n k hk
    cases hk

theorem TurnInv.next {c c' : Core} {a : Act} (h : TurnInv c) (hturn : TakesTurns c a)
    (hstep : c.step a = some c') : TurnInv c' :=
  ⟨h.core.next hstep, h.tasks.next hturn.toWindsDown hstep, h.owned.next h.core.vacant hstep,
    h.called.next h.core.vacant hturn hstep⟩

/-- Where a session is: nothing is spawned, its bring-up has failed, it is still inside the mutex,
or it is up. -/
theorem pc_cases (pc : StartPc) : unspawned pc = true ∨ dropped pc = true ∨
    (inside pc = true ∧ unspawned pc = false) ∨ pc = .ok := by
  cases pc <;> simp [unspawned, dropped, inside]

theorem noOverlap_of_turn {c : Core} {a : Act} (h : TurnInv c) (hturn : TakesTurns c a) :
    NoOverlap c a := by
  constructor
  · intro k ok ha hcheck hslot j
    obtain ⟨hidle, hfailed⟩ := hturn.begin k ok ha hcheck hslot
    rcases pc_cases (c.starts j).pc with hnone | hdropped | ⟨hin, hnot⟩ | hok
    · have hnothing := (h.core.sessions j).fresh hnone
      refine ⟨hnothing ▸ allEnded_nothing, fun hbegun => absurd ?_ hbegun⟩
      rw [hnothing]
    · rw [hfailed j] at hdropped
      cases hdropped
    · -- the mutex is the start's own
      have hk := (h.core.slot.holder k).mpr (by simp [hcheck, inside])
      obtain rfl : k = j := Option.some.inj (hk.symm.trans ((h.core.slot.holder j).mpr hin))
      simp [hcheck, unspawned] at hnot
    · rcases h.owned j (by simp [hok, stored]) with hin | ⟨n, hn⟩
      · rw [hslot] at hin
        cases hin
      · -- the stop that has the engine is not in its teardown, so it has returned
        have hdone : (c.stops n).pc = .done (some j) := by
          have := hidle n
          cases hp : (c.stops n).pc <;> simp_all [engineOf, tearing]
        exact ⟨h.tasks.finished n j hdone, fun _ => h.core.cancelled n j hn (by simp [hdone])⟩
  · intro n b k ha _ hup m hmn _ hm
    rcases h.called n k hup with ⟨-, hslot⟩ | hn
    · exact (h.core.slot.taken m k hm).2 hslot
    · exact hmn (h.tasks.pt.unique m n k hm hn)

/-- **Do sessions overlap?** In every run of any number of `start` and `stop` calls whose sessions
wind down, in which no start finds the slot empty during a teardown or after a bring-up that failed
past its first spawn, and no stop takes an engine from under another one that was called for it, a
start begins only with every task of every session ended and every engine before it cancelled, and
no stop returns while the engine that was up when it was called is torn down by another one. -/
theorem sessions_take_turns (as : List Act) (hturn : AllSteps Core.step TakesTurns {} as) :
    AllSteps Core.step NoOverlap {} as := by
  refine AllSteps.of_guarded (I := TurnInv) ?_ ?_ turnInv_start hturn
  · intro c a c' h hok hs
    exact h.next hok hs
  · intro c a c' h hok _
    exact noOverlap_of_turn h hok

/-! ## Two sessions, one after the other -/

/-- Nothing but the sessions and the stops 0 and 1 has been called, and no session has been given a
connection or a query. -/
structure Small (c : Core) : Prop where
  quiet : AllQuiet c
  starts : ∀ k, 2 ≤ k → (c.starts k).pc = .idle
  stops : ∀ n, 2 ≤ n → (c.stops n).pc = .idle

/-- What `TakesTurns` asks of the calls, decided for a step from a small state. -/
def callsCheck (c : Core) : Act → Bool
  | .call k _ => k < 2
  | .callStop n => n < 2
  | .start k _ => (c.starts k).pc != .check || c.slot.isSome ||
      [0, 1].all fun i => !tearing (c.stops i).pc && !dropped (c.starts i).pc
  | .stop n _ => (c.stops n).pc != .take || c.slot.isNone ||
      [0, 1].all fun m => m == n || (c.stops m).pc != .take || (c.stops m).upAtCall != c.slot
  | _ => true

/-- `TakesTurns`, decided for a step from a small state. -/
def turnCheck (c : Core) (a : Act) : Bool := windsDownCheck c a && callsCheck c a

theorem Small.next {c c' : Core} {a : Act} (h : Small c) (hcheck : turnCheck c a = true)
    (hstep : c.step a = some c') : Small c' := by
  rw [turnCheck, Bool.and_eq_true] at hcheck
  refine ⟨h.quiet.next (takesOn_of_check hcheck.1) hstep, ?_, ?_⟩
  · intro k hk
    have hidle := h.starts k hk
    have hnext := session_next hstep k
    generalize c'.starts k = s at hnext ⊢
    cases hnext with
    | same | task => exact hidle
    | called ha =>
      subst ha
      have hless : k < 2 := by simpa [callsCheck] using hcheck.2
      omega
    | start _ hs => simp [Session.startStep, hidle] at hs
    | teardown hf => rw [hf.pc, hidle]
  · intro n hn
    rcases stops_next hstep n with hsame | ⟨rfl, -⟩ | ⟨b, rfl, hs⟩
    · rw [hsame, h.stops n hn]
    · have hless : n < 2 := by simpa [callsCheck] using hcheck.2
      omega
    · simp [Core.stopStep, h.stops n hn] at hs

theorem Small.turn {c : Core} {a : Act} (h : Small c) (hcheck : turnCheck c a = true) :
    TakesTurns c a := by
  rw [turnCheck, Bool.and_eq_true] at hcheck
  refine ⟨windsDown_of_check h.quiet hcheck.1, ?_, ?_⟩
  · rintro k ok rfl hpc hslot
    have hall : ∀ i < 2, tearing (c.stops i).pc = false ∧ dropped (c.starts i).pc = false := by
      have hpair : (tearing (c.stops 0).pc = false ∧ dropped (c.starts 0).pc = false) ∧
          tearing (c.stops 1).pc = false ∧ dropped (c.starts 1).pc = false := by
        simpa [callsCheck, hpc, hslot] using hcheck.2
      intro i hi
      obtain rfl | rfl : i = 0 ∨ i = 1 := by omega
      · exact hpair.1
      · exact hpair.2
    constructor
    · intro n
      by_cases hn : n < 2
      · exact (hall n hn).1
      · rw [h.stops n (by omega)]
        rfl
    · intro j
      by_cases hj : j < 2
      · exact (hall j hj).2
      · rw [h.starts j (by omega)]
        rfl
  · rintro n b k rfl hpc hslot m hmn htake hup
    have hm : m < 2 := by
      by_contra hm
      rw [h.stops m (by omega)] at htake
      cases htake
    have hother := hcheck.2
    obtain rfl | rfl : m = 0 ∨ m = 1 := by omega
    · simp_all [callsCheck]
    · simp_all [callsCheck]

/-- Along a run that passes the check the calls take turns. -/
theorem turns_of_check {c : Core} {as : List Act} (h0 : Small c)
    (h : checkSteps Core.step turnCheck c as = true) : AllSteps Core.step TakesTurns c as :=
  AllSteps.of_guarded (fun _ _ _ h hok hs => h.next hok hs) (fun _ _ _ h hok _ => h.turn hok) h0
    (AllSteps.of_check (fun _ _ h => h) h)

/-- A stop that is called when the slot is empty returns at once, with the teardown of the first
session still ahead; the second session begins after it. -/
def oneAfterTheOther : List Act :=
  startOk 0 {} ++ [Act.callStop 0, .stop 0 false, .callStop 1, .stop 1 false] ++
    List.replicate 2 (Act.stop 0 false) ++ tasksWindDown 0 ++
    List.replicate 10 (Act.stop 0 false) ++ [Act.call 1 {}, .start 1 true, .start 1 true]

/-- The general statement at that run. -/
theorem orderly_sessions_take_turns :
    AllSteps Core.step NoOverlap {} oneAfterTheOther ∧
      ∃ c, run Core.step {} oneAfterTheOther = some c ∧ (c.starts 1).pc = .ptProvider := by
  constructor
  · refine sessions_take_turns _ (turns_of_check ⟨allQuiet_start, ?_, ?_⟩ (by decide +kernel)) <;>
      exact fun _ _ => rfl
  · exact ⟨_, rfl, rfl⟩

/-- A session is up, a stop has taken its engine, and another thread calls `start`. -/
def startDuringStop : List Act :=
  startOk 0 {} ++ [Act.callStop 0, .stop 0 false, .call 1 {}, .start 1 true]

/-- A session is up and two threads call `stop`; the first of them has taken the engine. -/
def stopDuringStop : List Act :=
  startOk 0 {} ++ [Act.callStop 0, .callStop 1, .stop 0 false]

/-- The bring-up of a session has failed as the embedded DNS server was to be bound, and another
thread calls `start`. -/
def startAfterFailure : List Act :=
  [Act.call 0 {}] ++ List.replicate 10 (Act.start 0 true) ++
    List.replicate 4 (Act.start 0 false) ++ [Act.call 1 {}, .start 1 true]

/-- The start begins with the first session neither cancelled nor ended; the second stop returns
`Ok` while the engine that was up when it was called has not even been cancelled; and the start
after the failure begins with Arti still running. -/
theorem sessions_overlap :
    (∃ c c', run Core.step {} startDuringStop = some c ∧ (c.starts 0).pc = .ok ∧
      (c.starts 0).tasks.cancelled = false ∧ (c.starts 0).tasks.arti = .live ∧
      (c.starts 1).pc = .check ∧ c.step (.start 1 true) = some c' ∧
      (c'.starts 1).pc = .ptProvider ∧ ¬ NoOverlap c (.start 1 true)) ∧
    (∃ c c', run Core.step {} stopDuringStop = some c ∧ (c.stops 1).upAtCall = some 0 ∧
      (c.stops 0).pc = .cancel 0 ∧ c.step (.stop 1 false) = some c' ∧
      (c'.stops 1).pc = .done none ∧ ¬ NoOverlap c (.stop 1 false)) ∧
    ∃ c c', run Core.step {} startAfterFailure = some c ∧ (c.starts 0).pc = .err .dnsBind ∧
      (c.starts 0).tasks.arti = .live ∧ (c.starts 1).pc = .check ∧
      c.step (.start 1 true) = some c' ∧ (c'.starts 1).pc = .ptProvider ∧
      ¬ NoOverlap c (.start 1 true) := by
  refine ⟨?_, ?_, ?_⟩
  · obtain ⟨c, c', hrun, hpc, hlive, harti, hcheck, hslot, hstep, hbegun⟩ : ∃ c c',
        run Core.step {} startDuringStop = some c ∧ (c.starts 0).pc = .ok ∧
        (c.starts 0).tasks.cancelled = false ∧ (c.starts 0).tasks.arti = .live ∧
        (c.starts 1).pc = .check ∧ c.slot = none ∧ c.step (.start 1 true) = some c' ∧
        (c'.starts 1).pc = .ptProvider :=
      ⟨_, _, rfl, rfl, rfl, rfl, rfl, rfl, rfl, rfl⟩
    refine ⟨c, c', hrun, hpc, hlive, harti, hcheck, hstep, hbegun, ?_⟩
    intro h
    have hended := (h.begin 1 true rfl hcheck hslot 0).1.joined.handles .arti (by decide)
    rw [Tasks.tracked, harti] at hended
    cases hended
  · obtain ⟨c, c', hrun, hup, hcancel, htake, hlock, hslot, hstep, hdone⟩ : ∃ c c',
        run Core.step {} stopDuringStop = some c ∧ (c.stops 1).upAtCall = some 0 ∧
        (c.stops 0).pc = .cancel 0 ∧ (c.stops 1).pc = .take ∧ c.lock = none ∧ c.slot = none ∧
        c.step (.stop 1 false) = some c' ∧ (c'.stops 1).pc = .done none :=
      ⟨_, _, rfl, rfl, rfl, rfl, rfl, rfl, rfl, rfl⟩
    refine ⟨c, c', hrun, hup, hcancel, hstep, hdone, ?_⟩
    intro h
    exact h.returns 1 false 0 rfl (.inr ⟨htake, hlock, hslot⟩) hup 0 (by decide)
      (by rw [hcancel]; rfl) (by rw [hcancel]; rfl)
  · obtain ⟨c, c', hrun, herr, harti, hcheck, hslot, hstep, hbegun⟩ : ∃ c c',
        run Core.step {} startAfterFailure = some c ∧ (c.starts 0).pc = .err .dnsBind ∧
        (c.starts 0).tasks.arti = .live ∧ (c.starts 1).pc = .check ∧ c.slot = none ∧
        c.step (.start 1 true) = some c' ∧ (c'.starts 1).pc = .ptProvider :=
      ⟨_, _, rfl, rfl, rfl, rfl, rfl, rfl, rfl⟩
    refine ⟨c, c', hrun, herr, harti, hcheck, hstep, hbegun, ?_⟩
    intro h
    have hended := (h.begin 1 true rfl hcheck hslot 0).1.joined.handles .arti (by decide)
    rw [Tasks.tracked, harti] at hended
    cases hended

end FfVpn.Analysis.Overlap
