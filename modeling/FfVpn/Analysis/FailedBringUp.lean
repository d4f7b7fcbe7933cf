import FfVpn.Analysis.SessionEnd
import FfVpn.Analysis.SlotLiveness

/-!
# What a failed `Engine::start` leaves behind

`Engine::start` has no rollback of its own. Where it returns early with the transport up, the local
`pt` is dropped, and `LeafSocksPt::drop` cancels the token that every other task of the session
waits for. The frame of `start` still has the slot's mutex then, so the slot is as empty as the
check has found it, and stays so until another start gets the mutex.
-/

set_option autoImplicit false

namespace FfVpn.Analysis.FailedBringUp

open FfVpn.Library.Transition FfVpn.Model.LeafConfig FfVpn.Model.Session FfVpn.Model.Engine
  FfVpn.Analysis.SlotInvariant FfVpn.Analysis.SessionEnd FfVpn.Analysis.SlotLiveness

/-- `Engine::start` spawns a task before the line that fails so. -/
def afterSpawn : FailPoint → Bool
  | .arguments | .alreadyRunning | .ptProvider | .ptPort | .ptConfig => false
  | .artiPort | .leafConfig | .dnsBind | .dohClient | .ipcBind | .ipcPerms => true

/-- The error is one of `Engine::start`, not of what comes before it. -/
def ofEngineStart : FailPoint → Bool
  | .arguments | .alreadyRunning => false
  | _ => true

/-- `start` is on its way out with this error: `Engine::start` has returned it. -/
def engineErr : StartPc → Option FailPoint
  | .unlockErr f | .dropGuard f | .err f => if ofEngineStart f then some f else none
  | _ => none

/-- `start` has found the slot empty, and neither stored an engine nor released the mutex yet. -/
def insideEngineStart : StartPc → Bool
  | .ptProvider | .ptPort | .ptConfig | .ptSpawn | .artiPort | .artiSpawn | .leafConfig
  | .leafSpawn | .dnsBind | .dohClient | .ipcStale | .ipcBind | .ipcPerms | .ipcSpawn
  | .store | .dropPt _ => true
  | .unlockErr f => ofEngineStart f
  | _ => false

/-- The only start that takes the mutex is `j`. -/
def TakenBy (j : Nat) (c : Core) (a : Act) : Prop :=
  ∀ i ok, a = .start i ok → (c.starts i).pc = .lock → i = j

/-- What an error of `Engine::start` at `f` leaves of session `k`, and of the slot. -/
structure Undone (c : Core) (k : Nat) (f : FailPoint) : Prop where
  cancelled : afterSpawn f = true → (c.starts k).tasks.cancelled = true
  nothing : afterSpawn f = false → (c.starts k).tasks = {}
  /-- The slot is empty as the mutex is released, and until the next start that gets the mutex has
  stored an engine; that start is not refused. -/
  slot : (c.starts k).pc = .unlockErr f → ∀ j as c', run Core.step c as = some c' →
    AllSteps Core.step (TakenBy j) c as →
      (stored (c'.starts j).pc = false → c'.slot = none) ∧
      ((c'.starts j).pc = .check → ∀ ok s e,
        (c'.starts j).startStep (c'.view j) ok = some (s, e) → s.pc = .ptProvider)

/-! ## The session -/

/-- `Engine::start` has spawned nothing so far, or has failed before it could. -/
def unspawned : StartPc → Bool
  | .idle | .parse | .lock | .check | .ptProvider | .ptPort | .ptConfig | .ptSpawn => true
  | .unlockErr f | .dropGuard f | .err f => !afterSpawn f
  | _ => false

/-- `Engine::start` has failed with the transport up, and has dropped it. -/
def dropped : StartPc → Bool
  | .unlockErr f | .dropGuard f | .err f => afterSpawn f
  | _ => false

/-- Before its first spawn a session has no task, and after an error past it the token is
cancelled. -/
structure BringUp (s : Session) : Prop where
  fresh : unspawned s.pc = true → s.tasks = {}
  failing : ∀ f, s.pc = .dropPt f → afterSpawn f = true
  failed : dropped s.pc = true → s.tasks.cancelled = true

theorem BringUp.start {v : View} {s s' : Session} {ok : Bool} {e : CallEffect} (h : BringUp s)
    (hs : s.startStep v ok = some (s', e)) : BringUp s' := by
  have hedge := startStep_edge hs
  obtain ⟨hfresh, hfailing, hfailed⟩ := h
  have hframe := startStep_frame hs
  constructor
  · intro hnone
    rw [hframe.tasks]
    · refine hfresh ?_
      generalize s.pc = pc, s'.pc = pc' at hedge hnone hfailing
      cases hedge <;> first | rfl | exact hnone | cases hnone | simp_all [unspawned]
    · generalize s.pc = pc, s'.pc = pc' at hedge hnone hfailing
      cases hedge <;> first | rfl | cases hnone | simp_all [unspawned]
  · intro f hdrop
    generalize s.pc = pc, s'.pc = pc' at hedge hdrop
    cases hedge <;> cases hdrop <;> rfl
  · intro hdropped
    rcases hframe.cancelled with hsame | ⟨f, -, hcancelled⟩
    · by_cases hline : ∃ f, s.pc = .dropPt f
      · obtain ⟨f, hpc⟩ := hline
        obtain ⟨rfl, -⟩ : _ = s' ∧ _ = e := by simpa [Session.startStep, hpc] using hs
        rfl
      · rw [hsame]
        refine hfailed ?_
        generalize s.pc = pc, s'.pc = pc' at hedge hdropped hline
        cases hedge <;> first | exact hdropped | cases hdropped | simp_all
    · exact hcancelled

theorem BringUp.called (args : StartArgs) : BringUp (Session.called args) := by
  cases hentry : args.entry <;> constructor <;> simp [Session.called, hentry, dropped]

/-- A session without tasks has nothing that could take a step. -/
theorem allEnded_nothing : AllEnded {} := by
  refine ⟨⟨rfl, ?_⟩, ?_⟩
  · intro h _
    cases h <;> rfl
  · constructor <;> simp [Task.active, Thread.active, SocksPhase.active, connActive]

theorem BringUp.next {c c' : Core} {a : Act} (hslot : SlotInv c) (hcancelled : StopsCancelled c)
    {k : Nat} (h : BringUp (c.starts k)) (hstep : c.step a = some c') : BringUp (c'.starts k) := by
  rcases ownStep_or_cancelled hslot hcancelled hstep k with hown | ⟨hok, -⟩
  · generalize c'.starts k = s at hown ⊢
    cases hown with
    | same => exact h
    | called => exact .called _
    | start _ hs => exact h.start hs
    | task _ ht =>
      have hstays := task_step_cancelled ht
      refine ⟨?_, h.failing, ?_⟩
      · intro hfresh
        rw [h.fresh hfresh, allEnded_nothing.silent] at ht
        cases ht
      · intro hdropped
        simp [hstays, h.failed hdropped]
  · constructor <;> simp [hok, unspawned, dropped]

/-! ## The slot -/

/-- What a step does to the slot: nothing, or a stop takes what is in it, or the start at that line
fills it. -/
inductive SlotMove (c c' : Core) (a : Act) : Prop
  | same (hslot : c'.slot = c.slot)
  | taken {n k : Nat} {b : Bool} (ha : a = .stop n b) (hpc : (c.stops n).pc = .take)
    (hslot : c.slot = some k) (hnone : c'.slot = none) (hpc' : (c'.stops n).pc = .cancel k)
  | filled {j : Nat} (hpc : (c.starts j).pc = .store) (hpc' : (c'.starts j).pc = .disarm)
    (hslot : c'.slot = some j)

theorem slot_next {c c' : Core} {a : Act} (hstep : c.step a = some c') : SlotMove c c' a := by
  cases a with
  | call k args =>
    obtain ⟨-, rfl⟩ := Core.step_call hstep
    exact .same rfl
  | start k ok =>
    obtain ⟨s, e, hs, rfl⟩ := Core.step_start hstep
    by_cases he : e = .store
    · subst he
      obtain ⟨hpc, hpc'⟩ := startStep_store hs
      exact .filled hpc (by simpa using hpc') rfl
    · exact .same (by rw [apply_slot, if_neg he]; rfl)
  | callStop n =>
    obtain ⟨-, rfl⟩ := Core.step_callStop hstep
    exact .same rfl
  | stop n timedOut =>
    rcases stopStep_pc hstep with htake | htear
    · obtain ⟨-, ⟨j, hslot, rfl⟩ | ⟨-, rfl⟩⟩ := stopStep_take htake hstep
      · exact .taken rfl htake hslot rfl (by simp)
      · exact .same rfl
    · obtain ⟨j, f, pc, -, -, -, rfl⟩ := stopStep_tear htear hstep
      exact .same rfl
  | handleStop k =>
    obtain ⟨-, rfl⟩ := Core.step_handleStop hstep
    exact .same rfl
  | task k b =>
    obtain ⟨t, e, -, rfl⟩ := Core.step_task hstep
    exact .same (by simp)

theorem inside_of_insideEngineStart {pc : StartPc} (h : insideEngineStart pc = true) :
    inside pc = true := by
  cases pc <;> simp_all [insideEngineStart, inside]

/-- A start gets into `Engine::start` through its check of the slot. -/
theorem insideEngineStart_next {c c' : Core} {a : Act} {k : Nat} (hstep : c.step a = some c')
    (hpc : insideEngineStart (c'.starts k).pc = true) :
    insideEngineStart (c.starts k).pc = true ∨ (c.starts k).pc = .check ∧ c.slot = none := by
  have hnext := session_next hstep k
  generalize c'.starts k = s at hnext hpc
  cases hnext with
  | same | task => exact .inl hpc
  | @called args =>
    cases hentry : args.entry <;> simp [Session.called, hentry, insideEngineStart] at hpc
  | teardown hf => exact .inl (by rwa [hf.pc] at hpc)
  | start _ hs =>
    have hedge := startStep_edge hs
    generalize (c.starts k).pc = pc, s.pc = pc' at hedge hpc ⊢
    cases hedge with
    | vacant hnone => exact .inr ⟨rfl, by simpa [Core.view] using hnone⟩
    | dropPt => exact .inl rfl
    | _ => first | exact .inl rfl | cases hpc

/-- While a start is in `Engine::start`, or on its way out with an error of it, nobody has filled
the slot. -/
def Vacant (c : Core) : Prop := ∀ k, insideEngineStart (c.starts k).pc = true → c.slot = none

theorem Vacant.next {c c' : Core} {a : Act} (h : Vacant c) (hslot : SlotInv c)
    (hstep : c.step a = some c') : Vacant c' := by
  intro k hpc
  have hbefore := insideEngineStart_next hstep hpc
  have hnone : c.slot = none := by
    rcases hbefore with hin | ⟨-, hnone⟩
    · exact h k hin
    · exact hnone
  cases slot_next hstep with
  | same hsame => rw [hsame, hnone]
  | taken _ _ _ hempty => exact hempty
  | @filled j hstore hdisarm =>
    -- the start that stores holds the mutex, and so does `k`
    have hj := (hslot.holder j).mpr (by simp [hstore, inside])
    have hk := (hslot.holder k).mpr (by
      rcases hbefore with hin | ⟨hcheck, -⟩
      · exact inside_of_insideEngineStart hin
      · simp [hcheck, inside])
    obtain rfl : j = k := Option.some.inj (hj.symm.trans hk)
    simp [hdisarm, insideEngineStart] at hpc

/-! ## The next start -/

/-- Since the failed start `k`, no other start than `j` has been inside the mutex. -/
structure OnlyInside (j k : Nat) (f : FailPoint) (c : Core) : Prop where
  holder : ∀ i, inside (c.starts i).pc = true → i = j ∨ i = k ∧ (c.starts i).pc = .unlockErr f
  slot : ∀ i, c.slot = some i → i = j

/-- A start is inside the mutex after a step that takes it, or was so before and is not on its way
out. -/
theorem startStep_inside {v : View} {s s' : Session} {ok : Bool} {e : CallEffect}
    (hs : s.startStep v ok = some (s', e)) (hin : inside s'.pc = true) :
    s.pc = .lock ∨ inside s.pc = true ∧ ∀ f, s.pc ≠ .unlockErr f := by
  have hedge := startStep_edge hs
  generalize s.pc = pc, s'.pc = pc' at hedge hin ⊢
  cases hedge with
  | lock => exact .inl rfl
  | parse | refuse | unlock | unlockErr | dropGuard => cases hin
  | _ => exact .inr ⟨rfl, nofun⟩

theorem OnlyInside.next {j k : Nat} {f : FailPoint} {c c' : Core} {a : Act}
    (h : OnlyInside j k f c) (htaken : TakenBy j c a) (hstep : c.step a = some c') :
    OnlyInside j k f c' := by
  constructor
  · intro i hin
    have hnext := session_next hstep i
    generalize c'.starts i = s at hnext hin ⊢
    cases hnext with
    | same | task => exact h.holder i hin
    | called => rw [inside_called] at hin; cases hin
    | teardown hf =>
      rw [hf.pc] at hin ⊢
      exact h.holder i hin
    | start ha hs =>
      rcases startStep_inside hs hin with hlock | ⟨hbefore, hnot⟩
      · exact .inl (htaken i _ ha hlock)
      · rcases h.holder i hbefore with hj | ⟨-, hunlock⟩
        · exact .inl hj
        · exact absurd hunlock (hnot f)
  · intro i hi
    cases slot_next hstep with
    | same hsame => exact h.slot i (hsame ▸ hi)
    | taken _ _ _ hempty =>
      rw [hempty] at hi
      cases hi
    | @filled i' hstore _ hfilled =>
      obtain rfl : i' = i := Option.some.inj (hfilled.symm.trans hi)
      rcases h.holder i' (by simp [hstore, inside]) with hj | ⟨-, hunlock⟩
      · exact hj
      · simp [hstore] at hunlock

/-- After a failed start the slot stays empty until the next start has stored its engine, which the
check of the slot does not stop. -/
theorem OnlyInside.empty {j k : Nat} {f : FailPoint} {c : Core} (h : OnlyInside j k f c)
    (hslot : SlotInv c) (hpc : stored (c.starts j).pc = false) : c.slot = none := by
  cases hoccupant : c.slot with
  | none => rfl
  | some i =>
    obtain rfl := h.slot i hoccupant
    have hstored := hslot.occupant i hoccupant
    rw [hpc] at hstored
    cases hstored

/-- What a run keeps of the sessions and of the slot. -/
structure CoreInv (c : Core) : Prop where
  slot : SlotInv c
  cancelled : StopsCancelled c
  sessions : ∀ k, BringUp (c.starts k)
  vacant : Vacant c

theorem coreInv_start : CoreInv {} := by
  refine ⟨slotInv_start, stopsCancelled_start, ?_, ?_⟩
  · intro k
    constructor <;> simp [dropped]
  · intro k hk
    rfl

theorem CoreInv.next {c c' : Core} {a : Act} (h : CoreInv c) (hstep : c.step a = some c') :
    CoreInv c' :=
  ⟨h.slot.next hstep, h.cancelled.next h.slot hstep,
    fun k => (h.sessions k).next h.slot h.cancelled hstep, h.vacant.next h.slot hstep⟩

/-- **A failed bring-up is undone.** In every reachable state in which a start is on its way out
with an error of `Engine::start`, or has returned it: past the first spawn the session's token is
cancelled, and before it there is no task; the slot is empty as the mutex is released, and the next
start to get the mutex is not refused. -/
theorem failed_bring_up_is_undone {as : List Act} {c : Core} {k : Nat} {f : FailPoint}
    (hrun : run Core.step {} as = some c) (herr : engineErr (c.starts k).pc = some f) :
    Undone c k f := by
  have hinv : CoreInv c :=
    (AllStates.of_invariant (fun _ _ _ h hs => h.next hs) as coreInv_start).last hrun
  have hpc : (c.starts k).pc = .unlockErr f ∨ (c.starts k).pc = .dropGuard f ∨
      (c.starts k).pc = .err f := by
    cases hpc : (c.starts k).pc <;> simp_all [engineErr]
  constructor
  · intro hspawned
    refine (hinv.sessions k).failed ?_
    rcases hpc with hpc | hpc | hpc <;> simp [hpc, dropped, hspawned]
  · intro hnothing
    refine (hinv.sessions k).fresh ?_
    rcases hpc with hpc | hpc | hpc <;> simp [hpc, unspawned, hnothing]
  · intro hunlock j bs c' hrest htaken
    have hof : ofEngineStart f = true := by
      simpa [hunlock, engineErr] using herr
    have hlock := (hinv.slot.holder k).mpr (by simp [hunlock, inside])
    have honly : OnlyInside j k f c := by
      constructor
      · intro i hin
        obtain rfl : k = i := Option.some.inj (hlock.symm.trans ((hinv.slot.holder i).mpr hin))
        exact .inr ⟨rfl, hunlock⟩
      · intro i hi
        rw [hinv.vacant k (by simp [hunlock, insideEngineStart, hof])] at hi
        cases hi
    obtain ⟨hslot', honly'⟩ := guarded_last (I := fun c => SlotInv c ∧ OnlyInside j k f c) hrest
      htaken ⟨hinv.slot, honly⟩ (fun _ _ _ h htaken hs => ⟨h.1.next hs, h.2.next htaken hs⟩)
    refine ⟨honly'.empty hslot', ?_⟩
    intro hcheck ok s e hs
    have hnone := honly'.empty hslot' (by simp [hcheck, stored])
    simp only [Session.startStep, hcheck, Core.view, hnone, Option.isSome] at hs
    grind

/-- The embedded DNS server cannot bind its socket: Leaf #1, Arti and Leaf #2 have been spawned. -/
theorem failed_dns_bind_is_undone :
    ∃ c, run Core.step {} (.call 0 {} :: List.replicate 10 (.start 0 true) ++
        [.start 0 false, .start 0 true]) = some c ∧
      (c.starts 0).tasks.leaf2 = .spawned ∧ (c.starts 0).tasks.cancelled = true ∧
      Undone c 0 .dnsBind := by
  obtain ⟨c, hrun, hleaf, hcancelled, herr⟩ : ∃ c,
      run Core.step {} (.call 0 {} :: List.replicate 10 (.start 0 true) ++
        [.start 0 false, .start 0 true]) = some c ∧
      (c.starts 0).tasks.leaf2 = .spawned ∧ (c.starts 0).tasks.cancelled = true ∧
      engineErr (c.starts 0).pc = some .dnsBind := ⟨_, rfl, rfl, rfl, rfl⟩
  exact ⟨c, hrun, hleaf, hcancelled, failed_bring_up_is_undone hrun herr⟩

end FfVpn.Analysis.FailedBringUp
