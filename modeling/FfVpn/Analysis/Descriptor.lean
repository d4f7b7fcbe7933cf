import FfVpn.Analysis.SlotInvariant

/-!
# Who closes the TUN descriptor of a start that fails

The descriptor goes from the entry point's guard to `start`'s, and with the configuration of Leaf #2
into a runtime that closes it when it ends. The guard is disarmed much later, after the DNS proxy
and the IPC socket are up. `FdInv` follows the descriptor through the places a start can be in: up
to the spawn of Leaf #2 the guard is the only owner and the log is empty, and from there to the
disarming the descriptor has two owners.
-/

set_option autoImplicit false

namespace FfVpn.Analysis.Descriptor

open FfVpn.Library.Transition FfVpn.Model.Util FfVpn.Model.Ipc FfVpn.Model.LeafConfig
  FfVpn.Model.Session
  FfVpn.Model.Engine FfVpn.Analysis.SlotInvariant

/-- The start fails before Leaf #2 is spawned with the descriptor. -/
def beforeLeaf : FailPoint → Bool
  | .dnsBind | .dohClient | .ipcBind | .ipcPerms => false
  | _ => true

/-- The event is a `close` of the descriptor. -/
def isClose (fd : Int) : FdEvent → Bool
  | .closedByGuard fd' | .closedByLeaf fd' => fd == fd'
  | .leafSpawned _ => false

/-- The descriptor of the call has been closed exactly once so far. -/
def ClosedOnce (s : Session) : Prop := s.fdLog.countP (isClose s.args.fd) = 1

/-- A guard has closed the descriptor after Leaf #2 was spawned with it. -/
def GuardAfterLeaf (s : Session) : Prop :=
  ∃ pre mid post, s.fdLog =
    pre ++ .leafSpawned s.args.fd :: mid ++ .closedByGuard s.args.fd :: post

/-- Who owns the descriptor. -/
inductive Owner
  | platform
  | entryPoint
  | guard
  | guardAndLeaf
  | leaf
  /-- The start has failed with the guard as the only owner, or with two owners. -/
  | closed
  | closedUnderLeaf
  deriving DecidableEq

/-- The owner, by where the start is. -/
def owner : StartPc → Owner
  | .idle => .platform
  | .parse => .entryPoint
  | .dnsBind | .dohClient | .ipcStale | .ipcBind | .ipcPerms | .ipcSpawn | .store | .disarm =>
    .guardAndLeaf
  | .unlock | .ok => .leaf
  | .dropPt f | .unlockErr f | .dropGuard f => if beforeLeaf f then .guard else .guardAndLeaf
  | .err f => if beforeLeaf f then .closed else .closedUnderLeaf
  | _ => .guard

/-- The descriptor has not been given to a Leaf runtime, nor closed. -/
def Owner.early : Owner → Bool
  | .platform | .entryPoint | .guard => true
  | _ => false

/-- What has happened to the descriptor, by its owner. -/
structure FdInv (s : Session) : Prop where
  early : (owner s.pc).early = true → s.fdLog = [] ∧ s.tasks.leaf2 = {}
  entry : owner s.pc = .entryPoint → s.entryGuard = FdGuard.new s.args.fd
  armed : owner s.pc = .guard ∨ owner s.pc = .guardAndLeaf →
    s.startGuard = FdGuard.new s.args.fd
  spawned : owner s.pc = .guardAndLeaf → .leafSpawned s.args.fd ∈ s.fdLog
  closed : owner s.pc = .closed →
    s.fdLog = guardEvents (FdGuard.new s.args.fd) ∧ s.tasks.leaf2 = {}
  late : owner s.pc = .closedUnderLeaf → 0 ≤ s.args.fd → GuardAfterLeaf s

/-- A guard on a real descriptor closes it, once. -/
theorem guardEvents_new {fd : Int} (h : 0 ≤ fd) :
    guardEvents (FdGuard.new fd) = [.closedByGuard fd] := by
  simp [guardEvents, FdGuard.drop_new h]

/-- A guard dropped with the runtime already spawned is the close that comes too late. -/
theorem guardAfterLeaf_drop {s : Session} (hmem : .leafSpawned s.args.fd ∈ s.fdLog)
    (hfd : 0 ≤ s.args.fd) (s' : Session) (hargs : s'.args = s.args)
    (hlog : s'.fdLog = s.fdLog ++ guardEvents (FdGuard.new s.args.fd)) : GuardAfterLeaf s' := by
  obtain ⟨pre, mid, hsplit⟩ := List.append_of_mem hmem
  refine ⟨pre, mid, [], ?_⟩
  rw [hlog, hargs, guardEvents_new hfd, hsplit]

/-- What a line of a start does with the descriptor. Most lines leave it where it is. -/
inductive FdMove (s s' : Session) : Prop
  | keep (hpc : owner s'.pc = owner s.pc) (hlog : s'.fdLog = s.fdLog)
    (hentry : s'.entryGuard = s.entryGuard) (hguard : s'.startGuard = s.startGuard)
    (hleaf : s'.tasks.leaf2 = s.tasks.leaf2)
  | handOver (hpc : owner s.pc = .entryPoint) (hpc' : owner s'.pc = .guard)
    (hlog : s'.fdLog = s.fdLog) (hguard : s'.startGuard = FdGuard.new s.args.fd)
    (hleaf : s'.tasks.leaf2 = s.tasks.leaf2)
  | refuse (hpc : owner s.pc = .entryPoint) (hpc' : owner s'.pc = .closed)
    (hlog : s'.fdLog = s.fdLog ++ guardEvents s.entryGuard)
    (hleaf : s'.tasks.leaf2 = s.tasks.leaf2)
  | spawn (hpc : owner s.pc = .guard) (hpc' : owner s'.pc = .guardAndLeaf)
    (hlog : s'.fdLog = s.fdLog ++ [.leafSpawned s.args.fd])
    (hguard : s'.startGuard = s.startGuard)
  | disarm (hpc' : owner s'.pc = .leaf)
  | drop (hpc : owner s.pc = .guard) (hpc' : owner s'.pc = .closed)
    (hlog : s'.fdLog = s.fdLog ++ guardEvents s.startGuard)
    (hleaf : s'.tasks.leaf2 = s.tasks.leaf2)
  | dropLate (hpc : owner s.pc = .guardAndLeaf) (hpc' : owner s'.pc = .closedUnderLeaf)
    (hlog : s'.fdLog = s.fdLog ++ guardEvents s.startGuard)

/-- Every line of a start is one of these moves. -/
theorem startStep_fd {v : View} {s s' : Session} {ok : Bool} {e : CallEffect}
    (h : s.startStep v ok = some (s', e)) : FdMove s s' := by
  cases startStep_cases h with
  | parse hpc => exact .handOver (by simp [hpc, owner]) rfl rfl rfl rfl
  | refuse hpc => exact .refuse (by simp [hpc, owner]) rfl rfl rfl
  | leafSpawn hpc => exact .spawn (by simp [hpc, owner]) rfl rfl rfl
  | disarm => exact .disarm rfl
  | @dropGuard f hpc =>
    cases hf : beforeLeaf f
    · exact .dropLate (by simp [hpc, owner, hf]) (by simp [owner, hf]) rfl
    · exact .drop (by simp [hpc, owner, hf]) (by simp [owner, hf]) rfl rfl
  | goOn _ hline | fail _ hline | failUp _ hline =>
    exact .keep (by grind [owner, beforeLeaf]) rfl rfl rfl rfl
  | _ => exact .keep (by simp_all [owner, beforeLeaf, Session.releasePt]) rfl rfl rfl rfl

theorem FdInv.start {s s' : Session} (h : FdInv s) (hargs : s'.args = s.args)
    (hmove : FdMove s s') : FdInv s' := by
  obtain ⟨hearly, hentry, harmed, hspawned, hclosed, hlate⟩ := h
  cases hmove with
  | keep hpc hlog hen hguard hleaf =>
    constructor <;> simp only [hpc, hargs, hlog, hen, hguard, hleaf, GuardAfterLeaf] <;>
      assumption
  | handOver hpc hpc' hlog hguard hleaf =>
    have := hearly (by simp [hpc, Owner.early])
    constructor <;> simp_all [Owner.early]
  | refuse hpc hpc' hlog hleaf =>
    have hnone := hearly (by simp [hpc, Owner.early])
    have hguard := hentry hpc
    constructor <;> simp_all [Owner.early]
  | spawn hpc hpc' hlog hguard =>
    have harm := harmed (.inl hpc)
    constructor <;> simp_all [Owner.early]
  | disarm hpc' =>
    constructor <;> simp [hpc', Owner.early]
  | drop hpc hpc' hlog hleaf =>
    have hnone := hearly (by simp [hpc, Owner.early])
    have harm := harmed (.inl hpc)
    constructor <;> simp_all [Owner.early]
  | dropLate hpc hpc' hlog =>
    have hmem := hspawned hpc
    have hguard := harmed (.inr hpc)
    rw [hguard] at hlog
    have hafter : 0 ≤ s.args.fd → GuardAfterLeaf s' :=
      fun hfd => guardAfterLeaf_drop hmem hfd s' hargs hlog
    constructor <;> simp [hpc', Owner.early, hargs]
    exact hafter

theorem leaf_step_absent (cancelled : Bool) (a : LeafAct) : Leaf.step cancelled {} a = none := by
  cases a <;> simp [Leaf.step, Task.active]

/-- A step of the tasks leaves a Leaf #2 that was never spawned alone, and does not close the
descriptor in its name. -/
theorem task_step_leaf2 {status : Status} {token : String} {t t' : Tasks} {a : TaskAct}
    {e : TaskEffect} (h : t.step status token a = some (t', e)) (hleaf : t.leaf2 = {}) :
    t'.leaf2 = {} ∧ e ≠ .closeTun := by
  cases taskMove_of_step h with
  | leaf2 hstep => simp [hleaf, leaf_step_absent] at hstep
  | _ => exact ⟨hleaf, by simp⟩

/-- What is not a line of the start keeps the invariant where it only adds to the log, and adds
nothing before Leaf #2 is there. -/
theorem FdInv.grow {s s' : Session} (h : FdInv s) (hpc : s'.pc = s.pc) (hargs : s'.args = s.args)
    (hentry : s'.entryGuard = s.entryGuard) (hguard : s'.startGuard = s.startGuard)
    {more : List FdEvent} (hlog : s'.fdLog = s.fdLog ++ more)
    (hleaf : s.tasks.leaf2 = {} → s'.tasks.leaf2 = {} ∧ more = []) : FdInv s' := by
  obtain ⟨hearly, hentryArmed, harmed, hspawned, hclosed, hlate⟩ := h
  constructor
  · intro howner
    obtain ⟨hempty, hnone⟩ := hearly (hpc ▸ howner)
    obtain ⟨hnone', rfl⟩ := hleaf hnone
    exact ⟨by simp [hlog, hempty], hnone'⟩
  · intro howner
    rw [hentry, hargs]
    exact hentryArmed (hpc ▸ howner)
  · intro howner
    rw [hguard, hargs]
    exact harmed (hpc ▸ howner)
  · intro howner
    rw [hlog, hargs]
    exact List.mem_append_left _ (hspawned (hpc ▸ howner))
  · intro howner
    obtain ⟨honce, hnone⟩ := hclosed (hpc ▸ howner)
    obtain ⟨hnone', rfl⟩ := hleaf hnone
    exact ⟨by simp [hlog, honce, hargs], hnone'⟩
  · intro howner hfd
    obtain ⟨pre, mid, post, hsplit⟩ := hlate (hpc ▸ howner) (hargs ▸ hfd)
    exact ⟨pre, mid, post ++ more, by simp [hlog, hsplit, hargs]⟩

theorem FdInv.teardown {s : Session} (h : FdInv s) {f : Session → Session} (hf : Teardown f) :
    FdInv (f s) := by
  have hleaf : s.tasks.leaf2 = {} → (f s).tasks.leaf2 = {} := by
    intro hnone
    cases hf with
    | keep | cancel | releasePt | clear => exact hnone
    | abort t => cases t <;> simp [Tasks.abort, hnone, Task.abort]
  have hsame : (f s).args = s.args ∧ (f s).entryGuard = s.entryGuard ∧
      (f s).startGuard = s.startGuard ∧ (f s).fdLog = s.fdLog ++ [] := by
    cases hf <;> simp [Session.cancel]
  obtain ⟨hargs, hentry, hguard, hlog⟩ := hsame
  exact h.grow (hf.pc s) hargs hentry hguard hlog (fun hnone => ⟨hleaf hnone, rfl⟩)

theorem fdInv_next {c c' : Core} {a : Act} (h : ∀ j, FdInv (c.starts j))
    (hstep : c.step a = some c') : ∀ j, FdInv (c'.starts j) := by
  intro j
  cases a with
  | call k args =>
    obtain ⟨-, rfl⟩ := Core.step_call hstep
    by_cases hj : j = k
    · subst hj
      simp only [Core.modify_self]
      cases hentry : args.entry <;> simp only [Session.called, hentry] <;>
        constructor <;> simp [owner, Owner.early]
    · simpa [hj] using h j
  | start k ok =>
    obtain ⟨s, e, hs, rfl⟩ := Core.step_start hstep
    have hargs := (startStep_args hs).1
    have hmove := startStep_fd hs
    by_cases hj : j = k
    · subst hj
      simpa using (h j).start hargs hmove
    · simpa [hj] using h j
  | callStop n =>
    obtain ⟨-, rfl⟩ := Core.step_callStop hstep
    exact h j
  | stop n timedOut =>
    rcases stopStep_pc hstep with hpc | hpc
    · obtain ⟨-, ⟨k, -, rfl⟩ | ⟨-, rfl⟩⟩ := stopStep_take hpc hstep
      · exact h j
      · exact h j
    · obtain ⟨k, f, pc, -, -, hf, rfl⟩ := stopStep_tear hpc hstep
      by_cases hj : j = k
      · subst hj
        simpa using (h j).teardown hf
      · simpa [hj] using h j
  | handleStop k =>
    obtain ⟨-, rfl⟩ := Core.step_handleStop hstep
    by_cases hj : j = k
    · subst hj
      simpa using (h j).teardown .cancel
    · simpa [hj] using h j
  | task k a =>
    obtain ⟨t, e, ht, rfl⟩ := Core.step_task hstep
    rw [Core.task_starts]
    by_cases hj : j = k
    · subst hj
      rw [if_pos rfl]
      refine (h j).grow rfl rfl rfl rfl rfl ?_
      intro hnone
      obtain ⟨hnone', heffect⟩ := task_step_leaf2 ht hnone
      refine ⟨hnone', ?_⟩
      cases e with
      | closeTun => exact absurd rfl heffect
      | none | removeSocket => rfl
    · simpa [hj] using h j

/-- A call that has made nothing of its descriptor yet. -/
theorem fdInv_start (j : Nat) : FdInv ((Core.starts {}) j) := by
  constructor <;> simp [owner, Owner.early]

/-- **Who closes the descriptor of a failed start?** In every state of every run, a call that was
given a descriptor and has failed has had it closed exactly once, and never by a guard after Leaf #2
was spawned with it, exactly where it failed before Leaf #2 was spawned. -/
theorem failed_start_closes_once_iff {c : Core} (h : Reachable Core.step {} c) {k : Nat}
    {f : FailPoint} (hpc : (c.starts k).pc = .err f) (hfd : 0 ≤ (c.starts k).args.fd) :
    (ClosedOnce (c.starts k) ∧ ¬ GuardAfterLeaf (c.starts k)) ↔ beforeLeaf f = true := by
  have hinv : FdInv (c.starts k) :=
    h.invariant (I := fun c => ∀ j, FdInv (c.starts j)) fdInv_start
      (fun c a c' hI hs => fdInv_next hI hs) k
  cases hf : beforeLeaf f with
  | true =>
    have hlog : (c.starts k).fdLog = [.closedByGuard (c.starts k).args.fd] := by
      rw [(hinv.closed (by simp [hpc, owner, hf])).1, guardEvents_new hfd]
    have honce : ClosedOnce (c.starts k) := by
      simp [ClosedOnce, hlog, isClose]
    have hnot : ¬ GuardAfterLeaf (c.starts k) := by
      rintro ⟨pre, mid, post, hsplit⟩
      have hlen := congrArg List.length (hlog.symm.trans hsplit)
      simp only [List.length_cons, List.length_append, List.length_nil] at hlen
      omega
    simp [honce, hnot]
  | false =>
    have hlate := hinv.late (by simp [hpc, owner, hf]) hfd
    simp [hlate]

/-- A successful start, and a second one through JNI that finds the slot occupied. -/
def refusedStart : List Act :=
  [Act.call 0 { fd := 7 }] ++ List.replicate 19 (Act.start 0 true) ++
    [Act.call 1 { entry := .jni, fd := 8 }] ++ List.replicate 5 (Act.start 1 true)

theorem refused_start_closes_once :
    ∃ c, run Core.step {} refusedStart = some c ∧
      ClosedOnce (c.starts 1) ∧ ¬ GuardAfterLeaf (c.starts 1) := by
  obtain ⟨c, hrun, hpc, hfd⟩ : ∃ c, run Core.step {} refusedStart = some c ∧
      (c.starts 1).pc = .err .alreadyRunning ∧ (c.starts 1).args.fd = 8 :=
    ⟨_, rfl, rfl, rfl⟩
  refine ⟨c, hrun, ?_⟩
  exact (failed_start_closes_once_iff ⟨_, hrun⟩ hpc (by omega)).mpr rfl

/-- The lines of a start that fails at its IPC socket: Leaf #2 is up and owns the descriptor, the
guard closes it, and Leaf closes it again when its runtime ends. -/
def ipcBindFails : List Act :=
  [Act.call 0 { fd := 7 }] ++ List.replicate 13 (Act.start 0 true) ++
    [Act.task 0 (.leaf2 .threadRun), .task 0 (.leaf2 .tunUp), .task 0 (.leaf2 .register)] ++
    List.replicate 4 (Act.start 0 false) ++
    [Act.task 0 (.leaf2 .watch), .task 0 (.leaf2 .threadReturn)]

/-- The same descriptor closed twice, the first time under a running Leaf #2. -/
theorem ipc_bind_failure_closes_twice :
    ∃ c, run Core.step {} ipcBindFails = some c ∧ (c.starts 0).pc = .err .ipcBind ∧
      (c.starts 0).fdLog = [.leafSpawned 7, .closedByGuard 7, .closedByLeaf 7] ∧
      ¬ ClosedOnce (c.starts 0) ∧ GuardAfterLeaf (c.starts 0) := by
  obtain ⟨c, hrun, hpc, hargs, hlog⟩ : ∃ c, run Core.step {} ipcBindFails = some c ∧
      (c.starts 0).pc = .err .ipcBind ∧ (c.starts 0).args.fd = 7 ∧
      (c.starts 0).fdLog = [.leafSpawned 7, .closedByGuard 7, .closedByLeaf 7] :=
    ⟨_, rfl, rfl, rfl, rfl⟩
  refine ⟨c, hrun, hpc, hlog, ?_, ?_⟩
  · simp [ClosedOnce, hlog, hargs, isClose]
  · exact ⟨[], [], [.closedByLeaf 7], by simp [hlog, hargs]⟩

end FfVpn.Analysis.Descriptor
