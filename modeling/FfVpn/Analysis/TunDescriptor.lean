import FfVpn.Analysis.Descriptor
import FfVpn.Analysis.SessionEnd
import FfVpn.Model.ServiceProcess

/-!
# Who closes the TUN descriptor of a start that succeeds

With `Ok` the guard is disarmed and the service has detached its `ParcelFileDescriptor` long ago, so
the runtime of Leaf #2 is the only owner left, from the moment it creates its TUN inbound. Whether
it gets there is decided after `start` has returned: `leaf::start` runs on a thread of its own, and
where it fails before the inbound exists nobody is left to close the descriptor.
-/

set_option autoImplicit false

namespace FfVpn.Analysis.TunDescriptor

open FfVpn.Library.Transition FfVpn.Model.Util FfVpn.Model.Ipc FfVpn.Model.LeafConfig
  FfVpn.Model.Session FfVpn.Model.Engine FfVpn.Model.Service FfVpn.Model.ServiceProcess
  FfVpn.Analysis.SlotInvariant FfVpn.Analysis.Descriptor FfVpn.Analysis.SessionEnd

/-- How often a guard or a Leaf runtime has closed the descriptor of the session. -/
def nativeCloses (s : Session) : Nat := s.fdLog.countP (isClose s.args.fd)

/-- How often the descriptor of attempt `n` has been closed, by the core or by the service. -/
def closesOf (s : Process) (n : Nat) : Nat := nativeCloses (s.core.starts n) + s.closes n

/-- Inside `leaf::start`. -/
def inLeaf : Thread → Bool
  | .starting | .running | .stopping => true
  | _ => false

/-- `leaf::start` is over. -/
def pastLeaf : Thread → Bool
  | .returned | .cancelled | .done => true
  | _ => false

/-- What a step of an instance does with its descriptor. -/
inductive TunMove (l l' : Leaf) (a : LeafAct) (e : LeafEffect) : Prop
  | take (ha : a = .tunUp) (hthread : inLeaf l.thread = true) (hfree : l.tun = false)
    (heq : l' = { l with tun := true }) (he : e = .none)
  | finish (ha : a ≠ .tunUp) (hthread : inLeaf l.thread = true)
    (hthread' : pastLeaf l'.thread = true) (htun : l'.tun = false) (he : e = l.endEffect)
  | keep (ha : a ≠ .tunUp) (hin : inLeaf l.thread = true → inLeaf l'.thread = true)
    (hpast : pastLeaf l.thread = true → pastLeaf l'.thread = true) (htun : l'.tun = l.tun)
    (he : e ≠ .closeTun)

theorem leaf_step_tun {l l' : Leaf} {cancelled : Bool} {a : LeafAct} {e : LeafEffect}
    (h : l.step cancelled a = some (l', e)) : TunMove l l' a e := by
  cases a with
  | tunUp =>
    simp only [Leaf.step, Option.ite_none_right_eq_some, Option.some.injEq, Prod.mk.injEq] at h
    obtain ⟨⟨hthread, hfree⟩, rfl, rfl⟩ := h
    refine .take rfl ?_ hfree rfl rfl
    rcases hthread with hthread | hthread <;> rw [hthread] <;> rfl
  | threadReturn | threadPanic =>
    simp only [Leaf.step, Option.ite_none_right_eq_some, Option.some.injEq, Prod.mk.injEq] at h
    obtain ⟨hthread, rfl, rfl⟩ := h
    refine .finish (by simp) ?_ rfl rfl rfl
    rcases hthread with hthread | hthread | hthread <;> rw [hthread] <;> rfl
  | watch =>
    simp only [Leaf.step, Option.ite_none_right_eq_some, Option.some.injEq, Prod.mk.injEq] at h
    obtain ⟨-, rfl, rfl⟩ := h
    refine .keep (by simp) ?_ ?_ rfl (by simp) <;>
      cases l.thread <;> simp [Thread.shutdown, inLeaf, pastLeaf]
  | threadRun | register | threadCancel | threadAbort =>
    simp only [Leaf.step, Option.ite_none_right_eq_some, Option.some.injEq, Prod.mk.injEq] at h
    obtain ⟨hthread, rfl, rfl⟩ := h
    exact .keep (by simp) (by simp [hthread, inLeaf]) (by simp [hthread, pastLeaf]) rfl (by simp)
  | watchReap | join | wrapReap =>
    simp only [Leaf.step, Option.ite_none_right_eq_some, Option.some.injEq, Prod.mk.injEq] at h
    obtain ⟨-, rfl, rfl⟩ := h
    exact .keep (by simp) id id rfl (by simp)

/-- Where the descriptor of a session that has not failed is: Leaf #2 has not taken it, holds it, or
has closed it. `up` is whether Leaf #2 has created its TUN inbound. -/
inductive Held (up : Prop) (s : Session) : Prop
  | notTaken (hup : ¬ up) (htun : s.tasks.leaf2.tun = false) (hcloses : nativeCloses s = 0)
  | held (hup : up) (htun : s.tasks.leaf2.tun = true) (hthread : inLeaf s.tasks.leaf2.thread = true)
    (hcloses : nativeCloses s = 0)
  | closed (hup : up) (htun : s.tasks.leaf2.tun = false)
    (hthread : pastLeaf s.tasks.leaf2.thread = true) (hcloses : nativeCloses s = 1)

/-- The start has failed, and its guard has been dropped. -/
def failed : StartPc → Bool
  | .err _ => true
  | _ => false

/-- A start that has failed has had its descriptor closed. -/
theorem failed_of_early {pc : StartPc} (h : (owner pc).early = true) : failed pc = false := by
  cases pc with
  | err f => cases hf : beforeLeaf f <;> simp [owner, hf, Owner.early] at h
  | _ => rfl

/-- A Leaf #2 that was never spawned has taken nothing. -/
theorem Held.notTaken_of_absent {up : Prop} {s : Session} (h : Held up s)
    (hleaf : s.tasks.leaf2 = {}) : ¬ up := by
  cases h with
  | notTaken hup => exact hup
  | held _ htun => simp [hleaf] at htun
  | closed _ _ hthread => simp [hleaf, pastLeaf] at hthread

/-- Until it fails, a start leaves the descriptor alone but for handing it to Leaf #2. -/
theorem startStep_leaf2 {v : View} {s s' : Session} {ok : Bool} {e : CallEffect}
    (h : s.startStep v ok = some (s', e)) (hpc : failed s'.pc = false) :
    nativeCloses s' = nativeCloses s ∧ (s'.tasks.leaf2 = s.tasks.leaf2 ∨
      (s'.tasks.leaf2 = .spawned ∧ (owner s.pc).early = true)) := by
  cases startStep_cases h with
  | refuse | dropGuard => simp [failed] at hpc
  | leafSpawn hleaf =>
    exact ⟨by simp [nativeCloses, isClose], .inr ⟨rfl, by simp [hleaf, owner, Owner.early]⟩⟩
  | _ => exact ⟨rfl, .inl rfl⟩

/-- A step that moves neither the descriptor nor Leaf #2's hold of it. -/
theorem Held.keep {up : Prop} {s s' : Session} (h : Held up s)
    (hcloses : nativeCloses s' = nativeCloses s)
    (htun : s'.tasks.leaf2.tun = s.tasks.leaf2.tun)
    (hin : inLeaf s.tasks.leaf2.thread = true → inLeaf s'.tasks.leaf2.thread = true)
    (hpast : pastLeaf s.tasks.leaf2.thread = true → pastLeaf s'.tasks.leaf2.thread = true) :
    Held up s' := by
  cases h with
  | notTaken hup h1 h2 => exact .notTaken hup (htun.trans h1) (hcloses.trans h2)
  | held hup h1 h2 h3 => exact .held hup (htun.trans h1) (hin h2) (hcloses.trans h3)
  | closed hup h1 h2 h3 => exact .closed hup (htun.trans h1) (hpast h2) (hcloses.trans h3)

/-- The closes after a step of the tasks. -/
theorem nativeCloses_task (s : Session) (t : Tasks) (e : TaskEffect) :
    nativeCloses { s with tasks := t, fdLog := s.fdLog ++ taskEvents s.args.fd e } =
      nativeCloses s + if e = .closeTun then 1 else 0 := by
  cases e <;> simp [nativeCloses, taskEvents, isClose]

/-- A step of the tasks that is not one of Leaf #2 leaves it alone. -/
theorem task_step_other {status : Status} {token : String} {t t' : Tasks} {a : TaskAct}
    {e : TaskEffect} (h : t.step status token a = some (t', e)) (ha : ∀ b, a ≠ .leaf2 b) :
    t'.leaf2 = t.leaf2 ∧ e ≠ .closeTun := by
  cases taskMove_of_step h with
  | leaf2 => exact absurd rfl (ha _)
  | _ => exact ⟨rfl, by simp⟩

/-- A step of the tasks of a session that has not failed. -/
theorem Held.task {up : Prop} {s : Session} (h : Held up s) {status : Status} {token : String}
    {t : Tasks} {b : TaskAct} {e : TaskEffect}
    (ht : s.tasks.step status token b = some (t, e)) :
    Held (up ∨ b = .leaf2 .tunUp)
      { s with tasks := t, fdLog := s.fdLog ++ taskEvents s.args.fd e } := by
  by_cases hleaf : ∃ d, b = .leaf2 d
  · obtain ⟨d, rfl⟩ := hleaf
    cases taskMove_of_step ht
    rename_i l le hl
    have hcount := nativeCloses_task s
      { s.tasks with leaf2 := l, cancelled := s.tasks.cancelled || le == .cancel }
      (if le = .closeTun then .closeTun else .none)
    cases leaf_step_tun hl with
    | take ha hthread hfree heq he =>
      subst ha heq he
      simp only [reduceCtorEq, if_false, Nat.add_zero] at hcount
      cases h with
      | notTaken hup htun hcloses => exact .held (.inr rfl) rfl hthread (hcount.trans hcloses)
      | held hup htun => rw [hfree] at htun; cases htun
      | closed hup htun hpast =>
        cases hs : s.tasks.leaf2.thread <;> simp [hs, inLeaf, pastLeaf] at hthread hpast
    | finish ha hthread hthread' htun he =>
      subst he
      cases h with
      | notTaken hup hno hcloses =>
        refine .notTaken (by simp [hup, ha]) htun ?_
        simpa [Leaf.endEffect, hno, hcloses] using hcount
      | held hup hyes hin hcloses =>
        refine .closed (.inl hup) htun hthread' ?_
        simpa [Leaf.endEffect, hyes, hcloses] using hcount
      | closed hup hno hpast =>
        cases hs : s.tasks.leaf2.thread <;> simp [hs, inLeaf, pastLeaf] at hthread hpast
    | keep ha hin hpast htun he =>
      have hup : (up ∨ TaskAct.leaf2 d = .leaf2 .tunUp) = up := by simp [ha]
      rw [hup]
      refine h.keep ?_ htun hin hpast
      simpa [he] using hcount
  · have hb : ∀ d, b ≠ .leaf2 d := fun d hd => hleaf ⟨d, hd⟩
    obtain ⟨hsame, he⟩ := task_step_other ht hb
    have hup : (up ∨ b = .leaf2 .tunUp) = up := by simp [hb .tunUp]
    rw [hup]
    refine h.keep ?_ (by rw [hsame]) (by rw [hsame]; exact id) (by rw [hsame]; exact id)
    rw [nativeCloses_task, if_neg he, Nat.add_zero]

/-- Every step of the core keeps track of the descriptor of a session that has not failed. -/
theorem Held.next {up : Prop} {c c' : Core} {a : Act} {j : Nat}
    (h : failed (c.starts j).pc = false → Held up (c.starts j)) (hinv : FdInv (c.starts j))
    (hstep : c.step a = some c') (hfailed : failed (c'.starts j).pc = false) :
    Held (up ∨ a = .task j (.leaf2 .tunUp)) (c'.starts j) := by
  by_cases htask : ∃ b, a = .task j b
  · obtain ⟨b, rfl⟩ := htask
    obtain ⟨t, e, ht, rfl⟩ := Core.step_task hstep
    rw [Core.task_starts, if_pos rfl] at hfailed ⊢
    simpa using (h hfailed).task ht
  · have hup : (up ∨ a = .task j (.leaf2 .tunUp)) = up := by
      simp only [eq_iff_iff, or_iff_left_iff_imp]
      exact fun ha => absurd ⟨_, ha⟩ htask
    rw [hup]
    have hsession := session_next hstep j
    generalize c'.starts j = s at hsession hfailed ⊢
    -- a start or a call finds Leaf #2 absent, where it is still the start's to spawn it
    have hearly : (owner (c.starts j).pc).early = true → ¬ up ∧ nativeCloses (c.starts j) = 0 := by
      intro howner
      obtain ⟨hlog, hleaf⟩ := hinv.early howner
      exact ⟨(h (failed_of_early howner)).notTaken_of_absent hleaf, by simp [nativeCloses, hlog]⟩
    cases hsession with
    | same => exact h hfailed
    | @called args _ hidle =>
      have hnone := hearly (by simp [hidle, owner, Owner.early])
      cases hentry : args.entry <;>
        exact .notTaken hnone.1 (by simp [Session.called, hentry])
          (by simp [Session.called, hentry, nativeCloses])
    | start _ hs =>
      obtain ⟨hcloses, hsame | ⟨hspawned, howner⟩⟩ := startStep_leaf2 hs hfailed
      · have hnot : failed (c.starts j).pc = false := by
          cases hpc : (c.starts j).pc <;> simp [hpc, failed, Session.startStep] at hs ⊢
        refine (h hnot).keep hcloses ?_ ?_ ?_ <;> rw [hsame]
        · exact id
        · exact id
      · have hnone := hearly howner
        exact .notTaken hnone.1 (by rw [hspawned]; rfl) (hcloses.trans hnone.2)
    | teardown hf =>
      rw [hf.pc] at hfailed
      refine (h hfailed).keep ?_ ?_ ?_ ?_
      all_goals cases hf with
      | abort t => cases t <;> simp [Tasks.abort, nativeCloses]
      | _ => simp [Session.cancel, Session.releasePt, Tasks.abortPt, nativeCloses]
    | task ha => exact absurd ⟨_, ha⟩ htask

/-- What the service knows of the attempts: it closes a descriptor only in the `try` block, before
the core has seen it, and the interface it keeps no longer owns one. -/
structure AttemptInv (s : Process) : Prop where
  fresh : ∀ n, s.fds n = none → (s.core.starts n).pc = .idle ∧ s.closes n = 0
  trying : ∀ n, s.main = .tryBlock n →
    s.fds n ≠ none ∧ (s.core.starts n).pc = .idle ∧ s.closes n = 0
  starting : ∀ n, s.main = .starting n → s.fds n ≠ none
  closed : ∀ n, s.closes n ≠ 0 → (s.core.starts n).pc = .idle
  detached : ∀ p, s.tun = some p → p.owns = false

theorem attemptInv_start : AttemptInv {} := by
  constructor <;> simp

/-- Where a start is changes with its own steps only. -/
theorem sessionStep_pc {c : Core} {a : Act} {j : Nat} {s : Session} (h : SessionStep c a j s)
    (hcall : ∀ args, a ≠ .call j args) (hstart : ∀ ok, a ≠ .start j ok) :
    s.pc = (c.starts j).pc := by
  cases h with
  | same | task => rfl
  | called ha => exact absurd ha (hcall _)
  | start ha => exact absurd ha (hstart _)
  | teardown hf => exact hf.pc _

/-- A detached interface closes nothing. -/
theorem closeTun_of_detached {s : Process} (h : ∀ p, s.tun = some p → p.owns = false) :
    s.closeTun = { s with tun := none } := by
  unfold Process.closeTun
  cases htun : s.tun with
  | none => simp [← htun]
  | some p => simp [Process.close, h p htun]

theorem AttemptInv.next {s s' : Process} {a : ProcessAct} (h : AttemptInv s)
    (hstep : s.step a = some s') : AttemptInv s' := by
  have hpcs : ∀ {c : Core} {b : Act}, s.core.step b = some c →
      ∀ j, (∀ args, b ≠ .call j args) → (∀ ok, b ≠ .start j ok) →
        (c.starts j).pc = (s.core.starts j).pc :=
    fun hc j => sessionStep_pc (session_next hc j)
  cases Process.step_cases hstep with
  | noAttempt => exact h
  | @attempt n extras fd hmain hfds hpc =>
    refine ⟨?_, ?_, by simp, h.closed, by simp [Pfd.detach]⟩
    · intro j hj
      have hjn : j ≠ n := by
        rintro rfl
        simp at hj
      exact h.fresh j (by simpa [hjn] using hj)
    · intro j hj
      obtain rfl : n = j := MainPc.tryBlock.inj hj
      exact ⟨by simp, hpc, (h.fresh n hfds).2⟩
  | @throwBefore n hmain =>
    obtain ⟨hfds, hpc, hcloses⟩ := h.trying n hmain
    have hafter :
        s.closeRawFd n = { s with closes := Function.update s.closes n (s.closes n + 1) } :=
      rfl
    rw [hafter]
    refine ⟨?_, by simp, by simp, ?_, h.detached⟩
    · intro j hj
      have hjn : j ≠ n := by
        rintro rfl
        exact hfds hj
      simpa [hjn] using h.fresh j hj
    · intro j hj
      by_cases hjn : j = n
      · rwa [hjn]
      · exact h.closed j (by simpa [hjn] using hj)
  | @callStart n args c hmain hfd _ hc =>
    obtain ⟨hfds, hpc, hcloses⟩ := h.trying n hmain
    have hother : ∀ j, j ≠ n → (c.starts j).pc = (s.core.starts j).pc := fun j hjn =>
      hpcs hc j (by simp [Ne.symm hjn]) (by simp)
    refine ⟨?_, by simp, ?_, ?_, h.detached⟩
    · intro j hj
      have hjn : j ≠ n := by
        rintro rfl
        exact hfds hj
      exact ⟨(hother j hjn).trans (h.fresh j hj).1, (h.fresh j hj).2⟩
    · intro j hj
      obtain rfl : n = j := MainPc.starting.inj hj
      exact hfds
    · intro j hj
      have hjn : j ≠ n := by
        rintro rfl
        exact hj hcloses
      exact (hother j hjn).trans (h.closed j hj)
  | @start n ok c hmain hc =>
    have hother : ∀ j, j ≠ n → (c.starts j).pc = (s.core.starts j).pc := fun j hjn =>
      hpcs hc j (by simp) (by simp [Ne.symm hjn])
    refine ⟨?_, by simp, ?_, ?_, h.detached⟩
    · intro j hj
      have hjn : j ≠ n := by
        rintro rfl
        exact h.starting j hmain hj
      exact ⟨(hother j hjn).trans (h.fresh j hj).1, (h.fresh j hj).2⟩
    · intro j hj
      obtain rfl : n = j := MainPc.starting.inj hj
      exact h.starting n hmain
    · intro j hj
      have hidle := h.closed j hj
      have hjn : j ≠ n := by
        rintro rfl
        obtain ⟨s'', e, hs, -⟩ := Core.step_start hc
        simp [Session.startStep, hidle] at hs
      exact (hother j hjn).trans hidle
  | startOk hmain | startErr hmain | stopIntent hmain | destroy hmain =>
    exact ⟨h.fresh, by simp, by simp, h.closed, h.detached⟩
  | callStop hmain hc | stop hmain hc =>
    have hall := fun j => hpcs hc j (by simp) (by simp)
    refine ⟨?_, by simp, by simp, ?_, h.detached⟩
    · exact fun j hj => ⟨(hall j).trans (h.fresh j hj).1, (h.fresh j hj).2⟩
    · exact fun j hj => (hall j).trans (h.closed j hj)
  | stopReturn hmain =>
    rw [closeTun_of_detached h.detached]
    exact ⟨h.fresh, by simp, by simp, h.closed, by simp⟩
  | task hc =>
    have hall := fun j => hpcs hc j (by simp) (by simp)
    refine ⟨?_, ?_, h.starting, ?_, h.detached⟩
    · exact fun j hj => ⟨(hall j).trans (h.fresh j hj).1, (h.fresh j hj).2⟩
    · intro j hj
      obtain ⟨hfds, hpc, hcloses⟩ := h.trying j hj
      exact ⟨hfds, (hall j).trans hpc, hcloses⟩
    · exact fun j hj => (hall j).trans (h.closed j hj)

theorem attemptInv_reachable {s : Process} (h : Reachable Process.step {} s) : AttemptInv s :=
  h.invariant attemptInv_start fun _ _ _ hI hs => hI.next hs

theorem fdInv_reachable {s : Process} (h : Reachable Process.step {} s) (j : Nat) :
    FdInv (s.core.starts j) :=
  (process_refines_core.reachable h).invariant (I := fun c => ∀ j, FdInv (c.starts j)) fdInv_start
    (fun _ _ _ hI hs => fdInv_next hI hs) j

/-- Along a run of the app, Leaf #2 of a session that has not failed has taken the descriptor
exactly where the run has created its TUN inbound. -/
theorem held_of_run {as : List ProcessAct} {s : Process}
    (hrun : run Process.step {} as = some s) {n : Nat} (hpc : failed (s.core.starts n).pc = false) :
    Held (.task n (.leaf2 .tunUp) ∈ as) (s.core.starts n) := by
  refine run_history (P := fun as s => failed (s.core.starts n).pc = false →
    Held (.task n (.leaf2 .tunUp) ∈ as) (s.core.starts n)) ?_ ?_ hrun hpc
  · intro _
    exact .notTaken (by simp) rfl rfl
  · intro as s a s' hrun hheld hstep hpc'
    simp only [List.mem_append, List.mem_singleton]
    rcases Process.core_next hstep with ⟨hsame, hlabel⟩ | ⟨b, hb, hlabel⟩
    · rw [hsame] at hpc' ⊢
      have hup : (ProcessAct.task n (.leaf2 .tunUp) ∈ as ∨ ProcessAct.task n (.leaf2 .tunUp) = a) =
          (ProcessAct.task n (.leaf2 .tunUp) ∈ as) := by
        simp [Ne.symm (hlabel n (.leaf2 .tunUp))]
      rw [hup]
      exact hheld hpc'
    · have hheld' := Held.next hheld (fdInv_reachable ⟨as, hrun⟩ n) hb hpc'
      rwa [hlabel, eq_comm (a := a)] at hheld'

/-- **Who closes the descriptor of a start that succeeds?** In every run of the app, once `start`
has returned `Ok` and all tasks and threads of its session have ended, with or without `stopTunnel`,
the descriptor has been closed exactly once if and only if Leaf #2 got as far as creating its TUN
inbound. -/
theorem started_closes_once_iff {as : List ProcessAct} {s : Process}
    (hrun : run Process.step {} as = some s) {n : Nat} (hok : (s.core.starts n).pc = .ok)
    (hended : AllEnded (s.core.starts n).tasks) :
    closesOf s n = 1 ↔ .task n (.leaf2 .tunUp) ∈ as := by
  have hservice : s.closes n = 0 := by
    by_contra hne
    have := (attemptInv_reachable ⟨as, hrun⟩).closed n hne
    rw [hok] at this
    cases this
  have hthread : (s.core.starts n).tasks.leaf2.thread.active = false := hended.untracked.leaf2.2
  rw [closesOf, hservice, Nat.add_zero]
  cases held_of_run hrun (n := n) (by rw [hok]; rfl) with
  | notTaken hup _ hcloses => simp [hup, hcloses]
  | held _ _ hin =>
    cases hs : (s.core.starts n).tasks.leaf2.thread <;>
      simp [hs, inLeaf, Thread.active] at hin hthread
  | closed hup _ _ hcloses => simp [hup, hcloses]

/-- An intent with a config and nothing else. -/
def configOnly : StartExtras where
  config := some "\x7b\x7d"
  exitCountry := none
  allowed := none
  disallowed := none

/-- The service brings session 0 up on descriptor 7. -/
def bringUp : List ProcessAct :=
  [ProcessAct.startIntent 0 configOnly (some 7), .callStart { entry := .jni, fd := 7 }] ++
    List.replicate 20 (ProcessAct.start true) ++ [ProcessAct.startReturn]

/-- Leaf #1 is shut down. -/
def leaf1Down : List LeafAct :=
  [.threadRun, .register, .watch, .threadReturn, .threadCancel, .threadAbort, .join]

/-- The service runs `stopTunnel` on session 0, and its tasks all end; `leaf2` is what Leaf #2
does. -/
def stopTunnelRun (leaf2 : List LeafAct) : List ProcessAct :=
  [ProcessAct.stopIntent, .callStop 0] ++ List.replicate 3 (ProcessAct.stop false) ++
    (leaf1Down.map fun a => ProcessAct.task 0 (.leaf1 a)) ++
    (leaf2.map fun a => ProcessAct.task 0 (.leaf2 a)) ++
    [ProcessAct.task 0 .artiReturn, .task 0 .dnsReturn, .task 0 .ipcReturn] ++
    List.replicate 10 (ProcessAct.stop false) ++ [ProcessAct.stopReturn]

/-- Leaf #2 takes the descriptor, and is shut down. -/
def leafUp : List LeafAct :=
  [.threadRun, .tunUp, .register, .watch, .threadReturn, .threadCancel, .threadAbort, .join]

/-- `leaf::start` fails before its TUN inbound exists. -/
def leafFails : List LeafAct :=
  [.threadRun, .threadReturn, .threadCancel, .threadAbort, .watchReap, .join]

/-- The general statement at a session that Leaf #2 has served. -/
theorem served_session_closes_once :
    ∃ s, run Process.step {} (bringUp ++ stopTunnelRun leafUp) = some s ∧ s.main = .idle ∧
      s.tun = none ∧ (closesOf s 0 = 1 ↔
        .task 0 (.leaf2 .tunUp) ∈ bringUp ++ stopTunnelRun leafUp) := by
  obtain ⟨s, hrun, hmain, htun, hok, hpt, hhandles, hended⟩ : ∃ s,
      run Process.step {} (bringUp ++ stopTunnelRun leafUp) = some s ∧ s.main = .idle ∧
      s.tun = none ∧ (s.core.starts 0).pc = .ok ∧
      (s.core.starts 0).tasks.leaf1.wrapper.active = false ∧
      (∀ h, ((s.core.starts 0).tasks.tracked h).active = false) ∧
      UntrackedEnded (s.core.starts 0).tasks :=
    ⟨_, rfl, rfl, rfl, rfl, rfl, fun h => by cases h <;> rfl,
      ⟨rfl, rfl⟩, ⟨rfl, rfl⟩, fun _ => rfl, fun _ => rfl, fun _ => rfl⟩
  exact ⟨s, hrun, hmain, htun, started_closes_once_iff hrun hok
    ⟨⟨hpt, fun h _ => hhandles h⟩, hended⟩⟩

/-- Leaf #2 of a session that is up fails before it has taken the descriptor; then the user
disconnects. Everything has ended, and nobody has closed the descriptor. -/
theorem leaf_failure_leaks_descriptor :
    ∃ s, run Process.step {} (bringUp ++ stopTunnelRun leafFails) = some s ∧ s.main = .idle ∧
      s.tun = none ∧ (s.core.starts 0).pc = .ok ∧ (s.core.starts 0).args.fd = 7 ∧
      AllEnded (s.core.starts 0).tasks ∧ closesOf s 0 = 0 := by
  obtain ⟨s, hrun, hmain, htun, hok, hfd, hpt, hhandles, hended, hcloses⟩ : ∃ s,
      run Process.step {} (bringUp ++ stopTunnelRun leafFails) = some s ∧ s.main = .idle ∧
      s.tun = none ∧ (s.core.starts 0).pc = .ok ∧ (s.core.starts 0).args.fd = 7 ∧
      (s.core.starts 0).tasks.leaf1.wrapper.active = false ∧
      (∀ h, ((s.core.starts 0).tasks.tracked h).active = false) ∧
      UntrackedEnded (s.core.starts 0).tasks ∧ closesOf s 0 = 0 :=
    ⟨_, rfl, rfl, rfl, rfl, rfl, rfl, fun h => by cases h <;> rfl,
      ⟨⟨rfl, rfl⟩, ⟨rfl, rfl⟩, fun _ => rfl, fun _ => rfl, fun _ => rfl⟩, rfl⟩
  exact ⟨s, hrun, hmain, htun, hok, hfd, ⟨⟨hpt, fun h _ => hhandles h⟩, hended⟩, hcloses⟩

end FfVpn.Analysis.TunDescriptor
