import FfVpn.Analysis.WindDown

/-!
# What is left of a session when `stop()` returns

`SocketInv` follows the file of the IPC socket: it is there as long as the loop that removes it.
`StopInv` puts it together with the tasks: a session that winds down, and whose IPC loop gets to its
cancelled branch before the abort takes it, leaves nothing behind.
-/

set_option autoImplicit false

namespace FfVpn.Analysis.Teardown

open FfVpn.Library.Transition FfVpn.Model.Ipc FfVpn.Model.LeafConfig FfVpn.Model.Session
  FfVpn.Model.Engine FfVpn.Analysis.SlotInvariant
  FfVpn.Analysis.SessionEnd FfVpn.Analysis.StopJoins FfVpn.Analysis.WindDown

/-- Nothing is left of session `k`: no task that could answer or forward anything, and no file. -/
structure SessionOver (c : Core) (k : Nat) : Prop where
  ended : AllEnded (c.starts k).tasks
  silent : ∀ status token a, (c.starts k).tasks.step status token a = none
  socket : c.socket (c.starts k).args.dir ≠ some k

/-- Every stop that has returned has left nothing of its session. -/
def StoppedIsOver (c : Core) : Prop :=
  ∀ n k, (c.stops n).pc = .done (some k) → SessionOver c k

/-- The session winds down, and the IPC loop is not dropped by an abort. -/
structure TearsDown (c : Core) (a : Act) : Prop extends WindsDown c a where
  reap : ∀ k, a ≠ .task k .ipcReap

/-- The start has spawned its IPC loop. -/
def hasIpc : StartPc → Bool
  | .store | .disarm | .unlock | .ok => true
  | _ => false

/-- The IPC loop of an engine is there as long as its file is. -/
def SocketInv (c : Core) : Prop :=
  ∀ k, hasIpc (c.starts k).pc = true → c.socket (c.starts k).args.dir = some k →
    (c.starts k).tasks.ipc.active = true

/-- A start binds its socket before it spawns the loop, and leaves both alone afterwards. -/
theorem startStep_ipc {v : View} {s s' : Session} {ok : Bool} {e : CallEffect}
    (h : s.startStep v ok = some (s', e)) :
    (e = .bindSocket → s.pc = .ipcBind ∧ s'.pc = .ipcPerms) ∧
      (hasIpc s'.pc = true →
        s'.tasks.ipc.active = true ∨ (hasIpc s.pc = true ∧ s'.tasks.ipc = s.tasks.ipc)) := by
  have hedge := startStep_edge h
  constructor
  · generalize s.pc = pc, s'.pc = pc' at hedge ⊢
    cases hedge <;> simp
  · intro hipc
    rcases (startStep_frame h).ipc with hsame | ⟨-, hlive⟩
    · by_cases hpc : s.pc = .ipcSpawn
      · obtain ⟨rfl, -⟩ : _ = s' ∧ _ = e := by simpa [Session.startStep, hpc] using h
        exact .inl rfl
      · refine .inr ⟨?_, hsame⟩
        generalize s.pc = pc, s'.pc = pc' at hedge hpc hipc
        cases hedge <;> first | exact absurd rfl hpc | exact hipc
    · exact .inl (by rw [hlive]; rfl)

/-- A step of the tasks that ends the IPC loop is its cancelled branch, or its being dropped. -/
theorem task_step_ipc {status : Status} {token : String} {t t' : Tasks} {a : TaskAct}
    {e : TaskEffect} (h : t.step status token a = some (t', e)) (hactive : t.ipc.active = true) :
    t'.ipc.active = true ∨ e = .removeSocket ∨ a = .ipcReap := by
  cases taskMove_of_step h with
  | ipcReturn => exact .inr (.inl rfl)
  | ipcReap => exact .inr (.inr rfl)
  | _ => exact .inl hactive

/-- The socket files after a step of a start. -/
theorem apply_socket (c : Core) (k : Nat) (e : CallEffect) (d : String) :
    (c.apply k e).socket d =
      if d = (c.starts k).args.dir ∧ e = .bindSocket then some k
      else if d = (c.starts k).args.dir ∧ e = .removeSocket then none else c.socket d := by
  cases e <;> by_cases hd : d = (c.starts k).args.dir <;> simp [Core.apply, hd]

/-- The socket files after a step of the tasks. -/
theorem applyTask_socket (c : Core) (k : Nat) (e : TaskEffect) (d : String) :
    (c.applyTask k e).socket d =
      if d = (c.starts k).args.dir ∧ e = .removeSocket then none else c.socket d := by
  cases e <;> by_cases hd : d = (c.starts k).args.dir <;> simp [Core.applyTask, hd]

/-- A file becomes the session's with its own `bind`, and with nothing else. -/
theorem socket_next {c c' : Core} {a : Act} {d : String} {k : Nat} (hstep : c.step a = some c')
    (h : c'.socket d = some k) :
    c.socket d = some k ∨
      ((c.starts k).pc = .ipcBind ∧ (c'.starts k).pc = .ipcPerms ∧ ∃ ok, a = .start k ok) := by
  cases a with
  | call j args =>
    obtain ⟨-, rfl⟩ := Core.step_call hstep
    exact .inl h
  | start j ok =>
    obtain ⟨s, e, hs, rfl⟩ := Core.step_start hstep
    rw [apply_socket] at h
    split at h
    · rename_i hbind
      obtain rfl : j = k := by simpa using h
      obtain ⟨hpc, hpc'⟩ := (startStep_ipc hs).1 hbind.2
      exact .inr ⟨hpc, by simpa using hpc', ok, rfl⟩
    · split at h
      · cases h
      · exact .inl h
  | callStop n =>
    obtain ⟨-, rfl⟩ := Core.step_callStop hstep
    exact .inl h
  | stop n timedOut =>
    rcases stopStep_pc hstep with hpc | hpc
    · obtain ⟨-, ⟨j, -, rfl⟩ | ⟨-, rfl⟩⟩ := stopStep_take hpc hstep
      · exact .inl h
      · exact .inl h
    · obtain ⟨j, f, pc, -, -, -, rfl⟩ := stopStep_tear hpc hstep
      exact .inl h
  | handleStop j =>
    obtain ⟨-, rfl⟩ := Core.step_handleStop hstep
    exact .inl h
  | task j a =>
    obtain ⟨t, e, -, rfl⟩ := Core.step_task hstep
    rw [applyTask_socket] at h
    split at h
    · cases h
    · exact .inl h

/-- A teardown keeps the arguments of the session and neither ends nor revives its IPC loop. -/
theorem teardown_ipc {f : Session → Session} (hf : Teardown f) (s : Session) :
    (f s).args = s.args ∧ (f s).tasks.ipc.active = s.tasks.ipc.active := by
  cases hf with
  | keep | cancel | releasePt | clear => exact ⟨rfl, rfl⟩
  | abort t => cases t <;> simp [Tasks.abort]

/-- Every step keeps the file's owner there, where the loop is not dropped over its file. -/
theorem socketInv_next {c c' : Core} {a : Act} (h : SocketInv c) (hdown : TearsDown c a)
    (hstep : c.step a = some c') : SocketInv c' := by
  intro k hipc hfile
  have hfiles := socket_next hstep hfile
  have hold : c.socket (c'.starts k).args.dir = some k := by
    rcases hfiles with hold | ⟨-, hpc, -⟩
    · exact hold
    · simp [hpc, hasIpc] at hipc
  cases a with
  | call j args =>
    obtain ⟨-, rfl⟩ := Core.step_call hstep
    by_cases hk : k = j
    · subst hk
      cases hentry : args.entry <;> simp [Session.called, hentry, hasIpc] at hipc
    · simp only [Core.modify_of_ne _ _ _ hk] at hipc hold ⊢
      exact h k hipc hold
  | start j ok =>
    obtain ⟨s, e, hs, rfl⟩ := Core.step_start hstep
    by_cases hk : k = j
    · subst hk
      simp only [Core.apply_starts, Core.modify_self] at hipc hold ⊢
      have hargs := (startStep_args hs).1
      have hloop := (startStep_ipc hs).2
      rcases hloop hipc with hlive | ⟨hpc, hsame⟩
      · exact hlive
      · rw [hsame]
        exact h k hpc (hargs ▸ hold)
    · simp only [Core.apply_starts, Core.modify_of_ne _ _ _ hk] at hipc hold ⊢
      exact h k hipc hold
  | callStop n =>
    obtain ⟨-, rfl⟩ := Core.step_callStop hstep
    exact h k hipc hold
  | stop n timedOut =>
    rcases stopStep_pc hstep with hpc | hpc
    · obtain ⟨-, ⟨j, -, rfl⟩ | ⟨-, rfl⟩⟩ := stopStep_take hpc hstep
      · exact h k hipc hold
      · exact h k hipc hold
    · obtain ⟨j, f, pc, -, -, hf, rfl⟩ := stopStep_tear hpc hstep
      by_cases hk : k = j
      · subst hk
        obtain ⟨hargs, hactive⟩ := teardown_ipc hf (c.starts k)
        simp only [Core.goto_starts, Core.modify_self, hargs, hactive, hf.pc] at hipc hold ⊢
        exact h k hipc hold
      · simp only [Core.goto_starts, Core.modify_of_ne _ _ _ hk] at hipc hold ⊢
        exact h k hipc hold
  | handleStop j =>
    obtain ⟨-, rfl⟩ := Core.step_handleStop hstep
    by_cases hk : k = j
    · subst hk
      simp only [Core.modify_self] at hipc hold ⊢
      exact h k hipc hold
    · simp only [Core.modify_of_ne _ _ _ hk] at hipc hold ⊢
      exact h k hipc hold
  | task j a =>
    obtain ⟨t, e, ht, rfl⟩ := Core.step_task hstep
    rw [Core.task_starts] at hipc hold ⊢
    by_cases hk : k = j
    · subst hk
      simp only [if_pos] at hipc hold ⊢
      have hactive := h k hipc hold
      rcases task_step_ipc ht hactive with hlive | rfl | rfl
      · exact hlive
      · -- the cancelled branch has removed the file
        rw [Core.task_starts, if_pos rfl, applyTask_socket] at hfile
        simp at hfile
      · exact absurd rfl (hdown.reap k)
    · rw [if_neg hk] at hipc hold ⊢
      exact h k hipc hold

/-- The file of an engine is gone when its stop has returned. -/
structure StopInv (c : Core) : Prop where
  tasks : EndInv c
  socket : SocketInv c
  gone : ∀ n k, (c.stops n).pc = .done (some k) → c.socket (c.starts k).args.dir ≠ some k

theorem stopInv_start : StopInv {} := by
  refine ⟨endInv_start, ?_, ?_⟩
  · intro k h
    simp [hasIpc] at h
  · intro n k h
    simp at h

/-- The line with which a stop returns: the IPC loop has ended, so its file is gone. -/
theorem StopInv.clear {c : Core} (h : StopInv c) {n k : Nat} (hpc : (c.stops n).pc = .clear k) :
    c.socket (c.starts k).args.dir ≠ some k := by
  intro hfile
  have hok := (h.tasks.slot.taken n k (by rw [hpc]; rfl)).1
  have hactive := h.socket k (by rw [hok]; rfl) hfile
  have hended : (c.starts k).tasks.ipc.active = false :=
    (h.tasks.clear hpc).joined.handles .ipc (by simp [handles])
  rw [hended] at hactive
  cases hactive

theorem StopInv.next {c c' : Core} {a : Act} (h : StopInv c) (hdown : TearsDown c a)
    (hstep : c.step a = some c') : StopInv c' := by
  refine ⟨h.tasks.next hdown.toWindsDown hstep, socketInv_next h.socket hdown hstep, ?_⟩
  intro n k hdone hfile
  have hold : (c.starts k).pc = .ok ∧ c.socket (c.starts k).args.dir ≠ some k := by
    rcases stops_next hstep n with hsame | ⟨-, htake⟩ | ⟨b, rfl, hs⟩
    · rw [hsame] at hdone
      exact ⟨(h.tasks.slot.taken n k (by rw [hdone]; rfl)).1, h.gone n k hdone⟩
    · simp [htake] at hdone
    · have hclear := stopStep_done hs hdone
      exact ⟨(h.tasks.slot.taken n k (by rw [hclear]; rfl)).1, h.clear hclear⟩
  obtain ⟨hok, hgone⟩ := hold
  have hargs := (allEnded_stable.next hok hstep).2.1
  rcases socket_next hstep hfile with hsame | ⟨hbind, -, -⟩
  · exact hgone (hargs ▸ hsame)
  · simp [hok] at hbind

/-- **Does `stop()` end the session?** In every run in which no SOCKS connection, forwarded query or
IPC client is under way as a stop cancels its engine and none is taken on before it returns, in
which no join gives up, in which the task around a Leaf thread outlives the thread and its watcher,
and in which the IPC loop is not dropped before its cancelled branch, nothing is left of the session
of a stop that has returned: every task has ended, so nothing is answered or forwarded, and the file
of the IPC socket is gone. -/
theorem stop_ends_session (as : List Act) (hdown : AllSteps Core.step TearsDown {} as) :
    AllStates Core.step StoppedIsOver {} as := by
  have hinv : AllStates Core.step StopInv {} as :=
    AllStates.of_guarded (fun c a c' h hok hs => h.next hok hs) stopInv_start hdown
  refine hinv.mono ?_
  intro c h n k hdone
  have hended := h.tasks.finished n k hdone
  exact ⟨hended, hended.silent, h.gone n k hdone⟩

/-- A cancelled Leaf instance that has registered its id before the watcher looks. -/
def leafWindsDown (k : Nat) (leaf : LeafAct → TaskAct) : List Act :=
  [.threadRun, .register, .watch, .threadReturn, .threadCancel, .threadAbort, .join].map
    fun a => .task k (leaf a)

/-- The tasks of a cancelled session with no connections and no queries. -/
def tasksWindDown (k : Nat) : List Act :=
  leafWindsDown k .leaf1 ++ leafWindsDown k .leaf2 ++
    [Act.task k .artiReturn, .task k .dnsReturn, .task k .ipcReturn]

/-- A session that is stopped in good order. -/
def orderlyStop : List Act :=
  startOk 0 {} ++ [Act.callStop 0] ++ List.replicate 3 (Act.stop 0 false) ++ tasksWindDown 0 ++
    List.replicate 10 (Act.stop 0 false)

def reapsIpc : Act → Bool
  | .task _ .ipcReap => true
  | _ => false

/-- `TearsDown`, decided for a step from a quiet state that takes nothing on. -/
def tearsDownCheck (c : Core) (a : Act) : Bool := windsDownCheck c a && !reapsIpc a

theorem tearsDown_of_check {c : Core} {a : Act} (hquiet : AllQuiet c)
    (h : tearsDownCheck c a = true) : TearsDown c a := by
  rw [tearsDownCheck, Bool.and_eq_true] at h
  refine ⟨windsDown_of_check hquiet h.1, ?_⟩
  rintro k rfl
  simp [reapsIpc] at h

/-- Along a run that passes the check, sessions are torn down. -/
theorem tearsDown_of_checkSteps {c : Core} {as : List Act} (hquiet : AllQuiet c)
    (h : checkSteps Core.step tearsDownCheck c as = true) : AllSteps Core.step TearsDown c as := by
  have hcheck : AllSteps Core.step (fun c a => tearsDownCheck c a = true) c as :=
    AllSteps.of_check (fun _ _ h => h) h
  refine AllSteps.of_guarded (I := AllQuiet) ?_ ?_ hquiet hcheck
  · intro c a c' hquiet hok hstep
    rw [tearsDownCheck, Bool.and_eq_true] at hok
    exact hquiet.next (takesOn_of_check hok.1) hstep
  · intro c a _ hquiet hok _
    exact tearsDown_of_check hquiet hok

/-- The general statement at a session that is stopped in good order. -/
theorem orderly_stop_ends_session :
    ∃ c, run Core.step {} orderlyStop = some c ∧ (c.stops 0).pc = .done (some 0) ∧
      SessionOver c 0 := by
  have hdown : AllSteps Core.step TearsDown {} orderlyStop :=
    tearsDown_of_checkSteps allQuiet_start (by decide +kernel)
  obtain ⟨c, hc, hdone⟩ : ∃ c, run Core.step {} orderlyStop = some c ∧
      (c.stops 0).pc = .done (some 0) := ⟨_, rfl, rfl⟩
  exact ⟨c, hc, hdone, (stop_ends_session _ hdown).last hc 0 0 hdone⟩

/-- The same stop with one idle client on the IPC socket. -/
def stopWithIdleClient : List Act :=
  startOk 0 { authToken := "t" } ++
    [Act.task 0 (.conn 0 .accept), .task 0 (.conn 0 .begin), .callStop 0] ++
    List.replicate 3 (Act.stop 0 false) ++ tasksWindDown 0 ++ List.replicate 10 (Act.stop 0 false)

/-- What the session of that run tells a client after the stop. -/
def statusAfterStop : Status where
  running := false
  ptProvider := some "leaf"
  ptSocks := some ""
  artiSocks := some ""
  tunAddr := some ""

/-- The client authenticates and asks for the status. -/
def clientAsks : List Act :=
  [.task 0 (.conn 0 (.line (.ok (.auth "t")) true)), .task 0 (.conn 0 (.line (.ok .status) true))]

/-- `stop()` has returned, no join has timed out, and the client's handler is still there: it
authenticates the client and tells it the status. -/
theorem idle_client_outlives_stop :
    ∃ c c', run Core.step {} stopWithIdleClient = some c ∧ (c.stops 0).pc = .done (some 0) ∧
      ¬ StoppedIsOver c ∧ run Core.step c clientAsks = some c' ∧
      ((c'.starts 0).tasks.conns 0).trace.map (fun e => e.sent) =
        [[.ok], [.status statusAfterStop]] := by
  obtain ⟨c, c', hrun, hdone, hactive, hrun', hsent⟩ : ∃ c c',
      run Core.step {} stopWithIdleClient = some c ∧ (c.stops 0).pc = .done (some 0) ∧
      connActive ((c.starts 0).tasks.conns 0) = true ∧ run Core.step c clientAsks = some c' ∧
      ((c'.starts 0).tasks.conns 0).trace.map (fun e => e.sent) =
        [[.ok], [.status statusAfterStop]] :=
    ⟨_, _, rfl, rfl, rfl, rfl, rfl⟩
  refine ⟨c, c', hrun, hdone, ?_, hrun', hsent⟩
  intro h
  have hended := (h 0 0 hdone).ended.untracked.conns 0
  rw [hactive] at hended
  cases hended

end FfVpn.Analysis.Teardown
