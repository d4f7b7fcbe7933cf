import FfVpn.Analysis.Overlap

/-!
# Who finds the socket of a live session

The path of the IPC socket is the only thing two sessions of one private directory share. A start
removes whatever file it finds there before it binds, and an IPC loop removes whatever file it finds
there when it takes its cancelled branch; neither looks whose file it is. The mutex of the slot
keeps starts apart, but the old loop is under no lock at all.
-/

set_option autoImplicit false

namespace FfVpn.Analysis.SocketPath

open FfVpn.Library.Transition FfVpn.Model.Ipc FfVpn.Model.LeafConfig FfVpn.Model.Session
  FfVpn.Model.Engine
  FfVpn.Analysis.SlotInvariant FfVpn.Analysis.SessionEnd FfVpn.Analysis.Teardown
  FfVpn.Analysis.Overlap

/-- From the `Ok` of its start until it is cancelled, a session is the one whose socket the path
names. -/
def KeepsSocket (c : Core) : Prop :=
  ∀ k, (c.starts k).pc = .ok → (c.starts k).tasks.cancelled = false →
    c.socket (c.starts k).args.dir = some k

/-- The start has bound its socket, and has not failed since. -/
def bound : StartPc → Bool
  | .ipcPerms | .ipcSpawn | .store | .disarm | .unlock | .ok => true
  | _ => false

/-- The same from the moment the start has bound its socket. -/
def LiveSocket (c : Core) : Prop :=
  ∀ k, bound (c.starts k).pc = true → (c.starts k).tasks.cancelled = false →
    c.socket (c.starts k).args.dir = some k

/-- No file is removed while the session that has bound it is live: neither by the cancelled branch
of an IPC loop, nor as a stale file by a start. -/
structure SparesLive (c : Core) (a : Act) : Prop where
  branch : ∀ j k, a = .task j .ipcReturn → c.socket (c.starts j).args.dir = some k →
    bound (c.starts k).pc = true → (c.starts k).tasks.cancelled = true
  stale : ∀ j k, a = .start j true → (c.starts j).pc = .ipcStale →
    c.socket (c.starts j).args.dir = some k → bound (c.starts k).pc = true →
    (c.starts k).tasks.cancelled = true

theorem LiveSocket.keepsSocket {c : Core} (h : LiveSocket c) : KeepsSocket c := by
  intro k hok hlive
  exact h k (by rw [hok]; rfl) hlive

/-- The file at a path was bound there by the session it belongs to. -/
def SocketDir (c : Core) : Prop :=
  ∀ d k, c.socket d = some k → (c.starts k).args.dir = d ∧ (c.starts k).pc ≠ .idle

/-- What a start does to the file at its path. -/
theorem startStep_socket {v : View} {s s' : Session} {ok : Bool} {e : CallEffect}
    (h : s.startStep v ok = some (s', e)) :
    (e = .bindSocket → v.socketExists = false) ∧
      (e = .removeSocket ↔ s.pc = .ipcStale ∧ ok = true) ∧
      (bound s'.pc = true → bound s.pc = true ∨ s.pc = .ipcBind ∧ e = .bindSocket) ∧
      (s'.tasks.cancelled = false → s.tasks.cancelled = false) := by
  have hcancelled := (startStep_frame h).cancelled
  have hedge := startStep_edge h
  refine ⟨?_, ?_, ?_, fun hlive => ?_⟩
  · generalize s.pc = pc, s'.pc = pc' at hedge
    cases hedge <;> simp_all
  · generalize s.pc = pc, s'.pc = pc' at hedge ⊢
    cases hedge <;> simp_all
  · generalize s.pc = pc, s'.pc = pc' at hedge ⊢
    cases hedge <;> simp [bound]
  · rcases hcancelled with hsame | ⟨f, -, hdropped⟩
    · rwa [hsame] at hlive
    · rw [hdropped] at hlive
      cases hlive

/-- A call draws the arguments of its session; nothing changes them afterwards, and nobody makes it
a call that has not begun. -/
theorem sessionStep_args {c : Core} {a : Act} {k : Nat} {s : Session} (h : SessionStep c a k s)
    (hpc : (c.starts k).pc ≠ .idle) : s.args = (c.starts k).args ∧ s.pc ≠ .idle := by
  cases h with
  | same => exact ⟨rfl, hpc⟩
  | called _ hidle => exact absurd hidle hpc
  | start _ hs =>
    obtain ⟨hargs, -, hpc'⟩ := startStep_args hs
    exact ⟨hargs, hpc'⟩
  | teardown hf => exact ⟨(teardown_ipc hf _).1, by rwa [hf.pc]⟩
  | task => exact ⟨rfl, hpc⟩

/-- A session that is live with its socket bound was so before, or has bound it in this step. -/
theorem sessionStep_live {c : Core} {a : Act} {k : Nat} {s : Session} (h : SessionStep c a k s)
    (hbound : bound s.pc = true) (hlive : s.tasks.cancelled = false) :
    (bound (c.starts k).pc = true ∧ (c.starts k).tasks.cancelled = false) ∨
      (∃ ok e, a = .start k ok ∧ (c.starts k).startStep (c.view k) ok = some (s, e) ∧
        e = .bindSocket) := by
  cases h with
  | same => exact .inl ⟨hbound, hlive⟩
  | @called args =>
    cases hentry : args.entry <;> simp [Session.called, hentry, bound] at hbound
  | @start ok s e ha hs =>
    obtain ⟨-, -, hpc, hcancelled⟩ := startStep_socket hs
    rcases hpc hbound with hold | ⟨-, hbind⟩
    · exact .inl ⟨hold, hcancelled hlive⟩
    · exact .inr ⟨ok, e, ha, hs, hbind⟩
  | teardown hf =>
    refine .inl ⟨by rwa [hf.pc] at hbound, ?_⟩
    by_contra hcancelled
    rw [Bool.not_eq_false] at hcancelled
    have := cancelled_stable.teardown hf hcancelled
    rw [hlive] at this
    cases this
  | task _ ht =>
    refine .inl ⟨hbound, ?_⟩
    by_contra hcancelled
    rw [Bool.not_eq_false] at hcancelled
    have := cancelled_stable.task ht hcancelled
    rw [hlive] at this
    cases this

/-- The step removes the file at the path `d`. -/
inductive Removes (c : Core) (a : Act) (d : String) : Prop
  | branch {j : Nat} : a = .task j .ipcReturn → d = (c.starts j).args.dir → Removes c a d
  | stale {j : Nat} : a = .start j true → (c.starts j).pc = .ipcStale →
      d = (c.starts j).args.dir → Removes c a d

/-- A step of the tasks removes the file with the cancelled branch of the IPC loop only. -/
theorem task_step_removes {status : Status} {token : String} {t t' : Tasks} {b : TaskAct}
    {e : TaskEffect} (h : t.step status token b = some (t', e)) :
    e = .removeSocket ↔ b = .ipcReturn := by
  cases taskMove_of_step h with
  | leaf2 => simp [ite_eq_iff]
  | _ => simp

/-- A removed file is gone. -/
theorem file_removed {c c' : Core} {a : Act} {d : String} (h : Removes c a d)
    (hstep : c.step a = some c') : c'.socket d = none := by
  cases h with
  | branch ha hd =>
    subst ha hd
    obtain ⟨t, e, ht, rfl⟩ := Core.step_task hstep
    rw [applyTask_socket, if_pos ⟨by simp, (task_step_removes ht).mpr rfl⟩]
  | stale ha hpc hd =>
    subst ha hd
    obtain ⟨s, e, hs, rfl⟩ := Core.step_start hstep
    have he : e = .removeSocket := (startStep_socket hs).2.1.mpr ⟨hpc, rfl⟩
    rw [apply_socket, if_neg (by simp [he]), if_pos]
    exact ⟨by simp [(startStep_args hs).1], he⟩

/-- Any other file stays, and stays with its session: nobody binds over it. -/
theorem file_kept {c c' : Core} {a : Act} {d : String} {k : Nat} (h : ¬ Removes c a d)
    (hstep : c.step a = some c') (hfile : c.socket d = some k) : c'.socket d = some k := by
  cases a with
  | call j args =>
    obtain ⟨-, rfl⟩ := Core.step_call hstep
    exact hfile
  | start j ok =>
    obtain ⟨s, e, hs, rfl⟩ := Core.step_start hstep
    obtain ⟨hbind, hremove, -, -⟩ := startStep_socket hs
    have hargs := (startStep_args hs).1
    rw [apply_socket]
    split
    · rename_i hown
      have hfree := hbind hown.2
      rw [Core.modify_self, hargs] at hown
      simp [Core.view, ← hown.1, hfile] at hfree
    · split
      · rename_i hown
        obtain ⟨hpc, rfl⟩ := hremove.mp hown.2
        rw [Core.modify_self, hargs] at hown
        exact absurd (Removes.stale rfl hpc hown.1) h
      · exact hfile
  | callStop n =>
    obtain ⟨-, rfl⟩ := Core.step_callStop hstep
    exact hfile
  | stop n b =>
    rcases stopStep_pc hstep with hpc | hpc
    · obtain ⟨-, ⟨j, -, rfl⟩ | ⟨-, rfl⟩⟩ := stopStep_take hpc hstep
      · exact hfile
      · exact hfile
    · obtain ⟨j, f, pc, -, -, -, rfl⟩ := stopStep_tear hpc hstep
      exact hfile
  | handleStop j =>
    obtain ⟨-, rfl⟩ := Core.step_handleStop hstep
    exact hfile
  | task j b =>
    obtain ⟨t, e, ht, rfl⟩ := Core.step_task hstep
    rw [applyTask_socket]
    split
    · rename_i hown
      obtain rfl := (task_step_removes ht).mp hown.2
      exact absurd (Removes.branch rfl (by simpa using hown.1)) h
    · exact hfile

theorem SocketDir.next {c c' : Core} {a : Act} (h : SocketDir c) (hstep : c.step a = some c') :
    SocketDir c' := by
  intro d k hfile
  have hkeep : (c.starts k).pc ≠ .idle →
      (c'.starts k).args = (c.starts k).args ∧ (c'.starts k).pc ≠ .idle :=
    sessionStep_args (session_next hstep k)
  rcases socket_next hstep hfile with hold | ⟨hpc, hpc', ok, rfl⟩
  · obtain ⟨hdir, hcalled⟩ := h d k hold
    obtain ⟨hargs, hcalled'⟩ := hkeep hcalled
    exact ⟨by rw [hargs, hdir], hcalled'⟩
  · obtain ⟨hargs, hcalled'⟩ := hkeep (by simp [hpc])
    refine ⟨?_, hcalled'⟩
    obtain ⟨s, e, hs, rfl⟩ := Core.step_start hstep
    rw [apply_socket] at hfile
    split at hfile
    · rename_i hown
      simpa using hown.1.symm
    · split at hfile
      · cases hfile
      · rw [hargs]
        exact (h d k hfile).1

/-- What a step does to the sessions that are live with their socket bound. -/
theorem liveSocket_step {c c' : Core} {a : Act} (hdir : SocketDir c) (h : LiveSocket c)
    (hstep : c.step a = some c') : LiveSocket c' ↔ SparesLive c a := by
  constructor
  · intro h'
    constructor
    · rintro j k rfl hfile hbound
      by_contra hlive
      rw [Bool.not_eq_true] at hlive
      have hgone := file_removed (.branch rfl rfl) hstep
      obtain ⟨t, e, ht, rfl⟩ := Core.step_task hstep
      have hjk : k ≠ j := by
        rintro rfl
        simp [Tasks.step, hlive] at ht
      have hsame := Core.task_starts c j t e k
      rw [if_neg hjk] at hsame
      have := h' k (by rwa [hsame]) (by rwa [hsame])
      rw [hsame, (hdir _ k hfile).1, hgone] at this
      cases this
    · rintro j k rfl hpc hfile hbound
      by_contra hlive
      rw [Bool.not_eq_true] at hlive
      have hgone := file_removed (.stale rfl hpc rfl) hstep
      obtain ⟨s, e, hs, rfl⟩ := Core.step_start hstep
      have hjk : k ≠ j := by
        rintro rfl
        simp [hpc, bound] at hbound
      have hsame : (((c.modify j fun _ => s).apply j e).starts k) = c.starts k := by
        rw [Core.apply_starts, Core.modify_of_ne _ _ _ hjk]
      have := h' k (by rwa [hsame]) (by rwa [hsame])
      rw [hsame, (hdir _ k hfile).1, hgone] at this
      cases this
  · intro hspares k hbound hlive
    rcases sessionStep_live (session_next hstep k) hbound hlive with ⟨hold, holdlive⟩ | hbind
    · have hpc : (c.starts k).pc ≠ .idle := by
        intro hidle
        simp [hidle, bound] at hold
      have hfile := h k hold holdlive
      rw [(sessionStep_args (session_next hstep k) hpc).1]
      refine file_kept ?_ hstep hfile
      intro hremoves
      have hcancelled : (c.starts k).tasks.cancelled = true := by
        cases hremoves with
        | @branch j ha hd => exact hspares.branch j k ha (hd ▸ hfile) hold
        | @stale j ha hpc' hd => exact hspares.stale j k ha hpc' (hd ▸ hfile) hold
      rw [holdlive] at hcancelled
      cases hcancelled
    · obtain ⟨ok, e, rfl, hs, rfl⟩ := hbind
      obtain ⟨s, e, hs', rfl⟩ := Core.step_start hstep
      obtain rfl : e = .bindSocket := by
        simpa [hs'] using congrArg (Option.map Prod.snd) hs
      rw [apply_socket, if_pos ⟨by simp, rfl⟩]

theorem socketDir_start : SocketDir {} := by
  intro d k h
  cases h

theorem liveSocket_start : LiveSocket {} := by
  intro k h
  cases h

/-- **A live session keeps its socket exactly when nobody removes it.** Along every run, whatever
the order of calls and of the sessions' own steps: every session that has bound its socket and is
not cancelled finds it at its path, in every state of the run, if and only if no step removes the
file of such a session. Two schedules do: an old IPC loop comes to its cancelled branch after a
later start has bound the path, and a start removes the file as stale before the session it belongs
to is cancelled. Without them a session keeps its socket from the `Ok` of its start on. -/
theorem live_session_keeps_socket (as : List Act) :
    (AllStates Core.step LiveSocket {} as ↔ AllSteps Core.step SparesLive {} as) ∧
      (AllSteps Core.step SparesLive {} as → AllStates Core.step KeepsSocket {} as) := by
  have hexact : AllStates Core.step LiveSocket {} as ↔ AllSteps Core.step SparesLive {} as := by
    refine allStates_iff_allSteps (I := SocketDir) ?_ ?_ as socketDir_start liveSocket_start
    · exact fun c a c' h hstep => h.next hstep
    · exact fun c a c' hdir h hstep => liveSocket_step hdir h hstep
  refine ⟨hexact, fun hspares => ?_⟩
  exact (hexact.mpr hspares).mono fun c h => h.keepsSocket

/-- Session 0 is being stopped. Everything but its IPC loop has ended, the DNS proxy included. -/
def stopUpToIpc : List Act :=
  startOk 0 {} ++ [Act.callStop 0] ++ List.replicate 3 (Act.stop 0 false) ++
    leafWindsDown 0 .leaf1 ++ leafWindsDown 0 .leaf2 ++
    [Act.task 0 .artiReturn, .task 0 .dnsReturn] ++ List.replicate 7 (Act.stop 0 false)

/-- Session 1 starts, in the same directory, and then the old loop takes its cancelled branch. -/
def branchAfterRestart : List Act :=
  stopUpToIpc ++ startOk 1 {} ++ [.task 0 .ipcReturn]

/-- Session 1 is up and has lost its socket. -/
theorem old_loop_removes_new_socket :
    ∃ c, run Core.step {} branchAfterRestart = some c ∧ (c.stops 0).pc = .abort 0 .ipc ∧
      (c.starts 0).tasks.dns = .ended ∧ c.slot = some 1 ∧ (c.starts 1).pc = .ok ∧
      (c.starts 1).tasks.cancelled = false ∧ (c.starts 1).tasks.ipc = .live ∧
      c.socket (c.starts 1).args.dir = none ∧ ¬ KeepsSocket c ∧
      ¬ AllStates Core.step KeepsSocket {} branchAfterRestart := by
  obtain ⟨c, hrun, hstop, hdns, hslot, hok, hlive, hipc, hgone⟩ : ∃ c,
      run Core.step {} branchAfterRestart = some c ∧ (c.stops 0).pc = .abort 0 .ipc ∧
      (c.starts 0).tasks.dns = .ended ∧ c.slot = some 1 ∧ (c.starts 1).pc = .ok ∧
      (c.starts 1).tasks.cancelled = false ∧ (c.starts 1).tasks.ipc = .live ∧
      c.socket (c.starts 1).args.dir = none :=
    ⟨_, rfl, rfl, rfl, rfl, rfl, rfl, rfl, rfl⟩
  have hnot : ¬ KeepsSocket c := by
    intro h
    have := h 1 hok hlive
    rw [hgone] at this
    cases this
  exact ⟨c, hrun, hstop, hdns, hslot, hok, hlive, hipc, hgone, hnot, fun h => hnot (h.last hrun)⟩

end FfVpn.Analysis.SocketPath
