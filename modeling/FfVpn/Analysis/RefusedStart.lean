import FfVpn.Analysis.SlotLiveness
import FfVpn.Analysis.TunDescriptor

/-!
# What a second `ACTION_START` does to a running engine

`start` itself refuses: with an engine in the slot it returns `AlreadyRunning` and touches nothing
but the descriptor it was given. But the service answers every failure of the `try` block, and every
result other than 0, with `stopTunnel`, and `stop` does not ask whose engine it finds in the slot.
-/

set_option autoImplicit false

namespace FfVpn.Analysis.RefusedStart

open FfVpn.Library.Transition FfVpn.Model.Session FfVpn.Model.Engine FfVpn.Model.Service
  FfVpn.Model.ServiceProcess FfVpn.Analysis.SlotInvariant FfVpn.Analysis.SlotLiveness
  FfVpn.Analysis.Descriptor FfVpn.Analysis.TunDescriptor

/-- The step is one of the main thread. -/
def onMain : ProcessAct → Bool
  | .task _ _ => false
  | _ => true

/-- The step begins a callback of the service. -/
def begins : ProcessAct → Bool
  | .startIntent _ _ _ | .stopIntent | .destroy => true
  | _ => false

/-- A step of the main thread that leaves engine `k` alone: the slot, its token, status and tasks
are as they were, and no descriptor is closed but that of attempt `n`. -/
def Leaves (k n : Nat) (s : Process) (a : ProcessAct) : Prop :=
  onMain a = true → ∀ s', s.step a = some s' →
    s'.core.slot = s.core.slot ∧ s'.core.starts k = s.core.starts k ∧
      ∀ m, m ≠ n → closesOf s' m = closesOf s m

/-- The actions `as`, from `s` to `s'`, leave the running engine `k` alone and close the descriptor
that was created for attempt `n`, if any. -/
structure LeftAlone (k n : Nat) (s : Process) (as : List ProcessAct) (s' : Process) : Prop where
  slot : s'.core.slot = some k
  steps : AllSteps Process.step (Leaves k n) s as
  created : closesOf s' n = if (s'.fds n).isSome then 1 else 0

/-- What is left alone changes with its own tasks only: where they take no step, the session is the
same afterwards, its token included. -/
theorem session_same {k n : Nat} {s s' : Process} {as : List ProcessAct}
    (h : AllSteps Process.step (Leaves k n) s as) (hquiet : ∀ b, .task k b ∉ as)
    (hrun : run Process.step s as = some s') : s'.core.starts k = s.core.starts k := by
  induction as generalizing s with
  | nil =>
    obtain rfl : s = s' := by simpa using hrun
    rfl
  | cons a as ih =>
    obtain ⟨m, hm, hrest⟩ := run_cons_eq_some.mp hrun
    obtain ⟨hleaves, htail⟩ := h m hm
    rw [ih htail (fun b hb => hquiet b (List.mem_cons_of_mem _ hb)) hrest]
    by_cases hmain : onMain a = true
    · exact (hleaves hmain m hm).2.1
    · cases Process.step_cases hm with
      | @task j b c hc =>
        have hjk : k ≠ j := by
          rintro rfl
          exact hquiet b (by simp)
        obtain ⟨t, e, -, rfl⟩ := Core.step_task hc
        simp only
        rw [Core.task_starts, if_neg hjk]
      | _ => exact absurd rfl hmain

/-- The start is on its way to a refusal. -/
def refusing : StartPc → Bool
  | .parse | .lock | .check | .unlockErr _ | .dropGuard _ | .err _ => true
  | _ => false

/-- With an engine in the slot, a start is refused and stores nothing. -/
theorem startStep_refusing {v : View} {s s' : Session} {ok : Bool} {e : CallEffect}
    (h : s.startStep v ok = some (s', e)) (hv : v.occupied = true)
    (hpc : refusing s.pc = true) : refusing s'.pc = true ∧ e ≠ .store := by
  cases startStep_cases h <;> grind [refusing, Session.armed]

/-- Where the handling of attempt `n` is, and with it engine `k`: as long as `stop` has not taken
from the slot the engine is there, and afterwards the slot is empty. -/
inductive Handling (k n : Nat) (s : Process) : Prop
  | tryBlock (hslot : s.core.slot = some k) (hmain : s.main = .tryBlock n)
  | starting (hslot : s.core.slot = some k) (hmain : s.main = .starting n)
    (hpc : refusing (s.core.starts n).pc = true)
  | stopTunnel (hslot : s.core.slot = some k) (hmain : s.main = .stopTunnel)
  | take (m : Nat) (hslot : s.core.slot = some k) (hmain : s.main = .stopping m)
    (hpc : (s.core.stops m).pc = .take)
  | taken (hslot : s.core.slot = none) (hmain : s.main = .idle ∨ ∃ m, s.main = .stopping m)

/-- A step of the tasks moves no call, and leaves the slot alone. -/
theorem task_frame {c c' : Core} {j : Nat} {b : TaskAct} (h : c.step (.task j b) = some c') :
    c'.slot = c.slot ∧ c'.stops = c.stops ∧ ∀ n, (c'.starts n).pc = (c.starts n).pc := by
  have hpc := fun n => sessionStep_pc (session_next h n) (by simp) (by simp)
  obtain ⟨t, e, -, rfl⟩ := Core.step_task h
  exact ⟨by simp, by simp, hpc⟩

theorem Handling.next {k n : Nat} {s s' : Process} {a : ProcessAct} (h : Handling k n s)
    (hbegins : begins a = false) (hstep : s.step a = some s') : Handling k n s' := by
  cases Process.step_cases hstep with
  | noAttempt | attempt | stopIntent | destroy => simp [begins] at hbegins
  | @task j b c hc =>
    obtain ⟨hslot', hstops, hpcs⟩ := task_frame hc
    cases h with
    | tryBlock hslot hmain => exact .tryBlock (hslot'.trans hslot) hmain
    | starting hslot hmain hpc =>
      exact .starting (hslot'.trans hslot) hmain (by simpa [hpcs] using hpc)
    | stopTunnel hslot hmain => exact .stopTunnel (hslot'.trans hslot) hmain
    | take m hslot hmain hpc =>
      exact .take m (hslot'.trans hslot) hmain (by simpa [hstops] using hpc)
    | taken hslot hmain => exact .taken (hslot'.trans hslot) hmain
  | @throwBefore j hmain' =>
    cases h with
    | tryBlock hslot _ => exact .stopTunnel (by simpa using hslot) rfl
    | _ => simp_all
  | @callStart j args c hmain' _ hentry hc =>
    cases h with
    | tryBlock hslot hmain =>
      obtain rfl : j = n := MainPc.tryBlock.inj (hmain'.symm.trans hmain)
      obtain ⟨-, rfl⟩ := Core.step_call hc
      refine .starting (by simpa using hslot) rfl ?_
      simp [Session.called, hentry, refusing]
    | _ => simp_all
  | @start j ok c hmain' hc =>
    cases h with
    | starting hslot hmain hpc =>
      obtain rfl : j = n := MainPc.starting.inj (hmain'.symm.trans hmain)
      obtain ⟨s'', e, hs, rfl⟩ := Core.step_start hc
      obtain ⟨hpc', he⟩ := startStep_refusing hs (by simp [Core.view, hslot]) hpc
      refine .starting ?_ rfl (by simpa using hpc')
      rw [apply_slot, if_neg he]
      exact hslot
    | _ => simp_all
  | startOk hmain' hok =>
    cases h with
    | starting hslot hmain hpc =>
      obtain rfl := MainPc.starting.inj (hmain'.symm.trans hmain)
      simp [hok, refusing] at hpc
    | _ => simp_all
  | startErr hmain' _ =>
    cases h with
    | starting hslot _ _ => exact .stopTunnel hslot rfl
    | _ => simp_all
  | @callStop m c hmain' hc =>
    obtain ⟨-, rfl⟩ := Core.step_callStop hc
    cases h with
    | stopTunnel hslot _ => exact .take m hslot rfl (by simp)
    | _ => simp_all
  | @stop m b c hmain' hc =>
    cases h with
    | take m' hslot hmain hpc =>
      obtain rfl : m = m' := MainPc.stopping.inj (hmain'.symm.trans hmain)
      obtain ⟨-, ⟨j, -, rfl⟩ | ⟨hnone, -⟩⟩ := stopStep_take hpc hc
      · exact .taken rfl (.inr ⟨m, rfl⟩)
      · rw [hslot] at hnone
        cases hnone
    | taken hslot _ =>
      refine .taken ?_ (.inr ⟨m, rfl⟩)
      rcases stopStep_pc hc with hpc | hpc
      · obtain ⟨-, ⟨j, -, rfl⟩ | ⟨-, rfl⟩⟩ := stopStep_take hpc hc
        · rfl
        · exact hslot
      · obtain ⟨j, f, pc, -, -, -, rfl⟩ := stopStep_tear hpc hc
        exact hslot
    | _ => simp_all
  | @stopReturn m j hmain' hdone =>
    cases h with
    | take m' hslot hmain hpc =>
      obtain rfl : m = m' := MainPc.stopping.inj (hmain'.symm.trans hmain)
      simp [hdone] at hpc
    | taken hslot _ => exact .taken (by simpa using hslot) (.inl rfl)
    | _ => simp_all

/-- With the main thread idle and no callback begun, only tasks take steps. -/
theorem idle_next {s s' : Process} {a : ProcessAct} (hidle : s.main = .idle)
    (hbegins : begins a = false) (hstep : s.step a = some s') :
    ∃ k b, a = .task k b ∧ s'.main = .idle ∧ s'.core.slot = s.core.slot ∧ s'.fds = s.fds := by
  cases Process.step_cases hstep with
  | noAttempt | attempt | stopIntent | destroy => simp [begins] at hbegins
  | @task k b c hc => exact ⟨k, b, rfl, hidle, (task_frame hc).1, rfl⟩
  | _ => simp_all

/-- What an idle main thread leaves alone: everything. -/
theorem idle_leaves {k n : Nat} {s s' : Process} {as : List ProcessAct} (hidle : s.main = .idle)
    (hbegins : ∀ a ∈ as, begins a = false) (hrun : run Process.step s as = some s') :
    AllSteps Process.step (Leaves k n) s as ∧ s'.core.slot = s.core.slot ∧ s'.fds = s.fds := by
  induction as generalizing s with
  | nil =>
    obtain rfl : s = s' := by simpa using hrun
    exact ⟨trivial, rfl, rfl⟩
  | cons a as ih =>
    obtain ⟨m, hm, hrest⟩ := run_cons_eq_some.mp hrun
    obtain ⟨j, b, rfl, hidle', hslot, hfds⟩ := idle_next hidle (hbegins a (by simp)) hm
    obtain ⟨hsteps, hslot', hfds'⟩ :=
      ih hidle' (fun a ha => hbegins a (List.mem_cons_of_mem _ ha)) hrest
    refine ⟨?_, hslot'.trans hslot, hfds'.trans hfds⟩
    intro m' hm'
    obtain rfl : m = m' := by simpa [hm] using hm'
    exact ⟨fun hmain => absurd hmain (by simp [onMain]), hsteps⟩

/-- The descriptor of an attempt that was given none has not been closed. -/
theorem closesOf_fresh {s : Process} (h : Reachable Process.step {} s) {n : Nat}
    (hfds : s.fds n = none) : closesOf s n = 0 := by
  obtain ⟨hidle, hcloses⟩ := (attemptInv_reachable h).fresh n hfds
  have hlog := ((fdInv_reachable h n).early (by simp [hidle, owner, Owner.early])).1
  simp [closesOf, nativeCloses, hlog, hcloses]

/-- **When does a further `ACTION_START` leave the running engine alone?** For every reachable state
with an engine in the slot and every further start intent, once the service has handled it (whatever
the tasks of the sessions do meanwhile): the engine is still in the slot, its token, status and
tasks are touched by nothing but themselves and only the new descriptor is closed, exactly where the
service does not get to a start: the intent brings no config, or `establish()` gives none. -/
theorem further_start_leaves_alone_iff {s s' : Process} (hreach : Reachable Process.step {} s)
    (hidle : s.main = .idle) {k : Nat} (hslot : s.core.slot = some k) (n : Nat)
    (extras : StartExtras) (fd : Option Int) (as : List ProcessAct)
    (hbegins : ∀ a ∈ as, begins a = false)
    (hrun : run Process.step s (.startIntent n extras fd :: as) = some s')
    (hdone : s'.main = .idle) :
    LeftAlone k n s (.startIntent n extras fd :: as) s' ↔ extras.config = none ∨ fd = none := by
  have hreach' : Reachable Process.step {} s' := by
    obtain ⟨bs, hbs⟩ := hreach
    exact ⟨bs ++ .startIntent n extras fd :: as, by rw [run_append, hbs]; exact hrun⟩
  obtain ⟨m, hm, hrest⟩ := run_cons_eq_some.mp hrun
  constructor
  · intro h
    cases Process.step_cases hm with
    | noAttempt _ _ hnone => exact hnone
    | attempt =>
      have hothers (m : Process) : AllSteps Process.step (fun _ a => begins a = false) m as := by
        refine AllSteps.of_actions (p := fun a => !begins a) (by simp) ?_
        simpa using hbegins
      have hhandling : Handling k n s' :=
        guarded_last hrest (hothers _) (.tryBlock hslot rfl) fun s a s' h hb hs => h.next hb hs
      have hslot' := h.slot
      cases hhandling with
      | taken hnone => rw [hnone] at hslot'; cases hslot'
      | _ => simp_all
  · intro hnone
    cases Process.step_cases hm with
    | noAttempt _ hfds _ =>
      obtain ⟨hsteps, hslot', hfds'⟩ := idle_leaves (k := k) (n := n) hidle hbegins hrest
      refine ⟨hslot'.trans hslot, ?_, ?_⟩
      · intro m' hm'
        obtain rfl : s = m' := by simpa [hm] using hm'
        refine ⟨?_, hsteps⟩
        intro _ s'' hs''
        obtain rfl : s = s'' := by simpa [hm] using hs''
        exact ⟨rfl, rfl, fun _ _ => rfl⟩
      · rw [closesOf_fresh hreach' (by rw [hfds', hfds]), hfds', hfds]
        rfl
    | attempt _ _ _ hconfig => simp [hconfig] at hnone

/-- A further intent that brings no config. -/
def noConfig : StartExtras := { configOnly with config := none }

/-- The general statement at an intent that brings no config. -/
theorem intent_without_config_leaves_alone :
    ∃ s s', run Process.step {} bringUp = some s ∧ s.core.slot = some 0 ∧
      run Process.step s [.startIntent 1 noConfig (some 8)] = some s' ∧
      LeftAlone 0 1 s [.startIntent 1 noConfig (some 8)] s' := by
  obtain ⟨s, s', hbring, hidle, hslot, hrun, hdone⟩ : ∃ s s',
      run Process.step {} bringUp = some s ∧ s.main = .idle ∧ s.core.slot = some 0 ∧
      run Process.step s [.startIntent 1 noConfig (some 8)] = some s' ∧ s'.main = .idle :=
    ⟨_, _, rfl, rfl, rfl, rfl, rfl⟩
  refine ⟨s, s', hbring, hslot, hrun, ?_⟩
  exact (further_start_leaves_alone_iff ⟨_, hbring⟩ hidle hslot 1 noConfig (some 8) []
    (by simp) hrun
    hdone).mpr (.inl rfl)

/-- A second start intent, with a config and an interface. `start` refuses it, and `stopTunnel`
follows. -/
def secondIntent : List ProcessAct :=
  [ProcessAct.startIntent 1 configOnly (some 8), .callStart { entry := .jni, fd := 8 }] ++
    List.replicate 5 (ProcessAct.start true) ++
    [ProcessAct.startReturn] ++ (stopTunnelRun leafUp).drop 1

/-- The start is refused because session 0 is running, and session 0 is gone. -/
theorem second_intent_kills_session :
    ∃ s s', run Process.step {} bringUp = some s ∧ s.main = .idle ∧ s.core.slot = some 0 ∧
      (s.core.starts 0).tasks.cancelled = false ∧ (s.core.starts 0).status.running = true ∧
      run Process.step s secondIntent = some s' ∧ s'.main = .idle ∧
      (s'.core.starts 1).pc = .err .alreadyRunning ∧ s'.core.slot = none ∧
      (s'.core.starts 0).tasks.cancelled = true ∧ (s'.core.starts 0).status.running = false ∧
      ¬ LeftAlone 0 1 s secondIntent s' := by
  obtain ⟨s, s', hbring, hidle, hslot, hlive, hrunning, hrun, hdone, hpc, hnone, hcancelled,
      hstopped⟩ : ∃ s s', run Process.step {} bringUp = some s ∧ s.main = .idle ∧
      s.core.slot = some 0 ∧ (s.core.starts 0).tasks.cancelled = false ∧
      (s.core.starts 0).status.running = true ∧ run Process.step s secondIntent = some s' ∧
      s'.main = .idle ∧ (s'.core.starts 1).pc = .err .alreadyRunning ∧ s'.core.slot = none ∧
      (s'.core.starts 0).tasks.cancelled = true ∧ (s'.core.starts 0).status.running = false :=
    ⟨_, _, rfl, rfl, rfl, rfl, rfl, rfl, rfl, rfl, rfl, rfl, rfl⟩
  refine ⟨s, s', hbring, hidle, hslot, hlive, hrunning, hrun, hdone, hpc, hnone, hcancelled,
    hstopped, ?_⟩
  intro h
  have := h.slot
  rw [hnone] at this
  cases this

end FfVpn.Analysis.RefusedStart
