import FfVpn.Library.Transition
import FfVpn.Model.Engine
import FfVpn.Model.Service

/-!
# `FfVpnService.kt` over the core

The callbacks of the service, line by line, with the calls they make into the native library and
the interface they pass on. All of it runs on the main thread of the app, so at most one call of
`start` or `stop` is under way; the tasks of every session go on next to it. An attempt to bring up
the tunnel has the number of the `start` call it makes or would have made.
-/

set_option autoImplicit false

namespace FfVpn.Model.ServiceProcess

open FfVpn.Library.Transition FfVpn.Model.Session FfVpn.Model.Engine FfVpn.Model.Service

/-- A `ParcelFileDescriptor`: the attempt it belongs to, and whether it owns its descriptor. -/
structure Pfd where
  attempt : Nat
  owns : Bool := true
  deriving DecidableEq, Repr

/-- `ParcelFileDescriptor.detachFd`. -/
def Pfd.detach (p : Pfd) : Pfd := { p with owns := false }

/-- Where the main thread is. -/
inductive MainPc
  | idle
  /-- In the `try` block of `startTunnel`, before `NativeBridge.start`. -/
  | tryBlock (n : Nat)
  /-- In `NativeBridge.start`. -/
  | starting (n : Nat)
  /-- In `stopTunnel`, before `NativeBridge.stop`. -/
  | stopTunnel
  /-- In `NativeBridge.stop`. -/
  | stopping (m : Nat)
  deriving DecidableEq, Repr

/-- The app: the core, the main thread, the field `tun` of the service, and for each attempt the
descriptor that `establish()` gave it and how often the service itself has closed it. -/
structure Process where
  core : Core := {}
  main : MainPc := .idle
  tun : Option Pfd := none
  fds : Nat → Option Int := fun _ => none
  closes : Nat → Nat := fun _ => 0

/-- `ParcelFileDescriptor.close`: nothing happens after `detachFd`. -/
def Process.close (s : Process) (p : Pfd) : Process :=
  if p.owns then
    { s with closes := Function.update s.closes p.attempt (s.closes p.attempt + 1) }
  else s

/-- `closeRawFd`: a fresh `ParcelFileDescriptor` adopts the descriptor and closes it. -/
def Process.closeRawFd (s : Process) (n : Nat) : Process := s.close { attempt := n }

/-- `tun?.runCatching { close() }; tun = null`. -/
def Process.closeTun (s : Process) : Process :=
  match s.tun with
  | some p => { s.close p with tun := none }
  | none => s

/-- The steps of the app. -/
inductive ProcessAct
  /-- `onStartCommand` with `ACTION_START`; `fd` is what `establish()` gives. -/
  | startIntent (n : Nat) (extras : StartExtras) (fd : Option Int)
  /-- The `try` block throws before `NativeBridge.start`. -/
  | throwBefore
  | callStart (args : StartArgs)
  | start (ok : Bool)
  | startReturn
  /-- `onStartCommand` with `ACTION_STOP`. -/
  | stopIntent
  /-- `onDestroy`. -/
  | destroy
  | callStop (m : Nat)
  | stop (timedOut : Bool)
  | stopReturn
  | task (k : Nat) (a : TaskAct)

/-- A step of the core under the main thread. -/
def Process.native (s : Process) (a : Act) (main : MainPc) : Option Process :=
  (s.core.step a).map fun c => { s with core := c, main := main }

/-- One step of the app. -/
def Process.step (s : Process) : ProcessAct → Option Process
  | .startIntent n extras fd =>
    if s.main = .idle ∧ s.fds n = none ∧ (s.core.starts n).pc = .idle then
      match extras.config, fd with
      | none, _ | some _, none => some s
      | some _, some fd =>
        some { s with
          main := .tryBlock n
          tun := some ({ attempt := n } : Pfd).detach
          fds := Function.update s.fds n (some fd) }
    else none
  | .throwBefore =>
    match s.main with
    | .tryBlock n => some { s.closeRawFd n with main := .stopTunnel }
    | _ => none
  | .callStart args =>
    match s.main with
    | .tryBlock n =>
      if args.entry = .jni ∧ s.fds n = some args.fd then s.native (.call n args) (.starting n)
      else none
    | _ => none
  | .start ok =>
    match s.main with
    | .starting n => s.native (.start n ok) (.starting n)
    | _ => none
  | .startReturn =>
    match s.main with
    | .starting n =>
      match (s.core.starts n).pc with
      | .ok => some { s with main := .idle }
      | .err _ => some { s with main := .stopTunnel }
      | _ => none
    | _ => none
  | .stopIntent | .destroy => if s.main = .idle then some { s with main := .stopTunnel } else none
  | .callStop m =>
    if s.main = .stopTunnel then s.native (.callStop m) (.stopping m) else none
  | .stop timedOut =>
    match s.main with
    | .stopping m => s.native (.stop m timedOut) (.stopping m)
    | _ => none
  | .stopReturn =>
    match s.main with
    | .stopping m =>
      match (s.core.stops m).pc with
      | .done _ => some { s.closeTun with main := .idle }
      | _ => none
    | _ => none
  | .task k a => s.native (.task k a) s.main

section Frames

variable (s : Process) (p : Pfd) (n : Nat)

@[simp] theorem Process.close_core : (s.close p).core = s.core := by
  unfold Process.close
  split <;> rfl

@[simp] theorem Process.close_fds : (s.close p).fds = s.fds := by
  unfold Process.close
  split <;> rfl

@[simp] theorem Process.closeRawFd_core : (s.closeRawFd n).core = s.core := Process.close_core ..

@[simp] theorem Process.closeRawFd_fds : (s.closeRawFd n).fds = s.fds := Process.close_fds ..

@[simp] theorem Process.closeTun_core : s.closeTun.core = s.core := by
  unfold Process.closeTun
  split
  · simp
  · rfl

@[simp] theorem Process.closeTun_fds : s.closeTun.fds = s.fds := by
  unfold Process.closeTun
  split
  · simp
  · rfl

end Frames

/-- What each step of the app needs and leaves behind. -/
inductive ProcessStep (s : Process) : ProcessAct → Process → Prop
  | noAttempt {n : Nat} {extras : StartExtras} {fd : Option Int} : s.main = .idle →
      s.fds n = none → extras.config = none ∨ fd = none →
      ProcessStep s (.startIntent n extras fd) s
  | attempt {n : Nat} {extras : StartExtras} {fd : Int} : s.main = .idle → s.fds n = none →
      (s.core.starts n).pc = .idle → extras.config ≠ none →
      ProcessStep s (.startIntent n extras (some fd)) { s with
        main := .tryBlock n
        tun := some ({ attempt := n } : Pfd).detach
        fds := Function.update s.fds n (some fd) }
  | throwBefore {n : Nat} : s.main = .tryBlock n →
      ProcessStep s .throwBefore { s.closeRawFd n with main := .stopTunnel }
  | callStart {n : Nat} {args : StartArgs} {c : Core} : s.main = .tryBlock n →
      s.fds n = some args.fd → args.entry = .jni → s.core.step (.call n args) = some c →
      ProcessStep s (.callStart args) { s with core := c, main := .starting n }
  | start {n : Nat} {ok : Bool} {c : Core} : s.main = .starting n →
      s.core.step (.start n ok) = some c →
      ProcessStep s (.start ok) { s with core := c, main := .starting n }
  | startOk {n : Nat} : s.main = .starting n → (s.core.starts n).pc = .ok →
      ProcessStep s .startReturn { s with main := .idle }
  | startErr {n : Nat} {f : FailPoint} : s.main = .starting n → (s.core.starts n).pc = .err f →
      ProcessStep s .startReturn { s with main := .stopTunnel }
  | stopIntent : s.main = .idle → ProcessStep s .stopIntent { s with main := .stopTunnel }
  | destroy : s.main = .idle → ProcessStep s .destroy { s with main := .stopTunnel }
  | callStop {m : Nat} {c : Core} : s.main = .stopTunnel → s.core.step (.callStop m) = some c →
      ProcessStep s (.callStop m) { s with core := c, main := .stopping m }
  | stop {m : Nat} {b : Bool} {c : Core} : s.main = .stopping m →
      s.core.step (.stop m b) = some c →
      ProcessStep s (.stop b) { s with core := c, main := .stopping m }
  | stopReturn {m : Nat} {k : Option Nat} : s.main = .stopping m →
      (s.core.stops m).pc = .done k →
      ProcessStep s .stopReturn { s.closeTun with main := .idle }
  | task {k : Nat} {a : TaskAct} {c : Core} : s.core.step (.task k a) = some c →
      ProcessStep s (.task k a) { s with core := c }

theorem Process.step_cases {s s' : Process} {a : ProcessAct} (h : s.step a = some s') :
    ProcessStep s a s' := by
  cases a with
  | startIntent n extras fd =>
    simp only [Process.step, Option.ite_none_right_eq_some] at h
    obtain ⟨⟨hmain, hfds, hpc⟩, h⟩ := h
    cases hconfig : extras.config with
    | none =>
      simp only [hconfig, Option.some.injEq] at h
      exact h ▸ .noAttempt hmain hfds (.inl hconfig)
    | some config =>
      cases fd with
      | none =>
        simp only [hconfig, Option.some.injEq] at h
        exact h ▸ .noAttempt hmain hfds (.inr rfl)
      | some fd =>
        simp only [hconfig, Option.some.injEq] at h
        exact h ▸ .attempt hmain hfds hpc (by simp [hconfig])
  | throwBefore =>
    simp only [Process.step] at h
    split at h
    · rename_i n hmain
      exact Option.some.inj h ▸ .throwBefore hmain
    · cases h
  | callStart args =>
    simp only [Process.step] at h
    split at h
    · rename_i n hmain
      simp only [Option.ite_none_right_eq_some, Process.native, Option.map_eq_some_iff] at h
      obtain ⟨⟨hentry, hfd⟩, c, hc, rfl⟩ := h
      exact .callStart hmain hfd hentry hc
    · cases h
  | start ok =>
    simp only [Process.step] at h
    split at h
    · rename_i n hmain
      simp only [Process.native, Option.map_eq_some_iff] at h
      obtain ⟨c, hc, rfl⟩ := h
      exact .start hmain hc
    · cases h
  | startReturn =>
    simp only [Process.step] at h
    split at h
    · rename_i n hmain
      split at h
      · rename_i hpc
        exact Option.some.inj h ▸ .startOk hmain hpc
      · rename_i f hpc
        exact Option.some.inj h ▸ .startErr hmain hpc
      · cases h
    · cases h
  | stopIntent =>
    simp only [Process.step, Option.ite_none_right_eq_some, Option.some.injEq] at h
    exact h.2 ▸ .stopIntent h.1
  | destroy =>
    simp only [Process.step, Option.ite_none_right_eq_some, Option.some.injEq] at h
    exact h.2 ▸ .destroy h.1
  | callStop m =>
    simp only [Process.step, Option.ite_none_right_eq_some, Process.native,
      Option.map_eq_some_iff] at h
    obtain ⟨hmain, c, hc, rfl⟩ := h
    exact .callStop hmain hc
  | stop b =>
    simp only [Process.step] at h
    split at h
    · rename_i m hmain
      simp only [Process.native, Option.map_eq_some_iff] at h
      obtain ⟨c, hc, rfl⟩ := h
      exact .stop hmain hc
    · cases h
  | stopReturn =>
    simp only [Process.step] at h
    split at h
    · rename_i m hmain
      split at h
      · rename_i k hpc
        exact Option.some.inj h ▸ .stopReturn hmain hpc
      · cases h
    · cases h
  | task k a =>
    simp only [Process.step, Process.native, Option.map_eq_some_iff] at h
    obtain ⟨c, hc, rfl⟩ := h
    exact .task hc

/-- The app runs the core: a step of it is one step of the core, or leaves the core alone. The tasks
of the core move in the steps of tasks only. -/
theorem Process.core_next {s s' : Process} {a : ProcessAct} (h : s.step a = some s') :
    (s'.core = s.core ∧ ∀ k x, a ≠ .task k x) ∨ ∃ b, s.core.step b = some s'.core ∧
      ∀ k x, b = .task k x ↔ a = .task k x := by
  cases Process.step_cases h with
  | noAttempt | attempt | throwBefore | startOk | startErr | stopIntent | destroy | stopReturn =>
    exact .inl (by simp)
  | callStart _ _ _ hc | start _ hc | callStop _ hc | stop _ hc =>
    exact .inr ⟨_, hc, by simp⟩
  | task hc => exact .inr ⟨_, hc, by simp⟩

theorem process_refines_core : Simulation Process.step Core.step Process.core := by
  intro s a s' h
  rcases Process.core_next h with ⟨hsame, -⟩ | ⟨b, hb, -⟩
  · exact .inl hsame
  · exact .inr ⟨b, hb⟩

end FfVpn.Model.ServiceProcess
