import FfVpn.Library.Transition
import FfVpn.Model.Listener
import Mathlib.Data.List.DropRight

/-!
# Are the logs a window on the lines received

A step appends to the logs the line it brings, if it brings one, and cuts the front off; no other
step touches them, whichever fields it sets. So along every run the logs are the end of the list of
the lines received, and the same is true of the controller of `Model.Controller`, whose changes are
`copyWith`s of this one.
-/

set_option autoImplicit false

namespace FfVpn.Analysis.LogWindow

open FfVpn.Library.Transition FfVpn.Model FfVpn.Model.Listener

variable {κ : Type} (encode : κ → String)

/-- The line of a log event. Without a line it is the empty one; with anything but a string in its
place the event is no log event. -/
def logLine? (event : EventMap) : Option String :=
  if event.get "kind" = .string "log" then
    match event.get "line" with
    | .string line => some line
    | .null => some ""
    | _ => none
  else none

/-- The line an action brings. -/
def line? : Act κ → Option String
  | .event event => logLine? event
  | _ => none

/-- The log lines received, in the order of their arrival. -/
def received (as : List (Act κ)) : List String := as.filterMap line?

/-! ## The window -/

/-- What is left of a list of which all but the last `n` items are cut off. -/
theorem rtake_of_cut (n : Nat) (xs : List String) :
    (if n < xs.length then xs.drop (xs.length - n) else xs) = xs.rtake n := by
  unfold List.rtake
  split
  · rfl
  · rw [Nat.sub_eq_zero_of_le (by omega), List.drop_zero]

/-- The last items of a list are those of what its last items and a further one are the end of. -/
theorem rtake_rtake_append (n : Nat) (xs : List String) (x : String) :
    (xs.rtake n ++ [x]).rtake n = (xs ++ [x]).rtake n := by
  unfold List.rtake
  rw [← List.drop_append_of_le_length (Nat.sub_le _ _), List.drop_drop]
  simp only [List.length_drop, List.length_append, List.length_singleton]
  have hindex : xs.length - n + (xs.length + 1 - (xs.length - n) - n) = xs.length + 1 - n := by
    omega
  rw [hindex]

/-- **One line.** A window of 500 lines moves on by one. -/
theorem appendLog_rtake (lines : List String) (line : String) :
    appendLog (lines.rtake 500) line = (lines ++ [line]).rtake 500 := by
  unfold appendLog
  rw [rtake_of_cut, rtake_rtake_append]

/-- A window wider than the list shows no more than the list. -/
theorem rtake_min_length (n : Nat) (xs : List String) :
    xs.rtake (min xs.length n) = xs.rtake n := by
  unfold List.rtake
  have hindex : xs.length - min xs.length n = xs.length - n := by omega
  rw [hindex]

/-! ## One step -/

/-- What the listener makes of the logs: a log event appends its line, and no other event, whether
it throws or not, changes them. -/
theorem listener_logs (s : VpnState κ) (event : EventMap) :
    ((s.listener event).getD s).logs = ((logLine? event).map (appendLog s.logs)).getD s.logs := by
  cases hkind : event.get "kind" with
  | string kind =>
    by_cases hlog : kind = "log"
    · cases hline : event.get "line" <;>
        simp [VpnState.listener, logLine?, Dyn.asStringOrNull, hkind, hlog, hline]
    · have hnone : logLine? event = none := by simp [logLine?, hkind, hlog]
      simp only [VpnState.listener, hkind, Dyn.asStringOrNull, hnone]
      by_cases hstatus : kind = "status"
      · simp [hstatus]
      · by_cases herror : kind = "error"
        · cases hmessage : event.get "message" <;> simp [herror]
        · simp [hlog, hstatus, herror]
  | null => simp [VpnState.listener, logLine?, Dyn.asStringOrNull, hkind]
  | bool b => simp [VpnState.listener, logLine?, Dyn.asStringOrNull, hkind]
  | other encoded => simp [VpnState.listener, logLine?, Dyn.asStringOrNull, hkind]

/-- A step appends the line it brings, if it brings one. No other `copyWith` names the logs. -/
theorem step_logs {c c' : VpnController κ} {a : Act κ} (h : c.step encode a = some c') :
    c'.state.logs = ((line? a).map (appendLog c.state.logs)).getD c.state.logs := by
  cases a with
  | event event =>
    simp only [VpnController.step] at h
    split at h
    · cases h
      exact listener_logs c.state event
    · cases h
  | loaded saved =>
    simp only [VpnController.step] at h
    split at h
    · cases h
    · split at h <;> cases h <;> rfl
  | _ =>
    simp only [VpnController.step] at h
    first
    | (cases h; rfl)
    | (split at h <;> cases h <;> rfl)

/-! ## Runs -/

theorem received_append (as : List (Act κ)) (a : Act κ) :
    received (as ++ [a]) = received as ++ (line? a).toList := by
  cases hline : line? a <;> simp [received, hline]

/-- The lines received so far and the logs they leave. -/
theorem run_logs {as : List (Act κ)} {c : VpnController κ}
    (hrun : run (VpnController.step encode) {} as = some c) :
    c.state.logs = (received as).rtake 500 := by
  refine run_history (P := fun as c => c.state.logs = (received as).rtake 500) ?_ ?_ hrun
  · rw [received, List.filterMap_nil, List.rtake_nil]
  · intro as c a c' _ hlogs hstep
    rw [step_logs encode hstep, hlogs, received_append]
    cases line? a with
    | none => simp
    | some line => simp [appendLog_rtake]

/-- **The logs are a sliding window.** After any run of events and operations they are the last
`min n 500` of the `n` log lines received, in the order of their arrival. -/
theorem logs_eq_window (as : List (Act κ)) (c : VpnController κ)
    (hrun : run (VpnController.step encode) {} as = some c) :
    c.state.logs = (received as).rtake (min (received as).length 500) ∧
      c.state.logs.length = min (received as).length 500 := by
  rw [rtake_min_length, run_logs encode hrun]
  refine ⟨rfl, ?_⟩
  rw [List.rtake, List.length_drop]
  omega

/-- Lines with a failed `connect()`, a log event without a line, one with a number for a line and an
unknown event among them. -/
def mixedRun : List (Act Unit) :=
  [.loaded (.ok (some ())), .event [("kind", .string "log"), ("line", .string "up")], .connect 0,
    .event [("kind", .string "log")], .hasPermission 0 (.error "no activity"),
    .event [("kind", .string "log"), ("line", .other [3, 7])], .setCountry (some "de"),
    .event [("kind", .string "traffic"), ("line", .string "unseen")],
    .event [("line", .string "down"), ("kind", .string "log")]]

theorem logs_eq_window_mixedRun :
    ∃ c, run (VpnController.step fun _ => "") {} mixedRun = some c ∧
      c.state.logs = ["up", "", "down"] := by
  obtain ⟨c, hrun, -⟩ := exists_of_run_map (VpnController.step fun _ => "") {} mixedRun
    (fun _ => true) (by decide)
  have hreceived : received mixedRun = ["up", "", "down"] := by decide
  have hlogs := (logs_eq_window (fun _ => "") mixedRun c hrun).1
  rw [hreceived] at hlogs
  exact ⟨c, hrun, hlogs⟩

/-! ## The composition with the service -/

/-- A payload of the service as it reaches the listener. -/
def payload : Service.Event → EventMap
  | .status running => [("kind", .string "status"), ("running", running.elim .null .bool)]
  | .log line => [("kind", .string "log"), ("line", .string line)]
  | .error message => [("kind", .string "error"), ("message", message.elim .null .string)]

/-- The state of `Model.Controller` as one of `Model.Listener`. -/
def view (s : Controller.VpnState κ) : VpnState κ where
  status := s.status
  config := s.config
  exitCountry := s.exitCountry
  allowedPackages := s.allowedPackages
  disallowedPackages := s.disallowedPackages
  errorMessage := s.errorMessage
  lastStatusJson := s.lastStatusJson.map payload
  logs := s.logs

/-- The listener of `Model.Controller` is the one of the source, on the payloads of the service. -/
theorem listener_view (s : Controller.VpnState κ) (event : Service.Event) :
    (view s).listener (payload event) = some (view (s.onEvent event)) := by
  cases event with
  | status running =>
    have hlistener : (view s).listener (payload (.status running)) = some ((view s).copyWith {
        lastStatusJson := .set (some (payload (.status running))),
        status := nextStatus s.status (running.elim .null .bool) }) := rfl
    rw [hlistener, Controller.VpnState.onEvent]
    rcases running with _ | _ | _
    · rfl
    · by_cases hstatus : s.status = .connecting <;>
        simp [view, VpnState.copyWith, nextStatus, Arg.orElse, hstatus]
    · rfl
  | log line =>
    have hlistener : (view s).listener (payload (.log line)) =
        some ((view s).copyWith { logs := some (appendLog s.logs line) }) := rfl
    have hlogs : s.onEvent (.log line) = { s with logs := appendLog s.logs line } := by
      simp only [Controller.VpnState.onEvent, appendLog, rtake_of_cut, List.rtake]
    rw [hlistener, hlogs]
    rfl
  | error message => cases message <;> rfl

theorem app_deliver {s s' : Controller.App κ} (h : s.step encode .deliver = some s') :
    ∃ event rest, s.events = event :: rest ∧
      (view s.ui).listener (payload event) = some (view s'.ui) := by
  cases hevents : s.events with
  | nil => simp [Controller.App.step, hevents] at h
  | cons event rest =>
    simp only [Controller.App.step, hevents, Option.some.injEq] at h
    subst h
    exact ⟨event, rest, rfl, listener_view s.ui event⟩

/-- Any other change of the state in `Model.Controller` is a `copyWith` that does not name the
logs. -/
theorem app_copyWith {s s' : Controller.App κ} {a : Controller.AppAct κ}
    (h : s.step encode a = some s') (ha : a ≠ .deliver) :
    ∃ args, args.logs = none ∧ view s'.ui = (view s.ui).copyWith args := by
  cases a with
  | deliver => exact absurd rfl ha
  | importConfig config =>
    cases h
    exact ⟨{ config := .set (some config) }, rfl, rfl⟩
  | setCountry code =>
    cases h
    exact ⟨{ exitCountry := .set code }, rfl, rfl⟩
  | setAllowedPackages pkgs =>
    cases h
    exact ⟨{ allowedPackages := .set pkgs }, rfl, rfl⟩
  | setDisallowedPackages pkgs =>
    cases h
    exact ⟨{ disallowedPackages := .set pkgs }, rfl, rfl⟩
  | connect i =>
    simp only [Controller.App.step] at h
    split at h
    · split at h
      · cases h
        exact ⟨{ status := some .error, errorMessage := .set (some "No config") }, rfl, rfl⟩
      · cases h
        exact ⟨{ status := some .connecting, errorMessage := .set none }, rfl, rfl⟩
    · cases h
  | disconnect i =>
    simp only [Controller.App.step] at h
    split at h
    · cases h
      exact ⟨{ status := some .disconnecting }, rfl, rfl⟩
    · cases h
  | resume i =>
    simp only [Controller.App.step] at h
    split at h
    · split at h <;> cases h <;> exact ⟨{}, rfl, rfl⟩
    · cases h
      exact ⟨{}, rfl, rfl⟩
    · cases h
      exact ⟨{}, rfl, rfl⟩
    · next message _ =>
      cases h
      exact ⟨{ status := some .error, errorMessage := .set (some message) }, rfl, rfl⟩
    · next message _ =>
      cases h
      exact ⟨{ status := some .error, errorMessage := .set (some message) }, rfl, rfl⟩
    · cases h
  | resumeStop i =>
    simp only [Controller.App.step] at h
    split at h
    · cases h
      exact ⟨{ status := some .disconnected, errorMessage := .set none }, rfl, rfl⟩
    · next message _ =>
      cases h
      exact ⟨{ status := some .error, errorMessage := .set (some message) }, rfl, rfl⟩
    · cases h
  | _ =>
    -- the rest is `MainActivity`'s and the service's
    have hui : s'.ui = s.ui := by
      simp only [Controller.App.step] at h
      repeat' split at h
      all_goals cases h
      all_goals rfl
    rw [hui]
    exact ⟨{}, rfl, rfl⟩

/-- The line that a step of `Model.Controller` delivers. -/
def delivered (s : Controller.App κ) : Controller.AppAct κ → Option String
  | .deliver => s.events.head?.bind fun event => logLine? (payload event)
  | _ => none

/-- The lines delivered along a run. -/
def allDelivered : Controller.App κ → List (Controller.AppAct κ) → List String
  | _, [] => []
  | s, a :: as =>
    (delivered s a).toList ++ ((s.step encode a).map fun s' => allDelivered s' as).getD []

theorem app_step_logs {s s' : Controller.App κ} {a : Controller.AppAct κ}
    (h : s.step encode a = some s') :
    s'.ui.logs = ((delivered s a).map (appendLog s.ui.logs)).getD s.ui.logs := by
  by_cases ha : a = .deliver
  · subst ha
    obtain ⟨event, rest, hevents, hlistener⟩ := app_deliver encode h
    have hlogs := listener_logs (view s.ui) (payload event)
    rw [hlistener] at hlogs
    simp only [delivered, hevents, List.head?_cons, Option.bind_some]
    exact hlogs
  · obtain ⟨args, hargs, hview⟩ := app_copyWith encode h ha
    have hlogs := congrArg VpnState.logs hview
    rw [VpnState.copyWith_logs, hargs] at hlogs
    have hnone : delivered s a = none := by
      cases a <;> first | rfl | exact absurd rfl ha
    rw [hnone]
    exact hlogs

/-- The window of `Model.Controller`, whatever it showed before. -/
theorem app_logs_eq_window {s s' : Controller.App κ} {lines : List String}
    {as : List (Controller.AppAct κ)} (hlogs : s.ui.logs = lines.rtake 500)
    (hrun : run (Controller.App.step encode) s as = some s') :
    s'.ui.logs = (lines ++ allDelivered encode s as).rtake 500 := by
  induction as generalizing s lines with
  | nil =>
    obtain rfl : s = s' := by simpa using hrun
    simpa [allDelivered] using hlogs
  | cons a as ih =>
    obtain ⟨m, hm, hrest⟩ := run_cons_eq_some.mp hrun
    have hstep := app_step_logs encode hm
    have hnext : m.ui.logs = (lines ++ (delivered s a).toList).rtake 500 := by
      rw [hstep, hlogs]
      cases delivered s a with
      | none => simp
      | some line => simp [appendLog_rtake]
    rw [ih hnext hrest, allDelivered, hm, List.append_assoc]
    rfl

end FfVpn.Analysis.LogWindow
