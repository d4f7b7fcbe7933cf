import FfVpn.Analysis.LastIntent
import FfVpn.Model.Attachment

/-!
# Does the UI converge to the native state?

The service says `running: true` once, when an engine comes up, and `running: false` once, when it
is stopped. A controller that listens in time follows it. One that begins to listen later starts
from `disconnected` and is told nothing; so is one that loses the status to its own calls while an
engine runs; and no payload is sent at all where an engine stops running by itself.
-/

set_option autoImplicit false

namespace FfVpn.Analysis.UiConvergence

open FfVpn.Library.Transition FfVpn.Model.Service FfVpn.Model.Controller FfVpn.Model.Attachment
  FfVpn.Analysis.FailedConnect FfVpn.Analysis.LastIntent

variable {κ : Type} {encode : κ → String}

/-- A controller listens, all callbacks of the service have run, all payloads are delivered, and no
call is in flight. -/
structure Quiescent (s : Host κ) : Prop where
  listening : s.stage = .listening
  intents : s.app.intents = []
  destroyDue : s.app.destroyDue = false
  events : s.app.events = []
  connects : ∀ i, s.app.connects i = .idle ∨ s.app.connects i = .done
  disconnects : ∀ d, (s.app.disconnects d).inFlight = false

/-- With nothing left to happen, the status is `connected` exactly where an engine runs. -/
def Converges (s : Host κ) : Prop :=
  Quiescent s → (s.app.ui.status = .connected ↔ s.engine = .running)

/-- A callback of the service is due: an intent waits, or `onDestroy`. -/
def Due (app : App κ) : Prop := app.intents ≠ [] ∨ app.destroyDue = true

/-- The `connect()` has yet to send its intent, or to say that it was refused. -/
def settling : Connect → Bool
  | .idle | .done | .connectReply none => false
  | _ => true

/-- A callback is due, or a call has not come to its end. -/
def UnderWay (app : App κ) : Prop :=
  Due app ∨ (∃ i, settling (app.connects i) = true) ∨ ∃ d, (app.disconnects d).inFlight = true

/-- An engine that runs is still to be announced, or something is under way. -/
def Heard (s : Host κ) : Prop :=
  s.engine = .running →
    .status (some true) ∈ s.app.events ∨ UnderWay s.app ∨ s.stage ≠ .listening

/-- The steps after which the controller shows something else than `connected`, whatever the service
does: it begins to listen, `connect()` finds no config or is refused, `disconnect()` ends. -/
inductive Silent (s : Host κ) : HostAct κ → Prop
  | listen : Silent s .listen
  | noConfig {i : Nat} (h : s.app.ui.config = none) : Silent s (.app (.connect i))
  | refused {i : Nat} (h : Reports s.app (.resume i)) : Silent s (.app (.resume i))
  | resumeStop (d : Nat) : Silent s (.app (.resumeStop d))

/-- After such a step no engine runs, or its payload is still queued, or something is under way; and
an engine does not end by itself unless a callback is due, or nobody says that it runs. -/
structure Hears (encode : κ → String) (s : Host κ) (a : HostAct κ) : Prop where
  silent : Silent s a → ∀ s', s.step encode a = some s' → Heard s'
  ends : a = .engineEnds →
    Due s.app ∨ (s.app.ui.status ≠ .connected ∧ .status (some true) ∉ s.app.events)

/-- Each payload of the kind `p` has an `e` after it. -/
def FollowedBy (p : Event → Prop) (e : Event) : List Event → Prop
  | [] => True
  | x :: rest => (p x → e ∈ rest) ∧ FollowedBy p e rest

theorem followedBy_concat {p : Event → Prop} {e : Event} (hp : ¬ p e) (l : List Event) :
    FollowedBy p e (l ++ [e]) := by
  induction l with
  | nil => exact ⟨fun h => absurd h hp, trivial⟩
  | cons x rest ih => exact ⟨fun _ => by simp, ih⟩

theorem followedBy_of_none {p : Event → Prop} {e : Event} {l : List Event}
    (h : ∀ x ∈ l, ¬ p x) : FollowedBy p e l := by
  induction l with
  | nil => trivial
  | cons x rest ih =>
    exact ⟨fun hx => absurd hx (h x (by simp)), ih fun y hy => h y (List.mem_cons_of_mem _ hy)⟩

/-- The payload takes the status off `connected`. -/
def TakesOff (x : Event) : Prop := x = .status (some false) ∨ ∃ m, x = .error m

/-- What the queue, the status and the engine have to do with each other. -/
structure HostInv (s : Host κ) : Prop where
  running : s.engine = .running → FollowedBy TakesOff (.status (some true)) s.app.events
  stopped : s.engine ≠ .running → (s.engine = .ended ∧ Due s.app) ∨
    (FollowedBy (· = .status (some true)) (.status (some false)) s.app.events ∧
      (s.app.ui.status = .connected → .status (some false) ∈ s.app.events))
  listening : s.app.ui.status = .connected → s.stage = .listening
  heard : s.engine = .running → s.app.ui.status = .connected ∨
    .status (some true) ∈ s.app.events ∨ UnderWay s.app ∨ s.stage ≠ .listening

theorem hostInv_start : HostInv ({} : Host κ) := by
  constructor <;> simp [FollowedBy]

theorem HostInv.converges {s : Host κ} (h : HostInv s) : Converges s := by
  intro hquiet
  have hnotdue : ¬ Due s.app := by
    rintro (hdue | hdue)
    · exact hdue hquiet.intents
    · rw [hquiet.destroyDue] at hdue
      cases hdue
  constructor
  · intro hconnected
    by_contra hnot
    rcases h.stopped hnot with ⟨-, hdue⟩ | ⟨-, hqueued⟩
    · exact hnotdue hdue
    · have := hqueued hconnected
      rw [hquiet.events] at this
      cases this
  · intro hrunning
    rcases h.heard hrunning with hconnected | hqueued | (hdue | ⟨i, hi⟩ | ⟨d, hd⟩) | hstage
    · exact hconnected
    · rw [hquiet.events] at hqueued
      cases hqueued
    · exact absurd hdue hnotdue
    · rcases hquiet.connects i with hidle | hdone
      · simp [hidle, settling] at hi
      · simp [hdone, settling] at hi
    · rw [hquiet.disconnects d] at hd
      cases hd
    · exact absurd hquiet.listening hstage

/-- The step is neither a callback of the service nor the delivery of a payload. -/
def quiet : AppAct κ → Bool
  | .onStartCommand _ | .onDestroy | .deliver => false
  | _ => true

/-- What is due stays due in such a step. -/
theorem quiet_due {s s' : App κ} {a : AppAct κ} (h : s.step encode a = some s')
    (hquiet : quiet a = true) (hdue : Due s) : Due s' := by
  rcases hdue with hintents | hdestroyDue
  · left
    rw [sends_intents h (by rintro attempt rfl; cases hquiet)]
    simp [hintents]
  · right
    cases a with
    | onStartCommand _ | onDestroy | deliver => cases hquiet
    | importConfig _ | setCountry _ | setAllowedPackages _ | setDisallowedPackages _ | permit _
    | systemStop =>
      simp only [App.step, Option.some.injEq] at h
      simp [← h, hdestroyDue]
    | dialog granted =>
      simp only [App.step] at h
      cases hpending : s.pending <;> grind
    | connect i | disconnect d | control i r | resume i | controlStop d r | resumeStop d =>
      simp only [App.step] at h
      grind

/-- Such a step leaves the payloads alone, and makes nobody `connected`. -/
theorem quiet_step {s s' : App κ} {a : AppAct κ} (h : s.step encode a = some s')
    (hquiet : quiet a = true) :
    s'.events = s.events ∧ (s'.ui.status = .connected → s.ui.status = .connected) := by
  cases a with
  | onStartCommand _ | onDestroy | deliver => cases hquiet
  | importConfig _ | setCountry _ | setAllowedPackages _ | setDisallowedPackages _ | permit _
  | systemStop =>
    simp only [App.step, Option.some.injEq] at h
    subst h
    exact ⟨rfl, id⟩
  | connect i =>
    refine ⟨(connect_step h).1, ?_⟩
    simp only [App.step] at h
    split at h
    · cases hc : s.ui.config <;> simp only [hc, Option.some.injEq] at h <;> subst h <;>
        simp [VpnState.noConfig, VpnState.beginConnect]
    · cases h
  | disconnect d =>
    simp only [App.step, Option.ite_none_right_eq_some, Option.some.injEq] at h
    obtain ⟨-, rfl⟩ := h
    exact ⟨rfl, by simp [VpnState.beginDisconnect]⟩
  | control i r =>
    have hunseen := control_step h
    exact ⟨hunseen.events, fun hc => hunseen.status ▸ hc⟩
  | dialog granted =>
    have hunseen := dialog_step h
    exact ⟨hunseen.events, fun hc => hunseen.status ▸ hc⟩
  | resume i =>
    rcases resume_step h with ⟨hunseen, -⟩ | ⟨-, hstatus, hevents, -⟩
    · exact ⟨hunseen.events, fun hc => hunseen.status ▸ hc⟩
    · exact ⟨hevents, by simp [hstatus]⟩
  | controlStop d r =>
    obtain ⟨hui, hevents, -⟩ := controlStop_step h
    exact ⟨hevents, by simp [hui]⟩
  | resumeStop d =>
    obtain ⟨hevents, hstatus⟩ := resumeStop_step h
    refine ⟨hevents, ?_⟩
    rcases hstatus with hstatus | hstatus <;> simp [hstatus]

/-- A `connect()` that goes on, or is gone on with, is under way, or has come to its end. -/
theorem control_underWay {s s' : App κ} {i : Nat} {r : Option String}
    (h : s.step encode (.control i r) = some s') : UnderWay s' := by
  cases hc : s.connects i <;> simp only [App.step, hc, reduceCtorEq] at h
  case hasPermission config =>
    obtain rfl := Option.some.inj h
    exact .inr (.inl ⟨i, by simp [App.setConnect_connects, settling]⟩)
  case requestPermission config =>
    split at h <;> obtain rfl := Option.some.inj h <;>
      exact .inr (.inl ⟨i, by simp [App.setConnect_connects, settling]⟩)
  case connect args =>
    split at h
    · cases r <;> obtain rfl := Option.some.inj h
      · exact .inl (.inl (by simp))
      · exact .inr (.inl ⟨i, by simp [App.setConnect_connects, settling]⟩)
    · obtain rfl := Option.some.inj h
      exact .inr (.inl ⟨i, by simp [App.setConnect_connects, settling]⟩)

theorem dialog_underWay {s s' : App κ} {granted : Bool}
    (h : s.step encode (.dialog granted) = some s') : UnderWay s' := by
  simp only [App.step] at h
  split at h
  · cases h
  · rename_i i _
    split at h
    · obtain rfl := Option.some.inj h
      exact .inr (.inl ⟨i, by simp [App.setConnect_connects, settling]⟩)
    · split at h <;> obtain rfl := Option.some.inj h
      · exact .inl (.inl (by simp))
      · exact .inr (.inl ⟨i, by simp [App.setConnect_connects, settling]⟩)
    · cases h

/-- A `connect()` that goes on without being refused is still under way, or it ends and nobody sees
it. -/
theorem resume_underWay {s s' : App κ} {i : Nat} (h : s.step encode (.resume i) = some s')
    (hreports : ¬ Reports s (.resume i)) :
    UnderWay s' ∨ (s'.ui = s.ui ∧ (UnderWay s → UnderWay s')) := by
  simp only [App.step] at h
  split at h
  · split at h <;> obtain rfl := Option.some.inj h <;>
      exact .inl (.inr (.inl ⟨i, by simp [App.setConnect_connects, settling]⟩))
  · obtain rfl := Option.some.inj h
    exact .inl (.inr (.inl ⟨i, by simp [App.setConnect_connects, settling]⟩))
  · rename_i hc
    obtain rfl := Option.some.inj h
    refine .inr ⟨rfl, ?_⟩
    rintro (hdue | ⟨j, hj⟩ | hd)
    · exact .inl hdue
    · have hji : j ≠ i := by
        rintro rfl
        simp [hc, settling] at hj
      exact .inr (.inl ⟨j, by simpa [App.setConnect_connects, hji] using hj⟩)
    · exact .inr (.inr hd)
  · rename_i hc
    exact absurd (.refusedRequest hc) hreports
  · rename_i hc
    exact absurd (.refusedConnect hc) hreports
  · cases h

/-- Unless the step is silent, whoever was `connected` is so still, or something is under way. -/
theorem quiet_heard {s : Host κ} {app : App κ} {a : AppAct κ}
    (h : s.app.step encode a = some app) (hquiet : quiet a = true)
    (hsilent : ¬ Silent s (.app a)) (hbefore : s.app.ui.status = .connected ∨ UnderWay s.app) :
    app.ui.status = .connected ∨ UnderWay app := by
  cases a with
  | onStartCommand _ | onDestroy | deliver => cases hquiet
  | importConfig _ | setCountry _ | setAllowedPackages _ | setDisallowedPackages _ | permit _ =>
    simp only [App.step, Option.some.injEq] at h
    subst h
    exact hbefore
  | systemStop =>
    simp only [App.step, Option.some.injEq] at h
    subst h
    exact .inr (.inl (.inr rfl))
  | connect i =>
    simp only [App.step] at h
    split at h
    · cases hc : s.app.ui.config with
      | none => exact absurd (.noConfig hc) hsilent
      | some config =>
        simp only [hc, Option.some.injEq] at h
        subst h
        exact .inr (.inr (.inl ⟨i, by simp [App.setConnect_connects, settling]⟩))
    · cases h
  | disconnect d =>
    simp only [App.step, Option.ite_none_right_eq_some, Option.some.injEq] at h
    obtain ⟨-, rfl⟩ := h
    exact .inr (.inr (.inr ⟨d, by simp [App.setDisconnect_disconnects, Disconnect.inFlight]⟩))
  | control i r => exact .inr (control_underWay h)
  | dialog granted => exact .inr (dialog_underWay h)
  | resume i =>
    rcases resume_underWay h (fun hreports => hsilent (.refused hreports)) with
      hunder | ⟨hui, hkeep⟩
    · exact .inr hunder
    · rw [hui]
      exact hbefore.imp_right hkeep
  | controlStop d r =>
    obtain ⟨-, -, e, he, hcalls⟩ := controlStop_step h
    exact .inr (.inr (.inr ⟨d, by rw [hcalls]; simpa using he⟩))
  | resumeStop d => exact absurd (.resumeStop d) hsilent

/-- A step that is neither a callback nor a delivery is one of the app alone. -/
theorem quiet_app {s s' : Host κ} {a : AppAct κ} (hquiet : quiet a = true)
    (hstep : s.step encode (.app a) = some s') :
    ∃ app, s.app.step encode a = some app ∧ s' = { s with app := app } := by
  cases a with
  | onStartCommand _ | onDestroy | deliver => cases hquiet
  | _ =>
    simp only [Host.step, Host.appStep] at hstep
    split at hstep
    · cases hstep
    · obtain ⟨app, happ, rfl⟩ := Option.map_eq_some_iff.mp hstep
      exact ⟨app, happ, rfl⟩

/-- A step of the app that is not a callback. -/
theorem HostInv.own {s s' : Host κ} {a : AppAct κ} (h : HostInv s) (hquiet : quiet a = true)
    (hhears : Hears encode s (.app a)) (hstep : s.step encode (.app a) = some s') : HostInv s' := by
  obtain ⟨app, happ, rfl⟩ := quiet_app hquiet hstep
  obtain ⟨hevents, hconnected⟩ := quiet_step happ hquiet
  constructor
  · intro hrunning
    rw [hevents]
    exact h.running hrunning
  · intro hnot
    rcases h.stopped hnot with ⟨hended, hdue⟩ | ⟨hfollowed, hqueued⟩
    · exact .inl ⟨hended, quiet_due happ hquiet hdue⟩
    · rw [hevents]
      exact .inr ⟨hfollowed, fun hc => hqueued (hconnected hc)⟩
  · exact fun hc => h.listening (hconnected hc)
  · intro hrunning
    by_cases hsilent : Silent s (.app a)
    · exact .inr (hhears.silent hsilent _ hstep hrunning)
    · rw [hevents]
      rcases h.heard hrunning with hc | hqueued | hunder | hstage
      · rcases quiet_heard happ hquiet hsilent (.inl hc) with hc' | hunder
        · exact .inl hc'
        · exact .inr (.inr (.inl hunder))
      · exact .inr (.inl hqueued)
      · rcases quiet_heard happ hquiet hsilent (.inr hunder) with hc' | hunder
        · exact .inl hc'
        · exact .inr (.inr (.inl hunder))
      · exact .inr (.inr (.inr hstage))

theorem onEvent_takesOff (ui : VpnState κ) {x : Event} (h : TakesOff x) :
    (ui.onEvent x).status ≠ .connected := by
  rcases h with rfl | ⟨m, rfl⟩
  · by_cases hconnecting : ui.status = .connecting <;> simp [VpnState.onEvent, hconnecting]
  · simp [VpnState.onEvent]

/-- A payload that neither makes the status `connected` nor takes it off leaves it alone. -/
theorem onEvent_same (ui : VpnState κ) {x : Event} (hrunning : x ≠ .status (some true))
    (h : ¬ TakesOff x) : (ui.onEvent x).status = ui.status := by
  rcases onEvent_status ui hrunning with ⟨-, m, rfl⟩ | ⟨-, hsame | ⟨hnot, hdis⟩⟩
  · exact absurd (.inr ⟨m, rfl⟩) h
  · exact hsame
  · cases x with
    | error m => exact absurd (.inr ⟨m, rfl⟩) h
    | log line => simp only [VpnState.onEvent]
    | status running =>
      have hfalse : running ≠ some false := by
        rintro rfl
        exact h (.inl rfl)
      have htrue : running ≠ some true := by
        rintro rfl
        exact hrunning rfl
      simp [VpnState.onEvent, htrue, hfalse]

/-- A payload reaches the listener. -/
theorem HostInv.hear {s : Host κ} (h : HostInv s) (hstage : s.stage = .listening) {event : Event}
    {rest : List Event} (hevents : s.app.events = event :: rest) :
    HostInv { s with app := { s.app with ui := s.app.ui.onEvent event, events := rest } } := by
  have hrunning : s.engine = .running → (TakesOff event → .status (some true) ∈ rest) ∧
      FollowedBy TakesOff (.status (some true)) rest := by
    intro hr
    have := h.running hr
    rwa [hevents] at this
  have hstopped : s.engine ≠ .running → (s.engine = .ended ∧ Due s.app) ∨
      (((event = .status (some true) → .status (some false) ∈ rest) ∧
        FollowedBy (· = .status (some true)) (.status (some false)) rest) ∧
      (s.app.ui.status = .connected → .status (some false) ∈ event :: rest)) := by
    intro hr
    have := h.stopped hr
    rwa [hevents] at this
  by_cases htrue : event = .status (some true)
  · constructor
    · exact fun hr => (hrunning hr).2
    · intro hr
      exact (hstopped hr).imp_right fun hqueued => ⟨hqueued.1.2, fun _ => hqueued.1.1 htrue⟩
    · exact fun _ => hstage
    · exact fun _ => .inl (by rw [htrue]; rfl)
  · by_cases htakes : TakesOff event
    · have hnot := onEvent_takesOff s.app.ui htakes
      constructor
      · exact fun hr => (hrunning hr).2
      · exact fun hr => (hstopped hr).imp_right fun hqueued =>
          ⟨hqueued.1.2, fun hc => absurd hc hnot⟩
      · exact fun hc => absurd hc hnot
      · exact fun hr => .inr (.inl ((hrunning hr).1 htakes))
    · have hsame := onEvent_same s.app.ui htrue htakes
      constructor
      · exact fun hr => (hrunning hr).2
      · intro hr
        refine (hstopped hr).imp_right fun hqueued => ⟨hqueued.1.2, fun hc => ?_⟩
        have hmem := hqueued.2 (hsame ▸ hc)
        rw [List.mem_cons] at hmem
        rcases hmem with hhead | hmem
        · exact absurd (.inl hhead.symm) htakes
        · exact hmem
      · exact fun _ => hstage
      · intro hr
        simp only [hsame]
        rcases h.heard hr with hc | hqueued | hunder | hstage'
        · exact .inl hc
        · rw [hevents, List.mem_cons] at hqueued
          exact .inr (.inl (hqueued.resolve_left fun heq => htrue heq.symm))
        · exact .inr (.inr (.inl hunder))
        · exact .inr (.inr (.inr hstage'))

/-- A payload is dropped. -/
theorem HostInv.drop {s : Host κ} (h : HostInv s) (hstage : s.stage ≠ .listening) {event : Event}
    {rest : List Event} (hevents : s.app.events = event :: rest) :
    HostInv { s with app := { s.app with events := rest } } := by
  have hnot : s.app.ui.status ≠ .connected := fun hc => hstage (h.listening hc)
  constructor
  · intro hr
    have := h.running hr
    rw [hevents] at this
    exact this.2
  · intro hr
    refine (h.stopped hr).imp_right fun hqueued => ?_
    rw [hevents] at hqueued
    exact ⟨hqueued.1.2, fun hc => absurd hc hnot⟩
  · exact fun hc => absurd hc hnot
  · exact fun _ => .inr (.inr (.inr hstage))

theorem HostInv.deliver {s s' : Host κ} (h : HostInv s)
    (hstep : s.step encode (.app .deliver) = some s') : HostInv s' := by
  simp only [Host.step, Host.appStep] at hstep
  cases hevents : s.app.events with
  | nil => simp [App.step, hevents] at hstep
  | cons event rest =>
    split at hstep
    · rename_i hstage
      simp only [App.step, hevents, Option.map_some, Option.some.injEq] at hstep
      subst hstep
      exact h.hear hstage hevents
    · rename_i hstage
      simp only [hevents, Option.some.injEq] at hstep
      subst hstep
      exact h.drop hstage hevents

/-- `stopTunnel` has run: its payload is the last one, and there is no engine. -/
theorem HostInv.stopped_now {s : Host κ} {app : App κ} (h : HostInv s)
    (before : List Event) (hstatus : app.ui.status = s.app.ui.status)
    (hevents : app.events = before ++ [.status (some false)]) :
    HostInv { s with app := app, engine := .absent } := by
  constructor
  · exact fun hr => nomatch hr
  · intro _
    refine .inr ?_
    simp only [hevents]
    exact ⟨followedBy_concat (by simp) before, fun _ => by simp⟩
  · exact fun hc => h.listening (hstatus ▸ hc)
  · exact fun hr => nomatch hr

theorem HostInv.callback {s s' : Host κ} (h : HostInv s) {a : Attempt}
    (hstep : s.step encode (.app (.onStartCommand a)) = some s') : HostInv s' := by
  simp only [Host.step, Host.appStep] at hstep
  cases hintents : s.app.intents with
  | nil => simp [hintents] at hstep
  | cons intent rest =>
    simp only [hintents, App.step, Option.ite_none_right_eq_some, Option.map_some,
      Option.some.injEq] at hstep
    obtain ⟨hpossible, rfl⟩ := hstep
    cases intent with
    | stop => exact h.stopped_now s.app.events rfl rfl
    | start extras =>
      have hend := tunnelEnd_start s.engine extras a
      simp only [onStartCommand]
      generalize engineAfter s.engine (.start extras) a = engine at hend
      cases hend with
      | nothing ho =>
        have hdue :
            Due (({ s.app with intents := rest } : App κ).served (startTunnel extras a)) := by
          right
          simp [App.served, ho, stopSelfSafely]
        have hevents : s.app.events ++ (startTunnel extras a).events = s.app.events := by
          simp [ho, stopSelfSafely]
        constructor
        · intro hr
          simpa only [App.served, hevents] using h.running hr
        · intro hr
          rcases h.stopped hr with ⟨hended, -⟩ | hqueued
          · exact .inl ⟨hended, hdue⟩
          · refine .inr ?_
            simpa only [App.served, hevents] using hqueued
        · exact h.listening
        · exact fun _ => .inr (.inr (.inl (.inl hdue)))
      | stopped before _ hevents =>
        refine h.stopped_now (s.app.events ++ before) rfl ?_
        simp [App.served, hevents]
      | running hevents =>
        -- the queue ends with the payload of the new engine
        have hqueue :
            (({ s.app with intents := rest } : App κ).served (startTunnel extras a)).events =
            s.app.events ++ [.status (some true)] := by
          simp [App.served, hevents]
        constructor
        · intro _
          simp only [hqueue]
          exact followedBy_concat (by simp [TakesOff]) _
        · exact fun hr => absurd rfl hr
        · exact h.listening
        · intro _
          simp only [hqueue]
          exact .inr (.inl (by simp))

theorem HostInv.destroy {s s' : Host κ} (h : HostInv s)
    (hstep : s.step encode (.app .onDestroy) = some s') : HostInv s' := by
  simp only [Host.step, Host.appStep, App.step, Option.map_eq_some_iff,
    Option.ite_none_right_eq_some, Option.some.injEq] at hstep
  obtain ⟨app, ⟨-, rfl⟩, rfl⟩ := hstep
  exact h.stopped_now s.app.events rfl rfl

theorem HostInv.next {s s' : Host κ} {a : HostAct κ} (h : HostInv s)
    (hhears : Hears encode s a) (hstep : s.step encode a = some s') : HostInv s' := by
  cases a with
  | app a =>
    by_cases hquiet : quiet a = true
    · exact h.own hquiet hhears hstep
    · cases a with
      | deliver => exact h.deliver hstep
      | onStartCommand attempt => exact h.callback hstep
      | onDestroy => exact h.destroy hstep
      | _ => exact absurd rfl hquiet
  | attach =>
    simp only [Host.step, Option.ite_none_right_eq_some, Option.some.injEq] at hstep
    obtain ⟨hstage, rfl⟩ := hstep
    refine ⟨h.running, h.stopped, ?_, fun _ => .inr (.inr (.inr (by simp)))⟩
    intro hc
    have := h.listening hc
    rw [hstage] at this
    cases this
  | load saved =>
    simp only [Host.step, Option.ite_none_right_eq_some, Option.some.injEq] at hstep
    obtain ⟨hstage, rfl⟩ := hstep
    have hstatus : (bootstrapLoad s.app.ui saved).status = s.app.ui.status := by
      rcases saved with e | _ | config <;> rfl
    have hnot : s.app.ui.status ≠ .connected := by
      intro hc
      have := h.listening hc
      rw [hstage] at this
      cases this
    refine ⟨h.running, ?_, ?_, fun _ => .inr (.inr (.inr (by simp)))⟩
    · intro hr
      simp only [hstatus]
      exact h.stopped hr
    · exact fun hc => absurd (hstatus ▸ hc) hnot
  | listen =>
    have hheard := hhears.silent .listen s' hstep
    simp only [Host.step, Option.ite_none_right_eq_some, Option.some.injEq] at hstep
    obtain ⟨-, rfl⟩ := hstep
    exact ⟨h.running, h.stopped, fun _ => rfl, fun hr => .inr (hheard hr)⟩
  | detach =>
    simp only [Host.step, Option.ite_none_left_eq_some, Option.some.injEq] at hstep
    obtain ⟨-, rfl⟩ := hstep
    refine ⟨h.running, ?_, (fun hc => nomatch hc), fun _ => .inr (.inr (.inr (by simp)))⟩
    exact fun hr => (h.stopped hr).imp_right fun hqueued => ⟨hqueued.1, fun hc => nomatch hc⟩
  | engineEnds =>
    have hends := hhears.ends rfl
    simp only [Host.step, Option.ite_none_right_eq_some, Option.some.injEq] at hstep
    obtain ⟨hrunning, rfl⟩ := hstep
    refine ⟨(fun hr => nomatch hr), ?_, h.listening, (fun hr => nomatch hr)⟩
    intro _
    rcases hends with hdue | ⟨hnot, hnone⟩
    · exact .inl ⟨rfl, hdue⟩
    · refine .inr ⟨followedBy_of_none ?_, fun hc => absurd hc hnot⟩
      rintro x hx rfl
      exact hnone hx

/-- **Does the UI converge to the native state?** In every run of the process, with controllers that
attach and detach at any moment: if no controller begins to listen (or shows something else for a
reason of its own) while an engine runs whose payload is gone with nothing under way, and no engine
ends without a word, then whenever nothing is left to happen the status is `connected` exactly where
the service has a running engine. -/
theorem attached_ui_converges (as : List (HostAct κ))
    (hhears : AllSteps (Host.step encode) (Hears encode) {} as) :
    AllStates (Host.step encode) Converges {} as := by
  have hinv : AllStates (Host.step encode) HostInv ({} : Host κ) as :=
    AllStates.of_guarded (fun s a s' h hok hs => h.next hok hs) hostInv_start hhears
  exact hinv.mono fun s h => h.converges

/-- `Hears`, where the silent steps of a run find no engine running, or its payload still queued. -/
def hearsCheck (s : Host κ) : HostAct κ → Bool
  | .listen | .app (.connect _) | .app (.resume _) | .app (.resumeStop _) =>
    s.engine != .running || s.app.events.contains (.status (some true))
  | .engineEnds => false
  | _ => true

theorem hears_of_check (s : Host κ) (a : HostAct κ) (h : hearsCheck s a = true) :
    Hears encode s a := by
  constructor
  · intro hsilent s' hstep
    have hcheck : s.engine = .running → .status (some true) ∈ s.app.events := by
      intro hr
      cases hsilent <;> simpa [hearsCheck, hr] using h
    have hsame : s'.engine = s.engine ∧ s'.app.events = s.app.events := by
      cases hsilent with
      | listen =>
        simp only [Host.step, Option.ite_none_right_eq_some, Option.some.injEq] at hstep
        obtain ⟨-, rfl⟩ := hstep
        exact ⟨rfl, rfl⟩
      | noConfig | refused | resumeStop =>
        obtain ⟨app, happ, rfl⟩ := quiet_app rfl hstep
        exact ⟨rfl, (quiet_step happ rfl).1⟩
    intro hr
    rw [hsame.2]
    exact .inl (hcheck (hsame.1 ▸ hr))
  · rintro rfl
    cases h

/-- A controller listens before the user connects, and the service brings an engine up. -/
def engineComesUp : List (HostAct String) :=
  [.attach, .load (.ok (some "\x7b\x7d")), .listen, .app (.permit true), .app (.connect 0),
    .app (.control 0 none), .app (.resume 0), .app (.control 0 none), .app (.resume 0),
    .app (.onStartCommand ⟨true, true, .returns 0⟩)]

/-- The UI goes and comes again. -/
def reattach : List (HostAct String) := [.detach, .attach, .load (.ok (some "\x7b\x7d")), .listen]

/-- The general statement at a controller that is there in time for the payload. -/
theorem reattached_in_time_converges :
    ∃ s, run (Host.step id) {} (engineComesUp ++ reattach ++ [.app .deliver]) = some s ∧
      Quiescent s ∧ (s.app.ui.status = .connected ↔ s.engine = .running) := by
  obtain ⟨s, hrun, hquiet⟩ : ∃ s,
      run (Host.step id) {} (engineComesUp ++ reattach ++ [.app .deliver]) = some s ∧ Quiescent s :=
    ⟨_, rfl, rfl, rfl, rfl, rfl, by rintro (_ | i) <;> simp [disposed], fun _ => rfl⟩
  exact ⟨s, hrun, hquiet,
    (attached_ui_converges _ (AllSteps.of_check hears_of_check (by decide))).last hrun hquiet⟩

/-- The payload has gone to the controller before: the new one says `disconnected` for good, over a
running engine. -/
theorem reattached_too_late_diverges :
    ∃ s, run (Host.step id) {} (engineComesUp ++ [.app .deliver] ++ reattach) = some s ∧
      Quiescent s ∧ s.engine = .running ∧ s.app.ui.status = .disconnected ∧ ¬ Converges s := by
  obtain ⟨s, hrun, hquiet, hengine, hstatus⟩ : ∃ s,
      run (Host.step id) {} (engineComesUp ++ [.app .deliver] ++ reattach) = some s ∧
      Quiescent s ∧ s.engine = .running ∧ s.app.ui.status = .disconnected :=
    ⟨_, rfl, ⟨rfl, rfl, rfl, rfl, fun _ => .inl rfl, fun _ => rfl⟩, rfl, rfl⟩
  refine ⟨s, hrun, hquiet, hengine, hstatus, ?_⟩
  intro h
  have := (h hquiet).mpr hengine
  rw [hstatus] at this
  cases this

end FfVpn.Analysis.UiConvergence
