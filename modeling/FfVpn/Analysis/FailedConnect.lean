import FfVpn.Model.Controller

/-!
# Where a failed connection attempt leaves the UI

After `connect()` the status is `connecting`, and the listener does not let a `running: false` end
the handshake. So what a failing `startTunnel` tells the UI by a status payload alone is lost on it
(`Stuck`), and only an error payload, a `disconnect()` or the refusal of a call moves it on
(`Reports`, `Settled`). `startTunnel` emits an error payload in its `catch` block and nowhere else.
-/

set_option autoImplicit false

namespace FfVpn.Analysis.FailedConnect

open FfVpn.Library.Transition FfVpn.Model.Service FfVpn.Model.Controller

variable {κ : Type} {encode : κ → String}

/-- An error payload is on its way to the listener. -/
def HasError (events : List Event) : Prop := ∃ m, .error m ∈ events

/-- If the step is a `startTunnel`, it ends without a running engine. -/
def EndsWithoutEngine (s : App κ) (a : AppAct κ) : Prop :=
  ∀ attempt extras rest, a = .onStartCommand attempt → s.intents = .start extras :: rest →
    attempt.succeeds extras = false

/-- The step is one of those after which the UI does not wait: a `disconnect()`, at its call or
after its await, the refusal of a method call of `connect()`, or a `startTunnel` that ends in its
`catch` block. -/
inductive Reports (s : App κ) : AppAct κ → Prop
  | disconnect (i : Nat) : Reports s (.disconnect i)
  | resumeStop (i : Nat) : Reports s (.resumeStop i)
  | refusedRequest {i : Nat} {config message : String}
    (h : s.connects i = .requestReply config (some message)) : Reports s (.resume i)
  | refusedConnect {i : Nat} {message : String}
    (h : s.connects i = .connectReply (some message)) : Reports s (.resume i)
  | caught {attempt : Attempt} {extras : StartExtras} {rest : List Intent}
    (hintent : s.intents = .start extras :: rest) (h : attempt.caught extras = true) :
    Reports s (.onStartCommand attempt)

/-- No payload says that an engine runs. -/
def NoEngine (s : App κ) : Prop := .status (some true) ∉ s.events

/-- The UI waits, and nothing under way will change that. -/
def Stuck (s : App κ) : Prop := s.ui.status = .connecting ∧ ¬ HasError s.events ∧ NoEngine s

/-- The UI does not wait, or an error payload is on its way. -/
def Settled (s : App κ) : Prop :=
  ((s.ui.status ≠ .connecting ∧ s.ui.status ≠ .connected) ∨ HasError s.events) ∧ NoEngine s

/-- The status is `disconnecting` only during a `disconnect()`. -/
def Disconnecting (s : App κ) : Prop :=
  s.ui.status = .disconnecting → ∃ i, (s.disconnects i).inFlight = true

/-- The status shows that no attempt is under way. -/
def Resting (s : App κ) : Prop :=
  s.ui.status = .disconnecting ∨ s.ui.status = .disconnected ∨ s.ui.status = .error

/-- What a step other than a `connect()` and the delivery of a payload does to the payloads and to
the status. -/
structure Moves (s s' : App κ) (a : AppAct κ) (more : List Event) : Prop where
  events : s'.events = s.events ++ more
  status : s'.ui.status = s.ui.status ∨ Reports s a
  reported : Reports s a → Resting s' ∨ HasError more
  error : HasError more → Reports s a
  engine : EndsWithoutEngine s a → .status (some true) ∉ more

theorem Moves.quiet {s s' : App κ} {a : AppAct κ} (hevents : s'.events = s.events)
    (hstatus : s'.ui.status = s.ui.status) (hreports : ¬ Reports s a) : Moves s s' a [] := by
  constructor
  · simpa using hevents
  · exact .inl hstatus
  · exact fun h => absurd h hreports
  · rintro ⟨m, hm⟩
    cases hm
  · intro _ hm
    cases hm

theorem Moves.resting {s s' : App κ} {a : AppAct κ} (hevents : s'.events = s.events)
    (hreports : Reports s a) (hresting : Resting s') : Moves s s' a [] := by
  constructor
  · simpa using hevents
  · exact .inr hreports
  · exact fun _ => .inl hresting
  · exact fun _ => hreports
  · intro _ hm
    cases hm

/-- A callback of the service that is not a `startTunnel`. -/
theorem Moves.stopped {s s' : App κ} {a : AppAct κ}
    (hevents : s'.events = s.events ++ stopTunnel.events) (hstatus : s'.ui.status = s.ui.status)
    (hreports : ¬ Reports s a) : Moves s s' a stopTunnel.events := by
  constructor
  · exact hevents
  · exact .inl hstatus
  · exact fun h => absurd h hreports
  · rintro ⟨m, hm⟩
    simp [stopTunnel] at hm
  · intro _ hm
    simp [stopTunnel] at hm

/-! What the method calls and the callbacks of the dialogs do to the status, the payloads and the
`disconnect()` calls. -/

/-- The step leaves the status, the payloads and the `disconnect()` calls alone. -/
structure Unseen (s s' : App κ) : Prop where
  status : s'.ui.status = s.ui.status
  events : s'.events = s.events
  disconnects : s'.disconnects = s.disconnects

theorem control_step {s s' : App κ} {i : Nat} {refused : Option String}
    (h : s.step encode (.control i refused) = some s') : Unseen s s' := by
  cases hc : s.connects i <;> simp only [App.step, hc, reduceCtorEq] at h
  case hasPermission config =>
    obtain rfl := Option.some.inj h
    exact ⟨rfl, rfl, rfl⟩
  case requestPermission config =>
    split at h <;> obtain rfl := Option.some.inj h <;> exact ⟨rfl, rfl, rfl⟩
  case connect args =>
    split at h
    · cases refused <;> obtain rfl := Option.some.inj h <;> exact ⟨rfl, rfl, rfl⟩
    · obtain rfl := Option.some.inj h
      exact ⟨rfl, rfl, rfl⟩

theorem dialog_step {s s' : App κ} {granted : Bool}
    (h : s.step encode (.dialog granted) = some s') : Unseen s s' := by
  simp only [App.step] at h
  split at h
  · cases h
  · split at h
    · obtain rfl := Option.some.inj h
      exact ⟨rfl, rfl, rfl⟩
    · split at h <;> obtain rfl := Option.some.inj h <;> exact ⟨rfl, rfl, rfl⟩
    · cases h

/-- A `connect()` that goes on after an await is not seen, unless the call it awaited was
refused. -/
theorem resume_step {s s' : App κ} {i : Nat} (h : s.step encode (.resume i) = some s') :
    (Unseen s s' ∧ ¬ Reports s (.resume i)) ∨
      (Reports s (.resume i) ∧ s'.ui.status = .error ∧ s'.events = s.events ∧
        s'.disconnects = s.disconnects) := by
  simp only [App.step] at h
  split at h
  · have hreports : ¬ Reports s (.resume i) := by
      rintro ⟨⟩ <;> simp_all
    split at h <;> obtain rfl := Option.some.inj h <;> exact .inl ⟨⟨rfl, rfl, rfl⟩, hreports⟩
  · have hreports : ¬ Reports s (.resume i) := by
      rintro ⟨⟩ <;> simp_all
    obtain rfl := Option.some.inj h
    exact .inl ⟨⟨rfl, rfl, rfl⟩, hreports⟩
  · have hreports : ¬ Reports s (.resume i) := by
      rintro ⟨⟩ <;> simp_all
    obtain rfl := Option.some.inj h
    exact .inl ⟨⟨rfl, rfl, rfl⟩, hreports⟩
  · rename_i hc
    obtain rfl := Option.some.inj h
    exact .inr ⟨.refusedRequest hc, rfl, rfl, rfl⟩
  · rename_i hc
    obtain rfl := Option.some.inj h
    exact .inr ⟨.refusedConnect hc, rfl, rfl, rfl⟩
  · cases h

theorem controlStop_step {s s' : App κ} {i : Nat} {refused : Option String}
    (h : s.step encode (.controlStop i refused) = some s') :
    s'.ui = s.ui ∧ s'.events = s.events ∧
      ∃ d : Disconnect, d.inFlight = true ∧ s'.disconnects = Function.update s.disconnects i d := by
  simp only [App.step] at h
  split at h
  · cases refused <;> obtain rfl := Option.some.inj h <;> exact ⟨rfl, rfl, _, rfl, rfl⟩
  · cases h

theorem resumeStop_step {s s' : App κ} {i : Nat}
    (h : s.step encode (.resumeStop i) = some s') :
    s'.events = s.events ∧ (s'.ui.status = .disconnected ∨ s'.ui.status = .error) := by
  simp only [App.step] at h
  split at h
  · obtain rfl := Option.some.inj h
    exact ⟨rfl, .inl rfl⟩
  · obtain rfl := Option.some.inj h
    exact ⟨rfl, .inr rfl⟩
  · cases h

/-- Every step other than a `connect()` and the delivery of a payload is such a move. -/
theorem moves_of_step {s s' : App κ} {a : AppAct κ} (h : s.step encode a = some s')
    (hconnect : ∀ i, a ≠ .connect i) (hdeliver : a ≠ .deliver) : ∃ more, Moves s s' a more := by
  cases a with
  | connect i => exact absurd rfl (hconnect i)
  | deliver => exact absurd rfl hdeliver
  | disconnect i =>
    simp only [App.step, Option.ite_none_right_eq_some, Option.some.injEq] at h
    obtain ⟨-, rfl⟩ := h
    exact ⟨[], .resting rfl (.disconnect i) (.inl rfl)⟩
  | importConfig _ | setCountry _ | setAllowedPackages _ | setDisallowedPackages _ | permit _
  | systemStop =>
    simp only [App.step, Option.some.injEq] at h
    subst h
    exact ⟨[], .quiet rfl rfl (by rintro ⟨⟩)⟩
  | control i refused =>
    have hunseen := control_step h
    exact ⟨[], .quiet hunseen.events hunseen.status (by rintro ⟨⟩)⟩
  | dialog granted =>
    have hunseen := dialog_step h
    exact ⟨[], .quiet hunseen.events hunseen.status (by rintro ⟨⟩)⟩
  | resume i =>
    rcases resume_step h with ⟨hunseen, hreports⟩ | ⟨hreports, hstatus, hevents, -⟩
    · exact ⟨[], .quiet hunseen.events hunseen.status hreports⟩
    · exact ⟨[], .resting hevents hreports (.inr (.inr hstatus))⟩
  | controlStop i refused =>
    obtain ⟨hui, hevents, -⟩ := controlStop_step h
    exact ⟨[], .quiet hevents (congrArg _ hui) (by rintro ⟨⟩)⟩
  | resumeStop i =>
    obtain ⟨hevents, hstatus⟩ := resumeStop_step h
    exact ⟨[], .resting hevents (.resumeStop i) (.inr hstatus)⟩
  | onDestroy =>
    simp only [App.step, Option.ite_none_right_eq_some, Option.some.injEq] at h
    obtain ⟨-, rfl⟩ := h
    exact ⟨_, .stopped rfl rfl (by rintro ⟨⟩)⟩
  | onStartCommand attempt =>
    cases hintents : s.intents with
    | nil => simp [App.step, hintents] at h
    | cons intent rest =>
      simp only [App.step, hintents, Option.some.injEq] at h
      subst h
      cases intent with
      | stop =>
        refine ⟨_, .stopped rfl rfl ?_⟩
        rintro ⟨⟩
        simp_all
      | start extras =>
        refine ⟨(startTunnel extras attempt).events, rfl, .inl rfl, ?_, ?_, ?_⟩
        · rintro ⟨⟩
          rename_i hintent hcaught
          rw [hintents] at hintent
          obtain ⟨rfl, -⟩ := by simpa using hintent
          exact .inr ((error_mem_startTunnel _ _).mpr hcaught)
        · intro herror
          exact .caught hintents ((error_mem_startTunnel _ _).mp herror)
        · intro hfails hrunning
          have hsucceeds := (running_mem_startTunnel extras attempt).mp hrunning
          rw [hfails attempt extras rest rfl hintents] at hsucceeds
          cases hsucceeds

theorem deliver_step {s s' : App κ} (h : s.step encode .deliver = some s') :
    ∃ event rest, s.events = event :: rest ∧ s'.events = rest ∧
      s'.ui = s.ui.onEvent event ∧ s'.disconnects = s.disconnects := by
  cases hevents : s.events with
  | nil => simp [App.step, hevents] at h
  | cons event rest =>
    simp only [App.step, hevents, Option.some.injEq] at h
    subst h
    exact ⟨event, rest, rfl, rfl, rfl, rfl⟩

/-- The status after a payload that does not say that an engine runs: an error rests it, and
nothing else moves it while it is `connecting`. -/
theorem onEvent_status (ui : VpnState κ) {event : Event} (h : event ≠ .status (some true)) :
    (ui.onEvent event).status = .error ∧ (∃ m, event = .error m) ∨
      (∀ m, event ≠ .error m) ∧ ((ui.onEvent event).status = ui.status ∨
        (ui.status ≠ .connecting ∧ (ui.onEvent event).status = .disconnected)) := by
  cases event with
  | error m => exact .inl ⟨rfl, m, rfl⟩
  | log line => exact .inr ⟨by simp, .inl (by simp only [VpnState.onEvent])⟩
  | status running =>
    refine .inr ⟨by simp, ?_⟩
    have hnot : running ≠ some true := by
      rintro rfl
      exact h rfl
    by_cases hfalse : running = some false ∧ ui.status ≠ .connecting
    · obtain ⟨rfl, hne⟩ := hfalse
      exact .inr ⟨hne, by simp [VpnState.onEvent, hne]⟩
    · left
      simp only [VpnState.onEvent, if_neg hnot, if_neg hfalse, Option.getD_none]

theorem connect_step {s s' : App κ} {i : Nat} (h : s.step encode (.connect i) = some s') :
    s'.events = s.events ∧ (s.ui.config ≠ none → s'.ui.status = .connecting) := by
  simp only [App.step] at h
  split at h
  · cases hc : s.ui.config <;> simp only [hc, Option.some.injEq] at h <;> subst h
    · exact ⟨rfl, fun h => absurd rfl h⟩
    · exact ⟨rfl, fun _ => rfl⟩
  · cases h

/-- Only the steps of a `disconnect()` change where one is. -/
theorem disconnects_same {s s' : App κ} {a : AppAct κ} (h : s.step encode a = some s')
    (hcall : ∀ d, a ≠ .disconnect d) (hcontrol : ∀ d r, a ≠ .controlStop d r)
    (hresume : ∀ d, a ≠ .resumeStop d) : s'.disconnects = s.disconnects := by
  cases a with
  | disconnect d => exact absurd rfl (hcall d)
  | controlStop d r => exact absurd rfl (hcontrol d r)
  | resumeStop d => exact absurd rfl (hresume d)
  | importConfig _ | setCountry _ | setAllowedPackages _ | setDisallowedPackages _ | permit _
  | systemStop =>
    obtain rfl := Option.some.inj h
    rfl
  | control i r => exact (control_step h).disconnects
  | dialog granted => exact (dialog_step h).disconnects
  | resume i =>
    rcases resume_step h with ⟨hunseen, -⟩ | ⟨-, -, -, hsame⟩
    · exact hunseen.disconnects
    · exact hsame
  | deliver =>
    obtain ⟨-, -, -, -, -, hsame⟩ := deliver_step h
    exact hsame
  | connect i =>
    simp only [App.step, Option.ite_none_right_eq_some] at h
    obtain ⟨-, h⟩ := h
    split at h <;> obtain rfl := Option.some.inj h <;> rfl
  | onStartCommand attempt =>
    simp only [App.step] at h
    split at h
    · cases h
    · obtain rfl := Option.some.inj h
      rfl
  | onDestroy =>
    simp only [App.step, Option.ite_none_right_eq_some, Option.some.injEq] at h
    obtain ⟨-, rfl⟩ := h
    rfl

/-- While no `startTunnel` succeeds, no payload says that an engine runs. -/
theorem NoEngine.next {s s' : App κ} {a : AppAct κ} (h : NoEngine s)
    (hfails : EndsWithoutEngine s a)
    (hstep : s.step encode a = some s') : NoEngine s' := by
  by_cases hdeliver : a = .deliver
  · subst hdeliver
    obtain ⟨event, rest, hevents, hrest, -, -⟩ := deliver_step hstep
    intro hmem
    rw [hrest] at hmem
    exact h (hevents ▸ List.mem_cons_of_mem _ hmem)
  · by_cases hconnect : ∃ i, a = .connect i
    · obtain ⟨i, rfl⟩ := hconnect
      rw [NoEngine, (connect_step hstep).1]
      exact h
    · obtain ⟨more, hmoves⟩ := moves_of_step hstep (by simpa using hconnect) hdeliver
      intro hmem
      rw [hmoves.events] at hmem
      rcases List.mem_append.mp hmem with hmem | hmem
      · exact h hmem
      · exact hmoves.engine hfails hmem

/-- Without a report the UI goes on waiting. -/
theorem Stuck.next {s s' : App κ} {a : AppAct κ} (h : Stuck s) (hconnect : ∀ i, a ≠ .connect i)
    (hfails : EndsWithoutEngine s a) (hreports : ¬ Reports s a)
    (hstep : s.step encode a = some s') : Stuck s' := by
  obtain ⟨hstatus, herror, hengine⟩ := h
  have hengine' := hengine.next hfails hstep
  by_cases hdeliver : a = .deliver
  · subst hdeliver
    obtain ⟨event, rest, hevents, hrest, hui, -⟩ := deliver_step hstep
    have hrunning : event ≠ .status (some true) := by
      rintro rfl
      exact hengine (by simp [hevents])
    refine ⟨?_, ?_, hengine'⟩
    · rw [hui]
      rcases onEvent_status s.ui hrunning with ⟨-, m, rfl⟩ | ⟨-, hsame | ⟨hnot, -⟩⟩
      · exact absurd ⟨m, by simp [hevents]⟩ herror
      · rw [hsame, hstatus]
      · exact absurd hstatus hnot
    · rintro ⟨m, hm⟩
      rw [hrest] at hm
      exact herror ⟨m, hevents ▸ List.mem_cons_of_mem _ hm⟩
  · obtain ⟨more, hmoves⟩ := moves_of_step hstep hconnect hdeliver
    refine ⟨?_, ?_, hengine'⟩
    · rcases hmoves.status with hsame | hrep
      · rw [hsame, hstatus]
      · exact absurd hrep hreports
    · rintro ⟨m, hm⟩
      rw [hmoves.events] at hm
      rcases List.mem_append.mp hm with hm | hm
      · exact herror ⟨m, hm⟩
      · exact hreports (hmoves.error ⟨m, hm⟩)

/-- A resting status is neither of the two the claim excludes. -/
theorem Resting.ne {s : App κ} (h : Resting s) :
    s.ui.status ≠ .connecting ∧ s.ui.status ≠ .connected := by
  rcases h with h | h | h <;> simp [h]

theorem settled_of_reports {s s' : App κ} {a : AppAct κ} (h : NoEngine s)
    (hfails : EndsWithoutEngine s a) (hreports : Reports s a)
    (hstep : s.step encode a = some s') : Settled s' := by
  have hconnect : ∀ i, a ≠ .connect i := by
    rintro i rfl
    cases hreports
  have hdeliver : a ≠ .deliver := by
    rintro rfl
    cases hreports
  obtain ⟨more, hmoves⟩ := moves_of_step hstep hconnect hdeliver
  refine ⟨?_, h.next hfails hstep⟩
  rcases hmoves.reported hreports with hrest | ⟨m, hm⟩
  · exact .inl hrest.ne
  · exact .inr ⟨m, by rw [hmoves.events]; exact List.mem_append_right _ hm⟩

theorem Settled.next {s s' : App κ} {a : AppAct κ} (h : Settled s) (hconnect : ∀ i, a ≠ .connect i)
    (hfails : EndsWithoutEngine s a) (hstep : s.step encode a = some s') : Settled s' := by
  obtain ⟨hsettled, hengine⟩ := h
  refine ⟨?_, hengine.next hfails hstep⟩
  by_cases hdeliver : a = .deliver
  · subst hdeliver
    obtain ⟨event, rest, hevents, hrest, hui, -⟩ := deliver_step hstep
    have hrunning : event ≠ .status (some true) := by
      rintro rfl
      exact hengine (by simp [hevents])
    rw [hui, hrest]
    rcases onEvent_status s.ui hrunning with ⟨herr, -⟩ | ⟨hnoerr, hmoved⟩
    · exact .inl (by simp [herr])
    · rcases hsettled with hstatus | ⟨m, hm⟩
      · left
        rcases hmoved with hsame | ⟨-, hdis⟩
        · rwa [hsame]
        · simp [hdis]
      · right
        rw [hevents, List.mem_cons] at hm
        rcases hm with rfl | hm
        · exact absurd rfl (hnoerr m)
        · exact ⟨m, hm⟩
  · obtain ⟨more, hmoves⟩ := moves_of_step hstep hconnect hdeliver
    rcases hsettled with hstatus | ⟨m, hm⟩
    · by_cases hreports : Reports s a
      · rcases hmoves.reported hreports with hrest | ⟨m, hm⟩
        · exact .inl hrest.ne
        · exact .inr ⟨m, by rw [hmoves.events]; exact List.mem_append_right _ hm⟩
      · rcases hmoves.status with hsame | hrep
        · left
          rwa [hsame]
        · exact absurd hrep hreports
    · exact .inr ⟨m, by rw [hmoves.events]; exact List.mem_append_left _ hm⟩

/-- A step that leaves the status and the `disconnect()` calls alone, or moves the status off
`disconnecting`, keeps `Disconnecting`. -/
theorem Disconnecting.keep {s s' : App κ} (h : Disconnecting s)
    (hstatus : s'.ui.status = s.ui.status ∨ s'.ui.status ≠ .disconnecting)
    (hcalls : s'.disconnects = s.disconnects) : Disconnecting s' := by
  intro hdis
  rw [hcalls]
  rcases hstatus with hsame | hnot
  · exact h (hsame ▸ hdis)
  · exact absurd hdis hnot

/-- The status is `disconnecting` only during a `disconnect()`, whatever happens. -/
theorem Disconnecting.next {s s' : App κ} {a : AppAct κ} (h : Disconnecting s)
    (hstep : s.step encode a = some s') : Disconnecting s' := by
  cases a with
  | connect i =>
    simp only [App.step] at hstep
    split at hstep
    · cases hc : s.ui.config <;> simp only [hc, Option.some.injEq] at hstep <;> subst hstep
      · exact h.keep (.inr (by simp [App.setConnect, VpnState.noConfig])) rfl
      · exact h.keep (.inr (by simp [App.setConnect, VpnState.beginConnect])) rfl
    · cases hstep
  | disconnect i =>
    simp only [App.step, Option.ite_none_right_eq_some, Option.some.injEq] at hstep
    obtain ⟨-, rfl⟩ := hstep
    exact fun _ => ⟨i, by simp [App.setDisconnect, Disconnect.inFlight]⟩
  | importConfig _ | setCountry _ | setAllowedPackages _ | setDisallowedPackages _ | permit _
  | systemStop =>
    simp only [App.step, Option.some.injEq] at hstep
    subst hstep
    exact h.keep (.inl rfl) rfl
  | control i refused =>
    have hunseen := control_step hstep
    exact h.keep (.inl hunseen.status) hunseen.disconnects
  | dialog granted =>
    have hunseen := dialog_step hstep
    exact h.keep (.inl hunseen.status) hunseen.disconnects
  | resume i =>
    rcases resume_step hstep with ⟨hunseen, -⟩ | ⟨-, hstatus, -, hcalls⟩
    · exact h.keep (.inl hunseen.status) hunseen.disconnects
    · exact h.keep (.inr (by simp [hstatus])) hcalls
  | controlStop i refused =>
    obtain ⟨hui, -, d, hd, hcalls⟩ := controlStop_step hstep
    intro hdis
    obtain ⟨j, hj⟩ := h (hui ▸ hdis)
    refine ⟨j, ?_⟩
    rw [hcalls]
    by_cases hji : j = i
    · subst hji
      simpa using hd
    · simpa [hji] using hj
  | resumeStop i =>
    obtain ⟨-, hstatus⟩ := resumeStop_step hstep
    intro hdis
    simp [hdis] at hstatus
  | onDestroy =>
    simp only [App.step, Option.ite_none_right_eq_some, Option.some.injEq] at hstep
    obtain ⟨-, rfl⟩ := hstep
    exact h.keep (.inl rfl) rfl
  | onStartCommand attempt =>
    cases hintents : s.intents with
    | nil => simp [App.step, hintents] at hstep
    | cons intent rest =>
      simp only [App.step, hintents, Option.some.injEq] at hstep
      subst hstep
      exact h.keep (.inl rfl) rfl
  | deliver =>
    obtain ⟨event, rest, -, -, hui, hcalls⟩ := deliver_step hstep
    refine h.keep ?_ hcalls
    rw [hui]
    by_cases hrunning : event = .status (some true)
    · subst hrunning
      exact .inr (by simp [VpnState.onEvent])
    · rcases onEvent_status s.ui hrunning with ⟨herr, -⟩ | ⟨-, hsame | ⟨-, hdis⟩⟩
      · exact .inr (by simp [herr])
      · exact .inl hsame
      · exact .inr (by simp [hdis])

/-- What is settled stays settled along a run without another `connect()`. -/
theorem Settled.run {s c : App κ} {since : List (AppAct κ)} (h : Settled s)
    (honce : ∀ i, .connect i ∉ since)
    (hfails : AllSteps (App.step encode) EndsWithoutEngine s since)
    (hrun : run (App.step encode) s since = some c) : Settled c := by
  induction since generalizing s with
  | nil =>
    obtain rfl : s = c := by simpa using hrun
    exact h
  | cons a since ih =>
    obtain ⟨m, hm, hrest⟩ := run_cons_eq_some.mp hrun
    obtain ⟨hfail, hfails⟩ := hfails m hm
    have hconnect : ∀ i, a ≠ .connect i := by
      rintro i rfl
      exact honce i List.mem_cons_self
    exact ih (h.next hconnect hfail hm) (fun i hi => honce i (List.mem_cons_of_mem _ hi))
      hfails hrest

/-- A run from the moment of a `connect()` that meets no other `connect()` and no running engine:
either no step of it reports and the UI still waits, or the UI has settled. -/
theorem stuck_or_settled {s c : App κ} {since : List (AppAct κ)} (h : Stuck s)
    (honce : ∀ i, .connect i ∉ since)
    (hfails : AllSteps (App.step encode) EndsWithoutEngine s since)
    (hrun : run (App.step encode) s since = some c) :
    (AllSteps (App.step encode) (fun s a => ¬ Reports s a) s since ∧ Stuck c) ∨
      (¬ AllSteps (App.step encode) (fun s a => ¬ Reports s a) s since ∧ Settled c) := by
  induction since generalizing s with
  | nil =>
    obtain rfl : s = c := by simpa using hrun
    exact .inl ⟨trivial, h⟩
  | cons a since ih =>
    obtain ⟨m, hm, hrest⟩ := run_cons_eq_some.mp hrun
    obtain ⟨hfail, hfails⟩ := hfails m hm
    have hconnect : ∀ i, a ≠ .connect i := by
      rintro i rfl
      exact honce i List.mem_cons_self
    have honce' : ∀ i, .connect i ∉ since := fun i hi => honce i (List.mem_cons_of_mem _ hi)
    by_cases hreports : Reports s a
    · right
      refine ⟨fun hall => (hall m hm).1 hreports, ?_⟩
      exact (settled_of_reports h.2.2 hfail hreports hm).run honce' hfails hrest
    · rcases ih (h.next hconnect hfail hreports hm) honce' hfails hrest with
        ⟨hall, hstuck⟩ | ⟨hnot, hsettled⟩
      · left
        refine ⟨?_, hstuck⟩
        intro m' hm'
        obtain rfl : m = m' := by simpa [hm] using hm'
        exact ⟨hreports, hall⟩
      · right
        exact ⟨fun hall => hnot (hall m hm).2, hsettled⟩

/-- **Does a failed attempt leave the UI waiting?** Take any run in which no `startTunnel` ends with
a running engine, up to a state in which every callback has run and every payload is delivered, and
its last `connect()` with a config. Then the status is `error` or `disconnected` exactly where an
error payload was on its way at that call, or a later step reports: a `disconnect()`, a refused
method call, or a `startTunnel` that ends in its `catch` block. -/
theorem failed_connect_settles_iff {s m m' c : App κ} {before since : List (AppAct κ)} {i : Nat}
    (hattached : s.events = []) (hbefore : run (App.step encode) s before = some m)
    (hconfig : m.ui.config ≠ none) (hconnect : m.step encode (.connect i) = some m')
    (hsince : run (App.step encode) m' since = some c) (hlast : ∀ j, .connect j ∉ since)
    (hfails : AllSteps (App.step encode) EndsWithoutEngine s (before ++ .connect i :: since))
    (hquiet : c.Quiescent) :
    (c.ui.status = .error ∨ c.ui.status = .disconnected) ↔
      HasError m.events ∨ ¬ AllSteps (App.step encode) (fun s a => ¬ Reports s a) m' since := by
  rw [AllSteps.append hbefore] at hfails
  obtain ⟨hfailsBefore, hfailsSince⟩ := hfails
  obtain ⟨-, hfailsSince⟩ := hfailsSince m' hconnect
  have hengine : NoEngine m :=
    guarded_last (I := NoEngine) hbefore hfailsBefore (by simp [NoEngine, hattached])
      fun s a s' h hok hs => h.next hok hs
  obtain ⟨hevents, hstatus⟩ := connect_step hconnect
  have hconnecting := hstatus hconfig
  have hdisconnecting : Disconnecting c := by
    have h0 : Disconnecting m' := by
      intro h
      rw [hconnecting] at h
      cases h
    exact (AllStates.of_invariant (fun s a s' h hs => h.next hs) since h0).last hsince
  -- a settled state in which nothing is left to happen
  have hrest : Settled c → (c.ui.status = .error ∨ c.ui.status = .disconnected) := by
    rintro ⟨hstatus | ⟨e, he⟩, -⟩
    · cases hc : c.ui.status with
      | error => exact .inl rfl
      | disconnected => exact .inr rfl
      | connecting => exact absurd hc hstatus.1
      | connected => exact absurd hc hstatus.2
      | disconnecting =>
        obtain ⟨j, hj⟩ := hdisconnecting hc
        rw [hquiet.disconnects j] at hj
        cases hj
    · rw [hquiet.events] at he
      cases he
  by_cases herror : HasError m.events
  · have hsettled : Settled m' := by
      refine ⟨.inr (hevents ▸ herror), ?_⟩
      rw [NoEngine, hevents]
      exact hengine
    simp [herror, hrest (hsettled.run hlast hfailsSince hsince)]
  · have hstuck : Stuck m' := by
      refine ⟨hconnecting, hevents ▸ herror, ?_⟩
      rw [NoEngine, hevents]
      exact hengine
    rcases stuck_or_settled hstuck hlast hfailsSince hsince with
      ⟨hall, hc, -, -⟩ | ⟨hnot, hsettled⟩
    · simp [herror, hall, hc]
    · simp [herror, hnot, hrest hsettled]

/-- `EndsWithoutEngine`, decided. -/
def endsWithoutEngineCheck (s : App κ) : AppAct κ → Bool
  | .onStartCommand attempt => match s.intents with
    | .start extras :: _ => !attempt.succeeds extras
    | _ => true
  | _ => true

theorem endsWithoutEngine_of_check (s : App κ) (a : AppAct κ)
    (h : endsWithoutEngineCheck s a = true) : EndsWithoutEngine s a := by
  rintro attempt extras rest rfl hintents
  simpa [endsWithoutEngineCheck, hintents] using h

/-- A controller with a config, at rest, in an app that has the VPN permission. -/
def ready : App String := { ui := { config := some "\x7b\x7d" }, permitted := true }

/-- The steps from a `connect()` to the intent of the service. -/
def toService : List (AppAct String) := [.control 0 none, .resume 0, .control 0 none, .resume 0]

/-- The general statement at an attempt whose config does not parse in `startTunnel`. -/
theorem thrown_connect_settles :
    ∃ c, run (App.step id) ready (.connect 0 :: toService ++
        [.onStartCommand ⟨true, true, .throwsBefore (some "bad")⟩, .onDestroy, .deliver, .deliver,
          .deliver]) = some c ∧ (c.ui.status = .error ∨ c.ui.status = .disconnected) := by
  have hready : (ready).ui.config ≠ none := by decide
  obtain ⟨m', m₁, m₂, c, hconnect, hto, hintents, hthrows, hsince, hquiet⟩ : ∃ m' m₁ m₂ c,
      ready.step id (.connect 0) = some m' ∧ run (App.step id) m' toService = some m₁ ∧
      m₁.intents = [.start (connectArgs ready.ui "\x7b\x7d")] ∧
      m₁.step id (.onStartCommand ⟨true, true, .throwsBefore (some "bad")⟩) = some m₂ ∧
      run (App.step id) m' (toService ++ [.onStartCommand ⟨true, true, .throwsBefore (some "bad")⟩,
        .onDestroy, .deliver, .deliver, .deliver]) = some c ∧ c.Quiescent :=
    ⟨_, _, _, _, rfl, rfl, rfl, rfl, rfl, rfl, rfl, rfl, fun _ => rfl⟩
  refine ⟨c, run_cons_eq_some.mpr ⟨m', hconnect, hsince⟩, ?_⟩
  have hbefore : run (App.step id) ready [] = some ready := rfl
  refine (failed_connect_settles_iff rfl hbefore hready hconnect hsince (by simp [toService])
    (AllSteps.of_check endsWithoutEngine_of_check (by decide)) hquiet).mpr (.inr ?_)
  intro hall
  rw [AllSteps.append hto] at hall
  exact (hall.2 _ hthrows).1 (.caught hintents rfl)

/-- The attempt ends without a running engine, and with every callback run and every payload
delivered the UI still waits. -/
def LeavesConnecting (attempt : Attempt) : Prop :=
  ∃ c deliveries,
    run (App.step id) ready (.connect 0 :: toService ++
      .onStartCommand attempt :: .onDestroy :: deliveries) = some c ∧
    attempt.succeeds (connectArgs ready.ui "\x7b\x7d") = false ∧ c.Quiescent ∧
    c.ui.status = .connecting

/-- The attempts that fail without a word: no config extra, no interface, a return code. -/
theorem silent_failures_leave_connecting :
    LeavesConnecting ⟨false, true, .returns 0⟩ ∧ LeavesConnecting ⟨true, false, .returns 0⟩ ∧
      LeavesConnecting ⟨true, true, .returns 1⟩ := by
  refine ⟨?_, ?_, ?_⟩
  · exact ⟨_, [.deliver], rfl, rfl, ⟨rfl, rfl, rfl, fun _ => rfl⟩, rfl⟩
  · exact ⟨_, [.deliver], rfl, rfl, ⟨rfl, rfl, rfl, fun _ => rfl⟩, rfl⟩
  · exact ⟨_, [.deliver, .deliver], rfl, rfl, ⟨rfl, rfl, rfl, fun _ => rfl⟩, rfl⟩

end FfVpn.Analysis.FailedConnect
