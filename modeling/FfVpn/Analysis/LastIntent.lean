import FfVpn.Analysis.FailedConnect

/-!
# Does the last user intent win?

`connect()` awaits up to three method calls, and `MainActivity` may keep the arguments of the last
one over a system dialog. A `disconnect()` made meanwhile is handled at once: its stop intent is
sent, and nothing tells the `connect()` that goes on afterwards. `mayStart` says where a `connect()`
has to be for that: at an await whose answer lets it go on, or behind a dialog that still has its
call. `Watch` is the app with what the user has asked for and what the service has been sent so far.
-/

set_option autoImplicit false

namespace FfVpn.Analysis.LastIntent

open FfVpn.Library.Transition FfVpn.Model.Service FfVpn.Model.Controller
  FfVpn.Analysis.FailedConnect

variable {κ : Type} {encode : κ → String}

/-- A call of the user. -/
inductive UserCall
  | connect (i : Nat)
  | disconnect (d : Nat)
  deriving DecidableEq, Repr

/-- The intent a step sends to the service, and the call it is sent for. -/
def sends (s : App κ) : AppAct κ → Option (UserCall × Intent)
  | .control i none =>
    match s.connects i with
    | .connect args => if s.permitted then some (.connect i, .start args) else none
    | _ => none
  | .dialog true =>
    match s.pending with
    | none => none
    | some i =>
      match s.connects i with
      | .connectDialog args => some (.connect i, .start args)
      | _ => none
  | .controlStop d none => if s.disconnects d = .sent then some (.disconnect d, .stop) else none
  | _ => none

/-- The service is sent what `sends` says, and nothing else. -/
theorem sends_intents {s s' : App κ} {a : AppAct κ} (h : s.step encode a = some s')
    (hservice : ∀ attempt, a ≠ .onStartCommand attempt) :
    s'.intents = s.intents ++ ((sends s a).map Prod.snd).toList := by
  cases a with
  | onStartCommand attempt => exact absurd rfl (hservice attempt)
  | control i refused =>
    cases hc : s.connects i <;> simp only [App.step, hc, reduceCtorEq] at h
    case hasPermission config =>
      obtain rfl := Option.some.inj h
      cases refused <;> simp [sends, hc, App.setConnect]
    case requestPermission config =>
      split at h <;> obtain rfl := Option.some.inj h <;>
        cases refused <;> simp [sends, hc, App.setConnect]
    case connect args =>
      split at h
      · rename_i hpermitted
        cases refused <;> obtain rfl := Option.some.inj h <;>
          simp [sends, hc, hpermitted, App.setConnect, App.startVpn]
      · rename_i hpermitted
        obtain rfl := Option.some.inj h
        cases refused <;> simp [sends, hc, hpermitted, App.setConnect]
  | dialog granted =>
    simp only [App.step] at h
    cases hpending : s.pending with
    | none => simp [hpending] at h
    | some i =>
      simp only [hpending] at h
      cases hc : s.connects i <;> simp only [hc, reduceCtorEq] at h
      · obtain rfl := Option.some.inj h
        cases granted <;> simp [sends, hpending, hc, App.setConnect]
      · cases granted <;> simp only [Bool.false_eq_true, if_false, if_true] at h <;>
          obtain rfl := Option.some.inj h <;>
          simp [sends, hpending, hc, App.setConnect, App.startVpn]
  | controlStop d refused =>
    simp only [App.step] at h
    split at h
    · rename_i hsent
      cases refused <;> obtain rfl := Option.some.inj h <;> simp [sends, hsent, App.setDisconnect]
    · cases h
  | connect i =>
    simp only [App.step] at h
    split at h
    · cases hc : s.ui.config <;> simp only [hc, Option.some.injEq] at h <;> subst h <;>
        simp [sends, App.setConnect]
    · cases h
  | disconnect d =>
    simp only [App.step, Option.ite_none_right_eq_some, Option.some.injEq] at h
    obtain ⟨-, rfl⟩ := h
    simp [sends, App.setDisconnect]
  | resume i =>
    simp only [App.step] at h
    split at h
    · split at h <;> obtain rfl := Option.some.inj h <;> simp [sends, App.setConnect]
    · obtain rfl := Option.some.inj h
      simp [sends, App.setConnect]
    · obtain rfl := Option.some.inj h
      simp [sends, App.setConnect]
    · obtain rfl := Option.some.inj h
      simp [sends, App.setConnect]
    · obtain rfl := Option.some.inj h
      simp [sends, App.setConnect]
    · cases h
  | resumeStop d =>
    simp only [App.step] at h
    split at h
    · obtain rfl := Option.some.inj h
      simp [sends, App.setDisconnect]
    · obtain rfl := Option.some.inj h
      simp [sends, App.setDisconnect]
    · cases h
  | importConfig _ | setCountry _ | setAllowedPackages _ | setDisallowedPackages _ | permit _
  | systemStop =>
    simp only [App.step, Option.some.injEq] at h
    subst h
    simp [sends]
  | onDestroy =>
    simp only [App.step, Option.ite_none_right_eq_some, Option.some.injEq] at h
    obtain ⟨-, rfl⟩ := h
    simp [sends]
  | deliver =>
    cases hevents : s.events with
    | nil => simp [App.step, hevents] at h
    | cons event rest =>
      simp only [App.step, hevents, Option.some.injEq] at h
      subst h
      simp [sends]

/-- A start intent is sent for a `connect()` that has been made, a stop intent for a `disconnect()`
that `MainActivity` handles. -/
theorem sends_cases {s : App κ} {a : AppAct κ} {u : UserCall} {intent : Intent}
    (h : sends s a = some (u, intent)) :
    (∃ i extras, u = .connect i ∧ intent = .start extras ∧ s.connects i ≠ .idle ∧
      ∀ d r, a ≠ .controlStop d r) ∨
    ∃ d, u = .disconnect d ∧ intent = .stop ∧ a = .controlStop d none ∧
      s.disconnects d = .sent := by
  unfold sends at h
  split at h
  · split at h
    · rename_i i _ args hc
      simp only [Option.ite_none_right_eq_some, Option.some.injEq, Prod.mk.injEq] at h
      exact .inl ⟨i, args, h.2.1.symm, h.2.2.symm, by simp [hc], by simp⟩
    · cases h
  · split at h
    · cases h
    · rename_i i _
      split at h
      · rename_i args hc
        simp only [Option.some.injEq, Prod.mk.injEq] at h
        exact .inl ⟨i, args, h.1.symm, h.2.symm, by simp [hc], by simp⟩
      · cases h
  · rename_i d
    simp only [Option.ite_none_right_eq_some, Option.some.injEq, Prod.mk.injEq] at h
    exact .inr ⟨d, h.2.1.symm, h.2.2.symm, rfl, h.1⟩
  · cases h

/-! ## Who may still start -/

/-- The call a step is. -/
def callOf : AppAct κ → Option UserCall
  | .connect i => some (.connect i)
  | .disconnect d => some (.disconnect d)
  | _ => none

/-- The `connect()` may still come to send its start intent: it is at one of its awaits, with no
error on the way back, or the permission dialog is shown and its result goes to this call. -/
def mayStart (s : App κ) (i : Nat) : Bool :=
  match s.connects i with
  | .hasPermission _ | .hasPermissionReply _ _ | .requestPermission _ | .requestReply _ none
  | .connect _ => true
  | .requestDialog _ | .connectDialog _ => s.pending = some i
  | .idle | .requestReply _ (some _) | .connectReply _ | .done => false

/-- A start intent is sent for a `connect()` that may still start. -/
theorem mayStart_of_sends {s : App κ} {a : AppAct κ} {i : Nat} {intent : Intent}
    (h : sends s a = some (.connect i, intent)) : mayStart s i = true := by
  unfold sends at h
  split at h
  · split at h
    · rename_i j _ args hc
      simp only [Option.ite_none_right_eq_some, Option.some.injEq, Prod.mk.injEq,
        UserCall.connect.injEq] at h
      obtain ⟨-, rfl, -⟩ := h
      simp [mayStart, hc]
    · cases h
  · split at h
    · cases h
    · rename_i j hpending
      split at h
      · rename_i args hc
        simp only [Option.some.injEq, Prod.mk.injEq, UserCall.connect.injEq] at h
        obtain ⟨rfl, -⟩ := h
        simp [mayStart, hc, hpending]
      · cases h
  · simp at h
  · cases h

/-- What a step does to call `i`, where it leaves its place and the dialog's call as they are. -/
theorem mayStart_congr {s s' : App κ} {i : Nat} (hconnects : s'.connects i = s.connects i)
    (hpending : s'.pending = some i → s.pending = some i) (h : mayStart s i = false) :
    mayStart s' i = false := by
  unfold mayStart at h ⊢
  rw [hconnects]
  split <;> simp_all

/-- A step of another call. -/
theorem mayStart_setConnect {s m : App κ} {i j : Nat} {c : Connect} (h : mayStart s i = false)
    (hij : i ≠ j) (hconnects : m.connects = s.connects)
    (hpending : m.pending = some i → s.pending = some i) : mayStart (m.setConnect j c) i = false :=
  mayStart_congr (by simp [App.setConnect, hij, hconnects]) hpending h

theorem mayStart_control {s s' : App κ} {i j : Nat} {refused : Option String}
    (h : mayStart s i = false) (hstep : s.step encode (.control j refused) = some s') :
    mayStart s' i = false := by
  by_cases hij : i = j
  · subst hij
    cases hc : s.connects i <;> simp [mayStart, hc] at h <;> simp [App.step, hc] at hstep
  · -- a dialog shown for another call takes the result of the one before
    have hnot : some j ≠ some i := fun hji => hij (Option.some.inj hji).symm
    cases hc : s.connects j <;> simp only [App.step, hc, reduceCtorEq] at hstep
    case hasPermission config =>
      obtain rfl := Option.some.inj hstep
      exact mayStart_setConnect h hij rfl id
    case requestPermission config =>
      split at hstep <;> obtain rfl := Option.some.inj hstep
      · exact mayStart_setConnect h hij rfl id
      · exact mayStart_setConnect h hij rfl fun hji => absurd hji hnot
    case connect args =>
      split at hstep
      · cases refused <;> obtain rfl := Option.some.inj hstep
        · exact mayStart_setConnect h hij rfl id
        · exact mayStart_setConnect h hij rfl id
      · obtain rfl := Option.some.inj hstep
        exact mayStart_setConnect h hij rfl fun hji => absurd hji hnot

theorem mayStart_dialog {s s' : App κ} {i : Nat} {granted : Bool} (h : mayStart s i = false)
    (hstep : s.step encode (.dialog granted) = some s') : mayStart s' i = false := by
  cases hpending : s.pending with
  | none => simp [App.step, hpending] at hstep
  | some j =>
    -- the result goes to the call that was kept last, which is another one
    by_cases hij : i = j
    · subst hij
      cases hc : s.connects i <;> simp [mayStart, hc, hpending] at h <;>
        simp [App.step, hc, hpending] at hstep
    · have hother {m : App κ} {c : Connect} (hconnects : m.connects = s.connects)
          (hnone : m.pending = none) : mayStart (m.setConnect j c) i = false :=
        mayStart_setConnect h hij hconnects fun hsome => by
          rw [hnone] at hsome
          cases hsome
      simp only [App.step, hpending] at hstep
      cases hc : s.connects j <;> simp only [hc, reduceCtorEq] at hstep
      case requestDialog config =>
        obtain rfl := Option.some.inj hstep
        exact hother rfl rfl
      case connectDialog args =>
        split at hstep <;> obtain rfl := Option.some.inj hstep <;> exact hother rfl rfl

theorem mayStart_resume {s s' : App κ} {i j : Nat} (h : mayStart s i = false)
    (hstep : s.step encode (.resume j) = some s') : mayStart s' i = false := by
  by_cases hij : i = j
  · subst hij
    cases hc : s.connects i with
    | connectReply error =>
      cases error <;> simp only [App.step, hc] at hstep <;> obtain rfl := Option.some.inj hstep <;>
        simp [mayStart, App.setConnect_self]
    | requestReply config error =>
      cases error with
      | none => simp [mayStart, hc] at h
      | some message =>
        simp only [App.step, hc] at hstep
        obtain rfl := Option.some.inj hstep
        simp [mayStart, App.setConnect_self]
    | hasPermissionReply config granted => simp [mayStart, hc] at h
    | _ => simp [App.step, hc] at hstep
  · simp only [App.step] at hstep
    split at hstep
    · split at hstep <;> obtain rfl := Option.some.inj hstep
      · exact mayStart_setConnect h hij rfl id
      · exact mayStart_setConnect h hij rfl id
    · obtain rfl := Option.some.inj hstep
      exact mayStart_setConnect h hij rfl id
    · obtain rfl := Option.some.inj hstep
      exact mayStart_setConnect h hij rfl id
    · obtain rfl := Option.some.inj hstep
      exact mayStart_setConnect h hij rfl id
    · obtain rfl := Option.some.inj hstep
      exact mayStart_setConnect h hij rfl id
    · cases hstep

/-- A `connect()` that may not start any more never does: only another call of its own could. -/
theorem mayStart_next {s s' : App κ} {a : AppAct κ} {i : Nat} (hcall : a ≠ .connect i)
    (h : mayStart s i = false) (hstep : s.step encode a = some s') : mayStart s' i = false := by
  cases a with
  | control j refused => exact mayStart_control h hstep
  | dialog granted => exact mayStart_dialog h hstep
  | resume j => exact mayStart_resume h hstep
  | connect j =>
    have hij : i ≠ j := by
      rintro rfl
      exact hcall rfl
    simp only [App.step, Option.ite_none_right_eq_some] at hstep
    obtain ⟨-, hstep⟩ := hstep
    split at hstep <;> obtain rfl := Option.some.inj hstep
    · exact mayStart_setConnect h hij rfl id
    · exact mayStart_setConnect h hij rfl id
  | controlStop d refused =>
    simp only [App.step, Option.ite_none_right_eq_some] at hstep
    obtain ⟨-, hstep⟩ := hstep
    cases refused <;> obtain rfl := Option.some.inj hstep <;> exact h
  | resumeStop d =>
    simp only [App.step] at hstep
    split at hstep
    · obtain rfl := Option.some.inj hstep
      exact h
    · obtain rfl := Option.some.inj hstep
      exact h
    · cases hstep
  | disconnect d | onDestroy =>
    simp only [App.step, Option.ite_none_right_eq_some, Option.some.injEq] at hstep
    obtain ⟨-, rfl⟩ := hstep
    exact h
  | importConfig _ | setCountry _ | setAllowedPackages _ | setDisallowedPackages _ | permit _
  | systemStop =>
    simp only [App.step, Option.some.injEq] at hstep
    subst hstep
    exact h
  | onStartCommand attempt =>
    cases hintents : s.intents with
    | nil => simp [App.step, hintents] at hstep
    | cons intent rest =>
      simp only [App.step, hintents, Option.some.injEq] at hstep
      subst hstep
      exact h
  | deliver =>
    cases hevents : s.events with
    | nil => simp [App.step, hevents] at hstep
    | cons event rest =>
      simp only [App.step, hevents, Option.some.injEq] at hstep
      subst hstep
      exact h

/-- A start intent can be sent for call `i`, with no further call of the user. -/
def CanStart (encode : κ → String) (i : Nat) (s : App κ) : Prop :=
  ∃ as s' a args, (∀ b ∈ as, callOf b = none) ∧ run (App.step encode) s as = some s' ∧
    sends s' a = some (.connect i, .start args)

theorem CanStart.before {s m : App κ} {a : AppAct κ} {i : Nat} (ha : callOf a = none)
    (hstep : s.step encode a = some m) (h : CanStart encode i m) : CanStart encode i s := by
  obtain ⟨as, s', b, args, has, hrun, hsends⟩ := h
  refine ⟨a :: as, s', b, args, ?_, run_cons_eq_some.mpr ⟨m, hstep, hrun⟩, hsends⟩
  intro c hc
  rcases List.mem_cons.mp hc with rfl | hc
  · exact ha
  · exact has c hc

/-- With the permission given, `channel.connect` is answered with a start. -/
theorem canStart_connect {s : App κ} {i : Nat} {args : StartExtras}
    (hc : s.connects i = .connect args) : CanStart encode i s := by
  refine ⟨[.permit true], { s with permitted := true }, .control i none, args, by simp [callOf],
    rfl, ?_⟩
  simp [sends, hc]

/-- The call goes on to `channel.connect` as its await returns. -/
theorem canStart_resume {s : App κ} {i : Nat} {config : String}
    (hc : s.connects i = .hasPermissionReply config true ∨
      s.connects i = .requestReply config none) : CanStart encode i s := by
  refine .before (a := .resume i)
    (m := s.setConnect i (.connect (connectArgs s.ui config))) rfl ?_
    (canStart_connect (App.setConnect_self ..))
  rcases hc with hc | hc <;> simp [App.step, hc]

/-- With the permission given, `requestPermission` is answered with it. -/
theorem canStart_request {s : App κ} {i : Nat} {config : String}
    (hc : s.connects i = .requestPermission config) : CanStart encode i s := by
  refine .before (a := .permit true) (m := { s with permitted := true }) rfl rfl
    (.before (a := .control i none)
      (m := App.setConnect { s with permitted := true } i (.requestReply config none)) rfl ?_
      (canStart_resume (.inr (App.setConnect_self ..))))
  simp [App.step, hc]

/-- **Who may still start.** A start intent can still be sent for a `connect()`, with no further
call of the user, exactly from where `mayStart` says. -/
theorem mayStart_iff {s : App κ} {i : Nat} : mayStart s i = true ↔ CanStart encode i s := by
  constructor
  · intro h
    cases hc : s.connects i with
    | idle | connectReply error | done => simp [mayStart, hc] at h
    | connect args => exact canStart_connect hc
    | requestPermission config => exact canStart_request hc
    | requestReply config error =>
      cases error with
      | none => exact canStart_resume (.inr hc)
      | some message => simp [mayStart, hc] at h
    | hasPermissionReply config granted =>
      cases granted with
      | true => exact canStart_resume (.inl hc)
      | false =>
        refine .before (a := .resume i) (m := s.setConnect i (.requestPermission config)) rfl ?_
          (canStart_request (App.setConnect_self ..))
        simp [App.step, hc]
    | hasPermission config =>
      refine .before (a := .permit true) (m := { s with permitted := true }) rfl rfl
        (.before (a := .control i none)
          (m := App.setConnect { s with permitted := true } i (.hasPermissionReply config true)) rfl
          ?_ (canStart_resume (.inl (App.setConnect_self ..))))
      simp [App.step, hc]
    | requestDialog config =>
      have hpending : s.pending = some i := by simpa [mayStart, hc] using h
      refine .before (a := .dialog true)
        (m := App.setConnect { s with pending := none, permitted := true } i
          (.requestReply config none)) rfl ?_
        (canStart_resume (.inr (App.setConnect_self ..)))
      simp [App.step, hpending, hc]
    | connectDialog args =>
      have hpending : s.pending = some i := by simpa [mayStart, hc] using h
      exact ⟨[], s, .dialog true, args, by simp, rfl, by simp [sends, hpending, hc]⟩
  · rintro ⟨as, s', a, args, hcalls, hrun, hsends⟩
    by_contra hnot
    rw [Bool.not_eq_true] at hnot
    have hnever : mayStart s' i = false := by
      have hcallless : AllSteps (App.step encode) (fun _ b => b ≠ .connect i) s as := by
        apply AllSteps.of_forall_mem
        rintro b hb - rfl
        exact absurd (hcalls _ hb) (by simp [callOf])
      exact guarded_last (I := fun s => mayStart s i = false) hrun hcallless hnot
        fun _ _ _ h hne hs => mayStart_next hne h hs
    rw [mayStart_of_sends hsends] at hnever
    cases hnever

/-! ## The last call -/

/-- The app with its history: the intents sent so far and the last call of the user. -/
structure Watch (κ : Type) where
  app : App κ
  sent : List Intent := []
  lastCall : Option UserCall := none

/-- One step of the app, with the history carried on. -/
def Watch.step (encode : κ → String) (w : Watch κ) (a : AppAct κ) : Option (Watch κ) :=
  (w.app.step encode a).map fun app =>
    { app := app
      sent := w.sent ++ ((sends w.app a).map Prod.snd).toList
      lastCall := (callOf a).or w.lastCall }

/-- What is on its way to the service is the end of what has been sent. -/
theorem intents_suffix {s : App κ} (hempty : s.intents = []) {w : Watch κ}
    (h : Reachable (Watch.step encode) { app := s } w) : w.app.intents <:+ w.sent := by
  refine h.invariant (I := fun w => w.app.intents <:+ w.sent) (by simp [hempty]) ?_
  intro w a w' hsuffix hstep
  obtain ⟨app, happ, rfl⟩ := Option.map_eq_some_iff.mp hstep
  by_cases hservice : ∃ attempt, a = .onStartCommand attempt
  · obtain ⟨attempt, rfl⟩ := hservice
    cases hintents : w.app.intents with
    | nil => simp [App.step, hintents] at happ
    | cons intent rest =>
      simp only [App.step, hintents, Option.some.injEq] at happ
      subst happ
      rw [hintents] at hsuffix
      simpa [sends, App.served] using (List.suffix_cons intent rest).trans hsuffix
  · have hnew := sends_intents happ fun attempt ha => hservice ⟨attempt, ha⟩
    obtain ⟨handled, hhandled⟩ := hsuffix
    exact ⟨handled, by simp [hnew, ← hhandled]⟩

/-- No start intent has been sent after the last stop intent: the last intent is not a start. -/
def StopsLast (sent : List Intent) : Prop := ∀ extras, sent.getLast? ≠ some (.start extras)

/-- No call is under way. -/
structure Complete (s : App κ) : Prop where
  connects : ∀ i, s.connects i = .idle ∨ s.connects i = .done
  disconnects : ∀ d, s.disconnects d = .idle ∨ s.disconnects d = .done

/-- Where the user's last call is a `disconnect()` and every call has completed, no start intent has
been sent after the last stop intent. -/
def UserWins (w : Watch κ) : Prop :=
  ∀ d, w.lastCall = some (.disconnect d) → Complete w.app → StopsLast w.sent

/-- When `MainActivity` handles the user's last `disconnect()`, no `connect()` may still start; and
the intent is sent. -/
def Yields (w : Watch κ) (a : AppAct κ) : Prop :=
  ∀ d refused, a = .controlStop d refused → w.lastCall = some (.disconnect d) →
    refused = none ∧ ∀ i, mayStart w.app i = false

/-- A `disconnect()` leaves `sent` as `MainActivity` handles it. -/
theorem sent_next {s s' : App κ} {a : AppAct κ} (h : s.step encode a = some s') {d : Nat}
    (hd : s.disconnects d = .sent) : s'.disconnects d = .sent ∨ ∃ r, a = .controlStop d r := by
  cases a with
  | disconnect e =>
    simp only [App.step, Option.ite_none_right_eq_some, Option.some.injEq] at h
    obtain ⟨-, rfl⟩ := h
    by_cases hde : d = e <;> simp [App.setDisconnect, hde, hd]
  | controlStop e r =>
    by_cases hde : d = e
    · exact .inr ⟨r, by rw [hde]⟩
    · obtain ⟨-, -, x, -, heq⟩ := controlStop_step h
      exact .inl (by simpa [heq, hde] using hd)
  | resumeStop e =>
    have hde : d ≠ e := by
      rintro rfl
      simp [App.step, hd] at h
    simp only [App.step] at h
    split at h
    · obtain rfl := Option.some.inj h
      exact .inl (by simpa [App.setDisconnect, hde] using hd)
    · obtain rfl := Option.some.inj h
      exact .inl (by simpa [App.setDisconnect, hde] using hd)
    · cases h
  | _ =>
    have hsame := disconnects_same h (by simp) (by simp) (by simp)
    exact .inl (by rw [hsame, hd])

/-- While the last call is a `disconnect()`: once its intent is sent, no `connect()` may still
start, and no start intent follows. -/
def WinsInv (w : Watch κ) : Prop :=
  ∀ d, w.lastCall = some (.disconnect d) → w.app.disconnects d = .sent ∨
    ((∀ i, mayStart w.app i = false) ∧ StopsLast w.sent)

theorem stopsLast_append_stop (sent : List Intent) : StopsLast (sent ++ [.stop]) := by
  intro extras
  simp

theorem WinsInv.next {w w' : Watch κ} {a : AppAct κ} (h : WinsInv w) (hyields : Yields w a)
    (hstep : w.step encode a = some w') : WinsInv w' := by
  obtain ⟨app, happ, rfl⟩ := Option.map_eq_some_iff.mp hstep
  intro d hlast
  simp only at hlast ⊢
  cases hcall : callOf a with
  | some u =>
    -- the call itself
    obtain rfl : u = .disconnect d := by simpa [hcall] using hlast
    obtain rfl : a = .disconnect d := by
      cases a <;> simp_all [callOf]
    simp only [App.step, Option.ite_none_right_eq_some, Option.some.injEq] at happ
    obtain ⟨-, rfl⟩ := happ
    exact .inl (by simp [App.setDisconnect])
  | none =>
    have hold : w.lastCall = some (.disconnect d) := by simpa [hcall] using hlast
    have hnotconnect : ∀ i, a ≠ .connect i := by
      rintro i rfl
      cases hcall
    rcases h d hold with hsent | ⟨hnobody, hstops⟩
    · rcases sent_next happ hsent with hsent' | ⟨r, rfl⟩
      · exact .inl hsent'
      · obtain ⟨rfl, hnobody⟩ := hyields d r rfl hold
        refine .inr ⟨fun i => mayStart_next (hnotconnect i) (hnobody i) happ, ?_⟩
        simpa [sends, hsent] using stopsLast_append_stop w.sent
    · refine .inr ⟨fun i => mayStart_next (hnotconnect i) (hnobody i) happ, ?_⟩
      cases hsends : sends w.app a with
      | none => simpa using hstops
      | some p =>
        obtain ⟨u, intent⟩ := p
        rcases sends_cases hsends with ⟨i, extras, rfl, rfl, -, -⟩ | ⟨e, rfl, rfl, rfl, -⟩
        · have hmay := mayStart_of_sends hsends
          rw [hnobody i] at hmay
          cases hmay
        · exact stopsLast_append_stop w.sent

theorem WinsInv.userWins {w : Watch κ} (h : WinsInv w) : UserWins w := by
  intro d hlast hcomplete
  rcases h d hlast with hsent | ⟨-, hstops⟩
  · rcases hcomplete.disconnects d with hidle | hdone
    · rw [hsent] at hidle
      cases hidle
    · rw [hsent] at hdone
      cases hdone
  · exact hstops

/-- **Does the last user intent win?** In every run of the controller, the activity and the service,
from any state and whatever the order of calls, completions and dialogs: if no `connect()` may still
start when `MainActivity` handles the `disconnect()` that is the user's last call, and its intent is
not refused, then whenever every call has completed and the user's last call was a `disconnect()`,
no start intent has been sent after the last stop intent. -/
theorem last_intent_wins (s : App κ) (as : List (AppAct κ))
    (hyields : AllSteps (Watch.step encode) Yields { app := s } as) :
    AllStates (Watch.step encode) UserWins { app := s } as := by
  have hinv : AllStates (Watch.step encode) WinsInv { app := s } as := by
    refine AllStates.of_guarded (fun w a w' h hok hs => h.next hok hs) ?_ hyields
    intro d hlast
    cases hlast
  exact hinv.mono fun w h => h.userWins

/-- `MainActivity` handles a `disconnect`. -/
def handlesStop : AppAct κ → Bool
  | .controlStop _ _ => true
  | _ => false

theorem yields_of_not_handlesStop (w : Watch κ) (a : AppAct κ) (h : (!handlesStop a) = true) :
    Yields w a := by
  rintro d refused rfl
  simp [handlesStop] at h

/-- A `connect()` up to the return of its last method call; then the user disconnects. -/
def thenDisconnect : List (AppAct String) :=
  [.connect 0, .control 0 none, .resume 0, .control 0 none, .resume 0, .disconnect 0]

/-- The general statement at a `disconnect()` after the start intent has been sent. -/
theorem orderly_disconnect_wins :
    ∃ w, run (Watch.step id) { app := ready }
        (thenDisconnect ++ [.controlStop 0 none, .resumeStop 0]) = some w ∧
      w.lastCall = some (.disconnect 0) ∧ StopsLast w.sent := by
  obtain ⟨m, w, hbefore, hnobody, hrun, hlast, hconnects, hdisconnects⟩ : ∃ m w,
      run (Watch.step id) { app := ready } thenDisconnect = some m ∧
      (∀ i, mayStart m.app i = false) ∧
      run (Watch.step id) { app := ready }
        (thenDisconnect ++ [.controlStop 0 none, .resumeStop 0]) = some w ∧
      w.lastCall = some (.disconnect 0) ∧
      (∀ i, w.app.connects i = if i = 0 then .done else .idle) ∧
      (∀ d, w.app.disconnects d = if d = 0 then .done else .idle) :=
    ⟨_, _, rfl, by rintro (_ | i) <;> rfl, rfl, rfl, by rintro (_ | i) <;> rfl,
      by rintro (_ | d) <;> rfl⟩
  have hyields : AllSteps (Watch.step id) Yields { app := ready }
      (thenDisconnect ++ [.controlStop 0 none, .resumeStop 0]) := by
    rw [AllSteps.append hbefore]
    refine ⟨AllSteps.of_actions yields_of_not_handlesStop rfl, fun m' _ => ⟨?_, ?_⟩⟩
    · rintro d refused heq -
      obtain ⟨-, rfl⟩ := AppAct.controlStop.inj heq
      exact ⟨rfl, hnobody⟩
    · exact AllSteps.of_actions yields_of_not_handlesStop rfl
  refine ⟨w, hrun, hlast, (last_intent_wins ready _ hyields).last hrun 0 hlast ⟨?_, ?_⟩⟩
  · intro i
    rw [hconnects i]
    split <;> simp
  · intro d
    rw [hdisconnects d]
    split <;> simp

/-- The user disconnects while `connect()` awaits `hasPermission`; then `connect()` goes on. -/
def lateStart : List (AppAct String) :=
  [.connect 0, .control 0 none, .disconnect 0, .controlStop 0 none, .resumeStop 0, .resume 0,
    .control 0 none, .resume 0]

/-- The service handles both intents and is destroyed in between. -/
def serviceRuns : List (AppAct String) :=
  [.onStartCommand ⟨true, true, .returns 0⟩, .onDestroy, .onStartCommand ⟨true, true, .returns 0⟩,
    .deliver, .deliver, .deliver]

/-- The user's last call is a `disconnect()`, every call has completed, and the VPN comes up. -/
theorem disconnect_is_overtaken :
    ∃ w w', run (Watch.step id) { app := ready } lateStart = some w ∧
      w.lastCall = some (.disconnect 0) ∧
      w.sent = [.stop, .start (connectArgs ready.ui "\x7b\x7d")] ∧ ¬ UserWins w ∧
      run (Watch.step id) w serviceRuns = some w' ∧ w'.app.ui.status = .connected := by
  obtain ⟨w, w', hrun, hlast, hsent, hconnects, hdisconnects, hrun', hconnected⟩ : ∃ w w',
      run (Watch.step id) { app := ready } lateStart = some w ∧ w.lastCall = some (.disconnect 0) ∧
      w.sent = [.stop, .start (connectArgs ready.ui "\x7b\x7d")] ∧
      (∀ i, w.app.connects i = if i = 0 then .done else .idle) ∧
      (∀ d, w.app.disconnects d = if d = 0 then .done else .idle) ∧
      run (Watch.step id) w serviceRuns = some w' ∧ w'.app.ui.status = .connected :=
    ⟨_, _, rfl, rfl, rfl, by rintro (_ | i) <;> rfl, by rintro (_ | d) <;> rfl, rfl, rfl⟩
  refine ⟨w, w', hrun, hlast, hsent, ?_, hrun', hconnected⟩
  intro hwins
  have hcomplete : Complete w.app := by
    constructor
    · intro i
      rw [hconnects i]
      split <;> simp
    · intro d
      rw [hdisconnects d]
      split <;> simp
  exact hwins 0 hlast hcomplete _ (by rw [hsent]; rfl)

end FfVpn.Analysis.LastIntent
