import FfVpn.Model.MainActivity

/-!
# The replies on the control channel

A call that launches the permission dialog is answered by the next dialog that returns, if its
`Result` is still in `pendingResult` by then. `call_cases` and `activityResult_cases` say what the
two callbacks do to the slot and to the replies. From them: as long as no dialog is launched while
another is open, at most one call waits, and it is the one in the slot (`Kept`). The first launch
over an open dialog takes the slot from a call that is then never answered (`Lost`), and so does an
exception of `startVpn` in `onActivityResult`.
-/

set_option autoImplicit false

namespace FfVpn.Analysis.Replies

open FfVpn.Library.Transition FfVpn.Model.Service FfVpn.Model.MainActivity

/-- The call has been made and not been answered. -/
def Waits (s : Activity) (i : Nat) : Prop := s.calls i ≠ none ∧ s.replies i = []

/-- Every call has received exactly one reply. -/
def AllAnswered (s : Activity) : Prop := ∀ i, s.calls i ≠ none → ∃ reply, s.replies i = [reply]

/-- The call comes to the launch of the permission dialog. -/
def Launches (s : Activity) (method : Method) : Prop :=
  s.permitted = false ∧ (method = .requestPermission ∨ ∃ args, method = .connect args)

/-- `onActivityResult` is left by an exception of `startVpn`. -/
def Throws (s : Activity) (granted : Bool) (refused : Option String) : Prop :=
  granted = true ∧ ∃ args, s.pendingArgs = some args ∧
    ∃ message, startVpn args refused = .error message

/-- The condition on a step: a dialog is launched only where none is open, and `startVpn` does not
throw in `onActivityResult`. -/
def OneDialog (s : Activity) : ActivityAct → Prop
  | .call _ method _ => Launches s method → s.dialogs = 0
  | .activityResult granted refused => ¬ Throws s granted refused
  | _ => True

/-! ## What the callbacks do -/

/-- **The handler.** A call that launches a dialog takes the slot, any other call is answered and
leaves the slot as it is. A dialog is open for the call exactly where it has no answer yet. -/
structure HandledAs (s s' : Activity) (i : Nat) (method : Method) (reply : Option Reply) :
    Prop where
  calls : s'.calls = s.calls
  replies : s'.replies = s.replies
  crashed : s'.crashed = s.crashed
  launched : Launches s method → s'.pendingResult = some i
  quiet : ¬ Launches s method → s'.pendingResult = s.pendingResult ∧ reply ≠ none
  dialogs : s'.dialogs = if reply = none then s.dialogs + 1 else s.dialogs

theorem launch_handledAs {s : Activity} {i : Nat} {method : Method} (h : Launches s method)
    (args : Option StartExtras) (refused : Option String) :
    HandledAs s (s.launch i args refused).1 i method (s.launch i args refused).2.reply := by
  cases refused with
  | none => exact ⟨rfl, rfl, rfl, fun _ => rfl, fun hnot => absurd h hnot, rfl⟩
  | some message => exact ⟨rfl, rfl, rfl, fun _ => rfl, fun hnot => absurd h hnot, rfl⟩

/-- A branch that replies. -/
theorem replied_handledAs {s s' : Activity} {i : Nat} {method : Method} (h : ¬ Launches s method)
    {handled : Handled} {reply : Reply} (hreply : handled.reply = some reply)
    (hs' : ∃ intents, s' = { s with intents := intents }) :
    HandledAs s s' i method handled.reply := by
  obtain ⟨intents, rfl⟩ := hs'
  exact ⟨rfl, rfl, rfl, fun hl => absurd hl h, fun _ => ⟨rfl, by simp [hreply]⟩, by simp [hreply]⟩

theorem handle_handledAs (s : Activity) (i : Nat) (refused : Option String) (method : Method) :
    HandledAs s (s.handle i refused method).1 i method (s.handle i refused method).2.reply := by
  have hnot : s.permitted = true → ¬ Launches s method := fun hp hl => by
    have hdenied := hl.1
    simp [hp] at hdenied
  cases method with
  | hasPermission | status | other => exact replied_handledAs (by simp [Launches]) rfl ⟨_, rfl⟩
  | disconnect =>
    cases refused with
    | none => exact replied_handledAs (by simp [Launches]) rfl ⟨_, rfl⟩
    | some message => exact replied_handledAs (by simp [Launches]) rfl ⟨_, rfl⟩
  | requestPermission =>
    cases hp : s.permitted with
    | false =>
      rw [Activity.handle, if_neg (by simp [hp])]
      exact launch_handledAs ⟨hp, .inl rfl⟩ none refused
    | true =>
      rw [Activity.handle, if_pos hp]
      exact replied_handledAs (hnot hp) rfl ⟨_, rfl⟩
  | connect args =>
    cases hp : s.permitted with
    | false =>
      rw [Activity.handle, if_neg (by simp [hp])]
      exact launch_handledAs ⟨hp, .inr ⟨args, rfl⟩⟩ (some args) refused
    | true =>
      rw [Activity.handle, if_pos hp]
      cases startVpn args refused with
      | ok intent => exact replied_handledAs (hnot hp) rfl ⟨_, rfl⟩
      | error message => exact replied_handledAs (hnot hp) rfl ⟨_, rfl⟩

/-- A reply changes the replies, or ends the app. -/
theorem answer_frame (s : Activity) (pending : Option Nat) (reply : Reply) :
    ∃ replies crashed,
      s.answer pending reply = { s with replies := replies, crashed := crashed } := by
  unfold Activity.answer
  cases pending with
  | none => exact ⟨_, _, rfl⟩
  | some i =>
    dsimp only
    split
    · exact ⟨_, _, rfl⟩
    · exact ⟨_, _, rfl⟩

@[simp] theorem answer_calls (s : Activity) (pending : Option Nat) (reply : Reply) :
    (s.answer pending reply).calls = s.calls := by
  obtain ⟨_, _, h⟩ := answer_frame s pending reply
  rw [h]

@[simp] theorem answer_dialogs (s : Activity) (pending : Option Nat) (reply : Reply) :
    (s.answer pending reply).dialogs = s.dialogs := by
  obtain ⟨_, _, h⟩ := answer_frame s pending reply
  rw [h]

@[simp] theorem answer_pendingResult (s : Activity) (pending : Option Nat) (reply : Reply) :
    (s.answer pending reply).pendingResult = s.pendingResult := by
  obtain ⟨_, _, h⟩ := answer_frame s pending reply
  rw [h]

/-- **The result of a dialog.** The slot is emptied, and the call in it gets the one reply, unless
`startVpn` throws. -/
theorem onActivityResult_cases (s : Activity) (granted : Bool) (refused : Option String) :
    (s.onActivityResult granted refused).calls = s.calls ∧
      (s.onActivityResult granted refused).dialogs = s.dialogs ∧
      (s.onActivityResult granted refused).pendingResult = none ∧
      ((Throws s granted refused ∧ (s.onActivityResult granted refused).replies = s.replies ∧
          (s.onActivityResult granted refused).crashed = true) ∨
        (¬ Throws s granted refused ∧ ∃ reply,
          (s.onActivityResult granted refused).replies =
            (s.answer s.pendingResult reply).replies ∧
          (s.onActivityResult granted refused).crashed =
            (s.answer s.pendingResult reply).crashed)) := by
  have hanswer : ∀ (intents : List Intent) (reply : Reply),
      ({ s with pendingResult := none, pendingArgs := none, intents := intents }.answer
          s.pendingResult reply).replies = (s.answer s.pendingResult reply).replies ∧
        ({ s with pendingResult := none, pendingArgs := none, intents := intents }.answer
          s.pendingResult reply).crashed = (s.answer s.pendingResult reply).crashed := by
    intro intents reply
    cases hpending : s.pendingResult with
    | none => exact ⟨rfl, rfl⟩
    | some i => by_cases hi : s.replies i = [] <;> simp [Activity.answer, hi]
  cases granted with
  | false =>
    refine ⟨?_, ?_, ?_, .inr ⟨by simp [Throws], _, hanswer s.intents _⟩⟩ <;>
      simp [Activity.onActivityResult]
  | true =>
    cases hargs : s.pendingArgs with
    | none =>
      refine ⟨?_, ?_, ?_, .inr ⟨by simp [Throws, hargs], .success (.bool true), ?_⟩⟩
      · simp [Activity.onActivityResult, hargs]
      · simp [Activity.onActivityResult, hargs]
      · simp [Activity.onActivityResult, hargs]
      · simpa [Activity.onActivityResult, hargs] using hanswer s.intents (.success (.bool true))
    | some args =>
      cases hstart : startVpn args refused with
      | error message =>
        refine ⟨?_, ?_, ?_, .inl ⟨⟨rfl, args, hargs, message, hstart⟩, ?_⟩⟩ <;>
          simp [Activity.onActivityResult, hargs, hstart]
      | ok intent =>
        refine ⟨?_, ?_, ?_, .inr ⟨by simp [Throws, hargs, hstart], .success .null, ?_⟩⟩
        · simp [Activity.onActivityResult, hargs, hstart]
        · simp [Activity.onActivityResult, hargs, hstart]
        · simp [Activity.onActivityResult, hargs, hstart]
        · simpa [Activity.onActivityResult, hargs, hstart] using
            hanswer (s.intents ++ [intent]) (.success .null)

/-! ## The invariant, and what breaks it -/

/-- A call waits only for the one open dialog, and the open dialog has a call that waits for it. -/
structure Kept (s : Activity) : Prop where
  alive : s.crashed = false
  made : ∀ i, s.calls i = none → s.replies i = []
  once : ∀ i, s.replies i = [] ∨ ∃ reply, s.replies i = [reply]
  slot : ∀ i, Waits s i → s.dialogs = 1 ∧ s.pendingResult = some i
  dialog : s.dialogs ≠ 0 → ∃ i, Waits s i

/-- A call waits for a reply that nothing will give. -/
def Lost (s : Activity) : Prop :=
  ∃ i, Waits s i ∧ (s.pendingResult ≠ some i ∨ s.crashed = true)

/-- What a step of the handler does to the calls that wait. -/
theorem waits_call {s s' t : Activity} {i : Nat} {method : Method} {reply : Option Reply}
    (h : HandledAs s t i method reply)
    (hs' : s' = { t with
      calls := Function.update t.calls i (some method)
      replies := Function.update t.replies i reply.toList }) (j : Nat) :
    Waits s' j ↔ if j = i then reply = none else Waits s j := by
  subst hs'
  by_cases hj : j = i
  · cases reply <;> simp [Waits, hj]
  · simp [Waits, hj, h.calls, h.replies]

theorem step_call {s s' : Activity} {i : Nat} {method : Method} {refused : Option String}
    (hs : s.step (.call i method refused) = some s') :
    s.crashed = false ∧ s.calls i = none ∧ ∃ t reply, HandledAs s t i method reply ∧
      s' = { t with
        calls := Function.update t.calls i (some method)
        replies := Function.update t.replies i reply.toList } := by
  simp only [Activity.step, Option.ite_none_right_eq_some, Option.some.injEq] at hs
  obtain ⟨⟨halive, hfresh⟩, rfl⟩ := hs
  exact ⟨halive, hfresh, _, _, handle_handledAs s i refused method, rfl⟩

/-- A call that waits when a dialog has returned is not the one that was in the slot, unless
`onActivityResult` has thrown. -/
theorem answer_replies {s : Activity} {i : Nat} (hpending : s.pendingResult = some i)
    (hi : s.replies i = []) (reply : Reply) :
    (s.answer s.pendingResult reply).replies = Function.update s.replies i [reply] ∧
      (s.answer s.pendingResult reply).crashed = s.crashed := by
  simp [Activity.answer, hpending, hi]

theorem answer_other {s : Activity} {i : Nat} (hi : s.pendingResult ≠ some i) (reply : Reply) :
    (s.answer s.pendingResult reply).replies i = s.replies i := by
  unfold Activity.answer
  cases hpending : s.pendingResult with
  | none => rfl
  | some j =>
    have hji : i ≠ j := fun h => hi (by rw [hpending, h])
    dsimp only
    split
    · exact Function.update_of_ne hji _ _
    · rfl

theorem Kept.call {s s' : Activity} (h : Kept s) {i : Nat} {method : Method}
    {refused : Option String} (hok : OneDialog s (.call i method refused))
    (hs : s.step (.call i method refused) = some s') : Kept s' := by
  obtain ⟨-, hfresh, t, reply, hh, hs'⟩ := step_call hs
  have hwaits := waits_call hh hs'
  have hfresh' : ∀ j, Waits s j → j ≠ i := fun j hj hji => hj.1 (hji ▸ hfresh)
  subst hs'
  refine ⟨hh.crashed.trans h.alive, fun j hj => ?_, fun j => ?_, fun j hj => ?_, fun hd => ?_⟩
  · have hji : j ≠ i := by
      rintro rfl
      simp at hj
    simp only [hh.calls, hh.replies, Function.update_of_ne hji] at hj ⊢
    exact h.made j hj
  · by_cases hji : j = i
    · cases reply <;> simp [hji]
    · simpa [hji, hh.replies] using h.once j
  · rw [hwaits] at hj
    split at hj
    case isTrue hji =>
      -- the call itself waits: its dialog is the only one
      have hl : Launches s method := by
        by_contra hnot
        exact (hh.quiet hnot).2 hj
      exact ⟨by simp [hh.dialogs, hj, hok hl], by rw [hji]; exact hh.launched hl⟩
    case isFalse hji =>
      obtain ⟨hone, hpending⟩ := h.slot j hj
      have hnot : ¬ Launches s method := fun hl => by
        rw [hok hl] at hone
        cases hone
      obtain ⟨hslot, hreply⟩ := hh.quiet hnot
      exact ⟨by simp [hh.dialogs, hreply, hone], hslot.trans hpending⟩
  · by_cases hreply : reply = none
    · exact ⟨i, (hwaits i).mpr (by simp [hreply])⟩
    · have hdialogs : s.dialogs ≠ 0 := by simpa [hh.dialogs, hreply] using hd
      obtain ⟨j, hj⟩ := h.dialog hdialogs
      exact ⟨j, (hwaits j).mpr (by simpa [hfresh' j hj] using hj)⟩

theorem Kept.result {s s' : Activity} (h : Kept s) {granted : Bool} {refused : Option String}
    (hok : ¬ Throws s granted refused)
    (hs : s.step (.activityResult granted refused) = some s') : Kept s' := by
  simp only [Activity.step, Option.ite_none_right_eq_some, Option.some.injEq] at hs
  obtain ⟨⟨-, hdialogs⟩, hs'⟩ := hs
  obtain ⟨i, hi⟩ := h.dialog hdialogs
  obtain ⟨hone, hpending⟩ := h.slot i hi
  have hcases := onActivityResult_cases
    { s with dialogs := s.dialogs - 1, permitted := s.permitted || granted } granted refused
  rw [hs'] at hcases
  obtain ⟨hcalls, hd, -, ⟨hthrows, -⟩ | ⟨-, reply, hreplies, hcrashed⟩⟩ := hcases
  · exact absurd hthrows hok
  · obtain ⟨hans, hans'⟩ := answer_replies (s := { s with
      dialogs := s.dialogs - 1, permitted := s.permitted || granted }) hpending hi.2 reply
    rw [hans] at hreplies
    rw [hans'] at hcrashed
    have hwaits : ∀ j, Waits s' j → False := by
      intro j ⟨hjc, hjr⟩
      rw [hcalls] at hjc
      rw [hreplies] at hjr
      by_cases hji : j = i
      · simp [hji] at hjr
      · rw [Function.update_of_ne hji] at hjr
        have hpj := (h.slot j ⟨hjc, hjr⟩).2
        exact hji (Option.some.inj (hpj.symm.trans hpending))
    refine ⟨hcrashed.trans h.alive, fun j hj => ?_, fun j => ?_, fun j hj => (hwaits j hj).elim,
      fun hd' => ?_⟩
    · have hji : j ≠ i := by
        rintro rfl
        exact hi.1 (hcalls ▸ hj)
      rw [hreplies, Function.update_of_ne hji]
      exact h.made j (hcalls ▸ hj)
    · rw [hreplies]
      by_cases hji : j = i
      · simp [hji]
      · simpa [hji] using h.once j
    · exact absurd (by simp [hd, hone]) hd'

theorem Kept.step {s s' : Activity} {a : ActivityAct} (h : Kept s) (hok : OneDialog s a)
    (hs : s.step a = some s') : Kept s' := by
  cases a with
  | call i method refused => exact h.call hok hs
  | activityResult granted refused => exact h.result hok hs
  | permit b =>
    obtain rfl := Option.some.inj hs
    exact ⟨h.alive, h.made, h.once, h.slot, h.dialog⟩
  | native json =>
    obtain rfl := Option.some.inj hs
    exact ⟨h.alive, h.made, h.once, h.slot, h.dialog⟩

/-- **A second dialog loses the first call**, and so does an exception of `startVpn`. -/
theorem Kept.lost {s s' : Activity} {a : ActivityAct} (h : Kept s) (hnot : ¬ OneDialog s a)
    (hs : s.step a = some s') : Lost s' := by
  cases a with
  | permit b => exact absurd trivial hnot
  | native json => exact absurd trivial hnot
  | call i method refused =>
    simp only [OneDialog, Classical.not_imp] at hnot
    obtain ⟨hl, hdialogs⟩ := hnot
    obtain ⟨j, hj⟩ := h.dialog hdialogs
    obtain ⟨-, hfresh, t, reply, hh, hs'⟩ := step_call hs
    have hji : j ≠ i := fun hji => hj.1 (hji ▸ hfresh)
    refine ⟨j, (waits_call hh hs' j).mpr (by simpa [hji] using hj), .inl ?_⟩
    have hslot : s'.pendingResult = some i := by rw [hs']; exact hh.launched hl
    rw [hslot]
    exact fun hij => hji (Option.some.inj hij).symm
  | activityResult granted refused =>
    simp only [Activity.step, Option.ite_none_right_eq_some, Option.some.injEq] at hs
    obtain ⟨⟨-, hdialogs⟩, hs'⟩ := hs
    obtain ⟨j, hj⟩ := h.dialog hdialogs
    have hcases := onActivityResult_cases
      { s with dialogs := s.dialogs - 1, permitted := s.permitted || granted } granted refused
    rw [hs'] at hcases
    obtain ⟨hcalls, -, -, ⟨-, hreplies, hcrashed⟩ | ⟨hfine, -⟩⟩ := hcases
    · exact ⟨j, ⟨by rw [hcalls]; exact hj.1, by rw [hreplies]; exact hj.2⟩, .inr hcrashed⟩
    · exact absurd hfine hnot

/-- **A lost call stays lost**: no later call and no later dialog brings its `Result` back. -/
theorem Lost.step {s s' : Activity} {a : ActivityAct} (h : Lost s) (hs : s.step a = some s') :
    Lost s' := by
  obtain ⟨j, hj, hgone⟩ := h
  cases a with
  | permit b =>
    obtain rfl := Option.some.inj hs
    exact ⟨j, hj, hgone⟩
  | native json =>
    obtain rfl := Option.some.inj hs
    exact ⟨j, hj, hgone⟩
  | call i method refused =>
    obtain ⟨halive, hfresh, t, reply, hh, hs'⟩ := step_call hs
    have hji : j ≠ i := fun hji => hj.1 (hji ▸ hfresh)
    have hslot : s.pendingResult ≠ some j := hgone.resolve_right (by simp [halive])
    refine ⟨j, (waits_call hh hs' j).mpr (by simpa [hji] using hj), .inl ?_⟩
    rw [hs']
    by_cases hl : Launches s method
    · exact fun hij => hji (Option.some.inj ((hh.launched hl).symm.trans hij)).symm
    · exact fun hij => hslot ((hh.quiet hl).1.symm.trans hij)
  | activityResult granted refused =>
    simp only [Activity.step, Option.ite_none_right_eq_some, Option.some.injEq] at hs
    obtain ⟨⟨halive, -⟩, hs'⟩ := hs
    have hslot : s.pendingResult ≠ some j := hgone.resolve_right (by simp [halive])
    have hcases := onActivityResult_cases
      { s with dialogs := s.dialogs - 1, permitted := s.permitted || granted } granted refused
    rw [hs'] at hcases
    obtain ⟨hcalls, -, hempty, hreplies⟩ := hcases
    refine ⟨j, ⟨by rw [hcalls]; exact hj.1, ?_⟩, .inl (by simp [hempty])⟩
    rcases hreplies with ⟨-, hreplies, -⟩ | ⟨-, reply, hreplies, -⟩
    · rw [hreplies]
      exact hj.2
    · rw [hreplies, answer_other (s := { s with
        dialogs := s.dialogs - 1, permitted := s.permitted || granted }) hslot]
      exact hj.2

/-- **Every call is answered exactly once, if and only if no dialog is launched over an open one**
(and no exception leaves `onActivityResult`): over every run, for the calls made when every dialog
launched has returned. -/
theorem all_answered_iff (as : List ActivityAct) (s : Activity)
    (hrun : run Activity.step {} as = some s) (hreturned : s.dialogs = 0) :
    AllAnswered s ↔ AllSteps Activity.step OneDialog {} as := by
  have hstart : Kept {} := by
    refine ⟨rfl, fun _ _ => rfl, fun _ => .inl rfl, ?_, ?_⟩ <;> simp [Waits]
  rcases run_kept_or_trapped (fun _ _ _ h hok hs => Kept.step h hok hs)
      (fun _ _ _ h hnot hs => Kept.lost h hnot hs) (fun _ _ _ h hs => Lost.step h hs) hstart hrun
    with ⟨hall, hkept⟩ | ⟨hnot, i, hi, -⟩
  · refine iff_of_true (fun i hi => ?_) hall
    rcases hkept.once i with hnone | hone
    · have hdialog := (hkept.slot i ⟨hi, hnone⟩).1
      omega
    · exact hone
  · refine iff_of_false (fun hanswered => ?_) hnot
    obtain ⟨reply, hreply⟩ := hanswered i hi.1
    rw [hi.2] at hreply
    cases hreply

/-- A sufficient check of `OneDialog`. -/
def checkOneDialog (s : Activity) : ActivityAct → Bool
  | .call _ _ _ => s.dialogs == 0
  | .activityResult _ refused =>
    match s.pendingArgs with
    | none => true
    | some args => (startVpn args refused).isOk
  | _ => true

theorem oneDialog_of_check (s : Activity) (a : ActivityAct) (h : checkOneDialog s a = true) :
    OneDialog s a := by
  cases a with
  | call i method refused => exact fun _ => by simpa [checkOneDialog] using h
  | activityResult granted refused =>
    rintro ⟨-, args, hargs, message, hthrows⟩
    simp [checkOneDialog, hargs, hthrows, Except.isOk, Except.toBool] at h
  | permit b => trivial
  | native json => trivial

/-- A `requestPermission` that is granted, a `connect` after it and a `status`: three calls, each
answered once. -/
theorem granted_then_connected_answered :
    ∃ s, run Activity.step {}
        [.call 0 .requestPermission none, .activityResult true none,
          .call 1 (.connect ⟨some "", none, none, none⟩) none, .call 2 .status none] = some s ∧
      AllAnswered s := by
  obtain ⟨s, hrun, hs⟩ := exists_of_run_map Activity.step {}
    [.call 0 .requestPermission none, .activityResult true none,
      .call 1 (.connect ⟨some "", none, none, none⟩) none, .call 2 .status none]
    (fun s => s.dialogs == 0) (by decide)
  refine ⟨s, hrun, (all_answered_iff _ s hrun (by simpa using hs)).mpr ?_⟩
  exact AllSteps.of_check oneDialog_of_check (by decide)

/-- Two calls that find the permission missing: both dialogs return, and the first call is never
answered. -/
theorem second_dialog_takes_reply :
    ∃ s, run Activity.step {}
        [.call 0 .requestPermission none, .call 1 .requestPermission none,
          .activityResult true none, .activityResult true none] = some s ∧
      s.dialogs = 0 ∧ s.crashed = false ∧ s.calls 0 ≠ none ∧ s.replies 0 = [] ∧
      s.replies 1 = [.success (.bool true)] := by
  obtain ⟨s, hrun, hs⟩ := exists_of_run_map Activity.step {}
    [.call 0 .requestPermission none, .call 1 .requestPermission none,
      .activityResult true none, .activityResult true none]
    (fun s => s.dialogs == 0 && !s.crashed && (s.calls 0).isSome && s.replies 0 == [] &&
      s.replies 1 == [.success (.bool true)]) (by decide)
  simp only [Bool.and_eq_true, beq_iff_eq, Bool.not_eq_true', Option.isSome_iff_ne_none] at hs
  obtain ⟨⟨⟨⟨hdialogs, halive⟩, hcall⟩, hnone⟩, hone⟩ := hs
  exact ⟨s, hrun, hdialogs, halive, hcall, hnone, hone⟩

end FfVpn.Analysis.Replies
