import Mathlib.Data.Option.Basic
import Mathlib.Data.List.Infix

/-!
# Runs of a partial step function

A system is given by `step : σ → α → Option σ`: the state after an action, or `none` where the
action is not enabled. A run is a list of actions. What a development says about a system is said
of every state a run goes through (`AllStates`) or of every step it takes (`AllSteps`), and is
proved from one step by the rules of this file:

- `AllStates.of_invariant`: what one step preserves holds along every run;
- `AllStates.of_guarded`: the same for runs whose steps all meet a condition;
- `allStates_iff_allSteps`: the condition is exact when every step that breaks it breaks the
  property;
- `run_history`: what relates the actions so far to the state they lead to;
- `run_kept_or_trapped`: the same for the state a run ends in, when what is broken stays broken;
- `countP_le_of_measure`: what every step of a kind makes smaller, and no step larger, bounds their
  number;
- `Simulation.reachable`: a state map that sends steps to steps (or to nothing) sends reachable
  states to reachable states.
-/

set_option autoImplicit false

namespace FfVpn.Library.Transition

variable {σ α τ β : Type} (step : σ → α → Option σ)

/-- The state after a list of actions; `none` as soon as one of them is not enabled. -/
def run : σ → List α → Option σ
  | s, [] => some s
  | s, a :: as => (step s a).bind fun s' => run s' as

/-- `P` holds of every state the run of the actions goes through, the first included. -/
def AllStates (P : σ → Prop) : σ → List α → Prop
  | s, [] => P s
  | s, a :: as => P s ∧ ∀ s', step s a = some s' → AllStates P s' as

/-- `ok` holds of every step the run takes: of the state before it and the action. -/
def AllSteps (ok : σ → α → Prop) : σ → List α → Prop
  | _, [] => True
  | s, a :: as => ∀ s', step s a = some s' → ok s a ∧ AllSteps ok s' as

/-- Some run from `init` ends in `s`. -/
def Reachable (init s : σ) : Prop := ∃ as, run step init as = some s

@[simp] theorem run_nil (s : σ) : run step s [] = some s := rfl

theorem run_cons (s : σ) (a : α) (as : List α) :
    run step s (a :: as) = (step s a).bind fun s' => run step s' as := rfl

variable {step}

/-- A run of at least one action: its first step and the rest. -/
theorem run_cons_eq_some {s s' : σ} {a : α} {as : List α} :
    run step s (a :: as) = some s' ↔ ∃ m, step s a = some m ∧ run step m as = some s' := by
  simp only [run_cons, Option.bind_eq_some_iff]

/-- A run that a check accepts ends in a state that the check accepts. -/
theorem exists_of_run_map (step : σ → α → Option σ) (s : σ) (as : List α) (p : σ → Bool)
    (h : (run step s as).map p = some true) : ∃ s', run step s as = some s' ∧ p s' = true := by
  simpa only [Option.map_eq_some_iff] using h

theorem run_append (s : σ) (as bs : List α) :
    run step s (as ++ bs) = (run step s as).bind fun m => run step m bs := by
  induction as generalizing s with
  | nil => rfl
  | cons a as ih =>
    simp only [List.cons_append, run_cons]
    cases step s a with
    | none => rfl
    | some m => simpa using ih m

theorem Reachable.init (s : σ) : Reachable step s s := ⟨[], rfl⟩

theorem Reachable.next {init s s' : σ} {a : α} (h : Reachable step init s)
    (hs : step s a = some s') : Reachable step init s' := by
  obtain ⟨as, has⟩ := h
  refine ⟨as ++ [a], ?_⟩
  rw [run_append, has]
  simp [run_cons, hs]

/-- What holds of every state of a run holds of the state it ends in. -/
theorem AllStates.last {P : σ → Prop} {s s' : σ} {as : List α} (h : AllStates step P s as)
    (hrun : run step s as = some s') : P s' := by
  induction as generalizing s with
  | nil =>
    obtain rfl : s = s' := by simpa using hrun
    exact h
  | cons a as ih =>
    obtain ⟨m, hm, hrest⟩ := run_cons_eq_some.mp hrun
    exact ih (h.2 m hm) hrest

/-- What follows in every state from what holds along a run holds along it too. -/
theorem AllStates.mono {P Q : σ → Prop} (hPQ : ∀ s, P s → Q s) {s : σ} {as : List α}
    (h : AllStates step P s as) : AllStates step Q s as := by
  induction as generalizing s with
  | nil => exact hPQ s h
  | cons a as ih => exact ⟨hPQ s h.1, fun m hm => ih (h.2 m hm)⟩

theorem AllSteps.append {ok : σ → α → Prop} {s m : σ} {as bs : List α}
    (hrun : run step s as = some m) :
    AllSteps step ok s (as ++ bs) ↔ AllSteps step ok s as ∧ AllSteps step ok m bs := by
  induction as generalizing s with
  | nil =>
    obtain rfl : s = m := by simpa using hrun
    simp [AllSteps]
  | cons a as ih =>
    obtain ⟨n, hn, hrest⟩ := run_cons_eq_some.mp hrun
    simp only [List.cons_append, AllSteps, hn, Option.some.injEq, forall_eq']
    rw [ih hrest, and_assoc]

/-- What the steps of a run put out, in their order. -/
def outputs (step : σ → α → Option σ) (out : σ → α → Option β) : σ → List α → List β
  | _, [] => []
  | s, a :: as => match step s a with
    | some s' => (out s a).toList ++ outputs step out s' as
    | none => []

theorem outputs_cons {out : σ → α → Option β} {s s' : σ} {a : α} (hs : step s a = some s')
    (as : List α) : outputs step out s (a :: as) = (out s a).toList ++ outputs step out s' as := by
  rw [outputs, hs]

/-- What is put out later stands behind. -/
theorem outputs_append {out : σ → α → Option β} {s m : σ} {as : List α}
    (hrun : run step s as = some m) (bs : List α) :
    outputs step out s (as ++ bs) = outputs step out s as ++ outputs step out m bs := by
  induction as generalizing s with
  | nil =>
    obtain rfl : s = m := by simpa using hrun
    rfl
  | cons a as ih =>
    obtain ⟨s', hs, hrest⟩ := run_cons_eq_some.mp hrun
    rw [List.cons_append, outputs_cons hs, outputs_cons hs, ih hrest, List.append_assoc]

/-- What a run puts out with one more step. -/
theorem outputs_concat {out : σ → α → Option β} {s m s' : σ} {as : List α} {a : α}
    (hrun : run step s as = some m) (hs : step m a = some s') :
    outputs step out s (as ++ [a]) = outputs step out s as ++ (out m a).toList := by
  rw [outputs_append hrun, outputs_cons hs, outputs, List.append_nil]

/-- The run took the action, in a state with `Q`. -/
def TookIn (step : σ → α → Option σ) (init : σ) (as : List α) (a : α) (Q : σ → Prop) : Prop :=
  ∃ before after m, as = before ++ a :: after ∧ run step init before = some m ∧ Q m

theorem TookIn.append {init : σ} {as : List α} {a : α} {Q : σ → Prop}
    (h : TookIn step init as a Q) (bs : List α) : TookIn step init (as ++ bs) a Q := by
  obtain ⟨before, after, m, rfl, hm, hQ⟩ := h
  exact ⟨before, after ++ bs, m, by simp, hm, hQ⟩

/-- The last action of a run. -/
theorem TookIn.last {init m : σ} {as : List α} (hrun : run step init as = some m) (a : α)
    {Q : σ → Prop} (hQ : Q m) : TookIn step init (as ++ [a]) a Q :=
  ⟨as, [], m, rfl, hrun, hQ⟩

theorem AllSteps.and {ok ok' : σ → α → Prop} {s : σ} {as : List α} (h : AllSteps step ok s as)
    (h' : AllSteps step ok' s as) : AllSteps step (fun s a => ok s a ∧ ok' s a) s as := by
  induction as generalizing s with
  | nil => trivial
  | cons a as ih => exact fun m hm => ⟨⟨(h m hm).1, (h' m hm).1⟩, ih (h m hm).2 (h' m hm).2⟩

/-- **The history rule.** What relates the actions so far to the state they lead to: it holds before
the first action, and with each further action it is carried on. -/
theorem run_history {P : List α → σ → Prop} {init : σ} (h0 : P [] init)
    (hstep : ∀ as s a s', run step init as = some s → P as s → step s a = some s' →
      P (as ++ [a]) s') {as : List α} {s : σ} (hrun : run step init as = some s) : P as s := by
  induction as using List.reverseRecOn generalizing s with
  | nil =>
    obtain rfl : init = s := by simpa using hrun
    exact h0
  | append_singleton as a ih =>
    rw [run_append, Option.bind_eq_some_iff] at hrun
    obtain ⟨m, hm, hlast⟩ := hrun
    obtain ⟨s'', hs, hnil⟩ := run_cons_eq_some.mp hlast
    obtain rfl : s'' = s := by simpa using hnil
    exact hstep as m a s'' hm (ih hm) hs

/-- **The guarded invariant rule.** What holds at the start and is preserved by every step that
meets `ok` holds along every run whose steps all meet it. -/
theorem AllStates.of_guarded {I : σ → Prop} {ok : σ → α → Prop}
    (hstep : ∀ s a s', I s → ok s a → step s a = some s' → I s') {s : σ} {as : List α}
    (h0 : I s) (hok : AllSteps step ok s as) : AllStates step I s as := by
  induction as generalizing s with
  | nil => exact h0
  | cons a as ih =>
    refine ⟨h0, fun m hm => ?_⟩
    obtain ⟨hokm, hrest⟩ := hok m hm
    exact ih (hstep s a m h0 hokm hm) hrest

/-- **The invariant rule.** What holds at the start and is preserved by every step holds along
every run. -/
theorem AllStates.of_invariant {I : σ → Prop} (hstep : ∀ s a s', I s → step s a = some s' → I s')
    {s : σ} (as : List α) (h0 : I s) : AllStates step I s as := by
  refine AllStates.of_guarded (fun s a s' hI (_ : True) hs => hstep s a s' hI hs) h0 ?_
  induction as generalizing s with
  | nil => trivial
  | cons a as ih => exact fun m hm => ⟨trivial, ih (hstep s a m h0 hm)⟩

theorem Reachable.invariant {I : σ → Prop} {init s : σ} (h : Reachable step init s) (h0 : I init)
    (hstep : ∀ s a s', I s → step s a = some s' → I s') : I s := by
  obtain ⟨as, has⟩ := h
  exact (AllStates.of_invariant hstep as h0).last has

/-- The guarded invariant rule, for the state a run ends in. -/
theorem guarded_last {I : σ → Prop} {ok : σ → α → Prop} {init s : σ} {as : List α}
    (hrun : run step init as = some s) (hok : AllSteps step ok init as) (h0 : I init)
    (hstep : ∀ s a s', I s → ok s a → step s a = some s' → I s') : I s :=
  (AllStates.of_guarded hstep h0 hok).last hrun

/-- A property of single steps, from an invariant and a condition on the steps. -/
theorem AllSteps.of_guarded {I : σ → Prop} {ok Q : σ → α → Prop}
    (hstep : ∀ s a s', I s → ok s a → step s a = some s' → I s')
    (hQ : ∀ s a s', I s → ok s a → step s a = some s' → Q s a) {s : σ} {as : List α}
    (h0 : I s) (hok : AllSteps step ok s as) : AllSteps step Q s as := by
  induction as generalizing s with
  | nil => trivial
  | cons a as ih =>
    intro m hm
    obtain ⟨hokm, hrest⟩ := hok m hm
    exact ⟨hQ s a m h0 hokm hm, ih (hstep s a m h0 hokm hm) hrest⟩

/-- A check of a condition along a run, where `check` decides enough of it. -/
def checkSteps (step : σ → α → Option σ) (check : σ → α → Bool) : σ → List α → Bool
  | _, [] => true
  | s, a :: as => match step s a with
    | some s' => check s a && checkSteps step check s' as
    | none => true

theorem AllSteps.of_check {ok : σ → α → Prop} {check : σ → α → Bool}
    (hcheck : ∀ s a, check s a = true → ok s a) {s : σ} {as : List α}
    (h : checkSteps step check s as = true) : AllSteps step ok s as := by
  induction as generalizing s with
  | nil => trivial
  | cons a as ih =>
    intro m hm
    rw [checkSteps, hm, Bool.and_eq_true] at h
    exact ⟨hcheck s a h.1, ih h.2⟩

/-- A condition on the actions alone, whatever the states between them. -/
theorem AllSteps.of_actions {ok : σ → α → Prop} {p : α → Bool}
    (hp : ∀ s a, p a = true → ok s a) {s : σ} {as : List α} (h : as.all p = true) :
    AllSteps step ok s as := by
  induction as generalizing s with
  | nil => trivial
  | cons a as ih =>
    rw [List.all_cons, Bool.and_eq_true] at h
    exact fun m _ => ⟨hp s a h.1, ih h.2⟩

/-- The run takes only the actions it is given. -/
theorem AllSteps.of_forall_mem {ok : σ → α → Prop} {as : List α} (h : ∀ a ∈ as, ∀ s, ok s a)
    {s : σ} : AllSteps step ok s as := by
  induction as generalizing s with
  | nil => trivial
  | cons a as ih =>
    rw [List.forall_mem_cons] at h
    exact fun m _ => ⟨h.1 s, ih h.2⟩

/-- **Exact conditions.** Let `I` be an invariant, and let a step from a state with `P` keep `P`
exactly when it meets `ok`. Then the runs that keep `P` throughout are exactly those whose steps
all meet `ok`. -/
theorem allStates_iff_allSteps {I P : σ → Prop} {ok : σ → α → Prop}
    (hI : ∀ s a s', I s → step s a = some s' → I s')
    (hP : ∀ s a s', I s → P s → step s a = some s' → (P s' ↔ ok s a)) {s : σ} (as : List α)
    (h0 : I s) (hP0 : P s) : AllStates step P s as ↔ AllSteps step ok s as := by
  induction as generalizing s with
  | nil => simp [AllStates, AllSteps, hP0]
  | cons a as ih =>
    constructor
    · rintro ⟨-, hrest⟩ m hm
      have hPm : P m := by
        have := hrest m hm
        cases as with
        | nil => exact this
        | cons b bs => exact this.1
      exact ⟨(hP s a m h0 hP0 hm).mp hPm, (ih (hI s a m h0 hm) hPm).mp (hrest m hm)⟩
    · intro hok
      refine ⟨hP0, fun m hm => ?_⟩
      obtain ⟨hokm, hrest⟩ := hok m hm
      have hPm : P m := (hP s a m h0 hP0 hm).mpr hokm
      exact (ih (hI s a m h0 hm) hPm).mpr hrest

/-- **Traps.** Let the steps that meet `ok` keep `I`, let the others lead from `I` into `Bad`, and
let no step lead out of `Bad`. Then a run keeps `I` exactly where its steps all meet `ok`, and has
ended in `Bad` otherwise. -/
theorem run_kept_or_trapped {I Bad : σ → Prop} {ok : σ → α → Prop}
    (hkeep : ∀ s a s', I s → ok s a → step s a = some s' → I s')
    (hbreak : ∀ s a s', I s → ¬ ok s a → step s a = some s' → Bad s')
    (hstay : ∀ s a s', Bad s → step s a = some s' → Bad s') {s s' : σ} {as : List α} (h0 : I s)
    (hrun : run step s as = some s') :
    (AllSteps step ok s as ∧ I s') ∨ (¬ AllSteps step ok s as ∧ Bad s') := by
  induction as generalizing s with
  | nil =>
    obtain rfl : s = s' := by simpa using hrun
    exact .inl ⟨trivial, h0⟩
  | cons a as ih =>
    obtain ⟨m, hm, hrest⟩ := run_cons_eq_some.mp hrun
    by_cases hok : ok s a
    · rcases ih (hkeep s a m h0 hok hm) hrest with ⟨hall, hend⟩ | ⟨hnot, hend⟩
      · refine .inl ⟨fun n hn => ?_, hend⟩
        obtain rfl : m = n := Option.some.inj (hm.symm.trans hn)
        exact ⟨hok, hall⟩
      · exact .inr ⟨fun hall => hnot (hall m hm).2, hend⟩
    · refine .inr ⟨fun hall => hok (hall m hm).1, ?_⟩
      exact (AllStates.of_invariant hstay as (hbreak s a m h0 hok hm)).last hrest

/-- **Measures.** What the steps of a kind make smaller, and the others no larger, bounds how many
of that kind a run takes. -/
theorem countP_le_of_measure {μ : σ → Nat} {p : α → Bool}
    (hless : ∀ s a s', step s a = some s' → p a = true → μ s' < μ s)
    (hkeep : ∀ s a s', step s a = some s' → p a = false → μ s' ≤ μ s) {s s' : σ} {as : List α}
    (hrun : run step s as = some s') : as.countP p + μ s' ≤ μ s := by
  induction as generalizing s with
  | nil =>
    obtain rfl : s = s' := by simpa using hrun
    simp
  | cons a as ih =>
    obtain ⟨m, hm, hrest⟩ := run_cons_eq_some.mp hrun
    have hmore := ih hrest
    cases hp : p a with
    | true =>
      have := hless s a m hm hp
      rw [List.countP_cons_of_pos hp]
      omega
    | false =>
      have := hkeep s a m hm hp
      rw [List.countP_cons_of_neg (by simp [hp])]
      omega

/-- `f` maps every step of `step` to a step of `astep`, or to no change at all. -/
def Simulation (step : σ → α → Option σ) (astep : τ → β → Option τ) (f : σ → τ) : Prop :=
  ∀ s a s', step s a = some s' → f s' = f s ∨ ∃ b, astep (f s) b = some (f s')

/-- **Refinement.** A simulation maps reachable states to reachable states, so an invariant of the
abstract system is one of the concrete system. -/
theorem Simulation.reachable {astep : τ → β → Option τ} {f : σ → τ}
    (hsim : Simulation step astep f) {init s : σ} (h : Reachable step init s) :
    Reachable astep (f init) (f s) := by
  refine h.invariant (I := fun s => Reachable astep (f init) (f s)) (Reachable.init _) ?_
  intro s a s' hs hstep
  rcases hsim s a s' hstep with heq | ⟨b, hb⟩
  · rw [heq]; exact hs
  · exact Reachable.next hs hb

/-! ## Steps that consist of steps -/

/-- The steps of another machine that the steps of a run consist of. -/
def parts (step : σ → α → Option σ) (part : σ → α → List β) : σ → List α → List β
  | _, [] => []
  | s, a :: as => match step s a with
    | some s' => part s a ++ parts step part s' as
    | none => []

/-- A step is a run of its parts. -/
def ConsistsOf (step : σ → α → Option σ) (astep : τ → β → Option τ) (f : σ → τ)
    (part : σ → α → List β) : Prop :=
  ∀ s a s', step s a = some s' → run astep (f s) (part s a) = some (f s')

section ConsistsOf

variable {astep : τ → β → Option τ} {f : σ → τ} {part : σ → α → List β}

theorem parts_cons {s s' : σ} {a : α} (hs : step s a = some s') (as : List α) :
    parts step part s (a :: as) = part s a ++ parts step part s' as := by
  rw [parts, hs]

/-- A run is a run of its parts. -/
theorem ConsistsOf.run (h : ConsistsOf step astep f part) {s s' : σ} {as : List α}
    (hrun : run step s as = some s') :
    Transition.run astep (f s) (parts step part s as) = some (f s') := by
  induction as generalizing s with
  | nil =>
    obtain rfl : s = s' := by simpa using hrun
    rfl
  | cons a as ih =>
    obtain ⟨m, hm, hrest⟩ := run_cons_eq_some.mp hrun
    rw [parts_cons hm, run_append, h s a m hm]
    exact ih hrest

/-- A part that a run took was one of a step that the run took. -/
theorem ConsistsOf.tookIn (h : ConsistsOf step astep f part) {s s' : σ} {as : List α}
    (hrun : Transition.run step s as = some s') {b : β} {Q : τ → Prop}
    (htook : TookIn astep (f s) (parts step part s as) b Q) :
    ∃ a, TookIn step s as a fun m => ∃ before after t, part m a = before ++ b :: after ∧
      Transition.run astep (f m) before = some t ∧ Q t := by
  induction as generalizing s with
  | nil =>
    obtain ⟨before, after, t, hsplit, -⟩ := htook
    simp [parts] at hsplit
  | cons a as ih =>
    obtain ⟨m, hm, hrest⟩ := run_cons_eq_some.mp hrun
    obtain ⟨before, after, t, hsplit, ht, hQ⟩ := htook
    rw [parts_cons hm] at hsplit
    have hlater : ∀ more, before = part s a ++ more → parts step part m as = more ++ b :: after →
        ∃ a', TookIn step s (a :: as) a' fun m =>
          ∃ before after t, part m a' = before ++ b :: after ∧
          Transition.run astep (f m) before = some t ∧ Q t := by
      rintro more rfl hmore
      rw [run_append, h s a m hm] at ht
      obtain ⟨a', before', after', m', has, hm', hstep⟩ := ih hrest ⟨more, after, t, hmore, ht, hQ⟩
      refine ⟨a', a :: before', after', m', by rw [has, List.cons_append], ?_, hstep⟩
      exact run_cons_eq_some.mpr ⟨m, hm, hm'⟩
    rcases List.append_eq_append_iff.mp hsplit with ⟨more, hbefore, hmore⟩ | ⟨more, hpart, hmore⟩
    · exact hlater more hbefore hmore
    · cases more with
      | nil => exact hlater [] (by simpa using hpart.symm) hmore.symm
      | cons b' more =>
        obtain ⟨rfl, -⟩ := List.cons.inj hmore
        exact ⟨a, [], as, s, rfl, rfl, before, more, t, hpart, ht, hQ⟩

end ConsistsOf

end FfVpn.Library.Transition
