import FfVpn.Library.Transition

/-!
# Linearizability, by linearization points

Calls on a concurrent object are made, take effect and return in steps that interleave. A run is
linearized by a sequential order of its calls that a sequential object accepts, that has every call
that returned with the result it returned, and that puts a call that returned before another one was
made in front of it (`Linearization`).

The rule is that of linearization points: when a call takes effect in one step, and no other step
changes what the object stands for, the calls in the order of these steps are a linearization
(`Points.Lawful.linearization`). They are an output of the run, so no call is moved once it has
taken effect.
-/

set_option autoImplicit false

namespace FfVpn.Library.Linearizable

open FfVpn.Library.Transition

variable {τ α σ κ ρ : Type}

/-- A concurrent object: its steps, the calls that have been made, and those that have returned. -/
structure Object (τ α κ ρ : Type) where
  step : τ → α → Option τ
  called : τ → κ → Prop
  returned : τ → κ → ρ → Prop

/-- A sequential object makes of its state what each of the calls makes of it, one after the other;
`none` where a result is not one the call can have there. -/
def replay (next : σ → κ → ρ → Option σ) : σ → List (κ × ρ) → Option σ
  | s, [] => some s
  | s, (x, r) :: order => (next s x r).bind fun s' => replay next s' order

/-- `order` linearizes the run of `as` from `init` to `c`. -/
structure Linearization (O : Object τ α κ ρ) (next : σ → κ → ρ → Option σ) (start : σ) (init : τ)
    (as : List α) (c : τ) (order : List (κ × ρ)) : Prop where
  /-- The sequential object accepts the order. -/
  legal : (replay next start order).isSome
  /-- Every call takes effect at most once. -/
  once : (order.map Prod.fst).Nodup
  /-- It takes effect before it returns, with the result it returns. -/
  complete : ∀ x r, O.returned c x r → (x, r) ∈ order
  /-- It takes effect after it has been made. -/
  sound : ∀ e ∈ order, O.called c e.1
  /-- Calls that do not overlap take effect in the order in which they were made. -/
  realTime : ∀ before after m, as = before ++ after → run O.step init before = some m →
    ∀ x r y r', O.returned m x r → ¬ O.called m y → (y, r') ∈ order →
      List.Sublist [(x, r), (y, r')] order

/-- Which step a call takes effect in. -/
structure Points (τ α σ κ ρ : Type) where
  /-- What the object stands for. -/
  abs : τ → σ
  /-- The call that takes effect in a step, and its result. -/
  point : τ → α → Option (κ × ρ)
  /-- The result of a call that has taken effect. -/
  passed : τ → κ → Option ρ
  /-- An invariant of the object. -/
  Inv : τ → Prop

/-- What has to be shown of the points. -/
structure Points.Lawful (P : Points τ α σ κ ρ) (O : Object τ α κ ρ) (next : σ → κ → ρ → Option σ)
    (init : τ) : Prop where
  start : P.Inv init
  fresh : ∀ x, P.passed init x = none
  inv : ∀ c a c', P.Inv c → O.step c a = some c' → P.Inv c'
  quiet : ∀ c a c', P.Inv c → O.step c a = some c' → P.point c a = none →
    P.abs c' = P.abs c ∧ ∀ x, P.passed c' x = P.passed c x
  effect : ∀ c a c' x r, P.Inv c → O.step c a = some c' → P.point c a = some (x, r) →
    next (P.abs c) x r = some (P.abs c') ∧ P.passed c x = none ∧ P.passed c' x = some r ∧
      ∀ y, y ≠ x → P.passed c' y = P.passed c y
  returned : ∀ c x r, P.Inv c → O.returned c x r → P.passed c x = some r
  called : ∀ c x r, P.Inv c → P.passed c x = some r → O.called c x

/-- The calls in the order in which they take effect. -/
def Points.order (P : Points τ α σ κ ρ) (step : τ → α → Option τ) (init : τ) (as : List α) :
    List (κ × ρ) :=
  outputs step P.point init as

variable {P : Points τ α σ κ ρ} {O : Object τ α κ ρ} {next : σ → κ → ρ → Option σ}

/-- What one run does: the sequential object comes to what the object stands for, and the calls that
have taken effect are those that had before and those of the order, which had not. -/
structure Follows (P : Points τ α σ κ ρ) (next : σ → κ → ρ → Option σ) (c c' : τ)
    (order : List (κ × ρ)) : Prop where
  replay : replay next (P.abs c) order = some (P.abs c')
  passed : ∀ x r, P.passed c' x = some r ↔ P.passed c x = some r ∨ (x, r) ∈ order
  fresh : ∀ e ∈ order, P.passed c e.1 = none
  once : (order.map Prod.fst).Nodup

theorem Follows.refl (c : τ) : Follows P next c c [] where
  replay := rfl
  passed := by simp
  fresh := by simp
  once := by simp

/-- A step without a point in front of a run. -/
theorem Follows.quiet {c m c' : τ} {order : List (κ × ρ)} (h : Follows P next m c' order)
    (habs : P.abs m = P.abs c) (hpassed : ∀ x, P.passed m x = P.passed c x) :
    Follows P next c c' order where
  replay := by rw [← habs, h.replay]
  passed := fun x r => by rw [h.passed, hpassed]
  fresh := fun e he => by rw [← hpassed, h.fresh e he]
  once := h.once

/-- A step with a point in front of a run. -/
theorem Follows.point {c m c' : τ} {x : κ} {r : ρ} {order : List (κ × ρ)}
    (h : Follows P next m c' order) (hnext : next (P.abs c) x r = some (P.abs m))
    (hnone : P.passed c x = none) (hsome : P.passed m x = some r)
    (hother : ∀ y, y ≠ x → P.passed m y = P.passed c y) :
    Follows P next c c' ((x, r) :: order) := by
  -- the call does not take effect again
  have hne : ∀ e ∈ order, e.1 ≠ x := by
    rintro e he rfl
    have := h.fresh e he
    rw [hsome] at this
    cases this
  refine ⟨?_, ?_, ?_, ?_⟩
  · simp [Linearizable.replay, hnext, h.replay]
  · intro y r'
    rw [h.passed, List.mem_cons, Prod.mk.injEq]
    by_cases hy : y = x
    · subst hy
      simp [hsome, hnone, eq_comm]
    · simp [hother y hy, hy]
  · intro e he
    rcases List.mem_cons.mp he with rfl | he
    · exact hnone
    · rw [← hother e.1 (hne e he), h.fresh e he]
  · rw [List.map_cons, List.nodup_cons]
    refine ⟨?_, h.once⟩
    intro hmem
    obtain ⟨e, he, heq⟩ := List.mem_map.mp hmem
    exact hne e he heq

/-- Every run does so. -/
theorem Points.Lawful.follows {init : τ} (h : P.Lawful O next init) {c c' : τ} (hc : P.Inv c)
    {as : List α} (hrun : run O.step c as = some c') :
    Follows P next c c' (P.order O.step c as) ∧ P.Inv c' := by
  induction as generalizing c with
  | nil =>
    obtain rfl : c = c' := by simpa using hrun
    exact ⟨.refl c, hc⟩
  | cons a as ih =>
    obtain ⟨m, hs, hrest⟩ := run_cons_eq_some.mp hrun
    obtain ⟨hfollows, hinv⟩ := ih (h.inv c a m hc hs) hrest
    refine ⟨?_, hinv⟩
    rw [Points.order, outputs_cons hs]
    cases hpoint : P.point c a with
    | none =>
      obtain ⟨habs, hpassed⟩ := h.quiet c a m hc hs hpoint
      exact hfollows.quiet habs hpassed
    | some e =>
      obtain ⟨hnext, hnone, hsome, hother⟩ := h.effect c a m e.1 e.2 hc hs hpoint
      exact hfollows.point hnext hnone hsome hother

/-- **Linearization points.** The calls in the order in which they take effect linearize every run,
and bring the sequential object to what the object stands for at its end. -/
theorem Points.Lawful.linearization {init : τ} (h : P.Lawful O next init) {as : List α} {c : τ}
    (hrun : run O.step init as = some c) :
    Linearization O next (P.abs init) init as c (P.order O.step init as) ∧
      replay next (P.abs init) (P.order O.step init as) = some (P.abs c) := by
  obtain ⟨hfollows, hinv⟩ := h.follows h.start hrun
  have hmem : ∀ {as : List α} {m : τ}, run O.step init as = some m → ∀ x r,
      P.passed m x = some r ↔ (x, r) ∈ P.order O.step init as := by
    intro as m hm x r
    rw [(h.follows h.start hm).1.passed, h.fresh]
    simp
  refine ⟨⟨by rw [hfollows.replay]; rfl, hfollows.once, ?_, ?_, ?_⟩, hfollows.replay⟩
  · intro x r hreturned
    exact (hmem hrun x r).mp (h.returned c x r hinv hreturned)
  · rintro ⟨x, r⟩ he
    exact h.called c x r hinv ((hmem hrun x r).mpr he)
  · rintro before after m rfl hm x r y r' hreturned hnot hy
    have hmid := (h.follows h.start hm).2
    have hx := (hmem hm x r).mp (h.returned m x r hmid hreturned)
    rw [Points.order, outputs_append hm] at hy ⊢
    have hafter : (y, r') ∈ outputs O.step P.point m after := by
      rcases List.mem_append.mp hy with hbefore | hafter
      · exact absurd (h.called m y r' hmid ((hmem hm y r').mpr hbefore)) hnot
      · exact hafter
    exact (List.singleton_sublist.mpr hx).append (List.singleton_sublist.mpr hafter)

end FfVpn.Library.Linearizable
