import FfVpn.Library.Json

/-!
# The order of members

An object is a collection of members without an order. `Reordered` relates the documents that differ
in the order of members and in nothing else, at any depth. What a reader may ask of an object does
not tell them apart: its names (`Reordered.names`), and the value under a name that occurs once
(`Reordered.lookup`).
-/

set_option autoImplicit false

namespace FfVpn.Library.Json

open FfVpn.Library.Utf16

/-- The documents differ in the order of members only. -/
inductive Reordered : Value → Value → Prop
  | refl (v : Value) : Reordered v v
  | trans {u v w : Value} : Reordered u v → Reordered v w → Reordered u w
  | members {ms ns : Members} : ms.Perm ns → Reordered (.obj ms) (.obj ns)
  | member {v w : Value} (ms : Members) (k : Units) (ns : Members) : Reordered v w →
      Reordered (.obj (ms ++ (k, v) :: ns)) (.obj (ms ++ (k, w) :: ns))
  | item {v w : Value} (xs ys : List Value) : Reordered v w →
      Reordered (.arr (xs ++ v :: ys)) (.arr (xs ++ w :: ys))

/-! ## Scalars -/

/-- Neither an array nor an object. -/
def isScalar : Value → Bool
  | .arr _ | .obj _ => false
  | _ => true

/-- A scalar has one order. -/
theorem Reordered.scalar {v w : Value} (h : Reordered v w) :
    (isScalar v = true ∨ isScalar w = true) → v = w := by
  induction h with
  | refl v => intro _; rfl
  | trans _ _ ih₁ ih₂ =>
    rintro (hu | hw)
    · obtain rfl := ih₁ (.inl hu)
      exact ih₂ (.inl hu)
    · obtain rfl := ih₂ (.inr hw)
      exact ih₁ (.inr hw)
  | members _ => intro h; simp [isScalar] at h
  | member _ _ _ _ _ => intro h; simp [isScalar] at h
  | item _ _ _ _ => intro h; simp [isScalar] at h

/-! ## Arrays -/

theorem Reordered.forall₂_refl (xs : List Value) : List.Forall₂ Reordered xs xs := by
  induction xs with
  | nil => exact .nil
  | cons x xs ih => exact .cons (.refl x) ih

theorem Reordered.forall₂_trans {xs ys zs : List Value} (hxy : List.Forall₂ Reordered xs ys)
    (hyz : List.Forall₂ Reordered ys zs) : List.Forall₂ Reordered xs zs := by
  induction hxy generalizing zs with
  | nil => exact hyz
  | cons hx _ ih =>
    cases hyz with
    | cons hy hys => exact .cons (hx.trans hy) (ih hys)

/-- The items of an array keep their places. -/
theorem Reordered.items {v w : Value} (h : Reordered v w) :
    ∀ xs, v = .arr xs → ∃ ys, w = .arr ys ∧ List.Forall₂ Reordered xs ys := by
  induction h with
  | refl v => exact fun xs hxs => ⟨xs, hxs, forall₂_refl xs⟩
  | trans _ _ ih₁ ih₂ =>
    intro xs hxs
    obtain ⟨ys, hys, hxy⟩ := ih₁ xs hxs
    obtain ⟨zs, hzs, hyz⟩ := ih₂ ys hys
    exact ⟨zs, hzs, forall₂_trans hxy hyz⟩
  | members _ => intro xs hxs; cases hxs
  | member _ _ _ _ _ => intro xs hxs; cases hxs
  | item xs ys hvw _ =>
    rintro _ ⟨⟩
    exact ⟨_, rfl, List.rel_append (forall₂_refl xs) (.cons hvw (forall₂_refl ys))⟩

/-! ## Objects -/

/-- How often a name occurs is a matter of the names. -/
theorem countP_names {ms ns : Members} (h : (ms.map Prod.fst).Perm (ns.map Prod.fst)) (k : Units) :
    ms.countP (·.1 = k) = ns.countP (·.1 = k) := by
  have hcount := h.countP_eq (fun name => decide (name = k))
  rw [List.countP_map, List.countP_map] at hcount
  exact hcount

theorem lookup_append (k : Units) (ms ns : Members) :
    lookup k (ms ++ ns) = (lookup k ns).or (lookup k ms) := by
  induction ms with
  | nil => simp [lookup]
  | cons m ms ih => simp only [List.cons_append, lookup, ih, Option.or_assoc]

theorem lookup_eq_none {k : Units} {ms : Members} (h : ms.countP (·.1 = k) = 0) :
    lookup k ms = none := by
  induction ms with
  | nil => rfl
  | cons m ms ih =>
    rw [List.countP_cons] at h
    have hne : ¬ m.1 = k := by
      intro heq
      simp [heq] at h
    rw [lookup, ih (by omega), if_neg hne]
    rfl

/-- A name that occurs once stands for its one value. -/
theorem lookup_eq_some_iff {k : Units} {ms : Members} (h : ms.countP (·.1 = k) ≤ 1) (v : Value) :
    lookup k ms = some v ↔ (k, v) ∈ ms := by
  induction ms with
  | nil => simp [lookup]
  | cons m ms ih =>
    obtain ⟨k', v'⟩ := m
    rw [List.countP_cons] at h
    by_cases hk : k' = k
    · subst hk
      have hzero : ms.countP (·.1 = k') = 0 := by
        simp only [decide_true, if_true] at h
        omega
      have hnot : (k', v) ∉ ms := by
        intro hmem
        exact List.countP_eq_zero.mp hzero _ hmem (by simp)
      simp [lookup, lookup_eq_none hzero, hnot, eq_comm]
    · have hle : ms.countP (·.1 = k) ≤ 1 := by omega
      simp [lookup, ih hle, hk, Ne.symm hk]

theorem Reordered.option_refl (o : Option Value) : Option.Rel Reordered o o := by
  cases o with
  | none => exact .none
  | some v => exact .some (.refl v)

theorem Reordered.option_trans {o p q : Option Value} (hop : Option.Rel Reordered o p)
    (hpq : Option.Rel Reordered p q) : Option.Rel Reordered o q := by
  cases hop with
  | none => exact hpq
  | some hv =>
    cases hpq with
    | some hw => exact .some (hv.trans hw)

theorem Reordered.option_or {o o' p p' : Option Value} (ho : Option.Rel Reordered o o')
    (hp : Option.Rel Reordered p p') : Option.Rel Reordered (o.or p) (o'.or p') := by
  cases ho with
  | none => exact hp
  | some hv => exact .some hv

/-- Objects have the same names, and a name that occurs once stands for the same document. -/
theorem Reordered.object {v w : Value} (h : Reordered v w) :
    ∀ ms, v = .obj ms → ∃ ns, w = .obj ns ∧ (ms.map Prod.fst).Perm (ns.map Prod.fst) ∧
      ∀ k, ms.countP (·.1 = k) ≤ 1 → Option.Rel Reordered (lookup k ms) (lookup k ns) := by
  induction h with
  | refl v => exact fun ms hms => ⟨ms, hms, .refl _, fun k _ => option_refl _⟩
  | trans _ _ ih₁ ih₂ =>
    intro ms hms
    obtain ⟨ns, hns, hnames, hlookup⟩ := ih₁ ms hms
    obtain ⟨os, hos, hnames', hlookup'⟩ := ih₂ ns hns
    refine ⟨os, hos, hnames.trans hnames', fun k hk => ?_⟩
    have hk' : ns.countP (·.1 = k) ≤ 1 := by
      rwa [← countP_names hnames]
    exact option_trans (hlookup k hk) (hlookup' k hk')
  | @members ms ns hperm =>
    rintro _ ⟨⟩
    refine ⟨ns, rfl, hperm.map _, fun k hk => ?_⟩
    have hk' : ns.countP (·.1 = k) ≤ 1 := by
      rwa [← hperm.countP_eq]
    have hsame : lookup k ms = lookup k ns := by
      apply Option.ext
      intro v
      rw [lookup_eq_some_iff hk, lookup_eq_some_iff hk', hperm.mem_iff]
    rw [hsame]
    exact option_refl _
  | @member v w ms k ns hvw _ =>
    rintro _ ⟨⟩
    refine ⟨_, rfl, by simp, fun k' _ => ?_⟩
    rw [lookup_append, lookup_append, lookup, lookup]
    have hmember : Option.Rel Reordered (if k = k' then some v else none)
        (if k = k' then some w else none) := by
      split
      · exact .some hvw
      · exact .none
    exact option_or (option_or (option_refl _) hmember) (option_refl _)
  | item _ _ _ _ => intro ms hms; cases hms

end FfVpn.Library.Json
