import FfVpn.Library.Stream

/-!
# Byte-stream protocols fed in pieces

Bytes come as they come: a process that reads exactly what it asks for waits until the next of them
are there. Two more judgements on `Proc`, both closed under sequencing:

- `Incremental eof m`: with more input, `m` either ends as before, the further bytes untouched, or
  it had run out of input (it failed with `eof`) and goes on from the actions it had performed;
- `Emits m P`: what `m` returns and the actions it adds are in `P`.
-/

set_option autoImplicit false

namespace FfVpn.Library.Stream.Proc

variable {ε ω α β : Type}

/-- `more` bytes behind those still to be read. -/
def fed (s : Channel ω) (more : List UInt8) : Channel ω := { s with input := s.input ++ more }

/-- What a process does with the start of a stream stands, whatever comes after it. -/
structure Incremental (eof : ε) (m : Proc ε ω α) : Prop where
  grows : ∀ s, s.log <+: (m s).2.log
  feed : ∀ s more, ((m s).1 = .error eof ∧ (m s).2.log <+: (m (fed s more)).2.log) ∨
    m (fed s more) = ((m s).1, fed (m s).2 more)

namespace Incremental

variable {eof : ε}

theorem pure (a : α) : Incremental eof (Pure.pure a : Proc ε ω α) :=
  ⟨fun _ => List.prefix_refl _, fun _ _ => .inr rfl⟩

theorem fail (e : ε) : Incremental eof (fail e : Proc ε ω α) :=
  ⟨fun _ => List.prefix_refl _, fun _ _ => .inr rfl⟩

theorem perform (w : ω) : Incremental eof (perform w : Proc ε ω Unit) :=
  ⟨fun _ => List.prefix_append _ _, fun _ _ => .inr rfl⟩

/-- A read that the further bytes complete was short before. -/
theorem readExact (n : Nat) : Incremental eof (readExact eof n : Proc ε ω _) := by
  refine ⟨fun s => ?_, fun s more => ?_⟩
  · unfold Proc.readExact
    split <;> exact List.prefix_refl _
  · by_cases hn : n ≤ s.input.length
    · refine .inr ?_
      have hfed : n ≤ (fed s more).input.length := by
        simp only [fed, List.length_append]
        omega
      simp only [Proc.readExact, dif_pos hn, dif_pos hfed]
      simp [fed, List.take_append_of_le_length hn, List.drop_append_of_le_length hn]
    · refine .inl ?_
      simp only [Proc.readExact, dif_neg hn, true_and]
      split <;> exact List.prefix_refl _

/-- **Sequencing.** The second process takes over where the first has ended, and begins only then
where the first had run out of input. -/
theorem bind {m : Proc ε ω α} {f : α → Proc ε ω β} (hm : Incremental eof m)
    (hf : ∀ a, Incremental eof (f a)) : Incremental eof (m >>= f) := by
  refine ⟨fun s => ?_, fun s more => ?_⟩
  · have hgrows := hm.grows s
    rw [bind_apply]
    cases hms : m s with
    | mk r s₁ =>
      rw [hms] at hgrows
      cases r with
      | error e => exact hgrows
      | ok a => exact hgrows.trans ((hf a).grows s₁)
  · have hfeed := hm.feed s more
    rw [bind_apply, bind_apply]
    cases hms : m s with
    | mk r s₁ =>
      rw [hms] at hfeed
      cases r with
      | ok a =>
        obtain ⟨hend, -⟩ | hmore := hfeed
        · cases hend
        · rw [hmore]
          exact (hf a).feed s₁ more
      | error e =>
        obtain ⟨hend, hlog⟩ | hmore := hfeed
        · refine .inl ⟨by rw [Except.error.inj hend], ?_⟩
          cases hmore : m (fed s more) with
          | mk r' s₂ =>
            rw [hmore] at hlog
            cases r' with
            | error e' => exact hlog
            | ok a => exact hlog.trans ((hf a).grows s₂)
        · rw [hmore]
          exact .inr rfl

theorem ite {p : Prop} [Decidable p] {m n : Proc ε ω α} (hm : Incremental eof m)
    (hn : Incremental eof n) : Incremental eof (if p then m else n) := by
  by_cases hp : p
  · rwa [if_pos hp]
  · rwa [if_neg hp]

/-- What it has performed by then it will have performed. -/
theorem log_begins {m : Proc ε ω α} (hm : Incremental eof m) (s : Channel ω)
    (more : List UInt8) : (m s).2.log <+: (m (fed s more)).2.log := by
  obtain ⟨-, h⟩ | h := hm.feed s more
  · exact h
  · rw [h]
    exact List.prefix_refl _

end Incremental

/-- What a process returns and the actions it adds are in `P`. -/
def Emits (m : Proc ε ω α) (P : Except ε α → List ω → Prop) : Prop :=
  ∀ s, ∃ ev, (m s).2.log = s.log ++ ev ∧ P (m s).1 ev

namespace Emits

theorem pure (a : α) : Emits (Pure.pure a : Proc ε ω α) fun r ev => r = .ok a ∧ ev = [] :=
  fun _ => ⟨[], (List.append_nil _).symm, rfl, rfl⟩

theorem fail (e : ε) : Emits (fail e : Proc ε ω α) fun r ev => r = .error e ∧ ev = [] :=
  fun _ => ⟨[], (List.append_nil _).symm, rfl, rfl⟩

theorem perform (w : ω) : Emits (perform w : Proc ε ω Unit) fun r ev => r = .ok () ∧ ev = [w] :=
  fun _ => ⟨[w], rfl, rfl, rfl⟩

theorem readExact (eof : ε) (n : Nat) :
    Emits (readExact eof n : Proc ε ω _) fun _ ev => ev = [] := by
  intro s
  refine ⟨[], ?_, rfl⟩
  unfold Proc.readExact
  split <;> simp

theorem mono {m : Proc ε ω α} {P Q : Except ε α → List ω → Prop} (hm : Emits m P)
    (h : ∀ r ev, P r ev → Q r ev) : Emits m Q :=
  fun s => (hm s).imp fun ev hev => ⟨hev.1, h _ ev hev.2⟩

/-- **Sequencing.** The actions of the second process come after those of a first that returned. -/
theorem bind {m : Proc ε ω α} {f : α → Proc ε ω β} {P : Except ε α → List ω → Prop}
    {Q : α → Except ε β → List ω → Prop} (hm : Emits m P) (hf : ∀ a, Emits (f a) (Q a)) :
    Emits (m >>= f) fun r ev => (∃ e, r = .error e ∧ P (.error e) ev) ∨
      ∃ a ev₁ ev₂, ev = ev₁ ++ ev₂ ∧ P (.ok a) ev₁ ∧ Q a r ev₂ := by
  intro s
  obtain ⟨ev₁, hlog₁, hP⟩ := hm s
  rw [bind_apply]
  cases hms : m s with
  | mk r s₁ =>
    rw [hms] at hlog₁ hP
    cases r with
    | error e => exact ⟨ev₁, hlog₁, .inl ⟨e, rfl, hP⟩⟩
    | ok a =>
      obtain ⟨ev₂, hlog₂, hQ⟩ := hf a s₁
      refine ⟨ev₁ ++ ev₂, ?_, .inr ⟨a, ev₁, ev₂, rfl, hP, hQ⟩⟩
      rw [← List.append_assoc, ← hlog₁]
      exact hlog₂

theorem ite {p : Prop} [Decidable p] {m n : Proc ε ω α} {P : Except ε α → List ω → Prop}
    (hm : p → Emits m P) (hn : ¬ p → Emits n P) : Emits (if p then m else n) P := by
  by_cases hp : p
  · rw [if_pos hp]
    exact hm hp
  · rw [if_neg hp]
    exact hn hp

end Emits

end FfVpn.Library.Stream.Proc
