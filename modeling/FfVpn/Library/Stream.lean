import Mathlib.Data.Vector.Basic
import Mathlib.Data.UInt

/-!
# Byte-stream protocols

A protocol process reads bytes its peer sends, performs observable actions (writes among them) and
either returns a value or fails. `Proc` is such a process over a state that holds the bytes still
to be read and the actions performed so far.

Two judgements describe a process, and both are closed under sequencing:

- `Recognizes m G`: `m` returns `a` with actions `ev` after reading exactly `c` if and only if
  `G c a ev`, so that it never reads past what its grammar asks for;
- `Performs m P`: whatever `m` reads and however it ends, it only adds actions with `P`.
-/

set_option autoImplicit false

namespace FfVpn.Library.Stream

/-- The bytes a process has not read yet and the actions it has performed. -/
@[ext] structure Channel (ω : Type) where
  input : List UInt8
  log : List ω

/-- A process that may fail with an `ε` and performs actions of type `ω`. -/
def Proc (ε ω α : Type) : Type := Channel ω → Except ε α × Channel ω

namespace Proc

variable {ε ω α β : Type}

instance : Monad (Proc ε ω) where
  pure a := fun s => (.ok a, s)
  bind m f := fun s =>
    match m s with
    | (.ok a, s') => f a s'
    | (.error e, s') => (.error e, s')

/-- Fail. -/
def fail (e : ε) : Proc ε ω α := fun s => (.error e, s)

/-- Perform an action. -/
def perform (w : ω) : Proc ε ω Unit := fun s => (.ok (), { s with log := s.log ++ [w] })

/-- Read exactly `n` bytes; `eof` where the peer sends fewer. -/
def readExact (eof : ε) (n : Nat) : Proc ε ω (List.Vector UInt8 n) := fun s =>
  if h : n ≤ s.input.length then
    (.ok ⟨s.input.take n, by simp [h]⟩, { s with input := s.input.drop n })
  else (.error eof, { s with input := [] })

theorem bind_apply (m : Proc ε ω α) (f : α → Proc ε ω β) (s : Channel ω) :
    (m >>= f) s = match m s with
      | (.ok a, s') => f a s'
      | (.error e, s') => (.error e, s') := rfl

theorem pure_apply (a : α) (s : Channel ω) : (pure a : Proc ε ω α) s = (.ok a, s) := rfl

/-- `m` returns exactly on the inputs of the grammar `G`, having read that input and performed
those actions. -/
def Recognizes (m : Proc ε ω α) (G : List UInt8 → α → List ω → Prop) : Prop :=
  ∀ s a s', m s = (.ok a, s') ↔
    ∃ c ev, s.input = c ++ s'.input ∧ s'.log = s.log ++ ev ∧ G c a ev

/-- Every action `m` performs has `P`. -/
def Performs (m : Proc ε ω α) (P : ω → Prop) : Prop :=
  ∀ s, ∃ ev, (m s).2.log = s.log ++ ev ∧ ∀ w ∈ ev, P w

theorem Recognizes.pure (a : α) :
    Recognizes (Pure.pure a : Proc ε ω α) fun c b ev => c = [] ∧ b = a ∧ ev = [] := by
  intro s b s'
  rw [pure_apply]
  constructor
  · intro h
    obtain ⟨rfl, rfl⟩ : a = b ∧ s = s' := by simpa using h
    exact ⟨[], [], rfl, (List.append_nil _).symm, rfl, rfl, rfl⟩
  · rintro ⟨c, ev, hin, hlog, rfl, rfl, rfl⟩
    have hs : s = s' := Channel.ext (by simpa using hin) (by simpa using hlog.symm)
    rw [hs]

theorem Recognizes.fail (e : ε) : Recognizes (fail e : Proc ε ω α) fun _ _ _ => False := by
  intro s a s'
  constructor
  · intro h
    simp [Proc.fail] at h
  · rintro ⟨c, ev, -, -, h⟩
    exact h.elim

theorem Recognizes.perform (w : ω) :
    Recognizes (perform w : Proc ε ω Unit) fun c _ ev => c = [] ∧ ev = [w] := by
  intro s a s'
  constructor
  · intro h
    have hs : { s with log := s.log ++ [w] } = s' := by simpa [Proc.perform] using h
    exact ⟨[], [w], by rw [← hs]; rfl, by rw [← hs], rfl, rfl⟩
  · rintro ⟨c, ev, hin, hlog, rfl, rfl⟩
    have hs : { s with log := s.log ++ [w] } = s' := Channel.ext (by simpa using hin) hlog.symm
    simp [Proc.perform, hs]

theorem Recognizes.readExact (eof : ε) (n : Nat) :
    Recognizes (readExact eof n : Proc ε ω _) fun c v ev => c = v.toList ∧ ev = [] := by
  intro s v s'
  constructor
  · intro h
    unfold Proc.readExact at h
    split at h
    · rename_i hn
      obtain ⟨hv, rfl⟩ := Prod.mk.injEq .. ▸ h
      cases hv
      exact ⟨s.input.take n, [], by simp, by simp, rfl, rfl⟩
    · simp at h
  · rintro ⟨c, ev, hin, hlog, rfl, rfl⟩
    have hlen : v.toList.length = n := v.2
    have hn : n ≤ s.input.length := by rw [hin, List.length_append]; omega
    have hv : s.input.take n = v.toList := by rw [hin, List.take_left' hlen]
    have hrest : s.input.drop n = s'.input := by rw [hin, List.drop_left' hlen]
    have hs : { s with input := s.input.drop n } = s' :=
      Channel.ext hrest (by simpa using hlog.symm)
    unfold Proc.readExact
    rw [dif_pos hn, hs]
    congr 2
    exact Subtype.ext hv

/-- **Sequencing.** What two processes in sequence read and perform is the concatenation. -/
theorem Recognizes.bind {m : Proc ε ω α} {f : α → Proc ε ω β} {G : List UInt8 → α → List ω → Prop}
    {H : α → List UInt8 → β → List ω → Prop} (hm : Recognizes m G)
    (hf : ∀ a, Recognizes (f a) (H a)) :
    Recognizes (m >>= f) fun c b ev => ∃ a c₁ c₂ ev₁ ev₂,
      c = c₁ ++ c₂ ∧ ev = ev₁ ++ ev₂ ∧ G c₁ a ev₁ ∧ H a c₂ b ev₂ := by
  intro s b s'
  rw [bind_apply]
  constructor
  · intro h
    cases hms : m s with
    | mk r s₁ =>
      rw [hms] at h
      cases r with
      | error e => simp at h
      | ok a =>
        obtain ⟨c₁, ev₁, hin₁, hlog₁, hG⟩ := (hm s a s₁).mp hms
        obtain ⟨c₂, ev₂, hin₂, hlog₂, hH⟩ := (hf a s₁ b s').mp h
        refine ⟨c₁ ++ c₂, ev₁ ++ ev₂, ?_, ?_, a, c₁, c₂, ev₁, ev₂, rfl, rfl, hG, hH⟩
        · rw [hin₁, hin₂, List.append_assoc]
        · rw [hlog₂, hlog₁, List.append_assoc]
  · rintro ⟨c, ev, hin, hlog, a, c₁, c₂, ev₁, ev₂, rfl, rfl, hG, hH⟩
    have hms : m s = (.ok a, ⟨c₂ ++ s'.input, s.log ++ ev₁⟩) :=
      (hm _ _ _).mpr ⟨c₁, ev₁, by rw [hin, List.append_assoc], rfl, hG⟩
    rw [hms]
    exact (hf _ _ _ _).mpr ⟨c₂, ev₂, rfl, by rw [hlog, List.append_assoc], hH⟩

theorem Recognizes.congr {m : Proc ε ω α} {G H : List UInt8 → α → List ω → Prop}
    (hm : Recognizes m G) (h : ∀ c a ev, G c a ev ↔ H c a ev) : Recognizes m H := by
  have heq : G = H := by
    funext c a ev
    exact propext (h c a ev)
  exact heq ▸ hm

theorem Recognizes.ite {p : Prop} [Decidable p] {m n : Proc ε ω α}
    {G H : List UInt8 → α → List ω → Prop} (hm : Recognizes m G) (hn : Recognizes n H) :
    Recognizes (if p then m else n) fun c a ev => (p ∧ G c a ev) ∨ (¬ p ∧ H c a ev) := by
  by_cases hp : p
  · rw [if_pos hp]
    exact hm.congr fun c a ev => by simp [hp]
  · rw [if_neg hp]
    exact hn.congr fun c a ev => by simp [hp]

theorem Performs.pure (a : α) (P : ω → Prop) : Performs (Pure.pure a : Proc ε ω α) P :=
  fun s => ⟨[], (List.append_nil _).symm, by simp⟩

theorem Performs.fail (e : ε) (P : ω → Prop) : Performs (fail e : Proc ε ω α) P :=
  fun s => ⟨[], (List.append_nil _).symm, by simp⟩

theorem Performs.perform {w : ω} {P : ω → Prop} (h : P w) :
    Performs (perform w : Proc ε ω Unit) P :=
  fun s => ⟨[w], rfl, by simpa using h⟩

theorem Performs.readExact (eof : ε) (n : Nat) (P : ω → Prop) :
    Performs (readExact eof n : Proc ε ω _) P := by
  intro s
  refine ⟨[], ?_, by simp⟩
  unfold Proc.readExact
  split <;> simp

theorem Performs.bind {m : Proc ε ω α} {f : α → Proc ε ω β} {P : ω → Prop} (hm : Performs m P)
    (hf : ∀ a, Performs (f a) P) : Performs (m >>= f) P := by
  intro s
  obtain ⟨ev₁, hlog₁, hP₁⟩ := hm s
  rw [bind_apply]
  cases hms : m s with
  | mk r s₁ =>
    rw [hms] at hlog₁
    cases r with
    | error e => exact ⟨ev₁, hlog₁, hP₁⟩
    | ok a =>
      obtain ⟨ev₂, hlog₂, hP₂⟩ := hf a s₁
      refine ⟨ev₁ ++ ev₂, ?_, ?_⟩
      · rw [← List.append_assoc, ← hlog₁, ← hlog₂]
      · intro w hw
        exact (List.mem_append.mp hw).elim (hP₁ w) (hP₂ w)

theorem Performs.ite {p : Prop} [Decidable p] {m n : Proc ε ω α} {P : ω → Prop}
    (hm : Performs m P) (hn : Performs n P) : Performs (if p then m else n) P := by
  by_cases hp : p
  · rwa [if_pos hp]
  · rwa [if_neg hp]

end Proc

end FfVpn.Library.Stream
