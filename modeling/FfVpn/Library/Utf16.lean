import Mathlib.Data.UInt
import Mathlib.Data.List.Basic

/-!
# UTF-16

Strings as two kinds of runtime keep them. One keeps characters (Unicode scalar values); the other
keeps 16-bit code units, where a character above U+FFFF is a lead and a trail surrogate and where
a surrogate may also stand alone. `decode` reads units as characters and fails on a lone surrogate;
it inverts `encode` from both sides.
-/

set_option autoImplicit false

namespace FfVpn.Library.Utf16

/-- A string of 16-bit code units. -/
abbrev Units := List UInt16

/-- The first half of a surrogate pair. -/
def IsLead (u : UInt16) : Prop := 0xD800 ≤ u.toNat ∧ u.toNat < 0xDC00

/-- The second half of a surrogate pair. -/
def IsTrail (u : UInt16) : Prop := 0xDC00 ≤ u.toNat ∧ u.toNat < 0xE000

instance (u : UInt16) : Decidable (IsLead u) := inferInstanceAs (Decidable (_ ∧ _))

instance (u : UInt16) : Decidable (IsTrail u) := inferInstanceAs (Decidable (_ ∧ _))

/-- A test of a unit that may be there, not of all units. -/
instance decidableExistsMem (p : UInt16 → Prop) [DecidablePred p] :
    (o : Option UInt16) → Decidable (∃ u ∈ o, p u)
  | none => isFalse (by simp)
  | some u => decidable_of_iff (p u) (by simp)

/-- The code units of one character. -/
def encodeChar (c : Char) : Units :=
  if c.toNat < 0x10000 then [UInt16.ofNat c.toNat]
  else [UInt16.ofNat (0xD800 + (c.toNat - 0x10000) / 0x400),
    UInt16.ofNat (0xDC00 + (c.toNat - 0x10000) % 0x400)]

/-- The code units of a list of characters. -/
def encode : List Char → Units
  | [] => []
  | c :: s => encodeChar c ++ encode s

theorem encode_append (s t : List Char) : encode (s ++ t) = encode s ++ encode t := by
  induction s with
  | nil => rfl
  | cons c s ih => simp only [List.cons_append, encode, ih, List.append_assoc]

/-- The character of a surrogate pair. -/
def pairChar (u v : UInt16) : Char :=
  Char.ofNat (0x10000 + (u.toNat - 0xD800) * 0x400 + (v.toNat - 0xDC00))

/-- The characters of a list of code units; `none` where a surrogate stands alone. -/
def decode : Units → Option (List Char)
  | [] => some []
  | [u] => if IsLead u ∨ IsTrail u then none else some [Char.ofNat u.toNat]
  | u :: v :: rest =>
    if IsLead u then
      if IsTrail v then (decode rest).map (pairChar u v :: ·) else none
    else if IsTrail u then none
    else (decode (v :: rest)).map (Char.ofNat u.toNat :: ·)

/-- Outside the surrogates, a number below 0x110000 is the number of a character. -/
theorem toNat_ofNat_of_valid {n : Nat} (h : n < 0xD800 ∨ 0xDFFF < n ∧ n < 0x110000) :
    (Char.ofNat n).toNat = n := by
  have hv : n.isValidChar := h
  rw [Char.ofNat, dif_pos hv]
  rfl

theorem toNat_valid (c : Char) : c.toNat < 0xD800 ∨ 0xDFFF < c.toNat ∧ c.toNat < 0x110000 :=
  c.valid

/-- A unit that is no surrogate is the whole of a character. -/
theorem decode_cons {u : UInt16} (hl : ¬ IsLead u) (ht : ¬ IsTrail u) (rest : Units) :
    decode (u :: rest) = (decode rest).map (Char.ofNat u.toNat :: ·) := by
  cases rest with
  | nil => simp [decode, hl, ht]
  | cons v rest => simp [decode, hl, ht]

theorem decode_pair {u v : UInt16} (hl : IsLead u) (ht : IsTrail v) (rest : Units) :
    decode (u :: v :: rest) = (decode rest).map (pairChar u v :: ·) := by
  simp [decode, hl, ht]

/-- The two halves of a character above U+FFFF are a surrogate pair that stands for it. -/
theorem pair_of_char {c : Char} (h : 0x10000 ≤ c.toNat) :
    IsLead (UInt16.ofNat (0xD800 + (c.toNat - 0x10000) / 0x400)) ∧
      IsTrail (UInt16.ofNat (0xDC00 + (c.toNat - 0x10000) % 0x400)) ∧
      pairChar (UInt16.ofNat (0xD800 + (c.toNat - 0x10000) / 0x400))
        (UInt16.ofNat (0xDC00 + (c.toNat - 0x10000) % 0x400)) = c := by
  have hc := toNat_valid c
  have hlead : (UInt16.ofNat (0xD800 + (c.toNat - 0x10000) / 0x400)).toNat =
      0xD800 + (c.toNat - 0x10000) / 0x400 := by
    simp only [UInt16.toNat_ofNat']
    omega
  have htrail : (UInt16.ofNat (0xDC00 + (c.toNat - 0x10000) % 0x400)).toNat =
      0xDC00 + (c.toNat - 0x10000) % 0x400 := by
    simp only [UInt16.toNat_ofNat']
    omega
  refine ⟨?_, ?_, ?_⟩
  · unfold IsLead
    omega
  · unfold IsTrail
    omega
  · unfold pairChar
    rw [hlead, htrail]
    have hn : 0x10000 + (0xD800 + (c.toNat - 0x10000) / 0x400 - 0xD800) * 0x400 +
        (0xDC00 + (c.toNat - 0x10000) % 0x400 - 0xDC00) = c.toNat := by omega
    rw [hn, Char.ofNat_toNat]

theorem decode_encodeChar (c : Char) (rest : Units) :
    decode (encodeChar c ++ rest) = (decode rest).map (c :: ·) := by
  have hc := toNat_valid c
  unfold encodeChar
  split
  · have hn : (UInt16.ofNat c.toNat).toNat = c.toNat := by
      simp only [UInt16.toNat_ofNat']
      omega
    have hl : ¬ IsLead (UInt16.ofNat c.toNat) := by unfold IsLead; omega
    have ht : ¬ IsTrail (UInt16.ofNat c.toNat) := by unfold IsTrail; omega
    rw [List.singleton_append, decode_cons hl ht, hn, Char.ofNat_toNat]
  · obtain ⟨hl, ht, hp⟩ := pair_of_char (c := c) (by omega)
    rw [List.cons_append, List.singleton_append, decode_pair hl ht, hp]

/-- Characters survive being written as code units. -/
theorem decode_encode (s : List Char) : decode (encode s) = some s := by
  induction s with
  | nil => rfl
  | cons c s ih =>
    rw [encode, decode_encodeChar, ih]
    rfl

theorem encode_injective {s t : List Char} (h : encode s = encode t) : s = t := by
  have hs := decode_encode s
  rw [h, decode_encode] at hs
  exact (Option.some.inj hs).symm

/-- A unit that is no surrogate is how its character is written. -/
theorem encodeChar_unit {u : UInt16} (hl : ¬ IsLead u) (ht : ¬ IsTrail u) :
    encodeChar (Char.ofNat u.toNat) = [u] := by
  have hu := u.toNat_lt
  unfold IsLead at hl
  unfold IsTrail at ht
  have hn := toNat_ofNat_of_valid (n := u.toNat) (by omega)
  unfold encodeChar
  rw [hn, if_pos (by omega), UInt16.ofNat_toNat]

/-- A surrogate pair is how its character is written. -/
theorem encodeChar_pair {u v : UInt16} (hl : IsLead u) (ht : IsTrail v) :
    encodeChar (pairChar u v) = [u, v] := by
  unfold IsLead at hl
  unfold IsTrail at ht
  have hn : (pairChar u v).toNat =
      0x10000 + (u.toNat - 0xD800) * 0x400 + (v.toNat - 0xDC00) := by
    unfold pairChar
    exact toNat_ofNat_of_valid (by omega)
  have hu : 0xD800 + ((pairChar u v).toNat - 0x10000) / 0x400 = u.toNat := by omega
  have hv : 0xDC00 + ((pairChar u v).toNat - 0x10000) % 0x400 = v.toNat := by omega
  unfold encodeChar
  rw [if_neg (by omega), hu, hv, UInt16.ofNat_toNat, UInt16.ofNat_toNat]

/-- What reads as characters is how these characters are written. -/
theorem encode_of_decode {u : Units} {s : List Char} (h : decode u = some s) : encode s = u := by
  induction u using decode.induct generalizing s with
  | case1 =>
    obtain rfl : [] = s := by simpa [decode] using h
    rfl
  | case2 u hs => simp [decode, hs] at h
  | case3 u hs =>
    obtain ⟨hl, ht⟩ := not_or.mp hs
    obtain rfl : [Char.ofNat u.toNat] = s := by simpa [decode, hl, ht] using h
    rw [encode, encode, encodeChar_unit hl ht, List.append_nil]
  | case4 u v rest hl ht ih =>
    rw [decode_pair hl ht, Option.map_eq_some_iff] at h
    obtain ⟨s', hs', rfl⟩ := h
    rw [encode, encodeChar_pair hl ht, ih hs']
    rfl
  | case5 u v rest hl ht => simp [decode, hl, ht] at h
  | case6 u v rest hl ht => simp [decode, hl, ht] at h
  | case7 u v rest hl ht ih =>
    rw [decode_cons hl ht, Option.map_eq_some_iff] at h
    obtain ⟨s', hs', rfl⟩ := h
    rw [encode, encodeChar_unit hl ht, ih hs']
    rfl

/-- The code units of a string. -/
def utf16 (s : String) : Units := encode s.toList

theorem utf16_join (l : List String) : utf16 (String.join l) = l.flatMap utf16 := by
  unfold utf16
  rw [String.toList_join]
  induction l with
  | nil => rfl
  | cons s l ih => simp only [List.flatMap_cons, encode_append, ih]

/-- The string the code units spell; `none` where a surrogate stands alone. -/
def toString? (u : Units) : Option String := (decode u).map String.ofList

@[simp] theorem toString?_utf16 (s : String) : toString? (utf16 s) = some s := by
  simp [toString?, utf16, decode_encode]

theorem utf16_of_toString? {u : Units} {s : String} (h : toString? u = some s) :
    utf16 s = u := by
  obtain ⟨cs, hcs, rfl⟩ := Option.map_eq_some_iff.mp h
  simpa [utf16] using encode_of_decode hcs

/-- Units spell at most the string they are the units of. -/
theorem toString?_eq_some {u : Units} {s : String} : toString? u = some s ↔ u = utf16 s := by
  constructor
  · intro h
    exact (utf16_of_toString? h).symm
  · rintro rfl
    exact toString?_utf16 s

theorem utf16_inj {s t : String} : utf16 s = utf16 t ↔ s = t := by
  constructor
  · intro h
    exact String.toList_inj.mp (encode_injective h)
  · rintro rfl
    rfl

/-- No surrogate stands alone. -/
def WellFormed (u : Units) : Prop := ∃ s, utf16 s = u

theorem wellFormed_iff {u : Units} : WellFormed u ↔ (toString? u).isSome := by
  rw [Option.isSome_iff_exists]
  constructor
  · rintro ⟨s, rfl⟩
    exact ⟨s, toString?_utf16 s⟩
  · rintro ⟨s, hs⟩
    exact ⟨s, utf16_of_toString? hs⟩

instance (u : Units) : Decidable (WellFormed u) := decidable_of_iff _ wellFormed_iff.symm

theorem wellFormed_utf16 (s : String) : WellFormed (utf16 s) := ⟨s, rfl⟩

theorem WellFormed.append {u v : Units} (hu : WellFormed u) (hv : WellFormed v) :
    WellFormed (u ++ v) := by
  obtain ⟨s, rfl⟩ := hu
  obtain ⟨t, rfl⟩ := hv
  exact ⟨s ++ t, by simp [utf16, encode_append]⟩

theorem wellFormed_singleton {u : UInt16} (hl : ¬ IsLead u) (ht : ¬ IsTrail u) :
    WellFormed [u] := by
  refine ⟨String.ofList [Char.ofNat u.toNat], ?_⟩
  simp [utf16, encode, encodeChar_unit hl ht]

theorem wellFormed_pair {u v : UInt16} (hl : IsLead u) (ht : IsTrail v) : WellFormed [u, v] := by
  refine ⟨String.ofList [pairChar u v], ?_⟩
  simp [utf16, encode, encodeChar_pair hl ht]

/-- Only ASCII units. -/
def Ascii (us : Units) : Prop := ∀ u ∈ us, u.toNat < 0x80

instance (us : Units) : Decidable (Ascii us) := List.decidableBAll _ us

theorem wellFormed_of_ascii {us : Units} (h : Ascii us) : WellFormed us := by
  induction us with
  | nil => exact ⟨"", rfl⟩
  | cons u us ih =>
    have hu : u.toNat < 0x80 := h u (by simp)
    have hl : ¬ IsLead u := by unfold IsLead; omega
    have ht : ¬ IsTrail u := by unfold IsTrail; omega
    exact (wellFormed_singleton hl ht).append (ih fun v hv => h v (by simp [hv]))

/-- Rewriting the ASCII units, each into a well-formed text, keeps a text well-formed. -/
theorem WellFormed.flatMap {q : UInt16 → Units} (hascii : ∀ u, u.toNat < 0x80 → WellFormed (q u))
    (hrest : ∀ u, 0x80 ≤ u.toNat → q u = [u]) {s : Units} (h : WellFormed s) :
    WellFormed (s.flatMap q) := by
  obtain ⟨t, rfl⟩ := h
  unfold utf16
  induction t.toList with
  | nil => exact ⟨"", rfl⟩
  | cons c cs ih =>
    rw [encode, List.flatMap_append]
    refine WellFormed.append ?_ ih
    have hc := toNat_valid c
    by_cases hbmp : c.toNat < 0x10000
    · have hn : (UInt16.ofNat c.toNat).toNat = c.toNat := by
        simp only [UInt16.toNat_ofNat']
        omega
      have henc : encodeChar c = [UInt16.ofNat c.toNat] := by
        unfold encodeChar
        rw [if_pos hbmp]
      have hwf : WellFormed (encodeChar c) := ⟨String.ofList [c], by simp [utf16, encode]⟩
      rw [henc] at hwf ⊢
      rw [List.flatMap_singleton]
      by_cases hlow : c.toNat < 0x80
      · exact hascii _ (by omega)
      · rw [hrest _ (by omega)]
        exact hwf
    · obtain ⟨hl, ht, -⟩ := pair_of_char (c := c) (by omega)
      have hwf := wellFormed_pair hl ht
      unfold encodeChar
      rw [if_neg hbmp]
      unfold IsLead at hl
      unfold IsTrail at ht
      simp only [List.flatMap_cons, List.flatMap_nil, List.append_nil]
      rw [hrest _ (by omega), hrest _ (by omega)]
      exact hwf

end FfVpn.Library.Utf16
