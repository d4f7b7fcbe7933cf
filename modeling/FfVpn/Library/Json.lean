import FfVpn.Library.Utf16
import Mathlib.Data.Nat.Digits.Lemmas

/-!
# JSON

JSON documents, the text they are written as and a reader of that text.

`Spells` is the grammar of RFC 8259: `Spells j cs` when the code units `cs` are a way to write the
document `j`, white space and escapes included. `parse` reads a text, and reads every text of the
grammar as the document it spells (`parse_of_spells`). `print` writes a document without white
space, over a way `q` to escape strings; what it writes is in the grammar (`spells_print`), so that
`parse` reads it back whatever escapes `q` chose (`parse_print`).

A document keeps the members of an object in their order, repeated names among them: what a reader
makes of a repeated name is the reader's choice. It keeps a number written without fraction and
exponent as sign and magnitude, so that `-0` and `0` differ, and any other number as written.
-/

set_option autoImplicit false

namespace FfVpn.Library.Json

open FfVpn.Library.Utf16

@[simp] def lbrace : UInt16 := 0x7B
@[simp] def rbrace : UInt16 := 0x7D
@[simp] def lbracket : UInt16 := 0x5B
@[simp] def rbracket : UInt16 := 0x5D
@[simp] def comma : UInt16 := 0x2C
@[simp] def colon : UInt16 := 0x3A
@[simp] def dquote : UInt16 := 0x22
@[simp] def backslash : UInt16 := 0x5C
@[simp] def minus : UInt16 := 0x2D
@[simp] def plus : UInt16 := 0x2B
@[simp] def dot : UInt16 := 0x2E

/-- Space, tab, line feed and carriage return. -/
def IsSpace (u : UInt16) : Prop := u = 0x20 ∨ u = 0x09 ∨ u = 0x0A ∨ u = 0x0D

instance (u : UInt16) : Decidable (IsSpace u) := inferInstanceAs (Decidable (_ ∨ _))

/-- Only white space. -/
def Blank (ws : Units) : Prop := ∀ u ∈ ws, IsSpace u

def isDigit (u : UInt16) : Bool := 0x30 ≤ u.toNat && u.toNat ≤ 0x39

/-- What a number is written with: digits, signs, the dot and the two letters of an exponent. -/
def isNumberUnit (u : UInt16) : Bool :=
  isDigit u || u = minus || u = plus || u = dot || u = 0x65 || u = 0x45

/-! ## Numbers -/

/-- The value of a run of decimal digits. -/
def digitsValue (ds : Units) : Nat := ds.foldl (fun n u => 10 * n + (u.toNat - 0x30)) 0

/-- The value of an unsigned integer: digits, the first of several no zero. -/
def natLiteral? (ds : Units) : Option Nat :=
  if ds ≠ [] ∧ ds.all isDigit ∧ (ds.head? = some 0x30 → ds.length = 1) then some (digitsValue ds)
  else none

/-- The sign and the magnitude of a number without fraction and exponent. -/
def intLiteral? : Units → Option (Bool × Nat)
  | [] => none
  | u :: ds =>
    if u = minus then (natLiteral? ds).map (true, ·) else (natLiteral? (u :: ds)).map (false, ·)

/-- At least one digit and nothing else. -/
def isDigits (ds : Units) : Bool := ds ≠ [] && ds.all isDigit

/-- Nothing, or `e`, an optional sign and digits. -/
def isExponent : Units → Bool
  | [] => true
  | [_] => false
  | u :: v :: ds =>
    (u = 0x65 || u = 0x45) && if v = plus || v = minus then isDigits ds else isDigits (v :: ds)

/-- Nothing, or a dot and digits; then an exponent. -/
def isFraction : Units → Bool
  | [] => true
  | u :: ds =>
    if u = dot then isDigits (ds.takeWhile isDigit) && isExponent (ds.dropWhile isDigit)
    else isExponent (u :: ds)

/-- A number with a fraction or an exponent. -/
def isReal (lit : Units) : Bool :=
  let unsigned := if lit.head? = some minus then lit.tail else lit
  lit.all isNumberUnit && (intLiteral? lit).isNone &&
    (natLiteral? (unsigned.takeWhile isDigit)).isSome && isFraction (unsigned.dropWhile isDigit)

/-- A number with a fraction or an exponent, as written. -/
abbrev RealLiteral := { lit : Units // isReal lit = true }

/-! ## Documents -/

/-- A JSON document. -/
inductive Value where
  | null
  | bool (b : Bool)
  | int (neg : Bool) (mag : Nat)
  | real (lit : RealLiteral)
  | str (s : Units)
  | arr (xs : List Value)
  | obj (ms : List (Units × Value))

/-- The members of an object, as they are written. -/
abbrev Members := List (Units × Value)

/-- The value under a name for a reader that lets the last of several members win. -/
def lookup (k : Units) : Members → Option Value
  | [] => none
  | (k', v) :: ms => (lookup k ms).or (if k' = k then some v else none)

/-! ## The reader -/

def skipSpace : Units → Units
  | [] => []
  | u :: rest => if IsSpace u then skipSpace rest else u :: rest

/-- The unit a one-letter escape stands for. -/
def unescape (u : UInt16) : Option UInt16 :=
  if u = dquote ∨ u = backslash ∨ u = 0x2F then some u
  else if u = 0x62 then some 0x08
  else if u = 0x66 then some 0x0C
  else if u = 0x6E then some 0x0A
  else if u = 0x72 then some 0x0D
  else if u = 0x74 then some 0x09
  else none

def hexValue (u : UInt16) : Option Nat :=
  if isDigit u then some (u.toNat - 0x30)
  else if 0x41 ≤ u.toNat ∧ u.toNat ≤ 0x46 then some (u.toNat - 0x41 + 10)
  else if 0x61 ≤ u.toNat ∧ u.toNat ≤ 0x66 then some (u.toNat - 0x61 + 10)
  else none

/-- Where the reader stands inside a string: between units, after a backslash, or in the digits of
a `u` escape with `more` digits to come after the next one. -/
inductive InString where
  | plain
  | escape
  | hex (more acc : Nat)

/-- The units of a string up to its closing quote, and the text after it. -/
def stringBody : InString → Units → Option (Units × Units)
  | _, [] => none
  | .plain, u :: rest =>
    if u = dquote then some ([], rest)
    else if u = backslash then stringBody .escape rest
    else if u.toNat < 0x20 then none
    else (stringBody .plain rest).map fun (s, rest) => (u :: s, rest)
  | .escape, u :: rest =>
    if u = 0x75 then stringBody (.hex 3 0) rest
    else (unescape u).bind fun v =>
      (stringBody .plain rest).map fun (s, rest) => (v :: s, rest)
  | .hex (more + 1) acc, u :: rest =>
    (hexValue u).bind fun d => stringBody (.hex more (16 * acc + d)) rest
  | .hex 0 acc, u :: rest =>
    (hexValue u).bind fun d =>
      (stringBody .plain rest).map fun (s, rest) => (UInt16.ofNat (16 * acc + d) :: s, rest)

/-- The longest run of units a number may hold, as a number. -/
def number (text : Units) : Option (Value × Units) :=
  let lit := text.takeWhile isNumberUnit
  let rest := text.dropWhile isNumberUnit
  match intLiteral? lit with
  | some (neg, mag) => some (.int neg mag, rest)
  | none => if h : isReal lit = true then some (.real ⟨lit, h⟩, rest) else none

/-- The units `word` and then the rest of the text. -/
def keyword (word : Units) (v : Value) (text : Units) : Option (Value × Units) :=
  if word.isPrefixOf text then some (v, text.drop word.length) else none

def wordNull : Units := [0x6E, 0x75, 0x6C, 0x6C]
def wordTrue : Units := [0x74, 0x72, 0x75, 0x65]
def wordFalse : Units := [0x66, 0x61, 0x6C, 0x73, 0x65]

/-- Skip white space and the unit `u`. -/
def expect (u : UInt16) (text : Units) : Option Units :=
  match skipSpace text with
  | [] => none
  | v :: rest => if v = u then some rest else none

mutual

/-- The value at the start of a text, and the text after it. -/
def value : Nat → Units → Option (Value × Units)
  | 0, _ => none
  | n + 1, text =>
    match skipSpace text with
    | [] => none
    | u :: rest =>
      if u = lbrace then
        match expect rbrace rest with
        | some rest => some (.obj [], rest)
        | none => (members n rest).map fun (ms, rest) => (.obj ms, rest)
      else if u = lbracket then
        match expect rbracket rest with
        | some rest => some (.arr [], rest)
        | none => (items n rest).map fun (xs, rest) => (.arr xs, rest)
      else if u = dquote then (stringBody .plain rest).map fun (s, rest) => (.str s, rest)
      else if isNumberUnit u then number (u :: rest)
      else if u = 0x6E then keyword wordNull .null (u :: rest)
      else if u = 0x74 then keyword wordTrue (.bool true) (u :: rest)
      else keyword wordFalse (.bool false) (u :: rest)

/-- One item of an array and those after it, up to the closing bracket. -/
def items : Nat → Units → Option (List Value × Units)
  | 0, _ => none
  | n + 1, text =>
    (value n text).bind fun (x, text) =>
      match expect rbracket text with
      | some rest => some ([x], rest)
      | none => (expect comma text).bind fun text =>
          (items n text).map fun (xs, rest) => (x :: xs, rest)

/-- One member of an object and those after it, up to the closing brace. -/
def members : Nat → Units → Option (Members × Units)
  | 0, _ => none
  | n + 1, text =>
    (expect dquote text).bind fun text =>
      (stringBody .plain text).bind fun (k, text) =>
        (expect colon text).bind fun text =>
          (value n text).bind fun (v, text) =>
            match expect rbrace text with
            | some rest => some ([(k, v)], rest)
            | none => (expect comma text).bind fun text =>
                (members n text).map fun (ms, rest) => ((k, v) :: ms, rest)

end

/-- The document a text spells. Every call of `value`, `items` and `members` below another reads at
least one unit less, so that the length of the text bounds their depth. -/
def parse (text : Units) : Option Value :=
  (value text.length text).bind fun (v, rest) => if skipSpace rest = [] then some v else none

/-! ## The grammar -/

/-- The text between two quotes and the string it stands for. -/
inductive Quoted : Units → Units → Prop
  | nil : Quoted [] []
  | raw {u : UInt16} {cs s : Units} :
      u ≠ dquote → u ≠ backslash → 0x20 ≤ u.toNat → Quoted cs s → Quoted (u :: cs) (u :: s)
  | escape {e u : UInt16} {cs s : Units} :
      unescape e = some u → Quoted cs s → Quoted (backslash :: e :: cs) (u :: s)
  | hex {a b c d : UInt16} {i j k l : Nat} {cs s : Units} :
      hexValue a = some i → hexValue b = some j → hexValue c = some k → hexValue d = some l →
        Quoted cs s →
          Quoted (backslash :: 0x75 :: a :: b :: c :: d :: cs)
            (UInt16.ofNat (16 * (16 * (16 * i + j) + k) + l) :: s)

/-- A string escaped unit by unit. -/
theorem quoted_flatMap {q : UInt16 → Units}
    (hq : ∀ u cs s, Quoted cs s → Quoted (q u ++ cs) (u :: s)) (s : Units) :
    Quoted (s.flatMap q) s := by
  induction s with
  | nil => exact .nil
  | cons u s ih => simpa using hq u _ _ ih

mutual

/-- The text spells the value; no white space around it. -/
inductive Spells : Value → Units → Prop
  | null : Spells .null wordNull
  | true : Spells (.bool true) wordTrue
  | false : Spells (.bool false) wordFalse
  | int {neg : Bool} {mag : Nat} {lit : Units} :
      intLiteral? lit = some (neg, mag) → Spells (.int neg mag) lit
  | real (lit : RealLiteral) : Spells (.real lit) lit.val
  | str {cs s : Units} : Quoted cs s → Spells (.str s) (dquote :: cs ++ [dquote])
  | noItems {ws : Units} : Blank ws → Spells (.arr []) (lbracket :: ws ++ [rbracket])
  | arr {xs : List Value} {cs : Units} : SpellsItems xs cs → Spells (.arr xs) (lbracket :: cs)
  | noMembers {ws : Units} : Blank ws → Spells (.obj []) (lbrace :: ws ++ [rbrace])
  | obj {ms : Members} {cs : Units} : SpellsMembers ms cs → Spells (.obj ms) (lbrace :: cs)

/-- The text spells the items of an array, up to the closing bracket. -/
inductive SpellsItems : List Value → Units → Prop
  | last {x : Value} {a cs b : Units} :
      Blank a → Spells x cs → Blank b → SpellsItems [x] (a ++ cs ++ b ++ [rbracket])
  | cons {x : Value} {xs : List Value} {a cs b ds : Units} :
      Blank a → Spells x cs → Blank b → SpellsItems xs ds →
        SpellsItems (x :: xs) (a ++ cs ++ b ++ comma :: ds)

/-- The text spells the members of an object, up to the closing brace. -/
inductive SpellsMembers : Members → Units → Prop
  | last {k : Units} {v : Value} {a kcs b c cs d : Units} :
      Blank a → Quoted kcs k → Blank b → Blank c → Spells v cs → Blank d →
        SpellsMembers [(k, v)]
          (a ++ dquote :: (kcs ++ dquote :: (b ++ colon :: (c ++ cs ++ d ++ [rbrace]))))
  | cons {k : Units} {v : Value} {ms : Members} {a kcs b c cs d ds : Units} :
      Blank a → Quoted kcs k → Blank b → Blank c → Spells v cs → Blank d → SpellsMembers ms ds →
        SpellsMembers ((k, v) :: ms)
          (a ++ dquote :: (kcs ++ dquote :: (b ++ colon :: (c ++ cs ++ d ++ comma :: ds))))

end

/-! ## The reader reads every text of the grammar -/

theorem skipSpace_blank {ws : Units} (h : Blank ws) (text : Units) :
    skipSpace (ws ++ text) = skipSpace text := by
  induction ws with
  | nil => rfl
  | cons u ws ih =>
    have hu : IsSpace u := h u (by simp)
    rw [List.cons_append, skipSpace, if_pos hu]
    exact ih fun v hv => h v (by simp [hv])

theorem skipSpace_cons {u : UInt16} (h : ¬ IsSpace u) (text : Units) :
    skipSpace (u :: text) = u :: text := by
  rw [skipSpace, if_neg h]

theorem expect_blank {ws : Units} (h : Blank ws) {u : UInt16} (hu : ¬ IsSpace u)
    (text : Units) : expect u (ws ++ u :: text) = some text := by
  rw [expect, skipSpace_blank h, skipSpace_cons hu]
  simp

/-- Another unit stands where `u` is expected. -/
theorem expect_ne {u v : UInt16} (hv : ¬ IsSpace v) (hne : v ≠ u) {ws : Units} (h : Blank ws)
    (text : Units) : expect u (ws ++ v :: text) = none := by
  rw [expect, skipSpace_blank h, skipSpace_cons hv]
  simp [hne]

/-- Skipping white space first changes nothing for a value. -/
theorem value_blank {ws : Units} (h : Blank ws) (n : Nat) (text : Units) :
    value n (ws ++ text) = value n text := by
  cases n with
  | zero => rfl
  | succ n => simp only [value, skipSpace_blank h]

theorem stringBody_of_quoted {cs s : Units} (h : Quoted cs s) (rest : Units) :
    stringBody .plain (cs ++ dquote :: rest) = some (s, rest) := by
  induction h with
  | nil => simp [stringBody]
  | raw hq hb hc _ ih =>
    rw [List.cons_append, stringBody, if_neg hq, if_neg hb, if_neg (by omega), ih]
    rfl
  | @escape e u cs s he _ ih =>
    have hu : e ≠ 0x75 := by
      rintro rfl
      have h75 : unescape 0x75 = none := by decide
      simp [h75] at he
    simp only [List.cons_append]
    rw [stringBody, if_neg (by decide), if_pos rfl, stringBody, if_neg hu, he, ih]
    rfl
  | hex ha hb hc hd _ ih =>
    simp only [List.cons_append]
    rw [stringBody, if_neg (by decide), if_pos rfl, stringBody, if_pos rfl]
    simp only [stringBody, ha, hb, hc, hd, Option.bind_some, ih]
    simp

/-- A number cannot go on with the next unit of the text. -/
def Ends (rest : Units) : Prop := ∀ u ∈ rest.head?, isNumberUnit u = false

theorem ends_nil : Ends [] := by simp [Ends]

/-- White space and marks end a number. -/
theorem ends_blank {ws : Units} (h : Blank ws) {u : UInt16} (hu : isNumberUnit u = false)
    (rest : Units) : Ends (ws ++ u :: rest) := by
  cases ws with
  | nil => simpa [Ends] using hu
  | cons v ws =>
    have hv : IsSpace v := h v (by simp)
    rcases hv with rfl | rfl | rfl | rfl <;> simp [Ends] <;> decide

theorem takeWhile_append_of_ends {lit rest : Units} (h : lit.all isNumberUnit = true)
    (he : Ends rest) :
    (lit ++ rest).takeWhile isNumberUnit = lit ∧ (lit ++ rest).dropWhile isNumberUnit = rest := by
  induction lit with
  | nil =>
    cases rest with
    | nil => simp
    | cons u rest =>
      have hu : isNumberUnit u = false := he u (by simp)
      simp [hu]
  | cons u lit ih =>
    obtain ⟨hu, hl⟩ : isNumberUnit u = true ∧ lit.all isNumberUnit = true := by
      simpa using h
    obtain ⟨ht, hd⟩ := ih hl
    simp [hu, ht, hd]

theorem all_isNumberUnit_of_natLiteral {ds : Units} {m : Nat} (h : natLiteral? ds = some m) :
    ds ≠ [] ∧ ds.all isNumberUnit = true := by
  unfold natLiteral? at h
  split at h
  · rename_i hd
    refine ⟨hd.1, ?_⟩
    rw [List.all_eq_true]
    intro u hu
    have hdu := List.all_eq_true.mp hd.2.1 u hu
    simp [isNumberUnit, hdu]
  · simp at h

theorem all_isNumberUnit_of_intLiteral {lit : Units} {p : Bool × Nat}
    (h : intLiteral? lit = some p) : lit ≠ [] ∧ lit.all isNumberUnit = true := by
  cases lit with
  | nil => simp [intLiteral?] at h
  | cons u ds =>
    rw [intLiteral?] at h
    split at h
    · rename_i hu
      obtain ⟨m, hm, -⟩ := Option.map_eq_some_iff.mp h
      have hds := all_isNumberUnit_of_natLiteral hm
      have hn : isNumberUnit u = true := by
        rw [hu]
        decide
      simp only [List.all_cons, hn, hds.2, Bool.and_self, ne_eq, reduceCtorEq, not_false_eq_true,
        and_self]
    · obtain ⟨m, hm, -⟩ := Option.map_eq_some_iff.mp h
      exact all_isNumberUnit_of_natLiteral hm

theorem not_isSpace_of_isNumberUnit {u : UInt16} (h : isNumberUnit u = true) : ¬ IsSpace u := by
  rintro (rfl | rfl | rfl | rfl) <;> exact absurd h (by decide)

/-- A number's first unit opens no other value. -/
theorem isNumberUnit_ne {u : UInt16} (h : isNumberUnit u = true) :
    u ≠ lbrace ∧ u ≠ lbracket ∧ u ≠ rbracket ∧ u ≠ dquote := by
  refine ⟨?_, ?_, ?_, ?_⟩ <;> rintro rfl <;> exact absurd h (by decide)

theorem isReal_cons {lit : Units} (h : isReal lit = true) :
    lit.all isNumberUnit = true ∧ intLiteral? lit = none ∧ lit ≠ [] := by
  have hs : isReal [] = false := by decide
  refine ⟨?_, ?_, ?_⟩
  · simp only [isReal, Bool.and_eq_true] at h
    exact h.1.1.1
  · simp only [isReal, Bool.and_eq_true, Option.isNone_iff_eq_none] at h
    exact h.1.1.2
  · rintro rfl
    simp [hs] at h

/-- The text of a value starts with a unit that is neither white space nor a closing bracket. -/
theorem head_of_spells {v : Value} {cs : Units} (h : Spells v cs) :
    ∃ u t, cs = u :: t ∧ ¬ IsSpace u ∧ u ≠ rbracket := by
  have hnumber : ∀ lit : Units, lit ≠ [] → lit.all isNumberUnit = true →
      ∃ u t, lit = u :: t ∧ ¬ IsSpace u ∧ u ≠ rbracket := by
    intro lit hne hall
    obtain ⟨u, t, rfl⟩ := List.exists_cons_of_ne_nil hne
    have hu : isNumberUnit u = true := List.all_eq_true.mp hall u (by simp)
    exact ⟨u, t, rfl, not_isSpace_of_isNumberUnit hu, (isNumberUnit_ne hu).2.2.1⟩
  cases h with
  | null => exact ⟨_, _, rfl, by decide, by decide⟩
  | true => exact ⟨_, _, rfl, by decide, by decide⟩
  | false => exact ⟨_, _, rfl, by decide, by decide⟩
  | int hi =>
    exact hnumber _ (all_isNumberUnit_of_intLiteral hi).1 (all_isNumberUnit_of_intLiteral hi).2
  | real lit => exact hnumber _ (isReal_cons lit.2).2.2 (isReal_cons lit.2).1
  | str _ => exact ⟨_, _, rfl, by decide, by decide⟩
  | noItems _ => exact ⟨_, _, rfl, by decide, by decide⟩
  | arr _ => exact ⟨_, _, rfl, by decide, by decide⟩
  | noMembers _ => exact ⟨_, _, rfl, by decide, by decide⟩
  | obj _ => exact ⟨_, _, rfl, by decide, by decide⟩

theorem expect_rbracket_items {xs : List Value} {cs : Units} (h : SpellsItems xs cs)
    (rest : Units) : expect rbracket (cs ++ rest) = none := by
  cases h with
  | last ha hx _ =>
    obtain ⟨u, t, rfl, hu, hne⟩ := head_of_spells hx
    simpa using expect_ne hu hne ha _
  | cons ha hx _ _ =>
    obtain ⟨u, t, rfl, hu, hne⟩ := head_of_spells hx
    simpa using expect_ne hu hne ha _

theorem expect_rbrace_members {ms : Members} {cs : Units} (h : SpellsMembers ms cs)
    (rest : Units) : expect rbrace (cs ++ rest) = none := by
  cases h with
  | last ha => simpa using expect_ne (u := rbrace) (v := dquote) (by decide) (by decide) ha _
  | cons ha => simpa using expect_ne (u := rbrace) (v := dquote) (by decide) (by decide) ha _

/-- A number is read where it ends. -/
theorem value_of_number {lit rest : Units} {v : Value} (hne : lit ≠ [])
    (hall : lit.all isNumberUnit = true) (hnum : number (lit ++ rest) = some (v, rest)) {n : Nat}
    (hn : lit.length ≤ n) : value n (lit ++ rest) = some (v, rest) := by
  obtain ⟨u, t, rfl⟩ := List.exists_cons_of_ne_nil hne
  have hu : isNumberUnit u = true := List.all_eq_true.mp hall u (by simp)
  obtain ⟨h1, h2, -, h3⟩ := isNumberUnit_ne hu
  obtain ⟨n, rfl⟩ : ∃ m, n = m + 1 := ⟨n - 1, by simp at hn; omega⟩
  rw [List.cons_append] at *
  simp only [value, skipSpace_cons (not_isSpace_of_isNumberUnit hu)]
  rw [if_neg h1, if_neg h2, if_neg h3, if_pos hu, hnum]

theorem keyword_append (word : Units) (v : Value) (rest : Units) :
    keyword word v (word ++ rest) = some (v, rest) := by
  simp [keyword]

theorem value_lbrace (n : Nat) (text : Units) :
    value (n + 1) (lbrace :: text) = match expect rbrace text with
      | some rest => some (.obj [], rest)
      | none => (members n text).map fun (ms, rest) => (.obj ms, rest) := rfl

theorem value_lbracket (n : Nat) (text : Units) :
    value (n + 1) (lbracket :: text) = match expect rbracket text with
      | some rest => some (.arr [], rest)
      | none => (items n text).map fun (xs, rest) => (.arr xs, rest) := rfl

theorem value_dquote (n : Nat) (text : Units) :
    value (n + 1) (dquote :: text) =
      (stringBody .plain text).map fun (s, rest) => (.str s, rest) := rfl

theorem items_last {n : Nat} {text text' rest : Units} {x : Value}
    (hv : value n text = some (x, text')) (he : expect rbracket text' = some rest) :
    items (n + 1) text = some ([x], rest) := by
  simp only [items, hv, Option.bind_some, he]

theorem items_cons {n : Nat} {text text' text'' rest : Units} {x : Value} {xs : List Value}
    (hv : value n text = some (x, text')) (hne : expect rbracket text' = none)
    (he : expect comma text' = some text'') (hi : items n text'' = some (xs, rest)) :
    items (n + 1) text = some (x :: xs, rest) := by
  simp only [items, hv, Option.bind_some, hne, he, hi, Option.map_some]

theorem members_name {n : Nat} {a kcs k b c text : Units} (ha : Blank a) (hk : Quoted kcs k)
    (hb : Blank b) (hc : Blank c) :
    members (n + 1) (a ++ dquote :: (kcs ++ dquote :: (b ++ colon :: (c ++ text)))) =
      (value n text).bind fun (v, text) =>
        match expect rbrace text with
        | some rest => some ([(k, v)], rest)
        | none => (expect comma text).bind fun text =>
            (members n text).map fun (ms, rest) => ((k, v) :: ms, rest) := by
  simp only [members, expect_blank ha (u := dquote) (by decide), stringBody_of_quoted hk,
    expect_blank hb (u := colon) (by decide), value_blank hc, Option.bind_some]

mutual

/-- The text of a value is read as the value. The recursion is on the derivation; the fuel of the
reader follows the length of the text, of which every level of the derivation takes a unit. -/
theorem value_of_spells {v : Value} {cs : Units} :
    Spells v cs → ∀ {n : Nat}, cs.length ≤ n → ∀ {rest : Units}, Ends rest →
      value n (cs ++ rest) = some (v, rest)
  | h@.null, 0, hn, _, _ | h@.true, 0, hn, _, _ | h@.false, 0, hn, _, _ | h@(.str _), 0, hn, _, _
  | h@(.noItems _), 0, hn, _, _ | h@(.arr _), 0, hn, _, _ | h@(.noMembers _), 0, hn, _, _
  | h@(.obj _), 0, hn, _, _ => by
    obtain ⟨u, t, hcs, -⟩ := head_of_spells h
    simp [hcs] at hn
  | .null, n + 1, _, rest, _ => keyword_append wordNull .null rest
  | .true, n + 1, _, rest, _ => keyword_append wordTrue (.bool true) rest
  | .false, n + 1, _, rest, _ => keyword_append wordFalse (.bool false) rest
  | .int hi, n, hn, rest, he => by
    obtain ⟨hne, hall⟩ := all_isNumberUnit_of_intLiteral hi
    obtain ⟨ht, hd⟩ := takeWhile_append_of_ends hall he
    refine value_of_number hne hall ?_ hn
    simp only [number, ht, hd, hi]
  | .real lit, n, hn, rest, he => by
    obtain ⟨hall, hint, hne⟩ := isReal_cons lit.2
    obtain ⟨ht, hd⟩ := takeWhile_append_of_ends hall he
    refine value_of_number hne hall ?_ hn
    simp only [number, ht, hd, hint]
    rw [dif_pos lit.2]
  | .str hq, n + 1, _, rest, _ => by
    rw [List.cons_append, List.cons_append, List.append_assoc, List.singleton_append, value_dquote,
      stringBody_of_quoted hq]
    rfl
  | .noItems hw, n + 1, _, rest, _ => by
    rw [List.cons_append, List.cons_append, List.append_assoc, List.singleton_append,
      value_lbracket, expect_blank hw (by decide)]
  | .noMembers hw, n + 1, _, rest, _ => by
    rw [List.cons_append, List.cons_append, List.append_assoc, List.singleton_append,
      value_lbrace, expect_blank hw (by decide)]
  | .arr hs, n + 1, hn, rest, _ => by
    have hi := items_of_spells hs (n := n) (by simpa using hn) rest
    rw [List.cons_append, value_lbracket, expect_rbracket_items hs, hi]
    rfl
  | .obj hs, n + 1, hn, rest, _ => by
    have hm := members_of_spells hs (n := n) (by simpa using hn) rest
    rw [List.cons_append, value_lbrace, expect_rbrace_members hs, hm]
    rfl

theorem items_of_spells {xs : List Value} {cs : Units} :
    SpellsItems xs cs → ∀ {n : Nat}, cs.length ≤ n → ∀ rest : Units,
      items n (cs ++ rest) = some (xs, rest)
  | .last _ _ _, 0, hn, _ | .cons _ _ _ _, 0, hn, _ => by simp at hn
  | .last ha hx hb, n + 1, hn, rest => by
    have hv := value_of_spells hx (n := n) (by simp at hn; omega)
      (ends_blank hb (u := rbracket) (by decide) rest)
    simp only [List.append_assoc, List.cons_append, List.nil_append]
    exact items_last ((value_blank ha n _).trans hv) (expect_blank hb (by decide) rest)
  | @SpellsItems.cons _ _ _ _ _ ds ha hx hb hs, n + 1, hn, rest => by
    have hv := value_of_spells hx (n := n) (by simp at hn; omega)
      (ends_blank hb (u := comma) (by decide) (ds ++ rest))
    have hi := items_of_spells hs (n := n) (by simp at hn; omega) rest
    simp only [List.append_assoc, List.cons_append]
    exact items_cons ((value_blank ha n _).trans hv)
      (expect_ne (by decide) (by decide) hb _) (expect_blank hb (by decide) _) hi

theorem members_of_spells {ms : Members} {cs : Units} :
    SpellsMembers ms cs → ∀ {n : Nat}, cs.length ≤ n → ∀ rest : Units,
      members n (cs ++ rest) = some (ms, rest)
  | .last _ _ _ _ _ _, 0, hn, _ | .cons _ _ _ _ _ _ _, 0, hn, _ => by simp at hn
  | .last ha hk hb hc hv hd, n + 1, hn, rest => by
    have hv := value_of_spells hv (n := n) (by simp at hn; omega)
      (ends_blank hd (u := rbrace) (by decide) rest)
    simp only [List.append_assoc, List.cons_append, List.nil_append]
    rw [members_name ha hk hb hc, hv]
    simp only [Option.bind_some, expect_blank hd (u := rbrace) (by decide)]
  | @SpellsMembers.cons _ _ _ _ _ _ _ _ _ ds ha hk hb hc hv hd hs, n + 1, hn, rest => by
    have hv := value_of_spells hv (n := n) (by simp at hn; omega)
      (ends_blank hd (u := comma) (by decide) (ds ++ rest))
    have hm := members_of_spells hs (n := n) (by simp at hn; omega) rest
    simp only [List.append_assoc, List.cons_append]
    rw [members_name ha hk hb hc, hv]
    simp only [Option.bind_some, expect_ne (u := rbrace) (v := comma) (by decide) (by decide) hd,
      expect_blank hd (u := comma) (by decide), hm, Option.map_some]

end

/-- Every text of the grammar, white space around it, is read as the document it spells. -/
theorem parse_of_spells {v : Value} {a cs b : Units} (ha : Blank a) (h : Spells v cs)
    (hb : Blank b) : parse (a ++ cs ++ b) = some v := by
  have hends : Ends b := by
    cases b with
    | nil => exact ends_nil
    | cons u b =>
      have hu : IsSpace u := hb u (by simp)
      rcases hu with rfl | rfl | rfl | rfl <;> simp [Ends] <;> decide
  have hv := value_of_spells h (n := (a ++ cs ++ b).length) (by simp; omega) hends
  have hskip : skipSpace b = [] := by simpa [skipSpace] using skipSpace_blank hb []
  have hvalue : value (a ++ cs ++ b).length (a ++ cs ++ b) = some (v, b) := by
    rw [← hv, List.append_assoc, value_blank ha]
  simp only [parse, hvalue, Option.bind_some, hskip, if_true]

/-! ## Writing -/

/-- The unit of a decimal digit. -/
def digitUnit (d : Nat) : UInt16 := UInt16.ofNat (0x30 + d)

/-- The decimal digits of a number. -/
def natUnits (m : Nat) : Units :=
  if m = 0 then [0x30] else (Nat.digits 10 m).reverse.map digitUnit

theorem toNat_digitUnit {d : Nat} (h : d < 10) : (digitUnit d).toNat = 0x30 + d := by
  simp only [digitUnit, UInt16.toNat_ofNat']
  omega

/-- Digits written from the most significant one on have the value they are the digits of. -/
theorem digitsValue_digitUnits {ds : List Nat} (h : ∀ d ∈ ds, d < 10) :
    digitsValue (ds.reverse.map digitUnit) = Nat.ofDigits 10 ds := by
  induction ds with
  | nil => rfl
  | cons d ds ih =>
    have hd := toNat_digitUnit (h d (by simp))
    have ihd := ih fun e he => h e (by simp [he])
    unfold digitsValue at *
    rw [List.reverse_cons, List.map_append, List.foldl_append, ihd]
    simp only [List.map_cons, List.map_nil, List.foldl_cons, List.foldl_nil, hd,
      Nat.ofDigits_cons]
    omega

theorem natLiteral?_natUnits (m : Nat) : natLiteral? (natUnits m) = some m := by
  unfold natUnits
  split
  · rename_i h
    rw [h]
    decide
  · rename_i h
    have hlt : ∀ d ∈ Nat.digits 10 m, d < 10 := fun d hd => Nat.digits_lt_base (by decide) hd
    have hne : Nat.digits 10 m ≠ [] := Nat.digits_ne_nil_iff_ne_zero.mpr h
    have hvalue : digitsValue ((Nat.digits 10 m).reverse.map digitUnit) = m :=
      (digitsValue_digitUnits hlt).trans (Nat.ofDigits_digits 10 m)
    have hall : ((Nat.digits 10 m).reverse.map digitUnit).all isDigit = true := by
      rw [List.all_eq_true]
      intro u hu
      obtain ⟨d, hd, rfl⟩ := List.mem_map.mp hu
      have hd := hlt d (List.mem_reverse.mp hd)
      simp only [isDigit, toNat_digitUnit hd, Bool.and_eq_true, decide_eq_true_eq]
      omega
    have hhead : ((Nat.digits 10 m).reverse.map digitUnit).head? ≠ some 0x30 := by
      have hlast := Nat.getLast_digit_ne_zero 10 h
      have hunit := toNat_digitUnit (hlt _ (List.getLast_mem hne))
      rw [List.head?_map, List.head?_reverse, List.getLast?_eq_some_getLast hne]
      intro heq
      rw [Option.some.inj heq] at hunit
      have hzero : (0x30 : UInt16).toNat = 0x30 := rfl
      omega
    unfold natLiteral?
    rw [if_pos ⟨by simpa using hne, hall, fun hh => absurd hh hhead⟩, hvalue]

/-- A number's first digit is no sign. -/
theorem intLiteral?_natUnits (m : Nat) : intLiteral? (natUnits m) = some (false, m) := by
  have hm := natLiteral?_natUnits m
  obtain ⟨hne, -⟩ := all_isNumberUnit_of_natLiteral hm
  obtain ⟨u, ds, hu⟩ := List.exists_cons_of_ne_nil hne
  rw [hu] at hm ⊢
  have hne : u ≠ minus := by
    rintro rfl
    have hnone : natLiteral? (minus :: ds) = none := by simp [natLiteral?, isDigit]
    rw [hnone] at hm
    cases hm
  rw [intLiteral?, if_neg hne, hm]
  rfl

variable (q : Units → Units)

mutual

/-- A document without white space, its strings escaped by `q`. -/
def print : Value → Units
  | .null => wordNull
  | .bool b => if b then wordTrue else wordFalse
  | .int neg mag => if neg then minus :: natUnits mag else natUnits mag
  | .real lit => lit.val
  | .str s => dquote :: q s ++ [dquote]
  | .arr [] => [lbracket, rbracket]
  | .arr (x :: xs) => lbracket :: (print x ++ printItems xs)
  | .obj [] => [lbrace, rbrace]
  | .obj ((k, v) :: ms) =>
    lbrace :: (dquote :: q k ++ dquote :: colon :: (print v ++ printMembers ms))

def printItems : List Value → Units
  | [] => [rbracket]
  | x :: xs => comma :: (print x ++ printItems xs)

def printMembers : Members → Units
  | [] => [rbrace]
  | (k, v) :: ms => comma :: (dquote :: q k ++ dquote :: colon :: (print v ++ printMembers ms))

end

/-- A member after another. -/
def printMember (m : Units × Value) : Units :=
  comma :: (dquote :: q m.1 ++ dquote :: colon :: print q m.2)

theorem printMembers_append (ms ns : Members) :
    printMembers q (ms ++ ns) = ms.flatMap (printMember q) ++ printMembers q ns := by
  induction ms with
  | nil => rfl
  | cons m ms ih => simp [printMembers, printMember, ih]

theorem print_obj_append {ms : Members} (h : ms ≠ []) (ns : Members) :
    print q (.obj (ms ++ ns)) =
      lbrace :: ((ms.flatMap (printMember q)).tail ++ printMembers q ns) := by
  cases ms with
  | nil => exact absurd rfl h
  | cons m ms => simp [print, printMember, printMembers_append]

theorem printItems_map {α : Type} (f : α → Value) (xs : List α) :
    printItems q (xs.map f) = xs.flatMap (fun x => comma :: print q (f x)) ++ [rbracket] := by
  induction xs with
  | nil => rfl
  | cons x xs ih => simp [printItems, ih]

variable {q}

theorem blank_nil : Blank [] := by simp [Blank]

mutual

/-- What is written is in the grammar, whatever escapes `q` chooses. -/
theorem spells_print (hq : ∀ s, Quoted (q s) s) : ∀ v : Value, Spells v (print q v)
  | .null => .null
  | .bool true => .true
  | .bool false => .false
  | .int true mag => by
    refine .int ?_
    show intLiteral? (minus :: natUnits mag) = some (true, mag)
    rw [intLiteral?, if_pos rfl, natLiteral?_natUnits]
    rfl
  | .int false mag => .int (intLiteral?_natUnits mag)
  | .real lit => .real lit
  | .str s => .str (hq s)
  | .arr [] => .noItems blank_nil
  | .arr (x :: xs) => .arr (spellsItems_print hq xs (spells_print hq x))
  | .obj [] => .noMembers blank_nil
  | .obj ((k, v) :: ms) => by
    have h := spellsMembers_print hq ms k (spells_print hq v)
    simpa [print] using Spells.obj h

theorem spellsItems_print (hq : ∀ s, Quoted (q s) s) : ∀ (xs : List Value) {x : Value}
    {cs : Units}, Spells x cs → SpellsItems (x :: xs) (cs ++ printItems q xs)
  | [], x, cs, h => by
    have := SpellsItems.last blank_nil h blank_nil
    simpa [printItems] using this
  | y :: ys, x, cs, h => by
    have hy := spellsItems_print hq ys (spells_print hq y)
    have := SpellsItems.cons blank_nil h blank_nil hy
    simpa [printItems] using this

theorem spellsMembers_print (hq : ∀ s, Quoted (q s) s) : ∀ (ms : Members) (k : Units)
    {v : Value} {cs : Units}, Spells v cs →
      SpellsMembers ((k, v) :: ms) (dquote :: (q k ++ dquote :: colon :: (cs ++ printMembers q ms)))
  | [], k, v, cs, h => by
    have := SpellsMembers.last blank_nil (hq k) blank_nil blank_nil h blank_nil
    simpa [printMembers] using this
  | (l, w) :: ms, k, v, cs, h => by
    have hw := spellsMembers_print hq ms l (spells_print hq w)
    have := SpellsMembers.cons blank_nil (hq k) blank_nil blank_nil h blank_nil hw
    simpa [printMembers] using this

end

/-- What is written reads back. -/
theorem parse_print (hq : ∀ s, Quoted (q s) s) (v : Value) : parse (print q v) = some v := by
  simpa using parse_of_spells blank_nil (spells_print hq v) blank_nil

/-! ## Well-formed text -/

mutual

/-- Every string of the document, names of members among them, has `P`. -/
def AllStrings (P : Units → Prop) : Value → Prop
  | .str s => P s
  | .arr xs => AllItems P xs
  | .obj ms => AllMembers P ms
  | _ => True

def AllItems (P : Units → Prop) : List Value → Prop
  | [] => True
  | x :: xs => AllStrings P x ∧ AllItems P xs

def AllMembers (P : Units → Prop) : Members → Prop
  | [] => True
  | (k, v) :: ms => P k ∧ AllStrings P v ∧ AllMembers P ms

end

mutual

theorem AllStrings.mono {P Q : Units → Prop} (hPQ : ∀ s, P s → Q s) :
    ∀ {v : Value}, AllStrings P v → AllStrings Q v
  | .str s, h => hPQ s h
  | .arr _, h => AllItems.mono hPQ h
  | .obj _, h => AllMembers.mono hPQ h
  | .null, _ | .bool _, _ | .int _ _, _ | .real _, _ => trivial

theorem AllItems.mono {P Q : Units → Prop} (hPQ : ∀ s, P s → Q s) :
    ∀ {xs : List Value}, AllItems P xs → AllItems Q xs
  | [], _ => trivial
  | _ :: _, h => ⟨AllStrings.mono hPQ h.1, AllItems.mono hPQ h.2⟩

theorem AllMembers.mono {P Q : Units → Prop} (hPQ : ∀ s, P s → Q s) :
    ∀ {ms : Members}, AllMembers P ms → AllMembers Q ms
  | [], _ => trivial
  | (k, _) :: _, h => ⟨hPQ k h.1, AllStrings.mono hPQ h.2.1, AllMembers.mono hPQ h.2.2⟩

end

mutual

def decideAllStrings (P : Units → Prop) [DecidablePred P] : (v : Value) → Decidable (AllStrings P v)
  | .str s => inferInstanceAs (Decidable (P s))
  | .arr xs => decideAllItems P xs
  | .obj ms => decideAllMembers P ms
  | .null | .bool _ | .int _ _ | .real _ => .isTrue trivial

def decideAllItems (P : Units → Prop) [DecidablePred P] :
    (xs : List Value) → Decidable (AllItems P xs)
  | [] => .isTrue trivial
  | x :: xs => @instDecidableAnd _ _ (decideAllStrings P x) (decideAllItems P xs)

def decideAllMembers (P : Units → Prop) [DecidablePred P] :
    (ms : Members) → Decidable (AllMembers P ms)
  | [] => .isTrue trivial
  | (_, v) :: ms => @instDecidableAnd _ _ (inferInstance)
      (@instDecidableAnd _ _ (decideAllStrings P v) (decideAllMembers P ms))

end

instance (P : Units → Prop) [DecidablePred P] (v : Value) : Decidable (AllStrings P v) :=
  decideAllStrings P v

theorem wellFormed_number {lit : Units} (h : lit.all isNumberUnit = true) : WellFormed lit := by
  apply wellFormed_of_ascii
  intro u hu
  have hn : isNumberUnit u = true := List.all_eq_true.mp h u hu
  simp only [isNumberUnit, isDigit, Bool.or_eq_true, Bool.and_eq_true, decide_eq_true_eq] at hn
  rcases hn with ((((⟨-, hn⟩ | rfl) | rfl) | rfl) | rfl) | rfl
  · omega
  all_goals decide

theorem wellFormed_quoted {cs : Units} (h : WellFormed cs) :
    WellFormed (dquote :: cs ++ [dquote]) := by
  have hq : WellFormed [dquote] := wellFormed_of_ascii (by decide)
  exact (hq.append h).append hq

mutual

/-- What is written is well-formed if the strings are, once escaped. -/
theorem wellFormed_print : ∀ v : Value, AllStrings (fun s => WellFormed (q s)) v →
    WellFormed (print q v)
  | .null, _ => @wellFormed_of_ascii wordNull (by decide)
  | .bool true, _ => @wellFormed_of_ascii wordTrue (by decide)
  | .bool false, _ => @wellFormed_of_ascii wordFalse (by decide)
  | .int true mag, _ => by
    have hm := (all_isNumberUnit_of_natLiteral (natLiteral?_natUnits mag)).2
    exact @wellFormed_number (minus :: natUnits mag)
      (List.all_cons ▸ Bool.and_eq_true_iff.mpr ⟨rfl, hm⟩)
  | .int false mag, _ =>
    wellFormed_number (all_isNumberUnit_of_natLiteral (natLiteral?_natUnits mag)).2
  | .real lit, _ => wellFormed_number (isReal_cons lit.2).1
  | .str s, h => wellFormed_quoted h
  | .arr [], _ => @wellFormed_of_ascii [lbracket, rbracket] (by decide)
  | .arr (x :: xs), h =>
    (@wellFormed_of_ascii [lbracket] (by decide)).append
      ((wellFormed_print x h.1).append (wellFormed_printItems xs h.2))
  | .obj [], _ => @wellFormed_of_ascii [lbrace, rbrace] (by decide)
  | .obj ((k, v) :: ms), h => by
    have hb : WellFormed [lbrace] := wellFormed_of_ascii (by decide)
    have hc : WellFormed [colon] := wellFormed_of_ascii (by decide)
    have hv := (wellFormed_print v h.2.1).append (wellFormed_printMembers ms h.2.2)
    simpa [print] using hb.append ((wellFormed_quoted h.1).append (hc.append hv))

theorem wellFormed_printItems : ∀ xs : List Value, AllItems (fun s => WellFormed (q s)) xs →
    WellFormed (printItems q xs)
  | [], _ => @wellFormed_of_ascii [rbracket] (by decide)
  | x :: xs, h =>
    (@wellFormed_of_ascii [comma] (by decide)).append
      ((wellFormed_print x h.1).append (wellFormed_printItems xs h.2))

theorem wellFormed_printMembers : ∀ ms : Members, AllMembers (fun s => WellFormed (q s)) ms →
    WellFormed (printMembers q ms)
  | [], _ => @wellFormed_of_ascii [rbrace] (by decide)
  | (k, v) :: ms, h => by
    have hc : WellFormed [comma] := wellFormed_of_ascii (by decide)
    have hd : WellFormed [colon] := wellFormed_of_ascii (by decide)
    have hv := (wellFormed_print v h.2.1).append (wellFormed_printMembers ms h.2.2)
    simpa [printMembers] using hc.append ((wellFormed_quoted h.1).append (hd.append hv))

end

/-! ## Control characters -/

/-- No control characters, line feeds among them. -/
def Printable (us : Units) : Prop := ∀ u ∈ us, 0x20 ≤ u.toNat

instance (us : Units) : Decidable (Printable us) := List.decidableBAll _ us

theorem Printable.append {us vs : Units} (hu : Printable us) (hv : Printable vs) :
    Printable (us ++ vs) := by
  intro u hmem
  rcases List.mem_append.mp hmem with h | h
  · exact hu u h
  · exact hv u h

theorem Printable.cons {u : UInt16} {us : Units} (hu : 0x20 ≤ u.toNat) (h : Printable us) :
    Printable (u :: us) := by
  intro v hv
  rcases List.mem_cons.mp hv with rfl | hv
  · exact hu
  · exact h v hv

/-- The digits of an escape. -/
theorem le_of_hexValue {u : UInt16} {d : Nat} (h : hexValue u = some d) : 0x20 ≤ u.toNat := by
  unfold hexValue isDigit at h
  split_ifs at h with h1 h2 h3
  · simp only [Bool.and_eq_true, decide_eq_true_eq] at h1
    omega
  · omega
  · omega

theorem le_of_unescape {e u : UInt16} (h : unescape e = some u) : 0x20 ≤ e.toNat := by
  unfold unescape at h
  split_ifs at h with h1 h2 h3 h4 h5 h6
  · rcases h1 with rfl | rfl | rfl <;> decide
  all_goals
    subst e
    decide

/-- Whatever the escapes, a control character does not stand between two quotes as it is. -/
theorem printable_of_quoted {cs s : Units} (h : Quoted cs s) : Printable cs := by
  induction h with
  | nil => simp [Printable]
  | raw _ _ hu _ ih => exact ih.cons hu
  | escape he _ ih => exact (ih.cons (le_of_unescape he)).cons (by decide)
  | hex ha hb hc hd _ ih =>
    refine Printable.cons (by decide) (Printable.cons (by decide) ?_)
    exact (((ih.cons (le_of_hexValue hd)).cons (le_of_hexValue hc)).cons
      (le_of_hexValue hb)).cons (le_of_hexValue ha)

theorem printable_number {lit : Units} (h : lit.all isNumberUnit = true) : Printable lit := by
  intro u hu
  have hn : isNumberUnit u = true := List.all_eq_true.mp h u hu
  simp only [isNumberUnit, isDigit, Bool.or_eq_true, Bool.and_eq_true, decide_eq_true_eq] at hn
  rcases hn with ((((⟨hn, -⟩ | rfl) | rfl) | rfl) | rfl) | rfl
  · omega
  all_goals decide

theorem printable_string (hq : ∀ s, Quoted (q s) s) (s : Units) {rest : Units}
    (h : Printable rest) : Printable (dquote :: q s ++ dquote :: rest) :=
  (Printable.cons (by decide) (printable_of_quoted (hq s))).append (h.cons (by decide))

mutual

/-- What is written has no control characters outside the strings either. -/
theorem printable_print (hq : ∀ s, Quoted (q s) s) : ∀ v : Value, Printable (print q v)
  | .null => show Printable wordNull by decide
  | .bool true => show Printable wordTrue by decide
  | .bool false => show Printable wordFalse by decide
  | .int true mag =>
    (printable_number (all_isNumberUnit_of_natLiteral (natLiteral?_natUnits mag)).2).cons
      (by decide)
  | .int false mag =>
    printable_number (all_isNumberUnit_of_natLiteral (natLiteral?_natUnits mag)).2
  | .real lit => printable_number (isReal_cons lit.2).1
  | .str s => printable_string hq s (show Printable [] by decide)
  | .arr [] => show Printable [lbracket, rbracket] by decide
  | .arr (x :: xs) => ((printable_print hq x).append (printable_printItems hq xs)).cons (by decide)
  | .obj [] => show Printable [lbrace, rbrace] by decide
  | .obj ((k, v) :: ms) => by
    have hv := (printable_print hq v).append (printable_printMembers hq ms)
    exact (printable_string hq k (hv.cons (u := colon) (by decide))).cons (by decide)

theorem printable_printItems (hq : ∀ s, Quoted (q s) s) :
    ∀ xs : List Value, Printable (printItems q xs)
  | [] => show Printable [rbracket] by decide
  | x :: xs => ((printable_print hq x).append (printable_printItems hq xs)).cons (by decide)

theorem printable_printMembers (hq : ∀ s, Quoted (q s) s) :
    ∀ ms : Members, Printable (printMembers q ms)
  | [] => show Printable [rbrace] by decide
  | (k, v) :: ms => by
    have hv := (printable_print hq v).append (printable_printMembers hq ms)
    exact (printable_string hq k (hv.cons (u := colon) (by decide))).cons (by decide)

end

end FfVpn.Library.Json
