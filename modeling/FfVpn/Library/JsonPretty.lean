import FfVpn.Library.Json

/-!
# JSON over several lines

`pretty` writes every item of an array and every member of an object on a line of its own, indented
by its depth, and an empty array or object without a line break. The strings are escaped by `q`.
White space aside it writes what `print` does: the text is in the grammar (`spells_pretty`), so that
`parse` reads it back (`parse_pretty`).
-/

set_option autoImplicit false

namespace FfVpn.Library.Json

open FfVpn.Library.Utf16

/-- A line break and the indentation of the next line, `tab` for each level. -/
def line (tab : Units) (depth : Nat) : Units := 0x0A :: (List.replicate depth tab).flatten

variable (q : Units → Units) (tab : Units)

mutual

/-- A document that begins at a depth. -/
def pretty (depth : Nat) : Value → Units
  | .null => wordNull
  | .bool b => if b then wordTrue else wordFalse
  | .int neg mag => if neg then minus :: natUnits mag else natUnits mag
  | .real lit => lit.val
  | .str s => dquote :: q s ++ [dquote]
  | .arr [] => [lbracket, rbracket]
  | .arr (x :: xs) =>
    lbracket :: (line tab (depth + 1) ++ pretty (depth + 1) x ++ prettyItems depth xs)
  | .obj [] => [lbrace, rbrace]
  | .obj ((k, v) :: ms) =>
    lbrace :: (line tab (depth + 1) ++ dquote :: (q k ++
      dquote :: colon :: 0x20 :: (pretty (depth + 1) v ++ prettyMembers depth ms)))

def prettyItems (depth : Nat) : List Value → Units
  | [] => line tab depth ++ [rbracket]
  | x :: xs => comma :: (line tab (depth + 1) ++ pretty (depth + 1) x ++ prettyItems depth xs)

def prettyMembers (depth : Nat) : Members → Units
  | [] => line tab depth ++ [rbrace]
  | (k, v) :: ms =>
    comma :: (line tab (depth + 1) ++ dquote :: (q k ++
      dquote :: colon :: 0x20 :: (pretty (depth + 1) v ++ prettyMembers depth ms)))

end

variable {q : Units → Units} {tab : Units}

theorem blank_line (htab : Blank tab) (depth : Nat) : Blank (line tab depth) := by
  intro u hu
  rcases List.mem_cons.mp hu with rfl | hu
  · decide
  · obtain ⟨us, hus, hmem⟩ := List.mem_flatten.mp hu
    exact htab u (List.eq_of_mem_replicate hus ▸ hmem)

theorem blank_space : Blank [0x20] := by simp [Blank, IsSpace]

mutual

/-- What is written is in the grammar. -/
theorem spells_pretty (hq : ∀ s, Quoted (q s) s) (htab : Blank tab) (depth : Nat) :
    ∀ v : Value, Spells v (pretty q tab depth v)
  | .null => .null
  | .bool true => .true
  | .bool false => .false
  | .int neg mag => spells_print hq (.int neg mag)
  | .real lit => .real lit
  | .str s => .str (hq s)
  | .arr [] => .noItems blank_nil
  | .arr (x :: xs) =>
    .arr (spellsItems_pretty hq htab depth xs (spells_pretty hq htab (depth + 1) x))
  | .obj [] => .noMembers blank_nil
  | .obj ((k, v) :: ms) =>
    .obj (spellsMembers_pretty hq htab depth ms k (spells_pretty hq htab (depth + 1) v))

theorem spellsItems_pretty (hq : ∀ s, Quoted (q s) s) (htab : Blank tab) (depth : Nat) :
    ∀ (xs : List Value) {x : Value} {cs : Units}, Spells x cs →
      SpellsItems (x :: xs) (line tab (depth + 1) ++ cs ++ prettyItems q tab depth xs)
  | [], x, cs, h => by
    have := SpellsItems.last (blank_line htab (depth + 1)) h (blank_line htab depth)
    simpa [prettyItems] using this
  | y :: ys, x, cs, h => by
    have hy := spellsItems_pretty hq htab depth ys (spells_pretty hq htab (depth + 1) y)
    have := SpellsItems.cons (blank_line htab (depth + 1)) h blank_nil hy
    simpa [prettyItems] using this

theorem spellsMembers_pretty (hq : ∀ s, Quoted (q s) s) (htab : Blank tab) (depth : Nat) :
    ∀ (ms : Members) (k : Units) {v : Value} {cs : Units}, Spells v cs →
      SpellsMembers ((k, v) :: ms) (line tab (depth + 1) ++ dquote :: (q k ++
        dquote :: colon :: 0x20 :: (cs ++ prettyMembers q tab depth ms)))
  | [], k, v, cs, h => by
    have := SpellsMembers.last (blank_line htab (depth + 1)) (hq k) blank_nil blank_space h
      (blank_line htab depth)
    simpa [prettyMembers] using this
  | (l, w) :: ms, k, v, cs, h => by
    have hw := spellsMembers_pretty hq htab depth ms l (spells_pretty hq htab (depth + 1) w)
    have := SpellsMembers.cons (blank_line htab (depth + 1)) (hq k) blank_nil blank_space h
      blank_nil hw
    simpa [prettyMembers] using this

end

/-- **What is written over several lines reads back.** -/
theorem parse_pretty (hq : ∀ s, Quoted (q s) s) (htab : Blank tab) (v : Value) :
    parse (pretty q tab 0 v) = some v := by
  simpa using parse_of_spells blank_nil (spells_pretty hq htab 0 v) blank_nil

/-- An object with an empty array and an array of one item. -/
example : pretty id [0x09] 0 (.obj [([0x61], .arr []), ([0x62], .arr [.null])]) =
    [lbrace, 0x0A, 0x09, dquote, 0x61, dquote, colon, 0x20, lbracket, rbracket, comma,
      0x0A, 0x09, dquote, 0x62, dquote, colon, 0x20, lbracket,
        0x0A, 0x09, 0x09] ++ wordNull ++ [0x0A, 0x09, rbracket, 0x0A, rbrace] := by
  decide

/-! ## Well-formed text -/

theorem wellFormed_blank {ws : Units} (h : Blank ws) : WellFormed ws := by
  refine wellFormed_of_ascii fun u hu => ?_
  rcases h u hu with rfl | rfl | rfl | rfl <;> decide

/-- A name, its colon and what follows. -/
theorem wellFormed_member {ws k cs : Units} (hws : Blank ws) (hk : WellFormed k)
    (hcs : WellFormed cs) :
    WellFormed (ws ++ dquote :: (k ++ dquote :: colon :: 0x20 :: cs)) := by
  have hcolon : WellFormed [colon, 0x20] := wellFormed_of_ascii (by decide)
  have := (wellFormed_blank hws).append ((wellFormed_quoted hk).append (hcolon.append hcs))
  simpa using this

mutual

/-- What is written is well-formed if the strings are, once escaped. -/
theorem wellFormed_pretty (htab : Blank tab) (depth : Nat) :
    ∀ v : Value, AllStrings (fun s => WellFormed (q s)) v → WellFormed (pretty q tab depth v)
  | .null, _ => wellFormed_print (q := q) .null trivial
  | .bool b, _ => wellFormed_print (q := q) (.bool b) trivial
  | .int neg mag, _ => wellFormed_print (q := q) (.int neg mag) trivial
  | .real lit, _ => wellFormed_print (q := q) (.real lit) trivial
  | .str s, h => wellFormed_quoted h
  | .arr [], _ => @wellFormed_of_ascii [lbracket, rbracket] (by decide)
  | .arr (x :: xs), h =>
    (@wellFormed_of_ascii [lbracket] (by decide)).append
      (((wellFormed_blank (blank_line htab (depth + 1))).append
        (wellFormed_pretty htab (depth + 1) x h.1)).append
          (wellFormed_prettyItems htab depth xs h.2))
  | .obj [], _ => @wellFormed_of_ascii [lbrace, rbrace] (by decide)
  | .obj ((k, v) :: ms), h =>
    (@wellFormed_of_ascii [lbrace] (by decide)).append
      (wellFormed_member (blank_line htab (depth + 1)) h.1
        ((wellFormed_pretty htab (depth + 1) v h.2.1).append
          (wellFormed_prettyMembers htab depth ms h.2.2)))

theorem wellFormed_prettyItems (htab : Blank tab) (depth : Nat) :
    ∀ xs : List Value, AllItems (fun s => WellFormed (q s)) xs →
      WellFormed (prettyItems q tab depth xs)
  | [], _ =>
    (wellFormed_blank (blank_line htab depth)).append
      (@wellFormed_of_ascii [rbracket] (by decide))
  | x :: xs, h =>
    (@wellFormed_of_ascii [comma] (by decide)).append
      (((wellFormed_blank (blank_line htab (depth + 1))).append
        (wellFormed_pretty htab (depth + 1) x h.1)).append
          (wellFormed_prettyItems htab depth xs h.2))

theorem wellFormed_prettyMembers (htab : Blank tab) (depth : Nat) :
    ∀ ms : Members, AllMembers (fun s => WellFormed (q s)) ms →
      WellFormed (prettyMembers q tab depth ms)
  | [], _ =>
    (wellFormed_blank (blank_line htab depth)).append (@wellFormed_of_ascii [rbrace] (by decide))
  | (k, v) :: ms, h =>
    (@wellFormed_of_ascii [comma] (by decide)).append
      (wellFormed_member (blank_line htab (depth + 1)) h.1
        ((wellFormed_pretty htab (depth + 1) v h.2.1).append
          (wellFormed_prettyMembers htab depth ms h.2.2)))

end

end FfVpn.Library.Json
