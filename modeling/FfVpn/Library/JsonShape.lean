import FfVpn.Library.Json

/-!
# Shapes of JSON documents

What a document has to look like for a reader into typed values to take it. A shape is a predicate
on documents: strings without lone surrogates, naturals below a bound, lists, null or a value, and
records, which are written as an object or, by position, as an array. A shape says nothing of what
is read; `Takes` ties it to a reader.
-/

set_option autoImplicit false

namespace FfVpn.Library.JsonShape

open FfVpn.Library.Utf16 FfVpn.Library.Json

/-- A string without lone surrogates. -/
def IsString (v : Value) : Prop := ∃ s : String, v = .str (utf16 s)

/-- An integer without sign, fraction and exponent, below the bound. -/
def IsNat (bound : Nat) (v : Value) : Prop := ∃ n, v = .int false n ∧ n < bound

def IsList (shape : Value → Prop) (v : Value) : Prop := ∃ xs, v = .arr xs ∧ ∀ x ∈ xs, shape x

def OrNull (shape : Value → Prop) (v : Value) : Prop := v = .null ∨ shape v

/-! ## Records -/

/-- A field of a record: its name, whether it may be left out, and its shape. -/
structure Field where
  name : String
  optional : Bool
  shape : Value → Prop

def needs (name : String) (shape : Value → Prop) : Field := ⟨name, false, shape⟩

def may (name : String) (shape : Value → Prop) : Field := ⟨name, true, shape⟩

@[simp] theorem needs_name (name : String) (shape : Value → Prop) :
    (needs name shape).name = name := rfl

@[simp] theorem may_name (name : String) (shape : Value → Prop) : (may name shape).name = name :=
  rfl

/-- What a record has for the field. -/
def Field.Ok (f : Field) : Option Value → Prop
  | none => f.optional = true
  | some v => f.shape v

/-- The names of the members have no lone surrogates, and the known ones are there once at most. -/
def Known (names : List String) (ms : Members) : Prop :=
  (∀ m ∈ ms, WellFormed m.1) ∧ ∀ name ∈ names, ms.countP (·.1 = utf16 name) ≤ 1

/-- An object, or an array of no more items than there are names. -/
def Written (names : List String) : Value → Prop
  | .obj ms => Known names ms
  | .arr xs => xs.length ≤ names.length
  | _ => False

/-- What a record has under a name: the member of the object, or the item at the name's place. -/
def member (fields : List Field) (name : String) : Value → Option Value
  | .obj ms => lookup (utf16 name) ms
  | .arr xs => xs[(fields.map Field.name).idxOf name]?
  | _ => none

@[simp] theorem member_obj (fields : List Field) (name : String) (ms : Members) :
    member fields name (.obj ms) = lookup (utf16 name) ms := rfl

/-- A record with these fields. -/
def Record (fields : List Field) (v : Value) : Prop :=
  Written (fields.map Field.name) v ∧ ∀ f ∈ fields, f.Ok (member fields f.name v)

/-! ## Readers -/

/-- The reader takes the documents of the shape and no others. -/
def Takes {α : Type} (read : Value → Option α) (shape : Value → Prop) : Prop :=
  ∀ v, (∃ a, read v = some a) ↔ shape v

theorem Takes.shape_of_eq_some {α : Type} {read : Value → Option α} {shape : Value → Prop}
    (h : Takes read shape) {v : Value} {a : α} (hv : read v = some a) : shape v :=
  (h v).mp ⟨a, hv⟩

/-- Items that are read one by one are all of the shape. -/
theorem Takes.mapM {α : Type} {read : Value → Option α} {shape : Value → Prop}
    (h : Takes read shape) (xs : List Value) :
    (∃ as, xs.mapM read = some as) ↔ ∀ x ∈ xs, shape x := by
  induction xs with
  | nil => simp
  | cons x xs ih =>
    rw [List.forall_mem_cons, ← h x, ← ih]
    simp only [List.mapM_cons, Option.bind_eq_bind, Option.bind_eq_some_iff, Option.pure_def,
      Option.some.injEq]
    constructor
    · rintro ⟨as, a, ha, as', has, -⟩
      exact ⟨⟨a, ha⟩, as', has⟩
    · rintro ⟨⟨a, ha⟩, as, has⟩
      exact ⟨a :: as, a, ha, as, has, rfl⟩

end FfVpn.Library.JsonShape
