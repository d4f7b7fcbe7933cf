import Mathlib.Data.List.Basic
import Mathlib.Data.UInt
import Mathlib.Tactic.Common

/-!
# `util.rs`: constant-time comparison and the descriptor guard

`ctEq` is the loop of `ct_eq`: the lengths are compared first, then the XOR of the corresponding
bytes is ORed into an 8-bit accumulator. `FdGuard` is the guard both entry points and `start` arm
on the TUN descriptor: dropping it closes what it holds, disarming it first empties it, and a
negative number is no descriptor at all.
-/

set_option autoImplicit false

namespace FfVpn.Model.Util

/-- One pass of the loop of `ct_eq` over the zipped bytes, from the accumulator `diff`. -/
def ctDiff : UInt8 → List (UInt8 × UInt8) → UInt8
  | diff, [] => diff
  | diff, (x, y) :: rest => ctDiff (diff ||| (x ^^^ y)) rest

/-- `ct_eq`. -/
def ctEq (a b : List UInt8) : Bool :=
  if a.length ≠ b.length then false else ctDiff 0 (a.zip b) == 0

/-- `str::as_bytes`. -/
def asBytes (s : String) : List UInt8 := s.toByteArray.data.toList

/-- `FdGuard`: the descriptor it will close when dropped, if any. -/
structure FdGuard where
  fd : Option Int
  deriving DecidableEq, Repr

/-- `FdGuard::new`: a negative number is not a descriptor. -/
def FdGuard.new (fd : Int) : FdGuard := if fd < 0 then ⟨none⟩ else ⟨some fd⟩

/-- `FdGuard::disarm`: what is left to drop. -/
def FdGuard.disarm (_ : FdGuard) : FdGuard := ⟨none⟩

/-- `Drop for FdGuard`: the descriptors passed to `close`. -/
def FdGuard.drop (g : FdGuard) : List Int := g.fd.toList

theorem or_eq_zero (a b : UInt8) : a ||| b = 0 ↔ a = 0 ∧ b = 0 := by
  simp only [← UInt8.toBitVec_inj, UInt8.toBitVec_or, UInt8.toBitVec_ofNat]
  exact BitVec.or_eq_zero_iff

theorem xor_eq_zero (a b : UInt8) : a ^^^ b = 0 ↔ a = b := by
  simp only [← UInt8.toBitVec_inj, UInt8.toBitVec_xor, UInt8.toBitVec_ofNat]
  exact BitVec.xor_eq_zero_iff

/-- The accumulator ends at zero exactly when it started there and every pair agrees: a difference
that has been ORed in is never cancelled by a later byte. -/
theorem ctDiff_eq_zero (diff : UInt8) (ps : List (UInt8 × UInt8)) :
    ctDiff diff ps = 0 ↔ diff = 0 ∧ ∀ p ∈ ps, p.1 = p.2 := by
  induction ps generalizing diff with
  | nil => simp [ctDiff]
  | cons p ps ih =>
    obtain ⟨x, y⟩ := p
    rw [ctDiff, ih, or_eq_zero, xor_eq_zero]
    simp [and_assoc]

theorem zip_agree_iff {a b : List UInt8} (hlen : a.length = b.length) :
    (∀ p ∈ a.zip b, p.1 = p.2) ↔ a = b := by
  induction a generalizing b with
  | nil => simp [(List.length_eq_zero_iff.mp hlen.symm)]
  | cons x a ih =>
    cases b with
    | nil => simp at hlen
    | cons y b =>
      have hrest := ih (b := b) (by simpa using hlen)
      rw [List.zip_cons_cons, List.forall_mem_cons, hrest, List.cons.injEq]

theorem ctEq_iff (a b : List UInt8) : ctEq a b = true ↔ a = b := by
  unfold ctEq
  split
  · rename_i hlen
    simp only [Bool.false_eq_true, false_iff]
    rintro rfl
    exact hlen rfl
  · rename_i hlen
    rw [beq_iff_eq, ctDiff_eq_zero, zip_agree_iff (not_not.mp hlen)]
    simp

/-- **`ct_eq` decides equality**, of strings of bytes of any lengths. -/
theorem ctEq_eq_decide (a b : List UInt8) : ctEq a b = decide (a = b) := by
  rw [Bool.eq_iff_iff, ctEq_iff, decide_eq_true_iff]

/-- A difference in the last bit of the last byte is seen, and a second one does not cancel it. -/
example : ctEq [0x61, 0x62] [0x61, 0x63] = false ∧ ctEq [0x61, 0x62] [0x60, 0x63] = false := by
  decide

theorem asBytes_inj {s t : String} : asBytes s = asBytes t ↔ s = t := by
  unfold asBytes
  rw [Array.toList_inj, ByteArray.ext_iff.symm, String.toByteArray_inj]

theorem toByteArray_asBytes (host : String) : (asBytes host).toByteArray = host.toByteArray := by
  apply ByteArray.ext
  apply Array.toList_inj.mp
  exact List.toList_data_toByteArray

theorem fromUTF8?_eq_some (l : List UInt8) (host : String) :
    String.fromUTF8? l.toByteArray = some host ↔ asBytes host = l := by
  have hbytes : l.toByteArray.data.toList = l := List.toList_data_toByteArray
  constructor
  · intro h
    unfold String.fromUTF8? at h
    split at h
    · rw [← Option.some.inj h]
      exact hbytes
    · cases h
  · rintro rfl
    have hvalid : (asBytes host).toByteArray.IsValidUTF8 := by
      rw [toByteArray_asBytes]
      exact host.isValidUTF8
    unfold String.fromUTF8?
    rw [dif_pos hvalid, Option.some.injEq, ← String.toByteArray_inj]
    exact toByteArray_asBytes host

theorem ctEq_asBytes (s t : String) : ctEq (asBytes s) (asBytes t) = true ↔ s = t := by
  rw [ctEq_iff, asBytes_inj]

@[simp] theorem FdGuard.drop_disarm (g : FdGuard) : g.disarm.drop = [] := rfl

/-- A guard armed on a descriptor closes that descriptor, once. -/
theorem FdGuard.drop_new {fd : Int} (h : 0 ≤ fd) : (FdGuard.new fd).drop = [fd] := by
  simp [FdGuard.new, FdGuard.drop, Int.not_lt.mpr h]

end FfVpn.Model.Util
