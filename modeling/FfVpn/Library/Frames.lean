import Mathlib.Data.List.Basic

/-!
# Frames ended by a separator

A stream of frames, each ended by a separator that stands in none of them. Splitting the stream at
the separators gives the frames back (`frames_terminated`), and splitting what has come of it so far
gives the first of them (`frames_prefix`): nothing that comes later changes a frame that has ended.
-/

set_option autoImplicit false

namespace FfVpn.Library.Frames

variable {α : Type} [BEq α] [LawfulBEq α] {sep : α}

/-- Each frame and then the separator. -/
def terminated (sep : α) (fs : List (List α)) : List α := fs.flatMap (· ++ [sep])

/-- What comes before each separator. What follows the last one is no frame yet. -/
def frames (sep : α) (stream : List α) : List (List α) := (stream.splitOn sep).dropLast

theorem frames_of_not_mem {stream : List α} (h : sep ∉ stream) : frames sep stream = [] := by
  rw [frames, List.splitOn_eq_singleton h, List.dropLast_singleton]

/-- The first frame, and those of the rest of the stream. -/
theorem frames_cons {f : List α} (hf : sep ∉ f) (stream : List α) :
    frames sep (f ++ sep :: stream) = f :: frames sep stream := by
  rw [frames, List.splitOn_append_cons_self_of_not_mem hf,
    List.dropLast_cons_of_ne_nil (List.splitOn_ne_nil sep stream), frames]

/-- **Framing.** The frames come back, in their order. -/
theorem frames_terminated {fs : List (List α)} (h : ∀ f ∈ fs, sep ∉ f) :
    frames sep (terminated sep fs) = fs := by
  induction fs with
  | nil => exact frames_of_not_mem (by simp [terminated])
  | cons f fs ih =>
    obtain ⟨hf, hfs⟩ := List.forall_mem_cons.mp h
    have hstream : terminated sep (f :: fs) = f ++ sep :: terminated sep fs := by
      simp [terminated]
    rw [hstream, frames_cons hf, ih hfs]

/-- The frames of the start of a stream are the first frames of the stream. -/
theorem frames_prefix (xs ys : List α) : frames sep xs <+: frames sep (xs ++ ys) := by
  by_cases h : sep ∈ xs
  · obtain ⟨f, rest, hxs, hf⟩ := List.eq_append_cons_of_mem h
    have hshorter : rest.length < xs.length := by
      rw [hxs, List.length_append, List.length_cons]
      omega
    have hrest := frames_prefix rest ys
    rw [hxs, List.append_assoc, List.cons_append, frames_cons hf, frames_cons hf,
      List.prefix_cons_inj]
    exact hrest
  · rw [frames_of_not_mem h]
    exact List.nil_prefix
termination_by xs.length

end FfVpn.Library.Frames
