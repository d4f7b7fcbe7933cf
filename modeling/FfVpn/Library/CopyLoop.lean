import FfVpn.Library.Transition

/-!
# A copy loop between two streams

A loop that reads from a source into a buffer of `size` elements and writes from there to a sink,
until the source ends: then it writes what is left, flushes and finishes. The source and the sink
act on their own: elements arrive, the source ends, the sink takes elements or holds them up, a read
or a write fails, and whoever runs the loop may abandon it.

- `Inv.sent`: what the source has sent is in the sink, in the buffer or still to be read, in order;
- `own_decreases`: the loop's own steps come to an end;
- `Quiet.over_iff`: a loop that has none left to take is over if and only if it was abandoned, a
  read or a write has failed, or the source has ended and everything of it is copied.
-/

set_option autoImplicit false

namespace FfVpn.Library.CopyLoop

open FfVpn.Library.Transition

variable {α : Type}

/-- Where the loop is. -/
inductive Phase
  | running
  | finished
  | failed
  | abandoned
  deriving DecidableEq, Repr

/-- A copy loop, its source and its sink. -/
structure Loop (α : Type) where
  /-- Everything the source has sent. -/
  sent : List α := []
  /-- Of that, what has not been read. -/
  source : List α := []
  ended : Bool := false
  buffer : List α := []
  /-- The elements read into the buffer since it was last empty. -/
  filled : Nat := 0
  readDone : Bool := false
  sink : List α := []
  unflushed : Bool := false
  /-- The sink takes nothing at the moment. -/
  blocked : Bool := false
  phase : Phase := .running

/-- What can happen. -/
inductive LoopAct (α : Type)
  /-- The surroundings. -/
  | arrive (xs : List α)
  | close
  | block (b : Bool)
  | fail
  | abandon
  /-- The loop: it reads `n` elements, sees the end, writes `n` elements, flushes, and finishes. -/
  | read (n : Nat)
  | eof
  | write (n : Nat)
  | flush
  | finish

/-- The step is one of the loop. -/
def LoopAct.own : LoopAct α → Bool
  | .read _ | .eof | .write _ | .flush | .finish => true
  | _ => false

/-- One step. A flush of a sink that holds nothing back is never held up. -/
def Loop.step (size : Nat) (c : Loop α) : LoopAct α → Option (Loop α)
  | .arrive xs =>
    if c.ended = false then some { c with sent := c.sent ++ xs, source := c.source ++ xs }
    else none
  | .close => some { c with ended := true }
  | .block b => some { c with blocked := b }
  | .fail => if c.phase = .running then some { c with phase := .failed } else none
  | .abandon => if c.phase = .running then some { c with phase := .abandoned } else none
  | .read n =>
    if c.phase = .running ∧ c.readDone = false ∧ 0 < n ∧ n ≤ c.source.length ∧
        c.filled + n ≤ size then
      some { c with
        source := c.source.drop n
        buffer := c.buffer ++ c.source.take n
        filled := c.filled + n }
    else none
  | .eof =>
    if c.phase = .running ∧ c.readDone = false ∧ c.filled < size ∧ c.source = [] ∧
        c.ended = true then
      some { c with readDone := true }
    else none
  | .write n =>
    if c.phase = .running ∧ 0 < n ∧ n ≤ c.buffer.length ∧ c.blocked = false then
      some { c with
        sink := c.sink ++ c.buffer.take n
        buffer := c.buffer.drop n
        filled := if n = c.buffer.length then 0 else c.filled
        unflushed := true }
    else none
  | .flush =>
    if c.phase = .running ∧ c.buffer = [] ∧ c.unflushed = true ∧ c.blocked = false then
      some { c with unflushed := false }
    else none
  | .finish =>
    if c.phase = .running ∧ c.readDone = true ∧ c.buffer = [] ∧ c.unflushed = false then
      some { c with phase := .finished }
    else none

/-- All that the source has sent is in the sink, and flushed. -/
structure Copied (c : Loop α) : Prop where
  sink : c.sink = c.sent
  flushed : c.unflushed = false

/-- The loop has no step left to take. -/
def Quiet (size : Nat) (c : Loop α) : Prop := ∀ a : LoopAct α, a.own = true → c.step size a = none

/-- The invariant. -/
structure Inv (size : Nat) (c : Loop α) : Prop where
  sent : c.sent = c.sink ++ c.buffer ++ c.source
  filled : c.filled ≤ size
  emptied : c.buffer = [] → c.filled = 0
  eof : c.readDone = true → c.ended = true ∧ c.source = []
  finished : c.phase = .finished → c.ended = true ∧ Copied c

variable {size : Nat} {c c' : Loop α}

/-- A source that has ended sends no more, and a copied one stays so. -/
theorem Inv.surroundings (h : Inv size c) {a : LoopAct α} (ha : a.own = false)
    (hs : c.step size a = some c') : Inv size c' := by
  cases a with
  | read | eof | write | flush | finish => cases ha
  | arrive xs =>
    simp only [Loop.step, Option.ite_none_right_eq_some, Option.some.injEq] at hs
    obtain ⟨hopen, rfl⟩ := hs
    refine ⟨by simp [h.sent], h.filled, h.emptied, fun hr => ?_, fun hf => ?_⟩
    · simp [(h.eof hr).1] at hopen
    · simp [(h.finished hf).1] at hopen
  | close =>
    obtain rfl := Option.some.inj hs
    exact ⟨h.sent, h.filled, h.emptied, fun hr => ⟨rfl, (h.eof hr).2⟩,
      fun hf => ⟨rfl, (h.finished hf).2.sink, (h.finished hf).2.flushed⟩⟩
  | block b =>
    obtain rfl := Option.some.inj hs
    exact ⟨h.sent, h.filled, h.emptied, h.eof,
      fun hf => ⟨(h.finished hf).1, (h.finished hf).2.sink, (h.finished hf).2.flushed⟩⟩
  | fail | abandon =>
    simp only [Loop.step, Option.ite_none_right_eq_some, Option.some.injEq] at hs
    obtain ⟨-, rfl⟩ := hs
    exact ⟨h.sent, h.filled, h.emptied, h.eof, by simp⟩

theorem Inv.own (h : Inv size c) {a : LoopAct α} (ha : a.own = true)
    (hs : c.step size a = some c') : Inv size c' := by
  cases a with
  | arrive | close | block | fail | abandon => cases ha
  | read n =>
    simp only [Loop.step, Option.ite_none_right_eq_some, Option.some.injEq] at hs
    obtain ⟨⟨hrun, hmore, hn, hlen, hroom⟩, rfl⟩ := hs
    refine ⟨by simp [h.sent], hroom, fun hempty => ?_, by simp [hmore], by simp [hrun]⟩
    have htake : c.source.take n = [] := (List.append_eq_nil_iff.mp hempty).2
    rw [List.take_eq_nil_iff] at htake
    rcases htake with rfl | hnil
    · exact absurd hn (lt_irrefl 0)
    · simp [hnil] at hlen
      omega
  | eof =>
    simp only [Loop.step, Option.ite_none_right_eq_some, Option.some.injEq] at hs
    obtain ⟨⟨hrun, -, -, hsource, hended⟩, rfl⟩ := hs
    exact ⟨h.sent, h.filled, h.emptied, fun _ => ⟨hended, hsource⟩, by simp [hrun]⟩
  | write n =>
    simp only [Loop.step, Option.ite_none_right_eq_some, Option.some.injEq] at hs
    obtain ⟨⟨hrun, -, hlen, -⟩, rfl⟩ := hs
    refine ⟨by simp [h.sent], ?_, fun hempty => ?_, h.eof, by simp [hrun]⟩
    · dsimp only
      split
      · exact Nat.zero_le size
      · exact h.filled
    · have hall : n = c.buffer.length := by
        rw [List.drop_eq_nil_iff] at hempty
        exact le_antisymm hlen hempty
      simp [hall]
  | flush =>
    simp only [Loop.step, Option.ite_none_right_eq_some, Option.some.injEq] at hs
    obtain ⟨⟨hrun, -, -, -⟩, rfl⟩ := hs
    exact ⟨h.sent, h.filled, h.emptied, h.eof, by simp [hrun]⟩
  | finish =>
    simp only [Loop.step, Option.ite_none_right_eq_some, Option.some.injEq] at hs
    obtain ⟨⟨-, hread, hbuffer, hflushed⟩, rfl⟩ := hs
    obtain ⟨hended, hsource⟩ := h.eof hread
    have hsent : c.sent = c.sink := by simpa [hbuffer, hsource] using h.sent
    exact ⟨h.sent, h.filled, h.emptied, h.eof, fun _ => ⟨hended, hsent.symm, hflushed⟩⟩

theorem Inv.step (h : Inv size c) {a : LoopAct α} (hs : c.step size a = some c') : Inv size c' := by
  cases ha : a.own with
  | true => exact h.own ha hs
  | false => exact h.surroundings ha hs

theorem Inv.start : Inv size ({} : Loop α) := by
  refine ⟨rfl, Nat.zero_le size, fun _ => rfl, ?_, ?_⟩ <;> simp

/-- Everything is in the sink when nothing is left on the way to it. -/
theorem Inv.copied_iff (h : Inv size c) :
    Copied c ↔ c.buffer = [] ∧ c.source = [] ∧ c.unflushed = false := by
  constructor
  · rintro ⟨hsink, hflushed⟩
    have hlen := congrArg List.length h.sent
    rw [← hsink] at hlen
    simp only [List.length_append] at hlen
    exact ⟨List.eq_nil_of_length_eq_zero (by omega), List.eq_nil_of_length_eq_zero (by omega),
      hflushed⟩
  · rintro ⟨hbuffer, hsource, hflushed⟩
    exact ⟨by simp [h.sent, hbuffer, hsource], hflushed⟩

/-- What the loop has left to do. -/
def Loop.remaining (c : Loop α) : Nat :=
  3 * c.source.length + 2 * c.buffer.length + c.unflushed.toNat + (!c.readDone).toNat +
    if c.phase = .running then 1 else 0

/-- **The loop's own steps come to an end.** -/
theorem own_decreases {a : LoopAct α} (ha : a.own = true) (hs : c.step size a = some c') :
    c'.remaining < c.remaining := by
  cases a with
  | arrive | close | block | fail | abandon => cases ha
  | read n =>
    simp only [Loop.step, Option.ite_none_right_eq_some, Option.some.injEq] at hs
    obtain ⟨⟨-, -, hn, hlen, -⟩, rfl⟩ := hs
    simp only [Loop.remaining, List.length_drop, List.length_append, List.length_take]
    omega
  | eof =>
    simp only [Loop.step, Option.ite_none_right_eq_some, Option.some.injEq] at hs
    obtain ⟨⟨-, hmore, -⟩, rfl⟩ := hs
    simp only [Loop.remaining, hmore, Bool.not_true, Bool.not_false, Bool.toNat_true,
      Bool.toNat_false]
    omega
  | write n =>
    simp only [Loop.step, Option.ite_none_right_eq_some, Option.some.injEq] at hs
    obtain ⟨⟨-, hn, hlen, -⟩, rfl⟩ := hs
    simp only [Loop.remaining, List.length_drop, Bool.toNat_true]
    omega
  | flush =>
    simp only [Loop.step, Option.ite_none_right_eq_some, Option.some.injEq] at hs
    obtain ⟨⟨-, -, hunflushed, -⟩, rfl⟩ := hs
    simp only [Loop.remaining, hunflushed, Bool.toNat_true, Bool.toNat_false]
    omega
  | finish =>
    simp only [Loop.step, Option.ite_none_right_eq_some, Option.some.injEq] at hs
    obtain ⟨⟨hrun, -⟩, rfl⟩ := hs
    simp [Loop.remaining, hrun]

/-- **A loop at rest**: a source that has ended and is copied leaves it only its end. -/
theorem Quiet.not_running (h : Quiet size c) (hinv : Inv size c) (hsize : 0 < size)
    (hended : c.ended = true) (hcopied : Copied c) : c.phase ≠ .running := by
  intro hrun
  obtain ⟨hbuffer, hsource, hflushed⟩ := hinv.copied_iff.mp hcopied
  have hfilled : c.filled < size := by rw [hinv.emptied hbuffer]; exact hsize
  cases hread : c.readDone with
  | false =>
    have heof := h .eof rfl
    simp [Loop.step, hrun, hread, hfilled, hsource, hended] at heof
  | true =>
    have hfinish := h .finish rfl
    simp [Loop.step, hrun, hread, hbuffer, hflushed] at hfinish

/-- **When a loop at rest is over**: it was abandoned, a read or a write has failed, or its source
has ended and is copied. -/
theorem Quiet.over_iff (h : Quiet size c) (hinv : Inv size c) (hsize : 0 < size) :
    c.phase ≠ .running ↔
      c.phase = .abandoned ∨ c.phase = .failed ∨ (c.ended = true ∧ Copied c) := by
  constructor
  · intro hover
    cases hphase : c.phase with
    | running => exact absurd hphase hover
    | finished => exact .inr (.inr (hinv.finished hphase))
    | failed => exact .inr (.inl rfl)
    | abandoned => exact .inl rfl
  · rintro (habandoned | hfailed | ⟨hended, hcopied⟩)
    · simp [habandoned]
    · simp [hfailed]
    · exact h.not_running hinv hsize hended hcopied

/-- **A loop at rest has copied what there was**, if nothing holds it up. -/
theorem Quiet.copied (h : Quiet size c) (hinv : Inv size c) (hsize : 0 < size)
    (hblocked : c.blocked = false) (hphase : c.phase = .running ∨ c.phase = .finished) :
    Copied c := by
  rcases hphase with hrun | hfinished
  · have hbuffer : c.buffer = [] := by
      by_contra hne
      have hpos := List.length_pos_iff.mpr hne
      have hwrite := h (.write c.buffer.length) rfl
      simp [Loop.step, hrun, hblocked, hpos] at hwrite
    have hflushed : c.unflushed = false := by
      have hflush := h .flush rfl
      simpa [Loop.step, hrun, hblocked, hbuffer] using hflush
    refine hinv.copied_iff.mpr ⟨hbuffer, ?_, hflushed⟩
    cases hread : c.readDone with
    | true => exact (hinv.eof hread).2
    | false =>
      by_contra hne
      have hpos := List.length_pos_iff.mpr hne
      have hfilled := hinv.emptied hbuffer
      have hone := h (.read 1) rfl
      simp [Loop.step, hrun, hread, hfilled] at hone
      omega
  · exact (hinv.finished hfinished).2

end FfVpn.Library.CopyLoop
