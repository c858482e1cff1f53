import Mathlib.Data.List.Basic
import Mathlib.Tactic.SplitIfs

/-!
# Input streams that stay failed

A stream has a content, a position in it and two flags. A read takes as many elements as it
is asked for, or those that are left. A read that takes fewer sets both flags, and a stream
with a flag set takes nothing more. Moving the position clears the flag for the end of the
content, but not the other one, and has no effect while that one is set.

A stream in good state is read block by block to the end: the blocks are not empty, and
together they are what was left. It does not matter whether the end lies inside of a block or
behind it.
-/

namespace InputStream

universe u

/-- The state of a stream. -/
structure Stream (α : Type u) where
  content : List α
  position : Nat := 0
  eofbit : Bool := false
  failbit : Bool := false
deriving DecidableEq

namespace Stream

variable {α : Type u}

/-- No flag is set. -/
def good (stream : Stream α) : Bool := !stream.eofbit && !stream.failbit

/-- What is left of the content. -/
def rest (stream : Stream α) : List α := stream.content.drop stream.position

/-- Take at most `count` elements. -/
def read (stream : Stream α) (count : Nat) : List α × Stream α :=
  if stream.good then
    let taken := stream.rest.take count
    let stream := { stream with position := stream.position + taken.length }
    if taken.length < count then (taken, { stream with eofbit := true, failbit := true })
    else (taken, stream)
  else ([], { stream with failbit := true })

/-- Move the position. -/
def seekg (stream : Stream α) (position : Nat) : Stream α :=
  if stream.failbit then { stream with eofbit := false }
  else { stream with eofbit := false, position := position }

/-- The position, or -1 on a stream that has failed. -/
def tellg (stream : Stream α) : Int × Stream α :=
  if stream.good then (stream.position, stream) else (-1, { stream with failbit := true })

/-- Nothing can be read: a flag is set, or nothing is left. -/
def Ended (stream : Stream α) : Prop := stream.good = false ∨ stream.rest = []

/-- Reads of `count` elements each take these blocks, one after the other, and then nothing. -/
def Delivers (count : Nat) : List (List α) → Stream α → Prop
  | [], stream => Ended stream
  | block :: blocks, stream =>
      (stream.read count).1 = block ∧ Delivers count blocks (stream.read count).2

/-- A read that can be satisfied leaves the stream in good state. -/
theorem read_full (stream : Stream α) (count : Nat) (isGood : stream.good = true)
    (enough : count ≤ stream.rest.length) :
    stream.read count =
      (stream.rest.take count, { stream with position := stream.position + count }) := by
  have whole : (stream.rest.take count).length = count := List.length_take_of_le enough
  rw [read, if_pos isGood]
  simp only [whole, Nat.lt_irrefl, if_false]

/-- A read that comes to the end takes what is left, and fails the stream. -/
theorem read_short (stream : Stream α) (count : Nat) (isGood : stream.good = true)
    (short : stream.rest.length < count) :
    (stream.read count).1 = stream.rest ∧ (stream.read count).2.failbit = true := by
  have whole : stream.rest.take count = stream.rest := List.take_of_length_le (Nat.le_of_lt short)
  rw [read, if_pos isGood]
  simp only [whole, if_pos short, and_self]

/-- A failed stream is not good. -/
theorem failed_ended (stream : Stream α) (failed : stream.failbit = true) : Ended stream := by
  apply Or.inl
  rw [good, failed]
  exact Bool.and_false _

/-- Moving the position does not help a failed stream. -/
theorem seekg_failed (stream : Stream α) (position : Nat) (failed : stream.failbit = true) :
    (stream.seekg position).failbit = true := by
  rw [seekg, if_pos failed]
  exact failed

/-- Asking for the position does not help it either. -/
theorem tellg_failed (stream : Stream α) (failed : stream.failbit = true) :
    stream.tellg.2.failbit = true := by
  rw [tellg]
  split_ifs
  · exact failed
  · rfl

/-- Where nothing can be read, nothing is, and this stays so. -/
theorem Ended.read {stream : Stream α} (ended : Ended stream) (count : Nat) :
    (stream.read count).1 = [] ∧ Ended (stream.read count).2 := by
  cases isGood : stream.good with
  | false =>
    rw [Stream.read, if_neg (by simp [isGood])]
    exact ⟨rfl, failed_ended _ rfl⟩
  | true =>
    have empty : stream.rest = [] := ended.resolve_left (by simp [isGood])
    rw [Stream.read, if_pos isGood]
    simp only [empty, List.take_nil, List.length_nil]
    split_ifs
    · exact ⟨rfl, failed_ended _ rfl⟩
    · exact ⟨rfl, Or.inr empty⟩

/-- A stream in good state is read to the end, in blocks that are not empty. The induction is
on what is left, which becomes shorter by every block. -/
theorem delivers_rest (stream : Stream α) (count : Nat) (positive : 0 < count)
    (isGood : stream.good = true) :
    ∃ blocks, Delivers count blocks stream ∧
      (∀ block ∈ blocks, block ≠ [] ∧ block.length ≤ count) ∧ blocks.flatten = stream.rest := by
  induction length : stream.rest.length using Nat.strongRecOn generalizing stream with
  | _ size inductionHypothesis =>
    by_cases enough : count ≤ stream.rest.length
    · have taken := read_full stream count isGood enough
      have left : ({ stream with position := stream.position + count } : Stream α).rest =
          stream.rest.drop count := by
        rw [rest, rest, List.drop_drop]
      have nonempty : stream.rest.take count ≠ [] := by
        apply List.ne_nil_of_length_pos
        rw [List.length_take_of_le enough]
        exact positive
      obtain ⟨blocks, delivers, sized, whole⟩ := inductionHypothesis (size - count) (by omega)
        { stream with position := stream.position + count } isGood
        (by rw [left, List.length_drop, length])
      refine ⟨stream.rest.take count :: blocks, ?_, ?_, ?_⟩
      · rw [Delivers, taken]
        exact ⟨rfl, delivers⟩
      · exact List.forall_mem_cons.mpr ⟨⟨nonempty, List.length_take_le _ _⟩, sized⟩
      · rw [List.flatten_cons, whole, left, List.take_append_drop]
    · obtain ⟨taken, failed⟩ := read_short stream count isGood (Nat.lt_of_not_le enough)
      by_cases empty : stream.rest = []
      · exact ⟨[], Or.inr empty, List.forall_mem_nil _, empty.symm⟩
      · refine ⟨[stream.rest], ⟨taken, failed_ended _ failed⟩, ?_, by simp⟩
        exact List.forall_mem_singleton.mpr ⟨empty, Nat.le_of_lt (Nat.lt_of_not_le enough)⟩

end Stream

end InputStream
