import Mathlib.Data.List.Rotate

/-!
# Cyclic windows of a fixed block

A window is the run of consecutive cells that starts at one index of a block and
continues past the end at the beginning. Reading it takes one contiguous piece,
or two when it wraps. Overwriting the cells that follow a window lengthens it.

The element type is arbitrary and nothing here fixes a machine width: indices are
natural numbers, and a caller supplies the bounds that its own arithmetic keeps.
-/

namespace AsrClient.CyclicWindow

universe u
variable {α : Type u}

/-- The `count` cells from `start`, continuing at index zero past the end. -/
def window (block : List α) (start count : Nat) : List α := (block.rotate start).take count

/-- Overwrite consecutive cells from `start`; the block keeps its length when the
replacement fits behind `start`. -/
def overwrite (block : List α) (start : Nat) (cells : List α) : List α :=
  block.take start ++ cells ++ block.drop (start + cells.length)

/-- A window of at most the whole block has exactly the requested length. -/
theorem window_length (block : List α) (start count : Nat) (fits : count ≤ block.length) :
    (window block start count).length = count := by
  simp only [window, List.length_take, List.length_rotate]
  omega

/-- A window is the piece up to the end of the block, followed by the piece that
wraps to the beginning. Either piece may be empty. -/
theorem window_pieces (block : List α) (start count : Nat) (inside : start ≤ block.length) :
    window block start count =
      (block.drop start).take count ++ (block.take start).take (count - (block.length - start)) := by
  rw [window, List.rotate_eq_drop_append_take inside, List.take_append, List.length_drop]

/-- Without wrapping, one contiguous piece is the entire window. -/
theorem window_contiguous (block : List α) (start count : Nat)
    (fits : start + count ≤ block.length) :
    window block start count = (block.drop start).take count := by
  rw [window_pieces block start count (by omega)]
  have emptyTail : count - (block.length - start) = 0 := by omega
  simp [emptyTail]

/-- A wrapping window is everything from `start`, then the remaining cells from
the beginning. -/
theorem window_wraps (block : List α) (start count : Nat) (inside : start ≤ block.length)
    (wraps : block.length - start ≤ count) (fits : count ≤ block.length) :
    window block start count =
      block.drop start ++ block.take (count - (block.length - start)) := by
  rw [window_pieces block start count inside]
  have whole : (block.drop start).take count = block.drop start := by
    apply List.take_of_length_le
    simpa only [List.length_drop] using wraps
  have shorter : min (count - (block.length - start)) start = count - (block.length - start) := by
    omega
  rw [whole, List.take_take, shorter]

/-- Dropping from a window moves its start forward by the same amount. -/
theorem window_drop (block : List α) (start count taken : Nat)
    (available : taken ≤ count) (fits : count ≤ block.length) :
    (window block start count).drop taken =
      window block ((start + taken) % block.length) (count - taken) := by
  have moved : (block.rotate start).rotate taken = block.rotate (start + taken) :=
    List.rotate_rotate block start taken
  have turned : taken ≤ (block.rotate start).length := by
    rw [List.length_rotate]
    omega
  have remaining : count - taken ≤ ((block.rotate start).drop taken).length := by
    rw [List.length_drop, List.length_rotate]
    omega
  rw [window, window, List.rotate_mod, List.drop_take, ← moved,
    List.rotate_eq_drop_append_take turned, List.take_append_of_le_length remaining]

/-- Overwriting within the block retains its length. -/
theorem overwrite_length (block : List α) (start : Nat) (cells : List α)
    (fits : start + cells.length ≤ block.length) :
    (overwrite block start cells).length = block.length := by
  simp only [overwrite, List.length_append, List.length_take, List.length_drop]
  omega

/-- The content of every cell after an overwrite: the new value inside the written
range and the former one elsewhere. -/
theorem overwrite_getElem? (block : List α) (start : Nat) (cells : List α) (index : Nat)
    (fits : start + cells.length ≤ block.length) :
    (overwrite block start cells)[index]? =
      if start ≤ index ∧ index < start + cells.length then cells[index - start]?
      else block[index]? := by
  have prefixLength : (block.take start).length = start := by
    rw [List.length_take]
    omega
  simp only [overwrite, List.append_assoc, List.getElem?_append, prefixLength, List.getElem?_take,
    List.getElem?_drop]
  split_ifs with before inside inside' written <;> try omega
  · rfl
  · rfl
  · congr 1
    omega

/-- The cell of a window at a position, read from the block it runs over. -/
theorem window_getElem? (block : List α) (start count index : Nat)
    (selected : index < count) (fits : count ≤ block.length) :
    (window block start count)[index]? = block[(index + start) % block.length]? := by
  rw [window, List.getElem?_take, if_pos selected, List.getElem?_rotate (by omega)]

/-- Positions of a block seen from `start`, without the modulus. -/
theorem wrapped_index (length start offset : Nat) (inside : start < length)
    (bounded : offset < length) :
    (offset + start) % length =
      if offset + start < length then offset + start else offset + start - length := by
  split_ifs with contiguous
  · exact Nat.mod_eq_of_lt contiguous
  · rw [Nat.mod_eq_sub_mod (by omega), Nat.mod_eq_of_lt (by omega)]

/-- Two blocks agreeing on the cells of a window have the same window. -/
theorem window_congr (block updated : List α) (start count : Nat)
    (fits : count ≤ block.length) (length : updated.length = block.length)
    (agree : ∀ offset < count,
      updated[(offset + start) % block.length]? = block[(offset + start) % block.length]?) :
    window updated start count = window block start count := by
  apply List.ext_getElem?
  intro index
  by_cases selected : index < count
  · rw [window_getElem? _ _ _ _ selected (by omega), window_getElem? _ _ _ _ selected fits, length,
      agree index selected]
  · have outside (cells : List α) (sameLength : cells.length = block.length) :
        (window cells start count)[index]? = none := by
      apply List.getElem?_eq_none
      rw [window_length cells start count (by omega)]
      omega
    rw [outside updated length, outside block rfl]

/-- A longer window is the shorter one followed by the cells after it. -/
theorem window_add (block : List α) (start count more : Nat)
    (fits : count + more ≤ block.length) :
    window block start (count + more) =
      window block start count ++ window block ((start + count) % block.length) more := by
  have split := List.take_append_drop count (window block start (count + more))
  rw [window_drop block start (count + more) count (by omega) fits] at split
  have head : (window block start (count + more)).take count = window block start count := by
    rw [window, window, List.take_take]
    congr 1
    omega
  rw [head, Nat.add_sub_cancel_left] at split
  exact split.symm

/-- Storing behind a window, without wrapping, lengthens it by the stored cells
and changes nothing that it already held. -/
theorem append_contiguous (block : List α) (start count : Nat) (cells : List α)
    (inside : start < block.length) (room : count + cells.length ≤ block.length)
    (fits : (start + count) % block.length + cells.length ≤ block.length) :
    window (overwrite block ((start + count) % block.length) cells) start (count + cells.length) =
      window block start count ++ cells := by
  have length := overwrite_length block _ cells fits
  rw [window_add _ _ _ _ (by omega), length]
  congr 1
  · apply window_congr block _ start count (by omega) length
    intro offset selected
    rw [overwrite_getElem? block _ cells _ fits, if_neg]
    rw [wrapped_index block.length start offset inside (by omega)]
    by_cases full : count = block.length
    · have none : cells.length = 0 := by omega
      omega
    · rw [Nat.add_comm start count, wrapped_index block.length start count inside (by omega)] at fits ⊢
      split_ifs at fits ⊢ <;> omega
  · rw [window_contiguous _ _ _ (by omega), overwrite, List.append_assoc, List.drop_append]
    have before : (block.take ((start + count) % block.length)).length =
        (start + count) % block.length := by
      rw [List.length_take]
      omega
    simp [before]

end AsrClient.CyclicWindow
