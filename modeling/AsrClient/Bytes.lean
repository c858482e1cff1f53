import Mathlib.Data.List.Basic

/-!
# Bytes and memory blocks

A `char` is one of 256 byte values, and a `std::string` or a `std::vector<char>`
is a list of them: any byte may occur, including NUL and values above 127. A block
of memory is a list as well. Copying from or to a block is partial: a copy that
would leave the block has no value here, because the program has none there.
-/

namespace AsrClient

/-- A value of type `char`, without a sign. -/
abbrev Byte := UInt8

/-- The content of a `std::string` or of a `std::vector<char>`. -/
abbrev Bytes := List Byte

/-- The bytes of a string literal of the source, all of them ASCII. -/
def bytes (literal : String) : Bytes := literal.toList.map (fun c => UInt8.ofNat c.toNat)

/-- Read `count` cells of a block from `start`; none when the range leaves it. -/
def load (block : Bytes) (start count : Nat) : Option Bytes :=
  if start + count ≤ block.length then some ((block.drop start).take count) else none

/-- Copy bytes over a block from `start`; none when they do not fit behind it. -/
def store (block : Bytes) (start : Nat) (source : Bytes) : Option Bytes :=
  if start + source.length ≤ block.length then
    some (block.take start ++ source ++ block.drop (start + source.length))
  else none

/-- The unsigned `%` operator; a zero divisor has no result. -/
def remainder (value divisor : UInt32) : Option UInt32 :=
  if divisor = 0 then none else some (value % divisor)

/-- A range inside the block is read exactly. -/
theorem load_inside (block : Bytes) (start count : Nat) (inside : start + count ≤ block.length) :
    load block start count = some ((block.drop start).take count) := if_pos inside

/-- A source that fits behind `start` is copied exactly. -/
theorem store_inside (block : Bytes) (start : Nat) (source : Bytes)
    (inside : start + source.length ≤ block.length) :
    store block start source =
      some (block.take start ++ source ++ block.drop (start + source.length)) := if_pos inside

/-- A positive divisor gives the mathematical remainder. -/
theorem remainder_positive (value divisor : UInt32) (positive : 0 < divisor.toNat) :
    remainder value divisor = some (value % divisor) := by
  apply if_neg
  rintro rfl
  exact absurd positive (by decide)

end AsrClient
