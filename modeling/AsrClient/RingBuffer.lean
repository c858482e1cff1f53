import Mathlib.Algebra.Group.Int.Defs
import Mathlib.Algebra.Group.Nat.Defs
import AsrClient.Bytes
import AsrClient.Library.CyclicWindow

/-!
# The ring buffer and the queue it holds

The buffer owns one block, a read index and a write index, all three sized by a
32-bit unsigned number. Equal indices mean empty, so one cell is always reserved
and the capacity is one byte less than the size. Every operation below computes
on 32-bit unsigned values as the source does, and copies in one or two pieces.

`Represents` relates a buffer to the queue of bytes it holds. It is a statement
about the sizes from 1 to 2^31, where none of the index sums wraps around. The
constructor itself accepts every size, and an operation on another size may have
no result.
-/

namespace AsrClient

open CyclicWindow

/-- The fields of the class, its heap block included. -/
structure RingBuffer where
  data : Bytes
  size : UInt32
  readPtr : UInt32
  writePtr : UInt32
deriving DecidableEq

namespace RingBuffer

/-- The constructor: a zeroed block of the requested size, both indices at zero. -/
def create (sizeBytes : UInt32) : RingBuffer :=
  ⟨List.replicate sizeBytes.toNat 0, sizeBytes, 0, 0⟩

/-- Set every byte to zero and flag the buffer as empty. -/
def empty (ring : RingBuffer) : RingBuffer :=
  ⟨List.replicate ring.size.toNat 0, ring.size, 0, 0⟩

/-- Free bytes, with one cell reserved to tell full from empty. -/
def getWriteAvail (ring : RingBuffer) : UInt32 :=
  if ring.writePtr = ring.readPtr then ring.size - 1
  else if ring.writePtr > ring.readPtr then ring.size - 1 - (ring.writePtr - ring.readPtr)
  else ring.readPtr - ring.writePtr - 1

/-- Stored bytes. -/
def getReadAvail (ring : RingBuffer) : UInt32 :=
  if ring.writePtr = ring.readPtr then 0
  else if ring.writePtr > ring.readPtr then ring.writePtr - ring.readPtr
  else ring.size - (ring.readPtr - ring.writePtr)

/-- The bytes `ReadAll` copies out, in one or two pieces. -/
def copyOut (ring : RingBuffer) (count : UInt32) : Option Bytes :=
  if count > ring.size - ring.readPtr then do
    let len := (ring.size - ring.readPtr).toNat
    let first ← load ring.data ring.readPtr.toNat len
    let rest ← load ring.data 0 (count.toNat - len)
    pure (first ++ rest)
  else load ring.data ring.readPtr.toNat count.toNat

/-- An `int` passed as a `size_t`. -/
def sizeOfInt (len : Int32) : Nat := (len.toInt % 2 ^ 64).toNat

/-- The bytes `Read` copies out. The length of its first piece is an `int`; a piece of
2^31 bytes or more would be a negative one. -/
def copyOutInt (ring : RingBuffer) (count : UInt32) : Option Bytes :=
  if count > ring.size - ring.readPtr then do
    let len := (ring.size - ring.readPtr).toInt32
    let first ← load ring.data ring.readPtr.toNat (sizeOfInt len)
    let rest ← load ring.data 0 (count - len.toUInt32).toNat
    pure (first ++ rest)
  else load ring.data ring.readPtr.toNat count.toNat

/-- The block after `Write` has copied `count` bytes of the source into it, in one
or two pieces. -/
def copyIn (ring : RingBuffer) (source : Bytes) (count : UInt32) : Option Bytes :=
  if count > ring.size - ring.writePtr then do
    let len := (ring.size - ring.writePtr).toNat
    let first ← load source 0 len
    let data ← store ring.data ring.writePtr.toNat first
    let rest ← load source len (count.toNat - len)
    store data 0 rest
  else do
    let first ← load source 0 count.toNat
    store ring.data ring.writePtr.toNat first

/-- Read at most `numBytes`, rounded down to an even number. A null destination is
`false`; the copied bytes are part of the result. -/
def read (ring : RingBuffer) (dataPtr : Bool) (numBytes : UInt32) :
    Option (UInt32 × Bytes × RingBuffer) :=
  let readBytesAvail := ring.getReadAvail
  if !dataPtr ∨ numBytes ≤ 0 ∨ readBytesAvail = 0 then some (0, [], ring)
  else do
    let capped := if numBytes < readBytesAvail then numBytes else readBytesAvail
    let numBytesToRead := if capped % 2 ≠ 0 then capped - 1 else capped
    let copied ← ring.copyOutInt numBytesToRead
    let readPtr ← remainder (ring.readPtr + numBytesToRead) ring.size
    pure (numBytesToRead, copied, { ring with readPtr })

/-- Move everything stored into `data`, which is left as it was when there is nothing. -/
def readAll (ring : RingBuffer) (data : Bytes) : Option (UInt32 × Bytes × RingBuffer) :=
  let readBytesAvail := ring.getReadAvail
  if readBytesAvail = 0 then some (0, data, ring)
  else do
    let copied ← ring.copyOut readBytesAvail
    let readPtr ← remainder (ring.readPtr + readBytesAvail) ring.size
    pure (readBytesAvail, copied, { ring with readPtr })

/-- Store at most `numBytes` bytes of the source, never over unread data, and
return how many were stored. A null source pointer is `none`. -/
def write (ring : RingBuffer) (dataPtr : Option Bytes) (numBytes : UInt32) :
    Option (UInt32 × RingBuffer) :=
  let writeBytesAvail := ring.getWriteAvail
  match dataPtr with
  | none => some (0, ring)
  | some source =>
    if numBytes ≤ 0 ∨ writeBytesAvail = 0 then some (0, ring)
    else do
      let numBytesToWrite := if numBytes < writeBytesAvail then numBytes else writeBytesAvail
      let data ← ring.copyIn source numBytesToWrite
      let writePtr ← remainder (ring.writePtr + numBytesToWrite) ring.size
      pure (numBytesToWrite, { ring with data, writePtr })

/-- The buffer is well formed and holds exactly this queue, oldest byte first. -/
structure Represents (ring : RingBuffer) (queue : Bytes) : Prop where
  block : ring.data.length = ring.size.toNat
  bounded : ring.size.toNat ≤ 2 ^ 31
  reader : ring.readPtr.toNat < ring.size.toNat
  stored : queue.length < ring.size.toNat
  writer : ring.writePtr.toNat = (ring.readPtr.toNat + queue.length) % ring.size.toNat
  content : window ring.data ring.readPtr.toNat queue.length = queue

/-- A new buffer of an admitted size holds the empty queue. -/
theorem create_represents (sizeBytes : UInt32) (positive : 0 < sizeBytes.toNat)
    (bounded : sizeBytes.toNat ≤ 2 ^ 31) : Represents (create sizeBytes) [] where
  block := List.length_replicate
  bounded := bounded
  reader := positive
  stored := positive
  writer := by simp [create]
  content := rfl

/-- A difference of 32-bit values that does not wrap around. -/
theorem sub_exact (minuend subtrahend : UInt32) (below : subtrahend.toNat ≤ minuend.toNat) :
    (minuend - subtrahend).toNat = minuend.toNat - subtrahend.toNat :=
  UInt32.toNat_sub_of_le _ _ (UInt32.le_iff_toNat_le.mpr below)

/-- Indices that are neither equal nor in order have the write index in front, and their
distance does not wrap around. -/
theorem wrapped_gap (ring : RingBuffer) (different : ¬ ring.writePtr = ring.readPtr)
    (wrapped : ¬ ring.writePtr > ring.readPtr) :
    ring.writePtr.toNat < ring.readPtr.toNat ∧
      (ring.readPtr - ring.writePtr).toNat = ring.readPtr.toNat - ring.writePtr.toNat := by
  rw [gt_iff_lt, UInt32.lt_iff_toNat_lt] at wrapped
  have apart : ring.writePtr.toNat ≠ ring.readPtr.toNat := by
    intro equal
    exact different (UInt32.toNat_inj.mp equal)
  have before : ring.writePtr.toNat < ring.readPtr.toNat := by omega
  exact ⟨before, sub_exact _ _ (Nat.le_of_lt before)⟩

section Represented

variable (ring : RingBuffer) (queue : Bytes) (represented : Represents ring queue)

include represented

/-- The write index without the modulus: it follows the queue, once around. -/
theorem writer_position :
    ring.writePtr.toNat =
      if ring.readPtr.toNat + queue.length < ring.size.toNat then
        ring.readPtr.toNat + queue.length
      else ring.readPtr.toNat + queue.length - ring.size.toNat := by
  have position := wrapped_index ring.size.toNat ring.readPtr.toNat queue.length
    represented.reader represented.stored
  rw [Nat.add_comm] at position
  rw [represented.writer, position]

/-- The write index stays inside the block. -/
theorem writer_inside : ring.writePtr.toNat < ring.size.toNat := by
  have reader := represented.reader
  rw [represented.writer]
  exact Nat.mod_lt _ (by omega)

/-- The number of readable bytes is the length of the queue. -/
theorem read_avail_exact : ring.getReadAvail.toNat = queue.length := by
  have position := writer_position ring queue represented
  have reader := represented.reader
  have stored := represented.stored
  have bounded := represented.bounded
  unfold getReadAvail
  split_ifs with same later
  · have equal := congrArg UInt32.toNat same
    split_ifs at position <;> simp <;> omega
  · rw [gt_iff_lt, UInt32.lt_iff_toNat_lt] at later
    rw [sub_exact _ _ (by omega)]
    split_ifs at position <;> omega
  · obtain ⟨before, gap⟩ := wrapped_gap ring same later
    rw [sub_exact _ _ (by omega), gap]
    split_ifs at position <;> omega

/-- The number of free bytes is the capacity, one less than the size, minus the
length of the queue. -/
theorem write_avail_exact : ring.getWriteAvail.toNat = ring.size.toNat - 1 - queue.length := by
  have position := writer_position ring queue represented
  have reader := represented.reader
  have stored := represented.stored
  have bounded := represented.bounded
  have one : (1 : UInt32).toNat = 1 := rfl
  have capacity : (ring.size - 1).toNat = ring.size.toNat - 1 := by
    rw [sub_exact _ _ (by omega), one]
  unfold getWriteAvail
  split_ifs with same later
  · have equal := congrArg UInt32.toNat same
    split_ifs at position <;> omega
  · rw [gt_iff_lt, UInt32.lt_iff_toNat_lt] at later
    have gap : (ring.writePtr - ring.readPtr).toNat = ring.writePtr.toNat - ring.readPtr.toNat :=
      sub_exact _ _ (by omega)
    have inside := writer_inside ring queue represented
    rw [sub_exact _ _ (by omega), gap, capacity]
    split_ifs at position <;> omega
  · obtain ⟨before, gap⟩ := wrapped_gap ring same later
    rw [sub_exact _ _ (by omega), gap, one]
    split_ifs at position <;> omega

/-- Copying out up to the whole queue reads exactly its oldest bytes, whichever
way the window lies in the block. -/
theorem copy_out_exact (count : UInt32) (available : count.toNat ≤ queue.length) :
    ring.copyOut count = some (queue.take count.toNat) := by
  have reader := represented.reader
  have stored := represented.stored
  have block := represented.block
  have left : (ring.size - ring.readPtr).toNat = ring.size.toNat - ring.readPtr.toNat :=
    sub_exact _ _ (by omega)
  have oldest : queue.take count.toNat = window ring.data ring.readPtr.toNat count.toNat := by
    rw [← represented.content, window, window, List.take_take, Nat.min_eq_left available]
  simp only [copyOut, gt_iff_lt, UInt32.lt_iff_toNat_lt, left, oldest]
  split_ifs with wraps
  · rw [load_inside _ _ _ (by omega), load_inside _ _ _ (by omega),
      window_wraps _ _ _ (by omega) (by omega) (by omega), block]
    have whole : (ring.data.drop ring.readPtr.toNat).take (ring.size.toNat - ring.readPtr.toNat) =
        ring.data.drop ring.readPtr.toNat := by
      apply List.take_of_length_le
      simp only [List.length_drop, block, Nat.le_refl]
    simp [whole]
  · rw [load_inside _ _ _ (by omega), window_contiguous _ _ _ (by omega)]

/-- The `int` holds the length of the first piece exactly: the piece is shorter than the
block, because the window wraps only behind its start. -/
theorem copy_out_int_exact (count : UInt32) (available : count.toNat ≤ queue.length) :
    ring.copyOutInt count = some (queue.take count.toNat) := by
  rw [← copy_out_exact ring queue represented count available, copyOutInt, copyOut]
  split_ifs with wraps
  · have reader := represented.reader
    have stored := represented.stored
    have bounded := represented.bounded
    have left : (ring.size - ring.readPtr).toNat = ring.size.toNat - ring.readPtr.toNat :=
      sub_exact _ _ (by omega)
    rw [gt_iff_lt, UInt32.lt_iff_toNat_lt] at wraps
    have signed : (ring.size - ring.readPtr).toInt32.toInt = (ring.size - ring.readPtr).toNat := by
      show (ring.size - ring.readPtr).toBitVec.toInt = (ring.size - ring.readPtr).toNat
      apply BitVec.toInt_eq_toNat_of_lt
      show 2 * (ring.size - ring.readPtr).toNat < 2 ^ 32
      omega
    have length : sizeOfInt (ring.size - ring.readPtr).toInt32 = (ring.size - ring.readPtr).toNat := by
      rw [sizeOfInt, signed]
      omega
    have rest : (count - (ring.size - ring.readPtr).toInt32.toUInt32).toNat =
        count.toNat - (ring.size - ring.readPtr).toNat := by
      rw [UInt32.toUInt32_toInt32]
      exact sub_exact _ _ (Nat.le_of_lt wraps)
    simp only [length, rest]
  · rfl

/-- Moving the read index behind the oldest bytes takes them out of the queue. -/
theorem advance_represents (count : UInt32) (available : count.toNat ≤ queue.length) :
    Represents { ring with readPtr := (ring.readPtr + count) % ring.size }
      (queue.drop count.toNat) := by
  have reader := represented.reader
  have stored := represented.stored
  have bounded := represented.bounded
  have block := represented.block
  have moved : ((ring.readPtr + count) % ring.size).toNat =
      (ring.readPtr.toNat + count.toNat) % ring.size.toNat := by
    have noWrap : ring.readPtr.toNat + count.toNat < 2 ^ 32 := by omega
    rw [UInt32.toNat_mod, UInt32.toNat_add, Nat.mod_eq_of_lt noWrap]
  have remaining : (queue.drop count.toNat).length = queue.length - count.toNat := List.length_drop
  refine ⟨block, bounded, ?_, ?_, ?_, ?_⟩
  · rw [moved]
    exact Nat.mod_lt _ (by omega)
  · rw [remaining]
    show queue.length - count.toNat < ring.size.toNat
    omega
  · rw [moved, remaining, Nat.mod_add_mod, Nat.add_assoc, Nat.add_sub_cancel' available]
    exact represented.writer
  · show window ring.data ((ring.readPtr + count) % ring.size).toNat (queue.drop count.toNat).length =
      queue.drop count.toNat
    rw [moved, remaining, ← block, ← window_drop _ _ _ _ available (by omega), represented.content]

/-- Copying in at most the free bytes appends exactly them to the stored window,
in one piece or in two. The block keeps its length. -/
theorem copy_in_exact (source : Bytes) (count : UInt32)
    (room : queue.length + count.toNat < ring.size.toNat) (given : count.toNat ≤ source.length) :
    ∃ data, ring.copyIn source count = some data ∧ data.length = ring.data.length ∧
      window data ring.readPtr.toNat (queue.length + count.toNat) =
        queue ++ source.take count.toNat := by
  have reader := represented.reader
  have block := represented.block
  have inside := writer_inside ring queue represented
  have start : (ring.readPtr.toNat + queue.length) % ring.data.length = ring.writePtr.toNat := by
    rw [block]
    exact represented.writer.symm
  have left : (ring.size - ring.writePtr).toNat = ring.size.toNat - ring.writePtr.toNat :=
    sub_exact _ _ (by omega)
  simp only [copyIn, gt_iff_lt, UInt32.lt_iff_toNat_lt, left]
  split_ifs with wraps
  · -- The first piece ends at the end of the block, so the second starts at zero.
    generalize piece : ring.size.toNat - ring.writePtr.toNat = len at wraps
    have firstLength : (source.take len).length = len := by
      rw [List.length_take]
      omega
    have restLength : ((source.drop len).take (count.toNat - len)).length = count.toNat - len := by
      rw [List.length_take, List.length_drop]
      omega
    have firstStored := append_contiguous ring.data ring.readPtr.toNat queue.length
      (source.take len) (by omega) (by omega) (by omega)
    have firstBlock := overwrite_length ring.data ring.writePtr.toNat (source.take len) (by omega)
    rw [start, firstLength, represented.content] at firstStored
    have wrapped : (ring.readPtr.toNat + (queue.length + len)) % ring.size.toNat = 0 := by
      have position := writer_position ring queue represented
      split_ifs at position with contiguous
      · rw [show ring.readPtr.toNat + (queue.length + len) = ring.size.toNat by omega, Nat.mod_self]
      · omega
    have restStored := append_contiguous (overwrite ring.data ring.writePtr.toNat (source.take len))
      ring.readPtr.toNat (queue.length + len) ((source.drop len).take (count.toNat - len))
      (by omega) (by omega) (by rw [firstBlock, block, wrapped]; omega)
    rw [firstBlock, block, wrapped, restLength, firstStored] at restStored
    have joined : source.take len ++ (source.drop len).take (count.toNat - len) =
        source.take count.toNat := by
      rw [← List.take_add]
      congr 1
      omega
    refine ⟨overwrite (overwrite ring.data ring.writePtr.toNat (source.take len)) 0
      ((source.drop len).take (count.toNat - len)), ?_, ?_, ?_⟩
    · rw [load_inside _ _ _ (by omega), load_inside _ _ _ (by omega), List.drop_zero]
      simp only [Option.bind_eq_bind, Option.bind_some]
      rw [store_inside _ _ _ (by omega)]
      simp only [Option.bind_some]
      rw [store_inside _ _ _ (by rw [← overwrite, firstBlock]; omega)]
      rfl
    · rw [overwrite_length _ _ _ (by omega), firstBlock]
    · rw [show queue.length + count.toNat = queue.length + len + (count.toNat - len) by omega,
        restStored, List.append_assoc, joined]
  · have takenLength : (source.take count.toNat).length = count.toNat := by
      rw [List.length_take]
      omega
    have appended := append_contiguous ring.data ring.readPtr.toNat queue.length
      (source.take count.toNat) (by omega) (by omega) (by omega)
    rw [start, takenLength, represented.content] at appended
    refine ⟨overwrite ring.data ring.writePtr.toNat (source.take count.toNat), ?_, ?_, appended⟩
    · rw [load_inside _ _ _ (by omega), List.drop_zero]
      simp only [Option.bind_eq_bind, Option.bind_some]
      rw [store_inside _ _ _ (by omega)]
      rfl
    · rw [overwrite_length _ _ _ (by omega)]

/-- `ReadAll` always has a result: it hands over the whole queue in order, or
leaves its argument alone when there is none, and the buffer is then empty. -/
theorem read_all_exact (data : Bytes) :
    ∃ count after, ring.readAll data = some (count, if queue = [] then data else queue, after) ∧
      count.toNat = queue.length ∧ after.size = ring.size ∧ Represents after [] := by
  have available := read_avail_exact ring queue represented
  have reader := represented.reader
  by_cases nothing : queue = []
  · subst nothing
    have zero : ring.getReadAvail = 0 := UInt32.toNat_inj.mp available
    exact ⟨0, ring, by simp [readAll, zero], rfl, rfl, represented⟩
  · have some_stored : ring.getReadAvail ≠ 0 := by
      intro zero
      rw [zero] at available
      exact nothing (List.length_eq_zero_iff.mp available.symm)
    have copied := copy_out_exact ring queue represented ring.getReadAvail (by omega)
    rw [available, List.take_length] at copied
    have emptied := advance_represents ring queue represented ring.getReadAvail (by omega)
    rw [available, List.drop_length] at emptied
    refine ⟨ring.getReadAvail,
      { ring with readPtr := (ring.readPtr + ring.getReadAvail) % ring.size }, ?_, available, rfl,
      emptied⟩
    simp [readAll, some_stored, copied, remainder_positive _ ring.size (by omega), nothing]

/-- `Read` always has a result: it hands over the oldest bytes, at most `numBytes` of
them and an even number, and takes exactly them out of the queue. -/
theorem read_exact (numBytes : UInt32) :
    ∃ count after, ring.read true numBytes = some (count, queue.take count.toNat, after) ∧
      count.toNat = min numBytes.toNat queue.length - min numBytes.toNat queue.length % 2 ∧
      after.size = ring.size ∧ Represents after (queue.drop count.toNat) := by
  have available := read_avail_exact ring queue represented
  have reader := represented.reader
  have zero : (0 : UInt32).toNat = 0 := rfl
  by_cases nothing : numBytes ≤ 0 ∨ ring.getReadAvail = 0
  · refine ⟨0, ring, by simp only [read, if_pos (Or.inr nothing)]; rfl, ?_, rfl,
      by simpa using represented⟩
    cases nothing with
    | inl noBytes =>
      have none : numBytes.toNat ≤ 0 := UInt32.le_iff_toNat_le.mp noBytes
      omega
    | inr noneStored =>
      have none := congrArg UInt32.toNat noneStored
      omega
  · generalize capping : (if numBytes < ring.getReadAvail then numBytes else ring.getReadAvail) =
      capped
    have exactCap : capped.toNat = min numBytes.toNat queue.length := by
      rw [← capping, ← available]
      split_ifs with shorter
      · rw [UInt32.lt_iff_toNat_lt] at shorter
        omega
      · rw [UInt32.lt_iff_toNat_lt] at shorter
        omega
    have parity : (capped % 2).toNat = capped.toNat % 2 := by
      rw [UInt32.toNat_mod]
      rfl
    generalize rounding : (if capped % 2 ≠ 0 then capped - 1 else capped) = count
    have exactCount : count.toNat = capped.toNat - capped.toNat % 2 := by
      rw [← rounding]
      split_ifs with odd
      · have one : capped.toNat % 2 ≠ 0 := by
          intro even
          exact odd (UInt32.toNat_inj.mp (parity.trans even))
        have unit : (1 : UInt32).toNat = 1 := rfl
        rw [sub_exact _ _ (by omega), unit]
        omega
      · have even : (capped % 2).toNat = 0 := by
          rw [not_not.mp odd]
          rfl
        omega
    have copied := copy_out_int_exact ring queue represented count (by omega)
    refine ⟨count, { ring with readPtr := (ring.readPtr + count) % ring.size }, ?_, ?_, rfl,
      advance_represents ring queue represented count (by omega)⟩
    · have given : ¬ ((!true) = true ∨ numBytes ≤ 0 ∨ ring.getReadAvail = 0) := by simpa using nothing
      simp only [read, if_neg given, capping, rounding, copied, Option.bind_eq_bind,
        Option.bind_some, remainder_positive _ ring.size (by omega : 0 < ring.size.toNat)]
      rfl
    · rw [exactCount, exactCap]

/-- `Empty` leaves the empty queue. -/
theorem empty_represents : Represents ring.empty [] :=
  create_represents ring.size (by
    have reader := represented.reader
    omega) represented.bounded

/-- `Write` has a result when the bytes that it stores can be read: the prefix that the
free space admits joins the queue, and its length is returned. -/
theorem write_readable (source : Bytes) (numBytes : UInt32)
    (given : min numBytes.toNat (ring.size.toNat - 1 - queue.length) ≤ source.length) :
    ∃ count after, ring.write (some source) numBytes = some (count, after) ∧
      count.toNat = min numBytes.toNat (ring.size.toNat - 1 - queue.length) ∧
      after.size = ring.size ∧
      Represents after (queue ++ source.take count.toNat) := by
  have available := write_avail_exact ring queue represented
  have stored := represented.stored
  have bounded := represented.bounded
  by_cases nothing : numBytes ≤ 0 ∨ ring.getWriteAvail = 0
  · refine ⟨0, ring, by simp only [write, if_pos nothing], ?_, rfl, ?_⟩
    · cases nothing with
      | inl noBytes =>
        have zero : numBytes.toNat ≤ 0 := UInt32.le_iff_toNat_le.mp noBytes
        have none : (0 : UInt32).toNat = 0 := rfl
        omega
      | inr noRoom =>
        have zero := congrArg UInt32.toNat noRoom
        have none : (0 : UInt32).toNat = 0 := rfl
        omega
    · simpa using represented
  · generalize capped : (if numBytes < ring.getWriteAvail then numBytes else ring.getWriteAvail) =
      count
    have exactCount : count.toNat = min numBytes.toNat (ring.size.toNat - 1 - queue.length) := by
      rw [← capped, ← available]
      split_ifs with shorter
      · rw [UInt32.lt_iff_toNat_lt] at shorter
        omega
      · rw [UInt32.lt_iff_toNat_lt] at shorter
        omega
    obtain ⟨data, copied, length, content⟩ :=
      copy_in_exact ring queue represented source count (by omega) (by omega)
    have inside := writer_inside ring queue represented
    have takenLength : (source.take count.toNat).length = count.toNat := by
      rw [List.length_take]
      omega
    have moved : ((ring.writePtr + count) % ring.size).toNat =
        (ring.readPtr.toNat + (queue.length + count.toNat)) % ring.size.toNat := by
      have noWrap : ring.writePtr.toNat + count.toNat < 2 ^ 32 := by omega
      rw [UInt32.toNat_mod, UInt32.toNat_add, Nat.mod_eq_of_lt noWrap, represented.writer,
        Nat.mod_add_mod, Nat.add_assoc]
    refine ⟨count, { ring with data, writePtr := (ring.writePtr + count) % ring.size }, ?_,
      exactCount, rfl, ?_⟩
    · simp only [write, if_neg nothing, capped, copied, Option.bind_eq_bind, Option.bind_some,
        remainder_positive _ ring.size (by omega : 0 < ring.size.toNat)]
      rfl
    · exact {
        block := length.trans represented.block
        bounded := bounded
        reader := represented.reader
        stored := by
          rw [List.length_append, takenLength]
          show queue.length + count.toNat < ring.size.toNat
          omega
        writer := by
          rw [List.length_append, takenLength]
          exact moved
        content := by
          rw [List.length_append, takenLength]
          exact content }

/-- `Write` of `numBytes` readable bytes always has a result: the prefix that the
free space admits joins the queue, and its length is returned. -/
theorem write_exact (source : Bytes) (numBytes : UInt32)
    (given : numBytes.toNat ≤ source.length) :
    ∃ count after, ring.write (some source) numBytes = some (count, after) ∧
      count.toNat = min numBytes.toNat (ring.size.toNat - 1 - queue.length) ∧
      after.size = ring.size ∧
      Represents after (queue ++ source.take count.toNat) := by
  apply write_readable ring queue represented source numBytes
  exact (Nat.min_le_left _ _).trans given

end Represented

end RingBuffer

end AsrClient
