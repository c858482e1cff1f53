import AsrClient.BufferAudioSource

/-!
# The arithmetic of the ring buffer

The audio source takes a buffer size of type `size_t` and hands it to a ring buffer whose size
and indices have 32 bits. Nothing checks the size that is left after the conversion. With size
zero, the capacity of one byte less wraps around. Above 2^31, both indices can be so large
that an index and a count add up to 2^32.

For the sizes in between, every call computes the numbers that it means to, whatever calls
preceded it.
-/

namespace AsrClient

namespace RingBuffer

/-- A call of `Write` whose arithmetic is safe: it has a result, so that it divides by no zero
and copies inside the block only; the size less one is a number of bytes where
`GetWriteAvail` computes it; and the write index plus the stored bytes does not wrap around. -/
structure WriteSafe (ring : RingBuffer) (source : Bytes) (numBytes : UInt32) : Prop where
  defined : ∃ count after, ring.write (some source) numBytes = some (count, after)
  capacity : ring.readPtr ≤ ring.writePtr → 1 ≤ ring.size.toNat
  sum : ring.writePtr.toNat + (if numBytes < ring.getWriteAvail then numBytes
    else ring.getWriteAvail).toNat < 2 ^ 32

/-- A call of `ReadAll` whose arithmetic is safe: it has a result, and the read index plus the
bytes that are read does not wrap around. -/
structure ReadAllSafe (ring : RingBuffer) (data : Bytes) : Prop where
  defined : ∃ count copied after, ring.readAll data = some (count, copied, after)
  sum : ring.readPtr.toNat + ring.getReadAvail.toNat < 2 ^ 32

/-- A buffer that holds a queue writes safely. -/
theorem write_safe (ring : RingBuffer) (queue : Bytes) (represented : Represents ring queue)
    (source : Bytes) (numBytes : UInt32) (given : numBytes.toNat ≤ source.length) :
    WriteSafe ring source numBytes := by
  have bounded := represented.bounded
  have reader := represented.reader
  have inside := writer_inside ring queue represented
  have available := write_avail_exact ring queue represented
  refine ⟨?_, fun _ => by omega, ?_⟩
  · obtain ⟨count, after, written, -⟩ := write_exact ring queue represented source numBytes given
    exact ⟨count, after, written⟩
  · split_ifs with shorter
    · rw [UInt32.lt_iff_toNat_lt] at shorter
      omega
    · omega

/-- A buffer that holds a queue is read safely. -/
theorem read_all_safe (ring : RingBuffer) (queue : Bytes) (represented : Represents ring queue)
    (data : Bytes) : ReadAllSafe ring data := by
  have bounded := represented.bounded
  have reader := represented.reader
  have stored := represented.stored
  have available := read_avail_exact ring queue represented
  refine ⟨?_, by omega⟩
  obtain ⟨count, after, copied, -⟩ := read_all_exact ring queue represented data
  exact ⟨count, _, after, copied⟩

section Filling

variable (sizeBytes : UInt32) (large : 2 ≤ sizeBytes.toNat)

include large

/-- The capacity of a buffer is one byte less than its size. -/
theorem capacity_exact : (sizeBytes - 1).toNat = sizeBytes.toNat - 1 := by
  have one : (1 : UInt32).toNat = 1 := rfl
  rw [sub_exact _ _ (by omega), one]

/-- An index at zero that moves by the capacity comes to the last cell. -/
theorem last_cell : remainder (0 + (sizeBytes - 1)) sizeBytes = some (sizeBytes - 1) := by
  have capacity := capacity_exact sizeBytes large
  rw [remainder_positive _ _ (by omega), UInt32.zero_add]
  apply congrArg some
  apply UInt32.toNat_inj.mp
  rw [UInt32.toNat_mod, Nat.mod_eq_of_lt (by omega)]

/-- A new buffer can be filled by one write. -/
theorem create_write_full (source : Bytes) (length : source.length = sizeBytes.toNat - 1) :
    ∃ data, (create sizeBytes).write (some source) (sizeBytes - 1) =
        some (sizeBytes - 1, ⟨data, sizeBytes, 0, sizeBytes - 1⟩) ∧
      data.length = sizeBytes.toNat := by
  have capacity := capacity_exact sizeBytes large
  have available : (create sizeBytes).getWriteAvail = sizeBytes - 1 := rfl
  have some_ : ¬ (sizeBytes - 1 ≤ 0 ∨ sizeBytes - 1 = 0) := by
    rintro (none | none)
    · have zero : (sizeBytes - 1).toNat ≤ 0 := UInt32.le_iff_toNat_le.mp none
      omega
    · have zero : (sizeBytes - 1).toNat = 0 := congrArg UInt32.toNat none
      omega
  have onePiece : ¬ sizeBytes - 1 > sizeBytes - 0 := by
    rw [gt_iff_lt, UInt32.lt_iff_toNat_lt, UInt32.sub_zero]
    omega
  have copied : (create sizeBytes).copyIn source (sizeBytes - 1) =
      some (source ++ (List.replicate sizeBytes.toNat 0).drop source.length) := by
    rw [copyIn, create]
    simp only [if_neg onePiece]
    rw [load_inside _ _ _ (by omega), List.drop_zero, List.take_of_length_le (by omega)]
    simp only [Option.bind_eq_bind, Option.bind_some]
    rw [UInt32.toNat_zero, store_inside _ _ _ (by rw [List.length_replicate]; omega)]
    simp
  refine ⟨source ++ (List.replicate sizeBytes.toNat 0).drop source.length, ?_, ?_⟩
  · simp only [write, available, if_neg some_, ite_self, copied]
    simp only [create, Option.bind_eq_bind, Option.bind_some, last_cell sizeBytes large]
    rfl
  · rw [List.length_append, List.length_drop, List.length_replicate]
    omega

/-- A full buffer can be emptied by one read, which moves the read index to the last cell. -/
theorem full_read_all (data buffer : Bytes) (length : data.length = sizeBytes.toNat) :
    ∃ copied, readAll ⟨data, sizeBytes, 0, sizeBytes - 1⟩ buffer =
      some (sizeBytes - 1, copied, ⟨data, sizeBytes, sizeBytes - 1, sizeBytes - 1⟩) := by
  have capacity := capacity_exact sizeBytes large
  have behind : sizeBytes - 1 ≠ 0 := by
    intro none
    have zero : (sizeBytes - 1).toNat = 0 := congrArg UInt32.toNat none
    omega
  have later : sizeBytes - 1 > 0 := by
    rw [gt_iff_lt, UInt32.lt_iff_toNat_lt, UInt32.toNat_zero]
    omega
  have available : getReadAvail ⟨data, sizeBytes, 0, sizeBytes - 1⟩ = sizeBytes - 1 := by
    rw [getReadAvail]
    simp only [if_neg behind, if_pos later, UInt32.sub_zero]
  have onePiece : ¬ sizeBytes - 1 > sizeBytes - 0 := by
    rw [gt_iff_lt, UInt32.lt_iff_toNat_lt, UInt32.sub_zero]
    omega
  have copied : copyOut ⟨data, sizeBytes, 0, sizeBytes - 1⟩ (sizeBytes - 1) =
      some ((data.drop 0).take (sizeBytes - 1).toNat) := by
    rw [copyOut]
    simp only [if_neg onePiece]
    exact load_inside data 0 (sizeBytes - 1).toNat (by omega)
  refine ⟨(data.drop 0).take (sizeBytes - 1).toNat, ?_⟩
  simp only [readAll, available, if_neg behind, copied, Option.bind_eq_bind, Option.bind_some,
    last_cell sizeBytes large]
  rfl

end Filling

end RingBuffer

namespace BufferAudioSource

/-- The ring arithmetic that a call performs is safe. A call that is refused, and a read at the
end of the stream, perform none. -/
def Safe (source : BufferAudioSource) : Operation → Prop
  | .write data => source.finished = false →
      source.ringBuffer.WriteSafe data (UInt32.ofNat data.length)
  | .read buffer => (source.finished && !source.toRead) = false →
      source.ringBuffer.ReadAllSafe buffer
  | .finish => True

/-- Each call of a sequence is safe when it is made. -/
def AllSafe : BufferAudioSource → List Operation → Prop
  | _, [] => True
  | source, operation :: rest =>
      Safe source operation ∧
        ∀ outcome after, source.step operation = some (outcome, after) → AllSafe after rest

/-- A source that holds a queue makes every call safely. -/
theorem safe_step (source : BufferAudioSource) (queue : Bytes) (holds : Holds source queue)
    (operation : Operation) : Safe source operation := by
  cases operation with
  | write data =>
    intro _
    apply RingBuffer.write_safe source.ringBuffer queue holds.ring
    have narrowed : (UInt32.ofNat data.length).toNat = data.length % 2 ^ 32 := UInt32.toNat_ofNat'
    omega
  | read buffer => exact fun _ => RingBuffer.read_all_safe source.ringBuffer queue holds.ring buffer
  | finish => trivial

/-- A source that holds a queue holds one after every call. -/
theorem step_holds (source after : BufferAudioSource) (queue : Bytes) (holds : Holds source queue)
    (operation : Operation) (outcome : Outcome)
    (stepped : source.step operation = some (outcome, after)) : ∃ queue', Holds after queue' := by
  obtain ⟨outcome', after', performed, performs⟩ := step_performs source queue holds operation
  obtain ⟨rfl, rfl⟩ := Prod.mk.inj (Option.some.inj (performed.symm.trans stepped))
  exact performs.keeps source queue holds

/-- Every sequence of calls on a source that holds a queue is safe. -/
theorem run_safe (operations : List Operation) (source : BufferAudioSource) (queue : Bytes)
    (holds : Holds source queue) : AllSafe source operations := by
  induction operations generalizing source queue with
  | nil => trivial
  | cons operation rest inductionHypothesis =>
    refine ⟨safe_step source queue holds operation, fun outcome after stepped => ?_⟩
    obtain ⟨queue', next⟩ := step_holds source after queue holds operation outcome stepped
    exact inductionHypothesis after queue' next

/-- Only the low 32 bits of the size are used. -/
theorem create_mod (bufferSize : Nat) : create bufferSize = create (bufferSize % 2 ^ 32) := by
  have same : UInt32.ofNat bufferSize = UInt32.ofNat (bufferSize % 2 ^ 32) := by
    apply UInt32.toNat_inj.mp
    rw [UInt32.toNat_ofNat', UInt32.toNat_ofNat', Nat.mod_mod]
  rw [create, create, same]

/-- In a buffer of more than 2^31 bytes that has been filled and emptied once, filling it again
takes the write index beyond 32 bits. -/
theorem refill_unsafe (sizeBytes : UInt32) (large : 2 ^ 31 < sizeBytes.toNat)
    (source : BufferAudioSource) (chunk : Bytes) (length : chunk.length = sizeBytes.toNat - 1)
    (isNew : source = ⟨RingBuffer.create sizeBytes, false, false⟩) :
    ¬ AllSafe source [.write chunk, .read [], .write chunk] := by
  subst isNew
  have capacity := RingBuffer.capacity_exact sizeBytes (by omega)
  have small : sizeBytes.toNat < 2 ^ 32 := sizeBytes.toNat_lt
  have count : UInt32.ofNat chunk.length = sizeBytes - 1 := by
    apply UInt32.toNat_inj.mp
    rw [UInt32.toNat_ofNat_of_lt' (by show chunk.length < 2 ^ 32; omega), capacity, length]
  obtain ⟨data, filled, whole⟩ :=
    RingBuffer.create_write_full sizeBytes (by omega) chunk length
  obtain ⟨copied, emptied⟩ := RingBuffer.full_read_all sizeBytes (by omega) data [] whole
  rintro ⟨-, afterWrite⟩
  obtain ⟨-, afterRead⟩ := afterWrite (.wrote chunk true)
    ⟨⟨data, sizeBytes, 0, sizeBytes - 1⟩, false, true⟩ (by simp [step, write, count, filled])
  obtain ⟨again, -⟩ := afterRead (.read (sizeBytes - 1).toInt32 copied)
    ⟨⟨data, sizeBytes, sizeBytes - 1, sizeBytes - 1⟩, false, false⟩ (by simp [step, read, emptied])
  have sum := (again rfl).sum
  have available : RingBuffer.getWriteAvail ⟨data, sizeBytes, sizeBytes - 1, sizeBytes - 1⟩ =
      sizeBytes - 1 := if_pos rfl
  rw [count, available, ite_self] at sum
  simp only at sum
  omega

/-- The ring arithmetic is safe in every sequence of calls exactly when the size, reduced to 32
bits, is between 1 and 2^31. -/
theorem all_safe_iff (bufferSize : Nat) :
    (∀ operations, AllSafe (create bufferSize) operations) ↔
      1 ≤ bufferSize % 2 ^ 32 ∧ bufferSize % 2 ^ 32 ≤ 2 ^ 31 := by
  have narrowed : (UInt32.ofNat bufferSize).toNat = bufferSize % 2 ^ 32 := UInt32.toNat_ofNat'
  constructor
  · intro safe
    constructor
    · have first := (safe [.write []]).1 rfl
      rw [← narrowed]
      exact first.capacity (UInt32.le_refl _)
    · by_contra large
      rw [← narrowed, Nat.not_le] at large
      exact refill_unsafe (UInt32.ofNat bufferSize) large (create bufferSize)
        (List.replicate ((UInt32.ofNat bufferSize).toNat - 1) 0) List.length_replicate rfl (safe _)
  · rintro ⟨positive, bounded⟩ operations
    rw [create_mod]
    exact run_safe operations _ [] (create_holds _ positive bounded)

/-- A buffer of 2^32 bytes is one of none: its capacity wraps around at the first write. -/
theorem narrowed_size_unsafe : ¬ ∀ bufferSize operations, AllSafe (create bufferSize) operations := by
  intro safe
  have first := (safe (2 ^ 32) [.write []]).1 rfl
  exact absurd (first.capacity (by decide)) (by decide)

end BufferAudioSource

end AsrClient
