import AsrClient.RingBuffer
import AsrClient.Library.Simulation

/-!
# The ring buffer as a bounded queue

The calls of the ring buffer are compared with those of a queue of bytes whose capacity
is one byte less than the size of the buffer. The queue appends what fits of the bytes
it is offered, hands over an even number of its oldest bytes, or all of them, and can
be emptied.

A write reads as many bytes behind its pointer as it stores. Where the memory behind
the pointer is shorter, neither the buffer nor the queue has an answer.
-/

namespace AsrClient.RingBuffer

/-- The calls, with the memory behind a pointer that is read. The destination of a read
is not null and has room for what is copied. -/
inductive Call where
  | write (dataPtr : Bytes) (numBytes : UInt32)
  | read (numBytes : UInt32)
  | readAll (data : Bytes)
  | empty
deriving DecidableEq

/-- What a call returned, with the bytes it copied or the vector as it was left. -/
inductive Answer where
  | wrote (count : Nat)
  | read (count : Nat) (copied : Bytes)
  | readAll (count : Nat) (data : Bytes)
  | emptied
deriving DecidableEq

/-- Perform one call of the ring buffer. -/
def step (ring : RingBuffer) : Call → Option (Answer × RingBuffer)
  | .write dataPtr numBytes => do
      let (count, ring) ← ring.write (some dataPtr) numBytes
      pure (.wrote count.toNat, ring)
  | .read numBytes => do
      let (count, copied, ring) ← ring.read true numBytes
      pure (.read count.toNat copied, ring)
  | .readAll data => do
      let (count, data, ring) ← ring.readAll data
      pure (.readAll count.toNat data, ring)
  | .empty => pure (.emptied, ring.empty)

/-- Perform calls in order. -/
def run : RingBuffer → List Call → Option (List Answer × RingBuffer) := Simulation.run step

/-- The number of bytes that a read takes out of a queue. -/
def evenCount (numBytes available : Nat) : Nat :=
  min numBytes available - min numBytes available % 2

/-- What the same call does to a queue of bytes with this capacity. -/
def queueStep (capacity : Nat) (queue : Bytes) : Call → Option (Answer × Bytes)
  | .write dataPtr numBytes =>
      let count := min numBytes.toNat (capacity - queue.length)
      if count ≤ dataPtr.length then some (.wrote count, queue ++ dataPtr.take count) else none
  | .read numBytes =>
      let count := evenCount numBytes.toNat queue.length
      some (.read count (queue.take count), queue.drop count)
  | .readAll data => some (.readAll queue.length (if queue = [] then data else queue), [])
  | .empty => some (.emptied, [])

/-- The same calls in order on a queue. -/
def queueRun (capacity : Nat) : Bytes → List Call → Option (List Answer × Bytes) :=
  Simulation.run (queueStep capacity)

/-- A buffer of this size whose indices and counts show this queue. -/
structure Shows (sizeBytes : UInt32) (ring : RingBuffer) (queue : Bytes) : Prop where
  reader : ring.readPtr < sizeBytes
  writer : ring.writePtr < sizeBytes
  readAvail : ring.getReadAvail.toNat = queue.length
  capacity : ring.getReadAvail.toNat + ring.getWriteAvail.toNat = sizeBytes.toNat - 1

/-- A buffer of this size that holds this queue. -/
structure Holds (sizeBytes : UInt32) (ring : RingBuffer) (queue : Bytes) : Prop where
  size : ring.size = sizeBytes
  represents : Represents ring queue

section Held

variable (sizeBytes : UInt32) (ring : RingBuffer) (queue : Bytes)
  (holds : Holds sizeBytes ring queue)

include holds

/-- What a buffer holds can be seen from its indices and its counts. -/
theorem Holds.shows : Shows sizeBytes ring queue := by
  obtain ⟨rfl, represents⟩ := holds
  have available := read_avail_exact ring queue represents
  have free := write_avail_exact ring queue represents
  have stored := represents.stored
  refine ⟨?_, ?_, available, by omega⟩
  · exact UInt32.lt_iff_toNat_lt.mpr represents.reader
  · exact UInt32.lt_iff_toNat_lt.mpr (writer_inside ring queue represents)

/-- A write that would read behind the end of the memory it is given has no result. The
count that it stores is the one that the queue admits. -/
theorem write_undefined (source : Bytes) (numBytes : UInt32)
    (short : source.length < min numBytes.toNat (sizeBytes.toNat - 1 - queue.length)) :
    ring.write (some source) numBytes = none := by
  obtain ⟨rfl, represents⟩ := holds
  have available := write_avail_exact ring queue represents
  have given : ¬ (numBytes ≤ 0 ∨ ring.getWriteAvail = 0) := by
    rintro (noBytes | noRoom)
    · have zero : numBytes.toNat ≤ 0 := UInt32.le_iff_toNat_le.mp noBytes
      omega
    · have zero : ring.getWriteAvail.toNat = 0 := by
        rw [noRoom]
        rfl
      omega
  generalize capped : (if numBytes < ring.getWriteAvail then numBytes else ring.getWriteAvail) =
    count
  have long : source.length < count.toNat := by
    rw [← capped]
    split_ifs <;> omega
  -- One of the two pieces, or the only one, reaches behind the end of the source.
  have outside : ring.copyIn source count = none := by
    rw [copyIn]
    split_ifs with wraps
    · rw [gt_iff_lt, UInt32.lt_iff_toNat_lt] at wraps
      by_cases first : 0 + (ring.size - ring.writePtr).toNat ≤ source.length
      · have rest : load source (ring.size - ring.writePtr).toNat
            (count.toNat - (ring.size - ring.writePtr).toNat) = none := if_neg (by omega)
        simp [rest]
      · have piece : load source 0 (ring.size - ring.writePtr).toNat = none := if_neg first
        simp [piece]
    · have piece : load source 0 count.toNat = none := if_neg (by omega)
      simp [piece]
  simp only [write, if_neg given, capped, outside, Option.bind_eq_bind, Option.bind_none]

/-- Whatever a write stores joins the queue; a null pointer stores nothing. -/
theorem write_joins (dataPtr : Option Bytes) (numBytes count : UInt32) (after : RingBuffer)
    (written : ring.write dataPtr numBytes = some (count, after)) :
    Represents after (queue ++ (dataPtr.getD []).take count.toNat) := by
  cases dataPtr with
  | none =>
    obtain ⟨rfl, rfl⟩ := Prod.mk.inj (Option.some.inj written)
    simpa using holds.represents
  | some source =>
    by_cases readable : min numBytes.toNat (sizeBytes.toNat - 1 - queue.length) ≤ source.length
    · obtain ⟨count', after', written', -, -, next⟩ :=
        write_readable ring queue holds.represents source numBytes
          (by rw [holds.size]; exact readable)
      obtain ⟨rfl, rfl⟩ := Prod.mk.inj (Option.some.inj (written'.symm.trans written))
      exact next
    · rw [write_undefined sizeBytes ring queue holds source numBytes (by omega)] at written
      exact absurd written (by simp)

/-- One call: the buffer answers as the queue does, and holds the queue that is left. -/
theorem step_agrees (call : Call) :
    Simulation.Agree (Holds sizeBytes) (ring.step call)
      (queueStep (sizeBytes.toNat - 1) queue call) := by
  have size := holds.size
  have represents := holds.represents
  cases call with
  | write source numBytes =>
    by_cases readable : min numBytes.toNat (sizeBytes.toNat - 1 - queue.length) ≤ source.length
    · obtain ⟨count, after, written, exactCount, sameSize, next⟩ :=
        write_readable ring queue represents source numBytes (by rw [size]; exact readable)
      rw [size] at exactCount
      rw [← exactCount] at readable
      simp only [step, queueStep, written, ← exactCount, if_pos readable]
      exact .some ⟨rfl, sameSize.trans size, next⟩
    · have undefined := write_undefined sizeBytes ring queue holds source numBytes (by omega)
      simp only [step, queueStep, undefined, if_neg readable]
      exact .none
  | read numBytes =>
    obtain ⟨count, after, copied, exactCount, sameSize, next⟩ :=
      read_exact ring queue represents numBytes
    simp only [step, queueStep, evenCount, copied, ← exactCount]
    exact .some ⟨rfl, sameSize.trans size, next⟩
  | readAll data =>
    obtain ⟨count, after, copied, exactCount, sameSize, next⟩ :=
      read_all_exact ring queue represents data
    simp only [step, queueStep, copied, ← exactCount]
    exact .some ⟨rfl, sameSize.trans size, next⟩
  | empty => exact .some ⟨rfl, size, empty_represents ring queue represents⟩

end Held

/-- Every sequence of calls on a buffer of a size from 1 to 2^31 is answered as the
bounded queue answers it, and the buffer then shows the queue that is left. -/
theorem run_refines_queue (sizeBytes : UInt32) (positive : 1 ≤ sizeBytes.toNat)
    (bounded : sizeBytes.toNat ≤ 2 ^ 31) (calls : List Call) :
    Simulation.Agree (Shows sizeBytes) (run (create sizeBytes) calls)
      (queueRun (sizeBytes.toNat - 1) [] calls) := by
  have start : Holds sizeBytes (create sizeBytes) [] :=
    ⟨rfl, create_represents sizeBytes positive bounded⟩
  have alike := Simulation.run_agrees (Holds sizeBytes) step (queueStep (sizeBytes.toNat - 1))
    (fun ring queue call holds => step_agrees sizeBytes ring queue holds call) calls
    (create sizeBytes) [] start
  apply alike.mono
  intro ring queue holds
  exact holds.shows

/-- A buffer of four bytes: a write is cut off at three, a read is rounded down to two,
and the next write wraps around. -/
theorem run_refines_queue_wrapping :
    Simulation.Agree (Shows 4)
      (run (create 4) [.write [1, 2, 3, 4] 4, .read 3, .write [5, 6] 2, .readAll [9], .readAll [9]])
      (some ([.wrote 3, .read 2 [1, 2], .wrote 2, .readAll 3 [3, 5, 6], .readAll 0 [9]], [])) :=
  run_refines_queue 4 (by decide) (by decide)
    [.write [1, 2, 3, 4] 4, .read 3, .write [5, 6] 2, .readAll [9], .readAll [9]]

end AsrClient.RingBuffer
