import AsrClient.Strings
import AsrClient.Library.InputStream

/-!
# The audio source that reads a file

The constructor decides by the extension of the file's name. Unless it is that of raw audio,
the stream is moved back to its beginning; for the extension of a WAV file a header is read
before, which only a stream in good state can be moved back from. A file shorter than the
header fails the stream by that read, and nothing clears the flag.

A read takes a block from the stream. From then on, the file is delivered as the stream
delivers its content.
-/

namespace AsrClient

open InputStream

/-- `AudioFileFormat`. -/
inductive AudioFileFormat where
  | raw
  | wav
deriving DecidableEq

/-- `AudioFormat`. -/
structure AudioFormat where
  fileFormat : AudioFileFormat := .wav
  bitsPerSample : UInt32 := 16
  sampleRate : UInt32 := 8000
deriving DecidableEq

/-- The fields of the class; the file is open. -/
structure FileAudioSource where
  fileName : Bytes
  fmt : AudioFormat
  ifs : Stream Byte
  datachunkSize : UInt64 := 0
deriving DecidableEq

namespace FileAudioSource

/-- What follows the last dot of a name. Without a dot, `find_last_of` answers with the
largest position, one more than which is zero: the whole name. -/
def extension (fileName : Bytes) : Bytes := (fileName.reverse.takeWhile (· != 46)).reverse

/-- The size of the WAV header. -/
def wavHeaderSize : Nat := 44

/-- An unsigned field of the header, with the low byte first. -/
def headerField (header : Bytes) (offset size : Nat) : Nat :=
  ((header.drop offset).take size).foldr (fun c value => c.toNat + 256 * value) 0

/-- The constructor, for a file with this content. The header that is read is a local
variable, and keeps what its memory held where the read did not reach. -/
def create (fileName : Bytes) (fmt : AudioFormat) (content memory : Bytes) : FileAudioSource :=
  let ifs : Stream Byte := { content }
  let (fmt, ifs) :=
    if extension fileName ≠ bytes "raw" then
      let (fmt, ifs) :=
        if extension fileName = bytes "wav" then
          let (taken, ifs) := ifs.read wavHeaderSize
          let header := taken ++ memory.drop taken.length
          ({ fmt with
              sampleRate := UInt32.ofNat (headerField header 24 4)
              bitsPerSample := UInt32.ofNat (headerField header 34 2) }, ifs)
        else (fmt, ifs)
      ({ fmt with fileFormat := AudioFileFormat.wav }, ifs.seekg 0)
    else ({ fmt with fileFormat := AudioFileFormat.raw }, ifs)
  let (position, ifs) := ifs.tellg
  { fileName, fmt, ifs, datachunkSize := UInt64.ofInt position }

/-- `block_size_`. -/
def blockSize : Nat := 10000

/-- Read one block. At the end of the file the buffer is left as it was. -/
def read (source : FileAudioSource) (buffer : Bytes) : Int × Bytes × FileAudioSource :=
  let (tmp, ifs) := source.ifs.read blockSize
  if tmp.length = 0 then (-1, buffer, { source with ifs })
  else (tmp.length, tmp, { source with ifs })

/-- What successive reads answer: the return value, and the buffer as it is left. -/
def answers : FileAudioSource → List Bytes → List (Int × Bytes)
  | _, [] => []
  | source, buffer :: buffers =>
      let (ret, buffer, source) := source.read buffer
      (ret, buffer) :: answers source buffers

/-- The answers of reads that deliver these blocks, and -1 from then on. -/
def expected : List Bytes → List Bytes → List (Int × Bytes)
  | _, [] => []
  | block :: blocks, _ :: buffers => (block.length, block) :: expected blocks buffers
  | [], buffer :: buffers => (-1, buffer) :: expected [] buffers

/-- The whole content is delivered: in every sequence of reads, the answers before the first -1
are blocks of at most the block size, none of them empty, which together are the content, and
every later answer is -1. -/
def DeliversWhole (source : FileAudioSource) (content : Bytes) : Prop :=
  ∃ blocks : List Bytes, (∀ block ∈ blocks, block ≠ [] ∧ block.length ≤ blockSize) ∧
    blocks.flatten = content ∧ ∀ buffers, source.answers buffers = expected blocks buffers

/-- The reads of a source answer with what its stream delivers. -/
theorem answers_expected (source : FileAudioSource) (blocks buffers : List Bytes)
    (delivers : Stream.Delivers blockSize blocks source.ifs) (nonempty : ∀ block ∈ blocks, block ≠ []) :
    source.answers buffers = expected blocks buffers := by
  induction buffers generalizing source blocks with
  | nil =>
    cases blocks <;> rfl
  | cons buffer buffers inductionHypothesis =>
    cases blocks with
    | nil =>
      obtain ⟨none, ended⟩ := Stream.Ended.read delivers blockSize
      have later := inductionHypothesis { source with ifs := (source.ifs.read blockSize).2 } [] ended
        (List.forall_mem_nil _)
      rw [answers, read, expected, ← later]
      simp only [none, List.length_nil, if_true]
    | cons block blocks =>
      obtain ⟨taken, following⟩ := delivers
      obtain ⟨filled, others⟩ := List.forall_mem_cons.mp nonempty
      have later := inductionHypothesis { source with ifs := (source.ifs.read blockSize).2 } blocks
        following others
      rw [answers, read, expected, ← later]
      simp only [taken, List.length_eq_zero_iff, if_neg filled]

/-- The constructor leaves the stream in good state and at its beginning, unless a header is
read from a file that is shorter. -/
theorem create_ifs (fileName : Bytes) (fmt : AudioFormat) (content memory : Bytes)
    (whole : extension fileName ≠ bytes "wav" ∨ wavHeaderSize ≤ content.length) :
    (create fileName fmt content memory).ifs = { content } := by
  by_cases raw : extension fileName = bytes "raw"
  · simp only [create, ne_eq, raw, not_true_eq_false, if_false]
    rfl
  · by_cases wav : extension fileName = bytes "wav"
    · have enough : wavHeaderSize ≤ content.length := whole.resolve_left (not_not_intro wav)
      have header := Stream.read_full { content } wavHeaderSize rfl enough
      simp only [create, ne_eq, if_true, wav, header]
      rfl
    · simp only [create, ne_eq, raw, not_false_eq_true, if_true, wav, if_false]
      rfl

/-- A file that is shorter than the header fails the stream, if its name is that of a WAV
file. Moving back does not help. -/
theorem create_failed (fileName : Bytes) (fmt : AudioFormat) (content memory : Bytes)
    (wav : extension fileName = bytes "wav") (short : content.length < wavHeaderSize) :
    (create fileName fmt content memory).ifs.failbit = true := by
  have other : bytes "wav" ≠ bytes "raw" := by decide
  obtain ⟨_, failed⟩ := Stream.read_short { content } wavHeaderSize rfl short
  simp only [create, wav, ne_eq, other, not_false_eq_true, if_true]
  apply Stream.tellg_failed
  apply Stream.seekg_failed
  exact failed

/-- A source whose stream is in good state and at the beginning delivers the whole content. -/
theorem delivers_whole (source : FileAudioSource) (content : Bytes)
    (fresh : source.ifs = { content }) : source.DeliversWhole content := by
  have isGood : source.ifs.good = true := by
    rw [fresh]
    rfl
  obtain ⟨blocks, delivers, sized, whole⟩ :=
    Stream.delivers_rest source.ifs blockSize (by decide) isGood
  refine ⟨blocks, sized, ?_, ?_⟩
  · rw [whole, fresh]
    exact List.drop_zero
  · intro buffers
    apply answers_expected source blocks buffers delivers
    intro block member
    exact (sized block member).1

/-- A source whose stream has failed delivers nothing: this is the whole content where the file
is empty, and only there. -/
theorem delivers_whole_failed (source : FileAudioSource) (content : Bytes)
    (failed : source.ifs.failbit = true) : source.DeliversWhole content ↔ content = [] := by
  have ended : source.ifs.Ended := Stream.failed_ended source.ifs failed
  have none : ∀ buffers, source.answers buffers = expected [] buffers := fun buffers =>
    answers_expected source [] buffers ended (List.forall_mem_nil _)
  constructor
  · rintro ⟨blocks, _, whole, answered⟩
    cases blocks with
    | nil =>
      exact whole.symm
    | cons block blocks =>
      -- The first answer would be a length, but it is -1.
      have first := (none [[]]).symm.trans (answered [[]])
      simp only [expected, List.cons.injEq, Prod.mk.injEq] at first
      omega
  · intro empty
    exact ⟨[], List.forall_mem_nil _, empty.symm, none⟩

/-- The file is delivered as a whole exactly if its name is not that of a WAV file, or it is
empty, or it is long enough for the header. -/
theorem delivers_whole_iff (fileName : Bytes) (fmt : AudioFormat) (content memory : Bytes) :
    (create fileName fmt content memory).DeliversWhole content ↔
      extension fileName ≠ bytes "wav" ∨ content = [] ∨ wavHeaderSize ≤ content.length := by
  by_cases whole : extension fileName ≠ bytes "wav" ∨ wavHeaderSize ≤ content.length
  · have delivered := delivers_whole _ content (create_ifs fileName fmt content memory whole)
    exact iff_of_true delivered (whole.imp_right Or.inr)
  · obtain ⟨wav, short⟩ := not_or.mp whole
    have failed := create_failed fileName fmt content memory (not_not.mp wav) (Nat.lt_of_not_le short)
    rw [delivers_whole_failed _ content failed]
    constructor
    · intro empty
      exact Or.inr (Or.inl empty)
    · intro condition
      exact (condition.resolve_left wav).resolve_right short

/-- A file of one byte with the name of a WAV file is lost: the first read answers -1. -/
theorem short_wav_lost :
    (create (bytes "a.wav") {} [65] []).answers [[]] = [(-1, [])] ∧
      ¬ (create (bytes "a.wav") {} [65] []).DeliversWhole [65] := by
  have failed : (create (bytes "a.wav") {} [65] []).ifs.failbit = true := by decide
  refine ⟨by decide, ?_⟩
  rw [delivers_whole_failed _ _ failed]
  exact List.cons_ne_nil _ _

end FileAudioSource

end AsrClient
