import AsrClient.BodyExtraction
import AsrClient.Codec

/-!
# The body and the blank line

A payload whose header lines are all accepted and declare one size has a place where its
body begins: behind the blank line. The parser knows this place, since its scan stops
there, but it does not use it. It takes the body from the end of the payload.

Both places agree when exactly the declared number of bytes follows the blank line. With
bytes left, the body is the declared number of last bytes; with bytes missing, it begins
inside of the header.
-/

namespace AsrClient

namespace WsParser

/-- The sizes among assignments, in order. -/
def sizes (assignments : List Assignment) : List Int :=
  assignments.filterMap fun assignment => match assignment with
    | .sizeBody size => some size
    | _ => none

/-- The assignments of lines, in order. -/
def assignments (lines : List Bytes) : List Assignment :=
  lines.flatMap fun line => (lineMeaning (line.dropLast ++ [lf])).1

/-- The header lines of a payload up to its first blank line: each of them is accepted, and
one of them declares the size of the body. A line that is empty has no last character, and
is not a line that the parser can read. -/
structure HeaderSection where
  lines : List Bytes
  size : Nat
  free : ∀ line ∈ lines, lf ∉ line
  filled : ∀ line ∈ lines, line ≠ [] ∧ line ≠ [cr]
  accepted : ∀ line ∈ lines, (lineMeaning (line.dropLast ++ [lf])).2 = none
  declared : sizes (assignments lines) = [(size : Int)]

/-- The header lines and the blank line, as they stand in a payload. -/
def HeaderSection.text (header : HeaderSection) : Bytes :=
  header.lines.flatMap (· ++ [lf]) ++ [cr, lf]

/-- The body is framed by its header: it is what the header declares, from the blank line
on; and when less than that follows, no character of it is taken from the header. -/
def BodyFramed (header : HeaderSection) (tail : Bytes) : Prop :=
  (header.size ≤ tail.length →
    ∃ parser, ofString (header.text ++ tail) = .ok parser ∧ parser.body = tail.take header.size) ∧
  (tail.length < header.size →
    ∃ parser, ofString (header.text ++ tail) = .ok parser ∧
      ∀ index ∈ bodyIndices (header.text ++ tail) header.size, header.text.length ≤ index)

/-- Lines closed by a line feed are read one by one. -/
theorem getlines_closed (lines : List Bytes) (rest : Bytes) (free : ∀ line ∈ lines, lf ∉ line) :
    getlines lf (lines.flatMap (· ++ [lf]) ++ rest) = lines ++ getlines lf rest := by
  induction lines with
  | nil => rfl
  | cons line lines inductionHypothesis =>
    obtain ⟨first, others⟩ := List.forall_mem_cons.mp free
    rw [List.flatMap_cons, List.append_assoc, List.append_assoc, List.singleton_append,
      getlines_first lf _ _ first, inductionHypothesis others, List.cons_append]

/-- The lines of a payload with such a header. -/
theorem HeaderSection.getlines (header : HeaderSection) (tail : Bytes) :
    getlines lf (header.text ++ tail) = header.lines ++ [cr] :: AsrClient.getlines lf tail := by
  rw [HeaderSection.text, List.append_assoc, getlines_closed _ _ header.free]
  exact congrArg (header.lines ++ ·) (getlines_first lf [cr] tail (by decide))

/-- The last size is the last of the sizes, where there is one. -/
theorem last_size_of_sizes (seen : Option Int) (assigned : List Assignment) :
    lastSize seen assigned = (sizes assigned).getLast?.or seen := by
  induction assigned generalizing seen with
  | nil => rfl
  | cons assignment assigned inductionHypothesis =>
    rw [lastSize, List.foldl_cons, ← lastSize, inductionHypothesis]
    cases assignment with
    | sizeBody size =>
      have whole : sizes (.sizeBody size :: assigned) = size :: sizes assigned := rfl
      rw [whole, List.getLast?_cons]
      cases (sizes assigned).getLast? <;> rfl
    | version | command | hasBody | insert => rfl

/-- Accepted lines that are not blank declare the last of their sizes. -/
theorem declared_size_lines (lines rest : List Bytes) (seen : Option Int)
    (filled : ∀ line ∈ lines, line ≠ [] ∧ line ≠ [cr])
    (accepted : ∀ line ∈ lines, (lineMeaning (line.dropLast ++ [lf])).2 = none) :
    declaredSize seen (lines ++ rest) = declaredSize (lastSize seen (assignments lines)) rest := by
  induction lines generalizing seen with
  | nil => rfl
  | cons line lines inductionHypothesis =>
    obtain ⟨⟨nonempty, notBlank⟩, filledLater⟩ := List.forall_mem_cons.mp filled
    obtain ⟨first, acceptedLater⟩ := List.forall_mem_cons.mp accepted
    rw [List.cons_append, declaredSize, if_neg (fun blank => notBlank blank.1), if_neg nonempty]
    have whole : assignments (line :: lines) =
        (lineMeaning (line.dropLast ++ [lf])).1 ++ assignments lines := rfl
    rw [whole]
    rcases meaning : lineMeaning (line.dropLast ++ [lf]) with ⟨made, thrown⟩
    obtain rfl : thrown = none := by rwa [meaning] at first
    simp only [inductionHypothesis _ filledLater acceptedLater, lastSize, List.foldl_append]

/-- The size that the header declares is the size of the payload's body. -/
theorem HeaderSection.content_length (header : HeaderSection) (tail : Bytes) :
    contentLength (header.text ++ tail) = some (header.size : Int) := by
  rw [contentLength, header.getlines, declared_size_lines _ _ _ header.filled header.accepted,
    last_size_of_sizes, header.declared]
  simp [declaredSize]

/-- A declared size was read by `std::stoi`. -/
theorem HeaderSection.size_bounded (header : HeaderSection) : header.size < 2 ^ 31 := by
  have member : (header.size : Int) ∈ sizes (assignments header.lines) := by
    rw [header.declared]
    exact List.mem_singleton_self _
  obtain ⟨assignment, made, isSize⟩ := List.mem_filterMap.mp member
  obtain ⟨line, -, ofLine⟩ := List.mem_flatMap.mp made
  cases assignment with
  | version | command | hasBody | insert => exact absurd isSize (by simp)
  | sizeBody size =>
    obtain rfl : size = header.size := Option.some.inj isSize
    cases line_assigns (line.dropLast ++ [lf]) with
    | nothing same | version _ same | command _ _ same | header _ _ same =>
      rw [same] at ofLine
      simp at ofLine
    | aborted error same =>
      rw [same] at ofLine
      simp at ofLine
    | length text size number same =>
      rw [same] at ofLine
      obtain rfl : (header.size : Int) = size := by simpa using ofLine
      have small := stoi_range text _ number
      omega

/-- Assignments leave the body alone. -/
theorem assign_all_body (parser : WsParser) (assigned : List Assignment) :
    (assignAll parser assigned).body = parser.body := by
  induction assigned generalizing parser with
  | nil => rfl
  | cons assignment assigned inductionHypothesis =>
    rw [assignAll, List.foldl_cons, ← assignAll, inductionHypothesis]
    cases assignment <;> rfl

/-- A header scan leaves the body alone. The induction is on the lines. -/
theorem header_loop_body (lines : List Bytes) (parser after : WsParser)
    (ended : headerLoop lines parser = .ok () after) : after.body = parser.body := by
  induction lines generalizing parser with
  | nil =>
    rw [headerLoop] at ended
    cases ended
    rfl
  | cons line rest inductionHypothesis =>
    by_cases blank : line = [cr] ∧ parser.hasBody = true
    · rw [headerLoop, if_pos blank] at ended
      cases ended
      rfl
    by_cases empty : line = []
    · rw [headerLoop, if_neg blank, if_pos empty] at ended
      cases ended
    obtain ⟨tks, loop⟩ := header_loop_cons parser line blank empty
    rw [loop] at ended
    have kept := assign_all_body parser (lineMeaning (line.dropLast ++ [lf])).1
    rcases loop_behind_ok ended with ⟨-, goesOn⟩ | ⟨-, rfl⟩
    · exact (inductionHypothesis _ goesOn).trans kept
    · exact kept

/-- The constructor takes as many last characters of the payload as the header declares,
provided that the payload has them. -/
theorem HeaderSection.body_taken (header : HeaderSection) (tail : Bytes)
    (within : header.size ≤ (header.text ++ tail).length) :
    ∃ parser, ofString (header.text ++ tail) = .ok parser ∧
      parser.body = (header.text ++ tail).drop ((header.text ++ tail).length - header.size) := by
  obtain ⟨parser, ended, hasBody, converted⟩ :=
    declared_body (header.text ++ tail) header.size (header.content_length tail)
  have small := header.size_bounded
  have size : parser.sizeBody.toNat = header.size := by omega
  have unset : parser.body = [] := header_loop_body _ {} parser ended
  have nonempty : header.text ++ tail ≠ [] := by simp [HeaderSection.text]
  have taken : bodyLoop (header.text ++ tail) parser.sizeBody.toNat parser.body =
      .ok ((header.text ++ tail).drop ((header.text ++ tail).length - header.size)) := by
    rw [size, body_loop_suffix _ _ within, unset, List.nil_append]
  refine ⟨{ parser with
    body := (header.text ++ tail).drop ((header.text ++ tail).length - header.size) }, ?_, rfl⟩
  rw [ofString, if_neg nonempty, ended]
  simp only [hasBody, if_true, taken]
  rfl

/-- The body is framed by its header exactly when what the header declares follows the blank
line, and begins and ends the bytes that follow it: so it is when nothing else follows. -/
theorem body_framed_iff (header : HeaderSection) (tail : Bytes) :
    BodyFramed header tail ↔
      header.size ≤ tail.length ∧
        tail.take header.size = tail.drop (tail.length - header.size) := by
  have length : (header.text ++ tail).length = header.text.length + tail.length :=
    List.length_append
  have behind (within : header.size ≤ tail.length) :
      ∃ parser, ofString (header.text ++ tail) = .ok parser ∧
        parser.body = tail.drop (tail.length - header.size) := by
    obtain ⟨parser, constructed, body⟩ := header.body_taken tail (by omega)
    refine ⟨parser, constructed, ?_⟩
    rw [body, length, Nat.add_sub_assoc within, List.drop_append]
    simp
  constructor
  · rintro ⟨complete, short⟩
    have within : header.size ≤ tail.length := by
      by_contra missing
      obtain ⟨-, -, outside⟩ := short (Nat.lt_of_not_le missing)
      -- Counting down, the loop reaches the size of what precedes the end of the header.
      have first := outside (bodyIndex (header.text ++ tail) (tail.length + 1)) (by
        apply List.mem_map.mpr
        exact ⟨tail.length, by simpa using missing, rfl⟩)
      have filled : 0 < header.text.length := by simp [HeaderSection.text]
      rw [bodyIndex, sizeSub, if_pos (by omega)] at first
      omega
    obtain ⟨parser, constructed, body⟩ := complete within
    obtain ⟨parser', constructed', body'⟩ := behind within
    obtain rfl : parser = parser' := Except.ok.inj (constructed.symm.trans constructed')
    exact ⟨within, body.symm.trans body'⟩
  · rintro ⟨within, same⟩
    refine ⟨fun _ => ?_, fun missing => absurd within (by omega)⟩
    obtain ⟨parser, constructed, body⟩ := behind within
    exact ⟨parser, constructed, body.trans same.symm⟩

/-- The header of a result that declares two bytes. -/
def twoBytes : HeaderSection where
  lines := [bytes "ASR 2.4 RECOGNITION_RESULT\r", bytes "Content-Length: 2\r"]
  size := 2
  free := by decide
  filled := by decide
  accepted := by decide
  declared := by decide

/-- With three bytes behind the blank line, the body is the last two of them. -/
theorem surplus_shifts_body :
    (∃ parser, ofString (twoBytes.text ++ bytes "abc") = .ok parser ∧
      parser.body = bytes "bc") ∧ ¬ BodyFramed twoBytes (bytes "abc") := by
  constructor
  · exact twoBytes.body_taken (bytes "abc") (by decide)
  · intro framed
    obtain ⟨parser, constructed, body⟩ := framed.1 (by decide)
    obtain ⟨parser', constructed', body'⟩ := twoBytes.body_taken (bytes "abc") (by decide)
    obtain rfl : parser = parser' := Except.ok.inj (constructed.symm.trans constructed')
    exact absurd (body.symm.trans body') (by decide)

end WsParser

end AsrClient
