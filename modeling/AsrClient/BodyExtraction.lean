import AsrClient.WsParser

/-!
# The size of the body and the payload

The body is taken from the end of a payload, as many characters as the last
Content-Length header before the end of the header scan declares. The declared size
is any number that `std::stoi` accepts. It is converted to an unsigned 64-bit size,
and the loop subtracts from the length of the payload in the same arithmetic. Nothing
compares the two numbers.

The declared size is described here from the lines alone, and the parser is shown to
hold it when the header scan ends. The body loop then stays inside the payload for
exactly the payloads that are at least as long as they declare.
-/

namespace AsrClient

namespace WsParser

open TokenStream

/-- The last size among assignments, or the former one. -/
def lastSize (seen : Option Int) (assignments : List Assignment) : Option Int :=
  assignments.foldl
    (fun seen assignment => match assignment with
      | .sizeBody size => some size
      | _ => seen) seen

/-- The size that lines declare until the header scan ends, starting from a size
already seen. No size is declared when the scan never ends: it meets an empty line, or
a value that `std::stoi` rejects. -/
def declaredSize : Option Int → List Bytes → Option Int
  | seen, [] => seen
  | seen, line :: rest =>
      if line = [cr] ∧ seen.isSome then seen
      else if line = [] then none
      else match lineMeaning (line.dropLast ++ [lf]) with
        | (assignments, none) => declaredSize (lastSize seen assignments) rest
        | (assignments, some (.parser _)) => lastSize seen assignments
        | (_, some _) => none

/-- The size that a payload declares for its body. -/
def contentLength (payload : Bytes) : Option Int := declaredSize none (getlines lf payload)

/-- The indices that the body loop evaluates, in order. -/
def bodyIndices (str : Bytes) (size : Nat) : List Nat :=
  (List.range size).reverse.map fun i => bodyIndex str (i + 1)

/-- The body of a payload is taken from inside of it: the loop evaluates valid indices
only, and no more of them than the payload has. -/
def BodyInside (payload : Bytes) : Prop :=
  ∀ parser, headers payload = .ok () parser → parser.hasBody = true →
    (∀ index ∈ bodyIndices payload parser.sizeBody.toNat, index < payload.length) ∧
      (bodyIndices payload parser.sizeBody.toNat).length ≤ payload.length

/-- A parser that holds the declared size, and has a body only if one was declared. -/
structure Declares (parser : WsParser) (seen : Option Int) : Prop where
  body : parser.hasBody = seen.isSome
  size : ∀ size, seen = some size → parser.sizeBody = UInt64.ofInt size

/-- Assignments that keep the parser and the declared size in agreement. -/
def Agreeing (assignments : List Assignment) : Prop :=
  ∀ parser seen, Declares parser seen →
    Declares (assignAll parser assignments) (lastSize seen assignments)

/-- The end of a statement adds no assignment. -/
@[simp] theorem terminated_assignments (assignments : List Assignment) (afterSep : Bool)
    (rest : Bytes) : (terminated assignments afterSep rest).1 = assignments := by
  unfold terminated
  cases (scan afterSep rest).1 with
  | error thrown => rfl
  | ok token =>
    simp only
    split_ifs <;> rfl

/-- What the assignments of a line can be. A Content-Length header declares a body before
its value is converted: only a line whose value is no number stops between the two, and it
ends the scan by an exception. -/
inductive Assigns (meaning : LineMeaning) : Prop where
  | nothing (same : meaning.1 = [])
  | version (text : Bytes) (same : meaning.1 = [.version text])
  | command (text name : Bytes) (same : meaning.1 = [.version text, .command name])
  | header (key text : Bytes) (same : meaning.1 = [.insert key text])
  | length (text : Bytes) (size : Int) (number : stoi text = .ok size)
      (same : meaning.1 = [.hasBody, .sizeBody size, .insert (bytes "Content-Length") text])
  | aborted (error : StoiError) (same : meaning = ([.hasBody], some (.stoi error)))

/-- Every line makes the assignments of one kind of statement. The cases are those of the
first token, and then of the tokens behind it. -/
theorem line_assigns (line : Bytes) : Assigns (lineMeaning line) := by
  unfold lineMeaning
  rcases scan false line with ⟨thrown | ⟨kind, content⟩, rest, mode⟩
  · exact .nothing rfl
  cases kind with
  | crlf | sepOp | eoft => exact .nothing rfl
  | asrTitle =>
    simp only [commandMeaning]
    rcases scan mode rest with ⟨thrown | token, rest, mode⟩
    · exact .nothing rfl
    by_cases isVersion : token.kind ≠ .id
    · simpa only [if_pos isVersion] using .nothing rfl
    simp only [if_neg isVersion]
    rcases scan mode rest with ⟨thrown | name, rest, mode⟩
    · exact .version token.content rfl
    by_cases isCommand : name.kind ≠ .id
    · simpa only [if_pos isCommand] using .version token.content rfl
    simp only [if_neg isCommand]
    exact .command token.content name.content (terminated_assignments _ _ _)
  | id =>
    simp only [keyMeaning]
    rcases scan mode rest with ⟨thrown | token, rest, mode⟩
    · exact .nothing rfl
    by_cases isSep : token.kind ≠ .sepOp
    · simpa only [if_pos isSep] using .nothing rfl
    simp only [if_neg isSep]
    rcases scan mode rest with ⟨thrown | value, rest, mode⟩
    · exact .nothing rfl
    by_cases notValue : value.kind ≠ .id ∧ value.kind ≠ .crlf
    · simpa only [if_pos notValue] using .nothing rfl
    simp only [if_neg notValue, headerMeaning]
    by_cases isLength : content = bytes "Content-Length"
    · simp only [if_pos isLength]
      cases number : stoi value.content with
      | error error =>
        exact .aborted error rfl
      | ok size =>
        apply Assigns.length value.content size number
        simp only [terminated_assignments, isLength]
    · simp only [if_neg isLength]
      exact .header content value.content (terminated_assignments _ _ _)

/-- The size and the flag are assigned by the same lines, unless an exception comes between
the two. -/
theorem line_agreeing (line : Bytes) :
    Agreeing (lineMeaning line).1 ∨ ∃ error, (lineMeaning line).2 = some (.stoi error) := by
  cases line_assigns line with
  | nothing same | version _ same | command _ _ same | header _ _ same =>
    rw [same]
    exact Or.inl fun _ _ declares => ⟨declares.body, declares.size⟩
  | length text size number same =>
    rw [same]
    refine Or.inl fun parser seen declares => ⟨rfl, fun other equal => ?_⟩
    obtain rfl : size = other := Option.some.inj equal
    rfl
  | aborted error same =>
    exact Or.inr ⟨error, by rw [same]⟩

/-- How a header scan can end, given the size that its lines declare: normally, with a
parser that declares this size, or by an exception, when none is declared. -/
def ScanEnds (declared : Option Int) : EStateM.Result Thrown WsParser Unit → Prop
  | .ok _ after => Declares after declared
  | .error _ _ => declared = none

/-- The header scan leaves the declared size in the parser. The induction is on the
lines that are left; the agreement of the parser with the size seen so far is what
each accepted line carries on. -/
theorem header_loop_declares (lines : List Bytes) (seen : Option Int) (parser : WsParser)
    (declares : Declares parser seen) :
    ScanEnds (declaredSize seen lines) (headerLoop lines parser) := by
  induction lines generalizing seen parser with
  | nil => exact declares
  | cons line rest inductionHypothesis =>
    by_cases blank : line = [cr] ∧ parser.hasBody = true
    · rw [headerLoop, declaredSize, if_pos blank, if_pos ⟨blank.1, declares.body ▸ blank.2⟩]
      exact declares
    by_cases empty : line = []
    · rw [headerLoop, declaredSize, if_neg blank, if_neg (declares.body ▸ blank), if_pos empty,
        if_pos empty]
      rfl
    obtain ⟨tks, loop⟩ := header_loop_cons parser line blank empty
    rw [loop, declaredSize, if_neg (declares.body ▸ blank), if_neg empty]
    rcases line_agreeing (line.dropLast ++ [lf]) with agreeing | ⟨error, aborted⟩
    · have agreed := agreeing parser seen declares
      revert agreed
      rcases lineMeaning (line.dropLast ++ [lf]) with ⟨assignments, _ | err | error | _⟩
      · exact fun agreed => inductionHypothesis _ _ ⟨agreed.body, agreed.size⟩
      · exact fun agreed => ⟨agreed.body, agreed.size⟩
      · exact fun _ => rfl
      · exact fun _ => rfl
    · revert aborted
      rcases lineMeaning (line.dropLast ++ [lf]) with ⟨assignments, thrown⟩
      rintro ⟨⟩
      rfl

/-- A payload's header scan holds the size that the payload declares. -/
theorem headers_declare (payload : Bytes) : ScanEnds (contentLength payload) (headers payload) :=
  header_loop_declares _ none {} ⟨rfl, by simp⟩

/-- The loop evaluates one index for each character of the body. -/
@[simp] theorem body_indices_length (str : Bytes) (size : Nat) :
    (bodyIndices str size).length = size := by
  simp [bodyIndices]

/-- Subtraction in the unsigned arithmetic stays below the length as long as it does not
wrap around: an index that wrapped around lies at or behind the end. -/
theorem body_index_inside_iff (str : Bytes) (i : Nat) (positive : 0 < i) (small : i < 2 ^ 64) :
    bodyIndex str i < str.length ↔ i ≤ str.length := by
  unfold bodyIndex sizeSub
  split_ifs with within
  · omega
  · omega

/-- All indices are valid exactly when the size is at most the length. -/
theorem body_indices_inside_iff (str : Bytes) (size : Nat) (small : size < 2 ^ 64) :
    (∀ index ∈ bodyIndices str size, index < str.length) ↔ size ≤ str.length := by
  constructor
  · intro inside
    by_cases positive : 0 < size
    · have first : bodyIndex str size ∈ bodyIndices str size := by
        refine List.mem_map.mpr ⟨size - 1, by simp; omega, ?_⟩
        rw [Nat.sub_add_cancel positive]
      exact (body_index_inside_iff str size positive small).mp (inside _ first)
    · omega
  · intro within index member
    obtain ⟨i, below, rfl⟩ := List.mem_map.mp member
    have below : i < size := by simpa using below
    exact (body_index_inside_iff str (i + 1) (by omega) (by omega)).mpr (by omega)

/-- The loop evaluates the listed indices: it has a result exactly when all of them are
valid. -/
theorem body_loop_defined_iff (str : Bytes) (size : Nat) (body : Bytes) :
    (∃ result, bodyLoop str size body = .ok result) ↔
      ∀ index ∈ bodyIndices str size, index < str.length := by
  induction size generalizing body with
  | zero => simp [bodyLoop, bodyIndices]
  | succ size inductionHypothesis =>
    have indices : bodyIndices str (size + 1) = bodyIndex str (size + 1) :: bodyIndices str size := by
      simp [bodyIndices, List.range_succ]
    rw [indices, List.forall_mem_cons, bodyLoop]
    by_cases inside : bodyIndex str (size + 1) < str.length
    · simp only [List.getElem?_eq_getElem inside, inductionHypothesis, inside, true_and]
    · simp only [List.getElem?_eq_none (Nat.le_of_not_lt inside), inside, false_and, iff_false]
      simp

/-- A payload that declares a size is parsed up to its body, and the loop will count
the converted size. -/
theorem declared_body (payload : Bytes) (size : Int) (declared : contentLength payload = some size) :
    ∃ parser, headers payload = .ok () parser ∧ parser.hasBody = true ∧
      (parser.sizeBody.toNat : Int) = size % 2 ^ 64 := by
  have ends := headers_declare payload
  rw [declared] at ends
  cases ended : headers payload with
  | ok _ parser =>
    rw [ended] at ends
    refine ⟨parser, rfl, ends.body, ?_⟩
    rw [ends.size size rfl, size_of_declared]
  | error thrown parser =>
    rw [ended] at ends
    exact absurd ends (by simp [ScanEnds])

/-- The body is taken from inside the payload exactly when the payload declares no size,
or one that, as an unsigned 64-bit number, is at most its own length. -/
theorem body_inside_iff_declared_within (payload : Bytes) :
    BodyInside payload ↔
      ∀ size, contentLength payload = some size → size % 2 ^ 64 ≤ (payload.length : Int) := by
  constructor
  · intro inside size declared
    obtain ⟨parser, ended, hasBody, converted⟩ := declared_body payload size declared
    have bounded := (inside parser ended hasBody).2
    rw [body_indices_length] at bounded
    omega
  · intro within parser ended hasBody
    have ends := headers_declare payload
    rw [ended] at ends
    obtain ⟨size, declared⟩ := Option.isSome_iff_exists.mp (ends.body.symm.trans hasBody)
    have converted := size_of_declared size
    rw [← ends.size size declared] at converted
    have bounded : parser.sizeBody.toNat ≤ payload.length := by
      have := within size declared
      omega
    rw [body_indices_length]
    exact ⟨(body_indices_inside_iff payload _ parser.sizeBody.toNat_lt).mpr bounded, bounded⟩

/-- A response that is cut off behind its headers declares more than it has: the first
index that the loop evaluates has wrapped around. -/
theorem truncated_payload_leaves_bounds :
    ¬ BodyInside (bytes "ASR 2.4 RECOGNITION_RESULT\r\nContent-Length: 341\r\n\r\n") := by
  intro inside
  obtain ⟨parser, ended, hasBody, converted⟩ := declared_body
    (bytes "ASR 2.4 RECOGNITION_RESULT\r\nContent-Length: 341\r\n\r\n") 341 (by decide)
  have bounded := (inside parser ended hasBody).2
  have short : (bytes "ASR 2.4 RECOGNITION_RESULT\r\nContent-Length: 341\r\n\r\n").length ≤ 60 := by
    decide
  rw [body_indices_length] at bounded
  omega

end WsParser

end AsrClient
