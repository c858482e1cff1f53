import AsrClient.Codec

/-!
# What follows the blank line

The headers of a payload end at its first blank line. `consume` searches for it and puts
what follows aside, but it is the parser that decides what becomes of those bytes. Its
scan stops at the blank line only when a line before it has declared a body, or before
the blank line when a line is rejected. In every other case the blank line is an empty
statement, and the scan goes on behind it.

Here the part of a payload before the blank line is called its head. The head alone
decides whether the bytes behind it can change the command, the version or the headers.
-/

namespace AsrClient

namespace WsParser

open TokenStream

/-- The line end of the last header and the blank line. -/
def hdrDelimiter : Bytes := [cr, lf, cr, lf]

/-- The command, the version and the headers that the scan of a payload yields, or what
it throws. -/
def yields (payload : Bytes) : Except Thrown (Bytes × Bytes × HeaderMap) :=
  match headers payload with
  | .ok _ parser => .ok (parser.command, parser.version, parser.props)
  | .error thrown _ => .error thrown

/-- A constructed parser has the fields that the scan yields. -/
theorem of_string_yields (payload : Bytes) (parser : WsParser)
    (constructed : ofString payload = .ok parser) :
    yields payload = .ok (parser.command, parser.version, parser.props) := by
  rw [ofString] at constructed
  split_ifs at constructed with empty
  · cases constructed
    rw [empty]
    rfl
  · rw [yields]
    cases scanned : headers payload with
    | error thrown after => simp [scanned] at constructed
    | ok _ after =>
      simp only [scanned] at constructed
      split_ifs at constructed with hasBody
      · cases taken : bodyLoop payload after.sizeBody.toNat after.body with
        | error thrown => simp [taken, Except.map] at constructed
        | ok body =>
          simp only [taken, Except.map, Except.ok.injEq] at constructed
          rw [← constructed]
      · rw [Except.ok.inj constructed]

/-- No line feed without a carriage return before it. -/
def NoBareLf (head : Bytes) : Prop :=
  ∀ index < head.length, head[index]? = some lf → 0 < index ∧ head[index - 1]? = some cr

instance (head : Bytes) : Decidable (NoBareLf head) :=
  inferInstanceAs (Decidable (∀ index < head.length, _))

/-- The first blank line of the payloads with this head is the one behind it. -/
def FirstBlank (head : Bytes) : Prop := ¬ hdrDelimiter <:+: head ++ [cr, lf, cr]

/-- Two payloads that agree up to and including their first blank line, with no bare line
feed before it. -/
def SameHead (payload payload' : Bytes) : Prop :=
  ∃ head tail tail', payload = head ++ hdrDelimiter ++ tail ∧
    payload' = head ++ hdrDelimiter ++ tail' ∧ FirstBlank head ∧ NoBareLf head

/-- A line that is rejected, or that declares a body. -/
def Closes (line : Bytes) : Prop :=
  (lineMeaning (line.dropLast ++ [lf])).2.isSome = true ∨
    .hasBody ∈ (lineMeaning (line.dropLast ++ [lf])).1

instance (line : Bytes) : Decidable (Closes line) := inferInstanceAs (Decidable (_ ∨ _))

/-- Some line of the head is rejected or declares a body. -/
def Closed (head : Bytes) : Prop := ∃ line ∈ getlines lf (head ++ msgDelimiter), Closes line

/-- What follows the blank line behind this head has no influence on what is yielded. -/
def TailIgnored (head : Bytes) : Prop :=
  ∀ tail tail', yields (head ++ hdrDelimiter ++ tail) = yields (head ++ hdrDelimiter ++ tail')

/-- A line feed of such a text ends a line, and what follows it has no bare line feed. -/
theorem NoBareLf.split {head before after : Bytes} (noBareLf : NoBareLf head)
    (whole : head = before ++ lf :: after) :
    (∃ line, before = line ++ [cr]) ∧ NoBareLf after := by
  have cell (index : Nat) : head[before.length + 1 + index]? = after[index]? := by
    rw [whole, List.getElem?_append_right (by omega)]
    rw [show before.length + 1 + index - before.length = index + 1 by omega, List.getElem?_cons_succ]
  have feed : head[before.length]? = some lf := by
    rw [whole, List.getElem?_append_right (Nat.le_refl _), Nat.sub_self, List.getElem?_cons_zero]
  have size : head.length = before.length + 1 + after.length := by
    rw [whole, List.length_append, List.length_cons]
    omega
  refine ⟨?_, ?_⟩
  · obtain ⟨positive, former⟩ := noBareLf before.length (by omega) feed
    rw [whole, List.getElem?_append_left (by omega), ← List.getLast?_eq_getElem?] at former
    exact ⟨before.dropLast, (List.dropLast_append_getLast? cr former).symm⟩
  · intro index inside isLf
    obtain ⟨-, former⟩ := noBareLf (before.length + 1 + index) (by omega) ((cell index).trans isLf)
    cases index with
    | zero =>
      rw [show before.length + 1 + 0 - 1 = before.length by omega, feed] at former
      exact absurd former (by decide)
    | succ index =>
      rw [show before.length + 1 + (index + 1) - 1 = before.length + 1 + index by omega, cell] at former
      exact ⟨Nat.succ_pos index, former⟩

/-- A head without bare line feeds consists of lines. The induction is on its length; the
line up to the first line feed is taken off. -/
theorem head_lines (head : Bytes) (noBareLf : NoBareLf head) :
    ∃ lines : List Bytes, head ++ msgDelimiter = lines.flatMap (· ++ msgDelimiter) ∧
      ∀ line ∈ lines, lf ∉ line := by
  induction length : head.length using Nat.strong_induction_on generalizing head with
  | _ size inductionHypothesis =>
    by_cases found : lf ∈ head
    · obtain ⟨before, after, whole, first⟩ := List.eq_append_cons_of_mem found
      obtain ⟨⟨line, rfl⟩, later⟩ := noBareLf.split whole
      have shorter : after.length < size := by
        rw [← length, whole]
        simp only [List.length_append, List.length_cons]
        omega
      obtain ⟨lines, parts, free⟩ := inductionHypothesis after.length shorter after later rfl
      refine ⟨line :: lines, ?_, List.forall_mem_cons.mpr ⟨fun member => first (by simp [member]), free⟩⟩
      rw [List.flatMap_cons, ← parts, whole]
      simp [msgDelimiter]
    · exact ⟨[head], by simp, by simpa using found⟩

/-- The lines of a payload: those of its head, the blank one, and those of its tail. None
of the first is empty. -/
theorem getlines_head (head tail : Bytes) (noBareLf : NoBareLf head) :
    getlines lf (head ++ hdrDelimiter ++ tail) =
        getlines lf (head ++ msgDelimiter) ++ [cr] :: getlines lf tail ∧
      ∀ line ∈ getlines lf (head ++ msgDelimiter), line ≠ [] := by
  obtain ⟨lines, parts, free⟩ := head_lines head noBareLf
  have headOnly : getlines lf (head ++ msgDelimiter) = lines.map (· ++ [cr]) := by
    have separated := getlines_delimited lines [] free
    rwa [List.append_nil, ← parts, getlines, List.append_nil] at separated
  have whole : head ++ hdrDelimiter ++ tail =
      lines.flatMap (· ++ msgDelimiter) ++ ([cr] ++ lf :: tail) := by
    rw [← parts]
    simp [hdrDelimiter, msgDelimiter]
  refine ⟨?_, ?_⟩
  · rw [whole, getlines_delimited _ _ free, getlines_first lf [cr] _ (by decide), headOnly]
  · rw [headOnly]
    intro line member
    obtain ⟨text, -, rfl⟩ := List.mem_map.mp member
    simp

/-- Assignments declare a body when one of them does. -/
theorem assign_all_has_body (assignments : List Assignment) (parser : WsParser) :
    (assignAll parser assignments).hasBody =
      (parser.hasBody || decide (.hasBody ∈ assignments)) := by
  induction assignments generalizing parser with
  | nil => simp [assignAll]
  | cons assignment assignments inductionHypothesis =>
    rw [assignAll, List.foldl_cons, ← assignAll, inductionHypothesis]
    cases assignment <;> simp [assign]

/-- One line of the header loop: it stops the scan whatever follows, or it is accepted
and the scan goes on with the lines behind it. -/
theorem header_loop_line (line : Bytes) (nonempty : line ≠ []) (parser : WsParser)
    (going : ¬ (line = [cr] ∧ parser.hasBody = true)) :
    ((lineMeaning (line.dropLast ++ [lf])).2.isSome = true ∧
        ∃ result, ∀ rest, headerLoop (line :: rest) parser = result) ∨
      ((lineMeaning (line.dropLast ++ [lf])).2 = none ∧
        ∃ after, after.hasBody = (parser.hasBody ||
            decide (.hasBody ∈ (lineMeaning (line.dropLast ++ [lf])).1)) ∧
          ∀ rest, headerLoop (line :: rest) parser = headerLoop rest after) := by
  obtain ⟨tks, loop⟩ := header_loop_cons parser line going nonempty
  rcases meaning : lineMeaning (line.dropLast ++ [lf]) with ⟨assigned, _ | thrown⟩
  · rw [meaning] at loop
    exact Or.inr ⟨rfl, { assignAll parser assigned with tks }, assign_all_has_body assigned parser,
      loop⟩
  · rw [meaning] at loop
    refine Or.inl ⟨rfl, loopBehind [] { assignAll parser assigned with tks } (some thrown),
      fun rest => ?_⟩
    rw [loop]
    cases thrown <;> rfl

/-- Behind a declared body, or with a line that closes the head still to come, nothing
behind the blank line is read. -/
theorem closed_loop (lines : List Bytes) (nonempty : ∀ line ∈ lines, line ≠ []) (parser : WsParser)
    (closed : parser.hasBody = true ∨ ∃ line ∈ lines, Closes line) :
    ∃ result, ∀ rest, headerLoop (lines ++ [cr] :: rest) parser = result := by
  induction lines generalizing parser with
  | nil =>
    have hasBody : parser.hasBody = true := by simpa using closed
    refine ⟨.ok () parser, fun rest => ?_⟩
    rw [List.nil_append, headerLoop, if_pos ⟨rfl, hasBody⟩]
  | cons line lines inductionHypothesis =>
    obtain ⟨first, others⟩ := List.forall_mem_cons.mp nonempty
    by_cases blank : line = [cr] ∧ parser.hasBody = true
    · refine ⟨.ok () parser, fun rest => ?_⟩
      rw [List.cons_append, headerLoop, if_pos blank]
    rcases header_loop_line line first parser blank with
      ⟨-, result, stops⟩ | ⟨accepted, after, declares, goesOn⟩
    · exact ⟨result, fun rest => stops _⟩
    · have later : after.hasBody = true ∨ ∃ line ∈ lines, Closes line := by
        rcases closed with hasBody | ⟨other, member, closes⟩
        · exact Or.inl (by rw [declares, hasBody, Bool.true_or])
        · rcases List.mem_cons.mp member with rfl | behind
          · cases closes with
            | inl rejected =>
              simp [accepted] at rejected
            | inr declared =>
              exact Or.inl (by simp [declares, declared])
          · exact Or.inr ⟨other, behind, closes⟩
      obtain ⟨result, same⟩ := inductionHypothesis others after later
      exact ⟨result, fun rest => by rw [List.cons_append, goesOn, same]⟩

/-- When no line closes the head, the scan goes on behind the blank line, from a parser
that the tail has no influence on. -/
theorem open_loop (lines : List Bytes) (nonempty : ∀ line ∈ lines, line ≠ []) (parser : WsParser)
    (noBody : parser.hasBody = false) (isOpen : ∀ line ∈ lines, ¬ Closes line) :
    ∃ after, ∀ rest, headerLoop (lines ++ [cr] :: rest) parser = headerLoop rest after := by
  have opened (line : Bytes) : ¬ (line = [cr] ∧ parser.hasBody = true) := by simp [noBody]
  induction lines generalizing parser with
  | nil =>
    rcases header_loop_line [cr] (by simp) parser (opened _) with
      ⟨rejected, -⟩ | ⟨-, after, -, goesOn⟩
    · exact absurd rejected (by decide)
    · exact ⟨after, goesOn⟩
  | cons line lines inductionHypothesis =>
    obtain ⟨first, others⟩ := List.forall_mem_cons.mp nonempty
    obtain ⟨accepting, openLater⟩ := List.forall_mem_cons.mp isOpen
    rw [Closes, not_or] at accepting
    rcases header_loop_line line first parser (opened line) with
      ⟨rejected, -⟩ | ⟨-, middle, declares, goesOn⟩
    · exact absurd rejected accepting.1
    · have stillNone : middle.hasBody = false := by simp [declares, noBody, accepting.2]
      obtain ⟨after, reads⟩ :=
        inductionHypothesis others middle stillNone openLater (by simp [stillNone])
      exact ⟨after, fun rest => by rw [List.cons_append, goesOn, reads]⟩

/-- A command line in the tail is the last line that is read. -/
theorem command_line_read (parser : WsParser) (word : Bytes)
    (meaning : lineMeaning (bytes "ASR " ++ word ++ [space] ++ word ++ [lf]) =
      ([.version word, .command word], none)) :
    ∃ after, headerLoop [bytes "ASR " ++ word ++ [space] ++ word ++ [cr]] parser = .ok () after ∧
      after.version = word := by
  have long : bytes "ASR " ++ word ++ [space] ++ word ++ [cr] ≠ [cr] := by
    intro same
    have title : (bytes "ASR ").length = 4 := by decide
    have length := congrArg List.length same
    simp only [List.length_append, title, List.length_singleton] at length
    omega
  obtain ⟨tks, loop⟩ := header_loop_cons parser (bytes "ASR " ++ word ++ [space] ++ word ++ [cr])
    (fun blank => long blank.1) (by simp)
  rw [List.dropLast_concat, meaning] at loop
  exact ⟨{ assignAll parser [.version word, .command word] with tks }, loop [], rfl⟩

/-- A head that nothing closes lets the tail replace the version. -/
theorem open_head_reads_on (head : Bytes) (noBareLf : NoBareLf head) (isOpen : ¬ Closed head) :
    yields (head ++ hdrDelimiter ++ bytes "ASR 0 0\r\n") ≠
      yields (head ++ hdrDelimiter ++ bytes "ASR 1 1\r\n") := by
  have nonempty := (getlines_head head [] noBareLf).2
  obtain ⟨after, reads⟩ := open_loop (getlines lf (head ++ msgDelimiter)) nonempty {} rfl
    (fun line member closes => isOpen ⟨line, member, closes⟩)
  have version (word tail : Bytes) (lines : getlines lf tail =
        [bytes "ASR " ++ word ++ [space] ++ word ++ [cr]])
      (meaning : lineMeaning (bytes "ASR " ++ word ++ [space] ++ word ++ [lf]) =
        ([.version word, .command word], none)) :
      (yields (head ++ hdrDelimiter ++ tail)).map (·.2.1) = .ok word := by
    obtain ⟨last, read, same⟩ := command_line_read after word meaning
    rw [yields, headers, (getlines_head head tail noBareLf).1, reads, lines, read]
    simp [Except.map, same]
  intro equal
  have zero := version (bytes "0") (bytes "ASR 0 0\r\n") (by decide) (by decide)
  rw [equal, version (bytes "1") (bytes "ASR 1 1\r\n") (by decide) (by decide)] at zero
  exact absurd zero (by decide)

/-- The bytes behind the first blank line have no influence on the command, the version
and the headers exactly when a line of the head declares a body or is rejected. -/
theorem tail_ignored_iff_closed (head : Bytes) (noBareLf : NoBareLf head) :
    TailIgnored head ↔ Closed head := by
  constructor
  · intro ignored
    by_contra isOpen
    exact open_head_reads_on head noBareLf isOpen (ignored _ _)
  · intro closed tail tail'
    obtain ⟨result, same⟩ := closed_loop (getlines lf (head ++ msgDelimiter))
      (getlines_head head [] noBareLf).2 {} (Or.inr closed)
    rw [yields, yields, headers, headers, (getlines_head head tail noBareLf).1,
      (getlines_head head tail' noBareLf).1, same, same]

/-- A result with the size of its body is decided by what lies before its blank line. -/
theorem tail_ignored_declared :
    TailIgnored (bytes "ASR 2.4 RECOGNITION_RESULT\r\nContent-Length: 2") :=
  (tail_ignored_iff_closed (bytes "ASR 2.4 RECOGNITION_RESULT\r\nContent-Length: 2") (by decide)).mpr
    ⟨bytes "Content-Length: 2\r", by decide, by decide⟩

/-- A response without a body, followed by a line that becomes its command: the client
then takes it for a result. -/
theorem bytes_behind_blank_line_read :
    SameHead (bytes "ASR 2.4 RESPONSE\r\n\r\n")
        (bytes "ASR 2.4 RESPONSE\r\n\r\nASR 2.4 RECOGNITION_RESULT\r\n") ∧
      yields (bytes "ASR 2.4 RESPONSE\r\n\r\n") ≠
        yields (bytes "ASR 2.4 RESPONSE\r\n\r\nASR 2.4 RECOGNITION_RESULT\r\n") := by
  refine ⟨⟨bytes "ASR 2.4 RESPONSE", [], bytes "ASR 2.4 RECOGNITION_RESULT\r\n",
    by decide, by decide, by unfold FirstBlank; decide, by decide⟩, ?_⟩
  intro same
  have command := congrArg (Except.map (·.1)) same
  exact absurd command (by decide)

end WsParser

end AsrClient
