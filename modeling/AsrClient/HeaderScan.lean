import AsrClient.BlankLine
import AsrClient.BodyFraming
import AsrClient.LineGrammar

/-!
# Where the header loop comes to

The header loop takes one line after the other until it comes to the end of the headers: a
rejected line, or a blank line behind a declared body. The lines that it passes are
described here by the payload alone, and the parser that the loop holds behind them is the
one that has performed their assignments.

From this follows for which payloads the constructor returns. Only the parser's own
exceptions end the loop. A value that `std::stoi` rejects leaves the constructor, and a line
without any character has no last one to remove.
-/

namespace AsrClient

namespace WsParser

open TokenStream

/-- Where the header loop of a payload can be: the parser, and the lines not yet read. -/
inductive Reaches (payload : Bytes) : WsParser → List Bytes → Prop where
  | start : Reaches payload {} (getlines lf payload)
  | next (parser after : WsParser) (line : Bytes) (rest : List Bytes)
      (former : Reaches payload parser (line :: rest))
      (going : ¬ (line = [cr] ∧ parser.hasBody = true)) (filled : line ≠ [])
      (accepted : parseLine (line.dropLast ++ [lf]) parser = .ok () after) :
      Reaches payload after rest

/-- The header loop processes a line: it comes to the line and does not end there. -/
def Processes (payload : Bytes) (parser : WsParser) (line : Bytes) (rest : List Bytes) : Prop :=
  Reaches payload parser (line :: rest) ∧ ¬ (line = [cr] ∧ parser.hasBody = true)

/-- A line whose text, without its last character, spells a statement. -/
def Accepts (line : Bytes) : Prop :=
  ∃ statement : Statement, statement.Spells line.dropLast ∧ statement.Sized

/-- A line that spells a Content-Length header with this number. -/
def DeclaresSize (line : Bytes) (size : Int) : Prop :=
  ∃ value, (Statement.header (bytes "Content-Length") value).Spells line.dropLast ∧
    stoi value = .ok size

/-- The end of the headers is among the lines: one that is not accepted, or a blank one behind
a Content-Length header. -/
def Ended (lines : List Bytes) : Prop :=
  (∃ line ∈ lines, ¬ Accepts line) ∨
    ∃ former latter line size, lines = former ++ [cr] :: latter ∧ line ∈ former ∧
      DeclaresSize line size

/-- Lines that the loop passes: none is empty, and the headers do not end among them. -/
def Passed (lines : List Bytes) : Prop := (∀ line ∈ lines, line ≠ []) ∧ ¬ Ended lines

/-- Malformed input does not escape from the constructor: it returns, and whatever is thrown
while a line is processed ends the header loop. -/
def Contained (payload : Bytes) : Prop :=
  (∃ parser, ofString payload = .ok parser) ∧
    ∀ parser line rest thrown after, Processes payload parser line rest → line ≠ [] →
      parseLine (line.dropLast ++ [lf]) parser = .error thrown after →
        headers payload = .ok () after

/-- Every processed line has a carriage return as its last character. -/
def TerminatorsDropped (payload : Bytes) : Prop :=
  ∀ parser line rest, Processes payload parser line rest → line.getLast? = some cr

/-- A line without its last character has no line feed. -/
theorem line_free {payload line : Bytes} (member : line ∈ getlines lf payload) :
    lf ∉ line.dropLast := fun inside =>
  getlines_free lf payload line member (List.mem_of_mem_dropLast inside)

/-- Accepted lines are those whose meaning throws nothing. -/
theorem accepts_iff (line : Bytes) (free : lf ∉ line.dropLast) :
    Accepts line ↔ (lineMeaning (line.dropLast ++ [lf])).2 = none := by
  constructor
  · rintro ⟨statement, spelled, sized⟩
    rw [spells_meaning statement _ spelled sized]
  · exact accepted_spells line.dropLast free

/-- The size among the assignments of an accepted line is the one it declares. -/
theorem declares_size_iff (line : Bytes) (accepted : Accepts line) (size : Int) :
    size ∈ sizes (lineMeaning (line.dropLast ++ [lf])).1 ↔ DeclaresSize line size := by
  constructor
  · intro member
    obtain ⟨statement, spelled, sized⟩ := accepted
    rw [spells_meaning statement _ spelled sized] at member
    cases statement with
    | blank | command => simp [Statement.assignments, sizes] at member
    | header key value =>
      simp only [Statement.assignments] at member
      split_ifs at member with isLength
      · obtain ⟨number, read⟩ := sized isLength
        subst isLength
        refine ⟨value, spelled, ?_⟩
        rw [read] at member ⊢
        simpa [sizes, eq_comm] using member
      · simp [sizes] at member
  · rintro ⟨value, spelled, read⟩
    rw [spells_meaning _ _ spelled (fun _ => ⟨size, read⟩)]
    simp [Statement.assignments, read, sizes]

/-- An accepted line declares a body by declaring its size. -/
theorem declares_body_iff (line : Bytes) (accepted : Accepts line) :
    .hasBody ∈ (lineMeaning (line.dropLast ++ [lf])).1 ↔ ∃ size, DeclaresSize line size := by
  simp only [← declares_size_iff line accepted]
  cases line_assigns (line.dropLast ++ [lf]) with
  | nothing same | version _ same | command _ _ same | header _ _ same => simp [same, sizes]
  | length text size number same => simp [same, sizes]
  | aborted error same =>
    obtain ⟨statement, spelled, sized⟩ := accepted
    rw [spells_meaning statement _ spelled sized] at same
    exact absurd (congrArg Prod.snd same) (by simp)

/-- Passed lines are accepted. -/
theorem Passed.accepted {lines : List Bytes} (passed : Passed lines) :
    ∀ line ∈ lines, Accepts line := by
  intro line member
  by_contra rejected
  exact passed.2 (Or.inl ⟨line, member, rejected⟩)

/-- Passed lines declare a body when one of them declares its size. -/
theorem Passed.declares_body_iff {lines : List Bytes} (passed : Passed lines) :
    .hasBody ∈ assignments lines ↔ ∃ line ∈ lines, ∃ size, DeclaresSize line size := by
  rw [assignments, List.mem_flatMap]
  apply exists_congr
  intro line
  apply and_congr_right
  intro member
  exact WsParser.declares_body_iff line (passed.accepted line member)

/-- The first of passed lines are passed. -/
theorem Passed.first {lines others : List Bytes} (passed : Passed (lines ++ others)) :
    Passed lines := by
  refine ⟨fun line member => passed.1 line (List.mem_append_left _ member), ?_⟩
  rintro (⟨line, member, rejected⟩ | ⟨former, latter, line, size, whole, member, declares⟩)
  · exact passed.2 (Or.inl ⟨line, List.mem_append_left _ member, rejected⟩)
  · refine passed.2 (Or.inr ⟨former, latter ++ others, line, size, ?_, member, declares⟩)
    rw [whole, List.append_assoc, List.cons_append]

/-- One more line is passed when it is accepted, and is not a blank one behind a declared
body. -/
theorem Passed.append {lines : List Bytes} {line : Bytes} (passed : Passed lines)
    (filled : line ≠ []) (accepted : Accepts line)
    (going : ¬ (line = [cr] ∧ .hasBody ∈ assignments lines)) : Passed (lines ++ [line]) := by
  refine ⟨fun other member => ?_, ?_⟩
  · rcases List.mem_append.mp member with before | last
    · exact passed.1 other before
    · rwa [List.mem_singleton.mp last]
  · rintro (⟨other, member, rejected⟩ | ⟨former, latter, other, size, whole, member, declares⟩)
    · rcases List.mem_append.mp member with before | last
      · exact passed.2 (Or.inl ⟨other, before, rejected⟩)
      · exact rejected (List.mem_singleton.mp last ▸ accepted)
    · rcases List.eq_nil_or_concat latter with rfl | ⟨latter, last, rfl⟩
      · obtain ⟨rfl, isBlank⟩ := List.append_inj' whole rfl
        exact going ⟨List.singleton_inj.mp isBlank,
          passed.declares_body_iff.mpr ⟨other, member, size, declares⟩⟩
      · have split : lines ++ [line] = (former ++ [cr] :: latter) ++ [last] := by
          rw [whole]
          simp
        obtain ⟨rfl, -⟩ := List.append_inj' split rfl
        exact passed.2 (Or.inr ⟨former, latter, other, size, rfl, member, declares⟩)

/-- The parser that has performed the assignments of lines. -/
def behind (lines : List Bytes) (tks : TokenStream) : WsParser :=
  { assignAll {} (assignments lines) with tks }

/-- A parser has a body behind lines that declare one. -/
theorem behind_has_body (lines : List Bytes) (tks : TokenStream) :
    (behind lines tks).hasBody = true ↔ .hasBody ∈ assignments lines := by
  have declared := assign_all_has_body (assignments lines) {}
  rw [behind, declared]
  simp

/-- One more line performs its own assignments behind those of the others. -/
theorem behind_append (lines : List Bytes) (line : Bytes) (tks tks' : TokenStream) :
    { assignAll (behind lines tks) (lineMeaning (line.dropLast ++ [lf])).1 with tks := tks' } =
      behind (lines ++ [line]) tks' := by
  have whole : assignments (lines ++ [line]) =
      assignments lines ++ (lineMeaning (line.dropLast ++ [lf])).1 := by simp [assignments]
  rw [behind, behind, whole, assign_all_tks]
  simp only [assignAll, List.foldl_append]

/-- The loop goes on from wherever it is. -/
theorem Reaches.loop {payload : Bytes} {parser : WsParser} {rest : List Bytes}
    (reached : Reaches payload parser rest) : headers payload = headerLoop rest parser := by
  induction reached with
  | start => rfl
  | next parser after line rest _ going filled accepted inductionHypothesis =>
    rw [inductionHypothesis, headerLoop, if_neg going, if_neg filled, accepted]

/-- A line leaves its assignments when it is accepted. -/
theorem parse_line_accepted (parser : WsParser) (line : Bytes) (after : WsParser)
    (parsed : parseLine line parser = .ok () after) :
    (lineMeaning line).2 = none ∧
      ∃ tks, after = { assignAll parser (lineMeaning line).1 with tks } := by
  obtain ⟨tks, exact⟩ := parse_line_exact parser line
  rw [exact, conclude] at parsed
  cases thrown : (lineMeaning line).2 with
  | none =>
    rw [thrown] at parsed
    cases parsed
    exact ⟨rfl, tks, rfl⟩
  | some thrown' =>
    rw [thrown] at parsed
    cases parsed

/-- Wherever the loop is, it has passed the lines before, and performed their assignments.
The induction is on the run. -/
theorem Reaches.passed {payload : Bytes} {parser : WsParser} {rest : List Bytes}
    (reached : Reaches payload parser rest) :
    ∃ before tks, getlines lf payload = before ++ rest ∧ Passed before ∧
      parser = behind before tks := by
  induction reached with
  | start =>
    refine ⟨[], {}, rfl, ⟨List.forall_mem_nil _, ?_⟩, rfl⟩
    rintro (⟨line, member, -⟩ | ⟨former, latter, line, size, whole, -⟩)
    · cases member
    · simp at whole
  | next parser after line rest _ going filled accepted inductionHypothesis =>
    obtain ⟨before, tks, whole, passed, rfl⟩ := inductionHypothesis
    obtain ⟨thrown, stream, rfl⟩ := parse_line_accepted _ _ _ accepted
    have member : line ∈ getlines lf payload := by simp [whole]
    refine ⟨before ++ [line], stream, by simp [whole], ?_, behind_append before line tks stream⟩
    apply passed.append filled ((accepts_iff line (line_free member)).mpr thrown)
    rwa [behind_has_body] at going

/-- From a line that it comes to, the loop performs its assignments and does what follows from
its exception. -/
theorem Processes.loop {payload : Bytes} {parser : WsParser} {line : Bytes} {rest : List Bytes}
    (processed : Processes payload parser line rest) (filled : line ≠ []) :
    ∃ tks, headers payload =
      loopBehind rest { assignAll parser (lineMeaning (line.dropLast ++ [lf])).1 with tks }
        (lineMeaning (line.dropLast ++ [lf])).2 := by
  obtain ⟨reached, going⟩ := processed
  obtain ⟨tks, loop⟩ := header_loop_cons parser line going filled
  exact ⟨tks, reached.loop.trans (loop rest)⟩

/-- The loop comes to what is behind a line that throws nothing. -/
theorem Processes.next {payload : Bytes} {parser : WsParser} {line : Bytes} {rest : List Bytes}
    (processed : Processes payload parser line rest) (filled : line ≠ [])
    (thrown : (lineMeaning (line.dropLast ++ [lf])).2 = none) :
    ∃ tks, Reaches payload
      { assignAll parser (lineMeaning (line.dropLast ++ [lf])).1 with tks } rest := by
  obtain ⟨reached, going⟩ := processed
  obtain ⟨tks, exact⟩ := parse_line_exact parser (line.dropLast ++ [lf])
  rw [conclude, thrown] at exact
  exact ⟨tks, .next parser _ line rest reached going filled exact⟩

/-- The loop comes to the end of all lines that can be passed. The induction takes the last
of them. -/
theorem Passed.reached {payload : Bytes} {before rest : List Bytes} (passed : Passed before)
    (whole : getlines lf payload = before ++ rest) :
    ∃ tks, Reaches payload (behind before tks) rest := by
  induction before using List.reverseRecOn generalizing rest with
  | nil => exact ⟨{}, by rw [← List.nil_append rest, ← whole]; exact .start⟩
  | append_singleton before line inductionHypothesis =>
    have split : getlines lf payload = before ++ line :: rest := by simp [whole]
    obtain ⟨tks, former⟩ := inductionHypothesis passed.first split
    have member : line ∈ getlines lf payload := by simp [split]
    have thrown := (accepts_iff line (line_free member)).mp (passed.accepted line (by simp))
    have going : ¬ (line = [cr] ∧ (behind before tks).hasBody = true) := by
      rintro ⟨rfl, hasBody⟩
      obtain ⟨other, earlier, size, declares⟩ :=
        passed.first.declares_body_iff.mp ((behind_has_body before tks).mp hasBody)
      exact passed.2 (Or.inr ⟨before, [], other, size, rfl, earlier, declares⟩)
    have processed : Processes payload (behind before tks) line rest := ⟨former, going⟩
    obtain ⟨stream, next⟩ := processed.next (passed.1 line (by simp)) thrown
    rw [behind_append before line tks stream] at next
    exact ⟨stream, next⟩

/-- An end of the headers stays among more lines. -/
theorem Ended.append {lines : List Bytes} (ended : Ended lines) (others : List Bytes) :
    Ended (lines ++ others) := by
  rcases ended with ⟨line, member, rejected⟩ | ⟨former, latter, line, size, rfl, member, declares⟩
  · exact Or.inl ⟨line, List.mem_append_left _ member, rejected⟩
  · exact Or.inr ⟨former, latter ++ others, line, size, by simp, member, declares⟩

/-- No line of a kind is processed exactly when all lines of that kind stand behind the end
of the headers. An empty line is of that kind, so that the first of them would be processed. -/
theorem unprocessed_iff (payload : Bytes) (bad : Bytes → Prop) (empty : bad []) (blank : ¬ bad [cr]) :
    (∀ parser line rest, Processes payload parser line rest → ¬ bad line) ↔
      ∀ before line rest, getlines lf payload = before ++ line :: rest → bad line → Ended before := by
  constructor
  · intro never before line rest whole isBad
    by_contra going
    -- The first empty line is a bad one itself.
    have processed (before : List Bytes) (line : Bytes) (rest : List Bytes)
        (whole : getlines lf payload = before ++ line :: rest) (isBad : bad line)
        (passed : Passed before) : False := by
      obtain ⟨tks, reached⟩ := passed.reached whole
      refine never _ line rest ⟨reached, ?_⟩ isBad
      rintro ⟨rfl, -⟩
      exact blank isBad
    by_cases filled : [] ∈ before
    · obtain ⟨former, latter, rfl, first⟩ := List.eq_append_cons_of_mem filled
      refine processed former [] (latter ++ line :: rest) (by simp [whole]) empty ⟨?_, ?_⟩
      · rintro other member rfl
        exact first member
      · exact fun ended => going (ended.append _)
    · refine processed before line rest whole isBad ⟨?_, going⟩
      rintro other member rfl
      exact filled member
  · rintro behindEnd parser line rest ⟨reached, -⟩ isBad
    obtain ⟨before, tks, whole, passed, -⟩ := reached.passed
    exact passed.2 (behindEnd before line rest whole isBad)

/-- Every processed line loses a carriage return and nothing else exactly when all lines that
do not end with one stand behind the end of the headers. -/
theorem terminators_dropped_iff (payload : Bytes) :
    TerminatorsDropped payload ↔
      ∀ before line rest, getlines lf payload = before ++ line :: rest →
        line.getLast? ≠ some cr → Ended before := by
  rw [← unprocessed_iff payload (fun line => line.getLast? ≠ some cr) (by simp) (by simp)]
  simp only [TerminatorsDropped, ne_eq, Decidable.not_not]

/-- A last line without any terminator loses the last letter of its command. -/
theorem unterminated_line_loses_letter :
    ¬ TerminatorsDropped (bytes "ASR 2.4 RESPONSE") ∧
      ∃ parser, ofString (bytes "ASR 2.4 RESPONSE") = .ok parser ∧
        parser.command = bytes "RESPONS" := by
  constructor
  · intro dropped
    have first : Processes (bytes "ASR 2.4 RESPONSE") {} (bytes "ASR 2.4 RESPONSE") [] :=
      ⟨.start, by decide⟩
    exact absurd (dropped _ _ _ first) (by decide)
  · exact ⟨_, rfl, by decide⟩

/-- The loop throws nothing where it comes to no empty and no misstated line. The induction is
on the lines left. -/
theorem Reaches.ends {payload : Bytes} {parser : WsParser} {rest : List Bytes}
    (reached : Reaches payload parser rest)
    (fine : ∀ parser line rest, Processes payload parser line rest →
      line ≠ [] ∧ ¬ Misstated line.dropLast) : ∃ after, headers payload = .ok () after := by
  induction rest generalizing parser with
  | nil => exact ⟨parser, by rw [reached.loop, headerLoop]⟩
  | cons line rest inductionHypothesis =>
    by_cases blank : line = [cr] ∧ parser.hasBody = true
    · exact ⟨parser, by rw [reached.loop, headerLoop, if_pos blank]⟩
    have processed : Processes payload parser line rest := ⟨reached, blank⟩
    obtain ⟨filled, stated⟩ := fine parser line rest processed
    obtain ⟨before, -, whole, -⟩ := reached.passed
    have member : line ∈ getlines lf payload := by simp [whole]
    rcases line_thrown line.dropLast (line_free member) with accepted | ⟨err, rejected⟩ | misstated
    · obtain ⟨tks, next⟩ := processed.next filled accepted
      exact inductionHypothesis next
    · obtain ⟨tks, loop⟩ := processed.loop filled
      rw [rejected] at loop
      exact ⟨_, loop⟩
    · exact absurd misstated stated

/-- The loop throws where it comes to an empty or a misstated line. -/
theorem Processes.throws {payload : Bytes} {parser : WsParser} {line : Bytes} {rest : List Bytes}
    (processed : Processes payload parser line rest) (bad : line = [] ∨ Misstated line.dropLast) :
    ∃ thrown after, headers payload = .error thrown after := by
  by_cases empty : line = []
  · obtain ⟨reached, going⟩ := processed
    rw [reached.loop, headerLoop, if_neg going, if_pos empty]
    exact ⟨_, _, rfl⟩
  · obtain ⟨error, thrown⟩ := misstated_thrown (bad.resolve_left empty)
    obtain ⟨tks, loop⟩ := processed.loop empty
    rw [thrown] at loop
    exact ⟨_, _, loop⟩

/-- Where the header loop ended: the parser has performed the assignments of some first lines
of the payload. All but the last of them are passed, and then come the end of the payload or
the end of the headers. -/
structure Finished (payload : Bytes) (lines latter : List Bytes) : Prop where
  whole : getlines lf payload = lines ++ latter
  going : ∀ former line others, lines = former ++ line :: others → ¬ Ended former
  final : latter = [] ∨ Ended lines ∨ ∃ others, latter = [cr] :: others ∧ Ended (lines ++ [[cr]])

/-- The headers do not end among the first of passed lines. -/
theorem Passed.going {lines former : List Bytes} (passed : Passed lines) (first : former <+: lines) :
    ¬ Ended former := by
  obtain ⟨others, rfl⟩ := first
  exact passed.first.2

/-- With all lines passed, the loop finishes at the end of the payload. -/
theorem Passed.finished {payload : Bytes} {lines : List Bytes} (passed : Passed lines)
    (whole : getlines lf payload = lines) : Finished payload lines [] := by
  refine ⟨by rw [whole, List.append_nil], ?_, Or.inl rfl⟩
  rintro former line others rfl
  exact passed.going (List.prefix_append _ _)

/-- Behind passed lines, the loop finishes in front of a blank line that ends the headers. -/
theorem Passed.finished_blank {payload : Bytes} {lines rest : List Bytes} (passed : Passed lines)
    (whole : getlines lf payload = lines ++ [cr] :: rest) (ended : Ended (lines ++ [[cr]])) :
    Finished payload lines ([cr] :: rest) := by
  refine ⟨whole, ?_, Or.inr (Or.inr ⟨rest, rfl, ended⟩)⟩
  rintro former line others rfl
  exact passed.going (List.prefix_append _ _)

/-- Behind passed lines, the loop finishes with a line that is not accepted. -/
theorem Passed.finished_rejected {payload : Bytes} {lines rest : List Bytes} {line : Bytes}
    (passed : Passed lines) (whole : getlines lf payload = lines ++ line :: rest)
    (rejected : ¬ Accepts line) : Finished payload (lines ++ [line]) rest := by
  refine ⟨by simp [whole], ?_, Or.inr (Or.inl (Or.inl ⟨line, by simp, rejected⟩))⟩
  intro former other others split
  have first : former <+: lines ++ [line] := ⟨other :: others, split.symm⟩
  rcases List.prefix_concat_iff.mp first with rfl | shorter
  · simp at split
  · exact passed.going shorter

/-- A loop that ends has finished somewhere. The induction is on the lines left. -/
theorem Reaches.finished {payload : Bytes} {parser after : WsParser} {rest : List Bytes}
    (reached : Reaches payload parser rest) (ended : headers payload = .ok () after) :
    ∃ lines latter tks, Finished payload lines latter ∧ after = behind lines tks := by
  induction rest generalizing parser with
  | nil =>
    obtain ⟨before, tks, whole, passed, rfl⟩ := reached.passed
    rw [reached.loop, headerLoop] at ended
    cases ended
    exact ⟨before, [], tks, passed.finished (by rw [whole, List.append_nil]), rfl⟩
  | cons line rest inductionHypothesis =>
    obtain ⟨before, tks, whole, passed, rfl⟩ := reached.passed
    by_cases blank : line = [cr] ∧ (behind before tks).hasBody = true
    · rw [reached.loop, headerLoop, if_pos blank] at ended
      cases ended
      obtain ⟨rfl, hasBody⟩ := blank
      obtain ⟨other, member, size, declares⟩ :=
        passed.declares_body_iff.mp ((behind_has_body before tks).mp hasBody)
      have final : Ended (before ++ [[cr]]) := Or.inr ⟨before, [], other, size, rfl, member, declares⟩
      exact ⟨before, [cr] :: rest, tks, passed.finished_blank whole final, rfl⟩
    have processed : Processes payload (behind before tks) line rest := ⟨reached, blank⟩
    have filled : line ≠ [] := by
      intro empty
      obtain ⟨thrown, state, escaped⟩ := processed.throws (Or.inl empty)
      cases escaped.symm.trans ended
    obtain ⟨stream, loop⟩ := processed.loop filled
    rcases loop_behind_ok (loop.symm.trans ended) with ⟨accepted, -⟩ | ⟨⟨err, thrown⟩, rfl⟩
    · obtain ⟨_, next⟩ := processed.next filled accepted
      exact inductionHypothesis next
    · have member : line ∈ getlines lf payload := by simp [whole]
      have rejected : ¬ Accepts line := by
        rw [accepts_iff line (line_free member), thrown]
        exact Option.some_ne_none _
      exact ⟨before ++ [line], rest, stream, passed.finished_rejected whole rejected,
        behind_append before line tks stream⟩

/-- A line that stands before the end of the headers is among those that are performed,
unless it is blank. -/
theorem Finished.performed {payload : Bytes} {lines latter : List Bytes}
    (finished : Finished payload lines latter) (before : List Bytes) (line : Bytes)
    (rest : List Bytes) (whole : getlines lf payload = before ++ line :: rest)
    (going : ¬ Ended before) (notBlank : line ≠ [cr]) : line ∈ lines := by
  have same : lines ++ latter = before ++ line :: rest := finished.whole.symm.trans whole
  rcases List.append_eq_append_iff.mp same with ⟨middle, rfl, later⟩ | ⟨middle, rfl, later⟩
  · -- The line stands behind the performed ones, which have not ended the headers.
    rcases finished.final with rfl | ended | ⟨others, rfl, ended⟩
    · simp at later
    · exact absurd (ended.append middle) going
    · cases middle with
      | nil => exact absurd (List.cons.inj later).1.symm notBlank
      | cons first middle =>
        obtain ⟨rfl, -⟩ := List.cons.inj later
        refine absurd ?_ going
        have more := ended.append middle
        rwa [List.append_assoc, List.singleton_append] at more
  · cases middle with
    | nil =>
      rw [List.nil_append] at later
      rcases finished.final with rfl | ended | ⟨others, rfl, -⟩
      · cases later
      · rw [List.append_nil] at ended
        exact absurd ended going
      · exact absurd (List.cons.inj later).1 notBlank
    | cons first middle =>
      obtain ⟨rfl, -⟩ := List.cons.inj later
      simp

/-- The constructor returns when the header loop ends, and the declared size, as an unsigned
64-bit number, is at most the length of the payload. -/
theorem of_string_returns_iff (payload : Bytes) :
    (∃ parser, ofString payload = .ok parser) ↔
      (∃ after, headers payload = .ok () after) ∧
        ∀ size, contentLength payload = some size → size % 2 ^ 64 ≤ (payload.length : Int) := by
  by_cases empty : payload = []
  · subst empty
    exact iff_of_true ⟨_, rfl⟩ ⟨⟨_, rfl⟩, fun size declared => absurd declared (by simp [contentLength,
      getlines, declaredSize])⟩
  rw [ofString, if_neg empty]
  have declares := headers_declare payload
  cases ended : headers payload with
  | error thrown after => simp
  | ok _ after =>
    rw [ended] at declares
    cases declared : contentLength payload with
    | none =>
      have noBody : after.hasBody = false := by rw [declares.body, declared]; rfl
      simp [noBody]
    | some size =>
      have hasBody : after.hasBody = true := by rw [declares.body, declared]; rfl
      have converted : (after.sizeBody.toNat : Int) = size % 2 ^ 64 := by
        rw [declares.size size declared, size_of_declared]
      have taken := body_loop_defined_iff payload after.sizeBody.toNat after.body
      rw [body_indices_inside_iff _ _ after.sizeBody.toNat_lt] at taken
      have within : after.sizeBody.toNat ≤ payload.length ↔
          ∀ other, some size = some other → other % 2 ^ 64 ≤ (payload.length : Int) := by
        simp only [Option.some.injEq, forall_eq']
        omega
      rw [← within, ← taken]
      simp only [hasBody, if_true]
      cases bodyLoop payload after.sizeBody.toNat after.body <;> simp [Except.map]

/-- Malformed input stays inside of the constructor exactly when all empty lines, and all
Content-Length headers whose value `std::stoi` rejects, stand behind the end of the headers,
and the payload is as long as it declares its body to be. -/
theorem contained_iff (payload : Bytes) :
    Contained payload ↔
      (∀ before line rest, getlines lf payload = before ++ line :: rest →
          line = [] ∨ Misstated line.dropLast → Ended before) ∧
        ∀ size, contentLength payload = some size → size % 2 ^ 64 ≤ (payload.length : Int) := by
  have unstated : ¬ Misstated ([cr] : Bytes).dropLast := by
    intro misstated
    obtain ⟨error, thrown⟩ := misstated_thrown misstated
    have accepted : (lineMeaning (([cr] : Bytes).dropLast ++ [lf])).2 = none := by decide
    cases accepted.symm.trans thrown
  rw [Contained, of_string_returns_iff,
    ← unprocessed_iff payload (fun line => line = [] ∨ Misstated line.dropLast) (Or.inl rfl)
      (fun bad => unstated (bad.resolve_left (by simp)))]
  constructor
  · rintro ⟨⟨⟨after, ended⟩, within⟩, -⟩
    refine ⟨fun parser line rest processed bad => ?_, within⟩
    obtain ⟨thrown, state, escaped⟩ := processed.throws bad
    rw [escaped] at ended
    cases ended
  · rintro ⟨fine, within⟩
    have ends : ∃ after, headers payload = .ok () after := Reaches.start.ends fun parser line rest
      processed => not_or.mp (fine parser line rest processed)
    refine ⟨⟨ends, within⟩, ?_⟩
    intro parser line rest thrown after ⟨reached, going⟩ filled raised
    obtain ⟨final, ended⟩ := ends
    rw [reached.loop, headerLoop, if_neg going, if_neg filled, raised] at ended ⊢
    cases thrown with
    | parser err => rfl
    | stoi error => cases ended
    | undefined => cases ended

/-- A Content-Length header without a number throws out of the constructor. -/
theorem nonnumeric_length_escapes :
    ofString (bytes "Content-Length: x\r\n") = .error (.stoi .invalidArgument) ∧
      ¬ Contained (bytes "Content-Length: x\r\n") := by
  have escaped : ofString (bytes "Content-Length: x\r\n") = .error (.stoi .invalidArgument) := rfl
  refine ⟨escaped, ?_⟩
  rintro ⟨⟨parser, constructed⟩, -⟩
  rw [escaped] at constructed
  cases constructed

end WsParser

end AsrClient
