import AsrClient.HeaderScan
import AsrClient.Recognizer.Handlers

/-!
# The word that the handlers look for

`consume` rebuilds the start line from a fixed version and the command that was parsed, and
every handler of the chain splits it at the blanks and reads the third piece. A command is a
word without blanks, so that it is this piece. Without a command the start line ends with a
blank; splitting drops the empty piece behind it, and the third one does not exist.
-/

namespace AsrClient

open TokenStream WsParser

/-- The start line of a decoded payload has three words, and the third of them is the command
that was parsed. -/
def DispatchDefined (payload : Bytes) : Prop :=
  ∀ parser response, ofString payload = .ok parser →
    ASRMessageResponse.consume payload = .ok response →
      3 ≤ (split response.startLine space).length ∧ methodWord response = some parser.command

/-- A line before the end of the headers shows a command, whether or not the line is accepted. -/
def Commanded (payload : Bytes) : Prop :=
  ∃ before line rest version name behind, getlines lf payload = before ++ line :: rest ∧
    ¬ Ended before ∧ ShowsCommand line.dropLast version name behind

/-- A last piece without the delimiter is read as it is. -/
theorem getlines_last (delim : Byte) (piece : Bytes) (free : delim ∉ piece) (nonempty : piece ≠ []) :
    getlines delim piece = [piece] := by
  obtain ⟨first, tail, rfl⟩ := List.exists_cons_of_ne_nil nonempty
  induction tail generalizing first with
  | nil =>
    rw [getlines, if_neg (by simpa [eq_comm] using free)]
    rfl
  | cons second tail inductionHypothesis =>
    obtain ⟨other, later⟩ := List.ne_and_not_mem_of_not_mem_cons free
    rw [getlines, if_neg other.symm, inductionHypothesis second later (by simp)]

/-- The start line of a word as the command splits into three pieces. -/
theorem split_start_line (command : Bytes) (free : space ∉ command) (nonempty : command ≠ []) :
    split (bytes "ASR 2.4 " ++ command) space = [bytes "ASR", bytes "2.4", command] := by
  have whole : bytes "ASR 2.4 " ++ command =
      bytes "ASR" ++ space :: (bytes "2.4" ++ space :: command) := rfl
  rw [split, whole, getlines_first space _ _ (by decide), getlines_first space _ _ (by decide),
    getlines_last space command free nonempty]

/-- A command is one of those assigned, or the former one when none is. -/
theorem assign_all_command (assigned : List Assignment) (parser : WsParser) :
    (∃ name, .command name ∈ assigned ∧ (assignAll parser assigned).command = name) ∨
      (∀ name, .command name ∉ assigned) ∧ (assignAll parser assigned).command = parser.command := by
  induction assigned using List.reverseRecOn with
  | nil => exact Or.inr ⟨fun name => List.not_mem_nil, rfl⟩
  | append_singleton assigned last inductionHypothesis =>
    have step : assignAll parser (assigned ++ [last]) = assign (assignAll parser assigned) last := by
      simp [assignAll]
    rw [step]
    cases last with
    | command name => exact Or.inl ⟨name, by simp, rfl⟩
    | version | hasBody | sizeBody | insert => simpa [assign] using inductionHypothesis

/-- The command of a line is the one that it shows. -/
theorem command_assigned_iff (line : Bytes) (free : lf ∉ line) (name : Bytes) :
    .command name ∈ (lineMeaning (line ++ [lf])).1 ↔
      ∃ version behind, ShowsCommand line version name behind := by
  constructor
  · intro member
    have shows := line_shows line free
    generalize lineMeaning (line ++ [lf]) = meaning at shows member
    cases shows with
    | blank | nothing => cases member
    | version => simp at member
    | command version name' behind shown =>
      rw [terminated_assignments] at member
      obtain rfl : name = name' := by simpa using member
      exact ⟨version, behind, shown⟩
    | header key value rest mode shown =>
      rw [headerMeaning] at member
      split_ifs at member
      · cases number : stoi value <;> simp [number] at member
      · simp at member
  · rintro ⟨version, behind, shown⟩
    rw [command_shown shown, terminated_assignments]
    exact List.mem_cons_of_mem _ (List.mem_singleton_self _)

/-- A shown command is a word without blanks. -/
theorem ShowsCommand.name_word {line version name behind : Bytes}
    (shown : ShowsCommand line version name behind) : name ≠ [] ∧ space ∉ name := by
  obtain ⟨_, -, leads, -⟩ := shown
  obtain ⟨first, tail, rfl, -⟩ := leads.word.begins
  refine ⟨List.cons_ne_nil _ _, fun member => ?_⟩
  exact absurd (leads.word.inWord space member) (by decide)

/-- The constructor keeps the command that the header loop has set. -/
theorem of_string_command (payload : Bytes) (parser : WsParser)
    (constructed : ofString payload = .ok parser) :
    ∃ after, headers payload = .ok () after ∧ parser.command = after.command := by
  have yielded := of_string_yields payload parser constructed
  rw [yields] at yielded
  cases ended : headers payload with
  | error thrown after => simp [ended] at yielded
  | ok _ after =>
    rw [ended] at yielded
    exact ⟨after, rfl, (congrArg Prod.fst (Except.ok.inj yielded)).symm⟩

/-- The command is a shown one when there is any, and empty otherwise. -/
theorem command_cases (payload : Bytes) (parser : WsParser)
    (constructed : ofString payload = .ok parser) :
    (Commanded payload ∧ parser.command ≠ [] ∧ space ∉ parser.command) ∨
      (¬ Commanded payload ∧ parser.command = []) := by
  obtain ⟨after, ended, command⟩ := of_string_command payload parser constructed
  obtain ⟨lines, latter, tks, finished, rfl⟩ := Reaches.start.finished ended
  have member {line : Bytes} (inside : line ∈ lines) : lf ∉ line.dropLast :=
    line_free (by rw [finished.whole]; exact List.mem_append_left _ inside)
  rw [command]
  rcases assign_all_command (assignments lines) {} with ⟨name, assigned, same⟩ | ⟨none, same⟩
  · obtain ⟨line, inside, made⟩ := List.mem_flatMap.mp assigned
    obtain ⟨version, rest, shown⟩ := (command_assigned_iff _ (member inside) name).mp made
    obtain ⟨former, others, split⟩ := List.append_of_mem inside
    refine Or.inl ⟨⟨former, line, others ++ latter, version, name, rest, ?_, ?_, shown⟩, ?_⟩
    · simp [finished.whole, split]
    · exact finished.going former line others split
    · exact same ▸ shown.name_word
  · refine Or.inr ⟨?_, same⟩
    rintro ⟨before, line, rest, version, name, behind, whole, going, shown⟩
    have notBlank : line ≠ [cr] := by
      rintro rfl
      obtain ⟨titled, ⟨_, title, -⟩, -⟩ := shown
      obtain ⟨blanks, -, shape⟩ := title.shape
      simp [bytes] at shape
    have inside := finished.performed before line rest whole going notBlank
    apply none name
    exact List.mem_flatMap.mpr ⟨line, inside,
      (command_assigned_iff _ (member inside) name).mpr ⟨version, behind, shown⟩⟩

/-- The handlers find the parsed command in the third word of the start line exactly when a
line before the end of the headers shows a command. -/
theorem dispatch_defined_iff (payload : Bytes) (parser : WsParser)
    (constructed : ofString payload = .ok parser) : DispatchDefined payload ↔ Commanded payload := by
  have consumed : ASRMessageResponse.consume payload = .ok
      { startLine := bytes "ASR 2.4 " ++ parser.command
        headers := parser.props
        extra := parser.body } := by
    rw [ASRMessageResponse.consume, constructed]
    rfl
  constructor
  · intro defined
    rcases command_cases payload parser constructed with ⟨commanded, -⟩ | ⟨-, empty⟩
    · exact commanded
    · have long := (defined parser _ constructed consumed).1
      rw [empty] at long
      exact absurd long (show ¬ 3 ≤ (split (bytes "ASR 2.4 " ++ []) space).length by decide)
  · intro commanded parser' response constructed' consumed'
    obtain rfl : parser = parser' := Except.ok.inj (constructed.symm.trans constructed')
    obtain rfl := Except.ok.inj (consumed.symm.trans consumed')
    rcases command_cases payload parser constructed with ⟨-, nonempty, free⟩ | ⟨none, -⟩
    · have words := split_start_line parser.command free nonempty
      rw [methodWord, words]
      exact ⟨Nat.le_refl 3, rfl⟩
    · exact absurd commanded none

/-- A payload with headers only makes the first handler read past the end. -/
theorem headers_only_dispatch_undefined :
    (∃ parser, ofString (bytes "Handle: 1\r\n") = .ok parser) ∧
      ¬ DispatchDefined (bytes "Handle: 1\r\n") := by
  refine ⟨⟨_, rfl⟩, fun defined => ?_⟩
  exact absurd (defined _ _ rfl rfl).1 (by decide)

/-- A start line alone is dispatched. -/
theorem start_line_dispatch_defined : DispatchDefined (bytes "ASR 2.4 RESPONSE\r\n") := by
  have blank : Blank [space] := List.forall_mem_singleton.mpr rfl
  have shown : ShowsCommand (bytes "ASR 2.4 RESPONSE") (bytes "2.4") (bytes "RESPONSE") [] :=
    spelled_command [] [space] [space] [] (bytes "2.4") (bytes "RESPONSE")
      ⟨List.forall_mem_nil _, blank, blank, List.forall_mem_nil _⟩ ⟨by decide, by decide⟩
      ⟨by decide, List.all_eq_true.mp (by decide), by decide⟩
      ⟨by decide, List.all_eq_true.mp (by decide), by decide⟩
  apply (dispatch_defined_iff (bytes "ASR 2.4 RESPONSE\r\n") _ rfl).mpr
  refine ⟨[], bytes "ASR 2.4 RESPONSE\r", [], bytes "2.4", bytes "RESPONSE", [], by decide, ?_, shown⟩
  rintro (⟨line, member, -⟩ | ⟨former, latter, line, size, whole, -⟩)
  · cases member
  · simp at whole

end AsrClient
