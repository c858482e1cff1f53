import AsrClient.LineGrammar

/-!
# What a rejected line leaves behind

A line that the parser rejects may have assigned fields before the part at which it is
rejected: the version before the command is read, the command before the end of the line is,
and a header as soon as its value is complete. Nothing takes these assignments back.

A rejected line therefore leaves the fields as they were exactly when what it shows up to that
part is in force already.
-/

namespace AsrClient

namespace WsParser

open TokenStream

/-- The fields of the message are the same, wherever the lexer stands. -/
def SameFields (parser after : WsParser) : Prop :=
  parser.version = after.version ∧ parser.command = after.command ∧
    parser.hasBody = after.hasBody ∧ parser.sizeBody = after.sizeBody ∧ parser.props = after.props

/-- Whatever a line shows of a command or of a header is in force already: the words of the
command are those of the parser, the key is in the map, and a Content-Length has the size
that was declared. -/
structure InForce (parser : WsParser) (line : Bytes) : Prop where
  version : ∀ version behind, ShowsVersion line version behind → parser.version = version
  command : ∀ version name behind, ShowsCommand line version name behind → parser.command = name
  key : ∀ key value rest mode, ShowsHeader line key value rest mode → key ∈ parser.props
  length : ∀ value rest mode size, ShowsHeader line (bytes "Content-Length") value rest mode →
    stoi value = .ok size → parser.hasBody = true ∧ parser.sizeBody = UInt64.ofInt size

/-- An assignment that changes nothing. -/
def Holds (parser : WsParser) : Assignment → Prop
  | .version value => parser.version = value
  | .command value => parser.command = value
  | .hasBody => parser.hasBody = true
  | .sizeBody size => parser.sizeBody = UInt64.ofInt size
  | .insert key _ => key ∈ parser.props

/-- A key is inserted without effect exactly when it is present. -/
theorem insert_same_iff (props : HeaderMap) (key value : Bytes) :
    props = props.insertIfNew key value ↔ key ∈ props := by
  constructor
  · intro same
    rw [same]
    exact Std.ExtTreeMap.mem_insertIfNew_self
  · intro present
    apply Std.ExtTreeMap.ext_getElem?
    intro other
    rw [Std.ExtTreeMap.getElem?_insertIfNew, if_neg]
    rintro ⟨same, absent⟩
    obtain rfl : key = other := by simpa using same
    exact absent present

/-- The assignments of a line change nothing exactly when each of them does not: no two of
them are for the same field. -/
theorem same_fields_iff (line : Bytes) (parser : WsParser) (tks : TokenStream) :
    SameFields parser { assignAll parser (lineMeaning line).1 with tks } ↔
      ∀ assignment ∈ (lineMeaning line).1, Holds parser assignment := by
  cases line_assigns line with
  | nothing same => simp [same, assignAll, SameFields]
  | version text same => simp [same, assignAll, assign, SameFields, Holds]
  | command text name same => simp [same, assignAll, assign, SameFields, Holds]
  | header key text same => simp [same, assignAll, assign, SameFields, Holds, insert_same_iff]
  | length text size number same =>
    simp [same, assignAll, assign, SameFields, Holds, insert_same_iff]
  | aborted error same => simp [same, assignAll, assign, SameFields, Holds]

/-- The header of a line that `std::stoi` does not reject is assigned. -/
theorem header_assigned {line key value rest : Bytes} {mode : Bool} {err : String}
    (rejected : (lineMeaning (line ++ [lf])).2 = some (.parser err))
    (shown : ShowsHeader line key value rest mode) :
    .insert key value ∈ (lineMeaning (line ++ [lf])).1 ∧
      (key = bytes "Content-Length" → .hasBody ∈ (lineMeaning (line ++ [lf])).1 ∧
        ∀ size, stoi value = .ok size → .sizeBody size ∈ (lineMeaning (line ++ [lf])).1) := by
  rw [header_shown shown, headerMeaning] at rejected ⊢
  split_ifs at rejected ⊢ with isLength
  · cases number : stoi value with
    | error error => simp [number] at rejected
    | ok size => simp
  · simp [isLength]

/-- What a rejected line shows is what it has assigned. -/
theorem in_force_iff (line : Bytes) (free : lf ∉ line) (parser : WsParser) (err : String)
    (rejected : (lineMeaning (line ++ [lf])).2 = some (.parser err)) :
    InForce parser line ↔
      ∀ assignment ∈ (lineMeaning (line ++ [lf])).1, Holds parser assignment := by
  constructor
  · intro inForce
    have shows := line_shows line free
    generalize lineMeaning (line ++ [lf]) = meaning at shows rejected ⊢
    cases shows with
    | blank | nothing => exact List.forall_mem_nil _
    | version version behind _ shown =>
      exact List.forall_mem_singleton.mpr (inForce.version version behind shown)
    | command version name behind shown =>
      obtain ⟨rest, first, -⟩ := id shown
      rw [terminated_assignments]
      exact List.forall_mem_cons.mpr ⟨inForce.version version rest first,
        List.forall_mem_singleton.mpr (inForce.command version name behind shown)⟩
    | header key value rest mode shown =>
      have present : key ∈ parser.props := inForce.key key value rest mode shown
      rw [headerMeaning] at rejected ⊢
      split_ifs at rejected ⊢ with isLength
      · subst isLength
        cases number : stoi value with
        | error error => simp [number] at rejected
        | ok size =>
          obtain ⟨hasBody, sizeBody⟩ := inForce.length value rest mode size shown number
          rw [terminated_assignments]
          exact List.forall_mem_cons.mpr ⟨hasBody, List.forall_mem_cons.mpr ⟨sizeBody,
            List.forall_mem_singleton.mpr present⟩⟩
      · rw [terminated_assignments]
        exact List.forall_mem_singleton.mpr present
  · intro holds
    constructor
    · intro version behind shown
      exact holds _ (version_shown shown)
    · intro version name behind shown
      apply holds (.command name)
      rw [command_shown shown, terminated_assignments]
      exact List.mem_cons_of_mem _ (List.mem_singleton_self _)
    · intro key value rest mode shown
      exact holds _ (header_assigned rejected shown).1
    · intro value rest mode size shown number
      obtain ⟨body, sized⟩ := (header_assigned rejected shown).2 rfl
      exact ⟨holds _ body, holds _ (sized size number)⟩

/-- A rejected line leaves the fields of the message as they were exactly when what it shows of
a command or of a header is in force already. -/
theorem rejected_unchanged_iff (line : Bytes) (free : lf ∉ line) (parser after : WsParser)
    (err : String) (rejected : parseLine (line ++ [lf]) parser = .error (.parser err) after) :
    SameFields parser after ↔ InForce parser line := by
  obtain ⟨tks, exact⟩ := parse_line_exact parser (line ++ [lf])
  rw [exact, conclude] at rejected
  cases thrown : (lineMeaning (line ++ [lf])).2 with
  | none =>
    rw [thrown] at rejected
    cases rejected
  | some thrown' =>
    rw [thrown] at rejected
    cases rejected
    rw [same_fields_iff, in_force_iff line free parser err thrown]

/-- A Content-Length header that ends with an illegal character declares the body before it is
rejected. -/
theorem rejected_length_declares :
    ∃ after, parseLine (bytes "Content-Length: 2;" ++ [lf]) {} =
        .error (.parser "Invalid Token") after ∧ ¬ SameFields {} after :=
  ⟨_, rfl, fun same => absurd same.2.2.1 (by decide)⟩

/-- A title with a version alone sets the version of a parser that has none. -/
theorem rejected_version_not_in_force : ¬ InForce {} (bytes "ASR 2.4") := by
  intro inForce
  have same :=
    (rejected_unchanged_iff (bytes "ASR 2.4") (by decide) {} _ "Expected ID string" rfl).mpr inForce
  exact absurd same.1 (by decide)

end WsParser

end AsrClient
