import AsrClient.DeclaredLength
import AsrClient.Package

/-!
# A message that is read and written again

Whatever a payload is made of, the parser keeps words: a command with its version, keys, and
values up to the end of their lines. A number under Content-Length can be converted. What was
read can therefore be written as a package, and the text can be read again.

It is the same message then, but for two reasons. Without a command the title line of the
text is rejected, and nothing behind it is read. And of several lengths the map has the first,
while the body was taken by the last.
-/

namespace AsrClient

open TokenStream WsParser ASRMessageParser

/-- A header that a line shows is made of words. -/
theorem ShowsHeader.words {line key value rest : Bytes} {mode : Bool}
    (shown : ShowsHeader line key value rest mode) :
    KeyWord key ∧ (value = [] ∨ ValueWord value) := by
  obtain ⟨keyed, behind, leads, notTitle, -, text⟩ := shown
  refine ⟨leads.word.key notTitle, ?_⟩
  cases text with
  | missing => exact Or.inl rfl
  | word value behind following valueNotTitle =>
    exact Or.inr ⟨following.word.begins, following.word.inWord, valueNotTitle⟩

/-- What is read and passes a check is read. -/
theorem exists_of_any {Error Value : Type} (read : Except Error Value) (check : Value → Bool)
    (passed : read.toOption.any check = true) : ∃ value, read = .ok value ∧ check value = true := by
  cases read with
  | error thrown => exact absurd passed Bool.false_ne_true
  | ok value => exact ⟨value, rfl, passed⟩

namespace WsParser

/-- The fields of a message that was read: its words are words of the lexer, and it has a body
when a length is among its headers, which is a number then. -/
structure WellRead (parser : WsParser) : Prop where
  version : parser.version = [] ∨ KeyWord parser.version
  command : parser.command = [] ∨ KeyWord parser.version ∧ KeyWord parser.command
  keys : ∀ key ∈ parser.props, KeyWord key
  values : ∀ key value : Bytes, parser.props[key]? = some value → value = [] ∨ ValueWord value
  hasBody : parser.hasBody = true ↔ bytes "Content-Length" ∈ parser.props
  number : ∀ value, parser.props[bytes "Content-Length"]? = some value →
    ∃ size, stoi value = .ok size

/-- Two parsers hold the same message. -/
structure SameMessage (again parser : WsParser) : Prop where
  version : again.version = parser.version
  command : again.command = parser.command
  props : again.props = parser.props
  body : again.body = parser.body

section Reading

variable {parser : WsParser}

/-- A new header of words keeps them, when it is no length. -/
theorem WellRead.insert (wellRead : WellRead parser) (key value : Bytes) (keyWord : KeyWord key)
    (text : value = [] ∨ ValueWord value) (other : key ≠ bytes "Content-Length") :
    WellRead (assign parser (.insert key value)) where
  version := wellRead.version
  command := wellRead.command
  keys key' member := by
    rcases Std.ExtTreeMap.mem_insertIfNew.mp member with same | former
    · exact Std.compare_eq_iff_eq.mp same ▸ keyWord
    · exact wellRead.keys key' former
  values key' value' entry := by
    rw [assign, Std.ExtTreeMap.getElem?_insertIfNew] at entry
    split_ifs at entry
    · exact Option.some.inj entry ▸ text
    · exact wellRead.values key' value' entry
  hasBody := by
    rw [assign, Std.ExtTreeMap.mem_insertIfNew, Std.compare_eq_iff_eq, or_iff_right other]
    exact wellRead.hasBody
  number value' entry := by
    rw [assign, Std.ExtTreeMap.getElem?_insertIfNew,
      if_neg (fun new => other (Std.compare_eq_iff_eq.mp new.1))] at entry
    exact wellRead.number value' entry

/-- A length keeps them as well, with the flag and the size that it sets. -/
theorem WellRead.declare (wellRead : WellRead parser) (value : Bytes) (size : Int)
    (number : stoi value = .ok size) (keyWord : KeyWord (bytes "Content-Length"))
    (text : value = [] ∨ ValueWord value) :
    WellRead (assignAll parser
      [.hasBody, .sizeBody size, .insert (bytes "Content-Length") value]) where
  version := wellRead.version
  command := wellRead.command
  keys key' member := by
    rcases Std.ExtTreeMap.mem_insertIfNew.mp member with same | former
    · exact Std.compare_eq_iff_eq.mp same ▸ keyWord
    · exact wellRead.keys key' former
  values key' value' entry := by
    simp only [assignAll, List.foldl_cons, List.foldl_nil, assign,
      Std.ExtTreeMap.getElem?_insertIfNew] at entry
    split_ifs at entry
    · exact Option.some.inj entry ▸ text
    · exact wellRead.values key' value' entry
  hasBody := by simp [assignAll, assign]
  number value' entry := by
    simp only [assignAll, List.foldl_cons, List.foldl_nil, assign,
      Std.ExtTreeMap.getElem?_insertIfNew] at entry
    split_ifs at entry
    · exact ⟨size, Option.some.inj entry ▸ number⟩
    · exact wellRead.number value' entry

/-- Every line keeps them, unless an exception of `std::stoi` leaves the parser. -/
theorem WellRead.line (wellRead : WellRead parser) (line : Bytes) (free : lf ∉ line)
    (inside : ∀ error, (lineMeaning (line ++ [lf])).2 ≠ some (.stoi error)) :
    WellRead (assignAll parser (lineMeaning (line ++ [lf])).1) := by
  have shows := line_shows line free
  generalize lineMeaning (line ++ [lf]) = meaning at shows inside ⊢
  cases shows with
  | blank | nothing => exact wellRead
  | version version behind err shown =>
    obtain ⟨rest, -, leads, notTitle⟩ := shown
    have keyWord := leads.word.key notTitle
    exact { wellRead with
      version := Or.inr keyWord
      command := wellRead.command.imp_right fun both => ⟨keyWord, both.2⟩ }
  | command version name behind shown =>
    obtain ⟨rest, ⟨_, -, first, notTitle⟩, second, nameNotTitle⟩ := shown
    have keyWord := first.word.key notTitle
    rw [terminated_assignments]
    exact { wellRead with
      version := Or.inr keyWord
      command := Or.inr ⟨keyWord, second.word.key nameNotTitle⟩ }
  | header key value rest mode shown =>
    obtain ⟨keyWord, text⟩ := shown.words
    rw [headerMeaning] at inside ⊢
    by_cases isLength : key = bytes "Content-Length"
    · rw [if_pos isLength] at inside ⊢
      cases number : stoi value with
      | error error =>
        rw [number] at inside
        exact absurd rfl (inside error)
      | ok size =>
        simp only [terminated_assignments, isLength]
        exact wellRead.declare value size number (isLength ▸ keyWord) text
    · rw [if_neg isLength, terminated_assignments]
      exact wellRead.insert key value keyWord text isLength

/-- The header loop keeps them. The induction is on the lines that are left. -/
theorem header_loop_well_read (lines : List Bytes) (parser after : WsParser)
    (free : ∀ line ∈ lines, lf ∉ line.dropLast) (wellRead : WellRead parser)
    (ended : headerLoop lines parser = .ok () after) : WellRead after := by
  induction lines generalizing parser with
  | nil =>
    cases ended
    exact wellRead
  | cons line rest inductionHypothesis =>
    rw [List.forall_mem_cons] at free
    by_cases blank : line = [cr] ∧ parser.hasBody = true
    · rw [headerLoop, if_pos blank] at ended
      cases ended
      exact wellRead
    by_cases empty : line = []
    · rw [headerLoop, if_neg blank, if_pos empty] at ended
      cases ended
    obtain ⟨tks, loop⟩ := header_loop_cons parser line blank empty
    rw [loop] at ended
    have kept (inside : ∀ error, (lineMeaning (line.dropLast ++ [lf])).2 ≠ some (.stoi error)) :
        WellRead { assignAll parser (lineMeaning (line.dropLast ++ [lf])).1 with tks } :=
      { wellRead.line line.dropLast free.1 inside with }
    rcases loop_behind_ok ended with ⟨accepted, further⟩ | ⟨⟨err, rejected⟩, rfl⟩
    · exact inductionHypothesis _ free.2 (kept fun error => by simp [accepted]) further
    · exact kept fun error => by simp [rejected]

/-- The body loop appends as many characters as it counts. -/
theorem body_loop_length (str : Bytes) (size : Nat) (body taken : Bytes)
    (looped : bodyLoop str size body = .ok taken) : taken.length = body.length + size := by
  induction size generalizing body with
  | zero =>
    cases looped
    rfl
  | succ size inductionHypothesis =>
    rw [bodyLoop] at looped
    cases here : str[bodyIndex str (size + 1)]? with
    | none => simp [here] at looped
    | some c =>
      rw [here] at looped
      rw [inductionHypothesis _ looped, List.length_append, List.length_singleton]
      omega

/-- What the constructor returns is made of words, and its body has the size that was
declared. -/
theorem of_string_well_read (payload : Bytes) (parser : WsParser)
    (parsed : ofString payload = .ok parser) :
    WellRead parser ∧
      parser.body.length = if parser.hasBody then parser.sizeBody.toNat else 0 := by
  have start : WellRead {} :=
    ⟨Or.inl rfl, Or.inl rfl, by simp, by simp, by simp, by simp⟩
  rw [ofString] at parsed
  split_ifs at parsed with empty
  · cases parsed
    exact ⟨start, rfl⟩
  · cases scanned : headers payload with
    | error thrown after => simp [scanned] at parsed
    | ok _ after =>
      have wellRead :=
        header_loop_well_read _ _ _ (fun line member => line_free member) start scanned
      obtain ⟨lines, latter, tks, -, isBehind⟩ := Reaches.start.finished scanned
      have bodiless : after.body = [] := by
        rw [isBehind]
        exact assign_all_body {} _
      simp only [scanned] at parsed
      cases hasBody : after.hasBody with
      | false =>
        simp only [hasBody, Bool.false_eq_true, if_false] at parsed
        cases parsed
        simp [wellRead, hasBody, bodiless]
      | true =>
        simp only [hasBody, if_true] at parsed
        cases looped : bodyLoop payload after.sizeBody.toNat after.body with
        | error thrown => simp [looped, Except.map] at parsed
        | ok taken =>
          rw [looped] at parsed
          cases parsed
          have length := body_loop_length _ _ _ _ looped
          rw [bodiless, List.length_nil, Nat.zero_add] at length
          refine ⟨{ wellRead with hasBody := by simpa [hasBody] using wellRead.hasBody }, ?_⟩
          simp [length]

end Reading

section Writing

variable {parser : WsParser}

/-- A header of a message that was read is made of words. -/
theorem WellRead.header (wellRead : WellRead parser) (header : Bytes × Bytes)
    (member : header ∈ parser.props.toList) :
    KeyWord header.1 ∧ (header.2 = [] ∨ ValueWord header.2) := by
  have entry := Std.ExtTreeMap.mem_toList_iff_getElem?_eq_some.mp member
  refine ⟨wellRead.keys header.1 ?_, wellRead.values _ _ entry⟩
  rw [Std.ExtTreeMap.mem_iff_isSome_getElem?, entry]
  rfl

/-- The title line of such a message is one line. -/
theorem WellRead.title_free (wellRead : WellRead parser) : lf ∉ parser.titleLine := by
  have word {text : Bytes} (isWord : text = [] ∨ KeyWord text) : lf ∉ text := by
    rcases isWord with rfl | keyWord
    · exact List.not_mem_nil
    · exact fun member => absurd (keyWord.word lf member) (by decide)
  have inVersion := word wellRead.version
  have inCommand := word (wellRead.command.imp_right And.right)
  have inTitle : lf ∉ bytes "ASR " := by decide
  have blank : lf ≠ space := by decide
  simp [titleLine, inTitle, inVersion, inCommand, blank]

/-- The lines of its text: the title line, the headers in order, and what a body adds. -/
theorem WellRead.lines (wellRead : WellRead parser) :
    getlines lf parser.str =
      (parser.titleLine :: parser.props.toList.map headerText).map (· ++ [cr]) ++
        getlines lf (if parser.body = [] then [] else msgDelimiter ++ parser.body) := by
  have written : headerLine = fun header => headerText header ++ msgDelimiter := rfl
  have whole : parser.str =
      (parser.titleLine :: parser.props.toList.map headerText).flatMap (· ++ msgDelimiter) ++
        (if parser.body = [] then [] else msgDelimiter ++ parser.body) := by
    simp only [str, written, List.flatMap_cons, List.flatMap_map, List.append_assoc]
  have texts : ∀ line ∈ parser.titleLine :: parser.props.toList.map headerText, lf ∉ line := by
    refine List.forall_mem_cons.mpr ⟨wellRead.title_free, fun line member => ?_⟩
    obtain ⟨header, isHeader, rfl⟩ := List.mem_map.mp member
    obtain ⟨keyWord, text⟩ := wellRead.header header isHeader
    exact header_text_free header keyWord text
  rw [whole, getlines_delimited _ _ texts]

/-- The line of a header says that header. -/
theorem header_text_spells (header : Bytes × Bytes) (keyWord : KeyWord header.1)
    (text : header.2 = [] ∨ ValueWord header.2) :
    (Statement.header header.1 header.2).Spells (headerText header) := by
  have nothing : Blank [] := List.forall_mem_nil _
  have spelled := Statement.Spells.header [] [] [] header.1 header.2 ⟨nothing, nothing, nothing⟩
    keyWord text
  simpa [headerText] using spelled

/-- Headers that are read again: the map takes each of them, and a length among them declares
the body. -/
theorem assign_statements (size : Int) (headers : List (Bytes × Bytes)) (parser : WsParser)
    (sized : ∀ header ∈ headers, header.1 = bytes "Content-Length" → stoi header.2 = .ok size) :
    assignAll parser
        (headers.flatMap fun header => (Statement.header header.1 header.2).assignments) =
      { parser with
        hasBody := parser.hasBody || headers.any (·.1 == bytes "Content-Length")
        sizeBody := if headers.any (·.1 == bytes "Content-Length") then UInt64.ofInt size
          else parser.sizeBody
        props := headers.foldl (fun props header => props.insertIfNew header.1 header.2)
          parser.props } := by
  induction headers generalizing parser with
  | nil => simp [assignAll]
  | cons header headers inductionHypothesis =>
    obtain ⟨first, others⟩ := List.forall_mem_cons.mp sized
    rw [List.flatMap_cons, assignAll, List.foldl_append, ← assignAll, ← assignAll,
      inductionHypothesis _ others]
    by_cases isLength : header.1 = bytes "Content-Length"
    · simp [Statement.assignments, isLength, first isLength, assignAll, assign]
    · have other : (header.1 == bytes "Content-Length") = false := beq_eq_false_iff_ne.mpr isLength
      simp only [Statement.assignments, if_neg isLength, assignAll, List.foldl_cons,
        List.foldl_nil, assign, List.any_cons, other, Bool.false_or]

/-- Without a command, the scan of the text ends with the title line: the version may have been
assigned, and nothing else is. -/
theorem WellRead.headers_untitled (wellRead : WellRead parser) (untitled : parser.command = []) :
    ∃ tks, headers parser.str = .ok () { ({} : WsParser) with tks, version := parser.version } := by
  have meaning : ∃ assigned err,
      lineMeaning (parser.titleLine ++ [lf]) = (assigned, some (.parser err)) ∧
      assignAll {} assigned = { ({} : WsParser) with version := parser.version } := by
    rcases wellRead.version with empty | keyWord
    · refine ⟨[], "Expected ID string", ?_, by rw [empty]; rfl⟩
      rw [titleLine, empty, untitled]
      decide
    · have whole : parser.titleLine ++ [lf] =
          65 :: [83, 82] ++ space :: (parser.version ++ space :: [lf]) := by
        have title : bytes "ASR " = 65 :: [83, 82] ++ [space] := by decide
        simp [titleLine, title, untitled]
      have asr : classify (65 :: [83, 82]) = ⟨.asrTitle, []⟩ := by decide
      have ends : scan false (space :: [lf]) = (.ok ⟨.crlf, []⟩, [], false) := by decide
      refine ⟨[.version parser.version], "Expected ID string", ?_, rfl⟩
      rw [whole, lineMeaning, scan_word false 65 [83, 82] _ space (by decide)
        (List.all_eq_true.mp (by decide)) (by decide), asr]
      simp only [commandMeaning, scan_title_word _ _ space keyWord (by decide), ends, ne_eq,
        not_true_eq_false, ↓reduceIte]
      rfl
  obtain ⟨assigned, err, isLine, does⟩ := meaning
  have filled : parser.titleLine ≠ [] := by
    have title : bytes "ASR " ≠ [] := by decide
    simp [titleLine, title]
  obtain ⟨tks, loop⟩ := header_loop_cons {} (parser.titleLine ++ [cr]) (by simp [filled]) (by simp)
  rw [List.dropLast_concat, isLine, does] at loop
  refine ⟨tks, ?_⟩
  rw [WsParser.headers, wellRead.lines, List.map_cons, List.cons_append, loop]
  rfl

/-- With a command, the scan of the text restores the words and the map, and declares the body
by the number in the map. -/
theorem WellRead.headers_titled (wellRead : WellRead parser) (titled : parser.command ≠ [])
    (size : Int)
    (sized : ∀ value, parser.props[bytes "Content-Length"]? = some value → stoi value = .ok size)
    (declared : bytes "Content-Length" ∈ parser.props ∨ parser.body = []) :
    ∃ tks, headers parser.str = .ok () { ({} : WsParser) with
      tks
      version := parser.version
      command := parser.command
      hasBody := parser.props.toList.any (·.1 == bytes "Content-Length")
      sizeBody := if parser.props.toList.any (·.1 == bytes "Content-Length") then UInt64.ofInt size
        else 0
      props := parser.props } := by
  obtain ⟨versionWord, commandWord⟩ := wellRead.command.resolve_left titled
  -- The lines, each with its meaning.
  let lines : List (Bytes × List Assignment) :=
    (parser.titleLine, [.version parser.version, .command parser.command]) ::
      parser.props.toList.map fun header =>
        (headerText header, (Statement.header header.1 header.2).assignments)
  have entrySized (header : Bytes × Bytes) (member : header ∈ parser.props.toList)
      (isLength : header.1 = bytes "Content-Length") : stoi header.2 = .ok size :=
    sized header.2 (isLength ▸ Std.ExtTreeMap.mem_toList_iff_getElem?_eq_some.mp member)
  have accepted : ∀ line ∈ lines,
      line.1 ≠ [] ∧ lineMeaning (line.1 ++ [lf]) = (line.2, none) := by
    have filled : parser.titleLine ≠ [] := by
      have title : bytes "ASR " ≠ [] := by decide
      simp [titleLine, title]
    refine List.forall_mem_cons.mpr
      ⟨⟨filled, title_line_meaning parser versionWord commandWord⟩, fun line member => ?_⟩
    obtain ⟨header, isHeader, rfl⟩ := List.mem_map.mp member
    obtain ⟨keyWord, text⟩ := wellRead.header header isHeader
    exact ⟨by simp [headerText], spells_meaning _ _ (header_text_spells header keyWord text)
      fun isLength => ⟨size, entrySized header isHeader isLength⟩⟩
  obtain ⟨tks, scanned⟩ := header_loop_accepts lines
    (getlines lf (if parser.body = [] then [] else msgDelimiter ++ parser.body)) {} accepted
  have texts : lines.map (·.1 ++ [cr]) =
      (parser.titleLine :: parser.props.toList.map headerText).map (· ++ [cr]) := by
    simp [lines, Function.comp_def]
  have assigned : lines.flatMap (·.2) =
      [.version parser.version, .command parser.command] ++
        parser.props.toList.flatMap fun header =>
          (Statement.header header.1 header.2).assignments := by
    simp [lines, List.flatMap_map]
  rw [texts, assigned, assignAll, List.foldl_append, ← assignAll, ← assignAll,
    assign_statements size _ _ entrySized] at scanned
  simp only [assignAll, List.foldl_cons, List.foldl_nil, assign, insert_all_toList,
    Bool.false_or] at scanned
  rw [WsParser.headers, wellRead.lines, scanned]
  by_cases empty : parser.body = []
  · rw [if_pos empty]
    exact ⟨tks, rfl⟩
  · have blank : getlines lf (msgDelimiter ++ parser.body) = [cr] :: getlines lf parser.body :=
      getlines_first lf [cr] parser.body (by decide)
    have present : parser.props.toList.any (·.1 == bytes "Content-Length") = true := by
      obtain ⟨value, entry⟩ := Option.isSome_iff_exists.mp
        (Std.ExtTreeMap.mem_iff_isSome_getElem?.mp (declared.resolve_right empty))
      exact List.any_eq_true.mpr ⟨(_, value),
        Std.ExtTreeMap.mem_toList_iff_getElem?_eq_some.mpr entry, by simp⟩
    rw [if_neg empty, blank]
    exact blank_line_ends _ _ (Or.inl present)

/-- A written package is not empty. -/
theorem str_nonempty (package : WsParser) : package.str ≠ [] := by
  have title : bytes "ASR " ≠ [] := by decide
  simp [str, titleLine, title]

end Writing

section Again

variable {parser : WsParser}

/-- Without a command, the version is all that is read again. -/
theorem WellRead.again_untitled (wellRead : WellRead parser) (untitled : parser.command = []) :
    ∃ again, ofString parser.str = .ok again ∧ again.version = parser.version ∧
      again.command = [] ∧ again.props = ∅ ∧ again.body = [] := by
  obtain ⟨tks, scanned⟩ := wellRead.headers_untitled untitled
  refine ⟨{ ({} : WsParser) with tks, version := parser.version }, ?_, rfl, rfl, rfl, rfl⟩
  rw [ofString, if_neg (str_nonempty parser), scanned]
  rfl

/-- With a command and without a length, everything is read again, and there is no body. -/
theorem WellRead.again_bodiless (wellRead : WellRead parser) (titled : parser.command ≠ [])
    (absent : bytes "Content-Length" ∉ parser.props) (bodiless : parser.body = []) :
    ∃ again, ofString parser.str = .ok again ∧ SameMessage again parser := by
  have none : parser.props[bytes "Content-Length"]? = none := Std.ExtTreeMap.getElem?_eq_none absent
  obtain ⟨tks, scanned⟩ := wellRead.headers_titled titled 0 (by simp [none]) (Or.inr bodiless)
  have noLength : parser.props.toList.any (·.1 == bytes "Content-Length") = false := by
    rw [List.any_eq_false]
    intro header member
    have entry := Std.ExtTreeMap.mem_toList_iff_getElem?_eq_some.mp member
    simp only [beq_iff_eq]
    intro isLength
    rw [isLength, none] at entry
    cases entry
  rw [ofString, if_neg (str_nonempty parser), scanned]
  simp only [noLength, Bool.false_eq_true, if_false]
  exact ⟨_, rfl, rfl, rfl, rfl, bodiless.symm⟩

/-- With a command and a length, everything is read again but for the body, which has the
length that is in the map. -/
theorem WellRead.again_sized (wellRead : WellRead parser) (titled : parser.command ≠ [])
    (value : Bytes) (size : Int) (entry : parser.props[bytes "Content-Length"]? = some value)
    (number : stoi value = .ok size) :
    ∃ tks, ofString parser.str =
      (bodyLoop parser.str (UInt64.ofInt size).toNat []).map fun body =>
        { tks, version := parser.version, command := parser.command, hasBody := true,
          sizeBody := UInt64.ofInt size, props := parser.props, body } := by
  have present : bytes "Content-Length" ∈ parser.props := by
    rw [Std.ExtTreeMap.mem_iff_isSome_getElem?, entry]
    rfl
  have sized (other : Bytes) (found : parser.props[bytes "Content-Length"]? = some other) :
      stoi other = .ok size := by
    obtain rfl : value = other := Option.some.inj (entry.symm.trans found)
    exact number
  obtain ⟨tks, scanned⟩ := wellRead.headers_titled titled size sized (Or.inl present)
  have hasLength : parser.props.toList.any (·.1 == bytes "Content-Length") = true :=
    List.any_eq_true.mpr
      ⟨(_, value), Std.ExtTreeMap.mem_toList_iff_getElem?_eq_some.mpr entry, by simp⟩
  refine ⟨tks, ?_⟩
  rw [ofString, if_neg (str_nonempty parser), scanned]
  simp only [hasLength, if_true]

/-- A body of the declared length is read again, and no other. -/
theorem WellRead.again_sized_iff (wellRead : WellRead parser) (titled : parser.command ≠ [])
    (value : Bytes) (size : Int) (entry : parser.props[bytes "Content-Length"]? = some value)
    (number : stoi value = .ok size) :
    (∃ again, ofString parser.str = .ok again ∧ SameMessage again parser) ↔
      (UInt64.ofInt size).toNat = parser.body.length := by
  obtain ⟨tks, read⟩ := wellRead.again_sized titled value size entry number
  rw [read]
  constructor
  · rintro ⟨again, returned, same⟩
    cases looped : bodyLoop parser.str (UInt64.ofInt size).toNat [] with
    | error thrown => simp [looped, Except.map] at returned
    | ok taken =>
      rw [looped] at returned
      cases returned
      have length := body_loop_length _ _ _ _ looped
      obtain rfl : taken = parser.body := same.body
      rw [length, List.length_nil, Nat.zero_add]
  · intro length
    obtain ⟨within, suffix⟩ := str_suffix parser
    rw [length, body_loop_suffix _ _ within, suffix]
    exact ⟨_, rfl, rfl, rfl, rfl, rfl⟩

/-- What a payload says is the same message when it is written and read again, exactly when it
has a command, or no headers that could be lost, and its body was taken by the length that is
among them. -/
theorem reprinted_same_iff (payload : Bytes) (parser : WsParser)
    (parsed : ofString payload = .ok parser) :
    (∃ again, ofString parser.str = .ok again ∧ SameMessage again parser) ↔
      (parser.command = [] → parser.props = ∅) ∧ Consistent parser := by
  obtain ⟨wellRead, length⟩ := of_string_well_read payload parser parsed
  have bodiless (absent : bytes "Content-Length" ∉ parser.props) :
      parser.body = [] ∧ Consistent parser := by
    have noBody : ¬ parser.hasBody = true := fun hasBody => absent (wellRead.hasBody.mp hasBody)
    rw [if_neg noBody] at length
    exact ⟨List.length_eq_zero_iff.mp length, wellRead.hasBody,
      fun hasBody => absurd hasBody noBody⟩
  by_cases untitled : parser.command = []
  · obtain ⟨again, read, version, command, props, body⟩ := wellRead.again_untitled untitled
    constructor
    · rintro ⟨other, returned, same⟩
      obtain rfl : again = other := Except.ok.inj (read.symm.trans returned)
      have empty : parser.props = ∅ := same.props.symm.trans props
      exact ⟨fun _ => empty, (bodiless (by simp [empty])).2⟩
    · rintro ⟨lost, -⟩
      have empty := lost untitled
      exact ⟨again, read, version, command.trans untitled.symm, props.trans empty.symm,
        body.trans (bodiless (by simp [empty])).1.symm⟩
  by_cases present : bytes "Content-Length" ∈ parser.props
  · obtain ⟨value, entry⟩ :=
      Option.isSome_iff_exists.mp (Std.ExtTreeMap.mem_iff_isSome_getElem?.mp present)
    obtain ⟨size, number⟩ := wellRead.number value entry
    have hasBody := wellRead.hasBody.mpr present
    rw [if_pos hasBody] at length
    rw [wellRead.again_sized_iff untitled value size entry number, length]
    constructor
    · intro same
      exact ⟨fun empty => absurd empty untitled, wellRead.hasBody,
        fun _ => ⟨value, size, entry, number, (UInt64.toNat_inj.mp same).symm⟩⟩
    · rintro ⟨-, -, agrees⟩
      obtain ⟨value', size', entry', number', same⟩ := agrees hasBody
      obtain rfl : value = value' := Option.some.inj (entry.symm.trans entry')
      obtain rfl : size = size' := Except.ok.inj (number.symm.trans number')
      rw [same]
  · obtain ⟨empty, consistent⟩ := bodiless present
    exact iff_of_true (wellRead.again_bodiless untitled present empty)
      ⟨fun titleless => absurd titleless untitled, consistent⟩

/-- A message with blanks around its words, and with a length that is no plain number. -/
def spacedMessage : Bytes := bytes " ASR  2.4 RESPONSE\r\nContent-Length : 2x\r\n\r\nab"

/-- It is the same message when it is written and read again. -/
theorem spaced_message_same :
    ∃ parser, ofString spacedMessage = .ok parser ∧
      ((∃ again, ofString parser.str = .ok again ∧ SameMessage again parser) ↔
        (parser.command = [] → parser.props = ∅) ∧ Consistent parser) ∧
      parser.command = bytes "RESPONSE" ∧ Consistent parser := by
  obtain ⟨parser, parsed, checked⟩ := exists_of_any (ofString spacedMessage)
    (fun parser => parser.command = bytes "RESPONSE" ∧
      parser.props[bytes "Content-Length"]? = some (bytes "2x") ∧
      parser.sizeBody = UInt64.ofInt 2) (by decide +kernel)
  obtain ⟨command, entry, size⟩ := of_decide_eq_true checked
  refine ⟨parser, parsed, reprinted_same_iff spacedMessage parser parsed, command, ?_⟩
  exact ⟨(of_string_well_read spacedMessage parser parsed).1.hasBody,
    fun _ => ⟨bytes "2x", 2, entry, by decide, size⟩⟩

end Again

end WsParser

end AsrClient
