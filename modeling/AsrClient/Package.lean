import AsrClient.Codec

/-!
# Packages of the parser class

The parser class also assembles packages: a version, a command, headers and a body are
set, and `Str` writes them. Unlike `raw`, it puts nothing behind the body, and the blank
line only before a body that is not empty.

So a package that is written can be read again. The body is counted from the end of the
text, where it lies, and the scan of the headers stops at the blank line because a body
comes with a Content-Length header, wherever that header is among the others.
-/

namespace AsrClient

namespace WsParser

open TokenStream ASRMessageParser

/-- Add a key, unless it is there. -/
def add (package : WsParser) (key value : Bytes) : WsParser :=
  { package with props := package.props.insertIfNew key value }

/-- Set the command. -/
def setCmd (package : WsParser) (str : Bytes) : WsParser := { package with command := str }

/-- Set the version. -/
def setVersion (package : WsParser) (str : Bytes) : WsParser := { package with version := str }

/-- Set the body. -/
def setBody (package : WsParser) (body : Bytes) : WsParser :=
  { package with body, hasBody := true }

/-- The title line of a package. -/
def titleLine (package : WsParser) : Bytes :=
  bytes "ASR " ++ package.version ++ [space] ++ package.command

/-- The package as a string. -/
def str (package : WsParser) : Bytes :=
  package.titleLine ++ msgDelimiter ++ package.props.toList.flatMap headerLine ++
    (if package.body = [] then [] else msgDelimiter ++ package.body)

/-- A package whose words the lexer reads back, and whose Content-Length header gives the
size of its body. Without a body the header may be missing. -/
structure Encodable (package : WsParser) : Prop where
  version : KeyWord package.version
  command : KeyWord package.command
  message : Codable { headers := package.props, extra := package.body }

/-- A word in a title line, up to the character behind it. -/
theorem scan_title_word (word rest : Bytes) (stop : Byte) (keyWord : KeyWord word)
    (ends : wordByte stop false = false) :
    scan false (space :: (word ++ stop :: rest)) = (.ok ⟨.id, word⟩, stop :: rest, false) := by
  obtain ⟨first, tail, rfl⟩ := List.exists_cons_of_ne_nil keyWord.nonempty
  rw [scan, if_pos rfl, scan_word false first tail rest stop (keyWord.word first (by simp))
    (fun c member => keyWord.word c (by simp [member])) ends, classify, if_neg keyWord.title]

/-- The title line assigns the version and the command. -/
theorem title_line_meaning (package : WsParser) (version : KeyWord package.version)
    (command : KeyWord package.command) :
    lineMeaning (package.titleLine ++ [lf]) =
      ([.version package.version, .command package.command], none) := by
  have whole : package.titleLine ++ [lf] =
      65 :: [83, 82] ++ space :: (package.version ++ space :: (package.command ++ lf :: [])) := by
    have title : bytes "ASR " = 65 :: [83, 82] ++ [space] := by decide
    simp [titleLine, title]
  have asr : classify (65 :: [83, 82]) = ⟨.asrTitle, []⟩ := by decide
  rw [whole, lineMeaning, scan_word false 65 [83, 82] _ space (by decide)
    (List.all_eq_true.mp (by decide)) (by decide), asr]
  simp only [commandMeaning, scan_title_word _ _ space version (by decide),
    scan_title_word _ _ lf command (by decide), ne_eq, not_true_eq_false, ↓reduceIte]
  rfl

/-- A title line has no line end inside. -/
theorem title_line_free (package : WsParser) (version : KeyWord package.version)
    (command : KeyWord package.command) : lf ∉ package.titleLine := by
  have inVersion : lf ∉ package.version := fun member => absurd (version.word lf member) (by decide)
  have inCommand : lf ∉ package.command := fun member => absurd (command.word lf member) (by decide)
  have inTitle : lf ∉ bytes "ASR " := by decide
  have blank : lf ≠ space := by decide
  simp [titleLine, inTitle, inVersion, inCommand, blank]

/-- The lines of a written package, and what its body adds to them. -/
theorem getlines_str (package : WsParser) (encodable : Encodable package) :
    getlines lf package.str =
      (package.titleLine :: package.props.toList.map headerText).map (· ++ [cr]) ++
        getlines lf (if package.body = [] then [] else msgDelimiter ++ package.body) := by
  have whole : package.str =
      (package.titleLine :: package.props.toList.map headerText).flatMap (· ++ msgDelimiter) ++
        (if package.body = [] then [] else msgDelimiter ++ package.body) := by
    have written : headerLine = fun header => headerText header ++ msgDelimiter := rfl
    simp only [str, written, List.flatMap_cons, List.flatMap_map, List.append_assoc]
  have texts : ∀ line ∈ package.titleLine :: package.props.toList.map headerText, lf ∉ line := by
    rintro line (_ | ⟨_, member⟩)
    · exact title_line_free package encodable.version encodable.command
    · obtain ⟨header, isHeader, rfl⟩ := List.mem_map.mp member
      obtain ⟨keyWord, text⟩ := encodable.message.header header isHeader
      exact header_text_free header keyWord text
  rw [whole, getlines_delimited _ _ texts]

/-- The header scan of a written package restores its words and its map. It stops at the
blank line before a body, and at the end of the text otherwise. -/
theorem headers_str (package : WsParser) (encodable : Encodable package) :
    ∃ tks, headers package.str = .ok () {
      tks
      version := package.version
      command := package.command
      hasBody := package.props.toList.any (·.1 == bytes "Content-Length")
      sizeBody := UInt64.ofInt package.body.length
      props := package.props } := by
  have nonempty : package.titleLine ≠ [] := by
    intro empty
    have title : bytes "ASR " ≠ [] := by decide
    simp [titleLine, title] at empty
  obtain ⟨tks, scanned⟩ := header_section package.titleLine _ _
    { headers := package.props, extra := package.body } nonempty
    (title_line_meaning package encodable.version encodable.command) encodable.message
    (getlines lf (if package.body = [] then [] else msgDelimiter ++ package.body))
  rw [WsParser.headers, getlines_str package encodable, scanned]
  by_cases empty : package.body = []
  · rw [if_pos empty]
    exact ⟨tks, rfl⟩
  · have declared := encodable.message.declared.resolve_right empty
    have blank : getlines lf (msgDelimiter ++ package.body) = [cr] :: getlines lf package.body :=
      getlines_first lf [cr] package.body (by decide)
    rw [if_neg empty, blank]
    exact blank_line_ends _ _ (Or.inl declared)

/-- A written package ends with its body. -/
theorem str_suffix (package : WsParser) :
    package.body.length ≤ package.str.length ∧
      package.str.drop (package.str.length - package.body.length) = package.body := by
  obtain ⟨before, whole⟩ : ∃ before, package.str = before ++ package.body := by
    by_cases empty : package.body = []
    · exact ⟨package.str, by rw [empty, List.append_nil]⟩
    · refine ⟨package.titleLine ++ msgDelimiter ++ package.props.toList.flatMap headerLine ++
        msgDelimiter, ?_⟩
      rw [str, if_neg empty]
      simp only [List.append_assoc]
  have size : package.str.length = before.length + package.body.length := by
    rw [whole, List.length_append]
  refine ⟨by omega, ?_⟩
  rw [size, Nat.add_sub_cancel, whole, List.drop_left]

/-- A package that is written and read again has the same command, the same version, the
same headers and the same body. -/
theorem package_round_trip (package : WsParser) (encodable : Encodable package) :
    ∃ parsed, ofString package.str = .ok parsed ∧ parsed.command = package.command ∧
      parsed.version = package.version ∧ parsed.body = package.body ∧
      parsed.props = package.props := by
  obtain ⟨tks, scanned⟩ := headers_str package encodable
  obtain ⟨within, suffix⟩ := str_suffix package
  have nonempty : package.str ≠ [] := by
    intro empty
    have title : bytes "ASR " ≠ [] := by decide
    simp [str, titleLine, title] at empty
  have size : (UInt64.ofInt package.body.length).toNat = package.body.length := by
    have converted := size_of_declared package.body.length
    have bounded : package.body.length < 2 ^ 31 := encodable.message.bounded
    omega
  rw [ofString, if_neg nonempty, scanned]
  simp only [size, body_loop_suffix package.str _ within, suffix, List.nil_append]
  split_ifs with hasBody
  · exact ⟨_, rfl, rfl, rfl, rfl, rfl⟩
  · have empty : package.body = [] := encodable.message.declared.resolve_left hasBody
    exact ⟨_, rfl, rfl, rfl, empty.symm, rfl⟩

/-- A result whose body begins with a blank line and continues like a header. -/
def resultPackage : WsParser :=
  ((({} : WsParser).setVersion (bytes "2.4")).setCmd (bytes "RECOGNITION_RESULT")
    |>.add (bytes "Content-Length") (bytes "11")).setBody (bytes "\r\n\r\nASR:\x00\n\r")

/-- Its body is neither cut off nor read as a header. -/
theorem package_round_trip_result :
    ∃ parsed, ofString resultPackage.str = .ok parsed ∧ parsed.command = resultPackage.command ∧
      parsed.version = resultPackage.version ∧ parsed.body = resultPackage.body ∧
      parsed.props = resultPackage.props := by
  apply package_round_trip
  refine ⟨⟨by decide, List.all_eq_true.mp (by decide), by decide⟩,
    ⟨by decide, List.all_eq_true.mp (by decide), by decide⟩, ?_⟩
  have sized := sized_codable .recognitionResult (bytes "\r\n\r\nASR:\x00\n\r") (by decide) (by decide)
  have headers : resultPackage.props = (∅ : HeaderMap).insert (bytes "Content-Length") (decimal 11) := by
    apply Std.ExtTreeMap.ext_getElem?
    intro key
    have text : decimal 11 = bytes "11" := by decide
    simp [resultPackage, setBody, setVersion, setCmd, add, Std.ExtTreeMap.getElem?_insertIfNew,
      Std.ExtTreeMap.getElem?_insert, text]
  exact ⟨headers ▸ sized.keys, headers ▸ sized.values, sized.bounded, fun _ => headers ▸ sized.sized (by decide),
    fun empty => absurd empty (by decide)⟩

end WsParser

end AsrClient
