import Mathlib.Data.List.Infix
import AsrClient.Message

/-!
# Encoding and decoding a message

A request whose keys and values stay within the lexer's alphabet is decoded header by
header: every line that `raw` writes is accepted, assigns exactly its key and value,
and a Content-Length header declares the size of the extra content. The map is rebuilt
from its own entries, in order.

The extra content itself is shifted. `raw` closes it with a line end, and the parser
counts from the end of the payload, so the decoded content is the encoded one without
its first two bytes and with the line end behind it. The two are the same exactly for
content that consists of line ends only, from its last byte backwards.
-/

namespace AsrClient

section Repetition

variable {α : Type}

/-- The list written `count` times in a row. -/
def repeated (delimiter : List α) (count : Nat) : List α :=
  (List.replicate count delimiter).flatten

/-- One more copy may be written at either end. -/
theorem repeated_append (delimiter : List α) (count : Nat) :
    repeated delimiter count ++ delimiter = delimiter ++ repeated delimiter count := by
  have last : repeated delimiter (count + 1) = repeated delimiter count ++ delimiter := by
    simp [repeated, List.replicate_succ']
  have first : repeated delimiter (count + 1) = delimiter ++ repeated delimiter count := by
    simp [repeated, List.replicate_succ]
  exact last.symm.trans first

/-- A list that loses as much in front as it gains behind is unchanged exactly when it is
the end of a repetition. Forwards, the induction takes one copy off the end; a rest
shorter than the delimiter is an end of it. -/
theorem shift_fixed_iff (delimiter content : List α) (proper : delimiter ≠ []) :
    (content ++ delimiter).drop delimiter.length = content ↔
      ∃ count, content <:+ repeated delimiter count := by
  constructor
  · induction length : content.length using Nat.strong_induction_on generalizing content with
    | _ size inductionHypothesis =>
      intro fixed
      have positive := List.length_pos_of_ne_nil proper
      by_cases long : delimiter.length ≤ content.length
      · rw [List.drop_append_of_le_length long] at fixed
        obtain ⟨count, before, whole⟩ := inductionHypothesis _ (by simp; omega)
          (content.drop delimiter.length) rfl (by rw [fixed])
        refine ⟨count + 1, before, ?_⟩
        rw [← fixed, show repeated delimiter (count + 1) = repeated delimiter count ++ delimiter by
          simp [repeated, List.replicate_succ']]
        rw [← List.append_assoc, whole]
      · refine ⟨1, ?_⟩
        rw [List.drop_append, List.drop_of_length_le (by omega), List.nil_append] at fixed
        rw [← fixed, show repeated delimiter 1 = delimiter by simp [repeated]]
        exact List.drop_suffix _ _
  · rintro ⟨count, before, whole⟩
    have within : before.length ≤ (repeated delimiter count).length := by
      rw [← whole]
      simp
    have content_eq : content = (repeated delimiter count).drop before.length := by
      rw [← whole]
      simp
    rw [content_eq, ← List.drop_append_of_le_length within, repeated_append, List.drop_drop,
      Nat.add_comm, ← List.drop_drop, List.drop_left]

end Repetition

open TokenStream WsParser ASRMessageParser

/-- The value that assignments leave in the map depends on the map alone. -/
theorem assign_all_tks (assignments : List Assignment) (parser : WsParser) (tks : TokenStream) :
    assignAll { parser with tks } assignments = { assignAll parser assignments with tks } := by
  induction assignments generalizing parser with
  | nil => rfl
  | cons assignment assignments inductionHypothesis =>
    have once : assign { parser with tks } assignment = { assign parser assignment with tks } := by
      cases assignment <;> rfl
    simp only [assignAll, List.foldl_cons] at inductionHypothesis ⊢
    rw [once, inductionHypothesis]

/-- A key that the lexer reads as one word. -/
structure KeyWord (key : Bytes) : Prop where
  nonempty : key ≠ []
  word : ∀ c ∈ key, wordByte c false = true
  title : key ≠ bytes "ASR"

/-- A value that the lexer reads as one word behind a separator. -/
structure ValueWord (value : Bytes) : Prop where
  begins : ∃ first rest, value = first :: rest ∧ wordByte first false = true
  word : ∀ c ∈ value, wordByte c true = true
  title : value ≠ bytes "ASR"

/-- A key at the start of a line, up to its separator. -/
theorem scan_key (key rest : Bytes) (keyWord : KeyWord key) :
    scan false (key ++ colon :: rest) = (.ok ⟨.id, key⟩, colon :: rest, false) := by
  obtain ⟨first, tail, rfl⟩ := List.exists_cons_of_ne_nil keyWord.nonempty
  rw [scan_word false first tail rest colon (keyWord.word first (by simp))
    (fun c member => keyWord.word c (by simp [member])) (by decide), classify,
    if_neg keyWord.title]

/-- A value behind its separator, up to the line end: a missing one is the line end. -/
theorem scan_value (value : Bytes) (text : value = [] ∨ ValueWord value) :
    ∃ kind rest mode, scan true (value ++ [lf]) = (.ok ⟨kind, value⟩, rest, mode) ∧
      (kind = .id ∨ kind = .crlf) ∧ (rest = [lf] ∨ rest = []) := by
  rcases text with rfl | valueWord
  · exact ⟨.crlf, [], false, rfl, Or.inr rfl, Or.inr rfl⟩
  · obtain ⟨first, tail, rfl, begins⟩ := valueWord.begins
    refine ⟨.id, [lf], true, ?_, Or.inl rfl, Or.inl rfl⟩
    rw [scan_word true first tail [] lf begins
      (fun c member => valueWord.word c (by simp [member])) (by decide), classify,
      if_neg valueWord.title]

/-- The assignments of an accepted header, with the size its value stands for. -/
def headerAssignments (size : Nat) (header : Bytes × Bytes) : List Assignment :=
  if header.1 = bytes "Content-Length" then
    [.hasBody, .sizeBody size, .insert header.1 header.2]
  else [.insert header.1 header.2]

/-- A header line that `raw` writes is accepted. -/
theorem header_line_meaning (size : Nat) (header : Bytes × Bytes) (keyWord : KeyWord header.1)
    (text : header.2 = [] ∨ ValueWord header.2)
    (sized : header.1 = bytes "Content-Length" → stoi header.2 = .ok (size : Int)) :
    lineMeaning (header.1 ++ [colon] ++ header.2 ++ [lf]) = (headerAssignments size header, none) := by
  obtain ⟨key, value⟩ := header
  have closed (assignments : List Assignment) (mode : Bool) (rest : Bytes)
      (final : rest = [lf] ∨ rest = []) : terminated assignments mode rest = (assignments, none) := by
    rcases final with rfl | rfl <;> rfl
  obtain ⟨kind, rest, mode, scanned, isValue, final⟩ := scan_value value text
  have whole : key ++ [colon] ++ value ++ [lf] = key ++ colon :: (value ++ [lf]) := by simp
  have accepted : ¬ (kind ≠ .id ∧ kind ≠ .crlf) := by
    rcases isValue with rfl | rfl <;> simp
  simp only [whole, lineMeaning, scan_key key _ keyWord, keyMeaning, scan_colon, ne_eq,
    not_true_eq_false, ↓reduceIte, scanned, if_neg accepted, headerMeaning, headerAssignments]
  by_cases isLength : key = bytes "Content-Length"
  · simp only [if_pos isLength, sized isLength, closed _ _ _ final]
  · simp only [if_neg isLength, closed _ _ _ final]

/-- Headers assigned in order: the map takes each of them, and a Content-Length among them
declares the body. -/
theorem assign_headers (size : Nat) (headers : List (Bytes × Bytes)) (parser : WsParser) :
    assignAll parser (headers.flatMap (headerAssignments size)) =
      { parser with
        hasBody := parser.hasBody || headers.any (·.1 == bytes "Content-Length")
        sizeBody := if headers.any (·.1 == bytes "Content-Length") then UInt64.ofInt size
          else parser.sizeBody
        props := headers.foldl (fun props header => props.insertIfNew header.1 header.2)
          parser.props } := by
  induction headers generalizing parser with
  | nil => simp [assignAll]
  | cons header headers inductionHypothesis =>
    rw [List.flatMap_cons, assignAll, List.foldl_append, ← assignAll, ← assignAll,
      inductionHypothesis]
    by_cases isLength : header.1 = bytes "Content-Length"
    · simp [headerAssignments, isLength, assignAll, assign]
    · have other : (header.1 == bytes "Content-Length") = false := beq_eq_false_iff_ne.mpr isLength
      simp only [headerAssignments, if_neg isLength, assignAll, List.foldl_cons, List.foldl_nil, assign,
        List.any_cons, other, Bool.false_or]

/-- Entries with distinct keys inserted one by one, each of them new. -/
theorem insert_all_getElem (entries : List (Bytes × Bytes)) (map : HeaderMap)
    (distinct : entries.Pairwise fun a b => a.1 ≠ b.1) (fresh : ∀ entry ∈ entries, entry.1 ∉ map)
    (key value : Bytes) :
    (entries.foldl (fun props header => props.insertIfNew header.1 header.2) map)[key]? = some value ↔
      map[key]? = some value ∨ (key, value) ∈ entries := by
  induction entries generalizing map with
  | nil => simp
  | cons entry entries inductionHypothesis =>
    obtain ⟨new, others⟩ := List.forall_mem_cons.mp fresh
    obtain ⟨first, rest⟩ := List.pairwise_cons.mp distinct
    rw [List.foldl_cons, inductionHypothesis _ rest]
    · rw [Std.ExtTreeMap.getElem?_insertIfNew, List.mem_cons, Prod.ext_iff]
      by_cases same : entry.1 = key
      · subst same
        simp [new, eq_comm]
      · simp [same, Ne.symm same]
    · intro other member
      simp [Std.ExtTreeMap.mem_insertIfNew, first other member, others other member]

/-- A map is rebuilt from its own entries. -/
theorem insert_all_toList (map : HeaderMap) :
    map.toList.foldl (fun props header => props.insertIfNew header.1 header.2) ∅ = map := by
  apply Std.ExtTreeMap.ext_getElem?
  intro key
  apply Option.ext
  intro value
  rw [insert_all_getElem map.toList ∅
      (map.distinct_keys_toList.imp fun apart same => apart (Std.compare_eq_iff_eq.mpr same))
      (by simp),
    Std.ExtTreeMap.mem_toList_iff_getElem?_eq_some]
  simp

/-- Lines that are accepted are assigned in order, whatever follows them. No such line
is blank, so none of them ends the scan. -/
theorem header_loop_accepts (lines : List (Bytes × List Assignment)) (rest : List Bytes)
    (parser : WsParser)
    (accepted : ∀ line ∈ lines, line.1 ≠ [] ∧ lineMeaning (line.1 ++ [lf]) = (line.2, none)) :
    ∃ tks, headerLoop (lines.map (·.1 ++ [cr]) ++ rest) parser =
      headerLoop rest { assignAll parser (lines.flatMap (·.2)) with tks } := by
  induction lines generalizing parser with
  | nil => exact ⟨parser.tks, rfl⟩
  | cons line lines inductionHypothesis =>
    obtain ⟨⟨nonempty, meaning⟩, others⟩ := List.forall_mem_cons.mp accepted
    obtain ⟨tks, loop⟩ := header_loop_cons parser (line.1 ++ [cr]) (by simp [nonempty]) (by simp)
    rw [List.dropLast_concat, meaning] at loop
    obtain ⟨stream, following⟩ :=
      inductionHypothesis { assignAll parser line.2 with tks } others
    refine ⟨stream, ?_⟩
    rw [List.map_cons, List.cons_append, loop, loopBehind, following, assign_all_tks,
      List.flatMap_cons, assignAll, assignAll, assignAll, List.foldl_append]

/-- A blank line ends the scan behind a Content-Length header, and is accepted otherwise. -/
theorem blank_line_ends (rest : List Bytes) (parser : WsParser)
    (ends : parser.hasBody = true ∨ rest = []) :
    ∃ tks, headerLoop ([cr] :: rest) parser = .ok () { parser with tks } := by
  by_cases hasBody : parser.hasBody = true
  · exact ⟨parser.tks, by rw [headerLoop, if_pos ⟨rfl, hasBody⟩]⟩
  · obtain rfl : rest = [] := ends.resolve_left hasBody
    obtain ⟨tks, loop⟩ := header_loop_cons parser [cr] (fun blank => hasBody blank.2) (by simp)
    exact ⟨tks, loop []⟩

/-- Lines closed by the line end of the protocol are read one by one. -/
theorem getlines_delimited (lines : List Bytes) (rest : Bytes)
    (free : ∀ line ∈ lines, lf ∉ line) :
    getlines lf (lines.flatMap (· ++ msgDelimiter) ++ rest) =
      lines.map (· ++ [cr]) ++ getlines lf rest := by
  induction lines with
  | nil => rfl
  | cons line lines inductionHypothesis =>
    obtain ⟨first, others⟩ := List.forall_mem_cons.mp free
    have whole : (line :: lines).flatMap (· ++ msgDelimiter) ++ rest =
        (line ++ [cr]) ++ lf :: (lines.flatMap (· ++ msgDelimiter) ++ rest) := by
      simp [msgDelimiter]
    have closed : lf ∉ line ++ [cr] := by
      simp only [List.mem_append, first, List.mem_singleton, false_or]
      decide
    rw [whole, getlines_first lf _ _ closed, inductionHypothesis others]
    rfl

/-- The body loop takes the end of the payload, up to its whole length. -/
theorem body_loop_suffix (str : Bytes) (size : Nat) (within : size ≤ str.length) (body : Bytes) :
    bodyLoop str size body = .ok (body ++ str.drop (str.length - size)) := by
  induction size generalizing body with
  | zero => simp [bodyLoop]
  | succ size inductionHypothesis =>
    have index : bodyIndex str (size + 1) = str.length - (size + 1) := if_pos within
    have inside : str.length - (size + 1) < str.length := by omega
    rw [bodyLoop, index, List.getElem?_eq_getElem inside]
    simp only
    rw [inductionHypothesis (by omega), List.append_assoc, List.singleton_append,
      show str.length - size = str.length - (size + 1) + 1 by omega,
      ← List.drop_eq_getElem_cons inside]

/-- A message within the alphabet of the lexer, whose Content-Length header gives the
size of its extra content. Without extra content the header may be missing. -/
structure Codable (message : ASRMessageRequest) : Prop where
  keys : ∀ key ∈ message.headers, KeyWord key
  values : ∀ key value : Bytes, message.headers[key]? = some value → value = [] ∨ ValueWord value
  bounded : message.extra.length < 2 ^ 31
  sized : message.extra ≠ [] →
    message.headers[bytes "Content-Length"]? = some (decimal message.extra.length)
  unsized : message.extra = [] →
    message.headers[bytes "Content-Length"]? = none ∨
      message.headers[bytes "Content-Length"]? = some (bytes "0")

/-- A Content-Length header of such a message reads back as the size of the content. -/
theorem Codable.length_value {message : ASRMessageRequest} (codable : Codable message)
    (value : Bytes) (entry : message.headers[bytes "Content-Length"]? = some value) :
    stoi value = .ok (message.extra.length : Int) := by
  have shape : value = decimal message.extra.length := by
    by_cases empty : message.extra = []
    · cases codable.unsized empty with
      | inl absent =>
        exact absurd (absent.symm.trans entry) (by simp)
      | inr zero =>
        rw [empty]
        exact Option.some.inj (entry.symm.trans zero)
    · exact Option.some.inj (entry.symm.trans (codable.sized empty))
  rw [shape, stoi_decimal _ codable.bounded]

/-- The start line of a request is accepted, and carries the method's name. -/
theorem start_line_meaning (c : Method) :
    lineMeaning (firstLine c ++ [lf]) = ([.version (bytes "2.4"), .command (getMethodString c)], none) := by
  cases c <;> rfl

/-- A start line has no line end inside. -/
theorem start_line_free (c : Method) : firstLine c ≠ [] ∧ lf ∉ firstLine c := by
  cases c <;> decide

/-- A header as it is written before the line end. -/
def headerText (header : Bytes × Bytes) : Bytes := header.1 ++ [colon] ++ header.2

/-- What `raw` writes behind the blank line. -/
def extraText (message : ASRMessageRequest) : Bytes :=
  if message.extra = [] then [] else message.extra ++ msgDelimiter

/-- The lines of an encoded message: the start line, the headers in order, a blank line
and whatever lies in the extra content. -/
theorem getlines_raw (message : ASRMessageRequest) (start : message.startLine ≠ [])
    (free : lf ∉ message.startLine ∧ ∀ header ∈ message.headers.toList, lf ∉ headerText header) :
    getlines lf message.raw =
      (message.startLine :: message.headers.toList.map headerText).map (· ++ [cr]) ++
        [cr] :: getlines lf (extraText message) := by
  have whole : message.raw =
      (message.startLine :: message.headers.toList.map headerText).flatMap (· ++ msgDelimiter) ++
        ([cr] ++ lf :: extraText message) := by
    have written : headerLine = fun header => headerText header ++ msgDelimiter := rfl
    simp [raw, start, written, extraText, msgDelimiter, List.flatMap_map]
  have texts : ∀ line ∈ message.startLine :: message.headers.toList.map headerText, lf ∉ line := by
    rintro line (_ | ⟨_, member⟩)
    · exact free.1
    · obtain ⟨header, isHeader, rfl⟩ := List.mem_map.mp member
      exact free.2 header isHeader
  rw [whole, getlines_delimited _ _ texts, getlines_first lf [cr] _ (by decide)]

/-- The text of a header within the alphabet has no line end inside. -/
theorem header_text_free (header : Bytes × Bytes) (keyWord : KeyWord header.1)
    (text : header.2 = [] ∨ ValueWord header.2) : lf ∉ headerText header := by
  have key : lf ∉ header.1 := fun member => absurd (keyWord.word lf member) (by decide)
  have value : lf ∉ header.2 := by
    cases text with
    | inl empty =>
      simp [empty]
    | inr valueWord =>
      exact fun member => absurd (valueWord.word lf member) (by decide)
  have separator : lf ≠ colon := by decide
  simp [headerText, key, value, separator]

/-- An entry of such a message is a header within the alphabet. -/
theorem Codable.header {message : ASRMessageRequest} (codable : Codable message)
    (header : Bytes × Bytes) (member : header ∈ message.headers.toList) :
    KeyWord header.1 ∧ (header.2 = [] ∨ ValueWord header.2) := by
  have entry : message.headers[header.1]? = some header.2 :=
    Std.ExtTreeMap.mem_toList_iff_getElem?_eq_some.mp member
  refine ⟨codable.keys header.1 ?_, codable.values _ _ entry⟩
  rw [Std.ExtTreeMap.mem_iff_isSome_getElem?, entry]
  rfl

/-- A message with content declares its size. -/
theorem Codable.declared {message : ASRMessageRequest} (codable : Codable message) :
    message.headers.toList.any (·.1 == bytes "Content-Length") = true ∨ message.extra = [] := by
  by_cases empty : message.extra = []
  · exact Or.inr empty
  · exact Or.inl (List.any_eq_true.mpr ⟨(_, _),
      Std.ExtTreeMap.mem_toList_iff_getElem?_eq_some.mpr (codable.sized empty), by simp⟩)

/-- A start line with this meaning and the headers behind it are accepted, whatever
follows: the map is rebuilt, and the size of the content is declared. -/
theorem header_section (start version command : Bytes) (message : ASRMessageRequest)
    (nonempty : start ≠ [])
    (meaning : lineMeaning (start ++ [lf]) = ([.version version, .command command], none))
    (codable : Codable message) (rest : List Bytes) :
    ∃ tks, headerLoop ((start :: message.headers.toList.map headerText).map (· ++ [cr]) ++ rest) {} =
      headerLoop rest {
        tks
        version
        command
        hasBody := message.headers.toList.any (·.1 == bytes "Content-Length")
        sizeBody := UInt64.ofInt message.extra.length
        props := message.headers } := by
  -- The lines, each with its meaning.
  let lines : List (Bytes × List Assignment) :=
    (start, [.version version, .command command]) ::
      message.headers.toList.map fun header =>
        (headerText header, headerAssignments message.extra.length header)
  have accepted : ∀ line ∈ lines,
      line.1 ≠ [] ∧ lineMeaning (line.1 ++ [lf]) = (line.2, none) := by
    refine List.forall_mem_cons.mpr ⟨⟨nonempty, meaning⟩, fun line member => ?_⟩
    obtain ⟨header, isHeader, rfl⟩ := List.mem_map.mp member
    obtain ⟨keyWord, text⟩ := codable.header header isHeader
    refine ⟨by simp [headerText], header_line_meaning _ header keyWord text fun isLength => ?_⟩
    exact codable.length_value header.2
      (isLength ▸ Std.ExtTreeMap.mem_toList_iff_getElem?_eq_some.mp isHeader)
  obtain ⟨tks, scanned⟩ := header_loop_accepts lines rest {} accepted
  have texts : lines.map (·.1 ++ [cr]) =
      (start :: message.headers.toList.map headerText).map (· ++ [cr]) := by
    simp [lines, Function.comp_def]
  have assigned : lines.flatMap (·.2) =
      [.version version, .command command] ++
        message.headers.toList.flatMap (headerAssignments message.extra.length) := by
    simp [lines, List.flatMap_map]
  have size : (if message.headers.toList.any (·.1 == bytes "Content-Length") then
      UInt64.ofInt message.extra.length else 0) = UInt64.ofInt message.extra.length := by
    cases codable.declared with
    | inl found =>
      rw [if_pos found]
    | inr empty =>
      split_ifs
      · rfl
      · rw [empty]
        rfl
  rw [texts, assigned, assignAll, List.foldl_append, ← assignAll, ← assignAll,
    assign_headers] at scanned
  simp only [assignAll, List.foldl_cons, List.foldl_nil, assign, insert_all_toList,
    Bool.false_or, size] at scanned
  exact ⟨tks, scanned⟩

/-- The header scan of an encoded request. Without a Content-Length header the blank
line does not end it, but then nothing follows. -/
theorem headers_raw (c : Method) (message : ASRMessageRequest)
    (start : message.startLine = firstLine c) (codable : Codable message) :
    ∃ tks, headers message.raw = .ok () {
      tks
      version := bytes "2.4"
      command := getMethodString c
      hasBody := message.headers.toList.any (·.1 == bytes "Content-Length")
      sizeBody := UInt64.ofInt message.extra.length
      props := message.headers } := by
  obtain ⟨nonempty, free⟩ := start_line_free c
  rw [← start] at nonempty free
  have texts (header : Bytes × Bytes) (member : header ∈ message.headers.toList) :
      lf ∉ headerText header := by
    obtain ⟨keyWord, text⟩ := codable.header header member
    exact header_text_free header keyWord text
  obtain ⟨tks, scanned⟩ := header_section message.startLine _ _ message nonempty
    (start ▸ start_line_meaning c) codable ([cr] :: getlines lf (extraText message))
  rw [WsParser.headers, getlines_raw message nonempty ⟨free, texts⟩, scanned]
  exact blank_line_ends _ _
    (codable.declared.imp id fun empty => by simp [extraText, empty, getlines])

/-- The end of an encoded message, as long as its extra content. -/
theorem raw_suffix (message : ASRMessageRequest) :
    message.extra.length ≤ message.raw.length ∧
      message.raw.drop (message.raw.length - message.extra.length) =
        (message.extra ++ msgDelimiter).drop 2 := by
  by_cases empty : message.extra = []
  · simp [empty, msgDelimiter]
  · obtain ⟨before, whole⟩ : ∃ before, message.raw = before ++ (message.extra ++ msgDelimiter) :=
      ⟨_, by rw [raw, if_neg empty]⟩
    have size : message.raw.length = before.length + (message.extra.length + 2) := by
      simp [whole, msgDelimiter]
    refine ⟨by omega, ?_⟩
    rw [size, show before.length + (message.extra.length + 2) - message.extra.length =
      before.length + 2 by omega, whole, ← List.drop_drop, List.drop_left]

/-- What `consume` makes of an encoded request: its start line and its headers again,
and its content shifted by one line end. -/
theorem consume_raw (c : Method) (message : ASRMessageRequest)
    (start : message.startLine = firstLine c) (codable : Codable message) :
    ASRMessageResponse.consume message.raw =
      .ok { message with extra := (message.extra ++ msgDelimiter).drop 2 } := by
  obtain ⟨tks, scanned⟩ := headers_raw c message start codable
  obtain ⟨within, suffix⟩ := raw_suffix message
  have title : bytes "ASR 2.4 " ++ getMethodString c = message.startLine := by
    rw [start]
    rfl
  have nonempty : message.raw ≠ [] := by simp [raw, msgDelimiter]
  have size : (UInt64.ofInt message.extra.length).toNat = message.extra.length := by
    have := size_of_declared message.extra.length
    have := codable.bounded
    omega
  rw [ASRMessageResponse.consume, WsParser.ofString, if_neg nonempty, scanned]
  simp only [size, body_loop_suffix message.raw _ within, suffix, List.nil_append]
  split_ifs with hasBody
  · simp only [Except.map, bind, Except.bind, pure, Except.pure, title]
  · have empty : message.extra = [] := by
      by_contra nonempty
      exact hasBody (List.any_eq_true.mpr ⟨(_, _),
        Std.ExtTreeMap.mem_toList_iff_getElem?_eq_some.mpr (codable.sized nonempty), by simp⟩)
    simp only [bind, Except.bind, pure, Except.pure, title, empty]
    rfl

/-- One edit of a request. -/
inductive Edit where
  | setHeader (key val : Bytes)
  | removeHeader (key : Bytes)
  | setExtra (value : Bytes)
deriving DecidableEq

/-- Perform one edit. -/
def edit (request : ASRMessageRequest) : Edit → ASRMessageRequest
  | .setHeader key val => ASRMessageRequest.setHeader request key val
  | .removeHeader key => ASRMessageRequest.removeHeader request key
  | .setExtra value => ASRMessageRequest.setExtra request value

/-- A request built from a method by edits in order. -/
def build (c : Method) (edits : List Edit) : ASRMessageRequest :=
  edits.foldl edit (ASRMessageRequest.create c)

/-- Edits keep the start line. -/
theorem build_start_line (c : Method) (edits : List Edit) :
    (build c edits).startLine = firstLine c := by
  have kept (request : ASRMessageRequest) :
      (edits.foldl edit request).startLine = request.startLine := by
    induction edits generalizing request with
    | nil => rfl
    | cons first edits inductionHypothesis =>
      rw [List.foldl_cons, inductionHypothesis]
      cases first <;> rfl
  exact kept _

/-- Decoding the encoded message yields it again: the start line, the headers and the
extra content. -/
def RoundTrips (message : ASRMessageRequest) : Prop :=
  ASRMessageResponse.consume message.raw = .ok message

/-- A request within the alphabet is decoded as it was encoded exactly when its extra
content is the end of a repetition of line ends. -/
theorem build_round_trips_iff (c : Method) (edits : List Edit) (codable : Codable (build c edits)) :
    RoundTrips (build c edits) ↔
      ∃ count, (build c edits).extra <:+ repeated msgDelimiter count := by
  rw [← shift_fixed_iff msgDelimiter _ (by decide), RoundTrips,
    consume_raw c _ (build_start_line c edits) codable, Except.ok.injEq]
  constructor
  · intro same
    exact congrArg ASRMessageParser.extra same
  · intro same
    rw [show (2 : Nat) = msgDelimiter.length from rfl, same]

/-- A number is a value that the lexer reads as one word. -/
theorem decimal_value (n : Nat) : ValueWord (decimal n) := by
  obtain ⟨first, rest, shape⟩ := List.exists_cons_of_ne_nil (decimal_ne_nil n)
  have digit (c : Byte) (member : c ∈ decimal n) : isDigit c = true := decimal_digits n c member
  refine ⟨⟨first, rest, shape, ?_⟩, fun c member => ?_, fun title => ?_⟩
  · simp [wordByte, digit first (by simp [shape])]
  · simp [wordByte, digit c member]
  · exact absurd (digit 65 (by rw [title]; decide)) (by decide)

/-- A request with content and no header but its length is within the alphabet, whatever
bytes the content has. -/
theorem sized_codable (c : Method) (extra : Bytes) (nonempty : extra ≠ [])
    (bounded : extra.length < 2 ^ 31) :
    Codable (build c
      [.setHeader (bytes "Content-Length") (decimal extra.length), .setExtra extra]) where
  keys key member := by
    have same : bytes "Content-Length" = key := by
      simpa [build, edit, ASRMessageRequest.create, ASRMessageRequest.setHeader,
        ASRMessageRequest.setExtra, Std.ExtTreeMap.mem_insert] using member
    subst same
    exact ⟨by decide, List.all_eq_true.mp (by decide), by decide⟩
  values key value entry := by
    have shape : bytes "Content-Length" = key ∧ decimal extra.length = value := by
      simpa [build, edit, ASRMessageRequest.create, ASRMessageRequest.setHeader,
        ASRMessageRequest.setExtra, Std.ExtTreeMap.getElem?_insert] using entry
    exact Or.inr (shape.2 ▸ decimal_value extra.length)
  bounded := bounded
  sized _ := Std.ExtTreeMap.getElem?_insert_self
  unsized empty := absurd empty nonempty

/-- Two line ends as content survive the way to the wire and back. -/
theorem line_end_content_round_trips :
    RoundTrips (build .startRecognition
      [.setHeader (bytes "Content-Length") (decimal 4), .setExtra [cr, lf, cr, lf]]) :=
  (build_round_trips_iff .startRecognition _
    (sized_codable .startRecognition [cr, lf, cr, lf] (by decide) (by decide))).mpr
    ⟨2, List.suffix_refl _⟩

/-- The grammar reference of a recognition does not: the decoded content has lost its
first two letters to the line end behind it. -/
theorem grammar_content_is_shifted :
    let request := build .startRecognition
      [.setHeader (bytes "Content-Length") (decimal 16), .setExtra (bytes "builtin:slm/test")]
    Codable request ∧ ¬ RoundTrips request := by
  have codable : Codable (build .startRecognition
      [.setHeader (bytes "Content-Length") (decimal 16), .setExtra (bytes "builtin:slm/test")]) :=
    sized_codable .startRecognition (bytes "builtin:slm/test") (by decide) (by decide)
  refine ⟨codable, fun same => ?_⟩
  have decoded := (consume_raw _ _ (build_start_line _ _) codable).symm.trans same
  exact absurd (congrArg ASRMessageParser.extra (Except.ok.inj decoded)) (by decide)

end AsrClient
