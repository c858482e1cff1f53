import AsrClient.Codec
import AsrClient.Environment

/-!
# The lines of a request for parameters

A request is written as lines closed by the line end of the protocol: the start line,
one line for each header in the order of the map, and an empty line. Nothing that the
application sets is checked or quoted on the way. Numbers and switches are written with
digits and letters, but three parameters are texts of any bytes.

So the lines that a receiver sees are the headers that were set exactly when none of
these texts has a line end inside. Between such requests the bytes tell the headers
apart: a key of the client has no separator inside.
-/

namespace AsrClient

/-- The pieces of a text between line ends, and a last piece without one unless it is
empty. -/
def crlfLines : Bytes → List Bytes
  | [] => []
  | [c] => [[c]]
  | c :: d :: rest =>
      if c = cr ∧ d = lf then [] :: crlfLines rest
      else match crlfLines (d :: rest) with
        | [] => [[c]]
        | piece :: pieces => (c :: piece) :: pieces

/-- A text without a line end inside. -/
def OneLine (text : Bytes) : Prop := ¬ msgDelimiter <:+: text

instance (text : Bytes) : Decidable (OneLine text) := inferInstanceAs (Decidable (¬ _))

/-- A text begins a line end and continues another text, or it is one line exactly when
what follows its first byte is. -/
theorem one_line_cons (c d : Byte) (rest : Bytes) :
    OneLine (c :: d :: rest) ↔ ¬ (c = cr ∧ d = lf) ∧ OneLine (d :: rest) := by
  rw [OneLine, List.infix_cons_iff, not_or, msgDelimiter, List.cons_prefix_cons,
    List.cons_prefix_cons]
  simp only [List.nil_prefix, and_true, eq_comm (a := cr), eq_comm (a := lf)]
  rfl

/-- A single byte is one line. -/
theorem one_line_singleton (c : Byte) : OneLine [c] := by
  intro inside
  have short := inside.length_le
  simp [msgDelimiter] at short

/-- The end of a text of one line is one line. -/
theorem OneLine.tail {c : Byte} {rest : Bytes} (oneLine : OneLine (c :: rest)) : OneLine rest :=
  fun inside => oneLine (inside.trans (List.suffix_cons c rest).isInfix)

/-- What precedes a text does not matter when it has no carriage return. -/
theorem one_line_append (front text : Bytes) (free : cr ∉ front) :
    OneLine (front ++ text) ↔ OneLine text := by
  induction front with
  | nil => rfl
  | cons c front inductionHypothesis =>
    rw [List.mem_cons, not_or] at free
    rw [← inductionHypothesis free.2, List.cons_append]
    constructor
    · exact OneLine.tail
    · intro oneLine inside
      cases List.infix_cons_iff.mp inside with
      | inl first =>
        exact free.1 (List.cons_prefix_cons.mp first).1
      | inr later =>
        exact oneLine later

/-- A text without a carriage return is one line. -/
theorem one_line_of_free (text : Bytes) (free : cr ∉ text) : OneLine text := by
  have whole := one_line_append text [] free
  rw [List.append_nil] at whole
  exact whole.mpr (by decide)

/-- A line of a text is read up to the line end that follows it. -/
theorem crlf_lines_first (line rest : Bytes) (oneLine : OneLine line) :
    crlfLines (line ++ msgDelimiter ++ rest) = line :: crlfLines rest := by
  induction line with
  | nil => simp [msgDelimiter, crlfLines]
  | cons c line inductionHypothesis =>
    have later := inductionHypothesis oneLine.tail
    cases line with
    | nil =>
      have apart : ¬ (c = cr ∧ cr = lf) := by
        rintro ⟨-, same⟩
        exact absurd same (by decide)
      simp only [List.nil_append, msgDelimiter, List.cons_append] at later ⊢
      rw [crlfLines, if_neg apart, later]
    | cons d line =>
      have apart := ((one_line_cons c d line).mp oneLine).1
      simp only [List.cons_append] at later ⊢
      rw [crlfLines, if_neg apart, later]

/-- Lines closed one by one are read one by one. -/
theorem crlf_lines_delimited (lines : List Bytes) (rest : Bytes)
    (oneLine : ∀ line ∈ lines, OneLine line) :
    crlfLines (lines.flatMap (· ++ msgDelimiter) ++ rest) = lines ++ crlfLines rest := by
  induction lines with
  | nil => rfl
  | cons line lines inductionHypothesis =>
    obtain ⟨first, others⟩ := List.forall_mem_cons.mp oneLine
    rw [List.flatMap_cons, List.append_assoc, crlf_lines_first _ _ first, inductionHypothesis others,
      List.cons_append]

/-- Every piece that is read is one line, and the first of them begins the text. -/
theorem crlf_lines_pieces (text : Bytes) :
    (∀ piece ∈ crlfLines text, OneLine piece) ∧
      ∀ piece pieces, crlfLines text = piece :: pieces → piece <+: text := by
  induction text using crlfLines.induct with
  | case1 => simp [crlfLines]
  | case2 c =>
    simp only [crlfLines, List.mem_singleton, forall_eq, List.cons.injEq]
    refine ⟨one_line_singleton c, ?_⟩
    rintro piece pieces ⟨rfl, -⟩
    exact List.prefix_rfl
  | case3 c d rest ends inductionHypothesis =>
    rw [crlfLines, if_pos ends]
    refine ⟨List.forall_mem_cons.mpr ⟨by decide, inductionHypothesis.1⟩, ?_⟩
    rintro piece pieces whole
    obtain ⟨rfl, -⟩ := List.cons.inj whole
    exact List.nil_prefix
  | case4 c d rest apart noLines inductionHypothesis =>
    rw [crlfLines, if_neg apart, noLines]
    refine ⟨by simpa using one_line_singleton c, ?_⟩
    rintro piece pieces whole
    obtain ⟨rfl, -⟩ := List.cons.inj whole
    exact List.cons_prefix_cons.mpr ⟨rfl, List.nil_prefix⟩
  | case5 c d rest apart piece pieces lines inductionHypothesis =>
    obtain ⟨oneLines, begins⟩ := inductionHypothesis
    have prefix_ := begins piece pieces lines
    rw [lines] at oneLines
    obtain ⟨first, others⟩ := List.forall_mem_cons.mp oneLines
    rw [crlfLines, if_neg apart, lines]
    refine ⟨List.forall_mem_cons.mpr ⟨?_, others⟩, ?_⟩
    · cases piece with
      | nil => exact one_line_singleton c
      | cons e piece =>
        obtain rfl : e = d := (List.cons_prefix_cons.mp prefix_).1
        exact (one_line_cons c e piece).mpr ⟨apart, first⟩
    · rintro other others' whole
      obtain ⟨rfl, -⟩ := List.cons.inj whole
      exact List.cons_prefix_cons.mpr ⟨rfl, prefix_⟩

/-- The lines of a message without extra content are the start line, its headers and an
empty line exactly when each header is one line. -/
theorem raw_lines_iff (message : ASRMessageRequest) (start : message.startLine ≠ [])
    (oneLine : OneLine message.startLine) (noExtra : message.extra = []) :
    crlfLines message.raw = message.startLine :: message.headers.toList.map headerText ++ [[]] ↔
      ∀ header ∈ message.headers.toList, OneLine (headerText header) := by
  have whole : message.raw =
      (message.startLine :: message.headers.toList.map headerText).flatMap (· ++ msgDelimiter) ++
        msgDelimiter := by
    have written : ASRMessageParser.headerLine = fun header => headerText header ++ msgDelimiter := rfl
    simp [ASRMessageParser.raw, start, noExtra, written, List.flatMap_map]
  constructor
  · intro lines header member
    apply (crlf_lines_pieces message.raw).1
    rw [lines]
    simp only [List.cons_append, List.mem_cons, List.mem_append, List.mem_map]
    exact Or.inr (Or.inl ⟨header, member, rfl⟩)
  · intro headers
    have texts : ∀ line ∈ message.startLine :: message.headers.toList.map headerText, OneLine line := by
      rintro line (_ | ⟨_, member⟩)
      · exact oneLine
      · obtain ⟨header, isHeader, rfl⟩ := List.mem_map.mp member
        exact headers header isHeader
    have last : crlfLines msgDelimiter = [[]] := by decide
    rw [whole, crlf_lines_delimited _ _ texts, last]

/-- A key of the client: no carriage return and no separator inside. -/
def PlainKey (key : Bytes) : Prop := cr ∉ key ∧ colon ∉ key

instance (key : Bytes) : Decidable (PlainKey key) := inferInstanceAs (Decidable (_ ∧ _))

/-- The header that a line stands for: it is divided at its first separator. -/
def readHeader (line : Bytes) : Bytes × Bytes :=
  (line.takeWhile (· != colon), (line.dropWhile (· != colon)).tail)

/-- A header with a plain key can be told from its line. -/
theorem read_header_text (header : Bytes × Bytes) (plain : PlainKey header.1) :
    readHeader (headerText header) = header := by
  have other : ∀ c ∈ header.1, (c != colon) = true := by
    intro c member
    rw [bne_iff_ne]
    rintro rfl
    exact plain.2 member
  rw [readHeader, headerText, List.append_assoc, List.takeWhile_append_of_pos other,
    List.dropWhile_append_of_pos other, List.singleton_append,
    List.takeWhile_cons_of_neg (by simp), List.dropWhile_cons_of_neg (by simp), List.append_nil,
    List.tail_cons]

namespace ASRSendMessage

/-- Every header of a request has this property. -/
def Entries (holds : Bytes → Bytes → Prop) (request : ASRMessageRequest) : Prop :=
  ∀ key value : Bytes, request.headers[key]? = some value → holds key value

section Entries

variable {holds : Bytes → Bytes → Prop} {request : ASRMessageRequest}
  (entries : Entries holds request)

include entries

/-- A header that is set under a condition keeps the property of all. -/
theorem Entries.headerIf (present : Bool) (key : String) (val : Bytes)
    (new : present = true → holds (bytes key) val) :
    Entries holds (headerIf present key val request) := by
  intro other value entry
  rw [ASRSendMessage.headerIf] at entry
  split_ifs at entry with isPresent
  · rw [ASRMessageRequest.setHeader, Std.ExtTreeMap.getElem?_insert] at entry
    split_ifs at entry with same
    · obtain rfl : bytes key = other := Std.compare_eq_iff_eq.mp same
      obtain rfl : val = value := Option.some.inj entry
      exact new isPresent
    · exact entries other value entry
  · exact entries other value entry

/-- A number does. -/
theorem Entries.number (key : String) (value : UInt32)
    (new : ∀ n, holds (bytes key) (decimal n)) : Entries holds (numberHeader key value request) :=
  entries.headerIf _ _ _ fun _ => new _

/-- A switch does. -/
theorem Entries.flag (key : String) (enabled : Bool) (new : holds (bytes key) (bytes "true")) :
    Entries holds (flagHeader key enabled request) :=
  entries.headerIf _ _ _ fun _ => new

/-- A text does. -/
theorem Entries.text (key : String) (value : Bytes) (new : holds (bytes key) value) :
    Entries holds (textHeader key value request) :=
  entries.headerIf _ _ _ fun _ => new

end Entries

/-- A header of a request for parameters: its key is plain, and its value is one line
unless it is one of the three texts. -/
def ParameterHeader (config : RecognitionConfig) (key value : Bytes) : Prop :=
  PlainKey key ∧ (OneLine value ∨
    value ∈ [config.accountTag, config.channelIdentifier, config.mediaType])

/-- Every header of the request is of this kind. -/
theorem set_parameters_entries (config : RecognitionConfig) :
    Entries (ParameterHeader config) (setParameters config) := by
  have none : Entries (ParameterHeader config) (ASRMessageRequest.create .setParameters) := by
    intro key value entry
    simp [ASRMessageRequest.create] at entry
  have digits (key : String) (plain : PlainKey (bytes key)) (n : Nat) :
      ParameterHeader config (bytes key) (decimal n) := by
    refine ⟨plain, Or.inl (one_line_of_free _ fun member => ?_)⟩
    exact absurd (decimal_digits n cr member) (by decide)
  have switch (key : String) (plain : PlainKey (bytes key)) :
      ParameterHeader config (bytes key) (bytes "true") := ⟨plain, Or.inl (by decide)⟩
  have sent (key : String) (plain : PlainKey (bytes key)) (value : Bytes)
      (isText : value ∈ [config.accountTag, config.channelIdentifier, config.mediaType]) :
      ParameterHeader config (bytes key) value := ⟨plain, Or.inr isText⟩
  exact none
    |>.number "decoder.confidenceThreshold" config.confidenceThreshold (digits _ (by decide))
    |>.number "decoder.maxSentences" config.maxSentences (digits _ (by decide))
    |>.headerIf config.noInputTimeoutEnabled "noInputTimeout.enabled" _ (fun _ => digits _ (by decide) 1)
    |>.number "noInputTimeout.value" _ (digits _ (by decide))
    |>.headerIf config.recognitionTimeoutEnabled "recognitionTimeout.enabled" _ (fun _ => digits _ (by decide) 1)
    |>.number "recognitionTimeout.value" _ (digits _ (by decide))
    |>.flag "Infer-age-enabled" config.inferAgeEnabled (switch _ (by decide))
    |>.flag "Infer-emotion-enabled" config.inferEmotionEnabled (switch _ (by decide))
    |>.flag "Infer-gender-enabled" config.inferGenderEnabled (switch _ (by decide))
    |>.number "endpointer.headMargin" config.headMarginMilliseconds (digits _ (by decide))
    |>.number "endpointer.tailMargin" config.tailMarginMilliseconds (digits _ (by decide))
    |>.number "endpointer.waitEnd" config.waitEndMilliseconds (digits _ (by decide))
    |>.flag "decoder.continuousMode" config.continuousMode (switch _ (by decide))
    |>.number "endpointer.maxSegmentDuration" config.maxSegmentDuration (digits _ (by decide))
    |>.headerIf config.startInputTimers "decoder.startInputTimers" _ (fun _ => digits _ (by decide) 1)
    |>.number "endpointer.levelMode" config.endpointerLevelMode (digits _ (by decide))
    |>.number "endpointer.autoLevelLen" _ (digits _ (by decide))
    |>.number "endpointer.levelThreshold" _ (digits _ (by decide))
    |>.flag "Ver-Buffer-Utterance" config.verifyBufferUtterance (switch _ (by decide))
    |>.text "licenseManager.accountTag" config.accountTag (sent _ (by decide) _ (by simp))
    |>.text "Channel-Identifier" config.channelIdentifier (sent _ (by decide) _ (by simp))
    |>.text "Media-Type" config.mediaType (sent _ (by decide) _ (by simp))

/-- The request has no extra content. -/
theorem set_parameters_extra (config : RecognitionConfig) : (setParameters config).extra = [] := by
  have kept (present : Bool) (key : String) (val : Bytes) (request : ASRMessageRequest) :
      (headerIf present key val request).extra = request.extra := by
    rw [headerIf]
    split_ifs <;> rfl
  simp only [setParameters, numberHeader, flagHeader, textHeader, kept]
  rfl

/-- A header behind one more header. -/
theorem text_header_getElem (key : String) (text : Bytes) (request : ASRMessageRequest)
    (other : Bytes) :
    (textHeader key text request).headers[other]? =
      if text ≠ [] ∧ bytes key = other then some text else request.headers[other]? := by
  rw [textHeader, header_if_getElem]
  simp

/-- A text that is not empty is sent as it was set: no later header replaces it. -/
theorem text_sent (config : RecognitionConfig) (text : Bytes) (nonempty : text ≠ [])
    (isText : text ∈ [config.accountTag, config.channelIdentifier, config.mediaType]) :
    ∃ key : Bytes, (setParameters config).headers[key]? = some text := by
  obtain ⟨request, whole⟩ : ∃ request, setParameters config =
      textHeader "Media-Type" config.mediaType (textHeader "Channel-Identifier"
        config.channelIdentifier (textHeader "licenseManager.accountTag" config.accountTag request)) :=
    ⟨_, rfl⟩
  have channel : bytes "Media-Type" ≠ bytes "Channel-Identifier" := by decide
  have account : bytes "Media-Type" ≠ bytes "licenseManager.accountTag" ∧
      bytes "Channel-Identifier" ≠ bytes "licenseManager.accountTag" := by decide
  simp only [whole, text_header_getElem]
  simp only [List.mem_cons, List.not_mem_nil, or_false] at isText
  rcases isText with rfl | rfl | rfl
  · exact ⟨bytes "licenseManager.accountTag", by simp [account, nonempty]⟩
  · exact ⟨bytes "Channel-Identifier", by simp [channel, nonempty]⟩
  · exact ⟨bytes "Media-Type", by simp [nonempty]⟩

/-- The lines of the request are the start line, its headers in the order of the map, each
with the value as it was set, and an empty line. -/
def LinesAsSet (config : RecognitionConfig) : Prop :=
  crlfLines (setParameters config).raw =
    (setParameters config).startLine :: (setParameters config).headers.toList.map headerText ++ [[]]

/-- The lines are as set exactly when each of the three texts is one line. -/
theorem lines_as_set_iff (config : RecognitionConfig) :
    LinesAsSet config ↔
      ∀ text ∈ [config.accountTag, config.channelIdentifier, config.mediaType], OneLine text := by
  have start := set_parameters_start_line config
  have entries := set_parameters_entries config
  have byValue (header : Bytes × Bytes) (member : header ∈ (setParameters config).headers.toList) :
      OneLine (headerText header) ↔ OneLine header.2 := by
    obtain ⟨plain, -⟩ := entries header.1 header.2
      (Std.ExtTreeMap.mem_toList_iff_getElem?_eq_some.mp member)
    apply one_line_append
    have separator : cr ≠ colon := by decide
    simp [plain.1, separator]
  rw [LinesAsSet, raw_lines_iff _ (by rw [start]; decide) (by rw [start]; decide)
    (set_parameters_extra config)]
  constructor
  · intro headers text isText
    by_cases empty : text = []
    · rw [empty]
      decide
    · obtain ⟨key, entry⟩ := text_sent config text empty isText
      have member : (key, text) ∈ (setParameters config).headers.toList :=
        Std.ExtTreeMap.mem_toList_iff_getElem?_eq_some.mpr entry
      exact (byValue _ member).mp (headers _ member)
  · intro texts header member
    rw [byValue header member]
    rcases (entries header.1 header.2
      (Std.ExtTreeMap.mem_toList_iff_getElem?_eq_some.mp member)).2 with oneLine | isText
    · exact oneLine
    · exact texts _ isText

/-- Requests whose lines are as set have the same bytes only with the same headers. -/
theorem headers_of_lines (config config' : RecognitionConfig) (lines : LinesAsSet config)
    (lines' : LinesAsSet config')
    (same : (setParameters config).raw = (setParameters config').raw) :
    (setParameters config).headers = (setParameters config').headers := by
  have texts : (setParameters config).headers.toList.map headerText =
      (setParameters config').headers.toList.map headerText := by
    have whole := lines.symm.trans ((congrArg crlfLines same).trans lines')
    exact (List.cons.inj (List.append_inj' whole rfl).1).2
  have restored (config : RecognitionConfig) :
      ((setParameters config).headers.toList.map headerText).map readHeader =
        (setParameters config).headers.toList := by
    rw [List.map_map]
    conv_rhs => rw [← List.map_id (setParameters config).headers.toList]
    apply List.map_congr_left
    intro header member
    exact read_header_text header (set_parameters_entries config header.1 header.2
      (Std.ExtTreeMap.mem_toList_iff_getElem?_eq_some.mp member)).1
  apply Std.ExtTreeMap.toList_inj.mp
  rw [← restored config, texts, restored config']

/-- The request cannot be told apart from no other one: its lines are as set, and another
request whose lines are as set has the same bytes only with the same headers. -/
def Faithful (config : RecognitionConfig) : Prop :=
  LinesAsSet config ∧ ∀ config', LinesAsSet config' →
    (setParameters config).headers ≠ (setParameters config').headers →
    (setParameters config).raw ≠ (setParameters config').raw

/-- A request for parameters is faithful exactly when the account tag, the channel
identifier and the media type have no line end inside. -/
theorem parameters_faithful_iff (config : RecognitionConfig) :
    Faithful config ↔
      OneLine config.accountTag ∧ OneLine config.channelIdentifier ∧ OneLine config.mediaType := by
  have lines := lines_as_set_iff config
  simp only [List.mem_cons, List.not_mem_nil, or_false, forall_eq_or_imp, forall_eq] at lines
  rw [← lines]
  constructor
  · exact fun faithful => faithful.1
  · intro asSet
    refine ⟨asSet, fun config' asSet' distinct same => ?_⟩
    exact distinct (headers_of_lines config config' asSet asSet' same)

/-- A channel identifier from the environment that brings a header of its own: the bytes
are those of a request with two headers. -/
theorem parameter_line_injected :
    let env : Environment := fun name =>
      if name = bytes VariableName.channelIdentifier then some (bytes "x\r\nMedia-Type:y") else none
    let config := RecognitionConfig.setChannelIdentifierFromEnv env false { maxSentences := 0 }
    let config' : RecognitionConfig :=
      { maxSentences := 0, channelIdentifier := bytes "x", mediaType := bytes "y" }
    ¬ LinesAsSet config ∧
      (setParameters config).headers ≠ (setParameters config').headers ∧
      (setParameters config).raw = (setParameters config').raw := by
  refine ⟨?_, ?_, by decide⟩
  · intro lines
    have oneLine := (lines_as_set_iff _).mp lines (bytes "x\r\nMedia-Type:y")
      (by simp [RecognitionConfig.setChannelIdentifierFromEnv, setString])
    exact absurd oneLine (by decide)
  · intro same
    exact absurd (congrArg (·[bytes "Media-Type"]?) same) (by decide)

end ASRSendMessage

end AsrClient
