import AsrClient.HeaderScan
import AsrClient.ParameterHeaders
import AsrClient.ParameterLines
import AsrClient.Recognizer.ProtocolOrder

/-!
# The client's requests as the server reads them

The server reads a request with the parser class, by its command, and for audio by its
headers. Every request of the client is read back so, whatever language model and audio it
carries: behind the blank line and a Content-Length header no byte is looked at.

The request for parameters is the one without that header, and the only one with texts of
the application among its lines. A text that the lexer rejects ends the scan of the headers,
but the command stands in front of it; what it must not have is a line feed, behind which it
could bring a line of its own.
-/

namespace AsrClient

open TokenStream WsParser

/-- The server reads the method of a request, and all the headers of an audio message. -/
def Legible (request : ASRMessageRequest) : Prop :=
  ∃ c parser, request.startLine = firstLine c ∧ c ∈ .sendAudio :: answered ∧
    WsParser.ofString request.raw = .ok parser ∧ parser.command = getMethodString c ∧
    (c = .sendAudio → parser.props = request.headers)

/-- A request within the alphabet is read with its headers. -/
theorem of_string_raw (c : Method) (message : ASRMessageRequest)
    (start : message.startLine = firstLine c) (codable : Codable message) :
    ∃ parser, WsParser.ofString message.raw = .ok parser ∧ parser.command = getMethodString c ∧
      parser.props = message.headers := by
  have consumed := consume_raw c message start codable
  rw [ASRMessageResponse.consume] at consumed
  cases constructed : WsParser.ofString message.raw with
  | error thrown =>
    rw [constructed] at consumed
    cases consumed
  | ok parser =>
    rw [constructed] at consumed
    have same := Except.ok.inj consumed
    have title : bytes "ASR 2.4 " ++ parser.command = bytes "ASR 2.4 " ++ getMethodString c :=
      (congrArg ASRMessageParser.startLine same).trans start
    exact ⟨parser, rfl, List.append_cancel_left title, congrArg ASRMessageParser.headers same⟩

/-- It is legible, when it is one that the client sends. -/
theorem Codable.legible {c : Method} {message : ASRMessageRequest} (codable : Codable message)
    (start : message.startLine = firstLine c) (isSent : c ∈ .sendAudio :: answered) :
    Legible message := by
  obtain ⟨parser, constructed, command, props⟩ := of_string_raw c message start codable
  exact ⟨c, parser, start, isSent, constructed, command, fun _ => props⟩

section Alphabet

/-- A request without headers and without content is within the alphabet. -/
theorem create_codable (c : Method) : Codable (ASRMessageRequest.create c) where
  keys := by simp [ASRMessageRequest.create]
  values := by simp [ASRMessageRequest.create]
  bounded := by simp [ASRMessageRequest.create]
  sized nonempty := absurd rfl nonempty
  unsized _ := Or.inl (by simp [ASRMessageRequest.create])

/-- A header of words keeps a request within the alphabet, but for its length. -/
theorem Codable.setHeader {message : ASRMessageRequest} (codable : Codable message)
    (key val : Bytes) (keyWord : KeyWord key) (text : val = [] ∨ ValueWord val)
    (other : key ≠ bytes "Content-Length") :
    Codable (ASRMessageRequest.setHeader message key val) := by
  have length : (message.headers.insert key val)[bytes "Content-Length"]? =
      message.headers[bytes "Content-Length"]? := by
    rw [Std.ExtTreeMap.getElem?_insert,
      if_neg (fun equal => other (Std.compare_eq_iff_eq.mp equal))]
  constructor
  · intro key' member
    rcases Std.ExtTreeMap.mem_insert.mp member with same | former
    · obtain rfl := Std.compare_eq_iff_eq.mp same
      exact keyWord
    · exact codable.keys key' former
  · intro key' value entry
    rw [ASRMessageRequest.setHeader, Std.ExtTreeMap.getElem?_insert] at entry
    split_ifs at entry
    · obtain rfl := Option.some.inj entry
      exact text
    · exact codable.values key' value entry
  · exact codable.bounded
  · intro nonempty
    rw [ASRMessageRequest.setHeader, length]
    exact codable.sized nonempty
  · intro empty
    rw [ASRMessageRequest.setHeader, length]
    exact codable.unsized empty

/-- Content with its length keeps a request within the alphabet. -/
theorem Codable.setContent {message : ASRMessageRequest} (codable : Codable message)
    (extra : Bytes) (bounded : extra.length < 2 ^ 31) :
    Codable (ASRMessageRequest.setHeader (ASRMessageRequest.setExtra message extra)
      (bytes "Content-Length") (decimal extra.length)) where
  keys key member := by
    rcases Std.ExtTreeMap.mem_insert.mp member with same | former
    · obtain rfl := Std.compare_eq_iff_eq.mp same
      exact ⟨by decide, List.all_eq_true.mp (by decide), by decide⟩
    · exact codable.keys key former
  values key value entry := by
    rw [ASRMessageRequest.setHeader, Std.ExtTreeMap.getElem?_insert] at entry
    split_ifs at entry
    · obtain rfl := Option.some.inj entry
      exact Or.inr (decimal_value _)
    · exact codable.values key value entry
  bounded := bounded
  sized _ := Std.ExtTreeMap.getElem?_insert_self
  unsized empty := by
    have none : extra = [] := empty
    rw [none]
    exact Or.inr Std.ExtTreeMap.getElem?_insert_self

end Alphabet

/-- A language model whose texts have a length that an `int` can hold. -/
def LanguageModelList.Short (lm : LanguageModelList) : Prop :=
  lm.uri.length < 2 ^ 31 ∧ lm.grammarBody.length < 2 ^ 31

instance (lm : LanguageModelList) : Decidable lm.Short := inferInstanceAs (Decidable (_ ∧ _))

section Requests

/-- The request for a session is within the alphabet. -/
theorem create_session_codable : Codable ASRSendMessage.createSession :=
  (create_codable .createSession).setHeader _ _
    ⟨by decide, List.all_eq_true.mp (by decide), by decide⟩
    (Or.inr ⟨⟨_, _, rfl, by decide⟩, List.all_eq_true.mp (by decide), by decide⟩) (by decide)

/-- The request that starts a recognition is, whatever bytes its texts have. -/
theorem start_recognition_codable {lm : LanguageModelList} {request : ASRMessageRequest}
    (made : ASRSendMessage.startRecognition lm = some request) (short : lm.Short) :
    Codable request := by
  have accept : Codable ((ASRMessageRequest.create .startRecognition).setHeader
      (bytes "Accept") (bytes "application/json")) :=
    (create_codable .startRecognition).setHeader _ _
      ⟨by decide, List.all_eq_true.mp (by decide), by decide⟩
      (Or.inr ⟨⟨_, _, rfl, by decide⟩, List.all_eq_true.mp (by decide), by decide⟩) (by decide)
  have contentType : KeyWord (bytes "Content-Type") ∧ KeyWord (bytes "Content-ID") := by
    constructor <;> exact ⟨by decide, List.all_eq_true.mp (by decide), by decide⟩
  have values : ValueWord (bytes "text/uri-list") ∧ ValueWord (bytes "gram") ∧
      ValueWord (bytes "application/srgs") := by
    refine ⟨?_, ?_, ?_⟩ <;>
      exact ⟨⟨_, _, rfl, by decide⟩, List.all_eq_true.mp (by decide), by decide⟩
  simp only [ASRSendMessage.startRecognition] at made
  split_ifs at made
  · cases made
    exact (accept.setHeader _ _ contentType.1 (Or.inr values.1) (by decide)).setContent _ short.1
  · cases made
    exact ((accept.setHeader _ _ contentType.2 (Or.inr values.2.1) (by decide)).setHeader _ _
      contentType.1 (Or.inr values.2.2) (by decide)).setContent _ short.2

/-- An audio message is, whatever bytes were read. -/
theorem send_audio_codable (ret : Int) (buffer : Bytes) (bounded : buffer.length < 2 ^ 31) :
    Codable (ASRSendMessage.sendAudio ret buffer) := by
  have keys : KeyWord (bytes "Content-Type") ∧ KeyWord (bytes "LastPacket") := by
    constructor <;> exact ⟨by decide, List.all_eq_true.mp (by decide), by decide⟩
  have values : ValueWord (bytes "application/octet-stream") ∧ ValueWord (bytes "true") ∧
      ValueWord (bytes "false") := by
    refine ⟨?_, ?_, ?_⟩ <;>
      exact ⟨⟨_, _, rfl, by decide⟩, List.all_eq_true.mp (by decide), by decide⟩
  have last : ValueWord (if ret = -1 then bytes "true" else bytes "false") := by
    split_ifs
    · exact values.2.1
    · exact values.2.2
  exact (((create_codable .sendAudio).setContent buffer bounded).setHeader _ _ keys.1
    (Or.inr values.1) (by decide)).setHeader _ _ keys.2 (Or.inr last) (by decide)

end Requests

section Parameters

/-- A configuration whose texts have no line feed. -/
def RecognitionConfig.Unbroken (config : RecognitionConfig) : Prop :=
  lf ∉ config.accountTag ∧ lf ∉ config.channelIdentifier ∧ lf ∉ config.mediaType

instance (config : RecognitionConfig) : Decidable config.Unbroken :=
  inferInstanceAs (Decidable (_ ∧ _))

/-- Assignments that leave the command and the body alone. -/
def Headers (assigned : List Assignment) : Prop :=
  ∀ assignment ∈ assigned, ∃ key value, assignment = .insert key value

/-- They do so. -/
theorem Headers.assign {assigned : List Assignment} (headers : Headers assigned)
    (parser : WsParser) :
    (assignAll parser assigned).command = parser.command ∧
      (assignAll parser assigned).hasBody = parser.hasBody := by
  induction assigned generalizing parser with
  | nil => exact ⟨rfl, rfl⟩
  | cons assignment assigned inductionHypothesis =>
    obtain ⟨⟨key, value, rfl⟩, others⟩ := List.forall_mem_cons.mp headers
    exact inductionHypothesis others _

/-- The end of a header line throws nothing but the parser's own exception. -/
theorem insert_terminated (key value rest : Bytes) (mode : Bool)
    (shape : rest = [] ∨ ∃ tail, rest = tail ++ [lf] ∧ lf ∉ tail) :
    Headers (terminated [.insert key value] mode rest).1 ∧
      ((terminated [.insert key value] mode rest).2 = none ∨
        ∃ err, (terminated [.insert key value] mode rest).2 = some (.parser err)) := by
  constructor
  · rw [terminated_assignments]
    exact List.forall_mem_singleton.mpr ⟨key, value, rfl⟩
  · rcases shape with rfl | ⟨tail, rfl, free⟩
    · exact Or.inl rfl
    · exact terminated_thrown _ mode tail free

/-- A line that begins with another key than Content-Length and a separator only inserts a
header, and throws nothing but the parser's own exception. -/
theorem header_line_plain (key value : Bytes) (keyWord : KeyWord key)
    (other : key ≠ bytes "Content-Length") (free : lf ∉ value) :
    Headers (lineMeaning (headerText (key, value) ++ [lf])).1 ∧
      ((lineMeaning (headerText (key, value) ++ [lf])).2 = none ∨
        ∃ err, (lineMeaning (headerText (key, value) ++ [lf])).2 = some (.parser err)) := by
  have whole : headerText (key, value) ++ [lf] = key ++ colon :: (value ++ [lf]) := by
    simp [headerText]
  have nothing (err : String) : Headers ([] : List Assignment) ∧
      (some (Thrown.parser err) = none ∨
        ∃ err', some (Thrown.parser err) = some (Thrown.parser err')) :=
    ⟨List.forall_mem_nil _, Or.inr ⟨err, rfl⟩⟩
  rw [whole, lineMeaning, scan_key key _ keyWord]
  simp only [keyMeaning, scan_colon, ne_eq, not_true_eq_false, ↓reduceIte]
  rcases scan_line true value free with ⟨token, rest, mode, read, scanned⟩ | ⟨rest, mode, read⟩
  · rw [read]
    cases scanned with
    | separator => exact nothing _
    | lineEnd blank =>
      simp only [headerMeaning, if_neg other, not_true_eq_false, and_false, ↓reduceIte]
      exact insert_terminated key _ _ _ (Or.inl rfl)
    | word word behind leads =>
      rcases classify_kind word with ⟨-, kind⟩ | ⟨-, kind⟩
      · rw [kind]
        exact nothing _
      · simp only [kind, headerMeaning, if_neg other, not_true_eq_false, false_and, ↓reduceIte]
        exact insert_terminated key _ _ _ (Or.inr ⟨behind, rfl, leads.free free⟩)
  · rw [read]
    exact nothing _

/-- A scan of such lines ends, with the command from before and without a body. -/
theorem header_loop_plain (headers : List (Bytes × Bytes)) (parser : WsParser)
    (bodiless : parser.hasBody = false)
    (plain : ∀ header ∈ headers, KeyWord header.1 ∧ header.1 ≠ bytes "Content-Length" ∧
      lf ∉ header.2) :
    ∃ after, headerLoop ((headers.map headerText).map (· ++ [cr]) ++ [[cr]]) parser = .ok () after ∧
      after.command = parser.command ∧ after.hasBody = false := by
  induction headers generalizing parser with
  | nil =>
    obtain ⟨tks, ended⟩ := blank_line_ends [] parser (Or.inr rfl)
    exact ⟨_, ended, rfl, bodiless⟩
  | cons header headers inductionHypothesis =>
    obtain ⟨⟨keyWord, other, free⟩, others⟩ := List.forall_mem_cons.mp plain
    obtain ⟨inserts, thrown⟩ := header_line_plain header.1 header.2 keyWord other free
    obtain ⟨tks, loop⟩ := header_loop_cons parser (headerText header ++ [cr])
      (fun blank => by simp [bodiless] at blank) (by simp)
    rw [List.dropLast_concat] at loop
    obtain ⟨command, hasBody⟩ := inserts.assign parser
    rw [List.map_cons, List.map_cons, List.cons_append, loop]
    rcases thrown with none | ⟨err, some⟩
    · rw [none, loopBehind]
      obtain ⟨after, ended, sameCommand, still⟩ := inductionHypothesis
        { assignAll parser (lineMeaning (headerText header ++ [lf])).1 with tks }
        (hasBody.trans bodiless) others
      exact ⟨after, ended, sameCommand.trans command, still⟩
    · rw [some, loopBehind]
      exact ⟨_, rfl, command, hasBody.trans bodiless⟩

/-- A header of the request for parameters is such a line, when no text has a line feed. -/
theorem parameter_plain (config : RecognitionConfig) (unbroken : config.Unbroken)
    (header : Bytes × Bytes)
    (member : header ∈ (ASRSendMessage.setParameters config).headers.toList) :
    KeyWord header.1 ∧ header.1 ≠ bytes "Content-Length" ∧ lf ∉ header.2 := by
  have entry := Std.ExtTreeMap.mem_toList_iff_getElem?_eq_some.mp member
  have inHeaders : header.1 ∈ (ASRSendMessage.setParameters config).headers := by
    rw [Std.ExtTreeMap.mem_iff_isSome_getElem?, entry]
    rfl
  rw [RecognitionConfig.set_parameters_fold] at inHeaders
  rcases RecognitionConfig.add_parameters_mem config _ _ header.1 inHeaders with former | ⟨row, key⟩
  · simp [ASRMessageRequest.create] at former
  · have digits (n : Nat) : lf ∉ decimal n := fun inside =>
      absurd (decimal_digits n lf inside) (by decide)
    have switch : lf ∉ bytes "true" := by decide
    rw [key, RecognitionConfig.set_parameters_getElem] at entry
    split_ifs at entry
    obtain same := Option.some.inj entry
    rw [key, ← same]
    obtain ⟨account, channel, media⟩ := unbroken
    have keyWord : KeyWord (bytes row.header) := by
      cases row <;> exact ⟨by decide, List.all_eq_true.mp (by decide), by decide⟩
    refine ⟨keyWord, by cases row <;> decide, ?_⟩
    cases row <;> first | exact digits _ | exact digits 1 | exact switch | assumption

/-- The request for parameters is legible, when no text has a line feed. -/
theorem set_parameters_legible (config : RecognitionConfig) (unbroken : config.Unbroken) :
    Legible (ASRSendMessage.setParameters config) := by
  have start := ASRSendMessage.set_parameters_start_line config
  have plain := parameter_plain config unbroken
  obtain ⟨nonempty, free⟩ := start_line_free .setParameters
  have texts : ∀ header ∈ (ASRSendMessage.setParameters config).headers.toList,
      lf ∉ headerText header := by
    intro header member
    obtain ⟨keyWord, -, value⟩ := plain header member
    have key : lf ∉ header.1 := fun inside => absurd (keyWord.word lf inside) (by decide)
    have separator : lf ≠ colon := by decide
    simp [headerText, key, value, separator]
  have whole := getlines_raw (ASRSendMessage.setParameters config) (start ▸ nonempty)
    ⟨start ▸ free, texts⟩
  rw [extraText, if_pos (ASRSendMessage.set_parameters_extra config), start] at whole
  obtain ⟨tks, first⟩ := header_loop_cons {} (firstLine .setParameters ++ [cr])
    (by simp) (by simp)
  rw [List.dropLast_concat, start_line_meaning] at first
  obtain ⟨after, ended, command, bodiless⟩ := header_loop_plain
    (ASRSendMessage.setParameters config).headers.toList
    { assignAll {} [.version (bytes "2.4"), .command (getMethodString .setParameters)] with tks }
    rfl plain
  have scanned : headers (ASRMessageParser.raw (ASRSendMessage.setParameters config)) =
      .ok () after := by
    rw [WsParser.headers, whole, List.map_cons, List.cons_append, first]
    exact ended
  have notEmpty : ASRMessageParser.raw (ASRSendMessage.setParameters config) ≠ [] := by
    simp [ASRMessageParser.raw, msgDelimiter]
  refine ⟨.setParameters, after, start, by decide, ?_, command, fun audio => by cases audio⟩
  rw [WsParser.ofString, if_neg notEmpty, scanned]
  simp [bodiless]

end Parameters

end AsrClient
