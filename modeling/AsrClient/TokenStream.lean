import AsrClient.Strings

/-!
# The lexer

A token stream stands at a position of one line. `GetNext` skips blanks and returns
a separator, a line end, or the longest word that starts there; behind a separator a
word also takes in blanks and further separators, up to the line end. `Unget` makes
the next `Get` return the last token again.

The inner loop of `GetNext` tests the character at the iterator without testing for
the end of the string. Reading past the end has no value in the program, which is the
error `undefined` here; it is never confused with the exceptions the parser throws.
-/

namespace AsrClient

/-- The kinds of token. -/
inductive TokenType where
  | sepOp
  | id
  | asrTitle
  | crlf
  | eoft
deriving DecidableEq

/-- A token; only an identifier has a content. -/
structure Token where
  kind : TokenType
  content : Bytes := []
deriving DecidableEq

/-- What can interrupt the parser: its own exception class with a message, one of the
exceptions of `std::stoi`, or an operation that the language leaves undefined. -/
inductive Thrown where
  | parser (err : String)
  | stoi (error : StoiError)
  | undefined
deriving DecidableEq

/-- The stream: the characters from the iterator to the end of the string, the last
token returned, whether it is pending again, and whether a separator was passed. -/
structure TokenStream where
  rest : Bytes := []
  last : Token := ⟨.eoft, []⟩
  pending : Bool := false
  afterSep : Bool := false
deriving DecidableEq

namespace TokenStream

/-- A symbol character; the separator is one behind a separator. -/
def isSymbol (simb : Byte) (separator : Bool) : Bool :=
  (bytes "-/.,_()><").contains simb || (simb == colon && separator)

/-- The characters that continue a word: letters, digits, symbols, and behind a
separator also blanks. -/
def wordByte (c : Byte) (afterSep : Bool) : Bool :=
  isAlpha c || isDigit c || isSymbol c afterSep || (afterSep && c == space)

/-- The inner loop: the longest run of word characters and what follows it. There is
no result when the run reaches the end of the string. -/
def munch (afterSep : Bool) : Bytes → Option (Bytes × Bytes)
  | [] => none
  | c :: rest =>
      if wordByte c afterSep then
        (munch afterSep rest).map (fun (word, after) => (c :: word, after))
      else some ([], c :: rest)

/-- The keyword is a token of its own; any other word is an identifier. -/
def classify (word : Bytes) : Token :=
  if word = bytes "ASR" then ⟨.asrTitle, []⟩ else ⟨.id, word⟩

/-- One run of `GetNext` from a position and a mode: the token or what was thrown,
and the position and the mode it leaves. -/
def scan (afterSep : Bool) : Bytes → Except Thrown Token × Bytes × Bool
  | [] => (.ok ⟨.eoft, []⟩, [], false)
  | c :: rest =>
      if c = space then scan afterSep rest
      else if c = colon then (.ok ⟨.sepOp, []⟩, rest, true)
      else if c = lf then (.ok ⟨.crlf, []⟩, rest, false)
      else if wordByte c afterSep then
        match munch afterSep rest with
        | none => (.error .undefined, [], afterSep)
        | some (word, after) => (.ok (classify (c :: word)), after, afterSep)
      else (.error (.parser "Invalid Token"), c :: rest, afterSep)

/-- A step of the lexer: it may throw, and keeps the stream it has reached. -/
abbrev Scanner := EStateM Thrown TokenStream

/-- Read the next token. -/
def getNext : Scanner Token := fun stream =>
  match scan stream.afterSep stream.rest with
  | (.ok token, rest, afterSep) => .ok token { stream with rest, afterSep }
  | (.error thrown, rest, afterSep) => .error thrown { stream with rest, afterSep }

/-- Return the pending token again, or read the next one and remember it. -/
def get : Scanner Token := fun stream =>
  if stream.pending then .ok stream.last { stream with pending := false }
  else match getNext stream with
    | .ok token after => .ok token { after with last := token }
    | .error thrown after => .error thrown after

/-- Make the last token pending. -/
def unget (stream : TokenStream) : TokenStream := { stream with pending := true }

/-- Start over on a string. The last token stays, but is not pending. -/
def tokenize (stream : TokenStream) (str : Bytes) : TokenStream :=
  { stream with rest := str, pending := false, afterSep := false }

/-- A run of word characters closed by another character is taken entirely. -/
theorem munch_word (afterSep : Bool) (word rest : Bytes) (stop : Byte)
    (inWord : ∀ c ∈ word, wordByte c afterSep = true) (ends : wordByte stop afterSep = false) :
    munch afterSep (word ++ stop :: rest) = some (word, stop :: rest) := by
  induction word with
  | nil => simp [munch, ends]
  | cons c word inductionHypothesis =>
    have tail := inductionHypothesis (fun d member => inWord d (by simp [member]))
    simp [munch, inWord c (by simp), tail]

/-- A word that begins with neither a blank nor a separator is one token, up to the
first character that does not continue it. -/
theorem scan_word (afterSep : Bool) (first : Byte) (word rest : Bytes) (stop : Byte)
    (begins : wordByte first false = true)
    (inWord : ∀ c ∈ word, wordByte c afterSep = true) (ends : wordByte stop afterSep = false) :
    scan afterSep (first :: word ++ stop :: rest) =
      (.ok (classify (first :: word)), stop :: rest, afterSep) := by
  have notSpace : first ≠ space := by
    rintro rfl
    exact absurd begins (by decide)
  have notColon : first ≠ colon := by
    rintro rfl
    exact absurd begins (by decide)
  have notLf : first ≠ lf := by
    rintro rfl
    exact absurd begins (by decide)
  have continues : wordByte first afterSep = true := by
    cases afterSep with
    | false => exact begins
    | true =>
      simp only [wordByte, isSymbol, Bool.or_eq_true, Bool.and_eq_true] at begins ⊢
      simp only [Bool.false_eq_true, and_false, or_false, false_and] at begins
      rcases begins with (alpha | digit) | symbol
      · exact Or.inl (Or.inl (Or.inl alpha))
      · exact Or.inl (Or.inl (Or.inr digit))
      · exact Or.inl (Or.inr (Or.inl symbol))
  rw [List.cons_append, scan, if_neg notSpace, if_neg notColon, if_neg notLf, if_pos continues,
    munch_word afterSep word rest stop inWord ends]

/-- Blanks between tokens. -/
def Blank (text : Bytes) : Prop := ∀ c ∈ text, c = space

/-- A word of the lexer. Behind a separator it may go on with blanks and separators, but not
begin with one. -/
structure Word (afterSep : Bool) (word : Bytes) : Prop where
  begins : ∃ first rest, word = first :: rest ∧ wordByte first false = true
  inWord : ∀ c ∈ word, wordByte c afterSep = true

/-- A text shows a word behind blanks, and what follows does not continue the word. -/
structure Leads (afterSep : Bool) (text word behind : Bytes) : Prop where
  shape : ∃ blanks, Blank blanks ∧ text = blanks ++ word ++ behind
  word : Word afterSep word
  stops : ∀ c ∈ behind.head?, wordByte c afterSep = false

/-- A text shows a separator behind blanks. -/
def Separates (text behind : Bytes) : Prop :=
  ∃ blanks, Blank blanks ∧ text = blanks ++ colon :: behind

/-- The first token of a line as the line shows it, with what is left of the line and the mode
behind the token. -/
inductive Scanned (afterSep : Bool) (line : Bytes) : Token → Bytes → Bool → Prop where
  | lineEnd (blank : Blank line) : Scanned afterSep line ⟨.crlf, []⟩ [] false
  | separator (behind : Bytes) (separates : Separates line behind) :
      Scanned afterSep line ⟨.sepOp, []⟩ (behind ++ [lf]) true
  | word (word behind : Bytes) (leads : Leads afterSep line word behind) :
      Scanned afterSep line (classify word) (behind ++ [lf]) afterSep

/-- Blanks are skipped. -/
theorem scan_blanks (afterSep : Bool) (blanks text : Bytes) (blank : Blank blanks) :
    scan afterSep (blanks ++ text) = scan afterSep text := by
  induction blanks with
  | nil => rfl
  | cons c blanks inductionHypothesis =>
    obtain ⟨isSpace, others⟩ := List.forall_mem_cons.mp blank
    rw [List.cons_append, scan, if_pos isSpace, inductionHypothesis others]

/-- On a closed line, a run of word characters ends before the line does. -/
theorem munch_line (afterSep : Bool) (line : Bytes) :
    ∃ word behind, munch afterSep (line ++ [lf]) = some (word, behind ++ [lf]) ∧
      line = word ++ behind ∧ (∀ c ∈ word, wordByte c afterSep = true) ∧
        ∀ c ∈ behind.head?, wordByte c afterSep = false := by
  induction line with
  | nil =>
    refine ⟨[], [], ?_, rfl, List.forall_mem_nil _, by simp⟩
    cases afterSep <;> rfl
  | cons c line inductionHypothesis =>
    rw [List.cons_append, munch]
    split_ifs with inWord
    · obtain ⟨word, behind, munched, whole, others, stops⟩ := inductionHypothesis
      refine ⟨c :: word, behind, ?_, ?_, List.forall_mem_cons.mpr ⟨inWord, others⟩, stops⟩
      · rw [munched]
        rfl
      · rw [whole, List.cons_append]
    · refine ⟨[], c :: line, rfl, rfl, List.forall_mem_nil _, ?_⟩
      simpa using inWord

/-- A character that continues a word, and is neither a blank nor a separator, can begin
one. -/
theorem word_byte_begins {afterSep : Bool} {c : Byte} (inWord : wordByte c afterSep = true)
    (notSpace : c ≠ space) (notColon : c ≠ colon) : wordByte c false = true := by
  have other : (c == space) = false := beq_eq_false_iff_ne.mpr notSpace
  have another : (c == colon) = false := beq_eq_false_iff_ne.mpr notColon
  simpa [wordByte, isSymbol, other, another] using inWord

/-- One more blank in front changes nothing. -/
theorem Scanned.blank {afterSep mode : Bool} {line rest : Bytes} {token : Token}
    (scanned : Scanned afterSep line token rest mode) :
    Scanned afterSep (space :: line) token rest mode := by
  have more {blanks : Bytes} (blank : Blank blanks) : Blank (space :: blanks) :=
    List.forall_mem_cons.mpr ⟨rfl, blank⟩
  cases scanned with
  | lineEnd blank => exact .lineEnd (more blank)
  | separator behind separates =>
    obtain ⟨blanks, blank, rfl⟩ := separates
    exact .separator behind ⟨space :: blanks, more blank, rfl⟩
  | word word behind leads =>
    obtain ⟨blanks, blank, rfl⟩ := leads.shape
    exact .word word behind ⟨⟨space :: blanks, more blank, rfl⟩, leads.word, leads.stops⟩

/-- A line is read up to a token that it shows, or is rejected by the lexer's own exception:
the lexer never leaves a closed line. -/
theorem scan_line (afterSep : Bool) (line : Bytes) (free : lf ∉ line) :
    (∃ token rest mode, scan afterSep (line ++ [lf]) = (.ok token, rest, mode) ∧
        Scanned afterSep line token rest mode) ∨
      ∃ rest mode, scan afterSep (line ++ [lf]) = (.error (.parser "Invalid Token"), rest, mode) := by
  induction line with
  | nil => exact Or.inl ⟨_, _, _, rfl, .lineEnd (List.forall_mem_nil _)⟩
  | cons c line inductionHypothesis =>
    obtain ⟨notLf, others⟩ := List.ne_and_not_mem_of_not_mem_cons free
    rw [List.cons_append, scan]
    split_ifs with isSpace isColon isLf inWord
    · rcases inductionHypothesis others with ⟨token, rest, mode, same, scanned⟩ | rejected
      · exact Or.inl ⟨token, rest, mode, same, isSpace ▸ scanned.blank⟩
      · exact Or.inr rejected
    · exact Or.inl ⟨_, _, _, rfl, .separator line ⟨[], List.forall_mem_nil _, by rw [isColon]; rfl⟩⟩
    · exact absurd isLf.symm notLf
    · obtain ⟨word, behind, munched, rfl, inRest, stops⟩ := munch_line afterSep line
      simp only [munched]
      refine Or.inl ⟨_, _, _, rfl, .word (c :: word) behind ⟨⟨[], List.forall_mem_nil _, rfl⟩, ?_, stops⟩⟩
      exact ⟨⟨c, word, rfl, word_byte_begins inWord isSpace isColon⟩,
        List.forall_mem_cons.mpr ⟨inWord, inRest⟩⟩
    · exact Or.inr ⟨_, _, rfl⟩

/-- A word that a line shows is read. -/
theorem scan_leads (afterSep : Bool) (line word behind : Bytes)
    (leads : Leads afterSep line word behind) :
    scan afterSep (line ++ [lf]) = (.ok (classify word), behind ++ [lf], afterSep) := by
  obtain ⟨blanks, blank, rfl⟩ := leads.shape
  obtain ⟨first, tail, rfl, begins⟩ := leads.word.begins
  have inTail (c : Byte) (member : c ∈ tail) : wordByte c afterSep = true :=
    leads.word.inWord c (by simp [member])
  rw [List.append_assoc, List.append_assoc, scan_blanks _ _ _ blank]
  cases behind with
  | nil =>
    have closes : wordByte lf afterSep = false := by cases afterSep <;> rfl
    exact scan_word afterSep first tail [] lf begins inTail closes
  | cons stop rest =>
    exact scan_word afterSep first tail (rest ++ [lf]) stop begins inTail (leads.stops stop rfl)

/-- A separator that a line shows is read. -/
theorem scan_separates (afterSep : Bool) (line behind : Bytes) (separates : Separates line behind) :
    scan afterSep (line ++ [lf]) = (.ok ⟨.sepOp, []⟩, behind ++ [lf], true) := by
  obtain ⟨blanks, blank, rfl⟩ := separates
  rw [List.append_assoc, scan_blanks _ _ _ blank]
  rfl

/-- The end of a line of blanks is read. -/
theorem scan_line_end (afterSep : Bool) (line : Bytes) (blank : Blank line) :
    scan afterSep (line ++ [lf]) = (.ok ⟨.crlf, []⟩, [], false) := by
  rw [scan_blanks _ _ _ blank]
  rfl

/-- What follows a word in a line is part of it. -/
theorem Leads.free {afterSep : Bool} {line word behind : Bytes}
    (leads : Leads afterSep line word behind) (free : lf ∉ line) : lf ∉ behind := by
  obtain ⟨blanks, -, rfl⟩ := leads.shape
  exact fun member => free (List.mem_append_right _ member)

/-- What follows a separator in a line is part of it. -/
theorem Separates.free {line behind : Bytes} (separates : Separates line behind)
    (free : lf ∉ line) : lf ∉ behind := by
  obtain ⟨blanks, -, rfl⟩ := separates
  exact fun member => free (List.mem_append_right _ (List.mem_cons_of_mem _ member))

/-- A separator switches the mode on. -/
@[simp] theorem scan_colon (afterSep : Bool) (rest : Bytes) :
    scan afterSep (colon :: rest) = (.ok ⟨.sepOp, []⟩, rest, true) := by
  rw [scan, if_neg (by decide), if_pos rfl]

end TokenStream

end AsrClient
