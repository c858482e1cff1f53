import AsrClient.TokenStream
import AsrClient.Library.Pushback

/-!
# The tokens of a line

A token stream is a reader with its last token put back or not. On a line that is closed by its
line feed, the reader never comes to the end of the string inside of a word, and every token
takes at least one character. The tokens that it reads up to the end are the line itself:
nothing but blanks is left out, and no blank of an identifier is.
-/

namespace AsrClient

open Pushback

/-- The text of a token. The end of the text has none. -/
def Token.text (token : Token) : Bytes :=
  match token.kind with
  | .id => token.content
  | .asrTitle => bytes "ASR"
  | .sepOp => [colon]
  | .crlf => [lf]
  | .eoft => []

namespace TokenStream

/-- What a step of the lexer answers, and the stream behind it. -/
def answer : EStateM.Result Thrown TokenStream Token → Except Thrown Token × TokenStream
  | .ok token after => (.ok token, after)
  | .error thrown after => (.error thrown, after)

/-- The answers of the calls to a stream that read on: a pending token is not a new one. -/
def newTokens : List Call → TokenStream → List (Except Thrown Token)
  | [], _ => []
  | .unget :: calls, stream => newTokens calls stream.unget
  | .get :: calls, stream =>
      let (token, after) := answer (get stream)
      if stream.pending then newTokens calls after else token :: newTokens calls after

/-- A text that is written with these tokens: their texts in order, with blanks in front of
each. -/
inductive Written : List Token → Bytes → Prop where
  | nil : Written [] []
  | cons (blanks : Bytes) (token : Token) (tokens : List Token) (rest : Bytes)
      (blank : Blank blanks) (later : Written tokens rest) :
      Written (token :: tokens) (blanks ++ token.text ++ rest)

/-- An answer behind which nothing more is read: the end of the text, or the lexer's own
exception. -/
def Final (answer : Except Thrown Token) : Prop :=
  answer = .ok ⟨.eoft, []⟩ ∨ answer = .error (.parser "Invalid Token")

/-- What is left of a line that is closed by its line feed. -/
def Remaining (rest : Bytes) : Prop := rest = [] ∨ ∃ line, lf ∉ line ∧ rest = line ++ [lf]

/-- The lexer as a reader: a position, and the mode. -/
def reader : Reader (Bytes × Bool) Thrown Token := fun state => scan state.2 state.1

/-- A stream as a reader with its last token. -/
def buffered (stream : TokenStream) : Buffered (Bytes × Bool) Token :=
  ⟨(stream.rest, stream.afterSep), stream.last, stream.pending⟩

/-- A stream answers as the reader with its last token does. -/
theorem get_buffered (stream : TokenStream) :
    stream.buffered.get reader =
      ((answer (get stream)).1, (answer (get stream)).2.buffered) := by
  obtain ⟨rest, last, pending, afterSep⟩ := stream
  cases pending with
  | true => rfl
  | false =>
    have read : reader (rest, afterSep) = scan afterSep rest := rfl
    simp only [get, getNext, Buffered.get, buffered, read, Bool.false_eq_true, if_false]
    rcases scan afterSep rest with ⟨token | thrown, behind, mode⟩
    · rfl
    · rfl

/-- The new tokens of a stream are those of its reader. -/
theorem new_tokens_buffered (calls : List Call) (stream : TokenStream) :
    newTokens calls stream = news reader calls stream.buffered := by
  induction calls generalizing stream with
  | nil => rfl
  | cons call calls inductionHypothesis =>
    cases call with
    | unget =>
      exact inductionHypothesis stream.unget
    | get =>
      have same : stream.buffered.pending = stream.pending := rfl
      rw [newTokens, news, get_buffered, same]
      simp only [inductionHypothesis]

/-- A token of a line is not the end of the text, and takes blanks and its text from the
line. -/
theorem Scanned.takes {afterSep mode : Bool} {line rest : Bytes} {token : Token}
    (scanned : Scanned afterSep line token rest mode) (free : lf ∉ line) :
    token.kind ≠ .eoft ∧ Remaining rest ∧ token.text ≠ [] ∧
      ∃ blanks, Blank blanks ∧ line ++ [lf] = blanks ++ token.text ++ rest := by
  cases scanned with
  | lineEnd blank =>
    exact ⟨by decide, Or.inl rfl, by decide, line, blank, by simp [Token.text]⟩
  | separator behind separates =>
    have left : Remaining (behind ++ [lf]) := Or.inr ⟨behind, separates.free free, rfl⟩
    obtain ⟨blanks, blank, rfl⟩ := separates
    exact ⟨by decide, left, by decide, blanks, blank, by simp [Token.text]⟩
  | word word behind leads =>
    have left : Remaining (behind ++ [lf]) := Or.inr ⟨behind, leads.free free, rfl⟩
    obtain ⟨blanks, blank, rfl⟩ := leads.shape
    obtain ⟨first, tail, shape, -⟩ := leads.word.begins
    have text : (classify word).text = word ∧ (classify word).kind ≠ .eoft := by
      rw [classify]
      split_ifs with title
      · exact ⟨title.symm, by decide⟩
      · exact ⟨rfl, by simp⟩
    rw [text.1]
    exact ⟨text.2, left, by simp [shape], blanks, blank, by simp⟩

/-- The lexer's own exception leaves the position in front of the illegal character. The induction
skips the blanks before it. -/
theorem scan_rejected (afterSep : Bool) (line : Bytes) (free : lf ∉ line) (thrown : Thrown)
    (rejected : (scan afterSep (line ++ [lf])).1 = .error thrown) :
    Remaining (scan afterSep (line ++ [lf])).2.1 := by
  induction line with
  | nil => cases rejected
  | cons c line inductionHypothesis =>
    obtain ⟨-, others⟩ := List.ne_and_not_mem_of_not_mem_cons free
    rw [List.cons_append, scan] at rejected ⊢
    split_ifs at rejected ⊢ with isSpace isColon isLf inWord
    · exact inductionHypothesis others rejected
    · obtain ⟨word, behind, munched, -⟩ := munch_line afterSep line
      rw [munched] at rejected
      cases rejected
    · exact Or.inr ⟨c :: line, free, rfl⟩

/-- What a read can answer at a position of a line, and where it leaves the lexer: it comes to
the end of the text, stops in front of an illegal character, or takes a token. -/
inductive Answers (rest : Bytes) : Except Thrown Token × Bytes × Bool → Prop where
  | atEnd (mode : Bool) (empty : rest = []) : Answers rest (.ok ⟨.eoft, []⟩, [], mode)
  | rejected (behind : Bytes) (mode : Bool) (left : Remaining behind) :
      Answers rest (.error (.parser "Invalid Token"), behind, mode)
  | token (token : Token) (blanks behind : Bytes) (mode : Bool) (notEnd : token.kind ≠ .eoft)
      (left : Remaining behind) (text : token.text ≠ []) (blank : Blank blanks)
      (whole : rest = blanks ++ token.text ++ behind) : Answers rest (.ok token, behind, mode)

/-- Every read at a position of a line does one of these things. -/
theorem scan_answers (rest : Bytes) (afterSep : Bool) (remaining : Remaining rest) :
    Answers rest (scan afterSep rest) := by
  rcases remaining with rfl | ⟨line, free, rfl⟩
  · exact .atEnd false rfl
  · rcases scan_line afterSep line free with
      ⟨token, behind, mode, read, scanned⟩ | ⟨behind, mode, read⟩
    · obtain ⟨notEnd, left, text, blanks, blank, whole⟩ := scanned.takes free
      rw [read]
      exact .token token blanks behind mode notEnd left text blank whole
    · have left := scan_rejected afterSep line free _ (congrArg Prod.fst read)
      rw [read] at left ⊢
      exact .rejected behind mode left

/-- On a line, the lexer comes to its end within as many tokens as characters are left. -/
theorem line_ends (rest : Bytes) (afterSep : Bool) (remaining : Remaining rest) :
    ∃ tokens ending, Ends reader Final (rest, afterSep) tokens ending ∧
      tokens.length ≤ rest.length := by
  refine ends_of_progress (fun state : Bytes × Bool => Remaining state.1)
    (fun state => state.1.length) ?_ (rest, afterSep) remaining
  rintro ⟨rest, afterSep⟩ remaining
  have answers : Answers rest (reader (rest, afterSep)) := scan_answers rest afterSep remaining
  generalize reader (rest, afterSep) = answer at answers
  cases answers with
  | atEnd mode empty => exact Or.inl (Or.inl rfl)
  | rejected behind mode left => exact Or.inl (Or.inr rfl)
  | token token blanks behind mode notEnd left text blank whole =>
    refine Or.inr ⟨token, (behind, mode), rfl, left, ?_⟩
    have positive : 0 < token.text.length := List.length_pos_iff.mpr text
    simp only [whole, List.length_append]
    omega

/-- Up to the end of the text, the tokens are those that the text is written with. The induction
is on the tokens that are read. -/
theorem ends_written {state : Bytes × Bool} {tokens : List Token} {ending : Except Thrown Token}
    (ends : Ends reader Final state tokens ending) (remaining : Remaining state.1)
    (atEnd : ending = .ok ⟨.eoft, []⟩) :
    Written tokens state.1 ∧ ∀ token ∈ tokens, token.kind ≠ .eoft := by
  induction ends with
  | stop state _ =>
    have answers : Answers state.1 (reader state) := scan_answers state.1 state.2 remaining
    generalize reader state = answer at answers atEnd
    cases answers with
    | atEnd mode empty =>
      rw [empty]
      exact ⟨.nil, List.forall_mem_nil _⟩
    | rejected behind mode left => cases atEnd
    | token token blanks behind mode notEnd left text blank whole =>
      obtain rfl : token = ⟨.eoft, []⟩ := Except.ok.inj atEnd
      exact absurd rfl notEnd
  | next state behind token tokens ending read going _ inductionHypothesis =>
    have answers : Answers state.1 (reader state) := scan_answers state.1 state.2 remaining
    rw [read] at answers
    cases answers with
    | atEnd mode empty => exact absurd (Or.inl rfl) going
    | token token blanks rest mode notEnd left text blank whole =>
      obtain ⟨later, others⟩ := inductionHypothesis left atEnd
      rw [whole]
      exact ⟨.cons blanks token tokens rest blank later, List.forall_mem_cons.mpr ⟨notEnd, others⟩⟩

/-- No read on a line comes to the end of the string inside of a word. The induction is on the
reads. -/
theorem reads_defined (count : Nat) (state : Bytes × Bool) (remaining : Remaining state.1) :
    .error .undefined ∉ reads reader count state := by
  induction count generalizing state with
  | zero => exact List.not_mem_nil
  | succ count inductionHypothesis =>
    have answers : Answers state.1 (reader state) := scan_answers state.1 state.2 remaining
    rw [reads]
    generalize reader state = answer at answers
    cases answers with
    | atEnd mode empty =>
      exact List.not_mem_cons_of_ne_of_not_mem (by simp) (inductionHypothesis _ (Or.inl rfl))
    | rejected behind mode left =>
      exact List.not_mem_cons_of_ne_of_not_mem (by simp) (inductionHypothesis _ left)
    | token token blanks behind mode notEnd left text blank whole =>
      exact List.not_mem_cons_of_ne_of_not_mem (by simp) (inductionHypothesis _ left)

/-- A line that is closed by its line feed is read without leaving it: repeated reads come to the
end of the text or to an illegal character, with at most one more call than the line has
characters, and the tokens up to the end are what the line is written with. Tokens that are put
back and taken again change nothing for the others. -/
theorem lexer_lossless (line : Bytes) (free : lf ∉ line) (stream : TokenStream) :
    (∃ tokens ending, tokens.length + 1 ≤ (line ++ [lf]).length + 1 ∧
        newTokens (List.replicate (tokens.length + 1) .get) (stream.tokenize (line ++ [lf])) =
          tokens.map Except.ok ++ [ending] ∧
        Final ending ∧
        (ending = .ok ⟨.eoft, []⟩ →
          Written tokens (line ++ [lf]) ∧ ∀ token ∈ tokens, token.kind ≠ .eoft)) ∧
      (∀ calls, .error .undefined ∉ newTokens calls (stream.tokenize (line ++ [lf]))) ∧
      ∀ calls padded, Padded calls padded →
        newTokens padded (stream.tokenize (line ++ [lf])) =
          newTokens calls (stream.tokenize (line ++ [lf])) := by
  have remaining : Remaining (line ++ [lf]) := Or.inr ⟨line, free, rfl⟩
  refine ⟨?_, fun calls => ?_, fun calls padded isPadded => ?_⟩
  · obtain ⟨tokens, ending, ends, short⟩ := line_ends (line ++ [lf]) false remaining
    refine ⟨tokens, ending, Nat.succ_le_succ short, ?_, ends.stops, ends_written ends remaining⟩
    rw [new_tokens_buffered, news_gets reader _ _ rfl]
    exact ends.reads
  · obtain ⟨count, same⟩ := news_reads reader calls (stream.tokenize (line ++ [lf])).buffered
    rw [new_tokens_buffered, same]
    exact reads_defined count _ remaining
  · rw [new_tokens_buffered, new_tokens_buffered]
    exact isPadded.news reader _

/-- A key that is put back twice is read once. -/
theorem key_put_back_read_once :
    newTokens [.get, .unget, .get, .unget, .get, .get]
        (({} : TokenStream).tokenize (bytes "Handle: 1" ++ [lf])) =
      [.ok ⟨.id, bytes "Handle"⟩, .ok ⟨.sepOp, []⟩] := by
  have read : newTokens [.get, .get] (({} : TokenStream).tokenize (bytes "Handle: 1" ++ [lf])) =
      [.ok ⟨.id, bytes "Handle"⟩, .ok ⟨.sepOp, []⟩] := by decide
  have twice : Padded [.get, .get] [.get, .unget, .get, .unget, .get, .get] := .get 2 (.get 0 .nil)
  rw [← read]
  exact (lexer_lossless (bytes "Handle: 1") (by decide) {}).2.2 _ _ twice

end TokenStream

end AsrClient
