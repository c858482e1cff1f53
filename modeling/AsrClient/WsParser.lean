import Std.Data.ExtTreeMap
import AsrClient.TokenStream

/-!
# The message parser

A payload is read line by line. Each line without its last character, closed by a
line feed again, is one statement: empty, a command, or a key with a value. A
Content-Length header also declares the size of the body. The header scan ends at a
blank line behind such a header, at the first rejected line, or at the end of the
payload. The body is then taken from the end of the payload.

An exception keeps the fields that were assigned before it, so a parsing step is a
state transformer that may throw. Exceptions of `std::stoi` are not caught by the
constructor, and removing the last character of an empty line is undefined.
-/

namespace AsrClient

/-- `std::map<std::string, std::string>`: ordered by key, one value for each key. -/
abbrev HeaderMap := Std.ExtTreeMap Bytes Bytes compare

/-- The fields of the parser. -/
structure WsParser where
  tks : TokenStream := {}
  command : Bytes := []
  version : Bytes := []
  body : Bytes := []
  hasBody : Bool := false
  sizeBody : UInt64 := 0
  props : HeaderMap := ∅

namespace WsParser

open TokenStream

/-- A parsing step: it may throw, and keeps the assignments made until then. -/
abbrev Parse := EStateM Thrown WsParser

/-- A step of the token stream is a step of the parser that owns it. -/
def lex {α : Type} (action : Scanner α) : Parse α := fun parser =>
  match action parser.tks with
  | .ok value tks => .ok value { parser with tks }
  | .error thrown tks => .error thrown { parser with tks }

/-- The next token. -/
def next : Parse Token := lex TokenStream.get

/-- Put the last token back. -/
def putBack : Parse Unit := modify fun parser => { parser with tks := parser.tks.unget }

/-- `std::stoi` on a header value. -/
def readSize (value : Bytes) : Parse Int := fun parser =>
  match stoi value with
  | .ok size => .ok size parser
  | .error error => .error (.stoi error) parser

/-- CmdExpr: ASR_TITLE ID ID -/
def cmdExpr : Parse Unit := do
  let tk ← next
  if tk.kind ≠ .asrTitle then throw (.parser "Expected ASR Title expression")
  else do
    let tk ← next
    if tk.kind ≠ .id then throw (.parser "Expected ID string")
    else do
      modify fun parser => { parser with version := tk.content }
      let tk ← next
      if tk.kind ≠ .id then throw (.parser "Expected ID string")
      else modify fun parser => { parser with command := tk.content }

/-- KeyExpr: ID ':' ID, where the value may be missing. -/
def keyExpr : Parse Unit := do
  let tk ← next
  if tk.kind ≠ .id then throw (.parser "Expected ID string")
  else do
    let key := tk.content
    let tk ← next
    if tk.kind ≠ .sepOp then throw (.parser "Expected separator operator")
    else do
      let tk ← next
      if tk.kind ≠ .id ∧ tk.kind ≠ .crlf then
        throw (.parser "Expected ID string or End of Line")
      else do
        let value := tk.content
        if key = bytes "Content-Length" then do
          modify fun parser => { parser with hasBody := true }
          let size ← readSize value
          modify fun parser => { parser with sizeBody := UInt64.ofInt size }
        modify fun parser => { parser with props := parser.props.insertIfNew key value }

/-- Expr: CmdExpr | KeyExpr -/
def expr : Parse Unit := do
  let tk ← next
  putBack
  if tk.kind = .asrTitle then cmdExpr else keyExpr

/-- STM: CRLF | Expr CRLF -/
def stm : Parse Unit := do
  let tk ← next
  putBack
  if tk.kind = .crlf then pure ()
  else do
    expr
    let tk ← next
    if tk.kind ≠ .crlf ∧ tk.kind ≠ .eoft then
      throw (.parser "Expected new line terminator")

/-- Parse one line on its own: the lexer starts over on it. -/
def parseLine (line : Bytes) : Parse Unit := fun parser =>
  stm { parser with tks := parser.tks.tokenize line }

/-- The header loop over the lines that `std::getline` reads. The parser's own
exceptions end the loop; the others leave the constructor. -/
def headerLoop : List Bytes → Parse Unit
  | [], parser => .ok () parser
  | line :: rest, parser =>
      if line = [cr] ∧ parser.hasBody = true then .ok () parser
      else if line = [] then .error .undefined parser
      else match parseLine (line.dropLast ++ [lf]) parser with
        | .ok _ parser => headerLoop rest parser
        | .error (.parser _) parser => .ok () parser
        | .error thrown parser => .error thrown parser

/-- The header scan of a payload, from a parser with no fields set. -/
def headers (str : Bytes) : EStateM.Result Thrown WsParser Unit := headerLoop (getlines lf str) {}

/-- Subtraction of two `size_t` values, both below 2^64: it wraps around at zero. -/
def sizeSub (minuend subtrahend : Nat) : Nat :=
  if subtrahend ≤ minuend then minuend - subtrahend else minuend + 2 ^ 64 - subtrahend

/-- The index `str.length() - i` that the body loop evaluates. -/
def bodyIndex (str : Bytes) (i : Nat) : Nat := sizeSub str.length i

/-- The body loop, with `i` counting down: append one character of the payload after
the other. An index outside the payload has no value. -/
def bodyLoop (str : Bytes) : Nat → Bytes → Except Thrown Bytes
  | 0, body => .ok body
  | i + 1, body =>
      match str[bodyIndex str (i + 1)]? with
      | none => .error .undefined
      | some c => bodyLoop str i (body ++ [c])

/-- The constructor that parses a payload. -/
def ofString (str : Bytes) : Except Thrown WsParser :=
  if str = [] then .ok {}
  else match headers str with
    | .error thrown _ => .error thrown
    | .ok _ parser =>
        if parser.hasBody then
          (bodyLoop str parser.sizeBody.toNat parser.body).map fun body => { parser with body }
        else .ok parser

/-- One assignment that a line makes. -/
inductive Assignment where
  | version (value : Bytes)
  | command (value : Bytes)
  | hasBody
  | sizeBody (size : Int)
  | insert (key value : Bytes)
deriving DecidableEq

/-- Perform one assignment. -/
def assign (parser : WsParser) : Assignment → WsParser
  | .version value => { parser with version := value }
  | .command value => { parser with command := value }
  | .hasBody => { parser with hasBody := true }
  | .sizeBody size => { parser with sizeBody := UInt64.ofInt size }
  | .insert key value => { parser with props := parser.props.insertIfNew key value }

/-- A line as a list of assignments, and what it throws behind them. -/
abbrev LineMeaning := List Assignment × Option Thrown

/-- The end of a statement: the assignments stand, and a terminator must follow. -/
def terminated (assignments : List Assignment) (afterSep : Bool) (rest : Bytes) : LineMeaning :=
  match (scan afterSep rest).1 with
  | .error thrown => (assignments, some thrown)
  | .ok tk =>
      if tk.kind ≠ .crlf ∧ tk.kind ≠ .eoft then
        (assignments, some (.parser "Expected new line terminator"))
      else (assignments, none)

/-- The meaning of a command line, from behind its title. -/
def commandMeaning (afterSep : Bool) (rest : Bytes) : LineMeaning :=
  match scan afterSep rest with
  | (.error thrown, _, _) => ([], some thrown)
  | (.ok version, rest, afterSep) =>
      if version.kind ≠ .id then ([], some (.parser "Expected ID string"))
      else match scan afterSep rest with
        | (.error thrown, _, _) => ([.version version.content], some thrown)
        | (.ok command, rest, afterSep) =>
            if command.kind ≠ .id then
              ([.version version.content], some (.parser "Expected ID string"))
            else terminated [.version version.content, .command command.content] afterSep rest

/-- The meaning of an accepted key and value, before the end of the line is read. -/
def headerMeaning (key value : Bytes) (afterSep : Bool) (rest : Bytes) : LineMeaning :=
  if key = bytes "Content-Length" then
    match stoi value with
    | .error error => ([.hasBody], some (.stoi error))
    | .ok size => terminated [.hasBody, .sizeBody size, .insert key value] afterSep rest
  else terminated [.insert key value] afterSep rest

/-- The meaning of a header line, from behind its key. -/
def keyMeaning (key : Bytes) (afterSep : Bool) (rest : Bytes) : LineMeaning :=
  match scan afterSep rest with
  | (.error thrown, _, _) => ([], some thrown)
  | (.ok separator, rest, afterSep) =>
      if separator.kind ≠ .sepOp then ([], some (.parser "Expected separator operator"))
      else match scan afterSep rest with
        | (.error thrown, _, _) => ([], some thrown)
        | (.ok value, rest, afterSep) =>
            if value.kind ≠ .id ∧ value.kind ≠ .crlf then
              ([], some (.parser "Expected ID string or End of Line"))
            else headerMeaning key value.content afterSep rest

/-- The meaning of a line by itself, whatever the parser held before it. -/
def lineMeaning (line : Bytes) : LineMeaning :=
  match scan false line with
  | (.error thrown, _, _) => ([], some thrown)
  | (.ok tk, rest, afterSep) =>
      match tk.kind with
      | .crlf => ([], none)
      | .asrTitle => commandMeaning afterSep rest
      | .id => keyMeaning tk.content afterSep rest
      | _ => ([], some (.parser "Expected ID string"))

/-- Assignments performed in order. -/
def assignAll (parser : WsParser) (assignments : List Assignment) : WsParser :=
  assignments.foldl assign parser

/-- The result of a line with this meaning. The token stream is left wherever the
lexer stopped; the next line starts it over. -/
def conclude (parser : WsParser) (meaning : LineMeaning) (tks : TokenStream) :
    EStateM.Result Thrown WsParser Unit :=
  match meaning.2 with
  | none => .ok () { assignAll parser meaning.1 with tks }
  | some thrown => .error thrown { assignAll parser meaning.1 with tks }

/-- The unsigned size that the body loop counts for a declared one. -/
theorem size_of_declared (size : Int) : ((UInt64.ofInt size).toNat : Int) = size % 2 ^ 64 := by
  have small : (size % 2 ^ 64).toNat < 2 ^ 64 := by omega
  rw [UInt64.ofInt, UInt64.toNat_ofNat_of_lt' small]
  omega

/-- Steps in sequence: the second runs on the state that the first leaves. -/
@[simp] theorem bind_apply {α β : Type} (first : Parse α) (second : α → Parse β)
    (parser : WsParser) :
    (first >>= second) parser =
      match first parser with
      | .ok value parser => second value parser
      | .error thrown parser => .error thrown parser := by
  show EStateM.bind first second parser = _
  unfold EStateM.bind
  cases first parser <;> rfl

@[simp] theorem throw_apply {α : Type} (thrown : Thrown) (parser : WsParser) :
    (throw thrown : Parse α) parser = .error thrown parser := rfl

@[simp] theorem modify_apply (update : WsParser → WsParser) (parser : WsParser) :
    (modify update : Parse PUnit) parser = .ok ⟨⟩ (update parser) := rfl

@[simp] theorem putBack_apply (parser : WsParser) :
    putBack parser = .ok ⟨⟩ { parser with tks := parser.tks.unget } := rfl

/-- A pending token is returned again without touching the string. -/
theorem next_pending (parser : WsParser) (rest : Bytes) (last : Token) (afterSep : Bool) :
    next { parser with tks := ⟨rest, last, true, afterSep⟩ } =
      .ok last { parser with tks := ⟨rest, last, false, afterSep⟩ } := rfl

/-- Without a pending token, the next one is read from the string. -/
theorem next_fresh (parser : WsParser) (rest : Bytes) (last : Token) (afterSep : Bool) :
    next { parser with tks := ⟨rest, last, false, afterSep⟩ } =
      match scan afterSep rest with
      | (.ok token, rest, afterSep) => .ok token { parser with tks := ⟨rest, token, false, afterSep⟩ }
      | (.error thrown, rest, afterSep) =>
          .error thrown { parser with tks := ⟨rest, last, false, afterSep⟩ } := by
  rcases scanned : scan afterSep rest with ⟨token | thrown, after, mode⟩ <;>
    simp [next, lex, TokenStream.get, getNext, scanned]

/-- The end of a statement, as `stm` reads it. -/
def closing : Parse Unit := do
  let tk ← next
  if tk.kind ≠ .crlf ∧ tk.kind ≠ .eoft then
    throw (.parser "Expected new line terminator")

/-- The end of a statement keeps the assignments made before it and adds none. -/
theorem closing_exact (parser : WsParser) (assignments : List Assignment) (rest : Bytes)
    (last : Token) (afterSep : Bool) :
    ∃ tks, closing { assignAll parser assignments with tks := ⟨rest, last, false, afterSep⟩ } =
      conclude parser (terminated assignments afterSep rest) tks := by
  simp only [closing, bind_apply, next_fresh, terminated]
  rcases scan afterSep rest with ⟨thrown | token, after, mode⟩
  · exact ⟨_, rfl⟩
  · by_cases other : token.kind ≠ .crlf ∧ token.kind ≠ .eoft
    · simp only [if_pos other]
      exact ⟨_, rfl⟩
    · simp only [if_neg other]
      exact ⟨_, rfl⟩

/-- A command line, from its pending title to its end: the version is assigned before
the command is read. -/
theorem cmdExpr_exact (parser : WsParser) (title : Token) (isTitle : title.kind = .asrTitle)
    (rest : Bytes) (afterSep : Bool) :
    ∃ tks, (cmdExpr >>= fun _ => closing) { parser with tks := ⟨rest, title, true, afterSep⟩ } =
      conclude parser (commandMeaning afterSep rest) tks := by
  simp only [cmdExpr, bind_apply, next_pending, isTitle, ne_eq, not_true_eq_false, ↓reduceIte,
    next_fresh, commandMeaning]
  rcases scan afterSep rest with ⟨thrown | version, rest, mode⟩
  · exact ⟨_, rfl⟩
  by_cases versionId : version.kind = .id
  · simp only [versionId, not_true_eq_false, ↓reduceIte, bind_apply, modify_apply]
    rw [next_fresh { parser with version := version.content }]
    rcases scan mode rest with ⟨thrown | command, rest, mode⟩
    · exact ⟨_, rfl⟩
    by_cases commandId : command.kind = .id
    · simp only [commandId, not_true_eq_false, ↓reduceIte, modify_apply]
      exact closing_exact parser [.version version.content, .command command.content] rest
        command mode
    · simp only [commandId, not_false_eq_true, ↓reduceIte, throw_apply]
      exact ⟨_, rfl⟩
  · simp only [versionId, not_false_eq_true, ↓reduceIte, throw_apply]
    exact ⟨_, rfl⟩

/-- A header line, from its pending key to its end: a Content-Length header declares
the body before its value is converted, and the map is updated last. -/
theorem keyExpr_exact (parser : WsParser) (key : Token) (isId : key.kind = .id)
    (rest : Bytes) (afterSep : Bool) :
    ∃ tks, (keyExpr >>= fun _ => closing) { parser with tks := ⟨rest, key, true, afterSep⟩ } =
      conclude parser (keyMeaning key.content afterSep rest) tks := by
  simp only [keyExpr, bind_apply, next_pending, isId, ne_eq, not_true_eq_false, ↓reduceIte,
    next_fresh, keyMeaning]
  rcases scan afterSep rest with ⟨thrown | separator, rest, mode⟩
  · exact ⟨_, rfl⟩
  by_cases isSep : separator.kind = .sepOp
  · simp only [isSep, not_true_eq_false, ↓reduceIte, bind_apply, next_fresh]
    rcases scan mode rest with ⟨thrown | value, rest, mode⟩
    · exact ⟨_, rfl⟩
    by_cases notValue : ¬value.kind = .id ∧ ¬value.kind = .crlf
    · simp only [if_pos notValue, throw_apply]
      exact ⟨_, rfl⟩
    by_cases isLength : key.content = bytes "Content-Length"
    · simp only [if_neg notValue, headerMeaning, if_pos isLength, bind_apply, modify_apply, readSize]
      cases stoi value.content with
      | error error => exact ⟨_, rfl⟩
      | ok size =>
        exact closing_exact parser [.hasBody, .sizeBody size, .insert key.content value.content]
          rest value mode
    · simp only [if_neg notValue, headerMeaning, if_neg isLength, modify_apply]
      exact closing_exact parser [.insert key.content value.content] rest value mode
  · simp only [isSep, not_false_eq_true, ↓reduceIte, throw_apply]
    exact ⟨_, rfl⟩

/-- A line makes exactly the assignments of its meaning, in order, and then throws
what its meaning says: neither depends on what the parser held before.

The first token is read, put back, read again by `expr` and put back once more before
the expression reads it for good; it decides which expression follows. -/
theorem parse_line_exact (parser : WsParser) (line : Bytes) :
    ∃ tks, parseLine line parser = conclude parser (lineMeaning line) tks := by
  have start : parseLine line parser =
      stm { parser with tks := ⟨line, parser.tks.last, false, false⟩ } := rfl
  rw [start, stm, lineMeaning, bind_apply, next_fresh]
  rcases scan false line with ⟨thrown | token, rest, mode⟩
  · exact ⟨_, rfl⟩
  obtain ⟨kind, content⟩ := token
  have again : expr { parser with tks := ⟨rest, ⟨kind, content⟩, true, mode⟩ } =
      (if kind = .asrTitle then cmdExpr else keyExpr)
        { parser with tks := ⟨rest, ⟨kind, content⟩, true, mode⟩ } := by
    simp only [expr, bind_apply, next_pending, putBack_apply, TokenStream.unget]
  have chosen (command : kind ≠ .crlf) :
      (do
        let tk : Token := ⟨kind, content⟩
        putBack
        if tk.kind = .crlf then pure ()
        else do
          expr
          closing : Parse Unit) { parser with tks := ⟨rest, ⟨kind, content⟩, false, mode⟩ } =
        ((if kind = .asrTitle then cmdExpr else keyExpr) >>= fun _ => closing)
          { parser with tks := ⟨rest, ⟨kind, content⟩, true, mode⟩ } := by
    simp only [bind_apply, putBack_apply, TokenStream.unget, if_neg command, again]
  cases kind with
  | crlf => exact ⟨_, rfl⟩
  | asrTitle =>
    obtain ⟨tks, exact⟩ := cmdExpr_exact parser ⟨.asrTitle, content⟩ rfl rest mode
    exact ⟨tks, (chosen (by decide)).trans exact⟩
  | id =>
    obtain ⟨tks, exact⟩ := keyExpr_exact parser ⟨.id, content⟩ rfl rest mode
    exact ⟨tks, (chosen (by decide)).trans exact⟩
  | sepOp => exact ⟨_, (chosen (by decide)).trans rfl⟩
  | eoft => exact ⟨_, (chosen (by decide)).trans rfl⟩

/-- What the header loop does behind a line, by what the line throws. -/
def loopBehind (rest : List Bytes) (after : WsParser) :
    Option Thrown → EStateM.Result Thrown WsParser Unit
  | none => headerLoop rest after
  | some (.parser _) => .ok () after
  | some thrown => .error thrown after

/-- Unless the header loop ends in front of a line, it performs the assignments of the line and
does what follows from its exception. -/
theorem header_loop_cons (parser : WsParser) (line : Bytes)
    (going : ¬ (line = [cr] ∧ parser.hasBody = true)) (filled : line ≠ []) :
    ∃ tks, ∀ rest, headerLoop (line :: rest) parser =
      loopBehind rest { assignAll parser (lineMeaning (line.dropLast ++ [lf])).1 with tks }
        (lineMeaning (line.dropLast ++ [lf])).2 := by
  obtain ⟨tks, exact⟩ := parse_line_exact parser (line.dropLast ++ [lf])
  refine ⟨tks, fun rest => ?_⟩
  rw [headerLoop, if_neg going, if_neg filled, exact, conclude]
  rcases (lineMeaning (line.dropLast ++ [lf])).2 with _ | (err | error | _)
  all_goals rfl

/-- A loop that ends has gone on behind the line, or has stopped at the parser's own
exception. -/
theorem loop_behind_ok {rest : List Bytes} {after last : WsParser} {thrown : Option Thrown}
    (ended : loopBehind rest after thrown = .ok () last) :
    (thrown = none ∧ headerLoop rest after = .ok () last) ∨
      (∃ err, thrown = some (.parser err)) ∧ after = last := by
  rcases thrown with _ | (err | error | _)
  · exact Or.inl ⟨rfl, ended⟩
  · cases ended
    exact Or.inr ⟨⟨err, rfl⟩, rfl⟩
  · cases ended
  · cases ended

end WsParser

end AsrClient
