import AsrClient.BodyExtraction
import AsrClient.Codec

/-!
# The grammar of a line

The parser accepts three kinds of line: blanks, a command behind the keyword, and a key
with a value, which may be missing. A word is as long as it can be, so that words in a row
have blanks between them. Behind the separator a word takes in blanks and separators, and
reaches up to the end of the line. The keyword is not a word in any place.

Here a line that spells a statement is described by its parts alone. The parser accepts
exactly these lines, and performs what the statement says. What `std::stoi` makes of the
value of a Content-Length header is no matter of the grammar.
-/

namespace AsrClient

open TokenStream WsParser

/-- What a line can say. -/
inductive Statement where
  | blank
  | command (version name : Bytes)
  | header (key value : Bytes)
deriving DecidableEq

namespace Statement

/-- The lines that spell a statement. -/
inductive Spells : Statement → Bytes → Prop where
  | blank (line : Bytes) (blank : Blank line) : Spells .blank line
  | command (before between gap after version name : Bytes)
      (blank : Blank before ∧ Blank between ∧ Blank gap ∧ Blank after)
      (apart : between ≠ [] ∧ gap ≠ []) (versionWord : KeyWord version) (nameWord : KeyWord name) :
      Spells (.command version name)
        (before ++ bytes "ASR" ++ between ++ version ++ gap ++ name ++ after)
  | header (before gap after key value : Bytes) (blank : Blank before ∧ Blank gap ∧ Blank after)
      (keyWord : KeyWord key) (text : value = [] ∨ ValueWord value) :
      Spells (.header key value) (before ++ key ++ gap ++ [colon] ++ after ++ value)

/-- A Content-Length header has a value that `std::stoi` accepts. -/
def Sized : Statement → Prop
  | .header key value => key = bytes "Content-Length" → ∃ size, stoi value = .ok size
  | _ => True

/-- What a statement does: a command sets its two words, a header is inserted unless its key
is present, and a Content-Length header declares the body. -/
def perform (parser : WsParser) : Statement → WsParser
  | .blank => parser
  | .command version name => { parser with version := version, command := name }
  | .header key value =>
      let props := if key ∈ parser.props then parser.props else parser.props.insert key value
      if key = bytes "Content-Length" then
        match stoi value with
        | .ok size => { parser with hasBody := true, sizeBody := UInt64.ofInt size, props := props }
        | .error _ => { parser with hasBody := true }
      else { parser with props := props }

/-- The assignments of a statement, in order. -/
def assignments : Statement → List Assignment
  | .blank => []
  | .command version name => [.version version, .command name]
  | .header key value =>
      if key = bytes "Content-Length" then
        match stoi value with
        | .ok size => [.hasBody, .sizeBody size, .insert key value]
        | .error _ => [.hasBody]
      else [.insert key value]

/-- The assignments of a statement do what it says. -/
theorem assign_all_assignments (statement : Statement) (parser : WsParser) :
    assignAll parser statement.assignments = statement.perform parser := by
  have inserted (key value : Bytes) : parser.props.insertIfNew key value =
      if key ∈ parser.props then parser.props else parser.props.insert key value := by
    apply Std.ExtTreeMap.ext_getElem?
    intro other
    split_ifs with present <;> grind
  cases statement with
  | blank | command => rfl
  | header key value =>
    rw [assignments, perform]
    by_cases isLength : key = bytes "Content-Length"
    · rw [if_pos isLength]
      cases stoi value <;> simp [isLength, assignAll, assign, inserted]
    · simp only [if_neg isLength, assignAll, List.foldl_cons, List.foldl_nil, assign, inserted]

end Statement

/-- A line shows the keyword and a word behind it. -/
def ShowsVersion (line version behind : Bytes) : Prop :=
  ∃ rest, Leads false line (bytes "ASR") rest ∧ Leads false rest version behind ∧
    version ≠ bytes "ASR"

/-- A line shows the keyword and two words behind it. -/
def ShowsCommand (line version name behind : Bytes) : Prop :=
  ∃ rest, ShowsVersion line version rest ∧ Leads false rest name behind ∧ name ≠ bytes "ASR"

/-- What stands behind a separator: nothing up to the end of the line, or a word, with what is
left of the line and the mode behind it. -/
inductive ShowsValue (line : Bytes) : Bytes → Bytes → Bool → Prop where
  | missing (blank : Blank line) : ShowsValue line [] [] false
  | word (value behind : Bytes) (leads : Leads true line value behind)
      (notTitle : value ≠ bytes "ASR") : ShowsValue line value (behind ++ [lf]) true

/-- A line shows a key, a separator and a value. -/
def ShowsHeader (line key value rest : Bytes) (mode : Bool) : Prop :=
  ∃ keyed behind, Leads false line key keyed ∧ key ≠ bytes "ASR" ∧ Separates keyed behind ∧
    ShowsValue behind value rest mode

/-- What a line shows decides what it means: each case names the longest part of a statement
at its start. -/
inductive Shows (line : Bytes) : LineMeaning → Prop where
  | blank (blank : Blank line) : Shows line ([], none)
  | nothing (err : String) : Shows line ([], some (.parser err))
  | version (version behind : Bytes) (err : String) (shown : ShowsVersion line version behind) :
      Shows line ([.version version], some (.parser err))
  | command (version name behind : Bytes) (shown : ShowsCommand line version name behind) :
      Shows line (terminated [.version version, .command name] false (behind ++ [lf]))
  | header (key value rest : Bytes) (mode : Bool) (shown : ShowsHeader line key value rest mode) :
      Shows line (headerMeaning key value mode rest)

/-- A word is never a line end or a separator, and the keyword is not an identifier. -/
theorem classify_kind (word : Bytes) :
    (word = bytes "ASR" ∧ classify word = ⟨.asrTitle, []⟩) ∨
      (word ≠ bytes "ASR" ∧ classify word = ⟨.id, word⟩) := by
  by_cases title : word = bytes "ASR"
  · exact Or.inl ⟨title, if_pos title⟩
  · exact Or.inr ⟨title, if_neg title⟩

/-- A word of the plain mode is a key, unless it is the keyword. -/
theorem TokenStream.Word.key {word : Bytes} (isWord : Word false word) (notTitle : word ≠ bytes "ASR") :
    KeyWord word := by
  obtain ⟨first, rest, shape, -⟩ := isWord.begins
  exact ⟨by simp [shape], isWord.inWord, notTitle⟩

/-- A key is a word of the plain mode. -/
theorem KeyWord.isWord {word : Bytes} (keyWord : KeyWord word) : Word false word := by
  obtain ⟨first, rest, rfl⟩ := List.exists_cons_of_ne_nil keyWord.nonempty
  exact ⟨⟨first, rest, rfl, keyWord.word first (by simp)⟩, keyWord.word⟩

/-- The keyword is a word. -/
theorem title_word : Word false (bytes "ASR") :=
  ⟨⟨65, [83, 82], rfl, rfl⟩, List.all_eq_true.mp (by decide)⟩

/-- A blank ends a word of the plain mode. -/
theorem blank_stops (blanks rest : Bytes) (blank : Blank blanks) (apart : blanks ≠ []) :
    ∀ c ∈ (blanks ++ rest).head?, wordByte c false = false := by
  obtain ⟨first, tail, rfl⟩ := List.exists_cons_of_ne_nil apart
  obtain rfl : first = space := blank first (by simp)
  intro c isFirst
  obtain rfl : space = c := Option.some.inj isFirst
  rfl

/-- Two words in a row have blanks between them. -/
theorem TokenStream.Leads.apart {line word behind next rest : Bytes}
    (leads : Leads false line word behind) (following : Leads false behind next rest) :
    ∃ blanks, Blank blanks ∧ blanks ≠ [] ∧ behind = blanks ++ next ++ rest := by
  obtain ⟨blanks, blank, rfl⟩ := following.shape
  refine ⟨blanks, blank, ?_, rfl⟩
  rintro rfl
  obtain ⟨first, tail, rfl, begins⟩ := following.word.begins
  exact absurd begins (by simpa using leads.stops first rfl)

/-- A statement ends with blanks. -/
theorem terminated_accepts (assigned : List Assignment) (mode : Bool) (line : Bytes)
    (blank : Blank line) : terminated assigned mode (line ++ [lf]) = (assigned, none) := by
  rw [terminated, scan_line_end mode line blank]
  rfl

/-- Nothing but blanks ends a statement. -/
theorem terminated_blank (assigned : List Assignment) (mode : Bool) (line : Bytes) (free : lf ∉ line)
    (accepted : (terminated assigned mode (line ++ [lf])).2 = none) : Blank line := by
  rw [terminated] at accepted
  rcases scan_line mode line free with ⟨token, rest, mode', read, scanned⟩ | ⟨rest, mode', read⟩
  · rw [read] at accepted
    cases scanned with
    | lineEnd blank => exact blank
    | separator => simp at accepted
    | word word =>
      rcases classify_kind word with ⟨-, kind⟩ | ⟨-, kind⟩ <;> simp [kind] at accepted
  · rw [read] at accepted
    cases accepted

/-- An accepted header has a value that can be converted where it must be, and ends as any
statement does. -/
theorem header_accepted (key value : Bytes) (mode : Bool) (text : Bytes)
    (accepted : (headerMeaning key value mode text).2 = none) :
    (Statement.header key value).Sized ∧
      ∃ assigned, (terminated assigned mode text).2 = none := by
  rw [headerMeaning] at accepted
  split_ifs at accepted with isLength
  · cases number : stoi value with
    | error error => simp [number] at accepted
    | ok size =>
      rw [number] at accepted
      exact ⟨fun _ => ⟨size, number⟩, _, accepted⟩
  · exact ⟨fun same => absurd same isLength, _, accepted⟩

/-- A value goes up to the end of the line. -/
theorem TokenStream.Leads.whole {line word behind : Bytes} (leads : Leads true line word behind)
    (blank : Blank behind) : behind = [] := by
  cases behind with
  | nil => rfl
  | cons stop rest =>
    obtain rfl : stop = space := blank stop (by simp)
    exact absurd (leads.stops space rfl) (by decide)

/-- A version that a line shows is assigned, whatever follows it. -/
theorem version_shown {line version behind : Bytes} (shown : ShowsVersion line version behind) :
    .version version ∈ (lineMeaning (line ++ [lf])).1 := by
  obtain ⟨rest, title, leads, notTitle⟩ := shown
  rw [lineMeaning, scan_leads _ _ _ _ title]
  show _ ∈ (commandMeaning false _).1
  rw [commandMeaning, scan_leads _ _ _ _ leads, classify, if_neg notTitle]
  simp only [ne_eq, not_true_eq_false, ↓reduceIte]
  rcases scan false (behind ++ [lf]) with ⟨thrown | token, after, mode⟩
  · exact List.mem_singleton_self _
  · simp only
    split_ifs <;> simp

/-- A command that a line shows is read up to the end of the line. -/
theorem command_shown {line version name behind : Bytes}
    (shown : ShowsCommand line version name behind) :
    lineMeaning (line ++ [lf]) =
      terminated [.version version, .command name] false (behind ++ [lf]) := by
  obtain ⟨rest, ⟨titled, title, first, notTitle⟩, second, nameNotTitle⟩ := shown
  rw [lineMeaning, scan_leads _ _ _ _ title]
  show commandMeaning false _ = _
  rw [commandMeaning, scan_leads _ _ _ _ first, classify, if_neg notTitle]
  simp only [ne_eq, not_true_eq_false, ↓reduceIte]
  rw [scan_leads _ _ _ _ second, classify, if_neg nameNotTitle]
  rfl

/-- A header that a line shows is read up to the end of the line. -/
theorem header_shown {line key value rest : Bytes} {mode : Bool}
    (shown : ShowsHeader line key value rest mode) :
    lineMeaning (line ++ [lf]) = headerMeaning key value mode rest := by
  obtain ⟨keyed, behind, leads, notTitle, separates, text⟩ := shown
  rw [lineMeaning, scan_leads _ _ _ _ leads, classify, if_neg notTitle]
  show keyMeaning key false _ = _
  rw [keyMeaning, scan_separates _ _ _ separates]
  simp only [ne_eq, not_true_eq_false, ↓reduceIte]
  cases text with
  | missing blank => simp [scan_line_end true behind blank]
  | word value tail following valueNotTitle =>
    simp [scan_leads _ _ _ _ following, classify, valueNotTitle]

/-- Behind the keyword, a line shows no version, a version alone, or a command. -/
theorem command_shows (line rest : Bytes) (free : lf ∉ rest)
    (title : Leads false line (bytes "ASR") rest) :
    Shows line (commandMeaning false (rest ++ [lf])) := by
  rw [commandMeaning]
  rcases scan_line false rest free with ⟨token, behind, mode, read, scanned⟩ | ⟨_, _, read⟩
  · rw [read]
    cases scanned with
    | lineEnd | separator => exact .nothing _
    | word version behind leads =>
      rcases classify_kind version with ⟨-, kind⟩ | ⟨notTitle, kind⟩
      · rw [kind]
        exact .nothing _
      have shown : ShowsVersion line version behind := ⟨rest, title, leads, notTitle⟩
      simp only [kind, ne_eq, not_true_eq_false, ↓reduceIte]
      rcases scan_line false behind (leads.free free) with
        ⟨token, after, mode, read, scanned⟩ | ⟨_, _, read⟩
      · rw [read]
        cases scanned with
        | lineEnd | separator => exact .version version behind _ shown
        | word name after following =>
          rcases classify_kind name with ⟨-, kind⟩ | ⟨nameNotTitle, kind⟩
          · rw [kind]
            exact .version version behind _ shown
          · rw [kind]
            exact .command version name after ⟨behind, shown, following, nameNotTitle⟩
      · rw [read]
        exact .version version behind _ shown
  · rw [read]
    exact .nothing _

/-- Behind a key, a line shows nothing, or a header. -/
theorem key_shows (line key rest : Bytes) (free : lf ∉ rest) (leads : Leads false line key rest)
    (notTitle : key ≠ bytes "ASR") : Shows line (keyMeaning key false (rest ++ [lf])) := by
  rw [keyMeaning]
  rcases scan_line false rest free with ⟨token, behind, mode, read, scanned⟩ | ⟨_, _, read⟩
  · rw [read]
    cases scanned with
    | lineEnd => exact .nothing _
    | word word =>
      rcases classify_kind word with ⟨-, kind⟩ | ⟨-, kind⟩ <;> rw [kind] <;> exact .nothing _
    | separator behind separates =>
      simp only [ne_eq, not_true_eq_false, ↓reduceIte]
      rcases scan_line true behind (separates.free free) with
        ⟨token, after, mode, read, scanned⟩ | ⟨_, _, read⟩
      · rw [read]
        cases scanned with
        | separator => exact .nothing _
        | lineEnd blank =>
          exact .header key [] [] false ⟨rest, behind, leads, notTitle, separates, .missing blank⟩
        | word value after following =>
          rcases classify_kind value with ⟨-, kind⟩ | ⟨valueNotTitle, kind⟩
          · rw [kind]
            exact .nothing _
          · rw [kind]
            exact .header key value (after ++ [lf]) true
              ⟨rest, behind, leads, notTitle, separates, .word value after following valueNotTitle⟩
      · rw [read]
        exact .nothing _
  · rw [read]
    exact .nothing _

/-- Every line shows what it means. -/
theorem line_shows (line : Bytes) (free : lf ∉ line) : Shows line (lineMeaning (line ++ [lf])) := by
  rw [lineMeaning]
  rcases scan_line false line free with ⟨token, rest, mode, read, scanned⟩ | ⟨_, _, read⟩
  · rw [read]
    cases scanned with
    | lineEnd blank => exact .blank blank
    | separator => exact .nothing _
    | word word behind leads =>
      rcases classify_kind word with ⟨rfl, kind⟩ | ⟨notTitle, kind⟩
      · rw [kind]
        exact command_shows line behind (leads.free free) leads
      · rw [kind]
        exact key_shows line word behind (leads.free free) leads notTitle
  · rw [read]
    exact .nothing _

/-- A line shows a Content-Length header whose value `std::stoi` rejects. -/
def Misstated (line : Bytes) : Prop :=
  ∃ value rest mode error, ShowsHeader line (bytes "Content-Length") value rest mode ∧
    stoi value = .error error

/-- What is left behind a command is part of its line. -/
theorem ShowsCommand.free {line version name behind : Bytes}
    (shown : ShowsCommand line version name behind) (free : lf ∉ line) : lf ∉ behind := by
  obtain ⟨rest, ⟨_, title, first, -⟩, second, -⟩ := shown
  exact second.free (first.free (title.free free))

/-- Nothing is left behind a header, or a part of its line. -/
theorem ShowsHeader.free {line key value rest : Bytes} {mode : Bool}
    (shown : ShowsHeader line key value rest mode) (free : lf ∉ line) :
    rest = [] ∨ ∃ tail, rest = tail ++ [lf] ∧ lf ∉ tail := by
  obtain ⟨keyed, behind, leads, -, separates, text⟩ := shown
  cases text with
  | missing => exact Or.inl rfl
  | word _ tail following =>
    exact Or.inr ⟨tail, rfl, following.free (separates.free (leads.free free))⟩

/-- The end of a statement throws nothing but the parser's own exception. -/
theorem terminated_thrown (assigned : List Assignment) (mode : Bool) (line : Bytes)
    (free : lf ∉ line) :
    (terminated assigned mode (line ++ [lf])).2 = none ∨
      ∃ err, (terminated assigned mode (line ++ [lf])).2 = some (.parser err) := by
  rw [terminated]
  rcases scan_line mode line free with ⟨token, rest, mode', read, -⟩ | ⟨_, _, read⟩
  · rw [read]
    simp only
    split_ifs
    · exact Or.inr ⟨_, rfl⟩
    · exact Or.inl rfl
  · rw [read]
    exact Or.inr ⟨_, rfl⟩

/-- A misstated line leaves the parser by an exception of `std::stoi`. -/
theorem misstated_thrown {line : Bytes} (misstated : Misstated line) :
    ∃ error, (lineMeaning (line ++ [lf])).2 = some (.stoi error) := by
  obtain ⟨value, rest, mode, error, shown, number⟩ := misstated
  refine ⟨error, ?_⟩
  rw [header_shown shown, headerMeaning, if_pos rfl, number]

/-- A line is accepted, rejected by the parser's own exception, or misstated. -/
theorem line_thrown (line : Bytes) (free : lf ∉ line) :
    (lineMeaning (line ++ [lf])).2 = none ∨
      (∃ err, (lineMeaning (line ++ [lf])).2 = some (.parser err)) ∨ Misstated line := by
  have ended {meaning : LineMeaning}
      (thrown : meaning.2 = none ∨ ∃ err, meaning.2 = some (.parser err)) :
      meaning.2 = none ∨ (∃ err, meaning.2 = some (.parser err)) ∨ Misstated line :=
    thrown.imp_right Or.inl
  have shows := line_shows line free
  generalize lineMeaning (line ++ [lf]) = meaning at shows ⊢
  cases shows with
  | blank => exact Or.inl rfl
  | nothing err | version _ _ err => exact Or.inr (Or.inl ⟨err, rfl⟩)
  | command version name behind shown =>
    exact ended (terminated_thrown _ false behind (shown.free free))
  | header key value rest mode shown =>
    have closed (assigned : List Assignment) :
        (terminated assigned mode rest).2 = none ∨
          ∃ err, (terminated assigned mode rest).2 = some (.parser err) := by
      rcases shown.free free with rfl | ⟨tail, rfl, tailFree⟩
      · exact Or.inl rfl
      · exact terminated_thrown assigned mode tail tailFree
    rw [headerMeaning]
    split_ifs with isLength
    · cases number : stoi value with
      | error error =>
        exact Or.inr (Or.inr ⟨value, rest, mode, error, isLength ▸ shown, number⟩)
      | ok size => exact ended (closed _)
    · exact ended (closed _)

/-- A header that ends where its value does is spelled. -/
theorem ShowsHeader.spells {line key value rest : Bytes} {mode : Bool} (free : lf ∉ line)
    (shown : ShowsHeader line key value rest mode) (assigned : List Assignment)
    (ended : (terminated assigned mode rest).2 = none) :
    (Statement.header key value).Spells line := by
  obtain ⟨keyed, behind, leads, notTitle, ⟨gap, gapBlank, rfl⟩, text⟩ := shown
  obtain ⟨before, beforeBlank, rfl⟩ := leads.shape
  have keyWord := leads.word.key notTitle
  have spelled (after value : Bytes) (afterBlank : Blank after)
      (text : value = [] ∨ ValueWord value) (shape : behind = after ++ value) :
      (Statement.header key value).Spells (before ++ key ++ (gap ++ colon :: behind)) := by
    have whole := Statement.Spells.header before gap after key value
      ⟨beforeBlank, gapBlank, afterBlank⟩ keyWord text
    simpa [shape] using whole
  cases text with
  | missing blank => exact spelled behind [] blank (Or.inl rfl) (by simp)
  | word value tail following valueNotTitle =>
    obtain ⟨after, afterBlank, shape⟩ := following.shape
    have tailFree : lf ∉ tail := by
      rw [shape] at free
      exact fun member => free (by simp [member])
    obtain rfl : tail = [] := following.whole (terminated_blank assigned true tail tailFree ended)
    exact spelled after value afterBlank
      (Or.inr ⟨following.word.begins, following.word.inWord, valueNotTitle⟩) (by simpa using shape)

/-- A command that is followed by blanks is spelled. -/
theorem ShowsCommand.spells {line version name behind : Bytes}
    (shown : ShowsCommand line version name behind) (blank : Blank behind) :
    (Statement.command version name).Spells line := by
  obtain ⟨rest, ⟨titled, title, first, notTitle⟩, second, nameNotTitle⟩ := shown
  obtain ⟨before, beforeBlank, rfl⟩ := title.shape
  obtain ⟨between, betweenBlank, betweenApart, rfl⟩ := title.apart first
  obtain ⟨gap, gapBlank, gapApart, rfl⟩ := first.apart second
  have spelled := Statement.Spells.command before between gap behind version name
    ⟨beforeBlank, betweenBlank, gapBlank, blank⟩ ⟨betweenApart, gapApart⟩ (first.word.key notTitle)
    (second.word.key nameNotTitle)
  simpa using spelled

/-- An accepted line spells a statement. -/
theorem accepted_spells (line : Bytes) (free : lf ∉ line)
    (accepted : (lineMeaning (line ++ [lf])).2 = none) :
    ∃ statement : Statement, statement.Spells line ∧ statement.Sized := by
  have shows := line_shows line free
  generalize lineMeaning (line ++ [lf]) = meaning at shows accepted
  cases shows with
  | blank blank => exact ⟨.blank, .blank line blank, trivial⟩
  | nothing => cases accepted
  | version => cases accepted
  | command version name behind shown =>
    have blank := terminated_blank _ false behind (shown.free free) accepted
    exact ⟨.command version name, shown.spells blank, trivial⟩
  | header key value rest mode shown =>
    obtain ⟨sized, assigned, ended⟩ := header_accepted key value mode rest accepted
    exact ⟨.header key value, shown.spells free assigned ended, sized⟩

/-- A spelled command is shown. -/
theorem spelled_command (before between gap after version name : Bytes)
    (blank : Blank before ∧ Blank between ∧ Blank gap ∧ Blank after)
    (apart : between ≠ [] ∧ gap ≠ []) (versionWord : KeyWord version) (nameWord : KeyWord name) :
    ShowsCommand (before ++ bytes "ASR" ++ between ++ version ++ gap ++ name ++ after)
      version name after := by
  obtain ⟨beforeBlank, betweenBlank, gapBlank, afterBlank⟩ := blank
  have title : Leads false (before ++ bytes "ASR" ++ (between ++ version ++ (gap ++ name ++ after)))
      (bytes "ASR") (between ++ version ++ (gap ++ name ++ after)) := by
    refine ⟨⟨before, beforeBlank, rfl⟩, title_word, ?_⟩
    rw [List.append_assoc]
    exact blank_stops between _ betweenBlank apart.1
  have first : Leads false (between ++ version ++ (gap ++ name ++ after)) version
      (gap ++ name ++ after) := by
    refine ⟨⟨between, betweenBlank, rfl⟩, versionWord.isWord, ?_⟩
    rw [List.append_assoc]
    exact blank_stops gap _ gapBlank apart.2
  have second : Leads false (gap ++ name ++ after) name after := by
    refine ⟨⟨gap, gapBlank, rfl⟩, nameWord.isWord, ?_⟩
    cases after with
    | nil => simp
    | cons stop rest => simpa using blank_stops (stop :: rest) [] afterBlank (by simp)
  have shown : ShowsCommand _ version name after :=
    ⟨_, ⟨_, title, first, versionWord.title⟩, second, nameWord.title⟩
  simpa only [List.append_assoc] using shown

/-- A spelled header is shown, and nothing is left behind its value. -/
theorem spelled_header (before gap after key value : Bytes)
    (blank : Blank before ∧ Blank gap ∧ Blank after) (keyWord : KeyWord key)
    (text : value = [] ∨ ValueWord value) :
    ∃ rest mode, ShowsHeader (before ++ key ++ gap ++ [colon] ++ after ++ value) key value rest mode ∧
      ∀ assigned, terminated assigned mode rest = (assigned, none) := by
  obtain ⟨beforeBlank, gapBlank, afterBlank⟩ := blank
  have leads : Leads false (before ++ key ++ (gap ++ colon :: (after ++ value))) key
      (gap ++ colon :: (after ++ value)) := by
    refine ⟨⟨before, beforeBlank, rfl⟩, keyWord.isWord, ?_⟩
    by_cases none : gap = []
    · intro c isFirst
      rw [none] at isFirst
      obtain rfl : colon = c := Option.some.inj isFirst
      rfl
    · exact blank_stops gap _ gapBlank none
  have separates : Separates (gap ++ colon :: (after ++ value)) (after ++ value) :=
    ⟨gap, gapBlank, rfl⟩
  have whole : before ++ key ++ gap ++ [colon] ++ after ++ value =
      before ++ key ++ (gap ++ colon :: (after ++ value)) := by simp
  rw [whole]
  rcases text with rfl | valueWord
  · refine ⟨[], false, ⟨_, _, leads, keyWord.title, separates, ?_⟩, fun assigned => rfl⟩
    exact .missing (by simpa using afterBlank)
  · refine ⟨[lf], true, ⟨_, _, leads, keyWord.title, separates, ?_⟩, fun assigned => rfl⟩
    exact .word value [] ⟨⟨after, afterBlank, by simp⟩, ⟨valueWord.begins, valueWord.word⟩, by simp⟩
      valueWord.title

/-- A spelled statement has the assignments that it says. -/
theorem spells_meaning (statement : Statement) (line : Bytes) (spelled : statement.Spells line)
    (sized : statement.Sized) : lineMeaning (line ++ [lf]) = (statement.assignments, none) := by
  cases spelled with
  | blank line blank =>
    rw [lineMeaning, scan_line_end false line blank]
    rfl
  | command before between gap after version name blank apart versionWord nameWord =>
    rw [command_shown (spelled_command before between gap after version name blank apart versionWord
      nameWord)]
    exact terminated_accepts _ false after blank.2.2.2
  | header before gap after key value blank keyWord text =>
    obtain ⟨rest, mode, shown, ends⟩ :=
      spelled_header before gap after key value blank keyWord text
    rw [header_shown shown, headerMeaning, Statement.assignments]
    split_ifs with isLength
    · obtain ⟨size, number⟩ := sized isLength
      simp only [number, ends]
    · exact ends _

/-- A line without a line feed is accepted exactly when it spells a statement, and then does
what the statement says. -/
theorem parse_line_grammar (line : Bytes) (free : lf ∉ line) (parser : WsParser) :
    ((∃ after, parseLine (line ++ [lf]) parser = .ok () after) ↔
        ∃ statement : Statement, statement.Spells line ∧ statement.Sized) ∧
      ∀ statement : Statement, statement.Spells line → statement.Sized →
        ∃ tks, parseLine (line ++ [lf]) parser = .ok () { statement.perform parser with tks } := by
  obtain ⟨tks, exact⟩ := parse_line_exact parser (line ++ [lf])
  have performed (statement : Statement) (spelled : statement.Spells line)
      (sized : statement.Sized) :
      parseLine (line ++ [lf]) parser = .ok () { statement.perform parser with tks } := by
    rw [exact, conclude, spells_meaning statement line spelled sized]
    simp only [statement.assign_all_assignments]
  refine ⟨⟨?_, ?_⟩, fun statement spelled sized => ⟨tks, performed statement spelled sized⟩⟩
  · rintro ⟨after, accepted⟩
    apply accepted_spells line free
    rw [exact, conclude] at accepted
    cases thrown : (lineMeaning (line ++ [lf])).2 with
    | none => rfl
    | some thrown' =>
      rw [thrown] at accepted
      cases accepted
  · rintro ⟨statement, spelled, sized⟩
    exact ⟨_, performed statement spelled sized⟩

/-- Behind the separator, blanks and separators are part of a value. -/
theorem spaced_header_performed :
    ∃ tks, parseLine (bytes " Handle : a: b" ++ [lf]) {} =
      .ok () { (Statement.header (bytes "Handle") (bytes "a: b")).perform {} with tks } := by
  have spelled : (Statement.header (bytes "Handle") (bytes "a: b")).Spells (bytes " Handle : a: b") :=
    .header [space] [space] [space] (bytes "Handle") (bytes "a: b")
      ⟨List.forall_mem_singleton.mpr rfl, List.forall_mem_singleton.mpr rfl,
        List.forall_mem_singleton.mpr rfl⟩
      ⟨by decide, List.all_eq_true.mp (by decide), by decide⟩
      (Or.inr ⟨⟨97, bytes ": b", rfl, rfl⟩, List.all_eq_true.mp (by decide), by decide⟩)
  have sized : (Statement.header (bytes "Handle") (bytes "a: b")).Sized := fun isLength =>
    absurd isLength (by decide)
  exact (parse_line_grammar (bytes " Handle : a: b") (by decide) {}).2 _ spelled sized

end AsrClient
