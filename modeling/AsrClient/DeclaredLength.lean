import AsrClient.HeaderScan

/-!
# The length that a reader sees

A Content-Length header sets three fields: the map keeps the first value of a key, while the
flag and the size of the body are assigned again by every further header. The number that is
found in the map is therefore the first of those declared, and the one that the body is taken
by is the last.
-/

namespace AsrClient

namespace WsParser

/-- The number that a reader finds under Content-Length is the one that the body is taken by,
and it is there exactly when there is a body. -/
def Consistent (parser : WsParser) : Prop :=
  (parser.hasBody = true ↔ bytes "Content-Length" ∈ parser.props) ∧
    (parser.hasBody = true → ∃ value size, parser.props[bytes "Content-Length"]? = some value ∧
      stoi value = .ok size ∧ parser.sizeBody = UInt64.ofInt size)

/-- What the sizes that were declared leave in the parser: the map keeps the first of them,
the size of the body is the last. -/
structure Keeps (parser : WsParser) (declared : List Int) : Prop where
  body : parser.hasBody = true ↔ declared ≠ []
  present : bytes "Content-Length" ∈ parser.props ↔ declared ≠ []
  first : ∀ value, parser.props[bytes "Content-Length"]? = some value →
    (stoi value).toOption = declared.head?
  last : ∀ size, declared.getLast? = some size → parser.sizeBody = UInt64.ofInt size

/-- A Content-Length header adds its size: it is the last one, and the first one where the map
has no value yet. -/
theorem Keeps.declare {parser : WsParser} {declared : List Int} (keeps : Keeps parser declared)
    (value : Bytes) (size : Int) (number : stoi value = .ok size) (tks : TokenStream) :
    Keeps
      { assignAll parser
          [.hasBody, .sizeBody size, .insert (bytes "Content-Length") value] with tks }
      (declared ++ [size]) := by
  refine ⟨by simp [assignAll, assign], by simp [assignAll, assign], fun text entry => ?_,
    fun last isLast => ?_⟩
  · have found : (parser.props.insertIfNew (bytes "Content-Length") value)[bytes "Content-Length"]? =
        some text := entry
    rw [Std.ExtTreeMap.getElem?_insertIfNew] at found
    by_cases present : bytes "Content-Length" ∈ parser.props
    · rw [if_neg (fun new => new.2 present)] at found
      rw [keeps.first text found, List.head?_append_of_ne_nil _ (keeps.present.mp present)]
    · obtain rfl : declared = [] := by
        by_contra nonempty
        exact present (keeps.present.mpr nonempty)
      rw [if_pos ⟨by simp, present⟩] at found
      obtain rfl : value = text := Option.some.inj found
      rw [number]
      rfl
  · simp at isLast
    simp [assignAll, assign, isLast]

/-- A header with another key adds no size. -/
theorem Keeps.insert {parser : WsParser} {declared : List Int} (keeps : Keeps parser declared)
    (key value : Bytes) (isOther : key ≠ bytes "Content-Length") (tks : TokenStream) :
    Keeps { assignAll parser [.insert key value] with tks } declared := by
  have other : (parser.props.insertIfNew key value)[bytes "Content-Length"]? =
      parser.props[bytes "Content-Length"]? := by
    simp [Std.ExtTreeMap.getElem?_insertIfNew, isOther]
  refine ⟨keeps.body, ?_, fun text entry => keeps.first text ?_, keeps.last⟩
  · rw [← keeps.present]
    simp [assignAll, assign, isOther]
  · rwa [← other]

/-- An accepted line adds the size it declares. -/
theorem Keeps.line {parser : WsParser} {declared : List Int} (keeps : Keeps parser declared)
    (line : Bytes) (accepted : Accepts line) (tks : TokenStream) :
    Keeps { assignAll parser (lineMeaning (line.dropLast ++ [lf])).1 with tks }
      (declared ++ sizes (lineMeaning (line.dropLast ++ [lf])).1) := by
  obtain ⟨statement, spelled, sized⟩ := accepted
  rw [spells_meaning statement _ spelled sized]
  cases statement with
  | blank | command =>
    simp only [Statement.assignments, sizes, List.filterMap_cons, List.filterMap_nil,
      List.append_nil]
    exact ⟨keeps.body, keeps.present, keeps.first, keeps.last⟩
  | header key value =>
    by_cases isLength : key = bytes "Content-Length"
    · obtain ⟨size, number⟩ := sized isLength
      subst isLength
      have made : (Statement.header (bytes "Content-Length") value).assignments =
          [.hasBody, .sizeBody size, .insert (bytes "Content-Length") value] := by
        simp [Statement.assignments, number]
      rw [made]
      exact keeps.declare value size number tks
    · have made : (Statement.header key value).assignments = [.insert key value] := by
        simp [Statement.assignments, isLength]
      have none : sizes [.insert key value] = [] := rfl
      rw [made, none, List.append_nil]
      exact keeps.insert key value isLength tks

/-- Behind accepted lines the parser keeps the sizes that they declare. -/
theorem behind_keeps (lines : List Bytes) (tks : TokenStream)
    (accepted : ∀ line ∈ lines, Accepts line) :
    Keeps (behind lines tks) (sizes (assignments lines)) := by
  induction lines using List.reverseRecOn generalizing tks with
  | nil => exact ⟨by simp [behind, assignments, assignAll, sizes],
      by simp [behind, assignments, assignAll, sizes], by simp [behind, assignments, assignAll],
      by simp [assignments, sizes]⟩
  | append_singleton lines line inductionHypothesis =>
    have whole : sizes (assignments (lines ++ [line])) =
        sizes (assignments lines) ++ sizes (lineMeaning (line.dropLast ++ [lf])).1 := by
      simp [assignments, sizes]
    have former := inductionHypothesis tks fun other member => accepted other (by simp [member])
    rw [← behind_append lines line tks tks, whole]
    exact former.line line (accepted line (by simp)) tks

/-- The sizes among the assignments of accepted lines are those that the lines declare. -/
theorem mem_sizes_iff (lines : List Bytes) (accepted : ∀ line ∈ lines, Accepts line) (size : Int) :
    size ∈ sizes (assignments lines) ↔ ∃ line ∈ lines, DeclaresSize line size := by
  have flat : sizes (assignments lines) =
      lines.flatMap fun line => sizes (lineMeaning (line.dropLast ++ [lf])).1 := by
    rw [sizes, assignments, List.filterMap_flatMap]
    rfl
  rw [flat, List.mem_flatMap]
  apply exists_congr
  intro line
  apply and_congr_right
  intro member
  exact declares_size_iff line (accepted line member) size

/-- Declared sizes of the range of `int` are told apart in 64 bits. -/
theorem declared_injective (size size' : Int) (small : -2 ^ 31 ≤ size ∧ size < 2 ^ 31)
    (small' : -2 ^ 31 ≤ size' ∧ size' < 2 ^ 31) (same : UInt64.ofInt size = UInt64.ofInt size') :
    size = size' := by
  have converted := size_of_declared size
  rw [same, size_of_declared] at converted
  omega

/-- The two fields agree exactly when the first declared size is the last. -/
theorem Keeps.consistent_iff {parser : WsParser} {declared : List Int}
    (keeps : Keeps parser declared) (small : ∀ size ∈ declared, -2 ^ 31 ≤ size ∧ size < 2 ^ 31) :
    Consistent parser ↔ declared.head? = declared.getLast? := by
  constructor
  · rintro ⟨-, agrees⟩
    cases isLast : declared.getLast? with
    | none => rw [List.getLast?_eq_none_iff.mp isLast, List.head?_nil]
    | some last =>
      have nonempty : declared ≠ [] := by
        rintro rfl
        cases isLast
      obtain ⟨value, size, entry, number, sizeBody⟩ := agrees (keeps.body.mpr nonempty)
      have isFirst := keeps.first value entry
      rw [number] at isFirst
      have same := declared_injective size last (small size (List.mem_of_head? isFirst.symm))
        (small last (List.mem_of_getLast? isLast)) (sizeBody.symm.trans (keeps.last last isLast))
      rw [← isFirst, same]
      rfl
  · intro agrees
    refine ⟨keeps.body.trans keeps.present.symm, fun hasBody => ?_⟩
    have present := keeps.present.mpr (keeps.body.mp hasBody)
    obtain ⟨value, entry⟩ :=
      Option.isSome_iff_exists.mp (Std.ExtTreeMap.mem_iff_isSome_getElem?.mp present)
    have isFirst := keeps.first value entry
    cases number : stoi value with
    | error error =>
      rw [number] at isFirst
      exact absurd (List.head?_eq_none_iff.mp isFirst.symm) (keeps.body.mp hasBody)
    | ok size =>
      rw [number, agrees] at isFirst
      exact ⟨value, size, entry, number, keeps.last size isFirst.symm⟩

/-- All Content-Length headers among the lines declare the same number. -/
def OneSize (lines : List Bytes) : Prop :=
  ∀ line ∈ lines, ∀ line' ∈ lines, ∀ size size',
    DeclaresSize line size → DeclaresSize line' size' → size = size'

/-- Behind passed lines the parser is consistent exactly when the first size that they declare
is the last. -/
theorem Passed.consistent_iff {lines : List Bytes} (passed : Passed lines) (tks : TokenStream) :
    Consistent (behind lines tks) ↔
      (sizes (assignments lines)).head? = (sizes (assignments lines)).getLast? := by
  apply (behind_keeps lines tks passed.accepted).consistent_iff
  intro size member
  obtain ⟨line, -, value, -, number⟩ := (mem_sizes_iff lines passed.accepted size).mp member
  exact stoi_range value size number

/-- The body is taken by the length that the reader sees, wherever the loop comes to, exactly
when the Content-Length headers that it passes all declare the same number. -/
theorem length_consistent_iff (payload : Bytes) :
    (∀ parser rest, Reaches payload parser rest → Consistent parser) ↔
      ∀ before rest, getlines lf payload = before ++ rest → Passed before → OneSize before := by
  constructor
  · intro consistent before rest whole passed
    -- Behind the line of any size, this size is the last, and so the first one.
    have isFirst (line : Bytes) (member : line ∈ before) (size : Int)
        (declares : DeclaresSize line size) :
        (sizes (assignments before)).head? = some size := by
      obtain ⟨former, latter, rfl⟩ := List.append_of_mem member
      have split : former ++ line :: latter = (former ++ [line]) ++ latter := by simp
      rw [split] at passed whole
      obtain ⟨tks, reached⟩ := passed.first.reached (by rw [whole, List.append_assoc])
      have made : sizes (lineMeaning (line.dropLast ++ [lf])).1 = [size] := by
        obtain ⟨value, spelled, number⟩ := declares
        rw [spells_meaning _ _ spelled (fun _ => ⟨size, number⟩)]
        simp [Statement.assignments, number, sizes]
      have upTo : sizes (assignments (former ++ [line])) = sizes (assignments former) ++ [size] := by
        rw [← made]
        simp [assignments, sizes]
      have agrees := (passed.first.consistent_iff tks).mp (consistent _ _ reached)
      rw [upTo, List.getLast?_concat] at agrees
      have all : sizes (assignments (former ++ line :: latter)) =
          (sizes (assignments former) ++ [size]) ++ sizes (assignments latter) := by
        rw [← upTo, split]
        simp [assignments, sizes]
      rw [all, List.head?_append, agrees]
      rfl
    intro line member line' member' size size' declares declares'
    exact Option.some.inj ((isFirst line member size declares).symm.trans
      (isFirst line' member' size' declares'))
  · intro oneSize parser rest reached
    obtain ⟨before, tks, whole, passed, rfl⟩ := reached.passed
    rw [passed.consistent_iff]
    cases first : (sizes (assignments before)).head? with
    | none => rw [List.head?_eq_none_iff.mp first, List.getLast?_nil]
    | some size =>
      cases last : (sizes (assignments before)).getLast? with
      | none => rw [List.getLast?_eq_none_iff.mp last] at first; cases first
      | some size' =>
        obtain ⟨line, member, declares⟩ :=
          (mem_sizes_iff before passed.accepted size).mp (List.mem_of_head? first)
        obtain ⟨line', member', declares'⟩ :=
          (mem_sizes_iff before passed.accepted size').mp (List.mem_of_getLast? last)
        exact congrArg some
          (oneSize before rest whole passed line member line' member' size size' declares declares')

/-- With two lengths, the reader sees the first and the body is taken by the second. -/
theorem second_length_taken :
    ¬ ∀ parser rest, Reaches (bytes "Content-Length: 2\r\nContent-Length: 4\r\n") parser rest →
      Consistent parser := by
  intro consistent
  have atStart : Reaches (bytes "Content-Length: 2\r\nContent-Length: 4\r\n") {} _ := .start
  have behindFirst := Reaches.next _ _ _ _ atStart (by decide) (by decide) rfl
  have reached := Reaches.next _ _ _ _ behindFirst (by decide) (by decide) rfl
  obtain ⟨value, size, entry, number, sizeBody⟩ := (consistent _ _ reached).2 rfl
  obtain rfl : bytes "2" = value := Option.some.inj entry
  obtain rfl : 2 = size := Except.ok.inj number
  exact absurd sizeBody (by decide)

end WsParser

end AsrClient
