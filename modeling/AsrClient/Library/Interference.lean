import Mathlib.Tactic.SplitIfs

/-!
# Machines that serve several parties

A machine reacts to an input with outputs, or fails. Every input belongs to a party, and its
outputs go there. A party sees of a state what decides on its own inputs.

When an input of another party changes nothing that a party sees, and two states that look
alike to it react alike to its own inputs, then what it is sent in a run is what it would be
sent if the others were not there.
-/

namespace Interference

variable {State Input Output Failure : Type}

/-- The reactions to inputs, one after the other. Each output is kept with its input. -/
def run (react : State → Input → Except Failure (State × List Output)) :
    State → List Input → Except Failure (State × List (Input × Output))
  | state, [] => .ok (state, [])
  | state, input :: inputs =>
      match react state input with
      | .error failure => .error failure
      | .ok (after, outputs) =>
          match run react after inputs with
          | .error failure => .error failure
          | .ok (last, more) => .ok (last, outputs.map (input, ·) ++ more)

section

variable {react : State → Input → Except Failure (State × List Output)} {state last : State}
  {input : Input} {inputs : List Input} {sent : List (Input × Output)}

/-- A run that succeeds reacts to its first input, and then to the others. -/
theorem run_cons (ran : run react state (input :: inputs) = .ok (last, sent)) :
    ∃ after outputs more, react state input = .ok (after, outputs) ∧
      run react after inputs = .ok (last, more) ∧ sent = outputs.map (input, ·) ++ more := by
  rw [run] at ran
  split at ran
  · cases ran
  · rename_i after outputs reacted
    split at ran
    · cases ran
    · rename_i finish more further
      cases ran
      exact ⟨after, outputs, more, reacted, further, rfl⟩

/-- A run is made of its first reaction and the run behind it. -/
theorem run_of_reaction {after : State} {outputs : List Output} {more : List (Input × Output)}
    (reacted : react state input = .ok (after, outputs))
    (ran : run react after inputs = .ok (last, more)) :
    run react state (input :: inputs) = .ok (last, outputs.map (input, ·) ++ more) := by
  rw [run, reacted]
  simp only [ran]

/-- The rule of invariants: what every reaction to one of the inputs keeps holds behind them. -/
theorem run_invariant (ran : run react state inputs = .ok (last, sent)) (holds : State → Prop)
    (initial : holds state)
    (preserved : ∀ before input after outputs, input ∈ inputs → holds before →
      react before input = .ok (after, outputs) → holds after) : holds last := by
  induction inputs generalizing state sent with
  | nil =>
    cases ran
    exact initial
  | cons input inputs inductionHypothesis =>
    obtain ⟨after, outputs, more, reacted, further, -⟩ := run_cons ran
    exact inductionHypothesis further
      (preserved state input after outputs List.mem_cons_self initial reacted)
      fun before input after outputs member =>
        preserved before input after outputs (List.mem_cons_of_mem _ member)

/-- A run of inputs that are made of two parts is a run of the first and then of the second. -/
theorem run_append {more : List Input} (ran : run react state (inputs ++ more) = .ok (last, sent)) :
    ∃ middle before behind, run react state inputs = .ok (middle, before) ∧
      run react middle more = .ok (last, behind) ∧ sent = before ++ behind := by
  induction inputs generalizing state sent with
  | nil => exact ⟨state, [], sent, rfl, ran, rfl⟩
  | cons input inputs inductionHypothesis =>
    obtain ⟨after, outputs, rest, reacted, further, rfl⟩ := run_cons ran
    obtain ⟨middle, before, behind, first, second, rfl⟩ := inductionHypothesis further
    exact ⟨middle, outputs.map (input, ·) ++ before, behind, run_of_reaction reacted first, second,
      (List.append_assoc _ _ _).symm⟩

/-- A value that is replaced by each of a list of others, where there is one, is the last of
them. -/
theorem foldl_latest {Entry Value : Type} (replaces : Entry → Option Value) (entries : List Entry)
    (value : Value) :
    entries.foldl (fun value entry => (replaces entry).getD value) value =
      (entries.filterMap replaces).getLast?.getD value := by
  induction entries generalizing value with
  | nil => rfl
  | cons entry entries inductionHypothesis =>
    rw [List.foldl_cons, inductionHypothesis]
    cases replaced : replaces entry with
    | none => rw [List.filterMap_cons_none replaced, Option.getD_none]
    | some other =>
      rw [List.filterMap_cons_some replaced, List.getLast?_cons, Option.getD_some, Option.getD_some]

/-- What a machine keeps of certain inputs until the next of them is, behind a run, of the last
of them. -/
theorem run_keeps_latest {Value : Type} (kept : State → Value) (replaces : Input → Option Value)
    (keeps : ∀ before input after outputs, react before input = .ok (after, outputs) →
      kept after = (replaces input).getD (kept before))
    (ran : run react state inputs = .ok (last, sent)) :
    kept last = (inputs.filterMap replaces).getLast?.getD (kept state) := by
  rw [← foldl_latest]
  induction inputs generalizing state sent with
  | nil =>
    cases ran
    rfl
  | cons input inputs inductionHypothesis =>
    obtain ⟨after, outputs, more, reacted, further, -⟩ := run_cons ran
    rw [List.foldl_cons, ← keeps state input after outputs reacted]
    exact inductionHypothesis further

end

section

variable {Party View : Type} [DecidableEq Party]

/-- What a party sees of a machine: which states look alike to it, and what it can tell of an
output. -/
structure Sight (react : State → Input → Except Failure (State × List Output))
    (party : Input → Party) (own : Party) (allowed : Input → Prop) (view : Output → View) where
  alike : State → State → Prop
  unseen : ∀ state other input after outputs, alike state other → party input ≠ own →
    react state input = .ok (after, outputs) → alike after other
  consistent : ∀ state other input after outputs, alike state other → party input = own →
    allowed input → react state input = .ok (after, outputs) →
    ∃ after' outputs', react other input = .ok (after', outputs') ∧ alike after after' ∧
      outputs.map view = outputs'.map view

/-- What a party is sent, as it sees it. -/
def seen (party : Input → Party) (own : Party) (view : Output → View)
    (sent : List (Input × Output)) : List View :=
  (sent.filter (party ·.1 = own)).map (view ·.2)

variable {react : State → Input → Except Failure (State × List Output)} {party : Input → Party}
  {own : Party} {allowed : Input → Prop} {view : Output → View}

/-- What is sent to a party for one input is seen when the input is its own. -/
theorem seen_append (input : Input) (outputs : List Output) (more : List (Input × Output)) :
    seen party own view (outputs.map (input, ·) ++ more) =
      (if party input = own then outputs.map view else []) ++ seen party own view more := by
  have first : (outputs.map (input, ·)).filter (fun sent => decide (party sent.1 = own)) =
      if party input = own then outputs.map (input, ·) else [] := by
    split_ifs with isOwn
    · exact List.filter_eq_self.mpr (by simp [isOwn])
    · exact List.filter_eq_nil_iff.mpr (by simp [isOwn])
  rw [seen, seen, List.filter_append, List.map_append, first]
  split_ifs <;> simp

/-- A party that runs alone is sent what it is sent among the others. -/
theorem sent_alone (sight : Sight react party own allowed view) (inputs : List Input)
    (own_allowed : ∀ input ∈ inputs, party input = own → allowed input) (state other last : State)
    (sent : List (Input × Output)) (alike : sight.alike state other)
    (ran : run react state inputs = .ok (last, sent)) :
    ∃ last' sent', run react other (inputs.filter (party · = own)) = .ok (last', sent') ∧
      sight.alike last last' ∧ seen party own view sent = seen party own view sent' := by
  induction inputs generalizing state other sent with
  | nil =>
    cases ran
    exact ⟨other, [], rfl, alike, rfl⟩
  | cons input inputs inductionHypothesis =>
    obtain ⟨after, outputs, more, reacted, further, rfl⟩ := run_cons ran
    rw [List.forall_mem_cons] at own_allowed
    by_cases isOwn : party input = own
    · obtain ⟨after', outputs', reacted', alike', same⟩ :=
        sight.consistent state other input after outputs alike isOwn (own_allowed.1 isOwn) reacted
      obtain ⟨last', sent', ran', alikeLast, sameSent⟩ :=
        inductionHypothesis own_allowed.2 after after' more alike' further
      refine ⟨last', outputs'.map (input, ·) ++ sent', ?_, alikeLast, ?_⟩
      · rw [List.filter_cons_of_pos (by simp [isOwn])]
        exact run_of_reaction reacted' ran'
      · rw [seen_append, seen_append, if_pos isOwn, if_pos isOwn, same, sameSent]
    · obtain ⟨last', sent', ran', alikeLast, sameSent⟩ := inductionHypothesis own_allowed.2 after
        other more (sight.unseen state other input after outputs alike isOwn reacted) further
      refine ⟨last', sent', ?_, alikeLast, ?_⟩
      · rw [List.filter_cons_of_neg (by simp [isOwn])]
        exact ran'
      · rw [seen_append, if_neg isOwn, List.nil_append]
        exact sameSent

end

end Interference
