import AsrClient.Library.Transitions

/-!
# What a system is brought and what it accounts for

A system is brought items, and at any moment accounts for some of them: those that it has
handed over and those that it still holds, in their order. A step brings items that it accounts
for, or loses some. In a run nothing is accounted for twice, and all of it is accounted for
exactly when no step of the run loses anything.
-/

namespace Transitions

variable {State Label Item : Type}

/-- The turnover of a step, and whether it loses anything. -/
inductive Turnover (brought accounted : State → List Item) (before after : State) : Bool → Prop
    where
  | keeps (gained : List Item) (brings : brought after = brought before ++ gained)
      (accounts : accounted after = accounted before ++ gained) :
      Turnover brought accounted before after false
  | loses (brings : brought after = brought before)
      (left : (accounted after).Sublist (accounted before))
      (fewer : (accounted after).length < (accounted before).length) :
      Turnover brought accounted before after true

/-- What was accounted for among the items stays among them. -/
theorem Turnover.among {brought accounted : State → List Item} {before after : State}
    {lost : Bool} (turnover : Turnover brought accounted before after lost)
    (among : (accounted before).Sublist (brought before)) :
    (accounted after).Sublist (brought after) := by
  cases turnover with
  | keeps gained brings accounts =>
    rw [brings, accounts]
    exact among.append_right gained
  | loses brings left fewer =>
    rw [brings]
    exact left.trans among

section Run

variable {step : State → Label → Option State} {condition : State → Label → Prop}
  {brought accounted : State → List Item} {lost : State → Label → Bool} {holds : State → Prop}
  {start last : State} {labels : List Label}

/-- In a run nothing is accounted for twice, or out of order. -/
theorem Execution.accounts_among
    (execution : Execution step condition start labels last)
    (turns : ∀ before label after, holds before → step before label = some after →
      holds after ∧ Turnover brought accounted before after (lost before label))
    (first : holds start) (balanced : accounted start = brought start) :
    holds last ∧ (accounted last).Sublist (brought last) := by
  refine execution.invariant (fun state => holds state ∧ (accounted state).Sublist (brought state))
    ⟨first, balanced ▸ List.Sublist.refl _⟩ ?_
  rintro before label after ⟨held, among⟩ - moved
  obtain ⟨holds, turnover⟩ := turns before label after held moved
  exact ⟨holds, turnover.among among⟩

/-- All is accounted for, exactly when no step of the run loses anything. -/
theorem Execution.accounts_for_all_iff
    (execution : Execution step condition start labels last)
    (turns : ∀ before label after, holds before → step before label = some after →
      holds after ∧ Turnover brought accounted before after (lost before label))
    (first : holds start) (balanced : accounted start = brought start) :
    accounted last = brought last ↔
      Execution step (fun state label => lost state label = false) start labels last := by
  constructor
  · -- A run that has lost something accounts for fewer items for good.
    have either : (accounted last).length < (brought last).length ∨
        Execution step (fun state label => lost state label = false) start labels last := by
      induction execution with
      | refl => exact Or.inr .refl
      | snoc labels before after label former allowed moved inductionHypothesis =>
        obtain ⟨held, among⟩ := former.accounts_among turns first balanced
        have turnover := (turns before label after held moved).2
        have fits := among.length_le
        generalize found : lost before label = loses at turnover
        cases turnover with
        | keeps gained brings accounts =>
          refine inductionHypothesis.imp (fun fewer => ?_) fun run =>
            .snoc labels before after label run found moved
          rw [brings, accounts, List.length_append, List.length_append]
          omega
        | loses brings left fewer =>
          rw [brings]
          exact Or.inl (by omega)
    intro all
    exact either.resolve_left (by rw [all]; exact Nat.lt_irrefl _)
  · intro run
    refine (run.invariant (fun state => holds state ∧ accounted state = brought state)
      ⟨first, balanced⟩ ?_).2
    rintro before label after ⟨held, all⟩ kept moved
    obtain ⟨holds, turnover⟩ := turns before label after held moved
    rw [kept] at turnover
    cases turnover with
    | keeps gained brings accounts => exact ⟨holds, by rw [brings, accounts, all]⟩

end Run

end Transitions
