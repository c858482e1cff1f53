import Mathlib.Tactic.SplitIfs

/-!
# Executions of a partial step function

A system is a step function on states and labels that is none where a label is not
enabled. An execution performs labels one after the other from a start state, and every
step meets a condition on the state before it. A property that holds at the start and
that every such step keeps holds wherever an execution leads.
-/

namespace Transitions

variable {State Label : Type}

/-- A finite execution from `start`, each step of it under the condition. -/
inductive Execution (step : State → Label → Option State) (condition : State → Label → Prop)
    (start : State) : List Label → State → Prop where
  | refl : Execution step condition start [] start
  | snoc (labels : List Label) (before after : State) (label : Label)
      (former : Execution step condition start labels before)
      (allowed : condition before label) (moved : step before label = some after) :
      Execution step condition start (labels ++ [label]) after

/-- Perform labels as long as they are enabled and meet the condition. -/
def runUnder (step : State → Label → Option State) (condition : State → Label → Prop)
    [∀ state label, Decidable (condition state label)] : State → List Label → Option State
  | state, [] => some state
  | state, label :: labels =>
      if condition state label then
        match step state label with
        | none => none
        | some after => runUnder step condition after labels
      else none

section

variable {step : State → Label → Option State} {condition : State → Label → Prop}

/-- Executions compose. -/
theorem Execution.append {start middle last : State} {former latter : List Label}
    (first : Execution step condition start former middle)
    (second : Execution step condition middle latter last) :
    Execution step condition start (former ++ latter) last := by
  induction second with
  | refl => simpa using first
  | snoc labels before after label _ allowed moved inductionHypothesis =>
    rw [← List.append_assoc]
    exact .snoc _ before after label inductionHypothesis allowed moved

/-- A run that succeeds is an execution. -/
theorem execution_of_run [∀ state label, Decidable (condition state label)]
    (start last : State) (labels : List Label)
    (performed : runUnder step condition start labels = some last) :
    Execution step condition start labels last := by
  induction labels generalizing start with
  | nil =>
    obtain rfl : start = last := Option.some.inj performed
    exact .refl
  | cons label labels inductionHypothesis =>
    rw [runUnder] at performed
    split_ifs at performed with allowed
    cases moved : step start label with
    | none => simp [moved] at performed
    | some after =>
      simp only [moved] at performed
      exact (Execution.snoc [] start after label .refl allowed moved).append
        (inductionHypothesis after performed)

/-- A run that succeeds with a checked state is an execution to such a state. -/
theorem exists_execution_of_run (step : State → Label → Option State)
    (condition : State → Label → Prop) [∀ state label, Decidable (condition state label)]
    (start : State) (labels : List Label) (check : State → Bool)
    (found : (runUnder step condition start labels).any check = true) :
    ∃ last, Execution step condition start labels last ∧ check last = true := by
  cases performed : runUnder step condition start labels with
  | none => simp [performed] at found
  | some last =>
    rw [performed] at found
    exact ⟨last, execution_of_run start last labels performed, found⟩

/-- The rule of invariants. -/
theorem Execution.invariant {start last : State} {labels : List Label}
    (execution : Execution step condition start labels last) (holds : State → Prop)
    (initial : holds start)
    (preserved : ∀ before label after, holds before → condition before label →
      step before label = some after → holds after) : holds last := by
  induction execution with
  | refl => exact initial
  | snoc labels before after label _ allowed moved inductionHypothesis =>
    exact preserved before label after inductionHypothesis allowed moved

/-- An execution under a condition is one under a weaker condition. -/
theorem Execution.weaken {weaker : State → Label → Prop} {start last : State} {labels : List Label}
    (execution : Execution step condition start labels last)
    (implies : ∀ state label, condition state label → weaker state label) :
    Execution step weaker start labels last := by
  induction execution with
  | refl => exact .refl
  | snoc labels before after label _ allowed moved inductionHypothesis =>
    exact .snoc labels before after label inductionHypothesis (implies _ _ allowed) moved

/-- An execution is one under a condition that all its labels meet besides. -/
theorem Execution.restrict {holds : Label → Prop} {start last : State} {labels : List Label}
    (execution : Execution step condition start labels last) (all : ∀ label ∈ labels, holds label) :
    Execution step (fun state label => condition state label ∧ holds label) start labels last := by
  induction execution with
  | refl => exact .refl
  | snoc labels before after label _ allowed moved inductionHypothesis =>
    rw [List.forall_mem_append, List.forall_mem_singleton] at all
    exact .snoc labels before after label (inductionHypothesis all.1) ⟨allowed, all.2⟩ moved

/-- The rule of termination: where every step has a cost left that it lowers, no execution is
longer than the cost at its start. -/
theorem Execution.bounded {start last : State} {labels : List Label}
    (execution : Execution step condition start labels last) (cost : State → Nat → Prop)
    (total : Nat) (initial : cost start total)
    (lowers : ∀ before label after left, cost before left → condition before label →
      step before label = some after → ∃ less, less < left ∧ cost after less) :
    ∃ left, cost last left ∧ labels.length + left ≤ total := by
  induction execution with
  | refl => exact ⟨total, initial, by simp⟩
  | snoc labels before after label _ allowed moved inductionHypothesis =>
    obtain ⟨left, costs, within⟩ := inductionHypothesis
    obtain ⟨less, lower, further⟩ := lowers before label after left costs allowed moved
    refine ⟨less, further, ?_⟩
    rw [List.length_append, List.length_singleton]
    omega

end

end Transitions
