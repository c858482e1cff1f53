import Mathlib.Data.Option.Basic

/-!
# Lockstep simulation of two objects

An object answers one call after the other. A call may have no answer, where what it
would do is not defined; the object then answers no further call. Two objects behave
alike from related states when they answer every call alike, or both not at all, and
stay related. That they then answer every sequence of calls alike is proved once, by
induction on the sequence.

The calls, the answers and the states are arbitrary.
-/

namespace Simulation

variable {Call Answer State Abstract : Type}

/-- Answer calls in order, as long as each of them has an answer. -/
def run (step : State → Call → Option (Answer × State)) :
    State → List Call → Option (List Answer × State)
  | state, [] => some ([], state)
  | state, call :: calls => do
      let (answer, state) ← step state call
      let (answers, state) ← run step state calls
      pure (answer :: answers, state)

/-- The same answer with related states, or no answer on either side. -/
def Agree {Result : Type} (related : State → Abstract → Prop) :
    Option (Result × State) → Option (Result × Abstract) → Prop :=
  Option.Rel fun actual expected => actual.1 = expected.1 ∧ related actual.2 expected.2

/-- Agreement holds for every weaker relation of the states. -/
theorem Agree.mono {Result : Type} {related weaker : State → Abstract → Prop}
    {actual : Option (Result × State)} {expected : Option (Result × Abstract)}
    (agree : Agree related actual expected)
    (weakens : ∀ state abstract, related state abstract → weaker state abstract) :
    Agree weaker actual expected := by
  cases agree with
  | none => exact .none
  | some answered => exact .some ⟨answered.1, weakens _ _ answered.2⟩

/-- Objects that agree on every call agree on every sequence of calls. -/
theorem run_agrees (related : State → Abstract → Prop)
    (step : State → Call → Option (Answer × State))
    (specification : Abstract → Call → Option (Answer × Abstract))
    (simulates : ∀ state abstract call, related state abstract →
      Agree related (step state call) (specification abstract call))
    (calls : List Call) (state : State) (abstract : Abstract) (start : related state abstract) :
    Agree related (run step state calls) (run specification abstract calls) := by
  induction calls generalizing state abstract with
  | nil => exact .some ⟨rfl, start⟩
  | cons call calls inductionHypothesis =>
    have once := simulates state abstract call start
    simp only [run]
    generalize step state call = actual at once
    generalize specification abstract call = expected at once
    cases once with
    | none => exact .none
    | @some answered answer same =>
      obtain ⟨result, next⟩ := answered
      obtain ⟨result', next'⟩ := answer
      obtain ⟨rfl, stillRelated⟩ := same
      have rest := inductionHypothesis next next' stillRelated
      simp only [Option.bind_eq_bind, Option.bind_some]
      generalize run step next calls = actual at rest
      generalize run specification next' calls = expected at rest
      cases rest with
      | none => exact .none
      | @some answered answer same =>
        obtain ⟨sameAnswers, finallyRelated⟩ := same
        exact .some ⟨congrArg _ sameAnswers, finallyRelated⟩

end Simulation
