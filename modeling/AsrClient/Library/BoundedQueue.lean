import Mathlib.Data.List.Basic

/-!
# A bounded queue that drops what does not fit

An offer appends a prefix of the offered cells and reports nothing about the rest.
How long the prefix is, is decided by an admission rule from the room left and the
number of cells offered; a rule keeps every offer that fits. A drain takes
everything out in order. Over any sequence of transfers, nothing is lost exactly
when each offer fitted at its own moment.

The element type, the capacity and the admission rule are arbitrary. How the queue
is stored and who performs the transfers are not described here.
-/

namespace AsrClient.BoundedQueue

universe u
variable {α : Type u}

/-- How many of the offered cells are kept, from the room left and their number. -/
structure Admission where
  kept : Nat → Nat → Nat
  fitting : ∀ room offered, offered ≤ room → kept room offered = offered
  bounded : ∀ room offered, kept room offered ≤ room

/-- One transfer: an offer of cells to the queue, or a removal of all of them. -/
inductive Transfer (α : Type u) where
  | offer (cells : List α)
  | drain
deriving DecidableEq

/-- Append the prefix that the rule keeps in the remaining capacity. -/
def offer (rule : Admission) (capacity : Nat) (queue cells : List α) : List α :=
  queue ++ cells.take (rule.kept (capacity - queue.length) cells.length)

/-- The queue after a sequence of transfers. -/
def contents (rule : Admission) (capacity : Nat) : List α → List (Transfer α) → List α
  | queue, [] => queue
  | queue, .offer cells :: rest =>
      contents rule capacity (offer rule capacity queue cells) rest
  | _, .drain :: rest => contents rule capacity [] rest

/-- Everything the drains of a sequence take out, in order. -/
def drained (rule : Admission) (capacity : Nat) : List α → List (Transfer α) → List α
  | _, [] => []
  | queue, .offer cells :: rest => drained rule capacity (offer rule capacity queue cells) rest
  | queue, .drain :: rest => queue ++ drained rule capacity [] rest

/-- Everything the producers of a sequence handed over, stored or not. -/
def offered : List (Transfer α) → List α
  | [] => []
  | .offer cells :: rest => cells ++ offered rest
  | .drain :: rest => offered rest

/-- Each offer fits in the room left at the moment it is made. -/
def AllFit (rule : Admission) (capacity : Nat) : List α → List (Transfer α) → Prop
  | _, [] => True
  | queue, .offer cells :: rest =>
      cells.length ≤ capacity - queue.length ∧
        AllFit rule capacity (offer rule capacity queue cells) rest
  | _, .drain :: rest => AllFit rule capacity [] rest

variable (rule : Admission) (capacity : Nat)

/-- A fitting offer is stored entirely. -/
theorem offer_fits (queue cells : List α) (fits : cells.length ≤ capacity - queue.length) :
    offer rule capacity queue cells = queue ++ cells := by
  rw [offer, rule.fitting _ _ fits, List.take_length]

/-- No offer stores more cells than were handed over. -/
theorem offer_length (queue cells : List α) :
    (offer rule capacity queue cells).length ≤ queue.length + cells.length := by
  simp only [offer, List.length_append, List.length_take]
  omega

/-- An offer that does not fit stores strictly fewer cells than were handed over. -/
theorem offer_drops (queue cells : List α) (excess : capacity - queue.length < cells.length) :
    (offer rule capacity queue cells).length < queue.length + cells.length := by
  have kept := rule.bounded (capacity - queue.length) cells.length
  simp only [offer, List.length_append, List.length_take]
  omega

/-- No transfer creates cells: what came out and what remains never exceed what
was there and what was handed over. -/
theorem never_more (queue : List α) (transfers : List (Transfer α)) :
    (drained rule capacity queue transfers).length +
      (contents rule capacity queue transfers).length ≤
        queue.length + (offered transfers).length := by
  induction transfers generalizing queue with
  | nil => simp [drained, contents, offered]
  | cons transfer rest inductionHypothesis =>
    cases transfer with
    | offer cells =>
      have later := inductionHypothesis (offer rule capacity queue cells)
      have stored := offer_length rule capacity queue cells
      simp only [drained, contents, offered, List.length_append]
      omega
    | drain =>
      have later := inductionHypothesis []
      simp only [drained, contents, offered, List.length_append, List.length_nil] at later ⊢
      omega

/-- When every offer fits, the transfers conserve the sequence of cells. -/
theorem conserved_of_fit (queue : List α) (transfers : List (Transfer α))
    (fit : AllFit rule capacity queue transfers) :
    drained rule capacity queue transfers ++ contents rule capacity queue transfers =
      queue ++ offered transfers := by
  induction transfers generalizing queue with
  | nil => simp [drained, contents, offered]
  | cons transfer rest inductionHypothesis =>
    cases transfer with
    | offer cells =>
      obtain ⟨fits, later⟩ := fit
      have tail := inductionHypothesis (offer rule capacity queue cells) later
      simp only [drained, contents, offered]
      rw [tail, offer_fits rule capacity queue cells fits, List.append_assoc]
    | drain =>
      have tail := inductionHypothesis [] fit
      simp only [drained, contents, offered, List.append_assoc]
      rw [tail, List.nil_append]

/-- One offer that does not fit is never made up for: later transfers cannot
restore the number of cells it dropped. -/
theorem fit_of_conserved (queue : List α) (transfers : List (Transfer α))
    (conserved : (drained rule capacity queue transfers).length +
      (contents rule capacity queue transfers).length =
        queue.length + (offered transfers).length) :
    AllFit rule capacity queue transfers := by
  induction transfers generalizing queue with
  | nil => trivial
  | cons transfer rest inductionHypothesis =>
    cases transfer with
    | offer cells =>
      have later := never_more rule capacity (offer rule capacity queue cells) rest
      simp only [drained, contents, offered, List.length_append] at conserved
      have fits : cells.length ≤ capacity - queue.length := by
        by_contra excess
        have dropped := offer_drops rule capacity queue cells (by omega)
        omega
      refine ⟨fits, inductionHypothesis _ ?_⟩
      rw [conserved, offer_fits rule capacity queue cells fits, List.length_append]
      omega
    | drain =>
      apply inductionHypothesis []
      simp only [drained, contents, offered, List.length_append, List.length_nil] at conserved ⊢
      omega

/-- The sequence of cells is conserved exactly when every offer fits. -/
theorem conserved_iff_fit (queue : List α) (transfers : List (Transfer α)) :
    drained rule capacity queue transfers ++ contents rule capacity queue transfers =
      queue ++ offered transfers ↔ AllFit rule capacity queue transfers := by
  constructor
  · intro conserved
    apply fit_of_conserved
    simpa only [List.length_append] using congrArg List.length conserved
  · exact conserved_of_fit rule capacity queue transfers

end AsrClient.BoundedQueue
