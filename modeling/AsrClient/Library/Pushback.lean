import Mathlib.Data.List.Basic

/-!
# Readers with one item of pushback

A reader answers a read with an item or with an exception, and moves on. A buffer around it
remembers the last item. Putting it back makes the next call answer with it again, and leaves
the reader where it is.

Whatever the calls are, the items that are new are those of the reader alone, in order. A read
followed by any number of repetitions of its item changes nothing for what is read behind it.
A reader that gets nearer to its end with every item ends after as many of them.
-/

namespace Pushback

universe u v w

variable {σ : Type u} {ε : Type v} {α : Type w}

/-- What is read in a state, and the state behind it. -/
abbrev Reader (σ : Type u) (ε : Type v) (α : Type w) := σ → Except ε α × σ

/-- The answers of so many reads, one behind the other. -/
def reads (reader : Reader σ ε α) : Nat → σ → List (Except ε α)
  | 0, _ => []
  | count + 1, state => (reader state).1 :: reads reader count (reader state).2

/-- The state of a reader, and its last item, which may be pending again. -/
structure Buffered (σ : Type u) (α : Type w) where
  state : σ
  last : α
  pending : Bool

/-- A call to a buffered reader. -/
inductive Call where
  | get
  | unget
deriving DecidableEq

/-- Answer with the pending item, or read the next one. -/
def Buffered.get (reader : Reader σ ε α) (buffered : Buffered σ α) :
    Except ε α × Buffered σ α :=
  if buffered.pending then (.ok buffered.last, { buffered with pending := false })
  else match reader buffered.state with
    | (.ok item, state) => (.ok item, ⟨state, item, false⟩)
    | (.error thrown, state) => (.error thrown, ⟨state, buffered.last, false⟩)

/-- Put the last item back. -/
def Buffered.unget (buffered : Buffered σ α) : Buffered σ α := { buffered with pending := true }

/-- The answers of the calls that read on: a pending item is not a new one. -/
def news (reader : Reader σ ε α) : List Call → Buffered σ α → List (Except ε α)
  | [], _ => []
  | .unget :: calls, buffered => news reader calls buffered.unget
  | .get :: calls, buffered =>
      if buffered.pending then news reader calls (buffered.get reader).2
      else (buffered.get reader).1 :: news reader calls (buffered.get reader).2

/-- So many times, the item is put back and taken again. -/
def pairs (count : Nat) : List Call := (List.replicate count [.unget, .get]).flatten

/-- The same calls, with any number of such pairs behind each read. -/
inductive Padded : List Call → List Call → Prop where
  | nil : Padded [] []
  | unget {calls padded : List Call} (later : Padded calls padded) :
      Padded (.unget :: calls) (.unget :: padded)
  | get {calls padded : List Call} (count : Nat) (later : Padded calls padded) :
      Padded (.get :: calls) (.get :: (pairs count ++ padded))

variable (reader : Reader σ ε α)

/-- Nothing is pending behind a read. -/
theorem get_pending (buffered : Buffered σ α) : (buffered.get reader).2.pending = false := by
  rw [Buffered.get]
  cases buffered.pending with
  | true => rfl
  | false =>
    rcases reader buffered.state with ⟨item | thrown, state⟩
    · rfl
    · rfl

/-- A read without a pending item is a read of the reader. -/
theorem get_fresh (buffered : Buffered σ α) (fresh : buffered.pending = false) :
    (buffered.get reader).1 = (reader buffered.state).1 ∧
      (buffered.get reader).2.state = (reader buffered.state).2 := by
  rw [Buffered.get, fresh]
  rcases reader buffered.state with ⟨item | thrown, state⟩
  · exact ⟨rfl, rfl⟩
  · exact ⟨rfl, rfl⟩

/-- Whatever the calls are, what is new is what the reader reads. -/
theorem news_reads (calls : List Call) (buffered : Buffered σ α) :
    ∃ count, news reader calls buffered = reads reader count buffered.state := by
  induction calls generalizing buffered with
  | nil => exact ⟨0, rfl⟩
  | cons call calls inductionHypothesis =>
    cases call with
    | unget =>
      exact inductionHypothesis buffered.unget
    | get =>
      obtain ⟨count, later⟩ := inductionHypothesis (buffered.get reader).2
      rw [news, later]
      cases pending : buffered.pending with
      | true =>
        refine ⟨count, ?_⟩
        rw [Buffered.get, pending]
        rfl
      | false =>
        obtain ⟨answer, state⟩ := get_fresh reader buffered pending
        refine ⟨count + 1, ?_⟩
        rw [answer, state]
        rfl

/-- Reads without any item put back are those of the reader. -/
theorem news_gets (count : Nat) (buffered : Buffered σ α) (fresh : buffered.pending = false) :
    news reader (List.replicate count .get) buffered = reads reader count buffered.state := by
  induction count generalizing buffered with
  | zero => rfl
  | succ count inductionHypothesis =>
    obtain ⟨answer, state⟩ := get_fresh reader buffered fresh
    have later := inductionHypothesis (buffered.get reader).2 (get_pending reader buffered)
    rw [List.replicate_succ, news, fresh, later, answer, state]
    rfl

/-- Putting an item back and taking it again changes nothing. -/
theorem news_pair (calls : List Call) (buffered : Buffered σ α) (fresh : buffered.pending = false) :
    news reader (.unget :: .get :: calls) buffered = news reader calls buffered := by
  obtain ⟨state, last, pending⟩ := buffered
  obtain rfl : pending = false := fresh
  rfl

/-- Nor does any number of such pairs. -/
theorem news_pairs (count : Nat) (calls : List Call) (buffered : Buffered σ α)
    (fresh : buffered.pending = false) :
    news reader (pairs count ++ calls) buffered = news reader calls buffered := by
  induction count with
  | zero => rfl
  | succ count inductionHypothesis =>
    have first : pairs (count + 1) ++ calls = .unget :: .get :: (pairs count ++ calls) := rfl
    rw [first, news_pair reader _ buffered fresh, inductionHypothesis]

/-- Pairs behind the reads of any calls change nothing for what is new. -/
theorem Padded.news {calls padded : List Call} (isPadded : Padded calls padded)
    (buffered : Buffered σ α) : news reader padded buffered = news reader calls buffered := by
  induction isPadded generalizing buffered with
  | nil => rfl
  | unget later inductionHypothesis => exact inductionHypothesis buffered.unget
  | get count later inductionHypothesis =>
    rw [Pushback.news, Pushback.news, news_pairs reader count _ _ (get_pending reader buffered),
      inductionHypothesis]

section Ending

variable (stop : Except ε α → Prop)

/-- From a state, these items are read, and then an answer that stops. -/
inductive Ends : σ → List α → Except ε α → Prop where
  | stop (state : σ) (stops : stop (reader state).1) : Ends state [] (reader state).1
  | next (state behind : σ) (item : α) (items : List α) (ending : Except ε α)
      (read : reader state = (.ok item, behind)) (going : ¬ stop (.ok item))
      (later : Ends behind items ending) : Ends state (item :: items) ending

variable {reader stop}

/-- What is read up to the end. -/
theorem Ends.reads {state : σ} {items : List α} {ending : Except ε α}
    (ends : Ends reader stop state items ending) :
    reads reader (items.length + 1) state = items.map Except.ok ++ [ending] := by
  induction ends with
  | stop state stops => rfl
  | next state behind item items ending read going later inductionHypothesis =>
    rw [List.length_cons, Pushback.reads, read, inductionHypothesis]
    rfl

/-- The last answer stops. -/
theorem Ends.stops {state : σ} {items : List α} {ending : Except ε α}
    (ends : Ends reader stop state items ending) : stop ending := by
  induction ends with
  | stop state stops => exact stops
  | next state behind item items ending read going later inductionHypothesis =>
    exact inductionHypothesis

/-- A reader whose items take it nearer to its end, under an invariant that they keep, comes to
its end, within as many items as the distance was. -/
theorem ends_of_progress (invariant : σ → Prop) (distance : σ → Nat)
    (step : ∀ state, invariant state → stop (reader state).1 ∨ ∃ item behind,
      reader state = (.ok item, behind) ∧ invariant behind ∧ distance behind < distance state)
    (state : σ) (initial : invariant state) :
    ∃ items ending, Ends reader stop state items ending ∧ items.length ≤ distance state := by
  induction size : distance state using Nat.strongRecOn generalizing state with
  | _ size inductionHypothesis =>
    by_cases stops : stop (reader state).1
    · exact ⟨[], _, .stop state stops, Nat.zero_le _⟩
    · obtain ⟨item, behind, read, keeps, nearer⟩ := (step state initial).resolve_left stops
      obtain ⟨items, ending, later, short⟩ :=
        inductionHypothesis (distance behind) (size ▸ nearer) behind keeps rfl
      have going : ¬ stop (.ok item) := by
        rwa [read] at stops
      refine ⟨item :: items, ending, .next state behind item items ending read going later, ?_⟩
      rw [List.length_cons]
      omega

end Ending

end Pushback
