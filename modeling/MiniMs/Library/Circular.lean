import Mathlib.Data.Nat.ModEq
import Mathlib.Tactic.Common

/-!
A bounded queue in a circular array.

Owns: what it means that the cells of an array hold a queue from a head on, the
step lemmas of appending behind the last element and of removing the first, and
the bounded queue as an abstract machine with its law: what has been taken out,
then what is still there, is what has been put in.
-/

namespace MiniMs.Library.Circular

variable {α : Type*}

/-! ### The array -/

/-- The cells from `head` on, round the end of the array, hold the elements. -/
structure Holds (cells : Nat → α) (capacity head : Nat) (items : List α) : Prop where
  head_lt : head < capacity
  fits : items.length ≤ capacity
  cell : ∀ index (inside : index < items.length), cells ((head + index) % capacity) = items[index]

/-- Different positions of the queue lie in different cells. -/
theorem position_injective {capacity head first second : Nat} (firstLt : first < capacity)
    (secondLt : second < capacity)
    (same : (head + first) % capacity = (head + second) % capacity) : first = second := by
  have congruent : first ≡ second [MOD capacity] := Nat.ModEq.add_left_cancel' head same
  exact Nat.ModEq.eq_of_lt_of_lt congruent firstLt secondLt

theorem position_succ (capacity head index : Nat) :
    ((head + 1) % capacity + index) % capacity = (head + (index + 1)) % capacity := by
  rw [Nat.mod_add_mod]
  congr 1
  omega

theorem Holds.nil {cells : Nat → α} {capacity head : Nat} (head_lt : head < capacity) :
    Holds cells capacity head [] :=
  ⟨head_lt, Nat.zero_le _, fun _ inside => absurd inside (Nat.not_lt_zero _)⟩

/-- Writing the cell behind the last element appends to the queue. -/
theorem Holds.push {cells cells' : Nat → α} {capacity head : Nat} {items : List α} {item : α}
    (holds : Holds cells capacity head items) (space : items.length < capacity)
    (written : cells' ((head + items.length) % capacity) = item)
    (others : ∀ cell < capacity, cell ≠ (head + items.length) % capacity →
      cells' cell = cells cell) :
    Holds cells' capacity head (items ++ [item]) := by
  refine ⟨holds.head_lt, ?_, ?_⟩
  · rw [List.length_append]
    exact space
  · intro index inside
    rw [List.length_append, List.length_singleton] at inside
    rcases Nat.lt_or_ge index items.length with old | last
    · have apart : (head + index) % capacity ≠ (head + items.length) % capacity := by
        intro same
        have equal := position_injective (by omega) space same
        omega
      rw [others _ (Nat.mod_lt _ (by omega)) apart, holds.cell index old,
        List.getElem_append_left old]
    · have here : index = items.length := by omega
      subst here
      rw [written, List.getElem_concat_length rfl]

/-- The first element lies in the head cell; moving the head removes it. -/
theorem Holds.pop {cells : Nat → α} {capacity head : Nat} {item : α} {items : List α}
    (holds : Holds cells capacity head (item :: items)) :
    cells head = item ∧ Holds cells capacity ((head + 1) % capacity) items := by
  have positive : 0 < capacity := Nat.zero_lt_of_lt holds.head_lt
  have fits := holds.fits
  rw [List.length_cons] at fits
  refine ⟨?_, Nat.mod_lt _ positive, by omega, ?_⟩
  · have first := holds.cell 0 (Nat.zero_lt_succ _)
    rwa [Nat.add_zero, Nat.mod_eq_of_lt holds.head_lt] at first
  · intro index inside
    rw [position_succ, holds.cell (index + 1) (Nat.succ_lt_succ inside), List.getElem_cons_succ]

/-! ### The queue -/

/-- What one call does to a queue. -/
inductive Effect (α : Type*) where
  | nothing
  | put (item : α)
  | got (item : α)

/-- The queue before and after a call with the effect. -/
def Effect.Acts : Effect α → List α → List α → Prop
  | .nothing, before, after => after = before
  | .put item, before, after => after = before ++ [item]
  | .got item, before, after => before = item :: after

/-- The elements that the calls put in, in order. -/
def puts : List (Effect α) → List α
  | [] => []
  | .nothing :: rest => puts rest
  | .put item :: rest => item :: puts rest
  | .got _ :: rest => puts rest

/-- The elements that the calls took out, in order. -/
def gots : List (Effect α) → List α
  | [] => []
  | .nothing :: rest => gots rest
  | .put _ :: rest => gots rest
  | .got item :: rest => item :: gots rest

/-- A run of calls that leads from one queue to another. -/
inductive Runs : List α → List (Effect α) → List α → Prop
  | nil (queue : List α) : Runs queue [] queue
  | cons {before middle after : List α} {effect : Effect α} {rest : List (Effect α)} :
      effect.Acts before middle → Runs middle rest after → Runs before (effect :: rest) after

/-- First in, first out: nothing is lost, repeated or reordered. -/
theorem Runs.fifo {before after : List α} {effects : List (Effect α)}
    (runs : Runs before effects after) : before ++ puts effects = gots effects ++ after := by
  induction runs with
  | nil queue => simp [puts, gots]
  | @cons before middle after effect rest acts runs inductionHypothesis =>
      cases effect with
      | nothing =>
          rw [Effect.Acts] at acts
          rw [puts, gots, ← acts, inductionHypothesis]
      | put item =>
          rw [Effect.Acts] at acts
          rw [puts, gots, ← inductionHypothesis, acts, List.append_assoc, List.singleton_append]
      | got item =>
          rw [Effect.Acts] at acts
          rw [puts, gots, acts, List.cons_append, inductionHypothesis, List.cons_append]

end MiniMs.Library.Circular
