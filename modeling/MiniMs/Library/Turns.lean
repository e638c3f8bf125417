import Mathlib.Data.List.Nodup
import Mathlib.Data.List.Perm.Subperm
import Mathlib.Data.Nat.ModEq

/-!
Taking turns: a counter that goes once around `count` places, whatever it starts
from.

Owns: the places of successive turns, that any `count` successive turns take every
place once, and how often each place has been taken after any number of turns.
-/

namespace MiniMs.Library.Turns

/-- The places of `length` successive turns of `count`, the first at `start`. -/
def turns (count start length : Nat) : List Nat :=
  (List.range length).map fun turn => (start + turn) % count

theorem turns_zero (count start : Nat) : turns count start 0 = [] := rfl

theorem turns_succ (count start length : Nat) :
    turns count start (length + 1) = start % count :: turns count (start + 1) length := by
  unfold turns
  rw [List.range_succ_eq_map, List.map_cons, List.map_map, Nat.add_zero]
  congr 1
  apply List.map_congr_left
  intro turn _
  show (start + (turn + 1)) % count = (start + 1 + turn) % count
  congr 1
  omega

@[simp] theorem length_turns (count start length : Nat) : (turns count start length).length = length := by
  unfold turns
  rw [List.length_map, List.length_range]

/-- A counter is as good as its remainder. -/
theorem turns_mod (count start length : Nat) :
    turns count (start % count) length = turns count start length := by
  unfold turns
  apply List.map_congr_left
  intro turn _
  rw [Nat.mod_add_mod]

theorem mem_turns_lt {count start length place : Nat} (positive : 0 < count)
    (member : place ∈ turns count start length) : place < count := by
  obtain ⟨turn, -, rfl⟩ := List.mem_map.mp member
  exact Nat.mod_lt _ positive

theorem turns_append (count start first second : Nat) :
    turns count start (first + second) = turns count start first ++ turns count (start + first) second := by
  induction first generalizing start with
  | zero => rw [Nat.zero_add, turns_zero, List.nil_append, Nat.add_zero]
  | succ first inductionHypothesis =>
      have shape : first + 1 + second = first + second + 1 := by omega
      have next : start + 1 + first = start + (first + 1) := by omega
      rw [shape, turns_succ, turns_succ, inductionHypothesis, next, List.cons_append]

/-- Once around takes every place once. -/
theorem turns_perm {count : Nat} (positive : 0 < count) (start : Nat) :
    (turns count start count).Perm (List.range count) := by
  have nodup : (turns count start count).Nodup := by
    apply List.Nodup.map_on _ List.nodup_range
    intro first firstMember second secondMember same
    have congruent : first ≡ second [MOD count] := Nat.ModEq.add_left_cancel' start same
    rw [List.mem_range] at firstMember secondMember
    exact congruent.eq_of_lt_of_lt firstMember secondMember
  have inside : turns count start count ⊆ List.range count := fun place member =>
    List.mem_range.mpr (mem_turns_lt positive member)
  apply (List.subperm_of_subset nodup inside).perm_of_length_le
  rw [length_turns, List.length_range]

/-- Any `count` successive turns of a longer row. -/
theorem window_perm {count start length : Nat} (positive : 0 < count)
    {before window after : List Nat} (split : turns count start length = before ++ (window ++ after))
    (size : window.length = count) : window.Perm (List.range count) := by
  have lengths := congrArg List.length split
  simp only [length_turns, List.length_append] at lengths
  have cut : turns count start length = turns count start before.length ++
      (turns count (start + before.length) count ++
        turns count (start + before.length + count) after.length) := by
    rw [lengths, size, turns_append, turns_append]
  rw [split] at cut
  have inner := (List.append_inj cut (length_turns _ _ _).symm).2
  have window_eq := (List.append_inj inner (by rw [size, length_turns])).1
  rw [window_eq]
  exact turns_perm positive _

theorem count_range {count place : Nat} (inside : place < count) :
    (List.range count).count place = 1 :=
  List.count_eq_one_of_mem List.nodup_range (List.mem_range.mpr inside)

/-- Whole rounds take a place once each. -/
theorem count_rounds {count place : Nat} (inside : place < count) (start rounds : Nat) :
    (turns count start (count * rounds)).count place = rounds := by
  induction rounds generalizing start with
  | zero => rw [Nat.mul_zero, turns_zero, List.count_nil]
  | succ rounds inductionHypothesis =>
      have once := (turns_perm (Nat.zero_lt_of_lt inside) start).count_eq place
      rw [Nat.mul_succ, Nat.add_comm, turns_append, List.count_append, once, count_range inside,
        inductionHypothesis]
      omega

/-- Less than a round takes it at most once. -/
theorem count_part_le {count place length : Nat} (inside : place < count) (short : length ≤ count)
    (start : Nat) : (turns count start length).count place ≤ 1 := by
  have split : turns count start count =
      turns count start length ++ turns count (start + length) (count - length) := by
    rw [← turns_append, Nat.add_sub_cancel' short]
  have once := (turns_perm (Nat.zero_lt_of_lt inside) start).count_eq place
  rw [split, List.count_append, count_range inside] at once
  omega

/-- Each place has been taken as often as the others, or once more. -/
theorem count_turns {count place : Nat} (inside : place < count) (start length : Nat) :
    (turns count start length).count place = length / count ∨
      (turns count start length).count place = (length + count - 1) / count := by
  have positive := Nat.zero_lt_of_lt inside
  have whole := Nat.div_add_mod length count
  have small := Nat.mod_lt length positive
  have rounds := count_rounds inside start (length / count)
  have part := count_part_le inside (Nat.le_of_lt small) (start + count * (length / count))
  have split : (turns count start length).count place = length / count +
      (turns count (start + count * (length / count)) (length % count)).count place := by
    nth_rewrite 1 [← whole]
    rw [turns_append, List.count_append, rounds]
  by_cases even : length % count = 0
  · rw [even, turns_zero, List.count_nil] at split
    exact Or.inl split
  · have above : (length + count - 1) / count = length / count + 1 := by
      have shape : length + count - 1 =
          (length % count - 1) + count * (length / count + 1) := by
        rw [Nat.mul_succ]
        omega
      rw [shape, Nat.add_mul_div_left _ _ positive, Nat.div_eq_of_lt (by omega)]
      omega
    rw [above]
    omega

end MiniMs.Library.Turns
