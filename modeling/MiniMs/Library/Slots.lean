import MiniMs.Library.Text

/-!
A memory of pools, each with the same number of slots of the same size.

Owns: a cell of such a memory, the operations on its marks and its bytes with
the laws that they obey, and how many cells of one pool a list without
duplicates can have.
-/

namespace MiniMs.Library.Slots

open MiniMs.Library.Text

/-- One slot of one pool. -/
structure Cell (Pool : Type) where
  pool : Pool
  index : Nat
deriving DecidableEq

/-- A memory of pools: every cell is marked or free, and has bytes. -/
structure SlotMemory (Memory Pool : Type) where
  numSlots : Nat
  slotSize : Nat
  marked : Memory → Cell Pool → Bool
  fetch : Memory → Cell Pool → Nat → Bytes
  /-- Mark a free cell of a pool, if there is one. -/
  alloc : Memory → Pool → Option Nat × Memory
  unmark : Memory → Cell Pool → Memory
  copyIn : Memory → Cell Pool → Bytes → Memory
  inside : ∀ {memory cell}, marked memory cell = true → cell.index < numSlots
  alloc_some : ∀ {memory after pool index}, alloc memory pool = (some index, after) →
    index < numSlots ∧ marked memory ⟨pool, index⟩ = false ∧
      (∀ cell, marked after cell = true ↔ marked memory cell = true ∨ cell = ⟨pool, index⟩) ∧
      ∀ cell count, fetch after cell count = fetch memory cell count
  alloc_none : ∀ {memory after pool}, alloc memory pool = (none, after) →
    after = memory ∧ ∀ index < numSlots, marked memory ⟨pool, index⟩ = true
  marked_unmark : ∀ {memory cell}, cell.index < numSlots → ∀ other,
    marked (unmark memory cell) other = true ↔ marked memory other = true ∧ other ≠ cell
  fetch_unmark : ∀ {memory cell}, cell.index < numSlots → ∀ other count,
    fetch (unmark memory cell) other count = fetch memory other count
  marked_copyIn : ∀ memory cell data other,
    marked (copyIn memory cell data) other = marked memory other
  fetch_copyIn_self : ∀ memory cell data, fetch (copyIn memory cell data) cell data.length = data
  fetch_copyIn_of_ne : ∀ {memory cell data}, data.length ≤ slotSize → ∀ other ≠ cell,
    ∀ count ≤ slotSize, fetch (copyIn memory cell data) other count = fetch memory other count
  length_fetch : ∀ memory cell count, (fetch memory cell count).length = count
  take_fetch : ∀ memory cell {few count}, few ≤ count →
    (fetch memory cell count).take few = fetch memory cell few

variable {Pool : Type} [DecidableEq Pool]

/-- How many of the cells are of a pool. -/
def countIn (pool : Pool) (cells : List (Cell Pool)) : Nat :=
  cells.countP fun cell => cell.pool = pool

@[simp] theorem countIn_nil (pool : Pool) : countIn pool [] = 0 := rfl

theorem countIn_cons (pool : Pool) (cell : Cell Pool) (cells : List (Cell Pool)) :
    countIn pool (cell :: cells) = countIn pool cells + if cell.pool = pool then 1 else 0 := by
  unfold countIn
  rw [List.countP_cons]
  simp

@[simp] theorem countIn_append (pool : Pool) (front back : List (Cell Pool)) :
    countIn pool (front ++ back) = countIn pool front + countIn pool back :=
  List.countP_append

theorem countIn_flatMap {Owner : Type} (pool : Pool) (owners : List Owner)
    (cells : Owner → List (Cell Pool)) :
    countIn pool (owners.flatMap cells) = (owners.map fun owner => countIn pool (cells owner)).sum :=
  List.countP_flatMap

theorem indices_nodup {pool : Pool} {cells : List (Cell Pool)} (distinct : cells.Nodup) :
    ((cells.filter fun cell => cell.pool = pool).map Cell.index).Nodup := by
  apply List.Nodup.map_on _ (distinct.filter _)
  intro left inLeft right inRight same
  have leftPool : left.pool = pool := by simpa using (List.mem_filter.mp inLeft).2
  have rightPool : right.pool = pool := by simpa using (List.mem_filter.mp inRight).2
  cases left
  cases right
  simp_all

/-- Distinct cells of one pool are not more than its slots. -/
theorem countIn_le {pool : Pool} {cells : List (Cell Pool)} {slots : Nat} (distinct : cells.Nodup)
    (inside : ∀ cell ∈ cells, cell.index < slots) : countIn pool cells ≤ slots := by
  have indices : ((cells.filter fun cell => cell.pool = pool).map Cell.index) ⊆ List.range slots := by
    intro index member
    obtain ⟨cell, inFilter, same⟩ := List.mem_map.mp member
    have present := (List.mem_filter.mp inFilter).1
    rw [← same]
    exact List.mem_range.mpr (inside cell present)
  have fewer := ((indices_nodup distinct).subperm indices).length_le
  rw [List.length_map, List.length_range] at fewer
  unfold countIn
  rw [List.countP_eq_length_filter]
  exact fewer

/-- A pool of which every cell is in a list takes its number of slots there. -/
theorem le_countIn {pool : Pool} {cells : List (Cell Pool)} {slots : Nat}
    (all : ∀ index < slots, (⟨pool, index⟩ : Cell Pool) ∈ cells) : slots ≤ countIn pool cells := by
  have indices : List.range slots ⊆ (cells.filter fun cell => cell.pool = pool).map Cell.index := by
    intro index member
    have present := all index (List.mem_range.mp member)
    exact List.mem_map.mpr ⟨_, List.mem_filter.mpr ⟨present, by simp⟩, rfl⟩
  have fewer := (List.nodup_range.subperm indices).length_le
  rw [List.length_map, List.length_range] at fewer
  unfold countIn
  rw [List.countP_eq_length_filter]
  exact fewer

theorem countP_mem_cons_le (pool : Pool) (rest : List Pool) (cells : List (Cell Pool)) :
    (cells.countP fun cell => cell.pool ∈ pool :: rest) ≤
      countIn pool cells + cells.countP fun cell => cell.pool ∈ rest := by
  induction cells with
  | nil => simp
  | cons cell cells inductionHypothesis =>
      rw [countIn_cons, List.countP_cons, List.countP_cons]
      simp only [List.mem_cons] at inductionHypothesis ⊢
      by_cases first : cell.pool = pool
      · simp only [first, true_or, decide_true, ↓reduceIte]
        omega
      · simp only [first, false_or, ↓reduceIte]
        omega

/-- How many of the cells are of one of some pools. -/
theorem countP_mem_le (pools : List Pool) {slots : Nat} {cells : List (Cell Pool)}
    (few : ∀ pool, countIn pool cells ≤ slots) :
    (cells.countP fun cell => cell.pool ∈ pools) ≤ pools.length * slots := by
  induction pools with
  | nil => simp
  | cons pool rest inductionHypothesis =>
      have split := countP_mem_cons_le pool rest cells
      have first := few pool
      rw [List.length_cons, Nat.succ_mul]
      omega

end MiniMs.Library.Slots
