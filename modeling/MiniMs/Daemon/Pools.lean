import MiniMs.Daemon.Shm
import MiniMs.Library.Party

/-!
The pools of a node as a memory of slots.

Owns: the marks and the bytes of a slot over all pools of a node, the calls of a
pool on them, and the instance of the slot memory with its laws.
-/

namespace MiniMs.Daemon

open MiniMs.Library.Text MiniMs.Library.Slots MiniMs.Dpumesh

/-! ### The memory -/

namespace Pools

def marked (pools : PoolName → BufferPool) (cell : Cell PoolName) : Bool :=
  decide (cell.index < numSlots) && (pools cell.pool).taken cell.index

def fetch (pools : PoolName → BufferPool) (cell : Cell PoolName) (count : Nat) : Bytes :=
  (pools cell.pool).bytesAt (BufferPool.offset cell.index) count

def alloc (pools : PoolName → BufferPool) (pool : PoolName) :
    Option Nat × (PoolName → BufferPool) :=
  let (slot, region) := (pools pool).bpAlloc
  if slot < 0 then (none, pools) else (some slot.toNat, Function.update pools pool region)

def unmark (pools : PoolName → BufferPool) (cell : Cell PoolName) : PoolName → BufferPool :=
  Function.update pools cell.pool ((pools cell.pool).mark cell.index 0)

def copyIn (pools : PoolName → BufferPool) (cell : Cell PoolName) (data : Bytes) :
    PoolName → BufferPool :=
  Function.update pools cell.pool ((pools cell.pool).copyIn (BufferPool.offset cell.index) data)

variable {pools : PoolName → BufferPool} {pool : PoolName} {cell : Cell PoolName}

theorem marked_iff : marked pools cell = true ↔
    cell.index < numSlots ∧ (pools cell.pool).taken cell.index = true := by
  unfold marked
  rw [Bool.and_eq_true, decide_eq_true_eq]

theorem marked_update {region : BufferPool} {other : Cell PoolName} (same : other.pool = pool) :
    marked (Function.update pools pool region) other = true ↔
      other.index < numSlots ∧ region.taken other.index = true := by
  rw [marked_iff, same, Function.update_self]

theorem marked_update_of_ne {region : BufferPool} {other : Cell PoolName}
    (different : other.pool ≠ pool) :
    marked (Function.update pools pool region) other = marked pools other := by
  unfold marked
  rw [Function.update_of_ne different]

theorem cell_ext_iff {left right : Cell PoolName} (same : left.pool = right.pool) :
    left = right ↔ left.index = right.index := by
  cases left
  cases right
  simp_all

/-- A region that differs in one cell's mark. -/
theorem marked_of_takes {region : BufferPool} {index : Nat}
    (takes : (pools pool).Takes region index) (other : Cell PoolName) :
    marked (Function.update pools pool region) other = true ↔
      marked pools other = true ∨ other = ⟨pool, index⟩ := by
  by_cases same : other.pool = pool
  · rw [marked_update same, marked_iff, same, cell_ext_iff same]
    constructor
    · rintro ⟨inside, taken⟩
      exact ((takes.taken_iff inside).mp taken).imp (fun before => ⟨inside, before⟩) id
    · rintro (⟨inside, before⟩ | index)
      · exact ⟨inside, (takes.taken_iff inside).mpr (Or.inl before)⟩
      · have inside : other.index < numSlots := by
          rw [index]
          exact takes.inside
        exact ⟨inside, (takes.taken_iff inside).mpr (Or.inr index)⟩
  · have different : other ≠ ⟨pool, index⟩ := fun equal => same (congrArg Cell.pool equal)
    rw [marked_update_of_ne same]
    exact (or_iff_left different).symm

theorem marked_of_frees {region : BufferPool} {index : Nat}
    (frees : (pools pool).Frees region index) (other : Cell PoolName) :
    marked (Function.update pools pool region) other = true ↔
      marked pools other = true ∧ other ≠ ⟨pool, index⟩ := by
  by_cases same : other.pool = pool
  · rw [marked_update same, marked_iff, same, ne_eq, cell_ext_iff same, and_assoc]
    exact and_congr_right fun inside => frees.taken_iff inside
  · have different : other ≠ ⟨pool, index⟩ := fun equal => same (congrArg Cell.pool equal)
    rw [marked_update_of_ne same]
    exact (and_iff_left different).symm

theorem fetch_update {region : BufferPool} {other : Cell PoolName} {count : Nat}
    (bytes : region.bytesAt (BufferPool.offset other.index) count =
      (pools pool).bytesAt (BufferPool.offset other.index) count) :
    fetch (Function.update pools pool region) other count = fetch pools other count := by
  unfold fetch
  by_cases same : other.pool = pool
  · rw [same, Function.update_self, bytes]
  · rw [Function.update_of_ne same]

/-- A mark is not among the bytes of a slot. -/
theorem bytesAt_mark (region : BufferPool) {index : Nat} (inside : index < numSlots) (byte : UInt8)
    (slot count : Nat) :
    (region.mark index byte).bytesAt (BufferPool.offset slot) count =
      region.bytesAt (BufferPool.offset slot) count := by
  apply BufferPool.bytesAt_congr
  intro address start _
  have bitmap := BufferPool.numSlots_le_offset slot
  have different : address ≠ index := by omega
  exact Function.update_of_ne different byte region.mm

theorem alloc_cases (pools : PoolName → BufferPool) (pool : PoolName) :
    (∃ index, alloc pools pool =
        (some index, Function.update pools pool ((pools pool).mark index 1)) ∧
          (pools pool).Takes ((pools pool).mark index 1) index) ∨
      (alloc pools pool = (none, pools) ∧ (pools pool).Full) := by
  unfold alloc
  rcases (pools pool).bpAlloc_cases with ⟨index, allocated, takes⟩ | ⟨full, refused⟩
  · have there : ¬ (index : Int) < 0 := by omega
    left
    refine ⟨index, ?_, takes⟩
    rw [allocated]
    dsimp only
    rw [if_neg there, Int.toNat_natCast]
  · have negative : (-1 : Int) < 0 := by decide
    right
    rw [refused]
    exact ⟨if_pos negative, full⟩

end Pools

/-- The pools of a node. -/
def nodeMemory : SlotMemory (PoolName → BufferPool) PoolName where
  numSlots := numSlots
  slotSize := slotSize
  marked := Pools.marked
  fetch := Pools.fetch
  alloc := Pools.alloc
  unmark := Pools.unmark
  copyIn := Pools.copyIn
  inside := fun marked => (Pools.marked_iff.mp marked).1
  alloc_some := by
    intro pools after pool index allocated
    rcases Pools.alloc_cases pools pool with ⟨found, granted, takes⟩ | ⟨refused, _⟩
    · rw [granted, Prod.mk.injEq, Option.some.injEq] at allocated
      obtain ⟨rfl, rfl⟩ := allocated
      refine ⟨takes.inside, ?_, Pools.marked_of_takes takes, fun cell count => ?_⟩
      · rw [Bool.eq_false_iff]
        intro marked
        have taken := (Pools.marked_iff.mp marked).2
        rw [takes.free] at taken
        contradiction
      · exact Pools.fetch_update (Pools.bytesAt_mark _ takes.inside 1 _ _)
    · rw [refused] at allocated
      cases congrArg Prod.fst allocated
  alloc_none := by
    intro pools after pool allocated
    rcases Pools.alloc_cases pools pool with ⟨found, granted, _⟩ | ⟨refused, full⟩
    · rw [granted] at allocated
      cases congrArg Prod.fst allocated
    · rw [refused] at allocated
      exact ⟨(congrArg Prod.snd allocated).symm,
        fun index below => Pools.marked_iff.mpr ⟨below, full index below⟩⟩
  marked_unmark := fun inside => Pools.marked_of_frees (BufferPool.mark_frees _ inside)
  fetch_unmark := fun inside _ _ => Pools.fetch_update (Pools.bytesAt_mark _ inside 0 _ _)
  marked_copyIn := by
    intro pools cell data other
    have same := BufferPool.copyIn_same (pools cell.pool) cell.index data
    by_cases pool : other.pool = cell.pool
    · rw [Bool.eq_iff_iff]
      refine (Pools.marked_update pool).trans ?_
      rw [Pools.marked_iff, pool]
      exact and_congr_right fun inside => by rw [same.taken_eq inside]
    · exact Pools.marked_update_of_ne pool
  fetch_copyIn_self := by
    intro pools cell data
    unfold Pools.fetch Pools.copyIn
    rw [Function.update_self]
    exact BufferPool.bytesAt_copyIn _ _ data
  fetch_copyIn_of_ne := by
    intro pools cell data short other different count fits
    unfold Pools.fetch Pools.copyIn
    by_cases pool : other.pool = cell.pool
    · have apart := BufferPool.offset_disjoint fun index => different ((Pools.cell_ext_iff pool).mpr index)
      rw [pool, Function.update_self]
      apply BufferPool.bytesAt_congr
      intro address start below
      apply BufferPool.copyIn_outside
      omega
    · rw [Function.update_of_ne pool]
  length_fetch := fun pools cell count => BufferPool.length_bytesAt _ _ _
  take_fetch := fun pools cell _ _ few => BufferPool.take_bytesAt _ _ few

end MiniMs.Daemon
