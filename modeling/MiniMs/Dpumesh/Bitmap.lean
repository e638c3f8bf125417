import MiniMs.Dpumesh.BufferPool

/-!
What the operations of a buffer pool do to its bitmap.

Owns: pools that agree on the bitmap, the taking and the freeing of one slot,
and the effect of `bp_alloc`, `bp_free` and `bp_write`, and of the Python
methods, in these terms.
-/

namespace MiniMs.Dpumesh.BufferPool

open MiniMs.Library.Text

/-- Every byte of the bitmap is the same. -/
def SameBitmap (before after : BufferPool) : Prop :=
  ∀ slot < numSlots, after.mm slot = before.mm slot

/-- A slot that was free is taken, and the rest of the bitmap is the same. -/
structure Takes (before after : BufferPool) (slot : Nat) : Prop where
  inside : slot < numSlots
  free : before.taken slot = false
  taken : after.taken slot = true
  others : ∀ other < numSlots, other ≠ slot → after.mm other = before.mm other

/-- A slot is free, and the rest of the bitmap is the same. -/
structure Frees (before after : BufferPool) (slot : Nat) : Prop where
  inside : slot < numSlots
  free : after.taken slot = false
  others : ∀ other < numSlots, other ≠ slot → after.mm other = before.mm other

/-- No slot is free. -/
def Full (pool : BufferPool) : Prop := ∀ slot < numSlots, pool.taken slot = true

instance (pool : BufferPool) : Decidable pool.Full := by
  unfold Full
  infer_instance

theorem taken_eq_false {pool : BufferPool} {slot : Nat} :
    pool.taken slot = false ↔ pool.mm slot = 0 := by
  unfold taken
  simp

theorem taken_eq_true {pool : BufferPool} {slot : Nat} :
    pool.taken slot = true ↔ pool.mm slot ≠ 0 := by
  unfold taken
  simp

/-! ### Agreement -/

theorem SameBitmap.refl (pool : BufferPool) : SameBitmap pool pool := fun _ _ => rfl

theorem SameBitmap.symm {before after : BufferPool} (same : SameBitmap before after) :
    SameBitmap after before := fun slot inside => (same slot inside).symm

theorem SameBitmap.trans {before between after : BufferPool} (first : SameBitmap before between)
    (second : SameBitmap between after) : SameBitmap before after := by
  intro slot inside
  rw [second slot inside]
  exact first slot inside

theorem SameBitmap.taken_eq {before after : BufferPool} (same : SameBitmap before after) {slot : Nat}
    (inside : slot < numSlots) : after.taken slot = before.taken slot := by
  unfold taken
  rw [same slot inside]

theorem SameBitmap.full_iff {before after : BufferPool} (same : SameBitmap before after) :
    after.Full ↔ before.Full := by
  refine forall₂_congr fun slot inside => ?_
  rw [same.taken_eq inside]

theorem Takes.taken_iff {before after : BufferPool} {slot : Nat} (takes : Takes before after slot)
    {other : Nat} (inside : other < numSlots) :
    after.taken other = true ↔ before.taken other = true ∨ other = slot := by
  by_cases same : other = slot
  · rw [same]
    exact iff_of_true takes.taken (Or.inr rfl)
  · rw [taken_eq_true, takes.others other inside same, ← taken_eq_true]
    simp [same]

theorem Frees.taken_iff {before after : BufferPool} {slot : Nat} (frees : Frees before after slot)
    {other : Nat} (inside : other < numSlots) :
    after.taken other = true ↔ before.taken other = true ∧ other ≠ slot := by
  by_cases same : other = slot
  · rw [same, frees.free]
    simp
  · rw [taken_eq_true, frees.others other inside same, ← taken_eq_true]
    simp [same]

theorem Takes.trans_same {before between after : BufferPool} {slot : Nat}
    (takes : Takes before between slot) (same : SameBitmap between after) :
    Takes before after slot where
  inside := takes.inside
  free := takes.free
  taken := by
    rw [same.taken_eq takes.inside]
    exact takes.taken
  others := by
    intro other inside different
    rw [same other inside]
    exact takes.others other inside different

/-- A slot that was taken and is freed again leaves no trace. -/
theorem Takes.trans_frees {before between after : BufferPool} {slot : Nat}
    (takes : Takes before between slot) (frees : Frees between after slot) :
    SameBitmap before after := by
  intro other inside
  by_cases same : other = slot
  · have wasFree := taken_eq_false.mp takes.free
    have isFree := taken_eq_false.mp frees.free
    rw [same, wasFree, isFree]
  · rw [frees.others other inside same]
    exact takes.others other inside same

theorem Takes.not_same {before after : BufferPool} {slot : Nat} (takes : Takes before after slot) :
    ¬ SameBitmap before after := by
  intro same
  have kept := same.taken_eq takes.inside
  rw [takes.taken, takes.free] at kept
  contradiction

theorem Takes.not_full {before after : BufferPool} {slot : Nat} (takes : Takes before after slot) :
    ¬ before.Full := by
  intro full
  have marked := full slot takes.inside
  rw [takes.free] at marked
  contradiction

/-! ### Operations -/

theorem copyIn_same (pool : BufferPool) (slot : Nat) (data : Bytes) :
    SameBitmap pool (pool.copyIn (offset slot) data) := by
  intro other inside
  exact copyIn_outside (Or.inl (Nat.lt_of_lt_of_le inside (numSlots_le_offset slot)))

theorem bpWrite_same (pool : BufferPool) (slot : Int) (data : Bytes) :
    SameBitmap pool (pool.bpWrite slot data).2 := by
  unfold bpWrite
  split
  · exact SameBitmap.refl pool
  · split
    · exact SameBitmap.refl pool
    · exact copyIn_same pool _ data

theorem mark_frees (pool : BufferPool) {slot : Nat} (inside : slot < numSlots) :
    Frees pool (pool.mark slot 0) slot where
  inside := inside
  free := taken_eq_false.mpr (Function.update_self slot 0 pool.mm)
  others := fun _ _ different => Function.update_of_ne different 0 pool.mm

theorem bpFree_frees (pool : BufferPool) {slot : Nat} (inside : slot < numSlots) :
    Frees pool (pool.bpFree slot) slot := by
  have range : ¬ ((slot : Int) < 0 ∨ (numSlots : Int) ≤ slot) := by omega
  have marked : pool.bpFree slot = pool.mark slot 0 := if_neg range
  rw [marked]
  exact mark_frees pool inside

/-- `BufferPool.free` does what `bp_free` does. -/
theorem free_eq_bpFree (pool : BufferPool) (slot : Int) : pool.free slot = pool.bpFree slot := rfl

/-- The two ways `bp_alloc` returns. -/
theorem bpAlloc_cases (pool : BufferPool) :
    (∃ slot : Nat, pool.bpAlloc = ((slot : Int), pool.mark slot 1) ∧
        Takes pool (pool.mark slot 1) slot) ∨
      (pool.Full ∧ pool.bpAlloc = (-1, pool)) := by
  unfold bpAlloc
  cases search : (List.range numSlots).find? fun slot => !pool.taken slot with
  | some slot =>
      have member := List.mem_of_find?_eq_some search
      have inside := List.mem_range.mp member
      have free : pool.taken slot = false := by
        simpa using List.find?_some search
      have marked : (pool.mark slot 1).mm slot = 1 := Function.update_self slot 1 pool.mm
      left
      refine ⟨slot, rfl, inside, free, ?_, ?_⟩
      · rw [taken_eq_true, marked]
        decide
      · exact fun _ _ different => Function.update_of_ne different 1 pool.mm
  | none =>
      right
      refine ⟨?_, rfl⟩
      intro slot inside
      have refused := List.find?_eq_none.mp search slot (List.mem_range.mpr inside)
      simpa using refused

/-- `bp_alloc` fails on full pools, and on no other. -/
theorem bpAlloc_neg_iff (pool : BufferPool) : pool.bpAlloc.1 < 0 ↔ pool.Full := by
  rcases bpAlloc_cases pool with ⟨slot, alloc, takes⟩ | ⟨full, alloc⟩
  · have there : ¬ (slot : Int) < 0 := by omega
    rw [alloc]
    exact iff_of_false there takes.not_full
  · have negative : (-1 : Int) < 0 := by decide
    rw [alloc]
    exact iff_of_true negative full

end MiniMs.Dpumesh.BufferPool
