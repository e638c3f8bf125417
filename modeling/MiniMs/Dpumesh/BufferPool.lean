import MiniMs.Dpumesh.Descriptor
import MiniMs.Library.Text

/-!
The buffer pool in shared memory: a bitmap of one byte a slot, then the slots.

Owns: `bp_alloc`, `bp_free`, `bp_write` and `bp_read` of the C library over one
flat memory, `alloc`, `free`, `write` and `read` of the Python class over the
same memory, and what each of them changes and leaves alone.

The file lock makes each call one step; it is not part of the memory.
-/

namespace MiniMs.Dpumesh

open MiniMs.Library.Text

/-- The mapped region of one pool: `numSlots` bitmap bytes, then the slots. -/
structure BufferPool where
  mm : Nat → UInt8

namespace BufferPool

/-- A region of zeros, as `ftruncate` and the cleared bitmap leave it. -/
def zeroed : BufferPool := ⟨fun _ => 0⟩

/-- Where the data of a slot starts. -/
def offset (slot : Nat) : Nat := numSlots + slot * slotSize

/-- The bytes of a range of the region. -/
def bytesAt (pool : BufferPool) (start count : Nat) : Bytes :=
  (List.range count).map fun index => pool.mm (start + index)

/-- `memcpy` into the region. -/
def copyIn (pool : BufferPool) (start : Nat) (data : Bytes) : BufferPool :=
  ⟨fun address =>
    if start ≤ address ∧ address < start + data.length then data.getD (address - start) 0
    else pool.mm address⟩

/-- Whether the bitmap marks a slot as taken. -/
def taken (pool : BufferPool) (slot : Nat) : Bool := pool.mm slot != 0

/-- Set one bitmap byte. -/
def mark (pool : BufferPool) (slot : Nat) (byte : UInt8) : BufferPool :=
  ⟨Function.update pool.mm slot byte⟩

/-! ### The C functions -/

/-- `memset(m, 0, num_slots)` in `bp_init` with `create`. -/
def clearBitmap (pool : BufferPool) : BufferPool :=
  ⟨fun address => if address < numSlots then 0 else pool.mm address⟩

/-- `bp_alloc`: the first free slot, or -1. -/
def bpAlloc (pool : BufferPool) : Int × BufferPool :=
  match (List.range numSlots).find? fun slot => !pool.taken slot with
  | some slot => (slot, pool.mark slot 1)
  | none => (-1, pool)

/-- `bp_free`. -/
def bpFree (pool : BufferPool) (slot : Int) : BufferPool :=
  if slot < 0 ∨ numSlots ≤ slot then pool else pool.mark slot.toNat 0

/-- A `size_t` read as `int`. -/
def intOfSize (size : Nat) : Int := Int.bmod size (2 ^ 32)

/-- `bp_write`. -/
def bpWrite (pool : BufferPool) (slot : Int) (data : Bytes) : Int × BufferPool :=
  if slot < 0 ∨ numSlots ≤ slot then (-1, pool)
  else if (slotSize : Int) < intOfSize data.length then (-1, pool)
  else (intOfSize data.length, pool.copyIn (offset slot.toNat) data)

/-- `bp_read`: at most `maxlen` bytes of a slot. -/
def bpRead (pool : BufferPool) (slot : Int) (maxlen : Nat) : Bytes :=
  if slot < 0 ∨ numSlots ≤ slot then []
  else pool.bytesAt (offset slot.toNat) (min maxlen slotSize)

/-! ### The Python methods -/

/-- The two ways `BufferPool.write` raises. -/
inductive WriteError where
  | invalidSlot
  | overflow
deriving DecidableEq, Repr

/-- `BufferPool.alloc`: the same scan as `bp_alloc`. -/
def alloc (pool : BufferPool) : Int × BufferPool := pool.bpAlloc

/-- `BufferPool.free`. -/
def free (pool : BufferPool) (slot : Int) : BufferPool :=
  if slot < 0 ∨ numSlots ≤ slot then pool else pool.mark slot.toNat 0

/-- `BufferPool.write`. -/
def write (pool : BufferPool) (slot : Int) (data : Bytes) : Except WriteError (Nat × BufferPool) :=
  if slot < 0 ∨ numSlots ≤ slot then .error .invalidSlot
  else if slotSize < data.length then .error .overflow
  else .ok (data.length, pool.copyIn (offset slot.toNat) data)

/-- `BufferPool.read`. -/
def read (pool : BufferPool) (slot : Int) (length : Nat) : Bytes :=
  if slot < 0 ∨ numSlots ≤ slot then []
  else pool.bytesAt (offset slot.toNat) (min length slotSize)

/-! ### Ranges of the region -/

@[simp] theorem length_bytesAt (pool : BufferPool) (start count : Nat) :
    (pool.bytesAt start count).length = count := by
  simp [bytesAt]

theorem bytesAt_congr {left right : BufferPool} {start count : Nat}
    (same : ∀ address, start ≤ address → address < start + count →
      left.mm address = right.mm address) :
    left.bytesAt start count = right.bytesAt start count := by
  unfold bytesAt
  refine List.map_congr_left fun index member => ?_
  have below := List.mem_range.mp member
  exact same _ (Nat.le_add_right _ _) (Nat.add_lt_add_left below _)

theorem take_bytesAt (pool : BufferPool) (start : Nat) {few count : Nat} (le : few ≤ count) :
    (pool.bytesAt start count).take few = pool.bytesAt start few := by
  unfold bytesAt
  rw [← List.map_take, List.take_range, Nat.min_eq_left le]

/-- Reading back what was copied in. -/
theorem bytesAt_copyIn (pool : BufferPool) (start : Nat) (data : Bytes) :
    (pool.copyIn start data).bytesAt start data.length = data := by
  apply List.ext_getElem (by simp)
  intro index below below'
  simp only [bytesAt, copyIn, List.getElem_map, List.getElem_range]
  rw [if_pos ⟨Nat.le_add_right _ _, Nat.add_lt_add_left below' _⟩, Nat.add_sub_cancel_left]
  simp [List.getD_eq_getElem?_getD, List.getElem?_eq_getElem below']

/-- A slot that was filled reads back as the first bytes of what was written. -/
theorem bpRead_copyIn_take (pool : BufferPool) {slot : Int} (range : 0 ≤ slot ∧ slot < numSlots)
    {data : Bytes} (fits : data.length ≤ slotSize) {count : Nat} (le : count ≤ data.length) :
    (pool.copyIn (offset slot.toNat) data).bpRead slot count = data.take count := by
  have inside : ¬ (slot < 0 ∨ (numSlots : Int) ≤ slot) := by omega
  unfold bpRead
  rw [if_neg inside, Nat.min_eq_left (by omega), ← take_bytesAt _ _ le, bytesAt_copyIn]

theorem bpRead_copyIn (pool : BufferPool) {slot : Int} (range : 0 ≤ slot ∧ slot < numSlots)
    {data : Bytes} (fits : data.length ≤ slotSize) :
    (pool.copyIn (offset slot.toNat) data).bpRead slot data.length = data := by
  rw [bpRead_copyIn_take pool range fits (Nat.le_refl _), List.take_length]

theorem copyIn_outside {pool : BufferPool} {start address : Nat} {data : Bytes}
    (outside : address < start ∨ start + data.length ≤ address) :
    (pool.copyIn start data).mm address = pool.mm address := by
  have missed : ¬ (start ≤ address ∧ address < start + data.length) := by omega
  exact if_neg missed

/-- The slots do not overlap each other. -/
theorem offset_disjoint {slot other : Nat} (different : slot ≠ other) :
    offset slot + slotSize ≤ offset other ∨ offset other + slotSize ≤ offset slot := by
  unfold offset
  rcases Nat.lt_or_gt_of_ne different with less | greater
  · left
    have := Nat.mul_le_mul_right slotSize less
    rw [Nat.succ_mul] at this
    omega
  · right
    have := Nat.mul_le_mul_right slotSize greater
    rw [Nat.succ_mul] at this
    omega

/-- No slot overlaps the bitmap. -/
theorem numSlots_le_offset (slot : Nat) : numSlots ≤ offset slot := Nat.le_add_right _ _

end BufferPool

end MiniMs.Dpumesh
