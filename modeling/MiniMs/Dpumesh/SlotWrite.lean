import MiniMs.Dpumesh.BufferPool

/-!
What one `bp_write` does to the mapped region, for every length of the data.

Owns: the bound of the region, when a write stays in its slot, and the exact
lengths for which it does.

The length check reads a `size_t` as an `int`, so it looks at the low 32 bits
of the length alone, and takes them for a negative number from 2^31 on.
-/

namespace MiniMs.Dpumesh.BufferPool

open MiniMs.Library.Text

/-- `total_size` of `bp_init`. -/
def totalSize : Nat := numSlots + numSlots * slotSize

/-! ### The length check -/

/-- The bits of a length that the check looks at. -/
def lowBits (length : Nat) : Nat := length % 2 ^ 32

theorem intOfSize_of_low {length : Nat} (low : lowBits length < 2 ^ 31) :
    intOfSize length = lowBits length := by
  unfold lowBits at low ⊢
  unfold intOfSize
  rw [Int.bmod_def]
  omega

theorem intOfSize_of_high {length : Nat} (high : 2 ^ 31 ≤ lowBits length) :
    intOfSize length = (lowBits length : Int) - 2 ^ 32 := by
  unfold lowBits at high ⊢
  unfold intOfSize
  rw [Int.bmod_def]
  omega

theorem lowBits_lt (length : Nat) : lowBits length < 2 ^ 32 := Nat.mod_lt _ (by decide)

/-- The check refuses a length when its low bits are a positive `int` above the
slot size. -/
theorem slotSize_lt_intOfSize_iff (length : Nat) :
    (slotSize : Int) < intOfSize length ↔
      slotSize < lowBits length ∧ lowBits length < 2 ^ 31 := by
  have below := lowBits_lt length
  constructor
  · intro refused
    by_cases low : lowBits length < 2 ^ 31
    · rw [intOfSize_of_low low] at refused
      exact ⟨Int.ofNat_lt.mp refused, low⟩
    · rw [intOfSize_of_high (Nat.le_of_not_lt low)] at refused
      omega
  · rintro ⟨above, low⟩
    rw [intOfSize_of_low low]
    exact Int.ofNat_lt.mpr above

/-- The length is reported as -1 when all its low bits are set. -/
theorem intOfSize_eq_neg_one_iff (length : Nat) :
    intOfSize length = -1 ↔ lowBits length = 2 ^ 32 - 1 := by
  have below := lowBits_lt length
  by_cases low : lowBits length < 2 ^ 31
  · rw [intOfSize_of_low low]
    omega
  · rw [intOfSize_of_high (Nat.le_of_not_lt low)]
    omega

/-- A length that fits a slot passes. -/
theorem passes_of_fits {length : Nat} (fits : length ≤ slotSize) :
    ¬ (slotSize : Int) < intOfSize length := by
  have room : slotSize < 2 ^ 31 := by decide
  have same : lowBits length = length := Nat.mod_eq_of_lt (by omega)
  rw [slotSize_lt_intOfSize_iff, same]
  omega

/-! ### The two ways through `bp_write` -/

/-- Whether `bp_write` returns before its `memcpy`. -/
def Refuses (slot : Int) (length : Nat) : Prop :=
  slot < 0 ∨ (numSlots : Int) ≤ slot ∨ slotSize < lowBits length ∧ lowBits length < 2 ^ 31

/-- A call that is not refused passes both checks. -/
theorem passes_iff (slot : Int) (length : Nat) :
    ¬ Refuses slot length ↔
      ¬ (slot < 0 ∨ (numSlots : Int) ≤ slot) ∧ ¬ (slotSize : Int) < intOfSize length := by
  unfold Refuses
  rw [slotSize_lt_intOfSize_iff, ← not_or, or_assoc]

theorem bpWrite_refused (pool : BufferPool) {slot : Int} {data : Bytes}
    (refuses : Refuses slot data.length) : pool.bpWrite slot data = (-1, pool) := by
  unfold bpWrite
  by_cases range : slot < 0 ∨ (numSlots : Int) ≤ slot
  · rw [if_pos range]
  · rw [if_neg range]
    by_cases length : (slotSize : Int) < intOfSize data.length
    · rw [if_pos length]
    · exact absurd refuses ((passes_iff slot data.length).mpr ⟨range, length⟩)

theorem bpWrite_copied (pool : BufferPool) {slot : Int} {data : Bytes}
    (passes : ¬ Refuses slot data.length) :
    pool.bpWrite slot data =
      (intOfSize data.length, pool.copyIn (offset slot.toNat) data) := by
  obtain ⟨range, length⟩ := (passes_iff slot data.length).mp passes
  unfold bpWrite
  rw [if_neg range, if_neg length]

/-- A slot that passes is one of the pool. -/
theorem slot_of_passes {slot : Int} {length : Nat} (passes : ¬ Refuses slot length) :
    0 ≤ slot ∧ slot < numSlots := by
  have range := ((passes_iff slot length).mp passes).1
  omega

/-! ### Staying in the slot -/

/-- What a write that happened may do: the slot holds the data, and everything
outside of its range is as before. -/
structure Contained (before : BufferPool) (slot : Int) (data : Bytes) (after : BufferPool) :
    Prop where
  outside : ∀ address, address < offset slot.toNat ∨ offset slot.toNat + slotSize ≤ address →
    after.mm address = before.mm address
  reads_back : after.bpRead slot data.length = data
  other_slots : ∀ other maxlen, other ≠ slot →
    after.bpRead other maxlen = before.bpRead other maxlen
  bitmap : ∀ index < numSlots, after.mm index = before.mm index

/-- A write is refused and leaves the mapped region alone, or it is contained. -/
def StaysInSlot (pool : BufferPool) (slot : Int) (data : Bytes) : Prop :=
  ((pool.bpWrite slot data).1 = -1 ∧
    ∀ address < totalSize, (pool.bpWrite slot data).2.mm address = pool.mm address) ∨
  Contained pool slot data (pool.bpWrite slot data).2

theorem staysInSlot_of_refuses (pool : BufferPool) {slot : Int} {data : Bytes}
    (refuses : Refuses slot data.length) : StaysInSlot pool slot data := by
  left
  rw [bpWrite_refused pool refuses]
  exact ⟨rfl, fun _ _ => rfl⟩

/-- Two slots of the pool, read one after a copy into the other. -/
theorem bpRead_copyIn_other (pool : BufferPool) {slot other : Int} {data : Bytes}
    (range : 0 ≤ slot) (fits : data.length ≤ slotSize) (different : other ≠ slot) (maxlen : Nat) :
    (pool.copyIn (offset slot.toNat) data).bpRead other maxlen = pool.bpRead other maxlen := by
  unfold bpRead
  by_cases absent : other < 0 ∨ (numSlots : Int) ≤ other
  · rw [if_pos absent, if_pos absent]
  · rw [if_neg absent, if_neg absent]
    have apart : slot.toNat ≠ other.toNat := by omega
    apply bytesAt_congr
    intro address above below
    apply copyIn_outside
    rcases offset_disjoint apart with before | behind
    · right
      omega
    · left
      omega

/-- Data that fits is contained, whatever the pool holds. -/
theorem contained_of_fits (pool : BufferPool) {slot : Int} {data : Bytes}
    (range : 0 ≤ slot ∧ slot < numSlots) (fits : data.length ≤ slotSize) :
    Contained pool slot data (pool.copyIn (offset slot.toNat) data) where
  outside address beyond := by
    apply copyIn_outside
    omega
  reads_back := bpRead_copyIn pool range fits
  other_slots other maxlen different := bpRead_copyIn_other pool range.1 fits different maxlen
  bitmap index below := by
    apply copyIn_outside
    left
    have start := numSlots_le_offset slot.toNat
    omega

/-- Data that does not fit is never read back. -/
theorem not_contained_of_large {before after : BufferPool} {slot : Int} {data : Bytes}
    (large : slotSize < data.length) : ¬ Contained before slot data after := by
  intro contained
  have length := congrArg List.length contained.reads_back
  unfold bpRead at length
  split at length
  · simp only [List.length_nil] at length
    omega
  · rw [length_bytesAt] at length
    omega

/-! ### The exact condition -/

/-- The data agrees with what the mapped region holds behind the start of a
slot. -/
def Repeats (pool : BufferPool) (slot : Int) (data : Bytes) : Prop :=
  ∀ address, offset slot.toNat ≤ address → address < totalSize →
    data.getD (address - offset slot.toNat) 0 = pool.mm address

/-- A slot out of range, data that fits, a length whose low bits are refused,
or a length reported as -1 whose data the region holds already. -/
def Admissible (pool : BufferPool) (slot : Int) (data : Bytes) : Prop :=
  Refuses slot data.length ∨ data.length ≤ slotSize ∨
    lowBits data.length = 2 ^ 32 - 1 ∧ Repeats pool slot data

/-- A length that passes the check without fitting runs past the region. -/
theorem totalSize_le_of_passes {slot : Int} {length : Nat} (passes : ¬ Refuses slot length)
    (large : slotSize < length) : totalSize ≤ length := by
  have wrapped := ((passes_iff slot length).mp passes).2
  rw [slotSize_lt_intOfSize_iff] at wrapped
  have size : totalSize = 64 + 64 * slotSize := rfl
  have unit : slotSize = 2 ^ 20 := rfl
  have parts := Nat.div_add_mod length (2 ^ 32)
  unfold lowBits at wrapped
  omega

/-- A copy that runs past the region leaves it alone when it repeats it. -/
theorem unchanged_iff_repeats (pool : BufferPool) {slot : Int} {data : Bytes}
    (long : totalSize ≤ data.length) :
    (∀ address < totalSize,
        (pool.copyIn (offset slot.toNat) data).mm address = pool.mm address) ↔
      Repeats pool slot data := by
  have copied : ∀ address, offset slot.toNat ≤ address → address < totalSize →
      (pool.copyIn (offset slot.toNat) data).mm address =
        data.getD (address - offset slot.toNat) 0 := by
    intro address above below
    exact if_pos ⟨above, by omega⟩
  constructor
  · intro unchanged address above below
    rw [← copied address above below]
    exact unchanged address below
  · intro repeats address below
    by_cases above : offset slot.toNat ≤ address
    · rw [copied address above below]
      exact repeats address above below
    · exact copyIn_outside (Or.inl (Nat.lt_of_not_le above))

/-- A write that passes with data that does not fit: only a repetition that is
reported as -1 goes unnoticed. -/
theorem staysInSlot_large_iff (pool : BufferPool) {slot : Int} {data : Bytes}
    (passes : ¬ Refuses slot data.length) (large : slotSize < data.length) :
    StaysInSlot pool slot data ↔
      lowBits data.length = 2 ^ 32 - 1 ∧ Repeats pool slot data := by
  have long := totalSize_le_of_passes passes large
  unfold StaysInSlot
  rw [bpWrite_copied pool passes, intOfSize_eq_neg_one_iff, unchanged_iff_repeats pool long]
  constructor
  · rintro (silent | contained)
    · exact silent
    · exact absurd contained (not_contained_of_large large)
  · exact Or.inl

/-- A length of 2^32 passes as 0. -/
theorem not_staysInSlot_of_length (pool : BufferPool) {data : Bytes}
    (length : data.length = 2 ^ 32) : ¬ StaysInSlot pool 0 data := by
  have low : lowBits data.length = 0 := by
    rw [length]
    rfl
  have passes : ¬ Refuses 0 data.length := by
    unfold Refuses
    rw [low]
    decide
  have large : slotSize < data.length := by
    rw [length]
    decide
  rw [staysInSlot_large_iff pool passes large, low]
  rintro ⟨allOnes, -⟩
  contradiction

end MiniMs.Dpumesh.BufferPool
