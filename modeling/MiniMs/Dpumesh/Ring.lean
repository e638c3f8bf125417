import MiniMs.Dpumesh.Layout
import MiniMs.Library.Circular
import MiniMs.Library.Region

/-!
The descriptor ring in shared memory: a header of three words, then the slots.

Owns: `dr_init`, `dr_put` and `dr_get` of the C library and `put` and `get` of the
Python class over one memory, the queue of descriptors that a memory holds, and
that every mix of calls is a run of a bounded queue.

The file lock makes each call one step; it is not part of the memory.
-/

namespace MiniMs.Dpumesh.Ring

open MiniMs.Library.Text MiniMs.Library.Packed MiniMs.Library.Region MiniMs.Library.Circular
open MiniMs.Dpumesh.Layout

/-- `HEADER_SIZE`: head, tail and count. -/
def headerSize : Nat := 12

/-- `total_size`. -/
def totalSize : Nat := headerSize + maxDescriptors * descriptorSize

/-- The mapped region of one ring. -/
structure DescRing where
  mm : Nat → UInt8

namespace DescRing

/-- The words of the header. -/
def hdr (ring : DescRing) (word : Nat) : UInt32 :=
  uint32At (bytesAt ring.mm 0 headerSize) (4 * word)

/-! ### The C functions -/

/-- The stores `hdr[0] = head; hdr[1] = tail; hdr[2] = count`. -/
def setHdr (ring : DescRing) (head tail count : UInt32) : DescRing :=
  ⟨copyIn ring.mm 0 (uint32Bytes head ++ uint32Bytes tail ++ uint32Bytes count)⟩

/-- `memset(m, 0, 12)` in `dr_init` with `create`, and the same write in `_init_storage`. -/
def drInit (ring : DescRing) : DescRing := ring.setHdr 0 0 0

/-- `12 + (index * DPUMESH_DESCRIPTOR_SIZE)`, in `uint32_t`. -/
def drOffset (index : UInt32) : Nat := (12 + index * 64).toNat

/-- `dr_put`: the result and the ring. -/
def drPut (ring : DescRing) (desc : SwDescriptorT) : Int × DescRing :=
  let head := ring.hdr 0
  let tail := ring.hdr 1
  let count := ring.hdr 2
  if UInt32.ofNat maxDescriptors ≤ count then (-1, ring)
  else
    let stored : DescRing := ⟨copyIn ring.mm (drOffset tail) desc.bytes⟩
    (0, stored.setHdr head ((tail + 1) % UInt32.ofNat maxDescriptors) (count + 1))

/-- `dr_get`: the descriptor, or none for -1. -/
def drGet (ring : DescRing) : Option SwDescriptorT × DescRing :=
  let head := ring.hdr 0
  let tail := ring.hdr 1
  let count := ring.hdr 2
  if count = 0 then (none, ring)
  else
    let desc := SwDescriptorT.ofBytes (bytesAt ring.mm (drOffset head) descriptorSize)
    (some desc, ring.setHdr ((head + 1) % UInt32.ofNat maxDescriptors) tail (count - 1))

/-! ### The Python methods -/

/-- What the Python methods can raise. -/
inductive RingError where
  | structError
  | valueError
deriving DecidableEq, Repr

/-- `'<III'`. -/
def hdrFmt : List Library.Packed.Field := [.unsigned 4, .unsigned 4, .unsigned 4]

/-- `_get_header`. -/
def getHeader (ring : DescRing) : Except RingError (Int × Int × Int) :=
  match unpack hdrFmt (bytesAt ring.mm 0 headerSize) with
  | some [head, tail, count] => .ok (head, tail, count)
  | _ => .error .structError

/-- `_set_header`. -/
def setHeader (ring : DescRing) (head tail count : Int) : Except RingError DescRing :=
  match pack hdrFmt [head, tail, count] with
  | some bytes => .ok ⟨copyIn ring.mm 0 bytes⟩
  | none => .error .structError

/-- `self._mm.seek(offset)` and `self._mm.write(packed)`. -/
def writeAt (ring : DescRing) (offset : Int) (packed : Bytes) : Except RingError DescRing :=
  if offset < 0 ∨ (totalSize : Int) < offset + packed.length then .error .valueError
  else .ok ⟨copyIn ring.mm offset.toNat packed⟩

/-- `self._mm.seek(offset)` and `self._mm.read(DESCRIPTOR_SIZE)`. -/
def readAt (ring : DescRing) (offset : Int) : Except RingError Bytes :=
  if offset < 0 ∨ (totalSize : Int) < offset then .error .valueError
  else .ok (bytesAt ring.mm offset.toNat (min descriptorSize (totalSize - offset.toNat)))

/-- `DescriptorRing.put`: what it returns or raises, and the ring. -/
def put (ring : DescRing) (desc : PyDescriptor) : Except RingError Bool × DescRing :=
  match desc.pack with
  | none => (.error .structError, ring)
  | some packed =>
      match ring.getHeader with
      | .error raised => (.error raised, ring)
      | .ok (head, tail, count) =>
          if (maxDescriptors : Int) ≤ count then (.ok false, ring)
          else
            match ring.writeAt (headerSize + tail * descriptorSize) packed with
            | .error raised => (.error raised, ring)
            | .ok stored =>
                match stored.setHeader head ((tail + 1) % maxDescriptors) (count + 1) with
                | .error raised => (.error raised, stored)
                | .ok done => (.ok true, done)

/-- `DescriptorRing.get`: a descriptor that does not unpack is dropped with a message. -/
def get (ring : DescRing) : Except RingError (Option PyDescriptor) × DescRing :=
  match ring.getHeader with
  | .error raised => (.error raised, ring)
  | .ok (head, tail, count) =>
      if count = 0 then (.ok none, ring)
      else
        match ring.readAt (headerSize + head * descriptorSize) with
        | .error raised => (.error raised, ring)
        | .ok data =>
            match ring.setHeader ((head + 1) % maxDescriptors) tail (count - 1) with
            | .error raised => (.error raised, ring)
            | .ok done => (.ok (PyDescriptor.unpack data), done)

/-! ### The header and the slots -/

/-- The bytes of one slot. -/
def slot (ring : DescRing) (index : Nat) : Bytes :=
  bytesAt ring.mm (headerSize + index * descriptorSize) descriptorSize

theorem length_header (head tail count : UInt32) :
    (uint32Bytes head ++ uint32Bytes tail ++ uint32Bytes count).length = headerSize := by
  simp [headerSize]

/-- The header after the three stores. -/
theorem header_setHdr (ring : DescRing) (head tail count : UInt32) :
    bytesAt (ring.setHdr head tail count).mm 0 headerSize =
      uint32Bytes head ++ uint32Bytes tail ++ uint32Bytes count := by
  have copied := bytesAt_copyIn ring.mm 0
    (uint32Bytes head ++ uint32Bytes tail ++ uint32Bytes count)
  rwa [length_header] at copied

@[simp] theorem hdr_setHdr_head (ring : DescRing) (head tail count : UInt32) :
    (ring.setHdr head tail count).hdr 0 = head := by
  have first := @uint32At_last [] 0 head rfl
  rw [hdr, header_setHdr, uint32At_append (by simp), uint32At_append (by simp)]
  exact first

@[simp] theorem hdr_setHdr_tail (ring : DescRing) (head tail count : UInt32) :
    (ring.setHdr head tail count).hdr 1 = tail := by
  rw [hdr, header_setHdr, uint32At_append (by simp), uint32At_last tail (by simp)]

@[simp] theorem hdr_setHdr_count (ring : DescRing) (head tail count : UInt32) :
    (ring.setHdr head tail count).hdr 2 = count := by
  rw [hdr, header_setHdr, uint32At_last count (by simp)]

@[simp] theorem slot_setHdr (ring : DescRing) (head tail count : UInt32) (index : Nat) :
    (ring.setHdr head tail count).slot index = ring.slot index := by
  apply bytesAt_copyIn_of_disjoint
  right
  rw [length_header]
  omega

/-- The header is read back as it was written. -/
theorem header_eq (ring : DescRing) :
    bytesAt ring.mm 0 headerSize =
      uint32Bytes (ring.hdr 0) ++ uint32Bytes (ring.hdr 1) ++ uint32Bytes (ring.hdr 2) := by
  have size : (bytesAt ring.mm 0 headerSize).length = 12 := length_bytesAt _ _ _
  have first : uint32Bytes (ring.hdr 0) = (bytesAt ring.mm 0 headerSize).take 4 :=
    uint32Bytes_uint32At (by omega)
  have second : uint32Bytes (ring.hdr 1) = ((bytesAt ring.mm 0 headerSize).drop 4).take 4 :=
    uint32Bytes_uint32At (by omega)
  have third : uint32Bytes (ring.hdr 2) = ((bytesAt ring.mm 0 headerSize).drop 8).take 4 :=
    uint32Bytes_uint32At (by omega)
  rw [first, second, third, ← List.take_add, ← List.take_add, List.take_of_length_le size.le]

/-- A descriptor written to a slot leaves the header and the other slots alone. -/
theorem hdr_copySlot (ring : DescRing) {index : Nat} {data : Bytes} (word : Nat) :
    (DescRing.mk (copyIn ring.mm (headerSize + index * descriptorSize) data)).hdr word =
      ring.hdr word := by
  unfold hdr
  rw [bytesAt_copyIn_of_disjoint]
  left
  omega

theorem slot_copySlot (ring : DescRing) (index : Nat) {data : Bytes}
    (length : data.length = descriptorSize) :
    (DescRing.mk (copyIn ring.mm (headerSize + index * descriptorSize) data)).slot index =
      data := by
  unfold slot
  rw [← length]
  exact bytesAt_copyIn _ _ _

theorem slot_copySlot_ne (ring : DescRing) {index other : Nat} {data : Bytes}
    (length : data.length = descriptorSize) (apart : other ≠ index) :
    (DescRing.mk (copyIn ring.mm (headerSize + index * descriptorSize) data)).slot other =
      ring.slot other := by
  apply bytesAt_copyIn_of_disjoint
  rw [length]
  unfold descriptorSize
  omega

/-- No overflow where the index is inside the ring. -/
theorem drOffset_eq {index : UInt32} (inside : index.toNat < maxDescriptors) :
    drOffset index = headerSize + index.toNat * descriptorSize := by
  have product : index.toNat * 64 < 32768 := by
    unfold maxDescriptors at inside
    omega
  unfold drOffset headerSize descriptorSize
  rw [UInt32.toNat_add, UInt32.toNat_mul]
  change (12 + index.toNat * 64 % 2 ^ 32) % 2 ^ 32 = _
  omega

/-- The wrap of the word is a whole number of turns. -/
theorem toNat_advance (index : UInt32) :
    ((index + 1) % UInt32.ofNat maxDescriptors).toNat = (index.toNat + 1) % maxDescriptors := by
  rw [UInt32.toNat_mod, UInt32.toNat_add]
  change (index.toNat + 1) % 2 ^ 32 % 512 = (index.toNat + 1) % 512
  omega

theorem toNat_succ {count : UInt32} (room : count.toNat < maxDescriptors) :
    (count + 1).toNat = count.toNat + 1 := by
  unfold maxDescriptors at room
  rw [UInt32.toNat_add]
  change (count.toNat + 1) % 2 ^ 32 = count.toNat + 1
  omega

end DescRing

/-! ### The queue in the memory -/

/-- The memory holds a queue of descriptors. -/
structure Represents (ring : DescRing) (queue : List SwDescriptorT) : Prop where
  count : (ring.hdr 2).toNat = queue.length
  tail : (ring.hdr 1).toNat = ((ring.hdr 0).toNat + queue.length) % maxDescriptors
  holds : Holds ring.slot maxDescriptors (ring.hdr 0).toNat (queue.map SwDescriptorT.bytes)

namespace Represents

variable {ring : DescRing} {queue : List SwDescriptorT}

theorem fits (represents : Represents ring queue) : queue.length ≤ maxDescriptors := by
  have fits := represents.holds.fits
  rwa [List.length_map] at fits

theorem tail_lt (represents : Represents ring queue) : (ring.hdr 1).toNat < maxDescriptors := by
  rw [represents.tail]
  exact Nat.mod_lt _ (by decide)

end Represents

/-- A ring with a cleared header is empty, whatever its slots hold. -/
theorem represents_drInit (ring : DescRing) : Represents ring.drInit [] where
  count := by
    unfold DescRing.drInit
    rw [DescRing.hdr_setHdr_count]
    rfl
  tail := by
    unfold DescRing.drInit
    rw [DescRing.hdr_setHdr_tail, DescRing.hdr_setHdr_head]
    rfl
  holds := by
    refine Holds.nil ?_
    unfold DescRing.drInit
    rw [DescRing.hdr_setHdr_head]
    decide

theorem drPut_of_full {ring : DescRing} {queue : List SwDescriptorT}
    (represents : Represents ring queue) (full : queue.length = maxDescriptors)
    (desc : SwDescriptorT) : ring.drPut desc = (-1, ring) := by
  have count := represents.count
  refine if_pos ?_
  rw [UInt32.le_iff_toNat_le, count, full]
  exact le_rfl

/-- A put into a ring with room appends the descriptor. -/
theorem drPut_of_room {ring : DescRing} {queue : List SwDescriptorT}
    (represents : Represents ring queue) (room : queue.length < maxDescriptors)
    (desc : SwDescriptorT) :
    (ring.drPut desc).1 = 0 ∧ Represents (ring.drPut desc).2 (queue ++ [desc]) := by
  have below : ¬ UInt32.ofNat maxDescriptors ≤ ring.hdr 2 := by
    have count := represents.count
    rw [UInt32.le_iff_toNat_le, count]
    exact Nat.not_le.mpr room
  have tail_lt := represents.tail_lt
  have head_lt := represents.holds.head_lt
  rw [DescRing.drPut, if_neg below, DescRing.drOffset_eq tail_lt]
  refine ⟨rfl, ?_, ?_, ?_⟩
  · have small : (ring.hdr 2).toNat < maxDescriptors := represents.count.trans_lt room
    rw [DescRing.hdr_setHdr_count, DescRing.toNat_succ small, represents.count,
      List.length_append]
    rfl
  · rw [DescRing.hdr_setHdr_tail, DescRing.hdr_setHdr_head, DescRing.toNat_advance,
      represents.tail, Nat.mod_add_mod, List.length_append, Nat.add_assoc]
    rfl
  · rw [DescRing.hdr_setHdr_head, List.map_append, List.map_singleton]
    have space : (queue.map SwDescriptorT.bytes).length < maxDescriptors := by
      rwa [List.length_map]
    have position : ((ring.hdr 0).toNat + (queue.map SwDescriptorT.bytes).length) %
        maxDescriptors = (ring.hdr 1).toNat := by
      rw [List.length_map, represents.tail]
    refine represents.holds.push space ?_ ?_
    · rw [position, DescRing.slot_setHdr, DescRing.slot_copySlot _ _ desc.length_bytes]
    · intro cell inside apart
      rw [position] at apart
      rw [DescRing.slot_setHdr, DescRing.slot_copySlot_ne _ desc.length_bytes apart]

theorem drGet_of_empty {ring : DescRing} (represents : Represents ring []) :
    ring.drGet = (none, ring) := by
  have count := represents.count
  refine if_pos (UInt32.toNat_inj.mp ?_)
  rw [count]
  rfl

/-- A get from a ring that holds something returns the oldest descriptor. -/
theorem drGet_of_cons {ring : DescRing} {desc : SwDescriptorT} {queue : List SwDescriptorT}
    (represents : Represents ring (desc :: queue)) :
    ring.drGet.1 = some desc ∧ Represents ring.drGet.2 queue := by
  have count := represents.count
  have fits := represents.fits
  rw [List.length_cons] at count fits
  have nonempty : ¬ ring.hdr 2 = 0 := by
    intro zero
    rw [zero] at count
    exact absurd count (Nat.succ_ne_zero _).symm
  obtain ⟨here, holds⟩ := represents.holds.pop
  have data : bytesAt ring.mm (headerSize + (ring.hdr 0).toNat * descriptorSize) descriptorSize =
      desc.bytes := here
  rw [DescRing.drGet, if_neg nonempty, DescRing.drOffset_eq represents.holds.head_lt, data,
    SwDescriptorT.ofBytes_bytes]
  refine ⟨rfl, ?_, ?_, ?_⟩
  · have one : (1 : UInt32) ≤ ring.hdr 2 := by
      rw [UInt32.le_iff_toNat_le, count]
      exact Nat.le_add_left 1 _
    rw [DescRing.hdr_setHdr_count, UInt32.toNat_sub_of_le _ _ one, count]
    rfl
  · rw [DescRing.hdr_setHdr_tail, DescRing.hdr_setHdr_head, DescRing.toNat_advance,
      represents.tail, List.length_cons, position_succ]
  · rw [DescRing.hdr_setHdr_head, DescRing.toNat_advance]
    have same : (ring.setHdr ((ring.hdr 0 + 1) % UInt32.ofNat maxDescriptors) (ring.hdr 1)
        (ring.hdr 2 - 1)).slot = ring.slot :=
      funext (DescRing.slot_setHdr ring _ _ _)
    rw [← same] at holds
    exact holds

/-! ### The Python methods do the same -/

theorem pack_header (head tail count : UInt32) :
    pack DescRing.hdrFmt [(head.toNat : Int), (tail.toNat : Int), (count.toNat : Int)] =
      some (uint32Bytes head ++ uint32Bytes tail ++ uint32Bytes count) := by
  unfold DescRing.hdrFmt
  simp only [pack_uint32, pack_nil, Option.map_some, List.append_assoc, List.append_nil]

/-- `_get_header` reads the words that the C functions read. -/
theorem getHeader_eq (ring : DescRing) :
    ring.getHeader =
      .ok (((ring.hdr 0).toNat : Int), ((ring.hdr 1).toNat : Int), ((ring.hdr 2).toNat : Int)) := by
  unfold DescRing.getHeader
  rw [ring.header_eq, unpack_of_pack (pack_header _ _ _)]

theorem setHeader_of_pack (ring : DescRing) {head tail count : Int} {bytes : Bytes}
    (packs : pack DescRing.hdrFmt [head, tail, count] = some bytes) :
    ring.setHeader head tail count = .ok ⟨copyIn ring.mm 0 bytes⟩ := by
  unfold DescRing.setHeader
  rw [packs]

/-- `_set_header` stores the words that the C functions store. -/
theorem setHeader_eq (ring : DescRing) (head tail count : UInt32) :
    ring.setHeader head.toNat tail.toNat count.toNat = .ok (ring.setHdr head tail count) :=
  setHeader_of_pack ring (pack_header head tail count)

theorem natCast_succ_emod (index capacity : Nat) :
    ((index : Int) + 1) % (capacity : Int) = ((index + 1) % capacity : Nat) := by
  push_cast
  rfl

theorem cast_advance (index : UInt32) :
    ((index.toNat : Int) + 1) % (maxDescriptors : Int) =
      (((index + 1) % UInt32.ofNat maxDescriptors).toNat : Int) := by
  rw [DescRing.toNat_advance]
  exact natCast_succ_emod _ _

theorem writeAt_slot (ring : DescRing) {index : Nat} {data : Bytes}
    (inside : index < maxDescriptors) (length : data.length = descriptorSize) :
    ring.writeAt (headerSize + index * descriptorSize) data =
      .ok ⟨copyIn ring.mm (headerSize + index * descriptorSize) data⟩ := by
  unfold DescRing.writeAt
  rw [length, if_neg]
  · congr 2
  · unfold totalSize maxDescriptors descriptorSize headerSize at *
    omega

theorem readAt_slot (ring : DescRing) {index : Nat} (inside : index < maxDescriptors) :
    ring.readAt (headerSize + index * descriptorSize) = .ok (ring.slot index) := by
  have offset : ((headerSize : Int) + index * descriptorSize).toNat =
      headerSize + index * descriptorSize := by omega
  have whole : min descriptorSize (totalSize - (headerSize + index * descriptorSize)) =
      descriptorSize := by
    unfold totalSize maxDescriptors descriptorSize headerSize at *
    omega
  unfold DescRing.readAt
  rw [offset, whole, if_neg]
  · rfl
  · unfold totalSize maxDescriptors descriptorSize headerSize at *
    omega

section Calls

variable {ring stored done : DescRing} {desc : PyDescriptor} {packed data : Bytes}
  {head tail count : Int}

theorem put_of_full (packs : desc.pack = some packed)
    (header : ring.getHeader = .ok (head, tail, count)) (full : (maxDescriptors : Int) ≤ count) :
    ring.put desc = (.ok false, ring) := by
  unfold DescRing.put
  rw [packs, header]
  exact if_pos full

theorem put_of_room (packs : desc.pack = some packed)
    (header : ring.getHeader = .ok (head, tail, count)) (room : ¬ (maxDescriptors : Int) ≤ count)
    (written : ring.writeAt (headerSize + tail * descriptorSize) packed = .ok stored)
    (set : stored.setHeader head ((tail + 1) % maxDescriptors) (count + 1) = .ok done) :
    ring.put desc = (.ok true, done) := by
  unfold DescRing.put
  rw [packs, header]
  refine (if_neg room).trans ?_
  rw [written]
  simp only [set]

/-- A descriptor that does not fit the format is refused before the ring is touched. -/
theorem put_of_unpackable (ring : DescRing) (fails : desc.pack = none) :
    ring.put desc = (.error .structError, ring) := by
  unfold DescRing.put
  rw [fails]

theorem get_of_empty (header : ring.getHeader = .ok (head, tail, count)) (empty : count = 0) :
    ring.get = (.ok none, ring) := by
  unfold DescRing.get
  rw [header]
  exact if_pos empty

theorem get_of_some (header : ring.getHeader = .ok (head, tail, count)) (nonempty : ¬ count = 0)
    (read : ring.readAt (headerSize + head * descriptorSize) = .ok data)
    (set : ring.setHeader ((head + 1) % maxDescriptors) tail (count - 1) = .ok done) :
    ring.get = (.ok (PyDescriptor.unpack data), done) := by
  unfold DescRing.get
  rw [header]
  refine (if_neg nonempty).trans ?_
  rw [read]
  simp only [set]

end Calls

/-- `put` is `dr_put` of the record with the same bytes. -/
theorem put_eq {ring : DescRing} {queue : List SwDescriptorT}
    (represents : Represents ring queue) {desc : PyDescriptor} {packed : Bytes}
    (packs : desc.pack = some packed) :
    ring.put desc = (.ok (decide (queue.length < maxDescriptors)),
      (ring.drPut (SwDescriptorT.ofBytes packed)).2) := by
  have length := PyDescriptor.length_of_pack packs
  have count := represents.count
  have fits := represents.fits
  rcases Nat.lt_or_ge queue.length maxDescriptors with room | full
  · have small : ¬ (maxDescriptors : Int) ≤ (ring.hdr 2).toNat := by omega
    have below : ¬ UInt32.ofNat maxDescriptors ≤ ring.hdr 2 := by
      rw [UInt32.le_iff_toNat_le, count]
      exact Nat.not_le.mpr room
    have next : ((ring.hdr 2).toNat : Int) + 1 = ((ring.hdr 2 + 1).toNat : Int) := by
      rw [DescRing.toNat_succ (by omega), Int.natCast_succ]
    have written := writeAt_slot ring represents.tail_lt length
    have set := setHeader_eq
      ⟨copyIn ring.mm (headerSize + (ring.hdr 1).toNat * descriptorSize) packed⟩
      (ring.hdr 0) ((ring.hdr 1 + 1) % UInt32.ofNat maxDescriptors) (ring.hdr 2 + 1)
    rw [← cast_advance, ← next] at set
    rw [put_of_room packs (getHeader_eq ring) small written set, DescRing.drPut, if_neg below,
      DescRing.drOffset_eq represents.tail_lt, SwDescriptorT.bytes_ofBytes length,
      decide_eq_true room]
  · have equal : queue.length = maxDescriptors := by omega
    have large : (maxDescriptors : Int) ≤ (ring.hdr 2).toNat := by omega
    rw [put_of_full packs (getHeader_eq ring) large, drPut_of_full represents equal,
      decide_eq_false (by omega)]

/-- `get` is `dr_get`, with the fields of the record. -/
theorem get_eq {ring : DescRing} {queue : List SwDescriptorT}
    (represents : Represents ring queue) :
    ring.get = (.ok (ring.drGet.1.map SwDescriptorT.fields), ring.drGet.2) := by
  have count := represents.count
  cases queue with
  | nil =>
      have zero : ((ring.hdr 2).toNat : Int) = 0 := by
        rw [count]
        rfl
      rw [get_of_empty (getHeader_eq ring) zero, drGet_of_empty represents]
      rfl
  | cons desc queue =>
      rw [List.length_cons] at count
      have nonzero : ¬ ((ring.hdr 2).toNat : Int) = 0 := by omega
      have nonempty : ¬ ring.hdr 2 = 0 := by
        intro zero
        rw [zero] at count
        exact absurd count (Nat.succ_ne_zero _).symm
      have one : (1 : UInt32) ≤ ring.hdr 2 := by
        rw [UInt32.le_iff_toNat_le, count]
        exact Nat.le_add_left 1 _
      have previous : ((ring.hdr 2).toNat : Int) - 1 = ((ring.hdr 2 - 1).toNat : Int) := by
        rw [UInt32.toNat_sub_of_le _ _ one]
        change _ = (((ring.hdr 2).toNat - 1 : Nat) : Int)
        omega
      have read := readAt_slot ring represents.holds.head_lt
      have data : ring.slot (ring.hdr 0).toNat = desc.bytes := represents.holds.pop.1
      have returned := (drGet_of_cons represents).1
      have set := setHeader_eq ring ((ring.hdr 0 + 1) % UInt32.ofNat maxDescriptors) (ring.hdr 1)
        (ring.hdr 2 - 1)
      rw [← cast_advance, ← previous] at set
      rw [get_of_some (getHeader_eq ring) nonzero read set, data, desc.unpack_bytes, returned,
        DescRing.drGet, if_neg nonempty]
      rfl

/-! ### When a call fails -/

section Failures

variable {ring : DescRing} {queue : List SwDescriptorT}

theorem drPut_fails_iff (represents : Represents ring queue) (desc : SwDescriptorT) :
    (ring.drPut desc).1 ≠ 0 ↔ queue.length = maxDescriptors := by
  constructor
  · intro fails
    by_contra room
    have below := Nat.lt_of_le_of_ne represents.fits room
    exact fails (drPut_of_room represents below desc).1
  · intro full
    rw [drPut_of_full represents full]
    exact (by decide : (-1 : Int) ≠ 0)

theorem drPut_unchanged (represents : Represents ring queue) {desc : SwDescriptorT}
    (fails : (ring.drPut desc).1 ≠ 0) : (ring.drPut desc).2 = ring := by
  rw [drPut_of_full represents ((drPut_fails_iff represents desc).mp fails)]

theorem put_fails_iff (represents : Represents ring queue) {desc : PyDescriptor}
    (packs : desc.pack ≠ none) :
    (ring.put desc).1 ≠ .ok true ↔ queue.length = maxDescriptors := by
  obtain ⟨packed, packs⟩ := Option.ne_none_iff_exists'.mp packs
  have fits := represents.fits
  rw [put_eq represents packs]
  constructor
  · intro fails
    by_contra room
    exact fails (congrArg Except.ok (decide_eq_true (Nat.lt_of_le_of_ne fits room)))
  · intro full
    rw [decide_eq_false (by omega)]
    simp

theorem put_unchanged (represents : Represents ring queue) {desc : PyDescriptor}
    (fails : (ring.put desc).1 ≠ .ok true) : (ring.put desc).2 = ring := by
  rcases packs : desc.pack with _ | packed
  · rw [put_of_unpackable ring packs]
  · have isSome : desc.pack ≠ none := by
      rw [packs]
      exact Option.some_ne_none packed
    have full := (put_fails_iff represents isSome).mp fails
    rw [put_eq represents packs, drPut_of_full represents full]

/-- A get returns the oldest descriptor, and fails where there is none. -/
theorem drGet_returns (represents : Represents ring queue) : ring.drGet.1 = queue.head? := by
  cases queue with
  | nil => rw [drGet_of_empty represents, List.head?_nil]
  | cons desc queue => rw [(drGet_of_cons represents).1, List.head?_cons]

theorem drGet_unchanged (represents : Represents ring queue) (fails : ring.drGet.1 = none) :
    ring.drGet.2 = ring := by
  rw [drGet_returns represents, List.head?_eq_none_iff] at fails
  subst fails
  rw [drGet_of_empty represents]

end Failures

/-! ### Runs of calls -/

/-- A call by some caller, in one of the two languages. -/
inductive Call where
  | drPut (desc : SwDescriptorT)
  | drGet
  | put (desc : PyDescriptor)
  | get

/-- What a call gives back to its caller. -/
inductive Answer where
  | drPut (result : Int)
  | drGet (desc : Option SwDescriptorT)
  | put (result : Except RingError Bool)
  | get (result : Except RingError (Option PyDescriptor))

/-- One atomic call. -/
def DescRing.call (ring : DescRing) : Call → Answer × DescRing
  | .drPut desc => (.drPut (ring.drPut desc).1, (ring.drPut desc).2)
  | .drGet => (.drGet ring.drGet.1, ring.drGet.2)
  | .put desc => (.put (ring.put desc).1, (ring.put desc).2)
  | .get => (.get ring.get.1, ring.get.2)

/-- What the caller concludes from its answer: which descriptor is in, which is out. -/
def seen : Call → Answer → Effect PyDescriptor
  | .drPut desc, .drPut result => if result = 0 then .put desc.fields else .nothing
  | .put desc, .put (.ok true) => .put desc
  | .drGet, .drGet (some desc) => .got desc.fields
  | .get, .get (.ok (some desc)) => .got desc
  | _, _ => .nothing

/-- Calls in order: what the callers saw, and the ring after the last call. -/
def DescRing.calls : DescRing → List Call → List (Effect PyDescriptor) × DescRing
  | ring, [] => ([], ring)
  | ring, call :: rest =>
      let (answer, next) := ring.call call
      let (effects, last) := next.calls rest
      (seen call answer :: effects, last)

/-- One call moves the queue as its caller sees it. -/
theorem call_step {ring : DescRing} {queue : List SwDescriptorT}
    (represents : Represents ring queue) (call : Call) :
    ∃ queue', Represents (ring.call call).2 queue' ∧
      (seen call (ring.call call).1).Acts (queue.map SwDescriptorT.fields)
        (queue'.map SwDescriptorT.fields) := by
  cases call with
  | drPut desc =>
      rcases Nat.lt_or_ge queue.length maxDescriptors with room | full
      · obtain ⟨result, appended⟩ := drPut_of_room represents room desc
        refine ⟨queue ++ [desc], appended, ?_⟩
        rw [DescRing.call, seen, if_pos result, List.map_append]
        rfl
      · have unchanged :=
          drPut_of_full represents (Nat.le_antisymm represents.fits full) desc
        refine ⟨queue, ?_, ?_⟩
        · rw [DescRing.call, unchanged]
          exact represents
        · rw [DescRing.call, unchanged]
          rfl
  | drGet =>
      cases queue with
      | nil =>
          have unchanged := drGet_of_empty represents
          refine ⟨[], ?_, ?_⟩
          · rw [DescRing.call, unchanged]
            exact represents
          · rw [DescRing.call, unchanged]
            rfl
      | cons desc queue =>
          obtain ⟨returned, rest⟩ := drGet_of_cons represents
          refine ⟨queue, rest, ?_⟩
          rw [DescRing.call, returned]
          rfl
  | put desc =>
      rcases packs : desc.pack with _ | packed
      · have unchanged := put_of_unpackable ring packs
        refine ⟨queue, ?_, ?_⟩
        · rw [DescRing.call, unchanged]
          exact represents
        · rw [DescRing.call, unchanged]
          rfl
      · have same := put_eq represents packs
        rcases Nat.lt_or_ge queue.length maxDescriptors with room | full
        · rw [decide_eq_true room] at same
          obtain ⟨_, appended⟩ := drPut_of_room represents room (SwDescriptorT.ofBytes packed)
          refine ⟨queue ++ [SwDescriptorT.ofBytes packed], ?_, ?_⟩
          · rw [DescRing.call, same]
            exact appended
          · rw [DescRing.call, same, List.map_append, List.map_singleton,
              PyDescriptor.fields_ofBytes packs]
            rfl
        · have equal := Nat.le_antisymm represents.fits full
          rw [decide_eq_false (Nat.not_lt.mpr full), drPut_of_full represents equal] at same
          refine ⟨queue, ?_, ?_⟩
          · rw [DescRing.call, same]
            exact represents
          · rw [DescRing.call, same]
            rfl
  | get =>
      have same := get_eq represents
      cases queue with
      | nil =>
          rw [drGet_of_empty represents] at same
          refine ⟨[], ?_, ?_⟩
          · rw [DescRing.call, same]
            exact represents
          · rw [DescRing.call, same]
            rfl
      | cons desc queue =>
          obtain ⟨returned, rest⟩ := drGet_of_cons represents
          rw [returned] at same
          refine ⟨queue, ?_, ?_⟩
          · rw [DescRing.call, same]
            exact rest
          · rw [DescRing.call, same]
            rfl

/-- Calls by any mix of callers are a run of the queue. -/
theorem calls_run {ring : DescRing} {queue : List SwDescriptorT}
    (represents : Represents ring queue) (history : List Call) :
    ∃ queue', Represents (ring.calls history).2 queue' ∧
      Runs (queue.map SwDescriptorT.fields) (ring.calls history).1
        (queue'.map SwDescriptorT.fields) := by
  induction history generalizing ring queue with
  | nil => exact ⟨queue, represents, Runs.nil _⟩
  | cons call rest inductionHypothesis =>
      obtain ⟨middle, next, acts⟩ := call_step represents call
      obtain ⟨last, final, runs⟩ := inductionHypothesis next
      exact ⟨last, final, Runs.cons acts runs⟩

/-- The ring is a bounded queue for both languages: after any calls on a ring
that starts empty, the header is well formed, the descriptors got are the first
of those put, a put fails exactly on a full queue, a get on an empty one. -/
theorem ring_fifo (memory : DescRing) (history : List Call) :
    ∃ queue : List PyDescriptor,
      puts (memory.drInit.calls history).1 = gots (memory.drInit.calls history).1 ++ queue ∧
      let ring := (memory.drInit.calls history).2
      ((ring.hdr 0).toNat < maxDescriptors ∧ (ring.hdr 1).toNat < maxDescriptors ∧
        (ring.hdr 2).toNat ≤ maxDescriptors ∧ (ring.hdr 2).toNat = queue.length ∧
        (ring.hdr 1).toNat = ((ring.hdr 0).toNat + (ring.hdr 2).toNat) % maxDescriptors) ∧
      (∀ desc, ((ring.drPut desc).1 ≠ 0 ↔ queue.length = maxDescriptors) ∧
        ((ring.drPut desc).1 ≠ 0 → (ring.drPut desc).2 = ring)) ∧
      (∀ desc, desc.pack ≠ none →
        ((ring.put desc).1 ≠ .ok true ↔ queue.length = maxDescriptors)) ∧
      (∀ desc, (ring.put desc).1 ≠ .ok true → (ring.put desc).2 = ring) ∧
      (ring.drGet.1.map SwDescriptorT.fields = queue.head? ∧
        (ring.drGet.1 = none → ring.drGet.2 = ring)) ∧
      ring.get.1 = .ok queue.head? ∧ (ring.get.1 = .ok none → ring.get.2 = ring) := by
  obtain ⟨queue, represents, runs⟩ := calls_run (represents_drInit memory) history
  refine ⟨queue.map SwDescriptorT.fields, runs.fifo, ?_⟩
  generalize (memory.drInit.calls history).2 = ring at represents
  have count := represents.count
  have same := get_eq represents
  have oldest : ring.drGet.1.map SwDescriptorT.fields =
      (queue.map SwDescriptorT.fields).head? := by
    rw [drGet_returns represents, List.head?_map]
  rw [List.length_map]
  refine ⟨⟨represents.holds.head_lt, represents.tail_lt, count.trans_le represents.fits, count, ?_⟩,
    ?_, ?_, ?_, ⟨oldest, drGet_unchanged represents⟩, ?_, ?_⟩
  · rw [count]
    exact represents.tail
  · intro desc
    exact ⟨drPut_fails_iff represents desc, drPut_unchanged represents⟩
  · intro desc packs
    exact put_fails_iff represents packs
  · intro desc fails
    exact put_unchanged represents fails
  · rw [same, oldest]
  · intro fails
    rw [same] at fails ⊢
    have none := Option.map_eq_none_iff.mp (Except.ok.inj fails)
    exact drGet_unchanged represents none

end MiniMs.Dpumesh.Ring
