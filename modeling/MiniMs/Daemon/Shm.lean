import MiniMs.Daemon.Descriptors
import MiniMs.Dpumesh.Bitmap

/-!
The shared memory of a node as the DPA sees it: the pools and rings by name, and
the slots that a descriptor refers to.

Owns: `resolve_pool`, `DescriptorRing.put` over the list of a ring's
descriptors, `DMASimulator.copy_buffer`, the marked slots, and what a copy, a
free and a put do to them.

A pod's pools are named by its service; the registry may have lost the pod, and
then `resolve_pool` does not find them.
-/

namespace MiniMs.Daemon

open MiniMs.Library.Text MiniMs.Dpumesh

/-- The pools of a service. -/
inductive HostPool where
  | txHeader
  | txBody
  | rxHeader
  | rxBody
deriving DecidableEq, Repr

inductive PoolName where
  | host (service : Bytes) (pool : HostPool)
  | dpuTxHeader
  | dpuTxBody
  | dpuRxBody
deriving DecidableEq, Repr

inductive RingName where
  | tx (podId : Int)
  | rx (podId : Int)
  | sidecarTx
  | sidecarRx
deriving DecidableEq, Repr

/-- One slot of one pool. -/
structure Slot where
  pool : PoolName
  index : Nat
deriving DecidableEq, Repr

structure Shm where
  pools : PoolName → BufferPool
  rings : RingName → List SwDescriptor
  /-- The service under whose name a pod has its pools. -/
  service : Int → Bytes
  /-- The pods for which `PodRegistry.get_service` finds that name. -/
  registered : Int → Bool

namespace Shm

/-! ### Pools -/

/-- The DPU pool that a pool type names. -/
def dpuPool (poolType : Nat) : Option PoolName :=
  if poolType = PoolType.dpuTxHeader.code then some .dpuTxHeader
  else if poolType = PoolType.dpuTxBody.code then some .dpuTxBody
  else if poolType = PoolType.dpuRxBody.code then some .dpuRxBody
  else none

/-- The pool of a service that a pool type names. -/
def hostPool (poolType : Nat) : Option HostPool :=
  if poolType = PoolType.hostTxHeader.code then some .txHeader
  else if poolType = PoolType.hostTxBody.code then some .txBody
  else if poolType = PoolType.hostRxHeader.code then some .rxHeader
  else if poolType = PoolType.hostRxBody.code then some .rxBody
  else none

/-- The pool that a type and a pod stand for. -/
def poolOf (shm : Shm) (poolType : Nat) (podId : Int) : Option PoolName :=
  match dpuPool poolType with
  | some pool => some pool
  | none => (hostPool poolType).map (.host (shm.service podId))

/-- `resolve_pool`. -/
def resolvePool (shm : Shm) (poolType : Nat) (podId : Int) : Option PoolName :=
  match dpuPool poolType with
  | some pool => some pool
  | none =>
      if shm.registered podId then (hostPool poolType).map (.host (shm.service podId)) else none

/-- `BufferPool.free`. -/
def free (shm : Shm) (pool : PoolName) (slot : Int) : Shm :=
  { shm with pools := Function.update shm.pools pool ((shm.pools pool).free slot) }

/-- `DMASimulator.copy_buffer`. -/
def copyBuffer (shm : Shm) (source : PoolName) (slot : Int) (length : Nat) (target : PoolName) :
    Shm × Int :=
  if slot < 0 ∨ length = 0 then (shm, -1)
  else
    let (targetSlot, allocated) := (shm.pools target).alloc
    if targetSlot < 0 then (shm, -1)
    else
      let pools := Function.update shm.pools target allocated
      match (pools target).write targetSlot ((pools source).read slot length) with
      | .error _ =>
          ({ shm with pools := Function.update pools target ((pools target).free targetSlot) }, -1)
      | .ok (_, written) => ({ shm with pools := Function.update pools target written }, targetSlot)

/-- `DescriptorRing.put`. -/
def put (shm : Shm) (ring : RingName) (desc : SwDescriptor) : Shm × Bool :=
  if maxDescriptors ≤ (shm.rings ring).length then (shm, false)
  else ({ shm with rings := Function.update shm.rings ring (shm.rings ring ++ [desc]) }, true)

/-! ### Slots -/

/-- The bitmap marks the slot. -/
def Marked (shm : Shm) (slot : Slot) : Prop :=
  slot.index < numSlots ∧ (shm.pools slot.pool).taken slot.index = true

instance (shm : Shm) (slot : Slot) : Decidable (shm.Marked slot) := by
  unfold Marked
  infer_instance

/-- The first bytes of a slot. -/
def read (shm : Shm) (slot : Slot) (length : Nat) : Bytes :=
  (shm.pools slot.pool).read slot.index length

/-- The slot that a descriptor names as the source of its header. -/
def headerSource (shm : Shm) (desc : SwDescriptor) : Option Slot :=
  if 0 ≤ desc.srcHeaderBufSlot then
    (shm.poolOf desc.srcHeaderPoolType desc.srcHeaderPodId).map (⟨·, desc.srcHeaderBufSlot.toNat⟩)
  else none

/-- The slot that a descriptor names as the source of its body. -/
def bodySource (shm : Shm) (desc : SwDescriptor) : Option Slot :=
  if 0 ≤ desc.srcBodyBufSlot then
    (shm.poolOf desc.srcBodyPoolType desc.srcBodyPodId).map (⟨·, desc.srcBodyBufSlot.toNat⟩)
  else none

def sources (shm : Shm) (desc : SwDescriptor) : List Slot :=
  (shm.headerSource desc).toList ++ (shm.bodySource desc).toList

/-- A slot of a pool by a field that is negative where there is none. -/
def slotOf (pool : PoolName) (slot : Int) : Option Slot :=
  if 0 ≤ slot then some ⟨pool, slot.toNat⟩ else none

/-- The slots that a descriptor in a ring refers to: in an RX ring those of the
receiver, elsewhere the sources. -/
def named (shm : Shm) (ring : RingName) (desc : SwDescriptor) : List Slot :=
  match ring with
  | .rx podId =>
      (slotOf (.host (shm.service podId) .rxHeader) desc.headerBufSlot).toList ++
        (slotOf (.host (shm.service podId) .rxBody) desc.bodyBufSlot).toList
  | _ => shm.sources desc

/-! ### Resolving -/

/-- What `resolve_pool` finds is the pool. -/
theorem poolOf_of_resolvePool {shm : Shm} {poolType : Nat} {podId : Int} {pool : PoolName}
    (resolved : shm.resolvePool poolType podId = some pool) :
    shm.poolOf poolType podId = some pool := by
  unfold resolvePool at resolved
  unfold poolOf
  cases shape : dpuPool poolType with
  | some dpu =>
      rw [shape] at resolved
      exact resolved
  | none =>
      rw [shape] at resolved
      dsimp only at resolved ⊢
      split at resolved
      · exact resolved
      · contradiction

/-- The names of pools do not depend on their contents. -/
theorem sources_congr {left right : Shm} (service : left.service = right.service)
    (desc : SwDescriptor) : left.sources desc = right.sources desc := by
  unfold sources headerSource bodySource poolOf
  rw [service]

/-! ### One pool -/

/-- The memory with another region for one pool. -/
def withPool (shm : Shm) (pool : PoolName) (region : BufferPool) : Shm :=
  { shm with pools := Function.update shm.pools pool region }

@[simp] theorem withPool_rings (shm : Shm) (pool : PoolName) (region : BufferPool) :
    (shm.withPool pool region).rings = shm.rings := rfl

@[simp] theorem withPool_service (shm : Shm) (pool : PoolName) (region : BufferPool) :
    (shm.withPool pool region).service = shm.service := rfl

theorem marked_withPool_self (shm : Shm) (region : BufferPool) (slot : Slot) :
    (shm.withPool slot.pool region).Marked slot ↔
      slot.index < numSlots ∧ region.taken slot.index = true := by
  unfold Marked withPool
  dsimp only
  rw [Function.update_self]

theorem marked_withPool_of_ne (shm : Shm) {pool : PoolName} (region : BufferPool) {slot : Slot}
    (other : slot.pool ≠ pool) : (shm.withPool pool region).Marked slot ↔ shm.Marked slot := by
  unfold Marked withPool
  dsimp only
  rw [Function.update_of_ne other]

theorem slot_ext_iff {left right : Slot} (pool : left.pool = right.pool) :
    left = right ↔ left.index = right.index := by
  cases left
  cases right
  simp_all

/-- A slot of one pool is taken. -/
theorem marked_of_takes {shm : Shm} {target : Slot} {region : BufferPool}
    (takes : (shm.pools target.pool).Takes region target.index) (slot : Slot) :
    (shm.withPool target.pool region).Marked slot ↔ shm.Marked slot ∨ slot = target := by
  by_cases pool : slot.pool = target.pool
  · rw [← pool, marked_withPool_self, slot_ext_iff pool]
    unfold Marked
    constructor
    · intro ⟨inside, taken⟩
      rw [← pool] at takes
      exact ((takes.taken_iff inside).mp taken).imp (fun before => ⟨inside, before⟩) id
    · intro reason
      have inside : slot.index < numSlots := by
        rcases reason with before | same
        · exact before.1
        · rw [same]
          exact takes.inside
      rw [← pool] at takes
      exact ⟨inside, (takes.taken_iff inside).mpr (reason.imp And.right id)⟩
  · have other : slot ≠ target := fun same => pool (congrArg Slot.pool same)
    rw [marked_withPool_of_ne shm region pool]
    simp [other]

/-- A slot of one pool is freed. -/
theorem marked_of_frees {shm : Shm} {source : Slot} {region : BufferPool}
    (frees : (shm.pools source.pool).Frees region source.index) (slot : Slot) :
    (shm.withPool source.pool region).Marked slot ↔ shm.Marked slot ∧ slot ≠ source := by
  by_cases pool : slot.pool = source.pool
  · rw [← pool, marked_withPool_self, ne_eq, slot_ext_iff pool]
    rw [← pool] at frees
    unfold Marked
    constructor
    · intro ⟨inside, taken⟩
      have before := (frees.taken_iff inside).mp taken
      exact ⟨⟨inside, before.1⟩, before.2⟩
    · intro ⟨⟨inside, before⟩, other⟩
      exact ⟨inside, (frees.taken_iff inside).mpr ⟨before, other⟩⟩
  · have other : slot ≠ source := fun same => pool (congrArg Slot.pool same)
    rw [marked_withPool_of_ne shm region pool]
    simp [other]

/-! ### The operations -/

/-- A free takes one mark away. -/
theorem marked_free (shm : Shm) {source : Slot} (inside : source.index < numSlots) (slot : Slot) :
    (shm.free source.pool source.index).Marked slot ↔ shm.Marked slot ∧ slot ≠ source :=
  marked_of_frees ((shm.pools source.pool).bpFree_frees inside) slot

theorem read_mark (pool : BufferPool) {marked : Nat} (inside : marked < numSlots) (byte : UInt8)
    (slot : Int) (length : Nat) : (pool.mark marked byte).read slot length = pool.read slot length := by
  have same : ∀ count, (pool.mark marked byte).bytesAt (BufferPool.offset slot.toNat) count =
      pool.bytesAt (BufferPool.offset slot.toNat) count := by
    intro count
    apply BufferPool.bytesAt_congr
    intro address start _
    have bitmap := BufferPool.numSlots_le_offset slot.toNat
    have different : address ≠ marked := by omega
    exact Function.update_of_ne different byte pool.mm
  unfold BufferPool.read
  rw [same]

theorem read_withPool_of_ne (shm : Shm) {pool : PoolName} (region : BufferPool) {slot : Slot}
    (other : slot.pool ≠ pool) (length : Nat) :
    (shm.withPool pool region).read slot length = shm.read slot length := by
  unfold read withPool
  dsimp only
  rw [Function.update_of_ne other]

theorem read_withPool_self (shm : Shm) (region : BufferPool) (slot : Slot) (length : Nat) :
    (shm.withPool slot.pool region).read slot length = region.read slot.index length := by
  unfold read withPool
  dsimp only
  rw [Function.update_self]

/-- A free leaves the bytes of every slot. -/
theorem read_free (shm : Shm) {source : Slot} (inside : source.index < numSlots) (slot : Slot)
    (length : Nat) :
    (shm.free source.pool source.index).read slot length = shm.read slot length := by
  have range : ¬ ((source.index : Int) < 0 ∨ (numSlots : Int) ≤ source.index) := by omega
  have freed : shm.free source.pool source.index =
      shm.withPool source.pool ((shm.pools source.pool).mark source.index 0) :=
    congrArg (shm.withPool source.pool) (if_neg range)
  rw [freed]
  by_cases pool : slot.pool = source.pool
  · rw [← pool, read_withPool_self]
    exact read_mark _ inside 0 _ _
  · exact read_withPool_of_ne shm _ pool length

/-- A slot is newly taken and holds the first bytes of another one; the rest is
as it was. -/
structure Copied (before after : Shm) (source : Slot) (length : Nat) (target : Slot) : Prop where
  fresh : ¬ before.Marked target
  inside : target.index < numSlots
  marked : ∀ slot, after.Marked slot ↔ before.Marked slot ∨ slot = target
  bytes : after.read target length = before.read source length
  others : ∀ slot ≠ target, ∀ count, after.read slot count = before.read slot count
  rings : after.rings = before.rings
  service : after.service = before.service
  registered : after.registered = before.registered

theorem Copied.not_full {before after : Shm} {source target : Slot} {length : Nat}
    (copied : Copied before after source length target) : ¬ (before.pools target.pool).Full :=
  fun full => copied.fresh ⟨copied.inside, full _ copied.inside⟩

theorem length_read (pool : BufferPool) {slot : Nat} (inside : slot < numSlots) (length : Nat) :
    (pool.read slot length).length = min length slotSize := by
  have range : ¬ ((slot : Int) < 0 ∨ (numSlots : Int) ≤ slot) := by omega
  unfold BufferPool.read
  rw [if_neg range, BufferPool.length_bytesAt]

/-- What a slot holds after a write to it. -/
theorem read_copyIn (pool : BufferPool) {slot : Nat} (inside : slot < numSlots) {data : Bytes}
    {length : Nat} (whole : data.length = min length slotSize) :
    (pool.copyIn (BufferPool.offset slot) data).read slot length = data := by
  have range : ¬ ((slot : Int) < 0 ∨ (numSlots : Int) ≤ slot) := by omega
  unfold BufferPool.read
  rw [if_neg range, ← whole]
  exact BufferPool.bytesAt_copyIn pool _ data

/-- A write to one slot leaves the others. -/
theorem read_copyIn_of_ne (pool : BufferPool) {written slot : Nat} (different : slot ≠ written)
    {data : Bytes} (fits : data.length ≤ slotSize) (length : Nat) :
    (pool.copyIn (BufferPool.offset written) data).read slot length = pool.read slot length := by
  have same : (pool.copyIn (BufferPool.offset written) data).bytesAt
      (BufferPool.offset slot) (min length slotSize) =
        pool.bytesAt (BufferPool.offset slot) (min length slotSize) := by
    apply BufferPool.bytesAt_congr
    intro address start below
    apply BufferPool.copyIn_outside
    have apart := BufferPool.offset_disjoint different
    have short := Nat.min_le_right length slotSize
    omega
  unfold BufferPool.read
  rw [Int.toNat_natCast, same]

/-- The two ways `copy_buffer` returns for a slot and a length that are there. -/
theorem copyBuffer_cases (shm : Shm) {source : Slot} (inside : source.index < numSlots)
    {length : Nat} (positive : 0 < length) (target : PoolName) :
    ((shm.pools target).Full ∧
        shm.copyBuffer source.pool source.index length target = (shm, -1)) ∨
      ∃ (after : Shm) (index : Nat),
        shm.copyBuffer source.pool source.index length target = (after, (index : Int)) ∧
          Copied shm after source length ⟨target, index⟩ := by
  have there : ¬ ((source.index : Int) < 0 ∨ length = 0) := by omega
  unfold copyBuffer
  rw [if_neg there]
  unfold BufferPool.alloc
  rcases (shm.pools target).bpAlloc_cases with ⟨index, alloc, takes⟩ | ⟨full, alloc⟩
  · right
    let region := (shm.pools target).mark index 1
    let data := (shm.withPool target region |>.pools source.pool).read source.index length
    have noSlot : ¬ (index : Int) < 0 := by omega
    have data_eq : data = shm.read source length := by
      show (shm.withPool target region).read source length = _
      by_cases pool : source.pool = target
      · rw [← pool, read_withPool_self]
        show ((shm.pools target).mark index 1).read source.index length = _
        rw [read_mark _ takes.inside, ← pool]
        rfl
      · exact read_withPool_of_ne shm region pool length
    have size : data.length = min length slotSize := by
      rw [data_eq]
      exact length_read _ inside length
    have fits : data.length ≤ slotSize := by
      rw [size]
      exact Nat.min_le_right _ _
    have range : ¬ ((index : Int) < 0 ∨ (numSlots : Int) ≤ index) := by
      have := takes.inside
      omega
    have written : ((shm.pools target).mark index 1).write index
        ((Function.update shm.pools target ((shm.pools target).mark index 1) source.pool).read
          source.index length) =
        .ok (data.length, region.copyIn (BufferPool.offset index) data) := by
      show region.write index data = _
      unfold BufferPool.write
      rw [if_neg range, if_neg (by omega)]
      rfl
    have final := takes.trans_same (BufferPool.copyIn_same region index data)
    have isFree := takes.free
    rw [alloc]
    dsimp only
    rw [if_neg noSlot, Function.update_self, written]
    dsimp only
    rw [Function.update_idem]
    refine ⟨shm.withPool target (region.copyIn (BufferPool.offset index) data), index, rfl, ?_⟩
    constructor
    · intro marked
      have taken := marked.2
      rw [isFree] at taken
      contradiction
    · exact takes.inside
    · exact fun slot => @marked_of_takes shm ⟨target, index⟩ _ final slot
    · rw [← data_eq]
      exact (read_withPool_self shm _ ⟨target, index⟩ length).trans
        (read_copyIn region takes.inside size)
    · intro slot other count
      by_cases pool : slot.pool = target
      · have different : slot.index ≠ index := by
          intro same
          exact other ((slot_ext_iff pool).mpr same)
        rw [← pool, read_withPool_self, read_copyIn_of_ne region different fits]
        show ((shm.pools target).mark index 1).read slot.index count = _
        rw [read_mark _ takes.inside, ← pool]
        rfl
      · exact read_withPool_of_ne shm _ pool count
    · rfl
    · rfl
    · rfl
  · left
    have negative : (-1 : Int) < 0 := by decide
    rw [alloc]
    dsimp only
    rw [if_pos negative]
    exact ⟨full, rfl⟩

end Shm

end MiniMs.Daemon
