import MiniMs.Daemon.Shm

/-!
The three DMA steps of the DPA.

Owns: `_handle_host_tx`, `_dma_case2` and `_dma_case3` over the shared memory,
the three ways a step may end, and the condition under which it ends in one of
them.

A step is one call, with nothing of other processes in between. The resources of
a pod are those of its service.
-/

namespace MiniMs.Daemon.Dma

open MiniMs.Library.Text MiniMs.Dpumesh

/-! ### The steps -/

/-- The pool that `_handle_host_tx` copies a header from. -/
def txHeaderPool (shm : Shm) (desc : SwDescriptor) : Option PoolName :=
  if 0 ≤ desc.headerBufSlot ∧ 0 < desc.headerLen then
    shm.resolvePool desc.srcHeaderPoolType desc.srcHeaderPodId
  else none

/-- The pool that both cases copy a body from. -/
def bodyPool (shm : Shm) (desc : SwDescriptor) : Option PoolName :=
  if 0 ≤ desc.srcBodyBufSlot ∧ 0 < desc.bodyLen then
    shm.resolvePool desc.srcBodyPoolType desc.srcBodyPodId
  else none

/-- The pool that `_dma_case3` copies a header from. -/
def headerPool (shm : Shm) (desc : SwDescriptor) : Option PoolName :=
  if 0 ≤ desc.srcHeaderBufSlot ∧ 0 < desc.headerLen then
    shm.resolvePool desc.srcHeaderPoolType desc.srcHeaderPodId
  else none

/-- Free a slot that was allocated before the step went wrong. -/
def release (shm : Shm) (pool : PoolName) (slot : Int) : Shm :=
  if 0 ≤ slot then shm.free pool slot else shm

/-- The end of `_handle_host_tx`. -/
def forward (shm : Shm) (desc : SwDescriptor) (dpuHeaderSlot : Int) : Shm :=
  let (shm, accepted) := shm.put .sidecarTx (sidecarDesc desc dpuHeaderSlot)
  if accepted then shm else release shm .dpuTxHeader dpuHeaderSlot

/-- `_handle_host_tx` for a descriptor of a pod's TX ring. -/
def handleHostTx (shm : Shm) (desc : SwDescriptor) (podId : Int) : Shm :=
  match txHeaderPool shm desc with
  | some pool =>
      let (shm, slot) := shm.copyBuffer pool desc.srcHeaderBufSlot desc.headerLen .dpuTxHeader
      if slot < 0 then (shm.put (.tx podId) desc).1
      else forward (shm.free pool desc.srcHeaderBufSlot) desc slot
  | none => forward shm desc (-1)

def rxHeader (shm : Shm) (podId : Int) : PoolName := .host (shm.service podId) .rxHeader

def rxBody (shm : Shm) (podId : Int) : PoolName := .host (shm.service podId) .rxBody

/-- The end of `_dma_case2`. -/
def deliverCase2 (shm : Shm) (desc : SwDescriptor) (podId : Int) (hostBodySlot : Int) : Shm :=
  let (shm, accepted) := shm.put (.rx podId) (case2RxDesc desc hostBodySlot)
  if accepted then shm else release shm (rxBody shm podId) hostBodySlot

/-- `_dma_case2` for a descriptor of the sidecar's RX ring. -/
def dmaCase2 (shm : Shm) (desc : SwDescriptor) (podId : Int) : Shm :=
  match bodyPool shm desc with
  | some pool =>
      let (shm, slot) := shm.copyBuffer pool desc.srcBodyBufSlot desc.bodyLen (rxBody shm podId)
      if slot < 0 then (shm.put .sidecarRx desc).1
      else deliverCase2 (shm.free pool desc.srcBodyBufSlot) desc podId slot
  | none => deliverCase2 shm desc podId (-1)

/-- The end of `_dma_case3`. -/
def deliverCase3 (shm : Shm) (desc : SwDescriptor) (podId : Int)
    (hostHeaderSlot hostBodySlot : Int) : Shm :=
  let (shm, accepted) := shm.put (.rx podId) (case3RxDesc desc hostHeaderSlot hostBodySlot)
  if accepted then shm
  else
    release (release shm (rxBody shm podId) hostBodySlot) (rxHeader shm podId) hostHeaderSlot

/-- The second copy of `_dma_case3`. -/
def moveHeader (shm : Shm) (desc : SwDescriptor) (podId : Int) (hostBodySlot : Int) : Shm :=
  match headerPool shm desc with
  | some pool =>
      let (shm, slot) :=
        shm.copyBuffer pool desc.srcHeaderBufSlot desc.headerLen (rxHeader shm podId)
      if slot < 0 then release shm (rxBody shm podId) hostBodySlot
      else deliverCase3 (shm.free pool desc.srcHeaderBufSlot) desc podId slot hostBodySlot
  | none => deliverCase3 shm desc podId (-1) hostBodySlot

/-- `_dma_case3` for a descriptor of the sidecar's RX ring. -/
def dmaCase3 (shm : Shm) (desc : SwDescriptor) (podId : Int) : Shm :=
  match bodyPool shm desc with
  | some pool =>
      let (shm, slot) := shm.copyBuffer pool desc.srcBodyBufSlot desc.bodyLen (rxBody shm podId)
      if slot < 0 then (shm.put .sidecarRx desc).1
      else moveHeader (shm.free pool desc.srcBodyBufSlot) desc podId slot
  | none => moveHeader shm desc podId (-1)

/-- The steps, each with the pod whose resources it is given. -/
inductive Step where
  | hostTx (podId : Int)
  | case2 (podId : Int)
  | case3 (podId : Int)
deriving DecidableEq, Repr

namespace Step

def run (shm : Shm) (desc : SwDescriptor) : Step → Shm
  | .hostTx podId => handleHostTx shm desc podId
  | .case2 podId => dmaCase2 shm desc podId
  | .case3 podId => dmaCase3 shm desc podId

/-- The ring that the descriptor was taken from. -/
def own : Step → RingName
  | .hostTx podId => .tx podId
  | .case2 _ => .sidecarRx
  | .case3 _ => .sidecarRx

/-- The ring that the message goes to. -/
def next : Step → RingName
  | .hostTx _ => .sidecarTx
  | .case2 podId => .rx podId
  | .case3 podId => .rx podId

end Step

/-! ### The property and the condition -/

/-- The bytes of one slot, copied to another. -/
structure Copy where
  source : Slot
  length : Nat
  target : Slot
deriving DecidableEq, Repr

/-- The sources of the copies are free and the targets newly taken, with the
bytes of their sources. A target may be a slot that an earlier copy freed. -/
structure Relocated (before after : Shm) (copies : List Copy) : Prop where
  marked : ∀ slot, after.Marked slot ↔
    (before.Marked slot ∧ slot ∉ copies.map Copy.source) ∨ slot ∈ copies.map Copy.target
  fresh : ∀ copy ∈ copies, before.Marked copy.target → copy.target ∈ copies.map Copy.source
  bytes : ∀ copy ∈ copies,
    after.read copy.target copy.length = before.read copy.source copy.length
  others : ∀ slot ∉ copies.map Copy.target, ∀ count,
    after.read slot count = before.read slot count

/-- The header or the body of a message. -/
def Copy.Of (shm : Shm) (desc : SwDescriptor) (copy : Copy) : Prop :=
  (shm.headerSource desc = some copy.source ∧ copy.length = desc.headerLen) ∨
    (shm.bodySource desc = some copy.source ∧ copy.length = desc.bodyLen)

/-- The message has moved: one descriptor is put in the next ring, which names
the slots that were newly taken, and each source slot was copied and freed or is
still named. -/
def Moved (before after : Shm) (desc : SwDescriptor) (next : RingName) : Prop :=
  ∃ moved copies,
    after.rings = Function.update before.rings next (before.rings next ++ [moved]) ∧
      Relocated before after copies ∧
      (∀ copy ∈ copies, copy.Of before desc ∧ copy.target ∈ before.named next moved) ∧
      ∀ slot ∈ before.sources desc,
        slot ∈ copies.map Copy.source ∨ slot ∈ before.named next moved

/-- The descriptor is back in its ring and every bitmap as it was. -/
def Deferred (before after : Shm) (desc : SwDescriptor) (own : RingName) : Prop :=
  after.rings = Function.update before.rings own (before.rings own ++ [desc]) ∧
    ∀ pool, (before.pools pool).SameBitmap (after.pools pool)

/-- The descriptor is gone, and every slot it referred to is free. -/
def Dropped (before after : Shm) (desc : SwDescriptor) : Prop :=
  after.rings = before.rings ∧
    ∀ slot, after.Marked slot ↔ before.Marked slot ∧ slot ∉ before.sources desc

/-- No slot is left marked that no descriptor refers to; slots that were marked
before and are not of this message are not the step's. -/
def NoLeak (before after : Shm) (desc : SwDescriptor) : Prop :=
  ∀ slot, after.Marked slot →
    (before.Marked slot ∧ slot ∉ before.sources desc) ∨
      ∃ ring, ∃ other ∈ after.rings ring, slot ∈ after.named ring other

/-- All or nothing. -/
def Settled (before after : Shm) (desc : SwDescriptor) (own next : RingName) : Prop :=
  (Moved before after desc next ∨ Deferred before after desc own ∨ Dropped before after desc) ∧
    NoLeak before after desc

def Step.Settles (step : Step) (shm : Shm) (desc : SwDescriptor) : Prop :=
  Settled shm (step.run shm desc) desc step.own step.next

/-- The source slots of a descriptor are allocated, one for each part. -/
structure Allocated (shm : Shm) (desc : SwDescriptor) : Prop where
  marked : ∀ slot ∈ shm.sources desc, shm.Marked slot
  distinct : (shm.sources desc).Nodup

/-- The ring can take a descriptor. -/
def HasRoom (shm : Shm) (ring : RingName) : Prop := (shm.rings ring).length < maxDescriptors

instance (shm : Shm) (ring : RingName) : Decidable (HasRoom shm ring) := by
  unfold HasRoom
  infer_instance

/-- The receiver has no header slot to give, the one that a moved body may have
left included. -/
def NoHeaderSlot (shm : Shm) (desc : SwDescriptor) (podId : Int) : Prop :=
  ∀ index < numSlots, shm.Marked ⟨rxHeader shm podId, index⟩ ∧
    ¬ ((bodyPool shm desc).isSome ∧ shm.bodySource desc = some ⟨rxHeader shm podId, index⟩)

instance (shm : Shm) (desc : SwDescriptor) (podId : Int) :
    Decidable (NoHeaderSlot shm desc podId) := by
  unfold NoHeaderSlot
  infer_instance

/-- What the message has is found, and no ring or pool is full at a point where
the step cannot go back. -/
def Step.Clear (shm : Shm) (desc : SwDescriptor) : Step → Prop
  | .hostTx podId =>
      if (txHeaderPool shm desc).isSome ∧
          (desc.srcHeaderBufSlot < 0 ∨ (shm.pools .dpuTxHeader).Full) then
        HasRoom shm (.tx podId) ∨ shm.sources desc = []
      else
        (shm.headerSource desc = none ∨ (txHeaderPool shm desc).isSome) ∧
          (HasRoom shm .sidecarTx ∨ shm.bodySource desc = none)
  | .case2 podId =>
      if (bodyPool shm desc).isSome ∧ (shm.pools (rxBody shm podId)).Full then
        HasRoom shm .sidecarRx
      else
        shm.headerSource desc = none ∧
          (shm.bodySource desc = none ∨ (bodyPool shm desc).isSome)
  | .case3 podId =>
      if (bodyPool shm desc).isSome ∧ (shm.pools (rxBody shm podId)).Full then
        HasRoom shm .sidecarRx
      else
        (shm.bodySource desc = none ∨ (bodyPool shm desc).isSome) ∧
          (shm.headerSource desc = none ∨
            (headerPool shm desc).isSome ∧ ¬ NoHeaderSlot shm desc podId)

/-! ### Relocations -/

theorem Relocated.refl (shm : Shm) : Relocated shm shm [] where
  marked := by simp
  fresh := by simp
  bytes := by simp
  others := fun _ _ _ => rfl

/-- One more copy, and its source freed. -/
theorem Relocated.snoc {before between copied : Shm} {copies : List Copy}
    (relocated : Relocated before between copies) (copy : Copy)
    (step : between.Copied copied copy.source copy.length copy.target)
    (held : before.Marked copy.source) (other : copy.source ∉ copies.map Copy.source) :
    Relocated before (copied.free copy.source.pool copy.source.index) (copies ++ [copy]) := by
  have notTarget : copy.source ∉ copies.map Copy.target := by
    intro member
    obtain ⟨earlier, present, same⟩ := List.mem_map.mp member
    rw [← same] at held
    have freed := relocated.fresh earlier present held
    rw [same] at freed
    exact other freed
  have there : between.Marked copy.source :=
    (relocated.marked copy.source).mpr (Or.inl ⟨held, other⟩)
  have different : copy.target ≠ copy.source := by
    intro same
    have fresh := step.fresh
    rw [same] at fresh
    exact fresh there
  have inside : copy.source.index < numSlots := there.1
  constructor
  · intro slot
    rw [Shm.marked_free copied inside, step.marked, relocated.marked]
    simp only [List.map_append, List.map_cons, List.map_nil, List.mem_append, List.mem_singleton]
    constructor
    · intro ⟨reason, notSource⟩
      rcases reason with (⟨marked, kept⟩ | target) | new
      · exact Or.inl ⟨marked, fun freed => freed.elim kept notSource⟩
      · exact Or.inr (Or.inl target)
      · exact Or.inr (Or.inr new)
    · intro reason
      rcases reason with ⟨marked, kept⟩ | target | new
      · exact ⟨Or.inl (Or.inl ⟨marked, fun freed => kept (Or.inl freed)⟩),
          fun same => kept (Or.inr same)⟩
      · refine ⟨Or.inl (Or.inr target), ?_⟩
        intro same
        rw [same] at target
        exact notTarget target
      · refine ⟨Or.inr new, ?_⟩
        rw [new]
        exact different
  · intro earlier member marked
    rw [List.map_append, List.mem_append]
    rcases List.mem_append.mp member with present | last
    · exact Or.inl (relocated.fresh earlier present marked)
    · rw [List.mem_singleton.mp last] at marked ⊢
      by_cases freed : copy.target ∈ copies.map Copy.source
      · exact Or.inl freed
      · exact absurd ((relocated.marked copy.target).mpr (Or.inl ⟨marked, freed⟩)) step.fresh
  · intro earlier member
    rw [Shm.read_free copied inside]
    rcases List.mem_append.mp member with present | last
    · have target : earlier.target ∈ copies.map Copy.target := List.mem_map_of_mem present
      have apart : earlier.target ≠ copy.target := by
        intro same
        have marked := (relocated.marked earlier.target).mpr (Or.inr target)
        rw [same] at marked
        exact step.fresh marked
      rw [step.others _ apart]
      exact relocated.bytes earlier present
    · rw [List.mem_singleton.mp last, step.bytes]
      exact relocated.others _ notTarget _
  · intro slot untouched count
    rw [List.map_append, List.mem_append, not_or] at untouched
    have apart : slot ≠ copy.target := by simpa using untouched.2
    rw [Shm.read_free copied inside, step.others slot apart]
    exact relocated.others slot untouched.1 count

/-! ### The ways to end -/

theorem named_congr {left right : Shm} (service : left.service = right.service)
    (ring : RingName) (desc : SwDescriptor) : left.named ring desc = right.named ring desc := by
  unfold Shm.named
  rw [service, Shm.sources_congr service]

/-- The ways to end differ in the rings. -/
theorem append_ne_self {rings : RingName → List SwDescriptor} {ring : RingName}
    {desc : SwDescriptor} : Function.update rings ring (rings ring ++ [desc]) ≠ rings := by
  intro same
  have entry := congrFun same ring
  rw [Function.update_self] at entry
  have length := congrArg List.length entry
  simp at length

theorem append_ne_append {rings : RingName → List SwDescriptor} {ring other : RingName}
    (different : ring ≠ other) {desc desc' : SwDescriptor} :
    Function.update rings ring (rings ring ++ [desc]) ≠
      Function.update rings other (rings other ++ [desc']) := by
  intro same
  have entry := congrFun same ring
  rw [Function.update_self, Function.update_of_ne different] at entry
  have length := congrArg List.length entry
  simp at length

section

variable {before after : Shm} {desc : SwDescriptor} {own next : RingName}

/-- A message that has moved leaves no slot behind. -/
theorem Moved.noLeak (moved : Moved before after desc next)
    (service : after.service = before.service) : NoLeak before after desc := by
  obtain ⟨successor, copies, rings, relocated, copied, whole⟩ := moved
  have present : successor ∈ after.rings next := by
    rw [rings, Function.update_self]
    simp
  have names := named_congr service next successor
  intro slot marked
  rcases (relocated.marked slot).mp marked with ⟨held, kept⟩ | target
  · by_cases source : slot ∈ before.sources desc
    · refine Or.inr ⟨next, successor, present, ?_⟩
      rw [names]
      exact (whole slot source).resolve_left kept
    · exact Or.inl ⟨held, source⟩
  · obtain ⟨copy, member, same⟩ := List.mem_map.mp target
    refine Or.inr ⟨next, successor, present, ?_⟩
    rw [names, ← same]
    exact (copied copy member).2

theorem Deferred.noLeak (deferred : Deferred before after desc own)
    (service : after.service = before.service)
    (names : before.named own desc = before.sources desc) : NoLeak before after desc := by
  obtain ⟨rings, bitmaps⟩ := deferred
  have present : desc ∈ after.rings own := by
    rw [rings, Function.update_self]
    simp
  intro slot marked
  by_cases source : slot ∈ before.sources desc
  · refine Or.inr ⟨own, desc, present, ?_⟩
    rw [named_congr service, names]
    exact source
  · refine Or.inl ⟨⟨marked.1, ?_⟩, source⟩
    rw [← (bitmaps slot.pool).taken_eq marked.1]
    exact marked.2

theorem Dropped.noLeak (dropped : Dropped before after desc) : NoLeak before after desc :=
  fun slot marked => Or.inl ((dropped.2 slot).mp marked)

/-- A step that has put a descriptor in the next ring has to have taken every
source along. -/
theorem settled_iff_of_moved {moved : SwDescriptor} {copies : List Copy} (different : own ≠ next)
    (rings : after.rings = Function.update before.rings next (before.rings next ++ [moved]))
    (service : after.service = before.service) (relocated : Relocated before after copies)
    (copied : ∀ copy ∈ copies, copy.Of before desc ∧ copy.target ∈ before.named next moved)
    (allocated : Allocated before desc) :
    Settled before after desc own next ↔
      ∀ slot ∈ before.sources desc,
        slot ∈ copies.map Copy.source ∨ slot ∈ before.named next moved := by
  constructor
  · intro ⟨way, _⟩ slot source
    rcases way with ⟨successor, copies', rings', relocated', copied', whole⟩ | ⟨rings', _⟩ | ⟨rings', _⟩
    · have same : successor = moved := by
        have entry := congrFun (rings'.symm.trans rings) next
        rw [Function.update_self, Function.update_self] at entry
        exact List.singleton_inj.mp (List.append_cancel_left entry)
      rw [same] at copied' whole
      by_cases freed : slot ∈ copies.map Copy.source
      · exact Or.inl freed
      · -- The slot is still marked, so the other copies have not freed it either.
        have marked := (relocated.marked slot).mpr (Or.inl ⟨allocated.marked slot source, freed⟩)
        rcases (relocated'.marked slot).mp marked with ⟨_, kept⟩ | target
        · exact Or.inr ((whole slot source).resolve_left kept)
        · obtain ⟨copy, member, named⟩ := List.mem_map.mp target
          rw [← named]
          exact Or.inr (copied' copy member).2
    · exact absurd (rings'.symm.trans rings) (append_ne_append different)
    · exact absurd (rings.symm.trans rings') append_ne_self
  · intro whole
    have way : Moved before after desc next := ⟨moved, copies, rings, relocated, copied, whole⟩
    exact ⟨Or.inl way, way.noLeak service⟩

/-- A step that has put no descriptor anywhere has to have freed every source. -/
theorem settled_iff_of_lost {freed : List Slot} (rings : after.rings = before.rings)
    (marked : ∀ slot, after.Marked slot ↔ before.Marked slot ∧ slot ∉ freed)
    (within : ∀ slot ∈ freed, slot ∈ before.sources desc) (allocated : Allocated before desc) :
    Settled before after desc own next ↔ ∀ slot ∈ before.sources desc, slot ∈ freed := by
  constructor
  · intro ⟨way, _⟩ slot source
    rcases way with ⟨_, _, rings', _⟩ | ⟨rings', _⟩ | ⟨_, gone⟩
    · exact absurd (rings'.symm.trans rings) append_ne_self
    · exact absurd (rings'.symm.trans rings) append_ne_self
    · by_contra kept
      have there := (marked slot).mpr ⟨allocated.marked slot source, kept⟩
      exact ((gone slot).mp there).2 source
  · intro whole
    have way : Dropped before after desc := by
      refine ⟨rings, fun slot => (marked slot).trans (and_congr_right fun _ => ?_)⟩
      exact not_congr ⟨within slot, whole slot⟩
    exact ⟨Or.inr (Or.inr way), way.noLeak⟩

/-- A step that goes back needs room in the ring it came from. -/
theorem settled_iff_of_returned (allocated : Allocated before desc)
    (names : before.named own desc = before.sources desc) :
    Settled before (before.put own desc).1 desc own next ↔
      HasRoom before own ∨ before.sources desc = [] := by
  unfold Shm.put HasRoom
  by_cases room : (before.rings own).length < maxDescriptors
  · rw [if_neg (by omega)]
    have way : Deferred before
        { before with rings := Function.update before.rings own (before.rings own ++ [desc]) }
        desc own := ⟨rfl, fun pool => BufferPool.SameBitmap.refl _⟩
    exact iff_of_true ⟨Or.inr (Or.inl way), way.noLeak rfl names⟩ (Or.inl room)
  · rw [if_pos (by omega)]
    have lost := @settled_iff_of_lost before before desc own next [] rfl (by simp) (by simp) allocated
    rw [lost]
    simp [room, List.eq_nil_iff_forall_not_mem]

end

/-! ### Delivery -/

theorem marked_release (shm : Shm) (pool : PoolName) {slot : Int} (inside : slot < numSlots)
    (other : Slot) :
    (release shm pool slot).Marked other ↔
      shm.Marked other ∧ other ∉ (Shm.slotOf pool slot).toList := by
  unfold release Shm.slotOf
  by_cases there : 0 ≤ slot
  · obtain ⟨index, rfl⟩ := Int.eq_ofNat_of_zero_le there
    have below : index < numSlots := by omega
    rw [if_pos there, if_pos there, Int.toNat_natCast]
    have freed := @Shm.marked_free shm ⟨pool, index⟩ below other
    simpa using freed
  · rw [if_neg there, if_neg there]
    simp

theorem release_frame (shm : Shm) (pool : PoolName) (slot : Int) :
    (release shm pool slot).rings = shm.rings ∧ (release shm pool slot).service = shm.service := by
  unfold release
  split
  · exact ⟨rfl, rfl⟩
  · exact ⟨rfl, rfl⟩

/-- The end of a step, where the message was copied and is to be put in the next
ring; `undo` is what happens where that is full. -/
theorem settled_put_iff {before between : Shm} {undo : Shm → Shm} {desc moved : SwDescriptor}
    {own next : RingName} {copies : List Copy} (different : own ≠ next)
    (rings : between.rings = before.rings) (service : between.service = before.service)
    (relocated : Relocated before between copies)
    (copied : ∀ copy ∈ copies, copy.Of before desc ∧ copy.target ∈ before.named next moved)
    (undoneRings : (undo between).rings = between.rings)
    (undoneMarked : ∀ slot, (undo between).Marked slot ↔
      between.Marked slot ∧ slot ∉ copies.map Copy.target)
    (allocated : Allocated before desc) :
    Settled before
        (if (between.put next moved).2 then (between.put next moved).1
          else undo (between.put next moved).1)
        desc own next ↔
      if HasRoom before next then
        ∀ slot ∈ before.sources desc,
          slot ∈ copies.map Copy.source ∨ slot ∈ before.named next moved
      else ∀ slot ∈ before.sources desc, slot ∈ copies.map Copy.source := by
  unfold Shm.put
  rw [rings]
  by_cases room : HasRoom before next
  · have accepts : ¬ maxDescriptors ≤ (before.rings next).length := Nat.not_le.mpr room
    rw [if_pos room, if_neg accepts, if_pos rfl]
    exact settled_iff_of_moved different rfl service
      ⟨relocated.marked, relocated.fresh, relocated.bytes, relocated.others⟩ copied allocated
  · have refuses : maxDescriptors ≤ (before.rings next).length := Nat.not_lt.mp room
    rw [if_neg room, if_pos refuses, if_neg Bool.false_ne_true]
    apply settled_iff_of_lost (undoneRings.trans rings) _ _ allocated
    · intro slot
      rw [undoneMarked, relocated.marked]
      constructor
      · intro ⟨reason, notTarget⟩
        exact reason.resolve_right notTarget
      · intro ⟨held, kept⟩
        refine ⟨Or.inl ⟨held, kept⟩, ?_⟩
        intro target
        obtain ⟨copy, member, same⟩ := List.mem_map.mp target
        rw [← same] at held kept
        exact kept (relocated.fresh copy member held)
    · intro slot freed
      obtain ⟨copy, member, same⟩ := List.mem_map.mp freed
      unfold Shm.sources
      rw [← same, List.mem_append, Option.mem_toList, Option.mem_toList]
      exact (copied copy member).1.imp And.left And.left

/-! ### Sources -/

theorem forall_sources {shm : Shm} {desc : SwDescriptor} {property : Slot → Prop} :
    (∀ slot ∈ shm.sources desc, property slot) ↔
      (∀ slot, shm.headerSource desc = some slot → property slot) ∧
        ∀ slot, shm.bodySource desc = some slot → property slot := by
  unfold Shm.sources
  simp only [List.mem_append, Option.mem_toList, or_imp, forall_and]

theorem Allocated.apart {shm : Shm} {desc : SwDescriptor} (allocated : Allocated shm desc)
    {slot : Slot} (header : shm.headerSource desc = some slot) :
    shm.bodySource desc ≠ some slot := by
  have distinct := allocated.distinct
  unfold Shm.sources at distinct
  intro body
  rw [header, body] at distinct
  simp at distinct

theorem sources_eq_nil_iff {shm : Shm} {desc : SwDescriptor} :
    shm.sources desc = [] ↔ shm.headerSource desc = none ∧ shm.bodySource desc = none := by
  unfold Shm.sources
  rw [List.append_eq_nil_iff, Option.toList_eq_nil_iff, Option.toList_eq_nil_iff]

/-- A header that is copied comes from the slot that the descriptor names. -/
theorem headerSource_of_resolved {shm : Shm} {desc : SwDescriptor} {pool : PoolName}
    (resolved : shm.resolvePool desc.srcHeaderPoolType desc.srcHeaderPodId = some pool)
    (there : 0 ≤ desc.srcHeaderBufSlot) :
    shm.headerSource desc = some ⟨pool, desc.srcHeaderBufSlot.toNat⟩ := by
  unfold Shm.headerSource
  rw [if_pos there, Shm.poolOf_of_resolvePool resolved]
  rfl

theorem bodySource_of_bodyPool {shm : Shm} {desc : SwDescriptor} {pool : PoolName}
    (found : bodyPool shm desc = some pool) :
    0 ≤ desc.srcBodyBufSlot ∧ 0 < desc.bodyLen ∧
      shm.bodySource desc = some ⟨pool, desc.srcBodyBufSlot.toNat⟩ := by
  unfold bodyPool at found
  by_cases there : 0 ≤ desc.srcBodyBufSlot ∧ 0 < desc.bodyLen
  · rw [if_pos there] at found
    refine ⟨there.1, there.2, ?_⟩
    unfold Shm.bodySource
    rw [if_pos there.1, Shm.poolOf_of_resolvePool found]
    rfl
  · rw [if_neg there] at found
    contradiction

theorem headerSource_of_headerPool {shm : Shm} {desc : SwDescriptor} {pool : PoolName}
    (found : headerPool shm desc = some pool) :
    0 ≤ desc.srcHeaderBufSlot ∧ 0 < desc.headerLen ∧
      shm.headerSource desc = some ⟨pool, desc.srcHeaderBufSlot.toNat⟩ := by
  unfold headerPool at found
  by_cases there : 0 ≤ desc.srcHeaderBufSlot ∧ 0 < desc.headerLen
  · rw [if_pos there] at found
    exact ⟨there.1, there.2, headerSource_of_resolved found there.1⟩
  · rw [if_neg there] at found
    contradiction

theorem resolved_of_txHeaderPool {shm : Shm} {desc : SwDescriptor} {pool : PoolName}
    (found : txHeaderPool shm desc = some pool) :
    0 < desc.headerLen ∧
      shm.resolvePool desc.srcHeaderPoolType desc.srcHeaderPodId = some pool := by
  unfold txHeaderPool at found
  by_cases there : 0 ≤ desc.headerBufSlot ∧ 0 < desc.headerLen
  · rw [if_pos there] at found
    exact ⟨there.2, found⟩
  · rw [if_neg there] at found
    contradiction

/-! ### From the host to the sidecar -/

/-- The descriptor for the sidecar names the copied header and the body where it
is. -/
theorem named_sidecarDesc (shm : Shm) (desc : SwDescriptor) (slot : Int) :
    shm.named .sidecarTx (sidecarDesc desc slot) =
      (Shm.slotOf .dpuTxHeader slot).toList ++ (shm.bodySource desc).toList := by
  rfl

/-- The end of the step, for a header that was copied or was not there. -/
theorem settled_forward_iff {before between : Shm} {desc : SwDescriptor} {podId : Int} {slot : Int}
    {copies : List Copy} (inside : slot < numSlots) (rings : between.rings = before.rings)
    (service : between.service = before.service) (relocated : Relocated before between copies)
    (targets : copies.map Copy.target = (Shm.slotOf .dpuTxHeader slot).toList)
    (copied : ∀ copy ∈ copies, copy.Of before desc) (allocated : Allocated before desc) :
    Settled before (forward between desc slot) desc (.tx podId) .sidecarTx ↔
      if HasRoom before .sidecarTx then
        ∀ source ∈ before.sources desc, source ∈ copies.map Copy.source ∨
          source ∈ before.named .sidecarTx (sidecarDesc desc slot)
      else ∀ source ∈ before.sources desc, source ∈ copies.map Copy.source := by
  have frame := release_frame between .dpuTxHeader slot
  have named : ∀ copy ∈ copies,
      copy.target ∈ before.named .sidecarTx (sidecarDesc desc slot) := by
    intro copy member
    rw [named_sidecarDesc, ← targets]
    exact List.mem_append_left _ (List.mem_map_of_mem member)
  refine @settled_put_iff before between (fun shm => release shm .dpuTxHeader slot) desc
    (sidecarDesc desc slot) (.tx podId) .sidecarTx copies (by simp) rings service relocated
    (fun copy member => ⟨copied copy member, named copy member⟩) frame.1 ?_ allocated
  intro other
  rw [marked_release between .dpuTxHeader inside, targets]

theorem hostTx_settles_iff (shm : Shm) (desc : SwDescriptor) (podId : Int)
    (allocated : Allocated shm desc) :
    (Step.hostTx podId).Settles shm desc ↔ (Step.hostTx podId).Clear shm desc := by
  show Settled shm (handleHostTx shm desc podId) desc (.tx podId) .sidecarTx ↔ _
  unfold handleHostTx Step.Clear
  have returned := @settled_iff_of_returned shm desc (.tx podId) .sidecarTx allocated rfl
  cases found : txHeaderPool shm desc with
  | none =>
      have ends := @settled_forward_iff shm shm desc podId (-1) [] (by decide) rfl rfl
        (Relocated.refl shm) rfl (List.forall_mem_nil _) allocated
      have named : shm.named .sidecarTx (sidecarDesc desc (-1)) = (shm.bodySource desc).toList :=
        rfl
      simp only [Option.isSome_none, Bool.false_eq_true, false_and, ↓reduceIte, or_false]
      rw [ends, named, forall_sources, forall_sources]
      by_cases room : HasRoom shm .sidecarTx
      · rw [if_pos room]
        constructor
        · intro ⟨header, _⟩
          refine ⟨?_, Or.inl room⟩
          rw [Option.eq_none_iff_forall_ne_some]
          intro slot source
          have body := (header slot source).resolve_left List.not_mem_nil
          exact allocated.apart source (Option.mem_toList.mp body)
        · intro ⟨absent, _⟩
          refine ⟨?_, fun slot source => Or.inr (Option.mem_toList.mpr source)⟩
          intro slot source
          rw [absent] at source
          contradiction
      · rw [if_neg room]
        simp [room, Option.eq_none_iff_forall_ne_some]
  | some pool =>
      obtain ⟨positive, resolved⟩ := resolved_of_txHeaderPool found
      dsimp only
      by_cases there : 0 ≤ desc.srcHeaderBufSlot
      · have header := headerSource_of_resolved resolved there
        obtain ⟨index, shape⟩ := Int.eq_ofNat_of_zero_le there
        rw [shape, Int.toNat_natCast] at header
        have held := (forall_sources.mp allocated.marked).1 _ header
        have nonneg : ¬ desc.srcHeaderBufSlot < 0 := by omega
        rcases shm.copyBuffer_cases held.1 positive .dpuTxHeader with
          ⟨full, fails⟩ | ⟨after, target, copies, copied⟩
        · have blocked : (some pool).isSome = true ∧
              (desc.srcHeaderBufSlot < 0 ∨ (shm.pools .dpuTxHeader).Full) := ⟨rfl, Or.inr full⟩
          rw [if_pos blocked, shape, fails]
          exact returned
        · have unblocked : ¬ ((some pool).isSome = true ∧
              (desc.srcHeaderBufSlot < 0 ∨ (shm.pools .dpuTxHeader).Full)) :=
            fun blocked => blocked.2.elim nonneg copied.not_full
          let copy : Copy := ⟨⟨pool, index⟩, desc.headerLen, ⟨.dpuTxHeader, target⟩⟩
          have relocated := (Relocated.refl shm).snoc copy copied held List.not_mem_nil
          have ends := @settled_forward_iff shm (after.free pool index) desc podId target [copy]
            (Int.ofNat_lt.mpr copied.inside) copied.rings copied.service relocated rfl
            (List.forall_mem_singleton.mpr (Or.inl ⟨header, rfl⟩)) allocated
          have noTarget : ¬ (target : Int) < 0 := by omega
          rw [if_neg unblocked, shape, copies]
          dsimp only
          rw [if_neg noTarget, ends, forall_sources, forall_sources]
          by_cases room : HasRoom shm .sidecarTx
          · rw [if_pos room]
            refine iff_of_true ⟨?_, ?_⟩ ⟨Or.inr rfl, Or.inl room⟩
            · intro slot source
              rw [← Option.some.inj (header.symm.trans source)]
              exact Or.inl List.mem_cons_self
            · intro slot source
              right
              rw [named_sidecarDesc]
              exact List.mem_append_right _ (Option.mem_toList.mpr source)
          · rw [if_neg room]
            constructor
            · intro ⟨_, body⟩
              refine ⟨Or.inr rfl, Or.inr ?_⟩
              rw [Option.eq_none_iff_forall_ne_some]
              intro slot source
              have same := List.mem_singleton.mp (body slot source)
              rw [same] at source
              exact allocated.apart header source
            · intro ⟨_, reason⟩
              have absent := reason.resolve_left room
              constructor
              · intro slot source
                rw [← Option.some.inj (header.symm.trans source)]
                exact List.mem_cons_self
              · intro slot source
                rw [absent] at source
                contradiction
      · have fails : shm.copyBuffer pool desc.srcHeaderBufSlot desc.headerLen .dpuTxHeader =
            (shm, -1) := if_pos (Or.inl (by omega))
        have blocked : (some pool).isSome = true ∧
            (desc.srcHeaderBufSlot < 0 ∨ (shm.pools .dpuTxHeader).Full) :=
          ⟨rfl, Or.inl (by omega)⟩
        rw [fails, if_pos blocked]
        exact returned

/-! ### From the sidecar to a host -/

/-- The end of a step whose descriptor names the targets and nothing else. -/
theorem settled_put_targets_iff {before between : Shm} {undo : Shm → Shm}
    {desc moved : SwDescriptor} {own next : RingName} {copies : List Copy} (different : own ≠ next)
    (rings : between.rings = before.rings) (service : between.service = before.service)
    (relocated : Relocated before between copies) (copied : ∀ copy ∈ copies, copy.Of before desc)
    (targets : ∀ slot, slot ∈ before.named next moved ↔ slot ∈ copies.map Copy.target)
    (undoneRings : (undo between).rings = between.rings)
    (undoneMarked : ∀ slot, (undo between).Marked slot ↔
      between.Marked slot ∧ slot ∉ before.named next moved)
    (allocated : Allocated before desc) :
    Settled before
        (if (between.put next moved).2 then (between.put next moved).1
          else undo (between.put next moved).1)
        desc own next ↔
      ∀ slot ∈ before.sources desc, slot ∈ copies.map Copy.source := by
  have ends := @settled_put_iff before between undo desc moved own next copies different rings
    service relocated
    (fun copy member => ⟨copied copy member, (targets _).mpr (List.mem_map_of_mem member)⟩)
    undoneRings (fun slot => (undoneMarked slot).trans (and_congr_right fun _ =>
      not_congr (targets slot))) allocated
  have freed : ∀ slot ∈ before.sources desc,
      (slot ∈ copies.map Copy.source ∨ slot ∈ before.named next moved ↔
        slot ∈ copies.map Copy.source) := by
    intro slot source
    refine or_iff_left_of_imp fun name => ?_
    obtain ⟨copy, member, same⟩ := List.mem_map.mp ((targets slot).mp name)
    have held := allocated.marked slot source
    rw [← same] at held ⊢
    exact relocated.fresh copy member held
  rw [ends]
  split
  · exact forall₂_congr freed
  · exact Iff.rfl

/-- Every source is the body. -/
theorem forall_sources_body_iff {shm : Shm} {desc : SwDescriptor} {freed : List Slot}
    (within : ∀ slot ∈ freed, shm.bodySource desc = some slot) (allocated : Allocated shm desc) :
    (∀ slot ∈ shm.sources desc, slot ∈ freed) ↔
      shm.headerSource desc = none ∧ ∀ slot, shm.bodySource desc = some slot → slot ∈ freed := by
  rw [forall_sources]
  refine and_congr_left fun _ => ?_
  rw [Option.eq_none_iff_forall_ne_some]
  constructor
  · intro header slot source
    exact allocated.apart source (within slot (header slot source))
  · intro absent slot source
    exact absurd source (absent slot)

/-- A copied body. -/
def bodyCopy (desc : SwDescriptor) (source target : Slot) : Copy := ⟨source, desc.bodyLen, target⟩

/-- The first half of both cases: the body is not there, is to go back, or has
moved. -/
theorem body_cases (shm : Shm) (desc : SwDescriptor) (podId : Int) (allocated : Allocated shm desc) :
    (bodyPool shm desc = none) ∨
      ∃ pool index, bodyPool shm desc = some pool ∧ desc.srcBodyBufSlot = (index : Nat) ∧
        shm.bodySource desc = some ⟨pool, index⟩ ∧ shm.Marked ⟨pool, index⟩ ∧
        (((shm.pools (rxBody shm podId)).Full ∧
            shm.copyBuffer pool index desc.bodyLen (rxBody shm podId) = (shm, -1)) ∨
          ∃ (copied : Shm) (target : Nat),
            shm.copyBuffer pool index desc.bodyLen (rxBody shm podId) = (copied, (target : Int)) ∧
              shm.Copied copied ⟨pool, index⟩ desc.bodyLen ⟨rxBody shm podId, target⟩) := by
  cases found : bodyPool shm desc with
  | none => exact Or.inl rfl
  | some pool =>
      obtain ⟨there, positive, body⟩ := bodySource_of_bodyPool found
      obtain ⟨index, shape⟩ := Int.eq_ofNat_of_zero_le there
      rw [shape, Int.toNat_natCast] at body
      have held := (forall_sources.mp allocated.marked).2 _ body
      exact Or.inr ⟨pool, index, rfl, shape, body, held,
        shm.copyBuffer_cases held.1 positive (rxBody shm podId)⟩

theorem settled_deliverCase2_iff {before between : Shm} {desc : SwDescriptor} {podId : Int}
    {slot : Int} {copies : List Copy} (inside : slot < numSlots)
    (rings : between.rings = before.rings) (service : between.service = before.service)
    (relocated : Relocated before between copies)
    (targets : copies.map Copy.target = (Shm.slotOf (rxBody before podId) slot).toList)
    (copied : ∀ copy ∈ copies, copy.Of before desc) (allocated : Allocated before desc) :
    Settled before (deliverCase2 between desc podId slot) desc .sidecarRx (.rx podId) ↔
      ∀ source ∈ before.sources desc, source ∈ copies.map Copy.source := by
  have names : before.named (.rx podId) (case2RxDesc desc slot) =
      (Shm.slotOf (rxBody before podId) slot).toList := rfl
  have frame := release_frame between (rxBody between podId) slot
  refine @settled_put_targets_iff before between (fun shm => release shm (rxBody shm podId) slot)
    desc (case2RxDesc desc slot) .sidecarRx (.rx podId) copies (by simp) rings service relocated
    copied (fun _ => by rw [names, targets]) frame.1 ?_ allocated
  intro other
  have pool : rxBody between podId = rxBody before podId := by
    unfold rxBody
    rw [service]
  rw [marked_release between _ inside, names, pool]

theorem case2_settles_iff (shm : Shm) (desc : SwDescriptor) (podId : Int)
    (allocated : Allocated shm desc) :
    (Step.case2 podId).Settles shm desc ↔ (Step.case2 podId).Clear shm desc := by
  show Settled shm (dmaCase2 shm desc podId) desc .sidecarRx (.rx podId) ↔ _
  unfold dmaCase2 Step.Clear
  rcases body_cases shm desc podId allocated with
    found | ⟨pool, index, found, shape, body, held, way⟩
  · have ends := @settled_deliverCase2_iff shm shm desc podId (-1) [] (by decide) rfl rfl
      (Relocated.refl shm) rfl (List.forall_mem_nil _) allocated
    rw [found]
    simp only [Option.isSome_none, Bool.false_eq_true, false_and, ↓reduceIte, or_false]
    refine ends.trans ((forall_sources_body_iff (List.forall_mem_nil _) allocated).trans ?_)
    simp [Option.eq_none_iff_forall_ne_some]
  · rw [found, shape]
    dsimp only
    rcases way with ⟨full, fails⟩ | ⟨after, target, copies, copied⟩
    · have blocked : (some pool).isSome = true ∧ (shm.pools (rxBody shm podId)).Full := ⟨rfl, full⟩
      have returned := @settled_iff_of_returned shm desc .sidecarRx (.rx podId) allocated rfl
      have sources : shm.sources desc ≠ [] := by
        intro empty
        rw [(sources_eq_nil_iff.mp empty).2] at body
        contradiction
      rw [if_pos blocked, fails]
      exact returned.trans (or_iff_left sources)
    · have unblocked : ¬ ((some pool).isSome = true ∧ (shm.pools (rxBody shm podId)).Full) :=
        fun blocked => copied.not_full blocked.2
      have relocated := (Relocated.refl shm).snoc
        (bodyCopy desc ⟨pool, index⟩ ⟨rxBody shm podId, target⟩) copied held
        List.not_mem_nil
      have ends := @settled_deliverCase2_iff shm (after.free pool index) desc podId target
        [bodyCopy desc ⟨pool, index⟩ ⟨rxBody shm podId, target⟩] (Int.ofNat_lt.mpr copied.inside)
        copied.rings copied.service relocated rfl
        (List.forall_mem_singleton.mpr (Or.inr ⟨body, rfl⟩)) allocated
      have noTarget : ¬ (target : Int) < 0 := by omega
      rw [if_neg unblocked, copies]
      dsimp only
      rw [if_neg noTarget]
      refine ends.trans ((forall_sources_body_iff (List.forall_mem_singleton.mpr body)
        allocated).trans (and_congr_right fun _ => iff_of_true ?_ (Or.inr rfl)))
      intro slot source
      rw [← Option.some.inj (body.symm.trans source)]
      exact List.mem_cons_self

/-! ### Case 3 -/

theorem settled_deliverCase3_iff {before between : Shm} {desc : SwDescriptor} {podId : Int}
    {headerSlot bodySlot : Int} {copies : List Copy}
    (headerInside : headerSlot < numSlots) (bodyInside : bodySlot < numSlots)
    (rings : between.rings = before.rings) (service : between.service = before.service)
    (relocated : Relocated before between copies)
    (targets : copies.map Copy.target = (Shm.slotOf (rxBody before podId) bodySlot).toList ++
      (Shm.slotOf (rxHeader before podId) headerSlot).toList)
    (copied : ∀ copy ∈ copies, copy.Of before desc) (allocated : Allocated before desc) :
    Settled before (deliverCase3 between desc podId headerSlot bodySlot) desc .sidecarRx
        (.rx podId) ↔
      ∀ source ∈ before.sources desc, source ∈ copies.map Copy.source := by
  have names : before.named (.rx podId) (case3RxDesc desc headerSlot bodySlot) =
      (Shm.slotOf (rxHeader before podId) headerSlot).toList ++
        (Shm.slotOf (rxBody before podId) bodySlot).toList := rfl
  have first := release_frame between (rxBody between podId) bodySlot
  have second := release_frame (release between (rxBody between podId) bodySlot)
    (rxHeader between podId) headerSlot
  refine @settled_put_targets_iff before between
    (fun shm => release (release shm (rxBody shm podId) bodySlot) (rxHeader shm podId) headerSlot)
    desc (case3RxDesc desc headerSlot bodySlot) .sidecarRx (.rx podId) copies (by simp) rings
    service relocated copied ?_ (second.1.trans first.1) ?_ allocated
  · intro slot
    rw [names, targets, List.mem_append, List.mem_append]
    exact or_comm
  · intro other
    have body : rxBody between podId = rxBody before podId := by
      unfold rxBody
      rw [service]
    have header : rxHeader between podId = rxHeader before podId := by
      unfold rxHeader
      rw [service]
    rw [marked_release _ _ headerInside, marked_release between _ bodyInside, names, body, header,
      List.mem_append, not_or, and_assoc]
    exact and_congr_right fun _ => and_comm

/-- The second half of the step, for a body that was moved or was not there. -/
theorem settled_moveHeader_iff {before between : Shm} {desc : SwDescriptor} {podId : Int}
    {bodySlot : Int} {copies : List Copy} (inside : bodySlot < numSlots)
    (rings : between.rings = before.rings) (service : between.service = before.service)
    (registered : between.registered = before.registered)
    (relocated : Relocated before between copies)
    (targets : copies.map Copy.target = (Shm.slotOf (rxBody before podId) bodySlot).toList)
    (copied : ∀ copy ∈ copies, before.bodySource desc = some copy.source ∧
      copy.length = desc.bodyLen)
    (allocated : Allocated before desc) :
    Settled before (moveHeader between desc podId bodySlot) desc .sidecarRx (.rx podId) ↔
      (∀ slot, before.bodySource desc = some slot → slot ∈ copies.map Copy.source) ∧
        (before.headerSource desc = none ∨
          (headerPool before desc).isSome ∧ ¬ (between.pools (rxHeader before podId)).Full) := by
  have samePool : headerPool between desc = headerPool before desc := by
    unfold headerPool Shm.resolvePool
    rw [service, registered]
  have header : rxHeader between podId = rxHeader before podId := by
    unfold rxHeader
    rw [service]
  have body : rxBody between podId = rxBody before podId := by
    unfold rxBody
    rw [service]
  have within : ∀ slot ∈ copies.map Copy.source, before.bodySource desc = some slot := by
    intro slot freed
    obtain ⟨copy, member, same⟩ := List.mem_map.mp freed
    rw [← same]
    exact (copied copy member).1
  have ofBody : ∀ copy ∈ copies, copy.Of before desc :=
    fun copy member => Or.inr (copied copy member)
  unfold moveHeader
  rw [samePool, header]
  cases found : headerPool before desc with
  | none =>
      have ends := @settled_deliverCase3_iff before between desc podId (-1) bodySlot copies
        (by decide) inside rings service relocated (targets.trans (List.append_nil _).symm) ofBody
        allocated
      dsimp only
      rw [ends, forall_sources_body_iff within allocated]
      simp [and_comm]
  | some pool =>
      obtain ⟨there, positive, source⟩ := headerSource_of_headerPool found
      obtain ⟨index, shape⟩ := Int.eq_ofNat_of_zero_le there
      rw [shape, Int.toNat_natCast] at source
      have held := (forall_sources.mp allocated.marked).1 _ source
      have notFreed : (⟨pool, index⟩ : Slot) ∉ copies.map Copy.source :=
        fun freed => allocated.apart source (within _ freed)
      dsimp only
      rw [shape]
      rcases between.copyBuffer_cases held.1 positive (rxHeader before podId) with
        ⟨full, fails⟩ | ⟨after, target, copies', headerCopied⟩
      · have frame := release_frame between (rxBody before podId) bodySlot
        have marked : ∀ slot, (release between (rxBody before podId) bodySlot).Marked slot ↔
            before.Marked slot ∧ slot ∉ copies.map Copy.source := by
          intro slot
          rw [marked_release between _ inside, ← targets, relocated.marked]
          constructor
          · intro ⟨reason, notTarget⟩
            exact reason.resolve_right notTarget
          · intro ⟨held', kept⟩
            refine ⟨Or.inl ⟨held', kept⟩, ?_⟩
            intro target
            obtain ⟨copy, member, same⟩ := List.mem_map.mp target
            rw [← same] at held' kept
            exact kept (relocated.fresh copy member held')
        have lost := @settled_iff_of_lost before (release between (rxBody before podId) bodySlot)
          desc .sidecarRx (.rx podId) (copies.map Copy.source) (frame.1.trans rings) marked
          (fun slot freed => by
            unfold Shm.sources
            rw [List.mem_append, Option.mem_toList, Option.mem_toList]
            exact Or.inr (within slot freed)) allocated
        have negative : (-1 : Int) < 0 := by decide
        rw [fails]
        dsimp only
        rw [if_pos negative, body, lost, forall_sources]
        refine iff_of_false (fun whole => notFreed (whole.1 _ source)) ?_
        intro ⟨_, reason⟩
        rcases reason with absent | ⟨_, room⟩
        · rw [absent] at source
          contradiction
        · exact room full
      · let copy : Copy := ⟨⟨pool, index⟩, desc.headerLen, ⟨rxHeader before podId, target⟩⟩
        have both := relocated.snoc copy headerCopied held notFreed
        have ends := @settled_deliverCase3_iff before (after.free pool index) desc podId target
          bodySlot (copies ++ [copy]) (Int.ofNat_lt.mpr headerCopied.inside) inside
          (headerCopied.rings.trans rings) (headerCopied.service.trans service) both
          (by rw [List.map_append, targets]; rfl)
          (List.forall_mem_append.mpr ⟨ofBody, List.forall_mem_singleton.mpr (Or.inl ⟨source, rfl⟩)⟩)
          allocated
        have noTarget : ¬ (target : Int) < 0 := by omega
        rw [copies']
        dsimp only
        rw [if_neg noTarget, ends, forall_sources]
        constructor
        · intro ⟨_, whole⟩
          refine ⟨?_, Or.inr ⟨rfl, headerCopied.not_full⟩⟩
          intro slot bodyThere
          have freed := whole slot bodyThere
          rw [List.map_append, List.mem_append] at freed
          refine freed.resolve_right fun last => ?_
          rw [List.map_singleton, List.mem_singleton] at last
          rw [last] at bodyThere
          exact allocated.apart source bodyThere
        · intro ⟨whole, _⟩
          rw [List.map_append]
          constructor
          · intro slot headerThere
            rw [← Option.some.inj (source.symm.trans headerThere)]
            exact List.mem_append_right _ List.mem_cons_self
          · intro slot bodyThere
            exact List.mem_append_left _ (whole slot bodyThere)

theorem case3_settles_iff (shm : Shm) (desc : SwDescriptor) (podId : Int)
    (allocated : Allocated shm desc) :
    (Step.case3 podId).Settles shm desc ↔ (Step.case3 podId).Clear shm desc := by
  show Settled shm (dmaCase3 shm desc podId) desc .sidecarRx (.rx podId) ↔ _
  unfold dmaCase3 Step.Clear
  rcases body_cases shm desc podId allocated with
    found | ⟨pool, index, found, shape, body, held, way⟩
  · have ends := @settled_moveHeader_iff shm shm desc podId (-1) [] (by decide) rfl rfl rfl
      (Relocated.refl shm) rfl (List.forall_mem_nil _) allocated
    have full : (shm.pools (rxHeader shm podId)).Full ↔ NoHeaderSlot shm desc podId := by
      unfold NoHeaderSlot
      rw [found]
      refine forall₂_congr fun index inside => ?_
      simp [Shm.Marked, inside]
    rw [found]
    simp only [Option.isSome_none, Bool.false_eq_true, false_and, ↓reduceIte, or_false]
    rw [ends, full]
    simp [Option.eq_none_iff_forall_ne_some]
  · rw [found, shape]
    dsimp only
    rcases way with ⟨full, fails⟩ | ⟨after, target, copies, copied⟩
    · have blocked : (some pool).isSome = true ∧ (shm.pools (rxBody shm podId)).Full := ⟨rfl, full⟩
      have returned := @settled_iff_of_returned shm desc .sidecarRx (.rx podId) allocated rfl
      have sources : shm.sources desc ≠ [] := by
        intro empty
        rw [(sources_eq_nil_iff.mp empty).2] at body
        contradiction
      rw [if_pos blocked, fails]
      exact returned.trans (or_iff_left sources)
    · have unblocked : ¬ ((some pool).isSome = true ∧ (shm.pools (rxBody shm podId)).Full) :=
        fun blocked => copied.not_full blocked.2
      let copy := bodyCopy desc ⟨pool, index⟩ ⟨rxBody shm podId, target⟩
      have relocated := (Relocated.refl shm).snoc copy copied held List.not_mem_nil
      have ends := @settled_moveHeader_iff shm (after.free pool index) desc podId target [copy]
        (Int.ofNat_lt.mpr copied.inside) copied.rings copied.service copied.registered relocated
        rfl (List.forall_mem_singleton.mpr ⟨body, rfl⟩) allocated
      have full : ((after.free pool index).pools (rxHeader shm podId)).Full ↔
          NoHeaderSlot shm desc podId := by
        unfold NoHeaderSlot
        refine forall₂_congr fun other inside => ?_
        have marked := relocated.marked ⟨rxHeader shm podId, other⟩
        have taken : ((after.free pool index).pools (rxHeader shm podId)).taken other = true ↔
            (after.free pool index).Marked ⟨rxHeader shm podId, other⟩ :=
          (and_iff_right inside).symm
        have apart : (⟨rxHeader shm podId, other⟩ : Slot) ≠ ⟨rxBody shm podId, target⟩ := by
          unfold rxHeader rxBody
          simp
        have source : (⟨rxHeader shm podId, other⟩ : Slot) = ⟨pool, index⟩ ↔
            some (⟨pool, index⟩ : Slot) = some ⟨rxHeader shm podId, other⟩ := by
          rw [Option.some.injEq]
          exact eq_comm
        refine (taken.trans marked).trans ?_
        rw [found, body]
        simp [copy, bodyCopy, apart, source]
      have noTarget : ¬ (target : Int) < 0 := by omega
      rw [if_neg unblocked, copies]
      dsimp only
      rw [if_neg noTarget, ends, full]
      refine and_congr_left fun _ => iff_of_true ?_ (Or.inr rfl)
      intro slot source
      rw [← Option.some.inj (body.symm.trans source)]
      exact List.mem_cons_self

/-! ### All or nothing -/

/-- A step is all or nothing where what the message has is found and nothing is
full at a point where the step cannot go back. -/
theorem settles_iff_clear (shm : Shm) (desc : SwDescriptor) (step : Step)
    (allocated : Allocated shm desc) : step.Settles shm desc ↔ step.Clear shm desc := by
  cases step with
  | hostTx podId => exact hostTx_settles_iff shm desc podId allocated
  | case2 podId => exact case2_settles_iff shm desc podId allocated
  | case3 podId => exact case3_settles_iff shm desc podId allocated

/-- A node with one service, by its RX header pool; the first slots of its TX
body pool and of the DPU's header pool are taken. -/
def node (rxHeader : BufferPool) : Shm where
  pools
    | .host _ .rxHeader => rxHeader
    | .host _ .txBody => BufferPool.zeroed.mark 0 1
    | .dpuTxHeader => BufferPool.zeroed.mark 0 1
    | _ => .zeroed
  rings := fun _ => []
  service := fun _ => ascii "id_service"
  registered := fun _ => true

/-- A message with a header in the DPU's pool and a body in the service's. -/
def localDesc : SwDescriptor where
  headerBufSlot := 0
  headerLen := 200
  bodyBufSlot := 0
  bodyLen := 5
  flags := caseLocal
  valid := 1
  srcBodyPoolType := PoolType.hostTxBody.code
  srcHeaderPoolType := PoolType.dpuTxHeader.code
  srcBodyBufSlot := 0
  srcHeaderBufSlot := 0

theorem localDesc_allocated (rxHeader : BufferPool) : Allocated (node rxHeader) localDesc where
  marked := by
    rw [forall_sources]
    constructor
    · intro slot header
      cases header
      exact ⟨Nat.zero_lt_succ 63, rfl⟩
    · intro slot body
      cases body
      exact ⟨Nat.zero_lt_succ 63, rfl⟩
  distinct := by
    show [(⟨.dpuTxHeader, 0⟩ : Slot), ⟨.host (ascii "id_service") .txBody, 0⟩].Nodup
    decide

/-- A free header slot lets the message through. -/
theorem settles_iff_clear_free : (Step.case3 0).Settles (node .zeroed) localDesc := by
  refine (settles_iff_clear _ _ _ (localDesc_allocated _)).mpr ?_
  have room : ¬ NoHeaderSlot (node .zeroed) localDesc 0 := by decide
  have free : ¬ ((node .zeroed).pools (rxBody (node .zeroed) 0)).Full := by decide
  unfold Step.Clear
  dsimp only
  rw [if_neg (fun blocked => free blocked.2)]
  exact ⟨Or.inr rfl, Or.inr ⟨rfl, room⟩⟩

/-- The body has left its slot when the header finds none. -/
theorem not_settles :
    Allocated (node ⟨fun _ => 1⟩) localDesc ∧ ¬ (Step.case3 0).Settles (node ⟨fun _ => 1⟩) localDesc := by
  refine ⟨localDesc_allocated _, fun settles => ?_⟩
  have clear := (case3_settles_iff _ _ _ (localDesc_allocated _)).mp settles
  have full : NoHeaderSlot (node ⟨fun _ => 1⟩) localDesc 0 := by decide
  have free : ¬ ((node ⟨fun _ => 1⟩).pools (rxBody (node ⟨fun _ => 1⟩) 0)).Full := by decide
  unfold Step.Clear at clear
  dsimp only at clear
  rw [if_neg (fun blocked => free blocked.2)] at clear
  rcases clear.2 with absent | ⟨_, room⟩
  · contradiction
  · exact room full

end MiniMs.Daemon.Dma
