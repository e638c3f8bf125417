import MiniMs.Daemon.BodyTransport
import MiniMs.Daemon.Pipeline
import MiniMs.Library.Alone

/-!
The atomic steps of a node and the pipeline at the grain of single calls.

Owns: the shared memory of a node as a party sees it, a worker's write and the
rounds of the two loops of the DPA as atomic steps over it, and the theorem that
every run of atomic steps is a run of the pipeline.

The bridge, the router, the pollers and the readers have no atomic step here.
-/

namespace MiniMs.Daemon.Pipeline

open MiniMs.Library.Text MiniMs.Library.Json MiniMs.Library.Slots MiniMs.Library.Party
open MiniMs.Library.Run MiniMs.Dpumesh
open MiniMs.Daemon.BodyTransport (bodyOf)

/-! ### What a party sees -/

/-- The ring that a place is, if it is one. -/
def ringOf : Place → Option RingName
  | .tx podId => some (.tx podId)
  | .rx podId => some (.rx podId)
  | .sidecarTx => some .sidecarTx
  | .sidecarRx => some .sidecarRx
  | .notify _ => none
  | .response _ => none

/-- The view of a shared memory and of the workers' pipes. -/
def viewOf (shm : Shm) (pipes : Place → List SwDescriptor) :
    View (PoolName → BufferPool) Place SwDescriptor where
  memory := shm.pools
  queues place := (ringOf place).elim (pipes place) shm.rings

def placeOf : RingName → Place
  | .tx podId => .tx podId
  | .rx podId => .rx podId
  | .sidecarTx => .sidecarTx
  | .sidecarRx => .sidecarRx

@[simp] theorem ringOf_placeOf (ring : RingName) : ringOf (placeOf ring) = some ring := by
  cases ring <;> rfl

theorem eq_placeOf {place : Place} {ring : RingName} (named : ringOf place = some ring) :
    place = placeOf ring := by
  cases place with
  | tx podId => exact congrArg placeOf (Option.some.inj named)
  | rx podId => exact congrArg placeOf (Option.some.inj named)
  | sidecarTx => exact congrArg placeOf (Option.some.inj named)
  | sidecarRx => exact congrArg placeOf (Option.some.inj named)
  | notify podId => contradiction
  | response podId => contradiction

theorem viewOf_update (shm : Shm) (pipes : Place → List SwDescriptor) (ring : RingName)
    (descs : List SwDescriptor) :
    { viewOf shm pipes with
        queues := Function.update (viewOf shm pipes).queues (placeOf ring) descs } =
      viewOf { shm with rings := Function.update shm.rings ring descs } pipes := by
  have queues : Function.update (viewOf shm pipes).queues (placeOf ring) descs =
      (viewOf { shm with rings := Function.update shm.rings ring descs } pipes).queues := by
    funext other
    unfold viewOf
    dsimp only
    by_cases same : other = placeOf ring
    · rw [same, Function.update_self, ringOf_placeOf, Option.elim_some, Function.update_self]
    · rw [Function.update_of_ne same]
      cases found : ringOf other with
      | none => rfl
      | some otherRing =>
          have different : otherRing ≠ ring := by
            intro equal
            rw [equal] at found
            exact same (eq_placeOf found)
          rw [Option.elim_some, Option.elim_some, Function.update_of_ne different]
  exact congrArg (View.mk shm.pools) queues

/-! ### Pools one after another -/

section Pools

variable (shm : Shm) {pool other : PoolName} (region : BufferPool)

@[simp] theorem withPool_same (pool : PoolName) : shm.withPool pool (shm.pools pool) = shm := by
  unfold Shm.withPool
  rw [Function.update_eq_self]

@[simp] theorem pools_withPool_self (pool : PoolName) :
    (shm.withPool pool region).pools pool = region := by
  unfold Shm.withPool
  dsimp only
  rw [Function.update_self]

theorem pools_withPool_of_ne (different : other ≠ pool) :
    (shm.withPool pool region).pools other = shm.pools other := by
  unfold Shm.withPool
  dsimp only
  rw [Function.update_of_ne different]

@[simp] theorem withPool_withPool (pool : PoolName) (last : BufferPool) :
    (shm.withPool pool region).withPool pool last = shm.withPool pool last := by
  unfold Shm.withPool
  rw [Function.update_idem]

theorem free_eq (pool : PoolName) (slot : Int) :
    shm.free pool slot = shm.withPool pool ((shm.pools pool).bpFree slot) := rfl

/-- A slot is freed in the first of two pools. -/
theorem free_first (different : other ≠ pool) (last : BufferPool) (slot : Int) :
    ((shm.withPool pool region).withPool other last).free pool slot =
      (shm.withPool pool (region.bpFree slot)).withPool other last := by
  have first : ((shm.withPool pool region).withPool other last).pools pool = region := by
    rw [pools_withPool_of_ne _ _ different.symm, pools_withPool_self]
  rw [free_eq, first]
  unfold Shm.withPool
  dsimp only
  rw [Function.update_comm different, Function.update_idem]

theorem free_last (pool : PoolName) (slot : Int) :
    (shm.withPool pool region).free pool slot = shm.withPool pool (region.bpFree slot) := by
  rw [free_eq, pools_withPool_self, withPool_withPool]

end Pools

/-! ### The atomic steps -/

/-- `DescriptorRing.get`. -/
def Atomic.get (shm : Shm) (ring : RingName) : Option (SwDescriptor × Shm) :=
  (shm.rings ring).head?.map fun desc =>
    (desc, { shm with rings := Function.update shm.rings ring (shm.rings ring).tail })

/-- `dpumesh_write`, its common part over the pools and the ring of the pod. -/
def Atomic.writeCommon (shm : Shm) (podId : Int) (out : Outgoing) (stack : Nat → UInt8)
    (body : Option Bytes) : Shm :=
  let txHeader : PoolName := .host (shm.service podId) .txHeader
  let txBody : PoolName := .host (shm.service podId) .txBody
  let (pools, ring) := Dpumesh.writeCommon ⟨shm.pools txHeader, shm.pools txBody⟩
    (shm.rings (.tx podId)) podId out stack body
  let stored := (shm.withPool txHeader pools.txHeader).withPool txBody pools.txBody
  ring.elim stored fun descs =>
    { stored with rings := Function.update shm.rings (.tx podId) descs }

/-- The two halves of `_cleanup_src_buffers`. -/
def Atomic.cleanupBody (shm : Shm) (desc : SwDescriptor) : Shm :=
  if 0 ≤ desc.srcBodyBufSlot then
    (shm.resolvePool desc.srcBodyPoolType desc.srcBodyPodId).elim shm fun pool =>
      shm.free pool desc.srcBodyBufSlot
  else shm

def Atomic.cleanupHeader (shm : Shm) (desc : SwDescriptor) : Shm :=
  if 0 ≤ desc.srcHeaderBufSlot then
    (shm.resolvePool desc.srcHeaderPoolType desc.srcHeaderPodId).elim shm fun pool =>
      shm.free pool desc.srcHeaderBufSlot
  else shm

/-- `_handle_sidecar_rx`; `present` says whether the pod has resources. -/
def Atomic.handleSidecarRx (shm : Shm) (desc : SwDescriptor) (present : Bool) : Shm :=
  if present then
    if desc.caseFlag = caseIngress then Dma.dmaCase2 shm desc desc.dstPodId
    else if desc.caseFlag = caseLocal then Dma.dmaCase3 shm desc desc.dstPodId
    else Dma.dmaCase2 shm desc desc.dstPodId
  else Atomic.cleanupHeader (Atomic.cleanupBody shm desc) desc

/-- What a worker writes. -/
def outgoingOf (worker : Worker) : Send.Message → Outgoing
  | .request method url _ => (writeRequest worker method url).2
  | .response descIndex statusCode _ => (writeResponse worker descIndex statusCode).2

def callOf (worker : Worker) (stack : Nat → UInt8) : Send.Message → Call
  | .request method url body => .request worker method url stack body
  | .response descIndex statusCode body => .response worker descIndex statusCode stack body

/-- A worker's write, or a round of one of the two loops of the DPA. -/
inductive Round where
  | write (worker : Worker) (message : Send.Message) (stack : Nat → UInt8)
  /-- `_poll_host_tx_sqs`, for the ring of one pod. -/
  | hostTx (podId : Int)
  /-- `_poll_sidecar_rx_sq`. -/
  | sidecarRx (present : Bool)

/-- A round as one step, where there is something to do. -/
def Round.step (shm : Shm) : Round → Option Shm
  | .write worker message stack =>
      some (Atomic.writeCommon shm worker.podId (outgoingOf worker message) stack (bodyOf message))
  | .hostTx podId =>
      (Atomic.get shm (.tx podId)).map fun got =>
        if got.1.valid ≠ 1 then got.2 else Dma.handleHostTx got.2 got.1 podId
  | .sidecarRx present =>
      (Atomic.get shm .sidecarRx).map fun got =>
        if got.1.valid ≠ 1 then got.2 else Atomic.handleSidecarRx got.2 got.1 present

/-! ### Calls -/

/-- What the registry answers, and whether a pod has resources. -/
def answersOf (registered : Int → Bool) (present : Bool) : Question → Answer
  | .service podId => if registered podId then some podId else none
  | .resources podId => if present then some podId else none
  | _ => none

/-- The pods of a shared memory. -/
structure Pods (service : Int → Bytes) (registered : Int → Bool) (shm : Shm) : Prop where
  service_eq : shm.service = service
  registered_eq : shm.registered = registered

section Calls

variable {service : Int → Bytes} {registered : Int → Bool} {float : PyStr → Numeral}
  {present : Bool} {shm : Shm} {pipes : Place → List SwDescriptor}

/-- A program as a party of the pipeline runs it alone. -/
def runs (service : Int → Bytes) (registered : Int → Bool) (float : PyStr → Numeral)
    (present : Bool) (pipes : Place → List SwDescriptor) (program : Program) (shm : Shm) :
    View (PoolName → BufferPool) Place SwDescriptor :=
  exec (system service float) (answersOf registered present) program (viewOf shm pipes)

theorem runs_done (outcome : Outcome) :
    runs service registered float present pipes (.done outcome) shm = viewOf shm pipes := rfl

theorem runs_ask (question : Question) (next : Answer → Program) :
    runs service registered float present pipes (.ask question next) shm =
      runs service registered float present pipes (next (answersOf registered present question))
        shm := rfl

theorem answersOf_service (podId : Int) :
    (answersOf registered present (.service podId)).isSome = registered podId := by
  cases known : registered podId <;> simp [answersOf, known]

theorem runs_resolvePool (pods : Pods service registered shm) (poolType : Nat) (podId : Int)
    (next : Option PoolName → Program) :
    runs service registered float present pipes (resolvePool service poolType podId next) shm =
      runs service registered float present pipes (next (shm.resolvePool poolType podId)) shm := by
  unfold resolvePool Shm.resolvePool
  rw [pods.service_eq, pods.registered_eq]
  by_cases none : poolType = PoolType.none.code
  · have dpu : Shm.dpuPool PoolType.none.code = Option.none := by decide
    have host : Shm.hostPool PoolType.none.code = Option.none := by decide
    rw [if_pos none, none, dpu, host]
    simp
  · rw [if_neg none]
    cases found : Shm.dpuPool poolType with
    | some pool => rfl
    | none =>
        dsimp only
        rw [runs_ask, answersOf_service]
        by_cases known : registered podId = true
        · rw [if_pos known, if_pos known]
        · rw [if_neg known, if_neg known]

theorem runs_bpFree (pool : PoolName) (slot : Int) (next : Program) :
    runs service registered float present pipes (bpFree pool slot next) shm =
      runs service registered float present pipes next (shm.free pool slot) := by
  unfold bpFree
  by_cases outside : slot < 0 ∨ numSlots ≤ slot
  · have same : shm.free pool slot = shm := by
      unfold Shm.free BufferPool.free
      rw [if_pos outside, Function.update_eq_self]
    rw [if_pos outside, same]
  · have freed : shm.free pool slot = shm.withPool pool ((shm.pools pool).mark slot.toNat 0) := by
      unfold Shm.free BufferPool.free Shm.withPool
      rw [if_neg outside]
    rw [if_neg outside, freed]
    rfl

/-- An allocation takes the slot, or it changes nothing and gives -1. -/
theorem runs_bpAlloc (pool : PoolName) (next : Int → Program) :
    runs service registered float present pipes (bpAlloc pool next) shm =
      runs service registered float present pipes (next (shm.pools pool).bpAlloc.1)
        (shm.withPool pool (shm.pools pool).bpAlloc.2) := by
  have allocs : runs service registered float present pipes (bpAlloc pool next) shm =
      (Pools.alloc shm.pools pool).1.elim
        (runs service registered float present pipes (next (-1)) shm) fun index =>
          exec (system service float) (answersOf registered present) (next index)
            { viewOf shm pipes with memory := (Pools.alloc shm.pools pool).2 } := rfl
  rw [allocs]
  unfold Pools.alloc
  rcases (shm.pools pool).bpAlloc_cases with ⟨index, allocated, -⟩ | ⟨-, refused⟩
  · have there : ¬ (index : Int) < 0 := by omega
    rw [allocated]
    dsimp only
    rw [if_neg there]
    rfl
  · have negative : (-1 : Int) < 0 := by decide
    rw [refused]
    dsimp only
    rw [if_pos negative, withPool_same]
    rfl

theorem runs_copyIn (pool : PoolName) (index : Nat) (data : Bytes) (next : Program) :
    runs service registered float present pipes (.copyIn ⟨pool, index⟩ data next) shm =
      runs service registered float present pipes next
        (shm.withPool pool ((shm.pools pool).copyIn (BufferPool.offset index) data)) := rfl

theorem runs_bpWrite (pool : PoolName) (slot : Int) (data : Bytes) (next : Int → Program) :
    runs service registered float present pipes (bpWrite pool slot data next) shm =
      runs service registered float present pipes (next ((shm.pools pool).bpWrite slot data).1)
        (shm.withPool pool ((shm.pools pool).bpWrite slot data).2) := by
  unfold bpWrite BufferPool.bpWrite
  by_cases outside : slot < 0 ∨ numSlots ≤ slot
  · rw [if_pos outside, if_pos outside, withPool_same]
  · rw [if_neg outside, if_neg outside]
    by_cases long : (slotSize : Int) < BufferPool.intOfSize data.length
    · rw [if_pos long, if_pos long, withPool_same]
    · rw [if_neg long, if_neg long, runs_copyIn]

theorem runs_bpRead (pool : PoolName) (slot : Int) (maxlen : Nat) (next : Bytes → Program) :
    runs service registered float present pipes (bpRead pool slot maxlen next) shm =
      runs service registered float present pipes (next ((shm.pools pool).read slot maxlen))
        shm := by
  unfold bpRead BufferPool.read
  by_cases outside : slot < 0 ∨ numSlots ≤ slot
  · rw [if_pos outside, if_pos outside]
  · rw [if_neg outside, if_neg outside]
    rfl

theorem runs_write_ok {pool : PoolName} {slot : Int} {data : Bytes} {length : Nat}
    {region : BufferPool} (written : (shm.pools pool).write slot data = .ok (length, region))
    (next : Option Nat → Program) :
    runs service registered float present pipes (write pool slot data next) shm =
      runs service registered float present pipes (next (some length))
        (shm.withPool pool region) := by
  unfold BufferPool.write at written
  unfold write
  by_cases outside : slot < 0 ∨ numSlots ≤ slot
  · rw [if_pos outside] at written
    contradiction
  · rw [if_neg outside] at written ⊢
    by_cases long : slotSize < data.length
    · rw [if_pos long] at written
      contradiction
    · rw [if_neg long, Except.ok.injEq, Prod.mk.injEq] at written
      obtain ⟨rfl, rfl⟩ := written
      rw [if_neg long, runs_copyIn]

theorem runs_write_error {pool : PoolName} {slot : Int} {data : Bytes}
    {error : BufferPool.WriteError} (refused : (shm.pools pool).write slot data = .error error)
    (next : Option Nat → Program) :
    runs service registered float present pipes (write pool slot data next) shm =
      runs service registered float present pipes (next none) shm := by
  unfold BufferPool.write at refused
  unfold write
  by_cases outside : slot < 0 ∨ numSlots ≤ slot
  · rw [if_pos outside]
  · rw [if_neg outside] at refused ⊢
    by_cases long : slotSize < data.length
    · rw [if_pos long]
    · rw [if_neg long] at refused
      contradiction

theorem runs_copyBuffer (source : PoolName) (slot : Int) (length : Nat) (target : PoolName)
    (next : Int → Program) :
    runs service registered float present pipes (copyBuffer source slot length target next) shm =
      runs service registered float present pipes
        (next (shm.copyBuffer source slot length target).2)
        (shm.copyBuffer source slot length target).1 := by
  unfold copyBuffer Shm.copyBuffer BufferPool.alloc
  by_cases bad : slot < 0 ∨ length = 0
  · rw [if_pos bad, if_pos bad]
  · rw [if_neg bad, if_neg bad, runs_bpAlloc]
    rcases (shm.pools target).bpAlloc_cases with ⟨index, allocated, -⟩ | ⟨-, refused⟩
    · have there : ¬ (index : Int) < 0 := by omega
      rw [allocated]
      dsimp only
      rw [if_neg there, if_neg there, runs_bpRead]
      unfold Shm.withPool
      dsimp only
      cases written : (Function.update shm.pools target ((shm.pools target).mark index 1)
          target).write index ((Function.update shm.pools target ((shm.pools target).mark index 1)
            source).read slot length) with
      | ok result =>
          obtain ⟨count, region⟩ := result
          rw [runs_write_ok written]
          rfl
      | error reason =>
          rw [runs_write_error written, runs_bpFree]
          rfl
    · have negative : (-1 : Int) < 0 := by decide
      rw [refused]
      dsimp only
      rw [if_pos negative, if_pos negative, withPool_same]

theorem Pods.of_copyBuffer (pods : Pods service registered shm) (source : PoolName) (slot : Int)
    (length : Nat) (target : PoolName) :
    Pods service registered (shm.copyBuffer source slot length target).1 := by
  unfold Shm.copyBuffer
  dsimp only
  split
  · exact pods
  · split
    · exact pods
    · split
      · exact ⟨pods.service_eq, pods.registered_eq⟩
      · exact ⟨pods.service_eq, pods.registered_eq⟩

theorem Pods.of_free (pods : Pods service registered shm) (pool : PoolName) (slot : Int) :
    Pods service registered (shm.free pool slot) := ⟨pods.service_eq, pods.registered_eq⟩

theorem length_ring (ring : RingName) :
    ((viewOf shm pipes).queues (placeOf ring)).length = (shm.rings ring).length := by
  unfold viewOf
  dsimp only
  rw [ringOf_placeOf, Option.elim_some]

theorem capacity_ring (ring : RingName) :
    (system service float).capacity (placeOf ring) = maxDescriptors := by
  cases ring <;> rfl

theorem runs_put (ring : RingName) (desc : SwDescriptor) (next : Bool → Program) :
    runs service registered float present pipes (.put (placeOf ring) desc next) shm =
      runs service registered float present pipes (next (shm.put ring desc).2)
        (shm.put ring desc).1 := by
  have room : ((viewOf shm pipes).queues (placeOf ring)).length <
      (system service float).capacity (placeOf ring) ↔
        ¬ maxDescriptors ≤ (shm.rings ring).length := by
    rw [length_ring, capacity_ring, not_le]
  unfold runs Shm.put
  rw [exec_put]
  by_cases full : maxDescriptors ≤ (shm.rings ring).length
  · rw [if_neg fun below => room.mp below full, if_pos full]
  · have queue : (viewOf shm pipes).queues (placeOf ring) = shm.rings ring := by
      unfold viewOf
      dsimp only
      rw [ringOf_placeOf, Option.elim_some]
    rw [if_pos (room.mpr full), if_neg full]
    unfold View.put
    rw [queue, viewOf_update]

theorem Pods.of_put (pods : Pods service registered shm) (ring : RingName) (desc : SwDescriptor) :
    Pods service registered (shm.put ring desc).1 := by
  unfold Shm.put
  split
  · exact pods
  · exact ⟨pods.service_eq, pods.registered_eq⟩

theorem Pods.of_release (pods : Pods service registered shm) (pool : PoolName) (slot : Int) :
    Pods service registered (Dma.release shm pool slot) := by
  unfold Dma.release
  split
  · exact pods.of_free pool slot
  · exact pods

theorem Pods.rxBody_eq (pods : Pods service registered shm) (podId : Int) :
    Dma.rxBody shm podId = .host (service podId) .rxBody := by
  unfold Dma.rxBody
  rw [pods.service_eq]

theorem Pods.rxHeader_eq (pods : Pods service registered shm) (podId : Int) :
    Dma.rxHeader shm podId = .host (service podId) .rxHeader := by
  unfold Dma.rxHeader
  rw [pods.service_eq]

/-! ### The DPA -/

theorem runs_release (pool : PoolName) (slot : Int) (next : Program) :
    runs service registered float present pipes (release pool slot next) shm =
      runs service registered float present pipes next (Dma.release shm pool slot) := by
  unfold release Dma.release
  by_cases there : 0 ≤ slot
  · rw [if_pos there, if_pos there, runs_bpFree]
  · rw [if_neg there, if_neg there]

theorem runs_forward (desc : SwDescriptor) (dpuHeaderSlot : Int) :
    runs service registered float present pipes (forward desc dpuHeaderSlot) shm =
      viewOf (Dma.forward shm desc dpuHeaderSlot) pipes := by
  unfold forward Dma.forward
  refine (runs_put .sidecarTx _ _).trans ?_
  dsimp only
  by_cases accepted : (shm.put .sidecarTx (sidecarDesc desc dpuHeaderSlot)).2 = true
  · rw [if_pos accepted, if_pos accepted, runs_done]
  · rw [if_neg accepted, if_neg accepted, runs_release, runs_done]

theorem runs_handleHostTx (pods : Pods service registered shm) (podId : Int) (desc : SwDescriptor) :
    runs service registered float present pipes (handleHostTx service podId desc) shm =
      viewOf (Dma.handleHostTx shm desc podId) pipes := by
  unfold handleHostTx Dma.handleHostTx Dma.txHeaderPool
  by_cases header : 0 ≤ desc.headerBufSlot ∧ 0 < desc.headerLen
  · rw [if_pos header, if_pos header, runs_resolvePool pods]
    cases shm.resolvePool desc.srcHeaderPoolType desc.srcHeaderPodId with
    | none => exact runs_forward desc (-1)
    | some pool =>
        dsimp only
        rw [runs_copyBuffer]
        by_cases failed :
            (shm.copyBuffer pool desc.srcHeaderBufSlot desc.headerLen .dpuTxHeader).2 < 0
        · rw [if_pos failed, if_pos failed]
          exact runs_put (.tx podId) desc _
        · rw [if_neg failed, if_neg failed, runs_bpFree]
          exact runs_forward desc _
  · rw [if_neg header, if_neg header]
    exact runs_forward desc (-1)

theorem runs_deliverCase2 (pods : Pods service registered shm) (desc : SwDescriptor)
    (hostBodySlot : Int) :
    runs service registered float present pipes (deliverCase2 service desc hostBodySlot) shm =
      viewOf (Dma.deliverCase2 shm desc desc.dstPodId hostBodySlot) pipes := by
  unfold deliverCase2 Dma.deliverCase2
  refine (runs_put (.rx desc.dstPodId) _ _).trans ?_
  dsimp only
  have pool := (pods.of_put (.rx desc.dstPodId) (case2RxDesc desc hostBodySlot)).rxBody_eq
    desc.dstPodId
  by_cases accepted : (shm.put (.rx desc.dstPodId) (case2RxDesc desc hostBodySlot)).2 = true
  · rw [if_pos accepted, if_pos accepted, runs_done]
  · rw [if_neg accepted, if_neg accepted, runs_release, runs_done, pool]

theorem runs_dmaCase2 (pods : Pods service registered shm) (desc : SwDescriptor) :
    runs service registered float present pipes (dmaCase2 service desc) shm =
      viewOf (Dma.dmaCase2 shm desc desc.dstPodId) pipes := by
  unfold dmaCase2 Dma.dmaCase2 Dma.bodyPool
  by_cases body : 0 ≤ desc.srcBodyBufSlot ∧ 0 < desc.bodyLen
  · rw [if_pos body, if_pos body, runs_resolvePool pods, pods.rxBody_eq]
    cases shm.resolvePool desc.srcBodyPoolType desc.srcBodyPodId with
    | none => exact runs_deliverCase2 pods desc (-1)
    | some pool =>
        dsimp only
        rw [runs_copyBuffer]
        have copied := pods.of_copyBuffer pool desc.srcBodyBufSlot desc.bodyLen
          (.host (service desc.dstPodId) .rxBody)
        by_cases failed : (shm.copyBuffer pool desc.srcBodyBufSlot desc.bodyLen
            (.host (service desc.dstPodId) .rxBody)).2 < 0
        · rw [if_pos failed, if_pos failed]
          exact runs_put .sidecarRx desc _
        · rw [if_neg failed, if_neg failed, runs_bpFree]
          exact runs_deliverCase2 (copied.of_free pool _) desc _
  · rw [if_neg body, if_neg body]
    exact runs_deliverCase2 pods desc (-1)

theorem runs_deliverCase3 (pods : Pods service registered shm) (desc : SwDescriptor)
    (hostHeaderSlot hostBodySlot : Int) :
    runs service registered float present pipes
        (deliverCase3 service desc hostHeaderSlot hostBodySlot) shm =
      viewOf (Dma.deliverCase3 shm desc desc.dstPodId hostHeaderSlot hostBodySlot) pipes := by
  unfold deliverCase3 Dma.deliverCase3
  refine (runs_put (.rx desc.dstPodId) _ _).trans ?_
  dsimp only
  have put := pods.of_put (.rx desc.dstPodId) (case3RxDesc desc hostHeaderSlot hostBodySlot)
  by_cases accepted :
      (shm.put (.rx desc.dstPodId) (case3RxDesc desc hostHeaderSlot hostBodySlot)).2 = true
  · rw [if_pos accepted, if_pos accepted, runs_done]
  · rw [if_neg accepted, if_neg accepted, runs_release, runs_release, runs_done,
      put.rxBody_eq, put.rxHeader_eq]

theorem runs_moveHeader (pods : Pods service registered shm) (desc : SwDescriptor)
    (hostBodySlot : Int) :
    runs service registered float present pipes (moveHeader service desc hostBodySlot) shm =
      viewOf (Dma.moveHeader shm desc desc.dstPodId hostBodySlot) pipes := by
  unfold moveHeader Dma.moveHeader Dma.headerPool
  rw [runs_resolvePool pods, pods.rxHeader_eq]
  by_cases header : 0 ≤ desc.srcHeaderBufSlot ∧ 0 < desc.headerLen
  · rw [if_pos header]
    cases shm.resolvePool desc.srcHeaderPoolType desc.srcHeaderPodId with
    | none => exact runs_deliverCase3 pods desc (-1) hostBodySlot
    | some pool =>
        dsimp only
        rw [if_pos header, runs_copyBuffer]
        have copied := pods.of_copyBuffer pool desc.srcHeaderBufSlot desc.headerLen
          (.host (service desc.dstPodId) .rxHeader)
        by_cases failed : (shm.copyBuffer pool desc.srcHeaderBufSlot desc.headerLen
            (.host (service desc.dstPodId) .rxHeader)).2 < 0
        · rw [if_pos failed, if_pos failed, runs_release, runs_done, copied.rxBody_eq]
        · rw [if_neg failed, if_neg failed, runs_bpFree]
          exact runs_deliverCase3 (copied.of_free pool _) desc _ hostBodySlot
  · rw [if_neg header]
    cases shm.resolvePool desc.srcHeaderPoolType desc.srcHeaderPodId with
    | none => exact runs_deliverCase3 pods desc (-1) hostBodySlot
    | some pool =>
        dsimp only
        rw [if_neg header]
        exact runs_deliverCase3 pods desc (-1) hostBodySlot

theorem runs_dmaCase3 (pods : Pods service registered shm) (desc : SwDescriptor) :
    runs service registered float present pipes (dmaCase3 service desc) shm =
      viewOf (Dma.dmaCase3 shm desc desc.dstPodId) pipes := by
  unfold dmaCase3 Dma.dmaCase3 Dma.bodyPool
  rw [runs_resolvePool pods, pods.rxBody_eq]
  by_cases body : 0 ≤ desc.srcBodyBufSlot ∧ 0 < desc.bodyLen
  · rw [if_pos body]
    cases shm.resolvePool desc.srcBodyPoolType desc.srcBodyPodId with
    | none => exact runs_moveHeader pods desc (-1)
    | some pool =>
        dsimp only
        rw [if_pos body, runs_copyBuffer]
        have copied := pods.of_copyBuffer pool desc.srcBodyBufSlot desc.bodyLen
          (.host (service desc.dstPodId) .rxBody)
        by_cases failed : (shm.copyBuffer pool desc.srcBodyBufSlot desc.bodyLen
            (.host (service desc.dstPodId) .rxBody)).2 < 0
        · rw [if_pos failed, if_pos failed]
          exact runs_put .sidecarRx desc _
        · rw [if_neg failed, if_neg failed, runs_bpFree]
          exact runs_moveHeader (copied.of_free pool _) desc _
  · rw [if_neg body]
    cases shm.resolvePool desc.srcBodyPoolType desc.srcBodyPodId with
    | none => exact runs_moveHeader pods desc (-1)
    | some pool =>
        dsimp only
        rw [if_neg body]
        exact runs_moveHeader pods desc (-1)

theorem runs_cleanupBody (pods : Pods service registered shm) (desc : SwDescriptor)
    (next : Program) :
    runs service registered float present pipes (cleanupBody service desc next) shm =
      runs service registered float present pipes next (Atomic.cleanupBody shm desc) := by
  unfold cleanupBody Atomic.cleanupBody
  by_cases there : 0 ≤ desc.srcBodyBufSlot
  · rw [if_pos there, if_pos there, runs_resolvePool pods]
    cases shm.resolvePool desc.srcBodyPoolType desc.srcBodyPodId with
    | none => rfl
    | some pool => exact runs_bpFree pool desc.srcBodyBufSlot next
  · rw [if_neg there, if_neg there]

theorem runs_cleanupHeader (pods : Pods service registered shm) (desc : SwDescriptor)
    (next : Program) :
    runs service registered float present pipes (cleanupHeader service desc next) shm =
      runs service registered float present pipes next (Atomic.cleanupHeader shm desc) := by
  unfold cleanupHeader Atomic.cleanupHeader
  by_cases there : 0 ≤ desc.srcHeaderBufSlot
  · rw [if_pos there, if_pos there, runs_resolvePool pods]
    cases shm.resolvePool desc.srcHeaderPoolType desc.srcHeaderPodId with
    | none => rfl
    | some pool => exact runs_bpFree pool desc.srcHeaderBufSlot next
  · rw [if_neg there, if_neg there]

theorem Pods.of_cleanupBody (pods : Pods service registered shm) (desc : SwDescriptor) :
    Pods service registered (Atomic.cleanupBody shm desc) := by
  unfold Atomic.cleanupBody
  split
  · cases shm.resolvePool desc.srcBodyPoolType desc.srcBodyPodId with
    | none => exact pods
    | some pool => exact pods.of_free pool desc.srcBodyBufSlot
  · exact pods

theorem runs_handleSidecarRx (pods : Pods service registered shm) (desc : SwDescriptor) :
    runs service registered float present pipes (handleSidecarRx service desc) shm =
      viewOf (Atomic.handleSidecarRx shm desc present) pipes := by
  unfold handleSidecarRx Atomic.handleSidecarRx
  rw [runs_ask]
  cases present with
  | false =>
      show runs service registered float false pipes
        (cleanup service desc (.done .noPodResources)) shm = _
      unfold cleanup
      rw [runs_cleanupBody pods, runs_cleanupHeader (pods.of_cleanupBody desc), runs_done]
      rfl
  | true =>
      show runs service registered float true pipes
        (if desc.caseFlag = caseIngress then dmaCase2 service desc
        else if desc.caseFlag = caseLocal then dmaCase3 service desc
        else dmaCase2 service desc) shm = _
      rw [if_pos rfl]
      by_cases ingress : desc.caseFlag = caseIngress
      · rw [if_pos ingress, if_pos ingress, runs_dmaCase2 pods]
      · rw [if_neg ingress, if_neg ingress]
        by_cases here : desc.caseFlag = caseLocal
        · rw [if_pos here, if_pos here, runs_dmaCase3 pods]
        · rw [if_neg here, if_neg here, runs_dmaCase2 pods]

/-! ### A worker -/

theorem runs_writeCommon (pods : Pods service registered shm) (podId : Int) (out : Outgoing)
    (stack : Nat → UInt8) (body : Option Bytes) :
    runs service registered float present pipes (writeCommon service podId out stack body) shm =
      viewOf (Atomic.writeCommon shm podId out stack body) pipes := by
  unfold writeCommon Atomic.writeCommon Dpumesh.writeCommon
  dsimp only
  have pools : PoolName.host (service podId) .txBody ≠ .host (service podId) .txHeader := by simp
  have negative : (-1 : Int) < 0 := by decide
  rw [pods.service_eq, runs_bpAlloc]
  rcases (shm.pools (.host (service podId) .txHeader)).bpAlloc_cases with
    ⟨headerSlot, headerTaken, -⟩ | ⟨-, refused⟩
  · have headerThere : ¬ (headerSlot : Int) < 0 := by omega
    rw [headerTaken]
    dsimp only
    rw [if_neg headerThere, if_neg headerThere, runs_bpWrite, pools_withPool_self,
      withPool_withPool, runs_bpAlloc, pools_withPool_of_ne shm _ pools]
    rcases (shm.pools (.host (service podId) .txBody)).bpAlloc_cases with
      ⟨bodySlot, bodyTaken, -⟩ | ⟨-, refused⟩
    · have bodyThere : ¬ (bodySlot : Int) < 0 := by omega
      rw [bodyTaken]
      dsimp only
      rw [if_neg bodyThere, if_neg bodyThere, runs_bpWrite, pools_withPool_self,
        withPool_withPool]
      refine (runs_put (.tx podId) _ _).trans ?_
      unfold Shm.put
      rw [Shm.withPool_rings, Shm.withPool_rings]
      by_cases full : maxDescriptors ≤ (shm.rings (.tx podId)).length
      · have rejected : ¬ (false = true) := by decide
        rw [if_pos full, if_pos full]
        dsimp only
        rw [if_neg rejected, runs_bpFree, runs_bpFree, runs_done, free_first _ _ pools, free_last]
        rfl
      · rw [if_neg full, if_neg full]
        dsimp only
        rw [if_pos rfl, runs_done]
        rfl
    · rw [refused]
      dsimp only
      rw [if_pos negative, if_pos negative, runs_bpFree, runs_done, free_first _ _ pools]
      rfl
  · rw [refused]
    dsimp only
    rw [if_pos negative, if_pos negative, runs_done, withPool_same]
    simp

/-! ### Rounds -/

theorem Pods.of_get {got : SwDescriptor × Shm} {ring : RingName}
    (pods : Pods service registered shm) (taken : Atomic.get shm ring = some got) :
    Pods service registered got.2 := by
  obtain ⟨desc, -, rfl⟩ := Option.map_eq_some_iff.mp taken
  exact ⟨pods.service_eq, pods.registered_eq⟩

/-- A round of the DPA: the handler of a ring for the descriptor that it got. -/
theorem run_get {state : State (PoolName → BufferPool) PoolName Place SwDescriptor Question Answer
    Outcome Written} {ring : RingName} {got : SwDescriptor × Shm}
    (view : state.view = viewOf shm pipes) (taken : Atomic.get shm ring = some got) :
    ∃ events final, run (step (system service float)) state events = some final ∧
      final.view = runs service registered float present pipes
        (handler service float (placeOf ring) got.1) got.2 ∧
      final.tasks = state.tasks := by
  obtain ⟨desc, head, rfl⟩ := Option.map_eq_some_iff.mp taken
  have queue : shm.rings ring = desc :: (shm.rings ring).tail := (List.cons_head?_tail head).symm
  have first : state.view.queues (placeOf ring) = desc :: (shm.rings ring).tail := by
    rw [view, ← queue]
    unfold viewOf
    dsimp only
    rw [ringOf_placeOf, Option.elim_some]
  obtain ⟨position, events, final, -, moves, reached, tasks⟩ :=
    run_take (answersOf registered present) first
  refine ⟨_, final, moves, ?_, tasks⟩
  rw [reached, view, viewOf_update]
  rfl

end Calls

/-! ### The pods stay -/

section Pods

variable {service : Int → Bytes} {registered : Int → Bool} {shm : Shm}

theorem Pods.of_forward (pods : Pods service registered shm) (desc : SwDescriptor)
    (dpuHeaderSlot : Int) : Pods service registered (Dma.forward shm desc dpuHeaderSlot) := by
  unfold Dma.forward
  dsimp only
  split
  · exact pods.of_put _ _
  · exact (pods.of_put _ _).of_release _ _

theorem Pods.of_handleHostTx (pods : Pods service registered shm) (desc : SwDescriptor)
    (podId : Int) : Pods service registered (Dma.handleHostTx shm desc podId) := by
  unfold Dma.handleHostTx
  dsimp only
  split
  · split
    · exact (pods.of_copyBuffer _ _ _ _).of_put _ _
    · exact ((pods.of_copyBuffer _ _ _ _).of_free _ _).of_forward _ _
  · exact pods.of_forward _ _

theorem Pods.of_deliverCase2 (pods : Pods service registered shm) (desc : SwDescriptor)
    (podId hostBodySlot : Int) :
    Pods service registered (Dma.deliverCase2 shm desc podId hostBodySlot) := by
  unfold Dma.deliverCase2
  dsimp only
  split
  · exact pods.of_put _ _
  · exact (pods.of_put _ _).of_release _ _

theorem Pods.of_dmaCase2 (pods : Pods service registered shm) (desc : SwDescriptor)
    (podId : Int) : Pods service registered (Dma.dmaCase2 shm desc podId) := by
  unfold Dma.dmaCase2
  dsimp only
  split
  · split
    · exact (pods.of_copyBuffer _ _ _ _).of_put _ _
    · exact ((pods.of_copyBuffer _ _ _ _).of_free _ _).of_deliverCase2 _ _ _
  · exact pods.of_deliverCase2 _ _ _

theorem Pods.of_deliverCase3 (pods : Pods service registered shm) (desc : SwDescriptor)
    (podId hostHeaderSlot hostBodySlot : Int) :
    Pods service registered (Dma.deliverCase3 shm desc podId hostHeaderSlot hostBodySlot) := by
  unfold Dma.deliverCase3
  dsimp only
  split
  · exact pods.of_put _ _
  · exact ((pods.of_put _ _).of_release _ _).of_release _ _

theorem Pods.of_moveHeader (pods : Pods service registered shm) (desc : SwDescriptor)
    (podId hostBodySlot : Int) :
    Pods service registered (Dma.moveHeader shm desc podId hostBodySlot) := by
  unfold Dma.moveHeader
  dsimp only
  split
  · split
    · exact (pods.of_copyBuffer _ _ _ _).of_release _ _
    · exact ((pods.of_copyBuffer _ _ _ _).of_free _ _).of_deliverCase3 _ _ _ _
  · exact pods.of_deliverCase3 _ _ _ _

theorem Pods.of_dmaCase3 (pods : Pods service registered shm) (desc : SwDescriptor)
    (podId : Int) : Pods service registered (Dma.dmaCase3 shm desc podId) := by
  unfold Dma.dmaCase3
  dsimp only
  split
  · split
    · exact (pods.of_copyBuffer _ _ _ _).of_put _ _
    · exact ((pods.of_copyBuffer _ _ _ _).of_free _ _).of_moveHeader _ _ _
  · exact pods.of_moveHeader _ _ _

theorem Pods.of_cleanupHeader (pods : Pods service registered shm) (desc : SwDescriptor) :
    Pods service registered (Atomic.cleanupHeader shm desc) := by
  unfold Atomic.cleanupHeader
  split
  · cases shm.resolvePool desc.srcHeaderPoolType desc.srcHeaderPodId with
    | none => exact pods
    | some pool => exact pods.of_free pool desc.srcHeaderBufSlot
  · exact pods

theorem Pods.of_handleSidecarRx (pods : Pods service registered shm) (desc : SwDescriptor)
    (present : Bool) : Pods service registered (Atomic.handleSidecarRx shm desc present) := by
  unfold Atomic.handleSidecarRx
  split
  · split
    · exact pods.of_dmaCase2 _ _
    · split
      · exact pods.of_dmaCase3 _ _
      · exact pods.of_dmaCase2 _ _
  · exact (pods.of_cleanupBody desc).of_cleanupHeader desc

theorem Pods.of_writeCommon (pods : Pods service registered shm) (podId : Int) (out : Outgoing)
    (stack : Nat → UInt8) (body : Option Bytes) :
    Pods service registered (Atomic.writeCommon shm podId out stack body) := by
  unfold Atomic.writeCommon
  dsimp only
  generalize Dpumesh.writeCommon _ _ _ _ _ _ = result
  cases result.2 with
  | none => exact ⟨pods.service_eq, pods.registered_eq⟩
  | some descs => exact ⟨pods.service_eq, pods.registered_eq⟩

theorem Pods.of_step (pods : Pods service registered shm) {round : Round} {after : Shm}
    (stepped : Round.step shm round = some after) : Pods service registered after := by
  cases round with
  | write worker message stack =>
      obtain rfl := Option.some.inj stepped
      exact pods.of_writeCommon _ _ _ _
  | hostTx podId =>
      obtain ⟨got, taken, rfl⟩ := Option.map_eq_some_iff.mp stepped
      split
      · exact pods.of_get taken
      · exact (pods.of_get taken).of_handleHostTx _ _
  | sidecarRx present =>
      obtain ⟨got, taken, rfl⟩ := Option.map_eq_some_iff.mp stepped
      split
      · exact pods.of_get taken
      · exact (pods.of_get taken).of_handleSidecarRx _ _

end Pods

/-! ### Runs -/

section Runs

variable {service : Int → Bytes} {registered : Int → Bool} {float : PyStr → Numeral}
  {pipes : Place → List SwDescriptor}

theorem program_callOf (worker : Worker) (stack : Nat → UInt8) (message : Send.Message) :
    program service (callOf worker stack message) =
      writeCommon service worker.podId (outgoingOf worker message) stack (bodyOf message) := by
  cases message <;> rfl

/-- An atomic step is a run of the pipeline: one party takes what it works on, and
its calls follow without another's between them. -/
theorem round_runs {shm after : Shm} (pods : Pods service registered shm) {round : Round}
    (stepped : Round.step shm round = some after)
    {state : State (PoolName → BufferPool) PoolName Place SwDescriptor Question Answer Outcome
      Written} (view : state.view = viewOf shm pipes) :
    ∃ events final, run (step (system service float)) state events = some final ∧
      final.view = viewOf after pipes ∧ final.tasks = state.tasks := by
  cases round with
  | write worker message stack =>
      obtain rfl := Option.some.inj stepped
      obtain ⟨events, final, -, moves, reached, tasks⟩ := @run_start _ _ _ _ _ _ _ _ _ _
        (system service float) _ _ (answersOf registered true) (callOf worker stack message) state
      refine ⟨_, final, moves, ?_, tasks⟩
      have calls : (system service float).program (callOf worker stack message) =
          writeCommon service worker.podId (outgoingOf worker message) stack (bodyOf message) :=
        program_callOf worker stack message
      rw [reached, view, calls]
      exact runs_writeCommon pods _ _ _ _
  | hostTx podId =>
      obtain ⟨got, taken, rfl⟩ := Option.map_eq_some_iff.mp stepped
      obtain ⟨events, final, moves, reached, tasks⟩ :=
        @run_get service registered float true shm pipes state _ got view taken
      refine ⟨events, final, moves, ?_, tasks⟩
      rw [reached]
      show runs _ _ _ _ _ (if got.1.valid ≠ 1 then .done .invalid else _) _ = _
      by_cases invalid : got.1.valid ≠ 1
      · rw [if_pos invalid, if_pos invalid, runs_done]
      · rw [if_neg invalid, if_neg invalid]
        exact runs_handleHostTx (pods.of_get taken) podId got.1
  | sidecarRx present =>
      obtain ⟨got, taken, rfl⟩ := Option.map_eq_some_iff.mp stepped
      obtain ⟨events, final, moves, reached, tasks⟩ :=
        @run_get service registered float present shm pipes state _ got view taken
      refine ⟨events, final, moves, ?_, tasks⟩
      rw [reached]
      show runs _ _ _ _ _ (if got.1.valid ≠ 1 then .done .invalid else _) _ = _
      by_cases invalid : got.1.valid ≠ 1
      · rw [if_pos invalid, if_pos invalid, runs_done]
      · rw [if_neg invalid, if_neg invalid]
        exact runs_handleSidecarRx (pods.of_get taken) got.1

/-- Every run of atomic steps is a run of the pipeline, from any state that looks
alike to one that looks alike, whatever is under way there. -/
theorem rounds_run {shm after : Shm} {rounds : List Round}
    (ran : run Round.step shm rounds = some after)
    {state : State (PoolName → BufferPool) PoolName Place SwDescriptor Question Answer Outcome
      Written} (view : state.view = viewOf shm pipes) :
    ∃ events final, run (step (system shm.service float)) state events = some final ∧
      final.view = viewOf after pipes ∧ final.tasks = state.tasks := by
  have pods : Pods shm.service shm.registered shm := ⟨rfl, rfl⟩
  generalize shm.service = service at pods ⊢
  generalize shm.registered = registered at pods
  induction rounds generalizing shm state with
  | nil =>
      obtain rfl := Option.some.inj ran
      exact ⟨[], state, rfl, view, rfl⟩
  | cons round rounds inductionHypothesis =>
      obtain ⟨next, stepped, later⟩ := run_cons.mp ran
      obtain ⟨first, middle, moves, seen, tasks⟩ := @round_runs _ _ float _ _ _ pods _ stepped _ view
      obtain ⟨events, final, goes, reached, kept⟩ :=
        inductionHypothesis later seen (pods.of_step stepped)
      exact ⟨first ++ events, final, run_append.mpr ⟨middle, moves, goes⟩, reached,
        kept.trans tasks⟩

end Runs

/-- A node of one service, before the first call. -/
def emptyNode : Shm where
  pools := fun _ => .zeroed
  rings := fun _ => []
  service := fun _ => ascii "frontend"
  registered := fun _ => true

theorem view_start : start.view = viewOf emptyNode fun _ => [] := by
  have queues : start.view.queues = (viewOf emptyNode fun _ => []).queues := by
    funext place
    cases place <;> rfl
  exact congrArg (View.mk start.memory) queues

/-- A worker's request for an id, as one step and as a run. -/
theorem rounds_run_request :
    ∃ events final, run (step (system emptyNode.service fun _ => ⟨[], numeral_nil⟩)) start events =
        some final ∧
      final.view = viewOf (Atomic.writeCommon emptyNode 0
        (outgoingOf (Worker.init (ascii "frontend-0") 0)
          (.request (ascii "GET") (ascii "http://id/id?name=Kim") none)) (fun _ => 0) none)
        (fun _ => []) ∧
      final.tasks = [] :=
  @rounds_run (fun _ => ⟨[], numeral_nil⟩) (fun _ => []) emptyNode _
    [.write (Worker.init (ascii "frontend-0") 0)
      (.request (ascii "GET") (ascii "http://id/id?name=Kim") none) fun _ => 0] rfl start view_start

end MiniMs.Daemon.Pipeline
