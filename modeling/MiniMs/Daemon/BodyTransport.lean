import MiniMs.Daemon.Dma
import MiniMs.Dpumesh.Handler
import MiniMs.Dpumesh.Send

/-!
The body of a message, from the call of `dpumesh_write` to the worker that reads
it.

Owns: what it means that `_dma_case3` has carried a descriptor, the body that
`dpumesh_read` and `dpumesh_read_response` report, and the lengths for which it
is the body that was given.

The slots of the message stay as they are between the steps; the header is not
owned here. A body of 2 GiB and more is written past the end of its pool, which
the model allows.
-/

namespace MiniMs.Daemon.BodyTransport

open MiniMs.Library.Text MiniMs.Dpumesh MiniMs.Daemon.Dma
open MiniMs.Dpumesh.Send hiding HasRoom

/-! ### The way of a body -/

/-- The body of a message. -/
def bodyOf : Message → Option Bytes
  | .request _ _ body => body
  | .response _ _ body => body

/-- A call of `dpumesh_write` with a body. -/
structure Sending where
  context : Context
  message : Message
  wantsFd : Bool
  granted : Bool
  stack : Nat → UInt8
  body : Bytes
  given : bodyOf message = some body
  nonempty : body ≠ []

def Sending.written (sending : Sending) : Written :=
  dpumeshWrite sending.context sending.message sending.wantsFd sending.granted sending.stack

/-- A message that was put in `tx_sq`, and carried by `_dma_case3` to a worker
that reads it. -/
structure Journey extends Sending where
  sent : SwDescriptor
  put : toSending.written.context.txSq = toSending.context.txSq ++ [sent]
  /-- The memory and the descriptor when `_dma_case3` is called. -/
  shm : Shm
  desc : SwDescriptor
  podId : Int
  bodyLen : desc.bodyLen = sent.bodyLen
  srcBodyPoolType : desc.srcBodyPoolType = sent.srcBodyPoolType
  srcBodyPodId : desc.srcBodyPodId = sent.srcBodyPodId
  srcBodyBufSlot : desc.srcBodyBufSlot = sent.srcBodyBufSlot
  isResponse : desc.isResponse = sent.isResponse
  caseFlag : desc.caseFlag = caseLocal
  allocated : Allocated shm desc
  kept : ∀ count,
    (shm.pools (.host (shm.service sent.srcBodyPodId) .txBody)).read sent.srcBodyBufSlot count =
      toSending.written.context.pools.txBody.read sent.srcBodyBufSlot count
  /-- What the receiver takes from its ring, and its pools when it reads. -/
  rxDesc : SwDescriptor
  delivered : (dmaCase3 shm desc podId).rings (.rx podId) = shm.rings (.rx podId) ++ [rxDesc]
  rx : RxPools
  received : ∀ count, rx.rxBody.bpRead rxDesc.bodyBufSlot count =
    ((dmaCase3 shm desc podId).pools (rxBody shm podId)).read rxDesc.bodyBufSlot count

namespace Journey

/-- The body that the receiver reports. -/
def reported (journey : Journey) (junk : Bytes) (buffers : StaticBuffers) : Option Bytes :=
  if journey.rxDesc.isResponse then (readResponse journey.rx journey.rxDesc).body
  else (readRequest journey.rx junk journey.rxDesc buffers).2.body

/-- The sender's pod is in the registry. -/
def FindsSender (journey : Journey) : Prop :=
  journey.shm.registered journey.sent.srcBodyPodId = true

end Journey

/-! ### The call -/

theorem enqueue_put {context : Context} {out : Outgoing} {stack : Nat → UInt8}
    {body : Option Bytes} {sent : SwDescriptor}
    (put : (enqueue context out stack body).1.txSq = context.txSq ++ [sent]) :
    writeCommon context.pools context.txSq context.worker.podId out stack body =
      ((enqueue context out stack body).1.pools, some (context.txSq ++ [sent])) := by
  unfold enqueue at put ⊢
  cases call : writeCommon context.pools context.txSq context.worker.podId out stack body with
  | mk pools ring =>
      cases ring with
      | none =>
          rw [call] at put
          have length := congrArg List.length put
          simp at length
      | some ring =>
          rw [call] at put
          exact congrArg (fun ring => (pools, some ring)) put

/-- A call that puts a descriptor comes to the common part with the pools and
the ring as they are. -/
theorem Sending.writeCommon_eq (sending : Sending) {sent : SwDescriptor}
    (put : sending.written.context.txSq = sending.context.txSq ++ [sent]) :
    ∃ podId out, writeCommon sending.context.pools sending.context.txSq podId out sending.stack
        (some sending.body) =
      (sending.written.context.pools, some (sending.context.txSq ++ [sent])) := by
  unfold written at put ⊢
  have given := sending.given
  cases kind : sending.message with
  | request method url body =>
      rw [kind] at given put
      have body_eq : body = some sending.body := given
      unfold dpumeshWrite at put ⊢
      dsimp only at put ⊢
      cases fd : sending.wantsFd with
      | false =>
          rw [fd, if_neg (by decide)] at put
          rw [if_neg (by decide), ← body_eq]
          exact ⟨_, _, enqueue_put put⟩
      | true =>
          rw [fd, if_pos rfl] at put
          rw [if_pos rfl, ← body_eq]
          cases made : sending.context.process.pipe sending.granted with
          | none =>
              rw [made] at put
              have length := congrArg List.length put
              simp at length
          | some pipe =>
              rw [made] at put
              exact ⟨_, _, enqueue_put put⟩
  | response descIndex statusCode body =>
      rw [kind] at given put
      have body_eq : body = some sending.body := given
      unfold dpumeshWrite at put ⊢
      dsimp only at put ⊢
      rw [← body_eq]
      exact ⟨_, _, enqueue_put put⟩

/-- What the call has left for the body. -/
structure Placed (sending : Sending) (sent : SwDescriptor) : Prop where
  range : 0 ≤ sent.srcBodyBufSlot ∧ sent.srcBodyBufSlot < numSlots
  pool : sent.srcBodyPoolType = PoolType.hostTxBody.code
  length : sent.bodyLen = sending.body.length % 2 ^ 32
  bytes : sending.body.length ≤ slotSize →
    sending.written.context.pools.txBody.read sent.srcBodyBufSlot sending.body.length = sending.body

theorem Sending.placed (sending : Sending) {sent : SwDescriptor}
    (put : sending.written.context.txSq = sending.context.txSq ++ [sent]) :
    Placed sending sent := by
  obtain ⟨podId, out, call⟩ := sending.writeCommon_eq put
  obtain ⟨headerSlot, bodySlot, -, range, -, filled, ring⟩ := writeCommon_inversion call
  obtain ⟨same, -⟩ := List.cons.inj (List.append_cancel_left ring)
  have data : bodyData (some sending.body) = sending.body := by
    cases shape : sending.body with
    | nil => exact absurd shape sending.nonempty
    | cons byte rest => rfl
  rw [data] at filled
  rw [same]
  refine ⟨range, rfl, congrArg (fun bytes : Bytes => bytes.length % 2 ^ 32) data, fun fits => ?_⟩
  rw [filled]
  exact read_bpWrite _ range fits

/-! ### The carriage -/

theorem append_ne {descs : List SwDescriptor} {desc : SwDescriptor} : descs ≠ descs ++ [desc] := by
  intro same
  have length := congrArg List.length same
  simp at length

theorem deliverCase3_delivered {shm : Shm} {desc rxDesc : SwDescriptor}
    {podId headerSlot bodySlot : Int}
    (delivered : (deliverCase3 shm desc podId headerSlot bodySlot).rings (.rx podId) =
      shm.rings (.rx podId) ++ [rxDesc]) :
    rxDesc = case3RxDesc desc headerSlot bodySlot ∧
      (deliverCase3 shm desc podId headerSlot bodySlot).pools = shm.pools := by
  unfold deliverCase3 Shm.put at delivered ⊢
  by_cases full : maxDescriptors ≤ (shm.rings (.rx podId)).length
  · rw [if_pos full] at delivered
    have first := release_frame shm (rxBody shm podId) bodySlot
    have second := release_frame (release shm (rxBody shm podId) bodySlot) (rxHeader shm podId)
      headerSlot
    have same : (release (release shm (rxBody shm podId) bodySlot) (rxHeader shm podId)
        headerSlot).rings (.rx podId) = shm.rings (.rx podId) :=
      congrFun (second.1.trans first.1) _
    exact absurd (same.symm.trans delivered) append_ne
  · rw [if_neg full] at delivered ⊢
    have entry : Function.update shm.rings (.rx podId)
        (shm.rings (.rx podId) ++ [case3RxDesc desc headerSlot bodySlot]) (.rx podId) =
          shm.rings (.rx podId) ++ [rxDesc] := delivered
    rw [Function.update_self] at entry
    exact ⟨(List.singleton_inj.mp (List.append_cancel_left entry)).symm, rfl⟩

/-- What the second half does where it delivers: the receiver's body slots keep
their bytes. -/
theorem moveHeader_delivered {shm : Shm} {desc rxDesc : SwDescriptor} {podId bodySlot : Int}
    (inside : ∀ slot, shm.headerSource desc = some slot → slot.index < numSlots)
    (delivered : (moveHeader shm desc podId bodySlot).rings (.rx podId) =
      shm.rings (.rx podId) ++ [rxDesc]) :
    ∃ headerSlot, rxDesc = case3RxDesc desc headerSlot bodySlot ∧
      ∀ slot : Slot, slot.pool = rxBody shm podId → ∀ count,
        (moveHeader shm desc podId bodySlot).read slot count = shm.read slot count := by
  unfold moveHeader at delivered ⊢
  cases found : headerPool shm desc with
  | none =>
      rw [found] at delivered
      obtain ⟨same, pools⟩ := deliverCase3_delivered delivered
      refine ⟨-1, same, fun slot _ count => ?_⟩
      unfold Shm.read
      exact congrArg (fun pools : PoolName → BufferPool =>
        (pools slot.pool).read slot.index count) pools
  | some pool =>
      obtain ⟨there, positive, source⟩ := headerSource_of_headerPool found
      obtain ⟨index, shape⟩ := Int.eq_ofNat_of_zero_le there
      rw [shape, Int.toNat_natCast] at source
      rw [found, shape] at delivered
      rw [shape]
      dsimp only at delivered ⊢
      have below := inside _ source
      rcases shm.copyBuffer_cases below positive (rxHeader shm podId) with
        ⟨_, fails⟩ | ⟨after, target, copies, copied⟩
      · have negative : (-1 : Int) < 0 := by decide
        rw [fails] at delivered
        dsimp only at delivered
        rw [if_pos negative] at delivered
        have frame := release_frame shm (rxBody shm podId) bodySlot
        exact absurd ((congrFun frame.1 _).symm.trans delivered) append_ne
      · have noTarget : ¬ (target : Int) < 0 := by omega
        rw [copies] at delivered ⊢
        dsimp only at delivered ⊢
        rw [if_neg noTarget] at delivered ⊢
        have rings : (after.free pool index).rings = shm.rings := copied.rings
        rw [← rings] at delivered
        obtain ⟨same, pools⟩ := deliverCase3_delivered delivered
        refine ⟨target, same, fun slot body count => ?_⟩
        have other : slot ≠ ⟨rxHeader shm podId, target⟩ := by
          intro equal
          rw [equal] at body
          unfold rxHeader rxBody at body
          simp at body
        rw [← copied.others slot other count]
        refine Eq.trans ?_ (@Shm.read_free after ⟨pool, index⟩ below slot count)
        unfold Shm.read
        exact congrArg (fun pools : PoolName → BufferPool =>
          (pools slot.pool).read slot.index count) pools

/-- What the step does where it delivers: the body arrives if its pool is
found. -/
theorem dmaCase3_delivered {shm : Shm} {desc rxDesc : SwDescriptor} {podId : Int}
    (allocated : Allocated shm desc)
    (delivered : (dmaCase3 shm desc podId).rings (.rx podId) =
      shm.rings (.rx podId) ++ [rxDesc]) :
    ∃ headerSlot bodySlot, rxDesc = case3RxDesc desc headerSlot bodySlot ∧
      (bodyPool shm desc = none → bodySlot = -1) ∧
      ∀ pool, bodyPool shm desc = some pool → 0 ≤ bodySlot ∧ bodySlot < numSlots ∧
        ((dmaCase3 shm desc podId).pools (rxBody shm podId)).read bodySlot desc.bodyLen =
          (shm.pools pool).read desc.srcBodyBufSlot desc.bodyLen := by
  have inside : ∀ slot, shm.headerSource desc = some slot → slot.index < numSlots :=
    fun slot source => ((forall_sources.mp allocated.marked).1 slot source).1
  unfold dmaCase3 at delivered ⊢
  rcases body_cases shm desc podId allocated with
    found | ⟨pool, index, found, shape, body, held, way⟩
  · rw [found] at delivered
    obtain ⟨headerSlot, same, _⟩ := moveHeader_delivered inside delivered
    refine ⟨headerSlot, -1, same, fun _ => rfl, fun pool there => ?_⟩
    rw [found] at there
    contradiction
  · rw [found, shape] at delivered
    dsimp only at delivered
    rcases way with ⟨_, fails⟩ | ⟨after, target, copies, copied⟩
    · have negative : (-1 : Int) < 0 := by decide
      rw [fails] at delivered
      dsimp only at delivered
      rw [if_pos negative] at delivered
      have same : (shm.put .sidecarRx desc).1.rings (.rx podId) = shm.rings (.rx podId) := by
        unfold Shm.put
        split
        · rfl
        · have other : RingName.rx podId ≠ .sidecarRx := by simp
          exact Function.update_of_ne other (shm.rings .sidecarRx ++ [desc]) shm.rings
      exact absurd (same.symm.trans delivered) append_ne
    · have noTarget : ¬ (target : Int) < 0 := by omega
      rw [copies] at delivered
      dsimp only at delivered
      rw [if_neg noTarget] at delivered
      have rings : (after.free pool index).rings = shm.rings := copied.rings
      have service : (after.free pool index).service = shm.service := copied.service
      have sameSource : (after.free pool index).headerSource desc = shm.headerSource desc := by
        unfold Shm.headerSource Shm.poolOf
        rw [service]
      have pool_eq : rxBody (after.free pool index) podId = rxBody shm podId := by
        unfold rxBody
        rw [service]
      rw [← rings] at delivered
      obtain ⟨headerSlot, same, bytes⟩ := moveHeader_delivered (by rw [sameSource]; exact inside)
        delivered
      refine ⟨headerSlot, target, same, fun none => ?_, fun other there => ?_⟩
      · rw [found] at none
        contradiction
      · rw [found] at there
        cases there
        have arrived := bytes ⟨rxBody shm podId, target⟩ pool_eq.symm desc.bodyLen
        rw [@Shm.read_free after ⟨pool, index⟩ held.1, copied.bytes] at arrived
        rw [found, shape]
        dsimp only
        rw [copies]
        dsimp only
        rw [if_neg noTarget]
        exact ⟨Int.natCast_nonneg target, Int.ofNat_lt.mpr copied.inside, arrived⟩

/-! ### The body that is reported -/

theorem readHeaderKeys_body (json : Bytes) (buffers : StaticBuffers) (req : Request) :
    (readHeaderKeys json buffers req).2.body = req.body := rfl

/-- Both readers take the body from its slot, one byte short of the buffer. -/
theorem Journey.reported_eq (journey : Journey) (junk : Bytes) (buffers : StaticBuffers)
    (caseFlag : journey.rxDesc.caseFlag = caseLocal) :
    journey.reported junk buffers =
      if 0 ≤ journey.rxDesc.bodyBufSlot ∧ 0 < journey.rxDesc.bodyLen then
        some (journey.rx.rxBody.bpRead journey.rxDesc.bodyBufSlot
          (if journey.rxDesc.bodyLen < slotSize then journey.rxDesc.bodyLen else slotSize - 1))
      else none := by
  have case : journey.rxDesc.caseFlag ≠ caseIngress := by
    rw [caseFlag]
    decide
  have header : (readLocalHeader journey.rx journey.rxDesc buffers).2.body = none := by
    unfold readLocalHeader
    split
    · rfl
    · rfl
  unfold reported
  split
  · rfl
  · unfold readRequest readLocal
    rw [if_neg case]
    dsimp only
    split
    · rfl
    · exact header

namespace Journey

variable (journey : Journey)

theorem length_pos : 0 < journey.body.length := List.length_pos_of_ne_nil journey.nonempty

/-- What arrives in the receiver's ring. -/
theorem arrival : ∃ headerSlot bodySlot,
    journey.rxDesc = case3RxDesc journey.desc headerSlot bodySlot ∧
      (bodyPool journey.shm journey.desc = none → bodySlot = -1) ∧
      ∀ pool, bodyPool journey.shm journey.desc = some pool → 0 ≤ bodySlot ∧ bodySlot < numSlots ∧
        journey.rx.rxBody.bpRead bodySlot journey.desc.bodyLen =
          (journey.shm.pools pool).read journey.desc.srcBodyBufSlot journey.desc.bodyLen := by
  obtain ⟨headerSlot, bodySlot, same, absent, copied⟩ :=
    dmaCase3_delivered journey.allocated journey.delivered
  refine ⟨headerSlot, bodySlot, same, absent, fun pool found => ?_⟩
  obtain ⟨low, high, bytes⟩ := copied pool found
  have received := journey.received journey.desc.bodyLen
  rw [same] at received
  exact ⟨low, high, received.trans bytes⟩

/-- Whatever the body is, at most a slot less one byte is reported. -/
theorem length_reported_lt {junk : Bytes} {buffers : StaticBuffers} {bytes : Bytes}
    (reported : journey.reported junk buffers = some bytes) : bytes.length < slotSize := by
  obtain ⟨headerSlot, bodySlot, same, _⟩ := journey.arrival
  have caseFlag : journey.rxDesc.caseFlag = caseLocal := by
    rw [same]
    exact journey.caseFlag
  have positive : 0 < slotSize := by decide
  rw [journey.reported_eq junk buffers caseFlag] at reported
  split at reported
  · rw [← Option.some.inj reported]
    unfold BufferPool.bpRead
    split
    · exact positive
    · rw [BufferPool.length_bytesAt]
      split
      · omega
      · omega
  · contradiction

theorem desc_bodyLen (small : journey.body.length < slotSize) :
    journey.desc.bodyLen = journey.body.length := by
  rw [journey.bodyLen, (journey.placed journey.put).length]
  exact Nat.mod_eq_of_lt (Nat.lt_trans small (by decide))

/-- The body is found where the sender's pod is in the registry. -/
theorem bodyPool_eq (small : journey.body.length < slotSize) :
    bodyPool journey.shm journey.desc =
      if journey.shm.registered journey.sent.srcBodyPodId then
        some (.host (journey.shm.service journey.sent.srcBodyPodId) .txBody)
      else none := by
  have placed := journey.placed journey.put
  have length := journey.desc_bodyLen small
  have positive := journey.length_pos
  have there : 0 ≤ journey.desc.srcBodyBufSlot ∧ 0 < journey.desc.bodyLen := by
    rw [journey.srcBodyBufSlot, length]
    exact ⟨placed.range.1, positive⟩
  unfold bodyPool
  rw [if_pos there, journey.srcBodyPoolType, journey.srcBodyPodId, placed.pool]
  rfl

/-- A body is reported as it was given if it is shorter than a slot and its
sender is found. -/
theorem reported_iff (junk : Bytes) (buffers : StaticBuffers) :
    journey.reported junk buffers = some journey.body ↔
      journey.body.length < slotSize ∧ journey.FindsSender := by
  have placed := journey.placed journey.put
  obtain ⟨headerSlot, bodySlot, same, absent, copied⟩ := journey.arrival
  have caseFlag : journey.rxDesc.caseFlag = caseLocal := by
    rw [same]
    exact journey.caseFlag
  have slot : journey.rxDesc.bodyBufSlot = bodySlot := congrArg SwDescriptor.bodyBufSlot same
  have bodyLen : journey.rxDesc.bodyLen = journey.desc.bodyLen := by
    rw [same]
    rfl
  unfold FindsSender
  by_cases small : journey.body.length < slotSize
  · have length := journey.desc_bodyLen small
    have positive := journey.length_pos
    have found := journey.bodyPool_eq small
    rw [journey.reported_eq junk buffers caseFlag, slot, bodyLen, length, if_pos small]
    by_cases registered : journey.shm.registered journey.sent.srcBodyPodId = true
    · rw [if_pos registered] at found
      obtain ⟨low, _, bytes⟩ := copied _ found
      have body : journey.rx.rxBody.bpRead bodySlot journey.body.length = journey.body := by
        calc journey.rx.rxBody.bpRead bodySlot journey.body.length
            = (journey.shm.pools (.host (journey.shm.service journey.sent.srcBodyPodId)
                .txBody)).read journey.sent.srcBodyBufSlot journey.body.length := by
              rw [← length, ← journey.srcBodyBufSlot]
              exact bytes
          _ = journey.written.context.pools.txBody.read journey.sent.srcBodyBufSlot
                journey.body.length := journey.kept _
          _ = journey.body := placed.bytes (Nat.le_of_lt small)
      rw [if_pos ⟨low, positive⟩, body]
      exact iff_of_true rfl ⟨small, registered⟩
    · rw [if_neg registered] at found
      have noSlot : ¬ (0 ≤ bodySlot ∧ 0 < journey.body.length) := by
        have negative := absent found
        omega
      rw [if_neg noSlot]
      exact iff_of_false (Option.some_ne_none _).symm (fun condition => registered condition.2)
  · refine iff_of_false (fun reported => ?_) (fun condition => small condition.1)
    exact small (journey.length_reported_lt reported)

end Journey

/-! ### A journey for every body -/

/-- With room in the ring the message is delivered. -/
theorem deliverCase3_delivers {shm : Shm} {podId : Int} (room : HasRoom shm (.rx podId))
    (desc : SwDescriptor) (headerSlot bodySlot : Int) :
    ∃ rxDesc, (deliverCase3 shm desc podId headerSlot bodySlot).rings (.rx podId) =
      shm.rings (.rx podId) ++ [rxDesc] := by
  have accepts : ¬ maxDescriptors ≤ (shm.rings (.rx podId)).length := Nat.not_le.mpr room
  unfold deliverCase3 Shm.put
  rw [if_neg accepts]
  exact ⟨_, Function.update_self _ _ _⟩

theorem moveHeader_delivers {shm : Shm} {desc : SwDescriptor} {podId : Int}
    (room : HasRoom shm (.rx podId))
    (inside : ∀ slot, shm.headerSource desc = some slot → slot.index < numSlots)
    (free : ¬ (shm.pools (rxHeader shm podId)).Full) (bodySlot : Int) :
    ∃ rxDesc, (moveHeader shm desc podId bodySlot).rings (.rx podId) =
      shm.rings (.rx podId) ++ [rxDesc] := by
  unfold moveHeader
  cases found : headerPool shm desc with
  | none => exact deliverCase3_delivers room desc (-1) bodySlot
  | some pool =>
      obtain ⟨there, positive, source⟩ := headerSource_of_headerPool found
      obtain ⟨index, shape⟩ := Int.eq_ofNat_of_zero_le there
      rw [shape, Int.toNat_natCast] at source
      rw [shape]
      dsimp only
      rcases shm.copyBuffer_cases (inside _ source) positive (rxHeader shm podId) with
        ⟨full, _⟩ | ⟨after, target, copies, copied⟩
      · exact absurd full free
      · have noTarget : ¬ (target : Int) < 0 := by omega
        have rings : (after.free pool index).rings = shm.rings := copied.rings
        have moved : HasRoom (after.free pool index) (.rx podId) := by
          unfold HasRoom
          rw [rings]
          exact room
        rw [copies]
        dsimp only
        rw [if_neg noTarget, ← rings]
        exact deliverCase3_delivers moved desc target bodySlot

theorem dmaCase3_delivers {shm : Shm} {desc : SwDescriptor} {podId : Int}
    (allocated : Allocated shm desc) (room : HasRoom shm (.rx podId))
    (bodyFree : ¬ (shm.pools (rxBody shm podId)).Full)
    (headerFree : ¬ (shm.pools (rxHeader shm podId)).Full) :
    ∃ rxDesc, (dmaCase3 shm desc podId).rings (.rx podId) =
      shm.rings (.rx podId) ++ [rxDesc] := by
  have inside : ∀ slot, shm.headerSource desc = some slot → slot.index < numSlots :=
    fun slot source => ((forall_sources.mp allocated.marked).1 slot source).1
  unfold dmaCase3
  rcases body_cases shm desc podId allocated with
    found | ⟨pool, index, found, shape, body, held, way⟩
  · rw [found]
    exact moveHeader_delivers room inside headerFree (-1)
  · rw [found, shape]
    dsimp only
    rcases way with ⟨full, _⟩ | ⟨after, target, copies, copied⟩
    · exact absurd full bodyFree
    · have noTarget : ¬ (target : Int) < 0 := by omega
      have rings : (after.free pool index).rings = shm.rings := copied.rings
      have service : (after.free pool index).service = shm.service := copied.service
      have moved : HasRoom (after.free pool index) (.rx podId) := by
        unfold HasRoom
        rw [rings]
        exact room
      have sameSource : (after.free pool index).headerSource desc = shm.headerSource desc := by
        unfold Shm.headerSource Shm.poolOf
        rw [service]
      have header : rxHeader (after.free pool index) podId = rxHeader shm podId := by
        unfold rxHeader
        rw [service]
      have free : ¬ ((after.free pool index).pools (rxHeader (after.free pool index) podId)).Full := by
        rw [header]
        intro full
        apply headerFree
        intro other below
        have marked := (@Shm.marked_free after ⟨pool, index⟩ held.1
          ⟨rxHeader shm podId, other⟩).mp ⟨below, full other below⟩
        refine (((copied.marked _).mp marked.1).resolve_right ?_).2
        unfold rxHeader rxBody
        simp
      rw [copies]
      dsimp only
      rw [if_neg noTarget, ← rings]
      exact moveHeader_delivers moved (by rw [sameSource]; exact inside) free target

/-- A worker that calls another service, with nothing in its pools. -/
def idleContext : Context where
  worker := Worker.init (ascii "frontend-worker-0") 1
  pools := ⟨.zeroed, .zeroed⟩
  txSq := []
  responsePipeFds := fun _ => -1
  process := ⟨fun fd => decide (fd < 3), 1024⟩

/-- Its request with a body. -/
def posting (body : Bytes) (nonempty : body ≠ []) : Sending where
  context := idleContext
  message := .request (ascii "POST") (ascii "http://id-service/id") (some body)
  wantsFd := false
  granted := true
  stack := fun _ => 0
  body := body
  given := rfl
  nonempty := nonempty

/-- The node when the request is with the sidecar, its header in the DPU's
pool. -/
def nodeWith (txBody : BufferPool) : Shm where
  pools
    | .host _ .txBody => txBody
    | .dpuTxHeader => BufferPool.zeroed.mark 0 1
    | _ => .zeroed
  rings := fun _ => []
  service := fun _ => ascii "frontend"
  registered := fun _ => true

theorem nodeWith_allocated {txBody : BufferPool} {sent : SwDescriptor} {slot : Nat}
    (inside : slot < numSlots) (taken : txBody.taken slot = true)
    (pool : sent.srcBodyPoolType = PoolType.hostTxBody.code) (named : sent.srcBodyBufSlot = slot) :
    Allocated (nodeWith txBody) (sidecarDesc sent 0) := by
  have header : (nodeWith txBody).headerSource (sidecarDesc sent 0) = some ⟨.dpuTxHeader, 0⟩ := rfl
  have body : (nodeWith txBody).bodySource (sidecarDesc sent 0) =
      some ⟨.host (ascii "frontend") .txBody, slot⟩ := by
    have slot_eq : (sidecarDesc sent 0).srcBodyBufSlot = slot := named
    have type_eq : (sidecarDesc sent 0).srcBodyPoolType = PoolType.hostTxBody.code := pool
    unfold Shm.bodySource
    rw [slot_eq, type_eq, if_pos (Int.natCast_nonneg slot), Int.toNat_natCast]
    rfl
  constructor
  · rw [forall_sources, header, body]
    constructor
    · intro source same
      rw [← Option.some.inj same]
      exact ⟨Nat.zero_lt_succ 63, rfl⟩
    · intro source same
      rw [← Option.some.inj same]
      exact ⟨inside, taken⟩
  · unfold Shm.sources
    rw [header, body]
    simp

theorem enqueue_of_writeCommon {context : Context} {out : Outgoing} {stack : Nat → UInt8}
    {body : Option Bytes} {after : TxPools} {ring : List SwDescriptor}
    (call : writeCommon context.pools context.txSq context.worker.podId out stack body =
      (after, some ring)) :
    (enqueue context out stack body).1 = { context with pools := after, txSq := ring } := by
  unfold enqueue
  rw [call]

/-- What is left of the request. -/
theorem posting_written (body : Bytes) (nonempty : body ≠ []) :
    ∃ (after : TxPools) (sent : SwDescriptor) (slot : Nat),
      (posting body nonempty).written.context.txSq = [sent] ∧
        (posting body nonempty).written.context.pools = after ∧ slot < numSlots ∧
        after.txBody.taken slot = true ∧ sent.srcBodyPoolType = PoolType.hostTxBody.code ∧
        sent.srcBodyBufSlot = slot ∧ sent.flags = opRequest ||| caseLocal := by
  let prepared : Context := { idleContext with
    worker := (writeRequest idleContext.worker (ascii "POST") (ascii "http://id-service/id")).1 }
  let out := (writeRequest idleContext.worker (ascii "POST") (ascii "http://id-service/id")).2
  have written : (posting body nonempty).written.context =
      (enqueue prepared out (fun _ => 0) (some body)).1 := by
    unfold Sending.written posting dpumeshWrite
    dsimp only
    rw [if_neg (by decide)]
  have empty : ¬ BufferPool.zeroed.Full := by decide
  rcases writeCommon_cases ⟨.zeroed, .zeroed⟩ [] 1 out (fun _ => 0) (some body) with
    ⟨after, headerSlot, bodySlot, sent, call, _, takes, _, named, _⟩ | ⟨after, _, _, _, reason⟩
  · have context := @enqueue_of_writeCommon prepared out _ _ _ _ call
    obtain ⟨_, slot, _, _, _, _, ring⟩ := writeCommon_inversion call
    obtain ⟨same, -⟩ := List.cons.inj (List.append_cancel_left ring)
    have slot_eq : slot = bodySlot := by
      rw [same] at named
      exact named
    refine ⟨after, sent, bodySlot, ?_, ?_, takes.inside, takes.taken, ?_, ?_, ?_⟩
    · rw [written, context]
      rfl
    · rw [written, context]
    · rw [same]
      rfl
    · rw [same]
      exact slot_eq
    · rw [same]
      rfl
  · rcases reason with full | full | full
    · exact absurd full empty
    · exact absurd full empty
    · exact absurd full (by decide)

/-- Whatever its length, a body can be put and carried. -/
theorem exists_journey (body : Bytes) (nonempty : body ≠ []) :
    ∃ journey : Journey, journey.body = body ∧ journey.FindsSender := by
  obtain ⟨after, sent, slot, txSq, pools, inside, taken, pool, named, flags⟩ :=
    posting_written body nonempty
  have allocated := nodeWith_allocated inside taken pool named
  have empty : ¬ BufferPool.zeroed.Full := by decide
  obtain ⟨rxDesc, delivered⟩ := @dmaCase3_delivers (nodeWith after.txBody) _ 2 allocated
    (Nat.zero_lt_succ 511) empty empty
  let done := dmaCase3 (nodeWith after.txBody) (sidecarDesc sent 0) 2
  exact ⟨{
    toSending := posting body nonempty
    sent := sent
    put := txSq
    shm := nodeWith after.txBody
    desc := sidecarDesc sent 0
    podId := 2
    bodyLen := rfl
    srcBodyPoolType := rfl
    srcBodyPodId := rfl
    srcBodyBufSlot := rfl
    isResponse := rfl
    caseFlag := by
      show sent.flags &&& 0x0F = caseLocal
      rw [flags]
      rfl
    allocated := allocated
    kept := by
      intro count
      rw [pools]
      rfl
    rxDesc := rxDesc
    delivered := delivered
    rx := ⟨done.pools (rxHeader (nodeWith after.txBody) 2),
      done.pools (rxBody (nodeWith after.txBody) 2)⟩
    received := fun _ => rfl }, rfl, rfl⟩

/-- A body of exactly 1 MiB fits its slots and is reported a byte short. -/
theorem not_reported : ∃ journey : Journey, journey.body = List.replicate slotSize 65 ∧
    journey.FindsSender ∧ journey.reported [] {} ≠ some journey.body := by
  have nonempty : List.replicate slotSize (65 : UInt8) ≠ [] := by
    intro empty
    have length := congrArg List.length empty
    rw [List.length_replicate] at length
    exact absurd length (by decide)
  obtain ⟨journey, body, finds⟩ := exists_journey _ nonempty
  refine ⟨journey, body, finds, fun reported => ?_⟩
  have short := journey.length_reported_lt reported
  rw [body, List.length_replicate] at short
  exact Nat.lt_irrefl _ short

end MiniMs.Daemon.BodyTransport
