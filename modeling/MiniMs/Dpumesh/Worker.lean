import MiniMs.Dpumesh.BufferPool
import MiniMs.Dpumesh.HeaderText

/-!
One DPUmesh worker: the state of `dpumesh_ctx` that requests and responses go
through, and the two functions that move them.

Owns: the inbound table, the static buffers of `dpumesh_read`, the treatment of
one descriptor by `dpumesh_read`, and the part of `dpumesh_write` that puts a
request or a response together before any slot is allocated.

`header_json` lives on the stack and is not initialised, so what it holds when
`parse_case2_body` fails is an argument of the model. Pools and rings belong to
other modules.
-/

namespace MiniMs.Dpumesh

open MiniMs.Library.Text

/-- `dpumesh_inbound_t`. -/
structure Inbound where
  reqId : Nat := 0
  reqIdStr : Bytes := []
  sourceWorker : Bytes := []
  caseFlag : UInt8 := 0
  active : Bool := false
deriving DecidableEq, Repr

/-- The static buffers of `dpumesh_read`, zero before the first request. -/
structure StaticBuffers where
  methodBuf : Bytes := []
  pathBuf : Bytes := []
  qsBuf : Bytes := []
  reqBodyBuf : Bytes := []
deriving DecidableEq, Repr

/-- `dpumesh_request_t`; `none` is a NULL pointer, and `body_len` is the length
of the body. -/
structure Request where
  method : Option Bytes := none
  path : Option Bytes := none
  queryString : Option Bytes := none
  body : Option Bytes := none
  reqIdStr : Bytes := []
  sourceWorker : Bytes := []
  destWorker : Bytes := []
  reqId : Nat := 0
  srcPodId : Int := 0
  headerSlot : Int := 0
  bodySlot : Int := 0
  caseFlag : UInt8 := 0
  descIndex : Nat := 0
deriving DecidableEq, Repr

/-- The worker's own state. -/
structure Worker where
  workerId : Bytes
  podId : Int
  nextReqId : Nat
  inbound : Nat → Inbound
  buffers : StaticBuffers

/-- A worker as `dpumesh_init` leaves it. -/
def Worker.init (workerId : Bytes) (podId : Int) : Worker where
  workerId := workerId
  podId := podId
  nextReqId := 1
  inbound := fun _ => {}
  buffers := {}

/-! ### `dpumesh_read` -/

/-- The RX pools of the worker's service. -/
structure RxPools where
  rxHeader : BufferPool
  rxBody : BufferPool

/-- The six look-ups that both cases make on a header text. -/
def readHeaderKeys (json : Bytes) (buffers : StaticBuffers) (req : Request) :
    StaticBuffers × Request :=
  let buffers :=
    { buffers with
      methodBuf := (jsonGetStr json (ascii "method") 16).getD buffers.methodBuf
      pathBuf := (jsonGetStr json (ascii "path") 256).getD buffers.pathBuf
      qsBuf := (jsonGetStr json (ascii "query_string") 512).getD buffers.qsBuf }
  (buffers,
    { req with
      method := some buffers.methodBuf
      path := some buffers.pathBuf
      queryString := some buffers.qsBuf
      reqIdStr := (jsonGetStr json (ascii "req_id_str") 64).getD req.reqIdStr
      sourceWorker := (jsonGetStr json (ascii "source_worker") 128).getD req.sourceWorker
      destWorker := (jsonGetStr json (ascii "dest_worker") 128).getD req.destWorker })

/-- The request before its texts are read, as `memset` and the descriptor set
it. -/
def blankRequest (desc : SwDescriptor) : Request where
  reqId := desc.reqId
  srcPodId := desc.srcPodId
  headerSlot := desc.headerBufSlot
  bodySlot := desc.bodyBufSlot
  caseFlag := desc.caseFlag
  descIndex := desc.reqId % maxPending

/-- `combined`: the body slot of Case 2. -/
def combinedText (rx : RxPools) (desc : SwDescriptor) : Bytes :=
  cstr (rx.rxBody.bpRead desc.bodyBufSlot
    (if desc.bodyLen < slotSize then desc.bodyLen else slotSize - 1))

/-- `req_hdr_buf`: the header slot of Case 3. -/
def localHeaderText (rx : RxPools) (desc : SwDescriptor) : Bytes :=
  cstr (rx.rxHeader.bpRead desc.headerBufSlot
    (if desc.headerLen < headerBufSize then desc.headerLen else headerBufSize - 1))

/-- Case 2: header and body combined in the body slot. -/
def readIngress (rx : RxPools) (junk : Bytes) (desc : SwDescriptor) (buffers : StaticBuffers) :
    StaticBuffers × Request :=
  if 0 ≤ desc.bodyBufSlot ∧ 0 < desc.bodyLen then
    let parsed := parseCase2Body (combinedText rx desc) headerBufSize slotSize
    let headerJson := (parsed.map Prod.fst).getD (cstr junk)
    let buffers := { buffers with reqBodyBuf := (parsed.map Prod.snd).getD buffers.reqBodyBuf }
    let (buffers, req) := readHeaderKeys headerJson buffers (blankRequest desc)
    (buffers, { req with body := some (cstr buffers.reqBodyBuf) })
  else (buffers, blankRequest desc)

/-- Case 3, the header: in the RX header pool. -/
def readLocalHeader (rx : RxPools) (desc : SwDescriptor) (buffers : StaticBuffers) :
    StaticBuffers × Request :=
  if 0 ≤ desc.headerBufSlot ∧ 0 < desc.headerLen then
    readHeaderKeys (localHeaderText rx desc) buffers (blankRequest desc)
  else (buffers, blankRequest desc)

/-- Case 3: the header, then the body in the RX body pool. -/
def readLocal (rx : RxPools) (desc : SwDescriptor) (buffers : StaticBuffers) :
    StaticBuffers × Request :=
  let (buffers, req) := readLocalHeader rx desc buffers
  if 0 ≤ desc.bodyBufSlot ∧ 0 < desc.bodyLen then
    let body := rx.rxBody.bpRead desc.bodyBufSlot
      (if desc.bodyLen < slotSize then desc.bodyLen else slotSize - 1)
    ({ buffers with reqBodyBuf := body }, { req with body := some body })
  else (buffers, req)

/-- The request that `dpumesh_read` makes of a descriptor. -/
def readRequest (rx : RxPools) (junk : Bytes) (desc : SwDescriptor) (buffers : StaticBuffers) :
    StaticBuffers × Request :=
  if desc.caseFlag = caseIngress then readIngress rx junk desc buffers
  else readLocal rx desc buffers

/-- The inbound entry kept for a request. -/
def inboundOf (req : Request) : Inbound where
  reqId := req.reqId
  reqIdStr := snprintf 64 req.reqIdStr
  sourceWorker := snprintf 128 req.sourceWorker
  caseFlag := req.caseFlag
  active := true

/-- One round of the loop of `dpumesh_read`, up to the call of `on_req`. -/
def dpumeshRead (rx : RxPools) (junk : Bytes) (worker : Worker) (desc : SwDescriptor) :
    Worker × Request :=
  let (buffers, req) := readRequest rx junk desc worker.buffers
  ({ worker with
      buffers := buffers
      inbound := Function.update worker.inbound req.descIndex (inboundOf req) }, req)

/-! ### What a request takes from its descriptor -/

/-- The combined text of a slot that holds nothing else. -/
theorem combinedText_copyIn (header pool : BufferPool) {desc : SwDescriptor} {text : Bytes}
    (range : 0 ≤ desc.bodyBufSlot ∧ desc.bodyBufSlot < numSlots)
    (length : desc.bodyLen = text.length) (fits : text.length < slotSize) :
    combinedText ⟨header, pool.copyIn (BufferPool.offset desc.bodyBufSlot.toNat) text⟩ desc =
      cstr text := by
  unfold combinedText
  rw [length, if_pos fits]
  exact congrArg cstr (BufferPool.bpRead_copyIn pool range (Nat.le_of_lt fits))

/-- The header text of a slot that holds nothing else. -/
theorem localHeaderText_copyIn (pool body : BufferPool) {desc : SwDescriptor} {text : Bytes}
    (range : 0 ≤ desc.headerBufSlot ∧ desc.headerBufSlot < numSlots)
    (length : desc.headerLen = text.length) (fits : text.length < headerBufSize) :
    localHeaderText ⟨pool.copyIn (BufferPool.offset desc.headerBufSlot.toNat) text, body⟩ desc =
      cstr text := by
  have small : text.length ≤ slotSize := by
    unfold headerBufSize at fits
    unfold slotSize
    omega
  unfold localHeaderText
  rw [length, if_pos fits]
  exact congrArg cstr (BufferPool.bpRead_copyIn pool range small)

@[simp] theorem readHeaderKeys_reqId (json : Bytes) (buffers : StaticBuffers) (req : Request) :
    (readHeaderKeys json buffers req).2.reqId = req.reqId := rfl

@[simp] theorem readHeaderKeys_descIndex (json : Bytes) (buffers : StaticBuffers) (req : Request) :
    (readHeaderKeys json buffers req).2.descIndex = req.descIndex := rfl

/-- A property that every blank request has and every header text keeps holds
of the request that is handed over. -/
theorem readRequest_induction {motive : Request → Prop} (rx : RxPools) (junk : Bytes)
    (desc : SwDescriptor) (buffers : StaticBuffers) (blank : motive (blankRequest desc))
    (keys : ∀ json kept, motive (readHeaderKeys json kept (blankRequest desc)).2)
    (body : ∀ req text, motive req → motive { req with body := some text }) :
    motive (readRequest rx junk desc buffers).2 := by
  have header : motive (readLocalHeader rx desc buffers).2 := by
    unfold readLocalHeader
    split
    · exact keys _ _
    · exact blank
  unfold readRequest
  split
  · unfold readIngress
    split
    · exact body _ _ (keys _ _)
    · exact blank
  · unfold readLocal
    dsimp only
    split
    · exact body _ _ header
    · exact header

/-- Case 3 with a header and no body. -/
theorem readRequest_header_only {rx : RxPools} {desc : SwDescriptor}
    (case : desc.caseFlag ≠ caseIngress) (header : 0 ≤ desc.headerBufSlot ∧ 0 < desc.headerLen)
    (body : desc.bodyBufSlot < 0) (junk : Bytes) (buffers : StaticBuffers) :
    readRequest rx junk desc buffers =
      readHeaderKeys (localHeaderText rx desc) buffers (blankRequest desc) := by
  have absent : ¬ (0 ≤ desc.bodyBufSlot ∧ 0 < desc.bodyLen) := by omega
  unfold readRequest readLocal readLocalHeader
  rw [if_neg case, if_pos header]
  exact if_neg absent

/-- Case 3 with a header: only the body depends on the rest. -/
theorem readRequest_local {rx : RxPools} (desc : SwDescriptor) (case : desc.caseFlag ≠ caseIngress)
    (header : 0 ≤ desc.headerBufSlot ∧ 0 < desc.headerLen) (junk : Bytes) (buffers : StaticBuffers) :
    ∃ body, (readRequest rx junk desc buffers).2 =
      { (readHeaderKeys (localHeaderText rx desc) buffers (blankRequest desc)).2 with
        body := body } := by
  unfold readRequest readLocal readLocalHeader
  rw [if_neg case, if_pos header]
  dsimp only
  split
  · exact ⟨_, rfl⟩
  · exact ⟨_, rfl⟩

theorem readRequest_reqId (rx : RxPools) (junk : Bytes) (desc : SwDescriptor)
    (buffers : StaticBuffers) : (readRequest rx junk desc buffers).2.reqId = desc.reqId := by
  apply readRequest_induction (motive := fun req => req.reqId = desc.reqId)
  · rfl
  · exact fun _ _ => rfl
  · exact fun _ _ kept => kept

theorem readRequest_descIndex (rx : RxPools) (junk : Bytes) (desc : SwDescriptor)
    (buffers : StaticBuffers) :
    (readRequest rx junk desc buffers).2.descIndex = desc.reqId % maxPending := by
  apply readRequest_induction (motive := fun req => req.descIndex = desc.reqId % maxPending)
  · rfl
  · exact fun _ _ => rfl
  · exact fun _ _ kept => kept

/-- The two texts kept in the inbound table fit its fields. -/
theorem readRequest_fits (rx : RxPools) (junk : Bytes) (desc : SwDescriptor)
    (buffers : StaticBuffers) :
    (readRequest rx junk desc buffers).2.reqIdStr.length < 64 ∧
      (readRequest rx junk desc buffers).2.sourceWorker.length < 128 := by
  apply readRequest_induction (motive := fun req =>
    req.reqIdStr.length < 64 ∧ req.sourceWorker.length < 128)
  · show 0 < 64 ∧ 0 < 128
    decide
  · intro json kept
    exact ⟨length_jsonGetStr_getD (Nat.le_refl _) (Nat.zero_lt_succ _),
      length_jsonGetStr_getD (Nat.le_refl _) (Nat.zero_lt_succ _)⟩
  · exact fun _ _ kept => kept

/-! ### `dpumesh_write`, up to the allocation of the TX slots -/

/-- What the two message types have made when `dpumesh_write` comes to the
common part. -/
structure Outgoing where
  reqId : Nat
  flags : UInt8
  reqIdStr : Bytes
  sourceWorker : Bytes
  destWorker : Bytes
  /-- The formatted header, before it is cut to `hdr_data`. -/
  header : Bytes
deriving DecidableEq, Repr

/-- The REQUEST path. -/
def writeRequest (worker : Worker) (method url : Bytes) : Worker × Outgoing :=
  let reqId := worker.nextReqId
  let (path, query) := splitUrl url
  ({ worker with nextReqId := (worker.nextReqId + 1) % 2 ^ 32 },
    { reqId := reqId
      flags := opRequest ||| caseLocal
      reqIdStr := creqId reqId
      sourceWorker := worker.workerId
      destWorker := []
      header := headerText method url path query 0 (creqId reqId) worker.workerId [] })

/-- The RESPONSE path, for the entry that `_desc_index` names. -/
def writeResponse (worker : Worker) (descIndex : Nat) (statusCode : Int) : Worker × Outgoing :=
  let ib := worker.inbound descIndex
  let case := if ib.sourceWorker.head?.getD 0 ≠ 0 then caseLocal else caseIngress
  ({ worker with inbound := Function.update worker.inbound descIndex { ib with active := false } },
    { reqId := ib.reqId
      flags := opResponse ||| case
      reqIdStr := ib.reqIdStr
      sourceWorker := worker.workerId
      destWorker := ib.sourceWorker
      header := headerText [] [] [] [] statusCode ib.reqIdStr worker.workerId ib.sourceWorker })

end MiniMs.Dpumesh
