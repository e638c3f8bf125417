import MiniMs.Daemon.Pools
import MiniMs.Daemon.RouteResponse

/-!
The pipeline of a node, at the grain of single calls of pools, rings and pipes.

Owns: `dpumesh_init`, `dpumesh_write`, `_handle_bridge_client`, `_handle_host_tx`,
`_route_descriptor`, `_handle_sidecar_rx`, the poller, `dpumesh_read` and
`dpumesh_read_response` as programs of parties that share the pools of the node,
the slots that a descriptor refers to where it is, and the system of them all.

Any number of handlers may be under way for one ring. What the registry, the
selector, the bridge's table of clients and a worker's table of pipes answer is
not part of the state: it is asked for. The checks of a slot and of a length
read no memory, so they are made before the call that they guard.
-/

namespace MiniMs.Daemon.Pipeline

open MiniMs.Library.Text MiniMs.Library.Json MiniMs.Library.Number MiniMs.Library.Slots
open MiniMs.Library.Party MiniMs.Dpumesh

/-! ### Places, questions and outcomes -/

/-- Where a descriptor can wait. -/
inductive Place where
  | tx (podId : Int)
  | rx (podId : Int)
  | sidecarTx
  | sidecarRx
  /-- The notify pipe of a worker. -/
  | notify (podId : Int)
  /-- The pipes of a worker's calls; each takes one descriptor. -/
  | response (podId : Int)
deriving DecidableEq, Repr

/-- What a party asks outside the pools and the rings. -/
inductive Question where
  /-- `PodRegistry.get_service`. -/
  | service (podId : Int)
  /-- `_get_pod_resources`. -/
  | resources (podId : Int)
  /-- `WorkerSelector.select`. -/
  | select (service : PyStr)
  /-- `PodRegistry.get_pod_id`. -/
  | podId (worker : Value)
  /-- `req_id_str in self._bridge_events`, with the bytes of the body that the
  client of the request then gets. -/
  | waiting (reqId : Value) (body : Bytes)
  /-- `response_pipe_fds[idx]`. -/
  | pipe (podId : Int) (index : Nat)
  /-- `on_req`, with the bytes that were read for it. -/
  | onRequest (podId : Int) (header body : Bytes)
  /-- The caller of `dpumesh_read_response`, with the bytes that were read. -/
  | onResponse (podId : Int) (header body : Bytes)

/-- What was found, if anything was. -/
abbrev Answer := Option Int

/-- How a party is done. -/
inductive Outcome where
  | initialised
  | returned (result : Int)
  | replied (status : Nat)
  | raised
  | sent
  | invalid
  | requeued
  | forwarded
  | sidecarTxFull
  | routed
  | noWorker
  | unknownWorker
  | sidecarRxFull
  | toClient
  | noClient
  | noPodResources
  | delivered
  | rxHeaderFull
  | hostRxFull
  | polled
  | noPipe
  | called
  | received
deriving DecidableEq, Repr

abbrev Program := Library.Party.Program PoolName Place SwDescriptor Question Answer Outcome

/-! ### Calls of a pool -/

/-- `bp_alloc`, and `BufferPool.alloc`. -/
def bpAlloc (pool : PoolName) (next : Int → Program) : Program :=
  .alloc pool fun
    | some index => next index
    | none => next (-1)

/-- `bp_free`, and `BufferPool.free`. -/
def bpFree (pool : PoolName) (slot : Int) (next : Program) : Program :=
  if slot < 0 ∨ numSlots ≤ slot then next else .free ⟨pool, slot.toNat⟩ next

/-- `bp_write`. -/
def bpWrite (pool : PoolName) (slot : Int) (data : Bytes) (next : Int → Program) : Program :=
  if slot < 0 ∨ numSlots ≤ slot then next (-1)
  else if (slotSize : Int) < BufferPool.intOfSize data.length then next (-1)
  else .copyIn ⟨pool, slot.toNat⟩ data (next (BufferPool.intOfSize data.length))

/-- `bp_read`, and `BufferPool.read`. -/
def bpRead (pool : PoolName) (slot : Int) (maxlen : Nat) (next : Bytes → Program) : Program :=
  if slot < 0 ∨ numSlots ≤ slot then next []
  else .fetch ⟨pool, slot.toNat⟩ (min maxlen slotSize) next

/-- `BufferPool.write`; `none` where it raises. -/
def write (pool : PoolName) (slot : Int) (data : Bytes) (next : Option Nat → Program) : Program :=
  if slot < 0 ∨ numSlots ≤ slot then next none
  else if slotSize < data.length then next none
  else .copyIn ⟨pool, slot.toNat⟩ data (next (some data.length))

/-- `DMASimulator.copy_buffer`. -/
def copyBuffer (source : PoolName) (slot : Int) (length : Nat) (target : PoolName)
    (next : Int → Program) : Program :=
  if slot < 0 ∨ length = 0 then next (-1)
  else
    bpAlloc target fun targetSlot =>
      if targetSlot < 0 then next (-1)
      else
        bpRead source slot length fun data =>
          write target targetSlot data fun
            | none => bpFree target targetSlot (next (-1))
            | some _ => next targetSlot

/-! ### Names of pools -/

/-- The pool that a type and a pod stand for. -/
def poolOf (service : Int → Bytes) (poolType : Nat) (podId : Int) : Option PoolName :=
  match Shm.dpuPool poolType with
  | some pool => some pool
  | none => (Shm.hostPool poolType).map (.host (service podId))

/-- `resolve_pool`. -/
def resolvePool (service : Int → Bytes) (poolType : Nat) (podId : Int)
    (next : Option PoolName → Program) : Program :=
  if poolType = PoolType.none.code then next none
  else
    match Shm.dpuPool poolType with
    | some pool => next (some pool)
    | none =>
        .ask (.service podId) fun answer =>
          if answer.isSome then next ((Shm.hostPool poolType).map (.host (service podId)))
          else next none

/-- A slot of a pool by a field that is negative where there is none. -/
def cellOf (pool : PoolName) (slot : Int) : Option (Cell PoolName) :=
  if 0 ≤ slot then some ⟨pool, slot.toNat⟩ else none

/-- The slot that a descriptor names as the source of its header. -/
def headerSource (service : Int → Bytes) (desc : SwDescriptor) : Option (Cell PoolName) :=
  (poolOf service desc.srcHeaderPoolType desc.srcHeaderPodId).bind fun pool =>
    cellOf pool desc.srcHeaderBufSlot

/-- The slot that a descriptor names as the source of its body. -/
def bodySource (service : Int → Bytes) (desc : SwDescriptor) : Option (Cell PoolName) :=
  (poolOf service desc.srcBodyPoolType desc.srcBodyPodId).bind fun pool =>
    cellOf pool desc.srcBodyBufSlot

/-- The header slot that a descriptor refers to where it is: from the RX rings
on that of the receiver, before them its source. -/
def headerCell (service : Int → Bytes) (place : Place) (desc : SwDescriptor) :
    Option (Cell PoolName) :=
  match place with
  | .rx podId => cellOf (.host (service podId) .rxHeader) desc.headerBufSlot
  | .notify podId => cellOf (.host (service podId) .rxHeader) desc.headerBufSlot
  | .response podId => cellOf (.host (service podId) .rxHeader) desc.headerBufSlot
  | _ => headerSource service desc

/-- The body slot that a descriptor refers to where it is. -/
def bodyCell (service : Int → Bytes) (place : Place) (desc : SwDescriptor) :
    Option (Cell PoolName) :=
  match place with
  | .rx podId => cellOf (.host (service podId) .rxBody) desc.bodyBufSlot
  | .notify podId => cellOf (.host (service podId) .rxBody) desc.bodyBufSlot
  | .response podId => cellOf (.host (service podId) .rxBody) desc.bodyBufSlot
  | _ => bodySource service desc

def names (service : Int → Bytes) (place : Place) (desc : SwDescriptor) : List (Cell PoolName) :=
  (headerCell service place desc).toList ++ (bodyCell service place desc).toList

/-! ### A worker -/

/-- The slots of a pool whose marks `bp_init` clears, one byte after another. -/
def clearSlots (pool : PoolName) : List Nat → Program → Program
  | [], next => next
  | slot :: rest, next => .clear ⟨pool, slot⟩ (clearSlots pool rest next)

/-- `memset(m, 0, num_slots)` in `bp_init` with `create`. -/
def bpInit (pool : PoolName) (next : Program) : Program :=
  clearSlots pool (List.range numSlots) next

/-- `dpumesh_init`, what it does to the pools of the service; the worker's own
rings are new. -/
def dpumeshInit (app : Bytes) : Program :=
  bpInit (.host app .txHeader)
    (bpInit (.host app .txBody)
      (bpInit (.host app .rxHeader) (bpInit (.host app .rxBody) (.done .initialised))))

/-- The common part of `dpumesh_write`. -/
def writeCommon (service : Int → Bytes) (podId : Int) (out : Outgoing) (stack : Nat → UInt8)
    (body : Option Bytes) : Program :=
  let txHeader : PoolName := .host (service podId) .txHeader
  let txBody : PoolName := .host (service podId) .txBody
  bpAlloc txHeader fun headerSlot =>
    if headerSlot < 0 then .done (.returned (-1))
    else
      bpWrite txHeader headerSlot (headerData out.header stack) fun _ =>
        bpAlloc txBody fun bodySlot =>
          if bodySlot < 0 then bpFree txHeader headerSlot (.done (.returned (-1)))
          else
            bpWrite txBody bodySlot (bodyData body) fun _ =>
              .put (.tx podId) (outgoingDesc podId out body headerSlot bodySlot) fun accepted =>
                if accepted then .done (.returned 0)
                else
                  bpFree txHeader headerSlot
                    (bpFree txBody bodySlot (.done (.returned (-1))))

/-- One round of the poller for a descriptor that it got. -/
def poll (podId : Int) (desc : SwDescriptor) : Program :=
  if desc.valid ≠ 1 then .done .invalid
  else if desc.isResponse then
    .ask (.pipe podId (desc.reqId % maxPending)) fun
      | some _ => .put (.response podId) desc fun _ => .done .polled
      | none => .done .noPipe
  else .put (.notify podId) desc fun _ => .done .polled

/-- A slot that a descriptor has is read up to a limit. -/
def readSlot (pool : PoolName) (slot : Int) (length limit : Nat) (next : Bytes → Program) :
    Program :=
  if 0 ≤ slot ∧ 0 < length then bpRead pool slot (if length < limit then length else limit - 1) next
  else next []

/-- The end of `dpumesh_read` and of `dpumesh_read_response`. -/
def freeRx (service : Int → Bytes) (podId : Int) (desc : SwDescriptor) (next : Program) : Program :=
  let freeBody : Program :=
    if 0 ≤ desc.bodyBufSlot then bpFree (.host (service podId) .rxBody) desc.bodyBufSlot next
    else next
  if 0 ≤ desc.headerBufSlot then
    bpFree (.host (service podId) .rxHeader) desc.headerBufSlot freeBody
  else freeBody

/-- One round of the loop of `dpumesh_read`. -/
def dpumeshRead (service : Int → Bytes) (podId : Int) (desc : SwDescriptor) : Program :=
  let rxHeader : PoolName := .host (service podId) .rxHeader
  let rxBody : PoolName := .host (service podId) .rxBody
  let call (header body : Bytes) : Program :=
    .ask (.onRequest podId header body) fun _ => freeRx service podId desc (.done .called)
  if desc.valid ≠ 1 then .done .invalid
  else if desc.caseFlag = caseIngress then
    readSlot rxBody desc.bodyBufSlot desc.bodyLen slotSize (call [])
  else
    readSlot rxHeader desc.headerBufSlot desc.headerLen headerBufSize fun header =>
      readSlot rxBody desc.bodyBufSlot desc.bodyLen slotSize (call header)

/-- `dpumesh_read_response`, for the descriptor that it reads. -/
def dpumeshReadResponse (service : Int → Bytes) (podId : Int) (desc : SwDescriptor) : Program :=
  readSlot (.host (service podId) .rxHeader) desc.headerBufSlot desc.headerLen headerBufSize
    fun header =>
      readSlot (.host (service podId) .rxBody) desc.bodyBufSlot desc.bodyLen slotSize fun body =>
        freeRx service podId desc (.ask (.onResponse podId header body) fun _ => .done .received)

/-! ### The DPA -/

/-- Free a slot that was allocated before something went wrong. -/
def release (pool : PoolName) (slot : Int) (next : Program) : Program :=
  if 0 ≤ slot then bpFree pool slot next else next

/-- The end of `_handle_host_tx`. -/
def forward (desc : SwDescriptor) (dpuHeaderSlot : Int) : Program :=
  .put .sidecarTx (sidecarDesc desc dpuHeaderSlot) fun accepted =>
    if accepted then .done .forwarded
    else release .dpuTxHeader dpuHeaderSlot (.done .sidecarTxFull)

/-- `_handle_host_tx`. -/
def handleHostTx (service : Int → Bytes) (podId : Int) (desc : SwDescriptor) : Program :=
  if 0 ≤ desc.headerBufSlot ∧ 0 < desc.headerLen then
    resolvePool service desc.srcHeaderPoolType desc.srcHeaderPodId fun
      | some pool =>
          copyBuffer pool desc.srcHeaderBufSlot desc.headerLen .dpuTxHeader fun slot =>
            if slot < 0 then .put (.tx podId) desc fun _ => .done .requeued
            else bpFree pool desc.srcHeaderBufSlot (forward desc slot)
      | none => forward desc (-1)
  else forward desc (-1)

/-- The body half of `_cleanup_src_buffers`, the header half, and both. -/
def cleanupBody (service : Int → Bytes) (desc : SwDescriptor) (next : Program) : Program :=
  if 0 ≤ desc.srcBodyBufSlot then
    resolvePool service desc.srcBodyPoolType desc.srcBodyPodId fun
      | some pool => bpFree pool desc.srcBodyBufSlot next
      | none => next
  else next

def cleanupHeader (service : Int → Bytes) (desc : SwDescriptor) (next : Program) : Program :=
  if 0 ≤ desc.srcHeaderBufSlot then
    resolvePool service desc.srcHeaderPoolType desc.srcHeaderPodId fun
      | some pool => bpFree pool desc.srcHeaderBufSlot next
      | none => next
  else next

/-- `_cleanup_src_buffers` of the DPA and `_cleanup_descriptor_buffers` of the
router. -/
def cleanup (service : Int → Bytes) (desc : SwDescriptor) (next : Program) : Program :=
  cleanupBody service desc (cleanupHeader service desc next)

/-- The end of `_dma_case2`. -/
def deliverCase2 (service : Int → Bytes) (desc : SwDescriptor) (hostBodySlot : Int) : Program :=
  .put (.rx desc.dstPodId) (case2RxDesc desc hostBodySlot) fun accepted =>
    if accepted then .done .delivered
    else release (.host (service desc.dstPodId) .rxBody) hostBodySlot (.done .hostRxFull)

/-- `_dma_case2`. -/
def dmaCase2 (service : Int → Bytes) (desc : SwDescriptor) : Program :=
  if 0 ≤ desc.srcBodyBufSlot ∧ 0 < desc.bodyLen then
    resolvePool service desc.srcBodyPoolType desc.srcBodyPodId fun
      | some pool =>
          copyBuffer pool desc.srcBodyBufSlot desc.bodyLen
            (.host (service desc.dstPodId) .rxBody) fun slot =>
              if slot < 0 then .put .sidecarRx desc fun _ => .done .requeued
              else bpFree pool desc.srcBodyBufSlot (deliverCase2 service desc slot)
      | none => deliverCase2 service desc (-1)
  else deliverCase2 service desc (-1)

/-- The end of `_dma_case3`. -/
def deliverCase3 (service : Int → Bytes) (desc : SwDescriptor)
    (hostHeaderSlot hostBodySlot : Int) : Program :=
  .put (.rx desc.dstPodId) (case3RxDesc desc hostHeaderSlot hostBodySlot) fun accepted =>
    if accepted then .done .delivered
    else
      release (.host (service desc.dstPodId) .rxBody) hostBodySlot
        (release (.host (service desc.dstPodId) .rxHeader) hostHeaderSlot (.done .hostRxFull))

/-- The second copy of `_dma_case3`. -/
def moveHeader (service : Int → Bytes) (desc : SwDescriptor) (hostBodySlot : Int) : Program :=
  resolvePool service desc.srcHeaderPoolType desc.srcHeaderPodId fun
    | some pool =>
        if 0 ≤ desc.srcHeaderBufSlot ∧ 0 < desc.headerLen then
          copyBuffer pool desc.srcHeaderBufSlot desc.headerLen
            (.host (service desc.dstPodId) .rxHeader) fun slot =>
              if slot < 0 then
                release (.host (service desc.dstPodId) .rxBody) hostBodySlot (.done .rxHeaderFull)
              else bpFree pool desc.srcHeaderBufSlot (deliverCase3 service desc slot hostBodySlot)
        else deliverCase3 service desc (-1) hostBodySlot
    | none => deliverCase3 service desc (-1) hostBodySlot

/-- `_dma_case3`. -/
def dmaCase3 (service : Int → Bytes) (desc : SwDescriptor) : Program :=
  resolvePool service desc.srcBodyPoolType desc.srcBodyPodId fun
    | some pool =>
        if 0 ≤ desc.srcBodyBufSlot ∧ 0 < desc.bodyLen then
          copyBuffer pool desc.srcBodyBufSlot desc.bodyLen
            (.host (service desc.dstPodId) .rxBody) fun slot =>
              if slot < 0 then .put .sidecarRx desc fun _ => .done .requeued
              else bpFree pool desc.srcBodyBufSlot (moveHeader service desc slot)
        else moveHeader service desc (-1)
    | none => moveHeader service desc (-1)

/-- `_handle_sidecar_rx`. -/
def handleSidecarRx (service : Int → Bytes) (desc : SwDescriptor) : Program :=
  .ask (.resources desc.dstPodId) fun
    | none => cleanup service desc (.done .noPodResources)
    | some _ =>
        if desc.caseFlag = caseIngress then dmaCase2 service desc
        else if desc.caseFlag = caseLocal then dmaCase3 service desc
        else dmaCase2 service desc

/-! ### The router -/

/-- `header_info` of a header's bytes; `none` is a header that is no
dictionary. -/
def infoOf (float : PyStr → Numeral) (data : Bytes) : Option (List (PyStr × Value)) :=
  match deserializeHeader float data with
  | none => some []
  | some (.object members) => some members
  | some _ => none

/-- The end of `_route_request` and of `_route_response`. -/
def passOn (service : Int → Bytes) (desc : SwDescriptor) : Program :=
  .put .sidecarRx desc fun accepted =>
    if accepted then .done .routed else cleanup service desc (.done .sidecarRxFull)

/-- `_route_request`. -/
def routeRequest (service : Int → Bytes) (desc : SwDescriptor) (info : List (PyStr × Value)) :
    Program :=
  .ask (.select (getServiceName (get info (lit "url") (.string [])))) fun
    | none => cleanup service desc (.done .noWorker)
    | some dstPodId =>
        passOn service { desc with
          dstPodId := dstPodId
          flags := opRequest ||| caseLocal
          valid := 1 }

/-- The end of `_deliver_bridge_response`. -/
def toClient : Answer → Program
  | some _ => .done .toClient
  | none => .done .noClient

/-- `_deliver_bridge_response`. -/
def deliverToBridge (service : Int → Bytes) (desc : SwDescriptor) (info : List (PyStr × Value)) :
    Program :=
  let freeHeader (body : Bytes) : Program :=
    cleanupHeader service desc
      (.ask (.waiting (get info (lit "req_id_str") (.string [])) body) toClient)
  if 0 ≤ desc.srcBodyBufSlot ∧ 0 < desc.bodyLen then
    resolvePool service desc.srcBodyPoolType desc.srcBodyPodId fun
      | some pool =>
          bpRead pool desc.srcBodyBufSlot desc.bodyLen fun body =>
            bpFree pool desc.srcBodyBufSlot (freeHeader body)
      | none => freeHeader []
  else freeHeader []

/-- `_route_response`. -/
def routeResponse (service : Int → Bytes) (desc : SwDescriptor) (info : List (PyStr × Value)) :
    Program :=
  let destWorker := get info (lit "dest_worker") (.string [])
  if !destWorker.truthy then deliverToBridge service desc info
  else
    .ask (.podId destWorker) fun answer =>
      let dstPodId := answer.getD (-1)
      if dstPodId < 0 then cleanup service desc (.done .unknownWorker)
      else
        passOn service { desc with
          dstPodId := dstPodId
          flags := opResponse ||| caseLocal
          valid := 1 }

/-- The second half of `_route_descriptor`. -/
def route (service : Int → Bytes) (desc : SwDescriptor) :
    Option (List (PyStr × Value)) → Program
  | none => .done .raised
  | some info =>
      if desc.isResponse then routeResponse service desc info else routeRequest service desc info

/-- `_route_descriptor`. -/
def routeDescriptor (service : Int → Bytes) (float : PyStr → Numeral) (desc : SwDescriptor) :
    Program :=
  if 0 ≤ desc.headerBufSlot ∧ 0 < desc.headerLen then
    bpRead .dpuTxHeader desc.headerBufSlot desc.headerLen fun data =>
      route service desc (infoOf float data)
  else route service desc (some [])

/-! ### The bridge -/

/-- `_handle_bridge_client` up to `event.wait`, for one decoded object. -/
def handleBridgeClient (env : BridgeEnv) (client : List (PyStr × Value)) (uuid : Uuid) : Program :=
  match targetUrl env client with
  | none => .done .raised
  | some url =>
      match env.select (getServiceName url) with
      | none => .done (.replied 503)
      | some (worker, podId) =>
          if !encodes (get client (lit "body") (.string [])) then .done .raised
          else
            bpAlloc .dpuRxBody fun slot =>
              if slot < 0 then .done (.replied 503)
              else
                write .dpuRxBody slot (combined env client url worker uuid) fun
                  | none => bpFree .dpuRxBody slot (.done (.replied 413))
                  | some length =>
                      .put .sidecarRx (bridgeDesc slot length podId) fun accepted =>
                        if accepted then .done .sent
                        else bpFree .dpuRxBody slot (.done (.replied 503))

/-! ### The system -/

/-- What starts a party. -/
inductive Call where
  /-- A worker's `dpumesh_init`. -/
  | init (app : Bytes)
  /-- A worker's `dpumesh_write` of a request. -/
  | request (worker : Worker) (method url : Bytes) (stack : Nat → UInt8) (body : Option Bytes)
  /-- A worker's `dpumesh_write` of a response. -/
  | response (worker : Worker) (descIndex : Nat) (statusCode : Int) (stack : Nat → UInt8)
      (body : Option Bytes)
  /-- A client of the bridge. -/
  | client (env : BridgeEnv) (client : List (PyStr × Value)) (uuid : Uuid)

/-- What a message is written as: a bridge request has no header of its own. -/
structure Written where
  header : Option Bytes := none
  body : Bytes := []
  isResponse : Bool := false
  reqId : Nat := 0

/-- What `dpumesh_write` writes for a message. -/
def writtenCommon (out : Outgoing) (stack : Nat → UInt8) (body : Option Bytes)
    (isResponse : Bool) : Written where
  header := some (headerData out.header stack)
  body := bodyData body
  isResponse := isResponse
  reqId := out.reqId

/-- What a call writes. -/
def written : Call → Written
  | .init _ => {}
  | .request worker method url stack body =>
      writtenCommon (writeRequest worker method url).2 stack body false
  | .response worker descIndex statusCode stack body =>
      writtenCommon (writeResponse worker descIndex statusCode).2 stack body true
  | .client env client uuid =>
      { body :=
          match targetUrl env client with
          | none => []
          | some url =>
              match env.select (getServiceName url) with
              | none => []
              | some (worker, _) => combined env client url worker uuid }

def program (service : Int → Bytes) : Call → Program
  | .init app => dpumeshInit app
  | .request worker method url stack body =>
      writeCommon service worker.podId (writeRequest worker method url).2 stack body
  | .response worker descIndex statusCode stack body =>
      writeCommon service worker.podId (writeResponse worker descIndex statusCode).2 stack body
  | .client env client uuid => handleBridgeClient env client uuid

/-- What is done with a descriptor that was got from a ring or a pipe. -/
def handler (service : Int → Bytes) (float : PyStr → Numeral) (place : Place)
    (desc : SwDescriptor) : Program :=
  match place with
  | .tx podId => if desc.valid ≠ 1 then .done .invalid else handleHostTx service podId desc
  | .sidecarTx => if desc.valid ≠ 1 then .done .invalid else routeDescriptor service float desc
  | .sidecarRx => if desc.valid ≠ 1 then .done .invalid else handleSidecarRx service desc
  | .rx podId => poll podId desc
  | .notify podId => dpumeshRead service podId desc
  | .response podId => dpumeshReadResponse service podId desc

/-- The descriptors that a pipe of 64 KiB holds. -/
def pipeCapacity : Nat := 1024

/-- The pipeline of a node whose pods have their pools under the given
services. -/
def system (service : Int → Bytes) (float : PyStr → Numeral) :
    System (PoolName → BufferPool) PoolName Place SwDescriptor Question Answer Outcome Written Call
    where
  memory := nodeMemory
  names := names service
  capacity
    | .notify _ => pipeCapacity
    | .response _ => pipeCapacity
    | _ => maxDescriptors
  ordered
    | .response _ => false
    | _ => true
  content := written
  program := program service
  handler := handler service float

/-- Before the first call: no slot is taken. -/
def start : State (PoolName → BufferPool) PoolName Place SwDescriptor Question Answer Outcome
    Written where
  memory := fun _ => .zeroed

end MiniMs.Daemon.Pipeline
