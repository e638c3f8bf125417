import MiniMs.Daemon.RouteResponse
import MiniMs.Dpumesh.Send
import MiniMs.Tcp.Lookup

/-!
One exchange between two workers through the DPU: a request, the handler of a
leaf service, and the response back to the worker that waits.

Owns: the way of one message from `dpumesh_write` over `_handle_host_tx`,
`_route_descriptor` and `_dma_case3` to the worker that reads it, with all slots
that it passes, the exchange as the composition of two such ways, and the
theorem that it brings what the leaf service replies.

Other messages are under way nowhere: what they may do to a message belongs to
the pipeline.
-/

namespace MiniMs.Daemon.Exchange

open MiniMs.Http MiniMs.Dpumesh MiniMs.Library.Text MiniMs.Library.Json MiniMs.Library.Number
open MiniMs.Service

/-! ### The way of a message -/

/-- What stands ready for a message of a worker, with all that was there before. -/
structure Passage where
  /-- The TX pools of the sender's service, its TX ring, and what lies behind
  `hdr_data` on its stack. -/
  pools : TxPools
  ring : List SwDescriptor
  stack : Nat → UInt8
  /-- The header pool of the DPU, and the slot that the DPA gets in it. -/
  dpuTxHeader : BufferPool
  dpuSlot : Fin numSlots
  /-- The RX pools of the receiver's service, the slots that the DPA gets in
  them, and `header_json` on the receiver's stack. -/
  rx : RxPools
  headerSlot : Fin numSlots
  bodySlot : Fin numSlots
  junk : Bytes
  header_free : ¬ pools.txHeader.Full
  body_free : ¬ pools.txBody.Full
  ring_room : ring.length < maxDescriptors

namespace Passage

variable (passage : Passage)

/-- `dpumesh_write`, its common part: the TX pools, and the descriptor that is
put. -/
def write (podId : Int) (out : Outgoing) (body : Option Bytes) : Option (TxPools × SwDescriptor) :=
  match writeCommon passage.pools passage.ring podId out passage.stack body with
  | (pools, some ring) => ring.getLast?.map fun sent => (pools, sent)
  | (_, none) => none

/-- What `_handle_host_tx` puts for a descriptor. -/
def forwarded (sent : SwDescriptor) : SwDescriptor := sidecarDesc sent passage.dpuSlot.val

/-- The header pool of the DPU after the copy of `_handle_host_tx`. -/
def dpuHeader (pools : TxPools) (sent : SwDescriptor) : BufferPool :=
  passage.dpuTxHeader.copyIn (BufferPool.offset passage.dpuSlot.val)
    (pools.txHeader.read sent.headerBufSlot sent.headerLen)

/-- `header_info` of `_route_descriptor`. -/
def info (float : PyStr → Numeral) (pools : TxPools) (sent : SwDescriptor) :
    Option (List (PyStr × Value)) :=
  headerInfo float (passage.forwarded sent) (passage.dpuHeader pools sent)

/-- The RX pools after the two copies of `_dma_case3`. -/
def rxPools (pools : TxPools) (sent : SwDescriptor) : RxPools :=
  ⟨passage.rx.rxHeader.copyIn (BufferPool.offset passage.headerSlot.val)
      ((passage.dpuHeader pools sent).read passage.dpuSlot.val sent.headerLen),
    passage.rx.rxBody.copyIn (BufferPool.offset passage.bodySlot.val)
      (pools.txBody.read sent.srcBodyBufSlot sent.bodyLen)⟩

/-- What `_dma_case3` puts for a descriptor. -/
def arrived (desc : SwDescriptor) : SwDescriptor :=
  case3RxDesc desc passage.headerSlot.val passage.bodySlot.val

end Passage

/-! ### The exchange -/

/-- What a worker runs. -/
inductive App where
  | frontend
  | leaf (leaf : Leaf)
deriving DecidableEq, Repr

/-- What the router finds outside a message, and the workers with their pod ids. -/
structure Node where
  float : PyStr → Numeral
  /-- `WorkerSelector.select`: a worker's name and pod id. -/
  select : PyStr → Option (PyStr × Int)
  /-- `PodRegistry.get_pod_id`. -/
  getPodId : Value → Int
  workerAt : Int → Option (App × Worker)

/-- `dpumesh_conn_upstream` of one worker up to the handler of another: what runs
there, the worker with the request in its table, the index of the entry, and what
`on_request` gives to the handler. -/
def request (node : Node) (passage : Passage) (caller : Worker) (method url : Bytes) :
    Option (App × Worker × Nat × HttpRequest) :=
  (passage.write caller.podId (writeRequest caller method url).2 none).bind fun (pools, sent) =>
    (passage.info node.float pools sent).bind fun info =>
      (node.select (getServiceName (get info (lit "url") (.string [])))).bind fun (_, podId) =>
        (node.workerAt podId).bind fun (app, callee) =>
          let desc := passage.arrived { passage.forwarded sent with
            dstPodId := podId
            flags := opRequest ||| caseLocal
            valid := 1 }
          let (callee, req) := dpumeshRead (passage.rxPools pools sent) passage.junk callee desc
          (onRequest req).map fun http => (app, callee, req.descIndex, http)

/-- `dpumesh_conn_respond` of one worker up to `on_upstream_response_cb` of the
worker that waits for the response to `reqId`. -/
def respond (node : Node) (passage : Passage) (caller callee : Worker) (reqId descIndex : Nat)
    (reply : Reply) : Option HttpResponse :=
  (passage.write callee.podId (writeResponse callee descIndex reply.status).2
      (some reply.body)).bind fun (pools, sent) =>
    (passage.info node.float pools sent).bind fun info =>
      match routeResponse node.getPodId (passage.forwarded sent) info with
      | .put desc =>
          -- The poller of the receiver looks for the pipe of the id.
          if desc.dstPodId = caller.podId ∧ desc.reqId % maxPending = reqId % maxPending then
            onUpstreamResponse
              (some (readResponse (passage.rxPools pools sent) (passage.arrived desc)))
          else none
      | .bridge => none
      | .dropped => none

/-- An exchange with the leaf service that the url leads to. -/
def dpumeshExchange (node : Node) (there back : Passage) (stores : Leaf → KvStore) (caller : Worker)
    (url : Bytes) : Option HttpResponse :=
  (request node there caller (ascii "GET") url).bind fun (app, callee, descIndex, req) =>
    match app with
    | .frontend => none
    | .leaf leaf =>
        respond node back caller callee caller.nextReqId descIndex
          (leaf.service.handleRequest (stores leaf) req)

/-! ### A message that was sent -/

/-- A descriptor names the slots of the header and of the body that were
written. -/
structure Sent (passage : Passage) (podId : Int) (out : Outgoing) (body : Option Bytes)
    (pools : TxPools) (sent : SwDescriptor) : Prop where
  call : writeCommon passage.pools passage.ring podId out passage.stack body =
    (pools, some (passage.ring ++ [sent]))
  headerLen : sent.headerLen = out.header.length
  header : pools.txHeader.read sent.headerBufSlot sent.headerLen = out.header
  bodyLen : sent.bodyLen = (bodyData body).length
  body : pools.txBody.read sent.srcBodyBufSlot sent.bodyLen = bodyData body
  reqId : sent.reqId = out.reqId
  flags : sent.flags = out.flags
  bodySlot : sent.bodyBufSlot = sent.srcBodyBufSlot

section Way

variable {passage : Passage} {podId : Int} {out : Outgoing} {body : Option Bytes}
  {pools : TxPools} {sent : SwDescriptor}

/-- With a free slot in both pools and room in the ring, a message is sent. -/
theorem exists_sent (passage : Passage) (podId : Int) (out : Outgoing) (body : Option Bytes)
    (short : out.header.length < headerBufSize) (fits : (bodyData body).length ≤ slotSize) :
    ∃ pools sent, passage.write podId out body = some (pools, sent) ∧
      Sent passage podId out body pools sent := by
  rcases Send.writeCommon_cases passage.pools passage.ring podId out passage.stack body with
    ⟨pools, _, _, sent, call, _, _, _, _, _⟩ | ⟨_, _, _, _, full⟩
  · obtain ⟨headerSlot, bodySlot, put, header, filled⟩ := slots_of_writeCommon short fits call
    obtain ⟨same, -⟩ := List.cons.inj (List.append_cancel_left put)
    have length : sent.bodyLen = (bodyData body).length := by
      rw [same]
      exact outgoingDesc_bodyLen podId out fits headerSlot bodySlot
    refine ⟨pools, sent, ?_, ?_⟩
    · unfold Passage.write
      rw [call]
      dsimp only
      rw [List.getLast?_concat]
      rfl
    · constructor
      · exact call
      · rw [same]
        rfl
      · rw [same]
        exact header
      · exact length
      · rw [length, same]
        exact filled
      · rw [same]
        rfl
      · rw [same]
        rfl
      · rw [same]
        rfl
  · rcases full with header | body | ring
    · exact absurd header passage.header_free
    · exact absurd body passage.body_free
    · have room := passage.ring_room
      omega

theorem slot_range (slot : Fin numSlots) : 0 ≤ (slot.val : Int) ∧ (slot.val : Int) < numSlots := by
  have below := slot.isLt
  omega

/-- The DPU's slot holds the header. -/
theorem Sent.dpuHeader (written : Sent passage podId out body pools sent)
    (short : out.header.length < headerBufSize) :
    (passage.dpuHeader pools sent).read passage.dpuSlot.val sent.headerLen = out.header := by
  have small : out.header.length ≤ slotSize := Nat.le_trans (Nat.le_of_lt short) (by decide)
  unfold Passage.dpuHeader
  rw [written.header, written.headerLen]
  exact BufferPool.bpRead_copyIn passage.dpuTxHeader (slot_range passage.dpuSlot) small

/-- The router finds the object of the header. -/
theorem Sent.info (written : Sent passage podId out body pools sent)
    (short : out.header.length < headerBufSize) (nonempty : 0 < out.header.length)
    {float : PyStr → Numeral} {members : List (PyStr × Value)}
    (decoded : deserializeHeader float out.header = some (.object members)) :
    passage.info float pools sent = some members := by
  have named : 0 ≤ (passage.forwarded sent).headerBufSlot ∧
      0 < (passage.forwarded sent).headerLen := by
    refine ⟨(slot_range passage.dpuSlot).1, ?_⟩
    show 0 < sent.headerLen
    rw [written.headerLen]
    exact nonempty
  have read : (passage.dpuHeader pools sent).read (passage.forwarded sent).headerBufSlot
      (passage.forwarded sent).headerLen = out.header := written.dpuHeader short
  unfold Passage.info headerInfo
  rw [if_pos named, read, decoded]

/-- The receiver's slots hold the header and the body. -/
theorem Sent.rxPools (written : Sent passage podId out body pools sent)
    (short : out.header.length < headerBufSize) :
    passage.rxPools pools sent =
      ⟨passage.rx.rxHeader.copyIn (BufferPool.offset passage.headerSlot.val) out.header,
        passage.rx.rxBody.copyIn (BufferPool.offset passage.bodySlot.val) (bodyData body)⟩ := by
  unfold Passage.rxPools
  rw [written.dpuHeader short, written.body]

end Way

/-! ### A request -/

/-- What a worker reads of a body that was copied to its slot. -/
theorem readRequest_body (desc : SwDescriptor) {body : Bytes} (fits : body.length < slotSize)
    (nonempty : 0 < body.length) (case : desc.caseFlag ≠ caseIngress)
    (length : desc.bodyLen = body.length) (headerSlot bodySlot : Fin numSlots)
    (rxHeader rxBody : BufferPool) (junk : Bytes) (buffers : StaticBuffers) :
    (readRequest ⟨rxHeader, rxBody.copyIn (BufferPool.offset bodySlot.val) body⟩ junk
      (case3RxDesc desc headerSlot.val bodySlot.val) buffers).2.body = some body := by
  have present : 0 ≤ (case3RxDesc desc headerSlot.val bodySlot.val).bodyBufSlot ∧
      0 < (case3RxDesc desc headerSlot.val bodySlot.val).bodyLen := by
    refine ⟨(slot_range bodySlot).1, ?_⟩
    show 0 < desc.bodyLen
    rw [length]
    exact nonempty
  have here : (case3RxDesc desc headerSlot.val bodySlot.val).bodyLen = body.length := length
  have notIngress : (case3RxDesc desc headerSlot.val bodySlot.val).caseFlag ≠ caseIngress := case
  have read := BufferPool.bpRead_copyIn rxBody (slot_range bodySlot) (Nat.le_of_lt fits)
  unfold readRequest readLocal
  rw [if_neg notIngress]
  dsimp only
  rw [if_pos present, here, if_pos fits]
  exact congrArg some read

/-- The HTTP text of a request with a query and without a body, line by line. -/
theorem requestText_eq {req : Request} {line : RequestLine}
    (method : req.method = some line.method) (path : req.path = some line.path)
    (query : req.queryString = some line.query) (nonempty : line.query ≠ [])
    (empty : requestBody req = []) :
    requestText req = headerBlock [line.first, ascii "Host: dpumesh", lengthLine 0] := by
  have blank : ascii " " = [32] := by decide
  have mark : ascii "?" = [63] := by decide
  have version : ascii " HTTP/1.1\r\n" = 32 :: (ascii "HTTP/1.1" ++ [13, 10]) := by decide
  have host : ascii "Host: dpumesh\r\n" = ascii "Host: dpumesh" ++ [13, 10] := by decide
  have crlf : ascii "\r\n" = [13, 10] := by decide
  unfold requestText headerBlock linesText RequestLine.first RequestLine.text lengthLine
  dsimp only
  rw [method, path, query, empty, blank, mark, version, host, crlf]
  simp [nonempty, cstr]

/-- `on_request` gives the handler the method, the path and the query. -/
theorem onRequest_line {req : Request} {line : RequestLine} (isGet : line.method = ascii "GET")
    (path_plain : 10 ∉ line.path) (query_plain : 10 ∉ line.query)
    (method : req.method = some line.method) (path : req.path = some line.path)
    (query : req.queryString = some line.query) (nonempty : line.query ≠ [])
    (empty : requestBody req = []) : onRequest req = some line.request := by
  have first : Line line.first := by
    refine line.line_first ?_ path_plain query_plain
    rw [isGet]
    exact forall_mem_of_all (by decide)
  have host : Line (ascii "Host: dpumesh") := ⟨by decide, forall_mem_of_all (by decide)⟩
  have plain : ∀ other ∈ line.first :: [ascii "Host: dpumesh", lengthLine 0], Line other := by
    intro other member
    simp only [List.mem_cons, List.not_mem_nil, or_false] at member
    rcases member with rfl | rfl | rfl
    · exact first
    · exact host
    · exact ResponseHead.line_lengthLine 0
  have others : ∀ other ∈ [line.first, ascii "Host: dpumesh"], Other other := by
    intro other member
    simp only [List.mem_cons, List.not_mem_nil, or_false] at member
    rcases member with rfl | rfl
    · refine ⟨fun newline => (first.2 10 newline).2 rfl, fun rest => ?_⟩
      unfold RequestLine.first RequestLine.text
      rw [isGet]
      exact startsLength_cons (by decide) _
    · exact ⟨by decide, fun rest => startsLength_cons (by decide) _⟩
  have empty_length := @parseContentLength_lines _ [] others 0 (Nat.zero_le longMax) []
  rw [List.append_nil] at empty_length
  have parsed := line.httpParseRequest_block plain empty_length
  unfold onRequest
  rw [requestText_eq method path query nonempty empty, parsed]

/-- The entry of a request that a worker made. -/
structure Entered (callee : Worker) (descIndex : Nat) (caller : Worker) : Prop where
  reqId : (callee.inbound descIndex).reqId = caller.nextReqId
  reqIdStr : (callee.inbound descIndex).reqIdStr = creqId caller.nextReqId
  sourceWorker : (callee.inbound descIndex).sourceWorker = caller.workerId

theorem length_creqId_le (reqId : Nat) : (creqId reqId).length ≤ 31 := by
  unfold creqId snprintf
  rw [List.length_take]
  exact Nat.min_le_left _ _

section Request

variable {node : Node} {caller callee : Worker} {url : Url} {line : RequestLine} {app : App}

/-- A request with a carried url comes to the handler of the worker that the router
selects for its host. -/
theorem request_eq (there : Passage) (line : RequestLine)
    (carried : Carried caller (ascii "GET") url) (workerId_fits : caller.workerId.length ≤ 127)
    {host name : PyStr} {podId : Int}
    (host_encoded : encode host = some url.host)
    (selected : node.select (firstLabel host) = some (name, podId))
    (present : node.workerAt podId = some (app, callee)) (isGet : line.method = ascii "GET")
    (path : url.path = line.path) (query : url.query = some line.query)
    (nonempty : line.query ≠ []) (path_plain : 10 ∉ line.path) (query_plain : 10 ∉ line.query) :
    ∃ served, request node there caller (ascii "GET") url.text =
        some (app, served, caller.nextReqId % maxPending, line.request) ∧
      served.workerId = callee.workerId ∧ served.podId = callee.podId ∧
      Entered served (caller.nextReqId % maxPending) caller := by
  have headerSome : 0 < (writeRequest caller (ascii "GET") url.text).2.header.length := by
    rw [carried.header_eq]
    exact Nat.succ_pos _
  obtain ⟨pools, sent, wrote, written⟩ := exists_sent there caller.podId
    (writeRequest caller (ascii "GET") url.text).2 none carried.fits (by decide)
  obtain ⟨members, routed⟩ := carried.routed node.float
  have info := written.info carried.fits headerSome routed.decoded
  obtain ⟨text, text_encoded, service⟩ := routed.service
  have same : text = host := Option.some.inj
    ((decode_of_encode text_encoded).symm.trans (decode_of_encode host_encoded))
  rw [same] at service
  let desc : SwDescriptor := { there.forwarded sent with
    dstPodId := podId
    flags := opRequest ||| caseLocal
    valid := 1 }
  let read := readRequest (there.rxPools pools sent) there.junk (there.arrived desc) callee.buffers
  have received : Received caller.workerId (ascii "GET") url caller.nextReqId read.2 := by
    show Received _ _ _ _ (readRequest (there.rxPools pools sent) _ _ _).2
    rw [written.rxPools carried.fits]
    exact carried.received desc there.headerSlot there.bodySlot _ _ _ _ rfl written.headerLen
  have body : read.2.body = some [0] := by
    show (readRequest (there.rxPools pools sent) _ _ _).2.body = _
    rw [written.rxPools carried.fits]
    exact readRequest_body desc (by decide) (by decide)
      (by show (opRequest ||| caseLocal) &&& 0x0F ≠ caseIngress; decide) written.bodyLen _ _ _ _ _ _
  have empty : requestBody read.2 = [] := by
    unfold requestBody
    rw [body]
    rfl
  have methodRead : read.2.method = some line.method := by
    rw [received.method, isGet]
    rfl
  have pathRead : read.2.path = some line.path := by
    rw [received.path, path, List.take_of_length_le line.path_fits]
  have queryRead : read.2.queryString = some line.query := by
    rw [received.queryString]
    unfold Url.queryString
    rw [query, Option.getD_some, List.take_of_length_le line.query_fits]
  have handed := onRequest_line isGet path_plain query_plain methodRead pathRead queryRead nonempty
    empty
  have reqId : read.2.reqId = caller.nextReqId :=
    (readRequest_reqId _ _ _ _).trans written.reqId
  have descIndex : read.2.descIndex = caller.nextReqId % maxPending := by
    rw [← show sent.reqId = caller.nextReqId from written.reqId]
    exact readRequest_descIndex _ _ _ _
  have reqIdStr : snprintf 64 read.2.reqIdStr = creqId caller.nextReqId := by
    have short := length_creqId_le caller.nextReqId
    rw [received.reqIdStr, List.take_of_length_le (by omega)]
    exact snprintf_eq_self (by omega)
  have sourceWorker : snprintf 128 read.2.sourceWorker = caller.workerId := by
    rw [received.sourceWorker, List.take_of_length_le workerId_fits]
    exact snprintf_eq_self (by omega)
  let served : Worker := { callee with
    buffers := read.1
    inbound := Function.update callee.inbound read.2.descIndex (inboundOf read.2) }
  refine ⟨served, ?_, rfl, rfl, ?_⟩
  · unfold request
    rw [wrote, Option.bind_some]
    dsimp only
    rw [info, Option.bind_some, service, selected, Option.bind_some]
    dsimp only
    rw [present, Option.bind_some]
    show (onRequest read.2).map (fun http => (app, served, read.2.descIndex, http)) = _
    rw [handed, Option.map_some, descIndex]
  · have entry : Function.update callee.inbound read.2.descIndex (inboundOf read.2)
        (caller.nextReqId % maxPending) = inboundOf read.2 := by
      rw [← descIndex]
      exact Function.update_self _ _ _
    constructor
    · exact (congrArg Inbound.reqId entry).trans reqId
    · exact (congrArg Inbound.reqIdStr entry).trans reqIdStr
    · exact (congrArg Inbound.sourceWorker entry).trans sourceWorker

end Request

/-! ### A response -/

/-- A worker that the registry knows under its name. -/
structure Known (node : Node) (worker : Worker) : Prop where
  clean : CleanBytes worker.workerId
  nonempty : worker.workerId ≠ []
  fits : worker.workerId.length ≤ 127
  podId : ∀ text, encode text = some worker.workerId →
    node.getPodId (.string text) = worker.podId
  podId_nonneg : 0 ≤ worker.podId

/-- A worker's answer with a sound reply to one of its requests. -/
def answerOf {worker : Worker} {descIndex : Nat} {reply : Reply} {text : PyStr}
    (sound : reply.Sound) (utf8 : encode text = some reply.body)
    (workerId : worker.workerId.length < 128)
    (reqIdStr : (worker.inbound descIndex).reqIdStr.length < 64)
    (sourceWorker : (worker.inbound descIndex).sourceWorker.length < 128) : Answer where
  worker := worker
  descIndex := descIndex
  status := reply.status
  body := reply.body
  text := text
  status_positive := sound.status_low
  status_small := sound.status_high
  body_utf8 := utf8
  body_short := by
    have fits := sound.fits
    rw [sound.length_body]
    unfold bodyBufSize at fits
    omega
  workerId_fits := workerId
  reqIdStr_fits := reqIdStr
  sourceWorker_fits := sourceWorker

/-- With room on its way, an answer is sent. -/
theorem exists_answered (passage : Passage) (answer : Answer) :
    ∃ pools sent, passage.write answer.worker.podId
        (writeResponse answer.worker answer.descIndex answer.status).2 (some answer.body) =
        some (pools, sent) ∧
      Sent passage answer.worker.podId
        (writeResponse answer.worker answer.descIndex answer.status).2 (some answer.body) pools sent ∧
      answer.Puts pools sent := by
  obtain ⟨pools, sent, wrote, written⟩ := exists_sent passage answer.worker.podId
    (writeResponse answer.worker answer.descIndex answer.status).2 (some answer.body)
    Answer.header_short (Nat.le_of_lt Answer.bodyData_fits)
  exact ⟨pools, sent, wrote, written,
    passage.pools, passage.ring, passage.stack, _, congrArg (Prod.mk _) written.call⟩

/-- The upstream handler of the worker that waits is called with the status and the
body of the reply. -/
theorem respond_eq {node : Node} (back : Passage) {caller callee : Worker} {descIndex : Nat}
    {reply : Reply} (sound : reply.Sound) {text : PyStr} (utf8 : encode text = some reply.body)
    (nonempty : reply.body ≠ []) (entered : Entered callee descIndex caller)
    (known : Known node caller) (callee_clean : CleanBytes callee.workerId)
    (callee_fits : callee.workerId.length ≤ 127) :
    respond node back caller callee caller.nextReqId descIndex reply =
      some ⟨reply.status, reply.body, reply.bodyLen⟩ := by
  have length := sound.length_body
  have reqIdStr : (callee.inbound descIndex).reqIdStr.length < 64 := by
    have short := length_creqId_le caller.nextReqId
    rw [entered.reqIdStr]
    omega
  have sourceWorker : (callee.inbound descIndex).sourceWorker.length < 128 := by
    have short := known.fits
    rw [entered.sourceWorker]
    omega
  let answer : Answer := answerOf sound utf8 (by omega) reqIdStr sourceWorker
  have short : answer.header.length < headerBufSize := Answer.header_short
  have headerSome : 0 < answer.header.length := by
    rw [Answer.header_eq]
    exact Nat.succ_pos _
  obtain ⟨pools, sent, wrote, written, puts⟩ := exists_answered back answer
  have called : back.write callee.podId (writeResponse callee descIndex reply.status).2
      (some reply.body) = some (pools, sent) := wrote
  have source_clean : CleanBytes (callee.inbound descIndex).sourceWorker := by
    rw [entered.sourceWorker]
    exact known.clean
  have creq_clean : CleanBytes (callee.inbound descIndex).reqIdStr := by
    rw [entered.reqIdStr]
    exact cleanBytes_creqId _
  obtain ⟨info, decoded, holds⟩ := responseInfo_of_clean node.float sound.status_low
    sound.status_high creq_clean callee_clean source_clean
  have found := written.info short headerSome decoded
  obtain ⟨dest, dest_held, dest_encoded⟩ := holds.destWorker_held
  rw [entered.sourceWorker] at dest_encoded
  have dest_nonempty : dest ≠ [] := by
    intro empty
    rw [empty] at dest_encoded
    exact known.nonempty (Option.some.inj dest_encoded).symm
  let desc : SwDescriptor := { back.forwarded sent with
    dstPodId := caller.podId
    flags := opResponse ||| caseLocal
    valid := 1 }
  have route : routeResponse node.getPodId (back.forwarded sent) info = .put desc := by
    have truthy : (Value.string dest).truthy = true := by
      obtain ⟨point, rest, shape⟩ := List.exists_cons_of_ne_nil dest_nonempty
      rw [shape]
      rfl
    have nonneg := known.podId_nonneg
    unfold routeResponse
    rw [get_of_holds dest_held]
    dsimp only
    rw [truthy, Bool.not_true, if_neg (by decide), known.podId dest dest_encoded,
      if_neg (by omega)]
  have intact : Dpumesh.Intact pools sent (back.rxPools pools sent) (back.arrived desc) := by
    have small : answer.header.length ≤ slotSize := Nat.le_trans (Nat.le_of_lt short) (by decide)
    have body_small : (bodyData (some reply.body)).length ≤ slotSize :=
      Nat.le_of_lt (@Answer.bodyData_fits answer)
    have bodyRead : pools.txBody.read sent.bodyBufSlot sent.bodyLen = bodyData (some reply.body) := by
      rw [written.bodySlot]
      exact written.body
    rw [written.rxPools short]
    constructor
    · exact (slot_range back.headerSlot).1
    · rfl
    · rw [written.header]
      show BufferPool.bpRead _ _ sent.headerLen = _
      rw [written.headerLen]
      exact BufferPool.bpRead_copyIn back.rx.rxHeader (slot_range back.headerSlot) small
    · exact (slot_range back.bodySlot).1
    · rfl
    · rw [bodyRead]
      show BufferPool.bpRead _ _ sent.bodyLen = _
      rw [written.bodyLen]
      exact BufferPool.bpRead_copyIn back.rx.rxBody (slot_range back.bodySlot) body_small
  have handed := (Answer.onUpstreamResponse_intact_iff puts intact).mpr ⟨nonempty, sound.clean⟩
  have atHand : desc.dstPodId = caller.podId ∧
      desc.reqId % maxPending = caller.nextReqId % maxPending := by
    refine ⟨rfl, ?_⟩
    show sent.reqId % maxPending = _
    rw [written.reqId]
    exact congrArg (· % maxPending) entered.reqId
  unfold respond
  rw [called, Option.bind_some]
  dsimp only
  rw [found, Option.bind_some, route]
  dsimp only
  rw [if_pos atHand, handed, ← length]
  rfl

/-! ### A leaf service -/

theorem low_decimalInt (value : Int) : ∀ byte ∈ decimalInt value, byte < 128 := by
  intro byte member
  rcases mem_decimalInt member with minus | digit
  · rw [minus]
    decide
  · have range := isDigit_range digit
    exact UInt8.lt_iff_toNat_lt.mpr (by show byte.toNat < 128; omega)

/-- The replies of the leaf services are ASCII texts. -/
theorem ascii_leafReply (leaf : Leaf) (store : KvStore) (key : Bytes) :
    (leafReply leaf store key).body ≠ [] ∧
      ∀ byte ∈ (leafReply leaf store key).body, byte < 128 := by
  unfold leafReply
  cases kvStoreGet store key with
  | none =>
      cases leaf with
      | idService => exact ⟨by decide, forall_mem_of_all (by decide)⟩
      | attendService => exact ⟨by decide, forall_mem_of_all (by decide)⟩
  | some value =>
      cases leaf with
      | idService =>
          have front : ∀ byte ∈ ascii "\x7b\"id\":", byte < 128 := forall_mem_of_all (by decide)
          have back : ∀ byte ∈ ascii "\x7d", byte < 128 := forall_mem_of_all (by decide)
          show (Reply.printed 200 (idBody value)).body ≠ [] ∧
            ∀ byte ∈ (Reply.printed 200 (idBody value)).body, byte < 128
          rw [body_printed]
          refine ⟨List.cons_ne_nil _ _, ?_⟩
          unfold idBody
          rw [List.forall_mem_append, List.forall_mem_append]
          exact ⟨⟨front, low_decimalInt value⟩, back⟩
      | attendService =>
          show (Reply.printed 200 (attendBody value)).body ≠ [] ∧
            ∀ byte ∈ (Reply.printed 200 (attendBody value)).body, byte < 128
          rw [body_printed]
          unfold attendBody
          split
          · exact ⟨by decide, forall_mem_of_all (by decide)⟩
          · exact ⟨by decide, forall_mem_of_all (by decide)⟩

theorem http_plain : 58 ∉ ascii "http" ∧ 47 ∉ ascii "http" := by decide

/-- The url of a key at a leaf service. -/
def leafUrl (host : Bytes) (host_plain : 47 ∉ host) (leaf : Leaf) (key : Bytes) : Url where
  scheme := ascii "http"
  host := host
  path := leaf.service.path
  query := some (leaf.service.key ++ 61 :: key)
  scheme_plain := http_plain
  host_plain := host_plain
  path_slash := by
    cases leaf with
    | idService => rfl
    | attendService => rfl
  path_plain := by
    cases leaf with
    | idService => decide
    | attendService => decide

/-- A host whose first label leads to a worker of a leaf service. -/
structure Serves (node : Node) (host : Bytes) (leaf : Leaf) (callee : Worker) : Prop where
  plain : 47 ∉ host
  clean : CleanBytes host
  fits : host.length ≤ 255
  selected : ∃ text name podId, encode text = some host ∧
    node.select (firstLabel text) = some (name, podId) ∧
    node.workerAt podId = some (.leaf leaf, callee)
  workerId_clean : CleanBytes callee.workerId
  workerId_fits : callee.workerId.length ≤ 127

section Leaf

variable {node : Node} {caller callee : Worker} {host key : Bytes} {leaf : Leaf}

/-- The header carries the request for a clean key. -/
theorem carried_leafUrl (known : Known node caller) (serves : Serves node host leaf callee)
    (key_clean : CleanBytes key) (small : key.length ≤ 63) :
    Carried caller (ascii "GET") (leafUrl host serves.plain leaf key) := by
  have path_clean : CleanBytes leaf.service.path := by
    cases leaf with
    | idService => exact cleanBytes_of_ascii (forall_mem_of_all (by decide))
    | attendService => exact cleanBytes_of_ascii (forall_mem_of_all (by decide))
  have name_clean : CleanBytes (leaf.service.key ++ [61]) := by
    cases leaf with
    | idService => exact cleanBytes_of_ascii (forall_mem_of_all (by decide))
    | attendService => exact cleanBytes_of_ascii (forall_mem_of_all (by decide))
  have path_length : leaf.service.path.length ≤ 7 := by
    cases leaf with
    | idService => decide
    | attendService => decide
  have name_length : leaf.service.key.length ≤ 4 := by
    cases leaf with
    | idService => decide
    | attendService => decide
  have query_length : (leafUrl host serves.plain leaf key).queryString.length ≤ 68 := by
    show (leaf.service.key ++ 61 :: key).length ≤ 68
    rw [List.length_append, List.length_cons]
    omega
  have query_clean : CleanBytes (leafUrl host serves.plain leaf key).queryString := by
    have whole := name_clean.append key_clean
    rw [List.append_assoc] at whole
    exact whole
  have path_fits : (leafUrl host serves.plain leaf key).path.length < 256 := by
    show leaf.service.path.length < 256
    omega
  have scheme_clean : CleanBytes (ascii "http") :=
    cleanBytes_of_ascii (forall_mem_of_all (by decide))
  refine ⟨known.clean, cleanBytes_of_ascii (forall_mem_of_all (by decide)), scheme_clean,
    serves.clean, path_clean, query_clean, fun _ => path_fits, by omega, ?_⟩
  have url_length : (leafUrl host serves.plain leaf key).text.length ≤ 400 := by
    have host_length := serves.fits
    have scheme : (ascii "http").length = 4 := by decide
    have separator : (ascii "://").length = 3 := by decide
    show (ascii "http" ++ ascii "://" ++ host ++ leaf.service.path ++
      63 :: (leaf.service.key ++ 61 :: key)).length ≤ 400
    simp only [List.length_append, List.length_cons, scheme, separator]
    omega
  have split := (leafUrl host serves.plain leaf key).splitUrl_text (fun _ => path_fits) (by omega)
  have creq := length_creqId_le caller.nextReqId
  have worker := known.fits
  have status : (decimalInt 0).length = 1 := by decide
  have method : (ascii "GET").length = 3 := by decide
  have pieces : (ascii "\x7b\"method\": \"").length ≤ 40 ∧ (ascii "\", \"url\": \"").length ≤ 40 ∧
      (ascii "\", \"path\": \"").length ≤ 40 ∧
      (ascii "\", \"headers\": \x7b\x7d, \"query_string\": \"").length ≤ 40 ∧
      (ascii "\", \"remote_addr\": \"\", \"status_code\": ").length ≤ 40 ∧
      (ascii ", \"req_id_str\": \"").length ≤ 40 ∧
      (ascii "\", \"source_worker\": \"").length ≤ 40 ∧
      (ascii "\", \"dest_worker\": \"").length ≤ 40 ∧ (ascii "\"\x7d").length ≤ 40 := by
    decide
  obtain ⟨first, second, third, fourth, fifth, sixth, seventh, eighth, closing⟩ := pieces
  have path_short : (leafUrl host serves.plain leaf key).path.length ≤ 7 := path_length
  unfold writeRequest
  dsimp only
  rw [split]
  unfold headerText headerBufSize
  simp only [List.length_append, List.length_nil, status, method]
  omega

/-- An exchange brings what the leaf service replies to the key. -/
theorem dpumeshExchange_eq (there back : Passage) (stores : Leaf → KvStore)
    (known : Known node caller) (serves : Serves node host leaf callee)
    (key_clean : CleanBytes key)
    (plain : ∀ byte ∈ key, byte ≠ 0 ∧ byte ≠ 32 ∧ byte ≠ 13 ∧ byte ≠ 10 ∧ byte ≠ 38)
    (fits : key.length < leaf.service.outsz) (small : key.length ≤ 63) :
    dpumeshExchange node there back stores caller (leafUrl host serves.plain leaf key).text =
      some (leafResponse leaf (stores leaf) key) := by
  obtain ⟨text, name, podId, encoded, selected, present⟩ := serves.selected
  have clean : ∀ byte ∈ key, byte ≠ 32 ∧ byte ≠ 13 ∧ byte ≠ 0 := by
    intro byte member
    obtain ⟨nul, space, carriage, -, -⟩ := plain byte member
    exact ⟨space, carriage, nul⟩
  have newline : 10 ∉ key := fun member => (plain 10 member).2.2.2.1 rfl
  have ampersand : 38 ∉ key := fun member => (plain 38 member).2.2.2.2 rfl
  let line : RequestLine := Tcp.leafLine leaf key clean small
  have path_plain : 10 ∉ line.path := by
    show 10 ∉ leaf.service.path
    cases leaf with
    | idService => decide
    | attendService => decide
  have query_plain : 10 ∉ line.query := by
    have inName : 10 ∉ leaf.service.key := by
      cases leaf with
      | idService => decide
      | attendService => decide
    show 10 ∉ leaf.service.key ++ 61 :: key
    rw [List.mem_append, List.mem_cons, not_or, not_or]
    exact ⟨inName, by decide, newline⟩
  have nonempty : line.query ≠ [] := by
    show leaf.service.key ++ 61 :: key ≠ []
    simp
  obtain ⟨served, asked, sameId, samePod, entered⟩ := request_eq there line
    (carried_leafUrl known serves key_clean small) known.fits encoded selected present
    rfl rfl rfl nonempty path_plain query_plain
  have reply := handleRequest_leafRequest ampersand fits (stores leaf)
  have sound := sound_leaf leaf (stores leaf) (leafRequest leaf key)
  rw [reply] at sound
  obtain ⟨body_nonempty, low⟩ := ascii_leafReply leaf (stores leaf) key
  have answered := respond_eq back sound (encode_ofAscii low) body_nonempty entered known
    (by rw [sameId]; exact serves.workerId_clean) (by rw [sameId]; exact serves.workerId_fits)
  unfold dpumeshExchange
  rw [asked, Option.bind_some]
  show respond node back caller served caller.nextReqId _
    (leaf.service.handleRequest (stores leaf) (leafRequest leaf key)) = _
  rw [reply, answered]
  rfl

end Leaf

end MiniMs.Daemon.Exchange
