import MiniMs.Daemon.IngressText
import MiniMs.Daemon.RouteResponse

/-!
The status and the body of a response at both kinds of requester: the worker
whose upstream handler is called, and the client of the bridge.

Owns: what a client reads from the bytes it is sent, what it reads for a
response that reached the router intact, and the theorem that says for which
bodies both requesters get what `dpumesh_conn_respond` was given.
-/

namespace MiniMs.Daemon

open MiniMs.Http MiniMs.Dpumesh MiniMs.Library.Text MiniMs.Library.Json MiniMs.Library.Number

/-! ### The client of the bridge -/

/-- What `json.loads` of the received bytes gives to the client. -/
def clientReads (float : PyStr → Numeral) (reply : Bytes) : Option (List (PyStr × Value)) :=
  match (decode reply).bind (loads float) with
  | some (.object members) => some members
  | _ => none

/-- A reply has a status and a body. -/
structure Reads (members : List (PyStr × Value)) (status : Int) (body : PyStr) : Prop where
  status_held : ∃ numeral, get members (lit "status") .null = .number numeral ∧
    numeral.text = decimalInt status
  body_held : get members (lit "body") .null = .string body

/-- The request that is answered came over the bridge. -/
structure FromBridge (answer : Answer) (uuid : Uuid) : Prop where
  reqIdStr : answer.request.reqIdStr = uuid.text
  sourceWorker : answer.request.sourceWorker = []

/-- The router has the descriptor that the DPA made of the one that was sent,
and the header in its own pool. -/
structure AtRouter (pools : TxPools) (sent : SwDescriptor) (txHeader : BufferPool)
    (slot : Int) : Prop where
  slot_some : 0 ≤ slot
  header : txHeader.read slot sent.headerLen = pools.txHeader.read sent.headerBufSlot sent.headerLen

/-- The reply to a bridge client whose response reached the router. -/
def routedReply (float : PyStr → Numeral) (getPodId : Value → Int) (waiting : List PyStr)
    (txHeader : BufferPool) (pools : TxPools) (sent : SwDescriptor) (slot : Int) : Option Bytes :=
  bridgeReply float getPodId waiting txHeader pools.txBody (sidecarDesc sent slot)

theorem cleanBytes_uuid (uuid : Uuid) : CleanBytes uuid.text := by
  have plain : ∀ byte ∈ ascii "0123456789abcdef-",
      32 ≤ byte ∧ byte < 128 ∧ byte ≠ 34 ∧ byte ≠ 92 := forall_mem_of_all (by decide)
  exact cleanBytes_of_ascii fun byte member => plain byte (uuid.mem_text member)

theorem encode_uuid (uuid : Uuid) : encode (ofAscii uuid.text) = some uuid.text := by
  have plain : ∀ byte ∈ ascii "0123456789abcdef-", byte < 128 := forall_mem_of_all (by decide)
  exact encode_ofAscii fun byte member => plain byte (uuid.mem_text member)

/-- A text is what its bytes say. -/
theorem encode_inj {first second : PyStr} {bytes : Bytes} (left : encode first = some bytes)
    (right : encode second = some bytes) : first = second :=
  Option.some.inj ((decode_of_encode left).symm.trans (decode_of_encode right))

/-! ### What the client reads -/

/-- The client reads an entry of `_bridge_responses` back. -/
theorem clientReads_dumps (float : PyStr → Numeral) {reqId body : PyStr} {status : Nat}
    (reqId_scalars : ∀ point ∈ reqId, (toChar? point).isSome)
    (body_scalars : ∀ point ∈ body, (toChar? point).isSome) (small : status < 2 ^ 31) :
    ∃ members, clientReads float (dumps (.object
        [(lit "req_id", .string reqId), (lit "status", .number (integerNumeral (integerRaw status))),
          (lit "headers", .object []), (lit "body", .string body)])) = some members ∧
      Reads members status body := by
  have digits : (Nat.toDigits 10 status).length ≤ 10 :=
    (Nat.length_toDigits_le_iff (by decide) (by decide)).mpr (by omega)
  let first : Printed float := .string "req_id" (forall_mem_of_all (by decide)) (by decide) reqId_scalars
  let members : List (Printed float) :=
    [.integer "status" (forall_mem_of_all (by decide)) (by decide) status (by omega),
      .emptyObject "headers" (forall_mem_of_all (by decide)) (by decide),
      .string "body" (forall_mem_of_all (by decide)) (by decide) body_scalars]
  have read := loads_dumps_object first members
  refine ⟨setItems [] (first.toMember :: members.map Printed.toMember), ?_, ?_, rfl⟩
  · unfold clientReads
    rw [decode_dumps, Option.bind_some]
    show (match loads float ((dumps (.object (first.pair :: members.map Printed.pair))).map ofByte) with
      | some (.object members) => some members
      | _ => none) = _
    rw [read]
  · refine ⟨integerNumeral (integerRaw status), rfl, ?_⟩
    rw [integerNumeral_integerRaw, decimalInt_natCast]
    rfl

/-! ### From the router to the client -/

/-- The client is sent a reply, and reads the status and the body in it that
`dpumesh_conn_respond` was given. -/
def Served (float : PyStr → Numeral) (answer : Answer) (reply : Option Bytes) : Prop :=
  ∃ bytes members, reply = some bytes ∧ clientReads float bytes = some members ∧
    Reads members answer.status answer.text

section Router

variable {float : PyStr → Numeral} {getPodId : Value → Int} {waiting : List PyStr}
  {txHeader : BufferPool} {pools : TxPools} {sent : SwDescriptor} {slot : Int} {answer : Answer}
  {uuid : Uuid}

/-- The text that the router reads for the body: that of the stand-in where the
body is empty. -/
theorem bodyText_sent (puts : answer.Puts pools sent) {text : PyStr}
    (encoded : encode text = some (bodyData (some answer.body))) :
    bodyText pools.txBody (sidecarDesc sent slot) = text := by
  obtain ⟨headerSlot, bodySlot, same, -, body⟩ := puts.slots
  have inside := slot_of_read body (bodyData_pos _)
  have length : (sidecarDesc sent slot).bodyLen = (bodyData (some answer.body)).length := by
    rw [same]
    exact outgoingDesc_bodyLen answer.worker.podId
      (writeResponse answer.worker answer.descIndex answer.status).2
      (Nat.le_of_lt Answer.bodyData_fits) headerSlot bodySlot
  have read : pools.txBody.read (sidecarDesc sent slot).srcBodyBufSlot
      (sidecarDesc sent slot).bodyLen = bodyData (some answer.body) := by
    rw [length, same]
    exact body
  have named : 0 ≤ (sidecarDesc sent slot).srcBodyBufSlot ∧ 0 < (sidecarDesc sent slot).bodyLen := by
    rw [length, same]
    exact ⟨inside, bodyData_pos _⟩
  unfold bodyText
  rw [if_pos named, read]
  exact decodeIgnore_of_encode encoded

variable (float) in
/-- The router finds the header of the response. -/
theorem headerInfo_sent (puts : answer.Puts pools sent) (routed : AtRouter pools sent txHeader slot)
    (bridge : FromBridge answer uuid) (workerId : CleanBytes answer.worker.workerId) :
    ∃ info, headerInfo float (sidecarDesc sent slot) txHeader = some info ∧
      ResponseInfo answer.status answer.request.reqIdStr answer.request.sourceWorker info := by
  obtain ⟨headerSlot, bodySlot, same, header, -⟩ := puts.slots
  have reqIdStr : CleanBytes answer.request.reqIdStr := by
    rw [bridge.reqIdStr]
    exact cleanBytes_uuid uuid
  have sourceWorker : CleanBytes answer.request.sourceWorker := by
    rw [bridge.sourceWorker]
    exact ⟨[], rfl, List.forall_mem_nil _⟩
  obtain ⟨info, decoded, holds⟩ := responseInfo_of_clean float answer.status_positive
    answer.status_small reqIdStr workerId sourceWorker
  have read : txHeader.read (sidecarDesc sent slot).headerBufSlot (sidecarDesc sent slot).headerLen =
      answer.header := by
    have moved := routed.header
    rw [same] at moved ⊢
    exact moved.trans header
  have named : 0 ≤ (sidecarDesc sent slot).headerBufSlot ∧ 0 < (sidecarDesc sent slot).headerLen := by
    refine ⟨routed.slot_some, ?_⟩
    rw [same]
    show 0 < answer.header.length
    rw [Answer.header_eq]
    exact Nat.succ_pos _
  refine ⟨info, ?_, holds⟩
  unfold headerInfo
  rw [if_pos named, read]
  unfold Answer.header
  rw [decoded]

variable (float getPodId) in
/-- The bytes that the waiting client is sent. -/
theorem routedReply_eq (puts : answer.Puts pools sent) (routed : AtRouter pools sent txHeader slot)
    (bridge : FromBridge answer uuid) (workerId : CleanBytes answer.worker.workerId)
    (waits : ofAscii uuid.text ∈ waiting) {status : Nat} (isStatus : answer.status = status)
    {text : PyStr} (encoded : encode text = some (bodyData (some answer.body))) :
    routedReply float getPodId waiting txHeader pools sent slot =
      some (dumps (.object
        [(lit "req_id", .string (ofAscii uuid.text)),
          (lit "status", .number (integerNumeral (integerRaw status))), (lit "headers", .object []),
          (lit "body", .string text)])) := by
  obtain ⟨info, found, holds⟩ := headerInfo_sent float puts routed bridge workerId
  obtain ⟨reqId, reqId_held, reqId_encoded⟩ := holds.reqIdStr_held
  obtain ⟨dest, dest_held, dest_encoded⟩ := holds.destWorker_held
  obtain ⟨numeral, status_held, printed⟩ := holds.status_held
  rw [bridge.reqIdStr] at reqId_encoded
  rw [bridge.sourceWorker] at dest_encoded
  obtain rfl : reqId = ofAscii uuid.text := encode_inj reqId_encoded (encode_uuid uuid)
  obtain rfl : dest = [] := encode_inj dest_encoded rfl
  have number : numeral = integerNumeral (integerRaw status) := by
    have same : numeral.text = (integerNumeral (integerRaw status)).text := by
      rw [printed, isStatus, decimalInt_natCast, integerNumeral_integerRaw]
      rfl
    cases numeral
    cases shape : integerNumeral (integerRaw status)
    rw [shape] at same
    exact (Numeral.mk.injEq _ _ _ _).mpr same
  have response : (sidecarDesc sent slot).isResponse = true := by
    obtain ⟨headerSlot, bodySlot, same, -, -⟩ := puts.slots
    rw [same]
    show ((opResponse ||| _) &&& 0xF0 == opResponse) = true
    split
    · rfl
    · rfl
  have toBridge : routeResponse getPodId (sidecarDesc sent slot) info = .bridge := by
    unfold routeResponse
    rw [get_of_holds dest_held]
    rfl
  unfold routedReply bridgeReply
  rw [if_pos response, found]
  dsimp only
  rw [toBridge, bodyText_sent puts encoded]
  dsimp only
  unfold deliverBridgeResponse
  rw [get_of_holds reqId_held]
  dsimp only
  rw [if_pos waits]
  unfold bridgeResponse
  rw [status_held, holds.headers_held, number]
  rfl

/-- A client of the bridge is served exactly where the body is not empty. -/
theorem served_iff (puts : answer.Puts pools sent) (routed : AtRouter pools sent txHeader slot)
    (bridge : FromBridge answer uuid) (workerId : CleanBytes answer.worker.workerId)
    (waits : ofAscii uuid.text ∈ waiting) :
    Served float answer (routedReply float getPodId waiting txHeader pools sent slot) ↔
      answer.body ≠ [] := by
  obtain ⟨status, isStatus⟩ : ∃ status : Nat, answer.status = status :=
    ⟨answer.status.toNat, by have := answer.status_positive; omega⟩
  have small : status < 2 ^ 31 := by
    have small := answer.status_small
    omega
  obtain ⟨text, encoded, sameText⟩ : ∃ text, encode text = some (bodyData (some answer.body)) ∧
      (text = answer.text ↔ answer.body ≠ []) := by
    by_cases empty : answer.body = []
    · have utf8 := answer.body_utf8
      rw [empty] at utf8
      obtain nothing : answer.text = [] := encode_inj utf8 rfl
      refine ⟨[0], by rw [empty]; rfl, ?_⟩
      rw [nothing]
      simp [empty]
    · rw [bodyData_of_ne_nil empty]
      exact ⟨answer.text, answer.body_utf8, by simp [empty]⟩
  have sent_ := routedReply_eq float getPodId puts routed bridge workerId waits isStatus encoded
  obtain ⟨members, read, reads⟩ := clientReads_dumps float
    (scalars_of_encode (encode_uuid uuid)) (scalars_of_encode encoded) small
  rw [← isStatus] at reads
  rw [sent_, ← sameText]
  constructor
  · rintro ⟨bytes, others, same, read', reads'⟩
    rw [← Option.some.inj same, read] at read'
    rw [← Option.some.inj read'] at reads'
    exact Value.string.inj (reads.body_held.symm.trans reads'.body_held)
  · intro whole
    rw [whole] at reads
    exact ⟨_, members, rfl, read, reads⟩

end Router

/-! ### Both requesters -/

/-- Every requester that a response reaches gets the status and the body that
`dpumesh_conn_respond` was given. -/
structure Faithful (answer : Answer) : Prop where
  worker : ∀ pools sent rx desc, answer.Puts pools sent → Dpumesh.Intact pools sent rx desc →
    onUpstreamResponse (some (readResponse rx desc)) = some answer.response
  bridge : ∀ float getPodId waiting txHeader pools sent slot uuid, answer.Puts pools sent →
    AtRouter pools sent txHeader slot → FromBridge answer uuid → ofAscii uuid.text ∈ waiting →
    Served float answer (routedReply float getPodId waiting txHeader pools sent slot)

/-- A worker that waits gets a response exactly where the body is neither empty
nor holds a NUL, a client of the bridge exactly where the body is not empty. -/
theorem responses_faithful_iff (answer : Answer) (workerId : CleanBytes answer.worker.workerId)
    {pools : TxPools} {sent : SwDescriptor} (puts : answer.Puts pools sent) :
    (∀ rx desc, Dpumesh.Intact pools sent rx desc →
      (onUpstreamResponse (some (readResponse rx desc)) = some answer.response ↔
        answer.body ≠ [] ∧ 0 ∉ answer.body)) ∧
    (∀ float getPodId waiting txHeader slot uuid, AtRouter pools sent txHeader slot →
      FromBridge answer uuid → ofAscii uuid.text ∈ waiting →
      (Served float answer (routedReply float getPodId waiting txHeader pools sent slot) ↔
        answer.body ≠ [])) :=
  ⟨fun _ _ intact => Answer.onUpstreamResponse_intact_iff puts intact,
    fun _ _ _ _ _ _ routed bridge waits => served_iff puts routed bridge workerId waits⟩

/-- A worker of `s1` with one request that came over the bridge. -/
def answeringWorker : Worker :=
  { Worker.init (ascii "s1-worker-0") 2 with
    inbound := fun _ => { reqIdStr := firstUuid.text, caseFlag := caseIngress, active := true } }

/-- An answer of that worker with status 200. -/
def answerWith (body : Bytes) (text : PyStr) (body_utf8 : encode text = some body)
    (body_short : body.length ≤ 4095) : Answer where
  worker := answeringWorker
  descIndex := 0
  status := 200
  body := body
  text := text
  status_positive := by decide
  status_small := by decide
  body_utf8 := body_utf8
  body_short := body_short
  workerId_fits := by decide
  reqIdStr_fits := by decide
  sourceWorker_fits := by decide

/-- With free slots and an empty ring, the answer is put. -/
theorem puts_answerWith {body : Bytes} {text : PyStr} (body_utf8 : encode text = some body)
    (body_short : body.length ≤ 4095) :
    ∃ pools sent, (answerWith body text body_utf8 body_short).Puts pools sent ∧
      AtRouter pools sent pools.txHeader sent.headerBufSlot := by
  obtain ⟨pools, sent, written⟩ := writeCommon_zeroed answeringWorker.podId
    (writeResponse answeringWorker 0 200).2 (fun _ => 0) (some body)
  have puts : (answerWith body text body_utf8 body_short).Puts pools sent :=
    ⟨⟨.zeroed, .zeroed⟩, [], fun _ => 0, _, congrArg (Prod.mk _) written⟩
  exact ⟨pools, sent, puts, puts.intact.headerSlot, rfl⟩

theorem fromBridge_answerWith {body : Bytes} {text : PyStr} (body_utf8 : encode text = some body)
    (body_short : body.length ≤ 4095) :
    FromBridge (answerWith body text body_utf8 body_short) firstUuid := ⟨rfl, rfl⟩

theorem cleanBytes_answeringWorker : CleanBytes answeringWorker.workerId :=
  cleanBytes_of_ascii (forall_mem_of_all (by decide))

/-- The answer `1`. -/
def countAnswer : Answer := answerWith (ascii "1") (lit "1") (encode_lit "1") (by decide)

theorem responses_faithful_iff_count :
    ∃ pools sent, onUpstreamResponse (some (readResponse ⟨pools.txHeader, pools.txBody⟩ sent)) =
        some countAnswer.response ∧
      Served (fun _ => ⟨[], List.forall_mem_nil _⟩) countAnswer
        (routedReply (fun _ => ⟨[], List.forall_mem_nil _⟩) (fun _ => -1) [ofAscii firstUuid.text]
          pools.txHeader pools sent sent.headerBufSlot) := by
  obtain ⟨pools, sent, puts, routed⟩ := puts_answerWith (encode_lit "1") (by decide)
  have both := responses_faithful_iff countAnswer cleanBytes_answeringWorker puts
  refine ⟨pools, sent, (both.1 _ _ puts.intact).mpr (by decide), ?_⟩
  exact (both.2 _ _ _ _ _ _ routed (fromBridge_answerWith (encode_lit "1") (by decide))
    List.mem_cons_self).mpr (by decide)

/-- An answer with an empty body. -/
def emptyAnswer : Answer := answerWith [] [] encode_nil (by decide)

/-- An empty body calls no upstream handler, and reaches the client of the
bridge as one NUL. -/
theorem not_faithful : ¬ Faithful emptyAnswer ∧
    ∃ pools sent, emptyAnswer.Puts pools sent ∧
      AtRouter pools sent pools.txHeader sent.headerBufSlot ∧
      ¬ Served (fun _ => ⟨[], List.forall_mem_nil _⟩) emptyAnswer
        (routedReply (fun _ => ⟨[], List.forall_mem_nil _⟩) (fun _ => -1) [ofAscii firstUuid.text]
          pools.txHeader pools sent sent.headerBufSlot) := by
  obtain ⟨pools, sent, puts, routed⟩ := @puts_answerWith [] [] rfl (by decide)
  constructor
  · intro faithful
    have called := faithful.worker pools sent _ _ puts puts.intact
    exact ((Answer.onUpstreamResponse_intact_iff puts puts.intact).mp called).1 rfl
  · refine ⟨pools, sent, puts, routed, fun served => ?_⟩
    exact (served_iff puts routed (fromBridge_answerWith rfl (by decide)) cleanBytes_answeringWorker
      List.mem_cons_self).mp served rfl

end MiniMs.Daemon
