import MiniMs.Dpumesh.FieldText
import MiniMs.Dpumesh.Handler
import MiniMs.Library.Json

/-!
A response from `dpumesh_conn_respond` to the upstream handler of the worker
that waits for it.

Owns: the call, what it leaves in the TX slots, what it means for a descriptor
to arrive with its bytes, and the bodies that reach the upstream handler.

The way of the bytes from the TX slots to the RX slots is not owned here, nor is
the bridge.
-/

namespace MiniMs.Dpumesh

open MiniMs.Http MiniMs.Library.Text MiniMs.Library.Number MiniMs.Library.Json

/-! ### The call -/

/-- `dpumesh_conn_respond`: the worker, the TX pools, and the TX ring, or `none`
where `dpumesh_write` returns -1. -/
def dpumeshConnRespond (worker : Worker) (pools : TxPools) (ring : List SwDescriptor)
    (stack : Nat → UInt8) (descIndex : Nat) (status : Int) (body : Bytes) :
    Worker × TxPools × Option (List SwDescriptor) :=
  let (worker, out) := writeResponse worker descIndex status
  (worker, writeCommon pools ring worker.podId out stack (some body))

/-- The arguments of a call that answers with a status and a text. The bounds on
names are the sizes of their buffers. -/
structure Answer where
  worker : Worker
  descIndex : Nat
  status : Int
  body : Bytes
  text : PyStr
  status_positive : 0 < status
  status_small : status < 2 ^ 31
  body_utf8 : encode text = some body
  body_short : body.length ≤ 4095
  workerId_fits : worker.workerId.length < 128
  reqIdStr_fits : (worker.inbound descIndex).reqIdStr.length < 64
  sourceWorker_fits : (worker.inbound descIndex).sourceWorker.length < 128

namespace Answer

variable (answer : Answer)

/-- The entry of the request that is answered. -/
def request : Inbound := answer.worker.inbound answer.descIndex

/-- The header of the response. -/
def header : Bytes :=
  headerText [] [] [] [] answer.status answer.request.reqIdStr answer.worker.workerId
    answer.request.sourceWorker

/-- The call puts a descriptor, and leaves the pools as they are given. -/
def Puts (pools : TxPools) (sent : SwDescriptor) : Prop :=
  ∃ before ring stack worker,
    dpumeshConnRespond answer.worker before ring stack answer.descIndex answer.status answer.body =
      (worker, pools, some (ring ++ [sent]))

/-- What the requester must be handed. -/
def response : HttpResponse := ⟨answer.status, answer.body, answer.body.length⟩

end Answer

/-- A descriptor in an RX ring names slots that hold the bytes of the one that
was sent. -/
structure Intact (pools : TxPools) (sent : SwDescriptor) (rx : RxPools) (desc : SwDescriptor) :
    Prop where
  headerSlot : 0 ≤ desc.headerBufSlot
  headerLen : desc.headerLen = sent.headerLen
  header : rx.rxHeader.bpRead desc.headerBufSlot desc.headerLen =
    pools.txHeader.read sent.headerBufSlot sent.headerLen
  bodySlot : 0 ≤ desc.bodyBufSlot
  bodyLen : desc.bodyLen = sent.bodyLen
  body : rx.rxBody.bpRead desc.bodyBufSlot desc.bodyLen =
    pools.txBody.read sent.bodyBufSlot sent.bodyLen

/-! ### The slots -/

/-- A slot that gives bytes is a slot. -/
theorem slot_of_read {pool : BufferPool} {slot : Int} {length : Nat} {data : Bytes}
    (read : pool.read slot length = data) (nonempty : 0 < data.length) : 0 ≤ slot := by
  by_contra outside
  have empty : pool.read slot length = [] := if_pos (Or.inl (by omega))
  rw [← read, empty, List.length_nil] at nonempty
  omega

/-- The stand-in for an empty body makes every body longer than nothing. -/
theorem bodyData_pos (body : Option Bytes) : 0 < (bodyData body).length := by
  unfold bodyData
  split
  · decide
  · decide
  · rename_i body nonempty
    apply List.length_pos_of_ne_nil
    intro empty
    exact nonempty (by rw [empty])

theorem bodyData_of_ne_nil {body : Bytes} (nonempty : body ≠ []) : bodyData (some body) = body := by
  unfold bodyData
  split
  · contradiction
  · rename_i isEmpty
    exact absurd (Option.some.inj isEmpty) nonempty
  · rename_i other _ same
    exact (Option.some.inj same).symm

namespace Answer

variable {answer : Answer}

theorem header_short : answer.header.length < headerBufSize := by
  have positive := answer.status_positive
  have status : (decimalInt answer.status).length ≤ 11 :=
    length_decimalInt_le (by omega) answer.status_small
  have reqId := answer.reqIdStr_fits
  have source := answer.sourceWorker_fits
  have worker := answer.workerId_fits
  have pieces : (ascii "\x7b\"method\": \"").length ≤ 40 ∧ (ascii "\", \"url\": \"").length ≤ 40 ∧
      (ascii "\", \"path\": \"").length ≤ 40 ∧
      (ascii "\", \"headers\": \x7b\x7d, \"query_string\": \"").length ≤ 40 ∧
      (ascii "\", \"remote_addr\": \"\", \"status_code\": ").length ≤ 40 ∧
      (ascii ", \"req_id_str\": \"").length ≤ 40 ∧
      (ascii "\", \"source_worker\": \"").length ≤ 40 ∧
      (ascii "\", \"dest_worker\": \"").length ≤ 40 ∧ (ascii "\"\x7d").length ≤ 40 := by
    decide
  obtain ⟨method, url, path, query, code, reqIdStr, sourceWorker, destWorker, closing⟩ := pieces
  unfold header headerText headerBufSize request
  simp only [List.length_append, List.length_nil]
  omega

theorem bodyData_fits : (bodyData (some answer.body)).length < slotSize := by
  have short := answer.body_short
  by_cases empty : answer.body = []
  · rw [empty]
    decide
  · rw [bodyData_of_ne_nil empty]
    unfold slotSize
    omega

/-- The slots of a descriptor that is put hold the header and the body. -/
theorem Puts.slots {pools : TxPools} {sent : SwDescriptor} (puts : answer.Puts pools sent) :
    ∃ headerSlot bodySlot : Int,
      sent = outgoingDesc answer.worker.podId
        (writeResponse answer.worker answer.descIndex answer.status).2 (some answer.body) headerSlot
        bodySlot ∧
      pools.txHeader.read headerSlot answer.header.length = answer.header ∧
      pools.txBody.read bodySlot (bodyData (some answer.body)).length =
        bodyData (some answer.body) := by
  obtain ⟨before, ring, stack, worker, call⟩ := puts
  have written : writeCommon before ring answer.worker.podId
      (writeResponse answer.worker answer.descIndex answer.status).2 stack (some answer.body) =
        (pools, some (ring ++ [sent])) := congrArg Prod.snd call
  obtain ⟨headerSlot, bodySlot, put, header, body⟩ :=
    slots_of_writeCommon header_short (Nat.le_of_lt bodyData_fits) written
  obtain ⟨same, -⟩ := List.cons.inj (List.append_cancel_left put)
  exact ⟨headerSlot, bodySlot, same, header, body⟩

end Answer

/-! ### The status -/

/-- The fields of a response's header in front of the status. -/
def fieldsBeforeStatus : List Field :=
  [⟨ascii "method", inQuotes []⟩, ⟨ascii "url", inQuotes []⟩, ⟨ascii "path", inQuotes []⟩,
    ⟨ascii "headers", ascii "\x7b\x7d"⟩, ⟨ascii "query_string", inQuotes []⟩,
    ⟨ascii "remote_addr", inQuotes []⟩]

theorem fieldsBeforeStatus_plain : ∀ field ∈ fieldsBeforeStatus, field.Plain := by
  have quotes : ∀ key : Bytes, 34 ∉ key → Field.Plain ⟨key, inQuotes []⟩ :=
    fun key noQuote => ⟨noQuote, Or.inr ⟨[], rfl, List.not_mem_nil⟩⟩
  unfold fieldsBeforeStatus
  simp only [List.forall_mem_cons]
  exact ⟨quotes _ (by decide), quotes _ (by decide), quotes _ (by decide),
    ⟨by decide, Or.inl (by decide)⟩, quotes _ (by decide), quotes _ (by decide),
    List.forall_mem_nil _⟩

theorem decimalInt_cons (value : Int) :
    ∃ first rest, decimalInt value = first :: rest ∧ first ≠ 32 := by
  have nonempty : decimalInt value ≠ [] := by
    unfold decimalInt
    split
    · exact List.append_ne_nil_of_left_ne_nil (by decide) _
    · exact bytesOf_toDigits_ne_nil _
  obtain ⟨first, rest, shape⟩ := List.exists_cons_of_ne_nil nonempty
  refine ⟨first, rest, shape, ?_⟩
  rcases mem_decimalInt (by rw [shape]; exact List.mem_cons_self) with minus | digit
  · rw [minus]
    decide
  · exact isDigit_ne digit (by decide)

/-- `json_get_int` reads a number that something other than a digit follows. -/
theorem jsonGetInt_behind_front {front : List Field} {key : Bytes} (searched : Searched key)
    (plain : ∀ field ∈ front, field.Plain) (other : ∀ field ∈ front, key ≠ field.key)
    {value : Int} (low : -(2 ^ 31) ≤ value) (high : value < 2 ^ 31) {after : Bytes}
    (stops : ∀ byte, after.head? = some byte → isDigit byte = false) :
    jsonGetInt (123 :: (frontText front ++ ((⟨key, decimalInt value⟩ : Field).text ++ after))) key =
      value := by
  have search := strstr_behind_front searched plain other (decimalInt value) after
  obtain ⟨first, rest, shape, notBlank⟩ := decimalInt_cons value
  have solid : (32 :: (decimalInt value ++ after)).dropWhile (· = 32) = decimalInt value ++ after := by
    rw [List.dropWhile_cons_of_pos (by decide), shape, List.cons_append,
      List.dropWhile_cons_of_neg (by simpa using notBlank)]
  unfold jsonGetInt
  rw [search]
  dsimp only
  rw [List.drop_left' rfl, solid]
  exact atoi_decimalInt low high stops

theorem cstr_append {front : Bytes} (clean : 0 ∉ front) (rest : Bytes) :
    cstr (front ++ rest) = front ++ cstr rest := by
  unfold cstr
  apply List.takeWhile_append_of_pos
  intro byte member
  simpa using ne_of_mem_of_not_mem member clean

/-! ### The worker that waits -/

/-- A row, cut behind the comma of a field. -/
theorem rowText_cut (front : List Field) (field next : Field) (back : List Field) :
    rowText front field (next :: back) =
      123 :: (frontText front ++ (field.text ++ [44])) ++ 32 :: (next.text ++ tailText back) := by
  simp [rowText, tailText]

namespace Answer

variable {answer : Answer}

theorem status_range : -(2 ^ 31) ≤ answer.status ∧ answer.status < 2 ^ 31 := by
  have positive := answer.status_positive
  have small := answer.status_small
  omega

/-- The header, the status singled out. -/
theorem header_eq : answer.header =
    rowText fieldsBeforeStatus ⟨ascii "status_code", decimalInt answer.status⟩
      [⟨ascii "req_id_str", inQuotes answer.request.reqIdStr⟩,
        ⟨ascii "source_worker", inQuotes answer.worker.workerId⟩,
        ⟨ascii "dest_worker", inQuotes answer.request.sourceWorker⟩] := by
  unfold header
  rw [headerText_eq]
  exact rowText_focus [] ⟨ascii "method", inQuotes []⟩ (fieldsBeforeStatus.drop 1) _ _

/-- Whatever the names are, the status is read from the header. -/
theorem jsonGetInt_header : jsonGetInt (cstr answer.header) (ascii "status_code") = answer.status := by
  let field : Field := ⟨ascii "status_code", decimalInt answer.status⟩
  obtain ⟨rest, shape⟩ : ∃ rest, answer.header =
      123 :: (frontText fieldsBeforeStatus ++ (field.text ++ [44])) ++ rest := by
    rw [header_eq]
    exact ⟨_, rowText_cut _ _ _ _⟩
  have clean : 0 ∉ 123 :: (frontText fieldsBeforeStatus ++ (field.text ++ [44])) := by
    have front : 0 ∉ frontText fieldsBeforeStatus := by decide
    have key : 0 ∉ ascii "status_code" := by decide
    have digits : 0 ∉ decimalInt answer.status := by
      intro member
      rcases mem_decimalInt member with minus | digit
      · contradiction
      · contradiction
    simp [front, key, digits, Field.text, field]
  have front : 123 :: (frontText fieldsBeforeStatus ++ (field.text ++ [44])) ++ cstr rest =
      123 :: (frontText fieldsBeforeStatus ++ (field.text ++ 44 :: cstr rest)) := by
    simp
  have other : ∀ other ∈ fieldsBeforeStatus, ascii "status_code" ≠ other.key :=
    forall_mem_of_all (by decide)
  rw [shape, cstr_append clean, front]
  apply jsonGetInt_behind_front (searched_of_letter (by decide) (by decide) (by decide))
    fieldsBeforeStatus_plain other status_range.1 status_range.2
  intro byte comma
  rw [← Option.some.inj comma]
  decide

/-- The slots that were filled are as good as copies of them. -/
theorem Puts.intact {pools : TxPools} {sent : SwDescriptor} (puts : answer.Puts pools sent) :
    Intact pools sent ⟨pools.txHeader, pools.txBody⟩ sent := by
  obtain ⟨headerSlot, bodySlot, same, header, body⟩ := puts.slots
  have headerSome : 0 < answer.header.length := by
    rw [header_eq]
    exact Nat.succ_pos _
  rw [same]
  exact ⟨slot_of_read header headerSome, rfl, rfl, slot_of_read body (bodyData_pos _), rfl, rfl⟩

/-- What the waiting worker reads: the status, and the body as it went to the
slot. -/
theorem readResponse_intact {pools : TxPools} {sent desc : SwDescriptor} {rx : RxPools}
    (puts : answer.Puts pools sent) (intact : Intact pools sent rx desc) :
    (readResponse rx desc).statusCode = answer.status ∧
      (readResponse rx desc).body = some (bodyData (some answer.body)) := by
  obtain ⟨headerSlot, bodySlot, same, header, body⟩ := puts.slots
  have short : answer.header.length < headerBufSize := header_short
  have headerLen : desc.headerLen = answer.header.length := by
    rw [intact.headerLen, same]
    rfl
  have bodyLen : desc.bodyLen = (bodyData (some answer.body)).length := by
    rw [intact.bodyLen, same]
    exact outgoingDesc_bodyLen _ _ (Nat.le_of_lt bodyData_fits) _ _
  have headerRead : rx.rxHeader.bpRead desc.headerBufSlot desc.headerLen = answer.header := by
    rw [intact.header, same]
    exact header
  have bodyRead : rx.rxBody.bpRead desc.bodyBufSlot desc.bodyLen = bodyData (some answer.body) := by
    rw [intact.body, same, outgoingDesc_bodyLen _ _ (Nat.le_of_lt bodyData_fits)]
    exact body
  have headerSome : 0 < desc.headerLen := by
    rw [headerLen, header_eq]
    exact Nat.succ_pos _
  have text : responseHeaderText rx desc = cstr answer.header := by
    unfold responseHeaderText localHeaderText
    rw [if_pos ⟨intact.headerSlot, headerSome⟩, if_pos (by omega), headerRead]
  have bodySome := bodyData_pos (some answer.body)
  have bodyFits : desc.bodyLen < slotSize := by
    rw [bodyLen]
    exact bodyData_fits
  constructor
  · show jsonGetInt (responseHeaderText rx desc) (ascii "status_code") = _
    rw [text]
    exact jsonGetInt_header
  · show (if 0 ≤ desc.bodyBufSlot ∧ 0 < desc.bodyLen then _ else none) = _
    rw [if_pos ⟨intact.bodySlot, by omega⟩, if_pos bodyFits, bodyRead]

/-- A response reaches the upstream handler as it was given if its body is
neither empty nor holds a NUL. -/
theorem onUpstreamResponse_intact_iff {pools : TxPools} {sent desc : SwDescriptor} {rx : RxPools}
    (puts : answer.Puts pools sent) (intact : Intact pools sent rx desc) :
    onUpstreamResponse (some (readResponse rx desc)) = some answer.response ↔
      answer.body ≠ [] ∧ 0 ∉ answer.body := by
  obtain ⟨statusCode, body⟩ := readResponse_intact puts intact
  have status : (readResponse rx desc).status = answer.status := by
    unfold Response.status
    rw [statusCode, if_pos answer.status_positive]
  have bytes : (readResponse rx desc).bytes = bodyData (some answer.body) := by
    unfold Response.bytes
    rw [body, Option.getD_some]
  rw [onUpstreamResponse_some, status, bytes]
  by_cases empty : answer.body = []
  · have standIn : bodyData (some answer.body) = [0] := by
      rw [empty]
      rfl
    rw [standIn, if_pos List.mem_cons_self]
    simp [empty]
  · rw [bodyData_of_ne_nil empty]
    by_cases nul : 0 ∈ answer.body
    · rw [if_pos nul]
      simp [nul]
    · have short := answer.body_short
      have copied : bodyCopy answer.body.length = answer.body.length := by
        unfold bodyCopy bodyBufSize
        rw [if_pos (by omega)]
      rw [if_neg nul, copied, List.take_length]
      exact ⟨fun _ => ⟨empty, nul⟩, fun _ => rfl⟩

end Answer

end MiniMs.Dpumesh
