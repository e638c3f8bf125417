import MiniMs.Daemon.LocalHeader
import MiniMs.Dpumesh.Respond
import MiniMs.Library.JsonDumped

/-!
A response at the router: `_route_descriptor` with a response,
`_route_response` and `_deliver_bridge_response`.

Owns: the dictionary that the router makes of a header, decoding with errors
ignored, the two ways a response goes on, the reply to a client of the bridge,
and what the router finds in a header that `dpumesh_write` made for a response.

The registry that `PodRegistry.get_pod_id` reads is a parameter here.
-/

namespace MiniMs.Daemon

open MiniMs.Dpumesh MiniMs.Library.Text MiniMs.Library.Json MiniMs.Library.Number

/-! ### The header -/

/-- `header_info`: `{}` where there is no header, or it does not parse. `none`
is a header that is no dictionary; `.get` raises then. -/
def headerInfo (float : PyStr → Numeral) (desc : SwDescriptor) (txHeader : BufferPool) :
    Option (List (PyStr × Value)) :=
  if 0 ≤ desc.headerBufSlot ∧ 0 < desc.headerLen then
    match deserializeHeader float (txHeader.read desc.headerBufSlot desc.headerLen) with
    | none => some []
    | some (.object members) => some members
    | some _ => none
  else some []

/-! ### `_deliver_bridge_response` -/

/-- `bytes.decode('utf-8', errors='ignore')`: a byte at which no character
starts is dropped. -/
def decodeIgnoreFrom : Nat → Bytes → PyStr
  | 0, _ => []
  | _ + 1, [] => []
  | fuel + 1, byte :: rest =>
      match (byte :: rest).toByteArray.utf8DecodeChar? 0 with
      | some character =>
          ofChar character :: decodeIgnoreFrom fuel ((byte :: rest).drop character.utf8Size)
      | none => decodeIgnoreFrom fuel rest

def decodeIgnore (bytes : Bytes) : PyStr := decodeIgnoreFrom bytes.length bytes

/-- The number 200. -/
def ok : Value := .number ⟨ascii "200", forall_mem_of_all (by decide)⟩

/-- `body_text`. The pool is that of the worker that answers. -/
def bodyText (txBody : BufferPool) (desc : SwDescriptor) : PyStr :=
  if 0 ≤ desc.srcBodyBufSlot ∧ 0 < desc.bodyLen then
    decodeIgnore (txBody.read desc.srcBodyBufSlot desc.bodyLen)
  else []

/-- The entry of `_bridge_responses`. -/
def bridgeResponse (info : List (PyStr × Value)) (reqId : Value) (body : PyStr) :
    List (PyStr × Value) :=
  [(lit "req_id", reqId), (lit "status", get info (lit "status_code") ok),
    (lit "headers", get info (lit "headers") (.object [])), (lit "body", .string body)]

/-- `_deliver_bridge_response`: the entry that is stored, if its request is
still waited for. -/
def deliverBridgeResponse (waiting : List PyStr) (info : List (PyStr × Value)) (body : PyStr) :
    Option (List (PyStr × Value)) :=
  match get info (lit "req_id_str") (.string []) with
  | .string reqId =>
      if reqId ∈ waiting then some (bridgeResponse info (.string reqId) body) else none
  | _ => none

/-! ### `_route_response` -/

/-- Where a response goes. -/
inductive ResponseRoute where
  /-- To the bridge. -/
  | bridge
  /-- Nowhere: its buffers are freed. -/
  | dropped
  /-- To `sidecar_rx_sq.put`. -/
  | put (desc : SwDescriptor)
deriving DecidableEq

/-- `_route_response`, up to the put. -/
def routeResponse (getPodId : Value → Int) (desc : SwDescriptor) (info : List (PyStr × Value)) :
    ResponseRoute :=
  let destWorker := get info (lit "dest_worker") (.string [])
  if !destWorker.truthy then .bridge
  else
    let dstPodId := getPodId destWorker
    if dstPodId < 0 then .dropped
    else
      .put { desc with
        dstPodId := dstPodId
        flags := opResponse ||| caseLocal
        valid := 1 }

/-- The bytes that `_send_bridge_response` sends for a response descriptor, when
it goes to the bridge and its request is waited for. -/
def bridgeReply (float : PyStr → Numeral) (getPodId : Value → Int) (waiting : List PyStr)
    (txHeader txBody : BufferPool) (desc : SwDescriptor) : Option Bytes :=
  if desc.isResponse then
    match headerInfo float desc txHeader with
    | none => none
    | some info =>
        match routeResponse getPodId desc info with
        | .bridge =>
            (deliverBridgeResponse waiting info (bodyText txBody desc)).map fun response =>
              dumps (.object response)
        | .dropped => none
        | .put _ => none
  else none

/-! ### Decoding -/

theorem decodeIgnoreFrom_encode {text : PyStr} {bytes : Bytes}
    (encoded : encode text = some bytes) {fuel : Nat} (enough : bytes.length ≤ fuel) :
    decodeIgnoreFrom fuel bytes = text := by
  induction text generalizing bytes fuel with
  | nil =>
      obtain rfl : [] = bytes := Option.some.inj encoded
      cases fuel with
      | zero => rfl
      | succ fuel => rfl
  | cons point text inductionHypothesis =>
      obtain ⟨character, rest, scalar, encodedRest, shape⟩ := encode_cons encoded
      have size : (String.utf8EncodeChar character).length = character.utf8Size :=
        String.length_utf8EncodeChar character
      have positive := character.utf8Size_pos
      obtain ⟨first, later, bytes_eq⟩ : ∃ first later, bytes = first :: later := by
        apply List.exists_cons_of_ne_nil
        intro empty
        rw [empty] at shape
        have length := congrArg List.length shape
        rw [List.length_append, List.length_nil] at length
        omega
      have decoded : bytes.toByteArray.utf8DecodeChar? 0 = some character := by
        rw [shape, List.toByteArray_append]
        exact ByteArray.utf8DecodeChar?_utf8EncodeChar_append
      have behind : bytes.drop character.utf8Size = rest := by
        rw [shape, ← size, List.drop_left' rfl]
      have fits : rest.length + character.utf8Size ≤ fuel := by
        rw [shape, List.length_append, size] at enough
        omega
      obtain ⟨more, rfl⟩ : ∃ more, fuel = more + 1 := ⟨fuel - 1, by omega⟩
      have next : decodeIgnoreFrom more rest = text := inductionHypothesis encodedRest (by omega)
      rw [bytes_eq] at decoded behind ⊢
      rw [decodeIgnoreFrom, decoded]
      dsimp only
      rw [behind, next, ofChar_of_toChar? scalar]

theorem decodeIgnore_of_encode {text : PyStr} {bytes : Bytes}
    (encoded : encode text = some bytes) : decodeIgnore bytes = text :=
  decodeIgnoreFrom_encode encoded (Nat.le_refl _)

/-! ### What the router finds -/

theorem decimalInt_natCast (value : Nat) : decimalInt value = decimal value := by
  unfold decimalInt
  rw [if_neg (by omega), Int.natAbs_natCast]

theorem encode_integerRaw (value : Nat) : encode (integerRaw value) = some (decimal value) := by
  apply encode_ofAscii
  intro byte member
  have digit := forall_isDigit_bytesOf value byte member
  have range := isDigit_range digit
  apply UInt8.lt_iff_toNat_lt.mpr
  show byte.toNat < 128
  omega

section Router

variable {float : PyStr → Numeral}

/-- A field with an integer. -/
def WireMember.integer (key : String) (clean_key : Clean (lit key)) (value : Nat)
    (small : value < 2 ^ 31) : WireMember float where
  key := lit key
  raw := integerRaw value
  value := .number (integerNumeral (integerRaw value))
  clean := clean_key
  scans := by
    apply scans_integer
    apply integerText_integerRaw
    have digits : (Nat.toDigits 10 value).length ≤ 10 :=
      (Nat.length_toDigits_le_iff (by decide) (by decide)).mpr (by omega)
    omega
  field := ⟨ascii key, decimal value⟩
  key_encoded := encode_lit key
  raw_encoded := encode_integerRaw value

end Router

/-- The router finds in a dictionary what a response's header was made of. -/
structure ResponseInfo (status : Int) (reqIdStr destWorker : Bytes) (info : List (PyStr × Value)) :
    Prop where
  reqIdStr_held : Holds info (lit "req_id_str") reqIdStr
  destWorker_held : Holds info (lit "dest_worker") destWorker
  status_held : ∃ numeral, get info (lit "status_code") ok = .number numeral ∧
    numeral.text = decimalInt status
  headers_held : get info (lit "headers") (.object []) = .object []

/-- A key that is there does not need the default. -/
theorem get_of_holds {members : List (PyStr × Value)} {key text : PyStr}
    (held : get members key .null = .string text) (default : Value) :
    get members key default = .string text := by
  unfold Library.Json.get at held ⊢
  cases found : (members.find? fun member => member.1 = key).map Prod.snd with
  | none =>
      rw [found] at held
      contradiction
  | some value =>
      rw [found] at held
      exact held

/-- A response's header with clean names gives the router what it needs. -/
theorem responseInfo_of_clean (float : PyStr → Numeral) {status : Int} (positive : 0 < status)
    (small : status < 2 ^ 31) {reqIdStr workerId destWorker : Bytes} (reqIdStr_clean : CleanBytes reqIdStr)
    (workerId_clean : CleanBytes workerId) (destWorker_clean : CleanBytes destWorker) :
    ∃ info, deserializeHeader float
        (headerText [] [] [] [] status reqIdStr workerId destWorker) = some (.object info) ∧
      ResponseInfo status reqIdStr destWorker info := by
  obtain ⟨reqId, reqId_encoded, reqId_clean⟩ := reqIdStr_clean
  obtain ⟨worker, worker_encoded, worker_clean⟩ := workerId_clean
  obtain ⟨dest, dest_encoded, dest_clean⟩ := destWorker_clean
  obtain ⟨number, rfl⟩ : ∃ number : Nat, status = number := ⟨status.toNat, by omega⟩
  have empty : Clean [] := List.forall_mem_nil _
  let first : WireMember float := .string "method" (forall_mem_of_all (by decide)) rfl empty
  let members : List (WireMember float) :=
    [.string "url" (forall_mem_of_all (by decide)) rfl empty,
      .string "path" (forall_mem_of_all (by decide)) rfl empty, .noHeaders,
      .string "query_string" (forall_mem_of_all (by decide)) rfl empty,
      .string "remote_addr" (forall_mem_of_all (by decide)) rfl empty,
      .integer "status_code" (forall_mem_of_all (by decide)) number (by omega),
      .string "req_id_str" (forall_mem_of_all (by decide)) reqId_encoded reqId_clean,
      .string "source_worker" (forall_mem_of_all (by decide)) worker_encoded worker_clean,
      .string "dest_worker" (forall_mem_of_all (by decide)) dest_encoded dest_clean]
  have read := deserializeHeader_rowText first members
  refine ⟨setItems [] (first.toMember :: members.map WireMember.toMember), ?_,
    ⟨reqId, rfl, reqId_encoded⟩, ⟨dest, rfl, dest_encoded⟩,
    ⟨integerNumeral (integerRaw number), rfl, ?_⟩, rfl⟩
  · rw [headerText_eq]
    unfold fieldsBehindMethod
    rw [decimalInt_natCast]
    exact read
  · rw [decimalInt_natCast, integerNumeral_integerRaw]
    rfl

end MiniMs.Daemon
