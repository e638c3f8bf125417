import MiniMs.Daemon.Bridge
import MiniMs.Daemon.Descriptors
import MiniMs.Dpumesh.FieldText
import MiniMs.Dpumesh.Write
import MiniMs.Library.JsonLoads

/-!
The header of a request from one worker to another: written by `dpumesh_write`,
read by `_route_request` on the way and by `dpumesh_read` at the end.

Owns: urls by their parts, `deserialize_header`, what a header text must give
at both readers, the condition on a request under which it does, and the
theorem that the condition is enough.

The way of the bytes from slot to slot is not owned here.
-/

namespace MiniMs.Daemon

open MiniMs.Dpumesh MiniMs.Library.Text MiniMs.Library.Json

/-! ### Urls -/

/-- A url `scheme://host/path?query`, the query optional. -/
structure Url where
  scheme : Bytes
  host : Bytes
  path : Bytes
  query : Option Bytes
  scheme_plain : 58 ∉ scheme ∧ 47 ∉ scheme
  host_plain : 47 ∉ host
  path_slash : path.head? = some 47
  path_plain : 63 ∉ path

namespace Url

variable (url : Url)

def text : Bytes :=
  url.scheme ++ ascii "://" ++ url.host ++ url.path ++ (url.query.map (63 :: ·)).getD []

/-- The query, empty where there is none. -/
def queryString : Bytes := url.query.getD []

end Url

/-- The first label of a host, without its port. -/
def firstLabel (host : PyStr) : PyStr := (host.takeWhile (· ≠ 58)).takeWhile (· ≠ 46)

/-! ### What both readers must find -/

/-- `deserialize_header`; `none` is an exception. -/
def deserializeHeader (float : PyStr → Numeral) (data : Bytes) : Option Value :=
  (decode data).bind (loads float)

/-- A dictionary holds a string under a key. -/
def Holds (members : List (PyStr × Value)) (key : PyStr) (bytes : Bytes) : Prop :=
  ∃ text, get members key .null = .string text ∧ encode text = some bytes

/-- The router finds the request in its header, and selects a worker of the
service that the host names. -/
structure Routed (float : PyStr → Numeral) (workerId method : Bytes) (url : Url) (reqId : Nat)
    (data : Bytes) (members : List (PyStr × Value)) : Prop where
  decoded : deserializeHeader float data = some (.object members)
  method_held : Holds members (lit "method") method
  url_held : Holds members (lit "url") url.text
  path_held : Holds members (lit "path") url.path
  queryString_held : Holds members (lit "query_string") url.queryString
  reqIdStr_held : Holds members (lit "req_id_str") (creqId reqId)
  sourceWorker_held : Holds members (lit "source_worker") workerId
  service : ∃ host, encode host = some url.host ∧
    getServiceName (get members (lit "url") (.string [])) = firstLabel host

/-- The peer finds the request in its header, as far as its buffers go. -/
structure Received (workerId method : Bytes) (url : Url) (reqId : Nat) (req : Request) : Prop where
  method : req.method = some (method.take 15)
  path : req.path = some (url.path.take 255)
  queryString : req.queryString = some (url.queryString.take 511)
  reqIdStr : req.reqIdStr = (creqId reqId).take 63
  sourceWorker : req.sourceWorker = workerId.take 127

/-- A header text carries a request to both readers. -/
structure Carries (workerId method : Bytes) (url : Url) (reqId : Nat) (data : Bytes) : Prop where
  routed : ∀ float, ∃ members, Routed float workerId method url reqId data members
  received : ∀ (desc : SwDescriptor) (headerSlot bodySlot : Fin numSlots)
    (rxHeader rxBody : BufferPool) (junk : Bytes) (buffers : StaticBuffers),
    desc.flags = opRequest ||| caseLocal → desc.headerLen = data.length →
    let rx : RxPools := ⟨rxHeader.copyIn (BufferPool.offset headerSlot.val) data, rxBody⟩
    Received workerId method url reqId
      (readRequest rx junk (case3RxDesc desc headerSlot.val bodySlot.val) buffers).2

/-- `dpumesh_write(REQUEST)` returns -1, or the header slot of the descriptor it
puts holds a text that carries the request. -/
def Transports (worker : Worker) (method : Bytes) (url : Url) : Prop :=
  ∀ (pools : TxPools) (ring : List SwDescriptor) (stack : Nat → UInt8) (body : Option Bytes),
    let out := (writeRequest worker method url.text).2
    let written := writeCommon pools ring worker.podId out stack body
    written.2 = none ∨ ∃ desc, written.2 = some (ring ++ [desc]) ∧
      Carries worker.workerId method url worker.nextReqId
        (written.1.txHeader.read desc.headerBufSlot desc.headerLen)

/-! ### The condition -/

/-- A request that its header carries. -/
structure Carried (worker : Worker) (method : Bytes) (url : Url) : Prop where
  workerId_clean : CleanBytes worker.workerId
  method_clean : CleanBytes method
  scheme_clean : CleanBytes url.scheme
  host_clean : CleanBytes url.host
  path_clean : CleanBytes url.path
  query_clean : CleanBytes url.queryString
  path_fits : url.query ≠ none → url.path.length < 256
  query_fits : url.queryString.length < 512
  fits : (writeRequest worker method url.text).2.header.length < headerBufSize

/-! ### Clean texts -/

theorem encode_ofAscii {bytes : Bytes} (low : ∀ byte ∈ bytes, byte < 128) :
    encode (ofAscii bytes) = some bytes := encode_map_ofByte low

theorem cleanBytes_creqId (reqId : Nat) : CleanBytes (creqId reqId) := by
  apply cleanBytes_of_ascii
  intro byte member
  have digits : ∀ byte ∈ decimal reqId, 32 ≤ byte ∧ byte < 128 ∧ byte ≠ 34 ∧ byte ≠ 92 := by
    intro byte member
    obtain ⟨digit, inside, same⟩ := List.mem_map.mp member
    have isDigit := Nat.isDigit_of_mem_toDigits (by decide) (by decide) inside
    have range : 48 ≤ digit.toNat ∧ digit.toNat ≤ 57 := by
      simpa [Char.isDigit, UInt32.le_iff_toNat_le] using isDigit
    have value : byte.toNat = digit.toNat := by
      rw [← same, UInt8.toNat_ofNat']
      omega
    have ne : ∀ other : UInt8, other.toNat < 48 ∨ 57 < other.toNat → byte ≠ other := by
      intro other outside equal
      rw [equal] at value
      omega
    refine ⟨UInt8.le_iff_toNat_le.mpr ?_, UInt8.lt_iff_toNat_lt.mpr ?_, ne 34 (by decide),
      ne 92 (by decide)⟩
    · show 32 ≤ byte.toNat
      omega
    · show byte.toNat < 128
      omega
  have opening : ∀ byte ∈ ascii "creq-", 32 ≤ byte ∧ byte < 128 ∧ byte ≠ 34 ∧ byte ≠ 92 :=
    forall_mem_of_all (by decide)
  exact List.forall_mem_append.mpr ⟨opening, digits⟩ byte (List.mem_of_mem_take member)

/-! ### The parts of a url -/

namespace Url

variable (url : Url)

/-- The text from the path on. -/
def fromPath : Bytes := url.path ++ (url.query.map (63 :: ·)).getD []

theorem text_eq : url.text = url.scheme ++ (ascii "://" ++ (url.host ++ url.fromPath)) := by
  simp [text, fromPath]

theorem fromPath_cons : ∃ rest, url.fromPath = 47 :: rest := by
  have slash := url.path_slash
  cases shape : url.path with
  | nil => simp [shape] at slash
  | cons head rest =>
      rw [shape, List.head?_cons, Option.some.injEq] at slash
      refine ⟨rest ++ (url.query.map (63 :: ·)).getD [], ?_⟩
      unfold fromPath
      rw [shape, slash, List.cons_append]

theorem strstr_scheme : strstr url.text (ascii "://") =
    some (ascii "://" ++ (url.host ++ url.fromPath)) := by
  rw [text_eq]
  exact strstr_first (not_startsIn_of_head _ url.scheme_plain.1)

theorem strchr_path : strchr (url.host ++ url.fromPath) 47 = some url.fromPath := by
  obtain ⟨rest, shape⟩ := url.fromPath_cons
  have skip : (url.host ++ url.fromPath).dropWhile (· ≠ 47) = url.fromPath := by
    rw [List.dropWhile_append_of_pos, shape, List.dropWhile_cons_of_neg (by decide)]
    intro byte member
    simpa using ne_of_mem_of_not_mem member url.host_plain
  unfold strchr
  rw [skip, shape]

theorem strchr_query : strchr url.fromPath 63 = url.query.map (63 :: ·) := by
  have skip : ∀ byte ∈ url.path, (byte ≠ 63 : Bool) := by
    intro byte member
    simpa using ne_of_mem_of_not_mem member url.path_plain
  unfold strchr fromPath
  rw [List.dropWhile_append_of_pos skip]
  cases url.query with
  | none => rfl
  | some query => rfl

/-- `dpumesh_write` cuts a url where its parts meet. -/
theorem splitUrl_text (path_fits : url.query ≠ none → url.path.length < 256)
    (query_fits : url.queryString.length < 512) :
    splitUrl url.text = (url.path, url.queryString) := by
  have behind : (ascii "://" ++ (url.host ++ url.fromPath)).drop 3 = url.host ++ url.fromPath := rfl
  unfold splitUrl
  rw [strstr_scheme]
  dsimp only
  rw [behind, strchr_path, Option.getD_some, strchr_query]
  cases found : url.query with
  | none =>
      simp [fromPath, queryString, found]
  | some query =>
      have short : url.path.length ≤ 255 := by
        have fits := path_fits (by rw [found]; exact Option.some_ne_none _)
        omega
      have query_eq : url.queryString = query := by
        unfold queryString
        rw [found, Option.getD_some]
      rw [query_eq] at query_fits ⊢
      have front : url.fromPath.take (url.fromPath.length - (63 :: query).length) = url.path := by
        unfold fromPath
        rw [found]
        simp
      show ((url.fromPath.take _).take 255, snprintf 512 query) = _
      rw [front, List.take_of_length_le short, snprintf_eq_self query_fits]

end Url

/-! ### The router -/

section Router

variable {float : PyStr → Numeral}

variable (float) in
/-- A member of an object text together with its bytes. -/
structure WireMember extends Member float where
  field : Field
  key_encoded : encode key = some field.key
  raw_encoded : encode raw = some field.raw

theorem WireMember.encode_text (member : WireMember float) :
    encode member.toMember.text = some member.field.text := by
  have raw := encode_cons_ascii 32 32 rfl (by decide) member.raw_encoded
  have colon := encode_cons_ascii 58 58 rfl (by decide) raw
  have closing := encode_cons_ascii 34 34 rfl (by decide) colon
  exact encode_cons_ascii 34 34 rfl (by decide)
    (encode_append member.key_encoded closing)

theorem encode_membersText (member : WireMember float) (members : List (WireMember float)) :
    encode (membersText member.toMember (members.map WireMember.toMember)) =
      some (member.field.text ++ tailText (members.map WireMember.field)) := by
  induction members generalizing member with
  | nil => exact encode_append member.encode_text rfl
  | cons next members inductionHypothesis =>
      have blank := encode_cons_ascii 32 32 rfl (by decide)
        (inductionHypothesis next)
      have comma := encode_cons_ascii 44 44 rfl (by decide) blank
      have whole := encode_append member.encode_text comma
      simpa [membersText, tailText] using whole

/-- The router reads a row of fields as the object of their values. -/
theorem deserializeHeader_rowText (member : WireMember float) (members : List (WireMember float)) :
    deserializeHeader float (rowText [] member.field (members.map WireMember.field)) =
      some (.object (setItems [] (member.toMember :: members.map WireMember.toMember))) := by
  have encoded : encode (objectText member.toMember (members.map WireMember.toMember)) =
      some (rowText [] member.field (members.map WireMember.field)) :=
    encode_cons_ascii 123 123 rfl (by decide) (encode_membersText member members)
  unfold deserializeHeader
  rw [decode_of_encode encoded, Option.bind_some]
  exact loads_objectText _ _

/-- A field with a clean string. -/
def WireMember.string (key : String) (clean_key : Clean (lit key)) {text : PyStr} {bytes : Bytes}
    (encoded : encode text = some bytes) (clean : Clean text) : WireMember float where
  key := lit key
  raw := quotedRaw text
  value := .string text
  clean := clean_key
  scans := scans_quotedRaw float clean
  field := ⟨ascii key, inQuotes bytes⟩
  key_encoded := encode_lit key
  raw_encoded := encode_cons_ascii 34 34 rfl (by decide)
    (encode_append encoded rfl)

def WireMember.noHeaders : WireMember float where
  key := lit "headers"
  raw := lit "\x7b\x7d"
  value := .object []
  clean := forall_mem_of_all (by decide)
  scans := scans_emptyObject float
  field := ⟨ascii "headers", ascii "\x7b\x7d"⟩
  key_encoded := encode_lit "headers"
  raw_encoded := encode_lit "\x7b\x7d"

def WireMember.noStatus : WireMember float where
  key := lit "status_code"
  raw := lit "0"
  value := .number (integerNumeral (lit "0"))
  clean := forall_mem_of_all (by decide)
  scans := scans_zero float
  field := ⟨ascii "status_code", ascii "0"⟩
  key_encoded := encode_lit "status_code"
  raw_encoded := encode_lit "0"

/-- The fields behind the method, as the router reads them. -/
def membersBehindMethod {url path query creq worker : PyStr}
    {urlBytes pathBytes queryBytes creqBytes workerBytes : Bytes}
    (url_encoded : encode url = some urlBytes) (path_encoded : encode path = some pathBytes)
    (query_encoded : encode query = some queryBytes) (creq_encoded : encode creq = some creqBytes)
    (worker_encoded : encode worker = some workerBytes) (url_clean : Clean url)
    (path_clean : Clean path) (query_clean : Clean query) (creq_clean : Clean creq)
    (worker_clean : Clean worker) : List (WireMember float) :=
  [.string "url" (forall_mem_of_all (by decide)) url_encoded url_clean,
    .string "path" (forall_mem_of_all (by decide)) path_encoded path_clean, .noHeaders,
    .string "query_string" (forall_mem_of_all (by decide)) query_encoded query_clean,
    .string "remote_addr" (forall_mem_of_all (by decide)) encode_nil (List.forall_mem_nil _), .noStatus,
    .string "req_id_str" (forall_mem_of_all (by decide)) creq_encoded creq_clean,
    .string "source_worker" (forall_mem_of_all (by decide)) worker_encoded worker_clean,
    .string "dest_worker" (forall_mem_of_all (by decide)) encode_nil (List.forall_mem_nil _)]

end Router

/-! ### The service -/

theorem headD_splitOn (text : PyStr) (point : CodePoint) :
    (text.splitOn point).headD [] = text.takeWhile (· ≠ point) := by
  induction text with
  | nil => rfl
  | cons head text inductionHypothesis =>
      rw [List.splitOn_cons_eq_if_modifyHead]
      by_cases same : head = point
      · simp [same]
      · have other : (head == point) = false := by simpa using same
        obtain ⟨first, rest, split⟩ := List.exists_cons_of_ne_nil (List.splitOn_ne_nil point text)
        rw [split] at inductionHypothesis ⊢
        rw [other, if_neg (by decide), List.takeWhile_cons_of_pos (by simpa using same),
          ← inductionHypothesis]
        rfl

/-- A character of a text that is ASCII is one of its bytes. -/
theorem mem_of_encode {text : PyStr} {bytes : Bytes} (encoded : encode text = some bytes)
    {point : CodePoint} {byte : UInt8} (same : point.val = byte.toNat) (low : byte.toNat < 128)
    (member : point ∈ text) : byte ∈ bytes := by
  induction text generalizing bytes with
  | nil => exact absurd member List.not_mem_nil
  | cons head text inductionHypothesis =>
      obtain ⟨character, rest, scalar, encodedRest, shape⟩ := encode_cons encoded
      rw [shape, List.mem_append]
      rcases List.mem_cons.mp member with here | later
      · left
        rw [utf8EncodeChar_ascii scalar (by rw [← here]; omega), ← here, same, UInt8.ofNat_toNat]
        exact List.mem_singleton_self _
      · exact Or.inr (inductionHypothesis encodedRest later)

/-- A text whose bytes start with an ASCII byte starts with its character. -/
theorem cons_of_encode {text : PyStr} {byte : UInt8} {bytes : Bytes}
    (encoded : encode text = some (byte :: bytes)) (low : byte.toNat < 128) :
    ∃ point rest, text = point :: rest ∧ point.val = byte.toNat := by
  cases text with
  | nil => cases encoded
  | cons point rest =>
      obtain ⟨character, behind, scalar, -, shape⟩ := encode_cons encoded
      refine ⟨point, rest, rfl, ?_⟩
      rcases utf8EncodeChar_cases scalar with ⟨ascii, one⟩ | ⟨-, first, more, many, high⟩
      · rw [one, List.singleton_append] at shape
        rw [(List.cons.inj shape).1, UInt8.toNat_ofNat']
        omega
      · rw [many, List.cons_append] at shape
        have above := UInt8.le_iff_toNat_le.mp (high first List.mem_cons_self)
        rw [← (List.cons.inj shape).1] at above
        change 128 ≤ byte.toNat at above
        omega

/-- The service of a url is the first label of its host. -/
theorem getServiceName_url {scheme host rest : PyStr} (scheme_plain : 47 ∉ scheme)
    (host_plain : 47 ∉ host) :
    getServiceName (.string (scheme ++ (lit "://" ++ (host ++ 47 :: rest)))) = firstLabel host := by
  have shape : scheme ++ (lit "://" ++ (host ++ 47 :: rest)) =
      (scheme ++ [58]) ++ 47 :: ([] ++ 47 :: (host ++ 47 :: rest)) := by
    have slashes : lit "://" = [58, 47, 47] := rfl
    rw [slashes]
    simp
  have front : 47 ∉ scheme ++ [58] := by
    rw [List.mem_append, not_or]
    exact ⟨scheme_plain, by decide⟩
  have split : (scheme ++ (lit "://" ++ (host ++ 47 :: rest))).splitOn 47 =
      (scheme ++ [58]) :: [] :: host :: rest.splitOn 47 := by
    rw [shape, List.splitOn_append_cons_self_of_not_mem front,
      List.splitOn_append_cons_self_of_not_mem List.not_mem_nil,
      List.splitOn_append_cons_self_of_not_mem host_plain]
  unfold getServiceName
  dsimp only
  rw [split]
  dsimp only
  rw [headD_splitOn, headD_splitOn]
  rfl

/-! ### The peer -/

/-- What a peer reads of a header that was copied to its slot. -/
theorem readRequest_copied {header : Bytes} (fits : header.length < headerBufSize)
    (nonempty : 0 < header.length) (noNul : 0 ∉ header) {desc : SwDescriptor}
    (flags : desc.flags = opRequest ||| caseLocal) (length : desc.headerLen = header.length)
    (headerSlot bodySlot : Fin numSlots) (rxHeader rxBody : BufferPool) (junk : Bytes)
    (buffers : StaticBuffers) :
    ∃ body, (readRequest ⟨rxHeader.copyIn (BufferPool.offset headerSlot.val) header, rxBody⟩ junk
        (case3RxDesc desc headerSlot.val bodySlot.val) buffers).2 =
      { (readHeaderKeys header buffers
          (blankRequest (case3RxDesc desc headerSlot.val bodySlot.val))).2 with body := body } := by
  have below : (headerSlot.val : Int) < numSlots := Int.ofNat_lt.mpr headerSlot.isLt
  have located : (case3RxDesc desc headerSlot.val bodySlot.val).headerLen = header.length := length
  have copied := localHeaderText_copyIn rxHeader rxBody ⟨Int.natCast_nonneg _, below⟩ located fits
  have text := copied.trans (cstr_eq_self noNul)
  have case : (case3RxDesc desc headerSlot.val bodySlot.val).caseFlag ≠ caseIngress := by
    show desc.flags &&& 0x0F ≠ caseIngress
    rw [flags]
    decide
  have present : 0 < (case3RxDesc desc headerSlot.val bodySlot.val).headerLen := by
    rw [located]
    exact nonempty
  obtain ⟨body, shape⟩ := readRequest_local _ case ⟨Int.natCast_nonneg _, present⟩ junk buffers
  refine ⟨body, shape.trans ?_⟩
  exact congrArg (fun json => { (readHeaderKeys json buffers (blankRequest
    (case3RxDesc desc headerSlot.val bodySlot.val))).2 with body := body }) text

/-! ### A request that its header carries -/

section Carried

variable {worker : Worker} {method : Bytes} {url : Url} (carried : Carried worker method url)

include carried

theorem Carried.header_eq :
    (writeRequest worker method url.text).2.header =
      rowText [] ⟨ascii "method", inQuotes method⟩ (fieldsBehindMethod url.text url.path
        url.queryString 0 (creqId worker.nextReqId) worker.workerId []) := by
  unfold writeRequest
  rw [url.splitUrl_text carried.path_fits carried.query_fits]
  exact headerText_eq _ _ _ _ _ _ _ _

/-- The text of the query with its question mark. -/
theorem Carried.query_part :
    ∃ text, encode text = some ((url.query.map (63 :: ·)).getD []) ∧ Clean text := by
  obtain ⟨query, query_encoded, query_clean⟩ := carried.query_clean
  unfold Url.queryString at query_encoded
  cases found : url.query with
  | none => exact ⟨[], rfl, List.forall_mem_nil _⟩
  | some bytes =>
      rw [found, Option.getD_some] at query_encoded
      refine ⟨63 :: query, encode_cons_ascii 63 63 rfl (by decide) query_encoded, ?_⟩
      exact List.forall_mem_cons.mpr ⟨by decide, query_clean⟩

/-- A url is as clean as its parts, and leads to the service of its host. -/
theorem Carried.url_clean :
    ∃ text host, encode text = some url.text ∧ Clean text ∧ encode host = some url.host ∧
      getServiceName (.string text) = firstLabel host := by
  obtain ⟨scheme, scheme_encoded, scheme_clean⟩ := carried.scheme_clean
  obtain ⟨host, host_encoded, host_clean⟩ := carried.host_clean
  obtain ⟨path, path_encoded, path_clean⟩ := carried.path_clean
  obtain ⟨query, query_encoded, query_clean⟩ := carried.query_part
  obtain ⟨bytes, slash⟩ : ∃ bytes, url.path = 47 :: bytes := by
    have starts := url.path_slash
    cases shape : url.path with
    | nil => simp [shape] at starts
    | cons head bytes =>
        rw [shape, List.head?_cons, Option.some.injEq] at starts
        exact ⟨bytes, by rw [starts]⟩
  obtain ⟨point, rest, path_shape, isSlash⟩ := cons_of_encode (by rw [path_encoded, slash])
    (by decide : (47 : UInt8).toNat < 128)
  have point_eq : point = 47 := Fin.ext isSlash
  have scheme_plain : 47 ∉ scheme := fun member =>
    url.scheme_plain.2 (mem_of_encode scheme_encoded rfl (by decide) member)
  have host_plain : 47 ∉ host := fun member =>
    url.host_plain (mem_of_encode host_encoded rfl (by decide) member)
  refine ⟨scheme ++ (lit "://" ++ (host ++ (path ++ query))), host, ?_, ?_, host_encoded, ?_⟩
  · rw [url.text_eq]
    exact encode_append scheme_encoded (encode_append (encode_lit "://")
      (encode_append host_encoded (encode_append path_encoded query_encoded)))
  · have separator : Clean (lit "://") := forall_mem_of_all (by decide)
    unfold Clean at *
    simp only [List.forall_mem_append]
    exact ⟨scheme_clean, separator, host_clean, path_clean, query_clean⟩
  · rw [path_shape, point_eq, List.cons_append]
    exact getServiceName_url scheme_plain host_plain

/-- The router finds a carried request in its header. -/
theorem Carried.routed (float : PyStr → Numeral) :
    ∃ members, Routed float worker.workerId method url worker.nextReqId
      (writeRequest worker method url.text).2.header members := by
  obtain ⟨methodText, method_encoded, method_clean⟩ := carried.method_clean
  obtain ⟨urlText, host, url_encoded, url_clean, host_encoded, service⟩ := carried.url_clean
  obtain ⟨path, path_encoded, path_clean⟩ := carried.path_clean
  obtain ⟨query, query_encoded, query_clean⟩ := carried.query_clean
  obtain ⟨creq, creq_encoded, creq_clean⟩ := cleanBytes_creqId worker.nextReqId
  obtain ⟨workerId, worker_encoded, worker_clean⟩ := carried.workerId_clean
  let first : WireMember float :=
    .string "method" (forall_mem_of_all (by decide)) method_encoded method_clean
  let members : List (WireMember float) :=
    membersBehindMethod url_encoded path_encoded query_encoded creq_encoded worker_encoded url_clean
      path_clean query_clean creq_clean worker_clean
  have status : decimalInt 0 = ascii "0" := by decide
  refine ⟨setItems [] (first.toMember :: members.map WireMember.toMember), ?_, ⟨methodText, rfl, method_encoded⟩,
    ⟨urlText, rfl, url_encoded⟩, ⟨path, rfl, path_encoded⟩, ⟨query, rfl, query_encoded⟩,
    ⟨creq, rfl, creq_encoded⟩, ⟨workerId, rfl, worker_encoded⟩, ⟨host, host_encoded, service⟩⟩
  rw [carried.header_eq]
  unfold fieldsBehindMethod
  rw [status]
  exact deserializeHeader_rowText first members

/-- The fields of a carried request hide no key and hold no NUL. -/
theorem Carried.plain :
    ∀ field ∈ ⟨ascii "method", inQuotes method⟩ :: fieldsBehindMethod url.text url.path
      url.queryString 0 (creqId worker.nextReqId) worker.workerId [],
      field.Plain ∧ 0 ∉ field.key ∧ 0 ∉ field.raw := by
  have quotes : ∀ (key : Bytes) {value : Bytes}, CleanBytes value → 34 ∉ key → 0 ∉ key →
      Field.Plain ⟨key, inQuotes value⟩ ∧ 0 ∉ key ∧ 0 ∉ inQuotes value := by
    intro key value clean noQuote noNul
    have value_noQuote : 34 ∉ value := clean.notMem (Or.inr (Or.inl rfl))
    have value_noNul : 0 ∉ value := clean.notMem (Or.inl (by decide))
    exact ⟨⟨noQuote, Or.inr ⟨value, rfl, value_noQuote⟩⟩, noNul, by simpa [inQuotes] using value_noNul⟩
  have bare : ∀ (key raw : Bytes), 34 ∉ key → 0 ∉ key → 34 ∉ raw → 0 ∉ raw →
      Field.Plain ⟨key, raw⟩ ∧ 0 ∉ key ∧ 0 ∉ raw :=
    fun key raw noQuote noNul plain clean => ⟨⟨noQuote, Or.inl plain⟩, noNul, clean⟩
  have url_clean : CleanBytes url.text := by
    obtain ⟨text, _, encoded, clean, _⟩ := carried.url_clean
    exact ⟨text, encoded, clean⟩
  have nothing : CleanBytes [] := ⟨[], rfl, List.forall_mem_nil _⟩
  unfold fieldsBehindMethod
  simp only [List.forall_mem_cons]
  exact ⟨quotes _ carried.method_clean (by decide) (by decide),
    quotes _ url_clean (by decide) (by decide),
    quotes _ carried.path_clean (by decide) (by decide),
    bare _ _ (by decide) (by decide) (by decide) (by decide),
    quotes _ carried.query_clean (by decide) (by decide),
    quotes _ nothing (by decide) (by decide),
    bare _ _ (by decide) (by decide) (by decide) (by decide),
    quotes _ (cleanBytes_creqId _) (by decide) (by decide),
    quotes _ carried.workerId_clean (by decide) (by decide),
    quotes _ nothing (by decide) (by decide), List.forall_mem_nil _⟩

/-- What the peer's scanner reads for a field of the header. -/
theorem Carried.jsonGetStr_eq (front : List Field) {back : List Field} {key value : Bytes}
    (split : (⟨ascii "method", inQuotes method⟩ : Field) :: fieldsBehindMethod url.text url.path
      url.queryString 0 (creqId worker.nextReqId) worker.workerId [] =
        front ++ ⟨key, inQuotes value⟩ :: back)
    (searched : Searched key) (clean : CleanBytes value)
    (other : front.all (fun field => decide (key ≠ field.key)) = true) (outsz : Nat) :
    jsonGetStr (writeRequest worker method url.text).2.header key outsz =
      some (value.take (outsz - 1)) := by
  have plain : ∀ field ∈ front, field.Plain := by
    intro field member
    apply (carried.plain field _).1
    rw [split]
    exact List.mem_append_left _ member
  have row : (writeRequest worker method url.text).2.header =
      rowText front ⟨key, inQuotes value⟩ back := by
    rw [carried.header_eq]
    cases front with
    | nil =>
        obtain ⟨first, later⟩ := List.cons.inj split
        rw [first, later]
    | cons first front =>
        obtain ⟨same, later⟩ := List.cons.inj split
        rw [later, same]
        exact rowText_focus [] first front _ back
  rw [row]
  exact jsonGetStr_rowText searched (clean.notMem (Or.inr (Or.inl rfl))) plain
    (forall_mem_of_all other) outsz

/-- The peer finds a carried request in the same bytes. -/
theorem Carried.received (desc : SwDescriptor) (headerSlot bodySlot : Fin numSlots)
    (rxHeader rxBody : BufferPool) (junk : Bytes) (buffers : StaticBuffers)
    (flags : desc.flags = opRequest ||| caseLocal)
    (length : desc.headerLen = (writeRequest worker method url.text).2.header.length) :
    Received worker.workerId method url worker.nextReqId
      (readRequest ⟨rxHeader.copyIn (BufferPool.offset headerSlot.val)
          (writeRequest worker method url.text).2.header, rxBody⟩ junk
        (case3RxDesc desc headerSlot.val bodySlot.val) buffers).2 := by
  have methodRead := carried.jsonGetStr_eq [] rfl
    (searched_of_letter (by decide) (by decide) (by decide)) carried.method_clean rfl 16
  have pathRead := carried.jsonGetStr_eq [⟨ascii "method", _⟩, ⟨ascii "url", _⟩] rfl
    (searched_of_letter (by decide) (by decide) (by decide)) carried.path_clean rfl 256
  have queryRead := carried.jsonGetStr_eq [⟨ascii "method", _⟩, ⟨ascii "url", _⟩,
    ⟨ascii "path", _⟩, ⟨ascii "headers", _⟩] rfl
    (searched_of_letter (by decide) (by decide) (by decide)) carried.query_clean rfl 512
  have reqIdRead := carried.jsonGetStr_eq [⟨ascii "method", _⟩, ⟨ascii "url", _⟩,
    ⟨ascii "path", _⟩, ⟨ascii "headers", _⟩, ⟨ascii "query_string", _⟩, ⟨ascii "remote_addr", _⟩,
    ⟨ascii "status_code", _⟩] rfl
    (searched_of_letter (by decide) (by decide) (by decide)) (cleanBytes_creqId _) rfl 64
  have sourceRead := carried.jsonGetStr_eq [⟨ascii "method", _⟩, ⟨ascii "url", _⟩,
    ⟨ascii "path", _⟩, ⟨ascii "headers", _⟩, ⟨ascii "query_string", _⟩, ⟨ascii "remote_addr", _⟩,
    ⟨ascii "status_code", _⟩, ⟨ascii "req_id_str", _⟩] rfl
    (searched_of_letter (by decide) (by decide) (by decide)) carried.workerId_clean rfl 128
  have nonempty : 0 < (writeRequest worker method url.text).2.header.length := by
    rw [carried.header_eq]
    exact Nat.succ_pos _
  have noNul : 0 ∉ (writeRequest worker method url.text).2.header := by
    rw [carried.header_eq]
    exact zero_notMem_rowText fun field member => (carried.plain field member).2
  obtain ⟨body, shape⟩ := readRequest_copied carried.fits nonempty noNul flags length headerSlot
    bodySlot rxHeader rxBody junk buffers
  rw [shape]
  unfold readHeaderKeys
  rw [methodRead, pathRead, queryRead, reqIdRead, sourceRead]
  exact ⟨rfl, rfl, rfl, rfl, rfl⟩

theorem Carried.carries : Carries worker.workerId method url worker.nextReqId
    (writeRequest worker method url.text).2.header where
  routed := carried.routed
  received := carried.received

end Carried

/-- The slot of a descriptor that is put holds the header. -/
theorem Carried.carries_of_written {worker : Worker} {method : Bytes} {url : Url}
    (carried : Carried worker method url) {pools after : TxPools} {ring ring' : List SwDescriptor}
    {stack : Nat → UInt8} {body : Option Bytes}
    (call : writeCommon pools ring worker.podId (writeRequest worker method url.text).2 stack body =
      (after, some ring')) :
    ∃ desc, ring' = ring ++ [desc] ∧ Carries worker.workerId method url worker.nextReqId
      (after.txHeader.read desc.headerBufSlot desc.headerLen) := by
  obtain ⟨headerSlot, bodySlot, shape, filled⟩ := header_of_writeCommon carried.fits call
  refine ⟨_, shape, ?_⟩
  unfold outgoingDesc
  rw [filled]
  exact carried.carries

/-- `GET http://s1/id?name=a` of the worker `s0-worker-0`. -/
def plainUrl : Url where
  scheme := ascii "http"
  host := ascii "s1"
  path := ascii "/id"
  query := some (ascii "name=a")
  scheme_plain := by decide
  host_plain := by decide
  path_slash := by decide
  path_plain := by decide

def callingWorker : Worker := Worker.init (ascii "s0-worker-0") 1

/-- `http://s1/id?name="a"`. -/
def quotingUrl : Url where
  scheme := ascii "http"
  host := ascii "s1"
  path := ascii "/id"
  query := some (ascii "name=\"a\"")
  scheme_plain := by decide
  host_plain := by decide
  path_slash := by decide
  path_plain := by decide

/-- The header of the request. -/
def quotingHeader : Bytes := (writeRequest callingWorker (ascii "GET") quotingUrl.text).2.header

/-- A short header of a transported request carries it. -/
theorem Transports.carries {worker : Worker} {method : Bytes} {url : Url}
    (transports : Transports worker method url)
    (fits : (writeRequest worker method url.text).2.header.length < headerBufSize) :
    Carries worker.workerId method url worker.nextReqId
      (writeRequest worker method url.text).2.header := by
  obtain ⟨after, put, call⟩ := writeCommon_zeroed worker.podId
    (writeRequest worker method url.text).2 (fun _ => 0) none
  have carried := transports ⟨.zeroed, .zeroed⟩ [] (fun _ => 0) none
  dsimp only at carried
  rw [call] at carried
  rcases carried with failed | ⟨desc, shape, carries⟩
  · exact absurd failed (Option.some_ne_none _)
  obtain ⟨headerSlot, bodySlot, shape', filled⟩ := header_of_writeCommon fits call
  obtain ⟨same, -⟩ := List.cons.inj ((Option.some.inj shape).symm.trans shape')
  rw [same] at carries
  unfold outgoingDesc at carries
  rw [filled] at carries
  exact carries

/-- A header that carries its request has the query where the peer looks. -/
theorem Carries.query {workerId method header : Bytes} {url : Url} {reqId : Nat}
    (carries : Carries workerId method url reqId header) (fits : header.length < headerBufSize)
    (nonempty : 0 < header.length) (noNul : 0 ∉ header) :
    (jsonGetStr header (ascii "query_string") 512).getD [] = url.queryString.take 511 := by
  let sent : SwDescriptor := { flags := opRequest ||| caseLocal, headerLen := header.length }
  have received := carries.received sent ⟨0, by decide⟩ ⟨0, by decide⟩ .zeroed .zeroed [] {} rfl rfl
  obtain ⟨body, read⟩ := readRequest_copied fits nonempty noNul (rfl : sent.flags = _) rfl
    ⟨0, by decide⟩ ⟨0, by decide⟩ .zeroed .zeroed [] {}
  have query := received.queryString
  dsimp only at query
  rw [read] at query
  exact Option.some.inj query

end MiniMs.Daemon
