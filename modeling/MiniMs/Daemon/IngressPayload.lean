import MiniMs.Daemon.IngressText
import MiniMs.Dpumesh.BodyString
import MiniMs.Dpumesh.Leakage

/-!
The method, path, query string and body of a bridge request at the worker.

Owns: the requests whose strings fit the worker's buffers, the condition on
each of the four strings and the text around it under which `dpumesh_read`
hands it over unharmed, and the theorem that this condition is exact.

The routing fields of the header are not owned here.
-/

namespace MiniMs.Daemon

open MiniMs.Dpumesh MiniMs.Library.Text MiniMs.Library.Json MiniMs.Library.Run

/-! ### The strings of a request -/

/-- A string with its UTF-8 bytes. -/
structure Encoded where
  text : PyStr
  bytes : Bytes
  encoded : encode text = some bytes

/-- A string that fits a buffer. -/
structure Fitting (limit : Nat) extends Encoded where
  fits : bytes.length ≤ limit

/-- A request that the bridge puts in `sidecar_rx_sq`, with strings that fit
the worker's buffers. -/
structure IngressRequest where
  env : BridgeEnv
  client : List (PyStr × Value)
  uuid : Uuid
  slot : Int
  desc : SwDescriptor
  combined : Bytes
  method : Fitting 15
  path : Fitting 255
  queryString : Fitting 511
  body : Encoded
  method_eq : get client (lit "method") (.string (lit "GET")) = .string method.text
  path_eq : get client (lit "path") (.string (lit "/")) = .string path.text
  queryString_eq : get client (lit "query_string") (.string []) = .string queryString.text
  body_eq : get client (lit "body") (.string []) = .string body.text
  sent : handleBridgeClient env client uuid slot = .sent desc combined
  short : combined.length < slotSize

namespace IngressRequest

variable (request : IngressRequest)

/-- The target url; a request that is sent has one. -/
def url : Value := (targetUrl request.env request.client).getD .null

/-- The chosen worker; a request that is sent has one. -/
def worker : PyStr := ((request.env.select (getServiceName request.url)).map Prod.fst).getD []

def headers : Value :=
  let headers := get request.client (lit "headers") (.object [])
  if headers.truthy then headers else .object []

/-- The header object. -/
def header : List (PyStr × Value) :=
  headerMembers request.env request.client request.url request.worker request.uuid

/-! ### The text in front of each string -/

def pathFields : List (PyStr × Value) :=
  [(lit "method", .string request.method.text), (lit "url", request.url)]

def beforePath : Bytes := openText request.pathFields ++ [44, 32]

def queryStringFields : List (PyStr × Value) :=
  request.pathFields ++ [(lit "path", .string request.path.text), (lit "headers", request.headers)]

def beforeQueryString : Bytes := openText request.queryStringFields ++ [44, 32]

def beforeBody : Bytes := ascii "\x7b\"header\": " ++ dumps (.object request.header) ++ [44, 32]

/-- Where the header text ends that the worker scans. -/
def cut : Nat :=
  headerCut (headerAndBody request.env request.client request.url request.worker request.uuid)

/-- The parts of the header behind `query_string`. -/
def behindQueryString : List (PyStr × Value) :=
  [(lit "remote_addr", .string request.env.remoteAddr), (lit "status_code", zero)] ++
    routingFields (ofAscii request.uuid.text) [] request.worker

theorem header_eq :
    request.header = request.queryStringFields ++
      (lit "query_string", .string request.queryString.text) :: request.behindQueryString := by
  unfold header headerMembers clientFields
  rw [request.method_eq, request.path_eq, request.queryString_eq]
  rfl

theorem combined_eq :
    request.combined =
      Daemon.combined request.env request.client request.url request.worker request.uuid := by
  obtain ⟨url, worker, podId, target, selected, same, -⟩ := sent_inversion request.sent
  have sameUrl : request.url = url := by
    unfold IngressRequest.url
    rw [target, Option.getD_some]
  have sameWorker : request.worker = worker := by
    unfold IngressRequest.worker
    rw [sameUrl, selected, Option.map_some, Option.getD_some]
  rw [sameUrl, sameWorker]
  exact same

end IngressRequest

/-! ### The condition -/

/-- A string of the header reaches the worker unharmed. Where the text in front
of it has no entry with its key, it consists of plain characters, or of these
and backslashes that fill the buffer, and stands inside the header text that
the worker cuts out. Where there is such an entry, the first one spells the
same string. -/
def FieldIntact (before key : Bytes) (limit cut : Nat) (value : Encoded) : Prop :=
  if keyPattern key <:+: before then
    ∃ rest, Entry (before.take cut) key rest ∧ Spells limit rest value.bytes
  else
    before.length + (key.length + 5) ≤ cut ∧
      ReadsBack (min limit (cut - (before.length + (key.length + 5)))) value.text

/-- The body reaches the worker unharmed. Where the header has no entry
`"body":`, the body consists of plain characters and quotes. Where there is
one, the first spells the same body, or it is no string and the body is
empty. -/
def BodyIntact (before text : Bytes) (body : Encoded) : Prop :=
  if keyPattern (ascii "body") <:+: before then
    (∃ rest, Entry text (ascii "body") rest ∧ SpellsBody rest body.bytes) ∨
      (∀ rest, ¬ Entry text (ascii "body") rest) ∧ body.bytes = []
  else ∀ point ∈ body.text, Restored point

/-- All four strings of a request reach the worker unharmed. -/
structure Intact (request : IngressRequest) : Prop where
  method : FieldIntact [123] (ascii "method") 15 request.cut request.method.toEncoded
  path : FieldIntact request.beforePath (ascii "path") 255 request.cut request.path.toEncoded
  queryString : FieldIntact request.beforeQueryString (ascii "query_string") 511 request.cut
    request.queryString.toEncoded
  body : BodyIntact request.beforeBody request.combined request.body

/-! ### The scanner -/

/-- A string that is the first to be found under its key. -/
theorem jsonGetStr_escaped {before key rest : Bytes} {value : Encoded}
    (short : key.length < 125)
    (first : ¬ StartsIn (keyPattern key) before
      (keyPattern key ++ 32 :: 34 :: (escape value.text ++ 34 :: rest))) (cut outsz : Nat) :
    jsonGetStr ((before ++ (keyPattern key ++ 32 :: 34 :: (escape value.text ++ 34 :: rest))).take
        cut) key outsz = some value.bytes ↔
      before.length + (key.length + 5) ≤ cut ∧
        ReadsBack (min (outsz - 1) (cut - (before.length + (key.length + 5)))) value.text := by
  have position : before.length + (keyPattern key).length + 2 =
      before.length + (key.length + 5) := by
    rw [length_keyPattern short]
    omega
  have raw : (escape value.text ++ 34 :: rest).takeWhile (· ≠ 34) = rawText value.text :=
    takeWhile_append_quote _ _
  rw [jsonGetStr_field first, position, raw]
  by_cases inside : before.length + (key.length + 5) ≤ cut
  · rw [if_pos inside, Option.some.injEq, rawText_take_eq_iff value.encoded]
    exact (and_iff_right inside).symm
  · rw [if_neg inside]
    simp [inside]

/-- A string behind other fields. -/
theorem jsonGetStr_field_iff {fields key rest : Bytes} {value : Encoded}
    (short : key.length < 125) (comma : 44 ∉ keyPattern key) (blank : 32 ∉ keyPattern key)
    (cut outsz : Nat) :
    jsonGetStr ((fields ++ [44, 32] ++
        (keyPattern key ++ 32 :: 34 :: (escape value.text ++ 34 :: rest))).take cut) key outsz =
      some value.bytes ↔ FieldIntact (fields ++ [44, 32]) key (outsz - 1) cut value := by
  unfold FieldIntact
  by_cases shadow : keyPattern key <:+: fields ++ [44, 32]
  · have quote : keyPattern key = 34 :: (keyPattern key).tail := by
      rw [keyPattern_eq short]
      rfl
    have hidden := jsonGetStr_shadowed comma blank shadow
      ((keyPattern key).tail ++ 32 :: 34 :: (escape value.text ++ 34 :: rest)) cut outsz
    rw [← List.cons_append, ← quote] at hidden
    rw [if_pos shadow, hidden, jsonGetStr_eq_iff]
  · rw [if_neg shadow]
    apply jsonGetStr_escaped short
    intro starts
    have split : fields ++ [44, 32] = (fields ++ [44]) ++ [32] := by simp
    rw [split] at starts shadow
    exact shadow ((infix_of_startsIn blank starts).trans (List.prefix_append _ _).isInfix)

/-- A body behind the header. -/
theorem case2Body_iff {fields : Bytes} {body : Encoded}
    (clean : 0 ∉ fields ++ [44, 32] ++
      (keyPattern (ascii "body") ++ 32 :: 34 :: (escape body.text ++ 34 :: [125])))
    {bodySz : Nat}
    (fits : (fields ++ [44, 32] ++ (keyPattern (ascii "body") ++
      32 :: 34 :: (escape body.text ++ 34 :: [125]))).length < bodySz) :
    cstr (case2Body (fields ++ [44, 32] ++
        (keyPattern (ascii "body") ++ 32 :: 34 :: (escape body.text ++ 34 :: [125]))) bodySz) =
      body.bytes ↔
      BodyIntact (fields ++ [44, 32]) (fields ++ [44, 32] ++
        (keyPattern (ascii "body") ++ 32 :: 34 :: (escape body.text ++ 34 :: [125]))) body := by
  rw [cstr_case2Body_eq_iff clean fits]
  unfold BodyIntact
  by_cases shadow : keyPattern (ascii "body") <:+: fields ++ [44, 32]
  · rw [if_pos shadow]
  · rw [if_neg shadow, ← spellsBody_escape_iff body.encoded [125]]
    have first : ¬ StartsIn (keyPattern (ascii "body")) (fields ++ [44, 32])
        (keyPattern (ascii "body") ++ 32 :: 34 :: (escape body.text ++ 34 :: [125])) := by
      intro starts
      have split : fields ++ [44, 32] = (fields ++ [44]) ++ [32] := by simp
      rw [split] at starts shadow
      have blank : 32 ∉ keyPattern (ascii "body") := by decide
      exact shadow ((infix_of_startsIn blank starts).trans (List.prefix_append _ _).isInfix)
    have entry : Entry (fields ++ [44, 32] ++ (keyPattern (ascii "body") ++
        32 :: 34 :: (escape body.text ++ 34 :: [125]))) (ascii "body")
        (escape body.text ++ 34 :: [125]) := by
      refine ⟨_, strstr_first first, ?_⟩
      rw [List.drop_left' rfl]
      rfl
    constructor
    · rintro (⟨rest, other, spells⟩ | ⟨absent, -⟩)
      · rw [entry.unique other]
        exact spells
      · exact absurd entry (absent _)
    · exact fun spells => Or.inl ⟨_, entry, spells⟩

/-! ### The header and the combined text of a request -/

namespace IngressRequest

variable (request : IngressRequest)

def headerAndBody : Bytes :=
  Daemon.headerAndBody request.env request.client request.url request.worker request.uuid

theorem combined_split : request.combined = ascii "\x7b\"header\": " ++ request.headerAndBody := by
  rw [request.combined_eq, Daemon.combined_eq]
  rfl

theorem headerAndBody_eq :
    request.headerAndBody = dumps (.object request.header) ++
      (ascii ", \"body\": " ++ dumps (.string request.body.text) ++ ascii "\x7d") := by
  unfold headerAndBody Daemon.headerAndBody header
  rw [request.body_eq]

/-- The header and the rest, cut open at a field whose value is a string. -/
theorem headerAndBody_split {fields after : List (PyStr × Value)} {key text : PyStr}
    {name : Bytes} (nonempty : fields ≠ []) (pattern : quoted key ++ [58] = keyPattern name)
    (split : request.header = fields ++ (key, .string text) :: after) :
    ∃ rest, request.headerAndBody = openText fields ++ [44, 32] ++
      (keyPattern name ++ 32 :: 34 :: (escape text ++ 34 :: rest)) := by
  refine ⟨dumpsMembers after ++ ascii "\x7d" ++
    (ascii ", \"body\": " ++ dumps (.string request.body.text) ++ ascii "\x7d"), ?_⟩
  rw [headerAndBody_eq, split, dumps_object_split nonempty, pattern]
  simp only [List.append_assoc, List.cons_append]

theorem headerAndBody_method :
    ∃ rest, request.headerAndBody =
      [123] ++ (keyPattern (ascii "method") ++ 32 :: 34 ::
        (escape request.method.text ++ 34 :: rest)) := by
  obtain ⟨after, split⟩ : ∃ after, request.header =
      (lit "method", .string request.method.text) :: after := ⟨_, request.header_eq⟩
  have object : dumps (.object ((lit "method", .string request.method.text) :: after)) =
      ascii "\x7b" ++ quoted (lit "method") ++ ascii ": " ++ dumps (.string request.method.text) ++
        dumpsMembers after ++ ascii "\x7d" := by
    conv_lhs => rw [dumps]
  have opening : ascii "\x7b" ++ quoted (lit "method") ++ ascii ": " =
      [123] ++ (keyPattern (ascii "method") ++ [32]) := by decide
  have value : dumps (.string request.method.text) = quoted request.method.text := by rw [dumps]
  refine ⟨dumpsMembers after ++ ascii "\x7d" ++
    (ascii ", \"body\": " ++ dumps (.string request.body.text) ++ ascii "\x7d"), ?_⟩
  rw [headerAndBody_eq, split, object, opening, value]
  unfold quoted
  simp only [List.append_assoc, List.cons_append, List.nil_append]

theorem combined_body :
    request.combined = request.beforeBody ++ (keyPattern (ascii "body") ++ 32 :: 34 ::
      (escape request.body.text ++ 34 :: [125])) := by
  have separator : ascii ", \"body\": " = [44, 32] ++ (keyPattern (ascii "body") ++ [32]) := by
    decide
  have closing : ascii "\x7d" = [125] := by decide
  rw [combined_split, headerAndBody_eq, separator, closing, dumps]
  unfold beforeBody quoted
  simp only [List.append_assoc, List.cons_append, List.nil_append]

theorem zero_notMem_combined : 0 ∉ request.combined := by
  rw [request.combined_eq]
  exact zero_notMem_dumps _

/-! ### The request that is handed over -/

/-- The header text that the worker scans. -/
def scanned : Bytes := request.headerAndBody.take request.cut

theorem readRequest_eq (rxHeader rxBody : BufferPool) (junk : Bytes) (buffers : StaticBuffers)
    (hostSlot : Fin numSlots) :
    let req := (readRequest (deliveredRx rxHeader rxBody hostSlot request.combined) junk
      (deliveredDesc request.desc hostSlot) buffers).2
    req.method = some ((jsonGetStr request.scanned (ascii "method") 16).getD buffers.methodBuf) ∧
      req.path = some ((jsonGetStr request.scanned (ascii "path") 256).getD buffers.pathBuf) ∧
      req.queryString =
        some ((jsonGetStr request.scanned (ascii "query_string") 512).getD buffers.qsBuf) ∧
      req.body = some (cstr (case2Body request.combined slotSize)) := by
  obtain ⟨_, _, podId, -, -, -, fits, sameDesc, -⟩ := sent_inversion request.sent
  obtain ⟨rest, method⟩ := request.headerAndBody_method
  obtain ⟨tail, shape⟩ : ∃ tail, request.headerAndBody = 123 :: tail := ⟨_, method⟩
  have whole : request.combined = ascii "\x7b\"header\": " ++ 123 :: tail := by
    rw [← shape]
    exact request.combined_split
  have clean : 0 ∉ 123 :: tail := by
    intro member
    apply request.zero_notMem_combined
    rw [whole]
    exact List.mem_append_right _ member
  have scan : request.scanned = (123 :: tail).take (headerCut (123 :: tail)) := by
    rw [← shape]
    rfl
  have short : request.combined.take (slotSize - 1) = request.combined :=
    List.take_of_length_le (Nat.le_sub_one_of_lt request.short)
  have flags : request.desc.flags = opRequest ||| caseIngress := by
    rw [sameDesc]
    rfl
  have length : request.desc.bodyLen = request.combined.length := by
    rw [sameDesc]
    rfl
  have read := readRequest_delivered request.desc hostSlot flags (by rw [length, whole])
    (by rw [← whole]; exact fits) clean rxHeader rxBody junk buffers
  rw [← whole] at read
  dsimp only at read ⊢
  rw [read, short, scan]
  exact ⟨rfl, rfl, rfl, rfl⟩

/-! ### The four strings -/

theorem method_iff :
    jsonGetStr request.scanned (ascii "method") 16 = some request.method.bytes ↔
      FieldIntact [123] (ascii "method") 15 request.cut request.method.toEncoded := by
  obtain ⟨rest, split⟩ := request.headerAndBody_method
  have pattern : keyPattern (ascii "method") = 34 :: ascii "method\":" := by decide
  have first : ¬ StartsIn (keyPattern (ascii "method")) [123] (keyPattern (ascii "method") ++
      32 :: 34 :: (escape request.method.text ++ 34 :: rest)) := by
    rw [pattern]
    exact not_startsIn_of_head _ (by decide)
  have alone : ¬ keyPattern (ascii "method") <:+: [123] := by decide
  unfold scanned FieldIntact
  rw [if_neg alone, split]
  exact jsonGetStr_escaped (by decide) first request.cut 16

theorem path_iff :
    jsonGetStr request.scanned (ascii "path") 256 = some request.path.bytes ↔
      FieldIntact request.beforePath (ascii "path") 255 request.cut request.path.toEncoded := by
  have split : request.header = request.pathFields ++ (lit "path", .string request.path.text) ::
      ((lit "headers", request.headers) ::
        (lit "query_string", .string request.queryString.text) :: request.behindQueryString) := by
    rw [request.header_eq]
    rfl
  obtain ⟨rest, whole⟩ := request.headerAndBody_split (List.cons_ne_nil _ _)
    (by decide : quoted (lit "path") ++ [58] = keyPattern (ascii "path")) split
  unfold scanned
  rw [whole]
  exact jsonGetStr_field_iff (by decide) (by decide) (by decide) request.cut 256

theorem queryString_iff :
    jsonGetStr request.scanned (ascii "query_string") 512 = some request.queryString.bytes ↔
      FieldIntact request.beforeQueryString (ascii "query_string") 511 request.cut
        request.queryString.toEncoded := by
  obtain ⟨rest, whole⟩ := request.headerAndBody_split (List.cons_ne_nil _ _)
    (by decide : quoted (lit "query_string") ++ [58] = keyPattern (ascii "query_string"))
    request.header_eq
  unfold scanned
  rw [whole]
  exact jsonGetStr_field_iff (by decide) (by decide) (by decide) request.cut 512

theorem body_iff :
    cstr (case2Body request.combined slotSize) = request.body.bytes ↔
      BodyIntact request.beforeBody request.combined request.body := by
  have clean := request.zero_notMem_combined
  have short := request.short
  have split := request.combined_body
  rw [split] at clean short ⊢
  exact case2Body_iff clean short

end IngressRequest

/-! ### Every request and every worker -/

/-- Whatever a worker has done before, it hands the request over with the
client's method, path, query string and body. -/
def RoundTrips (request : IngressRequest) : Prop :=
  ∀ (workerId : Bytes) (podId : Int) (state : Callee.State),
    Reachable Callee.step (Callee.start workerId podId) state →
    ∀ (rxHeader rxBody : BufferPool) (junk : Bytes) (hostSlot : Fin numSlots),
      let req := (dpumeshRead (deliveredRx rxHeader rxBody hostSlot request.combined) junk
        state.worker (deliveredDesc request.desc hostSlot)).2
      req.method = some request.method.bytes ∧ req.path = some request.path.bytes ∧
        req.queryString = some request.queryString.bytes ∧ req.body = some request.body.bytes

/-- What is read over both an empty and a filled buffer is found in the text. -/
theorem eq_some_of_getD {found : Option Bytes} {kept value : Bytes} (marked : kept ≠ [])
    (fresh : found.getD [] = value) (later : found.getD kept = value) : found = some value := by
  cases found with
  | none => exact absurd (later.trans fresh.symm) marked
  | some read => exact congrArg some fresh

theorem intact_of_roundTrips {request : IngressRequest} (trips : RoundTrips request) :
    Intact request := by
  obtain ⟨state, reachable, marked⟩ := Leakage.exists_marked [] 0
  have fresh := trips [] 0 (Callee.start [] 0) ⟨[], rfl⟩ .zeroed .zeroed [] ⟨0, by decide⟩
  have later := trips [] 0 state reachable .zeroed .zeroed [] ⟨0, by decide⟩
  have freshRead := request.readRequest_eq .zeroed .zeroed [] (Callee.start [] 0).worker.buffers
    ⟨0, by decide⟩
  have laterRead := request.readRequest_eq .zeroed .zeroed [] state.worker.buffers ⟨0, by decide⟩
  unfold dpumeshRead at fresh later
  dsimp only at fresh later freshRead laterRead
  rw [freshRead.1, freshRead.2.1, freshRead.2.2.1, freshRead.2.2.2] at fresh
  rw [laterRead.1, laterRead.2.1, laterRead.2.2.1, laterRead.2.2.2] at later
  simp only [Option.some.injEq] at fresh later
  exact
    { method := request.method_iff.mp (eq_some_of_getD marked.method fresh.1 later.1)
      path := request.path_iff.mp (eq_some_of_getD marked.path fresh.2.1 later.2.1)
      queryString := request.queryString_iff.mp
        (eq_some_of_getD marked.queryString fresh.2.2.1 later.2.2.1)
      body := request.body_iff.mp fresh.2.2.2 }

theorem roundTrips_of_intact {request : IngressRequest} (intact : Intact request) :
    RoundTrips request := by
  intro workerId podId state _ rxHeader rxBody junk hostSlot
  have read := request.readRequest_eq rxHeader rxBody junk state.worker.buffers hostSlot
  have method := request.method_iff.mpr intact.method
  have path := request.path_iff.mpr intact.path
  have queryString := request.queryString_iff.mpr intact.queryString
  have body := request.body_iff.mpr intact.body
  rw [method, path, queryString, body] at read
  exact read

/-- A request reaches the service with the client's four strings, after any
history of the worker, exactly if each of them is intact. -/
theorem round_trips_iff (request : IngressRequest) : RoundTrips request ↔ Intact request :=
  ⟨intact_of_roundTrips, roundTrips_of_intact⟩

/-! ### A path that is not ASCII -/

/-- `{"path": "/é"}`. -/
def accentClient : List (PyStr × Value) := [(lit "path", .string (lit "/é"))]

def accentUrl : Value := .string (lit "http://s0.default.svc.cluster.local/é")

def accentCombined : Bytes :=
  combined oneWorkerEnv accentClient accentUrl (lit "s0-worker-1") firstUuid

theorem accent_short : accentCombined.length < slotSize := by decide +kernel

theorem accent_sent :
    handleBridgeClient oneWorkerEnv accentClient firstUuid 0 =
      .sent (bridgeDesc 0 accentCombined.length 0) accentCombined :=
  sent_of_length_eq rfl rfl (by decide +kernel) (by decide) (Nat.le_of_lt accent_short) rfl

def accentRequest : IngressRequest where
  env := oneWorkerEnv
  client := accentClient
  uuid := firstUuid
  slot := 0
  desc := bridgeDesc 0 accentCombined.length 0
  combined := accentCombined
  method := ⟨⟨lit "GET", ascii "GET", by decide +kernel⟩, by decide⟩
  path := ⟨⟨lit "/é", [47, 195, 169], by decide +kernel⟩, by decide⟩
  queryString := ⟨⟨[], [], encode_nil⟩, by decide⟩
  body := ⟨[], [], encode_nil⟩
  method_eq := rfl
  path_eq := rfl
  queryString_eq := rfl
  body_eq := rfl
  sent := accent_sent
  short := accent_short

/-- Where nothing shadows it, an intact string is made of plain characters and
backslashes. -/
theorem FieldIntact.mem {before key : Bytes} {limit cut : Nat} {value : Encoded}
    (intact : FieldIntact before key limit cut value) (alone : ¬ keyPattern key <:+: before)
    {point : CodePoint} (member : point ∈ value.text) : Unescaped point ∨ point.val = 92 := by
  unfold FieldIntact at intact
  rw [if_neg alone] at intact
  exact intact.2.mem member

theorem Intact.path_mem {request : IngressRequest} (intact : Intact request)
    (alone : ¬ keyPattern (ascii "path") <:+: request.beforePath) {point : CodePoint}
    (member : point ∈ request.path.text) : Unescaped point ∨ point.val = 92 :=
  intact.path.mem alone member

/-- The worker hands over `/\u00e9`. -/
theorem not_round_trips : ¬ ∀ request : IngressRequest, RoundTrips request := by
  intro trips
  have intact : Intact accentRequest := intact_of_roundTrips (trips accentRequest)
  have alone : ¬ keyPattern (ascii "path") <:+: accentRequest.beforePath := by decide +kernel
  have accent : (233 : CodePoint) ∈ accentRequest.path.text := by decide +kernel
  rcases intact.path_mem alone accent with unescaped | backslash
  · exact absurd unescaped (by decide)
  · exact absurd backslash (by decide)

end MiniMs.Daemon
