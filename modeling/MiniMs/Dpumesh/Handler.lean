import MiniMs.Dpumesh.Write
import MiniMs.Http.RequestLine

/-!
The DPUmesh handler: between the messages of a worker and the HTTP messages
that the service handlers know.

Owns: `dpumesh_read_response` once a descriptor is there, the HTTP texts of
`on_request` and `on_upstream_response_cb` with what the parsers make of them,
and the body that `dpumesh_conn_respond` puts in a slot.

`rlen` is what `snprintf` returns, the length of the whole text. The parsers
read the header block and at most `bodyBufSize` bytes behind it, all of which
are in `rbuf`; so the text is given to them as a whole.
-/

namespace MiniMs.Dpumesh

open MiniMs.Http MiniMs.Library.Text MiniMs.Library.Number

/-! ### `dpumesh_read_response` -/

/-- `json_get_int`. -/
def jsonGetInt (json key : Bytes) : Int :=
  match strstr json (keyPattern key) with
  | none => 0
  | some found => atoi ((found.drop (keyPattern key).length).dropWhile (· = 32))

/-- `dpumesh_response_t`; `none` is a NULL pointer, and `body_len` is the
length of the body. -/
structure Response where
  statusCode : Int
  body : Option Bytes
  reqIdStr : Bytes
  sourceWorker : Bytes
  headerSlot : Int
  bodySlot : Int
  status_low : -(2 ^ 31) ≤ statusCode
  status_high : statusCode < 2 ^ 31
  body_fits : (body.getD []).length ≤ slotSize

theorem jsonGetInt_range (json key : Bytes) :
    -(2 ^ 31) ≤ jsonGetInt json key ∧ jsonGetInt json key < 2 ^ 31 := by
  unfold jsonGetInt
  split
  · omega
  · exact atoi_range _

theorem length_bpRead_le (pool : BufferPool) (slot : Int) (maxlen : Nat) :
    (pool.bpRead slot maxlen).length ≤ slotSize := by
  unfold BufferPool.bpRead
  split
  · exact Nat.zero_le _
  · rw [BufferPool.length_bytesAt]
    exact Nat.min_le_right _ _

/-- `hbuf`, or an empty text where no header is read. -/
def responseHeaderText (rx : RxPools) (desc : SwDescriptor) : Bytes :=
  if 0 ≤ desc.headerBufSlot ∧ 0 < desc.headerLen then localHeaderText rx desc else []

/-- The response that `dpumesh_read_response` makes of a descriptor. Where no
header is read, the fields stay as `memset` left them. -/
def readResponse (rx : RxPools) (desc : SwDescriptor) : Response where
  statusCode := jsonGetInt (responseHeaderText rx desc) (ascii "status_code")
  body :=
    if 0 ≤ desc.bodyBufSlot ∧ 0 < desc.bodyLen then
      some (rx.rxBody.bpRead desc.bodyBufSlot
        (if desc.bodyLen < slotSize then desc.bodyLen else slotSize - 1))
    else none
  reqIdStr := (jsonGetStr (responseHeaderText rx desc) (ascii "req_id_str") 64).getD []
  sourceWorker := (jsonGetStr (responseHeaderText rx desc) (ascii "source_worker") 128).getD []
  headerSlot := desc.headerBufSlot
  bodySlot := desc.bodyBufSlot
  status_low := (jsonGetInt_range _ _).1
  status_high := (jsonGetInt_range _ _).2
  body_fits := by
    split
    · exact length_bpRead_le _ _ _
    · exact Nat.zero_le _

/-! ### `on_upstream_response_cb` -/

/-- The status of the HTTP text: 200 where none was sent. -/
def Response.status (response : Response) : Int :=
  if 0 < response.statusCode then response.statusCode else 200

/-- The body of the HTTP text. -/
def Response.bytes (response : Response) : Bytes := response.body.getD []

/-- The HTTP text of a response. `%.*s` ends at a NUL, too. -/
def upstreamText (response : Response) : Bytes :=
  ascii "HTTP/1.1 " ++ decimalInt response.status ++ ascii " OK\r\n" ++
    ascii "Content-Length: " ++ decimal response.bytes.length ++ ascii "\r\n" ++ ascii "\r\n" ++
    cstr response.bytes

/-- What `on_upstream_response_cb` gives to the upstream handler. The callback
returns before that where there is no response, or none that parses. -/
def onUpstreamResponse (result : Option Response) : Option HttpResponse :=
  match result with
  | none => none
  | some response =>
      match httpParseResponse (upstreamText response) with
      | .complete resp => some resp
      | .more => none
      | .bad => none

theorem status_range (response : Response) :
    -(2 ^ 31) ≤ response.status ∧ response.status < 2 ^ 31 := by
  have high := response.status_high
  unfold Response.status
  split
  · omega
  · omega

theorem length_bytes_le (response : Response) : response.bytes.length ≤ longMax :=
  Nat.le_trans response.body_fits (by decide)

/-- The head of the HTTP text of a response. -/
def upstreamHead (response : Response) : ResponseHead where
  status := response.status
  phrase := ascii "OK"
  before := []
  value := response.bytes.length
  after := []
  status_low := (status_range response).1
  status_high := (status_range response).2
  phrase_plain := forall_mem_of_all (by decide)
  before_lines := fun _ member => absurd member (by simp)
  before_others := fun _ member => absurd member (by simp)
  after_lines := fun _ member => absurd member (by simp)
  value_small := length_bytes_le response

theorem upstreamText_eq (response : Response) :
    upstreamText response = (upstreamHead response).text ++ cstr response.bytes := by
  have phrase : ascii " OK\r\n" = 32 :: (ascii "OK" ++ [13, 10]) := by decide
  have crlf : ascii "\r\n" = [13, 10] := by decide
  unfold upstreamText ResponseHead.text ResponseHead.lines ResponseHead.statusLine headerBlock
    linesText lengthLine upstreamHead
  rw [phrase, crlf]
  simp

/-- A body without NUL is parsed as it is, up to the size of the body buffer;
with a NUL the text lacks bytes. -/
theorem onUpstreamResponse_some (response : Response) :
    onUpstreamResponse (some response) =
      if 0 ∈ response.bytes then none
      else some ⟨response.status, response.bytes.take (bodyCopy response.bytes.length),
        response.bytes.length⟩ := by
  have parsed := (upstreamHead response).httpParseResponse_text (cstr response.bytes)
  rw [← upstreamText_eq] at parsed
  have value : (upstreamHead response).value = response.bytes.length := rfl
  rw [value] at parsed
  unfold onUpstreamResponse
  dsimp only
  by_cases nul : 0 ∈ response.bytes
  · have lacking : 0 < response.bytes.length ∧
        (cstr response.bytes).length < response.bytes.length := by
      have shorter : cstr response.bytes ≠ response.bytes := by
        intro same
        have clean := zero_notMem_cstr response.bytes
        rw [same] at clean
        exact clean nul
      have begins : cstr response.bytes <+: response.bytes := List.takeWhile_prefix _
      refine ⟨List.length_pos_of_mem nul, ?_⟩
      by_contra long
      exact shorter (begins.eq_of_length_le (by omega))
    rw [if_pos lacking] at parsed
    rw [parsed, if_pos nul]
  · have enough : ¬ (0 < response.bytes.length ∧ response.bytes.length < response.bytes.length) := by
      omega
    rw [cstr_eq_self nul, if_neg enough] at parsed
    rw [parsed, if_neg nul]
    rfl

/-! ### `on_request` -/

/-- The body that `on_request` passes on: the one NUL that stands for an empty
body is dropped. -/
def requestBody (req : Request) : Bytes :=
  let body := req.body.getD []
  if body = [0] then [] else body

/-- The HTTP text of a request. -/
def requestText (req : Request) : Bytes :=
  let method := req.method.getD (ascii "GET")
  let path := req.path.getD (ascii "/")
  let qs := req.queryString.getD []
  let body := requestBody req
  method ++ ascii " " ++ path ++ (if qs = [] then [] else ascii "?" ++ qs) ++ ascii " HTTP/1.1\r\n" ++
    ascii "Host: dpumesh\r\n" ++ ascii "Content-Length: " ++ decimal body.length ++ ascii "\r\n" ++
    ascii "\r\n" ++ cstr body

/-- What `on_request` gives to the request handler. -/
def onRequest (req : Request) : Option HttpRequest :=
  match httpParseRequest (requestText req) with
  | .complete request => some request
  | .more => none
  | .bad => none

end MiniMs.Dpumesh
