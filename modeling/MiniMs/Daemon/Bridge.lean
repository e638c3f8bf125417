import MiniMs.Dpumesh.BufferPool
import MiniMs.Library.Json

/-!
The TCP bridge of `SidecarDaemon`: from the JSON object that a client sends to
the combined text in a slot of the DPU RX body pool.

Owns: the choice of the target url and service, `serialize_header`, the steps
of `_handle_bridge_client` up to `sidecar_rx_sq.put`, and the ways they end
before that.

The worker selector, `str()` of values that are not strings, the address of the
client and the namespace are parameters. `json.loads` of the text that
`json.dumps` made gives the dictionary back, so the header enters the combined
text as it is.
-/

namespace MiniMs.Daemon

open MiniMs.Dpumesh MiniMs.Library.Text MiniMs.Library.Json

/-! ### Python strings -/

/-- `str.strip` of one character. -/
def strip (text : PyStr) (point : CodePoint) : PyStr :=
  ((text.dropWhile (· = point)).reverse.dropWhile (· = point)).reverse

/-- An ASCII string. -/
def ofAscii (text : Bytes) : PyStr := text.map fun byte => ⟨byte.toNat, toNat_lt_points byte⟩

/-- What `str(uuid.uuid4())` looks like: `x` is a hexadecimal digit, `y` one of
`89ab`. -/
def uuidShape : Bytes := ascii "xxxxxxxx-xxxx-4xxx-yxxx-xxxxxxxxxxxx"

def fitsShape (shape byte : UInt8) : Bool :=
  if shape = 120 then byte ∈ ascii "0123456789abcdef"
  else if shape = 121 then byte ∈ ascii "89ab"
  else byte = shape

/-- `str(uuid.uuid4())`. -/
structure Uuid where
  text : Bytes
  length : text.length = uuidShape.length
  fits : ∀ pair ∈ uuidShape.zip text, fitsShape pair.1 pair.2

/-! ### The target -/

/-- What the bridge finds outside the request. -/
structure BridgeEnv where
  /-- `self.namespace`. -/
  space : PyStr
  /-- `WorkerSelector.select`: a worker's name and pod id. -/
  select : PyStr → Option (PyStr × Int)
  /-- `str()` of a value that is not a string. -/
  str : Value → PyStr
  /-- `addr[0]`. -/
  remoteAddr : PyStr

/-- A value in an f-string. -/
def BridgeEnv.format (env : BridgeEnv) : Value → PyStr
  | .string text => text
  | value => env.str value

/-- `_get_service_name`; a url that is not a string has no `split`. -/
def getServiceName : Value → PyStr
  | .string url =>
      match url.splitOn 47 with
      | _ :: _ :: host :: _ => ((((host.splitOn 58).headD []).splitOn 46).headD [])
      | _ => lit "unknown"
  | _ => lit "unknown"

/-- The service of a request without url and `target_service`; `none` where
`path.strip` raises. -/
def serviceOfPath : Value → Option PyStr
  | .string path =>
      let first := ((strip path 47).splitOn 47).headD []
      if first ∈ [lit "s0", lit "s1", lit "s2", lit "s3", lit "s4"] then some first
      else some (lit "s0")
  | _ => none

/-- `target_url`. -/
def targetUrl (env : BridgeEnv) (client : List (PyStr × Value)) : Option Value :=
  let url := get client (lit "url") (.string [])
  if url.truthy then some url
  else
    let named := get client (lit "target_service") (.string [])
    let path := get client (lit "path") (.string (lit "/"))
    (if named.truthy then some (env.format named) else serviceOfPath path).map fun service =>
      .string (lit "http://" ++ service ++ lit "." ++ env.space ++ lit ".svc.cluster.local" ++
        env.format path)

/-! ### The header -/

/-- The number 0. -/
def zero : Value := .number ⟨ascii "0", forall_mem_of_all (by decide)⟩

/-- The fields of `serialize_header` in front of `req_id_str`. -/
def headerFields (method url path headers queryString : Value) (remoteAddr : PyStr)
    (statusCode : Value) : List (PyStr × Value) :=
  [(lit "method", method), (lit "url", url), (lit "path", path),
    (lit "headers", if headers.truthy then headers else .object []),
    (lit "query_string", queryString), (lit "remote_addr", .string remoteAddr),
    (lit "status_code", statusCode)]

/-- The fields from `req_id_str` on. -/
def routingFields (reqIdStr sourceWorker destWorker : PyStr) : List (PyStr × Value) :=
  [(lit "req_id_str", .string reqIdStr), (lit "source_worker", .string sourceWorker),
    (lit "dest_worker", .string destWorker)]

/-- The fields that the bridge takes from the client, the url and the address
among them. -/
def clientFields (env : BridgeEnv) (client : List (PyStr × Value)) (url : Value) :
    List (PyStr × Value) :=
  headerFields (get client (lit "method") (.string (lit "GET"))) url
    (get client (lit "path") (.string (lit "/"))) (get client (lit "headers") (.object []))
    (get client (lit "query_string") (.string [])) env.remoteAddr zero

/-- `combined`. -/
def combined (env : BridgeEnv) (client : List (PyStr × Value)) (url : Value) (worker : PyStr)
    (uuid : Uuid) : Bytes :=
  dumps (.object
    [(lit "header",
        .object (clientFields env client url ++ routingFields (ofAscii uuid.text) [] worker)),
      (lit "body", get client (lit "body") (.string []))])

/-! ### `_handle_bridge_client` -/

/-- How the handling of a request goes up to `sidecar_rx_sq.put`. -/
inductive BridgeOutcome where
  /-- An exception: the connection is closed without a reply. -/
  | raised
  | error (status : Nat) (message : PyStr)
  | sent (desc : SwDescriptor) (combined : Bytes)
deriving DecidableEq

/-- Whether `body_str.encode()` raises. -/
def encodes : Value → Bool
  | .string text => (encode text).isSome
  | _ => true

/-- The descriptor of a bridge request. -/
def bridgeDesc (slot : Int) (length : Nat) (podId : Int) : SwDescriptor where
  bodyBufSlot := slot
  bodyLen := length
  dstPodId := podId
  flags := opRequest ||| caseIngress
  valid := 1
  srcBodyPoolType := PoolType.dpuRxBody.code
  srcBodyBufSlot := slot

/-- `_handle_bridge_client` for one decoded object, with the slot that
`rx_body_pool.alloc` returns. -/
def handleBridgeClient (env : BridgeEnv) (client : List (PyStr × Value)) (uuid : Uuid)
    (slot : Int) : BridgeOutcome :=
  match targetUrl env client with
  | none => .raised
  | some url =>
      let service := getServiceName url
      match env.select service with
      | none => .error 503 (lit "No worker for service " ++ service)
      | some (worker, podId) =>
          if !encodes (get client (lit "body") (.string [])) then .raised
          else if slot < 0 then .error 503 (lit "DPU RX body pool full")
          else
            let combined := combined env client url worker uuid
            if slotSize < combined.length then .error 413 (lit "Request too large")
            else .sent (bridgeDesc slot combined.length podId) combined

end MiniMs.Daemon
