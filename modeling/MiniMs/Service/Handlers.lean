import MiniMs.Http.Framing
import MiniMs.Service.Store

/-!
The request handlers of the three services, without their transport.

Owns: `handle_request` of `id_service` and `attend_service`,
`handle_request` and `handle_upstream_response` of the frontend as the actions
that they take in order, and the replies of each.

The TCP and the DPUmesh version of a service differ in the calls that carry out
an action, and for the frontend in what stands before the path of an upstream
request. Connections and events belong to other modules.
-/

namespace MiniMs.Service

open MiniMs.Dpumesh MiniMs.Http MiniMs.Library.Text MiniMs.Library.Number

/-! ### Replies -/

/-- The arguments of `conn_start_response` and `dpumesh_conn_respond`: a status,
a text, and the number of its bytes that count. -/
structure Reply where
  status : Int
  text : Bytes
  bodyLen : Nat
deriving DecidableEq, Repr

/-- The body that is sent. -/
def Reply.body (reply : Reply) : Bytes := reply.text.take reply.bodyLen

/-- A reply with the length that `snprintf` returned. -/
def Reply.printed (status : Int) (text : Bytes) : Reply := ⟨status, text, text.length⟩

/-! ### The leaf services -/

/-- The two services that look a key up. -/
inductive Leaf where
  | idService
  | attendService
deriving DecidableEq, Repr

/-- `{"id":%d}`. -/
def idBody (id : Int) : Bytes := ascii "\x7b\"id\":" ++ decimalInt id ++ ascii "\x7d"

/-- `{"attended":%s}`. -/
def attendBody (attended : Int) : Bytes :=
  ascii "\x7b\"attended\":" ++ (if attended ≠ 0 then ascii "true" else ascii "false") ++
    ascii "\x7d"

def notFound : Reply := ⟨404, ascii "\x7b\"error\":\"not found\"\x7d", 20⟩
def missingName : Reply := ⟨400, ascii "\x7b\"error\":\"missing name\"\x7d", 23⟩
def nameNotFound : Reply := ⟨404, ascii "\x7b\"error\":\"name not found\"\x7d", 26⟩
def missingId : Reply := ⟨400, ascii "\x7b\"error\":\"missing id\"\x7d", 21⟩
def idNotFound : Reply := ⟨404, ascii "\x7b\"error\":\"id not found\"\x7d", 23⟩

/-- What the two `handle_request` functions share: a path, a query key with its
buffer, and the replies. -/
structure LeafService where
  path : Bytes
  key : Bytes
  outsz : Nat
  missing : Reply
  absent : Reply
  found : Int → Reply

/-- `handle_request` of a leaf service. -/
def LeafService.handleRequest (service : LeafService) (store : KvStore) (req : HttpRequest) : Reply :=
  if req.method ≠ ascii "GET" ∨ req.path ≠ service.path then notFound
  else
    match queryGet req.query service.key service.outsz with
    | none => service.missing
    | some key =>
        match kvStoreGet store key with
        | none => service.absent
        | some value => service.found value

/-- `id_service`. -/
def idService : LeafService where
  path := ascii "/id"
  key := ascii "name"
  outsz := 64
  missing := missingName
  absent := nameNotFound
  found := fun id => .printed 200 (idBody id)

/-- `attend_service`. -/
def attendService : LeafService where
  path := ascii "/attend"
  key := ascii "id"
  outsz := 32
  missing := missingId
  absent := idNotFound
  found := fun attended => .printed 200 (attendBody attended)

/-! ### The frontend -/

inductive FrontendStage where
  | waitingId
  | waitingAttend
deriving DecidableEq, Repr

/-- `frontend_ctx_t`. -/
structure FrontendCtx where
  stage : FrontendStage
  name : Bytes
  id : Int
deriving DecidableEq, Repr

/-- What the handlers of the frontend do, one call after the other. -/
inductive Action where
  | respond (reply : Reply)
  /-- An upstream request that was accepted, with its context. -/
  | send (service : Leaf) (target : Bytes) (ctx : FrontendCtx)
  /-- `free(ctx)`. -/
  | free
deriving DecidableEq, Repr

def allocFailed : Reply := ⟨500, ascii "\x7b\"error\":\"alloc failed\"\x7d", 23⟩
def upstreamFailed : Reply := ⟨502, ascii "\x7b\"error\":\"upstream failed\"\x7d", 26⟩
def badIdResponse : Reply := ⟨502, ascii "\x7b\"error\":\"bad id response\"\x7d", 26⟩

/-- `{"name":"%s","id":%d,"attended":%s}`. -/
def lookupBody (name : Bytes) (id : Int) (attended : Bool) : Bytes :=
  ascii "\x7b\"name\":\"" ++ name ++ ascii "\",\"id\":" ++ decimalInt id ++ ascii ",\"attended\":" ++
    (if attended then ascii "true" else ascii "false") ++ ascii "\x7d"

/-- The upstream targets: `snprintf` into 256 bytes of a base, empty for TCP,
and a path with its query. -/
def idTarget (base name : Bytes) : Bytes := snprintf 256 (base ++ ascii "/id?name=" ++ name)
def attendTarget (base : Bytes) (id : Int) : Bytes :=
  snprintf 256 (base ++ ascii "/attend?id=" ++ decimalInt id)

/-- `handle_request` of the frontend. `base` is what stands before the paths of
a service; `allocated` and `sent` tell whether `calloc` and the upstream call
succeed. -/
def handleRequest (base : Leaf → Bytes) (allocated sent : Bool) (req : HttpRequest) : List Action :=
  if req.method ≠ ascii "GET" ∨ req.path ≠ ascii "/lookup" then [.respond notFound]
  else
    match queryGet req.query (ascii "name") 64 with
    | none => [.respond missingName]
    | some name =>
        if !allocated then [.respond allocFailed]
        else if !sent then [.free, .respond upstreamFailed]
        else [.send .idService (idTarget (base .idService) name) ⟨.waitingId, name, 0⟩]

/-- `handle_upstream_response` of the frontend. -/
def handleUpstreamResponse (base : Leaf → Bytes) (sent : Bool) (ctx : FrontendCtx)
    (resp : HttpResponse) : List Action :=
  if resp.statusCode ≠ 200 then [.respond (.printed resp.statusCode resp.body), .free]
  else
    match ctx.stage with
    | .waitingId =>
        match strstr (cstr resp.body) (ascii "\"id\":") with
        | none => [.respond badIdResponse, .free]
        | some found =>
            let id := atoi (found.drop 5)
            if !sent then [.respond upstreamFailed, .free]
            else [.send .attendService (attendTarget (base .attendService) id)
              ⟨.waitingAttend, ctx.name, id⟩]
    | .waitingAttend =>
        let attended := (strstr (cstr resp.body) (ascii "true")).isSome
        [.respond (.printed 200 (lookupBody ctx.name ctx.id attended)), .free]

/-- The TCP frontend sends a bare path. -/
def tcpBase (_ : Leaf) : Bytes := []

/-- The DPUmesh frontend sends a url. -/
def dpumeshBase (idServiceName attendServiceName space : Bytes) : Leaf → Bytes
  | .idService => ascii "http://" ++ idServiceName ++ ascii "." ++ space ++
      ascii ".svc.cluster.local"
  | .attendService => ascii "http://" ++ attendServiceName ++ ascii "." ++ space ++
      ascii ".svc.cluster.local"

/-! ### How a request of the frontend begins and ends -/

/-- The responses among some actions. -/
def responses (actions : List Action) : List Reply :=
  actions.filterMap fun
    | .respond reply => some reply
    | _ => none

/-- How often the context is freed. -/
def frees (actions : List Action) : Nat := actions.countP fun action => action = .free

/-- The upstream requests among some actions. -/
def sends (actions : List Action) : List (Leaf × Bytes × FrontendCtx) :=
  actions.filterMap fun
    | .send service target ctx => some (service, target, ctx)
    | _ => none

@[simp] theorem responses_append (first second : List Action) :
    responses (first ++ second) = responses first ++ responses second := List.filterMap_append

@[simp] theorem frees_append (first second : List Action) :
    frees (first ++ second) = frees first + frees second := List.countP_append

/-- A request is answered, or it waits for the id service. -/
theorem handleRequest_cases (base : Leaf → Bytes) (allocated sent : Bool) (req : HttpRequest) :
    (∃ reply, reply ∈ [notFound, missingName, allocFailed] ∧
      handleRequest base allocated sent req = [.respond reply]) ∨
    sent = false ∧ handleRequest base allocated sent req = [.free, .respond upstreamFailed] ∨
    sent = true ∧ ∃ name, queryGet req.query (ascii "name") 64 = some name ∧
      handleRequest base allocated sent req =
        [.send .idService (idTarget (base .idService) name) ⟨.waitingId, name, 0⟩] := by
  unfold handleRequest
  split
  · exact Or.inl ⟨notFound, by simp, rfl⟩
  · split
    · exact Or.inl ⟨missingName, by simp, rfl⟩
    · rename_i name found
      cases allocated with
      | false => exact Or.inl ⟨allocFailed, by simp, rfl⟩
      | true =>
          cases sent with
          | false => exact Or.inr (Or.inl ⟨rfl, rfl⟩)
          | true => exact Or.inr (Or.inr ⟨rfl, name, found, rfl⟩)

/-- An upstream response ends the request, or the id was found and the request
waits for the attendance. -/
theorem handleUpstreamResponse_cases (base : Leaf → Bytes) (sent : Bool) (ctx : FrontendCtx)
    (resp : HttpResponse) :
    (∃ reply, handleUpstreamResponse base sent ctx resp = [.respond reply, .free]) ∨
    ctx.stage = .waitingId ∧ ∃ id, handleUpstreamResponse base sent ctx resp =
      [.send .attendService (attendTarget (base .attendService) id)
        ⟨.waitingAttend, ctx.name, id⟩] := by
  unfold handleUpstreamResponse
  split
  · exact Or.inl ⟨_, rfl⟩
  · split
    · rename_i stage
      split
      · exact Or.inl ⟨_, rfl⟩
      · cases sent with
        | false => exact Or.inl ⟨_, rfl⟩
        | true => exact Or.inr ⟨stage, _, rfl⟩
    · exact Or.inl ⟨_, rfl⟩

end MiniMs.Service
