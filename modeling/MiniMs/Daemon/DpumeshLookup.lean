import MiniMs.Daemon.BridgeFraming
import MiniMs.Daemon.BridgeResponse
import MiniMs.Daemon.Exchange
import MiniMs.Daemon.IngressRow

/-!
The lookup over DPUmesh: from the bytes that a client of the bridge sends to the
bytes that it gets.

Owns: the deployment that a lookup passes, the way of one request over the bridge,
the frontend, two exchanges with the leaf services and the response, and the
theorem that the client reads the join of the two stores.

Other requests are under way nowhere, and every pool has a free slot.
-/

namespace MiniMs.Daemon.DpumeshLookup

open MiniMs.Http MiniMs.Dpumesh MiniMs.Library.Text MiniMs.Library.Json MiniMs.Library.Number
open MiniMs.Service MiniMs.Daemon.Exchange MiniMs.Daemon.BridgeFraming

/-! ### The deployment -/

/-- The host of a service in a namespace. -/
def clusterHost (service space : Bytes) : Bytes :=
  service ++ ascii "." ++ space ++ ascii ".svc.cluster.local"

/-- The services of a lookup, with all that a request finds on its way. -/
structure Deployment where
  node : Node
  /-- `NAMESPACE`, and `ID_SERVICE_NAME` or `ATTEND_SERVICE_NAME`. -/
  space : Bytes
  serviceName : Leaf → Bytes
  /-- The RX pools of the frontend, the slot that the DPA gets there for the combined
  text, and `header_json` on the frontend's stack. -/
  rx : RxPools
  hostSlot : Fin numSlots
  junk : Bytes
  /-- What stands ready for the exchanges, and for the response to the bridge. -/
  there : Leaf → Passage
  back : Leaf → Passage
  home : Passage
  /-- The requests of other clients that wait. -/
  waiting : List PyStr

namespace Deployment

variable (deployment : Deployment) (stores : Leaf → KvStore)

def base : Leaf → Bytes :=
  dpumeshBase (deployment.serviceName .idService) (deployment.serviceName .attendService)
    deployment.space

/-- The frontend when it calls a service. Its call of `attend_service` is the second
one; the url of the first does not matter for that. -/
def callerTo (front : Worker) : Leaf → Worker
  | .idService => front
  | .attendService => (writeRequest front (ascii "GET") []).1

def exchange (front : Worker) (leaf : Leaf) (url : Bytes) : Option HttpResponse :=
  dpumeshExchange deployment.node (deployment.there leaf) (deployment.back leaf) stores
    (callerTo front leaf) url

/-- The reply of a worker to a request that came over the bridge. -/
def reply (app : App) (worker : Worker) (req : HttpRequest) : Option Reply :=
  match app with
  | .frontend => lookupReply deployment.base (deployment.exchange stores worker) req
  | .leaf leaf => some (leaf.service.handleRequest (stores leaf) req)

/-- `dpumesh_conn_respond` of a worker up to `conn.sendall` of the bridge. -/
def respondHome (uuid : Uuid) (worker : Worker) (descIndex : Nat) (reply : Reply) : Option Bytes :=
  (deployment.home.write worker.podId (writeResponse worker descIndex reply.status).2
      (some reply.body)).bind fun (pools, sent) =>
    routedReply deployment.node.float deployment.node.getPodId
      (ofAscii uuid.text :: deployment.waiting) (deployment.home.dpuHeader pools sent) pools sent
      deployment.home.dpuSlot.val

/-- What a client is sent for a request that the bridge has put. -/
def serve (uuid : Uuid) (desc : SwDescriptor) (text : Bytes) : Option Bytes :=
  (deployment.node.workerAt desc.dstPodId).bind fun (app, worker) =>
    let (worker, req) := dpumeshRead
      (deliveredRx deployment.rx.rxHeader deployment.rx.rxBody deployment.hostSlot text)
      deployment.junk worker (deliveredDesc desc deployment.hostSlot)
    (onRequest req).bind fun http =>
      (deployment.reply stores app worker http).bind fun reply =>
        deployment.respondHome uuid worker req.descIndex reply

end Deployment

/-- The bytes that a client of the bridge gets for the bytes that it sent. -/
def dpumeshLookup (deployment : Deployment) (stores : Leaf → KvStore) (env : BridgeEnv) (uuid : Uuid)
    (slot : Int) (reads : List Bytes) : Option Bytes :=
  match receiveLoop deployment.node.float [] reads with
  | .processed (.object client) _ =>
      match handleBridgeClient env client uuid slot with
      | .sent desc text => deployment.serve stores uuid desc text
      | _ => none
  | _ => none

/-! ### A deployment that is ready -/

/-- The workers are registered, and the names of the two services lead to theirs.
`id_service_name` and `attend_service_name` have 64 bytes, a namespace is a label. -/
structure Ready (deployment : Deployment) (front : Worker) (callee : Leaf → Worker) : Prop where
  front_known : Known deployment.node front
  serves : ∀ leaf, Serves deployment.node
    (clusterHost (deployment.serviceName leaf) deployment.space) leaf (callee leaf)
  name_fits : ∀ leaf, (deployment.serviceName leaf).length ≤ 63
  space_fits : deployment.space.length ≤ 63

/-- A request for a lookup, as the bridge sends it. -/
structure LookupRequest (lookup : LookupName) extends IngressRequest where
  method_get : method.bytes = ascii "GET"
  path_lookup : path.bytes = ascii "/lookup"
  query_name : queryString.bytes = ascii "name" ++ 61 :: lookup.name
  body_empty : body.bytes = []

/-- A worker is known by its name and its pod id alone. -/
theorem known_of_same {node : Node} {worker other : Worker} (known : Known node worker)
    (workerId : other.workerId = worker.workerId) (podId : other.podId = worker.podId) :
    Known node other where
  clean := by
    rw [workerId]
    exact known.clean
  nonempty := by
    rw [workerId]
    exact known.nonempty
  fits := by
    rw [workerId]
    exact known.fits
  podId := by
    rw [workerId, podId]
    exact known.podId
  podId_nonneg := by
    rw [podId]
    exact known.podId_nonneg

/-! ### The exchanges -/

section Exchanges

variable {deployment : Deployment} {front : Worker} {callee : Leaf → Worker}

/-- The url of a key at a leaf service, as the frontend prints it. -/
theorem url_eq (ready : Ready deployment front callee) (leaf : Leaf) (key : Bytes) :
    ascii "http://" ++ deployment.serviceName leaf ++ ascii "." ++ deployment.space ++
        ascii ".svc.cluster.local" ++ leaf.service.path ++ 63 :: (leaf.service.key ++ 61 :: key) =
      (leafUrl _ (ready.serves leaf).plain leaf key).text := by
  have scheme : ascii "http://" = ascii "http" ++ ascii "://" := by decide
  show _ = ascii "http" ++ ascii "://" ++ clusterHost (deployment.serviceName leaf) deployment.space ++
    leaf.service.path ++ 63 :: (leaf.service.key ++ 61 :: key)
  unfold clusterHost
  rw [scheme]
  simp only [List.append_assoc]

theorem length_url (ready : Ready deployment front callee) (leaf : Leaf) {key : Bytes}
    (fits : key.length ≤ 63) :
    (leafUrl _ (ready.serves leaf).plain leaf key).text.length ≤ 255 := by
  have name := ready.name_fits leaf
  have space := ready.space_fits
  have pieces : (ascii "http://").length = 7 ∧ (ascii ".").length = 1 ∧
      (ascii ".svc.cluster.local").length = 18 := by
    decide
  obtain ⟨scheme, dot, cluster⟩ := pieces
  have path : leaf.service.path.length + leaf.service.key.length ≤ 9 := by
    cases leaf with
    | idService => decide
    | attendService => decide
  rw [← url_eq ready leaf key]
  simp only [List.length_append, List.length_cons, scheme, dot, cluster]
  omega

theorem idTarget_eq (ready : Ready deployment front callee) {name : Bytes}
    (fits : name.length ≤ 63) :
    idTarget (deployment.base .idService) name =
      (leafUrl _ (ready.serves .idService).plain .idService name).text := by
  have target : ascii "/id?name=" = ascii "/id" ++ 63 :: (ascii "name" ++ [61]) := by decide
  have short := length_url ready .idService fits
  have shape : deployment.base .idService ++ ascii "/id?name=" ++ name =
      (leafUrl _ (ready.serves .idService).plain .idService name).text := by
    rw [← url_eq ready .idService name, target]
    show ascii "http://" ++ _ ++ ascii "." ++ _ ++ ascii ".svc.cluster.local" ++ _ ++ name =
      _ ++ ascii "/id" ++ 63 :: (ascii "name" ++ 61 :: name)
    simp only [List.append_assoc, List.cons_append, List.nil_append]
  unfold idTarget
  rw [shape]
  exact snprintf_eq_self (by omega)

theorem attendTarget_eq (ready : Ready deployment front callee) {id : Int}
    (fits : (decimalInt id).length ≤ 63) :
    attendTarget (deployment.base .attendService) id =
      (leafUrl _ (ready.serves .attendService).plain .attendService (decimalInt id)).text := by
  have target : ascii "/attend?id=" = ascii "/attend" ++ 63 :: (ascii "id" ++ [61]) := by decide
  have short := length_url ready .attendService fits
  have shape : deployment.base .attendService ++ ascii "/attend?id=" ++ decimalInt id =
      (leafUrl _ (ready.serves .attendService).plain .attendService (decimalInt id)).text := by
    rw [← url_eq ready .attendService (decimalInt id), target]
    show ascii "http://" ++ _ ++ ascii "." ++ _ ++ ascii ".svc.cluster.local" ++ _ ++ decimalInt id =
      _ ++ ascii "/attend" ++ 63 :: (ascii "id" ++ 61 :: decimalInt id)
    simp only [List.append_assoc, List.cons_append, List.nil_append]
  unfold attendTarget
  rw [shape]
  exact snprintf_eq_self (by omega)

theorem cleanBytes_decimalInt (value : Int) : CleanBytes (decimalInt value) := by
  apply cleanBytes_of_ascii
  intro byte member
  rcases mem_decimalInt member with minus | digit
  · rw [minus]
    decide
  · have range := isDigit_range digit
    refine ⟨UInt8.le_iff_toNat_le.mpr ?_, UInt8.lt_iff_toNat_lt.mpr ?_, isDigit_ne digit (by decide),
      isDigit_ne digit (by decide)⟩
    · show 32 ≤ byte.toNat
      omega
    · show byte.toNat < 128
      omega

variable (stores : Leaf → KvStore) (lookup : LookupName)

/-- The first exchange brings what `id_service` replies to the name. -/
theorem exchange_id (ready : Ready deployment front callee) (clean : CleanBytes lookup.name) :
    deployment.exchange stores front .idService
        (idTarget (deployment.base .idService) lookup.name) =
      some (leafResponse .idService (stores .idService) lookup.name) := by
  rw [idTarget_eq ready lookup.fits]
  exact dpumeshExchange_eq _ _ stores ready.front_known (ready.serves .idService) clean lookup.plain
    (Nat.lt_succ_of_le lookup.fits) lookup.fits

/-- The second exchange brings what `attend_service` replies to the id. -/
theorem exchange_attend (ready : Ready deployment front callee) {id : Int}
    (low : -(2 ^ 31) ≤ id) (high : id < 2 ^ 31) :
    deployment.exchange stores front .attendService
        (attendTarget (deployment.base .attendService) id) =
      some (leafResponse .attendService (stores .attendService) (decimalInt id)) := by
  have fits := length_decimalInt_le low high
  have short : (decimalInt id).length < Leaf.attendService.service.outsz := by
    show (decimalInt id).length < 32
    omega
  have second : Known deployment.node (Deployment.callerTo front .attendService) :=
    known_of_same ready.front_known rfl rfl
  rw [attendTarget_eq ready (by omega)]
  exact dpumeshExchange_eq _ _ stores second (ready.serves .attendService) (cleanBytes_decimalInt id)
    (Tcp.plain_decimalInt id) short (by omega)

/-- The frontend's reply to a lookup is the join. -/
theorem reply_joined (ready : Ready deployment front callee) (clean : CleanBytes lookup.name) :
    ∃ reply, deployment.reply stores .frontend front (Tcp.lookupLine lookup).request = some reply ∧
      (reply.status, reply.body) = joined stores lookup.name ∧ reply.Sound := by
  apply @lookupReply_joined _ _ stores lookup _ rfl rfl rfl
  · exact exchange_id stores lookup ready clean
  · intro id found
    obtain ⟨low, high⟩ := kvStoreGet_range found
    exact exchange_attend stores ready low high

end Exchanges

/-! ### At the frontend -/

/-- A worker that has read a request of the bridge hands it over as the client made
it, and keeps the uuid. -/
structure Understood (request : IngressRequest) (worker : Worker) (read : Worker × Request) :
    Prop where
  method : read.2.method = some request.method.bytes
  path : read.2.path = some request.path.bytes
  queryString : read.2.queryString = some request.queryString.bytes
  body : read.2.body = some request.body.bytes
  descIndex : read.2.descIndex = 0
  reqIdStr : (read.1.inbound 0).reqIdStr = request.uuid.text
  sourceWorker : (read.1.inbound 0).sourceWorker = []
  workerId : read.1.workerId = worker.workerId
  podId : read.1.podId = worker.podId

/-- Whatever a worker has done before, it understands a request that comes across. -/
theorem understood {request : IngressRequest} (intact : Intact request)
    (shielded : RoutingShielded request.env request.client) (rx : RxPools) (junk : Bytes)
    (worker : Worker) (hostSlot : Fin numSlots) :
    Understood request worker (dpumeshRead
      (deliveredRx rx.rxHeader rx.rxBody hostSlot request.combined) junk worker
      (deliveredDesc request.desc hostSlot)) := by
  have read := request.readRequest_eq rx.rxHeader rx.rxBody junk worker.buffers hostSlot
  rw [request.method_iff.mpr intact.method, request.path_iff.mpr intact.path,
    request.queryString_iff.mpr intact.queryString, request.body_iff.mpr intact.body] at read
  obtain ⟨method, path, queryString, body⟩ := read
  have stored := storesTrusted_of_routingShielded shielded request.uuid request.slot request.desc
    request.combined request.sent rx.rxHeader rx.rxBody junk worker hostSlot
  have index := readRequest_descIndex (deliveredRx rx.rxHeader rx.rxBody hostSlot request.combined)
    junk (deliveredDesc request.desc hostSlot) worker.buffers
  obtain ⟨_, _, podId, -, -, -, -, sameDesc, -⟩ := sent_inversion request.sent
  have zero : (deliveredDesc request.desc hostSlot).reqId % maxPending = 0 := by
    rw [sameDesc]
    rfl
  exact ⟨method, path, queryString, body, index.trans zero, stored.1, stored.2, rfl, rfl⟩

/-- The request handler of the frontend is given the lookup. -/
theorem onRequest_lookup {lookup : LookupName} (request : LookupRequest lookup) {worker : Worker}
    {read : Worker × Request} (understood : Understood request.toIngressRequest worker read) :
    onRequest read.2 = some (Tcp.lookupLine lookup).request := by
  have method := understood.method
  have path := understood.path
  have query := understood.queryString
  have body := understood.body
  rw [request.method_get] at method
  rw [request.path_lookup] at path
  rw [request.query_name] at query
  rw [request.body_empty] at body
  have empty : requestBody read.2 = [] := by
    unfold requestBody
    rw [body]
    rfl
  have nonempty : (Tcp.lookupLine lookup).query ≠ [] := by
    show ascii "name" ++ 61 :: lookup.name ≠ []
    simp
  have query_plain : 10 ∉ (Tcp.lookupLine lookup).query := by
    show 10 ∉ ascii "name" ++ 61 :: lookup.name
    rw [List.mem_append, List.mem_cons, not_or, not_or]
    exact ⟨by decide, by decide, fun member => (lookup.plain 10 member).2.2.2.1 rfl⟩
  exact onRequest_line rfl (by show 10 ∉ ascii "/lookup"; decide) query_plain method path query
    nonempty empty

/-! ### Back to the client -/

/-- A client that waits reads the status and the body of a reply. -/
theorem respondHome_served (deployment : Deployment) {request : IngressRequest}
    {served : Worker} {reply : Reply} {text : PyStr}
    (stored : (served.inbound 0).reqIdStr = request.uuid.text ∧
      (served.inbound 0).sourceWorker = [])
    (clean : CleanBytes served.workerId) (fits : served.workerId.length ≤ 127)
    (sound : reply.Sound) (utf8 : encode text = some reply.body) (nonempty : reply.body ≠ []) :
    ∃ bytes members, deployment.respondHome request.uuid served 0 reply = some bytes ∧
      clientReads deployment.node.float bytes = some members ∧ Reads members reply.status text := by
  have reqIdStr : (served.inbound 0).reqIdStr.length < 64 := by
    have length : request.uuid.text.length = 36 := request.uuid.length
    rw [stored.1]
    omega
  have sourceWorker : (served.inbound 0).sourceWorker.length < 128 := by
    rw [stored.2]
    decide
  let answer : Answer := answerOf sound utf8 (by omega) reqIdStr sourceWorker
  obtain ⟨pools, sent, wrote, written, puts⟩ := exists_answered deployment.home answer
  have routed : AtRouter pools sent (deployment.home.dpuHeader pools sent)
      deployment.home.dpuSlot.val := by
    refine ⟨(slot_range deployment.home.dpuSlot).1, ?_⟩
    rw [written.dpuHeader Answer.header_short]
    exact written.header.symm
  have bridge : FromBridge answer request.uuid := ⟨stored.1, stored.2⟩
  have reply_served : Served deployment.node.float answer
      (routedReply deployment.node.float deployment.node.getPodId
        (ofAscii request.uuid.text :: deployment.waiting) (deployment.home.dpuHeader pools sent) pools
        sent deployment.home.dpuSlot.val) :=
    (served_iff puts routed bridge clean List.mem_cons_self).mpr nonempty
  obtain ⟨bytes, members, sent_bytes, read, reads⟩ := reply_served
  refine ⟨bytes, members, ?_, read, reads⟩
  have called : deployment.home.write served.podId (writeResponse served 0 reply.status).2
      (some reply.body) = some (pools, sent) := wrote
  unfold Deployment.respondHome
  rw [called, Option.bind_some]
  exact sent_bytes

/-! ### The lookup -/

/-- A join is an ASCII text where the name is one. -/
theorem ascii_joined (stores : Leaf → KvStore) {name : Bytes} (low : ∀ byte ∈ name, byte < 128) :
    (joined stores name).2 ≠ [] ∧ ∀ byte ∈ (joined stores name).2, byte < 128 := by
  unfold joined
  cases kvStoreGet (stores .idService) name with
  | none =>
      show nameNotFound.body ≠ [] ∧ ∀ byte ∈ nameNotFound.body, byte < 128
      exact ⟨by decide, forall_mem_of_all (by decide)⟩
  | some id =>
      dsimp only
      cases kvStoreGet (stores .attendService) (decimalInt id) with
      | none =>
          show idNotFound.body ≠ [] ∧ ∀ byte ∈ idNotFound.body, byte < 128
          exact ⟨by decide, forall_mem_of_all (by decide)⟩
      | some attended =>
          have first : ∀ byte ∈ ascii "\x7b\"name\":\"", byte < 128 := forall_mem_of_all (by decide)
          have second : ∀ byte ∈ ascii "\",\"id\":", byte < 128 := forall_mem_of_all (by decide)
          have third : ∀ byte ∈ ascii ",\"attended\":", byte < 128 := forall_mem_of_all (by decide)
          have word : ∀ byte ∈ (if decide (attended ≠ 0) then ascii "true" else ascii "false"),
              byte < 128 := by
            split
            · exact forall_mem_of_all (by decide)
            · exact forall_mem_of_all (by decide)
          have last : ∀ byte ∈ ascii "\x7d", byte < 128 := forall_mem_of_all (by decide)
          dsimp only
          refine ⟨List.cons_ne_nil _ _, ?_⟩
          unfold lookupBody
          simp only [List.forall_mem_append]
          exact ⟨⟨⟨⟨⟨⟨first, low⟩, second⟩, low_decimalInt id⟩, third⟩, word⟩, last⟩

def firstWorker (app : String) (podId : Int) : Worker :=
  Worker.init (ascii app ++ ascii "-worker-0") podId

/-- One worker of each service. -/
def oneWorkerEach : Node where
  float := fun _ => integerNumeral []
  select := fun service =>
    if service = lit "frontend" then some (lit "frontend-worker-0", 0)
    else if service = lit "id-service" then some (lit "id-service-worker-0", 1)
    else if service = lit "attend-service" then some (lit "attend-service-worker-0", 2)
    else none
  getPodId := fun name =>
    if dumps name = quoted (lit "frontend-worker-0") then 0
    else if dumps name = quoted (lit "id-service-worker-0") then 1
    else if dumps name = quoted (lit "attend-service-worker-0") then 2
    else -1
  workerAt := fun podId =>
    if podId = 0 then some (.frontend, firstWorker "frontend" 0)
    else if podId = 1 then some (.leaf .idService, firstWorker "id-service" 1)
    else if podId = 2 then some (.leaf .attendService, firstWorker "attend-service" 2)
    else none

/-- Pools and rings that nobody uses. -/
def idlePassage : Passage where
  pools := ⟨.zeroed, .zeroed⟩
  ring := []
  stack := fun _ => 0
  dpuTxHeader := .zeroed
  dpuSlot := ⟨0, by decide⟩
  rx := ⟨.zeroed, .zeroed⟩
  headerSlot := ⟨0, by decide⟩
  bodySlot := ⟨0, by decide⟩
  junk := []
  header_free := by decide
  body_free := by decide
  ring_room := by decide

def idleName : Leaf → Bytes
  | .idService => ascii "id-service"
  | .attendService => ascii "attend-service"

def idleCallee : Leaf → Worker
  | .idService => firstWorker "id-service" 1
  | .attendService => firstWorker "attend-service" 2

def idleDeployment : Deployment where
  node := oneWorkerEach
  space := ascii "mini-ms-dpumesh"
  serviceName := idleName
  rx := ⟨.zeroed, .zeroed⟩
  hostSlot := ⟨0, by decide⟩
  junk := []
  there := fun _ => idlePassage
  back := fun _ => idlePassage
  home := idlePassage
  waiting := []

/-- The object of a test client. -/
def testClient : List (PyStr × Value) :=
  [(lit "method", .string (lit "GET")), (lit "path", .string (lit "/lookup")),
    (lit "target_service", .string (lit "frontend")),
    (lit "query_string", .string (lit "name=bob")), (lit "body", .string (lit ""))]

theorem lookupPath_fits : (ascii "/lookup").length ≤ 255 := by decide

def testRequest : PlainRequest where
  env :=
    { space := lit "mini-ms-dpumesh"
      select := oneWorkerEach.select
      str := fun _ => []
      remoteAddr := lit "10.0.0.1" }
  client := testClient
  method := ascii "GET"
  url := ascii "http://frontend.mini-ms-dpumesh.svc.cluster.local/lookup"
  path := ascii "/lookup"
  queryString := ascii "name=bob"
  remoteAddr := ascii "10.0.0.1"
  worker := ascii "frontend-worker-0"
  podId := 0
  body := []
  method_eq := rfl
  path_eq := rfl
  headers_eq := rfl
  queryString_eq := rfl
  body_eq := rfl
  url_eq := rfl
  remoteAddr_eq := rfl
  selected := rfl
  bare := by
    simp only [List.forall_mem_cons]
    exact ⟨forall_mem_of_all (by decide), forall_mem_of_all (by decide), forall_mem_of_all (by decide),
      forall_mem_of_all (by decide), forall_mem_of_all (by decide), forall_mem_of_all (by decide),
      List.forall_mem_nil _, List.forall_mem_nil _⟩
  method_fits := by decide
  path_fits := lookupPath_fits
  queryString_fits := by decide
  header_fits := by decide
  body_fits := Nat.zero_le _

def bob : LookupName := ⟨ascii "bob", by decide, forall_mem_of_all (by decide)⟩

def bobRequest : LookupRequest bob where
  toIngressRequest := testRequest.toIngress firstUuid ⟨0, by decide⟩
  method_get := rfl
  path_lookup := rfl
  query_name := rfl
  body_empty := rfl

theorem ready_idle : Ready idleDeployment (firstWorker "frontend" 0) idleCallee where
  front_known :=
    { clean := cleanBytes_of_ascii (forall_mem_of_all (by decide))
      nonempty := by decide
      fits := by decide
      podId := by
        intro text encoded
        obtain rfl : text = lit "frontend-worker-0" := encode_inj encoded (encode_lit _)
        decide
      podId_nonneg := by decide }
  serves := by
    intro leaf
    cases leaf with
    | idService =>
        exact
          { plain := by decide
            clean := cleanBytes_of_ascii (forall_mem_of_all (by decide))
            fits := by decide
            selected := ⟨lit "id-service.mini-ms-dpumesh.svc.cluster.local",
              lit "id-service-worker-0", 1, encode_lit _, by decide, rfl⟩
            workerId_clean := cleanBytes_of_ascii (forall_mem_of_all (by decide))
            workerId_fits := by decide }
    | attendService =>
        exact
          { plain := by decide
            clean := cleanBytes_of_ascii (forall_mem_of_all (by decide))
            fits := by decide
            selected := ⟨lit "attend-service.mini-ms-dpumesh.svc.cluster.local",
              lit "attend-service-worker-0", 2, encode_lit _, by decide, rfl⟩
            workerId_clean := cleanBytes_of_ascii (forall_mem_of_all (by decide))
            workerId_fits := by decide }
  name_fits := by
    intro leaf
    cases leaf with
    | idService => decide
    | attendService => decide
  space_fits := by decide

/-- One `recv` brings the whole object. -/
theorem receiveLoop_testClient : receiveLoop oneWorkerEach.float [] [dumps (.object testClient)] =
    .processed (.object testClient) [] := by
  have readable : ∀ member ∈ testClient, Readable oneWorkerEach.float member := by
    have strings : ∀ {key text : String},
        Readable oneWorkerEach.float (lit key, .string (lit text)) := by
      intro key text
      refine ⟨scalars_of_encode (encode_lit key), ?_⟩
      rw [dumps]
      exact scans_quoted _ (scalars_of_encode (encode_lit text))
    unfold testClient
    simp only [List.forall_mem_cons]
    exact ⟨strings, strings, strings, strings, strings, List.forall_mem_nil _⟩
  apply receiveLoop_last (by decide +kernel)
  · rw [List.nil_append]
    exact decode_dumps _
  · exact loads_dumps (by decide) readable

end MiniMs.Daemon.DpumeshLookup
