import MiniMs.Dpumesh.Worker
import MiniMs.Library.Run

/-!
A worker that answers requests: descriptors taken from the notify pipe, the
client conns made for them, and the responses built later for these conns.

Owns: the step relation of the callee, the metadata of a request, which
response each live conn would get, and the exact condition under which every
conn is answered with the metadata of its own request.

A conn remembers the metadata of the request it was made for; the code keeps
only `dpu_desc_index`, and no step reads the rest. What the handler computes is
not owned here: it decides only when, and with which status, it responds.
-/

namespace MiniMs.Dpumesh.Callee

open MiniMs.Library.Text MiniMs.Library.Run

/-! ### States and steps -/

/-- What a response must carry back. -/
structure Metadata where
  reqId : Nat
  reqIdStr : Bytes
  sourceWorker : Bytes
deriving DecidableEq, Repr

/-- The metadata of a request, as `on_request` is handed it. -/
def metadataOf (req : Request) : Metadata := ⟨req.reqId, req.reqIdStr, req.sourceWorker⟩

/-- `dpu_conn_t` of a client, with the request that it was made for. -/
structure Conn where
  dpuDescIndex : Nat
  origin : Metadata
deriving DecidableEq, Repr

/-- The conn that `on_request` makes. -/
def onRequest (req : Request) : Conn := ⟨req.descIndex, metadataOf req⟩

structure State where
  worker : Worker
  conns : List Conn
  answered : List (Conn × Outgoing)

def start (workerId : Bytes) (podId : Int) : State := ⟨Worker.init workerId podId, [], []⟩

/-- One descriptor read by `dpumesh_read`, one `dpumesh_conn_respond`, or one
`dpumesh_conn_upstream`. A read names what the pools and the stack hold at that
moment, and whether `on_request` came to call the handler. -/
inductive Event where
  | read (desc : SwDescriptor) (rx : RxPools) (junk : Bytes) (handed : Bool)
  | respond (position : Nat) (status : Int)
  | upstream (method url : Bytes)

def step (state : State) : Event → Option State
  | .read desc rx junk handed =>
      if desc.valid ≠ 1 then some state
      else
        let (worker, req) := dpumeshRead rx junk state.worker desc
        some { state with
          worker := worker
          conns := if handed then state.conns ++ [onRequest req] else state.conns }
  | .respond position status =>
      state.conns[position]?.map fun conn =>
        let (worker, response) := writeResponse state.worker conn.dpuDescIndex status
        { worker := worker
          conns := state.conns.eraseIdx position
          answered := state.answered ++ [(conn, response)] }
  | .upstream method url => some { state with worker := (writeRequest state.worker method url).1 }

/-! ### The property and the condition -/

/-- The response carries the metadata of the request. -/
def Carries (response : Outgoing) (origin : Metadata) : Prop :=
  response.reqId = origin.reqId ∧ response.reqIdStr = origin.reqIdStr ∧
    response.destWorker = origin.sourceWorker

instance (response : Outgoing) (origin : Metadata) : Decidable (Carries response origin) := by
  unfold Carries
  infer_instance

/-- Every response built so far, and every one that would be built next, is
that of its own conn. -/
structure OwnResponses (state : State) : Prop where
  answered : ∀ entry ∈ state.answered, Carries entry.2 entry.1.origin
  pending : ∀ conn ∈ state.conns, ∀ status,
    Carries (writeResponse state.worker conn.dpuDescIndex status).2 conn.origin

/-- A descriptor is taken only when no unanswered conn has its table index,
unless that conn's request has the very same metadata. -/
def IndexFree (state : State) : Event → Prop
  | .read desc rx junk _ =>
      desc.valid = 1 → ∀ conn ∈ state.conns, conn.dpuDescIndex = desc.reqId % maxPending →
        conn.origin = metadataOf (readRequest rx junk desc state.worker.buffers).2
  | _ => True

/-! ### One step -/

theorem step_read {state : State} {desc : SwDescriptor} (valid : desc.valid = 1) (rx : RxPools)
    (junk : Bytes) (handed : Bool) :
    step state (.read desc rx junk handed) = some { state with
      worker := (dpumeshRead rx junk state.worker desc).1
      conns := if handed then
          state.conns ++ [onRequest (dpumeshRead rx junk state.worker desc).2]
        else state.conns } := by
  simp [step, valid]

/-- A read leaves the buffers that its request points into. -/
theorem exists_reachable_read (state : State) (desc : SwDescriptor) (valid : desc.valid = 1)
    (rx : RxPools) (junk : Bytes) :
    ∃ next, Reachable step state next ∧
      next.worker.buffers = (readRequest rx junk desc state.worker.buffers).1 :=
  ⟨_, ⟨[.read desc rx junk true], run_cons.mpr ⟨_, step_read valid rx junk true, rfl⟩⟩, rfl⟩

/-- The response for an index carries what the inbound table holds there. -/
theorem carries_writeResponse {worker : Worker} {index : Nat} {status : Int} {origin : Metadata} :
    Carries (writeResponse worker index status).2 origin ↔
      (worker.inbound index).reqId = origin.reqId ∧
        (worker.inbound index).reqIdStr = origin.reqIdStr ∧
        (worker.inbound index).sourceWorker = origin.sourceWorker := Iff.rfl

/-- The inbound entry of a request holds its metadata uncut. -/
theorem inboundOf_readRequest (rx : RxPools) (junk : Bytes) (desc : SwDescriptor)
    (buffers : StaticBuffers) :
    let req := (readRequest rx junk desc buffers).2
    (inboundOf req).reqId = req.reqId ∧ (inboundOf req).reqIdStr = req.reqIdStr ∧
      (inboundOf req).sourceWorker = req.sourceWorker := by
  have fits := readRequest_fits rx junk desc buffers
  exact ⟨rfl, snprintf_eq_self fits.1, snprintf_eq_self fits.2⟩

/-- After a read, a conn at the index of the request would be answered with the
request's metadata, and any other conn as before. -/
theorem carries_after_read {rx : RxPools} {junk : Bytes} {worker : Worker} {desc : SwDescriptor}
    {index : Nat} {status : Int} {origin : Metadata} :
    Carries (writeResponse (dpumeshRead rx junk worker desc).1 index status).2 origin ↔
      if index = desc.reqId % maxPending then
        origin = metadataOf (readRequest rx junk desc worker.buffers).2
      else Carries (writeResponse worker index status).2 origin := by
  have place := readRequest_descIndex rx junk desc worker.buffers
  have stored := inboundOf_readRequest rx junk desc worker.buffers
  rw [carries_writeResponse, carries_writeResponse]
  unfold dpumeshRead
  dsimp only
  by_cases same : index = desc.reqId % maxPending
  · rw [if_pos same, place, same, Function.update_self, stored.1, stored.2.1, stored.2.2]
    cases origin
    simp only [metadataOf, Metadata.mk.injEq, eq_comm]
  · rw [if_neg same, place, Function.update_of_ne same]

/-- The new conn of a read would be answered with its own metadata. -/
theorem carries_new_conn (rx : RxPools) (junk : Bytes) (worker : Worker) (desc : SwDescriptor)
    (status : Int) :
    let conn := onRequest (dpumeshRead rx junk worker desc).2
    Carries (writeResponse (dpumeshRead rx junk worker desc).1 conn.dpuDescIndex status).2
      conn.origin := by
  have place : (dpumeshRead rx junk worker desc).2.descIndex = desc.reqId % maxPending :=
    readRequest_descIndex rx junk desc worker.buffers
  show Carries (writeResponse _ (dpumeshRead rx junk worker desc).2.descIndex status).2 _
  rw [place, carries_after_read, if_pos rfl]
  rfl

/-- Responding changes only the `active` flag of the table. -/
theorem carries_after_respond {worker : Worker} {index other : Nat} {status later : Int}
    {origin : Metadata} :
    Carries (writeResponse (writeResponse worker other status).1 index later).2 origin ↔
      Carries (writeResponse worker index later).2 origin := by
  rw [carries_writeResponse, carries_writeResponse]
  unfold writeResponse
  dsimp only
  by_cases same : index = other
  · rw [same, Function.update_self]
  · rw [Function.update_of_ne same]

/-- A read keeps the property exactly if it finds its index free. -/
theorem ownResponses_read_iff {state : State} {desc : SwDescriptor} {rx : RxPools} {junk : Bytes}
    {handed : Bool} {next : State} (own : OwnResponses state)
    (taken : step state (.read desc rx junk handed) = some next) :
    OwnResponses next ↔ IndexFree state (.read desc rx junk handed) := by
  by_cases valid : desc.valid = 1
  · rw [step_read valid] at taken
    have same := Option.some.inj taken
    subst same
    constructor
    · intro later _ conn member index
      have kept : conn ∈ (if handed then
          state.conns ++ [onRequest (dpumeshRead rx junk state.worker desc).2]
          else state.conns) := by
        split
        · exact List.mem_append_left _ member
        · exact member
      have carries := later.pending conn kept 0
      rwa [carries_after_read, if_pos index] at carries
    · intro free
      refine ⟨own.answered, ?_⟩
      intro conn member status
      have cases : conn ∈ state.conns ∨
          conn = onRequest (dpumeshRead rx junk state.worker desc).2 := by
        dsimp only at member
        split at member
        · simpa using member
        · exact Or.inl member
      rcases cases with old | new
      · rw [carries_after_read]
        split
        · exact free valid conn old ‹_›
        · exact own.pending conn old status
      · rw [new]
        exact carries_new_conn rx junk state.worker desc status
  · have same : next = state := by simpa [step, valid] using taken.symm
    subst same
    exact ⟨fun _ held => absurd held valid, fun _ => own⟩

theorem ownResponses_respond {state next : State} {position : Nat} {status : Int}
    (own : OwnResponses state) (taken : step state (.respond position status) = some next) :
    OwnResponses next := by
  obtain ⟨conn, found, same⟩ := Option.map_eq_some_iff.mp taken
  have member : conn ∈ state.conns := List.mem_of_getElem? found
  subst same
  constructor
  · intro entry occurs
    rcases List.mem_append.mp occurs with old | new
    · exact own.answered entry old
    · rw [List.mem_singleton.mp new]
      exact own.pending conn member status
  · intro other occurs later
    rw [carries_after_respond]
    exact own.pending other (List.mem_of_mem_eraseIdx occurs) later

/-- Every step keeps the property exactly if it meets the condition. -/
theorem ownResponses_step_iff (state : State) (event : Event) (next : State)
    (own : OwnResponses state) (taken : step state event = some next) :
    OwnResponses next ↔ IndexFree state event := by
  cases event with
  | read desc rx junk handed => exact ownResponses_read_iff own taken
  | respond position status => exact iff_of_true (ownResponses_respond own taken) trivial
  | upstream method url =>
      have same := Option.some.inj taken
      subst same
      exact iff_of_true ⟨own.answered, own.pending⟩ trivial

/-! ### Runs -/

theorem ownResponses_start (workerId : Bytes) (podId : Int) :
    OwnResponses (start workerId podId) := by
  constructor
  · exact fun _ member => absurd member List.not_mem_nil
  · exact fun _ member => absurd member List.not_mem_nil

/-- In every run of a worker, each conn is answered with the metadata of its
own request in every state reached, exactly if each request that is taken finds
its table index free. -/
theorem responses_own_iff_index_free (workerId : Bytes) (podId : Int) (events : List Event) :
    Throughout step OwnResponses (start workerId podId) events ↔
      EachStep step IndexFree (start workerId podId) events :=
  throughout_iff_eachStep ownResponses_step_iff (ownResponses_start workerId podId) events

/-! ### Two bridge requests at once -/

/-- The combined text of a bridge request for `GET /lookup`. -/
def bridgeText (uuid : String) : Bytes :=
  ascii "\x7b\"header\": \x7b\"method\": \"GET\", \"url\": \"http://s0/lookup\", " ++
    ascii "\"path\": \"/lookup\", \"headers\": \x7b\x7d, \"query_string\": \"\", " ++
    ascii "\"remote_addr\": \"10.0.0.1\", \"status_code\": 0, \"req_id_str\": \"" ++
    ascii uuid ++ ascii "\", \"source_worker\": \"\", " ++
    ascii "\"dest_worker\": \"s0-worker-0\"\x7d, \"body\": \"\"\x7d"

/-- The read of a bridge request that lies in slot 0. -/
def bridgeRead (uuid : String) : Event :=
  .read { bodyBufSlot := 0, bodyLen := (bridgeText uuid).length, flags := caseIngress, valid := 1 }
    ⟨.zeroed, BufferPool.zeroed.copyIn (BufferPool.offset 0) (bridgeText uuid)⟩ [] true

/-- Two bridge requests, and the answer to the first of them. -/
def twoBridgeRequests : List Event :=
  [bridgeRead "aaaaaaaa-0000-4000-8000-000000000000",
    bridgeRead "bbbbbbbb-0000-4000-8000-000000000000", .respond 0 200]

/-- Every bridge request has `req_id` 0: the first of two that wait together is
answered with the uuid of the second. -/
theorem responses_not_own :
    ¬ ∀ (workerId : Bytes) (podId : Int) (events : List Event),
      Throughout step OwnResponses (start workerId podId) events := by
  intro claim
  have own := claim (ascii "s0-worker-0") 1 twoBridgeRequests
  have reached : ∃ final, run step (start (ascii "s0-worker-0") 1) twoBridgeRequests = some final :=
    ⟨_, rfl⟩
  obtain ⟨final, runs⟩ := reached
  have answered := (own.last runs).answered
  have wrong : ((run step (start (ascii "s0-worker-0") 1) twoBridgeRequests).map fun final =>
      decide (∀ entry ∈ final.answered, Carries entry.2 entry.1.origin)) = some false := by
    decide +kernel
  rw [runs] at wrong
  exact of_decide_eq_false (Option.some.inj wrong) answered

end MiniMs.Dpumesh.Callee
