import MiniMs.Dpumesh.Handler
import MiniMs.Dpumesh.Send
import MiniMs.Library.Owners
import MiniMs.Library.Run
import MiniMs.Service.Handlers

/-!
The event loop of a worker on DPUmesh, beside its poller thread: the conns of
the requests that were read, and the upstream conns that point back at them.

Owns: `on_request`, `on_upstream_response_cb`, `dpumesh_conn_respond` and
`dpumesh_conn_upstream` over the table of live conns and the descriptors of the
process, one step for each event; that no run frees a conn or closes a
descriptor twice; and the exact condition under which every request is answered.

A callback is one step, and the poller thread goes on between them, call by
call. A conn that was freed is gone from the table; a callback that would act on
it, or close a descriptor that is not open, leaves the loop faulted, and nothing
follows. A context belongs to the upstream conn that it was given to.
-/

namespace MiniMs.Dpumesh.EventLoop

open MiniMs.Http MiniMs.Library.Owners MiniMs.Library.Run MiniMs.Library.Text MiniMs.Service
open MiniMs.Dpumesh.Send

/-! ### The handlers of a service -/

/-- What a handler does about its conn: it answers, or it waits for an upstream
request that was accepted. -/
inductive OneCall (sent : Bool) : List Action → Prop where
  | reply (reply : Reply) : OneCall sent [.respond reply]
  | freed (reply : Reply) : OneCall sent [.free, .respond reply]
  | freeing (reply : Reply) : OneCall sent [.respond reply, .free]
  | asks (leaf : Leaf) (target : Bytes) (ctx : FrontendCtx) (accepted : sent = true) :
      OneCall sent [.send leaf target ctx]

/-- The request handler of a service, and its upstream handler, if it has one. -/
structure Handlers where
  request : Bool → Bool → HttpRequest → List Action
  upstream : Option (Bool → FrontendCtx → HttpResponse → List Action)
  request_once : ∀ allocated sent req, OneCall sent (request allocated sent req)
  upstream_once : ∀ handler ∈ upstream, ∀ sent ctx resp, OneCall sent (handler sent ctx resp)

theorem handleRequest_once (base : Leaf → Bytes) (allocated sent : Bool) (req : HttpRequest) :
    OneCall sent (handleRequest base allocated sent req) := by
  rcases handleRequest_cases base allocated sent req with
    ⟨reply, -, ends⟩ | ⟨-, refused⟩ | ⟨accepted, name, -, asks⟩
  · rw [ends]
    exact .reply reply
  · rw [refused]
    exact .freed upstreamFailed
  · rw [asks]
    exact .asks _ _ _ accepted

theorem handleUpstreamResponse_once (base : Leaf → Bytes) (sent : Bool) (ctx : FrontendCtx)
    (resp : HttpResponse) : OneCall sent (handleUpstreamResponse base sent ctx resp) := by
  unfold handleUpstreamResponse
  split
  · exact .freeing _
  · split
    · split
      · exact .freeing badIdResponse
      · cases sent with
        | false => exact .freeing upstreamFailed
        | true => exact .asks _ _ _ rfl
    · exact .freeing _

/-- The handlers of the frontend. -/
def frontendHandlers (base : Leaf → Bytes) : Handlers where
  request := handleRequest base
  upstream := some (handleUpstreamResponse base)
  request_once := handleRequest_once base
  upstream_once := by
    intro handler member
    obtain rfl := Option.mem_some.mp member
    exact handleUpstreamResponse_once base

/-- The handlers of a leaf service: it asks nobody. -/
def leafHandlers (service : LeafService) (store : KvStore) : Handlers where
  request := fun _ _ req => [.respond (service.handleRequest store req)]
  upstream := none
  request_once := fun _ _ req => .reply (service.handleRequest store req)
  upstream_once := fun _ member => absurd member (Option.not_mem_none _)

/-! ### The conns -/

/-- An upstream conn, with its `client_conn`, its `handler_ctx` and its `fd`. -/
structure Pending where
  client : Nat
  ctx : FrontendCtx
  fd : Nat

/-- Where the poller thread stands with a response: before it, after reading the
table, and after closing the write end. -/
inductive Poller where
  | idle
  | loaded (index fd : Nat)
  | closed (index : Nat)
deriving DecidableEq, Repr

structure Loop where
  context : Context
  poller : Poller
  /-- `dpu_desc_index` of the conn of each request. -/
  clients : Nat → Option Nat
  upstreams : Nat → Option Pending
  /-- How many requests were read. -/
  requests : Nat
  /-- The number of the next upstream conn. -/
  conns : Nat
  /-- How often `dpumesh_conn_respond` was called for a request. -/
  answered : Nat → Nat
  faulted : Bool

/-- After `dpumesh_init`: no pipe is in the table. -/
def Loop.start (worker : Worker) (pools : TxPools) (txSq : List SwDescriptor) (process : Process) :
    Loop where
  context := ⟨worker, pools, txSq, fun _ => -1, process⟩
  poller := .idle
  clients := fun _ => none
  upstreams := fun _ => none
  requests := 0
  conns := 0
  answered := fun _ => 0
  faulted := false

/-- What the system grants to a callback: the two conns, the context, the pipe;
and the stack behind the headers that are written. -/
structure Grants where
  client : Bool
  ctx : Bool
  upstream : Bool
  pipe : Bool
  stack : Nat → UInt8

inductive Event where
  /-- `dpumesh_read` reads a descriptor from the notify pipe. -/
  | request (rx : RxPools) (junk : Bytes) (desc : SwDescriptor) (grants : Grants)
  /-- The `fd` of an upstream conn is readable, with the descriptor that `read`
  gives, if it gives one. -/
  | response (id : Nat) (result : Option (RxPools × SwDescriptor)) (grants : Grants)
  /-- The poller's next call, which may be for a response with this id. -/
  | poll (reqId : Nat)

/-! ### One event -/

def closeFd (process : Process) (fd : Nat) : Process :=
  { process with isOpen := Function.update process.isOpen fd false }

namespace Loop

/-- `close`. -/
def close (loop : Loop) (fd : Nat) : Loop :=
  if loop.context.process.isOpen fd then
    { loop with context := { loop.context with process := closeFd loop.context.process fd } }
  else { loop with faulted := true }

/-- `dpumesh_conn_respond`, on a conn that may be gone. -/
def respond (loop : Loop) (id : Nat) (reply : Reply) (stack : Nat → UInt8) : Loop :=
  match loop.clients id with
  | none => { loop with faulted := true }
  | some descIndex =>
      { loop with
        context := (dpumeshWrite loop.context
          (.response descIndex reply.status (some reply.body)) false false stack).context
        clients := Function.update loop.clients id none
        answered := Function.update loop.answered id (loop.answered id + 1) }

/-- The end of `dpumesh_conn_upstream`: the new conn waits on its descriptor. -/
def startUpstream (loop : Loop) (id : Nat) (ctx : FrontendCtx) (responseFd : Option Nat) : Loop :=
  match responseFd with
  | none => { loop with faulted := true }
  | some fd =>
      { loop with
        upstreams := Function.update loop.upstreams loop.conns (some ⟨id, ctx, fd⟩)
        conns := loop.conns + 1 }

/-- One call of a handler. -/
def perform (id : Nat) (responseFd : Option Nat) (stack : Nat → UInt8) (loop : Loop) :
    Action → Loop
  | .respond reply => loop.respond id reply stack
  | .send _ _ ctx => loop.startUpstream id ctx responseFd
  | .free => loop

/-- `dpumesh_conn_upstream`, where the handler calls it. -/
def attempt (context : Context) (grants : Grants) : List (Leaf × Bytes × FrontendCtx) → Written
  | [] => ⟨context, -1, none⟩
  | (_, target, _) :: _ =>
      dpumeshConnUpstream context (ascii "GET") target grants.upstream grants.pipe grants.stack

/-- A handler is called for a conn that may be gone. What it does may depend on
whether its upstream request is accepted. -/
def call (loop : Loop) (actions : Bool → List Action) (id : Nat) (grants : Grants) : Loop :=
  if (loop.clients id).isSome then
    let written := attempt loop.context grants (sends (actions true))
    (actions (decide (0 ≤ written.result))).foldl (perform id written.responseFd grants.stack)
      { loop with context := written.context }
  else { loop with faulted := true }

/-- `on_request`, for the next request. -/
def onRequest (handlers : Handlers) (loop : Loop) (rx : RxPools) (junk : Bytes)
    (desc : SwDescriptor) (grants : Grants) : Loop :=
  let (worker, req) := dpumeshRead rx junk loop.context.worker desc
  let read := { loop with
    context := { loop.context with worker := worker }
    requests := loop.requests + 1 }
  if grants.client then
    let opened := { read with
      clients := Function.update loop.clients loop.requests (some req.descIndex) }
    match Dpumesh.onRequest req with
    | none => opened
    | some http =>
        opened.call (fun sent => handlers.request grants.ctx sent http) loop.requests grants
  else read

/-- `on_upstream_response_cb`. The descriptor is closed where it was read, and
with the conn where it was not. -/
def onUpstreamResponse (handlers : Handlers) (loop : Loop) (id : Nat) (pending : Pending)
    (result : Option (RxPools × SwDescriptor)) (grants : Grants) : Loop :=
  let closed := { loop with upstreams := Function.update loop.upstreams id none }.close pending.fd
  match Dpumesh.onUpstreamResponse (result.map fun got => readResponse got.1 got.2) with
  | none => closed
  | some resp =>
      handlers.upstream.elim closed fun handler =>
        closed.call (fun sent => handler sent pending.ctx resp) pending.client grants

/-- The next call of `dpumesh_poller_fn`. -/
def poll (loop : Loop) (reqId : Nat) : Loop :=
  match loop.poller with
  | .idle =>
      let index := reqId % maxPending
      if 0 ≤ loop.context.responsePipeFds index then
        { loop with poller := .loaded index (loop.context.responsePipeFds index).toNat }
      else loop
  | .loaded index fd => { loop with poller := .closed index }.close fd
  | .closed index =>
      { loop with
        poller := .idle
        context := { loop.context with
          responsePipeFds := Function.update loop.context.responsePipeFds index (-1) } }

/-- One event. A response comes to an upstream conn that is there. -/
def step (handlers : Handlers) (loop : Loop) (event : Event) : Option Loop :=
  if loop.faulted then none
  else
    match event with
    | .request rx junk desc grants =>
        if desc.valid ≠ 1 then some loop else some (loop.onRequest handlers rx junk desc grants)
    | .response id result grants =>
        (loop.upstreams id).map fun pending =>
          loop.onUpstreamResponse handlers id pending result grants
    | .poll reqId => some (loop.poll reqId)

end Loop

/-! ### What is to hold -/

/-- Who has to close a descriptor: an upstream conn its read end, an entry of the
table its write end, or the poller, which took it over from there. -/
inductive Owner where
  | upstream (id : Nat)
  | pipe (index : Nat)
  | poller
deriving DecidableEq, Repr

namespace Poller

/-- The entry that the poller is about to clear. -/
def index : Poller → Option Nat
  | idle => none
  | loaded index _ => some index
  | closed index => some index

/-- The descriptor that the poller is about to close. -/
def fd : Poller → Option Nat
  | idle => none
  | loaded _ fd => some fd
  | closed _ => none

end Poller

/-- An entry of the table, -1 where there is none. -/
def entryFd (entry : Int) : Option Nat := if 0 ≤ entry then some entry.toNat else none

/-- What an entry has that the poller is about to clear is left open. -/
def Loop.owns (loop : Loop) : Owner → Option Nat
  | .upstream id => (loop.upstreams id).map Pending.fd
  | .pipe index =>
      if loop.poller.index = some index then none
      else entryFd (loop.context.responsePipeFds index)
  | .poller => loop.poller.fd

/-- No upstream conn points at a freed conn, a request has one upstream conn at
most and is answered once at most, its conn is there as long as it is not, and
each descriptor that is to be closed is open and has one owner. -/
structure Sound (loop : Loop) : Prop where
  live : ∀ id pending, loop.upstreams id = some pending → (loop.clients pending.client).isSome
  single : ∀ first second pending other, loop.upstreams first = some pending →
    loop.upstreams second = some other → pending.client = other.client → first = second
  unanswered : ∀ id, (loop.clients id).isSome → loop.answered id = 0
  answeredOnce : ∀ id, loop.answered id ≤ 1
  owned : Owned loop.context.process.isOpen loop.owns
  unfaulted : loop.faulted = false

/-- Every request that was read is answered, or has an upstream conn. -/
def Kept (loop : Loop) : Prop :=
  ∀ id < loop.requests, loop.answered id = 1 ∨
    ∃ other pending, loop.upstreams other = some pending ∧ pending.client = id

/-- A request that was read and is not answered, and that no upstream conn points
at. -/
structure Lost (loop : Loop) (id : Nat) : Prop where
  read : id < loop.requests
  unanswered : loop.answered id = 0
  alone : ∀ other pending, loop.upstreams other = some pending → pending.client ≠ id

/-- A request gets its conn and is a request as HTTP has it; a response can be
read, and has no NUL in its body. -/
def Served (handlers : Handlers) (loop : Loop) : Event → Prop
  | .request rx junk desc grants => desc.valid = 1 →
      grants.client = true ∧
        (Dpumesh.onRequest (dpumeshRead rx junk loop.context.worker desc).2).isSome
  | .response _ result _ => handlers.upstream.isSome ∧
      ∃ got, result = some got ∧ 0 ∉ (readResponse got.1 got.2).bytes
  | .poll _ => True

/-- The invariant: a number that was not used yet names nothing. -/
structure Orderly (loop : Loop) : Prop extends Sound loop where
  unread : ∀ id, loop.requests ≤ id → loop.clients id = none ∧ loop.answered id = 0
  unused : ∀ id, loop.conns ≤ id → loop.upstreams id = none

/-! ### Descriptors -/

theorem pipe_spec {process after : Process} {granted : Bool} {readEnd writeEnd : Nat}
    (made : process.pipe granted = some (after, readEnd, writeEnd)) :
    process.isOpen readEnd = false ∧ process.isOpen writeEnd = false ∧ readEnd ≠ writeEnd ∧
      after.isOpen = Function.update (Function.update process.isOpen readEnd true) writeEnd true := by
  unfold Process.pipe at made
  cases granted with
  | false => contradiction
  | true =>
      rw [if_pos rfl] at made
      obtain ⟨lowest, found, rest⟩ := Option.bind_eq_some_iff.mp made
      obtain ⟨second, found', opened⟩ := Option.map_eq_some_iff.mp rest
      rw [Prod.mk.injEq, Prod.mk.injEq] at opened
      obtain ⟨rfl, rfl, rfl⟩ := opened
      have closed : process.isOpen lowest = false := by
        simpa using List.find?_some found
      have closed' : (process.openFd lowest).isOpen second = false := by
        simpa using List.find?_some found'
      have opened : (process.openFd lowest).isOpen = Function.update process.isOpen lowest true := rfl
      rw [opened] at closed'
      have different : lowest ≠ second := by
        intro same
        rw [same, Function.update_self] at closed'
        contradiction
      rw [Function.update_of_ne different.symm] at closed'
      exact ⟨closed, closed', different, rfl⟩

theorem enqueue_frame (context : Context) (out : Outgoing) (stack : Nat → UInt8)
    (body : Option Bytes) :
    (enqueue context out stack body).1.process = context.process ∧
      (enqueue context out stack body).1.responsePipeFds = context.responsePipeFds := by
  unfold enqueue
  split
  · exact ⟨rfl, rfl⟩
  · exact ⟨rfl, rfl⟩

/-- A response touches no descriptor. -/
theorem dpumeshWrite_response_frame (context : Context) (descIndex : Nat) (statusCode : Int)
    (body : Option Bytes) (wantsFd granted : Bool) (stack : Nat → UInt8) :
    let written := dpumeshWrite context (.response descIndex statusCode body) wantsFd granted stack
    written.context.process = context.process ∧
      written.context.responsePipeFds = context.responsePipeFds :=
  enqueue_frame { context with worker := (writeResponse context.worker descIndex statusCode).1 } _ _ _

/-- A call makes no pipe and fails, or it makes one, stores the write end, and
fails or gives the read end away. -/
theorem connUpstream_cases (context : Context) (method url : Bytes) (allocated granted : Bool)
    (stack : Nat → UInt8) {written : Written}
    (calls : dpumeshConnUpstream context method url allocated granted stack = written) :
    written.context.process = context.process ∧
        written.context.responsePipeFds = context.responsePipeFds ∧ written.result < 0 ∨
      ∃ process index, ∃ readEnd writeEnd : Nat,
        context.process.pipe granted = some (process, readEnd, writeEnd) ∧
        written.context.process = process ∧
        written.context.responsePipeFds =
          Function.update context.responsePipeFds index (writeEnd : Int) ∧
        (0 ≤ written.result → written.responseFd = some readEnd) := by
  have negative : (-1 : Int) < 0 := by decide
  unfold dpumeshConnUpstream at calls
  cases allocated with
  | false =>
      rw [if_neg Bool.false_ne_true] at calls
      rw [← calls]
      exact Or.inl ⟨rfl, rfl, negative⟩
  | true =>
      rw [if_pos rfl] at calls
      cases made : context.process.pipe granted with
      | none =>
          have writes : dpumeshWrite context (.request method url none) true granted stack =
              ⟨{ context with worker := (writeRequest context.worker method url).1 }, -1, none⟩ := by
            unfold dpumeshWrite
            dsimp only
            rw [if_pos rfl, made]
          rw [writes] at calls
          dsimp only at calls
          rw [if_pos negative] at calls
          rw [← calls]
          exact Or.inl ⟨rfl, rfl, negative⟩
      | some ends =>
          obtain ⟨process, readEnd, writeEnd⟩ := ends
          have frame := enqueue_frame (storePipe
            { context with worker := (writeRequest context.worker method url).1 } process
            (writeRequest context.worker method url).2.reqId writeEnd)
            (writeRequest context.worker method url).2 stack none
          have writes := @dpumeshWrite_piped context _ method url none granted stack
            process readEnd writeEnd _ made (Prod.mk.eta).symm
          rw [writes] at calls
          dsimp only at calls
          refine Or.inr ⟨process, (writeRequest context.worker method url).2.reqId % maxPending,
            readEnd, writeEnd, rfl, ?_⟩
          split at calls
          · rename_i failed
            rw [← calls]
            exact ⟨frame.1, frame.2, fun there => absurd failed (not_lt.mpr there)⟩
          · rw [← calls]
            exact ⟨frame.1, frame.2, fun _ => rfl⟩

/-! ### What a callback does to the descriptors -/

section Steps

variable {loop : Loop}

/-- A call that touches the descriptors alone. -/
theorem Orderly.withContext (orderly : Orderly loop) {context : Context} {poller : Poller}
    (owned : Owned context.process.isOpen { loop with context := context, poller := poller }.owns) :
    Orderly { loop with context := context, poller := poller } where
  live := orderly.live
  single := orderly.single
  unanswered := orderly.unanswered
  answeredOnce := orderly.answeredOnce
  owned := owned
  unfaulted := orderly.unfaulted
  unread := orderly.unread
  unused := orderly.unused

theorem owns_congr {after : Loop} (upstreams : after.upstreams = loop.upstreams)
    (poller : after.poller = loop.poller)
    (entries : after.context.responsePipeFds = loop.context.responsePipeFds) :
    after.owns = loop.owns := by
  funext owner
  unfold Loop.owns
  rw [upstreams, poller, entries]

theorem entryFd_natCast (fd : Nat) : entryFd (fd : Int) = some fd := by
  unfold entryFd
  rw [if_pos (Int.natCast_nonneg fd), Int.toNat_natCast]

/-- Who owns what when a write end is stored: an entry that the poller is about to
clear does not get to own it. -/
theorem owns_stored {context : Context} {index writeEnd : Nat}
    (stored : context.responsePipeFds =
      Function.update loop.context.responsePipeFds index (writeEnd : Int)) :
    { loop with context := context }.owns =
      if loop.poller.index = some index then loop.owns
      else Function.update loop.owns (.pipe index) (some writeEnd) := by
  by_cases busy : loop.poller.index = some index
  · rw [if_pos busy]
    funext owner
    cases owner with
    | upstream id => rfl
    | poller => rfl
    | pipe other =>
        show (if loop.poller.index = some other then none else entryFd (context.responsePipeFds other)) =
          if loop.poller.index = some other then none
          else entryFd (loop.context.responsePipeFds other)
        by_cases same : other = index
        · rw [same, if_pos busy, if_pos busy]
        · rw [stored, Function.update_of_ne same]
  · rw [if_neg busy]
    funext owner
    cases owner with
    | upstream id => rfl
    | poller => rfl
    | pipe other =>
        show (if loop.poller.index = some other then none else entryFd (context.responsePipeFds other)) =
          Function.update loop.owns (.pipe index) (some writeEnd) (.pipe other)
        by_cases same : other = index
        · rw [same, if_neg busy, stored, Function.update_self, Function.update_self,
            entryFd_natCast]
        · have different : Owner.pipe other ≠ .pipe index := fun equal => same (Owner.pipe.inj equal)
          rw [stored, Function.update_of_ne same, Function.update_of_ne different]
          rfl

/-- After `dpumesh_conn_upstream`, the read end that it gives away is open, and
nobody owns it yet. -/
theorem orderly_attempt (orderly : Orderly loop) (grants : Grants)
    (asked : List (Leaf × Bytes × FrontendCtx)) {written : Written}
    (attempted : Loop.attempt loop.context grants asked = written) :
    Orderly { loop with context := written.context } ∧
      (0 ≤ written.result → ∃ fd, written.responseFd = some fd ∧
        written.context.process.isOpen fd = true ∧
        ∀ owner, { loop with context := written.context }.owns owner ≠ some fd) := by
  have same : ∀ context : Context, context.process = loop.context.process →
      context.responsePipeFds = loop.context.responsePipeFds →
      Orderly { loop with context := context } := by
    intro context process entries
    apply orderly.withContext
    have owns : { loop with context := context }.owns = loop.owns := owns_congr rfl rfl entries
    rw [process, owns]
    exact orderly.owned
  cases asked with
  | nil =>
      rw [← attempted]
      refine ⟨same _ rfl rfl, fun there => ?_⟩
      have negative : (0 : Int) ≤ -1 := there
      omega
  | cons first rest =>
      rcases connUpstream_cases _ _ _ _ _ _ attempted with
        ⟨process, entries, failed⟩ | ⟨process, index, readEnd, writeEnd, made, process', stored, gives⟩
      · exact ⟨same _ process entries, fun there => absurd failed (not_lt.mpr there)⟩
      · obtain ⟨readClosed, writeClosed, different, opened⟩ := pipe_spec made
        have isOpen : written.context.process.isOpen = Function.update
            (Function.update loop.context.process.isOpen readEnd true) writeEnd true := by
          rw [process', opened]
        have both := (orderly.owned.openNew readEnd).openNew writeEnd
        have owned : Owned written.context.process.isOpen
            { loop with context := written.context }.owns := by
          rw [isOpen, owns_stored stored]
          split
          · exact both
          · refine both.adopt (Function.update_self _ _ _) ?_ _
            exact orderly.owned.unowned writeClosed
        refine ⟨orderly.withContext owned, fun there => ⟨readEnd, gives there, ?_, ?_⟩⟩
        · rw [isOpen, Function.update_of_ne different, Function.update_self]
        · intro owner owning
          rw [owns_stored stored] at owning
          split at owning
          · exact orderly.owned.unowned readClosed owner owning
          · by_cases here : owner = .pipe index
            · rw [here, Function.update_self] at owning
              exact different (Option.some.inj owning).symm
            · rw [Function.update_of_ne here] at owning
              exact orderly.owned.unowned readClosed owner owning

/-! ### One call of a handler -/

/-- The conn is there, and no upstream conn points at it: the state in which a
handler makes its call. -/
structure Between (loop : Loop) (id : Nat) : Prop where
  orderly : Orderly loop
  present : (loop.clients id).isSome
  free : ∀ other pending, loop.upstreams other = some pending → pending.client ≠ id

/-- What a handler does for a request: it is answered, or it has one upstream conn
more. -/
structure Called (before after : Loop) (id : Nat) : Prop where
  orderly : Orderly after
  requests : after.requests = before.requests
  ends : (after.answered = Function.update before.answered id 1 ∧
      after.upstreams = before.upstreams) ∨
    after.answered = before.answered ∧ ∃ ctx fd,
      after.upstreams = Function.update before.upstreams before.conns (some ⟨id, ctx, fd⟩)

theorem Between.lt_requests {id : Nat} (between : Between loop id) : id < loop.requests := by
  by_contra late
  have gone := (between.orderly.unread id (not_lt.mp late)).1
  have present := between.present
  rw [gone] at present
  contradiction

theorem Between.respond {id : Nat} (between : Between loop id) (reply : Reply)
    (stack : Nat → UInt8) : Called loop (loop.respond id reply stack) id := by
  obtain ⟨orderly, present, free⟩ := between
  obtain ⟨descIndex, found⟩ := Option.isSome_iff_exists.mp present
  have unanswered := orderly.unanswered id present
  have frame := dpumeshWrite_response_frame loop.context descIndex reply.status (some reply.body)
    false false stack
  dsimp only at frame
  have next : loop.respond id reply stack =
      { loop with
        context := (dpumeshWrite loop.context
          (.response descIndex reply.status (some reply.body)) false false stack).context
        clients := Function.update loop.clients id none
        answered := Function.update loop.answered id 1 } := by
    unfold Loop.respond
    rw [found, unanswered]
  generalize (dpumeshWrite loop.context _ false false stack).context = context at frame next
  rw [next]
  refine ⟨⟨⟨?_, orderly.single, ?_, ?_, ?_, orderly.unfaulted⟩, ?_, orderly.unused⟩, rfl,
    Or.inl ⟨rfl, rfl⟩⟩
  · intro other pending waiting
    have elsewhere := free other pending waiting
    show (Function.update loop.clients id none pending.client).isSome
    rw [Function.update_of_ne elsewhere]
    exact orderly.live other pending waiting
  · intro other there
    have there' : (Function.update loop.clients id none other).isSome := there
    show Function.update loop.answered id 1 other = 0
    by_cases same : other = id
    · rw [same, Function.update_self] at there'
      contradiction
    · rw [Function.update_of_ne same] at there' ⊢
      exact orderly.unanswered other there'
  · intro other
    show Function.update loop.answered id 1 other ≤ 1
    by_cases same : other = id
    · rw [same, Function.update_self]
    · rw [Function.update_of_ne same]
      exact orderly.answeredOnce other
  · have owns : { loop with
        context := context
        clients := Function.update loop.clients id none
        answered := Function.update loop.answered id 1 }.owns = loop.owns :=
      owns_congr rfl rfl frame.2
    rw [owns]
    dsimp only
    rw [frame.1]
    exact orderly.owned
  · intro other late
    have old := orderly.unread other late
    have born := Between.lt_requests ⟨orderly, present, free⟩
    have different : other ≠ id := by
      have late' : loop.requests ≤ other := late
      omega
    show Function.update loop.clients id none other = none ∧
      Function.update loop.answered id 1 other = 0
    rw [Function.update_of_ne different, Function.update_of_ne different]
    exact old

theorem Between.startUpstream {id : Nat} (between : Between loop id) (ctx : FrontendCtx) {fd : Nat}
    (opened : loop.context.process.isOpen fd = true) (unowned : ∀ owner, loop.owns owner ≠ some fd) :
    Called loop (loop.startUpstream id ctx (some fd)) id := by
  obtain ⟨orderly, present, free⟩ := between
  have unused := orderly.unused loop.conns (le_refl _)
  have waits : ∀ other pending,
      Function.update loop.upstreams loop.conns (some ⟨id, ctx, fd⟩) other = some pending →
        other = loop.conns ∧ pending.client = id ∨
          other ≠ loop.conns ∧ loop.upstreams other = some pending := by
    intro other pending found
    by_cases new : other = loop.conns
    · rw [new, Function.update_self] at found
      rw [← Option.some.inj found]
      exact Or.inl ⟨new, rfl⟩
    · rw [Function.update_of_ne new] at found
      exact Or.inr ⟨new, found⟩
  have owns : (loop.startUpstream id ctx (some fd)).owns =
      Function.update loop.owns (.upstream loop.conns) (some fd) := by
    funext owner
    cases owner with
    | pipe index => rfl
    | poller => rfl
    | upstream other =>
        show (Function.update loop.upstreams loop.conns (some ⟨id, ctx, fd⟩) other).map Pending.fd =
          Function.update loop.owns (.upstream loop.conns) (some fd) (.upstream other)
        by_cases new : other = loop.conns
        · rw [new, Function.update_self, Function.update_self]
          rfl
        · have different : Owner.upstream other ≠ .upstream loop.conns :=
            fun equal => new (Owner.upstream.inj equal)
          rw [Function.update_of_ne new, Function.update_of_ne different]
          rfl
  refine ⟨⟨⟨?_, ?_, orderly.unanswered, orderly.answeredOnce, ?_, orderly.unfaulted⟩,
    orderly.unread, ?_⟩, rfl, Or.inr ⟨rfl, ctx, fd, rfl⟩⟩
  · intro other pending found
    rcases waits other pending found with ⟨-, client⟩ | ⟨-, old⟩
    · rw [client]
      exact present
    · exact orderly.live other pending old
  · intro first second pending other found found' same
    rcases waits first pending found with ⟨new, client⟩ | ⟨-, old⟩
    · rcases waits second other found' with ⟨new', -⟩ | ⟨-, old'⟩
      · rw [new, new']
      · exact absurd (same.symm.trans client) (free second other old')
    · rcases waits second other found' with ⟨-, client'⟩ | ⟨-, old'⟩
      · exact absurd (same.trans client') (free first pending old)
      · exact orderly.single first second pending other old old' same
  · rw [owns]
    exact orderly.owned.adopt opened unowned _
  · intro other late
    have late' : loop.conns + 1 ≤ other := late
    have different : other ≠ loop.conns := by omega
    show Function.update loop.upstreams loop.conns _ other = none
    rw [Function.update_of_ne different]
    exact orderly.unused other (by omega)

/-- A handler that makes one call. -/
theorem Between.call {id : Nat} (between : Between loop id) {actions : Bool → List Action}
    (once : ∀ sent, OneCall sent (actions sent)) (grants : Grants) :
    Called loop (loop.call actions id grants) id := by
  unfold Loop.call
  rw [if_pos between.present]
  dsimp only
  obtain ⟨orderly, gives⟩ := orderly_attempt between.orderly grants (sends (actions true)) rfl
  generalize Loop.attempt loop.context grants (sends (actions true)) = written at orderly gives ⊢
  have later : Between { loop with context := written.context } id :=
    ⟨orderly, between.present, between.free⟩
  have carry : ∀ after, Called { loop with context := written.context } after id →
      Called loop after id := fun after called => ⟨called.orderly, called.requests, called.ends⟩
  apply carry
  have calls := once (decide (0 ≤ written.result))
  generalize actions (decide (0 ≤ written.result)) = made at calls ⊢
  cases calls with
  | reply reply => exact later.respond reply grants.stack
  | freed reply => exact later.respond reply grants.stack
  | freeing reply => exact later.respond reply grants.stack
  | asks leaf target ctx accepted =>
      obtain ⟨fd, responseFd, opened, unowned⟩ := gives (of_decide_eq_true accepted)
      show Called _ (Loop.startUpstream _ id ctx written.responseFd) id
      rw [responseFd]
      exact later.startUpstream ctx opened unowned

/-- A conn that no upstream conn points at is not answered. -/
theorem Between.not_kept {id : Nat} (between : Between loop id) : ¬ Kept loop := by
  intro kept
  rcases kept id between.lt_requests with answered | ⟨other, pending, found, client⟩
  · have unanswered := between.orderly.unanswered id between.present
    omega
  · exact between.free other pending found client

/-- Where the others are kept, the one that a handler was called for is kept, too. -/
theorem Called.kept {after : Loop} {id : Nat} (called : Called loop after id)
    (unused : loop.upstreams loop.conns = none)
    (others : ∀ other < loop.requests, other ≠ id → loop.answered other = 1 ∨
      ∃ conn pending, loop.upstreams conn = some pending ∧ pending.client = other) :
    Kept after := by
  intro other below
  rw [called.requests] at below
  rcases called.ends with ⟨answered, upstreams⟩ | ⟨answered, ctx, fd, upstreams⟩
  · rw [answered, upstreams]
    by_cases same : other = id
    · rw [same, Function.update_self]
      exact Or.inl rfl
    · rw [Function.update_of_ne same]
      exact others other below same
  · rw [answered, upstreams]
    by_cases same : other = id
    · exact Or.inr ⟨loop.conns, ⟨id, ctx, fd⟩, Function.update_self _ _ _, same.symm⟩
    · rcases others other below same with before | ⟨conn, pending, found, client⟩
      · exact Or.inl before
      · have old : conn ≠ loop.conns := by
          intro new
          rw [new, unused] at found
          contradiction
        exact Or.inr ⟨conn, pending, by rw [Function.update_of_ne old, found], client⟩

/-- What a handler does for one request does not help another. -/
theorem Called.lost {after : Loop} {id other : Nat} (called : Called loop after id)
    (lost : Lost loop other) (different : other ≠ id) : Lost after other := by
  refine ⟨?_, ?_, ?_⟩
  · rw [called.requests]
    exact lost.read
  · rcases called.ends with ⟨answered, -⟩ | ⟨answered, -⟩
    · rw [answered, Function.update_of_ne different]
      exact lost.unanswered
    · rw [answered]
      exact lost.unanswered
  · intro conn pending found
    rcases called.ends with ⟨-, upstreams⟩ | ⟨-, ctx, fd, upstreams⟩
    · rw [upstreams] at found
      exact lost.alone conn pending found
    · rw [upstreams] at found
      by_cases new : conn = loop.conns
      · rw [new, Function.update_self, Option.some.injEq] at found
        rw [← found]
        exact different.symm
      · rw [Function.update_of_ne new] at found
        exact lost.alone conn pending found

/-- A step keeps the loop in order, it keeps all requests exactly if it meets a
condition, and it helps no request that was lost. -/
structure Stepped (before after : Loop) (served : Prop) : Prop where
  orderly : Orderly after
  kept : Kept before → (Kept after ↔ served)
  lost : ∀ id, Lost before id → Lost after id

/-! ### A request -/

/-- The descriptor of a request was read, and nothing was allocated yet. -/
theorem Orderly.read (orderly : Orderly loop) (worker : Worker) :
    Orderly { loop with
      context := { loop.context with worker := worker }
      requests := loop.requests + 1 } where
  live := orderly.live
  single := orderly.single
  unanswered := orderly.unanswered
  answeredOnce := orderly.answeredOnce
  owned := orderly.owned
  unfaulted := orderly.unfaulted
  unread := by
    intro id late
    have late' : loop.requests + 1 ≤ id := late
    exact orderly.unread id (by omega)
  unused := orderly.unused

/-- No upstream conn points at a request that was not read yet. -/
theorem Orderly.free (orderly : Orderly loop) {other : Nat} {pending : Pending}
    (found : loop.upstreams other = some pending) : pending.client ≠ loop.requests := by
  intro same
  have there := orderly.live other pending found
  rw [same, (orderly.unread loop.requests (le_refl _)).1] at there
  contradiction

/-- The conn of a request is new. -/
theorem Orderly.opened (orderly : Orderly loop) (worker : Worker) (descIndex : Nat) :
    Between { loop with
      context := { loop.context with worker := worker }
      clients := Function.update loop.clients loop.requests (some descIndex)
      requests := loop.requests + 1 } loop.requests := by
  refine ⟨⟨⟨?_, orderly.single, ?_, orderly.answeredOnce, orderly.owned, orderly.unfaulted⟩, ?_,
    orderly.unused⟩, ?_, fun other pending found => orderly.free found⟩
  · intro other pending found
    show (Function.update loop.clients loop.requests (some descIndex) pending.client).isSome
    rw [Function.update_of_ne (orderly.free found)]
    exact orderly.live other pending found
  · intro id there
    have there' : (Function.update loop.clients loop.requests (some descIndex) id).isSome := there
    by_cases new : id = loop.requests
    · rw [new]
      exact (orderly.unread loop.requests (le_refl _)).2
    · rw [Function.update_of_ne new] at there'
      exact orderly.unanswered id there'
  · intro id late
    have late' : loop.requests + 1 ≤ id := late
    have old := orderly.unread id (by omega)
    have different : id ≠ loop.requests := by omega
    show Function.update loop.clients loop.requests (some descIndex) id = none ∧ _
    rw [Function.update_of_ne different]
    exact old
  · show (Function.update loop.clients loop.requests (some descIndex) loop.requests).isSome
    rw [Function.update_self]
    rfl

/-- A request is kept where it gets a conn and is one as HTTP has it, and is lost
otherwise. -/
theorem stepped_onRequest (orderly : Orderly loop) (handlers : Handlers) (rx : RxPools)
    (junk : Bytes) (desc : SwDescriptor) (grants : Grants) :
    Stepped loop (loop.onRequest handlers rx junk desc grants)
      (grants.client = true ∧
        (Dpumesh.onRequest (dpumeshRead rx junk loop.context.worker desc).2).isSome) := by
  unfold Loop.onRequest
  dsimp only
  generalize (dpumeshRead rx junk loop.context.worker desc).1 = worker
  generalize (dpumeshRead rx junk loop.context.worker desc).2 = req
  have new := orderly.unread loop.requests (le_refl _)
  by_cases allocated : grants.client = true
  · have between := orderly.opened worker req.descIndex
    have still : ∀ id, Lost loop id → Lost { loop with
        context := { loop.context with worker := worker }
        clients := Function.update loop.clients loop.requests (some req.descIndex)
        requests := loop.requests + 1 } id :=
      fun id lost => ⟨Nat.lt_succ_of_lt lost.read, lost.unanswered, lost.alone⟩
    rw [if_pos allocated]
    cases parsed : Dpumesh.onRequest req with
    | none => exact ⟨between.orderly, fun _ => iff_of_false between.not_kept (by simp), still⟩
    | some http =>
        have called := between.call
          (fun sent => handlers.request_once grants.ctx sent http) grants
        refine ⟨called.orderly, fun kept => iff_of_true ?_ ⟨allocated, rfl⟩, fun id lost => ?_⟩
        · refine called.kept (orderly.unused loop.conns (le_refl _)) fun other below different => ?_
          have below' : other < loop.requests + 1 := below
          exact kept other (by omega)
        · exact called.lost (still id lost) (Nat.ne_of_lt lost.read)
  · rw [if_neg allocated]
    refine ⟨orderly.read worker, fun _ => iff_of_false ?_ fun both => allocated both.1,
      fun id lost => ⟨Nat.lt_succ_of_lt lost.read, lost.unanswered, lost.alone⟩⟩
    intro kept
    rcases kept loop.requests (Nat.lt_succ_self _) with answered | ⟨other, pending, found, client⟩
    · have answered' : loop.answered loop.requests = 1 := answered
      omega
    · exact orderly.free found client

/-! ### A response -/

/-- The `fd` of an upstream conn is closed, and the conn is freed. -/
theorem Orderly.ended (orderly : Orderly loop) {id : Nat} {pending : Pending}
    (found : loop.upstreams id = some pending) :
    Between ({ loop with upstreams := Function.update loop.upstreams id none }.close pending.fd)
      pending.client := by
  have owning : loop.owns (.upstream id) = some pending.fd := congrArg (Option.map Pending.fd) found
  have opened := orderly.owned.opened owning
  have others : ∀ other entry, Function.update loop.upstreams id none other = some entry →
      other ≠ id ∧ loop.upstreams other = some entry := by
    intro other entry waits
    by_cases same : other = id
    · rw [same, Function.update_self] at waits
      contradiction
    · rw [Function.update_of_ne same] at waits
      exact ⟨same, waits⟩
  have closed : { loop with upstreams := Function.update loop.upstreams id none }.close pending.fd =
      { loop with
        upstreams := Function.update loop.upstreams id none
        context := { loop.context with process := closeFd loop.context.process pending.fd } } :=
    if_pos opened
  have owns : { loop with
      upstreams := Function.update loop.upstreams id none
      context := { loop.context with process := closeFd loop.context.process pending.fd } }.owns =
        Function.update loop.owns (.upstream id) none := by
    funext owner
    cases owner with
    | pipe index => rfl
    | poller => rfl
    | upstream other =>
        show (Function.update loop.upstreams id none other).map Pending.fd =
          Function.update loop.owns (.upstream id) none (.upstream other)
        by_cases same : other = id
        · rw [same, Function.update_self, Function.update_self]
          rfl
        · have different : Owner.upstream other ≠ .upstream id :=
            fun equal => same (Owner.upstream.inj equal)
          rw [Function.update_of_ne same, Function.update_of_ne different]
          rfl
  rw [closed]
  refine ⟨⟨⟨?_, ?_, orderly.unanswered, orderly.answeredOnce, ?_, orderly.unfaulted⟩,
    orderly.unread, ?_⟩, orderly.live id pending found, ?_⟩
  · intro other entry waits
    exact orderly.live other entry (others other entry waits).2
  · intro first second entry entry' waits waits' same
    exact orderly.single first second entry entry' (others first entry waits).2
      (others second entry' waits').2 same
  · rw [owns]
    exact orderly.owned.close owning
  · intro other late
    show Function.update loop.upstreams id none other = none
    by_cases same : other = id
    · rw [same, Function.update_self]
    · rw [Function.update_of_ne same]
      exact orderly.unused other late
  · intro other entry waits same
    obtain ⟨different, waiting⟩ := others other entry waits
    exact different (orderly.single other id entry pending waiting found same)

/-- `close` concerns the descriptors alone. -/
theorem close_frame (loop : Loop) (fd : Nat) :
    (loop.close fd).upstreams = loop.upstreams ∧ (loop.close fd).answered = loop.answered ∧
      (loop.close fd).requests = loop.requests ∧ (loop.close fd).conns = loop.conns := by
  unfold Loop.close
  split
  · exact ⟨rfl, rfl, rfl, rfl⟩
  · exact ⟨rfl, rfl, rfl, rfl⟩

/-- The request of a response is kept where the response can be read and has no
NUL in its body, and is lost otherwise. -/
theorem stepped_onUpstreamResponse (orderly : Orderly loop) (handlers : Handlers) {id : Nat}
    {pending : Pending} (found : loop.upstreams id = some pending)
    (result : Option (RxPools × SwDescriptor)) (grants : Grants) :
    Stepped loop (loop.onUpstreamResponse handlers id pending result grants)
      (handlers.upstream.isSome ∧
        ∃ got, result = some got ∧ 0 ∉ (readResponse got.1 got.2).bytes) := by
  have between := orderly.ended found
  obtain ⟨upstreams, answered, requests, conns⟩ :=
    close_frame { loop with upstreams := Function.update loop.upstreams id none } pending.fd
  unfold Loop.onUpstreamResponse
  dsimp only at upstreams answered requests conns ⊢
  generalize ({ loop with upstreams := Function.update loop.upstreams id none } : Loop).close
    pending.fd = closed at between upstreams answered requests conns ⊢
  have others : ∀ conn entry, closed.upstreams conn = some entry →
      loop.upstreams conn = some entry := by
    intro conn entry waits
    rw [upstreams] at waits
    by_cases same : conn = id
    · rw [same, Function.update_self] at waits
      contradiction
    · rw [Function.update_of_ne same] at waits
      exact waits
  have still : ∀ other, Lost loop other → Lost closed other := by
    intro other lost
    refine ⟨?_, ?_, fun conn entry waits => lost.alone conn entry (others conn entry waits)⟩
    · rw [requests]
      exact lost.read
    · rw [answered]
      exact lost.unanswered
  have fails : ∀ {served : Prop}, ¬ served → Stepped loop closed served := fun refused =>
    ⟨between.orderly, fun _ => iff_of_false between.not_kept refused, still⟩
  cases result with
  | none =>
      refine fails ?_
      rintro ⟨-, got, none, -⟩
      contradiction
  | some got =>
      rw [Option.map_some, onUpstreamResponse_some]
      by_cases nul : 0 ∈ (readResponse got.1 got.2).bytes
      · rw [if_pos nul]
        refine fails ?_
        rintro ⟨-, other, same, clean⟩
        rw [← Option.some.inj same] at clean
        exact clean nul
      · rw [if_neg nul]
        dsimp only
        cases handles : handlers.upstream with
        | none =>
            refine fails ?_
            rintro ⟨there, -⟩
            contradiction
        | some handler =>
            have called := between.call
              (fun sent => handlers.upstream_once handler handles sent pending.ctx
                ⟨(readResponse got.1 got.2).status, (readResponse got.1 got.2).bytes.take
                  (bodyCopy (readResponse got.1 got.2).bytes.length),
                  (readResponse got.1 got.2).bytes.length⟩) grants
            refine ⟨called.orderly, fun kept => iff_of_true ?_ ⟨rfl, got, rfl, nul⟩,
              fun other lost => called.lost (still other lost) (lost.alone id pending found).symm⟩
            refine called.kept (between.orderly.unused _ (le_refl _)) fun other below different => ?_
            rw [requests] at below
            rw [answered, upstreams]
            rcases kept other below with before | ⟨conn, entry, waits, client⟩
            · exact Or.inl before
            · have elsewhere : conn ≠ id := by
                intro same
                rw [same, found, Option.some.injEq] at waits
                rw [← waits] at client
                exact different client.symm
              exact Or.inr ⟨conn, entry, by rw [Function.update_of_ne elsewhere, waits], client⟩

/-! ### The poller -/

/-- The poller takes a write end over from its entry. -/
theorem owns_loaded {index fd : Nat} (idle : loop.poller = .idle) :
    { loop with poller := .loaded index fd }.owns =
      Function.update (Function.update loop.owns (.pipe index) none) .poller (some fd) := by
  funext owner
  cases owner with
  | upstream id => rfl
  | poller => rfl
  | pipe other =>
      show (if some index = some other then none else entryFd (loop.context.responsePipeFds other)) =
        Function.update loop.owns (.pipe index) none (.pipe other)
      by_cases same : index = other
      · rw [if_pos (congrArg some same), same, Function.update_self]
      · have different : Owner.pipe other ≠ .pipe index :=
          fun equal => same (Owner.pipe.inj equal).symm
        have free : loop.poller.index ≠ some other := by
          rw [idle]
          exact Option.some_ne_none other |>.symm
        rw [if_neg fun equal => same (Option.some.inj equal), Function.update_of_ne different]
        exact (if_neg free).symm

theorem owns_closed {index fd : Nat} (loaded : loop.poller = .loaded index fd) (process : Process) :
    { loop with context := { loop.context with process := process }, poller := .closed index }.owns =
      Function.update loop.owns .poller none := by
  have holds : loop.poller.index = some index := by rw [loaded]; rfl
  funext owner
  cases owner with
  | upstream id => rfl
  | poller => rfl
  | pipe other =>
      show (if some index = some other then none else entryFd (loop.context.responsePipeFds other)) =
        if loop.poller.index = some other then none
        else entryFd (loop.context.responsePipeFds other)
      rw [holds]

theorem owns_cleared {index : Nat} (closed : loop.poller = .closed index) :
    { loop with
      context := { loop.context with
        responsePipeFds := Function.update loop.context.responsePipeFds index (-1) }
      poller := .idle }.owns = loop.owns := by
  have holds : loop.poller.index = some index := by rw [closed]; rfl
  funext owner
  cases owner with
  | upstream id => rfl
  | poller =>
      show none = loop.poller.fd
      rw [closed]
      rfl
  | pipe other =>
      show entryFd (Function.update loop.context.responsePipeFds index (-1) other) =
        if loop.poller.index = some other then none
        else entryFd (loop.context.responsePipeFds other)
      rw [holds]
      by_cases same : other = index
      · rw [same, if_pos rfl, Function.update_self]
        rfl
      · rw [if_neg fun equal => same (Option.some.inj equal).symm, Function.update_of_ne same]

theorem orderly_poll (orderly : Orderly loop) (reqId : Nat) : Orderly (loop.poll reqId) := by
  unfold Loop.poll
  cases phase : loop.poller with
  | idle =>
      dsimp only
      split
      · rename_i there
        have owning : loop.owns (.pipe (reqId % maxPending)) =
            some (loop.context.responsePipeFds (reqId % maxPending)).toNat := by
          show (if loop.poller.index = _ then none else entryFd _) = _
          rw [phase]
          exact if_pos there
        apply orderly.withContext
        rw [owns_loaded phase]
        exact orderly.owned.pass owning .poller
      · exact orderly
  | loaded index fd =>
      have owning : loop.owns .poller = some fd := by
        show loop.poller.fd = some fd
        rw [phase]
        rfl
      have opened := orderly.owned.opened owning
      unfold Loop.close
      dsimp only
      rw [if_pos opened]
      apply orderly.withContext
      rw [owns_closed phase]
      exact orderly.owned.close owning
  | closed index =>
      apply orderly.withContext
      rw [owns_cleared phase]
      exact orderly.owned

/-- The poller concerns the descriptors alone. -/
theorem poll_frame (loop : Loop) (reqId : Nat) :
    (loop.poll reqId).upstreams = loop.upstreams ∧ (loop.poll reqId).answered = loop.answered ∧
      (loop.poll reqId).requests = loop.requests := by
  unfold Loop.poll
  cases loop.poller with
  | idle =>
      dsimp only
      split
      · exact ⟨rfl, rfl, rfl⟩
      · exact ⟨rfl, rfl, rfl⟩
  | loaded index fd =>
      obtain ⟨upstreams, answered, requests, -⟩ := close_frame { loop with poller := .closed index } fd
      exact ⟨upstreams, answered, requests⟩
  | closed index => exact ⟨rfl, rfl, rfl⟩

end Steps

/-! ### Runs -/

theorem orderly_start (worker : Worker) (pools : TxPools) (txSq : List SwDescriptor)
    (process : Process) : Orderly (Loop.start worker pools txSq process) where
  live := fun _ _ found => absurd found (by simp [Loop.start])
  single := fun _ _ _ _ found => absurd found (by simp [Loop.start])
  unanswered := fun _ there => absurd there (by simp [Loop.start])
  answeredOnce := fun _ => Nat.zero_le 1
  owned := by
    have none : ∀ owner, (Loop.start worker pools txSq process).owns owner = none := by
      intro owner
      cases owner with
      | upstream id => rfl
      | pipe index => rfl
      | poller => rfl
    constructor
    · intro owner resource owning
      rw [none owner] at owning
      contradiction
    · intro first second resource owning
      rw [none first] at owning
      contradiction
  unfaulted := rfl
  unread := fun _ _ => ⟨rfl, rfl⟩
  unused := fun _ _ => rfl

theorem stepped {handlers : Handlers} {loop next : Loop} {event : Event} (orderly : Orderly loop)
    (taken : loop.step handlers event = some next) :
    Stepped loop next (Served handlers loop event) := by
  have unfaulted : ¬ loop.faulted = true := by
    rw [orderly.unfaulted]
    exact Bool.false_ne_true
  unfold Loop.step at taken
  rw [if_neg unfaulted] at taken
  cases event with
  | request rx junk desc grants =>
      dsimp only at taken
      by_cases invalid : desc.valid ≠ 1
      · rw [if_pos invalid] at taken
        obtain rfl := Option.some.inj taken
        exact ⟨orderly, fun kept => iff_of_true kept fun valid => absurd valid invalid,
          fun _ lost => lost⟩
      · rw [if_neg invalid] at taken
        obtain rfl := Option.some.inj taken
        have read := stepped_onRequest orderly handlers rx junk desc grants
        refine ⟨read.orderly, fun kept => (read.kept kept).trans ?_, read.lost⟩
        exact ⟨fun meets _ => meets, fun meets => meets (not_not.mp invalid)⟩
  | response id result grants =>
      obtain ⟨pending, found, rfl⟩ := Option.map_eq_some_iff.mp taken
      exact stepped_onUpstreamResponse orderly handlers found result grants
  | poll reqId =>
      obtain rfl := Option.some.inj taken
      obtain ⟨upstreams, answered, requests⟩ := poll_frame loop reqId
      refine ⟨orderly_poll orderly reqId, fun kept => iff_of_true ?_ trivial, fun id lost => ?_⟩
      · unfold Kept
        rw [upstreams, answered, requests]
        exact kept
      · refine ⟨?_, ?_, ?_⟩
        · rw [requests]
          exact lost.read
        · rw [answered]
          exact lost.unanswered
        · rw [upstreams]
          exact lost.alone

section Runs

variable (handlers : Handlers) (worker : Worker) (pools : TxPools) (txSq : List SwDescriptor)
  (process : Process) (events : List Event)

theorem always_orderly :
    Throughout (Loop.step handlers) Orderly (Loop.start worker pools txSq process) events :=
  throughout_of_eachStep (fun _ _ _ orderly _ taken => (stepped orderly taken).orderly)
    (orderly_start worker pools txSq process)
    (eachStep_of_always fun _ _ _ => trivial :
      EachStep (Loop.step handlers) (fun _ _ => True) _ events)

end Runs

end MiniMs.Dpumesh.EventLoop
