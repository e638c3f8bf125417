import MiniMs.Tcp.Upstream

/-!
The event loop of the TCP frontend: any number of client conns, and the
upstream conns that point back at them.

Owns: the table of live conns, one step for each event of the loop, the life
of a client conn as it is meant to be, and the exact condition under which a
run keeps to it.

A conn that was freed is gone from the table, and its number is not used again;
a callback that would act on it leaves the loop faulted, and nothing follows.
-/

namespace MiniMs.Tcp

open MiniMs.Dpumesh MiniMs.Http MiniMs.Library.Run MiniMs.Library.Text MiniMs.Service

/-! ### The conns -/

/-- A client conn: whether its event calls the read or the write callback. -/
structure Client where
  conn : Conn
  responding : Bool

/-- An upstream conn, with its `client_conn` and `handler_ctx`. -/
structure Pending where
  client : Nat
  ctx : FrontendCtx
  phase : Phase
  conn : Conn

structure Loop where
  clients : Nat → Option Client
  upstreams : Nat → Option Pending
  /-- The number of the next conn. -/
  fresh : Nat
  /-- How often the request handler was called for a client. -/
  handled : Nat → Nat
  /-- How often a response was started on a client. -/
  answered : Nat → Nat
  faulted : Bool

def Loop.start : Loop where
  clients := fun _ => none
  upstreams := fun _ => none
  fresh := 0
  handled := fun _ => 0
  answered := fun _ => 0
  faulted := false

/-- An event of the loop, with what the calls in its callback return. -/
inductive Event where
  | accept
  | clientRead (id : Nat) (result : ReadResult) (allocated sent : Bool)
  | clientWrite (id : Nat) (result : WriteResult)
  | upstream (id : Nat) (event : UpstreamEvent) (sent : Bool)

/-! ### One event -/

namespace Loop

/-- Keep a conn, or free it. -/
def setClient (loop : Loop) (id : Nat) (client : Option Client) : Loop :=
  { loop with clients := Function.update loop.clients id client }

def setUpstream (loop : Loop) (id : Nat) (pending : Option Pending) : Loop :=
  { loop with upstreams := Function.update loop.upstreams id pending }

/-- `conn_start_response`, on a client conn that may be gone. -/
def respond (loop : Loop) (id : Nat) (reply : Reply) : Loop :=
  match loop.clients id with
  | none => { loop with faulted := true }
  | some client =>
      { loop.setClient id (some ⟨client.conn.startResponse reply, true⟩) with
        answered := Function.update loop.answered id (loop.answered id + 1) }

/-- `conn_start_upstream`, for a client conn that may be gone. -/
def startUpstream (loop : Loop) (id : Nat) (conn : Conn) (ctx : FrontendCtx) : Loop :=
  match loop.clients id with
  | none => { loop with faulted := true }
  | some _ =>
      { loop.setUpstream loop.fresh (some ⟨id, ctx, .connecting, conn⟩) with
        fresh := loop.fresh + 1 }

/-- One call of a handler. -/
def perform (host : Leaf → Bytes) (id : Nat) (loop : Loop) : Action → Loop
  | .respond reply => loop.respond id reply
  | .send leaf target ctx => loop.startUpstream id (Tcp.startUpstream (ascii "GET") target (host leaf)) ctx
  | .free => loop

/-- The request handler is called. -/
def handle (loop : Loop) (host : Leaf → Bytes) (id : Nat) (actions : List Action) : Loop :=
  actions.foldl (perform host id)
    { loop with handled := Function.update loop.handled id (loop.handled id + 1) }

/-- `on_client_read_cb`. -/
def clientRead (loop : Loop) (host : Leaf → Bytes) (id : Nat) (conn : Conn) (result : ReadResult)
    (allocated sent : Bool) : Loop :=
  match onClientRead conn result with
  | .freed => loop.setClient id none
  | .waiting conn => loop.setClient id (some ⟨conn, false⟩)
  | .replied conn =>
      { loop.setClient id (some ⟨conn, true⟩) with
        answered := Function.update loop.answered id (loop.answered id + 1) }
  | .handed conn req =>
      (loop.setClient id (some ⟨conn, false⟩)).handle host id
        (handleRequest tcpBase allocated sent req)

/-- `on_client_write_cb`. -/
def clientWrite (loop : Loop) (id : Nat) (conn : Conn) (result : WriteResult) : Loop :=
  loop.setClient id ((onClientWrite conn result).map fun conn => ⟨conn, true⟩)

/-- A callback of an upstream conn. -/
def upstreamEvent (loop : Loop) (host : Leaf → Bytes) (id : Nat) (pending : Pending) (sent : Bool) :
    Exchange → Loop
  | .pending phase conn => loop.setUpstream id (some { pending with phase := phase, conn := conn })
  | .replied reply => (loop.setUpstream id none).respond pending.client reply
  | .handed resp =>
      (handleUpstreamResponse tcpBase sent pending.ctx resp).foldl (perform host pending.client)
        (loop.setUpstream id none)

/-- One event. It takes place when the conn is there and registered for it. -/
def step (host : Leaf → Bytes) (loop : Loop) (event : Event) : Option Loop :=
  if loop.faulted then none
  else
    match event with
    | .accept =>
        some { loop.setClient loop.fresh (some ⟨{}, false⟩) with fresh := loop.fresh + 1 }
    | .clientRead id result allocated sent =>
        match loop.clients id with
        | some ⟨conn, false⟩ =>
            if conn.Readable result then some (loop.clientRead host id conn result allocated sent)
            else none
        | _ => none
    | .clientWrite id result =>
        match loop.clients id with
        | some ⟨conn, true⟩ =>
            if conn.Writable result then some (loop.clientWrite id conn result) else none
        | _ => none
    | .upstream id event sent =>
        match loop.upstreams id with
        | none => none
        | some pending =>
            (Exchange.step (.pending pending.phase pending.conn) event).map
              (loop.upstreamEvent host id pending sent)

/-- The upstream conns that point at a client conn. -/
def pendingOf (loop : Loop) (id : Nat) : Set Nat :=
  {other | ∃ pending, loop.upstreams other = some pending ∧ pending.client = id}

end Loop

/-! ### What is to hold -/

/-- No upstream conn points at a freed conn, a client conn has one upstream or
one response at most, and it is handled and answered once at most. -/
structure Sound (loop : Loop) : Prop where
  live : ∀ id pending, loop.upstreams id = some pending → (loop.clients pending.client).isSome
  single : ∀ id, (loop.pendingOf id).Subsingleton
  exclusive : ∀ id client, loop.clients id = some client → client.responding = true →
    loop.pendingOf id = ∅
  handledOnce : ∀ id, loop.handled id ≤ 1
  answeredOnce : ∀ id, loop.answered id ≤ 1
  unfaulted : loop.faulted = false

/-- While an upstream is pending, the client conn is not read to its end, and
what comes in does not make its buffer a complete request. -/
def Undisturbed (loop : Loop) : Event → Prop
  | .clientRead id (.data bytes) _ _ =>
      loop.pendingOf id ≠ ∅ → ∀ client, loop.clients id = some client →
        httpParseRequest (client.conn.rbuf ++ bytes) = .more
  | .clientRead id _ _ _ => loop.pendingOf id = ∅
  | _ => True

/-! ### The life of one client conn -/

/-- What concerns one client conn. -/
structure View where
  client : Option Client
  pending : Set Nat
  handled : Nat
  answered : Nat

def Loop.view (loop : Loop) (id : Nat) : View :=
  ⟨loop.clients id, loop.pendingOf id, loop.handled id, loop.answered id⟩

/-- A client conn reads a request, waits for an upstream, responds, and is gone. -/
inductive Life : View → Prop where
  | absent {handled answered : Nat} (once : handled ≤ 1) (once' : answered ≤ 1) :
      Life ⟨none, ∅, handled, answered⟩
  | idle (conn : Conn) : Life ⟨some ⟨conn, false⟩, ∅, 0, 0⟩
  | waiting (conn : Conn) (upstream : Nat) : Life ⟨some ⟨conn, false⟩, {upstream}, 1, 0⟩
  | responding (conn : Conn) {handled : Nat} (once : handled ≤ 1) :
      Life ⟨some ⟨conn, true⟩, ∅, handled, 1⟩

/-- The invariant: every client conn leads its life, and numbers are new. -/
structure Orderly (loop : Loop) : Prop where
  lives : ∀ id, Life (loop.view id)
  unborn : ∀ id, loop.fresh ≤ id → loop.view id = ⟨none, ∅, 0, 0⟩ ∧ loop.upstreams id = none
  unfaulted : loop.faulted = false

/-! ### Views of the changed loop -/

section Views

variable {loop : Loop} {id : Nat}

theorem view_setClient_of_ne (client : Option Client) {other : Nat} (different : other ≠ id) :
    (loop.setClient id client).view other = loop.view other := by
  show View.mk (Function.update loop.clients id client other) _ _ _ = _
  rw [Function.update_of_ne different]
  rfl

theorem view_setClient_self (client : Option Client) :
    (loop.setClient id client).view id = { loop.view id with client := client } := by
  show View.mk (Function.update loop.clients id client id) _ _ _ = _
  rw [Function.update_self]
  rfl

/-- Another phase of an upstream conn concerns no client conn. -/
theorem view_setUpstream_some {pending next : Pending} (found : loop.upstreams id = some pending)
    (same : next.client = pending.client) (other : Nat) :
    (loop.setUpstream id (some next)).view other = loop.view other := by
  have set : (loop.setUpstream id (some next)).pendingOf other = loop.pendingOf other := by
    ext upstream
    show (∃ entry, Function.update loop.upstreams id (some next) upstream = some entry ∧ _) ↔
      ∃ entry, loop.upstreams upstream = some entry ∧ _
    by_cases here : upstream = id
    · rw [here, Function.update_self, found]
      simp [same]
    · rw [Function.update_of_ne here]
  show View.mk _ ((loop.setUpstream id (some next)).pendingOf other) _ _ = _
  rw [set]
  rfl

/-- Without an upstream conn, its client conn has one less. -/
theorem pendingOf_setUpstream_none {pending : Pending} (found : loop.upstreams id = some pending)
    (other : Nat) :
    (loop.setUpstream id none).pendingOf other =
      if other = pending.client then loop.pendingOf other \ {id} else loop.pendingOf other := by
  have set : ∀ upstream, upstream ∈ (loop.setUpstream id none).pendingOf other ↔
      upstream ≠ id ∧ upstream ∈ loop.pendingOf other := by
    intro upstream
    show (∃ entry, Function.update loop.upstreams id none upstream = some entry ∧ _) ↔
      _ ∧ ∃ entry, loop.upstreams upstream = some entry ∧ _
    by_cases here : upstream = id
    · rw [here, Function.update_self]
      simp
    · rw [Function.update_of_ne here]
      simp [here]
  ext upstream
  rw [set]
  split
  · rw [Set.mem_sdiff, Set.mem_singleton_iff]
    exact And.comm
  · rename_i elsewhere
    constructor
    · exact And.right
    · intro inside
      refine ⟨?_, inside⟩
      rintro rfl
      obtain ⟨entry, found', client⟩ := inside
      rw [found, Option.some.injEq] at found'
      exact elsewhere (by rw [found', client])

/-- A new upstream conn is one more of its client conn. -/
theorem pendingOf_setUpstream_new (unborn : loop.upstreams id = none) (pending : Pending)
    (other : Nat) :
    (loop.setUpstream id (some pending)).pendingOf other =
      if other = pending.client then insert id (loop.pendingOf other) else loop.pendingOf other := by
  have set : ∀ upstream, upstream ∈ (loop.setUpstream id (some pending)).pendingOf other ↔
      upstream = id ∧ pending.client = other ∨ upstream ∈ loop.pendingOf other := by
    intro upstream
    show (∃ entry, Function.update loop.upstreams id (some pending) upstream = some entry ∧ _) ↔
      _ ∨ ∃ entry, loop.upstreams upstream = some entry ∧ _
    by_cases here : upstream = id
    · rw [here, Function.update_self, unborn]
      simp
    · rw [Function.update_of_ne here]
      simp [here]
  ext upstream
  rw [set]
  split
  · rename_i client
    rw [client, Set.mem_insert_iff]
    simp
  · rename_i elsewhere
    constructor
    · rintro (⟨-, client⟩ | inside)
      · exact absurd client.symm elsewhere
      · exact inside
    · exact Or.inr

end Views

/-! ### One call of a handler -/

/-- A client conn whose request was handled and that has neither an upstream
nor a response: the state in which a handler makes its call. -/
structure Between (loop : Loop) (id : Nat) : Prop where
  lives : ∀ other, other ≠ id → Life (loop.view other)
  here : ∃ conn, loop.view id = ⟨some ⟨conn, false⟩, ∅, 1, 0⟩
  unborn : ∀ other, loop.fresh ≤ other →
    loop.view other = ⟨none, ∅, 0, 0⟩ ∧ loop.upstreams other = none
  unfaulted : loop.faulted = false

theorem Between.lt_fresh {loop : Loop} {id : Nat} (between : Between loop id) : id < loop.fresh := by
  by_contra late
  obtain ⟨conn, here⟩ := between.here
  have gone := (between.unborn id (by omega)).1
  rw [here] at gone
  exact absurd (congrArg View.client gone) (by simp)

theorem Between.respond {loop : Loop} {id : Nat} (between : Between loop id) (reply : Reply) :
    Orderly (loop.respond id reply) := by
  obtain ⟨conn, here⟩ := between.here
  have found : loop.clients id = some ⟨conn, false⟩ := congrArg View.client here
  have answered : loop.answered id = 0 := congrArg View.answered here
  have handled : loop.handled id = 1 := congrArg View.handled here
  have pending : loop.pendingOf id = ∅ := congrArg View.pending here
  have born := between.lt_fresh
  have next : loop.respond id reply =
      { loop.setClient id (some ⟨conn.startResponse reply, true⟩) with
        answered := Function.update loop.answered id 1 } := by
    unfold Loop.respond
    rw [found, answered]
  have self : (loop.respond id reply).view id = ⟨some ⟨conn.startResponse reply, true⟩, ∅, 1, 1⟩ := by
    rw [next]
    show View.mk (Function.update loop.clients id _ id) (loop.pendingOf id) (loop.handled id)
      (Function.update loop.answered id 1 id) = _
    rw [Function.update_self, Function.update_self, pending, handled]
  have frame : ∀ other, other ≠ id → (loop.respond id reply).view other = loop.view other := by
    intro other different
    rw [next]
    show View.mk (Function.update loop.clients id _ other) (loop.pendingOf other)
      (loop.handled other) (Function.update loop.answered id 1 other) = _
    rw [Function.update_of_ne different, Function.update_of_ne different]
    rfl
  refine ⟨?_, ?_, ?_⟩
  · intro other
    by_cases same : other = id
    · rw [same, self]
      exact .responding _ (le_refl 1)
    · rw [frame other same]
      exact between.lives other same
  · intro other late
    have late' : loop.fresh ≤ other := by
      rw [next] at late
      exact late
    have unborn := between.unborn other late'
    rw [frame other (by omega), next]
    exact unborn
  · rw [next]
    exact between.unfaulted

theorem Between.startUpstream {loop : Loop} {id : Nat} (between : Between loop id) (conn : Conn)
    (ctx : FrontendCtx) : Orderly (loop.startUpstream id conn ctx) := by
  obtain ⟨client, here⟩ := between.here
  have found : loop.clients id = some ⟨client, false⟩ := congrArg View.client here
  have answered : loop.answered id = 0 := congrArg View.answered here
  have handled : loop.handled id = 1 := congrArg View.handled here
  have pending : loop.pendingOf id = ∅ := congrArg View.pending here
  have born := between.lt_fresh
  have unborn := (between.unborn loop.fresh (le_refl _)).2
  have next : loop.startUpstream id conn ctx =
      { loop.setUpstream loop.fresh (some ⟨id, ctx, .connecting, conn⟩) with
        fresh := loop.fresh + 1 } := by
    unfold Loop.startUpstream
    rw [found]
  have set := pendingOf_setUpstream_new unborn ⟨id, ctx, .connecting, conn⟩
  dsimp only at set
  have self : (loop.startUpstream id conn ctx).view id =
      ⟨some ⟨client, false⟩, {loop.fresh}, 1, 0⟩ := by
    rw [next]
    show View.mk (loop.clients id) ((loop.setUpstream loop.fresh
      (some ⟨id, ctx, .connecting, conn⟩)).pendingOf id) (loop.handled id) (loop.answered id) = _
    rw [set, if_pos rfl, found, handled, answered, pending, insert_empty_eq]
  have frame : ∀ other, other ≠ id →
      (loop.startUpstream id conn ctx).view other = loop.view other := by
    intro other different
    rw [next]
    show View.mk (loop.clients other) ((loop.setUpstream loop.fresh
      (some ⟨id, ctx, .connecting, conn⟩)).pendingOf other) (loop.handled other)
      (loop.answered other) = _
    rw [set, if_neg different]
    rfl
  refine ⟨?_, ?_, ?_⟩
  · intro other
    by_cases same : other = id
    · rw [same, self]
      exact .waiting _ _
    · rw [frame other same]
      exact between.lives other same
  · intro other late
    have late' : loop.fresh + 1 ≤ other := by
      rw [next] at late
      exact late
    have old := between.unborn other (by omega)
    rw [frame other (by omega), next]
    refine ⟨old.1, ?_⟩
    show Function.update loop.upstreams loop.fresh _ other = none
    rw [Function.update_of_ne (by omega)]
    exact old.2
  · rw [next]
    exact between.unfaulted

/-- Whatever the request handler does, it makes one call. -/
theorem foldl_handleRequest (host : Leaf → Bytes) (id : Nat) (loop : Loop) (allocated sent : Bool)
    (req : HttpRequest) :
    (∃ reply, (handleRequest tcpBase allocated sent req).foldl (Loop.perform host id) loop =
      loop.respond id reply) ∨
    ∃ conn ctx, (handleRequest tcpBase allocated sent req).foldl (Loop.perform host id) loop =
      loop.startUpstream id conn ctx := by
  rcases handleRequest_cases tcpBase allocated sent req with
    ⟨reply, -, ends⟩ | ⟨-, refused⟩ | ⟨-, name, -, asks⟩
  · rw [ends]
    exact Or.inl ⟨reply, rfl⟩
  · rw [refused]
    exact Or.inl ⟨upstreamFailed, rfl⟩
  · rw [asks]
    exact Or.inr ⟨_, _, rfl⟩

theorem foldl_handleUpstreamResponse (host : Leaf → Bytes) (id : Nat) (loop : Loop) (sent : Bool)
    (ctx : FrontendCtx) (resp : HttpResponse) :
    (∃ reply, (handleUpstreamResponse tcpBase sent ctx resp).foldl (Loop.perform host id) loop =
      loop.respond id reply) ∨
    ∃ conn ctx', (handleUpstreamResponse tcpBase sent ctx resp).foldl (Loop.perform host id) loop =
      loop.startUpstream id conn ctx' := by
  rcases handleUpstreamResponse_cases tcpBase sent ctx resp with ⟨reply, ends⟩ | ⟨-, value, asks⟩
  · rw [ends]
    exact Or.inl ⟨reply, rfl⟩
  · rw [asks]
    exact Or.inr ⟨_, _, rfl⟩

/-! ### What a conn's place in the table says of its life -/

theorem Orderly.waiting {loop : Loop} (orderly : Orderly loop) {id : Nat} {pending : Pending}
    (found : loop.upstreams id = some pending) :
    ∃ conn, loop.view pending.client = ⟨some ⟨conn, false⟩, {id}, 1, 0⟩ := by
  have life := orderly.lives pending.client
  have member : id ∈ (loop.view pending.client).pending := ⟨pending, found, rfl⟩
  generalize loop.view pending.client = view at life member
  cases life with
  | absent once once' => exact absurd member (Set.notMem_empty id)
  | idle conn => exact absurd member (Set.notMem_empty id)
  | waiting conn upstream =>
      have same : id = upstream := member
      rw [same]
      exact ⟨conn, rfl⟩
  | responding conn once => exact absurd member (Set.notMem_empty id)

theorem Orderly.reading {loop : Loop} (orderly : Orderly loop) {id : Nat} {conn : Conn}
    (found : loop.clients id = some ⟨conn, false⟩) :
    loop.view id = ⟨some ⟨conn, false⟩, ∅, 0, 0⟩ ∨
      ∃ upstream, loop.view id = ⟨some ⟨conn, false⟩, {upstream}, 1, 0⟩ := by
  have life := orderly.lives id
  have client : (loop.view id).client = some ⟨conn, false⟩ := found
  generalize loop.view id = view at life client
  cases life with
  | absent once once' => contradiction
  | idle other =>
      have same : other = conn := congrArg Client.conn (Option.some.inj client)
      rw [same]
      exact Or.inl rfl
  | waiting other upstream =>
      have same : other = conn := congrArg Client.conn (Option.some.inj client)
      rw [same]
      exact Or.inr ⟨upstream, rfl⟩
  | responding other once =>
      have same := congrArg Client.responding (Option.some.inj client)
      contradiction

theorem Orderly.writing {loop : Loop} (orderly : Orderly loop) {id : Nat} {conn : Conn}
    (found : loop.clients id = some ⟨conn, true⟩) :
    ∃ handled, handled ≤ 1 ∧ loop.view id = ⟨some ⟨conn, true⟩, ∅, handled, 1⟩ := by
  have life := orderly.lives id
  have client : (loop.view id).client = some ⟨conn, true⟩ := found
  generalize loop.view id = view at life client
  cases life with
  | absent once once' => contradiction
  | idle other =>
      have same := congrArg Client.responding (Option.some.inj client)
      contradiction
  | waiting other upstream =>
      have same := congrArg Client.responding (Option.some.inj client)
      contradiction
  | responding other once =>
      have same : other = conn := congrArg Client.conn (Option.some.inj client)
      rw [same]
      exact ⟨_, once, rfl⟩

theorem Orderly.lt_fresh {loop : Loop} (orderly : Orderly loop) {id : Nat}
    (known : loop.clients id ≠ none) : id < loop.fresh := by
  by_contra late
  exact known (congrArg View.client (orderly.unborn id (by omega)).1)

/-- What an orderly loop is good for. -/
theorem sound_of_orderly {loop : Loop} (orderly : Orderly loop) : Sound loop where
  live := by
    intro id pending found
    obtain ⟨conn, view⟩ := orderly.waiting found
    have client : loop.clients pending.client = some ⟨conn, false⟩ := congrArg View.client view
    rw [client]
    rfl
  single := by
    intro id
    have life := orderly.lives id
    show ((loop.view id).pending).Subsingleton
    generalize loop.view id = view at life ⊢
    cases life with
    | absent once once' => exact Set.subsingleton_empty
    | idle conn => exact Set.subsingleton_empty
    | waiting conn upstream => exact Set.subsingleton_singleton
    | responding conn once => exact Set.subsingleton_empty
  exclusive := by
    rintro id ⟨conn, responding⟩ found busy
    have busy' : responding = true := busy
    rw [busy'] at found
    obtain ⟨handled, -, view⟩ := orderly.writing found
    exact congrArg View.pending view
  handledOnce := by
    intro id
    have life := orderly.lives id
    show (loop.view id).handled ≤ 1
    generalize loop.view id = view at life ⊢
    cases life with
    | absent once once' => exact once
    | idle conn => exact Nat.zero_le 1
    | waiting conn upstream => exact le_refl 1
    | responding conn once => exact once
  answeredOnce := by
    intro id
    have life := orderly.lives id
    show (loop.view id).answered ≤ 1
    generalize loop.view id = view at life ⊢
    cases life with
    | absent once once' => exact once'
    | idle conn => exact Nat.zero_le 1
    | waiting conn upstream => exact Nat.zero_le 1
    | responding conn once => exact le_refl 1
  unfaulted := orderly.unfaulted

/-! ### One event keeps the loop orderly -/

/-- A change of one client conn that it can live with. -/
theorem Orderly.setClient {loop : Loop} (orderly : Orderly loop) {id : Nat}
    (known : loop.clients id ≠ none) {client : Option Client}
    (life : Life { loop.view id with client := client }) : Orderly (loop.setClient id client) := by
  have born := orderly.lt_fresh known
  refine ⟨?_, ?_, orderly.unfaulted⟩
  · intro other
    by_cases same : other = id
    · rw [same, view_setClient_self]
      exact life
    · rw [view_setClient_of_ne client same]
      exact orderly.lives other
  · intro other late
    have late' : loop.fresh ≤ other := late
    rw [view_setClient_of_ne client (by omega)]
    exact orderly.unborn other late

theorem orderly_start : Orderly Loop.start := by
  have nothing : ∀ id, Loop.start.view id = ⟨none, ∅, 0, 0⟩ := by
    intro id
    have set : Loop.start.pendingOf id = ∅ := by
      apply Set.eq_empty_iff_forall_notMem.mpr
      rintro upstream ⟨pending, found, -⟩
      contradiction
    unfold Loop.view
    rw [set]
    rfl
  refine ⟨?_, fun id _ => ⟨nothing id, rfl⟩, rfl⟩
  intro id
  rw [nothing id]
  exact .absent (Nat.zero_le 1) (Nat.zero_le 1)

theorem orderly_accept {loop : Loop} (orderly : Orderly loop) :
    Orderly { loop.setClient loop.fresh (some ⟨{}, false⟩) with fresh := loop.fresh + 1 } := by
  have unborn := (orderly.unborn loop.fresh (le_refl _)).1
  refine ⟨?_, ?_, orderly.unfaulted⟩
  · intro other
    show Life ((loop.setClient loop.fresh (some ⟨{}, false⟩)).view other)
    by_cases same : other = loop.fresh
    · rw [same, view_setClient_self, unborn]
      exact .idle {}
    · rw [view_setClient_of_ne _ same]
      exact orderly.lives other
  · intro other late
    have late' : loop.fresh + 1 ≤ other := late
    show (loop.setClient loop.fresh (some ⟨{}, false⟩)).view other = _ ∧ _
    rw [view_setClient_of_ne _ (by omega)]
    exact orderly.unborn other (by omega)

/-- An idle client conn whose request is complete comes to the request handler. -/
theorem between_handled {loop : Loop} (orderly : Orderly loop) {id : Nat} {conn : Conn} (next : Conn)
    (idle : loop.view id = ⟨some ⟨conn, false⟩, ∅, 0, 0⟩) :
    Between { loop.setClient id (some ⟨next, false⟩) with
      handled := Function.update loop.handled id (loop.handled id + 1) } id := by
  have known : loop.clients id ≠ none := by
    have found : loop.clients id = some ⟨conn, false⟩ := congrArg View.client idle
    rw [found]
    simp
  have born := orderly.lt_fresh known
  have handled : loop.handled id = 0 := congrArg View.handled idle
  have pending : loop.pendingOf id = ∅ := congrArg View.pending idle
  have answered : loop.answered id = 0 := congrArg View.answered idle
  have frame : ∀ other, other ≠ id →
      Loop.view { loop.setClient id (some ⟨next, false⟩) with
        handled := Function.update loop.handled id (loop.handled id + 1) } other =
      loop.view other := by
    intro other different
    show View.mk (Function.update loop.clients id _ other) (loop.pendingOf other)
      (Function.update loop.handled id _ other) (loop.answered other) = _
    rw [Function.update_of_ne different, Function.update_of_ne different]
    rfl
  refine ⟨?_, ⟨next, ?_⟩, ?_, orderly.unfaulted⟩
  · intro other different
    rw [frame other different]
    exact orderly.lives other
  · show View.mk (Function.update loop.clients id _ id) (loop.pendingOf id)
      (Function.update loop.handled id _ id) (loop.answered id) = _
    rw [Function.update_self, Function.update_self, pending, handled, answered]
  · intro other late
    have late' : loop.fresh ≤ other := late
    rw [frame other (by omega)]
    exact orderly.unborn other late

/-- A client conn whose upstream ends comes to the upstream handler. -/
theorem between_ended {loop : Loop} (orderly : Orderly loop) {id : Nat} {pending : Pending}
    (found : loop.upstreams id = some pending) :
    Between (loop.setUpstream id none) pending.client := by
  obtain ⟨conn, waiting⟩ := orderly.waiting found
  have client : loop.clients pending.client = some ⟨conn, false⟩ := congrArg View.client waiting
  have one : loop.pendingOf pending.client = {id} := congrArg View.pending waiting
  have handled : loop.handled pending.client = 1 := congrArg View.handled waiting
  have answered : loop.answered pending.client = 0 := congrArg View.answered waiting
  have known : loop.clients pending.client ≠ none := by
    rw [client]
    simp
  have born := orderly.lt_fresh known
  have set := pendingOf_setUpstream_none found
  have frame : ∀ other, other ≠ pending.client →
      (loop.setUpstream id none).view other = loop.view other := by
    intro other different
    show View.mk _ ((loop.setUpstream id none).pendingOf other) _ _ = _
    rw [set, if_neg different]
    rfl
  refine ⟨?_, ⟨conn, ?_⟩, ?_, orderly.unfaulted⟩
  · intro other different
    rw [frame other different]
    exact orderly.lives other
  · show View.mk (loop.clients pending.client) ((loop.setUpstream id none).pendingOf pending.client)
      (loop.handled pending.client) (loop.answered pending.client) = _
    rw [set, if_pos rfl, one, client, handled, answered, Set.sdiff_self]
  · intro other late
    have late' : loop.fresh ≤ other := late
    obtain ⟨view, unborn⟩ := orderly.unborn other late
    rw [frame other (by omega)]
    refine ⟨view, ?_⟩
    show Function.update loop.upstreams id none other = none
    by_cases same : other = id
    · rw [same, Function.update_self]
    · rw [Function.update_of_ne same]
      exact unborn

theorem orderly_clientRead {loop : Loop} (orderly : Orderly loop) {host : Leaf → Bytes} {id : Nat}
    {conn : Conn} (found : loop.clients id = some ⟨conn, false⟩) {result : ReadResult}
    {allocated sent : Bool} (undisturbed : Undisturbed loop (.clientRead id result allocated sent)) :
    Orderly (loop.clientRead host id conn result allocated sent) := by
  have known : loop.clients id ≠ none := by
    rw [found]
    simp
  -- A conn that is freed, or whose request is complete, must be idle.
  have idle : loop.pendingOf id = ∅ → loop.view id = ⟨some ⟨conn, false⟩, ∅, 0, 0⟩ := by
    intro empty
    rcases orderly.reading found with idle | ⟨upstream, waiting⟩
    · exact idle
    · have one : loop.pendingOf id = {upstream} := congrArg View.pending waiting
      rw [empty] at one
      exact absurd one.symm (Set.singleton_ne_empty upstream)
  have freed : loop.pendingOf id = ∅ → Orderly (loop.setClient id none) := by
    intro empty
    apply orderly.setClient known
    rw [idle empty]
    exact .absent (Nat.zero_le 1) (Nat.zero_le 1)
  cases result with
  | data bytes =>
      have kept : ∀ next, Orderly (loop.setClient id (some ⟨next, false⟩)) := by
        intro next
        apply orderly.setClient known
        rcases orderly.reading found with idle | ⟨upstream, waiting⟩
        · rw [idle]
          exact .idle next
        · rw [waiting]
          exact .waiting next upstream
      unfold Loop.clientRead onClientRead
      dsimp only
      cases parsed : httpParseRequest (conn.rbuf ++ bytes) with
      | more => exact kept _
      | bad => exact absurd parsed (httpParseRequest_ne_bad _)
      | complete req =>
          have empty : loop.pendingOf id = ∅ := by
            by_contra busy
            have more := undisturbed busy _ found
            rw [parsed] at more
            contradiction
          have between := between_handled orderly { conn with rbuf := conn.rbuf ++ bytes }
            (idle empty)
          dsimp only
          unfold Loop.handle
          rcases foldl_handleRequest host id _ allocated sent req with
            ⟨reply, one⟩ | ⟨upstream, ctx, one⟩
          · rw [one]
            exact between.respond reply
          · rw [one]
            exact between.startUpstream upstream ctx
  | closed => exact freed undisturbed
  | again => exact freed undisturbed
  | failed => exact freed undisturbed

theorem orderly_clientWrite {loop : Loop} (orderly : Orderly loop) {id : Nat} {conn : Conn}
    (found : loop.clients id = some ⟨conn, true⟩) (result : WriteResult) :
    Orderly (loop.clientWrite id conn result) := by
  have known : loop.clients id ≠ none := by
    rw [found]
    simp
  obtain ⟨handled, once, responding⟩ := orderly.writing found
  apply orderly.setClient known
  rw [responding]
  cases onClientWrite conn result with
  | none => exact .absent once (le_refl 1)
  | some next => exact .responding next once

theorem orderly_upstreamEvent {loop : Loop} (orderly : Orderly loop) {host : Leaf → Bytes} {id : Nat}
    {pending : Pending} (found : loop.upstreams id = some pending) (sent : Bool)
    (exchange : Exchange) : Orderly (loop.upstreamEvent host id pending sent exchange) := by
  cases exchange with
  | pending phase conn =>
      have views := view_setUpstream_some found
        (show Pending.client { pending with phase := phase, conn := conn } = pending.client from rfl)
      refine ⟨?_, ?_, orderly.unfaulted⟩
      · intro other
        show Life ((loop.setUpstream id _).view other)
        rw [views]
        exact orderly.lives other
      · intro other late
        have late' : loop.fresh ≤ other := late
        obtain ⟨view, unborn⟩ := orderly.unborn other late'
        show (loop.setUpstream id _).view other = _ ∧ Function.update loop.upstreams id _ other = none
        rw [views]
        refine ⟨view, ?_⟩
        rw [Function.update_of_ne, unborn]
        rintro rfl
        rw [found] at unborn
        contradiction
  | replied reply => exact (between_ended orderly found).respond reply
  | handed resp =>
      have between := between_ended orderly found
      unfold Loop.upstreamEvent
      dsimp only
      rcases foldl_handleUpstreamResponse host pending.client (loop.setUpstream id none) sent
          pending.ctx resp with ⟨reply, one⟩ | ⟨conn, ctx, one⟩
      · rw [one]
        exact between.respond reply
      · rw [one]
        exact between.startUpstream conn ctx

/-- What one event does to a loop that is not faulted. -/
theorem step_cases {host : Leaf → Bytes} {loop next : Loop} {event : Event}
    (taken : loop.step host event = some next) :
    (event = .accept ∧
      next = { loop.setClient loop.fresh (some ⟨{}, false⟩) with fresh := loop.fresh + 1 }) ∨
    (∃ id result allocated sent conn, event = .clientRead id result allocated sent ∧
      loop.clients id = some ⟨conn, false⟩ ∧
      next = loop.clientRead host id conn result allocated sent) ∨
    (∃ id result conn, event = .clientWrite id result ∧ loop.clients id = some ⟨conn, true⟩ ∧
      next = loop.clientWrite id conn result) ∨
    ∃ id upstream sent pending exchange, event = .upstream id upstream sent ∧
      loop.upstreams id = some pending ∧
      next = loop.upstreamEvent host id pending sent exchange := by
  unfold Loop.step at taken
  split at taken
  · contradiction
  · cases event with
    | accept => exact Or.inl ⟨rfl, (Option.some.inj taken).symm⟩
    | clientRead id result allocated sent =>
        right
        left
        dsimp only at taken
        split at taken
        · rename_i conn found
          split at taken
          · exact ⟨id, result, allocated, sent, conn, rfl, found, (Option.some.inj taken).symm⟩
          · contradiction
        · contradiction
    | clientWrite id result =>
        right
        right
        left
        dsimp only at taken
        split at taken
        · rename_i conn found
          split at taken
          · exact ⟨id, result, conn, rfl, found, (Option.some.inj taken).symm⟩
          · contradiction
        · contradiction
    | upstream id event sent =>
        right
        right
        right
        dsimp only at taken
        split at taken
        · contradiction
        · rename_i pending found
          obtain ⟨exchange, -, same⟩ := Option.map_eq_some_iff.mp taken
          exact ⟨id, event, sent, pending, exchange, rfl, found, same.symm⟩

theorem orderly_step {host : Leaf → Bytes} {loop next : Loop} {event : Event}
    (orderly : Orderly loop) (undisturbed : Undisturbed loop event)
    (taken : loop.step host event = some next) : Orderly next := by
  rcases step_cases taken with ⟨-, same⟩ | ⟨id, result, allocated, sent, conn, shape, found, same⟩ |
    ⟨id, result, conn, -, found, same⟩ | ⟨id, event, sent, pending, exchange, -, found, same⟩
  · rw [same]
    exact orderly_accept orderly
  · rw [shape] at undisturbed
    rw [same]
    exact orderly_clientRead orderly found undisturbed
  · rw [same]
    exact orderly_clientWrite orderly found result
  · rw [same]
    exact orderly_upstreamEvent orderly found sent exchange

/-! ### A disturbed client conn -/

theorem handled_foldl (host : Leaf → Bytes) (id : Nat) (actions : List Action) (loop : Loop) :
    (actions.foldl (Loop.perform host id) loop).handled = loop.handled := by
  induction actions generalizing loop with
  | nil => rfl
  | cons action actions inductionHypothesis =>
      rw [List.foldl_cons, inductionHypothesis]
      cases action with
      | respond reply =>
          show (loop.respond id reply).handled = _
          unfold Loop.respond
          split
          · rfl
          · rfl
      | send leaf target ctx =>
          show (loop.startUpstream id _ ctx).handled = _
          unfold Loop.startUpstream
          split
          · rfl
          · rfl
      | free => rfl

/-- A disturbed client conn is freed under its upstream, or handled again. -/
theorem undisturbed_of_sound {host : Leaf → Bytes} {loop next : Loop} {event : Event}
    (orderly : Orderly loop) (taken : loop.step host event = some next) (sound : Sound next) :
    Undisturbed loop event := by
  rcases step_cases taken with ⟨shape, -⟩ | ⟨id, result, allocated, sent, conn, shape, found, same⟩ |
    ⟨id, result, conn, shape, -⟩ | ⟨id, event, sent, pending, exchange, shape, -⟩
  · rw [shape]
    trivial
  · rw [shape]
    have freed : next = loop.setClient id none → loop.pendingOf id = ∅ := by
      intro gone
      apply Set.eq_empty_iff_forall_notMem.mpr
      rintro upstream ⟨pending, inside, client⟩
      have live := sound.live upstream pending (by rw [gone]; exact inside)
      rw [gone, client] at live
      unfold Loop.setClient at live
      dsimp only at live
      rw [Function.update_self] at live
      contradiction
    cases result with
    | data bytes =>
        intro busy client known
        rw [found, Option.some.injEq] at known
        rw [← known]
        rcases orderly.reading found with idle | ⟨upstream, waiting⟩
        · exact absurd (congrArg View.pending idle) busy
        · cases parsed : httpParseRequest (conn.rbuf ++ bytes) with
          | more => rfl
          | bad => exact absurd parsed (httpParseRequest_ne_bad _)
          | complete req =>
              have handled : loop.handled id = 1 := congrArg View.handled waiting
              have once := sound.handledOnce id
              unfold Loop.clientRead onClientRead at same
              dsimp only at same
              rw [parsed] at same
              dsimp only at same
              unfold Loop.handle at same
              rw [same, handled_foldl] at once
              have twice : Function.update loop.handled id (loop.handled id + 1) id ≤ 1 := once
              rw [Function.update_self, handled] at twice
              omega
    | closed => exact freed same
    | again => exact freed same
    | failed => exact freed same
  · rw [shape]
    trivial
  · rw [shape]
    trivial

/-! ### Whole runs -/

/-- A run of the event loop keeps to the life of its conns exactly when no
client conn is disturbed while its upstream is pending. -/
theorem sound_iff_undisturbed (host : Leaf → Bytes) (events : List Event) :
    Throughout (Loop.step host) Sound Loop.start events ↔
      EachStep (Loop.step host) Undisturbed Loop.start events :=
  throughout_iff_eachStep_of_invariant (fun _ => sound_of_orderly)
    (fun _ _ _ orderly undisturbed taken => orderly_step orderly undisturbed taken)
    (fun _ _ _ orderly taken sound => undisturbed_of_sound orderly taken sound)
    orderly_start events

/-- A client asks, closes, and its upstream fails to connect. -/
def closedEarly : List Event :=
  [.accept, .clientRead 0 (.data (ascii "GET /lookup?name=bob HTTP/1.1\r\n\r\n")) true true,
    .clientRead 0 .closed true true, .upstream 1 (.connect false) true]

/-- The callback of the upstream conn acts on the freed client conn. -/
theorem faulted_closedEarly :
    (run (Loop.step fun _ => ascii "127.0.0.1") Loop.start closedEarly).map Loop.faulted =
      some true := by
  decide +kernel

theorem not_sound_closedEarly :
    ¬ Throughout (Loop.step fun _ => ascii "127.0.0.1") Sound Loop.start closedEarly := by
  intro throughout
  obtain ⟨final, runs, faulted⟩ := Option.map_eq_some_iff.mp faulted_closedEarly
  have unfaulted := (throughout.last runs).unfaulted
  rw [faulted] at unfaulted
  contradiction

end MiniMs.Tcp
