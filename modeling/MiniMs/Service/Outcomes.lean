import MiniMs.Dpumesh.Handler
import MiniMs.Tcp.Upstream
import MiniMs.Service.Handlers

/-!
Whole requests of the frontend over the ways in which its exchanges end.

Owns: the calls that a request leads to, one exchange after the other; what it
means that the client is answered once and the context is freed once; and the
exact condition for that, on the TCP handler and on the DPUmesh handler.

The client conn is live, and the calls are those of the handlers and of the
transport; what becomes of a reply on its way is not asked here.
-/

namespace MiniMs.Service

open MiniMs.Dpumesh MiniMs.Http MiniMs.Library.Run MiniMs.Library.Text MiniMs.Tcp

/-! ### The calls of a request -/

/-- How an exchange that was started ends: the transport gives up, with or
without a reply to the client, or the upstream handler is called. -/
inductive Ending where
  | failed (reply : Option Reply)
  | handed (resp : HttpResponse)

/-- The calls at the end of an exchange. -/
def Ending.actions (base : Leaf → Bytes) (sent : Bool) (ctx : FrontendCtx) : Ending → List Action
  | .failed reply => reply.toList.map .respond
  | .handed resp => handleUpstreamResponse base sent ctx resp

section Follow

variable {Exchange : Type} (base : Leaf → Bytes) (finish : Leaf → Bytes → Exchange → Option Ending)

/-- The calls from some actions on, with one exchange for each that is started.
A handler that wants to start one where none is left is refused. -/
def follow : List Action → List Exchange → Option (List Action)
  | actions, [] => if sends actions = [] then some actions else none
  | actions, exchange :: rest =>
      match sends actions with
      | [] => none
      | (leaf, target, ctx) :: _ =>
          (finish leaf target exchange).bind fun ending =>
            (follow (ending.actions base (!rest.isEmpty) ctx) rest).map (actions ++ ·)

/-- The calls of a request, with the exchanges that it starts. -/
def requestActions (allocated : Bool) (req : HttpRequest) (exchanges : List Exchange) :
    Option (List Action) :=
  follow base finish (handleRequest base allocated (!exchanges.isEmpty) req) exchanges

end Follow

/-- How many contexts a request allocates. -/
def contexts (allocated : Bool) (req : HttpRequest) : Nat :=
  if req.method ≠ ascii "GET" ∨ req.path ≠ ascii "/lookup" then 0
  else
    match queryGet req.query (ascii "name") 64 with
    | none => 0
    | some _ => if allocated then 1 else 0

/-- The client is answered once, and what was allocated is freed once. -/
def AnsweredOnce (allocated : Bool) (req : HttpRequest) (actions : List Action) : Prop :=
  (responses actions).length = 1 ∧ frees actions = contexts allocated req

/-! ### What each call adds -/

/-- Actions that end a request, and actions that start an exchange. -/
inductive Stage (freed : Nat) (actions : List Action) : Prop where
  | ended (answered : (responses actions).length = 1) (released : frees actions = freed)
      (silent : sends actions = [])
  | asks (unanswered : (responses actions).length = 0) (kept : frees actions = 0)
      (started : sends actions ≠ [])

theorem stage_handleRequest (base : Leaf → Bytes) (allocated sent : Bool) (req : HttpRequest) :
    Stage (contexts allocated req) (handleRequest base allocated sent req) := by
  unfold contexts handleRequest
  split
  · exact .ended rfl rfl rfl
  · cases queryGet req.query (ascii "name") 64 with
    | none => exact .ended rfl rfl rfl
    | some name =>
        cases allocated with
        | false => exact .ended rfl rfl rfl
        | true =>
            cases sent with
            | false => exact .ended rfl rfl rfl
            | true => exact .asks rfl rfl (by simp [sends])

/-- Only a request with a context starts an exchange. -/
theorem contexts_of_sends {base : Leaf → Bytes} {allocated sent : Bool} {req : HttpRequest}
    (started : sends (handleRequest base allocated sent req) ≠ []) : contexts allocated req = 1 := by
  unfold handleRequest at started
  unfold contexts
  split at started
  · exact absurd rfl started
  · rename_i known
    rw [if_neg known]
    cases found : queryGet req.query (ascii "name") 64 with
    | none =>
        rw [found] at started
        exact absurd rfl started
    | some name =>
        rw [found] at started
        cases allocated with
        | false => exact absurd rfl started
        | true => rfl

theorem stage_handleUpstreamResponse (base : Leaf → Bytes) (sent : Bool) (ctx : FrontendCtx)
    (resp : HttpResponse) : Stage 1 (handleUpstreamResponse base sent ctx resp) := by
  rcases handleUpstreamResponse_cases base sent ctx resp with ⟨reply, ends⟩ | ⟨-, id, asks⟩
  · rw [ends]
    exact .ended rfl rfl rfl
  · rw [asks]
    exact .asks rfl rfl (by simp [sends])

/-- The transport does not free a context. -/
theorem failed_actions (base : Leaf → Bytes) (sent : Bool) (ctx : FrontendCtx)
    (reply : Option Reply) :
    frees ((Ending.failed reply).actions base sent ctx) = 0 ∧
      sends ((Ending.failed reply).actions base sent ctx) = [] := by
  cases reply with
  | none => exact ⟨rfl, rfl⟩
  | some reply => exact ⟨rfl, rfl⟩

/-! ### Whole requests -/

section Exact

variable {Exchange : Type} {base : Leaf → Bytes} {finish : Leaf → Bytes → Exchange → Option Ending}
  {answers : Exchange → Prop}

/-- From a handler's actions on, the request is answered and its context freed
exactly when every exchange that follows ends with a response. -/
theorem follow_iff
    (ends : ∀ leaf target exchange ending, finish leaf target exchange = some ending →
      (answers exchange ↔ ∃ resp, ending = .handed resp))
    {actions all : List Action} {exchanges : List Exchange} (stage : Stage 1 actions)
    (follows : follow base finish actions exchanges = some all) :
    (responses all).length = 1 ∧ frees all = 1 ↔ ∀ exchange ∈ exchanges, answers exchange := by
  induction exchanges generalizing actions all with
  | nil =>
      unfold follow at follows
      split at follows
      · rename_i silent
        rw [← Option.some.inj follows]
        cases stage with
        | ended answered released _ => exact ⟨by simp, fun _ => ⟨answered, released⟩⟩
        | asks _ _ started => exact absurd silent started
      · contradiction
  | cons exchange rest inductionHypothesis =>
      unfold follow at follows
      split at follows
      · contradiction
      · rename_i leaf target ctx others asks
        obtain ⟨ending, finished, goesOn⟩ := Option.bind_eq_some_iff.mp follows
        obtain ⟨tail, behind, same⟩ := Option.map_eq_some_iff.mp goesOn
        have unanswered : (responses actions).length = 0 ∧ frees actions = 0 := by
          cases stage with
          | ended _ _ silent =>
              rw [silent] at asks
              contradiction
          | asks unanswered kept _ => exact ⟨unanswered, kept⟩
        rw [← same, responses_append, frees_append, List.length_append, unanswered.1, unanswered.2,
          Nat.zero_add, Nat.zero_add, List.forall_mem_cons]
        cases ending with
        | handed resp =>
            have answered : answers exchange :=
              (ends leaf target exchange _ finished).mpr ⟨resp, rfl⟩
            rw [inductionHypothesis (stage_handleUpstreamResponse base _ ctx resp) behind]
            exact ⟨fun later => ⟨answered, later⟩, fun both => both.2⟩
        | failed reply =>
            have unanswered' : ¬ answers exchange := by
              intro answered
              obtain ⟨resp, handed⟩ := (ends leaf target exchange _ finished).mp answered
              contradiction
            obtain ⟨kept, silent⟩ := failed_actions base (!rest.isEmpty) ctx reply
            have last : frees tail = 0 := by
              cases rest with
              | nil =>
                  unfold follow at behind
                  rw [if_pos silent] at behind
                  rw [← Option.some.inj behind]
                  exact kept
              | cons next later =>
                  unfold follow at behind
                  rw [silent] at behind
                  contradiction
            rw [last]
            exact ⟨fun both => absurd both.2 (by decide), fun both => absurd both.1 unanswered'⟩

theorem requestActions_iff
    (ends : ∀ leaf target exchange ending, finish leaf target exchange = some ending →
      (answers exchange ↔ ∃ resp, ending = .handed resp))
    {allocated : Bool} {req : HttpRequest} {exchanges : List Exchange} {all : List Action}
    (runs : requestActions base finish allocated req exchanges = some all) :
    AnsweredOnce allocated req all ↔ ∀ exchange ∈ exchanges, answers exchange := by
  have stage := stage_handleRequest base allocated (!exchanges.isEmpty) req
  unfold requestActions at runs
  unfold AnsweredOnce
  cases stage with
  | ended answered released silent =>
      cases exchanges with
      | nil =>
          unfold follow at runs
          rw [if_pos silent] at runs
          rw [← Option.some.inj runs]
          exact ⟨by simp, fun _ => ⟨answered, released⟩⟩
      | cons exchange rest =>
          unfold follow at runs
          rw [silent] at runs
          contradiction
  | asks unanswered kept started =>
      rw [contexts_of_sends started]
      exact follow_iff ends (.asks unanswered kept started) runs

end Exact

/-! ### The two handlers -/

/-- A TCP exchange as its events, from `conn_start_upstream` until the conn is
freed. -/
def tcpFinish (host : Leaf → Bytes) (leaf : Leaf) (target : Bytes) (events : List UpstreamEvent) :
    Option Ending :=
  match run Exchange.step (.pending .connecting (startUpstream (ascii "GET") target (host leaf)))
      events with
  | some (.replied reply) => some (.failed (some reply))
  | some (.handed resp) => some (.handed resp)
  | some (.pending _ _) => none
  | none => none

/-- A DPUmesh exchange as what `dpumesh_read_response` gives; `none` is its -1. -/
def dpumeshFinish (_ : Leaf) (_ : Bytes) (result : Option Response) : Option Ending :=
  match onUpstreamResponse result with
  | none => some (.failed none)
  | some resp => some (.handed resp)

/-- The bytes that were read are a complete response. -/
def TcpAnswers (events : List UpstreamEvent) : Prop := Responds (bytesRead events)

/-- A response was read, and its body holds no NUL. -/
def DpumeshAnswers (result : Option Response) : Prop :=
  ∃ response, result = some response ∧ 0 ∉ response.bytes

theorem tcpFinish_iff (host : Leaf → Bytes) (leaf : Leaf) (target : Bytes)
    (events : List UpstreamEvent) (ending : Ending)
    (finished : tcpFinish host leaf target events = some ending) :
    TcpAnswers events ↔ ∃ resp, ending = .handed resp := by
  unfold tcpFinish at finished
  split at finished
  · rename_i reply runs
    have silent : ¬ TcpAnswers events := readSoFar_of_run runs
    rw [← Option.some.inj finished]
    exact ⟨fun answers => absurd answers silent, fun ⟨_, handed⟩ => absurd handed (by simp)⟩
  · rename_i resp runs
    have complete : httpParseResponse (bytesRead events) = .complete resp := readSoFar_of_run runs
    rw [← Option.some.inj finished]
    exact ⟨fun _ => ⟨resp, rfl⟩, fun _ => ⟨resp, complete⟩⟩
  · contradiction
  · contradiction

theorem dpumeshFinish_iff (leaf : Leaf) (target : Bytes) (result : Option Response)
    (ending : Ending) (finished : dpumeshFinish leaf target result = some ending) :
    DpumeshAnswers result ↔ ∃ resp, ending = .handed resp := by
  unfold dpumeshFinish at finished
  cases result with
  | none =>
      rw [← Option.some.inj finished]
      exact ⟨fun ⟨_, found, _⟩ => absurd found (by simp), fun ⟨_, handed⟩ => absurd handed (by simp)⟩
  | some response =>
      rw [onUpstreamResponse_some] at finished
      by_cases nul : 0 ∈ response.bytes
      · rw [if_pos nul] at finished
        rw [← Option.some.inj finished]
        constructor
        · rintro ⟨same, found, clean⟩
          rw [← Option.some.inj found] at clean
          exact absurd nul clean
        · rintro ⟨resp, handed⟩
          contradiction
      · rw [if_neg nul] at finished
        rw [← Option.some.inj finished]
        exact ⟨fun _ => ⟨_, rfl⟩, fun _ => ⟨response, rfl, nul⟩⟩

/-- On either handler, a request is answered once and its context is freed once
exactly when each exchange that was started ends with a response. -/
theorem answeredOnce_iff_exchanges_answer (host : Leaf → Bytes)
    (idServiceName attendServiceName space : Bytes) (allocated : Bool) (req : HttpRequest) :
    (∀ exchanges actions,
      requestActions tcpBase (tcpFinish host) allocated req exchanges = some actions →
        (AnsweredOnce allocated req actions ↔ ∀ events ∈ exchanges, TcpAnswers events)) ∧
      ∀ exchanges actions,
        requestActions (dpumeshBase idServiceName attendServiceName space) dpumeshFinish allocated
            req exchanges = some actions →
          (AnsweredOnce allocated req actions ↔ ∀ result ∈ exchanges, DpumeshAnswers result) := by
  constructor
  · intro exchanges actions runs
    exact requestActions_iff (tcpFinish_iff host) runs
  · intro exchanges actions runs
    exact requestActions_iff dpumeshFinish_iff runs

/-- A lookup of one name. -/
def bobRequest : HttpRequest := ⟨ascii "GET", ascii "/lookup", ascii "name=bob", [], 0⟩

/-- The events of an exchange that brings a response in one piece. -/
def wholeExchange (target host response : Bytes) : List UpstreamEvent :=
  [.connect true, .write (.wrote (upstreamRequest (ascii "GET") target host).length),
    .read (.data response)]

def absentResponse : Bytes := ascii "HTTP/1.1 404 Not Found\r\n\r\n"

theorem answeredOnce_iff_exchanges_answer_absent :
    AnsweredOnce true bobRequest
        [.send .idService (ascii "/id?name=bob") ⟨.waitingId, ascii "bob", 0⟩,
          .respond (.printed 404 []), .free] ∧
      AnsweredOnce true bobRequest
        [.send .idService (ascii "http://id-service.mini-ms-dpumesh.svc.cluster.local/id?name=bob")
            ⟨.waitingId, ascii "bob", 0⟩,
          .respond (.printed 404 []), .free] := by
  have exact := answeredOnce_iff_exchanges_answer (fun _ => ascii "127.0.0.1") (ascii "id-service")
    (ascii "attend-service") (ascii "mini-ms-dpumesh") true bobRequest
  constructor
  · apply (exact.1 [wholeExchange (ascii "/id?name=bob") (ascii "127.0.0.1") absentResponse] _
      (by decide +kernel)).mpr
    intro events member
    rw [List.mem_singleton.mp member]
    exact ⟨⟨404, [], 0⟩, by decide +kernel⟩
  · apply (exact.2 [some ⟨404, none, [], [], -1, -1, by decide, by decide, by decide⟩] _
      (by decide +kernel)).mpr
    intro result member
    exact ⟨_, List.mem_singleton.mp member, by decide⟩

/-- Where the connect of the id service fails, the context is not freed; where
its response cannot be read over DPUmesh, the client is not answered, either. -/
theorem not_answeredOnce :
    requestActions tcpBase (tcpFinish fun _ => ascii "127.0.0.1") true bobRequest
        [[.connect false]] =
      some [.send .idService (ascii "/id?name=bob") ⟨.waitingId, ascii "bob", 0⟩,
        .respond connectFailed] ∧
    ¬ AnsweredOnce true bobRequest
        [.send .idService (ascii "/id?name=bob") ⟨.waitingId, ascii "bob", 0⟩,
          .respond connectFailed] ∧
    requestActions (dpumeshBase (ascii "id-service") (ascii "attend-service")
        (ascii "mini-ms-dpumesh")) dpumeshFinish true bobRequest [none] =
      some [.send .idService
        (ascii "http://id-service.mini-ms-dpumesh.svc.cluster.local/id?name=bob")
        ⟨.waitingId, ascii "bob", 0⟩] ∧
    ¬ AnsweredOnce true bobRequest
        [.send .idService
          (ascii "http://id-service.mini-ms-dpumesh.svc.cluster.local/id?name=bob")
          ⟨.waitingId, ascii "bob", 0⟩] := by
  refine ⟨by decide +kernel, ?_, by decide +kernel, ?_⟩
  · rintro ⟨-, freed⟩
    exact absurd freed (by decide)
  · rintro ⟨answered, -⟩
    exact absurd answered (by decide)

end MiniMs.Service
