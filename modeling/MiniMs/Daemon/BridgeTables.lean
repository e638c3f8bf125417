import MiniMs.Daemon.IngressText
import MiniMs.Daemon.RouteResponse
import MiniMs.Library.JsonPrinted
import MiniMs.Library.Run

/-!
The two tables in which the handlers of bridge clients wait for their responses.

Owns: the steps of any number of `_handle_bridge_client` runs and of
`_deliver_bridge_response` on the tables, the property that the tables hold the ids
of the running handlers and nothing else and that a client gets at most one reply,
its own, and the exact condition on the steps of a run for it.

What a handler finds outside, in the registry, the pool and the ring, is left to the
run. A handler runs, as far as the tables go, from the step that enters its id to
the step that takes it out or ends it.
-/

namespace MiniMs.Daemon

open MiniMs.Dpumesh MiniMs.Library.Text MiniMs.Library.Json MiniMs.Library.Run

/-! ### Handlers -/

/-- A reply to a client, as the dictionary that is sent. -/
abbrev BridgeDict := List (PyStr × Value)

/-- `_send_bridge_error`. -/
def bridgeError (reqId : PyStr) (status : Nat) (message : PyStr) : BridgeDict :=
  [(lit "req_id", .string reqId), (lit "status", .number (intNumeral status)),
    (lit "body", .string ((dumps (.object [(lit "error", .string message)])).map ofByte))]

inductive BridgePhase where
  /-- `conn.recv`, until `json.loads` gives something. -/
  | receiving
  /-- The id is in both tables; the request is being made. -/
  | entered (client : Value) (uuid : Uuid)
  /-- `event.wait(timeout=30)`. -/
  | waiting
  /-- `event.wait` has returned this. -/
  | waited (set : Bool)
  /-- The id is out of the tables; the reply is to be sent. -/
  | replying (reply : BridgeDict)
  | ended

structure BridgeHandler where
  phase : BridgePhase := .receiving
  reqId : Option PyStr := none
  replies : List BridgeDict := []

/-- `_bridge_events`, each with its flag, `_bridge_responses`, and the handlers. -/
structure BridgeTables where
  events : PyStr → Option Bool := fun _ => none
  responses : PyStr → Option (Option BridgeDict) := fun _ => none
  handlers : List BridgeHandler := []

/-! ### Steps -/

inductive BridgeEvent where
  /-- `server.accept`. -/
  | accept
  /-- The connection ends, or an exception does, before there is a request. -/
  | close (index : Nat)
  /-- `json.loads` gives a value; the id is made and entered. -/
  | receive (index : Nat) (client : Value) (uuid : Uuid)
  /-- The request is made: what lies outside, the slot that `alloc` returns, what
  `sidecar_rx_sq.put` returns (`none` where it raises), and whether an error can be sent. -/
  | prepare (index : Nat) (env : BridgeEnv) (slot : Int) (put : Option Bool) (sends : Bool)
  /-- A call of the step before raises. -/
  | fault (index : Nat)
  /-- `event.wait` returns. -/
  | wait (index : Nat)
  /-- The id is taken out under the lock. -/
  | collect (index : Nat)
  /-- The reply is sent, if it can be, and the connection is closed. -/
  | reply (index : Nat) (sends : Bool)
  /-- `_deliver_bridge_response`, from the lock on. -/
  | deliver (info : BridgeDict) (body : PyStr)

/-- A handler that ends, with an error if one can be sent. -/
def BridgeHandler.fail (handler : BridgeHandler) (error : Option BridgeDict) : BridgeHandler :=
  { handler with phase := .ended, replies := handler.replies ++ error.toList }

/-- What making the request leads to. A request that is no dictionary has no `get`. -/
def BridgeHandler.prepare (handler : BridgeHandler) (client : Value) (uuid : Uuid) (env : BridgeEnv)
    (slot : Int) (put : Option Bool) (sends : Bool) : BridgeHandler :=
  let error (status : Nat) (message : PyStr) :=
    handler.fail (if sends then some (bridgeError (ofAscii uuid.text) status message) else none)
  match client with
  | .object members =>
      match handleBridgeClient env members uuid slot with
      | .raised => handler.fail none
      | .error status message => error status message
      | .sent _ _ =>
          match put with
          | none => handler.fail none
          | some false => error 503 (lit "Sidecar RX SQ full")
          | some true => { handler with phase := .waiting }
  | _ => handler.fail none

def BridgeTables.setHandler (state : BridgeTables) (index : Nat) (handler : BridgeHandler) :
    BridgeTables :=
  { state with handlers := state.handlers.set index handler }

/-- Both tables with the id. -/
def BridgeTables.enter (state : BridgeTables) (key : PyStr) : BridgeTables :=
  { state with
    events := Function.update state.events key (some false)
    responses := Function.update state.responses key (some none) }

/-- Both tables without the id. -/
def BridgeTables.leave (state : BridgeTables) (key : PyStr) : BridgeTables :=
  { state with
    events := Function.update state.events key none
    responses := Function.update state.responses key none }

/-- The reply after `event.wait`, by what stands in `_bridge_responses`. -/
def waitedReply (set : Bool) (key : PyStr) (response : Option (Option BridgeDict)) : BridgeDict :=
  if set then
    match response with
    | some (some response) => response
    | _ => bridgeError key 500 (lit "No response")
  else bridgeError key 504 (lit "Gateway Timeout")

def BridgeTables.deliver (state : BridgeTables) (info : BridgeDict) (body : PyStr) : BridgeTables :=
  match Library.Json.get info (lit "req_id_str") (.string []) with
  | .string key =>
      if (state.events key).isSome then
        { state with
          events := Function.update state.events key (some true)
          responses := Function.update state.responses key
            (some (some (bridgeResponse info (.string key) body))) }
      else state
  | _ => state

/-- One step of a handler. -/
def BridgeTables.act (state : BridgeTables) (index : Nat) (handler : BridgeHandler) :
    BridgeEvent → Option BridgeTables
  | .close _ =>
      match handler.phase with
      | .receiving => some (state.setHandler index { handler with phase := .ended })
      | _ => none
  | .receive _ client uuid =>
      match handler.phase with
      | .receiving =>
          -- `uuid4` gives no id twice.
          if state.handlers.all fun other => other.reqId ≠ some (ofAscii uuid.text) then
            some ((state.enter (ofAscii uuid.text)).setHandler index
              { handler with phase := .entered client uuid, reqId := some (ofAscii uuid.text) })
          else none
      | _ => none
  | .prepare _ env slot put sends =>
      match handler.phase with
      | .entered client uuid =>
          some (state.setHandler index (handler.prepare client uuid env slot put sends))
      | _ => none
  | .fault _ =>
      match handler.phase with
      | .entered _ _ => some (state.setHandler index (handler.fail none))
      | _ => none
  | .wait _ =>
      match handler.phase, handler.reqId with
      | .waiting, some key =>
          some (state.setHandler index
            { handler with phase := .waited ((state.events key).getD false) })
      | _, _ => none
  | .collect _ =>
      match handler.phase, handler.reqId with
      | .waited set, some key =>
          some ((state.leave key).setHandler index
            { handler with phase := .replying (waitedReply set key (state.responses key)) })
      | _, _ => none
  | .reply _ sends =>
      match handler.phase with
      | .replying reply =>
          some (state.setHandler index (handler.fail (if sends then some reply else none)))
      | _ => none
  | .accept | .deliver _ _ => none

/-- The handler that a step belongs to. -/
def BridgeEvent.index : BridgeEvent → Option Nat
  | .accept | .deliver _ _ => none
  | .close index | .receive index _ _ | .prepare index _ _ _ _ | .fault index | .wait index
  | .collect index | .reply index _ => some index

def BridgeTables.step (state : BridgeTables) (event : BridgeEvent) : Option BridgeTables :=
  match event, event.index with
  | .accept, _ => some { state with handlers := state.handlers ++ [{}] }
  | .deliver info body, _ => some (state.deliver info body)
  | event, some index => (state.handlers[index]?).bind fun handler => state.act index handler event
  | _, none => none

/-! ### The property -/

/-- The handler runs under this id. -/
def BridgeHandler.Runs (handler : BridgeHandler) (key : PyStr) : Prop :=
  handler.reqId = some key ∧
    match handler.phase with
    | .entered _ _ | .waiting | .waited _ => True
    | _ => False

/-- The id of a reply is the handler's own. -/
def BridgeHandler.Own (handler : BridgeHandler) (reply : BridgeDict) : Prop :=
  ∃ key, handler.reqId = some key ∧ Library.Json.get reply (lit "req_id") .null = .string key

/-- The keys of both tables are the ids of the running handlers, and each client has
been sent at most one reply, with its own id. -/
structure BridgeTables.Exact (state : BridgeTables) : Prop where
  events : ∀ key, (state.events key).isSome = true ↔ ∃ handler ∈ state.handlers, handler.Runs key
  responses : ∀ key, (state.responses key).isSome = true ↔
    ∃ handler ∈ state.handlers, handler.Runs key
  replies : ∀ handler ∈ state.handlers, handler.replies.length ≤ 1 ∧
    ∀ reply ∈ handler.replies, handler.Own reply

/-! ### The condition -/

/-- A request gets into the ring: it is a dictionary that has a target, a worker
and a body that can be encoded, a slot is free and holds the text, and the ring has
room. -/
def GoesOut (env : BridgeEnv) (client : Value) (uuid : Uuid) (slot : Int) (put : Option Bool) : Prop :=
  ∃ members url worker podId, client = .object members ∧ targetUrl env members = some url ∧
    env.select (getServiceName url) = some (worker, podId) ∧
    encodes (Library.Json.get members (lit "body") (.string [])) = true ∧ 0 ≤ slot ∧
    (combined env members url worker uuid).length ≤ slotSize ∧ put = some true

/-- Every request that was entered gets into the ring. -/
def Admitted (state : BridgeTables) : BridgeEvent → Prop
  | .prepare index env slot put _ => ∀ handler client uuid, state.handlers[index]? = some handler →
      handler.phase = .entered client uuid → GoesOut env client uuid slot put
  | .fault _ => False
  | _ => True

/-! ### One handler -/

section Handlers

variable {handler : BridgeHandler}

/-- What a handler has, by its phase. -/
def BridgeHandler.Sound (handler : BridgeHandler) : Prop :=
  match handler.phase with
  | .receiving => handler.reqId = none ∧ handler.replies = []
  | .entered _ uuid => handler.reqId = some (ofAscii uuid.text) ∧ handler.replies = []
  | .waiting | .waited _ => (∃ key, handler.reqId = some key) ∧ handler.replies = []
  | .replying reply => handler.Own reply ∧ handler.replies = []
  | .ended => handler.replies.length ≤ 1 ∧ ∀ reply ∈ handler.replies, handler.Own reply

theorem BridgeHandler.Sound.replies (sound : handler.Sound) :
    handler.replies.length ≤ 1 ∧ ∀ reply ∈ handler.replies, handler.Own reply := by
  have empty : handler.replies = [] → handler.replies.length ≤ 1 ∧
      ∀ reply ∈ handler.replies, handler.Own reply := by
    intro nothing
    rw [nothing]
    exact ⟨Nat.zero_le 1, List.forall_mem_nil _⟩
  unfold BridgeHandler.Sound at sound
  cases phase : handler.phase with
  | receiving | entered | waiting | waited | replying =>
      rw [phase] at sound
      exact empty sound.2
  | ended =>
      rw [phase] at sound
      exact sound

/-- The id of an error is that of the handler. -/
theorem own_bridgeError {key : PyStr} (reqId : handler.reqId = some key) (status : Nat)
    (message : PyStr) : handler.Own (bridgeError key status message) :=
  ⟨key, reqId, by simp [bridgeError, Library.Json.get]⟩

/-- A handler that has sent nothing ends with at most one reply. -/
theorem sound_fail {error : Option BridgeDict} (silent : handler.replies = [])
    (own : ∀ reply ∈ error, handler.Own reply) : (handler.fail error).Sound := by
  show (handler.replies ++ error.toList).length ≤ 1 ∧
    ∀ reply ∈ handler.replies ++ error.toList, handler.Own reply
  rw [silent, List.nil_append]
  cases error with
  | none => exact ⟨Nat.zero_le 1, List.forall_mem_nil _⟩
  | some error =>
      refine ⟨Nat.le_refl 1, fun reply member => ?_⟩
      rw [List.mem_singleton.mp member]
      exact own error rfl

theorem not_runs_fail (handler : BridgeHandler) (error : Option BridgeDict) (key : PyStr) :
    ¬ (handler.fail error).Runs key := fun runs => runs.2

theorem sent_iff {env : BridgeEnv} {members : BridgeDict} {uuid : Uuid} {slot : Int}
    {put : Option Bool} :
    GoesOut env (.object members) uuid slot put ↔
      (∃ desc text, handleBridgeClient env members uuid slot = .sent desc text) ∧
        put = some true := by
  constructor
  · rintro ⟨members', url, worker, podId, same, target, selected, encodes, allocated, fits, puts⟩
    obtain rfl : members = members' := Value.object.inj same
    exact ⟨⟨_, _, sent_of_length_eq target selected encodes allocated fits rfl⟩, puts⟩
  · rintro ⟨⟨desc, text, sent⟩, puts⟩
    obtain ⟨url, worker, podId, target, selected, rfl, fits, -, encodes, allocated⟩ :=
      sent_inversion sent
    exact ⟨members, url, worker, podId, rfl, target, selected, encodes, allocated, fits, puts⟩

/-- Making the request leads to the wait, or it ends the handler. -/
theorem prepare_cases {client : Value} {uuid : Uuid} (reqId : handler.reqId = some (ofAscii uuid.text))
    (env : BridgeEnv) (slot : Int) (put : Option Bool) (sends : Bool) :
    (GoesOut env client uuid slot put ∧
      handler.prepare client uuid env slot put sends = { handler with phase := .waiting }) ∨
    (¬ GoesOut env client uuid slot put ∧
      ∃ error, handler.prepare client uuid env slot put sends = handler.fail error ∧
        ∀ reply ∈ error, handler.Own reply) := by
  have silent : ∀ reply ∈ (none : Option BridgeDict), handler.Own reply := by
    intro reply nothing
    contradiction
  have own : ∀ (status : Nat) (message : PyStr),
      ∀ reply ∈ if sends then some (bridgeError (ofAscii uuid.text) status message) else none,
        handler.Own reply := by
    intro status message reply member
    cases sends with
    | false => contradiction
    | true =>
        rw [← Option.some.inj member]
        exact own_bridgeError reqId status message
  have other : (∀ members, client ≠ .object members) →
      ¬ GoesOut env client uuid slot put := by
    rintro different ⟨members, _, _, _, same, -⟩
    exact different members same
  cases client with
  | null | bool | number | string | array =>
      exact Or.inr ⟨other (by intro members; simp), none, rfl, silent⟩
  | object members =>
      have goes := @sent_iff env members uuid slot put
      unfold BridgeHandler.prepare
      dsimp only
      cases outcome : handleBridgeClient env members uuid slot with
      | raised =>
          refine Or.inr ⟨?_, none, rfl, silent⟩
          rw [goes, outcome]
          simp
      | error status message =>
          refine Or.inr ⟨?_, _, rfl, own status message⟩
          rw [goes, outcome]
          simp
      | sent desc text =>
          cases put with
          | none =>
              refine Or.inr ⟨?_, none, rfl, silent⟩
              rw [goes]
              simp
          | some puts =>
              cases puts with
              | false =>
                  refine Or.inr ⟨?_, _, rfl, own _ _⟩
                  rw [goes]
                  simp
              | true => exact Or.inl ⟨goes.mpr ⟨⟨desc, text, outcome⟩, rfl⟩, rfl⟩

end Handlers

/-! ### One step of a handler -/

/-- The condition, seen by the handler. -/
def BridgeHandler.Admits (handler : BridgeHandler) : BridgeEvent → Prop
  | .prepare _ env slot put _ => ∀ client uuid, handler.phase = .entered client uuid →
      GoesOut env client uuid slot put
  | .fault _ => False
  | _ => True

/-- What a step that meets the condition does to the tables and to the id. -/
inductive BridgeMove (state : BridgeTables) (handler after : BridgeHandler) : BridgeTables → Prop where
  | stays (reqId : after.reqId = handler.reqId) (runs : ∀ key, after.Runs key ↔ handler.Runs key) :
      BridgeMove state handler after state
  | enters (key : PyStr) (fresh : ∀ other ∈ state.handlers, other.reqId ≠ some key)
      (before : ∀ other, ¬ handler.Runs other) (reqId : after.reqId = some key)
      (runs : ∀ other, after.Runs other ↔ other = key) :
      BridgeMove state handler after (state.enter key)
  | leaves (key : PyStr) (before : handler.Runs key) (reqId : after.reqId = handler.reqId)
      (stops : ∀ other, ¬ after.Runs other) : BridgeMove state handler after (state.leave key)

theorem waitedReply_reqId (set : Bool) {key : PyStr} {response : Option (Option BridgeDict)}
    (answered : ∀ reply, response = some (some reply) →
      Library.Json.get reply (lit "req_id") .null = .string key) :
    Library.Json.get (waitedReply set key response) (lit "req_id") .null = .string key := by
  have error : ∀ status message, Library.Json.get (bridgeError key status message) (lit "req_id")
      .null = .string key := by
    intro status message
    simp [bridgeError, Library.Json.get]
  unfold waitedReply
  cases set with
  | false => exact error _ _
  | true =>
      rcases response with _ | _ | reply
      · exact error _ _
      · exact error _ _
      · exact answered reply rfl

theorem act_cases {state next : BridgeTables} {index : Nat} {handler : BridgeHandler}
    {event : BridgeEvent} (sound : handler.Sound)
    (answered : ∀ key reply, state.responses key = some (some reply) →
      Library.Json.get reply (lit "req_id") .null = .string key)
    (acted : state.act index handler event = some next) :
    ∃ after, after.Sound ∧
      ((handler.Admits event ∧ ∃ tables, BridgeMove state handler after tables ∧
        next = tables.setHandler index after) ∨
      (¬ handler.Admits event ∧ (∃ key, handler.Runs key) ∧ (∀ key, ¬ after.Runs key) ∧
        after.reqId = handler.reqId ∧ next = state.setHandler index after)) := by
  unfold BridgeHandler.Sound at sound
  unfold BridgeTables.act at acted
  cases event with
  | accept | deliver => contradiction
  | close =>
      cases phase : handler.phase with
      | entered | waiting | waited | replying | ended =>
          simp only [phase] at acted
          contradiction
      | receiving =>
          simp only [phase] at acted sound
          refine ⟨{ handler with phase := .ended }, ?_,
            Or.inl ⟨trivial, state, .stays rfl ?_, (Option.some.inj acted).symm⟩⟩
          · show handler.replies.length ≤ 1 ∧ ∀ reply ∈ handler.replies, _
            rw [sound.2]
            exact ⟨Nat.zero_le 1, List.forall_mem_nil _⟩
          · intro key
            unfold BridgeHandler.Runs
            rw [phase]
  | receive _ client uuid =>
      cases phase : handler.phase with
      | entered | waiting | waited | replying | ended =>
          simp only [phase] at acted
          contradiction
      | receiving =>
          simp only [phase] at acted sound
          by_cases fresh : (state.handlers.all fun other =>
              decide (other.reqId ≠ some (ofAscii uuid.text))) = true
          · rw [if_pos fresh] at acted
            refine ⟨_, ?_, Or.inl ⟨trivial, _, .enters (ofAscii uuid.text) ?_ ?_ rfl ?_,
              (Option.some.inj acted).symm⟩⟩
            · exact ⟨rfl, sound.2⟩
            · intro other member
              exact of_decide_eq_true (List.all_eq_true.mp fresh other member)
            · intro other runs
              have reqId := runs.1
              rw [sound.1] at reqId
              contradiction
            · intro other
              exact ⟨fun runs => (Option.some.inj runs.1).symm,
                fun same => ⟨congrArg some same.symm, trivial⟩⟩
          · rw [if_neg fresh] at acted
            contradiction
  | prepare _ env slot put sends =>
      cases phase : handler.phase with
      | receiving | waiting | waited | replying | ended =>
          simp only [phase] at acted
          contradiction
      | entered client uuid =>
          simp only [phase] at acted sound
          have runs : ∀ key, handler.Runs key ↔ handler.reqId = some key := by
            intro key
            unfold BridgeHandler.Runs
            rw [phase]
            exact ⟨fun both => both.1, fun same => ⟨same, trivial⟩⟩
          rcases prepare_cases sound.1 env slot put sends with ⟨goes, shape⟩ | ⟨stuck, error, shape, own⟩
          · rw [shape] at acted
            refine ⟨{ handler with phase := .waiting }, ?_,
              Or.inl ⟨?_, state, .stays rfl ?_, (Option.some.inj acted).symm⟩⟩
            · exact ⟨⟨_, sound.1⟩, sound.2⟩
            · intro client' uuid' phase'
              obtain ⟨rfl, rfl⟩ := BridgePhase.entered.inj (phase.symm.trans phase')
              exact goes
            · intro key
              rw [runs]
              exact ⟨fun both => both.1, fun same => ⟨same, trivial⟩⟩
          · rw [shape] at acted
            refine ⟨_, sound_fail sound.2 own, Or.inr ⟨?_, ⟨_, (runs _).mpr sound.1⟩,
              not_runs_fail handler error, rfl, (Option.some.inj acted).symm⟩⟩
            exact fun admits => stuck (admits client uuid phase)
  | fault =>
      cases phase : handler.phase with
      | receiving | waiting | waited | replying | ended =>
          simp only [phase] at acted
          contradiction
      | entered client uuid =>
          simp only [phase] at acted sound
          refine ⟨handler.fail none, sound_fail sound.2 (by intro reply nothing; contradiction),
            Or.inr ⟨id, ⟨ofAscii uuid.text, sound.1, ?_⟩, not_runs_fail handler none, rfl,
              (Option.some.inj acted).symm⟩⟩
          rw [phase]
          trivial
  | wait =>
      cases phase : handler.phase with
      | receiving | entered | waited | replying | ended =>
          simp only [phase] at acted
          contradiction
      | waiting =>
          simp only [phase] at acted sound
          obtain ⟨⟨key, reqId⟩, silent⟩ := sound
          simp only [reqId] at acted
          refine ⟨{ handler with phase := .waited ((state.events key).getD false), reqId := some key },
            ?_, Or.inl ⟨trivial, state, .stays reqId.symm ?_, (Option.some.inj acted).symm⟩⟩
          · exact ⟨⟨key, rfl⟩, silent⟩
          · intro other
            unfold BridgeHandler.Runs
            rw [phase, reqId]
  | collect =>
      cases phase : handler.phase with
      | receiving | entered | waiting | replying | ended =>
          simp only [phase] at acted
          contradiction
      | waited set =>
          simp only [phase] at acted sound
          obtain ⟨⟨key, reqId⟩, silent⟩ := sound
          simp only [reqId] at acted
          let reply := waitedReply set key (state.responses key)
          refine ⟨{ handler with phase := .replying reply, reqId := some key }, ?_,
            Or.inl ⟨trivial, _, .leaves key ⟨reqId, ?_⟩ reqId.symm ?_, (Option.some.inj acted).symm⟩⟩
          · exact ⟨⟨key, rfl, waitedReply_reqId set (answered key)⟩, silent⟩
          · rw [phase]
            trivial
          · exact fun other runs => runs.2
  | reply _ sends =>
      cases phase : handler.phase with
      | receiving | entered | waiting | waited | ended =>
          simp only [phase] at acted
          contradiction
      | replying reply =>
          simp only [phase] at acted sound
          refine ⟨_, sound_fail sound.2 ?_, Or.inl ⟨trivial, state, .stays rfl ?_,
            (Option.some.inj acted).symm⟩⟩
          · intro other member
            cases sends with
            | false => contradiction
            | true =>
                rw [← Option.some.inj member]
                exact sound.1
          · intro key
            constructor
            · exact fun runs => absurd runs (not_runs_fail handler _ key)
            · intro runs
              have phase' := runs.2
              rw [phase] at phase'
              exact phase'.elim

/-! ### The invariant -/

/-- The tables are exact, no two handlers have one id, and what is stored under an
id is a reply with that id. -/
structure BridgeTables.Kept (state : BridgeTables) : Prop where
  events : ∀ key, (state.events key).isSome = true ↔ ∃ handler ∈ state.handlers, handler.Runs key
  responses : ∀ key, (state.responses key).isSome = true ↔
    ∃ handler ∈ state.handlers, handler.Runs key
  sound : ∀ handler ∈ state.handlers, handler.Sound
  distinct : ∀ key (index other : Nat) first second, state.handlers[index]? = some first →
    state.handlers[other]? = some second → first.reqId = some key → second.reqId = some key →
    index = other
  answered : ∀ key reply, state.responses key = some (some reply) →
    Library.Json.get reply (lit "req_id") .null = .string key

theorem BridgeTables.Kept.exact {state : BridgeTables} (kept : state.Kept) : state.Exact where
  events := kept.events
  responses := kept.responses
  replies := fun handler member => (kept.sound handler member).replies

/-- The empty tables. -/
theorem kept_empty : BridgeTables.Kept {} where
  events := by
    intro key
    simp
  responses := by
    intro key
    simp
  sound := List.forall_mem_nil _
  distinct := by
    intro key index other first second found
    contradiction
  answered := by
    intro key reply stored
    contradiction

theorem sound_set {handlers : List BridgeHandler} {index : Nat} {after : BridgeHandler}
    (sound : ∀ handler ∈ handlers, handler.Sound) (soundAfter : after.Sound) :
    ∀ second ∈ handlers.set index after, second.Sound := by
  intro second member
  rcases List.mem_or_eq_of_mem_set member with old | rfl
  · exact sound second old
  · exact soundAfter

section Tables

variable {handlers : List BridgeHandler} {index : Nat} {handler after : BridgeHandler}
  (found : handlers[index]? = some handler)

include found

/-- Somebody runs: the handler itself or another one. -/
theorem exists_runs_iff (key : PyStr) :
    (∃ handler ∈ handlers, handler.Runs key) ↔ handler.Runs key ∨
      ∃ other second, other ≠ index ∧ handlers[other]? = some second ∧ second.Runs key := by
  constructor
  · rintro ⟨second, member, runs⟩
    obtain ⟨other, found'⟩ := List.mem_iff_getElem?.mp member
    by_cases same : other = index
    · rw [same, found] at found'
      rw [Option.some.inj found']
      exact Or.inl runs
    · exact Or.inr ⟨other, second, same, found', runs⟩
  · rintro (runs | ⟨other, second, -, found', runs⟩)
    · exact ⟨handler, List.mem_of_getElem? found, runs⟩
    · exact ⟨second, List.mem_of_getElem? found', runs⟩

theorem exists_runs_set_iff (key : PyStr) :
    (∃ second ∈ handlers.set index after, second.Runs key) ↔ after.Runs key ∨
      ∃ other second, other ≠ index ∧ handlers[other]? = some second ∧ second.Runs key := by
  have below : index < handlers.length := (List.getElem?_eq_some_iff.mp found).1
  have here : (handlers.set index after)[index]? = some after := List.getElem?_set_self below
  rw [exists_runs_iff here]
  constructor
  · rintro (runs | ⟨other, second, different, found', runs⟩)
    · exact Or.inl runs
    · rw [List.getElem?_set_ne (Ne.symm different)] at found'
      exact Or.inr ⟨other, second, different, found', runs⟩
  · rintro (runs | ⟨other, second, different, found', runs⟩)
    · exact Or.inl runs
    · refine Or.inr ⟨other, second, different, ?_, runs⟩
      rwa [List.getElem?_set_ne (Ne.symm different)]

/-- Ids stay distinct where a handler keeps its id or gets a fresh one. -/
theorem distinct_set
    (distinct : ∀ key (index other : Nat) first second, handlers[index]? = some first →
      handlers[other]? = some second → first.reqId = some key → second.reqId = some key →
      index = other)
    (reqId : after.reqId = handler.reqId ∨
      ∃ key, after.reqId = some key ∧ ∀ other ∈ handlers, other.reqId ≠ some key)
    (key : PyStr) (one other : Nat) (first second : BridgeHandler)
    (foundOne : (handlers.set index after)[one]? = some first)
    (foundOther : (handlers.set index after)[other]? = some second)
    (firstId : first.reqId = some key) (secondId : second.reqId = some key) : one = other := by
  have below : index < handlers.length := (List.getElem?_eq_some_iff.mp found).1
  have against : ∀ {other : Nat} {second : BridgeHandler}, other ≠ index →
      (handlers.set index after)[other]? = some second → after.reqId = some key →
      second.reqId = some key → False := by
    intro other second different foundOther afterId secondId
    rw [List.getElem?_set_ne (Ne.symm different)] at foundOther
    rcases reqId with same | ⟨key', isKey, fresh⟩
    · exact different (distinct key other index second handler foundOther found secondId
        (same.symm.trans afterId))
    · obtain rfl : key' = key := Option.some.inj (isKey.symm.trans afterId)
      exact fresh second (List.mem_of_getElem? foundOther) secondId
  by_cases oneHere : one = index
  · by_cases otherHere : other = index
    · rw [oneHere, otherHere]
    · rw [oneHere, List.getElem?_set_self below] at foundOne
      rw [← Option.some.inj foundOne] at firstId
      exact (against otherHere foundOther firstId secondId).elim
  · by_cases otherHere : other = index
    · rw [otherHere, List.getElem?_set_self below] at foundOther
      rw [← Option.some.inj foundOther] at secondId
      exact (against oneHere foundOne secondId firstId).elim
    · rw [List.getElem?_set_ne (Ne.symm oneHere)] at foundOne
      rw [List.getElem?_set_ne (Ne.symm otherHere)] at foundOther
      exact distinct key one other first second foundOne foundOther firstId secondId

end Tables

/-! ### What the steps keep -/

/-- A step of a handler that meets the condition. -/
theorem BridgeMove.kept {state tables : BridgeTables} {index : Nat} {handler after : BridgeHandler}
    (move : BridgeMove state handler after tables) (kept : state.Kept)
    (found : state.handlers[index]? = some handler) (soundAfter : after.Sound) :
    (tables.setHandler index after).Kept := by
  cases move with
  | stays reqId runs =>
      have same : ∀ key, (∃ second ∈ state.handlers, second.Runs key) ↔
          ∃ second ∈ state.handlers.set index after, second.Runs key := by
        intro key
        rw [exists_runs_iff found, exists_runs_set_iff found, runs]
      exact ⟨fun key => (kept.events key).trans (same key),
        fun key => (kept.responses key).trans (same key), sound_set kept.sound soundAfter,
        distinct_set found kept.distinct (Or.inl reqId), kept.answered⟩
  | enters key fresh before reqId runs =>
      have entered : ∀ other, (other = key ∨ ∃ second ∈ state.handlers, second.Runs other) ↔
          ∃ second ∈ state.handlers.set index after, second.Runs other := by
        intro other
        rw [exists_runs_iff found, exists_runs_set_iff found, runs]
        simp [before other]
      have table : ∀ {α : Type} (old : PyStr → Option α) (value : α) (other : PyStr),
          (Function.update old key (some value) other).isSome = true ↔
            other = key ∨ (old other).isSome = true := by
        intro α old value other
        by_cases same : other = key
        · rw [same, Function.update_self]
          simp
        · rw [Function.update_of_ne same]
          simp [same]
      refine ⟨fun other => ?_, fun other => ?_, sound_set kept.sound soundAfter,
        distinct_set found kept.distinct (Or.inr ⟨key, reqId, fresh⟩), fun other reply stored => ?_⟩
      · exact (table state.events false other).trans
          (Iff.trans (by rw [kept.events]) (entered other))
      · exact (table state.responses none other).trans
          (Iff.trans (by rw [kept.responses]) (entered other))
      · change Function.update state.responses key (some none) other = some (some reply) at stored
        by_cases same : other = key
        · rw [same, Function.update_self] at stored
          exact absurd (Option.some.inj stored) (by simp)
        · rw [Function.update_of_ne same] at stored
          exact kept.answered other reply stored
  | leaves key before reqId stops =>
      have left : ∀ other, (other ≠ key ∧ ∃ second ∈ state.handlers, second.Runs other) ↔
          ∃ second ∈ state.handlers.set index after, second.Runs other := by
        intro other
        rw [exists_runs_iff found, exists_runs_set_iff found]
        constructor
        · rintro ⟨different, runs | later⟩
          · exact absurd (Option.some.inj (runs.1.symm.trans before.1)) different
          · exact Or.inr later
        · rintro (runs | ⟨place, second, apart, found', runs⟩)
          · exact absurd runs (stops other)
          · refine ⟨fun same => ?_, Or.inr ⟨place, second, apart, found', runs⟩⟩
            rw [same] at runs
            exact apart (kept.distinct key place index second handler found' found runs.1 before.1)
      have table : ∀ {α : Type} (old : PyStr → Option α) (other : PyStr),
          (Function.update old key none other).isSome = true ↔
            other ≠ key ∧ (old other).isSome = true := by
        intro α old other
        by_cases same : other = key
        · rw [same, Function.update_self]
          simp
        · rw [Function.update_of_ne same]
          simp [same]
      refine ⟨fun other => ?_, fun other => ?_, sound_set kept.sound soundAfter,
        distinct_set found kept.distinct (Or.inl reqId), fun other reply stored => ?_⟩
      · exact (table state.events other).trans (Iff.trans (by rw [kept.events]) (left other))
      · exact (table state.responses other).trans (Iff.trans (by rw [kept.responses]) (left other))
      · change Function.update state.responses key none other = some (some reply) at stored
        by_cases same : other = key
        · rw [same, Function.update_self] at stored
          contradiction
        · rw [Function.update_of_ne same] at stored
          exact kept.answered other reply stored

/-- A delivery changes no key and stores a reply with the id that it goes to. -/
theorem BridgeTables.Kept.deliver {state : BridgeTables} (kept : state.Kept) (info : BridgeDict)
    (body : PyStr) : (state.deliver info body).Kept := by
  unfold BridgeTables.deliver
  cases Library.Json.get info (lit "req_id_str") (.string []) with
  | null | bool | number | array | object => exact kept
  | string key =>
      dsimp only
      by_cases waited : (state.events key).isSome = true
      · rw [if_pos waited]
        have table : ∀ {α : Type} {old : PyStr → Option α} (value : α), (old key).isSome = true →
            ∀ other, (Function.update old key (some value) other).isSome = (old other).isSome := by
          intro α old value isSome other
          by_cases same : other = key
          · rw [same, Function.update_self, isSome]
            rfl
          · rw [Function.update_of_ne same]
        have answers : (state.responses key).isSome = true :=
          (kept.responses key).mpr ((kept.events key).mp waited)
        refine ⟨fun other => ?_, fun other => ?_, kept.sound, kept.distinct,
          fun other reply stored => ?_⟩
        · rw [table true waited]
          exact kept.events other
        · rw [table _ answers]
          exact kept.responses other
        · by_cases same : other = key
          · rw [same] at stored ⊢
            dsimp only at stored
            rw [Function.update_self] at stored
            rw [← Option.some.inj (Option.some.inj stored)]
            simp [bridgeResponse, Library.Json.get]
          · dsimp only at stored
            rw [Function.update_of_ne same] at stored
            exact kept.answered other reply stored
      · rw [if_neg waited]
        exact kept

theorem BridgeTables.Kept.accept {state : BridgeTables} (kept : state.Kept) :
    BridgeTables.Kept { state with handlers := state.handlers ++ [({} : BridgeHandler)] } := by
  have idle : ∀ key, ¬ ({} : BridgeHandler).Runs key := fun key runs => runs.2
  have runs : ∀ key, (∃ handler ∈ state.handlers ++ [({} : BridgeHandler)], handler.Runs key) ↔
      ∃ handler ∈ state.handlers, handler.Runs key := by
    intro key
    constructor
    · rintro ⟨handler, member, runs⟩
      rcases List.mem_append.mp member with old | new
      · exact ⟨handler, old, runs⟩
      · rw [List.mem_singleton.mp new] at runs
        exact absurd runs (idle key)
    · rintro ⟨handler, member, runs⟩
      exact ⟨handler, List.mem_append_left _ member, runs⟩
  have old : ∀ {index : Nat} {handler : BridgeHandler} {key : PyStr},
      (state.handlers ++ [({} : BridgeHandler)])[index]? = some handler → handler.reqId = some key →
      state.handlers[index]? = some handler := by
    intro index handler key found reqId
    rcases Nat.lt_or_ge index state.handlers.length with below | above
    · rwa [List.getElem?_append_left below] at found
    · rw [List.getElem?_append_right above] at found
      have new := List.mem_of_getElem? found
      rw [List.mem_singleton.mp new] at reqId
      contradiction
  refine ⟨fun key => ?_, fun key => ?_, fun handler member => ?_, ?_, kept.answered⟩
  · rw [runs]
    exact kept.events key
  · rw [runs]
    exact kept.responses key
  · rcases List.mem_append.mp member with before | new
    · exact kept.sound handler before
    · rw [List.mem_singleton.mp new]
      exact ⟨rfl, rfl⟩
  · intro key index other first second foundFirst foundSecond firstId secondId
    exact kept.distinct key index other first second (old foundFirst firstId)
      (old foundSecond secondId) firstId secondId

/-! ### Every run -/

/-- A step of a handler, and the handler that takes it. -/
theorem step_act {state next : BridgeTables} {event : BridgeEvent} {index : Nat}
    (belongs : event.index = some index) (taken : state.step event = some next) :
    ∃ handler, state.handlers[index]? = some handler ∧
      state.act index handler event = some next := by
  cases event with
  | accept | deliver => contradiction
  | close | receive | prepare | fault | wait | collect | reply =>
      obtain rfl := Option.some.inj belongs
      exact Option.bind_eq_some_iff.mp taken

/-- The two steps that belong to no handler. -/
theorem step_other {state next : BridgeTables} {event : BridgeEvent} (other : event.index = none)
    (kept : state.Kept) (taken : state.step event = some next) :
    next.Kept ∧ Admitted state event := by
  cases event with
  | close | receive | prepare | fault | wait | collect | reply => contradiction
  | accept =>
      rw [← Option.some.inj taken]
      exact ⟨kept.accept, trivial⟩
  | deliver info body =>
      rw [← Option.some.inj taken]
      exact ⟨kept.deliver info body, trivial⟩

theorem admits_iff {state : BridgeTables} {event : BridgeEvent} {index : Nat}
    {handler : BridgeHandler} (belongs : event.index = some index)
    (found : state.handlers[index]? = some handler) : handler.Admits event ↔ Admitted state event := by
  cases event with
  | accept | deliver => contradiction
  | close | receive | fault | wait | collect | reply => exact Iff.rfl
  | prepare place env slot put sends =>
      obtain rfl := Option.some.inj belongs
      constructor
      · intro admits other client uuid found' phase
        obtain rfl : handler = other := Option.some.inj (found.symm.trans found')
        exact admits client uuid phase
      · intro admitted client uuid phase
        exact admitted handler client uuid found phase

theorem BridgeTables.Kept.step {state next : BridgeTables} {event : BridgeEvent} (kept : state.Kept)
    (admitted : Admitted state event) (taken : state.step event = some next) : next.Kept := by
  cases belongs : event.index with
  | none => exact (step_other belongs kept taken).1
  | some index =>
      obtain ⟨handler, found, acted⟩ := step_act belongs taken
      have sound := kept.sound handler (List.mem_of_getElem? found)
      obtain ⟨after, soundAfter, moves | ⟨refused, -⟩⟩ := act_cases sound kept.answered acted
      · obtain ⟨-, tables, move, rfl⟩ := moves
        exact move.kept kept found soundAfter
      · exact absurd ((admits_iff belongs found).mpr admitted) refused

/-- A handler that ends in another way leaves its id behind. -/
theorem BridgeTables.Kept.admitted {state next : BridgeTables} {event : BridgeEvent}
    (kept : state.Kept) (taken : state.step event = some next) (exact_ : next.Exact) :
    Admitted state event := by
  cases belongs : event.index with
  | none => exact (step_other belongs kept taken).2
  | some index =>
      obtain ⟨handler, found, acted⟩ := step_act belongs taken
      have sound := kept.sound handler (List.mem_of_getElem? found)
      obtain ⟨after, -, ⟨admits, -⟩ | ⟨-, ⟨key, runs⟩, stops, -, rfl⟩⟩ :=
        act_cases sound kept.answered acted
      · exact (admits_iff belongs found).mp admits
      · have listed := (kept.events key).mpr ⟨handler, List.mem_of_getElem? found, runs⟩
        have running := (exact_.events key).mp listed
        rcases (exists_runs_set_iff found key).mp running with here | ⟨other, second, apart, found', runs'⟩
        · exact absurd here (stops key)
        · exact absurd (kept.distinct key other index second handler found' found runs'.1 runs.1) apart

/-- The tables hold the ids of the running handlers in every state of a run, and each
client gets at most one reply, its own, exactly where every request that was entered
gets into the ring. -/
theorem tables_exact_iff_admitted (events : List BridgeEvent) :
    Throughout BridgeTables.step BridgeTables.Exact {} events ↔
      EachStep BridgeTables.step Admitted {} events :=
  throughout_iff_eachStep_of_invariant (fun _ kept => kept.exact)
    (fun _ _ _ kept admitted taken => kept.step admitted taken)
    (fun _ _ _ kept taken exact_ => kept.admitted taken exact_) kept_empty events

/-! ### No worker -/

/-- A node on which nobody has registered yet. -/
def idleEnv : BridgeEnv where
  space := []
  select := fun _ => none
  str := fun _ => []
  remoteAddr := []

/-- A client that sends an empty object, and gets an error 503. -/
def refusedClient : List BridgeEvent :=
  [.accept, .receive 0 (.object []) firstUuid, .prepare 0 idleEnv 0 none true]

theorem refused_prepare : handleBridgeClient idleEnv [] firstUuid 0 =
    .error 503 (lit "No worker for service s0") := by decide +kernel

theorem refused_ends (handler : BridgeHandler) (key : PyStr) :
    ¬ (handler.prepare (.object []) firstUuid idleEnv 0 none true).Runs key := by
  unfold BridgeHandler.prepare
  dsimp only
  rw [refused_prepare]
  exact not_runs_fail handler _ key

/-- Its id stays in the tables when its handler has ended. -/
theorem not_tables_exact :
    ¬ ∀ events : List BridgeEvent, Throughout BridgeTables.step BridgeTables.Exact {} events := by
  intro claim
  have exact_ := (claim refusedClient).last rfl
  have listed : ((BridgeTables.enter {} (ofAscii firstUuid.text)).events
      (ofAscii firstUuid.text)).isSome = true := by
    unfold BridgeTables.enter
    dsimp only
    rw [Function.update_self]
    rfl
  obtain ⟨handler, member, runs⟩ := (exact_.events (ofAscii firstUuid.text)).mp listed
  rw [List.mem_singleton.mp member] at runs
  exact refused_ends _ _ runs

end MiniMs.Daemon
