import MiniMs.Library.JsonText
import MiniMs.Service.Lookup
import MiniMs.Tcp.Upstream

/-!
Whether the bodies that the services send are JSON texts.

Owns: the calls that send replies, the replies of each, the exact condition on a
call under which its replies are JSON, and the replies that never are, because
their length is one short.

What becomes of a body on its way is not asked here.
-/

namespace MiniMs.Service

open MiniMs.Dpumesh MiniMs.Http MiniMs.Library.Text MiniMs.Library.Json MiniMs.Tcp

/-! ### Calls and their replies -/

/-- A call of a handler, or a callback of the TCP handler. The id of a context
is an `int`. -/
inductive Call where
  | leaf (leaf : Leaf) (store : KvStore) (req : HttpRequest)
  | request (base : Leaf → Bytes) (allocated sent : Bool) (req : HttpRequest)
  | response (base : Leaf → Bytes) (sent : Bool) (ctx : FrontendCtx)
      (int : -(2 ^ 31) ≤ ctx.id ∧ ctx.id < 2 ^ 31) (resp : HttpResponse)
  | clientRead (conn : Conn) (result : ReadResult)
  | upstreamEvent (exchange : Exchange) (event : UpstreamEvent)

/-- The replies that a call sends. -/
def Call.replies : Call → List Reply
  | .leaf which store req => [which.service.handleRequest store req]
  | .request base allocated sent req => responses (handleRequest base allocated sent req)
  | .response base sent ctx _ resp => responses (handleUpstreamResponse base sent ctx resp)
  | .clientRead conn result =>
      match onClientRead conn result with
      | .replied _ => [badRequest]
      | .freed => []
      | .waiting _ => []
      | .handed _ _ => []
  | .upstreamEvent exchange event =>
      match exchange.step event with
      | some (.replied reply) => [reply]
      | some (.pending _ _) => []
      | some (.handed _) => []
      | none => []

/-! ### The condition -/

/-- `{"name":"%s"}`. -/
def nameBody (name : Bytes) : Bytes := ascii "\x7b\"name\":\"" ++ name ++ ascii "\"\x7d"

/-- A name that can be put between quotes as it is. -/
def Quotable (name : Bytes) : Prop := IsJson (nameBody name)

/-- A leaf service finds the path and a key, and the value of the key unless it
is the id service. -/
def LeafSound (leaf : Leaf) (store : KvStore) (req : HttpRequest) : Prop :=
  req.method = ascii "GET" ∧ req.path = leaf.service.path ∧
    ∃ key, queryGet req.query leaf.service.key leaf.service.outsz = some key ∧
      (leaf = .idService ∨ kvStoreGet store key ≠ none)

/-- The frontend finds the path and a name, and sends a request. -/
def RequestSound (allocated sent : Bool) (req : HttpRequest) : Prop :=
  req.method = ascii "GET" ∧ req.path = ascii "/lookup" ∧
    queryGet req.query (ascii "name") 64 ≠ none ∧ allocated ∧ sent

/-- The frontend passes JSON on, finds an id and sends a request, or quotes a
name. -/
def ResponseSound (sent : Bool) (ctx : FrontendCtx) (resp : HttpResponse) : Prop :=
  if resp.statusCode ≠ 200 then IsJson resp.body
  else
    match ctx.stage with
    | .waitingId => strstr (cstr resp.body) (ascii "\"id\":") ≠ none ∧ sent
    | .waitingAttend => Quotable ctx.name

/-- The call reaches no reply whose length is one short, and what it puts into a
body is JSON there. -/
def Call.Sound : Call → Prop
  | .leaf which store req => LeafSound which store req
  | .request _ allocated sent req => RequestSound allocated sent req
  | .response _ sent ctx _ resp => ResponseSound sent ctx resp
  | .clientRead _ _ => True
  | .upstreamEvent _ _ => True

/-! ### Messages -/

/-- `{"error":"…"}`. -/
def errorText (message : Bytes) : Bytes :=
  123 :: 34 :: (ascii "error" ++ [34, 58, 34]) ++ (message ++ 34 :: [125])

theorem error_low : ∀ byte ∈ ascii "error", byte < 128 := forall_mem_of_all (by decide)

theorem error_clean : Clean ((ascii "error").map ofByte) := forall_mem_of_all (by decide)

theorem isJson_errorText (message : Bytes)
    (plain : ∀ byte ∈ message, 32 ≤ byte ∧ byte < 128 ∧ byte ≠ 34 ∧ byte ≠ 92) :
    IsJson (errorText message) :=
  isJson_clean error_low error_clean (cleanBytes_of_ascii plain)

/-- A length that is one short cuts the closing brace. -/
theorem not_isJson_cut (message : Bytes)
    (plain : ∀ byte ∈ message, 32 ≤ byte ∧ byte < 128 ∧ byte ≠ 34 ∧ byte ≠ 92) :
    ¬ IsJson (errorText message).dropLast := by
  have shape : (errorText message).dropLast =
      123 :: 34 :: (ascii "error" ++ [34, 58, 34]) ++ (message ++ 34 :: []) := by
    unfold errorText
    rw [List.dropLast_append_of_ne_nil (by simp), List.dropLast_append_of_ne_nil (by simp)]
    rfl
  rw [shape]
  exact not_isJson_open error_low error_clean (cleanBytes_of_ascii plain)

/-- The replies with the right length. -/
theorem isJson_of_mem {reply : Reply}
    (known : reply ∈ [nameNotFound, badRequest, connectFailed, writeFailed, readFailed,
      upstreamClosed, badResponse]) : IsJson reply.body := by
  simp only [List.mem_cons, List.not_mem_nil, or_false] at known
  rcases known with rfl | rfl | rfl | rfl | rfl | rfl | rfl
  · exact isJson_errorText (ascii "name not found") (forall_mem_of_all (by decide))
  · exact isJson_errorText (ascii "bad request") (forall_mem_of_all (by decide))
  · exact isJson_errorText (ascii "upstream connect failed") (forall_mem_of_all (by decide))
  · exact isJson_errorText (ascii "upstream write failed") (forall_mem_of_all (by decide))
  · exact isJson_errorText (ascii "upstream read failed") (forall_mem_of_all (by decide))
  · exact isJson_errorText (ascii "upstream closed") (forall_mem_of_all (by decide))
  · exact isJson_errorText (ascii "upstream bad response") (forall_mem_of_all (by decide))

/-- The replies whose length is one short. -/
theorem not_isJson_of_mem {reply : Reply}
    (known : reply ∈ [notFound, missingName, missingId, idNotFound, allocFailed, upstreamFailed,
      badIdResponse]) : ¬ IsJson reply.body := by
  simp only [List.mem_cons, List.not_mem_nil, or_false] at known
  rcases known with rfl | rfl | rfl | rfl | rfl | rfl | rfl
  · exact not_isJson_cut (ascii "not found") (forall_mem_of_all (by decide))
  · exact not_isJson_cut (ascii "missing name") (forall_mem_of_all (by decide))
  · exact not_isJson_cut (ascii "missing id") (forall_mem_of_all (by decide))
  · exact not_isJson_cut (ascii "id not found") (forall_mem_of_all (by decide))
  · exact not_isJson_cut (ascii "alloc failed") (forall_mem_of_all (by decide))
  · exact not_isJson_cut (ascii "upstream failed") (forall_mem_of_all (by decide))
  · exact not_isJson_cut (ascii "bad id response") (forall_mem_of_all (by decide))

/-! ### Bodies with values -/

section Values

variable {float : PyStr → Numeral}

theorem integerText_decimal {value : Nat} (small : value ≤ 2 ^ 31) :
    IntegerText ((decimal value).map ofByte) := by
  apply integerText_integerRaw
  have short : (Nat.toDigits 10 value).length ≤ 10 :=
    (Nat.length_toDigits_le_iff (by decide) (by decide)).mpr (by omega)
  omega

/-- An `int` as `%d` prints it. -/
theorem scans_decimalInt {value : Int} (int : -(2 ^ 31) ≤ value ∧ value < 2 ^ 31) :
    ∃ number, Scans float ((decimalInt value).map ofByte) number := by
  have integer := @integerText_decimal value.natAbs (by omega)
  unfold decimalInt
  split
  · have minus : (ascii "-" ++ decimal value.natAbs).map ofByte =
        45 :: (decimal value.natAbs).map ofByte := rfl
    rw [minus]
    exact ⟨_, scans_negative float integer⟩
  · exact ⟨_, scans_integer float integer⟩

theorem scans_word (word : Bool) :
    Scans float ((if word then ascii "true" else ascii "false").map ofByte) (.bool word) := by
  cases word with
  | true => exact scans_true float
  | false => exact scans_false float

end Values

theorem low_decimalInt (value : Int) : ∀ byte ∈ decimalInt value, byte < 128 := by
  intro byte member
  rcases mem_decimalInt member with minus | digit
  · rw [minus]
    decide
  · have range := Library.Number.isDigit_range digit
    have below : byte.toNat < 128 := by omega
    exact UInt8.lt_iff_toNat_lt.mpr below

theorem low_word (word : Bool) : ∀ byte ∈ (if word then ascii "true" else ascii "false"), byte < 128 := by
  cases word with
  | true => exact forall_mem_of_all (by decide)
  | false => exact forall_mem_of_all (by decide)

theorem isJson_idBody {id : Int} (int : -(2 ^ 31) ≤ id ∧ id < 2 ^ 31) : IsJson (idBody id) := by
  have low : ∀ byte ∈ idBody id, byte < 128 := by
    unfold idBody
    simp only [List.forall_mem_append]
    exact ⟨⟨forall_mem_of_all (by decide), low_decimalInt id⟩, forall_mem_of_all (by decide)⟩
  refine ⟨_, decode_ascii low, fun float => ?_⟩
  obtain ⟨number, scans⟩ := @scans_decimalInt float id int
  have clean : Clean (lit "id") := forall_mem_of_all (by decide)
  have shape : (idBody id).map ofByte =
      123 :: compactText (⟨lit "id", (decimalInt id).map ofByte, number, clean, scans⟩ : Member float) [] := by
    unfold idBody
    rw [List.map_append, List.map_append]
    rfl
  rw [shape]
  exact loads_compactText _ _

theorem isJson_attendBody (attended : Int) : IsJson (attendBody attended) := by
  have word : ∀ word : Bool, IsJson (ascii "\x7b\"attended\":" ++
      (if word then ascii "true" else ascii "false") ++ ascii "\x7d") := by
    intro word
    have low : ∀ byte ∈ ascii "\x7b\"attended\":" ++
        (if word then ascii "true" else ascii "false") ++ ascii "\x7d", byte < 128 := by
      simp only [List.forall_mem_append]
      exact ⟨⟨forall_mem_of_all (by decide), low_word word⟩, forall_mem_of_all (by decide)⟩
    refine ⟨_, decode_ascii low, fun float => ?_⟩
    have clean : Clean (lit "attended") := forall_mem_of_all (by decide)
    have shape : (ascii "\x7b\"attended\":" ++ (if word then ascii "true" else ascii "false") ++
        ascii "\x7d").map ofByte =
        123 :: compactText (⟨lit "attended", _, _, clean, scans_word word⟩ : Member float) [] := by
      rw [List.map_append, List.map_append]
      rfl
    rw [shape]
    exact loads_compactText _ _
  have same := word (decide (attended ≠ 0))
  simpa only [attendBody, decide_eq_true_eq] using same

/-- The members behind the name. -/
def lookupEnd (id : Int) (attended : Bool) : Bytes :=
  ascii ",\"id\":" ++ decimalInt id ++ ascii ",\"attended\":" ++
    (if attended then ascii "true" else ascii "false") ++ ascii "\x7d"

theorem closing_lookupEnd (float : PyStr → Numeral) {id : Int}
    (int : -(2 ^ 31) ≤ id ∧ id < 2 ^ 31) (attended : Bool) :
    Closing float ((lookupEnd id attended).map ofByte) := by
  obtain ⟨number, scans⟩ := @scans_decimalInt float id int
  have clean : Clean (lit "id") := forall_mem_of_all (by decide)
  have clean' : Clean (lit "attended") := forall_mem_of_all (by decide)
  have shape : (lookupEnd id attended).map ofByte =
      44 :: compactText (⟨lit "id", (decimalInt id).map ofByte, number, clean, scans⟩ : Member float)
        [⟨lit "attended", _, _, clean', scans_word attended⟩] := by
    unfold lookupEnd
    rw [List.map_append, List.map_append, List.map_append, List.map_append]
    have first : (ascii ",\"id\":").map ofByte = 44 :: 34 :: (lit "id" ++ [34, 58]) := rfl
    have second : (ascii ",\"attended\":").map ofByte = 44 :: 34 :: (lit "attended" ++ [34, 58]) := rfl
    have last : (ascii "\x7d").map ofByte = [125] := rfl
    rw [first, second, last]
    simp [compactText, Member.compact]
  rw [shape]
  refine closing_members _ _ fun more point head => ?_
  have solid : skipSpace (lit "id" ++ more) = 105 :: (lit "d" ++ more) := skipSpace_cons (by decide) _
  rw [solid] at head
  rw [← Option.some.inj head]
  decide

/-- A lookup is answered with JSON exactly if the name can be put between quotes. -/
theorem isJson_lookupBody_iff (name : Bytes) {id : Int} (int : -(2 ^ 31) ≤ id ∧ id < 2 ^ 31)
    (attended : Bool) : IsJson (lookupBody name id attended) ↔ Quotable name := by
  have lookup : lookupBody name id attended =
      123 :: 34 :: ascii "name\":\"" ++ (name ++ 34 :: lookupEnd id attended) := by
    unfold lookupBody lookupEnd
    have first : ascii "\x7b\"name\":\"" = 123 :: 34 :: ascii "name\":\"" := by decide
    have second : ascii "\",\"id\":" = 34 :: ascii ",\"id\":" := by decide
    rw [first, second]
    simp
  have alone : nameBody name = 123 :: 34 :: ascii "name\":\"" ++ (name ++ 34 :: [125]) := by
    unfold nameBody
    have first : ascii "\x7b\"name\":\"" = 123 :: 34 :: ascii "name\":\"" := by decide
    have second : ascii "\"\x7d" = [34, 125] := by decide
    rw [first, second]
    simp
  have low : ∀ byte ∈ lookupEnd id attended, byte < 128 := by
    unfold lookupEnd
    simp only [List.forall_mem_append]
    exact ⟨⟨⟨⟨forall_mem_of_all (by decide), low_decimalInt id⟩, forall_mem_of_all (by decide)⟩,
      low_word attended⟩, forall_mem_of_all (by decide)⟩
  unfold Quotable
  rw [lookup, alone]
  exact isJson_exchange_iff (forall_mem_of_all (by decide)) low (forall_mem_of_all (by decide))
    (fun float => closing_lookupEnd float int attended) closing_brace

/-- UTF-8 without control characters, quotes and backslashes can be put between
quotes. -/
theorem quotable_of_clean {name : Bytes} (clean : CleanBytes name) : Quotable name := by
  have low : ∀ byte ∈ ascii "name", byte < 128 := forall_mem_of_all (by decide)
  have key : Clean ((ascii "name").map ofByte) := forall_mem_of_all (by decide)
  have shape : nameBody name =
      123 :: 34 :: (ascii "name" ++ [34, 58, 34]) ++ (name ++ 34 :: [125]) := by
    unfold nameBody
    have front : ascii "\x7b\"name\":\"" = 123 :: 34 :: (ascii "name" ++ [34, 58, 34]) := by decide
    have back : ascii "\"\x7d" = [34, 125] := by decide
    rw [front, back]
    simp
  unfold Quotable
  rw [shape]
  exact isJson_clean low key clean

/-! ### The calls -/

theorem leaf_json_iff (leaf : Leaf) (store : KvStore) (req : HttpRequest) :
    IsJson (leaf.service.handleRequest store req).body ↔ LeafSound leaf store req := by
  unfold LeafService.handleRequest LeafSound
  by_cases foreign : req.method ≠ ascii "GET" ∨ req.path ≠ leaf.service.path
  · rw [if_pos foreign]
    have cut : ¬ IsJson notFound.body := not_isJson_of_mem (by simp)
    refine ⟨fun isJson => absurd isJson cut, fun ⟨method, path, _⟩ => ?_⟩
    rcases foreign with other | other
    · exact absurd method other
    · exact absurd path other
  · rw [if_neg foreign]
    rw [not_or, not_not, not_not] at foreign
    cases found : queryGet req.query leaf.service.key leaf.service.outsz with
    | none =>
        have cut : ¬ IsJson leaf.service.missing.body := by
          cases leaf with
          | idService => exact not_isJson_of_mem (by simp [Leaf.service, idService])
          | attendService => exact not_isJson_of_mem (by simp [Leaf.service, attendService])
        exact ⟨fun isJson => absurd isJson cut, fun ⟨_, _, _, nothing, _⟩ => absurd nothing (by simp)⟩
    | some key =>
        have sound : (req.method = ascii "GET" ∧ req.path = leaf.service.path ∧
            ∃ other, some key = some other ∧ (leaf = .idService ∨ kvStoreGet store other ≠ none)) ↔
              leaf = .idService ∨ kvStoreGet store key ≠ none := by
          constructor
          · rintro ⟨-, -, other, same, hit⟩
            rwa [Option.some.inj same]
          · intro hit
            exact ⟨foreign.1, foreign.2, key, rfl, hit⟩
        rw [sound]
        dsimp only
        cases looked : kvStoreGet store key with
        | none =>
            cases leaf with
            | idService => exact ⟨fun _ => Or.inl rfl, fun _ => isJson_of_mem (by simp [Leaf.service, idService])⟩
            | attendService =>
                have cut : ¬ IsJson idNotFound.body := not_isJson_of_mem (by simp)
                exact ⟨fun isJson => absurd isJson cut, fun hit => by simp at hit⟩
        | some value =>
            refine ⟨fun _ => Or.inr (by simp), fun _ => ?_⟩
            have int := kvStoreGet_range looked
            cases leaf with
            | idService =>
                show IsJson (Reply.printed 200 (idBody value)).body
                rw [body_printed]
                exact isJson_idBody int
            | attendService =>
                show IsJson (Reply.printed 200 (attendBody value)).body
                rw [body_printed]
                exact isJson_attendBody value

theorem request_json_iff (base : Leaf → Bytes) (allocated sent : Bool) (req : HttpRequest) :
    (∀ reply ∈ responses (handleRequest base allocated sent req), IsJson reply.body) ↔
      RequestSound allocated sent req := by
  have cut : ∀ reply, reply ∈ [notFound, missingName, allocFailed, upstreamFailed] →
      ¬ ∀ other ∈ [reply], IsJson other.body := by
    intro reply known isJson
    simp only [List.mem_cons, List.not_mem_nil, or_false] at known
    exact not_isJson_of_mem (by rcases known with rfl | rfl | rfl | rfl <;> simp)
      (isJson reply List.mem_cons_self)
  unfold RequestSound handleRequest
  by_cases foreign : req.method ≠ ascii "GET" ∨ req.path ≠ ascii "/lookup"
  · rw [if_pos foreign]
    refine ⟨fun isJson => absurd isJson (cut notFound (by simp)), fun ⟨method, path, _⟩ => ?_⟩
    rcases foreign with other | other
    · exact absurd method other
    · exact absurd path other
  · rw [if_neg foreign]
    rw [not_or, not_not, not_not] at foreign
    cases found : queryGet req.query (ascii "name") 64 with
    | none =>
        exact ⟨fun isJson => absurd isJson (cut missingName (by simp)), fun ⟨_, _, some_, _⟩ => absurd rfl some_⟩
    | some name =>
        cases allocated with
        | false =>
            exact ⟨fun isJson => absurd isJson (cut allocFailed (by simp)), fun ⟨_, _, _, no, _⟩ => by contradiction⟩
        | true =>
            cases sent with
            | false =>
                exact ⟨fun isJson => absurd isJson (cut upstreamFailed (by simp)), fun ⟨_, _, _, _, no⟩ => by contradiction⟩
            | true =>
                exact ⟨fun _ => ⟨foreign.1, foreign.2, by simp, rfl, rfl⟩, fun _ => List.forall_mem_nil _⟩

theorem response_json_iff (base : Leaf → Bytes) (sent : Bool) {ctx : FrontendCtx}
    (int : -(2 ^ 31) ≤ ctx.id ∧ ctx.id < 2 ^ 31) (resp : HttpResponse) :
    (∀ reply ∈ responses (handleUpstreamResponse base sent ctx resp), IsJson reply.body) ↔
      ResponseSound sent ctx resp := by
  have single : ∀ reply : Reply, (∀ other ∈ responses [.respond reply, .free], IsJson other.body) ↔
      IsJson reply.body := by
    intro reply
    exact List.forall_mem_singleton
  unfold ResponseSound handleUpstreamResponse
  by_cases status : resp.statusCode ≠ 200
  · rw [if_pos status, if_pos status, single, body_printed]
  · rw [if_neg status, if_neg status]
    cases ctx.stage with
    | waitingAttend =>
        dsimp only
        rw [single, body_printed]
        exact isJson_lookupBody_iff ctx.name int _
    | waitingId =>
        dsimp only
        cases strstr (cstr resp.body) (ascii "\"id\":") with
        | none =>
            rw [single]
            have cut : ¬ IsJson badIdResponse.body := not_isJson_of_mem (by simp)
            exact ⟨fun isJson => absurd isJson cut, fun ⟨some_, _⟩ => absurd rfl some_⟩
        | some found =>
            cases sent with
            | false =>
                have cut : ¬ IsJson upstreamFailed.body := not_isJson_of_mem (by simp)
                refine ⟨fun isJson => absurd ((single _).mp isJson) cut, fun ⟨_, no⟩ => by contradiction⟩
            | true => exact ⟨fun _ => ⟨by simp, rfl⟩, fun _ => List.forall_mem_nil _⟩

/-- The replies of the callbacks of an upstream conn. -/
def upstreamReplies : List Reply :=
  [connectFailed, writeFailed, readFailed, upstreamClosed, badResponse]

theorem onUpstreamConnect_replied {conn : Conn} {connected : Bool} {reply : Reply}
    (replied : onUpstreamConnect conn connected = .replied reply) : reply ∈ upstreamReplies := by
  unfold onUpstreamConnect at replied
  split at replied
  · contradiction
  · rw [← Upstream.replied.inj replied]
    simp [upstreamReplies]

theorem onUpstreamWrite_replied {conn : Conn} {result : WriteResult} {reply : Reply}
    (replied : onUpstreamWrite conn result = .replied reply) : reply ∈ upstreamReplies := by
  unfold onUpstreamWrite at replied
  split at replied
  · dsimp only at replied
    split at replied
    · contradiction
    · contradiction
  · contradiction
  · rw [← Upstream.replied.inj replied]
    simp [upstreamReplies]

theorem onUpstreamRead_replied {conn : Conn} {result : ReadResult} {reply : Reply}
    (replied : onUpstreamRead conn result = .replied reply) : reply ∈ upstreamReplies := by
  unfold onUpstreamRead at replied
  cases result with
  | data bytes =>
      dsimp only at replied
      split at replied
      · contradiction
      · rw [← Upstream.replied.inj replied]
        simp [upstreamReplies]
      · contradiction
  | closed =>
      dsimp only at replied
      split at replied
      · contradiction
      · rw [← Upstream.replied.inj replied]
        simp [upstreamReplies]
      · rw [← Upstream.replied.inj replied]
        simp [upstreamReplies]
  | again => contradiction
  | failed =>
      rw [← Upstream.replied.inj replied]
      simp [upstreamReplies]

theorem exchange_replied {upstream : Upstream} {phase next : Phase} {reply : Reply}
    (replied : upstream.exchange phase next = .replied reply) : upstream = .replied reply := by
  cases upstream with
  | replied other => rw [Exchange.replied.inj replied]
  | waiting | advanced | handed => contradiction

theorem step_replied {exchange : Exchange} {event : UpstreamEvent} {reply : Reply}
    (replied : exchange.step event = some (.replied reply)) : reply ∈ upstreamReplies := by
  unfold Exchange.step at replied
  split at replied
  · exact onUpstreamConnect_replied (exchange_replied (Option.some.inj replied))
  · split at replied
    · exact onUpstreamWrite_replied (exchange_replied (Option.some.inj replied))
    · contradiction
  · split at replied
    · exact onUpstreamRead_replied (exchange_replied (Option.some.inj replied))
    · contradiction
  · contradiction

/-- Whether the replies of a call are JSON texts. -/
theorem replies_json_iff (call : Call) :
    (∀ reply ∈ call.replies, IsJson reply.body) ↔ call.Sound := by
  cases call with
  | leaf which store req =>
      show (∀ reply ∈ [which.service.handleRequest store req], IsJson reply.body) ↔
        LeafSound which store req
      rw [List.forall_mem_singleton]
      exact leaf_json_iff which store req
  | request base allocated sent req => exact request_json_iff base allocated sent req
  | response base sent ctx int resp => exact response_json_iff base sent int resp
  | clientRead conn result =>
      refine ⟨fun _ => trivial, fun _ reply member => ?_⟩
      unfold Call.replies at member
      dsimp only at member
      cases ended : onClientRead conn result with
      | replied conn =>
          rw [ended] at member
          rw [List.mem_singleton.mp member]
          exact isJson_of_mem (by simp)
      | freed | waiting | handed =>
          rw [ended] at member
          exact absurd member List.not_mem_nil
  | upstreamEvent exchange event =>
      refine ⟨fun _ => trivial, fun _ reply member => ?_⟩
      unfold Call.replies at member
      dsimp only at member
      cases ended : exchange.step event with
      | none =>
          rw [ended] at member
          exact absurd member List.not_mem_nil
      | some after =>
          cases after with
          | replied other =>
              rw [ended] at member
              rw [List.mem_singleton.mp member]
              exact isJson_of_mem (List.mem_cons_of_mem _ (List.mem_cons_of_mem _ (step_replied ended)))
          | pending | handed =>
              rw [ended] at member
              exact absurd member List.not_mem_nil

/-- A lookup without a name is answered with `{"error":"missing name"`. -/
theorem not_replies_json : ¬ ∀ call : Call, ∀ reply ∈ call.replies, IsJson reply.body := by
  intro isJson
  have all := isJson (.request tcpBase true true ⟨ascii "GET", ascii "/lookup", [], [], 0⟩)
  obtain ⟨-, -, name, -⟩ := (request_json_iff tcpBase true true _).mp all
  exact name rfl

end MiniMs.Service
