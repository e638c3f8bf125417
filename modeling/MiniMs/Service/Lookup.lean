import MiniMs.Http.RequestLine
import MiniMs.Service.Handlers

/-!
A lookup as the frontend and the two leaf services carry it out together, over
any exchange that brings a response.

Owns: the reply that the actions of the frontend lead to, what the replies of
the handlers have in common, and the join of the two stores that a lookup
computes.

How an exchange takes place is left to the transports.
-/

namespace MiniMs.Service

open MiniMs.Dpumesh MiniMs.Http MiniMs.Library.Text MiniMs.Library.Number

/-! ### From actions to a reply -/

/-- The service of a leaf. -/
def Leaf.service : Leaf → LeafService
  | .idService => Service.idService
  | .attendService => Service.attendService

/-- The reply among some actions, or what comes of the exchange that they ask
for. Every exchange that is asked for is accepted. -/
def outcome (base : Leaf → Bytes) (exchange : Leaf → Bytes → Option HttpResponse) :
    Nat → List Action → Option Reply
  | 0, actions => (responses actions).head?
  | stages + 1, actions =>
      match sends actions with
      | [] => (responses actions).head?
      | (leaf, target, ctx) :: _ =>
          (exchange leaf target).bind fun resp =>
            outcome base exchange stages (handleUpstreamResponse base true ctx resp)

/-- The reply to a request of the frontend: a lookup has two stages. -/
def lookupReply (base : Leaf → Bytes) (exchange : Leaf → Bytes → Option HttpResponse)
    (req : HttpRequest) : Option Reply :=
  outcome base exchange 2 (handleRequest base true true req)

/-! ### The replies -/

/-- A reply that every transport carries unchanged: its length lies within its
text, and it fits the body buffers. -/
structure Reply.Sound (reply : Reply) : Prop where
  within : reply.bodyLen ≤ reply.text.length
  fits : reply.bodyLen < bodyBufSize
  clean : 0 ∉ reply.body
  status_low : 0 < reply.status
  status_high : reply.status < 2 ^ 31

theorem Reply.Sound.length_body {reply : Reply} (sound : reply.Sound) :
    reply.body.length = reply.bodyLen := by
  unfold Reply.body
  rw [List.length_take]
  exact Nat.min_eq_left sound.within

@[simp] theorem body_printed (status : Int) (text : Bytes) : (Reply.printed status text).body = text :=
  List.take_length

theorem sound_printed {status : Int} {text : Bytes} (fits : text.length < bodyBufSize)
    (clean : 0 ∉ text) (low : 0 < status) (high : status < 2 ^ 31) :
    (Reply.printed status text).Sound :=
  ⟨le_refl _, fits, by rwa [body_printed], low, high⟩

theorem zero_notMem_decimalInt (value : Int) : 0 ∉ decimalInt value := by
  intro member
  rcases mem_decimalInt member with minus | digit
  · contradiction
  · exact isDigit_ne digit (by decide) rfl

theorem sound_idBody {id : Int} (low : -(2 ^ 31) ≤ id) (high : id < 2 ^ 31) :
    (Reply.printed 200 (idBody id)).Sound := by
  apply sound_printed
  · have number := length_decimalInt_le low high
    have front : (ascii "\x7b\"id\":").length = 6 := by decide
    have back : (ascii "\x7d").length = 1 := by decide
    unfold idBody bodyBufSize
    rw [List.length_append, List.length_append, front, back]
    omega
  · unfold idBody
    rw [List.mem_append, List.mem_append, not_or, not_or]
    exact ⟨⟨by decide, zero_notMem_decimalInt id⟩, by decide⟩
  · decide
  · decide

theorem sound_attendBody (attended : Int) : (Reply.printed 200 (attendBody attended)).Sound := by
  unfold attendBody
  split
  all_goals exact sound_printed (by decide) (by decide) (by decide) (by decide)

/-- Whatever a leaf service is asked, its reply is sound. -/
theorem sound_leaf (leaf : Leaf) (store : KvStore) (req : HttpRequest) :
    (leaf.service.handleRequest store req).Sound := by
  have constants : ∀ reply ∈ [notFound, missingName, nameNotFound, missingId, idNotFound],
      reply.Sound := by
    intro reply member
    simp only [List.mem_cons, List.not_mem_nil, or_false] at member
    rcases member with rfl | rfl | rfl | rfl | rfl
    all_goals exact ⟨by decide, by decide, by decide, by decide, by decide⟩
  have missing : leaf.service.missing.Sound := by
    cases leaf with
    | idService => exact constants missingName (by simp)
    | attendService => exact constants missingId (by simp)
  have absent : leaf.service.absent.Sound := by
    cases leaf with
    | idService => exact constants nameNotFound (by simp)
    | attendService => exact constants idNotFound (by simp)
  unfold LeafService.handleRequest
  split
  · exact constants notFound (by simp)
  · split
    · exact missing
    · split
      · exact absent
      · rename_i value found
        obtain ⟨low, high⟩ := kvStoreGet_range found
        cases leaf with
        | idService => exact sound_idBody low high
        | attendService => exact sound_attendBody value

/-! ### The join -/

/-- A name that travels through both query strings. -/
structure LookupName where
  name : Bytes
  fits : name.length ≤ 63
  plain : ∀ byte ∈ name, byte ≠ 0 ∧ byte ≠ 32 ∧ byte ≠ 13 ∧ byte ≠ 10 ∧ byte ≠ 38

/-- What a lookup is for: the status and the body that the two stores give. -/
def joined (stores : Leaf → KvStore) (name : Bytes) : Int × Bytes :=
  match kvStoreGet (stores .idService) name with
  | none => (404, nameNotFound.body)
  | some id =>
      match kvStoreGet (stores .attendService) (decimalInt id) with
      | none => (404, idNotFound.body)
      | some attended => (200, lookupBody name id (attended ≠ 0))

/-- The request that a leaf is sent. -/
def leafRequest (leaf : Leaf) (key : Bytes) : HttpRequest :=
  ⟨ascii "GET", leaf.service.path, leaf.service.key ++ 61 :: key, [], 0⟩

/-- The reply of a leaf service to a key. -/
def leafReply (leaf : Leaf) (store : KvStore) (key : Bytes) : Reply :=
  match kvStoreGet store key with
  | none => leaf.service.absent
  | some value => leaf.service.found value

theorem handleRequest_leafRequest {leaf : Leaf} {key : Bytes} (plain : 38 ∉ key)
    (fits : key.length < leaf.service.outsz) (store : KvStore) :
    leaf.service.handleRequest store (leafRequest leaf key) = leafReply leaf store key := by
  unfold LeafService.handleRequest leafRequest leafReply
  have read := @queryGet_first leaf.service.key key _ plain fits
  cases found : kvStoreGet store key with
  | none => simp [read, found]
  | some value => simp [read, found]

/-- The response that a leaf's reply arrives as. -/
def leafResponse (leaf : Leaf) (store : KvStore) (key : Bytes) : HttpResponse :=
  let reply := leafReply leaf store key
  ⟨reply.status, reply.body, reply.bodyLen⟩

theorem strstr_idBody (id : Int) :
    strstr (cstr (idBody id)) (ascii "\"id\":") = some (ascii "\"id\":" ++ (decimalInt id ++ [125])) := by
  have clean : 0 ∉ idBody id := by
    unfold idBody
    rw [List.mem_append, List.mem_append, not_or, not_or]
    exact ⟨⟨by decide, zero_notMem_decimalInt id⟩, by decide⟩
  have shape : idBody id = 123 :: (ascii "\"id\":" ++ (decimalInt id ++ [125])) := by
    have front : ascii "\x7b\"id\":" = 123 :: ascii "\"id\":" := by decide
    have back : ascii "\x7d" = [125] := by decide
    unfold idBody
    rw [front, back, List.cons_append, List.cons_append, List.append_assoc]
  have other : ¬ ascii "\"id\":" <+: 123 :: (ascii "\"id\":" ++ (decimalInt id ++ [125])) := by
    have first : ascii "\"id\":" = 34 :: ascii "id\":" := by decide
    rw [first, List.cons_prefix_cons]
    simp
  rw [cstr_eq_self clean, shape, strstr_cons_miss other, strstr_here (List.prefix_append _ _)]

/-- The id that the frontend reads is the id that was printed. -/
theorem atoi_idBody {id : Int} (low : -(2 ^ 31) ≤ id) (high : id < 2 ^ 31) :
    atoi ((ascii "\"id\":" ++ (decimalInt id ++ [125])).drop 5) = id := by
  have length : (ascii "\"id\":").length = 5 := by decide
  rw [← length, List.drop_left]
  apply atoi_decimalInt low high
  intro byte head
  rw [List.head?_cons, Option.some.injEq] at head
  rw [← head]
  decide

/-- The word that the frontend looks for is there when it was printed. -/
theorem strstr_attendBody (attended : Int) :
    (strstr (cstr (attendBody attended)) (ascii "true")).isSome = decide (attended ≠ 0) := by
  unfold attendBody
  by_cases absent : attended = 0
  · rw [if_neg (not_not.mpr absent), decide_eq_false (not_not.mpr absent)]
    decide
  · rw [if_pos absent, decide_eq_true absent]
    decide

theorem sound_lookupBody (lookup : LookupName) {id : Int} (low : -(2 ^ 31) ≤ id)
    (high : id < 2 ^ 31) (attended : Bool) :
    (Reply.printed 200 (lookupBody lookup.name id attended)).Sound := by
  have word : (if attended then ascii "true" else ascii "false").length ≤ 5 ∧
      0 ∉ (if attended then ascii "true" else ascii "false") := by
    cases attended with
    | true => exact ⟨by decide, by decide⟩
    | false => exact ⟨by decide, by decide⟩
  apply sound_printed
  · have name := lookup.fits
    have number := length_decimalInt_le low high
    have first : (ascii "\x7b\"name\":\"").length = 9 := by decide
    have second : (ascii "\",\"id\":").length = 7 := by decide
    have third : (ascii ",\"attended\":").length = 12 := by decide
    have last : (ascii "\x7d").length = 1 := by decide
    unfold lookupBody bodyBufSize
    simp only [List.length_append, first, second, third, last]
    omega
  · have name : 0 ∉ lookup.name := fun member => (lookup.plain 0 member).1 rfl
    unfold lookupBody
    simp only [List.mem_append, not_or]
    exact ⟨⟨⟨⟨⟨⟨by decide, name⟩, by decide⟩, zero_notMem_decimalInt id⟩, by decide⟩, word.2⟩,
      by decide⟩
  · decide
  · decide

section Outcome

variable {base : Leaf → Bytes} {exchange : Leaf → Bytes → Option HttpResponse}
  {stores : Leaf → KvStore} {lookup : LookupName}

/-- An exchange whose response ends the request. -/
theorem outcome_last {leaf : Leaf} {target : Bytes} {ctx : FrontendCtx} {resp : HttpResponse}
    {reply : Reply} (exchanged : exchange leaf target = some resp)
    (answer : handleUpstreamResponse base true ctx resp = [.respond reply, .free]) (stages : Nat) :
    outcome base exchange (stages + 1) [.send leaf target ctx] = some reply := by
  have last : outcome base exchange stages [.respond reply, .free] = some reply := by
    cases stages with
    | zero => rfl
    | succ stages => rfl
  show (exchange leaf target).bind _ = some reply
  rw [exchanged, Option.bind_some, answer, last]

variable (lookup) in
/-- What the second stage makes of the attendance. -/
theorem outcome_attend {id : Int} (low : -(2 ^ 31) ≤ id) (high : id < 2 ^ 31)
    (exchanged : exchange .attendService (attendTarget (base .attendService) id) =
      some (leafResponse .attendService (stores .attendService) (decimalInt id)))
    (known : kvStoreGet (stores .idService) lookup.name = some id) :
    ∃ reply, outcome base exchange 1 [.send .attendService (attendTarget (base .attendService) id)
        ⟨.waitingAttend, lookup.name, id⟩] = some reply ∧
      (reply.status, reply.body) = joined stores lookup.name ∧ reply.Sound := by
  unfold joined
  rw [known]
  dsimp only
  unfold leafResponse leafReply at exchanged
  cases attends : kvStoreGet (stores .attendService) (decimalInt id) with
  | none =>
      rw [attends] at exchanged
      refine ⟨.printed 404 idNotFound.body, outcome_last exchanged rfl 0, rfl, ?_⟩
      exact sound_printed (by decide) (by decide) (by decide) (by decide)
  | some attended =>
      rw [attends] at exchanged
      have answer : handleUpstreamResponse base true ⟨.waitingAttend, lookup.name, id⟩
          ⟨200, attendBody attended, (attendBody attended).length⟩ =
          [.respond (.printed 200 (lookupBody lookup.name id (decide (attended ≠ 0)))), .free] := by
        unfold handleUpstreamResponse
        rw [if_neg (by simp)]
        dsimp only
        rw [strstr_attendBody]
      have body : (Reply.printed 200 (attendBody attended)).body = attendBody attended :=
        body_printed _ _
      refine ⟨.printed 200 (lookupBody lookup.name id (decide (attended ≠ 0))),
        outcome_last exchanged ?_ 0, ?_, sound_lookupBody lookup low high _⟩
      · show handleUpstreamResponse base true _
          ⟨200, (Reply.printed 200 (attendBody attended)).body, (attendBody attended).length⟩ = _
        rw [body, answer]
      · show (200, (Reply.printed 200 _).body) = _
        rw [body_printed]

/-- Over exchanges that bring what the leaves reply, a lookup computes the join. -/
theorem lookupReply_joined {req : HttpRequest} (method : req.method = ascii "GET")
    (path : req.path = ascii "/lookup") (query : req.query = ascii "name" ++ 61 :: lookup.name)
    (idSide : exchange .idService (idTarget (base .idService) lookup.name) =
      some (leafResponse .idService (stores .idService) lookup.name))
    (attendSide : ∀ id, kvStoreGet (stores .idService) lookup.name = some id →
      exchange .attendService (attendTarget (base .attendService) id) =
        some (leafResponse .attendService (stores .attendService) (decimalInt id))) :
    ∃ reply, lookupReply base exchange req = some reply ∧
      (reply.status, reply.body) = joined stores lookup.name ∧ reply.Sound := by
  have plain : 38 ∉ lookup.name := fun member => (lookup.plain 38 member).2.2.2.2 rfl
  have fits : lookup.name.length < 64 := Nat.lt_succ_of_le lookup.fits
  have asks : handleRequest base true true req =
      [.send .idService (idTarget (base .idService) lookup.name) ⟨.waitingId, lookup.name, 0⟩] := by
    unfold handleRequest
    rw [method, path, query, if_neg (by simp), queryGet_first plain fits]
    rfl
  unfold lookupReply
  rw [asks]
  unfold leafResponse leafReply at idSide
  cases ids : kvStoreGet (stores .idService) lookup.name with
  | none =>
      rw [ids] at idSide
      have same : joined stores lookup.name = (404, nameNotFound.body) := by
        unfold joined
        rw [ids]
      rw [same]
      refine ⟨.printed 404 nameNotFound.body, outcome_last idSide rfl 1, rfl, ?_⟩
      exact sound_printed (by decide) (by decide) (by decide) (by decide)
  | some id =>
      obtain ⟨low, high⟩ := kvStoreGet_range ids
      rw [ids] at idSide
      have next : handleUpstreamResponse base true ⟨.waitingId, lookup.name, 0⟩
          ⟨200, (Reply.printed 200 (idBody id)).body, (idBody id).length⟩ =
          [.send .attendService (attendTarget (base .attendService) id)
            ⟨.waitingAttend, lookup.name, id⟩] := by
        unfold handleUpstreamResponse
        rw [if_neg (by simp)]
        dsimp only
        rw [body_printed, strstr_idBody]
        dsimp only
        rw [atoi_idBody low high]
        rfl
      have second := outcome_attend lookup low high (attendSide id ids) ids
      have first : outcome base exchange 2 [.send .idService
          (idTarget (base .idService) lookup.name) ⟨.waitingId, lookup.name, 0⟩] =
          outcome base exchange 1 [.send .attendService (attendTarget (base .attendService) id)
            ⟨.waitingAttend, lookup.name, id⟩] := by
        show (exchange .idService (idTarget (base .idService) lookup.name)).bind _ = _
        rw [idSide, Option.bind_some]
        exact congrArg (outcome base exchange 1) next
      rw [first]
      exact second

end Outcome

end MiniMs.Service
