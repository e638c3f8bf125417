import MiniMs.Daemon.IngressPayload
import MiniMs.Daemon.LocalHeader
import MiniMs.Daemon.RoutingMetadata

/-!
The header of a plain bridge request as a row of fields.

Owns: the requests whose strings print as they are, the text of their header
field by field and where the worker cuts it off, and the theorem that the worker
reads every string of such a request, the uuid and the empty source worker.

Requests with other characters or with headers of their own are left to the
exact conditions of the other bridge modules.
-/

namespace MiniMs.Daemon

open MiniMs.Dpumesh MiniMs.Library.Text MiniMs.Library.Json

/-! ### Bare bytes -/

/-- A byte that stands for itself in a JSON string, and is no brace. -/
def Bare (byte : UInt8) : Prop :=
  32 ≤ byte ∧ byte ≤ 126 ∧ byte ≠ 34 ∧ byte ≠ 92 ∧ byte ≠ 123 ∧ byte ≠ 125

instance (byte : UInt8) : Decidable (Bare byte) :=
  inferInstanceAs (Decidable (32 ≤ byte ∧ byte ≤ 126 ∧ byte ≠ 34 ∧ byte ≠ 92 ∧ byte ≠ 123 ∧ byte ≠ 125))

section Bytes

variable {text : Bytes} (bare : ∀ byte ∈ text, Bare byte)

include bare

theorem quote_notMem_of_bare : 34 ∉ text := fun member => (bare 34 member).2.2.1 rfl

theorem low_of_bare : ∀ byte ∈ text, byte < 128 := by
  intro byte member
  have high := UInt8.le_iff_toNat_le.mp (bare byte member).2.1
  exact UInt8.lt_iff_toNat_lt.mpr (Nat.lt_of_le_of_lt high (by decide))

theorem encode_of_bare : encode (ofAscii text) = some text := encode_ofAscii (low_of_bare bare)

theorem escape_of_bare : escape (ofAscii text) = text :=
  escape_ofAscii fun byte member =>
    ⟨(bare byte member).1, (bare byte member).2.1, (bare byte member).2.2.1, (bare byte member).2.2.2.1⟩

end Bytes

theorem bare_uuid (uuid : Uuid) : ∀ byte ∈ uuid.text, Bare byte := by
  have digits : ∀ byte ∈ ascii "0123456789abcdef-", Bare byte := forall_mem_of_all (by decide)
  exact fun byte member => digits byte (uuid.mem_text member)

/-! ### Objects as rows -/

/-- A member prints as a field. -/
structure Prints (member : PyStr × Value) (field : Field) : Prop where
  key : quoted member.1 = inQuotes field.key
  value : dumps member.2 = field.raw

theorem prints_string {key : PyStr} {name text : Bytes} (named : quoted key = inQuotes name)
    (bare : ∀ byte ∈ text, Bare byte) :
    Prints (key, .string (ofAscii text)) ⟨name, inQuotes text⟩ := by
  refine ⟨named, ?_⟩
  show dumps (.string (ofAscii text)) = inQuotes text
  rw [dumps]
  unfold quoted inQuotes
  rw [escape_of_bare bare, List.cons_append]

theorem Prints.text {member : PyStr × Value} {field : Field} (prints : Prints member field) :
    quoted member.1 ++ ascii ": " ++ dumps member.2 = field.text := by
  have colon : ascii ": " = [58, 32] := by decide
  rw [prints.key, prints.value, colon]
  unfold inQuotes Field.text
  simp

theorem dumpsMembers_row {members : List (PyStr × Value)} {fields : List Field}
    (prints : List.Forall₂ Prints members fields) :
    dumpsMembers members ++ [125] = tailText fields := by
  induction prints with
  | nil => rw [dumpsMembers]; rfl
  | @cons member field members fields first others inductionHypothesis =>
      have comma : ascii ", " = [44, 32] := by decide
      have text := first.text
      have tail : tailText (field :: fields) = 44 :: 32 :: (field.text ++ tailText fields) := by
        unfold tailText
        simp
      rw [tail, ← inductionHypothesis, ← text, dumpsMembers, comma]
      simp

/-- An object whose members print as fields prints as their row. -/
theorem dumps_row {member : PyStr × Value} {members : List (PyStr × Value)} {field : Field}
    {fields : List Field} (first : Prints member field)
    (others : List.Forall₂ Prints members fields) :
    dumps (.object (member :: members)) = rowText [] field fields := by
  have text := first.text
  have opening : ascii "\x7b" = [123] := by decide
  have closing : ascii "\x7d" = [125] := by decide
  rw [dumps, opening, closing]
  unfold rowText frontText
  rw [← dumpsMembers_row others, ← text]
  simp

/-- Any field of a row can be singled out, the first one as well. -/
theorem rowText_split {first field : Field} {fields front back : List Field}
    (split : first :: fields = front ++ field :: back) :
    rowText [] first fields = rowText front field back := by
  cases front with
  | nil =>
      obtain ⟨same, later⟩ := List.cons.inj split
      rw [same, later]
  | cons head front =>
      obtain ⟨same, later⟩ := List.cons.inj split
      rw [same, later]
      exact rowText_focus [] head front field back

/-! ### Where the header ends -/

/-- The brace loop passes an empty object on its way to the closing brace. -/
theorem matchBrace_object {front back : Bytes} (front_open : 123 ∉ front) (front_close : 125 ∉ front)
    (back_open : 123 ∉ back) (back_close : 125 ∉ back) (after : Bytes) :
    matchBrace 1 (front ++ 123 :: 125 :: (back ++ 125 :: after)) =
      front ++ 123 :: 125 :: (back ++ [125]) := by
  have first : braceDepth 1 front = 1 := braceDepth_of_no_brace front_open front_close
  have second : braceDepth 1 back = 1 := braceDepth_of_no_brace back_open back_close
  rw [matchBrace_append, first, matchBrace_of_open (by rw [first]; decide)]
  show front ++ 123 :: 125 :: matchBrace 1 (back ++ 125 :: after) = _
  rw [matchBrace_append, second, matchBrace_of_open (by rw [second]; decide)]
  show front ++ 123 :: 125 :: (back ++ 125 :: matchBrace 0 after) = _
  rw [matchBrace_zero]

/-- No brace stands in a field. -/
def Unbraced (field : Field) : Prop := 123 ∉ field.text ∧ 125 ∉ field.text

theorem unbraced_inQuotes {key text : Bytes} (key_bare : ∀ byte ∈ key, Bare byte)
    (text_bare : ∀ byte ∈ text, Bare byte) : Unbraced ⟨key, inQuotes text⟩ := by
  have inKey : 123 ∉ key ∧ 125 ∉ key :=
    ⟨fun member => (key_bare _ member).2.2.2.2.1 rfl, fun member => (key_bare _ member).2.2.2.2.2 rfl⟩
  have inText : 123 ∉ text ∧ 125 ∉ text :=
    ⟨fun member => (text_bare _ member).2.2.2.2.1 rfl,
      fun member => (text_bare _ member).2.2.2.2.2 rfl⟩
  constructor
  · simp [Field.text, inQuotes, inKey.1, inText.1]
  · simp [Field.text, inQuotes, inKey.2, inText.2]

theorem notMem_frontText {fields : List Field} (unbraced : ∀ field ∈ fields, Unbraced field) :
    123 ∉ frontText fields ∧ 125 ∉ frontText fields := by
  unfold frontText
  constructor
  · intro inside
    obtain ⟨field, member, occurs⟩ := List.mem_flatMap.mp inside
    rcases List.mem_append.mp occurs with text | separator
    · exact (unbraced field member).1 text
    · exact absurd separator (by decide)
  · intro inside
    obtain ⟨field, member, occurs⟩ := List.mem_flatMap.mp inside
    rcases List.mem_append.mp occurs with text | separator
    · exact (unbraced field member).2 text
    · exact absurd separator (by decide)

/-- A row around an empty object, up to the closing brace. -/
theorem take_headerCut_row {front back : List Field} {key : Bytes} (key_bare : ∀ byte ∈ key, Bare byte)
    (unbraced : ∀ field ∈ front ++ back, Unbraced field)
    (short : (rowText front ⟨key, [123, 125]⟩ back).length ≤ headerBufSize - 1) (after : Bytes) :
    (rowText front ⟨key, [123, 125]⟩ back ++ after).take
        (headerCut (rowText front ⟨key, [123, 125]⟩ back ++ after)) =
      rowText front ⟨key, [123, 125]⟩ back := by
  have inFront := notMem_frontText fun field member => unbraced field (List.mem_append_left _ member)
  have inKey : 123 ∉ key ∧ 125 ∉ key :=
    ⟨fun member => (key_bare _ member).2.2.2.2.1 rfl, fun member => (key_bare _ member).2.2.2.2.2 rfl⟩
  let before : Bytes := frontText front ++ (34 :: (key ++ [34, 58, 32]))
  let behind : Bytes := back.flatMap fun field => 44 :: 32 :: field.text
  have before_open : 123 ∉ before := by simp [before, inFront.1, inKey.1]
  have before_close : 125 ∉ before := by simp [before, inFront.2, inKey.2]
  have behind_open : 123 ∉ behind := by
    intro inside
    obtain ⟨field, member, occurs⟩ := List.mem_flatMap.mp inside
    have text := (unbraced field (List.mem_append_right _ member)).1
    simp [text] at occurs
  have behind_close : 125 ∉ behind := by
    intro inside
    obtain ⟨field, member, occurs⟩ := List.mem_flatMap.mp inside
    have text := (unbraced field (List.mem_append_right _ member)).2
    simp [text] at occurs
  have shape : rowText front ⟨key, [123, 125]⟩ back =
      123 :: (before ++ 123 :: 125 :: (behind ++ [125])) := by
    simp [rowText, Field.text, tailText, before, behind]
  have split : rowText front ⟨key, [123, 125]⟩ back ++ after =
      123 :: (before ++ 123 :: 125 :: (behind ++ 125 :: after)) := by
    rw [shape]
    simp
  have walked : matchBrace 1 (before ++ 123 :: 125 :: (behind ++ 125 :: after)) =
      before ++ 123 :: 125 :: (behind ++ [125]) :=
    matchBrace_object before_open before_close behind_open behind_close after
  have cut : headerCut (rowText front ⟨key, [123, 125]⟩ back ++ after) =
      (rowText front ⟨key, [123, 125]⟩ back).length := by
    unfold headerCut
    rw [split, List.tail_cons, walked]
    rw [shape] at short ⊢
    rw [List.length_cons] at short ⊢
    omega
  rw [cut, List.take_left]

/-! ### Plain requests -/

/-- A request to the bridge of which every string prints as it is, without headers
of its own, with the worker that it is for. -/
structure PlainRequest where
  env : BridgeEnv
  client : List (PyStr × Value)
  method : Bytes
  url : Bytes
  path : Bytes
  queryString : Bytes
  remoteAddr : Bytes
  worker : Bytes
  podId : Int
  body : Bytes
  method_eq : get client (lit "method") (.string (lit "GET")) = .string (ofAscii method)
  path_eq : get client (lit "path") (.string (lit "/")) = .string (ofAscii path)
  headers_eq : (get client (lit "headers") (.object [])).truthy = false
  queryString_eq : get client (lit "query_string") (.string []) = .string (ofAscii queryString)
  body_eq : get client (lit "body") (.string []) = .string (ofAscii body)
  url_eq : targetUrl env client = some (.string (ofAscii url))
  remoteAddr_eq : env.remoteAddr = ofAscii remoteAddr
  selected : env.select (getServiceName (.string (ofAscii url))) = some (ofAscii worker, podId)
  bare : ∀ text ∈ [method, url, path, queryString, remoteAddr, worker, body],
    ∀ byte ∈ text, Bare byte
  method_fits : method.length ≤ 15
  path_fits : path.length ≤ 255
  queryString_fits : queryString.length ≤ 511
  header_fits : url.length + remoteAddr.length + worker.length ≤ 3000
  body_fits : body.length ≤ slotSize - 8192

namespace PlainRequest

variable (request : PlainRequest) (uuid : Uuid)

/-- The fields of the header in front of the headers, behind the method. -/
def target : List Field := [⟨ascii "url", inQuotes request.url⟩, ⟨ascii "path", inQuotes request.path⟩]

/-- The fields of the header behind the headers. -/
def routing : List Field :=
  [⟨ascii "query_string", inQuotes request.queryString⟩,
    ⟨ascii "remote_addr", inQuotes request.remoteAddr⟩, ⟨ascii "status_code", ascii "0"⟩,
    ⟨ascii "req_id_str", inQuotes uuid.text⟩, ⟨ascii "source_worker", inQuotes []⟩,
    ⟨ascii "dest_worker", inQuotes request.worker⟩]

def methodField : Field := ⟨ascii "method", inQuotes request.method⟩

/-- The header. -/
def row : Bytes :=
  rowText [] request.methodField
    (request.target ++ ⟨ascii "headers", [123, 125]⟩ :: request.routing uuid)

/-- The combined text behind the header. -/
def behind : Bytes := [44, 32] ++ (keyPattern (ascii "body") ++ 32 :: 34 :: (request.body ++ 34 :: [125]))

def text : Bytes := ascii "\x7b\"header\": " ++ (request.row uuid ++ request.behind)

section Bare

variable {request}

theorem bare_method : ∀ byte ∈ request.method, Bare byte := request.bare _ (by simp)

theorem bare_url : ∀ byte ∈ request.url, Bare byte := request.bare _ (by simp)

theorem bare_path : ∀ byte ∈ request.path, Bare byte := request.bare _ (by simp)

theorem bare_queryString : ∀ byte ∈ request.queryString, Bare byte := request.bare _ (by simp)

theorem bare_remoteAddr : ∀ byte ∈ request.remoteAddr, Bare byte := request.bare _ (by simp)

theorem bare_worker : ∀ byte ∈ request.worker, Bare byte := request.bare _ (by simp)

theorem bare_body : ∀ byte ∈ request.body, Bare byte := request.bare _ (by simp)

end Bare

/-! ### The header of a plain request -/

theorem dumps_header :
    dumps (.object (headerMembers request.env request.client (.string (ofAscii request.url))
      (ofAscii request.worker) uuid)) = request.row uuid := by
  have members : headerMembers request.env request.client (.string (ofAscii request.url))
      (ofAscii request.worker) uuid =
      [(lit "method", .string (ofAscii request.method)), (lit "url", .string (ofAscii request.url)),
        (lit "path", .string (ofAscii request.path)), (lit "headers", .object []),
        (lit "query_string", .string (ofAscii request.queryString)),
        (lit "remote_addr", .string (ofAscii request.remoteAddr)), (lit "status_code", zero),
        (lit "req_id_str", .string (ofAscii uuid.text)),
        (lit "source_worker", .string (ofAscii [])),
        (lit "dest_worker", .string (ofAscii request.worker))] := by
    unfold headerMembers clientFields headerFields routingFields
    rw [request.method_eq, request.path_eq, request.queryString_eq, request.headers_eq,
      request.remoteAddr_eq]
    rfl
  have headers : Prints (lit "headers", .object []) ⟨ascii "headers", [123, 125]⟩ :=
    ⟨by decide, by rw [dumps]; decide⟩
  have status : Prints (lit "status_code", zero) ⟨ascii "status_code", ascii "0"⟩ :=
    ⟨by decide, by unfold zero; rw [dumps]⟩
  rw [members]
  apply dumps_row
  · exact prints_string (by decide) bare_method
  · exact .cons (prints_string (by decide) bare_url) <|
      .cons (prints_string (by decide) bare_path) <|
      .cons headers <|
      .cons (prints_string (by decide) bare_queryString) <|
      .cons (prints_string (by decide) bare_remoteAddr) <|
      .cons status <|
      .cons (prints_string (by decide) (bare_uuid uuid)) <|
      .cons (prints_string (by decide) (List.forall_mem_nil _)) <|
      .cons (prints_string (by decide) bare_worker) .nil

theorem combined_eq :
    combined request.env request.client (.string (ofAscii request.url)) (ofAscii request.worker)
      uuid = request.text uuid := by
  have separator : ascii ", \"body\": " = [44, 32] ++ (keyPattern (ascii "body") ++ [32]) := by
    decide
  have closing : ascii "\x7d" = [125] := by decide
  rw [Daemon.combined_eq]
  unfold headerAndBody text behind
  rw [request.dumps_header uuid, request.body_eq, dumps, separator, closing]
  unfold quoted
  rw [escape_of_bare bare_body]
  simp

theorem fields_plain : ∀ field ∈ request.methodField ::
    (request.target ++ ⟨ascii "headers", [123, 125]⟩ :: request.routing uuid), field.Plain := by
  have quotes : ∀ {key text : Bytes}, (∀ byte ∈ text, Bare byte) → 34 ∉ key →
      Field.Plain ⟨key, inQuotes text⟩ :=
    fun bare noQuote => ⟨noQuote, Or.inr ⟨_, rfl, quote_notMem_of_bare bare⟩⟩
  unfold methodField target routing
  simp only [List.forall_mem_cons, List.forall_mem_append]
  exact ⟨quotes bare_method (by decide),
    ⟨quotes bare_url (by decide), quotes bare_path (by decide), List.forall_mem_nil _⟩,
    ⟨by decide, Or.inl (by decide)⟩, quotes bare_queryString (by decide),
    quotes bare_remoteAddr (by decide), ⟨by decide, Or.inl (by decide)⟩,
    quotes (bare_uuid uuid) (by decide), quotes (List.forall_mem_nil _) (by decide),
    quotes bare_worker (by decide), List.forall_mem_nil _⟩

theorem fields_unbraced : ∀ field ∈ (request.methodField :: request.target) ++ request.routing uuid,
    Unbraced field := by
  unfold methodField target routing
  simp only [List.forall_mem_cons, List.forall_mem_append]
  exact ⟨⟨unbraced_inQuotes (forall_mem_of_all (by decide)) bare_method,
      unbraced_inQuotes (forall_mem_of_all (by decide)) bare_url,
      unbraced_inQuotes (forall_mem_of_all (by decide)) bare_path, List.forall_mem_nil _⟩,
    unbraced_inQuotes (forall_mem_of_all (by decide)) bare_queryString,
    unbraced_inQuotes (forall_mem_of_all (by decide)) bare_remoteAddr,
    ⟨by decide, by decide⟩, unbraced_inQuotes (forall_mem_of_all (by decide)) (bare_uuid uuid),
    unbraced_inQuotes (forall_mem_of_all (by decide)) (List.forall_mem_nil _),
    unbraced_inQuotes (forall_mem_of_all (by decide)) bare_worker, List.forall_mem_nil _⟩

theorem length_row : (request.row uuid).length ≤ headerBufSize - 1 := by
  have method := request.method_fits
  have path := request.path_fits
  have query := request.queryString_fits
  have others := request.header_fits
  have uuidLength : uuid.text.length = 36 := uuid.length
  have keys : (ascii "method").length ≤ 16 ∧ (ascii "url").length ≤ 16 ∧
      (ascii "path").length ≤ 16 ∧ (ascii "headers").length ≤ 16 ∧
      (ascii "query_string").length ≤ 16 ∧ (ascii "remote_addr").length ≤ 16 ∧
      (ascii "status_code").length ≤ 16 ∧ (ascii "0").length ≤ 16 ∧
      (ascii "req_id_str").length ≤ 16 ∧ (ascii "source_worker").length ≤ 16 ∧
      (ascii "dest_worker").length ≤ 16 := by
    decide
  unfold row rowText frontText tailText methodField target routing headerBufSize
  simp only [Field.text, inQuotes, List.flatMap_cons, List.flatMap_nil, List.flatMap_append,
    List.length_append, List.length_cons, List.length_nil, uuidLength]
  omega

/-- The header text that the worker scans is the header. -/
theorem take_headerCut (after : Bytes) :
    (request.row uuid ++ after).take (headerCut (request.row uuid ++ after)) = request.row uuid := by
  have short := request.length_row uuid
  have split : request.row uuid = rowText (request.methodField :: request.target)
      ⟨ascii "headers", [123, 125]⟩ (request.routing uuid) := rowText_split rfl
  rw [split] at short ⊢
  exact take_headerCut_row (forall_mem_of_all (by decide)) (request.fields_unbraced uuid) short after

/-- What the scanner reads for a field of the header. -/
theorem jsonGetStr_row (front : List Field) {back : List Field} {key value : Bytes}
    (split : request.methodField ::
      (request.target ++ ⟨ascii "headers", [123, 125]⟩ :: request.routing uuid) =
        front ++ ⟨key, inQuotes value⟩ :: back)
    (searched : Searched key) (bare : ∀ byte ∈ value, Bare byte)
    (other : front.all (fun field => decide (key ≠ field.key)) = true) {outsz : Nat}
    (fits : value.length ≤ outsz - 1) :
    jsonGetStr (request.row uuid) key outsz = some value := by
  have plain : ∀ field ∈ front, field.Plain := by
    intro field member
    apply request.fields_plain uuid field
    rw [split]
    exact List.mem_append_left _ member
  unfold row
  rw [rowText_split split, jsonGetStr_rowText searched (quote_notMem_of_bare bare) plain
    (forall_mem_of_all other) outsz, List.take_of_length_le fits]

/-! ### The body of a plain request -/

theorem text_eq :
    request.text uuid = ascii "\x7b\"header\": " ++ request.row uuid ++ [44, 32] ++
      (keyPattern (ascii "body") ++ 32 :: 34 :: (escape (ofAscii request.body) ++ 34 :: [125])) := by
  unfold text behind
  rw [escape_of_bare bare_body]
  simp only [List.append_assoc]

theorem zero_notMem_text : 0 ∉ request.text uuid := by
  rw [← request.combined_eq uuid]
  exact zero_notMem_dumps _

theorem length_text : (request.text uuid).length < slotSize := by
  have row := request.length_row uuid
  have body := request.body_fits
  have room : 8192 ≤ slotSize := by decide
  have opening : (ascii "\x7b\"header\": ").length = 11 := by decide
  have key : (keyPattern (ascii "body")).length = 7 := by decide
  unfold text behind
  unfold headerBufSize at row
  simp only [List.length_append, List.length_cons, List.length_nil, opening, key]
  omega

/-- The last string of an object starts no entry with a key that starts with a
letter. -/
theorem not_startsIn_last {key text after : Bytes} (searched : Searched key)
    (letter : key.head? ≠ some 125) (noQuote : 34 ∉ text) :
    ¬ StartsIn (keyPattern key) (inQuotes text) (125 :: after) := by
  have pattern : keyPattern key = 34 :: (key ++ [34, 58]) := keyPattern_eq searched.short
  obtain ⟨first, rest, shape, -, -⟩ := searched.starts
  unfold inQuotes
  rw [startsIn_cons, startsIn_append, startsIn_cons]
  rintro (opening | inside | closing | none)
  · have whole : 34 :: (text ++ [34]) ++ 125 :: after = 34 :: (text ++ 34 :: 125 :: after) := by simp
    rw [whole] at opening
    exact not_pattern_opening searched noQuote (Or.inr (by simp)) opening
  · rw [pattern] at inside
    exact not_startsIn_of_head _ noQuote inside
  · rw [pattern, shape] at closing
    have inner := (List.cons_prefix_cons.mp closing).2
    have same : first = 125 := (List.cons_prefix_cons.mp inner).1
    exact letter (by rw [shape, same]; rfl)
  · exact not_startsIn_nil _ _ none

/-- No entry of the header reads as the body. -/
theorem body_alone : ¬ keyPattern (ascii "body") <:+:
    ascii "\x7b\"header\": " ++ request.row uuid ++ [44, 32] := by
  have searched : Searched (ascii "body") :=
    searched_of_letter (by decide) (by decide) (by decide)
  have pattern : keyPattern (ascii "body") = 34 :: ascii "body\":" := by decide
  let front : List Field := (request.methodField ::
    (request.target ++ ⟨ascii "headers", [123, 125]⟩ :: (request.routing uuid).take 5))
  have plain : ∀ field ∈ front, field.Plain := by
    intro field member
    apply request.fields_plain uuid field
    rcases List.mem_cons.mp member with first | later
    · rw [first]
      exact List.mem_cons_self
    · apply List.mem_cons_of_mem
      rcases List.mem_append.mp later with inTarget | behind
      · exact List.mem_append_left _ inTarget
      · rcases List.mem_cons.mp behind with headers | inRouting
        · rw [headers]
          simp
        · exact List.mem_append_right _ (List.mem_cons_of_mem _ (List.mem_of_mem_take inRouting))
  have other : ∀ field ∈ front, ascii "body" ≠ field.key := by
    have decided : front.all (fun field => decide (ascii "body" ≠ field.key)) = true := rfl
    exact forall_mem_of_all decided
  have row : request.row uuid =
      rowText front ⟨ascii "dest_worker", inQuotes request.worker⟩ [] := rowText_split rfl
  have split : ascii "\x7b\"header\": " ++ request.row uuid ++ [44, 32] =
      [123] ++ (34 :: (ascii "header" ++ [34]) ++ ([58, 32, 123] ++ (frontText front ++
        (34 :: (ascii "dest_worker" ++ [34]) ++ ([58, 32] ++
          (inQuotes request.worker ++ [125, 44, 32])))))) := by
    have opening : ascii "\x7b\"header\": " = 123 :: 34 :: (ascii "header" ++ [34, 58, 32]) := by
      decide
    rw [row, opening]
    unfold rowText tailText Field.text
    simp
  intro inside
  have starts := startsIn_of_infix [] (keyPattern_ne_nil _) inside
  rw [split] at starts
  simp only [startsIn_append] at starts
  rcases starts with brace | header | colon | fields | key | blank | last | closing
  · rw [pattern] at brace
    exact not_startsIn_of_head _ (by decide) brace
  · exact not_startsIn_quoted searched (by decide) (Or.inl rfl) (Or.inl (by decide)) header
  · rw [pattern] at colon
    exact not_startsIn_of_head _ (by decide) colon
  · exact not_startsIn_frontText searched plain other _ fields
  · exact not_startsIn_quoted searched (by decide) (Or.inl rfl) (Or.inl (by decide)) key
  · rw [pattern] at blank
    exact not_startsIn_of_head _ (by decide) blank
  · exact not_startsIn_last searched (by decide) (quote_notMem_of_bare bare_worker) last
  · rw [pattern] at closing
    exact not_startsIn_of_head _ (by decide) closing

theorem cstr_case2Body : cstr (case2Body (request.text uuid) slotSize) = request.body := by
  have clean := request.zero_notMem_text uuid
  have fits := request.length_text uuid
  let body : Encoded := ⟨ofAscii request.body, request.body, encode_of_bare bare_body⟩
  rw [request.text_eq uuid] at clean fits ⊢
  apply (@case2Body_iff _ body clean _ fits).mpr
  unfold BodyIntact
  rw [if_neg (request.body_alone uuid)]
  intro point member
  obtain ⟨byte, inBody, rfl⟩ := List.mem_map.mp member
  obtain ⟨low, high, quote, backslash, -, -⟩ := bare_body byte inBody
  refine Or.inl ⟨UInt8.le_iff_toNat_le.mp low, UInt8.le_iff_toNat_le.mp high, ?_, ?_⟩
  · exact fun same => quote (UInt8.toNat_inj.mp same)
  · exact fun same => backslash (UInt8.toNat_inj.mp same)

/-! ### At the bridge and at the worker -/

/-- The bridge sends a plain request to the selected worker. -/
theorem handleBridgeClient_eq {slot : Int} (allocated : 0 ≤ slot) :
    handleBridgeClient request.env request.client uuid slot =
      .sent (bridgeDesc slot (request.text uuid).length request.podId) (request.text uuid) := by
  have encoded : encodes (.string (ofAscii request.body)) = true := by
    show (encode (ofAscii request.body)).isSome = true
    rw [encode_of_bare bare_body]
    rfl
  have fits := request.length_text uuid
  unfold handleBridgeClient
  rw [request.url_eq]
  dsimp only
  rw [request.selected]
  dsimp only
  rw [request.body_eq, encoded, if_neg (by decide), if_neg (by omega), request.combined_eq uuid,
    if_neg (by omega)]

/-- A plain request as the bridge sends it with one of its slots. -/
def toIngress (slot : Fin numSlots) : IngressRequest where
  env := request.env
  client := request.client
  uuid := uuid
  slot := slot.val
  desc := bridgeDesc slot.val (request.text uuid).length request.podId
  combined := request.text uuid
  method := ⟨⟨ofAscii request.method, request.method, encode_of_bare bare_method⟩,
    request.method_fits⟩
  path := ⟨⟨ofAscii request.path, request.path, encode_of_bare bare_path⟩, request.path_fits⟩
  queryString := ⟨⟨ofAscii request.queryString, request.queryString, encode_of_bare bare_queryString⟩,
    request.queryString_fits⟩
  body := ⟨ofAscii request.body, request.body, encode_of_bare bare_body⟩
  method_eq := request.method_eq
  path_eq := request.path_eq
  queryString_eq := request.queryString_eq
  body_eq := request.body_eq
  sent := request.handleBridgeClient_eq uuid (Int.natCast_nonneg _)
  short := request.length_text uuid

theorem headerAndBody_toIngress (slot : Fin numSlots) :
    (request.toIngress uuid slot).headerAndBody = request.row uuid ++ request.behind := by
  have split := (request.toIngress uuid slot).combined_split
  exact (List.append_cancel_left split).symm

/-- The header text that the worker scans is the header. -/
theorem scanned_toIngress (slot : Fin numSlots) :
    (request.toIngress uuid slot).scanned = request.row uuid := by
  have whole := request.headerAndBody_toIngress uuid slot
  have cut := request.take_headerCut uuid request.behind
  rw [← whole] at cut
  exact cut

/-- The strings of a plain request come to the worker unharmed. -/
theorem intact (slot : Fin numSlots) : Intact (request.toIngress uuid slot) := by
  have scanned := request.scanned_toIngress uuid slot
  constructor
  · apply IngressRequest.method_iff _ |>.mp
    rw [scanned]
    exact request.jsonGetStr_row uuid [] rfl (searched_of_letter (by decide) (by decide) (by decide))
      bare_method rfl request.method_fits
  · apply IngressRequest.path_iff _ |>.mp
    rw [scanned]
    exact request.jsonGetStr_row uuid [⟨ascii "method", _⟩, ⟨ascii "url", _⟩] rfl
      (searched_of_letter (by decide) (by decide) (by decide)) bare_path rfl request.path_fits
  · apply IngressRequest.queryString_iff _ |>.mp
    rw [scanned]
    exact request.jsonGetStr_row uuid [⟨ascii "method", _⟩, ⟨ascii "url", _⟩, ⟨ascii "path", _⟩,
      ⟨ascii "headers", _⟩] rfl (searched_of_letter (by decide) (by decide) (by decide))
      bare_queryString rfl request.queryString_fits
  · exact (IngressRequest.body_iff _).mp (request.cstr_case2Body uuid)

/-- The worker reads the uuid and the empty source worker of a plain request. -/
theorem readsTrusted : ReadsTrusted
    (clientText request.env request.client (.string (ofAscii request.url))) uuid.text
    (trustedTail request.client (ofAscii request.worker)) := by
  have whole := headerAndBody_eq request.env request.client (.string (ofAscii request.url))
    (ofAscii request.worker) uuid
  have scanned : scannedText
      (clientText request.env request.client (.string (ofAscii request.url))) uuid.text
      (trustedTail request.client (ofAscii request.worker)) = request.row uuid := by
    have text : headerAndBody request.env request.client (.string (ofAscii request.url))
        (ofAscii request.worker) uuid = request.row uuid ++ request.behind := by
      have split := request.combined_eq uuid
      rw [Daemon.combined_eq] at split
      exact List.append_cancel_left split
    have cut := request.take_headerCut uuid request.behind
    unfold scannedText
    rw [← whole, text]
    exact cut
  have length : uuid.text.length = 36 := uuid.length
  have reqIdStr := request.jsonGetStr_row uuid [⟨ascii "method", _⟩, ⟨ascii "url", _⟩,
    ⟨ascii "path", _⟩, ⟨ascii "headers", _⟩, ⟨ascii "query_string", _⟩, ⟨ascii "remote_addr", _⟩,
    ⟨ascii "status_code", _⟩] rfl (searched_of_letter (by decide) (by decide) (by decide))
    (bare_uuid uuid) rfl (show uuid.text.length ≤ 64 - 1 by omega)
  have sourceWorker := request.jsonGetStr_row uuid [⟨ascii "method", _⟩, ⟨ascii "url", _⟩,
    ⟨ascii "path", _⟩, ⟨ascii "headers", _⟩, ⟨ascii "query_string", _⟩, ⟨ascii "remote_addr", _⟩,
    ⟨ascii "status_code", _⟩, ⟨ascii "req_id_str", _⟩] rfl
    (searched_of_letter (by decide) (by decide) (by decide)) (List.forall_mem_nil _) rfl
    (show ([] : Bytes).length ≤ 128 - 1 by decide)
  unfold ReadsTrusted
  rw [scanned, reqIdStr, sourceWorker]
  exact ⟨rfl, rfl⟩

/-- The client's text of a plain request shields the routing fields. -/
theorem routingShielded : RoutingShielded request.env request.client := by
  intro _ _ _ _ _ url target
  obtain rfl : .string (ofAscii request.url) = url :=
    Option.some.inj (request.url_eq.symm.trans target)
  exact shielded_of_readsTrusted rfl firstUuid secondUuid _ (by decide) request.readsTrusted

end PlainRequest

end MiniMs.Daemon
