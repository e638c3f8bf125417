import MiniMs.Service.Lookup
import MiniMs.Tcp.Conn

/-!
The lookup over TCP: a request, two exchanges and a reply, all of them bytes.

Owns: an exchange with a leaf service as the bytes that go each way, the bytes
that a client gets for the bytes that it sent, and the theorem that they are
the join of the two stores.

Every exchange completes here. What the events of a connection are, and how
the bytes are cut, belongs to other modules.
-/

namespace MiniMs.Tcp

open MiniMs.Dpumesh MiniMs.Http MiniMs.Library.Text MiniMs.Library.Number MiniMs.Service

/-! ### Replies as bytes -/

/-- What is sent for a sound reply is parsed as its status and its body. -/
theorem httpParseResponse_startResponse (conn : Conn) {reply : Reply} (sound : reply.Sound) :
    httpParseResponse (conn.startResponse reply).wbuf =
      .complete ⟨reply.status, reply.body, reply.bodyLen⟩ := by
  have low : -(2 ^ 31) ≤ reply.status := by
    have positive := sound.status_low
    omega
  have length := sound.length_body
  have fits : reply.body.length < bodyBufSize := by
    rw [length]
    exact sound.fits
  have formatted : httpFormatResponse reply.status reply.text reply.bodyLen =
      httpFormatResponse reply.status reply.body reply.body.length := by
    unfold httpFormatResponse
    rw [List.take_length, length]
    rfl
  have small : (httpFormatResponse reply.status reply.body reply.body.length).length ≤ bufSize - 1 := by
    have head := length_responseHead_le low sound.status_high fits
    have copied : (cstr (reply.body.take reply.body.length)).length ≤ reply.body.length := by
      rw [List.take_length]
      exact (List.takeWhile_prefix _).length_le
    unfold bodyBufSize at fits
    unfold httpFormatResponse bufSize
    rw [List.length_append]
    omega
  show httpParseResponse (snprintf bufSize (httpFormatResponse reply.status reply.text reply.bodyLen)) = _
  unfold snprintf
  rw [formatted, List.take_of_length_le small,
    httpFormatResponse_eq low sound.status_high fits sound.clean,
    ResponseText.httpParseResponse_text]
  show Parsed.complete (HttpResponse.mk reply.status reply.body reply.body.length) = _
  rw [length]

/-! ### Exchanges -/

/-- The host of a service, as `getaddrinfo` resolves it. -/
structure Host where
  name : Bytes
  plain : ∀ byte ∈ name, byte ≠ 13 ∧ byte ≠ 10
  fits : name.length ≤ 255

/-- One exchange with a leaf service: the request of `conn_start_upstream`, and
the response to it. -/
def tcpExchange (host : Leaf → Host) (stores : Leaf → KvStore) (leaf : Leaf) (target : Bytes) :
    Option HttpResponse :=
  match httpParseRequest (startUpstream (ascii "GET") target (host leaf).name).wbuf with
  | .complete req =>
      let reply := leaf.service.handleRequest (stores leaf) req
      match httpParseResponse (Conn.startResponse {} reply).wbuf with
      | .complete resp => some resp
      | .more => none
      | .bad => none
  | .more => none
  | .bad => none

/-- The bytes that a client gets for the bytes that it sent. -/
def tcpLookup (host : Leaf → Host) (stores : Leaf → KvStore) (request : Bytes) : Option Bytes :=
  match httpParseRequest request with
  | .complete req =>
      (lookupReply tcpBase (tcpExchange host stores) req).map fun reply =>
        (Conn.startResponse {} reply).wbuf
  | .more => none
  | .bad => none

/-- The request line to a leaf service. -/
def leafLine (leaf : Leaf) (key : Bytes) (plain : ∀ byte ∈ key, byte ≠ 32 ∧ byte ≠ 13 ∧ byte ≠ 0)
    (fits : key.length ≤ 63) : RequestLine where
  method := ascii "GET"
  path := leaf.service.path
  query := leaf.service.key ++ 61 :: key
  method_plain := forall_mem_of_all (by decide)
  method_fits := length_get_le
  path_plain := by
    cases leaf with
    | idService => exact forall_mem_of_all (by decide)
    | attendService => exact forall_mem_of_all (by decide)
  path_nonempty := by
    cases leaf with
    | idService => decide
    | attendService => decide
  path_fits := by
    cases leaf with
    | idService => decide
    | attendService => decide
  query_plain := by
    have name : ∀ byte ∈ leaf.service.key, byte ≠ 32 ∧ byte ≠ 13 ∧ byte ≠ 0 := by
      cases leaf with
      | idService => exact forall_mem_of_all (by decide)
      | attendService => exact forall_mem_of_all (by decide)
    intro byte member
    rw [List.mem_append, List.mem_cons] at member
    rcases member with inName | equals | inKey
    · exact name byte inName
    · rw [equals]
      decide
    · exact plain byte inKey
  query_fits := by
    have name : leaf.service.key.length ≤ 4 := by
      cases leaf with
      | idService => decide
      | attendService => decide
    rw [List.length_append, List.length_cons]
    omega

/-- The lines of an upstream request behind its first. -/
def upstreamLines (host : Host) : List Bytes :=
  [ascii "Host: " ++ host.name, ascii "Connection: close"]

theorem line_upstreamLines (host : Host) : ∀ line ∈ upstreamLines host, Line line := by
  intro line member
  unfold upstreamLines at member
  rw [List.mem_cons, List.mem_singleton] at member
  rcases member with first | second
  · have name : ∀ byte ∈ ascii "Host: ", byte ≠ 13 ∧ byte ≠ 10 := forall_mem_of_all (by decide)
    rw [first]
    constructor
    · exact List.cons_ne_nil _ _
    · intro byte inLine
      rcases List.mem_append.mp inLine with inName | inHost
      · exact name byte inName
      · exact host.plain byte inHost
  · rw [second]
    exact ⟨by decide, forall_mem_of_all (by decide)⟩

/-- A line that starts with another letter than the name is another line. -/
theorem other_of_first {byte : UInt8} {line : Bytes} (first : lower byte ≠ 99)
    (plain : Line (byte :: line)) : Other (byte :: line) :=
  ⟨fun member => (plain.2 10 member).2 rfl, fun _ => startsLength_cons first _⟩

theorem other_upstreamLines (host : Host) : ∀ line ∈ upstreamLines host, Other line := by
  intro line member
  have plain := line_upstreamLines host line member
  unfold upstreamLines at member
  rw [List.mem_cons, List.mem_singleton] at member
  rcases member with first | second
  · rw [first] at plain ⊢
    exact other_of_first (by decide) plain
  · rw [second]
    refine ⟨by decide, fun rest => ?_⟩
    unfold startsLength
    rw [List.take_append_of_le_length (by decide)]
    decide

/-- The bytes of an upstream request are the line and two more. -/
theorem startUpstream_eq {leaf : Leaf} {key : Bytes}
    (plain : ∀ byte ∈ key, byte ≠ 32 ∧ byte ≠ 13 ∧ byte ≠ 0) (fits : key.length ≤ 63) (host : Host) :
    (startUpstream (ascii "GET") (leaf.service.path ++ 63 :: (leaf.service.key ++ 61 :: key))
        host.name).wbuf =
      headerBlock ((leafLine leaf key plain fits).first :: upstreamLines host) := by
  have path : leaf.service.path.length ≤ 7 := by
    cases leaf with
    | idService => decide
    | attendService => decide
  have name : leaf.service.key.length ≤ 4 := by
    cases leaf with
    | idService => decide
    | attendService => decide
  have shape : upstreamRequest (ascii "GET")
      (leaf.service.path ++ 63 :: (leaf.service.key ++ 61 :: key)) host.name =
      headerBlock ((leafLine leaf key plain fits).first :: upstreamLines host) := by
    have blank : ascii " " = [32] := by decide
    have version : ascii " HTTP/1.1\r\n" = 32 :: (ascii "HTTP/1.1" ++ [13, 10]) := by decide
    have crlf : ascii "\r\n" = [13, 10] := by decide
    have close : ascii "Connection: close\r\n" = ascii "Connection: close" ++ [13, 10] := by decide
    unfold upstreamRequest headerBlock linesText upstreamLines RequestLine.first RequestLine.text
      leafLine
    rw [blank, version, crlf, close]
    simp
  have small : (upstreamRequest (ascii "GET")
      (leaf.service.path ++ 63 :: (leaf.service.key ++ 61 :: key)) host.name).length ≤
      bufSize - 1 := by
    have hostFits := host.fits
    have method : (ascii "GET").length = 3 := by decide
    have blank : (ascii " ").length = 1 := by decide
    have version : (ascii " HTTP/1.1\r\n").length = 11 := by decide
    have header : (ascii "Host: ").length = 6 := by decide
    have crlf : (ascii "\r\n").length = 2 := by decide
    have close : (ascii "Connection: close\r\n").length = 19 := by decide
    unfold upstreamRequest bufSize
    simp only [List.length_append, List.length_cons, method, blank, version, header, crlf, close]
    omega
  show snprintf bufSize (upstreamRequest _ _ _) = _
  unfold snprintf
  rw [List.take_of_length_le small, shape]

/-- A leaf service parses the request that it was meant to get. -/
theorem httpParseRequest_startUpstream {leaf : Leaf} {key : Bytes}
    (plain : ∀ byte ∈ key, byte ≠ 32 ∧ byte ≠ 13 ∧ byte ≠ 0) (newline : 10 ∉ key)
    (fits : key.length ≤ 63) (host : Host) :
    httpParseRequest (startUpstream (ascii "GET")
        (leaf.service.path ++ 63 :: (leaf.service.key ++ 61 :: key)) host.name).wbuf =
      .complete (leafRequest leaf key) := by
  have first : Line (leafLine leaf key plain fits).first := by
    apply RequestLine.line_first
    · show ∀ byte ∈ ascii "GET", byte ≠ 13 ∧ byte ≠ 10
      exact forall_mem_of_all (by decide)
    · show 10 ∉ leaf.service.path
      cases leaf with
      | idService => decide
      | attendService => decide
    · have name : 10 ∉ leaf.service.key := by
        cases leaf with
        | idService => decide
        | attendService => decide
      unfold leafLine
      rw [List.mem_append, List.mem_cons, not_or, not_or]
      exact ⟨name, by decide, newline⟩
  have plainLines : ∀ line ∈ (leafLine leaf key plain fits).first :: upstreamLines host,
      Line line := by
    intro line member
    rcases List.mem_cons.mp member with isFirst | later
    · rw [isFirst]
      exact first
    · exact line_upstreamLines host line later
  have others : ∀ line ∈ (leafLine leaf key plain fits).first :: upstreamLines host,
      Other line := by
    intro line member
    rcases List.mem_cons.mp member with isFirst | later
    · rw [isFirst]
      exact other_of_first (by decide) first
    · exact other_upstreamLines host line later
  have empty := parseContentLength_none others []
  rw [List.append_nil] at empty
  rw [startUpstream_eq plain fits host, RequestLine.httpParseRequest_block _ plainLines empty]
  rfl

/-- An exchange with a leaf service brings what the service replies to the key. -/
theorem tcpExchange_eq (host : Leaf → Host) (stores : Leaf → KvStore) {leaf : Leaf} {key : Bytes}
    (plain : ∀ byte ∈ key, byte ≠ 0 ∧ byte ≠ 32 ∧ byte ≠ 13 ∧ byte ≠ 10 ∧ byte ≠ 38)
    (fits : key.length < leaf.service.outsz) (small : key.length ≤ 63) :
    tcpExchange host stores leaf (leaf.service.path ++ 63 :: (leaf.service.key ++ 61 :: key)) =
      some (leafResponse leaf (stores leaf) key) := by
  have clean : ∀ byte ∈ key, byte ≠ 32 ∧ byte ≠ 13 ∧ byte ≠ 0 := by
    intro byte member
    obtain ⟨nul, space, carriage, -, -⟩ := plain byte member
    exact ⟨space, carriage, nul⟩
  have newline : 10 ∉ key := fun member => (plain 10 member).2.2.2.1 rfl
  have ampersand : 38 ∉ key := fun member => (plain 38 member).2.2.2.2 rfl
  have reply := handleRequest_leafRequest ampersand fits (stores leaf)
  have sound := sound_leaf leaf (stores leaf) (leafRequest leaf key)
  unfold tcpExchange
  rw [httpParseRequest_startUpstream clean newline small (host leaf)]
  dsimp only
  rw [httpParseResponse_startResponse {} sound, reply]
  rfl

/-! ### The lookup -/

theorem idTarget_of_fits {name : Bytes} (fits : name.length ≤ 63) :
    idTarget (tcpBase .idService) name =
      Leaf.idService.service.path ++ 63 :: (Leaf.idService.service.key ++ 61 :: name) := by
  have shape : tcpBase .idService ++ ascii "/id?name=" ++ name =
      Leaf.idService.service.path ++ 63 :: (Leaf.idService.service.key ++ 61 :: name) := by
    have front : ascii "/id?name=" = ascii "/id" ++ 63 :: (ascii "name" ++ [61]) := by decide
    show ascii "/id?name=" ++ name = ascii "/id" ++ 63 :: (ascii "name" ++ 61 :: name)
    rw [front]
    simp
  have front : (ascii "/id?name=").length = 9 := by decide
  unfold idTarget snprintf
  rw [List.take_of_length_le, shape]
  simp only [tcpBase, List.nil_append, List.length_append, front]
  omega

theorem attendTarget_tcpBase {id : Int} (low : -(2 ^ 31) ≤ id) (high : id < 2 ^ 31) :
    attendTarget (tcpBase .attendService) id =
      Leaf.attendService.service.path ++
        63 :: (Leaf.attendService.service.key ++ 61 :: decimalInt id) := by
  have shape : tcpBase .attendService ++ ascii "/attend?id=" ++ decimalInt id =
      Leaf.attendService.service.path ++
        63 :: (Leaf.attendService.service.key ++ 61 :: decimalInt id) := by
    have front : ascii "/attend?id=" = ascii "/attend" ++ 63 :: (ascii "id" ++ [61]) := by decide
    show ascii "/attend?id=" ++ decimalInt id =
      ascii "/attend" ++ 63 :: (ascii "id" ++ 61 :: decimalInt id)
    rw [front]
    simp
  have front : (ascii "/attend?id=").length = 11 := by decide
  have fits := length_decimalInt_le low high
  unfold attendTarget snprintf
  rw [List.take_of_length_le, shape]
  simp only [tcpBase, List.nil_append, List.length_append, front]
  omega

theorem plain_decimalInt (value : Int) : ∀ byte ∈ decimalInt value,
    byte ≠ 0 ∧ byte ≠ 32 ∧ byte ≠ 13 ∧ byte ≠ 10 ∧ byte ≠ 38 := by
  intro byte member
  rcases mem_decimalInt member with minus | digit
  · rw [minus]
    decide
  · exact ⟨isDigit_ne digit (by decide), isDigit_ne digit (by decide), isDigit_ne digit (by decide),
      isDigit_ne digit (by decide), isDigit_ne digit (by decide)⟩

/-- The request line of a lookup. -/
def lookupLine (lookup : LookupName) : RequestLine where
  method := ascii "GET"
  path := ascii "/lookup"
  query := ascii "name" ++ 61 :: lookup.name
  method_plain := forall_mem_of_all (by decide)
  method_fits := length_get_le
  path_plain := forall_mem_of_all (by decide)
  path_nonempty := by decide
  path_fits := by decide
  query_plain := by
    have name : ∀ byte ∈ ascii "name", byte ≠ 32 ∧ byte ≠ 13 ∧ byte ≠ 0 :=
      forall_mem_of_all (by decide)
    intro byte member
    rw [List.mem_append, List.mem_cons] at member
    rcases member with inName | equals | inKey
    · exact name byte inName
    · rw [equals]
      decide
    · obtain ⟨nul, space, carriage, -, -⟩ := lookup.plain byte inKey
      exact ⟨space, carriage, nul⟩
  query_fits := by
    have fits := lookup.fits
    have name : (ascii "name").length = 4 := by decide
    rw [List.length_append, List.length_cons, name]
    omega

/-- `GET /lookup?name=<name> HTTP/1.1`, and whatever a client sends behind it. -/
def lookupRequest (name rest : Bytes) : Bytes :=
  ascii "GET /lookup?name=" ++ name ++ ascii " HTTP/1.1\r\n" ++ rest

theorem lookupRequest_eq (lookup : LookupName) (rest : Bytes) :
    lookupRequest lookup.name rest = (lookupLine lookup).text (ascii "HTTP/1.1\r\n" ++ rest) := by
  have front : ascii "GET /lookup?name=" =
      ascii "GET" ++ 32 :: (ascii "/lookup" ++ 63 :: (ascii "name" ++ [61])) := by decide
  have version : ascii " HTTP/1.1\r\n" = 32 :: ascii "HTTP/1.1\r\n" := by decide
  unfold lookupRequest RequestLine.text lookupLine
  rw [front, version]
  simp

/-- A lookup over TCP answers with the join of the two stores. -/
theorem tcpLookup_joins (host : Leaf → Host) (stores : Leaf → KvStore) (lookup : LookupName)
    {rest : Bytes} {req : HttpRequest}
    (complete : httpParseRequest (lookupRequest lookup.name rest) = .complete req) :
    ∃ reply, tcpLookup host stores (lookupRequest lookup.name rest) = some reply ∧
      httpParseResponse reply = .complete
        ⟨(joined stores lookup.name).1, (joined stores lookup.name).2,
          (joined stores lookup.name).2.length⟩ := by
  have line := complete
  rw [lookupRequest_eq] at line
  obtain ⟨method, path, query⟩ := (lookupLine lookup).httpParseRequest_fields line
  have idSide : tcpExchange host stores .idService (idTarget (tcpBase .idService) lookup.name) =
      some (leafResponse .idService (stores .idService) lookup.name) := by
    rw [idTarget_of_fits lookup.fits]
    exact tcpExchange_eq host stores lookup.plain (Nat.lt_succ_of_le lookup.fits) lookup.fits
  have attendSide : ∀ id, kvStoreGet (stores .idService) lookup.name = some id →
      tcpExchange host stores .attendService (attendTarget (tcpBase .attendService) id) =
        some (leafResponse .attendService (stores .attendService) (decimalInt id)) := by
    intro id found
    obtain ⟨low, high⟩ := kvStoreGet_range found
    have fits := length_decimalInt_le low high
    rw [attendTarget_tcpBase low high]
    apply tcpExchange_eq host stores (plain_decimalInt id)
    · show (decimalInt id).length < 32
      omega
    · omega
  obtain ⟨reply, replied, same, sound⟩ :=
    lookupReply_joined method path query idSide attendSide
  refine ⟨(Conn.startResponse {} reply).wbuf, ?_, ?_⟩
  · unfold tcpLookup
    rw [complete]
    dsimp only
    rw [replied]
    rfl
  · rw [httpParseResponse_startResponse {} sound, ← sound.length_body, ← same]

/-- One name with an id, and the attendance of that id. -/
def knownStores : Leaf → KvStore
  | .idService => [⟨ascii "bob", 7, by decide, by decide, by decide, by decide⟩]
  | .attendService => [⟨ascii "7", 1, by decide, by decide, by decide, by decide⟩]

theorem tcpLookup_joins_known :
    ∃ reply, tcpLookup (fun _ => ⟨ascii "127.0.0.1", forall_mem_of_all (by decide), by decide⟩)
        knownStores (lookupRequest (ascii "bob") (ascii "\r\n")) = some reply ∧
      httpParseResponse reply = .complete
        ⟨(joined knownStores (ascii "bob")).1, (joined knownStores (ascii "bob")).2,
          (joined knownStores (ascii "bob")).2.length⟩ ∧
      joined knownStores (ascii "bob") = (200, ascii "\x7b\"name\":\"bob\",\"id\":7,\"attended\":true\x7d") := by
  have parsed : httpParseRequest (lookupRequest (ascii "bob") (ascii "\r\n")) =
      .complete ⟨ascii "GET", ascii "/lookup", ascii "name=bob", [], 0⟩ := by decide +kernel
  have joins := tcpLookup_joins
    (fun _ => ⟨ascii "127.0.0.1", forall_mem_of_all (by decide), by decide⟩) knownStores
    ⟨ascii "bob", by decide, forall_mem_of_all (by decide)⟩ parsed
  obtain ⟨reply, replied, complete⟩ := joins
  exact ⟨reply, replied, complete, by decide⟩

end MiniMs.Tcp
