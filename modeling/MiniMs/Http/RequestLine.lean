import MiniMs.Http.Framing

/-!
Formatted requests read back: the request line of a method, a path and a
query, whatever stands behind it.

Owns: what the three loops of `http_parse_request` take from such a line, the
request that comes out when there is no body, and the requests whose header
block is given line by line.
-/

namespace MiniMs.Http

open MiniMs.Dpumesh MiniMs.Library.Text MiniMs.Library.Number

/-! ### One loop -/

/-- A loop that meets its stop character within the limit takes what stands
before it. -/
theorem token_stop {limit : Nat} {stop : UInt8 → Bool} {text : Bytes} {byte : UInt8}
    (plain : ∀ other ∈ text, stop other = false) (short : text.length ≤ limit)
    (stops : stop byte = true) (rest : Bytes) : token limit stop (text ++ byte :: rest) = text := by
  have pass : ∀ other ∈ text, (!stop other) = true := by
    intro other member
    rw [plain other member]
    rfl
  unfold token
  rw [List.take_append, List.take_of_length_le short]
  cases remaining : limit - text.length with
  | zero =>
      rw [List.take_zero, List.append_nil, List.takeWhile_eq_self_iff]
      exact pass
  | succ count =>
      rw [List.take_succ_cons, List.takeWhile_append_of_pos pass, List.takeWhile_cons_of_neg,
        List.append_nil]
      rw [stops]
      decide

/-! ### The request line -/

theorem length_get_le : (ascii "GET").length ≤ 7 := by decide

/-- A method, a path and a query that the request line carries unchanged. -/
structure RequestLine where
  method : Bytes
  path : Bytes
  query : Bytes
  method_plain : ∀ byte ∈ method, byte ≠ 32 ∧ byte ≠ 0
  method_fits : method.length ≤ 7
  path_plain : ∀ byte ∈ path, byte ≠ 32 ∧ byte ≠ 63 ∧ byte ≠ 13 ∧ byte ≠ 0
  path_nonempty : path ≠ []
  path_fits : path.length ≤ 255
  query_plain : ∀ byte ∈ query, byte ≠ 32 ∧ byte ≠ 13 ∧ byte ≠ 0
  query_fits : query.length ≤ 511

namespace RequestLine

variable (line : RequestLine)

/-- The line up to the space behind the query, and some text. -/
def text (rest : Bytes) : Bytes :=
  line.method ++ 32 :: (line.path ++ 63 :: (line.query ++ 32 :: rest))

/-- The request without a body. -/
def request : HttpRequest := ⟨line.method, line.path, line.query, [], 0⟩

theorem memory_text (rest : Bytes) :
    memory (line.text rest) = line.text (rest ++ List.replicate 1024 0) := by
  unfold memory text
  simp only [List.append_assoc, List.cons_append]

theorem token_method (rest : Bytes) : token 7 methodStop (line.text rest) = line.method := by
  apply token_stop _ line.method_fits rfl
  intro byte member
  exact decide_eq_false (line.method_plain byte member).1

theorem afterMethod_text (rest : Bytes) :
    afterMethod (line.text rest) = line.path ++ 63 :: (line.query ++ 32 :: rest) := by
  obtain ⟨byte, others, shape⟩ := List.exists_cons_of_ne_nil line.path_nonempty
  have solid : byte ≠ 32 := (line.path_plain byte (by rw [shape]; exact List.mem_cons_self)).1
  unfold afterMethod
  rw [line.token_method, text, List.drop_left, List.dropWhile_cons_of_pos (by decide), shape,
    List.cons_append, List.dropWhile_cons_of_neg (by simpa using solid)]

theorem token_path (rest : Bytes) :
    token 255 pathStop (afterMethod (line.text rest)) = line.path := by
  rw [line.afterMethod_text]
  apply token_stop _ line.path_fits (by decide)
  intro byte member
  obtain ⟨space, mark, carriage, -⟩ := line.path_plain byte member
  exact decide_eq_false (by simp [space, mark, carriage])

theorem queryOf_text (rest : Bytes) : queryOf (afterPath (line.text rest)) = line.query := by
  have behind : afterPath (line.text rest) = 63 :: (line.query ++ 32 :: rest) := by
    unfold afterPath
    rw [line.token_path, line.afterMethod_text, List.drop_left]
  rw [behind]
  apply token_stop _ line.query_fits (by decide)
  intro byte member
  obtain ⟨space, carriage, -⟩ := line.query_plain byte member
  exact decide_eq_false (by simp [space, carriage])

/-- What is complete has the method, the path and the query of the line. -/
theorem httpParseRequest_fields {rest : Bytes} {req : HttpRequest}
    (complete : httpParseRequest (line.text rest) = .complete req) :
    req.method = line.method ∧ req.path = line.path ∧ req.query = line.query := by
  have method : cstr line.method = line.method :=
    cstr_eq_self fun member => (line.method_plain 0 member).2 rfl
  have path : cstr line.path = line.path :=
    cstr_eq_self fun member => (line.path_plain 0 member).2.2.2 rfl
  have query : cstr line.query = line.query :=
    cstr_eq_self fun member => (line.query_plain 0 member).2.2 rfl
  obtain ⟨hlen, -, -, same⟩ := httpParseRequest_inversion complete
  rw [same, line.memory_text, line.token_method, line.token_path, line.queryOf_text]
  exact ⟨method, path, query⟩

/-- A header block without a length makes a request without a body. -/
theorem httpParseRequest_text {rest : Bytes} {hlen : Nat}
    (found : findHeaderEnd (line.text rest) = some hlen)
    (empty : parseContentLength (line.text rest) hlen = 0) :
    httpParseRequest (line.text rest) = .complete line.request := by
  have complete : ∃ req, httpParseRequest (line.text rest) = .complete req ∧
      req.body = [] ∧ req.contentLength = 0 := by
    unfold httpParseRequest
    rw [found]
    dsimp only
    rw [empty, if_neg (by simp)]
    exact ⟨_, rfl, rfl, rfl⟩
  obtain ⟨req, parsed, noBody, noLength⟩ := complete
  obtain ⟨method, path, query⟩ := line.httpParseRequest_fields parsed
  rw [parsed]
  congr 1
  obtain ⟨_, _, _, _, _⟩ := req
  dsimp only at method path query noBody noLength
  rw [method, path, query, noBody, noLength]
  rfl

/-! ### Requests given line by line -/

/-- `<method> <path>?<query> HTTP/1.1`. -/
def first : Bytes := line.text (ascii "HTTP/1.1")

/-- The line holds no line end when its parts hold none. -/
theorem line_first (method : ∀ byte ∈ line.method, byte ≠ 13 ∧ byte ≠ 10)
    (path : 10 ∉ line.path) (query : 10 ∉ line.query) : Line line.first := by
  have version : ∀ byte ∈ ascii "HTTP/1.1", byte ≠ 13 ∧ byte ≠ 10 :=
    forall_mem_of_all (by decide)
  constructor
  · unfold first text
    simp
  · intro byte member
    unfold first text at member
    simp only [List.mem_append, List.mem_cons] at member
    rcases member with inMethod | space | inPath | mark | inQuery | space | inVersion
    · exact method byte inMethod
    · rw [space]
      decide
    · exact ⟨(line.path_plain byte inPath).2.2.1, ne_of_mem_of_not_mem inPath path⟩
    · rw [mark]
      decide
    · exact ⟨(line.query_plain byte inQuery).2.1, ne_of_mem_of_not_mem inQuery query⟩
    · rw [space]
      decide
    · exact version byte inVersion

theorem block_text (lines : List Bytes) :
    headerBlock (line.first :: lines) = line.text (ascii "HTTP/1.1" ++ 13 :: 10 :: headerBlock lines) := by
  unfold headerBlock first text linesText
  simp

/-- A block of lines of which none is a length, or the first such is 0. -/
theorem httpParseRequest_block {lines : List Bytes}
    (plain : ∀ other ∈ line.first :: lines, Line other)
    (empty : parseContentLength (headerBlock (line.first :: lines))
      (headerBlock (line.first :: lines)).length = 0) :
    httpParseRequest (headerBlock (line.first :: lines)) = .complete line.request := by
  have found := findHeaderEnd_block plain []
  rw [List.append_nil] at found
  rw [line.block_text] at found empty ⊢
  exact line.httpParseRequest_text found empty

end RequestLine

end MiniMs.Http
