import MiniMs.Tcp.Lookup

/-!
The name that the TCP frontend copies from one request line into another.

Owns: what the Content-Length scan and the search for the header end make of a
name in the middle of a request, and the exact names with which the request to
the id service is the one that was meant.

A name that `query_get` returns holds no space, no CR, no NUL and no `&`. It
may hold line feeds: the loop over the query does not stop at them.
-/

namespace MiniMs.Tcp

open MiniMs.Dpumesh MiniMs.Http MiniMs.Library.Text MiniMs.Library.Number MiniMs.Service

/-! ### A name in front of a blank and a letter -/

theorem lengthValue_append_word {text : Bytes} (blank : 32 ∉ text) (rest : Bytes) :
    lengthValue (text ++ 32 :: 72 :: rest) = lengthValue text := by
  have letter : isSpace 72 = false ∧ isDigit 72 = false ∧ (72 : UInt8) ≠ 45 ∧ (72 : UInt8) ≠ 43 := by
    decide
  unfold lengthValue
  cases text with
  | nil =>
      rw [List.nil_append, List.dropWhile_cons_of_pos (by decide),
        List.dropWhile_cons_of_neg (by decide), List.dropWhile_nil]
      -- A letter is no number, as a blank and a letter are none.
      have none : strtol (72 :: rest) = strtol [] := by
        rw [← strtol_append_word letter [] rest]
        unfold strtol signedDigits
        rw [List.nil_append, List.dropWhile_cons_of_pos (a := 32) (by decide)]
      rw [none]
  | cons byte text =>
      have solid : byte ≠ 32 := Ne.symm fun same => blank (by rw [same]; exact List.mem_cons_self)
      rw [List.cons_append, List.dropWhile_cons_of_neg (by simpa using solid),
        List.dropWhile_cons_of_neg (by simpa using solid), ← List.cons_append,
        strtol_append_word letter]

/-- Inside a name, the scan sees nothing of what stands behind it. -/
theorem contentLengthFrom_word {name : Bytes} (blank : 32 ∉ name) (rest : Bytes)
    (lineStart : Bool) {count : Nat} (within : count ≤ name.length) :
    contentLengthFrom lineStart count (name ++ 32 :: 72 :: rest) =
      contentLengthFrom lineStart count name := by
  have foreign : lower 32 ∉ ascii "content-length:" := by decide
  induction name generalizing lineStart count with
  | nil =>
      have none : count = 0 := Nat.le_zero.mp within
      rw [none]
      rfl
  | cons byte name inductionHypothesis =>
      cases count with
      | zero => rfl
      | succ count =>
          have same := startsLength_append_stop foreign (byte :: name) (72 :: rest)
          rw [contentLengthFrom.eq_def lineStart, contentLengthFrom.eq_def lineStart (count + 1)
            (byte :: name)]
          dsimp only
          rw [same]
          split
          · rename_i found
            have long : 15 ≤ (byte :: name).length := length_of_startsLength found.2
            have blank' : 32 ∉ (byte :: name).drop 15 := fun member =>
              blank (List.mem_of_mem_drop member)
            rw [List.drop_append_of_le_length long, lengthValue_append_word blank']
          · rw [List.mem_cons, not_or] at blank
            exact inductionHypothesis blank.2 _ (Nat.le_of_succ_le_succ within)

/-- Where nothing behind the name is a length, the scan ends as it does in the
name alone. -/
theorem contentLengthFrom_word_silent {name : Bytes} (blank : 32 ∉ name) {rest : Bytes} {count : Nat}
    (silent : contentLengthFrom true count (32 :: 72 :: rest) = 0) (lineStart : Bool) :
    contentLengthFrom lineStart (name.length + count) (name ++ 32 :: 72 :: rest) =
      contentLengthFrom lineStart name.length name := by
  have foreign : lower 32 ∉ ascii "content-length:" := by decide
  induction name generalizing lineStart with
  | nil =>
      have other : startsLength (32 :: 72 :: rest) = false := startsLength_cons (by decide) _
      rw [List.length_nil, Nat.zero_add, List.nil_append, contentLengthFrom_lineStart other, silent]
      rfl
  | cons byte name inductionHypothesis =>
      have same := startsLength_append_stop foreign (byte :: name) (72 :: rest)
      have size : (byte :: name).length + count = name.length + count + 1 := by
        rw [List.length_cons]
        omega
      rw [size, List.length_cons, contentLengthFrom.eq_def lineStart,
        contentLengthFrom.eq_def lineStart (name.length + 1) (byte :: name)]
      dsimp only
      rw [same]
      split
      · rename_i found
        have long : 15 ≤ (byte :: name).length := length_of_startsLength found.2
        have blank' : 32 ∉ (byte :: name).drop 15 := fun member =>
          blank (List.mem_of_mem_drop member)
        rw [List.drop_append_of_le_length long, lengthValue_append_word blank']
      · rw [List.mem_cons, not_or] at blank
        exact inductionHypothesis blank.2 _

/-- A name without the end of a header block does not make one with a blank. -/
theorem findHeaderEnd_word {name : Bytes} (carriage : 13 ∉ name) (unended : findHeaderEnd name = none)
    (rest : Bytes) :
    findHeaderEnd (name ++ 32 :: rest) = (findHeaderEnd (32 :: rest)).map (· + name.length) := by
  induction name with
  | nil => simp
  | cons byte name inductionHypothesis =>
      rw [List.mem_cons, not_or] at carriage
      have noBlank : ∀ behind : Bytes, (byte :: behind).take 4 ≠ [13, 10, 13, 10] := by
        intro behind
        rw [List.take_succ_cons]
        simp [Ne.symm carriage.1]
      have noDouble : (byte :: (name ++ 32 :: rest)).take 2 ≠ [10, 10] := by
        intro double
        cases name with
        | nil => simp at double
        | cons next name =>
            unfold findHeaderEnd at unended
            rw [if_neg (noBlank _), if_pos (by simpa using double)] at unended
            contradiction
      have later : findHeaderEnd name = none := by
        unfold findHeaderEnd at unended
        rw [if_neg (noBlank _)] at unended
        split at unended
        · contradiction
        · exact Option.map_eq_none_iff.mp unended
      rw [List.cons_append, findHeaderEnd, if_neg (noBlank _), if_neg noDouble,
        inductionHypothesis carriage.2 later, Option.map_map]
      congr 1

/-! ### The request to the id service -/

/-- What stands behind the name: the rest of its line, and two more. -/
def behindName (host : Host) : Bytes :=
  headerBlock ((32 :: ascii "HTTP/1.1") :: upstreamLines host)

/-- What stands in front of the name. -/
def beforeName : Bytes := ascii "GET /id?name="

/-- The length that `parse_content_length` finds in a name. -/
def nameLength (name : Bytes) : Nat :=
  contentLengthFrom false ((findHeaderEnd name).getD name.length) name

theorem forwarded_eq {name : Bytes} (plain : ∀ byte ∈ name, byte ≠ 32 ∧ byte ≠ 13 ∧ byte ≠ 0)
    (fits : name.length ≤ 63) (host : Host) :
    headerBlock ((leafLine .idService name plain fits).first :: upstreamLines host) =
      beforeName ++ (name ++ behindName host) := by
  have front : beforeName = ascii "GET" ++ 32 :: (ascii "/id" ++ 63 :: (ascii "name" ++ [61])) := by
    decide
  have line : (leafLine .idService name plain fits).first =
      ascii "GET" ++ 32 :: (ascii "/id" ++ 63 :: ((ascii "name" ++ 61 :: name) ++
        32 :: ascii "HTTP/1.1")) := rfl
  rw [front, line]
  unfold behindName headerBlock linesText
  simp

/-- The header block of the request ends where the name says, or at its end,
and its length is the one in the name. -/
theorem forwarded_lengths {name : Bytes} (plain : ∀ byte ∈ name, byte ≠ 32 ∧ byte ≠ 13 ∧ byte ≠ 0)
    (host : Host) :
    ∃ hlen, findHeaderEnd (beforeName ++ (name ++ behindName host)) = some hlen ∧
      parseContentLength (beforeName ++ (name ++ behindName host)) hlen = nameLength name := by
  have blank : 32 ∉ name := fun member => (plain 32 member).1 rfl
  have carriage : 13 ∉ name := fun member => (plain 13 member).2.1 rfl
  have frontPlain : ∀ byte ∈ beforeName, byte ≠ 13 ∧ byte ≠ 10 := forall_mem_of_all (by decide)
  have version : Line (32 :: ascii "HTTP/1.1") := ⟨by decide, forall_mem_of_all (by decide)⟩
  have plainLines : ∀ line ∈ (32 :: ascii "HTTP/1.1") :: upstreamLines host, Line line := by
    intro line member
    rcases List.mem_cons.mp member with first | later
    · rw [first]
      exact version
    · exact line_upstreamLines host line later
  have others : ∀ line ∈ (32 :: ascii "HTTP/1.1") :: upstreamLines host, Other line := by
    intro line member
    rcases List.mem_cons.mp member with first | later
    · rw [first]
      exact other_of_first (by decide) version
    · exact other_upstreamLines host line later
  obtain ⟨rest, behind⟩ : ∃ rest, behindName host = 32 :: 72 :: rest := by
    have letters : ascii "HTTP/1.1" = 72 :: ascii "TTP/1.1" := by decide
    unfold behindName headerBlock linesText
    rw [List.flatMap_cons, letters]
    exact ⟨_, rfl⟩
  have passed : ∀ count text, parseContentLength (beforeName ++ text) (beforeName.length + count) =
      contentLengthFrom false count text := by
    intro count text
    have shape : beforeName = 71 :: ascii "ET /id?name=" := by decide
    unfold parseContentLength
    rw [shape]
    exact contentLengthFrom_front (by decide) (by decide) count text
  have located := findHeaderEnd_line frontPlain (name ++ behindName host)
  unfold nameLength
  cases inside : findHeaderEnd name with
  | some hlen =>
      have bounds := findHeaderEnd_bounds inside
      rw [findHeaderEnd_append inside, Option.map_some, Nat.add_comm] at located
      refine ⟨_, located, ?_⟩
      rw [passed, behind]
      exact contentLengthFrom_word blank rest false bounds.2
  | none =>
      have ended : findHeaderEnd (behindName host) = some (behindName host).length := by
        have block := findHeaderEnd_block plainLines []
        rw [List.append_nil] at block
        exact block
      have silent : contentLengthFrom true (behindName host).length (behindName host) = 0 := by
        have empty := parseContentLength_none others []
        rw [List.append_nil] at empty
        exact empty
      rw [behind] at located ended silent
      rw [findHeaderEnd_word carriage inside, ended, Option.map_some, Option.map_some,
        Nat.add_comm, Nat.add_comm (32 :: 72 :: rest).length] at located
      rw [behind]
      refine ⟨_, located, ?_⟩
      rw [passed]
      exact contentLengthFrom_word_silent blank silent false

/-- What `query_get` returns from a complete request. -/
theorem plain_of_queryGet {request name : Bytes} {req : HttpRequest}
    (complete : httpParseRequest request = .complete req)
    (found : queryGet req.query (ascii "name") 64 = some name) :
    (∀ byte ∈ name, byte ≠ 32 ∧ byte ≠ 13 ∧ byte ≠ 0) ∧ 38 ∉ name ∧ name.length ≤ 63 := by
  obtain ⟨ampersand, fits, inside⟩ := queryGetFrom_spec found
  obtain ⟨hlen, -, -, same⟩ := httpParseRequest_inversion complete
  refine ⟨?_, ampersand, fits⟩
  intro byte member
  have inQuery : byte ∈ cstr (queryOf (afterPath (memory request))) := by
    rw [same] at inside
    exact inside byte member
  have nul : byte ≠ 0 := ne_of_mem_of_not_mem inQuery (zero_notMem_cstr _)
  have passed : queryStop byte = false := by
    have taken : byte ∈ queryOf (afterPath (memory request)) := (List.takeWhile_prefix _).subset inQuery
    unfold queryOf at taken
    split at taken
    · simpa using List.mem_takeWhile_imp taken
    · exact absurd taken (by simp)
  unfold queryStop at passed
  rw [decide_eq_false_iff_not, not_or] at passed
  exact ⟨passed.1, passed.2, nul⟩

/-- What is sent to the id service for a request. -/
def forwarded (host : Host) (req : HttpRequest) : Option Bytes :=
  match handleRequest tcpBase true true req with
  | [.send _ target _] => some (Tcp.startUpstream (ascii "GET") target host.name).wbuf
  | _ => none

/-- The request to the id service is the one that was meant exactly when the
name holds no length. -/
theorem forwarded_meant_iff (host : Host) {request name : Bytes} {req : HttpRequest}
    (complete : httpParseRequest request = .complete req) (method : req.method = ascii "GET")
    (path : req.path = ascii "/lookup") (found : queryGet req.query (ascii "name") 64 = some name) :
    (∃ bytes, forwarded host req = some bytes ∧
      httpParseRequest bytes =
        .complete ⟨ascii "GET", ascii "/id", ascii "name" ++ 61 :: name, [], 0⟩) ↔
      nameLength name = 0 := by
  obtain ⟨plain, -, fits⟩ := plain_of_queryGet complete found
  have target : idTarget (tcpBase .idService) name =
      Leaf.idService.service.path ++ 63 :: (Leaf.idService.service.key ++ 61 :: name) :=
    idTarget_of_fits fits
  have sent : forwarded host req = some (beforeName ++ (name ++ behindName host)) := by
    have asks : handleRequest tcpBase true true req =
        [.send .idService (idTarget (tcpBase .idService) name) ⟨.waitingId, name, 0⟩] := by
      unfold handleRequest
      rw [method, path, if_neg (by simp), found]
      rfl
    unfold forwarded
    rw [asks]
    dsimp only
    rw [target, startUpstream_eq plain fits, forwarded_eq]
  have text : beforeName ++ (name ++ behindName host) =
      (leafLine .idService name plain fits).text
        (ascii "HTTP/1.1" ++ 13 :: 10 :: headerBlock (upstreamLines host)) := by
    rw [← forwarded_eq plain fits, RequestLine.block_text]
  obtain ⟨hlen, ended, length⟩ := forwarded_lengths plain host
  rw [sent]
  constructor
  · rintro ⟨bytes, same, parsed⟩
    rw [← Option.some.inj same] at parsed
    obtain ⟨hlen', ended', -, fields⟩ := httpParseRequest_inversion parsed
    rw [ended, Option.some.injEq] at ended'
    have value := congrArg HttpRequest.contentLength fields
    rw [← ended', length] at value
    exact value.symm
  · intro none
    refine ⟨_, rfl, ?_⟩
    rw [none] at length
    rw [text] at ended length ⊢
    exact RequestLine.httpParseRequest_text _ ended length

theorem forwarded_meant_iff_bob :
    nameLength (ascii "bob") = 0 ∧
      ∃ bytes, forwarded ⟨ascii "127.0.0.1", forall_mem_of_all (by decide), by decide⟩
          ⟨ascii "GET", ascii "/lookup", ascii "name=bob", [], 0⟩ = some bytes ∧
        httpParseRequest bytes =
          .complete ⟨ascii "GET", ascii "/id", ascii "name" ++ 61 :: ascii "bob", [], 0⟩ := by
  have parsed : httpParseRequest (lookupRequest (ascii "bob") (ascii "\r\n")) =
      .complete ⟨ascii "GET", ascii "/lookup", ascii "name=bob", [], 0⟩ := by decide +kernel
  have none : nameLength (ascii "bob") = 0 := by decide
  exact ⟨none, (forwarded_meant_iff
    ⟨ascii "127.0.0.1", forall_mem_of_all (by decide), by decide⟩ parsed rfl rfl (by decide)).mpr none⟩

/-- A name with a line feed and a length. -/
def injected : Bytes := ascii "GET /lookup?name=a\nContent-Length:5 HTTP/1.1\r\n\r\nhello"

/-- The frontend accepts it, and the id service is left waiting. -/
theorem not_forwarded_meant :
    httpParseRequest injected =
        .complete ⟨ascii "GET", ascii "/lookup", ascii "name=a\nContent-Length:5", ascii "hello", 5⟩ ∧
      (forwarded ⟨ascii "127.0.0.1", forall_mem_of_all (by decide), by decide⟩
          ⟨ascii "GET", ascii "/lookup", ascii "name=a\nContent-Length:5", ascii "hello", 5⟩).map
        httpParseRequest = some .more := by
  constructor
  · decide +kernel
  · decide +kernel

end MiniMs.Tcp
