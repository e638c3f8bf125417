import MiniMs.Dpumesh.HeaderText
import MiniMs.Library.Number

/-!
The HTTP/1.1 messages of the services: two parsers and a formatter over one
buffer.

Owns: the search for the end of the header block, the Content-Length scan,
`http_parse_request`, `http_parse_response` and `http_format_response`, and
what the two scans do line by line.

The three loops over the request line do not look for the end of the data.
Behind it lie zeros: a buffer comes out of `calloc` and is filled from its
start. Events and connections belong to other modules.
-/

namespace MiniMs.Http

open MiniMs.Dpumesh MiniMs.Library.Text MiniMs.Library.Number

/-! ### The header block -/

/-- `find_header_end`: the length of the header block with its empty line. -/
def findHeaderEnd : Bytes → Option Nat
  | [] => none
  | byte :: rest =>
      if (byte :: rest).take 4 = [13, 10, 13, 10] then some 4
      else if (byte :: rest).take 2 = [10, 10] then some 2
      else (findHeaderEnd rest).map (· + 1)

def lower (byte : UInt8) : UInt8 := if 65 ≤ byte ∧ byte ≤ 90 then byte + 32 else byte

/-- `strncasecmp(text, "Content-Length:", 15) == 0`. -/
def startsLength (text : Bytes) : Bool := (text.take 15).map lower = ascii "content-length:"

/-- A `long` read as `size_t`. -/
def sizeOfLong (value : Int) : Nat := (value % 2 ^ 64).toNat

/-- The value behind the name: spaces are skipped, then `atol`. -/
def lengthValue (text : Bytes) : Nat := sizeOfLong (strtol (text.dropWhile (· = 32)))

/-- The loop of `parse_content_length`: whether a line starts at the cursor,
and how far the end of the header block is. -/
def contentLengthFrom : Bool → Nat → Bytes → Nat
  | _, 0, _ => 0
  | lineStart, remaining + 1, text =>
      if lineStart ∧ startsLength text then lengthValue (text.drop 15)
      else
        match text with
        | [] => 0
        | byte :: rest => contentLengthFrom (byte = 10) remaining rest

/-- `parse_content_length`. The text goes on behind the header block. -/
def parseContentLength (text : Bytes) (hlen : Nat) : Nat := contentLengthFrom true hlen text

/-! ### Messages -/

/-- What a parser returns: 1, -1, or 0 with the message. -/
inductive Parsed (Message : Type) where
  | more
  | bad
  | complete (message : Message)
deriving DecidableEq, Repr

/-- `http_request_t`: the C strings of its fields, and `body_len` bytes. -/
structure HttpRequest where
  method : Bytes
  path : Bytes
  query : Bytes
  body : Bytes
  contentLength : Nat
deriving DecidableEq, Repr

/-- `http_response_t`. -/
structure HttpResponse where
  statusCode : Int
  body : Bytes
  contentLength : Nat
deriving DecidableEq, Repr

/-- `sizeof(req->body)` and `sizeof(resp->body)`. -/
def bodyBufSize : Nat := 4096

/-- What is copied of a body that is there as a whole. -/
def bodyCopy (contentLength : Nat) : Nat :=
  if contentLength < bodyBufSize then contentLength else bodyBufSize - 1

/-- The buffer and zeros behind it, more than the three loops can reach. -/
def memory (buf : Bytes) : Bytes := buf ++ List.replicate 1024 0

/-- One of the loops: bytes up to a stop character, at most `limit`. -/
def token (limit : Nat) (stop : UInt8 → Bool) (text : Bytes) : Bytes :=
  (text.take limit).takeWhile fun byte => !stop byte

def methodStop (byte : UInt8) : Bool := byte = 32
def pathStop (byte : UInt8) : Bool := byte = 32 ∨ byte = 63 ∨ byte = 13
def queryStop (byte : UInt8) : Bool := byte = 32 ∨ byte = 13

/-- The text behind the method and the spaces that follow it. -/
def afterMethod (text : Bytes) : Bytes :=
  (text.drop (token 7 methodStop text).length).dropWhile (· = 32)

/-- The text behind the path. -/
def afterPath (text : Bytes) : Bytes :=
  (afterMethod text).drop (token 255 pathStop (afterMethod text)).length

/-- The bytes copied to `query`. -/
def queryOf : Bytes → Bytes
  | 63 :: rest => token 511 queryStop rest
  | _ => []

/-- `http_parse_request`. -/
def httpParseRequest (buf : Bytes) : Parsed HttpRequest :=
  match findHeaderEnd buf with
  | none => .more
  | some hlen =>
      let text := memory buf
      let contentLength := parseContentLength buf hlen
      if 0 < contentLength ∧ buf.length - hlen < contentLength then .more
      else .complete
        { method := cstr (token 7 methodStop text)
          path := cstr (token 255 pathStop (afterMethod text))
          query := cstr (queryOf (afterPath text))
          body := (buf.drop hlen).take (bodyCopy contentLength)
          contentLength := contentLength }

/-- `http_parse_response`. -/
def httpParseResponse (buf : Bytes) : Parsed HttpResponse :=
  match findHeaderEnd buf with
  | none => .more
  | some hlen =>
      if buf.length < 12 then .bad
      else
        let contentLength := parseContentLength buf hlen
        if 0 < contentLength ∧ buf.length - hlen < contentLength then .more
        else .complete
          { statusCode := atoi (buf.drop 9)
            body := (buf.drop hlen).take (bodyCopy contentLength)
            contentLength := contentLength }

/-! ### Formatting -/

/-- The reason phrases of `http_format_response`. -/
def reason (status : Int) : Bytes :=
  if status = 200 then ascii "OK"
  else if status = 400 then ascii "Bad Request"
  else if status = 404 then ascii "Not Found"
  else if status = 500 then ascii "Internal Server Error"
  else ascii "Unknown"

/-- The header block of a response. -/
def responseHead (status : Int) (bodyLen : Nat) : Bytes :=
  ascii "HTTP/1.1 " ++ decimalInt status ++ ascii " " ++ reason status ++ ascii "\r\n" ++
    ascii "Content-Type: application/json\r\n" ++
    ascii "Content-Length: " ++ decimal bodyLen ++ ascii "\r\n" ++
    ascii "Connection: close\r\n" ++ ascii "\r\n"

/-- The text that `http_format_response` prints, before `snprintf` cuts it.
`%.*s` ends at a NUL, too. -/
def httpFormatResponse (status : Int) (body : Bytes) (bodyLen : Nat) : Bytes :=
  responseHead status bodyLen ++ cstr (body.take bodyLen)

/-! ### The end of the header block -/

theorem findHeaderEnd_bounds {buf : Bytes} {hlen : Nat} (found : findHeaderEnd buf = some hlen) :
    2 ≤ hlen ∧ hlen ≤ buf.length := by
  induction buf generalizing hlen with
  | nil => contradiction
  | cons byte rest inductionHypothesis =>
      unfold findHeaderEnd at found
      split at found
      · rename_i blank
        have length := congrArg List.length blank
        simp only [List.length_take, List.length_cons, List.length_nil] at length
        have value := Option.some.inj found
        simp only [List.length_cons]
        omega
      · split at found
        · rename_i blank
          have length := congrArg List.length blank
          simp only [List.length_take, List.length_cons, List.length_nil] at length
          have value := Option.some.inj found
          simp only [List.length_cons]
          omega
        · obtain ⟨later, inside, same⟩ := Option.map_eq_some_iff.mp found
          have bounds := inductionHypothesis inside
          simp only [List.length_cons]
          omega

/-- The end of a header block stays where it is when bytes are added. -/
theorem findHeaderEnd_append {buf : Bytes} {hlen : Nat} (found : findHeaderEnd buf = some hlen)
    (more : Bytes) : findHeaderEnd (buf ++ more) = some hlen := by
  induction buf generalizing hlen with
  | nil => contradiction
  | cons byte rest inductionHypothesis =>
      have enough : 2 ≤ (byte :: rest).length := by
        have bounds := findHeaderEnd_bounds found
        omega
      unfold findHeaderEnd at found
      rw [List.cons_append, findHeaderEnd, ← List.cons_append, List.take_append_of_le_length enough]
      by_cases short : (byte :: rest).length < 4
      · -- Fewer than four bytes hold no `\r\n\r\n`, and more bytes do not make one of them.
        have small : (byte :: rest).take 4 ≠ [13, 10, 13, 10] := by
          intro whole
          have length := congrArg List.length whole
          simp only [List.length_take, List.length_cons, List.length_nil] at length
          simp only [List.length_cons] at short
          omega
        rw [if_neg small] at found
        by_cases double : (byte :: rest).take 2 = [10, 10]
        · have first : byte = 10 := by
            rw [List.take_succ_cons, List.cons.injEq] at double
            exact double.1
          have other : (byte :: rest ++ more).take 4 ≠ [13, 10, 13, 10] := by
            rw [first, List.cons_append, List.take_succ_cons]
            simp
          rw [if_pos double] at found
          rw [if_neg other, if_pos double, found]
        · rw [if_neg double] at found
          obtain ⟨later, inside, same⟩ := Option.map_eq_some_iff.mp found
          have two : 2 ≤ rest.length := by
            have bounds := findHeaderEnd_bounds inside
            omega
          have ends : rest = [10, 10] := by
            rcases rest with _ | ⟨second, _ | ⟨third, _ | ⟨fourth, rest⟩⟩⟩
            · simp at two
            · simp at two
            · unfold findHeaderEnd at inside
              rw [if_neg (by simp)] at inside
              by_cases pair : [second, third].take 2 = [10, 10]
              · simpa using pair
              · rw [if_neg pair] at inside
                simp [findHeaderEnd] at inside
            · simp only [List.length_cons] at short
              omega
          have other : (byte :: rest ++ more).take 4 ≠ [13, 10, 13, 10] := by
            rw [ends]
            simp
          rw [if_neg other, if_neg double, inductionHypothesis inside, Option.map_some, same]
      · rw [List.take_append_of_le_length (by omega)]
        by_cases blank : (byte :: rest).take 4 = [13, 10, 13, 10]
        · rw [if_pos blank] at found ⊢
          exact found
        · rw [if_neg blank] at found ⊢
          by_cases double : (byte :: rest).take 2 = [10, 10]
          · rw [if_pos double] at found ⊢
            exact found
          · rw [if_neg double] at found ⊢
            obtain ⟨later, inside, same⟩ := Option.map_eq_some_iff.mp found
            rw [inductionHypothesis inside, Option.map_some, same]

theorem findHeaderEnd_cons {byte : UInt8} (other : byte ≠ 13 ∧ byte ≠ 10) (rest : Bytes) :
    findHeaderEnd (byte :: rest) = (findHeaderEnd rest).map (· + 1) := by
  have noBlank : (byte :: rest).take 4 ≠ [13, 10, 13, 10] := by
    rw [List.take_succ_cons]
    simp [other.1]
  have noDouble : (byte :: rest).take 2 ≠ [10, 10] := by
    rw [List.take_succ_cons]
    simp [other.2]
  rw [findHeaderEnd, if_neg noBlank, if_neg noDouble]

/-- A stretch without line ends holds no end of the header block. -/
theorem findHeaderEnd_line {line : Bytes} (plain : ∀ byte ∈ line, byte ≠ 13 ∧ byte ≠ 10)
    (rest : Bytes) : findHeaderEnd (line ++ rest) = (findHeaderEnd rest).map (· + line.length) := by
  induction line with
  | nil => simp
  | cons byte line inductionHypothesis =>
      have later := inductionHypothesis fun other member => plain other (List.mem_cons_of_mem _ member)
      rw [List.cons_append, findHeaderEnd_cons (plain byte List.mem_cons_self), later, Option.map_map]
      congr 1

/-- The end of a line in front of a line that is not empty. -/
theorem findHeaderEnd_crlf {byte : UInt8} (other : byte ≠ 13 ∧ byte ≠ 10) (rest : Bytes) :
    findHeaderEnd (13 :: 10 :: byte :: rest) = (findHeaderEnd (byte :: rest)).map (· + 2) := by
  have noBlank : (13 :: 10 :: byte :: rest : Bytes).take 4 ≠ [13, 10, 13, 10] := by
    simp [other.1]
  have noDouble : (13 :: 10 :: byte :: rest : Bytes).take 2 ≠ [10, 10] := by
    simp
  have noBlank' : (10 :: byte :: rest : Bytes).take 4 ≠ [13, 10, 13, 10] := by
    simp
  have noDouble' : (10 :: byte :: rest : Bytes).take 2 ≠ [10, 10] := by
    simp [other.2]
  rw [findHeaderEnd, if_neg noBlank, if_neg noDouble, findHeaderEnd, if_neg noBlank',
    if_neg noDouble', Option.map_map]
  congr 1

/-! ### Header blocks made of lines -/

/-- A line as the formatters print it: not empty, and without line ends. -/
def Line (line : Bytes) : Prop := line ≠ [] ∧ ∀ byte ∈ line, byte ≠ 13 ∧ byte ≠ 10

/-- Lines, each with its end. -/
def linesText (lines : List Bytes) : Bytes := lines.flatMap fun line => line ++ [13, 10]

/-- The lines of a header block end where the empty line behind them does. -/
theorem findHeaderEnd_lines {line : Bytes} {lines : List Bytes}
    (plain : ∀ other ∈ line :: lines, Line other) (body : Bytes) :
    findHeaderEnd (linesText (line :: lines) ++ 13 :: 10 :: body) =
      some ((linesText (line :: lines)).length + 2) := by
  induction lines generalizing line with
  | nil =>
      have clean := (plain line List.mem_cons_self).2
      have shape : linesText [line] ++ 13 :: 10 :: body = line ++ 13 :: 10 :: 13 :: 10 :: body := by
        simp [linesText]
      have length : (linesText [line]).length = line.length + 2 := by
        simp [linesText]
      have stop : findHeaderEnd (13 :: 10 :: 13 :: 10 :: body) = some 4 := by
        rw [findHeaderEnd, if_pos (by simp)]
      rw [shape, findHeaderEnd_line clean, stop, Option.map_some, length]
      congr 1
      omega
  | cons next lines inductionHypothesis =>
      have clean := (plain line List.mem_cons_self).2
      have later := inductionHypothesis fun other member => plain other (List.mem_cons_of_mem _ member)
      have nextLine := plain next (List.mem_cons_of_mem _ List.mem_cons_self)
      obtain ⟨byte, rest, first⟩ : ∃ byte rest, next = byte :: rest :=
        List.exists_cons_of_ne_nil nextLine.1
      have solid : byte ≠ 13 ∧ byte ≠ 10 := nextLine.2 byte (by simp [first])
      have shape : linesText (line :: next :: lines) ++ 13 :: 10 :: body =
          line ++ 13 :: 10 :: (linesText (next :: lines) ++ 13 :: 10 :: body) := by
        simp [linesText]
      obtain ⟨behind, inner⟩ : ∃ behind,
          linesText (next :: lines) ++ 13 :: 10 :: body = byte :: behind :=
        ⟨rest ++ [13, 10] ++ linesText lines ++ 13 :: 10 :: body, by simp [linesText, first]⟩
      rw [shape, findHeaderEnd_line clean, inner, findHeaderEnd_crlf solid, ← inner, later]
      simp only [Option.map_some, Option.some.injEq]
      simp only [linesText, List.flatMap_cons, List.length_append, List.length_cons,
        List.length_nil]
      omega

/-! ### The Content-Length scan, line by line -/

/-- A text that starts with another letter does not start with the name. -/
theorem startsLength_cons {byte : UInt8} (other : lower byte ≠ 99) (rest : Bytes) :
    startsLength (byte :: rest) = false := by
  unfold startsLength
  rw [decide_eq_false_iff_not, List.take_succ_cons, List.map_cons]
  intro same
  have first := congrArg List.head? same
  exact other (Option.some.inj first)

theorem length_of_startsLength {text : Bytes} (starts : startsLength text = true) :
    15 ≤ text.length := by
  have same : (text.take 15).map lower = ascii "content-length:" := of_decide_eq_true starts
  have length := congrArg List.length same
  have size : (ascii "content-length:").length = 15 := by decide
  rw [List.length_map, List.length_take, size] at length
  omega

/-- A byte that is not in the name ends every look at it. -/
theorem startsLength_append_stop {byte : UInt8} (foreign : lower byte ∉ ascii "content-length:")
    (front rest : Bytes) : startsLength (front ++ byte :: rest) = startsLength front := by
  unfold startsLength
  by_cases inside : 15 ≤ front.length
  · rw [List.take_append_of_le_length inside]
  · have stopped : lower byte ∈ ((front ++ byte :: rest).take 15).map lower := by
      apply List.mem_map_of_mem
      rw [List.take_append]
      apply List.mem_append_right
      obtain ⟨count, count_eq⟩ : ∃ count, 15 - front.length = count + 1 :=
        ⟨14 - front.length, by omega⟩
      rw [count_eq, List.take_succ_cons]
      exact List.mem_cons_self
    have longer : ((front ++ byte :: rest).take 15).map lower ≠ ascii "content-length:" := by
      intro same
      rw [same] at stopped
      exact foreign stopped
    have shorter : (front.take 15).map lower ≠ ascii "content-length:" := fun same =>
      inside (length_of_startsLength (decide_eq_true same))
    rw [decide_eq_false longer, decide_eq_false shorter]

/-- Where no name starts, it does not matter whether a line does. -/
theorem contentLengthFrom_lineStart {text : Bytes} (other : startsLength text = false)
    (lineStart : Bool) (remaining : Nat) :
    contentLengthFrom lineStart remaining text = contentLengthFrom true remaining text := by
  cases remaining with
  | zero => rfl
  | succ remaining =>
      rw [contentLengthFrom.eq_def lineStart, contentLengthFrom.eq_def true]
      dsimp only
      rw [other, if_neg (by simp), if_neg (by simp)]

theorem contentLengthFrom_rest {line : Bytes} (plain : 10 ∉ line) (remaining : Nat) (rest : Bytes) :
    contentLengthFrom false (line.length + remaining) (line ++ rest) =
      contentLengthFrom false remaining rest := by
  induction line with
  | nil => simp
  | cons byte line inductionHypothesis =>
      rw [List.mem_cons, not_or] at plain
      have count : (byte :: line).length + remaining = line.length + remaining + 1 := by
        simp only [List.length_cons]
        omega
      have other : decide (byte = 10) = false := decide_eq_false (Ne.symm plain.1)
      rw [count, List.cons_append, contentLengthFrom, if_neg (by simp), other]
      exact inductionHypothesis plain.2

/-- The start of a line that does not start with the name. -/
theorem contentLengthFrom_front {byte : UInt8} {front : Bytes} (plain : 10 ∉ byte :: front)
    (other : lower byte ≠ 99) (remaining : Nat) (rest : Bytes) :
    contentLengthFrom true ((byte :: front).length + remaining) (byte :: front ++ rest) =
      contentLengthFrom false remaining rest := by
  rw [List.mem_cons, not_or] at plain
  have count : (byte :: front).length + remaining = front.length + remaining + 1 := by
    rw [List.length_cons]
    omega
  have unended : decide (byte = 10) = false := decide_eq_false (Ne.symm plain.1)
  rw [count, List.cons_append, contentLengthFrom, startsLength_cons other, if_neg (by simp), unended,
    contentLengthFrom_rest plain.2]

/-- A line that does not start with the name is passed over. -/
theorem contentLengthFrom_skip {line : Bytes} (plain : 10 ∉ line) {rest : Bytes}
    (other : startsLength (line ++ 10 :: rest) = false) (remaining : Nat) :
    contentLengthFrom true (line.length + 1 + remaining) (line ++ 10 :: rest) =
      contentLengthFrom true remaining rest := by
  have stop : ∀ lineStart, ¬ (lineStart = true ∧ startsLength (10 :: rest) = true) := by
    rintro lineStart ⟨-, starts⟩
    rw [startsLength_cons (by decide)] at starts
    contradiction
  cases line with
  | nil =>
      have count : ([] : Bytes).length + 1 + remaining = remaining + 1 := by
        simp only [List.length_nil]
        omega
      rw [count, List.nil_append, contentLengthFrom, if_neg (stop true)]
      rfl
  | cons byte line =>
      rw [List.mem_cons, not_or] at plain
      have count : (byte :: line).length + 1 + remaining = line.length + (1 + remaining) + 1 := by
        simp only [List.length_cons]
        omega
      have unended : decide (byte = 10) = false := decide_eq_false (Ne.symm plain.1)
      rw [count, List.cons_append, contentLengthFrom, ← List.cons_append, other,
        if_neg (by simp)]
      show contentLengthFrom (decide (byte = 10)) _ (line ++ 10 :: rest) = _
      rw [unended, contentLengthFrom_rest plain.2, Nat.add_comm 1, contentLengthFrom,
        if_neg (stop false)]
      rfl

theorem contentLengthFrom_found {text : Bytes} (starts : startsLength text = true)
    (remaining : Nat) :
    contentLengthFrom true (remaining + 1) text = lengthValue (text.drop 15) := by
  rw [contentLengthFrom.eq_def]
  dsimp only
  rw [if_pos ⟨rfl, starts⟩]

end MiniMs.Http
