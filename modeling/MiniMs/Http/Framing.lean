import MiniMs.Http.Cutting

/-!
Formatted messages read back: a header block given line by line, its
Content-Length, and the responses of `http_format_response`.

Owns: the Content-Length of a block of known lines, the status and the body of
a response text with one, and the fact that no proper beginning of such a text
is complete.

The lines of other formatters are theirs; they meet the same rules.
-/

namespace MiniMs.Http

open MiniMs.Dpumesh MiniMs.Library.Text MiniMs.Library.Number

/-! ### Printed numbers -/

theorem decimal_eq_bytesOf (value : Nat) : decimal value = bytesOf (Nat.toDigits 10 value) := rfl

theorem forall_isDigit_decimal (value : Nat) : ∀ byte ∈ decimal value, isDigit byte = true :=
  forall_isDigit_bytesOf value

theorem isDigit_ne {byte other : UInt8} (digit : isDigit byte = true)
    (outside : isDigit other = false) : byte ≠ other := by
  intro same
  rw [same, outside] at digit
  contradiction

/-- The bytes of a printed number are digits, or the first is a minus. -/
theorem mem_decimalInt {value : Int} {byte : UInt8} (member : byte ∈ decimalInt value) :
    byte = 45 ∨ isDigit byte = true := by
  unfold decimalInt at member
  split at member
  · have sign : ascii "-" = [45] := by decide
    rcases List.mem_append.mp member with minus | digit
    · rw [sign] at minus
      exact Or.inl (List.mem_singleton.mp minus)
    · exact Or.inr (forall_isDigit_decimal _ byte digit)
  · exact Or.inr (forall_isDigit_decimal _ byte member)

theorem strtol_decimalInt {value : Int} (low : -(2 ^ 62) ≤ value) (high : value ≤ 2 ^ 62)
    {rest : Bytes} (stops : ∀ byte, rest.head? = some byte → isDigit byte = false) :
    strtol (decimalInt value ++ rest) = value := by
  have small : value.natAbs ≤ longMax := by
    unfold longMax
    omega
  unfold decimalInt
  split
  · show strtol (45 :: (bytesOf (Nat.toDigits 10 value.natAbs) ++ rest)) = value
    rw [strtol_minus_toDigits small stops]
    omega
  · show strtol (bytesOf (Nat.toDigits 10 value.natAbs) ++ rest) = value
    rw [strtol_toDigits small stops]
    omega

/-- `atoi` reads back an `int` that was printed with `%d`. -/
theorem atoi_decimalInt {value : Int} (low : -(2 ^ 31) ≤ value) (high : value < 2 ^ 31)
    {rest : Bytes} (stops : ∀ byte, rest.head? = some byte → isDigit byte = false) :
    atoi (decimalInt value ++ rest) = value := by
  unfold atoi
  rw [strtol_decimalInt (by omega) (by omega) stops]
  apply Int.bmod_eq_of_le
  · omega
  · omega

theorem length_decimal_le {value digits : Nat} (positive : 0 < digits) (small : value < 10 ^ digits) :
    (decimal value).length ≤ digits := by
  unfold decimal
  rw [List.length_map]
  exact (Nat.length_toDigits_le_iff (by decide) positive).mpr small

/-- The text of an `int` has at most eleven bytes. -/
theorem length_decimalInt_le {value : Int} (low : -(2 ^ 31) ≤ value) (high : value < 2 ^ 31) :
    (decimalInt value).length ≤ 11 := by
  have digits : (decimal value.natAbs).length ≤ 10 := length_decimal_le (by decide) (by omega)
  unfold decimalInt
  split
  · have sign : (ascii "-").length = 1 := by decide
    rw [List.length_append, sign]
    omega
  · omega

/-! ### Blocks of lines -/

/-- A header block: its lines, and the empty line. -/
def headerBlock (lines : List Bytes) : Bytes := linesText lines ++ [13, 10]

/-- Lines that are no Content-Length lines. -/
def Other (line : Bytes) : Prop :=
  10 ∉ line ∧ ∀ rest, startsLength (line ++ 13 :: 10 :: rest) = false

/-- The line `Content-Length: %zu`. -/
def lengthLine (value : Nat) : Bytes := ascii "Content-Length: " ++ decimal value

theorem findHeaderEnd_block {line : Bytes} {lines : List Bytes}
    (plain : ∀ other ∈ line :: lines, Line other) (body : Bytes) :
    findHeaderEnd (headerBlock (line :: lines) ++ body) =
      some (headerBlock (line :: lines)).length := by
  have shape : headerBlock (line :: lines) ++ body =
      linesText (line :: lines) ++ 13 :: 10 :: body := by
    unfold headerBlock
    rw [List.append_assoc]
    rfl
  rw [shape, findHeaderEnd_lines plain]
  unfold headerBlock
  rw [List.length_append]
  rfl

theorem contentLengthFrom_lines {lines : List Bytes} (others : ∀ line ∈ lines, Other line)
    (remaining : Nat) (rest : Bytes) :
    contentLengthFrom true ((linesText lines).length + remaining) (linesText lines ++ rest) =
      contentLengthFrom true remaining rest := by
  induction lines with
  | nil => simp [linesText]
  | cons line lines inductionHypothesis =>
      have later := inductionHypothesis fun other member => others other (List.mem_cons_of_mem _ member)
      obtain ⟨plain, other⟩ := others line List.mem_cons_self
      have shape : linesText (line :: lines) ++ rest =
          line ++ [13] ++ 10 :: (linesText lines ++ rest) := by
        simp [linesText]
      have length : (linesText (line :: lines)).length + remaining =
          (line ++ [13]).length + 1 + ((linesText lines).length + remaining) := by
        simp only [linesText, List.flatMap_cons, List.length_append, List.length_cons,
          List.length_nil]
        omega
      have plain' : 10 ∉ line ++ [13] := by simpa using plain
      have other' : startsLength (line ++ [13] ++ 10 :: (linesText lines ++ rest)) = false := by
        rw [List.append_assoc]
        exact other _
      rw [shape, length, contentLengthFrom_skip plain' other', later]

/-- A block without a Content-Length line has length 0. -/
theorem parseContentLength_none {lines : List Bytes} (others : ∀ line ∈ lines, Other line)
    (body : Bytes) :
    parseContentLength (headerBlock lines ++ body) (headerBlock lines).length = 0 := by
  have shape : headerBlock lines ++ body = linesText lines ++ ([13] ++ 10 :: body) := by
    simp [headerBlock]
  have length : (headerBlock lines).length = (linesText lines).length + (([13] : Bytes).length + 1 + 0) := by
    simp [headerBlock]
  unfold parseContentLength
  rw [shape, length, contentLengthFrom_lines others, contentLengthFrom_skip (by decide)
    (startsLength_cons (by decide) _)]
  rfl

theorem lengthValue_decimal {value : Nat} (small : value ≤ longMax) (rest : Bytes) :
    lengthValue (32 :: (decimal value ++ 13 :: rest)) = value := by
  have digits := forall_isDigit_decimal value
  obtain ⟨digit, others, shape⟩ := List.exists_cons_of_ne_nil (bytesOf_toDigits_ne_nil value)
  have first : digit ≠ 32 := by
    apply isDigit_ne _ (by decide)
    apply digits
    rw [decimal_eq_bytesOf, shape]
    exact List.mem_cons_self
  have skip : (32 :: (decimal value ++ 13 :: rest)).dropWhile (· = 32) =
      decimal value ++ 13 :: rest := by
    rw [List.dropWhile_cons_of_pos (by decide), decimal_eq_bytesOf, shape, List.cons_append,
      List.dropWhile_cons_of_neg (by simpa using first)]
  unfold lengthValue
  rw [skip, decimal_eq_bytesOf, strtol_toDigits small]
  · unfold sizeOfLong
    unfold longMax at small
    omega
  · intro byte head
    rw [List.head?_cons, Option.some.injEq] at head
    rw [← head]
    decide

/-- The first Content-Length line counts. -/
theorem parseContentLength_lines {before after : List Bytes}
    (others : ∀ line ∈ before, Other line) {value : Nat} (small : value ≤ longMax) (body : Bytes) :
    parseContentLength (headerBlock (before ++ lengthLine value :: after) ++ body)
      (headerBlock (before ++ lengthLine value :: after)).length = value := by
  have tail : linesText (lengthLine value :: after) =
      ascii "Content-Length:" ++ 32 :: (decimal value ++ 13 :: 10 :: linesText after) := by
    have name : ascii "Content-Length: " = ascii "Content-Length:" ++ [32] := by decide
    simp [linesText, lengthLine, name]
  have shape : headerBlock (before ++ lengthLine value :: after) ++ body =
      linesText before ++ (ascii "Content-Length:" ++
        32 :: (decimal value ++ 13 :: 10 :: (linesText after ++ 13 :: 10 :: body))) := by
    have split : linesText (before ++ lengthLine value :: after) =
        linesText before ++ linesText (lengthLine value :: after) := List.flatMap_append
    unfold headerBlock
    rw [split, tail]
    simp
  obtain ⟨remaining, length⟩ : ∃ remaining,
      (headerBlock (before ++ lengthLine value :: after)).length =
        (linesText before).length + (remaining + 1) := by
    have split : linesText (before ++ lengthLine value :: after) =
        linesText before ++ linesText (lengthLine value :: after) := List.flatMap_append
    refine ⟨(linesText (lengthLine value :: after)).length + 1, ?_⟩
    unfold headerBlock
    rw [split, List.length_append, List.length_append]
    rfl
  have size : (ascii "Content-Length:").length = 15 := by decide
  have starts : ∀ rest, startsLength (ascii "Content-Length:" ++ rest) = true := by
    intro rest
    unfold startsLength
    rw [← size, List.take_left]
    decide
  unfold parseContentLength
  rw [shape, length, contentLengthFrom_lines others, contentLengthFrom_found (starts _), ← size,
    List.drop_left, lengthValue_decimal small]

/-! ### Responses -/

/-- The header block of a response: a status line, a length, and further lines. -/
structure ResponseHead where
  status : Int
  phrase : Bytes
  before : List Bytes
  value : Nat
  after : List Bytes
  status_low : -(2 ^ 31) ≤ status
  status_high : status < 2 ^ 31
  phrase_plain : ∀ byte ∈ phrase, byte ≠ 13 ∧ byte ≠ 10
  before_lines : ∀ line ∈ before, Line line
  before_others : ∀ line ∈ before, Other line
  after_lines : ∀ line ∈ after, Line line
  value_small : value ≤ longMax

namespace ResponseHead

variable (head : ResponseHead)

/-- `HTTP/1.1 %d ...`. -/
def statusLine : Bytes := ascii "HTTP/1.1 " ++ decimalInt head.status ++ 32 :: head.phrase

def lines : List Bytes := head.statusLine :: (head.before ++ lengthLine head.value :: head.after)

def text : Bytes := headerBlock head.lines

theorem line_statusLine : Line head.statusLine := by
  constructor
  · exact List.cons_ne_nil _ _
  · intro byte member
    unfold statusLine at member
    rw [List.mem_append, List.mem_append, List.mem_cons] at member
    have plain : ∀ byte ∈ ascii "HTTP/1.1 ", byte ≠ 13 ∧ byte ≠ 10 :=
      forall_mem_of_all (by decide)
    rcases member with (opening | number) | blank | phrase
    · exact plain byte opening
    · rcases mem_decimalInt number with minus | digit
      · rw [minus]
        decide
      · exact ⟨isDigit_ne digit (by decide), isDigit_ne digit (by decide)⟩
    · rw [blank]
      decide
    · exact head.phrase_plain byte phrase

theorem line_lengthLine (value : Nat) : Line (lengthLine value) := by
  constructor
  · exact List.cons_ne_nil _ _
  · intro byte member
    have plain : ∀ byte ∈ ascii "Content-Length: ", byte ≠ 13 ∧ byte ≠ 10 :=
      forall_mem_of_all (by decide)
    rcases List.mem_append.mp member with name | digit
    · exact plain byte name
    · have isDigit' := forall_isDigit_decimal value byte digit
      exact ⟨isDigit_ne isDigit' (by decide), isDigit_ne isDigit' (by decide)⟩

theorem other_statusLine : Other head.statusLine :=
  ⟨fun member => (head.line_statusLine.2 10 member).2 rfl,
    fun _ => startsLength_cons (by decide) _⟩

theorem findHeaderEnd_text (body : Bytes) :
    findHeaderEnd (head.text ++ body) = some head.text.length := by
  apply findHeaderEnd_block
  intro line member
  rw [List.mem_cons, List.mem_append, List.mem_cons] at member
  rcases member with first | before | length | after
  · rw [first]
    exact head.line_statusLine
  · exact head.before_lines line before
  · rw [length]
    exact line_lengthLine _
  · exact head.after_lines line after

theorem parseContentLength_text (body : Bytes) :
    parseContentLength (head.text ++ body) head.text.length = head.value := by
  have others : ∀ line ∈ head.statusLine :: head.before, Other line := by
    intro line member
    rcases List.mem_cons.mp member with first | before
    · rw [first]
      exact head.other_statusLine
    · exact head.before_others line before
  exact parseContentLength_lines others head.value_small body

theorem long_text : 12 ≤ head.text.length := by
  have lengths : head.text.length =
      (head.statusLine.length + 2) + (linesText (head.before ++
        lengthLine head.value :: head.after)).length + 2 := by
    unfold text headerBlock lines
    rw [linesText, List.flatMap_cons, List.length_append, List.length_append, List.length_append]
    rfl
  have status : 9 < head.statusLine.length := by
    have opening : (ascii "HTTP/1.1 ").length = 9 := by decide
    unfold statusLine
    rw [List.length_append, List.length_append, opening, List.length_cons]
    omega
  omega

theorem atoi_status (body : Bytes) : atoi ((head.text ++ body).drop 9) = head.status := by
  have opening : (ascii "HTTP/1.1 ").length = 9 := by decide
  obtain ⟨rest, shape⟩ : ∃ rest, head.text ++ body =
      ascii "HTTP/1.1 " ++ (decimalInt head.status ++ 32 :: rest) := by
    refine ⟨head.phrase ++ [13, 10] ++ linesText (head.before ++
      lengthLine head.value :: head.after) ++ [13, 10] ++ body, ?_⟩
    unfold text headerBlock lines linesText statusLine
    rw [List.flatMap_cons]
    simp
  rw [shape, ← opening, List.drop_left]
  apply atoi_decimalInt head.status_low head.status_high
  intro byte first
  rw [List.head?_cons, Option.some.injEq] at first
  rw [← first]
  decide

/-- What a parser makes of a head and the part of a body that is there. -/
theorem httpParseResponse_text (body : Bytes) :
    httpParseResponse (head.text ++ body) =
      if 0 < head.value ∧ body.length < head.value then .more
      else .complete ⟨head.status, body.take (bodyCopy head.value), head.value⟩ := by
  have long := head.long_text
  have long' : ¬ (head.text ++ body).length < 12 := by
    rw [List.length_append]
    omega
  have behind : (head.text ++ body).length - head.text.length = body.length := by
    rw [List.length_append]
    omega
  unfold httpParseResponse
  rw [head.findHeaderEnd_text]
  dsimp only
  rw [if_neg long', head.parseContentLength_text, head.atoi_status, List.drop_left, behind]

end ResponseHead

/-- A response text: a status line, further lines, and a body. -/
structure ResponseText where
  status : Int
  phrase : Bytes
  before : List Bytes
  after : List Bytes
  body : Bytes
  status_low : -(2 ^ 31) ≤ status
  status_high : status < 2 ^ 31
  phrase_plain : ∀ byte ∈ phrase, byte ≠ 13 ∧ byte ≠ 10
  before_lines : ∀ line ∈ before, Line line
  before_others : ∀ line ∈ before, Other line
  after_lines : ∀ line ∈ after, Line line
  body_fits : body.length < bodyBufSize

namespace ResponseText

variable (response : ResponseText)

def head : ResponseHead where
  status := response.status
  phrase := response.phrase
  before := response.before
  value := response.body.length
  after := response.after
  status_low := response.status_low
  status_high := response.status_high
  phrase_plain := response.phrase_plain
  before_lines := response.before_lines
  before_others := response.before_others
  after_lines := response.after_lines
  value_small := by
    have fits := response.body_fits
    unfold bodyBufSize at fits
    unfold longMax
    omega

def text : Bytes := response.head.text ++ response.body

/-- The whole text is the response that it was made of. -/
theorem httpParseResponse_text :
    httpParseResponse response.text =
      .complete ⟨response.status, response.body, response.body.length⟩ := by
  have copy : bodyCopy response.body.length = response.body.length := if_pos response.body_fits
  have enough : ¬ (0 < response.body.length ∧ response.body.length < response.body.length) := by
    omega
  have parsed := response.head.httpParseResponse_text response.body
  have value : response.head.value = response.body.length := rfl
  rw [value, if_neg enough, copy, List.take_length] at parsed
  exact parsed

/-- No proper beginning of the text is complete. -/
theorem httpParseResponse_front {front : Bytes} (begins : front <+: response.text)
    (proper : front ≠ response.text) : httpParseResponse front = .more := by
  obtain ⟨rest, shape⟩ := begins
  by_cases short : front.length < response.head.text.length
  · have none : findHeaderEnd front = none := by
      cases found : findHeaderEnd front with
      | none => rfl
      | some hlen =>
          have bounds := findHeaderEnd_bounds found
          have stays := findHeaderEnd_append found rest
          rw [shape] at stays
          unfold text at stays
          rw [response.head.findHeaderEnd_text, Option.some.injEq] at stays
          omega
    unfold httpParseResponse
    rw [none]
  · obtain ⟨body, split⟩ : ∃ body, front = response.head.text ++ body := by
      have head : response.head.text <+: front := by
        apply List.prefix_of_prefix_length_le (List.prefix_append _ response.body)
        · exact ⟨rest, shape⟩
        · omega
      obtain ⟨body, same⟩ := head
      exact ⟨body, same.symm⟩
    have cut : body.length < response.body.length := by
      rw [split] at shape proper
      have tail : body ++ rest = response.body := by
        unfold text at shape
        rw [List.append_assoc] at shape
        exact List.append_cancel_left shape
      have nonempty : rest ≠ [] := by
        intro empty
        rw [empty, List.append_nil] at tail
        exact proper (by rw [tail]; rfl)
      have length := congrArg List.length tail
      rw [List.length_append] at length
      have positive := List.length_pos_of_ne_nil nonempty
      omega
    have lacking : 0 < response.head.value ∧ body.length < response.head.value :=
      ⟨Nat.lt_of_le_of_lt (Nat.zero_le _) cut, cut⟩
    rw [split, response.head.httpParseResponse_text, if_pos lacking]

end ResponseText

/-- The lines of `http_format_response`. -/
def formattedResponse (status : Int) (body : Bytes) (low : -(2 ^ 31) ≤ status)
    (high : status < 2 ^ 31) (fits : body.length < bodyBufSize) : ResponseText where
  status := status
  phrase := reason status
  before := [ascii "Content-Type: application/json"]
  after := [ascii "Connection: close"]
  body := body
  status_low := low
  status_high := high
  phrase_plain := by
    unfold reason
    split_ifs
    all_goals exact forall_mem_of_all (by decide)
  before_lines := by
    intro line member
    rw [List.mem_singleton.mp member]
    exact ⟨by decide, forall_mem_of_all (by decide)⟩
  before_others := by
    intro line member
    rw [List.mem_singleton.mp member]
    refine ⟨by decide, fun rest => ?_⟩
    unfold startsLength
    rw [List.take_append_of_le_length (by decide)]
    decide
  after_lines := by
    intro line member
    rw [List.mem_singleton.mp member]
    exact ⟨by decide, forall_mem_of_all (by decide)⟩
  body_fits := fits

/-- A header block takes up a small part of a buffer. -/
theorem length_responseHead_le {status : Int} (low : -(2 ^ 31) ≤ status) (high : status < 2 ^ 31)
    {bodyLen : Nat} (fits : bodyLen < bodyBufSize) : (responseHead status bodyLen).length ≤ 200 := by
  have number := length_decimalInt_le low high
  have size : (decimal bodyLen).length ≤ 4 := by
    unfold bodyBufSize at fits
    exact length_decimal_le (by decide) (by omega)
  have phrase : (reason status).length ≤ 21 := by
    unfold reason
    split_ifs
    all_goals decide
  have opening : (ascii "HTTP/1.1 ").length = 9 := by decide
  have blank : (ascii " ").length = 1 := by decide
  have crlf : (ascii "\r\n").length = 2 := by decide
  have type : (ascii "Content-Type: application/json\r\n").length = 32 := by decide
  have name : (ascii "Content-Length: ").length = 16 := by decide
  have close : (ascii "Connection: close\r\n").length = 19 := by decide
  unfold responseHead
  simp only [List.length_append, opening, blank, crlf, type, name, close]
  omega

/-- What is formatted of a body without NUL is a response text. -/
theorem httpFormatResponse_eq {status : Int} {body : Bytes} (low : -(2 ^ 31) ≤ status)
    (high : status < 2 ^ 31) (fits : body.length < bodyBufSize) (clean : 0 ∉ body) :
    httpFormatResponse status body body.length =
      (formattedResponse status body low high fits).text := by
  have crlf : ascii "\r\n" = [13, 10] := by decide
  have blank : ascii " " = [32] := by decide
  have type : ascii "Content-Type: application/json\r\n" =
      ascii "Content-Type: application/json" ++ [13, 10] := by decide
  have close : ascii "Connection: close\r\n" = ascii "Connection: close" ++ [13, 10] := by decide
  unfold httpFormatResponse responseHead ResponseText.text ResponseText.head ResponseHead.text
    ResponseHead.lines ResponseHead.statusLine headerBlock linesText lengthLine formattedResponse
  rw [List.take_length, cstr_eq_self clean, crlf, blank, type, close]
  simp

end MiniMs.Http
