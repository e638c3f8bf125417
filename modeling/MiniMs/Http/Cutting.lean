import MiniMs.Http.Parse

/-!
A message read in pieces: what the parsers say of a buffer and of the same
buffer with more bytes behind it.

Owns: the places up to which each field is read, the condition under which none
of them reaches the end of the data, the exactness of that condition for both
parsers, and the read loop of `on_client_read_cb` up to the first request.

The life of a connection is not owned here.
-/

namespace MiniMs.Http

open MiniMs.Dpumesh MiniMs.Library.Text MiniMs.Library.Number

/-! ### The property and the condition -/

/-- A complete request stays the request that it is, whatever follows. -/
def KeepsRequest (buf : Bytes) : Prop :=
  ∀ req, httpParseRequest buf = .complete req → ∀ more, ∃ later,
    httpParseRequest (buf ++ more) = .complete later ∧ later.method = req.method ∧
      later.path = req.path ∧ later.query = req.query ∧ later.body = req.body

/-- A complete response stays the response that it is, whatever follows. -/
def KeepsResponse (buf : Bytes) : Prop :=
  ∀ resp, httpParseResponse buf = .complete resp → ∀ more, ∃ later,
    httpParseResponse (buf ++ more) = .complete later ∧ later.statusCode = resp.statusCode ∧
      later.body = resp.body

/-- The text that `atol` is given, where there is a Content-Length line. -/
def lengthTextFrom : Bool → Nat → Bytes → Option Bytes
  | _, 0, _ => none
  | lineStart, remaining + 1, text =>
      if lineStart ∧ startsLength text then some ((text.drop 15).dropWhile (· = 32))
      else
        match text with
        | [] => none
        | byte :: rest => lengthTextFrom (byte = 10) remaining rest

/-- The number of the Content-Length line ends inside the data. -/
def LengthSettled (buf : Bytes) : Prop :=
  ∀ hlen, findHeaderEnd buf = some hlen → ∀ text, lengthTextFrom true hlen buf = some text →
    strtolRest text ≠ []

/-- Behind a question mark there is a space, a CR or a NUL, or enough to fill
the query buffer. -/
def QuerySettled (text : Bytes) : Prop :=
  ∀ rest, text = 63 :: rest → 511 ≤ rest.length ∨ ∃ byte ∈ rest, queryStop byte ∨ byte = 0

/-- No field of a request is read past the end of the data. -/
structure RequestSettled (buf : Bytes) : Prop where
  path : afterPath buf ≠ []
  query : QuerySettled (afterPath buf)
  length : LengthSettled buf

/-- The number read by `atoi` ends inside the data, or it is already what every
number out of range is read as, and one more digit takes it out of range. -/
def StatusSettled (text : Bytes) : Prop :=
  strtolRest text ≠ [] ∨
    longMax < digitsValue 0 (signedDigits text).2 * 10 ∧
      atoi text = if (signedDigits text).1 then 0 else -1

/-- No field of a response is read past the end of the data. -/
structure ResponseSettled (buf : Bytes) : Prop where
  status : StatusSettled (buf.drop 9)
  length : LengthSettled buf

/-! ### Content-Length -/

theorem contentLengthFrom_eq (lineStart : Bool) (remaining : Nat) (text : Bytes) :
    contentLengthFrom lineStart remaining text =
      ((lengthTextFrom lineStart remaining text).map fun text => sizeOfLong (strtol text)).getD 0 := by
  induction remaining generalizing lineStart text with
  | zero => rfl
  | succ remaining inductionHypothesis =>
      rw [contentLengthFrom.eq_def, lengthTextFrom.eq_def]
      dsimp only
      split
      · rfl
      · cases text with
        | nil => rfl
        | cons byte rest => exact inductionHypothesis _ rest

/-- A newline inside the data ends every look at the name. -/
theorem startsLength_append (front body more : Bytes) :
    startsLength (front ++ 10 :: body ++ more) = startsLength (front ++ 10 :: body) := by
  have foreign : lower 10 ∉ ascii "content-length:" := by decide
  rw [List.append_assoc, List.cons_append, startsLength_append_stop foreign,
    startsLength_append_stop foreign]

/-- The header block ends with a newline. -/
theorem split_of_findHeaderEnd {buf : Bytes} {hlen : Nat} (found : findHeaderEnd buf = some hlen) :
    ∃ front body, buf = front ++ 10 :: body ∧ hlen = front.length + 1 := by
  induction buf generalizing hlen with
  | nil => contradiction
  | cons byte rest inductionHypothesis =>
      unfold findHeaderEnd at found
      split at found
      · rename_i blank
        refine ⟨[13, 10, 13], (byte :: rest).drop 4, ?_, (Option.some.inj found).symm⟩
        rw [← List.take_append_drop 4 (byte :: rest), blank]
        rfl
      · split at found
        · rename_i blank
          refine ⟨[10], (byte :: rest).drop 2, ?_, (Option.some.inj found).symm⟩
          rw [← List.take_append_drop 2 (byte :: rest), blank]
          rfl
        · obtain ⟨later, inside, same⟩ := Option.map_eq_some_iff.mp found
          obtain ⟨front, body, shape, length⟩ := inductionHypothesis inside
          refine ⟨byte :: front, body, by rw [shape, List.cons_append], ?_⟩
          rw [← same, length, List.length_cons]

theorem dropWhile_blank_append {text : Bytes} (newline : 10 ∈ text) (more : Bytes) :
    (text ++ more).dropWhile (· = 32) = text.dropWhile (· = 32) ++ more := by
  apply dropWhile_append_of_ne_nil
  intro empty
  have blank := List.dropWhile_eq_nil_iff.mp empty 10 newline
  exact absurd blank (by decide)

theorem lengthTextFrom_append (lineStart : Bool) (front body more : Bytes) :
    lengthTextFrom lineStart (front.length + 1) (front ++ 10 :: body ++ more) =
      (lengthTextFrom lineStart (front.length + 1) (front ++ 10 :: body)).map (· ++ more) := by
  induction front generalizing lineStart with
  | nil =>
      have stop : ∀ rest, ¬ (lineStart = true ∧ startsLength (10 :: rest) = true) := by
        rintro rest ⟨-, starts⟩
        rw [startsLength_cons (by decide)] at starts
        contradiction
      have nothing : ∀ rest, lengthTextFrom lineStart 1 (10 :: rest) = none := by
        intro rest
        rw [lengthTextFrom, if_neg (stop rest), lengthTextFrom]
      rw [List.nil_append, List.cons_append, List.length_nil, nothing, nothing]
      rfl
  | cons byte front inductionHypothesis =>
      have starts := startsLength_append (byte :: front) body more
      rw [lengthTextFrom.eq_def lineStart _ (byte :: front ++ 10 :: body ++ more),
        lengthTextFrom.eq_def lineStart _ (byte :: front ++ 10 :: body)]
      dsimp only [List.length_cons]
      rw [starts]
      by_cases found : lineStart = true ∧ startsLength (byte :: front ++ 10 :: body) = true
      · rw [if_pos found, if_pos found, Option.map_some]
        have long : 15 ≤ (byte :: front).length := by
          -- A name that starts before the newline ends before it.
          by_contra short
          have taken := of_decide_eq_true found.2
          have newline : (10 : UInt8) ∈ ((byte :: front ++ 10 :: body).take 15) := by
            rw [List.take_append]
            apply List.mem_append_right
            obtain ⟨count, count_eq⟩ : ∃ count, 15 - (byte :: front).length = count + 1 :=
              ⟨14 - (byte :: front).length, by omega⟩
            rw [count_eq, List.take_succ_cons]
            exact List.mem_cons_self
          have member := List.mem_map_of_mem (f := lower) newline
          rw [taken] at member
          exact absurd member (by decide)
        have dropped : ∀ behind : Bytes, (byte :: front ++ 10 :: behind).drop 15 =
            (byte :: front).drop 15 ++ 10 :: behind :=
          fun behind => List.drop_append_of_le_length long
        have shape : byte :: front ++ 10 :: body ++ more =
            byte :: front ++ 10 :: (body ++ more) := by simp
        rw [shape, dropped, dropped, ← dropWhile_blank_append (by simp)]
        simp
      · rw [if_neg found, if_neg found]
        exact inductionHypothesis _

/-- A settled Content-Length is the same in a longer buffer. -/
theorem parseContentLength_append {buf : Bytes} {hlen : Nat} (found : findHeaderEnd buf = some hlen)
    (settled : LengthSettled buf) (more : Bytes) :
    parseContentLength (buf ++ more) hlen = parseContentLength buf hlen := by
  obtain ⟨front, body, shape, length⟩ := split_of_findHeaderEnd found
  have text := lengthTextFrom_append true front body more
  rw [← shape, ← length] at text
  unfold parseContentLength
  rw [contentLengthFrom_eq, contentLengthFrom_eq, text]
  cases line : lengthTextFrom true hlen buf with
  | none => rfl
  | some value =>
      simp only [Option.map_some, Option.getD_some]
      rw [strtol_append (settled hlen found value line)]

/-! ### The request line -/

/-- A loop that ends inside the text, or at its limit, ends there in a longer
text. -/
theorem token_append {limit : Nat} {stop : UInt8 → Bool} {text : Bytes}
    (inside : (token limit stop text).length < text.length ∨ limit ≤ text.length) (more : Bytes) :
    token limit stop (text ++ more) = token limit stop text := by
  unfold token at inside ⊢
  by_cases long : limit ≤ text.length
  · rw [List.take_append_of_le_length long]
  · have short := inside.resolve_right long
    have all : text.take limit = text := List.take_of_length_le (by omega)
    rw [all] at short ⊢
    rw [List.take_append, all, takeWhile_append_of_dropWhile_ne_nil]
    intro empty
    have split := congrArg List.length
      (List.takeWhile_append_dropWhile (p := fun byte => !stop byte) (l := text))
    rw [List.length_append, empty, List.length_nil] at split
    omega

theorem token_isPrefix (limit : Nat) (stop : UInt8 → Bool) (text : Bytes) :
    token limit stop text <+: text :=
  (List.takeWhile_prefix _).trans (List.take_prefix _ _)

/-- A loop that leaves something of the text leaves it in a longer text, too. -/
theorem drop_token_append {limit : Nat} {stop : UInt8 → Bool} {text : Bytes}
    (left : text.drop (token limit stop text).length ≠ []) (more : Bytes) :
    token limit stop (text ++ more) = token limit stop text ∧
      (text ++ more).drop (token limit stop (text ++ more)).length =
        text.drop (token limit stop text).length ++ more := by
  have inside : (token limit stop text).length < text.length := by
    by_contra whole
    exact left (List.drop_of_length_le (by omega))
  have same := token_append (Or.inl inside) more
  rw [same]
  exact ⟨rfl, List.drop_append_of_le_length (Nat.le_of_lt inside)⟩

theorem afterMethod_append {buf : Bytes} (left : afterMethod buf ≠ []) (more : Bytes) :
    token 7 methodStop (buf ++ more) = token 7 methodStop buf ∧
      afterMethod (buf ++ more) = afterMethod buf ++ more := by
  have rest : buf.drop (token 7 methodStop buf).length ≠ [] := by
    intro empty
    apply left
    unfold afterMethod
    rw [empty]
    rfl
  obtain ⟨method, dropped⟩ := drop_token_append rest more
  refine ⟨method, ?_⟩
  unfold afterMethod at left ⊢
  rw [dropped, dropWhile_append_of_ne_nil left]

theorem afterPath_append {buf : Bytes} (left : afterPath buf ≠ []) (more : Bytes) :
    token 7 methodStop (buf ++ more) = token 7 methodStop buf ∧
      token 255 pathStop (afterMethod (buf ++ more)) = token 255 pathStop (afterMethod buf) ∧
      afterPath (buf ++ more) = afterPath buf ++ more := by
  have rest : afterMethod buf ≠ [] := by
    intro empty
    apply left
    unfold afterPath
    rw [empty, List.drop_nil]
  obtain ⟨method, spaces⟩ := afterMethod_append rest more
  obtain ⟨path, dropped⟩ := drop_token_append left more
  refine ⟨method, by rw [spaces, path], ?_⟩
  unfold afterPath
  rw [spaces, dropped]

/-- A loop that reaches the end of a text runs on into what follows. -/
theorem token_append_self {limit : Nat} {stop : UInt8 → Bool} {text : Bytes}
    (whole : token limit stop text = text) (more : Bytes) :
    token limit stop (text ++ more) = text ++ token (limit - text.length) stop more := by
  have short : text.length ≤ limit := by
    have length := congrArg List.length whole
    unfold token at length
    have le := (List.takeWhile_prefix (fun byte => !stop byte) (l := text.take limit)).length_le
    rw [List.length_take] at le
    omega
  have pass : ∀ byte ∈ text, (!stop byte) = true := by
    intro byte taken
    rw [← whole] at taken
    exact List.mem_takeWhile_imp (p := fun byte => !stop byte) taken
  unfold token
  rw [List.take_append, List.take_of_length_le short, List.takeWhile_append_of_pos pass]

theorem token_eq_self_of_drop {limit : Nat} {stop : UInt8 → Bool} {text : Bytes}
    (reached : text.drop (token limit stop text).length = []) : token limit stop text = text := by
  have length := List.drop_eq_nil_iff.mp reached
  exact (token_isPrefix _ _ _).eq_of_length
    (Nat.le_antisymm (token_isPrefix _ _ _).length_le length)

theorem cstr_append_of_mem {text : Bytes} (nul : 0 ∈ text) (more : Bytes) :
    cstr (text ++ more) = cstr text := by
  unfold cstr
  apply takeWhile_append_of_dropWhile_ne_nil
  intro empty
  have nonzero := List.dropWhile_eq_nil_iff.mp empty 0 nul
  simp at nonzero

/-- A stop inside the text ends the loop inside it. -/
theorem length_token_lt {limit : Nat} {stop : UInt8 → Bool} {text : Bytes} {byte : UInt8}
    (member : byte ∈ text) (stops : stop byte = true) : (token limit stop text).length < text.length := by
  have le := (token_isPrefix limit stop text).length_le
  by_contra whole
  have same := (token_isPrefix limit stop text).eq_of_length (by omega)
  rw [← same] at member
  have passed := List.mem_takeWhile_imp member
  rw [stops] at passed
  contradiction

theorem cstr_queryOf_append {text : Bytes} (nonempty : text ≠ []) (settled : QuerySettled text)
    (more : Bytes) : cstr (queryOf (text ++ more)) = cstr (queryOf text) := by
  obtain ⟨byte, rest, shape⟩ := List.exists_cons_of_ne_nil nonempty
  rw [shape, List.cons_append]
  by_cases mark : byte = 63
  · rw [mark] at shape ⊢
    show cstr (token 511 queryStop (rest ++ more)) = cstr (token 511 queryStop rest)
    by_cases long : 511 ≤ rest.length
    · rw [token_append (Or.inr long)]
    · obtain ⟨stop, member, ends⟩ := (settled rest shape).resolve_left long
      by_cases inside : (token 511 queryStop rest).length < rest.length
      · rw [token_append (Or.inl inside)]
      · -- The loop runs on, but a C string ends at the NUL inside the data.
        have whole : token 511 queryStop rest = rest :=
          (token_isPrefix _ _ _).eq_of_length
            (Nat.le_antisymm (token_isPrefix _ _ _).length_le (by omega))
        have nul : 0 ∈ rest := by
          rcases ends with stops | nul
          · exact absurd (length_token_lt member stops) inside
          · rwa [nul] at member
        rw [token_append_self whole, whole, cstr_append_of_mem nul]
  · have none : ∀ behind, queryOf (byte :: behind) = [] := by
      intro behind
      simp [queryOf, mark]
    rw [none, none]

/-! ### Settled messages -/

theorem bodyCopy_le (contentLength : Nat) : bodyCopy contentLength ≤ contentLength := by
  unfold bodyCopy bodyBufSize
  split
  · exact Nat.le_refl _
  · omega

/-- The copied body lies inside a buffer that holds all of it. -/
theorem body_append {buf : Bytes} {hlen : Nat} (found : findHeaderEnd buf = some hlen)
    {contentLength : Nat} (enough : ¬ (0 < contentLength ∧ buf.length - hlen < contentLength))
    (more : Bytes) :
    ((buf ++ more).drop hlen).take (bodyCopy contentLength) =
      (buf.drop hlen).take (bodyCopy contentLength) := by
  have copied := bodyCopy_le contentLength
  rw [List.drop_append_of_le_length (findHeaderEnd_bounds found).2, List.take_append_of_le_length]
  rw [List.length_drop]
  omega

/-- What a complete request is made of. -/
theorem httpParseRequest_inversion {buf : Bytes} {req : HttpRequest}
    (parsed : httpParseRequest buf = .complete req) :
    ∃ hlen, findHeaderEnd buf = some hlen ∧
      ¬ (0 < parseContentLength buf hlen ∧ buf.length - hlen < parseContentLength buf hlen) ∧
      req =
        { method := cstr (token 7 methodStop (memory buf))
          path := cstr (token 255 pathStop (afterMethod (memory buf)))
          query := cstr (queryOf (afterPath (memory buf)))
          body := (buf.drop hlen).take (bodyCopy (parseContentLength buf hlen))
          contentLength := parseContentLength buf hlen } := by
  unfold httpParseRequest at parsed
  split at parsed
  · contradiction
  · rename_i hlen found
    dsimp only at parsed
    split at parsed
    · contradiction
    · rename_i enough
      injection parsed with same
      exact ⟨hlen, found, enough, same.symm⟩

/-- What a complete response is made of. -/
theorem httpParseResponse_inversion {buf : Bytes} {resp : HttpResponse}
    (parsed : httpParseResponse buf = .complete resp) :
    ∃ hlen, findHeaderEnd buf = some hlen ∧ 12 ≤ buf.length ∧
      ¬ (0 < parseContentLength buf hlen ∧ buf.length - hlen < parseContentLength buf hlen) ∧
      resp =
        { statusCode := atoi (buf.drop 9)
          body := (buf.drop hlen).take (bodyCopy (parseContentLength buf hlen))
          contentLength := parseContentLength buf hlen } := by
  unfold httpParseResponse at parsed
  split at parsed
  · contradiction
  · rename_i hlen found
    split at parsed
    · contradiction
    · rename_i long
      dsimp only at parsed
      split at parsed
      · contradiction
      · rename_i enough
        injection parsed with same
        exact ⟨hlen, found, Nat.le_of_not_lt long, enough, same.symm⟩

/-- A settled request is the same in a longer buffer. -/
theorem httpParseRequest_append {buf : Bytes} {req : HttpRequest}
    (parsed : httpParseRequest buf = .complete req) (settled : RequestSettled buf) (more : Bytes) :
    httpParseRequest (buf ++ more) = .complete req := by
  obtain ⟨hlen, found, enough, same⟩ := httpParseRequest_inversion parsed
  have header := findHeaderEnd_append found more
  have length := parseContentLength_append found settled.length more
  have longer : memory (buf ++ more) = buf ++ (more ++ List.replicate 1024 0) := by
    unfold memory
    rw [List.append_assoc]
  have enough' : ¬ (0 < parseContentLength buf hlen ∧
      (buf ++ more).length - hlen < parseContentLength buf hlen) := by
    rw [List.length_append]
    omega
  obtain ⟨method, path, rest⟩ := afterPath_append settled.path (List.replicate 1024 0)
  obtain ⟨method', path', rest'⟩ := afterPath_append settled.path (more ++ List.replicate 1024 0)
  unfold httpParseRequest
  rw [header]
  dsimp only
  rw [length, if_neg enough', same, longer, body_append found enough]
  unfold memory
  rw [method, method', path, path', rest, rest', cstr_queryOf_append settled.path settled.query,
    cstr_queryOf_append settled.path settled.query]

theorem atoi_append_of_settled {text : Bytes} (settled : StatusSettled text) (more : Bytes) :
    atoi (text ++ more) = atoi text := by
  by_cases left : strtolRest text ≠ []
  · exact atoi_append left more
  · rw [not_not] at left
    obtain ⟨large, saturated⟩ := settled.resolve_left (not_not.mpr left)
    have filled := strtol_of_filled left
    have digitsFirst : more = more.takeWhile isDigit ++ more.dropWhile isDigit :=
      List.takeWhile_append_dropWhile.symm
    have stops : ∀ byte, (more.dropWhile isDigit).head? = some byte → isDigit byte = false := by
      intro byte head
      have passed := List.head?_dropWhile_not isDigit more
      rw [head] at passed
      simpa using passed
    cases digits : more.takeWhile isDigit with
    | nil =>
        have solid : text.dropWhile isSpace ≠ [] := by
          apply solid_of_signedDigits
          intro empty
          rw [empty] at large
          exact absurd large (by decide)
        have split := signedDigits_append solid more
        unfold atoi strtol
        rw [split]
        dsimp only
        rw [List.takeWhile_append_of_pos (List.dropWhile_eq_nil_iff.mp left), digits,
          List.append_nil, List.takeWhile_eq_self_iff.mpr (List.dropWhile_eq_nil_iff.mp left)]
    | cons digit others =>
        have isDigits : ∀ byte ∈ more.takeWhile isDigit, isDigit byte = true :=
          fun byte member => List.mem_takeWhile_imp member
        have nonempty : more.takeWhile isDigit ≠ [] := by simp [digits]
        have read := strtol_append_digits left nonempty isDigits (more.dropWhile isDigit) stops
        rw [← digitsFirst] at read
        have beyond : longMax <
            digitsValue (digitsValue 0 (signedDigits text).2) (more.takeWhile isDigit) := by
          rw [digits]
          have grows := (le_digitsValue (Nat.le_refl
            (digitsValue 0 (signedDigits text).2 * 10 + (digit.toNat - 48))) others).2
          show longMax < digitsValue (digitsValue 0 (signedDigits text).2 * 10 +
            (digit.toNat - 48)) others
          omega
        rw [saturated]
        unfold atoi
        rw [read]
        unfold clamp
        rw [Nat.min_eq_right (by omega), Nat.min_eq_right (by omega)]
        cases (signedDigits text).1 with
        | true => decide
        | false => decide

/-- A settled response is the same in a longer buffer. -/
theorem httpParseResponse_append {buf : Bytes} {resp : HttpResponse}
    (parsed : httpParseResponse buf = .complete resp) (settled : ResponseSettled buf) (more : Bytes) :
    httpParseResponse (buf ++ more) = .complete resp := by
  obtain ⟨hlen, found, long, enough, same⟩ := httpParseResponse_inversion parsed
  have header := findHeaderEnd_append found more
  have length := parseContentLength_append found settled.length more
  have enough' : ¬ (0 < parseContentLength buf hlen ∧
      (buf ++ more).length - hlen < parseContentLength buf hlen) := by
    rw [List.length_append]
    omega
  have long' : ¬ (buf ++ more).length < 12 := by
    rw [List.length_append]
    omega
  have status := atoi_append_of_settled settled.status more
  unfold httpParseResponse
  rw [header]
  dsimp only
  rw [if_neg long', length, if_neg enough', same, body_append found enough,
    List.drop_append_of_le_length (by omega), status]

/-! ### Messages that are not settled -/

/-- Twenty nines, more than a `long` holds. -/
def nines : Bytes := List.replicate 20 57

/-- A Content-Length that fills its buffer becomes larger than any body. -/
theorem parseContentLength_nines {buf : Bytes} {hlen : Nat} (found : findHeaderEnd buf = some hlen)
    {text : Bytes} (line : lengthTextFrom true hlen buf = some text)
    (filled : strtolRest text = []) : 2 ^ 63 - 1 ≤ parseContentLength (buf ++ nines) hlen := by
  obtain ⟨front, body, shape, length⟩ := split_of_findHeaderEnd found
  have longer := lengthTextFrom_append true front body nines
  rw [← shape, ← length, line] at longer
  have isDigits : ∀ byte ∈ nines, isDigit byte = true := forall_mem_of_all (by decide)
  have read := strtol_append_digits filled (by decide) isDigits [] (by simp)
  rw [List.append_nil] at read
  have large : 10 ^ 20 - 1 ≤ digitsValue (digitsValue 0 (signedDigits text).2) nines := by
    have grows := (le_digitsValue (Nat.zero_le (digitsValue 0 (signedDigits text).2)) nines).1
    have value : digitsValue 0 nines = 10 ^ 20 - 1 := by decide
    omega
  unfold parseContentLength
  rw [contentLengthFrom_eq, longer, Option.map_some, Option.map_some, Option.getD_some, read]
  unfold clamp longMax
  rw [Nat.min_eq_right (by omega), Nat.min_eq_right (by omega)]
  cases (signedDigits text).1 with
  | true => decide
  | false => decide

/-- A buffer that fits in memory, with an unsettled Content-Length, can become
incomplete. -/
theorem more_of_not_lengthSettled {buf : Bytes} (inMemory : buf.length < 2 ^ 62)
    (open_ : ¬ LengthSettled buf) :
    httpParseRequest (buf ++ nines) = .more ∧
      (12 ≤ buf.length → httpParseResponse (buf ++ nines) = .more) := by
  unfold LengthSettled at open_
  push Not at open_
  obtain ⟨hlen, found, text, line, filled⟩ := open_
  have header := findHeaderEnd_append found nines
  have large := parseContentLength_nines found line filled
  have short : 0 < parseContentLength (buf ++ nines) hlen ∧
      (buf ++ nines).length - hlen < parseContentLength (buf ++ nines) hlen := by
    have size : nines.length = 20 := rfl
    rw [List.length_append]
    omega
  constructor
  · unfold httpParseRequest
    rw [header]
    exact if_pos short
  · intro long
    have long' : ¬ (buf ++ nines).length < 12 := by
      rw [List.length_append]
      omega
    unfold httpParseResponse
    rw [header]
    dsimp only
    rw [if_neg long', if_pos short]

theorem afterPath_isSuffix (text : Bytes) : afterPath text <:+ afterMethod text :=
  List.drop_suffix _ _

/-- Where the path loop reaches the end of the data, it ends in what follows. -/
theorem afterPath_of_reached {buf : Bytes} (reached : afterPath buf = []) (more : Bytes) :
    afterPath (buf ++ more) <:+ more := by
  by_cases spaces : afterMethod buf = []
  · refine (afterPath_isSuffix _).trans ?_
    unfold afterMethod at spaces ⊢
    by_cases method : buf.drop (token 7 methodStop buf).length = []
    · have whole := token_eq_self_of_drop method
      rw [token_append_self whole, List.length_append, ← List.drop_drop, List.drop_left]
      exact (List.dropWhile_suffix _).trans (List.drop_suffix _ _)
    · obtain ⟨_, dropped⟩ := drop_token_append method more
      rw [dropped, List.dropWhile_append_of_pos (List.dropWhile_eq_nil_iff.mp spaces)]
      exact List.dropWhile_suffix _
  · have split := afterMethod_append spaces more
    unfold afterPath at reached ⊢
    rw [split.2, token_append_self (token_eq_self_of_drop reached), List.length_append,
      ← List.drop_drop, List.drop_left]
    exact List.drop_suffix _ _

theorem memory_append (buf more : Bytes) : memory (buf ++ more) = buf ++ memory more :=
  List.append_assoc _ _ _

/-- Then the query is empty. -/
theorem queryOf_of_reached {buf : Bytes} (reached : afterPath buf = []) :
    queryOf (afterPath (memory buf)) = [] := by
  have suffix := afterPath_of_reached reached (List.replicate 1024 0)
  cases shape : afterPath (memory buf) with
  | nil => rfl
  | cons byte rest =>
      have member : byte ∈ List.replicate 1024 (0 : UInt8) := by
        apply suffix.subset
        show byte ∈ afterPath (memory buf)
        rw [shape]
        exact List.mem_cons_self
      rw [List.eq_of_mem_replicate member]
      rfl

/-- Some letters, and a query of one letter. -/
def asking (letters : Nat) (rest : Bytes) : Bytes :=
  List.replicate letters 65 ++ 63 :: 120 :: 32 :: rest

theorem pathStop_mark (limit : Nat) (rest : Bytes) : token limit pathStop (63 :: rest) = [] := by
  unfold token
  cases limit with
  | zero => rfl
  | succ limit => rw [List.take_succ_cons, List.takeWhile_cons_of_neg (by decide)]

/-- Letters up to the limit of a loop that takes them. -/
theorem token_letters {limit letters : Nat} {stop : UInt8 → Bool} (pass : stop 65 = false)
    (few : letters ≤ limit) : token limit stop (List.replicate letters 65) =
      List.replicate letters 65 := by
  unfold token
  rw [List.take_of_length_le (by rw [List.length_replicate]; exact few),
    List.takeWhile_eq_self_iff]
  intro byte member
  rw [List.eq_of_mem_replicate member, pass]
  rfl

theorem queryOf_asking {letters : Nat} (few : letters ≤ 255) (rest : Bytes) :
    queryOf ((asking letters rest).drop (token 255 pathStop (asking letters rest)).length) =
      [120] := by
  unfold asking
  rw [token_append_self (token_letters (by decide) few), pathStop_mark, List.append_nil,
    List.drop_left]
  rfl

theorem dropWhile_asking (letters : Nat) (rest : Bytes) :
    (asking letters rest).dropWhile (· = 32) = asking letters rest := by
  unfold asking
  cases letters with
  | zero => exact List.dropWhile_cons_of_neg (by decide)
  | succ letters =>
      rw [List.replicate_succ, List.cons_append]
      exact List.dropWhile_cons_of_neg (by decide)

/-- The method loop takes some of seven letters. -/
theorem drop_method_asking {limit : Nat} (below : limit ≤ 7) (rest : Bytes) :
    (asking 7 rest).drop (token limit methodStop (asking 7 rest)).length =
      asking (7 - limit) rest := by
  have split : asking 7 rest = List.replicate limit 65 ++ asking (7 - limit) rest := by
    unfold asking
    rw [← List.append_assoc, ← List.replicate_add, Nat.add_sub_cancel' below]
  have taken : token limit methodStop (asking 7 rest) = List.replicate limit 65 := by
    rw [split, token_append_self (token_letters (by decide) (Nat.le_refl limit)),
      List.length_replicate, Nat.sub_self]
    exact List.append_nil _
  rw [taken, split, List.drop_left]

/-- A question mark behind the end of the data starts a query. -/
theorem exists_query_of_reached {buf : Bytes} (reached : afterPath buf = []) :
    ∃ more, queryOf (afterPath (memory (buf ++ more))) = [120] := by
  by_cases spaces : afterMethod buf = []
  · -- The method loop or the spaces reach the end: seven letters go on with them.
    refine ⟨asking 7 [], ?_⟩
    have longer : memory (buf ++ asking 7 []) = buf ++ asking 7 (List.replicate 1024 0) := by
      rw [memory_append]
      rfl
    rw [longer]
    unfold afterPath
    unfold afterMethod at spaces ⊢
    by_cases method : buf.drop (token 7 methodStop buf).length = []
    · have whole := token_eq_self_of_drop method
      rw [token_append_self whole, List.length_append, ← List.drop_drop, List.drop_left,
        drop_method_asking (Nat.sub_le 7 _), dropWhile_asking]
      exact queryOf_asking (by omega) _
    · obtain ⟨_, dropped⟩ := drop_token_append method (asking 7 (List.replicate 1024 0))
      rw [dropped, List.dropWhile_append_of_pos (List.dropWhile_eq_nil_iff.mp spaces),
        dropWhile_asking]
      exact queryOf_asking (by decide) _
  · refine ⟨asking 0 [], ?_⟩
    have longer : memory (buf ++ asking 0 []) = buf ++ asking 0 (List.replicate 1024 0) := by
      rw [memory_append]
      rfl
    have split := afterMethod_append spaces (asking 0 (List.replicate 1024 0))
    have mark : asking 0 (List.replicate 1024 0) = 63 :: 120 :: 32 :: List.replicate 1024 0 := rfl
    unfold afterPath at reached ⊢
    rw [longer, split.2, token_append_self (token_eq_self_of_drop reached), mark, pathStop_mark,
      List.append_nil, List.drop_left]
    rfl

theorem cstr_append_of_notMem {text : Bytes} (clean : 0 ∉ text) (rest : Bytes) :
    cstr (text ++ rest) = text ++ cstr rest := by
  unfold cstr
  rw [List.takeWhile_append_of_pos]
  intro byte member
  simpa using ne_of_mem_of_not_mem member clean

/-- A query that reaches the end of the data goes on with what follows. -/
theorem query_of_not_querySettled {buf : Bytes} (left : afterPath buf ≠ [])
    (open_ : ¬ QuerySettled (afterPath buf)) :
    cstr (queryOf (afterPath (memory (buf ++ [120])))) ≠ cstr (queryOf (afterPath (memory buf))) := by
  unfold QuerySettled at open_
  push Not at open_
  obtain ⟨rest, shape, short, plain⟩ := open_
  have whole : token 511 queryStop rest = rest := by
    unfold token
    rw [List.take_of_length_le (by omega), List.takeWhile_eq_self_iff]
    intro byte member
    rw [Bool.eq_false_iff.mpr (plain byte member).1]
    rfl
  have clean : 0 ∉ rest := fun member => (plain 0 member).2 rfl
  have read : ∀ byte behind, queryStop byte = false →
      cstr (queryOf (afterPath (buf ++ byte :: behind))) =
        rest ++ cstr (byte :: token (510 - rest.length) queryStop behind) := by
    intro byte behind pass
    obtain ⟨-, -, split⟩ := afterPath_append left (byte :: behind)
    have room : 511 - rest.length = 510 - rest.length + 1 := by omega
    have first : token (511 - rest.length) queryStop (byte :: behind) =
        byte :: token (510 - rest.length) queryStop behind := by
      unfold token
      rw [room, List.take_succ_cons, List.takeWhile_cons_of_pos (by rw [pass]; rfl)]
    rw [split, shape, List.cons_append]
    show cstr (token 511 queryStop (rest ++ byte :: behind)) = _
    rw [token_append_self whole, first, cstr_append_of_notMem clean]
  have longer : memory (buf ++ [120]) = buf ++ 120 :: List.replicate 1024 0 := memory_append _ _
  have zeros : memory buf = buf ++ 0 :: List.replicate 1023 0 := rfl
  rw [longer, zeros, read 120 _ (by decide), read 0 _ (by decide)]
  intro same
  have ends := List.append_cancel_left same
  unfold cstr at ends
  rw [List.takeWhile_cons_of_pos (by decide), List.takeWhile_cons_of_neg (by decide)] at ends
  contradiction

/-- The ints that two numbers are read as differ when the numbers do by one. -/
theorem clamp_succ_ne (negative : Bool) {value : Nat} (small : value + 1 ≤ longMax) :
    Int.bmod (clamp negative value) (2 ^ 32) ≠ Int.bmod (clamp negative (value + 1)) (2 ^ 32) := by
  rw [clamp_of_le (by omega), clamp_of_le small]
  intro same
  have congruent := Int.bmod_eq_bmod_iff_bmod_sub_eq_zero.mp same
  cases negative with
  | true =>
      have one : -(value : Int) - -((value + 1 : Nat) : Int) = 1 := by omega
      simp only [if_true] at congruent
      rw [one] at congruent
      exact absurd congruent (by decide)
  | false =>
      have one : (value : Int) - ((value + 1 : Nat) : Int) = -1 := by omega
      simp only [Bool.false_eq_true, if_false] at congruent
      rw [one] at congruent
      exact absurd congruent (by decide)

/-- A number that is not settled can be read as another one. -/
theorem atoi_of_not_statusSettled {text : Bytes} (open_ : ¬ StatusSettled text) :
    ∃ more, atoi (text ++ more) ≠ atoi text := by
  unfold StatusSettled at open_
  rw [not_or, not_not, not_and] at open_
  obtain ⟨filled, unsaturated⟩ := open_
  generalize value_eq : digitsValue 0 (signedDigits text).2 = value at unsaturated
  have read : ∀ digit, isDigit digit = true → atoi (text ++ [digit]) =
      Int.bmod (clamp (signedDigits text).1 (value * 10 + (digit.toNat - 48))) (2 ^ 32) := by
    intro digit isDigit'
    have number := strtol_append_digits filled (List.cons_ne_nil digit [])
      (by simpa using isDigit') [] (by simp)
    rw [List.append_nil] at number
    unfold atoi
    rw [number, value_eq]
    rfl
  by_cases large : longMax < value * 10
  · refine ⟨[48], ?_⟩
    have limit : atoi (text ++ [48]) = if (signedDigits text).1 then 0 else -1 := by
      rw [read 48 (by decide)]
      unfold clamp
      rw [Nat.min_eq_right (by omega), Nat.min_eq_right (by omega)]
      cases (signedDigits text).1 with
      | true => decide
      | false => decide
    rw [limit]
    exact Ne.symm (unsaturated large)
  · have room : value * 10 + 1 ≤ longMax := by
      unfold longMax at large ⊢
      omega
    have differ := clamp_succ_ne (signedDigits text).1 room
    by_cases zero : atoi (text ++ [48]) = atoi text
    · refine ⟨[49], ?_⟩
      rw [← zero, read 48 (by decide), read 49 (by decide)]
      exact Ne.symm differ
    · exact ⟨[48], zero⟩

/-! ### The first request of a connection -/

/-- `on_client_read_cb` from read to read, up to the call of the request
handler. An empty read is the end of the stream, which frees the connection. -/
def firstRequest : Bytes → List Bytes → Option HttpRequest
  | _, [] => none
  | rbuf, chunk :: chunks =>
      if chunk = [] then none
      else
        match httpParseRequest (rbuf ++ chunk) with
        | .more => firstRequest (rbuf ++ chunk) chunks
        | .bad => none
        | .complete req => some req

/-- A stream whose complete beginnings are all settled. -/
def StreamSettled (bytes : Bytes) : Prop :=
  ∀ front, front <+: bytes → ∀ req, httpParseRequest front = .complete req → RequestSettled front

theorem httpParseRequest_ne_bad (buf : Bytes) : httpParseRequest buf ≠ .bad := by
  unfold httpParseRequest
  split
  · exact fun same => by contradiction
  · dsimp only
    split
    · exact fun same => by contradiction
    · exact fun same => by contradiction

/-- However the stream is cut, the handler is given what all of it parses as. -/
theorem firstRequest_eq {rbuf : Bytes} {chunks : List Bytes} (waits : httpParseRequest rbuf = .more)
    (nonempty : ∀ chunk ∈ chunks, chunk ≠ []) (settled : StreamSettled (rbuf ++ chunks.flatten))
    (req : HttpRequest) :
    firstRequest rbuf chunks = some req ↔
      httpParseRequest (rbuf ++ chunks.flatten) = .complete req := by
  induction chunks generalizing rbuf with
  | nil =>
      rw [List.flatten_nil, List.append_nil, waits]
      simp [firstRequest]
  | cons chunk chunks inductionHypothesis =>
      have whole : rbuf ++ (chunk :: chunks).flatten = rbuf ++ chunk ++ chunks.flatten := by simp
      rw [whole] at settled ⊢
      rw [firstRequest, if_neg (nonempty chunk List.mem_cons_self)]
      cases parsed : httpParseRequest (rbuf ++ chunk) with
      | more =>
          exact inductionHypothesis parsed
            (fun other member => nonempty other (List.mem_cons_of_mem _ member)) settled
      | bad => exact absurd parsed (httpParseRequest_ne_bad _)
      | complete found =>
          have stays := httpParseRequest_append parsed
            (settled _ (List.prefix_append _ _) found parsed) chunks.flatten
          rw [stays]
          simp

theorem firstRequest_cut {bytes : Bytes} (settled : StreamSettled bytes)
    {chunks others : List Bytes} (cut : chunks.flatten = bytes) (cut' : others.flatten = bytes)
    (nonempty : ∀ chunk ∈ chunks, chunk ≠ []) (nonempty' : ∀ chunk ∈ others, chunk ≠ []) :
    firstRequest [] chunks = firstRequest [] others := by
  have waits : httpParseRequest [] = .more := rfl
  have read := firstRequest_eq waits nonempty (by rwa [List.nil_append, cut])
  have read' := firstRequest_eq waits nonempty' (by rwa [List.nil_append, cut'])
  apply Option.ext
  intro req
  rw [read, read', cut, cut']

/-! ### Exactness -/

theorem keepsRequest_iff {buf : Bytes} (inMemory : buf.length < 2 ^ 62) :
    KeepsRequest buf ↔ ∀ req, httpParseRequest buf = .complete req → RequestSettled buf := by
  constructor
  · intro keeps req parsed
    have fields := httpParseRequest_inversion parsed
    obtain ⟨hlen, found, enough, same⟩ := fields
    have path : afterPath buf ≠ [] := by
      intro reached
      obtain ⟨more, asked⟩ := exists_query_of_reached reached
      obtain ⟨later, parsed', -, -, query, -⟩ := keeps req parsed more
      obtain ⟨_, -, -, same'⟩ := httpParseRequest_inversion parsed'
      rw [same, same'] at query
      dsimp only at query
      rw [asked, queryOf_of_reached reached] at query
      exact absurd query (by decide)
    refine ⟨path, ?_, ?_⟩
    · by_contra open_
      obtain ⟨later, parsed', -, -, query, -⟩ := keeps req parsed [120]
      obtain ⟨_, -, -, same'⟩ := httpParseRequest_inversion parsed'
      rw [same, same'] at query
      exact query_of_not_querySettled path open_ query
    · by_contra open_
      obtain ⟨later, parsed', -⟩ := keeps req parsed nines
      rw [(more_of_not_lengthSettled inMemory open_).1] at parsed'
      contradiction
  · intro settled req parsed more
    exact ⟨req, httpParseRequest_append parsed (settled req parsed) more, rfl, rfl, rfl, rfl⟩

theorem keepsResponse_iff {buf : Bytes} (inMemory : buf.length < 2 ^ 62) :
    KeepsResponse buf ↔ ∀ resp, httpParseResponse buf = .complete resp → ResponseSettled buf := by
  constructor
  · intro keeps resp parsed
    obtain ⟨hlen, found, long, enough, same⟩ := httpParseResponse_inversion parsed
    constructor
    · by_contra open_
      obtain ⟨more, differs⟩ := atoi_of_not_statusSettled open_
      obtain ⟨later, parsed', status, -⟩ := keeps resp parsed more
      obtain ⟨_, -, -, -, same'⟩ := httpParseResponse_inversion parsed'
      rw [same, same'] at status
      dsimp only at status
      rw [List.drop_append_of_le_length (by omega)] at status
      exact differs status
    · by_contra open_
      obtain ⟨later, parsed', -⟩ := keeps resp parsed nines
      rw [(more_of_not_lengthSettled inMemory open_).2 long] at parsed'
      contradiction
  · intro settled resp parsed more
    exact ⟨resp, httpParseResponse_append parsed (settled resp parsed) more, rfl, rfl⟩

/-- Parsing does not depend on how the stream is cut exactly for the messages
that are settled; a settled stream gives the handler one first request. -/
theorem parsing_keeps_iff_settled (buf : Bytes) :
    (buf.length < 2 ^ 62 →
      (KeepsRequest buf ↔ ∀ req, httpParseRequest buf = .complete req → RequestSettled buf) ∧
      (KeepsResponse buf ↔ ∀ resp, httpParseResponse buf = .complete resp → ResponseSettled buf)) ∧
    ∀ chunks others : List Bytes, StreamSettled buf →
      chunks.flatten = buf → others.flatten = buf →
      (∀ chunk ∈ chunks, chunk ≠ []) → (∀ chunk ∈ others, chunk ≠ []) →
        firstRequest [] chunks = firstRequest [] others := by
  refine ⟨fun inMemory => ⟨keepsRequest_iff inMemory, keepsResponse_iff inMemory⟩, ?_⟩
  intro chunks others settled cut cut' nonempty nonempty'
  exact firstRequest_cut settled cut cut' nonempty nonempty'

/-- A request with an empty header block, and nothing behind it. -/
def plainRequest : Bytes := ascii "GET /lookup?name=bob HTTP/1.1\r\n\r\n"

theorem parsing_keeps_iff_settled_plainRequest :
    KeepsRequest plainRequest ↔
      ∀ req, httpParseRequest plainRequest = .complete req → RequestSettled plainRequest :=
  ((parsing_keeps_iff_settled plainRequest).1 (by decide)).1

/-- A request whose lines end with bare LF is another one when a byte follows. -/
theorem not_keepsRequest : ¬ ∀ buf, KeepsRequest buf := by
  intro claim
  have parsed : ∃ req, httpParseRequest (ascii "GET /lookup?name=bob\n\n") = .complete req ∧
      req.query = ascii "name=bob\n\n" := ⟨_, rfl, by decide +kernel⟩
  have parsed' : ∃ req, httpParseRequest (ascii "GET /lookup?name=bob\n\n" ++ ascii "x") =
      .complete req ∧ req.query = ascii "name=bob\n\nx" := ⟨_, rfl, by decide +kernel⟩
  obtain ⟨req, parsed, query⟩ := parsed
  obtain ⟨req', parsed', query'⟩ := parsed'
  obtain ⟨later, same, -, -, kept, -⟩ := claim _ req parsed (ascii "x")
  rw [parsed'] at same
  injection same with same
  rw [← same, query, query'] at kept
  exact absurd kept (by decide)

end MiniMs.Http
