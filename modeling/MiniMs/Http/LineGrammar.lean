import MiniMs.Http.RequestLine

/-!
The request line by its grammar: a method, a target and a version with single
spaces between them.

Owns: the first line of a buffer, the tokens that it can be made of, the bytes
that the three loops of `http_parse_request` look at, the property that the
fields come from the tokens of the first line or the request is not accepted,
and the exact condition on the buffer for it.
-/

namespace MiniMs.Http

open MiniMs.Dpumesh MiniMs.Library.Text MiniMs.Library.Number

/-! ### The grammar -/

/-- What stands in front of the first CR or LF. -/
def firstLine (buf : Bytes) : Bytes := buf.takeWhile fun byte => byte ≠ 13 ∧ byte ≠ 10

/-- Text without blanks. -/
def Token (text : Bytes) : Prop := text ≠ [] ∧ ∀ byte ∈ text, byte ≠ 32 ∧ byte ≠ 0

/-- The target in front of its first `?`. -/
def targetPath (target : Bytes) : Bytes := target.takeWhile (· ≠ 63)

/-- The target behind its first `?`. -/
def targetQuery (target : Bytes) : Bytes := (target.dropWhile (· ≠ 63)).drop 1

/-- The tokens of a request line, of the lengths that the fields have room for. -/
structure RequestTokens where
  method : Bytes
  target : Bytes
  version : Bytes
  method_token : Token method
  target_token : Token target
  version_token : Token version
  method_fits : method.length ≤ 7
  path_fits : (targetPath target).length ≤ 255
  query_fits : (targetQuery target).length ≤ 511

/-- METHOD SP target SP version. -/
def RequestTokens.text (tokens : RequestTokens) : Bytes :=
  tokens.method ++ 32 :: (tokens.target ++ 32 :: tokens.version)

/-- The first line of a buffer is such a line. -/
def WellFormed (buf : Bytes) : Prop := ∃ tokens : RequestTokens, firstLine buf = tokens.text

/-! ### What the loops read -/

/-- The fields `method`, `path` and `query` behind the loops, as C strings. -/
def lineFields (buf : Bytes) : Bytes × Bytes × Bytes :=
  (cstr (token 7 methodStop (memory buf)), cstr (token 255 pathStop (afterMethod (memory buf))),
    cstr (queryOf (afterPath (memory buf))))

/-- The text from the byte on that the last test reads. -/
def lastTest (text : Bytes) : Bytes :=
  match afterPath text with
  | 63 :: rest => rest.drop (token 511 queryStop rest).length
  | rest => rest

/-- The index of the last byte that is read for the request line. Every test of a
loop reads the byte at its cursor, and the cursor never moves back. -/
def lastRead (buf : Bytes) : Nat := (memory buf).length - (lastTest (memory buf)).length

/-- The request line is parsed by its grammar: nothing is read at or behind the
end of the data, the fields are the tokens of a well-formed line, and any other
line is not accepted. -/
structure LineParsed (buf : Bytes) : Prop where
  inside : lastRead buf < buf.length
  fields : ∀ tokens : RequestTokens, firstLine buf = tokens.text →
    lineFields buf = (tokens.method, targetPath tokens.target, targetQuery tokens.target)
  refused : ¬ WellFormed buf → ∀ req, httpParseRequest buf ≠ .complete req

/-- An accepted request has the fields of the line. -/
theorem httpParseRequest_lineFields {buf : Bytes} {req : HttpRequest}
    (complete : httpParseRequest buf = .complete req) :
    (req.method, req.path, req.query) = lineFields buf := by
  obtain ⟨hlen, -, -, same⟩ := httpParseRequest_inversion complete
  rw [same]
  rfl

/-! ### The condition -/

/-- A stretch that a loop passes over, and the byte that ends it: a stop, or any
byte behind `limit` others. -/
def Passes (limit : Nat) (stop : UInt8 → Bool) (stretch rest : Bytes) : Prop :=
  (∀ byte ∈ stretch, stop byte = false) ∧ stretch.length ≤ limit ∧
    ∃ byte, rest.head? = some byte ∧ (stretch.length < limit → stop byte = true)

/-- The buffer holds a byte at which each of the loops ends. -/
def StaysInside (buf : Bytes) : Prop :=
  ∃ method gap path rest, buf = method ++ (gap ++ (path ++ rest)) ∧
    Passes 7 methodStop method (gap ++ (path ++ rest)) ∧ (∀ byte ∈ gap, byte = 32) ∧
    (path ++ rest).head? ≠ some 32 ∧ Passes 255 pathStop path rest ∧
    ∀ behind, rest = 63 :: behind →
      ∃ query more, behind = query ++ more ∧ Passes 511 queryStop query more

/-- A body is announced that is not there as a whole. -/
def BodyMissing (buf : Bytes) (hlen : Nat) : Prop :=
  0 < parseContentLength buf hlen ∧ buf.length - hlen < parseContentLength buf hlen

theorem passes_iff {limit : Nat} {stop : UInt8 → Bool} {stretch rest : Bytes} :
    Passes limit stop stretch rest ↔
      token limit stop (stretch ++ rest) = stretch ∧ rest ≠ [] := by
  unfold Passes
  constructor
  · rintro ⟨plain, short, byte, head, stops⟩
    cases rest with
    | nil => contradiction
    | cons first rest =>
        obtain rfl : first = byte := Option.some.inj head
        refine ⟨?_, List.cons_ne_nil _ _⟩
        by_cases full : stretch.length < limit
        · exact token_stop plain short (stops full) rest
        · have whole : limit = stretch.length := by omega
          unfold token
          rw [whole, List.take_left, List.takeWhile_eq_self_iff]
          intro byte member
          rw [plain byte member]
          rfl
  · rintro ⟨taken, nonempty⟩
    obtain ⟨first, rest, rfl⟩ := List.exists_cons_of_ne_nil nonempty
    have plain : ∀ byte ∈ stretch, stop byte = false := by
      intro byte member
      rw [← taken] at member
      simpa using List.mem_takeWhile_imp member
    have short : stretch.length ≤ limit := by
      have le := congrArg List.length taken
      unfold token at le
      have fewer := (List.takeWhile_prefix (fun byte => !stop byte)
        (l := (stretch ++ first :: rest).take limit)).length_le
      rw [List.length_take] at fewer
      omega
    refine ⟨plain, short, first, rfl, fun full => ?_⟩
    by_contra passed
    -- Otherwise the loop takes the next byte, too.
    obtain ⟨count, count_eq⟩ : ∃ count, limit - stretch.length = count + 1 :=
      ⟨limit - stretch.length - 1, by omega⟩
    have pass : ∀ byte ∈ stretch, (!stop byte) = true := by
      intro byte member
      rw [plain byte member]
      rfl
    unfold token at taken
    rw [List.take_append, List.take_of_length_le short, count_eq, List.take_succ_cons,
      List.takeWhile_append_of_pos pass, List.takeWhile_cons_of_pos (by simpa using passed)] at taken
    have lengths := congrArg List.length taken
    simp at lengths

theorem Passes.append {limit : Nat} {stop : UInt8 → Bool} {stretch rest : Bytes}
    (passes : Passes limit stop stretch rest) (more : Bytes) :
    Passes limit stop stretch (rest ++ more) := by
  obtain ⟨plain, short, byte, head, stops⟩ := passes
  refine ⟨plain, short, byte, ?_, stops⟩
  cases rest with
  | nil => contradiction
  | cons first rest => exact head

theorem Passes.token {limit : Nat} {stop : UInt8 → Bool} {stretch rest : Bytes}
    (passes : Passes limit stop stretch rest) : Http.token limit stop (stretch ++ rest) = stretch :=
  (passes_iff.mp passes).1

/-! ### What the loops leave -/

section Stretches

variable {method gap path rest : Bytes} (first : Passes 7 methodStop method (gap ++ (path ++ rest)))
  (spaces : ∀ byte ∈ gap, byte = 32) (solid : (path ++ rest).head? ≠ some 32)
  (second : Passes 255 pathStop path rest)

include first spaces solid in
theorem afterMethod_stretches :
    afterMethod (method ++ (gap ++ (path ++ rest))) = path ++ rest := by
  have taken := first.token
  unfold afterMethod
  rw [taken, List.drop_left, List.dropWhile_append_of_pos fun byte member =>
    decide_eq_true (spaces byte member)]
  cases behind : path ++ rest with
  | nil => rfl
  | cons byte others =>
      rw [behind] at solid
      exact List.dropWhile_cons_of_neg (by simpa using fun same => solid (congrArg some same))

include first spaces solid second in
theorem afterPath_stretches : afterPath (method ++ (gap ++ (path ++ rest))) = rest := by
  unfold afterPath
  rw [afterMethod_stretches first spaces solid, second.token, List.drop_left]

end Stretches

theorem lastTest_of_ne {text : Bytes} (other : (afterPath text).head? ≠ some 63) :
    lastTest text = afterPath text := by
  unfold lastTest
  split
  · rename_i shape
    rw [shape] at other
    exact absurd rfl other
  · rfl

theorem lastTest_of_query {text behind : Bytes} (mark : afterPath text = 63 :: behind) :
    lastTest text = behind.drop (token 511 queryStop behind).length := by
  unfold lastTest
  rw [mark]
  rfl

/-- Each loop ends in the buffer exactly if something is left at the last test. -/
theorem staysInside_iff (buf : Bytes) : StaysInside buf ↔ lastTest buf ≠ [] := by
  constructor
  · rintro ⟨method, gap, path, rest, rfl, first, spaces, solid, second, third⟩
    have behind := afterPath_stretches first spaces solid second
    have nonempty := (passes_iff.mp second).2
    by_cases mark : rest.head? = some 63
    · obtain ⟨behind', rest_eq⟩ : ∃ behind', rest = 63 :: behind' := by
        cases rest with
        | nil => contradiction
        | cons byte behind' => exact ⟨behind', by rw [Option.some.inj mark]⟩
      obtain ⟨query, more, rfl, passes⟩ := third behind' rest_eq
      rw [lastTest_of_query (behind.trans rest_eq), passes.token, List.drop_left]
      exact (passes_iff.mp passes).2
    · rw [lastTest_of_ne (by rwa [behind]), behind]
      exact nonempty
  · intro left
    have rest_ne : afterPath buf ≠ [] := by
      intro nothing
      rw [lastTest_of_ne (by rw [nothing]; decide), nothing] at left
      exact left rfl
    have method_eq := (List.prefix_iff_eq_append.mp (token_isPrefix 7 methodStop buf))
    have path_eq : token 255 pathStop (afterMethod buf) ++ afterPath buf = afterMethod buf :=
      List.prefix_iff_eq_append.mp (token_isPrefix 255 pathStop (afterMethod buf))
    have gap_eq : (buf.drop (token 7 methodStop buf).length).takeWhile (· = 32) ++ afterMethod buf =
        buf.drop (token 7 methodStop buf).length := List.takeWhile_append_dropWhile
    have after_ne : afterMethod buf ≠ [] := by
      rw [← path_eq]
      exact List.append_ne_nil_of_right_ne_nil _ rest_ne
    refine ⟨token 7 methodStop buf,
      (buf.drop (token 7 methodStop buf).length).takeWhile (· = 32),
      token 255 pathStop (afterMethod buf), afterPath buf, ?_, ?_, ?_, ?_, ?_, ?_⟩
    · rw [path_eq, gap_eq, method_eq]
    · rw [path_eq, gap_eq, passes_iff, method_eq]
      refine ⟨rfl, ?_⟩
      rw [← gap_eq]
      exact List.append_ne_nil_of_right_ne_nil _ after_ne
    · intro byte member
      have blank := List.mem_takeWhile_imp member
      exact of_decide_eq_true blank
    · rw [path_eq]
      intro space
      have other := List.head?_dropWhile_not (fun byte : UInt8 => decide (byte = 32))
        (buf.drop (token 7 methodStop buf).length)
      unfold afterMethod at space
      rw [space] at other
      contradiction
    · rw [passes_iff, path_eq]
      exact ⟨rfl, rest_ne⟩
    · intro behind mark
      rw [lastTest_of_query mark] at left
      have query_eq := List.prefix_iff_eq_append.mp (token_isPrefix 511 queryStop behind)
      refine ⟨_, _, query_eq.symm, ?_⟩
      rw [passes_iff, query_eq]
      exact ⟨rfl, left⟩

theorem lastTest_append {text : Bytes} (left : lastTest text ≠ []) (more : Bytes) :
    lastTest (text ++ more) = lastTest text ++ more := by
  have rest_ne : afterPath text ≠ [] := by
    intro nothing
    rw [lastTest_of_ne (by rw [nothing]; decide), nothing] at left
    exact left rfl
  have behind := (afterPath_append rest_ne more).2.2
  by_cases mark : (afterPath text).head? = some 63
  · obtain ⟨query, rest_eq⟩ : ∃ query, afterPath text = 63 :: query := by
      cases shape : afterPath text with
      | nil => exact absurd shape rest_ne
      | cons byte query =>
          rw [shape] at mark
          exact ⟨query, by rw [Option.some.inj mark]⟩
    have longer : afterPath (text ++ more) = 63 :: (query ++ more) := by
      rw [behind, rest_eq, List.cons_append]
    rw [lastTest_of_query rest_eq] at left
    rw [lastTest_of_query rest_eq, lastTest_of_query longer, (drop_token_append left more).2]
  · have longer : (afterPath (text ++ more)).head? ≠ some 63 := by
      rwa [behind, List.head?_append_of_ne_nil _ rest_ne]
    rw [lastTest_of_ne mark, lastTest_of_ne longer, behind]

/-- Where nothing is left of the buffer, the last test reads what lies behind it. -/
theorem lastTest_of_reached {buf : Bytes} (reached : lastTest buf = []) :
    (lastTest (memory buf)).length ≤ 1024 := by
  have zeros : (List.replicate 1024 (0 : UInt8)).length = 1024 := List.length_replicate
  by_cases nothing : afterPath buf = []
  · have suffix : afterPath (memory buf) <:+ List.replicate 1024 0 := afterPath_of_reached nothing _
    have noMark : (afterPath (memory buf)).head? ≠ some 63 := by
      intro mark
      have member := suffix.subset (List.mem_of_head? mark)
      exact absurd (List.eq_of_mem_replicate member) (by decide)
    have le := suffix.length_le
    rw [lastTest_of_ne noMark]
    omega
  · have behind := (afterPath_append nothing (List.replicate 1024 0)).2.2
    by_cases mark : (afterPath buf).head? = some 63
    · obtain ⟨query, rest_eq⟩ : ∃ query, afterPath buf = 63 :: query := by
        cases shape : afterPath buf with
        | nil => exact absurd shape nothing
        | cons byte query =>
            rw [shape] at mark
            exact ⟨query, by rw [Option.some.inj mark]⟩
      rw [lastTest_of_query rest_eq] at reached
      have whole := token_eq_self_of_drop reached
      have longer : afterPath (memory buf) = 63 :: (query ++ List.replicate 1024 0) := by
        unfold memory
        rw [behind, rest_eq, List.cons_append]
      rw [lastTest_of_query longer, token_append_self whole, List.length_append, ← List.drop_drop,
        List.drop_left, List.length_drop]
      omega
    · rw [lastTest_of_ne mark] at reached
      exact absurd reached nothing

theorem lastRead_lt_iff (buf : Bytes) : lastRead buf < buf.length ↔ StaysInside buf := by
  have size : (memory buf).length = buf.length + 1024 := by
    unfold memory
    rw [List.length_append, List.length_replicate]
  rw [staysInside_iff]
  unfold lastRead
  rw [size]
  constructor
  · intro inside reached
    have le := lastTest_of_reached reached
    omega
  · intro left
    have positive := List.length_pos_iff.mpr left
    have split : lastTest (memory buf) = lastTest buf ++ List.replicate 1024 0 :=
      lastTest_append left _
    have some_ : 0 < buf.length := by
      apply List.length_pos_iff.mpr
      rintro rfl
      exact left rfl
    rw [split, List.length_append, List.length_replicate]
    omega

/-! ### Well-formed lines -/

theorem split_target (target : Bytes) :
    63 ∉ targetPath target ∧
      (target = targetPath target ∧ targetQuery target = [] ∨
        target = targetPath target ++ 63 :: targetQuery target) := by
  have whole : targetPath target ++ target.dropWhile (fun byte => decide (byte ≠ 63)) = target :=
    List.takeWhile_append_dropWhile
  constructor
  · intro member
    have other := List.mem_takeWhile_imp (p := fun byte : UInt8 => decide (byte ≠ 63)) member
    exact of_decide_eq_true other rfl
  cases behind : target.dropWhile fun byte : UInt8 => decide (byte ≠ 63) with
  | nil =>
      rw [behind, List.append_nil] at whole
      refine Or.inl ⟨whole.symm, ?_⟩
      unfold targetQuery
      rw [behind]
      rfl
  | cons mark query =>
      have first := List.head?_dropWhile_not (fun byte : UInt8 => decide (byte ≠ 63)) target
      rw [behind] at first whole
      have mark_eq : mark = 63 := by simpa using first
      have query_eq : targetQuery target = query := by
        unfold targetQuery
        rw [behind]
        rfl
      rw [mark_eq] at whole
      rw [query_eq]
      exact Or.inr whole.symm

/-- A buffer with a header block goes on behind its first line. -/
theorem firstLine_append {buf : Bytes} {hlen : Nat} (found : findHeaderEnd buf = some hlen) :
    ∃ rest, buf = firstLine buf ++ rest ∧ rest ≠ [] := by
  have whole : firstLine buf ++ buf.dropWhile (fun byte => decide (byte ≠ 13 ∧ byte ≠ 10)) = buf :=
    List.takeWhile_append_dropWhile
  refine ⟨_, whole.symm, fun nothing => ?_⟩
  have plain := List.dropWhile_eq_nil_iff.mp nothing
  have none := findHeaderEnd_line (fun byte member => of_decide_eq_true (plain byte member)) []
  rw [List.append_nil, found] at none
  contradiction

namespace RequestTokens

variable (tokens : RequestTokens)

/-- The three loops take the method, the path and the query, and end in the line. -/
theorem loops (unbroken : 13 ∉ tokens.text) (rest : Bytes) :
    StaysInside (tokens.text ++ rest) ∧ token 7 methodStop (tokens.text ++ rest) = tokens.method ∧
      token 255 pathStop (afterMethod (tokens.text ++ rest)) = targetPath tokens.target ∧
      queryOf (afterPath (tokens.text ++ rest)) = targetQuery tokens.target := by
  obtain ⟨noMark, split⟩ := split_target tokens.target
  have unbrokenTarget : 13 ∉ tokens.target := by
    intro member
    exact unbroken (by unfold text; simp [member])
  have inPath : ∀ byte ∈ targetPath tokens.target, byte ∈ tokens.target := fun byte member =>
    (List.takeWhile_prefix _).subset member
  have pathPlain : ∀ byte ∈ targetPath tokens.target, pathStop byte = false := by
    intro byte member
    have space := (tokens.target_token.2 byte (inPath byte member)).1
    have mark : byte ≠ 63 := ne_of_mem_of_not_mem member noMark
    have carriage : byte ≠ 13 := ne_of_mem_of_not_mem (inPath byte member) unbrokenTarget
    exact decide_eq_false (by simp [space, mark, carriage])
  obtain ⟨behind, target_eq, stop, third⟩ : ∃ behind,
      tokens.target ++ 32 :: (tokens.version ++ rest) = targetPath tokens.target ++ behind ∧
      (∃ byte, behind.head? = some byte ∧ pathStop byte = true) ∧
      (behind.head? ≠ some 63 ∧ targetQuery tokens.target = [] ∨
        ∃ more, behind = 63 :: (targetQuery tokens.target ++ more) ∧
          Passes 511 queryStop (targetQuery tokens.target) more) := by
    rcases split with ⟨whole, empty⟩ | whole
    · refine ⟨32 :: (tokens.version ++ rest), by rw [← whole], ⟨32, rfl, by decide⟩, ?_⟩
      exact Or.inl ⟨by simp, empty⟩
    · refine ⟨63 :: (targetQuery tokens.target ++ 32 :: (tokens.version ++ rest)), ?_,
        ⟨63, rfl, by decide⟩, Or.inr ⟨_, rfl, ?_, tokens.query_fits, 32, rfl, fun _ => by decide⟩⟩
      · nth_rewrite 1 [whole]
        simp
      · intro byte member
        have inTarget : byte ∈ tokens.target := by
          rw [whole]
          exact List.mem_append_right _ (List.mem_cons_of_mem _ member)
        have space := (tokens.target_token.2 byte inTarget).1
        have carriage : byte ≠ 13 := ne_of_mem_of_not_mem inTarget unbrokenTarget
        exact decide_eq_false (by simp [space, carriage])
  have shape : tokens.text ++ rest =
      tokens.method ++ ([32] ++ (targetPath tokens.target ++ behind)) := by
    rw [← target_eq]
    unfold text
    simp
  have first : Passes 7 methodStop tokens.method ([32] ++ (targetPath tokens.target ++ behind)) :=
    ⟨fun byte member => decide_eq_false (tokens.method_token.2 byte member).1, tokens.method_fits,
      32, rfl, fun _ => by decide⟩
  have spaces : ∀ byte ∈ ([32] : Bytes), byte = 32 := fun byte member => List.mem_singleton.mp member
  have solid : (targetPath tokens.target ++ behind).head? ≠ some 32 := by
    rw [← target_eq]
    obtain ⟨byte, others, target_eq'⟩ := List.exists_cons_of_ne_nil tokens.target_token.1
    rw [target_eq', List.cons_append, List.head?_cons]
    intro space
    have other := (tokens.target_token.2 byte (by rw [target_eq']; exact List.mem_cons_self)).1
    exact other (Option.some.inj space)
  have second : Passes 255 pathStop (targetPath tokens.target) behind := by
    obtain ⟨byte, head, stops⟩ := stop
    exact ⟨pathPlain, tokens.path_fits, byte, head, fun _ => stops⟩
  have after := afterMethod_stretches first spaces solid
  have left := afterPath_stretches first spaces solid second
  rw [shape]
  refine ⟨⟨_, _, _, _, rfl, first, spaces, solid, second, fun others mark => ?_⟩, first.token, ?_, ?_⟩
  · rcases third with ⟨noQuery, -⟩ | ⟨more, behind_eq, passes⟩
    · rw [mark] at noQuery
      exact absurd rfl noQuery
    · rw [mark] at behind_eq
      exact ⟨_, more, (List.cons.inj behind_eq).2, passes⟩
  · rw [after, second.token]
  · rw [left]
    rcases third with ⟨noQuery, empty⟩ | ⟨more, behind_eq, passes⟩
    · rw [empty]
      unfold queryOf
      split
      · exact absurd rfl noQuery
      · rfl
    · rw [behind_eq]
      exact passes.token

end RequestTokens

/-- A well-formed line is parsed by its grammar. -/
theorem lineParsed_of_wellFormed {buf : Bytes} {hlen : Nat} (found : findHeaderEnd buf = some hlen)
    (formed : WellFormed buf) : LineParsed buf := by
  obtain ⟨rest, whole, -⟩ := firstLine_append found
  have unbroken : 13 ∉ firstLine buf := by
    intro member
    have other := List.mem_takeWhile_imp
      (p := fun byte : UInt8 => decide (byte ≠ 13 ∧ byte ≠ 10)) member
    exact (of_decide_eq_true other).1 rfl
  refine ⟨?_, fun tokens line_eq => ?_, fun not_ => absurd formed not_⟩
  · obtain ⟨tokens, line_eq⟩ := formed
    rw [lastRead_lt_iff, whole, line_eq]
    exact (tokens.loops (by rwa [← line_eq]) rest).1
  · rw [line_eq] at unbroken whole
    have method : cstr tokens.method = tokens.method :=
      cstr_eq_self fun member => (tokens.method_token.2 0 member).2 rfl
    have inTarget : 0 ∉ tokens.target := fun member => (tokens.target_token.2 0 member).2 rfl
    have path : cstr (targetPath tokens.target) = targetPath tokens.target :=
      cstr_eq_self fun member => inTarget ((List.takeWhile_prefix _).subset member)
    have query : cstr (targetQuery tokens.target) = targetQuery tokens.target :=
      cstr_eq_self fun member =>
        inTarget ((List.dropWhile_suffix _).subset ((List.drop_suffix _ _).subset member))
    have memory_eq : memory buf = tokens.text ++ (rest ++ List.replicate 1024 0) := by
      unfold memory
      rw [whole, List.append_assoc]
    obtain ⟨-, methodTaken, pathTaken, queryTaken⟩ :=
      tokens.loops unbroken (rest ++ List.replicate 1024 0)
    unfold lineFields
    rw [memory_eq, methodTaken, pathTaken, queryTaken, method, path, query]

/-- The request line of a complete header block is parsed by its grammar exactly if
it is well formed, or the body is still missing and each loop ends in the buffer. -/
theorem lineParsed_iff {buf : Bytes} {hlen : Nat} (found : findHeaderEnd buf = some hlen) :
    LineParsed buf ↔ WellFormed buf ∨ BodyMissing buf hlen ∧ StaysInside buf := by
  constructor
  · intro parsed
    by_cases formed : WellFormed buf
    · exact Or.inl formed
    · refine Or.inr ⟨?_, (lastRead_lt_iff buf).mp parsed.inside⟩
      by_contra whole
      unfold BodyMissing at whole
      have refused := parsed.refused formed
      unfold httpParseRequest at refused
      rw [found] at refused
      dsimp only at refused
      rw [if_neg whole] at refused
      exact refused _ rfl
  · rintro (formed | ⟨missing, inside⟩)
    · exact lineParsed_of_wellFormed found formed
    · by_cases formed : WellFormed buf
      · exact lineParsed_of_wellFormed found formed
      · refine ⟨(lastRead_lt_iff buf).mpr inside,
          fun tokens line_eq => absurd ⟨tokens, line_eq⟩ formed, fun _ req complete => ?_⟩
        obtain ⟨hlen', found', whole, -⟩ := httpParseRequest_inversion complete
        rw [found] at found'
        obtain rfl := Option.some.inj found'
        exact whole missing

/-- `GET /lookup?name=bob HTTP/1.1`. -/
def lookupTokens : RequestTokens where
  method := ascii "GET"
  target := ascii "/lookup?name=bob"
  version := ascii "HTTP/1.1"
  method_token := ⟨by decide, forall_mem_of_all (by decide)⟩
  target_token := ⟨by decide, forall_mem_of_all (by decide)⟩
  version_token := ⟨by decide, forall_mem_of_all (by decide)⟩
  method_fits := length_get_le
  path_fits := by decide
  query_fits := by decide

theorem lineParsed_lookup : LineParsed (ascii "GET /lookup?name=bob HTTP/1.1\r\n\r\n") :=
  (@lineParsed_iff (ascii "GET /lookup?name=bob HTTP/1.1\r\n\r\n") 33 (by decide)).mpr
    (Or.inl ⟨lookupTokens, by decide⟩)

theorem two_le_count_text (tokens : RequestTokens) : 2 ≤ tokens.text.count 32 := by
  unfold RequestTokens.text
  simp only [List.count_append, List.count_cons_self]
  omega

/-- A line of a method and a target alone is accepted. -/
theorem not_lineParsed :
    ¬ ∀ buf hlen, findHeaderEnd buf = some hlen → LineParsed buf := by
  intro all
  have found : findHeaderEnd (ascii "GET /lookup\r\n\r\n") = some 15 := by decide
  have parsed := all _ _ found
  have unformed : ¬ WellFormed (ascii "GET /lookup\r\n\r\n") := by
    rintro ⟨tokens, line_eq⟩
    have two := two_le_count_text tokens
    have one : (firstLine (ascii "GET /lookup\r\n\r\n")).count 32 = 1 := by decide
    rw [← line_eq] at two
    omega
  have noLength : parseContentLength (ascii "GET /lookup\r\n\r\n") 15 = 0 := by decide
  have refused := parsed.refused unformed
  unfold httpParseRequest at refused
  rw [found] at refused
  dsimp only at refused
  rw [noLength, if_neg (by decide)] at refused
  exact refused _ rfl

end MiniMs.Http
