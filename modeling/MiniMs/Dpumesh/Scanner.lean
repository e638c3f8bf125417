import MiniMs.Dpumesh.HeaderText

/-!
What the substring scanner returns on a text whose entries are known.

Owns: the value that `json_get_str` reads from a field when no earlier entry
has its key, the value that it reads when one has, both under a cut of the
text, and how far the brace loop of `parse_case2_body` walks.

The texts are arbitrary bytes; that they come from an encoder is not used here.
-/

namespace MiniMs.Dpumesh

open MiniMs.Library.Text

/-! ### Keys -/

/-- The pattern of a key that fits the buffer of the pattern. -/
theorem keyPattern_eq {key : Bytes} (short : key.length < 125) :
    keyPattern key = 34 :: key ++ [34, 58] := by
  unfold keyPattern
  apply snprintf_eq_self
  rw [List.length_append, List.length_cons]
  show key.length + 1 + 2 < 128
  omega

theorem length_keyPattern {key : Bytes} (short : key.length < 125) :
    (keyPattern key).length = key.length + 3 := by
  rw [keyPattern_eq short]
  simp

theorem keyPattern_ne_nil (key : Bytes) : keyPattern key ≠ [] := by
  unfold keyPattern snprintf
  exact List.cons_ne_nil _ _

/-! ### Values -/

/-- What is read once the opening quote is passed. -/
def quotedValue (text : Bytes) (outsz : Nat) : Bytes :=
  (text.takeWhile (· ≠ 34)).take (outsz - 1)

theorem takeWhile_take {p : UInt8 → Bool} (text : Bytes) (count : Nat) :
    (text.take count).takeWhile p = (text.takeWhile p).take count := by
  induction text generalizing count with
  | nil => simp
  | cons head rest inductionHypothesis =>
      cases count with
      | zero => simp
      | succ count =>
          by_cases holds : p head
          · rw [List.take_succ_cons, List.takeWhile_cons_of_pos holds,
              List.takeWhile_cons_of_pos holds, List.take_succ_cons, inductionHypothesis]
          · rw [List.take_succ_cons, List.takeWhile_cons_of_neg holds,
              List.takeWhile_cons_of_neg holds, List.take_nil]

/-- Before the closing quote nothing else is read. -/
theorem takeWhile_append_quote (text rest : Bytes) :
    (text ++ 34 :: rest).takeWhile (· ≠ 34) = text.takeWhile (· ≠ 34) := by
  induction text with
  | nil => rfl
  | cons head text inductionHypothesis =>
      by_cases quote : head = 34
      · rw [quote]
        rfl
      · simp only [List.cons_append, List.takeWhile_cons, quote, ne_eq, not_false_eq_true,
          decide_true, if_true]
        rw [← inductionHypothesis]

theorem jsonGetStr_of_strstr {json key found : Bytes} {outsz : Nat}
    (search : strstr json (keyPattern key) = some found) :
    jsonGetStr json key outsz =
      match (found.drop (keyPattern key).length).dropWhile (· = 32) with
      | 34 :: value => some (quotedValue value outsz)
      | _ => none := by
  unfold jsonGetStr
  rw [search]
  rfl

/-! ### A field that comes first -/

/-- A cut text holds no key that the cut reaches into. -/
theorem strstr_take_eq_none {needle before after : Bytes} {count : Nat}
    (first : ¬ StartsIn needle before (needle ++ after))
    (cut : count < before.length + needle.length) :
    strstr ((before ++ (needle ++ after)).take count) needle = none := by
  rw [strstr_eq_none_iff]
  rintro ⟨left, right, split⟩
  have lengths := congrArg List.length split
  rw [List.length_append, List.length_append, List.length_take] at lengths
  have inside : left.length < before.length := by omega
  apply first
  have whole : left ++ (needle ++ (right ++ (before ++ (needle ++ after)).drop count)) =
      before ++ (needle ++ after) := by
    calc left ++ (needle ++ (right ++ (before ++ (needle ++ after)).drop count))
        = (left ++ needle ++ right) ++ (before ++ (needle ++ after)).drop count := by
          simp only [List.append_assoc]
      _ = before ++ (needle ++ after) := by rw [split, List.take_append_drop]
  have leftPrefix : left <+: before := by
    apply List.prefix_of_prefix_length_le _ (List.prefix_append before (needle ++ after))
      (Nat.le_of_lt inside)
    rw [← whole]
    exact List.prefix_append _ _
  obtain ⟨middle, shape⟩ := leftPrefix
  refine ⟨left, middle, shape.symm, ?_, ?_⟩
  · intro empty
    rw [empty, List.append_nil] at shape
    rw [shape] at inside
    exact Nat.lt_irrefl _ inside
  · rw [← shape, List.append_assoc] at whole
    rw [← List.append_cancel_left whole]
    exact List.prefix_append _ _

/-- What the scanner reads from a field `"key": "…` of a cut text, when no
earlier entry has the key: the raw text of the value as far as the cut and the
buffer let it. -/
theorem jsonGetStr_field {before key rest : Bytes}
    (first : ¬ StartsIn (keyPattern key) before (keyPattern key ++ 32 :: 34 :: rest))
    (count outsz : Nat) :
    jsonGetStr ((before ++ (keyPattern key ++ 32 :: 34 :: rest)).take count) key outsz =
      if before.length + (keyPattern key).length + 2 ≤ count then
        some ((rest.takeWhile (· ≠ 34)).take
          (min (outsz - 1) (count - (before.length + (keyPattern key).length + 2))))
      else none := by
  by_cases short : count < before.length + (keyPattern key).length
  · have missing := strstr_take_eq_none first short
    unfold jsonGetStr
    rw [missing, if_neg (by omega)]
  · have split : (before ++ (keyPattern key ++ 32 :: 34 :: rest)).take count =
        before ++ (keyPattern key ++
          (32 :: 34 :: rest).take (count - before.length - (keyPattern key).length)) := by
      rw [List.take_append, List.take_append, List.take_of_length_le (by omega),
        List.take_of_length_le (show (keyPattern key).length ≤ count - before.length by omega)]
    have firstCut : ¬ StartsIn (keyPattern key) before (keyPattern key ++
        (32 :: 34 :: rest).take (count - before.length - (keyPattern key).length)) :=
      fun starts => first (startsIn_before_needle _ starts)
    rw [jsonGetStr_of_strstr (by rw [split]; exact strstr_first firstCut),
      List.drop_left' rfl]
    by_cases whole : before.length + (keyPattern key).length + 2 ≤ count
    · obtain ⟨more, equal⟩ : ∃ more, count - before.length - (keyPattern key).length = more + 2 :=
        ⟨count - before.length - (keyPattern key).length - 2, by omega⟩
      rw [if_pos whole, equal]
      show some (quotedValue (rest.take more) outsz) = _
      unfold quotedValue
      rw [takeWhile_take, List.take_take]
      congr 2
      omega
    · rw [if_neg whole]
      have few : count - before.length - (keyPattern key).length = 0 ∨
          count - before.length - (keyPattern key).length = 1 := by omega
      rcases few with zero | one
      · rw [zero]
        rfl
      · rw [one]
        rfl

/-! ### A field that comes too late -/

theorem dropWhile_append_of_stop {p : UInt8 → Bool} {text : Bytes} {stop : UInt8}
    (member : stop ∈ text) (stops : p stop = false) (after : Bytes) :
    (text ++ after).dropWhile p = text.dropWhile p ++ after ∧ text.dropWhile p ≠ [] := by
  induction text with
  | nil => exact absurd member List.not_mem_nil
  | cons head text inductionHypothesis =>
      by_cases passes : p head = true
      · have later : stop ∈ text := by
          rcases List.mem_cons.mp member with same | later
          · rw [same, passes] at stops
            contradiction
          · exact later
        rw [List.cons_append, List.dropWhile_cons_of_pos passes, List.dropWhile_cons_of_pos passes]
        exact inductionHypothesis later
      · rw [List.cons_append, List.dropWhile_cons_of_neg passes, List.dropWhile_cons_of_neg passes]
        exact ⟨rfl, List.cons_ne_nil _ _⟩

/-- What follows a pattern in front of a comma and a blank has the comma. -/
theorem comma_mem_of_split {needle fields before value : Bytes} (comma : 44 ∉ needle)
    (blank : 32 ∉ needle) (nonempty : needle ≠ [])
    (split : fields ++ [44, 32] = before ++ (needle ++ value)) : 44 ∈ value := by
  obtain ⟨front, last, shape⟩ : ∃ front last, needle = front ++ [last] := by
    rcases List.eq_nil_or_concat needle with empty | ⟨front, last, shape⟩
    · exact absurd empty nonempty
    · exact ⟨front, last, by rw [shape, List.concat_eq_append]⟩
  rcases value with _ | ⟨first, _ | ⟨second, rest⟩⟩
  · have ends : (fields ++ [44]) ++ [32] = (before ++ front) ++ [last] := by
      rw [shape] at split
      simpa using split
    have same := List.singleton_inj.mp (List.append_inj' ends rfl).2
    exact absurd (by rw [shape, same]; simp) blank
  · have ends : (fields ++ [44]) ++ [32] = (before ++ front ++ [last]) ++ [first] := by
      rw [shape] at split
      simpa using split
    have inner := (List.append_inj' ends rfl).1
    have same := List.singleton_inj.mp (List.append_inj' inner rfl).2
    exact absurd (by rw [shape, same]; simp) comma
  · have tail : [44, 32] <:+ first :: second :: rest := by
      apply List.suffix_of_suffix_length_le (List.suffix_append fields [44, 32])
      · rw [split, ← List.append_assoc]
        exact List.suffix_append _ _
      · simp
    exact tail.subset (by simp)

theorem matchQuote_of_ne {head : UInt8} (differs : head ≠ 34) {raw : Bytes} {outsz : Nat} :
    (match head :: raw with
      | 34 :: value => some (quotedValue value outsz)
      | _ => none) = none := by
  split
  · rename_i equal
    injection equal with same
    exact absurd same differs
  · rfl

/-- Where an earlier entry has the key, nothing after the next field's opening
quote is read: `before` ends in the comma and the blank between two fields. -/
theorem jsonGetStr_shadowed {key fields : Bytes} (comma : 44 ∉ keyPattern key)
    (blank : 32 ∉ keyPattern key) (shadow : keyPattern key <:+: fields ++ [44, 32])
    (rest : Bytes) (count outsz : Nat) :
    jsonGetStr ((fields ++ [44, 32] ++ 34 :: rest).take count) key outsz =
      jsonGetStr ((fields ++ [44, 32]).take count) key outsz := by
  by_cases short : count ≤ (fields ++ [44, 32]).length
  · rw [List.take_append_of_le_length short]
  · have tail : ∃ after, (fields ++ [44, 32] ++ 34 :: rest).take count =
        fields ++ [44, 32] ++ 34 :: after := by
      obtain ⟨more, equal⟩ : ∃ more, count = (fields ++ [44, 32]).length + (more + 1) :=
        ⟨count - (fields ++ [44, 32]).length - 1, by omega⟩
      refine ⟨rest.take more, ?_⟩
      rw [equal, List.take_length_add_append, List.take_succ_cons]
    obtain ⟨after, cut⟩ := tail
    rw [cut, List.take_of_length_le (by omega)]
    cases search : strstr (fields ++ [44, 32]) (keyPattern key) with
    | none =>
        rw [strstr_eq_none_iff] at search
        exact absurd shadow search
    | some found =>
        obtain ⟨before, split, occurs, first⟩ := strstr_eq_some search
        obtain ⟨value, shape⟩ := occurs
        have firstLater : ¬ StartsIn (keyPattern key) before
            (keyPattern key ++ (value ++ 34 :: after)) := by
          intro starts
          apply first
          rw [← shape]
          exact startsIn_before_needle value starts
        have later : strstr (fields ++ [44, 32] ++ 34 :: after) (keyPattern key) =
            some (keyPattern key ++ (value ++ 34 :: after)) := by
          rw [split, ← shape, List.append_assoc, List.append_assoc]
          exact strstr_first firstLater
        have comma_in_value : 44 ∈ value :=
          comma_mem_of_split comma blank (keyPattern_ne_nil key) (by rw [split, ← shape])
        rw [jsonGetStr_of_strstr later, jsonGetStr_of_strstr search, ← shape,
          List.drop_left' rfl, List.drop_left' rfl]
        obtain ⟨dropped, nonempty⟩ :=
          dropWhile_append_of_stop (p := (· = 32)) comma_in_value (by decide) (34 :: after)
        rw [dropped]
        cases blanks : value.dropWhile (· = 32) with
        | nil => exact absurd blanks nonempty
        | cons head raw =>
            by_cases quote : head = 34
            · rw [quote]
              show some (quotedValue (raw ++ 34 :: after) outsz) = some (quotedValue raw outsz)
              unfold quotedValue
              rw [takeWhile_append_quote]
            · rw [List.cons_append, matchQuote_of_ne quote, matchQuote_of_ne quote]

/-! ### The brace loop -/

/-- The depth after a stretch of text; 0 once the object is closed. -/
def braceDepth : Nat → Bytes → Nat
  | 0, _ => 0
  | depth + 1, [] => depth + 1
  | depth + 1, byte :: rest =>
      braceDepth (if byte = 123 then depth + 2 else if byte = 125 then depth else depth + 1) rest

@[simp] theorem matchBrace_zero (text : Bytes) : matchBrace 0 text = [] := by
  unfold matchBrace
  rfl

@[simp] theorem braceDepth_zero (text : Bytes) : braceDepth 0 text = 0 := by
  unfold braceDepth
  rfl

theorem matchBrace_append (depth : Nat) (text after : Bytes) :
    matchBrace depth (text ++ after) =
      matchBrace depth text ++ matchBrace (braceDepth depth text) after := by
  induction text generalizing depth with
  | nil =>
      cases depth with
      | zero => simp
      | succ depth => rfl
  | cons byte rest inductionHypothesis =>
      cases depth with
      | zero => simp
      | succ depth =>
          show byte :: matchBrace _ (rest ++ after) = byte :: (matchBrace _ rest ++ _)
          rw [inductionHypothesis]
          rfl

theorem matchBrace_take (depth : Nat) (text : Bytes) (count : Nat) :
    matchBrace depth (text.take count) = (matchBrace depth text).take count := by
  induction text generalizing depth count with
  | nil =>
      cases depth with
      | zero => simp
      | succ depth =>
          rw [List.take_nil]
          exact List.take_nil.symm
  | cons byte rest inductionHypothesis =>
      cases depth with
      | zero => simp
      | succ depth =>
          cases count with
          | zero => rfl
          | succ count =>
              show byte :: matchBrace _ (rest.take count) = byte :: (matchBrace _ rest).take count
              rw [inductionHypothesis]

/-- The loop walks over a stretch that leaves the object open. -/
theorem matchBrace_of_open {depth : Nat} {text : Bytes} (stays : braceDepth depth text ≠ 0) :
    matchBrace depth text = text := by
  induction text generalizing depth with
  | nil =>
      cases depth with
      | zero => simp
      | succ depth => rfl
  | cons byte rest inductionHypothesis =>
      cases depth with
      | zero => simp at stays
      | succ depth =>
          show byte :: matchBrace _ rest = byte :: rest
          rw [inductionHypothesis stays]

theorem matchBrace_isPrefix (depth : Nat) (text : Bytes) : matchBrace depth text <+: text := by
  induction text generalizing depth with
  | nil =>
      cases depth with
      | zero => simp
      | succ depth => exact List.prefix_refl _
  | cons byte rest inductionHypothesis =>
      cases depth with
      | zero => simp
      | succ depth =>
          show byte :: matchBrace _ rest <+: byte :: rest
          exact (List.prefix_cons_inj byte).mpr (inductionHypothesis _)

/-- A stretch without braces changes no depth. -/
theorem braceDepth_of_no_brace {depth : Nat} {text : Bytes} (opening : 123 ∉ text)
    (closing : 125 ∉ text) : braceDepth depth text = depth := by
  induction text with
  | nil =>
      cases depth with
      | zero => rfl
      | succ depth => rfl
  | cons byte rest inductionHypothesis =>
      cases depth with
      | zero => rfl
      | succ depth =>
          rw [List.mem_cons, not_or] at opening closing
          have notOpening : byte ≠ 123 := Ne.symm opening.1
          have notClosing : byte ≠ 125 := Ne.symm closing.1
          show braceDepth (if byte = 123 then _ else _) rest = _
          rw [if_neg notOpening, if_neg notClosing]
          exact inductionHypothesis opening.2 closing.2

end MiniMs.Dpumesh
