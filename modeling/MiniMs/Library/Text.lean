import Mathlib

/-!
Byte strings and the C string searches over them.

Owns: ASCII literals as bytes, the C string held in a buffer, `strstr` and
`strchr`, and the rule that lets a search skip a stretch of text in which no
occurrence of the needle starts.

Does not own any format: what the needles and the texts are is left to the
modules that search them.
-/

namespace MiniMs.Library.Text

/-- A text or a block of memory, byte by byte. -/
abbrev Bytes := List UInt8

/-- The bytes of an ASCII literal. -/
def ascii (text : String) : Bytes := text.toUTF8.data.toList

/-- The C string that starts a buffer: the bytes before the first NUL. -/
def cstr (buffer : Bytes) : Bytes :=
  buffer.takeWhile (· ≠ 0)

/-- `strstr`: the haystack from the first occurrence of the needle on. -/
def strstr (hay needle : Bytes) : Option Bytes :=
  if needle.isPrefixOf hay then some hay
  else
    match hay with
    | [] => none
    | _ :: rest => strstr rest needle

/-- `strchr`: the haystack from the first occurrence of the byte on. -/
def strchr (hay : Bytes) (byte : UInt8) : Option Bytes :=
  match hay.dropWhile (· ≠ byte) with
  | [] => none
  | found => some found

/-- A check of a list item by item, whatever else is known of the item type. -/
theorem forall_mem_of_all {α : Type} {property : α → Prop} [DecidablePred property]
    {items : List α} (checked : items.all (fun item => decide (property item)) = true) :
    ∀ item ∈ items, property item := by
  simpa using checked

/-! ### C strings -/

theorem cstr_eq_self {text : Bytes} (clean : 0 ∉ text) : cstr text = text := by
  unfold cstr
  rw [List.takeWhile_eq_self_iff]
  intro byte member
  simpa using ne_of_mem_of_not_mem member clean

theorem cstr_append_nul {text : Bytes} (clean : 0 ∉ text) (rest : Bytes) :
    cstr (text ++ 0 :: rest) = text := by
  unfold cstr
  rw [List.takeWhile_append_of_pos]
  · simp
  · intro byte member
    simpa using ne_of_mem_of_not_mem member clean

theorem zero_notMem_cstr (buffer : Bytes) : 0 ∉ cstr buffer := by
  intro member
  have nonzero := List.mem_takeWhile_imp member
  simp at nonzero

/-! ### Occurrences -/

/-- An occurrence of the needle starts inside `before`, in the text
`before ++ after`. -/
def StartsIn (needle before after : Bytes) : Prop :=
  ∃ left right, before = left ++ right ∧ right ≠ [] ∧ needle <+: right ++ after

theorem not_startsIn_nil (needle after : Bytes) : ¬ StartsIn needle [] after := by
  rintro ⟨left, right, split, nonempty, -⟩
  have := List.append_eq_nil_iff.mp split.symm
  exact nonempty this.2

theorem startsIn_cons {needle : Bytes} {head : UInt8} {before after : Bytes} :
    StartsIn needle (head :: before) after ↔
      needle <+: head :: before ++ after ∨ StartsIn needle before after := by
  constructor
  · rintro ⟨left, right, split, nonempty, occurs⟩
    cases left with
    | nil =>
        left
        rw [List.nil_append] at split
        rwa [split]
    | cons first left =>
        right
        rw [List.cons_append, List.cons.injEq] at split
        exact ⟨left, right, split.2, nonempty, occurs⟩
  · rintro (occurs | ⟨left, right, split, nonempty, occurs⟩)
    · exact ⟨[], head :: before, rfl, by simp, occurs⟩
    · exact ⟨head :: left, right, by rw [split, List.cons_append], nonempty, occurs⟩

theorem startsIn_append {needle first second after : Bytes} :
    StartsIn needle (first ++ second) after ↔
      StartsIn needle first (second ++ after) ∨ StartsIn needle second after := by
  induction first with
  | nil => simp [not_startsIn_nil]
  | cons head first inductionHypothesis =>
      rw [List.cons_append, startsIn_cons, startsIn_cons, inductionHypothesis, or_assoc,
        List.cons_append, List.cons_append, List.append_assoc]

/-- No occurrence starts in a text that lacks the first byte of the needle. -/
theorem not_startsIn_of_head {first : UInt8} {needle before : Bytes} (after : Bytes)
    (absent : first ∉ before) : ¬ StartsIn (first :: needle) before after := by
  induction before with
  | nil => exact not_startsIn_nil _ _
  | cons head before inductionHypothesis =>
      rw [startsIn_cons]
      rintro (occurs | later)
      · rw [List.cons_append, List.cons_prefix_cons] at occurs
        exact absent (by simp [occurs.1])
      · exact inductionHypothesis (fun member => absent (by simp [member])) later

theorem startsIn_of_infix {needle before : Bytes} (after : Bytes) (nonempty : needle ≠ [])
    (occurs : needle <:+: before) : StartsIn needle before after := by
  obtain ⟨left, right, split⟩ := occurs
  refine ⟨left, needle ++ right, ?_, ?_, ?_⟩
  · rw [← split, List.append_assoc]
  · simp [nonempty]
  · rw [List.append_assoc]
    exact List.prefix_append _ _

theorem StartsIn.of_prefix {needle start before after : Bytes} (starts : StartsIn needle before after)
    (isPrefix : start <+: needle) : StartsIn start before after := by
  obtain ⟨left, right, split, nonempty, occurs⟩ := starts
  exact ⟨left, right, split, nonempty, isPrefix.trans occurs⟩

/-- An occurrence that starts before another one ends inside it. -/
theorem startsIn_before_needle {needle before after : Bytes} (other : Bytes)
    (starts : StartsIn needle before (needle ++ after)) :
    StartsIn needle before (needle ++ other) := by
  obtain ⟨left, right, split, nonempty, occurs⟩ := starts
  refine ⟨left, right, split, nonempty, ?_⟩
  have here : needle <+: right ++ needle := by
    rw [← List.append_assoc] at occurs
    apply List.prefix_of_prefix_length_le occurs (List.prefix_append _ _)
    rw [List.length_append]
    exact Nat.le_add_left _ _
  rw [← List.append_assoc]
  exact here.trans (List.prefix_append _ _)

/-- An occurrence does not run over a byte that the needle lacks. -/
theorem infix_of_startsIn {needle before after : Bytes} {last : UInt8} (absent : last ∉ needle)
    (starts : StartsIn needle (before ++ [last]) after) : needle <:+: before := by
  obtain ⟨left, right, split, nonempty, occurs⟩ := starts
  rcases List.eq_nil_or_concat right with empty | ⟨middle, byte, shape⟩
  · exact absurd empty nonempty
  rw [List.concat_eq_append] at shape
  rw [shape, ← List.append_assoc] at split
  obtain ⟨front, sameLast⟩ := List.append_inj' split rfl
  have sameByte : last = byte := List.singleton_inj.mp sameLast
  have short : needle.length ≤ middle.length := by
    by_contra long
    have inside : last ∈ needle := by
      have covered : middle ++ [last] <+: needle := by
        rw [shape, ← sameByte] at occurs
        have comparable := List.prefix_or_prefix_of_prefix occurs
          (List.prefix_append (middle ++ [last]) after)
        rcases comparable with shorter | longer
        · have le := shorter.length_le
          rw [List.length_append, List.length_singleton] at le
          have equal : needle = middle ++ [last] :=
            shorter.eq_of_length (by rw [List.length_append, List.length_singleton]; omega)
          rw [equal]
        · exact longer
      exact covered.subset (by simp)
    exact absent inside
  have before_middle : needle <+: middle := by
    rw [shape, List.append_assoc] at occurs
    exact List.prefix_of_prefix_length_le occurs (List.prefix_append _ _) short
  rw [front]
  exact before_middle.isInfix.trans (List.suffix_append left middle).isInfix

/-! ### Search -/

theorem strstr_here {hay needle : Bytes} (occurs : needle <+: hay) :
    strstr hay needle = some hay := by
  unfold strstr
  rw [if_pos (List.isPrefixOf_iff_prefix.mpr occurs)]

theorem strstr_cons_miss {needle : Bytes} {head : UInt8} {rest : Bytes}
    (absent : ¬ needle <+: head :: rest) :
    strstr (head :: rest) needle = strstr rest needle := by
  conv_lhs => unfold strstr
  rw [if_neg (fun occurs => absent (List.isPrefixOf_iff_prefix.mp occurs))]

/-- A search passes over a stretch in which no occurrence starts. -/
theorem strstr_skip {needle before after : Bytes} (absent : ¬ StartsIn needle before after) :
    strstr (before ++ after) needle = strstr after needle := by
  induction before with
  | nil => rfl
  | cons head before inductionHypothesis =>
      rw [startsIn_cons, not_or] at absent
      have passed : strstr (head :: (before ++ after)) needle = strstr (before ++ after) needle :=
        strstr_cons_miss absent.1
      rw [List.cons_append, passed]
      exact inductionHypothesis absent.2

/-- The search stops at the needle when no occurrence starts before it. -/
theorem strstr_first {needle before after : Bytes}
    (absent : ¬ StartsIn needle before (needle ++ after)) :
    strstr (before ++ (needle ++ after)) needle = some (needle ++ after) := by
  rw [strstr_skip absent, strstr_here (List.prefix_append needle after)]

theorem strstr_eq_none_iff {hay needle : Bytes} :
    strstr hay needle = none ↔ ¬ needle <:+: hay := by
  induction hay with
  | nil =>
      unfold strstr
      cases needle <;> simp
  | cons head rest inductionHypothesis =>
      by_cases occurs : needle <+: head :: rest
      · rw [strstr_here occurs]
        simpa using occurs.isInfix
      · rw [strstr_cons_miss occurs, inductionHypothesis, List.infix_cons_iff]
        simp [occurs]

/-- What the search finds: a split of the haystack at the first occurrence. -/
theorem strstr_eq_some {hay needle found : Bytes} (search : strstr hay needle = some found) :
    ∃ before, hay = before ++ found ∧ needle <+: found ∧ ¬ StartsIn needle before found := by
  induction hay with
  | nil =>
      unfold strstr at search
      split at search
      next occurs =>
        obtain rfl := Option.some.inj search
        exact ⟨[], rfl, List.isPrefixOf_iff_prefix.mp occurs, not_startsIn_nil _ _⟩
      next => contradiction
  | cons head rest inductionHypothesis =>
      by_cases occurs : needle <+: head :: rest
      · rw [strstr_here occurs] at search
        obtain rfl := Option.some.inj search
        exact ⟨[], rfl, occurs, not_startsIn_nil _ _⟩
      · rw [strstr_cons_miss occurs] at search
        obtain ⟨before, split, found, first⟩ := inductionHypothesis search
        refine ⟨head :: before, by rw [split, List.cons_append], found, ?_⟩
        rw [startsIn_cons, List.cons_append, ← split]
        exact not_or.mpr ⟨occurs, first⟩

end MiniMs.Library.Text
