import MiniMs.Dpumesh.Scanner
import MiniMs.Library.RawString

/-!
What the two scanners of the worker take for a string.

Owns: the entry that a search for a key ends at, the texts that `json_get_str`
reads as a given value, the texts that the string loop of `parse_case2_body`
reads as a given body, and the bodies that this loop reads back from their JSON
text.
-/

namespace MiniMs.Dpumesh

open MiniMs.Library.Text MiniMs.Library.Json

/-! ### Entries -/

/-- The first entry of a text with a key has a quoted value, and `rest` follows
its opening quote. -/
def Entry (text key rest : Bytes) : Prop :=
  ∃ found, strstr text (keyPattern key) = some found ∧
    (found.drop (keyPattern key).length).dropWhile (· = 32) = 34 :: rest

theorem Entry.unique {text key first second : Bytes} (one : Entry text key first)
    (other : Entry text key second) : first = second := by
  obtain ⟨found, search, shape⟩ := one
  obtain ⟨found', search', shape'⟩ := other
  obtain rfl := Option.some.inj (search.symm.trans search')
  rw [shape] at shape'
  injection shape'

theorem jsonGetStr_eq_some_iff {text key value : Bytes} {outsz : Nat} :
    jsonGetStr text key outsz = some value ↔
      ∃ rest, Entry text key rest ∧ quotedValue rest outsz = value := by
  constructor
  · intro reads
    unfold jsonGetStr at reads
    split at reads
    · contradiction
    · rename_i found search
      split at reads
      · rename_i rest shape
        exact ⟨rest, ⟨found, search, shape⟩, Option.some.inj reads⟩
      · contradiction
  · rintro ⟨rest, ⟨found, search, shape⟩, value⟩
    rw [jsonGetStr_of_strstr search, shape]
    exact congrArg some value

theorem Entry.suffix {text key rest : Bytes} (entry : Entry text key rest) : 34 :: rest <:+ text := by
  obtain ⟨found, search, shape⟩ := entry
  obtain ⟨before, split, -, -⟩ := strstr_eq_some search
  rw [← shape, split]
  exact ((List.dropWhile_suffix _).trans (List.drop_suffix _ _)).trans (List.suffix_append _ _)

/-- A text starts with a value: up to a quote, to its end, or to the limit. -/
structure Spells (limit : Nat) (text value : Bytes) : Prop where
  noQuote : 34 ∉ value
  starts : value <+: text
  fits : value.length ≤ limit
  ends : value.length = limit ∨ value = text ∨ value ++ [34] <+: text

theorem spells_cons {limit : Nat} {byte : UInt8} (plain : byte ≠ 34) {text value : Bytes} :
    Spells (limit + 1) (byte :: text) (byte :: value) ↔ Spells limit text value := by
  constructor
  · intro spells
    refine ⟨?_, ?_, ?_, ?_⟩
    · exact fun member => spells.noQuote (List.mem_cons_of_mem _ member)
    · exact (List.prefix_cons_inj byte).mp spells.starts
    · simpa using spells.fits
    · simpa [List.prefix_cons_inj] using spells.ends
  · intro spells
    refine ⟨?_, ?_, ?_, ?_⟩
    · simpa [plain.symm] using spells.noQuote
    · exact (List.prefix_cons_inj byte).mpr spells.starts
    · simpa using spells.fits
    · simpa [List.prefix_cons_inj] using spells.ends

theorem takeWhile_take_eq_iff {limit : Nat} {text value : Bytes} :
    (text.takeWhile (· ≠ 34)).take limit = value ↔ Spells limit text value := by
  induction text generalizing limit value with
  | nil =>
      rw [List.takeWhile_nil, List.take_nil]
      constructor
      · rintro rfl
        exact ⟨List.not_mem_nil, List.nil_prefix, Nat.zero_le _, Or.inr (Or.inl rfl)⟩
      · intro spells
        exact (List.prefix_nil.mp spells.starts).symm
  | cons byte text inductionHypothesis =>
      cases limit with
      | zero =>
          rw [List.take_zero]
          constructor
          · rintro rfl
            exact ⟨List.not_mem_nil, List.nil_prefix, Nat.zero_le _, Or.inl rfl⟩
          · intro spells
            exact (List.length_eq_zero_iff.mp (Nat.le_zero.mp spells.fits)).symm
      | succ limit =>
          by_cases quote : byte = 34
          · rw [quote, List.takeWhile_cons_of_neg (by decide), List.take_nil]
            constructor
            · rintro rfl
              exact ⟨List.not_mem_nil, List.nil_prefix, Nat.zero_le _, Or.inr (Or.inr (by simp))⟩
            · intro spells
              cases value with
              | nil => rfl
              | cons head value =>
                  have head_quote := (List.cons_prefix_cons.mp spells.starts).1
                  exact absurd (by rw [head_quote]; exact List.mem_cons_self) spells.noQuote
          · rw [List.takeWhile_cons_of_pos (by simpa using quote), List.take_succ_cons]
            cases value with
            | nil =>
                have short : ¬ Spells (limit + 1) (byte :: text) [] := by
                  intro spells
                  have ends := spells.ends
                  simp [Ne.symm quote] at ends
                simp [short]
            | cons head value =>
                by_cases same : byte = head
                · rw [← same, List.cons_inj_right, inductionHypothesis, spells_cons quote]
                · have other : ¬ Spells (limit + 1) (byte :: text) (head :: value) :=
                    fun spells => same (List.cons_prefix_cons.mp spells.starts).1.symm
                  simp [same, other]

/-- What `json_get_str` reads, by the text behind the opening quote. -/
theorem jsonGetStr_eq_iff {text key value : Bytes} {outsz : Nat} :
    jsonGetStr text key outsz = some value ↔
      ∃ rest, Entry text key rest ∧ Spells (outsz - 1) rest value := by
  rw [jsonGetStr_eq_some_iff]
  unfold quotedValue
  simp only [takeWhile_take_eq_iff]

/-! ### The string loop -/

theorem unescapeBody_cons (before byte : UInt8) (rest : Bytes) :
    unescapeBody before (byte :: rest) =
      if byte = 34 ∧ before ≠ 92 then []
      else if byte = 92 ∧ rest.head? = some 34 then 34 :: unescapeBody 34 rest.tail
      else byte :: unescapeBody byte rest := by
  cases rest with
  | nil =>
      conv_lhs => unfold unescapeBody
      simp [unescapeBody]
  | cons next rest =>
      conv_lhs => unfold unescapeBody
      simp

/-- A text with a backslash in front of every quote. -/
def slashQuotes (text : Bytes) : Bytes :=
  text.flatMap fun byte => if byte = 34 then [92, 34] else [byte]

theorem slashQuotes_quote (text : Bytes) : slashQuotes (34 :: text) = 92 :: 34 :: slashQuotes text :=
  rfl

theorem slashQuotes_cons {byte : UInt8} (plain : byte ≠ 34) (text : Bytes) :
    slashQuotes (byte :: text) = byte :: slashQuotes text := by
  unfold slashQuotes
  rw [List.flatMap_cons, if_neg plain, List.singleton_append]

/-- A text is a body with its quotes escaped, up to a closing quote or to its
end. A closing quote behind a backslash would be part of the body. -/
def SpellsBody (text body : Bytes) : Prop :=
  slashQuotes body = text ∨ slashQuotes body ++ [34] <+: text ∧ body.getLast? ≠ some 92

theorem spellsBody_quote {text body : Bytes} :
    SpellsBody (92 :: 34 :: text) (34 :: body) ↔ SpellsBody text body := by
  unfold SpellsBody
  rw [slashQuotes_quote, List.cons_append, List.cons_append, List.cons_inj_right,
    List.cons_inj_right, List.prefix_cons_inj, List.prefix_cons_inj]
  cases body with
  | nil => simp
  | cons head body => rw [List.getLast?_cons_cons]

theorem spellsBody_cons {byte : UInt8} {text body : Bytes} (plain : byte ≠ 34)
    (notEscape : ¬ (byte = 92 ∧ text.head? = some 34)) :
    SpellsBody (byte :: text) (byte :: body) ↔ SpellsBody text body := by
  unfold SpellsBody
  rw [slashQuotes_cons plain, List.cons_append, List.cons_inj_right, List.prefix_cons_inj]
  cases body with
  | nil =>
      have closing : [34] <+: text → byte ≠ 92 := by
        intro starts backslash
        obtain ⟨rest, shape⟩ := starts
        exact notEscape ⟨backslash, by rw [← shape]; rfl⟩
      simp only [slashQuotes, List.flatMap_nil, List.nil_append, List.getLast?_singleton,
        List.getLast?_nil, ne_eq, Option.some.injEq, reduceCtorEq, not_false_eq_true, and_true]
      constructor
      · exact fun spells => spells.imp_right And.left
      · exact fun spells => spells.imp_right fun starts => ⟨starts, closing starts⟩
  | cons head body => rw [List.getLast?_cons_cons]

theorem spellsBody_head {byte : UInt8} {text body : Bytes} (plain : byte ≠ 34)
    (notEscape : ¬ (byte = 92 ∧ text.head? = some 34)) (spells : SpellsBody (byte :: text) body) :
    ∃ rest, body = byte :: rest := by
  cases body with
  | nil =>
      rcases spells with same | ⟨starts, -⟩
      · cases same
      · simp [slashQuotes, Ne.symm plain] at starts
  | cons head body =>
      refine ⟨body, ?_⟩
      have first : slashQuotes (head :: body) <+: byte :: text := by
        rcases spells with same | ⟨starts, -⟩
        · rw [same]
        · exact (List.prefix_append _ _).trans starts
      by_cases quote : head = 34
      · rw [quote, slashQuotes_quote, List.cons_prefix_cons] at first
        obtain ⟨backslash, rest, shape⟩ := first
        exact absurd ⟨backslash.symm, by rw [← shape]; rfl⟩ notEscape
      · rw [slashQuotes_cons quote, List.cons_prefix_cons] at first
        rw [first.1]

theorem slashQuotes_head_ne {head : UInt8} {body rest after : Bytes} :
    ¬ slashQuotes (head :: body) ++ after <+: 34 :: rest := by
  intro starts
  by_cases quote : head = 34
  · rw [quote, slashQuotes_quote, List.cons_append, List.cons_prefix_cons] at starts
    exact absurd starts.1 (by decide)
  · rw [slashQuotes_cons quote, List.cons_append, List.cons_prefix_cons] at starts
    exact quote starts.1

theorem spellsBody_stop {rest body : Bytes} : SpellsBody (34 :: rest) body ↔ body = [] := by
  cases body with
  | nil => simp [SpellsBody, slashQuotes]
  | cons head body =>
      have whole : ¬ slashQuotes (head :: body) = 34 :: rest := by
        intro same
        have starts : slashQuotes (head :: body) ++ [] <+: 34 :: rest := by
          rw [same, List.append_nil]
        exact slashQuotes_head_ne starts
      simp [SpellsBody, whole, slashQuotes_head_ne]

/-- Behind a backslash, a quote belongs to the body. -/
theorem spellsBody_head_quote {text body : Bytes} (spells : SpellsBody (92 :: 34 :: text) body) :
    ∃ rest, body = 34 :: rest := by
  cases body with
  | nil => simp [SpellsBody, slashQuotes] at spells
  | cons head body =>
      by_cases quote : head = 34
      · exact ⟨body, by rw [quote]⟩
      · unfold SpellsBody at spells
        rw [slashQuotes_cons quote, List.cons_append, List.cons_prefix_cons, List.cons.injEq]
          at spells
        cases body with
        | nil =>
            rcases spells with ⟨-, same⟩ | ⟨⟨backslash, -⟩, last⟩
            · cases same
            · exact absurd (by rw [backslash]; rfl) last
        | cons next body =>
            rcases spells with ⟨-, same⟩ | ⟨⟨-, starts⟩, -⟩
            · have whole : slashQuotes (next :: body) ++ [] <+: 34 :: text := by
                rw [same, List.append_nil]
              exact absurd whole slashQuotes_head_ne
            · exact absurd starts slashQuotes_head_ne

/-- The string loop reads a text as a body exactly if the text spells it. -/
theorem unescapeBody_eq_iff {before : UInt8} {text body : Bytes}
    (fresh : before ≠ 92 ∨ text.head? ≠ some 34) :
    unescapeBody before text = body ↔ SpellsBody text body := by
  -- Two bytes are consumed at an escaped quote, so the induction is on the length.
  induction total : text.length using Nat.strong_induction_on generalizing before text body with
  | _ size inductionHypothesis =>
  cases text with
  | nil =>
      cases body with
      | nil => simp [unescapeBody, SpellsBody, slashQuotes]
      | cons head body =>
          by_cases quote : head = 34
          · simp [unescapeBody, SpellsBody, quote, slashQuotes_quote]
          · simp [unescapeBody, SpellsBody, slashQuotes_cons quote]
  | cons byte rest =>
      rw [unescapeBody_cons]
      by_cases quote : byte = 34
      · have opened : before ≠ 92 := by
          rcases fresh with opened | other
          · exact opened
          · exact absurd (by rw [quote]; rfl) other
        rw [if_pos ⟨quote, opened⟩, quote, spellsBody_stop]
        exact eq_comm
      rw [if_neg (fun stop => quote stop.1)]
      by_cases escape : byte = 92 ∧ rest.head? = some 34
      · obtain ⟨tail, shape⟩ : ∃ tail, rest = 34 :: tail := by
          cases rest with
          | nil => cases escape.2
          | cons next tail => exact ⟨tail, by rw [Option.some.inj escape.2]⟩
        rw [if_pos escape, escape.1, shape, List.tail_cons]
        have shorter : tail.length < size := by
          rw [← total, shape, List.length_cons, List.length_cons]
          omega
        have later : ∀ body, unescapeBody 34 tail = body ↔ SpellsBody tail body :=
          fun body => inductionHypothesis tail.length shorter (Or.inl (by decide)) rfl
        constructor
        · rintro rfl
          exact spellsBody_quote.mpr ((later _).mp rfl)
        · intro spells
          obtain ⟨body', same⟩ := spellsBody_head_quote spells
          rw [same] at spells ⊢
          rw [(later body').mpr (spellsBody_quote.mp spells)]
      · have open_rest : byte ≠ 92 ∨ rest.head? ≠ some 34 := not_and_or.mp escape
        have shorter : rest.length < size := by
          rw [← total, List.length_cons]
          omega
        have later : ∀ body, unescapeBody byte rest = body ↔ SpellsBody rest body :=
          fun body => inductionHypothesis rest.length shorter open_rest rfl
        rw [if_neg escape]
        constructor
        · rintro rfl
          exact (spellsBody_cons quote escape).mpr ((later _).mp rfl)
        · intro spells
          obtain ⟨body', same⟩ := spellsBody_head quote escape spells
          rw [same] at spells ⊢
          rw [(later body').mpr ((spellsBody_cons quote escape).mp spells)]

theorem slashQuotes_sublist (body : Bytes) : body.Sublist (slashQuotes body) := by
  induction body with
  | nil => exact List.nil_sublist _
  | cons head body inductionHypothesis =>
      by_cases quote : head = 34
      · rw [quote, slashQuotes_quote]
        exact List.Sublist.cons _ (inductionHypothesis.cons_cons _)
      · rw [slashQuotes_cons quote]
        exact inductionHypothesis.cons_cons _

theorem SpellsBody.sublist {text body : Bytes} (spells : SpellsBody text body) :
    body.Sublist text := by
  apply (slashQuotes_sublist body).trans
  rcases spells with same | ⟨starts, -⟩
  · rw [same]
  · exact ((List.prefix_append _ _).trans starts).sublist

/-- The body that `parse_case2_body` returns, where the text fits its buffer. -/
theorem case2Body_of_entry {text rest : Bytes} (entry : Entry text (ascii "body") rest)
    {bodySz : Nat} (fits : text.length < bodySz) :
    case2Body text bodySz = unescapeBody 34 rest := by
  have shorter : (unescapeBody 34 rest).length ≤ bodySz - 1 := by
    have inside := ((unescapeBody_eq_iff (Or.inl (by decide))).mp rfl :
      SpellsBody rest (unescapeBody 34 rest)).sublist.length_le
    have suffix := entry.suffix.length_le
    rw [List.length_cons] at suffix
    omega
  obtain ⟨found, search, shape⟩ := entry
  have pattern : keyPattern (ascii "body") = ascii "\"body\":" := by decide
  have length : (ascii "\"body\":").length = 7 := by decide
  rw [pattern] at search shape
  rw [length] at shape
  unfold case2Body
  rw [search]
  dsimp only
  rw [shape]
  exact List.take_of_length_le shorter

theorem case2Body_of_no_entry {text : Bytes} (absent : ∀ rest, ¬ Entry text (ascii "body") rest)
    (bodySz : Nat) : case2Body text bodySz = [] := by
  have pattern : keyPattern (ascii "body") = ascii "\"body\":" := by decide
  have length : (ascii "\"body\":").length = 7 := by decide
  unfold Entry at absent
  rw [pattern, length] at absent
  unfold case2Body
  split
  · rfl
  · rename_i found search
    split
    · rename_i rest shape
      exact absurd ⟨found, search, shape⟩ (absent rest)
    · rfl

/-- What the worker makes of a combined text without NUL: a body exactly if the
first entry spells it, or nothing where there is none. -/
theorem cstr_case2Body_eq_iff {text body : Bytes} (clean : 0 ∉ text) {bodySz : Nat}
    (fits : text.length < bodySz) :
    cstr (case2Body text bodySz) = body ↔
      (∃ rest, Entry text (ascii "body") rest ∧ SpellsBody rest body) ∨
        (∀ rest, ¬ Entry text (ascii "body") rest) ∧ body = [] := by
  have fresh : (34 : UInt8) ≠ 92 := by decide
  by_cases present : ∃ rest, Entry text (ascii "body") rest
  · obtain ⟨rest, entry⟩ := present
    have inside : (unescapeBody 34 rest).Sublist rest :=
      ((unescapeBody_eq_iff (Or.inl fresh)).mp rfl : SpellsBody rest (unescapeBody 34 rest)).sublist
    have clean_body : 0 ∉ unescapeBody 34 rest := fun member =>
      clean (entry.suffix.subset (List.mem_cons_of_mem _ (inside.subset member)))
    rw [case2Body_of_entry entry fits, cstr_eq_self clean_body,
      unescapeBody_eq_iff (Or.inl fresh)]
    constructor
    · exact fun spells => Or.inl ⟨rest, entry, spells⟩
    · rintro (⟨other, otherEntry, spells⟩ | ⟨absent, -⟩)
      · rw [entry.unique otherEntry]
        exact spells
      · exact absurd entry (absent rest)
  · rw [not_exists] at present
    rw [case2Body_of_no_entry present]
    constructor
    · rintro rfl
      exact Or.inr ⟨present, rfl⟩
    · rintro (⟨rest, entry, -⟩ | ⟨-, empty⟩)
      · exact absurd entry (present rest)
      · rw [empty]
        rfl

/-! ### The JSON text of a body -/

/-- Behind a backslash of the body the text has one backslash too many. -/
theorem not_spellsBody_surplus {text : PyStr} {bytes : Bytes} (encoded : encode text = some bytes)
    (surplus : Nat) (tail : Bytes) :
    ¬ SpellsBody (92 :: (List.replicate surplus 92 ++ (escape text ++ 34 :: tail))) bytes := by
  induction text generalizing bytes surplus with
  | nil =>
      obtain rfl : [] = bytes := Option.some.inj encoded
      simp [SpellsBody, slashQuotes]
  | cons point text inductionHypothesis =>
      obtain ⟨character, rest, scalar, encodedRest, shape⟩ := encode_cons encoded
      have notEscape : ¬ ((92 : UInt8) = 92 ∧
          (List.replicate surplus 92 ++ (escape (point :: text) ++ 34 :: tail)).head? = some 34) := by
        rintro ⟨-, quote⟩
        cases surplus with
        | zero => exact escape_head_ne point text _ quote
        | succ surplus => simp [List.replicate_succ] at quote
      intro spells
      obtain ⟨seen, same⟩ := spellsBody_head (by decide) notEscape spells
      by_cases backslash : point.val = 92
      · have stretch : List.replicate surplus 92 ++ (escape (point :: text) ++ 34 :: tail) =
            92 :: (List.replicate (surplus + 1) 92 ++ (escape text ++ 34 :: tail)) := by
          rw [escape_cons, escapePoint_backslash backslash, ← List.cons_append, ← List.replicate_succ,
            List.replicate_succ', List.replicate_succ']
          simp
        rw [shape, utf8EncodeChar_backslash scalar backslash, List.singleton_append,
          spellsBody_cons (by decide) notEscape, stretch] at spells
        exact inductionHypothesis encodedRest (surplus + 1) spells
      · rw [shape] at same
        exact backslash_cons_ne scalar backslash seen rest same.symm

/-- The characters that the string loop brings back. -/
def Restored (point : CodePoint) : Prop := Unescaped point ∨ point.val = 34

theorem spellsBody_escape_iff {text : PyStr} {bytes : Bytes} (encoded : encode text = some bytes)
    (tail : Bytes) :
    SpellsBody (escape text ++ 34 :: tail) bytes ↔ ∀ point ∈ text, Restored point := by
  induction text generalizing bytes with
  | nil =>
      obtain rfl : [] = bytes := Option.some.inj encoded
      exact iff_of_true (spellsBody_stop.mpr rfl) (by simp)
  | cons point text inductionHypothesis =>
      obtain ⟨character, rest, scalar, encodedRest, shape⟩ := encode_cons encoded
      rw [escape_cons, List.append_assoc, List.forall_mem_cons, ← inductionHypothesis encodedRest]
      by_cases unescaped : Unescaped point
      · have low : point.val < 128 := Nat.lt_of_le_of_lt unescaped.2.1 (by decide)
        have quote : UInt8.ofNat point.val ≠ 34 := unescaped_byte_ne unescaped unescaped.2.2.1
        have backslash : UInt8.ofNat point.val ≠ 92 := unescaped_byte_ne unescaped unescaped.2.2.2
        rw [escapePoint_unescaped unescaped, shape, utf8EncodeChar_ascii scalar low,
          List.singleton_append, List.singleton_append,
          spellsBody_cons quote (fun escape => backslash escape.1)]
        exact (and_iff_right (Or.inl unescaped)).symm
      by_cases quote : point.val = 34
      · have quoted : escapePoint point = [92, 34] := by
          have same : point = ⟨34, by decide⟩ := Fin.ext quote
          rw [same]
          decide
        rw [quoted, shape, utf8EncodeChar_ascii scalar (by omega), quote]
        show SpellsBody (92 :: 34 :: (escape text ++ 34 :: tail)) (34 :: rest) ↔ _
        rw [spellsBody_quote]
        exact (and_iff_right (Or.inr quote)).symm
      · have lost : ¬ Restored point := not_or.mpr ⟨unescaped, quote⟩
        obtain ⟨second, more, escaped, notQuote⟩ := escapePoint_other unescaped quote
        refine iff_of_false ?_ (fun both => lost both.1)
        intro spells
        have notEscape : ¬ ((92 : UInt8) = 92 ∧
            (second :: (more ++ (escape text ++ 34 :: tail))).head? = some 34) := by
          simpa using notQuote
        rw [escaped, List.cons_append, List.cons_append] at spells
        obtain ⟨seen, same⟩ := spellsBody_head (by decide) notEscape spells
        by_cases backslash : point.val = 92
        · rw [escapePoint_backslash backslash] at escaped
          injection escaped with _ escaped
          injection escaped with isBackslash noMore
          rw [shape, utf8EncodeChar_backslash scalar backslash, List.singleton_append,
            spellsBody_cons (by decide) notEscape, ← isBackslash, ← noMore] at spells
          exact not_spellsBody_surplus encodedRest 0 tail spells
        · rw [shape] at same
          exact backslash_cons_ne scalar backslash seen rest same.symm

end MiniMs.Dpumesh
