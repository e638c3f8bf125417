import MiniMs.Library.JsonStops

/-!
How far the scanner reads: the piece of a text that makes a value, and that what
follows the piece has no part in it.

Owns: the extent of strings, words, numbers, arrays and objects, with the values
they are read as, and what becomes of an object whose closing brace is put off.
-/

namespace MiniMs.Library.Json

open MiniMs.Library.Text

/-! ### Blanks -/

/-- The characters that `skipSpace` passes over. -/
def Blank (point : CodePoint) : Prop :=
  point.val = 32 ∨ point.val = 9 ∨ point.val = 10 ∨ point.val = 13

instance (point : CodePoint) : Decidable (Blank point) := by
  unfold Blank
  infer_instance

theorem skipSpace_of_blank {point : CodePoint} (blank : Blank point) (rest : PyStr) :
    skipSpace (point :: rest) = skipSpace rest :=
  List.dropWhile_cons_of_pos (decide_eq_true blank)

theorem skipSpace_blanks {blanks : PyStr} (blank : ∀ point ∈ blanks, Blank point) (rest : PyStr) :
    skipSpace (blanks ++ rest) = skipSpace rest :=
  List.dropWhile_append_of_pos fun point member => decide_eq_true (blank point member)

/-- A text is blanks, and then what `skipSpace` leaves. -/
theorem blanks_append_skipSpace (text : PyStr) :
    ∃ blanks, text = blanks ++ skipSpace text ∧ ∀ point ∈ blanks, Blank point := by
  induction text with
  | nil => exact ⟨[], rfl, fun _ member => absurd member List.not_mem_nil⟩
  | cons point text inductionHypothesis =>
      by_cases blank : Blank point
      · obtain ⟨blanks, shape, blanks_blank⟩ := inductionHypothesis
        refine ⟨point :: blanks, ?_, List.forall_mem_cons.mpr ⟨blank, blanks_blank⟩⟩
        rw [skipSpace_of_blank blank, List.cons_append, ← shape]
      · refine ⟨[], ?_, fun _ member => absurd member List.not_mem_nil⟩
        rw [skipSpace_cons blank, List.nil_append]

theorem skipSpace_head {text rest : PyStr} {point : CodePoint}
    (skipped : skipSpace text = point :: rest) : ¬ Blank point := by
  induction text with
  | nil => exact absurd skipped (List.cons_ne_nil _ _).symm
  | cons first text inductionHypothesis =>
      by_cases blank : Blank first
      · rw [skipSpace_of_blank blank] at skipped
        exact inductionHypothesis skipped
      · rw [skipSpace_cons blank] at skipped
        rwa [← (List.cons.inj skipped).1]

theorem zero_not_mem_blanks {blanks : PyStr} (blank : ∀ point ∈ blanks, Blank point) :
    0 ∉ blanks := by
  intro member
  exact absurd (blank 0 member) (by decide)

/-- A text behind blanks, whatever follows it. -/
theorem exists_blanks_front {text front rest : PyStr} (skipped : skipSpace text = front ++ rest)
    (nonempty : front ≠ []) :
    ∃ blanks, text = blanks ++ (front ++ rest) ∧ (∀ point ∈ blanks, Blank point) ∧
      ∀ more, skipSpace (blanks ++ (front ++ more)) = front ++ more := by
  obtain ⟨blanks, shape, blank⟩ := blanks_append_skipSpace text
  refine ⟨blanks, by rwa [skipped] at shape, blank, fun more => ?_⟩
  cases front with
  | nil => exact absurd rfl nonempty
  | cons point front =>
      rw [skipSpace_blanks blank, List.cons_append, skipSpace_cons (skipSpace_head skipped)]

theorem exists_blanks {text rest : PyStr} {point : CodePoint}
    (skipped : skipSpace text = point :: rest) :
    ∃ blanks, text = blanks ++ point :: rest ∧ (∀ other ∈ blanks, Blank other) ∧
      ∀ more, skipSpace (blanks ++ point :: more) = point :: more :=
  @exists_blanks_front text [point] rest skipped (List.cons_ne_nil _ _)

/-! ### Strings -/

theorem zero_ne_of_hexValue {point : CodePoint} {digit : Nat} (read : hexValue point = some digit) :
    0 ≠ point := by
  rintro rfl
  contradiction

theorem codeUnit_extent {text rest : PyStr} {unit : Fin 0x10000}
    (read : codeUnit text = some (unit, rest)) :
    ∃ used, text = used ++ rest ∧ 0 ∉ used := by
  unfold codeUnit at read
  split at read
  · rename_i first second third fourth behind
    simp only [Option.bind_eq_bind, Option.bind_eq_some_iff] at read
    obtain ⟨_, digit1, _, digit2, _, digit3, _, digit4, same⟩ := read
    rw [← (Prod.mk.inj (Option.some.inj same)).2]
    refine ⟨[first, second, third, fourth], rfl, ?_⟩
    simp only [List.mem_cons, List.not_mem_nil, or_false, not_or]
    exact ⟨zero_ne_of_hexValue digit1, zero_ne_of_hexValue digit2, zero_ne_of_hexValue digit3,
      zero_ne_of_hexValue digit4⟩
  · contradiction

theorem scanUnit_extent {text rest : PyStr} {point : CodePoint}
    (read : scanUnit text = some (point, rest)) :
    ∃ used, text = used ++ rest ∧ 0 ∉ used := by
  unfold scanUnit at read
  simp only [Option.bind_eq_bind, Option.bind_eq_some_iff] at read
  obtain ⟨⟨high, behind⟩, first, read⟩ := read
  obtain ⟨used, rfl, clean⟩ := codeUnit_extent first
  dsimp only at read
  split at read
  · rename_i surrogates
    obtain ⟨⟨low, last⟩, second, read⟩ := Option.bind_eq_some_iff.mp read
    obtain ⟨used', shape, clean'⟩ := codeUnit_extent second
    dsimp only at read
    split at read
    · rw [← (Prod.mk.inj (Option.some.inj read)).2]
      refine ⟨used ++ ([92, 117] ++ used'), ?_, ?_⟩
      · have pair : behind = [92, 117] ++ behind.drop 2 := by
          rw [← surrogates.2.2, List.take_append_drop]
        rw [shape] at pair
        rw [pair]
        simp only [List.append_assoc]
      · simp only [List.mem_append, not_or]
        exact ⟨clean, by decide, clean'⟩
    · rw [← (Prod.mk.inj (Option.some.inj read)).2]
      exact ⟨used, rfl, clean⟩
  · rw [← (Prod.mk.inj (Option.some.inj read)).2]
    exact ⟨used, rfl, clean⟩

/-- An escape uses at least its letter. -/
theorem scanEscape_extent {text rest : PyStr} {point : CodePoint}
    (read : scanEscape text = some (point, rest)) :
    ∃ used, text = used ++ rest ∧ used ≠ [] ∧ 0 ∉ used := by
  cases text with
  | nil => contradiction
  | cons first text =>
      have zero : first ≠ 0 := by
        rintro rfl
        contradiction
      have single : 0 ∉ [first] := by
        rw [List.mem_singleton]
        exact zero.symm
      have one : text = rest → ∃ used, first :: text = used ++ rest ∧ used ≠ [] ∧ 0 ∉ used := by
        rintro rfl
        exact ⟨[first], rfl, List.cons_ne_nil _ _, single⟩
      unfold scanEscape at read
      dsimp only at read
      repeat' split at read
      all_goals first
        | contradiction
        | exact one (Prod.mk.inj (Option.some.inj read)).2
        | skip
      obtain ⟨used, rfl, clean⟩ := scanUnit_extent read
      refine ⟨first :: used, rfl, List.cons_ne_nil _ _, ?_⟩
      rw [List.mem_cons, not_or]
      exact ⟨zero.symm, clean⟩

/-- A string ends at a quotation mark, and what follows the mark has no part in it. -/
theorem scanString_extent {fuel : Nat} {text read rest : PyStr}
    (scan : scanString fuel text = some (read, rest)) :
    ∃ inner, text = inner ++ 34 :: rest ∧ 0 ∉ inner ∧
      ∀ more fuel', fuel ≤ fuel' → scanString fuel' (inner ++ 34 :: more) = some (read, more) := by
  induction fuel generalizing text read with
  | zero => contradiction
  | succ fuel inductionHypothesis =>
      cases text with
      | nil => contradiction
      | cons point text =>
          rw [scanString] at scan
          by_cases quote : point.val = 34
          · rw [if_pos quote] at scan
            obtain ⟨rfl, rfl⟩ := Prod.mk.inj (Option.some.inj scan)
            obtain rfl : point = 34 := Fin.ext quote
            refine ⟨[], rfl, List.not_mem_nil, fun more fuel' enough => ?_⟩
            obtain ⟨less, rfl⟩ : ∃ less, fuel' = less + 1 := ⟨fuel' - 1, by omega⟩
            rw [List.nil_append, scanString, if_pos quote]
          rw [if_neg quote] at scan
          by_cases backslash : point.val = 92
          · rw [if_pos backslash] at scan
            simp only [Option.bind_eq_bind, Option.bind_eq_some_iff] at scan
            obtain ⟨⟨character, rest'⟩, escape, ⟨later, last⟩, scan, same⟩ := scan
            obtain ⟨rfl, rfl⟩ := Prod.mk.inj (Option.some.inj same)
            obtain ⟨inner, rfl, clean, again⟩ := inductionHypothesis scan
            obtain ⟨used, rfl, nonempty, usedClean⟩ := scanEscape_extent escape
            obtain rfl : point = 92 := Fin.ext backslash
            refine ⟨92 :: (used ++ inner), by simp, ?_, fun more fuel' enough => ?_⟩
            · simp only [List.mem_cons, List.mem_append, not_or]
              exact ⟨by decide, usedClean, clean⟩
            · obtain ⟨less, rfl⟩ : ∃ less, fuel' = less + 1 := ⟨fuel' - 1, by omega⟩
              have front : used ++ inner ≠ [] := fun empty =>
                nonempty (List.append_eq_nil_iff.mp empty).1
              -- The escape is read within the string, so it can be read again.
              have within := scanEscape_quote last front
              rw [List.append_assoc, escape] at within
              obtain ⟨⟨character', kept⟩, escape', same'⟩ := Option.map_eq_some_iff.mp within.symm
              obtain ⟨rfl, kept_eq⟩ := Prod.mk.inj same'
              obtain rfl : kept = inner := List.append_cancel_right kept_eq
              have read := scanEscape_quote more front
              rw [escape'] at read
              rw [List.cons_append, scanString, if_neg quote, if_pos backslash, read]
              simp only [Option.map_some, addRest, Option.bind_eq_bind, Option.bind_some,
                again more less (by omega)]
          rw [if_neg backslash] at scan
          by_cases control : point.val < 32
          · rw [if_pos control] at scan
            contradiction
          · rw [if_neg control] at scan
            simp only [Option.bind_eq_bind, Option.bind_eq_some_iff] at scan
            obtain ⟨⟨later, last⟩, scan, same⟩ := scan
            obtain ⟨rfl, rfl⟩ := Prod.mk.inj (Option.some.inj same)
            obtain ⟨inner, rfl, clean, again⟩ := inductionHypothesis scan
            refine ⟨point :: inner, rfl, ?_, fun more fuel' enough => ?_⟩
            · rw [List.mem_cons, not_or]
              refine ⟨?_, clean⟩
              rintro rfl
              exact control (by decide)
            · obtain ⟨less, rfl⟩ : ∃ less, fuel' = less + 1 := ⟨fuel' - 1, by omega⟩
              rw [List.cons_append, scanString, if_neg quote, if_neg backslash, if_neg control]
              simp only [Option.bind_eq_bind, Option.bind_some, again more less (by omega)]

/-! ### Words and numbers -/

/-- A blank, a comma or a closing bracket. -/
def Closes (point : CodePoint) : Prop :=
  Blank point ∨ point.val = 44 ∨ point.val = 93 ∨ point.val = 125

/-- What can follow a word or a number: nothing, or a character that closes it. -/
def Ends (text : PyStr) : Prop := ∀ point, text.head? = some point → Closes point

theorem ends_nil : Ends [] := fun _ nothing => by contradiction

theorem ends_cons {point : CodePoint} (closes : Closes point) (rest : PyStr) :
    Ends (point :: rest) := by
  intro other head
  rwa [← Option.some.inj head]

/-- Blanks in front of a comma or a closing bracket. -/
theorem ends_of_skipSpace {text rest : PyStr} {point : CodePoint}
    (skipped : skipSpace text = point :: rest) (closes : Closes point) : Ends text := by
  cases text with
  | nil => exact ends_nil
  | cons first text =>
      by_cases blank : Blank first
      · exact ends_cons (Or.inl blank) text
      · rw [skipSpace_cons blank] at skipped
        rw [(List.cons.inj skipped).1]
        exact ends_cons closes text

theorem Closes.foreign {stop : CodePoint} (closes : Closes stop) : Foreign stop := by
  have letters : ∀ word ∈ [lit "null", lit "true", lit "false", lit "NaN", lit "Infinity",
      lit "-Infinity"], ∀ point ∈ word, 45 ≤ point.val ∧ point.val ≠ 93 ∧ point.val ≠ 125 := by
    simp only [List.forall_mem_cons]
    exact ⟨forall_mem_of_all (by decide), forall_mem_of_all (by decide),
      forall_mem_of_all (by decide), forall_mem_of_all (by decide),
      forall_mem_of_all (by decide), forall_mem_of_all (by decide), List.forall_mem_nil _⟩
  unfold Closes Blank at closes
  refine ⟨?_, by omega, by omega, by omega, fun word member inside => ?_⟩
  · unfold isDigit
    rw [decide_eq_false_iff_not]
    omega
  · have range := letters word member stop inside
    omega

theorem foreign_zero : Foreign 0 := ⟨rfl, by decide, by decide, by decide, by decide⟩

theorem scanInteger_suffix {text integer rest : PyStr}
    (read : scanInteger text = some (integer, rest)) : rest <:+ text := by
  cases text with
  | nil => contradiction
  | cons digit text =>
      unfold scanInteger at read
      dsimp only at read
      split at read
      · rw [← (Prod.mk.inj (Option.some.inj read)).2]
        exact List.suffix_cons _ _
      · split at read
        · rw [← (Prod.mk.inj (Option.some.inj read)).2]
          exact (List.dropWhile_suffix _).trans (List.suffix_cons _ _)
        · contradiction

theorem scanFraction_suffix (text : PyStr) : (scanFraction text).2 <:+ text := by
  unfold scanFraction
  split
  · split
    · exact ((List.dropWhile_suffix _).trans (List.suffix_cons _ _)).trans (List.suffix_cons _ _)
    · exact List.suffix_rfl
  · exact List.suffix_rfl

theorem scanExponent_suffix (text : PyStr) : (scanExponent text).2 <:+ text := by
  unfold scanExponent
  split
  · rename_i letter sign digit rest
    have behind : digit :: rest <:+ letter :: sign :: digit :: rest :=
      (List.suffix_cons _ _).trans (List.suffix_cons _ _)
    split
    · exact (List.dropWhile_suffix _).trans behind
    · split
      · exact ((List.dropWhile_suffix _).trans (List.suffix_cons _ _)).trans behind
      · exact List.suffix_rfl
  · split
    · exact List.nil_suffix
    · exact List.suffix_rfl
  · exact List.suffix_rfl

section Values

variable (float : PyStr → Numeral)

theorem scanNumber_suffix {text rest : PyStr} {numeral : Numeral}
    (read : scanNumber float text = some (numeral, rest)) : rest <:+ text := by
  unfold scanNumber at read
  dsimp only at read
  simp only [Option.bind_eq_bind, Option.bind_eq_some_iff] at read
  obtain ⟨⟨integer, behind⟩, first, read⟩ := read
  have number : (scanExponent (scanFraction behind).2).2 <:+ text :=
    (scanExponent_suffix _).trans ((scanFraction_suffix _).trans
      ((scanInteger_suffix first).trans (List.drop_suffix _ _)))
  dsimp only at read
  split at read
  · split at read
    · contradiction
    · rwa [← (Prod.mk.inj (Option.some.inj read)).2]
  · rwa [← (Prod.mk.inj (Option.some.inj read)).2]

theorem atom_suffix {point : CodePoint} (other : point ≠ 34 ∧ point ≠ 123 ∧ point ≠ 91)
    {text rest : PyStr} {value : Value}
    (read : scanOnce float 1 (point :: text) = some (value, rest)) : rest <:+ text := by
  have shorter := length_atom float other read
  have whole : rest <:+ point :: text := by
    have quote : ¬ point.val = 34 := fun same => other.1 (Fin.ext same)
    have brace : ¬ point.val = 123 := fun same => other.2.1 (Fin.ext same)
    have bracket : ¬ point.val = 91 := fun same => other.2.2 (Fin.ext same)
    have word : ∀ count, text.drop count <:+ point :: text := fun count =>
      (List.drop_suffix _ _).trans (List.suffix_cons _ _)
    rw [scanOnce, if_neg quote, if_neg brace, if_neg bracket] at read
    repeat' split at read
    all_goals first
      | (rw [← (Prod.mk.inj (Option.some.inj read)).2]; exact word _)
      | skip
    simp only [Option.bind_eq_bind, Option.bind_eq_some_iff] at read
    obtain ⟨⟨numeral, behind⟩, number, same⟩ := read
    rw [← (Prod.mk.inj (Option.some.inj same)).2]
    exact scanNumber_suffix float number
  rcases List.suffix_cons_iff.mp whole with same | within
  · rw [same] at shorter
    exact absurd shorter (Nat.lt_irrefl _)
  · exact within

theorem atom_ne_object {point : CodePoint} (other : point ≠ 34 ∧ point ≠ 123 ∧ point ≠ 91)
    {text rest : PyStr} {value : Value} {members : List (PyStr × Value)}
    (read : scanOnce float 1 (point :: text) = some (value, rest)) : value ≠ .object members := by
  have quote : ¬ point.val = 34 := fun same => other.1 (Fin.ext same)
  have brace : ¬ point.val = 123 := fun same => other.2.1 (Fin.ext same)
  have bracket : ¬ point.val = 91 := fun same => other.2.2 (Fin.ext same)
  rw [scanOnce, if_neg quote, if_neg brace, if_neg bracket] at read
  repeat' split at read
  all_goals first
    | (rw [← (Prod.mk.inj (Option.some.inj read)).1]; exact Value.noConfusion)
    | skip
  simp only [Option.bind_eq_bind, Option.bind_eq_some_iff] at read
  obtain ⟨⟨numeral, behind⟩, number, same⟩ := read
  rw [← (Prod.mk.inj (Option.some.inj same)).1]
  exact Value.noConfusion

theorem scanOnce_zero (text : PyStr) : scanOnce float 1 (0 :: text) = none := by
  have word : ∀ (count : Nat) (word : PyStr), 0 < count → word.head? ≠ some 0 →
      (0 :: text).take count ≠ word := by
    intro count word positive foreign same
    obtain ⟨less, rfl⟩ : ∃ less, count = less + 1 := ⟨count - 1, by omega⟩
    exact foreign (by rw [← same, List.take_succ_cons, List.head?_cons])
  rw [scanOnce, if_neg (by decide), if_neg (by decide), if_neg (by decide),
    if_neg (word 4 (lit "null") (by decide) (by decide)),
    if_neg (word 4 (lit "true") (by decide) (by decide)),
    if_neg (word 5 (lit "false") (by decide) (by decide)),
    if_neg (word 3 (lit "NaN") (by decide) (by decide)),
    if_neg (word 8 (lit "Infinity") (by decide) (by decide)),
    if_neg (word 9 (lit "-Infinity") (by decide) (by decide))]
  rfl

/-- A word or a number, and that what follows it has no part in it. -/
theorem atom_extent {point : CodePoint} (other : point ≠ 34 ∧ point ≠ 123 ∧ point ≠ 91)
    {text rest : PyStr} {value : Value}
    (read : scanOnce float 1 (point :: text) = some (value, rest)) (ends : Ends rest) :
    ∃ used, text = used ++ rest ∧ 0 ∉ point :: used ∧
      ∀ more, Ends more → scanOnce float 1 (point :: (used ++ more)) = some (value, more) := by
  obtain ⟨used, rfl⟩ := atom_suffix float other read
  have alone : scanOnce float 1 (point :: used) = some (value, []) := by
    cases rest with
    | nil => rwa [List.append_nil] at read
    | cons stop rest =>
        have foreign := (ends stop rfl).foreign
        rw [atom_foreign foreign rest float other] at read
        obtain ⟨⟨value', kept⟩, read', same⟩ := Option.map_eq_some_iff.mp read
        obtain ⟨rfl, kept_eq⟩ := Prod.mk.inj same
        have empty : kept = [] := List.append_cancel_right (kept_eq.trans (List.nil_append _).symm)
        rw [read', empty]
  refine ⟨used, rfl, ?_, fun more ends' => ?_⟩
  · rw [List.mem_cons, not_or]
    constructor
    · rintro rfl
      rw [scanOnce_zero] at alone
      contradiction
    · intro member
      obtain ⟨front, back, rfl⟩ := List.append_of_mem member
      rw [atom_foreign foreign_zero back float other] at alone
      obtain ⟨⟨value', kept⟩, -, same⟩ := Option.map_eq_some_iff.mp alone
      exact absurd (Prod.mk.inj same).2 (by simp)
  · cases more with
    | nil => rwa [List.append_nil]
    | cons stop more =>
        rw [atom_foreign (ends' stop rfl).foreign more float other, alone]
        rfl

/-! ### Values -/

variable {float} {fuel : Nat}

/-- A text that starts with a quotation mark or an opening bracket. -/
def Enclosed (text : PyStr) : Prop :=
  text.head? = some 34 ∨ text.head? = some 123 ∨ text.head? = some 91

variable (float fuel) in
/-- A value uses the front of the text, and what follows has no part in it. -/
def ValueExtent (text : PyStr) (value : Value) (rest : PyStr) : Prop :=
  ∃ used, text = used ++ rest ∧ 0 ∉ used ∧ ∀ more fuel', fuel ≤ fuel' →
    Ends more ∨ Enclosed text → scanOnce float fuel' (used ++ more) = some (value, more)

variable (float fuel) in
/-- Members use the text up to a closing brace. In place of the brace, more
members can be read. -/
def MembersExtent (text : PyStr) (before : List (PyStr × Value)) (value : Value) (rest : PyStr) :
    Prop :=
  ∃ front members, text = front ++ 125 :: rest ∧ value = .object members ∧ members ≠ [] ∧
    0 ∉ front ∧ 58 ∈ front ∧
    (∀ more fuel', fuel ≤ fuel' →
      scanMembers float fuel' (front ++ 125 :: more) before = some (.object members, more)) ∧
    ∀ enough extra whole more,
      (∀ fuel', enough ≤ fuel' →
        scanMembers float fuel' (skipSpace extra) members = some (whole, more)) →
      ∀ fuel', fuel + enough ≤ fuel' →
        scanMembers float fuel' (front ++ 44 :: extra) before = some (whole, more)

variable (float fuel) in
/-- Items use the text up to a closing bracket. -/
def ItemsExtent (text : PyStr) (before : List Value) (value : Value) (rest : PyStr) : Prop :=
  ∃ used items, text = used ++ rest ∧ value = .array items ∧ 0 ∉ used ∧
    ∀ more fuel', fuel ≤ fuel' →
      scanItems float fuel' (used ++ more) before = some (.array items, more)

theorem setItem_ne_nil (members : List (PyStr × Value)) (key : PyStr) (value : Value) :
    setItem members key value ≠ [] := by
  cases members with
  | nil => exact List.cons_ne_nil _ _
  | cons member members =>
      unfold setItem
      split
      · exact List.cons_ne_nil _ _
      · exact List.cons_ne_nil _ _

/-- A value behind blanks. -/
theorem ValueExtent.solid {text rest : PyStr} {value : Value}
    (extent : ValueExtent float fuel (skipSpace text) value rest) :
    ∃ blanks used, text = blanks ++ (used ++ rest) ∧ (∀ point ∈ blanks, Blank point) ∧ 0 ∉ used ∧
      ∀ more, Ends more → skipSpace (blanks ++ (used ++ more)) = used ++ more ∧
        ∀ fuel', fuel ≤ fuel' → scanOnce float fuel' (used ++ more) = some (value, more) := by
  obtain ⟨used, used_eq, clean, again⟩ := extent
  have nonempty : used ≠ [] := by
    rintro rfl
    have nothing := again [] fuel (le_refl _) (Or.inl ends_nil)
    cases fuel with
    | zero => contradiction
    | succ fuel => contradiction
  obtain ⟨blanks, shape, blank, behind⟩ := exists_blanks_front used_eq nonempty
  refine ⟨blanks, used, shape, blank, clean, fun more ends => ⟨behind more, ?_⟩⟩
  exact fun fuel' enough => again more fuel' enough (Or.inl ends)

/-- A member up to the comma or the closing brace. -/
theorem member_extent
    (values : ∀ text value rest, scanOnce float fuel text = some (value, rest) →
      Ends rest ∨ Enclosed text → ValueExtent float fuel text value rest)
    {text key colon behind after rest : PyStr} {item : Value} {stop : CodePoint}
    (string : scanString fuel text = some (key, colon)) (colon_eq : skipSpace colon = 58 :: behind)
    (value : scanOnce float fuel (skipSpace behind) = some (item, after))
    (stops : skipSpace after = stop :: rest) (closes : Closes stop) :
    ∃ front, text = front ++ stop :: rest ∧ 0 ∉ front ∧ 58 ∈ front ∧
      ∀ stop' more fuel', Closes stop' → ¬ Blank stop' → fuel ≤ fuel' →
        ∃ colon' behind' after', scanString fuel' (front ++ stop' :: more) = some (key, colon') ∧
          skipSpace colon' = 58 :: behind' ∧
          scanOnce float fuel' (skipSpace behind') = some (item, after') ∧
          skipSpace after' = stop' :: more := by
  obtain ⟨inner, rfl, innerClean, string'⟩ := scanString_extent string
  obtain ⟨blanks, rfl, blank, colon'⟩ := exists_blanks colon_eq
  have ends := ends_of_skipSpace stops closes
  obtain ⟨gap, used, rfl, gapBlank, usedClean, value'⟩ :=
    (values _ _ _ value (Or.inl ends)).solid
  obtain ⟨last, rfl, lastBlank, -⟩ := exists_blanks stops
  refine ⟨inner ++ 34 :: (blanks ++ 58 :: (gap ++ (used ++ last))), ?_, ?_, ?_, ?_⟩
  · simp only [List.append_assoc, List.cons_append]
  · simp only [List.mem_append, List.mem_cons, not_or]
    exact ⟨innerClean, by decide, zero_not_mem_blanks blank, by decide,
      zero_not_mem_blanks gapBlank, usedClean, zero_not_mem_blanks lastBlank⟩
  · simp
  · intro stop' more fuel' closes' solid enough
    have after' : skipSpace (last ++ stop' :: more) = stop' :: more := by
      rw [skipSpace_blanks lastBlank, skipSpace_cons solid]
    have ends' := ends_of_skipSpace after' closes'
    obtain ⟨behind', value'⟩ := value' (last ++ stop' :: more) ends'
    refine ⟨blanks ++ 58 :: (gap ++ (used ++ (last ++ stop' :: more))),
      gap ++ (used ++ (last ++ stop' :: more)), last ++ stop' :: more, ?_, colon' _, ?_, after'⟩
    · have read := string' (blanks ++ 58 :: (gap ++ (used ++ (last ++ stop' :: more)))) fuel' enough
      simpa only [List.append_assoc, List.cons_append] using read
    · rw [behind', value' fuel' enough]

section Steps

variable
  (values : ∀ text value rest, scanOnce float fuel text = some (value, rest) →
    Ends rest ∨ Enclosed text → ValueExtent float fuel text value rest)
  (members : ∀ text before value rest, scanMembers float fuel text before = some (value, rest) →
    MembersExtent float fuel text before value rest)
  (items : ∀ text before value rest, scanItems float fuel text before = some (value, rest) →
    ItemsExtent float fuel text before value rest)

include values members in
theorem scanMembers_extent {text : PyStr} {before : List (PyStr × Value)} {value : Value}
    {rest : PyStr} (read : scanMembers float (fuel + 1) text before = some (value, rest)) :
    MembersExtent float (fuel + 1) text before value rest := by
  cases membersStep_of_scan read with
  | @last _ key colon behind after _ item string colon_eq inner closes =>
      obtain ⟨front, rfl, clean, colonIn, again⟩ :=
        member_extent values string colon_eq inner closes (Or.inr (Or.inr (Or.inr rfl)))
      refine ⟨34 :: front, _, rfl, rfl, setItem_ne_nil _ _ _, ?_, List.mem_cons_of_mem _ colonIn,
        ?_, ?_⟩
      · rw [List.mem_cons, not_or]
        exact ⟨by decide, clean⟩
      · intro more fuel' enough
        obtain ⟨less, rfl⟩ : ∃ less, fuel' = less + 1 := ⟨fuel' - 1, by omega⟩
        obtain ⟨colon', behind', after', string', colon_eq', inner', closes'⟩ :=
          again 125 more less (Or.inr (Or.inr (Or.inr rfl))) (by decide) (by omega)
        exact (MembersStep.last string' colon_eq' inner' closes').scan
      · intro enough extra whole more later fuel' much
        obtain ⟨less, rfl⟩ : ∃ less, fuel' = less + 1 := ⟨fuel' - 1, by omega⟩
        obtain ⟨colon', behind', after', string', colon_eq', inner', comma'⟩ :=
          again 44 extra less (Or.inr (Or.inl rfl)) (by decide) (by omega)
        exact (MembersStep.next string' colon_eq' inner' comma' (later less (by omega))).scan
  | @next _ key colon behind after tail _ item _ string colon_eq inner comma later =>
      obtain ⟨front, rfl, clean, colonIn, again⟩ :=
        member_extent values string colon_eq inner comma (Or.inr (Or.inl rfl))
      obtain ⟨back, whole, tail_eq, rfl, nonempty, backClean, backColon, closing, putOff⟩ :=
        members _ _ _ _ later
      obtain ⟨blanks, shape, blank, solid⟩ :=
        exists_blanks_front tail_eq (List.ne_nil_of_mem backColon)
      refine ⟨34 :: (front ++ 44 :: (blanks ++ back)), whole, ?_, rfl, nonempty, ?_, ?_, ?_, ?_⟩
      · rw [shape]
        simp only [List.cons_append, List.append_assoc]
      · simp only [List.mem_cons, List.mem_append, not_or]
        exact ⟨by decide, clean, by decide, zero_not_mem_blanks blank, backClean⟩
      · simp [colonIn]
      · intro more fuel' enough
        obtain ⟨less, rfl⟩ : ∃ less, fuel' = less + 1 := ⟨fuel' - 1, by omega⟩
        obtain ⟨colon', behind', after', string', colon_eq', inner', comma'⟩ :=
          again 44 (blanks ++ (back ++ 125 :: more)) less (Or.inr (Or.inl rfl)) (by decide) (by omega)
        have later' := closing more less (by omega)
        rw [← solid] at later'
        have read' := (MembersStep.next string' colon_eq' inner' comma' later').scan
        simpa only [List.cons_append, List.append_assoc] using read'
      · intro enough extra whole' more next fuel' much
        obtain ⟨less, rfl⟩ : ∃ less, fuel' = less + 1 := ⟨fuel' - 1, by omega⟩
        obtain ⟨colon', behind', after', string', colon_eq', inner', comma'⟩ :=
          again 44 (blanks ++ (back ++ 44 :: extra)) less (Or.inr (Or.inl rfl)) (by decide) (by omega)
        have later' := putOff enough extra whole' more next less (by omega)
        rw [← solid] at later'
        have read' := (MembersStep.next string' colon_eq' inner' comma' later').scan
        simpa only [List.cons_append, List.append_assoc] using read'

include values items in
theorem scanItems_extent {text : PyStr} {before : List Value} {value : Value}
    {rest : PyStr} (read : scanItems float (fuel + 1) text before = some (value, rest)) :
    ItemsExtent float (fuel + 1) text before value rest := by
  cases itemsStep_of_scan read with
  | last inner closes =>
      have ends := ends_of_skipSpace closes (Or.inr (Or.inr (Or.inl rfl)))
      obtain ⟨used, rfl, clean, again⟩ := values _ _ _ inner (Or.inl ends)
      obtain ⟨blanks, rfl, blank, bracket⟩ := exists_blanks closes
      refine ⟨used ++ (blanks ++ [93]), _, by simp, rfl, ?_, fun more fuel' enough => ?_⟩
      · simp only [List.mem_append, List.mem_singleton, not_or]
        exact ⟨clean, zero_not_mem_blanks blank, by decide⟩
      · obtain ⟨less, rfl⟩ : ∃ less, fuel' = less + 1 := ⟨fuel' - 1, by omega⟩
        have ends' := ends_of_skipSpace (bracket more) (Or.inr (Or.inr (Or.inl rfl)))
        have inner' := again (blanks ++ 93 :: more) less (by omega) (Or.inl ends')
        have read' := (@ItemsStep.last float less before _ _ _ _ inner' (bracket more)).scan
        simpa only [List.append_assoc, List.cons_append, List.nil_append] using read'
  | next inner comma later =>
      have ends := ends_of_skipSpace comma (Or.inr (Or.inl rfl))
      obtain ⟨used, rfl, clean, again⟩ := values _ _ _ inner (Or.inl ends)
      obtain ⟨blanks, rfl, blank, comma'⟩ := exists_blanks comma
      obtain ⟨back, whole, tail_eq, rfl, backClean, later'⟩ := items _ _ _ _ later
      have nonempty : back ≠ [] := by
        rintro rfl
        have nothing := later' [] fuel (le_refl _)
        rw [List.nil_append, scanItems_nil] at nothing
        contradiction
      obtain ⟨gap, shape, gapBlank, solid⟩ := exists_blanks_front tail_eq nonempty
      refine ⟨used ++ (blanks ++ 44 :: (gap ++ back)), whole, ?_, rfl, ?_, fun more fuel' enough => ?_⟩
      · rw [shape]
        simp only [List.append_assoc, List.cons_append]
      · simp only [List.mem_append, List.mem_cons, not_or]
        exact ⟨clean, zero_not_mem_blanks blank, by decide, zero_not_mem_blanks gapBlank, backClean⟩
      · obtain ⟨less, rfl⟩ : ∃ less, fuel' = less + 1 := ⟨fuel' - 1, by omega⟩
        have here := comma' (gap ++ (back ++ more))
        have ends' := ends_of_skipSpace here (Or.inr (Or.inl rfl))
        have inner' := again (blanks ++ 44 :: (gap ++ (back ++ more))) less (by omega)
          (Or.inl ends')
        have again' := later' more less (by omega)
        rw [← solid] at again'
        have read' := (@ItemsStep.next float less before _ _ _ _ _ _ inner' here again').scan
        simpa only [List.append_assoc, List.cons_append] using read'

include members items in
theorem scanOnce_extent {text : PyStr} {value : Value} {rest : PyStr}
    (read : scanOnce float (fuel + 1) text = some (value, rest)) (ends : Ends rest ∨ Enclosed text) :
    ValueExtent float (fuel + 1) text value rest := by
  cases onceStep_of_scan read with
  | string inner =>
      obtain ⟨used, rfl, clean, again⟩ := scanString_extent inner
      refine ⟨34 :: (used ++ [34]), by simp, ?_, fun more fuel' enough _ => ?_⟩
      · simp only [List.mem_cons, List.mem_append, List.not_mem_nil, or_false, not_or]
        exact ⟨by decide, clean, by decide⟩
      · obtain ⟨less, rfl⟩ : ∃ less, fuel' = less + 1 := ⟨fuel' - 1, by omega⟩
        have read' := (@OnceStep.string float less _ _ _ (again more less (by omega))).scan
        simpa only [List.cons_append, List.append_assoc, List.nil_append] using read'
  | emptyObject closes =>
      obtain ⟨blanks, rfl, blank, brace⟩ := exists_blanks closes
      refine ⟨123 :: (blanks ++ [125]), by simp, ?_, fun more fuel' enough _ => ?_⟩
      · simp only [List.mem_cons, List.mem_append, List.not_mem_nil, or_false, not_or]
        exact ⟨by decide, zero_not_mem_blanks blank, by decide⟩
      · obtain ⟨less, rfl⟩ : ∃ less, fuel' = less + 1 := ⟨fuel' - 1, by omega⟩
        have read' := (@OnceStep.emptyObject float less _ _ (brace more)).scan
        simpa only [List.cons_append, List.append_assoc, List.nil_append] using read'
  | object opens inner =>
      obtain ⟨front, found, shape, rfl, nonempty, clean, colon, closing, -⟩ := members _ _ _ _ inner
      have nonemptyFront := List.ne_nil_of_mem colon
      obtain ⟨blanks, rfl, blank, solid⟩ := exists_blanks_front shape nonemptyFront
      refine ⟨123 :: (blanks ++ (front ++ [125])), by simp, ?_, fun more fuel' enough _ => ?_⟩
      · simp only [List.mem_cons, List.mem_append, List.not_mem_nil, or_false, not_or]
        exact ⟨by decide, zero_not_mem_blanks blank, clean, by decide⟩
      · obtain ⟨less, rfl⟩ : ∃ less, fuel' = less + 1 := ⟨fuel' - 1, by omega⟩
        have here := solid (125 :: more)
        have opens' : (skipSpace (blanks ++ (front ++ 125 :: more))).head? ≠ some 125 := by
          rw [solid, List.head?_append_of_ne_nil _ nonemptyFront] at opens
          rwa [here, List.head?_append_of_ne_nil _ nonemptyFront]
        have inner' := closing more less (by omega)
        rw [← here] at inner'
        have read' := (OnceStep.object opens' inner').scan
        simpa only [List.cons_append, List.append_assoc, List.nil_append] using read'
  | emptyArray closes =>
      obtain ⟨blanks, rfl, blank, bracket⟩ := exists_blanks closes
      refine ⟨91 :: (blanks ++ [93]), by simp, ?_, fun more fuel' enough _ => ?_⟩
      · simp only [List.mem_cons, List.mem_append, List.not_mem_nil, or_false, not_or]
        exact ⟨by decide, zero_not_mem_blanks blank, by decide⟩
      · obtain ⟨less, rfl⟩ : ∃ less, fuel' = less + 1 := ⟨fuel' - 1, by omega⟩
        have read' := (@OnceStep.emptyArray float less _ _ (bracket more)).scan
        simpa only [List.cons_append, List.append_assoc, List.nil_append] using read'
  | array opens inner =>
      obtain ⟨used, found, shape, rfl, clean, again⟩ := items _ _ _ _ inner
      have nonempty : used ≠ [] := by
        rintro rfl
        have nothing := again [] fuel (le_refl _)
        rw [List.nil_append, scanItems_nil] at nothing
        contradiction
      obtain ⟨blanks, rfl, blank, solid⟩ := exists_blanks_front shape nonempty
      refine ⟨91 :: (blanks ++ used), by simp, ?_, fun more fuel' enough _ => ?_⟩
      · simp only [List.mem_cons, List.mem_append, not_or]
        exact ⟨by decide, zero_not_mem_blanks blank, clean⟩
      · obtain ⟨less, rfl⟩ : ∃ less, fuel' = less + 1 := ⟨fuel' - 1, by omega⟩
        have here := solid more
        have opens' : (skipSpace (blanks ++ (used ++ more))).head? ≠ some 93 := by
          rw [solid, List.head?_append_of_ne_nil _ nonempty] at opens
          rwa [here, List.head?_append_of_ne_nil _ nonempty]
        have inner' := again more less (by omega)
        rw [← here] at inner'
        have read' := (OnceStep.array opens' inner').scan
        simpa only [List.cons_append, List.append_assoc] using read'
  | @atom point behind _ _ other inner =>
      have notEnclosed : ¬ Enclosed (point :: behind) := by
        unfold Enclosed
        simp only [List.head?_cons, Option.some.injEq, not_or]
        exact other
      have ends := ends.resolve_right notEnclosed
      obtain ⟨used, rfl, clean, again⟩ := atom_extent float other inner ends
      refine ⟨point :: used, rfl, clean, fun more fuel' enough ends' => ?_⟩
      obtain ⟨less, rfl⟩ : ∃ less, fuel' = less + 1 := ⟨fuel' - 1, by omega⟩
      exact (OnceStep.atom other (again more (ends'.resolve_right notEnclosed))).scan

end Steps

theorem extents (fuel : Nat) :
    (∀ text value rest, scanOnce float fuel text = some (value, rest) → Ends rest ∨ Enclosed text →
      ValueExtent float fuel text value rest) ∧
    (∀ text before value rest, scanMembers float fuel text before = some (value, rest) →
      MembersExtent float fuel text before value rest) ∧
    ∀ text before value rest, scanItems float fuel text before = some (value, rest) →
      ItemsExtent float fuel text before value rest := by
  induction fuel with
  | zero =>
      refine ⟨fun text value rest read => ?_, fun text before value rest read => ?_,
        fun text before value rest read => ?_⟩
      · rw [scanOnce] at read
        contradiction
      · rw [scanMembers] at read
        contradiction
      · rw [scanItems] at read
        contradiction
  | succ fuel inductionHypothesis =>
      obtain ⟨values, members, items⟩ := inductionHypothesis
      exact ⟨fun _ _ _ read ends => scanOnce_extent members items read ends,
        fun _ _ _ _ read => scanMembers_extent values members read,
        fun _ _ _ _ read => scanItems_extent values items read⟩

end Values

/-! ### Whole texts -/

section Whole

variable {float : PyStr → Numeral}

theorem blank_of_skipSpace_nil {text : PyStr} (skipped : skipSpace text = []) :
    ∀ point ∈ text, Blank point := by
  obtain ⟨blanks, shape, blank⟩ := blanks_append_skipSpace text
  rw [skipped, List.append_nil] at shape
  rwa [shape]

/-- More fuel does not change what is read. -/
theorem scanOnce_mono {fuel fuel' : Nat} {text rest : PyStr} {value : Value}
    (read : scanOnce float fuel text = some (value, rest)) (enclosed : Enclosed text)
    (enough : fuel ≤ fuel') : scanOnce float fuel' text = some (value, rest) := by
  obtain ⟨used, shape, -, again⟩ := (extents fuel).1 text value rest read (Or.inr enclosed)
  rw [shape]
  exact again rest fuel' enough (Or.inr enclosed)

/-- A value that some fuel reads is the value of the text. -/
theorem loads_of_scan {fuel : Nat} {text rest : PyStr} {value : Value}
    (bom : text.head? ≠ some 0xfeff)
    (read : scanOnce float fuel (skipSpace text) = some (value, rest))
    (enclosed : Enclosed (skipSpace text)) (blank : skipSpace rest = []) :
    loads float text = some value := by
  have le := length_skipSpace_le text
  have reads := (reads_of_scan float fuel).1 _ _ _ read
  obtain ⟨value', read'⟩ := (scanned_of_reads reads).2 (text.length + 1) (by omega)
  have large := scanOnce_mono read enclosed (Nat.le_max_left fuel (text.length + 1))
  have large' := scanOnce_mono read' enclosed (Nat.le_max_right fuel (text.length + 1))
  have same : value = value' := (Prod.mk.inj (Option.some.inj (large.symm.trans large'))).1
  unfold loads
  rw [if_neg bom, read', same]
  simp [blank]

theorem scan_of_loads {text : PyStr} {value : Value} (loaded : loads float text = some value) :
    text.head? ≠ some 0xfeff ∧ ∃ rest,
      scanOnce float (text.length + 1) (skipSpace text) = some (value, rest) ∧
        skipSpace rest = [] := by
  unfold loads at loaded
  by_cases bom : text.head? = some 0xfeff
  · rw [if_pos bom] at loaded
    contradiction
  · rw [if_neg bom] at loaded
    simp only [Option.bind_eq_bind, Option.bind_eq_some_iff] at loaded
    obtain ⟨⟨value', rest⟩, read, loaded⟩ := loaded
    dsimp only at loaded
    by_cases blank : skipSpace rest = []
    · rw [if_pos blank] at loaded
      rw [← Option.some.inj loaded]
      exact ⟨bom, rest, read, blank⟩
    · rw [if_neg blank] at loaded
      contradiction

/-- Nothing that is shorter than a text in brackets or quotes is a text itself. -/
theorem loads_cut {front back : PyStr} {value : Value} (nonempty : back ≠ [])
    (solid : ∀ point, back.getLast? = some point → ¬ Blank point)
    (enclosed : Enclosed (skipSpace (front ++ back)))
    (loaded : loads float (front ++ back) = some value) : loads float front = none := by
  by_contra accepted
  obtain ⟨value', loaded'⟩ := Option.ne_none_iff_exists'.mp accepted
  obtain ⟨-, rest, read, blank⟩ := scan_of_loads loaded
  obtain ⟨-, rest', read', blank'⟩ := scan_of_loads loaded'
  have opened : skipSpace front ≠ [] := by
    intro empty
    rw [empty, scanOnce] at read'
    contradiction
  have behind : skipSpace (front ++ back) = skipSpace front ++ back := by
    obtain ⟨blanks, shape, -, solid⟩ :=
      exists_blanks_front (List.append_nil (skipSpace front)).symm opened
    rw [List.append_nil] at shape
    have split := solid back
    rwa [← List.append_assoc, ← shape] at split
  have enclosed' : Enclosed (skipSpace front) := by
    unfold Enclosed at enclosed ⊢
    rwa [behind, List.head?_append_of_ne_nil _ opened] at enclosed
  obtain ⟨used, front_eq, -, again⟩ := (extents _).1 _ _ _ read' (Or.inr enclosed')
  have first := again (rest' ++ back) _ (le_refl _) (Or.inr enclosed')
  rw [← List.append_assoc, ← front_eq, ← behind] at first
  -- One text, read twice: what is left is one.
  have large := scanOnce_mono read enclosed (Nat.le_max_left _ (front.length + 1))
  have large' := scanOnce_mono first enclosed (Nat.le_max_right ((front ++ back).length + 1) _)
  have same : rest = rest' ++ back := (Prod.mk.inj (Option.some.inj (large.symm.trans large'))).2
  have blankBack := blank_of_skipSpace_nil blank (back.getLast nonempty)
    (by rw [same]; exact List.mem_append_right _ (List.getLast_mem nonempty))
  exact solid _ (List.getLast?_eq_some_getLast nonempty) blankBack

/-- The text of an object up to its closing brace, and that another member can be
put in front of the brace. -/
theorem object_text {text : PyStr} {members : List (PyStr × Value)}
    (loaded : loads float text = some (.object members)) :
    ∃ front blanks, text = front ++ 125 :: blanks ∧ (∀ point ∈ blanks, Blank point) ∧ 0 ∉ front ∧
      (58 ∈ front ↔ members ≠ []) ∧ ∀ member : Member float,
        loads float (front ++ ((if 58 ∈ front then [44, 32] else []) ++ membersText member [])) =
          some (.object (setItem members member.key member.value)) := by
  obtain ⟨bom, rest, read, blank⟩ := scan_of_loads loaded
  obtain ⟨before, shape, beforeBlank⟩ := blanks_append_skipSpace text
  have restBlank := blank_of_skipSpace_nil blank
  have colonBlank : ∀ {blanks : PyStr}, (∀ point ∈ blanks, Blank point) → 58 ∉ blanks := by
    intro blanks blank member
    exact absurd (blank 58 member) (by decide)
  have started : ∀ behind more : PyStr, text = before ++ 123 :: behind →
      (before ++ 123 :: more).head? ≠ some 0xfeff := by
    intro behind more same
    rw [same] at bom
    cases before with
    | nil => exact bom
    | cons point before => exact bom
  have opened : ∀ more, skipSpace (before ++ 123 :: more) = 123 :: more := by
    intro more
    rw [skipSpace_blanks beforeBlank, skipSpace_cons (by decide)]
  have enclosed : ∀ more, Enclosed (skipSpace (before ++ 123 :: more)) := by
    intro more
    rw [opened]
    exact Or.inr (Or.inl rfl)
  have inserted : ∀ (members : List (PyStr × Value)) (fuel : Nat) (member : Member float),
      (membersText member []).length < fuel →
      scanMembers float fuel (membersText member []) members =
        some (.object (setItem members member.key member.value), []) := by
    intro members fuel member enough
    have read := scanMembers_text member [] fuel [] (by rwa [List.append_nil]) members
    rwa [List.append_nil] at read
  have solid : ∀ member : Member float, skipSpace (membersText member []) = membersText member [] :=
    fun member => skipSpace_cons (by decide) _
  generalize skipSpace text = whole at shape read
  cases onceStep_of_scan read with
  | @emptyObject behind _ closes =>
      obtain ⟨gap, rfl, gapBlank, -⟩ := exists_blanks closes
      have noColon : 58 ∉ before ++ 123 :: gap := by
        simp only [List.mem_append, List.mem_cons, not_or]
        exact ⟨colonBlank beforeBlank, by decide, colonBlank gapBlank⟩
      refine ⟨before ++ 123 :: gap, rest, by simp [shape], restBlank, ?_, ?_, fun member => ?_⟩
      · simp only [List.mem_append, List.mem_cons, not_or]
        exact ⟨zero_not_mem_blanks beforeBlank, by decide, zero_not_mem_blanks gapBlank⟩
      · exact ⟨fun colon => absurd colon noColon, fun nonempty => absurd rfl nonempty⟩
      · rw [if_neg noColon, List.nil_append, List.append_assoc, List.cons_append]
        have inner : skipSpace (gap ++ membersText member []) = membersText member [] := by
          rw [skipSpace_blanks gapBlank, solid]
        have opens : (skipSpace (gap ++ membersText member [])).head? ≠ some 125 := by
          rw [inner]
          simp [membersText, Member.text]
        have read' := inserted [] _ member (Nat.lt_succ_self _)
        rw [← inner] at read'
        have whole := (OnceStep.object opens read').scan
        rw [← opened] at whole
        exact loads_of_scan (started _ _ shape) whole (enclosed _) rfl
  | @object behind _ _ opens inner =>
      obtain ⟨front, members', shape', same, nonempty, clean, colon, -, putOff⟩ :=
        (extents _).2.1 _ _ _ _ inner
      obtain rfl : members = members' := Value.object.inj same
      have nonemptyFront := List.ne_nil_of_mem colon
      obtain ⟨gap, rfl, gapBlank, behind⟩ := exists_blanks_front shape' nonemptyFront
      have colonIn : 58 ∈ before ++ 123 :: (gap ++ front) := by simp [colon]
      refine ⟨before ++ 123 :: (gap ++ front), rest, by simp [shape], restBlank, ?_, ?_,
        fun member => ?_⟩
      · simp only [List.mem_append, List.mem_cons, not_or]
        exact ⟨zero_not_mem_blanks beforeBlank, by decide, zero_not_mem_blanks gapBlank, clean⟩
      · exact ⟨fun _ => nonempty, fun _ => colonIn⟩
      · rw [if_pos colonIn]
        have text_eq : before ++ 123 :: (gap ++ front) ++ ([44, 32] ++ membersText member []) =
            before ++ 123 :: (gap ++ (front ++ 44 :: 32 :: membersText member [])) := by simp
        have later : ∀ fuel, (membersText member []).length + 1 ≤ fuel →
            scanMembers float fuel (skipSpace (32 :: membersText member [])) members =
              some (.object (setItem members member.key member.value), []) := by
          intro fuel enough
          rw [skipSpace_blank, solid]
          exact inserted members fuel member (by omega)
        have read' := putOff _ _ _ _ later _ (le_refl _)
        have opens' : (skipSpace (gap ++ (front ++ 44 :: 32 :: membersText member []))).head? ≠
            some 125 := by
          rw [behind, List.head?_append_of_ne_nil _ nonemptyFront] at opens ⊢
          exact opens
        rw [← behind] at read'
        have whole := (OnceStep.object opens' read').scan
        rw [← opened] at whole
        rw [text_eq]
        exact loads_of_scan (started _ _ shape) whole (enclosed _) rfl
  | array opens inner =>
      obtain ⟨_, _, _, same, _⟩ := (extents _).2.2 _ _ _ _ inner
      exact Value.noConfusion same
  | atom other read => exact absurd rfl (atom_ne_object float other read)

end Whole

end MiniMs.Library.Json
