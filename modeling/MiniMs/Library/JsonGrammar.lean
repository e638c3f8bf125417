import MiniMs.Library.JsonDumped

/-!
The texts that `json.loads` accepts, as a relation without fuel.

Owns: the pieces of a JSON text and what each leaves behind it, the two theorems
that tie them to the scanner, and the rule that two endings of a text can be
exchanged where a string of the text ends in front of them.

The values of the pieces are not kept.
-/

namespace MiniMs.Library.Json

open MiniMs.Library.Text

section Grammar

variable (float : PyStr → Numeral)

/-! ### The pieces of a text -/

/-- What the scanner is in the middle of. -/
inductive Piece where
  | value
  | members
  | afterMember
  | items
  | afterItem

/-- The rest of a string, behind its opening quote. -/
def ReadsString (text rest : PyStr) : Prop := ∃ fuel read, scanString fuel text = some (read, rest)

/-- A piece of a text, up to what it leaves. A word or a number needs no fuel
but the first. -/
inductive Reads : Piece → PyStr → PyStr → Prop where
  | string {text rest : PyStr} (read : ReadsString text rest) : Reads .value (34 :: text) rest
  | emptyObject {text rest : PyStr} (closes : skipSpace text = 125 :: rest) :
      Reads .value (123 :: text) rest
  | object {text rest : PyStr} (inner : Reads .members (skipSpace text) rest) :
      Reads .value (123 :: text) rest
  | emptyArray {text rest : PyStr} (closes : skipSpace text = 93 :: rest) :
      Reads .value (91 :: text) rest
  | array {text rest : PyStr} (opens : (skipSpace text).head? ≠ some 93)
      (inner : Reads .items (skipSpace text) rest) : Reads .value (91 :: text) rest
  | atom {point : CodePoint} {text rest : PyStr} {value : Value}
      (other : point ≠ 34 ∧ point ≠ 123 ∧ point ≠ 91)
      (read : scanOnce float 1 (point :: text) = some (value, rest)) :
      Reads .value (point :: text) rest
  | member {text colon behind after rest : PyStr} (key : ReadsString text colon)
      (colon_eq : skipSpace colon = 58 :: behind) (value : Reads .value (skipSpace behind) after)
      (later : Reads .afterMember (skipSpace after) rest) : Reads .members (34 :: text) rest
  | lastMember {rest : PyStr} : Reads .afterMember (125 :: rest) rest
  | nextMember {text rest : PyStr} (next : Reads .members (skipSpace text) rest) :
      Reads .afterMember (44 :: text) rest
  | item {text after rest : PyStr} (value : Reads .value text after)
      (later : Reads .afterItem (skipSpace after) rest) : Reads .items text rest
  | lastItem {rest : PyStr} : Reads .afterItem (93 :: rest) rest
  | nextItem {text rest : PyStr} (next : Reads .items (skipSpace text) rest) :
      Reads .afterItem (44 :: text) rest

/-! ### One step of the scanner -/

/-- What `scan_once` does with one more fuel. -/
inductive OnceStep (fuel : Nat) : PyStr → Value → PyStr → Prop where
  | string {behind rest text : PyStr} (read : scanString fuel behind = some (text, rest)) :
      OnceStep fuel (34 :: behind) (.string text) rest
  | emptyObject {behind rest : PyStr} (closes : skipSpace behind = 125 :: rest) :
      OnceStep fuel (123 :: behind) (.object []) rest
  | object {behind rest : PyStr} {value : Value} (opens : (skipSpace behind).head? ≠ some 125)
      (read : scanMembers float fuel (skipSpace behind) [] = some (value, rest)) :
      OnceStep fuel (123 :: behind) value rest
  | emptyArray {behind rest : PyStr} (closes : skipSpace behind = 93 :: rest) :
      OnceStep fuel (91 :: behind) (.array []) rest
  | array {behind rest : PyStr} {value : Value} (opens : (skipSpace behind).head? ≠ some 93)
      (read : scanItems float fuel (skipSpace behind) [] = some (value, rest)) :
      OnceStep fuel (91 :: behind) value rest
  | atom {point : CodePoint} {behind rest : PyStr} {value : Value}
      (other : point ≠ 34 ∧ point ≠ 123 ∧ point ≠ 91)
      (read : scanOnce float 1 (point :: behind) = some (value, rest)) :
      OnceStep fuel (point :: behind) value rest

/-- What a member does with one more fuel. -/
inductive MembersStep (fuel : Nat) (before : List (PyStr × Value)) :
    PyStr → Value → PyStr → Prop where
  | last {text key colon behind after rest : PyStr} {item : Value}
      (string : scanString fuel text = some (key, colon)) (colon_eq : skipSpace colon = 58 :: behind)
      (value : scanOnce float fuel (skipSpace behind) = some (item, after))
      (closes : skipSpace after = 125 :: rest) :
      MembersStep fuel before (34 :: text) (.object (setItem before key item)) rest
  | next {text key colon behind after tail rest : PyStr} {item whole : Value}
      (string : scanString fuel text = some (key, colon)) (colon_eq : skipSpace colon = 58 :: behind)
      (value : scanOnce float fuel (skipSpace behind) = some (item, after))
      (comma : skipSpace after = 44 :: tail)
      (later : scanMembers float fuel (skipSpace tail) (setItem before key item) =
        some (whole, rest)) :
      MembersStep fuel before (34 :: text) whole rest

/-- What an item does with one more fuel. -/
inductive ItemsStep (fuel : Nat) (before : List Value) : PyStr → Value → PyStr → Prop where
  | last {text after rest : PyStr} {item : Value}
      (value : scanOnce float fuel text = some (item, after))
      (closes : skipSpace after = 93 :: rest) :
      ItemsStep fuel before text (.array (before ++ [item])) rest
  | next {text after tail rest : PyStr} {item whole : Value}
      (value : scanOnce float fuel text = some (item, after))
      (comma : skipSpace after = 44 :: tail)
      (later : scanItems float fuel (skipSpace tail) (before ++ [item]) = some (whole, rest)) :
      ItemsStep fuel before text whole rest

/-- Only strings, objects and arrays use more than the first fuel. -/
theorem scanOnce_atom {point : CodePoint} (other : point ≠ 34 ∧ point ≠ 123 ∧ point ≠ 91)
    (fuel : Nat) (text : PyStr) :
    scanOnce float (fuel + 1) (point :: text) = scanOnce float 1 (point :: text) := by
  have quote : ¬ point.val = 34 := fun same => other.1 (Fin.ext same)
  have brace : ¬ point.val = 123 := fun same => other.2.1 (Fin.ext same)
  have bracket : ¬ point.val = 91 := fun same => other.2.2 (Fin.ext same)
  rw [scanOnce, scanOnce, if_neg quote, if_neg brace, if_neg bracket, if_neg quote, if_neg brace,
    if_neg bracket]

section Step

variable {float} {fuel : Nat} {text rest : PyStr} {value : Value}

/-- A character in front of the blanks behind an opening bracket. -/
theorem head_ne {text behind : PyStr} {next point : CodePoint} (skipped : skipSpace text = next :: behind)
    (other : ¬ next.val = point.val) : (skipSpace text).head? ≠ some point := by
  rw [skipped, List.head?_cons]
  intro same
  exact other (congrArg Fin.val (Option.some.inj same))

theorem onceStep_of_scan (read : scanOnce float (fuel + 1) text = some (value, rest)) :
    OnceStep float fuel text value rest := by
  cases text with
  | nil =>
      rw [scanOnce] at read
      contradiction
  | cons point text =>
      by_cases quote : point = 34
      · subst quote
        have isQuote : (34 : CodePoint).val = 34 := rfl
        rw [scanOnce, if_pos isQuote] at read
        simp only [Option.bind_eq_bind, Option.bind_eq_some_iff] at read
        obtain ⟨⟨string, behind⟩, inner, same⟩ := read
        obtain ⟨rfl, rfl⟩ := Prod.mk.inj (Option.some.inj same)
        exact .string inner
      by_cases brace : point = 123
      · subst brace
        have notQuote : ¬ (123 : CodePoint).val = 34 := by decide
        have isBrace : (123 : CodePoint).val = 123 := rfl
        rw [scanOnce, if_neg notQuote, if_pos isBrace] at read
        cases inner : skipSpace text with
        | nil =>
            rw [inner] at read
            contradiction
        | cons next behind =>
            rw [inner] at read
            dsimp only at read
            by_cases closes : next.val = 125
            · rw [if_pos closes] at read
              obtain ⟨rfl, rfl⟩ := Prod.mk.inj (Option.some.inj read)
              have isClosing : next = 125 := Fin.ext closes
              exact .emptyObject (by rw [inner, isClosing])
            · rw [if_neg closes, ← inner] at read
              exact .object (head_ne inner closes) read
      by_cases bracket : point = 91
      · subst bracket
        have notQuote : ¬ (91 : CodePoint).val = 34 := by decide
        have notBrace : ¬ (91 : CodePoint).val = 123 := by decide
        have isBracket : (91 : CodePoint).val = 91 := rfl
        rw [scanOnce, if_neg notQuote, if_neg notBrace, if_pos isBracket] at read
        cases inner : skipSpace text with
        | nil =>
            rw [inner] at read
            contradiction
        | cons next behind =>
            rw [inner] at read
            dsimp only at read
            by_cases closes : next.val = 93
            · rw [if_pos closes] at read
              obtain ⟨rfl, rfl⟩ := Prod.mk.inj (Option.some.inj read)
              have isClosing : next = 93 := Fin.ext closes
              exact .emptyArray (by rw [inner, isClosing])
            · rw [if_neg closes, ← inner] at read
              exact .array (head_ne inner closes) read
      · rw [scanOnce_atom float ⟨quote, brace, bracket⟩] at read
        exact .atom ⟨quote, brace, bracket⟩ read

theorem membersStep_of_scan {before : List (PyStr × Value)}
    (read : scanMembers float (fuel + 1) text before = some (value, rest)) :
    MembersStep float fuel before text value rest := by
  cases text with
  | nil =>
      rw [scanMembers] at read
      contradiction
  | cons point text =>
      rw [scanMembers] at read
      by_cases quote : point.val = 34
      · obtain rfl : point = 34 := Fin.ext quote
        rw [if_pos quote] at read
        simp only [Option.bind_eq_bind, Option.bind_eq_some_iff] at read
        obtain ⟨⟨key, colon⟩, string, read⟩ := read
        dsimp only at read
        cases behind : skipSpace colon with
        | nil =>
            rw [behind] at read
            contradiction
        | cons next behind' =>
            rw [behind] at read
            dsimp only at read
            by_cases isColon : next.val = 58
            · rw [if_pos isColon] at read
              obtain rfl : next = 58 := Fin.ext isColon
              obtain ⟨⟨item, after⟩, inner, read⟩ := Option.bind_eq_some_iff.mp read
              dsimp only at read
              cases tail : skipSpace after with
              | nil =>
                  rw [tail] at read
                  contradiction
              | cons next tail' =>
                  rw [tail] at read
                  dsimp only at read
                  by_cases closing : next.val = 125
                  · rw [if_pos closing] at read
                    obtain ⟨rfl, rfl⟩ := Prod.mk.inj (Option.some.inj read)
                    obtain rfl : next = 125 := Fin.ext closing
                    exact .last string behind inner tail
                  · rw [if_neg closing] at read
                    by_cases comma : next.val = 44
                    · rw [if_pos comma] at read
                      obtain rfl : next = 44 := Fin.ext comma
                      exact .next string behind inner tail read
                    · rw [if_neg comma] at read
                      contradiction
            · rw [if_neg isColon] at read
              contradiction
      · rw [if_neg quote] at read
        contradiction

theorem itemsStep_of_scan {before : List Value}
    (read : scanItems float (fuel + 1) text before = some (value, rest)) :
    ItemsStep float fuel before text value rest := by
  rw [scanItems] at read
  simp only [Option.bind_eq_bind, Option.bind_eq_some_iff] at read
  obtain ⟨⟨item, after⟩, inner, read⟩ := read
  dsimp only at read
  cases tail : skipSpace after with
  | nil =>
      rw [tail] at read
      contradiction
  | cons next tail' =>
      rw [tail] at read
      dsimp only at read
      by_cases closing : next.val = 93
      · rw [if_pos closing] at read
        obtain ⟨rfl, rfl⟩ := Prod.mk.inj (Option.some.inj read)
        obtain rfl : next = 93 := Fin.ext closing
        exact .last inner tail
      · rw [if_neg closing] at read
        by_cases comma : next.val = 44
        · rw [if_pos comma] at read
          obtain rfl : next = 44 := Fin.ext comma
          exact .next inner tail read
        · rw [if_neg comma] at read
          contradiction

/-- There is no member and no item in an empty text. -/
theorem scanMembers_nil (before : List (PyStr × Value)) : scanMembers float fuel [] before = none := by
  cases fuel with
  | zero => rw [scanMembers]
  | succ fuel => rw [scanMembers]

theorem scanItems_nil (before : List Value) : scanItems float fuel [] before = none := by
  cases fuel with
  | zero => rw [scanItems]
  | succ fuel =>
      have nothing : scanOnce float fuel [] = none := by
        cases fuel with
        | zero => rw [scanOnce]
        | succ fuel => rw [scanOnce]
      rw [scanItems, nothing]
      rfl

theorem OnceStep.scan (step : OnceStep float fuel text value rest) :
    scanOnce float (fuel + 1) text = some (value, rest) := by
  have braceNotQuote : ¬ (123 : CodePoint).val = 34 := by decide
  have isBrace : (123 : CodePoint).val = 123 := rfl
  have bracketNotQuote : ¬ (91 : CodePoint).val = 34 := by decide
  have bracketNotBrace : ¬ (91 : CodePoint).val = 123 := by decide
  have isBracket : (91 : CodePoint).val = 91 := rfl
  cases step with
  | string read =>
      have quote : (34 : CodePoint).val = 34 := rfl
      rw [scanOnce, if_pos quote, read]
      rfl
  | emptyObject closes =>
      rw [scanOnce, if_neg braceNotQuote, if_pos isBrace, closes]
      rfl
  | @object behind _ _ opens read =>
      rw [scanOnce, if_neg braceNotQuote, if_pos isBrace]
      cases inner : skipSpace behind with
      | nil =>
          rw [inner, scanMembers_nil] at read
          contradiction
      | cons next tail =>
          rw [inner] at read opens
          have notClosing : ¬ next.val = 125 := fun closing =>
            opens (congrArg some (Fin.ext closing))
          dsimp only
          rw [if_neg notClosing, read]
  | emptyArray closes =>
      rw [scanOnce, if_neg bracketNotQuote, if_neg bracketNotBrace, if_pos isBracket, closes]
      rfl
  | @array behind _ _ opens read =>
      rw [scanOnce, if_neg bracketNotQuote, if_neg bracketNotBrace, if_pos isBracket]
      cases inner : skipSpace behind with
      | nil =>
          rw [inner, scanItems_nil] at read
          contradiction
      | cons next tail =>
          rw [inner] at read opens
          have notClosing : ¬ next.val = 93 := fun closing =>
            opens (congrArg some (Fin.ext closing))
          dsimp only
          rw [if_neg notClosing, read]
  | atom other read => rw [scanOnce_atom float other, read]

theorem MembersStep.scan {before : List (PyStr × Value)}
    (step : MembersStep float fuel before text value rest) :
    scanMembers float (fuel + 1) text before = some (value, rest) := by
  have quote : (34 : CodePoint).val = 34 := rfl
  have isColon : (58 : CodePoint).val = 58 := rfl
  have isClosing : (125 : CodePoint).val = 125 := rfl
  have notClosing : ¬ (44 : CodePoint).val = 125 := by decide
  have isComma : (44 : CodePoint).val = 44 := rfl
  cases step with
  | last string colon_eq inner closes =>
      rw [scanMembers, if_pos quote, string]
      simp only [Option.bind_eq_bind, Option.bind_some, colon_eq]
      rw [if_pos isColon, inner]
      simp only [Option.bind_some, closes]
      rw [if_pos isClosing]
  | next string colon_eq inner comma later =>
      rw [scanMembers, if_pos quote, string]
      simp only [Option.bind_eq_bind, Option.bind_some, colon_eq]
      rw [if_pos isColon, inner]
      simp only [Option.bind_some, comma]
      rw [if_neg notClosing, if_pos isComma, later]

theorem ItemsStep.scan {before : List Value}
    (step : ItemsStep float fuel before text value rest) :
    scanItems float (fuel + 1) text before = some (value, rest) := by
  have isClosing : (93 : CodePoint).val = 93 := rfl
  have notClosing : ¬ (44 : CodePoint).val = 93 := by decide
  have isComma : (44 : CodePoint).val = 44 := rfl
  cases step with
  | last inner closes =>
      rw [scanItems, inner]
      simp only [Option.bind_eq_bind, Option.bind_some, closes]
      rw [if_pos isClosing]
  | next inner comma later =>
      rw [scanItems, inner]
      simp only [Option.bind_eq_bind, Option.bind_some, comma]
      rw [if_neg notClosing, if_pos isComma, later]

end Step

/-! ### From the scanner -/

theorem reads_of_scan (fuel : Nat) :
    (∀ text value rest, scanOnce float fuel text = some (value, rest) →
      Reads float .value text rest) ∧
    (∀ text before value rest, scanMembers float fuel text before = some (value, rest) →
      Reads float .members text rest) ∧
    ∀ text before value rest, scanItems float fuel text before = some (value, rest) →
      Reads float .items text rest := by
  induction fuel with
  | zero =>
      refine ⟨fun text value rest read => ?_, fun text before value rest read => ?_,
        fun text before value rest read => ?_⟩
      · rw [scanOnce] at read
        contradiction
      · rw [scanMembers] at read
        contradiction
      · rw [scanItems] at read
        contradiction
  | succ fuel inductionHypothesis =>
      obtain ⟨values, members, items⟩ := inductionHypothesis
      refine ⟨fun text value rest read => ?_, fun text before value rest read => ?_,
        fun text before value rest read => ?_⟩
      · cases onceStep_of_scan read with
        | string inner => exact .string ⟨fuel, _, inner⟩
        | emptyObject closes => exact .emptyObject closes
        | object opens inner => exact .object (members _ _ _ _ inner)
        | emptyArray closes => exact .emptyArray closes
        | array opens inner => exact .array opens (items _ _ _ _ inner)
        | atom other inner => exact .atom other inner
      · cases membersStep_of_scan read with
        | last string colon_eq inner closes =>
            refine .member ⟨fuel, _, string⟩ colon_eq (values _ _ _ inner) ?_
            rw [closes]
            exact .lastMember
        | next string colon_eq inner comma later =>
            refine .member ⟨fuel, _, string⟩ colon_eq (values _ _ _ inner) ?_
            rw [comma]
            exact .nextMember (members _ _ _ _ later)
      · cases itemsStep_of_scan read with
        | last inner closes =>
            refine .item (values _ _ _ inner) ?_
            rw [closes]
            exact .lastItem
        | next inner comma later =>
            refine .item (values _ _ _ inner) ?_
            rw [comma]
            exact .nextItem (items _ _ _ _ later)

/-! ### Back to the scanner -/

theorem length_codeUnit {text rest : PyStr} {unit : Fin 0x10000}
    (read : codeUnit text = some (unit, rest)) : rest.length < text.length := by
  unfold codeUnit at read
  split at read
  · rename_i first second third fourth behind
    simp only [Option.bind_eq_bind, Option.bind_eq_some_iff] at read
    obtain ⟨_, -, _, -, _, -, _, -, same⟩ := read
    rw [← (Prod.mk.inj (Option.some.inj same)).2]
    simp only [List.length_cons]
    omega
  · contradiction

theorem length_scanUnit {text rest : PyStr} {point : CodePoint}
    (read : scanUnit text = some (point, rest)) : rest.length < text.length := by
  unfold scanUnit at read
  simp only [Option.bind_eq_bind, Option.bind_eq_some_iff] at read
  obtain ⟨⟨high, behind⟩, first, read⟩ := read
  have shorter := length_codeUnit first
  dsimp only at read
  split at read
  · obtain ⟨⟨low, last⟩, second, read⟩ := Option.bind_eq_some_iff.mp read
    have shorter' := length_codeUnit second
    rw [List.length_drop] at shorter'
    dsimp only at read
    split at read
    · rw [← (Prod.mk.inj (Option.some.inj read)).2]
      omega
    · rw [← (Prod.mk.inj (Option.some.inj read)).2]
      exact shorter
  · rw [← (Prod.mk.inj (Option.some.inj read)).2]
    exact shorter

theorem length_scanEscape {text rest : PyStr} {point : CodePoint}
    (read : scanEscape text = some (point, rest)) : rest.length < text.length := by
  cases text with
  | nil => contradiction
  | cons first text =>
      unfold scanEscape at read
      dsimp only at read
      rw [List.length_cons]
      repeat' split at read
      all_goals first
        | contradiction
        | exact Nat.lt_succ_of_lt (length_scanUnit read)
        | (rw [← (Prod.mk.inj (Option.some.inj read)).2]; exact Nat.lt_succ_self _)

/-- A string that was read is shorter behind, and is read with any fuel that
covers it. -/
theorem ReadsString.scan {text rest : PyStr} (reads : ReadsString text rest) :
    rest.length < text.length ∧ ∀ fuel, text.length ≤ fuel + rest.length →
      ∃ read, scanString fuel text = some (read, rest) := by
  obtain ⟨first, read, scan⟩ := reads
  induction first generalizing text read with
  | zero => contradiction
  | succ first inductionHypothesis =>
      cases text with
      | nil => contradiction
      | cons point text =>
          rw [scanString] at scan
          by_cases quote : point.val = 34
          · rw [if_pos quote] at scan
            rw [← (Prod.mk.inj (Option.some.inj scan)).2, List.length_cons]
            refine ⟨Nat.lt_succ_self _, fun fuel enough => ?_⟩
            obtain ⟨more, rfl⟩ : ∃ more, fuel = more + 1 := ⟨fuel - 1, by omega⟩
            exact ⟨[], by rw [scanString, if_pos quote]⟩
          rw [if_neg quote] at scan
          by_cases backslash : point.val = 92
          · rw [if_pos backslash] at scan
            simp only [Option.bind_eq_bind, Option.bind_eq_some_iff] at scan
            obtain ⟨⟨character, behind⟩, escape, ⟨later, last⟩, scan, same⟩ := scan
            obtain rfl : last = rest := (Prod.mk.inj (Option.some.inj same)).2
            obtain ⟨shorter, again⟩ := inductionHypothesis later scan
            dsimp only at shorter again
            have escaped := length_scanEscape escape
            rw [List.length_cons]
            refine ⟨by omega, fun fuel enough => ?_⟩
            obtain ⟨more, rfl⟩ : ∃ more, fuel = more + 1 := ⟨fuel - 1, by omega⟩
            obtain ⟨read', scan'⟩ := again more (by omega)
            refine ⟨character :: read', ?_⟩
            rw [scanString, if_neg quote, if_pos backslash]
            simp only [Option.bind_eq_bind, escape, Option.bind_some, scan']
          rw [if_neg backslash] at scan
          by_cases control : point.val < 32
          · rw [if_pos control] at scan
            contradiction
          · rw [if_neg control] at scan
            simp only [Option.bind_eq_bind, Option.bind_eq_some_iff] at scan
            obtain ⟨⟨later, last⟩, scan, same⟩ := scan
            obtain rfl : last = rest := (Prod.mk.inj (Option.some.inj same)).2
            obtain ⟨shorter, again⟩ := inductionHypothesis later scan
            rw [List.length_cons]
            refine ⟨by omega, fun fuel enough => ?_⟩
            obtain ⟨more, rfl⟩ : ∃ more, fuel = more + 1 := ⟨fuel - 1, by omega⟩
            obtain ⟨read', scan'⟩ := again more (by omega)
            refine ⟨point :: read', ?_⟩
            rw [scanString, if_neg quote, if_neg backslash, if_neg control]
            simp only [Option.bind_eq_bind, Option.bind_some, scan']

theorem length_skipSpace_le (text : PyStr) : (skipSpace text).length ≤ text.length :=
  List.length_dropWhile_le _ _

theorem length_scanInteger {text integer rest : PyStr}
    (read : scanInteger text = some (integer, rest)) : rest.length < text.length := by
  cases text with
  | nil => contradiction
  | cons digit text =>
      unfold scanInteger at read
      dsimp only at read
      split at read
      · rw [← (Prod.mk.inj (Option.some.inj read)).2]
        exact Nat.lt_succ_self _
      · split at read
        · rw [← (Prod.mk.inj (Option.some.inj read)).2]
          exact Nat.lt_succ_of_le (List.length_dropWhile_le _ _)
        · contradiction

theorem length_scanFraction_le (text : PyStr) : (scanFraction text).2.length ≤ text.length := by
  unfold scanFraction
  split
  · split
    · have le := List.length_dropWhile_le isDigit ‹List CodePoint›
      simp only [List.length_cons]
      omega
    · exact le_refl _
  · exact le_refl _

theorem length_scanExponent_le (text : PyStr) : (scanExponent text).2.length ≤ text.length := by
  unfold scanExponent
  split
  · rename_i letter sign digit rest
    have all := List.length_dropWhile_le isDigit (digit :: rest)
    have later := List.length_dropWhile_le isDigit rest
    simp only [List.length_cons] at all ⊢
    split
    · dsimp only
      omega
    · split
      · dsimp only
        omega
      · exact le_refl _
  · split
    · exact Nat.zero_le _
    · exact le_refl _
  · exact le_refl _

theorem length_scanNumber {text rest : PyStr} {numeral : Numeral}
    (read : scanNumber float text = some (numeral, rest)) : rest.length < text.length := by
  unfold scanNumber at read
  dsimp only at read
  simp only [Option.bind_eq_bind, Option.bind_eq_some_iff] at read
  obtain ⟨⟨integer, behind⟩, first, read⟩ := read
  have shorter := length_scanInteger first
  have fraction := length_scanFraction_le behind
  have exponent := length_scanExponent_le (scanFraction behind).2
  rw [List.length_drop] at shorter
  dsimp only at read
  split at read
  · split at read
    · contradiction
    · rw [← (Prod.mk.inj (Option.some.inj read)).2]
      omega
  · rw [← (Prod.mk.inj (Option.some.inj read)).2]
    omega

theorem length_atom {point : CodePoint} (other : point ≠ 34 ∧ point ≠ 123 ∧ point ≠ 91)
    {text rest : PyStr} {value : Value}
    (read : scanOnce float 1 (point :: text) = some (value, rest)) :
    rest.length < (point :: text).length := by
  have quote : ¬ point.val = 34 := fun same => other.1 (Fin.ext same)
  have brace : ¬ point.val = 123 := fun same => other.2.1 (Fin.ext same)
  have bracket : ¬ point.val = 91 := fun same => other.2.2 (Fin.ext same)
  rw [scanOnce, if_neg quote, if_neg brace, if_neg bracket] at read
  have word : ∀ count, (text.drop count).length < (point :: text).length := by
    intro count
    rw [List.length_drop, List.length_cons]
    omega
  repeat' split at read
  all_goals first
    | (rw [← (Prod.mk.inj (Option.some.inj read)).2]; exact word _)
    | skip
  simp only [Option.bind_eq_bind, Option.bind_eq_some_iff] at read
  obtain ⟨⟨numeral, behind⟩, number, same⟩ := read
  rw [← (Prod.mk.inj (Option.some.inj same)).2]
  exact length_scanNumber float number

/-- What follows a member. -/
def scanAfterMember (fuel : Nat) (text : PyStr) (members : List (PyStr × Value)) :
    Option (Value × PyStr) :=
  match text with
  | [] => none
  | next :: rest =>
      if next.val = 125 then some (.object members, rest)
      else if next.val = 44 then scanMembers float fuel (skipSpace rest) members
      else none

/-- What follows an item. -/
def scanAfterItem (fuel : Nat) (text : PyStr) (items : List Value) : Option (Value × PyStr) :=
  match text with
  | [] => none
  | next :: rest =>
      if next.val = 93 then some (.array items, rest)
      else if next.val = 44 then scanItems float fuel (skipSpace rest) items
      else none

/-- The scanner reads a piece, with any fuel that covers it. -/
def Scanned : Piece → PyStr → PyStr → Prop
  | .value, text, rest => ∀ fuel, text.length ≤ fuel + rest.length →
      ∃ value, scanOnce float fuel text = some (value, rest)
  | .members, text, rest => ∀ fuel before, text.length ≤ fuel + rest.length →
      ∃ value, scanMembers float fuel text before = some (value, rest)
  | .afterMember, text, rest => ∀ fuel before, text.length ≤ fuel + rest.length →
      ∃ value, scanAfterMember float fuel text before = some (value, rest)
  | .items, text, rest => ∀ fuel before, text.length ≤ fuel + rest.length →
      ∃ value, scanItems float fuel text before = some (value, rest)
  | .afterItem, text, rest => ∀ fuel before, text.length ≤ fuel + rest.length →
      ∃ value, scanAfterItem float fuel text before = some (value, rest)

variable {float}

theorem scanned_of_reads {piece : Piece} {text rest : PyStr} (reads : Reads float piece text rest) :
    rest.length < text.length ∧ Scanned float piece text rest := by
  induction reads with
  | @string text rest read =>
      obtain ⟨shorter, scan⟩ := read.scan
      rw [List.length_cons]
      refine ⟨by omega, fun fuel enough => ?_⟩
      rw [List.length_cons] at enough
      obtain ⟨more, rfl⟩ : ∃ more, fuel = more + 1 := ⟨fuel - 1, by omega⟩
      obtain ⟨string, scan⟩ := scan more (by omega)
      have quote : (34 : CodePoint).val = 34 := rfl
      exact ⟨.string string, by rw [scanOnce, if_pos quote, scan]; rfl⟩
  | @emptyObject text rest closes =>
      have le := length_skipSpace_le text
      rw [closes, List.length_cons] at le
      rw [List.length_cons]
      refine ⟨by omega, fun fuel enough => ?_⟩
      rw [List.length_cons] at enough
      obtain ⟨more, rfl⟩ : ∃ more, fuel = more + 1 := ⟨fuel - 1, by omega⟩
      have notQuote : ¬ (123 : CodePoint).val = 34 := by decide
      have brace : (123 : CodePoint).val = 123 := rfl
      refine ⟨.object [], ?_⟩
      rw [scanOnce, if_neg notQuote, if_pos brace, closes]
      rfl
  | @object text rest inner inductionHypothesis =>
      obtain ⟨shorter, scan⟩ := inductionHypothesis
      have le := length_skipSpace_le text
      rw [List.length_cons]
      refine ⟨by omega, fun fuel enough => ?_⟩
      rw [List.length_cons] at enough
      obtain ⟨more, rfl⟩ : ∃ more, fuel = more + 1 := ⟨fuel - 1, by omega⟩
      obtain ⟨value, scan⟩ := scan more [] (by omega)
      have notQuote : ¬ (123 : CodePoint).val = 34 := by decide
      have brace : (123 : CodePoint).val = 123 := rfl
      refine ⟨value, ?_⟩
      rw [scanOnce, if_neg notQuote, if_pos brace]
      generalize skipSpace text = members at inner scan
      cases inner with
      | member key colon_eq value later => exact scan
  | @emptyArray text rest closes =>
      have le := length_skipSpace_le text
      rw [closes, List.length_cons] at le
      rw [List.length_cons]
      refine ⟨by omega, fun fuel enough => ?_⟩
      rw [List.length_cons] at enough
      obtain ⟨more, rfl⟩ : ∃ more, fuel = more + 1 := ⟨fuel - 1, by omega⟩
      have notQuote : ¬ (91 : CodePoint).val = 34 := by decide
      have notBrace : ¬ (91 : CodePoint).val = 123 := by decide
      have bracket : (91 : CodePoint).val = 91 := rfl
      refine ⟨.array [], ?_⟩
      rw [scanOnce, if_neg notQuote, if_neg notBrace, if_pos bracket, closes]
      rfl
  | @array text rest opens inner inductionHypothesis =>
      obtain ⟨shorter, scan⟩ := inductionHypothesis
      have le := length_skipSpace_le text
      rw [List.length_cons]
      refine ⟨by omega, fun fuel enough => ?_⟩
      rw [List.length_cons] at enough
      obtain ⟨more, rfl⟩ : ∃ more, fuel = more + 1 := ⟨fuel - 1, by omega⟩
      obtain ⟨value, scan⟩ := scan more [] (by omega)
      have notQuote : ¬ (91 : CodePoint).val = 34 := by decide
      have notBrace : ¬ (91 : CodePoint).val = 123 := by decide
      have bracket : (91 : CodePoint).val = 91 := rfl
      refine ⟨value, ?_⟩
      rw [scanOnce, if_neg notQuote, if_neg notBrace, if_pos bracket]
      cases items : skipSpace text with
      | nil =>
          rw [items] at shorter
          exact absurd shorter (Nat.not_lt_zero _)
      | cons next behind =>
          rw [items] at scan opens
          have notClosing : ¬ next.val = 93 := by
            intro closing
            have point : next = 93 := Fin.ext closing
            rw [point] at opens
            exact opens rfl
          dsimp only
          rw [if_neg notClosing]
          exact scan
  | @atom point text rest value other read =>
      have shorter := length_atom float other read
      refine ⟨shorter, fun fuel enough => ?_⟩
      obtain ⟨more, rfl⟩ : ∃ more, fuel = more + 1 := ⟨fuel - 1, by omega⟩
      exact ⟨value, by rw [scanOnce_atom float other, read]⟩
  | @member text colon behind after rest key colon_eq value later readValue readLater =>
      obtain ⟨keyShorter, scanKey⟩ := key.scan
      obtain ⟨valueShorter, scanValue⟩ := readValue
      obtain ⟨laterShorter, scanLater⟩ := readLater
      have colonLe := length_skipSpace_le colon
      have behindLe := length_skipSpace_le behind
      have afterLe := length_skipSpace_le after
      rw [colon_eq, List.length_cons] at colonLe
      rw [List.length_cons]
      refine ⟨by omega, fun fuel before enough => ?_⟩
      rw [List.length_cons] at enough
      obtain ⟨more, rfl⟩ : ∃ more, fuel = more + 1 := ⟨fuel - 1, by omega⟩
      obtain ⟨string, scanKey⟩ := scanKey more (by omega)
      obtain ⟨item, scanValue⟩ := scanValue more (by omega)
      obtain ⟨whole, scanLater⟩ := scanLater more (setItem before string item) (by omega)
      have quote : (34 : CodePoint).val = 34 := rfl
      have isColon : (58 : CodePoint).val = 58 := rfl
      refine ⟨whole, ?_⟩
      rw [scanMembers, if_pos quote, scanKey]
      simp only [Option.bind_eq_bind, Option.bind_some, colon_eq, if_pos isColon, scanValue]
      exact scanLater
  | @lastMember rest =>
      refine ⟨Nat.lt_succ_self _, fun fuel before enough => ?_⟩
      exact ⟨.object before, rfl⟩
  | @nextMember text rest next inductionHypothesis =>
      obtain ⟨shorter, scan⟩ := inductionHypothesis
      have le := length_skipSpace_le text
      rw [List.length_cons]
      refine ⟨by omega, fun fuel before enough => ?_⟩
      rw [List.length_cons] at enough
      exact scan fuel before (by omega)
  | @item text after rest value later readValue readLater =>
      obtain ⟨valueShorter, scanValue⟩ := readValue
      obtain ⟨laterShorter, scanLater⟩ := readLater
      have afterLe := length_skipSpace_le after
      refine ⟨by omega, fun fuel before enough => ?_⟩
      obtain ⟨more, rfl⟩ : ∃ more, fuel = more + 1 := ⟨fuel - 1, by omega⟩
      obtain ⟨item, scanValue⟩ := scanValue more (by omega)
      obtain ⟨whole, scanLater⟩ := scanLater more (before ++ [item]) (by omega)
      refine ⟨whole, ?_⟩
      rw [scanItems, scanValue]
      exact scanLater
  | @lastItem rest =>
      refine ⟨Nat.lt_succ_self _, fun fuel before enough => ?_⟩
      exact ⟨.array before, rfl⟩
  | @nextItem text rest next inductionHypothesis =>
      obtain ⟨shorter, scan⟩ := inductionHypothesis
      have le := length_skipSpace_le text
      rw [List.length_cons]
      refine ⟨by omega, fun fuel before enough => ?_⟩
      rw [List.length_cons] at enough
      exact scan fuel before (by omega)

/-! ### One rest -/

theorem ReadsString.unique {text rest other : PyStr} (reads : ReadsString text rest)
    (reads' : ReadsString text other) : rest = other := by
  obtain ⟨_, scan⟩ := reads.scan.2 text.length (Nat.le_add_right _ _)
  obtain ⟨_, scan'⟩ := reads'.scan.2 text.length (Nat.le_add_right _ _)
  rw [scan] at scan'
  exact (Prod.mk.inj (Option.some.inj scan')).2

/-- What a piece leaves is determined by the text. -/
theorem Reads.unique {piece : Piece} {text rest other : PyStr} (reads : Reads float piece text rest)
    (reads' : Reads float piece text other) : rest = other := by
  have scanned := (scanned_of_reads reads).2
  have scanned' := (scanned_of_reads reads').2
  have enough := fun rest : PyStr => Nat.le_add_right text.length rest.length
  cases piece with
  | value =>
      obtain ⟨_, scan⟩ := scanned text.length (enough rest)
      obtain ⟨_, scan'⟩ := scanned' text.length (enough other)
      exact (Prod.mk.inj (Option.some.inj (scan.symm.trans scan'))).2
  | members =>
      obtain ⟨_, scan⟩ := scanned text.length [] (enough rest)
      obtain ⟨_, scan'⟩ := scanned' text.length [] (enough other)
      exact (Prod.mk.inj (Option.some.inj (scan.symm.trans scan'))).2
  | afterMember =>
      obtain ⟨_, scan⟩ := scanned text.length [] (enough rest)
      obtain ⟨_, scan'⟩ := scanned' text.length [] (enough other)
      exact (Prod.mk.inj (Option.some.inj (scan.symm.trans scan'))).2
  | items =>
      obtain ⟨_, scan⟩ := scanned text.length [] (enough rest)
      obtain ⟨_, scan'⟩ := scanned' text.length [] (enough other)
      exact (Prod.mk.inj (Option.some.inj (scan.symm.trans scan'))).2
  | afterItem =>
      obtain ⟨_, scan⟩ := scanned text.length [] (enough rest)
      obtain ⟨_, scan'⟩ := scanned' text.length [] (enough other)
      exact (Prod.mk.inj (Option.some.inj (scan.symm.trans scan'))).2

variable (float) in
/-- `json.loads` accepts a text exactly if it is one value between blanks. -/
theorem loads_isSome_iff (text : PyStr) :
    (loads float text).isSome ↔
      text.head? ≠ some 0xfeff ∧ ∃ rest, Reads float .value (skipSpace text) rest ∧ skipSpace rest = [] := by
  unfold loads
  by_cases bom : text.head? = some 0xfeff
  · rw [if_pos bom]
    exact ⟨fun some_ => absurd some_ (by decide), fun both => absurd bom both.1⟩
  · rw [if_neg bom]
    constructor
    · intro some_
      cases read : scanOnce float (text.length + 1) (skipSpace text) with
      | none =>
          rw [read] at some_
          exact absurd some_ (by decide)
      | some pair =>
          obtain ⟨value, rest⟩ := pair
          refine ⟨bom, rest, (reads_of_scan float _).1 _ _ _ read, ?_⟩
          rw [read] at some_
          by_contra open_
          simp [open_] at some_
    · rintro ⟨-, rest, reads, blank⟩
      have le := length_skipSpace_le text
      obtain ⟨value, read⟩ := (scanned_of_reads reads).2 (text.length + 1) (by omega)
      rw [read]
      simp [blank]

end Grammar

end MiniMs.Library.Json
