import MiniMs.Library.JsonGrammar

/-!
A piece of a JSON text in front of a character that cannot belong to it.

Owns: how the scanner reads words and numbers that a foreign character follows,
and escapes that a quotation mark follows.
-/

namespace MiniMs.Library.Json

open MiniMs.Library.Text

/-- A reading, with more text behind what it leaves. -/
def addRest {α : Type} (more : PyStr) (read : α × PyStr) : α × PyStr := (read.1, read.2 ++ more)

/-! ### Words and numbers -/

/-- A character that no word and no number holds. -/
structure Foreign (stop : CodePoint) : Prop where
  digit : isDigit stop = false
  point : stop.val ≠ 46
  letter : ¬ (stop.val = 101 ∨ stop.val = 69)
  sign : ¬ (stop.val = 43 ∨ stop.val = 45)
  words : ∀ word ∈ [lit "null", lit "true", lit "false", lit "NaN", lit "Infinity",
    lit "-Infinity"], stop ∉ word

theorem foreign_quote : Foreign 34 := ⟨rfl, by decide, by decide, by decide, by decide⟩

section Atoms

variable {stop : CodePoint}

/-- A word ends in front of a character that it does not hold. -/
theorem take_foreign (more : PyStr) {word : PyStr} (plain : stop ∉ word) (text : PyStr) :
    (text ++ stop :: more).take word.length = word ↔ text.take word.length = word := by
  have prefixed : ∀ whole : PyStr, whole.take word.length = word ↔ word <+: whole := by
    intro whole
    rw [List.prefix_iff_eq_take]
    exact eq_comm
  rw [prefixed, prefixed]
  constructor
  · intro front
    rcases List.prefix_or_prefix_of_prefix front (List.prefix_append text (stop :: more)) with
      within | ⟨tail, shape⟩
    · exact within
    · cases tail with
      | nil => rw [← shape, List.append_nil]
      | cons point tail =>
          rw [← shape, List.prefix_append_right_inj] at front
          have same : point = stop := (List.cons_prefix_cons.mp front).1
          rw [← shape, same] at plain
          exact absurd (List.mem_append_right _ List.mem_cons_self) plain
  · intro front
    exact front.trans (List.prefix_append _ _)

variable (foreign : Foreign stop) (more : PyStr)

include foreign

theorem takeWhile_isDigit_foreign (text : PyStr) :
    (text ++ stop :: more).takeWhile isDigit = text.takeWhile isDigit := by
  induction text with
  | nil => rw [List.nil_append, List.takeWhile_cons_of_neg (by simp [foreign.digit]), List.takeWhile_nil]
  | cons point text inductionHypothesis =>
      simp only [List.cons_append, List.takeWhile_cons, inductionHypothesis]

theorem dropWhile_isDigit_foreign (text : PyStr) :
    (text ++ stop :: more).dropWhile isDigit = text.dropWhile isDigit ++ stop :: more := by
  induction text with
  | nil => rw [List.nil_append, List.dropWhile_cons_of_neg (by simp [foreign.digit]), List.dropWhile_nil,
      List.nil_append]
  | cons point text inductionHypothesis =>
      simp only [List.cons_append, List.dropWhile_cons, inductionHypothesis]
      split
      · rfl
      · rfl

theorem scanInteger_foreign (text : PyStr) :
    scanInteger (text ++ stop :: more) = (scanInteger text).map (addRest (stop :: more)) := by
  cases text with
  | nil =>
      have notDigit := foreign.digit
      have notZero : ¬ stop.val = 48 := by
        intro zero
        have same : stop = 48 := Fin.ext zero
        rw [same] at notDigit
        contradiction
      unfold scanInteger
      dsimp only [List.nil_append]
      rw [if_neg notZero, notDigit, if_neg Bool.false_ne_true]
      rfl
  | cons digit text =>
      have taken := takeWhile_isDigit_foreign foreign more text
      have left := dropWhile_isDigit_foreign foreign more text
      rw [List.cons_append]
      unfold scanInteger
      simp only [taken, left, apply_ite (Option.map (addRest (stop :: more))), Option.map_some,
        Option.map_none, addRest]

theorem scanFraction_foreign (text : PyStr) :
    scanFraction (text ++ stop :: more) = addRest (stop :: more) (scanFraction text) := by
  have notDigit := foreign.digit
  have notPoint := foreign.point
  rcases text with _ | ⟨first, _ | ⟨digit, text⟩⟩
  · cases more with
    | nil => rfl
    | cons digit more =>
        unfold scanFraction
        dsimp only [List.nil_append]
        rw [if_neg (not_and_of_not_left _ notPoint)]
        rfl
  · simp [scanFraction, notDigit, addRest]
  · have taken := takeWhile_isDigit_foreign foreign more text
    have left := dropWhile_isDigit_foreign foreign more text
    simp only [scanFraction, List.cons_append, taken, left]
    split
    · rfl
    · rfl

theorem scanExponent_foreign (text : PyStr) :
    scanExponent (text ++ stop :: more) = addRest (stop :: more) (scanExponent text) := by
  have notDigit := foreign.digit
  have notLetter := foreign.letter
  have notSign := foreign.sign
  rcases text with _ | ⟨letter, _ | ⟨sign, _ | ⟨digit, text⟩⟩⟩
  · rcases more with _ | ⟨sign, _ | ⟨digit, more⟩⟩
    · rfl
    · unfold scanExponent
      dsimp only [List.nil_append]
      rw [if_neg (not_and_of_not_left _ notLetter)]
      rfl
    · unfold scanExponent
      dsimp only [List.nil_append]
      rw [if_neg (not_and_of_not_left _ notLetter), if_neg (not_and_of_not_left _ notLetter)]
      rfl
  · cases more with
    | nil => simp [scanExponent, notDigit, addRest]
    | cons digit more =>
        unfold scanExponent
        dsimp only [List.cons_append, List.nil_append]
        rw [if_neg (by simp [notDigit]), if_neg (fun both => notSign both.2.1)]
        rfl
  · simp [scanExponent, notDigit, addRest]
    split
    · rfl
    · rfl
  · have digits := takeWhile_isDigit_foreign foreign more (digit :: text)
    have behind := dropWhile_isDigit_foreign foreign more (digit :: text)
    have taken := takeWhile_isDigit_foreign foreign more text
    have left := dropWhile_isDigit_foreign foreign more text
    rw [List.cons_append] at digits behind
    simp only [scanExponent, List.cons_append, taken, left, digits, behind]
    split
    · rfl
    · split
      · rfl
      · rfl

theorem scanNumber_foreign (float : PyStr → Numeral) (text : PyStr) :
    scanNumber float (text ++ stop :: more) = (scanNumber float text).map (addRest (stop :: more)) := by
  have head : (text ++ stop :: more).head? = some 45 ↔ text.head? = some 45 := by
    cases text with
    | nil =>
        have notSign := foreign.sign
        rw [List.nil_append, List.head?_cons, Option.some.injEq]
        constructor
        · rintro rfl
          exact absurd (Or.inr rfl) notSign
        · exact fun nothing => by contradiction
    | cons point text => rfl
  have integer := scanInteger_foreign foreign more
  have fraction := scanFraction_foreign foreign more
  have exponent := scanExponent_foreign foreign more
  have rest : ∀ sign : PyStr, sign.length ≤ text.length →
      (text ++ stop :: more).drop sign.length = text.drop sign.length ++ stop :: more :=
    fun sign le => List.drop_append_of_le_length le
  have short : (if text.head? = some 45 then ([45] : PyStr) else []).length ≤ text.length := by
    split
    · cases text with
      | nil => contradiction
      | cons point text => simp
    · exact Nat.zero_le _
  unfold scanNumber
  simp only [head, rest _ short, integer]
  cases scanInteger (text.drop (if text.head? = some 45 then ([45] : PyStr) else []).length) with
  | none => rfl
  | some read =>
      simp only [Option.map_some, Option.bind_eq_bind, Option.bind_some, addRest,
        fraction, exponent]
      split
      · split
        · rfl
        · rfl
      · rfl

/-- A word or a number in front of a foreign character. -/
theorem atom_foreign (float : PyStr → Numeral) {point : CodePoint}
    (other : point ≠ 34 ∧ point ≠ 123 ∧ point ≠ 91) (text : PyStr) :
    scanOnce float 1 (point :: (text ++ stop :: more)) =
      (scanOnce float 1 (point :: text)).map (addRest (stop :: more)) := by
  have quote : ¬ point.val = 34 := fun same => other.1 (Fin.ext same)
  have brace : ¬ point.val = 123 := fun same => other.2.1 (Fin.ext same)
  have bracket : ¬ point.val = 91 := fun same => other.2.2 (Fin.ext same)
  have shape : point :: (text ++ stop :: more) = (point :: text) ++ stop :: more := rfl
  have word : ∀ (word : PyStr) (value : Value) (otherwise : Option (Value × PyStr)),
      stop ∉ word → word ≠ [] →
      (if ((point :: text) ++ stop :: more).take word.length = word then
          some (value, (text ++ stop :: more).drop (word.length - 1))
        else otherwise.map (addRest (stop :: more))) =
      (if (point :: text).take word.length = word then some (value, text.drop (word.length - 1))
        else otherwise).map (addRest (stop :: more)) := by
    intro word value otherwise plain nonempty
    by_cases here : (point :: text).take word.length = word
    · have long : word.length - 1 ≤ text.length := by
        have length := congrArg List.length here
        rw [List.length_take, List.length_cons] at length
        omega
      rw [if_pos here, if_pos ((take_foreign more plain _).mpr here),
        List.drop_append_of_le_length long]
      rfl
    · rw [if_neg here, if_neg (fun there => here ((take_foreign more plain _).mp there))]
  have number : ((scanNumber float ((point :: text) ++ stop :: more)).bind fun read =>
      some (Value.number read.1, read.2)) =
        ((scanNumber float (point :: text)).bind fun read =>
          some (Value.number read.1, read.2)).map (addRest (stop :: more)) := by
    rw [scanNumber_foreign foreign]
    cases scanNumber float (point :: text) with
    | none => rfl
    | some read => rfl
  rw [scanOnce, scanOnce, if_neg quote, if_neg brace, if_neg bracket, if_neg quote, if_neg brace,
    if_neg bracket, shape]
  refine (congrArg _ ?_).trans (word (lit "null") .null _ (foreign.words _ (by simp)) (by decide))
  refine (congrArg _ ?_).trans (word (lit "true") (.bool true) _ (foreign.words _ (by simp)) (by decide))
  refine (congrArg _ ?_).trans (word (lit "false") (.bool false) _ (foreign.words _ (by simp)) (by decide))
  refine (congrArg _ ?_).trans (word (lit "NaN") _ _ (foreign.words _ (by simp)) (by decide))
  refine (congrArg _ ?_).trans (word (lit "Infinity") _ _ (foreign.words _ (by simp)) (by decide))
  refine (congrArg _ ?_).trans (word (lit "-Infinity") _ _ (foreign.words _ (by simp)) (by decide))
  exact number

end Atoms

/-! ### Escapes -/

section Quote

variable (more : PyStr)

theorem codeUnit_quote (text : PyStr) :
    codeUnit (text ++ 34 :: more) = (codeUnit text).map (addRest (34 :: more)) := by
  have quote : hexValue 34 = none := rfl
  rcases text with _ | ⟨first, _ | ⟨second, _ | ⟨third, _ | ⟨fourth, text⟩⟩⟩⟩
  · rcases more with _ | ⟨_, _ | ⟨_, _ | ⟨_, _⟩⟩⟩
    all_goals rfl
  · rcases more with _ | ⟨_, _ | ⟨_, _⟩⟩
    · rfl
    · rfl
    · cases read : hexValue first with
      | none => simp [codeUnit, read]
      | some digit => simp [codeUnit, quote, read]
  · rcases more with _ | ⟨_, _⟩
    · rfl
    · cases read : hexValue first with
      | none => simp [codeUnit, read]
      | some digit =>
          cases read' : hexValue second with
          | none => simp [codeUnit, read, read']
          | some digit' => simp [codeUnit, quote, read, read']
  · simp [codeUnit, quote]
  · simp only [codeUnit, List.cons_append]
    cases hexValue first with
    | none => rfl
    | some _ =>
        cases hexValue second with
        | none => rfl
        | some _ =>
            cases hexValue third with
            | none => rfl
            | some _ =>
                cases hexValue fourth with
                | none => rfl
                | some _ => rfl

theorem scanUnit_quote (text : PyStr) :
    scanUnit (text ++ 34 :: more) = (scanUnit text).map (addRest (34 :: more)) := by
  have pair : 34 ∉ ([92, 117] : PyStr) := by decide
  unfold scanUnit
  rw [codeUnit_quote]
  cases codeUnit text with
  | none => rfl
  | some read =>
      obtain ⟨high, rest⟩ := read
      have same := take_foreign more pair rest
      simp only [Option.bind_eq_bind, Option.map_some, Option.bind_some, addRest]
      by_cases low : 0xd800 ≤ high.val ∧ high.val < 0xdc00 ∧ rest.take 2 = [92, 117]
      · rw [if_pos low, if_pos ⟨low.1, low.2.1, same.mpr low.2.2⟩]
        have long : 2 ≤ rest.length := by
          have length := congrArg List.length low.2.2
          rw [List.length_take] at length
          simp only [List.length_cons, List.length_nil] at length
          omega
        rw [List.drop_append_of_le_length long, codeUnit_quote]
        cases codeUnit (rest.drop 2) with
        | none => rfl
        | some second =>
            simp only [Option.map_some, Option.bind_some, addRest]
            split
            · rfl
            · rfl
      · rw [if_neg low, if_neg (fun both => low ⟨both.1, both.2.1, same.mp both.2.2⟩)]
        rfl

theorem scanEscape_quote {text : PyStr} (nonempty : text ≠ []) :
    scanEscape (text ++ 34 :: more) = (scanEscape text).map (addRest (34 :: more)) := by
  cases text with
  | nil => exact absurd rfl nonempty
  | cons point text =>
      rw [List.cons_append]
      unfold scanEscape
      dsimp only
      rw [scanUnit_quote]
      simp only [apply_ite (Option.map (addRest (34 :: more))), Option.map_some, Option.map_none,
        addRest]

end Quote

end MiniMs.Library.Json
