import MiniMs.Library.Number

/-!
Flat JSON objects as UTF-8 texts: string keys, and integers, `true` or `false` as
values.

Owns: how a string and a value can be written, the layouts of an object with any
whitespace between its tokens, and which texts are such an object.

Nested values, fractions and exponents have no place here; neither has a reader.
-/

namespace MiniMs.Library.FlatJson

open MiniMs.Library.Text MiniMs.Library.Number

/-! ### Values -/

/-- A value of a flat object. -/
inductive Scalar where
  | integer (value : Int)
  | boolean (value : Bool)
deriving DecidableEq, Repr

/-- The number that stands for a value. -/
def Scalar.number : Scalar → Int
  | .integer value => value
  | .boolean value => if value then 1 else 0

/-- The texts of a value: decimal digits without leading zeros behind an optional
minus, or a word. -/
inductive Writes : Scalar → Bytes → Prop where
  | digits (value : Nat) : Writes (.integer value) (bytesOf (Nat.toDigits 10 value))
  | minus (value : Nat) : Writes (.integer (-value)) (45 :: bytesOf (Nat.toDigits 10 value))
  | yes : Writes (.boolean true) (ascii "true")
  | no : Writes (.boolean false) (ascii "false")

/-! ### Strings -/

/-- The escapes of one letter, with the byte that each stands for. -/
def letterEscapes : List (UInt8 × UInt8) :=
  [(34, 34), (92, 92), (47, 47), (98, 8), (102, 12), (110, 10), (114, 13), (116, 9)]

/-- The value of a hexadecimal digit. -/
def hexDigitValue (byte : UInt8) : Option Nat :=
  if 48 ≤ byte ∧ byte ≤ 57 then some (byte.toNat - 48)
  else if 65 ≤ byte ∧ byte ≤ 70 then some (byte.toNat - 55)
  else if 97 ≤ byte ∧ byte ≤ 102 then some (byte.toNat - 87)
  else none

/-- Four hexadecimal digits, and the code unit that they give. -/
inductive HexUnit : Bytes → Nat → Prop where
  | digits {first second third fourth : UInt8} {a b c d : Nat}
      (first_value : hexDigitValue first = some a) (second_value : hexDigitValue second = some b)
      (third_value : hexDigitValue third = some c) (fourth_value : hexDigitValue fourth = some d) :
      HexUnit [first, second, third, fourth] (((a * 16 + b) * 16 + c) * 16 + d)

/-- What stands between the quotes of a string, and the UTF-8 text that it says. -/
inductive Spells : Bytes → Bytes → Prop where
  | nil : Spells [] []
  | plain {byte : UInt8} {raw said : Bytes} (printed : 32 ≤ byte) (unescaped : byte ≠ 34 ∧ byte ≠ 92)
      (rest : Spells raw said) : Spells (byte :: raw) (byte :: said)
  | letter {letter byte : UInt8} {raw said : Bytes} (known : (letter, byte) ∈ letterEscapes)
      (rest : Spells raw said) : Spells (92 :: letter :: raw) (byte :: said)
  | unit {digits raw said : Bytes} {character : Char}
      (value : HexUnit digits character.toNat) (rest : Spells raw said) :
      Spells (92 :: 117 :: (digits ++ raw)) (String.utf8EncodeChar character ++ said)
  | pair {high low raw said : Bytes} {character : Char} {highUnit lowUnit : Nat}
      (high_value : HexUnit high highUnit) (low_value : HexUnit low lowUnit)
      (high_range : 0xD800 ≤ highUnit ∧ highUnit < 0xDC00)
      (low_range : 0xDC00 ≤ lowUnit ∧ lowUnit < 0xE000)
      (value : 0x10000 + (highUnit - 0xD800) * 0x400 + (lowUnit - 0xDC00) = character.toNat)
      (rest : Spells raw said) :
      Spells (92 :: 117 :: (high ++ 92 :: 117 :: (low ++ raw)))
        (String.utf8EncodeChar character ++ said)

theorem ne_of_hexDigitValue {byte : UInt8} {digit : Nat} (value : hexDigitValue byte = some digit) :
    byte ≠ 0 ∧ byte ≠ 34 := by
  constructor
  · rintro rfl
    contradiction
  · rintro rfl
    contradiction

/-- The digits of a unit are neither NULs nor quotes. -/
theorem HexUnit.notMem {digits : Bytes} {unit : Nat} (value : HexUnit digits unit) :
    0 ∉ digits ∧ 34 ∉ digits := by
  cases value with
  | digits first_value second_value third_value fourth_value =>
      have first := ne_of_hexDigitValue first_value
      have second := ne_of_hexDigitValue second_value
      have third := ne_of_hexDigitValue third_value
      have fourth := ne_of_hexDigitValue fourth_value
      simp only [List.mem_cons, List.not_mem_nil, or_false, not_or]
      exact ⟨⟨first.1.symm, second.1.symm, third.1.symm, fourth.1.symm⟩,
        ⟨first.2.symm, second.2.symm, third.2.symm, fourth.2.symm⟩⟩

theorem letterEscapes_letters : ∀ escape ∈ letterEscapes,
    escape.1 ≠ 0 ∧ (escape.1 = 34 → escape.2 = 34) :=
  forall_mem_of_all (by decide)

/-- No string holds a NUL. -/
theorem Spells.zero_notMem {raw said : Bytes} (spells : Spells raw said) : 0 ∉ raw := by
  induction spells with
  | nil => exact List.not_mem_nil
  | plain printed unescaped rest inductionHypothesis =>
      rintro (- | ⟨-, member⟩)
      · exact absurd printed (by decide)
      · exact inductionHypothesis member
  | letter known rest inductionHypothesis =>
      have nonzero := (letterEscapes_letters _ known).1
      simp only [List.mem_cons, not_or]
      exact ⟨by decide, nonzero.symm, inductionHypothesis⟩
  | unit value rest inductionHypothesis =>
      simp only [List.mem_cons, List.mem_append, not_or]
      exact ⟨by decide, by decide, value.notMem.1, inductionHypothesis⟩
  | pair high_value low_value high_range low_range value rest inductionHypothesis =>
      simp only [List.mem_cons, List.mem_append, not_or]
      exact ⟨by decide, by decide, high_value.notMem.1, by decide, by decide, low_value.notMem.1,
        inductionHypothesis⟩

/-- A quote between the quotes is escaped, and is a quote of what is said. -/
theorem Spells.quote_mem {raw said : Bytes} (spells : Spells raw said) (quote : 34 ∈ raw) :
    34 ∈ said := by
  induction spells with
  | nil => exact quote
  | plain printed unescaped rest inductionHypothesis =>
      have behind := (List.mem_cons.mp quote).resolve_left unescaped.1.symm
      exact List.mem_cons_of_mem _ (inductionHypothesis behind)
  | letter known rest inductionHypothesis =>
      simp only [List.mem_cons] at quote ⊢
      rcases quote with backslash | same | behind
      · exact absurd backslash (by decide)
      · exact Or.inl ((letterEscapes_letters _ known).2 same.symm).symm
      · exact Or.inr (inductionHypothesis behind)
  | unit value rest inductionHypothesis =>
      simp only [List.mem_cons, List.mem_append] at quote
      rcases quote with backslash | letter | digit | behind
      · exact absurd backslash (by decide)
      · exact absurd letter (by decide)
      · exact absurd digit value.notMem.2
      · exact List.mem_append_right _ (inductionHypothesis behind)
  | pair high_value low_value high_range low_range value rest inductionHypothesis =>
      simp only [List.mem_cons, List.mem_append] at quote
      rcases quote with backslash | letter | digit | backslash | letter | digit | behind
      · exact absurd backslash (by decide)
      · exact absurd letter (by decide)
      · exact absurd digit high_value.notMem.2
      · exact absurd backslash (by decide)
      · exact absurd letter (by decide)
      · exact absurd digit low_value.notMem.2
      · exact List.mem_append_right _ (inductionHypothesis behind)

/-! ### Layouts -/

/-- The whitespace of JSON. -/
def isBlank (byte : UInt8) : Bool := byte = 32 ∨ byte = 9 ∨ byte = 10 ∨ byte = 13

/-- Whitespace between two tokens. -/
abbrev Blanks := {text : Bytes // ∀ byte ∈ text, isBlank byte = true}

/-- A member with the whitespace around its tokens. `raw` stands between the
quotes of the key. -/
structure Pair where
  beforeKey : Blanks
  raw : Bytes
  beforeColon : Blanks
  beforeValue : Blanks
  value : Scalar
  written : {text : Bytes // Writes value text}
  behind : Blanks

/-- A member from the opening quote of its key to the end of its value. -/
def Pair.core (pair : Pair) : Bytes :=
  34 :: (pair.raw ++ 34 :: (pair.beforeColon.1 ++ 58 :: (pair.beforeValue.1 ++ pair.written.1)))

def Pair.text (pair : Pair) : Bytes := pair.beforeKey.1 ++ (pair.core ++ pair.behind.1)

/-- Members with commas between them. -/
def pairsText : List Pair → Bytes
  | [] => []
  | [pair] => pair.text
  | pair :: next :: pairs => pair.text ++ 44 :: pairsText (next :: pairs)

/-- An object with the whitespace around it and in front of its closing brace. -/
structure Layout where
  lead : Blanks
  pairs : List Pair
  inner : Blanks
  trail : Blanks

/-- From behind the opening brace on. -/
def Layout.body (layout : Layout) : Bytes :=
  pairsText layout.pairs ++ (layout.inner.1 ++ 125 :: layout.trail.1)

def Layout.text (layout : Layout) : Bytes := layout.lead.1 ++ 123 :: layout.body

/-- A text is UTF-8. -/
def Utf8 (text : Bytes) : Prop :=
  ∃ characters : List Char, text = characters.flatMap String.utf8EncodeChar

/-- A pair means a member. -/
def Pair.Means (pair : Pair) (member : Bytes × Scalar) : Prop :=
  Spells pair.raw member.1 ∧ pair.value = member.2

/-- A layout means these members. -/
def Layout.Means (layout : Layout) (members : List (Bytes × Scalar)) : Prop :=
  List.Forall₂ Pair.Means layout.pairs members

/-- A text is a flat object with these members. -/
def FlatObject (text : Bytes) (members : List (Bytes × Scalar)) : Prop :=
  Utf8 text ∧ ∃ layout : Layout, layout.text = text ∧ layout.Means members

theorem exists_member {pairs : List Pair} {members : List (Bytes × Scalar)}
    (means : List.Forall₂ Pair.Means pairs members) :
    ∀ pair ∈ pairs, ∃ member ∈ members, pair.Means member := by
  induction means with
  | nil => exact fun pair inside => absurd inside List.not_mem_nil
  | cons first others inductionHypothesis =>
      intro pair inside
      rcases List.mem_cons.mp inside with rfl | behind
      · exact ⟨_, List.mem_cons_self, first⟩
      · obtain ⟨member, listed, same⟩ := inductionHypothesis pair behind
        exact ⟨member, List.mem_cons_of_mem _ listed, same⟩

/-- Every pair of a layout means one of the members. -/
theorem Layout.Means.exists_member {layout : Layout} {members : List (Bytes × Scalar)}
    (means : layout.Means members) :
    ∀ pair ∈ layout.pairs, ∃ member ∈ members, pair.Means member :=
  FlatJson.exists_member means

end MiniMs.Library.FlatJson
