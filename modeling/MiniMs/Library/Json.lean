import MiniMs.Library.Text

/-!
JSON values as Python holds them, and the text that `json.dumps` makes of them
with its default options.

Owns: strings of code points (lone surrogates included), their UTF-8 encoding,
numbers by the text they print as, values, look-ups in objects, truth values,
the ASCII escapes and `dumps`, and what bytes such a text is made of.

Does not own any object of a program; arithmetic on numbers has no place here.
-/

namespace MiniMs.Library.Json

open MiniMs.Library.Text

/-! ### Strings -/

/-- A code point of a Python string; surrogates can stand alone. -/
abbrev CodePoint := Fin 0x110000

instance neZero_points : NeZero 0x110000 := ⟨by decide⟩

theorem toNat_lt_points (byte : UInt8) : byte.toNat < 0x110000 := by
  have below := byte.toNat_lt
  omega

/-- A Python `str`. -/
abbrev PyStr := List CodePoint

instance lawfulBEq_pyStr : LawfulBEq PyStr := inferInstance

/-- A character as a code point. -/
def ofChar (character : Char) : CodePoint :=
  ⟨character.toNat, by
    have valid := character.valid
    unfold UInt32.isValidChar Nat.isValidChar at valid
    unfold Char.toNat
    omega⟩

/-- A string literal. -/
def lit (text : String) : PyStr := text.toList.map ofChar

/-- The character of a code point, unless it is a surrogate. -/
def toChar? (point : CodePoint) : Option Char :=
  if valid : Nat.isValidChar point.val then some (Char.ofNatAux point.val valid) else none

/-- `str.encode()`: the UTF-8 bytes; it raises at a surrogate. -/
def encode (text : PyStr) : Option Bytes :=
  (text.mapM toChar?).map fun characters => characters.flatMap String.utf8EncodeChar

theorem encode_nil : encode [] = some [] := rfl

/-! ### Values -/

/-- The bytes that a printed number is made of. -/
def numeralBytes : Bytes := ascii "+-.0123456789EINaefinty"

theorem numeral_nil : ∀ byte ∈ ([] : Bytes), byte ∈ numeralBytes := List.forall_mem_nil _

theorem numeral_minusOne : ∀ byte ∈ ascii "-1", byte ∈ numeralBytes := forall_mem_of_all (by decide)

/-- A number, by the text that `json.dumps` prints for it. -/
structure Numeral where
  text : Bytes
  plain : ∀ byte ∈ text, byte ∈ numeralBytes
deriving DecidableEq

/-- `0`, `0.0` and `-0.0` are the numbers that count as false. -/
def Numeral.isZero (numeral : Numeral) : Bool :=
  numeral.text ∈ [ascii "0", ascii "0.0", ascii "-0.0"]

/-- A JSON value. -/
inductive Value where
  | null
  | bool (value : Bool)
  | number (numeral : Numeral)
  | string (text : PyStr)
  | array (items : List Value)
  | object (members : List (PyStr × Value))

/-- `bool(value)`. -/
def Value.truthy : Value → Bool
  | .null => false
  | .bool value => value
  | .number numeral => !numeral.isZero
  | .string text => !text.isEmpty
  | .array items => !items.isEmpty
  | .object members => !members.isEmpty

/-- `dict.get`. -/
def get (members : List (PyStr × Value)) (key : PyStr) (default : Value) : Value :=
  ((members.find? fun member => member.1 = key).map Prod.snd).getD default

/-! ### `json.dumps` -/

/-- `'{0:x}'` of a number below 16. -/
def hexDigit (digit : Nat) : UInt8 :=
  if digit < 10 then UInt8.ofNat (48 + digit) else UInt8.ofNat (87 + digit)

/-- `\uXXXX`. -/
def escapeUnit (unit : Nat) : Bytes :=
  [92, 117, hexDigit (unit / 4096 % 16), hexDigit (unit / 256 % 16), hexDigit (unit / 16 % 16),
    hexDigit (unit % 16)]

/-- The characters that stand for themselves: printable ASCII but for the quote
and the backslash. -/
def Unescaped (point : CodePoint) : Prop :=
  32 ≤ point.val ∧ point.val ≤ 126 ∧ point.val ≠ 34 ∧ point.val ≠ 92

instance (point : CodePoint) : Decidable (Unescaped point) := by
  unfold Unescaped
  infer_instance

def escapePoint (point : CodePoint) : Bytes :=
  if Unescaped point then [UInt8.ofNat point.val]
  else if point.val = 34 then [92, 34]
  else if point.val = 92 then [92, 92]
  else if point.val = 10 then [92, 110]
  else if point.val = 13 then [92, 114]
  else if point.val = 9 then [92, 116]
  else if point.val = 12 then [92, 102]
  else if point.val = 8 then [92, 98]
  else if point.val < 0x10000 then escapeUnit point.val
  else
    escapeUnit (0xd800 + (point.val - 0x10000) / 0x400) ++
      escapeUnit (0xdc00 + (point.val - 0x10000) % 0x400)

def escape (text : PyStr) : Bytes := text.flatMap escapePoint

def quoted (text : PyStr) : Bytes := 34 :: escape text ++ [34]

mutual

def dumps : Value → Bytes
  | .null => ascii "null"
  | .bool true => ascii "true"
  | .bool false => ascii "false"
  | .number numeral => numeral.text
  | .string text => quoted text
  | .array [] => ascii "[]"
  | .array (item :: items) => ascii "[" ++ dumps item ++ dumpsItems items ++ ascii "]"
  | .object [] => ascii "\x7b\x7d"
  | .object ((key, value) :: members) =>
      ascii "\x7b" ++ quoted key ++ ascii ": " ++ dumps value ++ dumpsMembers members ++ ascii "\x7d"

/-- The items after the first. -/
def dumpsItems : List Value → Bytes
  | [] => []
  | item :: items => ascii ", " ++ dumps item ++ dumpsItems items

/-- The members after the first. -/
def dumpsMembers : List (PyStr × Value) → Bytes
  | [] => []
  | (key, value) :: members =>
      ascii ", " ++ quoted key ++ ascii ": " ++ dumps value ++ dumpsMembers members

end

/-! ### Members in order -/

/-- The text of an object up to some member, without the closing brace. -/
def openText : List (PyStr × Value) → Bytes
  | [] => ascii "\x7b"
  | (key, value) :: members =>
      ascii "\x7b" ++ quoted key ++ ascii ": " ++ dumps value ++ dumpsMembers members

theorem dumpsMembers_append (first second : List (PyStr × Value)) :
    dumpsMembers (first ++ second) = dumpsMembers first ++ dumpsMembers second := by
  induction first with
  | nil =>
      rw [List.nil_append, dumpsMembers, List.nil_append]
  | cons member first inductionHypothesis =>
      rw [List.cons_append, dumpsMembers, dumpsMembers, inductionHypothesis, ← List.append_assoc]

theorem openText_append {first second : List (PyStr × Value)} (nonempty : first ≠ []) :
    openText (first ++ second) = openText first ++ dumpsMembers second := by
  cases first with
  | nil => exact absurd rfl nonempty
  | cons member first =>
      rw [List.cons_append, openText, openText, dumpsMembers_append, ← List.append_assoc]

theorem dumps_object {members : List (PyStr × Value)} (nonempty : members ≠ []) :
    dumps (.object members) = openText members ++ ascii "\x7d" := by
  cases members with
  | nil => exact absurd rfl nonempty
  | cons member members =>
      rw [dumps, openText]

/-- An object, cut open at a member whose value is a string. -/
theorem dumps_object_split {before : List (PyStr × Value)} (nonempty : before ≠ [])
    (key text : PyStr) (after : List (PyStr × Value)) :
    dumps (.object (before ++ (key, .string text) :: after)) =
      openText before ++ [44, 32] ++ (quoted key ++ [58]) ++
        32 :: 34 :: (escape text ++ 34 :: (dumpsMembers after ++ ascii "\x7d")) := by
  have separator : ascii ", " = [44, 32] := rfl
  have colon : ascii ": " = [58, 32] := rfl
  rw [dumps_object (by simp), openText_append nonempty, dumpsMembers, dumps, separator, colon]
  unfold quoted
  simp only [List.append_assoc, List.cons_append, List.nil_append]

/-! ### The bytes of a JSON text -/

/-- Printable ASCII. -/
def Printable (byte : UInt8) : Prop := 32 ≤ byte ∧ byte ≤ 126

instance (byte : UInt8) : Decidable (Printable byte) := by
  unfold Printable
  infer_instance

theorem printable_hexDigit : ∀ digit, digit < 16 → Printable (hexDigit digit) := by
  decide

theorem printable_literal {text : Bytes}
    (checked : text.all (fun byte => decide (Printable byte)) = true) :
    ∀ byte ∈ text, Printable byte :=
  forall_mem_of_all checked

theorem printable_numeralBytes : ∀ byte ∈ numeralBytes, Printable byte :=
  printable_literal (by decide)

theorem printable_append {first second : Bytes} (left : ∀ byte ∈ first, Printable byte)
    (right : ∀ byte ∈ second, Printable byte) : ∀ byte ∈ first ++ second, Printable byte :=
  List.forall_mem_append.mpr ⟨left, right⟩

theorem printable_escapeUnit (unit : Nat) : ∀ byte ∈ escapeUnit unit, Printable byte := by
  have digits : ∀ value, Printable (hexDigit (value % 16)) := fun value =>
    printable_hexDigit _ (Nat.mod_lt _ (by decide))
  intro byte member
  simp only [escapeUnit, List.mem_cons, List.not_mem_nil, or_false] at member
  rcases member with rfl | rfl | rfl | rfl | rfl | rfl
  · decide
  · decide
  · exact digits _
  · exact digits _
  · exact digits _
  · exact digits _

/-- An unescaped character is its own byte. -/
theorem printable_unescaped {point : CodePoint} (unescaped : Unescaped point) :
    Printable (UInt8.ofNat point.val) := by
  obtain ⟨low, high, -, -⟩ := unescaped
  have small : (UInt8.ofNat point.val).toNat = point.val := by
    rw [UInt8.toNat_ofNat']
    omega
  constructor
  · rw [UInt8.le_iff_toNat_le, small]
    exact low
  · rw [UInt8.le_iff_toNat_le, small]
    exact high

theorem printable_escapePoint (point : CodePoint) : ∀ byte ∈ escapePoint point, Printable byte := by
  unfold escapePoint
  split
  · intro byte member
    rw [List.mem_singleton.mp member]
    exact printable_unescaped ‹_›
  split
  · exact printable_literal (by decide)
  split
  · exact printable_literal (by decide)
  split
  · exact printable_literal (by decide)
  split
  · exact printable_literal (by decide)
  split
  · exact printable_literal (by decide)
  split
  · exact printable_literal (by decide)
  split
  · exact printable_literal (by decide)
  split
  · exact printable_escapeUnit _
  · exact printable_append (printable_escapeUnit _) (printable_escapeUnit _)

theorem printable_escape (text : PyStr) : ∀ byte ∈ escape text, Printable byte := by
  intro byte member
  obtain ⟨point, _, occurs⟩ := List.mem_flatMap.mp member
  exact printable_escapePoint point byte occurs

theorem printable_quoted (text : PyStr) : ∀ byte ∈ quoted text, Printable byte := by
  have quote : ∀ byte ∈ ([34] : Bytes), Printable byte :=
    printable_literal (by decide)
  exact printable_append (printable_append quote (printable_escape text)) quote

mutual

/-- A JSON text is printable ASCII. -/
theorem printable_dumps : ∀ (value : Value), ∀ byte ∈ dumps value, Printable byte
  | .null => printable_literal (by decide)
  | .bool true => printable_literal (by decide)
  | .bool false => printable_literal (by decide)
  | .number numeral => fun byte member =>
      printable_numeralBytes byte (numeral.plain byte member)
  | .string text => printable_quoted text
  | .array [] => printable_literal (by decide)
  | .array (item :: items) => by
      have first := printable_dumps item
      have later := printable_dumpsItems items
      exact printable_append (printable_append (printable_append (printable_literal (by decide)) first)
        later) (printable_literal (by decide))
  | .object [] => printable_literal (by decide)
  | .object ((key, value) :: members) => by
      have first := printable_dumps value
      have later := printable_dumpsMembers members
      have name := printable_quoted key
      have colon : ∀ byte ∈ ascii ": ", Printable byte := printable_literal (by decide)
      exact printable_append (printable_append (printable_append (printable_append (printable_append
        (printable_literal (by decide)) name) colon) first) later) (printable_literal (by decide))

theorem printable_dumpsItems : ∀ (items : List Value), ∀ byte ∈ dumpsItems items, Printable byte
  | [] => fun _ member => absurd member List.not_mem_nil
  | item :: items => by
      have first := printable_dumps item
      have later := printable_dumpsItems items
      exact printable_append (printable_append (printable_literal (by decide)) first) later

theorem printable_dumpsMembers :
    ∀ (members : List (PyStr × Value)), ∀ byte ∈ dumpsMembers members, Printable byte
  | [] => fun _ member => absurd member List.not_mem_nil
  | (key, value) :: members => by
      have first := printable_dumps value
      have later := printable_dumpsMembers members
      have name := printable_quoted key
      have colon : ∀ byte ∈ ascii ": ", Printable byte := printable_literal (by decide)
      exact printable_append (printable_append (printable_append (printable_append
        (printable_literal (by decide)) name) colon) first) later

end

/-- A JSON text holds no NUL. -/
theorem zero_notMem_dumps (value : Value) : 0 ∉ dumps value := by
  intro member
  have printable := printable_dumps value 0 member
  exact absurd printable (by decide)

end MiniMs.Library.Json
