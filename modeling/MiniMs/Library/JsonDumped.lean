import MiniMs.Library.JsonLoads
import MiniMs.Library.Number

/-!
What `json.loads` makes of the pieces that `json.dumps` prints.

Owns: the string that comes out of an escaped one, decimal integers, and
objects of such members.

Arrays, and numbers that are no integers, are not owned here.
-/

namespace MiniMs.Library.Json

open MiniMs.Library.Text

/-! ### Escaped strings -/

theorem hexValue_hexDigit : ∀ digit, digit < 16 → hexValue (ofByte (hexDigit digit)) = some digit := by
  decide

theorem codeUnit_escapeUnit {unit : Nat} (small : unit < 0x10000) (rest : PyStr) :
    codeUnit (((escapeUnit unit).map ofByte).drop 2 ++ rest) = some (⟨unit, small⟩, rest) := by
  have digit : ∀ value, hexValue (ofByte (hexDigit (value % 16))) = some (value % 16) :=
    fun value => hexValue_hexDigit _ (Nat.mod_lt _ (by decide))
  have shape : ((escapeUnit unit).map ofByte).drop 2 ++ rest =
      ofByte (hexDigit (unit / 4096 % 16)) :: ofByte (hexDigit (unit / 256 % 16)) ::
        ofByte (hexDigit (unit / 16 % 16)) :: ofByte (hexDigit (unit % 16)) :: rest := rfl
  have value : Fin.ofNat 0x10000 (unit / 4096 % 16 * 4096 + unit / 256 % 16 * 256 +
      unit / 16 % 16 * 16 + unit % 16) = ⟨unit, small⟩ := by
    apply Fin.ext
    rw [Fin.val_ofNat]
    show _ = unit
    omega
  rw [shape]
  unfold codeUnit
  simp only [digit, Option.bind_eq_bind, Option.bind_some, value]

/-- A code unit that is no surrogate stands for itself. -/
theorem scanUnit_alone {unit : Nat} (small : unit < 0x10000)
    (alone : ¬ (0xd800 ≤ unit ∧ unit < 0xdc00)) (rest : PyStr) :
    scanUnit (((escapeUnit unit).map ofByte).drop 2 ++ rest) =
      some (⟨unit, by omega⟩, rest) := by
  unfold scanUnit
  rw [codeUnit_escapeUnit small]
  simp only [Option.bind_eq_bind, Option.bind_some]
  rw [if_neg (fun both => alone ⟨both.1, both.2.1⟩)]

theorem scanUnit_pair {high low : Nat} (isHigh : 0xd800 ≤ high ∧ high < 0xdc00)
    (isLow : 0xdc00 ≤ low ∧ low < 0xe000) (rest : PyStr) :
    scanUnit (((escapeUnit high).map ofByte).drop 2 ++ ((escapeUnit low).map ofByte ++ rest)) =
      some (Fin.ofNat _ (0x10000 + (high - 0xd800) * 0x400 + (low - 0xdc00)), rest) := by
  have opening : ((escapeUnit low).map ofByte ++ rest).take 2 = [92, 117] := rfl
  have behind : ((escapeUnit low).map ofByte ++ rest).drop 2 =
      ((escapeUnit low).map ofByte).drop 2 ++ rest := rfl
  unfold scanUnit
  rw [codeUnit_escapeUnit (by omega)]
  simp only [Option.bind_eq_bind, Option.bind_some]
  rw [if_pos ⟨isHigh.1, isHigh.2, opening⟩, behind, codeUnit_escapeUnit (by omega)]
  exact if_pos isLow

/-- The escape of a character is read as the character. -/
theorem scanString_escapePoint {point : CodePoint} (scalar : (toChar? point).isSome) (fuel : Nat)
    (rest : PyStr) :
    scanString (fuel + 1) ((escapePoint point).map ofByte ++ rest) =
      (scanString fuel rest).bind fun read => some (point :: read.1, read.2) := by
  have valid : Nat.isValidChar point.val := by
    unfold toChar? at scalar
    by_contra invalid
    rw [dif_neg invalid] at scalar
    contradiction
  have below := point.isLt
  have two : ∀ letter character : CodePoint, scanEscape (letter :: rest) = some (character, rest) →
      scanString (fuel + 1) (92 :: letter :: rest) =
        (scanString fuel rest).bind fun read => some (character :: read.1, read.2) := by
    intro letter character escape
    have notQuote : ¬ (92 : CodePoint).val = 34 := by decide
    have backslash : (92 : CodePoint).val = 92 := rfl
    rw [scanString, if_neg notQuote, if_pos backslash, escape]
    rfl
  have unit : ∀ (text behind : PyStr) (character : CodePoint),
      scanUnit text = some (character, behind) →
      scanString (fuel + 1) (92 :: 117 :: text) =
        (scanString fuel behind).bind fun read => some (character :: read.1, read.2) := by
    intro text behind character escape
    have notQuote : ¬ (92 : CodePoint).val = 34 := by decide
    have backslash : (92 : CodePoint).val = 92 := rfl
    have letter : scanEscape (117 :: text) = scanUnit text := rfl
    rw [scanString, if_neg notQuote, if_pos backslash, letter, escape]
    rfl
  have named : ∀ number : CodePoint, point.val = number.val → point = number :=
    fun number same => Fin.ext same
  unfold escapePoint
  split
  · rename_i unescaped
    obtain ⟨low, high, quote, backslash⟩ := unescaped
    have same : ofByte (UInt8.ofNat point.val) = point := by
      apply Fin.ext
      show (UInt8.ofNat point.val).toNat = point.val
      rw [UInt8.toNat_ofNat']
      omega
    show scanString (fuel + 1) (ofByte (UInt8.ofNat point.val) :: rest) = _
    rw [same, scanString, if_neg quote, if_neg backslash, if_neg (by omega)]
    rfl
  split
  · obtain rfl := named 34 ‹_›
    exact two 34 34 rfl
  split
  · obtain rfl := named 92 ‹_›
    exact two 92 92 rfl
  split
  · obtain rfl := named 10 ‹_›
    exact two 110 10 rfl
  split
  · obtain rfl := named 13 ‹_›
    exact two 114 13 rfl
  split
  · obtain rfl := named 9 ‹_›
    exact two 116 9 rfl
  split
  · obtain rfl := named 12 ‹_›
    exact two 102 12 rfl
  split
  · obtain rfl := named 8 ‹_›
    exact two 98 8 rfl
  split
  · rename_i small
    have alone : ¬ (0xd800 ≤ point.val ∧ point.val < 0xdc00) := by
      unfold Nat.isValidChar at valid
      omega
    exact unit _ rest point (scanUnit_alone small alone rest)
  · have value : Fin.ofNat 0x110000 (0x10000 +
        (0xd800 + (point.val - 0x10000) / 0x400 - 0xd800) * 0x400 +
          (0xdc00 + (point.val - 0x10000) % 0x400 - 0xdc00)) = point := by
      apply Fin.ext
      rw [Fin.val_ofNat]
      omega
    have isHigh : 0xd800 ≤ 0xd800 + (point.val - 0x10000) / 0x400 ∧
        0xd800 + (point.val - 0x10000) / 0x400 < 0xdc00 := by omega
    have isLow : 0xdc00 ≤ 0xdc00 + (point.val - 0x10000) % 0x400 ∧
        0xdc00 + (point.val - 0x10000) % 0x400 < 0xe000 := by omega
    have read := scanUnit_pair isHigh isLow rest
    rw [value] at read
    rw [List.map_append, List.append_assoc]
    exact unit _ rest point read

theorem scanString_escape {text : PyStr} (scalars : ∀ point ∈ text, (toChar? point).isSome)
    (fuel : Nat) (enough : text.length < fuel) (rest : PyStr) :
    scanString fuel ((escape text).map ofByte ++ 34 :: rest) = some (text, rest) := by
  induction text generalizing fuel with
  | nil =>
      obtain ⟨more, rfl⟩ : ∃ more, fuel = more + 1 := ⟨fuel - 1, by simp at enough; omega⟩
      rfl
  | cons point text inductionHypothesis =>
      obtain ⟨more, rfl⟩ : ∃ more, fuel = more + 1 := ⟨fuel - 1, by simp at enough; omega⟩
      have later := inductionHypothesis
        (fun other member => scalars other (List.mem_cons_of_mem _ member)) more
        (by simpa using enough)
      have split : (escape (point :: text)).map ofByte ++ 34 :: rest =
          (escapePoint point).map ofByte ++ ((escape text).map ofByte ++ 34 :: rest) := by
        simp [escape]
      rw [split, scanString_escapePoint (scalars point List.mem_cons_self), later]
      rfl

/-- Every escape takes at least one byte. -/
theorem length_le_escape (text : PyStr) : text.length ≤ (escape text).length := by
  have one : ∀ point, 1 ≤ (escapePoint point).length := by
    intro point
    unfold escapePoint
    repeat (split; · simp [escapeUnit])
    simp [escapeUnit]
  induction text with
  | nil => exact Nat.le_refl _
  | cons point text inductionHypothesis =>
      have first := one point
      have shape : escape (point :: text) = escapePoint point ++ escape text := rfl
      rw [shape, List.length_append, List.length_cons]
      omega

theorem scalars_of_encode {text : PyStr} {bytes : Bytes} (encoded : encode text = some bytes) :
    ∀ point ∈ text, (toChar? point).isSome := by
  induction text generalizing bytes with
  | nil => exact fun _ member => absurd member List.not_mem_nil
  | cons point text inductionHypothesis =>
      obtain ⟨character, rest, scalar, encodedRest, -⟩ := encode_cons encoded
      intro other member
      rcases List.mem_cons.mp member with rfl | later
      · rw [scalar]
        rfl
      · exact inductionHypothesis encodedRest other later

section Scanner

variable (float : PyStr → Numeral)

/-- A printed string is read as the string, if it has no surrogate. -/
theorem scans_quoted {text : PyStr} (scalars : ∀ point ∈ text, (toChar? point).isSome) :
    Scans float ((quoted text).map ofByte) (.string text) where
  solid := fun _ => rfl
  scan := by
    intro fuel stop rest _ enough
    obtain ⟨more, rfl⟩ : ∃ more, fuel = more + 1 := ⟨fuel - 1, by omega⟩
    have shape : (quoted text).map ofByte ++ stop :: rest =
        34 :: ((escape text).map ofByte ++ 34 :: stop :: rest) := by
      have point : ofByte 34 = 34 := rfl
      simp [quoted, point]
    have fits := length_le_escape text
    rw [shape] at enough ⊢
    simp only [List.length_cons, List.length_append, List.length_map] at enough
    have read := scanString_escape scalars more (by omega) (stop :: rest)
    have quote : (34 : CodePoint).val = 34 := rfl
    rw [scanOnce, if_pos quote, read]
    rfl

/-! ### Integers -/

/-- The text of a number that is not negative, as `int()` accepts it. -/
structure IntegerText (text : PyStr) : Prop where
  digits : ∀ point ∈ text, isDigit point = true
  nonempty : text ≠ []
  noLeadingZero : text.head? = some 48 → text = [48]
  short : text.length ≤ 4300

theorem not_isDigit_stop {stop : CodePoint} (ends : stop.val = 44 ∨ stop.val = 125) :
    isDigit stop = false := by
  unfold isDigit
  rw [decide_eq_false_iff_not]
  omega

theorem scanInteger_digits {text : PyStr} (integer : IntegerText text) {stop : CodePoint}
    (ends : stop.val = 44 ∨ stop.val = 125) (rest : PyStr) :
    scanInteger (text ++ stop :: rest) = some (text, stop :: rest) := by
  obtain ⟨digits, nonempty, noLeadingZero, -⟩ := integer
  have stops := not_isDigit_stop ends
  cases text with
  | nil => exact absurd rfl nonempty
  | cons digit text =>
      have first := digits digit List.mem_cons_self
      have later : ∀ point ∈ text, isDigit point = true :=
        fun point member => digits point (List.mem_cons_of_mem _ member)
      rw [List.cons_append]
      unfold scanInteger
      by_cases zero : digit.val = 48
      · have point : digit = 48 := Fin.ext zero
        have single := noLeadingZero (by rw [List.head?_cons, point])
        obtain rfl : text = [] := (List.cons.inj single).2
        exact if_pos zero
      · dsimp only
        rw [if_neg zero, if_pos first, List.takeWhile_append_of_pos later,
          List.dropWhile_append_of_pos later, List.takeWhile_cons_of_neg (by simp [stops]),
          List.dropWhile_cons_of_neg (by simp [stops]), List.append_nil]

theorem scans_integer {text : PyStr} (integer : IntegerText text) :
    Scans float text (.number (integerNumeral text)) where
  solid := by
    intro rest
    have nonempty := integer.nonempty
    cases text with
    | nil => exact absurd rfl nonempty
    | cons digit text =>
        have first : 48 ≤ digit.val ∧ digit.val ≤ 57 :=
          of_decide_eq_true (integer.digits digit List.mem_cons_self)
        exact skipSpace_cons (by omega) _
  scan := by
    intro fuel stop rest ends enough
    obtain ⟨more, rfl⟩ : ∃ more, fuel = more + 1 := ⟨fuel - 1, by omega⟩
    have fraction := scanFraction_stop ends rest
    have exponent := scanExponent_stop ends rest
    have read := scanInteger_digits integer ends rest
    have nonempty := integer.nonempty
    cases text with
    | nil => exact absurd rfl nonempty
    | cons digit text =>
        have first := integer.digits digit List.mem_cons_self
        have low : 48 ≤ digit.val := (of_decide_eq_true first : 48 ≤ digit.val ∧ digit.val ≤ 57).1
        have sign : ((digit :: text) ++ stop :: rest).head? ≠ some 45 := by
          rw [List.cons_append, List.head?_cons]
          intro minus
          have value := congrArg Fin.val (Option.some.inj minus)
          change digit.val = 45 at value
          omega
        rw [List.cons_append] at sign read ⊢
        rw [scanOnce_digit float first]
        have short : ¬ 4300 < (digit :: text).length := by
          have short := integer.short
          omega
        unfold scanNumber
        dsimp only
        rw [if_neg sign, List.length_nil, List.drop_zero, read]
        simp only [Option.bind_eq_bind, Option.bind_some, fraction, exponent]
        rw [List.append_nil, if_pos rfl, if_neg short]
        rfl

end Scanner

/-! ### Printed integers -/

/-- A printed number does not start with a zero, unless it is 0. -/
theorem head_toDigits_ne_zero {value : Nat} (positive : 0 < value) :
    (Nat.toDigits 10 value).head? ≠ some '0' := by
  induction value using Nat.strong_induction_on with
  | _ value inductionHypothesis =>
      by_cases small : value < 10
      · rw [Nat.toDigits_of_lt_base small, List.head?_cons]
        have nonzero : ∀ digit, digit < 10 → 0 < digit → some digit.digitChar ≠ some '0' := by
          decide
        exact nonzero value small positive
      · have fewer := inductionHypothesis (value / 10) (by omega) (by omega)
        have nonempty : Nat.toDigits 10 (value / 10) ≠ [] := Nat.toDigits_ne_nil
        rw [Nat.toDigits_of_base_le (by decide) (by omega), List.head?_append_of_ne_nil _ nonempty]
        exact fewer

theorem isDigit_ofByte {byte : UInt8} (digit : Number.isDigit byte = true) :
    isDigit (ofByte byte) = true := by
  have range := Number.isDigit_range digit
  exact decide_eq_true range

theorem digitByte_ofByte {byte : UInt8} (digit : Number.isDigit byte = true) :
    digitByte (ofByte byte) = some byte := by
  have range := Number.isDigit_range digit
  have each : ∀ number, 48 ≤ number → number ≤ 57 →
      digitByte (ofByte (UInt8.ofNat number)) = some (UInt8.ofNat number) := by
    decide
  have found := each byte.toNat range.1 range.2
  rwa [UInt8.ofNat_toNat] at found

/-- The characters of a printed number. -/
def integerRaw (value : Nat) : PyStr := (Number.bytesOf (Nat.toDigits 10 value)).map ofByte

theorem integerText_integerRaw {value : Nat} (short : (Nat.toDigits 10 value).length ≤ 4300) :
    IntegerText (integerRaw value) where
  digits := by
    intro point member
    obtain ⟨byte, inside, same⟩ := List.mem_map.mp member
    rw [← same]
    exact isDigit_ofByte (Number.forall_isDigit_bytesOf value byte inside)
  nonempty := by
    intro empty
    exact Number.bytesOf_toDigits_ne_nil value (List.map_eq_nil_iff.mp empty)
  noLeadingZero := by
    intro zero
    by_cases positive : 0 < value
    · have leading := head_toDigits_ne_zero positive
      have digits := Number.digits_toDigits value
      cases shape : Nat.toDigits 10 value with
      | nil => exact absurd shape Nat.toDigits_ne_nil
      | cons first rest =>
          rw [shape] at leading digits
          have range := Number.toNat_ofNat_digit (digits first List.mem_cons_self)
          have same : ofByte (UInt8.ofNat first.toNat) = 48 := by
            unfold integerRaw Number.bytesOf at zero
            rw [shape] at zero
            exact Option.some.inj zero
          have value := congrArg Fin.val same
          change (UInt8.ofNat first.toNat).toNat = 48 at value
          have isZero : first = '0' := Char.toNat_inj.mp (by rw [← range, value]; rfl)
          exact absurd (by rw [isZero, List.head?_cons]) leading
    · obtain rfl : value = 0 := by omega
      rfl
  short := by
    unfold integerRaw Number.bytesOf
    rw [List.length_map, List.length_map]
    exact short

theorem filterMap_digitByte {digits : Bytes}
    (isDigits : ∀ byte ∈ digits, Number.isDigit byte = true) :
    (digits.map ofByte).filterMap digitByte = digits := by
  induction digits with
  | nil => rfl
  | cons digit digits inductionHypothesis =>
      have later := inductionHypothesis fun other member => isDigits other (List.mem_cons_of_mem _ member)
      have first := digitByte_ofByte (isDigits digit List.mem_cons_self)
      rw [List.map_cons, List.filterMap_cons_some first, later]

/-- The number that `int()` makes of a printed number prints the same. -/
theorem integerNumeral_integerRaw (value : Nat) :
    (integerNumeral (integerRaw value)).text = Number.bytesOf (Nat.toDigits 10 value) := by
  have digits := Number.forall_isDigit_bytesOf value
  have other : integerRaw value ≠ lit "-0" := by
    intro same
    have minus : (45 : CodePoint) ∈ integerRaw value := by
      rw [same]
      decide
    obtain ⟨byte, inside, isMinus⟩ := List.mem_map.mp minus
    have digit := isDigit_ofByte (digits byte inside)
    rw [isMinus] at digit
    contradiction
  show (if integerRaw value = lit "-0" then _ else _) = _
  rw [if_neg other]
  exact filterMap_digitByte digits

/-! ### Printed objects -/

section Objects

variable {float : PyStr → Numeral}

variable (float) in
/-- A member whose key needs no escapes and whose text is what `json.dumps`
prints. -/
structure Printed extends Member float where
  key_printed : (escape key).map ofByte = key
  raw_printed : (dumps value).map ofByte = raw

/-- The key and the value. -/
def Printed.pair (member : Printed float) : PyStr × Value := (member.key, member.value)

/-- What `json.dumps` prints for the member. -/
def Printed.bytes (member : Printed float) : Bytes :=
  quoted member.key ++ ascii ": " ++ dumps member.value

theorem Printed.text_eq (member : Printed float) :
    member.bytes.map ofByte = member.toMember.text := by
  have quote : ofByte 34 = 34 := rfl
  have separator : (ascii ": ").map ofByte = [58, 32] := rfl
  unfold Printed.bytes
  rw [List.map_append, List.map_append, separator, member.raw_printed]
  unfold quoted Member.text
  rw [List.map_append, List.map_cons, member.key_printed, quote]
  simp [quote]

theorem membersText_printed (member : Printed float) (members : List (Printed float)) :
    (member.bytes ++ (dumpsMembers (members.map Printed.pair) ++ ascii "\x7d")).map ofByte =
      membersText member.toMember (members.map Printed.toMember) := by
  induction members generalizing member with
  | nil =>
      have closing : (dumpsMembers [] ++ ascii "\x7d").map ofByte = [125] := rfl
      rw [List.map_append, member.text_eq, List.map_nil, closing]
      rfl
  | cons next members inductionHypothesis =>
      have comma : (ascii ", ").map ofByte = [44, 32] := rfl
      have shape : dumpsMembers ((next :: members).map Printed.pair) ++ ascii "\x7d" =
          ascii ", " ++ (next.bytes ++ (dumpsMembers (members.map Printed.pair) ++ ascii "\x7d")) := by
        simp [dumpsMembers, Printed.pair, Printed.bytes]
      rw [shape, List.map_append, List.map_append, member.text_eq, inductionHypothesis, comma]
      rfl

theorem dumps_printed (member : Printed float) (members : List (Printed float)) :
    (dumps (.object (member.pair :: members.map Printed.pair))).map ofByte =
      objectText member.toMember (members.map Printed.toMember) := by
  have opening : (ascii "\x7b").map ofByte = [123] := rfl
  have shape : dumps (.object (member.pair :: members.map Printed.pair)) =
      ascii "\x7b" ++ (member.bytes ++ (dumpsMembers (members.map Printed.pair) ++ ascii "\x7d")) := by
    simp [dumps, Printed.pair, Printed.bytes]
  rw [shape, List.map_append, membersText_printed, opening]
  rfl

/-- `json.loads` reads a printed object back. -/
theorem loads_dumps_object (member : Printed float) (members : List (Printed float)) :
    loads float ((dumps (.object (member.pair :: members.map Printed.pair))).map ofByte) =
      some (.object (setItems [] (member.toMember :: members.map Printed.toMember))) := by
  rw [dumps_printed]
  exact loads_objectText _ _

/-- A printed value is its own text in UTF-8. -/
theorem decode_dumps (value : Value) : decode (dumps value) = some ((dumps value).map ofByte) := by
  apply decode_of_encode
  apply encode_map_ofByte
  intro byte member
  have printable := (printable_dumps value byte member).2
  exact UInt8.lt_of_le_of_lt printable (by decide)

/-- A member with a string. -/
def Printed.string (key : String) (clean : Clean (lit key))
    (printed : (escape (lit key)).map ofByte = lit key) {text : PyStr}
    (scalars : ∀ point ∈ text, (toChar? point).isSome) : Printed float where
  key := lit key
  raw := (quoted text).map ofByte
  value := .string text
  clean := clean
  scans := scans_quoted float scalars
  key_printed := printed
  raw_printed := by rw [dumps]

/-- A member with an integer. -/
def Printed.integer (key : String) (clean : Clean (lit key))
    (printed : (escape (lit key)).map ofByte = lit key) (value : Nat)
    (short : (Nat.toDigits 10 value).length ≤ 4300) : Printed float where
  key := lit key
  raw := integerRaw value
  value := .number (integerNumeral (integerRaw value))
  clean := clean
  scans := scans_integer float (integerText_integerRaw short)
  key_printed := printed
  raw_printed := by
    rw [dumps, integerNumeral_integerRaw]
    rfl

/-- A member with an empty object. -/
def Printed.emptyObject (key : String) (clean : Clean (lit key))
    (printed : (escape (lit key)).map ofByte = lit key) : Printed float where
  key := lit key
  raw := lit "\x7b\x7d"
  value := .object []
  clean := clean
  scans := scans_emptyObject float
  key_printed := printed
  raw_printed := by
    rw [dumps]
    rfl

end Objects

end MiniMs.Library.Json
