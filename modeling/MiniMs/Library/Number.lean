import MiniMs.Library.Text

/-!
Decimal numbers as the C library reads them.

Owns: `strtol` in base 10 and `atoi`, on a C string given by its bytes, their
range, the text that they leave unread, and the round trip with decimal digits.

The end of a text stands for its NUL. Printing is left to the modules that
format texts.
-/

namespace MiniMs.Library.Number

open MiniMs.Library.Text

/-- `isspace`, in the C locale. -/
def isSpace (byte : UInt8) : Bool := byte = 32 ∨ 9 ≤ byte ∧ byte ≤ 13

/-- `isdigit`. -/
def isDigit (byte : UInt8) : Bool := 48 ≤ byte ∧ byte ≤ 57

/-- The value of digits behind others. -/
def digitsValue (value : Nat) : Bytes → Nat
  | [] => value
  | digit :: rest => digitsValue (value * 10 + (digit.toNat - 48)) rest

/-- The optional sign of a number, and whether it is a minus. -/
def takeSign : Bytes → Bool × Bytes
  | 45 :: rest => (true, rest)
  | 43 :: rest => (false, rest)
  | text => (false, text)

/-- The text from the digits on, and whether a minus precedes them. -/
def signedDigits (text : Bytes) : Bool × Bytes := takeSign (text.dropWhile isSpace)

/-- `LONG_MAX`. -/
def longMax : Nat := 2 ^ 63 - 1

/-- A number out of range is cut to the nearest `long`. -/
def clamp (negative : Bool) (value : Nat) : Int :=
  if negative then -(min value (longMax + 1) : Nat) else (min value longMax : Nat)

/-- `strtol(text, _, 10)`, which is `atol`. -/
def strtol (text : Bytes) : Int :=
  clamp (signedDigits text).1 (digitsValue 0 ((signedDigits text).2.takeWhile isDigit))

/-- What lies behind the last byte that `strtol` takes. -/
def strtolRest (text : Bytes) : Bytes := (signedDigits text).2.dropWhile isDigit

/-- `atoi`: the `long` read as an `int`. -/
def atoi (text : Bytes) : Int := Int.bmod (strtol text) (2 ^ 32)

/-- Where `strtol` leaves its end pointer: without digits, at the start. -/
def strtolEnd (text : Bytes) : Bytes :=
  if (signedDigits text).2.takeWhile isDigit = [] then text else strtolRest text

/-- A value read as an `int`. -/
theorem bmod_range (value : Int) :
    -(2 ^ 31) ≤ Int.bmod value (2 ^ 32) ∧ Int.bmod value (2 ^ 32) < 2 ^ 31 := by
  constructor
  · have low := Int.le_bmod (x := value) (m := 2 ^ 32) (by decide)
    omega
  · have high := Int.bmod_lt (x := value) (m := 2 ^ 32) (by decide)
    omega

theorem atoi_range (text : Bytes) : -(2 ^ 31) ≤ atoi text ∧ atoi text < 2 ^ 31 := bmod_range _

/-! ### Texts that go on -/

theorem dropWhile_append_of_ne_nil {stop : UInt8 → Bool} {text : Bytes}
    (left : text.dropWhile stop ≠ []) (more : Bytes) :
    (text ++ more).dropWhile stop = text.dropWhile stop ++ more := by
  rw [List.dropWhile_append, if_neg (by simpa using left)]

theorem takeWhile_append_of_dropWhile_ne_nil {stop : UInt8 → Bool} {text : Bytes}
    (left : text.dropWhile stop ≠ []) (more : Bytes) :
    (text ++ more).takeWhile stop = text.takeWhile stop := by
  rw [List.takeWhile_append, if_neg]
  intro whole
  apply left
  have split := congrArg List.length (List.takeWhile_append_dropWhile (p := stop) (l := text))
  rw [List.length_append] at split
  exact List.length_eq_zero_iff.mp (by omega)

theorem takeSign_append {text : Bytes} (nonempty : text ≠ []) (more : Bytes) :
    takeSign (text ++ more) = ((takeSign text).1, (takeSign text).2 ++ more) := by
  cases text with
  | nil => exact absurd rfl nonempty
  | cons byte text =>
      by_cases minus : byte = 45
      · rw [minus]
        rfl
      · by_cases plus : byte = 43
        · rw [plus]
          rfl
        · have unsigned : ∀ rest, takeSign (byte :: rest) = (false, byte :: rest) := by
            intro rest
            simp [takeSign, minus, plus]
          rw [List.cons_append, unsigned, unsigned, List.cons_append]

theorem signedDigits_append {text : Bytes} (solid : text.dropWhile isSpace ≠ []) (more : Bytes) :
    signedDigits (text ++ more) = ((signedDigits text).1, (signedDigits text).2 ++ more) := by
  unfold signedDigits
  rw [dropWhile_append_of_ne_nil solid, takeSign_append solid]

theorem solid_of_signedDigits {text : Bytes} (digits : (signedDigits text).2 ≠ []) :
    text.dropWhile isSpace ≠ [] := by
  intro empty
  apply digits
  unfold signedDigits
  rw [empty]
  rfl

/-- A number that ends before the text does is the same in a longer text. -/
theorem strtol_append {text : Bytes} (left : strtolRest text ≠ []) (more : Bytes) :
    strtol (text ++ more) = strtol text := by
  have solid : text.dropWhile isSpace ≠ [] := by
    apply solid_of_signedDigits
    intro empty
    apply left
    unfold strtolRest
    rw [empty]
    rfl
  unfold strtolRest at left
  unfold strtol
  rw [signedDigits_append solid]
  dsimp only
  rw [takeWhile_append_of_dropWhile_ne_nil left]

theorem atoi_append {text : Bytes} (left : strtolRest text ≠ []) (more : Bytes) :
    atoi (text ++ more) = atoi text := by
  unfold atoi
  rw [strtol_append left]

/-- A blank and a letter behind a text add nothing to its number. -/
theorem strtol_append_word {byte : UInt8} (letter : isSpace byte = false ∧ isDigit byte = false ∧
    byte ≠ 45 ∧ byte ≠ 43) (text rest : Bytes) : strtol (text ++ 32 :: byte :: rest) = strtol text := by
  obtain ⟨space, digit, minus, plus⟩ := letter
  by_cases solid : text.dropWhile isSpace = []
  · have skipped : (text ++ 32 :: byte :: rest).dropWhile isSpace = byte :: rest := by
      rw [List.dropWhile_append, if_pos (by simpa using solid), List.dropWhile_cons_of_pos (by decide),
        List.dropWhile_cons_of_neg (by simp [space])]
    have unsigned : takeSign (byte :: rest) = (false, byte :: rest) := by
      simp [takeSign, minus, plus]
    unfold strtol signedDigits
    rw [skipped, solid, unsigned, List.takeWhile_cons_of_neg (by simp [digit])]
    rfl
  · have digits : ((signedDigits text).2 ++ 32 :: byte :: rest).takeWhile isDigit =
        (signedDigits text).2.takeWhile isDigit := by
      rw [List.takeWhile_append]
      split
      · rename_i whole
        rw [List.takeWhile_cons_of_neg (by decide), List.append_nil]
        exact ((List.takeWhile_prefix _).eq_of_length whole).symm
      · rfl
    unfold strtol
    rw [signedDigits_append solid]
    dsimp only
    rw [digits]

/-! ### Decimal digits -/

/-- The bytes of ASCII characters. -/
def bytesOf (characters : List Char) : Bytes :=
  characters.map fun character => UInt8.ofNat character.toNat

theorem digit_range {character : Char} (digit : character.isDigit) :
    48 ≤ character.toNat ∧ character.toNat ≤ 57 := by
  simpa [Char.isDigit, UInt32.le_iff_toNat_le] using digit

theorem toNat_ofNat_digit {character : Char} (digit : character.isDigit) :
    (UInt8.ofNat character.toNat).toNat = character.toNat := by
  have range := digit_range digit
  rw [UInt8.toNat_ofNat']
  omega

theorem isDigit_ofNat {character : Char} (digit : character.isDigit) :
    isDigit (UInt8.ofNat character.toNat) = true := by
  have range := digit_range digit
  have value := toNat_ofNat_digit digit
  unfold isDigit
  rw [decide_eq_true_iff]
  constructor
  · rw [UInt8.le_iff_toNat_le, value]
    exact range.1
  · rw [UInt8.le_iff_toNat_le, value]
    exact range.2

theorem digitsValue_bytesOf {characters : List Char}
    (digits : ∀ character ∈ characters, character.isDigit) (value : Nat) :
    digitsValue value (bytesOf characters) = Nat.ofDigitChars 10 characters value := by
  induction characters generalizing value with
  | nil => rfl
  | cons character characters inductionHypothesis =>
      have first := digits character List.mem_cons_self
      have later := inductionHypothesis fun other member => digits other (List.mem_cons_of_mem _ member)
      show digitsValue (value * 10 + ((UInt8.ofNat character.toNat).toNat - 48))
        (bytesOf characters) = _
      rw [later, Nat.ofDigitChars_cons, toNat_ofNat_digit first, Nat.mul_comm]
      rfl

theorem digits_toDigits (value : Nat) :
    ∀ character ∈ Nat.toDigits 10 value, character.isDigit :=
  fun _ member => Nat.isDigit_of_mem_toDigits (by decide) (by decide) member

theorem forall_isDigit_bytesOf (value : Nat) :
    ∀ byte ∈ bytesOf (Nat.toDigits 10 value), isDigit byte = true := by
  intro byte member
  obtain ⟨character, inside, same⟩ := List.mem_map.mp member
  rw [← same]
  exact isDigit_ofNat (digits_toDigits value character inside)

theorem bytesOf_toDigits_ne_nil (value : Nat) : bytesOf (Nat.toDigits 10 value) ≠ [] := by
  intro empty
  exact Nat.toDigits_ne_nil (List.map_eq_nil_iff.mp empty)

theorem digitsValue_toDigits (value : Nat) :
    digitsValue 0 (bytesOf (Nat.toDigits 10 value)) = value := by
  rw [digitsValue_bytesOf (digits_toDigits value), Nat.ofDigitChars_ten_toDigits]

/-- Digits are cut off where a text goes on with something else. -/
theorem takeWhile_digits {digits rest : Bytes} (isDigits : ∀ byte ∈ digits, isDigit byte = true)
    (stops : ∀ byte, rest.head? = some byte → isDigit byte = false) :
    (digits ++ rest).takeWhile isDigit = digits := by
  rw [List.takeWhile_append_of_pos isDigits]
  cases rest with
  | nil => simp
  | cons byte rest =>
      rw [List.takeWhile_cons_of_neg (by simp [stops byte rfl]), List.append_nil]

theorem dropWhile_digits {digits rest : Bytes} (isDigits : ∀ byte ∈ digits, isDigit byte = true)
    (stops : ∀ byte, rest.head? = some byte → isDigit byte = false) :
    (digits ++ rest).dropWhile isDigit = rest := by
  rw [List.dropWhile_append_of_pos isDigits]
  cases rest with
  | nil => rfl
  | cons byte rest => rw [List.dropWhile_cons_of_neg (by simp [stops byte rfl])]

theorem isDigit_range {byte : UInt8} (digit : isDigit byte = true) :
    48 ≤ byte.toNat ∧ byte.toNat ≤ 57 := by
  simpa [isDigit, UInt8.le_iff_toNat_le] using digit

/-- A digit is neither a space nor a sign. -/
theorem signedDigits_digit {digit : UInt8} (isDigit' : isDigit digit = true) (rest : Bytes) :
    signedDigits (digit :: rest) = (false, digit :: rest) := by
  have range := isDigit_range isDigit'
  have notSpace : isSpace digit = false := by
    unfold isSpace
    rw [decide_eq_false_iff_not, UInt8.le_iff_toNat_le, UInt8.le_iff_toNat_le]
    rintro (blank | ⟨-, below⟩)
    · rw [blank] at range
      exact absurd range.1 (by decide)
    · change digit.toNat ≤ 13 at below
      omega
  have minus : digit ≠ 45 := by
    intro same
    rw [same] at range
    exact absurd range.1 (by decide)
  have plus : digit ≠ 43 := by
    intro same
    rw [same] at range
    exact absurd range.1 (by decide)
  unfold signedDigits
  rw [List.dropWhile_cons_of_neg (by simp [notSpace])]
  simp [takeSign, minus, plus]

theorem signedDigits_digits {digits rest : Bytes} (nonempty : digits ≠ [])
    (isDigits : ∀ byte ∈ digits, isDigit byte = true) :
    signedDigits (digits ++ rest) = (false, digits ++ rest) := by
  obtain ⟨digit, others, shape⟩ := List.exists_cons_of_ne_nil nonempty
  have first := isDigits digit (by simp [shape])
  rw [shape, List.cons_append, signedDigits_digit first]

theorem clamp_of_le {negative : Bool} {value : Nat} (small : value ≤ longMax) :
    clamp negative value = if negative then -(value : Int) else value := by
  unfold clamp
  rw [Nat.min_eq_left small, Nat.min_eq_left (by omega)]

/-- `strtol` reads a printed number back. -/
theorem strtol_toDigits {value : Nat} (small : value ≤ longMax) {rest : Bytes}
    (stops : ∀ byte, rest.head? = some byte → isDigit byte = false) :
    strtol (bytesOf (Nat.toDigits 10 value) ++ rest) = value := by
  have digits := forall_isDigit_bytesOf value
  unfold strtol
  rw [signedDigits_digits (bytesOf_toDigits_ne_nil value) digits]
  dsimp only
  rw [takeWhile_digits digits stops, digitsValue_toDigits, clamp_of_le small, if_neg (by simp)]

/-- `strtol` reads a printed negative number back. -/
theorem strtol_minus_toDigits {value : Nat} (small : value ≤ longMax) {rest : Bytes}
    (stops : ∀ byte, rest.head? = some byte → isDigit byte = false) :
    strtol (45 :: (bytesOf (Nat.toDigits 10 value) ++ rest)) = -(value : Int) := by
  have sign : signedDigits (45 :: (bytesOf (Nat.toDigits 10 value) ++ rest)) =
      (true, bytesOf (Nat.toDigits 10 value) ++ rest) := by
    unfold signedDigits
    rw [List.dropWhile_cons_of_neg (by decide)]
    rfl
  unfold strtol
  rw [sign]
  dsimp only
  rw [takeWhile_digits (forall_isDigit_bytesOf value) stops, digitsValue_toDigits,
    clamp_of_le small, if_pos rfl]

/-! ### Numbers that fill their text -/

theorem digitsValue_append (value : Nat) (first second : Bytes) :
    digitsValue value (first ++ second) = digitsValue (digitsValue value first) second := by
  induction first generalizing value with
  | nil => rfl
  | cons digit first inductionHypothesis => exact inductionHypothesis _

theorem le_digitsValue {value least : Nat} (le : least ≤ value) (digits : Bytes) :
    digitsValue least digits ≤ digitsValue value digits ∧ least ≤ digitsValue value digits := by
  induction digits generalizing value least with
  | nil => exact ⟨le, le⟩
  | cons digit digits inductionHypothesis =>
      have shifted : least * 10 + (digit.toNat - 48) ≤ value * 10 + (digit.toNat - 48) := by omega
      have bounds := inductionHypothesis shifted
      refine ⟨bounds.1, ?_⟩
      show least ≤ digitsValue (value * 10 + (digit.toNat - 48)) digits
      have below := bounds.2
      omega

/-- Spaces, a sign and digits that fill a text go on with the digits that
follow. -/
theorem signedDigits_append_digit {digit : UInt8} (isDigit' : isDigit digit = true)
    (text more : Bytes) : signedDigits (text ++ digit :: more) =
      ((signedDigits text).1, (signedDigits text).2 ++ digit :: more) := by
  by_cases solid : text.dropWhile isSpace = []
  · have blank : signedDigits text = (false, []) := by
      unfold signedDigits
      rw [solid]
      rfl
    have skip : (text ++ digit :: more).dropWhile isSpace = (digit :: more).dropWhile isSpace :=
      List.dropWhile_append_of_pos (List.dropWhile_eq_nil_iff.mp solid)
    have first := signedDigits_digit isDigit' more
    rw [blank, List.nil_append, ← first]
    unfold signedDigits
    rw [skip]
  · exact signedDigits_append solid _

theorem strtol_of_filled {text : Bytes} (filled : strtolRest text = []) :
    strtol text = clamp (signedDigits text).1 (digitsValue 0 (signedDigits text).2) := by
  unfold strtol
  rw [List.takeWhile_eq_self_iff.mpr (List.dropWhile_eq_nil_iff.mp filled)]

/-- More digits behind a number that fills its text. -/
theorem strtol_append_digits {text : Bytes} (filled : strtolRest text = []) {digits : Bytes}
    (nonempty : digits ≠ []) (isDigits : ∀ byte ∈ digits, isDigit byte = true) (rest : Bytes)
    (stops : ∀ byte, rest.head? = some byte → isDigit byte = false) :
    strtol (text ++ (digits ++ rest)) =
      clamp (signedDigits text).1 (digitsValue (digitsValue 0 (signedDigits text).2) digits) := by
  obtain ⟨digit, others, shape⟩ := List.exists_cons_of_ne_nil nonempty
  have first := isDigits digit (by simp [shape])
  have split : signedDigits (text ++ (digits ++ rest)) =
      ((signedDigits text).1, (signedDigits text).2 ++ (digits ++ rest)) := by
    rw [shape, List.cons_append]
    exact signedDigits_append_digit first text (others ++ rest)
  have all : ∀ byte ∈ (signedDigits text).2 ++ digits, isDigit byte = true := by
    intro byte member
    rcases List.mem_append.mp member with old | new
    · exact List.dropWhile_eq_nil_iff.mp filled byte old
    · exact isDigits byte new
  unfold strtol
  rw [split]
  dsimp only
  rw [← List.append_assoc, takeWhile_digits all stops, digitsValue_append]

end MiniMs.Library.Number
