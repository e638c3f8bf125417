import MiniMs.Library.Json
import MiniMs.Library.RawString

/-!
`json.loads` of UTF-8 bytes, as Python's scanner reads them.

Owns: strict UTF-8 decoding, the scanner of strings, numbers, arrays and
objects, with its errors, the rule that the last of several equal keys counts,
and how the scanner reads an object text that is known member by member.

What `float()` makes of the text of a number is a parameter.
-/

namespace MiniMs.Library.Json

open MiniMs.Library.Text

/-! ### UTF-8 -/

/-- `bytes.decode()`; `none` is `UnicodeDecodeError`. -/
def decode (bytes : Bytes) : Option PyStr :=
  bytes.toByteArray.utf8Decode?.map fun characters => characters.toList.map ofChar

theorem ofChar_of_toChar? {point : CodePoint} {character : Char}
    (scalar : toChar? point = some character) : ofChar character = point :=
  Fin.ext (toChar?_eq_some scalar)

theorem map_ofChar_of_scalars {text : PyStr} {characters : List Char}
    (scalars : text.mapM toChar? = some characters) : characters.map ofChar = text := by
  induction text generalizing characters with
  | nil =>
      obtain rfl : [] = characters := by simpa using scalars
      rfl
  | cons point text inductionHypothesis =>
      cases head : toChar? point with
      | none => simp [List.mapM_cons, head] at scalars
      | some character =>
          cases tail : text.mapM toChar? with
          | none => simp [List.mapM_cons, head, tail] at scalars
          | some rest =>
              obtain rfl : character :: rest = characters := by
                simpa [List.mapM_cons, head, tail] using scalars
              rw [List.map_cons, ofChar_of_toChar? head, inductionHypothesis tail]

/-- Decoding undoes encoding. -/
theorem decode_of_encode {text : PyStr} {bytes : Bytes} (encoded : encode text = some bytes) :
    decode bytes = some text := by
  unfold encode at encoded
  cases scalars : text.mapM toChar? with
  | none => simp [scalars] at encoded
  | some characters =>
      have shape : bytes = characters.flatMap String.utf8EncodeChar := by
        simpa [scalars] using encoded.symm
      have bytes_eq : bytes.toByteArray = characters.utf8Encode := by
        rw [shape]
        rfl
      unfold decode
      rw [bytes_eq, List.utf8Decode?_utf8Encode, Option.map_some, List.toList_toArray,
        map_ofChar_of_scalars scalars]

theorem encode_append {first second : PyStr} {left right : Bytes}
    (firstEncoded : encode first = some left) (secondEncoded : encode second = some right) :
    encode (first ++ second) = some (left ++ right) := by
  unfold encode at firstEncoded secondEncoded ⊢
  cases firstScalars : first.mapM toChar? with
  | none => simp [firstScalars] at firstEncoded
  | some leftCharacters =>
      cases secondScalars : second.mapM toChar? with
      | none => simp [secondScalars] at secondEncoded
      | some rightCharacters =>
          rw [firstScalars, Option.map_some, Option.some.injEq] at firstEncoded
          rw [secondScalars, Option.map_some, Option.some.injEq] at secondEncoded
          simp [List.mapM_append, firstScalars, secondScalars, ← firstEncoded, ← secondEncoded]

theorem toChar?_ofChar (character : Char) : toChar? (ofChar character) = some character := by
  unfold toChar? ofChar
  have valid : Nat.isValidChar character.toNat := character.valid
  rw [dif_pos valid]
  congr 1

/-- A literal is encoded as its own UTF-8 bytes. -/
theorem encode_lit (text : String) : encode (lit text) = some (ascii text) := by
  have scalars : ∀ characters : List Char,
      (characters.map ofChar).mapM toChar? = some characters := by
    intro characters
    induction characters with
    | nil => rfl
    | cons character characters inductionHypothesis =>
        simp [List.mapM_cons, toChar?_ofChar, inductionHypothesis]
  have bytes : text.toList.flatMap String.utf8EncodeChar = ascii text := by
    unfold ascii
    rw [String.toUTF8_eq_toByteArray, ← String.utf8Encode_toList]
    unfold List.utf8Encode
    rw [List.data_toByteArray, List.toList_toArray]
  unfold encode lit
  rw [scalars, Option.map_some, bytes]

/-! ### The scanner -/

/-- Text without leading whitespace. -/
def skipSpace (text : PyStr) : PyStr :=
  text.dropWhile fun point => point.val = 32 ∨ point.val = 9 ∨ point.val = 10 ∨ point.val = 13

def hexValue (point : CodePoint) : Option Nat :=
  if 48 ≤ point.val ∧ point.val ≤ 57 then some (point.val - 48)
  else if 97 ≤ point.val ∧ point.val ≤ 102 then some (point.val - 87)
  else if 65 ≤ point.val ∧ point.val ≤ 70 then some (point.val - 55)
  else none

/-- The code unit of four hexadecimal digits. -/
def codeUnit (text : PyStr) : Option (Fin 0x10000 × PyStr) :=
  match text with
  | first :: second :: third :: fourth :: rest => do
      let first ← hexValue first
      let second ← hexValue second
      let third ← hexValue third
      let fourth ← hexValue fourth
      some (Fin.ofNat _ (first * 4096 + second * 256 + third * 16 + fourth), rest)
  | _ => none

/-- The character of `\uXXXX`, with the low surrogate behind a high one. -/
def scanUnit (text : PyStr) : Option (CodePoint × PyStr) := do
  let (high, rest) ← codeUnit text
  let alone : CodePoint := ⟨high.val, by omega⟩
  if 0xd800 ≤ high.val ∧ high.val < 0xdc00 ∧ rest.take 2 = [92, 117] then
    let (low, behind) ← codeUnit (rest.drop 2)
    if 0xdc00 ≤ low.val ∧ low.val < 0xe000 then
      some (Fin.ofNat _ (0x10000 + (high.val - 0xd800) * 0x400 + (low.val - 0xdc00)), behind)
    else some (alone, rest)
  else some (alone, rest)

/-- The character of an escape, behind its backslash. -/
def scanEscape (text : PyStr) : Option (CodePoint × PyStr) :=
  match text with
  | [] => none
  | point :: rest =>
      if point.val = 34 then some (34, rest)
      else if point.val = 92 then some (92, rest)
      else if point.val = 47 then some (47, rest)
      else if point.val = 98 then some (8, rest)
      else if point.val = 102 then some (12, rest)
      else if point.val = 110 then some (10, rest)
      else if point.val = 114 then some (13, rest)
      else if point.val = 116 then some (9, rest)
      else if point.val = 117 then scanUnit rest
      else none

/-- A string behind its opening quote. The fuel bounds the number of
characters. -/
def scanString : Nat → PyStr → Option (PyStr × PyStr)
  | 0, _ => none
  | _ + 1, [] => none
  | fuel + 1, point :: rest =>
      if point.val = 34 then some ([], rest)
      else if point.val = 92 then do
        let (character, rest) ← scanEscape rest
        let (text, rest) ← scanString fuel rest
        some (character :: text, rest)
      else if point.val < 32 then none
      else do
        let (text, rest) ← scanString fuel rest
        some (point :: text, rest)

def isDigit (point : CodePoint) : Bool := 48 ≤ point.val ∧ point.val ≤ 57

/-- A fraction, with at least one digit. -/
def scanFraction (text : PyStr) : PyStr × PyStr :=
  match text with
  | point :: digit :: rest =>
      if point.val = 46 ∧ isDigit digit then
        (point :: digit :: rest.takeWhile isDigit, rest.dropWhile isDigit)
      else ([], text)
  | _ => ([], text)

/-- An exponent, with at least one digit. -/
def scanExponent (text : PyStr) : PyStr × PyStr :=
  match text with
  | letter :: sign :: digit :: rest =>
      if (letter.val = 101 ∨ letter.val = 69) ∧ isDigit sign then
        ([letter, sign] ++ (digit :: rest).takeWhile isDigit, (digit :: rest).dropWhile isDigit)
      else if (letter.val = 101 ∨ letter.val = 69) ∧ (sign.val = 43 ∨ sign.val = 45) ∧
          isDigit digit then
        (letter :: sign :: digit :: rest.takeWhile isDigit, rest.dropWhile isDigit)
      else ([], text)
  | [letter, digit] =>
      if (letter.val = 101 ∨ letter.val = 69) ∧ isDigit digit then (text, []) else ([], text)
  | _ => ([], text)

/-- The digits in front of the fraction: no zero leads others. -/
def scanInteger (text : PyStr) : Option (PyStr × PyStr) :=
  match text with
  | [] => none
  | digit :: rest =>
      if digit.val = 48 then some ([digit], rest)
      else if isDigit digit then
        some (digit :: rest.takeWhile isDigit, rest.dropWhile isDigit)
      else none

/-- The byte of a digit or a minus sign. -/
def digitByte (point : CodePoint) : Option UInt8 :=
  (ascii "-0123456789").find? fun byte => byte.toNat = point.val

/-- What `int()` makes of the text of an integer, by the text it prints as. -/
def integerNumeral (text : PyStr) : Numeral where
  text := if text = lit "-0" then ascii "0" else text.filterMap digitByte
  plain := by
    intro byte member
    have digits : ∀ byte ∈ ascii "-0123456789", byte ∈ numeralBytes := forall_mem_of_all (by decide)
    split at member
    · exact forall_mem_of_all (by decide) byte member
    · obtain ⟨point, -, found⟩ := List.mem_filterMap.mp member
      exact digits byte (List.mem_of_find?_eq_some found)

/-- A number. An integer of more than 4300 digits raises `ValueError`; `float`
stands for what `float()` makes of the text of any other number. -/
def scanNumber (float : PyStr → Numeral) (text : PyStr) : Option (Numeral × PyStr) := do
  let sign : PyStr := if text.head? = some 45 then [45] else []
  let (integer, rest) ← scanInteger (text.drop sign.length)
  let (fraction, rest) := scanFraction rest
  let (exponent, rest) := scanExponent rest
  if fraction ++ exponent = [] then
    if 4300 < integer.length then none else some (integerNumeral (sign ++ integer), rest)
  else some (float (sign ++ integer ++ fraction ++ exponent), rest)

/-- `dict[key] = value`. -/
def setItem : List (PyStr × Value) → PyStr → Value → List (PyStr × Value)
  | [], key, value => [(key, value)]
  | (other, old) :: members, key, value =>
      if other = key then (other, value) :: members
      else (other, old) :: setItem members key value

section Scanner

variable (float : PyStr → Numeral)

mutual

/-- `scan_once`. -/
def scanOnce : Nat → PyStr → Option (Value × PyStr)
  | 0, _ => none
  | _ + 1, [] => none
  | fuel + 1, point :: rest =>
      if point.val = 34 then do
        let (text, rest) ← scanString fuel rest
        some (.string text, rest)
      else if point.val = 123 then
        match skipSpace rest with
        | [] => none
        | next :: behind =>
            if next.val = 125 then some (.object [], behind)
            else scanMembers fuel (next :: behind) []
      else if point.val = 91 then
        match skipSpace rest with
        | [] => none
        | next :: behind =>
            if next.val = 93 then some (.array [], behind)
            else scanItems fuel (next :: behind) []
      else if (point :: rest).take 4 = lit "null" then some (.null, rest.drop 3)
      else if (point :: rest).take 4 = lit "true" then some (.bool true, rest.drop 3)
      else if (point :: rest).take 5 = lit "false" then some (.bool false, rest.drop 4)
      else if (point :: rest).take 3 = lit "NaN" then
        some (.number ⟨ascii "NaN", forall_mem_of_all (by decide)⟩, rest.drop 2)
      else if (point :: rest).take 8 = lit "Infinity" then
        some (.number ⟨ascii "Infinity", forall_mem_of_all (by decide)⟩, rest.drop 7)
      else if (point :: rest).take 9 = lit "-Infinity" then
        some (.number ⟨ascii "-Infinity", forall_mem_of_all (by decide)⟩, rest.drop 8)
      else do
        let (numeral, rest) ← scanNumber float (point :: rest)
        some (.number numeral, rest)

/-- The members of an object, from a key on. -/
def scanMembers : Nat → PyStr → List (PyStr × Value) → Option (Value × PyStr)
  | 0, _, _ => none
  | _ + 1, [], _ => none
  | fuel + 1, quote :: rest, members =>
      if quote.val = 34 then do
        let (key, rest) ← scanString fuel rest
        match skipSpace rest with
        | [] => none
        | colon :: rest =>
            if colon.val = 58 then do
              let (value, rest) ← scanOnce fuel (skipSpace rest)
              match skipSpace rest with
              | [] => none
              | next :: rest =>
                  if next.val = 125 then some (.object (setItem members key value), rest)
                  else if next.val = 44 then
                    scanMembers fuel (skipSpace rest) (setItem members key value)
                  else none
            else none
      else none

/-- The items of an array. -/
def scanItems : Nat → PyStr → List Value → Option (Value × PyStr)
  | 0, _, _ => none
  | fuel + 1, text, items => do
      let (item, rest) ← scanOnce fuel text
      match skipSpace rest with
      | [] => none
      | next :: rest =>
          if next.val = 93 then some (.array (items ++ [item]), rest)
          else if next.val = 44 then scanItems fuel (skipSpace rest) (items ++ [item])
          else none

end

/-- `json.loads` of a string; `none` is an exception. -/
def loads (text : PyStr) : Option Value := do
  if text.head? = some 0xfeff then none
  else
    let (value, rest) ← scanOnce float (text.length + 1) (skipSpace text)
    if skipSpace rest = [] then some value else none

/-! ### Texts known piece by piece -/

/-- Characters that a string holds unescaped. -/
def Clean (text : PyStr) : Prop := ∀ point ∈ text, 32 ≤ point.val ∧ point.val ≠ 34 ∧ point.val ≠ 92

/-- Bytes that a string holds as they are. -/
def CleanBytes (bytes : Bytes) : Prop := ∃ text, encode text = some bytes ∧ Clean text

theorem CleanBytes.append {first second : Bytes} (left : CleanBytes first)
    (right : CleanBytes second) : CleanBytes (first ++ second) := by
  obtain ⟨firstText, firstEncoded, firstClean⟩ := left
  obtain ⟨secondText, secondEncoded, secondClean⟩ := right
  refine ⟨firstText ++ secondText, encode_append firstEncoded secondEncoded, ?_⟩
  exact List.forall_mem_append.mpr ⟨firstClean, secondClean⟩

/-- A clean text has none of the bytes that its characters avoid. -/
theorem CleanBytes.notMem {bytes : Bytes} (clean : CleanBytes bytes) {byte : UInt8}
    (special : byte < 32 ∨ byte = 34 ∨ byte = 92) : byte ∉ bytes := by
  obtain ⟨text, encoded, clean⟩ := clean
  have low : byte < 128 := by
    rcases special with control | rfl | rfl
    · exact UInt8.lt_trans control (by decide)
    · decide
    · decide
  induction text generalizing bytes with
  | nil =>
      obtain rfl : [] = bytes := Option.some.inj encoded
      exact List.not_mem_nil
  | cons point text inductionHypothesis =>
      obtain ⟨character, rest, scalar, encodedRest, shape⟩ := encode_cons encoded
      have later := inductionHypothesis encodedRest
        (fun other member => clean other (List.mem_cons_of_mem _ member))
      obtain ⟨above, quote, backslash⟩ := clean point List.mem_cons_self
      rw [shape, List.mem_append, not_or]
      refine ⟨?_, later⟩
      rcases utf8EncodeChar_cases scalar with ⟨ascii, one⟩ | ⟨-, first, more, many, high⟩
      · rw [one, List.mem_singleton]
        intro same
        have value := congrArg UInt8.toNat same
        rw [UInt8.toNat_ofNat'] at value
        have number : byte.toNat = point.val := by omega
        rcases special with control | rfl | rfl
        · have below := UInt8.lt_iff_toNat_lt.mp control
          change byte.toNat < 32 at below
          omega
        · exact quote number.symm
        · exact backslash number.symm
      · rw [many]
        intro member
        exact absurd low (UInt8.not_lt.mpr (high byte member))

theorem encode_cons_ascii (point : CodePoint) (byte : UInt8) (same : point.val = byte.toNat)
    (low : byte.toNat < 128) {text : PyStr} {bytes : Bytes} (encoded : encode text = some bytes) :
    encode (point :: text) = some (byte :: bytes) := by
  obtain ⟨character, scalar⟩ : ∃ character, toChar? point = some character := by
    have valid : Nat.isValidChar point.val := Or.inl (by omega)
    exact ⟨_, dif_pos valid⟩
  have bytes_eq : String.utf8EncodeChar character = [byte] := by
    rw [utf8EncodeChar_ascii scalar (by omega), same, UInt8.ofNat_toNat]
  have one : encode [point] = some [byte] := by
    unfold encode
    simp [List.mapM_cons, scalar, bytes_eq]
  exact encode_append one encoded

/-- An ASCII byte as a character. -/
def ofByte (byte : UInt8) : CodePoint :=
  ⟨byte.toNat, toNat_lt_points byte⟩

theorem encode_map_ofByte {bytes : Bytes} (low : ∀ byte ∈ bytes, byte < 128) :
    encode (bytes.map ofByte) = some bytes := by
  induction bytes with
  | nil => rfl
  | cons byte bytes inductionHypothesis =>
      have below : byte.toNat < 128 := UInt8.lt_iff_toNat_lt.mp (low byte List.mem_cons_self)
      have later := inductionHypothesis fun other member => low other (List.mem_cons_of_mem _ member)
      exact encode_cons_ascii _ byte rfl below later

/-- Printable ASCII without quote and backslash. -/
theorem cleanBytes_of_ascii {bytes : Bytes}
    (plain : ∀ byte ∈ bytes, 32 ≤ byte ∧ byte < 128 ∧ byte ≠ 34 ∧ byte ≠ 92) :
    CleanBytes bytes := by
  refine ⟨bytes.map ofByte, encode_map_ofByte fun byte member => (plain byte member).2.1, ?_⟩
  intro point member
  obtain ⟨byte, inside, same⟩ := List.mem_map.mp member
  obtain ⟨low, -, quote, backslash⟩ := plain byte inside
  rw [← same]
  refine ⟨UInt8.le_iff_toNat_le.mp low, ?_, ?_⟩
  · exact fun equal => quote (UInt8.toNat_inj.mp equal)
  · exact fun equal => backslash (UInt8.toNat_inj.mp equal)

theorem scanString_clean {text : PyStr} (clean : Clean text) (fuel : Nat)
    (enough : text.length < fuel) (rest : PyStr) :
    scanString fuel (text ++ 34 :: rest) = some (text, rest) := by
  induction text generalizing fuel with
  | nil =>
      obtain ⟨more, rfl⟩ : ∃ more, fuel = more + 1 := ⟨fuel - 1, by simp at enough; omega⟩
      have quote : (34 : CodePoint).val = 34 := rfl
      rw [List.nil_append, scanString, if_pos quote]
  | cons point text inductionHypothesis =>
      obtain ⟨more, rfl⟩ : ∃ more, fuel = more + 1 := ⟨fuel - 1, by simp at enough; omega⟩
      obtain ⟨low, quote, backslash⟩ := clean point List.mem_cons_self
      have later := inductionHypothesis
        (fun other member => clean other (List.mem_cons_of_mem _ member)) more (by simpa using enough)
      rw [List.cons_append, scanString, if_neg quote, if_neg backslash, if_neg (by omega), later]
      rfl

/-- A text that the scanner reads as a value in front of a comma or a closing
brace. -/
structure Scans (raw : PyStr) (value : Value) : Prop where
  solid : ∀ rest, skipSpace (raw ++ rest) = raw ++ rest
  scan : ∀ (fuel : Nat) (stop : CodePoint) (rest : PyStr), stop.val = 44 ∨ stop.val = 125 →
    (raw ++ stop :: rest).length < fuel →
    scanOnce float fuel (raw ++ stop :: rest) = some (value, stop :: rest)

/-- A clean string in its quotes. -/
def quotedRaw (text : PyStr) : PyStr := 34 :: (text ++ [34])

theorem scans_quotedRaw {text : PyStr} (clean : Clean text) :
    Scans float (quotedRaw text) (.string text) where
  solid := fun _ => rfl
  scan := by
    intro fuel stop rest _ enough
    obtain ⟨more, rfl⟩ : ∃ more, fuel = more + 1 := ⟨fuel - 1, by omega⟩
    have shape : quotedRaw text ++ stop :: rest = 34 :: (text ++ 34 :: stop :: rest) := by
      simp [quotedRaw]
    rw [shape] at enough ⊢
    have read := scanString_clean clean more (by simp at enough; omega) (stop :: rest)
    have quote : (34 : CodePoint).val = 34 := rfl
    rw [scanOnce, if_pos quote, read]
    rfl

theorem scans_emptyObject : Scans float (lit "\x7b\x7d") (.object []) where
  solid := fun _ => rfl
  scan := by
    intro fuel stop rest _ enough
    obtain ⟨more, rfl⟩ : ∃ more, fuel = more + 1 := ⟨fuel - 1, by omega⟩
    rfl

/-- A text that starts with a digit does not start with a word. -/
theorem take_ne_word {point : CodePoint} (digit : isDigit point = true) {count : Nat}
    (positive : 0 < count) {word : PyStr} (letter : word.head?.any isDigit = false)
    (rest : PyStr) : (point :: rest).take count ≠ word := by
  obtain ⟨more, rfl⟩ : ∃ more, count = more + 1 := ⟨count - 1, by omega⟩
  intro same
  rw [← same, List.take_succ_cons, List.head?_cons, Option.any_some, digit] at letter
  contradiction

theorem scanOnce_digit {point : CodePoint} (digit : isDigit point = true) (fuel : Nat)
    (rest : PyStr) :
    scanOnce float (fuel + 1) (point :: rest) =
      (scanNumber float (point :: rest)).map fun read => (.number read.1, read.2) := by
  have low : 48 ≤ point.val ∧ point.val ≤ 57 := of_decide_eq_true digit
  have word : ∀ (count : Nat) (text : PyStr), 0 < count → text.head?.any isDigit = false →
      (point :: rest).take count ≠ text :=
    fun count text positive letter => take_ne_word digit positive letter rest
  rw [scanOnce, if_neg (by omega), if_neg (by omega), if_neg (by omega),
    if_neg (word 4 (lit "null") (by decide) (by decide)),
    if_neg (word 4 (lit "true") (by decide) (by decide)),
    if_neg (word 5 (lit "false") (by decide) (by decide)),
    if_neg (word 3 (lit "NaN") (by decide) (by decide)),
    if_neg (word 8 (lit "Infinity") (by decide) (by decide)),
    if_neg (word 9 (lit "-Infinity") (by decide) (by decide))]
  cases scanNumber float (point :: rest) with
  | none => rfl
  | some read => rfl

/-- No fraction starts at a comma or a closing brace. -/
theorem scanFraction_stop {stop : CodePoint} (ends : stop.val = 44 ∨ stop.val = 125)
    (rest : PyStr) : scanFraction (stop :: rest) = ([], stop :: rest) := by
  unfold scanFraction
  cases rest with
  | nil => rfl
  | cons digit rest => exact if_neg (fun both => by omega)

theorem scanExponent_stop {stop : CodePoint} (ends : stop.val = 44 ∨ stop.val = 125)
    (rest : PyStr) : scanExponent (stop :: rest) = ([], stop :: rest) := by
  unfold scanExponent
  rcases rest with _ | ⟨sign, _ | ⟨digit, rest⟩⟩
  · rfl
  · exact if_neg (fun both => by omega)
  · dsimp only
    rw [if_neg (fun both => by omega), if_neg (fun both => by omega)]

theorem scans_zero : Scans float (lit "0") (.number (integerNumeral (lit "0"))) where
  solid := fun _ => rfl
  scan := by
    intro fuel stop rest ends enough
    obtain ⟨more, rfl⟩ : ∃ more, fuel = more + 1 := ⟨fuel - 1, by omega⟩
    have fraction := scanFraction_stop ends rest
    have exponent := scanExponent_stop ends rest
    have zero : lit "0" ++ stop :: rest = 48 :: stop :: rest := rfl
    rw [zero, scanOnce_digit float rfl]
    have integer : scanInteger (48 :: stop :: rest) = some ([48], stop :: rest) := rfl
    unfold scanNumber
    have sign : ((48 : CodePoint) :: stop :: rest).head? ≠ some 45 := by
      rw [List.head?_cons]
      decide
    dsimp only
    rw [if_neg sign, List.length_nil, List.drop_zero, integer]
    simp only [Option.bind_eq_bind, Option.bind_some, fraction, exponent]
    rfl

/-! ### Objects known member by member -/

/-- A member of an object text, with the value that its text is read as. -/
structure Member where
  key : PyStr
  raw : PyStr
  value : Value
  clean : Clean key
  scans : Scans float raw value

variable {float}

/-- The text of a member, up to the comma or the closing brace. -/
def Member.text (member : Member float) : PyStr :=
  34 :: (member.key ++ 34 :: 58 :: 32 :: member.raw)

/-- The text behind the opening brace. -/
def membersText : Member float → List (Member float) → PyStr
  | member, [] => member.text ++ [125]
  | member, next :: members => member.text ++ 44 :: 32 :: membersText next members

def objectText (member : Member float) (members : List (Member float)) : PyStr :=
  123 :: membersText member members

/-- The object that several members make. -/
def setItems (members : List (PyStr × Value)) (added : List (Member float)) :
    List (PyStr × Value) :=
  added.foldl (fun members member => setItem members member.key member.value) members

theorem skipSpace_cons {point : CodePoint}
    (solid : ¬ (point.val = 32 ∨ point.val = 9 ∨ point.val = 10 ∨ point.val = 13)) (rest : PyStr) :
    skipSpace (point :: rest) = point :: rest := by
  unfold skipSpace
  rw [List.dropWhile_cons_of_neg (by simpa using solid)]

theorem skipSpace_blank (rest : PyStr) : skipSpace (32 :: rest) = skipSpace rest := by
  unfold skipSpace
  rw [List.dropWhile_cons_of_pos (by decide)]

/-- One member is read, and then the closing brace or the next member. -/
theorem scanMembers_member (member : Member float) {fuel : Nat} {stop : CodePoint}
    (ends : stop.val = 44 ∨ stop.val = 125) {rest : PyStr}
    (enough : (member.text ++ stop :: rest).length ≤ fuel) (members : List (PyStr × Value)) :
    scanMembers float (fuel + 1) (member.text ++ stop :: rest) members =
      if stop.val = 125 then some (.object (setItem members member.key member.value), rest)
      else scanMembers float fuel (skipSpace rest) (setItem members member.key member.value) := by
  have shape : member.text ++ stop :: rest =
      34 :: (member.key ++ 34 :: 58 :: 32 :: (member.raw ++ stop :: rest)) := by
    simp [Member.text]
  rw [shape] at enough ⊢
  simp only [List.length_cons, List.length_append] at enough
  have key := scanString_clean member.clean fuel (by omega)
    (58 :: 32 :: (member.raw ++ stop :: rest))
  have value := member.scans.scan fuel stop rest ends
    (by simp only [List.length_append, List.length_cons]; omega)
  have quote : (34 : CodePoint).val = 34 := rfl
  have colon : skipSpace (58 :: 32 :: (member.raw ++ stop :: rest)) =
      58 :: 32 :: (member.raw ++ stop :: rest) := skipSpace_cons (by decide) _
  have isColon : (58 : CodePoint).val = 58 := rfl
  have blank : skipSpace (32 :: (member.raw ++ stop :: rest)) = member.raw ++ stop :: rest :=
    (skipSpace_blank _).trans (member.scans.solid _)
  have stops : skipSpace (stop :: rest) = stop :: rest := skipSpace_cons (by omega) rest
  rw [scanMembers, if_pos quote, key]
  simp only [Option.bind_eq_bind, Option.bind_some, colon, if_pos isColon, blank, value, stops]
  by_cases closing : stop.val = 125
  · rw [if_pos closing, if_pos closing]
  · rw [if_neg closing, if_neg closing, if_pos (ends.resolve_right closing)]

theorem scanMembers_text (member : Member float) (members : List (Member float)) (fuel : Nat)
    (rest : PyStr) (enough : (membersText member members ++ rest).length < fuel)
    (before : List (PyStr × Value)) :
    scanMembers float fuel (membersText member members ++ rest) before =
      some (.object (setItems before (member :: members)), rest) := by
  induction members generalizing member fuel before with
  | nil =>
      obtain ⟨more, rfl⟩ : ∃ more, fuel = more + 1 := ⟨fuel - 1, by omega⟩
      have shape : membersText member [] ++ rest = member.text ++ 125 :: rest := by
        simp [membersText]
      rw [shape] at enough ⊢
      have closing : (125 : CodePoint).val = 125 := rfl
      rw [scanMembers_member member (Or.inr rfl) (by omega), if_pos closing]
      rfl
  | cons next members inductionHypothesis =>
      obtain ⟨more, rfl⟩ : ∃ more, fuel = more + 1 := ⟨fuel - 1, by omega⟩
      have shape : membersText member (next :: members) ++ rest =
          member.text ++ 44 :: 32 :: (membersText next members ++ rest) := by
        simp [membersText]
      rw [shape] at enough ⊢
      have comma : ¬ (44 : CodePoint).val = 125 := by decide
      have solid : skipSpace (32 :: (membersText next members ++ rest)) =
          membersText next members ++ rest := by
        rw [skipSpace_blank]
        cases members with
        | nil => exact skipSpace_cons (by decide) _
        | cons => exact skipSpace_cons (by decide) _
      rw [scanMembers_member member (Or.inl rfl) (by omega), if_neg comma, solid]
      apply inductionHypothesis
      simp only [List.length_append, List.length_cons] at enough ⊢
      omega

theorem scanOnce_objectText (member : Member float) (members : List (Member float)) (fuel : Nat)
    (rest : PyStr) (enough : (objectText member members ++ rest).length < fuel) :
    scanOnce float fuel (objectText member members ++ rest) =
      some (.object (setItems [] (member :: members)), rest) := by
  obtain ⟨more, rfl⟩ : ∃ more, fuel = more + 1 := ⟨fuel - 1, by omega⟩
  have first : ∃ behind, membersText member members ++ rest = 34 :: behind := by
    cases members with
    | nil => exact ⟨_, rfl⟩
    | cons => exact ⟨_, rfl⟩
  obtain ⟨behind, quote⟩ := first
  have solid : skipSpace (membersText member members ++ rest) = 34 :: behind := by
    rw [quote]
    exact skipSpace_cons (by decide) _
  have shape : objectText member members ++ rest = 123 :: (membersText member members ++ rest) := rfl
  rw [shape] at enough ⊢
  have read := scanMembers_text member members more rest (by simpa using enough) []
  have notQuote : ¬ (123 : CodePoint).val = 34 := by decide
  have brace : (123 : CodePoint).val = 123 := rfl
  have notClosing : ¬ (34 : CodePoint).val = 125 := by decide
  rw [scanOnce, if_neg notQuote, if_pos brace, solid]
  dsimp only
  rw [if_neg notClosing, ← quote, read]

/-- `json.loads` reads an object text as its members. -/
theorem loads_objectText (member : Member float) (members : List (Member float)) :
    loads float (objectText member members) =
      some (.object (setItems [] (member :: members))) := by
  have bom : (objectText member members).head? ≠ some 0xfeff := by
    unfold objectText
    rw [List.head?_cons]
    decide
  have object : skipSpace (objectText member members) = objectText member members :=
    skipSpace_cons (by decide) _
  have read := scanOnce_objectText member members ((objectText member members).length + 1) []
    (by simp)
  rw [List.append_nil] at read
  unfold loads
  rw [if_neg bom, object, read]
  rfl

/-- An object text inside another one. -/
theorem scans_objectText (member : Member float) (members : List (Member float)) :
    Scans float (objectText member members) (.object (setItems [] (member :: members))) where
  solid := fun _ => skipSpace_cons (by decide) _
  scan := fun fuel stop rest _ enough =>
    scanOnce_objectText member members fuel (stop :: rest) enough

/-! ### Look-ups -/

theorem get_setItem_self (members : List (PyStr × Value)) (key : PyStr) (value default : Value) :
    get (setItem members key value) key default = value := by
  induction members with
  | nil => simp [setItem, get]
  | cons member members inductionHypothesis =>
      obtain ⟨other, old⟩ := member
      unfold setItem
      by_cases same : other = key
      · rw [if_pos same]
        simp [get, same]
      · rw [if_neg same]
        unfold get at inductionHypothesis ⊢
        rw [List.find?_cons_of_neg (by simpa using same)]
        exact inductionHypothesis

theorem get_setItem_other {key other : PyStr} (different : other ≠ key)
    (members : List (PyStr × Value)) (value default : Value) :
    get (setItem members other value) key default = get members key default := by
  induction members with
  | nil => simp [setItem, get, different]
  | cons member members inductionHypothesis =>
      obtain ⟨first, old⟩ := member
      unfold setItem
      by_cases same : first = other
      · rw [if_pos same]
        unfold get
        rw [List.find?_cons_of_neg (by simpa [same] using different),
          List.find?_cons_of_neg (by simpa [same] using different)]
      · rw [if_neg same]
        unfold get at inductionHypothesis ⊢
        by_cases found : first = key
        · rw [List.find?_cons_of_pos (by simpa using found),
            List.find?_cons_of_pos (by simpa using found)]
        · rw [List.find?_cons_of_neg (by simpa using found),
            List.find?_cons_of_neg (by simpa using found)]
          exact inductionHypothesis

/-- Of several equal keys the last counts. -/
theorem get_setItems (before : List (PyStr × Value)) (added : List (Member float)) (key : PyStr)
    (default : Value) :
    get (setItems before added) key default =
      ((added.reverse.find? fun member => member.key = key).map Member.value).getD
        (get before key default) := by
  induction added generalizing before with
  | nil => rfl
  | cons member added inductionHypothesis =>
      show get (setItems (setItem before member.key member.value) added) key default = _
      rw [inductionHypothesis, List.reverse_cons, List.find?_append]
      cases added.reverse.find? fun member => member.key = key with
      | some found => rfl
      | none =>
          by_cases same : member.key = key
          · rw [← same, get_setItem_self]
            simp
          · rw [get_setItem_other same]
            simp [same]

end Scanner

end MiniMs.Library.Json
