import MiniMs.Library.JsonEndings

/-!
Bytes that are a JSON text for a client that decodes and loads them.

Owns: the property of the bytes, compact object texts as `printf` formats them,
the endings that such texts have behind a string, and the theorem that a string
put between quotes as it is leaves a JSON text with every such ending or with
none.
-/

namespace MiniMs.Library.Json

open MiniMs.Library.Text

/-- `json.loads(body.decode())` does not raise. -/
def IsJson (body : Bytes) : Prop :=
  ∃ text, decode body = some text ∧ ∀ float, (loads float text).isSome

/-! ### Decoding piece by piece -/

theorem mapM_toChar?_ofChar (characters : List Char) :
    (characters.map ofChar).mapM toChar? = some characters := by
  induction characters with
  | nil => rfl
  | cons character characters inductionHypothesis =>
      rw [List.map_cons, List.mapM_cons, toChar?_ofChar, inductionHypothesis]
      rfl

/-- Encoding undoes decoding. -/
theorem encode_of_decode {bytes : Bytes} {text : PyStr} (decoded : decode bytes = some text) :
    encode text = some bytes := by
  obtain ⟨characters, found, same⟩ := Option.map_eq_some_iff.mp decoded
  have valid : (bytes.toByteArray.utf8Decode?).isSome := by
    rw [found]
    rfl
  have back : characters.toList.utf8Encode = bytes.toByteArray := by
    have back := @ByteArray.utf8Encode_get_utf8Decode? bytes.toByteArray valid
    simp only [found, Option.get_some] at back
    exact back
  have shape : characters.toList.flatMap String.utf8EncodeChar = bytes := by
    have inside := congrArg (fun array => array.data.toList) back
    simpa [List.utf8Encode] using inside
  unfold encode
  rw [← same, mapM_toChar?_ofChar, Option.map_some, shape]

theorem decode_eq_some_iff {bytes : Bytes} {text : PyStr} :
    decode bytes = some text ↔ encode text = some bytes := ⟨encode_of_decode, decode_of_encode⟩

/-- An ASCII byte is a character of its own. -/
theorem encode_split {text : PyStr} {left right : Bytes} {byte : UInt8} (low : byte < 128)
    (encoded : encode text = some (left ++ byte :: right)) :
    ∃ first second, text = first ++ ofByte byte :: second ∧ encode first = some left ∧
      encode second = some right := by
  have low' : byte.toNat < 128 := UInt8.lt_iff_toNat_lt.mp low
  induction text generalizing left with
  | nil =>
      have empty : [] = left ++ byte :: right := Option.some.inj encoded
      exact absurd empty (by simp)
  | cons point text inductionHypothesis =>
      obtain ⟨character, rest, scalar, encodedRest, shape⟩ := encode_cons encoded
      rcases utf8EncodeChar_cases scalar with ⟨ascii, one⟩ | ⟨-, head, more, many, high⟩
      · rw [one] at shape
        cases left with
        | nil =>
            obtain ⟨same, rfl⟩ := List.cons.inj shape
            have value : byte.toNat = point.val := by
              rw [same, UInt8.toNat_ofNat']
              omega
            exact ⟨[], text, congrArg (· :: text) (Fin.ext value.symm), rfl, encodedRest⟩
        | cons next left =>
            obtain ⟨same, rfl⟩ := List.cons.inj shape
            obtain ⟨first, second, rfl, encodedFirst, encodedSecond⟩ := inductionHypothesis encodedRest
            have value : point.val = next.toNat := by
              rw [same, UInt8.toNat_ofNat']
              omega
            exact ⟨point :: first, second, rfl,
              encode_cons_ascii point next value (by omega) encodedFirst, encodedSecond⟩
      · -- No byte of the character is `byte`, so all of them stand in `left`.
        have split : ∃ tail, left = String.utf8EncodeChar character ++ tail ∧
            rest = tail ++ byte :: right := by
          rcases List.append_eq_append_iff.mp shape with
            ⟨tail, front, behind⟩ | ⟨tail, front, behind⟩
          · cases tail with
            | nil => exact ⟨[], by rw [front, List.append_nil, List.append_nil], behind.symm⟩
            | cons other tail =>
                obtain ⟨rfl, -⟩ := List.cons.inj behind
                rw [many] at front
                have inside : byte ∈ head :: more := by
                  rw [front]
                  exact List.mem_append_right _ List.mem_cons_self
                exact absurd low (UInt8.not_lt.mpr (high byte inside))
          · exact ⟨tail, front, behind⟩
        obtain ⟨tail, front, behind⟩ := split
        rw [behind] at encodedRest
        obtain ⟨first, second, rfl, encodedFirst, encodedSecond⟩ := inductionHypothesis encodedRest
        refine ⟨point :: first, second, rfl, ?_, encodedSecond⟩
        have alone : encode [point] = some (String.utf8EncodeChar character) := by
          unfold encode
          simp [List.mapM_cons, scalar]
        rw [front]
        exact encode_append alone encodedFirst

/-- No character's bytes are the front of another's. -/
theorem utf8EncodeChar_front {first second : Char} {left right : Bytes}
    (same : String.utf8EncodeChar first ++ left = String.utf8EncodeChar second ++ right) :
    first = second ∧ left = right := by
  have arrays := congrArg List.toByteArray same
  have decoded := fun (character : Char) (behind : Bytes) =>
    @ByteArray.utf8DecodeChar?_utf8EncodeChar_append behind.toByteArray character
  have split : ∀ (character : Char) (behind : Bytes),
      (String.utf8EncodeChar character ++ behind).toByteArray.utf8DecodeChar? 0 = some character := by
    intro character behind
    rw [List.toByteArray_append]
    exact decoded character behind
  have one : some first = some second := by
    rw [← split first left, ← split second right, same]
  obtain rfl := Option.some.inj one
  exact ⟨rfl, List.append_cancel_left same⟩

/-- A text whose bytes are in front of another's is itself in front of it. -/
theorem encode_front {head text : PyStr} {left right : Bytes} (front : encode head = some left)
    (whole : encode text = some (left ++ right)) :
    ∃ tail, text = head ++ tail ∧ encode tail = some right := by
  induction head generalizing text left with
  | nil =>
      obtain rfl : [] = left := Option.some.inj front
      exact ⟨text, rfl, whole⟩
  | cons point head inductionHypothesis =>
      obtain ⟨character, behind, scalar, encoded, rfl⟩ := encode_cons front
      cases text with
      | nil =>
          have empty : [] = String.utf8EncodeChar character ++ behind ++ right :=
            Option.some.inj whole
          have lengths := congrArg List.length empty
          have positive := Char.utf8Size_pos character
          simp only [List.length_nil, List.length_append, String.length_utf8EncodeChar] at lengths
          omega
      | cons other text =>
          obtain ⟨character', behind', scalar', encoded', shape⟩ := encode_cons whole
          rw [List.append_assoc] at shape
          obtain ⟨rfl, rfl⟩ := utf8EncodeChar_front shape
          obtain ⟨tail, rfl, last⟩ := inductionHypothesis encoded encoded'
          refine ⟨tail, ?_, last⟩
          rw [List.cons_append, ← ofChar_of_toChar? scalar, ← ofChar_of_toChar? scalar']

/-- ASCII bytes in front of others. -/
theorem encode_ascii_front {front rest : Bytes} (low : ∀ byte ∈ front, byte < 128) {text : PyStr}
    (encoded : encode text = some (front ++ rest)) :
    ∃ inner, text = front.map ofByte ++ inner ∧ encode inner = some rest := by
  induction front generalizing text with
  | nil => exact ⟨text, rfl, encoded⟩
  | cons byte front inductionHypothesis =>
      obtain ⟨first, second, rfl, nothing, encoded⟩ :=
        @encode_split text [] (front ++ rest) byte (low byte List.mem_cons_self) encoded
      obtain ⟨inner, rfl, encodedInner⟩ := inductionHypothesis
        (fun other member => low other (List.mem_cons_of_mem _ member)) encoded
      have empty : first = [] := by
        have decoded := decode_of_encode nothing
        exact Option.some.inj (decoded.symm.trans (decode_of_encode rfl))
      exact ⟨inner, by rw [empty, List.nil_append, List.map_cons, List.cons_append], encodedInner⟩

theorem decode_ascii {bytes : Bytes} (low : ∀ byte ∈ bytes, byte < 128) :
    decode bytes = some (bytes.map ofByte) := decode_of_encode (encode_map_ofByte low)

/-- Bytes between ASCII texts, the second of which starts with a quotation mark. -/
theorem decode_between {front inner back : Bytes} (frontLow : ∀ byte ∈ front, byte < 128)
    (backLow : ∀ byte ∈ back, byte < 128) (text : PyStr) :
    decode (front ++ (inner ++ 34 :: back)) = some text ↔
      ∃ middle, decode inner = some middle ∧
        text = front.map ofByte ++ (middle ++ 34 :: back.map ofByte) := by
  have quote : ofByte 34 = 34 := rfl
  constructor
  · intro decoded
    obtain ⟨tail, rfl, encoded⟩ := encode_ascii_front frontLow (encode_of_decode decoded)
    obtain ⟨middle, last, rfl, encodedMiddle, encodedLast⟩ := encode_split (by decide) encoded
    have known := Option.some.inj ((decode_of_encode encodedLast).symm.trans (decode_ascii backLow))
    exact ⟨middle, decode_of_encode encodedMiddle, by rw [known, quote]⟩
  · rintro ⟨middle, decoded, rfl⟩
    apply decode_of_encode
    apply encode_append (encode_map_ofByte frontLow)
    apply encode_append (encode_of_decode decoded)
    exact encode_cons_ascii 34 34 rfl (by decide) (encode_map_ofByte backLow)

/-! ### Words and negative numbers -/

section Leaves

variable (float : PyStr → Numeral)

theorem scans_true : Scans float (lit "true") (.bool true) where
  solid := fun _ => rfl
  scan := by
    intro fuel stop rest _ enough
    obtain ⟨more, rfl⟩ : ∃ more, fuel = more + 1 := ⟨fuel - 1, by omega⟩
    rfl

theorem scans_false : Scans float (lit "false") (.bool false) where
  solid := fun _ => rfl
  scan := by
    intro fuel stop rest _ enough
    obtain ⟨more, rfl⟩ : ∃ more, fuel = more + 1 := ⟨fuel - 1, by omega⟩
    rfl

/-- The text of a negative number. -/
theorem scans_negative {text : PyStr} (integer : IntegerText text) :
    Scans float (45 :: text) (.number (integerNumeral (45 :: text))) where
  solid := fun _ => rfl
  scan := by
    intro fuel stop rest ends enough
    obtain ⟨more, rfl⟩ : ∃ more, fuel = more + 1 := ⟨fuel - 1, by omega⟩
    have fraction := scanFraction_stop ends rest
    have exponent := scanExponent_stop ends rest
    have read := scanInteger_digits integer ends rest
    have short := integer.short
    have nonempty := integer.nonempty
    have infinity : (45 :: (text ++ stop :: rest)).take 9 ≠ lit "-Infinity" := by
      cases text with
      | nil => exact absurd rfl nonempty
      | cons digit text =>
          intro same
          have first := integer.digits digit List.mem_cons_self
          have second : digit = 73 := (List.cons.inj (List.cons.inj same).2).1
          rw [second] at first
          contradiction
    have word : ∀ (count : Nat) (word : PyStr), 0 < count → word.head? ≠ some 45 →
        (45 :: (text ++ stop :: rest)).take count ≠ word := by
      intro count word positive foreign same
      obtain ⟨less, rfl⟩ : ∃ less, count = less + 1 := ⟨count - 1, by omega⟩
      exact foreign (by rw [← same, List.take_succ_cons, List.head?_cons])
    rw [List.cons_append, scanOnce, if_neg (by decide), if_neg (by decide), if_neg (by decide),
      if_neg (word 4 (lit "null") (by decide) (by decide)),
      if_neg (word 4 (lit "true") (by decide) (by decide)),
      if_neg (word 5 (lit "false") (by decide) (by decide)),
      if_neg (word 3 (lit "NaN") (by decide) (by decide)),
      if_neg (word 8 (lit "Infinity") (by decide) (by decide)), if_neg infinity]
    have sign : (45 :: (text ++ stop :: rest)).head? = some 45 := rfl
    have behind : (45 :: (text ++ stop :: rest)).drop ([45] : PyStr).length = text ++ stop :: rest := rfl
    unfold scanNumber
    dsimp only
    rw [if_pos sign, behind, read]
    simp only [Option.bind_eq_bind, Option.bind_some, fraction, exponent]
    rw [List.append_nil, if_pos rfl, if_neg (by omega)]
    rfl

end Leaves

/-! ### Compact objects -/

section Compact

variable {float : PyStr → Numeral}

/-- A member without blanks. -/
def Member.compact (member : Member float) : PyStr := 34 :: (member.key ++ 34 :: 58 :: member.raw)

/-- Members without blanks, up to the closing brace. -/
def compactText : Member float → List (Member float) → PyStr
  | member, [] => member.compact ++ [125]
  | member, next :: members => member.compact ++ 44 :: compactText next members

theorem readsString_clean {text : PyStr} (clean : Clean text) (rest : PyStr) :
    ReadsString (text ++ 34 :: rest) rest :=
  ⟨text.length + 1, text, scanString_clean clean _ (Nat.lt_succ_self _) rest⟩

/-- A text that is read in front of a comma or a closing brace. -/
theorem Scans.reads {raw : PyStr} {value : Value} (scans : Scans float raw value)
    {stop : CodePoint} (ends : stop.val = 44 ∨ stop.val = 125) (rest : PyStr) :
    Reads float .value (skipSpace (raw ++ stop :: rest)) (stop :: rest) := by
  rw [scans.solid]
  exact (reads_of_scan float _).1 _ _ _ (scans.scan _ stop rest ends (Nat.lt_succ_self _))

theorem reads_compactText (member : Member float) (members : List (Member float)) (rest : PyStr) :
    Reads float .members (compactText member members ++ rest) rest := by
  have colon : ∀ more, skipSpace (58 :: more) = 58 :: more := fun more => skipSpace_cons (by decide) _
  induction members generalizing member with
  | nil =>
      have shape : compactText member [] ++ rest =
          34 :: (member.key ++ 34 :: (58 :: (member.raw ++ 125 :: rest))) := by
        simp [compactText, Member.compact]
      have brace : skipSpace (125 :: rest) = 125 :: rest := skipSpace_cons (by decide) _
      rw [shape]
      refine .member (readsString_clean member.clean _) (colon _)
        (member.scans.reads (Or.inr rfl) rest) ?_
      rw [brace]
      exact .lastMember
  | cons next members inductionHypothesis =>
      have shape : compactText member (next :: members) ++ rest =
          34 :: (member.key ++ 34 :: (58 :: (member.raw ++ 44 :: (compactText next members ++ rest)))) := by
        simp [compactText, Member.compact]
      have comma : ∀ more, skipSpace (44 :: more) = 44 :: more := fun more => skipSpace_cons (by decide) _
      have solid : skipSpace (compactText next members ++ rest) = compactText next members ++ rest := by
        cases members with
        | nil => exact skipSpace_cons (by decide) _
        | cons => exact skipSpace_cons (by decide) _
      rw [shape]
      refine .member (readsString_clean member.clean _) (colon _)
        (member.scans.reads (Or.inl rfl) _) ?_
      rw [comma]
      apply Reads.nextMember
      rw [solid]
      exact inductionHypothesis next

theorem loads_compactText (member : Member float) (members : List (Member float)) :
    (loads float (123 :: compactText member members)).isSome := by
  have solid : skipSpace (123 :: compactText member members) = 123 :: compactText member members :=
    skipSpace_cons (by decide) _
  have inner : skipSpace (compactText member members) = compactText member members := by
    cases members with
    | nil => exact skipSpace_cons (by decide) _
    | cons => exact skipSpace_cons (by decide) _
  have reads := reads_compactText member members []
  rw [List.append_nil] at reads
  rw [loads_isSome_iff, solid]
  refine ⟨by simp, [], .object ?_, rfl⟩
  rw [inner]
  exact reads

/-! ### Endings -/

variable (float) in
/-- The closing brace. -/
theorem closing_brace : Closing float [125] := by
  have solid : skipSpace [125] = [125] := rfl
  refine ⟨fun rest => ?_, fun rest reads => ?_, fun rest same => ?_, fun rest reads => ?_⟩
  · rw [solid]
    constructor
    · intro reads
      exact (reads.unique .lastMember)
    · rintro rfl
      exact .lastMember
  · rw [solid] at reads
    cases reads
  · rw [solid] at same
    exact absurd (List.cons.inj same).1 (by decide)
  · obtain ⟨_, scan⟩ := reads.scan.2 1 (by simp)
    contradiction

/-- More members, the first key of which starts with a letter. -/
theorem closing_members (member : Member float) (members : List (Member float))
    (letter : ∀ more, Stuck (member.key ++ more)) :
    Closing float (44 :: compactText member members) := by
  have comma : ∀ more, skipSpace (44 :: more) = 44 :: more := fun more => skipSpace_cons (by decide) _
  have shape : ∃ behind, compactText member members = 34 :: (member.key ++ 34 :: 58 :: behind) := by
    cases members with
    | nil => exact ⟨member.raw ++ [125], by simp [compactText, Member.compact]⟩
    | cons next members =>
        exact ⟨member.raw ++ 44 :: compactText next members, by simp [compactText, Member.compact]⟩
  obtain ⟨behind, shape⟩ := shape
  have inner : skipSpace (compactText member members) = compactText member members := by
    rw [shape]
    exact skipSpace_cons (by decide) _
  have reads : Reads float .afterMember (44 :: compactText member members) [] := by
    have reads := reads_compactText member members []
    rw [List.append_nil, ← inner] at reads
    exact .nextMember reads
  refine ⟨fun rest => ?_, fun rest reads' => ?_, fun rest same => ?_, fun rest reads' => ?_⟩
  · rw [comma]
    constructor
    · exact fun reads' => reads'.unique reads
    · rintro rfl
      exact reads
  · -- The key would be an item, and a colon follows it.
    rw [comma] at reads'
    cases reads' with
    | nextItem items =>
        rw [inner, shape] at items
        cases items with
        | @item _ after _ value later =>
            have key : Reads float .value (34 :: (member.key ++ 34 :: 58 :: behind)) (58 :: behind) :=
              .string (readsString_clean member.clean _)
            obtain rfl := value.unique key
            have colon : skipSpace (58 :: behind) = 58 :: behind := skipSpace_cons (by decide) _
            rw [colon] at later
            cases later
  · rw [comma] at same
    exact absurd (List.cons.inj same).1 (by decide)
  · -- The string ends at the quotation mark in front of the key.
    have string : ReadsString (44 :: compactText member members) (member.key ++ 34 :: 58 :: behind) := by
      have comma : Clean (lit ",") := forall_mem_of_all (by decide)
      rw [shape]
      exact readsString_clean comma _
    rw [reads'.unique string]
    exact letter _

end Compact

/-! ### Strings between quotes as they are -/

/-- One ending is as good as another behind a string that is put between quotes
as it is. -/
theorem IsJson.exchange {lead inner left right : Bytes} (leadLow : ∀ byte ∈ lead, byte < 128)
    (leftLow : ∀ byte ∈ left, byte < 128) (rightLow : ∀ byte ∈ right, byte < 128)
    (leftCloses : ∀ float, Closing float (left.map ofByte))
    (rightCloses : ∀ float, Closing float (right.map ofByte))
    (isJson : IsJson (123 :: 34 :: lead ++ (inner ++ 34 :: left))) :
    IsJson (123 :: 34 :: lead ++ (inner ++ 34 :: right)) := by
  have frontLow : ∀ byte ∈ 123 :: 34 :: lead, byte < 128 := by
    simp only [List.forall_mem_cons]
    exact ⟨by decide, by decide, leadLow⟩
  obtain ⟨text, decoded, loaded⟩ := isJson
  obtain ⟨middle, decodedInner, rfl⟩ := (decode_between frontLow leftLow text).mp decoded
  refine ⟨_, (decode_between frontLow rightLow _).mpr ⟨middle, decodedInner, rfl⟩, fun float => ?_⟩
  have shape : ∀ back : PyStr, (123 :: 34 :: lead).map ofByte ++ (middle ++ 34 :: back) =
      123 :: 34 :: (lead.map ofByte ++ middle ++ 34 :: back) := by
    intro back
    rw [List.append_assoc]
    rfl
  have loaded := loaded float
  rw [shape] at loaded ⊢
  exact loads_isSome_exchange (leftCloses float) (rightCloses float) _ loaded

theorem isJson_exchange_iff {lead inner left right : Bytes} (leadLow : ∀ byte ∈ lead, byte < 128)
    (leftLow : ∀ byte ∈ left, byte < 128) (rightLow : ∀ byte ∈ right, byte < 128)
    (leftCloses : ∀ float, Closing float (left.map ofByte))
    (rightCloses : ∀ float, Closing float (right.map ofByte)) :
    IsJson (123 :: 34 :: lead ++ (inner ++ 34 :: left)) ↔
      IsJson (123 :: 34 :: lead ++ (inner ++ 34 :: right)) :=
  ⟨IsJson.exchange leadLow leftLow rightLow leftCloses rightCloses,
    IsJson.exchange leadLow rightLow leftLow rightCloses leftCloses⟩

/-- A clean string can be put between quotes. -/
theorem isJson_clean {key inner : Bytes} (keyLow : ∀ byte ∈ key, byte < 128)
    (keyClean : Clean (key.map ofByte)) (clean : CleanBytes inner) :
    IsJson (123 :: 34 :: (key ++ [34, 58, 34]) ++ (inner ++ 34 :: [125])) := by
  have low : ∀ byte ∈ 123 :: 34 :: (key ++ [34, 58, 34]), byte < 128 := by
    simp only [List.forall_mem_cons, List.forall_mem_append]
    exact ⟨by decide, by decide, keyLow, by decide, by decide, by decide, List.forall_mem_nil _⟩
  obtain ⟨middle, encoded, clean⟩ := clean
  have braceLow : ∀ byte ∈ ([125] : Bytes), byte < 128 := forall_mem_of_all (by decide)
  refine ⟨_, (decode_between low braceLow _).mpr ⟨middle, decode_of_encode encoded, rfl⟩,
    fun float => ?_⟩
  have shape : (123 :: 34 :: (key ++ [34, 58, 34])).map ofByte ++
      (middle ++ 34 :: [125].map ofByte) =
        123 :: compactText (⟨key.map ofByte, quotedRaw middle, _, keyClean,
          scans_quotedRaw float clean⟩ : Member float) [] := by
    have quote : ofByte 34 = 34 := rfl
    have colon : ofByte 58 = 58 := rfl
    have brace : ofByte 125 = 125 := rfl
    have open_ : ofByte 123 = 123 := rfl
    simp [compactText, Member.compact, quotedRaw, quote, colon, brace, open_]
  rw [shape]
  exact loads_compactText _ _

/-- An object without its closing brace is no JSON. -/
theorem not_isJson_open {key inner : Bytes} (keyLow : ∀ byte ∈ key, byte < 128)
    (keyClean : Clean (key.map ofByte)) (clean : CleanBytes inner) :
    ¬ IsJson (123 :: 34 :: (key ++ [34, 58, 34]) ++ (inner ++ 34 :: [])) := by
  have low : ∀ byte ∈ 123 :: 34 :: (key ++ [34, 58, 34]), byte < 128 := by
    simp only [List.forall_mem_cons, List.forall_mem_append]
    exact ⟨by decide, by decide, keyLow, by decide, by decide, by decide, List.forall_mem_nil _⟩
  rintro ⟨text, decoded, loaded⟩
  obtain ⟨middle, decodedInner, rfl⟩ := (decode_between low (List.forall_mem_nil _) text).mp decoded
  obtain ⟨middle', encoded, clean⟩ := clean
  obtain rfl : middle' = middle := Option.some.inj ((decode_of_encode encoded).symm.trans decodedInner)
  have loaded := loaded fun _ => ⟨[], List.forall_mem_nil _⟩
  have shape : (123 :: 34 :: (key ++ [34, 58, 34])).map ofByte ++ (middle' ++ 34 :: [].map ofByte) =
      123 :: 34 :: (key.map ofByte ++ 34 :: 58 :: 34 :: (middle' ++ 34 :: [])) := by
    have quote : ofByte 34 = 34 := rfl
    have colon : ofByte 58 = 58 := rfl
    have open_ : ofByte 123 = 123 := rfl
    simp [quote, colon, open_]
  have solid : ∀ (point : CodePoint) (rest : PyStr),
      ¬ (point.val = 32 ∨ point.val = 9 ∨ point.val = 10 ∨ point.val = 13) →
      skipSpace (point :: rest) = point :: rest := fun _ rest solid => skipSpace_cons solid rest
  rw [shape, loads_isSome_iff, solid 123 _ (by decide)] at loaded
  obtain ⟨-, rest, reads, -⟩ := loaded
  cases reads with
  | emptyObject closes =>
      rw [solid 34 _ (by decide)] at closes
      exact absurd (List.cons.inj closes).1 (by decide)
  | atom other read => exact absurd rfl other.2.1
  | object members =>
      rw [solid 34 _ (by decide)] at members
      cases members with
      | @member _ colon behind after _ key' colon_eq value later =>
          obtain rfl := key'.unique (readsString_clean keyClean _)
          rw [solid 58 _ (by decide)] at colon_eq
          obtain ⟨-, rfl⟩ := List.cons.inj colon_eq
          rw [solid 34 _ (by decide)] at value
          have string : Reads (fun _ => ⟨[], List.forall_mem_nil _⟩) .value
              (34 :: (middle' ++ 34 :: [])) [] := .string (readsString_clean clean _)
          obtain rfl := value.unique string
          cases later

end MiniMs.Library.Json
