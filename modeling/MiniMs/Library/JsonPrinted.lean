import MiniMs.Library.JsonExtent
import MiniMs.Library.JsonText

/-!
Objects that `json.dumps` prints and `json.loads` reads back.

Owns: which ASCII bytes stand in an encoded text, signed integers, objects whose
values are read back one by one, and the keys of an object that was read.

Arrays are not owned here.
-/

namespace MiniMs.Library.Json

open MiniMs.Library.Text

/-! ### Characters and their bytes -/

theorem exists_encode {text : PyStr} (scalars : ∀ point ∈ text, (toChar? point).isSome) :
    ∃ bytes, encode text = some bytes := by
  induction text with
  | nil => exact ⟨[], rfl⟩
  | cons point text inductionHypothesis =>
      obtain ⟨character, scalar⟩ := Option.isSome_iff_exists.mp (scalars point List.mem_cons_self)
      obtain ⟨rest, encoded⟩ := inductionHypothesis
        fun other member => scalars other (List.mem_cons_of_mem _ member)
      have alone : encode [point] = some (String.utf8EncodeChar character) := by
        unfold encode
        simp [List.mapM_cons, scalar]
      exact ⟨_, encode_append alone encoded⟩

/-- The bytes of two texts, one behind the other. -/
theorem encode_append_eq {first second : PyStr} {bytes : Bytes}
    (encoded : encode (first ++ second) = some bytes) :
    ∃ left right, bytes = left ++ right ∧ encode first = some left ∧ encode second = some right := by
  have scalars := scalars_of_encode encoded
  obtain ⟨left, encodedLeft⟩ := exists_encode fun point member =>
    scalars point (List.mem_append_left _ member)
  obtain ⟨right, encodedRight⟩ := exists_encode fun point member =>
    scalars point (List.mem_append_right _ member)
  have whole := encode_append encodedLeft encodedRight
  exact ⟨left, right, Option.some.inj (encoded.symm.trans whole), encodedLeft, encodedRight⟩

/-- An ASCII byte stands in the bytes exactly where its character stands in the text. -/
theorem mem_encode_iff {text : PyStr} {bytes : Bytes} {byte : UInt8} (low : byte < 128)
    (encoded : encode text = some bytes) : byte ∈ bytes ↔ ofByte byte ∈ text := by
  have point : (ofByte byte).val = byte.toNat := rfl
  constructor
  · intro member
    obtain ⟨left, right, rfl⟩ := List.append_of_mem member
    obtain ⟨first, second, rfl, -, -⟩ := encode_split low encoded
    exact List.mem_append_right _ List.mem_cons_self
  · intro member
    obtain ⟨first, second, rfl⟩ := List.append_of_mem member
    obtain ⟨left, right, rfl, -, encodedRight⟩ := encode_append_eq encoded
    obtain ⟨first', right', rfl, one, -⟩ := @encode_append_eq [ofByte byte] second right encodedRight
    have single : encode [ofByte byte] = some [byte] :=
      encode_cons_ascii (ofByte byte) byte point (UInt8.lt_iff_toNat_lt.mp low) rfl
    have same : first' = [byte] := Option.some.inj (one.symm.trans single)
    rw [same]
    simp

/-! ### Signed integers -/

/-- The bytes of a printed integer. -/
def intBytes (value : Int) : Bytes :=
  if value < 0 then 45 :: Number.bytesOf (Nat.toDigits 10 value.natAbs)
  else Number.bytesOf (Nat.toDigits 10 value.natAbs)

/-- Its characters. -/
def intRaw (value : Int) : PyStr := (intBytes value).map ofByte

/-- The number that it is read as. -/
def intNumeral (value : Int) : Numeral := integerNumeral (intRaw value)

theorem bytesOf_toDigits_ne_zero {value : Nat} (positive : 0 < value) :
    Number.bytesOf (Nat.toDigits 10 value) ≠ [48] := by
  intro same
  have number := Number.digitsValue_toDigits value
  rw [same] at number
  have zero : Number.digitsValue 0 [48] = 0 := rfl
  omega

/-- The number prints as it was read. -/
theorem intNumeral_text (value : Int) : (intNumeral value).text = intBytes value := by
  have digits := Number.forall_isDigit_bytesOf value.natAbs
  unfold intNumeral intRaw intBytes
  split
  · rename_i negative
    have minus : digitByte (ofByte 45) = some 45 := rfl
    have other : (45 :: Number.bytesOf (Nat.toDigits 10 value.natAbs)).map ofByte ≠ lit "-0" := by
      intro same
      have zero : (Number.bytesOf (Nat.toDigits 10 value.natAbs)).map ofByte = [48] :=
        (List.cons.inj same).2
      have back := filterMap_digitByte digits
      rw [zero] at back
      exact bytesOf_toDigits_ne_zero (by omega) back.symm
    show (if _ = lit "-0" then _ else _) = _
    rw [if_neg other, List.map_cons, List.filterMap_cons_some minus, filterMap_digitByte digits]
  · exact integerNumeral_integerRaw value.natAbs

theorem scans_int (float : PyStr → Numeral) {value : Int}
    (short : (Nat.toDigits 10 value.natAbs).length ≤ 4300) :
    Scans float (intRaw value) (.number (intNumeral value)) := by
  have integer := integerText_integerRaw short
  unfold intNumeral intRaw intBytes
  split
  · exact scans_negative float integer
  · exact scans_integer float integer

theorem length_toDigits_le {value : Nat} (small : value ≤ 2 ^ 31) :
    (Nat.toDigits 10 value).length ≤ 4300 := by
  have digits : (Nat.toDigits 10 value).length ≤ 10 :=
    (Nat.length_toDigits_le_iff (by decide) (by decide)).mpr (by omega)
  omega

/-- A member with a signed integer. -/
def Printed.int {float : PyStr → Numeral} (key : String) (clean : Clean (lit key))
    (printed : (escape (lit key)).map ofByte = lit key) (value : Int)
    (short : (Nat.toDigits 10 value.natAbs).length ≤ 4300) : Printed float where
  key := lit key
  raw := intRaw value
  value := .number (intNumeral value)
  clean := clean
  scans := scans_int float short
  key_printed := printed
  raw_printed := by
    rw [dumps, intNumeral_text]
    rfl

/-! ### Printed objects -/

section Objects

variable {float : PyStr → Numeral}

variable (float) in
/-- A member that is read back as it was printed. -/
structure Readable (member : PyStr × Value) : Prop where
  scalars : ∀ point ∈ member.1, (toChar? point).isSome
  scans : Scans float ((dumps member.2).map ofByte) member.2

/-- The printed members behind an opening brace or a comma. -/
def printedMembers : List (PyStr × Value) → PyStr
  | [] => []
  | [member] => (quoted member.1).map ofByte ++ 58 :: 32 :: ((dumps member.2).map ofByte ++ [125])
  | member :: members => (quoted member.1).map ofByte ++
      58 :: 32 :: ((dumps member.2).map ofByte ++ 44 :: 32 :: printedMembers members)

theorem printedMembers_eq (member : PyStr × Value) (members : List (PyStr × Value)) :
    (quoted member.1 ++ ascii ": " ++ dumps member.2 ++ dumpsMembers members ++
      ascii "\x7d").map ofByte = printedMembers (member :: members) := by
  have colon : (ascii ": ").map ofByte = [58, 32] := rfl
  have closing : (ascii "\x7d").map ofByte = [125] := rfl
  have comma : (ascii ", ").map ofByte = [44, 32] := rfl
  induction members generalizing member with
  | nil => simp [dumpsMembers, printedMembers, colon, closing]
  | cons next members inductionHypothesis =>
      have later := inductionHypothesis next
      simp only [List.map_append, List.append_assoc, colon, closing] at later
      simp only [dumpsMembers, printedMembers, List.map_append, List.append_assoc, colon, closing,
        comma, later]
      rfl

theorem quoted_append (text : PyStr) (rest : PyStr) :
    (quoted text).map ofByte ++ rest = 34 :: ((escape text).map ofByte ++ 34 :: rest) := by
  have quote : ofByte 34 = 34 := rfl
  simp [quoted, quote]

/-- A printed member, and what stands behind it. -/
theorem Readable.scan {member : PyStr × Value} (reads : Readable float member) {fuel : Nat}
    {stop : CodePoint} (ends : stop.val = 44 ∨ stop.val = 125) {rest : PyStr}
    (enough : ((quoted member.1).map ofByte ++
      58 :: 32 :: ((dumps member.2).map ofByte ++ stop :: rest)).length ≤ fuel) :
    scanString fuel ((escape member.1).map ofByte ++
        34 :: 58 :: 32 :: ((dumps member.2).map ofByte ++ stop :: rest)) =
      some (member.1, 58 :: 32 :: ((dumps member.2).map ofByte ++ stop :: rest)) ∧
    scanOnce float fuel (skipSpace (32 :: ((dumps member.2).map ofByte ++ stop :: rest))) =
      some (member.2, stop :: rest) := by
  have fits := length_le_escape member.1
  rw [quoted_append] at enough
  simp only [List.length_cons, List.length_append, List.length_map] at enough
  constructor
  · exact scanString_escape reads.scalars fuel (by omega) _
  · rw [skipSpace_blank, reads.scans.solid]
    apply reads.scans.scan fuel stop rest ends
    simp only [List.length_cons, List.length_append, List.length_map]
    omega

theorem scanMembers_printed {members : List (PyStr × Value)}
    (reads : ∀ member ∈ members, Readable float member) (nonempty : members ≠ []) {fuel : Nat}
    (enough : (printedMembers members).length < fuel) (before : List (PyStr × Value)) :
    scanMembers float fuel (printedMembers members) before =
      some (.object (members.foldl (fun before member => setItem before member.1 member.2) before),
        []) := by
  have colon : ∀ text : PyStr, skipSpace (58 :: text) = 58 :: text :=
    fun text => skipSpace_cons (by decide) text
  induction members generalizing fuel before with
  | nil => exact absurd rfl nonempty
  | cons member members inductionHypothesis =>
      obtain ⟨more, rfl⟩ : ∃ more, fuel = more + 1 := ⟨fuel - 1, by omega⟩
      have first := reads member List.mem_cons_self
      cases members with
      | nil =>
          have read := first.scan (Or.inr rfl) (Nat.le_of_lt_succ enough)
          unfold printedMembers
          rw [quoted_append]
          exact (MembersStep.last read.1 (colon _) read.2 (skipSpace_cons (by decide) _)).scan
      | cons next members =>
          have read := first.scan (Or.inl rfl) (Nat.le_of_lt_succ enough)
          have start : ∃ text, printedMembers (next :: members) = 34 :: text := by
            cases members with
            | nil => exact ⟨_, quoted_append _ _⟩
            | cons => exact ⟨_, quoted_append _ _⟩
          have solid : skipSpace (32 :: printedMembers (next :: members)) =
              printedMembers (next :: members) := by
            obtain ⟨text, shape⟩ := start
            rw [skipSpace_blank, shape, skipSpace_cons (by decide)]
          have fits : (printedMembers (next :: members)).length < more := by
            simp only [printedMembers, List.length_append, List.length_cons] at enough ⊢
            omega
          have later := inductionHypothesis
            (fun other inside => reads other (List.mem_cons_of_mem _ inside)) (List.cons_ne_nil _ _)
            fits (setItem before member.1 member.2)
          rw [← solid] at later
          unfold printedMembers
          rw [quoted_append]
          exact (MembersStep.next read.1 (colon _) read.2 (skipSpace_cons (by decide) _) later).scan

/-! ### Keys -/

theorem keys_setItem (members : List (PyStr × Value)) (key : PyStr) (value : Value) :
    (setItem members key value).map Prod.fst =
      if key ∈ members.map Prod.fst then members.map Prod.fst
      else members.map Prod.fst ++ [key] := by
  induction members with
  | nil => simp [setItem]
  | cons member members inductionHypothesis =>
      obtain ⟨other, old⟩ := member
      unfold setItem
      by_cases same : other = key
      · simp [same]
      · rw [if_neg same, List.map_cons, inductionHypothesis]
        have different : ¬ key = other := fun equal => same equal.symm
        simp only [List.map_cons, List.mem_cons, different, false_or]
        split <;> rfl

theorem nodup_setItem {members : List (PyStr × Value)} (nodup : (members.map Prod.fst).Nodup)
    (key : PyStr) (value : Value) : ((setItem members key value).map Prod.fst).Nodup := by
  rw [keys_setItem]
  split
  · exact nodup
  · rename_i absent
    exact List.nodup_append.mpr ⟨nodup, List.nodup_cons.mpr ⟨List.not_mem_nil, List.nodup_nil⟩,
      fun other inside found member same => absent (by
        rw [List.mem_singleton] at member
        rwa [← member, ← same])⟩

/-- A new key goes behind the others. -/
theorem setItem_absent {members : List (PyStr × Value)} {key : PyStr}
    (absent : key ∉ members.map Prod.fst) (value : Value) :
    setItem members key value = members ++ [(key, value)] := by
  induction members with
  | nil => rfl
  | cons member members inductionHypothesis =>
      obtain ⟨other, old⟩ := member
      rw [List.map_cons, List.mem_cons, not_or] at absent
      unfold setItem
      rw [if_neg fun same => absent.1 same.symm, inductionHypothesis absent.2]
      rfl

/-- Members with different keys make the object that they are. -/
theorem foldl_setItem {members before : List (PyStr × Value)}
    (nodup : ((before ++ members).map Prod.fst).Nodup) :
    members.foldl (fun before member => setItem before member.1 member.2) before =
      before ++ members := by
  induction members generalizing before with
  | nil => exact (List.append_nil before).symm
  | cons member members inductionHypothesis =>
      have absent : member.1 ∉ before.map Prod.fst := by
        rw [List.map_append, List.map_cons] at nodup
        intro inside
        exact (List.nodup_append.mp nodup).2.2 _ inside _ List.mem_cons_self rfl
      rw [List.foldl_cons, setItem_absent absent, inductionHypothesis, List.append_assoc]
      · rfl
      · rwa [List.append_assoc]

/-- An object that was read has no key twice. -/
theorem nodup_of_scanMembers {fuel : Nat} {text rest : PyStr}
    {before members : List (PyStr × Value)} (nodup : (before.map Prod.fst).Nodup)
    (read : scanMembers float fuel text before = some (.object members, rest)) :
    (members.map Prod.fst).Nodup := by
  induction fuel generalizing text before with
  | zero =>
      rw [scanMembers] at read
      contradiction
  | succ fuel inductionHypothesis =>
      cases membersStep_of_scan read with
      | last string colon value closes => exact nodup_setItem nodup _ _
      | next string colon value comma later =>
          exact inductionHypothesis (nodup_setItem nodup _ _) later

theorem nodup_of_loads {text : PyStr} {members : List (PyStr × Value)}
    (loaded : loads float text = some (.object members)) : (members.map Prod.fst).Nodup := by
  obtain ⟨-, rest, read, -⟩ := scan_of_loads loaded
  generalize skipSpace text = whole at read
  cases onceStep_of_scan read with
  | emptyObject closes => exact List.nodup_nil
  | object opens inner => exact @nodup_of_scanMembers _ _ _ _ [] _ List.nodup_nil inner
  | array opens inner =>
      obtain ⟨_, _, _, same, _⟩ := (extents _).2.2 _ _ _ _ inner
      exact Value.noConfusion same
  | atom other read => exact absurd rfl (atom_ne_object float other read)

/-- `json.loads` reads what `json.dumps` printed. -/
theorem loads_dumps {members : List (PyStr × Value)} (nodup : (members.map Prod.fst).Nodup)
    (reads : ∀ member ∈ members, Readable float member) :
    loads float ((dumps (.object members)).map ofByte) = some (.object members) := by
  cases members with
  | nil =>
      rw [dumps]
      rfl
  | cons member members =>
      have opening : (ascii "\x7b").map ofByte = [123] := rfl
      have shape : (dumps (.object (member :: members))).map ofByte =
          123 :: printedMembers (member :: members) := by
        rw [← printedMembers_eq, dumps]
        simp only [List.map_append, List.append_assoc, opening, List.cons_append, List.nil_append]
      have start : ∃ text, printedMembers (member :: members) = 34 :: text := by
        cases members with
        | nil => exact ⟨_, quoted_append _ _⟩
        | cons => exact ⟨_, quoted_append _ _⟩
      obtain ⟨text, start⟩ := start
      have solid : skipSpace (printedMembers (member :: members)) =
          printedMembers (member :: members) := by
        rw [start, skipSpace_cons (by decide)]
      have opens : (skipSpace (printedMembers (member :: members))).head? ≠ some 125 := by
        rw [solid, start, List.head?_cons]
        decide
      have read := scanMembers_printed reads (List.cons_ne_nil _ _) (Nat.lt_succ_self _) []
      rw [foldl_setItem nodup, List.nil_append, ← solid] at read
      rw [shape]
      have whole := (OnceStep.object opens read).scan
      have object : skipSpace (123 :: printedMembers (member :: members)) =
          123 :: printedMembers (member :: members) := skipSpace_cons (by decide) _
      refine loads_of_scan ?_ (by rw [object]; exact whole) (by rw [object]; exact Or.inr (Or.inl rfl)) rfl
      rw [List.head?_cons]
      decide

end Objects

end MiniMs.Library.Json
