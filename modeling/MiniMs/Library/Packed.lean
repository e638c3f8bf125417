import MiniMs.Library.Text

/-!
Little-endian words, and the packed records of Python's `struct` module.

Owns: the bytes of a number and the number of some bytes, two's complement at a
width, the field codes of a `<` format with `pack`, `unpack` and `size`, and
the round trips.

Alignment is not modelled: a `<` format has none.
-/

namespace MiniMs.Library.Packed

open MiniMs.Library.Text

/-! ### Little-endian words -/

/-- The low bytes of a number, the least significant first. -/
def leBytes : Nat → Nat → Bytes
  | 0, _ => []
  | width + 1, value => UInt8.ofNat value :: leBytes width (value / 256)

/-- The number that bytes stand for, the least significant first. -/
def leValue : Bytes → Nat
  | [] => 0
  | byte :: rest => byte.toNat + 256 * leValue rest

@[simp] theorem length_leBytes (width value : Nat) : (leBytes width value).length = width := by
  induction width generalizing value with
  | zero => rfl
  | succ width inductionHypothesis => simp [leBytes, inductionHypothesis]

theorem leValue_lt (bytes : Bytes) : leValue bytes < 256 ^ bytes.length := by
  induction bytes with
  | nil => simp [leValue]
  | cons byte rest inductionHypothesis =>
      have low : byte.toNat < 256 := byte.toNat_lt
      rw [List.length_cons, Nat.pow_succ, leValue]
      omega

theorem leValue_leBytes (width value : Nat) :
    leValue (leBytes width value) = value % 256 ^ width := by
  induction width generalizing value with
  | zero => simp [leBytes, leValue, Nat.mod_one]
  | succ width inductionHypothesis =>
      rw [leBytes, leValue, inductionHypothesis, Nat.pow_succ', Nat.mod_mul, UInt8.toNat_ofNat']

theorem leBytes_leValue (bytes : Bytes) : leBytes bytes.length (leValue bytes) = bytes := by
  induction bytes with
  | nil => rfl
  | cons byte rest inductionHypothesis =>
      have low : byte.toNat < 256 := byte.toNat_lt
      have quotient : (byte.toNat + 256 * leValue rest) / 256 = leValue rest := by omega
      have digit : UInt8.ofNat (byte.toNat + 256 * leValue rest) = byte := by
        apply UInt8.toNat_inj.mp
        rw [UInt8.toNat_ofNat']
        omega
      rw [List.length_cons, leValue, leBytes, quotient, digit, inductionHypothesis]

/-- Only the value modulo the word size reaches the bytes. -/
theorem leBytes_mod (width value : Nat) :
    leBytes width (value % 256 ^ width) = leBytes width value := by
  have same := leBytes_leValue (leBytes width value)
  rwa [length_leBytes, leValue_leBytes] at same

/-! ### Two's complement -/

/-- The word that stands for an integer at a width. -/
def twosWord (width : Nat) (value : Int) : Nat := (value % (256 ^ width : Nat)).toNat

/-- The integer that a word stands for at a width. -/
def twosValue (width : Nat) (word : Nat) : Int :=
  if 2 * word < 256 ^ width then word else word - (256 ^ width : Nat)

/-- The range of the signed integers of a width. -/
def InTwos (width : Nat) (value : Int) : Prop :=
  -(256 ^ width : Nat) ≤ 2 * value ∧ 2 * value < (256 ^ width : Nat)

instance (width : Nat) (value : Int) : Decidable (InTwos width value) :=
  inferInstanceAs (Decidable (_ ∧ _))

theorem twosWord_lt (width : Nat) (value : Int) : twosWord width value < 256 ^ width := by
  have positive : 0 < 256 ^ width := Nat.pow_pos (by decide)
  have nonnegative := Int.emod_nonneg value (b := (256 ^ width : Nat)) (by omega)
  have below := Int.emod_lt_of_pos value (b := (256 ^ width : Nat)) (by omega)
  unfold twosWord
  omega

theorem twosValue_twosWord {width : Nat} {value : Int} (inRange : InTwos width value) :
    twosValue width (twosWord width value) = value := by
  obtain ⟨low, high⟩ := inRange
  have positive : 0 < 256 ^ width := Nat.pow_pos (by decide)
  unfold twosValue twosWord
  rcases Int.lt_or_le value 0 with negative | nonnegative
  · have word : value % (256 ^ width : Nat) = value + (256 ^ width : Nat) := by
      rw [← Int.add_emod_right]
      exact Int.emod_eq_of_lt (by omega) (by omega)
    rw [word, if_neg (by omega)]
    omega
  · have word : value % (256 ^ width : Nat) = value :=
      Int.emod_eq_of_lt nonnegative (by omega)
    rw [word, if_pos (by omega)]
    omega

/-! ### Formats -/

/-- A field of a format: `b`, `B`, `i` and `I` are numbers of a width, `x` is a
pad byte. -/
inductive Field where
  | signed (width : Nat)
  | unsigned (width : Nat)
  | pad (count : Nat)
deriving DecidableEq, Repr

/-- `struct.calcsize`. -/
def size : List Field → Nat
  | [] => 0
  | .signed width :: rest => width + size rest
  | .unsigned width :: rest => width + size rest
  | .pad count :: rest => count + size rest

/-- `struct.pack`; `none` is `struct.error`: a value outside the range of its
field, or a wrong number of values. -/
def pack : List Field → List Int → Option Bytes
  | [], [] => some []
  | .pad count :: rest, values => (pack rest values).map (List.replicate count 0 ++ ·)
  | .signed width :: rest, value :: values =>
      if InTwos width value then
        (pack rest values).map (leBytes width (twosWord width value) ++ ·)
      else none
  | .unsigned width :: rest, value :: values =>
      if 0 ≤ value ∧ value < (256 ^ width : Nat) then
        (pack rest values).map (leBytes width value.toNat ++ ·)
      else none
  | _, _ => none

/-- `struct.unpack`; `none` is `struct.error`: the wrong number of bytes. -/
def unpack : List Field → Bytes → Option (List Int)
  | [], [] => some []
  | [], _ :: _ => none
  | .pad count :: rest, bytes =>
      if bytes.length < count then none else unpack rest (bytes.drop count)
  | .signed width :: rest, bytes =>
      if bytes.length < width then none
      else (unpack rest (bytes.drop width)).map
        (twosValue width (leValue (bytes.take width)) :: ·)
  | .unsigned width :: rest, bytes =>
      if bytes.length < width then none
      else (unpack rest (bytes.drop width)).map ((leValue (bytes.take width) : Int) :: ·)

@[simp] theorem pack_nil : pack [] [] = some [] := rfl

theorem pack_pad (count : Nat) (rest : List Field) (values : List Int) :
    pack (.pad count :: rest) values = (pack rest values).map (List.replicate count 0 ++ ·) := by
  rw [pack]

theorem length_of_pack {format : List Field} {values : List Int} {bytes : Bytes}
    (packed : pack format values = some bytes) : bytes.length = size format := by
  induction format generalizing values bytes with
  | nil =>
      cases values with
      | nil =>
          obtain rfl := Option.some.inj packed
          rfl
      | cons value values => exact nomatch packed
  | cons field rest inductionHypothesis =>
      cases field with
      | pad count =>
          rw [pack, Option.map_eq_some_iff] at packed
          obtain ⟨tail, packedTail, rfl⟩ := packed
          rw [List.length_append, List.length_replicate, inductionHypothesis packedTail, size]
      | signed width =>
          cases values with
          | nil => exact nomatch packed
          | cons value values =>
              rw [pack] at packed
              split at packed
              · rw [Option.map_eq_some_iff] at packed
                obtain ⟨tail, packedTail, rfl⟩ := packed
                rw [List.length_append, length_leBytes, inductionHypothesis packedTail, size]
              · exact nomatch packed
      | unsigned width =>
          cases values with
          | nil => exact nomatch packed
          | cons value values =>
              rw [pack] at packed
              split at packed
              · rw [Option.map_eq_some_iff] at packed
                obtain ⟨tail, packedTail, rfl⟩ := packed
                rw [List.length_append, length_leBytes, inductionHypothesis packedTail, size]
              · exact nomatch packed

/-- What is packed is read back, value for value, and the reading goes on behind it. -/
theorem unpack_append_of_pack {format : List Field} {values : List Int} {bytes : Bytes}
    (packed : pack format values = some bytes) (more : List Field) (back : Bytes) :
    unpack (format ++ more) (bytes ++ back) = (unpack more back).map (values ++ ·) := by
  induction format generalizing values bytes with
  | nil =>
      cases values with
      | nil =>
          obtain rfl := Option.some.inj packed
          simp
      | cons value values => exact nomatch packed
  | cons field rest inductionHypothesis =>
      cases field with
      | pad count =>
          rw [pack, Option.map_eq_some_iff] at packed
          obtain ⟨tail, packedTail, rfl⟩ := packed
          rw [List.cons_append, List.append_assoc, unpack, if_neg (by simp),
            List.drop_left' (by simp)]
          exact inductionHypothesis packedTail
      | signed width =>
          cases values with
          | nil => exact nomatch packed
          | cons value values =>
              rw [pack] at packed
              split at packed
              case isFalse outside => exact nomatch packed
              case isTrue inRange =>
                rw [Option.map_eq_some_iff] at packed
                obtain ⟨tail, packedTail, rfl⟩ := packed
                rw [List.cons_append, List.append_assoc, unpack, if_neg (by simp),
                  List.drop_left' (by simp), List.take_left' (by simp),
                  inductionHypothesis packedTail, leValue_leBytes,
                  Nat.mod_eq_of_lt (twosWord_lt width value), twosValue_twosWord inRange,
                  Option.map_map]
                rfl
      | unsigned width =>
          cases values with
          | nil => exact nomatch packed
          | cons value values =>
              rw [pack] at packed
              split at packed
              case isFalse outside => exact nomatch packed
              case isTrue inRange =>
                rw [Option.map_eq_some_iff] at packed
                obtain ⟨tail, packedTail, rfl⟩ := packed
                have below : value.toNat < 256 ^ width := by omega
                have same : (value.toNat : Int) = value := Int.toNat_of_nonneg inRange.1
                rw [List.cons_append, List.append_assoc, unpack, if_neg (by simp),
                  List.drop_left' (by simp), List.take_left' (by simp),
                  inductionHypothesis packedTail, leValue_leBytes, Nat.mod_eq_of_lt below, same,
                  Option.map_map]
                rfl

theorem unpack_of_pack {format : List Field} {values : List Int} {bytes : Bytes}
    (packed : pack format values = some bytes) : unpack format bytes = some values := by
  have read := unpack_append_of_pack packed [] []
  rw [List.append_nil, List.append_nil] at read
  rw [read]
  simp [unpack]

end MiniMs.Library.Packed
