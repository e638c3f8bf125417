import MiniMs.Library.Json

/-!
The JSON text of a string, as a reader sees it that does not undo its escapes.

Owns: the UTF-8 bytes of a string character by character, the shape of an
escape, the text that such a reader takes up to the first quote and a limit,
and the strings for which that text is their UTF-8 encoding.

Readers that undo some escapes are not owned here.
-/

namespace MiniMs.Library.Json

open MiniMs.Library.Text

/-! ### UTF-8 -/

theorem encode_cons {point : CodePoint} {text : PyStr} {bytes : Bytes}
    (encoded : encode (point :: text) = some bytes) :
    ∃ character rest, toChar? point = some character ∧ encode text = some rest ∧
      bytes = String.utf8EncodeChar character ++ rest := by
  unfold encode at encoded ⊢
  cases head : toChar? point with
  | none => simp [List.mapM_cons, head] at encoded
  | some character =>
      cases tail : text.mapM toChar? with
      | none => simp [List.mapM_cons, head, tail] at encoded
      | some characters =>
          refine ⟨character, characters.flatMap String.utf8EncodeChar, rfl, by simp, ?_⟩
          simpa [List.mapM_cons, head, tail] using encoded.symm

theorem toChar?_eq_some {point : CodePoint} {character : Char}
    (scalar : toChar? point = some character) : character.val.toNat = point.val := by
  unfold toChar? at scalar
  split at scalar
  · rw [← Option.some.inj scalar]
    simp [Char.ofNatAux, UInt32.toNat]
  · contradiction

/-- An ASCII character is one byte, and all bytes of any other lie above. -/
theorem utf8EncodeChar_cases {point : CodePoint} {character : Char}
    (scalar : toChar? point = some character) :
    (point.val < 128 ∧ String.utf8EncodeChar character = [UInt8.ofNat point.val]) ∨
      128 ≤ point.val ∧ ∃ first rest, String.utf8EncodeChar character = first :: rest ∧
        ∀ byte ∈ first :: rest, 128 ≤ byte := by
  have value := toChar?_eq_some scalar
  have high : ∀ number, 128 ≤ number → number < 256 → 128 ≤ UInt8.ofNat number := by
    intro number low below
    rw [UInt8.le_iff_toNat_le, UInt8.toNat_ofNat']
    show 128 ≤ number % 256
    omega
  unfold String.utf8EncodeChar
  dsimp only
  rw [value]
  by_cases one : point.val ≤ 127
  · left
    rw [if_pos one]
    exact ⟨by omega, rfl⟩
  · right
    refine ⟨by omega, ?_⟩
    rw [if_neg one]
    split
    · refine ⟨_, _, rfl, ?_⟩
      simp only [List.forall_mem_cons]
      exact ⟨high _ (by omega) (by omega), high _ (by omega) (by omega), by simp⟩
    split
    · refine ⟨_, _, rfl, ?_⟩
      simp only [List.forall_mem_cons]
      exact ⟨high _ (by omega) (by omega), high _ (by omega) (by omega),
        high _ (by omega) (by omega), by simp⟩
    · refine ⟨_, _, rfl, ?_⟩
      simp only [List.forall_mem_cons]
      exact ⟨high _ (by omega) (by omega), high _ (by omega) (by omega),
        high _ (by omega) (by omega), high _ (by omega) (by omega), by simp⟩

/-! ### Escapes -/

theorem escape_cons (point : CodePoint) (text : PyStr) :
    escape (point :: text) = escapePoint point ++ escape text := rfl

theorem escapePoint_unescaped {point : CodePoint} (unescaped : Unescaped point) :
    escapePoint point = [UInt8.ofNat point.val] := by
  unfold escapePoint
  rw [if_pos unescaped]

theorem escapePoint_backslash {point : CodePoint} (backslash : point.val = 92) :
    escapePoint point = [92, 92] := by
  have same : point = ⟨92, by decide⟩ := Fin.ext backslash
  rw [same]
  decide

/-- Every other escape starts with a backslash. -/
theorem escapePoint_escaped {point : CodePoint} (escaped : ¬ Unescaped point) :
    ∃ rest, escapePoint point = 92 :: rest := by
  unfold escapePoint escapeUnit
  rw [if_neg escaped]
  repeat' split
  all_goals exact ⟨_, rfl⟩

/-- Only the escape of a quote has a quote behind the backslash. -/
theorem escapePoint_other {point : CodePoint} (escaped : ¬ Unescaped point)
    (other : point.val ≠ 34) :
    ∃ second rest, escapePoint point = 92 :: second :: rest ∧ second ≠ 34 := by
  unfold escapePoint escapeUnit
  rw [if_neg escaped, if_neg other]
  repeat' split
  all_goals exact ⟨_, _, rfl, by decide⟩

theorem unescaped_byte_ne {point : CodePoint} (unescaped : Unescaped point) {byte : UInt8}
    (different : point.val ≠ byte.toNat) : UInt8.ofNat point.val ≠ byte := by
  obtain ⟨-, high, -, -⟩ := unescaped
  intro same
  have value := congrArg UInt8.toNat same
  rw [UInt8.toNat_ofNat'] at value
  omega

/-- The text of a string never starts with a quote. -/
theorem escape_head_ne (point : CodePoint) (text : PyStr) (after : Bytes) :
    (escape (point :: text) ++ after).head? ≠ some 34 := by
  rw [escape_cons]
  by_cases unescaped : Unescaped point
  · have quote : UInt8.ofNat point.val ≠ 34 := unescaped_byte_ne unescaped unescaped.2.2.1
    rw [escapePoint_unescaped unescaped]
    simpa using quote
  · obtain ⟨rest, shape⟩ := escapePoint_escaped unescaped
    rw [shape]
    simp

/-! ### Reading without undoing escapes -/

/-- The text of a string up to the first quote, escaped or not. -/
def rawText (text : PyStr) : Bytes := (escape text).takeWhile (· ≠ 34)

theorem rawText_unescaped {point : CodePoint} (unescaped : Unescaped point) (text : PyStr) :
    rawText (point :: text) = UInt8.ofNat point.val :: rawText text := by
  have quote : UInt8.ofNat point.val ≠ 34 := unescaped_byte_ne unescaped unescaped.2.2.1
  unfold rawText
  rw [escape_cons, escapePoint_unescaped unescaped, List.singleton_append,
    List.takeWhile_cons_of_pos (by simpa using quote)]

theorem rawText_escaped {point : CodePoint} (escaped : ¬ Unescaped point) (text : PyStr) :
    ∃ rest, rawText (point :: text) = 92 :: rest := by
  obtain ⟨rest, shape⟩ := escapePoint_escaped escaped
  refine ⟨(rest ++ escape text).takeWhile (· ≠ 34), ?_⟩
  unfold rawText
  rw [escape_cons, shape, List.cons_append, List.takeWhile_cons_of_pos (by decide)]

theorem rawText_backslash {point : CodePoint} (backslash : point.val = 92) (text : PyStr) :
    rawText (point :: text) = 92 :: 92 :: rawText text := by
  unfold rawText
  rw [escape_cons, escapePoint_backslash backslash]
  show (92 :: 92 :: escape text).takeWhile _ = _
  rw [List.takeWhile_cons_of_pos (by decide), List.takeWhile_cons_of_pos (by decide)]

/-- The strings that read back unharmed up to a limit: unescaped characters,
and behind them backslashes, of which half are read, only where they end at the
limit. -/
def ReadsBack (limit : Nat) (text : PyStr) : Prop :=
  ∃ plain backslashes, text = plain ++ backslashes ∧ (∀ point ∈ plain, Unescaped point) ∧
    (∀ point ∈ backslashes, point.val = 92) ∧ text.length ≤ limit ∧
    (backslashes = [] ∨ text.length = limit)

theorem ReadsBack.mem {limit : Nat} {text : PyStr} (reads : ReadsBack limit text)
    {point : CodePoint} (member : point ∈ text) : Unescaped point ∨ point.val = 92 := by
  obtain ⟨plain, backslashes, split, plains, only, -, -⟩ := reads
  rw [split] at member
  rcases List.mem_append.mp member with front | back
  · exact Or.inl (plains point front)
  · exact Or.inr (only point back)

theorem readsBack_cons_unescaped {point : CodePoint} (unescaped : Unescaped point) (limit : Nat)
    (text : PyStr) : ReadsBack (limit + 1) (point :: text) ↔ ReadsBack limit text := by
  constructor
  · rintro ⟨plain, backslashes, split, plains, only, fits, full⟩
    cases plain with
    | nil =>
        rw [List.nil_append] at split
        have value := only point (by rw [← split]; exact List.mem_cons_self)
        exact absurd value unescaped.2.2.2
    | cons head plain =>
        rw [List.cons_append] at split
        injection split with _ later
        refine ⟨plain, backslashes, later, ?_, only, ?_, ?_⟩
        · exact fun other member => plains other (List.mem_cons_of_mem _ member)
        · simpa using fits
        · exact full.imp_right fun equal => by simpa using equal
  · rintro ⟨plain, backslashes, split, plains, only, fits, full⟩
    refine ⟨point :: plain, backslashes, by rw [split, List.cons_append], ?_, only, ?_, ?_⟩
    · intro other member
      rcases List.mem_cons.mp member with same | later
      · rw [same]
        exact unescaped
      · exact plains other later
    · simpa using fits
    · exact full.imp_right fun equal => by simpa using equal

/-- A string that starts with an escaped character reads back only if all of it
is backslashes. -/
theorem readsBack_cons_escaped {point : CodePoint} (escaped : ¬ Unescaped point) (limit : Nat)
    (text : PyStr) :
    ReadsBack limit (point :: text) ↔
      (∀ other ∈ point :: text, other.val = 92) ∧ (point :: text).length = limit := by
  constructor
  · rintro ⟨plain, backslashes, split, plains, only, -, full⟩
    cases plain with
    | nil =>
        rw [List.nil_append] at split
        rw [split]
        rw [split] at full
        refine ⟨only, full.resolve_left ?_⟩
        rw [← split]
        exact List.cons_ne_nil _ _
    | cons head plain =>
        rw [List.cons_append] at split
        injection split with same _
        have unescaped := plains head List.mem_cons_self
        rw [← same] at unescaped
        exact absurd unescaped escaped
  · rintro ⟨only, full⟩
    exact ⟨[], point :: text, rfl, by simp, only, Nat.le_of_eq full, Or.inr full⟩

/-- Only a backslash is encoded with a backslash in front. -/
theorem backslash_cons_ne {point : CodePoint} {character : Char}
    (scalar : toChar? point = some character) (other : point.val ≠ 92) (seen rest : Bytes) :
    92 :: seen ≠ String.utf8EncodeChar character ++ rest := by
  intro same
  rcases utf8EncodeChar_cases scalar with ⟨low, one⟩ | ⟨-, first, more, many, high⟩
  · rw [one, List.singleton_append] at same
    injection same with head _
    have value := congrArg UInt8.toNat head
    rw [UInt8.toNat_ofNat'] at value
    change 92 = point.val % 256 at value
    omega
  · rw [many, List.cons_append] at same
    injection same with head _
    have above := high first List.mem_cons_self
    rw [← head] at above
    exact absurd above (by decide)

theorem utf8EncodeChar_ascii {point : CodePoint} {character : Char}
    (scalar : toChar? point = some character) (low : point.val < 128) :
    String.utf8EncodeChar character = [UInt8.ofNat point.val] := by
  rcases utf8EncodeChar_cases scalar with ⟨-, one⟩ | ⟨high, -⟩
  · exact one
  · omega

theorem utf8EncodeChar_backslash {point : CodePoint} {character : Char}
    (scalar : toChar? point = some character) (backslash : point.val = 92) :
    String.utf8EncodeChar character = [92] := by
  rw [utf8EncodeChar_ascii scalar (by omega), backslash]
  rfl

/-- Behind a backslash, the reader sees at least one backslash more than the
string has left. -/
theorem backslashes_take_eq_iff {text : PyStr} {bytes : Bytes}
    (encoded : encode text = some bytes) (surplus limit : Nat) :
    (List.replicate (surplus + 1) 92 ++ rawText text).take limit = bytes ↔
      (∀ point ∈ text, point.val = 92) ∧ text.length = limit := by
  induction text generalizing bytes surplus limit with
  | nil =>
      obtain rfl : [] = bytes := Option.some.inj encoded
      cases limit with
      | zero => simp
      | succ limit => simp [List.replicate_succ]
  | cons point text inductionHypothesis =>
      obtain ⟨character, rest, scalar, encodedRest, shape⟩ := encode_cons encoded
      cases limit with
      | zero =>
          have nonempty : bytes ≠ [] := by simp [shape, String.utf8EncodeChar_ne_nil]
          simp [nonempty.symm]
      | succ limit =>
          rw [List.replicate_succ, List.cons_append, List.take_succ_cons]
          by_cases backslash : point.val = 92
          · have stretch : List.replicate surplus 92 ++ rawText (point :: text) =
                List.replicate (surplus + 1 + 1) 92 ++ rawText text := by
              rw [rawText_backslash backslash, List.replicate_succ', List.replicate_succ']
              simp
            rw [shape, utf8EncodeChar_backslash scalar backslash, stretch, List.singleton_append,
              List.cons_inj_right, inductionHypothesis encodedRest]
            simp [backslash]
          · rw [shape]
            simp [backslash_cons_ne scalar backslash, backslash]

/-- A reader that takes the text of a string up to the first quote and a limit
gets its UTF-8 encoding exactly for the strings that read back. -/
theorem rawText_take_eq_iff {text : PyStr} {bytes : Bytes} (encoded : encode text = some bytes)
    (limit : Nat) : (rawText text).take limit = bytes ↔ ReadsBack limit text := by
  induction text generalizing bytes limit with
  | nil =>
      obtain rfl : [] = bytes := Option.some.inj encoded
      have raw : rawText [] = [] := rfl
      rw [raw, List.take_nil]
      exact iff_of_true rfl ⟨[], [], rfl, by simp, by simp, Nat.zero_le _, Or.inl rfl⟩
  | cons point text inductionHypothesis =>
      obtain ⟨character, rest, scalar, encodedRest, shape⟩ := encode_cons encoded
      cases limit with
      | zero =>
          have nonempty : bytes ≠ [] := by simp [shape, String.utf8EncodeChar_ne_nil]
          have long : ¬ ReadsBack 0 (point :: text) := by
            rintro ⟨_, _, _, _, _, fits, _⟩
            simp at fits
          simp [nonempty.symm, long]
      | succ limit =>
          by_cases unescaped : Unescaped point
          · have low : point.val < 128 := Nat.lt_of_le_of_lt unescaped.2.1 (by decide)
            have one := utf8EncodeChar_ascii scalar low
            rw [rawText_unescaped unescaped, List.take_succ_cons, shape, one,
              List.singleton_append, List.cons_inj_right, inductionHypothesis encodedRest,
              readsBack_cons_unescaped unescaped]
          · rw [readsBack_cons_escaped unescaped]
            by_cases backslash : point.val = 92
            · have behind := backslashes_take_eq_iff encodedRest 0 limit
              rw [rawText_backslash backslash, List.take_succ_cons, shape,
                utf8EncodeChar_backslash scalar backslash, List.singleton_append,
                List.cons_inj_right]
              rw [List.replicate_one, List.singleton_append] at behind
              simpa [backslash] using behind
            · obtain ⟨seen, raw⟩ := rawText_escaped unescaped text
              rw [raw, List.take_succ_cons, shape]
              simp [backslash_cons_ne scalar backslash, backslash]

end MiniMs.Library.Json
