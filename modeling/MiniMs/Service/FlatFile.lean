import MiniMs.Library.FlatJson
import MiniMs.Service.StoreFile

/-!
What the loader makes of flat JSON objects, and which files it misreads.

Owns: the entries that a layout of a flat object is read as, the round trip from
pairs over any layout to look-ups, the property that no file is misread, and the
exact condition on a file for it.
-/

namespace MiniMs.Service

open MiniMs.Library.Text MiniMs.Library.Number MiniMs.Library.FlatJson

/-! ### Values -/

/-- `strtol` of a number: cut to a `long`. -/
def longOf (value : Int) : Int := max (-(2 ^ 63)) (min value (2 ^ 63 - 1))

/-- The `int` that is stored for a value. -/
def storedValue : Scalar → CInt
  | .integer value => toInt (longOf value)
  | .boolean value => if value then trueValue else falseValue

theorem storedValue_small {value : Int} (low : -(2 ^ 31) ≤ value) (high : value < 2 ^ 31) :
    (storedValue (.integer value)).1 = value := by
  have whole : longOf value = value := by
    unfold longOf
    omega
  show Int.bmod (longOf value) (2 ^ 32) = value
  rw [whole]
  exact Int.bmod_eq_of_le (by omega) (by omega)

/-- No digit follows. -/
def Undigited (rest : Bytes) : Prop := ∀ byte, rest.head? = some byte → isDigit byte = false

theorem strtol_written_digits (value : Nat) {rest : Bytes} (stops : Undigited rest) :
    strtol (bytesOf (Nat.toDigits 10 value) ++ rest) = longOf value := by
  have digits := forall_isDigit_bytesOf value
  unfold strtol
  rw [signedDigits_digits (bytesOf_toDigits_ne_nil value) digits]
  dsimp only
  rw [takeWhile_digits digits stops, digitsValue_toDigits]
  unfold clamp longOf longMax
  simp only [Bool.false_eq_true, if_false]
  omega

theorem signedDigits_minus (value : Nat) (rest : Bytes) :
    signedDigits (45 :: (bytesOf (Nat.toDigits 10 value) ++ rest)) =
      (true, bytesOf (Nat.toDigits 10 value) ++ rest) := by
  unfold signedDigits
  rw [List.dropWhile_cons_of_neg (by decide)]
  rfl

theorem strtol_written_minus (value : Nat) {rest : Bytes} (stops : Undigited rest) :
    strtol (45 :: (bytesOf (Nat.toDigits 10 value) ++ rest)) = longOf (-value) := by
  unfold strtol
  rw [signedDigits_minus]
  dsimp only
  rw [takeWhile_digits (forall_isDigit_bytesOf value) stops, digitsValue_toDigits]
  unfold clamp longOf longMax
  simp only [if_true]
  omega

/-- `strtol` moves its end pointer behind the digits. -/
theorem strtolEnd_of_signedDigits {negative : Bool} {text rest : Bytes} (value : Nat)
    (signed : signedDigits text = (negative, bytesOf (Nat.toDigits 10 value) ++ rest))
    (stops : Undigited rest) : strtolEnd text = rest := by
  have digits := forall_isDigit_bytesOf value
  unfold strtolEnd strtolRest
  rw [signed]
  dsimp only
  rw [takeWhile_digits digits stops, if_neg (bytesOf_toDigits_ne_nil value),
    dropWhile_digits digits stops]

/-- A number begins with a digit or a minus. -/
theorem digit_head (value : Nat) (rest : Bytes) :
    ∃ digit more, bytesOf (Nat.toDigits 10 value) ++ rest = digit :: more ∧ isDigit digit = true := by
  obtain ⟨digit, others, shape⟩ := List.exists_cons_of_ne_nil (bytesOf_toDigits_ne_nil value)
  refine ⟨digit, others ++ rest, by rw [shape, List.cons_append], ?_⟩
  apply forall_isDigit_bytesOf value
  rw [shape]
  exact List.mem_cons_self

theorem digit_plain {digit : UInt8} (isDigit' : isDigit digit = true) :
    isSpace digit = false ∧ digit ≠ 116 ∧ digit ≠ 102 := by
  have plain : ∀ byte : UInt8, isDigit byte = true →
      isSpace byte = false ∧ byte ≠ 116 ∧ byte ≠ 102 := by decide +kernel
  exact plain digit isDigit'

/-- No value of a flat object begins with a space. -/
theorem solid_of_writes {value : Scalar} {text : Bytes} (writes : Writes value text) (rest : Bytes) :
    isSpace (peek (text ++ rest)) = false := by
  cases writes with
  | digits value =>
      obtain ⟨digit, more, shape, isDigit'⟩ := digit_head value rest
      rw [shape]
      exact (digit_plain isDigit').1
  | minus value => exact (by decide : isSpace 45 = false)
  | yes => exact (by decide : isSpace 116 = false)
  | no => exact (by decide : isSpace 102 = false)

/-- Every value is read as it is written. -/
theorem valueAt_of_writes {value : Scalar} {text : Bytes} (writes : Writes value text) {rest : Bytes}
    (stops : Undigited rest) : ValueAt (text ++ rest) (storedValue value) rest := by
  cases writes with
  | digits value =>
      obtain ⟨digit, more, shape, isDigit'⟩ := digit_head value rest
      have plain : peek (bytesOf (Nat.toDigits 10 value) ++ rest) ≠ 116 ∧
          peek (bytesOf (Nat.toDigits 10 value) ++ rest) ≠ 102 := by
        rw [shape]
        exact (digit_plain isDigit').2
      have read := ValueAt.number plain
      rw [strtol_written_digits value stops, strtolEnd_of_signedDigits value
        (signedDigits_digits (bytesOf_toDigits_ne_nil value) (forall_isDigit_bytesOf value))
        stops] at read
      exact read
  | minus value =>
      have plain : peek (45 :: (bytesOf (Nat.toDigits 10 value) ++ rest)) ≠ 116 ∧
          peek (45 :: (bytesOf (Nat.toDigits 10 value) ++ rest)) ≠ 102 := by
        rw [peek_cons]
        decide
      have read := ValueAt.number plain
      rw [strtol_written_minus value stops,
        strtolEnd_of_signedDigits value (signedDigits_minus value rest) stops] at read
      exact read
  | yes => exact @ValueAt.affirmed (ascii "rue") rest (by decide)
  | no => exact @ValueAt.denied (ascii "alse") rest (by decide)

/-! ### Pairs -/

theorem blank_isSpace {byte : UInt8} (blank : isBlank byte = true) : isSpace byte = true := by
  have all : ∀ byte : UInt8, isBlank byte = true → isSpace byte = true := by decide +kernel
  exact all byte blank

theorem blank_isSeparator {byte : UInt8} (blank : isBlank byte = true) : isSeparator byte = true := by
  have all : ∀ byte : UInt8, isBlank byte = true → isSeparator byte = true := by decide +kernel
  exact all byte blank

theorem blank_isBefore {byte : UInt8} (blank : isBlank byte = true) : isBefore 58 byte = true := by
  have all : ∀ byte : UInt8, isBlank byte = true → isBefore 58 byte = true := by decide +kernel
  exact all byte blank

theorem blank_undigited {byte : UInt8} (blank : isBlank byte = true) : isDigit byte = false := by
  have all : ∀ byte : UInt8, isBlank byte = true → isDigit byte = false := by decide +kernel
  exact all byte blank

/-- A pair and an entry that holds it. -/
def Matches (pair : Pair) (entry : WrittenEntry) : Prop :=
  entry.written.1 = pair.raw ∧ entry.value = storedValue pair.value

/-- Keys that the scan for a quote gets past. -/
def Scannable (pair : Pair) : Prop := 0 ∉ pair.raw ∧ 34 ∉ pair.raw

theorem entryAt_pair {pair : Pair} (scannable : Scannable pair) {gap rest : Bytes}
    (separators : ∀ byte ∈ gap, isSeparator byte = true) (stops : Undigited rest) :
    EntryAt (gap ++ (pair.core ++ rest)) ⟨⟨pair.raw, scannable⟩, storedValue pair.value⟩ rest := by
  have key : KeyAt (gap ++ 34 :: (pair.raw ++ 34 :: (pair.beforeColon.1 ++
      58 :: (pair.beforeValue.1 ++ (pair.written.1 ++ rest)))))
      ⟨pair.raw, scannable⟩ (pair.written.1 ++ rest) :=
    @KeyAt.colon _ _ _ _ ⟨pair.raw, scannable⟩ separators
      (fun byte member => blank_isBefore (pair.beforeColon.2 byte member))
      (fun byte member => blank_isSpace (pair.beforeValue.2 byte member))
      (solid_of_writes pair.written.2 rest)
  have shape : pair.core ++ rest = 34 :: (pair.raw ++ 34 :: (pair.beforeColon.1 ++
      58 :: (pair.beforeValue.1 ++ (pair.written.1 ++ rest)))) := by
    simp [Pair.core]
  rw [shape]
  exact ⟨_, key, valueAt_of_writes pair.written.2 stops⟩

/-- What stands between a pair and the pairs behind it. -/
def comma (pairs : List Pair) : Bytes := if pairs = [] then [] else [44]

theorem pairsText_cons (pair : Pair) (pairs : List Pair) :
    pairsText (pair :: pairs) = pair.text ++ (comma pairs ++ pairsText pairs) := by
  cases pairs with
  | nil => exact (List.append_nil _).symm
  | cons next pairs => rfl

theorem undigited_blanks {blanks : Blanks} {rest : Bytes} (stops : Undigited rest) :
    Undigited (blanks.1 ++ rest) := by
  cases shape : blanks.1 with
  | nil => exact stops
  | cons byte others =>
      intro first head
      have blank := blanks.2 byte (by rw [shape]; exact List.mem_cons_self)
      rw [← Option.some.inj head]
      exact blank_undigited blank

/-- Behind the value of a pair stands no digit. -/
theorem undigited_behind (pair : Pair) (pairs : List Pair) (inner : Blanks) (trail : Bytes) :
    Undigited (pair.behind.1 ++ (comma pairs ++ (pairsText pairs ++ (inner.1 ++ 125 :: trail)))) := by
  apply undigited_blanks
  cases pairs with
  | nil =>
      apply undigited_blanks
      rintro byte ⟨⟩
      decide
  | cons next pairs =>
      rintro byte ⟨⟩
      decide

/-- The pairs of a layout are skimmed one after the other. -/
theorem skims_pairs {pairs : List Pair} (scannable : ∀ pair ∈ pairs, Scannable pair)
    (inner : Blanks) (trail : Bytes) {gap : Bytes}
    (separators : ∀ byte ∈ gap, isSeparator byte = true) :
    ∃ entries behind, Skims entries (gap ++ (pairsText pairs ++ (inner.1 ++ 125 :: trail))) behind ∧
      EndsAt behind ∧ List.Forall₂ Matches pairs entries := by
  induction pairs generalizing gap with
  | nil =>
      refine ⟨[], _, .nil, ⟨gap ++ inner.1, 125 :: trail, ?_, ?_, Or.inl rfl⟩, .nil⟩
      · simp [pairsText]
      · intro byte member
        rcases List.mem_append.mp member with front | back
        · exact separators byte front
        · exact blank_isSeparator (inner.2 byte back)
  | cons pair pairs inductionHypothesis =>
      have first := scannable pair List.mem_cons_self
      have others : ∀ other ∈ pairs, Scannable other := fun other member =>
        scannable other (List.mem_cons_of_mem _ member)
      have lead : ∀ byte ∈ gap ++ pair.beforeKey.1, isSeparator byte = true := by
        intro byte member
        rcases List.mem_append.mp member with front | back
        · exact separators byte front
        · exact blank_isSeparator (pair.beforeKey.2 byte back)
      have next : ∀ byte ∈ pair.behind.1 ++ comma pairs, isSeparator byte = true := by
        intro byte member
        rcases List.mem_append.mp member with front | back
        · exact blank_isSeparator (pair.behind.2 byte front)
        · unfold comma at back
          split at back
          · contradiction
          · rw [List.mem_singleton.mp back]
            decide
      obtain ⟨entries, behind, skims, ends, same⟩ := inductionHypothesis others next
      have entry := entryAt_pair first lead (undigited_behind pair pairs inner trail)
      have shape : gap ++ (pairsText (pair :: pairs) ++ (inner.1 ++ 125 :: trail)) =
          gap ++ pair.beforeKey.1 ++ (pair.core ++ (pair.behind.1 ++
            (comma pairs ++ (pairsText pairs ++ (inner.1 ++ 125 :: trail))))) := by
        rw [pairsText_cons]
        simp [Pair.text]
      rw [shape]
      rw [List.append_assoc] at skims
      exact ⟨_, behind, .cons entry skims, ends, .cons ⟨rfl, rfl⟩ same⟩

/-- The loader accepts a layout, and holds its pairs as far as there is room. -/
theorem kvStoreLoad_layout {layout : Layout} (scannable : ∀ pair ∈ layout.pairs, Scannable pair)
    (store : KvStore) :
    ∃ entries, List.Forall₂ Matches layout.pairs entries ∧
      kvStoreLoad store (some layout.text) =
        .returned 0 ((entries.take maxEntries).map WrittenEntry.stored) := by
  obtain ⟨entries, behind, skims, ends, same⟩ :=
    @skims_pairs layout.pairs scannable layout.inner layout.trail.1 [] (List.forall_mem_nil _)
  have opens : Opens layout.text layout.body := by
    refine ⟨layout.lead.1, rfl, fun byte member => ?_⟩
    have all : ∀ byte : UInt8, isBlank byte = true → isBefore 123 byte = true := by decide +kernel
    exact all byte (layout.lead.2 byte member)
  refine ⟨entries, same, ?_⟩
  have loaded : loadEntries maxEntries layout.body = (.done, entries.take maxEntries) := by
    have left : loadEntries (maxEntries - entries.length) behind = (.done, []) := by
      cases maxEntries - entries.length with
      | zero => rfl
      | succ room => rw [loadEntries_succ, loadRound_of_endsAt ends]
    rw [List.nil_append] at skims
    have scan := loadEntries_of_skims skims maxEntries
    rw [left, List.append_nil] at scan
    exact scan
  unfold kvStoreLoad
  dsimp only
  rw [openBrace_of_opens opens, loaded]

/-! ### The round trip -/

/-- A value that an `int` holds. -/
def IsInt : Scalar → Prop
  | .integer value => -(2 ^ 31) ≤ value ∧ value < 2 ^ 31
  | .boolean _ => True

/-- A pair that fits an entry, with a key that needs no escape. -/
structure Writable (pair : Pair) : Prop where
  short : pair.raw.length < maxKeyLen
  no_quote : 34 ∉ pair.raw
  no_backslash : 92 ∉ pair.raw
  no_nul : 0 ∉ pair.raw
  value : IsInt pair.value

theorem storedKey_of_short {written : Bytes} (short : written.length < maxKeyLen) :
    storedKey written = written :=
  List.take_of_length_le (Nat.le_pred_of_lt short)

theorem storedValue_of_isInt {value : Scalar} (small : IsInt value) :
    (storedValue value).1 = value.number := by
  cases value with
  | integer value => exact storedValue_small small.1 small.2
  | boolean value =>
      cases value with
      | true => rfl
      | false => rfl

/-- An entry of the store that says what a pair says. -/
def Holds (pair : Pair) (entry : KvEntry) : Prop :=
  entry.key = pair.raw ∧ entry.value = pair.value.number

theorem holds_of_matches {pair : Pair} {entry : WrittenEntry} (writable : Writable pair)
    (same : Matches pair entry) : Holds pair entry.stored := by
  obtain ⟨written, value⟩ := same
  constructor
  · show storedKey entry.written.1 = pair.raw
    rw [written, storedKey_of_short writable.short]
  · show entry.value.1 = pair.value.number
    rw [value, storedValue_of_isInt writable.value]

theorem forall₂_holds {pairs : List Pair} {entries : List WrittenEntry}
    (same : List.Forall₂ Matches pairs entries) (writable : ∀ pair ∈ pairs, Writable pair) :
    List.Forall₂ Holds pairs (entries.map WrittenEntry.stored) := by
  induction same with
  | nil => exact .nil
  | cons first others inductionHypothesis =>
      exact .cons (holds_of_matches (writable _ List.mem_cons_self) first)
        (inductionHypothesis fun pair member => writable pair (List.mem_cons_of_mem _ member))

theorem kvStoreGet_cons (entry : KvEntry) (store : KvStore) (key : Bytes) :
    kvStoreGet (entry :: store) key =
      if entry.key = key then some entry.value else kvStoreGet store key := by
  unfold kvStoreGet
  rw [List.find?_cons]
  by_cases same : entry.key = key
  · rw [if_pos same, decide_eq_true same]
    rfl
  · rw [if_neg same, decide_eq_false same]

/-- Keys that no pair has are not found. -/
theorem kvStoreGet_none_of_holds {pairs : List Pair} {store : KvStore}
    (holds : List.Forall₂ Holds pairs store) {key : Bytes} (absent : key ∉ pairs.map Pair.raw) :
    kvStoreGet store key = none := by
  induction holds with
  | nil => rfl
  | cons first others inductionHypothesis =>
      rw [List.map_cons, List.mem_cons, not_or] at absent
      rw [kvStoreGet_cons, first.1, if_neg (Ne.symm absent.1), inductionHypothesis absent.2]

/-- Every pair is found by its key, where the keys are distinct. -/
theorem kvStoreGet_of_holds {pairs : List Pair} {store : KvStore}
    (holds : List.Forall₂ Holds pairs store) (distinct : (pairs.map Pair.raw).Nodup) :
    ∀ pair ∈ pairs, kvStoreGet store pair.raw = some pair.value.number := by
  induction holds with
  | nil => exact fun pair member => absurd member List.not_mem_nil
  | cons first others inductionHypothesis =>
      rw [List.map_cons, List.nodup_cons] at distinct
      intro pair member
      rw [kvStoreGet_cons, first.1]
      rcases List.mem_cons.mp member with rfl | behind
      · rw [if_pos rfl, first.2]
      · have different : _ ≠ pair.raw :=
          (ne_of_mem_of_not_mem (List.mem_map_of_mem behind) distinct.1).symm
        rw [if_neg different]
        exact inductionHypothesis distinct.2 pair behind

/-- Loading inverts writing, over every layout. -/
theorem load_inverts_writing (store : KvStore) {layout : Layout}
    (few : layout.pairs.length ≤ maxEntries) (distinct : (layout.pairs.map Pair.raw).Nodup)
    (writable : ∀ pair ∈ layout.pairs, Writable pair) :
    ∃ loaded, kvStoreLoad store (some layout.text) = .returned 0 loaded ∧
      loaded.length = layout.pairs.length ∧
      (∀ pair ∈ layout.pairs, kvStoreGet loaded pair.raw = some pair.value.number) ∧
      ∀ key, key ∉ layout.pairs.map Pair.raw → kvStoreGet loaded key = none := by
  have scannable : ∀ pair ∈ layout.pairs, Scannable pair := fun pair member =>
    ⟨(writable pair member).no_nul, (writable pair member).no_quote⟩
  obtain ⟨entries, same, loads⟩ := kvStoreLoad_layout scannable store
  have whole : entries.take maxEntries = entries :=
    List.take_of_length_le (same.length_eq ▸ few)
  have holds := forall₂_holds same writable
  rw [whole] at loads
  exact ⟨_, loads, holds.length_eq.symm, kvStoreGet_of_holds holds distinct,
    fun key absent => kvStoreGet_none_of_holds holds absent⟩

def noBlanks : Blanks := ⟨[], List.forall_mem_nil _⟩
def oneBlank : Blanks := ⟨[10], forall_mem_of_all (by decide)⟩

/-- Two pairs, with punctuation in a key. -/
def sampleLayout : Layout where
  lead := noBlanks
  pairs := [⟨oneBlank, ascii "a,:\x7d", noBlanks, oneBlank, .boolean true, ⟨_, .yes⟩, noBlanks⟩,
    ⟨oneBlank, ascii "b", oneBlank, noBlanks, .integer (-(7 : Nat)), ⟨_, .minus 7⟩, noBlanks⟩]
  inner := noBlanks
  trail := oneBlank

theorem sampleLayout_writable : ∀ pair ∈ sampleLayout.pairs, Writable pair := by
  intro pair member
  rcases List.mem_cons.mp member with rfl | last
  · exact ⟨by decide, by decide, by decide, by decide, trivial⟩
  · rw [List.mem_singleton.mp last]
    exact ⟨by decide, by decide, by decide, by decide, by decide, by decide⟩

theorem load_inverts_writing_sample :
    ∃ loaded, kvStoreLoad [] (some sampleLayout.text) = .returned 0 loaded ∧ loaded.length = 2 ∧
      (∀ pair ∈ sampleLayout.pairs, kvStoreGet loaded pair.raw = some pair.value.number) ∧
      ∀ key, key ∉ sampleLayout.pairs.map Pair.raw → kvStoreGet loaded key = none :=
  load_inverts_writing [] (by decide) (by decide) sampleLayout_writable

/-! ### Misread files -/

/-- A member of an object that the store holds. -/
def InStore (store : KvStore) (member : Bytes × Scalar) : Prop :=
  ∃ entry ∈ store, entry.key = member.1 ∧ entry.value = member.2.number

/-- The loader gives -1, or it gives 0 for a flat object all of whose members are
then in the store. -/
def ReadRight (store : KvStore) (content : Bytes) : Prop :=
  (∃ loaded, kvStoreLoad store (some content) = .returned (-1) loaded) ∨
  ∃ loaded members, kvStoreLoad store (some content) = .returned 0 loaded ∧
    FlatObject content members ∧ ∀ member ∈ members, InStore loaded member

/-- A member that stands among the first pairs as the store keeps them. -/
def Fits (layout : Layout) (member : Bytes × Scalar) : Prop :=
  ∃ pair ∈ layout.pairs.take maxEntries,
    storedKey pair.raw = member.1 ∧ (storedValue pair.value).1 = member.2.number

/-- A flat object without a quote inside of a key, all of whose members fit. -/
def Kept (content : Bytes) : Prop :=
  Utf8 content ∧ ∃ layout : Layout, ∃ members, layout.text = content ∧ layout.Means members ∧
    (∀ pair ∈ layout.pairs, 34 ∉ pair.raw) ∧ ∀ member ∈ members, Fits layout member

theorem inStore_iff {pairs : List Pair} {entries : List WrittenEntry}
    (same : List.Forall₂ Matches pairs entries) (member : Bytes × Scalar) :
    InStore (entries.map WrittenEntry.stored) member ↔
      ∃ pair ∈ pairs, storedKey pair.raw = member.1 ∧
        (storedValue pair.value).1 = member.2.number := by
  unfold InStore
  induction same with
  | nil => simp
  | cons first others inductionHypothesis =>
      simp only [List.map_cons, List.mem_cons, exists_eq_or_imp]
      rw [inductionHypothesis, ← first.1, ← first.2]
      rfl

/-- Keys of the store hold no quote. -/
theorem quote_notMem_of_inStore {entries : List WrittenEntry} {member : Bytes × Scalar}
    (inStore : InStore (entries.map WrittenEntry.stored) member) : 34 ∉ member.1 := by
  obtain ⟨entry, stored, key, -⟩ := inStore
  obtain ⟨written, -, rfl⟩ := List.mem_map.mp stored
  rw [← key]
  intro quote
  exact written.written.2.2 (List.mem_of_mem_take quote)

/-- A flat object that is accepted with all its members has no quote in a key. -/
theorem unquoted_of_inStore {layout : Layout} {members : List (Bytes × Scalar)}
    {entries : List WrittenEntry} (means : layout.Means members)
    (inStore : ∀ member ∈ members, InStore (entries.map WrittenEntry.stored) member) :
    ∀ pair ∈ layout.pairs, 34 ∉ pair.raw := by
  intro pair inside quote
  obtain ⟨member, listed, spells, -⟩ := means.exists_member pair inside
  exact quote_notMem_of_inStore (inStore member listed) (spells.quote_mem quote)

theorem scannable_of_means {layout : Layout} {members : List (Bytes × Scalar)}
    (means : layout.Means members) (unquoted : ∀ pair ∈ layout.pairs, 34 ∉ pair.raw) :
    ∀ pair ∈ layout.pairs, Scannable pair := by
  intro pair inside
  obtain ⟨member, -, spells, -⟩ := means.exists_member pair inside
  exact ⟨spells.zero_notMem, unquoted pair inside⟩

/-- What the store of a layout holds. -/
theorem kvStoreLoad_fits {layout : Layout} (scannable : ∀ pair ∈ layout.pairs, Scannable pair)
    (store : KvStore) :
    ∃ loaded, kvStoreLoad store (some layout.text) = .returned 0 loaded ∧
      ∀ member, InStore loaded member ↔ Fits layout member := by
  obtain ⟨entries, same, loads⟩ := kvStoreLoad_layout scannable store
  exact ⟨_, loads, inStore_iff (List.forall₂_take maxEntries same)⟩

/-- A file is read right when it is a flat object without a quote in a key whose
members fit, or when it is refused. -/
theorem readRight_iff (store : KvStore) (content : Bytes) :
    ReadRight store content ↔ Kept content ∨ Refused content := by
  constructor
  · rintro (failed | ⟨loaded, members, accepted, ⟨utf8, layout, rfl, means⟩, inStore⟩)
    · exact Or.inr ((kvStoreLoad_failed_iff store content).mp failed)
    · left
      obtain ⟨-, rfl⟩ := kvStoreLoad_accepted accepted
      have unquoted := unquoted_of_inStore means inStore
      obtain ⟨again, loads, holds⟩ := kvStoreLoad_fits (scannable_of_means means unquoted) store
      rw [accepted] at loads
      injection loads with zero same
      rw [← same] at holds
      exact ⟨utf8, layout, members, rfl, means, unquoted, fun member inside =>
        (holds member).mp (inStore member inside)⟩
  · rintro (⟨utf8, layout, members, rfl, means, unquoted, fits⟩ | refused)
    · obtain ⟨loaded, loads, holds⟩ := kvStoreLoad_fits (scannable_of_means means unquoted) store
      exact Or.inr ⟨loaded, members, loads, ⟨utf8, layout, rfl, means⟩, fun member inside =>
        (holds member).mpr (fits member inside)⟩
    · exact Or.inl ((kvStoreLoad_failed_iff store content).mpr refused)

/-- A literal of one letter moves the cursor beyond the end. -/
theorem not_readRight : ¬ ReadRight [] (ascii "\x7b\"a\":t\x7d") := by
  have beyond : kvStoreLoad [] (some (ascii "\x7b\"a\":t\x7d")) = .beyond := rfl
  rintro (⟨loaded, failed⟩ | ⟨loaded, members, accepted, -⟩)
  · rw [beyond] at failed
    contradiction
  · rw [beyond] at accepted
    contradiction

end MiniMs.Service
