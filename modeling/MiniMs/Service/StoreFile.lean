import MiniMs.Library.Number
import MiniMs.Service.Store

/-!
How a store is loaded from its file.

Owns: `kv_store_load` over the bytes of the file, one round of its loop, and the
same scan as a relation between a text, the entries written in it, and the text
behind them.

The end of a text stands for the NUL at `buf[sz]`, and the cursor is what is left
of the text. A literal that moves the cursor beyond that NUL is an outcome of its
own: nothing is known of what is read there.
-/

namespace MiniMs.Service

open MiniMs.Library.Text MiniMs.Library.Number

/-! ### Entries -/

/-- `MAX_ENTRIES`. -/
def maxEntries : Nat := 256

/-- A value of type `int`. -/
abbrev CInt := {value : Int // -(2 ^ 31) ≤ value ∧ value < 2 ^ 31}

/-- A `long` read as an `int`. -/
def toInt (value : Int) : CInt := ⟨Int.bmod value (2 ^ 32), bmod_range value⟩

theorem one_inRange : -(2 ^ 31) ≤ (1 : Int) ∧ (1 : Int) < 2 ^ 31 := by decide

theorem zero_inRange : -(2 ^ 31) ≤ (0 : Int) ∧ (0 : Int) < 2 ^ 31 := by decide

def trueValue : CInt := ⟨1, one_inRange⟩
def falseValue : CInt := ⟨0, zero_inRange⟩

/-- What can stand between the quotes of a key. -/
abbrev KeyText := {text : Bytes // 0 ∉ text ∧ 34 ∉ text}

/-- An entry as the file writes it: its whole key, and the value read for it. -/
structure WrittenEntry where
  written : KeyText
  value : CInt
deriving DecidableEq

/-- What is stored of a key: the bytes that fit. -/
def storedKey (written : Bytes) : Bytes := written.take (maxKeyLen - 1)

theorem length_storedKey_lt (written : Bytes) : (storedKey written).length < maxKeyLen := by
  have short := List.length_take_le (maxKeyLen - 1) written
  unfold storedKey
  unfold maxKeyLen at short ⊢
  omega

/-- The `kv_entry_t` of an entry. -/
def WrittenEntry.stored (entry : WrittenEntry) : KvEntry where
  key := storedKey entry.written
  value := entry.value
  key_clean member := entry.written.2.1 (List.mem_of_mem_take member)
  key_fits := length_storedKey_lt _
  value_low := entry.value.2.1
  value_high := entry.value.2.2

/-! ### The loops over bytes -/

/-- `*p`. -/
def peek (text : Bytes) : UInt8 := text.headD 0

@[simp] theorem peek_nil : peek [] = 0 := rfl

@[simp] theorem peek_cons (byte : UInt8) (rest : Bytes) : peek (byte :: rest) = byte := rfl

/-- `isspace(*p) || *p == ','`. -/
def isSeparator (byte : UInt8) : Bool := isSpace byte ∨ byte = 44

/-- `*p && *p != stop`. -/
def isBefore (stop byte : UInt8) : Bool := byte ≠ 0 ∧ byte ≠ stop

/-- `while (*p && *p != stop) p++;` -/
def skipTo (stop : UInt8) (text : Bytes) : Bytes := text.dropWhile (isBefore stop)

/-- `if (*p == stop) p++;` -/
def past (stop : UInt8) (text : Bytes) : Bytes := if peek text = stop then text.drop 1 else text

/-- The key whose first byte the cursor is at. -/
def keyText (text : Bytes) : KeyText :=
  ⟨text.takeWhile (isBefore 34), by
    constructor <;> intro member <;> simpa [isBefore] using List.mem_takeWhile_imp member⟩

/-! ### The loader -/

/-- The value at the cursor and the cursor behind it; `none` when that is beyond
the NUL at the end. -/
def loadValue (text : Bytes) : Option (CInt × Bytes) :=
  if peek text = 116 then
    if text.length < 4 then none else some (trueValue, text.drop 4)
  else if peek text = 102 then
    if text.length < 5 then none else some (falseValue, text.drop 5)
  else some (toInt (strtol text), strtolEnd text)

/-- How the part of a round up to the value ends. -/
inductive KeyRound where
  | done
  | failed
  | key (written : KeyText) (value : Bytes)

/-- From the separators to the value. -/
def loadKey (text : Bytes) : KeyRound :=
  let start := text.dropWhile isSeparator
  if peek start = 125 ∨ peek start = 0 then .done
  else if peek start ≠ 34 then .failed
  else
    let key := start.drop 1
    if peek (skipTo 34 key) = 0 then .failed
    else
      .key (keyText key) ((past 58 (skipTo 58 ((skipTo 34 key).drop 1))).dropWhile isSpace)

/-- How a round ends: `break`, `return -1`, beyond the NUL, or with an entry and
the cursor behind it. -/
inductive Round where
  | done
  | failed
  | beyond
  | entry (entry : WrittenEntry) (rest : Bytes)

/-- The body of the loop. -/
def loadRound (text : Bytes) : Round :=
  match loadKey text with
  | .done => .done
  | .failed => .failed
  | .key written value =>
      match loadValue value with
      | none => .beyond
      | some (value, rest) => .entry ⟨written, value⟩ rest

inductive ScanStatus where
  | done
  | failed
  | beyond
deriving DecidableEq, Repr

/-- The loop, with so much room left in `entries`: how it ends, and the entries
it stores. -/
def loadEntries : Nat → Bytes → ScanStatus × List WrittenEntry
  | 0, _ => (.done, [])
  | room + 1, text =>
      if peek text = 0 ∨ peek text = 125 then (.done, [])
      else
        match loadRound text with
        | .done => (.done, [])
        | .failed => (.failed, [])
        | .beyond => (.beyond, [])
        | .entry entry rest => ((loadEntries room rest).1, entry :: (loadEntries room rest).2)

/-- The text behind the first `{`. -/
def openBrace (content : Bytes) : Bytes := past 123 (skipTo 123 content)

/-- What `kv_store_load` leaves: its result and the store, unless the cursor is
beyond the NUL. -/
inductive Loaded where
  | returned (status : Int) (store : KvStore)
  | beyond

/-- `kv_store_load` into a store. `file` is the content of the file, or `none`
when it cannot be opened, held or read. -/
def kvStoreLoad (store : KvStore) (file : Option Bytes) : Loaded :=
  match file with
  | none => .returned (-1) store
  | some content =>
      let scan := loadEntries maxEntries (openBrace content)
      match scan.1 with
      | .done => .returned 0 (scan.2.map WrittenEntry.stored)
      | .failed => .returned (-1) (scan.2.map WrittenEntry.stored)
      | .beyond => .beyond

/-! ### What the loops over bytes skip -/

theorem dropWhile_skipped {pass : UInt8 → Bool} {stretch rest : Bytes}
    (passes : ∀ byte ∈ stretch, pass byte = true) (stops : pass (peek rest) = false) :
    (stretch ++ rest).dropWhile pass = rest := by
  rw [List.dropWhile_append_of_pos passes]
  cases rest with
  | nil => rfl
  | cons byte rest => exact List.dropWhile_cons_of_neg (by simpa using stops)

theorem dropWhile_stopped {pass : UInt8 → Bool} {rest : Bytes} (stops : pass (peek rest) = false) :
    rest.dropWhile pass = rest :=
  dropWhile_skipped (List.forall_mem_nil _) stops

theorem takeWhile_skipped {pass : UInt8 → Bool} {stretch rest : Bytes}
    (passes : ∀ byte ∈ stretch, pass byte = true) (stops : pass (peek rest) = false) :
    (stretch ++ rest).takeWhile pass = stretch := by
  rw [List.takeWhile_append_of_pos passes]
  cases rest with
  | nil => exact List.append_nil _
  | cons byte rest =>
      rw [List.takeWhile_cons_of_neg (by simpa using stops), List.append_nil]

/-- Every text is a skipped stretch and the place where the loop stops. -/
theorem exists_skipped {pass : UInt8 → Bool} (zero : pass 0 = false) (text : Bytes) :
    ∃ stretch rest, text = stretch ++ rest ∧ (∀ byte ∈ stretch, pass byte = true) ∧
      pass (peek rest) = false := by
  refine ⟨text.takeWhile pass, text.dropWhile pass, List.takeWhile_append_dropWhile.symm,
    fun byte member => List.mem_takeWhile_imp member, ?_⟩
  cases shape : text.dropWhile pass with
  | nil => exact zero
  | cons byte rest =>
      have stopped := List.head?_dropWhile_not pass text
      rw [shape] at stopped
      simpa using stopped

theorem isBefore_eq_false_iff (stop byte : UInt8) :
    isBefore stop byte = false ↔ byte = 0 ∨ byte = stop := by
  unfold isBefore
  rw [decide_eq_false_iff_not]
  tauto

theorem isBefore_zero (stop : UInt8) : isBefore stop 0 = false :=
  (isBefore_eq_false_iff stop 0).mpr (Or.inl rfl)

theorem isBefore_self (stop : UInt8) : isBefore stop stop = false :=
  (isBefore_eq_false_iff stop stop).mpr (Or.inr rfl)

/-- A loop stops at the end of a text or a NUL, or at the byte it looks for. -/
theorem stop_cases {stop : UInt8} {rest : Bytes} (stops : isBefore stop (peek rest) = false) :
    peek rest = 0 ∨ ∃ behind, rest = stop :: behind := by
  rcases (isBefore_eq_false_iff stop _).mp stops with ended | found
  · exact Or.inl ended
  · cases rest with
    | nil => exact Or.inl rfl
    | cons byte behind =>
        right
        use behind
        rw [← (show byte = stop from found)]

theorem isSpace_zero : isSpace 0 = false := by decide

theorem isSeparator_zero : isSeparator 0 = false := by decide

/-! ### The texts that a round reads -/

/-- From the separators to the value: a key in quotes, and whatever stands up to
the first colon behind it, or up to the end. -/
inductive KeyAt : Bytes → KeyText → Bytes → Prop where
  | colon {gap between blanks value : Bytes} {written : KeyText}
      (separators : ∀ byte ∈ gap, isSeparator byte = true)
      (before_colon : ∀ byte ∈ between, isBefore 58 byte = true)
      (spaces : ∀ byte ∈ blanks, isSpace byte = true) (solid : isSpace (peek value) = false) :
      KeyAt (gap ++ 34 :: (written.1 ++ 34 :: (between ++ 58 :: (blanks ++ value)))) written value
  | noColon {gap between rest : Bytes} {written : KeyText}
      (separators : ∀ byte ∈ gap, isSeparator byte = true)
      (before_colon : ∀ byte ∈ between, isBefore 58 byte = true) (ended : peek rest = 0) :
      KeyAt (gap ++ 34 :: (written.1 ++ 34 :: (between ++ rest))) written rest

/-- A value as the loader reads it: `t` and three bytes, `f` and four, or what
`strtol` makes of the text. -/
inductive ValueAt : Bytes → CInt → Bytes → Prop where
  | affirmed {letters rest : Bytes} (length : letters.length = 3) :
      ValueAt (116 :: (letters ++ rest)) trueValue rest
  | denied {letters rest : Bytes} (length : letters.length = 4) :
      ValueAt (102 :: (letters ++ rest)) falseValue rest
  | number {text : Bytes} (plain : peek text ≠ 116 ∧ peek text ≠ 102) :
      ValueAt text (toInt (strtol text)) (strtolEnd text)

/-- A literal that ends before its letters do. -/
inductive ShortLiteral : Bytes → Prop where
  | affirmed {letters : Bytes} (short : letters.length < 3) : ShortLiteral (116 :: letters)
  | denied {letters : Bytes} (short : letters.length < 4) : ShortLiteral (102 :: letters)

/-- An entry, and the text behind it. -/
def EntryAt (text : Bytes) (entry : WrittenEntry) (rest : Bytes) : Prop :=
  ∃ value, KeyAt text entry.written value ∧ ValueAt value entry.value rest

/-- An entry whose value is a literal that the text cuts off. -/
def CutAt (text : Bytes) : Prop := ∃ written value, KeyAt text written value ∧ ShortLiteral value

/-- Nothing but separators up to a brace or the end. -/
def EndsAt (text : Bytes) : Prop :=
  ∃ gap rest, text = gap ++ rest ∧ (∀ byte ∈ gap, isSeparator byte = true) ∧
    (peek rest = 125 ∨ peek rest = 0)

/-- A byte that begins no entry and ends no object, or a key without its closing
quote. -/
inductive FaultAt : Bytes → Prop where
  | foreign {gap rest : Bytes} {byte : UInt8} (separators : ∀ byte ∈ gap, isSeparator byte = true)
      (other : isSeparator byte = false ∧ byte ≠ 125 ∧ byte ≠ 0 ∧ byte ≠ 34) :
      FaultAt (gap ++ byte :: rest)
  | unclosed {gap key rest : Bytes} (separators : ∀ byte ∈ gap, isSeparator byte = true)
      (inside : ∀ byte ∈ key, isBefore 34 byte = true) (ended : peek rest = 0) :
      FaultAt (gap ++ 34 :: (key ++ rest))

/-! ### A round by its text -/

/-- The bytes of a key are in front of the quote that closes it. -/
theorem isBefore_of_mem_key (written : KeyText) :
    ∀ byte ∈ written.1, isBefore 34 byte = true := by
  intro byte member
  unfold isBefore
  rw [decide_eq_true_iff]
  exact ⟨ne_of_mem_of_not_mem member written.2.1, ne_of_mem_of_not_mem member written.2.2⟩

theorem keyText_eq {rest : Bytes} (written : KeyText) (stops : isBefore 34 (peek rest) = false) :
    keyText (written.1 ++ rest) = written :=
  Subtype.ext (takeWhile_skipped (isBefore_of_mem_key written) stops)

theorem past_self (stop : UInt8) (rest : Bytes) : past stop (stop :: rest) = rest := if_pos rfl

theorem past_of_ne {stop : UInt8} {text : Bytes} (other : peek text ≠ stop) : past stop text = text :=
  if_neg other

/-- What stands behind separators decides how a key is read. -/
theorem loadKey_skip {gap start : Bytes} (separators : ∀ byte ∈ gap, isSeparator byte = true)
    (solid : isSeparator (peek start) = false) : loadKey (gap ++ start) = loadKey start := by
  unfold loadKey
  rw [dropWhile_skipped separators solid, dropWhile_stopped solid]

theorem quote_solid {rest : Bytes} : isSeparator (peek (34 :: rest)) = false := by
  rw [peek_cons]
  decide

theorem loadKey_unclosed {key rest : Bytes} (inside : ∀ byte ∈ key, isBefore 34 byte = true)
    (ended : peek rest = 0) : loadKey (34 :: (key ++ rest)) = .failed := by
  have stops : isBefore 34 (peek rest) = false := by
    rw [ended]
    exact isBefore_zero 34
  have search : skipTo 34 (key ++ rest) = rest := dropWhile_skipped inside stops
  have start : (34 :: (key ++ rest)).dropWhile isSeparator = 34 :: (key ++ rest) :=
    List.dropWhile_cons_of_neg (by decide)
  unfold loadKey
  rw [start]
  dsimp only
  rw [if_neg (by simp), if_neg (by simp), List.drop_one, List.tail_cons, search, if_pos ended]

theorem loadKey_closed (written : KeyText) (behind : Bytes) :
    loadKey (34 :: (written.1 ++ 34 :: behind)) =
      .key written ((past 58 (skipTo 58 behind)).dropWhile isSpace) := by
  have stops : isBefore 34 (peek (34 :: behind)) = false := isBefore_self 34
  have search : skipTo 34 (written.1 ++ 34 :: behind) = 34 :: behind :=
    dropWhile_skipped (isBefore_of_mem_key written) stops
  have start : (34 :: (written.1 ++ 34 :: behind)).dropWhile isSeparator =
      34 :: (written.1 ++ 34 :: behind) :=
    List.dropWhile_cons_of_neg (by decide)
  unfold loadKey
  rw [start]
  dsimp only
  rw [if_neg (by simp), if_neg (by simp), List.drop_one, List.tail_cons, search,
    if_neg (by simp), keyText_eq written stops, List.drop_one, List.tail_cons]

theorem loadKey_of_keyAt {text value : Bytes} {written : KeyText} (key : KeyAt text written value) :
    loadKey text = .key written value := by
  cases key with
  | @colon gap between blanks value written separators before_colon spaces solid =>
      have search : skipTo 58 (between ++ 58 :: (blanks ++ value)) = 58 :: (blanks ++ value) :=
        dropWhile_skipped before_colon (isBefore_self 58)
      rw [loadKey_skip separators quote_solid, loadKey_closed, search, past_self,
        dropWhile_skipped spaces solid]
  | @noColon gap between rest written separators before_colon ended =>
      have stops : isBefore 58 (peek value) = false := by
        rw [ended]
        exact isBefore_zero 58
      have search : skipTo 58 (between ++ value) = value := dropWhile_skipped before_colon stops
      have other : peek value ≠ 58 := by
        rw [ended]
        decide
      have solid : isSpace (peek value) = false := by
        rw [ended]
        exact isSpace_zero
      rw [loadKey_skip separators quote_solid, loadKey_closed, search, past_of_ne other,
        dropWhile_stopped solid]

theorem loadKey_of_faultAt {text : Bytes} (fault : FaultAt text) : loadKey text = .failed := by
  cases fault with
  | @foreign gap rest byte separators other =>
      obtain ⟨solid, brace, zero, quote⟩ := other
      have start : isSeparator (peek (byte :: rest)) = false := solid
      rw [loadKey_skip separators start]
      unfold loadKey
      rw [List.dropWhile_cons_of_neg (by simp [solid])]
      dsimp only
      rw [peek_cons, if_neg (not_or.mpr ⟨brace, zero⟩), if_pos quote]
  | unclosed separators inside ended =>
      rw [loadKey_skip separators quote_solid, loadKey_unclosed inside ended]

theorem loadKey_of_endsAt {text : Bytes} (ends : EndsAt text) : loadKey text = .done := by
  obtain ⟨gap, rest, rfl, separators, brace⟩ := ends
  have solid : isSeparator (peek rest) = false := by
    rcases brace with closing | ended
    · rw [closing]
      decide
    · rw [ended]
      exact isSeparator_zero
  rw [loadKey_skip separators solid]
  unfold loadKey
  rw [dropWhile_stopped solid]
  exact if_pos brace

theorem loadValue_of_valueAt {text rest : Bytes} {value : CInt} (read : ValueAt text value rest) :
    loadValue text = some (value, rest) := by
  cases read with
  | @affirmed letters rest length =>
      unfold loadValue
      rw [peek_cons, if_pos rfl, if_neg (by simp [length]), List.drop_succ_cons, ← length,
        List.drop_left]
  | @denied letters rest length =>
      unfold loadValue
      rw [peek_cons, if_neg (by decide), if_pos rfl, if_neg (by simp [length]),
        List.drop_succ_cons, ← length, List.drop_left]
  | number plain =>
      unfold loadValue
      rw [if_neg plain.1, if_neg plain.2]

theorem loadValue_of_short {text : Bytes} (short : ShortLiteral text) : loadValue text = none := by
  cases short with
  | @affirmed letters short =>
      have cut : (116 :: letters).length < 4 := Nat.succ_lt_succ short
      unfold loadValue
      rw [peek_cons, if_pos rfl, if_pos cut]
  | @denied letters short =>
      have cut : (102 :: letters).length < 5 := Nat.succ_lt_succ short
      unfold loadValue
      rw [peek_cons, if_neg (by decide), if_pos rfl, if_pos cut]

theorem loadRound_of_entryAt {text rest : Bytes} {entry : WrittenEntry}
    (found : EntryAt text entry rest) : loadRound text = .entry entry rest := by
  obtain ⟨value, key, read⟩ := found
  unfold loadRound
  rw [loadKey_of_keyAt key]
  dsimp only
  rw [loadValue_of_valueAt read]

theorem loadRound_of_cutAt {text : Bytes} (cut : CutAt text) : loadRound text = .beyond := by
  obtain ⟨written, value, key, short⟩ := cut
  unfold loadRound
  rw [loadKey_of_keyAt key]
  dsimp only
  rw [loadValue_of_short short]

theorem loadRound_of_faultAt {text : Bytes} (fault : FaultAt text) : loadRound text = .failed := by
  unfold loadRound
  rw [loadKey_of_faultAt fault]

theorem loadRound_of_endsAt {text : Bytes} (ends : EndsAt text) : loadRound text = .done := by
  unfold loadRound
  rw [loadKey_of_endsAt ends]

/-! ### Every text is one of the four -/

theorem value_cases (text : Bytes) : (∃ value rest, ValueAt text value rest) ∨ ShortLiteral text := by
  cases text with
  | nil => exact Or.inl ⟨_, _, .number (by decide)⟩
  | cons byte letters =>
      by_cases affirmed : byte = 116
      · rw [affirmed]
        by_cases short : letters.length < 3
        · exact Or.inr (.affirmed short)
        · have three : (letters.take 3).length = 3 := List.length_take_of_le (Nat.le_of_not_lt short)
          have split := @ValueAt.affirmed _ (letters.drop 3) three
          rw [List.take_append_drop] at split
          exact Or.inl ⟨_, _, split⟩
      · by_cases denied : byte = 102
        · rw [denied]
          by_cases short : letters.length < 4
          · exact Or.inr (.denied short)
          · have four : (letters.take 4).length = 4 :=
              List.length_take_of_le (Nat.le_of_not_lt short)
            have split := @ValueAt.denied _ (letters.drop 4) four
            rw [List.take_append_drop] at split
            exact Or.inl ⟨_, _, split⟩
        · exact Or.inl ⟨_, _, .number ⟨affirmed, denied⟩⟩

/-- Behind the quote that closes a key there is always a value to be read. -/
theorem exists_keyAt {gap : Bytes} (separators : ∀ byte ∈ gap, isSeparator byte = true)
    (written : KeyText) (behind : Bytes) :
    ∃ value, KeyAt (gap ++ 34 :: (written.1 ++ 34 :: behind)) written value := by
  obtain ⟨between, rest, rfl, before_colon, stops⟩ := exists_skipped (isBefore_zero 58) behind
  rcases stop_cases stops with ended | ⟨behind, rfl⟩
  · exact ⟨rest, .noColon separators before_colon ended⟩
  · obtain ⟨blanks, value, rfl, spaces, solid⟩ := exists_skipped isSpace_zero behind
    exact ⟨value, .colon separators before_colon spaces solid⟩

theorem key_cases (text : Bytes) :
    (∃ written value, KeyAt text written value) ∨ FaultAt text ∨ EndsAt text := by
  obtain ⟨gap, start, rfl, separators, solid⟩ := exists_skipped isSeparator_zero text
  by_cases ended : peek start = 125 ∨ peek start = 0
  · exact Or.inr (Or.inr ⟨gap, start, rfl, separators, ended⟩)
  · cases start with
    | nil => exact absurd (Or.inr rfl) ended
    | cons byte rest =>
        obtain ⟨brace, zero⟩ := not_or.mp ended
        by_cases quote : byte = 34
        · obtain ⟨key, behind, rfl, inside, stops⟩ := exists_skipped (isBefore_zero 34) rest
          rw [quote]
          rcases stop_cases stops with open_ | ⟨behind, rfl⟩
          · exact Or.inr (Or.inl (.unclosed separators inside open_))
          · have clean : 0 ∉ key ∧ 34 ∉ key := by
              constructor
              · intro member
                exact absurd (inside 0 member) (by decide)
              · intro member
                exact absurd (inside 34 member) (by decide)
            have closed := exists_keyAt separators ⟨key, clean⟩ behind
            exact Or.inl ⟨_, closed⟩
        · exact Or.inr (Or.inl (.foreign separators ⟨solid, brace, zero, quote⟩))

theorem round_cases (text : Bytes) :
    (∃ entry rest, EntryAt text entry rest) ∨ CutAt text ∨ FaultAt text ∨ EndsAt text := by
  rcases key_cases text with ⟨written, value, key⟩ | fault | ends
  · rcases value_cases value with ⟨number, rest, read⟩ | short
    · exact Or.inl ⟨⟨written, number⟩, rest, value, key, read⟩
    · exact Or.inr (Or.inl ⟨written, value, key, short⟩)
  · exact Or.inr (Or.inr (Or.inl fault))
  · exact Or.inr (Or.inr (Or.inr ends))

/-! ### The loop -/

/-- Entries one after the other, and the text behind them. -/
inductive Skims : List WrittenEntry → Bytes → Bytes → Prop where
  | nil {text : Bytes} : Skims [] text text
  | cons {entry : WrittenEntry} {entries : List WrittenEntry} {text rest behind : Bytes}
      (first : EntryAt text entry rest) (others : Skims entries rest behind) :
      Skims (entry :: entries) text behind

/-- The test of the loop says no more than the first test of a round. -/
theorem loadEntries_succ (room : Nat) (text : Bytes) :
    loadEntries (room + 1) text =
      match loadRound text with
      | .done => (.done, [])
      | .failed => (.failed, [])
      | .beyond => (.beyond, [])
      | .entry entry rest =>
          ((loadEntries room rest).1, entry :: (loadEntries room rest).2) := by
  rw [loadEntries]
  by_cases ended : peek text = 0 ∨ peek text = 125
  · have ends : EndsAt text := ⟨[], text, rfl, List.forall_mem_nil _, ended.symm⟩
    rw [if_pos ended, loadRound_of_endsAt ends]
  · rw [if_neg ended]

/-- The loop over entries: as many of them as there is room for, and then the
text behind them. -/
theorem loadEntries_of_skims {entries : List WrittenEntry} {text behind : Bytes}
    (skims : Skims entries text behind) (room : Nat) :
    loadEntries room text =
      ((loadEntries (room - entries.length) behind).1,
        entries.take room ++ (loadEntries (room - entries.length) behind).2) := by
  induction skims generalizing room with
  | nil => rw [List.length_nil, Nat.sub_zero, List.take_nil, List.nil_append]
  | @cons entry entries text rest behind first others inductionHypothesis =>
      cases room with
      | zero =>
          rw [Nat.zero_sub, List.take_zero, List.nil_append]
          rfl
      | succ room =>
          rw [loadEntries_succ, loadRound_of_entryAt first]
          dsimp only
          rw [inductionHypothesis room, List.length_cons, Nat.add_sub_add_right,
            List.take_succ_cons, List.cons_append]

/-- How the loop can end behind some entries. -/
inductive Stops (room : Nat) (entries : List WrittenEntry) (behind : Bytes) : ScanStatus → Prop where
  | full (all : entries.length = room) : Stops room entries behind .done
  | ended (few : entries.length < room) (ends : EndsAt behind) : Stops room entries behind .done
  | failed (few : entries.length < room) (fault : FaultAt behind) :
      Stops room entries behind .failed
  | beyond (few : entries.length < room) (cut : CutAt behind) : Stops room entries behind .beyond

theorem Stops.cons {room : Nat} {entries : List WrittenEntry} {behind : Bytes} {status : ScanStatus}
    (stops : Stops room entries behind status) (entry : WrittenEntry) :
    Stops (room + 1) (entry :: entries) behind status := by
  cases stops with
  | full all => exact .full (congrArg Nat.succ all)
  | ended few ends => exact .ended (Nat.succ_lt_succ few) ends
  | failed few fault => exact .failed (Nat.succ_lt_succ few) fault
  | beyond few cut => exact .beyond (Nat.succ_lt_succ few) cut

theorem Stops.length_le {room : Nat} {entries : List WrittenEntry} {behind : Bytes}
    {status : ScanStatus} (stops : Stops room entries behind status) : entries.length ≤ room := by
  cases stops with
  | full all => exact Nat.le_of_eq all
  | ended few ends => exact Nat.le_of_lt few
  | failed few fault => exact Nat.le_of_lt few
  | beyond few cut => exact Nat.le_of_lt few

/-- Every run of the loop skims the entries that it stores, and stops for one of
these reasons. -/
theorem loadEntries_stops (room : Nat) (text : Bytes) :
    ∃ behind, Skims (loadEntries room text).2 text behind ∧
      Stops room (loadEntries room text).2 behind (loadEntries room text).1 := by
  induction room generalizing text with
  | zero => exact ⟨text, .nil, .full rfl⟩
  | succ room inductionHypothesis =>
      rw [loadEntries_succ]
      rcases round_cases text with ⟨entry, rest, found⟩ | cut | fault | ends
      · obtain ⟨behind, skims, stops⟩ := inductionHypothesis rest
        rw [loadRound_of_entryAt found]
        exact ⟨behind, .cons found skims, stops.cons entry⟩
      · rw [loadRound_of_cutAt cut]
        exact ⟨text, .nil, .beyond (Nat.succ_pos room) cut⟩
      · rw [loadRound_of_faultAt fault]
        exact ⟨text, .nil, .failed (Nat.succ_pos room) fault⟩
      · rw [loadRound_of_endsAt ends]
        exact ⟨text, .nil, .ended (Nat.succ_pos room) ends⟩

/-- The reason decides how the loop ends, and what it stores. -/
theorem loadEntries_of_stops {room : Nat} {entries : List WrittenEntry} {text behind : Bytes}
    {status : ScanStatus} (skims : Skims entries text behind)
    (stops : Stops room entries behind status) : loadEntries room text = (status, entries) := by
  have last : loadEntries (room - entries.length) behind = (status, []) := by
    cases stops with
    | full all =>
        rw [all, Nat.sub_self]
        rfl
    | ended few ends =>
        obtain ⟨left, more⟩ := Nat.exists_eq_succ_of_ne_zero (Nat.sub_ne_zero_of_lt few)
        rw [more, loadEntries_succ, loadRound_of_endsAt ends]
    | failed few fault =>
        obtain ⟨left, more⟩ := Nat.exists_eq_succ_of_ne_zero (Nat.sub_ne_zero_of_lt few)
        rw [more, loadEntries_succ, loadRound_of_faultAt fault]
    | beyond few cut =>
        obtain ⟨left, more⟩ := Nat.exists_eq_succ_of_ne_zero (Nat.sub_ne_zero_of_lt few)
        rw [more, loadEntries_succ, loadRound_of_cutAt cut]
  rw [loadEntries_of_skims skims, last, List.take_of_length_le stops.length_le,
    List.append_nil]

/-! ### The whole file -/

/-- The text behind the first brace of a file; nothing in front of it is a NUL. -/
def Opens (content text : Bytes) : Prop :=
  ∃ front, content = front ++ 123 :: text ∧ ∀ byte ∈ front, isBefore 123 byte = true

theorem openBrace_of_opens {content text : Bytes} (opens : Opens content text) :
    openBrace content = text := by
  obtain ⟨front, rfl, before⟩ := opens
  have search : skipTo 123 (front ++ 123 :: text) = 123 :: text :=
    dropWhile_skipped before (isBefore_self 123)
  unfold openBrace
  rw [search, past_self]

/-- Without a brace the cursor stops at the end or at a NUL. -/
theorem opens_or_ends (content : Bytes) :
    Opens content (openBrace content) ∨ (¬ ∃ text, Opens content text) ∧ EndsAt (openBrace content) := by
  obtain ⟨front, rest, rfl, before, stops⟩ := exists_skipped (isBefore_zero 123) content
  rcases stop_cases stops with ended | ⟨behind, rfl⟩
  · right
    have search : skipTo 123 (front ++ rest) = rest := dropWhile_skipped before stops
    have other : peek rest ≠ 123 := by
      rw [ended]
      decide
    have brace : openBrace (front ++ rest) = rest := by
      unfold openBrace
      rw [search, past_of_ne other]
    constructor
    · rintro ⟨text, start, shape, before'⟩
      have found : skipTo 123 (front ++ rest) = 123 :: text := by
        rw [shape]
        exact dropWhile_skipped before' (isBefore_self 123)
      rw [search] at found
      rw [found] at other
      exact other rfl
    · rw [brace]
      exact ⟨[], rest, rfl, List.forall_mem_nil _, Or.inr ended⟩
  · left
    have opens : Opens (front ++ 123 :: behind) behind := ⟨front, rfl, before⟩
    rw [openBrace_of_opens opens]
    exact opens

/-- A file that the loader refuses: behind fewer entries than there is room for
comes a byte that belongs nowhere, or a key without its closing quote. -/
def Refused (content : Bytes) : Prop :=
  ∃ text entries behind, Opens content text ∧ Skims entries text behind ∧
    entries.length < maxEntries ∧ FaultAt behind

theorem loadEntries_failed_iff (content : Bytes) :
    (loadEntries maxEntries (openBrace content)).1 = .failed ↔ Refused content := by
  constructor
  · intro failed
    obtain ⟨behind, skims, stops⟩ := loadEntries_stops maxEntries (openBrace content)
    rw [failed] at stops
    cases stops with
    | failed few fault =>
        rcases opens_or_ends content with opens | ⟨-, ends⟩
        · exact ⟨_, _, behind, opens, skims, few, fault⟩
        · have stops : Stops maxEntries [] (openBrace content) .done := .ended (by decide) ends
          have done := loadEntries_of_stops .nil stops
          rw [done] at failed
          contradiction
  · rintro ⟨text, entries, behind, opens, skims, few, fault⟩
    rw [openBrace_of_opens opens, loadEntries_of_stops skims (.failed few fault)]

/-- -1 is the result for the files that are refused, and for those alone. -/
theorem kvStoreLoad_failed_iff (store : KvStore) (content : Bytes) :
    (∃ loaded, kvStoreLoad store (some content) = .returned (-1) loaded) ↔ Refused content := by
  rw [← loadEntries_failed_iff]
  unfold kvStoreLoad
  dsimp only
  cases (loadEntries maxEntries (openBrace content)).1 with
  | done => simp
  | failed => simp
  | beyond => simp

/-- 0 is the result with the entries that the loop stores. -/
theorem kvStoreLoad_accepted {store loaded : KvStore} {content : Bytes}
    (accepted : kvStoreLoad store (some content) = .returned 0 loaded) :
    (loadEntries maxEntries (openBrace content)).1 = .done ∧
      loaded = (loadEntries maxEntries (openBrace content)).2.map WrittenEntry.stored := by
  unfold kvStoreLoad at accepted
  dsimp only at accepted
  cases status : (loadEntries maxEntries (openBrace content)).1 with
  | done =>
      rw [status] at accepted
      injection accepted with zero same
      exact ⟨rfl, same.symm⟩
  | failed =>
      rw [status] at accepted
      injection accepted with negative
      contradiction
  | beyond =>
      rw [status] at accepted
      contradiction

end MiniMs.Service
