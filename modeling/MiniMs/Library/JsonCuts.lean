import MiniMs.Library.JsonExtent

/-!
What `json.loads` raises on a text that is cut off.

Owns: the two kinds of its exceptions, which of them the scanner raises where it
reads nothing, and the theorem that a front of an object text raises the
`ValueError` of `int()` exactly if it ends in an integer of more than 4300
digits that is outside of every string.

The limit on nested containers is left out: a front nests no deeper than the
whole text.
-/

namespace MiniMs.Library.Json

open MiniMs.Library.Text

/-! ### Errors -/

/-- What `json.loads` raises: `JSONDecodeError`, or a `ValueError` that is not one. -/
inductive LoadsError where
  | decode
  | value
deriving DecidableEq

/-- What a number raises that is not read. Without digits it is no number, and
with too many `int()` raises. -/
def numberError (text : PyStr) : LoadsError :=
  let sign : PyStr := if text.head? = some 45 then [45] else []
  match scanInteger (text.drop sign.length) with
  | none => .decode
  | some _ => .value

section Errors

variable (float : PyStr → Numeral)

mutual

/-- What `scan_once` raises where it reads nothing. -/
def scanOnceError : Nat → PyStr → LoadsError
  | 0, _ => .decode
  | _ + 1, [] => .decode
  | fuel + 1, point :: rest =>
      if point.val = 34 then .decode
      else if point.val = 123 then scanMembersError fuel (skipSpace rest)
      else if point.val = 91 then scanItemsError fuel (skipSpace rest)
      else numberError (point :: rest)

/-- What the members of an object raise, from a key on. -/
def scanMembersError : Nat → PyStr → LoadsError
  | 0, _ => .decode
  | _ + 1, [] => .decode
  | fuel + 1, quote :: rest =>
      if quote.val = 34 then
        match scanString fuel rest with
        | none => .decode
        | some (_, rest) =>
            match skipSpace rest with
            | [] => .decode
            | colon :: rest =>
                if colon.val = 58 then
                  match scanOnce float fuel (skipSpace rest) with
                  | none => scanOnceError fuel (skipSpace rest)
                  | some (_, rest) =>
                      match skipSpace rest with
                      | [] => .decode
                      | next :: rest =>
                          if next.val = 44 then scanMembersError fuel (skipSpace rest)
                          else .decode
                else .decode
      else .decode

/-- What the items of an array raise. -/
def scanItemsError : Nat → PyStr → LoadsError
  | 0, _ => .decode
  | fuel + 1, text =>
      match scanOnce float fuel text with
      | none => scanOnceError fuel text
      | some (_, rest) =>
          match skipSpace rest with
          | [] => .decode
          | next :: rest =>
              if next.val = 44 then scanItemsError fuel (skipSpace rest) else .decode

end

/-- What `json.loads` raises on a text without a value. A byte order mark and
characters behind the value are `JSONDecodeError`. Where brackets stay open one
character can take two of the fuel. -/
def loadsError (text : PyStr) : LoadsError :=
  if text.head? = some 0xfeff then .decode
  else
    match scanOnce float (text.length + 1) (skipSpace text) with
    | none => scanOnceError float (2 * text.length) (skipSpace text)
    | some _ => .decode

end Errors

/-! ### Where a text stands -/

/-- Where a text stands between quotation marks. -/
inductive Place where
  | outside
  | inside
  | escaped
deriving DecidableEq

def Place.after : Place → CodePoint → Place
  | .outside, point => if point.val = 34 then .inside else .outside
  | .inside, point =>
      if point.val = 34 then .outside else if point.val = 92 then .escaped else .inside
  | .escaped, _ => .inside

/-- A text that leaves no string open. -/
def Closed (text : PyStr) : Prop := text.foldl Place.after .outside = .outside

instance (text : PyStr) : Decidable (Closed text) := by
  unfold Closed
  infer_instance

/-- The characters of a number. -/
def isNumberPoint (point : CodePoint) : Bool :=
  isDigit point ∨ point.val = 43 ∨ point.val = 45 ∨ point.val = 46 ∨ point.val = 69 ∨ point.val = 101

/-- The characters of a number at the end of a text. -/
def lastWord (text : PyStr) : PyStr := text.rtakeWhile isNumberPoint

/-- An integer that `int()` refuses, with no fraction or exponent behind it. -/
def LongInteger (text : PyStr) : Prop :=
  let sign : PyStr := if text.head? = some 45 then [45] else []
  ∃ integer ∈ scanInteger (text.drop sign.length), 4300 < integer.1.length ∧
    (scanFraction integer.2).1 = [] ∧ (scanExponent (scanFraction integer.2).2).1 = []

/-- A text that ends, outside of every string, in such an integer. -/
def Overlong (text : PyStr) : Prop := Closed text ∧ LongInteger (lastWord text)

theorem closed_append {front back : PyStr} (closed : Closed front) :
    Closed (front ++ back) ↔ Closed back := by
  unfold Closed at closed ⊢
  rw [List.foldl_append, closed]

theorem closed_of_noQuote {text : PyStr} (plain : ∀ point ∈ text, point.val ≠ 34) : Closed text := by
  induction text with
  | nil => rfl
  | cons point text inductionHypothesis =>
      have one : Closed [point] := if_neg (plain point List.mem_cons_self)
      have later := inductionHypothesis fun other member =>
        plain other (List.mem_cons_of_mem _ member)
      exact (@closed_append [point] text one).mpr later

theorem closed_blanks {blanks : PyStr} (blank : ∀ point ∈ blanks, Blank point) : Closed blanks := by
  apply closed_of_noQuote
  intro point member quote
  have space := blank point member
  unfold Blank at space
  omega

theorem not_isNumberPoint_of_blank {point : CodePoint} (blank : Blank point) :
    isNumberPoint point = false := by
  unfold Blank at blank
  unfold isNumberPoint isDigit
  simp only [decide_eq_true_eq, decide_eq_false_iff_not]
  omega

/-- Only what is behind the last other character is the word. -/
theorem lastWord_behind {stop : CodePoint} (foreign : isNumberPoint stop = false)
    (front back : PyStr) : lastWord (front ++ stop :: back) = lastWord back := by
  unfold lastWord
  induction back using List.reverseRecOn with
  | nil =>
      have stops : ¬ isNumberPoint stop = true := by rw [foreign]; decide
      rw [List.rtakeWhile_concat, if_neg stops, List.rtakeWhile_nil]
  | append_singleton back last inductionHypothesis =>
      rw [← List.cons_append, ← List.append_assoc, List.rtakeWhile_concat, List.rtakeWhile_concat,
        inductionHypothesis]

theorem not_longInteger_nil : ¬ LongInteger [] := by
  rintro ⟨integer, read, -⟩
  contradiction

theorem not_overlong_nil : ¬ Overlong [] := fun overlong => not_longInteger_nil overlong.2

/-- A front that closes its strings and ends in no number has no part in it. -/
theorem overlong_behind {front : PyStr} {stop : CodePoint} (closed : Closed (front ++ [stop]))
    (foreign : isNumberPoint stop = false) (back : PyStr) :
    Overlong (front ++ stop :: back) ↔ Overlong back := by
  unfold Overlong
  rw [lastWord_behind foreign]
  have split : front ++ stop :: back = front ++ [stop] ++ back := by simp
  rw [split, closed_append closed]

theorem overlong_blanks {blanks : PyStr} (blank : ∀ point ∈ blanks, Blank point) (back : PyStr) :
    Overlong (blanks ++ back) ↔ Overlong back := by
  induction blanks with
  | nil => rfl
  | cons point blanks inductionHypothesis =>
      obtain ⟨space, later⟩ := List.forall_mem_cons.mp blank
      have closed : Closed ([] ++ [point]) :=
        closed_blanks (List.forall_mem_cons.mpr ⟨space, List.forall_mem_nil _⟩)
      rw [← inductionHypothesis later]
      exact overlong_behind closed (not_isNumberPoint_of_blank space) _

theorem not_overlong_blanks {blanks : PyStr} (blank : ∀ point ∈ blanks, Blank point) :
    ¬ Overlong blanks := by
  have none := overlong_blanks blank []
  rw [List.append_nil] at none
  exact fun overlong => not_overlong_nil (none.mp overlong)

/-! ### Strings -/

/-- No front of a text closes the string that is open at a place, and the text
ends in the middle of it. -/
def Inside (place : Place) (text : PyStr) : Prop :=
  (∀ front, front <+: text → front.foldl Place.after place ≠ .outside) ∧
    text.foldl Place.after place = .inside

theorem inside_nil : Inside .inside [] := by
  refine ⟨fun front within => ?_, rfl⟩
  rw [List.prefix_nil.mp within]
  decide

theorem Inside.cons {place : Place} {point : CodePoint} {text : PyStr} (opened : place ≠ .outside)
    (later : Inside (place.after point) text) : Inside place (point :: text) := by
  refine ⟨fun front within => ?_, later.2⟩
  cases front with
  | nil => exact opened
  | cons other front =>
      obtain ⟨rfl, behind⟩ := List.cons_prefix_cons.mp within
      exact later.1 front behind

theorem Inside.append {place : Place} {front back : PyStr} (first : Inside place front)
    (second : Inside .inside back) : Inside place (front ++ back) := by
  induction front generalizing place with
  | nil =>
      obtain rfl : place = .inside := first.2
      exact second
  | cons point front inductionHypothesis =>
      have opened : place ≠ .outside := first.1 [] List.nil_prefix
      have later : Inside (place.after point) front :=
        ⟨fun inner within => first.1 (point :: inner) (List.cons_prefix_cons.mpr ⟨rfl, within⟩),
          first.2⟩
      exact (inductionHypothesis later).cons opened

/-- A character that is neither a quotation mark nor a backslash. -/
def Plain (point : CodePoint) : Prop := point.val ≠ 34 ∧ point.val ≠ 92

theorem Inside.plain {point : CodePoint} {text : PyStr} (plain : Plain point)
    (later : Inside .inside text) : Inside .inside (point :: text) := by
  have same : Place.inside.after point = .inside := by
    show (if point.val = 34 then Place.outside else if point.val = 92 then Place.escaped
      else Place.inside) = Place.inside
    rw [if_neg plain.1, if_neg plain.2]
  apply Inside.cons (by decide)
  rwa [same]

theorem inside_of_plain {text : PyStr} (plain : ∀ point ∈ text, Plain point) :
    Inside .inside text := by
  induction text with
  | nil => exact inside_nil
  | cons point text inductionHypothesis =>
      obtain ⟨first, later⟩ := List.forall_mem_cons.mp plain
      exact (inductionHypothesis later).plain first

theorem plain_of_hexValue {point : CodePoint} {digit : Nat} (read : hexValue point = some digit) :
    Plain point := by
  constructor
  · intro quote
    obtain rfl : point = 34 := Fin.ext quote
    contradiction
  · intro backslash
    obtain rfl : point = 92 := Fin.ext backslash
    contradiction

theorem codeUnit_plain {text rest : PyStr} {unit : Fin 0x10000}
    (read : codeUnit text = some (unit, rest)) :
    ∃ used, text = used ++ rest ∧ ∀ point ∈ used, Plain point := by
  unfold codeUnit at read
  split at read
  · rename_i first second third fourth behind
    simp only [Option.bind_eq_bind, Option.bind_eq_some_iff] at read
    obtain ⟨_, digit1, _, digit2, _, digit3, _, digit4, same⟩ := read
    rw [← (Prod.mk.inj (Option.some.inj same)).2]
    refine ⟨[first, second, third, fourth], rfl, ?_⟩
    simp only [List.forall_mem_cons]
    exact ⟨plain_of_hexValue digit1, plain_of_hexValue digit2, plain_of_hexValue digit3,
      plain_of_hexValue digit4, List.forall_mem_nil _⟩
  · contradiction

theorem scanUnit_inside {text rest : PyStr} {point : CodePoint}
    (read : scanUnit text = some (point, rest)) :
    ∃ used, text = used ++ rest ∧ Inside .inside used := by
  unfold scanUnit at read
  simp only [Option.bind_eq_bind, Option.bind_eq_some_iff] at read
  obtain ⟨⟨high, behind⟩, first, read⟩ := read
  obtain ⟨used, rfl, plain⟩ := codeUnit_plain first
  have single := inside_of_plain plain
  dsimp only at read
  split at read
  · rename_i surrogates
    obtain ⟨⟨low, last⟩, second, read⟩ := Option.bind_eq_some_iff.mp read
    obtain ⟨used', shape, plain'⟩ := codeUnit_plain second
    dsimp only at read
    split at read
    · rw [← (Prod.mk.inj (Option.some.inj read)).2]
      have pair : behind = [92, 117] ++ (used' ++ last) := by
        rw [← shape, ← surrogates.2.2, List.take_append_drop]
      have escape : Inside .escaped (117 :: used') := (inside_of_plain plain').cons (by decide)
      have marks : Inside .inside ([92, 117] ++ used') := escape.cons (by decide)
      refine ⟨used ++ ([92, 117] ++ used'), ?_, single.append marks⟩
      rw [pair]
      simp only [List.append_assoc]
    · rw [← (Prod.mk.inj (Option.some.inj read)).2]
      exact ⟨used, rfl, single⟩
  · rw [← (Prod.mk.inj (Option.some.inj read)).2]
    exact ⟨used, rfl, single⟩

/-- An escape does not close the string. -/
theorem scanEscape_inside {text rest : PyStr} {point : CodePoint}
    (read : scanEscape text = some (point, rest)) :
    ∃ used, text = used ++ rest ∧ Inside .escaped used := by
  cases text with
  | nil => contradiction
  | cons first text =>
      have single : Inside .escaped [first] := inside_nil.cons (by decide)
      have one : text = rest → ∃ used, first :: text = used ++ rest ∧ Inside .escaped used := by
        rintro rfl
        exact ⟨[first], rfl, single⟩
      unfold scanEscape at read
      dsimp only at read
      repeat' split at read
      all_goals first
        | contradiction
        | exact one (Prod.mk.inj (Option.some.inj read)).2
        | skip
      obtain ⟨used, rfl, inside⟩ := scanUnit_inside read
      exact ⟨first :: used, rfl, inside.cons (by decide)⟩

/-- A string that is read stays open up to its closing mark. -/
theorem scanString_inside {fuel : Nat} {text read rest : PyStr}
    (scan : scanString fuel text = some (read, rest)) :
    ∃ inner, text = inner ++ 34 :: rest ∧ Inside .inside inner := by
  induction fuel generalizing text read with
  | zero => contradiction
  | succ fuel inductionHypothesis =>
      cases text with
      | nil => contradiction
      | cons point text =>
          rw [scanString] at scan
          by_cases quote : point.val = 34
          · rw [if_pos quote] at scan
            obtain rfl : text = rest := (Prod.mk.inj (Option.some.inj scan)).2
            obtain rfl : point = 34 := Fin.ext quote
            exact ⟨[], rfl, inside_nil⟩
          rw [if_neg quote] at scan
          by_cases backslash : point.val = 92
          · rw [if_pos backslash] at scan
            simp only [Option.bind_eq_bind, Option.bind_eq_some_iff] at scan
            obtain ⟨⟨character, behind⟩, escape, ⟨later, last⟩, scan, same⟩ := scan
            obtain rfl : last = rest := (Prod.mk.inj (Option.some.inj same)).2
            obtain ⟨inner, rfl, inside⟩ := inductionHypothesis scan
            obtain ⟨used, rfl, escaped⟩ := scanEscape_inside escape
            obtain rfl : point = 92 := Fin.ext backslash
            refine ⟨92 :: (used ++ inner), by simp, ?_⟩
            exact (escaped.append inside).cons (by decide)
          rw [if_neg backslash] at scan
          by_cases control : point.val < 32
          · rw [if_pos control] at scan
            contradiction
          · rw [if_neg control] at scan
            simp only [Option.bind_eq_bind, Option.bind_eq_some_iff] at scan
            obtain ⟨⟨later, last⟩, scan, same⟩ := scan
            obtain rfl : last = rest := (Prod.mk.inj (Option.some.inj same)).2
            obtain ⟨inner, rfl, inside⟩ := inductionHypothesis scan
            exact ⟨point :: inner, rfl, inside.plain ⟨quote, backslash⟩⟩

theorem ReadsString.inside {text rest : PyStr} (reads : ReadsString text rest) :
    ∃ inner, text = inner ++ 34 :: rest ∧ Inside .inside inner ∧
      ∀ more, ReadsString (inner ++ 34 :: more) more := by
  obtain ⟨fuel, read, scan⟩ := reads
  obtain ⟨inner, shape, inside⟩ := scanString_inside scan
  obtain ⟨inner', shape', -, again⟩ := scanString_extent scan
  obtain rfl : inner' = inner := List.append_cancel_right (shape'.symm.trans shape)
  exact ⟨inner', shape, inside, fun more => ⟨fuel, read, again more fuel (le_refl _)⟩⟩

/-- The text of a string, with its marks. -/
theorem Inside.closed {inner : PyStr} (inside : Inside .inside inner) :
    Closed (34 :: inner ++ [34]) := by
  show (34 :: (inner ++ [34])).foldl Place.after .outside = .outside
  rw [List.foldl_cons, List.foldl_append]
  show [34].foldl Place.after (inner.foldl Place.after .inside) = .outside
  rw [inside.2]
  rfl

/-- A text that is cut off in a string. -/
theorem Inside.not_overlong {inner front : PyStr} (inside : Inside .inside inner)
    (within : front <+: inner) : ¬ Overlong (34 :: front) :=
  fun overlong => inside.1 front within overlong.1

/-! ### Words and numbers -/

theorem isNumberPoint_of_isDigit {point : CodePoint} (digit : isDigit point = true) :
    isNumberPoint point = true := by
  unfold isNumberPoint
  rw [decide_eq_true_eq]
  exact Or.inl digit

theorem isNumberPoint_of_takeWhile {text : PyStr} {point : CodePoint}
    (member : point ∈ text.takeWhile isDigit) : isNumberPoint point = true :=
  isNumberPoint_of_isDigit (List.mem_takeWhile_imp member)

/-- The characters in front of a rest, all of a number. -/
def Numeric (text rest : PyStr) : Prop :=
  ∃ used, text = used ++ rest ∧ ∀ point ∈ used, isNumberPoint point = true

theorem Numeric.refl (text : PyStr) : Numeric text text := ⟨[], rfl, List.forall_mem_nil _⟩

theorem Numeric.trans {first second third : PyStr} (front : Numeric first second)
    (back : Numeric second third) : Numeric first third := by
  obtain ⟨used, rfl, numbers⟩ := front
  obtain ⟨used', rfl, numbers'⟩ := back
  exact ⟨used ++ used', by rw [List.append_assoc], List.forall_mem_append.mpr ⟨numbers, numbers'⟩⟩

theorem Numeric.cons {point : CodePoint} {text rest : PyStr}
    (number : isNumberPoint point = true) (later : Numeric text rest) :
    Numeric (point :: text) rest := by
  obtain ⟨used, rfl, numbers⟩ := later
  exact ⟨point :: used, rfl, List.forall_mem_cons.mpr ⟨number, numbers⟩⟩

theorem numeric_digits (text : PyStr) : Numeric text (text.dropWhile isDigit) :=
  ⟨text.takeWhile isDigit, List.takeWhile_append_dropWhile.symm,
    fun _ member => isNumberPoint_of_takeWhile member⟩

theorem scanInteger_numeric {text integer rest : PyStr}
    (read : scanInteger text = some (integer, rest)) : Numeric text rest := by
  cases text with
  | nil => contradiction
  | cons digit text =>
      unfold scanInteger at read
      dsimp only at read
      by_cases zero : digit.val = 48
      · rw [if_pos zero] at read
        obtain rfl : text = rest := (Prod.mk.inj (Option.some.inj read)).2
        obtain rfl : digit = 48 := Fin.ext zero
        exact (Numeric.refl text).cons (by decide)
      · rw [if_neg zero] at read
        split at read
        · rename_i digits
          obtain rfl := (Prod.mk.inj (Option.some.inj read)).2
          exact (numeric_digits text).cons (isNumberPoint_of_isDigit digits)
        · contradiction

theorem scanFraction_numeric (text : PyStr) : Numeric text (scanFraction text).2 := by
  unfold scanFraction
  split
  · rename_i point digit rest
    split
    · rename_i dot
      obtain rfl : point = 46 := Fin.ext dot.1
      exact ((numeric_digits rest).cons (isNumberPoint_of_isDigit dot.2)).cons (by decide)
    · exact Numeric.refl _
  · exact Numeric.refl _

theorem isNumberPoint_exponent {letter : CodePoint} (e : letter.val = 101 ∨ letter.val = 69) :
    isNumberPoint letter = true := by
  rcases e with small | capital
  · obtain rfl : letter = 101 := Fin.ext small
    decide
  · obtain rfl : letter = 69 := Fin.ext capital
    decide

theorem scanExponent_numeric (text : PyStr) : Numeric text (scanExponent text).2 := by
  unfold scanExponent
  split
  · rename_i letter sign digit rest
    split
    · rename_i unsigned
      exact ((numeric_digits (digit :: rest)).cons (isNumberPoint_of_isDigit unsigned.2)).cons
        (isNumberPoint_exponent unsigned.1)
    · split
      · rename_i signed
        have signPoint : isNumberPoint sign = true := by
          rcases signed.2.1 with plus | minus
          · obtain rfl : sign = 43 := Fin.ext plus
            decide
          · obtain rfl : sign = 45 := Fin.ext minus
            decide
        exact (((numeric_digits rest).cons (isNumberPoint_of_isDigit signed.2.2)).cons
          signPoint).cons (isNumberPoint_exponent signed.1)
      · exact Numeric.refl _
  · rename_i letter digit
    split
    · rename_i unsigned
      exact ((Numeric.refl []).cons (isNumberPoint_of_isDigit unsigned.2)).cons
        (isNumberPoint_exponent unsigned.1)
    · exact Numeric.refl _
  · exact Numeric.refl _

theorem sign_numeric (text : PyStr) :
    Numeric text (text.drop (if text.head? = some 45 then [45] else [] : PyStr).length) := by
  by_cases minus : text.head? = some 45
  · rw [if_pos minus]
    cases text with
    | nil => contradiction
    | cons first text =>
        obtain rfl : first = 45 := Option.some.inj minus
        exact (Numeric.refl text).cons (by decide)
  · rw [if_neg minus]
    exact Numeric.refl text

/-- A number is read exactly if it has digits and they are not too many. -/
theorem scanNumber_cases (float : PyStr → Numeral) (text : PyStr) :
    (scanNumber float text = none ∧ numberError text = .decode ∧ ¬ LongInteger text) ∨
    (scanNumber float text = none ∧ numberError text = .value ∧ LongInteger text) ∨
    ∃ numeral rest, scanNumber float text = some (numeral, rest) ∧ Numeric text rest ∧
      ¬ LongInteger text := by
  have start := sign_numeric text
  unfold scanNumber numberError LongInteger
  dsimp only
  generalize (if text.head? = some 45 then [45] else [] : PyStr) = sign at *
  cases integer : scanInteger (text.drop sign.length) with
  | none => exact Or.inl ⟨rfl, rfl, by simp⟩
  | some read =>
      obtain ⟨digits, rest⟩ := read
      have number := ((start.trans (scanInteger_numeric integer)).trans
        (scanFraction_numeric rest)).trans (scanExponent_numeric (scanFraction rest).2)
      simp only [Option.bind_eq_bind, Option.bind_some, List.append_eq_nil_iff, Option.mem_def,
        Option.some.injEq, exists_eq_left']
      by_cases alone : (scanFraction rest).1 = [] ∧ (scanExponent (scanFraction rest).2).1 = []
      · rw [if_pos alone]
        by_cases long : 4300 < digits.length
        · rw [if_pos long]
          exact Or.inr (Or.inl ⟨rfl, trivial, long, alone⟩)
        · rw [if_neg long]
          exact Or.inr (Or.inr ⟨_, _, rfl, number, fun too => long too.1⟩)
      · rw [if_neg alone]
        exact Or.inr (Or.inr ⟨_, _, rfl, number, fun too => alone too.2⟩)

/-- The words that the scanner knows. -/
def words : List PyStr :=
  [lit "null", lit "true", lit "false", lit "NaN", lit "Infinity", lit "-Infinity"]

theorem words_letters : ∀ word ∈ words, ∀ point ∈ word,
    isDigit point = false ∧ ¬ Blank point ∧ point.val ≠ 44 ∧ point.val ≠ 34 := by
  unfold words
  simp only [List.forall_mem_cons]
  exact ⟨forall_mem_of_all (by decide), forall_mem_of_all (by decide),
    forall_mem_of_all (by decide), forall_mem_of_all (by decide),
    forall_mem_of_all (by decide), forall_mem_of_all (by decide), List.forall_mem_nil _⟩

theorem words_foreign : ∀ word ∈ words, ∃ point ∈ word, isNumberPoint point = false := by
  unfold words
  simp only [List.forall_mem_cons]
  exact ⟨⟨110, by decide, by decide⟩, ⟨116, by decide, by decide⟩, ⟨102, by decide, by decide⟩,
    ⟨78, by decide, by decide⟩, ⟨73, by decide, by decide⟩, ⟨73, by decide, by decide⟩,
    List.forall_mem_nil _⟩

/-- The characters of a number are none of a word. -/
theorem take_ne_of_numbers {text word : PyStr} (numbers : ∀ point ∈ text, isNumberPoint point = true)
    (known : word ∈ words) (count : Nat) : text.take count ≠ word := by
  rintro rfl
  obtain ⟨point, member, foreign⟩ := words_foreign _ known
  rw [numbers point (List.mem_of_mem_take member)] at foreign
  contradiction

theorem not_longInteger_of_noDigit {text : PyStr} (plain : ∀ point ∈ text, isDigit point = false) :
    ¬ LongInteger text := by
  rintro ⟨⟨integer, rest⟩, read, -⟩
  generalize (if text.head? = some 45 then [45] else [] : PyStr).length = count at read
  have plainDrop : ∀ point ∈ text.drop count, isDigit point = false :=
    fun point member => plain point (List.mem_of_mem_drop member)
  cases drop : text.drop count with
  | nil =>
      rw [drop] at read
      contradiction
  | cons digit behind =>
      rw [drop] at read plainDrop
      have noDigit := plainDrop digit List.mem_cons_self
      have zero : ¬ digit.val = 48 := by
        unfold isDigit at noDigit
        rw [decide_eq_false_iff_not] at noDigit
        omega
      unfold scanInteger at read
      dsimp only at read
      rw [Option.mem_def, if_neg zero, noDigit] at read
      contradiction

section Atoms

variable (float : PyStr → Numeral) {point : CodePoint}
  (other : point ≠ 34 ∧ point ≠ 123 ∧ point ≠ 91)

include other in
/-- A word, or a number. -/
theorem atom_cases (text : PyStr) :
    (∃ word value rest, word ∈ words ∧ point :: text = word ++ rest ∧
      scanOnce float 1 (point :: text) = some (value, rest)) ∨
    scanOnce float 1 (point :: text) =
      (scanNumber float (point :: text)).map fun read => (.number read.1, read.2) := by
  have quote : ¬ point.val = 34 := fun same => other.1 (Fin.ext same)
  have brace : ¬ point.val = 123 := fun same => other.2.1 (Fin.ext same)
  have bracket : ¬ point.val = 91 := fun same => other.2.2 (Fin.ext same)
  have spelled : ∀ (count : Nat) (word : PyStr), (point :: text).take (count + 1) = word →
      point :: text = word ++ text.drop count := by
    rintro count word rfl
    exact (List.take_append_drop (count + 1) (point :: text)).symm
  rw [scanOnce, if_neg quote, if_neg brace, if_neg bracket]
  by_cases null : (point :: text).take 4 = lit "null"
  · exact Or.inl ⟨_, _, _, by simp [words], spelled 3 _ null, if_pos null⟩
  rw [if_neg null]
  by_cases true_ : (point :: text).take 4 = lit "true"
  · exact Or.inl ⟨_, _, _, by simp [words], spelled 3 _ true_, if_pos true_⟩
  rw [if_neg true_]
  by_cases false_ : (point :: text).take 5 = lit "false"
  · exact Or.inl ⟨_, _, _, by simp [words], spelled 4 _ false_, if_pos false_⟩
  rw [if_neg false_]
  by_cases nan : (point :: text).take 3 = lit "NaN"
  · exact Or.inl ⟨_, _, _, by simp [words], spelled 2 _ nan, if_pos nan⟩
  rw [if_neg nan]
  by_cases infinity : (point :: text).take 8 = lit "Infinity"
  · exact Or.inl ⟨_, _, _, by simp [words], spelled 7 _ infinity, if_pos infinity⟩
  rw [if_neg infinity]
  by_cases negative : (point :: text).take 9 = lit "-Infinity"
  · exact Or.inl ⟨_, _, _, by simp [words], spelled 8 _ negative, if_pos negative⟩
  rw [if_neg negative]
  refine Or.inr ?_
  cases scanNumber float (point :: text) with
  | none => rfl
  | some read => rfl

include other in
/-- The characters that a word or a number uses. -/
theorem atom_used {text rest : PyStr} {value : Value}
    (read : scanOnce float 1 (point :: text) = some (value, rest)) :
    ∃ used, point :: text = used ++ rest ∧
      (used ∈ words ∨ ∀ point ∈ used, isNumberPoint point = true) := by
  rcases atom_cases float other text with ⟨word, value', rest', known, shape, read'⟩ | number
  · rw [read] at read'
    obtain rfl : rest = rest' := (Prod.mk.inj (Option.some.inj read')).2
    exact ⟨word, shape, Or.inl known⟩
  · rcases scanNumber_cases float (point :: text) with ⟨none, -⟩ | ⟨none, -⟩ | ⟨_, rest', some_, numeric, -⟩
    · rw [number, none] at read
      contradiction
    · rw [number, none] at read
      contradiction
    · rw [number, some_] at read
      obtain rfl : rest' = rest := (Prod.mk.inj (Option.some.inj read)).2
      obtain ⟨used, shape, numbers⟩ := numeric
      exact ⟨used, shape, Or.inr numbers⟩

theorem overlong_of_numbers {text : PyStr} (numbers : ∀ point ∈ text, isNumberPoint point = true) :
    Overlong text ↔ LongInteger text := by
  have closed : Closed text := by
    apply closed_of_noQuote
    intro point member quote
    have number := numbers point member
    obtain rfl : point = 34 := Fin.ext quote
    contradiction
  have whole : lastWord text = text := List.rtakeWhile_eq_self_iff.mpr numbers
  unfold Overlong
  rw [whole]
  exact and_iff_right closed

theorem not_overlong_of_noDigit {text : PyStr} (plain : ∀ point ∈ text, isDigit point = false) :
    ¬ Overlong text := by
  intro overlong
  apply not_longInteger_of_noDigit _ overlong.2
  intro point member
  exact plain point ((List.rtakeWhile_suffix _ _).subset member)

include other in
/-- A word or a number that the text ends in. -/
theorem atom_cut {front used : PyStr}
    (kind : used ∈ words ∨ ∀ point ∈ used, isNumberPoint point = true)
    (within : point :: front <+: used) (fuel : Nat) :
    (scanOnce float (fuel + 1) (point :: front) = none →
      (scanOnceError float (fuel + 1) (point :: front) = .value ↔ Overlong (point :: front))) ∧
    ∀ value rest, scanOnce float (fuel + 1) (point :: front) = some (value, rest) →
      ¬ Overlong (point :: front) ∧ (skipSpace rest).head? ≠ some 44 := by
  have quote : ¬ point.val = 34 := fun same => other.1 (Fin.ext same)
  have brace : ¬ point.val = 123 := fun same => other.2.1 (Fin.ext same)
  have bracket : ¬ point.val = 91 := fun same => other.2.2 (Fin.ext same)
  have raises : scanOnceError float (fuel + 1) (point :: front) = numberError (point :: front) := by
    rw [scanOnceError, if_neg quote, if_neg brace, if_neg bracket]
  have noComma : ∀ other ∈ point :: front, other ≠ 44 := by
    rintro other member rfl
    rcases kind with word | numbers
    · exact (words_letters _ word 44 (within.subset member)).2.2.1 rfl
    · have number := numbers 44 (within.subset member)
      contradiction
  have overlong_iff : Overlong (point :: front) ↔ LongInteger (point :: front) := by
    rcases kind with word | numbers
    · have plain : ∀ other ∈ point :: front, isDigit other = false :=
        fun other member => (words_letters _ word other (within.subset member)).1
      exact iff_of_false (not_overlong_of_noDigit plain) (not_longInteger_of_noDigit plain)
    · exact overlong_of_numbers fun other member => numbers other (within.subset member)
  have behind : ∀ value rest, scanOnce float 1 (point :: front) = some (value, rest) →
      (skipSpace rest).head? ≠ some 44 := by
    intro value rest read comma
    have suffix : skipSpace rest <:+ front :=
      (List.dropWhile_suffix _).trans (atom_suffix float other read)
    have member := suffix.subset (List.mem_of_head? comma)
    exact noComma 44 (List.mem_cons_of_mem _ member) rfl
  rw [scanOnce_atom float other, raises, overlong_iff]
  rcases atom_cases float other front with ⟨word, value, rest, known, shape, read⟩ | number
  · have long : ¬ LongInteger (point :: front) := by
      rcases kind with spelled | numbers
      · exact not_longInteger_of_noDigit fun other member =>
          (words_letters _ spelled other (within.subset member)).1
      · obtain ⟨foreign, member, no⟩ := words_foreign word known
        have member' : foreign ∈ point :: front := by
          rw [shape]
          exact List.mem_append_left _ member
        rw [numbers foreign (within.subset member')] at no
        contradiction
    refine ⟨fun none => ?_, fun value' rest' read' => ⟨long, behind _ _ read'⟩⟩
    rw [read] at none
    contradiction
  · rcases scanNumber_cases float (point :: front) with
      ⟨none, error, short⟩ | ⟨none, error, long⟩ | ⟨numeral, rest, some_, -, short⟩
    · refine ⟨fun _ => ?_, fun value rest read => ?_⟩
      · rw [error]
        exact iff_of_false (by decide) short
      · rw [number, none] at read
        contradiction
    · refine ⟨fun _ => iff_of_true error long, fun value rest read => ?_⟩
      rw [number, none] at read
      contradiction
    · refine ⟨fun none => ?_, fun value rest read => ⟨short, behind _ _ read⟩⟩
      rw [number, some_] at none
      contradiction

end Atoms

/-! ### The front of a piece -/

theorem Closed.append {front back : PyStr} (closed : Closed front) (closed' : Closed back) :
    Closed (front ++ back) :=
  (closed_append closed).mpr closed'

/-- A text that closes its strings and ends in no number. -/
def Sealed (text : PyStr) : Prop :=
  Closed text ∧ ∃ front stop, text = front ++ [stop] ∧ isNumberPoint stop = false

theorem sealed_singleton {stop : CodePoint} (quote : ¬ stop.val = 34)
    (foreign : isNumberPoint stop = false) : Sealed [stop] :=
  ⟨if_neg quote, [], stop, rfl, foreign⟩

theorem Closed.sealed {front back : PyStr} (closed : Closed front) (solid : Sealed back) :
    Sealed (front ++ back) := by
  obtain ⟨closed', inner, stop, rfl, foreign⟩ := solid
  exact ⟨closed.append closed', front ++ inner, stop, (List.append_assoc _ _ _).symm, foreign⟩

theorem Inside.sealed {inner : PyStr} (inside : Inside .inside inner) :
    Sealed (34 :: inner ++ [34]) :=
  ⟨inside.closed, 34 :: inner, 34, rfl, by decide⟩

theorem Sealed.behind {front : PyStr} (solid : Sealed front) (back : PyStr) :
    Overlong (front ++ back) ↔ Overlong back := by
  obtain ⟨closed, inner, stop, rfl, foreign⟩ := solid
  rw [List.append_assoc]
  exact overlong_behind closed foreign back

theorem Sealed.not_overlong {text : PyStr} (solid : Sealed text) : ¬ Overlong text := by
  have end_ := solid.behind []
  rw [List.append_nil] at end_
  exact fun overlong => not_overlong_nil (end_.mp overlong)

theorem closed_before_skipSpace (text : PyStr) :
    ∃ blanks, text = blanks ++ skipSpace text ∧ Closed blanks := by
  obtain ⟨blanks, shape, blank⟩ := blanks_append_skipSpace text
  exact ⟨blanks, shape, closed_blanks blank⟩

theorem overlong_skipSpace (text : PyStr) : Overlong (skipSpace text) ↔ Overlong text := by
  obtain ⟨blanks, shape, blank⟩ := blanks_append_skipSpace text
  have same := overlong_blanks blank (skipSpace text)
  rw [← shape] at same
  exact same.symm

theorem skipSpace_front (front back : PyStr) :
    (skipSpace front = [] ∧ ¬ Overlong front) ∨ skipSpace (front ++ back) = skipSpace front ++ back := by
  obtain ⟨blanks, shape, blank⟩ := blanks_append_skipSpace front
  cases skipped : skipSpace front with
  | nil =>
      rw [skipped, List.append_nil] at shape
      rw [shape]
      exact Or.inl ⟨rfl, not_overlong_blanks blank⟩
  | cons point behind =>
      rw [skipped] at shape
      refine Or.inr ?_
      rw [shape, List.append_assoc, skipSpace_blanks blank, List.cons_append,
        skipSpace_cons (skipSpace_head skipped)]

section Pieces

variable {float : PyStr → Numeral}

/-- A piece that is read leaves no string open, and only a word or a number ends
in a number. -/
theorem Reads.used {piece : Piece} {text rest : PyStr} (reads : Reads float piece text rest) :
    ∃ used, text = used ++ rest ∧ Closed used ∧ (piece ≠ .value ∨ Enclosed text → Sealed used) := by
  induction reads with
  | @string text rest read =>
      obtain ⟨inner, rfl, inside, -⟩ := read.inside
      exact ⟨34 :: inner ++ [34], by simp, inside.closed, fun _ => inside.sealed⟩
  | @emptyObject text rest closes =>
      obtain ⟨blanks, shape, closed⟩ := closed_before_skipSpace text
      rw [closes] at shape
      have solid : Sealed ([123] ++ (blanks ++ [125])) :=
        Closed.sealed rfl (closed.sealed (sealed_singleton (by decide) (by decide)))
      exact ⟨_, by simp [shape], solid.1, fun _ => solid⟩
  | @object text rest inner inductionHypothesis =>
      obtain ⟨used, used_eq, -, solid⟩ := inductionHypothesis
      obtain ⟨blanks, shape, closed⟩ := closed_before_skipSpace text
      rw [used_eq] at shape
      have solid : Sealed ([123] ++ (blanks ++ used)) :=
        Closed.sealed rfl (closed.sealed (solid (Or.inl nofun)))
      exact ⟨_, by simp [shape], solid.1, fun _ => solid⟩
  | @emptyArray text rest closes =>
      obtain ⟨blanks, shape, closed⟩ := closed_before_skipSpace text
      rw [closes] at shape
      have solid : Sealed ([91] ++ (blanks ++ [93])) :=
        Closed.sealed rfl (closed.sealed (sealed_singleton (by decide) (by decide)))
      exact ⟨_, by simp [shape], solid.1, fun _ => solid⟩
  | @array text rest opens inner inductionHypothesis =>
      obtain ⟨used, used_eq, -, solid⟩ := inductionHypothesis
      obtain ⟨blanks, shape, closed⟩ := closed_before_skipSpace text
      rw [used_eq] at shape
      have solid : Sealed ([91] ++ (blanks ++ used)) :=
        Closed.sealed rfl (closed.sealed (solid (Or.inl nofun)))
      exact ⟨_, by simp [shape], solid.1, fun _ => solid⟩
  | @atom point text rest value other read =>
      obtain ⟨used, shape, kind⟩ := atom_used float other read
      refine ⟨used, shape, closed_of_noQuote fun point member => ?_, fun enclosed => ?_⟩
      · rcases kind with word | numbers
        · exact (words_letters _ word point member).2.2.2
        · intro quote
          have number := numbers point member
          obtain rfl : point = 34 := Fin.ext quote
          contradiction
      · exfalso
        rcases enclosed with piece | enclosed
        · exact piece rfl
        · unfold Enclosed at enclosed
          simp only [List.head?_cons, Option.some.injEq] at enclosed
          rcases enclosed with quote | brace | bracket
          · exact other.1 quote
          · exact other.2.1 brace
          · exact other.2.2 bracket
  | @member text colon behind after rest key colon_eq value later valueHypothesis laterHypothesis =>
      obtain ⟨inner, rfl, inside, -⟩ := key.inside
      obtain ⟨used, used_eq, closedUsed, -⟩ := valueHypothesis
      obtain ⟨used', used'_eq, -, solid⟩ := laterHypothesis
      obtain ⟨first, shape1, closed1⟩ := closed_before_skipSpace colon
      obtain ⟨second, shape2, closed2⟩ := closed_before_skipSpace behind
      obtain ⟨third, shape3, closed3⟩ := closed_before_skipSpace after
      rw [colon_eq] at shape1
      rw [used_eq] at shape2
      rw [used'_eq] at shape3
      have tail : Sealed (second ++ (used ++ (third ++ used'))) :=
        closed2.sealed (closedUsed.sealed (closed3.sealed (solid (Or.inl nofun))))
      have solid : Sealed ((34 :: inner ++ [34]) ++
          (first ++ ([58] ++ (second ++ (used ++ (third ++ used')))))) :=
        inside.closed.sealed (closed1.sealed (Closed.sealed rfl tail))
      refine ⟨_, ?_, solid.1, fun _ => solid⟩
      rw [shape1, shape2, shape3]
      simp
  | lastMember =>
      have solid : Sealed [125] := sealed_singleton (by decide) (by decide)
      exact ⟨_, rfl, solid.1, fun _ => solid⟩
  | @nextMember text rest next inductionHypothesis =>
      obtain ⟨used, used_eq, -, solid⟩ := inductionHypothesis
      obtain ⟨blanks, shape, closed⟩ := closed_before_skipSpace text
      rw [used_eq] at shape
      have solid : Sealed ([44] ++ (blanks ++ used)) :=
        Closed.sealed rfl (closed.sealed (solid (Or.inl nofun)))
      exact ⟨_, by simp [shape], solid.1, fun _ => solid⟩
  | @item text after rest value later valueHypothesis laterHypothesis =>
      obtain ⟨used, rfl, closedUsed, -⟩ := valueHypothesis
      obtain ⟨used', used'_eq, -, solid⟩ := laterHypothesis
      obtain ⟨blanks, shape, closed⟩ := closed_before_skipSpace after
      rw [used'_eq] at shape
      have solid : Sealed (used ++ (blanks ++ used')) :=
        closedUsed.sealed (closed.sealed (solid (Or.inl nofun)))
      exact ⟨_, by simp [shape], solid.1, fun _ => solid⟩
  | lastItem =>
      have solid : Sealed [93] := sealed_singleton (by decide) (by decide)
      exact ⟨_, rfl, solid.1, fun _ => solid⟩
  | @nextItem text rest next inductionHypothesis =>
      obtain ⟨used, used_eq, -, solid⟩ := inductionHypothesis
      obtain ⟨blanks, shape, closed⟩ := closed_before_skipSpace text
      rw [used_eq] at shape
      have solid : Sealed ([44] ++ (blanks ++ used)) :=
        Closed.sealed rfl (closed.sealed (solid (Or.inl nofun)))
      exact ⟨_, by simp [shape], solid.1, fun _ => solid⟩

theorem Reads.extent {text rest : PyStr} (reads : Reads float .value text rest)
    (ends : Ends rest ∨ Enclosed text) :
    ∃ used, text = used ++ rest ∧
      ∀ more, Ends more ∨ Enclosed text → Reads float .value (used ++ more) more := by
  obtain ⟨value, scan⟩ := (scanned_of_reads reads).2 text.length (Nat.le_add_right _ _)
  obtain ⟨used, shape, -, again⟩ := (extents _).1 _ _ _ scan ends
  refine ⟨used, shape, fun more ends' => ?_⟩
  exact (reads_of_scan float _).1 _ _ _ (again more _ (le_refl _) ends')

theorem enclosed_front {front back : PyStr} (enclosed : Enclosed front) : Enclosed (front ++ back) := by
  have nonempty : front ≠ [] := by
    rintro rfl
    rcases enclosed with quote | brace | bracket <;> contradiction
  unfold Enclosed at enclosed ⊢
  rwa [List.head?_append_of_ne_nil _ nonempty]

/-- A front that is read in brackets or quotes is all that the text uses. -/
theorem Reads.scan_front {front back rest more : PyStr} (enclosed : Enclosed front)
    (reads : Reads float .value (front ++ back) rest) {fuel : Nat} {value : Value}
    (scan : scanOnce float fuel front = some (value, more)) : rest = more ++ back := by
  have reads' := (reads_of_scan float fuel).1 _ _ _ scan
  obtain ⟨used, shape, again⟩ := reads'.extent (Or.inr enclosed)
  have longer := again (more ++ back) (Or.inr enclosed)
  rw [← List.append_assoc, ← shape] at longer
  exact reads.unique longer

/-- A front that is the whole of a text in brackets or quotes is read. -/
theorem Reads.scan_whole {front rest : PyStr} (enclosed : Enclosed front)
    (reads : Reads float .value (front ++ rest) rest) {fuel : Nat} (enough : front.length ≤ fuel) :
    ∃ value, scanOnce float fuel front = some (value, []) := by
  obtain ⟨used, shape, again⟩ := reads.extent (Or.inr (enclosed_front enclosed))
  obtain rfl : front = used := List.append_cancel_right shape
  have alone := again [] (Or.inl ends_nil)
  rw [List.append_nil] at alone
  exact (scanned_of_reads alone).2 fuel (by rwa [List.length_nil])

variable (float) in
/-- What a member raises behind its value. -/
def afterMemberError (fuel : Nat) (text : PyStr) : LoadsError :=
  match text with
  | [] => .decode
  | next :: rest => if next.val = 44 then scanMembersError float fuel (skipSpace rest) else .decode

variable (float) in
/-- What an item raises behind its value. -/
def afterItemError (fuel : Nat) (text : PyStr) : LoadsError :=
  match text with
  | [] => .decode
  | next :: rest => if next.val = 44 then scanItemsError float fuel (skipSpace rest) else .decode

variable (float) in
/-- A front of a piece raises `ValueError` exactly if it ends in a long integer. -/
def CutOff : Piece → PyStr → PyStr → Prop
  | .value, text, rest => ∀ front back fuel, text = front ++ back → rest.length ≤ back.length →
      2 * front.length ≤ fuel →
      (scanOnce float fuel front = none →
        (scanOnceError float fuel front = .value ↔ Overlong front)) ∧
      ∀ value more, scanOnce float fuel front = some (value, more) →
        ¬ Overlong front ∧ (skipSpace more).head? ≠ some 44
  | .members, text, rest => ∀ front back fuel, text = front ++ back → rest.length < back.length →
      2 * front.length ≤ fuel → (scanMembersError float fuel front = .value ↔ Overlong front)
  | .afterMember, text, rest => ∀ front back fuel, text = front ++ back →
      rest.length < back.length → 2 * front.length ≤ fuel →
      (afterMemberError float fuel front = .value ↔ Overlong front)
  | .items, text, rest => ∀ front back fuel, text = front ++ back → rest.length < back.length →
      2 * front.length + 1 ≤ fuel → (scanItemsError float fuel front = .value ↔ Overlong front)
  | .afterItem, text, rest => ∀ front back fuel, text = front ++ back →
      rest.length < back.length → 2 * front.length ≤ fuel →
      (afterItemError float fuel front = .value ↔ Overlong front)

theorem scanOnceError_nil (fuel : Nat) : scanOnceError float fuel [] = .decode := by
  cases fuel with
  | zero => rw [scanOnceError]
  | succ fuel => rw [scanOnceError]

theorem scanMembersError_nil (fuel : Nat) : scanMembersError float fuel [] = .decode := by
  cases fuel with
  | zero => rw [scanMembersError]
  | succ fuel => rw [scanMembersError]

theorem scanOnce_nil (fuel : Nat) : scanOnce float fuel [] = none := by
  cases fuel with
  | zero => rw [scanOnce]
  | succ fuel => rw [scanOnce]

theorem scanItemsError_nil (fuel : Nat) : scanItemsError float fuel [] = .decode := by
  cases fuel with
  | zero => rw [scanItemsError]
  | succ fuel => rw [scanItemsError, scanOnce_nil, scanOnceError_nil]

/-- In brackets or quotes only a front that is not the whole can raise. -/
theorem cutOff_enclosed {point : CodePoint} {text rest : PyStr}
    (reads : Reads float .value (point :: text) rest)
    (enclosed : ∀ front, Enclosed (point :: front))
    (cut : ∀ front back fuel, text = front ++ back → rest.length < back.length →
      2 * front.length + 1 ≤ fuel →
      (scanOnceError float (fuel + 1) (point :: front) = .value ↔ Overlong (point :: front))) :
    CutOff float .value (point :: text) rest := by
  intro front back fuel shape le enough
  cases front with
  | nil =>
      rw [scanOnceError_nil, scanOnce_nil]
      exact ⟨fun _ => iff_of_false (by decide) not_overlong_nil, fun _ _ nothing => by contradiction⟩
  | cons other front =>
      obtain ⟨rfl, rfl⟩ := List.cons.inj shape
      obtain ⟨less, rfl⟩ : ∃ less, fuel = less + 1 := by
        rw [List.length_cons] at enough
        exact ⟨fuel - 1, by omega⟩
      rw [List.length_cons] at enough
      obtain ⟨used, used_eq, -, solid⟩ := reads.used
      have whole : rest = back → point :: front = used := by
        rintro rfl
        exact List.append_cancel_right used_eq
      refine ⟨fun none => ?_, fun value more scan => ?_⟩
      · apply cut front back less rfl _ (by omega)
        by_contra short
        have same : rest = back := by
          have tails : used ++ rest = (point :: front) ++ back := used_eq.symm
          exact (List.append_inj' tails (by omega)).2
        obtain ⟨value, scan⟩ := Reads.scan_whole (enclosed front) (same ▸ reads : Reads float .value
          (point :: front ++ rest) rest) (by rw [List.length_cons]; omega : _ ≤ less + 1)
        rw [scan] at none
        contradiction
      · have rest_eq := Reads.scan_front (enclosed front) reads scan
        have empty : more = [] := by
          have lengths := congrArg List.length rest_eq
          rw [List.length_append] at lengths
          exact List.length_eq_zero_iff.mp (by omega)
        rw [empty, List.nil_append] at rest_eq
        rw [whole rest_eq, empty]
        exact ⟨(solid (Or.inr (enclosed _))).not_overlong, by decide⟩

/-- A front of what follows an opening bracket or a comma. -/
theorem overlong_open {stop : CodePoint} (quote : ¬ stop.val = 34)
    (foreign : isNumberPoint stop = false) (text : PyStr) :
    Overlong (stop :: text) ↔ Overlong (skipSpace text) := by
  rw [overlong_skipSpace]
  exact (sealed_singleton quote foreign).behind text

theorem cutOff_string {text rest : PyStr} (read : ReadsString text rest) :
    CutOff float .value (34 :: text) rest := by
  apply cutOff_enclosed (.string read) fun _ => Or.inl rfl
  intro front back fuel shape short _
  obtain ⟨inner, rfl, inside, -⟩ := read.inside
  have within : front <+: inner := by
    have lengths := congrArg List.length shape
    simp only [List.length_append, List.length_cons] at lengths
    exact List.prefix_of_prefix_length_le (shape ▸ List.prefix_append front back)
      (List.prefix_append inner (34 :: rest)) (by omega)
  have mark : (34 : CodePoint).val = 34 := rfl
  rw [scanOnceError, if_pos mark]
  exact iff_of_false (by decide) (inside.not_overlong within)

/-- A character that closes a number is not part of one. -/
theorem Closes.solid {stop : CodePoint} (closes : Closes stop) : Sealed [stop] := by
  unfold Closes Blank at closes
  apply sealed_singleton (by omega)
  unfold isNumberPoint isDigit
  simp only [decide_eq_true_eq, decide_eq_false_iff_not]
  omega

theorem overlong_after {used behind : PyStr} (closed : Closed used) (ends : Ends behind)
    (nonempty : behind ≠ []) : Overlong (used ++ behind) ↔ Overlong behind := by
  cases behind with
  | nil => exact absurd rfl nonempty
  | cons stop behind =>
      have stops := (ends stop rfl).solid
      have whole := (closed.sealed stops).behind behind
      have alone := stops.behind behind
      rw [List.append_assoc] at whole
      exact whole.trans alone.symm

/-- A value at the front of an item or behind a key, and what follows it. -/
theorem valueThen_cut {front back after : PyStr} {fuel : Nat} {afterError : PyStr → LoadsError}
    (reads : Reads float .value (front ++ back) after)
    (value : CutOff float .value (front ++ back) after) (ends : Ends after)
    (enough : 2 * front.length ≤ fuel)
    (noComma : ∀ text, text.head? ≠ some 44 → afterError text = .decode)
    (later : ∀ inner, skipSpace after = inner ++ back → inner.length ≤ front.length →
      (afterError inner = .value ↔ Overlong inner)) :
    (match scanOnce float fuel front with
      | none => scanOnceError float fuel front
      | some (_, more) => afterError (skipSpace more)) = .value ↔ Overlong front := by
  by_cases within : after.length ≤ back.length
  · obtain ⟨none, some_⟩ := value front back fuel rfl within enough
    cases scan : scanOnce float fuel front with
    | none => exact none scan
    | some read =>
        obtain ⟨item, more⟩ := read
        obtain ⟨short, comma⟩ := some_ item more scan
        dsimp only
        rw [noComma _ comma]
        exact iff_of_false (by decide) short
  · obtain ⟨used, used_eq, again⟩ := reads.extent (Or.inl ends)
    obtain ⟨used', used'_eq, closed, -⟩ := reads.used
    obtain rfl : used' = used := List.append_cancel_right (used'_eq.symm.trans used_eq)
    obtain ⟨behind, rfl, rfl⟩ | ⟨behind, rfl, rfl⟩ := List.append_eq_append_iff.mp used_eq.symm
    · have nonempty : behind ≠ [] := by
        rintro rfl
        exact within (le_refl _)
      have ends' : Ends behind := by
        intro point head
        apply ends point
        rwa [List.head?_append_of_ne_nil _ nonempty]
      obtain ⟨item, scan⟩ := (scanned_of_reads (again behind (Or.inl ends'))).2 fuel (by omega)
      rw [scan, overlong_after closed ends' nonempty]
      dsimp only
      rcases skipSpace_front behind back with ⟨empty, short⟩ | split
      · rw [empty, noComma [] (by decide)]
        exact iff_of_false (by decide) short
      · rw [← overlong_skipSpace behind]
        apply later _ split
        have le := length_skipSpace_le behind
        rw [List.length_append]
        omega
    · rw [List.length_append] at within
      omega

theorem afterMemberError_noComma (fuel : Nat) (text : PyStr) (noComma : text.head? ≠ some 44) :
    afterMemberError float fuel text = .decode := by
  cases text with
  | nil => rfl
  | cons next rest =>
      have other : ¬ next.val = 44 := fun comma => noComma (congrArg some (Fin.ext comma))
      exact if_neg other

theorem afterItemError_noComma (fuel : Nat) (text : PyStr) (noComma : text.head? ≠ some 44) :
    afterItemError float fuel text = .decode := by
  cases text with
  | nil => rfl
  | cons next rest =>
      have other : ¬ next.val = 44 := fun comma => noComma (congrArg some (Fin.ext comma))
      exact if_neg other

/-- What stands behind a member or an item closes a number in front of it. -/
theorem ends_of_reads {piece : Piece} {text rest : PyStr}
    (reads : Reads float piece (skipSpace text) rest)
    (between : piece = .afterMember ∨ piece = .afterItem) : Ends text := by
  generalize skipped : skipSpace text = behind at reads
  cases reads with
  | lastMember => exact ends_of_skipSpace skipped (Or.inr (Or.inr (Or.inr rfl)))
  | nextMember => exact ends_of_skipSpace skipped (Or.inr (Or.inl rfl))
  | lastItem => exact ends_of_skipSpace skipped (Or.inr (Or.inr (Or.inl rfl)))
  | nextItem => exact ends_of_skipSpace skipped (Or.inr (Or.inl rfl))
  | _ => simp at between

theorem Inside.scanString_none {inner front : PyStr} (inside : Inside .inside inner)
    (within : front <+: inner) (fuel : Nat) : scanString fuel front = none := by
  by_contra read
  obtain ⟨⟨text, rest⟩, scan⟩ := Option.ne_none_iff_exists'.mp read
  obtain ⟨used, rfl, closed⟩ := scanString_inside scan
  have mark : used ++ [34] <+: inner := by
    have shape : used ++ 34 :: rest = used ++ [34] ++ rest := by simp
    exact (shape ▸ List.prefix_append (used ++ [34]) rest).trans within
  apply inside.1 _ mark
  rw [List.foldl_append, closed.2]
  rfl

/-- Where a member is cut off: in its key, in front of its colon or its value, in
the value or behind it. -/
theorem cutOff_member {text colon behind after rest : PyStr} (key : ReadsString text colon)
    (colon_eq : skipSpace colon = 58 :: behind) (reads : Reads float .value (skipSpace behind) after)
    (ends : Ends after) (value : CutOff float .value (skipSpace behind) after)
    (later : CutOff float .afterMember (skipSpace after) rest) :
    CutOff float .members (34 :: text) rest := by
  intro front back fuel shape short enough
  cases front with
  | nil =>
      rw [scanMembersError_nil]
      exact iff_of_false (by decide) not_overlong_nil
  | cons mark front =>
      obtain ⟨rfl, split⟩ := List.cons.inj shape
      rw [List.length_cons] at enough
      obtain ⟨less, rfl⟩ : ∃ less, fuel = less + 1 := ⟨fuel - 1, by omega⟩
      have quote : (34 : CodePoint).val = 34 := rfl
      have isColon : (58 : CodePoint).val = 58 := rfl
      have quiet : ¬ LoadsError.decode = .value := by decide
      rw [scanMembersError, if_pos quote]
      obtain ⟨inner, text_eq, inside, again⟩ := key.inside
      by_cases within : front <+: inner
      · rw [inside.scanString_none within]
        exact iff_of_false quiet (inside.not_overlong within)
      obtain ⟨last, rfl, tail⟩ : ∃ last, front = inner ++ 34 :: last ∧ colon = last ++ back := by
        rw [split] at text_eq
        rcases List.append_eq_append_iff.mp text_eq with ⟨open_, rfl, -⟩ | ⟨open_, rfl, tail⟩
        · exact absurd (List.prefix_append _ _) within
        · cases open_ with
          | nil =>
              rw [List.append_nil] at within
              exact absurd (List.prefix_refl _) within
          | cons mark last =>
              obtain ⟨rfl, colon_eq'⟩ := List.cons.inj tail
              exact ⟨last, rfl, colon_eq'⟩
      rw [List.length_append, List.length_cons] at enough
      have keyed : Overlong (34 :: (inner ++ 34 :: last)) ↔ Overlong (skipSpace last) := by
        have shape' : 34 :: (inner ++ 34 :: last) = (34 :: inner ++ [34]) ++ last := by simp
        rw [shape', inside.sealed.behind, overlong_skipSpace]
      obtain ⟨read, scan⟩ := (again last).scan.2 less (by simp; omega)
      rw [scan, keyed]
      dsimp only
      have skipped := skipSpace_front last back
      rw [← tail, colon_eq] at skipped
      cases opened : skipSpace last with
      | nil => exact iff_of_false quiet not_overlong_nil
      | cons point item =>
          rw [opened] at skipped
          have joined := skipped.resolve_left fun both => List.cons_ne_nil _ _ both.1
          obtain ⟨rfl, -⟩ := List.cons.inj joined
          have behind_eq : behind = item ++ back := (List.cons.inj joined).2
          have le := length_skipSpace_le last
          rw [opened, List.length_cons] at le
          dsimp only
          rw [if_pos isColon, overlong_open (by decide) (by decide)]
          rcases skipSpace_front item back with ⟨empty, -⟩ | split
          · rw [empty, scanOnce_nil, scanOnceError_nil]
            exact iff_of_false quiet not_overlong_nil
          · have shorter := length_skipSpace_le item
            rw [behind_eq, split] at reads value
            refine valueThen_cut reads value ends (by omega) (afterMemberError_noComma less) ?_
            intro inner' inner_eq inner_le
            exact later inner' back less inner_eq short (by omega)

/-- Where an object or an array is cut off: behind its bracket, or in its members
or items. -/
theorem cutOff_bracket {point : CodePoint} {text rest : PyStr}
    {innerError : Nat → PyStr → LoadsError} (quote : ¬ point.val = 34)
    (foreign : isNumberPoint point = false) (reads : Reads float .value (point :: text) rest)
    (enclosed : ∀ front, Enclosed (point :: front))
    (raises : ∀ fuel front,
      scanOnceError float (fuel + 1) (point :: front) = innerError fuel (skipSpace front))
    (nothing : ∀ fuel, innerError fuel [] = .decode)
    (cut : ∀ front back fuel, skipSpace text = front ++ back → front ≠ [] →
      rest.length < back.length → 2 * front.length + 1 ≤ fuel →
      (innerError fuel front = .value ↔ Overlong front)) :
    CutOff float .value (point :: text) rest := by
  apply cutOff_enclosed reads enclosed
  rintro front back fuel rfl short enough
  rw [raises, overlong_open quote foreign]
  cases opened : skipSpace front with
  | nil =>
      rw [nothing]
      exact iff_of_false (by decide) not_overlong_nil
  | cons first inner =>
      have le := length_skipSpace_le front
      rw [← opened]
      have split := (skipSpace_front front back).resolve_left fun both => by
        rw [opened] at both
        exact List.cons_ne_nil _ _ both.1
      refine cut _ back fuel split ?_ short (by omega)
      rw [opened]
      exact List.cons_ne_nil _ _

/-- In front of a closing bracket nothing more can be cut off. -/
theorem cutOff_closing {point : CodePoint} {rest front back : PyStr}
    {afterError : PyStr → LoadsError} (nothing : afterError [] = .decode)
    (shape : point :: rest = front ++ back) (short : rest.length < back.length) :
    afterError front = .value ↔ Overlong front := by
  cases front with
  | nil =>
      rw [nothing]
      exact iff_of_false (by decide) not_overlong_nil
  | cons first front =>
      have lengths := congrArg List.length shape
      simp only [List.length_append, List.length_cons] at lengths
      omega

/-- Behind a comma the next member or item is cut off, or nothing of it is there. -/
theorem cutOff_comma {text front back : PyStr} {afterError innerError : PyStr → LoadsError}
    (nothing : afterError [] = .decode) (empty : innerError [] = .decode)
    (behind : ∀ more, afterError (44 :: more) = innerError (skipSpace more))
    (shape : 44 :: text = front ++ back)
    (cut : ∀ inner, skipSpace text = inner ++ back → inner.length < front.length →
      (innerError inner = .value ↔ Overlong inner)) :
    afterError front = .value ↔ Overlong front := by
  cases front with
  | nil =>
      rw [nothing]
      exact iff_of_false (by decide) not_overlong_nil
  | cons first front =>
      obtain ⟨rfl, rfl⟩ := List.cons.inj shape
      rw [behind, overlong_open (by decide) (by decide)]
      rcases skipSpace_front front back with ⟨blank, -⟩ | split
      · rw [blank, empty]
        exact iff_of_false (by decide) not_overlong_nil
      · have le := length_skipSpace_le front
        exact cut _ split (by rw [List.length_cons]; omega)

/-- Every piece that is cut off raises `ValueError` exactly if it ends in a long
integer. -/
theorem cutOff_of_reads {piece : Piece} {text rest : PyStr} (reads : Reads float piece text rest) :
    CutOff float piece text rest := by
  have brace : (123 : CodePoint).val = 123 := rfl
  have bracket : (91 : CodePoint).val = 91 := rfl
  have objectRaises : ∀ fuel front, scanOnceError float (fuel + 1) (123 :: front) =
      scanMembersError float fuel (skipSpace front) := by
    intro fuel front
    rw [scanOnceError, if_neg (by decide), if_pos brace]
  have arrayRaises : ∀ fuel front, scanOnceError float (fuel + 1) (91 :: front) =
      scanItemsError float fuel (skipSpace front) := by
    intro fuel front
    rw [scanOnceError, if_neg (by decide), if_neg (by decide), if_pos bracket]
  induction reads with
  | string read => exact cutOff_string read
  | emptyObject closes =>
      refine cutOff_bracket (by decide) (by decide) (.emptyObject closes)
        (fun _ => Or.inr (Or.inl rfl)) objectRaises scanMembersError_nil ?_
      intro front back fuel shape nonempty short _
      have lengths := congrArg List.length (closes.symm.trans shape)
      have positive := List.length_pos_iff.mpr nonempty
      rw [List.length_append, List.length_cons] at lengths
      omega
  | object inner inductionHypothesis =>
      refine cutOff_bracket (by decide) (by decide) (.object inner)
        (fun _ => Or.inr (Or.inl rfl)) objectRaises scanMembersError_nil ?_
      intro front back fuel shape _ short enough
      exact inductionHypothesis front back fuel shape short (by omega)
  | emptyArray closes =>
      refine cutOff_bracket (by decide) (by decide) (.emptyArray closes)
        (fun _ => Or.inr (Or.inr rfl)) arrayRaises scanItemsError_nil ?_
      intro front back fuel shape nonempty short _
      have lengths := congrArg List.length (closes.symm.trans shape)
      have positive := List.length_pos_iff.mpr nonempty
      rw [List.length_append, List.length_cons] at lengths
      omega
  | array opens inner inductionHypothesis =>
      refine cutOff_bracket (by decide) (by decide) (.array opens inner)
        (fun _ => Or.inr (Or.inr rfl)) arrayRaises scanItemsError_nil ?_
      intro front back fuel shape _ short enough
      exact inductionHypothesis front back fuel shape short enough
  | @atom point text rest value other read =>
      obtain ⟨used, used_eq, kind⟩ := atom_used float other read
      intro front back fuel shape le enough
      cases front with
      | nil =>
          rw [scanOnceError_nil, scanOnce_nil]
          exact ⟨fun _ => iff_of_false (by decide) not_overlong_nil,
            fun _ _ nothing => by contradiction⟩
      | cons first front =>
          obtain rfl : point = first := (List.cons.inj shape).1
          have within : point :: front <+: used := by
            have lengths := congrArg List.length (used_eq.symm.trans shape)
            simp only [List.length_append] at lengths
            exact List.prefix_of_prefix_length_le (shape ▸ List.prefix_append _ back)
              (used_eq ▸ List.prefix_append _ rest) (by omega)
          rw [List.length_cons] at enough
          obtain ⟨less, rfl⟩ : ∃ less, fuel = less + 1 := ⟨fuel - 1, by omega⟩
          exact atom_cut float other kind within less
  | member key colon_eq value later valueHypothesis laterHypothesis =>
      exact cutOff_member key colon_eq value (ends_of_reads later (Or.inl rfl)) valueHypothesis
        laterHypothesis
  | lastMember =>
      intro front back fuel shape short _
      exact @cutOff_closing _ _ _ _ (afterMemberError float fuel) rfl shape short
  | nextMember next inductionHypothesis =>
      intro front back fuel shape short enough
      refine @cutOff_comma _ _ _ (afterMemberError float fuel) (scanMembersError float fuel) rfl
        (scanMembersError_nil fuel) (fun _ => rfl) shape ?_
      intro inner inner_eq shorter
      exact inductionHypothesis inner back fuel inner_eq short (by omega)
  | item value later valueHypothesis laterHypothesis =>
      intro front back fuel shape short enough
      obtain ⟨less, rfl⟩ : ∃ less, fuel = less + 1 := ⟨fuel - 1, by omega⟩
      subst shape
      rw [scanItemsError]
      refine valueThen_cut value valueHypothesis (ends_of_reads later (Or.inr rfl)) (by omega)
        (afterItemError_noComma less) ?_
      intro inner inner_eq le
      exact laterHypothesis inner back less inner_eq short (by omega)
  | lastItem =>
      intro front back fuel shape short _
      exact @cutOff_closing _ _ _ _ (afterItemError float fuel) rfl shape short
  | nextItem next inductionHypothesis =>
      intro front back fuel shape short enough
      refine @cutOff_comma _ _ _ (afterItemError float fuel) (scanItemsError float fuel) rfl
        (scanItemsError_nil fuel) (fun _ => rfl) shape ?_
      intro inner inner_eq shorter
      exact inductionHypothesis inner back fuel inner_eq short (by omega)

theorem enclosed_of_object {fuel : Nat} {text rest : PyStr} {members : List (PyStr × Value)}
    (scan : scanOnce float (fuel + 1) text = some (.object members, rest)) : Enclosed text := by
  unfold Enclosed
  cases onceStep_of_scan scan with
  | emptyObject => exact Or.inr (Or.inl rfl)
  | object => exact Or.inr (Or.inl rfl)
  | array opens inner => exact Or.inr (Or.inr rfl)
  | atom other inner => exact absurd rfl (atom_ne_object float other inner)

/-- The front of an object text, cut in front of more than blanks: `json.loads`
raises `ValueError` exactly if the front ends in a long integer, and
`JSONDecodeError` otherwise. -/
theorem loadsError_cut {front back : PyStr} {members : List (PyStr × Value)}
    (loaded : loads float (front ++ back) = some (.object members))
    (solid : ∃ point ∈ back, ¬ Blank point) :
    loads float front = none ∧ (loadsError float front = .value ↔ Overlong front) := by
  obtain ⟨bom, rest, scan, blank⟩ := scan_of_loads loaded
  have restBlank := blank_of_skipSpace_nil blank
  have reads := (reads_of_scan float _).1 _ _ _ scan
  have enclosed := enclosed_of_object scan
  unfold loads loadsError
  cases opened : skipSpace front with
  | nil =>
      have short : ¬ Overlong front := by
        rw [← overlong_skipSpace, opened]
        exact not_overlong_nil
      rw [scanOnce_nil, scanOnceError_nil]
      refine ⟨?_, iff_of_false ?_ short⟩
      · split <;> rfl
      · split <;> exact nofun
  | cons point inner =>
      have nonempty : skipSpace front ≠ [] := by
        rw [opened]
        exact List.cons_ne_nil _ _
      have split := (skipSpace_front front back).resolve_left fun both => nonempty both.1
      rw [split] at reads enclosed
      have enclosedFront : Enclosed (skipSpace front) := by
        unfold Enclosed at enclosed ⊢
        rwa [List.head?_append_of_ne_nil _ nonempty] at enclosed
      have cutOff : ¬ back <:+ rest := by
        intro suffix
        obtain ⟨point, member, visible⟩ := solid
        exact visible (restBlank point (suffix.subset member))
      have unread : ∀ fuel, scanOnce float fuel (skipSpace front) = none := by
        intro fuel
        by_contra read
        obtain ⟨⟨value, more⟩, read⟩ := Option.ne_none_iff_exists'.mp read
        apply cutOff
        rw [reads.scan_front enclosedFront read]
        exact List.suffix_append _ _
      have short : rest.length < back.length := by
        obtain ⟨used, used_eq, -⟩ := reads.used
        by_contra long
        apply cutOff
        exact List.suffix_of_suffix_length_le (List.suffix_append (skipSpace front) back)
          (used_eq ▸ List.suffix_append used rest) (by omega)
      have bomFront : front.head? ≠ some 0xfeff := by
        have some_ : front ≠ [] := by
          rintro rfl
          exact nonempty rfl
        rwa [List.head?_append_of_ne_nil _ some_] at bom
      have le := length_skipSpace_le front
      have raises := (cutOff_of_reads reads (skipSpace front) back (2 * front.length) rfl
        (le_of_lt short) (by omega)).1 (unread _)
      rw [overlong_skipSpace] at raises
      rw [← opened, unread, if_neg bomFront, if_neg bomFront]
      exact ⟨rfl, raises⟩

/-- An object ends with its brace. -/
theorem scanOnce_brace {fuel : Nat} {text rest : PyStr} {members : List (PyStr × Value)}
    (scan : scanOnce float fuel text = some (.object members, rest)) :
    ∃ front, text = front ++ 125 :: rest := by
  obtain ⟨less, rfl⟩ : ∃ less, fuel = less + 1 := by
    cases fuel with
    | zero => rw [scanOnce] at scan; contradiction
    | succ less => exact ⟨less, rfl⟩
  cases onceStep_of_scan scan with
  | emptyObject closes =>
      obtain ⟨blanks, rfl, -, -⟩ := exists_blanks closes
      exact ⟨123 :: blanks, rfl⟩
  | @object behind _ _ opens inner =>
      obtain ⟨front, _, shape, -⟩ := (extents _).2.1 _ _ _ _ inner
      obtain ⟨blanks, blanks_eq, -⟩ := blanks_append_skipSpace behind
      rw [shape] at blanks_eq
      exact ⟨123 :: (blanks ++ front), by rw [blanks_eq]; simp⟩
  | array opens inner =>
      obtain ⟨_, _, _, same, _⟩ := (extents _).2.2 _ _ _ _ inner
      exact Value.noConfusion same
  | atom other inner => exact absurd rfl (atom_ne_object float other inner)

theorem skipSpace_of_blanks {blanks : PyStr} (blank : ∀ point ∈ blanks, Blank point) :
    skipSpace blanks = [] := by
  have nothing := skipSpace_blanks blank []
  rwa [List.append_nil] at nothing

/-- Blanks behind an object are no part of it. -/
theorem loads_front_of_blanks {front blanks : PyStr} {members : List (PyStr × Value)}
    (blank : ∀ point ∈ blanks, Blank point)
    (loaded : loads float (front ++ blanks) = some (.object members)) :
    ∃ value, loads float front = some value := by
  obtain ⟨bom, rest, scan, restBlank⟩ := scan_of_loads loaded
  obtain ⟨inner, text_eq⟩ := scanOnce_brace scan
  have reads := (reads_of_scan float _).1 _ _ _ scan
  have enclosed := enclosed_of_object scan
  rcases skipSpace_front front blanks with ⟨empty, -⟩ | split
  · have nothing := skipSpace_of_blanks
      (List.forall_mem_append.mpr ⟨blank_of_skipSpace_nil empty, blank⟩)
    rw [nothing] at text_eq
    exact absurd text_eq (by simp)
  · rw [split] at text_eq reads enclosed
    -- The brace is not a blank, so it is in the front.
    obtain ⟨more, front_eq, rest_eq⟩ : ∃ more, skipSpace front = inner ++ 125 :: more ∧
        rest = more ++ blanks := by
      rcases List.append_eq_append_iff.mp text_eq with ⟨tail, -, blanks_eq⟩ | ⟨tail, front_eq, tail_eq⟩
      · have brace := blank 125 (by rw [blanks_eq]; simp)
        exact absurd brace (by decide)
      · cases tail with
        | nil =>
            have brace := blank 125 (by rw [← List.nil_append blanks, ← tail_eq]; simp)
            exact absurd brace (by decide)
        | cons first more =>
            obtain ⟨rfl, rest_eq⟩ := List.cons.inj tail_eq
            exact ⟨more, front_eq, rest_eq⟩
    have nonempty : skipSpace front ≠ [] := by
      rw [front_eq]
      exact List.append_ne_nil_of_right_ne_nil _ (List.cons_ne_nil _ _)
    have reads' : Reads float .value (skipSpace front) more := by
      obtain ⟨used, used_eq, again⟩ := reads.extent (Or.inr enclosed)
      have short := again more (Or.inr enclosed)
      rw [rest_eq, ← List.append_assoc] at used_eq
      rwa [List.append_cancel_right used_eq]
    have bomFront : front.head? ≠ some 0xfeff := by
      have some_ : front ≠ [] := by
        rintro rfl
        exact nonempty rfl
      rwa [List.head?_append_of_ne_nil _ some_] at bom
    have blankMore : skipSpace more = [] := by
      have blankRest := blank_of_skipSpace_nil restBlank
      rw [rest_eq] at blankRest
      exact skipSpace_of_blanks (List.forall_mem_append.mp blankRest).1
    have accepted := (loads_isSome_iff float front).mpr ⟨bomFront, more, reads', blankMore⟩
    exact Option.isSome_iff_exists.mp accepted

end Pieces

end MiniMs.Library.Json
