import MiniMs.Dpumesh.Scanner

/-!
Header texts as fields in a row.

Owns: the text of an object given field by field, the fields in which no key
other than their own can be found, what `json_get_str` reads from a row of such
fields, and `serialize_header` as such a row.
-/

namespace MiniMs.Dpumesh

open MiniMs.Library.Text

/-- A key and the text of its value. -/
structure Field where
  key : Bytes
  raw : Bytes

def Field.text (field : Field) : Bytes := 34 :: (field.key ++ 34 :: 58 :: 32 :: field.raw)

/-- The text of a value in quotes. -/
def inQuotes (value : Bytes) : Bytes := 34 :: (value ++ [34])

/-- The fields in front of another one. -/
def frontText (fields : List Field) : Bytes := fields.flatMap fun field => field.text ++ [44, 32]

/-- The fields behind another one, and the closing brace. -/
def tailText (fields : List Field) : Bytes :=
  (fields.flatMap fun field => 44 :: 32 :: field.text) ++ [125]

/-- An object text, with one field singled out. -/
def rowText (front : List Field) (field : Field) (back : List Field) : Bytes :=
  123 :: (frontText front ++ (field.text ++ tailText back))

/-! ### Fields that hide nothing -/

/-- A field whose key has no quote, and whose value has none either, or is
in quotes. -/
structure Field.Plain (field : Field) : Prop where
  key : 34 ∉ field.key
  raw : 34 ∉ field.raw ∨ ∃ value, field.raw = inQuotes value ∧ 34 ∉ value

/-- A key that can stand in a pattern: it starts with a letter. -/
structure Searched (key : Bytes) : Prop where
  noQuote : 34 ∉ key
  short : key.length < 125
  starts : ∃ first rest, key = first :: rest ∧ first ≠ 58 ∧ first ≠ 44

theorem searched_of_letter {key : Bytes} (letter : key.head?.any (97 ≤ ·) = true)
    (noQuote : 34 ∉ key) (short : key.length < 125) : Searched key where
  noQuote := noQuote
  short := short
  starts := by
    cases key with
    | nil => contradiction
    | cons first rest =>
        have low : 97 ≤ first := by simpa using letter
        refine ⟨first, rest, rfl, ?_, ?_⟩
        · rintro rfl
          exact absurd low (by decide)
        · rintro rfl
          exact absurd low (by decide)

theorem append_quote_inj {first second after after' : Bytes} (left : 34 ∉ first)
    (right : 34 ∉ second) (same : first ++ 34 :: after = second ++ 34 :: after') :
    first = second ∧ after = after' := by
  induction first generalizing second with
  | nil =>
      cases second with
      | nil => exact ⟨rfl, by simpa using same⟩
      | cons head second =>
          have quote : 34 = head := (List.cons.inj same).1
          exact absurd (by rw [quote]; exact List.mem_cons_self) right
  | cons head first inductionHypothesis =>
      cases second with
      | nil =>
          have quote : head = 34 := (List.cons.inj same).1
          exact absurd (by rw [quote]; exact List.mem_cons_self) left
      | cons other second =>
          obtain ⟨heads, tails⟩ := List.cons.inj same
          have later := inductionHypothesis (fun member => left (List.mem_cons_of_mem _ member))
            (fun member => right (List.mem_cons_of_mem _ member)) tails
          exact ⟨by rw [heads, later.1], later.2⟩

/-- The pattern does not start at the opening quote of a text that is followed
by something else. -/
theorem not_pattern_opening {key text after : Bytes} (searched : Searched key)
    (noQuote : 34 ∉ text) (other : key ≠ text ∨ ∀ rest, after ≠ 58 :: rest) :
    ¬ keyPattern key <+: 34 :: (text ++ 34 :: after) := by
  rintro ⟨rest, shape⟩
  rw [keyPattern_eq searched.short] at shape
  have inner : key ++ 34 :: (58 :: rest) = text ++ 34 :: after := by
    simpa using shape
  obtain ⟨same, behind⟩ := append_quote_inj searched.noQuote noQuote inner
  rcases other with different | notColon
  · exact different same
  · exact notColon rest behind.symm

/-- The pattern does not start at a closing quote. -/
theorem not_pattern_closing {key after : Bytes} (searched : Searched key) {next : UInt8}
    (ends : next = 58 ∨ next = 44) : ¬ keyPattern key <+: 34 :: next :: after := by
  obtain ⟨first, rest, shape, notColon, notComma⟩ := searched.starts
  rw [keyPattern_eq searched.short, shape]
  intro starts
  have same : first = next := by
    have inner := (List.cons_prefix_cons.mp starts).2
    exact (List.cons_prefix_cons.mp inner).1
  rcases ends with colon | comma
  · exact notColon (same.trans colon)
  · exact notComma (same.trans comma)

/-- No occurrence of the pattern starts in a quoted text. -/
theorem not_startsIn_quoted {key text after : Bytes} (searched : Searched key)
    (noQuote : 34 ∉ text) {next : UInt8} (ends : next = 58 ∨ next = 44)
    (other : key ≠ text ∨ next ≠ 58) :
    ¬ StartsIn (keyPattern key) (34 :: (text ++ [34])) (next :: after) := by
  have pattern : keyPattern key = 34 :: (key ++ [34, 58]) := keyPattern_eq searched.short
  rw [startsIn_cons, startsIn_append, startsIn_cons]
  rintro (opening | inside | closing | none)
  · have shape : 34 :: (text ++ [34]) ++ next :: after = 34 :: (text ++ 34 :: next :: after) := by
      simp
    rw [shape] at opening
    apply not_pattern_opening searched noQuote _ opening
    exact other.imp_right fun different rest same => different (List.cons.inj same).1
  · rw [pattern] at inside
    exact not_startsIn_of_head _ noQuote inside
  · exact not_pattern_closing searched ends closing
  · exact not_startsIn_nil _ _ none

/-- No occurrence of the pattern starts in another field. -/
theorem not_startsIn_field {key : Bytes} (searched : Searched key) {field : Field}
    (plain : field.Plain) (other : key ≠ field.key) (after : Bytes) :
    ¬ StartsIn (keyPattern key) (field.text ++ [44, 32]) after := by
  have pattern : keyPattern key = 34 :: (key ++ [34, 58]) := keyPattern_eq searched.short
  have split : field.text ++ [44, 32] =
      34 :: (field.key ++ [34]) ++ ([58, 32] ++ (field.raw ++ [44, 32])) := by
    simp [Field.text]
  rw [split, startsIn_append, startsIn_append, startsIn_append, not_or, not_or, not_or]
  refine ⟨?_, ?_, ?_, ?_⟩
  · exact not_startsIn_quoted searched plain.key (Or.inl rfl) (Or.inl other)
  · rw [pattern]
    exact not_startsIn_of_head _ (by decide)
  · rcases plain.raw with bare | ⟨value, shape, noQuote⟩
    · rw [pattern]
      exact not_startsIn_of_head _ bare
    · rw [shape]
      exact not_startsIn_quoted searched noQuote (Or.inr rfl) (Or.inr (by decide))
  · rw [pattern]
    exact not_startsIn_of_head _ (by decide)

theorem not_startsIn_frontText {key : Bytes} (searched : Searched key) {fields : List Field}
    (plain : ∀ field ∈ fields, field.Plain) (other : ∀ field ∈ fields, key ≠ field.key)
    (after : Bytes) : ¬ StartsIn (keyPattern key) (frontText fields) after := by
  induction fields with
  | nil => exact not_startsIn_nil _ _
  | cons field fields inductionHypothesis =>
      have later := inductionHypothesis
        (fun other member => plain other (List.mem_cons_of_mem _ member))
        (fun field member => other field (List.mem_cons_of_mem _ member))
      show ¬ StartsIn _ (field.text ++ [44, 32] ++ frontText fields) after
      rw [startsIn_append, not_or]
      exact ⟨not_startsIn_field searched (plain field List.mem_cons_self)
        (other field List.mem_cons_self) _, later⟩

/-- Behind plain fields a key is found in its own field. -/
theorem strstr_behind_front {front : List Field} {key : Bytes} (searched : Searched key)
    (plain : ∀ field ∈ front, field.Plain) (other : ∀ field ∈ front, key ≠ field.key)
    (raw after : Bytes) :
    strstr (123 :: (frontText front ++ ((⟨key, raw⟩ : Field).text ++ after))) (keyPattern key) =
      some (keyPattern key ++ 32 :: (raw ++ after)) := by
  have pattern : keyPattern key = 34 :: (key ++ [34, 58]) := keyPattern_eq searched.short
  have split : 123 :: (frontText front ++ ((⟨key, raw⟩ : Field).text ++ after)) =
      123 :: frontText front ++ (keyPattern key ++ 32 :: (raw ++ after)) := by
    rw [pattern]
    simp [Field.text]
  have first : ¬ StartsIn (keyPattern key) (123 :: frontText front)
      (keyPattern key ++ 32 :: (raw ++ after)) := by
    rw [← List.singleton_append, startsIn_append, not_or]
    refine ⟨?_, not_startsIn_frontText searched plain other _⟩
    rw [pattern]
    exact not_startsIn_of_head _ (by decide)
  rw [split]
  exact strstr_first first

/-- What `json_get_str` reads for a key from a row of plain fields. -/
theorem jsonGetStr_rowText {front back : List Field} {key value : Bytes}
    (searched : Searched key) (noQuote : 34 ∉ value) (plain : ∀ field ∈ front, field.Plain)
    (other : ∀ field ∈ front, key ≠ field.key) (outsz : Nat) :
    jsonGetStr (rowText front ⟨key, inQuotes value⟩ back) key outsz =
      some (value.take (outsz - 1)) := by
  have search := strstr_behind_front searched plain other (inQuotes value) (tailText back)
  have whole : (value ++ 34 :: tailText back).takeWhile (· ≠ 34) = value := by
    rw [takeWhile_append_quote, List.takeWhile_eq_self_iff]
    intro byte member
    simpa using ne_of_mem_of_not_mem member noQuote
  have quoted : inQuotes value ++ tailText back = 34 :: (value ++ 34 :: tailText back) := by
    simp [inQuotes]
  unfold rowText
  rw [jsonGetStr_of_strstr search, List.drop_left' rfl, quoted]
  show some (quotedValue (value ++ 34 :: tailText back) outsz) = _
  unfold quotedValue
  rw [whole]

/-! ### `serialize_header` -/

/-- The fields behind the method, in the order in which `serialize_header` writes
them. -/
def fieldsBehindMethod (url path queryString : Bytes) (statusCode : Int)
    (reqIdStr sourceWorker destWorker : Bytes) : List Field :=
  [⟨ascii "url", inQuotes url⟩, ⟨ascii "path", inQuotes path⟩, ⟨ascii "headers", ascii "\x7b\x7d"⟩,
    ⟨ascii "query_string", inQuotes queryString⟩, ⟨ascii "remote_addr", inQuotes []⟩,
    ⟨ascii "status_code", decimalInt statusCode⟩, ⟨ascii "req_id_str", inQuotes reqIdStr⟩,
    ⟨ascii "source_worker", inQuotes sourceWorker⟩, ⟨ascii "dest_worker", inQuotes destWorker⟩]

theorem headerText_eq (method url path queryString : Bytes) (statusCode : Int)
    (reqIdStr sourceWorker destWorker : Bytes) :
    headerText method url path queryString statusCode reqIdStr sourceWorker destWorker =
      rowText [] ⟨ascii "method", inQuotes method⟩
        (fieldsBehindMethod url path queryString statusCode reqIdStr sourceWorker destWorker) := by
  simp only [headerText, rowText, fieldsBehindMethod, frontText, tailText, Field.text, inQuotes,
    List.flatMap_cons, List.flatMap_nil, List.append_assoc, List.cons_append, List.nil_append]
  rfl

theorem rowText_shift (before : List Field) (first next : Field) (back : List Field) :
    rowText before first (next :: back) = rowText (before ++ [first]) next back := by
  simp [rowText, frontText, tailText, Field.text]

/-- Any field of a row can be singled out. -/
theorem rowText_focus (before : List Field) (first : Field) (front : List Field) (field : Field)
    (back : List Field) :
    rowText before first (front ++ field :: back) = rowText (before ++ first :: front) field back := by
  induction front generalizing before first with
  | nil => exact rowText_shift before first field back
  | cons next front inductionHypothesis =>
      rw [List.cons_append, rowText_shift, inductionHypothesis]
      simp

theorem zero_notMem_rowText {field : Field} {back : List Field}
    (clean : ∀ other ∈ field :: back, 0 ∉ other.key ∧ 0 ∉ other.raw) :
    0 ∉ rowText [] field back := by
  have text : ∀ other ∈ field :: back, 0 ∉ other.text := by
    intro other member
    obtain ⟨key, raw⟩ := clean other member
    simp [Field.text, key, raw]
  obtain ⟨first, later⟩ := List.forall_mem_cons.mp text
  simp only [rowText, frontText, tailText, List.flatMap_nil, List.nil_append, List.mem_cons,
    List.mem_append, List.mem_flatMap, List.not_mem_nil, or_false, not_or]
  refine ⟨by decide, first, ?_, by decide⟩
  rintro ⟨other, member, occurs⟩
  rcases occurs with comma | blank | inside
  · exact absurd comma (by decide)
  · exact absurd blank (by decide)
  · exact later other member inside

end MiniMs.Dpumesh
