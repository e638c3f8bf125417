import MiniMs.Daemon.RouteResponse

/-!
The pod registry: a JSON file that every starting worker appends itself to, and
that the router looks worker names up in.

Owns: `pod_registry_alloc_id` and `pod_registry_register` of the C library,
`PodRegistry.get_pod_id`, the text of a registry by its registrations, and the
theorem that a look-up finds the last registration of a name.

The file locks make each call one step.
-/

namespace MiniMs.Daemon

open MiniMs.Http MiniMs.Dpumesh MiniMs.Library.Text MiniMs.Library.Json MiniMs.Library.Number

/-! ### The C functions -/

/-- `pod_registry_alloc_id`: the counter file holds the last id, if any. -/
def podRegistryAllocId (counter : Option Nat) : Nat :=
  match counter with
  | none => 1
  | some cur => cur + 1

/-- `sizeof(buf)` and `sizeof(newbuf)`. -/
def registrySize : Nat := 8192

/-- `buf`: `{}` where there is no file. -/
def registryBuf (file : Option Bytes) : Bytes :=
  match file with
  | none => ascii "\x7b\x7d"
  | some text => cstr (text.take (registrySize - 1))

/-- The text up to `strrchr(buf, '}')`, or to its end. -/
def beforeLastBrace (text : Bytes) : Bytes :=
  match text.reverse.dropWhile (· ≠ 125) with
  | [] => text
  | _ :: front => front.reverse

/-- The text that `pod_registry_register` formats. -/
def registerText (buf name : Bytes) (podId : Int) (service : Bytes) : Bytes :=
  let front := beforeLastBrace buf
  front ++ (if 58 ∈ front then ascii ", " else []) ++ ascii "\"" ++ name ++
    ascii "\": \x7b\"pod_id\": " ++ decimalInt podId ++ ascii ", \"service\": \"" ++ service ++
    ascii "\"\x7d\x7d"

/-- `pod_registry_register`: the file that it writes. -/
def podRegistryRegister (file : Option Bytes) (name : Bytes) (podId : Int) (service : Bytes) :
    Bytes :=
  snprintf registrySize (registerText (registryBuf file) name podId service)

/-! ### `PodRegistry.get_pod_id` -/

/-- The value of an `int`, by the text it prints as. -/
def intValue (numeral : Numeral) : Int := strtol numeral.text

/-- Whether a number is an `int`. -/
def isInt (numeral : Numeral) : Bool :=
  numeral.text.all fun byte => Library.Number.isDigit byte || byte = 45

/-- The pod id of an entry; a `pod_id` that is no number is not written. -/
def entryPodId : Value → Int
  | .object entry =>
      match get entry (lit "pod_id") (.number ⟨ascii "-1", numeral_minusOne⟩) with
      | .number numeral => intValue numeral
      | _ => -1
  | .number numeral => if isInt numeral then intValue numeral else -1
  | .bool value => if value then 1 else 0
  | _ => -1

/-- `PodRegistry.get_pod_id`; a name that is no string is no key. -/
def getPodId (float : PyStr → Numeral) (file : Option Bytes) (workerName : Value) : Int :=
  match deserializeHeader float (file.getD (ascii "\x7b\x7d")), workerName with
  | some (.object data), .string name => entryPodId (get data name .null)
  | _, _ => -1

/-! ### Registrations -/

/-- The bytes of names as manifests have them, and more. -/
def PlainName (name : Bytes) : Prop :=
  ∀ byte ∈ name, 32 ≤ byte ∧ byte < 128 ∧ byte ≠ 34 ∧ byte ≠ 92

/-- One worker in the registry. -/
structure Registration where
  name : Bytes
  podId : Nat
  service : Bytes
  name_plain : PlainName name
  service_plain : PlainName service
  podId_small : podId < 2 ^ 31

/-- The entry of a worker. -/
def Registration.field (row : Registration) : Field where
  key := row.name
  raw := rowText [] ⟨ascii "pod_id", decimalInt row.podId⟩ [⟨ascii "service", inQuotes row.service⟩]

/-- The file after the registrations. -/
def registryText : List Registration → Bytes
  | [] => ascii "\x7b\x7d"
  | row :: rows => rowText [] row.field (rows.map Registration.field)

/-- The text without the closing brace. -/
def registryFront : List Registration → Bytes
  | [] => [123]
  | row :: rows => 123 :: (row.field.text ++ (rows.map Registration.field).flatMap fun field =>
      44 :: 32 :: field.text)

theorem registryText_eq (rows : List Registration) :
    registryText rows = registryFront rows ++ [125] := by
  cases rows with
  | nil => rfl
  | cons row rows => simp [registryText, registryFront, rowText, frontText, tailText]

theorem beforeLastBrace_append (front : Bytes) {behind : Bytes} (last : 125 ∉ behind) :
    beforeLastBrace (front ++ 125 :: behind) = front := by
  have stops : (front ++ 125 :: behind).reverse.dropWhile (· ≠ 125) = 125 :: front.reverse := by
    rw [List.reverse_append, List.reverse_cons, List.append_assoc, List.dropWhile_append_of_pos]
    · rw [List.singleton_append, List.dropWhile_cons_of_neg (by decide)]
    · intro byte member
      have other : byte ≠ 125 := fun same => last (by rwa [← same, ← List.mem_reverse])
      simpa using other
  unfold beforeLastBrace
  rw [stops]
  exact List.reverse_reverse front

theorem colon_mem_registryFront (rows : List Registration) :
    58 ∈ registryFront rows ↔ rows ≠ [] := by
  cases rows with
  | nil => decide
  | cons row rows => simp [registryFront, Field.text]

/-- The entry that `pod_registry_register` writes. -/
def entryField (name : Bytes) (podId : Int) (service : Bytes) : Field where
  key := name
  raw := rowText [] ⟨ascii "pod_id", decimalInt podId⟩ [⟨ascii "service", inQuotes service⟩]

theorem registerText_eq (buf name : Bytes) (podId : Int) (service : Bytes) :
    registerText buf name podId service = beforeLastBrace buf ++
      ((if 58 ∈ beforeLastBrace buf then [44, 32] else []) ++
        ((entryField name podId service).text ++ [125])) := by
  have entry : ∀ before : Bytes, before ++ ascii "\"" ++ name ++ ascii "\": \x7b\"pod_id\": " ++
      decimalInt podId ++ ascii ", \"service\": \"" ++ service ++ ascii "\"\x7d\x7d" =
        before ++ ((entryField name podId service).text ++ [125]) := by
    intro before
    simp only [entryField, Field.text, rowText, frontText, tailText, inQuotes,
      List.flatMap_nil, List.flatMap_cons, List.append_assoc, List.nil_append, List.cons_append]
    rfl
  unfold registerText
  dsimp only
  rw [entry, List.append_assoc]
  rfl

/-- Registering appends an entry. -/
theorem registerText_registryText (rows : List Registration) (row : Registration) :
    registerText (registryText rows) row.name row.podId row.service =
      registryText (rows ++ [row]) := by
  have entry : entryField row.name row.podId row.service = row.field := rfl
  rw [registerText_eq, registryText_eq, beforeLastBrace_append _ List.not_mem_nil, entry,
    registryText_eq]
  cases rows with
  | nil =>
      have noEntries : ¬ 58 ∈ registryFront [] := by decide
      rw [if_neg noEntries]
      simp [registryFront]
  | cons first rows =>
      rw [if_pos ((colon_mem_registryFront _).mpr (List.cons_ne_nil _ _))]
      simp [registryFront]

/-! ### Look-ups -/

section Reading

variable {float : PyStr → Numeral}

theorem PlainName.encoded {name : Bytes} (plain : PlainName name) :
    encode (ofAscii name) = some name :=
  encode_ofAscii fun byte member => (plain byte member).2.1

theorem PlainName.clean {name : Bytes} (plain : PlainName name) : Clean (ofAscii name) := by
  intro point member
  obtain ⟨byte, inside, same⟩ := List.mem_map.mp member
  obtain ⟨low, -, quote, backslash⟩ := plain byte inside
  rw [← same]
  refine ⟨UInt8.le_iff_toNat_le.mp low, ?_, ?_⟩
  · exact fun equal => quote (UInt8.toNat_inj.mp equal)
  · exact fun equal => backslash (UInt8.toNat_inj.mp equal)

theorem ofAscii_inj {first second : Bytes} (same : ofAscii first = ofAscii second) :
    first = second := by
  apply List.map_injective_iff.mpr _ same
  intro left right equal
  exact UInt8.toNat_inj.mp (congrArg (fun point : CodePoint => point.val) equal)

variable (float)

theorem clean_podId : Clean (lit "pod_id") := forall_mem_of_all (by decide)

theorem clean_service : Clean (lit "service") := forall_mem_of_all (by decide)

/-- The two members of an entry. -/
def Registration.entryPodId (row : Registration) : WireMember float :=
  .integer "pod_id" clean_podId row.podId row.podId_small

def Registration.entryService (row : Registration) : WireMember float :=
  .string "service" clean_service row.service_plain.encoded
    row.service_plain.clean

/-- The entry of a worker as `json.load` reads it. -/
def Registration.member (row : Registration) : WireMember float where
  key := ofAscii row.name
  raw := objectText (row.entryPodId float).toMember [(row.entryService float).toMember]
  value := .object (setItems [] [(row.entryPodId float).toMember,
    (row.entryService float).toMember])
  clean := row.name_plain.clean
  scans := scans_objectText _ _
  field := row.field
  key_encoded := row.name_plain.encoded
  raw_encoded := by
    have members := encode_membersText (row.entryPodId float) [row.entryService float]
    have shape : row.field.raw = 123 ::
        ((row.entryPodId float).field.text ++
          tailText [(row.entryService float).field]) := by
      unfold Registration.field
      rw [decimalInt_natCast]
      rfl
    rw [shape]
    exact encode_cons_ascii 123 123 rfl (by decide) members

theorem deserializeHeader_registryText (rows : List Registration) :
    deserializeHeader float (registryText rows) =
      some (.object (setItems [] (rows.map fun row => (row.member float).toMember))) := by
  cases rows with
  | nil =>
      unfold deserializeHeader registryText
      rw [decode_of_encode (encode_lit _)]
      rfl
  | cons row rows =>
      have read := deserializeHeader_rowText (row.member float)
        (rows.map (Registration.member float))
      rw [List.map_map, List.map_map] at read
      exact read

theorem entryPodId_member (row : Registration) :
    entryPodId (row.member float).value = row.podId := by
  have small := row.podId_small
  show strtol (integerNumeral (integerRaw row.podId)).text = row.podId
  rw [integerNumeral_integerRaw]
  have stops : ∀ byte, ([] : Bytes).head? = some byte → Library.Number.isDigit byte = false := by
    simp
  have read := strtol_toDigits (show row.podId ≤ longMax by unfold longMax; omega) stops
  rwa [List.append_nil] at read

/-- The last registration of a name. -/
def lastNamed (rows : List Registration) (name : Bytes) : Option Registration :=
  rows.reverse.find? fun row => row.name = name

/-- A look-up finds the last registration of a name. -/
theorem getPodId_registryText {file : Option Bytes} {rows : List Registration}
    (holds : file.getD (ascii "\x7b\x7d") = registryText rows) (name : Bytes) :
    getPodId float file (.string (ofAscii name)) =
      ((lastNamed rows name).map fun row => (row.podId : Int)).getD (-1) := by
  have key : ∀ row : Registration, (row.member float).key = ofAscii name ↔
      row.name = name := by
    intro row
    constructor
    · exact ofAscii_inj
    · intro same
      rw [← same]
      rfl
  unfold getPodId
  rw [holds, deserializeHeader_registryText float]
  dsimp only
  rw [get_setItems, ← List.map_reverse, List.find?_map]
  unfold lastNamed
  have same : ((fun member : Member float => decide (member.key = ofAscii name)) ∘
      fun row : Registration => (row.member float).toMember) =
        fun row => decide (row.name = name) := by
    funext row
    exact decide_eq_decide.mpr (key row)
  rw [same]
  cases rows.reverse.find? fun row => decide (row.name = name) with
  | none => rfl
  | some row => exact entryPodId_member float row

end Reading

end MiniMs.Daemon
