import MiniMs.Daemon.RegistryMap

/-!
Registrations of the C library and of the Python class, in any order.

Owns: the calls, the condition under which the library's buffers hold the new text,
what one call of either side does to the map, and the theorem that the file stays
the map through every sequence of calls that meet the condition.
-/

namespace MiniMs.Daemon

open MiniMs.Http MiniMs.Dpumesh MiniMs.Library.Text MiniMs.Library.Json MiniMs.Library.Number

/-! ### Calls -/

/-- The bytes of a text. -/
def utf8 (name : Name) : Bytes := (encode name.val).getD []

inductive Side where
  | c
  | python

/-- A registration. -/
structure Call where
  side : Side
  name : Name
  row : Row

/-- The file behind a call. -/
def Call.apply (float : PyStr → Numeral) (file : Option Bytes) (call : Call) : Bytes :=
  match call.side with
  | .c => podRegistryRegister file (utf8 call.name) call.row.podId (utf8 call.row.service)
  | .python => PodRegistry.register float file call.name.val call.row.podId call.row.service.val

/-- No quotes, backslashes or control characters. -/
def Call.Plain (call : Call) : Prop := Clean call.name.val ∧ Clean call.row.service.val

/-- The library's buffers hold the text that it makes of the file. -/
def Call.Fits (file : Option Bytes) (call : Call) : Prop :=
  call.side = .c → (registerText (file.getD (ascii "\x7b\x7d")) (utf8 call.name) call.row.podId
    (utf8 call.row.service)).length < registrySize

/-- The file behind several calls. -/
def filesAfter (float : PyStr → Numeral) : Option Bytes → List Call → Option Bytes
  | file, [] => file
  | file, call :: calls => filesAfter float (some (call.apply float file)) calls

/-- Every call finds a file that it fits. -/
def AllFit (float : PyStr → Numeral) : Option Bytes → List Call → Prop
  | _, [] => True
  | file, call :: calls => call.Fits file ∧ AllFit float (some (call.apply float file)) calls

/-- The map behind several calls. -/
def RegistryMap.after (rows : RegistryMap) (calls : List Call) : RegistryMap :=
  calls.foldl (fun rows call => rows.register call.name call.row) rows

/-! ### The map -/

theorem RegistryMap.find_register (rows : RegistryMap) (name : Name) (row : Row) (wanted : PyStr) :
    (rows.register name row).find wanted = if name.val = wanted then some row else rows.find wanted := by
  induction rows with
  | nil =>
      unfold RegistryMap.register RegistryMap.find
      by_cases same : name.val = wanted <;> simp [same]
  | cons entry rows inductionHypothesis =>
      obtain ⟨other, old⟩ := entry
      unfold RegistryMap.find at inductionHypothesis ⊢
      unfold RegistryMap.register
      by_cases replaced : other = name
      · rw [if_pos replaced]
        by_cases same : name.val = wanted
        · simp [same]
        · have different : ¬ other.val = wanted := by rwa [replaced]
          simp [same, different]
      · rw [if_neg replaced]
        by_cases here : other.val = wanted
        · have different : ¬ name.val = wanted :=
            fun same => replaced (Subtype.ext (here.trans same.symm))
          simp [here, different]
        · rw [List.find?_cons_of_neg (by simpa using here), inductionHypothesis,
            List.find?_cons_of_neg (by simpa using here)]

/-- The last call of a name counts, and every worker that was there is still there. -/
theorem RegistryMap.find_after (rows : RegistryMap) (calls : List Call) (wanted : PyStr) :
    (rows.after calls).find wanted =
      ((calls.reverse.find? fun call => call.name.val = wanted).map Call.row).or (rows.find wanted) := by
  induction calls generalizing rows with
  | nil => rfl
  | cons call calls inductionHypothesis =>
      have later := inductionHypothesis (rows.register call.name call.row)
      rw [RegistryMap.find_register] at later
      show ((rows.register call.name call.row).after calls).find wanted = _
      rw [later, List.reverse_cons, List.find?_append]
      cases calls.reverse.find? fun call => call.name.val = wanted with
      | some found => rfl
      | none =>
          by_cases same : call.name.val = wanted
          · simp [same]
          · simp [same]

/-! ### One call -/

section Call

variable {float : PyStr → Numeral} {file : Option Bytes} {rows : RegistryMap}

theorem encode_utf8 (name : Name) : encode name.val = some (utf8 name) := by
  obtain ⟨bytes, encoded⟩ := exists_encode name.property
  unfold utf8
  rw [encoded]
  rfl

theorem PodId.short (podId : PodId) : (Nat.toDigits 10 podId.val.natAbs).length ≤ 4300 := by
  have low := podId.property.1
  have high := podId.property.2
  exact length_toDigits_le (by omega)

theorem forall₂_register {members : List (PyStr × Value)}
    (agree : List.Forall₂ MemberOf rows members) (name : Name) (row : Row) :
    List.Forall₂ MemberOf (rows.register name row)
      (setItem members name.val (entryValue row.podId row.service)) := by
  have new : MemberOf (name, row) (name.val, entryValue row.podId row.service) := ⟨rfl, .written⟩
  induction agree with
  | nil => exact .cons new .nil
  | @cons entry member rows members first rest inductionHypothesis =>
      obtain ⟨other, old⟩ := entry
      obtain ⟨key, value⟩ := member
      unfold RegistryMap.register setItem
      by_cases same : other = name
      · have same' : key = name.val := first.name.trans (congrArg Subtype.val same)
        rw [if_pos same, if_pos same', same']
        exact .cons new rest
      · have other' : ¬ key = name.val :=
          fun equal => same (Subtype.ext (first.name.symm.trans equal))
        rw [if_neg same, if_neg other']
        exact .cons first inductionHypothesis

variable (float) in
theorem readable_member {entry : Name × Row} {member : PyStr × Value}
    (isMember : MemberOf entry member) : Readable float member where
  scalars := by
    rw [isMember.name]
    exact entry.1.property
  scans := by
    obtain ⟨key, value⟩ := member
    have isEntry := isMember.entry
    have short := PodId.short entry.2.podId
    let podId : Printed float := .int "pod_id" clean_podId (by decide) _ short
    let service : Printed float := .string "service" clean_service (by decide)
      entry.2.service.property
    have different : lit "service" ≠ lit "pod_id" := by decide
    dsimp only at isEntry ⊢
    cases isEntry with
    | written =>
        have printed : (dumps (.object [podId.pair, service.pair])).map ofByte =
            objectText podId.toMember [service.toMember] := dumps_printed podId [service]
        have read := scans_objectText podId.toMember [service.toMember]
        have same : setItems [] [podId.toMember, service.toMember] = [podId.pair, service.pair] := by
          simp [setItems, setItem, podId, service, Printed.int, Printed.string, Printed.pair,
            different.symm]
        rw [same, ← printed] at read
        exact read
    | turned =>
        have printed : (dumps (.object [service.pair, podId.pair])).map ofByte =
            objectText service.toMember [podId.toMember] := dumps_printed service [podId]
        have read := scans_objectText service.toMember [podId.toMember]
        have same : setItems [] [service.toMember, podId.toMember] = [service.pair, podId.pair] := by
          simp [setItems, setItem, podId, service, Printed.int, Printed.string, Printed.pair,
            different]
        rw [same, ← printed] at read
        exact read
    | legacy => exact podId.raw_printed ▸ podId.scans

variable (float) in
theorem readable_members {members : List (PyStr × Value)}
    (agree : List.Forall₂ MemberOf rows members) : ∀ member ∈ members, Readable float member := by
  induction agree with
  | nil => exact List.forall_mem_nil _
  | cons first rest inductionHypothesis =>
      exact List.forall_mem_cons.mpr ⟨readable_member float first, inductionHypothesis⟩

/-- The Python class puts the entry into the map. -/
theorem represents_python (represents : Represents float file rows) (name : Name) (row : Row) :
    Represents float (some (PodRegistry.register float file name.val row.podId row.service.val))
      (rows.register name row) := by
  obtain ⟨members, loaded, agree⟩ := represents
  have agree' := forall₂_register agree name row
  obtain ⟨text, decoded, loads⟩ := Option.bind_eq_some_iff.mp loaded
  have nodup := nodup_setItem (nodup_of_loads loads) name.val (entryValue row.podId row.service)
  refine ⟨_, ?_, agree'⟩
  unfold PodRegistry.register
  rw [loaded]
  dsimp only
  unfold deserializeHeader
  rw [Option.getD_some, decode_dumps, Option.bind_some]
  exact loads_dumps nodup (readable_members float agree')

variable (float) in
/-- A signed integer with its bytes. -/
def WireMember.int (key : String) (clean_key : Clean (lit key)) (podId : PodId) :
    WireMember float where
  key := lit key
  raw := intRaw podId.val
  value := .number (intNumeral podId.val)
  clean := clean_key
  scans := scans_int float podId.short
  field := ⟨ascii key, intBytes podId.val⟩
  key_encoded := encode_lit key
  raw_encoded := by
    apply encode_map_ofByte
    intro byte member
    rcases forall_mem_intBytes podId.val byte member with digit | minus
    · have range := isDigit_range digit
      exact UInt8.lt_iff_toNat_lt.mpr (show byte.toNat < 128 by omega)
    · rw [minus]
      decide

variable (float) in
/-- The entry that the library writes. -/
def wireEntry (name : Name) (row : Row) (plain : Clean name.val ∧ Clean row.service.val) :
    WireMember float where
  key := name.val
  raw := objectText (WireMember.int float "pod_id" clean_podId row.podId).toMember
    [(WireMember.string "service" clean_service (encode_utf8 row.service)
      plain.2).toMember]
  value := .object (setItems [] [
    (WireMember.int float "pod_id" clean_podId row.podId).toMember,
    (WireMember.string "service" clean_service (encode_utf8 row.service)
      plain.2).toMember])
  clean := plain.1
  scans := scans_objectText _ _
  field := entryField (utf8 name) row.podId (utf8 row.service)
  key_encoded := encode_utf8 name
  raw_encoded := by
    have printed : decimalInt row.podId.val = intBytes row.podId.val := rfl
    have members := encode_membersText
      (WireMember.int float "pod_id" clean_podId row.podId)
      [WireMember.string "service" clean_service (encode_utf8 row.service) plain.2]
    have shape : (entryField (utf8 name) row.podId (utf8 row.service)).raw = 123 ::
        ((⟨ascii "pod_id", intBytes row.podId.val⟩ : Field).text ++
          tailText [⟨ascii "service", inQuotes (utf8 row.service)⟩]) := by
      unfold entryField
      rw [printed]
      rfl
    rw [shape]
    exact encode_cons_ascii 123 123 rfl (by decide) members

theorem wireEntry_value (name : Name) (row : Row)
    (plain : Clean name.val ∧ Clean row.service.val) :
    (wireEntry float name row plain).value = entryValue row.podId row.service := by
  have different : lit "pod_id" ≠ lit "service" := by decide
  simp [wireEntry, setItems, setItem, WireMember.int, WireMember.string, entryValue, different]

/-- What the library has in its buffer of a file whose last brace it reads. -/
theorem registryBuf_eq {front behind : Bytes}
    (contents : file.getD (ascii "\x7b\x7d") = front ++ 125 :: behind)
    (frontClean : 0 ∉ front) (behindClean : 0 ∉ behind) (fits : front.length + 1 < registrySize) :
    ∃ behind', registryBuf file = front ++ 125 :: behind' ∧ ∀ byte ∈ behind', byte ∈ behind := by
  cases file with
  | none => exact ⟨behind, contents, fun byte member => member⟩
  | some text =>
      rw [Option.getD_some] at contents
      obtain ⟨count, count_eq⟩ : ∃ count, registrySize - 1 = front.length + (count + 1) :=
        ⟨registrySize - 1 - front.length - 1, by omega⟩
      have taken : text.take (registrySize - 1) = front ++ 125 :: behind.take count := by
        rw [contents, count_eq, List.take_length_add_append, List.take_succ_cons]
      refine ⟨behind.take count, ?_, fun byte member => List.mem_of_mem_take member⟩
      show cstr (text.take (registrySize - 1)) = _
      rw [taken]
      apply cstr_eq_self
      rw [List.mem_append, List.mem_cons, not_or, not_or]
      exact ⟨frontClean, by decide, fun member => behindClean (List.mem_of_mem_take member)⟩

/-- The library puts the entry into the map, where its buffers hold the text. -/
theorem represents_c (represents : Represents float file rows) {name : Name} {row : Row}
    (plain : Clean name.val ∧ Clean row.service.val)
    (fits : (registerText (file.getD (ascii "\x7b\x7d")) (utf8 name) row.podId
      (utf8 row.service)).length < registrySize) :
    Represents float (some (podRegistryRegister file (utf8 name) row.podId (utf8 row.service)))
      (rows.register name row) := by
  obtain ⟨members, loaded, agree⟩ := represents
  obtain ⟨text, decoded, loads⟩ := Option.bind_eq_some_iff.mp loaded
  obtain ⟨front, blanks, rfl, blank, clean, colon, inserted⟩ := object_text loads
  -- The bytes in front of the last brace are those of the text in front of it.
  obtain ⟨left, right, contents, encodedFront, encodedRight⟩ :=
    encode_append_eq (encode_of_decode decoded)
  obtain ⟨brace, behind, rfl, encodedBrace, encodedBehind⟩ :=
    @encode_append_eq [125] blanks right encodedRight
  obtain rfl : brace = [125] := (Option.some.inj encodedBrace).symm
  rw [List.singleton_append] at contents
  have zeroLeft : 0 ∉ left := fun member =>
    clean ((mem_encode_iff (by decide) encodedFront).mp member)
  have zeroBehind : 0 ∉ behind := fun member =>
    zero_not_mem_blanks blank ((mem_encode_iff (by decide) encodedBehind).mp member)
  have lastBrace : 125 ∉ behind := fun member =>
    absurd (blank 125 ((mem_encode_iff (by decide) encodedBehind).mp member)) (by decide)
  have colonBytes : 58 ∈ left ↔ 58 ∈ front := mem_encode_iff (by decide) encodedFront
  rw [contents, registerText_eq, beforeLastBrace_append left lastBrace] at fits
  obtain ⟨behind', buf, inside⟩ := registryBuf_eq contents zeroLeft zeroBehind (by
    simp only [List.length_append, List.length_singleton] at fits
    omega)
  have written : podRegistryRegister file (utf8 name) row.podId (utf8 row.service) =
      left ++ ((if 58 ∈ left then [44, 32] else []) ++
        ((entryField (utf8 name) row.podId (utf8 row.service)).text ++ [125])) := by
    unfold podRegistryRegister
    rw [buf, registerText_eq,
      beforeLastBrace_append left fun member => lastBrace (inside 125 member)]
    exact snprintf_eq_self fits
  have separator : encode (if 58 ∈ front then [44, 32] else []) =
      some (if 58 ∈ left then [44, 32] else []) := by
    by_cases some' : 58 ∈ front
    · rw [if_pos some', if_pos (colonBytes.mpr some')]
      exact encode_lit ", "
    · rw [if_neg some', if_neg (mt colonBytes.mp some')]
      rfl
  have entry := encode_membersText (wireEntry float name row plain) []
  have whole := encode_append encodedFront (encode_append separator entry)
  refine ⟨_, ?_, forall₂_register agree name row⟩
  rw [Option.getD_some, written]
  unfold deserializeHeader
  have decoded' := decode_of_encode whole
  have tail : tailText (([] : List (WireMember float)).map WireMember.field) = [125] := rfl
  rw [tail] at decoded'
  have read := inserted (wireEntry float name row plain).toMember
  rw [wireEntry_value] at read
  exact (congrArg (fun text => text.bind (Library.Json.loads float)) decoded').trans read

end Call

/-! ### Every sequence of calls -/

section Runs

variable {float : PyStr → Numeral} {file : Option Bytes} {rows : RegistryMap}

theorem Represents.apply (represents : Represents float file rows) {call : Call} (plain : call.Plain)
    (fits : call.Fits file) :
    Represents float (some (call.apply float file)) (rows.register call.name call.row) := by
  obtain ⟨side, name, row⟩ := call
  cases side with
  | c => exact represents_c represents plain (fits rfl)
  | python => exact represents_python represents name row

theorem Represents.after (represents : Represents float file rows) {calls : List Call}
    (plain : ∀ call ∈ calls, call.Plain) (fits : AllFit float file calls) :
    Represents float (filesAfter float file calls) (rows.after calls) := by
  induction calls generalizing file rows with
  | nil => exact represents
  | cons call calls inductionHypothesis =>
      have first := represents.apply (plain call List.mem_cons_self) fits.1
      exact inductionHypothesis first
        (fun other member => plain other (List.mem_cons_of_mem _ member)) fits.2

end Runs

/-- Through every sequence of calls that fit, the file is the map in which each name
has its last registration, and all look-ups answer as that map does. -/
theorem registries_one_map {float : PyStr → Numeral} {file : Option Bytes} {rows : RegistryMap}
    (valid : Represents float file rows) {calls : List Call} (plain : ∀ call ∈ calls, call.Plain)
    (fits : AllFit float file calls) :
    Represents float (filesAfter float file calls) (rows.after calls) ∧
      Answers float (filesAfter float file calls) (rows.after calls) ∧
      ∀ name, (rows.after calls).find name =
        ((calls.reverse.find? fun call => call.name.val = name).map Call.row).or (rows.find name) := by
  have represents := valid.after plain fits
  exact ⟨represents, represents.answers, rows.find_after calls⟩

theorem represents_none (float : PyStr → Numeral) : Represents float none [] := by
  refine ⟨[], ?_, .nil⟩
  unfold deserializeHeader
  rw [Option.getD_none, decode_of_encode (encode_lit "\x7b\x7d")]
  rfl

/-! ### A file that is full -/

def crowdedRow : Registration where
  name := ascii "w"
  podId := 1
  service := ascii "s"
  name_plain := forall_mem_of_all (by decide)
  service_plain := forall_mem_of_all (by decide)
  podId_small := by decide

/-- A registry of so many entries. -/
def crowdedFile (count : Nat) : Bytes := registryText (List.replicate count crowdedRow)

theorem crowdedFile_bytes : ∀ byte ∈ crowdedFile 228, byte < 128 :=
  forall_mem_of_all (by decide +kernel)

theorem crowdedFile_length :
    (crowdedFile 227).length < registrySize ∧ registrySize ≤ (crowdedFile 228).length := by
  decide +kernel

/-- The call of the library that writes one entry more. -/
def crowdedCall : Call where
  side := .c
  name := ⟨lit "w", scalars_of_encode (encode_lit "w")⟩
  row := ⟨⟨1, by decide⟩, ⟨lit "s", scalars_of_encode (encode_lit "s")⟩⟩

/-- A call of the Python class with the same names. -/
def scriptCall : Call := { crowdedCall with side := .python }

theorem utf8_crowdedCall :
    utf8 crowdedCall.name = ascii "w" ∧ utf8 crowdedCall.row.service = ascii "s" := by
  have name : encode (lit "w") = some (utf8 crowdedCall.name) := encode_utf8 crowdedCall.name
  have service : encode (lit "s") = some (utf8 crowdedCall.row.service) :=
    encode_utf8 crowdedCall.row.service
  rw [encode_lit] at name service
  exact ⟨(Option.some.inj name).symm, (Option.some.inj service).symm⟩

theorem plain_crowdedCall : crowdedCall.Plain :=
  ⟨forall_mem_of_all (by decide), forall_mem_of_all (by decide)⟩

/-- A reader that reads no fractions. -/
def noFloat : PyStr → Numeral := fun _ => ⟨[], numeral_nil⟩

/-- One call of each side, from no file on. -/
theorem registries_one_map_two :
    Represents noFloat (filesAfter noFloat none [crowdedCall, scriptCall])
        (RegistryMap.after [] [crowdedCall, scriptCall]) ∧
      Answers noFloat (filesAfter noFloat none [crowdedCall, scriptCall])
        (RegistryMap.after [] [crowdedCall, scriptCall]) ∧
      ∀ name, (RegistryMap.after [] [crowdedCall, scriptCall]).find name =
        (([crowdedCall, scriptCall].reverse.find? fun call => call.name.val = name).map Call.row).or
          (RegistryMap.find [] name) := by
  have fits : AllFit noFloat none [crowdedCall, scriptCall] := by
    refine ⟨fun _ => ?_, ?_, trivial⟩
    · have podId : crowdedCall.row.podId.val = 1 := rfl
      rw [utf8_crowdedCall.1, utf8_crowdedCall.2, podId]
      decide
    · intro side
      contradiction
  have plain : ∀ call ∈ [crowdedCall, scriptCall], call.Plain :=
    List.forall_mem_cons.mpr ⟨plain_crowdedCall,
      List.forall_mem_cons.mpr ⟨plain_crowdedCall, List.forall_mem_nil _⟩⟩
  exact registries_one_map (represents_none noFloat) plain fits

theorem crowdedCall_apply (float : PyStr → Numeral) :
    crowdedCall.apply float (some (crowdedFile 227)) = (crowdedFile 228).take (registrySize - 1) := by
  have short := crowdedFile_length.1
  have nonzero : ∀ byte ∈ crowdedFile 227, byte ≠ 0 := forall_mem_of_all (by decide +kernel)
  have clean : 0 ∉ crowdedFile 227 := fun member => nonzero 0 member rfl
  have buf : registryBuf (some (crowdedFile 227)) = crowdedFile 227 := by
    show cstr ((crowdedFile 227).take (registrySize - 1)) = _
    rw [List.take_of_length_le (by omega), cstr_eq_self clean]
  have text : registerText (crowdedFile 227) (ascii "w") 1 (ascii "s") = crowdedFile 228 := by
    have shape := registerText_registryText (List.replicate 227 crowdedRow) crowdedRow
    rw [← List.replicate_succ'] at shape
    exact shape
  show podRegistryRegister _ (utf8 crowdedCall.name) 1 (utf8 crowdedCall.row.service) = _
  unfold podRegistryRegister
  rw [utf8_crowdedCall.1, utf8_crowdedCall.2, buf, text]
  rfl

theorem deserializeHeader_crowdedFile (float : PyStr → Numeral) (count : Nat) :
    deserializeHeader float (crowdedFile (count + 1)) =
      some (.object [(lit "w", entryValue 1 (lit "s"))]) := by
  have entry : ((crowdedRow.member float).key, (crowdedRow.member float).value) =
      (lit "w", entryValue 1 (lit "s")) := rfl
  have items : ∀ count, setItems [] ((List.replicate (count + 1) crowdedRow).map fun row =>
      (row.member float).toMember) = [(lit "w", entryValue 1 (lit "s"))] := by
    intro count
    induction count with
    | zero => exact congrArg (fun member => [member]) entry
    | succ count inductionHypothesis =>
        rw [List.replicate_succ', List.map_append]
        unfold setItems at inductionHypothesis ⊢
        rw [List.foldl_append, inductionHypothesis]
        have key : lit "w" = (crowdedRow.member float).key := congrArg Prod.fst entry.symm
        have value : (crowdedRow.member float).value = entryValue 1 (lit "s") := congrArg Prod.snd entry
        show setItem [(lit "w", entryValue 1 (lit "s"))] (crowdedRow.member float).key
          (crowdedRow.member float).value = _
        unfold setItem
        rw [if_pos key, value]
  unfold crowdedFile
  rw [deserializeHeader_registryText, items]

/-- What is left of the file is no JSON. -/
theorem deserializeHeader_cut (float : PyStr → Numeral) :
    deserializeHeader float ((crowdedFile 228).take (registrySize - 1)) = none := by
  have long := crowdedFile_length.2
  have loaded := deserializeHeader_crowdedFile float 227
  have split := List.take_append_drop (registrySize - 1) (crowdedFile 228)
  have last : (crowdedFile 228).getLast? = some 125 := by
    unfold crowdedFile
    rw [registryText_eq, List.getLast?_append]
    rfl
  have nonempty : (crowdedFile 228).drop (registrySize - 1) ≠ [] := by
    intro empty
    have short := List.drop_eq_nil_iff.mp empty
    unfold registrySize at long short
    omega
  have front : decode ((crowdedFile 228).take (registrySize - 1)) = _ := decode_ascii
    fun byte member => crowdedFile_bytes byte (List.mem_of_mem_take member)
  unfold deserializeHeader at loaded ⊢
  rw [decode_ascii crowdedFile_bytes, Option.bind_some, ← split, List.map_append] at loaded
  rw [front, Option.bind_some]
  apply loads_cut _ _ _ loaded
  · intro empty
    exact nonempty (List.map_eq_nil_iff.mp empty)
  · intro point isLast
    rw [List.getLast?_map] at isLast
    obtain ⟨byte, lastByte, rfl⟩ := Option.map_eq_some_iff.mp isLast
    have same := congrArg List.getLast? split
    rw [List.getLast?_append_of_ne_nil _ nonempty, lastByte, last] at same
    rw [Option.some.inj same]
    decide
  · rw [← List.map_append, split]
    exact Or.inr (Or.inl rfl)

/-- The claim about every sequence of calls fails where a file is full. -/
theorem not_registries_one_map : ¬ ∀ (float : PyStr → Numeral) (file : Option Bytes)
    (rows : RegistryMap) (calls : List Call), Represents float file rows →
      (∀ call ∈ calls, call.Plain) → Represents float (filesAfter float file calls) (rows.after calls) := by
  intro claim
  have valid : Represents noFloat (some (crowdedFile 227)) [(crowdedCall.name, crowdedCall.row)] :=
    ⟨_, deserializeHeader_crowdedFile noFloat 226, .cons ⟨rfl, .written⟩ .nil⟩
  have plain : ∀ call ∈ [crowdedCall], call.Plain :=
    List.forall_mem_cons.mpr ⟨plain_crowdedCall, List.forall_mem_nil _⟩
  obtain ⟨members, loaded, -⟩ := claim noFloat _ _ [crowdedCall] valid plain
  have file : filesAfter noFloat (some (crowdedFile 227)) [crowdedCall] =
      some (crowdedCall.apply noFloat (some (crowdedFile 227))) := rfl
  rw [file, Option.getD_some, crowdedCall_apply, deserializeHeader_cut] at loaded
  contradiction

end MiniMs.Daemon
