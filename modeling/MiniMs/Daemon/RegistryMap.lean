import MiniMs.Daemon.Registry
import MiniMs.Library.JsonPrinted

/-!
The pod registry as the map of workers that its JSON file stands for.

Owns: `PodRegistry.register`, `get_service` and `get_workers_by_service`, the map,
the files that represent it, and the theorem that all look-ups in such a file
answer as the map does.

The file locks make each call one step. What registrations do to the map is not
owned here.
-/

namespace MiniMs.Daemon

open MiniMs.Http MiniMs.Dpumesh MiniMs.Library.Text MiniMs.Library.Json MiniMs.Library.Number

/-! ### `PodRegistry` -/

/-- `{'pod_id': pod_id, 'service': service}`. -/
def entryValue (podId : Int) (service : PyStr) : Value :=
  .object [(lit "pod_id", .number (intNumeral podId)), (lit "service", .string service)]

/-- `PodRegistry.register`: the file behind it. Data that cannot be assigned to
raises before the file is opened to write. -/
def PodRegistry.register (float : PyStr → Numeral) (file : Option Bytes) (workerName : PyStr)
    (podId : Int) (service : PyStr) : Bytes :=
  match deserializeHeader float (file.getD (ascii "\x7b\x7d")) with
  | none => dumps (.object [(workerName, entryValue podId service)])
  | some (.object data) => dumps (.object (setItem data workerName (entryValue podId service)))
  | some _ => file.getD (ascii "\x7b\x7d")

/-- `name.split('-')[0] if '-' in name else name`. -/
def legacyService (name : PyStr) : PyStr := name.takeWhile (· ≠ 45)

/-- `value == pod_id` for an `int`. -/
def eqInt (podId : Int) : Value → Bool
  | .number numeral => numeral.text = intBytes podId ∨ numeral.text = intBytes podId ++ ascii ".0" ∨
      podId = 0 ∧ numeral.text = ascii "-0.0"
  | .bool value => podId = if value then 1 else 0
  | _ => false

/-- `isinstance(value, int)`. -/
def isIntValue : Value → Bool
  | .number numeral => isInt numeral
  | .bool _ => true
  | _ => false

/-- What `get_service` returns at an entry, if it does. -/
def entryService (podId : Int) (name : PyStr) : Value → Option Value
  | .object entry =>
      if eqInt podId (Library.Json.get entry (lit "pod_id") .null) then
        some (Library.Json.get entry (lit "service") (.string []))
      else none
  | entry => if isIntValue entry ∧ eqInt podId entry then some (.string (legacyService name)) else none

/-- `PodRegistry.get_service`. -/
def getService (float : PyStr → Numeral) (file : Option Bytes) (podId : Int) : Value :=
  match deserializeHeader float (file.getD (ascii "\x7b\x7d")) with
  | some (.object data) =>
      (data.findSome? fun member => entryService podId member.1 member.2).getD (.string [])
  | _ => .string []

/-- The service and the pod id that `get_workers_by_service` reads in an entry. -/
def entryWorker (name : PyStr) : Value → Value × Value
  | .object entry => (Library.Json.get entry (lit "service") (.string []),
      Library.Json.get entry (lit "pod_id") (.number ⟨ascii "-1", numeral_minusOne⟩))
  | entry => (.string (legacyService name), entry)

/-- `svc == service` for a `str`. -/
def eqString (service : PyStr) : Value → Bool
  | .string text => text = service
  | _ => false

/-- The value of an `int`. -/
def intOf : Value → Option Int
  | .number numeral => if isInt numeral then some (intValue numeral) else none
  | _ => none

/-- `PodRegistry.get_workers_by_service`. It is not modelled (`none`) where a pod id
that is to be sorted is no integer. -/
def getWorkersByService (float : PyStr → Numeral) (file : Option Bytes) (service : PyStr) :
    Option (List (PyStr × Int)) :=
  match deserializeHeader float (file.getD (ascii "\x7b\x7d")) with
  | some (.object data) => do
      let found := data.filter fun member => eqString service (entryWorker member.1 member.2).1
      let result ← found.mapM fun member =>
        (intOf (entryWorker member.1 member.2).2).map fun podId => (member.1, podId)
      some (result.mergeSort fun first second => first.2 ≤ second.2)
  | _ => some []

/-! ### The map -/

/-- A pod id: a C `int`. -/
abbrev PodId := { value : Int // -2 ^ 31 ≤ value ∧ value < 2 ^ 31 }

/-- A text: a `str` without surrogates. -/
abbrev Name := { text : PyStr // ∀ point ∈ text, (toChar? point).isSome }

/-- What the registry says about one worker. -/
structure Row where
  podId : PodId
  service : Name

/-- The workers, each with its last registration, in the order of their first. -/
abbrev RegistryMap := List (Name × Row)

namespace RegistryMap

def register : RegistryMap → Name → Row → RegistryMap
  | [], name, row => [(name, row)]
  | (other, old) :: rows, name, row =>
      if other = name then (name, row) :: rows else (other, old) :: register rows name row

def find (rows : RegistryMap) (name : PyStr) : Option Row :=
  (rows.find? fun entry => entry.1.val = name).map Prod.snd

def podIdOf (rows : RegistryMap) (name : PyStr) : Int :=
  ((rows.find name).map fun row => row.podId.val).getD (-1)

def serviceOf (rows : RegistryMap) (podId : Int) : PyStr :=
  ((rows.find? fun entry => entry.2.podId.val = podId).map fun entry => entry.2.service.val).getD []

/-- The workers of a service by their pod ids. -/
def workersOf (rows : RegistryMap) (service : PyStr) : List (PyStr × Int) :=
  ((rows.filter fun entry => entry.2.service.val = service).map
    fun entry => (entry.1.val, entry.2.podId.val)).mergeSort fun first second => first.2 ≤ second.2

end RegistryMap

/-- The entry of a worker: a dictionary, or a number in files of old. -/
inductive EntryOf (name : PyStr) (row : Row) : Value → Prop where
  | written : EntryOf name row (entryValue row.podId row.service)
  | turned : EntryOf name row (.object [(lit "service", .string row.service),
      (lit "pod_id", .number (intNumeral row.podId))])
  | legacy (service : row.service.val = legacyService name) :
      EntryOf name row (.number (intNumeral row.podId))

/-- The member of a worker. -/
structure MemberOf (entry : Name × Row) (member : PyStr × Value) : Prop where
  name : member.1 = entry.1.val
  entry : EntryOf member.1 entry.2 member.2

/-- The file is valid JSON that `json.load` reads as the map. -/
def Represents (float : PyStr → Numeral) (file : Option Bytes) (rows : RegistryMap) : Prop :=
  ∃ members, deserializeHeader float (file.getD (ascii "\x7b\x7d")) = some (.object members) ∧
    List.Forall₂ MemberOf rows members

/-- The library and the class answer as the map does. -/
structure Answers (float : PyStr → Numeral) (file : Option Bytes) (rows : RegistryMap) : Prop where
  podId : ∀ name, getPodId float file (.string name) = rows.podIdOf name
  service : ∀ podId, getService float file podId = .string (rows.serviceOf podId)
  workers : ∀ service, getWorkersByService float file service = some (rows.workersOf service)

/-! ### Look-ups -/

section Answering

theorem forall_mem_intBytes (value : Int) :
    ∀ byte ∈ intBytes value, Library.Number.isDigit byte = true ∨ byte = 45 := by
  have digits := forall_isDigit_bytesOf value.natAbs
  unfold intBytes
  intro byte member
  split at member
  · rcases List.mem_cons.mp member with minus | later
    · exact Or.inr minus
    · exact Or.inl (digits byte later)
  · exact Or.inl (digits byte member)

theorem intBytes_inj {first second : Int} (same : intBytes first = intBytes second) :
    first = second := by
  have number : ∀ value : Int, digitsValue 0 (bytesOf (Nat.toDigits 10 value.natAbs)) =
      value.natAbs := fun value => digitsValue_toDigits value.natAbs
  have minus : ∀ value : Int, (45 : UInt8) ∉ bytesOf (Nat.toDigits 10 value.natAbs) := by
    intro value member
    exact absurd (forall_isDigit_bytesOf value.natAbs 45 member) (by decide)
  have firstNumber := number first
  have secondNumber := number second
  unfold intBytes at same
  split at same
  · split at same
    · rw [(List.cons.inj same).2] at firstNumber
      omega
    · exact absurd (by rw [← same]; exact List.mem_cons_self) (minus second)
  · split at same
    · exact absurd (by rw [same]; exact List.mem_cons_self) (minus first)
    · rw [same] at firstNumber
      omega

theorem strtol_intBytes (podId : PodId) : strtol (intBytes podId.val) = podId.val := by
  obtain ⟨value, low, high⟩ := podId
  have stops : ∀ byte, ([] : Bytes).head? = some byte → Library.Number.isDigit byte = false := by
    intro byte nothing
    contradiction
  have small : value.natAbs ≤ longMax := by
    unfold longMax
    omega
  unfold intBytes
  dsimp only
  split
  · have read := strtol_minus_toDigits small stops
    rw [List.append_nil] at read
    rw [read]
    omega
  · have read := strtol_toDigits small stops
    rw [List.append_nil] at read
    rw [read]
    omega

theorem isInt_intNumeral (value : Int) : isInt (intNumeral value) = true := by
  unfold isInt
  rw [intNumeral_text, List.all_eq_true]
  intro byte member
  rcases forall_mem_intBytes value byte member with digit | minus
  · rw [digit, Bool.true_or]
  · rw [decide_eq_true minus, Bool.or_true]

theorem intValue_intNumeral (podId : PodId) : intValue (intNumeral podId.val) = podId.val := by
  unfold intValue
  rw [intNumeral_text, strtol_intBytes]

theorem eqInt_intNumeral (podId value : Int) :
    eqInt podId (.number (intNumeral value)) = decide (value = podId) := by
  have dot : (46 : UInt8) ∉ intBytes value := by
    intro member
    rcases forall_mem_intBytes value 46 member with digit | minus
    · exact absurd digit (by decide)
    · exact absurd minus (by decide)
  have float : intBytes value ≠ intBytes podId ++ ascii ".0" := by
    intro same
    rw [same] at dot
    exact dot (List.mem_append_right _ (by decide))
  have zero : intBytes value ≠ ascii "-0.0" := by
    intro same
    rw [same] at dot
    exact dot (by decide)
  unfold eqInt
  apply decide_eq_decide.mpr
  rw [intNumeral_text]
  constructor
  · rintro (same | same | ⟨-, same⟩)
    · exact intBytes_inj same
    · exact absurd same float
    · exact absurd same zero
  · rintro rfl
    exact Or.inl rfl

/-- What the class reads in an entry. -/
structure ReadsRow (name : PyStr) (row : Row) (value : Value) : Prop where
  podId : entryPodId value = row.podId.val
  service : ∀ podId, entryService podId name value =
    if row.podId.val = podId then some (.string row.service.val) else none
  worker : (entryWorker name value).1 = .string row.service.val ∧
    intOf (entryWorker name value).2 = some row.podId.val

theorem reads_of_object {name : PyStr} {row : Row} {entry : List (PyStr × Value)}
    (podId : ∀ default,
      Library.Json.get entry (lit "pod_id") default = .number (intNumeral row.podId.val))
    (service : ∀ default,
      Library.Json.get entry (lit "service") default = .string row.service.val) :
    ReadsRow name row (.object entry) where
  podId := by
    unfold entryPodId
    dsimp only
    rw [podId]
    exact intValue_intNumeral row.podId
  service := by
    intro wanted
    unfold entryService
    dsimp only
    rw [podId, service, eqInt_intNumeral]
    by_cases same : row.podId.val = wanted
    · rw [if_pos same, if_pos (decide_eq_true same)]
    · rw [if_neg same, if_neg (by simpa using same)]
  worker := by
    unfold entryWorker
    dsimp only
    rw [podId, service]
    refine ⟨rfl, ?_⟩
    unfold intOf
    dsimp only
    rw [if_pos (isInt_intNumeral _), intValue_intNumeral]

theorem EntryOf.reads {name : PyStr} {row : Row} {value : Value} (entry : EntryOf name row value) :
    ReadsRow name row value := by
  have different : lit "service" ≠ lit "pod_id" := by decide
  cases entry with
  | written =>
      apply reads_of_object
      · intro default
        simp [Library.Json.get]
      · intro default
        simp [Library.Json.get, different.symm]
  | turned =>
      apply reads_of_object
      · intro default
        simp [Library.Json.get, different]
      · intro default
        simp [Library.Json.get]
  | legacy service =>
      refine ⟨?_, fun wanted => ?_, ?_, ?_⟩
      · unfold entryPodId
        dsimp only
        rw [if_pos (isInt_intNumeral _), intValue_intNumeral]
      · have number : isIntValue (.number (intNumeral row.podId.val)) = true := isInt_intNumeral _
        unfold entryService
        dsimp only
        rw [number, eqInt_intNumeral, service]
        by_cases same : row.podId.val = wanted
        · rw [if_pos same, if_pos ⟨rfl, decide_eq_true same⟩]
        · rw [if_neg same, if_neg fun both => same (of_decide_eq_true both.2)]
      · rw [service]
        rfl
      · unfold entryWorker intOf
        dsimp only
        rw [if_pos (isInt_intNumeral _), intValue_intNumeral]

variable {rows : RegistryMap} {members : List (PyStr × Value)}
    (agree : List.Forall₂ MemberOf rows members)

include agree

theorem entryPodId_get (name : PyStr) :
    entryPodId (Library.Json.get members name .null) = rows.podIdOf name := by
  induction agree with
  | nil => rfl
  | @cons entry member rows members first rest inductionHypothesis =>
      unfold Library.Json.get RegistryMap.podIdOf RegistryMap.find at inductionHypothesis ⊢
      by_cases same : member.1 = name
      · have same' : entry.1.val = name := first.name.symm.trans same
        rw [List.find?_cons_of_pos (by simpa using same),
          List.find?_cons_of_pos (by simpa using same')]
        exact first.entry.reads.podId
      · have other : ¬ entry.1.val = name := fun equal => same (first.name.trans equal)
        rw [List.find?_cons_of_neg (by simpa using same),
          List.find?_cons_of_neg (by simpa using other)]
        exact inductionHypothesis

theorem findSome_entryService (podId : Int) :
    (members.findSome? fun member => entryService podId member.1 member.2).getD (.string []) =
      .string (rows.serviceOf podId) := by
  induction agree with
  | nil => rfl
  | @cons entry member rows members first rest inductionHypothesis =>
      have service := first.entry.reads.service podId
      unfold RegistryMap.serviceOf at inductionHypothesis ⊢
      rw [List.findSome?_cons, service]
      by_cases same : entry.2.podId.val = podId
      · rw [if_pos same, List.find?_cons_of_pos (by simpa using same)]
        rfl
      · rw [if_neg same, List.find?_cons_of_neg (by simpa using same)]
        exact inductionHypothesis

theorem mapM_entryWorker (service : PyStr) :
    ((members.filter fun member => eqString service (entryWorker member.1 member.2).1).mapM
      fun member => (intOf (entryWorker member.1 member.2).2).map fun podId => (member.1, podId)) =
      some ((rows.filter fun entry => entry.2.service.val = service).map
        fun entry => (entry.1.val, entry.2.podId.val)) := by
  induction agree with
  | nil => rfl
  | @cons entry member rows members first rest inductionHypothesis =>
      obtain ⟨named, podId⟩ := first.entry.reads.worker
      have matched : eqString service (entryWorker member.1 member.2).1 =
          decide (entry.2.service.val = service) := by
        rw [named]
        rfl
      by_cases same : entry.2.service.val = service
      · rw [List.filter_cons_of_pos (by rw [matched]; exact decide_eq_true same),
          List.filter_cons_of_pos (by simpa using same), List.mapM_cons, podId, inductionHypothesis,
          List.map_cons, first.name]
        rfl
      · rw [List.filter_cons_of_neg (by rw [matched]; simpa using same),
          List.filter_cons_of_neg (by simpa using same)]
        exact inductionHypothesis

end Answering

/-- Whoever asks gets the answers of the map that the file stands for. -/
theorem Represents.answers {float : PyStr → Numeral} {file : Option Bytes} {rows : RegistryMap}
    (represents : Represents float file rows) : Answers float file rows := by
  obtain ⟨members, loaded, agree⟩ := represents
  refine ⟨fun name => ?_, fun podId => ?_, fun service => ?_⟩
  · unfold getPodId
    rw [loaded]
    exact entryPodId_get agree name
  · unfold getService
    rw [loaded]
    exact findSome_entryService agree podId
  · unfold getWorkersByService RegistryMap.workersOf
    rw [loaded]
    dsimp only
    rw [mapM_entryWorker agree service]
    rfl

end MiniMs.Daemon
