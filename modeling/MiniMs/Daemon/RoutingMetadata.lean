import MiniMs.Daemon.IngressText

/-!
The routing metadata of a bridge request: what the client can do to it.

Owns: the condition on the header text in front of `req_id_str` under which the
worker stores the uuid and the empty source worker that the bridge wrote, and
the theorem that it does so for every uuid exactly under that condition.
-/

namespace MiniMs.Daemon

open MiniMs.Dpumesh MiniMs.Library.Text MiniMs.Library.Json

/-! ### The text around the uuid -/

/-- The header text in front of `req_id_str`. -/
def clientText (env : BridgeEnv) (client : List (PyStr × Value)) (url : Value) : Bytes :=
  openText (clientFields env client url) ++ [44, 32]

def reqIdStrPattern : Bytes := keyPattern (ascii "req_id_str")

def sourceWorkerPattern : Bytes := keyPattern (ascii "source_worker")

/-- What follows the uuid and its closing quote. -/
def trustedTail (client : List (PyStr × Value)) (worker : PyStr) : Bytes :=
  [44, 32] ++ (sourceWorkerPattern ++ 32 :: 34 :: 34 ::
    (dumpsMembers [(lit "dest_worker", .string worker)] ++ ascii "\x7d" ++
      (ascii ", \"body\": " ++ dumps (get client (lit "body") (.string [])) ++ ascii "\x7d")))

theorem clientFields_ne_nil (env : BridgeEnv) (client : List (PyStr × Value)) (url : Value) :
    clientFields env client url ≠ [] := List.cons_ne_nil _ _

theorem headerAndBody_eq (env : BridgeEnv) (client : List (PyStr × Value)) (url : Value)
    (worker : PyStr) (uuid : Uuid) :
    headerAndBody env client url worker uuid =
      clientText env client url ++ (reqIdStrPattern ++ 32 :: 34 ::
        (uuid.text ++ 34 :: trustedTail client worker)) := by
  have reqIdStr : quoted (lit "req_id_str") ++ [58] = reqIdStrPattern := by decide
  have sourceWorker : ascii ", " ++ quoted (lit "source_worker") ++ ascii ": " ++ quoted [] =
      [44, 32] ++ (sourceWorkerPattern ++ [32, 34, 34]) := by decide
  have split := dumps_object_split (clientFields_ne_nil env client url) (lit "req_id_str")
    (ofAscii uuid.text) [(lit "source_worker", .string []), (lit "dest_worker", .string worker)]
  unfold headerAndBody headerMembers routingFields clientText trustedTail
  rw [split, reqIdStr, escape_uuid, dumpsMembers, dumps, sourceWorker]
  simp only [List.append_assoc, List.cons_append, List.nil_append]

/-- The client's text starts the header object. -/
theorem clientText_eq_cons (env : BridgeEnv) (client : List (PyStr × Value)) (url : Value) :
    clientText env client url = 123 :: (clientText env client url).tail := rfl

/-! ### The condition -/

/-- The header text in front of `req_id_str` leaves the header object open, is
short enough for the uuid to fit behind it, has no entry that reads as
`req_id_str`, and none that reads as a `source_worker` with a text. -/
structure Shielded (text : Bytes) : Prop where
  stays : braceDepth 1 text.tail ≠ 0
  short : text.length + 51 ≤ headerBufSize - 1
  reqIdStr : ¬ reqIdStrPattern <:+: text
  sourceWorker : (jsonGetStr text (ascii "source_worker") 128).getD [] = []

/-! ### What the scanner reads -/

section Scan

variable {fields rest : Bytes}

/-- The header text that the worker scans. -/
def scannedText (text uuid tail : Bytes) : Bytes :=
  let whole := text ++ (reqIdStrPattern ++ 32 :: 34 :: (uuid ++ 34 :: tail))
  whole.take (headerCut whole)

/-- Where the scanned text ends. -/
def scannedCut (text uuid tail : Bytes) : Nat :=
  headerCut (text ++ (reqIdStrPattern ++ 32 :: 34 :: (uuid ++ 34 :: tail)))

theorem not_startsIn_fields {needle : Bytes} (blank : 32 ∉ needle)
    (absent : ¬ needle <:+: fields ++ [44, 32]) (after : Bytes) :
    ¬ StartsIn needle (fields ++ [44, 32]) after := by
  intro starts
  have split : fields ++ [44, 32] = (fields ++ [44]) ++ [32] := by simp
  rw [split] at starts absent
  exact absent ((infix_of_startsIn blank starts).trans (List.prefix_append _ _).isInfix)

/-- Without an earlier entry the scanner reads the uuid as far as the cut lets
it. -/
theorem reqIdStr_scanned (absent : ¬ reqIdStrPattern <:+: fields ++ [44, 32]) {uuid : Bytes}
    (quotes : 34 ∉ uuid) (tail : Bytes) :
    jsonGetStr (scannedText (fields ++ [44, 32]) uuid tail) (ascii "req_id_str") 64 =
      if (fields ++ [44, 32]).length + 15 ≤ scannedCut (fields ++ [44, 32]) uuid tail then
        some (uuid.take (min 63
          (scannedCut (fields ++ [44, 32]) uuid tail - ((fields ++ [44, 32]).length + 15))))
      else none := by
  have first := not_startsIn_fields (by decide) absent
    (reqIdStrPattern ++ 32 :: 34 :: (uuid ++ 34 :: tail))
  have value : (uuid ++ 34 :: tail).takeWhile (· ≠ 34) = uuid := by
    rw [takeWhile_append_quote, List.takeWhile_eq_self_iff]
    intro byte member
    simpa using ne_of_mem_of_not_mem member quotes
  have length : (keyPattern (ascii "req_id_str")).length = 13 := by decide
  have field := jsonGetStr_field first (scannedCut (fields ++ [44, 32]) uuid tail) 64
  rw [value, length] at field
  exact field

/-- What the scanner reads for a key of an earlier entry: nothing behind the
client's text matters. -/
theorem scanned_shadowed {key : Bytes} (comma : 44 ∉ keyPattern key) (blank : 32 ∉ keyPattern key)
    (shadow : keyPattern key <:+: fields ++ [44, 32]) (uuid tail : Bytes) (outsz : Nat) :
    jsonGetStr (scannedText (fields ++ [44, 32]) uuid tail) key outsz =
      jsonGetStr ((fields ++ [44, 32]).take (scannedCut (fields ++ [44, 32]) uuid tail)) key
        outsz := by
  have quote : reqIdStrPattern = 34 :: reqIdStrPattern.tail := by decide
  have hidden := jsonGetStr_shadowed comma blank shadow
    (reqIdStrPattern.tail ++ 32 :: 34 :: (uuid ++ 34 :: tail))
    (scannedCut (fields ++ [44, 32]) uuid tail) outsz
  rw [← List.cons_append, ← quote] at hidden
  exact hidden

/-- The client's part of the scanned text is the same for every uuid. -/
theorem take_scannedCut (shape : fields ++ [44, 32] = 123 :: rest) (uuid tail : Bytes) :
    (fields ++ [44, 32]).take (scannedCut (fields ++ [44, 32]) uuid tail) =
      (123 :: matchBrace 1 rest).take (headerBufSize - 1) := by
  unfold scannedCut
  rw [shape]
  exact take_headerCut_append rest _

/-- The cut leaves the uuid whole where the client's text is open and short. -/
theorem le_scannedCut (shape : fields ++ [44, 32] = 123 :: rest) (stays : braceDepth 1 rest ≠ 0)
    (short : (fields ++ [44, 32]).length + 51 ≤ headerBufSize - 1) {uuid : Bytes}
    (length : uuid.length = 36) (opening : 123 ∉ uuid) (closing : 125 ∉ uuid) (tail : Bytes) :
    (fields ++ [44, 32]).length + 51 ≤ scannedCut (fields ++ [44, 32]) uuid tail := by
  have noOpening : 123 ∉ reqIdStrPattern ++ [32, 34] ++ uuid := by
    have pattern : 123 ∉ reqIdStrPattern ++ [32, 34] := by decide
    exact fun member => (List.mem_append.mp member).elim pattern opening
  have noClosing : 125 ∉ reqIdStrPattern ++ [32, 34] ++ uuid := by
    have pattern : 125 ∉ reqIdStrPattern ++ [32, 34] := by decide
    exact fun member => (List.mem_append.mp member).elim pattern closing
  have reaches := le_headerCut stays noOpening noClosing (34 :: tail)
  have stretch : (reqIdStrPattern ++ [32, 34] ++ uuid).length = 51 := by
    rw [List.length_append, length]
    rfl
  have whole : reqIdStrPattern ++ [32, 34] ++ uuid ++ 34 :: tail =
      reqIdStrPattern ++ 32 :: 34 :: (uuid ++ 34 :: tail) := by simp
  rw [stretch, whole] at reaches
  unfold scannedCut
  rw [shape, List.length_cons] at short ⊢
  omega

theorem scannedCut_le_of_closed (shape : fields ++ [44, 32] = 123 :: rest)
    (closed : braceDepth 1 rest = 0) (uuid tail : Bytes) :
    scannedCut (fields ++ [44, 32]) uuid tail ≤ (fields ++ [44, 32]).length := by
  have le := headerCut_le_of_closed closed (reqIdStrPattern ++ 32 :: 34 :: (uuid ++ 34 :: tail))
  unfold scannedCut
  rw [shape, List.length_cons]
  omega

/-- No `source_worker` starts between the client's text and the entry itself. -/
theorem not_startsIn_uuid {uuid : Bytes} (digits : ∀ byte ∈ uuid, byte ∈ ascii "0123456789abcdef-")
    (after : Bytes) :
    ¬ StartsIn sourceWorkerPattern (reqIdStrPattern ++ [32, 34] ++ uuid ++ [34, 44, 32]) after := by
  intro starts
  have pair : StartsIn [34, 115] (reqIdStrPattern ++ [32, 34] ++ uuid ++ [34, 44, 32]) after :=
    starts.of_prefix (by decide)
  have quotes : 34 ∉ uuid := fun member => absurd (digits 34 member) (by decide)
  rcases startsIn_append.mp pair with front | closing
  · rcases startsIn_append.mp front with pattern | inside
    · have second : [115] <+: uuid ++ ([34, 44, 32] ++ after) := by
        have bytes : reqIdStrPattern ++ [32, 34] =
            [34, 114, 101, 113, 95, 105, 100, 95, 115, 116, 114, 34, 58, 32, 34] := by decide
        rw [bytes] at pattern
        simpa [startsIn_cons, not_startsIn_nil, List.cons_prefix_cons] using pattern
      cases uuid with
      | nil => simp [List.cons_prefix_cons] at second
      | cons head rest =>
          rw [List.cons_append, List.cons_prefix_cons] at second
          have digit := digits head List.mem_cons_self
          rw [← second.1] at digit
          exact absurd digit (by decide)
    · exact not_startsIn_of_head _ quotes inside
  · simp [startsIn_cons, not_startsIn_nil, List.cons_prefix_cons] at closing

/-- The `source_worker` entry that follows the uuid reads as the empty text, cut
or not. -/
theorem sourceWorker_scanned (absent : ¬ sourceWorkerPattern <:+: fields ++ [44, 32])
    {uuid : Bytes} (digits : ∀ byte ∈ uuid, byte ∈ ascii "0123456789abcdef-") (tail : Bytes) :
    (jsonGetStr (scannedText (fields ++ [44, 32]) uuid
      ([44, 32] ++ (sourceWorkerPattern ++ 32 :: 34 :: 34 :: tail))) (ascii "source_worker")
        128).getD [] = [] := by
  have front := not_startsIn_fields (by decide) absent
    (reqIdStrPattern ++ [32, 34] ++ uuid ++ [34, 44, 32] ++
      (sourceWorkerPattern ++ 32 :: 34 :: 34 :: tail))
  have first : ¬ StartsIn sourceWorkerPattern
      (fields ++ [44, 32] ++ (reqIdStrPattern ++ [32, 34] ++ uuid ++ [34, 44, 32]))
      (sourceWorkerPattern ++ 32 :: 34 :: 34 :: tail) := by
    rw [startsIn_append]
    exact not_or.mpr ⟨front, not_startsIn_uuid digits _⟩
  have whole : fields ++ [44, 32] ++ (reqIdStrPattern ++ 32 :: 34 :: (uuid ++ 34 ::
      ([44, 32] ++ (sourceWorkerPattern ++ 32 :: 34 :: 34 :: tail)))) =
      fields ++ [44, 32] ++ (reqIdStrPattern ++ [32, 34] ++ uuid ++ [34, 44, 32]) ++
        (sourceWorkerPattern ++ 32 :: 34 :: 34 :: tail) := by
    simp
  unfold scannedText
  dsimp only
  rw [whole]
  have field := jsonGetStr_field first (headerCut
    (fields ++ [44, 32] ++ (reqIdStrPattern ++ [32, 34] ++ uuid ++ [34, 44, 32]) ++
      (sourceWorkerPattern ++ 32 :: 34 :: 34 :: tail))) 128
  have empty : (34 :: tail).takeWhile (· ≠ 34) = [] := rfl
  rw [empty, List.take_nil] at field
  apply (congrArg (fun found => found.getD []) field).trans
  split
  · rfl
  · rfl

end Scan

/-! ### The scanned header and the condition -/

section Header

variable {fields rest : Bytes} (shape : fields ++ [44, 32] = 123 :: rest)

/-- What the worker reads for the two routing fields. -/
def ReadsTrusted (text uuid tail : Bytes) : Prop :=
  (jsonGetStr (scannedText text uuid tail) (ascii "req_id_str") 64).getD [] = uuid ∧
    (jsonGetStr (scannedText text uuid tail) (ascii "source_worker") 128).getD [] = []

include shape

theorem readsTrusted_of_shielded (shielded : Shielded (fields ++ [44, 32])) (uuid : Uuid)
    (tail : Bytes) :
    ReadsTrusted (fields ++ [44, 32]) uuid.text
      ([44, 32] ++ (sourceWorkerPattern ++ 32 :: 34 :: 34 :: tail)) := by
  have stays : braceDepth 1 rest ≠ 0 := by
    have stays := shielded.stays
    rwa [shape] at stays
  have length : uuid.text.length = 36 := uuid.length
  have clean : ∀ byte ∈ ascii "0123456789abcdef-", byte ≠ 34 ∧ byte ≠ 123 ∧ byte ≠ 125 :=
    forall_mem_of_all (by decide)
  have quotes : 34 ∉ uuid.text := fun member => (clean 34 (uuid.mem_text member)).1 rfl
  have opening : 123 ∉ uuid.text := fun member => (clean 123 (uuid.mem_text member)).2.1 rfl
  have closing : 125 ∉ uuid.text := fun member => (clean 125 (uuid.mem_text member)).2.2 rfl
  have reaches := le_scannedCut shape stays shielded.short length opening closing
    ([44, 32] ++ (sourceWorkerPattern ++ 32 :: 34 :: 34 :: tail))
  constructor
  · rw [reqIdStr_scanned shielded.reqIdStr quotes, if_pos (by omega), Option.getD_some]
    apply List.take_of_length_le
    omega
  · by_cases shadow : sourceWorkerPattern <:+: fields ++ [44, 32]
    · rw [scanned_shadowed (by decide) (by decide) shadow, List.take_of_length_le (by omega)]
      exact shielded.sourceWorker
    · exact sourceWorker_scanned shadow (fun byte member => uuid.mem_text member) tail

/-- Two uuids that differ show where an earlier entry is read instead. -/
theorem shielded_of_readsTrusted (uuid other : Uuid) (tail : Bytes)
    (different : uuid.text ≠ other.text)
    (reads : ∀ uuid : Uuid, ReadsTrusted (fields ++ [44, 32]) uuid.text
      ([44, 32] ++ (sourceWorkerPattern ++ 32 :: 34 :: 34 :: tail))) :
    Shielded (fields ++ [44, 32]) := by
  have length : uuid.text.length = 36 := uuid.length
  have clean : ∀ byte ∈ ascii "0123456789abcdef-", byte ≠ 34 := forall_mem_of_all (by decide)
  have quotes : 34 ∉ uuid.text := fun member => clean 34 (uuid.mem_text member) rfl
  have absent : ¬ reqIdStrPattern <:+: fields ++ [44, 32] := by
    intro shadow
    have same : ∀ uuid : Uuid, uuid.text = (jsonGetStr
        ((123 :: matchBrace 1 rest).take (headerBufSize - 1)) (ascii "req_id_str") 64).getD [] := by
      intro uuid
      have read := (reads uuid).1
      rw [scanned_shadowed (by decide) (by decide) shadow, take_scannedCut shape] at read
      exact read.symm
    exact different ((same uuid).trans (same other).symm)
  have read := (reads uuid).1
  rw [reqIdStr_scanned absent quotes] at read
  have cut := headerCut_le (fields ++ [44, 32] ++ (reqIdStrPattern ++ 32 :: 34 :: (uuid.text ++ 34 ::
    ([44, 32] ++ (sourceWorkerPattern ++ 32 :: 34 :: 34 :: tail)))))
  have reaches : (fields ++ [44, 32]).length + 51 ≤ scannedCut (fields ++ [44, 32]) uuid.text
      ([44, 32] ++ (sourceWorkerPattern ++ 32 :: 34 :: 34 :: tail)) := by
    have lengths := congrArg List.length read
    split at lengths
    · rw [Option.getD_some, List.length_take, length] at lengths
      omega
    · rw [Option.getD_none, List.length_nil, length] at lengths
      exact absurd lengths (by decide)
  refine ⟨?_, ?_, absent, ?_⟩
  · intro closed
    rw [shape, List.tail_cons] at closed
    have le := scannedCut_le_of_closed shape closed uuid.text
      ([44, 32] ++ (sourceWorkerPattern ++ 32 :: 34 :: 34 :: tail))
    omega
  · exact Nat.le_trans reaches cut
  · by_cases shadow : sourceWorkerPattern <:+: fields ++ [44, 32]
    · have second := (reads uuid).2
      rw [scanned_shadowed (by decide) (by decide) shadow,
        List.take_of_length_le (by omega)] at second
      exact second
    · have missing : strstr (fields ++ [44, 32]) (keyPattern (ascii "source_worker")) = none :=
        strstr_eq_none_iff.mpr shadow
      unfold jsonGetStr
      rw [missing]
      rfl

end Header

/-! ### The stored entry -/

/-- The inbound entry of a bridge request, after `dpumesh_read` has taken it
from its host slot. -/
def storedEntry (rxHeader rxBody : BufferPool) (junk : Bytes) (worker : Worker)
    (desc : SwDescriptor) (hostSlot : Fin numSlots) (text : Bytes) : Inbound :=
  (dpumeshRead (deliveredRx rxHeader rxBody hostSlot text) junk worker
    (deliveredDesc desc hostSlot)).1.inbound 0

theorem storedEntry_eq (env : BridgeEnv) (client : List (PyStr × Value)) (url : Value)
    (workerName : PyStr) (uuid : Uuid) (slot podId : Int)
    (fits : (combined env client url workerName uuid).length ≤ slotSize)
    (rxHeader rxBody : BufferPool) (junk : Bytes) (worker : Worker) (hostSlot : Fin numSlots) :
    let text := combined env client url workerName uuid
    let entry := storedEntry rxHeader rxBody junk worker (bridgeDesc slot text.length podId)
      hostSlot text
    let scanned := scannedText (clientText env client url) uuid.text (trustedTail client workerName)
    entry.reqIdStr = (jsonGetStr scanned (ascii "req_id_str") 64).getD [] ∧
      entry.sourceWorker = (jsonGetStr scanned (ascii "source_worker") 128).getD [] := by
  intro text entry scanned
  have split := headerAndBody_eq env client url workerName uuid
  obtain ⟨rest, shape⟩ : ∃ rest, headerAndBody env client url workerName uuid = 123 :: rest := by
    rw [split, clientText_eq_cons]
    exact ⟨_, List.cons_append⟩
  have whole : text = ascii "\x7b\"header\": " ++ 123 :: rest := by
    rw [← shape]
    exact combined_eq env client url workerName uuid
  have clean : 0 ∉ 123 :: rest := by
    intro member
    have inside : 0 ∈ text := by
      rw [whole]
      exact List.mem_append_right _ member
    exact zero_notMem_dumps _ inside
  have scannedShape : scanned = (123 :: rest).take (headerCut (123 :: rest)) := by
    rw [← shape, split]
    rfl
  have request := readRequest_delivered (bridgeDesc slot text.length podId) hostSlot rfl
    (congrArg List.length whole) (by rw [← whole]; exact fits) clean rxHeader rxBody junk
    worker.buffers
  have stored := Callee.inboundOf_readRequest (deliveredRx rxHeader rxBody hostSlot text) junk
    (deliveredDesc (bridgeDesc slot text.length podId) hostSlot) worker.buffers
  have place : entry = inboundOf (readRequest (deliveredRx rxHeader rxBody hostSlot text) junk
      (deliveredDesc (bridgeDesc slot text.length podId) hostSlot) worker.buffers).2 := by
    have index := readRequest_descIndex (deliveredRx rxHeader rxBody hostSlot text) junk
      (deliveredDesc (bridgeDesc slot text.length podId) hostSlot) worker.buffers
    show Function.update worker.inbound (readRequest _ _ _ _).2.descIndex _ 0 = _
    rw [index]
    exact Function.update_self _ _ _
  rw [place, stored.2.1, stored.2.2, scannedShape]
  rw [← whole] at request
  rw [request]
  exact ⟨rfl, rfl⟩

/-! ### Every client request -/

/-- For every uuid the worker stores the uuid and the empty source worker. -/
def StoresTrusted (env : BridgeEnv) (client : List (PyStr × Value)) : Prop :=
  ∀ (uuid : Uuid) (slot : Int) (desc : SwDescriptor) (text : Bytes),
    handleBridgeClient env client uuid slot = .sent desc text →
    ∀ (rxHeader rxBody : BufferPool) (junk : Bytes) (worker : Worker) (hostSlot : Fin numSlots),
      (storedEntry rxHeader rxBody junk worker desc hostSlot text).reqIdStr = uuid.text ∧
        (storedEntry rxHeader rxBody junk worker desc hostSlot text).sourceWorker = []

/-- A request that is sent has its routing fields shielded from the client's
text. -/
def RoutingShielded (env : BridgeEnv) (client : List (PyStr × Value)) : Prop :=
  ∀ (uuid : Uuid) (slot : Int) (desc : SwDescriptor) (text : Bytes),
    handleBridgeClient env client uuid slot = .sent desc text →
    ∀ url, targetUrl env client = some url → Shielded (clientText env client url)

def secondUuid : Uuid where
  text := ascii "bbbbbbbb-0000-4000-8000-000000000000"
  length := by decide
  fits := forall_mem_of_all (by decide)

theorem length_combined (env : BridgeEnv) (client : List (PyStr × Value)) (url : Value)
    (worker : PyStr) (uuid other : Uuid) :
    (combined env client url worker uuid).length = (combined env client url worker other).length := by
  have lengths : uuid.text.length = other.text.length := uuid.length.trans other.length.symm
  rw [combined_eq, combined_eq, headerAndBody_eq, headerAndBody_eq]
  simp only [List.length_append, List.length_cons, lengths]

theorem routingShielded_of_storesTrusted {env : BridgeEnv} {client : List (PyStr × Value)}
    (stores : StoresTrusted env client) : RoutingShielded env client := by
  intro uuid slot desc text sent url target
  obtain ⟨url', worker, podId, target', selected, same, fits, -, encodes, allocated⟩ :=
    sent_inversion sent
  have sameUrl : url' = url := Option.some.inj (target'.symm.trans target)
  rw [sameUrl] at selected same
  rw [same] at fits
  apply shielded_of_readsTrusted rfl firstUuid secondUuid
    (dumpsMembers [(lit "dest_worker", .string worker)] ++ ascii "\x7d" ++
      (ascii ", \"body\": " ++ dumps (get client (lit "body") (.string [])) ++ ascii "\x7d"))
    (by decide)
  intro other
  have length := length_combined env client url worker other uuid
  have later := stores other slot _ _
    (sent_of_length_eq target selected encodes allocated fits length) .zeroed .zeroed []
    (Worker.init [] 0) ⟨0, by decide⟩
  have entry := storedEntry_eq env client url worker other slot podId (by omega) .zeroed .zeroed []
    (Worker.init [] 0) ⟨0, by decide⟩
  rw [entry.1, entry.2] at later
  exact later

theorem storesTrusted_of_routingShielded {env : BridgeEnv} {client : List (PyStr × Value)}
    (shielded : RoutingShielded env client) : StoresTrusted env client := by
  intro uuid slot desc text sent rxHeader rxBody junk worker hostSlot
  have shield := shielded uuid slot desc text sent
  obtain ⟨url, workerName, podId, target, -, same, fits, sameDesc, -, -⟩ := sent_inversion sent
  rw [same] at fits sameDesc
  have reads := readsTrusted_of_shielded rfl (shield url target) uuid
    (dumpsMembers [(lit "dest_worker", .string workerName)] ++ ascii "\x7d" ++
      (ascii ", \"body\": " ++ dumps (get client (lit "body") (.string [])) ++ ascii "\x7d"))
  have entry := storedEntry_eq env client url workerName uuid slot podId fits rxHeader rxBody junk
    worker hostSlot
  rw [same, sameDesc, entry.1, entry.2]
  exact reads

/-- Two clients' requests are stored with the same routing fields for one uuid. -/
def SameRouting (env : BridgeEnv) (first second : List (PyStr × Value)) : Prop :=
  ∀ (uuid : Uuid) (firstSlot secondSlot : Int) (firstDesc secondDesc : SwDescriptor)
    (firstText secondText : Bytes),
    handleBridgeClient env first uuid firstSlot = .sent firstDesc firstText →
    handleBridgeClient env second uuid secondSlot = .sent secondDesc secondText →
    ∀ (rxHeader rxBody : BufferPool) (junk : Bytes) (worker : Worker) (hostSlot : Fin numSlots),
      let one := storedEntry rxHeader rxBody junk worker firstDesc hostSlot firstText
      let other := storedEntry rxHeader rxBody junk worker secondDesc hostSlot secondText
      one.reqIdStr = other.reqIdStr ∧ one.sourceWorker = other.sourceWorker

theorem sameRouting_of_storesTrusted {env : BridgeEnv} {first second : List (PyStr × Value)}
    (firstStores : StoresTrusted env first) (secondStores : StoresTrusted env second) :
    SameRouting env first second := by
  intro uuid firstSlot secondSlot firstDesc secondDesc firstText secondText firstSent secondSent
    rxHeader rxBody junk worker hostSlot
  have one := firstStores uuid firstSlot firstDesc firstText firstSent rxHeader rxBody junk worker
    hostSlot
  have other := secondStores uuid secondSlot secondDesc secondText secondSent rxHeader rxBody junk
    worker hostSlot
  exact ⟨one.1.trans other.1.symm, one.2.trans other.2.symm⟩

/-- Whatever a client sends, its request is stored with the bridge's uuid and
the empty source worker, for every uuid, exactly if the client's text shields
the routing fields; two such clients are told apart by neither field. -/
theorem stores_trusted_iff (env : BridgeEnv) (client : List (PyStr × Value)) :
    (StoresTrusted env client ↔ RoutingShielded env client) ∧
      ∀ other, RoutingShielded env client → RoutingShielded env other →
        SameRouting env client other := by
  refine ⟨⟨routingShielded_of_storesTrusted, storesTrusted_of_routingShielded⟩, ?_⟩
  intro other shielded otherShielded
  exact sameRouting_of_storesTrusted (storesTrusted_of_routingShielded shielded)
    (storesTrusted_of_routingShielded otherShielded)

/-! ### A client that names its own `req_id_str` -/

/-- `{"path": "/", "headers": {"req_id_str": "x"}}`. -/
def namingClient : List (PyStr × Value) :=
  [(lit "path", .string (lit "/")),
    (lit "headers", .object [(lit "req_id_str", .string (lit "x"))])]

def namingUrl : Value := .string (lit "http://s0.default.svc.cluster.local/")

theorem naming_target : targetUrl oneWorkerEnv namingClient = some namingUrl := rfl

theorem naming_sent :
    handleBridgeClient oneWorkerEnv namingClient firstUuid 0 =
      .sent (bridgeDesc 0 (combined oneWorkerEnv namingClient namingUrl (lit "s0-worker-1")
          firstUuid).length 0)
        (combined oneWorkerEnv namingClient namingUrl (lit "s0-worker-1") firstUuid) := by
  have fits : (combined oneWorkerEnv namingClient namingUrl (lit "s0-worker-1") firstUuid).length ≤
      slotSize := by decide +kernel
  exact sent_of_length_eq naming_target rfl (by decide +kernel) (by decide) fits rfl

/-- The worker stores the client's `x` instead of the uuid. -/
theorem not_stores_trusted :
    ¬ ∀ (env : BridgeEnv) (client : List (PyStr × Value)), StoresTrusted env client := by
  intro stores
  have shielded := routingShielded_of_storesTrusted (stores oneWorkerEnv namingClient)
    firstUuid 0 _ _ naming_sent namingUrl naming_target
  have shadow : reqIdStrPattern <:+: clientText oneWorkerEnv namingClient namingUrl := by
    decide +kernel
  exact shielded.reqIdStr shadow

end MiniMs.Daemon
