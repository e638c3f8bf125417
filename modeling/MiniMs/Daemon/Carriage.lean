import MiniMs.Daemon.PipelineCalls
import MiniMs.Library.JsonText

/-!
What a descriptor carries where it is.

Owns: the two slots of a worker's message and the one slot of a bridge request,
the fields that name them in each place, the bytes that they begin with, what is
asked about a message, the rules of custody for parties that say so, and that
each call of the pipeline keeps it.
-/

namespace MiniMs.Daemon.Pipeline

open MiniMs.Library.Text MiniMs.Library.Json MiniMs.Library.Number MiniMs.Library.Slots
open MiniMs.Library.Party MiniMs.Library.Custody MiniMs.Dpumesh

/-! ### Objects -/

/-- What the scanner makes of the members of an object is an object. -/
theorem scanMembers_object {float : PyStr → Numeral} {fuel : Nat} {text rest : PyStr}
    {members : List (PyStr × Value)} {value : Value}
    (scanned : scanMembers float fuel text members = some (value, rest)) :
    ∃ found, value = .object found := by
  induction fuel generalizing text members with
  | zero =>
      unfold scanMembers at scanned
      cases scanned
  | succ fuel inductionHypothesis =>
      cases text with
      | nil =>
          unfold scanMembers at scanned
          cases scanned
      | cons quote text =>
          unfold scanMembers at scanned
          split at scanned
          · obtain ⟨⟨key, behind⟩, _, scanned⟩ := Option.bind_eq_some_iff.mp scanned
            dsimp only at scanned
            split at scanned
            · cases scanned
            · split at scanned
              · obtain ⟨⟨member, behind⟩, _, scanned⟩ := Option.bind_eq_some_iff.mp scanned
                dsimp only at scanned
                split at scanned
                · cases scanned
                · split at scanned
                  · exact ⟨_, (congrArg Prod.fst (Option.some.inj scanned)).symm⟩
                  · split at scanned
                    · exact inductionHypothesis scanned
                    · cases scanned
              · cases scanned
          · cases scanned

/-- A text that opens with a brace is that of an object, if it is one at all. -/
theorem loads_brace {float : PyStr → Numeral} {text : PyStr} {value : Value}
    (loaded : loads float (123 :: text) = some value) : ∃ members, value = .object members := by
  have unmarked : ¬ (123 :: text : PyStr).head? = some 0xfeff := by
    intro same
    exact absurd (Option.some.inj same) (by decide)
  have same : skipSpace (123 :: text) = 123 :: text := skipSpace_cons (by decide) text
  unfold loads at loaded
  rw [if_neg unmarked, same] at loaded
  obtain ⟨⟨found, rest⟩, scanned, loaded⟩ := Option.bind_eq_some_iff.mp loaded
  dsimp only at loaded
  split at loaded
  · rw [← Option.some.inj loaded]
    unfold scanOnce at scanned
    rw [if_neg (by decide), if_pos (by decide)] at scanned
    split at scanned
    · cases scanned
    · split at scanned
      · exact ⟨[], (congrArg Prod.fst (Option.some.inj scanned)).symm⟩
      · exact scanMembers_object scanned
  · cases loaded

/-- The router can look into every header that opens with a brace. -/
theorem infoOf_brace (float : PyStr → Numeral) (rest : Bytes) :
    ∃ info, infoOf float (123 :: rest) = some info := by
  unfold infoOf deserializeHeader
  cases decoded : decode (123 :: rest) with
  | none => exact ⟨[], rfl⟩
  | some text =>
      have brace : encode [123] = some [123] := rfl
      obtain ⟨tail, rfl, _⟩ := encode_front brace (encode_of_decode decoded)
      cases loaded : loads float (123 :: tail) with
      | none => exact ⟨[], by rw [Option.bind_some, List.singleton_append, loaded]⟩
      | some value =>
          obtain ⟨members, rfl⟩ := loads_brace loaded
          exact ⟨members, by rw [Option.bind_some, List.singleton_append, loaded]⟩

/-! ### Messages in slots -/

/-- A worker's message in two slots: its header fits, and its body is there
where it fits. -/
structure Pair (header body : Cell PoolName) (desc : SwDescriptor) (content : Written)
    (known : Cell PoolName → Bytes) : Prop where
  valid : desc.valid = 1
  headerInside : header.index < numSlots
  bodyInside : body.index < numSlots
  headerBytes : content.header = some (known header)
  headerLen : desc.headerLen = (known header).length
  headerFits : (known header).length ≤ slotSize
  opens : ∃ rest, known header = 123 :: rest
  bodyLen : desc.bodyLen = content.body.length
  bodySome : 0 < content.body.length
  bodyBytes : content.body.length ≤ slotSize → known body = content.body
  isResponse : desc.isResponse = content.isResponse
  reqId : desc.reqId = content.reqId

/-- A bridge request in one slot. -/
structure Single (body : Cell PoolName) (desc : SwDescriptor) (content : Written)
    (known : Cell PoolName → Bytes) : Prop where
  valid : desc.valid = 1
  bodyInside : body.index < numSlots
  headerless : content.header = none
  bodyLen : desc.bodyLen = content.body.length
  bodySome : 0 < content.body.length
  bodyFits : content.body.length ≤ slotSize
  bodyBytes : known body = content.body
  ingress : desc.caseFlag = caseIngress
  isRequest : desc.isResponse = false
  request : content.isResponse = false

section Moves

variable {header header' body body' : Cell PoolName} {desc desc' : SwDescriptor}
  {content : Written} {known known' : Cell PoolName → Bytes}

/-- The same message in other slots with the same bytes. -/
theorem Pair.move (pair : Pair header body desc content known) (valid : desc'.valid = 1)
    (headerInside : header'.index < numSlots) (bodyInside : body'.index < numSlots)
    (sameHeader : known' header' = known header)
    (sameBody : content.body.length ≤ slotSize → known' body' = known body)
    (headerLen : desc'.headerLen = desc.headerLen) (bodyLen : desc'.bodyLen = desc.bodyLen)
    (isResponse : desc'.isResponse = desc.isResponse) (reqId : desc'.reqId = desc.reqId) :
    Pair header' body' desc' content known' where
  valid := valid
  headerInside := headerInside
  bodyInside := bodyInside
  headerBytes := by rw [sameHeader, pair.headerBytes]
  headerLen := by rw [sameHeader, headerLen, pair.headerLen]
  headerFits := by
    rw [sameHeader]
    exact pair.headerFits
  opens := by
    rw [sameHeader]
    exact pair.opens
  bodyLen := bodyLen.trans pair.bodyLen
  bodySome := pair.bodySome
  bodyBytes := fun fits => (sameBody fits).trans (pair.bodyBytes fits)
  isResponse := isResponse.trans pair.isResponse
  reqId := reqId.trans pair.reqId

theorem Pair.headerSome (pair : Pair header body desc content known) : 0 < desc.headerLen := by
  obtain ⟨rest, opens⟩ := pair.opens
  rw [pair.headerLen, opens]
  exact Nat.succ_pos _

theorem Pair.bodyLen_pos (pair : Pair header body desc content known) : 0 < desc.bodyLen := by
  rw [pair.bodyLen]
  exact pair.bodySome

theorem Single.bodyLen_pos (single : Single body desc content known) : 0 < desc.bodyLen := by
  rw [single.bodyLen]
  exact single.bodySome

end Moves

/-- The fields that name a message's slots up to the SIDECAR RX ring. -/
structure Sourced (service : Int → Bytes) (desc : SwDescriptor) (header body : Cell PoolName) :
    Prop where
  headerSlot : desc.headerBufSlot = header.index
  srcHeaderSlot : desc.srcHeaderBufSlot = header.index
  headerPool : poolOf service desc.srcHeaderPoolType desc.srcHeaderPodId = some header.pool
  srcBodySlot : desc.srcBodyBufSlot = body.index
  bodyPool : poolOf service desc.srcBodyPoolType desc.srcBodyPodId = some body.pool

/-- The fields that name a bridge request's slot on the SIDECAR RX ring. -/
structure SourcedBody (service : Int → Bytes) (desc : SwDescriptor) (body : Cell PoolName) :
    Prop where
  srcHeaderSlot : desc.srcHeaderBufSlot = -1
  srcBodySlot : desc.srcBodyBufSlot = body.index
  bodyPool : poolOf service desc.srcBodyPoolType desc.srcBodyPodId = some body.pool

/-- What has arrived at a worker. -/
inductive Received (service : Int → Bytes) (podId : Int) (desc : SwDescriptor) (content : Written)
    (known : Cell PoolName → Bytes) : Prop
  | pair (header body : Nat) (headerSlot : desc.headerBufSlot = header)
      (bodySlot : desc.bodyBufSlot = body) (isLocal : desc.caseFlag = caseLocal)
      (pair : Pair ⟨.host (service podId) .rxHeader, header⟩ ⟨.host (service podId) .rxBody, body⟩
        desc content known)
  | single (body : Nat) (headerSlot : desc.headerBufSlot = -1) (bodySlot : desc.bodyBufSlot = body)
      (single : Single ⟨.host (service podId) .rxBody, body⟩ desc content known)

/-- What a descriptor that waits in a place carries. -/
def Carries (service : Int → Bytes) :
    Place → SwDescriptor → Written → (Cell PoolName → Bytes) → Prop
  | .tx podId, desc, content, known => ∃ app header body,
      Sourced service desc ⟨.host (service podId) .txHeader, header⟩ ⟨.host app .txBody, body⟩ ∧
        Pair ⟨.host (service podId) .txHeader, header⟩ ⟨.host app .txBody, body⟩ desc content known
  | .sidecarTx, desc, content, known => ∃ app header body,
      Sourced service desc ⟨.dpuTxHeader, header⟩ ⟨.host app .txBody, body⟩ ∧
        Pair ⟨.dpuTxHeader, header⟩ ⟨.host app .txBody, body⟩ desc content known
  | .sidecarRx, desc, content, known =>
      (desc.caseFlag = caseLocal ∧ ∃ app header body,
        Sourced service desc ⟨.dpuTxHeader, header⟩ ⟨.host app .txBody, body⟩ ∧
          Pair ⟨.dpuTxHeader, header⟩ ⟨.host app .txBody, body⟩ desc content known) ∨
      ∃ body, SourcedBody service desc ⟨.dpuRxBody, body⟩ ∧
        Single ⟨.dpuRxBody, body⟩ desc content known
  | .rx podId, desc, content, known => Received service podId desc content known
  | .notify podId, desc, content, known =>
      content.isResponse = false ∧ Received service podId desc content known
  | .response podId, desc, content, known =>
      content.isResponse = true ∧ Received service podId desc content known

/-! ### The rules -/

/-- What the router reads in a message's header. -/
def Informs (float : PyStr → Numeral) (content : Written) (info : List (PyStr × Value)) : Prop :=
  ∃ header, content.header = some header ∧ infoOf float header = some info

/-- What a worker's callback is given of a message: all but the last byte that
its buffers have room for. -/
def Given (content : Written) (header body : Bytes) : Prop :=
  header = (content.header.getD []).take (headerBufSize - 1) ∧
    (content.body.length ≤ slotSize → body = content.body.take (slotSize - 1))

/-- What is asked about a message. -/
def Asks (float : PyStr → Numeral) : Question → Written → Prop
  | .service _, _ => True
  | .resources _, _ => True
  | .select service, content => content.isResponse = false ∧ ∃ info, Informs float content info ∧
      service = getServiceName (get info (lit "url") (.string []))
  | .podId worker, content => content.isResponse = true ∧ ∃ info, Informs float content info ∧
      worker = get info (lit "dest_worker") (.string []) ∧ worker.truthy = true
  | .waiting reqId body, content => content.isResponse = true ∧ ∃ info, Informs float content info ∧
      (get info (lit "dest_worker") (.string [])).truthy = false ∧
      reqId = get info (lit "req_id_str") (.string []) ∧
      (content.body.length ≤ slotSize → body = content.body)
  | .pipe _ index, content => content.isResponse = true ∧ index = content.reqId % maxPending
  | .onRequest _ header body, content => content.isResponse = false ∧ Given content header body
  | .onResponse _ header body, content => content.isResponse = true ∧ Given content header body

/-- A message whose header fits in a slot, and whose body is one that `bp_write`
either copies or refuses. -/
def Sendable (out : Outgoing) (body : Option Bytes) : Prop :=
  out.header.length ≤ slotSize ∧ (bodyData body).length < 2 ^ 31

/-- Calls of workers that have started. -/
def Ordinary : Call → Prop
  | .init _ => False
  | .request worker method url _ body => Sendable (writeRequest worker method url).2 body
  | .response worker descIndex statusCode _ body =>
      Sendable (writeResponse worker descIndex statusCode).2 body
  | .client _ _ _ => True

/-- How a message can end. -/
inductive Ends : Outcome → Prop
  | called : Ends .called
  | received : Ends .received
  | toClient : Ends .toClient
  | noWorker : Ends .noWorker
  | unknownWorker : Ends .unknownWorker
  | noPodResources : Ends .noPodResources
  | noClient : Ends .noClient
  | noPipe : Ends .noPipe

/-- The registry knows every pod, and nobody starts; where that is asked for, each
response has its pipe. -/
def carriage (service : Int → Bytes) (float : PyStr → Numeral) (piped : Prop) : PipelineRules where
  calls := Ordinary
  answers
    | .service _, answer => answer ≠ none
    | .pipe _ _, answer => piped → answer ≠ none
    | _, _ => True
  asks := Asks float
  contents := True
  Fit := Carries service
  clears := False
  under lesser greater := ∃ app, lesser = .host app .rxHeader ∧ greater = .host app .rxBody
  backing
    | .tx podId => some [.host (service podId) .txHeader]
    | .sidecarTx => some [.dpuTxHeader]
    | .sidecarRx => some [.dpuTxHeader, .dpuRxBody]
    | .rx podId => some [.host (service podId) .rxBody]
    | .notify podId => some [.host (service podId) .rxBody]
    | .response podId => some [.host (service podId) .rxBody]
  ends := Ends
  tidy := True
  leaves outcome := outcome = .noPipe ∧ ¬ piped

end MiniMs.Daemon.Pipeline
