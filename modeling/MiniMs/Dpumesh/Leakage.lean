import MiniMs.Dpumesh.Callee

/-!
What a request shows of the requests before it.

Owns: the part of a request that the service sees, the condition on a
descriptor and its slots under which `dpumesh_read` writes every static buffer
that the request points into, and the two-run theorem: a request looks the same
after any two histories exactly under that condition.

A history is any run of the callee; the contents of the slots and of the stack
at the read are its own arguments.
-/

namespace MiniMs.Dpumesh.Leakage

open MiniMs.Library.Text MiniMs.Library.Run MiniMs.Dpumesh.Callee

/-- What the service sees of a request. -/
structure Seen where
  method : Option Bytes
  path : Option Bytes
  queryString : Option Bytes
  body : Option Bytes
  reqIdStr : Bytes
  sourceWorker : Bytes
deriving DecidableEq, Repr

def seen (req : Request) : Seen :=
  ⟨req.method, req.path, req.queryString, req.body, req.reqIdStr, req.sourceWorker⟩

/-! ### The condition -/

/-- The three texts kept in static buffers are all found as strings. -/
structure FillsBuffers (json : Bytes) : Prop where
  method : (jsonGetStr json (ascii "method") 16).isSome
  path : (jsonGetStr json (ascii "path") 256).isSome
  queryString : (jsonGetStr json (ascii "query_string") 512).isSome

/-- Case 2: no combined text at all, or one that parses and fills the buffers. -/
def IngressSelfContained (rx : RxPools) (desc : SwDescriptor) : Prop :=
  0 ≤ desc.bodyBufSlot ∧ 0 < desc.bodyLen →
    ∃ parsed, parseCase2Body (combinedText rx desc) headerBufSize slotSize = some parsed ∧
      FillsBuffers parsed.1

/-- Case 3: no header at all, or one that fills the buffers. -/
def LocalSelfContained (rx : RxPools) (desc : SwDescriptor) : Prop :=
  0 ≤ desc.headerBufSlot ∧ 0 < desc.headerLen → FillsBuffers (localHeaderText rx desc)

def SelfContained (rx : RxPools) (desc : SwDescriptor) : Prop :=
  if desc.caseFlag = caseIngress then IngressSelfContained rx desc
  else LocalSelfContained rx desc

/-! ### The condition is enough -/

theorem getD_eq_of_isSome {found : Option Bytes} (isSome : found.isSome) (first second : Bytes) :
    found.getD first = found.getD second := by
  cases found with
  | none => contradiction
  | some value => rfl

/-- A header that fills the buffers hides what they held. -/
theorem seen_readHeaderKeys {json : Bytes} (fills : FillsBuffers json)
    (first second : StaticBuffers) (req : Request) :
    seen (readHeaderKeys json first req).2 = seen (readHeaderKeys json second req).2 := by
  have method := getD_eq_of_isSome fills.method first.methodBuf second.methodBuf
  have path := getD_eq_of_isSome fills.path first.pathBuf second.pathBuf
  have queryString := getD_eq_of_isSome fills.queryString first.qsBuf second.qsBuf
  simp only [seen, readHeaderKeys, method, path, queryString]

theorem seen_readIngress {rx : RxPools} {desc : SwDescriptor}
    (contained : IngressSelfContained rx desc) (junk junk' : Bytes)
    (first second : StaticBuffers) :
    seen (readIngress rx junk desc first).2 = seen (readIngress rx junk' desc second).2 := by
  by_cases present : 0 ≤ desc.bodyBufSlot ∧ 0 < desc.bodyLen
  · obtain ⟨parsed, parses, fills⟩ := contained present
    have keys := seen_readHeaderKeys fills { first with reqBodyBuf := parsed.2 }
      { second with reqBodyBuf := parsed.2 } (blankRequest desc)
    simp only [seen, Seen.mk.injEq] at keys
    unfold readIngress
    rw [if_pos present, if_pos present, parses]
    simp only [Option.map_some, Option.getD_some, seen, Seen.mk.injEq]
    exact ⟨keys.1, keys.2.1, keys.2.2.1, rfl, keys.2.2.2.2⟩
  · unfold readIngress
    rw [if_neg present, if_neg present]

theorem seen_readLocalHeader {rx : RxPools} {desc : SwDescriptor}
    (contained : LocalSelfContained rx desc) (first second : StaticBuffers) :
    seen (readLocalHeader rx desc first).2 = seen (readLocalHeader rx desc second).2 := by
  unfold readLocalHeader
  by_cases present : 0 ≤ desc.headerBufSlot ∧ 0 < desc.headerLen
  · rw [if_pos present, if_pos present]
    exact seen_readHeaderKeys (contained present) first second _
  · rw [if_neg present, if_neg present]

/-- The body of Case 3 is always copied whole from its slot. -/
theorem seen_readLocal {rx : RxPools} {desc : SwDescriptor} {first second : StaticBuffers} :
    seen (readLocal rx desc first).2 = seen (readLocal rx desc second).2 ↔
      seen (readLocalHeader rx desc first).2 = seen (readLocalHeader rx desc second).2 := by
  have blank : ∀ buffers, (readLocalHeader rx desc buffers).2.body = none := by
    intro buffers
    unfold readLocalHeader
    split
    · rfl
    · rfl
  unfold readLocal
  dsimp only
  split
  · simp only [seen, Seen.mk.injEq, blank]
  · rfl

theorem seen_readRequest {rx : RxPools} {desc : SwDescriptor} (contained : SelfContained rx desc)
    (junk junk' : Bytes) (first second : StaticBuffers) :
    seen (readRequest rx junk desc first).2 = seen (readRequest rx junk' desc second).2 := by
  unfold SelfContained at contained
  unfold readRequest
  by_cases ingress : desc.caseFlag = caseIngress
  · rw [if_pos ingress] at contained ⊢
    rw [if_pos ingress]
    exact seen_readIngress contained junk junk' first second
  · rw [if_neg ingress] at contained ⊢
    rw [if_neg ingress]
    exact seen_readLocal.mpr (seen_readLocalHeader contained first second)

/-! ### The condition is needed -/

/-- Buffers in which an earlier request left its three texts. -/
structure Marked (buffers : StaticBuffers) : Prop where
  method : buffers.methodBuf ≠ []
  path : buffers.pathBuf ≠ []
  queryString : buffers.qsBuf ≠ []

theorem isSome_of_getD_eq {found : Option Bytes} {kept : Bytes}
    (same : found.getD [] = found.getD kept) (marked : kept ≠ []) : found.isSome := by
  cases found with
  | none => exact absurd same.symm marked
  | some value => rfl

theorem fillsBuffers_of_seen {json body body' : Bytes} {marked : StaticBuffers} {req : Request}
    (marks : Marked marked)
    (same : seen (readHeaderKeys json { reqBodyBuf := body } req).2 =
      seen (readHeaderKeys json { marked with reqBodyBuf := body' } req).2) :
    FillsBuffers json := by
  simp only [seen, readHeaderKeys, Seen.mk.injEq, Option.some.injEq] at same
  exact ⟨isSome_of_getD_eq same.1 marks.method, isSome_of_getD_eq same.2.1 marks.path,
    isSome_of_getD_eq same.2.2.1 marks.queryString⟩

/-- Only what the header text decides is compared. -/
theorem seen_of_seen_with_body {first second : Request} {body body' : Option Bytes}
    (bodies : first.body = second.body)
    (same : seen { first with body := body } = seen { second with body := body' }) :
    seen first = seen second := by
  simp only [seen, Seen.mk.injEq] at same ⊢
  exact ⟨same.1, same.2.1, same.2.2.1, bodies, same.2.2.2.2⟩

theorem not_fillsBuffers_nil : ¬ FillsBuffers [] := by
  intro fills
  have method := fills.method
  contradiction

theorem ingressSelfContained_of_seen {rx : RxPools} {desc : SwDescriptor} {marked : StaticBuffers}
    (marks : Marked marked)
    (same : seen (readIngress rx [] desc {}).2 = seen (readIngress rx [] desc marked).2) :
    IngressSelfContained rx desc := by
  intro present
  unfold readIngress at same
  rw [if_pos present, if_pos present] at same
  have keys := fillsBuffers_of_seen marks (seen_of_seen_with_body rfl same)
  cases parses : parseCase2Body (combinedText rx desc) headerBufSize slotSize with
  | none =>
      rw [parses] at keys
      exact absurd keys not_fillsBuffers_nil
  | some parsed =>
      rw [parses] at keys
      exact ⟨parsed, rfl, keys⟩

theorem localSelfContained_of_seen {rx : RxPools} {desc : SwDescriptor} {marked : StaticBuffers}
    (marks : Marked marked)
    (same : seen (readLocal rx desc {}).2 = seen (readLocal rx desc marked).2) :
    LocalSelfContained rx desc := by
  intro present
  have header := seen_readLocal.mp same
  unfold readLocalHeader at header
  rw [if_pos present, if_pos present] at header
  exact fillsBuffers_of_seen marks header

theorem selfContained_of_seen {rx : RxPools} {desc : SwDescriptor} {marked : StaticBuffers}
    (marks : Marked marked)
    (same : seen (readRequest rx [] desc {}).2 = seen (readRequest rx [] desc marked).2) :
    SelfContained rx desc := by
  unfold readRequest at same
  unfold SelfContained
  by_cases ingress : desc.caseFlag = caseIngress
  · rw [if_pos ingress, if_pos ingress] at same
    rw [if_pos ingress]
    exact ingressSelfContained_of_seen marks same
  · rw [if_neg ingress, if_neg ingress] at same
    rw [if_neg ingress]
    exact localSelfContained_of_seen marks same

/-! ### A history that marks the buffers -/

/-- The header of `GET http://s1/id?name=a` from a peer. -/
def peerHeader : Bytes :=
  headerText (ascii "GET") (ascii "http://s1/id?name=a") (ascii "/id") (ascii "name=a") 0
    (ascii "creq-1") (ascii "s0-worker-0") []

def peerDesc : SwDescriptor :=
  { headerBufSlot := 0, headerLen := peerHeader.length, flags := caseLocal, valid := 1 }

def peerRx : RxPools :=
  ⟨BufferPool.zeroed.copyIn (BufferPool.offset peerDesc.headerBufSlot.toNat) peerHeader, .zeroed⟩

theorem buffers_after_peer :
    (readRequest peerRx [] peerDesc {}).1 = ⟨ascii "GET", ascii "/id", ascii "name=a", []⟩ := by
  have text : localHeaderText peerRx peerDesc = cstr peerHeader :=
    localHeaderText_copyIn _ _ (by decide) rfl (by decide +kernel)
  rw [readRequest_header_only (by decide) ⟨by decide, by decide +kernel⟩ (by decide), text]
  decide +kernel

/-- A worker that has served the peer keeps its texts. -/
theorem exists_marked (workerId : Bytes) (podId : Int) :
    ∃ state, Reachable step (start workerId podId) state ∧ Marked state.worker.buffers := by
  obtain ⟨next, reachable, buffers⟩ :=
    exists_reachable_read (start workerId podId) peerDesc rfl peerRx []
  have first : (start workerId podId).worker.buffers = {} := rfl
  rw [first, buffers_after_peer] at buffers
  refine ⟨next, reachable, ?_⟩
  rw [buffers]
  exact ⟨by decide, by decide, by decide⟩

/-! ### Two histories -/

theorem selfContained_of_independent {workerId : Bytes} {podId : Int} {rx : RxPools}
    {desc : SwDescriptor}
    (independent : ∀ first second : State, Reachable step (start workerId podId) first →
      Reachable step (start workerId podId) second → ∀ junk junk' : Bytes,
      seen (dpumeshRead rx junk first.worker desc).2 =
        seen (dpumeshRead rx junk' second.worker desc).2) :
    SelfContained rx desc := by
  obtain ⟨marked, reachable, marks⟩ := exists_marked workerId podId
  exact selfContained_of_seen marks
    (independent (start workerId podId) marked ⟨[], rfl⟩ reachable [] [])

/-- A request looks the same after any two histories of the worker, whatever
the stack holds, exactly if its own slots fill the buffers it points into. -/
theorem read_independent_of_history_iff (workerId : Bytes) (podId : Int) (rx : RxPools)
    (desc : SwDescriptor) :
    (∀ first second : State, Reachable step (start workerId podId) first →
        Reachable step (start workerId podId) second → ∀ junk junk' : Bytes,
        seen (dpumeshRead rx junk first.worker desc).2 =
          seen (dpumeshRead rx junk' second.worker desc).2) ↔
      SelfContained rx desc := by
  constructor
  · exact selfContained_of_independent
  · intro contained first second _ _ junk junk'
    exact seen_readRequest contained junk junk' first.worker.buffers second.worker.buffers

/-! ### A method that is not a string -/

/-- The combined text of a bridge client that sent `"method": null`. -/
def nullMethodText : Bytes :=
  ascii "\x7b\"header\": \x7b\"method\": null, \"url\": \"http://s0/\", \"path\": \"/\", " ++
    ascii "\"headers\": \x7b\x7d, \"query_string\": \"\", \"remote_addr\": \"10.0.0.1\", " ++
    ascii "\"status_code\": 0, \"req_id_str\": \"aaaaaaaa-0000-4000-8000-000000000000\", " ++
    ascii "\"source_worker\": \"\", \"dest_worker\": \"s0-worker-0\"\x7d, \"body\": \"\"\x7d"

def nullMethodDesc : SwDescriptor :=
  { bodyBufSlot := 0, bodyLen := nullMethodText.length, flags := caseIngress, valid := 1 }

def nullMethodRx : RxPools :=
  ⟨.zeroed,
    BufferPool.zeroed.copyIn (BufferPool.offset nullMethodDesc.bodyBufSlot.toNat) nullMethodText⟩

theorem not_selfContained_nullMethod : ¬ SelfContained nullMethodRx nullMethodDesc := by
  intro contained
  have text : combinedText nullMethodRx nullMethodDesc = cstr nullMethodText :=
    combinedText_copyIn _ _ (by decide) rfl (by decide +kernel)
  unfold SelfContained at contained
  rw [if_pos (by decide)] at contained
  obtain ⟨parsed, parses, fills⟩ := contained ⟨by decide, by decide +kernel⟩
  have method := fills.method
  rw [text] at parses
  have missing : (parseCase2Body (cstr nullMethodText) headerBufSize slotSize).map (fun parsed =>
      (jsonGetStr parsed.1 (ascii "method") 16).isSome) = some false := by
    decide +kernel
  rw [parses, Option.map_some, method] at missing
  exact absurd missing (by decide)

/-- A fresh worker hands over an empty method here, and one that has served the
peer hands over the peer's. -/
theorem read_depends_on_history :
    ¬ ∀ (workerId : Bytes) (podId : Int) (rx : RxPools) (desc : SwDescriptor)
        (first second : State), Reachable step (start workerId podId) first →
        Reachable step (start workerId podId) second → ∀ junk junk' : Bytes,
        seen (dpumeshRead rx junk first.worker desc).2 =
          seen (dpumeshRead rx junk' second.worker desc).2 := by
  intro claim
  have independent := claim (ascii "s0-worker-0") 1 nullMethodRx nullMethodDesc
  exact not_selfContained_nullMethod (selfContained_of_independent independent)

end MiniMs.Dpumesh.Leakage
