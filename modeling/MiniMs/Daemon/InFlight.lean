import MiniMs.Daemon.Carriage
import MiniMs.Dpumesh.SlotWrite
import MiniMs.Library.Run

/-!
Messages in flight.

Owns: that every program of the pipeline keeps what descriptors carry, one lemma
for each function, and that the queues have room for the slots of their pools.
-/

namespace MiniMs.Daemon.Pipeline

open MiniMs.Library.Text MiniMs.Library.Json MiniMs.Library.Number MiniMs.Library.Slots
open MiniMs.Library.Party MiniMs.Library.Custody MiniMs.Library.Run MiniMs.Dpumesh

section

variable {service : Int → Bytes} {float : PyStr → Numeral} {piped : Prop} {content : Written}
  {holds : List (Cell PoolName)} {known : Cell PoolName → Bytes} {stage : Stage}
  {desc : SwDescriptor} {cell : Cell PoolName}

/-! ### Fair holdings -/

theorem fair_nil : (carriage service float piped).Fair [] := fun _ _ _ => Nat.le_refl 0

/-- Any slot but one of an RX header pool can be added. -/
theorem fair_cons (other : ∀ app, cell.pool ≠ .host app .rxHeader)
    (fair : (carriage service float piped).Fair holds) :
    (carriage service float piped).Fair (cell :: holds) := by
  rintro lesser greater ⟨app, rfl, rfl⟩
  have few := fair _ _ ⟨app, rfl, rfl⟩
  rw [countIn_cons, countIn_cons, if_neg (other app)]
  omega

/-- A slot of an RX header pool is held beside one of the RX body pool. -/
theorem fair_rx {app : Bytes} {header body : Nat}
    (fair : (carriage service float piped).Fair holds) :
    (carriage service float piped).Fair
      (⟨.host app .rxHeader, header⟩ :: ⟨.host app .rxBody, body⟩ :: holds) := by
  rintro lesser greater ⟨app', rfl, rfl⟩
  have few := fair _ _ ⟨app', rfl, rfl⟩
  simp only [countIn_cons, PoolName.host.injEq, reduceCtorEq, and_true, and_false, ↓reduceIte]
  omega

theorem fair_singleton (other : ∀ app, cell.pool ≠ .host app .rxHeader) :
    (carriage service float piped).Fair [cell] := fair_cons other fair_nil

/-! ### Calls -/

/-- The program keeps what its descriptor carries. -/
abbrev Bears (service : Int → Bytes) (float : PyStr → Numeral) (piped : Prop) (content : Written)
    (program : Program) (holds : List (Cell PoolName)) (known : Cell PoolName → Bytes)
    (stage : Stage) : Prop :=
  Keeps service float (carriage service float piped) content program holds known stage

/-- The registry knows the pod. -/
theorem bears_resolvePool {poolType : Nat} {podId : Int} {pool : PoolName}
    {next : Option PoolName → Program} (found : poolOf service poolType podId = some pool)
    (keeps : Bears service float piped content (next (some pool)) holds known stage) :
    Bears service float piped content (resolvePool service poolType podId next) holds known
      stage := by
  refine keeps_resolvePool trivial (fun missing => ?_) fun other same => ?_
  · exact absurd rfl (missing (by rw [found]; simp))
  · obtain rfl := Option.some.inj (found.symm.trans same)
    exact keeps

/-- A source that is left over is freed. -/
theorem bears_cleanup {header body : Cell PoolName} {next : Program}
    (sourced : Sourced service desc header body) (headerInside : header.index < numSlots)
    (bodyInside : body.index < numSlots) (other : ∀ app, header.pool ≠ .host app .rxHeader)
    (keeps : Bears service float piped content next [] known stage) :
    Bears service float piped content (cleanup service desc next) [header, body] known stage := by
  have freed : Bears service float piped content (cleanupHeader service desc next) [header] known
      stage := by
    unfold cleanupHeader
    refine keeps_ite (fun _ => ?_) fun missing => ?_
    · apply bears_resolvePool sourced.headerPool
      dsimp only
      rw [sourced.srcHeaderSlot]
      exact keeps_free headerInside (List.Perm.refl _) fair_nil keeps
    · rw [sourced.srcHeaderSlot] at missing
      exact absurd (Int.natCast_nonneg _) missing
  unfold cleanup cleanupBody
  refine keeps_ite (fun _ => ?_) fun missing => ?_
  · apply bears_resolvePool sourced.bodyPool
    dsimp only
    rw [sourced.srcBodySlot]
    exact keeps_free bodyInside (List.Perm.swap _ _ _) (fair_singleton other) freed
  · rw [sourced.srcBodySlot] at missing
    exact absurd (Int.natCast_nonneg _) missing

theorem bears_cleanup_single {body : Cell PoolName} {next : Program}
    (sourced : SourcedBody service desc body) (inside : body.index < numSlots)
    (keeps : Bears service float piped content next [] known stage) :
    Bears service float piped content (cleanup service desc next) [body] known stage := by
  have nothing : cleanupHeader service desc next = next := by
    unfold cleanupHeader
    rw [sourced.srcHeaderSlot]
    exact if_neg (by decide)
  unfold cleanup cleanupBody
  rw [nothing]
  refine keeps_ite (fun _ => ?_) fun missing => ?_
  · apply bears_resolvePool sourced.bodyPool
    dsimp only
    rw [sourced.srcBodySlot]
    exact keeps_free inside (List.Perm.refl _) fair_nil keeps
  · rw [sourced.srcBodySlot] at missing
    exact absurd (Int.natCast_nonneg _) missing

/-! ### Names -/

theorem cellOf_index (cell : Cell PoolName) : cellOf cell.pool cell.index = some cell := by
  rw [cellOf_natCast]

theorem Sourced.headerSource_eq {header body : Cell PoolName}
    (sourced : Sourced service desc header body) : headerSource service desc = some header := by
  unfold headerSource
  rw [sourced.headerPool, sourced.srcHeaderSlot, Option.bind_some, cellOf_index]

theorem Sourced.bodySource_eq {header body : Cell PoolName}
    (sourced : Sourced service desc header body) : bodySource service desc = some body := by
  unfold bodySource
  rw [sourced.bodyPool, sourced.srcBodySlot, Option.bind_some, cellOf_index]

theorem Sourced.sources {header body : Cell PoolName} (sourced : Sourced service desc header body) :
    (headerSource service desc).toList ++ (bodySource service desc).toList = [header, body] := by
  rw [sourced.headerSource_eq, sourced.bodySource_eq]
  rfl

theorem SourcedBody.headerSource_eq {body : Cell PoolName}
    (sourced : SourcedBody service desc body) : headerSource service desc = none := by
  unfold headerSource
  rw [sourced.srcHeaderSlot]
  cases poolOf service desc.srcHeaderPoolType desc.srcHeaderPodId with
  | none => rfl
  | some pool => exact cellOf_neg_one pool

theorem SourcedBody.bodySource_eq {body : Cell PoolName}
    (sourced : SourcedBody service desc body) : bodySource service desc = some body := by
  unfold bodySource
  rw [sourced.bodyPool, sourced.srcBodySlot, Option.bind_some, cellOf_index]

theorem SourcedBody.sources {body : Cell PoolName} (sourced : SourcedBody service desc body) :
    (headerSource service desc).toList ++ (bodySource service desc).toList = [body] := by
  rw [sourced.headerSource_eq, sourced.bodySource_eq]
  rfl

/-! ### The DPA -/

/-- A message goes on to the router. -/
theorem bears_forward {app : Bytes} {header body : Nat}
    (sourced : poolOf service desc.srcBodyPoolType desc.srcBodyPodId = some (.host app .txBody))
    (slot : desc.srcBodyBufSlot = body)
    (pair : Pair ⟨.dpuTxHeader, header⟩ ⟨.host app .txBody, body⟩ (sidecarDesc desc header) content
      known) :
    Bears service float piped content (forward desc header)
      [⟨.dpuTxHeader, header⟩, ⟨.host app .txBody, body⟩] known .carrying := by
  have named : Sourced service (sidecarDesc desc header) ⟨.dpuTxHeader, header⟩
      ⟨.host app .txBody, body⟩ := ⟨rfl, rfl, rfl, slot, sourced⟩
  have names : names service .sidecarTx (sidecarDesc desc header) =
      [⟨.dpuTxHeader, header⟩, ⟨.host app .txBody, body⟩] := named.sources
  refine keeps_put (by simp [carriage]) (by decide) (by rw [names]) ?_ ?_ ?_ ?_
  · rw [names]
    exact fair_cons (fun _ => by simp) (fair_singleton fun _ => by simp)
  · rw [names]
    intro pools backing
    rw [← Option.some.inj backing]
    exact ⟨_, List.mem_cons_self, List.mem_singleton_self _⟩
  · exact ⟨app, header, body, named, pair⟩
  · rw [if_pos rfl]
    exact keeps_done fun passed => by cases passed

theorem bears_handleHostTx (podId : Int) (carries : Carries service (.tx podId) desc content known) :
    Bears service float piped content (handleHostTx service podId desc)
      (names service (.tx podId) desc) known .carrying := by
  obtain ⟨app, header, body, sourced, pair⟩ := carries
  have named : names service (.tx podId) desc = _ := sourced.sources
  have present : 0 ≤ desc.headerBufSlot ∧ 0 < desc.headerLen := by
    rw [sourced.headerSlot]
    exact ⟨Int.natCast_nonneg _, pair.headerSome⟩
  unfold handleHostTx
  rw [if_pos present]
  apply bears_resolvePool sourced.headerPool
  dsimp only
  rw [sourced.srcHeaderSlot]
  refine keeps_copy trivial pair.headerInside (by rw [named]; exact List.mem_cons_self)
    pair.headerSome (fun _ => ?_) fun slot below fresh => ?_
  · rw [if_pos (by decide)]
    refine keeps_put (by simp [carriage]) (by decide) (List.Perm.refl _) ?_ ?_ ?_ ?_
    · rw [named]
      exact fair_cons (fun _ => by simp) (fair_singleton fun _ => by simp)
    · rw [named]
      intro pools backing
      rw [← Option.some.inj backing]
      exact ⟨_, List.mem_cons_self, List.mem_singleton_self _⟩
    · exact ⟨app, header, body, sourced, pair⟩
    · exact keeps_done fun passed => by cases passed
  · rw [named]
    have fair : (carriage service float piped).Fair
        [⟨.dpuTxHeader, slot⟩, ⟨.host app .txBody, body⟩] :=
      fair_cons (fun _ => by simp) (fair_singleton fun _ => by simp)
    refine ⟨fair_cons (fun _ => by simp) (fair_cons (fun _ => by simp)
      (fair_singleton fun _ => by simp)), fun data copied => ?_⟩
    rw [if_neg (by omega)]
    refine keeps_free pair.headerInside (List.Perm.swap _ _ _) fair ?_
    have bytes := copied pair.headerLen (by rw [pair.headerLen]; exact pair.headerFits)
    apply bears_forward sourced.bodyPool sourced.srcBodySlot
    refine pair.move rfl below pair.bodyInside ?_ (fun _ => ?_) rfl rfl rfl rfl
    · rw [Function.update_self, bytes]
    · exact Function.update_of_ne (by simp) _ _

/-- A bridge request goes on to the worker. -/
theorem bears_deliverCase2 {body : Nat}
    (single : Single ⟨.host (service desc.dstPodId) .rxBody, body⟩ (case2RxDesc desc body) content
      known) :
    Bears service float piped content (deliverCase2 service desc body)
      [⟨.host (service desc.dstPodId) .rxBody, body⟩] known .carrying := by
  have named : names service (.rx desc.dstPodId) (case2RxDesc desc body) =
      [⟨.host (service desc.dstPodId) .rxBody, body⟩] := by
    rw [names_case2RxDesc, cellOf_natCast]
    rfl
  refine keeps_put (by simp [carriage]) (by decide) (by rw [named]) ?_ ?_ ?_ ?_
  · rw [named]
    exact fair_singleton fun _ => by simp
  · rw [named]
    intro pools backing
    rw [← Option.some.inj backing]
    exact ⟨_, List.mem_cons_self, List.mem_singleton_self _⟩
  · exact .single body rfl rfl single
  · rw [if_pos rfl]
    exact keeps_done fun passed => by cases passed

theorem bears_dmaCase2 {body : Nat} (sourced : SourcedBody service desc ⟨.dpuRxBody, body⟩)
    (single : Single ⟨.dpuRxBody, body⟩ desc content known) :
    Bears service float piped content (dmaCase2 service desc) [⟨.dpuRxBody, body⟩] known
      .carrying := by
  have named : names service .sidecarRx desc = [⟨.dpuRxBody, body⟩] := sourced.sources
  have present : 0 ≤ desc.srcBodyBufSlot ∧ 0 < desc.bodyLen := by
    rw [sourced.srcBodySlot]
    exact ⟨Int.natCast_nonneg _, single.bodyLen_pos⟩
  unfold dmaCase2
  rw [if_pos present]
  apply bears_resolvePool sourced.bodyPool
  dsimp only
  rw [sourced.srcBodySlot]
  refine keeps_copy trivial single.bodyInside List.mem_cons_self single.bodyLen_pos (fun _ => ?_)
    fun slot below fresh => ?_
  · rw [if_pos (by decide)]
    refine keeps_put (by simp [carriage]) (by decide) (by rw [named]) ?_ ?_ ?_ ?_
    · rw [named]
      exact fair_singleton fun _ => by simp
    · rw [named]
      intro pools backing
      rw [← Option.some.inj backing]
      exact ⟨_, List.mem_cons_self, by simp⟩
    · exact Or.inr ⟨body, sourced, single⟩
    · exact keeps_done fun passed => by cases passed
  · refine ⟨fair_cons (fun _ => by simp) (fair_singleton fun _ => by simp), fun data copied => ?_⟩
    rw [if_neg (by omega)]
    refine keeps_free single.bodyInside (List.Perm.swap _ _ _) (fair_singleton fun _ => by simp) ?_
    have length : desc.bodyLen = (known ⟨.dpuRxBody, body⟩).length := by
      rw [single.bodyLen, single.bodyBytes]
    have bytes := copied length (by rw [single.bodyLen]; exact single.bodyFits)
    apply bears_deliverCase2
    exact {
      valid := rfl
      bodyInside := below
      headerless := single.headerless
      bodyLen := single.bodyLen
      bodySome := single.bodySome
      bodyFits := single.bodyFits
      bodyBytes := by rw [Function.update_self, bytes, single.bodyBytes]
      ingress := single.ingress
      isRequest := single.isRequest
      request := single.request }

/-- A worker's message goes on to the other worker. -/
theorem bears_deliverCase3 {header body : Nat} (isLocal : desc.caseFlag = caseLocal)
    (pair : Pair ⟨.host (service desc.dstPodId) .rxHeader, header⟩
      ⟨.host (service desc.dstPodId) .rxBody, body⟩ (case3RxDesc desc header body) content known) :
    Bears service float piped content (deliverCase3 service desc header body)
      [⟨.host (service desc.dstPodId) .rxHeader, header⟩,
        ⟨.host (service desc.dstPodId) .rxBody, body⟩] known .carrying := by
  have named : names service (.rx desc.dstPodId) (case3RxDesc desc header body) =
      [⟨.host (service desc.dstPodId) .rxHeader, header⟩,
        ⟨.host (service desc.dstPodId) .rxBody, body⟩] := by
    rw [names_case3RxDesc, cellOf_natCast, cellOf_natCast]
    rfl
  refine keeps_put (by simp [carriage]) (by decide) (by rw [named]) ?_ ?_ ?_ ?_
  · rw [named]
    exact fair_rx fair_nil
  · rw [named]
    intro pools backing
    rw [← Option.some.inj backing]
    exact ⟨_, List.mem_cons_of_mem _ List.mem_cons_self, List.mem_singleton_self _⟩
  · exact .pair header body rfl rfl isLocal pair
  · rw [if_pos rfl]
    exact keeps_done fun passed => by cases passed

/-- An RX header pool is not full for the party that has just taken a slot of
the RX body pool. -/
theorem bears_moveHeader {header body : Nat} (isLocal : desc.caseFlag = caseLocal)
    (slot : desc.srcHeaderBufSlot = header)
    (sourced : poolOf service desc.srcHeaderPoolType desc.srcHeaderPodId = some .dpuTxHeader)
    (pair : Pair ⟨.dpuTxHeader, header⟩ ⟨.host (service desc.dstPodId) .rxBody, body⟩ desc content
      known) :
    Bears service float piped content (moveHeader service desc body)
      [⟨.host (service desc.dstPodId) .rxBody, body⟩, ⟨.dpuTxHeader, header⟩] known .carrying := by
  have present : 0 ≤ desc.srcHeaderBufSlot ∧ 0 < desc.headerLen := by
    rw [slot]
    exact ⟨Int.natCast_nonneg _, pair.headerSome⟩
  unfold moveHeader
  apply bears_resolvePool sourced
  dsimp only
  rw [if_pos present, slot]
  refine keeps_copy trivial pair.headerInside (List.mem_cons_of_mem _ List.mem_cons_self)
    pair.headerSome (fun most => ?_) fun free below fresh => ?_
  · have few := most _ ⟨service desc.dstPodId, rfl, rfl⟩
    simp [countIn_cons] at few
  · have fair : (carriage service float piped).Fair
        [⟨.host (service desc.dstPodId) .rxHeader, free⟩,
          ⟨.host (service desc.dstPodId) .rxBody, body⟩, ⟨.dpuTxHeader, header⟩] :=
      fair_rx (fair_singleton fun _ => by simp)
    refine ⟨fair, fun data copied => ?_⟩
    rw [if_neg (by omega)]
    have last := List.perm_append_singleton (⟨.dpuTxHeader, header⟩ : Cell PoolName)
      [⟨.host (service desc.dstPodId) .rxHeader, free⟩,
        ⟨.host (service desc.dstPodId) .rxBody, body⟩]
    refine keeps_free pair.headerInside last (fair_rx fair_nil) ?_
    have bytes := copied pair.headerLen (by rw [pair.headerLen]; exact pair.headerFits)
    apply bears_deliverCase3 isLocal
    refine pair.move rfl below pair.bodyInside ?_ (fun _ => ?_) rfl rfl rfl rfl
    · rw [Function.update_self, bytes]
    · exact Function.update_of_ne (by simp) _ _

theorem bears_dmaCase3 {app : Bytes} {header body : Nat} (isLocal : desc.caseFlag = caseLocal)
    (sourced : Sourced service desc ⟨.dpuTxHeader, header⟩ ⟨.host app .txBody, body⟩)
    (pair : Pair ⟨.dpuTxHeader, header⟩ ⟨.host app .txBody, body⟩ desc content known) :
    Bears service float piped content (dmaCase3 service desc)
      [⟨.dpuTxHeader, header⟩, ⟨.host app .txBody, body⟩] known .carrying := by
  have named : names service .sidecarRx desc =
      [⟨.dpuTxHeader, header⟩, ⟨.host app .txBody, body⟩] := sourced.sources
  have present : 0 ≤ desc.srcBodyBufSlot ∧ 0 < desc.bodyLen := by
    rw [sourced.srcBodySlot]
    exact ⟨Int.natCast_nonneg _, pair.bodyLen_pos⟩
  unfold dmaCase3
  apply bears_resolvePool sourced.bodyPool
  dsimp only
  rw [if_pos present, sourced.srcBodySlot]
  refine keeps_copy trivial pair.bodyInside (List.mem_cons_of_mem _ List.mem_cons_self)
    pair.bodyLen_pos (fun _ => ?_) fun slot below fresh => ?_
  · rw [if_pos (by decide)]
    refine keeps_put (by simp [carriage]) (by decide) (by rw [named]) ?_ ?_ ?_ ?_
    · rw [named]
      exact fair_cons (fun _ => by simp) (fair_singleton fun _ => by simp)
    · rw [named]
      intro pools backing
      rw [← Option.some.inj backing]
      exact ⟨_, List.mem_cons_self, by simp⟩
    · exact Or.inl ⟨isLocal, app, header, body, sourced, pair⟩
    · exact keeps_done fun passed => by cases passed
  · have fair : (carriage service float piped).Fair
        [⟨.host (service desc.dstPodId) .rxBody, slot⟩, ⟨.dpuTxHeader, header⟩] :=
      fair_cons (fun _ => by simp) (fair_singleton fun _ => by simp)
    refine ⟨fair_cons (fun _ => by simp) (fair_cons (fun _ => by simp)
      (fair_singleton fun _ => by simp)), fun data copied => ?_⟩
    rw [if_neg (by omega)]
    have last := List.perm_append_singleton (⟨.host app .txBody, body⟩ : Cell PoolName)
      [⟨.host (service desc.dstPodId) .rxBody, slot⟩, ⟨.dpuTxHeader, header⟩]
    refine keeps_free pair.bodyInside last fair ?_
    apply bears_moveHeader isLocal sourced.srcHeaderSlot sourced.headerPool
    refine pair.move pair.valid pair.headerInside below ?_ (fun fits => ?_) rfl rfl rfl rfl
    · exact Function.update_of_ne (by simp) _ _
    · have length : desc.bodyLen = (known ⟨.host app .txBody, body⟩).length := by
        rw [pair.bodyLen, pair.bodyBytes fits]
      rw [Function.update_self, copied length (by rw [pair.bodyLen]; exact fits)]

theorem bears_handleSidecarRx (carries : Carries service .sidecarRx desc content known) :
    Bears service float piped content (handleSidecarRx service desc)
      (names service .sidecarRx desc) known .carrying := by
  refine ⟨trivial, fun answer _ => ?_⟩
  rcases carries with ⟨isLocal, app, header, body, sourced, pair⟩ | ⟨body, sourced, single⟩
  · have named : names service .sidecarRx desc = _ := sourced.sources
    have notIngress : desc.caseFlag ≠ caseIngress := by
      rw [isLocal]
      decide
    rw [named]
    cases answer with
    | none =>
        apply bears_cleanup sourced pair.headerInside pair.bodyInside fun _ => by simp
        exact keeps_done fun _ => .noPodResources
    | some _ =>
        dsimp only
        rw [if_neg notIngress, if_pos isLocal]
        exact bears_dmaCase3 isLocal sourced pair
  · have named : names service .sidecarRx desc = _ := sourced.sources
    rw [named]
    cases answer with
    | none =>
        apply bears_cleanup_single sourced single.bodyInside
        exact keeps_done fun _ => .noPodResources
    | some _ =>
        dsimp only
        rw [if_pos single.ingress]
        exact bears_dmaCase2 sourced single

/-! ### The router -/

/-- What the router asks of a message's header. -/
theorem informs_of_pair (float : PyStr → Numeral) {header body : Cell PoolName}
    (pair : Pair header body desc content known) :
    ∃ info, infoOf float (known header) = some info ∧ Informs float content info := by
  obtain ⟨rest, opens⟩ := pair.opens
  obtain ⟨info, found⟩ := infoOf_brace float rest
  rw [← opens] at found
  exact ⟨info, found, known header, pair.headerBytes, found⟩

/-- A message whose receiver is known goes on to the SIDECAR RX ring. -/
theorem bears_passOn {app : Bytes} {header body : Nat} {dstPodId : Int} {flags : UInt8}
    (sourced : Sourced service desc ⟨.dpuTxHeader, header⟩ ⟨.host app .txBody, body⟩)
    (pair : Pair ⟨.dpuTxHeader, header⟩ ⟨.host app .txBody, body⟩ desc content known)
    (isLocal : flags &&& 0x0F = caseLocal)
    (isResponse : (flags &&& 0xF0 == opResponse) = desc.isResponse) :
    Bears service float piped content
      (passOn service { desc with dstPodId := dstPodId, flags := flags, valid := 1 })
      [⟨.dpuTxHeader, header⟩, ⟨.host app .txBody, body⟩] known .carrying := by
  let desc' : SwDescriptor := { desc with dstPodId := dstPodId, flags := flags, valid := 1 }
  have sourced' : Sourced service desc' ⟨.dpuTxHeader, header⟩ ⟨.host app .txBody, body⟩ :=
    ⟨sourced.headerSlot, sourced.srcHeaderSlot, sourced.headerPool, sourced.srcBodySlot,
      sourced.bodyPool⟩
  have pair' : Pair ⟨.dpuTxHeader, header⟩ ⟨.host app .txBody, body⟩ desc' content known :=
    pair.move rfl pair.headerInside pair.bodyInside rfl (fun _ => rfl) rfl rfl isResponse rfl
  have named : names service .sidecarRx desc' =
      [⟨.dpuTxHeader, header⟩, ⟨.host app .txBody, body⟩] := sourced'.sources
  refine keeps_put (by simp [carriage]) (by decide) (by rw [named]) ?_ ?_ ?_ ?_
  · rw [named]
    exact fair_cons (fun _ => by simp) (fair_singleton fun _ => by simp)
  · rw [named]
    intro pools backing
    rw [← Option.some.inj backing]
    exact ⟨_, List.mem_cons_self, by simp⟩
  · exact Or.inl ⟨isLocal, app, header, body, sourced', pair'⟩
  · rw [if_pos rfl]
    exact keeps_done fun passed => by cases passed

section Routing

variable {app : Bytes} {header body : Nat} {info : List (PyStr × Value)}
  (sourced : Sourced service desc ⟨.dpuTxHeader, header⟩ ⟨.host app .txBody, body⟩)
  (pair : Pair ⟨.dpuTxHeader, header⟩ ⟨.host app .txBody, body⟩ desc content known)
  (informs : Informs float content info)

include sourced pair informs

theorem bears_routeRequest (isRequest : desc.isResponse = false) :
    Bears service float piped content (routeRequest service desc info)
      [⟨.dpuTxHeader, header⟩, ⟨.host app .txBody, body⟩] known .carrying := by
  have request : content.isResponse = false := by rw [← pair.isResponse, isRequest]
  refine ⟨⟨request, info, informs, rfl⟩, fun answer _ => ?_⟩
  cases answer with
  | none =>
      apply bears_cleanup sourced pair.headerInside pair.bodyInside fun _ => by simp
      exact keeps_done fun _ => .noWorker
  | some dstPodId =>
      refine bears_passOn sourced pair (by decide) ?_
      rw [isRequest]
      decide

/-- The slots of a response to the bridge are freed before its client is told. -/
theorem bears_deliverToBridge (isResponse : desc.isResponse = true)
    (bridge : (get info (lit "dest_worker") (.string [])).truthy = false) :
    Bears service float piped content (deliverToBridge service desc info)
      [⟨.dpuTxHeader, header⟩, ⟨.host app .txBody, body⟩] known .carrying := by
  have response : content.isResponse = true := by rw [← pair.isResponse, isResponse]
  have present : 0 ≤ desc.srcBodyBufSlot ∧ 0 < desc.bodyLen := by
    rw [sourced.srcBodySlot]
    exact ⟨Int.natCast_nonneg _, pair.bodyLen_pos⟩
  have told : ∀ data, (content.body.length ≤ slotSize → data = content.body) →
      Bears service float piped content
        (.ask (.waiting (get info (lit "req_id_str") (.string [])) data) toClient) []
        known .carrying := by
    intro data bytes
    refine ⟨⟨response, info, informs, bridge, rfl, bytes⟩, fun answer _ => ?_⟩
    cases answer with
    | none => exact keeps_done fun _ => .noClient
    | some _ => exact keeps_done fun _ => .toClient
  unfold deliverToBridge
  dsimp only
  rw [if_pos present]
  apply bears_resolvePool sourced.bodyPool
  dsimp only
  rw [sourced.srcBodySlot]
  apply keeps_bpRead
  intro data read
  refine keeps_free pair.bodyInside (List.Perm.swap _ _ _) (fair_singleton fun _ => by simp) ?_
  unfold cleanupHeader
  refine keeps_ite (fun _ => ?_) fun missing => ?_
  · apply bears_resolvePool sourced.headerPool
    dsimp only
    rw [sourced.srcHeaderSlot]
    refine keeps_free pair.headerInside (List.Perm.refl _) fair_nil (told data fun fits => ?_)
    have length : desc.bodyLen = (known ⟨.host app .txBody, body⟩).length := by
      rw [pair.bodyLen, pair.bodyBytes fits]
    rw [← pair.bodyBytes fits]
    exact read.whole pair.bodyInside trivial (List.mem_cons_of_mem _ List.mem_cons_self) length
      (by rw [pair.bodyLen]; exact fits)
  · rw [sourced.srcHeaderSlot] at missing
    exact absurd (Int.natCast_nonneg _) missing

theorem bears_routeResponse (isResponse : desc.isResponse = true) :
    Bears service float piped content (routeResponse service desc info)
      [⟨.dpuTxHeader, header⟩, ⟨.host app .txBody, body⟩] known .carrying := by
  have response : content.isResponse = true := by rw [← pair.isResponse, isResponse]
  unfold routeResponse
  refine keeps_ite (fun bridge => ?_) fun toWorker => ?_
  · exact bears_deliverToBridge sourced pair informs isResponse (by simpa using bridge)
  · refine ⟨⟨response, info, informs, rfl, by simpa using toWorker⟩, fun answer _ => ?_⟩
    dsimp only
    refine keeps_ite (fun _ => ?_) fun _ => ?_
    · apply bears_cleanup sourced pair.headerInside pair.bodyInside fun _ => by simp
      exact keeps_done fun _ => .unknownWorker
    · refine bears_passOn sourced pair (by decide) ?_
      rw [isResponse]
      decide

end Routing

theorem bears_routeDescriptor (carries : Carries service .sidecarTx desc content known) :
    Bears service float piped content (routeDescriptor service float desc)
      (names service .sidecarTx desc) known .carrying := by
  obtain ⟨app, header, body, sourced, pair⟩ := carries
  have named : names service .sidecarTx desc = _ := sourced.sources
  have present : 0 ≤ desc.headerBufSlot ∧ 0 < desc.headerLen := by
    rw [sourced.headerSlot]
    exact ⟨Int.natCast_nonneg _, pair.headerSome⟩
  rw [named]
  unfold routeDescriptor
  rw [if_pos present, sourced.headerSlot]
  apply keeps_bpRead
  intro data read
  have whole := read.whole pair.headerInside trivial List.mem_cons_self pair.headerLen
    (by rw [pair.headerLen]; exact pair.headerFits)
  obtain ⟨info, found, informs⟩ := informs_of_pair float pair
  rw [whole, found]
  unfold route
  refine keeps_ite (fun isResponse => ?_) fun isRequest => ?_
  · exact bears_routeResponse sourced pair informs isResponse
  · exact bears_routeRequest sourced pair informs (by simpa using isRequest)

/-! ### A worker -/

section Arrivals

variable {podId : Int}

theorem Received.valid (received : Received service podId desc content known) : desc.valid = 1 := by
  cases received with
  | pair header body headerSlot bodySlot isLocal pair => exact pair.valid
  | single body headerSlot bodySlot single => exact single.valid

theorem Received.isResponse (received : Received service podId desc content known) :
    desc.isResponse = content.isResponse := by
  cases received with
  | pair header body headerSlot bodySlot isLocal pair => exact pair.isResponse
  | single body headerSlot bodySlot single => rw [single.isRequest, single.request]

theorem names_rx_pair {header body : Nat} (headerSlot : desc.headerBufSlot = header)
    (bodySlot : desc.bodyBufSlot = body) :
    names service (.rx podId) desc =
      [⟨.host (service podId) .rxHeader, header⟩, ⟨.host (service podId) .rxBody, body⟩] := by
  show (cellOf _ desc.headerBufSlot).toList ++ (cellOf _ desc.bodyBufSlot).toList = _
  rw [headerSlot, bodySlot, cellOf_natCast, cellOf_natCast]
  rfl

theorem names_rx_single {body : Nat} (headerSlot : desc.headerBufSlot = -1)
    (bodySlot : desc.bodyBufSlot = body) :
    names service (.rx podId) desc = [⟨.host (service podId) .rxBody, body⟩] := by
  show (cellOf _ desc.headerBufSlot).toList ++ (cellOf _ desc.bodyBufSlot).toList = _
  rw [headerSlot, bodySlot, cellOf_neg_one, cellOf_natCast]
  rfl

theorem Received.fair (received : Received service podId desc content known) :
    (carriage service float piped).Fair (names service (.rx podId) desc) := by
  cases received with
  | pair header body headerSlot bodySlot isLocal pair =>
      rw [names_rx_pair headerSlot bodySlot]
      exact fair_rx fair_nil
  | single body headerSlot bodySlot single =>
      rw [names_rx_single headerSlot bodySlot]
      exact fair_singleton fun _ => by simp

theorem Received.body_mem (received : Received service podId desc content known) :
    ∃ cell ∈ names service (.rx podId) desc, cell.pool = .host (service podId) .rxBody := by
  cases received with
  | pair header body headerSlot bodySlot isLocal pair =>
      rw [names_rx_pair headerSlot bodySlot]
      exact ⟨_, List.mem_cons_of_mem _ List.mem_cons_self, rfl⟩
  | single body headerSlot bodySlot single =>
      rw [names_rx_single headerSlot bodySlot]
      exact ⟨_, List.mem_cons_self, rfl⟩

/-- A descriptor goes from the RX ring to one of the worker's pipes. -/
theorem bears_handOver {place : Place} (received : Received service podId desc content known)
    (same : names service place desc = names service (.rx podId) desc)
    (backing : (carriage service float piped).backing place = some [.host (service podId) .rxBody])
    (carries : Carries service place desc content known) :
    Bears service float piped content (.put place desc fun _ => .done .polled)
      (names service (.rx podId) desc) known .carrying := by
  refine keeps_put (by rw [backing]; simp) (by decide) (by rw [same]) ?_ ?_ carries ?_
  · rw [same]
    exact received.fair
  · rw [same]
    intro pools among
    rw [← Option.some.inj (backing.symm.trans among)]
    obtain ⟨cell, named, pool⟩ := received.body_mem
    exact ⟨cell, named, List.mem_singleton.mpr pool⟩
  · exact keeps_done fun passed => by cases passed

/-- Without a pipe, the slots of a response stay taken. -/
theorem bears_poll (carries : Carries service (.rx podId) desc content known) :
    Bears service float piped content (poll podId desc) (names service (.rx podId) desc) known
      .carrying := by
  have received : Received service podId desc content known := carries
  unfold poll
  rw [if_neg (not_not_intro received.valid)]
  refine keeps_ite (fun isResponse => ?_) fun isRequest => ?_
  · have response : content.isResponse = true := by rw [← received.isResponse, isResponse]
    have reqId : desc.reqId = content.reqId := by
      cases received with
      | pair header body headerSlot bodySlot isLocal pair => exact pair.reqId
      | single body headerSlot bodySlot single =>
          rw [single.request] at response
          cases response
    refine ⟨⟨response, by rw [reqId]⟩, fun answer possible => ?_⟩
    cases answer with
    | none => exact ⟨fun _ => .noPipe, fun _ _ => ⟨rfl, rfl, fun piped => possible piped rfl⟩⟩
    | some _ => exact bears_handOver received rfl rfl ⟨response, received⟩
  · have request : content.isResponse = false := by
      rw [← received.isResponse]
      simpa using isRequest
    exact bears_handOver received rfl rfl ⟨request, received⟩

theorem bears_readSlot {pool : PoolName} {index length limit : Nat} {next : Bytes → Program}
    (inside : index < numSlots) (held : (⟨pool, index⟩ : Cell PoolName) ∈ holds)
    (something : 0 < length) (limitSome : 0 < limit) (small : limit ≤ slotSize)
    (keeps : ∀ data, (length = (known ⟨pool, index⟩).length →
        data = (known ⟨pool, index⟩).take (limit - 1)) →
      Bears service float piped content (next data) holds known stage) :
    Bears service float piped content (readSlot pool index length limit next) holds known stage := by
  unfold readSlot
  rw [if_pos ⟨Int.natCast_nonneg _, something⟩]
  apply keeps_bpRead
  intro data read
  apply keeps
  intro same
  have bytes := read.bytes index rfl inside trivial held
  by_cases short : length < limit
  · rw [if_pos short, Nat.min_eq_left (by omega)] at bytes
    rw [bytes (Nat.le_of_eq same), List.take_of_length_le (Nat.le_of_eq same.symm),
      List.take_of_length_le (by omega)]
  · rw [if_neg short, Nat.min_eq_left (by omega)] at bytes
    exact bytes (by omega)

theorem headerBufSize_le : headerBufSize ≤ slotSize := by decide

/-- Both slots of a message are read. -/
theorem bears_readPair {header body : Nat}
    (pair : Pair ⟨.host (service podId) .rxHeader, header⟩ ⟨.host (service podId) .rxBody, body⟩
      desc content known) {next : Bytes → Bytes → Program}
    (keeps : ∀ first second, Given content first second →
      Bears service float piped content (next first second)
        [⟨.host (service podId) .rxHeader, header⟩, ⟨.host (service podId) .rxBody, body⟩] known
        stage) :
    Bears service float piped content
      (readSlot (.host (service podId) .rxHeader) header desc.headerLen headerBufSize fun first =>
        readSlot (.host (service podId) .rxBody) body desc.bodyLen slotSize (next first))
      [⟨.host (service podId) .rxHeader, header⟩, ⟨.host (service podId) .rxBody, body⟩] known
      stage := by
  refine bears_readSlot pair.headerInside List.mem_cons_self pair.headerSome (by decide)
    headerBufSize_le fun first headerBytes => ?_
  refine bears_readSlot pair.bodyInside (List.mem_cons_of_mem _ List.mem_cons_self) pair.bodyLen_pos
    (by decide) (Nat.le_refl _) fun second bodyBytes => ?_
  apply keeps
  constructor
  · rw [pair.headerBytes, Option.getD_some]
    exact headerBytes pair.headerLen
  · intro fits
    have length : desc.bodyLen = (known ⟨.host (service podId) .rxBody, body⟩).length := by
      rw [pair.bodyLen, pair.bodyBytes fits]
    rw [← pair.bodyBytes fits]
    exact bodyBytes length

theorem bears_freeRx {next : Program} (received : Received service podId desc content known)
    (keeps : Bears service float piped content next [] known stage) :
    Bears service float piped content (freeRx service podId desc next)
      (names service (.rx podId) desc) known stage := by
  unfold freeRx
  dsimp only
  cases received with
  | pair header body headerSlot bodySlot isLocal pair =>
      rw [names_rx_pair headerSlot bodySlot, headerSlot, bodySlot, if_pos (Int.natCast_nonneg _),
        if_pos (Int.natCast_nonneg _)]
      refine keeps_free pair.headerInside (List.Perm.refl _) (fair_singleton fun _ => by simp) ?_
      exact keeps_free pair.bodyInside (List.Perm.refl _) fair_nil keeps
  | single body headerSlot bodySlot single =>
      rw [names_rx_single headerSlot bodySlot, headerSlot, bodySlot, if_neg (by decide),
        if_pos (Int.natCast_nonneg _)]
      exact keeps_free single.bodyInside (List.Perm.refl _) fair_nil keeps

theorem bears_dpumeshRead (carries : Carries service (.notify podId) desc content known) :
    Bears service float piped content (dpumeshRead service podId desc)
      (names service (.rx podId) desc) known .carrying := by
  obtain ⟨request, received⟩ := carries
  have called : ∀ first second, Given content first second →
      Bears service float piped content (.ask (.onRequest podId first second) fun _ =>
        freeRx service podId desc (.done .called)) (names service (.rx podId) desc) known
        .carrying := by
    intro first second given
    refine ⟨⟨request, given⟩, fun _ _ => bears_freeRx received (keeps_done fun _ => .called)⟩
  unfold dpumeshRead
  dsimp only
  rw [if_neg (not_not_intro received.valid)]
  cases received with
  | pair header body headerSlot bodySlot isLocal pair =>
      have notIngress : desc.caseFlag ≠ caseIngress := by
        rw [isLocal]
        decide
      rw [names_rx_pair headerSlot bodySlot] at called ⊢
      rw [if_neg notIngress, headerSlot, bodySlot]
      exact bears_readPair pair called
  | single body headerSlot bodySlot single =>
      rw [names_rx_single headerSlot bodySlot] at called ⊢
      rw [if_pos single.ingress, bodySlot]
      refine bears_readSlot single.bodyInside List.mem_cons_self single.bodyLen_pos (by decide)
        (Nat.le_refl _) fun second bytes => called [] second ⟨?_, fun _ => ?_⟩
      · rw [single.headerless, Option.getD_none, List.take_nil]
      · rw [← single.bodyBytes]
        exact bytes (by rw [single.bodyLen, single.bodyBytes])

theorem bears_dpumeshReadResponse (carries : Carries service (.response podId) desc content known) :
    Bears service float piped content (dpumeshReadResponse service podId desc)
      (names service (.rx podId) desc) known .carrying := by
  obtain ⟨response, received⟩ := carries
  have told : ∀ first second, Given content first second →
      Bears service float piped content (freeRx service podId desc
        (.ask (.onResponse podId first second) fun _ => .done .received))
        (names service (.rx podId) desc) known .carrying := by
    intro first second given
    exact bears_freeRx received ⟨⟨response, given⟩, fun _ _ => keeps_done fun _ => .received⟩
  unfold dpumeshReadResponse
  cases received with
  | pair header body headerSlot bodySlot isLocal pair =>
      rw [names_rx_pair headerSlot bodySlot] at told ⊢
      rw [headerSlot, bodySlot]
      exact bears_readPair pair told
  | single body headerSlot bodySlot single =>
      rw [single.request] at response
      cases response

end Arrivals

/-! ### What is written -/

theorem length_cut (header : Bytes) (stack : Nat → UInt8) {size : Nat} (some : 0 < size)
    (long : ¬ header.length < size) :
    (snprintf size header ++ 0 :: (List.range (header.length - size)).map stack).length =
      header.length := by
  unfold snprintf
  simp only [List.length_append, List.length_take, List.length_cons, List.length_map,
    List.length_range]
  omega

theorem length_headerData (header : Bytes) (stack : Nat → UInt8) :
    (headerData header stack).length = header.length := by
  unfold headerData
  by_cases short : header.length < headerBufSize
  · rw [if_pos short]
  · rw [if_neg short]
    exact length_cut header stack (by decide) short

/-- A header keeps its first byte, whatever of it is cut off. -/
theorem headerData_opens {header : Bytes} (stack : Nat → UInt8)
    (opens : ∃ rest, header = 123 :: rest) : ∃ rest, headerData header stack = 123 :: rest := by
  obtain ⟨rest, rfl⟩ := opens
  unfold headerData
  split
  · exact ⟨rest, rfl⟩
  · exact ⟨_, rfl⟩

theorem bodyData_pos (body : Option Bytes) : 0 < (bodyData body).length := by
  cases body with
  | none => exact Nat.one_pos
  | some bytes =>
      cases bytes with
      | nil => exact Nat.one_pos
      | cons byte rest => exact Nat.succ_pos _

theorem intOfSize_of_small {length : Nat} (small : length < 2 ^ 31) :
    BufferPool.intOfSize length = length := by
  have low : BufferPool.lowBits length = length := Nat.mod_eq_of_lt (by omega)
  rw [BufferPool.intOfSize_of_low (by omega), low]

theorem headerText_opens (method url path queryString : Bytes) (statusCode : Int)
    (reqIdStr sourceWorker destWorker : Bytes) :
    ∃ rest, headerText method url path queryString statusCode reqIdStr sourceWorker destWorker =
      123 :: rest := by
  have front : ascii "\x7b\"method\": \"" = 123 :: ascii "\"method\": \"" := by decide
  unfold headerText
  simp only [front, List.cons_append]
  exact ⟨_, rfl⟩

theorem dumps_object_pos (members : List (PyStr × Value)) :
    0 < (dumps (.object members)).length := by
  have brace : ascii "\x7b" = [123] := by decide
  cases members with
  | nil => exact (by decide : 0 < (ascii "\x7b\x7d").length)
  | cons member rest =>
      obtain ⟨key, value⟩ := member
      unfold dumps
      rw [brace]
      simp only [List.length_append, List.length_cons, List.length_nil]
      omega

/-- A worker writes its message into two slots that nobody else has. -/
theorem bears_writeCommon {podId : Int} {out : Outgoing} {stack : Nat → UInt8}
    {body : Option Bytes} {isResponse : Bool} (sendable : Sendable out body)
    (opens : ∃ rest, out.header = 123 :: rest)
    (flags : (out.flags &&& 0xF0 == opResponse) = isResponse) :
    Bears service float piped (writtenCommon out stack body isResponse)
      (writeCommon service podId out stack body) [] known .fresh := by
  have headerFits : (headerData out.header stack).length ≤ slotSize := by
    rw [length_headerData]
    exact sendable.1
  have small : slotSize < 2 ^ 31 := by decide
  have failed : ∀ known, Bears service float piped (writtenCommon out stack body isResponse)
      (.done (.returned (-1))) [] known .fresh := by
    intro known
    exact keeps_done fun carrying => by cases carrying
  unfold writeCommon
  apply keeps_bpAlloc
  · intro _
    rw [if_pos (by decide)]
    exact failed known
  intro headerSlot headerInside _
  refine ⟨fair_singleton fun _ => by simp, ?_⟩
  rw [if_neg (by omega)]
  apply keeps_bpWrite headerInside List.mem_cons_self
  · intro refused
    rw [intOfSize_of_small (by omega)] at refused
    omega
  intro _
  refine ⟨fun _ => headerFits, ?_⟩
  apply keeps_bpAlloc
  · intro _
    rw [if_pos (by decide)]
    exact keeps_free headerInside (List.Perm.refl _) fair_nil (failed _)
  intro bodySlot bodyInside _
  refine ⟨fair_cons (fun _ => by simp) (fair_singleton fun _ => by simp), ?_⟩
  rw [if_neg (by omega)]
  have named : names service (.tx podId) (outgoingDesc podId out body headerSlot bodySlot) = _ :=
    names_outgoingDesc podId out body headerSlot bodySlot
  -- A body that does not fit is not written, and then nothing is known of its slot.
  have sent : ∀ known, known ⟨.host (service podId) .txHeader, headerSlot⟩ =
        headerData out.header stack →
      ((bodyData body).length ≤ slotSize →
        known ⟨.host (service podId) .txBody, bodySlot⟩ = bodyData body) →
      Bears service float piped (writtenCommon out stack body isResponse)
        (.put (.tx podId) (outgoingDesc podId out body headerSlot bodySlot) fun accepted =>
          if accepted then .done (.returned 0)
          else
            bpFree (.host (service podId) .txHeader) headerSlot
              (bpFree (.host (service podId) .txBody) bodySlot (.done (.returned (-1)))))
        [⟨.host (service podId) .txBody, bodySlot⟩, ⟨.host (service podId) .txHeader, headerSlot⟩]
        known .fresh := by
    intro known header bytes
    refine keeps_put (by simp [carriage]) (by decide) (by rw [named]; exact List.Perm.swap _ _ _)
      ?_ ?_ ?_ ?_
    · rw [named]
      exact fair_cons (fun _ => by simp) (fair_singleton fun _ => by simp)
    · rw [named]
      intro pools backing
      rw [← Option.some.inj backing]
      exact ⟨_, List.mem_cons_self, List.mem_singleton_self _⟩
    · refine ⟨service podId, headerSlot, bodySlot, ⟨rfl, rfl, rfl, rfl, rfl⟩, ?_⟩
      exact {
        valid := rfl
        headerInside := headerInside
        bodyInside := bodyInside
        headerBytes := congrArg some header.symm
        headerLen := by rw [header, length_headerData]; rfl
        headerFits := by rw [header]; exact headerFits
        opens := by rw [header]; exact headerData_opens stack opens
        bodyLen := Nat.mod_eq_of_lt (Nat.lt_trans sendable.2 (by decide))
        bodySome := bodyData_pos body
        bodyBytes := bytes
        isResponse := flags
        reqId := rfl }
    · rw [if_pos rfl]
      exact keeps_done fun carrying => by cases carrying
  apply keeps_bpWrite bodyInside List.mem_cons_self
  · intro refused
    rw [intOfSize_of_small sendable.2] at refused
    apply sent
    · rw [Function.update_of_ne (by simp), Function.update_self]
    · intro fits
      omega
  · intro fits
    rw [intOfSize_of_small sendable.2] at fits
    refine ⟨fun _ => by omega, sent _ ?_ fun _ => Function.update_self _ _ _⟩
    rw [Function.update_of_ne (by simp), Function.update_of_ne (by simp), Function.update_self]

/-- The bridge writes its request into a slot that nobody else has. -/
theorem bears_handleBridgeClient (env : BridgeEnv) (client : List (PyStr × Value)) (uuid : Uuid) :
    Bears service float piped (written (.client env client uuid))
      (handleBridgeClient env client uuid) [] known .fresh := by
  have replied : ∀ outcome known, Bears service float piped (written (.client env client uuid))
      (.done outcome) [] known .fresh := by
    intro outcome known
    exact keeps_done fun carrying => by cases carrying
  unfold handleBridgeClient
  cases target : targetUrl env client with
  | none => exact replied _ known
  | some url =>
      dsimp only
      cases selected : env.select (getServiceName url) with
      | none => exact replied _ known
      | some found =>
          obtain ⟨worker, podId⟩ := found
          have body : (written (.client env client uuid)).body =
              combined env client url worker uuid := by
            unfold written
            simp only [target, selected]
          dsimp only
          refine keeps_ite (fun _ => replied _ known) fun _ => ?_
          apply keeps_bpAlloc
          · intro _
            rw [if_pos (by decide)]
            exact replied _ known
          intro slot inside _
          refine ⟨fair_singleton fun _ => by simp, ?_⟩
          rw [if_neg (by omega)]
          apply keeps_write inside List.mem_cons_self
          · intro _
            exact keeps_free inside (List.Perm.refl _) fair_nil (replied _ _)
          intro fits
          have named : names service .sidecarRx
              (bridgeDesc slot (combined env client url worker uuid).length podId) = _ :=
            names_bridgeDesc slot _ podId
          refine keeps_put (by simp [carriage]) (by decide) (by rw [named]) ?_ ?_ ?_ ?_
          · rw [named]
            exact fair_singleton fun _ => by simp
          · rw [named]
            intro pools backing
            rw [← Option.some.inj backing]
            exact ⟨_, List.mem_cons_self, by simp⟩
          · refine Or.inr ⟨slot, ⟨rfl, rfl, rfl⟩, ?_⟩
            exact {
              valid := rfl
              bodyInside := inside
              headerless := rfl
              bodyLen := by rw [body]; rfl
              bodySome := by rw [body]; exact dumps_object_pos _
              bodyFits := by rw [body]; exact fits
              bodyBytes := by rw [body]; exact Function.update_self _ _ _
              ingress := (by decide : (opRequest ||| caseIngress) &&& 0x0F = caseIngress)
              isRequest := (by decide : ((opRequest ||| caseIngress) &&& 0xF0 == opResponse) = false)
              request := rfl }
          · rw [if_pos rfl]
            exact keeps_done fun carrying => by cases carrying

/-! ### All of them -/

theorem sound_carriage (service : Int → Bytes) (float : PyStr → Numeral) (piped : Prop) :
    Library.Custody.Sound (system service float) (carriage service float piped) where
  start := by
    intro call ordinary known
    cases call with
    | init app => exact ordinary.elim
    | request worker method url stack body =>
        exact bears_writeCommon ordinary (headerText_opens _ _ _ _ _ _ _ _)
          (by decide : ((opRequest ||| caseLocal) &&& 0xF0 == opResponse) = false)
    | response worker descIndex statusCode stack body =>
        refine bears_writeCommon ordinary (headerText_opens _ _ _ _ _ _ _ _) ?_
        unfold writeResponse
        dsimp only
        split
        · decide
        · decide
    | client env client uuid => exact bears_handleBridgeClient env client uuid
  handle := by
    intro place desc content known carries
    cases place with
    | tx podId =>
        have valid : desc.valid = 1 := by
          obtain ⟨_, _, _, _, pair⟩ := carries
          exact pair.valid
        show Bears service float piped content (if desc.valid ≠ 1 then _ else _) _ known .carrying
        rw [if_neg (not_not_intro valid)]
        exact bears_handleHostTx podId carries
    | rx podId => exact bears_poll carries
    | sidecarTx =>
        have valid : desc.valid = 1 := by
          obtain ⟨_, _, _, _, pair⟩ := carries
          exact pair.valid
        show Bears service float piped content (if desc.valid ≠ 1 then _ else _) _ known .carrying
        rw [if_neg (not_not_intro valid)]
        exact bears_routeDescriptor carries
    | sidecarRx =>
        have valid : desc.valid = 1 := by
          rcases carries with ⟨_, _, _, _, _, pair⟩ | ⟨_, _, single⟩
          · exact pair.valid
          · exact single.valid
        show Bears service float piped content (if desc.valid ≠ 1 then _ else _) _ known .carrying
        rw [if_neg (not_not_intro valid)]
        exact bears_handleSidecarRx carries
    | notify podId => exact bears_dpumeshRead carries
    | response podId => exact bears_dpumeshReadResponse carries
  room := by
    intro place pools backing
    have few : pools.length ≤ 2 := by
      cases place <;> (rw [← Option.some.inj backing]; simp)
    have most : pools.length * numSlots ≤ 2 * numSlots := Nat.mul_le_mul_right _ few
    have rings : 2 * numSlots < maxDescriptors := by decide
    have pipes : 2 * numSlots < pipeCapacity := by decide
    cases place with
    | notify podId => exact Nat.lt_of_le_of_lt most pipes
    | response podId => exact Nat.lt_of_le_of_lt most pipes
    | _ => exact Nat.lt_of_le_of_lt most rings
  cleared := fun clears => clears.elim

end

end MiniMs.Daemon.Pipeline
