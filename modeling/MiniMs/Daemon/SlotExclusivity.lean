import MiniMs.Daemon.PipelineCalls
import MiniMs.Library.CustodySteps

/-!
Slots with workers that join.

Owns: the rules of custody for parties of which nothing is asked but that they
free and pass on what they hold, that every program of the pipeline keeps them,
and that in every run whose `dpumesh_init` clears no mark of a slot in use, no
slot is given away twice.
-/

namespace MiniMs.Daemon.Pipeline

open MiniMs.Library.Text MiniMs.Library.Json MiniMs.Library.Number MiniMs.Library.Slots
open MiniMs.Library.Party MiniMs.Library.Custody MiniMs.Library.Run MiniMs.Dpumesh

/-- Any answer can come, any put and any allocation can fail, and marks are
cleared. -/
def owning : PipelineRules where
  calls := fun _ => True
  answers := fun _ _ => True
  asks := fun _ _ => True
  contents := False
  Fit := fun _ _ _ _ => True
  clears := True
  under := fun _ _ => False
  backing := fun _ => none
  ends := fun _ => True
  tidy := False
  leaves := fun _ => True

theorem owning_fair (cells : List (Cell PoolName)) : owning.Fair cells :=
  fun _ _ under => under.elim

/-- A program frees and passes on nothing but what it holds. -/
def Owns (service : Int → Bytes) (float : PyStr → Numeral) (program : Program)
    (holds : List (Cell PoolName)) (stage : Stage) : Prop :=
  ∀ content known, Keeps service float owning content program holds known stage

section

variable {service : Int → Bytes} {float : PyStr → Numeral} {holds kept : List (Cell PoolName)}
  {stage : Stage} {pool : PoolName}

/-- A program that holds more keeps to the rules, too. -/
theorem Keeps.mono {content : Written} {program : Program} {more : List (Cell PoolName)}
    {known known' : Cell PoolName → Bytes}
    (keeps : Keeps service float owning content program holds known stage)
    (within : holds.Subperm more) :
    Keeps service float owning content program more known' stage := by
  induction program generalizing holds more known known' stage with
  | done outcome => exact ⟨fun _ => trivial, fun tidy => tidy.elim⟩
  | alloc pool next inductionHypothesis =>
      obtain ⟨refused, granted⟩ := keeps
      constructor
      · intro _
        exact inductionHypothesis none (refused fun _ under => under.elim) within
      · intro index inside fresh
        obtain ⟨_, rest⟩ := granted index inside fun member => fresh (within.subset member)
        exact ⟨owning_fair _, inductionHypothesis (some index) rest
          ((List.subperm_cons _).mpr within)⟩
  | free cell next inductionHypothesis =>
      obtain ⟨held, _, rest⟩ := keeps
      exact ⟨within.subset held, owning_fair _, inductionHypothesis rest (within.erase cell)⟩
  | clear cell next inductionHypothesis =>
      obtain ⟨clears, inside, rest⟩ := keeps
      exact ⟨clears, inside, inductionHypothesis rest within⟩
  | copyIn cell data next inductionHypothesis =>
      obtain ⟨held, _, rest⟩ := keeps
      exact ⟨within.subset held, fun contents => contents.elim, inductionHypothesis rest within⟩
  | fetch cell count next inductionHypothesis =>
      intro data length _
      exact inductionHypothesis data (keeps data length fun contents => contents.elim) within
  | put place desc next inductionHypothesis =>
      obtain ⟨refused, notPassed, names, _, backed, _, _, rest⟩ := keeps
      refine ⟨fun unbacked => inductionHypothesis false (refused unbacked) within, notPassed,
        names.trans within, owning_fair _, backed, owning_fair _, trivial, ?_⟩
      exact inductionHypothesis true rest (within.diff_right _)
  | ask question next inductionHypothesis =>
      obtain ⟨_, keeps⟩ := keeps
      refine ⟨trivial, fun answer possible => ?_⟩
      exact inductionHypothesis answer (keeps answer possible) within

/-! ### Calls -/

theorem owns_done (outcome : Outcome) : Owns service float (.done outcome) holds stage :=
  fun _ _ => ⟨fun _ => trivial, fun tidy => tidy.elim⟩

theorem owns_ask {question : Question} {next : Answer → Program}
    (rest : ∀ answer, Owns service float (next answer) holds stage) :
    Owns service float (.ask question next) holds stage :=
  fun content known => ⟨trivial, fun answer _ => rest answer content known⟩

theorem owns_ite {condition : Prop} [Decidable condition] {taken other : Program}
    (holding : condition → Owns service float taken holds stage)
    (failing : ¬ condition → Owns service float other holds stage) :
    Owns service float (if condition then taken else other) holds stage :=
  fun content known => keeps_ite (fun true => holding true content known)
    fun false => failing false content known

theorem owns_bpAlloc {next : Int → Program} (refused : Owns service float (next (-1)) holds stage)
    (granted : ∀ index < numSlots, Owns service float (next (index : Nat)) (⟨pool, index⟩ :: holds) stage) :
    Owns service float (bpAlloc pool next) holds stage :=
  fun content known => keeps_bpAlloc (fun _ => refused content known)
    fun index inside _ => ⟨owning_fair _, granted index inside content _⟩

/-- A slot that the program holds is freed. -/
theorem owns_bpFree {slot : Int} {next : Program}
    (held : (⟨pool, slot.toNat⟩ :: kept).Subperm holds) (rest : Owns service float next kept stage) :
    Owns service float (bpFree pool slot next) holds stage := by
  intro content known
  have erased := held.erase ⟨pool, slot.toNat⟩
  rw [List.erase_cons_head] at erased
  unfold bpFree
  apply keeps_ite
  · intro _
    exact (rest content known).mono (erased.trans (List.erase_subperm _ _))
  · intro inside
    exact ⟨held.subset List.mem_cons_self, owning_fair _, (rest content known).mono erased⟩

theorem owns_bpWrite {index : Nat} {data : Bytes} {next : Int → Program} (inside : index < numSlots)
    (held : (⟨pool, index⟩ : Cell PoolName) ∈ holds)
    (rest : ∀ result, Owns service float (next result) holds stage) :
    Owns service float (bpWrite pool index data next) holds stage :=
  fun content known => keeps_bpWrite inside held (fun _ => rest _ content known)
    fun _ => ⟨fun contents => contents.elim, rest _ content _⟩

theorem owns_bpRead {slot : Int} {maxlen : Nat} {next : Bytes → Program}
    (rest : ∀ data, Owns service float (next data) holds stage) :
    Owns service float (bpRead pool slot maxlen next) holds stage :=
  fun content known => keeps_bpRead fun data _ => rest data content known

theorem owns_copyBuffer {target : PoolName} {slot : Int} {length : Nat} {next : Int → Program}
    (refused : Owns service float (next (-1)) holds stage)
    (granted : 0 ≤ slot → ∀ index : Nat,
      Owns service float (next index) (⟨target, index⟩ :: holds) stage) :
    Owns service float (copyBuffer pool slot length target next) holds stage :=
  fun content known => keeps_copyBuffer (fun _ => refused content known)
    (fun _ => refused content known)
    fun there _ index _ _ => ⟨owning_fair _, fun _ _ => granted there index content _⟩

theorem owns_resolvePool {poolType : Nat} {podId : Int} {next : Option PoolName → Program}
    (missing : Owns service float (next none) holds stage)
    (found : ∀ pool, poolOf service poolType podId = some pool →
      Owns service float (next (some pool)) holds stage) :
    Owns service float (resolvePool service poolType podId next) holds stage :=
  fun content known => keeps_resolvePool trivial (fun _ => missing content known)
    fun pool named => found pool named content known

theorem owns_write {index : Nat} {data : Bytes} {next : Option Nat → Program}
    (inside : index < numSlots) (held : (⟨pool, index⟩ : Cell PoolName) ∈ holds)
    (rest : ∀ result, Owns service float (next result) holds stage) :
    Owns service float (write pool index data next) holds stage :=
  fun content known => keeps_write inside held (fun _ => rest _ content known)
    fun _ => rest _ content _

theorem Owns.mono {program : Program} (owns : Owns service float program kept stage)
    (within : kept.Subperm holds) : Owns service float program holds stage :=
  fun content known => (owns content known).mono within

/-- What a descriptor refers to is passed on with it. -/
theorem owns_put {place : Place} {desc : SwDescriptor} {next : Bool → Program}
    (notPassed : stage ≠ .passed) (held : (names service place desc).Subperm holds)
    (refused : Owns service float (next false) holds stage)
    (rest : Owns service float (next true) [] .passed) :
    Owns service float (.put place desc next) holds stage := by
  intro content known
  refine ⟨fun _ => refused content known, notPassed, held, owning_fair _, ?_, owning_fair _, trivial,
    ?_⟩
  · intro pools unbacked
    cases unbacked
  · exact (rest content known).mono (List.nil_subperm)

/-- A slot is freed where there is one. -/
theorem owns_release {slot : Int} {next : Program}
    (held : ((cellOf pool slot).toList ++ kept).Subperm holds)
    (rest : Owns service float next kept stage) :
    Owns service float (release pool slot next) holds stage := by
  unfold release
  unfold cellOf at held
  apply owns_ite
  · intro there
    rw [if_pos there] at held
    exact owns_bpFree held rest
  · intro missing
    rw [if_neg missing] at held
    exact rest.mono held

theorem owns_readSlot {slot : Int} {length limit : Nat} {next : Bytes → Program}
    (rest : ∀ data, Owns service float (next data) holds stage) :
    Owns service float (readSlot pool slot length limit next) holds stage :=
  owns_ite (fun _ => owns_bpRead rest) fun _ => rest []

/-! ### Sources -/

theorem headerSource_eq {desc : SwDescriptor} {pool : PoolName}
    (named : poolOf service desc.srcHeaderPoolType desc.srcHeaderPodId = some pool)
    (there : 0 ≤ desc.srcHeaderBufSlot) :
    headerSource service desc = some ⟨pool, desc.srcHeaderBufSlot.toNat⟩ := by
  unfold headerSource
  rw [named]
  exact if_pos there

theorem bodySource_eq {desc : SwDescriptor} {pool : PoolName}
    (named : poolOf service desc.srcBodyPoolType desc.srcBodyPodId = some pool)
    (there : 0 ≤ desc.srcBodyBufSlot) :
    bodySource service desc = some ⟨pool, desc.srcBodyBufSlot.toNat⟩ := by
  unfold bodySource
  rw [named]
  exact if_pos there

theorem owns_cleanupBody {desc : SwDescriptor} {next : Program}
    (held : ((bodySource service desc).toList ++ kept).Subperm holds)
    (rest : Owns service float next kept stage) :
    Owns service float (cleanupBody service desc next) holds stage := by
  have kept' := rest.mono ((List.sublist_append_right _ kept).subperm.trans held)
  unfold cleanupBody
  refine owns_ite (fun there => ?_) fun _ => kept'
  refine owns_resolvePool kept' fun pool named => ?_
  rw [bodySource_eq named there] at held
  exact owns_bpFree held rest

theorem owns_cleanupHeader {desc : SwDescriptor} {next : Program}
    (held : ((headerSource service desc).toList ++ kept).Subperm holds)
    (rest : Owns service float next kept stage) :
    Owns service float (cleanupHeader service desc next) holds stage := by
  have kept' := rest.mono ((List.sublist_append_right _ kept).subperm.trans held)
  unfold cleanupHeader
  refine owns_ite (fun there => ?_) fun _ => kept'
  refine owns_resolvePool kept' fun pool named => ?_
  rw [headerSource_eq named there] at held
  exact owns_bpFree held rest

theorem owns_cleanup {desc : SwDescriptor} {outcome : Outcome}
    (held : ((headerSource service desc).toList ++ (bodySource service desc).toList).Subperm holds) :
    Owns service float (cleanup service desc (.done outcome)) holds stage := by
  apply owns_cleanupBody (List.perm_append_comm.subperm.trans held)
  apply owns_cleanupHeader
  · rw [List.append_nil]
  · exact owns_done outcome

/-! ### The DPA -/

variable {desc : SwDescriptor}

theorem owns_forward {slot : Int}
    (held : ((cellOf .dpuTxHeader slot).toList ++ (bodySource service desc).toList).Subperm holds) :
    Owns service float (forward desc slot) holds .carrying := by
  refine owns_put (by decide) held ?_ (owns_done _)
  exact owns_release held (owns_done _)

theorem owns_handleHostTx (podId : Int) :
    Owns service float (handleHostTx service podId desc) (names service (.tx podId) desc)
      .carrying := by
  have unmoved : Owns service float (forward desc (-1)) (names service (.tx podId) desc) .carrying :=
    owns_forward (List.sublist_append_right _ _).subperm
  unfold handleHostTx
  refine owns_ite (fun _ => ?_) fun _ => unmoved
  refine owns_resolvePool unmoved fun pool named => ?_
  apply owns_copyBuffer
  · exact owns_put (by decide) (List.Subperm.refl _) (owns_done _) (owns_done _)
  · intro there index
    refine owns_ite (fun negative => absurd negative (by omega)) fun _ => ?_
    have header := headerSource_eq named there
    have moved : Owns service float (forward desc index)
        (⟨.dpuTxHeader, index⟩ :: (bodySource service desc).toList) .carrying := by
      apply owns_forward
      rw [cellOf_natCast]
      exact List.Subperm.refl _
    refine owns_bpFree ?_ moved
    show List.Subperm _ (_ :: ((headerSource service desc).toList ++ (bodySource service desc).toList))
    rw [header]
    exact (List.Perm.swap _ _ _).subperm

theorem owns_deliverCase2 {slot : Int}
    (held : (cellOf (.host (service desc.dstPodId) .rxBody) slot).toList.Subperm holds) :
    Owns service float (deliverCase2 service desc slot) holds .carrying := by
  refine owns_put (by decide) held ?_ (owns_done _)
  refine owns_release ?_ (@owns_done _ _ [] _ _)
  rw [List.append_nil]
  exact held

theorem owns_dmaCase2 :
    Owns service float (dmaCase2 service desc) (names service .sidecarRx desc) .carrying := by
  have unmoved : Owns service float (deliverCase2 service desc (-1)) (names service .sidecarRx desc)
      .carrying := owns_deliverCase2 List.nil_subperm
  unfold dmaCase2
  refine owns_ite (fun _ => ?_) fun _ => unmoved
  refine owns_resolvePool unmoved fun pool named => ?_
  apply owns_copyBuffer
  · exact owns_put (by decide) (List.Subperm.refl _) (owns_done _) (owns_done _)
  · intro there index
    refine owns_ite (fun negative => absurd negative (by omega)) fun _ => ?_
    have body := bodySource_eq named there
    have moved : Owns service float (deliverCase2 service desc index)
        [⟨.host (service desc.dstPodId) .rxBody, index⟩] .carrying := by
      apply owns_deliverCase2
      rw [cellOf_natCast]
      exact List.Subperm.refl _
    refine owns_bpFree ?_ moved
    show List.Subperm _ (_ :: ((headerSource service desc).toList ++ (bodySource service desc).toList))
    rw [body]
    exact (List.Perm.swap _ _ _).subperm.trans
      ((List.subperm_cons _).mpr (List.sublist_append_right _ _).subperm)

theorem owns_deliverCase3 {headerSlot bodySlot : Int}
    (held : ((cellOf (.host (service desc.dstPodId) .rxHeader) headerSlot).toList ++
      (cellOf (.host (service desc.dstPodId) .rxBody) bodySlot).toList).Subperm holds) :
    Owns service float (deliverCase3 service desc headerSlot bodySlot) holds .carrying := by
  refine owns_put (by decide) held ?_ (owns_done _)
  apply owns_release (List.perm_append_comm.subperm.trans held)
  refine owns_release ?_ (@owns_done _ _ [] _ _)
  rw [List.append_nil]

theorem owns_moveHeader {bodySlot : Int}
    (held : ((headerSource service desc).toList ++
      (cellOf (.host (service desc.dstPodId) .rxBody) bodySlot).toList).Subperm holds) :
    Owns service float (moveHeader service desc bodySlot) holds .carrying := by
  have unmoved : Owns service float (deliverCase3 service desc (-1) bodySlot) holds .carrying :=
    owns_deliverCase3 ((List.sublist_append_right _ _).subperm.trans held)
  unfold moveHeader
  refine owns_resolvePool unmoved fun pool named => ?_
  refine owns_ite (fun _ => ?_) fun _ => unmoved
  apply owns_copyBuffer
  · refine owns_ite (fun _ => ?_) fun there => absurd (by decide) there
    exact owns_release (List.perm_append_comm.subperm.trans held) (owns_done _)
  · intro there index
    refine owns_ite (fun negative => absurd negative (by omega)) fun _ => ?_
    rw [headerSource_eq named there] at held
    have moved : Owns service float (deliverCase3 service desc index bodySlot)
        (⟨.host (service desc.dstPodId) .rxHeader, index⟩ ::
          (cellOf (.host (service desc.dstPodId) .rxBody) bodySlot).toList) .carrying := by
      apply owns_deliverCase3
      rw [cellOf_natCast]
      exact List.Subperm.refl _
    refine owns_bpFree ?_ moved
    exact (List.Perm.swap _ _ _).subperm.trans ((List.subperm_cons _).mpr held)

theorem owns_dmaCase3 :
    Owns service float (dmaCase3 service desc) (names service .sidecarRx desc) .carrying := by
  have unmoved : Owns service float (moveHeader service desc (-1)) (names service .sidecarRx desc)
      .carrying := owns_moveHeader (by
    rw [cellOf_neg_one, Option.toList_none, List.append_nil]
    exact (List.sublist_append_left _ _).subperm)
  unfold dmaCase3
  refine owns_resolvePool unmoved fun pool named => ?_
  refine owns_ite (fun _ => ?_) fun _ => unmoved
  apply owns_copyBuffer
  · exact owns_put (by decide) (List.Subperm.refl _) (owns_done _) (owns_done _)
  · intro there index
    refine owns_ite (fun negative => absurd negative (by omega)) fun _ => ?_
    have moved : Owns service float (moveHeader service desc index)
        ((headerSource service desc).toList ++ [⟨.host (service desc.dstPodId) .rxBody, index⟩])
        .carrying := by
      apply owns_moveHeader
      rw [cellOf_natCast]
      exact List.Subperm.refl _
    refine owns_bpFree ?_ moved
    show List.Subperm _ (_ :: ((headerSource service desc).toList ++ (bodySource service desc).toList))
    rw [bodySource_eq named there]
    refine (List.perm_iff_count.mpr fun cell => ?_).subperm
    simp only [List.count_cons, List.count_append, Option.toList_some, List.count_nil]
    omega

theorem owns_handleSidecarRx :
    Owns service float (handleSidecarRx service desc) (names service .sidecarRx desc) .carrying := by
  refine owns_ask fun answer => ?_
  cases answer with
  | none => exact owns_cleanup (List.Subperm.refl _)
  | some found =>
      refine owns_ite (fun _ => owns_dmaCase2) fun _ => ?_
      exact owns_ite (fun _ => owns_dmaCase3) fun _ => owns_dmaCase2

/-! ### The router -/

theorem owns_passOn (held : (names service .sidecarRx desc).Subperm holds) :
    Owns service float (passOn service desc) holds .carrying := by
  refine owns_put (by decide) held ?_ (owns_done _)
  exact owns_cleanup held

theorem owns_routeRequest (info : List (PyStr × Value)) :
    Owns service float (routeRequest service desc info) (names service .sidecarTx desc)
      .carrying := by
  refine owns_ask fun answer => ?_
  cases answer with
  | none => exact owns_cleanup (List.Subperm.refl _)
  | some dstPodId => exact owns_passOn (List.Subperm.refl _)

theorem owns_deliverToBridge (info : List (PyStr × Value)) :
    Owns service float (deliverToBridge service desc info) (names service .sidecarTx desc)
      .carrying := by
  have told : ∀ body, Owns service float
      (.ask (.waiting (get info (lit "req_id_str") (.string [])) body) toClient) []
      .carrying := by
    intro body
    refine owns_ask fun answer => ?_
    cases answer with
    | none => exact owns_done _
    | some _ => exact owns_done _
  have header := fun body =>
    @owns_cleanupHeader service float (headerSource service desc).toList [] .carrying desc _ (by
      rw [List.append_nil]) (told body)
  have unread := (header []).mono
    (List.sublist_append_left _ (bodySource service desc).toList).subperm
  unfold deliverToBridge
  refine owns_ite (fun there => ?_) fun _ => unread
  refine owns_resolvePool unread fun pool named => ?_
  refine owns_bpRead fun body => owns_bpFree ?_ (header body)
  show List.Subperm _ ((headerSource service desc).toList ++ (bodySource service desc).toList)
  rw [bodySource_eq named there.1]
  exact (List.perm_append_singleton _ _).symm.subperm

theorem owns_routeResponse (info : List (PyStr × Value)) :
    Owns service float (routeResponse service desc info) (names service .sidecarTx desc)
      .carrying := by
  unfold routeResponse
  refine owns_ite (fun _ => owns_deliverToBridge info) fun _ => ?_
  refine owns_ask fun answer => ?_
  refine owns_ite (fun _ => owns_cleanup (List.Subperm.refl _)) fun _ => ?_
  exact owns_passOn (List.Subperm.refl _)

theorem owns_routeDescriptor :
    Owns service float (routeDescriptor service float desc) (names service .sidecarTx desc)
      .carrying := by
  have routed : ∀ info, Owns service float (route service desc info)
      (names service .sidecarTx desc) .carrying := by
    intro info
    cases info with
    | none => exact owns_done _
    | some info =>
        exact owns_ite (fun _ => owns_routeResponse info) fun _ => owns_routeRequest info
  unfold routeDescriptor
  exact owns_ite (fun _ => owns_bpRead fun _ => routed _) fun _ => routed _

/-! ### A worker -/

theorem owns_poll (podId : Int) :
    Owns service float (poll podId desc) (names service (.rx podId) desc) .carrying := by
  unfold poll
  refine owns_ite (fun _ => owns_done _) fun _ => ?_
  refine owns_ite (fun _ => ?_) fun _ => ?_
  · refine owns_ask fun answer => ?_
    cases answer with
    | none => exact owns_done _
    | some _ => exact owns_put (by decide) (List.Subperm.refl _) (owns_done _) (owns_done _)
  · exact owns_put (by decide) (List.Subperm.refl _) (owns_done _) (owns_done _)

theorem owns_freeRx (podId : Int) {next : Program} (rest : Owns service float next [] stage) :
    Owns service float (freeRx service podId desc next) (names service (.rx podId) desc) stage := by
  have body : Owns service float (if 0 ≤ desc.bodyBufSlot then
      bpFree (.host (service podId) .rxBody) desc.bodyBufSlot next else next)
      (cellOf (.host (service podId) .rxBody) desc.bodyBufSlot).toList stage := by
    refine owns_release ?_ rest
    rw [List.append_nil]
  exact owns_release (List.Subperm.refl _) body

theorem owns_dpumeshRead (podId : Int) :
    Owns service float (dpumeshRead service podId desc) (names service (.notify podId) desc)
      .carrying := by
  unfold dpumeshRead
  refine owns_ite (fun _ => owns_done _) fun _ => ?_
  refine owns_ite (fun _ => ?_) fun _ => ?_
  · exact owns_readSlot fun _ => owns_ask fun _ => owns_freeRx podId (owns_done _)
  · exact owns_readSlot fun _ => owns_readSlot fun _ => owns_ask fun _ =>
      owns_freeRx podId (owns_done _)

theorem owns_dpumeshReadResponse (podId : Int) :
    Owns service float (dpumeshReadResponse service podId desc)
      (names service (.response podId) desc) .carrying :=
  owns_readSlot fun _ => owns_readSlot fun _ => owns_freeRx podId (owns_ask fun _ => owns_done _)

theorem owns_writeCommon (podId : Int) (out : Outgoing) (stack : Nat → UInt8)
    (body : Option Bytes) :
    Owns service float (writeCommon service podId out stack body) [] .fresh := by
  unfold writeCommon
  apply owns_bpAlloc
  · exact owns_ite (fun _ => owns_done _) fun there => absurd (by decide) there
  intro headerSlot headerInside
  refine owns_ite (fun _ => owns_done _) fun _ => ?_
  refine owns_bpWrite headerInside List.mem_cons_self fun _ => ?_
  refine owns_bpAlloc ?_ fun bodySlot bodyInside => ?_
  · refine owns_ite (fun _ => ?_) fun there => absurd (by decide) there
    exact owns_bpFree (List.Subperm.refl _) (owns_done _)
  · refine owns_ite (fun negative => absurd negative (by omega)) fun _ => ?_
    refine owns_bpWrite bodyInside List.mem_cons_self fun _ => ?_
    have named : (names service (.tx podId) (outgoingDesc podId out body headerSlot bodySlot)).Subperm
        [⟨.host (service podId) .txBody, bodySlot⟩, ⟨.host (service podId) .txHeader, headerSlot⟩] := by
      rw [names_outgoingDesc]
      exact (List.Perm.swap _ _ _).subperm
    refine owns_put (by decide) named ?_ (owns_done _)
    rw [names_outgoingDesc] at named
    exact owns_bpFree named (owns_bpFree (List.Subperm.refl _) (owns_done _))

theorem owns_bpInit {pool : PoolName} {next : Program} (rest : Owns service float next holds stage) :
    Owns service float (bpInit pool next) holds stage := by
  have each : ∀ slots : List Nat, (∀ slot ∈ slots, slot < numSlots) →
      Owns service float (clearSlots pool slots next) holds stage := by
    intro slots inside
    induction slots with
    | nil => exact rest
    | cons slot slots inductionHypothesis =>
        have below := inside slot List.mem_cons_self
        have later := inductionHypothesis fun other member => inside other (List.mem_cons_of_mem _ member)
        exact fun content known => ⟨trivial, below, later content known⟩
  exact each _ fun slot member => List.mem_range.mp member

theorem owns_dpumeshInit (app : Bytes) :
    Owns service float (dpumeshInit app) holds stage :=
  owns_bpInit (owns_bpInit (owns_bpInit (owns_bpInit (owns_done _))))

/-! ### The bridge -/

theorem owns_handleBridgeClient (env : BridgeEnv) (client : List (PyStr × Value)) (uuid : Uuid) :
    Owns service float (handleBridgeClient env client uuid) [] .fresh := by
  unfold handleBridgeClient
  split
  · exact owns_done _
  · split
    · exact owns_done _
    · rename_i podId _
      refine owns_ite (fun _ => owns_done _) fun _ => ?_
      apply owns_bpAlloc
      · exact owns_ite (fun _ => owns_done _) fun there => absurd (by decide) there
      intro slot inside
      refine owns_ite (fun _ => owns_done _) fun _ => ?_
      refine owns_write inside List.mem_cons_self fun written => ?_
      cases written with
      | none => exact owns_bpFree (List.Subperm.refl _) (owns_done _)
      | some length =>
          have named : (names service .sidecarRx (bridgeDesc slot length podId)).Subperm
              [⟨.dpuRxBody, slot⟩] := by
            rw [names_bridgeDesc]
          refine owns_put (by decide) named ?_ (owns_done _)
          exact owns_bpFree (List.Subperm.refl _) (owns_done _)

/-! ### Runs -/

theorem sound_owning (service : Int → Bytes) (float : PyStr → Numeral) :
    Library.Custody.Sound (system service float) owning where
  start := by
    intro call _ known
    cases call with
    | init app => exact owns_dpumeshInit app _ known
    | request worker method url stack body => exact owns_writeCommon _ _ _ _ _ known
    | response worker descIndex statusCode stack body => exact owns_writeCommon _ _ _ _ _ known
    | client env client uuid => exact owns_handleBridgeClient env client uuid _ known
  handle := by
    intro place desc content known _
    cases place with
    | tx podId =>
        exact owns_ite (fun _ => owns_done _) (fun _ => owns_handleHostTx podId) content known
    | rx podId => exact owns_poll podId content known
    | sidecarTx =>
        exact owns_ite (fun _ => owns_done _) (fun _ => owns_routeDescriptor) content known
    | sidecarRx =>
        exact owns_ite (fun _ => owns_done _) (fun _ => owns_handleSidecarRx) content known
    | notify podId => exact owns_dpumeshRead podId content known
    | response podId => exact owns_dpumeshReadResponse podId content known
  room := fun _ _ backing => by cases backing
  cleared := fun _ _ _ => id

end

/-- Where the step clears a mark, nobody refers to its slot or holds it. -/
def ClearsUnheld (service : Int → Bytes) (float : PyStr → Numeral)
    (state : State (PoolName → BufferPool) PoolName Place SwDescriptor Question Answer Outcome
      Written) :
    Event Call Answer → Prop
  | .advance position _ =>
      ∀ task, state.tasks[position]? = some task →
        ∀ cell next, task.program = .clear cell next → state.Unheld (system service float) cell
  | _ => True

theorem allowed_of_clearsUnheld {service : Int → Bytes} {float : PyStr → Numeral}
    {state : State (PoolName → BufferPool) PoolName Place SwDescriptor Question Answer Outcome
      Written} {event : Event Call Answer} (unheld : ClearsUnheld service float state event) :
    Allowed (system service float) owning state event := by
  cases event with
  | start call => trivial
  | take position => trivial
  | advance position answer =>
      intro task found
      cases program : task.program with
      | clear cell next => exact unheld task found cell next program
      | ask question next => trivial
      | _ => trivial

end MiniMs.Daemon.Pipeline
