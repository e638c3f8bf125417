import MiniMs.Daemon.Pipeline
import MiniMs.Library.Custody

/-!
What the calls of a pool ask of a party of the pipeline.

Owns: one rule for each call of a pool, for `copy_buffer` and for `resolve_pool`,
under any rules of custody, and the names of slots that the rules are about.
-/

namespace MiniMs.Daemon.Pipeline

open MiniMs.Library.Text MiniMs.Library.Json MiniMs.Library.Number MiniMs.Library.Slots
open MiniMs.Library.Party MiniMs.Library.Custody MiniMs.Dpumesh

/-- The rules of custody for the pipeline. -/
abbrev PipelineRules := Rules PoolName Place SwDescriptor Question Answer Outcome Written Call

/-- A program of the pipeline keeps the rules. -/
abbrev Keeps (service : Int → Bytes) (float : PyStr → Numeral) (rules : PipelineRules)
    (content : Written) (program : Program) (holds : List (Cell PoolName))
    (known : Cell PoolName → Bytes) (stage : Stage) : Prop :=
  Safe (system service float) rules content program holds known stage

section

variable {service : Int → Bytes} {float : PyStr → Numeral} {rules : PipelineRules}
  {content : Written} {holds : List (Cell PoolName)} {known : Cell PoolName → Bytes}
  {stage : Stage} {pool : PoolName}

/-- Both branches keep the rules. -/
theorem keeps_ite {condition : Prop} [Decidable condition] {taken other : Program}
    (holding : condition → Keeps service float rules content taken holds known stage)
    (failing : ¬ condition → Keeps service float rules content other holds known stage) :
    Keeps service float rules content (if condition then taken else other) holds known stage := by
  by_cases true : condition
  · rw [if_pos true]
    exact holding true
  · rw [if_neg true]
    exact failing true

/-! ### Calls of a pool -/

theorem keeps_bpAlloc {next : Int → Program}
    (refused : (∀ greater, rules.under pool greater → countIn greater holds ≤ countIn pool holds) →
      Keeps service float rules content (next (-1)) holds known stage)
    (granted : ∀ index < numSlots, (⟨pool, index⟩ : Cell PoolName) ∉ holds →
      rules.Fair (⟨pool, index⟩ :: holds) ∧
        Keeps service float rules content (next index) (⟨pool, index⟩ :: holds)
          (Function.update known ⟨pool, index⟩ []) stage) :
    Keeps service float rules content (bpAlloc pool next) holds known stage :=
  ⟨refused, granted⟩

theorem keeps_bpFree {index : Nat} {next : Program} (inside : index < numSlots)
    (held : (⟨pool, index⟩ : Cell PoolName) ∈ holds)
    (fair : rules.Fair (holds.erase ⟨pool, index⟩))
    (keeps : Keeps service float rules content next (holds.erase ⟨pool, index⟩) known stage) :
    Keeps service float rules content (bpFree pool index next) holds known stage := by
  have range : ¬ ((index : Int) < 0 ∨ (numSlots : Int) ≤ index) := by omega
  unfold bpFree
  rw [if_neg range]
  exact ⟨held, fair, keeps⟩

theorem keeps_bpWrite {index : Nat} {data : Bytes} {next : Int → Program}
    (inside : index < numSlots) (held : (⟨pool, index⟩ : Cell PoolName) ∈ holds)
    (refused : (slotSize : Int) < BufferPool.intOfSize data.length →
      Keeps service float rules content (next (-1)) holds known stage)
    (copied : (BufferPool.intOfSize data.length ≤ slotSize) →
      (rules.contents → data.length ≤ slotSize) ∧
        Keeps service float rules content (next (BufferPool.intOfSize data.length)) holds
          (Function.update known ⟨pool, index⟩ data) stage) :
    Keeps service float rules content (bpWrite pool index data next) holds known stage := by
  have range : ¬ ((index : Int) < 0 ∨ (numSlots : Int) ≤ index) := by omega
  unfold bpWrite
  rw [if_neg range]
  generalize BufferPool.intOfSize data.length = size at refused copied ⊢
  refine keeps_ite refused fun short => ?_
  obtain ⟨fits, keeps⟩ := copied (Int.not_lt.mp short)
  exact ⟨held, fits, keeps⟩

/-- What a read of a slot gives. -/
structure ReadOf (rules : PipelineRules) (holds : List (Cell PoolName))
    (known : Cell PoolName → Bytes) (pool : PoolName) (slot : Int) (maxlen : Nat) (data : Bytes) :
    Prop where
  fits : data.length ≤ slotSize
  bytes : ∀ index : Nat, slot = index → index < numSlots → rules.contents →
    (⟨pool, index⟩ : Cell PoolName) ∈ holds →
      min maxlen slotSize ≤ (known ⟨pool, index⟩).length →
        data = (known ⟨pool, index⟩).take (min maxlen slotSize)

theorem keeps_bpRead {slot : Int} {maxlen : Nat} {next : Bytes → Program}
    (keeps : ∀ data, ReadOf rules holds known pool slot maxlen data →
      Keeps service float rules content (next data) holds known stage) :
    Keeps service float rules content (bpRead pool slot maxlen next) holds known stage := by
  unfold bpRead
  by_cases outside : slot < 0 ∨ (numSlots : Int) ≤ slot
  · rw [if_pos outside]
    apply keeps
    refine ⟨Nat.zero_le _, fun index same inside => ?_⟩
    omega
  · rw [if_neg outside]
    intro data length bytes
    apply keeps
    constructor
    · rw [length]
      exact Nat.min_le_right _ _
    · intro index same _ contents held enough
      have cell : slot.toNat = index := by omega
      rw [cell] at bytes
      exact bytes contents held enough

theorem keeps_write {index : Nat} {data : Bytes} {next : Option Nat → Program}
    (inside : index < numSlots) (held : (⟨pool, index⟩ : Cell PoolName) ∈ holds)
    (refused : slotSize < data.length →
      Keeps service float rules content (next none) holds known stage)
    (copied : data.length ≤ slotSize →
      Keeps service float rules content (next (some data.length)) holds
        (Function.update known ⟨pool, index⟩ data) stage) :
    Keeps service float rules content (write pool index data next) holds known stage := by
  have range : ¬ ((index : Int) < 0 ∨ (numSlots : Int) ≤ index) := by omega
  unfold write
  rw [if_neg range]
  by_cases long : slotSize < data.length
  · rw [if_pos long]
    exact refused long
  · rw [if_neg long]
    have short := Nat.le_of_not_lt long
    exact ⟨held, fun _ => short, copied short⟩

/-- A party that holds nothing is done. -/
theorem keeps_done {outcome : Outcome} (ends : stage = .carrying → rules.ends outcome) :
    Keeps service float rules content (.done outcome) [] known stage :=
  ⟨ends, fun _ something => absurd rfl something⟩

/-- One of the slots that are held is freed. -/
theorem keeps_free {index : Nat} {rest : List (Cell PoolName)} {next : Program}
    (inside : index < numSlots) (perm : holds.Perm (⟨pool, index⟩ :: rest)) (fair : rules.Fair rest)
    (keeps : Keeps service float rules content next rest known stage) :
    Keeps service float rules content (bpFree pool index next) holds known stage := by
  have keeps' : Keeps service float rules content (bpFree pool index next)
      (⟨pool, index⟩ :: rest) known stage := by
    apply keeps_bpFree inside List.mem_cons_self
    · rw [List.erase_cons_head]
      exact fair
    · rw [List.erase_cons_head]
      exact keeps
  exact Safe.perm keeps' perm.symm

/-- All that is held is passed on. -/
theorem keeps_put {place : Place} {desc : SwDescriptor} {next : Bool → Program}
    (unbacked : rules.backing place ≠ none) (notPassed : stage ≠ .passed)
    (perm : holds.Perm (names service place desc)) (fair : rules.Fair (names service place desc))
    (backed : rules.Backed place (names service place desc))
    (fit : rules.Fit place desc content known)
    (keeps : Keeps service float rules content (next true) [] known .passed) :
    Keeps service float rules content (.put place desc next) holds known stage := by
  have nothing : holds.diff (names service place desc) = [] := by
    rw [List.eq_nil_iff_forall_not_mem]
    intro cell member
    have counted := List.count_pos_iff.mpr member
    rw [List.count_diff, perm.count_eq] at counted
    omega
  refine ⟨fun missing => absurd missing unbacked, notPassed, perm.symm.subperm, fair, backed, ?_, fit,
    ?_⟩
  · show rules.Fair (holds.diff (names service place desc))
    rw [nothing]
    exact fun _ _ _ => Nat.le_refl 0
  · show Keeps service float rules content (next true) (holds.diff (names service place desc)) known
      .passed
    rw [nothing]
    exact keeps

/-- A copy takes a slot that nobody had, and fails where there is nothing to
copy or no slot. -/
theorem keeps_copyBuffer {source target : PoolName} {slot : Int} {length : Nat}
    {next : Int → Program}
    (nothing : slot < 0 ∨ length = 0 →
      Keeps service float rules content (next (-1)) holds known stage)
    (refused :
      (∀ greater, rules.under target greater → countIn greater holds ≤ countIn target holds) →
        Keeps service float rules content (next (-1)) holds known stage)
    (granted : 0 ≤ slot → 0 < length → ∀ index < numSlots,
      (⟨target, index⟩ : Cell PoolName) ∉ holds → rules.Fair (⟨target, index⟩ :: holds) ∧
        ∀ data, ReadOf rules (⟨target, index⟩ :: holds) (Function.update known ⟨target, index⟩ [])
            source slot length data →
          Keeps service float rules content (next index) (⟨target, index⟩ :: holds)
            (Function.update known ⟨target, index⟩ data) stage) :
    Keeps service float rules content (copyBuffer source slot length target next) holds known
      stage := by
  unfold copyBuffer
  by_cases empty : slot < 0 ∨ length = 0
  · rw [if_pos empty]
    exact nothing empty
  · rw [if_neg empty]
    apply keeps_bpAlloc
    · intro full
      exact refused full
    · intro index inside fresh
      obtain ⟨fair, keeps⟩ := granted (by omega) (by omega) index inside fresh
      have there : ¬ (index : Int) < 0 := by omega
      refine ⟨fair, ?_⟩
      rw [if_neg there]
      apply keeps_bpRead
      intro data read
      apply keeps_write inside List.mem_cons_self
      · intro long
        have fits := read.fits
        omega
      · intro _
        rw [Function.update_idem]
        exact keeps data read

/-- The bytes of a slot that holds no more than is read. -/
theorem ReadOf.whole {index maxlen : Nat} {data : Bytes}
    (read : ReadOf rules holds known pool index maxlen data) (inside : index < numSlots)
    (contents : rules.contents) (held : (⟨pool, index⟩ : Cell PoolName) ∈ holds)
    (length : maxlen = (known ⟨pool, index⟩).length) (fits : maxlen ≤ slotSize) :
    data = known ⟨pool, index⟩ := by
  have few : min maxlen slotSize = maxlen := Nat.min_eq_left fits
  have bytes := read.bytes index rfl inside contents held (by rw [few, length])
  rw [few, length, List.take_length] at bytes
  exact bytes

/-- A slot that is held is copied. -/
theorem keeps_copy {source target : PoolName} {index length : Nat} {next : Int → Program}
    (contents : rules.contents) (inside : index < numSlots)
    (held : (⟨source, index⟩ : Cell PoolName) ∈ holds) (some : 0 < length)
    (refused :
      (∀ greater, rules.under target greater → countIn greater holds ≤ countIn target holds) →
        Keeps service float rules content (next (-1)) holds known stage)
    (granted : ∀ slot < numSlots, (⟨target, slot⟩ : Cell PoolName) ∉ holds →
      rules.Fair (⟨target, slot⟩ :: holds) ∧
        ∀ data, (length = (known ⟨source, index⟩).length → length ≤ slotSize →
            data = known ⟨source, index⟩) →
          Keeps service float rules content (next slot) (⟨target, slot⟩ :: holds)
            (Function.update known ⟨target, slot⟩ data) stage) :
    Keeps service float rules content (copyBuffer source index length target next) holds known
      stage := by
  apply keeps_copyBuffer
  · intro nothing
    omega
  · exact refused
  · intro _ _ slot below fresh
    obtain ⟨fair, keeps⟩ := granted slot below fresh
    refine ⟨fair, fun data read => keeps data fun same fits => ?_⟩
    have other : (⟨source, index⟩ : Cell PoolName) ≠ ⟨target, slot⟩ := by
      intro equal
      exact fresh (equal ▸ held)
    have whole := read.whole inside contents (List.mem_cons_of_mem _ held)
    rw [Function.update_of_ne other] at whole
    exact whole same fits

/-! ### Names -/

theorem dpuPool_none : Shm.dpuPool PoolType.none.code = none := rfl

theorem hostPool_none : Shm.hostPool PoolType.none.code = none := rfl

/-- `resolve_pool` finds the pool that is meant, or none. -/
theorem keeps_resolvePool {poolType : Nat} {podId : Int} {next : Option PoolName → Program}
    (asked : rules.asks (.service podId) content)
    (missing : (poolOf service poolType podId ≠ none → rules.answers (.service podId) none) →
      Keeps service float rules content (next none) holds known stage)
    (found : ∀ pool, poolOf service poolType podId = some pool →
      Keeps service float rules content (next (some pool)) holds known stage) :
    Keeps service float rules content (resolvePool service poolType podId next) holds known
      stage := by
  unfold resolvePool
  by_cases noType : poolType = PoolType.none.code
  · rw [if_pos noType]
    apply missing
    intro some
    rw [noType] at some
    exact absurd rfl some
  · rw [if_neg noType]
    cases dpu : Shm.dpuPool poolType with
    | some pool =>
        apply found
        unfold poolOf
        rw [dpu]
    | none =>
        have same : poolOf service poolType podId =
            (Shm.hostPool poolType).map (.host (service podId)) := by
          unfold poolOf
          rw [dpu]
        refine ⟨asked, fun answer possible => ?_⟩
        dsimp only
        by_cases answered : answer.isSome = true
        · rw [if_pos answered, ← same]
          cases named : poolOf service poolType podId with
          | none => exact missing fun some => absurd named some
          | some pool => exact found pool named
        · rw [if_neg answered]
          have nothing : answer = none := by simpa using answered
          rw [nothing] at possible
          exact missing fun _ => possible

@[simp] theorem cellOf_natCast (pool : PoolName) (index : Nat) :
    cellOf pool index = some ⟨pool, index⟩ := by
  unfold cellOf
  rw [if_pos (Int.natCast_nonneg index), Int.toNat_natCast]

@[simp] theorem cellOf_neg_one (pool : PoolName) : cellOf pool (-1) = none := rfl

theorem cellOf_eq_some_iff {pool : PoolName} {slot : Int} {cell : Cell PoolName} :
    cellOf pool slot = some cell ↔ slot = cell.index ∧ cell.pool = pool := by
  unfold cellOf
  cases cell with
  | mk other index =>
      by_cases there : 0 ≤ slot
      · rw [if_pos there, Option.some.injEq, Cell.mk.injEq]
        constructor
        · rintro ⟨rfl, rfl⟩
          exact ⟨(Int.toNat_of_nonneg there).symm, rfl⟩
        · rintro ⟨rfl, rfl⟩
          exact ⟨rfl, Int.toNat_natCast index⟩
      · rw [if_neg there]
        constructor
        · intro none
          cases none
        · rintro ⟨same, _⟩
          omega

/-- The descriptor of an outgoing message names the two slots of the worker. -/
theorem names_outgoingDesc (podId : Int) (out : Outgoing) (body : Option Bytes)
    (headerSlot bodySlot : Nat) :
    names service (.tx podId) (outgoingDesc podId out body headerSlot bodySlot) =
      [⟨.host (service podId) .txHeader, headerSlot⟩, ⟨.host (service podId) .txBody, bodySlot⟩] := by
  show (cellOf (.host (service podId) .txHeader) headerSlot).toList ++
    (cellOf (.host (service podId) .txBody) bodySlot).toList = _
  rw [cellOf_natCast, cellOf_natCast]
  rfl

theorem names_sidecarDesc (desc : SwDescriptor) (slot : Int) :
    names service .sidecarTx (sidecarDesc desc slot) =
      (cellOf .dpuTxHeader slot).toList ++ (bodySource service desc).toList := rfl

theorem names_case2RxDesc (podId : Int) (desc : SwDescriptor) (slot : Int) :
    names service (.rx podId) (case2RxDesc desc slot) =
      (cellOf (.host (service podId) .rxBody) slot).toList := rfl

theorem names_case3RxDesc (podId : Int) (desc : SwDescriptor) (headerSlot bodySlot : Int) :
    names service (.rx podId) (case3RxDesc desc headerSlot bodySlot) =
      (cellOf (.host (service podId) .rxHeader) headerSlot).toList ++
        (cellOf (.host (service podId) .rxBody) bodySlot).toList := rfl

theorem names_bridgeDesc (slot length : Nat) (podId : Int) :
    names service .sidecarRx (bridgeDesc slot length podId) = [⟨.dpuRxBody, slot⟩] := by
  show [] ++ (cellOf .dpuRxBody slot).toList = _
  rw [cellOf_natCast]
  rfl

end

theorem not_marked_start (service : Int → Bytes) (float : PyStr → Numeral) (cell : Cell PoolName) :
    (system service float).memory.marked start.memory cell = false := by
  show (decide (cell.index < numSlots) && BufferPool.zeroed.taken cell.index) = false
  rw [Bool.and_eq_false_iff]
  exact Or.inr rfl

end MiniMs.Daemon.Pipeline
