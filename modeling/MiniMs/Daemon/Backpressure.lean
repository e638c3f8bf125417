import MiniMs.Daemon.Delivery
import MiniMs.Library.Draining

/-!
Back-pressure comes to an end.

Owns: how far a place is from the end of the pipeline, that each handler passes
its descriptor on towards the end once the pool that it copies to has a free
slot, that the pools of the receivers have one when nothing waits nearer to the
end, and that from every state of every run in which the responses find their
pipes, all messages can be brought to an end and all slots freed.
-/

namespace MiniMs.Daemon.Pipeline

open MiniMs.Library.Text MiniMs.Library.Json MiniMs.Library.Number MiniMs.Library.Slots
open MiniMs.Library.Party MiniMs.Library.Custody MiniMs.Library.Run MiniMs.Library.Draining
open MiniMs.Dpumesh

/-- How far a place is from the end of the pipeline. -/
def distance : Place → Nat
  | .tx _ => 5
  | .sidecarTx => 4
  | .sidecarRx => 3
  | .rx _ => 2
  | .notify _ => 1
  | .response _ => 1

/-- The program passes its descriptor on towards the end, where everything that
is asked for is found. -/
abbrev Falls (roomy : PoolName → Prop) (bound : Nat) (program : Program) : Prop :=
  Downhill distance numSlots (some 0 : Answer) roomy bound program

section

variable {service : Int → Bytes} {float : PyStr → Numeral} {roomy : PoolName → Prop} {bound : Nat}
  {desc : SwDescriptor} {pool target : PoolName}

/-! ### Calls -/

theorem falls_ite {condition : Prop} [Decidable condition] {taken other : Program}
    (holding : condition → Falls roomy bound taken) (failing : ¬ condition → Falls roomy bound other) :
    Falls roomy bound (if condition then taken else other) := by
  by_cases true : condition
  · rw [if_pos true]
    exact holding true
  · rw [if_neg true]
    exact failing true

theorem falls_bpFree {slot : Int} {next : Program} (rest : Falls roomy bound next) :
    Falls roomy bound (bpFree pool slot next) :=
  falls_ite (fun _ => rest) fun _ => rest

theorem falls_bpRead {slot : Int} {maxlen : Nat} {next : Bytes → Program}
    (rest : ∀ data : Bytes, data.length ≤ slotSize → Falls roomy bound (next data)) :
    Falls roomy bound (bpRead pool slot maxlen next) := by
  refine falls_ite (fun _ => rest [] (Nat.zero_le _)) fun _ data length => rest data ?_
  rw [length]
  exact Nat.min_le_right _ _

/-- A copy of a slot goes on with a slot where the target has room. -/
theorem falls_copyBuffer {slot : Int} {length : Nat} {next : Int → Program} (there : 0 ≤ slot)
    (something : 0 < length) (refused : ¬ roomy target → Falls roomy bound (next (-1)))
    (granted : ∀ index : Nat, Falls (fun _ => False) bound (next index)) :
    Falls roomy bound (copyBuffer pool slot length target next) := by
  unfold copyBuffer
  rw [if_neg (by omega)]
  refine ⟨fun full => refused full, fun index inside => ?_⟩
  show Falls _ bound (if (index : Int) < 0 then _ else _)
  rw [if_neg (by omega)]
  apply falls_bpRead
  intro data fits
  unfold write
  rw [if_neg (by omega), if_neg (Nat.not_lt.mpr fits)]
  exact granted index

theorem falls_resolvePool {poolType : Nat} {podId : Int} {next : Option PoolName → Program}
    (rest : ∀ found, Falls roomy bound (next found)) :
    Falls roomy bound (resolvePool service poolType podId next) := by
  unfold resolvePool
  refine falls_ite (fun _ => rest none) fun _ => ?_
  cases Shm.dpuPool poolType with
  | some pool => exact rest (some pool)
  | none => exact rest _

theorem falls_readSlot {slot : Int} {length limit : Nat} {next : Bytes → Program}
    (rest : ∀ data, Falls roomy bound (next data)) :
    Falls roomy bound (readSlot pool slot length limit next) :=
  falls_ite (fun _ => falls_bpRead fun data _ => rest data) fun _ => rest []

/-! ### Handlers -/

theorem falls_release {slot : Int} {next : Program} (rest : Falls roomy bound next) :
    Falls roomy bound (release pool slot next) :=
  falls_ite (fun _ => falls_bpFree rest) fun _ => rest

/-- A descriptor is put in a place that is nearer to the end. -/
theorem falls_put {place : Place} {desc : SwDescriptor} {next : Bool → Program}
    (nearer : distance place < bound) {outcome : Outcome} (ends : next true = .done outcome) :
    Falls roomy bound (.put place desc next) := by
  refine ⟨nearer, ?_⟩
  rw [ends]
  trivial

theorem falls_handleHostTx {podId : Int} (there : 0 ≤ desc.srcHeaderBufSlot)
    (room : roomy .dpuTxHeader) : Falls roomy 5 (handleHostTx service podId desc) := by
  have forwarded : ∀ roomy slot, Falls roomy 5 (forward desc slot) :=
    fun _ _ => falls_put (by decide) rfl
  unfold handleHostTx
  refine falls_ite (fun present => falls_resolvePool fun found => ?_) fun _ => forwarded _ _
  cases found with
  | none => exact forwarded _ _
  | some pool =>
      refine falls_copyBuffer there present.2 (fun full => absurd room full) fun index => ?_
      exact falls_ite (fun negative => absurd negative (by omega)) fun _ =>
        falls_bpFree (forwarded _ _)

theorem falls_dmaCase2 (room : roomy (.host (service desc.dstPodId) .rxBody)) :
    Falls roomy 3 (dmaCase2 service desc) := by
  have delivered : ∀ roomy slot, Falls roomy 3 (deliverCase2 service desc slot) :=
    fun _ _ => falls_put (Nat.lt_succ_self 2) rfl
  unfold dmaCase2
  refine falls_ite (fun present => falls_resolvePool fun found => ?_) fun _ => delivered _ _
  cases found with
  | none => exact delivered _ _
  | some pool =>
      refine falls_copyBuffer present.1 present.2 (fun full => absurd room full) fun index => ?_
      exact falls_ite (fun negative => absurd negative (by omega)) fun _ =>
        falls_bpFree (delivered _ _)

/-- A message without a header slot at its receiver is dropped. -/
theorem falls_moveHeader {hostBodySlot : Int} :
    Falls roomy 3 (moveHeader service desc hostBodySlot) := by
  have delivered : ∀ roomy slot, Falls roomy 3 (deliverCase3 service desc slot hostBodySlot) :=
    fun _ _ => falls_put (Nat.lt_succ_self 2) rfl
  unfold moveHeader
  refine falls_resolvePool fun found => ?_
  cases found with
  | none => exact delivered _ _
  | some pool =>
      refine falls_ite (fun present => ?_) fun _ => delivered _ _
      refine falls_copyBuffer present.1 present.2 (fun _ => ?_) fun index => ?_
      · exact falls_ite (fun _ => falls_release trivial) fun there => absurd (by decide) there
      · exact falls_ite (fun negative => absurd negative (by omega)) fun _ =>
          falls_bpFree (delivered _ _)

theorem falls_dmaCase3 (room : roomy (.host (service desc.dstPodId) .rxBody)) :
    Falls roomy 3 (dmaCase3 service desc) := by
  unfold dmaCase3
  refine falls_resolvePool fun found => ?_
  cases found with
  | none => exact falls_moveHeader
  | some pool =>
      refine falls_ite (fun present => ?_) fun _ => falls_moveHeader
      refine falls_copyBuffer present.1 present.2 (fun full => absurd room full) fun index => ?_
      exact falls_ite (fun negative => absurd negative (by omega)) fun _ =>
        falls_bpFree falls_moveHeader

theorem falls_handleSidecarRx (room : ∀ app, roomy (.host app .rxBody)) :
    Falls roomy 3 (handleSidecarRx service desc) := by
  show Falls roomy 3 (if desc.caseFlag = caseIngress then _ else _)
  refine falls_ite (fun _ => falls_dmaCase2 (room _)) fun _ => ?_
  exact falls_ite (fun _ => falls_dmaCase3 (room _)) fun _ => falls_dmaCase2 (room _)

theorem falls_cleanupHeader {next : Program} (rest : Falls roomy bound next) :
    Falls roomy bound (cleanupHeader service desc next) := by
  refine falls_ite (fun _ => falls_resolvePool fun found => ?_) fun _ => rest
  cases found with
  | none => exact rest
  | some pool => exact falls_bpFree rest

theorem falls_deliverToBridge (info : List (PyStr × Value)) :
    Falls roomy bound (deliverToBridge service desc info) := by
  unfold deliverToBridge
  refine falls_ite (fun _ => falls_resolvePool fun found => ?_) fun _ => falls_cleanupHeader trivial
  cases found with
  | none => exact falls_cleanupHeader trivial
  | some pool => exact falls_bpRead fun data _ => falls_bpFree (falls_cleanupHeader trivial)

theorem falls_route (info : Option (List (PyStr × Value))) :
    Falls roomy 4 (route service desc info) := by
  have passed : ∀ desc, Falls roomy 4 (passOn service desc) := fun _ => falls_put (by decide) rfl
  cases info with
  | none => trivial
  | some info =>
      refine falls_ite (fun _ => ?_) fun _ => ?_
      · unfold routeResponse
        refine falls_ite (fun _ => falls_deliverToBridge info) fun _ => ?_
        have found : Falls roomy 4 (passOn service { desc with
            dstPodId := 0
            flags := opResponse ||| caseLocal
            valid := 1 }) := passed _
        exact found
      · exact passed _

theorem falls_routeDescriptor : Falls roomy 4 (routeDescriptor service float desc) :=
  falls_ite (fun _ => falls_bpRead fun _ _ => falls_route _) fun _ => falls_route _

theorem falls_poll {podId : Int} : Falls roomy 2 (poll podId desc) := by
  have handedOver : ∀ place, distance place = 1 →
      Falls roomy 2 (.put place desc fun _ => .done .polled) := by
    intro place near
    exact falls_put (by omega) rfl
  refine falls_ite (fun _ => trivial) fun _ => ?_
  exact falls_ite (fun _ => handedOver (.response podId) rfl)
    fun _ => handedOver (.notify podId) rfl

theorem falls_freeRx {podId : Int} {next : Program} (rest : Falls roomy bound next) :
    Falls roomy bound (freeRx service podId desc next) :=
  falls_ite (fun _ => falls_bpFree (falls_ite (fun _ => falls_bpFree rest) fun _ => rest))
    fun _ => falls_ite (fun _ => falls_bpFree rest) fun _ => rest

theorem falls_dpumeshRead {podId : Int} : Falls roomy bound (dpumeshRead service podId desc) := by
  refine falls_ite (fun _ => trivial) fun _ => falls_ite (fun _ => ?_) fun _ => ?_
  · exact falls_readSlot fun _ => falls_freeRx trivial
  · exact falls_readSlot fun _ => falls_readSlot fun _ => falls_freeRx trivial

theorem falls_dpumeshReadResponse {podId : Int} :
    Falls roomy bound (dpumeshReadResponse service podId desc) :=
  falls_readSlot fun _ => falls_readSlot fun _ => falls_freeRx trivial

end

/-! ### Room -/

/-- The slots that a waiting descriptor refers to, by how far it has come. -/
theorem pool_of_named {service : Int → Bytes} {place : Place} {desc : SwDescriptor}
    {content : Written} {known : Cell PoolName → Bytes}
    (carries : Carries service place desc content known) {cell : Cell PoolName}
    (named : cell ∈ names service place desc) :
    (3 ≤ distance place → ∀ app, cell.pool ≠ .host app .rxBody) ∧
      (5 ≤ distance place → cell.pool ≠ .dpuTxHeader) := by
  cases place with
  | tx podId =>
      obtain ⟨app, header, body, sourced, _⟩ := carries
      have both : names service (.tx podId) desc = _ := sourced.sources
      rw [both] at named
      simp only [List.mem_cons, List.not_mem_nil, or_false] at named
      rcases named with rfl | rfl
      · simp
      · simp
  | sidecarTx =>
      obtain ⟨app, header, body, sourced, _⟩ := carries
      have both : names service .sidecarTx desc = _ := sourced.sources
      rw [both] at named
      simp only [List.mem_cons, List.not_mem_nil, or_false] at named
      rcases named with rfl | rfl
      · simp [distance]
      · simp [distance]
  | sidecarRx =>
      rcases carries with ⟨_, app, header, body, sourced, _⟩ | ⟨body, sourced, _⟩
      · have both : names service .sidecarRx desc = _ := sourced.sources
        rw [both] at named
        simp only [List.mem_cons, List.not_mem_nil, or_false] at named
        rcases named with rfl | rfl
        · simp [distance]
        · simp [distance]
      · have one : names service .sidecarRx desc = _ := sourced.sources
        rw [one] at named
        rw [List.mem_singleton.mp named]
        simp [distance]
  | rx podId => simp [distance]
  | notify podId => simp [distance]
  | response podId => simp [distance]

section

variable {service : Int → Bytes} {float : PyStr → Numeral} {state : PipelineState}
  (inv : Inv (system service float) (carriage service float True) state)

include inv

/-- Nobody has left a slot behind where the responses find their pipes. -/
theorem leaked_nil : state.leaked = [] :=
  inv.left trivial fun _ _ leaves => leaves.2 trivial

/-- A pool to which no waiting descriptor refers is free when all are done. -/
theorem room_of_unnamed (idle : state.tasks = []) {pool : PoolName}
    (unnamed : ∀ entry ∈ state.queued, ∀ cell ∈ names service entry.place entry.item,
      cell.pool ≠ pool) :
    ∃ index < numSlots, nodeMemory.marked state.memory ⟨pool, index⟩ = false := by
  refine ⟨0, by decide, Bool.eq_false_iff.mpr fun taken => ?_⟩
  have owned := inv.owned ⟨pool, 0⟩
  have marked : (system service float).memory.marked state.memory ⟨pool, 0⟩ = true := taken
  rw [marked, if_pos rfl] at owned
  have member := List.count_pos_iff.mp (Nat.lt_of_lt_of_eq Nat.one_pos owned.symm)
  unfold held at member
  rw [idle, leaked_nil inv, List.flatMap_nil, List.append_nil, List.append_nil] at member
  obtain ⟨entry, present, named⟩ := List.mem_flatMap.mp member
  exact unnamed entry present _ named rfl

/-- A handler of a descriptor that is among the nearest to the end passes it on. -/
theorem slopes (idle : state.tasks = []) {entry : Entry Place SwDescriptor Written}
    (member : entry ∈ state.queued)
    (nearest : ∀ other ∈ state.queued, distance entry.place ≤ distance other.place) :
    ∃ roomy, Room (system service float) roomy state.memory ∧
      Falls roomy (distance entry.place) (handler service float entry.place entry.item) := by
  have carriesOf : ∀ other ∈ state.queued, ∃ known,
      Carries service other.place other.item other.origin.content known := by
    intro other present
    obtain ⟨known, carries, _⟩ := inv.fit trivial present
    exact ⟨known, carries⟩
  obtain ⟨known, carries⟩ := carriesOf entry member
  cases place : entry.place with
  | tx podId =>
      rw [place] at nearest carries
      refine ⟨fun pool => pool = .dpuTxHeader, ?_, ?_⟩
      · rintro pool rfl
        refine room_of_unnamed inv idle fun other present cell named => ?_
        obtain ⟨known, carries⟩ := carriesOf other present
        exact (pool_of_named carries named).2 (nearest other present)
      · obtain ⟨app, header, body, sourced, _⟩ := carries
        refine falls_ite (fun _ => trivial) fun _ => falls_handleHostTx ?_ rfl
        rw [sourced.srcHeaderSlot]
        exact Int.natCast_nonneg _
  | sidecarRx =>
      rw [place] at nearest
      refine ⟨fun pool => ∃ app, pool = .host app .rxBody, ?_, ?_⟩
      · rintro pool ⟨app, rfl⟩
        refine room_of_unnamed inv idle fun other present cell named => ?_
        obtain ⟨known, carries⟩ := carriesOf other present
        exact (pool_of_named carries named).1 (nearest other present) app
      · exact falls_ite (fun _ => trivial) fun _ => falls_handleSidecarRx fun app => ⟨app, rfl⟩
  | sidecarTx =>
      exact ⟨fun _ => False, fun _ none => none.elim,
        falls_ite (fun _ => trivial) fun _ => falls_routeDescriptor⟩
  | rx podId => exact ⟨fun _ => False, fun _ none => none.elim, falls_poll⟩
  | notify podId => exact ⟨fun _ => False, fun _ none => none.elim, falls_dpumeshRead⟩
  | response podId => exact ⟨fun _ => False, fun _ none => none.elim, falls_dpumeshReadResponse⟩

end

/-- The steps of a run in which nobody starts are regular, and find every pipe. -/
theorem meets_of_finishing {state : PipelineState} {event : Event Call Answer}
    (finishing : Finishing (some 0 : Answer) event) : Regular state event ∧ Piped state event := by
  rcases finishing with ⟨position, rfl⟩ | rfl
  · exact ⟨trivial, trivial⟩
  · constructor
    · intro _ _ _ _ _ none
      cases none
    · intro _ _ _ _ _ _ none
      cases none

/-- In every run in which the responses find their pipes, the pipeline never gets
stuck: from each state, without a new call, all that is under way can be brought
to an end, and then no slot of any pool is taken. -/
theorem never_stuck (service : Int → Bytes) (float : PyStr → Numeral)
    (events : List (Event Call Answer))
    (each : EachStep (step (system service float))
      (fun state event => Regular state event ∧ Piped state event) start events) :
    Throughout (step (system service float))
      (fun state => ∃ rest final, run (step (system service float)) state rest = some final ∧
        EachStep (step (system service float))
          (fun state event => Regular state event ∧ Piped state event) state rest ∧
        (∀ call, .start call ∉ rest) ∧ final.queued = [] ∧ final.tasks = [] ∧
        ∀ cell, nodeMemory.marked final.memory cell = false) start events := by
  refine (inv_piped each).imp fun state inv => ?_
  have favourable : ∀ question, (carriage service float True).answers question (some 0) := by
    intro question
    cases question with
    | service podId => exact fun none => by cases none
    | pipe podId index => exact fun _ none => by cases none
    | _ => trivial
  have backed : ∀ place, (carriage service float True).backing place ≠ none := by
    intro place
    cases place <;> simp [carriage]
  have heavy : ∀ place, 0 < distance place := by
    intro place
    cases place <;> simp [distance]
  obtain ⟨rest, final, brought, queued, tasks⟩ :=
    exists_finished (sound_carriage service float True) favourable id backed heavy
      (fun state entry inv idle member nearest => slopes inv idle member nearest) inv
  refine ⟨rest, final, brought.runs, ?_, ?_, queued, tasks, ?_⟩
  · exact eachStep_of_always fun event member state =>
      meets_of_finishing (brought.finishing event member)
  · intro call member
    rcases brought.finishing _ member with ⟨position, other⟩ | other
    · cases other
    · cases other
  · intro cell
    exact brought.inv.unmarked trivial queued tasks (fun _ _ leaves => leaves.2 trivial) cell

theorem never_stuck_request :
    Throughout (step (system (fun _ => ascii "frontend") fun _ => ⟨[], numeral_nil⟩))
      (fun state => ∃ rest final,
        run (step (system (fun _ => ascii "frontend") fun _ => ⟨[], numeral_nil⟩)) state rest =
          some final ∧
        EachStep (step (system (fun _ => ascii "frontend") fun _ => ⟨[], numeral_nil⟩))
          (fun state event => Regular state event ∧ Piped state event) state rest ∧
        (∀ call, .start call ∉ rest) ∧ final.queued = [] ∧ final.tasks = [] ∧
        ∀ cell, nodeMemory.marked final.memory cell = false) start requestRun :=
  never_stuck _ _ _ requestRun_piped

end MiniMs.Daemon.Pipeline
