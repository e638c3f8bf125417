import MiniMs.Daemon.InFlight
import MiniMs.Library.CustodySteps

/-!
What runs of the pipeline keep.

Owns: the runs of workers that have started and whose pods the registry knows,
and what holds in every state of them: each accepted message is in one place and
ends in one of eight ways, the slots of each waiting descriptor hold the bytes
that its origin wrote, what is asked about a message is what its origin wrote,
every queue has room, and where all is done no slot is taken.
-/

namespace MiniMs.Daemon.Pipeline

open MiniMs.Library.Text MiniMs.Library.Json MiniMs.Library.Number MiniMs.Library.Slots
open MiniMs.Library.Party MiniMs.Library.Custody MiniMs.Library.Run MiniMs.Dpumesh

/-- The states of the pipeline. -/
abbrev PipelineState :=
  State (PoolName → BufferPool) PoolName Place SwDescriptor Question Answer Outcome Written

/-- The step is of a worker that has started, and the registry knows the pod that
is asked for. -/
def Regular (state : PipelineState) : Event Call Answer → Prop
  | .start call => Ordinary call
  | .take _ => True
  | .advance position answer =>
      ∀ task, state.tasks[position]? = some task →
        ∀ podId next, task.program = .ask (.service podId) next → answer ≠ none

/-- A response that is polled finds its pipe. -/
def Piped (state : PipelineState) : Event Call Answer → Prop
  | .advance position answer =>
      ∀ task, state.tasks[position]? = some task →
        ∀ podId index next, task.program = .ask (.pipe podId index) next → answer ≠ none
  | _ => True

section

variable {service : Int → Bytes} {float : PyStr → Numeral} {piped : Prop}
  {events : List (Event Call Answer)}

theorem allowed_of_regular {state : PipelineState} {event : Event Call Answer}
    (inv : Inv (system service float) (carriage service float piped) state)
    (regular : Regular state event) (pipes : piped → Piped state event) :
    Allowed (system service float) (carriage service float piped) state event := by
  cases event with
  | start call => exact regular
  | take position => trivial
  | advance position answer =>
      intro task found
      cases program : task.program with
      | clear cell next =>
          obtain ⟨known, _, safe⟩ := (inv.tasks task (List.mem_of_getElem? found)).safe
          rw [program] at safe
          exact safe.1.elim
      | ask question next =>
          cases question with
          | service podId => exact regular task found podId next program
          | pipe podId index =>
              exact fun always => pipes always task found podId index next program
          | _ => trivial
      | _ => trivial

theorem inv_regular
    (each : EachStep (step (system service float)) Regular start events) :
    Throughout (step (system service float))
      (Inv (system service float) (carriage service float False)) start events := by
  refine throughout_of_eachStep ?_ (inv_initial (not_marked_start service float)) each
  intro state event next inv regular taken
  exact inv_step (sound_carriage service float False) inv
    (allowed_of_regular inv regular fun never => never.elim) taken

theorem inv_piped
    (each : EachStep (step (system service float))
      (fun state event => Regular state event ∧ Piped state event) start events) :
    Throughout (step (system service float))
      (Inv (system service float) (carriage service float True)) start events := by
  refine throughout_of_eachStep ?_ (inv_initial (not_marked_start service float)) each
  intro state event next inv meets taken
  exact inv_step (sound_carriage service float True) inv
    (allowed_of_regular inv meets.1 fun _ => meets.2) taken

end

/-! ### A run -/

/-- A worker requests an id, and the DPA and the router pass the request on. -/
def requestRun : List (Event Call Answer) :=
  .start (.request (.init (ascii "frontend-0") 0) (ascii "GET") (ascii "http://id/id?name=Kim")
      (fun _ => 0) none) ::
    List.replicate 6 (.advance 0 (some 0)) ++
      .take 0 :: List.replicate 7 (.advance 0 (some 0)) ++
        .take 0 :: List.replicate 4 (.advance 0 (some 1))

theorem requestRun_meets {event : Event Call Answer} (member : event ∈ requestRun)
    (state : PipelineState) : Regular state event ∧ Piped state event := by
  cases event with
  | start call =>
      simp only [requestRun, List.cons_append, List.mem_cons, List.mem_append, List.mem_replicate,
        Event.start.injEq, reduceCtorEq, and_false, or_false] at member
      rw [member]
      exact ⟨⟨by decide +kernel, by decide +kernel⟩, trivial⟩
  | take position => exact ⟨trivial, trivial⟩
  | advance position answer =>
      have answered : answer ≠ none := by
        intro none
        rw [none] at member
        simp [requestRun] at member
      exact ⟨fun _ _ _ _ _ => answered, fun _ _ _ _ _ _ => answered⟩

section

variable {service : Int → Bytes} {float : PyStr → Numeral}

theorem requestRun_regular : EachStep (step (system service float)) Regular start requestRun :=
  eachStep_of_always fun _ member state => (requestRun_meets member state).1

theorem requestRun_piped :
    EachStep (step (system service float))
      (fun state event => Regular state event ∧ Piped state event) start requestRun :=
  eachStep_of_always fun _ member state => requestRun_meets member state

end

/-! ### Where messages are -/

/-- In every run, each accepted message is in one place, and where it has ended,
it was handed over or had no receiver. -/
theorem messages_kept (service : Int → Bytes) (float : PyStr → Numeral)
    (events : List (Event Call Answer))
    (each : EachStep (step (system service float)) Regular start events) :
    Throughout (step (system service float))
      (fun state => (∀ serial ∈ state.accepted, ∃ sighting, state.sightings serial = [sighting]) ∧
        ∀ pair ∈ state.ended, Ends pair.2) start events := by
  refine (inv_regular each).imp fun state inv => ⟨fun serial accepted => ?_, inv.ended⟩
  obtain ⟨sighting, only, _⟩ := inv.sighting accepted
  exact ⟨sighting, only⟩

theorem messages_kept_request :
    Throughout (step (system (fun _ => ascii "frontend") fun _ => ⟨[], numeral_nil⟩))
      (fun state => (∀ serial ∈ state.accepted, ∃ sighting, state.sightings serial = [sighting]) ∧
        ∀ pair ∈ state.ended, Ends pair.2) start requestRun :=
  messages_kept _ _ _ requestRun_regular

/-- In every run, no queue is ever full. -/
theorem queues_have_room (service : Int → Bytes) (float : PyStr → Numeral)
    (events : List (Event Call Answer))
    (each : EachStep (step (system service float)) Regular start events) :
    Throughout (step (system service float))
      (fun state => ∀ place, state.length place < (system service float).capacity place) start
      events := by
  refine (inv_regular each).imp fun state inv place => ?_
  cases place with
  | tx podId => exact inv.length_lt (sound_carriage service float False) rfl
  | rx podId => exact inv.length_lt (sound_carriage service float False) rfl
  | sidecarTx => exact inv.length_lt (sound_carriage service float False) rfl
  | sidecarRx => exact inv.length_lt (sound_carriage service float False) rfl
  | notify podId => exact inv.length_lt (sound_carriage service float False) rfl
  | response podId => exact inv.length_lt (sound_carriage service float False) rfl

theorem queues_have_room_request :
    Throughout (step (system (fun _ => ascii "frontend") fun _ => ⟨[], numeral_nil⟩))
      (fun state => ∀ place, state.length place <
        (system (fun _ => ascii "frontend") fun _ => ⟨[], numeral_nil⟩).capacity place) start requestRun :=
  queues_have_room _ _ _ requestRun_regular

/-! ### What descriptors refer to -/

/-- A slot is taken, and begins with the data. -/
def Stores (memory : PoolName → BufferPool) (cell : Option (Cell PoolName)) (data : Bytes) : Prop :=
  ∃ slot, cell = some slot ∧ nodeMemory.marked memory slot = true ∧
    nodeMemory.fetch memory slot data.length = data

/-- The slots of a waiting descriptor hold what its origin wrote; of a body that
does not fit, nothing is known. -/
structure Intact (service : Int → Bytes) (memory : PoolName → BufferPool)
    (entry : Entry Place SwDescriptor Written) : Prop where
  header : ∀ header, entry.origin.content.header = some header →
    entry.item.headerLen = header.length ∧
      Stores memory (headerCell service entry.place entry.item) header
  headerless : entry.origin.content.header = none →
    headerCell service entry.place entry.item = none
  bodyLen : entry.item.bodyLen = entry.origin.content.body.length
  body : entry.origin.content.body.length ≤ slotSize →
    Stores memory (bodyCell service entry.place entry.item) entry.origin.content.body

section

variable {service : Int → Bytes} {float : PyStr → Numeral} {piped : Prop} {place : Place}
  {desc : SwDescriptor}
  {content : Written} {known : Cell PoolName → Bytes}

/-- Where a descriptor waits, it has two slots or one. -/
theorem carries_cases (carries : Carries service place desc content known) :
    (∃ header body, headerCell service place desc = some header ∧
      bodyCell service place desc = some body ∧ Pair header body desc content known) ∨
    ∃ body, headerCell service place desc = none ∧ bodyCell service place desc = some body ∧
      Single body desc content known := by
  have arrived : ∀ podId, Received service podId desc content known →
      (∃ header body, headerCell service (.rx podId) desc = some header ∧
        bodyCell service (.rx podId) desc = some body ∧ Pair header body desc content known) ∨
      ∃ body, headerCell service (.rx podId) desc = none ∧
        bodyCell service (.rx podId) desc = some body ∧ Single body desc content known := by
    intro podId received
    cases received with
    | pair header body headerSlot bodySlot isLocal pair =>
        refine Or.inl ⟨_, _, ?_, ?_, pair⟩
        · exact (congrArg _ headerSlot).trans (cellOf_natCast _ _)
        · exact (congrArg _ bodySlot).trans (cellOf_natCast _ _)
    | single body headerSlot bodySlot single =>
        refine Or.inr ⟨_, ?_, ?_, single⟩
        · exact (congrArg _ headerSlot).trans (cellOf_neg_one _)
        · exact (congrArg _ bodySlot).trans (cellOf_natCast _ _)
  cases place with
  | tx podId =>
      obtain ⟨app, header, body, sourced, pair⟩ := carries
      exact Or.inl ⟨_, _, sourced.headerSource_eq, sourced.bodySource_eq, pair⟩
  | sidecarTx =>
      obtain ⟨app, header, body, sourced, pair⟩ := carries
      exact Or.inl ⟨_, _, sourced.headerSource_eq, sourced.bodySource_eq, pair⟩
  | sidecarRx =>
      rcases carries with ⟨_, app, header, body, sourced, pair⟩ | ⟨body, sourced, single⟩
      · exact Or.inl ⟨_, _, sourced.headerSource_eq, sourced.bodySource_eq, pair⟩
      · exact Or.inr ⟨_, sourced.headerSource_eq, sourced.bodySource_eq, single⟩
  | rx podId => exact arrived podId carries
  | notify podId => exact arrived podId carries.2
  | response podId => exact arrived podId carries.2

/-- Each cell that an entry names is taken. -/
theorem marked_of_named {state : PipelineState}
    (inv : Inv (system service float) (carriage service float piped) state)
    {entry : Entry Place SwDescriptor Written} (member : entry ∈ state.queued)
    {cell : Cell PoolName} (named : cell ∈ names service entry.place entry.item) :
    nodeMemory.marked state.memory cell = true :=
  inv.marked (mem_held_of_entry state member named)

theorem intact_of_inv {state : PipelineState}
    (inv : Inv (system service float) (carriage service float piped) state)
    {entry : Entry Place SwDescriptor Written} (member : entry ∈ state.queued) :
    Intact service state.memory entry := by
  obtain ⟨known, carries, bytes⟩ := inv.fit trivial member
  have bytes' : ∀ cell ∈ names service entry.place entry.item,
      nodeMemory.fetch state.memory cell (known cell).length = known cell := bytes
  rcases carries_cases carries with ⟨header, body, first, second, pair⟩ | ⟨body, first, second, single⟩
  · have named : names service entry.place entry.item = [header, body] := by
      unfold names
      rw [first, second]
      rfl
    have headerNamed : header ∈ names service entry.place entry.item := by
      rw [named]
      exact List.mem_cons_self
    have bodyNamed : body ∈ names service entry.place entry.item := by
      rw [named]
      exact List.mem_cons_of_mem _ List.mem_cons_self
    constructor
    · intro written same
      obtain rfl := Option.some.inj (pair.headerBytes.symm.trans same)
      exact ⟨pair.headerLen, header, first, marked_of_named inv member headerNamed,
        bytes' header headerNamed⟩
    · intro none
      rw [pair.headerBytes] at none
      cases none
    · exact pair.bodyLen
    · intro fits
      rw [← pair.bodyBytes fits]
      exact ⟨body, second, marked_of_named inv member bodyNamed, bytes' body bodyNamed⟩
  · have bodyNamed : body ∈ names service entry.place entry.item := by
      unfold names
      rw [first, second]
      exact List.mem_cons_self
    constructor
    · intro written some
      rw [single.headerless] at some
      cases some
    · exact fun _ => first
    · exact single.bodyLen
    · intro _
      rw [← single.bodyBytes]
      exact ⟨body, second, marked_of_named inv member bodyNamed, bytes' body bodyNamed⟩

end

/-- In every run, the slots of each waiting descriptor hold what its origin
wrote, and no two descriptors refer to one slot. -/
theorem payloads_intact (service : Int → Bytes) (float : PyStr → Numeral)
    (events : List (Event Call Answer))
    (each : EachStep (step (system service float)) Regular start events) :
    Throughout (step (system service float))
      (fun state => (∀ entry ∈ state.queued, Intact service state.memory entry) ∧
        (state.queued.flatMap (Entry.names (system service float))).Nodup) start events := by
  refine (inv_regular each).imp fun state inv => ⟨fun entry member => intact_of_inv inv member, ?_⟩
  exact (List.nodup_append.mp inv.nodup).1

theorem payloads_intact_request :
    Throughout (step (system (fun _ => ascii "frontend") fun _ => ⟨[], numeral_nil⟩))
      (fun state =>
        (∀ entry ∈ state.queued, Intact (fun _ => ascii "frontend") state.memory entry) ∧
          (state.queued.flatMap (Entry.names
            (system (fun _ => ascii "frontend") fun _ => ⟨[], numeral_nil⟩))).Nodup) start requestRun :=
  payloads_intact _ _ _ requestRun_regular

/-! ### What is asked -/

/-- In every run, where all is done and every response had its pipe, no slot of
any pool is taken. -/
theorem slots_return (service : Int → Bytes) (float : PyStr → Numeral)
    (events : List (Event Call Answer))
    (each : EachStep (step (system service float)) Regular start events) :
    Throughout (step (system service float))
      (fun state => state.queued = [] → state.tasks = [] →
        (∀ pair ∈ state.ended, pair.2 ≠ .noPipe) →
          ∀ cell, nodeMemory.marked state.memory cell = false) start events := by
  refine (inv_regular each).imp fun state inv queued tasks clean cell => ?_
  exact inv.unmarked trivial queued tasks (fun pair member leaves => clean pair member leaves.1) cell

theorem slots_return_request :
    Throughout (step (system (fun _ => ascii "frontend") fun _ => ⟨[], numeral_nil⟩))
      (fun state => state.queued = [] → state.tasks = [] →
        (∀ pair ∈ state.ended, pair.2 ≠ .noPipe) →
          ∀ cell, nodeMemory.marked state.memory cell = false) start requestRun :=
  slots_return _ _ _ requestRun_regular

/-- The service whose worker a descriptor has arrived at. -/
def arrivedAt (service : Int → Bytes) : Place → Option Bytes
  | .rx podId => some (service podId)
  | .notify podId => some (service podId)
  | .response podId => some (service podId)
  | _ => none

end MiniMs.Daemon.Pipeline
