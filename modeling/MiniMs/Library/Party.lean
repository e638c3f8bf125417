import MiniMs.Library.Run
import MiniMs.Library.Slots

/-!
Parties that share a memory of slots and a set of queues.

Owns: the programs of the parties over single calls of pools and queues, the
system that such programs make, its state, and the step in which one party does
its next call.

What a party holds is what it allocated or took over with an item, and has
neither freed nor put in a queue since. That, the messages that were accepted,
and where those ended is a record beside the run; no program reads it.
-/

namespace MiniMs.Library.Party

open MiniMs.Library.Text MiniMs.Library.Slots

/-! ### Programs -/

/-- What a party still does: one call, and the rest for each answer to it. -/
inductive Program (Pool Place Item Question Answer Outcome : Type) where
  | done (outcome : Outcome)
  | alloc (pool : Pool)
      (next : Option Nat → Program Pool Place Item Question Answer Outcome)
  | free (cell : Cell Pool) (next : Program Pool Place Item Question Answer Outcome)
  /-- Free a cell that the party need not hold. -/
  | clear (cell : Cell Pool) (next : Program Pool Place Item Question Answer Outcome)
  | copyIn (cell : Cell Pool) (data : Bytes)
      (next : Program Pool Place Item Question Answer Outcome)
  | fetch (cell : Cell Pool) (count : Nat)
      (next : Bytes → Program Pool Place Item Question Answer Outcome)
  | put (place : Place) (item : Item)
      (next : Bool → Program Pool Place Item Question Answer Outcome)
  /-- Ask something that is outside the system. -/
  | ask (question : Question) (next : Answer → Program Pool Place Item Question Answer Outcome)

/-- The queues of a system, what its items refer to, and its programs. -/
structure System (Memory Pool Place Item Question Answer Outcome Content Call : Type) where
  memory : SlotMemory Memory Pool
  /-- The cells that an item in a queue refers to. -/
  names : Place → Item → List (Cell Pool)
  capacity : Place → Nat
  /-- Whether only the first item of a queue can be taken. -/
  ordered : Place → Bool
  /-- What a call writes. -/
  content : Call → Content
  program : Call → Program Pool Place Item Question Answer Outcome
  /-- What is done with an item that is taken. -/
  handler : Place → Item → Program Pool Place Item Question Answer Outcome

/-! ### States -/

/-- The call that a message comes from. -/
structure Origin (Content : Type) where
  serial : Nat
  content : Content

/-- Whether a party has yet to put its message, has taken it over, or has
passed it on. -/
inductive Stage where
  | fresh
  | carrying
  | passed
deriving DecidableEq, Repr

structure Entry (Place Item Content : Type) where
  place : Place
  item : Item
  origin : Origin Content

structure Task (Pool Place Item Question Answer Outcome Content : Type) where
  program : Program Pool Place Item Question Answer Outcome
  holds : List (Cell Pool)
  origin : Origin Content
  stage : Stage

structure State (Memory Pool Place Item Question Answer Outcome Content : Type) where
  memory : Memory
  /-- The items of all queues in the order in which they were put. -/
  queued : List (Entry Place Item Content) := []
  tasks : List (Task Pool Place Item Question Answer Outcome Content) := []
  /-- The messages that a party had taken over when it was done. -/
  ended : List (Origin Content × Outcome) := []
  /-- What parties held when they were done. -/
  leaked : List (Cell Pool) := []
  /-- The messages that a party put for the first time. -/
  accepted : List Nat := []
  started : Nat := 0

inductive Event (Call Answer : Type) where
  | start (call : Call)
  | take (position : Nat)
  | advance (position : Nat) (answer : Answer)

section Steps

variable {Memory Pool Place Item Question Answer Outcome Content Call : Type}
  [DecidableEq Pool] [DecidableEq Place]
  (system : System Memory Pool Place Item Question Answer Outcome Content Call)

def Entry.names (entry : Entry Place Item Content) : List (Cell Pool) :=
  system.names entry.place entry.item

/-- A task goes on. -/
def State.resume (state : State Memory Pool Place Item Question Answer Outcome Content)
    (task : Task Pool Place Item Question Answer Outcome Content) :
    State Memory Pool Place Item Question Answer Outcome Content :=
  { state with tasks := task :: state.tasks }

/-- How many items a queue has. -/
def State.length (state : State Memory Pool Place Item Question Answer Outcome Content)
    (place : Place) : Nat :=
  state.queued.countP fun entry => entry.place = place

/-- A task is done. -/
def State.finish (state : State Memory Pool Place Item Question Answer Outcome Content)
    (task : Task Pool Place Item Question Answer Outcome Content) (outcome : Outcome) :
    State Memory Pool Place Item Question Answer Outcome Content :=
  { state with
    leaked := task.holds ++ state.leaked
    ended := if task.stage = .carrying then (task.origin, outcome) :: state.ended
      else state.ended }

/-- A task puts an item in a queue that has room. -/
def State.enqueue (state : State Memory Pool Place Item Question Answer Outcome Content)
    (origin : Origin Content) (stage : Stage) (place : Place) (item : Item) :
    State Memory Pool Place Item Question Answer Outcome Content :=
  { state with
    queued := state.queued ++ [⟨place, item, origin⟩]
    accepted := if stage = .fresh then origin.serial :: state.accepted else state.accepted }

/-- The next call of a task that is taken out of the state. -/
def proceed (state : State Memory Pool Place Item Question Answer Outcome Content)
    (task : Task Pool Place Item Question Answer Outcome Content) (answer : Answer) :
    State Memory Pool Place Item Question Answer Outcome Content :=
  match task.program with
  | .done outcome => state.finish task outcome
  | .alloc pool next =>
      match system.memory.alloc state.memory pool with
      | (some index, memory) =>
          { state with memory := memory }.resume
            { task with program := next (some index), holds := ⟨pool, index⟩ :: task.holds }
      | (none, _) => state.resume { task with program := next none }
  | .free cell next =>
      { state with memory := system.memory.unmark state.memory cell }.resume
        { task with program := next, holds := task.holds.erase cell }
  | .clear cell next =>
      { state with
        memory := system.memory.unmark state.memory cell
        leaked := state.leaked.filter fun left => left ≠ cell }.resume
        { task with program := next }
  | .copyIn cell data next =>
      { state with memory := system.memory.copyIn state.memory cell data }.resume
        { task with program := next }
  | .fetch cell count next =>
      state.resume { task with program := next (system.memory.fetch state.memory cell count) }
  | .put place item next =>
      if state.length place < system.capacity place then
        (state.enqueue task.origin task.stage place item).resume
          { task with
            program := next true
            holds := task.holds.diff (system.names place item)
            stage := .passed }
      else state.resume { task with program := next false }
  | .ask _ next => state.resume { task with program := next answer }

/-- Whether the item at a position can be taken. -/
def State.First (state : State Memory Pool Place Item Question Answer Outcome Content)
    (position : Nat) (entry : Entry Place Item Content) : Prop :=
  ∀ earlier ∈ state.queued.take position, earlier.place ≠ entry.place

instance (state : State Memory Pool Place Item Question Answer Outcome Content)
    (position : Nat) (entry : Entry Place Item Content) : Decidable (state.First position entry) := by
  unfold State.First
  infer_instance

def step (state : State Memory Pool Place Item Question Answer Outcome Content) :
    Event Call Answer → Option (State Memory Pool Place Item Question Answer Outcome Content)
  | .start call =>
      some ({ state with started := state.started + 1 }.resume
        { program := system.program call
          holds := []
          origin := ⟨state.started, system.content call⟩
          stage := .fresh })
  | .take position =>
      (state.queued[position]?).bind fun entry =>
        if system.ordered entry.place = true → state.First position entry then
          some ({ state with queued := state.queued.eraseIdx position }.resume
            { program := system.handler entry.place entry.item
              holds := entry.names system
              origin := entry.origin
              stage := .carrying })
        else none
  | .advance position answer =>
      (state.tasks[position]?).map fun task =>
        proceed system { state with tasks := state.tasks.eraseIdx position } task answer

/-- No item in a queue refers to the cell, and no task holds it. -/
def State.Unheld (state : State Memory Pool Place Item Question Answer Outcome Content)
    (cell : Cell Pool) : Prop :=
  (∀ entry ∈ state.queued, cell ∉ entry.names system) ∧ ∀ task ∈ state.tasks, cell ∉ task.holds

/-- What a task that is about to allocate gets is not held. -/
def Exclusive (state : State Memory Pool Place Item Question Answer Outcome Content) : Prop :=
  ∀ task ∈ state.tasks, ∀ pool next, task.program = .alloc pool next →
    ∀ index, (system.memory.alloc state.memory pool).1 = some index →
      state.Unheld system ⟨pool, index⟩

end Steps

/-! ### Where messages are -/

/-- Where a message is. -/
inductive Sighting (Place Outcome : Type) where
  | queued (place : Place)
  | handled
  | ended (outcome : Outcome)

/-- All the places at which a message is. -/
def State.sightings {Memory Pool Place Item Question Answer Outcome Content : Type}
    (state : State Memory Pool Place Item Question Answer Outcome Content) (serial : Nat) :
    List (Sighting Place Outcome) :=
  (state.queued.filter fun entry => entry.origin.serial = serial).map (fun entry =>
      .queued entry.place) ++
    (state.tasks.filter fun task => task.stage = .carrying ∧ task.origin.serial = serial).map
      (fun _ => .handled) ++
    (state.ended.filter fun pair => pair.1.serial = serial).map fun pair => .ended pair.2

end MiniMs.Library.Party
