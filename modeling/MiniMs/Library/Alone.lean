import MiniMs.Library.Party

/-!
A party that nobody interrupts.

Owns: the memory and the queues as a party sees them, what a program makes of
them from its first call to its last, and the rules that a task which was
started, or which took the first item of a queue, gets there by steps of its own.

The tasks beside it are left as they are.
-/

namespace MiniMs.Library.Party

open MiniMs.Library.Text MiniMs.Library.Slots MiniMs.Library.Run

/-- The memory, and the items of each queue. -/
structure View (Memory Place Item : Type) where
  memory : Memory
  queues : Place → List Item

section Alone

variable {Memory Pool Place Item Question Answer Outcome Content Call : Type}
  [DecidableEq Place]

def View.put (view : View Memory Place Item) (place : Place) (item : Item) :
    View Memory Place Item :=
  { view with queues := Function.update view.queues place (view.queues place ++ [item]) }

def State.view (state : State Memory Pool Place Item Question Answer Outcome Content) :
    View Memory Place Item where
  memory := state.memory
  queues place := (state.queued.filter fun entry => entry.place = place).map Entry.item

section Programs

variable (system : System Memory Pool Place Item Question Answer Outcome Content Call)
  (answers : Question → Answer)

/-- What a program makes of a view when it gets these answers. -/
def exec : Program Pool Place Item Question Answer Outcome → View Memory Place Item →
    View Memory Place Item
  | .done _, view => view
  | .alloc pool next, view =>
      let allocated := system.memory.alloc view.memory pool
      allocated.1.elim (exec (next none) view) fun index =>
        exec (next (some index)) { view with memory := allocated.2 }
  | .free cell next, view =>
      exec next { view with memory := system.memory.unmark view.memory cell }
  | .clear cell next, view =>
      exec next { view with memory := system.memory.unmark view.memory cell }
  | .copyIn cell data next, view =>
      exec next { view with memory := system.memory.copyIn view.memory cell data }
  | .fetch cell count next, view =>
      exec (next (system.memory.fetch view.memory cell count)) view
  | .put place item next, view =>
      if (view.queues place).length < system.capacity place then
        exec (next true) (view.put place item)
      else exec (next false) view
  | .ask question next, view => exec (next (answers question)) view

theorem exec_alloc (pool : Pool)
    (next : Option Nat → Program Pool Place Item Question Answer Outcome)
    (view : View Memory Place Item) :
    exec system answers (.alloc pool next) view =
      (system.memory.alloc view.memory pool).1.elim (exec system answers (next none) view)
        fun index =>
          exec system answers (next (some index))
            { view with memory := (system.memory.alloc view.memory pool).2 } := rfl

theorem exec_put (place : Place) (item : Item)
    (next : Bool → Program Pool Place Item Question Answer Outcome)
    (view : View Memory Place Item) :
    exec system answers (.put place item next) view =
      if (view.queues place).length < system.capacity place then
        exec system answers (next true) (view.put place item)
      else exec system answers (next false) view := rfl

end Programs

variable {system : System Memory Pool Place Item Question Answer Outcome Content Call}

/-! ### What the steps do to the view -/

theorem length_view (state : State Memory Pool Place Item Question Answer Outcome Content)
    (place : Place) : (state.view.queues place).length = state.length place := by
  unfold State.view State.length
  rw [List.length_map, List.countP_eq_length_filter]

theorem view_enqueue (state : State Memory Pool Place Item Question Answer Outcome Content)
    (origin : Origin Content) (stage : Stage) (place : Place) (item : Item) :
    (state.enqueue origin stage place item).view = state.view.put place item := by
  have queues : (state.enqueue origin stage place item).view.queues =
      (state.view.put place item).queues := by
    funext other
    unfold State.view State.enqueue View.put
    dsimp only
    rw [List.filter_append, List.map_append]
    by_cases same : place = other
    · rw [← same, Function.update_self]
      simp
    · have different : other ≠ place := fun equal => same equal.symm
      rw [Function.update_of_ne different]
      simp [same]
  exact congrArg (View.mk state.memory) queues

/-- The queues after the first item of one of them is taken. -/
theorem view_take {state : State Memory Pool Place Item Question Answer Outcome Content}
    {front back : List (Entry Place Item Content)} {entry : Entry Place Item Content}
    {waiting : List Item} (queued : state.queued = front ++ entry :: back)
    (front_other : ∀ earlier ∈ front, earlier.place ≠ entry.place)
    (behind : (back.filter fun other => other.place = entry.place).map Entry.item = waiting) :
    ({ state with queued := front ++ back } :
        State Memory Pool Place Item Question Answer Outcome Content).view =
      { state.view with queues := Function.update state.view.queues entry.place waiting } := by
  have queues : ({ state with queued := front ++ back } :
      State Memory Pool Place Item Question Answer Outcome Content).view.queues =
        Function.update state.view.queues entry.place waiting := by
    funext other
    unfold State.view
    dsimp only
    rw [List.filter_append, List.map_append]
    by_cases same : other = entry.place
    · have none : front.filter (fun earlier => earlier.place = entry.place) = [] := by
        apply List.filter_eq_nil_iff.mpr
        intro earlier member
        simpa using front_other earlier member
      rw [same, Function.update_self, none, behind]
      rfl
    · have different : ¬ entry.place = other := fun equal => same equal.symm
      rw [Function.update_of_ne same, queued]
      simp [different]
  exact congrArg (View.mk state.memory) queues

section Steps

variable [DecidableEq Pool]

variable (system) in
/-- The first item of a queue can be taken. -/
theorem take_first {state : State Memory Pool Place Item Question Answer Outcome Content}
    {place : Place} {item : Item} {waiting : List Item}
    (queue : state.view.queues place = item :: waiting) :
    ∃ position next task, step system state (.take position) = some next ∧
      next.tasks = task :: state.tasks ∧ task.program = system.handler place item ∧
      next.view = { state.view with queues := Function.update state.view.queues place waiting } := by
  unfold State.view at queue
  obtain ⟨entry, later, filtered, rfl, rest⟩ := List.map_eq_cons_iff.mp queue
  obtain ⟨front, back, queued, front_other, here, behind⟩ := List.filter_eq_cons_iff.mp filtered
  obtain rfl : entry.place = place := by simpa using here
  have others : ∀ earlier ∈ front, earlier.place ≠ entry.place := by
    intro earlier member
    simpa using front_other earlier member
  have found : state.queued[front.length]? = some entry := by
    rw [queued, List.getElem?_append_right (Nat.le_refl _), Nat.sub_self]
    rfl
  have first : state.First front.length entry := by
    unfold State.First
    rw [queued, List.take_left]
    exact others
  have erased : state.queued.eraseIdx front.length = front ++ back := by
    rw [queued, List.eraseIdx_append_of_length_le (Nat.le_refl _), Nat.sub_self]
    rfl
  refine ⟨front.length, { state with queued := state.queued.eraseIdx front.length }.resume
      { program := system.handler entry.place entry.item
        holds := entry.names system
        origin := entry.origin
        stage := .carrying }, _, ?_, rfl, rfl, ?_⟩
  · show (state.queued[front.length]?).bind _ = some _
    rw [found, Option.bind_some]
    exact if_pos fun _ => first
  · show ({ state with queued := state.queued.eraseIdx front.length } :
      State Memory Pool Place Item Question Answer Outcome Content).view = _
    rw [erased]
    exact view_take queued others (by rw [behind, rest])

/-! ### A task of its own -/

/-- The events are steps of the task that went on last. -/
def Alone (events : List (Event Call Answer)) : Prop :=
  ∀ event ∈ events, ∃ answer, event = .advance 0 answer

section First

variable {state : State Memory Pool Place Item Question Answer Outcome Content}
  {task : Task Pool Place Item Question Answer Outcome Content}
  {rest : List (Task Pool Place Item Question Answer Outcome Content)}

/-- A task that runs alone leads to a view and leaves the other tasks as they are. -/
def Leads (system : System Memory Pool Place Item Question Answer Outcome Content Call)
    (state : State Memory Pool Place Item Question Answer Outcome Content)
    (rest : List (Task Pool Place Item Question Answer Outcome Content))
    (view : View Memory Place Item) : Prop :=
  ∃ events final, Alone events ∧ run (step system) state events = some final ∧
    final.view = view ∧ final.tasks = rest

/-- The first task makes its next call, and the rest follows. -/
theorem leads_cons {next : State Memory Pool Place Item Question Answer Outcome Content}
    {view : View Memory Place Item} (first : state.tasks = task :: rest) (answer : Answer)
    (went : proceed system { state with tasks := rest } task answer = next)
    (later : Leads system next rest view) : Leads system state rest view := by
  obtain ⟨events, final, alone, runs, reached⟩ := later
  refine ⟨.advance 0 answer :: events, final, ?_, ?_, reached⟩
  · intro event member
    rcases List.mem_cons.mp member with here | behind
    · exact ⟨answer, here⟩
    · exact alone event behind
  · apply run_cons.mpr
    refine ⟨next, ?_, runs⟩
    show (state.tasks[0]?).map _ = some next
    rw [first]
    exact congrArg some went

/-- A task that runs alone does to the view what its program makes of it. -/
theorem exec_leads [Inhabited Answer] (answers : Question → Answer)
    (program : Program Pool Place Item Question Answer Outcome)
    (first : state.tasks = task :: rest) (runs : task.program = program) :
    Leads system state rest (exec system answers program state.view) := by
  induction program generalizing state task with
  | done outcome =>
      have went : proceed system { state with tasks := rest } task default =
          { state with tasks := rest }.finish task outcome := by
        unfold proceed
        rw [runs]
      refine leads_cons first default went ⟨[], _, ?_, rfl, rfl, rfl⟩
      exact fun event member => absurd member List.not_mem_nil
  | alloc pool next inductionHypothesis =>
      cases allocated : system.memory.alloc state.memory pool with
      | mk found memory =>
          cases found with
          | none =>
              have went : proceed system { state with tasks := rest } task default =
                  { state with tasks := rest }.resume { task with program := next none } := by
                unfold proceed
                rw [runs]
                dsimp only
                rw [allocated]
              have same : exec system answers (.alloc pool next) state.view =
                  exec system answers (next none) state.view := by
                rw [exec_alloc, show state.view.memory = state.memory from rfl, allocated]
                rfl
              rw [same]
              exact leads_cons first default went (inductionHypothesis none rfl rfl)
          | some index =>
              have went : proceed system { state with tasks := rest } task default =
                  { state with tasks := rest, memory := memory }.resume
                    { task with
                      program := next (some index)
                      holds := ⟨pool, index⟩ :: task.holds } := by
                unfold proceed
                rw [runs]
                dsimp only
                rw [allocated]
              have same : exec system answers (.alloc pool next) state.view =
                  exec system answers (next (some index)) { state.view with memory := memory } := by
                rw [exec_alloc, show state.view.memory = state.memory from rfl, allocated]
                rfl
              rw [same]
              exact leads_cons first default went (inductionHypothesis (some index) rfl rfl)
  | free cell next inductionHypothesis =>
      have went : proceed system { state with tasks := rest } task default =
          { state with
            tasks := rest
            memory := system.memory.unmark state.memory cell }.resume
              { task with program := next, holds := task.holds.erase cell } := by
        unfold proceed
        rw [runs]
      exact leads_cons first default went (inductionHypothesis rfl rfl)
  | clear cell next inductionHypothesis =>
      have went : proceed system { state with tasks := rest } task default =
          { state with
            tasks := rest
            memory := system.memory.unmark state.memory cell
            leaked := state.leaked.filter fun left => left ≠ cell }.resume
              { task with program := next } := by
        unfold proceed
        rw [runs]
      exact leads_cons first default went (inductionHypothesis rfl rfl)
  | copyIn cell data next inductionHypothesis =>
      have went : proceed system { state with tasks := rest } task default =
          { state with
            tasks := rest
            memory := system.memory.copyIn state.memory cell data }.resume
              { task with program := next } := by
        unfold proceed
        rw [runs]
      exact leads_cons first default went (inductionHypothesis rfl rfl)
  | fetch cell count next inductionHypothesis =>
      have went : proceed system { state with tasks := rest } task default =
          { state with tasks := rest }.resume
            { task with program := next (system.memory.fetch state.memory cell count) } := by
        unfold proceed
        rw [runs]
      exact leads_cons first default went (inductionHypothesis _ rfl rfl)
  | put place item next inductionHypothesis =>
      have room : (state.view.queues place).length < system.capacity place ↔
          state.length place < system.capacity place := by rw [length_view]
      rw [exec_put]
      by_cases below : state.length place < system.capacity place
      · have went : proceed system { state with tasks := rest } task default =
            ({ state with tasks := rest }.enqueue task.origin task.stage place item).resume
              { task with
                program := next true
                holds := task.holds.diff (system.names place item)
                stage := .passed } := by
          unfold proceed
          rw [runs]
          exact if_pos below
        rw [if_pos (room.mpr below)]
        rw [← view_enqueue state task.origin task.stage place item]
        exact leads_cons first default went (inductionHypothesis true rfl rfl)
      · have went : proceed system { state with tasks := rest } task default =
            { state with tasks := rest }.resume { task with program := next false } := by
          unfold proceed
          rw [runs]
          exact if_neg below
        rw [if_neg fun inside => below (room.mp inside)]
        exact leads_cons first default went (inductionHypothesis false rfl rfl)
  | ask question next inductionHypothesis =>
      have went : proceed system { state with tasks := rest } task (answers question) =
          { state with tasks := rest }.resume
            { task with program := next (answers question) } := by
        unfold proceed
        rw [runs]
      exact leads_cons first (answers question) went (inductionHypothesis _ rfl rfl)

end First

/-! ### One round -/

/-- A call that is started and runs alone. -/
theorem run_start [Inhabited Answer] (answers : Question → Answer) (call : Call)
    (state : State Memory Pool Place Item Question Answer Outcome Content) :
    ∃ events final, Alone events ∧
      run (step system) state (.start call :: events) = some final ∧
      final.view = exec system answers (system.program call) state.view ∧
      final.tasks = state.tasks := by
  have leads : Leads system
      ({ state with started := state.started + 1 }.resume
        { program := system.program call
          holds := []
          origin := ⟨state.started, system.content call⟩
          stage := .fresh }) state.tasks (exec system answers (system.program call) state.view) :=
    exec_leads answers (system.program call) rfl rfl
  obtain ⟨events, final, alone, runs, reached⟩ := leads
  exact ⟨events, final, alone, run_cons.mpr ⟨_, rfl, runs⟩, reached⟩

/-- A task that takes the first item of a queue and runs alone. -/
theorem run_take [Inhabited Answer] (answers : Question → Answer)
    {state : State Memory Pool Place Item Question Answer Outcome Content}
    {place : Place} {item : Item} {waiting : List Item}
    (queue : state.view.queues place = item :: waiting) :
    ∃ position events final, Alone events ∧
      run (step system) state (.take position :: events) = some final ∧
      final.view = exec system answers (system.handler place item)
        { state.view with queues := Function.update state.view.queues place waiting } ∧
      final.tasks = state.tasks := by
  obtain ⟨position, next, task, taken, tasks, program, view⟩ := take_first system queue
  obtain ⟨events, final, alone, runs, reached⟩ := exec_leads answers _ tasks program
  rw [view] at reached
  exact ⟨position, events, final, alone, run_cons.mpr ⟨next, taken, runs⟩, reached⟩

end Steps

end Alone

end MiniMs.Library.Party
