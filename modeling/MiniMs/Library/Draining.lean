import MiniMs.Library.CustodySteps

/-!
Systems that can always finish.

Owns: the weight of what waits, programs that pass a message on only to places
of less weight, the run in which one party does its calls alone, and that a
system whose handlers go downhill can be brought to a state where all is done.

One answer is given to everything that is asked; the rules must allow it.
-/

set_option linter.unusedSectionVars false

namespace MiniMs.Library.Draining

open MiniMs.Library.Text MiniMs.Library.Slots MiniMs.Library.Party MiniMs.Library.Custody
open MiniMs.Library.Run

section

variable {Memory Pool Place Item Question Answer Outcome Content Call : Type}
  [DecidableEq Pool] [DecidableEq Place]

/-- With the given answer, and its first allocation from a roomy pool granted, the
program puts at most one item, and that in a place below the bound. -/
def Downhill (weight : Place → Nat) (slots : Nat) (answer : Answer) :
    (Pool → Prop) → Nat → Program Pool Place Item Question Answer Outcome → Prop
  | _, _, .done _ => True
  | roomy, bound, .alloc pool next =>
      (¬ roomy pool → Downhill weight slots answer roomy bound (next none)) ∧
        ∀ index < slots, Downhill weight slots answer (fun _ => False) bound (next (some index))
  | roomy, bound, .free _ next => Downhill weight slots answer roomy bound next
  | roomy, bound, .clear _ next => Downhill weight slots answer roomy bound next
  | roomy, bound, .copyIn _ _ next => Downhill weight slots answer roomy bound next
  | roomy, bound, .fetch _ count next =>
      ∀ data : Bytes, data.length = count → Downhill weight slots answer roomy bound (next data)
  | roomy, bound, .put place _ next =>
      weight place < bound ∧ Downhill weight slots answer roomy 0 (next true)
  | roomy, bound, .ask _ next => Downhill weight slots answer roomy bound (next answer)

variable (system : System Memory Pool Place Item Question Answer Outcome Content Call)

/-- The roomy pools have a cell that is free. -/
def Room (roomy : Pool → Prop) (memory : Memory) : Prop :=
  ∀ pool, roomy pool → ∃ index < system.memory.numSlots,
    system.memory.marked memory ⟨pool, index⟩ = false

/-- The weight of all that waits. -/
def potential (weight : Place → Nat)
    (state : State Memory Pool Place Item Question Answer Outcome Content) : Nat :=
  (state.queued.map fun entry => weight entry.place).sum

/-- The steps of a run in which nobody starts. -/
def Finishing (answer : Answer) (event : Event Call Answer) : Prop :=
  (∃ position, event = .take position) ∨ event = .advance 0 answer

variable {system} {rules : Rules Pool Place Item Question Answer Outcome Content Call}
  {state : State Memory Pool Place Item Question Answer Outcome Content}
  {task : Task Pool Place Item Question Answer Outcome Content} {weight : Place → Nat}
  {answer : Answer}

/-! ### One party alone -/

theorem step_advance (state : State Memory Pool Place Item Question Answer Outcome Content)
    (task : Task Pool Place Item Question Answer Outcome Content) (answer : Answer) :
    step system (state.resume task) (.advance 0 answer) =
      some (proceed system state task answer) := rfl

/-- What a party comes to when it does its calls with nothing in between. -/
structure Alone (system : System Memory Pool Place Item Question Answer Outcome Content Call)
    (rules : Rules Pool Place Item Question Answer Outcome Content Call) (weight : Place → Nat)
    (answer : Answer) (state : State Memory Pool Place Item Question Answer Outcome Content)
    (task : Task Pool Place Item Question Answer Outcome Content) (events : List (Event Call Answer))
    (final : State Memory Pool Place Item Question Answer Outcome Content) : Prop where
  runs : run (step system) (state.resume task) events = some final
  allowed : EachStep (step system) (Allowed system rules) (state.resume task) events
  finishing : ∀ event ∈ events, Finishing answer event
  inv : Inv system rules final
  tasks : final.tasks = state.tasks
  descends : ∀ roomy bound,
    Downhill weight system.memory.numSlots answer roomy bound task.program →
      Room system roomy state.memory →
        potential weight final ≤ potential weight state + (bound - 1)

/-- One call, and then the others. -/
theorem Alone.cons {next : State Memory Pool Place Item Question Answer Outcome Content}
    {task' : Task Pool Place Item Question Answer Outcome Content}
    {events : List (Event Call Answer)}
    {final : State Memory Pool Place Item Question Answer Outcome Content}
    (rest : Alone system rules weight answer next task' events final)
    (same : proceed system state task answer = next.resume task')
    (allowed : Allowed system rules (state.resume task) (.advance 0 answer))
    (tasks : next.tasks = state.tasks)
    (descends : ∀ roomy bound,
      Downhill weight system.memory.numSlots answer roomy bound task.program →
        Room system roomy state.memory → ∃ roomy' bound',
        Downhill weight system.memory.numSlots answer roomy' bound' task'.program ∧ Room system roomy' next.memory ∧
          potential weight next + (bound' - 1) ≤ potential weight state + (bound - 1)) :
    Alone system rules weight answer state task (.advance 0 answer :: events) final where
  runs := run_cons.mpr ⟨_, (step_advance state task answer).trans (congrArg some same), rest.runs⟩
  allowed := by
    refine eachStep_cons (step_advance state task answer) allowed ?_
    rw [same]
    exact rest.allowed
  finishing := by
    intro event member
    rcases List.mem_cons.mp member with this | later
    · exact Or.inr this
    · exact rest.finishing event later
  inv := rest.inv
  tasks := rest.tasks.trans tasks
  descends := by
    intro roomy bound downhill room
    obtain ⟨roomy', bound', downhill', room', less⟩ := descends roomy bound downhill room
    exact (rest.descends roomy' bound' downhill' room').trans less

/-- The next call of a party is allowed, whatever it is. -/
theorem allowed_head (inv : Inv system rules (state.resume task))
    (favourable : ∀ question, rules.answers question answer) (unclears : ¬ rules.clears) :
    Allowed system rules (state.resume task) (.advance 0 answer) := by
  intro other found
  obtain rfl : task = other := Option.some.inj found
  cases program : task.program with
  | clear cell next =>
      obtain ⟨known, _, safe⟩ := inv.good.safe
      rw [program] at safe
      exact absurd safe.1 unclears
  | ask question next => exact favourable question
  | _ => trivial

theorem inv_next (inv : Inv system rules (state.resume task)) (sound : Sound system rules)
    (favourable : ∀ question, rules.answers question answer) (unclears : ¬ rules.clears) :
    Inv system rules (proceed system state task answer) :=
  inv_step sound inv (allowed_head inv favourable unclears) (step_advance state task answer)

/-- A party that does its calls alone is done in the end, and where its program
goes downhill, less waits then. -/
theorem exists_alone (sound : Sound system rules)
    (favourable : ∀ question, rules.answers question answer) (unclears : ¬ rules.clears)
    (backed : ∀ place, rules.backing place ≠ none) (weight : Place → Nat)
    {program : Program Pool Place Item Question Answer Outcome} (same : task.program = program)
    (inv : Inv system rules (state.resume task)) :
    ∃ events final, Alone system rules weight answer state task events final := by
  have allowed := allowed_head inv favourable unclears
  have after := inv_next inv sound favourable unclears
  induction program generalizing state task with
  | done outcome =>
      have ends : proceed system state task answer = state.finish task outcome := by
        unfold proceed
        rw [same]
      refine ⟨[.advance 0 answer], state.finish task outcome, ?_⟩
      constructor
      · exact run_cons.mpr ⟨_, (step_advance state task answer).trans (congrArg some ends), rfl⟩
      · exact eachStep_cons (step_advance state task answer) allowed trivial
      · exact fun event member => Or.inr (List.mem_singleton.mp member)
      · rw [← ends]
        exact after
      · rfl
      · exact fun _ _ _ _ => Nat.le_add_right _ _
  | alloc pool next inductionHypothesis =>
      rcases allocated : system.memory.alloc state.memory pool with ⟨found, memory⟩
      cases found with
      | none =>
          have goesOn : proceed system state task answer =
              state.resume { task with program := next none } := by
            unfold proceed
            rw [same]
            simp only [allocated]
          rw [goesOn] at after
          obtain ⟨events, final, rest⟩ := inductionHypothesis none rfl after
            (allowed_head after favourable unclears) (inv_next after sound favourable unclears)
          refine ⟨_, final, rest.cons goesOn allowed rfl fun roomy bound downhill room => ?_⟩
          rw [same] at downhill
          refine ⟨roomy, bound, downhill.1 fun isRoomy => ?_, room, Nat.le_refl _⟩
          obtain ⟨index, inside, free⟩ := room pool isRoomy
          have taken := (system.memory.alloc_none allocated).2 index inside
          rw [free] at taken
          cases taken
      | some index =>
          have goesOn : proceed system state task answer = State.resume { state with memory := memory }
              { task with program := next (some index), holds := ⟨pool, index⟩ :: task.holds } := by
            unfold proceed
            rw [same]
            simp only [allocated]
          rw [goesOn] at after
          obtain ⟨events, final, rest⟩ := inductionHypothesis (some index) rfl after
            (allowed_head after favourable unclears) (inv_next after sound favourable unclears)
          refine ⟨_, final, rest.cons goesOn allowed rfl fun roomy bound downhill room => ?_⟩
          rw [same] at downhill
          have inside := (system.memory.alloc_some allocated).1
          exact ⟨_, bound, downhill.2 index inside, fun _ none => none.elim, Nat.le_refl _⟩
  | free cell next inductionHypothesis =>
      have inside : cell.index < system.memory.numSlots := by
        obtain ⟨known, _, safe⟩ := inv.good.safe
        rw [same] at safe
        exact system.memory.inside (inv.apart safe.1).1
      have goesOn : proceed system state task answer =
          State.resume { state with memory := system.memory.unmark state.memory cell }
            { task with program := next, holds := task.holds.erase cell } := by
        unfold proceed
        rw [same]
      rw [goesOn] at after
      obtain ⟨events, final, rest⟩ := inductionHypothesis rfl after
        (allowed_head after favourable unclears) (inv_next after sound favourable unclears)
      refine ⟨_, final, rest.cons goesOn allowed rfl fun roomy bound downhill room => ?_⟩
      rw [same] at downhill
      refine ⟨roomy, bound, downhill, fun pool isRoomy => ?_, Nat.le_refl _⟩
      obtain ⟨index, below, free⟩ := room pool isRoomy
      refine ⟨index, below, Bool.eq_false_iff.mpr fun still => ?_⟩
      have before := ((system.memory.marked_unmark inside _).mp still).1
      rw [free] at before
      cases before
  | clear cell next inductionHypothesis =>
      obtain ⟨known, _, safe⟩ := inv.good.safe
      rw [same] at safe
      exact absurd safe.1 unclears
  | copyIn cell data next inductionHypothesis =>
      have goesOn : proceed system state task answer =
          State.resume { state with memory := system.memory.copyIn state.memory cell data }
            { task with program := next } := by
        unfold proceed
        rw [same]
      rw [goesOn] at after
      obtain ⟨events, final, rest⟩ := inductionHypothesis rfl after
        (allowed_head after favourable unclears) (inv_next after sound favourable unclears)
      refine ⟨_, final, rest.cons goesOn allowed rfl fun roomy bound downhill room => ?_⟩
      rw [same] at downhill
      refine ⟨roomy, bound, downhill, fun pool isRoomy => ?_, Nat.le_refl _⟩
      obtain ⟨index, below, free⟩ := room pool isRoomy
      exact ⟨index, below, (system.memory.marked_copyIn _ _ _ _).trans free⟩
  | fetch cell count next inductionHypothesis =>
      have goesOn : proceed system state task answer = state.resume
          { task with program := next (system.memory.fetch state.memory cell count) } := by
        unfold proceed
        rw [same]
      rw [goesOn] at after
      obtain ⟨events, final, rest⟩ := inductionHypothesis _ rfl after
        (allowed_head after favourable unclears) (inv_next after sound favourable unclears)
      refine ⟨_, final, rest.cons goesOn allowed rfl fun roomy bound downhill room => ?_⟩
      rw [same] at downhill
      exact ⟨roomy, bound, downhill _ (system.memory.length_fetch _ _ _), room, Nat.le_refl _⟩
  | put place item next inductionHypothesis =>
      have room : state.length place < system.capacity place := by
        cases backing : rules.backing place with
        | none => exact absurd backing (backed place)
        | some pools => exact inv.length_lt sound backing
      have goesOn : proceed system state task answer =
          (state.enqueue task.origin task.stage place item).resume
            { task with
              program := next true
              holds := task.holds.diff (system.names place item)
              stage := .passed } := by
        unfold proceed
        rw [same]
        dsimp only
        rw [if_pos room]
      rw [goesOn] at after
      obtain ⟨events, final, rest⟩ := inductionHypothesis true rfl after
        (allowed_head after favourable unclears) (inv_next after sound favourable unclears)
      refine ⟨_, final, rest.cons goesOn allowed rfl fun roomy bound downhill isRoomy => ?_⟩
      rw [same] at downhill
      refine ⟨roomy, 0, downhill.2, isRoomy, ?_⟩
      have below := downhill.1
      have added : potential weight (state.enqueue task.origin task.stage place item) =
          potential weight state + weight place := by
        unfold potential State.enqueue
        simp
      omega
  | ask question next inductionHypothesis =>
      have goesOn : proceed system state task answer =
          state.resume { task with program := next answer } := by
        unfold proceed
        rw [same]
      rw [goesOn] at after
      obtain ⟨events, final, rest⟩ := inductionHypothesis answer rfl after
        (allowed_head after favourable unclears) (inv_next after sound favourable unclears)
      refine ⟨_, final, rest.cons goesOn allowed rfl fun roomy bound downhill room => ?_⟩
      rw [same] at downhill
      exact ⟨roomy, bound, downhill, room, Nat.le_refl _⟩

/-! ### All parties, one after the other -/

/-- A run in which nobody starts, and the state that it leads to. -/
structure Brought (system : System Memory Pool Place Item Question Answer Outcome Content Call)
    (rules : Rules Pool Place Item Question Answer Outcome Content Call) (answer : Answer)
    (state : State Memory Pool Place Item Question Answer Outcome Content)
    (events : List (Event Call Answer))
    (final : State Memory Pool Place Item Question Answer Outcome Content) : Prop where
  runs : run (step system) state events = some final
  allowed : EachStep (step system) (Allowed system rules) state events
  finishing : ∀ event ∈ events, Finishing answer event
  inv : Inv system rules final

theorem Brought.trans
    {middle final : State Memory Pool Place Item Question Answer Outcome Content}
    {front back : List (Event Call Answer)} (first : Brought system rules answer state front middle)
    (second : Brought system rules answer middle back final) :
    Brought system rules answer state (front ++ back) final where
  runs := run_append.mpr ⟨middle, first.runs, second.runs⟩
  allowed := by
    refine eachStep_append.mpr ⟨first.allowed, fun other runs => ?_⟩
    rw [← Option.some.inj (first.runs.symm.trans runs)]
    exact second.allowed
  finishing := fun event member =>
    (List.mem_append.mp member).elim (first.finishing event) (second.finishing event)
  inv := second.inv

theorem Alone.brought {events : List (Event Call Answer)}
    {final : State Memory Pool Place Item Question Answer Outcome Content}
    (alone : Alone system rules weight answer state task events final) :
    Brought system rules answer (state.resume task) events final :=
  ⟨alone.runs, alone.allowed, alone.finishing, alone.inv⟩

variable (sound : Sound system rules) (favourable : ∀ question, rules.answers question answer)
  (unclears : ¬ rules.clears) (backed : ∀ place, rules.backing place ≠ none)

include sound favourable unclears backed

/-- All parties can get done. -/
theorem exists_idle (inv : Inv system rules state) :
    ∃ events final, Brought system rules answer state events final ∧ final.tasks = [] := by
  rcases tasks : state.tasks with _ | ⟨task, rest⟩
  · exact ⟨[], state, ⟨rfl, trivial, fun _ none => absurd none List.not_mem_nil, inv⟩, tasks⟩
  · induction rest generalizing state task with
    | nil =>
        have same : state = State.resume { state with tasks := [] } task := by
          unfold State.resume
          dsimp only
          rw [← tasks]
        rw [same] at inv ⊢
        obtain ⟨events, final, alone⟩ :=
          exists_alone sound favourable unclears backed (fun _ => 0) rfl inv
        exact ⟨events, final, alone.brought, alone.tasks⟩
    | cons next rest inductionHypothesis =>
        have same : state = State.resume { state with tasks := next :: rest } task := by
          unfold State.resume
          dsimp only
          rw [← tasks]
        rw [same] at inv ⊢
        obtain ⟨events, middle, alone⟩ :=
          exists_alone sound favourable unclears backed (fun _ => 0) rfl inv
        obtain ⟨more, final, brought, idle⟩ := inductionHypothesis alone.inv next alone.tasks
        exact ⟨_, final, alone.brought.trans brought, idle⟩

omit [DecidableEq Pool] sound favourable unclears backed in
/-- Among what waits, the first of those of least weight. -/
theorem exists_least (weight : Place → Nat)
    (state : State Memory Pool Place Item Question Answer Outcome Content)
    (waiting : state.queued ≠ []) :
    ∃ position entry, state.queued[position]? = some entry ∧ state.First position entry ∧
      ∀ other ∈ state.queued, weight entry.place ≤ weight other.place := by
  unfold State.First
  generalize state.queued = queued at waiting ⊢
  induction queued with
  | nil => exact absurd rfl waiting
  | cons entry rest inductionHypothesis =>
      by_cases alone : rest = []
      · refine ⟨0, entry, rfl, fun _ none => absurd none List.not_mem_nil, fun other member => ?_⟩
        rw [alone] at member
        rw [List.mem_singleton.mp member]
      · obtain ⟨position, least, found, first, below⟩ := inductionHypothesis alone
        by_cases light : weight entry.place ≤ weight least.place
        · refine ⟨0, entry, rfl, fun _ none => absurd none List.not_mem_nil, fun other member => ?_⟩
          rcases List.mem_cons.mp member with this | later
          · rw [this]
          · exact Nat.le_trans light (below other later)
        · refine ⟨position + 1, least, found, fun earlier member => ?_, fun other member => ?_⟩
          · rcases List.mem_cons.mp member with this | later
            · rw [this]
              intro same
              exact light (Nat.le_of_eq (congrArg weight same))
            · exact first earlier later
          · rcases List.mem_cons.mp member with this | later
            · rw [this]
              omega
            · exact below other later

/-- Where every handler goes downhill when its descriptor is among the lightest,
all can be brought to an end. -/
theorem exists_finished {weight : Place → Nat} (heavy : ∀ place, 0 < weight place)
    (slopes : ∀ (state : State Memory Pool Place Item Question Answer Outcome Content) entry,
      Inv system rules state → state.tasks = [] → entry ∈ state.queued →
        (∀ other ∈ state.queued, weight entry.place ≤ weight other.place) →
          ∃ roomy, Room system roomy state.memory ∧
            Downhill weight system.memory.numSlots answer roomy (weight entry.place)
              (system.handler entry.place entry.item))
    (inv : Inv system rules state) :
    ∃ events final, Brought system rules answer state events final ∧ final.queued = [] ∧
      final.tasks = [] := by
  obtain ⟨front, idle, brought, rests⟩ := exists_idle sound favourable unclears backed inv
  suffices rest : ∃ events final, Brought system rules answer idle events final ∧
      final.queued = [] ∧ final.tasks = [] by
    obtain ⟨events, final, second, done⟩ := rest
    exact ⟨_, final, brought.trans second, done⟩
  have inv := brought.inv
  clear brought
  generalize amount : potential weight idle = total
  induction total using Nat.strongRecOn generalizing idle with
  | _ total inductionHypothesis =>
      by_cases waiting : idle.queued = []
      · exact ⟨[], idle, ⟨rfl, trivial, fun _ none => absurd none List.not_mem_nil, inv⟩, waiting, rests⟩
      · obtain ⟨position, entry, found, first, least⟩ := exists_least weight idle waiting
        obtain ⟨roomy, room, downhill⟩ :=
          slopes idle entry inv rests (List.mem_of_getElem? found) least
        let taken : Task Pool Place Item Question Answer Outcome Content :=
          { program := system.handler entry.place entry.item
            holds := entry.names system
            origin := entry.origin
            stage := .carrying }
        have taking : step system idle (.take position) = some
            (State.resume { idle with queued := idle.queued.eraseIdx position } taken) := by
          show (idle.queued[position]?).bind _ = _
          rw [found, Option.bind_some, if_pos fun _ => first]
        have allowed : Allowed system rules idle (.take position : Event Call Answer) := trivial
        have after := inv_step sound inv allowed taking
        obtain ⟨events, middle, alone⟩ :=
          exists_alone sound favourable unclears backed weight rfl after
        have less : potential weight middle < total := by
          have most := alone.descends roomy (weight entry.place) downhill room
          have positive := heavy entry.place
          obtain ⟨inside, same⟩ := List.getElem?_eq_some_iff.mp found
          have perm : (entry :: idle.queued.eraseIdx position).Perm idle.queued := by
            rw [← same]
            exact List.getElem_cons_eraseIdx_perm inside
          have split := (perm.map fun entry => weight entry.place).sum_eq
          rw [List.map_cons, List.sum_cons] at split
          unfold potential at amount most ⊢
          dsimp only at most
          omega
        have tasks : middle.tasks = [] := alone.tasks.trans rests
        obtain ⟨more, final, second, done⟩ :=
          inductionHypothesis _ less middle tasks alone.inv rfl
        have start : Brought system rules answer idle (.take position :: events) middle := by
          constructor
          · exact run_cons.mpr ⟨_, taking, alone.runs⟩
          · exact eachStep_cons taking trivial alone.allowed
          · intro event member
            rcases List.mem_cons.mp member with this | later
            · exact Or.inl ⟨position, this⟩
            · exact alone.finishing event later
          · exact alone.inv
        exact ⟨_, final, start.trans second, done⟩

end

end MiniMs.Library.Draining
