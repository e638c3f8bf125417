import MiniMs.Library.Custody

/-!
Steps of parties that keep the rules of custody.

Owns: one lemma for each call of a program, for a party that starts and for an
item that is taken, and that every step that the rules allow preserves the
invariant.
-/

set_option linter.unusedSectionVars false

namespace MiniMs.Library.Custody

open MiniMs.Library.Text MiniMs.Library.Slots MiniMs.Library.Party

section

variable {Memory Pool Place Item Question Answer Outcome Content Call : Type}
  [DecidableEq Pool] [DecidableEq Place]
  {system : System Memory Pool Place Item Question Answer Outcome Content Call}
  {rules : Rules Pool Place Item Question Answer Outcome Content Call}
  {state : State Memory Pool Place Item Question Answer Outcome Content}
  {task task' : Task Pool Place Item Question Answer Outcome Content} {answer : Answer}

/-! ### One call of a task -/

/-- A task that leaves the memory as it is. -/
theorem Inv.same (inv : Inv system rules (state.resume task)) (origin : task'.origin = task.origin)
    (stage : task'.stage = task.stage) (holds : task'.holds = task.holds)
    (safe : ∃ known, Reads system rules state.memory task'.holds known ∧
      Safe system rules task'.origin.content task'.program task'.holds known task'.stage) :
    Inv system rules (state.resume task') := by
  refine inv.change origin stage ?_ inv.leakedFair id (fun _ _ _ _ _ => rfl) ⟨?_, safe⟩
  · rw [holds]
    exact inv.count
  · rw [holds]
    exact inv.good.fair

theorem Inv.alloc (inv : Inv system rules (state.resume task)) {pool : Pool}
    {next : Option Nat → Program Pool Place Item Question Answer Outcome}
    (program : task.program = .alloc pool next) :
    Inv system rules (proceed system state task answer) := by
  obtain ⟨known, reads, safe⟩ := inv.good.safe
  rw [program] at safe
  obtain ⟨refused, granted⟩ := safe
  unfold proceed
  rw [program]
  dsimp only
  rcases allocated : system.memory.alloc state.memory pool with ⟨found, after⟩
  cases found with
  | none =>
      have full := (system.memory.alloc_none allocated).2
      refine inv.same rfl rfl rfl ⟨known, reads, refused fun greater under => ?_⟩
      exact inv.not_full under full
  | some index =>
      obtain ⟨inside, free, marked, bytes⟩ := system.memory.alloc_some allocated
      have absent := inv.free_notMem free
      have fresh : (⟨pool, index⟩ : Cell Pool) ∉ task.holds :=
        fun holds => absent (mem_held_of_task _ List.mem_cons_self holds)
      obtain ⟨fair, safe⟩ := granted index inside fresh
      refine inv.change rfl rfl (fun cell => ?_) inv.leakedFair id
        (fun _ cell _ count _ => bytes cell count)
        ⟨fair, _, fun contents cell holds => ?_, safe⟩
      · have before := inv.count cell
        show (held system state).count cell + (⟨pool, index⟩ :: task.holds).count cell = _
        rw [List.count_cons]
        by_cases same : cell = ⟨pool, index⟩
        · rw [same, free, if_neg Bool.false_ne_true] at before
          rw [if_pos ((marked cell).mpr (Or.inr same)), same]
          simp only [BEq.rfl, ↓reduceIte]
          omega
        · have different : ((⟨pool, index⟩ : Cell Pool) == cell) = false := by
            simpa using fun equal => same equal.symm
          have unchanged : system.memory.marked after cell = system.memory.marked state.memory cell := by
            rw [Bool.eq_iff_iff, marked cell]
            exact or_iff_left same
          rw [unchanged, different]
          exact before
      · by_cases same : cell = ⟨pool, index⟩
        · rw [same, Function.update_self]
          exact ⟨Nat.zero_le _, List.eq_nil_of_length_eq_zero (system.memory.length_fetch _ _ _)⟩
        · rw [Function.update_of_ne same]
          obtain ⟨short, begins⟩ := reads contents cell ((List.mem_cons.mp holds).resolve_left same)
          exact ⟨short, (bytes cell _).trans begins⟩

theorem Inv.free (inv : Inv system rules (state.resume task)) {cell : Cell Pool}
    {next : Program Pool Place Item Question Answer Outcome}
    (program : task.program = .free cell next) :
    Inv system rules (proceed system state task answer) := by
  obtain ⟨known, reads, safe⟩ := inv.good.safe
  rw [program] at safe
  obtain ⟨holds, fair, safe⟩ := safe
  have inside := system.memory.inside (inv.apart holds).1
  have marked := @SlotMemory.marked_unmark _ _ system.memory state.memory _ inside
  have bytes := @SlotMemory.fetch_unmark _ _ system.memory state.memory _ inside
  unfold proceed
  rw [program]
  refine inv.change rfl rfl (fun other => ?_) inv.leakedFair id
    (fun _ other _ count _ => bytes other count) ⟨fair, known, fun contents other member => ?_, safe⟩
  · have before := inv.count other
    show (held system state).count other + (task.holds.erase cell).count other = _
    by_cases same : other = cell
    · have own := List.count_pos_iff.mpr holds
      have unmarked : ¬ system.memory.marked (system.memory.unmark state.memory cell) other = true :=
        fun still => ((marked other).mp still).2 same
      rw [same] at before unmarked ⊢
      rw [(inv.apart holds).1, if_pos rfl] at before
      rw [if_neg unmarked, List.count_erase_self]
      omega
    · have unchanged : system.memory.marked (system.memory.unmark state.memory cell) other =
          system.memory.marked state.memory other := by
        rw [Bool.eq_iff_iff, marked other]
        exact and_iff_left same
      rw [unchanged, List.count_erase_of_ne same]
      exact before
  · obtain ⟨short, begins⟩ := reads contents other (List.mem_of_mem_erase member)
    exact ⟨short, (bytes other _).trans begins⟩

theorem Inv.copyIn (inv : Inv system rules (state.resume task)) {cell : Cell Pool} {data : Bytes}
    {next : Program Pool Place Item Question Answer Outcome}
    (program : task.program = .copyIn cell data next) :
    Inv system rules (proceed system state task answer) := by
  obtain ⟨known, reads, safe⟩ := inv.good.safe
  rw [program] at safe
  obtain ⟨holds, short, safe⟩ := safe
  unfold proceed
  rw [program]
  refine inv.change rfl rfl (fun other => ?_) inv.leakedFair id
    (fun contents other member count le => ?_)
    ⟨inv.good.fair, _, fun contents other member => ?_, safe⟩
  · rw [system.memory.marked_copyIn]
    exact inv.count other
  · have different : other ≠ cell := by
      intro same
      rw [same] at member
      exact (inv.apart holds).2 member
    exact system.memory.fetch_copyIn_of_ne (short contents) other different count le
  · by_cases same : other = cell
    · rw [same, Function.update_self]
      exact ⟨short contents, system.memory.fetch_copyIn_self _ _ _⟩
    · rw [Function.update_of_ne same]
      obtain ⟨fits, begins⟩ := reads contents other member
      exact ⟨fits, (system.memory.fetch_copyIn_of_ne (short contents) other same _ fits).trans begins⟩

theorem Inv.fetch (inv : Inv system rules (state.resume task)) {cell : Cell Pool} {count : Nat}
    {next : Bytes → Program Pool Place Item Question Answer Outcome}
    (program : task.program = .fetch cell count next) :
    Inv system rules (proceed system state task answer) := by
  obtain ⟨known, reads, safe⟩ := inv.good.safe
  rw [program] at safe
  unfold proceed
  rw [program]
  refine inv.same rfl rfl rfl ⟨known, reads, safe _ (system.memory.length_fetch _ _ _) ?_⟩
  intro contents holds le
  rw [← (reads contents cell holds).2, system.memory.take_fetch _ _ le]

theorem Inv.ask (inv : Inv system rules (state.resume task)) {question : Question}
    {next : Answer → Program Pool Place Item Question Answer Outcome}
    (program : task.program = .ask question next) (possible : rules.answers question answer) :
    Inv system rules (proceed system state task answer) := by
  obtain ⟨known, reads, safe⟩ := inv.good.safe
  rw [program] at safe
  unfold proceed
  rw [program]
  exact inv.same rfl rfl rfl ⟨known, reads, safe.2 answer possible⟩

/-- A mark is cleared of a cell that nobody has. -/
theorem Inv.clear (inv : Inv system rules (state.resume task)) (sound : Sound system rules)
    {cell : Cell Pool} {next : Program Pool Place Item Question Answer Outcome}
    (program : task.program = .clear cell next)
    (unheld : (state.resume task).Unheld system cell) :
    Inv system rules (proceed system state task answer) := by
  obtain ⟨known, reads, safe⟩ := inv.good.safe
  rw [program] at safe
  obtain ⟨clears, inside, safe⟩ := safe
  have marked := @SlotMemory.marked_unmark _ _ system.memory state.memory _ inside
  have bytes := @SlotMemory.fetch_unmark _ _ system.memory state.memory _ inside
  have notNamed : cell ∉ state.queued.flatMap (Entry.names system) := by
    intro member
    obtain ⟨entry, present, named⟩ := List.mem_flatMap.mp member
    exact unheld.1 entry present named
  have notOthers : cell ∉ state.tasks.flatMap Task.holds := by
    intro member
    obtain ⟨other, present, holds⟩ := List.mem_flatMap.mp member
    exact unheld.2 other (List.mem_cons_of_mem _ present) holds
  have notOwn : cell ∉ task.holds := unheld.2 task List.mem_cons_self
  unfold proceed
  rw [program]
  refine inv.change rfl rfl (fun other => ?_)
    (fun lesser greater under => absurd under (sound.cleared clears lesser greater))
    (fun none => by rw [none]; rfl)
    (fun _ other _ count _ => bytes other count)
    ⟨inv.good.fair, known, fun contents other member => ?_, safe⟩
  · have before := inv.count other
    unfold held at before ⊢
    simp only [List.count_append] at before ⊢
    by_cases same : other = cell
    · have unmarked : ¬ system.memory.marked (system.memory.unmark state.memory cell) other = true :=
        fun still => ((marked other).mp still).2 same
      have notLeft : other ∉ state.leaked.filter fun left => left ≠ cell := by
        rw [same]
        simp
      rw [if_neg unmarked, List.count_eq_zero.mpr notLeft, same, List.count_eq_zero.mpr notNamed,
        List.count_eq_zero.mpr notOthers, List.count_eq_zero.mpr notOwn]
    · have unchanged : system.memory.marked (system.memory.unmark state.memory cell) other =
          system.memory.marked state.memory other := by
        rw [Bool.eq_iff_iff, marked other]
        exact and_iff_left same
      have kept : (state.leaked.filter fun left => left ≠ cell).count other =
          state.leaked.count other := List.count_filter (by simpa using same)
      rw [unchanged, kept]
      exact before
  · obtain ⟨short, begins⟩ := reads contents other member
    exact ⟨short, (bytes other _).trans begins⟩

theorem count_located_finish (outcome : Outcome) (serial : Nat) :
    (located (state.finish task outcome)).count serial =
      (located state).count serial + (Task.at .carrying task).count serial := by
  unfold located State.finish Task.at
  simp only [List.count_append]
  by_cases carrying : task.stage = .carrying
  · rw [if_pos carrying, if_pos carrying, List.map_cons, List.count_cons, List.count_singleton]
    dsimp only
    omega
  · rw [if_neg carrying, if_neg carrying, List.count_nil]
    omega

/-- The messages that were put, and those that are yet to be. -/
theorem Inv.once_resume (inv : Inv system rules (state.resume task)) (serial : Nat) :
    state.accepted.count serial + (state.tasks.flatMap (Task.at .fresh)).count serial +
      (Task.at .fresh task).count serial ≤ if serial < state.started then 1 else 0 := by
  have all := inv.once serial
  unfold State.resume at all
  simp only [List.flatMap_cons, List.count_append] at all
  omega

theorem Inv.done (inv : Inv system rules (state.resume task)) {outcome : Outcome}
    (program : task.program = .done outcome) :
    Inv system rules (proceed system state task answer) := by
  obtain ⟨known, reads, safe⟩ := inv.good.safe
  rw [program] at safe
  unfold proceed
  rw [program]
  show Inv system rules (state.finish task outcome)
  constructor
  · intro cell
    have before := inv.count cell
    unfold held State.finish at *
    simp only [List.count_append] at before ⊢
    omega
  · exact inv.good.fair.append inv.leakedFair
  · exact inv.entries
  · exact fun other member => inv.tasks other (List.mem_cons_of_mem _ member)
  · intro serial
    rw [count_located_finish, ← count_located_resume]
    exact inv.placed serial
  · intro serial
    have all := inv.once_resume serial
    show (state.accepted ++ state.tasks.flatMap (Task.at .fresh)).count serial ≤
      if serial < state.started then 1 else 0
    rw [List.count_append]
    omega
  · intro pair member
    unfold State.finish at member
    dsimp only at member
    by_cases carrying : task.stage = .carrying
    · rw [if_pos carrying] at member
      rcases List.mem_cons.mp member with this | old
      · rw [this]
        exact safe.1 carrying
      · exact inv.ended pair old
    · rw [if_neg carrying] at member
      exact inv.ended pair member
  · intro tidy clean
    unfold State.finish at clean ⊢
    dsimp only at clean ⊢
    have nothing : task.holds = [] := by
      by_contra something
      obtain ⟨carrying, leaves⟩ := safe.2 tidy something
      rw [if_pos carrying] at clean
      exact clean _ List.mem_cons_self leaves
    have before : ∀ pair ∈ state.ended, ¬ rules.leaves pair.2 := by
      intro pair member
      apply clean pair
      split
      · exact List.mem_cons_of_mem _ member
      · exact member
    have none : state.leaked = [] := inv.left tidy before
    rw [nothing, none, List.nil_append]

/-- What stays of a list when another is taken out of it. -/
theorem count_diff_add {cells names : List (Cell Pool)} (within : names.Subperm cells)
    (cell : Cell Pool) : (cells.diff names).count cell + names.count cell = cells.count cell := by
  rw [List.count_diff]
  exact Nat.sub_add_cancel (within.count_le cell)

theorem count_held_enqueue (origin : Origin Content) (stage : Stage) (place : Place) (item : Item)
    (cell : Cell Pool) :
    (held system (state.enqueue origin stage place item)).count cell =
      (held system state).count cell + (system.names place item).count cell := by
  unfold held State.enqueue
  simp only [List.flatMap_append, List.flatMap_cons, List.flatMap_nil, List.count_append,
    List.append_nil]
  show _ + (system.names place item).count cell + _ = _
  omega

theorem count_located_enqueue (origin : Origin Content) (stage : Stage) (place : Place)
    (item : Item) (serial : Nat) :
    (located (state.enqueue origin stage place item)).count serial =
      (located state).count serial + [origin.serial].count serial := by
  unfold located State.enqueue
  simp only [List.map_append, List.map_cons, List.map_nil, List.count_append]
  omega

theorem count_accepted_enqueue (place : Place) (item : Item) (serial : Nat) :
    (state.enqueue task.origin task.stage place item).accepted.count serial =
      state.accepted.count serial + (Task.at .fresh task).count serial := by
  unfold State.enqueue Task.at
  dsimp only
  by_cases fresh : task.stage = .fresh
  · rw [if_pos fresh, if_pos fresh, List.count_cons, List.count_singleton]
  · rw [if_neg fresh, if_neg fresh, List.count_nil]
    omega

/-- A task that has not passed its message on either has it or is yet to put
it. -/
theorem Task.count_at (notPassed : task.stage ≠ .passed) (serial : Nat) :
    (Task.at .carrying task).count serial + (Task.at .fresh task).count serial =
      [task.origin.serial].count serial := by
  unfold Task.at
  cases stage : task.stage with
  | fresh => simp
  | carrying => simp
  | passed => exact absurd stage notPassed

theorem Task.at_passed {stage : Stage} (passed : task.stage = .passed) (other : stage ≠ .passed) :
    Task.at stage task = [] := by
  unfold Task.at
  rw [passed, if_neg other.symm]

/-- An item is put in a queue that has room. -/
theorem Inv.put_room (inv : Inv system rules (state.resume task)) {place : Place} {item : Item}
    {next : Bool → Program Pool Place Item Question Answer Outcome}
    (program : task.program = .put place item next)
    (room : state.length place < system.capacity place) :
    Inv system rules (proceed system state task answer) := by
  obtain ⟨known, reads, safe⟩ := inv.good.safe
  rw [program] at safe
  obtain ⟨_, notPassed, within, fair, backed, restFair, fit, safe⟩ := safe
  unfold proceed
  rw [program]
  dsimp only
  rw [if_pos room]
  constructor
  · intro cell
    have before := inv.count cell
    have parts := count_diff_add within cell
    rw [count_held_resume, count_held_enqueue]
    show _ + (task.holds.diff (system.names place item)).count cell =
      if system.memory.marked state.memory cell then 1 else 0
    omega
  · exact inv.leakedFair
  · intro entry member
    rcases List.mem_append.mp member with old | new
    · exact inv.entries entry old
    · rw [List.mem_singleton.mp new]
      exact ⟨fair, backed, known, fun contents cell named => reads contents cell (within.subset named),
        fit⟩
  · intro other member
    rcases List.mem_cons.mp member with this | old
    · rw [this]
      refine ⟨restFair, known, fun contents cell holds => ?_, safe⟩
      exact reads contents cell (List.diff_subset _ _ holds)
    · exact inv.tasks other (List.mem_cons_of_mem _ old)
  · intro serial
    have before := inv.placed serial
    have own := Task.count_at notPassed serial
    rw [count_located_resume] at before
    rw [count_located_resume, count_located_enqueue, Task.at_passed rfl (by decide)]
    show _ + ([] : List Nat).count serial =
      (state.enqueue task.origin task.stage place item).accepted.count serial
    rw [count_accepted_enqueue, List.count_nil]
    have same : (state.resume task).accepted = state.accepted := rfl
    rw [same] at before
    omega
  · intro serial
    have all := inv.once_resume serial
    have accepted := @count_accepted_enqueue _ _ _ _ _ _ _ _ _ _ state task place item serial
    show ((state.enqueue task.origin task.stage place item).accepted ++
      (Task.at .fresh { task with
        program := next true
        holds := task.holds.diff (system.names place item)
        stage := .passed } ++ state.tasks.flatMap (Task.at .fresh))).count serial ≤
        if serial < state.started then 1 else 0
    rw [Task.at_passed rfl (by decide), List.nil_append, List.count_append, accepted]
    omega
  · exact inv.ended
  · exact inv.left

theorem Inv.put (inv : Inv system rules (state.resume task)) (sound : Sound system rules)
    {place : Place} {item : Item} {next : Bool → Program Pool Place Item Question Answer Outcome}
    (program : task.program = .put place item next) :
    Inv system rules (proceed system state task answer) := by
  by_cases room : state.length place < system.capacity place
  · exact inv.put_room program room
  · obtain ⟨known, reads, safe⟩ := inv.good.safe
    rw [program] at safe
    have refused := safe.1
    have unbacked : rules.backing place = none := by
      cases backing : rules.backing place with
      | none => rfl
      | some pools => exact absurd (inv.length_lt sound backing) room
    unfold proceed
    rw [program]
    dsimp only
    rw [if_neg room]
    exact inv.same rfl rfl rfl ⟨known, reads, refused unbacked⟩

/-- Whatever a task does next. -/
theorem Inv.proceed (inv : Inv system rules (state.resume task)) (sound : Sound system rules)
    (allowed : match task.program with
      | .ask question _ => rules.answers question answer
      | .clear cell _ => (state.resume task).Unheld system cell
      | _ => True) :
    Inv system rules (proceed system state task answer) := by
  cases program : task.program with
  | done outcome => exact inv.done program
  | alloc pool next => exact inv.alloc program
  | free cell next => exact inv.free program
  | clear cell next =>
      rw [program] at allowed
      exact inv.clear sound program allowed
  | copyIn cell data next => exact inv.copyIn program
  | fetch cell count next => exact inv.fetch program
  | put place item next => exact inv.put sound program
  | ask question next =>
      rw [program] at allowed
      exact inv.ask program allowed
/-! ### Steps of the system -/

theorem Inv.start (inv : Inv system rules state) (sound : Sound system rules) {call : Call}
    (called : rules.calls call) :
    Inv system rules ({ state with started := state.started + 1 }.resume
      { program := system.program call
        holds := []
        origin := ⟨state.started, system.content call⟩
        stage := .fresh }) := by
  constructor
  · intro cell
    rw [count_held_resume]
    exact inv.owned cell
  · exact inv.leakedFair
  · exact inv.entries
  · intro task member
    rcases List.mem_cons.mp member with this | old
    · rw [this]
      refine ⟨fun _ _ _ => Nat.le_refl 0, fun _ => [], ?_, sound.start call called _⟩
      exact fun _ _ none => absurd none List.not_mem_nil
    · exact inv.tasks task old
  · intro serial
    rw [count_located_resume]
    exact inv.placed serial
  · intro serial
    have all := inv.once serial
    show (state.accepted ++ ([state.started] ++ state.tasks.flatMap (Task.at .fresh))).count serial ≤
      if serial < state.started + 1 then 1 else 0
    rw [List.count_append] at all
    rw [List.count_append, List.count_append, List.count_singleton]
    by_cases same : state.started = serial
    · rw [same, if_neg (Nat.lt_irrefl serial)] at all
      rw [same, if_pos (Nat.lt_succ_self serial)]
      simp only [BEq.rfl, ↓reduceIte]
      omega
    · have different : (state.started == serial) = false := by simpa using same
      rw [different]
      simp only [Bool.false_eq_true, ↓reduceIte]
      split at all
      · rw [if_pos (by omega)]
        omega
      · omega
  · exact inv.ended
  · exact inv.left

theorem Inv.take (inv : Inv system rules state) (sound : Sound system rules) {position : Nat}
    {entry : Entry Place Item Content} (found : state.queued[position]? = some entry) :
    Inv system rules ({ state with queued := state.queued.eraseIdx position }.resume
      { program := system.handler entry.place entry.item
        holds := entry.names system
        origin := entry.origin
        stage := .carrying }) := by
  obtain ⟨inside, same⟩ := List.getElem?_eq_some_iff.mp found
  have perm : (entry :: state.queued.eraseIdx position).Perm state.queued := by
    rw [← same]
    exact List.getElem_cons_eraseIdx_perm inside
  have good := inv.entries entry (List.mem_of_getElem? found)
  constructor
  · intro cell
    have before := inv.owned cell
    have names := (perm.flatMap_right (Entry.names system)).count_eq cell
    rw [List.flatMap_cons, List.count_append] at names
    rw [count_held_resume]
    unfold held at before ⊢
    simp only [List.count_append] at before ⊢
    show _ + (entry.names system).count cell =
      if system.memory.marked state.memory cell then 1 else 0
    omega
  · exact inv.leakedFair
  · exact fun other member => inv.entries other (List.eraseIdx_subset member)
  · intro task member
    rcases List.mem_cons.mp member with this | old
    · obtain ⟨known, reads, fit⟩ := good.fit
      rw [this]
      exact ⟨good.fair, known, reads, sound.handle _ _ _ known fit⟩
    · exact inv.tasks task old
  · intro serial
    have before := inv.placed serial
    have serials := (perm.map fun entry => entry.origin.serial).count_eq serial
    rw [List.map_cons, List.count_cons] at serials
    rw [count_located_resume]
    unfold located at before ⊢
    simp only [List.count_append] at before ⊢
    show _ + [entry.origin.serial].count serial = state.accepted.count serial
    rw [List.count_singleton]
    omega
  · intro serial
    exact inv.once serial
  · exact inv.ended
  · exact inv.left

theorem unheld_perm {tasks : List (Task Pool Place Item Question Answer Outcome Content)}
    (perm : state.tasks.Perm tasks) {cell : Cell Pool} (unheld : state.Unheld system cell) :
    State.Unheld system { state with tasks := tasks } cell :=
  ⟨unheld.1, fun task member => unheld.2 task (perm.mem_iff.mpr member)⟩

/-- Every step that the rules allow preserves the invariant. -/
theorem inv_step (sound : Sound system rules) {event : Event Call Answer}
    {next : State Memory Pool Place Item Question Answer Outcome Content}
    (inv : Inv system rules state) (allowed : Allowed system rules state event)
    (taken : step system state event = some next) : Inv system rules next := by
  cases event with
  | start call =>
      rw [← Option.some.inj taken]
      exact inv.start sound allowed
  | take position =>
      obtain ⟨entry, found, taken⟩ := Option.bind_eq_some_iff.mp taken
      split at taken
      · rw [← Option.some.inj taken]
        exact inv.take sound found
      · contradiction
  | advance position answer =>
      obtain ⟨task, found, rfl⟩ := Option.map_eq_some_iff.mp taken
      obtain ⟨inside, same⟩ := List.getElem?_eq_some_iff.mp found
      have perm : state.tasks.Perm (task :: state.tasks.eraseIdx position) := by
        rw [← same]
        exact (List.getElem_cons_eraseIdx_perm inside).symm
      have possible := allowed task found
      have apart : Inv system rules
          ({ state with tasks := state.tasks.eraseIdx position }.resume task) := inv.perm perm
      apply apart.proceed sound
      cases program : task.program with
      | clear cell next =>
          rw [program] at possible
          exact unheld_perm perm possible
      | ask question next =>
          rw [program] at possible
          exact possible
      | _ => trivial

/-- Where no marks are cleared, what is left behind stays left behind. -/
theorem Inv.leaked_suffix (inv : Inv system rules state) (unclears : ¬ rules.clears)
    {event : Event Call Answer}
    {next : State Memory Pool Place Item Question Answer Outcome Content}
    (taken : step system state event = some next) : state.leaked <:+ next.leaked := by
  cases event with
  | start call =>
      rw [← Option.some.inj taken]
      exact List.suffix_refl _
  | take position =>
      obtain ⟨entry, found, taken⟩ := Option.bind_eq_some_iff.mp taken
      split at taken
      · rw [← Option.some.inj taken]
        exact List.suffix_refl _
      · contradiction
  | advance position answer =>
      obtain ⟨task, found, rfl⟩ := Option.map_eq_some_iff.mp taken
      obtain ⟨known, _, safe⟩ := (inv.tasks task (List.mem_of_getElem? found)).safe
      unfold Party.proceed
      cases program : task.program with
      | done outcome => exact List.suffix_append _ _
      | clear cell next =>
          rw [program] at safe
          exact absurd safe.1 unclears
      | alloc pool next =>
          dsimp only
          split
          · exact List.suffix_refl _
          · exact List.suffix_refl _
      | put place item next =>
          dsimp only
          split
          · exact List.suffix_refl _
          · exact List.suffix_refl _
      | free cell next => exact List.suffix_refl _
      | copyIn cell data next => exact List.suffix_refl _
      | fetch cell count next => exact List.suffix_refl _
      | ask question next => exact List.suffix_refl _

end

end MiniMs.Library.Custody
