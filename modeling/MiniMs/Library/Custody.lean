import MiniMs.Library.Party

/-!
Custody of the cells that parties share.

Owns: the rules that a system's parties keep, what it means that a program keeps
them, the invariant that follows (every marked cell has one holder, the bytes
behind every item are those of its message, and every accepted message is in one
place), and what it says of a state.

The rules are parameters: what the answers from outside can be, what an item
stands for, which queues have room by themselves, and which pools are never full
because whoever holds a cell of them holds one of another pool, too.
-/

set_option linter.unusedSectionVars false

namespace MiniMs.Library.Custody

open MiniMs.Library.Text MiniMs.Library.Slots MiniMs.Library.Party

/-- What the parties rely on and keep to. -/
structure Rules (Pool Place Item Question Answer Outcome Content Call : Type) where
  calls : Call → Prop
  answers : Question → Answer → Prop
  /-- What a party can ask about a message. -/
  asks : Question → Content → Prop
  /-- Whether bytes are kept track of. -/
  contents : Prop
  /-- What an item in a queue is, for a message and the bytes of its cells. -/
  Fit : Place → Item → Content → (Cell Pool → Bytes) → Prop
  /-- Whether marks are cleared. -/
  clears : Prop
  /-- Whoever holds cells of the first pool holds as many of the second. -/
  under : Pool → Pool → Prop
  /-- The pools of which every item in a queue has a cell. -/
  backing : Place → Option (List Pool)
  /-- How a party can end with a message. -/
  ends : Outcome → Prop
  /-- Whether it is kept track of who leaves cells behind. -/
  tidy : Prop
  /-- How a party that ends with a message can leave cells behind. -/
  leaves : Outcome → Prop

section

variable {Memory Pool Place Item Question Answer Outcome Content Call : Type}
  [DecidableEq Pool] [DecidableEq Place]
  (system : System Memory Pool Place Item Question Answer Outcome Content Call)
  (rules : Rules Pool Place Item Question Answer Outcome Content Call)

def Rules.Fair (cells : List (Cell Pool)) : Prop :=
  ∀ lesser greater, rules.under lesser greater → countIn lesser cells ≤ countIn greater cells

/-- A cell of a pool that a queue relies on. -/
def Rules.Backed (place : Place) (cells : List (Cell Pool)) : Prop :=
  ∀ pools, rules.backing place = some pools → ∃ cell ∈ cells, cell.pool ∈ pools

variable {rules} in
theorem Rules.Fair.perm {cells order : List (Cell Pool)} (fair : rules.Fair cells)
    (perm : cells.Perm order) : rules.Fair order := by
  intro lesser greater under
  have few := fair lesser greater under
  unfold countIn at few ⊢
  rw [← perm.countP_eq, ← perm.countP_eq]
  exact few

/-! ### Programs that keep the rules -/

/-- The program keeps the rules where it holds the given cells with the given
bytes, whatever the others do. -/
def Safe (content : Content) :
    Program Pool Place Item Question Answer Outcome → List (Cell Pool) → (Cell Pool → Bytes) →
      Stage → Prop
  | .done outcome, holds, _, stage =>
      (stage = .carrying → rules.ends outcome) ∧
        (rules.tidy → holds ≠ [] → stage = .carrying ∧ rules.leaves outcome)
  | .alloc pool next, holds, known, stage =>
      ((∀ greater, rules.under pool greater → countIn greater holds ≤ countIn pool holds) →
        Safe content (next none) holds known stage) ∧
      ∀ index < system.memory.numSlots, (⟨pool, index⟩ : Cell Pool) ∉ holds →
        rules.Fair (⟨pool, index⟩ :: holds) ∧
          Safe content (next (some index)) (⟨pool, index⟩ :: holds)
            (Function.update known ⟨pool, index⟩ []) stage
  | .free cell next, holds, known, stage =>
      cell ∈ holds ∧ rules.Fair (holds.erase cell) ∧
        Safe content next (holds.erase cell) known stage
  | .clear cell next, holds, known, stage =>
      rules.clears ∧ cell.index < system.memory.numSlots ∧ Safe content next holds known stage
  | .copyIn cell data next, holds, known, stage =>
      cell ∈ holds ∧ (rules.contents → data.length ≤ system.memory.slotSize) ∧
        Safe content next holds (Function.update known cell data) stage
  | .fetch cell count next, holds, known, stage =>
      ∀ data : Bytes, data.length = count →
        (rules.contents → cell ∈ holds → count ≤ (known cell).length →
          data = (known cell).take count) →
        Safe content (next data) holds known stage
  | .put place item next, holds, known, stage =>
      (rules.backing place = none → Safe content (next false) holds known stage) ∧
      stage ≠ .passed ∧ (system.names place item).Subperm holds ∧
        rules.Fair (system.names place item) ∧ rules.Backed place (system.names place item) ∧
        rules.Fair (holds.diff (system.names place item)) ∧
        rules.Fit place item content known ∧
        Safe content (next true) (holds.diff (system.names place item)) known .passed
  | .ask question next, holds, known, stage =>
      rules.asks question content ∧
        ∀ answer, rules.answers question answer → Safe content (next answer) holds known stage

variable {system rules} in
/-- The order of the cells does not matter. -/
theorem Safe.perm {content : Content}
    {program : Program Pool Place Item Question Answer Outcome} {holds order : List (Cell Pool)}
    {known : Cell Pool → Bytes} {stage : Stage}
    (safe : Safe system rules content program holds known stage) (perm : holds.Perm order) :
    Safe system rules content program order known stage := by
  have counts : ∀ pool, countIn pool holds = countIn pool order := fun _ => perm.countP_eq _
  induction program generalizing holds order known stage with
  | done outcome =>
      refine ⟨safe.1, fun tidy something => safe.2 tidy fun nothing => something ?_⟩
      rw [nothing] at perm
      exact perm.nil_eq.symm
  | alloc pool next inductionHypothesis =>
      obtain ⟨refused, granted⟩ := safe
      constructor
      · intro most
        refine inductionHypothesis none (refused fun greater under => ?_) perm counts
        rw [counts, counts]
        exact most greater under
      · intro index inside fresh
        obtain ⟨fair, rest⟩ := granted index inside fun member => fresh (perm.mem_iff.mp member)
        have longer := perm.cons ⟨pool, index⟩
        refine ⟨fair.perm longer, inductionHypothesis (some index) rest longer fun _ => ?_⟩
        exact longer.countP_eq _
  | free cell next inductionHypothesis =>
      obtain ⟨held, fair, rest⟩ := safe
      have shorter := perm.erase cell
      refine ⟨perm.mem_iff.mp held, fair.perm shorter, inductionHypothesis rest shorter fun _ => ?_⟩
      exact shorter.countP_eq _
  | clear cell next inductionHypothesis =>
      obtain ⟨clears, inside, rest⟩ := safe
      exact ⟨clears, inside, inductionHypothesis rest perm counts⟩
  | copyIn cell data next inductionHypothesis =>
      obtain ⟨held, short, rest⟩ := safe
      exact ⟨perm.mem_iff.mp held, short, inductionHypothesis rest perm counts⟩
  | fetch cell count next inductionHypothesis =>
      intro data length bytes
      refine inductionHypothesis data (safe data length fun contents held => ?_) perm counts
      exact bytes contents (perm.mem_iff.mp held)
  | put place item next inductionHypothesis =>
      obtain ⟨refused, notPassed, within, fair, backed, restFair, fit, rest⟩ := safe
      have shorter := perm.diff_right (system.names place item)
      refine ⟨fun unbacked => inductionHypothesis false (refused unbacked) perm counts, notPassed,
        (perm.subperm_left).mp within, fair, backed, restFair.perm shorter, fit, ?_⟩
      exact inductionHypothesis true rest shorter fun _ => shorter.countP_eq _
  | ask question next inductionHypothesis =>
      obtain ⟨asked, rest⟩ := safe
      exact ⟨asked, fun answer possible => inductionHypothesis answer (rest answer possible) perm counts⟩

/-- Every program of the system keeps the rules, and the queues that have room
by themselves are large enough. -/
structure Sound : Prop where
  start : ∀ call, rules.calls call → ∀ known,
    Safe system rules (system.content call) (system.program call) [] known .fresh
  handle : ∀ place item content known, rules.Fit place item content known →
    Safe system rules content (system.handler place item) (system.names place item) known .carrying
  room : ∀ place pools, rules.backing place = some pools →
    pools.length * system.memory.numSlots < system.capacity place
  cleared : rules.clears → ∀ lesser greater, ¬ rules.under lesser greater

/-! ### The invariant -/

/-- The cells begin with the bytes. -/
def Reads (memory : Memory) (cells : List (Cell Pool)) (known : Cell Pool → Bytes) : Prop :=
  rules.contents → ∀ cell ∈ cells, (known cell).length ≤ system.memory.slotSize ∧
    system.memory.fetch memory cell (known cell).length = known cell

structure EntryGood (memory : Memory) (entry : Entry Place Item Content) : Prop where
  fair : rules.Fair (entry.names system)
  backed : rules.Backed entry.place (entry.names system)
  fit : ∃ known, Reads system rules memory (entry.names system) known ∧
    rules.Fit entry.place entry.item entry.origin.content known

structure TaskGood (memory : Memory)
    (task : Task Pool Place Item Question Answer Outcome Content) : Prop where
  fair : rules.Fair task.holds
  safe : ∃ known, Reads system rules memory task.holds known ∧
    Safe system rules task.origin.content task.program task.holds known task.stage

/-- Every cell that is referred to or held, as often as it is. -/
def held (state : State Memory Pool Place Item Question Answer Outcome Content) :
    List (Cell Pool) :=
  state.queued.flatMap (Entry.names system) ++ (state.tasks.flatMap Task.holds ++ state.leaked)

/-- The message of a task that is in the given stage. -/
def Task.at (stage : Stage) (task : Task Pool Place Item Question Answer Outcome Content) :
    List Nat :=
  if task.stage = stage then [task.origin.serial] else []

/-- Every message, as often as it is somewhere. -/
def located (state : State Memory Pool Place Item Question Answer Outcome Content) : List Nat :=
  state.queued.map (fun entry => entry.origin.serial) ++
    (state.tasks.flatMap (Task.at .carrying) ++ state.ended.map fun pair => pair.1.serial)

structure Inv (state : State Memory Pool Place Item Question Answer Outcome Content) : Prop where
  /-- A cell is marked exactly when someone has it, and then only one has it. -/
  owned : ∀ cell, (held system state).count cell =
    if system.memory.marked state.memory cell then 1 else 0
  leakedFair : rules.Fair state.leaked
  entries : ∀ entry ∈ state.queued, EntryGood system rules state.memory entry
  tasks : ∀ task ∈ state.tasks, TaskGood system rules state.memory task
  /-- An accepted message is in one place, and no other message is anywhere. -/
  placed : ∀ serial, (located state).count serial = state.accepted.count serial
  once : ∀ serial, (state.accepted ++ state.tasks.flatMap (Task.at .fresh)).count serial ≤
    if serial < state.started then 1 else 0
  ended : ∀ pair ∈ state.ended, rules.ends pair.2
  /-- Where nobody left cells behind, there are none. -/
  left : rules.tidy → (∀ pair ∈ state.ended, ¬ rules.leaves pair.2) → state.leaked = []

/-- The step is one that the rules allow. -/
def Allowed (state : State Memory Pool Place Item Question Answer Outcome Content) :
    Event Call Answer → Prop
  | .start call => rules.calls call
  | .take _ => True
  | .advance position answer =>
      ∀ task, state.tasks[position]? = some task →
        match task.program with
        | .ask question _ => rules.answers question answer
        | .clear cell _ => state.Unheld system cell
        | _ => True

/-! ### One task beside the others -/

section Frames

variable {system rules} {state : State Memory Pool Place Item Question Answer Outcome Content}
  {task task' : Task Pool Place Item Question Answer Outcome Content}

theorem count_held_resume (cell : Cell Pool) :
    (held system (state.resume task)).count cell =
      (held system state).count cell + task.holds.count cell := by
  unfold held State.resume
  simp only [List.flatMap_cons, List.count_append]
  omega

theorem count_located_resume (serial : Nat) :
    (located (state.resume task)).count serial =
      (located state).count serial + (Task.at .carrying task).count serial := by
  unfold located State.resume
  simp only [List.flatMap_cons, List.count_append]
  omega

theorem mem_held_of_entry (state : State Memory Pool Place Item Question Answer Outcome Content)
    {entry : Entry Place Item Content} (member : entry ∈ state.queued) {cell : Cell Pool}
    (named : cell ∈ entry.names system) : cell ∈ held system state :=
  List.mem_append_left _ (List.mem_flatMap.mpr ⟨entry, member, named⟩)

theorem mem_held_of_task (state : State Memory Pool Place Item Question Answer Outcome Content)
    {other : Task Pool Place Item Question Answer Outcome Content} (member : other ∈ state.tasks)
    {cell : Cell Pool} (holds : cell ∈ other.holds) : cell ∈ held system state :=
  List.mem_append_right _ (List.mem_append_left _ (List.mem_flatMap.mpr ⟨other, member, holds⟩))

theorem EntryGood.frame {memory after : Memory} {entry : Entry Place Item Content}
    (good : EntryGood system rules memory entry)
    (same : rules.contents → ∀ cell ∈ entry.names system, ∀ count ≤ system.memory.slotSize,
      system.memory.fetch after cell count = system.memory.fetch memory cell count) :
    EntryGood system rules after entry where
  fair := good.fair
  backed := good.backed
  fit := by
    obtain ⟨known, reads, fit⟩ := good.fit
    refine ⟨known, fun contents cell named => ?_, fit⟩
    obtain ⟨short, begins⟩ := reads contents cell named
    exact ⟨short, (same contents cell named _ short).trans begins⟩

theorem TaskGood.frame {memory after : Memory} (good : TaskGood system rules memory task)
    (same : rules.contents → ∀ cell ∈ task.holds, ∀ count ≤ system.memory.slotSize,
      system.memory.fetch after cell count = system.memory.fetch memory cell count) :
    TaskGood system rules after task where
  fair := good.fair
  safe := by
    obtain ⟨known, reads, safe⟩ := good.safe
    refine ⟨known, fun contents cell holds => ?_, safe⟩
    obtain ⟨short, begins⟩ := reads contents cell holds
    exact ⟨short, (same contents cell holds _ short).trans begins⟩

/-- The order of the tasks does not matter. -/
theorem Inv.perm (inv : Inv system rules state)
    {tasks : List (Task Pool Place Item Question Answer Outcome Content)}
    (perm : state.tasks.Perm tasks) : Inv system rules { state with tasks := tasks } where
  owned := by
    intro cell
    have holds := (perm.flatMap_right Task.holds).count_eq cell
    have before := inv.owned cell
    unfold held at before ⊢
    simp only [List.count_append] at before ⊢
    rw [← holds]
    exact before
  leakedFair := inv.leakedFair
  entries := inv.entries
  tasks := fun task member => inv.tasks task (perm.mem_iff.mpr member)
  placed := by
    intro serial
    have carried := (perm.flatMap_right (Task.at .carrying)).count_eq serial
    have before := inv.placed serial
    unfold located at before ⊢
    simp only [List.count_append] at before ⊢
    rw [← carried]
    exact before
  once := by
    intro serial
    have fresh := (perm.flatMap_right (Task.at .fresh)).count_eq serial
    have before := inv.once serial
    rw [List.count_append] at before ⊢
    rw [← fresh]
    exact before
  ended := inv.ended
  left := inv.left

/-- What one task does to the memory, with the others and the queues as they
were. -/
theorem Inv.change (inv : Inv system rules (state.resume task)) {memory : Memory}
    {leaked : List (Cell Pool)} (origin : task'.origin = task.origin)
    (stage : task'.stage = task.stage)
    (owned : ∀ cell, (held system { state with memory := memory, leaked := leaked }).count cell +
      task'.holds.count cell = if system.memory.marked memory cell then 1 else 0)
    (fair : rules.Fair leaked) (left : state.leaked = [] → leaked = [])
    (same : rules.contents → ∀ cell ∈ held system state, ∀ count ≤ system.memory.slotSize,
      system.memory.fetch memory cell count = system.memory.fetch state.memory cell count)
    (good : TaskGood system rules memory task') :
    Inv system rules ({ state with memory := memory, leaked := leaked }.resume task') where
  owned := fun cell => count_held_resume cell |>.trans (owned cell)
  leakedFair := fair
  entries := by
    intro entry member
    refine (inv.entries entry member).frame fun contents cell named => ?_
    exact same contents cell (mem_held_of_entry state member named)
  tasks := by
    intro other member
    rcases List.mem_cons.mp member with this | old
    · rw [this]
      exact good
    · refine (inv.tasks other (List.mem_cons_of_mem _ old)).frame fun contents cell holds => ?_
      exact same contents cell (mem_held_of_task state old holds)
  placed := by
    have carried : Task.at .carrying task' = Task.at .carrying task := by
      unfold Task.at
      rw [origin, stage]
    intro serial
    have before := inv.placed serial
    rw [count_located_resume] at before ⊢
    rw [carried]
    exact before
  once := by
    have fresh : Task.at .fresh task' = Task.at .fresh task := by
      unfold Task.at
      rw [origin, stage]
    intro serial
    have before := inv.once serial
    unfold State.resume at before ⊢
    rw [List.flatMap_cons] at before ⊢
    rw [fresh]
    exact before
  ended := inv.ended
  left := fun tidy clean => left (inv.left tidy clean)

/-! ### What a task knows of the others -/

theorem Inv.count (inv : Inv system rules (state.resume task)) (cell : Cell Pool) :
    (held system state).count cell + task.holds.count cell =
      if system.memory.marked state.memory cell then 1 else 0 := by
  rw [← count_held_resume]
  exact inv.owned cell

theorem Inv.good (inv : Inv system rules (state.resume task)) :
    TaskGood system rules state.memory task := inv.tasks task List.mem_cons_self

/-- Nobody else has what a task holds. -/
theorem Inv.apart (inv : Inv system rules (state.resume task)) {cell : Cell Pool}
    (holds : cell ∈ task.holds) :
    system.memory.marked state.memory cell = true ∧ cell ∉ held system state := by
  have total := inv.count cell
  have own := List.count_pos_iff.mpr holds
  cases marked : system.memory.marked state.memory cell with
  | true =>
      rw [marked, if_pos rfl] at total
      exact ⟨rfl, List.count_eq_zero.mp (by omega)⟩
  | false =>
      rw [marked, if_neg Bool.false_ne_true] at total
      omega

/-- Nobody has a free cell. -/
theorem Inv.free_notMem (inv : Inv system rules state) {cell : Cell Pool}
    (free : system.memory.marked state.memory cell = false) : cell ∉ held system state := by
  have total := inv.owned cell
  rw [free, if_neg Bool.false_ne_true] at total
  exact List.count_eq_zero.mp total

theorem Inv.nodup (inv : Inv system rules state) : (held system state).Nodup := by
  rw [List.nodup_iff_count_le_one]
  intro cell
  rw [inv.owned cell]
  split
  · exact Nat.le_refl 1
  · exact Nat.zero_le 1

theorem Inv.marked (inv : Inv system rules state) {cell : Cell Pool}
    (member : cell ∈ held system state) : system.memory.marked state.memory cell = true := by
  by_contra free
  exact inv.free_notMem (Bool.eq_false_iff.mpr free) member

theorem Inv.countIn_le (inv : Inv system rules state) (pool : Pool) :
    countIn pool (held system state) ≤ system.memory.numSlots :=
  Slots.countIn_le inv.nodup fun _ member => system.memory.inside (inv.marked member)

/-- A full pool has all its cells with somebody. -/
theorem Inv.le_countIn (inv : Inv system rules state) {pool : Pool}
    (full : ∀ index < system.memory.numSlots,
      system.memory.marked state.memory ⟨pool, index⟩ = true) :
    system.memory.numSlots ≤ countIn pool (held system state) := by
  apply Slots.le_countIn
  intro index below
  have total := inv.owned ⟨pool, index⟩
  rw [full index below, if_pos rfl] at total
  exact List.count_pos_iff.mp (by omega)

theorem Rules.Fair.append {front back : List (Cell Pool)} (first : rules.Fair front)
    (second : rules.Fair back) : rules.Fair (front ++ back) := by
  intro lesser greater under
  rw [countIn_append, countIn_append]
  exact Nat.add_le_add (first lesser greater under) (second lesser greater under)

theorem Rules.Fair.flatMap {Owner : Type} {owners : List Owner} {cells : Owner → List (Cell Pool)}
    (each : ∀ owner ∈ owners, rules.Fair (cells owner)) : rules.Fair (owners.flatMap cells) := by
  intro lesser greater under
  rw [countIn_flatMap, countIn_flatMap]
  exact List.sum_le_sum fun owner member => each owner member lesser greater under

/-- The others hold as many cells of the second pool as of the first. -/
theorem Inv.fair_held (inv : Inv system rules (state.resume task)) :
    rules.Fair (held system state) := by
  have entries : rules.Fair (state.queued.flatMap (Entry.names system)) :=
    Rules.Fair.flatMap fun entry member => (inv.entries entry member).fair
  have tasks : rules.Fair (state.tasks.flatMap Task.holds) :=
    Rules.Fair.flatMap fun other member => (inv.tasks other (List.mem_cons_of_mem _ member)).fair
  exact entries.append (tasks.append inv.leakedFair)

theorem countIn_held_resume (pool : Pool) :
    countIn pool (held system (state.resume task)) =
      countIn pool (held system state) + countIn pool task.holds := by
  unfold held State.resume
  simp only [List.flatMap_cons, countIn_append]
  omega

/-- A pool that is under another one is not full for a task that holds less of
it than of the other. -/
theorem Inv.not_full (inv : Inv system rules (state.resume task)) {pool greater : Pool}
    (under : rules.under pool greater)
    (full : ∀ index < system.memory.numSlots,
      system.memory.marked state.memory ⟨pool, index⟩ = true) :
    countIn greater task.holds ≤ countIn pool task.holds := by
  have others := inv.fair_held pool greater under
  have all := inv.le_countIn full
  have most := inv.countIn_le greater
  rw [countIn_held_resume] at all most
  omega
/-! ### What the invariant says -/

/-- Owners that each have a cell of some kind are no more than the cells of that
kind. -/
theorem countP_le_flatMap {Owner : Type} {owners : List Owner} {chosen : Owner → Bool}
    {cells : Owner → List (Cell Pool)} {kind : Cell Pool → Bool}
    (each : ∀ owner ∈ owners, chosen owner = true → ∃ cell ∈ cells owner, kind cell = true) :
    owners.countP chosen ≤ (owners.flatMap cells).countP kind := by
  induction owners with
  | nil => exact Nat.le_refl 0
  | cons owner rest inductionHypothesis =>
      have others := inductionHypothesis fun other member => each other (List.mem_cons_of_mem _ member)
      rw [List.countP_cons, List.flatMap_cons, List.countP_append]
      by_cases taken : chosen owner = true
      · have own := List.countP_pos_iff.mpr (each owner List.mem_cons_self taken)
        rw [if_pos taken]
        omega
      · rw [if_neg taken]
        omega

/-- Where a queue has room by itself, its items have distinct cells of few
pools. -/
theorem Inv.length_lt (inv : Inv system rules state) (sound : Sound system rules) {place : Place}
    {pools : List Pool} (backing : rules.backing place = some pools) :
    state.length place < system.capacity place := by
  have few := countP_mem_le pools inv.countIn_le
  have room := sound.room place pools backing
  have each : state.length place ≤
      (state.queued.flatMap (Entry.names system)).countP fun cell => cell.pool ∈ pools := by
    refine countP_le_flatMap fun entry member there => ?_
    have place : entry.place = place := by simpa using there
    obtain ⟨cell, named, among⟩ := (inv.entries entry member).backed pools (place ▸ backing)
    exact ⟨cell, named, by simpa using among⟩
  unfold held at few
  rw [List.countP_append] at few
  omega

theorem inv_initial {memory : Memory} (free : ∀ cell, system.memory.marked memory cell = false) :
    Inv system rules { memory := memory } where
  owned := by
    intro cell
    rw [free cell]
    rfl
  leakedFair := fun _ _ _ => Nat.le_refl 0
  entries := fun _ none => absurd none List.not_mem_nil
  tasks := fun _ none => absurd none List.not_mem_nil
  placed := fun _ => rfl
  once := fun _ => Nat.zero_le _
  ended := fun _ none => absurd none List.not_mem_nil
  left := fun _ _ => rfl

/-- Nobody has the cell that the next allocation gives. -/
theorem Inv.exclusive (inv : Inv system rules state) : Exclusive system state := by
  intro task _ pool next _ index granted
  have free := (system.memory.alloc_some (Prod.ext granted rfl)).2.1
  have absent := inv.free_notMem free
  constructor
  · exact fun entry member named => absent (mem_held_of_entry state member named)
  · exact fun other member holds => absent (mem_held_of_task state member holds)

/-- What a task asks is something that can be asked about its message. -/
theorem Inv.asks (inv : Inv system rules state) (member : task ∈ state.tasks) {question : Question}
    {next : Answer → Program Pool Place Item Question Answer Outcome}
    (program : task.program = .ask question next) : rules.asks question task.origin.content := by
  obtain ⟨known, _, safe⟩ := (inv.tasks task member).safe
  rw [program] at safe
  exact safe.1

/-- The bytes behind an item are those of its message. -/
theorem Inv.fit (inv : Inv system rules state) (contents : rules.contents)
    {entry : Entry Place Item Content} (member : entry ∈ state.queued) :
    ∃ known, rules.Fit entry.place entry.item entry.origin.content known ∧
      ∀ cell ∈ entry.names system,
        system.memory.fetch state.memory cell (known cell).length = known cell := by
  obtain ⟨known, reads, fit⟩ := (inv.entries entry member).fit
  exact ⟨known, fit, fun cell named => (reads contents cell named).2⟩

theorem length_filter_serial {Owner : Type} (owners : List Owner) (serialOf : Owner → Nat)
    (serial : Nat) :
    (owners.filter fun owner => serialOf owner = serial).length =
      (owners.map serialOf).count serial := by
  rw [← List.countP_eq_length_filter, List.count_eq_countP, List.countP_map]
  apply List.countP_congr
  intro owner _
  simp

theorem length_filter_carrying
    (tasks : List (Task Pool Place Item Question Answer Outcome Content)) (serial : Nat) :
    (tasks.filter fun task => task.stage = .carrying ∧ task.origin.serial = serial).length =
      (tasks.flatMap (Task.at .carrying)).count serial := by
  induction tasks with
  | nil => rfl
  | cons task rest inductionHypothesis =>
      rw [List.flatMap_cons, List.count_append, ← inductionHypothesis, List.filter_cons]
      unfold Task.at
      by_cases carrying : task.stage = .carrying
      · by_cases same : task.origin.serial = serial
        · simp [carrying, same]
          omega
        · simp [carrying, same]
      · simp [carrying]

theorem length_sightings (state : State Memory Pool Place Item Question Answer Outcome Content)
    (serial : Nat) : (state.sightings serial).length = (located state).count serial := by
  unfold State.sightings located
  simp only [List.length_append, List.length_map, List.count_append]
  rw [length_filter_serial, length_filter_carrying, length_filter_serial]
  omega

/-- The items that each have a cell of a pool are, with the cells of it that were
left behind, no more than its slots. -/
theorem Inv.backed_le (inv : Inv system rules state) {pool : Pool}
    {chosen : Entry Place Item Content → Bool}
    (backed : ∀ entry ∈ state.queued, chosen entry = true →
      rules.backing entry.place = some [pool]) :
    countIn pool state.leaked + state.queued.countP chosen ≤ system.memory.numSlots := by
  have each : state.queued.countP chosen ≤
      countIn pool (state.queued.flatMap (Entry.names system)) := by
    refine countP_le_flatMap fun entry member picked => ?_
    obtain ⟨cell, named, among⟩ := (inv.entries entry member).backed _ (backed entry member picked)
    exact ⟨cell, named, by simpa using among⟩
  have most := inv.countIn_le pool
  unfold held at most
  rw [countIn_append, countIn_append] at most
  omega

/-- Where all is done, and nobody left cells behind, no cell is marked. -/
theorem Inv.unmarked (inv : Inv system rules state) (tidy : rules.tidy)
    (queued : state.queued = []) (tasks : state.tasks = [])
    (clean : ∀ pair ∈ state.ended, ¬ rules.leaves pair.2) (cell : Cell Pool) :
    system.memory.marked state.memory cell = false := by
  have owned := inv.owned cell
  unfold held at owned
  rw [queued, tasks, inv.left tidy clean] at owned
  cases marked : system.memory.marked state.memory cell with
  | true =>
      rw [marked] at owned
      cases owned
  | false => rfl

/-- An accepted message is in one place. -/
theorem Inv.sighting (inv : Inv system rules state) {serial : Nat}
    (accepted : serial ∈ state.accepted) :
    ∃ sighting, state.sightings serial = [sighting] ∧
      ∀ outcome, sighting = .ended outcome → rules.ends outcome := by
  have once := inv.once serial
  have most : (if serial < state.started then 1 else 0) ≤ 1 := by
    split
    · exact Nat.le_refl 1
    · exact Nat.zero_le 1
  have least := List.count_pos_iff.mpr accepted
  rw [List.count_append] at once
  have length : (state.sightings serial).length = 1 := by
    rw [length_sightings, inv.placed serial]
    omega
  obtain ⟨sighting, only⟩ := List.length_eq_one_iff.mp length
  refine ⟨sighting, only, fun outcome shape => ?_⟩
  have member : Sighting.ended outcome ∈ state.sightings serial := by
    rw [only, shape]
    exact List.mem_singleton_self _
  unfold State.sightings at member
  simp only [List.mem_append, List.mem_map, reduceCtorEq, and_false, exists_false, false_or,
    Sighting.ended.injEq] at member
  obtain ⟨pair, there, same⟩ := member
  rw [← same]
  exact inv.ended pair (List.mem_filter.mp there).1

end Frames

end

end MiniMs.Library.Custody
