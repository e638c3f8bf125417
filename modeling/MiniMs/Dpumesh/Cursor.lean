import MiniMs.Dpumesh.BufferPool
import MiniMs.Library.Run

/-!
One Python `BufferPool` object used by several threads: a mapped memory with a
single cursor that `seek`, `read` and `write` share.

Owns: the cursor operations of the mapping, the four methods cut into their
cursor steps, the file lock that `alloc` and `free` hold, and the condition on
a run under which every access is made in its own place.

Each cursor operation is one step, as the interpreter lock makes it; `flush`
changes nothing here.
-/

namespace MiniMs.Dpumesh.Cursor

open MiniMs.Library.Text MiniMs.Library.Run

/-! ### The mapping -/

/-- `total_size`. -/
def totalSize : Nat := numSlots + numSlots * slotSize

/-- `mmap.mmap`: the memory and the cursor. -/
structure Mapping where
  pool : BufferPool
  pos : Nat

def Mapping.seek (mapping : Mapping) (pos : Nat) : Mapping := { mapping with pos := pos }

/-- `read` stops at the end of the mapping. -/
def Mapping.read (mapping : Mapping) (count : Nat) : Bytes × Mapping :=
  let data := mapping.pool.bytesAt mapping.pos (min count (totalSize - mapping.pos))
  (data, { mapping with pos := mapping.pos + data.length })

/-- `write` raises, and changes nothing, past the end of the mapping. -/
def Mapping.write (mapping : Mapping) (data : Bytes) : Mapping :=
  if mapping.pos + data.length ≤ totalSize then
    ⟨mapping.pool.copyIn mapping.pos data, mapping.pos + data.length⟩
  else mapping

/-! ### The methods, step by step -/

inductive Call where
  | alloc
  | free (slot : Int)
  | write (slot : Int) (data : Bytes)
  | read (slot : Int) (length : Nat)

/-- One access of a method, made right after a seek to its place. -/
inductive Task where
  | bitmap
  | mark (slot : Fin numSlots) (byte : UInt8)
  | store (slot : Fin numSlots) (data : Bytes) (fits : data.length ≤ slotSize)
  | fetch (slot : Fin numSlots) (count : Nat) (fits : count ≤ slotSize)

/-- Where the method seeks to. -/
def Task.target : Task → Nat
  | .bitmap => 0
  | .mark slot _ => slot
  | .store slot _ _ => BufferPool.offset slot
  | .fetch slot _ _ => BufferPool.offset slot

/-- What a thread does next. -/
inductive Pc where
  | idle
  | allocating
  | freeing (slot : Fin numSlots)
  | seek (task : Task)
  | access (task : Task)
  | leave

/-- A method call up to its first step: the checks that need no memory. -/
def enter : Call → Pc
  | .alloc => .allocating
  | .free slot =>
      if range : 0 ≤ slot ∧ slot < numSlots then .freeing ⟨slot.toNat, by omega⟩ else .idle
  | .write slot data =>
      if range : 0 ≤ slot ∧ slot < numSlots then
        if fits : data.length ≤ slotSize then .seek (.store ⟨slot.toNat, by omega⟩ data fits)
        else .idle
      else .idle
  | .read slot length =>
      if range : 0 ≤ slot ∧ slot < numSlots then
        .seek (.fetch ⟨slot.toNat, by omega⟩ (min length slotSize) (Nat.min_le_right _ _))
      else .idle

/-- An access that was made: the memory before and after, and what was read. -/
structure Access where
  task : Task
  before : BufferPool
  after : BufferPool
  result : Bytes

structure State where
  mapping : Mapping
  lock : Option Nat
  threads : Nat → Pc
  accesses : List Access

def start (pool : BufferPool) : State := ⟨⟨pool, 0⟩, none, fun _ => .idle, []⟩

/-- What a task does at the cursor. -/
def Task.perform (task : Task) (mapping : Mapping) : Bytes × Mapping :=
  match task with
  | .bitmap => mapping.read numSlots
  | .mark _ byte => ([], mapping.write [byte])
  | .store _ data _ => ([], mapping.write data)
  | .fetch _ count _ => mapping.read count

/-- Where the method goes on: after its scan `alloc` marks the slot it found. -/
def Task.next (task : Task) (result : Bytes) : Pc :=
  match task with
  | .bitmap =>
      match result.findIdx? (· = 0) with
      | some slot => if below : slot < numSlots then .seek (.mark ⟨slot, below⟩ 1) else .leave
      | none => .leave
  | .mark _ _ => .leave
  | .store _ _ _ => .idle
  | .fetch _ _ _ => .idle

def advance (state : State) (thread : Nat) : Option State :=
  match state.threads thread with
  | .idle => none
  | .allocating =>
      if state.lock.isSome then none
      else some { state with
        lock := some thread
        threads := Function.update state.threads thread (.seek .bitmap) }
  | .freeing slot =>
      if state.lock.isSome then none
      else some { state with
        lock := some thread
        threads := Function.update state.threads thread (.seek (.mark slot 0)) }
  | .seek task =>
      some { state with
        mapping := state.mapping.seek task.target
        threads := Function.update state.threads thread (.access task) }
  | .access task =>
      let (result, mapping) := task.perform state.mapping
      some { state with
        mapping := mapping
        threads := Function.update state.threads thread (task.next result)
        accesses := state.accesses ++ [⟨task, state.mapping.pool, mapping.pool, result⟩] }
  | .leave =>
      some { state with
        lock := none
        threads := Function.update state.threads thread .idle }

inductive Event where
  | begin (thread : Nat) (call : Call)
  | advance (thread : Nat)

def step (state : State) : Event → Option State
  | .begin thread call =>
      match state.threads thread with
      | .idle => some { state with threads := Function.update state.threads thread (enter call) }
      | _ => none
  | .advance thread => advance state thread

/-! ### The property and the condition -/

/-- The access was made in its own place: a scan returns the bitmap, a mark
changes the one bitmap byte, a write changes the first bytes of its slot, and a
read returns the first bytes of its slot. -/
def Access.Exact (access : Access) : Prop :=
  match access.task with
  | .bitmap =>
      access.result = access.before.bytesAt 0 numSlots ∧ access.after = access.before
  | .mark slot byte => access.after = access.before.mark slot byte
  | .store slot data _ => access.after = access.before.copyIn (BufferPool.offset slot) data
  | .fetch slot count _ =>
      access.result = access.before.bytesAt (BufferPool.offset slot) count ∧
        access.after = access.before

def AccessesExact (state : State) : Prop := ∀ access ∈ state.accesses, access.Exact

/-- The cursor after the next step of a thread. -/
def cursorAfter (state : State) (thread : Nat) : Nat :=
  ((advance state thread).getD state).mapping.pos

/-- A thread moves the cursor only while no other thread stands between its seek
and the access that belongs to it. -/
def Undisturbed (state : State) : Event → Prop
  | .begin _ _ => True
  | .advance thread =>
      cursorAfter state thread ≠ state.mapping.pos →
        ∀ other, other ≠ thread → ∀ task, state.threads other ≠ .access task

/-! ### One access -/

/-- How many bytes an access covers. -/
def Task.size : Task → Nat
  | .bitmap => numSlots
  | .mark _ _ => 1
  | .store _ data _ => data.length
  | .fetch _ count _ => count

theorem offset_add_slotSize_le (slot : Fin numSlots) :
    BufferPool.offset slot + slotSize ≤ totalSize := by
  have below : slot.val + 1 ≤ numSlots := slot.isLt
  have scaled := Nat.mul_le_mul_right slotSize below
  rw [Nat.succ_mul] at scaled
  unfold BufferPool.offset totalSize
  omega

/-- Every access has its place inside the mapping. -/
theorem Task.inside (task : Task) : task.target + task.size ≤ totalSize := by
  cases task with
  | bitmap =>
      show 0 + numSlots ≤ numSlots + numSlots * slotSize
      omega
  | mark slot byte =>
      have below := slot.isLt
      show slot.val + 1 ≤ numSlots + numSlots * slotSize
      omega
  | store slot data fits =>
      have bound := offset_add_slotSize_le slot
      show BufferPool.offset slot + data.length ≤ totalSize
      omega
  | fetch slot count fits =>
      have bound := offset_add_slotSize_le slot
      show BufferPool.offset slot + count ≤ totalSize
      omega

/-- A read that stays in the mapping is not cut. -/
theorem read_of_le {mapping : Mapping} {count : Nat} (inside : mapping.pos + count ≤ totalSize) :
    mapping.read count =
      (mapping.pool.bytesAt mapping.pos count, { mapping with pos := mapping.pos + count }) := by
  have whole : min count (totalSize - mapping.pos) = count := by omega
  unfold Mapping.read
  dsimp only
  rw [whole, BufferPool.length_bytesAt]

theorem write_of_le {mapping : Mapping} {data : Bytes}
    (inside : mapping.pos + data.length ≤ totalSize) :
    mapping.write data =
      ⟨mapping.pool.copyIn mapping.pos data, mapping.pos + data.length⟩ := by
  unfold Mapping.write
  rw [if_pos inside]

theorem copyIn_singleton (pool : BufferPool) (address : Nat) (byte : UInt8) :
    pool.copyIn address [byte] = pool.mark address byte := by
  unfold BufferPool.copyIn BufferPool.mark
  congr 1
  funext other
  by_cases same : other = address
  · simp [same]
  · have missed : ¬ (address ≤ other ∧ other < address + [byte].length) := by
      rw [List.length_singleton]
      omega
    rw [if_neg missed, Function.update_of_ne same]

/-- An access is exact where the cursor is where the thread left it. -/
theorem exact_perform {task : Task} {mapping : Mapping} (place : mapping.pos = task.target) :
    Access.Exact
      ⟨task, mapping.pool, (task.perform mapping).2.pool, (task.perform mapping).1⟩ := by
  have inside := task.inside
  rw [← place] at inside
  cases task with
  | bitmap =>
      have reads : mapping.read numSlots = _ := read_of_le inside
      show (mapping.read numSlots).1 = mapping.pool.bytesAt 0 numSlots ∧
        (mapping.read numSlots).2.pool = mapping.pool
      rw [reads, place]
      exact ⟨rfl, rfl⟩
  | mark slot byte =>
      have writes : mapping.write [byte] = _ := write_of_le inside
      show (mapping.write [byte]).pool = mapping.pool.mark slot byte
      rw [writes, place]
      exact copyIn_singleton _ _ _
  | store slot data fits =>
      have writes : mapping.write data = _ := write_of_le inside
      show (mapping.write data).pool = mapping.pool.copyIn (BufferPool.offset slot) data
      rw [writes, place]
      rfl
  | fetch slot count fits =>
      have reads : mapping.read count = _ := read_of_le inside
      show (mapping.read count).1 = mapping.pool.bytesAt (BufferPool.offset slot) count ∧
        (mapping.read count).2.pool = mapping.pool
      rw [reads, place]
      exact ⟨rfl, rfl⟩

/-! ### One step -/

/-- Every access so far was exact, and every thread that has sought its place
finds the cursor there. -/
structure InPlace (state : State) : Prop where
  exact : AccessesExact state
  sought : ∀ thread task, state.threads thread = .access task → state.mapping.pos = task.target

/-- A step that gives a thread nothing to access, and leaves the cursor and the
accesses, keeps everything in place. -/
theorem inPlace_of_same {state next : State} {thread : Nat} {pc : Pc} (inPlace : InPlace state)
    (cursor : next.mapping.pos = state.mapping.pos) (accesses : next.accesses = state.accesses)
    (threads : next.threads = Function.update state.threads thread pc)
    (nothing : ∀ task, pc ≠ .access task) : InPlace next := by
  constructor
  · unfold AccessesExact
    rw [accesses]
    exact inPlace.exact
  · intro other task phase
    rw [threads] at phase
    rw [cursor]
    by_cases same : other = thread
    · rw [same, Function.update_self] at phase
      exact absurd phase (nothing task)
    · rw [Function.update_of_ne same] at phase
      exact inPlace.sought other task phase

theorem enter_ne_access (call : Call) (task : Task) : enter call ≠ .access task := by
  cases call with
  | alloc => exact Pc.noConfusion
  | free slot =>
      dsimp only [enter]
      split
      · exact Pc.noConfusion
      · exact Pc.noConfusion
  | write slot data =>
      dsimp only [enter]
      split
      · split
        · exact Pc.noConfusion
        · exact Pc.noConfusion
      · exact Pc.noConfusion
  | read slot length =>
      dsimp only [enter]
      split
      · exact Pc.noConfusion
      · exact Pc.noConfusion

theorem next_ne_access (task other : Task) (result : Bytes) : task.next result ≠ .access other := by
  cases task with
  | bitmap =>
      dsimp only [Task.next]
      split
      · split
        · exact Pc.noConfusion
        · exact Pc.noConfusion
      · exact Pc.noConfusion
  | mark slot byte => exact Pc.noConfusion
  | store slot data fits => exact Pc.noConfusion
  | fetch slot count fits => exact Pc.noConfusion

/-- While nobody stands between a seek and its access, a thread may move the
cursor. -/
theorem inPlace_of_moved (state : State) {next : State} {thread : Nat} {pc : Pc}
    (exact : AccessesExact next)
    (threads : next.threads = Function.update state.threads thread pc)
    (own : ∀ task, pc = .access task → next.mapping.pos = task.target)
    (others : ∀ other, other ≠ thread → ∀ task, state.threads other = .access task →
      next.mapping.pos = task.target) : InPlace next := by
  refine ⟨exact, ?_⟩
  intro other task phase
  rw [threads] at phase
  by_cases same : other = thread
  · rw [same, Function.update_self] at phase
    exact own task phase
  · rw [Function.update_of_ne same] at phase
    exact others other same task phase

theorem inPlace_advance {state next : State} {thread : Nat} (inPlace : InPlace state)
    (undisturbed : Undisturbed state (.advance thread))
    (taken : advance state thread = some next) : InPlace next := by
  have after : cursorAfter state thread = next.mapping.pos := by
    unfold cursorAfter
    rw [taken]
    rfl
  have others : ∀ other, other ≠ thread → ∀ task, state.threads other = .access task →
      next.mapping.pos = task.target := by
    intro other different task phase
    by_cases kept : cursorAfter state thread = state.mapping.pos
    · rw [← after, kept]
      exact inPlace.sought other task phase
    · exact absurd phase (undisturbed kept other different task)
  unfold advance at taken
  cases phase : state.threads thread with
  | idle =>
      rw [phase] at taken
      contradiction
  | allocating =>
      rw [phase] at taken
      dsimp only at taken
      split at taken
      · contradiction
      · rw [← Option.some.inj taken]
        exact inPlace_of_same inPlace rfl rfl rfl (fun _ => Pc.noConfusion)
  | freeing slot =>
      rw [phase] at taken
      dsimp only at taken
      split at taken
      · contradiction
      · rw [← Option.some.inj taken]
        exact inPlace_of_same inPlace rfl rfl rfl (fun _ => Pc.noConfusion)
  | seek task =>
      rw [phase] at taken
      have same := Option.some.inj taken
      rw [← same] at others ⊢
      refine inPlace_of_moved state ?_ rfl ?_ others
      · exact inPlace.exact
      intro other sought
      injection sought with sameTask
      rw [← sameTask]
      rfl
  | access task =>
      rw [phase] at taken
      have same := Option.some.inj taken
      rw [← same] at others ⊢
      refine inPlace_of_moved state ?_ rfl ?_ others
      · intro access member
        rcases List.mem_append.mp member with old | new
        · exact inPlace.exact access old
        · rw [List.mem_singleton.mp new]
          exact exact_perform (inPlace.sought thread task phase)
      · intro other sought
        exact absurd sought (next_ne_access task other _)
  | leave =>
      rw [phase] at taken
      rw [← Option.some.inj taken]
      exact inPlace_of_same inPlace rfl rfl rfl (fun _ => Pc.noConfusion)

theorem inPlace_step (state : State) (event : Event) (next : State) (inPlace : InPlace state)
    (undisturbed : Undisturbed state event) (taken : step state event = some next) :
    InPlace next := by
  cases event with
  | begin thread call =>
      unfold step at taken
      dsimp only at taken
      split at taken
      · rw [← Option.some.inj taken]
        exact inPlace_of_same inPlace rfl rfl rfl (enter_ne_access call)
      · contradiction
  | advance thread => exact inPlace_advance inPlace undisturbed taken

theorem inPlace_start (pool : BufferPool) : InPlace (start pool) := by
  constructor
  · exact fun _ member => absurd member List.not_mem_nil
  · intro thread task phase
    contradiction

/-! ### Runs -/

/-- In every interleaving in which no thread moves the cursor while another
stands between its seek and its access, every access is made in its own
place. -/
theorem accesses_exact_of_undisturbed (pool : BufferPool) (events : List Event)
    (undisturbed : EachStep step Undisturbed (start pool) events) :
    Throughout step AccessesExact (start pool) events := by
  have inPlace : Throughout step InPlace (start pool) events :=
    throughout_of_eachStep inPlace_step (inPlace_start pool) undisturbed
  exact inPlace.imp fun state holds => holds.exact

/-- A write by one thread, step by step. -/
theorem accesses_exact_of_undisturbed_write :
    Throughout step AccessesExact (start .zeroed)
      [.begin 0 (.write 0 [65]), .advance 0, .advance 0] := by
  apply accesses_exact_of_undisturbed
  have alone : ∀ (state : State) (pc : Pc),
      state.threads = Function.update (start .zeroed).threads 0 pc →
      Undisturbed state (.advance 0) := by
    intro state pc threads _ other different task phase
    rw [threads, Function.update_of_ne different] at phase
    contradiction
  apply eachStep_cons rfl trivial
  apply eachStep_cons rfl
  · exact alone _ _ rfl
  apply eachStep_cons rfl
  · exact alone _ _ (Function.update_idem _ _ _)
  trivial

/-! ### Two writers -/

/-- The second writer seeks between the seek and the write of the first. -/
def twoWriters : List Event :=
  [.begin 0 (.write 0 [65]), .begin 1 (.write 1 [66]), .advance 0, .advance 1, .advance 0]

/-- Whether a write has put its first byte in its slot. -/
def Access.firstByteWritten (access : Access) : Bool :=
  match access.task with
  | .store slot (byte :: _) _ => access.after.mm (BufferPool.offset slot) = byte
  | _ => true

theorem firstByteWritten_of_exact {access : Access} (exact : access.Exact) :
    access.firstByteWritten := by
  unfold Access.Exact at exact
  unfold Access.firstByteWritten
  split
  · rename_i slot byte rest fits task
    rw [task] at exact
    rw [exact]
    simp [BufferPool.copyIn]
  · rfl

/-- The first byte of slot 0 is not written: the data went to slot 1. -/
theorem write_misplaced :
    ¬ ∀ (pool : BufferPool) (events : List Event),
      Throughout step AccessesExact (start pool) events := by
  intro claim
  have throughout := claim .zeroed twoWriters
  have reached : ∃ final, run step (start .zeroed) twoWriters = some final := by
    apply Option.isSome_iff_exists.mp
    decide +kernel
  obtain ⟨final, runs⟩ := reached
  have wrong : ((run step (start .zeroed) twoWriters).map fun final =>
      final.accesses.all Access.firstByteWritten) = some false := by
    decide +kernel
  have exact : AccessesExact final := throughout.last runs
  have written : final.accesses.all Access.firstByteWritten = true := by
    rw [List.all_eq_true]
    exact fun access member => firstByteWritten_of_exact (exact access member)
  rw [runs, Option.map_some, written] at wrong
  exact absurd wrong (by decide)

end MiniMs.Dpumesh.Cursor
