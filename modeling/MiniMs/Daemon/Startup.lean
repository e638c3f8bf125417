import MiniMs.Daemon.Registrations
import MiniMs.Daemon.Mesh

/-!
Workers that start side by side: the steps of `dpumesh_init`, each of which may
fail, on the files in `/dev/shm` that all of them share.

Owns: the steps and what each does to the files, the property that every worker
that the registry lists can be used and that a call which fails has left the
registry alone, and the exact condition on the steps of a run for it.

Look-ups change nothing here: what they see is asked of every state.
-/

namespace MiniMs.Daemon

open MiniMs.Dpumesh MiniMs.Library.Text MiniMs.Library.Json MiniMs.Library.Run

/-! ### Files -/

inductive FileKind where
  | txHeader
  | txBody
  | rxHeader
  | rxBody
  | txSq
  | rxSq
  deriving DecidableEq

/-- The name of a file: pools go by their service, rings by their pod id. -/
inductive ShmName where
  | pool (kind : FileKind) (service : PyStr)
  | ring (kind : FileKind) (podId : Int)
  deriving DecidableEq

def FileKind.name (kind : FileKind) (service : PyStr) (podId : Int) : ShmName :=
  match kind with
  | .txHeader | .txBody | .rxHeader | .rxBody => .pool kind service
  | .txSq | .rxSq => .ring kind podId

/-- A file is created when it is opened, and initialised when its bitmap or its
header has been cleared. -/
inductive FileState where
  | absent
  | created
  | ready
  deriving DecidableEq

/-! ### Steps -/

/-- The steps of `dpumesh_init`. `bp_init` and `dr_init` take three each: the file
is opened, sized and cleared, and mapped for use. -/
inductive InitStep where
  | calloc
  | allocId
  | register
  | openFile (kind : FileKind)
  | clearFile (kind : FileKind)
  | attachFile (kind : FileKind)
  | notifyPipe
  | poller

def dpumeshInit : List InitStep :=
  [.calloc, .allocId, .register] ++
    ([.txHeader, .txBody, .rxHeader, .rxBody, .txSq, .rxSq].flatMap fun kind =>
      [.openFile kind, .clearFile kind, .attachFile kind]) ++ [.notifyPipe, .poller]

/-- A call of `dpumesh_init`: what is left of it, whether it has returned -1, and
whether it has changed the registry. -/
structure InitCall where
  app : AppName
  workerNum : Int
  podId : Nat := 0
  rest : List InitStep := dpumeshInit
  failed : Bool := false
  changed : Bool := false

structure Startup where
  counter : Option Nat := none
  registry : Option Bytes := none
  shm : ShmName → FileState := fun _ => .absent
  calls : List InitCall := []

/-- How a step ends. The counter and the registry may turn out not to be writable;
the call goes on. -/
inductive Outcome where
  | done
  | unwritten
  | failed

/-- What the call registers. -/
def InitCall.registered (call : InitCall) (file : Option Bytes) : Bytes :=
  podRegistryRegister file (workerName call.app call.workerNum) call.podId call.app.text

def InitCall.fileName (call : InitCall) (kind : FileKind) : ShmName :=
  kind.name (ofAscii call.app.text) call.podId

/-- The file in its next state. -/
def Startup.setFile (state : Startup) (name : ShmName) (next : FileState) : Startup :=
  { state with shm := fun other => if other = name then next else state.shm other }

/-- One step of a call; what is left of it is already noted. -/
def Startup.perform (state : Startup) (call : InitCall) :
    InitStep → Outcome → Option (Startup × InitCall)
  | .register, .done => some ({ state with registry := some (call.registered state.registry) },
      { call with changed := call.changed ∨ state.registry ≠ some (call.registered state.registry) })
  | .register, .unwritten => some (state, call)
  -- The result of `pod_registry_register` is not looked at.
  | .register, .failed => none
  | .allocId, .done =>
      if podRegistryAllocId state.counter < 2 ^ 31 then
        some ({ state with counter := some (podRegistryAllocId state.counter) },
          { call with podId := podRegistryAllocId state.counter })
      else none
  | .allocId, .unwritten =>
      if podRegistryAllocId state.counter < 2 ^ 31 then
        some (state, { call with podId := podRegistryAllocId state.counter })
      else none
  | .openFile kind, .done =>
      some (if state.shm (call.fileName kind) = .absent then
        state.setFile (call.fileName kind) .created else state, call)
  | .clearFile kind, .done => some (state.setFile (call.fileName kind) .ready, call)
  | .calloc, .done | .attachFile _, .done | .notifyPipe, .done | .poller, .done => some (state, call)
  | _, .failed => some (state, { call with rest := [], failed := true })
  | _, .unwritten => none

inductive InitEvent where
  /-- A process calls `dpumesh_init`. -/
  | call (app : AppName) (workerNum : Int)
  /-- A call does its next step. -/
  | step (index : Nat) (outcome : Outcome)

def Startup.step (state : Startup) : InitEvent → Option Startup
  | .call app workerNum =>
      some { state with calls := state.calls ++ [{ app := app, workerNum := workerNum }] }
  | .step index outcome =>
      match state.calls[index]? with
      | none => none
      | some call =>
          match call.rest with
          | [] => none
          | first :: rest =>
              (state.perform { call with rest := rest } first outcome).map fun next =>
                { next.1 with calls := next.1.calls.set index next.2 }

/-! ### The property -/

/-- The pools of the service and the rings of the pod are created and initialised. -/
def Startup.Ready (state : Startup) (service : PyStr) (podId : Int) : Prop :=
  ∀ kind : FileKind, state.shm (kind.name service podId) = .ready

/-- Every worker that a look-up finds can be used, and a call that returned -1 has
not changed the registry. -/
structure Startup.Usable (state : Startup) : Prop where
  listed : ∀ float service workers, getWorkersByService float state.registry service = some workers →
    ∀ worker ∈ workers, state.Ready service worker.2
  restored : ∀ call ∈ state.calls, call.failed = true → call.changed = false

/-! ### The conditions -/

/-- The registry has room for a worker that registers. -/
def HasRoom (state : Startup) : InitEvent → Prop
  | .step index .done => ∀ call, state.calls[index]? = some call →
      call.rest.head? = some .register →
        (registerText (state.registry.getD (ascii "\x7b\x7d")) (workerName call.app call.workerNum)
          call.podId call.app.text).length < registrySize
  | _ => True

/-- A worker registers only where its pools and rings are ready, and a call fails
only as long as it has not changed the registry. -/
def Ordered (state : Startup) : InitEvent → Prop
  | .step index .done => ∀ call, state.calls[index]? = some call →
      call.rest.head? = some .register → state.Ready (ofAscii call.app.text) call.podId
  | .step index .failed => ∀ call, state.calls[index]? = some call → call.changed = false
  | _ => True

/-! ### One step -/

section Step

variable {state next : Startup} {call after : InitCall} {first : InitStep} {outcome : Outcome}

/-- A step that does not register. -/
structure Quiet (state : Startup) (call : InitCall) (outcome : Outcome) (next : Startup)
    (after : InitCall) : Prop where
  registry : next.registry = state.registry
  shm : ∀ name, state.shm name = .ready → next.shm name = .ready
  calls : next.calls = state.calls
  changed : after.changed = call.changed
  podId : call.podId < 2 ^ 31 → after.podId < 2 ^ 31
  failed : after.failed = true → call.failed = true ∨ outcome = .failed ∧ after.rest = []
  fails : outcome = .failed → after.failed = true

theorem quiet_same (state : Startup) (call : InitCall) (goesOn : outcome ≠ .failed) :
    Quiet state call outcome state call :=
  ⟨rfl, fun _ ready => ready, rfl, rfl, id, Or.inl, fun failed => absurd failed goesOn⟩

theorem quiet_alloc (state : Startup) (call : InitCall) (goesOn : outcome ≠ .failed) {podId : Nat}
    (small : podId < 2 ^ 31) (counter : Option Nat) :
    Quiet state call outcome { state with counter := counter } { call with podId := podId } :=
  ⟨rfl, fun _ ready => ready, rfl, rfl, fun _ => small, Or.inl, fun failed => absurd failed goesOn⟩

/-- A ready file stays ready when any file is cleared, or an absent one is created. -/
theorem quiet_setFile (call : InitCall) (goesOn : outcome ≠ .failed) {name : ShmName}
    {file : FileState} (keeps : state.shm name = .ready → file = .ready) :
    Quiet state call outcome (state.setFile name file) call := by
  refine ⟨rfl, fun other ready => ?_, rfl, rfl, id, Or.inl, fun failed => absurd failed goesOn⟩
  show (if other = name then file else state.shm other) = .ready
  by_cases same : other = name
  · rw [if_pos same]
    exact keeps (same ▸ ready)
  · rw [if_neg same]
    exact ready

theorem perform_cases (performed : state.perform call first outcome = some (next, after)) :
    (first = .register ∧ outcome = .done ∧
      next = { state with registry := some (call.registered state.registry) } ∧
      after = { call with changed :=
        call.changed ∨ state.registry ≠ some (call.registered state.registry) }) ∨
    Quiet state call outcome next after := by
  have fails : state.perform call first .failed = some (next, after) →
      Quiet state call .failed next after := by
    intro performed
    have shape : first = .register ∨ state.perform call first .failed =
        some (state, { call with rest := [], failed := true }) := by
      cases first with
      | register => exact Or.inl rfl
      | calloc | allocId | openFile | clearFile | attachFile | notifyPipe | poller =>
          exact Or.inr rfl
    rcases shape with rfl | shape
    · contradiction
    · obtain ⟨rfl, rfl⟩ := Prod.mk.inj (Option.some.inj (performed.symm.trans shape))
      exact ⟨rfl, fun _ ready => ready, rfl, rfl, id, fun _ => Or.inr ⟨rfl, rfl⟩, fun _ => rfl⟩
  have same : some (state, call) = some (next, after) → outcome ≠ .failed →
      Quiet state call outcome next after := by
    intro equal goesOn
    obtain ⟨rfl, rfl⟩ := Prod.mk.inj (Option.some.inj equal)
    exact quiet_same state call goesOn
  have unwritten : Outcome.unwritten ≠ .failed := by intro; contradiction
  have done : Outcome.done ≠ .failed := by intro; contradiction
  cases outcome with
  | failed => exact Or.inr (fails performed)
  | unwritten =>
      cases first with
      | register => exact Or.inr (same performed unwritten)
      | allocId =>
          by_cases small : podRegistryAllocId state.counter < 2 ^ 31
          · have shape : state.perform call .allocId .unwritten =
                some (state, { call with podId := podRegistryAllocId state.counter }) := if_pos small
            rw [shape] at performed
            obtain ⟨rfl, rfl⟩ := Prod.mk.inj (Option.some.inj performed)
            exact Or.inr (quiet_alloc state call unwritten small state.counter)
          · have shape : state.perform call .allocId .unwritten = none := if_neg small
            rw [shape] at performed
            contradiction
      | calloc | openFile | clearFile | attachFile | notifyPipe | poller => contradiction
  | done =>
      cases first with
      | register =>
          obtain ⟨rfl, rfl⟩ := Prod.mk.inj (Option.some.inj performed)
          exact Or.inl ⟨rfl, rfl, rfl, rfl⟩
      | allocId =>
          by_cases small : podRegistryAllocId state.counter < 2 ^ 31
          · have shape : state.perform call .allocId .done =
                some ({ state with counter := some (podRegistryAllocId state.counter) },
                  { call with podId := podRegistryAllocId state.counter }) := if_pos small
            rw [shape] at performed
            obtain ⟨rfl, rfl⟩ := Prod.mk.inj (Option.some.inj performed)
            exact Or.inr (quiet_alloc state call done small _)
          · have shape : state.perform call .allocId .done = none := if_neg small
            rw [shape] at performed
            contradiction
      | openFile kind =>
          obtain ⟨rfl, rfl⟩ := Prod.mk.inj (Option.some.inj performed)
          right
          by_cases absent : state.shm (call.fileName kind) = .absent
          · rw [if_pos absent]
            exact quiet_setFile call done fun ready => by
              rw [absent] at ready
              contradiction
          · rw [if_neg absent]
            exact quiet_same state call done
      | clearFile kind =>
          obtain ⟨rfl, rfl⟩ := Prod.mk.inj (Option.some.inj performed)
          exact Or.inr (quiet_setFile call done fun _ => rfl)
      | calloc | attachFile | notifyPipe | poller => exact Or.inr (same performed done)

/-- A step of the system is a new call or one step of a call. -/
theorem step_cases {event : InitEvent} (taken : state.step event = some next) :
    (∃ app workerNum, event = .call app workerNum ∧
      next = { state with calls := state.calls ++ [{ app := app, workerNum := workerNum }] }) ∨
    ∃ index outcome call first rest middle after, event = .step index outcome ∧
      state.calls[index]? = some call ∧ call.rest = first :: rest ∧
      state.perform { call with rest := rest } first outcome = some (middle, after) ∧
      next = { middle with calls := middle.calls.set index after } := by
  cases event with
  | call app workerNum => exact Or.inl ⟨app, workerNum, rfl, (Option.some.inj taken).symm⟩
  | step index outcome =>
      right
      unfold Startup.step at taken
      dsimp only at taken
      cases found : state.calls[index]? with
      | none =>
          rw [found] at taken
          contradiction
      | some call =>
          rw [found] at taken
          cases steps : call.rest with
          | nil =>
              dsimp only at taken
              rw [steps] at taken
              contradiction
          | cons first rest =>
              dsimp only at taken
              rw [steps] at taken
              obtain ⟨⟨middle, after⟩, performed, same⟩ := Option.map_eq_some_iff.mp taken
              exact ⟨index, outcome, call, first, rest, middle, after, rfl, found, steps, performed,
                same.symm⟩

end Step

/-! ### The invariant -/

/-- The registry stands for a map of workers whose files are ready. -/
structure Startup.Kept (state : Startup) : Prop where
  rows : ∃ rows : RegistryMap, (∀ float, Represents float state.registry rows) ∧
    ∀ entry ∈ rows, state.Ready entry.2.service.val entry.2.podId.val
  podIds : ∀ call ∈ state.calls, call.podId < 2 ^ 31
  restored : ∀ call ∈ state.calls, call.failed = true → call.changed = false ∧ call.rest = []

theorem mem_workersOf {rows : RegistryMap} {service : PyStr} {worker : PyStr × Int} :
    worker ∈ rows.workersOf service ↔ ∃ entry ∈ rows, entry.2.service.val = service ∧
      worker = (entry.1.val, entry.2.podId.val) := by
  unfold RegistryMap.workersOf
  rw [List.mem_mergeSort, List.mem_map]
  constructor
  · rintro ⟨entry, member, rfl⟩
    obtain ⟨inside, same⟩ := List.mem_filter.mp member
    exact ⟨entry, inside, of_decide_eq_true same, rfl⟩
  · rintro ⟨entry, inside, same, rfl⟩
    exact ⟨entry, List.mem_filter.mpr ⟨inside, decide_eq_true same⟩, rfl⟩

theorem Startup.Kept.usable {state : Startup} (kept : state.Kept) : state.Usable where
  listed := by
    obtain ⟨rows, represents, ready⟩ := kept.rows
    intro float service workers found worker member
    rw [(represents float).answers.workers] at found
    rw [← Option.some.inj found] at member
    obtain ⟨entry, inside, rfl, rfl⟩ := mem_workersOf.mp member
    exact ready entry inside
  restored := fun call member failed => (kept.restored call member failed).1

/-- The name and the row that a call registers. -/
def InitCall.entryName (call : InitCall) : Name :=
  ⟨ofAscii (workerName call.app call.workerNum),
    scalars_of_encode (plainName_workerName call.app call.workerNum).encoded⟩

def InitCall.row (call : InitCall) (small : call.podId < 2 ^ 31) : Row where
  podId := ⟨call.podId, by omega, by omega⟩
  service := ⟨ofAscii call.app.text, scalars_of_encode call.app.plain.encoded⟩

theorem utf8_ofAscii {name : Bytes} (plain : PlainName name) :
    utf8 ⟨ofAscii name, scalars_of_encode plain.encoded⟩ = name := by
  have encoded := encode_utf8 ⟨ofAscii name, scalars_of_encode plain.encoded⟩
  exact Option.some.inj (encoded.symm.trans plain.encoded)

/-- Where there is room, a call puts its entry into the map. -/
theorem InitCall.represents_registered {float : PyStr → Numeral} {file : Option Bytes}
    {rows : RegistryMap} (represents : Represents float file rows) (call : InitCall)
    (small : call.podId < 2 ^ 31)
    (room : (registerText (file.getD (ascii "\x7b\x7d")) (workerName call.app call.workerNum)
      call.podId call.app.text).length < registrySize) :
    Represents float (some (call.registered file)) (rows.register call.entryName (call.row small)) := by
  have name : utf8 call.entryName = workerName call.app call.workerNum :=
    utf8_ofAscii (plainName_workerName call.app call.workerNum)
  have service : utf8 (call.row small).service = call.app.text := utf8_ofAscii call.app.plain
  have podId : (call.row small).podId.val = call.podId := rfl
  have registered := @represents_c float file rows represents call.entryName (call.row small)
    ⟨(plainName_workerName call.app call.workerNum).clean, call.app.plain.clean⟩
    (by rw [name, service, podId]; exact room)
  rw [name, service, podId] at registered
  exact registered

theorem RegistryMap.mem_register {rows : RegistryMap} {name : Name} {row : Row}
    {entry : Name × Row} (member : entry ∈ rows.register name row) :
    entry = (name, row) ∨ entry ∈ rows := by
  induction rows with
  | nil => exact Or.inl (List.mem_singleton.mp member)
  | cons head rows inductionHypothesis =>
      obtain ⟨other, old⟩ := head
      unfold RegistryMap.register at member
      by_cases same : other = name
      · rw [if_pos same] at member
        exact (List.mem_cons.mp member).imp_right (List.mem_cons_of_mem _)
      · rw [if_neg same] at member
        rcases List.mem_cons.mp member with here | later
        · exact Or.inr (List.mem_cons.mpr (Or.inl here))
        · exact (inductionHypothesis later).imp_right (List.mem_cons_of_mem _)

theorem RegistryMap.register_mem (rows : RegistryMap) (name : Name) (row : Row) :
    (name, row) ∈ rows.register name row := by
  induction rows with
  | nil => exact List.mem_cons_self
  | cons head rows inductionHypothesis =>
      obtain ⟨other, old⟩ := head
      unfold RegistryMap.register
      by_cases same : other = name
      · rw [if_pos same]
        exact List.mem_cons_self
      · rw [if_neg same]
        exact List.mem_cons_of_mem _ inductionHypothesis

/-! ### What the steps keep -/

theorem Startup.Kept.step {state next : Startup} {event : InitEvent} (kept : state.Kept)
    (room : HasRoom state event) (ordered : Ordered state event)
    (taken : state.step event = some next) : next.Kept := by
  obtain ⟨rows, represents, ready⟩ := kept.rows
  rcases step_cases taken with ⟨app, workerNum, rfl, rfl⟩ |
    ⟨index, outcome, call, first, rest, middle, after, rfl, found, steps, performed, rfl⟩
  · refine ⟨⟨rows, represents, ready⟩, fun call member => ?_, fun call member failed => ?_⟩
    · rcases List.mem_append.mp member with old | new
      · exact kept.podIds call old
      · rw [List.mem_singleton.mp new]
        show 0 < 2 ^ 31
        decide
    · rcases List.mem_append.mp member with old | new
      · exact kept.restored call old failed
      · rw [List.mem_singleton.mp new] at failed
        contradiction
  · have inside := List.mem_of_getElem? found
    have small := kept.podIds call inside
    have running : ¬ call.failed = true := by
      intro failed
      rw [(kept.restored call inside failed).2] at steps
      contradiction
    rcases perform_cases performed with ⟨rfl, rfl, rfl, rfl⟩ | quiet
    · have head : call.rest.head? = some .register := by rw [steps]; rfl
      refine ⟨⟨rows.register call.entryName (call.row small), ?_, ?_⟩, ?_, ?_⟩
      · exact fun float => call.represents_registered (represents float) small (room call found head)
      · intro entry member
        rcases RegistryMap.mem_register member with rfl | old
        · exact ordered call found head
        · exact ready entry old
      · intro other member
        rcases List.mem_or_eq_of_mem_set member with old | rfl
        · exact kept.podIds other old
        · exact small
      · intro other member failed
        rcases List.mem_or_eq_of_mem_set member with old | rfl
        · exact kept.restored other old failed
        · exact absurd failed running
    · refine ⟨⟨rows, ?_, fun entry member kind => quiet.shm _ (ready entry member kind)⟩, ?_, ?_⟩
      · intro float
        show Represents float middle.registry rows
        rw [quiet.registry]
        exact represents float
      · intro other member
        rw [quiet.calls] at member
        rcases List.mem_or_eq_of_mem_set member with old | rfl
        · exact kept.podIds other old
        · exact quiet.podId small
      · intro other member failed
        rw [quiet.calls] at member
        rcases List.mem_or_eq_of_mem_set member with old | rfl
        · exact kept.restored other old failed
        · rcases quiet.failed failed with before | ⟨rfl, stopped⟩
          · exact absurd before running
          · exact ⟨quiet.changed.trans (ordered call found), stopped⟩

/-- A step that does not meet the condition loses the property at once. -/
theorem Startup.Kept.ordered {state next : Startup} {event : InitEvent} (kept : state.Kept)
    (room : HasRoom state event) (taken : state.step event = some next) (usable : next.Usable) :
    Ordered state event := by
  obtain ⟨rows, represents, -⟩ := kept.rows
  rcases step_cases taken with ⟨app, workerNum, rfl, -⟩ |
    ⟨index, outcome, call, first, rest, middle, after, rfl, found, steps, performed, rfl⟩
  · trivial
  · have small := kept.podIds call (List.mem_of_getElem? found)
    cases outcome with
    | unwritten => trivial
    | done =>
        intro other found' head
        obtain rfl : call = other := Option.some.inj (found.symm.trans found')
        rw [steps] at head
        obtain rfl : first = .register := Option.some.inj head
        obtain ⟨rfl, rfl⟩ := Prod.mk.inj (Option.some.inj performed)
        have registered := call.represents_registered (represents noFloat) small
          (room call found (by rw [steps]; rfl))
        have listed := usable.listed noFloat _ _ (registered.answers.workers (ofAscii call.app.text))
        exact listed (call.entryName.val, call.podId) (mem_workersOf.mpr
          ⟨_, rows.register_mem call.entryName (call.row small), rfl, rfl⟩)
    | failed =>
        intro other found'
        obtain rfl : call = other := Option.some.inj (found.symm.trans found')
        rcases perform_cases performed with ⟨-, impossible, -⟩ | quiet
        · contradiction
        · have below : index < middle.calls.length := by
            rw [quiet.calls]
            exact (List.getElem?_eq_some_iff.mp found).1
          have member : after ∈ middle.calls.set index after :=
            List.mem_iff_getElem?.mpr ⟨index, List.getElem?_set_self below⟩
          exact quiet.changed.symm.trans (usable.restored after member (quiet.fails rfl))

/-! ### Every run -/

/-- Nobody starts yet, and every worker that the registry lists is ready. -/
structure Startup.Fresh (state : Startup) : Prop where
  rows : ∃ rows : RegistryMap, (∀ float, Represents float state.registry rows) ∧
    ∀ entry ∈ rows, state.Ready entry.2.service.val entry.2.podId.val
  calls : state.calls = []

theorem Startup.Fresh.kept {state : Startup} (fresh : state.Fresh) : state.Kept where
  rows := fresh.rows
  podIds := by
    rw [fresh.calls]
    exact List.forall_mem_nil _
  restored := by
    rw [fresh.calls]
    exact List.forall_mem_nil _

/-- In the runs in which the registry has room, every state is usable exactly where
no call registers before its files are ready, and none fails once it has. -/
theorem usable_iff_ordered {start : Startup} (fresh : start.Fresh) {events : List InitEvent}
    (room : EachStep Startup.step HasRoom start events) :
    Throughout Startup.step Startup.Usable start events ↔
      EachStep Startup.step Ordered start events :=
  throughout_iff_eachStep_within (fun _ kept => kept.usable)
    (fun _ _ _ kept room ordered taken => kept.step room ordered taken)
    (fun _ _ _ kept room taken usable => kept.ordered room taken usable) fresh.kept room

theorem fresh_empty : Startup.Fresh {} where
  rows := ⟨[], fun float => represents_none float, List.forall_mem_nil _⟩
  calls := rfl

/-- A service's name. -/
def startingApp : AppName := ⟨ascii "s0", forall_mem_of_all (by decide), by decide⟩

/-- A call that registers. -/
def registering : List InitEvent :=
  [.call startingApp 0, .step 0 .done, .step 0 .done, .step 0 .done]

theorem usable_iff_ordered_registering :
    Throughout Startup.step Startup.Usable {} registering ↔
      EachStep Startup.step Ordered {} registering := by
  have other : ∀ {state : Startup} {call : InitCall} {first : InitStep} {rest : List InitStep},
      state.calls[0]? = some call → call.rest = first :: rest → first ≠ .register →
      HasRoom state (.step 0 .done) := by
    intro state call first rest found steps different found' same head
    obtain rfl : call = found' := Option.some.inj (found.symm.trans same)
    rw [steps] at head
    exact absurd (Option.some.inj head) different
  apply usable_iff_ordered fresh_empty
  refine eachStep_cons rfl trivial (eachStep_cons rfl (other rfl rfl ?_)
    (eachStep_cons rfl (other rfl rfl ?_) (eachStep_cons rfl ?_ trivial)))
  · intro same
    contradiction
  · intro same
    contradiction
  · intro call found _
    obtain rfl := Option.some.inj found
    decide

/-- The call's first pool cannot be opened: it returns -1, and its worker stays in
the registry. -/
theorem not_usable : ¬ ∀ (start : Startup) (events : List InitEvent), start.Fresh →
    Throughout Startup.step Startup.Usable start events := by
  intro claim
  have usable := (claim {} (registering ++ [.step 0 .failed]) fresh_empty).last rfl
  have unchanged := usable.restored _ List.mem_cons_self rfl
  contradiction

end MiniMs.Daemon
