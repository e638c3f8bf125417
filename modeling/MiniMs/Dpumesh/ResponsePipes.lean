import MiniMs.Dpumesh.Descriptor
import MiniMs.Library.Run

/-!
A worker that sends requests: the pipes made by `dpumesh_write`, the table
`response_pipe_fds`, and the poller thread that writes responses to them.

Owns: the steps of one REQUEST call of `dpumesh_write` as far as they touch the
table, the poller thread access by access, the responses that arrive, and the
condition under which every response reaches its own requester.

A pipe is named by the number of the call that made it, counted from 0. An
arriving descriptor names the call that it answers; the poller reads only the
descriptor. The RX ring has no capacity here.
-/

namespace MiniMs.Dpumesh.ResponsePipes

open MiniMs.Library.Run

/-! ### States and steps -/

/-- The `req_id` of a call: `next_req_id` counts from 1, in 32 bits. -/
def reqIdOf (call : Nat) : Nat := (call + 1) % 2 ^ 32

/-- The place of a call in `response_pipe_fds`. -/
def indexOf (call : Nat) : Nat := reqIdOf call % maxPending

/-- A descriptor put in the RX ring. A response carries the `req_id` of the
call that it answers. -/
structure Arrival where
  desc : SwDescriptor
  call : Nat
  answers : desc.isResponse → desc.reqId = reqIdOf call

/-- Where the poller thread stands with a descriptor: after `dr_get`, after
reading the table, after `write`, and after `close`. -/
inductive Poller where
  | idle
  | got (arrival : Arrival)
  | loaded (arrival : Arrival) (pipe : Nat)
  | written (arrival : Arrival) (pipe : Nat)
  | closed (arrival : Arrival) (pipe : Nat)

/-- A response that the poller has written or dropped: whether its requester was
still waiting, and the pipe that it went to. -/
structure Handled where
  arrival : Arrival
  waited : Bool
  pipe : Option Nat

structure State where
  nextReqId : Nat
  calls : Nat
  responsePipeFds : Nat → Option Nat
  /-- The call of `dpumesh_write` in progress. -/
  writing : Option Nat
  /-- The calls that hold the read end of their pipe. -/
  requesters : List Nat
  rxSq : List Arrival
  poller : Poller
  notified : List SwDescriptor
  pipes : Nat → List SwDescriptor
  handled : List Handled

def start : State where
  nextReqId := 1
  calls := 0
  responsePipeFds := fun _ => none
  writing := none
  requesters := []
  rxSq := []
  poller := .idle
  notified := []
  pipes := fun _ => []
  handled := []

/-- The requester has its pipe, and nothing was written to it yet. -/
def Waiting (state : State) (call : Nat) : Prop :=
  call ∈ state.requesters ∧ state.pipes call = []

instance (state : State) (call : Nat) : Decidable (Waiting state call) := by
  unfold Waiting
  infer_instance

/-- `dpumesh_write` up to the table: the id is taken, and the pipe is stored
unless `pipe` fails. -/
def openPipe (state : State) (piped : Bool) : State :=
  let state' := { state with
    nextReqId := (state.nextReqId + 1) % 2 ^ 32
    calls := state.calls + 1 }
  if piped then
    { state' with
      responsePipeFds :=
        Function.update state.responsePipeFds (state.nextReqId % maxPending) (some state.calls)
      writing := some state.calls
      requesters := state.calls :: state.requesters }
  else state'

/-- One access of `dpumesh_poller_fn`. -/
def poll (state : State) : State :=
  match state.poller with
  | .idle =>
      match state.rxSq with
      | [] => state
      | arrival :: rest => { state with rxSq := rest, poller := .got arrival }
  | .got arrival =>
      if arrival.desc.valid ≠ 1 then { state with poller := .idle }
      else if arrival.desc.isResponse then
        match state.responsePipeFds (arrival.desc.reqId % maxPending) with
        | some pipe => { state with poller := .loaded arrival pipe }
        | none =>
            { state with
              poller := .idle
              handled := state.handled ++ [⟨arrival, decide (Waiting state arrival.call), none⟩] }
      else { state with poller := .idle, notified := state.notified ++ [arrival.desc] }
  | .loaded arrival pipe =>
      { state with
        poller := .written arrival pipe
        pipes := Function.update state.pipes pipe (state.pipes pipe ++ [arrival.desc])
        handled := state.handled ++ [⟨arrival, decide (Waiting state arrival.call), some pipe⟩] }
  | .written arrival pipe => { state with poller := .closed arrival pipe }
  | .closed arrival _ =>
      { state with
        poller := .idle
        responsePipeFds :=
          Function.update state.responsePipeFds (arrival.desc.reqId % maxPending) none }

inductive Event where
  | openPipe (piped : Bool)
  | finish (accepted : Bool)
  | arrive (arrival : Arrival)
  | poll

/-- A call goes on from `openPipe` to its end, where it fails or the requester
comes to wait; one thread makes all calls. -/
def step (state : State) : Event → Option State
  | .openPipe piped => if state.writing.isSome then none else some (openPipe state piped)
  | .finish accepted =>
      state.writing.map fun call =>
        { state with
          writing := none
          requesters := if accepted then state.requesters else state.requesters.erase call }
  | .arrive arrival => some { state with rxSq := state.rxSq ++ [arrival] }
  | .poll => some (poll state)

/-! ### The property and the condition -/

/-- Only responses to a call are written to its pipe, and a response whose
requester was waiting was written there. -/
structure Delivered (state : State) : Prop where
  own : ∀ call, ∀ desc ∈ state.pipes call, desc.reqId = reqIdOf call
  reached : ∀ entry ∈ state.handled, entry.waited → entry.pipe = some entry.arrival.call

/-- The response and the pipe that the poller is at work on, from reading the
table to clearing its entry. -/
def Poller.holds : Poller → Option (Arrival × Nat)
  | .idle => none
  | .got _ => none
  | .loaded arrival pipe => some (arrival, pipe)
  | .written arrival pipe => some (arrival, pipe)
  | .closed arrival pipe => some (arrival, pipe)

/-- A pipe is stored only where no requester waits and the poller is not at
work, and a response that nobody waits for finds no other requester's pipe. -/
def EntryFree (state : State) : Event → Prop
  | .openPipe true =>
      (∀ call, Waiting state call → indexOf call ≠ state.nextReqId % maxPending) ∧
        ∀ arrival pipe, state.poller.holds = some (arrival, pipe) →
          indexOf arrival.call ≠ state.nextReqId % maxPending
  | .poll =>
      ∀ arrival, state.poller = .got arrival → arrival.desc.valid = 1 →
        arrival.desc.isResponse → ¬ Waiting state arrival.call →
        ∀ pipe, state.responsePipeFds (indexOf arrival.call) = some pipe → pipe = arrival.call
  | _ => True

/-! ### The invariant -/

/-- What the poller holds agrees with the table, and a pipe that it is done
with has been written. -/
structure PollerAgrees (state : State) : Prop where
  entry : ∀ arrival pipe, state.poller.holds = some (arrival, pipe) →
    arrival.desc.isResponse ∧ state.responsePipeFds (indexOf arrival.call) = some pipe
  unwritten : ∀ arrival pipe, state.poller = .loaded arrival pipe → pipe = arrival.call
  served : ∀ arrival pipe,
    state.poller = .written arrival pipe ∨ state.poller = .closed arrival pipe →
      state.pipes pipe ≠ []

/-- Every waiting requester has its pipe in the table. -/
structure Registered (state : State) : Prop where
  numbered : state.nextReqId = reqIdOf state.calls
  stored : ∀ call, Waiting state call → state.responsePipeFds (indexOf call) = some call
  poller : PollerAgrees state
  delivered : Delivered state

theorem registered_start : Registered start := by
  constructor
  · rfl
  · intro call waiting
    exact absurd waiting.1 List.not_mem_nil
  · constructor
    · intro arrival pipe holds
      contradiction
    · intro arrival pipe phase
      contradiction
    · intro arrival pipe phase
      rcases phase with written | closed
      · contradiction
      · contradiction
  · constructor
    · exact fun _ _ member => absurd member List.not_mem_nil
    · exact fun _ member => absurd member List.not_mem_nil

/-! ### One step -/

theorem Arrival.index {arrival : Arrival} (response : arrival.desc.isResponse) :
    arrival.desc.reqId % maxPending = indexOf arrival.call := by
  rw [arrival.answers response]
  rfl

/-- A poller that works on nothing agrees with every table. -/
theorem pollerAgrees_of_holds_none {state : State} (idle : state.poller.holds = none) :
    PollerAgrees state := by
  constructor
  · intro arrival pipe holds
    rw [idle] at holds
    contradiction
  · intro arrival pipe phase
    rw [phase] at idle
    contradiction
  · intro arrival pipe phase
    rcases phase with written | closed
    · rw [written] at idle
      contradiction
    · rw [closed] at idle
      contradiction

theorem registered_openPipe {state : State} {piped : Bool} (registered : Registered state)
    (free : EntryFree state (.openPipe piped)) : Registered (openPipe state piped) := by
  have numbered : (state.nextReqId + 1) % 2 ^ 32 = reqIdOf (state.calls + 1) := by
    rw [registered.numbered]
    unfold reqIdOf
    omega
  cases piped with
  | false =>
      exact ⟨numbered, registered.stored, ⟨registered.poller.entry, registered.poller.unwritten,
        registered.poller.served⟩, ⟨registered.delivered.own, registered.delivered.reached⟩⟩
  | true =>
      refine ⟨numbered, ?_, ?_, ⟨registered.delivered.own, registered.delivered.reached⟩⟩
      · intro call waiting
        show Function.update state.responsePipeFds (state.nextReqId % maxPending)
          (some state.calls) (indexOf call) = some call
        by_cases new : call = state.calls
        · have place : indexOf call = state.nextReqId % maxPending := by
            rw [registered.numbered, new]
            rfl
          rw [place, Function.update_self, new]
        · have old : Waiting state call := by
            have member : call ∈ state.calls :: state.requesters := waiting.1
            exact ⟨(List.mem_cons.mp member).resolve_left new, waiting.2⟩
          rw [Function.update_of_ne (free.1 call old)]
          exact registered.stored call old
      · refine ⟨?_, registered.poller.unwritten, registered.poller.served⟩
        intro arrival pipe holds
        have before := registered.poller.entry arrival pipe holds
        refine ⟨before.1, ?_⟩
        exact (Function.update_of_ne (free.2 arrival pipe holds) _ _).trans before.2

theorem registered_finish {state next : State} {accepted : Bool} (registered : Registered state)
    (taken : step state (.finish accepted) = some next) : Registered next := by
  obtain ⟨call, _, same⟩ := Option.map_eq_some_iff.mp taken
  subst same
  refine ⟨registered.numbered, ?_, ⟨registered.poller.entry, registered.poller.unwritten,
    registered.poller.served⟩, ⟨registered.delivered.own, registered.delivered.reached⟩⟩
  intro other waiting
  apply registered.stored
  refine ⟨?_, waiting.2⟩
  have member := waiting.1
  dsimp only at member
  split at member
  · exact member
  · exact List.mem_of_mem_erase member

/-- The poller thread takes a descriptor and looks at it. -/
theorem registered_got {state : State} {arrival : Arrival} (registered : Registered state)
    (phase : state.poller = .got arrival) (free : EntryFree state .poll) :
    Registered (poll state) := by
  unfold poll
  rw [phase]
  dsimp only
  split
  · exact ⟨registered.numbered, registered.stored, pollerAgrees_of_holds_none rfl,
      ⟨registered.delivered.own, registered.delivered.reached⟩⟩
  · rename_i valid
    split
    · rename_i response
      rw [arrival.index response]
      split
      · rename_i pipe entry
        refine ⟨registered.numbered, registered.stored, ?_,
          ⟨registered.delivered.own, registered.delivered.reached⟩⟩
        constructor
        · intro other pipe' holds
          have same := Prod.mk.inj (Option.some.inj holds)
          rw [← same.1, ← same.2]
          exact ⟨response, entry⟩
        · intro other pipe' loaded
          injection loaded with sameArrival samePipe
          rw [← sameArrival, ← samePipe]
          by_cases waiting : Waiting state arrival.call
          · have stored := registered.stored arrival.call waiting
            rw [entry] at stored
            exact Option.some.inj stored
          · exact free arrival phase (not_not.mp valid) response waiting pipe entry
        · intro other pipe' other_phase
          rcases other_phase with written | closed
          · contradiction
          · contradiction
      · rename_i entry
        refine ⟨registered.numbered, registered.stored, pollerAgrees_of_holds_none rfl,
          ⟨registered.delivered.own, ?_⟩⟩
        intro entry' member waited
        rcases List.mem_append.mp member with old | new
        · exact registered.delivered.reached entry' old waited
        · rw [List.mem_singleton.mp new] at waited
          have stored := registered.stored arrival.call (of_decide_eq_true waited)
          rw [entry] at stored
          contradiction
    · exact ⟨registered.numbered, registered.stored, pollerAgrees_of_holds_none rfl,
        ⟨registered.delivered.own, registered.delivered.reached⟩⟩

/-- The write goes to the pipe of the call that the response answers. -/
theorem registered_loaded {state : State} {arrival : Arrival} {pipe : Nat}
    (registered : Registered state) (phase : state.poller = .loaded arrival pipe) :
    Registered (poll state) := by
  have own := registered.poller.unwritten arrival pipe phase
  have entry := registered.poller.entry arrival pipe (by rw [phase]; rfl)
  unfold poll
  rw [phase]
  dsimp only
  have waits : ∀ call, (call ∈ state.requesters ∧
      Function.update state.pipes pipe (state.pipes pipe ++ [arrival.desc]) call = []) →
      Waiting state call := by
    intro call waiting
    refine ⟨waiting.1, ?_⟩
    by_cases same : call = pipe
    · have written := waiting.2
      rw [same, Function.update_self] at written
      simp at written
    · rw [← waiting.2, Function.update_of_ne same]
  refine ⟨registered.numbered, fun call waiting => registered.stored call (waits call waiting),
    ?_, ?_⟩
  · constructor
    · intro other pipe' holds
      have same := Prod.mk.inj (Option.some.inj holds)
      rw [← same.1, ← same.2]
      exact entry
    · intro other pipe' loaded
      contradiction
    · intro other pipe' written
      have same : pipe' = pipe := by
        rcases written with written | closed
        · injection written with _ samePipe
          exact samePipe.symm
        · contradiction
      rw [same]
      show Function.update state.pipes pipe (state.pipes pipe ++ [arrival.desc]) pipe ≠ []
      rw [Function.update_self]
      simp
  · constructor
    · intro call desc member
      by_cases same : call = pipe
      · have occurs : desc ∈ state.pipes pipe ++ [arrival.desc] := by
          simpa [same] using member
        rcases List.mem_append.mp occurs with old | new
        · rw [same]
          exact registered.delivered.own pipe desc old
        · rw [List.mem_singleton.mp new, same, own]
          exact arrival.answers entry.1
      · have occurs : desc ∈ state.pipes call := by
          simpa [Function.update_of_ne same] using member
        exact registered.delivered.own call desc occurs
    · intro entry' member waited
      rcases List.mem_append.mp member with old | new
      · exact registered.delivered.reached entry' old waited
      · rw [List.mem_singleton.mp new, own]

theorem registered_poll {state : State} (registered : Registered state)
    (free : EntryFree state .poll) : Registered (poll state) := by
  cases phase : state.poller with
  | idle =>
      unfold poll
      rw [phase]
      dsimp only
      split
      · exact registered
      · exact ⟨registered.numbered, registered.stored, pollerAgrees_of_holds_none rfl,
          ⟨registered.delivered.own, registered.delivered.reached⟩⟩
  | got arrival => exact registered_got registered phase free
  | loaded arrival pipe => exact registered_loaded registered phase
  | written arrival pipe =>
      have entry := registered.poller.entry arrival pipe (by rw [phase]; rfl)
      have served := registered.poller.served arrival pipe (Or.inl phase)
      unfold poll
      rw [phase]
      refine ⟨registered.numbered, registered.stored, ?_,
        ⟨registered.delivered.own, registered.delivered.reached⟩⟩
      constructor
      · intro other pipe' holds
        have same := Prod.mk.inj (Option.some.inj holds)
        rw [← same.1, ← same.2]
        exact entry
      · intro other pipe' loaded
        contradiction
      · intro other pipe' closed
        rcases closed with written | closed
        · contradiction
        · injection closed with _ samePipe
          rw [← samePipe]
          exact served
  | closed arrival pipe =>
      have entry := registered.poller.entry arrival pipe (by rw [phase]; rfl)
      have served := registered.poller.served arrival pipe (Or.inr phase)
      unfold poll
      rw [phase]
      refine ⟨registered.numbered, ?_, pollerAgrees_of_holds_none rfl,
        ⟨registered.delivered.own, registered.delivered.reached⟩⟩
      intro call waiting
      have before : Waiting state call := waiting
      have stored := registered.stored call before
      have elsewhere : indexOf call ≠ arrival.desc.reqId % maxPending := by
        rw [arrival.index entry.1]
        intro same
        rw [same, entry.2] at stored
        have samePipe : pipe = call := Option.some.inj stored
        rw [samePipe] at served
        exact served before.2
      exact (Function.update_of_ne elsewhere _ _).trans stored

theorem registered_step (state : State) (event : Event) (next : State)
    (registered : Registered state) (free : EntryFree state event)
    (taken : step state event = some next) : Registered next := by
  cases event with
  | openPipe piped =>
      unfold step at taken
      dsimp only at taken
      split at taken
      · contradiction
      · rw [← Option.some.inj taken]
        exact registered_openPipe registered free
  | finish accepted => exact registered_finish registered taken
  | arrive arrival =>
      rw [← Option.some.inj taken]
      exact ⟨registered.numbered, registered.stored, ⟨registered.poller.entry,
        registered.poller.unwritten, registered.poller.served⟩,
        ⟨registered.delivered.own, registered.delivered.reached⟩⟩
  | poll =>
      rw [← Option.some.inj taken]
      exact registered_poll registered free

/-! ### Runs -/

/-- In every run in which each pipe is stored where nobody waits, and each
response that nobody waits for finds no other requester's pipe, every response
reaches the requester that waits for it and no descriptor reaches another. -/
theorem responses_reach_requesters (events : List Event)
    (free : EachStep step EntryFree start events) : Throughout step Delivered start events := by
  have registered : Throughout step Registered start events :=
    throughout_of_eachStep registered_step registered_start free
  exact registered.imp fun state holds => holds.delivered

/-- A response to a call, as it lies in the RX ring. -/
def responseTo (call : Nat) : Arrival where
  desc := { reqId := reqIdOf call, flags := opResponse ||| caseLocal, valid := 1 }
  call := call
  answers := fun _ => rfl

/-- One call, its response, and the five accesses that deliver it. -/
theorem responses_reach_requesters_one_call :
    Throughout step Delivered start
      [.openPipe true, .finish true, .arrive (responseTo 0), .poll, .poll, .poll, .poll, .poll] := by
  apply responses_reach_requesters
  have nobody : ∀ call, ¬ Waiting start call := fun call waiting =>
    absurd waiting.1 List.not_mem_nil
  apply eachStep_cons rfl
  · exact ⟨fun call waiting => absurd waiting (nobody call), fun _ _ holds => by contradiction⟩
  apply eachStep_cons rfl trivial
  apply eachStep_cons rfl trivial
  apply eachStep_cons rfl
  · intro arrival phase
    contradiction
  apply eachStep_cons rfl
  · intro arrival phase _ _ unwaited
    injection phase with same
    rw [← same] at unwaited
    exact absurd (by decide) unwaited
  apply eachStep_cons rfl
  · intro arrival phase
    contradiction
  apply eachStep_cons rfl
  · intro arrival phase
    contradiction
  apply eachStep_cons rfl
  · intro arrival phase
    contradiction
  trivial

/-! ### Two calls with one table entry -/

/-- 257 calls in a row, none of them answered; then the answer to the first. -/
def wrappedCalls : List Event :=
  (List.replicate 257 [.openPipe true, .finish true]).flatten ++
    [.arrive (responseTo 0), .poll, .poll, .poll]

/-- The call 256 has taken the entry of the call 0, and is handed its response. -/
theorem response_reaches_other_requester :
    ¬ ∀ events : List Event, Throughout step Delivered start events := by
  intro claim
  have delivered := claim wrappedCalls
  have reached : ∃ final, run step start wrappedCalls = some final := by
    apply Option.isSome_iff_exists.mp
    decide +kernel
  obtain ⟨final, runs⟩ := reached
  have own := (delivered.last runs).own 256
  have wrong : ((run step start wrappedCalls).map fun final =>
      decide (∀ desc ∈ final.pipes 256, desc.reqId = reqIdOf 256)) = some false := by
    decide +kernel
  rw [runs] at wrong
  exact of_decide_eq_false (Option.some.inj wrong) own

end MiniMs.Dpumesh.ResponsePipes
