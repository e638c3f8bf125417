import MiniMs.Dpumesh.Bitmap
import MiniMs.Dpumesh.Write

/-!
A call of `dpumesh_write` as a whole, and `dpumesh_conn_upstream` around it.

Owns: the response pipe of a request, what a call that returns -1 leaves behind
and what one that returns 0 has done, and the condition under which a failed
call leaves nothing.

A pipe gets the two lowest free descriptors of the process; whether the system
grants one, and whether there is memory for a connection, are arguments. The
other threads of the worker are not owned here.
-/

namespace MiniMs.Dpumesh.Send

open MiniMs.Library.Text

/-! ### Pipes -/

/-- The open descriptors of a process and their limit. -/
structure Process where
  isOpen : Nat → Bool
  limit : Nat

namespace Process

def lowestFree (process : Process) : Option Nat :=
  (List.range process.limit).find? fun fd => !process.isOpen fd

def openFd (process : Process) (fd : Nat) : Process :=
  { process with isOpen := Function.update process.isOpen fd true }

/-- `pipe`: the process, the read end and the write end. -/
def pipe (process : Process) (granted : Bool) : Option (Process × Nat × Nat) :=
  if granted then
    process.lowestFree.bind fun readEnd =>
      (process.openFd readEnd).lowestFree.map fun writeEnd =>
        ((process.openFd readEnd).openFd writeEnd, readEnd, writeEnd)
  else none

end Process

/-! ### The calls -/

/-- What a call of `dpumesh_write` reads and writes; -1 stands for no pipe in
`responsePipeFds`. -/
structure Context where
  worker : Worker
  pools : TxPools
  txSq : List SwDescriptor
  responsePipeFds : Nat → Int
  process : Process

/-- `dpumesh_msg_t`; `none` is a NULL body. -/
inductive Message where
  | request (method url : Bytes) (body : Option Bytes)
  | response (descIndex : Nat) (statusCode : Int) (body : Option Bytes)
deriving DecidableEq, Repr

/-- What comes of a call: the return value, and what was stored through
`out_response_fd`. -/
structure Written where
  context : Context
  result : Int
  responseFd : Option Nat

/-- The common part. -/
def enqueue (context : Context) (out : Outgoing) (stack : Nat → UInt8) (body : Option Bytes) :
    Context × Int :=
  match writeCommon context.pools context.txSq context.worker.podId out stack body with
  | (pools, none) => ({ context with pools := pools }, -1)
  | (pools, some txSq) => ({ context with pools := pools, txSq := txSq }, 0)

/-- The write end of a new pipe is kept for the poller. -/
def storePipe (context : Context) (process : Process) (reqId writeEnd : Nat) : Context :=
  { context with
    process := process
    responsePipeFds := Function.update context.responsePipeFds (reqId % maxPending) writeEnd }

/-- `dpumesh_write`; `wantsFd` says that `out_response_fd` is not NULL. -/
def dpumeshWrite (context : Context) (message : Message) (wantsFd granted : Bool)
    (stack : Nat → UInt8) : Written :=
  match message with
  | .request method url body =>
      let (worker, out) := writeRequest context.worker method url
      let context := { context with worker := worker }
      if wantsFd then
        match context.process.pipe granted with
        | none => ⟨context, -1, none⟩
        | some (process, readEnd, writeEnd) =>
            let (context, result) :=
              enqueue (storePipe context process out.reqId writeEnd) out stack body
            ⟨context, result, some readEnd⟩
      else
        let (context, result) := enqueue context out stack body
        ⟨context, result, none⟩
  | .response descIndex statusCode body =>
      let (worker, out) := writeResponse context.worker descIndex statusCode
      let (context, result) := enqueue { context with worker := worker } out stack body
      ⟨context, result, none⟩

/-- `dpumesh_conn_upstream`: the return value, and the descriptor that the new
connection waits on. -/
def dpumeshConnUpstream (context : Context) (method url : Bytes) (allocated granted : Bool)
    (stack : Nat → UInt8) : Written :=
  if allocated then
    let written := dpumeshWrite context (.request method url none) true granted stack
    if written.result < 0 then { written with responseFd := none } else written
  else ⟨context, -1, none⟩

/-- A send: by `dpumesh_write` itself, or by `dpumesh_conn_upstream`. -/
inductive Call where
  | write (message : Message) (wantsFd granted : Bool)
  | connUpstream (method url : Bytes) (allocated granted : Bool)
deriving DecidableEq, Repr

def Call.run (call : Call) (context : Context) (stack : Nat → UInt8) : Written :=
  match call with
  | .write message wantsFd granted => dpumeshWrite context message wantsFd granted stack
  | .connUpstream method url allocated granted =>
      dpumeshConnUpstream context method url allocated granted stack

/-! ### The property and the condition -/

/-- The tables of the worker and of the shared memory are as before. -/
structure Untouched (before after : Context) : Prop where
  txHeader : before.pools.txHeader.SameBitmap after.pools.txHeader
  txBody : before.pools.txBody.SameBitmap after.pools.txBody
  txSq : after.txSq = before.txSq
  responsePipeFds : after.responsePipeFds = before.responsePipeFds
  inbound : after.worker.inbound = before.worker.inbound

/-- One more slot is taken in each pool, and one descriptor that names the two
is in the ring. -/
def Enqueued (before after : Context) : Prop :=
  ∃ (headerSlot bodySlot : Nat) (desc : SwDescriptor),
    before.pools.txHeader.Takes after.pools.txHeader headerSlot ∧
      before.pools.txBody.Takes after.pools.txBody bodySlot ∧
      after.txSq = before.txSq ++ [desc] ∧
      desc.headerBufSlot = headerSlot ∧ desc.bodyBufSlot = bodySlot

/-- Where `dpumesh_conn_upstream` fails, the process has the descriptors that it
had. -/
def Call.KeepsFds (call : Call) (before after : Context) : Prop :=
  match call with
  | .write _ _ _ => True
  | .connUpstream _ _ _ _ => after.process = before.process

/-- A call that returns -1 has done nothing, and one that returns 0 has put the
message in the ring. -/
def Call.AllOrNothing (call : Call) (context : Context) (stack : Nat → UInt8) : Prop :=
  let written := call.run context stack
  (written.result = -1 →
      Untouched context written.context ∧ call.KeepsFds context written.context) ∧
    (written.result = 0 → Enqueued context written.context)

/-- Both pools have a free slot and the ring has room. -/
def HasRoom (context : Context) : Prop :=
  ¬ context.pools.txHeader.Full ∧ ¬ context.pools.txBody.Full ∧
    context.txSq.length < maxDescriptors

instance (context : Context) : Decidable (HasRoom context) := by
  unfold HasRoom
  infer_instance

/-- What the call changes before it allocates is what is there already. -/
def Call.Idle (call : Call) (context : Context) : Prop :=
  match call with
  | .write (.request _ _ _) wantsFd granted =>
      wantsFd = true → ∀ process readEnd writeEnd,
        context.process.pipe granted = some (process, readEnd, writeEnd) →
          context.responsePipeFds (context.worker.nextReqId % maxPending) = writeEnd
  | .write (.response descIndex _ _) _ _ => (context.worker.inbound descIndex).active = false
  | .connUpstream _ _ allocated granted =>
      allocated = true → context.process.pipe granted = none

/-! ### The common part -/

/-- The two ways the common part returns. -/
theorem writeCommon_cases (pools : TxPools) (ring : List SwDescriptor) (podId : Int)
    (out : Outgoing) (stack : Nat → UInt8) (body : Option Bytes) :
    (∃ (after : TxPools) (headerSlot bodySlot : Nat) (desc : SwDescriptor),
        writeCommon pools ring podId out stack body = (after, some (ring ++ [desc])) ∧
        pools.txHeader.Takes after.txHeader headerSlot ∧
        pools.txBody.Takes after.txBody bodySlot ∧
        desc.headerBufSlot = headerSlot ∧ desc.bodyBufSlot = bodySlot ∧
        ring.length < maxDescriptors) ∨
      (∃ after, writeCommon pools ring podId out stack body = (after, none) ∧
        pools.txHeader.SameBitmap after.txHeader ∧ pools.txBody.SameBitmap after.txBody ∧
        (pools.txHeader.Full ∨ pools.txBody.Full ∨ maxDescriptors ≤ ring.length)) := by
  unfold writeCommon
  rcases pools.txHeader.bpAlloc_cases with ⟨headerSlot, header, takesHeader⟩ | ⟨full, header⟩
  · have headerThere : ¬ (headerSlot : Int) < 0 := by omega
    have takesHeader := takesHeader.trans_same
      (BufferPool.bpWrite_same _ headerSlot (headerData out.header stack))
    have freed := takesHeader.trans_frees (BufferPool.bpFree_frees _ takesHeader.inside)
    rw [header]
    dsimp only
    rw [if_neg headerThere]
    rcases pools.txBody.bpAlloc_cases with ⟨bodySlot, bodyAlloc, takesBody⟩ | ⟨full, bodyAlloc⟩
    · have bodyThere : ¬ (bodySlot : Int) < 0 := by omega
      have takesBody := takesBody.trans_same
        (BufferPool.bpWrite_same _ bodySlot (bodyData body))
      have bodyFreed := takesBody.trans_frees (BufferPool.bpFree_frees _ takesBody.inside)
      rw [bodyAlloc]
      dsimp only
      rw [if_neg bodyThere]
      by_cases room : ring.length < maxDescriptors
      · left
        rw [if_neg (by omega)]
        exact ⟨_, headerSlot, bodySlot, _, rfl, takesHeader, takesBody, rfl, rfl, room⟩
      · right
        rw [if_pos (by omega)]
        exact ⟨_, rfl, freed, bodyFreed, Or.inr (Or.inr (by omega))⟩
    · right
      have negative : (-1 : Int) < 0 := by decide
      rw [bodyAlloc]
      dsimp only
      rw [if_pos negative]
      exact ⟨_, rfl, freed, BufferPool.SameBitmap.refl _, Or.inr (Or.inl full)⟩
  · right
    have negative : (-1 : Int) < 0 := by decide
    rw [header]
    dsimp only
    rw [if_pos negative]
    exact ⟨_, rfl, BufferPool.SameBitmap.refl _, BufferPool.SameBitmap.refl _, Or.inl full⟩

/-- The common part comes to a call that left the pools and the ring alone: it
puts the message where there is room for it, and otherwise adds nothing to what
the call has done. -/
theorem enqueue_spec {context prepared : Context} (pools : prepared.pools = context.pools)
    (txSq : prepared.txSq = context.txSq) (out : Outgoing) (stack : Nat → UInt8)
    (body : Option Bytes) :
    ∃ after result, enqueue prepared out stack body = (after, result) ∧
      after.process = prepared.process ∧
      ((HasRoom context ∧ result = 0 ∧ Enqueued context after) ∨
        (¬ HasRoom context ∧ result = -1 ∧
          (Untouched context after ↔
            prepared.responsePipeFds = context.responsePipeFds ∧
              prepared.worker.inbound = context.worker.inbound))) := by
  unfold enqueue
  rw [pools, txSq]
  rcases writeCommon_cases context.pools context.txSq prepared.worker.podId out stack body with
    ⟨after, headerSlot, bodySlot, desc, written, header, bodyTaken, named, bodyNamed, room⟩ |
      ⟨after, written, header, bodySame, reason⟩
  · rw [written]
    exact ⟨_, _, rfl, rfl, Or.inl ⟨⟨header.not_full, bodyTaken.not_full, room⟩, rfl,
      headerSlot, bodySlot, desc, header, bodyTaken, rfl, named, bodyNamed⟩⟩
  · have noRoom : ¬ HasRoom context := by
      intro ⟨headerFree, bodyFree, room⟩
      rcases reason with full | full | full
      · exact headerFree full
      · exact bodyFree full
      · omega
    rw [written]
    refine ⟨_, _, rfl, rfl, Or.inr ⟨noRoom, rfl, ?_⟩⟩
    constructor
    · intro untouched
      exact ⟨untouched.responsePipeFds, untouched.inbound⟩
    · intro ⟨responsePipeFds, inbound⟩
      exact ⟨header, bodySame, rfl, responsePipeFds, inbound⟩

/-! ### The pipe -/

/-- A new pipe is open where nothing was. -/
theorem Process.pipe_ne {process after : Process} {granted : Bool} {readEnd writeEnd : Nat}
    (made : process.pipe granted = some (after, readEnd, writeEnd)) : after ≠ process := by
  unfold Process.pipe at made
  cases granted with
  | false => contradiction
  | true =>
      rw [if_pos rfl] at made
      obtain ⟨lowest, found, rest⟩ := Option.bind_eq_some_iff.mp made
      obtain ⟨second, _, opened⟩ := Option.map_eq_some_iff.mp rest
      have closed : process.isOpen lowest = false := by
        simpa using List.find?_some found
      have shape : (process.openFd lowest).openFd second = after := congrArg Prod.fst opened
      have isOpen : after.isOpen lowest = true := by
        rw [← shape]
        by_cases same : lowest = second
        · rw [← same]
          exact Function.update_self lowest true (process.openFd lowest).isOpen
        · exact (Function.update_of_ne same true _).trans
            (Function.update_self lowest true process.isOpen)
      intro same
      rw [same, closed] at isOpen
      contradiction

/-! ### The calls -/

/-- A response keeps the table where its entry was released before. -/
theorem writeResponse_inbound_iff (worker : Worker) (descIndex : Nat) (statusCode : Int) :
    (writeResponse worker descIndex statusCode).1.inbound = worker.inbound ↔
      (worker.inbound descIndex).active = false := by
  have update : (writeResponse worker descIndex statusCode).1.inbound =
      Function.update worker.inbound descIndex
        { worker.inbound descIndex with active := false } := rfl
  rw [update, Function.update_eq_self_iff]
  constructor
  · intro same
    exact (congrArg Inbound.active same).symm
  · intro released
    rw [← released]

/-- What the end of a call says about the call. -/
theorem allOrNothing_of_outcome {context after : Context} {result : Int} {calm keeps : Prop}
    (outcome : (HasRoom context ∧ result = 0 ∧ Enqueued context after) ∨
      (¬ HasRoom context ∧ result = -1 ∧ (Untouched context after ↔ calm))) :
    ((result = -1 → Untouched context after ∧ keeps) ∧ (result = 0 → Enqueued context after)) ↔
      (calm ∧ keeps) ∨ HasRoom context := by
  rcases outcome with ⟨room, sent, enqueued⟩ | ⟨noRoom, failed, untouched⟩
  · refine iff_of_true ⟨?_, fun _ => enqueued⟩ (Or.inr room)
    intro failed
    omega
  · constructor
    · intro property
      have undone := property.1 failed
      exact Or.inl ⟨untouched.mp undone.1, undone.2⟩
    · intro condition
      have kept := condition.resolve_right noRoom
      refine ⟨fun _ => ⟨untouched.mpr kept.1, kept.2⟩, ?_⟩
      intro sent
      omega

/-- A call that returns -1 before it changes a table. -/
theorem allOrNothing_of_refused {context after : Context} {responseFd : Option Nat} {call : Call}
    {stack : Nat → UInt8} (refused : call.run context stack = ⟨after, -1, responseFd⟩)
    (untouched : Untouched context after) (process : after.process = context.process) :
    call.AllOrNothing context stack := by
  have keeps : call.KeepsFds context after := by
    cases call with
    | write => trivial
    | connUpstream => exact process
  unfold Call.AllOrNothing
  rw [refused]
  exact ⟨fun _ => ⟨untouched, keeps⟩, fun sent => by contradiction⟩

/-- A request changes the worker in its next id alone. -/
theorem untouched_of_request (context : Context) (method url : Bytes) :
    Untouched context { context with worker := (writeRequest context.worker method url).1 } :=
  ⟨BufferPool.SameBitmap.refl _, BufferPool.SameBitmap.refl _, rfl, rfl, rfl⟩

/-- A request whose pipe was made. -/
theorem dpumeshWrite_piped {context after : Context} {method url : Bytes} {body : Option Bytes}
    {granted : Bool} {stack : Nat → UInt8} {process : Process} {readEnd writeEnd : Nat} {result : Int}
    (made : context.process.pipe granted = some (process, readEnd, writeEnd))
    (ends : enqueue (storePipe
        { context with worker := (writeRequest context.worker method url).1 } process
        (writeRequest context.worker method url).2.reqId writeEnd)
      (writeRequest context.worker method url).2 stack body = (after, result)) :
    dpumeshWrite context (.request method url body) true granted stack =
      ⟨after, result, some readEnd⟩ := by
  unfold dpumeshWrite
  dsimp only
  rw [if_pos rfl, made]
  dsimp only
  rw [ends]

theorem request_allOrNothing_iff (context : Context) (method url : Bytes) (body : Option Bytes)
    (wantsFd granted : Bool) (stack : Nat → UInt8) :
    (Call.write (.request method url body) wantsFd granted).AllOrNothing context stack ↔
      (Call.write (.request method url body) wantsFd granted).Idle context ∨ HasRoom context := by
  let worker := (writeRequest context.worker method url).1
  let out := (writeRequest context.worker method url).2
  cases wantsFd with
  | false =>
      obtain ⟨after, result, ends, -, outcome⟩ := @enqueue_spec context
        { context with worker := worker } rfl rfl out stack body
      have run : (Call.write (.request method url body) false granted).run context stack =
          ⟨after, result, none⟩ := by
        unfold Call.run dpumeshWrite
        dsimp only
        rw [if_neg (by decide), ends]
      unfold Call.AllOrNothing
      rw [run]
      refine (allOrNothing_of_outcome outcome).trans (or_congr_left ?_)
      exact iff_of_true ⟨⟨rfl, rfl⟩, trivial⟩ (fun wants => by contradiction)
  | true =>
      cases made : context.process.pipe granted with
      | none =>
          have run : (Call.write (.request method url body) true granted).run context stack =
              ⟨{ context with worker := worker }, -1, none⟩ := by
            unfold Call.run dpumeshWrite
            dsimp only
            rw [if_pos rfl, made]
          refine iff_of_true (allOrNothing_of_refused run (untouched_of_request _ _ _) rfl)
            (Or.inl ?_)
          intro _ process readEnd writeEnd other
          rw [made] at other
          contradiction
      | some pipe =>
          obtain ⟨process, readEnd, writeEnd⟩ := pipe
          obtain ⟨after, result, ends, -, outcome⟩ := @enqueue_spec context
            (storePipe { context with worker := worker } process out.reqId writeEnd) rfl rfl out stack
            body
          have run : (Call.write (.request method url body) true granted).run context stack =
              ⟨after, result, some readEnd⟩ := dpumeshWrite_piped made ends
          unfold Call.AllOrNothing
          rw [run]
          refine (allOrNothing_of_outcome outcome).trans (or_congr_left ?_)
          constructor
          · intro ⟨⟨same, _⟩, _⟩ _ process' readEnd' writeEnd' other
            rw [made] at other
            cases other
            exact (Function.update_eq_self_iff.mp same).symm
          · intro idle
            have there := idle rfl process readEnd writeEnd made
            exact ⟨⟨Function.update_eq_self_iff.mpr there.symm, rfl⟩, trivial⟩

theorem response_allOrNothing_iff (context : Context) (descIndex : Nat) (statusCode : Int)
    (body : Option Bytes) (wantsFd granted : Bool) (stack : Nat → UInt8) :
    (Call.write (.response descIndex statusCode body) wantsFd granted).AllOrNothing context stack ↔
      (Call.write (.response descIndex statusCode body) wantsFd granted).Idle context ∨
        HasRoom context := by
  obtain ⟨after, result, ends, -, outcome⟩ := @enqueue_spec context
    { context with worker := (writeResponse context.worker descIndex statusCode).1 } rfl rfl
    (writeResponse context.worker descIndex statusCode).2 stack body
  have run : (Call.write (.response descIndex statusCode body) wantsFd granted).run context stack =
      ⟨after, result, none⟩ := by
    unfold Call.run dpumeshWrite
    dsimp only
    rw [ends]
  have released := writeResponse_inbound_iff context.worker descIndex statusCode
  unfold Call.AllOrNothing
  rw [run]
  refine (allOrNothing_of_outcome outcome).trans (or_congr_left ?_)
  constructor
  · intro ⟨⟨_, same⟩, _⟩
    exact released.mp same
  · intro idle
    exact ⟨⟨rfl, released.mpr idle⟩, trivial⟩

theorem connUpstream_allOrNothing_iff (context : Context) (method url : Bytes)
    (allocated granted : Bool) (stack : Nat → UInt8) :
    (Call.connUpstream method url allocated granted).AllOrNothing context stack ↔
      (Call.connUpstream method url allocated granted).Idle context ∨ HasRoom context := by
  let worker := (writeRequest context.worker method url).1
  let out := (writeRequest context.worker method url).2
  cases allocated with
  | false =>
      have run : (Call.connUpstream method url false granted).run context stack =
          ⟨context, -1, none⟩ := rfl
      have untouched : Untouched context context :=
        ⟨BufferPool.SameBitmap.refl _, BufferPool.SameBitmap.refl _, rfl, rfl, rfl⟩
      exact iff_of_true (allOrNothing_of_refused run untouched rfl)
        (Or.inl fun there => by contradiction)
  | true =>
      cases made : context.process.pipe granted with
      | none =>
          have run : (Call.connUpstream method url true granted).run context stack =
              ⟨{ context with worker := worker }, -1, none⟩ := by
            unfold Call.run dpumeshConnUpstream dpumeshWrite
            dsimp only
            rw [if_pos rfl, if_pos rfl, made]
            rfl
          exact iff_of_true (allOrNothing_of_refused run (untouched_of_request _ _ _) rfl)
            (Or.inl fun _ => made)
      | some pipe =>
          obtain ⟨process, readEnd, writeEnd⟩ := pipe
          obtain ⟨after, result, ends, kept, outcome⟩ := @enqueue_spec context
            (storePipe { context with worker := worker } process out.reqId writeEnd) rfl rfl out stack
            none
          have run : ∃ responseFd, (Call.connUpstream method url true granted).run context stack =
              ⟨after, result, responseFd⟩ := by
            have written : dpumeshWrite context (.request method url none) true granted stack =
                ⟨after, result, some readEnd⟩ := dpumeshWrite_piped made ends
            unfold Call.run dpumeshConnUpstream
            dsimp only
            rw [if_pos rfl, written]
            split
            · exact ⟨_, rfl⟩
            · exact ⟨_, rfl⟩
          obtain ⟨responseFd, run⟩ := run
          unfold Call.AllOrNothing
          rw [run]
          refine (allOrNothing_of_outcome outcome).trans (or_congr_left ?_)
          -- A pipe was made, so the process is not what it was.
          refine iff_of_false ?_ ?_
          · intro ⟨_, keeps⟩
            exact Process.pipe_ne made (kept.symm.trans keeps)
          · intro idle
            have refused := idle rfl
            rw [made] at refused
            contradiction

/-- A failed send leaves no trace where there is room for it, so that it does
not fail, or where it changes nothing before it allocates. -/
theorem allOrNothing_iff_idle_or_room (context : Context) (call : Call) (stack : Nat → UInt8) :
    call.AllOrNothing context stack ↔ call.Idle context ∨ HasRoom context := by
  cases call with
  | write message wantsFd granted =>
      cases message with
      | request method url body =>
          exact request_allOrNothing_iff context method url body wantsFd granted stack
      | response descIndex statusCode body =>
          exact response_allOrNothing_iff context descIndex statusCode body wantsFd granted stack
  | connUpstream method url allocated granted =>
      exact connUpstream_allOrNothing_iff context method url allocated granted stack

/-- A worker whose service has no free header slot. -/
def fullHeaderPool : Context where
  worker := Worker.init [] 0
  pools := ⟨⟨fun _ => 1⟩, .zeroed⟩
  txSq := []
  responsePipeFds := fun _ => -1
  process := ⟨fun fd => decide (fd < 3), 1024⟩

/-- `dpumesh_conn_upstream` returns -1 and leaves both ends of the pipe open. -/
theorem not_allOrNothing :
    ¬ (Call.connUpstream (ascii "GET") (ascii "http://id-svc/get_id?name=a") true
      true).AllOrNothing fullHeaderPool (fun _ => 0) := by
  intro property
  rcases (connUpstream_allOrNothing_iff _ _ _ _ _ _).mp property with idle | room
  · have made : (fullHeaderPool.process.pipe true).isSome := by decide +kernel
    rw [idle rfl] at made
    contradiction
  · have full : fullHeaderPool.pools.txHeader.Full := fun _ _ => rfl
    exact room.1 full

end MiniMs.Dpumesh.Send
