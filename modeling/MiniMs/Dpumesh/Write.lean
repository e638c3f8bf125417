import MiniMs.Dpumesh.Worker

/-!
The common part of `dpumesh_write`: from the allocation of the TX slots to the
put in `tx_sq`, as one call with nothing in between.

Owns: what `bp_write` copies out of `hdr_data`, the descriptor that is put, the
ways the call fails, and what the header slot holds when it does not.

Other processes between the steps of a call are not owned here.
-/

namespace MiniMs.Dpumesh

open MiniMs.Library.Text

/-- The TX pools of the worker's service. -/
structure TxPools where
  txHeader : BufferPool
  txBody : BufferPool

/-- The `hdr_len` bytes from `hdr_data` on: a text that was cut ends in a NUL,
and what lies behind the buffer on the stack follows it. -/
def headerData (header : Bytes) (stack : Nat → UInt8) : Bytes :=
  if header.length < headerBufSize then header
  else
    snprintf headerBufSize header ++
      0 :: (List.range (header.length - headerBufSize)).map stack

/-- What goes to the body slot: an absent body is one NUL. -/
def bodyData : Option Bytes → Bytes
  | none => [0]
  | some [] => [0]
  | some body => body

/-- The descriptor of an outgoing message; `body_len` has 32 bits. -/
def outgoingDesc (podId : Int) (out : Outgoing) (body : Option Bytes) (headerSlot bodySlot : Int) :
    SwDescriptor where
  headerBufSlot := headerSlot
  headerLen := out.header.length
  bodyBufSlot := bodySlot
  bodyLen := (bodyData body).length % 2 ^ 32
  reqId := out.reqId
  srcPodId := podId
  flags := out.flags
  valid := 1
  srcHeaderPoolType := PoolType.hostTxHeader.code
  srcHeaderPodId := podId
  srcHeaderBufSlot := headerSlot
  srcBodyPoolType := PoolType.hostTxBody.code
  srcBodyPodId := podId
  srcBodyBufSlot := bodySlot

/-- The common part of `dpumesh_write`; `none` is its -1. The pools are those
that a failing call leaves, too. -/
def writeCommon (pools : TxPools) (ring : List SwDescriptor) (podId : Int) (out : Outgoing)
    (stack : Nat → UInt8) (body : Option Bytes) : TxPools × Option (List SwDescriptor) :=
  let (headerSlot, txHeader) := pools.txHeader.bpAlloc
  if headerSlot < 0 then (pools, none)
  else
    let txHeader := (txHeader.bpWrite headerSlot (headerData out.header stack)).2
    let (bodySlot, txBody) := pools.txBody.bpAlloc
    if bodySlot < 0 then ({ pools with txHeader := txHeader.bpFree headerSlot }, none)
    else
      let txBody := (txBody.bpWrite bodySlot (bodyData body)).2
      if maxDescriptors ≤ ring.length then
        (⟨txHeader.bpFree headerSlot, txBody.bpFree bodySlot⟩, none)
      else (⟨txHeader, txBody⟩, some (ring ++ [outgoingDesc podId out body headerSlot bodySlot]))

theorem outgoingDesc_bodyLen (podId : Int) (out : Outgoing) {body : Option Bytes}
    (fits : (bodyData body).length ≤ slotSize) (headerSlot bodySlot : Int) :
    (outgoingDesc podId out body headerSlot bodySlot).bodyLen = (bodyData body).length :=
  Nat.mod_eq_of_lt (Nat.lt_of_le_of_lt fits (by decide))

theorem bpAlloc_range (pool : BufferPool) :
    pool.bpAlloc.1 = -1 ∨ 0 ≤ pool.bpAlloc.1 ∧ pool.bpAlloc.1 < numSlots := by
  unfold BufferPool.bpAlloc
  split
  · rename_i slot found
    have member := List.mem_of_find?_eq_some found
    have below := List.mem_range.mp member
    right
    omega
  · exact Or.inl rfl

theorem bpWrite_of_fits (pool : BufferPool) {slot : Int} (range : 0 ≤ slot ∧ slot < numSlots)
    {data : Bytes} (fits : data.length ≤ slotSize) :
    pool.bpWrite slot data = ((data.length : Int), pool.copyIn (BufferPool.offset slot.toNat) data) := by
  have small : data.length < 2 ^ 31 := Nat.lt_of_le_of_lt fits (by decide)
  have size : BufferPool.intOfSize data.length = data.length := by
    unfold BufferPool.intOfSize
    apply Int.bmod_eq_of_le
    · omega
    · omega
  unfold BufferPool.bpWrite
  rw [if_neg (by omega), size, if_neg (by omega)]

/-- What a call that puts a descriptor has done. -/
theorem writeCommon_inversion {pools after : TxPools} {ring ring' : List SwDescriptor}
    {podId : Int} {out : Outgoing} {stack : Nat → UInt8} {body : Option Bytes}
    (written : writeCommon pools ring podId out stack body = (after, some ring')) :
    ∃ headerSlot bodySlot : Int, (0 ≤ headerSlot ∧ headerSlot < numSlots) ∧
      (0 ≤ bodySlot ∧ bodySlot < numSlots) ∧
      after.txHeader = (pools.txHeader.bpAlloc.2.bpWrite headerSlot
        (headerData out.header stack)).2 ∧
      after.txBody = (pools.txBody.bpAlloc.2.bpWrite bodySlot (bodyData body)).2 ∧
      ring' = ring ++ [outgoingDesc podId out body headerSlot bodySlot] := by
  have headerRange := bpAlloc_range pools.txHeader
  have bodyRange := bpAlloc_range pools.txBody
  unfold writeCommon at written
  dsimp only at written
  by_cases noHeader : pools.txHeader.bpAlloc.1 < 0
  · rw [if_pos noHeader] at written
    cases congrArg Prod.snd written
  rw [if_neg noHeader] at written
  by_cases noBody : pools.txBody.bpAlloc.1 < 0
  · rw [if_pos noBody] at written
    cases congrArg Prod.snd written
  rw [if_neg noBody] at written
  by_cases full : maxDescriptors ≤ ring.length
  · rw [if_pos full] at written
    cases congrArg Prod.snd written
  rw [if_neg full, Prod.mk.injEq, Option.some.injEq] at written
  refine ⟨_, _, by omega, by omega, ?_, ?_, written.2.symm⟩
  · rw [← written.1]
  · rw [← written.1]

/-- A slot holds what was written to it. -/
theorem read_bpWrite (pool : BufferPool) {slot : Int} (range : 0 ≤ slot ∧ slot < numSlots)
    {data : Bytes} (fits : data.length ≤ slotSize) :
    (pool.bpWrite slot data).2.read slot data.length = data := by
  rw [bpWrite_of_fits pool range fits]
  exact BufferPool.bpRead_copyIn pool range fits

/-- A call that puts a descriptor leaves the header and the body in the slots it
names. -/
theorem slots_of_writeCommon {pools after : TxPools} {ring ring' : List SwDescriptor}
    {podId : Int} {out : Outgoing} {stack : Nat → UInt8} {body : Option Bytes}
    (short : out.header.length < headerBufSize) (fits : (bodyData body).length ≤ slotSize)
    (written : writeCommon pools ring podId out stack body = (after, some ring')) :
    ∃ headerSlot bodySlot : Int, ring' = ring ++ [outgoingDesc podId out body headerSlot bodySlot] ∧
      after.txHeader.read headerSlot out.header.length = out.header ∧
      after.txBody.read bodySlot (bodyData body).length = bodyData body := by
  obtain ⟨headerSlot, bodySlot, headerRange, bodyRange, header, filled, put⟩ :=
    writeCommon_inversion written
  have small : out.header.length ≤ slotSize :=
    Nat.le_trans (Nat.le_of_lt short) (by decide)
  have data : headerData out.header stack = out.header := if_pos short
  refine ⟨headerSlot, bodySlot, put, ?_, ?_⟩
  · rw [header, data]
    exact read_bpWrite _ headerRange small
  · rw [filled]
    exact read_bpWrite _ bodyRange fits

theorem header_of_writeCommon {pools after : TxPools} {ring ring' : List SwDescriptor}
    {podId : Int} {out : Outgoing} {stack : Nat → UInt8} {body : Option Bytes}
    (short : out.header.length < headerBufSize)
    (written : writeCommon pools ring podId out stack body = (after, some ring')) :
    ∃ headerSlot bodySlot : Int, ring' = ring ++ [outgoingDesc podId out body headerSlot bodySlot] ∧
      after.txHeader.read headerSlot out.header.length = out.header := by
  obtain ⟨headerSlot, bodySlot, range, _, header, _, put⟩ := writeCommon_inversion written
  have data : headerData out.header stack = out.header := if_pos short
  refine ⟨headerSlot, bodySlot, put, ?_⟩
  rw [header, data]
  exact read_bpWrite _ range (Nat.le_trans (Nat.le_of_lt short) (by decide))

/-- A call with free slots and an empty ring puts a descriptor. -/
theorem writeCommon_zeroed (podId : Int) (out : Outgoing) (stack : Nat → UInt8)
    (body : Option Bytes) :
    ∃ after desc, writeCommon ⟨.zeroed, .zeroed⟩ [] podId out stack body = (after, some [desc]) :=
  ⟨_, _, rfl⟩

end MiniMs.Dpumesh
