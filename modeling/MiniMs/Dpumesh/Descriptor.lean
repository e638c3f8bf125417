import Mathlib

/-!
The constants and the software descriptor that the C library and the Python
daemons share.

Owns: the sizes of the shared memory, the case and operation flags, the pool
types, and `SwDescriptor` with the field readers `isResponse` and `caseFlag`.

Field values are mathematical integers; the bytes of a descriptor are not
owned here.
-/

namespace MiniMs.Dpumesh

/-- `DPUMESH_SLOT_SIZE`: one slot holds 1 MiB. -/
def slotSize : Nat := 1024 * 1024

/-- `DPUMESH_NUM_SLOTS`. -/
def numSlots : Nat := 64

/-- `DPUMESH_MAX_DESCRIPTORS`: the capacity of every ring. -/
def maxDescriptors : Nat := 512

/-- `DPUMESH_MAX_PENDING`: the size of the per-worker tables. -/
def maxPending : Nat := 256

/-! ### Flags -/

def caseExternal : UInt8 := 1
def caseIngress : UInt8 := 2
def caseLocal : UInt8 := 3
def opRequest : UInt8 := 0x00
def opResponse : UInt8 := 0x10

/-! ### Pool types -/

/-- `PoolType`, the kinds of buffer pool a descriptor can name. -/
inductive PoolType where
  | none
  | hostTxHeader
  | hostTxBody
  | hostRxHeader
  | hostRxBody
  | dpuTxHeader
  | dpuTxBody
  | dpuRxBody
deriving DecidableEq, Repr

/-- The integer that encodes a pool type in a descriptor. -/
def PoolType.code : PoolType → Nat
  | .none => 0
  | .hostTxHeader => 1
  | .hostTxBody => 2
  | .hostRxHeader => 3
  | .hostRxBody => 4
  | .dpuTxHeader => 5
  | .dpuTxBody => 6
  | .dpuRxBody => 7

/-! ### Descriptors -/

/-- `sw_descriptor_t`, with the defaults of the Python dataclass. -/
structure SwDescriptor where
  headerBufSlot : Int := -1
  headerLen : Nat := 0
  bodyBufSlot : Int := -1
  bodyLen : Nat := 0
  reqId : Nat := 0
  stepId : Nat := 0
  dstPodId : Int := 0
  srcPodId : Int := 0
  flags : UInt8 := 0
  valid : Int := 0
  srcBodyPoolType : Nat := 0
  srcHeaderPoolType : Nat := 0
  srcBodyPodId : Int := 0
  srcHeaderPodId : Int := 0
  srcBodyBufSlot : Int := -1
  srcHeaderBufSlot : Int := -1
deriving DecidableEq, Repr

/-- `(flags & 0xF0) == OP_RESPONSE`. -/
def SwDescriptor.isResponse (desc : SwDescriptor) : Bool :=
  desc.flags &&& 0xF0 == opResponse

/-- `flags & 0x0F`. -/
def SwDescriptor.caseFlag (desc : SwDescriptor) : UInt8 :=
  desc.flags &&& 0x0F

end MiniMs.Dpumesh
