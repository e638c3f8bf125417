import MiniMs.Dpumesh.Descriptor
import MiniMs.Library.Packed

/-!
The 64 bytes of a descriptor in the two languages.

Owns: the packed record `sw_descriptor_t` with its bytes in memory, the Python
dataclass with `pack` and `unpack`, the flag masks of both sides, and that the
two formats are one.

The machine is little-endian, as the comment on the C type takes it to be.
-/

namespace MiniMs.Dpumesh.Layout

open MiniMs.Library.Text MiniMs.Library.Packed

/-- `DPUMESH_DESCRIPTOR_SIZE`, `DESCRIPTOR_SIZE`. -/
def descriptorSize : Nat := 64

/-! ### The C record -/

/-- `sw_descriptor_t`. -/
structure SwDescriptorT where
  headerBufSlot : Int32
  headerLen : UInt32
  bodyBufSlot : Int32
  bodyLen : UInt32
  reqId : UInt32
  stepId : UInt32
  dstPodId : Int32
  srcPodId : Int32
  flags : Int8
  valid : Int8
  srcBodyPoolType : UInt8
  srcHeaderPoolType : UInt8
  srcBodyPodId : Int32
  srcHeaderPodId : Int32
  srcBodyBufSlot : Int32
  srcHeaderBufSlot : Int32
  padding : Vector UInt8 12
deriving DecidableEq

/-- The bytes of an `int32_t` in memory. -/
def int32Bytes (value : Int32) : Bytes := leBytes 4 value.toUInt32.toNat

/-- The bytes of a `uint32_t` in memory. -/
def uint32Bytes (value : UInt32) : Bytes := leBytes 4 value.toNat

/-- The `uint32_t` at an offset. -/
def uint32At (bytes : Bytes) (offset : Nat) : UInt32 :=
  UInt32.ofNat (leValue ((bytes.drop offset).take 4))

/-- The `int32_t` at an offset. -/
def int32At (bytes : Bytes) (offset : Nat) : Int32 := (uint32At bytes offset).toInt32

/-- The byte at an offset. -/
def uint8At (bytes : Bytes) (offset : Nat) : UInt8 := bytes.getD offset 0

/-- The bytes of the fields before the padding. -/
def SwDescriptorT.fieldBytes (desc : SwDescriptorT) : Bytes :=
  int32Bytes desc.headerBufSlot ++ uint32Bytes desc.headerLen ++
  int32Bytes desc.bodyBufSlot ++ uint32Bytes desc.bodyLen ++
  uint32Bytes desc.reqId ++ uint32Bytes desc.stepId ++
  int32Bytes desc.dstPodId ++ int32Bytes desc.srcPodId ++
  [desc.flags.toUInt8] ++ [desc.valid.toUInt8] ++
  [desc.srcBodyPoolType] ++ [desc.srcHeaderPoolType] ++
  int32Bytes desc.srcBodyPodId ++ int32Bytes desc.srcHeaderPodId ++
  int32Bytes desc.srcBodyBufSlot ++ int32Bytes desc.srcHeaderBufSlot

/-- The bytes of the packed record. -/
def SwDescriptorT.bytes (desc : SwDescriptorT) : Bytes :=
  desc.fieldBytes ++ desc.padding.toList

/-- Bytes read as the packed record, each field at its offset. -/
def SwDescriptorT.ofBytes (bytes : Bytes) : SwDescriptorT where
  headerBufSlot := int32At bytes 0
  headerLen := uint32At bytes 4
  bodyBufSlot := int32At bytes 8
  bodyLen := uint32At bytes 12
  reqId := uint32At bytes 16
  stepId := uint32At bytes 20
  dstPodId := int32At bytes 24
  srcPodId := int32At bytes 28
  flags := (uint8At bytes 32).toInt8
  valid := (uint8At bytes 33).toInt8
  srcBodyPoolType := uint8At bytes 34
  srcHeaderPoolType := uint8At bytes 35
  srcBodyPodId := int32At bytes 36
  srcHeaderPodId := int32At bytes 40
  srcBodyBufSlot := int32At bytes 44
  srcHeaderBufSlot := int32At bytes 48
  padding := Vector.ofFn fun index => uint8At bytes (52 + index)

@[simp] theorem length_int32Bytes (value : Int32) : (int32Bytes value).length = 4 :=
  length_leBytes 4 _

@[simp] theorem length_uint32Bytes (value : UInt32) : (uint32Bytes value).length = 4 :=
  length_leBytes 4 _

theorem SwDescriptorT.length_fieldBytes (desc : SwDescriptorT) : desc.fieldBytes.length = 52 := by
  simp [fieldBytes]

theorem SwDescriptorT.length_bytes (desc : SwDescriptorT) :
    desc.bytes.length = descriptorSize := by
  rw [bytes, List.length_append, length_fieldBytes, Vector.length_toList]
  rfl

theorem uint32At_append {front back : Bytes} {offset : Nat}
    (inside : offset + 4 ≤ front.length) :
    uint32At (front ++ back) offset = uint32At front offset := by
  have enough : 4 ≤ (front.drop offset).length := by
    rw [List.length_drop]
    omega
  rw [uint32At, uint32At, List.drop_append_of_le_length (by omega),
    List.take_append_of_le_length enough]

theorem uint32At_last {front : Bytes} {offset : Nat} (value : UInt32)
    (length : front.length = offset) : uint32At (front ++ uint32Bytes value) offset = value := by
  have below : value.toNat < 256 ^ 4 := value.toNat_lt
  have whole : (uint32Bytes value).take 4 = uint32Bytes value :=
    List.take_of_length_le (length_uint32Bytes value).le
  rw [uint32At, List.drop_left' length, whole, uint32Bytes, leValue_leBytes,
    Nat.mod_eq_of_lt below, UInt32.ofNat_toNat]

theorem int32At_append {front back : Bytes} {offset : Nat}
    (inside : offset + 4 ≤ front.length) :
    int32At (front ++ back) offset = int32At front offset := by
  rw [int32At, int32At, uint32At_append inside]

theorem int32At_last {front : Bytes} {offset : Nat} (value : Int32)
    (length : front.length = offset) : int32At (front ++ int32Bytes value) offset = value := by
  have word := uint32At_last value.toUInt32 length
  rw [int32At]
  exact (congrArg UInt32.toInt32 word).trans value.toInt32_toUInt32

theorem uint8At_append {front back : Bytes} {offset : Nat} (inside : offset < front.length) :
    uint8At (front ++ back) offset = uint8At front offset := by
  rw [uint8At, uint8At, List.getD_append _ _ _ _ inside]

theorem uint8At_last {front : Bytes} {offset : Nat} (value : UInt8)
    (length : front.length = offset) : uint8At (front ++ [value]) offset = value := by
  rw [uint8At, ← length, List.getD_append_right _ _ _ _ le_rfl, Nat.sub_self]
  rfl

/-- The padding is what follows the last field. -/
theorem SwDescriptorT.padding_at (desc : SwDescriptorT) (index : Nat) (inside : index < 12) :
    uint8At desc.bytes (52 + index) = desc.padding[index] := by
  have front := desc.length_fieldBytes
  rw [uint8At, bytes, List.getD_append_right _ _ _ _ (by omega), front, Nat.add_sub_cancel_left]
  simp [inside]

/-- A record survives the way through memory. -/
theorem SwDescriptorT.ofBytes_bytes (desc : SwDescriptorT) : ofBytes desc.bytes = desc := by
  have padding : (Vector.ofFn fun index : Fin 12 => uint8At desc.bytes (52 + index)) =
      desc.padding := by
    apply Vector.ext
    intro index inside
    rw [Vector.getElem_ofFn]
    exact desc.padding_at index inside
  have first : int32At (int32Bytes desc.headerBufSlot) 0 = desc.headerBufSlot :=
    @int32At_last [] 0 desc.headerBufSlot rfl
  unfold ofBytes
  rw [padding]
  unfold bytes fieldBytes
  simp (disch := simp) only [int32At_append, int32At_last, uint32At_append,
    uint32At_last, uint8At_append, uint8At_last, first]
  rfl

theorem uint32Bytes_uint32At {bytes : Bytes} {offset : Nat}
    (inside : offset + 4 ≤ bytes.length) :
    uint32Bytes (uint32At bytes offset) = (bytes.drop offset).take 4 := by
  have four : ((bytes.drop offset).take 4).length = 4 := by
    rw [List.length_take, List.length_drop]
    omega
  have below := leValue_lt ((bytes.drop offset).take 4)
  have again := leBytes_leValue ((bytes.drop offset).take 4)
  rw [four] at below again
  rw [uint32Bytes, uint32At, UInt32.toNat_ofNat_of_lt' below, again]

theorem int32Bytes_int32At {bytes : Bytes} {offset : Nat}
    (inside : offset + 4 ≤ bytes.length) :
    int32Bytes (int32At bytes offset) = (bytes.drop offset).take 4 :=
  uint32Bytes_uint32At inside

theorem uint8At_eq_take {bytes : Bytes} {offset : Nat} (inside : offset < bytes.length) :
    [uint8At bytes offset] = (bytes.drop offset).take 1 := by
  rw [uint8At, List.getD_eq_getElem _ _ inside, List.drop_eq_getElem_cons inside]
  rfl

/-- Every 64 bytes are the bytes of a record. -/
theorem SwDescriptorT.bytes_ofBytes {bytes : Bytes} (length : bytes.length = descriptorSize) :
    (ofBytes bytes).bytes = bytes := by
  have size : bytes.length = 64 := length
  have front : (ofBytes bytes).fieldBytes = bytes.take 52 := by
    have first : int32Bytes (int32At bytes 0) = bytes.take 4 := int32Bytes_int32At (by omega)
    unfold fieldBytes ofBytes
    simp (disch := omega) only [int32Bytes_int32At, uint32Bytes_uint32At, uint8At_eq_take,
      UInt8.toUInt8_toInt8, ← List.take_add, first]
  have back : (ofBytes bytes).padding.toList = bytes.drop 52 := by
    apply List.ext_getElem
    · rw [Vector.length_toList, List.length_drop, size]
    · intro index inVector inDrop
      have inside : 52 + index < bytes.length := by
        rw [List.length_drop] at inDrop
        omega
      rw [Vector.getElem_toList, List.getElem_drop, ← List.getD_eq_getElem _ 0 inside]
      exact Vector.getElem_ofFn _
  rw [SwDescriptorT.bytes, front, back, List.take_append_drop]

/-! ### The Python dataclass -/

/-- `SwDescriptor` of `common.py`, with unbounded integers in its fields. -/
structure PyDescriptor where
  headerBufSlot : Int := -1
  headerLen : Int := 0
  bodyBufSlot : Int := -1
  bodyLen : Int := 0
  reqId : Int := 0
  stepId : Int := 0
  dstPodId : Int := 0
  srcPodId : Int := 0
  flags : Int := 0
  valid : Int := 0
  srcBodyPoolType : Int := 0
  srcHeaderPoolType : Int := 0
  srcBodyPodId : Int := 0
  srcHeaderPodId : Int := 0
  srcBodyBufSlot : Int := -1
  srcHeaderBufSlot : Int := -1
deriving DecidableEq, Repr

/-- `_DESC_FMT`: `<iIiIIIiibbBBiiii12x`. -/
def descFmt : List Library.Packed.Field :=
  [.signed 4, .unsigned 4, .signed 4, .unsigned 4, .unsigned 4, .unsigned 4, .signed 4, .signed 4,
    .signed 1, .signed 1, .unsigned 1, .unsigned 1,
    .signed 4, .signed 4, .signed 4, .signed 4, .pad 12]

/-- The assertion below `_DESC_SIZE`. -/
theorem size_descFmt : size descFmt = descriptorSize := rfl

/-- The arguments of `struct.pack`, in order. -/
def PyDescriptor.vals (desc : PyDescriptor) : List Int :=
  [desc.headerBufSlot, desc.headerLen, desc.bodyBufSlot, desc.bodyLen, desc.reqId, desc.stepId,
    desc.dstPodId, desc.srcPodId, desc.flags, desc.valid,
    desc.srcBodyPoolType, desc.srcHeaderPoolType, desc.srcBodyPodId, desc.srcHeaderPodId,
    desc.srcBodyBufSlot, desc.srcHeaderBufSlot]

/-- `SwDescriptor.pack`; `none` is `struct.error`. -/
def PyDescriptor.pack (desc : PyDescriptor) : Option Bytes :=
  Library.Packed.pack descFmt desc.vals

/-- The constructor call in `unpack`, each keyword with its index. -/
def PyDescriptor.ofVals (vals : List Int) : PyDescriptor where
  headerBufSlot := vals.getD 0 0
  headerLen := vals.getD 1 0
  bodyBufSlot := vals.getD 2 0
  bodyLen := vals.getD 3 0
  reqId := vals.getD 4 0
  stepId := vals.getD 5 0
  dstPodId := vals.getD 6 0
  srcPodId := vals.getD 7 0
  flags := vals.getD 8 0
  valid := vals.getD 9 0
  srcBodyPoolType := vals.getD 10 0
  srcHeaderPoolType := vals.getD 11 0
  srcBodyPodId := vals.getD 12 0
  srcHeaderPodId := vals.getD 13 0
  srcBodyBufSlot := vals.getD 14 0
  srcHeaderBufSlot := vals.getD 15 0

/-- `SwDescriptor.unpack`; `none` is `struct.error`. -/
def PyDescriptor.unpack (data : Bytes) : Option PyDescriptor :=
  (Library.Packed.unpack descFmt (data.take descriptorSize)).map ofVals

theorem PyDescriptor.ofVals_vals (desc : PyDescriptor) : ofVals desc.vals = desc := rfl

theorem PyDescriptor.length_of_pack {desc : PyDescriptor} {bytes : Bytes}
    (packed : desc.pack = some bytes) : bytes.length = descriptorSize :=
  (Library.Packed.length_of_pack packed).trans size_descFmt

theorem PyDescriptor.unpack_of_pack {desc : PyDescriptor} {bytes : Bytes}
    (packed : desc.pack = some bytes) : unpack bytes = some desc := by
  have whole : bytes.take descriptorSize = bytes :=
    List.take_of_length_le (length_of_pack packed).le
  rw [unpack, whole, Library.Packed.unpack_of_pack packed, Option.map_some, ofVals_vals]

/-! ### One format -/

/-- The field values of the C record, as Python integers. -/
def SwDescriptorT.fields (desc : SwDescriptorT) : PyDescriptor where
  headerBufSlot := desc.headerBufSlot.toInt
  headerLen := desc.headerLen.toNat
  bodyBufSlot := desc.bodyBufSlot.toInt
  bodyLen := desc.bodyLen.toNat
  reqId := desc.reqId.toNat
  stepId := desc.stepId.toNat
  dstPodId := desc.dstPodId.toInt
  srcPodId := desc.srcPodId.toInt
  flags := desc.flags.toInt
  valid := desc.valid.toInt
  srcBodyPoolType := desc.srcBodyPoolType.toNat
  srcHeaderPoolType := desc.srcHeaderPoolType.toNat
  srcBodyPodId := desc.srcBodyPodId.toInt
  srcHeaderPodId := desc.srcHeaderPodId.toInt
  srcBodyBufSlot := desc.srcBodyBufSlot.toInt
  srcHeaderBufSlot := desc.srcHeaderBufSlot.toInt

/-- The padding that `12x` writes. -/
def zeroPadding : Vector UInt8 12 := Vector.replicate 12 0

theorem inTwos_int32 (value : Int32) : InTwos 4 value.toInt := by
  have low := value.le_toInt
  have high := value.toInt_lt
  constructor <;> omega

theorem inTwos_int8 (value : Int8) : InTwos 1 value.toInt := by
  have low := value.le_toInt
  have high := value.toInt_lt
  constructor <;> omega

theorem twosWord_int32 (value : Int32) : twosWord 4 value.toInt = value.toUInt32.toNat := by
  have below := value.toUInt32.toNat_lt
  have word : value.toInt = Int.bmod value.toUInt32.toNat (2 ^ 32) :=
    BitVec.toInt_eq_toNat_bmod value.toBitVec
  rw [twosWord, word]
  have residue := Int.bmod_emod (x := value.toUInt32.toNat) (m := 2 ^ 32)
  omega

theorem twosWord_int8 (value : Int8) : twosWord 1 value.toInt = value.toUInt8.toNat := by
  have below := value.toUInt8.toNat_lt
  have word : value.toInt = Int.bmod value.toUInt8.toNat (2 ^ 8) :=
    BitVec.toInt_eq_toNat_bmod value.toBitVec
  rw [twosWord, word]
  have residue := Int.bmod_emod (x := value.toUInt8.toNat) (m := 2 ^ 8)
  omega

/-- A field of type `int32_t` packs as `i` to its bytes in memory. -/
theorem pack_int32 (value : Int32) (format : List Library.Packed.Field) (values : List Int) :
    Library.Packed.pack (.signed 4 :: format) (value.toInt :: values) =
      (Library.Packed.pack format values).map (int32Bytes value ++ ·) := by
  rw [Library.Packed.pack, if_pos (inTwos_int32 value), twosWord_int32]
  rfl

theorem pack_uint32 (value : UInt32) (format : List Library.Packed.Field) (values : List Int) :
    Library.Packed.pack (.unsigned 4 :: format) ((value.toNat : Int) :: values) =
      (Library.Packed.pack format values).map (uint32Bytes value ++ ·) := by
  have below := value.toNat_lt
  rw [Library.Packed.pack, if_pos (by omega)]
  rfl

theorem pack_int8 (value : Int8) (format : List Library.Packed.Field) (values : List Int) :
    Library.Packed.pack (.signed 1 :: format) (value.toInt :: values) =
      (Library.Packed.pack format values).map ([value.toUInt8] ++ ·) := by
  rw [Library.Packed.pack, if_pos (inTwos_int8 value), twosWord_int8, leBytes, leBytes,
    UInt8.ofNat_toNat]

theorem pack_uint8 (value : UInt8) (format : List Library.Packed.Field) (values : List Int) :
    Library.Packed.pack (.unsigned 1 :: format) ((value.toNat : Int) :: values) =
      (Library.Packed.pack format values).map ([value] ++ ·) := by
  have below := value.toNat_lt
  rw [Library.Packed.pack, if_pos (by omega), Int.toNat_natCast, leBytes, leBytes,
    UInt8.ofNat_toNat]

/-- The format without its pad bytes. -/
def fieldFmt : List Library.Packed.Field := descFmt.dropLast

theorem SwDescriptorT.pack_fieldFmt (desc : SwDescriptorT) :
    Library.Packed.pack fieldFmt desc.fields.vals = some desc.fieldBytes := by
  unfold fieldFmt descFmt PyDescriptor.vals fields
  simp only [List.dropLast, pack_int32, pack_uint32, pack_int8, pack_uint8, pack_nil,
    Option.map_some, fieldBytes, List.append_assoc, List.append_nil]

/-- The two languages write the same bytes, where the padding is zero. -/
theorem SwDescriptorT.pack_fields (desc : SwDescriptorT) :
    desc.fields.pack = some (desc.fieldBytes ++ zeroPadding.toList) := by
  unfold PyDescriptor.pack descFmt PyDescriptor.vals fields
  simp only [pack_int32, pack_uint32, pack_int8, pack_uint8, pack_pad, pack_nil, Option.map_some,
    fieldBytes, List.append_assoc, List.append_nil]
  rfl

/-- A Python reader sees the fields, whatever the padding. -/
theorem SwDescriptorT.unpack_bytes (desc : SwDescriptorT) :
    PyDescriptor.unpack desc.bytes = some desc.fields := by
  have whole : desc.bytes.take descriptorSize = desc.bytes :=
    List.take_of_length_le desc.length_bytes.le
  have padding : Library.Packed.unpack [.pad 12] desc.padding.toList = some [] := by
    rw [Library.Packed.unpack, if_neg (by simp), List.drop_of_length_le (by simp)]
    rfl
  have read := unpack_append_of_pack desc.pack_fieldFmt [.pad 12] desc.padding.toList
  rw [padding, Option.map_some, List.append_nil] at read
  rw [PyDescriptor.unpack, whole]
  exact congrArg (Option.map PyDescriptor.ofVals) read

/-- Python's bytes read as the C record give back the Python fields. -/
theorem PyDescriptor.fields_ofBytes {desc : PyDescriptor} {bytes : Bytes}
    (packed : desc.pack = some bytes) : (SwDescriptorT.ofBytes bytes).fields = desc := by
  have read := (SwDescriptorT.ofBytes bytes).unpack_bytes
  rw [SwDescriptorT.bytes_ofBytes (length_of_pack packed), unpack_of_pack packed] at read
  exact (Option.some.inj read).symm

/-- Python writes zero padding. -/
theorem PyDescriptor.padding_ofBytes {desc : PyDescriptor} {bytes : Bytes}
    (packed : desc.pack = some bytes) : (SwDescriptorT.ofBytes bytes).padding = zeroPadding := by
  have written := (SwDescriptorT.ofBytes bytes).pack_fields
  have whole := SwDescriptorT.bytes_ofBytes (length_of_pack packed)
  rw [fields_ofBytes packed, packed] at written
  have same := whole.trans (Option.some.inj written)
  rw [SwDescriptorT.bytes] at same
  exact Vector.toList_inj.mp (List.append_cancel_left same)

/-! ### The flag masks -/

/-- `SwDescriptor.is_response`. -/
def PyDescriptor.isResponse (desc : PyDescriptor) : Bool :=
  Int.land desc.flags 0xF0 == opResponse.toNat

/-- `SwDescriptor.case_flag`. -/
def PyDescriptor.caseFlag (desc : PyDescriptor) : Int := Int.land desc.flags 0x0F

/-- `is_response` in `dpumesh_poller_fn`: the flags byte is promoted with its sign. -/
def SwDescriptorT.isResponse (desc : SwDescriptorT) : Bool :=
  desc.flags.toInt32 &&& 0xF0 == opResponse.toUInt32.toInt32

/-- `case_flag` in `dpumesh_read`. -/
def SwDescriptorT.caseFlag (desc : SwDescriptorT) : Int32 := desc.flags.toInt32 &&& 0x0F

/-- A signed byte is one of 256. -/
theorem exists_ofInt (flags : Int8) : ∃ byte : Fin 256, Int8.ofInt (byte - 128) = flags := by
  have low := flags.le_toInt
  have high := flags.toInt_lt
  have same : (((flags.toInt + 128).toNat : Nat) : Int) - 128 = flags.toInt := by omega
  refine ⟨⟨(flags.toInt + 128).toNat, by omega⟩, ?_⟩
  rw [same, Int8.ofInt_toInt]

/-- The sign bits of a promoted flags byte lie outside both masks, in C as in Python. -/
theorem land_high (flags : Int8) :
    Int.land flags.toInt 0xF0 = (flags.toInt32 &&& 0xF0).toInt := by
  have all : ∀ byte : Fin 256, Int.land (Int8.ofInt (byte - 128)).toInt 0xF0 =
      ((Int8.ofInt (byte - 128)).toInt32 &&& 0xF0).toInt := by decide +kernel
  obtain ⟨byte, rfl⟩ := exists_ofInt flags
  exact all byte

theorem land_low (flags : Int8) :
    Int.land flags.toInt 0x0F = (flags.toInt32 &&& 0x0F).toInt := by
  have all : ∀ byte : Fin 256, Int.land (Int8.ofInt (byte - 128)).toInt 0x0F =
      ((Int8.ofInt (byte - 128)).toInt32 &&& 0x0F).toInt := by decide +kernel
  obtain ⟨byte, rfl⟩ := exists_ofInt flags
  exact all byte

theorem SwDescriptorT.isResponse_fields (desc : SwDescriptorT) :
    desc.fields.isResponse = desc.isResponse := by
  have response : (opResponse.toNat : Int) = opResponse.toUInt32.toInt32.toInt := rfl
  have high : Int.land desc.fields.flags 0xF0 = (desc.flags.toInt32 &&& 0xF0).toInt :=
    land_high desc.flags
  unfold PyDescriptor.isResponse isResponse
  rw [high, response, Bool.eq_iff_iff, beq_iff_eq, beq_iff_eq, Int32.toInt_inj]

theorem SwDescriptorT.caseFlag_fields (desc : SwDescriptorT) :
    desc.fields.caseFlag = desc.caseFlag.toInt := land_low desc.flags

/-- The C record and the Python format are one format: the same bytes, the same
fields in both directions, the same reading of the flags byte. -/
theorem formats_agree :
    (∀ desc : SwDescriptorT, desc.padding = zeroPadding →
      desc.bytes.length = descriptorSize ∧ desc.fields.pack = some desc.bytes) ∧
    (∀ desc : SwDescriptorT, PyDescriptor.unpack desc.bytes = some desc.fields) ∧
    (∀ (desc : PyDescriptor) (bytes : Bytes), desc.pack = some bytes →
      (SwDescriptorT.ofBytes bytes).fields = desc ∧
      (SwDescriptorT.ofBytes bytes).padding = zeroPadding) ∧
    ∀ desc : SwDescriptorT, desc.fields.isResponse = desc.isResponse ∧
      desc.fields.caseFlag = desc.caseFlag.toInt := by
  refine ⟨?_, SwDescriptorT.unpack_bytes, ?_, ?_⟩
  · intro desc zero
    refine ⟨desc.length_bytes, ?_⟩
    rw [desc.pack_fields, SwDescriptorT.bytes, zero]
  · intro desc bytes packed
    exact ⟨PyDescriptor.fields_ofBytes packed, PyDescriptor.padding_ofBytes packed⟩
  · intro desc
    exact ⟨desc.isResponse_fields, desc.caseFlag_fields⟩

/-! ### The descriptor of the model -/

/-- The field values of the record, as the rest of the model uses them. -/
def SwDescriptorT.value (desc : SwDescriptorT) : SwDescriptor where
  headerBufSlot := desc.headerBufSlot.toInt
  headerLen := desc.headerLen.toNat
  bodyBufSlot := desc.bodyBufSlot.toInt
  bodyLen := desc.bodyLen.toNat
  reqId := desc.reqId.toNat
  stepId := desc.stepId.toNat
  dstPodId := desc.dstPodId.toInt
  srcPodId := desc.srcPodId.toInt
  flags := desc.flags.toUInt8
  valid := desc.valid.toInt
  srcBodyPoolType := desc.srcBodyPoolType.toNat
  srcHeaderPoolType := desc.srcHeaderPoolType.toNat
  srcBodyPodId := desc.srcBodyPodId.toInt
  srcHeaderPodId := desc.srcHeaderPodId.toInt
  srcBodyBufSlot := desc.srcBodyBufSlot.toInt
  srcHeaderBufSlot := desc.srcHeaderBufSlot.toInt

theorem SwDescriptorT.isResponse_value (desc : SwDescriptorT) :
    desc.value.isResponse = desc.isResponse := by
  have all : ∀ byte : Fin 256,
      ((Int8.ofInt (byte - 128)).toUInt8 &&& 0xF0 == opResponse) =
        ((Int8.ofInt (byte - 128)).toInt32 &&& 0xF0 == opResponse.toUInt32.toInt32) := by
    decide +kernel
  obtain ⟨byte, same⟩ := exists_ofInt desc.flags
  unfold SwDescriptor.isResponse isResponse value
  rw [← same]
  exact all byte

theorem SwDescriptorT.caseFlag_value (desc : SwDescriptorT) :
    desc.caseFlag.toInt = desc.value.caseFlag.toNat := by
  have all : ∀ byte : Fin 256,
      ((Int8.ofInt (byte - 128)).toInt32 &&& 0x0F).toInt =
        ((Int8.ofInt (byte - 128)).toUInt8 &&& 0x0F).toNat := by
    decide +kernel
  obtain ⟨byte, same⟩ := exists_ofInt desc.flags
  unfold SwDescriptor.caseFlag caseFlag value
  rw [← same]
  exact all byte

end MiniMs.Dpumesh.Layout
