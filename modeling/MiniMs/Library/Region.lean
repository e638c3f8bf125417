import MiniMs.Library.Text

/-!
A mapped region of memory as a function from addresses to bytes.

Owns: reading a range and `memcpy` into the region, and which ranges a copy
leaves alone.
-/

namespace MiniMs.Library.Region

open MiniMs.Library.Text

/-- The bytes of a range. -/
def bytesAt (mm : Nat → UInt8) (start count : Nat) : Bytes :=
  (List.range count).map fun index => mm (start + index)

/-- `memcpy` into the region. -/
def copyIn (mm : Nat → UInt8) (start : Nat) (data : Bytes) : Nat → UInt8 := fun address =>
  if start ≤ address ∧ address < start + data.length then data.getD (address - start) 0
  else mm address

@[simp] theorem length_bytesAt (mm : Nat → UInt8) (start count : Nat) :
    (bytesAt mm start count).length = count := by
  simp [bytesAt]

/-- A range that is copied over reads as the copy. -/
theorem bytesAt_copyIn (mm : Nat → UInt8) (start : Nat) (data : Bytes) :
    bytesAt (copyIn mm start data) start data.length = data := by
  apply List.ext_getElem
  · rw [length_bytesAt]
  · intro index inRange inData
    have inside : start ≤ start + index ∧ start + index < start + data.length := by omega
    simp only [bytesAt, copyIn, List.getElem_map, List.getElem_range, if_pos inside,
      Nat.add_sub_cancel_left]
    exact List.getD_eq_getElem _ _ inData

/-- A range beside the copy reads as before. -/
theorem bytesAt_copyIn_of_disjoint (mm : Nat → UInt8) {start other count : Nat} {data : Bytes}
    (disjoint : other + count ≤ start ∨ start + data.length ≤ other) :
    bytesAt (copyIn mm start data) other count = bytesAt mm other count := by
  apply List.map_congr_left
  intro index inRange
  have below : index < count := List.mem_range.mp inRange
  have outside : ¬ (start ≤ other + index ∧ other + index < start + data.length) := by omega
  exact if_neg outside

end MiniMs.Library.Region
