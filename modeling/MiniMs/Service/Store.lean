import MiniMs.Library.Text

/-!
What the service handlers look things up in: the key-value store and the query
string.

Owns: `kv_store_t` as its entries, `kv_store_get`, `query_get`, and what the
latter finds in a query whose first segment is known.

How a store is loaded from a file is not owned here.
-/

namespace MiniMs.Service

open MiniMs.Library.Text

/-! ### The key-value store -/

/-- `MAX_KEY_LEN`. -/
def maxKeyLen : Nat := 64

/-- `kv_entry_t`: a key without NUL that fits its array, and an `int`. -/
structure KvEntry where
  key : Bytes
  value : Int
  key_clean : 0 ∉ key
  key_fits : key.length < maxKeyLen
  value_low : -(2 ^ 31) ≤ value
  value_high : value < 2 ^ 31

/-- `kv_store_t`: its entries in order. -/
abbrev KvStore := List KvEntry

/-- `kv_store_get`: the value of the first entry with the key. -/
def kvStoreGet (store : KvStore) (key : Bytes) : Option Int :=
  (store.find? fun entry => entry.key = key).map KvEntry.value

theorem kvStoreGet_range {store : KvStore} {key : Bytes} {value : Int}
    (found : kvStoreGet store key = some value) : -(2 ^ 31) ≤ value ∧ value < 2 ^ 31 := by
  obtain ⟨entry, -, same⟩ := Option.map_eq_some_iff.mp found
  rw [← same]
  exact ⟨entry.value_low, entry.value_high⟩

/-! ### The query string -/

/-- The loop of `query_get`: whether a segment starts at the cursor. -/
def queryGetFrom (key : Bytes) (outsz : Nat) : Bool → Bytes → Option Bytes
  | _, [] => none
  | segmentStart, byte :: rest =>
      if segmentStart ∧ (byte :: rest).take (key.length + 1) = key ++ [61] then
        some ((((byte :: rest).drop (key.length + 1)).takeWhile (· ≠ 38)).take (outsz - 1))
      else queryGetFrom key outsz (byte = 38) rest

/-- `query_get`; `none` is its -1. -/
def queryGet (qs key : Bytes) (outsz : Nat) : Option Bytes := queryGetFrom key outsz true qs

/-- The first segment counts when it has the key. -/
theorem queryGet_first {key value : Bytes} {outsz : Nat} (plain : 38 ∉ value)
    (fits : value.length < outsz) : queryGet (key ++ 61 :: value) key outsz = some value := by
  have shape : key ++ 61 :: value = key ++ [61] ++ value := by simp
  have length : (key ++ [61]).length = key.length + 1 := by simp
  have nonempty : ∃ byte rest, key ++ [61] ++ value = byte :: rest := by
    apply List.exists_cons_of_ne_nil
    simp
  obtain ⟨byte, rest, first⟩ := nonempty
  have taken : (key ++ [61] ++ value).take (key.length + 1) = key ++ [61] := by
    rw [← length, List.take_left]
  have dropped : (key ++ [61] ++ value).drop (key.length + 1) = value := by
    rw [← length, List.drop_left]
  have whole : value.takeWhile (· ≠ 38) = value := by
    rw [List.takeWhile_eq_self_iff]
    intro other member
    simpa using ne_of_mem_of_not_mem member plain
  unfold queryGet
  rw [shape, first, queryGetFrom, ← first, if_pos ⟨rfl, taken⟩, dropped, whole,
    List.take_of_length_le (by omega)]

/-- A value holds no `&`, and fits the caller's buffer. -/
theorem queryGetFrom_spec {key qs value : Bytes} {outsz : Nat} {segmentStart : Bool}
    (found : queryGetFrom key outsz segmentStart qs = some value) :
    38 ∉ value ∧ value.length ≤ outsz - 1 ∧ ∀ byte ∈ value, byte ∈ qs := by
  induction qs generalizing segmentStart with
  | nil => contradiction
  | cons byte rest inductionHypothesis =>
      unfold queryGetFrom at found
      split at found
      · rw [← Option.some.inj found]
        refine ⟨?_, List.length_take_le _ _, ?_⟩
        · intro member
          have passed := List.mem_takeWhile_imp (List.mem_of_mem_take member)
          simp at passed
        · intro other member
          exact List.mem_of_mem_drop
            ((List.takeWhile_prefix _).subset (List.mem_of_mem_take member))
      · obtain ⟨plain, fits, inside⟩ := inductionHypothesis found
        exact ⟨plain, fits, fun other member => List.mem_cons_of_mem _ (inside other member)⟩

end MiniMs.Service
