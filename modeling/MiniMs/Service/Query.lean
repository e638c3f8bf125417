import MiniMs.Service.Store

/-!
The query string by its segments.

Owns: `query_get` with the buffer that it writes to, the segments between the
`&` of a query, and the theorem that the two loops find the first segment with
the key and copy its value.
-/

namespace MiniMs.Service

open MiniMs.Library.Text

/-! ### The loops -/

/-- `while (*p && *p != '&' && i < outsz - 1) out[i++] = *p++;`, and the NUL. -/
def copyValue (outsz : Nat) : Nat → Bytes → Bytes → Bytes
  | i, [], out => out.set i 0
  | i, byte :: rest, out =>
      if byte ≠ 38 ∧ i < outsz - 1 then copyValue outsz (i + 1) rest (out.set i byte)
      else out.set i 0

/-- The loop over the segments, with the result and what is in `out` behind it. -/
def queryGetLoop (key : Bytes) (outsz : Nat) (out : Bytes) : Bool → Bytes → Int × Bytes
  | _, [] => (-1, out)
  | segmentStart, byte :: rest =>
      if segmentStart ∧ (byte :: rest).take (key.length + 1) = key ++ [61] then
        (0, copyValue outsz 0 ((byte :: rest).drop (key.length + 1)) out)
      else queryGetLoop key outsz out (byte = 38) rest

/-- `query_get(qs, key, out, outsz)`. -/
def queryGetInto (qs key out : Bytes) (outsz : Nat) : Int × Bytes :=
  queryGetLoop key outsz out true qs

/-! ### Segments -/

/-- What stands between the `&` of a query. -/
def segments (qs : Bytes) : List Bytes := qs.splitOn 38

/-- A segment of the form `key=value`. -/
def HasKey (key segment : Bytes) : Prop := key ++ [61] <+: segment

/-- The value of the first of some segments with the key. -/
def firstValue (key : Bytes) (parts : List Bytes) : Option Bytes :=
  (parts.find? fun segment => key ++ [61] <+: segment).map (·.drop (key.length + 1))

/-- The value that a query gives a key. -/
def queryValue (qs key : Bytes) : Option Bytes := firstValue key (segments qs)

/-- A buffer that a C string has been written to. -/
def stored (out value : Bytes) : Bytes := value ++ 0 :: out.drop (value.length + 1)

theorem hasKey_iff {key segment : Bytes} :
    HasKey key segment ↔ ∃ value, segment = key ++ 61 :: value := by
  unfold HasKey
  constructor
  · rintro ⟨value, shape⟩
    exact ⟨value, by simp [← shape]⟩
  · rintro ⟨value, rfl⟩
    exact ⟨value, by simp⟩

theorem firstValue_of_hasKey {key segment : Bytes} (has : HasKey key segment) (parts : List Bytes) :
    firstValue key (segment :: parts) = some (segment.drop (key.length + 1)) := by
  have found : decide (key ++ [61] <+: segment) = true := decide_eq_true has
  unfold firstValue
  rw [List.find?_cons, found]
  rfl

theorem firstValue_of_not_hasKey {key segment : Bytes} (other : ¬ HasKey key segment)
    (parts : List Bytes) : firstValue key (segment :: parts) = firstValue key parts := by
  have passed : decide (key ++ [61] <+: segment) = false := decide_eq_false other
  unfold firstValue
  rw [List.find?_cons, passed]

theorem segments_nil : segments [] = [[]] := rfl

theorem segments_ampersand (rest : Bytes) : segments (38 :: rest) = [] :: segments rest := by
  unfold segments
  rw [List.splitOn_cons_eq_if_modifyHead]
  exact if_pos rfl

theorem segments_cons {byte : UInt8} (other : byte ≠ 38) (rest : Bytes) :
    segments (byte :: rest) = (segments rest).modifyHead (byte :: ·) := by
  unfold segments
  rw [List.splitOn_cons_eq_if_modifyHead]
  exact if_neg (by simpa using other)

/-- The first segment ends at the first `&`. -/
theorem segments_eq_cons (qs : Bytes) :
    segments qs = qs.takeWhile (· ≠ 38) :: (segments qs).tail := by
  induction qs with
  | nil => rfl
  | cons byte rest inductionHypothesis =>
      by_cases ampersand : byte = 38
      · rw [ampersand, segments_ampersand]
        rfl
      · rw [segments_cons ampersand, inductionHypothesis, List.takeWhile_cons_of_pos (by simpa)]
        rfl

theorem takeWhile_drop_of_isPrefix {front text : Bytes} (plain : 38 ∉ front)
    (begins : front <+: text) :
    (text.drop front.length).takeWhile (· ≠ 38) = (text.takeWhile (· ≠ 38)).drop front.length := by
  obtain ⟨rest, rfl⟩ := begins
  have pass : ∀ byte ∈ front, decide (byte ≠ 38) = true := fun byte member =>
    decide_eq_true (ne_of_mem_of_not_mem member plain)
  rw [List.takeWhile_append_of_pos pass, List.drop_left, List.drop_left]

theorem isPrefix_takeWhile_iff {front text : Bytes} (plain : 38 ∉ front) :
    front <+: text.takeWhile (· ≠ 38) ↔ front <+: text := by
  constructor
  · intro begins
    exact begins.trans (List.takeWhile_prefix _)
  · rintro ⟨rest, rfl⟩
    have pass : ∀ byte ∈ front, decide (byte ≠ 38) = true := fun byte member =>
      decide_eq_true (ne_of_mem_of_not_mem member plain)
    rw [List.takeWhile_append_of_pos pass]
    exact List.prefix_append _ _

/-! ### The loops find the segment -/

theorem set_eq_stored {out : Bytes} {i : Nat} (inside : i < out.length) :
    out.set i 0 = out.take i ++ stored (out.drop i) [] := by
  rw [List.set_eq_take_append_cons_drop, if_pos inside]
  unfold stored
  rw [List.nil_append, List.length_nil, List.drop_drop]

/-- The copying loop, from `out[i]` on. -/
theorem copyValue_eq {outsz i : Nat} {text out : Bytes} (inside : i + 1 ≤ outsz)
    (fits : outsz ≤ out.length) :
    copyValue outsz i text out =
      out.take i ++ stored (out.drop i) ((text.takeWhile (· ≠ 38)).take (outsz - 1 - i)) := by
  induction text generalizing i out with
  | nil =>
      rw [copyValue, List.takeWhile_nil, List.take_nil]
      exact set_eq_stored (by omega)
  | cons byte rest inductionHypothesis =>
      rw [copyValue]
      by_cases copies : byte ≠ 38 ∧ i < outsz - 1
      · have room : outsz - 1 - i = outsz - 1 - (i + 1) + 1 := by omega
        have length : (out.set i byte).length = out.length := List.length_set
        have front : (out.set i byte).take (i + 1) = out.take i ++ [byte] := by
          rw [List.set_eq_take_append_cons_drop, if_pos (by omega), List.take_append,
            List.take_take, List.length_take]
          have one : i + 1 - min i out.length = 1 := by omega
          rw [one, Nat.min_eq_right (by omega)]
          rfl
        have back : (out.set i byte).drop (i + 1) = out.drop (i + 1) :=
          List.drop_set_of_lt (by omega)
        rw [if_pos copies, inductionHypothesis (by omega) (by omega), front, back, room,
          List.takeWhile_cons_of_pos (by simpa using copies.1), List.take_succ_cons]
        unfold stored
        simp only [List.append_assoc, List.cons_append, List.nil_append, List.length_cons,
          List.drop_drop]
        congr 5
        omega
      · rw [if_neg copies]
        have nothing : ((byte :: rest).takeWhile (· ≠ 38)).take (outsz - 1 - i) = [] := by
          by_cases ampersand : byte = 38
          · rw [List.takeWhile_cons_of_neg (by simpa using ampersand), List.take_nil]
          · have full : outsz - 1 - i = 0 := by
              by_contra more
              exact copies ⟨ampersand, by omega⟩
            rw [full, List.take_zero]
        rw [nothing]
        exact set_eq_stored (by omega)

/-- The loop stores what it finds. -/
theorem queryGetLoop_eq {key out : Bytes} {outsz : Nat} (room : 1 ≤ outsz)
    (fits : outsz ≤ out.length) (segmentStart : Bool) (text : Bytes) :
    queryGetLoop key outsz out segmentStart text =
      match queryGetFrom key outsz segmentStart text with
      | some value => (0, stored out value)
      | none => (-1, out) := by
  induction text generalizing segmentStart with
  | nil => rfl
  | cons byte rest inductionHypothesis =>
      rw [queryGetLoop, queryGetFrom]
      by_cases found : segmentStart ∧ (byte :: rest).take (key.length + 1) = key ++ [61]
      · rw [if_pos found, if_pos found, copyValue_eq room fits, List.take_zero, List.drop_zero,
          List.nil_append, Nat.sub_zero]
      · rw [if_neg found, if_neg found]
        exact inductionHypothesis _

/-- From any cursor on, the first segment with the key is found. In the middle of a
segment only the later ones count. -/
theorem queryGetFrom_eq {key : Bytes} (outsz : Nat) (plain : 38 ∉ key) (segmentStart : Bool)
    (text : Bytes) :
    queryGetFrom key outsz segmentStart text =
      (firstValue key (if segmentStart then segments text else (segments text).tail)).map
        (·.take (outsz - 1)) := by
  have plainMark : 38 ∉ key ++ [61] := by simp [plain]
  induction text generalizing segmentStart with
  | nil =>
      cases segmentStart with
      | false => rfl
      | true =>
          have short : ¬ key ++ [61] <+: [] := by simp
          rw [if_pos rfl, segments_nil, firstValue_of_not_hasKey short]
          rfl
  | cons byte rest inductionHypothesis =>
      rw [queryGetFrom]
      by_cases found : segmentStart ∧ (byte :: rest).take (key.length + 1) = key ++ [61]
      · obtain ⟨start, same⟩ := found
        have begins : key ++ [61] <+: byte :: rest := by
          rw [← same]
          exact List.take_prefix _ _
        have size : (key ++ [61]).length = key.length + 1 := by simp
        have cut := takeWhile_drop_of_isPrefix plainMark begins
        rw [size] at cut
        rw [if_pos ⟨start, same⟩, start, if_pos rfl, segments_eq_cons,
          firstValue_of_hasKey ((isPrefix_takeWhile_iff plainMark).mpr begins), cut]
        rfl
      · rw [if_neg found, inductionHypothesis]
        -- The segment at the cursor has not the key, or has begun before.
        have skipped : firstValue key
            (if segmentStart then segments (byte :: rest) else (segments (byte :: rest)).tail) =
            firstValue key (segments (byte :: rest)).tail := by
          cases segmentStart with
          | false => rfl
          | true =>
              have other : ¬ HasKey key ((byte :: rest).takeWhile (· ≠ 38)) := by
                intro has
                have begins := (isPrefix_takeWhile_iff plainMark).mp has
                apply found
                refine ⟨rfl, ?_⟩
                rw [List.prefix_iff_eq_take.mp begins]
                simp
              rw [if_pos rfl]
              nth_rewrite 1 [segments_eq_cons]
              exact firstValue_of_not_hasKey other _
        rw [skipped]
        by_cases ampersand : byte = 38
        · rw [ampersand, segments_ampersand]
          rfl
        · have tail : (segments (byte :: rest)).tail = (segments rest).tail := by
            rw [segments_cons ampersand]
            cases segments rest with
            | nil => rfl
            | cons first others => rfl
          rw [tail, decide_eq_false ampersand]
          rfl

/-- `query_get` gives the value of the first segment with the key, cut to the buffer. -/
theorem queryGet_eq (qs : Bytes) {key : Bytes} (outsz : Nat) (plain : 38 ∉ key) :
    queryGet qs key outsz = (queryValue qs key).map (·.take (outsz - 1)) :=
  queryGetFrom_eq outsz plain true qs

theorem queryGetInto_eq (qs : Bytes) {key out : Bytes} {outsz : Nat} (plain : 38 ∉ key)
    (room : 1 ≤ outsz) (fits : outsz ≤ out.length) :
    queryGetInto qs key out outsz =
      match queryValue qs key with
      | some value => (0, stored out (value.take (outsz - 1)))
      | none => (-1, out) := by
  unfold queryGetInto
  rw [queryGetLoop_eq room fits, queryGetFrom_eq outsz plain, if_pos rfl]
  unfold queryValue
  cases firstValue key (segments qs) with
  | none => rfl
  | some value => rfl

/-! ### The first segment with the key -/

theorem firstValue_append {key value : Bytes} {before : List Bytes}
    (others : ∀ segment ∈ before, ¬ HasKey key segment) (after : List Bytes) :
    firstValue key (before ++ (key ++ 61 :: value) :: after) = some value := by
  induction before with
  | nil =>
      have size : (key ++ [61]).length = key.length + 1 := by simp
      have shape : key ++ 61 :: value = key ++ [61] ++ value := by simp
      rw [List.nil_append, firstValue_of_hasKey (hasKey_iff.mpr ⟨value, rfl⟩), shape, ← size,
        List.drop_left]
  | cons segment before inductionHypothesis =>
      obtain ⟨other, others⟩ := List.forall_mem_cons.mp others
      rw [List.cons_append, firstValue_of_not_hasKey other]
      exact inductionHypothesis others

/-- There is a first segment with the key, or there is none. -/
theorem firstValue_cases (key : Bytes) (parts : List Bytes) :
    (∃ before value after, parts = before ++ (key ++ 61 :: value) :: after ∧
      ∀ segment ∈ before, ¬ HasKey key segment) ∨
    (∀ segment ∈ parts, ¬ HasKey key segment) ∧ firstValue key parts = none := by
  induction parts with
  | nil => exact Or.inr ⟨List.forall_mem_nil _, rfl⟩
  | cons segment parts inductionHypothesis =>
      by_cases has : HasKey key segment
      · obtain ⟨value, rfl⟩ := hasKey_iff.mp has
        exact Or.inl ⟨[], value, parts, rfl, List.forall_mem_nil _⟩
      · rw [firstValue_of_not_hasKey has]
        rcases inductionHypothesis with ⟨before, value, after, rfl, others⟩ | ⟨others, none⟩
        · exact Or.inl ⟨segment :: before, value, after, rfl,
            List.forall_mem_cons.mpr ⟨has, others⟩⟩
        · exact Or.inr ⟨List.forall_mem_cons.mpr ⟨has, others⟩, none⟩

/-- `query_get` as its reference has it. -/
structure QueryReference (qs key out : Bytes) (outsz : Nat) : Prop where
  zero_iff : (queryGetInto qs key out outsz).1 = 0 ↔
    ∃ segment ∈ segments qs, ∃ value, segment = key ++ 61 :: value
  first : ∀ before value after, segments qs = before ++ (key ++ 61 :: value) :: after →
    (∀ segment ∈ before, ¬ HasKey key segment) →
    (queryGetInto qs key out outsz).2 = stored out (value.take (outsz - 1))
  otherwise : (queryGetInto qs key out outsz).1 ≠ 0 → queryGetInto qs key out outsz = (-1, out)

theorem queryGetInto_found {qs key out value : Bytes} {outsz : Nat} (plain : 38 ∉ key)
    (room : 1 ≤ outsz) (fits : outsz ≤ out.length) {before after : List Bytes}
    (split : segments qs = before ++ (key ++ 61 :: value) :: after)
    (others : ∀ segment ∈ before, ¬ HasKey key segment) :
    queryGetInto qs key out outsz = (0, stored out (value.take (outsz - 1))) := by
  have found : queryValue qs key = some value := by
    unfold queryValue
    rw [split, firstValue_append others]
  rw [queryGetInto_eq qs plain room fits, found]

/-- `query_get` equals its reference: it finds the first segment with the key. -/
theorem queryReference {qs key out : Bytes} {outsz : Nat} (plain : 38 ∉ key) (room : 1 ≤ outsz)
    (fits : outsz ≤ out.length) : QueryReference qs key out outsz := by
  rcases firstValue_cases key (segments qs) with ⟨before, value, after, split, others⟩ | ⟨others, absent⟩
  · have result := queryGetInto_found plain room fits split others
    refine ⟨iff_of_true (by rw [result]) ⟨_, by rw [split]; simp, value, rfl⟩, ?_, ?_⟩
    · intro before' value' after' split' others'
      rw [queryGetInto_found plain room fits split' others']
    · intro nonzero
      rw [result] at nonzero
      exact absurd rfl nonzero
  · have result : queryGetInto qs key out outsz = (-1, out) := by
      have nothing : queryValue qs key = none := absent
      rw [queryGetInto_eq qs plain room fits, nothing]
    refine ⟨iff_of_false ?_ ?_, ?_, fun _ => result⟩
    · rw [result]
      exact of_decide_eq_false rfl
    · rintro ⟨segment, member, shape⟩
      exact others segment member (hasKey_iff.mpr shape)
    · intro before value after split _
      exact absurd (hasKey_iff.mpr ⟨value, rfl⟩) (others (key ++ 61 :: value) (by rw [split]; simp))

/-- The second of three segments has the key, and room for three bytes of its value. -/
theorem queryReference_second :
    QueryReference (ascii "names=x&name=alice&name=bob") (ascii "name") [1, 2, 3, 4] 4 :=
  queryReference (by decide) (by decide) (by decide)

end MiniMs.Service
