import MiniMs.Service.Lookup
import MiniMs.Service.Query
import MiniMs.Service.StoreFile

/-!
The key that is asked for and the key that answers.

Owns: the entries of a data file, the property that a leaf service answers with
the value of the whole key it was asked for, and the exact condition on the file
and the request for it.

A key is cut three times: to the `out` buffer of `query_get` when it is asked
for, to `MAX_KEY_LEN` when it is loaded, and before both to the query of the
request, which is where the value of a request begins here.
-/

namespace MiniMs.Service

open MiniMs.Http MiniMs.Library.Text

/-! ### Entries of a file -/

/-- An entry of a data file, with the entries in front of it. -/
def ListsBehind (content : Bytes) (before : List WrittenEntry) (entry : WrittenEntry) : Prop :=
  ∃ text behind rest, Opens content text ∧ Skims before text behind ∧ EntryAt behind entry rest

/-- An entry of a data file. -/
def Lists (content : Bytes) (entry : WrittenEntry) : Prop := ∃ before, ListsBehind content before entry

theorem Skims.append {first second : List WrittenEntry} {text behind rest : Bytes}
    (front : Skims first text behind) (back : Skims second behind rest) :
    Skims (first ++ second) text rest := by
  induction front with
  | nil => exact back
  | cons entry others inductionHypothesis => exact .cons entry (inductionHypothesis back)

theorem Skims.split {before after : List WrittenEntry} {entry : WrittenEntry} {text behind : Bytes}
    (skims : Skims (before ++ entry :: after) text behind) :
    ∃ middle rest, Skims before text middle ∧ EntryAt middle entry rest := by
  induction before generalizing text with
  | nil =>
      cases skims with
      | cons first others => exact ⟨text, _, .nil, first⟩
  | cons other before inductionHypothesis =>
      cases skims with
      | cons first others =>
          obtain ⟨middle, rest, front, found⟩ := inductionHypothesis others
          exact ⟨middle, rest, .cons first front, found⟩

/-- The entries that are stored are the first ones of the file. -/
theorem listsBehind_of_stored {content : Bytes} {before after : List WrittenEntry}
    {entry : WrittenEntry}
    (stored : (loadEntries maxEntries (openBrace content)).2 = before ++ entry :: after) :
    ListsBehind content before entry ∧ before.length < maxEntries := by
  obtain ⟨behind, skims, stops⟩ := loadEntries_stops maxEntries (openBrace content)
  have whole := stops.length_le
  rw [stored] at skims whole
  obtain ⟨middle, rest, front, found⟩ := skims.split
  rcases opens_or_ends content with opens | ⟨-, ends⟩
  · refine ⟨⟨_, middle, rest, opens, front, found⟩, ?_⟩
    rw [List.length_append, List.length_cons] at whole
    omega
  · have done := loadEntries_of_stops .nil (Stops.ended (by decide : [].length < maxEntries) ends)
    rw [done] at stored
    exact absurd stored.symm (by simp)

/-- An entry behind fewer entries than there is room for is stored behind them. -/
theorem stored_of_listsBehind {content : Bytes} {before : List WrittenEntry} {entry : WrittenEntry}
    (lists : ListsBehind content before entry) (few : before.length < maxEntries) :
    ∃ after, (loadEntries maxEntries (openBrace content)).2 = before ++ entry :: after := by
  obtain ⟨text, behind, rest, opens, front, found⟩ := lists
  have skims : Skims (before ++ [entry]) text rest := front.append (.cons found .nil)
  have short : (before ++ [entry]).length ≤ maxEntries := by
    rw [List.length_append, List.length_singleton]
    exact few
  rw [openBrace_of_opens opens, loadEntries_of_skims skims, List.take_of_length_le short]
  exact ⟨_, List.append_assoc _ _ _⟩

/-! ### Look-ups -/

/-- A look-up finds the first entry whose key is cut to the one that is asked for. -/
theorem kvStoreGet_stored_iff (entries : List WrittenEntry) (key : Bytes) (value : Int) :
    kvStoreGet (entries.map WrittenEntry.stored) key = some value ↔
      ∃ before entry after, entries = before ++ entry :: after ∧
        (∀ other ∈ before, storedKey other.written ≠ key) ∧ storedKey entry.written = key ∧
        entry.value.1 = value := by
  unfold kvStoreGet
  rw [List.find?_map, Option.map_map, Option.map_eq_some_iff]
  constructor
  · rintro ⟨entry, found, same⟩
    obtain ⟨matched, before, after, shape, passed⟩ := List.find?_eq_some_iff_append.mp found
    refine ⟨before, entry, after, shape, ?_, of_decide_eq_true matched, same⟩
    intro other member equal
    have different := passed other member
    simp only [Function.comp_apply, Bool.not_eq_true', decide_eq_false_iff_not] at different
    exact different equal
  · rintro ⟨before, entry, after, shape, passed, matched, same⟩
    refine ⟨entry, List.find?_eq_some_iff_append.mpr ⟨decide_eq_true matched, before, after, shape,
      ?_⟩, same⟩
    intro other member
    simp only [Function.comp_apply, Bool.not_eq_true', decide_eq_false_iff_not]
    exact passed other member

/-! ### Replies -/

/-- A request that the service looks a key up for. -/
def Addressed (leaf : Leaf) (req : HttpRequest) : Prop :=
  req.method = ascii "GET" ∧ req.path = leaf.service.path

/-- What is left of a value in the buffer of the handler. -/
def askedKey (leaf : Leaf) (value : Bytes) : Bytes := value.take (leaf.service.outsz - 1)

theorem ampersand_notMem_key (leaf : Leaf) : 38 ∉ leaf.service.key := by
  cases leaf with
  | idService => decide
  | attendService => decide

theorem handleRequest_addressed {leaf : Leaf} {req : HttpRequest} {value : Bytes}
    (addressed : Addressed leaf req) (asked : queryValue req.query leaf.service.key = some value)
    (store : KvStore) :
    leaf.service.handleRequest store req =
      (kvStoreGet store (askedKey leaf value)).elim leaf.service.absent leaf.service.found := by
  have key : queryGet req.query leaf.service.key leaf.service.outsz = some (askedKey leaf value) := by
    rw [queryGet_eq _ _ (ampersand_notMem_key leaf), asked]
    rfl
  unfold LeafService.handleRequest
  rw [if_neg (by simp [addressed.1, addressed.2]), key]
  cases found : kvStoreGet store (askedKey leaf value) with
  | none => simp only [found, Option.elim_none]
  | some number => simp only [found, Option.elim_some]

theorem handleRequest_unaddressed {leaf : Leaf} {req : HttpRequest}
    (unaddressed : ¬ Addressed leaf req) (store : KvStore) :
    leaf.service.handleRequest store req = notFound := by
  unfold LeafService.handleRequest
  rw [if_pos]
  unfold Addressed at unaddressed
  tauto

theorem status_found (leaf : Leaf) (number : Int) : (leaf.service.found number).status = 200 := by
  cases leaf with
  | idService => rfl
  | attendService => rfl

theorem status_absent (leaf : Leaf) : leaf.service.absent.status ≠ 200 := by
  cases leaf with
  | idService => decide
  | attendService => decide

/-! ### Answers for the key asked -/

/-- A 200 reply carries the value of an entry whose key, as written in the file,
is the whole value that was asked for. -/
def AnswersAsked (leaf : Leaf) (content : Bytes) (store : KvStore) (req : HttpRequest)
    (value : Bytes) : Prop :=
  (leaf.service.handleRequest store req).status = 200 →
    ∃ entry, Lists content entry ∧ entry.written.1 = value ∧
      leaf.service.handleRequest store req = leaf.service.found entry.value

/-- The first entry with room in the store whose key and the value asked for are
cut to the same bytes. -/
def CutAlike (leaf : Leaf) (content value : Bytes) (entry : WrittenEntry) : Prop :=
  ∃ before, ListsBehind content before entry ∧ before.length < maxEntries ∧
    (∀ other ∈ before, storedKey other.written ≠ askedKey leaf value) ∧
    storedKey entry.written = askedKey leaf value

/-- Whatever is cut like the value, the file has an entry written as the whole
value with the same reply. -/
def Told (leaf : Leaf) (content value : Bytes) : Prop :=
  ∀ entry, CutAlike leaf content value entry →
    ∃ other, Lists content other ∧ other.written.1 = value ∧
      leaf.service.found other.value = leaf.service.found entry.value

/-- The entry that is cut like the value is the one that is found. -/
theorem kvStoreGet_eq_some_iff {prior store : KvStore} {content : Bytes}
    (accepted : kvStoreLoad prior (some content) = .returned 0 store) (leaf : Leaf) (value : Bytes)
    (number : Int) :
    kvStoreGet store (askedKey leaf value) = some number ↔
      ∃ entry, CutAlike leaf content value entry ∧ entry.value.1 = number := by
  rw [(kvStoreLoad_accepted accepted).2, kvStoreGet_stored_iff]
  constructor
  · rintro ⟨before, entry, after, shape, passed, matched, same⟩
    obtain ⟨lists, few⟩ := listsBehind_of_stored shape
    exact ⟨entry, ⟨before, lists, few, passed, matched⟩, same⟩
  · rintro ⟨entry, ⟨before, lists, few, passed, matched⟩, same⟩
    obtain ⟨after, shape⟩ := stored_of_listsBehind lists few
    exact ⟨before, entry, after, shape, passed, matched, same⟩

theorem answersAsked_iff {leaf : Leaf} {prior store : KvStore} {content value : Bytes}
    {req : HttpRequest} (accepted : kvStoreLoad prior (some content) = .returned 0 store)
    (asked : queryValue req.query leaf.service.key = some value) :
    AnswersAsked leaf content store req value ↔ ¬ Addressed leaf req ∨ Told leaf content value := by
  unfold AnswersAsked
  by_cases addressed : Addressed leaf req
  · rw [handleRequest_addressed addressed asked]
    have found := kvStoreGet_eq_some_iff accepted leaf value
    constructor
    · intro answers
      right
      intro entry alike
      have get := (found entry.value).mpr ⟨entry, alike, rfl⟩
      rw [get] at answers
      obtain ⟨other, lists, written, same⟩ := answers (status_found leaf _)
      exact ⟨other, lists, written, same.symm⟩
    · rintro (unaddressed | told)
      · exact absurd addressed unaddressed
      · cases get : kvStoreGet store (askedKey leaf value) with
        | none => exact fun status => absurd status (status_absent leaf)
        | some number =>
            intro status
            obtain ⟨entry, alike, same⟩ := (found number).mp get
            obtain ⟨other, lists, written, reply⟩ := told entry alike
            exact ⟨other, lists, written, by rw [reply, same, Option.elim_some]⟩
  · rw [handleRequest_unaddressed addressed]
    exact iff_of_true (fun status => absurd status (by decide)) (Or.inl addressed)

/-- A value shorter than every buffer is never taken for another one. -/
theorem told_of_short {leaf : Leaf} {content value : Bytes}
    (short : value.length < leaf.service.outsz) (shorter : value.length < maxKeyLen - 1) :
    Told leaf content value := by
  rintro entry ⟨before, lists, -, -, matched⟩
  have whole : askedKey leaf value = value := List.take_of_length_le (Nat.le_pred_of_lt short)
  have key : entry.written.1 = value := by
    rw [whole] at matched
    unfold storedKey at matched
    have length := congrArg List.length matched
    rw [List.length_take] at length
    rw [← matched, List.take_of_length_le (by omega)]
  exact ⟨entry, ⟨before, lists⟩, key, rfl⟩

/-! ### A key that answers for another -/

/-- Where the store has room left, it holds every entry of the file. -/
theorem mem_of_lists {content : Bytes} {entry : WrittenEntry}
    (left : (loadEntries maxEntries (openBrace content)).2.length < maxEntries)
    (lists : Lists content entry) : entry ∈ (loadEntries maxEntries (openBrace content)).2 := by
  obtain ⟨before, behind⟩ := lists
  have few : before.length < maxEntries := by
    obtain ⟨text, rest, -, opens, front, -⟩ := behind
    rw [openBrace_of_opens opens, loadEntries_of_skims front, List.length_append,
      List.length_take] at left
    omega
  obtain ⟨after, shape⟩ := stored_of_listsBehind behind few
  rw [shape]
  exact List.mem_append_right _ List.mem_cons_self

/-- An id of 31 letters, as the file has it and as 32 letters are cut to it. -/
def letterEntry : WrittenEntry := ⟨⟨List.replicate 31 97, by decide⟩, trueValue⟩

def letterFile : Bytes := ascii "\x7b\"" ++ List.replicate 31 97 ++ ascii "\":true\x7d"

def letterRequest : HttpRequest :=
  ⟨ascii "GET", ascii "/attend", ascii "id=" ++ List.replicate 32 97, [], 0⟩

theorem letterFile_scan :
    loadEntries maxEntries (openBrace letterFile) = (.done, [letterEntry]) := by
  rfl

/-- 32 letters are answered with the entry of 31. -/
theorem not_answersAsked :
    kvStoreLoad [] (some letterFile) = .returned 0 [letterEntry.stored] ∧
      queryValue letterRequest.query Leaf.attendService.service.key = some (List.replicate 32 97) ∧
      ¬ AnswersAsked .attendService letterFile [letterEntry.stored] letterRequest
        (List.replicate 32 97) := by
  refine ⟨rfl, by decide, ?_⟩
  intro answers
  obtain ⟨entry, lists, written, -⟩ := answers (by decide +kernel)
  have member := mem_of_lists (by rw [letterFile_scan]; decide) lists
  rw [letterFile_scan, List.mem_singleton] at member
  rw [member] at written
  exact absurd written (by decide)

def bobEntry : WrittenEntry := ⟨⟨ascii "bob", by decide⟩, toInt 7⟩

theorem answersAsked_bob :
    AnswersAsked .idService (ascii "\x7b\"bob\": 7\x7d") [bobEntry.stored]
      ⟨ascii "GET", ascii "/id", ascii "name=bob", [], 0⟩ (ascii "bob") :=
  (@answersAsked_iff .idService [] _ _ _ _ rfl (by decide)).mpr
    (Or.inr (told_of_short (by decide) (by decide)))

end MiniMs.Service
