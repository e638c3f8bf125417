import Mathlib.Data.List.Basic
import Mathlib.Tactic.Common

/-!
A directory of named files that several parties create, open and unlink.

Owns: the directory, in which a name that is created again leads to a new file,
the opening of several names at once, and the exact condition under which a name
still leads to a file that it once led to.

What a file holds, and who has it open, is not owned here: an unlinked file lives
on for those who opened it before.
-/

namespace MiniMs.Library.Files

variable {Name : Type*} [DecidableEq Name]

/-- The names, each with the number of its file. Files are numbered as they are
made. -/
structure Directory (Name : Type*) where
  entries : List (Name × Nat)
  made : Nat
  below : ∀ entry ∈ entries, entry.2 < made

namespace Directory

def empty : Directory Name := ⟨[], 0, List.forall_mem_nil _⟩

/-- The file that a name leads to. -/
def entry (dir : Directory Name) (name : Name) : Option Nat :=
  (dir.entries.find? fun entry => entry.1 = name).map Prod.snd

def names (dir : Directory Name) : List Name := dir.entries.map Prod.fst

/-- The name with a new file. -/
def link (dir : Directory Name) (name : Name) : Directory Name where
  entries := (name, dir.made) :: dir.entries
  made := dir.made + 1
  below := by
    intro entry member
    rcases List.mem_cons.mp member with rfl | old
    · exact Nat.lt_succ_self _
    · exact Nat.lt_succ_of_lt (dir.below entry old)

/-- `open` with `O_CREAT`. -/
def create (dir : Directory Name) (name : Name) : Directory Name :=
  if (dir.entry name).isSome then dir else dir.link name

def unlink (dir : Directory Name) (name : Name) : Directory Name where
  entries := dir.entries.filter fun entry => entry.1 ≠ name
  made := dir.made
  below := fun entry member => dir.below entry (List.mem_of_mem_filter member)

/-- The files of several names, if all of them are there. -/
def openAll (dir : Directory Name) (names : List Name) : Option (List Nat) := names.mapM dir.entry

/-! ### Single names -/

section Entries

variable (dir : Directory Name) {name other : Name} {file : Nat}

theorem mem_of_entry (found : dir.entry name = some file) : (name, file) ∈ dir.entries := by
  unfold entry at found
  obtain ⟨⟨other, number⟩, first, rfl⟩ := Option.map_eq_some_iff.mp found
  have same : other = name := by simpa using List.find?_some first
  rw [← same]
  exact List.mem_of_find?_eq_some first

theorem entry_lt (found : dir.entry name = some file) : file < dir.made :=
  dir.below _ (dir.mem_of_entry found)

theorem mem_names (found : dir.entry name = some file) : name ∈ dir.names :=
  List.mem_map.mpr ⟨_, dir.mem_of_entry found, rfl⟩

theorem entry_link (name other : Name) :
    (dir.link name).entry other = if name = other then some dir.made else dir.entry other := by
  by_cases same : name = other <;> simp [entry, link, same]

/-- A created name leads to a file. -/
theorem entry_create_self (name : Name) : ∃ file, (dir.create name).entry name = some file := by
  unfold create
  by_cases there : (dir.entry name).isSome = true
  · rw [if_pos there]
    exact Option.isSome_iff_exists.mp there
  · rw [if_neg there, entry_link, if_pos rfl]
    exact ⟨_, rfl⟩

theorem entry_create_of_ne (different : other ≠ name) :
    (dir.create name).entry other = dir.entry other := by
  unfold create
  by_cases there : (dir.entry name).isSome = true
  · rw [if_pos there]
  · rw [if_neg there, entry_link, if_neg different.symm]

/-- What is there stays there. -/
theorem entry_create (found : dir.entry other = some file) (name : Name) :
    (dir.create name).entry other = some file := by
  by_cases same : other = name
  · have there : (dir.entry name).isSome = true := by rw [← same, found]; rfl
    unfold create
    rw [if_pos there]
    exact found
  · rw [dir.entry_create_of_ne same]
    exact found

/-- A file of old is under a name only if it was before. -/
theorem entry_of_create (old : file < dir.made) (found : (dir.create name).entry other = some file) :
    dir.entry other = some file := by
  by_cases same : other = name
  · unfold create at found
    by_cases there : (dir.entry name).isSome = true
    · rw [if_pos there] at found
      exact found
    · rw [if_neg there, entry_link, if_pos same.symm] at found
      have new := Option.some.inj found
      omega
  · rw [dir.entry_create_of_ne same] at found
    exact found

theorem entry_unlink (name other : Name) :
    (dir.unlink name).entry other = if other = name then none else dir.entry other := by
  unfold unlink entry
  by_cases same : other = name
  · simp [same]
  · rw [List.find?_filter, if_neg same]
    congr 2
    funext entry
    by_cases here : entry.1 = other
    · simp [here, same]
    · simp [here]

theorem entry_of_names_nil (none : dir.names = []) (name : Name) : dir.entry name = .none := by
  cases found : dir.entry name with
  | none => rfl
  | some file =>
      have member := dir.mem_names found
      rw [none] at member
      contradiction

/-- What is left behind an unlinked name. -/
theorem mem_names_unlink (member : name ∈ (dir.unlink other).names) :
    name ∈ dir.names ∧ name ≠ other := by
  obtain ⟨entry, inside, rfl⟩ := List.mem_map.mp member
  obtain ⟨old, different⟩ := List.mem_filter.mp inside
  exact ⟨List.mem_map.mpr ⟨entry, old, rfl⟩, of_decide_eq_true different⟩

theorem made_create (name : Name) : dir.made ≤ (dir.create name).made := by
  unfold create
  by_cases there : (dir.entry name).isSome = true
  · simp [there]
  · simp [there, link]

end Entries

/-! ### Several names -/

section OpenAll

variable {dir later : Directory Name} {names : List Name} {files : List Nat}

/-- What is opened leads to the files that it led to. -/
theorem openAll_mono (kept : ∀ name file, dir.entry name = some file → later.entry name = some file)
    (opened : dir.openAll names = some files) : later.openAll names = some files := by
  unfold openAll at opened ⊢
  induction names generalizing files with
  | nil => exact opened
  | cons name names inductionHypothesis =>
      rw [List.mapM_cons] at opened ⊢
      obtain ⟨file, first, opened⟩ := Option.bind_eq_some_iff.mp opened
      obtain ⟨rest, others, opened⟩ := Option.bind_eq_some_iff.mp opened
      rw [kept name file first, inductionHypothesis others]
      exact opened

theorem map_openAll (opened : dir.openAll names = some files) :
    files.map some = names.map dir.entry := by
  unfold openAll at opened
  induction names generalizing files with
  | nil =>
      obtain rfl := Option.some.inj opened
      rfl
  | cons name names inductionHypothesis =>
      rw [List.mapM_cons] at opened
      obtain ⟨file, first, opened⟩ := Option.bind_eq_some_iff.mp opened
      obtain ⟨rest, others, opened⟩ := Option.bind_eq_some_iff.mp opened
      obtain rfl := Option.some.inj opened
      rw [List.map_cons, List.map_cons, first, inductionHypothesis others]

/-- Where all names are there, all of them are opened. -/
theorem exists_openAll (there : ∀ name ∈ names, ∃ file, dir.entry name = some file) :
    ∃ files, dir.openAll names = some files := by
  unfold openAll
  induction names with
  | nil => exact ⟨[], rfl⟩
  | cons name names inductionHypothesis =>
      obtain ⟨file, first⟩ := there name List.mem_cons_self
      obtain ⟨files, others⟩ :=
        inductionHypothesis fun other member => there other (List.mem_cons_of_mem _ member)
      rw [List.mapM_cons, first, others]
      exact ⟨file :: files, rfl⟩

theorem exists_entry_of_openAll (opened : dir.openAll names = some files) {name : Name}
    (member : name ∈ names) : ∃ file, dir.entry name = some file := by
  unfold openAll at opened
  induction names generalizing files with
  | nil => contradiction
  | cons first names inductionHypothesis =>
      rw [List.mapM_cons] at opened
      obtain ⟨file, found, opened⟩ := Option.bind_eq_some_iff.mp opened
      obtain ⟨rest, others, -⟩ := Option.bind_eq_some_iff.mp opened
      rcases List.mem_cons.mp member with rfl | later
      · exact ⟨file, found⟩
      · exact inductionHypothesis others later

end OpenAll

/-! ### Changes -/

inductive Change (Name : Type*) where
  | create (name : Name)
  | unlink (name : Name)

def change (dir : Directory Name) : Change Name → Directory Name
  | .create name => dir.create name
  | .unlink name => dir.unlink name

theorem made_change (dir : Directory Name) (change : Change Name) :
    dir.made ≤ (dir.change change).made := by
  cases change with
  | create name => exact dir.made_create name
  | unlink name => exact Nat.le_refl _

/-- One change keeps a file under a name, unless it unlinks the name; and no change
brings back a file of old. -/
theorem entry_change_iff (dir : Directory Name) {file : Nat} (old : file < dir.made) (name : Name)
    (change : Change Name) : (dir.change change).entry name = some file ↔
      dir.entry name = some file ∧ change ≠ .unlink name := by
  cases change with
  | create other =>
      constructor
      · intro found
        refine ⟨dir.entry_of_create old found, ?_⟩
        intro same
        contradiction
      · rintro ⟨found, -⟩
        exact dir.entry_create found other
  | unlink other =>
      show (dir.unlink other).entry name = some file ↔ _
      rw [dir.entry_unlink]
      by_cases same : name = other
      · simp [same]
      · have different : Change.unlink other ≠ Change.unlink name := by
          intro equal
          exact same (Change.unlink.inj equal).symm
        rw [if_neg same]
        exact ⟨fun found => ⟨found, different⟩, And.left⟩

/-- After any number of changes a name leads to a file of old exactly where it did
before and was never unlinked. -/
theorem entry_changes_iff (changes : List (Change Name)) (dir : Directory Name) {file : Nat}
    (old : file < dir.made) (name : Name) :
    (changes.foldl change dir).entry name = some file ↔
      dir.entry name = some file ∧ Change.unlink name ∉ changes := by
  induction changes generalizing dir with
  | nil => simp
  | cons first changes inductionHypothesis =>
      have old' : file < (dir.change first).made := Nat.lt_of_lt_of_le old (dir.made_change first)
      rw [List.foldl_cons, inductionHypothesis (dir.change first) old',
        dir.entry_change_iff old name first, List.mem_cons, not_or, and_assoc]
      constructor
      · rintro ⟨found, other, rest⟩
        exact ⟨found, Ne.symm other, rest⟩
      · rintro ⟨found, other, rest⟩
        exact ⟨found, Ne.symm other, rest⟩

end Directory

end MiniMs.Library.Files
