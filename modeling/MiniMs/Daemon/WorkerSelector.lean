import MiniMs.Library.JsonPrinted
import MiniMs.Library.Turns
import MiniMs.Daemon.RegistryMap

/-!
Which worker of a service the router and the bridge threads pick.

Owns: `WorkerSelector.select` on the dictionary of its counters, runs of calls for
any services with the lists that the registry returned to each call, and the
theorem that a service whose list stays the same has its workers picked in turn.

The list is read before the lock is taken and the counter is used under it, so a
call is one step with the list that it has read.
-/

namespace MiniMs.Daemon

open MiniMs.Library.Text MiniMs.Library.Json MiniMs.Library.Turns

variable {Worker : Type}

/-! ### The selector -/

/-- `_rr_idx`. -/
abbrev RrIdx := PyStr → Option Int

/-- The index of a call that finds workers, and the counters behind it. -/
def WorkerSelector.turn (count : Nat) (rrIdx : RrIdx) (service : PyStr) : Nat × RrIdx :=
  let idx := ((rrIdx service).getD 0 % count).toNat
  (idx, Function.update rrIdx service (some (idx + 1)))

/-- `WorkerSelector.select`, for the list that the registry returns. -/
def WorkerSelector.select (workers : List Worker) (rrIdx : RrIdx) (service : PyStr) :
    Option Worker × RrIdx :=
  if workers.length = 0 then (none, rrIdx)
  else
    let (idx, behind) := WorkerSelector.turn workers.length rrIdx service
    (workers[idx]?, behind)

/-- One call: the service, and what the registry returns for it, each worker once. -/
structure SelectCall (Worker : Type) where
  service : PyStr
  workers : List Worker
  distinct : workers.Nodup

/-- The results of calls, each with its service. -/
def selections (rrIdx : RrIdx) : List (SelectCall Worker) → List (PyStr × Option Worker)
  | [] => []
  | call :: calls =>
      (call.service, (WorkerSelector.select call.workers rrIdx call.service).1) ::
        selections (WorkerSelector.select call.workers rrIdx call.service).2 calls

/-- The results of the calls for one service. -/
def selectionsOf (service : PyStr) (rrIdx : RrIdx) (calls : List (SelectCall Worker)) :
    List (Option Worker) :=
  ((selections rrIdx calls).filter fun selection => selection.1 = service).map Prod.snd

/-- The place that the next call for a service takes among `count`. -/
def place (count : Nat) (rrIdx : RrIdx) (service : PyStr) : Nat :=
  ((rrIdx service).getD 0 % count).toNat

/-! ### Lists of workers -/

/-- A worker is listed with its name, which is a key of the registry. -/
theorem names_of_mapM {found : List (PyStr × Value)} {result : List (PyStr × Int)}
    (read : (found.mapM fun member =>
      (intOf (entryWorker member.1 member.2).2).map fun podId => (member.1, podId)) = some result) :
    result.map Prod.fst = found.map Prod.fst := by
  induction found generalizing result with
  | nil =>
      obtain rfl : [] = result := by simpa using read
      rfl
  | cons member found inductionHypothesis =>
      rw [List.mapM_cons] at read
      simp only [Option.bind_eq_bind, Option.bind_eq_some_iff, Option.map_eq_some_iff,
        Option.pure_def, Option.some.injEq] at read
      obtain ⟨worker, ⟨podId, -, rfl⟩, rest, later, rfl⟩ := read
      rw [List.map_cons, List.map_cons, inductionHypothesis later]

/-- The registry lists every worker once. -/
theorem getWorkersByService_nodup {float : PyStr → Numeral} {file : Option Bytes} {service : PyStr}
    {workers : List (PyStr × Int)} (listed : getWorkersByService float file service = some workers) :
    workers.Nodup := by
  unfold getWorkersByService at listed
  split at listed
  · rename_i data loaded
    unfold deserializeHeader at loaded
    obtain ⟨text, -, loaded⟩ := Option.bind_eq_some_iff.mp loaded
    have names := nodup_of_loads loaded
    simp only [Option.bind_eq_bind, Option.bind_eq_some_iff, Option.some.injEq] at listed
    obtain ⟨result, read, rfl⟩ := listed
    apply (List.mergeSort_perm result _).nodup_iff.mpr
    apply List.Nodup.of_map Prod.fst
    rw [names_of_mapM read]
    exact names.sublist (List.filter_sublist.map _)
  · rw [← Option.some.inj listed]
    exact List.nodup_nil

/-! ### One call -/

theorem place_lt {count : Nat} (positive : 0 < count) (rrIdx : RrIdx) (service : PyStr) :
    place count rrIdx service < count := by
  have low := Int.emod_nonneg ((rrIdx service).getD 0) (by omega : (count : Int) ≠ 0)
  have high := Int.emod_lt_of_pos ((rrIdx service).getD 0) (by omega : (0 : Int) < count)
  unfold place
  omega

theorem select_self {workers : List Worker} (nonempty : workers ≠ []) (rrIdx : RrIdx)
    (service : PyStr) :
    WorkerSelector.select workers rrIdx service =
      (workers[place workers.length rrIdx service]?,
        Function.update rrIdx service (some (place workers.length rrIdx service + 1))) := by
  have positive := List.length_pos_iff.mpr nonempty
  unfold WorkerSelector.select
  rw [if_neg (by omega)]
  rfl

theorem place_update (count : Nat) (rrIdx : RrIdx) (service : PyStr) (idx : Nat) :
    place count (Function.update rrIdx service (some ((idx : Int) + 1))) service =
      (idx + 1) % count := by
  unfold place
  rw [Function.update_self, Option.getD_some]
  norm_cast

/-- Whatever the list, the index is within it. -/
theorem select_mem {workers : List Worker} (nonempty : workers ≠ []) (rrIdx : RrIdx)
    (service : PyStr) :
    ∃ worker ∈ workers, (WorkerSelector.select workers rrIdx service).1 = some worker := by
  have inside := place_lt (List.length_pos_iff.mpr nonempty) rrIdx service
  rw [select_self nonempty]
  exact ⟨workers[place workers.length rrIdx service], List.getElem_mem inside,
    List.getElem?_eq_getElem inside⟩

theorem select_other {service other : PyStr} (different : other ≠ service) (workers : List Worker)
    (rrIdx : RrIdx) : (WorkerSelector.select workers rrIdx other).2 service = rrIdx service := by
  unfold WorkerSelector.select WorkerSelector.turn
  split
  · rfl
  · exact Function.update_of_ne different.symm _ _

/-! ### Runs -/

/-- The calls for a service whose list stays the same take turns, whatever calls for
other services come between them. -/
theorem selectionsOf_eq {service : PyStr} {workers : List Worker} (nonempty : workers ≠ [])
    (rrIdx : RrIdx) {calls : List (SelectCall Worker)}
    (same : ∀ call ∈ calls, call.service = service → call.workers = workers) :
    selectionsOf service rrIdx calls =
      (turns workers.length (place workers.length rrIdx service)
        (selectionsOf service rrIdx calls).length).map fun turn => workers[turn]? := by
  have positive := List.length_pos_iff.mpr nonempty
  induction calls generalizing rrIdx with
  | nil => rfl
  | cons call calls inductionHypothesis =>
      obtain ⟨head, later⟩ := List.forall_mem_cons.mp same
      by_cases asked : call.service = service
      · have first : selectionsOf service rrIdx (call :: calls) =
            (WorkerSelector.select call.workers rrIdx call.service).1 ::
              selectionsOf service (WorkerSelector.select call.workers rrIdx call.service).2
                calls := by
          unfold selectionsOf
          rw [selections, List.filter_cons_of_pos (by simpa using asked), List.map_cons]
        have inside := place_lt positive rrIdx service
        rw [first, head asked, asked, select_self nonempty, List.length_cons, turns_succ,
          List.map_cons, Nat.mod_eq_of_lt inside]
        have rest := inductionHypothesis (Function.update rrIdx service
          (some ((place workers.length rrIdx service : Int) + 1))) later
        rw [place_update, turns_mod] at rest
        exact congrArg _ rest
      · have passed : selectionsOf service rrIdx (call :: calls) =
            selectionsOf service (WorkerSelector.select call.workers rrIdx call.service).2 calls := by
          unfold selectionsOf
          rw [selections, List.filter_cons_of_neg (by simpa using asked)]
        have kept : place workers.length
            (WorkerSelector.select call.workers rrIdx call.service).2 service =
            place workers.length rrIdx service := by
          unfold place
          rw [select_other asked]
        rw [passed, ← kept]
        exact inductionHypothesis _ later

/-- Every worker is picked as often as the others or once more, and any as many
successive calls as there are workers pick each of them once. -/
structure Fair [DecidableEq Worker] (workers : List Worker) (selected : List (Option Worker)) :
    Prop where
  balanced : ∀ worker ∈ workers,
    selected.count (some worker) = selected.length / workers.length ∨
      selected.count (some worker) = (selected.length + workers.length - 1) / workers.length
  windows : ∀ before window after, selected = before ++ (window ++ after) →
    window.length = workers.length → window.Perm (workers.map some)

theorem map_range_getElem? (workers : List Worker) :
    (List.range workers.length).map (fun turn => workers[turn]?) = workers.map some := by
  apply List.ext_getElem
  · simp
  · intro turn first second
    simp

/-- Turns among the places of a list without repetitions are fair. -/
theorem fair_turns [DecidableEq Worker] {workers : List Worker} (nonempty : workers ≠ [])
    (distinct : workers.Nodup) (start length : Nat) :
    Fair workers ((turns workers.length start length).map fun turn => workers[turn]?) := by
  have positive := List.length_pos_iff.mpr nonempty
  constructor
  · intro worker member
    obtain ⟨index, inside, rfl⟩ := List.getElem_of_mem member
    -- The worker stands at one place only.
    have counted : ((turns workers.length start length).map fun turn => workers[turn]?).count
        (some workers[index]) = (turns workers.length start length).count index := by
      rw [List.count_eq_countP, List.count_eq_countP, List.countP_map]
      apply List.countP_congr
      intro turn taken
      have turnInside := mem_turns_lt positive taken
      simp only [Function.comp_apply, beq_iff_eq, List.getElem?_eq_getElem turnInside,
        Option.some.injEq]
      exact distinct.getElem_inj_iff
    rw [counted, List.length_map, length_turns]
    exact count_turns inside start length
  · intro before window after split size
    obtain ⟨first, behind, turns_eq, rfl, behind_eq⟩ := List.map_eq_append_iff.mp split
    obtain ⟨inner, last, rfl, rfl, rfl⟩ := List.map_eq_append_iff.mp behind_eq
    rw [List.length_map] at size
    have round := (window_perm positive turns_eq size).map fun turn => workers[turn]?
    rwa [map_range_getElem?] at round

theorem fair_nil [DecidableEq Worker] {workers : List Worker} (nonempty : workers ≠ []) :
    Fair workers ([] : List (Option Worker)) := by
  have positive := List.length_pos_iff.mpr nonempty
  constructor
  · intro worker _
    exact Or.inl (Nat.zero_div _).symm
  · intro before window after split size
    have empty : window = [] := (List.append_eq_nil_iff.mp (List.append_eq_nil_iff.mp split.symm).2).1
    rw [empty, List.length_nil] at size
    omega

theorem selectionsOf_nil {service : PyStr} {calls : List (SelectCall Worker)}
    (others : ∀ call ∈ calls, call.service ≠ service) (rrIdx : RrIdx) :
    selectionsOf service rrIdx calls = [] := by
  induction calls generalizing rrIdx with
  | nil => rfl
  | cons call calls inductionHypothesis =>
      obtain ⟨other, later⟩ := List.forall_mem_cons.mp others
      unfold selectionsOf
      rw [selections, List.filter_cons_of_neg (by simpa using other)]
      exact inductionHypothesis later _

/-- However the calls for a service come between calls for others, its workers are
picked fairly while its list stays the same, and an index is always within its list. -/
theorem select_fair [DecidableEq Worker] (rrIdx : RrIdx) (calls : List (SelectCall Worker))
    (service : PyStr) {workers : List Worker} (nonempty : workers ≠ [])
    (same : ∀ call ∈ calls, call.service = service → call.workers = workers) :
    Fair workers (selectionsOf service rrIdx calls) ∧
      ∀ call : SelectCall Worker, call.workers ≠ [] → ∀ counters : RrIdx,
        ∃ worker ∈ call.workers,
          (WorkerSelector.select call.workers counters call.service).1 = some worker := by
  refine ⟨?_, fun call listed counters => select_mem listed counters call.service⟩
  by_cases asked : ∃ call ∈ calls, call.service = service
  · obtain ⟨call, member, asks⟩ := asked
    have distinct := call.distinct
    rw [same call member asks] at distinct
    rw [selectionsOf_eq nonempty rrIdx same]
    exact fair_turns nonempty distinct _ _
  · push Not at asked
    rw [selectionsOf_nil asked]
    exact fair_nil nonempty

/-- Four calls for one service and one for another, from a counter that a longer list
has left. -/
theorem select_fair_left :
    let calls : List (SelectCall Nat) :=
      [⟨[97], [1, 2, 3], by decide⟩, ⟨[98], [4], by decide⟩, ⟨[97], [1, 2, 3], by decide⟩,
        ⟨[97], [1, 2, 3], by decide⟩, ⟨[97], [1, 2, 3], by decide⟩]
    Fair [1, 2, 3] (selectionsOf [97] (fun _ => some 8) calls) :=
  (select_fair (fun _ => some 8) _ [97] (by decide) (by
    intro call member asks
    simp only [List.mem_cons, List.not_mem_nil, or_false] at member
    rcases member with rfl | rfl | rfl | rfl | rfl
    · rfl
    · exact absurd asks (by decide)
    · rfl
    · rfl
    · rfl)).1

end MiniMs.Daemon
