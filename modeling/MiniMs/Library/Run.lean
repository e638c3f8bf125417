import Mathlib.Tactic.Common

/-!
Runs of a labelled transition system given by a partial step function.

Owns: the run of a list of labels, what it means that a property holds in
every state of a run and that a condition holds before every step of it, and
the induction rules that lead from one step to a whole run: the plain
invariant rule, the rule for an invariant that holds as long as the steps meet
a condition, and the exact rules for a condition without which a property is
lost: plain, with a stronger invariant behind the property, and inside the runs
that stay within a limit.
-/

namespace MiniMs.Library.Run

variable {State Label : Type*}

/-- Perform the labels in order; `none` where one of them is not enabled. -/
def run (step : State → Label → Option State) : State → List Label → Option State
  | state, [] => some state
  | state, label :: rest => (step state label).bind fun next => run step next rest

/-- The states that some list of labels leads to. -/
def Reachable (step : State → Label → Option State) (start state : State) : Prop :=
  ∃ labels, run step start labels = some state

/-- The property holds in every state that the labels lead through, the first
and the last included. -/
def Throughout (step : State → Label → Option State) (good : State → Prop) :
    State → List Label → Prop
  | state, [] => good state
  | state, label :: rest =>
      good state ∧ ∀ next, step state label = some next → Throughout step good next rest

/-- Every step that is taken meets the condition in the state before it. -/
def EachStep (step : State → Label → Option State) (allowed : State → Label → Prop) :
    State → List Label → Prop
  | _, [] => True
  | state, label :: rest =>
      ∀ next, step state label = some next →
        allowed state label ∧ EachStep step allowed next rest

section Rules

variable {step : State → Label → Option State} {good : State → Prop}
  {allowed : State → Label → Prop}

theorem run_cons {state final : State} {label : Label} {rest : List Label} :
    run step state (label :: rest) = some final ↔
      ∃ next, step state label = some next ∧ run step next rest = some final := by
  simp [run, Option.bind_eq_some_iff]

theorem run_append {state final : State} {first second : List Label} :
    run step state (first ++ second) = some final ↔
      ∃ middle, run step state first = some middle ∧ run step middle second = some final := by
  induction first generalizing state with
  | nil => simp [run]
  | cons label first inductionHypothesis =>
      simp only [List.cons_append, run_cons, inductionHypothesis]
      constructor
      · rintro ⟨next, taken, middle, left, right⟩
        exact ⟨middle, ⟨next, taken, left⟩, right⟩
      · rintro ⟨middle, ⟨next, taken, left⟩, right⟩
        exact ⟨next, taken, middle, left, right⟩

theorem Throughout.head {state : State} {labels : List Label}
    (throughout : Throughout step good state labels) : good state := by
  cases labels with
  | nil => exact throughout
  | cons label rest => exact throughout.1

theorem Throughout.last {labels : List Label} {state final : State}
    (throughout : Throughout step good state labels)
    (runs : run step state labels = some final) : good final := by
  induction labels generalizing state with
  | nil =>
      obtain rfl := Option.some.inj runs
      exact throughout
  | cons label rest inductionHypothesis =>
      obtain ⟨next, taken, runs⟩ := run_cons.mp runs
      exact inductionHypothesis (throughout.2 next taken) runs

theorem Throughout.imp {weaker : State → Prop} (implies : ∀ state, good state → weaker state)
    {state : State} {labels : List Label} (throughout : Throughout step good state labels) :
    Throughout step weaker state labels := by
  induction labels generalizing state with
  | nil => exact implies state throughout
  | cons label rest inductionHypothesis =>
      refine ⟨implies state throughout.1, ?_⟩
      intro next taken
      exact inductionHypothesis (throughout.2 next taken)

theorem eachStep_cons {state next : State} {label : Label} {rest : List Label}
    (taken : step state label = some next) (meets : allowed state label)
    (each : EachStep step allowed next rest) : EachStep step allowed state (label :: rest) := by
  intro other taken'
  have same : next = other := Option.some.inj (taken.symm.trans taken')
  rw [← same]
  exact ⟨meets, each⟩

/-- Labels that meet the condition in every state. -/
theorem eachStep_of_always {state : State} {labels : List Label}
    (always : ∀ label ∈ labels, ∀ state, allowed state label) : EachStep step allowed state labels := by
  induction labels generalizing state with
  | nil => trivial
  | cons label rest inductionHypothesis =>
      intro next _
      refine ⟨always label List.mem_cons_self state, inductionHypothesis fun other member => ?_⟩
      exact always other (List.mem_cons_of_mem _ member)

theorem eachStep_append {state : State} {first second : List Label} :
    EachStep step allowed state (first ++ second) ↔
      EachStep step allowed state first ∧
        ∀ middle, run step state first = some middle → EachStep step allowed middle second := by
  induction first generalizing state with
  | nil =>
      constructor
      · intro each
        refine ⟨trivial, fun middle runs => ?_⟩
        rw [← Option.some.inj runs]
        exact each
      · exact fun both => both.2 state rfl
  | cons label first inductionHypothesis =>
      constructor
      · intro each
        refine ⟨fun next taken => ?_, fun middle runs => ?_⟩
        · obtain ⟨meets, later⟩ := each next taken
          exact ⟨meets, (inductionHypothesis.mp later).1⟩
        · obtain ⟨next, taken, runs⟩ := run_cons.mp runs
          exact (inductionHypothesis.mp (each next taken).2).2 middle runs
      · rintro ⟨front, back⟩ next taken
        obtain ⟨meets, later⟩ := front next taken
        refine ⟨meets, inductionHypothesis.mpr ⟨later, fun middle runs => ?_⟩⟩
        exact back middle (run_cons.mpr ⟨next, taken, runs⟩)

/-- The condition holds before a step in the middle of a run. -/
theorem EachStep.at {start state next : State} {front rest : List Label} {label : Label}
    (each : EachStep step allowed start (front ++ label :: rest))
    (runs : run step start front = some state) (taken : step state label = some next) :
    allowed state label :=
  ((eachStep_append.mp each).2 state runs next taken).1

/-- An invariant kept by the steps that meet a condition holds throughout
every run whose steps all meet it. -/
theorem throughout_of_eachStep
    (preserve : ∀ state label next, good state → allowed state label →
      step state label = some next → good next)
    {state : State} {labels : List Label} (initial : good state)
    (each : EachStep step allowed state labels) : Throughout step good state labels := by
  induction labels generalizing state with
  | nil => exact initial
  | cons label rest inductionHypothesis =>
      refine ⟨initial, fun next taken => ?_⟩
      obtain ⟨meets, each⟩ := each next taken
      exact inductionHypothesis (preserve state label next initial meets taken) each

/-- Where a step keeps the invariant exactly if it meets the condition, the
invariant holds throughout a run exactly if every step of it does. -/
theorem throughout_iff_eachStep
    (exact : ∀ state label next, good state → step state label = some next →
      (good next ↔ allowed state label))
    {state : State} (initial : good state) (labels : List Label) :
    Throughout step good state labels ↔ EachStep step allowed state labels := by
  constructor
  · intro throughout
    induction labels generalizing state with
    | nil => trivial
    | cons label rest inductionHypothesis =>
        intro next taken
        have later := throughout.2 next taken
        exact ⟨(exact state label next initial taken).mp later.head,
          inductionHypothesis later.head later⟩
  · exact throughout_of_eachStep
      (fun state label next good meets taken => (exact state label next good taken).mpr meets)
      initial

/-- The exact rule for a property that a stronger invariant stands behind: the
invariant is kept by the steps that meet the condition, and a step that does not
meet it loses the property at once. -/
theorem throughout_iff_eachStep_of_invariant {strong : State → Prop}
    (implies : ∀ state, strong state → good state)
    (keeps : ∀ state label next, strong state → allowed state label →
      step state label = some next → strong next)
    (needs : ∀ state label next, strong state → step state label = some next →
      good next → allowed state label)
    {state : State} (initial : strong state) (labels : List Label) :
    Throughout step good state labels ↔ EachStep step allowed state labels := by
  constructor
  · intro throughout
    induction labels generalizing state with
    | nil => trivial
    | cons label rest inductionHypothesis =>
        intro next taken
        have later := throughout.2 next taken
        have meets := needs state label next initial taken later.head
        exact ⟨meets, inductionHypothesis (keeps state label next initial meets taken) later⟩
  · intro each
    exact (throughout_of_eachStep keeps initial each).imp implies

/-- The exact rule inside the runs whose steps all stay within a limit. -/
theorem throughout_iff_eachStep_within {strong : State → Prop} {within : State → Label → Prop}
    (implies : ∀ state, strong state → good state)
    (keeps : ∀ state label next, strong state → within state label → allowed state label →
      step state label = some next → strong next)
    (needs : ∀ state label next, strong state → within state label →
      step state label = some next → good next → allowed state label)
    {state : State} (initial : strong state) {labels : List Label}
    (each : EachStep step within state labels) :
    Throughout step good state labels ↔ EachStep step allowed state labels := by
  induction labels generalizing state with
  | nil => exact ⟨fun _ => trivial, fun _ => implies state initial⟩
  | cons label rest inductionHypothesis =>
      constructor
      · intro throughout next taken
        obtain ⟨inside, later⟩ := each next taken
        have meets := needs state label next initial inside taken (throughout.2 next taken).head
        have kept := keeps state label next initial inside meets taken
        exact ⟨meets, (inductionHypothesis kept later).mp (throughout.2 next taken)⟩
      · intro met
        refine ⟨implies state initial, fun next taken => ?_⟩
        obtain ⟨inside, later⟩ := each next taken
        obtain ⟨meets, rest_⟩ := met next taken
        have kept := keeps state label next initial inside meets taken
        exact (inductionHypothesis kept later).mpr rest_

/-- The plain invariant rule. -/
theorem invariant_of_reachable
    (preserve : ∀ state label next, good state → step state label = some next → good next)
    {start state : State} (initial : good start) (reachable : Reachable step start state) :
    good state := by
  obtain ⟨labels, runs⟩ := reachable
  have unconditional : EachStep step (fun _ _ => True) start labels := by
    clear runs initial
    induction labels generalizing start with
    | nil => trivial
    | cons label rest inductionHypothesis =>
        exact fun next _ => ⟨trivial, inductionHypothesis⟩
  have throughout : Throughout step good start labels :=
    throughout_of_eachStep
      (fun state label next good _ taken => preserve state label next good taken)
      initial unconditional
  exact throughout.last runs

end Rules

end MiniMs.Library.Run
