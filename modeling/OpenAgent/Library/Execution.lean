import Mathlib.Data.List.Basic

/-!
# Runs of a labelled partial step function

A machine is a partial function from a state and a label to the next state.
A label carries whatever the environment decides at that step, so a list of
labels is one interleaving together with one choice of every outside answer.
The invariant rule below takes the induction over a run once; each safety
theorem of a machine is then its initial case and its step lemma.
-/

namespace OpenAgent.Library

/-- Execute a list of labels.  A label the machine cannot take ends the run
with `none`. -/
def execute (step : σ → α → Option σ) : σ → List α → Option σ
  | state, [] => some state
  | state, label :: labels =>
    (step state label).bind fun next => execute step next labels

instance decidableResult {result : Option α} {Holds : α → Prop} [DecidablePred Holds] :
    Decidable (∃ value, result = some value ∧ Holds value) :=
  match result with
  | none => isFalse nofun
  | some value => decidable_of_iff (Holds value) (by simp)

/-- Every step of a run meets a condition on the state before it, its label
and the state after it. -/
def EveryStep (step : σ → α → Option σ) (condition : σ → α → σ → Prop) : σ → List α → Prop
  | _, [] => True
  | state, label :: labels =>
    ∀ next, step state label = some next →
      condition state label next ∧ EveryStep step condition next labels

@[simp] theorem execute_nil (step : σ → α → Option σ) :
    execute step state [] = some state := rfl

theorem execute_cons_eq_some :
    execute step state (label :: labels) = some final ↔ ∃ next, step state label = some next ∧
        execute step next labels = some final := by
  simp [execute, Option.bind_eq_some_iff]

theorem execute_append_eq_some :
    execute step state (first ++ second) = some final ↔
      ∃ middle, execute step state first = some middle ∧
        execute step middle second = some final := by
  induction first generalizing state with
  | nil => simp
  | cons label labels ih =>
    rw [List.cons_append, execute_cons_eq_some]
    constructor
    · rintro ⟨next, taken, rest⟩
      obtain ⟨middle, reached, finished⟩ := ih.mp rest
      exact ⟨middle, execute_cons_eq_some.mpr ⟨next, taken, reached⟩, finished⟩
    · rintro ⟨middle, reached, finished⟩
      obtain ⟨next, taken, rest⟩ := execute_cons_eq_some.mp reached
      exact ⟨next, taken, ih.mpr ⟨middle, rest, finished⟩⟩

theorem EveryStep.cons (stepped : step state label = some next) (meets : condition state label next)
    (later : EveryStep step condition next labels) :
    EveryStep step condition state (label :: labels) := by
  intro other isOther
  rw [stepped] at isOther
  cases isOther
  exact ⟨meets, later⟩

theorem EveryStep.and (everyStep : EveryStep step condition state labels)
    (alsoEvery : EveryStep step other state labels) :
    EveryStep step
      (fun before label after => condition before label after ∧ other before label after)
      state labels := by
  induction labels generalizing state with
  | nil => trivial
  | cons label labels ih =>
    intro next taken
    obtain ⟨meets, later⟩ := everyStep next taken
    obtain ⟨alsoMeets, alsoLater⟩ := alsoEvery next taken
    exact ⟨⟨meets, alsoMeets⟩, ih later alsoLater⟩

/-- The steps behind a state that a run passes through. -/
theorem EveryStep.append (everyStep : EveryStep step condition state (first ++ second))
    (reached : execute step state first = some middle) :
    EveryStep step condition middle second := by
  induction first generalizing state with
  | nil =>
    cases reached
    exact everyStep
  | cons label labels ih =>
    obtain ⟨next, taken, rest⟩ := execute_cons_eq_some.mp reached
    exact ih (everyStep next taken).2 rest

/-- The steps of the front of a run. -/
theorem EveryStep.of_append (everyStep : EveryStep step condition state (first ++ second)) :
    EveryStep step condition state first := by
  induction first generalizing state with
  | nil => trivial
  | cons label labels ih =>
    intro next taken
    exact ⟨(everyStep next taken).1, ih (everyStep next taken).2⟩

/-- One step more. -/
theorem EveryStep.concat (everyStep : EveryStep step condition state front)
    (meets : ∀ last next, execute step state front = some last → step last label = some next →
      condition last label next) :
    EveryStep step condition state (front ++ [label]) := by
  induction front generalizing state with
  | nil =>
    intro next taken
    exact ⟨meets state next rfl taken, trivial⟩
  | cons first rest ih =>
    intro middle taken
    obtain ⟨firstMeets, later⟩ := everyStep middle taken
    refine ⟨firstMeets, ih later ?_⟩
    intro last next reached
    exact meets last next (execute_cons_eq_some.mpr ⟨middle, taken, reached⟩)

/-- The invariant rule: what holds initially and is kept by every step that
meets the condition holds wherever a run of such steps ends. -/
theorem invariant_of_execute {Invariant : σ → Prop}
    (preserved : ∀ state label next, Invariant state → condition state label next →
        step state label = some next → Invariant next)
    (initially : Invariant state)
    (reached : execute step state labels = some final)
    (everyStep : EveryStep step condition state labels) : Invariant final := by
  induction labels generalizing state with
  | nil =>
    cases reached
    exact initially
  | cons label labels ih =>
    obtain ⟨next, taken, rest⟩ := execute_cons_eq_some.mp reached
    obtain ⟨meets, later⟩ := everyStep next taken
    exact ih (preserved state label next initially meets taken) rest later

/-- The invariant rule for steps that need no condition. -/
theorem invariant_of_unconditional {Invariant : σ → Prop}
    (preserved : ∀ state label next,
      Invariant state → step state label = some next → Invariant next)
    (initially : Invariant state)
    (reached : execute step state labels = some final) : Invariant final := by
  induction labels generalizing state with
  | nil =>
    cases reached
    exact initially
  | cons label labels ih =>
    obtain ⟨next, taken, rest⟩ := execute_cons_eq_some.mp reached
    exact ih (preserved state label next initially taken) rest

/-- A condition that follows from an invariant at each label of a run. -/
theorem everyStep_of_invariant {Invariant : σ → Prop}
    (each : ∀ label ∈ labels, ∀ state next, Invariant state →
      step state label = some next → condition state label next ∧ Invariant next)
    (initially : Invariant state) : EveryStep step condition state labels := by
  induction labels generalizing state with
  | nil => trivial
  | cons label labels ih =>
    intro next taken
    obtain ⟨meets, holds⟩ := each label List.mem_cons_self state next initially taken
    exact ⟨meets, ih (fun other member => each other (List.mem_cons_of_mem label member)) holds⟩

/-- A condition that each label meets in any state. -/
theorem everyStep_of_forall (always : ∀ label ∈ labels, ∀ state next, condition state label next) :
    EveryStep step condition state labels :=
  everyStep_of_invariant
    (fun label member state next (_ : True) _ => ⟨always label member state next, trivial⟩)
    trivial

/-- From one condition on the steps of a run to another one, along an
invariant. -/
theorem EveryStep.of_invariant {Invariant : σ → Prop}
    (everyStep : EveryStep step assumed state labels)
    (each : ∀ state label next, Invariant state → assumed state label next →
      step state label = some next → condition state label next ∧ Invariant next)
    (initially : Invariant state) : EveryStep step condition state labels := by
  induction labels generalizing state with
  | nil => trivial
  | cons label labels ih =>
    intro next taken
    obtain ⟨meets, later⟩ := everyStep next taken
    obtain ⟨holds, afterwards⟩ := each state label next initially meets taken
    exact ⟨holds, ih later afterwards⟩

/-- A property that an invariant gives, and that the first step without the condition breaks,
holds wherever a run passes exactly when every step meets the condition. -/
theorem reached_iff_everyStep {Invariant Property : σ → Prop}
    (preserved : ∀ state label next, Invariant state → condition state label next →
      step state label = some next → Invariant next)
    (gives : ∀ state, Invariant state → Property state)
    (breaks : ∀ state label next, Invariant state → ¬ condition state label next →
      step state label = some next → ¬ Property next)
    (initially : Invariant state) :
    (∀ front final, front <+: labels → execute step state front = some final →
      Property final) ↔ EveryStep step condition state labels := by
  constructor
  · intro holds
    induction labels generalizing state with
    | nil => trivial
    | cons label labels ih =>
      intro next taken
      have after : Property next :=
        holds [label] next (List.prefix_append [label] labels)
          (execute_cons_eq_some.mpr ⟨next, taken, rfl⟩)
      have meets : condition state label next := by
        by_contra fails
        exact breaks state label next initially fails taken after
      refine ⟨meets, ih (preserved state label next initially meets taken) ?_⟩
      intro front final isFront reached
      exact holds (label :: front) final (List.cons_prefix_cons.mpr ⟨rfl, isFront⟩)
        (execute_cons_eq_some.mpr ⟨next, taken, reached⟩)
  · rintro everyStep front final ⟨back, rfl⟩ reached
    exact gives final (invariant_of_execute preserved initially reached everyStep.of_append)

/-- The steps of a run can be checked one by one. -/
instance EveryStep.decidable (step : σ → α → Option σ) (condition : σ → α → σ → Prop)
    [∀ state label next, Decidable (condition state label next)] :
    ∀ state labels, Decidable (EveryStep step condition state labels)
  | _, [] => isTrue trivial
  | state, label :: labels =>
    match taken : step state label with
    | none => isTrue fun next isNext => by
        rw [taken] at isNext
        cases isNext
    | some next =>
      have := EveryStep.decidable step condition next labels
      decidable_of_iff (condition state label next ∧ EveryStep step condition next labels)
        ⟨fun both => EveryStep.cons taken both.1 both.2, fun everyStep => everyStep next taken⟩

theorem bind_eq_ok {computation : Except ε α} :
    (computation >>= next) = .ok result ↔
      ∃ value, computation = .ok value ∧ next value = .ok result := by
  cases computation with
  | error failure | ok value => simp [bind, Except.bind]

theorem mapError_eq_ok {translate : ε → ε'} {computation : Except ε α} :
    computation.mapError translate = .ok result ↔ computation = .ok result := by
  cases computation with
  | error failure | ok value => simp [Except.mapError]

theorem foldlM_cons_eq_ok {next : σ → α → Except ε σ} :
    (value :: values).foldlM next state = .ok final ↔
      ∃ middle, next state value = .ok middle ∧ values.foldlM next middle = .ok final := by
  rw [List.foldlM_cons, bind_eq_ok]

end OpenAgent.Library
