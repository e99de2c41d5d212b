import OpenAgent.Library.Execution
import OpenAgent.UlwLoop.PlanLaws

/-!
# When a ulw-loop run is done

Calls on a plan, one after the other, with the `aggregate_completed` entries of the ledger.  A call
that throws or is rejected leaves the plan and is no step.
-/

namespace OpenAgent.UlwLoop

open Library

/-- The proposals of a steering, applied one after the other: all of them, or none. -/
def Plan.steerAll (plan : Plan) : List SteeringProposal → Option Plan
  | [] => some plan
  | proposal :: rest =>
    if plan.validateSteering proposal = [] then
      (plan.applySteeringMutation proposal).steerAll rest
    else none

/-- The calls that change a plan. -/
inductive LoopCall
  | startNext (retryFailed : Bool)
  | addGoal (title objective : Text)
  | recordEvidence (goalId criterionId : Text) (status : CriterionStatus)
  | resetCriteria (goalId : Text)
  | steer (proposals : List SteeringProposal)
  | recordFinalReviewBlockers (goalId title objective : Text) (codexValid : Bool)
  | checkpoint (args : CheckpointArgs)

/-- A plan with the goals and the quality gates of its `aggregate_completed` entries. -/
structure LoopRun where
  plan : Plan
  completions : List (Text × CriteriaCoverage)

namespace LoopRun

variable (run : LoopRun)

def step : LoopCall → Option LoopRun
  | .startNext retryFailed => some { run with plan := (run.plan.startNext retryFailed).1 }
  | .addGoal title objective =>
    (run.plan.addGoal title objective).map fun plan => { run with plan }
  | .recordEvidence goalId criterionId status =>
    (run.plan.recordEvidence goalId criterionId status).map fun plan => { run with plan }
  | .resetCriteria goalId => (run.plan.resetCriteria goalId).map fun plan => { run with plan }
  | .steer proposals => (run.plan.steerAll proposals).map fun plan => { run with plan }
  | .recordFinalReviewBlockers goalId title objective codexValid =>
    (run.plan.recordFinalReviewBlockers goalId title objective codexValid).map
      fun plan => { run with plan }
  | .checkpoint args =>
    match run.plan.checkpoint args with
    | .error _ => none
    | .ok result =>
      some
        { plan := result.plan
          completions := run.completions ++
            (result.aggregateGate.map fun coverage => (args.goalId, coverage)).toList }

/-- A run that is done has passed the final gate, and has no work left. -/
def DoneThroughGate : Prop :=
  run.plan.isUlwLoopDone = true →
    run.plan.aggregateCompletion = true ∧ run.completions ≠ [] ∧
      ∀ goal ∈ run.plan.goals, goal.isSuperseded = false →
        goal.status ≠ .pending ∧ goal.status ≠ .inProgress

/-- A call that neither adds a goal behind the aggregate completion nor, in front of it, completes
the last goal that is open in the place of its complete replacements. -/
def KeepsGate : LoopCall → Prop
  | .addGoal _ _ | .recordFinalReviewBlockers _ _ _ _ => run.plan.aggregateCompletion = false
  | .checkpoint args =>
    args.status = .complete → run.plan.aggregateCompletion = false →
      ((run.plan.findGoal args.goalId).any fun goal =>
        run.plan.isSupersededResolved goal &&
          run.plan.goals.all fun candidate =>
            !run.plan.isCompletionBlockingForFinalCandidate goal candidate) = false
  | _ => True

instance : Decidable run.DoneThroughGate :=
  inferInstanceAs (Decidable (_ → _ ∧ _ ∧ ∀ goal ∈ run.plan.goals, _ → _ ∧ _))

instance : (call : LoopCall) → Decidable (run.KeepsGate call) := by
  intro call
  unfold KeepsGate
  split <;> infer_instance

end LoopRun

namespace Plan

theorem isCompletionBlocking_iff (plan : Plan) (goal : Goal) :
    plan.isCompletionBlocking goal = true ↔
      (goal.steeringStatus = some .superseded ∧ plan.isSupersededResolved goal = false) ∨
        goal.steeringStatus = some .blocked ∨
        (goal.steeringStatus = none ∧ goal.status ≠ .complete) := by
  rw [isCompletionBlocking]
  cases goal.steeringStatus with
  | none => simp
  | some steering => cases steering <;> simp

theorem isSupersededResolved_iff (plan : Plan) (goal : Goal) :
    plan.isSupersededResolved goal = true ↔
      goal.steeringStatus = some .superseded ∧ goal.replacements ≠ [] ∧
        ∀ id ∈ goal.replacements, plan.isComplete id = true := by
  simp [isSupersededResolved, Goal.isSuperseded, and_assoc]

variable {plan : Plan}

theorem isUlwLoopDone_eq_false (notCompleted : plan.aggregateCompletion = false)
    (member : goal ∈ plan.goals) (blocks : plan.isCompletionBlocking goal = true) :
    plan.isUlwLoopDone = false := by
  rw [isUlwLoopDone, notCompleted, Bool.false_or, List.all_eq_false]
  exact ⟨goal, member, by simp [blocks]⟩

theorem exists_blocking (notDone : plan.isUlwLoopDone = false) :
    plan.aggregateCompletion = false ∧
      ∃ goal ∈ plan.goals, plan.isCompletionBlocking goal = true := by
  rw [isUlwLoopDone, Bool.or_eq_false_iff, List.all_eq_false] at notDone
  obtain ⟨goal, member, blocks⟩ := notDone.2
  exact ⟨notDone.1, goal, member, by simpa using blocks⟩

/-- A fresh goal blocks. -/
theorem isCompletionBlocking_of_fresh (plan : Plan) (isFresh : goal.IsFresh) :
    plan.isCompletionBlocking goal = true := by
  obtain ⟨_, _, _, _, rfl⟩ := isFresh
  rfl

/-- Every goal is still there, and none has got complete. -/
structure NoFurther (before after : List Goal) : Prop where
  sameIds : (after.map fun goal => goal.id).Perm (before.map fun goal => goal.id)
  kept : ∀ goal ∈ before, ∃ other ∈ after, other.id = goal.id ∧
    other.steeringStatus = goal.steeringStatus ∧ other.supersededBy = goal.supersededBy ∧
    (other.status = .complete → goal.status = .complete)

variable {before after : Plan}

theorem NoFurther.isComplete {id : Text} (noFurther : NoFurther before.goals after.goals)
    (distinct : before.ids.Nodup) (complete : after.isComplete id = true) :
    before.isComplete id = true := by
  have distinctAfter : after.ids.Nodup := noFurther.sameIds.nodup_iff.mpr distinct
  obtain ⟨found, member, isId, isComplete⟩ := (isComplete_iff distinctAfter).mp complete
  have inBefore : id ∈ before.ids :=
    noFurther.sameIds.mem_iff.mp (List.mem_map.mpr ⟨found, member, isId⟩)
  obtain ⟨goal, isMember, sameId⟩ := List.mem_map.mp inBefore
  obtain ⟨other, otherMember, otherId, _, _, onlyComplete⟩ := noFurther.kept goal isMember
  have isFound : other = found :=
    List.inj_on_of_nodup_map distinctAfter otherMember member
      (otherId.trans (sameId.trans isId.symm))
  rw [isFound] at onlyComplete
  exact (isComplete_iff distinct).mpr ⟨goal, isMember, sameId, onlyComplete isComplete⟩

/-- What blocks before still does. -/
theorem NoFurther.blocking (noFurther : NoFurther before.goals after.goals)
    (distinct : before.ids.Nodup) (member : goal ∈ before.goals)
    (blocks : before.isCompletionBlocking goal = true) :
    ∃ other ∈ after.goals, after.isCompletionBlocking other = true := by
  obtain ⟨other, otherMember, _, steering, replacements, onlyComplete⟩ :=
    noFurther.kept goal member
  refine ⟨other, otherMember, ?_⟩
  rw [isCompletionBlocking_iff, steering]
  rcases (isCompletionBlocking_iff before goal).mp blocks with
    ⟨superseded, unresolved⟩ | blocked | ⟨unsteered, notComplete⟩
  · refine .inl ⟨superseded, Bool.eq_false_iff.mpr fun resolved => ?_⟩
    obtain ⟨_, nonempty, complete⟩ := (isSupersededResolved_iff after other).mp resolved
    have same : other.replacements = goal.replacements := by
      rw [Goal.replacements, replacements, Goal.replacements]
    rw [same] at nonempty complete
    have isResolved : before.isSupersededResolved goal = true :=
      (isSupersededResolved_iff before goal).mpr ⟨superseded, nonempty,
        fun id isReplacement => noFurther.isComplete distinct (complete id isReplacement)⟩
    rw [unresolved] at isResolved
    cases isResolved
  · exact .inr (.inl blocked)
  · exact .inr (.inr ⟨unsteered, fun complete => notComplete (onlyComplete complete)⟩)

/-- Goals with the standing they had. -/
theorem noFurther_of_standing {before after : List Goal}
    (same : (after.map Goal.standing).Perm (before.map Goal.standing)) :
    NoFurther before after where
  sameIds := by
    have sameFirst := same.map fun standing => standing.1
    rwa [List.map_map, List.map_map] at sameFirst
  kept := by
    intro goal member
    obtain ⟨other, otherMember, sameStanding⟩ :=
      List.mem_map.mp (same.mem_iff.mpr (List.mem_map_of_mem member))
    simp only [Goal.standing, Prod.mk.injEq] at sameStanding
    obtain ⟨sameId, sameStatus, steering, replacements⟩ := sameStanding
    exact ⟨other, otherMember, sameId, steering, replacements,
      fun complete => sameStatus.symm.trans complete⟩

/-- A change of one goal that does not complete it. -/
theorem noFurther_updateGoal {id : Text} (distinct : plan.ids.Nodup)
    (sameId : ∀ goal, (change goal).id = goal.id)
    (steering : ∀ goal, (change goal).steeringStatus = goal.steeringStatus)
    (replacements : ∀ goal, (change goal).supersededBy = goal.supersededBy)
    (notComplete : ∀ goal, (change goal).status ≠ .complete) :
    NoFurther plan.goals (plan.updateGoal id change).goals where
  sameIds := by
    rw [updateGoal_goals distinct, ids_map_change]
    intro goal
    split
    · exact sameId goal
    · rfl
  kept := by
    intro goal member
    rw [updateGoal_goals distinct]
    refine ⟨_, List.mem_map_of_mem member, ?_⟩
    split
    · exact ⟨sameId goal, steering goal, replacements goal,
        fun complete => absurd complete (notComplete goal)⟩
    · exact ⟨rfl, rfl, rfl, fun complete => complete⟩

/-- A start leaves the plan, or starts one goal of the schedule. -/
theorem startNext_cases (plan : Plan) (retryFailed : Bool) :
    (∃ reported, plan.startNext retryFailed = (plan, reported) ∧ ∀ id, reported = some id →
        ∃ goal ∈ plan.goals, goal.id = id ∧ goal.status = .inProgress) ∨
      ∃ next ∈ plan.goals, plan.aggregateCompletion = false ∧ next.isScheduleEligible = true ∧
        (next.status = .pending ∨ next.status = .failed) ∧
        plan.startNext retryFailed =
          ({ plan.updateGoal next.id startGoal with activeGoalId := some next.id },
            some next.id) := by
  rw [startNext]
  split
  next => exact .inl ⟨none, rfl, fun id isSome => by cases isSome⟩
  next notCompleted =>
    split
    next existing isExisting =>
      refine .inl ⟨_, rfl, fun id isId => ?_⟩
      cases isId
      have test := List.find?_some isExisting
      simp only [Bool.and_eq_true, decide_eq_true_eq] at test
      exact ⟨existing, List.mem_of_find?_eq_some isExisting, rfl, test.1⟩
    next =>
      dsimp only
      split
      next => exact .inl ⟨none, rfl, fun id isSome => by cases isSome⟩
      next next isNext =>
        have scheduled : next ∈ plan.goals ∧ next.isScheduleEligible = true ∧
            (next.status = .pending ∨ next.status = .failed) := by
          rcases Option.or_eq_some_iff.mp isNext with pending | ⟨_, failed⟩
          · have test := List.find?_some pending
            simp only [Bool.and_eq_true, decide_eq_true_eq] at test
            exact ⟨List.mem_of_find?_eq_some pending, test.2, .inl test.1⟩
          · split at failed
            · have test := List.find?_some failed
              simp only [Bool.and_eq_true, decide_eq_true_eq] at test
              exact ⟨List.mem_of_find?_eq_some failed, test.2, .inr test.1.1⟩
            · cases failed
        obtain ⟨member, eligible, status⟩ := scheduled
        exact .inr ⟨next, member, Bool.eq_false_iff.mpr notCompleted, eligible, status, rfl⟩

theorem recordEvidence_spec (recorded : plan.recordEvidence goalId criterionId status = some next) :
    next.goals.map Goal.standing = plan.goals.map Goal.standing ∧
      next.aggregateCompletion = plan.aggregateCompletion := by
  obtain ⟨goal, _, later⟩ := Option.bind_eq_some_iff.mp recorded
  obtain ⟨_, _, isNext⟩ := Option.bind_eq_some_iff.mp later
  cases isNext
  exact ⟨map_updateGoal Goal.standing fun _ _ => rfl, rfl⟩

theorem resetCriteria_spec (reset : plan.resetCriteria goalId = some next) :
    next.goals.map Goal.standing = plan.goals.map Goal.standing ∧
      next.aggregateCompletion = plan.aggregateCompletion := by
  obtain ⟨_, _, rfl⟩ := Option.map_eq_some_iff.mp reset
  exact ⟨map_updateGoal Goal.standing fun _ _ => rfl, rfl⟩

theorem recordFinalReviewBlockers_spec (numbered : Numbered plan.ids)
    (recorded : plan.recordFinalReviewBlockers goalId title objective codexValid = some next) :
    Numbered next.ids ∧ next.aggregateCompletion = plan.aggregateCompletion ∧
      ∃ goal ∈ next.goals, goal.IsFresh := by
  obtain ⟨goal, _, isNext⟩ := Option.bind_eq_some_iff.mp recorded
  split at isNext
  next =>
    cases isNext
    refine ⟨?_, deactivate_aggregateCompletion _, _,
      List.mem_append_right _ (List.mem_singleton_self _), _, _, _, _, rfl⟩
    obtain ⟨below, small⟩ := numbered.maxNumber leadingNumber_of_goalNumber
    have isNumber : goalNumber (freshGoal
        (unit 'G' :: paddedNumber (maxNumber leadingNumber plan.goals + 1)) title objective
        plan.goals.length).id = some (maxNumber leadingNumber plan.goals + 1) :=
      goalNumber_unit_paddedNumber
    refine (numbered_concat numbered below small isNumber).perm (List.Perm.of_eq ?_)
    rw [ids, deactivate_goals, List.map_append, List.map_append]
    exact congrArg₂ List.append (map_updateGoal (fun goal => goal.id) fun _ _ => rfl) rfl
  next => cases isNext

/-- A goal failed, is blocked or waits for the user; the others are as they were. -/
def Stops (plan : Plan) (goal : Goal) (after : Plan) : Prop :=
  ∃ change : Goal → Goal, (∀ goal, (change goal).id = goal.id) ∧
    (∀ goal, (change goal).steeringStatus = goal.steeringStatus) ∧
    (∀ goal, (change goal).supersededBy = goal.supersededBy) ∧
    (∀ goal, (change goal).status = .needsUserDecision ∨ (change goal).status = .failed ∨
      (change goal).status = .blocked) ∧
    after.goals = (plan.updateGoal goal.id change).goals ∧
    after.aggregateCompletion = plan.aggregateCompletion

theorem stops_applyBlockedOrFailed (isStatus : status = .failed ∨ status = .blocked) :
    Stops plan goal (plan.applyBlockedOrFailed goal status signature) := by
  let needsDecision := signature.any fun given => 3 ≤ plan.sameBlockerOccurrences given + 1
  refine ⟨fun goal =>
    { goal with
      status := if needsDecision then .needsUserDecision else status
      blockerSignature := signature.or goal.blockerSignature
      nonRetriable := needsDecision || goal.nonRetriable },
    fun _ => rfl, fun _ => rfl, fun _ => rfl, fun goal => ?_, deactivate_goals _,
    deactivate_aggregateCompletion _⟩
  split
  · exact .inl rfl
  · exact .inr isStatus

/-- What an accepted checkpoint does. -/
theorem checkpoint_cases (accepted : plan.checkpoint args = .ok result) :
    ∃ goal, plan.findGoal args.goalId = some goal ∧
      ((args.status = .complete ∧ plan.requireComplete goal args = .ok result.aggregateGate ∧
          result.plan.goals = (plan.updateGoal goal.id completeGoal).goals ∧
          result.plan.aggregateCompletion =
            (plan.aggregateCompletion || result.aggregateGate.isSome) ∧
          result.plan.validationBatches = plan.validationBatches) ∨
        (args.status ≠ .complete ∧ result.aggregateGate = none ∧ Stops plan goal result.plan)) := by
  rw [checkpoint] at accepted
  split at accepted
  next => cases accepted
  next goal found =>
    refine ⟨goal, found, ?_⟩
    split at accepted
    next => cases accepted
    next =>
      split at accepted
      next isStatus =>
        split at accepted
        next => cases accepted
        next gate checked =>
          cases accepted
          refine .inl ⟨isStatus, checked, deactivate_goals _, ?_, deactivate_batches _⟩
          rw [deactivate_aggregateCompletion]
          rfl
      next isStatus =>
        cases accepted
        refine .inr ⟨fun same => ?_, rfl, stops_applyBlockedOrFailed (.inl rfl)⟩
        cases isStatus.symm.trans same
      next isStatus =>
        cases accepted
        refine .inr ⟨fun same => ?_, rfl, stops_applyBlockedOrFailed (.inr rfl)⟩
        cases isStatus.symm.trans same

/-- A completion has a gate exactly when it is the final one. -/
theorem requireComplete_gate (accepted : plan.requireComplete goal args = .ok gate) :
    gate.isSome = plan.isFinalRunCompletionCandidate goal := by
  obtain ⟨_, _, withGate, withoutGate, _⟩ := requireComplete_eq_ok.mp accepted
  cases isFinal : plan.isFinalRunCompletionCandidate goal with
  | true =>
    obtain ⟨coverage, _, rfl⟩ := withGate (by rw [isFinal]; rfl)
    rw [isFinal]
    rfl
  | false =>
    cases closes : (plan.batchClosedBy goal.id).isSome with
    | true =>
      obtain ⟨coverage, _, rfl⟩ := withGate (by rw [closes, Bool.or_true])
      rw [isFinal]
      rfl
    | false =>
      rw [withoutGate (by rw [isFinal, closes]; rfl)]
      rfl

/-- A plan with the goals of another one, one of them completed. -/
def CompletedFrom (before : Plan) (goal : Goal) (after : Plan) : Prop :=
  after.goals = (before.updateGoal goal.id completeGoal).goals

variable (completed : CompletedFrom before goal after)
include completed

theorem CompletedFrom.goals_eq (distinct : before.ids.Nodup) :
    after.goals = before.goals.map fun other =>
      if other.id = goal.id then completeGoal other else other :=
  Eq.trans completed (updateGoal_goals distinct)

theorem CompletedFrom.ids : after.ids = before.ids := by
  rw [Plan.ids, completed]
  exact map_updateGoal (fun goal => goal.id) fun _ _ => rfl

variable (distinct : before.ids.Nodup)
include distinct

theorem CompletedFrom.isComplete (member : goal ∈ before.goals) (id : Text) :
    after.isComplete id = (decide (id = goal.id) || before.isComplete id) := by
  have distinctAfter : after.ids.Nodup := by
    rw [completed.ids]
    exact distinct
  apply Bool.eq_iff_iff.mpr
  rw [Bool.or_eq_true, decide_eq_true_iff, isComplete_iff distinctAfter, isComplete_iff distinct,
    completed.goals_eq distinct]
  constructor
  · rintro ⟨_, isMember, rfl, complete⟩
    obtain ⟨other, inBefore, rfl⟩ := List.mem_map.mp isMember
    by_cases same : other.id = goal.id
    · rw [if_pos same]
      exact .inl same
    · rw [if_neg same] at complete ⊢
      exact .inr ⟨other, inBefore, rfl, complete⟩
  · rintro (rfl | ⟨other, inBefore, rfl, complete⟩)
    · exact ⟨_, List.mem_map_of_mem member, by rw [if_pos rfl]; rfl, by rw [if_pos rfl]; rfl⟩
    · refine ⟨_, List.mem_map_of_mem inBefore, ?_, ?_⟩
      · split <;> rfl
      · split
        · rfl
        · exact complete

/-- The test for the final candidate looks ahead to the goals behind its completion. -/
theorem CompletedFrom.blocking (member : goal ∈ before.goals) (isOther : candidate.id ≠ goal.id) :
    after.isCompletionBlocking candidate =
      before.isCompletionBlockingForFinalCandidate goal candidate := by
  have lookahead : after.isComplete = fun id => decide (id = goal.id) || before.isComplete id :=
    funext (completed.isComplete distinct member)
  rw [isCompletionBlockingForFinalCandidate, if_neg isOther, isCompletionBlocking,
    isCompletionBlocking, isSupersededResolved, Goal.isSuperseded, lookahead]
  cases candidate.steeringStatus with
  | none => rfl
  | some steering =>
    cases steering with
    | blocked => rfl
    | superseded => simp

/-- Behind the completion of the final candidate, no goal in force is open. -/
theorem CompletedFrom.closed_of_final (isFinal : before.isFinalRunCompletionCandidate goal = true) :
    ∀ other ∈ after.goals, other.isSuperseded = false → other.status = .complete := by
  intro other member notSuperseded
  rw [completed.goals_eq distinct] at member
  obtain ⟨candidate, inBefore, rfl⟩ := List.mem_map.mp member
  by_cases same : candidate.id = goal.id
  · rw [if_pos same]
    rfl
  · rw [if_neg same] at notSuperseded ⊢
    have free := List.all_eq_true.mp (Bool.and_eq_true_iff.mp isFinal).2 candidate inBefore
    rw [isCompletionBlockingForFinalCandidate, if_neg same, notSuperseded] at free
    have notBlocking : ¬ before.isCompletionBlocking candidate = true := by simpa using free
    rw [isCompletionBlocking_iff] at notBlocking
    have notSuperseded : candidate.steeringStatus ≠ some .superseded := of_decide_eq_false notSuperseded
    cases steering : candidate.steeringStatus with
    | none =>
      by_contra notComplete
      exact notBlocking (.inr (.inr ⟨steering, notComplete⟩))
    | some status =>
      cases status with
      | superseded => exact absurd steering notSuperseded
      | blocked => exact absurd (.inr (.inl steering)) notBlocking

/-- A completion that is not the final one, and not of a goal in the place of its complete
replacements, leaves a goal that blocks. -/
theorem CompletedFrom.still_blocked (member : goal ∈ before.goals)
    (blocked : ∃ other ∈ before.goals, before.isCompletionBlocking other = true)
    (notFinal : before.isFinalRunCompletionCandidate goal = false)
    (notReplaced : (before.isSupersededResolved goal && before.goals.all fun candidate =>
      !before.isCompletionBlockingForFinalCandidate goal candidate) = false) :
    ∃ other ∈ after.goals, after.isCompletionBlocking other = true := by
  by_cases isComplete : goal.status = .complete
  · obtain ⟨other, isMember, blocks⟩ := blocked
    refine NoFurther.blocking (noFurther_of_standing (List.Perm.of_eq ?_)) distinct isMember blocks
    rw [completed.goals_eq distinct, List.map_map]
    apply List.map_congr_left
    intro candidate inBefore
    by_cases same : candidate.id = goal.id
    · rw [Function.comp, if_pos same, List.inj_on_of_nodup_map distinct inBefore member same,
        Goal.standing, Goal.standing, isComplete]
      rfl
    · rw [Function.comp, if_neg same]
  · cases ahead : before.goals.all fun candidate =>
        !before.isCompletionBlockingForFinalCandidate goal candidate with
    | true =>
      rw [isFinalRunCompletionCandidate, ahead, Bool.and_true] at notFinal
      rw [ahead, Bool.and_true] at notReplaced
      have notBlocking : ¬ before.isCompletionBlocking goal = true := by rw [notFinal]; decide
      rw [isCompletionBlocking_iff] at notBlocking
      cases steering : goal.steeringStatus with
      | none => exact absurd (.inr (.inr ⟨steering, isComplete⟩)) notBlocking
      | some status =>
        cases status with
        | superseded => exact absurd (.inl ⟨steering, notReplaced⟩) notBlocking
        | blocked => exact absurd (.inr (.inl steering)) notBlocking
    | false =>
      obtain ⟨candidate, inBefore, blocks⟩ := List.all_eq_false.mp ahead
      have isOther : candidate.id ≠ goal.id := by
        intro same
        rw [isCompletionBlockingForFinalCandidate, if_pos same] at blocks
        exact blocks rfl
      refine ⟨candidate, ?_, ?_⟩
      · rw [completed.goals_eq distinct]
        exact List.mem_map.mpr ⟨candidate, inBefore, if_neg isOther⟩
      · rw [completed.blocking distinct member isOther]
        simpa using blocks

/-- The completion of a goal in the place of its complete replacements leaves nothing that blocks
where nothing else does. -/
theorem CompletedFrom.done_of_replaced (member : goal ∈ before.goals)
    (resolved : before.isSupersededResolved goal = true) (ahead : (before.goals.all fun candidate =>
      !before.isCompletionBlockingForFinalCandidate goal candidate) = true) :
    after.isUlwLoopDone = true := by
  rw [isUlwLoopDone, Bool.or_eq_true]
  refine .inr (List.all_eq_true.mpr fun other isMember => ?_)
  rw [completed.goals_eq distinct] at isMember
  obtain ⟨candidate, inBefore, rfl⟩ := List.mem_map.mp isMember
  by_cases same : candidate.id = goal.id
  · rw [List.inj_on_of_nodup_map distinct inBefore member same]
    obtain ⟨superseded, nonempty, complete⟩ := (isSupersededResolved_iff before goal).mp resolved
    have stillResolved : after.isSupersededResolved (completeGoal goal) = true := by
      refine (isSupersededResolved_iff after (completeGoal goal)).mpr ⟨superseded, nonempty, ?_⟩
      intro id isReplacement
      rw [completed.isComplete distinct member, complete id isReplacement, Bool.or_true]
    have isSuperseded : (completeGoal goal).steeringStatus = some .superseded := superseded
    simp [isCompletionBlocking, isSuperseded, stillResolved]
  · rw [if_neg same, completed.blocking distinct member same]
    exact List.all_eq_true.mp ahead candidate inBefore

end Plan

/-- In front of the aggregate completion a goal blocks; behind it a final gate is recorded and no
goal in force is open. -/
structure Gated (run : LoopRun) : Prop where
  numbered : Numbered run.plan.ids
  blocked : run.plan.aggregateCompletion = false →
    ∃ goal ∈ run.plan.goals, run.plan.isCompletionBlocking goal = true
  closed : run.plan.aggregateCompletion = true → run.completions ≠ [] ∧
    ∀ goal ∈ run.plan.goals, goal.isSuperseded = false →
      goal.status ≠ .pending ∧ goal.status ≠ .inProgress

variable {run : LoopRun}

theorem Gated.doneThroughGate (gated : Gated run) : run.DoneThroughGate := by
  intro done
  cases completion : run.plan.aggregateCompletion with
  | true => exact ⟨rfl, gated.closed completion⟩
  | false =>
    obtain ⟨goal, member, blocks⟩ := gated.blocked completion
    rw [Plan.isUlwLoopDone_eq_false completion member blocks] at done
    cases done

theorem Gated.of_created (created : plan.IsCreated) : Gated { plan, completions := [] } := by
  obtain ⟨numbered, notCompleted, nonempty, fresh, _⟩ := created.spec
  refine ⟨numbered, fun _ => ?_, fun completed => ?_⟩
  · obtain ⟨goal, member⟩ := List.exists_mem_of_ne_nil _ nonempty
    exact ⟨goal, member, Plan.isCompletionBlocking_of_fresh plan (fresh goal member)⟩
  · rw [notCompleted] at completed
    cases completed

/-- A call behind which no goal is complete that was not, and none open. -/
theorem Gated.of_noFurther (gated : Gated run)
    (noFurther : Plan.NoFurther run.plan.goals next.goals)
    (sameCompletion : next.aggregateCompletion = run.plan.aggregateCompletion)
    (notOpened : run.plan.aggregateCompletion = true → ∀ other ∈ next.goals,
      ∃ goal ∈ run.plan.goals, other.steeringStatus = goal.steeringStatus ∧
        (other.status = goal.status ∨ other.status ≠ .pending ∧ other.status ≠ .inProgress)) :
    Gated { run with plan := next } where
  numbered := gated.numbered.perm noFurther.sameIds
  blocked := by
    intro notCompleted
    obtain ⟨goal, member, blocks⟩ := gated.blocked (sameCompletion.symm.trans notCompleted)
    exact noFurther.blocking gated.numbered.nodup member blocks
  closed := by
    intro completed
    have wasCompleted := sameCompletion.symm.trans completed
    obtain ⟨recorded, closed⟩ := gated.closed wasCompleted
    refine ⟨recorded, fun other member notSuperseded => ?_⟩
    obtain ⟨goal, inBefore, steering, status⟩ := notOpened wasCompleted other member
    rcases status with same | settled
    · rw [Goal.isSuperseded, steering] at notSuperseded
      rw [same]
      exact closed goal inBefore notSuperseded
    · exact settled

theorem Gated.of_standing (gated : Gated run)
    (same : (next.goals.map Goal.standing).Perm (run.plan.goals.map Goal.standing))
    (sameCompletion : next.aggregateCompletion = run.plan.aggregateCompletion) :
    Gated { run with plan := next } := by
  refine gated.of_noFurther (Plan.noFurther_of_standing same) sameCompletion ?_
  intro _ other member
  obtain ⟨goal, inBefore, sameStanding⟩ :=
    List.mem_map.mp (same.mem_iff.mp (List.mem_map_of_mem member))
  simp only [Goal.standing, Prod.mk.injEq] at sameStanding
  exact ⟨goal, inBefore, sameStanding.2.2.1.symm, .inl sameStanding.2.1.symm⟩

/-- A plan in front of its completion with a goal that blocks. -/
theorem Gated.of_blocking (numbered : Numbered next.ids)
    (notCompleted : next.aggregateCompletion = false) (member : goal ∈ next.goals)
    (blocks : next.isCompletionBlocking goal = true) : Gated { run with plan := next } where
  numbered := numbered
  blocked := fun _ => ⟨goal, member, blocks⟩
  closed := by
    intro completed
    rw [notCompleted] at completed
    cases completed

section

variable (gated : Gated run)
include gated

theorem Gated.startNext (retryFailed : Bool) :
    Gated { run with plan := (run.plan.startNext retryFailed).1 } := by
  rcases Plan.startNext_cases run.plan retryFailed with
    ⟨_, same, _⟩ | ⟨next, _, notCompleted, _, _, isNext⟩
  · rw [same]
    exact gated
  · rw [isNext]
    refine gated.of_noFurther ?_ rfl ?_
    · exact Plan.noFurther_updateGoal gated.numbered.nodup (fun _ => rfl) (fun _ => rfl)
        (fun _ => rfl) (fun goal isComplete => by cases isComplete)
    · intro completed
      rw [notCompleted] at completed
      cases completed

/-- A steering is accepted only in front of the completion, and leaves a goal that blocks. -/
theorem Gated.steering (valid : run.plan.validateSteering proposal = []) :
    Gated { run with plan := run.plan.applySteeringMutation proposal } := by
  have notCompleted := (Plan.exists_blocking (Plan.not_done_of_validateSteering valid)).1
  have sameCompletion := (Plan.applySteeringMutation_fields run.plan proposal).1
  have steered := Plan.steered_of_valid gated.numbered.nodup valid
  have numbered := Plan.numbered_of_steered gated.numbered steered
  cases steered with
  | reworded goals =>
    refine gated.of_standing ?_ sameCompletion
    have same := goals.map Prod.fst
    rwa [List.map_map, List.map_map] at same
  | added child goals =>
    have isFresh : (run.plan.makeChild child 1).IsFresh := ⟨_, _, _, _, rfl⟩
    refine Gated.of_blocking numbered (sameCompletion.trans notCompleted) ?_
      (Plan.isCompletionBlocking_of_fresh _ isFresh)
    rw [goals]
    exact List.mem_append_right _ (List.mem_singleton_self _)
  | blocked target isTarget _ _ goals =>
    have member : { target with status := .blocked, steeringStatus := some .blocked } ∈
        (run.plan.applySteeringMutation proposal).goals := by
      rw [goals]
      exact List.mem_map.mpr ⟨target, Plan.mem_of_steeringTarget isTarget, if_pos rfl⟩
    exact Gated.of_blocking numbered (sameCompletion.trans notCompleted) member rfl
  | superseded target children isTarget _ nonempty goals =>
    obtain ⟨child, rest, rfl⟩ := List.exists_cons_of_ne_nil nonempty
    have isFresh : (run.plan.makeChild child 1).IsFresh := ⟨_, _, _, _, rfl⟩
    refine Gated.of_blocking numbered (sameCompletion.trans notCompleted) ?_
      (Plan.isCompletionBlocking_of_fresh _ isFresh)
    apply goals.mem_iff.mpr
    apply List.mem_append_right
    rw [Plan.makeChildren, List.mapIdx_cons]
    exact List.mem_cons_self

theorem Gated.steerAll (steered : run.plan.steerAll proposals = some next) :
    Gated { run with plan := next } := by
  induction proposals generalizing run with
  | nil =>
    cases steered
    exact gated
  | cons proposal rest ih =>
    rw [Plan.steerAll] at steered
    split at steered
    next valid =>
      have gatedNext := ih (gated.steering valid) steered
      exact gatedNext
    next => cases steered

theorem Gated.checkpoint (keepsGate : run.KeepsGate (.checkpoint args))
    (accepted : run.plan.checkpoint args = .ok result) :
    Gated
      { plan := result.plan
        completions := run.completions ++
          (result.aggregateGate.map fun coverage => (args.goalId, coverage)).toList } := by
  have distinct := gated.numbered.nodup
  obtain ⟨goal, found, effect⟩ := Plan.checkpoint_cases accepted
  have member := Plan.mem_of_findGoal found
  rcases effect with
    ⟨isComplete, checked, goals, completion, _⟩ |
      ⟨_, noGate, change, sameId, steering, replacements, settled, goals, completion⟩
  · have completed : Plan.CompletedFrom run.plan goal result.plan := goals
    have isFinal := Plan.requireComplete_gate checked
    refine ⟨?_, ?_, ?_⟩
    · rw [completed.ids]
      exact gated.numbered
    · intro notCompleted
      rw [completion, Bool.or_eq_false_iff] at notCompleted
      obtain ⟨wasNotCompleted, noGate⟩ := notCompleted
      have keeps := keepsGate isComplete wasNotCompleted
      rw [found] at keeps
      exact completed.still_blocked distinct member (gated.blocked wasNotCompleted)
        (isFinal.symm.trans noGate) keeps
    · intro isCompleted
      cases gate : result.aggregateGate with
      | some coverage =>
        rw [gate] at isFinal
        refine ⟨by simp, fun other isMember notSuperseded => ?_⟩
        rw [completed.closed_of_final distinct isFinal.symm other isMember notSuperseded]
        decide
      | none =>
        rw [completion, gate, Option.isSome_none, Bool.or_false] at isCompleted
        obtain ⟨recorded, closed⟩ := gated.closed isCompleted
        refine ⟨by simpa using recorded, fun other isMember notSuperseded => ?_⟩
        rw [completed.goals_eq distinct] at isMember
        obtain ⟨candidate, inBefore, rfl⟩ := List.mem_map.mp isMember
        by_cases same : candidate.id = goal.id
        · rw [if_pos same]
          exact ⟨GoalStatus.noConfusion, GoalStatus.noConfusion⟩
        · rw [if_neg same] at notSuperseded ⊢
          exact closed candidate inBefore notSuperseded
  · rw [noGate, Option.map_none, Option.toList_none, List.append_nil]
    have notDone : ∀ other : Goal, (change other).status ≠ .complete ∧
        (change other).status ≠ .pending ∧ (change other).status ≠ .inProgress := by
      intro other
      rcases settled other with isStatus | isStatus | isStatus
      · rw [isStatus]
        decide
      · rw [isStatus]
        decide
      · rw [isStatus]
        decide
    refine gated.of_noFurther ?_ completion ?_
    · rw [goals]
      exact Plan.noFurther_updateGoal distinct sameId steering replacements
        fun other => (notDone other).1
    · intro _ other isMember
      rw [goals, Plan.updateGoal_goals distinct] at isMember
      obtain ⟨candidate, inBefore, rfl⟩ := List.mem_map.mp isMember
      refine ⟨candidate, inBefore, ?_⟩
      split
      · exact ⟨steering candidate, .inr (notDone candidate).2⟩
      · exact ⟨rfl, .inl rfl⟩

/-- What one call keeps. -/
theorem Gated.step (keepsGate : run.KeepsGate call) (stepped : run.step call = some next) :
    Gated next := by
  cases call with
  | startNext retryFailed =>
    cases stepped
    exact gated.startNext retryFailed
  | addGoal title objective =>
    obtain ⟨plan, added, rfl⟩ := Option.map_eq_some_iff.mp stepped
    obtain ⟨numbered, goal, isFresh, rfl⟩ := Plan.addGoal_spec gated.numbered added
    exact Gated.of_blocking numbered keepsGate
      (List.mem_append_right _ (List.mem_singleton_self goal))
      (Plan.isCompletionBlocking_of_fresh _ isFresh)
  | recordEvidence goalId criterionId status =>
    obtain ⟨plan, recorded, rfl⟩ := Option.map_eq_some_iff.mp stepped
    obtain ⟨same, sameCompletion⟩ := Plan.recordEvidence_spec recorded
    exact gated.of_standing (List.Perm.of_eq same) sameCompletion
  | resetCriteria goalId =>
    obtain ⟨plan, reset, rfl⟩ := Option.map_eq_some_iff.mp stepped
    obtain ⟨same, sameCompletion⟩ := Plan.resetCriteria_spec reset
    exact gated.of_standing (List.Perm.of_eq same) sameCompletion
  | steer proposals =>
    obtain ⟨plan, steered, rfl⟩ := Option.map_eq_some_iff.mp stepped
    exact gated.steerAll steered
  | recordFinalReviewBlockers goalId title objective codexValid =>
    obtain ⟨plan, recorded, rfl⟩ := Option.map_eq_some_iff.mp stepped
    obtain ⟨numbered, sameCompletion, goal, member, isFresh⟩ :=
      Plan.recordFinalReviewBlockers_spec gated.numbered recorded
    exact Gated.of_blocking numbered (sameCompletion.trans keepsGate) member
      (Plan.isCompletionBlocking_of_fresh _ isFresh)
  | checkpoint args =>
    rw [LoopRun.step] at stepped
    split at stepped
    next => cases stepped
    next result accepted =>
      cases stepped
      exact gated.checkpoint keepsGate accepted

end

/-- A fresh goal behind the aggregate completion is work left. -/
theorem not_doneThroughGate_of_fresh (completed : run.plan.aggregateCompletion = true)
    (member : goal ∈ run.plan.goals) (isFresh : goal.IsFresh) : ¬ run.DoneThroughGate := by
  intro throughGate
  have done : run.plan.isUlwLoopDone = true := by
    rw [Plan.isUlwLoopDone, completed, Bool.true_or]
  obtain ⟨_, _, _, _, rfl⟩ := isFresh
  exact ((throughGate done).2.2 _ member rfl).1 rfl

/-- The calls that pass the gate by do break what the gate is for. -/
theorem Gated.breaks (gated : Gated run) (passesBy : ¬ run.KeepsGate call)
    (stepped : run.step call = some next) : ¬ next.DoneThroughGate := by
  cases call with
  | startNext retryFailed => exact absurd trivial passesBy
  | addGoal title objective =>
    obtain ⟨plan, added, rfl⟩ := Option.map_eq_some_iff.mp stepped
    obtain ⟨numbered, goal, isFresh, rfl⟩ := Plan.addGoal_spec gated.numbered added
    exact not_doneThroughGate_of_fresh (Bool.eq_true_of_not_eq_false passesBy)
      (List.mem_append_right _ (List.mem_singleton_self goal)) isFresh
  | recordEvidence goalId criterionId status | resetCriteria goalId | steer proposals =>
    exact absurd trivial passesBy
  | recordFinalReviewBlockers goalId title objective codexValid =>
    obtain ⟨plan, recorded, rfl⟩ := Option.map_eq_some_iff.mp stepped
    obtain ⟨numbered, sameCompletion, goal, member, isFresh⟩ :=
      Plan.recordFinalReviewBlockers_spec gated.numbered recorded
    exact not_doneThroughGate_of_fresh
      (sameCompletion.trans (Bool.eq_true_of_not_eq_false passesBy)) member isFresh
  | checkpoint args =>
    rw [LoopRun.step] at stepped
    split at stepped
    next => cases stepped
    next result accepted =>
      cases stepped
      obtain ⟨goal, found, effect⟩ := Plan.checkpoint_cases accepted
      rw [LoopRun.KeepsGate, found, Option.any_some] at passesBy
      simp only [Classical.not_imp, Bool.not_eq_false, Bool.and_eq_true] at passesBy
      obtain ⟨isComplete, notCompleted, resolved, ahead⟩ := passesBy
      rcases effect with ⟨_, checked, goals, completion, _⟩ | ⟨notComplete, _⟩
      · have completed : Plan.CompletedFrom run.plan goal result.plan := goals
        have done := completed.done_of_replaced gated.numbered.nodup
          (Plan.mem_of_findGoal found) resolved ahead
        have superseded := ((Plan.isSupersededResolved_iff run.plan goal).mp resolved).1
        have noGate : result.aggregateGate.isSome = false := by
          rw [Plan.requireComplete_gate checked, Plan.isFinalRunCompletionCandidate,
            Plan.isCompletionBlocking, superseded, resolved]
          rfl
        intro throughGate
        have isCompleted := (throughGate done).1
        rw [completion, notCompleted, noGate] at isCompleted
        cases isCompleted
      · exact absurd isComplete notComplete

/-- A run is done only through the final gate and with no work left, in every state that it passes
through, exactly when each of its calls keeps the gate. -/
theorem doneThroughGate_iff {plan : Plan} (created : plan.IsCreated) (calls : List LoopCall) :
    (∀ front final, front <+: calls →
        execute LoopRun.step { plan, completions := [] } front = some final →
        final.DoneThroughGate) ↔
      EveryStep LoopRun.step (fun run call _ => run.KeepsGate call)
        { plan, completions := [] } calls :=
  reached_iff_everyStep
    (fun _ _ _ gated keepsGate stepped => gated.step keepsGate stepped)
    (fun _ gated => gated.doneThroughGate)
    (fun _ _ _ gated passesBy stepped => gated.breaks passesBy stepped)
    (Gated.of_created created)

/-- A plan of one goal. -/
def singlePlan : Plan where
  codexGoalMode := some .aggregate
  aggregateCompletion := false
  activeGoalId := none
  validationBatches := none
  goals := [freshGoal (text "G001-build") (text "build") (text "build it") 0]

theorem singlePlan_isCreated : singlePlan.IsCreated :=
  ⟨{ title := text "build", objective := text "build it" }, [], none, none, by decide +kernel⟩

section

variable (goalId : Text)

/-- Evidence for the criteria of a goal. -/
def passAll : List LoopCall :=
  [ .recordEvidence goalId (text "C001") .pass, .recordEvidence goalId (text "C002") .pass,
    .recordEvidence goalId (text "C003") .pass ]

/-- A completion with everything that it may need. -/
def completion (totalCriteria passCount : Nat) : CheckpointArgs where
  goalId
  status := .complete
  hasEvidence := true
  signature := none
  codexValid := true
  qualityGate := .accepted { totalCriteria, passCount }

def complete : LoopCall :=
  .checkpoint (completion goalId 3 3)

/-- The one goal is worked off. -/
def workedRun : List LoopCall :=
  .startNext false :: passAll (text "G001-build") ++ [complete (text "G001-build")]

/-- A goal is appended to a plan that is done. -/
def appendedRun : List LoopCall :=
  workedRun ++ [.addGoal (text "more") (text "more of it")]

/-- A goal is replaced by one goal. -/
def replacement (kind : MutationKind) (goalId : Text) : SteeringProposal where
  kind
  evidence := text "seen"
  rationale := text "better"
  targetGoalId := some goalId
  targetGoalIds := none
  goalId := none
  criterionId := none
  title := none
  objective := none
  childGoals := some [{ title := text "other", objective := text "other way" }]
  revisedTitle := none
  revisedObjective := none
  pendingOrder := none
  after := none
  scenario := none
  expectedEvidence := none
  userModel := none
  promptSignature := none
  idempotencyKey := none
  hasProtected := false
  weakens := false

def supersede : LoopCall :=
  .steer [replacement .markBlockedSuperseded goalId]

end

/-- A replacement is replaced, and completed behind its own replacement. -/
def replacedRun : List LoopCall :=
  [supersede (text "G001-build"), supersede (text "G002")] ++ passAll (text "G003") ++
    [complete (text "G003")] ++ passAll (text "G002") ++ [complete (text "G002")]

theorem doneThroughGate_iff_workedRun :
    singlePlan.IsCreated ∧ ∀ front final, front <+: workedRun →
      execute LoopRun.step { plan := singlePlan, completions := [] } front = some final →
      final.DoneThroughGate :=
  ⟨singlePlan_isCreated,
    (doneThroughGate_iff singlePlan_isCreated workedRun).mpr (by decide +kernel)⟩

/-- A goal can be appended behind the aggregate completion, and a run can be done without it. -/
theorem not_doneThroughGate :
    ¬ ∀ plan : Plan, plan.IsCreated → ∀ calls final,
      execute LoopRun.step { plan, completions := [] } calls = some final →
      final.DoneThroughGate := by
  intro always
  have run : ∃ final,
      execute LoopRun.step { plan := singlePlan, completions := [] } appendedRun = some final ∧
        ¬ final.DoneThroughGate := by
    have fails : (execute LoopRun.step { plan := singlePlan, completions := [] }
        appendedRun).any (fun final => ¬ final.DoneThroughGate) = true := by decide +kernel
    rw [Option.any_eq_true] at fails
    obtain ⟨final, reached, fails⟩ := fails
    exact ⟨final, reached, of_decide_eq_true fails⟩
  obtain ⟨final, reached, fails⟩ := run
  exact fails (always singlePlan singlePlan_isCreated appendedRun final reached)

example : (execute LoopRun.step { plan := singlePlan, completions := [] } replacedRun).any
    (fun final => final.plan.isUlwLoopDone && final.completions.isEmpty) = true := by
  decide +kernel

end OpenAgent.UlwLoop
