import Mathlib.Algebra.GroupWithZero.Nat
import OpenAgent.UlwLoop.Steering

/-!
# Working a ulw-loop

`startNextUlwLoop`, `addUlwLoopGoal`, `recordEvidence`, `markCriteriaPendingResetForGoal`,
`recordFinalReviewBlockers` and `checkpointUlwLoop` on a plan.  The verdicts on the Codex snapshot
and on the quality gate are given: they depend on texts and files outside the plan.
-/

namespace OpenAgent.UlwLoop

open Library

/-- `criteriaCoverage` of a quality gate, as far as a checkpoint reads it. -/
structure CriteriaCoverage where
  totalCriteria : Nat
  passCount : Nat
  deriving DecidableEq

/-- The quality gate of a checkpoint, with the answer of `validateQualityGate`. -/
inductive GateInput
  | missing
  | invalid
  | accepted (coverage : CriteriaCoverage)
  deriving DecidableEq

inductive CheckpointStatus
  | complete
  | failed
  | blocked
  deriving DecidableEq

/-- `CheckpointUlwLoopArgs`.  Of the evidence it says whether it is blank, and what
`classifyExternalAuthorizationBlocker` answers. -/
structure CheckpointArgs where
  goalId : Text
  status : CheckpointStatus
  hasEvidence : Bool
  signature : Option Text
  codexValid : Bool
  qualityGate : GateInput

/-- The codes of the errors of `checkpointUlwLoop`. -/
inductive CheckpointError
  | goalNotFound
  | evidenceRequired
  | criteriaNotAllPass
  | batchOpen
  | batchGateRequired
  | batchCriteriaPending
  | batchGateMismatch
  | qualityGateInvalid
  | codexSnapshotMismatch

/-- The plan of `CheckpointUlwLoopResult`, with the quality gate of an aggregate completion. -/
structure CheckpointResult where
  plan : Plan
  aggregateGate : Option CriteriaCoverage

namespace Plan

/-- What a start makes of a goal, with `clearGoalBlockerFields` of `plan-crud.ts`. -/
def startGoal (goal : Goal) : Goal :=
  { goal with
    status := .inProgress
    attempt := goal.attempt + 1
    blockerSignature := none
    nonRetriable := false }

variable (plan : Plan)

def findScheduled (test : Goal → Bool) : Option Goal :=
  plan.goals.find? fun goal => test goal && goal.isScheduleEligible

/-- `startNextUlwLoop`: the goal that is started or resumed, or nothing when it reports done. -/
def startNext (retryFailed : Bool) : Plan × Option Text :=
  if plan.aggregateCompletion then (plan, none)
  else
    match plan.findScheduled fun goal => goal.status = .inProgress with
    | some existing => (plan, some existing.id)
    | none =>
      let pending := plan.findScheduled fun goal => goal.status = .pending
      let failed :=
        if retryFailed then
          plan.findScheduled fun goal => goal.status = .failed && !goal.nonRetriable
        else none
      match pending.or failed with
      | none => (plan, none)
      | some next =>
        ({ plan.updateGoal next.id startGoal with activeGoalId := some next.id }, some next.id)

/-- `addUlwLoopGoal`. -/
def addGoal (title objective : Text) : Option Plan :=
  (makeGoal title objective plan.goals.length).map fun goal =>
    { plan with goals := plan.goals ++ [goal] }

/-- `recordEvidence`, with evidence that is not blank. -/
def recordEvidence (goalId criterionId : Text) (status : CriterionStatus) : Option Plan := do
  let goal ← plan.findGoal goalId
  let _ ← goal.successCriteria.find? fun criterion => criterion.id = criterionId
  return plan.updateGoal goalId fun goal =>
    { goal with
      successCriteria := updateCriteria criterionId (fun criterion => { criterion with status })
        goal.successCriteria }

/-- `markCriteriaPendingResetForGoal`. -/
def resetCriteria (goalId : Text) : Option Plan :=
  (plan.findGoal goalId).map fun _ => plan.updateGoal goalId fun goal =>
    { goal with
      successCriteria := goal.successCriteria.map fun criterion =>
        { criterion with status := .pending } }

/-- `requireAllPlanCriteriaPass`. -/
def allCriteriaPass : Bool :=
  plan.goals.all fun goal => goal.successCriteria.all fun criterion => criterion.status = .pass

/-- `recordFinalReviewBlockers`. -/
def recordFinalReviewBlockers (goalId title objective : Text) (codexValid : Bool) :
    Option Plan := do
  let goal ← plan.findGoal goalId
  if goal.status = .inProgress ∧ plan.isFinalRunCompletionCandidate goal ∧ codexValid then
    let blocked := (plan.updateGoal goalId fun goal =>
      { goal with status := .reviewBlocked, blockerSignature := none, nonRetriable := false }
      ).deactivate goalId
    let number := maxNumber leadingNumber plan.goals + 1
    return { blocked with
      goals := blocked.goals ++
        [freshGoal (unit 'G' :: paddedNumber number) title objective plan.goals.length] }
  else none

section

variable (goal : Goal)

/-- `requireBatchFinalReady`. -/
def batchFinalReady : Bool :=
  (plan.batchClosedBy goal.id).all fun batch =>
    batch.memberIds.all fun id => id = goal.id || plan.memberResolved id

/-- `requireAllValidationBatchesClosed`. -/
def allBatchesClosed (closingGoalId : Text) : Bool :=
  plan.batches.all fun batch =>
    batch.memberIds.all fun id => id = closingGoalId || plan.memberResolved id

/-- The members of a batch that are found. -/
def members (batch : ValidationBatch) : List Goal :=
  batch.memberIds.filterMap plan.findGoal

/-- The counts that `requireBatchGate` expects. -/
def batchCoverage (batch : ValidationBatch) : CriteriaCoverage where
  totalCriteria := ((plan.members batch).map fun member => member.successCriteria.length).sum
  passCount := ((plan.members batch).map fun member =>
    member.successCriteria.countP fun criterion => criterion.status = .pass).sum

/-- `requireBatchGate`. -/
def requireBatchGate (coverage : CriteriaCoverage) : Except CheckpointError Unit :=
  match plan.batchClosedBy goal.id with
  | none => .ok ()
  | some batch =>
    if (plan.members batch).all fun member =>
        member.successCriteria.all fun criterion => criterion.status = .pass then
      if coverage = plan.batchCoverage batch then .ok () else .error .batchGateMismatch
    else .error .batchCriteriaPending

/-- The checks of the criteria in front of a completion. -/
def requireCriteria : Except CheckpointError Unit :=
  if plan.isFinalRunCompletionCandidate goal then
    if !goal.hasAllCriteriaPass || !plan.allCriteriaPass then .error .criteriaNotAllPass
    else if !plan.allBatchesClosed goal.id then .error .batchOpen
    else .ok ()
  else if plan.codexGoalMode.getD .perStory = .aggregate then
    if goal.hasEssentialCriteriaPass then .ok () else .error .criteriaNotAllPass
  else if goal.hasAllCriteriaPass then .ok ()
  else .error .criteriaNotAllPass

/-- The quality gate of a completion that needs one. -/
def requireGate (args : CheckpointArgs) : Except CheckpointError CriteriaCoverage :=
  match args.qualityGate with
  | .missing | .invalid => .error .qualityGateInvalid
  | .accepted coverage =>
    match plan.requireBatchGate goal coverage with
    | .ok () => .ok coverage
    -- together with the error of the Codex snapshot, if there is one
    | .error error => .error (if args.codexValid then error else .qualityGateInvalid)

/-- The checks of `checkpointUlwLoop` in front of a completion, with the gate of a final one. -/
def requireComplete (args : CheckpointArgs) :
    Except CheckpointError (Option CriteriaCoverage) := do
  plan.requireCriteria goal
  let closesBatch := (plan.batchClosedBy goal.id).isSome
  if closesBatch then
    if !plan.batchFinalReady goal then throw .batchOpen
    if args.qualityGate = .missing then throw .batchGateRequired
  let final := plan.isFinalRunCompletionCandidate goal
  let gate ←
    if final || closesBatch then (plan.requireGate goal args).map some else pure none
  if !args.codexValid then throw .codexSnapshotMismatch
  return if final then gate else none

/-- What a completion makes of a goal, with `clearGoalBlockerFields` of `quality-gate-blockers.ts`,
which keeps `nonRetriable`. -/
def completeGoal : Goal :=
  { goal with status := .complete, blockerSignature := none }

end

/-- `sameBlockerOccurrences`. -/
def sameBlockerOccurrences (signature : Text) : Nat :=
  plan.goals.countP fun goal => goal.blockerSignature = some signature

/-- `applyBlockedOrFailed`. -/
def applyBlockedOrFailed (goal : Goal) (status : GoalStatus) (signature : Option Text) : Plan :=
  let needsDecision := signature.any fun given => 3 ≤ plan.sameBlockerOccurrences given + 1
  (plan.updateGoal goal.id fun goal =>
    { goal with
      status := if needsDecision then .needsUserDecision else status
      blockerSignature := signature.or goal.blockerSignature
      nonRetriable := needsDecision || goal.nonRetriable }).deactivate goal.id

/-- `checkpointUlwLoop`. -/
def checkpoint (args : CheckpointArgs) : Except CheckpointError CheckpointResult :=
  match plan.findGoal args.goalId with
  | none => .error .goalNotFound
  | some goal =>
    if !args.hasEvidence then .error .evidenceRequired
    else
      match args.status with
      | .complete =>
        match plan.requireComplete goal args with
        | .error error => .error error
        | .ok gate =>
          let completed := (plan.updateGoal goal.id completeGoal).deactivate goal.id
          .ok
            { plan :=
                { completed with
                  aggregateCompletion := completed.aggregateCompletion || gate.isSome }
              aggregateGate := gate }
      | .failed =>
        .ok
          { plan := plan.applyBlockedOrFailed goal .failed args.signature
            aggregateGate := none }
      | .blocked =>
        .ok
          { plan := plan.applyBlockedOrFailed goal .blocked args.signature
            aggregateGate := none }

end Plan

end OpenAgent.UlwLoop
