import OpenAgent.Library.Text

/-!
# Plans of a ulw-loop

The plan that `goals.json` holds, with `goal-status.ts`, `plan-goal-factory.ts`,
`validation-batch.ts` and `createUlwLoopPlan`.  Times, evidence texts and the paths of a plan are
left out: no check reads them.
-/

namespace OpenAgent.UlwLoop

open Library

/-- The statuses of a criterion. -/
inductive CriterionStatus
  | pending
  | pass
  | fail
  | blocked
  deriving DecidableEq

inductive UserModel
  | happy
  | edge
  | regression
  | adversarial
  deriving DecidableEq

/-- `UlwLoopSuccessCriterion`. -/
structure SuccessCriterion where
  id : Text
  scenario : Text
  userModel : UserModel
  expectedEvidence : Text
  essential : Option Bool
  status : CriterionStatus
  deriving DecidableEq

/-- `UlwLoopStatus`. -/
inductive GoalStatus
  | pending
  | inProgress
  | complete
  | failed
  | blocked
  | reviewBlocked
  | needsUserDecision
  deriving DecidableEq

inductive SteeringStatus
  | superseded
  | blocked
  deriving DecidableEq

/-- `UlwLoopItem`. -/
structure Goal where
  id : Text
  title : Text
  objective : Text
  status : GoalStatus
  successCriteria : List SuccessCriterion
  attempt : Nat
  steeringStatus : Option SteeringStatus
  supersededBy : Option (List Text)
  blockerSignature : Option Text
  nonRetriable : Bool
  deriving DecidableEq

/-- `UlwLoopValidationBatch`. -/
structure ValidationBatch where
  batchId : Text
  memberIds : List Text
  finalGoalId : Text
  deriving DecidableEq

inductive CodexGoalMode
  | aggregate
  | perStory
  deriving DecidableEq

/-- `UlwLoopPlan`.  Of the aggregate completion it says whether there is one. -/
structure Plan where
  codexGoalMode : Option CodexGoalMode
  aggregateCompletion : Bool
  activeGoalId : Option Text
  validationBatches : Option (List ValidationBatch)
  goals : List Goal
  deriving DecidableEq

namespace Goal

variable (goal : Goal)

def replacements : List Text :=
  goal.supersededBy.getD []

def isSuperseded : Bool :=
  goal.steeringStatus = some .superseded

/-- `hasAllCriteriaPass`. -/
def hasAllCriteriaPass : Bool :=
  !goal.successCriteria.isEmpty &&
    goal.successCriteria.all fun criterion => criterion.status = .pass

/-- `essentialCriteriaOf`. -/
def essentialCriteria : List SuccessCriterion :=
  match goal.successCriteria.filter fun criterion => criterion.essential.getD true with
  | [] => (goal.successCriteria.find? fun criterion => criterion.userModel = .happy).toList
  | explicit => explicit

/-- `hasEssentialCriteriaPass`. -/
def hasEssentialCriteriaPass : Bool :=
  !goal.essentialCriteria.isEmpty &&
    goal.essentialCriteria.all fun criterion => criterion.status = .pass

/-- `isScheduleEligible`. -/
def isScheduleEligible : Bool :=
  goal.steeringStatus ≠ some .superseded && goal.steeringStatus ≠ some .blocked

end Goal

namespace Plan

variable (plan : Plan)

def findGoal (id : Text) : Option Goal :=
  plan.goals.find? fun goal => goal.id = id

/-- The goals with the one that is found changed in place, and with others behind it. -/
def spliceGoals (id : Text) (change : Goal → Goal) (inserted : List Goal) : List Goal → List Goal
  | [] => []
  | goal :: rest =>
    if goal.id = id then change goal :: (inserted ++ rest)
    else goal :: spliceGoals id change inserted rest

def updateGoal (id : Text) (change : Goal → Goal) : Plan :=
  { plan with goals := spliceGoals id change [] plan.goals }

/-- A replacement is found, and complete. -/
def isComplete (id : Text) : Bool :=
  (plan.findGoal id).any fun goal => goal.status = .complete

def isSupersededResolved (goal : Goal) : Bool :=
  goal.isSuperseded && !goal.replacements.isEmpty && goal.replacements.all plan.isComplete

def isMemberResolved (goal : Goal) : Bool :=
  goal.status = .complete || plan.isSupersededResolved goal

def isCompletionBlocking (goal : Goal) : Bool :=
  match goal.steeringStatus with
  | some .superseded => !plan.isSupersededResolved goal
  | some .blocked => true
  | none => goal.status ≠ .complete

def isCompletionBlockingForFinalCandidate (finalCandidate candidate : Goal) : Bool :=
  if candidate.id = finalCandidate.id then false
  else if candidate.isSuperseded then
    candidate.replacements.isEmpty ||
      !candidate.replacements.all fun id => id = finalCandidate.id || plan.isComplete id
  else plan.isCompletionBlocking candidate

def isUlwLoopDone : Bool :=
  plan.aggregateCompletion || plan.goals.all fun goal => !plan.isCompletionBlocking goal

def isFinalRunCompletionCandidate (goal : Goal) : Bool :=
  plan.isCompletionBlocking goal &&
    plan.goals.all fun candidate => !plan.isCompletionBlockingForFinalCandidate goal candidate

def batches : List ValidationBatch :=
  plan.validationBatches.getD []

/-- `batchOf`. -/
def batchOf (goalId : Text) : Option ValidationBatch :=
  plan.batches.find? fun batch => batch.memberIds.contains goalId

/-- `batchClosedBy`. -/
def batchClosedBy (goalId : Text) : Option ValidationBatch :=
  (plan.batchOf goalId).filter fun batch => batch.finalGoalId = goalId

/-- `memberResolved`. -/
def memberResolved (goalId : Text) : Bool :=
  (plan.findGoal goalId).any plan.isMemberResolved

/-- `updateBatchesAfterSupersede`. -/
def updateBatchesAfterSupersede (targetId : Text) (replacementIds : List Text) : Plan :=
  if replacementIds = [] then plan
  else
    { plan with
      validationBatches := plan.validationBatches.map fun batches => batches.map fun batch =>
        if batch.memberIds.contains targetId then
          { batch with
            memberIds := batch.memberIds.flatMap fun id =>
              if id = targetId then replacementIds else [id]
            finalGoalId :=
              if batch.finalGoalId = targetId then replacementIds.getLast?.getD batch.finalGoalId
              else batch.finalGoalId }
        else batch }

end Plan

/-- `String(number).padStart(3, "0")`. -/
def paddedNumber (number : Nat) : Text :=
  List.replicate (3 - (decimalText number).length) (unit '0') ++ decimalText number

/-- The value of decimal digits. -/
def digitsValue (digits : Text) : Nat :=
  digits.foldl (fun value digit => 10 * value + (digit.toNat - 48)) 0

/-- The number in an identifier, by `/^G(\d+)(?:-|$)/`. -/
def goalNumber : Text → Option Nat
  | [] => none
  | first :: rest =>
    if first = unit 'G' ∧ rest.takeWhile isDigit ≠ [] ∧
        ((rest.dropWhile isDigit).head?.getD (unit '-') = unit '-') then
      some (digitsValue (rest.takeWhile isDigit))
    else none

/-- The number in an identifier, by `/^G(\d+)/`. -/
def leadingNumber : Text → Option Nat
  | [] => none
  | first :: rest =>
    if first = unit 'G' ∧ rest.takeWhile isDigit ≠ [] then
      some (digitsValue (rest.takeWhile isDigit))
    else none

/-- The greatest number of the identifiers of a plan, as one of the two expressions reads them. -/
def maxNumber (read : Text → Option Nat) (goals : List Goal) : Nat :=
  goals.foldl (fun current goal => (read goal.id).elim current (max current)) 0

/-- `toLowerCase`, as far as the class `[a-z0-9]` can tell. -/
def lowerCase (char : CodeUnit) : Text :=
  if unit 'A' ≤ char ∧ char ≤ unit 'Z' then [char + 32]
  else if char = 0x130 then [unit 'i', 0x307]
  else if char = 0x212A then [unit 'k']
  else [char]

def isSlugUnit (char : CodeUnit) : Bool :=
  isDigit char || unit 'a' ≤ char && char ≤ unit 'z'

/-- `replace(/[^a-z0-9]+/g, "-")`, inside a match or not. -/
def dashed (inMatch : Bool) : Text → Text
  | [] => []
  | char :: rest =>
    if isSlugUnit char then char :: dashed false rest
    else if inMatch then dashed true rest
    else unit '-' :: dashed true rest

def dropDashesEnd (value : Text) : Text :=
  (value.reverse.dropWhile fun char => char = unit '-').reverse

def slug (title : Text) : Text :=
  dropDashesEnd
    ((dropDashesEnd
      ((dashed false (title.flatMap lowerCase)).dropWhile fun char => char = unit '-')).take 36)

/-- `normalizeGoalId`. -/
def normalizeGoalId (title : Text) (index : Nat) : Text :=
  unit 'G' :: paddedNumber (index + 1) ++
    if slug title = [] then [] else unit '-' :: slug title

/-- `replace(/\s+/g, " ")`, inside a match or not. -/
def singleSpaced (inMatch : Bool) : Text → Text
  | [] => []
  | char :: rest =>
    if !isWhitespace char then char :: singleSpaced false rest
    else if inMatch then singleSpaced true rest
    else unit ' ' :: singleSpaced true rest

def normalizeObjective (value : Text) : Text :=
  trim (singleSpaced false value)

def truncateObjective (objective : Text) : Text :=
  if 80 < objective.length then trimEnd (objective.take 77) ++ text "..." else objective

/-- `seedDefaultSuccessCriteria`. -/
def seedDefaultSuccessCriteria (goalIndex : Nat) (objective : Text) : List SuccessCriterion :=
  let normalized := normalizeObjective objective
  let subject := truncateObjective
    (if normalized = [] then text "Goal " ++ decimalText (goalIndex + 1) else normalized)
  [ { id := text "C001"
      scenario := text "happy path for: " ++ subject
      userModel := .happy
      expectedEvidence :=
        text "Replace via revise_criterion with observable happy-path proof for goal " ++
          decimalText (goalIndex + 1) ++ text "."
      essential := some true
      status := .pending },
    { id := text "C002"
      scenario := text "edge case (boundary/empty/malformed)"
      userModel := .edge
      expectedEvidence :=
        text "Replace via revise_criterion with boundary or malformed-input proof for: " ++
          subject ++ text "."
      essential := some true
      status := .pending },
    { id := text "C003"
      scenario := text "regression: adjacent surface still works"
      userModel := .regression
      expectedEvidence :=
        text "Replace via revise_criterion with regression proof for neighboring behavior after: " ++
          subject ++ text "."
      essential := some false
      status := .pending } ]

/-- A goal that nothing has happened to. -/
def freshGoal (id title objective : Text) (goalIndex : Nat) : Goal where
  id
  title
  objective
  status := .pending
  successCriteria := seedDefaultSuccessCriteria goalIndex objective
  attempt := 0
  steeringStatus := none
  supersededBy := none
  blockerSignature := none
  nonRetriable := false

/-- `makeGoal` of `plan-goal-factory.ts`. -/
def makeGoal (title objective : Text) (index : Nat) : Option Goal :=
  if trim title = [] ∨ trim objective = [] then none
  else some (freshGoal (normalizeGoalId (trim title) index) (trim title) (trim objective) index)

/-- A title and an objective of `deriveGoalCandidates`. -/
structure Candidate where
  title : Text
  objective : Text

/-- `validateBatches`, with the check of `batchFromObject` for the number of members. -/
def batchesValid (goals : List Goal) (batches : List ValidationBatch) : Bool :=
  (batches.map (·.batchId)).Nodup && batches.all (fun batch => 2 ≤ batch.memberIds.length &&
      batch.memberIds.contains batch.finalGoalId &&
      batch.memberIds.all fun id => (goals.map (·.id)).contains id) &&
    (batches.flatMap (·.memberIds)).Nodup

/-- The goals of the candidates from an index on. -/
def makeGoals (index : Nat) : List Candidate → Option (List Goal)
  | [] => some []
  | candidate :: rest => do
      let goal ← makeGoal candidate.title candidate.objective index
      let goals ← makeGoals (index + 1) rest
      return goal :: goals

/-- `createUlwLoopPlan` where no plan is there yet.  A brief has at least one candidate. -/
def createUlwLoopPlan (first : Candidate) (rest : List Candidate)
    (codexGoalMode : Option CodexGoalMode)
    (validationBatches : Option (List ValidationBatch)) : Option Plan := do
  let goals ← makeGoals 0 (first :: rest)
  if batchesValid goals (validationBatches.getD []) then
    return {
      codexGoalMode := some (codexGoalMode.getD .aggregate)
      aggregateCompletion := false
      activeGoalId := none
      validationBatches
      goals }
  else none

end OpenAgent.UlwLoop
