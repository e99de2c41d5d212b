import Mathlib.Data.Int.Log
import Mathlib.Data.Rat.Floor
import Mathlib.Tactic.MkIffOfInductiveProp
import OpenAgent.Library.Execution
import OpenAgent.Library.Json
import OpenAgent.Library.Text

/-!
# The goal of a thread

The operations of the goal store, from the goal that a call reads to the one that it writes.
The reader takes whole numbers only, and the accounting adds whatever usage it is given.
-/

namespace OpenAgent.Goals

open Library

section

variable (value : ℚ)

/-- A quotient to the nearest integer, ties to even. -/
def roundEven : ℤ :=
  let below := ⌊value⌋
  if value - below < 1 / 2 ∨ value - below = 1 / 2 ∧ below % 2 = 0 then below else below + 1

/-- The double nearest to a number.  Numbers beyond the largest double stay as they are: what
becomes infinite is no safe integer either. -/
def toDouble : ℚ :=
  let ulp : ℚ := 2 ^ max (Int.log 2 |value| - 52) (-1074)
  roundEven (value / ulp) * ulp

def isSafeInteger : Prop :=
  value.den = 1 ∧ |value| ≤ 2 ^ 53 - 1

instance : Decidable (isSafeInteger value) :=
  inferInstanceAs (Decidable (_ ∧ _))

abbrev isNonNegativeSafeInteger : Prop :=
  isSafeInteger value ∧ 0 ≤ value

abbrev isPositiveSafeInteger : Prop :=
  isSafeInteger value ∧ 0 < value

/-- `Math.trunc`. -/
def trunc : ℤ :=
  if 0 ≤ value then ⌊value⌋ else ⌈value⌉

end

/-- What `nowSeconds` returns. -/
abbrev Seconds :=
  Fin (2 ^ 53)

instance neZeroSeconds : NeZero (2 ^ 53) :=
  inferInstance

/-- The statuses of a goal. -/
inductive GoalStatus
  | active
  | paused
  | blocked
  | budgetLimited
  | complete
  deriving DecidableEq

inductive GoalAccountingMode
  | activeStatusOnly
  | active
  | activeOrComplete
  | activeOrStopped
  deriving DecidableEq

/-- The stored goal of a thread. -/
structure Goal where
  id : Text
  threadId : Text
  objective : Text
  status : GoalStatus
  tokenBudget : Option ℚ
  tokensUsed : ℚ
  timeUsedSeconds : ℚ
  createdAt : ℚ
  updatedAt : ℚ
  lastStartedAt : Option ℚ
  completedAt : Option ℚ
  deriving DecidableEq

/-- The fields of a usage that are accounted. -/
structure TokenUsageSnapshot where
  input : ℚ
  output : ℚ
  deriving DecidableEq

/-- The budget of an update is left out, `null` or a number. -/
structure GoalUpdate where
  objective : Option Text
  status : Option GoalStatus
  tokenBudget : Option (Option ℚ)
  deriving DecidableEq

/-- The errors of the store. -/
inductive GoalError
  | goalAlreadyExists
  | goalNotFound
  | invalidGoalStore
  | emptyObjective
  | objectiveTooLong (characters : Nat)
  | invalidTokenBudget

/-- `[...value].length`. -/
def countCharacters : Text → Nat
  | [] => 0
  | [_] => 1
  | first :: second :: rest =>
    if isHighSurrogate first && isLowSurrogate second then countCharacters rest + 1
    else countCharacters (second :: rest) + 1

def maxObjectiveLength : Nat := 4000

def validateObjective (value : Text) : Except GoalError Text :=
  let objective := trim value
  if objective.length = 0 then .error .emptyObjective
  else if maxObjectiveLength < countCharacters objective then
    .error (.objectiveTooLong (countCharacters objective))
  else .ok objective

def validateTokenBudget : Option (Option ℚ) → Except GoalError (Option (Option ℚ))
  | some (some value) =>
    if isPositiveSafeInteger value then .ok (some (some value)) else .error .invalidTokenBudget
  | value => .ok value

@[mk_iff] structure isGoal (goal : Goal) : Prop where
  tokenBudget : ∀ budget ∈ goal.tokenBudget, isPositiveSafeInteger budget
  tokensUsed : isNonNegativeSafeInteger goal.tokensUsed
  timeUsedSeconds : isNonNegativeSafeInteger goal.timeUsedSeconds
  createdAt : isNonNegativeSafeInteger goal.createdAt
  updatedAt : isNonNegativeSafeInteger goal.updatedAt
  lastStartedAt : ∀ seconds ∈ goal.lastStartedAt, isNonNegativeSafeInteger seconds
  completedAt : ∀ seconds ∈ goal.completedAt, isNonNegativeSafeInteger seconds

instance (goal : Goal) : Decidable (isGoal goal) :=
  decidable_of_iff _ (isGoal_iff goal).symm

/-- A file that is missing reads like one without a goal. -/
def readGoal : Option Goal → Except GoalError (Option Goal)
  | none => .ok none
  | some goal => if isGoal goal then .ok (some goal) else .error .invalidGoalStore

def statusAfterBudgetLimit (status : GoalStatus) (tokensUsed : ℚ)
    (tokenBudget : Option ℚ) : GoalStatus :=
  if status = .active ∧ ∃ budget ∈ tokenBudget, budget ≤ tokensUsed then .budgetLimited
  else status

def statusAfterBudgetUpdate (currentStatus : GoalStatus) (tokensUsed : ℚ)
    (tokenBudget : Option ℚ) : GoalStatus :=
  if currentStatus = .active then statusAfterBudgetLimit currentStatus tokensUsed tokenBudget
  else currentStatus

def statusAfterExplicitStatusUpdate (currentStatus requestedStatus : GoalStatus) (tokensUsed : ℚ)
    (tokenBudget : Option ℚ) : GoalStatus :=
  if currentStatus = .budgetLimited ∧ (requestedStatus = .paused ∨ requestedStatus = .blocked) then
    .budgetLimited
  else statusAfterBudgetLimit requestedStatus tokensUsed tokenBudget

def statusAfterAccounting (status : GoalStatus) (tokensUsed : ℚ) (tokenBudget : Option ℚ)
    (mode : GoalAccountingMode) : GoalStatus :=
  if ∀ budget ∈ tokenBudget, tokensUsed < budget then status
  else
    match mode with
    | .activeStatusOnly | .active | .activeOrComplete =>
      if status = .active then .budgetLimited else status
    | .activeOrStopped =>
      if status = .active ∨ status = .paused ∨ status = .budgetLimited then .budgetLimited
      else status

def canAccountGoalUsage (goal : Goal) : GoalAccountingMode → Prop
  | .activeStatusOnly => goal.status = .active
  | .active => goal.status = .active ∨ goal.status = .budgetLimited
  | .activeOrComplete =>
    goal.status = .active ∨ goal.status = .budgetLimited ∨ goal.status = .complete
  | .activeOrStopped =>
    goal.status = .active ∨ goal.status = .paused ∨ goal.status = .budgetLimited

instance (goal : Goal) : ∀ mode, Decidable (canAccountGoalUsage goal mode) := by
  intro mode
  unfold canAccountGoalUsage
  split <;> infer_instance

def goalTokenDeltaForUsage (usage : TokenUsageSnapshot) : ℚ :=
  toDouble (max 0 usage.input + max 0 usage.output)

variable (threadId : Text) (file : Option Goal)

def createGoal (objective : Text) (tokenBudget : Option ℚ) (now : Seconds) (uuid : Text) :
    Except GoalError Goal := do
  let current ← readGoal file
  if ∃ goal ∈ current, goal.status ≠ .complete then .error .goalAlreadyExists
  else
    let normalizedObjective ← validateObjective objective
    let _ ← validateTokenBudget (tokenBudget.map some)
    .ok {
      id := uuid
      threadId := threadId
      objective := normalizedObjective
      status := .active
      tokenBudget := tokenBudget
      tokensUsed := 0
      timeUsedSeconds := 0
      createdAt := now.val
      updatedAt := now.val
      lastStartedAt := some now.val
      completedAt := none }

/-- The goal that takes the place of the current one. -/
def replacement (objective : Text) (requestedStatus : Option GoalStatus) (tokenBudget : Option ℚ)
    (now : Seconds) (uuid : Text) : Goal :=
  let status := statusAfterBudgetLimit (requestedStatus.getD .active) 0 tokenBudget
  { id := uuid
    threadId := threadId
    objective := objective
    status := status
    tokenBudget := tokenBudget
    tokensUsed := 0
    timeUsedSeconds := 0
    createdAt := now.val
    updatedAt := now.val
    lastStartedAt := if status = .active then some now.val else none
    completedAt := if status = .complete then some now.val else none }

def revisedStatus (current : Goal) (requestedStatus : Option GoalStatus)
    (tokenBudget : Option ℚ) : GoalStatus :=
  match requestedStatus with
  | none => statusAfterBudgetUpdate current.status current.tokensUsed tokenBudget
  | some requested =>
    statusAfterExplicitStatusUpdate current.status requested current.tokensUsed tokenBudget

/-- The current goal with the changes of an update. -/
def revision (current : Goal) (objective : Text) (requestedStatus : Option GoalStatus)
    (tokenBudget : Option (Option ℚ)) (now : Seconds) : Goal :=
  let nextTokenBudget := tokenBudget.getD current.tokenBudget
  let status := revisedStatus current requestedStatus nextTokenBudget
  { current with
    objective := objective
    status := status
    updatedAt := now.val
    tokenBudget := nextTokenBudget
    lastStartedAt :=
      if status = .active ∧ current.status ≠ .active then some now.val
      else if status ≠ .active then none
      else current.lastStartedAt
    completedAt := if status = .complete then some (current.completedAt.getD now.val) else none }

/-- The objective that an update asks for. -/
def nextObjective (current : Goal) (update : GoalUpdate) : Except GoalError Text :=
  match update.objective with
  | none => .ok current.objective
  | some objective => validateObjective objective

def updateGoal (update : GoalUpdate) (now : Seconds) (uuid : Text) : Except GoalError Goal := do
  match ← readGoal file with
  | none => .error .goalNotFound
  | some current =>
    let tokenBudget ← validateTokenBudget update.tokenBudget
    let objective ← nextObjective current update
    let requestedStatus := update.status <|> update.objective.map fun _ => .active
    if update.objective.isSome ∧ (objective ≠ current.objective ∨ current.status = .complete) then
      .ok (replacement threadId objective requestedStatus tokenBudget.join now uuid)
    else .ok (revision current objective requestedStatus tokenBudget now)

/-- The goal that an accounting writes. -/
def accounted (goal : Goal) (usage : TokenUsageSnapshot) (elapsedSeconds : ℚ)
    (mode : GoalAccountingMode) (now : Seconds) : Goal :=
  let tokensUsed := toDouble (goal.tokensUsed + goalTokenDeltaForUsage usage)
  let status := statusAfterAccounting goal.status tokensUsed goal.tokenBudget mode
  { goal with
    tokensUsed := tokensUsed
    timeUsedSeconds := toDouble (goal.timeUsedSeconds + max 0 (trunc elapsedSeconds : ℚ))
    updatedAt := now.val
    status := status
    lastStartedAt := if status = .budgetLimited then none else goal.lastStartedAt }

/-- An accounting counts for a goal. -/
def CountsFor (mode : GoalAccountingMode) (expectedGoalId : Option Text) (goal : Goal) : Prop :=
  (∀ id ∈ expectedGoalId, goal.id = id) ∧ canAccountGoalUsage goal mode
  deriving Decidable

/-- A call on the store. -/
inductive GoalCall
  | createGoal (objective : Text) (tokenBudget : Option ℚ) (now : Seconds) (uuid : Text)
  | updateGoal (update : GoalUpdate) (now : Seconds) (uuid : Text)
  | clearGoal
  | accountGoalUsage
    (usage : TokenUsageSnapshot)
    (elapsedSeconds : ℚ)
    (mode : GoalAccountingMode)
    (expectedGoalId : Option Text)
    (now : Seconds)
  deriving DecidableEq

/-- The goal that a call writes over the file that it reads, when it comes to its write. -/
def GoalCall.writes : GoalCall → Except GoalError (Option (Option Goal))
  | .createGoal objective tokenBudget now uuid =>
    (Goals.createGoal threadId file objective tokenBudget now uuid).map (some ∘ some)
  | .updateGoal update now uuid =>
    (Goals.updateGoal threadId file update now uuid).map (some ∘ some)
  | .clearGoal => (readGoal file).map fun _ => some none
  | .accountGoalUsage usage elapsedSeconds mode expectedGoalId now =>
    (readGoal file).map fun goal => (goal.filter (CountsFor mode expectedGoalId ·)).map fun goal =>
      some (accounted goal usage elapsedSeconds mode now)

end OpenAgent.Goals
