import OpenAgent.UlwLoop.Plan

/-!
# Steering a ulw-loop

`validateUlwLoopSteeringProposal` and `applySteeringMutation` of `steering.ts`, with
`steering-mutations.ts`.  The two read the target and the children of a proposal in ways of their
own.
-/

namespace OpenAgent.UlwLoop

open Library

/-- `UlwLoopSteeringMutationKind`. -/
inductive MutationKind
  | addSubgoal
  | splitSubgoal
  | reorderPending
  | revisePendingWording
  | reviseCriterion
  | annotateLedger
  | markBlockedSuperseded
  deriving DecidableEq

def MutationKind.name : MutationKind → Text
  | addSubgoal => text "add_subgoal"
  | splitSubgoal => text "split_subgoal"
  | reorderPending => text "reorder_pending"
  | revisePendingWording => text "revise_pending_wording"
  | reviseCriterion => text "revise_criterion"
  | annotateLedger => text "annotate_ledger"
  | markBlockedSuperseded => text "mark_blocked_superseded"

/-- `UlwLoopSteeringAfterPayload`. -/
structure AfterPayload where
  title : Option Text
  objective : Option Text
  pendingGoalIds : Option (List Text)
  children : Option (List Candidate)

/-- `UlwLoopSteeringProposal`, with the fields that the command line adds.  Of its keys and its
wording it says what `hasProtected` and `weakens` answer. -/
structure SteeringProposal where
  kind : MutationKind
  evidence : Text
  rationale : Text
  targetGoalId : Option Text
  targetGoalIds : Option (List Text)
  goalId : Option Text
  criterionId : Option Text
  title : Option Text
  objective : Option Text
  childGoals : Option (List Candidate)
  revisedTitle : Option Text
  revisedObjective : Option Text
  pendingOrder : Option (List Text)
  after : Option AfterPayload
  scenario : Option Text
  expectedEvidence : Option Text
  userModel : Option UserModel
  promptSignature : Option Text
  idempotencyKey : Option Text
  hasProtected : Bool
  weakens : Bool

/-- `text`: a field that is not blank, trimmed. -/
def filled (field : Option Text) : Option Text :=
  (field.map trim).filter fun value => value ≠ []

/-- `child`. -/
def filledChild (child : Candidate) : Option Candidate := do
  let title ← filled (some child.title)
  let objective ← filled (some child.objective)
  return { title, objective }

namespace SteeringProposal

variable (proposal : SteeringProposal)

/-- `targets` of `steering.ts`. -/
def targets : List Text :=
  match proposal.targetGoalIds.getD [] with
  | [] => ((filled proposal.targetGoalId).or (filled proposal.goalId)).toList
  | many => many

/-- `targets` of `steering-mutations.ts`. -/
def mutationTargets : List Text :=
  proposal.targetGoalIds.getD
    ([(proposal.targetGoalId.or (filled proposal.goalId)).getD []].filter fun id => id ≠ [])

/-- `childValues`. -/
def childValues : List Candidate :=
  match proposal.childGoals.getD [] with
  | [] => (proposal.after.bind (·.children)).getD []
  | direct => direct

/-- `children` of `steering-mutations.ts`. -/
def children (proposal : SteeringProposal) : List Candidate :=
  match proposal.childGoals.getD [] with
  | [] => ((proposal.after.bind (·.children)).getD []).filterMap filledChild
  | direct => direct

def newTitle : Option Text :=
  (filled proposal.revisedTitle).or
    (filled (match proposal.after with | some after => after.title | none => proposal.title))

def newObjective : Option Text :=
  (filled proposal.revisedObjective).or
    (filled (match proposal.after with
      | some after => after.objective
      | none => proposal.objective))

def order : List Text :=
  match proposal.pendingOrder.getD [] with
  | [] => (proposal.after.bind (·.pendingGoalIds)).getD []
  | direct => direct

end SteeringProposal

namespace Plan

/-- The messages of the checks that fail. -/
def reasons (checks : List (Bool × Text)) : List Text :=
  (checks.filter (·.1)).map (·.2)

variable (plan : Plan) (proposal : SteeringProposal)

/-- `validateOrder`. -/
def validateOrder : List Text :=
  let pending := (plan.goals.filter fun goal =>
    goal.status = .pending && goal.steeringStatus = none).map (·.id)
  reasons
    [ (proposal.order.isEmpty, text "reorder_pending requires ids"),
      (¬ proposal.order.Nodup, text "duplicate pending id"),
      (proposal.order.any fun id => !pending.contains id, text "unknown pending id") ]

/-- `validateCriterion`. -/
def validateCriterion : List Text :=
  let target := proposal.targets.head?.bind plan.findGoal
  reasons
    [ (target = none, text "revise_criterion requires goalId"),
      (target.any fun goal => (filled proposal.criterionId).all fun criterionId =>
        goal.successCriteria.all fun criterion => criterion.id ≠ criterionId,
        text "revise_criterion requires criterionId"),
      (proposal.scenario = none && proposal.expectedEvidence = none && proposal.userModel = none,
        text "revise_criterion requires update") ]

/-- `validateKind`. -/
def validateKind : List Text :=
  let target := proposal.targets.head?.bind plan.findGoal
  let name := proposal.kind.name
  let noTarget : Bool × Text := (target = none, name ++ text " requires target")
  let notPending : Bool × Text := (target.any fun goal => goal.status ≠ .pending,
    name ++ text " requires pending target")
  let badChildren : Bool × Text := (proposal.childValues.any fun child => filledChild child = none,
    name ++ text " children require title/objective")
  match proposal.kind with
  | .addSubgoal => reasons [(filled proposal.title = none || filled proposal.objective = none,
        text "add_subgoal requires title/objective")]
  | .splitSubgoal => reasons [ noTarget, notPending,
        (proposal.childValues.isEmpty, text "split_subgoal requires children"), badChildren ]
  | .reorderPending => plan.validateOrder proposal
  | .revisePendingWording => reasons [ noTarget, notPending,
        (proposal.newTitle = none && proposal.newObjective = none,
        text "revise_pending_wording requires update") ]
  | .reviseCriterion => plan.validateCriterion proposal
  | .annotateLedger => []
  | .markBlockedSuperseded => reasons [noTarget, badChildren]

/-- The reasons of `validateUlwLoopSteeringProposal` against a proposal. -/
def validateSteering : List Text :=
  reasons
    [ (filled (some proposal.evidence) = none, text "missing evidence"),
      (filled (some proposal.rationale) = none, text "missing rationale"),
      (proposal.hasProtected, text "protected payload"),
      (proposal.weakens, text "weakened completion"),
      (plan.isUlwLoopDone, text "plan already complete") ] ++
  plan.validateKind proposal

/-- `makeGoal` of `steering-mutations.ts`. -/
def makeChild (child : Candidate) (offset : Nat) : Goal :=
  let number := maxNumber goalNumber plan.goals + offset
  freshGoal (unit 'G' :: paddedNumber number) child.title child.objective (number - 1)

/-- The goals that replace a target. -/
def makeChildren (children : List Candidate) : List Goal :=
  children.mapIdx fun index child => plan.makeChild child (index + 1)

/-- The end of `activeGoalId` if it is this one. -/
def deactivate (id : Text) : Plan :=
  if plan.activeGoalId = some id then { plan with activeGoalId := none } else plan

def reorder (order : List Text) : Plan :=
  { plan with
    goals := order.filterMap plan.findGoal ++
      plan.goals.filter fun goal => !order.contains goal.id }

/-- `reviseWording`. -/
def reviseWording : Plan :=
  match proposal.mutationTargets.head?.bind plan.findGoal with
  | none => plan
  | some target => plan.updateGoal target.id fun goal =>
    { goal with
      title := proposal.newTitle.getD goal.title
      objective := proposal.newObjective.getD goal.objective }

/-- A target with its replacements behind it. -/
def supersede (targetId : Text) (replacements : List Goal) : Plan :=
  { plan with
    goals := spliceGoals targetId (fun goal =>
      { goal with
        steeringStatus := some .superseded
        supersededBy := some (replacements.map fun replacement => replacement.id) })
      replacements plan.goals }

/-- `splitOrBlock`. -/
def splitOrBlock : Plan :=
  match proposal.mutationTargets.head?.bind plan.findGoal with
  | none => plan
  | some target =>
    match plan.makeChildren proposal.children with
    | [] =>
      (plan.updateGoal target.id fun goal =>
        { goal with status := .blocked, steeringStatus := some .blocked }).deactivate target.id
    | replacements =>
      ((plan.supersede target.id replacements).updateBatchesAfterSupersede target.id
        (replacements.map (·.id))).deactivate target.id

/-- `item.id === proposal.criterionId` with the first such criterion replaced. -/
def updateCriteria (id : Text) (change : SuccessCriterion → SuccessCriterion) :
    List SuccessCriterion → List SuccessCriterion
  | [] => []
  | criterion :: rest =>
    if criterion.id = id then change criterion :: rest
    else criterion :: updateCriteria id change rest

/-- `reviseCriterion`. -/
def reviseCriterion : Plan :=
  match proposal.mutationTargets.head?.bind plan.findGoal, proposal.criterionId with
  | some target, some criterionId => plan.updateGoal target.id fun goal =>
    { goal with
      successCriteria := updateCriteria criterionId (fun criterion =>
        { criterion with
          scenario := (filled proposal.scenario).getD criterion.scenario
          expectedEvidence :=
            (filled proposal.expectedEvidence).getD criterion.expectedEvidence
          userModel := proposal.userModel.getD criterion.userModel }) goal.successCriteria }
  | _, _ => plan

/-- `applySteeringMutation` for a proposal that is accepted. -/
def applySteeringMutation : Plan :=
  match proposal.kind with
  | .addSubgoal =>
    { plan with
      goals := plan.goals ++ [plan.makeChild
        { title := proposal.title.getD [], objective := proposal.objective.getD [] } 1] }
  | .reorderPending => plan.reorder proposal.order
  | .revisePendingWording => plan.reviseWording proposal
  | .splitSubgoal | .markBlockedSuperseded => plan.splitOrBlock proposal
  | .reviseCriterion => plan.reviseCriterion proposal
  | .annotateLedger => plan

end Plan

end OpenAgent.UlwLoop
