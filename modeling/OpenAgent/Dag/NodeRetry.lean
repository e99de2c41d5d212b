import OpenAgent.Dag.Amendment

/-!
# Retrying nodes

`retryDagNodes` of `dag/node-retry.ts`: the nodes it accepts, their further
attempts, the skipped nodes it hands back, and the re-entry of the run.
-/

namespace OpenAgent.Dag

open Library

/-- The inputs of `retryDagNodes`; the last three fields are those of the
amendment behind a prompt override. -/
structure RetryRequest where
  nodeIds : Option (List DagNodeId)
  prompt : Option String
  hostPid : Nat
  effectivePrompts : DagNodeId → Option String
  materializedDiagnostics : List DagDiagnostic
  atTime : String

/-- The codes of `DagNodeControlErrorCode` that a retry of a known run raises. -/
inductive RetryError
  | runNotOwned
  | runStillActive
  | invalidArguments
  | nodeNotFound
  | nodeNotRetryable

/-- Membership in `RETRYABLE_NODE_STATES`. -/
def isRetryable : DagNodeState → Bool
  | .failed | .cancelled | .skipped => true
  | _ => false

/-- The selected ids and the nodes restored so far. -/
structure SkippedDependents where
  selected : List DagNodeId
  restored : List DagNode

/-- One node of the loop of `skippedDependentsOf`. -/
def selectSkipped (found : SkippedDependents) (node : DagNode) : SkippedDependents :=
  if node.state ≠ .skipped ∨ node.id ∈ found.selected then found
  else if node.dependsOn.all (· ∉ found.selected) then found
  else
    { selected := found.selected ++ [node.id]
      restored := found.restored ++ [node] }

/-- The `while (changed)` loop of `skippedDependentsOf`. -/
def selectAllSkipped (nodes : List DagNode) : Nat → SkippedDependents → SkippedDependents
  | 0, found => found
  | fuel + 1, found =>
    let next := nodes.foldl selectSkipped found
    if next.restored.length = found.restored.length then next
    else selectAllSkipped nodes fuel next

section

variable (record : DagRunRecordV1)

/-- `skippedDependentsOf`.  Every pass but the last restores a node. -/
def skippedDependentsOf (seeds : List DagNodeId) : List DagNode :=
  (selectAllSkipped record.nodes (record.nodes.length + 1)
    { selected := seeds, restored := [] }).restored

/-- `defaultRetryTargets`. -/
def defaultRetryTargets : List DagNodeId :=
  let seeds := (record.nodes.filter fun node =>
    node.state == .failed || node.state == .cancelled).map (·.id)
  seeds ++ (skippedDependentsOf record seeds).map (·.id)

/-- The loop of `blockingAncestors`; the fuel bounds the ids it takes up. -/
def collectBlocking (record : DagRunRecordV1) :
    Nat → List DagNodeId → List DagNodeId → List DagNodeId → List DagNodeId
  | 0, _, _, blocking => blocking
  | _ + 1, [], _, blocking => blocking
  | fuel + 1, id :: queue, seen, blocking =>
    if id ∈ seen then collectBlocking record fuel queue seen blocking
    else
      match nodeById record id with
      | none => collectBlocking record fuel queue (seen ++ [id]) blocking
      | some ancestor =>
        collectBlocking record fuel
          (if ancestor.state = .skipped then queue ++ ancestor.dependsOn else queue)
          (seen ++ [id])
          (if ancestor.state = .failed ∨ ancestor.state = .cancelled then
            setInsert blocking id
          else blocking)

/-- `blockingAncestors`. -/
def blockingAncestors (node : DagNode) : List DagNodeId :=
  collectBlocking record
    (node.dependsOn.length + (record.nodes.map (·.dependsOn.length)).sum)
    node.dependsOn [node.id] []

/-- The refusal of one target. -/
def refusedTarget (targets : List DagNodeId) (nodeId : DagNodeId) : Option RetryError :=
  match nodeById record nodeId with
  | none => some .nodeNotFound
  | some node =>
    if !isRetryable node.state then some .nodeNotRetryable
    else if node.state = .skipped ∧ ∃ id ∈ blockingAncestors record node, id ∉ targets then
      some .nodeNotRetryable
    else none

/-- `assertRetryable`. -/
def assertRetryable (targets : List DagNodeId) : Option RetryError :=
  targets.findSome? (refusedTarget record targets)

section

variable (env : SchedulerEnv)

/-- A further attempt of one node. -/
def retryTarget (promptChanged : Bool) (run : StoredRun) (nodeId : DagNodeId) : StoredRun :=
  match nodeById run.record nodeId with
  | none => run
  | some node =>
    run.commit env .empty
      (.nodeRetried nodeId node.taskId (node.execAttempt.getD 0 + 1) promptChanged)

/-- A skipped node is blocked again. -/
def restoreSkipped (run : StoredRun) (node : DagNode) : StoredRun :=
  run.commit env .empty (.nodeTransitioned node.id .skipped .blocked .retried)

/-- The commit of `reenterDagRun`. -/
def reenterDagRun (run : StoredRun) : StoredRun :=
  if run.record.status.isTerminal then
    run.commit env .empty (.runResumed (run.record.generation + 1))
  else run

/-- The commits of a retry. -/
def retryTargets (promptChanged : Bool) (run : StoredRun) (targets : List DagNodeId) : StoredRun :=
  let retried := targets.foldl (retryTarget env promptChanged) run
  let restored := (skippedDependentsOf retried.record targets).foldl (restoreSkipped env) retried
  reenterDagRun env restored

end

/-- The amendment of `amendRetryPrompt`: one node has another prompt. -/
def promptAmendment (request : RetryRequest) (nodeId : DagNodeId) (prompt : String) :
    AmendRequest where
  definition :=
    { key := record.definition.key
      name := record.definition.name
      nodes := record.definition.nodes.map fun node =>
        if node.input.id = nodeId then { node.input with prompt := prompt } else node.input }
  parentSessionId := record.parentSessionId
  settings := dagSettingsDefaults
  effectivePrompts := request.effectivePrompts
  materializedDiagnostics := request.materializedDiagnostics
  atTime := request.atTime

end

/-- A lease held by another live process. -/
def leasedElsewhere (isAlive : Nat → Bool) (hostPid : Nat) (record : DagRunRecordV1) : Bool :=
  match record.leaseHolderPid with
  | none => false
  | some pid => pid != hostPid && isAlive pid

/-- `retryDagNodes`, with the error it throws. -/
def retryDagNodes (env : SchedulerEnv) (sha256 : List Char → String) (run : StoredRun)
    (request : RetryRequest) : StoredRun × Option RetryError :=
  let record := run.record
  let targets := request.nodeIds.getD (defaultRetryTargets record)
  if leasedElsewhere env.isAlive request.hostPid record then (run, some .runNotOwned)
  else if record.status = .running ∨ record.status = .pending then (run, some .runStillActive)
  else if request.prompt.isSome ∧ (request.nodeIds.map List.length) ≠ some 1 then
    (run, some .invalidArguments)
  else
    match targets with
    | [] => (run, some .nodeNotRetryable)
    | first :: _ =>
      match assertRetryable record targets with
      | some refusal => (run, some refusal)
      | none =>
        match request.prompt with
        | none => (retryTargets env false run targets, none)
        | some prompt =>
          let amended :=
            (amendRun env sha256 run (promptAmendment record request first prompt)).1
          if amended.record.definitionFingerprint = record.definitionFingerprint then
            (amended, some .invalidArguments)
          else (retryTargets env true amended targets, none)

end OpenAgent.Dag
