import OpenAgent.Dag.OwnedTasks

/-!
# Amending a run

`amendRun` of `dag/manager.ts`.  Nodes that the new definition changes, and
those that depend on changed or added ones, go back to pending with a further
attempt; an added node is compiled afresh.
-/

namespace OpenAgent.Dag

open Library

/-- The inputs of `amendRun` with what its helpers return. -/
structure AmendRequest where
  definition : DagDefinition
  parentSessionId : String
  settings : DagSettings
  effectivePrompts : DagNodeId → Option String
  materializedDiagnostics : List DagDiagnostic
  atTime : String

/-- The codes of `DagManagerErrorCode` that an amendment of a known run raises. -/
inductive AmendError
  | runNotOwned
  | invalidAmendment
  | amendRunningNode
  | runStillActive

/-- The loop of `transitiveDependents`; the fuel bounds the ids it takes up. -/
def followAll (next : DagNodeId → List DagNodeId) :
    Nat → List DagNodeId → List DagNodeId → List DagNodeId
  | 0, _, visited => visited
  | _ + 1, [], visited => visited
  | fuel + 1, id :: queue, visited =>
    if id ∈ visited then followAll next fuel queue visited
    else followAll next fuel (queue ++ next id) (visited ++ [id])

/-- `transitiveDependents`; every edge is followed once. -/
def transitiveDependents (edges : List DagEdge) (seeds : List DagNodeId) : List DagNodeId :=
  followAll (dependentsOf edges) (seeds.length + edges.length) seeds []

/-- The node that an amendment puts back to pending. -/
def invalidatedNode (compiled old : DagNode) : DagNode :=
  { old with
    error := none
    resultArtifact := none
    runStats := none
    completedAt := none
    startedAt := none
    prompt := compiled.prompt
    route := compiled.route
    dependsOn := compiled.dependsOn
    state := .pending
    execAttempt := some (old.execAttempt.getD 0 + 1) }

/-- A node of the amended run. -/
def amendedNode (record : DagRunRecordV1) (invalidatedIds : List DagNodeId)
    (compiled : DagNode) : DagNode :=
  match record.nodes.reverse.find? (·.id == compiled.id) with
  | none => compiled
  | some old => if compiled.id ∈ invalidatedIds then invalidatedNode compiled old else old

/-- `materializeAmendedDefinition`. -/
def materializeAmendedDefinition (record : DagRunRecordV1)
    (request : AmendRequest) : DagPersistedDefinition where
  key := request.definition.key
  name := request.definition.name
  nodes := request.definition.nodes.map fun node =>
    { input := node
      effectivePrompt :=
        ((request.effectivePrompts node.id).orElse fun _ =>
          (record.definition.nodes.reverse.find? (·.input.id == node.id)).map
            (·.effectivePrompt)).getD node.prompt }

/-- The comparison of the two definitions. -/
def amendmentDiff (sha256 : List Char → String) (record : DagRunRecordV1)
    (request : AmendRequest) : NodeFingerprintDiff :=
  diffNodeFingerprints sha256 (record.definition.nodes.map (·.input)) request.definition.nodes

/-- The event of an amendment. -/
def amendmentOf (sha256 : List Char → String) (record : DagRunRecordV1) (request : AmendRequest)
    (compiled : DagCompileResult) : DagDefinitionAmendment :=
  let diff := amendmentDiff sha256 record request
  let rematerializedIds := diff.changedIds ++ diff.addedIds
  let invalidatedIds :=
    (transitiveDependents compiled.edges rematerializedIds).filter (· ∉ diff.addedIds)
  { previousFingerprint := record.definitionFingerprint
    fingerprint := fingerprintDefinition sha256 request.definition
    changedNodeIds := diff.changedIds
    addedNodeIds := diff.addedIds
    invalidatedNodeIds := invalidatedIds
    definition := materializeAmendedDefinition record request
    nodes := compiled.nodes.map (amendedNode record invalidatedIds)
    edges := compiled.edges
    waves := compiled.waves
    criticalPath := compiled.criticalPath
    bottlenecks := compiled.bottlenecks
    diagnostics :=
      if rematerializedIds.isEmpty then record.diagnostics
      else record.diagnostics ++ request.materializedDiagnostics }

/-- `amendRun`, with the error it throws. -/
def amendRun (env : SchedulerEnv) (sha256 : List Char → String) (run : StoredRun)
    (request : AmendRequest) : StoredRun × Option AmendError :=
  let record := run.record
  let compiled := compileDag request.definition request.settings request.atTime
  let diff := amendmentDiff sha256 record request
  let unsafeIds := (diff.changedIds ++ diff.removedIds).filter fun id =>
    ((nodeById record id).map (·.state.isActive)).getD false
  if record.parentSessionId ≠ request.parentSessionId then (run, some .runNotOwned)
  else if record.status = .paused ∧ liveLeaseHolder env.isAlive record then
    (run, some .invalidAmendment)
  else if compiled.ok = false then (run, some .invalidAmendment)
  else if request.definition.key ≠ record.runKey then (run, some .invalidAmendment)
  else if unsafeIds ≠ [] then (run, some .amendRunningNode)
  else if record.status = .running then (run, some .runStillActive)
  else
    let amended := run.commitMutation env
      (.definitionAmended (amendmentOf sha256 record request compiled))
    (amended,
      if amended.record.definitionFingerprint =
          fingerprintDefinition sha256 request.definition then none
      else some .runStillActive)

end OpenAgent.Dag
