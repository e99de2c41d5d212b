import OpenAgent.Dag.Types
import OpenAgent.Library.Json

/-!
# The three reducers of the run journal

`applyDagRunMutation` of the manager, `applyDagSchedulerEvent` of the
scheduler and `applyRecoveryEvent` of recovery, with the side tables and the
result files that the last two read and write.
-/

namespace OpenAgent.Dag

open Library

/-- Replace the nodes with a given id. -/
def updateNodes (record : DagRunRecordV1) (nodeId : DagNodeId)
    (change : DagNode → DagNode) : DagRunRecordV1 :=
  { record with nodes := record.nodes.map fun node =>
      if node.id = nodeId then change node else node }

/-- `clearedTerminalOutcome`. -/
def clearedTerminalOutcome (node : DagNode) : DagNode :=
  { node with
    error := none
    completedAt := none
    runStats := none
    resultArtifact := none }

/-- `transitionedNode`. -/
def transitionedNode (node : DagNode) (state : DagNodeState) (atTime : String)
    (error : Option DagNodeError) : DagNode :=
  let base :=
    if state = .running ∧ node.state.isTerminal then clearedTerminalOutcome node
    else node
  { base with
    state := state
    startedAt :=
      if state = .running ∧ node.startedAt.isNone then some atTime else base.startedAt
    completedAt := if state.isTerminal then some atTime else base.completedAt
    error := error.orElse fun _ => base.error }

/-- The node that `dag.node.retried` leaves behind. -/
def retriedNode (execAttempt : Nat) (node : DagNode) : DagNode :=
  { node with
    error := none
    resultArtifact := none
    runStats := none
    completedAt := none
    startedAt := none
    state := .pending
    execAttempt := some execAttempt }

variable (isAlive : Nat → Bool)

section

variable (record : DagRunRecordV1)

/-- `liveLeaseHolder`; `isAlive` is the signal-0 probe. -/
def liveLeaseHolder : Bool :=
  match record.leaseHolderPid.orElse fun _ => record.previousLeaseHolderPid with
  | some pid => isAlive pid
  | none => false

/-- The guards under which `applyDagRunMutation` leaves the record alone. -/
def refusesAmendment (amendment : DagDefinitionAmendment) : Bool :=
  let removed := (record.nodes.filter fun node =>
    !(amendment.nodes.map (·.id)).contains node.id).map (·.id)
  let unsafeIds := (amendment.changedNodeIds ++ removed).filter fun id =>
    ((nodeById record id).map (·.state.isActive)).getD false
  record.definitionFingerprint != amendment.previousFingerprint ||
    !unsafeIds.isEmpty ||
    record.status == .running ||
    (record.status == .paused && liveLeaseHolder isAlive record)

/-- The record with an amendment in place. -/
def amendedRecord (amendment : DagDefinitionAmendment) (atTime : String) : DagRunRecordV1 :=
  { record with
    name := amendment.definition.name
    definition := amendment.definition
    definitionFingerprint := amendment.fingerprint
    nodes := amendment.nodes
    edges := amendment.edges
    waves := amendment.waves
    criticalPath := amendment.criticalPath
    bottlenecks := amendment.bottlenecks
    diagnostics := amendment.diagnostics
    amendHistory := some (record.amendHistory.getD [] ++
      [{ atTime := atTime
         previousFingerprint := amendment.previousFingerprint
         fingerprint := amendment.fingerprint
         changedNodeIds := amendment.changedNodeIds
         addedNodeIds := amendment.addedNodeIds
         invalidatedNodeIds := amendment.invalidatedNodeIds }])
    updatedAt := atTime }

/-- `applyDagRunMutation`. -/
def applyDagRunMutation (event : DagRunEvent) : DagRunRecordV1 :=
  match event.payload with
  | .runCreated _ _ _ _ _ => { record with updatedAt := event.atTime }
  | .nodeRetried nodeId _ execAttempt _ =>
    { updateNodes record nodeId (retriedNode execAttempt) with
      updatedAt := event.atTime }
  | .definitionAmended amendment =>
    if refusesAmendment isAlive record amendment then record
    else amendedRecord record amendment event.atTime
  | _ => record

/-- `applyRunEvent`. -/
def applyRunEvent (event : DagRunEvent) : DagRunRecordV1 :=
  applyDagRunMutation isAlive record event

/-- `skipDuplicateTerminalTransition`. -/
def skipDuplicateTerminalTransition (payload : DagRunEventPayload) : Bool :=
  match payload with
  | .nodeTransitioned nodeId _ target _ =>
    target.isTerminal &&
      record.nodes.any fun node => node.id == nodeId && node.state == target
  | _ => false

/-- `StatsSidecar`. -/
structure StatsSidecar where
  runId : DagRunId
  nodeId : DagNodeId
  runStats : TaskRunStats

/-- `JSON.stringify` of a sidecar. -/
def StatsSidecar.text (sidecar : StatsSidecar) : String :=
  "\x7b\"schemaVersion\":1,\"runId\":" ++ String.ofList (quote (unitsOf sidecar.runId)) ++
    ",\"nodeId\":" ++ String.ofList (quote (unitsOf sidecar.nodeId)) ++
    ",\"runStats\":" ++ sidecar.runStats.json ++ "\x7d"

/-- The result files of one run: the output text and the statistics sidecar
of each node. -/
structure ResultFiles where
  output : DagNodeId → Option String
  stats : DagNodeId → Option StatsSidecar

/-- How a copy of a result fails: the message of the error, and whether the
output was already in place. -/
structure PersistFailure where
  message : String
  outputWritten : Bool

/-- The hash, the state directory and the faults of the file system. -/
structure ResultStore where
  sha256 : String → String
  stateDir : String
  failure : DagNodeId → Option PersistFailure

/-- The path of an output copy, relative to the state directory. -/
def outputPath (runId : DagRunId) (nodeId : DagNodeId) : String :=
  "dag/results/" ++ runId ++ "/" ++ nodeId ++ ".txt"

/-- `statsPath`. -/
def statsPath (runId : DagRunId) (nodeId : DagNodeId) : String :=
  "dag/results/" ++ runId ++ "/" ++ nodeId ++ ".stats.json"

section

variable (store : ResultStore)

/-- `artifactRef`. -/
def ResultStore.artifactRef (path contents : String) : DagResultArtifactRef where
  relativePath := path
  sha256 := store.sha256 contents
  bytes := contents.utf8ByteSize

/-- The outcome of `persistDagNodeResult`. -/
inductive PersistOutcome
  | persisted (artifact : DagNodeResultArtifact)
  | failed (diagnostic : DagDiagnostic)

/-- The files with the output copy of a node in place. -/
def writeOutput (files : ResultFiles) (nodeId : DagNodeId) (task : TaskRecord) : ResultFiles :=
  { files with output := fun id =>
      if id = nodeId then some (task.finalResponse.getD "") else files.output id }

/-- `writeStatsSidecar`: a record without statistics leaves an older sidecar
in place. -/
def writeStatsSidecar (files : ResultFiles) (runId : DagRunId) (nodeId : DagNodeId)
    (task : TaskRecord) : ResultFiles :=
  match task.runStats with
  | none => files
  | some runStats =>
    { files with stats := fun id =>
        if id = nodeId then some ⟨runId, nodeId, runStats⟩ else files.stats id }

/-- The artifact of a copied result. -/
def persistedArtifact (runId : DagRunId) (nodeId : DagNodeId) (task : TaskRecord) :
    DagNodeResultArtifact where
  output := store.artifactRef (outputPath runId nodeId) (task.finalResponse.getD "")
  stats := task.runStats.map fun runStats =>
    store.artifactRef (statsPath runId nodeId)
      (StatsSidecar.text { runId := runId, nodeId := nodeId, runStats := runStats })

/-- `persistDagNodeResult`. -/
def persistDagNodeResult (files : ResultFiles) (runId : DagRunId) (nodeId : DagNodeId)
    (task : TaskRecord) (atTime : String) : PersistOutcome × ResultFiles :=
  match store.failure nodeId with
  | some failure =>
    (.failed (.journalCorrupt (some runId) (store.stateDir ++ "/" ++ outputPath runId nodeId)
      ("failed to persist dag node result for \"" ++ nodeId ++ "\": " ++ failure.message) atTime),
      if failure.outputWritten then writeOutput files nodeId task else files)
  | none =>
    (.persisted (persistedArtifact store runId nodeId task),
      writeStatsSidecar (writeOutput files nodeId task) runId nodeId task)

/-- `replayDagNodeResult`. -/
def replayDagNodeResult (files : ResultFiles) (runId : DagRunId) (nodeId : DagNodeId) :
    Option (DagNodeResultArtifact × Option TaskRunStats) :=
  (files.output nodeId).map fun output =>
    ({ output := store.artifactRef (outputPath runId nodeId) output
       stats := (files.stats nodeId).map fun sidecar =>
         store.artifactRef (statsPath runId nodeId) sidecar.text },
      (files.stats nodeId).map (·.runStats))

end

/-- The side tables a reducer closes over: `pendingErrors` and
`pendingTerminalResults`. -/
structure SideTables where
  pendingErrors : DagNodeId → Option DagNodeError
  pendingTerminalResults : DagNodeId → Option TaskRecord

/-- The tables of a process that has just started. -/
def SideTables.empty : SideTables where
  pendingErrors := fun _ => none
  pendingTerminalResults := fun _ => none

/-- Put a persisted artifact and its statistics on a node. -/
def withResult (artifact : DagNodeResultArtifact) (runStats : Option TaskRunStats)
    (node : DagNode) : DagNode :=
  { node with
    resultArtifact := some artifact
    runStats := runStats.orElse fun _ => node.runStats }

/-- A node after a transition, with the result that goes with it. -/
def transitionedWithResult (target : DagNodeState) (atTime : String) (error : Option DagNodeError)
    (result : Option (DagNodeResultArtifact × Option TaskRunStats)) (node : DagNode) : DagNode :=
  match result with
  | some (artifact, runStats) =>
    withResult artifact runStats (transitionedNode node target atTime error)
  | none => transitionedNode node target atTime error

/-- The record after a node transition. -/
def applyTransition (nodeId : DagNodeId) (target : DagNodeState) (atTime : String)
    (error : Option DagNodeError) (result : Option (DagNodeResultArtifact × Option TaskRunStats)) :
    DagRunRecordV1 :=
  { updateNodes record nodeId (transitionedWithResult target atTime error result) with
    updatedAt := atTime }

end

variable (store : ResultStore) (tables : SideTables)

/-- The `dag.node.transitioned` case of `applyDagSchedulerEvent`; `clock` is
the time of a failed copy. -/
def applyNodeTransitioned (files : ResultFiles) (clock : String) (record : DagRunRecordV1)
    (nodeId : DagNodeId) (target : DagNodeState) (atTime : String) : DagRunRecordV1 × ResultFiles :=
  let error := tables.pendingErrors nodeId
  let staged := if target.isTerminal then tables.pendingTerminalResults nodeId else none
  match staged with
  | some task =>
    match persistDagNodeResult store files record.runId nodeId task clock with
    | (.persisted artifact, files) =>
      (applyTransition record nodeId target atTime error (some (artifact, task.runStats)), files)
    | (.failed diagnostic, files) =>
      ({ applyTransition record nodeId target atTime error none with
          diagnostics := record.diagnostics ++ [diagnostic] }, files)
  | none =>
    let replayed :=
      if target = .completed then replayDagNodeResult store files record.runId nodeId
      else none
    (applyTransition record nodeId target atTime error replayed, files)

/-- `applyDagSchedulerEvent`: the record and the result files after it. -/
def applyDagSchedulerEvent (clock : String) (files : ResultFiles) (record : DagRunRecordV1)
    (event : DagRunEvent) : DagRunRecordV1 × ResultFiles :=
  match event.payload with
  | .runStarted _ =>
    ({ record with
        status := .running
        startedAt := record.startedAt.orElse fun _ => some event.atTime
        updatedAt := event.atTime }, files)
  | .runCompleted _ =>
    ({ record with
        status := .completed
        completedAt := some event.atTime
        updatedAt := event.atTime }, files)
  | .runFailed _ _ =>
    ({ record with
        status := .failed
        completedAt := some event.atTime
        updatedAt := event.atTime }, files)
  | .runCancelled _ _ _ =>
    ({ record with
        status := .cancelled
        completedAt := some event.atTime
        updatedAt := event.atTime }, files)
  | .nodeTransitioned nodeId _ target _ =>
    applyNodeTransitioned store tables files clock record nodeId target event.atTime
  | .nodeTaskAttached nodeId taskId attempt =>
    ({ updateNodes record nodeId (fun node =>
          { node with taskId := some taskId, attempt := attempt }) with
        updatedAt := event.atTime }, files)
  | .runResumed generation =>
    ({ record with
        completedAt := none
        status := .running
        generation := generation
        updatedAt := event.atTime }, files)
  | .nodeSteered nodeId taskId delivery =>
    match delivery with
    | .steer => ({ record with updatedAt := event.atTime }, files)
    | .revive =>
      ({ updateNodes record nodeId (fun node =>
            { node with taskId := some taskId }) with
          updatedAt := event.atTime }, files)
  | .nodeRetried _ _ _ _ | .definitionAmended _ =>
    ({ applyDagRunMutation isAlive record event with updatedAt := event.atTime }, files)
  | .runCreated _ _ _ _ _ | .runPaused _ | .waveStarted _ _ | .waveCompleted _ _
  | .nodeReused _ _ _ | .diagnosticAdded _ | .streamOverflow _ _ =>
    ({ record with updatedAt := event.atTime }, files)

/-- `applyRecoveryEvent`. -/
def applyRecoveryEvent (clock : String) (files : ResultFiles) (record : DagRunRecordV1)
    (event : DagRunEvent) : DagRunRecordV1 × ResultFiles :=
  match event.payload with
  | .runPaused _ => ({ record with status := .paused, updatedAt := event.atTime }, files)
  | _ => applyDagSchedulerEvent isAlive store tables clock files record event

end OpenAgent.Dag
