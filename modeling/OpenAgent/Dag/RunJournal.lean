import OpenAgent.Dag.RunStart

/-!
# The scheduler's view of its journal

The part of the scheduler that only reads and writes its journal: the durable
record, the cached snapshot, the events this instance appended, the side
tables, and the wave groupings it has reported.  Other journal instances may
move the durable record ahead of the cache; an append reads the durable record
and refreshes the cache.  Once an operation has thrown, the ones behind it in
the same call do nothing.
-/

namespace OpenAgent.Dag

open Library

/-- The clocks and the file system, by the number of the event at hand. -/
structure SchedulerEnv where
  isAlive : Nat → Bool
  store : Nat → ResultStore
  eventTime : Nat → String
  errorTime : Nat → String
  copyTime : Nat → String

/-- The journal of one scheduler instance. -/
structure RunJournal where
  durable : DagRunRecordV1
  cache : DagRunRecordV1
  /-- The events this instance appended. -/
  log : List DagRunEvent
  files : ResultFiles
  tables : SideTables
  emittedWaveAdmissions : List Nat
  emittedWaveCompletions : List Nat
  thrown : Bool

namespace RunJournal

variable (env : SchedulerEnv)

section

variable (journal : RunJournal)

/-- The event for a payload. -/
def eventFor (payload : DagRunEventPayload) : DagRunEvent where
  runId := journal.durable.runId
  seq := journal.durable.checkpointSeq + 1
  atTime := env.eventTime (journal.durable.checkpointSeq + 1)
  lane := dagEventLane payload
  payload := payload

/-- The tables after the reducer has taken a staged result. -/
def consumed (tables : SideTables) (payload : DagRunEventPayload) : SideTables :=
  match payload with
  | .nodeTransitioned nodeId _ _ _ =>
    { tables with
      pendingTerminalResults := fun id =>
        if id = nodeId then none else tables.pendingTerminalResults id }
  | _ => tables

/-- `journal.append`. -/
def append (payload : DagRunEventPayload) : RunJournal :=
  if journal.thrown then journal
  else if skipDuplicateTerminalTransition journal.durable payload then
    { journal with cache := journal.durable }
  else
    let event := journal.eventFor env payload
    let (record, files) := applyDagSchedulerEvent env.isAlive (env.store event.seq)
      journal.tables (env.copyTime event.seq) journal.files journal.durable event
    let next := withCheckpointSeq record event.seq
    { journal with
      durable := next
      cache := next
      log := journal.log ++ [event]
      files := files
      tables := consumed journal.tables payload }

section

variable (nodeId : DagNodeId)

/-- `transition`. -/
def transition (target : DagNodeState) (reason : DagNodeTransitionReason) : RunJournal :=
  match nodeById journal.cache nodeId with
  | none => { journal with thrown := true }
  | some node => journal.append env (.nodeTransitioned nodeId node.state target reason)

/-- `nodeError`. -/
def nodeError (code : DagNodeErrorCode) (message : String) : DagNodeError where
  code := code
  message := message
  nodeId := some nodeId
  atTime := env.errorTime (journal.durable.checkpointSeq + 1)

/-- Set or delete an entry of `pendingErrors`. -/
def setPendingError (error : Option DagNodeError) : RunJournal :=
  { journal with
    tables := { journal.tables with
      pendingErrors := fun id =>
        if id = nodeId then error else journal.tables.pendingErrors id } }

/-- Stage a task record for the terminal transition of its node. -/
def setPendingResult (task : TaskRecord) : RunJournal :=
  { journal with
    tables := { journal.tables with
      pendingTerminalResults := fun id =>
        if id = nodeId then some task else journal.tables.pendingTerminalResults id } }

/-- `failNode`. -/
def failNode (code : DagNodeErrorCode) (message : String) : RunJournal :=
  let staged := journal.setPendingError nodeId
    (some (journal.nodeError env nodeId code message))
  let moved := staged.transition env nodeId .failed .failed
  if moved.thrown then moved else moved.setPendingError nodeId none

/-- `taskFailure`. -/
def taskFailure (status : TaskStatus) (message : Option String) :
    Option (DagNodeErrorCode × String) :=
  match status with
  | .error => some (.taskError, message.getD "task failed")
  | .interrupted => some (.taskInterrupted, message.getD "task was interrupted")
  | .lost => some (.taskLost, message.getD "task was lost")
  | .cancelled => some (.taskCancelled, message.getD "task was cancelled")
  | .completed | .pending | .running => none

/-- `foldTaskOutcome`. -/
def foldTaskOutcome (task : TaskRecord) : RunJournal :=
  if task.status.isTerminal then
    let staged := journal.setPendingResult nodeId task
    match taskFailure task.status task.errorMessage with
    | none => staged.transition env nodeId .completed .succeeded
    | some (code, message) => staged.failNode env nodeId code message
  else { journal with thrown := true }

end

/-- Whether some dependency ended without completing; `none` for an unknown
dependency. -/
def hasFailedDependency (record : DagRunRecordV1) (dependsOn : List DagNodeId) : Option Bool :=
  (dependsOn.mapM (nodeById record)).map fun dependencies =>
    dependencies.any fun dependency =>
      dependency.state.isTerminal && dependency.state != .completed

/-- One node of the cascade, looked up in the snapshot of the pass. -/
def cascadeNode (snapshot : DagRunRecordV1) (progress : RunJournal × Bool)
    (node : DagNode) : RunJournal × Bool :=
  if progress.1.thrown || !node.state.isWaiting then progress
  else
    match hasFailedDependency snapshot node.dependsOn with
    | none => ({ progress.1 with thrown := true }, progress.2)
    | some true => (progress.1.transition env node.id .skipped .skipped, true)
    | some false => progress

/-- One pass of the cascade, with whether it changed anything. -/
def cascadePass : RunJournal × Bool :=
  journal.cache.nodes.foldl (cascadeNode env journal.cache) (journal, false)

end

/-- The `while (changed)` loop of `applyDependentSkipCascade`. -/
def cascade : Nat → RunJournal → RunJournal
  | 0, journal => journal
  | fuel + 1, journal =>
    let (next, changed) := journal.cascadePass env
    if changed && !next.thrown then cascade fuel next else next

variable (journal : RunJournal)

/-- `applyDependentSkipCascade`.  Every pass but the first and the last moves
a waiting node, so the passes are bounded by the number of nodes. -/
def applyDependentSkipCascade : RunJournal :=
  cascade env (journal.cache.nodes.length + 2) journal

/-- `dependsOn.every(...)` of `isRunnable`; `none` for an unknown id reached
before a dependency that has not completed. -/
def allCompleted (record : DagRunRecordV1) : List DagNodeId → Option Bool
  | [] => some true
  | dep :: rest =>
    match nodeById record dep with
    | none => none
    | some node =>
      if node.state = .completed then allCompleted record rest else some false

section

variable (record : DagRunRecordV1)

/-- `isRunnable`. -/
def isRunnable (nodeId : DagNodeId) : Option Bool :=
  match nodeById record nodeId with
  | none => none
  | some node =>
    if node.state.isWaiting then allCompleted record node.dependsOn else some false

/-- The newly ready nodes of an admission pass. -/
def runnableNodes (record : DagRunRecordV1)
    (denied : List DagNodeId) : List DagNode → Option (List DagNodeId)
  | [] => some []
  | node :: rest =>
    if node.state.isWaiting && !denied.contains node.id then
      match isRunnable record node.id with
      | none => none
      | some ready => (runnableNodes record denied rest).map fun ids =>
        if ready then node.id :: ids else ids
    else runnableNodes record denied rest

/-- `waveIndexByNodeId`: the last wave that lists a node. -/
def waveIndexOf (nodeId : DagNodeId) : Option Nat :=
  (record.waves.reverse.find? fun wave => wave.nodeIds.contains nodeId).map (·.index)

/-- Report one wave of an admission pass. -/
def emitWaveAdmission (scheduled : List DagNodeId) (indexOf : DagNodeId → Option Nat)
    (journal : RunJournal) (index : Nat) : RunJournal :=
  let reported := journal.append env
    (.waveStarted index (scheduled.filter fun id => indexOf id == some index))
  { reported with
    emittedWaveAdmissions := setInsert reported.emittedWaveAdmissions index }

/-- `emitWaveAdmissions`. -/
def emitWaveAdmissions (scheduled : List DagNodeId) : RunJournal :=
  let indexOf := waveIndexOf journal.cache
  (stableSort (fun left right => decide (left ≤ right))
    (setOf (scheduled.filterMap indexOf))).foldl (emitWaveAdmission env scheduled indexOf) journal

/-- Report one wave whose nodes are all terminal in the snapshot. -/
def emitWaveCompletion (snapshot : DagRunRecordV1) (journal : RunJournal)
    (wave : DagWave) : RunJournal :=
  if journal.emittedWaveAdmissions.contains wave.index &&
      !journal.emittedWaveCompletions.contains wave.index &&
      wave.nodeIds.all (fun id =>
        ((nodeById snapshot id).map (·.state.isTerminal)).getD false) then
    let reported := journal.append env (.waveCompleted wave.index wave.nodeIds)
    { reported with
      emittedWaveCompletions := setInsert reported.emittedWaveCompletions wave.index }
  else journal

/-- `emitCompletedWaves`. -/
def emitCompletedWaves : RunJournal :=
  if journal.emittedWaveAdmissions.isEmpty then journal
  else journal.cache.waves.foldl (emitWaveCompletion env journal.cache) journal

/-- The first failed node of a list of ids; the outer `none` is an unknown
id. -/
def firstFailed (record : DagRunRecordV1) : List DagNodeId → Option (Option DagNode)
  | [] => some none
  | id :: rest =>
    match nodeById record id with
    | none => none
    | some node => if node.state = .failed then some (some node) else firstFailed record rest

/-- `primaryFailure`. -/
def primaryFailure : Option (Option DagNode) :=
  firstFailed record (record.waves.flatMap (·.nodeIds))

end

/-- The end of `runFrontier`. -/
def finishRun : RunJournal :=
  let counts := countNodes journal.cache.nodes
  match primaryFailure journal.cache with
  | none => { journal with thrown := true }
  | some none => journal.append env (.runCompleted counts)
  | some (some failed) =>
    let error := failed.error.getD (journal.nodeError env failed.id .startFailed "DAG node failed")
    journal.append env (.runFailed error counts)

/-- The transitions of `performCancellation`. -/
def cancelNodes (nodeIds : List DagNodeId) : RunJournal :=
  nodeIds.foldl (fun journal id => journal.transition env id .cancelled .cancelled) journal

/-- The end of `performCancellation`: every node that is not terminal in the
snapshot is cancelled, then the run. -/
def finishCancellation (reason : Option String) : RunJournal :=
  let cancelledNodeIds :=
    (journal.cache.nodes.filter fun node => !node.state.isTerminal).map (·.id)
  let cancelled := journal.cancelNodes env cancelledNodeIds
  cancelled.append env
    (.runCancelled reason (countNodes cancelled.cache.nodes) cancelledNodeIds)

end RunJournal

end OpenAgent.Dag
