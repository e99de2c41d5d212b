import OpenAgent.Dag.OwnedTasks

/-!
# Recovering a run

`reconcileNodes` of `dag/recovery.ts`, for one node of a claimed run.  A node
whose task was lost before it was launched gets a further attempt; a scheduled
node without a task is started, and goes back to pending if there is no room.
-/

namespace OpenAgent.Dag

open Library

/-- `MAX_RECOVERY_READMISSIONS`. -/
def maxRecoveryReadmissions : Nat := 3

namespace StoredRun

variable (env : SchedulerEnv)

/-- `startFailure` of recovery. -/
def startFailure : OwnedStartResult → Option (DagNodeErrorCode × String)
  | .started _ | .residencyDenied => none
  | .depthDenied reason => some (.depthDenied, reason)
  | .planUnresolved message => some (.planUnresolved, message)
  | .startFailed message => some (.startFailed, message)
  | .ownerConflict taskId =>
    some (.startFailed, s!"DAG task owner conflicts with existing task {taskId}")

section

variable (run : StoredRun)

/-- `foldTaskOutcome` of recovery: only a completed task is staged. -/
def foldTaskOutcome (nodeId : DagNodeId) (task : TaskRecord) : StoredRun :=
  match RunJournal.taskFailure task.status task.errorMessage with
  | none =>
    let tables : SideTables :=
      { pendingErrors := fun _ => none
        pendingTerminalResults := fun id => if id = nodeId then some task else none }
    run.transition env tables nodeId .completed .succeeded
  | some (code, message) => run.failNode env nodeId code message

variable (observed : DagNode)

/-- A node without a task: its result may still be there. -/
def reconcileMissing (transcript : Bool) : StoredRun :=
  if (run.files.output observed.id).isSome then
    run.transition env .empty observed.id .completed .succeeded
  else
    let taskId := observed.taskId.getD "unknown"
    run.failNode env observed.id .resumeTaskMissing (if transcript && observed.taskId.isSome then
        s!"task {taskId} has a transcript but no recoverable task owner record"
      else s!"task {taskId} and all recovery artifacts are missing")

/-- Whether a lost task is one that was never launched. -/
def isReadmitted (task : TaskRecord) : Bool :=
  task.status == .lost && task.startedAt.isNone && observed.state == .scheduled &&
    observed.execAttempt.getD 0 < maxRecoveryReadmissions

/-- A further attempt of a node. -/
def readmit (nodeId : DagNodeId) (task : TaskRecord) : StoredRun :=
  match nodeById run.record nodeId with
  | none => run
  | some node =>
    run.commit env .empty
      (.nodeRetried nodeId (some task.taskId) (node.execAttempt.getD 0 + 1) false)

/-- A node with a task. -/
def reconcileTask (task : TaskRecord) : StoredRun :=
  if task.status = .pending ∨ task.status = .running then
    if observed.state = .running then run
    else run.transition env .empty observed.id .running .resumed
  else if isReadmitted observed task then run.readmit env observed.id task
  else run.foldTaskOutcome env observed.id task

end

variable (sha256 : List Char → String) (run : StoredRun) (observed : DagNode)

/-- A scheduled node that never had a task. -/
def reconcileUnstarted (effect : StartEffect) : StoredRun :=
  let (result, started) := run.startOwned sha256 observed effect
  match result with
  | .residencyDenied =>
    started.commit env .empty (.nodeTransitioned observed.id .scheduled .pending .resumed)
  | .started task =>
    let attached := started.attachTask env observed.id task.taskId
    match attached.getTask task.taskId with
    | some record => attached.reconcileTask env observed record
    | none => attached.reconcileMissing env observed false
  | other =>
    match startFailure other with
    | some (code, message) =>
      (started.failNode env observed.id code message).reconcileMissing env observed false
    | none => started

/-- The step of `reconcileNodes` for a node with a task to account for. -/
def reconcileActive (effect : StartEffect) (transcript : Bool) : StoredRun :=
  let owned := (run.findOwnedTask observed.id).map (·.task)
  let task := owned.orElse fun _ => observed.taskId.bind run.getTask
  match task with
  | some task =>
    let attached :=
      if observed.taskId = some task.taskId then run
      else run.attachTask env observed.id task.taskId
    attached.reconcileTask env observed task
  | none =>
    if observed.state = .scheduled ∧ observed.taskId = none then
      run.reconcileUnstarted env sha256 observed effect
    else run.reconcileMissing env observed transcript

/-- `reconcileNodes` for one node. -/
def reconcileNode (effect : StartEffect) (transcript : Bool) : StoredRun :=
  match observed.state with
  | .completed =>
    match run.files.output observed.id, observed.taskId with
    | some _, some taskId =>
      run.commit env .empty (.nodeReused observed.id taskId run.record.runId)
    | _, _ => run
  | .scheduled | .running => run.reconcileActive env sha256 observed effect transcript
  | .pending | .blocked | .failed | .cancelled | .skipped => run

end StoredRun

end OpenAgent.Dag
