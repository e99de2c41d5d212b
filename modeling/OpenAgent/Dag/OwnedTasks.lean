import OpenAgent.Dag.Fingerprint
import OpenAgent.Dag.Scheduler

/-!
# A stored run and the tasks its nodes own

The record of a run, its result files, and the task records whose owner is a
node of the run, in the order of their creation.  Commits go through the journal
one after another, so each of them starts from the record on disk.  Task records
expire; the owners of all tasks ever created are kept beside them.
-/

namespace OpenAgent.Dag

open Library

/-- A task record and its `DagTaskOwner`. -/
structure OwnedTask where
  nodeId : DagNodeId
  fingerprint : String
  task : TaskRecord

structure StoredRun where
  record : DagRunRecordV1
  files : ResultFiles
  tasks : List OwnedTask
  /-- The nodes and fingerprints under which tasks were created. -/
  starts : List (DagNodeId × String)

/-- What `startOwned` meets outside: the plan, the admission, and the launch of
a task whose record has been created. -/
inductive StartEffect
  | planUnresolved (message : String)
  | residencyDenied
  | depthDenied (reason : String)
  | notClaimed (message : String)
  | claimed (task : TaskRecord) (failure : Option String)
  deriving DecidableEq

namespace StoredRun

variable (env : SchedulerEnv) (run : StoredRun)

/-- The event for a payload. -/
def eventFor (payload : DagRunEventPayload) : DagRunEvent where
  runId := run.record.runId
  seq := run.record.checkpointSeq + 1
  atTime := env.eventTime (run.record.checkpointSeq + 1)
  lane := dagEventLane payload
  payload := payload

/-- `journal.append` of the scheduler, the control verbs and recovery. -/
def commit (tables : SideTables) (payload : DagRunEventPayload) : StoredRun :=
  if skipDuplicateTerminalTransition run.record payload then run
  else
    let event := run.eventFor env payload
    let (record, files) := applyRecoveryEvent env.isAlive (env.store event.seq) tables
      (env.copyTime event.seq) run.files run.record event
    { run with record := withCheckpointSeq record event.seq, files := files }

/-- `journal.append` of the manager. -/
def commitMutation (payload : DagRunEventPayload) : StoredRun :=
  let event := run.eventFor env payload
  { run with
    record := withCheckpointSeq (applyDagRunMutation env.isAlive run.record event) event.seq }

/-- `transition` of recovery; an unknown id throws. -/
def transition (tables : SideTables) (nodeId : DagNodeId) (target : DagNodeState)
    (reason : DagNodeTransitionReason) : StoredRun :=
  match nodeById run.record nodeId with
  | none => run
  | some node => run.commit env tables (.nodeTransitioned nodeId node.state target reason)

section

variable (nodeId : DagNodeId)

/-- `failNode` of recovery. -/
def failNode (code : DagNodeErrorCode) (message : String) : StoredRun :=
  let error : DagNodeError :=
    { code := code
      message := message
      nodeId := some nodeId
      atTime := env.errorTime (run.record.checkpointSeq + 1) }
  let tables : SideTables :=
    { pendingErrors := fun id => if id = nodeId then some error else none
      pendingTerminalResults := fun _ => none }
  run.transition env tables nodeId .failed .failed

/-- `attachTask`. -/
def attachTask (taskId : String) : StoredRun :=
  match nodeById run.record nodeId with
  | none => run
  | some node => run.commit env .empty (.nodeTaskAttached nodeId taskId (node.attempt + 1))

/-- `findOwnedTask`: the newest task of a node. -/
def findOwnedTask : Option OwnedTask :=
  run.tasks.reverse.find? (·.nodeId == nodeId)

/-- `taskManager.get`. -/
def getTask (taskId : String) : Option TaskRecord :=
  (run.tasks.find? (·.task.taskId == taskId)).map (·.task)

/-- `#ownedResult`. -/
def ownedResult (fingerprint : String) : Option OwnedStartResult :=
  match run.findOwnedTask nodeId with
  | none => none
  | some owned =>
    if owned.fingerprint ≠ fingerprint then
      if owned.task.status.isTerminal then none
      else some (.ownerConflict owned.task.taskId)
    else
      some (.started
        { taskId := owned.task.taskId
          status := owned.task.status
          reused := true
          queuePosition := none
          runningAtArm := owned.task.status == .running })

end

section

variable (sha256 : List Char → String) (run : StoredRun)

/-- The owner is looked up under its lock, in front of a fresh start. -/
def unlessOwned (node : DagNode) (fresh : OwnedStartResult × StoredRun) :
    OwnedStartResult × StoredRun :=
  match run.ownedResult node.id (ownerFingerprint sha256 run.record node) with
  | some result => (result, run)
  | none => fresh

/-- `claimTaskRecord`, with the owner. -/
def claimTask (node : DagNode) (task : TaskRecord) : StoredRun :=
  let fingerprint := ownerFingerprint sha256 run.record node
  { run with
    tasks := run.tasks ++ [⟨node.id, fingerprint, task⟩]
    starts := run.starts ++ [(node.id, fingerprint)] }

/-- `startOwned` for a node. -/
def startOwned (node : DagNode) : StartEffect → OwnedStartResult × StoredRun
  | .planUnresolved message => (.planUnresolved message, run)
  | .residencyDenied => (.residencyDenied, run)
  | .depthDenied reason => run.unlessOwned sha256 node (.depthDenied reason, run)
  | .notClaimed message => run.unlessOwned sha256 node (.startFailed message, run)
  | .claimed task (some message) =>
    run.unlessOwned sha256 node (.startFailed message, run.claimTask sha256 node task)
  | .claimed task none =>
    run.unlessOwned sha256 node (.started
        { taskId := task.taskId
          status := task.status
          reused := false
          queuePosition := none
          runningAtArm := task.status == .running },
        run.claimTask sha256 node task)

end

/-- A task record changes on its own. -/
def changeTask (taskId : String) (task : TaskRecord) : StoredRun :=
  { run with tasks := run.tasks.map fun owned =>
      if owned.task.taskId = taskId then
        { owned with task := { task with taskId := taskId } }
      else owned }

/-- The record of a settled task is deleted. -/
def expireTask (taskId : String) : StoredRun :=
  { run with tasks := run.tasks.filter fun owned =>
      !(owned.task.taskId == taskId && owned.task.status.isTerminal) }

end StoredRun

end OpenAgent.Dag
