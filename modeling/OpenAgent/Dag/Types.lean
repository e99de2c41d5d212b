import Mathlib.Data.List.Basic

/-!
# The vocabulary of the DAG subsystem

Node states, run statuses, events and the durable run record, as
`dag/types.ts` and `dag/manager.ts` declare them.  Optional fields are
`Option` fields.  The literal `schemaVersion: 1` carries no information and is
left out; a field named `at` in the source is `atTime` here.
-/

namespace OpenAgent.Dag

abbrev DagRunId := String
abbrev DagNodeId := String

/-- `DagRunStatus`. -/
inductive DagRunStatus
  | pending
  | running
  | paused
  | completed
  | failed
  | cancelled
  deriving DecidableEq

/-- `DagNodeState`. -/
inductive DagNodeState
  | pending
  | blocked
  | scheduled
  | running
  | completed
  | failed
  | cancelled
  | skipped
  deriving DecidableEq

namespace DagNodeState

/-- Membership in `TERMINAL_NODE_STATES`. -/
def isTerminal : DagNodeState → Bool
  | .completed | .failed | .cancelled | .skipped => true
  | .pending | .blocked | .scheduled | .running => false

/-- A node no admission pass has taken up yet. -/
def isWaiting : DagNodeState → Bool
  | .pending | .blocked => true
  | _ => false

/-- A node handed to `startOwned` and not yet settled. -/
def isActive : DagNodeState → Bool
  | .scheduled | .running => true
  | _ => false

theorem terminal_or_waiting_or_active (state : DagNodeState) :
    state.isTerminal = true ∨ state.isWaiting = true ∨ state.isActive = true := by
  cases state <;> simp [isTerminal, isWaiting, isActive]

theorem not_waiting_of_terminal {state : DagNodeState} (terminal : state.isTerminal = true) :
    state.isWaiting = false := by
  cases state <;> simp_all [isTerminal, isWaiting]

theorem not_active_of_terminal {state : DagNodeState} (terminal : state.isTerminal = true) :
    state.isActive = false := by
  cases state <;> simp_all [isTerminal, isActive]

end DagNodeState

/-- Membership in the terminal run statuses `completed`, `failed` and
`cancelled`. -/
def DagRunStatus.isTerminal : DagRunStatus → Bool
  | .completed | .failed | .cancelled => true
  | .pending | .running | .paused => false

/-- `TaskStatus`. -/
inductive TaskStatus
  | pending
  | running
  | completed
  | error
  | interrupted
  | lost
  | cancelled
  deriving DecidableEq

/-- The statuses with which `TaskManager.waitFor` resolves. -/
def TaskStatus.isTerminal : TaskStatus → Bool
  | .pending | .running => false
  | .completed | .error | .interrupted | .lost | .cancelled => true

/-- `DagRoute`: a category, or an agent with an optional model override. -/
inductive DagRoute
  | category (category : String)
  | agent (agent : String) (model : Option String)
  deriving DecidableEq

/-- `DagNodeErrorCode`. -/
inductive DagNodeErrorCode
  | planUnresolved
  | depthDenied
  | startFailed
  | residencyDenied
  | taskError
  | taskInterrupted
  | taskLost
  | taskCancelled
  | resumeTaskMissing
  | journalCorrupt
  deriving DecidableEq

/-- `DagNodeError`. -/
structure DagNodeError where
  code : DagNodeErrorCode
  message : String
  nodeId : Option DagNodeId
  atTime : String
  deriving DecidableEq

/-- `DagDiagnostic`. -/
inductive DagDiagnostic
  | routeFallback (nodeId : DagNodeId) (message atTime : String)
  | nodeFlag (nodeId : DagNodeId) (message atTime : String)
  | missingSkill (nodeId : DagNodeId) (skill message atTime : String)
  | runFlag (message atTime : String)
  | journalCorrupt (runId : Option DagRunId) (path message atTime : String)
  deriving DecidableEq

/-- `TaskRunStats`.  No modelled function looks inside the statistics, so
they are carried as the JSON text the sidecar file stores. -/
structure TaskRunStats where
  json : String
  deriving DecidableEq

/-- `DagResultArtifactRef`. -/
structure DagResultArtifactRef where
  relativePath : String
  sha256 : String
  bytes : Nat
  deriving DecidableEq

/-- `DagNodeResultArtifact`: the output copy and the optional statistics
sidecar. -/
structure DagNodeResultArtifact where
  output : DagResultArtifactRef
  stats : Option DagResultArtifactRef
  deriving DecidableEq

/-- The fields of `TaskRecord` that the DAG subsystem reads. -/
structure TaskRecord where
  taskId : String
  status : TaskStatus
  finalResponse : Option String
  errorMessage : Option String
  runStats : Option TaskRunStats
  startedAt : Option String
  deriving DecidableEq

/-- `DagNode`, with the `resultArtifact` the scheduler attaches to it. -/
structure DagNode where
  id : DagNodeId
  label : Option String
  prompt : String
  route : DagRoute
  dependsOn : List DagNodeId
  state : DagNodeState
  taskId : Option String
  attempt : Nat
  execAttempt : Option Nat
  error : Option DagNodeError
  runStats : Option TaskRunStats
  createdAt : String
  startedAt : Option String
  completedAt : Option String
  resultArtifact : Option DagNodeResultArtifact
  deriving DecidableEq

/-- `DagEdge`. -/
structure DagEdge where
  source : DagNodeId
  target : DagNodeId
  deriving DecidableEq

/-- `DagWave`. -/
structure DagWave where
  index : Nat
  nodeIds : List DagNodeId
  deriving DecidableEq

/-- `DagBottleneck`. -/
structure DagBottleneck where
  nodeId : DagNodeId
  blockedCount : Nat
  deriving DecidableEq

/-- `DagNodeCounts`. -/
structure DagNodeCounts where
  total : Nat
  pending : Nat
  blocked : Nat
  scheduled : Nat
  running : Nat
  completed : Nat
  failed : Nat
  cancelled : Nat
  skipped : Nat
  deriving DecidableEq

/-- `countNodes`. -/
def countNodes (nodes : List DagNode) : DagNodeCounts where
  total := nodes.length
  pending := nodes.countP (·.state == .pending)
  blocked := nodes.countP (·.state == .blocked)
  scheduled := nodes.countP (·.state == .scheduled)
  running := nodes.countP (·.state == .running)
  completed := nodes.countP (·.state == .completed)
  failed := nodes.countP (·.state == .failed)
  cancelled := nodes.countP (·.state == .cancelled)
  skipped := nodes.countP (·.state == .skipped)

/-- `DagNodeInput`: one node as submitted.  `target` is the category, or the
subagent type with its optional model. -/
structure DagNodeInput where
  id : String
  label : Option String
  prompt : String
  target : DagRoute
  dependsOn : Option (List String)
  taskSummary : Option String
  description : Option String
  loadSkills : Option (List String)
  deriving DecidableEq

/-- `DagDefinition`. -/
structure DagDefinition where
  key : String
  name : String
  nodes : List DagNodeInput

/-- `DagPersistedNode`: the submitted node with its dispatch prompt. -/
structure DagPersistedNode where
  input : DagNodeInput
  effectivePrompt : String
  deriving DecidableEq

/-- `DagPersistedDefinition`. -/
structure DagPersistedDefinition where
  key : String
  name : String
  nodes : List DagPersistedNode
  deriving DecidableEq

/-- `AmendRecord`. -/
structure AmendRecord where
  atTime : String
  previousFingerprint : String
  fingerprint : String
  changedNodeIds : List DagNodeId
  addedNodeIds : List DagNodeId
  invalidatedNodeIds : List DagNodeId
  deriving DecidableEq

/-- `DagRunRecordV1`, the checkpoint of one run. -/
structure DagRunRecordV1 where
  checkpointSeq : Nat
  runId : DagRunId
  runKey : String
  name : String
  parentSessionId : String
  rootSessionId : String
  definitionFingerprint : String
  definition : DagPersistedDefinition
  status : DagRunStatus
  generation : Nat
  createdAt : String
  updatedAt : String
  startedAt : Option String
  completedAt : Option String
  nodes : List DagNode
  edges : List DagEdge
  waves : List DagWave
  criticalPath : List DagNodeId
  bottlenecks : List DagBottleneck
  diagnostics : List DagDiagnostic
  amendHistory : Option (List AmendRecord)
  leaseHolderPid : Option Nat
  previousLeaseHolderPid : Option Nat
  deriving DecidableEq

/-- `DagNodeTransitionReason`. -/
inductive DagNodeTransitionReason
  | unblocked
  | scheduled
  | started
  | succeeded
  | failed
  | cancelled
  | skipped
  | interrupted
  | lost
  | resumed
  | retried
  | amendInvalidated
  | revived
  | taskQueued (queuePosition : Nat)
  deriving DecidableEq

/-- The two deliveries of `dag.node.steered`. -/
inductive SteerDelivery
  | steer
  | revive
  deriving DecidableEq

/-- The payload of `dag.definition.amended` together with the compiled graph
that `amendRun` writes beside it (`DagDefinitionAmendedMutationEvent`). -/
structure DagDefinitionAmendment where
  previousFingerprint : String
  fingerprint : String
  changedNodeIds : List DagNodeId
  addedNodeIds : List DagNodeId
  invalidatedNodeIds : List DagNodeId
  definition : DagPersistedDefinition
  nodes : List DagNode
  edges : List DagEdge
  waves : List DagWave
  criticalPath : List DagNodeId
  bottlenecks : List DagBottleneck
  diagnostics : List DagDiagnostic
  deriving DecidableEq

/-- `DagRunEventPayload`: the journaled union, one constructor per event
type. -/
inductive DagRunEventPayload
  | runCreated (runKey name definitionFingerprint : String) (nodeCount edgeCount : Nat)
  | runStarted (generation : Nat)
  | runPaused (reason : Option String)
  | runResumed (generation : Nat)
  | runCompleted (counts : DagNodeCounts)
  | runFailed (error : DagNodeError) (counts : DagNodeCounts)
  | runCancelled (reason : Option String) (counts : DagNodeCounts)
      (cancelledNodeIds : List DagNodeId)
  | waveStarted (waveIndex : Nat) (nodeIds : List DagNodeId)
  | waveCompleted (waveIndex : Nat) (nodeIds : List DagNodeId)
  | nodeTransitioned (nodeId : DagNodeId) (source target : DagNodeState)
      (reason : DagNodeTransitionReason)
  | nodeTaskAttached (nodeId : DagNodeId) (taskId : String) (attempt : Nat)
  | nodeReused (nodeId : DagNodeId) (taskId : String) (sourceRunId : DagRunId)
  | nodeRetried (nodeId : DagNodeId) (priorTaskId : Option String)
      (execAttempt : Nat) (promptChanged : Bool)
  | nodeSteered (nodeId : DagNodeId) (taskId : String) (delivery : SteerDelivery)
  | definitionAmended (amendment : DagDefinitionAmendment)
  | diagnosticAdded (diagnostic : DagDiagnostic)
  | streamOverflow (droppedCount recoverAfterSeq : Nat)
  deriving DecidableEq

/-- `DagEventLane`. -/
inductive DagEventLane
  | activity
  | boundary
  deriving DecidableEq

/-- `dagEventLane`: every journaled type is a boundary event. -/
def dagEventLane (_payload : DagRunEventPayload) : DagEventLane := .boundary

/-- `DagRunEvent`: the envelope with its payload. -/
structure DagRunEvent where
  runId : DagRunId
  seq : Nat
  atTime : String
  lane : DagEventLane
  payload : DagRunEventPayload
  deriving DecidableEq

/-- The run-level events after which a run is over. -/
def DagRunEventPayload.endsRun : DagRunEventPayload → Bool
  | .runCompleted _ | .runFailed _ _ | .runCancelled _ _ _ => true
  | _ => false

/-- `nodeById`, with `none` for the throw on an unknown id. -/
def nodeById (record : DagRunRecordV1) (nodeId : DagNodeId) : Option DagNode :=
  record.nodes.find? (·.id == nodeId)

end OpenAgent.Dag
