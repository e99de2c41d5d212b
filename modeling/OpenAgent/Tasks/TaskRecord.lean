import Mathlib.Data.List.Basic

/-!
# Task records and their transitions

A task record is the stored account of one delegated child.  Its status moves
only through transitions, and a transition that would move a terminal status is
refused.  A whole record can also be written back, which no transition guards:
a revived task is one such write.
-/

namespace OpenAgent.Tasks

instance lawfulBEqKey : LawfulBEq (Nat × String) :=
  inferInstance

/-- The statuses of a task. -/
inductive TaskStatus
  | pending
  | running
  | completed
  | error
  | cancelled
  | interrupted
  | lost
  deriving DecidableEq

inductive ResidencyState
  | resident
  | evicted
  | disposed
  | persistedOnly
  | rpcDetached
  deriving DecidableEq

/-- Where a child runs. -/
inductive ExecutionMode
  | inProcess
  | process
  deriving DecidableEq

inductive Messageability
  | steer
  | revive
  | notContinuable
  deriving DecidableEq

/-- When a message is delivered. -/
inductive SendDelivery
  | steer
  | followUp
  deriving DecidableEq

/-- The facts counted over one run of a child. -/
structure TaskRunStats where
  runtimeMs : Nat
  turns : Nat
  toolCalls : Nat
  deriving DecidableEq

/-- A message that waits in the record for a child that has not started. -/
structure PendingSteeringEntry where
  id : String
  message : String
  deliverAs : SendDelivery
  deriving DecidableEq

/-- The stored record.  A resolved model is given by its display name, and a
timestamp by the clock reading it is made from.  `notifiedEpoch` is the last run
that the parent was told of. -/
structure TaskRecord where
  taskId : String
  status : TaskStatus
  residencyState : ResidencyState
  executionMode : ExecutionMode
  model : String
  resolvedModel : Option String
  fallbackModels : List String
  fallbackAttempts : Option (List String)
  runEpoch : Nat
  notifiedEpoch : Int
  updatedAt : Nat
  startedAt : Option Nat
  terminalAt : Option Nat
  pid : Option Nat
  hostPid : Option Nat
  childSessionId : Option String
  finalResponse : Option String
  errorMessage : Option String
  killed : Bool
  runStats : Option TaskRunStats
  pendingSteering : List PendingSteeringEntry
  deriving DecidableEq

namespace TaskStatus

/-- The terminal statuses. -/
def isTerminal : TaskStatus → Bool
  | .pending | .running => false
  | .completed | .error | .cancelled | .interrupted | .lost => true

end TaskStatus

/-- The parts of a plan that the record of its task keeps. -/
structure TaskRecordInput where
  taskId : String
  executionMode : ExecutionMode
  model : String
  resolvedModel : Option String
  fallbackModels : List String
  pendingSteering : List PendingSteeringEntry

/-- A fresh record waits for its launch. -/
def createTaskRecord (input : TaskRecordInput) (hostPid now : Nat) : TaskRecord where
  taskId := input.taskId
  status := .pending
  residencyState := .resident
  executionMode := input.executionMode
  model := input.model
  resolvedModel := input.resolvedModel
  fallbackModels := input.fallbackModels
  fallbackAttempts := none
  runEpoch := 0
  notifiedEpoch := -1
  updatedAt := now
  startedAt := none
  terminalAt := none
  pid := none
  hostPid := some hostPid
  childSessionId := none
  finalResponse := none
  errorMessage := none
  killed := false
  runStats := none
  pendingSteering := input.pendingSteering

/-- A change of a record. -/
inductive TaskTransition
  | start (timestamp : Nat) (pid : Option Nat) (childSessionId : Option String)
  | complete (timestamp : Nat) (finalResponse : String) (runStats : Option TaskRunStats)
  | fail (timestamp : Nat) (errorMessage : String) (killed : Bool) (runStats : Option TaskRunStats)
  | cancel (timestamp : Nat) (errorMessage : Option String) (runStats : Option TaskRunStats)
  | interrupt (timestamp : Nat) (errorMessage : Option String) (runStats : Option TaskRunStats)
  | lose (timestamp : Nat) (errorMessage : String)
  | evict (timestamp : Nat)
  | dispose (timestamp : Nat)
  | persistOnly (timestamp : Nat)
  | detachRpc (timestamp : Nat)
  | markResident (timestamp : Nat)

namespace TaskTransition

def timestamp : TaskTransition → Nat
  | .start timestamp _ _ | .complete timestamp _ _ | .fail timestamp _ _ _
  | .cancel timestamp _ _ | .interrupt timestamp _ _ | .lose timestamp _
  | .evict timestamp | .dispose timestamp | .persistOnly timestamp
  | .detachRpc timestamp | .markResident timestamp => timestamp

/-- The transitions that change only where the child lives. -/
def changesOnlyResidency : TaskTransition → Bool
  | .evict _ | .dispose _ | .persistOnly _ | .detachRpc _ | .markResident _ => true
  | .start _ _ _ | .complete _ _ _ | .fail _ _ _ _ | .cancel _ _ _ | .interrupt _ _ _
  | .lose _ _ => false

end TaskTransition

def transitionStatus (transition : TaskTransition) (current : TaskStatus) : TaskStatus :=
  match transition with
  | .start _ _ _ => .running
  | .complete _ _ _ => .completed
  | .fail _ _ _ _ => .error
  | .cancel _ _ _ => .cancelled
  | .interrupt _ _ _ => .interrupted
  | .lose _ _ => .lost
  | .evict _ | .dispose _ | .persistOnly _ | .detachRpc _ | .markResident _ => current

def transitionResidency (transition : TaskTransition) (current : ResidencyState) : ResidencyState :=
  match transition with
  | .evict _ => .evicted
  | .dispose _ => .disposed
  | .persistOnly _ => .persistedOnly
  | .detachRpc _ => .rpcDetached
  | .markResident _ => .resident
  | .start _ _ _ | .complete _ _ _ | .fail _ _ _ _ | .cancel _ _ _ | .interrupt _ _ _
  | .lose _ _ => current

def applyTransitionFields (record : TaskRecord) : TaskTransition → TaskRecord
  | .start timestamp pid childSessionId =>
    { record with
      startedAt := some timestamp
      pid := pid.or record.pid
      childSessionId := childSessionId.or record.childSessionId }
  | .complete _ finalResponse runStats =>
    { record with
      finalResponse := some finalResponse
      runStats := runStats.or record.runStats }
  | .fail _ errorMessage killed runStats =>
    { record with
      errorMessage := some errorMessage
      killed := killed || record.killed
      runStats := runStats.or record.runStats }
  | .lose _ errorMessage => { record with errorMessage := some errorMessage }
  | .cancel _ errorMessage runStats | .interrupt _ errorMessage runStats =>
    { record with
      errorMessage := errorMessage.or record.errorMessage
      runStats := runStats.or record.runStats }
  | .persistOnly _ => { record with hostPid := none, pid := none }
  | .detachRpc _ => { record with hostPid := none }
  | .evict _ | .dispose _ | .markResident _ => record

def isStatusTransitionAllowed (current : TaskStatus) : TaskTransition → Bool
  | .start _ _ _ => current = .pending
  | .cancel _ _ _ => current = .running || current = .pending
  | .complete _ _ _ | .fail _ _ _ _ | .interrupt _ _ _ => current = .running
  | .lose _ _ => false
  | .evict _ | .dispose _ | .persistOnly _ | .detachRpc _ | .markResident _ => true

/-- What became of a change. -/
inductive TaskTransitionAudit
  | transitionApplied (status : TaskStatus) (residencyState : ResidencyState)
  | lateTransitionIgnored (attemptedStatus currentStatus : TaskStatus)
  | invalidTransitionIgnored (attemptedStatus currentStatus : TaskStatus)

/-- The record behind a change. -/
structure TaskTransitionResult where
  applied : Bool
  record : TaskRecord
  audit : TaskTransitionAudit

def transitionTaskRecord (record : TaskRecord)
    (transition : TaskTransition) : TaskTransitionResult :=
  let nextStatus := transitionStatus transition record.status
  if record.status.isTerminal && !transition.changesOnlyResidency then
    ⟨false, record, .lateTransitionIgnored nextStatus record.status⟩
  else if !isStatusTransitionAllowed record.status transition then
    ⟨false, record, .invalidTransitionIgnored nextStatus record.status⟩
  else
    let entersTerminal := nextStatus.isTerminal && !record.status.isTerminal
    let withFields := applyTransitionFields record transition
    let nextRecord :=
      { withFields with
        status := nextStatus
        residencyState := transitionResidency transition record.residencyState
        updatedAt := transition.timestamp
        terminalAt := if entersTerminal then some transition.timestamp else record.terminalAt }
    ⟨true, nextRecord, .transitionApplied nextRecord.status nextRecord.residencyState⟩

/-- The record of a task whose child takes another prompt after it ended.  What
the finished run left behind does not cross into the new one. -/
def buildRevived (record : TaskRecord) (timestamp : Nat) : TaskRecord :=
  { record with
    finalResponse := none
    errorMessage := none
    runStats := none
    terminalAt := none
    status := .running
    residencyState := .resident
    updatedAt := timestamp
    runEpoch := record.runEpoch + 1 }

/-- How a message can reach the child of a record. -/
def messageability (status : TaskStatus) (residencyState : ResidencyState)
    (executionMode : ExecutionMode) (killed : Bool) : Messageability :=
  if killed then .notContinuable
  else
    match residencyState with
    | .disposed | .persistedOnly => .notContinuable
    | .rpcDetached =>
      match executionMode, status with
      | .process, .completed | .process, .error | .process, .interrupted => .revive
      | _, _ => .notContinuable
    | .resident =>
      match status with
      | .pending | .running => .steer
      | .completed | .error | .interrupted => .revive
      | .cancelled | .lost => .notContinuable
    | .evicted => .notContinuable

section Transitions

@[simp] theorem runEpoch_applyTransitionFields :
    (applyTransitionFields record transition).runEpoch = record.runEpoch := by
  cases transition <;> rfl

@[simp] theorem runEpoch_transition :
    (transitionTaskRecord record transition).record.runEpoch = record.runEpoch := by
  unfold transitionTaskRecord
  split_ifs <;> simp

/-- The status is the one asked for when the transition applies, and the old one
otherwise. -/
theorem status_transition :
    (transitionTaskRecord record transition).record.status =
      if (transitionTaskRecord record transition).applied then
        transitionStatus transition record.status
      else record.status := by
  unfold transitionTaskRecord
  split_ifs <;> simp_all

/-- The residency is the one asked for when the transition applies, and the old one
otherwise. -/
theorem residencyState_transition :
    (transitionTaskRecord record transition).record.residencyState =
      if (transitionTaskRecord record transition).applied then
        transitionResidency transition record.residencyState
      else record.residencyState := by
  unfold transitionTaskRecord
  split_ifs <;> simp_all

/-- A terminal status stays. -/
theorem status_transition_of_terminal
    (ended : record.status.isTerminal = true) :
    (transitionTaskRecord record transition).record.status = record.status := by
  cases transition <;> simp [transitionTaskRecord, ended, TaskTransition.changesOnlyResidency,
    transitionStatus, isStatusTransitionAllowed]

@[simp] theorem status_dispose :
    (transitionTaskRecord record (.dispose timestamp)).record.status = record.status := by
  simp [transitionTaskRecord, TaskTransition.changesOnlyResidency, transitionStatus,
    isStatusTransitionAllowed]

@[simp] theorem applied_start :
    (transitionTaskRecord record (.start timestamp pid session)).applied =
      (record.status = .pending : Bool) := by
  cases status : record.status <;> simp [transitionTaskRecord, status, TaskStatus.isTerminal,
    TaskTransition.changesOnlyResidency, isStatusTransitionAllowed]

@[simp] theorem applied_cancel :
    (transitionTaskRecord record (.cancel timestamp reason runStats)).applied =
      !record.status.isTerminal := by
  cases status : record.status <;> simp [transitionTaskRecord, status, TaskStatus.isTerminal,
    TaskTransition.changesOnlyResidency, isStatusTransitionAllowed]

@[simp] theorem applied_interrupt :
    (transitionTaskRecord record (.interrupt timestamp reason runStats)).applied =
      (record.status = .running : Bool) := by
  cases status : record.status <;> simp [transitionTaskRecord, status, TaskStatus.isTerminal,
    TaskTransition.changesOnlyResidency, isStatusTransitionAllowed]

/-- A transition that ends the run leaves the status or makes it terminal. -/
theorem status_transition_ends
    (ends : (transitionStatus transition record.status).isTerminal = true) :
    (transitionTaskRecord record transition).record.status = record.status ∨
      record.status.isTerminal = false ∧
        (transitionTaskRecord record transition).record.status.isTerminal = true := by
  cases ended : record.status.isTerminal with
  | true => exact .inl (status_transition_of_terminal ended)
  | false =>
    rw [status_transition]
    cases (transitionTaskRecord record transition).applied with
    | true => exact .inr ⟨rfl, ends⟩
    | false => exact .inl rfl

/-- A transition that ends a running task leaves every task that was started ended. -/
theorem isTerminal_transition (started : record.status ≠ .pending)
    (allowed : isStatusTransitionAllowed .running transition = true)
    (ends : (transitionStatus transition record.status).isTerminal = true) :
    (transitionTaskRecord record transition).record.status.isTerminal = true := by
  cases ended : record.status.isTerminal with
  | true => rwa [status_transition_of_terminal ended]
  | false =>
    have running : record.status = .running := by
      cases status : record.status <;> simp_all [TaskStatus.isTerminal]
    have applied : (transitionTaskRecord record transition).applied = true := by
      simp [transitionTaskRecord, running, TaskStatus.isTerminal, allowed]
    rwa [status_transition, if_pos applied]

end Transitions

/-- Only a task that has not ended takes a message into its run. -/
theorem status_of_steer
    (steers : messageability status residencyState executionMode killed = .steer) :
    status = .pending ∨ status = .running := by
  cases killed <;> cases residencyState <;> cases executionMode <;> cases status <;>
    simp_all [messageability]

/-- Only a task that ended on its own or was interrupted takes a reviving message. -/
theorem status_of_revive
    (revives : messageability status residencyState executionMode killed = .revive) :
    status = .completed ∨ status = .error ∨ status = .interrupted := by
  cases killed <;> cases residencyState <;> cases status <;>
    simp_all [messageability]

theorem Messageability.eq_revive {mode : Messageability}
    (continuable : mode = .notContinuable → False) (steers : ¬ mode = .steer) : mode = .revive := by
  cases mode with
  | steer => exact absurd rfl steers
  | notContinuable => exact (continuable rfl).elim
  | revive => rfl

end OpenAgent.Tasks
