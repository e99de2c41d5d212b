import Mathlib.Data.List.Basic

/-!
# Background tasks and their attempts

The record of a background task, and `attempt-lifecycle.ts`.  The status is kept on the task
and on its attempts; a task whose current attempt changes is projected from that attempt.
Times, error texts, model variants and what only notifications read are left out, since no
decision depends on them.
-/

namespace OpenAgent.Background

abbrev Name := List Char

abbrev SessionId := Nat

abbrev TaskId := Nat

abbrev AttemptId := Nat

/-- `BackgroundTaskStatus`. -/
inductive TaskStatus
  | pending
  | running
  | completed
  | error
  | cancelled
  | interrupt
  deriving DecidableEq

/-- `TERMINAL_BACKGROUND_TASK_STATUSES`. -/
def TaskStatus.isTerminal : TaskStatus → Bool
  | .completed | .error | .cancelled | .interrupt => true
  | .pending | .running => false

/-- `DelegatedModelConfig`. -/
structure ModelName where
  providerID : Name
  modelID : Name
  deriving DecidableEq

/-- `BackgroundTaskAttempt`. -/
structure Attempt where
  attemptId : AttemptId
  sessionId : Option SessionId
  providerId : Option Name
  modelId : Option Name
  status : TaskStatus

/-- `BackgroundTask`, with whether `teamRunId` and `onSessionCreated` are set. -/
structure BackgroundTask where
  status : TaskStatus
  sessionId : Option SessionId
  rootSessionId : Option SessionId
  agent : Name
  model : Option ModelName
  inTeam : Bool
  hasSessionCallback : Bool
  concurrencyKey : Option Name
  retryNotification : Bool
  attempts : List Attempt
  currentAttemptID : Option AttemptId
  current_mem : ∀ attemptID, currentAttemptID = some attemptID →
    ∃ attempt ∈ attempts, attempt.attemptId = attemptID

/-- `toAttemptModel`. -/
def Attempt.withModel (attempt : Attempt) (model : Option ModelName) : Attempt :=
  { attempt with providerId := model.map (·.providerID), modelId := model.map (·.modelID) }

/-- `toTaskModel`; an empty name counts as missing. -/
def Attempt.toTaskModel (attempt : Attempt) : Option ModelName :=
  match attempt.providerId, attempt.modelId with
  | some providerID, some modelID =>
    if providerID = [] ∨ modelID = [] then none else some { providerID, modelID }
  | _, _ => none

namespace BackgroundTask

variable (task : BackgroundTask)

def getAttempt (attemptID : AttemptId) : Option Attempt :=
  task.attempts.find? fun attempt => attempt.attemptId = attemptID

def getCurrentAttempt : Option Attempt :=
  task.currentAttemptID.bind task.getAttempt

/-- The assignments to an attempt. -/
def updateAttempt (attemptID : AttemptId) (change : Attempt → Attempt)
    (keeps : ∀ attempt, (change attempt).attemptId = attempt.attemptId) : BackgroundTask :=
  { task with
    attempts := task.attempts.map fun attempt =>
      if attempt.attemptId = attemptID then change attempt else attempt
    current_mem := by
      intro current isCurrent
      obtain ⟨attempt, member, isId⟩ := task.current_mem current isCurrent
      refine ⟨_, List.mem_map_of_mem member, ?_⟩
      split
      · rw [keeps, isId]
      · exact isId }

/-- An attempt behind the others, as the current one. -/
def addAttempt (attempt : Attempt) : BackgroundTask :=
  { task with
    attempts := task.attempts ++ [attempt]
    currentAttemptID := some attempt.attemptId
    current_mem := by
      rintro current ⟨⟩
      exact ⟨attempt, by simp, rfl⟩ }

variable (fresh : AttemptId)

/-- `ensureCurrentAttempt`, with the name of a new attempt. -/
def ensureCurrentAttempt (model : Option ModelName) : BackgroundTask :=
  match task.getCurrentAttempt with
  | some _ => task
  | none =>
    task.addAttempt (Attempt.withModel
      { attemptId := fresh
        sessionId := task.sessionId
        providerId := none
        modelId := none
        status := task.status } model)

def projectTaskFromCurrentAttempt : BackgroundTask :=
  match task.getCurrentAttempt with
  | none => task
  | some attempt =>
    { task with
      status := attempt.status
      sessionId := attempt.sessionId
      model := attempt.toTaskModel }

def startAttempt (model : Option ModelName) : BackgroundTask :=
  { task.addAttempt (Attempt.withModel
      { attemptId := fresh
        sessionId := none
        providerId := none
        modelId := none
        status := .pending } model) with
    status := .pending
    sessionId := none
    model }

/-- The assignments of `bindAttemptSession`. -/
def bound (sessionID : SessionId) (model : Option ModelName) (attempt : Attempt) : Attempt :=
  { attempt with
    sessionId := some sessionID
    status := .running
    providerId := (model.map (·.providerID)).or attempt.providerId
    modelId := (model.map (·.modelID)).or attempt.modelId }

/-- `bindAttemptSession`; the answer is whether the attempt is bound. -/
def bindAttemptSession (fresh attemptID : AttemptId) (sessionID : SessionId)
    (model : Option ModelName) : BackgroundTask × Bool :=
  let ensured := task.ensureCurrentAttempt fresh model
  if ensured.currentAttemptID = some attemptID then
    match ensured.getAttempt attemptID with
    | none => (ensured, false)
    | some attempt =>
      if attempt.status.isTerminal then (ensured, false)
      else
        ((ensured.updateAttempt attemptID (bound sessionID model) (fun _ => rfl))
          |>.projectTaskFromCurrentAttempt, true)
  else (ensured, false)

def finalizeAttempt (attemptID : AttemptId) (status : TaskStatus) : BackgroundTask :=
  match task.getAttempt attemptID with
  | none => task
  | some _ =>
    let updated := task.updateAttempt attemptID ({ · with status }) (fun _ => rfl)
    if task.currentAttemptID = some attemptID then updated.projectTaskFromCurrentAttempt
    else updated

/-- The end of a task: its current attempt is finalized, or the status is set. -/
def finish (status : TaskStatus) : BackgroundTask :=
  match task.currentAttemptID with
  | some attemptID => task.finalizeAttempt attemptID status
  | none => { task with status }

/-- What an attempt does not change of a task. -/
structure TaskOrigin where
  agent : Name
  inTeam : Bool
  hasSessionCallback : Bool

def origin : TaskOrigin where
  agent := task.agent
  inTeam := task.inTeam
  hasSessionCallback := task.hasSessionCallback

@[simp] theorem origin_project : task.projectTaskFromCurrentAttempt.origin = task.origin := by
  unfold projectTaskFromCurrentAttempt
  split <;> rfl

@[simp] theorem origin_finalizeAttempt (status : TaskStatus) :
    (task.finalizeAttempt attemptID status).origin = task.origin := by
  unfold finalizeAttempt
  split
  next => rfl
  next =>
    split
    next => exact origin_project _
    next => rfl

@[simp] theorem origin_finish (status : TaskStatus) :
    (task.finish status).origin = task.origin := by
  unfold finish
  split
  next => exact origin_finalizeAttempt ..
  next => rfl

@[simp] theorem origin_ensureCurrentAttempt (model : Option ModelName) :
    (task.ensureCurrentAttempt fresh model).origin = task.origin := by
  unfold ensureCurrentAttempt
  split <;> rfl

end BackgroundTask
end OpenAgent.Background
