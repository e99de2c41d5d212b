import OpenAgent.Background.ConcurrencyManager

/-!
# The background manager

`launch`, `processKey`, `startTask`, `cancelTask` and `onTaskPruned` of `manager.ts`, with
`tryFallbackRetry` of `fallback-retry-handler.ts`: the launch queues, the loops that start tasks,
and the paths that end or retry a task.  A method runs up to its next `await` in one step.  What
the client, the clock and the selection of a fallback model answer is part of the label of a step,
and a method that waits is an operation, or the loop of a concurrency key, at its point.  The other
methods touch neither the queues nor the loops: one step stands for them, which leaves the tasks
and their slots in any state.
-/

namespace OpenAgent.Background

/-- `LaunchInput`, with whether `teamRunId` and `onSessionCreated` are set. -/
structure LaunchInput where
  agent : Name
  model : Option ModelName
  inTeam : Bool
  hasSessionCallback : Bool
  deriving DecidableEq

/-- `getRawConcurrencyKeyFromInput` and `getRawConcurrencyKeyFromTask`. -/
def rawConcurrencyKey (model : Option ModelName) (agent : Name) : Name :=
  match model with
  | some model => model.providerID ++ '/' :: model.modelID
  | none => agent

/-- An item of a launch queue. -/
structure QueueItem where
  task : TaskId
  input : LaunchInput
  attemptID : AttemptId
  rawConcurrencyKey : Name
  deriving DecidableEq

/-- The identity of a queue array, with the key that it was created for. -/
structure QueueId where
  key : Name
  number : Nat
  deriving DecidableEq

/-- Where a loop of `processKey` stands, with the item that it has taken. -/
inductive LoopPoint
  /-- `acquire`. -/
  | acquiring (item : QueueItem) (ticket : Ticket)
  /-- `session.get` and `session.create` of `startTask`. -/
  | creating (item : QueueItem)
  /-- The abort of a session that was created for a cancelled task. -/
  | abortingCancelled (item : QueueItem)
  /-- `onSessionCreated`. -/
  | announcingSession (item : QueueItem) (sessionID : SessionId)
  /-- The abort of a session that cannot be bound to its attempt. -/
  | abortingUnbound (item : QueueItem)
  /-- `resolveParentWakePromptContext` of a retry. -/
  | announcingRetry (item : QueueItem)
  /-- The abort behind a start that has thrown. -/
  | cleaningUp (item : QueueItem)

/-- A running loop, with the array that it has looked up when it started. -/
structure ProcessLoop where
  queue : QueueId
  point : LoopPoint

/-- The queues of the concurrency keys, with the arrays that they are or were. -/
structure LaunchQueues where
  queuesByKey : Name → Option QueueId
  items : QueueId → List QueueItem
  nextQueue : Nat
  /-- The loops of `processingKeys`. -/
  loops : Name → Option ProcessLoop

namespace LaunchQueues

/-- No key has a queue. -/
def empty : LaunchQueues where
  queuesByKey := fun _ => none
  items := fun _ => []
  nextQueue := 0
  loops := fun _ => none

variable (queues : LaunchQueues) (key : Name)

/-- `queuesByKey.get(key) ?? []`: the array, which may be a new one. -/
def lookUp : QueueId × LaunchQueues :=
  match queues.queuesByKey key with
  | some queue => (queue, queues)
  | none =>
    let queue : QueueId := { key, number := queues.nextQueue }
    (queue,
      { queues with
        items := Function.update queues.items queue []
        nextQueue := queues.nextQueue + 1 })

/-- `queue.push(item)` and `queuesByKey.set(key, queue)`. -/
def store (queue : QueueId) (item : QueueItem) : LaunchQueues :=
  { queues with
    items := Function.update queues.items queue (queues.items queue ++ [item])
    queuesByKey := Function.update queues.queuesByKey key (some queue) }

/-- The removal of a task from the stored queue of a key. -/
def dequeue (task : TaskId) : LaunchQueues :=
  match queues.queuesByKey key with
  | none => queues
  | some queue =>
    match (queues.items queue).find? fun item => item.task = task with
    | none => queues
    | some item =>
      let rest := (queues.items queue).erase item
      { queues with
        items := Function.update queues.items queue rest
        queuesByKey :=
          if rest = [] then Function.update queues.queuesByKey key none
          else queues.queuesByKey }

/-- The loop of a key. -/
def setLoop (loop : Option ProcessLoop) : LaunchQueues :=
  { queues with loops := Function.update queues.loops key loop }

/-- The head of a loop: it takes the next item of its array, or ends. -/
def takeNext (queue : QueueId) (ticket : Ticket) : LaunchQueues :=
  match queues.items queue with
  | [] => queues.setLoop key none
  | item :: rest =>
    { queues with items := Function.update queues.items queue rest }.setLoop key
      (some { queue, point := .acquiring item ticket })

end LaunchQueues

/-- The tasks of the manager with their slots. -/
structure TaskTable where
  /-- The task objects; those in `tasks` are tracked. -/
  object : TaskId → BackgroundTask
  tracked : List TaskId
  nextTask : TaskId
  nextAttempt : AttemptId
  concurrency : ConcurrencyManager
  rootDescendantCounts : SessionId → Nat
  preStartDescendantReservations : TaskId → Bool

/-- A task without an attempt. -/
def blankTask : BackgroundTask where
  status := .pending
  sessionId := none
  rootSessionId := none
  agent := []
  model := none
  inTeam := false
  hasSessionCallback := false
  concurrencyKey := none
  retryNotification := false
  attempts := []
  currentAttemptID := none
  current_mem := nofun

section Config

variable (config : BackgroundTaskConfig)

/-- The key of the queue of a task. -/
def queueKey (task : BackgroundTask) : Name :=
  config.concurrencyKey (rawConcurrencyKey task.model task.agent)

/-- `getConcurrencyKeyFromInput`. -/
def inputKey (input : LaunchInput) : Name :=
  config.concurrencyKey (rawConcurrencyKey input.model input.agent)

end Config

namespace TaskTable

/-- No task, and every slot free. -/
def empty : TaskTable where
  object := fun _ => blankTask
  tracked := []
  nextTask := 0
  nextAttempt := 0
  concurrency := .empty
  rootDescendantCounts := fun _ => 0
  preStartDescendantReservations := fun _ => false

section

variable (table : TaskTable) (task : TaskId)

/-- The assignments to a task. -/
def setTask (object : BackgroundTask) : TaskTable :=
  { table with object := Function.update table.object task object }

/-- A task behind a call that may have named a new attempt. -/
def setAttempted (object : BackgroundTask) : TaskTable :=
  { table.setTask task object with nextAttempt := table.nextAttempt + 1 }

/-- `task.status`. -/
def status : TaskStatus :=
  (table.object task).status

/-- The items of a loop that are not started. -/
def isStopped : Bool :=
  table.status task = .cancelled || table.status task = .error || table.status task = .interrupt

/-- The end of a task with a status. -/
def finish (status : TaskStatus) : TaskTable :=
  table.setTask task ((table.object task).finish status)

/-- `registerRootDescendant`. -/
def registerRootDescendant (root : SessionId) : TaskTable :=
  { table with rootDescendantCounts :=
      Function.update table.rootDescendantCounts root (table.rootDescendantCounts root + 1) }

/-- `if (task.rootSessionId) this.unregisterRootDescendant(task.rootSessionId)`. -/
def unregisterTask : TaskTable :=
  match (table.object task).rootSessionId with
  | none => table
  | some root =>
    { table with rootDescendantCounts :=
        Function.update table.rootDescendantCounts root (table.rootDescendantCounts root - 1) }

/-- `markPreStartDescendantReservation` and `settlePreStartDescendantReservation`. -/
def setReservation (reserved : Bool) : TaskTable :=
  { table with preStartDescendantReservations :=
      Function.update table.preStartDescendantReservations task reserved }

/-- `rollbackPreStartDescendantReservation`. -/
def rollbackPreStartDescendantReservation : TaskTable :=
  if table.preStartDescendantReservations task then
    (table.setReservation task false).unregisterTask task
  else table

end

variable (config : BackgroundTaskConfig) (table : TaskTable)

/-- `concurrencyManager.release(key)`. -/
def releaseKey (key : Name) : TaskTable :=
  { table with concurrency := table.concurrency.release config key }

/-- The release of the slot of a task. -/
def releaseSlot (task : TaskId) : TaskTable :=
  match (table.object task).concurrencyKey with
  | none => table
  | some key =>
    (table.releaseKey config key).setTask task { table.object task with concurrencyKey := none }

/-- The slot of a task that could not be started. -/
def releaseFailedStart (key : Name) (task : TaskId) : TaskTable :=
  match (table.object task).concurrencyKey with
  | some _ => table.releaseSlot config task
  | none => table.releaseKey config key

/-- What `processKey` does first when `startTask` has thrown. -/
def failStart (key : Name) (task : TaskId) : TaskTable :=
  ((table.rollbackPreStartDescendantReservation task).finish task .error).releaseFailedStart
    config key task

/-- A task of a launch, with its first attempt. -/
def addTask (input : LaunchInput) (root : SessionId) : TaskTable :=
  let object : BackgroundTask :=
    { blankTask with
      rootSessionId := some root
      agent := input.agent
      inTeam := input.inTeam
      hasSessionCallback := input.hasSessionCallback }
  { table.registerRootDescendant root with
    object := Function.update table.object table.nextTask
      (object.startAttempt table.nextAttempt input.model)
    tracked := table.tracked ++ [table.nextTask]
    nextTask := table.nextTask + 1
    nextAttempt := table.nextAttempt + 1 }
    |>.setReservation table.nextTask true

variable (task : TaskId)

/-- The new attempt of `tryFallbackRetry`, with the selected fallback model. -/
def retryAttempt (model : ModelName) : TaskTable :=
  let released := table.releaseSlot config task
  let ensured := (released.object task).ensureCurrentAttempt released.nextAttempt
    (released.object task).model
  let retried := (ensured.finish .error).startAttempt (released.nextAttempt + 1) (some model)
  { released with nextAttempt := released.nextAttempt + 2 }.setTask task
    { retried with retryNotification := true }

/-- `cancelTask` behind its abort. -/
def finishCancel (wasRunning : Bool) : TaskTable :=
  let finished := table.finish task .cancelled
  let unregistered := if wasRunning then finished.unregisterTask task else finished
  unregistered.releaseSlot config task

/-- What `cancelTask` does for a pending task behind the removal from its queue. -/
def cancelPending : TaskTable :=
  let object := table.object task
  let rolledBack := table.rollbackPreStartDescendantReservation task
  { rolledBack with
    concurrency := rolledBack.concurrency.cancelWaiter config
      (rawConcurrencyKey object.model object.agent) task }
    |>.finishCancel config task false

/-- `onTaskPruned`, but for the queue of the task. -/
def prune : TaskTable :=
  let failed := table.setTask task { table.object task with status := .error }
  let unregistered :=
    if table.status task = .pending then failed else failed.unregisterTask task
  unregistered.releaseSlot config task

/-- `tryCompleteTask`. -/
def tryCompleteTask : TaskTable :=
  if table.status task = .running then
    ((table.finish task .completed).unregisterTask task).releaseSlot config task
  else table

end TaskTable

/-- A method that waits for an answer. -/
inductive Operation
  /-- The abort in `tryFallbackRetry`, with the array looked up before. -/
  | retrying (key : Name) (queue : QueueId) (item : QueueItem)
  /-- The abort in `cancelTask`. -/
  | cancelling (task : TaskId)

abbrev OperationId := Nat

/-- `BackgroundManager`. -/
structure Manager extends TaskTable where
  queues : LaunchQueues
  operations : OperationId → Option Operation
  nextOperation : OperationId

namespace Manager

/-- A new manager. -/
def empty : Manager where
  toTaskTable := .empty
  queues := .empty
  operations := fun _ => none
  nextOperation := 0

section

variable (manager : Manager)

/-- The tasks change. -/
def setTable (table : TaskTable) : Manager :=
  { manager with toTaskTable := table }

/-- The queues change. -/
def setQueues (queues : LaunchQueues) : Manager :=
  { manager with queues }

/-- A method starts to wait. -/
def await (operation : Operation) : Manager :=
  { manager with
    operations := Function.update manager.operations manager.nextOperation (some operation)
    nextOperation := manager.nextOperation + 1 }

/-- A method goes on. -/
def settle (id : OperationId) : Manager :=
  { manager with operations := Function.update manager.operations id none }

end

section Config

variable (config : BackgroundTaskConfig) (manager : Manager)

section

variable (key : Name)

/-- The head of the loop, with the call of `acquire` for the item that it takes. -/
def nextItem (queue : QueueId) : Manager :=
  let taken := manager.setQueues
    (manager.queues.takeNext key queue manager.concurrency.nextTicket)
  match manager.queues.items queue with
  | [] => taken
  | item :: _ =>
    { taken with
      concurrency := manager.concurrency.acquire config item.rawConcurrencyKey (some item.task) }

/-- `processKey`. -/
def processKey : Manager :=
  match manager.queues.loops key, manager.queues.queuesByKey key with
  | none, some queue => manager.nextItem config key queue
  | _, _ => manager

/-- An error leaves the loop. -/
def leaveLoop : Manager :=
  manager.setQueues (manager.queues.setLoop key none)

section

variable (queue : QueueId)

/-- The loop of a key goes to a point. -/
def goTo (point : LoopPoint) : Manager :=
  manager.setQueues (manager.queues.setLoop key (some { queue, point }))

variable (item : QueueItem)

/-- `acquire` of the loop has settled. -/
def acquired (ticket : Ticket) : Option Manager :=
  match manager.concurrency.tickets ticket with
  | .waiting => none
  | .rejected =>
    if manager.isStopped item.task then
      some ((manager.setTable (manager.rollbackPreStartDescendantReservation item.task)).nextItem
        config key queue)
    else some (manager.leaveLoop key)
  | .granted =>
    if manager.isStopped item.task then
      some ((manager.setTable ((manager.rollbackPreStartDescendantReservation item.task).releaseKey
        config key)).nextItem config key queue)
    else some (manager.goTo key queue (.creating item))

/-- The end of the `catch` of `processKey`.  A continuation marker that cannot be written throws,
and the error leaves the loop. -/
def endFailedStart (markerThrows : Bool) : Manager :=
  if markerThrows then manager.leaveLoop key else manager.nextItem config key queue

/-- `startTask` has thrown. -/
def startFailed (markerThrows : Bool) : Manager :=
  let failed := manager.setTable (manager.failStart config key item.task)
  match (failed.object item.task).sessionId with
  | some _ => failed.goTo key queue (.cleaningUp item)
  | none => failed.endFailedStart config key queue markerThrows

/-- `session.create` has returned. -/
def created (sessionID : SessionId) : Manager :=
  if manager.status item.task = .cancelled then manager.goTo key queue (.abortingCancelled item)
  else manager.goTo key queue (.announcingSession item sessionID)

/-- `onSessionCreated` has returned.  Without the announcement of a retry the prompt is sent, and
`startTask` returns. -/
def sessionAnnounced (sessionID : SessionId) : Manager :=
  let settled := manager.setReservation item.task false
  if item.task ∈ settled.tracked ∧ settled.status item.task = .cancelled then
    (manager.setTable settled).goTo key queue (.abortingUnbound item)
  else
    match (settled.object item.task).bindAttemptSession settled.nextAttempt item.attemptID
        sessionID item.input.model with
    | (task, false) =>
      (manager.setTable (settled.setAttempted item.task task)).goTo key queue
        (.abortingUnbound item)
    | (task, true) =>
      let bound := manager.setTable (settled.setAttempted item.task
        { task with concurrencyKey := some (inputKey config item.input) })
      if task.retryNotification then bound.goTo key queue (.announcingRetry item)
      else bound.nextItem config key queue

end

/-- What the client answers to a loop. -/
inductive LoopAnswer
  | proceed
  | created (sessionID : SessionId)
  /-- `startTask` throws, and perhaps the continuation marker behind it. -/
  | throws (markerThrows : Bool)
  /-- The continuation marker behind an abort throws. -/
  | markerThrows

/-- A loop goes on to its next `await`. -/
def runLoop (answer : LoopAnswer) : Option Manager :=
  match manager.queues.loops key with
  | none => none
  | some loop =>
    match loop.point, answer with
    | .acquiring item ticket, .proceed => manager.acquired config key loop.queue item ticket
    | .creating item, .created sessionID =>
      some (manager.created key loop.queue item sessionID)
    | .creating item, .throws markerThrows | .announcingSession item _, .throws markerThrows
    | .announcingRetry item, .throws markerThrows =>
      some (manager.startFailed config key loop.queue item markerThrows)
    | .abortingCancelled item, .proceed =>
      some ((manager.setTable (manager.releaseKey config (inputKey config item.input))).nextItem
        config key loop.queue)
    | .announcingSession item sessionID, .proceed =>
      some (manager.sessionAnnounced config key loop.queue item sessionID)
    | .abortingUnbound item, .proceed =>
      some ((manager.setTable ((manager.unregisterTask item.task).releaseKey config
        (inputKey config item.input))).nextItem config key loop.queue)
    | .announcingRetry item, .proceed =>
      some ((manager.setTable (manager.setTask item.task
        { manager.object item.task with retryNotification := false })).nextItem
          config key loop.queue)
    | .cleaningUp _, .proceed => some (manager.endFailedStart config key loop.queue false)
    | .cleaningUp _, .markerThrows => some (manager.endFailedStart config key loop.queue true)
    | _, _ => none

end

/-- `launch` behind `assertCanSpawn`, with the root session that this one has found.  A continuation
marker that cannot be written throws in front of `processKey`, and the item stays in the queue. -/
def launch (input : LaunchInput) (root : SessionId) (markerThrows : Bool) : Manager :=
  if config.maxLiveDescendants ≠ 0 ∧
      config.maxLiveDescendants ≤ manager.rootDescendantCounts root then
    -- the descendant limit is thrown
    manager
  else
    let item : QueueItem :=
      { task := manager.nextTask
        input
        attemptID := manager.nextAttempt
        rawConcurrencyKey := rawConcurrencyKey input.model input.agent }
    let key := inputKey config input
    let lookedUp := manager.queues.lookUp key
    let queued := (manager.setTable (manager.addTask input root)).setQueues
      (lookedUp.2.store key lookedUp.1 item)
    if markerThrows then queued else queued.processKey config key

/-- `tryFallbackRetry` behind its abort. -/
def finishRetry (key : Name) (queue : QueueId) (item : QueueItem) : Manager :=
  (manager.setQueues (manager.queues.store key queue item)).processKey config key

section

variable (task : TaskId)

/-- The input of a retry. -/
def retryInput (task : BackgroundTask) (model : ModelName) : LaunchInput where
  agent := task.agent
  model := some model
  inTeam := task.inTeam
  hasSessionCallback := task.hasSessionCallback

/-- `tryFallbackRetry` with a fallback model that can be used. -/
def tryFallbackRetry (model : ModelName) : Manager :=
  let previousSession := (manager.object task).sessionId
  let retried := manager.setTable (manager.retryAttempt config task model)
  let object := retried.object task
  if object.inTeam ∧ ¬ object.hasSessionCallback then
    -- `TeamModeFallbackError`
    retried
  else
    let raw := rawConcurrencyKey object.model object.agent
    let key := config.concurrencyKey raw
    let lookedUp := retried.queues.lookUp key
    let prepared := retried.setQueues lookedUp.2
    let item : QueueItem :=
      { task
        input := retryInput object model
        attemptID := retried.nextAttempt - 1
        rawConcurrencyKey := raw }
    match previousSession with
    | some _ => prepared.await (.retrying key lookedUp.1 item)
    | none => prepared.finishRetry config key lookedUp.1 item

/-- A pending task leaves its queue. -/
def dequeue : Manager :=
  manager.setQueues (manager.queues.dequeue (queueKey config (manager.object task)) task)

/-- `cancelTask`. -/
def cancelTask (abortSession : Bool) : Manager :=
  if task ∈ manager.tracked then
    match manager.status task with
    | .pending => (manager.dequeue config task).setTable (manager.cancelPending config task)
    | .running =>
      if abortSession ∧ (manager.object task).sessionId.isSome then
        manager.await (.cancelling task)
      else manager.setTable (manager.finishCancel config task true)
    | .completed | .error | .cancelled | .interrupt => manager
  else manager

/-- `onTaskPruned`. -/
def pruneTask : Manager :=
  let dequeued :=
    if manager.status task = .pending then manager.dequeue config task else manager
  dequeued.setTable (manager.prune config task)

end

/-- What a waiting method gets: an abort has completed, or has not. -/
inductive Answer
  | proceed
  | refuse

/-- A waiting method goes on. -/
def runOperation (operation : Operation) (answer : Answer) : Option Manager :=
  match operation, answer with
  | .retrying key queue item, .proceed => some (manager.finishRetry config key queue item)
  | .cancelling task, .proceed => some (manager.setTable (manager.finishCancel config task true))
  | .cancelling _, .refuse => some manager
  | .retrying .., .refuse => none

/-- A step of the manager. -/
inductive Label
  | launch (input : LaunchInput) (root : SessionId) (markerThrows : Bool)
  | loop (key : Name) (answer : LoopAnswer)
  | settle (id : OperationId) (answer : Answer)
  | cancel (task : TaskId) (abortSession : Bool)
  | prune (task : TaskId)
  | retry (task : TaskId) (model : ModelName)
  | complete (task : TaskId)
  /-- Any other method. -/
  | other (table : TaskTable)

/-- One step of the manager. -/
def step : Label → Option Manager
  | .launch input root markerThrows => some (manager.launch config input root markerThrows)
  | .loop key answer => manager.runLoop config key answer
  | .settle id answer =>
    match manager.operations id with
    | none => none
    | some operation => (manager.settle id).runOperation config operation answer
  | .cancel task abortSession => some (manager.cancelTask config task abortSession)
  | .prune task =>
    if task ∈ manager.tracked ∧ (manager.status task).isTerminal = false ∧
        (manager.object task).inTeam = false then
      some (manager.pruneTask config task)
    else none
  | .retry task model => some (manager.tryFallbackRetry config task model)
  | .complete task => some (manager.setTable (manager.tryCompleteTask config task))
  | .other table => some (manager.setTable table)

end Config

end Manager

end OpenAgent.Background
