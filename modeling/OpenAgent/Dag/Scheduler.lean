import OpenAgent.Dag.RunJournal

/-!
# The scheduler as a state machine

`createDagScheduler` of `dag/scheduler.ts`.  A step is what runs between two
suspensions: `run` and `cancel` are calls from outside, the other actions
resume a suspended `await` with the answer the task manager, another journal
instance or the event loop gives.  A list of actions is therefore one
interleaving with one choice of every answer.

Retry, steering and revival commit through journals of their own.  They reach
the scheduler as commits of other instances; the hook by which a revived task
is watched inside the scheduler is left out.
-/

namespace OpenAgent.Dag

open Library

/-- The `started` case of `OwnedStartResult`. -/
structure StartedTask where
  taskId : String
  status : TaskStatus
  reused : Bool
  queuePosition : Option Nat
  /-- Whether the task manager reports the task as running when its promotion
  watch is armed. -/
  runningAtArm : Bool
  deriving DecidableEq

/-- `OwnedStartResult`. -/
inductive OwnedStartResult
  | started (task : StartedTask)
  | residencyDenied
  | depthDenied (reason : String)
  | planUnresolved (message : String)
  | startFailed (message : String)
  | ownerConflict (taskId : String)
  deriving DecidableEq

/-- One entry of the settled admission batch.  A spec that cannot be built is
a rejection too. -/
inductive StartAnswer
  | rejected (message : String)
  | fulfilled (result : OwnedStartResult)
  deriving DecidableEq

/-- `AttachedTaskSettlement`; `TaskManager.waitFor` resolves with terminal
records only. -/
inductive Settlement
  | record (task : TaskRecord) (terminal : task.status.isTerminal = true)
  | error (message : String)
  deriving DecidableEq

/-- The traffic between the scheduler and the task manager.  A call of
`startOwned` carries the durable record at that moment; a settlement is listed
when it is folded into the run. -/
inductive TaskTraffic
  | startOwned (nodeId : DagNodeId) (record : DagRunRecordV1)
  | answered (nodeId : DagNodeId) (answer : StartAnswer)
  | settled (nodeId : DagNodeId) (settlement : Settlement)
  | cancelTask (taskId : String) (reason : Option String)
  deriving DecidableEq

/-- Where the call of `run` is. -/
inductive RunPhase
  /-- `run` has not been called. -/
  | idle
  /-- `startOwned` is pending for a batch; `admissionInProgress` holds. -/
  | starting (batch : List DagNodeId)
  /-- `admitFrontier` has returned `true`. -/
  | admitted
  /-- The race of `settleOne` is pending, for the admission loop or for the
  outer one. -/
  | settling (inAdmission : Bool)
  /-- `settleOne` has returned `true`. -/
  | settled (inAdmission : Bool)
  /-- `cancelledSnapshot` is pending. -/
  | cancelling
  | finished
  | threw
  deriving DecidableEq

/-- Where `performCancellation` is. -/
inductive CancelPhase
  | none
  | awaitingIdle (reason : Option String)
  | cancellingTasks (reason : Option String)
  | done
  deriving DecidableEq

/-- `SchedulerContext`. -/
structure SchedulerState where
  journal : RunJournal
  attachedTaskIds : List (DagNodeId × String)
  attachedTasks : List DagNodeId
  pendingAdmission : List DagNodeId
  promotionWatches : List DagNodeId
  cancellationStarted : Bool
  foreignSettlement : Bool
  /-- The settlement signal has fired since the race was armed. -/
  settlementChanged : Bool
  phase : RunPhase
  cancellation : CancelPhase
  traffic : List TaskTraffic

namespace SchedulerState

variable (env : SchedulerEnv) (state : SchedulerState)

/-- Change the journal. -/
def onJournal (change : RunJournal → RunJournal) : SchedulerState :=
  { state with journal := change state.journal }

/-- An exception in the current turn. -/
def raised : SchedulerState :=
  state.onJournal fun journal => { journal with thrown := true }

/-- Forget the exception of a turn whose caller has taken it. -/
def caught : SchedulerState :=
  state.onJournal fun journal => { journal with thrown := false }

/-- The end of a turn of `run`: an exception rejects the call. -/
def endTurn (phase : RunPhase) : SchedulerState :=
  if state.journal.thrown then { state.caught with phase := .threw }
  else { state with phase := phase }

section

variable (nodeId : DagNodeId)

/-- `disposePromotionWatch`. -/
def disposePromotionWatch : SchedulerState :=
  { state with promotionWatches := state.promotionWatches.filter (· != nodeId) }

/-- `foldPromotion`; `running` is whether the task manager reports the task as
running. -/
def foldPromotion (running : Bool) : SchedulerState :=
  if state.cancellationStarted || !running then state
  else
    let disposed := state.disposePromotionWatch nodeId
    match nodeById disposed.journal.cache nodeId with
    | none => disposed.raised
    | some node =>
      if node.state = .scheduled then
        disposed.onJournal (·.transition env nodeId .running .started)
      else disposed

/-- `watchQueuedPromotion`. -/
def watchQueuedPromotion (running : Bool) : SchedulerState :=
  let disposed := state.disposePromotionWatch nodeId
  let watched :=
    { disposed with promotionWatches := setInsert disposed.promotionWatches nodeId }
  watched.foldPromotion env nodeId running

/-- `attachTaskSettlement`, with the entry of `attachedTaskIds` set before
it. -/
def attachTaskSettlement (taskId : String) : SchedulerState :=
  { state with
    attachedTaskIds := mapSet state.attachedTaskIds nodeId taskId
    attachedTasks := setInsert state.attachedTasks nodeId
    settlementChanged := true }

section

variable (task : StartedTask)

/-- Note the queue position of a task that is not reused. -/
def noteQueued : SchedulerState :=
  match task.reused, task.queuePosition with
  | false, some queuePosition =>
    state.onJournal (·.append env
      (.nodeTransitioned nodeId .scheduled .scheduled (.taskQueued queuePosition)))
  | _, _ => state

/-- The journal events of `attachStarted` behind the attachment itself. -/
def foldStartStatus : SchedulerState :=
  match task.status with
  | .pending =>
    (state.noteQueued env nodeId task).watchQueuedPromotion env nodeId task.runningAtArm
  | .running =>
    state.onJournal (·.transition env nodeId .running (if task.reused then .resumed else .started))
  | _ => state

/-- `attachStarted`. -/
def attachStarted : SchedulerState :=
  match nodeById state.journal.cache nodeId with
  | none => state.raised
  | some node =>
    let attached := state.onJournal (·.append env
      (.nodeTaskAttached nodeId task.taskId (node.attempt + 1)))
    let folded := attached.foldStartStatus env nodeId task
    if folded.journal.thrown then folded
    else folded.attachTaskSettlement nodeId task.taskId

end

/-- `startFailure`. -/
def startFailure : OwnedStartResult → Option (DagNodeErrorCode × String)
  | .depthDenied reason => some (.depthDenied, reason)
  | .planUnresolved message => some (.planUnresolved, message)
  | .startFailed message => some (.startFailed, message)
  | .ownerConflict taskId =>
    some (.startFailed, "DAG task owner conflicts with existing task " ++ taskId)
  | .started _ | .residencyDenied => none

/-- `attachOrFail`. -/
def attachOrFail (result : OwnedStartResult) : SchedulerState :=
  match result with
  | .ownerConflict taskId =>
    state.attachStarted env nodeId
      { taskId := taskId
        status := .running
        reused := true
        queuePosition := none
        runningAtArm := false }
  | .started task => state.attachStarted env nodeId task
  | other =>
    match startFailure other with
    | some (code, message) => state.onJournal (·.failNode env nodeId code message)
    | none => state

/-- `settleOne`, up to its suspension. -/
def settleOne (inAdmission : Bool) : SchedulerState :=
  if state.foreignSettlement then
    { state with foreignSettlement := false, phase := .settled inAdmission }
  else { state with settlementChanged := false, phase := .settling inAdmission }

/-- The transitions of an admission pass. -/
def scheduleNodes (journal : RunJournal) (runnable : List DagNodeId) : RunJournal :=
  runnable.foldl (fun journal id => journal.transition env id .scheduled .scheduled) journal

/-- Hand a batch to `startOwned`. -/
def startBatch (denied runnable : List DagNodeId) : SchedulerState :=
  let journal := (scheduleNodes env state.journal runnable).emitWaveAdmissions env runnable
  let batch := denied ++ runnable
  if journal.thrown then
    { state with journal := journal, pendingAdmission := [] }.endTurn .threw
  else
    { state with
      journal := journal
      pendingAdmission := []
      traffic := state.traffic ++ batch.map fun id => .startOwned id journal.durable
      phase := .starting batch }

/-- One turn of `admitFrontier`, up to its suspension. -/
def admitFrontier : SchedulerState :=
  if state.cancellationStarted then { state with phase := .cancelling }
  else
    match RunJournal.runnableNodes state.journal.cache state.pendingAdmission
        state.journal.cache.nodes with
    | none => { state with pendingAdmission := [] }.raised.endTurn .threw
    | some runnable =>
      if state.pendingAdmission.isEmpty && runnable.isEmpty then
        { state with phase := .admitted }
      else state.startBatch env state.pendingAdmission runnable

/-- One entry of the settled batch, with the nodes denied so far. -/
def foldAnswer (progress : SchedulerState × List DagNodeId)
    (entry : DagNodeId × StartAnswer) : SchedulerState × List DagNodeId :=
  if progress.1.journal.thrown then progress
  else
    match entry.2 with
    | .rejected message =>
      if progress.1.cancellationStarted then progress
      else (progress.1.onJournal (·.failNode env entry.1 .startFailed message), progress.2)
    | .fulfilled result =>
      if progress.1.cancellationStarted then
        match result with
        | .started task => (progress.1.attachStarted env entry.1 task, progress.2)
        | _ => progress
      else if result = .residencyDenied then (progress.1, progress.2 ++ [entry.1])
      else (progress.1.attachOrFail env entry.1 result, progress.2)

/-- Fail every denied node: no attached task can free a slot. -/
def failDenied (journal : RunJournal) (denied : List DagNodeId) : RunJournal :=
  denied.foldl (fun journal id => journal.failNode env id .residencyDenied
    "resident child cap reached and no task can free a slot") journal

/-- The end of an admission pass, with the nodes it was denied. -/
def finishBatch (nextDenied : List DagNodeId) : SchedulerState :=
  if state.journal.thrown then state.endTurn .threw
  else if state.cancellationStarted then { state with phase := .cancelling }
  else if nextDenied.isEmpty then { state with phase := .admitted }
  else if state.attachedTasks.isEmpty then
    { state with
      journal := failDenied env state.journal nextDenied
      pendingAdmission := [] }.endTurn .admitted
  else
    { state with pendingAdmission := state.pendingAdmission ++ nextDenied }.settleOne true

/-- `admitFrontier` resumed with the settled batch. -/
def resumeBatch (batch : List DagNodeId) (answers : List StartAnswer) : SchedulerState :=
  let entries := batch.zip answers
  let answered :=
    { state with
      traffic := state.traffic ++ entries.map fun entry => .answered entry.1 entry.2 }
  let (folded, nextDenied) := entries.foldl (foldAnswer env) (answered, [])
  folded.finishBatch env nextDenied

/-- One turn of the loop of `runFrontier`, up to the suspension of its
admission pass. -/
def runFrontier : SchedulerState :=
  if state.cancellationStarted then { state with phase := .cancelling }
  else
    let cascaded :=
      if state.attachedTasks.isEmpty then
        state.onJournal (·.applyDependentSkipCascade env)
      else state
    if cascaded.journal.thrown then cascaded.endTurn .threw
    else (cascaded.onJournal (·.emitCompletedWaves env)).admitFrontier env

/-- `runFrontier` resumed after its admission pass. -/
def afterAdmission : SchedulerState :=
  if state.journal.cache.nodes.all (·.state.isTerminal) then
    (state.onJournal (·.finishRun env)).endTurn .finished
  else if state.attachedTasks.isEmpty then { state with phase := .threw }
  else state.settleOne false

/-- `settleOne` resumed with the settlement of a node's task. -/
def foldSettlement (settlement : Settlement) : SchedulerState :=
  let detached :=
    { state with
      attachedTasks := state.attachedTasks.erase nodeId
      attachedTaskIds := mapDelete state.attachedTaskIds nodeId
      traffic := state.traffic ++ [TaskTraffic.settled nodeId settlement] }
  let disposed := detached.disposePromotionWatch nodeId
  match settlement with
  | .error message => disposed.onJournal (·.failNode env nodeId .taskError message)
  | .record task _ => disposed.onJournal (·.foldTaskOutcome env nodeId task)

end

/-- `cancelRun`. -/
def cancelRun (runId : DagRunId) (reason : Option String) : SchedulerState :=
  if state.journal.cache.runId ≠ runId then state
  else if state.journal.cache.status.isTerminal then state
  else if state.cancellation ≠ .none then state
  else { state with cancellationStarted := true, cancellation := .awaitingIdle reason }

variable (reason : Option String)

/-- `performCancellation` behind `whenAdmissionIdle`. -/
def cancelTasks : SchedulerState :=
  { state with
    promotionWatches := []
    traffic := state.traffic ++ state.attachedTaskIds.map fun entry =>
      .cancelTask entry.2 reason
    cancellation := .cancellingTasks reason }

/-- `performCancellation` behind the cancelled tasks. -/
def cancelRemaining : SchedulerState :=
  { state with
    journal := state.journal.finishCancellation env reason
    attachedTaskIds := []
    cancellation := .done }.caught

end SchedulerState

/-- The actions of the machine. -/
inductive SchedulerAction
  /-- `scheduler.run()`. -/
  | run
  /-- Every `startOwned` of the batch has settled. -/
  | batchAnswered (answers : List StartAnswer)
  /-- `runFrontier` resumes behind `admitFrontier`. -/
  | admissionReturned
  /-- The race of `settleOne` is won by a task. -/
  | taskSettled (nodeId : DagNodeId) (settlement : Settlement)
  /-- The race of `settleOne` is won by the settlement signal. -/
  | settlementSignalled
  /-- The race of `settleOne` is won by the cancellation. -/
  | cancellationObserved
  /-- The loop around `settleOne` resumes. -/
  | settleReturned
  /-- A child event finds a queued task running. -/
  | promoted (nodeId : DagNodeId)
  /-- `scheduler.cancel(runId, reason)`. -/
  | cancel (runId : DagRunId) (reason : Option String)
  /-- `whenAdmissionIdle` has resolved. -/
  | admissionIdle
  /-- Every `cancelTask` has settled. -/
  | tasksCancelled
  /-- `cancellationCompleted` has resolved. -/
  | cancelledReturned
  /-- Another journal instance commits. -/
  | foreignCommit (record : DagRunRecordV1)
  /-- The journal subscription delivers an event. -/
  | foreignEvent (event : DagRunEvent)
  /-- `journal.refresh()`. -/
  | refresh
  deriving DecidableEq

/-- Refresh the cached snapshot. -/
def RunJournal.refresh (journal : RunJournal) : RunJournal :=
  { journal with cache := journal.durable }

/-- The subscription callback of `createDagScheduler`. -/
def SchedulerState.onForeignEvent (state : SchedulerState) (event : DagRunEvent) : SchedulerState :=
  if state.journal.cache.checkpointSeq < event.seq then
    let refreshed := state.onJournal RunJournal.refresh
    match event.payload with
    | .nodeTransitioned _ _ target _ =>
      if target.isTerminal then
        { refreshed with foreignSettlement := true, settlementChanged := true }
      else refreshed
    | _ => refreshed
  else state

/-- `run`, up to its first suspension. -/
def SchedulerState.startRun (env : SchedulerEnv) (state : SchedulerState) : SchedulerState :=
  let started :=
    if state.journal.cache.status = .pending then
      state.onJournal fun journal =>
        journal.append env (.runStarted journal.cache.generation)
    else state
  started.runFrontier env

/-- One step of the scheduler.  Continuations resume in the order in which
they were queued, so the one of `whenAdmissionIdle` comes behind a resumption
of `runFrontier` that is already queued. -/
def schedulerStep (env : SchedulerEnv) (state : SchedulerState) :
    SchedulerAction → Option SchedulerState
  | .run => if state.phase = .idle then some (state.startRun env) else none
  | .batchAnswered answers =>
    match state.phase with
    | .starting batch =>
      if answers.length = batch.length then
        some (state.resumeBatch env batch answers)
      else none
    | _ => none
  | .admissionReturned =>
    if state.phase = .admitted then some (state.afterAdmission env) else none
  | .taskSettled nodeId settlement =>
    match state.phase with
    | .settling inAdmission =>
      if nodeId ∈ state.attachedTasks then
        if state.cancellationStarted then some { state with phase := .cancelling }
        else some ((state.foldSettlement env nodeId settlement).endTurn (.settled inAdmission))
      else none
    | _ => none
  | .settlementSignalled =>
    match state.phase with
    | .settling inAdmission =>
      if state.settlementChanged then some { state with phase := .settled inAdmission }
      else none
    | _ => none
  | .cancellationObserved =>
    match state.phase with
    | .settling _ =>
      if state.cancellationStarted then some { state with phase := .cancelling }
      else none
    | _ => none
  | .settleReturned =>
    match state.phase with
    | .settled true => some (state.admitFrontier env)
    | .settled false => some (state.runFrontier env)
    | _ => none
  | .promoted nodeId =>
    if nodeId ∈ state.promotionWatches then
      some (state.foldPromotion env nodeId true).caught
    else none
  | .cancel runId reason => some (state.cancelRun runId reason)
  | .admissionIdle =>
    match state.cancellation, state.phase with
    | .awaitingIdle _, .starting _ => none
    | .awaitingIdle _, .admitted => none
    | .awaitingIdle reason, _ => some (state.cancelTasks reason)
    | _, _ => none
  | .tasksCancelled =>
    match state.cancellation with
    | .cancellingTasks reason => some (state.cancelRemaining env reason)
    | _ => none
  | .cancelledReturned =>
    if state.phase = .cancelling ∧ state.cancellation = .done then
      some { state with phase := .finished }
    else none
  | .foreignCommit record =>
    some (state.onJournal fun journal => { journal with durable := record })
  | .foreignEvent event => some (state.onForeignEvent event)
  | .refresh => some (state.onJournal RunJournal.refresh)

/-- What each action of the machine needs and does. -/
inductive SchedulerMove (env : SchedulerEnv) (state : SchedulerState) :
    SchedulerAction → SchedulerState → Prop
  | run (phase : state.phase = .idle) : SchedulerMove env state .run (state.startRun env)
  | batchAnswered (phase : state.phase = .starting batch) (length : answers.length = batch.length) :
      SchedulerMove env state (.batchAnswered answers) (state.resumeBatch env batch answers)
  | admissionReturned (phase : state.phase = .admitted) :
      SchedulerMove env state .admissionReturned (state.afterAdmission env)
  | settledLate (phase : state.phase = .settling inAdmission)
      (attached : nodeId ∈ state.attachedTasks) (cancelling : state.cancellationStarted = true) :
      SchedulerMove env state (.taskSettled nodeId settlement) { state with phase := .cancelling }
  | taskSettled (phase : state.phase = .settling inAdmission)
      (attached : nodeId ∈ state.attachedTasks) (running : state.cancellationStarted = false) :
      SchedulerMove env state (.taskSettled nodeId settlement)
        ((state.foldSettlement env nodeId settlement).endTurn (.settled inAdmission))
  | settlementSignalled (phase : state.phase = .settling inAdmission)
      (changed : state.settlementChanged = true) :
      SchedulerMove env state .settlementSignalled { state with phase := .settled inAdmission }
  | cancellationObserved (phase : state.phase = .settling inAdmission)
      (cancelling : state.cancellationStarted = true) :
      SchedulerMove env state .cancellationObserved { state with phase := .cancelling }
  | admits (phase : state.phase = .settled true) :
      SchedulerMove env state .settleReturned (state.admitFrontier env)
  | loops (phase : state.phase = .settled false) :
      SchedulerMove env state .settleReturned (state.runFrontier env)
  | promoted (watched : nodeId ∈ state.promotionWatches) :
      SchedulerMove env state (.promoted nodeId) (state.foldPromotion env nodeId true).caught
  | cancelIgnored : SchedulerMove env state (.cancel runId reason) state
  | cancel (openRun : state.journal.cache.status.isTerminal = false)
      (fresh : state.cancellation = .none) : SchedulerMove env state (.cancel runId reason)
        { state with cancellationStarted := true, cancellation := .awaitingIdle reason }
  | admissionIdle (awaiting : state.cancellation = .awaitingIdle reason)
      (notStarting : ∀ batch, state.phase ≠ .starting batch)
      (notAdmitted : state.phase ≠ .admitted) :
      SchedulerMove env state .admissionIdle (state.cancelTasks reason)
  | tasksCancelled (cancelling : state.cancellation = .cancellingTasks reason) :
      SchedulerMove env state .tasksCancelled (state.cancelRemaining env reason)
  | cancelledReturned (phase : state.phase = .cancelling) (done : state.cancellation = .done) :
      SchedulerMove env state .cancelledReturned { state with phase := .finished }
  | foreignCommit : SchedulerMove env state (.foreignCommit record)
        (state.onJournal fun journal => { journal with durable := record })
  | foreignStale : SchedulerMove env state (.foreignEvent event) state
  | foreignEvent : SchedulerMove env state (.foreignEvent event) (state.onJournal .refresh)
  | foreignSettlement : SchedulerMove env state (.foreignEvent event)
        { state.onJournal .refresh with foreignSettlement := true, settlementChanged := true }
  | refresh : SchedulerMove env state .refresh (state.onJournal .refresh)

theorem SchedulerMove.of_step (stepped : schedulerStep env state action = some next) :
    SchedulerMove env state action next := by
  revert stepped
  fun_cases schedulerStep env state action <;> intro stepped <;> cases stepped
  case case1 phase => exact .run phase
  case case3 phase length => exact .batchAnswered phase length
  case case6 phase => exact .admissionReturned phase
  case case8 phase attached cancelling => exact .settledLate phase attached cancelling
  case case9 phase attached running =>
    exact .taskSettled phase attached (Bool.eq_false_iff.mpr running)
  case case12 phase changed => exact .settlementSignalled phase changed
  case case15 phase cancelling => exact .cancellationObserved phase cancelling
  case case18 phase => exact .admits phase
  case case19 phase => exact .loops phase
  case case21 watched => exact .promoted watched
  case case23 runId reason =>
    fun_cases SchedulerState.cancelRun state runId reason
    case case4 openRun fresh => exact .cancel (Bool.eq_false_iff.mpr openRun) (not_not.mp fresh)
    all_goals exact .cancelIgnored
  case case26 awaiting notStarting notAdmitted =>
    exact .admissionIdle awaiting notStarting notAdmitted
  case case28 cancelling => exact .tasksCancelled cancelling
  case case30 ended => exact .cancelledReturned ended.1 ended.2
  case case32 => exact .foreignCommit
  case case33 event =>
    fun_cases SchedulerState.onForeignEvent state event
    case case1 => exact .foreignSettlement
    case case2 | case3 => exact .foreignEvent
    case case4 => exact .foreignStale
  case case34 => exact .refresh

/-- The scheduler that `createDagScheduler` returns. -/
def SchedulerState.initial (record : DagRunRecordV1) (files : ResultFiles)
    (preAttachedTasks : List (DagNodeId × String)) : SchedulerState :=
  preAttachedTasks.foldl (fun state entry => state.attachTaskSettlement entry.1 entry.2)
    { journal :=
        { durable := record
          cache := record
          log := []
          files := files
          tables := SideTables.empty
          emittedWaveAdmissions := []
          emittedWaveCompletions := []
          thrown := false }
      attachedTaskIds := []
      attachedTasks := []
      pendingAdmission := []
      promotionWatches := []
      cancellationStarted := false
      foreignSettlement := false
      settlementChanged := false
      phase := .idle
      cancellation := .none
      traffic := [] }

end OpenAgent.Dag
