import Mathlib.Algebra.GroupWithZero.Nat
import OpenAgent.Library.Execution

/-!
# The gate for internal prompts

`prompt-async-gate.ts` with its queue, reservations and table of recent dispatches, for one
session.  A step runs from one promise that settles, one timer or one call to the next `await`
of every function that it reaches.  A call for another session can release an expired
reservation of this one, which is a step of its own.
-/

namespace OpenAgent.PromptGate

abbrev Text := List Char
abbrev CallId := Nat
abbrev OperationId := Nat

/-- `mode` of a call. -/
inductive DispatchMode
  | async
  | sync

/-- `queueBehavior` of a call. -/
inductive QueueBehavior
  | enqueue
  | defer

/-- `InternalPromptDispatchArgs`, as far as the gate reads it, with the methods that the client
has.  The dedupe key is the given one, or that of the input. -/
structure InternalPromptDispatchArgs where
  mode : DispatchMode
  source : Text
  dedupeKey : Text
  queueBehavior : Option QueueBehavior
  queue : Option Bool
  queueRetryMs : Option Nat
  settleMs : Option Nat
  postDispatchHoldMs : Option Nat
  semanticDedupeHoldMs : Option Nat
  checkStatus : Option Bool
  checkToolState : Option Bool
  durableRetry : Option Bool
  hasDispatch : Bool
  hasStatus : Bool
  hasMessages : Bool

/-- A prompt with the defaults of `dispatchInternalPrompt`. -/
structure Prompt where
  source : Text
  dedupeKey : Text
  settleMs : Nat
  postDispatchHoldMs : Nat
  semanticDedupeHoldMs : Nat
  queueRetryMs : Nat
  /-- `checkStatus`, where the client has a status. -/
  readsStatus : Bool
  /-- `checkToolState`, where the client has messages. -/
  readsToolState : Bool
  durableRetry : Bool
  deriving DecidableEq

namespace InternalPromptDispatchArgs

variable (args : InternalPromptDispatchArgs)

/-- `DEFAULT_PROMPT_ASYNC_POST_DISPATCH_HOLD_MS`. -/
def postDispatchHold : Nat :=
  args.postDispatchHoldMs.getD 2000

/-- `DEFAULT_PROMPT_SEMANTIC_DEDUPE_HOLD_MS`, for a prompt with a post dispatch hold. -/
def semanticDedupeHold : Nat :=
  args.semanticDedupeHoldMs.getD (if 0 < args.postDispatchHold then 15000 else 0)

/-- `DEFAULT_SESSION_IDLE_SETTLE_MS` and `DEFAULT_PROMPT_QUEUE_RETRY_MS` among the defaults. -/
def prompt : Prompt where
  source := args.source
  dedupeKey := args.dedupeKey
  settleMs := args.settleMs.getD 150
  postDispatchHoldMs := args.postDispatchHold
  semanticDedupeHoldMs := args.semanticDedupeHold
  queueRetryMs := args.queueRetryMs.getD 250
  readsStatus := args.checkStatus.getD true && args.hasStatus
  readsToolState := args.checkToolState.getD true && args.hasMessages
  durableRetry := args.durableRetry.getD false

def behavior : QueueBehavior :=
  args.queueBehavior.getD (match args.mode with | .sync => .defer | .async => .enqueue)

end InternalPromptDispatchArgs

/-- `QueuedInternalPrompt`. -/
structure Entry where
  id : CallId
  prompt : Prompt
  deriving DecidableEq

/-- `InternalPromptDispatchResult`. -/
inductive DispatchResult
  | dispatched
  | queued (queuedBy : Text) (position : Nat)
  | active
  | reserved (reservedBy : Text)
  | cancelled
  | unavailable
  | failed (dispatchAttempted queueRetryable : Bool)
  deriving DecidableEq

/-- `retryableQueuedFailure`. -/
def DispatchResult.isRetryable : DispatchResult → Bool
  | failed dispatchAttempted queueRetryable => !dispatchAttempted || queueRetryable
  | _ => false

/-- The `await` at which a call of `dispatchAfterSessionIdle` stands. -/
inductive Stage
  | settling
  | readingStatus
  | readingTools
  | deciding
  | dispatching
  /-- The call has returned to the function that awaits it. -/
  | returned (result : DispatchResult)
  /-- A callback has thrown in its error path. -/
  | thrown
  deriving DecidableEq

/-- A call of `dispatchAfterSessionIdle`. -/
structure Dispatch where
  call : CallId
  prompt : Prompt
  token : Nat
  stage : Stage

/-- A call of `drainPromptQueue`, with the entry that its caller awaits. -/
structure Drain where
  awaited : Option Entry
  awaitedResult : Option DispatchResult
  deferredRetryIds : List CallId
  deriving DecidableEq

/-- The result of an entry is that of the caller if it awaits this entry. -/
def Drain.settle (drain : Drain) (id : CallId) (result : DispatchResult) : Drain :=
  if drain.awaited.map (·.id) = some id then { drain with awaitedResult := some result }
  else drain

/-- What awaits a dispatch. -/
inductive Awaiter
  | drain (drain : Drain)
  /-- A deferred or direct call of `dispatchInternalPrompt`. -/
  | caller
  deriving DecidableEq

structure Operation where
  awaiter : Awaiter
  dispatch : Dispatch

/-- What `shouldDispatch` returns when it is reached: nothing or `true`, `false`, a promise, or
an exception. -/
inductive Decision
  | proceed
  | cancel
  | pending
  | throws

/-- How the promise of a stage settles. -/
inductive Answer
  | settled
  | status (isActive : Bool)
  | toolState (blocks : Bool)
  | decided (proceeds : Bool)
  | accepted
  /-- Failure, with the answer of `retryDispatchFailure` where it is asked. -/
  | failed (isRetryable : Bool)
  /-- Failure behind which `retryDispatchFailure` throws. -/
  | callbackThrew
  deriving DecidableEq

structure RetryState where
  failureCount : Nat
  retryAfter : Option Nat

/-- `PromptAsyncReservation`. -/
structure Reservation where
  source : Text
  dedupeKey : Text
  token : Nat
  expiresAt : Option Nat

/-- `RecentPromptDispatch`. -/
structure RecentDispatch where
  source : Text
  expiresAt : Nat

/-- What the callers of the gate can tell. -/
inductive Event
  | entered (call : CallId)
  /-- The dispatch function of a call was invoked. -/
  | invoked (call : CallId) (dedupeKey : Text) (time : Nat)
  /-- Its attempt ended. -/
  | ended (call : CallId) (dedupeKey : Text) (time : Nat) (semanticHold : Nat)
  /-- A reservation was released. -/
  | released
  deriving DecidableEq

structure Gate where
  now : Nat
  queue : List Entry
  draining : Bool
  inFlight : Option Entry
  /-- When the drain timer is due. -/
  timer : Option Nat
  retryStates : CallId → Option RetryState
  reservation : Option Reservation
  recent : Text → Option RecentDispatch
  operations : OperationId → Option Operation
  nextOperation : OperationId
  nextCall : CallId
  nextToken : Nat
  replies : List (CallId × DispatchResult)
  log : List Event

namespace Gate

def start : Gate where
  now := 0
  queue := []
  draining := false
  inFlight := none
  timer := none
  retryStates := fun _ => none
  reservation := none
  recent := fun _ => none
  operations := fun _ => none
  nextOperation := 0
  nextCall := 0
  nextToken := 0
  replies := []
  log := []

variable (gate : Gate)

def setQueue (queue : List Entry) : Gate :=
  { gate with queue }

def setInFlight (inFlight : Option Entry) : Gate :=
  { gate with inFlight }

def setTimer (timer : Option Nat) : Gate :=
  { gate with timer }

def setDraining (draining : Bool) : Gate :=
  { gate with draining }

def setReservation (reservation : Option Reservation) : Gate :=
  { gate with reservation }

def setRetryState (id : CallId) (state : Option RetryState) : Gate :=
  { gate with retryStates := Function.update gate.retryStates id state }

section

variable (id : OperationId)

def setOperation (operation : Option Operation) : Gate :=
  { gate with operations := Function.update gate.operations id operation }

def reply (call : CallId) (result : DispatchResult) : Gate :=
  { gate with replies := gate.replies ++ [(call, result)] }

def note (event : Event) : Gate :=
  { gate with log := gate.log ++ [event] }

/-- `schedulePromptQueueDrain`. -/
def schedule (delayMs : Nat) : Gate :=
  gate.setTimer (if gate.queue = [] then none else some (gate.now + delayMs))

/-- `removePromptQueueEntry`. -/
def removeEntry (id : CallId) : Gate :=
  (gate.setRetryState id none).setQueue (gate.queue.filter fun queued => queued.id ≠ id)

/-- `pruneExpiredReservations`, with the handler for expired ones. -/
def pruneReservation : Gate :=
  match gate.reservation.bind (·.expiresAt) with
  | none => gate
  | some expiresAt =>
    if expiresAt ≤ gate.now then (gate.setReservation none).schedule 0 else gate

/-- `finishPromptReservation`. -/
def finishReservation (token : Nat) (dispatchAttempted : Bool) (postDispatchHoldMs : Nat) : Gate :=
  match gate.reservation with
  | none => gate
  | some current =>
    if current.token ≠ token then gate
    else if dispatchAttempted ∧ 0 < postDispatchHoldMs then
      gate.setReservation (some { current with expiresAt := some (gate.now + postDispatchHoldMs) })
    else gate.setReservation none

/-- `getRecentPromptDispatch`.  What has expired is passed over here, and is not pruned. -/
def recentDispatch (dedupeKey : Text) : Option RecentDispatch :=
  (gate.recent dedupeKey).filter fun dispatch => gate.now < dispatch.expiresAt

/-- `rememberRecentPromptDispatch`. -/
def remember (prompt : Prompt) : Gate :=
  if prompt.semanticDedupeHoldMs = 0 then gate
  else
    { gate with recent := Function.update gate.recent prompt.dedupeKey (some
        { source := prompt.source, expiresAt := gate.now + prompt.semanticDedupeHoldMs }) }

section

variable (dispatch : Dispatch)

/-- The `finally` block and the return. -/
def finish (dispatchAttempted : Bool) (stage : Stage) : Gate × Dispatch :=
  (gate.finishReservation dispatch.token dispatchAttempted dispatch.prompt.postDispatchHoldMs,
    { dispatch with stage })

/-- The call of the dispatch function. -/
def invoke : Gate × Dispatch :=
  (gate.note (.invoked dispatch.call dispatch.prompt.dedupeKey gate.now),
    { dispatch with stage := .dispatching })

/-- From the call of `shouldDispatch` on. -/
def decide : Decision → Gate × Dispatch
  | .proceed => gate.invoke dispatch
  | .cancel => gate.finish dispatch false (.returned .cancelled)
  | .pending => (gate, { dispatch with stage := .deciding })
  | .throws => gate.finish dispatch false (.returned (.failed false false))

def afterStatus (decision : Decision) : Gate × Dispatch :=
  if dispatch.prompt.readsToolState then (gate, { dispatch with stage := .readingTools })
  else gate.decide dispatch decision

def afterSettle (decision : Decision) : Gate × Dispatch :=
  if dispatch.prompt.readsStatus then (gate, { dispatch with stage := .readingStatus })
  else gate.afterStatus dispatch decision

end

/-- `dispatchAfterSessionIdle`, up to its first `await`. -/
def dispatchAfterSessionIdle (call : CallId) (prompt : Prompt) (decision : Decision) :
    Gate × Dispatch :=
  let gate := gate.pruneReservation
  let token := gate.nextToken
  match gate.reservation with
  | some existing => (gate, { call, prompt, token, stage := .returned (.reserved existing.source) })
  | none =>
    let reserved := { gate with
      reservation := some
        { source := prompt.source, dedupeKey := prompt.dedupeKey, token, expiresAt := none }
      nextToken := token + 1 }
    let dispatch : Dispatch := { call, prompt, token, stage := .settling }
    if 0 < prompt.settleMs then (reserved, dispatch)
    else reserved.afterSettle dispatch decision

/-- The end of an attempt. -/
def endAttempt (dispatch : Dispatch) : Gate :=
  gate.note (.ended dispatch.call dispatch.prompt.dedupeKey gate.now
    dispatch.prompt.semanticDedupeHoldMs)

/-- `dispatchAfterSessionIdle` goes on behind an `await`. -/
def proceed (dispatch : Dispatch) (answer : Answer) (decision : Decision) :
    Option (Gate × Dispatch) :=
  match dispatch.stage, answer with
  | .settling, .settled => some (gate.afterSettle dispatch decision)
  | .readingStatus, .status isActive =>
    if isActive then some (gate.finish dispatch false (.returned .active))
    else some (gate.afterStatus dispatch decision)
  | .readingTools, .toolState blocks =>
    if blocks then some (gate.finish dispatch false (.returned .active))
    else some (gate.decide dispatch decision)
  | .readingTools, .failed _ =>
    some (gate.finish dispatch false (.returned (.failed false false)))
  | .deciding, .decided proceeds =>
    if proceeds then some (gate.invoke dispatch)
    else some (gate.finish dispatch false (.returned .cancelled))
  | .deciding, .failed _ =>
    some (gate.finish dispatch false (.returned (.failed false false)))
  | .dispatching, .accepted =>
    some (((gate.endAttempt dispatch).remember dispatch.prompt).finish dispatch true
      (.returned .dispatched))
  | .dispatching, .failed isRetryable =>
    some (((gate.endAttempt dispatch).remember dispatch.prompt).finish dispatch true
      (.returned (.failed true isRetryable)))
  | .dispatching, .callbackThrew =>
    some ((gate.endAttempt dispatch).finish dispatch true .thrown)
  | _, _ => none

variable (drain : Drain)

/-- The `finally` block and the return. -/
def endDrain : Gate :=
  let ended := (gate.setDraining false).setOperation id none
  match drain.awaited with
  | none => ended
  | some entry =>
    ended.reply entry.id (drain.awaitedResult.getD (.queued entry.prompt.source 1))

def retryAfter (gate : Gate) (id : CallId) : Option Nat :=
  (gate.retryStates id).bind (·.retryAfter)

/-- A durable entry whose retry is not due. -/
def isPutOff (entry : Entry) : Bool :=
  entry.prompt.durableRetry && (gate.retryAfter entry.id).any fun time => gate.now < time

/-- The earliest retry of the queue. -/
def nextRetryAt : Nat :=
  ((gate.queue.filterMap fun queued => gate.retryAfter queued.id).min?).getD 0

/-- The loop of `drainPromptQueue`, up to its `await` or its end.  Each turn without an `await`
puts another entry off. -/
def drainLoop (turns : Nat) (id : OperationId) (drain : Drain) (decision : Decision)
    (gate : Gate) : Option Gate :=
  match turns with
  | 0 => none
  | turns + 1 =>
    match gate.queue with
    | [] => some (gate.endDrain id drain)
    | entry :: rest =>
      if gate.isPutOff entry then
        if entry.id ∈ drain.deferredRetryIds then
          some ((gate.schedule (gate.nextRetryAt - gate.now)).endDrain id drain)
        else
          (gate.setQueue (rest ++ [entry])).drainLoop turns id
            { drain with deferredRetryIds := entry.id :: drain.deferredRetryIds } decision
      else
        let (reached, dispatch) :=
          (gate.setInFlight (some entry)).dispatchAfterSessionIdle entry.id entry.prompt decision
        some (reached.setOperation id (some { awaiter := .drain drain, dispatch }))

/-- The loop, with as many turns as it can take. -/
def runDrain (decision : Decision) : Option Gate :=
  gate.drainLoop (gate.queue.length + 1) id drain decision

/-- `drainPromptQueue` in front of its loop. -/
def beginDrain : Gate :=
  { gate with draining := true, timer := none, nextOperation := gate.nextOperation + 1 }

/-- `drainPromptQueue`. -/
def drainPromptQueue (awaited : Option Entry) (decision : Decision) : Option Gate :=
  if gate.draining then
    match awaited with
    | none => some gate
    | some entry => some (gate.reply entry.id (.queued entry.prompt.source 1))
  else
    gate.beginDrain.runDrain gate.nextOperation
      { awaited, awaitedResult := none, deferredRetryIds := [] } decision

/-- `promptQueueInFlight` behind the `await`. -/
def land (id : CallId) : Gate :=
  if gate.inFlight.map (·.id) = some id then gate.setInFlight none else gate

def failureCount (gate : Gate) (id : CallId) : Nat :=
  ((gate.retryStates id).map (·.failureCount)).getD 0

/-- `retryDelayMs` of a durable entry, with `MAX_DURABLE_RETRY_BACKOFF_MS`. -/
def retryDelay (prompt : Prompt) (failureCount : Nat) : Nat :=
  max prompt.postDispatchHoldMs (min (prompt.queueRetryMs * 2 ^ min failureCount 7) 30000)

/-- The entry stays in the queue, and the drain ends. -/
def postpone (entry : Entry) (queuedBy : Text) : Gate :=
  (gate.schedule entry.prompt.queueRetryMs).endDrain id
    (drain.settle entry.id (.queued queuedBy 1))

/-- A retryable failure of an entry, with `MAX_QUEUED_RETRYABLE_FAILURES`. -/
def retryLater (entry : Entry) (result : DispatchResult) (decision : Decision) : Option Gate :=
  let failureCount := gate.failureCount entry.id + 1
  if entry.prompt.durableRetry then
    let delayMs := retryDelay entry.prompt failureCount
    let noted := gate.setRetryState entry.id (some
      { failureCount, retryAfter := some (gate.now + delayMs) })
    if 1 < noted.queue.length then
      (noted.setQueue (noted.queue.tail ++ [entry])).runDrain id drain decision
    else some ((noted.schedule delayMs).endDrain id drain)
  else if 3 ≤ failureCount then
    (gate.removeEntry entry.id).runDrain id (drain.settle entry.id result) decision
  else
    some ((gate.setRetryState entry.id (some { failureCount, retryAfter := none })).postpone id
      drain entry entry.prompt.source)

/-- `drainPromptQueue` goes on with the result of a dispatch. -/
def continueDrain (entry : Entry) (result : DispatchResult) (decision : Decision) : Option Gate :=
  let landed := gate.land entry.id
  if result.isRetryable then landed.retryLater id drain entry result decision
  else
    match result with
    | .active => some (landed.postpone id drain entry entry.prompt.source)
    | .reserved reservedBy => some (landed.postpone id drain entry reservedBy)
    | _ =>
      let removed := landed.removeEntry entry.id
      if removed.queue = [] then some (removed.endDrain id (drain.settle entry.id result))
      else
        some ((removed.schedule entry.prompt.postDispatchHoldMs).endDrain id
          (drain.settle entry.id result))

end

/-- `enqueueInternalPrompt`. -/
def enqueueInternalPrompt (entry : Entry) (decision : Decision) : Option Gate :=
  let pruned := gate.pruneReservation
  match pruned.reservation.filter fun active => active.dedupeKey = entry.prompt.dedupeKey with
  | some active => some (pruned.reply entry.id (.queued active.source 0))
  | none =>
    match pruned.queue.find? fun queued =>
      queued.prompt.dedupeKey = entry.prompt.dedupeKey with
    | some existing =>
      some (pruned.reply entry.id
        (.queued existing.prompt.source (pruned.queue.idxOf existing + 1)))
    | none =>
      let pushed := pruned.setQueue (pruned.queue ++ [entry])
      if 1 < pushed.queue.length ∨ pushed.draining then
        some ((pushed.schedule 0).reply entry.id (.queued entry.prompt.source pushed.queue.length))
      else pushed.drainPromptQueue (some entry) decision

/-- `getQueuedPromptBlocker`. -/
def queuedPromptBlocker : Option Text :=
  match gate.inFlight with
  | some entry => some entry.prompt.source
  | none => gate.queue.head?.map (·.prompt.source)

def setNextOperation (nextOperation : OperationId) : Gate :=
  { gate with nextOperation }

/-- A dispatch that the call itself awaits. -/
def dispatchDirectly (call : CallId) (prompt : Prompt) (decision : Decision) : Gate :=
  let (reached, dispatch) :=
    (gate.setNextOperation (gate.nextOperation + 1)).dispatchAfterSessionIdle call prompt decision
  reached.setOperation gate.nextOperation (some { awaiter := .caller, dispatch })

/-- `dispatchInternalPrompt`, from the resolved client on. -/
def dispatchInternalPrompt (args : InternalPromptDispatchArgs) (decision : Decision) :
    Option Gate :=
  let call := gate.nextCall
  let prompt := args.prompt
  let entered := { gate with nextCall := call + 1 }.note (.entered call)
  if !args.hasDispatch then some (entered.reply call .unavailable)
  else
    match args.behavior with
    | .defer =>
      let pruned := entered.pruneReservation
      match pruned.reservation with
      | some active => some (pruned.reply call (.reserved active.source))
      | none =>
        if pruned.queuedPromptBlocker.isSome ∨ pruned.draining then
          some (pruned.reply call (.reserved (pruned.queuedPromptBlocker.getD prompt.source)))
        else
          match pruned.recentDispatch prompt.dedupeKey with
          | some recent => some (pruned.reply call (.queued recent.source 0))
          | none => some (pruned.dispatchDirectly call prompt decision)
    | .enqueue =>
      match entered.recentDispatch prompt.dedupeKey with
      | some recent => some (entered.reply call (.queued recent.source 0))
      | none =>
        if args.queue.getD true then
          entered.enqueueInternalPrompt { id := call, prompt } decision
        else some (entered.dispatchDirectly call prompt decision)

/-- The source of a release with its options. -/
structure ReleaseRequest where
  /-- `reservedBy`, or the source of the call. -/
  expectedSources : List Text
  reservedByPrefixes : List Text
  supersedeTransientRetryOwners : Bool

/-- `TRANSIENT_RETRY_RESERVATION_OWNER`. -/
def transientRetryOwner : Text := "model-suggestion-retry".toList

def isTransientRetryOwner (source : Text) : Bool :=
  source = transientRetryOwner || (transientRetryOwner ++ [':']).isPrefixOf source

/-- `reservationSourceMatches`. -/
def sourceMatches (source : Text) (request : ReleaseRequest) : Bool :=
  request.expectedSources.contains source ||
    request.supersedeTransientRetryOwners && isTransientRetryOwner source ||
    request.reservedByPrefixes.any fun start =>
      start.getLast? = some ':' && start.isPrefixOf source

/-- `releaseInFlightPromptMatchingDedupe`. -/
def releaseInFlight (dedupeKey : Text) : Gate :=
  match gate.inFlight with
  | none => gate
  | some entry =>
    if entry.prompt.dedupeKey = dedupeKey then
      ((gate.removeEntry entry.id).setInFlight none).setDraining false
    else gate

/-- `releasePromptAsyncReservation`. -/
def releaseReservation (request : ReleaseRequest) : Gate :=
  match gate.reservation with
  | none => gate
  | some existing =>
    if sourceMatches existing.source request then
      let forgotten :=
        { gate.setReservation none with
          recent := Function.update gate.recent existing.dedupeKey none }
      ((forgotten.releaseInFlight existing.dedupeKey).schedule 0).note .released
    else gate

/-- A step of the gate. -/
inductive Label
  | call (args : InternalPromptDispatchArgs) (decision : Decision)
  /-- The drain timer fires. -/
  | fire (decision : Decision)
  /-- The promise of a stage settles. -/
  | settle (id : OperationId) (answer : Answer) (decision : Decision)
  /-- The function behind a dispatch that has ended goes on. -/
  | continue (id : OperationId) (decision : Decision)
  | release (request : ReleaseRequest)
  /-- A call for another session looks for expired reservations. -/
  | prune
  | tick (elapsed : Nat)

/-- The function that awaits a dispatch goes on. -/
def continueOperation (id : OperationId) (operation : Operation) (decision : Decision) :
    Option Gate :=
  let dispatch := operation.dispatch
  match dispatch.stage, operation.awaiter with
  | .returned result, .drain drain =>
    gate.continueDrain id drain { id := dispatch.call, prompt := dispatch.prompt } result decision
  | .returned result, .caller => some ((gate.setOperation id none).reply dispatch.call result)
  | .thrown, .drain _ => some ((gate.setDraining false).setOperation id none)
  | .thrown, .caller => some (gate.setOperation id none)
  | _, _ => none

def step : Label → Option Gate
  | .call args decision => gate.dispatchInternalPrompt args decision
  | .fire decision =>
    if gate.timer.any fun due => due ≤ gate.now then
      (gate.setTimer none).drainPromptQueue none decision
    else none
  | .settle id answer decision =>
    (gate.operations id).bind fun operation =>
      (gate.proceed operation.dispatch answer decision).map fun (reached, dispatch) =>
        reached.setOperation id (some { operation with dispatch })
  | .continue id decision =>
    (gate.operations id).bind fun operation => gate.continueOperation id operation decision
  | .release request => some (gate.releaseReservation request)
  | .prune => some gate.pruneReservation
  | .tick elapsed => some { gate with now := gate.now + elapsed }

end Gate

end OpenAgent.PromptGate
