import OpenAgent.Library.Collections
import OpenAgent.Library.Execution
import OpenAgent.Tasks.TaskRecord

/-!
# The completion notifier

A child that ends is announced to its parent session.  While the parent is between
states the announcement waits in a buffer that the next session start flushes; an
announcement that fails is tried again by a timer; and a session that starts looks
through the records for announcements that are still owed.  An announcement that came
through is noted in the record as its notified epoch.
-/

namespace OpenAgent.Tasks

open Library

/-- What the notifier reads and writes of a task record. -/
structure NotificationRecord where
  taskId : String
  parentSessionId : String
  status : TaskStatus
  notifyOnTerminal : Bool
  runEpoch : Nat
  notifiedEpoch : Int
  notificationFailedEpoch : Option Nat

/-- The stored records, one for each task. -/
structure NotificationStore where
  records : List NotificationRecord
  unique : (records.map NotificationRecord.taskId).Nodup

namespace NotificationStore

variable (store : NotificationStore)

def load (taskId : String) : Option NotificationRecord :=
  store.records.find? (·.taskId = taskId)

/-- Change the record of a task where it stands.  A task without a record is left
alone. -/
def mutate (taskId : String) (mutation : NotificationRecord → NotificationRecord)
    (keepsTask : ∀ stored, (mutation stored).taskId = stored.taskId) : NotificationStore where
  records := store.records.map fun stored =>
    if stored.taskId = taskId then mutation stored else stored
  unique := by
    have sameTasks : (store.records.map fun stored =>
        if stored.taskId = taskId then mutation stored else stored).map
          NotificationRecord.taskId = store.records.map NotificationRecord.taskId := by
      rw [List.map_map]
      apply List.map_congr_left
      intro stored _
      by_cases same : stored.taskId = taskId <;> simp [same, keepsTask]
    rw [sameTasks]
    exact store.unique

/-- A record written by others: the new record of its task, or a new task. -/
def put (written : NotificationRecord) : NotificationStore :=
  if absent : store.load written.taskId = none then
    { records := store.records ++ [written]
      unique := by
        rw [List.map_append, List.map_singleton]
        refine List.nodup_append.mpr ⟨store.unique, List.nodup_singleton _, ?_⟩
        intro left isLeft right isRight equal
        obtain ⟨stored, member, rfl⟩ := List.mem_map.mp isLeft
        rw [List.mem_singleton.mp isRight] at equal
        exact List.find?_eq_none.mp absent stored member (decide_eq_true equal) }
  else
    store.mutate written.taskId (fun stored => { written with taskId := stored.taskId })
      fun _ => rfl

end NotificationStore

inductive ParentState
  | idle
  | streaming
  | compacting
  | sessionSwitching
  | sessionShutdown

inductive TransitionReason
  | compacting
  | sessionSwitching
  | sessionShutdown

inductive DeliveredDecision
  | wake
  | deliverStreaming

/-- Whether it is delivered now. -/
inductive RoutingDecision
  | deliver (decision : DeliveredDecision)
  | buffer (reason : TransitionReason)

def routeCompletion : ParentState → RoutingDecision
  | .idle => .deliver .wake
  | .streaming => .deliver .deliverStreaming
  | .compacting => .buffer .compacting
  | .sessionSwitching => .buffer .sessionSwitching
  | .sessionShutdown => .buffer .sessionShutdown

/-- A cancelled or interrupted child was ended by its parent, which knows. -/
def shouldNotifyStatus : TaskStatus → Bool
  | .completed | .error | .lost => true
  | .pending | .running | .cancelled | .interrupted => false

/-- The announcement of one run.  Its text is made from the record. -/
structure CompletionEntry where
  taskId : String
  epoch : Nat
  deriving DecidableEq

/-- Whether the first and the second attempt to hand a message over come through. -/
structure EnqueueAttempts where
  first : Bool
  second : Bool

def deliverWithRetry (attempts : EnqueueAttempts) : Bool :=
  attempts.first || attempts.second

/-- A call of the notifier. -/
structure CompletionRequest where
  requested : NotificationRecord
  parentState : ParentState
  runInBackground : Bool

/-- Why nobody is notified. -/
inductive SkipReason
  | syncTask
  | nonNotifyingTerminal
  | notTerminal
  | alreadyNotified

/-- What a call returns. -/
inductive NotifyResult
  | skipped (reason : SkipReason)
  | delivered (decision : DeliveredDecision)
  | buffered (reason : TransitionReason)
  | failed

/-- What a flush returns. -/
inductive FlushResult
  | flushed (count : Nat)
  | dropped (count : Nat)
  | failed (count : Nat)
  | empty

def maxScheduledRetries : Nat := 8

/-- The notifier, its store and the announcements that came through so far. -/
structure CompletionNotifier where
  store : NotificationStore
  buffered : List (String × List CompletionEntry)
  scheduledRetries : List CompletionEntry
  scheduledRetryCounts : List (CompletionEntry × Nat)
  enqueued : List CompletionEntry

def persistNotified (taskId : String) (epoch : Nat) (store : NotificationStore) :
    NotificationStore :=
  store.mutate taskId
    (fun fresh =>
      { fresh with
        notifiedEpoch := if epoch ≤ fresh.notifiedEpoch then fresh.notifiedEpoch else epoch })
    fun _ => rfl

def recordFailure (taskId : String) (epoch : Nat) (store : NotificationStore) : NotificationStore :=
  store.mutate taskId
    (fun fresh =>
      { fresh with
        notificationFailedEpoch :=
          if epoch ≤ fresh.notifiedEpoch then fresh.notificationFailedEpoch else some epoch })
    fun _ => rfl

section

variable (buffered : List (String × List CompletionEntry))

def pushBuffered (sessionId : String) (entry : CompletionEntry) :
    List (String × List CompletionEntry) :=
  let existing := (mapGet buffered sessionId).getD []
  if entry ∈ existing then buffered else mapSet buffered sessionId (existing ++ [entry])

def hasBuffered (sessionId : String) (entry : CompletionEntry) : Bool :=
  entry ∈ (mapGet buffered sessionId).getD []

end

def owesNotification (stored : NotificationRecord) : Bool :=
  stored.notifyOnTerminal || stored.notificationFailedEpoch.isSome

def entryOf (stored : NotificationRecord) : CompletionEntry :=
  ⟨stored.taskId, stored.runEpoch⟩

namespace CompletionNotifier

section

variable (entry : CompletionEntry) (state : CompletionNotifier)

def finishRetryChain : CompletionNotifier :=
  { state with
    scheduledRetries := state.scheduledRetries.filter (· ≠ entry)
    scheduledRetryCounts := mapDelete state.scheduledRetryCounts entry }

/-- At most one timer runs for an announcement, and its chain ends with the last one. -/
def scheduleRetry : CompletionNotifier :=
  if entry ∈ state.scheduledRetries then state
  else
    let retryNumber := (mapGet state.scheduledRetryCounts entry).getD 0 + 1
    if retryNumber > maxScheduledRetries then state.finishRetryChain entry
    else
      { state with
        scheduledRetryCounts := mapSet state.scheduledRetryCounts entry retryNumber
        scheduledRetries := state.scheduledRetries ++ [entry] }

/-- The state behind a message that came through and is noted in the record. -/
def noteDelivered : CompletionNotifier :=
  { state.finishRetryChain entry with
    enqueued := state.enqueued ++ [entry]
    store := persistNotified entry.taskId entry.epoch state.store }

end

def deliverRecord (reported : NotificationRecord) (parentState : ParentState)
    (attempts : EnqueueAttempts) (state : CompletionNotifier) : NotifyResult × CompletionNotifier :=
  let entry := entryOf reported
  match routeCompletion parentState with
  | .buffer reason =>
    (.buffered reason,
      { state with buffered := pushBuffered state.buffered reported.parentSessionId entry })
  | .deliver decision =>
    if deliverWithRetry attempts then (.delivered decision, state.noteDelivered entry)
    else
      (.failed, scheduleRetry entry
          { state with store := recordFailure reported.taskId entry.epoch state.store })

def notifyTerminal (request : CompletionRequest) (attempts : EnqueueAttempts)
    (state : CompletionNotifier) : NotifyResult × CompletionNotifier :=
  if !request.runInBackground then (.skipped .syncTask, state)
  else
    let stored := (state.store.load request.requested.taskId).getD request.requested
    if !stored.status.isTerminal then (.skipped .notTerminal, state)
    else if !shouldNotifyStatus stored.status then (.skipped .nonNotifyingTerminal, state)
    else if stored.notifiedEpoch ≥ stored.runEpoch then (.skipped .alreadyNotified, state)
    else state.deliverRecord stored request.parentState attempts

section

variable (sessionId : String)

def flushBuffered (replaced : Bool) (attempts : EnqueueAttempts) (state : CompletionNotifier) :
    FlushResult × CompletionNotifier :=
  let entries := (mapGet state.buffered sessionId).getD []
  if entries.isEmpty then (.empty, state)
  else
    let cleared := { state with buffered := mapDelete state.buffered sessionId }
    if replaced then (.dropped entries.length, cleared)
    else if deliverWithRetry attempts then
      (.flushed entries.length,
        { cleared with
          enqueued := state.enqueued ++ entries
          store := entries.foldl
            (fun store entry => persistNotified entry.taskId entry.epoch store) state.store })
    else
      (.failed entries.length,
        { cleared with
          store := entries.foldl
            (fun store entry => recordFailure entry.taskId entry.epoch store) state.store })

/-- One record of the sweep over the records of a session. -/
def reconcileRecord (parentState : ParentState) (attempts : String → EnqueueAttempts)
    (state : CompletionNotifier) (listed : NotificationRecord) : CompletionNotifier :=
  if listed.parentSessionId ≠ sessionId then state
  else if listed.notifiedEpoch ≥ listed.runEpoch then state
  else if !listed.status.isTerminal then state
  else if !shouldNotifyStatus listed.status then state
  else if !owesNotification listed then state
  else if hasBuffered state.buffered listed.parentSessionId (entryOf listed) then state
  else (state.deliverRecord listed parentState (attempts listed.taskId)).2

def reconcileUnnotifiedNotifications (parentState : ParentState)
    (attempts : String → EnqueueAttempts) (state : CompletionNotifier) : CompletionNotifier :=
  state.store.records.foldl (reconcileRecord sessionId parentState attempts) state

end

def runScheduledRetry (entry : CompletionEntry) (parentState : ParentState)
    (currentSessionId : Option String) (attempts : EnqueueAttempts)
    (state : CompletionNotifier) : CompletionNotifier :=
  match state.store.load entry.taskId with
  | none => state.finishRetryChain entry
  | some fresh =>
    if fresh.runEpoch ≠ entry.epoch then state.finishRetryChain entry
    else if !fresh.status.isTerminal then state.finishRetryChain entry
    else if !shouldNotifyStatus fresh.status then state.finishRetryChain entry
    else if fresh.notifiedEpoch ≥ entry.epoch then state.finishRetryChain entry
    else if some fresh.parentSessionId ≠ currentSessionId then state.finishRetryChain entry
    else
      match routeCompletion parentState with
      | .buffer _ =>
        finishRetryChain entry
          { state with buffered := pushBuffered state.buffered fresh.parentSessionId entry }
      | .deliver _ =>
        if deliverWithRetry attempts then state.noteDelivered entry
        else state.scheduleRetry entry

end CompletionNotifier

/-- A call of the notifier, a timer that fires, or a record that others write. -/
inductive NotifierAction
  | notifyTerminal (request : CompletionRequest) (attempts : EnqueueAttempts)
  | flushBuffered (sessionId : String) (replaced : Bool) (attempts : EnqueueAttempts)
  | reconcile (sessionId : String) (parentState : ParentState) (attempts : String → EnqueueAttempts)
  | retryFires (entry : CompletionEntry) (parentState : ParentState)
      (currentSessionId : Option String) (attempts : EnqueueAttempts)
  | recordWritten (written : NotificationRecord)

namespace CompletionNotifier

/-- A notifier that has just been created over a store. -/
def created (store : NotificationStore) : CompletionNotifier :=
  ⟨store, [], [], [], []⟩

/-- One action.  Other writers never lower the notified epoch of a record. -/
def step (state : CompletionNotifier) : NotifierAction → Option CompletionNotifier
  | .notifyTerminal request attempts => some (state.notifyTerminal request attempts).2
  | .flushBuffered sessionId replaced attempts =>
    some (state.flushBuffered sessionId replaced attempts).2
  | .reconcile sessionId parentState attempts =>
    some (state.reconcileUnnotifiedNotifications sessionId parentState attempts)
  | .retryFires entry parentState currentSessionId attempts =>
    if entry ∈ state.scheduledRetries then
      some (runScheduledRetry entry parentState currentSessionId attempts
        { state with scheduledRetries := state.scheduledRetries.filter (· ≠ entry) })
    else none
  | .recordWritten written =>
    if (state.store.load written.taskId).all (·.notifiedEpoch ≤ written.notifiedEpoch) then
      some { state with store := state.store.put written }
    else none

end CompletionNotifier

end OpenAgent.Tasks
