import OpenAgent.Tasks.TaskRecord
import OpenAgent.Library.Execution

/-!
# The task manager of one task

The manager is single threaded: an operation runs up to its next `await`, and
what is left of it waits as a frame.  A step calls an operation or resumes one
frame with the answer it waits for, so a list of actions is one interleaving of
the operations with one order of the answers.

The destruction port is the lifecycle's, over a registry that is a view of the
live handles.  Writes to the store succeed, and a waiter of the concurrency queue
that is granted its slot runs as a step of its own.
-/

namespace OpenAgent.Tasks

/-- What the manager has asked of a child.  A prompt takes an aborted child back
to work, and nothing takes back a teardown. -/
inductive ChildLife
  | running
  | aborted
  | destroyed
  deriving DecidableEq

/-- A handle that the runner returned.  `run` is the epoch that its last prompt of
a new run belongs to. -/
structure ChildHandle where
  pid : Option Nat
  sessionId : Option String
  terminable : Bool
  exited : Bool
  lastAssistantText : Option String
  life : ChildLife
  run : Nat

namespace ChildHandle

section

variable (child : ChildHandle)

def abort : ChildHandle :=
  { child with life := if child.life = .destroyed then .destroyed else .aborted }

def prompt : ChildHandle :=
  { child with life := if child.life = .destroyed then .destroyed else .running }

def destroy : ChildHandle :=
  { child with life := .destroyed }

end

def serve (epoch : Nat) (child : ChildHandle) : ChildHandle :=
  { child with run := epoch }

end ChildHandle

/-- What the runner hands over with a child. -/
structure StartedChild where
  pid : Option Nat
  sessionId : Option String
  terminable : Bool
  deriving DecidableEq

/-- The kinds of failures. -/
inductive FailureKind
  | childPromptFailed
  | childTurnFailed
  | sessionCreateFailed
  | depthExceeded
  | modelUnavailable
  | toolsUnavailable
  | sessionUnavailable
  deriving DecidableEq

/-- How the runner has ended. -/
inductive RunnerOutcome
  | completed (finalResponse : String)
  | error (kind : FailureKind) (message : String) (killed : Bool)
  | cancelled
  deriving DecidableEq

/-- A start failure is classified, and anything else is reported in general words. -/
def publicStartFailureMessage : Option FailureKind → String
  | some .depthExceeded => "In-process child depth limit exceeded."
  | some .sessionCreateFailed => "In-process child session creation failed."
  | some .childPromptFailed => "Child prompt failed to start."
  | _ => "Task runner failed to start."

/-- What a launch keeps across its wait for the runner. -/
structure LaunchContext where
  model : String
  epoch : Nat
  deriving DecidableEq

/-- The live entry of the task.  Only an entry that a launch made can be started
again under another model. -/
structure LiveTask where
  handle : Nat
  model : String
  relaunchable : Bool

structure ErrorOutcomeInput where
  handle : Nat
  model : String
  epoch : Nat
  kind : FailureKind
  message : String
  killed : Bool
  runStats : Option TaskRunStats
  timestamp : Nat
  deriving DecidableEq

/-- What a runtime fallback keeps across its wait for the old child's teardown:
the record is the one it read before. -/
structure HandOff where
  input : ErrorOutcomeInput
  record : TaskRecord
  nextModel : String
  deriving DecidableEq

/-- Why a child is torn down. -/
inductive DestroyCause
  | cancel
  | cancelWithoutAbort
  | fallbackHandoff
  deriving DecidableEq

/-- Who waits for a teardown. -/
inductive DestroyCaller
  | launch (context : LaunchContext)
  | cancelTask (skipAbort : Bool)
  | afterSettlement
  | runtimeFallback (handOff : HandOff)
  deriving DecidableEq

/-- The cause that a caller gives. -/
def DestroyCaller.cause : DestroyCaller → DestroyCause
  | .launch _ | .cancelTask false => .cancel
  | .cancelTask true | .afterSettlement => .cancelWithoutAbort
  | .runtimeFallback _ => .fallbackHandoff

/-- The rest of an operation behind one of its waits. -/
inductive Frame
  | queued (relaunch : Bool) (context : LaunchContext)
  | starting (context : LaunchContext)
  | relaunching (context : LaunchContext)
  | tracking (handle : Nat) (model : String) (epoch : Nat)
  | failing (input : ErrorOutcomeInput)
  | tearingDown (handle : Nat) (disposing : Bool) (caller : DestroyCaller)
  | interrupting (handle : Nat) (interrupted : TaskRecord)
  | cancelling (handle : Nat)
  | settling (handle : Nat)
  | reviving (handle : Nat) (model : String) (epoch : Nat)
  | delivering (handle : Nat) (drainedIds : List String) (rest : List PendingSteeringEntry)
  | returned
  deriving DecidableEq

/-- The manager as far as one task goes.  `room` holds the lanes in which another
lease fits, and `clock`, `room` and the children's text are set from outside. -/
structure TaskManagerState where
  record : TaskRecord
  live : Option LiveTask
  children : List ChildHandle
  frames : List Frame
  leases : List Nat
  released : Option Nat
  waiters : Nat
  runStats : Option TaskRunStats
  room : List String
  clock : Nat

namespace TaskManagerState

variable (state : TaskManagerState)

def liveHandle : Option Nat :=
  state.live.map LiveTask.handle

def push (frame : Frame) (state : TaskManagerState) : TaskManagerState :=
  { state with frames := state.frames ++ [frame] }

/-- `store.transition`: a refused transition leaves the record as it is. -/
def transition (change : TaskTransition) (state : TaskManagerState) : TaskManagerState :=
  { state with record := (transitionTaskRecord state.record change).record }

def updateChild (handle : Nat) (change : ChildHandle → ChildHandle)
    (state : TaskManagerState) : TaskManagerState :=
  { state with children := state.children.modify handle change }

def releaseLease (epoch : Nat) (state : TaskManagerState) : TaskManagerState :=
  { state with leases := state.leases.erase epoch }

def releaseSlot (epoch : Nat) (state : TaskManagerState) : TaskManagerState :=
  if state.released.any (epoch ≤ ·) then state
  else releaseLease epoch { state with released := some epoch }

def releaseSlotForTask : TaskManagerState :=
  if state.live.isNone then state else releaseSlot state.record.runEpoch state

def settleWaiters : TaskManagerState :=
  if state.record.status.isTerminal then { state with waiters := 0 } else state

def waitFor : TaskManagerState :=
  if state.record.status.isTerminal then state else { state with waiters := state.waiters + 1 }

def setPendingSteering (queue : List PendingSteeringEntry)
    (state : TaskManagerState) : TaskManagerState :=
  { state with record := { state.record with pendingSteering := queue } }

/-- Without the delivered ids the whole queue goes. -/
def clearPersistedQueue (drainedIds : Option (List String))
    (state : TaskManagerState) : TaskManagerState :=
  setPendingSteering
    (match drainedIds with
      | none => []
      | some ids => state.record.pendingSteering.filter fun entry => !ids.contains entry.id)
    state

def dropPending : TaskManagerState :=
  clearPersistedQueue none state

def enqueuePending (message : String) (deliverAs : SendDelivery)
    (state : TaskManagerState) : TaskManagerState :=
  let queue := state.record.pendingSteering
  setPendingSteering
    (queue ++ [⟨s!"ps-{state.clock}-{queue.length + 1}", message, deliverAs⟩]) state

def forget : TaskManagerState :=
  dropPending { state with live := none, released := none, runStats := none }

end TaskManagerState

/-- A waiter of the task in a lane. -/
def Frame.queuedIn (laneKey : String → String) (lane : String) : Frame → Bool
  | .queued _ context => laneKey context.model = lane
  | _ => false

/-- The messages still to be delivered to a child by the drain that waits here. -/
def Frame.undelivered : Frame → List PendingSteeringEntry
  | .delivering _ _ rest => rest
  | _ => []

namespace TaskManagerState

section Operations

variable (laneKey : String → String)

/-- A second lease of one epoch is refused, and so is one in a lane where somebody
waits. -/
def tryAcquire (model : String) (epoch : Nat)
    (state : TaskManagerState) : Option TaskManagerState :=
  if state.leases.contains epoch
      || state.frames.any (Frame.queuedIn laneKey (laneKey model))
      || !state.room.contains (laneKey model) then none
  else some { state with leases := epoch :: state.leases }

/-- `TaskConcurrency.remove`: the first waiter of the task in the model's lane. -/
def removeWaiter (model : String) (state : TaskManagerState) : TaskManagerState :=
  { state with frames := state.frames.eraseP (Frame.queuedIn laneKey (laneKey model)) }

section

variable (state : TaskManagerState)

def removeCapacityWaiter : TaskManagerState :=
  removeWaiter laneKey state.record.model state

def dequeuePending : TaskManagerState :=
  settleWaiters (removeWaiter laneKey state.record.model state)

def subscribeChildFacts : TaskManagerState :=
  { state with runStats := some ⟨0, 0, 0⟩ }

end

/-- The facts of a spawned child go to a record that is not terminal. -/
def recordSpawnFacts (child : StartedChild) (state : TaskManagerState) : TaskManagerState :=
  if state.record.status.isTerminal then state
  else
    { state with record :=
      { state.record with
        pid := child.pid.or state.record.pid
        childSessionId :=
          (child.sessionId.filter fun session => !session.isEmpty).or
            state.record.childSessionId } }

/-- The drain delivers one message after the other and then clears them all. -/
def drain (handle : Nat) (drainedIds : List String) :
    List PendingSteeringEntry → TaskManagerState → TaskManagerState
  | [], state => clearPersistedQueue (some drainedIds) state
  | _ :: rest, state =>
    push (.delivering handle drainedIds rest) (updateChild handle ChildHandle.prompt state)

def notifyStarted (state : TaskManagerState) : TaskManagerState :=
  match state.record.pendingSteering, state.liveHandle with
  | entry :: rest, some handle =>
    drain handle ((entry :: rest).map PendingSteeringEntry.id) (entry :: rest) state
  | _, _ => state

def trackOutcome (handle : Nat) (model : String) (epoch : Nat)
    (state : TaskManagerState) : TaskManagerState :=
  push (.tracking handle model epoch) state

/-- `#launch` up to its wait for the runner. -/
def launch (context : LaunchContext) (state : TaskManagerState) : TaskManagerState :=
  if (transitionTaskRecord state.record (.start state.clock none none)).applied then
    push (.starting context) (state.transition (.start state.clock none none))
  else settleWaiters (dropPending (releaseSlot context.epoch state))

/-- The handle is new, and the task's live entry is set to it. -/
def attach (child : StartedChild) (context : LaunchContext) (relaunchable : Bool)
    (state : TaskManagerState) : TaskManagerState :=
  { state with
    children := state.children ++
      [⟨child.pid, child.sessionId, child.terminable, false, none, .running, context.epoch⟩]
    live := some ⟨state.children.length, context.model, relaunchable⟩ }

/-- `#launchRuntimeFallback` up to its wait for the runner. -/
def launchRuntimeFallback (context : LaunchContext) (state : TaskManagerState) : TaskManagerState :=
  if state.record.status = .running then push (.relaunching context) state
  else
    let released := releaseSlot context.epoch state
    settleWaiters (if released.record.status.isTerminal then released
        else released.transition (.fail state.clock
          "Runtime fallback launch aborted before the child could start." false none))

section

variable (handOff : HandOff)

/-- The record of the next run is made from the one read before the teardown. -/
def fallbackRecord : TaskRecord :=
  { handOff.record with
    model := handOff.nextModel
    resolvedModel := some handOff.nextModel
    fallbackModels := handOff.record.fallbackModels.tail
    fallbackAttempts := some
      (handOff.record.fallbackAttempts.getD handOff.record.resolvedModel.toList ++
        [handOff.nextModel])
    updatedAt := handOff.input.timestamp
    runEpoch := handOff.record.runEpoch + 1 }

/-- The old child is let go, and the record is written over whatever the store holds
by now. -/
def handOver (state : TaskManagerState) : TaskManagerState :=
  { releaseSlot handOff.input.epoch { state with live := none } with
    record := fallbackRecord handOff }

/-- `#tryRuntimeFallback` behind its wait. -/
def continueFallback (state : TaskManagerState) : TaskManagerState :=
  let context : LaunchContext := ⟨handOff.nextModel, handOff.record.runEpoch + 1⟩
  match tryAcquire laneKey context.model context.epoch (handOver handOff state) with
  | some leased => launchRuntimeFallback context leased
  | none => push (.queued true context) (handOver handOff state)

end

section

variable (caller : DestroyCaller) (state : TaskManagerState)

/-- `destroyResidentTask` behind the teardown, and its caller behind it. -/
def destructionReturned : TaskManagerState :=
  let recorded :=
    if caller.cause = .fallbackHandoff then state
    else state.transition (.dispose state.clock)
  match caller with
  | .launch context => settleWaiters (releaseSlot context.epoch recorded)
  | .cancelTask _ => push .returned recorded
  | .afterSettlement => recorded
  | .runtimeFallback handOff => continueFallback laneKey handOff recorded

/-- A child that was disposed is let go, whether or not its disposal failed.  A
fallback does that itself. -/
def disposed : TaskManagerState :=
  if caller.cause = .fallbackHandoff then state else forget state

/-- An in-process child has no process to signal: it is told by its pid. -/
def isInProcess (handle : Nat) (state : TaskManagerState) : Bool :=
  (state.children[handle]?).all fun child => child.pid.isNone

/-- `destroyResidentTask` up to its first wait.  The child is asked to abort or to
terminate, or is disposed at once where the abort is skipped. -/
def destroyResidentTask : TaskManagerState :=
  match state.liveHandle with
  | some handle =>
    push (.tearingDown handle
        (caller.cause = .cancelWithoutAbort && state.isInProcess handle) caller)
      (updateChild handle ChildHandle.destroy state)
  | none => destructionReturned laneKey caller state

end

section

variable (context : LaunchContext)

/-- `#launch` behind its wait: only a cancelled record turns the child away. -/
def launched (child : StartedChild) (state : TaskManagerState) : TaskManagerState :=
  if state.record.status = .cancelled then
    destroyResidentTask laneKey (.launch context) (attach child context false state)
  else
    notifyStarted (trackOutcome state.children.length context.model context.epoch
        (recordSpawnFacts child (attach child context true (subscribeChildFacts state))))

variable (failure : Option FailureKind)

def launchFailed (state : TaskManagerState) : TaskManagerState :=
  settleWaiters
    (dropPending ((releaseSlot context.epoch state).transition
        (.fail state.clock (publicStartFailureMessage failure) false none)))

/-- `#launchRuntimeFallback` behind its wait: the record is not read again. -/
def relaunched (child : StartedChild) (state : TaskManagerState) : TaskManagerState :=
  trackOutcome state.children.length context.model context.epoch
    (recordSpawnFacts child (attach child context true (subscribeChildFacts state)))

def relaunchFailed (state : TaskManagerState) : TaskManagerState :=
  settleWaiters
    ((releaseSlot context.epoch state).transition
      (.fail state.clock (publicStartFailureMessage failure) false none))

end

/-- An outcome counts for the run that the manager still owns. -/
def owned (handle epoch : Nat) (state : TaskManagerState) : Bool :=
  state.liveHandle = some handle && state.record.residencyState ≠ .persistedOnly
    && state.record.residencyState ≠ .rpcDetached && state.record.runEpoch = epoch

def persistTerminal (change : TaskTransition) (state : TaskManagerState) : TaskManagerState :=
  settleWaiters (state.transition change)

/-- `#tryRuntimeFallback` up to its wait.  The status of the record is not asked. -/
def tryRuntimeFallback (input : ErrorOutcomeInput)
    (state : TaskManagerState) : Option TaskManagerState :=
  if input.killed || !(input.kind = .childTurnFailed || input.kind = .childPromptFailed)
      || 0 < (input.runStats.map TaskRunStats.toolCalls).getD 0 then none
  else
    match state.record.fallbackModels, state.live with
    | nextModel :: _, some live =>
      if live.handle = input.handle && live.relaunchable then
        some (destroyResidentTask laneKey (.runtimeFallback ⟨input, state.record, nextModel⟩) state)
      else none
    | _, _ => none

/-- `trackOutcome` behind its wait. -/
def outcomeSettled (handle : Nat) (model : String) (epoch : Nat) (outcome : RunnerOutcome)
    (state : TaskManagerState) : TaskManagerState :=
  if state.owned handle epoch then
    match outcome with
    | .error kind message killed =>
      let input : ErrorOutcomeInput :=
        ⟨handle, model, epoch, kind, message, killed, state.runStats, state.clock⟩
      (tryRuntimeFallback laneKey input state).getD (push (.failing input) state)
    | .completed finalResponse =>
      persistTerminal (if finalResponse.isEmpty then
          .fail state.clock "child turn produced no assistant output" false state.runStats
        else .complete state.clock finalResponse state.runStats)
        (releaseSlot epoch state)
    | .cancelled =>
      persistTerminal (.cancel state.clock none state.runStats) (releaseSlot epoch state)
  else state

/-- `settleErrorOutcome` behind a fallback that was not taken. -/
def errorSettled (input : ErrorOutcomeInput) (state : TaskManagerState) : TaskManagerState :=
  if state.owned input.handle input.epoch then
    persistTerminal (.fail input.timestamp input.message input.killed input.runStats)
      (releaseSlot input.epoch state)
  else state

def cancelTask (reason : Option String) (skipAbort : Bool)
    (state : TaskManagerState) : TaskManagerState :=
  match state.record.status with
  | .pending =>
    destroyResidentTask laneKey (.cancelTask skipAbort) (clearPersistedQueue none
        (dequeuePending laneKey (state.transition (.cancel state.clock reason none))))
  | .running =>
    let cancelled := state.transition (.cancel state.clock reason state.runStats)
    match state.liveHandle with
    | some handle =>
      if skipAbort then
        if (state.children[handle]?).any ChildHandle.terminable then
          destroyResidentTask laneKey (.cancelTask skipAbort) cancelled
        else push .returned (push (.settling handle) cancelled)
      else push (.cancelling handle) (updateChild handle ChildHandle.abort cancelled)
    | none => destroyResidentTask laneKey (.cancelTask skipAbort) cancelled
  | _ => state

def interruptTask (state : TaskManagerState) : TaskManagerState :=
  if state.record.status = .running then
    let interrupted := state.transition (.interrupt state.clock none none)
    match state.liveHandle with
    | some handle =>
      push (.interrupting handle interrupted.record)
        (updateChild handle ChildHandle.abort interrupted)
    | none => push .returned interrupted
  else state

/-- `interruptTask` behind the abort: partial text goes out with the record as the
transition left it. -/
def interrupted (handle : Nat) (record : TaskRecord)
    (state : TaskManagerState) : TaskManagerState :=
  push .returned
    (match (state.children[handle]?).bind ChildHandle.lastAssistantText with
      | some text =>
        if text.isEmpty then state
        else { state with record := { record with finalResponse := some text } }
      | none => state)

/-- `reviveTerminal` up to its wait for the child. -/
def reviveTerminal (live : LiveTask) (state : TaskManagerState) : TaskManagerState :=
  let epoch := state.record.runEpoch + 1
  match tryAcquire laneKey live.model epoch state with
  | none => state
  | some leased =>
    push (.reviving live.handle live.model epoch)
      (updateChild live.handle (ChildHandle.serve epoch ∘ ChildHandle.prompt)
        { leased with record := buildRevived leased.record leased.clock })

/-- A message to a resident child or to one that has not started.  A record whose
child was detached has no live handle here, and the message is refused. -/
def sendToTask (message : String) (deliverAs : SendDelivery)
    (state : TaskManagerState) : TaskManagerState :=
  let record := state.record
  if record.status = .pending then enqueuePending message deliverAs state
  else
    match messageability record.status record.residencyState record.executionMode record.killed,
        state.live with
    | .notContinuable, _ | _, none => state
    | mode, some live =>
      if (state.children[live.handle]?).any ChildHandle.exited then state
      else if mode = .steer then updateChild live.handle ChildHandle.prompt state
      else reviveTerminal laneKey live state

/-- `interruptTask` and `cancelTask` of the manager behind the steering's. -/
def stopReturned (state : TaskManagerState) : TaskManagerState :=
  releaseSlotForTask (removeCapacityWaiter laneKey state)

/-- The candidates of a spill: the planned model and its fallbacks, one for each
lane, with their places. -/
def candidatesFor (record : TaskRecord) : List (String × Nat) :=
  ((record.model :: record.fallbackModels).zipIdx).foldl
    (fun candidates candidate =>
      if candidates.any fun earlier => laneKey earlier.1 = laneKey candidate.1 then candidates
      else candidates ++ [candidate]) []

/-- The record under a candidate that is not the planned model. -/
def effectiveRecord (record : TaskRecord) (candidate : String × Nat) : TaskRecord :=
  if candidate.2 = 0 then record
  else
    { record with
      model := candidate.1
      resolvedModel := some candidate.1
      fallbackModels := record.fallbackModels.drop candidate.2 }

/-- `#startResolved` of a record that was just claimed: it is launched in the first
lane that has room, and queued when none has. -/
def startResolved (input : TaskRecordInput) (hostPid : Nat) (room : List String)
    (now : Nat) : TaskManagerState :=
  let claimed := createTaskRecord input hostPid now
  let state : TaskManagerState := ⟨claimed, none, [], [], [], none, 0, none, room, now⟩
  match (candidatesFor laneKey claimed).find? fun candidate =>
      (tryAcquire laneKey candidate.1 claimed.runEpoch state).isSome with
  | some candidate =>
    let record := effectiveRecord claimed candidate
    launch ⟨record.model, record.runEpoch⟩
      { state with record := record, leases := [record.runEpoch] }
  | none => push (.queued false ⟨claimed.model, claimed.runEpoch⟩) state

end Operations

end TaskManagerState

/-- The answer that a frame waits for. -/
inductive Reply
  | granted
  | started (child : StartedChild)
  | startFailed (failure : Option FailureKind)
  | settled (outcome : RunnerOutcome)
  | fulfilled
  | rejected
  deriving DecidableEq

/-- A step of the manager. -/
inductive TaskAction
  | cancelTask (reason : Option String) (skipAbort : Bool)
  | interruptTask
  | sendToTask (message : String) (deliverAs : SendDelivery)
  | waitFor
  | resume (frame : Nat) (reply : Reply)
  | observe (clock : Nat) (room : List String) (runStats : TaskRunStats)
  | childSpoke (handle : Nat) (text : String)
  | childExited (handle : Nat)

namespace TaskManagerState

section Steps

variable (laneKey : String → String) (state : TaskManagerState)

/-- The rest of an operation under the answer it waited for.  Other answers do not
reach it. -/
def resumeFrame : Frame → Reply → Option TaskManagerState
  | .queued false context, .granted =>
    some (launch context { state with leases := context.epoch :: state.leases })
  | .queued true context, .granted =>
    some (launchRuntimeFallback context { state with leases := context.epoch :: state.leases })
  | .starting context, .started child => some (launched laneKey context child state)
  | .starting context, .startFailed failure => some (launchFailed context failure state)
  | .relaunching context, .started child => some (relaunched context child state)
  | .relaunching context, .startFailed failure => some (relaunchFailed context failure state)
  | .tracking handle model epoch, .settled outcome =>
    some (outcomeSettled laneKey handle model epoch outcome state)
  | .failing input, .fulfilled => some (errorSettled input state)
  | .tearingDown handle false caller, .fulfilled
  | .tearingDown handle false caller, .rejected =>
    -- the step before the disposal is best effort
    some (push (.tearingDown handle true caller) state)
  | .tearingDown _ true caller, .fulfilled =>
    some (destructionReturned laneKey caller (disposed caller state))
  | .tearingDown _ true caller, .rejected => some (disposed caller state)
  | .interrupting handle record, .fulfilled => some (interrupted handle record state)
  | .interrupting _ _, .rejected => some state
  | .cancelling _, .fulfilled | .cancelling _, .rejected =>
    some (destroyResidentTask laneKey (.cancelTask false) state)
  | .settling _, .settled _ | .settling _, .rejected =>
    some (destroyResidentTask laneKey .afterSettlement state)
  | .reviving handle model epoch, .fulfilled =>
    some (trackOutcome handle model epoch (subscribeChildFacts state))
  | .reviving _ _ epoch, .rejected => some (releaseLease epoch state)
  | .delivering handle drainedIds rest, .fulfilled
  | .delivering handle drainedIds rest, .rejected => some (drain handle drainedIds rest state)
  | .returned, .fulfilled => some (stopReturned laneKey state)
  | _, _ => none

/-- One step of the manager. -/
def step : TaskAction → Option TaskManagerState
  | .cancelTask reason skipAbort => some (cancelTask laneKey reason skipAbort state)
  | .interruptTask => some (interruptTask state)
  | .sendToTask message deliverAs => some (sendToTask laneKey message deliverAs state)
  | .waitFor => some (waitFor state)
  | .resume index reply =>
    (state.frames[index]?).bind fun frame =>
      resumeFrame laneKey { state with frames := state.frames.eraseIdx index } frame reply
  | .observe clock room runStats =>
    some { state with
      clock := clock
      room := room
      runStats := state.runStats.map fun _ => runStats }
  | .childSpoke handle text =>
    some (updateChild handle (fun child => { child with lastAssistantText := some text }) state)
  | .childExited handle =>
    some (updateChild handle (fun child => { child with exited := true }) state)

end Steps

end TaskManagerState

end OpenAgent.Tasks
