import OpenAgent.Library.Collections
import OpenAgent.Library.Execution
import OpenAgent.Tasks.TaskRecord

/-!
# Expunging expired records

A cleanup sweep deletes the records of tasks that ended long ago.  Under the record lock
it looks once more whether the record is to be kept, and renames it to a tombstone when
it is not.  Without the lock it then ends the process that the record names and removes
the artifacts of the task, the tombstone last.  A sweep begins with the tombstones that
others have left behind.  Any number of sweeps of any managers go on side by side with
everything else that happens to the records; each may crash between two of its steps.
-/

namespace OpenAgent.Tasks

open Library

def maxTaskIdValue : Nat := 0xffffffff

def uuidV7TimestampHighBits (nowMs : Nat) : Nat :=
  nowMs / 0x10000 % 0x100000000

/-- The next id of a process, above the last one it knows of. -/
def nextMonotonicValue (candidate : Nat) : Option Nat → Option Nat
  | none => some candidate
  | some previous =>
    if previous < candidate then some candidate
    else if maxTaskIdValue ≤ previous then none
    else some (previous + 1)

def formatTaskId (value : Nat) : String :=
  let digits := Nat.toDigits 16 value
  "st_" ++ String.ofList (List.replicate (8 - digits.length) '0' ++ digits)

/-- How often a creation tries another id. -/
def defaultMaxClaimAttempts : Nat := 4096

/-- A record with the parts of its notification state that retention looks at. -/
structure ExpiryRecord where
  record : TaskRecord
  notifyOnTerminal : Bool
  notificationFailedEpoch : Option Nat
  deriving DecidableEq

/-- A record as one task wrote it.  The generation counts the tasks that have had its
id; no file shows it. -/
structure Incarnation where
  generation : Nat
  task : ExpiryRecord
  deriving DecidableEq

/-- What a task leaves beside its record. -/
inductive Artifact
  | children
  | completionResult
  | log
  deriving DecidableEq

/-- The file operations of `completeExpunge` in their order. -/
inductive ExpungeStage
  | artifact (removed : Artifact)
  | record
  | tombstone

/-- The ids of a sweep. -/
structure CleanupResult where
  deleted : List String
  retained : List String

/-- What a sweep comes back to after it has completed an expunge. -/
inductive AfterExpunge
  | recover (found : List (String × Nat))
  | sweep (remaining : List (String × ExpiryRecord))

/-- The points of `cleanupExpiredRecords`.  An expunge carries the generation of the
tombstone that it is about. -/
inductive SweepPhase
  /-- `listExpunging()`. -/
  | listing
  | recovering (found : List (String × Nat))
  /-- `list()`. -/
  | scanning
  /-- The locked check of the first of the scanned records. -/
  | sweeping (remaining : List (String × ExpiryRecord))
  /-- The record is renamed; the sweep asks whether its process lives. -/
  | tombstoned (taskId : String) (stored : Incarnation) (remaining : List (String × ExpiryRecord))
  /-- `load` of `terminateOrphan`. -/
  | loading (taskId : String) (stored : Incarnation) (remaining : List (String × ExpiryRecord))
  /-- The process has been sent a signal to end. -/
  | waiting (taskId : String) (stored : Incarnation) (pid : Nat)
      (remaining : List (String × ExpiryRecord))
  /-- `recordResidency`. -/
  | disposing (taskId : String) (stored : Incarnation) (remaining : List (String × ExpiryRecord))
  | removing (taskId : String) (generation : Nat) (stage : ExpungeStage) (afterwards : AfterExpunge)

/-- A sweep under way. -/
structure ExpirySweep where
  manager : Nat
  cutoff : Int
  phase : SweepPhase
  result : CleanupResult

/-- A task that is created and has yet to find a free id. -/
structure TaskCreation where
  process : Nat
  value : Nat
  attempts : Nat
  task : ExpiryRecord

/-- The files of the store by task, how many tasks each id has had, the live handles of
the managers, the processes that have ended, the last id value of each process, and the
creations and sweeps under way.  An artifact is given by the generations that wrote it. -/
structure ExpiryWorld where
  records : List (String × Incarnation)
  tombstones : List (String × Incarnation)
  artifacts : List ((Artifact × String) × List Nat)
  generations : List (String × Nat)
  handles : List (Nat × String)
  exited : List Nat
  lastTaskIdValues : List (Nat × Nat)
  creations : List (Nat × TaskCreation)
  sweeps : List (Nat × ExpirySweep)
  returned : List (Nat × CleanupResult)

/-- A step of the store. -/
inductive ExpiryLabel
  | beginSweep (token manager : Nat)
  | proceed (token now : Nat)
  | crash (token : Nat)
  /-- `createTaskId` for a new task. -/
  | draft (call process nowMs : Nat) (task : ExpiryRecord)
  /-- One attempt of `claimTaskRecord`. -/
  | claim (call : Nat)
  | syncTaskIdFloor (process value : Nat)
  /-- A locked change of a record: a revival claim, a transition, a notification. -/
  | mutate (taskId : String) (next : ExpiryRecord)
  /-- A task that has had the id writes an artifact. -/
  | writeArtifact (artifact : Artifact) (taskId : String) (generation : Nat)
  | exit (pid : Nat)
  | setHandles (handles : List (Nat × String))

namespace ExpiryRecord

variable (stored : ExpiryRecord)

/-- The process that a record names. -/
def processOf : Option Nat :=
  match stored.record.executionMode with
  | .process => stored.record.pid
  | .inProcess => none

def hasUndeliveredTerminalNotification : Bool :=
  if (stored.record.runEpoch : Int) ≤ stored.record.notifiedEpoch then false
  else stored.notifyOnTerminal || stored.notificationFailedEpoch.isSome

end ExpiryRecord

namespace ExpungeStage

/-- The operation that follows. -/
def next : ExpungeStage → Option ExpungeStage
  | .artifact .children => some (.artifact .completionResult)
  | .artifact .completionResult => some (.artifact .log)
  | .artifact .log => some .record
  | .record => some .tombstone
  | .tombstone => none

end ExpungeStage

namespace ExpiryWorld

variable (world : ExpiryWorld)

def isAlive (pid : Nat) : Bool :=
  pid ∉ world.exited

section

variable (taskId : String)

def generationOf : Nat :=
  (mapGet world.generations taskId).getD 0

/-- The generations that have written an artifact of a task. -/
def contents (artifact : Artifact) (taskId : String) : List Nat :=
  (mapGet world.artifacts (artifact, taskId)).getD []

def hasLiveHostClaim (stored : ExpiryRecord) : Bool :=
  stored.record.residencyState = .resident &&
    match stored.record.hostPid with
    | none => false
    | some hostPid => world.isAlive hostPid

/-- The retention rule, as a manager sees it. -/
def shouldRetain (manager : Nat) (taskId : String) (stored : ExpiryRecord) (cutoff : Int) : Bool :=
  if (manager, taskId) ∈ world.handles then true
  else if world.hasLiveHostClaim stored then true
  else if !stored.record.status.isTerminal then true
  else if cutoff < (stored.record.terminalAt.getD stored.record.updatedAt : Nat) then true
  else if stored.hasUndeliveredTerminalNotification then true
  else if stored.record.status = .lost && stored.record.executionMode = .process then
    match stored.record.pid with
    | none => true
    | some pid => world.isAlive pid
  else false

def listExpunging : List (String × Nat) :=
  (stableSort (fun left right => codeUnitLE left.1 right.1) world.tombstones).map
    fun entry => (entry.1, entry.2.generation)

def list : List (String × ExpiryRecord) :=
  (stableSort (fun left right => codeUnitLE left.1 right.1) world.records).map
    fun entry => (entry.1, entry.2.task)

/-- The rename of a record to its tombstone. -/
def bury (stored : Incarnation) : ExpiryWorld :=
  { world with
    records := mapDelete world.records taskId
    tombstones := mapSet world.tombstones taskId stored }

def writeRecord (stored : Incarnation) : ExpiryWorld :=
  { world with records := mapSet world.records taskId stored }

def appendArtifact (artifact : Artifact) (taskId : String) (generation : Nat) : ExpiryWorld :=
  { world with
    artifacts := mapSet world.artifacts (artifact, taskId)
      (world.contents artifact taskId ++ [generation]) }

def kill (pid : Nat) : ExpiryWorld :=
  { world with exited := pid :: world.exited }

/-- One file operation of `completeExpunge`. -/
def remove : ExpungeStage → ExpiryWorld
  | .artifact removed =>
    { world with artifacts := mapDelete world.artifacts (removed, taskId) }
  | .record => { world with records := mapDelete world.records taskId }
  | .tombstone => { world with tombstones := mapDelete world.tombstones taskId }

/-- What the operation removes, by the generations that wrote it. -/
def removes : ExpungeStage → List Nat
  | .artifact removed => world.contents removed taskId
  | .record => (mapGet world.records taskId).toList.map Incarnation.generation
  | .tombstone => (mapGet world.tombstones taskId).toList.map Incarnation.generation

end

def goOn (token : Nat) (sweep : ExpirySweep) : ExpiryWorld :=
  { world with sweeps := mapSet world.sweeps token sweep }

end ExpiryWorld

namespace ExpirySweep

variable (sweep : ExpirySweep)

def moveTo (phase : SweepPhase) : ExpirySweep :=
  { sweep with phase }

variable (taskId : String)

/-- The next scanned record. -/
def retain (remaining : List (String × ExpiryRecord)) : ExpirySweep :=
  { sweep with
    phase := .sweeping remaining
    result := { sweep.result with retained := sweep.result.retained ++ [taskId] } }

def complete (generation : Nat) (afterwards : AfterExpunge) : ExpirySweep :=
  sweep.moveTo (.removing taskId generation (.artifact .children) afterwards)

/-- Where the sweep stands after an operation of `completeExpunge`. -/
def removed (generation : Nat) (stage : ExpungeStage) (afterwards : AfterExpunge) : ExpirySweep :=
  match stage.next with
  | some next => sweep.moveTo (.removing taskId generation next afterwards)
  | none =>
    { sweep with
      phase :=
        match afterwards with
        | .recover found => .recovering found
        | .sweep remaining => .sweeping remaining
      result := { sweep.result with deleted := sweep.result.deleted ++ [taskId] } }

end ExpirySweep

namespace ExpiryWorld

section

variable (world : ExpiryWorld)

/-- `tombstoneIfExpired` on a scanned record that the scan did not retain. -/
def tombstoneIfExpired (token : Nat) (sweep : ExpirySweep) (taskId : String)
    (remaining : List (String × ExpiryRecord)) : ExpiryWorld :=
  match mapGet world.records taskId with
  | none => world.goOn token (sweep.retain taskId remaining)
  | some fresh =>
    if world.shouldRetain sweep.manager taskId fresh.task sweep.cutoff then
      world.goOn token (sweep.retain taskId remaining)
    else
      (world.bury taskId fresh).goOn token (sweep.moveTo (.tombstoned taskId fresh remaining))

/-- `terminateOrphan` up to its delay.  The record is invisible by now, unless there is
another one. -/
def terminateOrphan (token : Nat) (sweep : ExpirySweep) (taskId : String) (stored : Incarnation)
    (remaining : List (String × ExpiryRecord)) : ExpiryWorld :=
  let pid :=
    match mapGet world.records taskId with
    | none => stored.task.processOf
    | some other => other.task.processOf
  match pid with
  | none => world.goOn token (sweep.moveTo (.disposing taskId stored remaining))
  | some pid =>
    if world.isAlive pid then
      (world.appendArtifact .log taskId stored.generation).goOn token
        (sweep.moveTo (.waiting taskId stored pid remaining))
    else world.goOn token (sweep.moveTo (.disposing taskId stored remaining))

def recordDisposal (taskId : String) (now : Nat) : ExpiryWorld :=
  match mapGet world.records taskId with
  | none => world
  | some other =>
    let record := (transitionTaskRecord other.task.record (.dispose now)).record
    world.writeRecord taskId { other with task.record := record }

/-- The next step of a sweep.  The handle of a task that is destroyed was looked up in
the section of the locked check, and there was none. -/
def proceed (ttlMs : Nat) (world : ExpiryWorld) (token now : Nat)
    (sweep : ExpirySweep) : ExpiryWorld :=
  match sweep.phase with
  | .listing => world.goOn token (sweep.moveTo (.recovering world.listExpunging))
  | .recovering [] => world.goOn token (sweep.moveTo .scanning)
  | .recovering ((taskId, generation) :: found) =>
    world.goOn token (sweep.complete taskId generation (.recover found))
  | .scanning =>
    world.goOn token { sweep with
      cutoff := now - ttlMs
      phase := .sweeping world.list }
  | .sweeping [] =>
    { world with
      sweeps := mapDelete world.sweeps token
      returned := (token, sweep.result) :: world.returned }
  | .sweeping ((taskId, scanned) :: remaining) =>
    if world.shouldRetain sweep.manager taskId scanned sweep.cutoff then
      world.goOn token (sweep.retain taskId remaining)
    else world.tombstoneIfExpired token sweep taskId remaining
  | .tombstoned taskId stored remaining =>
    match stored.task.processOf with
    | none => world.goOn token (sweep.complete taskId stored.generation (.sweep remaining))
    | some pid =>
      if world.isAlive pid then
        world.goOn token (sweep.moveTo (.loading taskId stored remaining))
      else world.goOn token (sweep.complete taskId stored.generation (.sweep remaining))
  | .loading taskId stored remaining =>
    world.terminateOrphan token sweep taskId stored remaining
  | .waiting taskId stored pid remaining =>
    if world.isAlive pid then
      ((world.kill pid).appendArtifact .log taskId stored.generation).goOn token
        (sweep.moveTo (.disposing taskId stored remaining))
    else world.goOn token (sweep.moveTo (.disposing taskId stored remaining))
  | .disposing taskId stored remaining =>
    (world.recordDisposal taskId now).goOn token
      (sweep.complete taskId stored.generation (.sweep remaining))
  | .removing taskId generation stage afterwards =>
    (world.remove taskId stage).goOn token (sweep.removed taskId generation stage afterwards)

def draft (call process nowMs : Nat) (task : ExpiryRecord) : Option ExpiryWorld :=
  (nextMonotonicValue (uuidV7TimestampHighBits nowMs)
    (mapGet world.lastTaskIdValues process)).map fun value =>
      { world with
        lastTaskIdValues := mapSet world.lastTaskIdValues process value
        creations := mapSet world.creations call ⟨process, value, 0, task⟩ }

def syncTaskIdFloor (process value : Nat) : ExpiryWorld :=
  let last := max value ((mapGet world.lastTaskIdValues process).getD 0)
  { world with lastTaskIdValues := mapSet world.lastTaskIdValues process last }

/-- A new task takes an id that has no record. -/
def create (call : Nat) (creation : TaskCreation) : ExpiryWorld :=
  let taskId := formatTaskId creation.value
  let generation := world.generationOf taskId + 1
  let record := { creation.task.record with taskId }
  { (world.writeRecord taskId ⟨generation, { creation.task with record }⟩).syncTaskIdFloor
      creation.process creation.value with
    generations := mapSet world.generations taskId generation
    creations := mapDelete world.creations call }

/-- A taken id is passed over for the next one, as long as there are ids and attempts. -/
def claim (call : Nat) (creation : TaskCreation) : ExpiryWorld :=
  match mapGet world.records (formatTaskId creation.value) with
  | none => world.create call creation
  | some _ =>
    if creation.attempts + 1 < defaultMaxClaimAttempts && creation.value < maxTaskIdValue then
      { world with
        creations := mapSet world.creations call { creation with
          value := creation.value + 1
          attempts := creation.attempts + 1 } }
    else { world with creations := mapDelete world.creations call }

end

def step (ttlMs : Nat) (world : ExpiryWorld) : ExpiryLabel → Option ExpiryWorld
  | .beginSweep token manager =>
    match mapGet world.sweeps token with
    | none => some (world.goOn token ⟨manager, 0, .listing, ⟨[], []⟩⟩)
    | some _ => none
  | .proceed token now => (mapGet world.sweeps token).map (world.proceed ttlMs token now)
  | .crash token => some { world with sweeps := mapDelete world.sweeps token }
  | .draft call process nowMs task =>
    match mapGet world.creations call with
    | none => world.draft call process nowMs task
    | some _ => none
  | .claim call => (mapGet world.creations call).map (world.claim call)
  | .syncTaskIdFloor process value => some (world.syncTaskIdFloor process value)
  | .mutate taskId next =>
    (mapGet world.records taskId).map fun stored =>
      world.writeRecord taskId { stored with task := next }
  | .writeArtifact artifact taskId generation =>
    if generation ≤ world.generationOf taskId then
      some (world.appendArtifact artifact taskId generation)
    else none
  | .exit pid => some (world.kill pid)
  | .setHandles handles => some { world with handles }

end ExpiryWorld

end OpenAgent.Tasks
