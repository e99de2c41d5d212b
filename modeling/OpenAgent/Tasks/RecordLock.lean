import OpenAgent.Library.Interleaving
import OpenAgent.Tasks.TaskRecord

/-!
# The lock around a task record

A record is read, changed and rewritten under a lock file beside it.  Processes create
the lock file exclusively; a file older than a fixed age is taken for one that a crashed
process left behind, and whoever finds it so removes the file at the lock path.  The
process that leaves removes the file at the lock path as well.  A step takes one process
over one call of the file system, a process can die anywhere, and the clock goes on
between the steps.
-/

namespace OpenAgent.Tasks

open Library

/-- A change of the record.  A mutation that gives its argument back writes nothing. -/
inductive RecordCall
  | mutate (mutation : TaskRecord → Option TaskRecord)
  | transition (transition : TaskTransition)

/-- The record that is written, if one is. -/
def RecordCall.next (call : RecordCall) (current : TaskRecord) : Option TaskRecord :=
  match call with
  | .mutate mutation => mutation current
  | .transition requested =>
    let result := transitionTaskRecord current requested
    if result.applied then some result.record else none

def RecordCall.apply (current : TaskRecord) (call : RecordCall) : TaskRecord :=
  (call.next current).getD current

def lockStaleMs : Nat := 5000

/-- A lock file with the process that created it and its time of modification. -/
structure RecordLockFile where
  hostPid : Process
  token : Nat
  mtimeMs : Nat

/-- The files, the clock and the changes that were written so far. -/
structure RecordWorld where
  lock : Option RecordLockFile
  stored : Option TaskRecord
  clock : Nat
  nextToken : Nat
  alive : Process → Bool
  committed : List RecordCall

/-- The lock file that a process created, and when. -/
structure HeldLock where
  token : Nat
  createdAt : Nat

/-- The points of `withTaskRecordLock` and of the operation in it. -/
inductive RecordPoint
  | outside
  /-- `openSync(lockPath, "wx")`. -/
  | opening (call : RecordCall)
  /-- `writeSync(fd, ..)`. -/
  | stamping (call : RecordCall) (held : HeldLock)
  /-- `statSync(lockPath)`. -/
  | judging (call : RecordCall)
  /-- `rmSync(lockPath)` for the file that was judged, or for none. -/
  | removing (call : RecordCall) (judged : Option Nat)
  /-- `readFileSync(path)`. -/
  | reading (call : RecordCall) (held : HeldLock)
  /-- `writeFileSync(tmpPath, ..)`, a path of this process. -/
  | writing (call : RecordCall) (current next : TaskRecord) (held : HeldLock)
  /-- `renameSync(tmpPath, path)`. -/
  | replacing (call : RecordCall) (current next : TaskRecord) (held : HeldLock)
  /-- `cacheSet(path)`. -/
  | caching (held : HeldLock)
  /-- `rmSync(lockPath)` at the end. -/
  | releasing (held : HeldLock)

/-- What a step finds beyond the state of the world. -/
inductive RecordChoice
  | proceed
  | call (requested : RecordCall)
  /-- The wait for the lock has timed out. -/
  | timeout

inductive RecordLabel
  | run (process : Process) (choice : RecordChoice)
  | crash (process : Process)
  | tick (elapsed : Nat)

namespace RecordWorld

variable (world : RecordWorld)

/-- The lock file that a process creates. -/
def create (process : Process) : RecordWorld :=
  { world with
    lock := some ⟨process, world.nextToken, world.clock⟩
    nextToken := world.nextToken + 1 }

/-- The write through a descriptor reaches the file also where it has gone from the
path. -/
def stamp (held : HeldLock) : RecordWorld :=
  { world with
    lock := world.lock.map fun file =>
      if file.token = held.token then { file with mtimeMs := world.clock } else file }

def removeLock : RecordWorld :=
  { world with lock := none }

def rewrite (call : RecordCall) (next : TaskRecord) : RecordWorld :=
  { world with
    stored := some next
    committed := world.committed ++ [call] }

/-- A file is stale by its age, and so is a file that has gone. -/
def isStaleLock : Bool :=
  world.lock.all fun file => file.mtimeMs + lockStaleMs < world.clock

end RecordWorld

def recordMove (process : Process) (choice : RecordChoice) (point : RecordPoint)
    (world : RecordWorld) : Option (RecordWorld × RecordPoint) :=
  match point, choice with
  | .outside, .call requested => some (world, .opening requested)
  | .opening call, .proceed =>
    if world.lock.isSome then some (world, .judging call)
    else some (world.create process, .stamping call ⟨world.nextToken, world.clock⟩)
  | .stamping call held, .proceed => some (world.stamp held, .reading call held)
  | .judging call, .proceed =>
    if world.isStaleLock then
      some (world, .removing call (world.lock.map RecordLockFile.token))
    else some (world, .opening call)
  | .judging _, .timeout => if world.isStaleLock then none else some (world, .outside)
  | .removing call _, .proceed => some (world.removeLock, .opening call)
  | .reading call held, .proceed =>
    match world.stored with
    | none => some (world, .releasing held)
    | some current =>
      match call.next current with
      | none => some (world, .caching held)
      | some next => some (world, .writing call current next held)
  | .writing call current next held, .proceed =>
    some (world, .replacing call current next held)
  | .replacing call _ next held, .proceed => some (world.rewrite call next, .caching held)
  | .caching held, .proceed => some (world, .releasing held)
  | .releasing _, .proceed => some (world.removeLock, .outside)
  | _, _ => none

/-- One step of the processes; a dead process does not move. -/
def recordStep (pool : Pool RecordWorld RecordPoint)
    (label : RecordLabel) : Option (Pool RecordWorld RecordPoint) :=
  match label with
  | .run process choice =>
    if pool.world.alive process then pool.advance (recordMove process choice) process
    else none
  | .crash process =>
    some { pool with world :=
      { pool.world with alive := Function.update pool.world.alive process false } }
  | .tick elapsed =>
    some { pool with world := { pool.world with clock := pool.world.clock + elapsed } }

/-- A record at rest. -/
def recordAtRest (stored : Option TaskRecord) : Pool RecordWorld RecordPoint where
  world :=
    { lock := none
      stored := stored
      clock := 0
      nextToken := 0
      alive := fun _ => true
      committed := [] }
  points := fun _ => .outside

end OpenAgent.Tasks
