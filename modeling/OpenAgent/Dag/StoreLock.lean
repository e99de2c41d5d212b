import OpenAgent.Library.LockFiles

/-!
# The lock of the DAG store

`withLock` of `store.ts` on one lock path: publication by a hard link or by an
exclusive open followed by a write, reclamation of a dead holder's lock under a
second lock, and removal through a quarantine name.  A point stands before one
call of the file system on a shared path; temporary, successor and quarantine
names are private to a process.  A process answers to signals as long as it
lives.
-/

namespace OpenAgent.Dag

open Library

/-- The lock path and the path of the reclaim mutex. -/
inductive LockPath
  | main
  | reclaim
  deriving DecidableEq

/-- What `readLockHolder` returns: no file, a file without a process, or the
record of a process. -/
inductive Holder
  | missing
  | blank
  | record (file : LockFile)
  deriving DecidableEq

structure LockWorld extends LockTable LockPath where
  /-- The content of a file has been written. -/
  written : LockFile → Bool
  nextToken : Nat

/-- A use of `removeObservedLock`. -/
inductive Removal
  /-- The reclaim mutex of a dead process. -/
  | deadMutex (observed : Holder)
  /-- The own reclaim mutex, with the lock if it has been acquired. -/
  | ownMutex (mutex : LockFile) (acquired : Option LockFile)
  /-- The own lock. -/
  | ownLock (file : LockFile)
  deriving DecidableEq

/-- The points of `withLock`. -/
inductive LockPoint
  | outside
  /-- `linkSync(temporaryPath, path)` of `tryCreateLock`. -/
  | linkMain
  /-- `openSync(path, "wx")` of `publishLockExclusively`. -/
  | openMain
  /-- `writeSync(fd, content)`. -/
  | writeMain (file : LockFile)
  /-- `readLockHolder(path)` behind a lost attempt. -/
  | readMain
  /-- `isProcessAlive(observedHolder.pid)`. -/
  | judgeMain (observed : Holder)
  /-- The same calls on the reclaim path in `tryAcquireReclaimMutex`. -/
  | linkReclaim (observed : Holder)
  | openReclaim (observed : Holder)
  | writeReclaim (observed : Holder) (mutex : LockFile)
  | readReclaim
  | judgeReclaim (observed : Holder)
  /-- `readLockHolder(path)` under the reclaim mutex. -/
  | confirm (observed : Holder) (mutex : LockFile)
  /-- `isProcessAlive(currentHolder.pid)`. -/
  | judgeConfirm (observed : Holder) (mutex : LockFile)
  /-- `renameSync(successorPath, path)`. -/
  | replace (mutex : LockFile)
  /-- `operation()`. -/
  | inside (file : LockFile)
  /-- `readLockHolder(path)` of `removeObservedLock`. -/
  | compare (removal : Removal)
  /-- `renameSync(path, quarantinePath)`. -/
  | moveAway (removal : Removal)
  /-- `readLockHolder(quarantinePath)` and the removal of that file. -/
  | inspect (removal : Removal) (moved : LockFile)
  /-- `linkSync(quarantinePath, path)` of `restoreQuarantinedLock`. -/
  | putBack (removal : Removal) (moved : LockFile)
  deriving DecidableEq

/-- What a step finds beyond the state of the world. -/
inductive LockChoice
  | proceed
  /-- Hard links are refused with `EPERM` or `EACCES`. -/
  | refused
  /-- The wait behind one holder has timed out in front of a further attempt. -/
  | timeout
  deriving DecidableEq

/-- One step: a process moves, or dies. -/
inductive LockLabel
  | run (process : Process) (choice : LockChoice)
  | crash (process : Process)

namespace Removal

def path : Removal → LockPath
  | deadMutex _ | ownMutex _ _ => .reclaim
  | ownLock _ => .main

def observed : Removal → Holder
  | deadMutex observed => observed
  | ownMutex mutex _ => .record mutex
  | ownLock file => .record file

/-- Where the caller goes on. -/
def afterwards : Removal → LockPoint
  | deadMutex _ => .linkMain
  | ownMutex _ none => .linkMain
  | ownMutex _ (some file) => .inside file
  | ownLock _ => .outside

end Removal

namespace LockWorld

variable (world : LockWorld)

/-- The content of a file. -/
def contentOf (file : LockFile) : Holder :=
  if world.written file then .record file else .blank

section

variable (path : LockPath)

def readLockHolder : Holder :=
  match world.fileAt path with
  | none => .missing
  | some file => world.contentOf file

/-- `pid === undefined || !isProcessAlive(pid)`. -/
def isGone : Holder → Bool
  | .missing => false
  | .blank => true
  | .record file => !world.alive file.hostPid

/-- The next file of a process. -/
def newFile (process : Process) : LockFile where
  hostPid := process
  token := world.nextToken

/-- A new file at a path. -/
def publish (process : Process) (isWritten : Bool) : LockWorld :=
  { world with
    fileAt := Function.update world.fileAt path (some (world.newFile process))
    written := Function.update world.written (world.newFile process) isWritten
    nextToken := world.nextToken + 1 }

def write (file : LockFile) : LockWorld :=
  { world with written := Function.update world.written file true }

def remove : LockWorld :=
  { world with fileAt := Function.update world.fileAt path none }

def restore (file : LockFile) : LockWorld :=
  { world with fileAt := Function.update world.fileAt path (some file) }

end

/-- `canRemove` of a removal. -/
def canRemove (removal : Removal) (moved : LockFile) : Bool :=
  match removal with
  | .deadMutex _ => world.isGone (world.contentOf moved)
  | .ownMutex _ _ | .ownLock _ => true

end LockWorld

/-- The move of a process. -/
def lockMove (process : Process) (choice : LockChoice) (point : LockPoint)
    (world : LockWorld) : Option (LockWorld × LockPoint) :=
  let file := world.newFile process
  match point, choice with
  | .outside, .proceed => some (world, .linkMain)
  | .linkMain, .proceed =>
    if (world.fileAt .main).isSome then some (world, .readMain)
    else some (world.publish .main process true, .inside file)
  | .linkMain, .refused => some (world, .openMain)
  | .linkMain, .timeout => some (world, .outside)
  | .openMain, .proceed =>
    if (world.fileAt .main).isSome then some (world, .readMain)
    else some (world.publish .main process false, .writeMain file)
  | .writeMain file, .proceed => some (world.write file, .inside file)
  | .readMain, .proceed =>
    match world.readLockHolder .main with
    | .missing => some (world, .linkMain)
    | observed => some (world, .judgeMain observed)
  | .judgeMain observed, .proceed =>
    if world.isGone observed then some (world, .linkReclaim observed)
    else some (world, .linkMain)
  | .linkReclaim observed, .proceed =>
    if (world.fileAt .reclaim).isSome then some (world, .readReclaim)
    else some (world.publish .reclaim process true, .confirm observed file)
  | .linkReclaim observed, .refused => some (world, .openReclaim observed)
  | .openReclaim observed, .proceed =>
    if (world.fileAt .reclaim).isSome then some (world, .readReclaim)
    else some (world.publish .reclaim process false, .writeReclaim observed file)
  | .writeReclaim observed mutex, .proceed =>
    some (world.write mutex, .confirm observed mutex)
  | .readReclaim, .proceed =>
    match world.readLockHolder .reclaim with
    | .missing => some (world, .linkMain)
    | observed => some (world, .judgeReclaim observed)
  | .judgeReclaim observed, .proceed =>
    if world.isGone observed then some (world, .compare (.deadMutex observed))
    else some (world, .linkMain)
  | .confirm observed mutex, .proceed =>
    match world.readLockHolder .main with
    | .missing => some (world, .compare (.ownMutex mutex none))
    | current =>
      if current = observed then some (world, .judgeConfirm observed mutex)
      else some (world, .compare (.ownMutex mutex none))
  | .judgeConfirm observed mutex, .proceed =>
    if world.isGone observed then some (world, .replace mutex)
    else some (world, .compare (.ownMutex mutex none))
  | .replace mutex, .proceed =>
    some (world.publish .main process true, .compare (.ownMutex mutex (some file)))
  | .inside file, .proceed => some (world, .compare (.ownLock file))
  | .compare removal, .proceed =>
    if world.readLockHolder removal.path = removal.observed then
      some (world, .moveAway removal)
    else some (world, removal.afterwards)
  | .moveAway removal, .proceed =>
    match world.fileAt removal.path with
    | none => some (world, removal.afterwards)
    | some moved => some (world.remove removal.path, .inspect removal moved)
  | .inspect removal moved, .proceed =>
    if world.contentOf moved = removal.observed && world.canRemove removal moved then
      some (world, removal.afterwards)
    else some (world, .putBack removal moved)
  | .putBack removal moved, .proceed =>
    if (world.fileAt removal.path).isSome then some (world, removal.afterwards)
    else some (world.restore removal.path moved, removal.afterwards)
  | _, _ => none

/-- One step of the processes; a dead process does not move. -/
def lockStep (pool : Pool LockWorld LockPoint)
    (label : LockLabel) : Option (Pool LockWorld LockPoint) :=
  match label with
  | .run process choice =>
    if pool.world.alive process then pool.advance (lockMove process choice) process
    else none
  | .crash process =>
    some { pool with world :=
      { pool.world with alive := Function.update pool.world.alive process false } }

/-- A free lock. -/
def freeLock : Pool LockWorld LockPoint where
  world :=
    { fileAt := fun _ => none
      written := fun _ => false
      nextToken := 0
      alive := fun _ => true }
  points := fun _ => .outside

end OpenAgent.Dag
