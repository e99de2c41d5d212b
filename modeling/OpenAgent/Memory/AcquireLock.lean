import OpenAgent.Library.LockFiles

/-!
# The lock of the memory store

`acquireLock` and `releaseLock` of `locks/acquire.ts` on one lock path, with the
recovery of a dead owner's lock under a recovery file.  Files appear by a hard
link, with their content.  A point stands before one call of the file system or
one probe of a process; candidate and tombstone names are private to a process.
-/

namespace OpenAgent.Memory

open Library

/-- The lock path and its recovery path. -/
inductive LockPath
  | main
  | recovery
  deriving DecidableEq

structure LockWorld extends LockTable LockPath where
  nextToken : Nat

/-- What `readOwner` returns; a file that cannot be opened has no record. -/
inductive OwnerSnapshot
  | missing
  | unreadable
  | record (file : LockFile)
  deriving DecidableEq

/-- What a step finds beyond the state of the world. -/
inductive AcquireChoice
  | proceed
  /-- A read or a rename is refused, or a probe is inconclusive. -/
  | denied
  /-- The candidate of a publication has been swept away. -/
  | vanished
  /-- The deadline has passed or the caller aborts, in front of an attempt. -/
  | abort
  deriving DecidableEq

/-- The points of `acquireLock` and `releaseLock`. -/
inductive AcquirePoint
  | outside
  /-- `link(candidatePath, lockPath)`. -/
  | linkMain
  /-- `readOwner(lockPath)` behind a lost attempt. -/
  | readMain
  /-- `isProvenDead(snapshot.record)`. -/
  | judgeMain (snapshot : LockFile)
  /-- `link(candidatePath, recoveryPath)`, for the first or the second time. -/
  | linkRecovery (snapshot : LockFile) (retried : Bool)
  /-- `readOwner(recoveryPath)` of `reclaimDeadRecoveryLock`. -/
  | readStale (snapshot : LockFile)
  /-- `isProvenDead(stale.record)`. -/
  | judgeStale (snapshot stale : LockFile)
  /-- `rename(recoveryPath, tombstonePath)`. -/
  | renameStale (snapshot stale : LockFile)
  /-- `readOwner(tombstonePath)` and the removal of that file. -/
  | inspectMoved (snapshot stale moved : LockFile)
  /-- `link(tombstonePath, recoveryPath)`. -/
  | handBack (moved : LockFile)
  /-- `readOwner(lockPath)` under the recovery lock. -/
  | readCurrent (snapshot recovery : LockFile)
  /-- `isProvenDead(current.record)`. -/
  | judgeCurrent (current recovery : LockFile)
  /-- `readOwner(recoveryPath)` of the fence. -/
  | readFence (recovery : LockFile)
  /-- `unlink(lockPath)` behind the fence. -/
  | unlinkMain (recovery : LockFile)
  /-- `readOwner(recoveryPath)` of `releaseLock`. -/
  | releaseRecovery (recovery : LockFile) (raised : Bool)
  /-- `unlink(recoveryPath)` of `releaseLock`. -/
  | unlinkRecovery (recovery : LockFile) (raised : Bool)
  /-- `acquireLock` has returned. -/
  | holding (file : LockFile)
  /-- `readOwner(lockPath)` of `releaseLock`. -/
  | releaseMain (file : LockFile)
  /-- `unlink(lockPath)` of `releaseLock`. -/
  | unlinkOwn (file : LockFile)
  deriving DecidableEq

/-- One step: a process moves, or dies. -/
inductive AcquireLabel
  | run (process : Process) (choice : AcquireChoice)
  | crash (process : Process)

namespace LockWorld

variable (world : LockWorld) (path : LockPath)

def readOwner (choice : AcquireChoice) : OwnerSnapshot :=
  if choice = .denied then .unreadable
  else
    match world.fileAt path with
    | none => .missing
    | some file => .record file

/-- The answer of an accurate probe; it may be inconclusive. -/
def isProvenDead (file : LockFile) (choice : AcquireChoice) : Bool :=
  choice ≠ .denied && !world.alive file.hostPid

/-- The next file of a process. -/
def newFile (process : Process) : LockFile where
  hostPid := process
  token := world.nextToken

/-- `publishExclusive`; `none` is a lost race. -/
def publishExclusive (process : Process) (choice : AcquireChoice) : Option LockWorld :=
  if choice = .vanished || (world.fileAt path).isSome then none
  else
    some { world with
      fileAt := Function.update world.fileAt path (some (world.newFile process))
      nextToken := world.nextToken + 1 }

def unlink : LockWorld :=
  { world with fileAt := Function.update world.fileAt path none }

def link (file : LockFile) : LockWorld :=
  { world with fileAt := Function.update world.fileAt path (some file) }

end LockWorld

/-- Where `recoverDeadOwner` leaves its caller. -/
def afterRecovery (raised : Bool) : AcquirePoint :=
  if raised then .outside else .linkMain

/-- The move of a process. -/
def acquireMove (process : Process) (choice : AcquireChoice) (point : AcquirePoint)
    (world : LockWorld) : Option (LockWorld × AcquirePoint) :=
  match point with
  | .outside => some (world, .linkMain)
  | .linkMain =>
    if choice = .abort then some (world, .outside)
    else
      match world.publishExclusive .main process choice with
      | none => some (world, .readMain)
      | some after => some (after, .holding (world.newFile process))
  | .readMain =>
    match world.readOwner .main choice with
    | .missing | .unreadable => some (world, .linkMain)
    | .record snapshot => some (world, .judgeMain snapshot)
  | .judgeMain snapshot =>
    if world.isProvenDead snapshot choice then some (world, .linkRecovery snapshot false)
    else some (world, .linkMain)
  | .linkRecovery snapshot retried =>
    match world.publishExclusive .recovery process choice with
    | none => some (world, if retried then .linkMain else .readStale snapshot)
    | some after => some (after, .readCurrent snapshot (world.newFile process))
  | .readStale snapshot =>
    match world.readOwner .recovery choice with
    | .missing | .unreadable => some (world, .linkMain)
    | .record stale => some (world, .judgeStale snapshot stale)
  | .judgeStale snapshot stale =>
    if world.isProvenDead stale choice then some (world, .renameStale snapshot stale)
    else some (world, .linkMain)
  | .renameStale snapshot stale =>
    if choice = .denied then some (world, .linkMain)
    else
      match world.fileAt .recovery with
      | none => some (world, .linkMain)
      | some moved => some (world.unlink .recovery, .inspectMoved snapshot stale moved)
  | .inspectMoved snapshot stale moved =>
    if choice ≠ .denied && moved = stale then some (world, .linkRecovery snapshot true)
    else some (world, .handBack moved)
  | .handBack moved =>
    if (world.fileAt .recovery).isSome then some (world, .linkMain)
    else some (world.link .recovery moved, .linkMain)
  | .readCurrent snapshot recovery =>
    match world.readOwner .main choice with
    | .missing | .unreadable => some (world, .releaseRecovery recovery false)
    | .record current =>
      if current = snapshot then some (world, .judgeCurrent current recovery)
      else some (world, .releaseRecovery recovery false)
  | .judgeCurrent current recovery =>
    if world.isProvenDead current choice then some (world, .readFence recovery)
    else some (world, .releaseRecovery recovery false)
  | .readFence recovery =>
    if world.readOwner .recovery choice = .record recovery then
      some (world, .unlinkMain recovery)
    else some (world, .releaseRecovery recovery false)
  | .unlinkMain recovery =>
    -- without a file, `unlink` raises `ENOENT` through `finally`
    some (world.unlink .main, .releaseRecovery recovery (world.fileAt .main).isNone)
  | .releaseRecovery recovery raised =>
    if world.readOwner .recovery choice = .record recovery then
      some (world, .unlinkRecovery recovery raised)
    else some (world, afterRecovery raised)
  | .unlinkRecovery _ raised => some (world.unlink .recovery, afterRecovery raised)
  | .holding file => some (world, .releaseMain file)
  | .releaseMain file =>
    if world.readOwner .main choice = .record file then some (world, .unlinkOwn file)
    else some (world, .outside)
  | .unlinkOwn _ => some (world.unlink .main, .outside)

/-- One step of the processes; a dead process does not move. -/
def acquireStep (pool : Pool LockWorld AcquirePoint)
    (label : AcquireLabel) : Option (Pool LockWorld AcquirePoint) :=
  match label with
  | .run process choice =>
    if pool.world.alive process then pool.advance (acquireMove process choice) process
    else none
  | .crash process =>
    some { pool with world :=
      { pool.world with alive := Function.update pool.world.alive process false } }

/-- A free lock. -/
def freeLock : Pool LockWorld AcquirePoint where
  world :=
    { fileAt := fun _ => none
      nextToken := 0
      alive := fun _ => true }
  points := fun _ => .outside

end OpenAgent.Memory
