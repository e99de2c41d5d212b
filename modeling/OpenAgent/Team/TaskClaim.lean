import OpenAgent.Library.Interleaving

/-!
# Claims of a task

`claimTask` of `team-tasklist/claim.ts` with the file lock of
`team-state-store/locks.ts`, for one task.  Every process is one call of
`claimTask`; the calls run in operating system processes that may crash.  A
point stands before one call of the file system.
-/

namespace OpenAgent.Team

open Library

/-- The statuses of a team task. -/
inductive TaskStatus
  | pending
  | claimed
  | inProgress
  | completed
  | deleted
  deriving DecidableEq

/-- The lock file of a claim: the call that has created it, and whether the
owner has been written into it. -/
structure ClaimLock where
  creator : Process
  written : Bool

/-- The files of a task and the processes of the system. -/
structure ClaimWorld where
  lock : Option ClaimLock
  status : TaskStatus
  /-- The call that has written the owner of the task. -/
  owner : Option Process
  alive : Nat → Bool

/-- The points of `claimTask`. -/
inductive ClaimPoint
  | idle
  /-- `getTask` and `listTasks` in front of the lock. -/
  | readTask
  /-- `readFile` of `detectStaleLock` in front of the lock. -/
  | detect
  /-- `unlink` of a lock that was found stale. -/
  | reap (judged : Process)
  /-- `access` of `lockExists`. -/
  | probe
  /-- `open(lockPath, "wx")`. -/
  | openLock
  /-- `writeFile(buildOwnerContent(ownerTag))`. -/
  | writeOwner
  /-- `readFile` of `detectStaleLock` in the loop of `acquireLock`. -/
  | detectHeld
  /-- `getTask` and `listTasks` under the lock. -/
  | readInside
  /-- The rename of `atomicWrite`. -/
  | writeTask
  /-- The `unlink` that releases the lock. -/
  | release (succeeded : Bool)
  | finished (succeeded : Bool)
  deriving DecidableEq

/-- What a step finds beyond the state of the world. -/
inductive ClaimChoice
  /-- A call, or a file call that answers from the state. -/
  | proceed
  /-- The tasks are read; a blocker is open or not. -/
  | tasks (blocked : Bool)
  /-- The lock is read: `process.kill(pid, 0)` throws or not, and the content
  names an owner and a time before the limit. -/
  | owner (gone expired : Bool)
  /-- The wait for the lock times out. -/
  | timeout
  /-- `unlink` keeps failing with `EPERM` or `EBUSY`. -/
  | stuck
  deriving DecidableEq

/-- One step: a call moves, or a process of the system dies. -/
inductive ClaimLabel
  | run (process : Process) (choice : ClaimChoice)
  | crash (pid : Nat)

section

variable (pidOf : Process → Nat)

/-- `detectStaleLock`: a missing lock, one without owner and one whose owner
lives are not stale. -/
def detectStaleLock (world : ClaimWorld) (gone expired : Bool) (stale : Process → ClaimPoint)
    (fresh : ClaimPoint) : Option (ClaimWorld × ClaimPoint) :=
  match world.lock with
  | none => some (world, fresh)
  | some lock =>
    if lock.written then
      -- the signal cannot reach a dead process
      if gone || world.alive (pidOf lock.creator) then
        some (world, if gone && expired then stale lock.creator else fresh)
      else none
    else some (world, fresh)

/-- The move of a call. -/
def claimMove (process : Process) (choice : ClaimChoice) (point : ClaimPoint) (world : ClaimWorld) :
    Option (ClaimWorld × ClaimPoint) :=
  match point, choice with
  | .idle, .proceed => some (world, .readTask)
  | .readTask, .tasks blocked =>
    if world.status = .pending && !blocked then some (world, .detect)
    else some (world, .finished false)
  | .detect, .owner gone expired =>
    detectStaleLock pidOf world gone expired .reap .probe
  | .reap _, .proceed => some ({ world with lock := none }, .openLock)
  | .reap _, .stuck => some (world, .openLock)
  | .probe, .proceed =>
    if world.lock.isSome then some (world, .finished false) else some (world, .openLock)
  | .openLock, .proceed =>
    if world.lock.isSome then some (world, .detectHeld)
    else some ({ world with lock := some ⟨process, false⟩ }, .writeOwner)
  | .openLock, .timeout => some (world, .finished false)
  | .writeOwner, .proceed =>
    -- a file that was removed meanwhile is written out of sight
    match world.lock with
    | some lock =>
      if lock.creator = process then
        some ({ world with lock := some ⟨process, true⟩ }, .readInside)
      else some (world, .readInside)
    | none => some (world, .readInside)
  | .detectHeld, .owner gone expired =>
    detectStaleLock pidOf world gone expired .reap .openLock
  | .readInside, .tasks blocked =>
    if world.status = .pending && !blocked then some (world, .writeTask)
    else some (world, .release false)
  | .writeTask, .proceed =>
    some ({ world with status := .claimed, owner := some process }, .release true)
  | .release succeeded, .proceed =>
    some ({ world with lock := none }, .finished succeeded)
  | .release succeeded, .stuck => some (world, .finished succeeded)
  | _, _ => none

/-- One step of the calls; a call of a dead process does not move. -/
def claimStep (pool : Pool ClaimWorld ClaimPoint) (label : ClaimLabel) :
    Option (Pool ClaimWorld ClaimPoint) :=
  match label with
  | .run process choice =>
    if pool.world.alive (pidOf process) then
      pool.advance (claimMove pidOf process choice) process
    else none
  | .crash pid =>
    some { pool with world :=
      { pool.world with alive := Function.update pool.world.alive pid false } }

end

/-- A pending task before any call. -/
def pendingTask : Pool ClaimWorld ClaimPoint where
  world := { lock := none, status := .pending, owner := none, alive := fun _ => true }
  points := fun _ => .idle

end OpenAgent.Team
