import OpenAgent.Config.MigrationJournal
import OpenAgent.Library.Interleaving

/-!
# The lock of the migrations

`acquireMigrationLock` of `lock.ts`, with `renew` and `release` of the lock that it returns.
The lock is a file that shows a lease; changes of a present lock file are made under a guard,
a second such file.  A point stands before one call of the file system or one look at the
clock, and an exclusive write is two calls: a file appears empty and is written afterwards.
-/

namespace OpenAgent.Config

open Library

/-- `migrationLockPath` and `mutationGuardPath`. -/
inductive LockPath
  | lock
  | guard
  deriving DecidableEq

/-- `GUARD_LEASE_DURATION_MS`. -/
def guardLeaseDurationMs : Nat := 1000

/-- `LIVE_OWNER_STALE_LEASE_MULTIPLIER`. -/
def liveOwnerStaleLeaseMultiplier : Nat := 2

/-- `MUTATION_GUARD_RETRY_DELAYS_MS`. -/
def mutationGuardRetryDelaysMs : List Nat := [2, 4, 8, 16, 32]

/-- What a process writes into a lock file. -/
structure Lease where
  leaseExpiresAt : Nat
  pid : Process
  deriving DecidableEq

def Lease.json (lease : Lease) : Json :=
  .object
    [ (unitsOf "leaseExpiresAt", .number (naturalLiteral lease.leaseExpiresAt)),
      (unitsOf "pid", .number (naturalLiteral lease.pid)) ]

/-- `leaseContent`. -/
def Lease.content (lease : Lease) : Content :=
  stringify lease.json ++ ['\n']

/-- What a lock file is read as. -/
structure LockRecord where
  leaseExpiresAt : ℚ
  pid : Nat

/-- `Number.isFinite` of a parsed number: literals from here on are read as infinite. -/
def numberLimit : ℚ := 2 ^ 1024 - 2 ^ 970

/-- The check of `pid`. -/
def parsePid : Json → Option Nat
  | .number literal =>
    if literal.value.den = 1 ∧ 1 ≤ literal.value ∧ literal.value < numberLimit then
      some literal.value.num.toNat
    else none
  | _ => none

/-- The check of `leaseExpiresAt`. -/
def parseExpiry : Json → Option ℚ
  | .number literal =>
    if -numberLimit < literal.value ∧ literal.value < numberLimit then some literal.value
    else none
  | _ => none

def parseLockRecord (content : Content) : Option LockRecord := do
  let value ← parseJson content
  let pid ← (value.member "pid").bind parsePid
  let leaseExpiresAt ← (value.member "leaseExpiresAt").bind parseExpiry
  return { leaseExpiresAt, pid }

/-- A file, with the process that has created it.  No function looks at the creator: it
stands for the open file that the process writes to. -/
structure PresentFile where
  content : Content
  creator : Process

structure LockWorld where
  now : Nat
  alive : Process → Bool
  /-- `leaseDurationMs` of the call that a process makes. -/
  leaseDurationMs : Process → Nat
  fileAt : LockPath → Option PresentFile

namespace LockWorld

variable (world : LockWorld)

def set (path : LockPath) (file : Option PresentFile) : LockWorld :=
  { world with fileAt := Function.update world.fileAt path file }

@[simp] theorem fileAt_set_self (path : LockPath) (file : Option PresentFile) :
    (world.set path file).fileAt path = file := by
  simp [set]

theorem fileAt_set_of_ne (differs : other ≠ path) (world : LockWorld) (file : Option PresentFile) :
    (world.set path file).fileAt other = world.fileAt other := by
  simp [set, differs]

def setDuration (process : Process) (duration : Nat) : LockWorld :=
  { world with leaseDurationMs := Function.update world.leaseDurationMs process duration }

/-- The lease that `leaseContent` shows. -/
def lease (process : Process) (duration : Nat) : Lease where
  leaseExpiresAt := world.now + duration
  pid := process

/-- The open file of its creator is written; it may have been unlinked. -/
def writeCreated (path : LockPath) (process : Process) (content : Content) : LockWorld :=
  match world.fileAt path with
  | none => world
  | some file =>
    if file.creator = process then world.set path (some { file with content }) else world

/-- `writeFileSync`, which creates a missing file. -/
def overwrite (path : LockPath) (process : Process) (content : Content) : LockWorld :=
  match world.fileAt path with
  | none => world.set path (some { content, creator := process })
  | some file => world.set path (some { file with content })

/-- `isReclaimable`. -/
def isReclaimable (record : LockRecord) (leaseDurationMs : Nat) : Bool :=
  if (world.now : ℚ) < record.leaseExpiresAt then false
  else if !world.alive record.pid then true
  else record.leaseExpiresAt + (leaseDurationMs * liveOwnerStaleLeaseMultiplier : Nat) ≤
    (world.now : ℚ)

/-- Whether a file with an observed content may be removed. -/
def mayRemove (observedContent : Content) (leaseDurationMs : Nat) : Bool :=
  match parseLockRecord observedContent with
  | none => true
  | some record => world.isReclaimable record leaseDurationMs

end LockWorld

/-- What the guard is acquired for. -/
inductive GuardPurpose
  /-- The takeover of a present lock, in an attempt of `acquireMigrationLock`. -/
  | takeOver (attempt : Nat)
  | renew (owned : Lease)
  | release (owned : Lease)
  deriving DecidableEq

/-- Why `renew` throws. -/
inductive RenewFailure
  /-- "Migration lock mutation is busy". -/
  | busy
  /-- "Migration lock ownership was lost". -/
  | lost
  /-- A file is missing where it was seen before. -/
  | missing
  deriving DecidableEq

/-- What is left to do when the guard has been released. -/
inductive GuardOutcome
  /-- `continue` in an attempt of `acquireMigrationLock`. -/
  | retry (attempt : Nat)
  /-- `acquireMigrationLock` returns `null` or throws. -/
  | refused
  /-- `renew` returns. -/
  | renewed (owned : Lease)
  /-- `renew` throws. -/
  | failed (owned : Lease) (failure : RenewFailure)
  /-- `release` returns or throws. -/
  | released
  deriving DecidableEq

/-- The calls of `removeIfContentsMatchSync`. -/
inductive Removal
  /-- In `acquireMutationGuard`. -/
  | staleGuard (purpose : GuardPurpose) (attempt : Nat) (observedContent : Content)
  /-- In `acquireMigrationLock`. -/
  | takenOver (attempt : Nat) (observedContent : Content) (guard : Lease)
  /-- In `release`, with the guard or without. -/
  | ownLock (owned : Lease) (guard : Option Lease)
  /-- In `releaseMutationGuard`. -/
  | ownGuard (outcome : GuardOutcome) (guard : Lease)
  deriving DecidableEq

/-- The three calls of a comparison with the change behind it. -/
inductive CompareStage
  | exists
  | read
  | change
  deriving DecidableEq

inductive LockPoint
  | outside
  /-- `leaseContent` of an attempt of `acquireMigrationLock`. -/
  | compose (attempt : Nat)
  /-- The creation of the lock file. -/
  | createLock (attempt : Nat) (current : Lease)
  | writeLock (current : Lease)
  /-- `acquireMigrationLock` has returned a lock. -/
  | holding (owned : Lease)
  /-- `renew` has thrown. -/
  | renewFailed (owned : Lease) (failure : RenewFailure)
  /-- `leaseContent` of an attempt of `acquireMutationGuard`. -/
  | guardCompose (purpose : GuardPurpose) (attempt : Nat)
  /-- The creation of the guard. -/
  | guardCreate (purpose : GuardPurpose) (attempt : Nat) (guard : Lease)
  | guardWrite (purpose : GuardPurpose) (guard : Lease)
  /-- The guard of another process is read. -/
  | guardRead (purpose : GuardPurpose) (attempt : Nat)
  | guardJudge (purpose : GuardPurpose) (attempt : Nat) (observedContent : Content)
  /-- The lock of another process is read, under the guard. -/
  | lockRead (attempt : Nat) (guard : Lease)
  | lockJudge (attempt : Nat) (observedContent : Content) (guard : Lease)
  | removing (removal : Removal) (stage : CompareStage)
  /-- `leaseContent` of `mutate`. -/
  | renewCompose (owned guard : Lease)
  /-- `replaceIfContentsMatchSync`. -/
  | replacing (owned renewed guard : Lease) (stage : CompareStage)
  deriving DecidableEq

/-- The next attempt of `acquireMigrationLock`. -/
def nextAttempt (attempt : Nat) : LockPoint :=
  if attempt + 1 < 3 then .compose (attempt + 1) else .outside

/-- Where `acquireMutationGuard` leaves its caller with the guard. -/
def GuardPurpose.guarded (guard : Lease) : GuardPurpose → LockPoint
  | .takeOver attempt => .lockRead attempt guard
  | .renew owned => .renewCompose owned guard
  | .release owned => .removing (.ownLock owned (some guard)) .exists

/-- Where `acquireMutationGuard` leaves its caller with `null`. -/
def GuardPurpose.unguarded : GuardPurpose → LockPoint
  | .takeOver _ => .outside
  | .renew owned => .renewFailed owned .busy
  | .release owned => .removing (.ownLock owned none) .exists

/-- The next attempt of `acquireMutationGuard`. -/
def GuardPurpose.nextAttempt (attempt : Nat) (purpose : GuardPurpose) : LockPoint :=
  if attempt + 1 ≤ mutationGuardRetryDelaysMs.length then .guardCompose purpose (attempt + 1)
  else purpose.unguarded

/-- Where the release of the guard leads to. -/
def GuardOutcome.returns : GuardOutcome → LockPoint
  | .retry attempt => Config.nextAttempt attempt
  | .refused => .outside
  | .renewed owned => .holding owned
  | .failed owned failure => .renewFailed owned failure
  | .released => .outside

/-- Where it leads to when it throws. -/
def GuardOutcome.throws : GuardOutcome → LockPoint
  | .retry _ | .refused | .released => .outside
  | .renewed owned | .failed owned _ => .renewFailed owned .missing

namespace Removal

def path : Removal → LockPath
  | .staleGuard _ _ _ | .ownGuard _ _ => .guard
  | .takenOver _ _ _ | .ownLock _ _ => .lock

def expected : Removal → Content
  | .staleGuard _ _ observedContent | .takenOver _ observedContent _ => observedContent
  | .ownLock owned _ => owned.content
  | .ownGuard _ guard => guard.content

/-- Where the call returns to; no caller looks at the answer. -/
def returns : Removal → LockPoint
  | .staleGuard purpose attempt _ => purpose.nextAttempt attempt
  | .takenOver attempt _ guard => .removing (.ownGuard (.retry attempt) guard) .exists
  | .ownLock _ none => .outside
  | .ownLock _ (some guard) => .removing (.ownGuard .released guard) .exists
  | .ownGuard outcome _ => outcome.returns

/-- Where a missing file throws to. -/
def throws : Removal → LockPoint
  | .staleGuard purpose attempt _ => purpose.nextAttempt attempt
  | .takenOver _ _ guard => .removing (.ownGuard .refused guard) .exists
  | .ownLock _ none => .outside
  | .ownLock _ (some guard) => .removing (.ownGuard .released guard) .exists
  | .ownGuard outcome _ => outcome.throws

end Removal

/-- What the program of a process calls next, between two calls. -/
inductive LockRequest
  | proceed
  | acquire (leaseDurationMs : Nat)
  | renew
  | release

/-- A call on the lock that a process holds. -/
def requestMove (request : LockRequest) (owned : Lease)
    (world : LockWorld) : Option (LockWorld × LockPoint) :=
  match request with
  | .renew => some (world, .guardCompose (.renew owned) 0)
  | .release => some (world, .guardCompose (.release owned) 0)
  | .proceed | .acquire _ => none

/-- `removeIfContentsMatchSync`. -/
def removeMove (removal : Removal) (stage : CompareStage) (world : LockWorld) :
    LockWorld × LockPoint :=
  match stage with
  | .exists =>
    if (world.fileAt removal.path).isSome then (world, .removing removal .read)
    else (world, removal.returns)
  | .read =>
    match world.fileAt removal.path with
    | none => (world, removal.throws)
    | some file =>
      if file.content = removal.expected then (world, .removing removal .change)
      else (world, removal.returns)
  | .change =>
    match world.fileAt removal.path with
    | none => (world, removal.throws)
    | some _ => (world.set removal.path none, removal.returns)

/-- The end of `mutate` under its guard. -/
def finishRenew (outcome : GuardOutcome) (guard : Lease) : LockPoint :=
  .removing (.ownGuard outcome guard) .exists

/-- `replaceIfContentsMatchSync` of the lock file. -/
def replaceMove (process : Process) (owned renewed guard : Lease) (stage : CompareStage)
    (world : LockWorld) : LockWorld × LockPoint :=
  match stage with
  | .exists =>
    if (world.fileAt .lock).isSome then (world, .replacing owned renewed guard .read)
    else (world, finishRenew (.failed owned .lost) guard)
  | .read =>
    match world.fileAt .lock with
    | none => (world, finishRenew (.failed owned .missing) guard)
    | some file =>
      if file.content = owned.content then (world, .replacing owned renewed guard .change)
      else (world, finishRenew (.failed owned .lost) guard)
  | .change =>
    (world.overwrite .lock process renewed.content, finishRenew (.renewed renewed) guard)

/-- The move of a process. -/
def lockMove (process : Process) (request : LockRequest) (point : LockPoint)
    (world : LockWorld) : Option (LockWorld × LockPoint) :=
  match point with
  | .outside =>
    match request with
    | .acquire duration =>
      some (world.setDuration process duration, .compose 0)
    | .proceed | .renew | .release => none
  | .compose attempt =>
    some (world, .createLock attempt (world.lease process (world.leaseDurationMs process)))
  | .createLock attempt current =>
    match world.fileAt .lock with
    | none =>
      some (world.set .lock (some { content := [], creator := process }), .writeLock current)
    | some _ => some (world, .guardCompose (.takeOver attempt) 0)
  | .writeLock current =>
    some (world.writeCreated .lock process current.content, .holding current)
  | .holding owned | .renewFailed owned _ => requestMove request owned world
  | .guardCompose purpose attempt =>
    some (world, .guardCreate purpose attempt (world.lease process guardLeaseDurationMs))
  | .guardCreate purpose attempt guard =>
    match world.fileAt .guard with
    | none =>
      some (world.set .guard (some { content := [], creator := process }),
        .guardWrite purpose guard)
    | some _ => some (world, .guardRead purpose attempt)
  | .guardWrite purpose guard =>
    some (world.writeCreated .guard process guard.content, purpose.guarded guard)
  | .guardRead purpose attempt =>
    match world.fileAt .guard with
    | none => some (world, purpose.nextAttempt attempt)
    | some file => some (world, .guardJudge purpose attempt file.content)
  | .guardJudge purpose attempt observedContent =>
    if world.mayRemove observedContent guardLeaseDurationMs then
      some (world, .removing (.staleGuard purpose attempt observedContent) .exists)
    else some (world, purpose.nextAttempt attempt)
  | .lockRead attempt guard =>
    match world.fileAt .lock with
    | none => some (world, .removing (.ownGuard (.retry attempt) guard) .exists)
    | some file => some (world, .lockJudge attempt file.content guard)
  | .lockJudge attempt observedContent guard =>
    if world.mayRemove observedContent (world.leaseDurationMs process) then
      some (world, .removing (.takenOver attempt observedContent guard) .exists)
    else some (world, .removing (.ownGuard .refused guard) .exists)
  | .removing removal stage => some (removeMove removal stage world)
  | .renewCompose owned guard =>
    some (world, .replacing owned (world.lease process (world.leaseDurationMs process)) guard
      .exists)
  | .replacing owned renewed guard stage =>
    some (replaceMove process owned renewed guard stage world)

/-- One step: a process moves or dies, or time passes. -/
inductive LockLabel
  | run (process : Process) (request : LockRequest)
  | kill (process : Process)
  | tick (elapsed : Nat)

/-- One step of the processes; a dead process does not move, and identifiers of processes
start at 1. -/
def lockStep (pool : Pool LockWorld LockPoint)
    (label : LockLabel) : Option (Pool LockWorld LockPoint) :=
  match label with
  | .run process request =>
    if 0 < process ∧ pool.world.alive process then
      pool.advance (lockMove process request) process
    else none
  | .kill process =>
    some { pool with world :=
      { pool.world with alive := Function.update pool.world.alive process false } }
  | .tick elapsed =>
    some { pool with world := { pool.world with now := pool.world.now + elapsed } }

/-- A world without lock files, in which every process lives. -/
def freeLock : Pool LockWorld LockPoint where
  world :=
    { now := 0
      alive := fun _ => true
      leaseDurationMs := fun _ => 0
      fileAt := fun _ => none }
  points := fun _ => .outside

end OpenAgent.Config
