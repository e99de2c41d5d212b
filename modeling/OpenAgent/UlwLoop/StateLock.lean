import OpenAgent.Config.MigrationLock

/-!
# The state lock of a ulw-loop

`withStateLock` and `withStateLockSync` of `state-lock.ts` on one lock path, around a body that
reads `goals.json` and writes it back.  The lock is a file that shows the record of its owner.
A point stands before one call of the file system, or one look at a process; an exclusive
creation and the write of the record are two calls.
-/

namespace OpenAgent.UlwLoop

open Library

/-- `LockRecord`. -/
structure LockRecord where
  pid : Nat
  createdAt : List UInt16
  token : List UInt16

def parseText : Json → Option (List UInt16)
  | .string units => some units
  | _ => none

/-- A token is not empty. -/
def parseToken (value : Json) : Option (List UInt16) :=
  (parseText value).filter fun units => !units.isEmpty

def parseRecord (raw : List Char) : Option LockRecord := do
  let value ← parseJson raw
  let pid ← (value.member "pid").bind Config.parsePid
  let createdAt ← (value.member "createdAt").bind parseText
  let token ← (value.member "token").bind parseToken
  return { pid, createdAt, token }

/-- A number as a text: the time of a record, and the token of `randomUUID`, which is that of no
other creation. -/
def numeral (number : Nat) : List UInt16 :=
  (Nat.toDigits 10 number).flatMap unitsOfChar

/-- `JSON.stringify` of the record that `tryCreate` writes. -/
def recordText (process : Process) (now number : Nat) : List Char :=
  stringify (.object
    [ (unitsOf "pid", .number (naturalLiteral process)),
      (unitsOf "createdAt", .string (numeral now)), (unitsOf "token", .string (numeral number)) ])

/-- A lock file, with its creation: no function looks at the number and the process of a file,
which stand for the open file that its creator writes to. -/
structure StateFile where
  number : Nat
  creator : Process
  text : List Char
  /-- `mtimeMs`. -/
  modified : Nat

structure LockWorld where
  now : Nat
  alive : Process → Bool
  file : Option StateFile
  nextNumber : Nat
  /-- `goals.json`, as the updates that it shows. -/
  goals : List Process
  /-- The updates that were written. -/
  updates : List Process

namespace LockWorld

variable (world : LockWorld) (process : Process)

/-- `openSync(lockPath, "wx")` at a free path. -/
def create : LockWorld :=
  { world with
    file := some
      { number := world.nextNumber, creator := process, text := [], modified := world.now }
    nextNumber := world.nextNumber + 1 }

/-- `writeSync(fd, ...)`; the file may have been unlinked. -/
def write (number : Nat) : LockWorld :=
  match world.file with
  | none => world
  | some file =>
    if file.number = number then
      let text := recordText process world.now number
      { world with file := some { file with text, modified := world.now } }
    else world

/-- `unlinkSync(lockPath)`. -/
def unlink : LockWorld :=
  { world with file := none }

/-- `Date.now() - statSync(lockPath).mtimeMs`. -/
def ageOf (file : StateFile) : Int :=
  world.now - file.modified

/-- `isStale`, with the answer of the liveness probe. -/
def isStale (staleMs : Nat) (raw : List Char) (ageMs : Int) : Bool :=
  match parseRecord raw with
  | none => (staleMs : Int) < ageMs
  | some record => !world.alive record.pid

/-- The body writes what it has read, with its own update. -/
def writeGoals (read : List Process) : LockWorld :=
  { world with
    goals := read ++ [process]
    updates := world.updates ++ [process] }

end LockWorld

/-- The points of `withStateLock`.  A file that was read is remembered by its text; its number
belongs to the account only. -/
inductive LockPoint
  | outside
  /-- `openSync` of `tryCreate`. -/
  | create
  /-- `writeSync` of `tryCreate`. -/
  | write (number : Nat)
  /-- `unlinkSync` of `tryCreate`, behind a failed write. -/
  | discard (number : Nat)
  /-- `readFileSync` and `statSync` of `readSnapshot`, in `attemptOnce`. -/
  | read
  | stat (raw : List Char) (seen : Nat)
  /-- `isStale`. -/
  | judge (raw : List Char) (ageMs : Int) (seen : Nat)
  /-- The same calls in `reclaim`, and its `unlinkSync`. -/
  | reread (expectedRaw : List Char) (seen : Nat)
  | restat (expectedRaw current : List Char) (seen : Nat)
  | reclaim (seen : Nat)
  /-- The body reads `goals.json`. -/
  | body (number : Nat)
  /-- The body writes it. -/
  | bodyWrite (number : Nat) (read : List Process)
  /-- The calls of `release`. -/
  | releaseRead (number : Nat)
  | releaseStat (number : Nat) (current : List Char)
  | release (number : Nat)
  deriving DecidableEq

/-- How a call ends. -/
inductive LockChoice
  | proceed
  /-- With `EINTR`. -/
  | interrupted
  /-- The deadline has passed in front of another attempt. -/
  | timeout
  deriving DecidableEq

/-- The move of a process.  An interrupted attempt is one that has to wait, and a body that
fails writes nothing. -/
def lockMove (staleMs : Nat) (process : Process) (choice : LockChoice) (point : LockPoint)
    (world : LockWorld) : Option (LockWorld × LockPoint) :=
  match point, choice with
  | .outside, .proceed => some (world, .create)
  | .create, .proceed =>
    match world.file with
    | some _ => some (world, .read)
    | none => some (world.create process, .write world.nextNumber)
  | .create, .timeout => some (world, .outside)
  | .write number, .proceed => some (world.write process number, .body number)
  | .write number, .interrupted => some (world, .discard number)
  | .discard _, .proceed => some (world.unlink, .create)
  | .read, .proceed =>
    match world.file with
    | none => some (world, .create)
    | some file => some (world, .stat file.text file.number)
  | .stat raw seen, .proceed =>
    match world.file with
    | none => some (world, .create)
    | some file => some (world, .judge raw (world.ageOf file) seen)
  | .judge raw ageMs seen, .proceed =>
    if world.isStale staleMs raw ageMs then some (world, .reread raw seen)
    else some (world, .create)
  | .reread expectedRaw seen, .proceed =>
    match world.file with
    | none => some (world, .create)
    | some file => some (world, .restat expectedRaw file.text seen)
  | .restat expectedRaw current seen, .proceed =>
    match world.file with
    | none => some (world, .create)
    | some _ =>
      if current = expectedRaw then some (world, .reclaim seen)
      else some (world, .create)
  | .reclaim _, .proceed => some (world.unlink, .create)
  | .create, .interrupted | .discard _, .interrupted | .read, .interrupted | .stat _ _, .interrupted
  | .reread _ _, .interrupted | .restat _ _ _, .interrupted | .reclaim _, .interrupted =>
    some (world, .create)
  | .body number, .proceed => some (world, .bodyWrite number world.goals)
  | .body number, .interrupted => some (world, .releaseRead number)
  | .bodyWrite number read, .proceed => some (world.writeGoals process read, .releaseRead number)
  | .releaseRead number, .proceed =>
    match world.file with
    | none => some (world, .outside)
    | some file => some (world, .releaseStat number file.text)
  | .releaseStat number current, .proceed =>
    match world.file with
    | none => some (world, .outside)
    | some _ =>
      if (parseRecord current).map (·.token) = some (numeral number) then
        some (world, .release number)
      else some (world, .outside)
  | .release _, .proceed => some (world.unlink, .outside)
  | .releaseRead _, .interrupted | .releaseStat _ _, .interrupted | .release _, .interrupted =>
    some (world, .outside)
  | _, _ => none

/-- One step: a process moves or dies, or time passes. -/
inductive LockLabel
  | run (process : Process) (choice : LockChoice)
  | crash (process : Process)
  | tick (elapsed : Nat)

/-- One step of the processes; a dead process does not move.  An identifier of a process is a
positive safe integer. -/
def lockStep (staleMs : Nat) (pool : Pool LockWorld LockPoint)
    (label : LockLabel) : Option (Pool LockWorld LockPoint) :=
  match label with
  | .run process choice =>
    if (0 < process ∧ process < 2 ^ 53) ∧ pool.world.alive process then
      pool.advance (lockMove staleMs process choice) process
    else none
  | .crash process =>
    some { pool with world :=
      { pool.world with alive := Function.update pool.world.alive process false } }
  | .tick elapsed =>
    some { pool with world := { pool.world with now := pool.world.now + elapsed } }

/-- A free lock, and no process that is dead. -/
def freeLock : Pool LockWorld LockPoint where
  world :=
    { now := 0
      alive := fun _ => true
      file := none
      nextNumber := 0
      goals := []
      updates := [] }
  points := fun _ => .outside

end OpenAgent.UlwLoop
