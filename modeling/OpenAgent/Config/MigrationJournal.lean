import OpenAgent.Library.CrashLogic
import OpenAgent.Library.JsonNumber
import OpenAgent.Library.JsonRoundTrip

/-!
# The migration journal

The files that a config migration works on, its file operations, and the journal: the
record of a migration under way, in a file of its own.  Every write of the journal goes to
a temporary file, which is then renamed.
-/

namespace OpenAgent.Config

open Library

/-- A string of the program: its UTF-16 code units. -/
abbrev Units := List UInt16

abbrev Content := List Char

/-- An object of the program: its members in the order of its keys. -/
abbrev Members := List (Units × Json)

/-- The string of a text. -/
def unitsOfText (text : List Char) : Units :=
  text.flatMap unitsOfChar

/-- A number in a template string. -/
def decimal (number : Nat) : Units :=
  unitsOfText (Nat.toDigits 10 number)

inductive FileCode
  | enoent
  | eexist
  | exdev
  deriving DecidableEq

/-- `OmoConfigWriteError.operation`. -/
inductive WriteOperation
  | backup
  | parse
  | read
  | write
  deriving DecidableEq

/-- What is thrown. -/
inductive Failure
  | system (code : FileCode)
  | error (message : Units)
  | transaction (message : Units)
  | validation (targetPath message : Units)
  | write (path : Units) (operation : WriteOperation) (cause : Units)
  deriving DecidableEq

/-- The files by path. -/
abbrev Disk := List (Units × Content)

/-- `existsSync`. -/
def Disk.exists (disk : Disk) (path : Units) : Bool :=
  (mapGet disk path).isSome

/-- `readFileSync`. -/
def Disk.readFile (disk : Disk) (path : Units) : Except Failure Content :=
  match mapGet disk path with
  | none => .error (.system .enoent)
  | some content => .ok content

/-- What a run of the program works on: the disk, which survives a crash, and how many
clock readings and random identifiers the run has used up. -/
structure Machine where
  disk : Disk
  draws : Nat

/-- What a single run of the program is given: its process, its clock, its random
identifiers and its dates in file names.  Neither of the latter has a slash. -/
structure Surroundings where
  pid : Nat
  now : Nat → Nat
  randomUUID : Nat → Units
  backupSuffix : Nat → Units
  plainUUID : ∀ draw, 47 ∉ randomUUID draw
  plainSuffix : ∀ draw, 47 ∉ backupSuffix draw

/-- A step of a migration. -/
abbrev Action (α : Type) := Program Machine Failure α

/-- Read the disk. -/
def reading (read : Disk → Except Failure α) : Action α :=
  Program.view fun machine => read machine.disk

/-- Write to the disk. -/
def writing (write : Disk → Except Failure Disk) : Action Unit :=
  Program.alter fun machine =>
    (write machine.disk).map fun disk => { machine with disk }

section

variable (path : Units)

def existsSync : Action Bool :=
  reading fun disk => .ok (disk.exists path)

def Disk.writeFileExclusive (content : Content) (disk : Disk) : Except Failure Disk :=
  if disk.exists path then .error (.system .eexist) else .ok (mapSet disk path content)

/-- Creation fails where there is a file. -/
def writeFileExclusiveSync (content : Content) : Action Unit :=
  writing (Disk.writeFileExclusive path content)

def Disk.copyFile (sourcePath destinationPath : Units) (disk : Disk) : Except Failure Disk :=
  (disk.readFile sourcePath).map fun content => mapSet disk destinationPath content

def copyFileSync (sourcePath destinationPath : Units) : Action Unit :=
  writing (Disk.copyFile sourcePath destinationPath)

def Disk.unlink (disk : Disk) : Except Failure Disk :=
  if disk.exists path then .ok (mapDelete disk path) else .error (.system .enoent)

def unlinkSync : Action Unit :=
  writing (Disk.unlink path)

/-- The directory of a path, with its last slash. -/
def directoryPath : Units :=
  (path.reverse.dropWhile (· ≠ 47)).reverse

/-- Renaming fails across devices; a file belongs to the device of its directory. -/
def Disk.rename (device : Units → Nat) (oldPath newPath : Units) (disk : Disk) :
    Except Failure Disk :=
  match mapGet disk oldPath with
  | none => .error (.system .enoent)
  | some content =>
    if device (directoryPath oldPath) = device (directoryPath newPath) then
      .ok (mapSet (mapDelete disk oldPath) newPath content)
    else .error (.system .exdev)

def renameSync (device : Units → Nat) (oldPath newPath : Units) : Action Unit :=
  writing (Disk.rename device oldPath newPath)

/-- Use up clock readings or random identifiers. -/
def draw (count : Nat) : Action Unit :=
  Program.note fun machine => { machine with draws := machine.draws + count }

/-- The first attempt at which a name is free.  A failed exclusive creation changes nothing,
so a loop of attempts ends with this one; some name in the range is free. -/
def Disk.firstFree (disk : Disk) (names : Nat → Units) : Option Nat :=
  (List.range (disk.length + 2)).find? fun attempt => !disk.exists (names attempt)

/-- Create a file under the first free name. -/
def createFirstFree (names : Nat → Units) (content : Content) : Action Nat := do
  let attempt ← reading fun disk =>
    match disk.firstFree names with
    | none => .error (.system .eexist)
    | some attempt => .ok attempt
  writeFileExclusiveSync (names attempt) content
  return attempt

structure MigrationBackupMove where
  fromPath : Units
  toPath : Units
  deriving DecidableEq

/-- What is to be written to the target. -/
structure TargetWrite where
  additions : Members
  replaceTarget : Bool

structure MigrationJournal where
  backupMoves : List MigrationBackupMove
  completedMoves : List Units
  diagnostics : List Units
  migrationId : Units
  targetPath : Units
  targetWrite : TargetWrite
  targetWritten : Bool

/-- `migrationJournalPath`, of a home directory without a slash at its end. -/
def migrationJournalPath (homeDir : Units) : Units :=
  homeDir ++ unitsOf "/.omo/.migration-journal.json"

/-- `journalTempPath`. -/
def journalTempPath (pid now attempt : Nat) : Units :=
  let suffix := decimal pid ++ unitsOf "." ++ decimal now
  if attempt = 0 then path ++ unitsOf "." ++ suffix ++ unitsOf ".tmp"
  else path ++ unitsOf "." ++ suffix ++ unitsOf "." ++ decimal attempt ++ unitsOf ".tmp"

end

def MigrationBackupMove.json (move : MigrationBackupMove) : Json :=
  .object [(unitsOf "from", .string move.fromPath), (unitsOf "to", .string move.toPath)]

def TargetWrite.json (targetWrite : TargetWrite) : Json :=
  .object ((unitsOf "additions", .object targetWrite.additions) ::
    if targetWrite.replaceTarget then [(unitsOf "mode", .string (unitsOf "replace-target"))]
    else [])

def MigrationJournal.json (journal : MigrationJournal) : Json :=
  .object
    [ (unitsOf "backupMoves", .array (journal.backupMoves.map MigrationBackupMove.json)),
      (unitsOf "completedMoves", .array (journal.completedMoves.map Json.string)),
      (unitsOf "diagnostics", .array (journal.diagnostics.map Json.string)),
      (unitsOf "migrationId", .string journal.migrationId),
      (unitsOf "targetPath", .string journal.targetPath),
      (unitsOf "targetWrite", journal.targetWrite.json),
      (unitsOf "targetWritten", .bool journal.targetWritten),
      (unitsOf "version", .number (naturalLiteral 1)) ]

/-- The text of a journal file. -/
def MigrationJournal.content (journal : MigrationJournal) : Content :=
  stringify journal.json ++ ['\n']

/-- An array of strings. -/
def stringItems : List Json → Option (List Units)
  | [] => some []
  | .string item :: items => (stringItems items).map (item :: ·)
  | _ :: _ => none

def parseBackupMove (move : Json) : Except Failure MigrationBackupMove :=
  match move, move.member "from", move.member "to" with
  | .object _, some (.string fromPath), some (.string toPath) => .ok { fromPath, toPath }
  | _, _, _ => .error (.error (unitsOf "Migration journal backup move is invalid"))

def isVersionOne : Option Json → Bool
  | some (.number literal) => literal.value = 1
  | _ => false

section

variable (value : Json)

/-- `parseJournal` from `backupMoves` on. -/
def parseBackupMoves : Except Failure (List MigrationBackupMove) :=
  match value.member "backupMoves" with
  | some (.array moves) => moves.mapM parseBackupMove
  | _ => .error (.error (unitsOf "Migration journal backup plan is invalid"))

/-- The mode of a target write. -/
def parseMode : Except Failure Bool :=
  match value.member "mode" with
  | none => .ok false
  | some (.string mode) =>
    if mode = unitsOf "replace-target" then .ok true
    else .error (.error (unitsOf "Migration journal target write mode is invalid"))
  | some _ => .error (.error (unitsOf "Migration journal target write mode is invalid"))

def parseTargetWrite : Except Failure TargetWrite :=
  match value.member "targetWrite" with
  | none => .error (.error (unitsOf "Migration journal target write is invalid"))
  | some targetWrite =>
    match targetWrite, targetWrite.member "additions" with
    | .object _, some (.object additions) => do
        let replaceTarget ← parseMode targetWrite
        return { additions, replaceTarget }
    | _, _ => .error (.error (unitsOf "Migration journal target write is invalid"))

def parseDiagnostics : Except Failure (List Units) :=
  match value.member "diagnostics" with
  | none => .ok []
  | some (.array entries) =>
    match stringItems entries with
    | some diagnostics => .ok diagnostics
    | none => .error (.error (unitsOf "Migration journal diagnostics are invalid"))
  | some _ => .error (.error (unitsOf "Migration journal diagnostics are invalid"))

/-- `parseJournal`. -/
def parseJournal : Except Failure MigrationJournal :=
  match value with
  | .object _ =>
    if !isVersionOne (value.member "version") then
      .error (.error (unitsOf "Migration journal version is unsupported"))
    else
      match value.member "targetPath", value.member "migrationId" with
      | some (.string targetPath), some (.string migrationId) => do
          let targetWrite ← parseTargetWrite value
          match value.member "targetWritten", value.member "completedMoves" with
          | some (.bool targetWritten), some (.array completed) => do
              let diagnostics ← parseDiagnostics value
              match stringItems completed with
              | none => .error (.error (unitsOf "Migration journal completed moves are invalid"))
              | some completedMoves => do
                  let backupMoves ← parseBackupMoves value
                  .ok
                    { backupMoves, completedMoves, diagnostics, migrationId, targetPath,
                      targetWrite, targetWritten }
          | _, _ => .error (.error (unitsOf "Migration journal completion state is invalid"))
      | _, _ => .error (.error (unitsOf "Migration journal target is invalid"))
  | _ => .error (.error (unitsOf "Migration journal must be an object"))

end

/-- `readMigrationJournal`. -/
def readMigrationJournal (homeDir : Units) (disk : Disk) :
    Except Failure (Option MigrationJournal) :=
  match mapGet disk (migrationJournalPath homeDir) with
  | none => .ok none
  | some content =>
    match parseJson content with
    | none => .error (.error (unitsOf "JSON Parse error"))
    | some value => (parseJournal value).map some

variable (device : Units → Nat)

/-- `writeMigrationJournal`.  Each attempt reads the clock anew. -/
def writeMigrationJournal (homeDir : Units) (surroundings : Surroundings)
    (journal : MigrationJournal) : Action Unit := do
  let path := migrationJournalPath homeDir
  let draws ← Program.view fun machine => .ok machine.draws
  let names := fun attempt =>
    journalTempPath path surroundings.pid (surroundings.now (draws + attempt)) attempt
  let attempt ← createFirstFree names journal.content
  draw (attempt + 1)
  renameSync device (names attempt) path

/-- `removeMigrationJournal`. -/
def removeMigrationJournal (homeDir : Units) : Action Unit := do
  if ← existsSync (migrationJournalPath homeDir) then
    unlinkSync (migrationJournalPath homeDir)

/-- `moveMigrationBackup`. -/
def moveMigrationBackup (sourcePath backupPath : Units) : Action Unit :=
  (renameSync device sourcePath backupPath).recover fun failure =>
    if failure = .system .exdev then do
      copyFileSync sourcePath backupPath
      unlinkSync sourcePath
    else Program.fail failure

end OpenAgent.Config
