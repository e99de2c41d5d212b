import OpenAgent.Config.TargetWriter

/-!
# Running a migration

A run first finishes what the journal says a crashed run has begun, and then executes its
plans.  It is modelled from where it has the lock to where it gives it back.
-/

namespace OpenAgent.Config

open Library

/-- A file that a migration reads. -/
structure MigrationSourceDescriptor where
  backupPath : Option Units
  path : Units

structure LoadedMigrationSource where
  backupPath : Option Units
  path : Units
  value : Option Json

structure MigrationPlan where
  id : Units
  replaceTarget : Bool
  sources : List MigrationSourceDescriptor
  targetPath : Units
  transform : List LoadedMigrationSource → Except Failure Json

/-- `migrationLockPath`. -/
def migrationLockPath (homeDir : Units) : Units :=
  homeDir ++ unitsOf "/.omo/.migration.lock"

section

variable (host : Host)

/-- `parseSource`. -/
def Host.parseSource (path : Units) (content : Content) : Except Failure (Option Json) :=
  match host.parseJsoncSafe content with
  | ([], value) => .ok value
  | (errors, _) =>
    .error (.transaction (unitsOf "Migration source at " ++ path ++
      unitsOf " is invalid JSONC: " ++ errorDetail (unitsOf " at ") errors))

section

variable (sources : List MigrationSourceDescriptor)

/-- `loadSources`, of sources that exist. -/
def Host.loadSources (disk : Disk) : Except Failure (List LoadedMigrationSource) :=
  sources.mapM fun source => do
    let content ← disk.readFile source.path
    let value ← host.parseSource source.path content
    return { backupPath := source.backupPath, path := source.path, value }

/-- The characters that `encodeURIComponent` keeps. -/
def isUnreserved (char : Char) : Bool :=
  char.isAlphanum || ['-', '_', '.', '!', '~', '*', '\'', '(', ')'].contains char

def upperHexDigit (value : Nat) : Char :=
  if value < 10 then Char.ofNat (48 + value) else Char.ofNat (55 + value)

/-- A character as `encodeURIComponent` writes it. -/
def encodeComponentChar (char : Char) : List Char :=
  if isUnreserved char then [char]
  else (encodeChar char).flatMap fun byte =>
    ['%', upperHexDigit (byte.toNat / 16), upperHexDigit (byte.toNat % 16)]

/-- `encodeURIComponent`; half of a surrogate pair is an error. -/
def encodeURIComponent : Units → Except Failure Units
  | [] => .ok []
  | unit :: rest =>
    if isHighSurrogate unit then
      match rest with
      | [] => .error (.error (unitsOf "URI error"))
      | low :: rest =>
        if isLowSurrogate low then
          (encodeURIComponent rest).map fun later =>
            unitsOfText (encodeComponentChar (pairChar unit low)) ++ later
        else .error (.error (unitsOf "URI error"))
    else if isLowSurrogate unit then .error (.error (unitsOf "URI error"))
    else
      (encodeURIComponent rest).map fun later =>
        unitsOfText (encodeComponentChar (Char.ofNat unit.toNat)) ++ later

/-- `backupBasePath`. -/
def backupBasePath (source : MigrationSourceDescriptor) (migrationId : Units) :
    Except Failure Units :=
  match source.backupPath with
  | some backupPath => .ok backupPath
  | none =>
    (encodeURIComponent migrationId).map fun encoded =>
      source.path ++ unitsOf ".bak." ++ encoded

def backupExists (path : Units) : Failure :=
  .transaction (unitsOf "Migration backup path already exists: " ++ path)

/-- The loop for the backup path of one source.  A given backup path has to be free at
once. -/
def backupDestination (source : MigrationSourceDescriptor) (migrationId : Units)
    (disk : Disk) (destinations : List Units) : Except Failure Units := do
  let basePath ← backupBasePath source migrationId
  let isTaken := fun path => disk.exists path || destinations.contains path
  if isTaken basePath && source.backupPath.isSome then .error (backupExists basePath)
  else
    match (List.range (disk.length + destinations.length + 2)).find? fun attempt =>
        !isTaken (backupCandidate basePath attempt) with
    | some attempt => .ok (backupCandidate basePath attempt)
    | none => .error (backupExists basePath)

/-- One pass of the loop of `backupMoves`, for a source that exists. -/
def backupMove (paths protectedPaths : List Units) (migrationId : Units) (disk : Disk)
    (moves : List MigrationBackupMove) (source : MigrationSourceDescriptor) :
    Except Failure (List MigrationBackupMove) := do
  let destination ← backupDestination source migrationId disk (moves.map (·.toPath))
  if paths.contains destination || protectedPaths.contains destination then
    .error (.transaction (unitsOf "Migration backup path is protected: " ++ destination))
  else .ok (moves ++ [{ fromPath := source.path, toPath := destination }])

/-- `backupMoves`, of sources that exist. -/
def backupMoves (migrationId : Units) (disk : Disk) (protectedPaths : List Units) :
    Except Failure (List MigrationBackupMove) :=
  sources.foldlM (backupMove (sources.map (·.path)) protectedPaths migrationId disk) []

/-- One pass of the loop of `assertSafeSourcePaths`. -/
def assertSafeSourcePath (protectedPaths seen : List Units)
    (source : MigrationSourceDescriptor) : Except Failure (List Units) :=
  if seen.contains source.path then
    .error (.transaction (unitsOf "Duplicate migration source: " ++ source.path))
  else if protectedPaths.contains source.path then
    .error (.transaction (unitsOf "Migration source is protected: " ++ source.path))
  else .ok (seen ++ [source.path])

def assertSafeSourcePaths (protectedPaths : List Units) : Except Failure (List Units) :=
  sources.foldlM (assertSafeSourcePath protectedPaths) []

end

/-- `transformResult`: the diagnostics and the document. -/
def transformResult (value : Json) : Except Failure (List Units × Members) :=
  match value with
  | .object members =>
    match mapGet members (unitsOf "document"), mapGet members (unitsOf "diagnostics") with
    | some (.object document), some (.array entries) =>
      match stringItems entries with
      | some diagnostics => .ok (diagnostics, document)
      | none => .ok ([], members)
    | _, _ => .ok ([], members)
  | _ => .error (.transaction (unitsOf "Migration transform must return a plain object"))

/-- What a plan comes to before anything is written. -/
structure Planned where
  edits : List OmoConfigEdit
  journal : MigrationJournal

variable (plan : MigrationPlan)

def Host.protectedPaths : List Units :=
  [plan.targetPath, migrationJournalPath host.homeDir, migrationLockPath host.homeDir]

/-- What a plan comes to that is not skipped. -/
def Host.planSources (existingSources : List MigrationSourceDescriptor) (target : Members)
    (disk : Disk) :
    Except Failure Planned := do
  let loaded ←
    (if plan.replaceTarget then
      .ok [{ backupPath := none, path := plan.targetPath, value := some (.object target) }]
    else host.loadSources existingSources disk)
  let returned ← plan.transform loaded
  let transformed ← transformResult returned
  let targetWrite : TargetWrite :=
    { additions := transformed.2, replaceTarget := plan.replaceTarget }
  let prepared ← host.prepare targetWrite target plan.id plan.targetPath
  let moves ← backupMoves existingSources plan.id disk (host.protectedPaths plan)
  .ok
    { edits := prepared.edits
      journal :=
        { backupMoves := moves, completedMoves := [],
          diagnostics := transformed.1 ++ prepared.diagnostics, migrationId := plan.id,
          targetPath := plan.targetPath, targetWrite, targetWritten := false } }

/-- The part of `executePlan` that reads and computes; nothing for a plan that is
skipped. -/
def Host.planMigration (disk : Disk) :
    Except Failure (Option Planned) := do
  let _ ← assertSafeSourcePaths plan.sources (host.protectedPaths plan)
  let existingSources := plan.sources.filter fun source => disk.exists source.path
  let target ← host.targetDocument plan.targetPath disk
  let legacySourcesExist :=
    if plan.replaceTarget then disk.exists plan.targetPath else !existingSources.isEmpty
  if legacySourcesExist && !hasMigrationMarker target plan.id then
    (host.planSources plan existingSources target disk).map some
  else .ok none

end

/-- What became of a migration. -/
inductive MigrationStatus
  | migrated
  | planned
  | skipped
  deriving DecidableEq

/-- The result of one migration. -/
structure MigrationRunResult where
  diagnostics : List Units
  journalResumed : Bool
  status : MigrationStatus
  deriving DecidableEq

variable (host : Host) (surroundings : Surroundings)

section

variable (journal : MigrationJournal)

section

variable (move : MigrationBackupMove)

/-- The journal with one more move recorded. -/
def MigrationJournal.record : MigrationJournal :=
  { journal with completedMoves := journal.completedMoves ++ [move.fromPath] }

/-- One pass of the loop over the moves of a plan. -/
def executeMove :
    Action MigrationJournal := do
  let isTaken ← existsSync move.toPath
  (if isTaken then Program.fail (backupExists move.toPath)
    else moveMigrationBackup host.device move.fromPath move.toPath)
  writeMigrationJournal host.device host.homeDir surroundings (journal.record move)
  return journal.record move

/-- The part of `executePlan` that writes. -/
def executePlanned (planned : Planned) : Action Unit := do
  writeMigrationJournal host.device host.homeDir surroundings planned.journal
  host.writePreparedTarget surroundings planned.edits planned.journal.targetPath
  let targetRecorded := { planned.journal with targetWritten := true }
  writeMigrationJournal host.device host.homeDir surroundings targetRecorded
  let _ ← targetRecorded.backupMoves.foldlM (executeMove host surroundings) targetRecorded
  removeMigrationJournal host.homeDir

/-- `executePlan`. -/
def executePlan (dryRun journalResumed : Bool) (plan : MigrationPlan) :
    Action MigrationRunResult := do
  match ← reading (host.planMigration plan) with
  | none => return { diagnostics := [], journalResumed, status := .skipped }
  | some planned =>
    if dryRun then
      return { diagnostics := planned.journal.diagnostics, journalResumed, status := .planned }
    else
      executePlanned host surroundings planned
      return { diagnostics := planned.journal.diagnostics, journalResumed, status := .migrated }

/-- The move of a source that is not recorded as moved. -/
def finishMove : Action Unit := do
  let sourceExists ← existsSync move.fromPath
  let backupExists_ ← existsSync move.toPath
  if sourceExists then
    if backupExists_ then Program.fail (backupExists move.toPath)
    else moveMigrationBackup host.device move.fromPath move.toPath
  else if backupExists_ then return ()
  else
    Program.fail (.transaction
      (unitsOf "Migration source and backup are both missing: " ++ move.fromPath))

/-- One pass of the loop over the moves of a journal. -/
def resumeMove : Action MigrationJournal :=
  if journal.completedMoves.contains move.fromPath then return journal
  else do
    finishMove host move
    writeMigrationJournal host.device host.homeDir surroundings (journal.record move)
    return journal.record move

end

/-- The part of `resumeMigrationJournal` about the target. -/
def resumeTarget : Action Unit := do
  let target ← reading (host.targetDocument journal.targetPath)
  if hasMigrationMarker target journal.migrationId then pure ()
  else
    let prepared ← reading fun _ =>
      host.prepare journal.targetWrite target journal.migrationId journal.targetPath
    host.writePreparedTarget surroundings prepared.edits journal.targetPath

end

/-- `resumeMigrationJournal`. -/
def resumeMigrationJournal : Action Bool := do
  match ← reading (readMigrationJournal host.homeDir) with
  | none => return false
  | some journal =>
    resumeTarget host surroundings journal
    let targetRecorded := { journal with targetWritten := true }
    writeMigrationJournal host.device host.homeDir surroundings targetRecorded
    let _ ← targetRecorded.backupMoves.foldlM (resumeMove host surroundings) targetRecorded
    removeMigrationJournal host.homeDir
    return true

structure MigrationBatchRunResult where
  journalResumed : Bool
  results : List MigrationRunResult
  deriving DecidableEq

/-- `runMigrations`, for the plans that `discover` finds. -/
def runMigrations (dryRun : Bool) (plans : List MigrationPlan) :
    Action MigrationBatchRunResult := do
  let journalResumed ← resumeMigrationJournal host surroundings
  let results ← plans.mapM (executePlan host surroundings dryRun journalResumed)
  return { journalResumed, results }

end OpenAgent.Config
