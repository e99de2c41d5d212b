import OpenAgent.Config.MigrationJournal

/-!
# Writing the target of a migration

What a migration adds to its target, or puts in its place, as a list of edits, and the
writer that applies them: it keeps a copy of the target, edits the text and renames a
temporary file onto the target.  The library that parses and edits texts with comments and
the schema of the configuration are parameters.
-/

namespace OpenAgent.Config

open Library

def isUnsafeObjectKey (key : Units) : Bool :=
  key = unitsOf "__proto__" ∨ key = unitsOf "constructor" ∨ key = unitsOf "prototype"

mutual

def cloneValue : Json → Json
  | .array items => .array (cloneItems items)
  | .object members => .object (cloneMembers members)
  | value => value

def cloneItems : List Json → List Json
  | [] => []
  | item :: items => cloneValue item :: cloneItems items

def cloneMembers : Members → Members
  | [] => []
  | (key, value) :: members =>
    if isUnsafeObjectKey key then cloneMembers members
    else (key, cloneValue value) :: cloneMembers members

end

/-- The strings of a list with a separator between them: `join`. -/
def joinUnits (separator : Units) : List Units → Units
  | [] => []
  | [single] => single
  | first :: second :: rest => first ++ separator ++ joinUnits separator (second :: rest)

def displayValue (value : Json) : Units :=
  unitsOfText (stringify value)

def displayPath (path : List Units) : Units :=
  joinUnits (unitsOf ".") path

def skippedDiagnostic (path : List Units) (legacy kept : Json) : Units :=
  unitsOf "skipped: " ++ displayPath path ++ unitsOf " legacy=" ++ displayValue legacy ++
    unitsOf " kept=" ++ displayValue kept

mutual

/-- `mergeInto`: what a legacy object adds to an existing one, and what was skipped. -/
def mergeInto (existing : Members) (path : List Units) : Members → Members × List Units
  | [] => ([], [])
  | (key, legacy) :: members =>
    let later := mergeInto existing path members
    if isUnsafeObjectKey key then later
    else
      let merged := mergeMember existing (path ++ [key]) key legacy
      ((merged.1.map fun value => (key, value)).toList ++ later.1, merged.2 ++ later.2)

/-- One pass of the loop. -/
def mergeMember (existing : Members) (path : List Units) (key : Units) :
    Json → Option Json × List Units
  | .object legacy =>
    match mapGet existing key with
    | none => (some (cloneValue (.object legacy)), [])
    | some (.object kept) =>
      let nested := mergeInto kept path legacy
      (if nested.1.isEmpty then none else some (.object nested.1), nested.2)
    | some kept => (none, [skippedDiagnostic path (.object legacy) kept])
  | legacy =>
    match mapGet existing key with
    | none => (some (cloneValue legacy), [])
    | some kept => (none, [skippedDiagnostic path legacy kept])

end

mutual

/-- The loop of `applyAdditions`, on a copy of the existing object. -/
def applyAdditions (result : Members) : Members → Members
  | [] => result
  | (key, value) :: members =>
    if isUnsafeObjectKey key then applyAdditions result members
    else applyAdditions (mapSet result key (applyAddition (mapGet result key) value)) members

def applyAddition (current : Option Json) : Json → Json
  | .object additions =>
    match current with
    | some (.object members) => .object (applyAdditions (cloneMembers members) additions)
    | _ => cloneValue (.object additions)
  | value => cloneValue value

end

structure NoClobberMergeResult where
  additions : Members
  diagnostics : List Units
  merged : Members

def mergeWithoutClobber (existing legacy : Members) : NoClobberMergeResult :=
  let merged := mergeInto existing [] legacy
  { additions := merged.1, diagnostics := merged.2,
    merged := applyAdditions (cloneMembers existing) merged.1 }

/-- Set what stands at a path, or remove it. -/
structure OmoConfigEdit where
  path : List Units
  value : Option Json

mutual

def collectMigrationEdits (path : List Units) : Members → List OmoConfigEdit
  | [] => []
  | (key, entry) :: members =>
    if isUnsafeObjectKey key then collectMigrationEdits path members
    else collectEntryEdits (path ++ [key]) entry ++ collectMigrationEdits path members

def collectEntryEdits (path : List Units) : Json → List OmoConfigEdit
  | .object (member :: members) => collectMigrationEdits path (member :: members)
  | entry => [{ path, value := some (cloneValue entry) }]

end

/-- A field that is not valid. -/
structure ConfigIssue where
  path : List Units
  message : Units

/-- A syntax error at an offset. -/
structure JsoncError where
  message : Units
  offset : Nat

/-- The library that parses and edits texts with comments.  What it throws is its message;
removing is editing to nothing. -/
structure JsoncLibrary where
  parse : Content → List JsoncError × Option Json
  modify : Content → List Units → Option Json → Except Units Content

/-- What a migration runs on, the same for all of its runs. -/
structure Host where
  homeDir : Units
  device : Units → Nat
  symbolicLink : Units → Bool
  jsonc : JsoncLibrary
  omoConfigIssues : Members → List ConfigIssue

def stripBom : Content → Content
  | [] => []
  | char :: rest => if char = Char.ofNat 0xFEFF then rest else char :: rest

/-- `parseJsoncSafe`. -/
def Host.parseJsoncSafe (host : Host) (content : Content) : List JsoncError × Option Json :=
  let parsed := host.jsonc.parse (stripBom content)
  (parsed.1, if parsed.1.isEmpty then parsed.2 else none)

def errorDetail (separator : Units) (errors : List JsoncError) : Units :=
  joinUnits (unitsOf ", ")
    (errors.map fun error => error.message ++ separator ++ decimal error.offset)

/-- `parseDocument`. -/
def Host.parseDocument (host : Host) (path : Units) (content : Content) : Except Failure Members :=
  match host.parseJsoncSafe content with
  | ([], some (.object members)) => .ok members
  | (errors, _) =>
    let detail := errorDetail (unitsOf " at ") errors
    .error (.transaction (unitsOf "Migration document at " ++ path ++
      unitsOf " is not a JSONC object" ++
        if detail = [] then [] else unitsOf ": " ++ detail))

/-- `targetDocument`. -/
def Host.targetDocument (host : Host) (path : Units) (disk : Disk) : Except Failure Members :=
  match mapGet disk path with
  | none => .ok []
  | some content => host.parseDocument path content

def isMarker (migrationId : Units) : Json → Bool
  | .string marker => marker = migrationId
  | _ => false

def hasMigrationMarker (target : Members) (migrationId : Units) : Bool :=
  match mapGet target (unitsOf "_migrations") with
  | some (.array markers) => markers.any (isMarker migrationId)
  | _ => false

/-- The marker of a target with this migration. -/
def markerValue (target : Members) (migrationId targetPath : Units) : Except Failure (List Units) :=
  match mapGet target (unitsOf "_migrations") with
  | none => .ok [migrationId]
  | some (.array entries) =>
    match stringItems entries with
    | some value =>
      .ok (if hasMigrationMarker target migrationId then value else value ++ [migrationId])
    | none =>
      .error (.validation targetPath
        (unitsOf "the existing migration marker must be an array of strings"))
  | some _ =>
    .error (.validation targetPath
      (unitsOf "the existing migration marker must be an array of strings"))

/-- The marker as a value. -/
def markerJson (marker : List Units) : Json :=
  .array (marker.map Json.string)

/-- `validateTarget`. -/
def Host.validateTarget (host : Host) (targetPath : Units) (document : Members) :
    Except Failure Unit :=
  match host.omoConfigIssues document with
  | [] => .ok ()
  | issues =>
    .error (.validation targetPath (joinUnits (unitsOf ", ")
      (issues.map fun issue => displayPath issue.path ++ unitsOf ": " ++ issue.message)))

structure PreparedTargetWrite where
  diagnostics : List Units
  document : Members
  edits : List OmoConfigEdit

/-- `prepareTargetWrite`. -/
def Host.prepareTargetWrite (host : Host) (additions target : Members)
    (migrationId targetPath : Units) : Except Failure PreparedTargetWrite := do
  let merged := mergeWithoutClobber target additions
  let marker ← markerValue target migrationId targetPath
  let document := mapSet merged.merged (unitsOf "_migrations") (markerJson marker)
  host.validateTarget targetPath document
  .ok
    { diagnostics := merged.diagnostics, document,
      edits := collectMigrationEdits [] merged.additions ++
        [{ path := [unitsOf "_migrations"], value := some (markerJson marker) }] }

/-- The edits of `prepareTargetReplacement` but for the marker. -/
def replacementEdits (document target : Members) : List OmoConfigEdit :=
  (target.filterMap fun member =>
    if member.1 ≠ unitsOf "_migrations" ∧ mapGet document member.1 = none then
      some { path := [member.1], value := none }
    else none) ++
  document.filterMap fun member =>
    if member.1 ≠ unitsOf "_migrations" then some { path := [member.1], value := some member.2 }
    else none

/-- `prepareTargetReplacement`. -/
def Host.prepareTargetReplacement (host : Host) (document target : Members)
    (migrationId targetPath : Units) : Except Failure PreparedTargetWrite := do
  let marker ← markerValue target migrationId targetPath
  let marked := mapSet document (unitsOf "_migrations") (markerJson marker)
  host.validateTarget targetPath marked
  .ok
    { diagnostics := [], document := marked,
      edits := replacementEdits document target ++
        [{ path := [unitsOf "_migrations"], value := some (markerJson marker) }] }

/-- The branch on the mode, as the migration and its recovery both have it. -/
def Host.prepare (host : Host) (targetWrite : TargetWrite) (target : Members)
    (migrationId targetPath : Units) : Except Failure PreparedTargetWrite :=
  if targetWrite.replaceTarget then
    host.prepareTargetReplacement targetWrite.additions target migrationId targetPath
  else host.prepareTargetWrite targetWrite.additions target migrationId targetPath

/-- Whose configuration it is. -/
inductive ConfigScope
  | user
  | project
  deriving DecidableEq

/-- `dirname`, of a path that is absolute and normal. -/
def dirname (path : Units) : Units :=
  (directoryPath path).dropLast

/-- `basename`, of a path that is absolute and normal. -/
def basename (path : Units) : Units :=
  (path.reverse.takeWhile (· ≠ 47)).reverse

def isConfigName (fileName : Units) : Bool :=
  fileName = unitsOf "omo.json" ∨ fileName = unitsOf "omo.jsonc"

/-- `writerInput`. -/
def writerInput (homeDir targetPath : Units) : Except Failure ConfigScope :=
  if dirname targetPath = homeDir ++ unitsOf "/.omo" ∧ isConfigName (basename targetPath) then
    .ok .user
  else if basename (dirname targetPath) = unitsOf ".omo" ∧ isConfigName (basename targetPath) then
    .ok .project
  else
    .error (.transaction (unitsOf "Migration target is not an omo config path: " ++ targetPath))

/-- `EMPTY_OMO_CONFIG`. -/
def emptyOmoConfig : Content :=
  "// OMO configuration\n\x7b\n\x7d\n".toList

/-- The part of `updateOmoConfig` that reads: the text to edit. -/
def Host.currentContent (host : Host) (scope : ConfigScope) (path : Units) (disk : Disk) :
    Except Failure Content :=
  if scope = .project ∧ host.symbolicLink (dirname path) then
    .error (.write (dirname path) .read
      (unitsOf "Refusing to edit config under symlinked project .omo directory"))
  else if disk.exists path ∧ host.symbolicLink path then
    .error (.write path .read (unitsOf "Refusing to edit symlinked omo config"))
  else
    let content := (mapGet disk path).getD emptyOmoConfig
    match (host.parseJsoncSafe content).1 with
    | [] => .ok content
    | errors => .error (.write path .parse (errorDetail (unitsOf " at offset ") errors))

/-- The loop over the edits. -/
def Host.applyEdits (host : Host) (content : Content) (edits : List OmoConfigEdit) :
    Except Failure Content :=
  edits.foldlM (fun content edit =>
    (host.jsonc.modify content edit.path edit.value).mapError Failure.error) content

/-- `backupCandidate`. -/
def backupCandidate (basePath : Units) (attempt : Nat) : Units :=
  if attempt = 0 then basePath else basePath ++ unitsOf "." ++ decimal attempt

/-- `writeBackup`. -/
def writeBackup (path : Units) (surroundings : Surroundings) (content : Content) :
    Action Unit := do
  let draws ← Program.view fun machine => .ok machine.draws
  draw 1
  let basePath := path ++ unitsOf ".bak." ++ surroundings.backupSuffix draws
  let _ ← createFirstFree (backupCandidate basePath) content

/-- The temporary file of `writeAtomically`. -/
def writeTempPath (path identifier : Units) : Units :=
  path ++ unitsOf "." ++ identifier ++ unitsOf ".tmp"

def FileCode.message : FileCode → Units
  | .enoent => unitsOf "ENOENT"
  | .eexist => unitsOf "EEXIST"
  | .exdev => unitsOf "EXDEV"

/-- What `writeAtomically` throws for a failure. -/
def writeFailure (path : Units) : Failure → Failure
  | .system code => .write path .write code.message
  | failure => failure

/-- `writeAtomically`.  Where the temporary file was not created there is nothing to clean
up. -/
def writeAtomically (device : Units → Nat) (path : Units) (surroundings : Surroundings)
    (content : Content) : Action Unit := do
  let draws ← Program.view fun machine => .ok machine.draws
  draw 1
  let tempPath := writeTempPath path (surroundings.randomUUID draws)
  (writeFileExclusiveSync tempPath content).recover fun failure =>
    Program.fail (writeFailure path failure)
  (renameSync device tempPath path).recover fun failure => do
    unlinkSync tempPath
    Program.fail (writeFailure path failure)

/-- `writePreparedTarget` with `writeOmoMigrationTarget` and `updateOmoConfig`. -/
def Host.writePreparedTarget (host : Host) (surroundings : Surroundings)
    (edits : List OmoConfigEdit) (targetPath : Units) : Action Unit := do
  let scope ← reading fun _ => writerInput host.homeDir targetPath
  let existed ← existsSync targetPath
  let content ← reading (host.currentContent scope targetPath)
  (if existed then writeBackup targetPath surroundings content else pure ())
  let nextContent ← reading fun _ => host.applyEdits content edits
  writeAtomically host.device targetPath surroundings nextContent

end OpenAgent.Config
