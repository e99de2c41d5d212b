import OpenAgent.Library.Collections
import OpenAgent.Tasks.RecordLock

/-!
# The record cache of a store

A store keeps the records that it has parsed beside the modification time and the size
of their files, and takes a record from there as long as the file has the same pair.
The calls of one store follow each other, but other processes write and remove record
files between any two of its file operations; the record lock, which they need not take,
is not seen here.  A step is one file operation of the store or a change from outside.
-/

namespace OpenAgent.Tasks

open Library

/-- The text of a record and back.  Reading says what it warns of. -/
structure RecordFormat where
  render : TaskRecord → String
  parse : String → String → Except String (TaskRecord × List String)

/-- The pair by which the cache knows a file. -/
structure FileStat where
  mtimeMs : Nat
  size : Nat
  deriving DecidableEq

structure FileVersion where
  text : String
  stat : FileStat

/-- The record files by their names. -/
abbrev RecordFiles := List (String × FileVersion)

structure CacheEntry where
  record : TaskRecord
  stat : FileStat
  warnings : List String

/-- What reading one file comes to: a failure to parse it, no file, or a record. -/
abbrev ReadOutcome := Except String (Option (TaskRecord × List String))

inductive TaskRecordDiagnostic
  | parseWarning (path message : String)
  | parseError (path message : String)

structure ListTaskRecordsResult where
  records : List TaskRecord
  diagnostics : List TaskRecordDiagnostic

/-- What a call returns. -/
inductive StoreResult
  | loaded (path : String) (outcome : Except String (Option TaskRecord))
  | listed (result : ListTaskRecordsResult)

/-- A call on the store. -/
inductive StoreCall
  | save (saved : TaskRecord)
  | replace (replacement : TaskRecord)
  | change (taskId : String) (requested : RecordCall)
  | load (taskId : String)
  | list

/-- The part of a listing that is done, and the files that follow. -/
structure Listing where
  seen : List String
  remaining : List String
  outcomes : List (String × ReadOutcome)

/-- The points in front of a file operation of a call. -/
inductive StorePoint
  | idle
  /-- `writeFileSync(path, .., "wx")` of `save`. -/
  | creating (path : String) (created : TaskRecord)
  /-- `readRecord(path)` of `mutate` and `transition`. -/
  | readingCurrent (path : String) (requested : RecordCall)
  /-- `renameSync(tmpPath, path)`. -/
  | rewriting (path : String) (next : TaskRecord)
  /-- `readRecord(path)` of `cacheSet`. -/
  | cacheReading (path : String)
  /-- `statSync(path)` of `cacheSet`. -/
  | cacheStating (path : String) (record : TaskRecord) (warnings : List String)
  /-- `readdirSync(tasksDir)`. -/
  | readingDir
  /-- `statSync(path)` of `readCached`. -/
  | stating (path : String) (listing : Option Listing)
  /-- `readRecord(path)` of `readCached`. -/
  | reading (path : String) (stat : FileStat) (listing : Option Listing)

inductive StoreLabel
  | call (requested : StoreCall)
  /-- The next file operation; a write gives the file the pair. -/
  | proceed (stat : FileStat)
  | foreignWrite (path : String) (version : FileVersion)
  | foreignRemove (path : String)

/-- A store over its files.  Beside them stand the pairs that files have had, the states
of the files since the current call began, and what the last call returned. -/
structure CachedStore where
  files : RecordFiles
  cache : List (String × CacheEntry)
  point : StorePoint
  history : List (String × FileStat)
  moments : List RecordFiles
  returned : Option StoreResult

def taskPath (taskId : String) : String :=
  taskId ++ ".json"

/-- The names that a listing goes through. -/
def sortedNames (files : RecordFiles) : List String :=
  stableSort codeUnitLE (files.map Prod.fst)

/-- What a store without a cache would read. -/
def readRecord (format : RecordFormat) (files : RecordFiles) (path : String) : ReadOutcome :=
  match mapGet files path with
  | none => .ok none
  | some version => (format.parse path version.text).map some

def outcomeRecords : String × ReadOutcome → List TaskRecord
  | (_, .ok (some (record, _))) => [record]
  | _ => []

def outcomeDiagnostics : String × ReadOutcome → List TaskRecordDiagnostic
  | (path, .ok (some (_, warnings))) => warnings.map (.parseWarning path)
  | (_, .ok none) => []
  | (path, .error message) => [.parseError path message]

def listResult (outcomes : List (String × ReadOutcome)) : ListTaskRecordsResult where
  records := outcomes.flatMap outcomeRecords
  diagnostics := outcomes.flatMap outcomeDiagnostics

namespace CachedStore

variable (format : RecordFormat)

def writeFile (path text : String) (stat : FileStat) (state : CachedStore) : CachedStore :=
  { state with
    files := mapSet state.files path ⟨text, stat⟩
    history := state.history ++ [(path, stat)] }

/-- The cache is pruned at the end of a listing. -/
def finishList (seen : List String) (outcomes : List (String × ReadOutcome))
    (state : CachedStore) : CachedStore :=
  { state with
    cache := state.cache.filter fun entry => entry.1 ∈ seen
    point := .idle
    returned := some (.listed (listResult outcomes)) }

/-- Behind one file: a load returns, and a listing goes on. -/
def settle (path : String) (outcome : ReadOutcome) (listing : Option Listing)
    (state : CachedStore) : CachedStore :=
  match listing with
  | none =>
    { state with
      point := .idle
      returned := some (.loaded path (outcome.map (·.map Prod.fst))) }
  | some listing =>
    let outcomes := listing.outcomes ++ [(path, outcome)]
    match listing.remaining with
    | [] => state.finishList listing.seen outcomes
    | next :: remaining =>
      { state with point := .stating next (some ⟨listing.seen, remaining, outcomes⟩) }

def startPoint : StoreCall → StorePoint
  | .save saved => .creating (taskPath saved.taskId) saved
  | .replace replacement => .rewriting (taskPath replacement.taskId) replacement
  | .change taskId requested => .readingCurrent (taskPath taskId) requested
  | .load taskId => .stating (taskPath taskId) none
  | .list => .readingDir

/-- One file operation. -/
def operate (stat : FileStat) (state : CachedStore) : Option CachedStore :=
  match state.point with
  | .idle => none
  | .creating path created =>
    if (mapGet state.files path).isSome then some { state with point := .idle }
    else
      some { state.writeFile path (format.render created) stat with
        point := .cacheReading path }
  | .readingCurrent path requested =>
    match readRecord format state.files path with
    | .ok (some (current, _)) =>
      match requested.next current with
      | none => some { state with point := .cacheReading path }
      | some next => some { state with point := .rewriting path next }
    | _ => some { state with point := .idle }
  | .rewriting path next =>
    some { state.writeFile path (format.render next) stat with point := .cacheReading path }
  | .cacheReading path =>
    match readRecord format state.files path with
    | .ok (some (record, warnings)) =>
      some { state with point := .cacheStating path record warnings }
    | _ => some { state with point := .idle }
  | .cacheStating path record warnings =>
    match mapGet state.files path with
    | none => some { state with point := .idle }
    | some version =>
      some { state with
        cache := mapSet state.cache path ⟨record, version.stat, warnings⟩
        point := .idle }
  | .readingDir =>
    match sortedNames state.files with
    | [] => some (state.finishList [] [])
    | path :: remaining =>
      some { state with
        point := .stating path (some ⟨sortedNames state.files, remaining, []⟩) }
  | .stating path listing =>
    match mapGet state.files path with
    | none =>
      some (settle path (.ok none) listing { state with cache := mapDelete state.cache path })
    | some version =>
      match mapGet state.cache path with
      | some hit =>
        if hit.stat = version.stat then
          some (state.settle path (.ok (some (hit.record, hit.warnings))) listing)
        else some { state with point := .reading path version.stat listing }
      | none => some { state with point := .reading path version.stat listing }
  | .reading path found listing =>
    match readRecord format state.files path with
    | .ok (some (record, warnings)) =>
      some (settle path (.ok (some (record, warnings))) listing
        { state with cache := mapSet state.cache path ⟨record, found, warnings⟩ })
    | outcome => some (state.settle path outcome listing)

/-- The files as they are now belong to the call under way. -/
def noteMoment (state : CachedStore) : CachedStore :=
  match state.point with
  | .idle => state
  | _ => { state with moments := state.moments ++ [state.files] }

def step (state : CachedStore) : StoreLabel → Option CachedStore
  | .call requested =>
    match state.point with
    | .idle =>
      some { state with
        point := startPoint requested
        moments := [state.files]
        returned := none }
    | _ => none
  | .proceed stat => (state.operate format stat).map noteMoment
  | .foreignWrite path version =>
    some (noteMoment (state.writeFile path version.text version.stat))
  | .foreignRemove path =>
    some (noteMoment { state with files := mapDelete state.files path })

/-- A new store over no files. -/
def opened : CachedStore :=
  ⟨[], [], .idle, [], [], none⟩

end CachedStore

end OpenAgent.Tasks
