import OpenAgent.Config.MigrationLaws
import OpenAgent.Library.Execution

/-!
# What a migration plans

The plan of a migration depends on the files that it watches alone: its target, the journal,
its sources and the candidates for their backups.  Its moves take different sources to
different backups, none of which is there yet.
-/

namespace OpenAgent.Config

open Library

section

variable (plan : MigrationPlan)

/-- A path that the backup of a source might be given. -/
def MigrationPlan.Candidate (path : Units) : Prop :=
  ∃ source ∈ plan.sources, ∃ basePath attempt,
    backupBasePath source plan.id = .ok basePath ∧ path = backupCandidate basePath attempt

/-- The paths whose files decide what a migration does. -/
def MigrationPlan.Watches (homeDir : Units) (path : Units) : Prop :=
  path = plan.targetPath ∨ path = migrationJournalPath homeDir ∨
    (∃ source ∈ plan.sources, path = source.path) ∨ plan.Candidate path

/-- Two disks have the same files as far as a plan is concerned. -/
def MigrationPlan.SameFiles (homeDir : Units) (disk other : Disk) : Prop :=
  ∀ path, plan.Watches homeDir path → mapGet disk path = mapGet other path

end

/-- Loops whose passes do the same. -/
theorem foldlM_congr {items : List α} {second : β → α → Except ε β}
    (same : ∀ item ∈ items, ∀ value, first value item = second value item) (value : β) :
    items.foldlM first value = items.foldlM second value := by
  induction items generalizing value with
  | nil => rfl
  | cons item items ih =>
    rw [List.foldlM_cons, same item List.mem_cons_self]
    congr 1
    funext next
    exact ih (fun other member => same other (List.mem_cons_of_mem item member))
      next

theorem mapM_congr {items : List α} {second : α → Except ε β}
    (same : ∀ item ∈ items, first item = second item) : items.mapM first = items.mapM second := by
  induction items with
  | nil => rfl
  | cons item items ih =>
    rw [List.mapM_cons, List.mapM_cons, same item List.mem_cons_self,
      ih fun other member => same other (List.mem_cons_of_mem item member)]

section

variable {host : Host} {plan : MigrationPlan}

/-- The first number of a kind, as long as the range has one. -/
theorem find?_range_eq (isFree : Nat → Bool) (inRange : attempt < bound)
    (free : isFree attempt = true) (otherInRange : otherAttempt < otherBound)
    (otherFree : isFree otherAttempt = true) :
    (List.range bound).find? isFree = (List.range otherBound).find? isFree := by
  have someFirst : ((List.range bound).find? isFree).isSome :=
    List.find?_isSome.mpr ⟨attempt, List.mem_range.mpr inRange, free⟩
  have someSecond : ((List.range otherBound).find? isFree).isSome :=
    List.find?_isSome.mpr ⟨otherAttempt, List.mem_range.mpr otherInRange, otherFree⟩
  obtain ⟨first, isFirst⟩ := Option.isSome_iff_exists.mp someFirst
  obtain ⟨second, isSecond⟩ := Option.isSome_iff_exists.mp someSecond
  rw [isFirst, isSecond]
  obtain ⟨firstFree, _, beforeFirst⟩ := List.find?_range_eq_some.mp isFirst
  obtain ⟨secondFree, _, beforeSecond⟩ := List.find?_range_eq_some.mp isSecond
  have notLater : ¬ first < second := by
    intro earlier
    have taken := beforeSecond first earlier
    rw [firstFree] at taken
    cases taken
  have notEarlier : ¬ second < first := by
    intro earlier
    have taken := beforeFirst second earlier
    rw [secondFree] at taken
    cases taken
  rw [show first = second by omega]

/-- Some candidate is free, and within the range of attempts. -/
theorem exists_freeCandidate (disk : Disk) (destinations : List Units) :
    ∃ attempt, attempt < disk.length + destinations.length + 2 ∧
      (!(disk.exists (backupCandidate basePath attempt) ||
        destinations.contains (backupCandidate basePath attempt))) = true := by
  obtain ⟨attempt, inRange, free⟩ :=
    exists_free (disk.map Prod.fst ++ destinations) (backupCandidate_distinct basePath)
  rw [List.length_append, List.length_map] at inRange
  rw [List.mem_append, not_or] at free
  exact ⟨attempt, inRange, by simp [Disk.exists_eq_false free.1, free.2]⟩

theorem backupDestination_congr
    (same : ∀ basePath attempt, backupBasePath source plan.id = .ok basePath →
      disk.exists (backupCandidate basePath attempt) =
        other.exists (backupCandidate basePath attempt))
    (destinations : List Units) :
    backupDestination source plan.id disk destinations =
      backupDestination source plan.id other destinations := by
  unfold backupDestination
  cases isBase : backupBasePath source plan.id with
  | error failure => rfl
  | ok basePath =>
    have sameTaken := fun attempt => same basePath attempt isBase
    have sameBase : disk.exists basePath = other.exists basePath := sameTaken 0
    obtain ⟨attempt, inRange, free⟩ := exists_freeCandidate disk destinations
    obtain ⟨otherAttempt, otherInRange, otherFree⟩ :=
      exists_freeCandidate other destinations
    have sameFree : (fun attempt => !(disk.exists (backupCandidate basePath attempt) ||
          destinations.contains (backupCandidate basePath attempt))) =
        fun attempt => !(other.exists (backupCandidate basePath attempt) ||
          destinations.contains (backupCandidate basePath attempt)) := by
      funext attempt
      rw [sameTaken]
    have sameFound := find?_range_eq
      (fun attempt => !(other.exists (backupCandidate basePath attempt) ||
        destinations.contains (backupCandidate basePath attempt)))
      inRange (by rw [← sameTaken]; exact free) otherInRange otherFree
    simp only [bind, Except.bind, sameBase, sameFree, sameFound]

theorem MigrationPlan.SameFiles.exists_eq (same : plan.SameFiles host.homeDir disk other)
    (isWatched : plan.Watches host.homeDir path) : disk.exists path = other.exists path := by
  rw [Disk.exists, Disk.exists, same path isWatched]

theorem watches_source (isSource : source ∈ plan.sources) : plan.Watches host.homeDir source.path :=
  .inr (.inr (.inl ⟨source, isSource, rfl⟩))

theorem backupMoves_congr (areSources : ∀ source ∈ sources, source ∈ plan.sources)
    (same : plan.SameFiles host.homeDir disk other) :
    backupMoves sources plan.id disk (host.protectedPaths plan) =
      backupMoves sources plan.id other (host.protectedPaths plan) := by
  apply foldlM_congr
  intro source isSource moves
  unfold backupMove
  rw [backupDestination_congr fun basePath attempt isBase => same.exists_eq
    (.inr (.inr (.inr ⟨source, areSources source isSource, basePath, attempt, isBase, rfl⟩)))]

theorem loadSources_congr (areSources : ∀ source ∈ sources, source ∈ plan.sources)
    (same : plan.SameFiles host.homeDir disk other) :
    host.loadSources sources disk = host.loadSources sources other := by
  apply mapM_congr
  intro source isSource
  rw [Disk.readFile, Disk.readFile, same _ (watches_source (areSources source isSource))]

/-- The plan depends on the watched files alone. -/
theorem planMigration_congr (same : plan.SameFiles host.homeDir disk other) :
    host.planMigration plan disk = host.planMigration plan other := by
  have sameExisting : (plan.sources.filter fun source => disk.exists source.path) =
      plan.sources.filter fun source => other.exists source.path := by
    apply List.filter_congr
    intro source isSource
    exact same.exists_eq (watches_source isSource)
  have areSources : ∀ source ∈ plan.sources.filter fun source => other.exists source.path,
      source ∈ plan.sources := fun source member => List.mem_of_mem_filter member
  have sameTarget : disk.exists plan.targetPath = other.exists plan.targetPath :=
    same.exists_eq (.inl rfl)
  have sameDocument : host.targetDocument plan.targetPath disk =
      host.targetDocument plan.targetPath other := by
    rw [Host.targetDocument, Host.targetDocument, same _ (.inl rfl)]
  simp only [Host.planMigration, Host.planSources, sameExisting, sameTarget, sameDocument,
    loadSources_congr areSources same, backupMoves_congr areSources same]

/-- The sources of a plan are different from each other and not protected. -/
theorem assertSafeSourcePaths_eq_ok
    (safe : assertSafeSourcePaths sources protectedPaths = .ok paths) :
    (sources.map (·.path)).Nodup ∧ ∀ source ∈ sources, source.path ∉ protectedPaths := by
  suffices loops : ∀ (sources : List MigrationSourceDescriptor) (seen : List Units),
      seen.Nodup → sources.foldlM (assertSafeSourcePath protectedPaths) seen = .ok paths →
        (seen ++ sources.map (·.path)).Nodup ∧ ∀ source ∈ sources, source.path ∉ protectedPaths by
    simpa using loops sources [] List.nodup_nil safe
  intro sources
  induction sources with
  | nil =>
    intro seen unique _
    exact ⟨by simpa using unique, fun _ member => (List.not_mem_nil member).elim⟩
  | cons source sources ih =>
    intro seen unique loop
    obtain ⟨next, passed, rest⟩ := foldlM_cons_eq_ok.mp loop
    rw [assertSafeSourcePath] at passed
    split at passed
    · cases passed
    · next notSeen =>
        split at passed
        · cases passed
        · next notProtected =>
            cases passed
            have isNew : source.path ∉ seen := by simpa using notSeen
            have isSafe : source.path ∉ protectedPaths := by simpa using notProtected
            obtain ⟨allUnique, allSafe⟩ := ih _ (nodup_append_singleton unique isNew) rest
            refine ⟨by simpa using allUnique, ?_⟩
            intro other member
            rcases List.mem_cons.mp member with rfl | isLater
            · exact isSafe
            · exact allSafe other isLater

/-- What is known of a destination. -/
theorem backupDestination_eq_ok
    (found : backupDestination source migrationId disk destinations = .ok destination) :
    disk.exists destination = false ∧ destination ∉ destinations ∧
      ∃ basePath attempt, backupBasePath source migrationId = .ok basePath ∧
        destination = backupCandidate basePath attempt := by
  rw [backupDestination, bind_eq_ok] at found
  obtain ⟨basePath, isBase, found⟩ := found
  dsimp only at found
  split at found
  · cases found
  · split at found
    · next attempt isFirst =>
        cases found
        have free := List.find?_some isFirst
        simp only [Bool.not_eq_true', Bool.or_eq_false_iff] at free
        exact ⟨free.1, by simpa using free.2, basePath, attempt, isBase, rfl⟩
    · cases found

/-- The moves of a plan: different sources to different backups that are not there yet. -/
structure SoundMoves (disk : Disk) (paths protectedPaths : List Units)
    (moves : List MigrationBackupMove) : Prop where
  destinations : (moves.map (·.toPath)).Nodup
  free : ∀ move ∈ moves, disk.exists move.toPath = false
  notSource : ∀ move ∈ moves, move.toPath ∉ paths
  notProtected : ∀ move ∈ moves, move.toPath ∉ protectedPaths

theorem backupMoves_eq_ok
    (planned : backupMoves sources migrationId disk protectedPaths = .ok moves) :
    moves.map (·.fromPath) = sources.map (·.path) ∧
      SoundMoves disk (sources.map (·.path)) protectedPaths moves ∧
      ∀ move ∈ moves, ∃ source ∈ sources, ∃ basePath attempt,
        backupBasePath source migrationId = .ok basePath ∧
          move.toPath = backupCandidate basePath attempt := by
  suffices loops : ∀ (rest front : List MigrationSourceDescriptor)
      (paths : List Units) (before : List MigrationBackupMove),
      before.map (·.fromPath) = front.map (·.path) →
      SoundMoves disk paths protectedPaths before →
      (∀ move ∈ before, ∃ source ∈ front, ∃ basePath attempt,
        backupBasePath source migrationId = .ok basePath ∧
          move.toPath = backupCandidate basePath attempt) →
      rest.foldlM (backupMove paths protectedPaths migrationId disk) before = .ok moves →
      moves.map (·.fromPath) = (front ++ rest).map (·.path) ∧
        SoundMoves disk paths protectedPaths moves ∧
        ∀ move ∈ moves, ∃ source ∈ front ++ rest, ∃ basePath attempt,
          backupBasePath source migrationId = .ok basePath ∧
            move.toPath = backupCandidate basePath attempt from
    loops sources [] _ [] rfl ⟨List.nodup_nil, by simp, by simp, by simp⟩ (by simp) planned
  intro rest
  induction rest with
  | nil =>
    intro front paths before sameSources sound candidates loop
    cases loop
    rw [List.append_nil]
    exact ⟨sameSources, sound, candidates⟩
  | cons source rest ih =>
    intro front paths before sameSources sound candidates loop
    obtain ⟨next, passed, later⟩ := foldlM_cons_eq_ok.mp loop
    rw [backupMove, bind_eq_ok] at passed
    obtain ⟨destination, found, passed⟩ := passed
    obtain ⟨isFree, isNew, isCandidate⟩ := backupDestination_eq_ok found
    split at passed
    · cases passed
    · next allowed =>
        cases passed
        simp only [Bool.or_eq_true, List.contains_iff_mem, not_or] at allowed
        rw [show front ++ source :: rest = (front ++ [source]) ++ rest by simp]
        refine ih (front ++ [source]) paths _ ?_ ?_ ?_ later
        · rw [List.map_append, sameSources, List.map_append]
          rfl
        · refine ⟨?_, ?_, ?_, ?_⟩
          · rw [List.map_append]
            exact nodup_append_singleton sound.destinations isNew
          · exact forall_mem_concat sound.free isFree
          · exact forall_mem_concat sound.notSource allowed.1
          · exact forall_mem_concat sound.notProtected allowed.2
        · intro move member
          rcases List.mem_append.mp member with isOld | isLast
          · obtain ⟨origin, isOrigin, rest⟩ := candidates move isOld
            exact ⟨origin, List.mem_append_left _ isOrigin, rest⟩
          · rw [List.mem_singleton.mp isLast]
            exact ⟨source, List.mem_append_right _ List.mem_cons_self, isCandidate⟩

/-- What is known of a plan that is not skipped. -/
structure Planned.Sound (planned : Planned) (host : Host) (plan : MigrationPlan)
    (start : Disk) : Prop where
  migrationId : planned.journal.migrationId = plan.id
  targetPath : planned.journal.targetPath = plan.targetPath
  notWritten : planned.journal.targetWritten = false
  notMoved : planned.journal.completedMoves = []
  sources : (planned.journal.backupMoves.map (·.fromPath)).Nodup
  present : ∀ move ∈ planned.journal.backupMoves, start.exists move.fromPath = true
  safe : ∀ move ∈ planned.journal.backupMoves, move.fromPath ∉ host.protectedPaths plan
  isSource : ∀ move ∈ planned.journal.backupMoves,
    ∃ source ∈ plan.sources, move.fromPath = source.path
  isCandidate : ∀ move ∈ planned.journal.backupMoves, plan.Candidate move.toPath
  moves : SoundMoves start (planned.journal.backupMoves.map (·.fromPath))
    (host.protectedPaths plan) planned.journal.backupMoves
  prepared : ∃ target prepared, host.targetDocument plan.targetPath start = .ok target ∧
    hasMigrationMarker target plan.id = false ∧
      host.prepare planned.journal.targetWrite target plan.id plan.targetPath = .ok prepared ∧
        prepared.edits = planned.edits

theorem sound_of_planMigration (isPlanned : host.planMigration plan start = .ok (some planned)) :
    planned.Sound host plan start := by
  rw [Host.planMigration, bind_eq_ok] at isPlanned
  obtain ⟨paths, safe, isPlanned⟩ := isPlanned
  obtain ⟨unique, notProtected⟩ := assertSafeSourcePaths_eq_ok safe
  rw [bind_eq_ok] at isPlanned
  obtain ⟨target, isTarget, isPlanned⟩ := isPlanned
  dsimp only at isPlanned
  generalize (if plan.replaceTarget = true then start.exists plan.targetPath else _) =
    legacySourcesExist at isPlanned
  split at isPlanned
  · next runs =>
      have unmarked : hasMigrationMarker target plan.id = false := by
        simp only [Bool.and_eq_true, Bool.not_eq_true'] at runs
        exact runs.2
      cases comes : host.planSources plan
          (plan.sources.filter fun source => start.exists source.path) target start with
      | error failure =>
        rw [comes] at isPlanned
        cases isPlanned
      | ok found =>
        rw [comes] at isPlanned
        cases isPlanned
        rw [Host.planSources, bind_eq_ok] at comes
        obtain ⟨loaded, _, comes⟩ := comes
        rw [bind_eq_ok] at comes
        obtain ⟨returned, _, comes⟩ := comes
        rw [bind_eq_ok] at comes
        obtain ⟨transformed, _, comes⟩ := comes
        rw [bind_eq_ok] at comes
        obtain ⟨prepared, isPrepared, comes⟩ := comes
        rw [bind_eq_ok] at comes
        obtain ⟨moves, areMoves, comes⟩ := comes
        cases comes
        obtain ⟨sameSources, sound, candidates⟩ := backupMoves_eq_ok areMoves
        have ofSource : ∀ move ∈ moves, ∃ source ∈ plan.sources,
            start.exists source.path = true ∧ move.fromPath = source.path := by
          intro move member
          have isFrom : move.fromPath ∈ moves.map (·.fromPath) := List.mem_map_of_mem member
          rw [sameSources] at isFrom
          obtain ⟨source, isExisting, same⟩ := List.mem_map.mp isFrom
          obtain ⟨isSource, exists_⟩ := List.mem_filter.mp isExisting
          exact ⟨source, isSource, exists_, same.symm⟩
        refine
          { migrationId := rfl, targetPath := rfl, notWritten := rfl, notMoved := rfl
            sources := ?_, present := ?_, safe := ?_, isSource := ?_, isCandidate := ?_
            moves := ?_, prepared := ⟨target, prepared, isTarget, unmarked, isPrepared, rfl⟩ }
        · rw [sameSources]
          exact unique.sublist (List.filter_sublist.map _)
        · intro move member
          obtain ⟨source, _, exists_, same⟩ := ofSource move member
          rw [same, exists_]
        · intro move member
          obtain ⟨source, isSource, _, same⟩ := ofSource move member
          rw [same]
          exact notProtected source isSource
        · intro move member
          obtain ⟨source, isSource, _, same⟩ := ofSource move member
          exact ⟨source, isSource, same⟩
        · intro move member
          obtain ⟨source, isExisting, rest⟩ := candidates move member
          exact ⟨source, List.mem_of_mem_filter isExisting, rest⟩
        · rw [sameSources]
          exact sound
  · cases isPlanned

end

/-- How often a migration stands in the marker of a document. -/
def markerCount (document : Members) (migrationId : Units) : Nat :=
  match mapGet document (unitsOf "_migrations") with
  | some (.array markers) => markers.countP (isMarker migrationId)
  | _ => 0

/-- What the library does to texts in which no object names a member twice, as documented:
after an edit the text is an object still, and has the value at the path. -/
structure JsoncLibrary.Lawful (jsonc : JsoncLibrary) (namesOnce : Content → Prop) : Prop where
  parse_empty : jsonc.parse emptyOmoConfig = ([], some (.object []))
  namesOnce_empty : namesOnce emptyOmoConfig
  modify_sets : ∀ content members path value next, namesOnce content → path ≠ [] →
    jsonc.parse (stripBom content) = ([], some (.object members)) →
      jsonc.modify content path value = .ok next →
        namesOnce next ∧ ∃ edited, jsonc.parse (stripBom next) = ([], some (.object edited)) ∧
          ∀ key set, path = [key] → isUnsafeObjectKey key = false → value = some set →
            mapGet edited key = some set

mutual

theorem path_of_mem_collectMigrationEdits :
    ∀ (members : Members), ∀ edit ∈ collectMigrationEdits path members, edit.path ≠ []
  | [], _, member => (List.not_mem_nil member).elim
  | (key, entry) :: members, edit, member => by
      rw [collectMigrationEdits] at member
      split at member
      · exact path_of_mem_collectMigrationEdits members edit member
      · rcases List.mem_append.mp member with isEntry | isLater
        · exact path_of_mem_collectEntryEdits (by simp) entry edit isEntry
        · exact path_of_mem_collectMigrationEdits members edit isLater

theorem path_of_mem_collectEntryEdits (nonempty : path ≠ []) :
    ∀ (entry : Json), ∀ edit ∈ collectEntryEdits path entry, edit.path ≠ []
  | .object (first :: members), edit, member => by
      exact path_of_mem_collectMigrationEdits (first :: members) edit member
  | .object [], edit, member
  | .null, edit, member
  | .bool _, edit, member
  | .number _, edit, member
  | .string _, edit, member
  | .array _, edit, member => by
      simp only [collectEntryEdits, List.mem_singleton] at member
      rw [member]
      exact nonempty

end

/-- The edit that sets the marker. -/
def markerEdit (marker : List Units) : OmoConfigEdit where
  path := [unitsOf "_migrations"]
  value := some (markerJson marker)

section

variable {host : Host}

/-- The last edit sets the marker. -/
theorem prepare_edits
    (isPrepared : host.prepare targetWrite target migrationId targetPath = .ok prepared) :
    ∃ front marker, markerValue target migrationId targetPath = .ok marker ∧
      prepared.edits = front ++ [markerEdit marker] ∧ ∀ edit ∈ front, edit.path ≠ [] := by
  rw [Host.prepare] at isPrepared
  split at isPrepared
  · rw [Host.prepareTargetReplacement, bind_eq_ok] at isPrepared
    obtain ⟨marker, isMarker, isPrepared⟩ := isPrepared
    obtain ⟨_, _, isPrepared⟩ := bind_eq_ok.mp isPrepared
    cases isPrepared
    refine ⟨_, marker, isMarker, rfl, ?_⟩
    intro edit member
    rw [replacementEdits, List.mem_append, List.mem_filterMap, List.mem_filterMap] at member
    rcases member with ⟨entry, _, found⟩ | ⟨entry, _, found⟩
    all_goals
      split at found
      · cases found
        exact List.cons_ne_nil _ _
      · cases found
  · obtain ⟨marker, isMarker, isPrepared⟩ := bind_eq_ok.mp isPrepared
    obtain ⟨_, _, isPrepared⟩ := bind_eq_ok.mp isPrepared
    cases isPrepared
    exact ⟨_, marker, isMarker, rfl, path_of_mem_collectMigrationEdits _⟩

theorem stringItems_eq_some (areStrings : stringItems entries = some items) :
    entries = items.map Json.string := by
  induction entries generalizing items with
  | nil =>
    cases areStrings
    rfl
  | cons entry entries ih =>
    cases entry with
    | string units =>
      rw [stringItems, Option.map_eq_some_iff] at areStrings
      obtain ⟨later, areLater, rfl⟩ := areStrings
      rw [List.map_cons, ih areLater]
    | null | bool value | number literal | array items | object members => cases areStrings

theorem any_isMarker (marker : List Units) :
    (marker.map Json.string).any (isMarker migrationId) = decide (migrationId ∈ marker) := by
  rw [List.any_eq]
  simp [isMarker]

/-- A new marker names the migration once. -/
theorem count_markerValue (isMarkerValue : markerValue target migrationId targetPath = .ok marker)
    (unmarked : hasMigrationMarker target migrationId = false) : marker.count migrationId = 1 := by
  rw [markerValue] at isMarkerValue
  split at isMarkerValue
  · cases isMarkerValue
    exact List.count_singleton_self
  · next entries isArray =>
      split at isMarkerValue
      · next items areStrings =>
          cases isMarkerValue
          rw [if_neg (by rw [unmarked]; decide)]
          rw [hasMigrationMarker, isArray, stringItems_eq_some areStrings] at unmarked
          dsimp only at unmarked
          rw [any_isMarker] at unmarked
          have absent : migrationId ∉ items := of_decide_eq_false unmarked
          rw [List.count_append, List.count_eq_zero_of_not_mem absent, List.count_singleton_self]
      · cases isMarkerValue
  · cases isMarkerValue

theorem markerCount_eq
    (isSet : mapGet document (unitsOf "_migrations") = some (markerJson marker)) :
    markerCount document migrationId = marker.count migrationId := by
  rw [markerCount, isSet]
  change (marker.map Json.string).countP (isMarker migrationId) = _
  rw [List.countP_map]
  apply List.countP_congr
  simp [isMarker]

theorem hasMigrationMarker_of_markerCount (marked : markerCount document migrationId = 1) :
    hasMigrationMarker document migrationId = true := by
  rw [markerCount] at marked
  split at marked
  · next markers isArray =>
      rw [hasMigrationMarker, isArray]
      have positive : 0 < markers.countP (isMarker migrationId) := by omega
      exact List.any_eq_true.mpr (by simpa using List.countP_pos_iff.mp positive)
  · cases marked

/-- Edits keep a text an object, and the last one sets the marker. -/
theorem applyEdits_marks (lawful : host.jsonc.Lawful namesOnce)
    (nonempty : ∀ edit ∈ front, edit.path ≠ []) (once : namesOnce content)
    (parses : host.jsonc.parse (stripBom content) = ([], some (.object members)))
    (edited : host.applyEdits content (front ++ [markerEdit marker]) = .ok next) :
    ∃ document, host.jsonc.parse (stripBom next) = ([], some (.object document)) ∧
      mapGet document (unitsOf "_migrations") = some (markerJson marker) := by
  induction front generalizing content members with
  | nil =>
    rw [Host.applyEdits, List.nil_append, foldlM_cons_eq_ok] at edited
    obtain ⟨middle, isEdited, rest⟩ := edited
    cases rest
    obtain ⟨_, document, isDocument, sets⟩ := lawful.modify_sets content members
      [unitsOf "_migrations"] (some (markerJson marker)) next once (by simp) parses
      (mapError_eq_ok.mp isEdited)
    exact ⟨document, isDocument, sets _ _ rfl (by decide +kernel) rfl⟩
  | cons edit front ih =>
    rw [Host.applyEdits, List.cons_append, foldlM_cons_eq_ok] at edited
    obtain ⟨middle, isEdited, rest⟩ := edited
    obtain ⟨middleOnce, document, isDocument, _⟩ := lawful.modify_sets content members
      edit.path edit.value middle once (nonempty edit List.mem_cons_self) parses
      (mapError_eq_ok.mp isEdited)
    exact ih (fun other member => nonempty other (List.mem_cons_of_mem edit member)) middleOnce
      isDocument rest

end

/-- The value at a path of keys. -/
def valueAt : Json → List Units → Option Json
  | value, [] => some value
  | .object members, key :: path => (mapGet members key).bind (valueAt · path)
  | _, _ :: _ => none

theorem mapGet_cloneMembers (safe : isUnsafeObjectKey key = false) (members : Members) :
    mapGet (cloneMembers members) key = (mapGet members key).map cloneValue := by
  induction members with
  | nil => rfl
  | cons member members ih =>
    by_cases same : member.1 = key <;> by_cases skipped : isUnsafeObjectKey member.1 <;>
      simp_all [cloneMembers, mapGet]

theorem valueAt_cloneValue {path : List Units} (safe : ∀ key ∈ path, isUnsafeObjectKey key = false)
    (value : Json) : valueAt (cloneValue value) path = (valueAt value path).map cloneValue := by
  induction path generalizing value with
  | nil => rfl
  | cons key path ih =>
    rw [List.forall_mem_cons] at safe
    cases value with
    | object members =>
      rw [cloneValue, valueAt, valueAt, mapGet_cloneMembers safe.1]
      cases mapGet members key with
      | none => rfl
      | some value => exact ih safe.2 value
    | _ => rfl

/-- Where something stands, only an object is added to an object. -/
theorem mergeMember_eq_some (found : mapGet existing key = some kept)
    (added : (mergeMember existing path key legacy).1 = some addition) :
    ∃ old more, kept = .object old ∧ addition = .object (mergeInto old path more).1 := by
  cases legacy <;> cases kept <;> simp_all [mergeMember]
  exact ⟨_, added.2.symm⟩

/-- Additions to an object leave the values that it has. -/
theorem valueAt_applyAdditions (safe : ∀ key ∈ path, isUnsafeObjectKey key = false)
    (isLeaf : ∀ members, value ≠ .object members) (isCopy : cloneValue value = value)
    (present : valueAt (.object existing) path = some value)
    (kept : valueAt (.object result) path = some value) :
    valueAt (.object (applyAdditions result (mergeInto existing parents legacy).1)) path =
      some value := by
  induction path generalizing existing result parents legacy with
  | nil => exact absurd (Option.some.inj present).symm (isLeaf existing)
  | cons key path ih =>
    rw [List.forall_mem_cons] at safe
    obtain ⟨old, isOld, below⟩ := Option.bind_eq_some_iff.mp present
    induction legacy generalizing result with
    | nil => exact kept
    | cons entry legacy later =>
      simp only [mergeInto]
      split
      next => exact later kept
      next allowed =>
        cases added : (mergeMember existing (parents ++ [entry.1]) entry.1 entry.2).1 with
        | none => exact later kept
        | some addition =>
          simp only [Option.map_some, Option.toList_some, List.singleton_append, applyAdditions,
            allowed]
          refine later ?_
          rw [valueAt, mapGet_mapSet]
          split
          next same =>
            subst same
            obtain ⟨old, more, rfl, rfl⟩ := mergeMember_eq_some isOld added
            obtain ⟨current, isCurrent, stays⟩ := Option.bind_eq_some_iff.mp kept
            rw [isCurrent]
            cases path with
            | nil => exact absurd (Option.some.inj below).symm (isLeaf old)
            | cons next path =>
              cases current with
              | object entries =>
                have copied := valueAt_cloneValue safe.2 (.object entries)
                rw [stays, Option.map_some, isCopy] at copied
                exact ih safe.2 below copied
              | _ => cases stays
          next => exact kept

/-- A merge keeps what stands in the existing object, but for what lies behind unsafe keys. -/
theorem mergeWithoutClobber_keeps {existing legacy : Members} {path : List Units} {value : Json}
    (safe : ∀ key ∈ path, isUnsafeObjectKey key = false)
    (isLeaf : ∀ members, value ≠ .object members) (isCopy : cloneValue value = value)
    (present : valueAt (.object existing) path = some value) :
    valueAt (.object (mergeWithoutClobber existing legacy).merged) path = some value := by
  have copied := valueAt_cloneValue safe (.object existing)
  rw [present, Option.map_some, isCopy] at copied
  exact valueAt_applyAdditions safe isLeaf isCopy present copied

theorem mergeWithoutClobber_keeps_nested :
    valueAt (.object (mergeWithoutClobber [([1], .object [([2], .bool true)])]
      [([1], .object [([2], .bool false), ([3], .null)])]).merged) [[1], [2]] =
        some (.bool true) := by
  refine mergeWithoutClobber_keeps (by decide +kernel) (fun _ same => ?_) rfl rfl
  cases same

end OpenAgent.Config
