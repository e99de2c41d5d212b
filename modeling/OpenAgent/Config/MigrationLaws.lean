import OpenAgent.Config.MigrationRun
import OpenAgent.Library.HeaderFrame

/-!
# Laws of the migration's files

A journal is read back as it was written, free names are found, and what the reads and the
writes of a migration come to on a disk of which only some files are known.
-/

namespace OpenAgent.Config

open Library

@[simp] theorem stringItems_map (items : List Units) :
    stringItems (items.map Json.string) = some items := by
  induction items with
  | nil => rfl
  | cons item items ih => simp [stringItems, ih]

theorem parseBackupMove_json (move : MigrationBackupMove) :
    parseBackupMove move.json = .ok move := by
  rfl

theorem mapM_parseBackupMove (moves : List MigrationBackupMove) :
    (moves.map MigrationBackupMove.json).mapM parseBackupMove = .ok moves := by
  induction moves with
  | nil => rfl
  | cons move moves ih =>
    rw [List.map_cons, List.mapM_cons, parseBackupMove_json, ih]
    rfl

theorem parseTargetWrite_json (isMember : value.member "targetWrite" = some targetWrite.json) :
    parseTargetWrite value = .ok targetWrite := by
  obtain ⟨additions, replaceTarget⟩ := targetWrite
  rw [parseTargetWrite, isMember]
  cases replaceTarget <;> rfl

/-- What was written to the journal is read back. -/
theorem parseJournal_json (journal : MigrationJournal) :
    parseJournal journal.json = .ok journal := by
  obtain ⟨moves, completed, diagnostics, migrationId, targetPath, targetWrite, written⟩ := journal
  generalize isJson : MigrationJournal.json _ = value
  have isVersion : value.member "version" = some (.number (naturalLiteral 1)) := by
    subst isJson
    rfl
  have isTargetPath : value.member "targetPath" = some (.string targetPath) := by
    subst isJson
    rfl
  have isMigrationId : value.member "migrationId" = some (.string migrationId) := by
    subst isJson
    rfl
  have isTargetWrite : value.member "targetWrite" = some targetWrite.json := by
    subst isJson
    rfl
  have isWritten : value.member "targetWritten" = some (.bool written) := by
    subst isJson
    rfl
  have isCompleted : value.member "completedMoves" = some (.array (completed.map Json.string)) := by
    subst isJson
    rfl
  have isDiagnostics :
      value.member "diagnostics" = some (.array (diagnostics.map Json.string)) := by
    subst isJson
    rfl
  have isMoves :
      value.member "backupMoves" = some (.array (moves.map MigrationBackupMove.json)) := by
    subst isJson
    rfl
  have one : isVersionOne (value.member "version") = true := by
    rw [isVersion]
    simp [isVersionOne]
  have isObject : ∃ members, value = .object members := by
    subst isJson
    exact ⟨_, rfl⟩
  obtain ⟨members, rfl⟩ := isObject
  simp only [parseJournal, one, isTargetPath, isMigrationId, parseTargetWrite_json isTargetWrite,
    isWritten, isCompleted, parseDiagnostics, isDiagnostics, stringItems_map, parseBackupMoves,
    isMoves, mapM_parseBackupMove]
  rfl

variable {disk : Disk}

theorem readMigrationJournal_content
    (present : mapGet disk (migrationJournalPath homeDir) = some journal.content) :
    readMigrationJournal homeDir disk = .ok (some journal) := by
  simp only [readMigrationJournal, present, MigrationJournal.content,
    parseJson_stringify_newline, parseJournal_json]
  rfl

variable {names : Nat → Units}

/-- Of more names than are taken, one is free. -/
theorem exists_free (taken : List Units)
    (distinct : ∀ first second, 0 < first → 0 < second → names first = names second →
      first = second) :
    ∃ attempt, attempt < taken.length + 2 ∧ names attempt ∉ taken := by
  by_contra none
  push Not at none
  have allTaken : ∀ attempt ∈ Finset.range (taken.length + 1),
      names (attempt + 1) ∈ taken.toFinset := by
    intro attempt member
    exact List.mem_toFinset.mpr (none (attempt + 1) (by have := Finset.mem_range.mp member; omega))
  have injective : Set.InjOn (fun attempt => names (attempt + 1))
      (Finset.range (taken.length + 1)) := by
    intro first _ second _ same
    have equal := distinct (first + 1) (second + 1) (by omega) (by omega) same
    omega
  have fits := Finset.card_le_card_of_injOn _ allTaken injective
  have bounded := List.toFinset_card_le taken
  rw [Finset.card_range] at fits
  omega

theorem Disk.exists_eq_false (absent : path ∉ disk.map Prod.fst) : disk.exists path = false := by
  rw [Disk.exists, mapGet_eq_none_iff.mpr absent]
  rfl

theorem firstFree_eq_some (found : disk.firstFree names = some attempt) :
    disk.exists (names attempt) = false := by
  have free := List.find?_some found
  simpa using free

theorem exists_firstFree (disk : Disk)
    (distinct : ∀ first second, 0 < first → 0 < second → names first = names second →
      first = second) :
    ∃ attempt, disk.firstFree names = some attempt := by
  obtain ⟨attempt, inRange, free⟩ := exists_free (disk.map Prod.fst) distinct
  rw [List.length_map] at inRange
  apply Option.isSome_iff_exists.mp
  rw [Disk.firstFree, List.find?_isSome]
  exact ⟨attempt, List.mem_range.mpr inRange, by simp [Disk.exists_eq_false free]⟩

theorem unitsOfChar_digit (isDigit : char.isDigit = true) :
    unitsOfChar char = [UInt16.ofNat char.toNat] := by
  obtain ⟨_, atMost⟩ := digit_bounds isDigit
  rw [unitsOfChar, codeUnitsOfChar, if_pos (by omega)]
  rfl

/-- A number is written with one unit for each of its digits. -/
theorem decimal_eq_map :
    decimal number = (Nat.toDigits 10 number).map fun digit => UInt16.ofNat digit.toNat := by
  have digits : ∀ text : List Char, (∀ char ∈ text, char.isDigit = true) →
      text.flatMap unitsOfChar = text.map fun digit => UInt16.ofNat digit.toNat := by
    intro text allDigits
    induction text with
    | nil => rfl
    | cons char text ih =>
      rw [List.flatMap_cons, unitsOfChar_digit (allDigits char List.mem_cons_self),
        ih fun other member =>
          allDigits other (List.mem_cons_of_mem char member)]
      rfl
  exact digits _ fun char member =>
    Nat.isDigit_of_mem_toDigits (by decide) (by decide) member

theorem toNat_ofNat_digit {char : Char} (isDigit : char.isDigit = true) :
    (UInt16.ofNat char.toNat).toNat = char.toNat := by
  obtain ⟨_, atMost⟩ := digit_bounds isDigit
  rw [UInt16.toNat_ofNat']
  omega

/-- There is no point and no slash in a number. -/
theorem decimal_bounds {unit : UInt16} (member : unit ∈ decimal number) :
    48 ≤ unit.toNat ∧ unit.toNat ≤ 57 := by
  rw [decimal_eq_map] at member
  obtain ⟨char, isChar, rfl⟩ := List.mem_map.mp member
  have isDigit := Nat.isDigit_of_mem_toDigits (by decide) (by decide) isChar
  rw [toNat_ofNat_digit isDigit]
  exact digit_bounds isDigit

/-- The digits of a written number. -/
theorem map_decimal :
    (decimal number).map (fun unit => Char.ofNat unit.toNat) = Nat.toDigits 10 number := by
  rw [decimal_eq_map, List.map_map]
  conv_rhs => rw [← List.map_id (Nat.toDigits 10 number)]
  apply List.map_congr_left
  intro char member
  have isDigit := Nat.isDigit_of_mem_toDigits (by decide) (by decide) member
  change Char.ofNat (UInt16.ofNat char.toNat).toNat = char
  rw [toNat_ofNat_digit isDigit, Char.ofNat_toNat]

theorem decimal_injective (same : decimal first = decimal second) : first = second := by
  calc
    first = Nat.ofDigitChars 10 (Nat.toDigits 10 first) 0 := Nat.ofDigitChars_ten_toDigits.symm
    _ = Nat.ofDigitChars 10 (Nat.toDigits 10 second) 0 := by
      rw [← map_decimal, same, map_decimal]
    _ = second := Nat.ofDigitChars_ten_toDigits

/-- What stands in front of the first separator, and what behind it. -/
theorem split_separator (firstPlain : separator ∉ first) (secondPlain : separator ∉ second)
    (same : first ++ separator :: firstRest = second ++ separator :: secondRest) :
    first = second ∧ firstRest = secondRest := by
  induction first generalizing second with
  | nil =>
    cases second with
    | nil => exact ⟨rfl, (List.cons.inj same).2⟩
    | cons unit second =>
      exact absurd (List.cons.inj same).1 fun equal =>
        secondPlain (equal ▸ List.mem_cons_self)
  | cons unit first ih =>
    cases second with
    | nil =>
      exact absurd (List.cons.inj same).1 fun equal =>
        firstPlain (equal ▸ List.mem_cons_self)
    | cons other second =>
      obtain ⟨sameUnit, sameRest⟩ := List.cons.inj same
      obtain ⟨sameFirst, sameSecond⟩ := ih
        (fun member => firstPlain (List.mem_cons_of_mem unit member))
        (fun member => secondPlain (List.mem_cons_of_mem other member)) sameRest
      exact ⟨by rw [sameUnit, sameFirst], sameSecond⟩

theorem point_notMem_decimal : 46 ∉ decimal number := by
  intro member
  exact absurd (decimal_bounds member).1 (by decide)

theorem backupCandidate_distinct (basePath : Units) (first second : Nat) (isLater : 0 < first)
    (alsoLater : 0 < second)
    (same : backupCandidate basePath first = backupCandidate basePath second) : first = second := by
  rw [backupCandidate, backupCandidate, if_neg (by omega), if_neg (by omega)] at same
  exact decimal_injective (List.append_cancel_left same)

theorem journalTempPath_distinct (now : Nat → Nat) (first second : Nat) (isLater : 0 < first)
    (alsoLater : 0 < second)
    (same : journalTempPath path pid (now first) first =
      journalTempPath path pid (now second) second) :
    first = second := by
  have isPoint : unitsOf "." = [46] := by decide +kernel
  simp only [journalTempPath, if_neg (Nat.ne_of_gt isLater), if_neg (Nat.ne_of_gt alsoLater),
    isPoint, List.append_assoc, List.append_cancel_left_eq] at same
  obtain ⟨_, behind⟩ := split_separator point_notMem_decimal point_notMem_decimal same
  exact decimal_injective (List.append_cancel_right behind)

theorem directoryPath_append (plain : 47 ∉ suffix) :
    directoryPath (path ++ suffix) = directoryPath path := by
  rw [directoryPath, directoryPath, List.reverse_append, List.dropWhile_append_of_pos]
  intro unit member
  have differs : unit ≠ 47 := by
    rintro rfl
    exact plain (List.mem_reverse.mp member)
  simpa using differs

theorem slash_notMem_decimal : 47 ∉ decimal number := by
  intro member
  exact absurd (decimal_bounds member).1 (by decide)

theorem directoryPath_journalTempPath :
    directoryPath (journalTempPath path pid now attempt) = directoryPath path := by
  have isPoint : (47 : UInt16) ∉ unitsOf "." := by decide +kernel
  have isEnding : (47 : UInt16) ∉ unitsOf ".tmp" := by decide +kernel
  unfold journalTempPath
  split
  all_goals
    simp only [List.append_assoc]
    apply directoryPath_append
    simp [isPoint, isEnding, slash_notMem_decimal]

theorem directoryPath_writeTempPath (plain : 47 ∉ identifier) (path : Units) :
    directoryPath (writeTempPath path identifier) = directoryPath path := by
  have isPoint : (47 : UInt16) ∉ unitsOf "." := by decide +kernel
  have isEnding : (47 : UInt16) ∉ unitsOf ".tmp" := by decide +kernel
  unfold writeTempPath
  simp only [List.append_assoc]
  apply directoryPath_append
  simp [isPoint, isEnding, plain]

/-- What is known of the files. -/
abbrev Files := Units → Option Content

def Files.set (files : Files) (path : Units) (content : Option Content) : Files :=
  fun other => if other = path then content else files other

theorem Files.set_self (files : Files) :
    files.set path content path = content := by
  simp [Files.set]

theorem Files.set_of_ne (differs : other ≠ path) (files : Files) :
    files.set path content other = files other := by
  simp [Files.set, differs]

/-- A disk has the files that are known, at the watched paths. -/
def Disk.Agrees (disk : Disk) (watched : Units → Prop) (files : Files) : Prop :=
  ∀ path, watched path → mapGet disk path = files path

section

section

variable (agrees : disk.Agrees watched files)
include agrees

theorem Disk.Agrees.exists_eq (isWatched : watched path) :
    disk.exists path = (files path).isSome := by
  rw [Disk.exists, agrees path isWatched]

theorem Disk.Agrees.mapSet (path : Units) (content : Content) :
    Disk.Agrees (mapSet disk path content) watched (files.set path (some content)) := by
  intro other isWatched
  rw [mapGet_mapSet, Files.set]
  split
  · rfl
  · exact agrees other isWatched

theorem Disk.Agrees.mapDelete (path : Units) :
    Disk.Agrees (mapDelete disk path) watched (files.set path none) := by
  intro other isWatched
  rw [mapGet_mapDelete, Files.set]
  split
  · rfl
  · exact agrees other isWatched

end

/-- A change at a path that is not watched. -/
theorem Disk.Agrees.of_unwatched (agrees : disk.Agrees watched (files.set path content))
    (unwatched : ¬ watched path) : disk.Agrees watched files := by
  intro other isWatched
  have differs : other ≠ path := by
    rintro rfl
    exact unwatched isWatched
  rw [agrees other isWatched, Files.set_of_ne differs]

end

/-- The machine's disk has the files that are known. -/
def Knows (watched : Units → Prop) (files : Files) (machine : Machine) : Prop :=
  machine.disk.Agrees watched files

/-- Creating a file that is not watched. -/
theorem meets_createFirstFree
    (distinct : ∀ first second, 0 < first → 0 < second → names first = names second →
      first = second)
    (unwatched : ∀ attempt, ¬ watched (names attempt))
    (passes : ∀ machine, Knows watched files machine → during machine) :
    Program.Meets (Knows watched files) (createFirstFree names content) during
      (fun attempt machine => Knows watched files machine ∧
        mapGet machine.disk (names attempt) = some content) := by
  refine Program.Meets.bind
    (fun attempt machine => Knows watched files machine ∧
      machine.disk.exists (names attempt) = false) ?_ fun attempt => ?_
  · refine Program.Meets.view fun machine knows => ?_
    obtain ⟨attempt, found⟩ := exists_firstFree machine.disk distinct
    exact ⟨attempt, by simp only [found], knows, firstFree_eq_some found⟩
  · refine Program.Meets.bind (fun _ machine => Knows watched files machine ∧
        mapGet machine.disk (names attempt) = some content) ?_ fun _ =>
      Program.Meets.finish fun machine both => both
    refine Program.Meets.alter fun machine ⟨knows, free⟩ => ?_
    have written : Disk.writeFileExclusive (names attempt) content machine.disk =
        .ok (mapSet machine.disk (names attempt) content) := by
      rw [Disk.writeFileExclusive, free]
      rfl
    have still : Knows watched files
        { machine with disk := mapSet machine.disk (names attempt) content } :=
      (knows.mapSet (names attempt) content).of_unwatched (unwatched attempt)
    refine ⟨_, by rw [written]; rfl, passes _ still, still, ?_⟩
    simp [mapGet_mapSet]

/-- Renaming a file that is not watched onto one that may be. -/
theorem meets_renameSync (unwatched : ¬ watched oldPath)
    (sameDirectory : directoryPath oldPath = directoryPath newPath)
    (passes : ∀ machine, Knows watched (files.set newPath (some content)) machine →
      during machine) :
    Program.Meets
      (fun machine => Knows watched files machine ∧ mapGet machine.disk oldPath = some content)
      (renameSync device oldPath newPath) during
      (fun _ => Knows watched (files.set newPath (some content))) := by
  refine Program.Meets.alter fun machine ⟨knows, present⟩ => ?_
  have renamed : Disk.rename device oldPath newPath machine.disk =
      .ok (mapSet (mapDelete machine.disk oldPath) newPath content) := by
    rw [Disk.rename, present]
    simp [sameDirectory]
  have after : Knows watched (files.set newPath (some content))
      { machine with disk := mapSet (mapDelete machine.disk oldPath) newPath content } :=
    Disk.Agrees.mapSet ((knows.mapDelete oldPath).of_unwatched unwatched) newPath content
  exact ⟨_, by rw [renamed]; rfl, passes _ after, after⟩

/-- The names of a run's temporary journals and copies are not watched, and what it knows
of its temporary targets is that there is none yet. -/
structure Surroundings.Apart (surroundings : Surroundings) (watched : Units → Prop) (files : Files)
    (homeDir targetPath : Units) : Prop where
  journalTemp : ∀ draw attempt, ¬ watched (journalTempPath (migrationJournalPath homeDir)
    surroundings.pid (surroundings.now draw) attempt)
  backup : ∀ draw attempt, ¬ watched (backupCandidate
    (targetPath ++ unitsOf ".bak." ++ surroundings.backupSuffix draw) attempt)
  writeTemp : ∀ draw, watched (writeTempPath targetPath (surroundings.randomUUID draw))
  absent : ∀ draw, files (writeTempPath targetPath (surroundings.randomUUID draw)) = none

theorem meets_draw (count : Nat) :
    Program.Meets (Knows watched files) (draw count) during (fun _ => Knows watched files) :=
  Program.Meets.note fun _ knows => knows

/-- A write of the journal. -/
theorem meets_writeMigrationJournal (apart : surroundings.Apart watched files homeDir targetPath)
    (device : Units → Nat) (journal : MigrationJournal)
    (stays : ∀ machine, Knows watched files machine → during machine)
    (passes : ∀ machine,
      Knows watched (files.set (migrationJournalPath homeDir) (some journal.content)) machine →
        during machine) :
    Program.Meets (Knows watched files)
      (writeMigrationJournal device homeDir surroundings journal) during
      (fun _ =>
        Knows watched (files.set (migrationJournalPath homeDir) (some journal.content))) := by
  refine Program.Meets.bind (fun _ => Knows watched files)
    (Program.Meets.view fun machine knows => ⟨machine.draws, rfl, knows⟩) fun draws => ?_
  refine Program.Meets.bind _
    (meets_createFirstFree (journalTempPath_distinct fun attempt =>
        surroundings.now (draws + attempt))
      (fun attempt => apart.journalTemp (draws + attempt) attempt) stays)
    fun attempt => ?_
  refine Program.Meets.bind (fun _ machine => Knows watched files machine ∧
      mapGet machine.disk (journalTempPath (migrationJournalPath homeDir) surroundings.pid
        (surroundings.now (draws + attempt)) attempt) = some journal.content)
    (Program.Meets.note fun _ both => both) fun _ => ?_
  exact meets_renameSync (apart.journalTemp (draws + attempt) attempt)
    directoryPath_journalTempPath passes

/-- The removal of the journal. -/
theorem meets_removeMigrationJournal (isWatched : watched (migrationJournalPath homeDir))
    (present : (files (migrationJournalPath homeDir)).isSome)
    (passes : ∀ machine,
      Knows watched (files.set (migrationJournalPath homeDir) none) machine → during machine) :
    Program.Meets (Knows watched files) (removeMigrationJournal homeDir) during
      (fun _ => Knows watched (files.set (migrationJournalPath homeDir) none)) := by
  refine Program.Meets.bind
    (fun found machine => found = true ∧ Knows watched files machine) ?_
    fun found => ?_
  · refine Program.Meets.view fun machine knows => ?_
    exact ⟨_, rfl, by rw [Disk.Agrees.exists_eq knows isWatched, present], knows⟩
  · intro machine ⟨isFound, knows⟩
    subst isFound
    refine Program.Meets.alter (fun machine knows => ?_) machine knows
    have exists_ : machine.disk.exists (migrationJournalPath homeDir) = true := by
      rw [Disk.Agrees.exists_eq knows isWatched, present]
    have after : Knows watched (files.set (migrationJournalPath homeDir) none)
        { machine with disk := mapDelete machine.disk (migrationJournalPath homeDir) } :=
      Disk.Agrees.mapDelete knows _
    refine ⟨_, ?_, passes _ after, after⟩
    rw [Disk.unlink, exists_]
    rfl

/-- The copy of the target that is kept. -/
theorem meets_writeBackup (apart : surroundings.Apart watched files homeDir targetPath)
    (stays : ∀ machine, Knows watched files machine → during machine) :
    Program.Meets (Knows watched files) (writeBackup targetPath surroundings content) during
      (fun _ => Knows watched files) := by
  refine Program.Meets.bind (fun _ => Knows watched files)
    (Program.Meets.view fun machine knows => ⟨machine.draws, rfl, knows⟩) fun draws => ?_
  refine Program.Meets.bind (fun _ => Knows watched files) (meets_draw 1) fun _ => ?_
  refine Program.Meets.bind _
    (meets_createFirstFree (backupCandidate_distinct _)
      (fun attempt => apart.backup draws attempt) stays) fun _ => ?_
  exact Program.Meets.finish fun machine both => both.1

/-- The new target. -/
theorem meets_writeAtomically (apart : surroundings.Apart watched files homeDir targetPath)
    (device : Units → Nat) (content : Content)
    (hides : ∀ draw machine, Knows watched (files.set
      (writeTempPath targetPath (surroundings.randomUUID draw)) (some content)) machine →
        during machine)
    (passes : ∀ machine, Knows watched (files.set targetPath (some content)) machine →
      during machine) :
    Program.Meets (Knows watched files)
      (writeAtomically device targetPath surroundings content) during
      (fun _ => Knows watched (files.set targetPath (some content))) := by
  refine Program.Meets.bind (fun _ => Knows watched files)
    (Program.Meets.view fun machine knows => ⟨machine.draws, rfl, knows⟩) fun draws => ?_
  refine Program.Meets.bind (fun _ => Knows watched files) (meets_draw 1) fun _ => ?_
  have isWatched := apart.writeTemp draws
  have isAbsent := apart.absent draws
  have sameDirectory := directoryPath_writeTempPath (surroundings.plainUUID draws) targetPath
  have hidden := hides draws
  generalize writeTempPath targetPath (surroundings.randomUUID draws) = tempPath at *
  refine Program.Meets.bind
    (fun _ => Knows watched (files.set tempPath (some content))) ?_ fun _ => ?_
  · refine Program.Meets.recover_of_ok (Program.Meets.alter fun machine knows => ?_)
    have free : machine.disk.exists tempPath = false := by
      rw [Disk.Agrees.exists_eq knows isWatched, isAbsent]
      rfl
    have after : Knows watched (files.set tempPath (some content))
        { machine with disk := mapSet machine.disk tempPath content } :=
      Disk.Agrees.mapSet knows tempPath content
    refine ⟨_, ?_, hidden _ after, after⟩
    rw [Disk.writeFileExclusive, free]
    rfl
  · refine Program.Meets.recover_of_ok (Program.Meets.alter fun machine knows => ?_)
    have present : mapGet machine.disk tempPath = some content := by
      rw [knows tempPath isWatched, Files.set_self]
    have after : Knows watched (files.set targetPath (some content))
        { machine with disk := mapSet (mapDelete machine.disk tempPath) targetPath content } := by
      have renamed := Disk.Agrees.mapSet (Disk.Agrees.mapDelete knows tempPath) targetPath content
      intro other otherWatched
      rw [renamed other otherWatched]
      by_cases isTarget : other = targetPath
      · rw [isTarget, Files.set_self, Files.set_self]
      · rw [Files.set_of_ne isTarget, Files.set_of_ne isTarget]
        by_cases isTemp : other = tempPath
        · rw [isTemp, Files.set_self, isAbsent]
        · rw [Files.set_of_ne isTemp, Files.set_of_ne isTemp]
    refine ⟨_, ?_, passes _ after, after⟩
    simp only [Disk.rename, present, sameDirectory]
    rfl

/-- What the writer starts from depends on the target alone. -/
theorem Host.currentContent_congr (same : mapGet disk path = mapGet other path) (host : Host) :
    host.currentContent scope path disk = host.currentContent scope path other := by
  unfold Host.currentContent Disk.exists
  rw [same]

theorem meets_writePreparedTarget {host : Host}
    (apart : surroundings.Apart watched files host.homeDir targetPath)
    (isScope : writerInput host.homeDir targetPath = .ok scope)
    (reads : ∀ disk : Disk, disk.Agrees watched files →
      host.currentContent scope targetPath disk = .ok content)
    (edited : host.applyEdits content edits = .ok next)
    (stays : ∀ machine, Knows watched files machine → during machine)
    (hides : ∀ draw machine, Knows watched (files.set
      (writeTempPath targetPath (surroundings.randomUUID draw)) (some next)) machine →
        during machine)
    (passes : ∀ machine, Knows watched (files.set targetPath (some next)) machine →
      during machine) :
    Program.Meets (Knows watched files)
      (host.writePreparedTarget surroundings edits targetPath) during
      (fun _ => Knows watched (files.set targetPath (some next))) := by
  refine Program.Meets.bind_view scope (fun _ _ => isScope) ?_
  refine Program.Meets.bind (fun _ => Knows watched files)
    (Program.Meets.view fun machine knows => ⟨_, rfl, knows⟩) fun existed => ?_
  refine Program.Meets.bind_view content (fun machine knows => reads machine.disk knows) ?_
  refine Program.Meets.bind (fun _ => Knows watched files) ?_ fun _ => ?_
  · cases existed with
    | false => exact Program.Meets.finish fun machine knows => knows
    | true => exact meets_writeBackup apart stays
  · exact Program.Meets.bind_view next (fun _ _ => edited)
      (meets_writeAtomically apart host.device next hides passes)

end OpenAgent.Config
