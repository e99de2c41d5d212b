import OpenAgent.Config.CrashRecovery

/-!
# Crashes survived

A history is a list of runs that crash, each at a write of its own, one after the other.
Behind every history in which no crash strikes between the copy and the removal of a source,
the next run succeeds and ends with the files of the run that was not interrupted.
-/

namespace OpenAgent.Config

open Library

/-- The moves that a plan comes to on a disk. -/
def Host.plannedMoves (host : Host) (plan : MigrationPlan) (disk : Disk) :
    List MigrationBackupMove :=
  match host.planMigration plan disk with
  | .ok (some planned) => planned.journal.backupMoves
  | _ => []

theorem reading_eq (read : Disk → Except Failure α) :
    reading read machine = ⟨[], machine, read machine.disk⟩ := rfl

section

variable {host : Host} {surroundings : Surroundings}

/-- What is known of the files before the plan is looked at. -/
theorem apart_of_start (clear : surroundings.Clear host.homeDir plan start) :
    ∃ files : Files, surroundings.Apart (surroundings.Sees host.homeDir plan) files host.homeDir
        plan.targetPath ∧
      Knows (surroundings.Sees host.homeDir plan) files ⟨start, 0⟩ ∧
        files plan.targetPath = mapGet start plan.targetPath := by
  refine ⟨fun path => mapGet start path, ?_, fun _ _ => rfl, rfl⟩
  refine
    { journalTemp := clear.journalTemp, backup := clear.backup
      writeTemp := fun draw => .inr ⟨draw, rfl⟩, absent := fun draw => ?_ }
  have fresh := clear.fresh draw
  rw [Disk.exists] at fresh
  simpa using fresh

/-- A recovery without a journal has nothing to do. -/
theorem resume_of_noJournal (noJournal : mapGet start (migrationJournalPath host.homeDir) = none) :
    resumeMigrationJournal host surroundings ⟨start, 0⟩ = ⟨[], ⟨start, 0⟩, .ok false⟩ := by
  have read : (reading (readMigrationJournal host.homeDir) ⟨start, 0⟩).result = .ok none := by
    rw [reading_eq, readMigrationJournal, noJournal]
  unfold resumeMigrationJournal
  rw [Program.bind_of_ok read]
  rfl

/-- What a target that was written came from. -/
theorem edited_of_writePreparedTarget
    (written : (host.writePreparedTarget surroundings edits targetPath machine).result = .ok ()) :
    ∃ scope content next, writerInput host.homeDir targetPath = .ok scope ∧
      host.currentContent scope targetPath machine.disk = .ok content ∧
        host.applyEdits content edits = .ok next := by
  obtain ⟨scope, isScope, written⟩ := Program.result_bind_eq_ok.mp written
  obtain ⟨existed, _, written⟩ := Program.result_bind_eq_ok.mp written
  obtain ⟨content, isContent, written⟩ := Program.result_bind_eq_ok.mp written
  obtain ⟨_, _, written⟩ := Program.result_bind_eq_ok.mp written
  obtain ⟨next, isNext, _⟩ := Program.result_bind_eq_ok.mp written
  exact ⟨scope, content, next, isScope, isContent, isNext⟩

/-- A run that is not interrupted and migrates carries out a migration. -/
theorem exists_migration (clear : surroundings.Clear host.homeDir plan start)
    (noJournal : mapGet start (migrationJournalPath host.homeDir) = none)
    (migrates : (runMigrations host surroundings false [plan] ⟨start, 0⟩).result = .ok result)
    (isMigrated : result.results.map (·.status) = [.migrated]) :
    ∃ migration : Migration host plan start, migration.moves = host.plannedMoves plan start := by
  obtain ⟨resumed, isResumed, migrates⟩ := Program.result_bind_eq_ok.mp migrates
  rw [resume_of_noJournal noJournal] at isResumed migrates
  cases isResumed
  obtain ⟨results, areResults, ended⟩ := Program.result_bind_eq_ok.mp migrates
  cases ended
  obtain ⟨single, isSingle, ended⟩ := Program.result_bind_eq_ok.mp
    (show ((executePlan host surroundings false false plan >>= fun result => pure [result])
      ⟨start, 0⟩).result = .ok results from areResults)
  cases ended
  obtain ⟨found, isPlanned, isSingle⟩ := Program.result_bind_eq_ok.mp isSingle
  rw [reading_eq] at isPlanned isSingle
  cases found with
  | none =>
    cases isSingle
    cases isMigrated
  | some planned =>
    obtain ⟨_, executed, _⟩ := Program.result_bind_eq_ok.mp isSingle
    obtain ⟨_, _, executed⟩ := Program.result_bind_eq_ok.mp executed
    obtain ⟨_, written, _⟩ := Program.result_bind_eq_ok.mp executed
    have isPlanned : host.planMigration plan start = .ok (some planned) := isPlanned
    have sound := sound_of_planMigration isPlanned
    rw [sound.targetPath] at written
    obtain ⟨scope, content, next, isScope, reads, edited⟩ :=
      edited_of_writePreparedTarget written
    obtain ⟨files, apart, knows, isTarget⟩ := apart_of_start clear
    have meets : Program.Meets _ _ (fun _ => True) _ :=
      meets_writeMigrationJournal apart host.device planned.journal (fun _ _ => trivial)
        fun _ _ => trivial
    obtain ⟨_, _, _, after⟩ := meets _ knows
    have same : mapGet (writeMigrationJournal host.device host.homeDir surroundings
        planned.journal ⟨start, 0⟩).final.disk plan.targetPath = mapGet start plan.targetPath := by
      rw [after _ (.inl (.inl rfl)), Files.set_of_ne (targetPath_ne_of_writerInput isScope),
        isTarget]
    rw [Host.currentContent_congr same] at reads
    refine ⟨{ planned, scope, content, next, isPlanned, noJournal, isScope, reads, edited }, ?_⟩
    rw [Host.plannedMoves, isPlanned]
    rfl

end

section

variable (host : Host)

/-- One run that crashes, at one of its writes. -/
def crashStep (plan : MigrationPlan) (disk : Disk) (crash : Surroundings × Nat) : Option Disk :=
  ((runMigrations host crash.1 false [plan]).crashes ⟨disk, 0⟩)[crash.2]?.map Machine.disk

/-- The scratch files of the run are clear of the plan's, and its crash leaves no source in
both places. -/
def Survivable (plan : MigrationPlan) (moves : List MigrationBackupMove) (before : Disk)
    (crash : Surroundings × Nat) (after : Disk) : Prop :=
  crash.1.Clear host.homeDir plan before ∧
    ∀ move ∈ moves, ¬ (after.exists move.fromPath = true ∧ after.exists move.toPath = true)

/-- The files as the uninterrupted run leaves them: the target is its target and names the
migration once, every source is at its backup as it was, and the journal is gone. -/
structure Recovered (plan : MigrationPlan) (start intact final : Disk) : Prop where
  target : ∃ content document, mapGet final plan.targetPath = some content ∧
    mapGet intact plan.targetPath = some content ∧
      host.parseDocument plan.targetPath content = .ok document ∧
        markerCount document plan.id = 1
  moved : ∀ move ∈ host.plannedMoves plan start,
    mapGet final move.toPath = mapGet start move.fromPath ∧ mapGet final move.fromPath = none
  noJournal : mapGet final (migrationJournalPath host.homeDir) = none
  sameFiles : plan.SameFiles host.homeDir final intact

/-- The content of every source is in one of its places. -/
def NothingLost (plan : MigrationPlan) (start disk : Disk) : Prop :=
  ∀ move ∈ host.plannedMoves plan start, mapGet disk move.fromPath = mapGet start move.fromPath ∨
      mapGet disk move.toPath = mapGet start move.fromPath

end

namespace Migration

variable
  {migration : Migration host plan start}

/-- A run knows of the files of the plan and of its own that are not there yet. -/
theorem knows_of_standsAt {surroundings : Surroundings}
    (clear : surroundings.Clear host.homeDir plan disk) (reaches : migration.Reaches stage)
    (stands : migration.StandsAt stage disk) :
    Knows (surroundings.Sees host.homeDir plan) (migration.filesAt stage) ⟨disk, 0⟩ := by
  rintro path (isWatched | ⟨draw, rfl⟩)
  · exact stands path isWatched
  · have fresh := clear.fresh draw
    rw [Disk.exists] at fresh
    rw [at_of_unwatched (clear.writeTemp draw) reaches]
    simpa using fresh

/-- A source that was moved is at its backup, and one that was not is where it was. -/
theorem files_kept (split : migration.moves = moved ++ rest) (isMove : move ∈ migration.moves) :
    (move ∈ moved ∧ migration.files journal target moved move.toPath = mapGet start move.fromPath) ∨
    (move ∈ rest ∧
      migration.files journal target moved move.fromPath = mapGet start move.fromPath) := by
  obtain ⟨⟨fromTarget, toTarget⟩, fromJournal, toJournal⟩ := migration.move_apart isMove
  have isBase := migration.base_of_watches (migration.watches_from isMove)
  have distinct := migration.distinct
  have side := isMove
  rw [split, List.mem_append] at side
  rcases side with isMoved | isLeft
  · left
    rw [split] at distinct
    rw [migration.files_of_ne toTarget toJournal,
      (Files.moveAll_of_mem distinct.front isMoved migration.base).1, isBase]
    exact ⟨isMoved, rfl⟩
  · right
    have uniqueFrom := distinct.sources
    rw [split, List.map_append, List.nodup_append] at uniqueFrom
    have inMoves : ∀ other ∈ moved, other ∈ migration.moves := by
      intro other member
      rw [split]
      exact List.mem_append_left rest member
    have notFrom : ∀ other ∈ moved, move.fromPath ≠ other.fromPath := fun other member same =>
      uniqueFrom.2.2 _ (List.mem_map_of_mem member) _ (List.mem_map_of_mem isLeft) same.symm
    have notTo : ∀ other ∈ moved, move.fromPath ≠ other.toPath := fun other member same =>
      distinct.apart other (inMoves other member) move isMove same.symm
    rw [migration.files_of_ne fromTarget fromJournal, Files.moveAll_of_notMem notFrom notTo, isBase]
    exact ⟨isLeft, rfl⟩

/-- At every stage nothing is lost. -/
theorem nothingLost_of_standsAt (isPlanned : migration.moves = host.plannedMoves plan start)
    (reaches : migration.Reaches stage) (stands : migration.StandsAt stage disk) :
    NothingLost host plan start disk := by
  intro move member
  rw [← isPlanned] at member
  rw [stands _ (migration.watches_from member), stands _ (migration.watches_to member)]
  have kept : ∀ moved rest journal target, migration.moves = moved ++ rest →
      migration.files journal target moved move.fromPath = mapGet start move.fromPath ∨
        migration.files journal target moved move.toPath = mapGet start move.fromPath := by
    intro moved rest journal target split
    rcases files_kept split member with ⟨_, atTo⟩ | ⟨_, atFrom⟩
    · exact .inr atTo
    · exact .inl atFrom
  cases stage with
  | untouched | journaled | written => exact kept [] _ _ _ (List.nil_append _).symm
  | recorded front =>
    obtain ⟨rest, split⟩ := reaches
    exact kept front rest _ _ split
  | moved front last =>
    obtain ⟨rest, split⟩ := reaches
    exact kept _ rest _ _ (by rw [split]; simp)
  | copied front last =>
    obtain ⟨rest, split⟩ := reaches
    have isLast : last ∈ migration.moves := by simp [split]
    have notTo : move.fromPath ≠ last.toPath :=
      (migration.distinct.apart last isLast move member).symm
    rw [filesAt]
    rcases files_kept split member with ⟨isMoved, atTo⟩ | ⟨_, atFrom⟩
    · have differs : move.toPath ≠ last.toPath := by
        have unique := migration.distinct.destinations
        rw [split, List.map_append, List.nodup_append] at unique
        exact unique.2.2 _ (List.mem_map_of_mem isMoved) _ List.mem_cons_self
      right
      rw [Files.set_of_ne differs, atTo]
    · left
      rw [Files.set_of_ne notTo, atFrom]
  | finished => exact kept _ [] _ _ (List.append_nil _).symm

/-- Where a source was copied and not removed it is in both places. -/
theorem both_of_copied (reaches : migration.Reaches (.copied front move))
    (stands : migration.StandsAt (.copied front move) disk) :
    disk.exists move.fromPath = true ∧ disk.exists move.toPath = true := by
  obtain ⟨rest, split⟩ := reaches
  have isMove : move ∈ migration.moves := by simp [split]
  have differs : move.fromPath ≠ move.toPath :=
    (migration.distinct.apart move isMove move isMove).symm
  obtain ⟨⟨content, atFrom, isContent⟩, _⟩ := migration.files_next split
    (some (migration.recordedJournal front).content) (some migration.next)
  rw [Disk.exists, Disk.exists, stands _ (migration.watches_from isMove),
    stands _ (migration.watches_to isMove), filesAt, Files.set_of_ne differs, Files.set_self, atFrom,
    isContent]
  exact ⟨rfl, rfl⟩

section

variable (migration : Migration host plan start)

theorem standsAt_start : migration.StandsAt .untouched start := by
  intro path isWatched
  rw [filesAt]
  by_cases isJournal : path = migrationJournalPath host.homeDir
  · rw [filesAt_journalPath isJournal, isJournal, migration.noJournal]
  · by_cases isTarget : path = plan.targetPath
    · rw [isTarget, files_targetPath]
    · rw [migration.files_of_ne isTarget isJournal]
      exact (migration.base_of_watches isWatched).symm

/-- A disk at a stage at which no source was copied and not removed. -/
def WholeAt (disk : Disk) : Prop :=
  ∃ stage, migration.Reaches stage ∧ (∀ front move, stage ≠ .copied front move) ∧
    migration.StandsAt stage disk

end

/-- A crash that leaves no source in both places leaves another stage. -/
theorem wholeAt_of_crash
    (marked : ∃ document, host.parseDocument plan.targetPath migration.next = .ok document ∧
      markerCount document plan.id = 1)
    (stood : migration.WholeAt before)
    (survivable : Survivable host plan migration.moves before crash after)
    (crashed : crashStep host plan before crash = some after) : migration.WholeAt after := by
  obtain ⟨stage, reaches, whole, stands⟩ := stood
  obtain ⟨clear, notBoth⟩ := survivable
  obtain ⟨passes, _⟩ := meets_runMigrations clear marked reaches whole _
    (knows_of_standsAt clear reaches stands)
  rw [crashStep, Option.map_eq_some_iff] at crashed
  obtain ⟨machine, isCrash, rfl⟩ := crashed
  rcases List.mem_cons.mp (List.mem_of_getElem? isCrash) with rfl | isPassed
  · exact ⟨stage, reaches, whole, stands⟩
  · obtain ⟨next, reachesNext, standsNext⟩ := passes machine isPassed
    refine ⟨next, reachesNext, ?_, standsNext⟩
    rintro front move rfl
    obtain ⟨rest, split⟩ := id reachesNext
    exact notBoth move (by simp [split]) (both_of_copied reachesNext standsNext)

/-- The last stage is what the uninterrupted run leaves. -/
theorem recovered_of_finished (isPlanned : migration.moves = host.plannedMoves plan start)
    (marked : ∃ document, host.parseDocument plan.targetPath migration.next = .ok document ∧
      markerCount document plan.id = 1)
    (intactStands : migration.StandsAt .finished intact)
    (stands : migration.StandsAt .finished final) : Recovered host plan start intact final := by
  obtain ⟨document, isDocument, once⟩ := marked
  refine ⟨⟨migration.next, document, ?_, ?_, isDocument, once⟩, ?_, ?_, ?_⟩
  · rw [stands _ (.inl rfl)]
    exact files_targetPath _ _ _
  · rw [intactStands _ (.inl rfl)]
    exact files_targetPath _ _ _
  · intro move member
    rw [← isPlanned] at member
    obtain ⟨⟨fromTarget, toTarget⟩, fromJournal, toJournal⟩ := migration.move_apart member
    obtain ⟨atTo, atFrom⟩ :=
      Files.moveAll_of_mem migration.distinct member migration.base
    rw [stands _ (migration.watches_to member), stands _ (migration.watches_from member), filesAt,
      migration.files_of_ne toTarget toJournal, migration.files_of_ne fromTarget fromJournal,
      atTo, atFrom, migration.base_of_watches (migration.watches_from member)]
    exact ⟨rfl, rfl⟩
  · rw [stands _ (.inr (.inl rfl))]
    exact filesAt_journalPath rfl _ _ _
  · intro path isWatched
    rw [stands path isWatched, intactStands path isWatched]

end Migration

/-- A migration survives every history of crashes none of which strikes between the copy and
the removal of a source: at no point is a source lost, and the next run succeeds and ends
with the files of the run that was not interrupted. -/
theorem survives_crashes {host : Host} {plan : MigrationPlan} {start : Disk}
    {namesOnce : Content → Prop} (lawful : host.jsonc.Lawful namesOnce)
    (once : ∀ content, mapGet start plan.targetPath = some content → namesOnce content)
    (noJournal : mapGet start (migrationJournalPath host.homeDir) = none) {first : Surroundings}
    (firstClear : first.Clear host.homeDir plan start) {result : MigrationBatchRunResult}
    (migrates : (runMigrations host first false [plan] ⟨start, 0⟩).result = .ok result)
    (isMigrated : result.results.map (·.status) = [.migrated]) {crashes : List (Surroundings × Nat)}
    {disk : Disk} (reached : execute (crashStep host plan) start crashes = some disk)
    (everyCrash : EveryStep (crashStep host plan)
      (Survivable host plan (host.plannedMoves plan start)) start crashes)
    {last : Surroundings}
    (lastClear : last.Clear host.homeDir plan disk) :
    (∃ ended, (runMigrations host last false [plan] ⟨disk, 0⟩).result = .ok ended) ∧
      Recovered host plan start (runMigrations host first false [plan] ⟨start, 0⟩).final.disk
        (runMigrations host last false [plan] ⟨disk, 0⟩).final.disk ∧
      ∀ machine ∈ (runMigrations host last false [plan]).crashes ⟨disk, 0⟩,
        NothingLost host plan start machine.disk := by
  obtain ⟨migration, isPlanned⟩ := exists_migration firstClear noJournal migrates isMigrated
  have marked := migration.reads_marked lawful once
  have finishes : ∀ {surroundings : Surroundings} {disk : Disk} (stage : Stage),
      surroundings.Clear host.homeDir plan disk → migration.Reaches stage →
      (∀ front move, stage ≠ .copied front move) → migration.StandsAt stage disk →
        (∀ passed ∈ (runMigrations host surroundings false [plan] ⟨disk, 0⟩).passed,
          migration.Passing passed) ∧
        (∃ ended, (runMigrations host surroundings false [plan] ⟨disk, 0⟩).result = .ok ended) ∧
        migration.StandsAt .finished
          (runMigrations host surroundings false [plan] ⟨disk, 0⟩).final.disk := by
    intro surroundings disk stage clear reaches whole stands
    obtain ⟨passes, ended, isEnded, knows⟩ :=
      Migration.meets_runMigrations clear marked reaches whole _
        (Migration.knows_of_standsAt clear reaches stands)
    exact ⟨passes, ⟨ended, isEnded⟩, fun path isWatched => knows path (.inl isWatched)⟩
  have begins : migration.WholeAt start :=
    ⟨.untouched, trivial, fun _ _ => nofun, migration.standsAt_start⟩
  have stood : migration.WholeAt disk := by
    rw [← isPlanned] at everyCrash
    have preserved : ∀ before crash after, migration.WholeAt before →
        Survivable host plan migration.moves before crash after →
          crashStep host plan before crash = some after → migration.WholeAt after :=
      fun before crash after stood survivable crashed =>
        Migration.wholeAt_of_crash marked stood survivable crashed
    exact invariant_of_execute preserved begins reached everyCrash
  obtain ⟨stage, reaches, whole, stands⟩ := stood
  obtain ⟨_, _, intactStands⟩ := finishes .untouched firstClear trivial
    (fun _ _ => nofun) migration.standsAt_start
  obtain ⟨passes, ended, finalStands⟩ := finishes stage lastClear reaches whole stands
  refine ⟨ended, Migration.recovered_of_finished isPlanned marked intactStands finalStands, ?_⟩
  intro machine isCrash
  rcases List.mem_cons.mp isCrash with rfl | isPassed
  · exact Migration.nothingLost_of_standsAt isPlanned reaches stands
  · obtain ⟨passed, reachesPassed, standsPassed⟩ := passes machine isPassed
    exact Migration.nothingLost_of_standsAt isPlanned reachesPassed standsPassed

/-- A new target with the marker of the sample plan. -/
def sampleTarget : Content :=
  "// OMO configuration\n\x7b\n  \"_migrations\": [\n    \"m\"\n  ]\n\x7d\n".toList

/-- The library at the texts of the sample. -/
def sampleJsonc : JsoncLibrary where
  parse content :=
    if content = "\x7b\x7d".toList ∨ content = emptyOmoConfig then ([], some (.object []))
    else if content = sampleTarget then
      ([], some (.object [(unitsOf "_migrations", .array [.string (unitsOf "m")])]))
    else ([{ message := unitsOf "InvalidSymbol", offset := 0 }], none)
  modify content path value :=
    match value with
    | some (.array [.string marker]) =>
      if content = emptyOmoConfig ∧ path = [unitsOf "_migrations"] ∧ marker = unitsOf "m" then
        .ok sampleTarget
      else .error (unitsOf "Error")
    | _ => .error (unitsOf "Error")

def sampleHost : Host where
  homeDir := unitsOf "/h"
  device directory := if directory = unitsOf "/m/" then 1 else 0
  symbolicLink _ := false
  jsonc := sampleJsonc
  omoConfigIssues _ := []

/-- One source, with its backup on another device. -/
def samplePlan : MigrationPlan where
  id := unitsOf "m"
  replaceTarget := false
  sources := [{ backupPath := some (unitsOf "/b/a"), path := unitsOf "/m/a" }]
  targetPath := unitsOf "/h/.omo/omo.json"
  transform _ := .ok (.object [])

def sampleDisk : Disk :=
  [(unitsOf "/m/a", "\x7b\x7d".toList)]

def sampleSurroundings (pid : Nat) : Surroundings where
  pid := pid
  now _ := 5
  randomUUID _ := unitsOf "u" ++ decimal pid
  backupSuffix _ := unitsOf "d"
  plainUUID _ := by
    have isPlain : (47 : UInt16) ∉ unitsOf "u" := by decide +kernel
    simp [isPlain, slash_notMem_decimal]
  plainSuffix _ := by decide +kernel

/-- A crash between the copy and the removal of the source is not survived: the uninterrupted
run migrates, the crash leaves the source in both places, and the next run fails. -/
theorem not_survives_copied :
    ((runMigrations sampleHost (sampleSurroundings 1) false [samplePlan] ⟨sampleDisk, 0⟩).result =
      .ok { journalResumed := false
            results := [{ diagnostics := [], journalResumed := false, status := .migrated }] }) ∧
    (crashStep sampleHost samplePlan sampleDisk (sampleSurroundings 1, 7)).map (fun disk =>
        (disk.exists (unitsOf "/m/a") && disk.exists (unitsOf "/b/a"),
          (runMigrations sampleHost (sampleSurroundings 2) false [samplePlan] ⟨disk, 0⟩).result)) =
      some (true, .error (backupExists (unitsOf "/b/a"))) := by
  decide +kernel

theorem lawful_sampleJsonc :
    sampleJsonc.Lawful fun content => content = emptyOmoConfig ∨ content = sampleTarget where
  parse_empty := by simp [sampleJsonc]
  namesOnce_empty := .inl rfl
  modify_sets := by
    intro content members path value next _ _ _ modified
    have notEmpty : ¬ (stripBom sampleTarget = "\x7b\x7d".toList ∨
        stripBom sampleTarget = emptyOmoConfig) := by decide +kernel
    have isTarget : stripBom sampleTarget = sampleTarget := by decide +kernel
    simp only [sampleJsonc] at modified ⊢
    split at modified
    · next marker =>
        split at modified
        · next applies =>
            cases modified
            obtain ⟨_, rfl, rfl⟩ := applies
            refine ⟨.inr rfl, [(unitsOf "_migrations", .array [.string (unitsOf "m")])], ?_, ?_⟩
            · rw [if_neg notEmpty, if_pos isTarget]
            · rintro key set isKey _ isSet
              cases isKey
              cases isSet
              simp [mapGet]
        · cases modified
    · cases modified

theorem append_ne (count : Nat) (firstLong : count ≤ first.length)
    (secondLong : count ≤ second.length) (differs : first.take count ≠ second.take count)
    (secondRest : Units) : first ++ firstRest ≠ second ++ secondRest := by
  intro same
  apply differs
  rw [← List.take_append_of_le_length firstLong, same, List.take_append_of_le_length secondLong]

/-- What the sample plan watches. -/
theorem not_watches_sample (notTarget : path ≠ samplePlan.targetPath)
    (notJournal : path ≠ migrationJournalPath sampleHost.homeDir)
    (elsewhere : ∀ rest, path ≠ unitsOf "/m/a" ++ rest ∧ path ≠ unitsOf "/b/a" ++ rest) :
    ¬ samplePlan.Watches sampleHost.homeDir path := by
  rintro (isTarget | isJournal | ⟨source, isSource, isPath⟩ | candidate)
  · exact notTarget isTarget
  · exact notJournal isJournal
  · rw [List.mem_singleton.mp isSource] at isPath
    exact (elsewhere []).1 (by rw [isPath, List.append_nil])
  · obtain ⟨source, isSource, basePath, attempt, isBase, isPath⟩ := candidate
    rw [List.mem_singleton.mp isSource] at isBase
    cases isBase
    rw [backupCandidate] at isPath
    split at isPath
    · exact (elsewhere []).2 (by rw [isPath, List.append_nil])
    · exact (elsewhere _).2 isPath

/-- How the scratch files of the sample start. -/
theorem journalTempPath_sample :
    ∃ rest, journalTempPath (migrationJournalPath sampleHost.homeDir) pid now attempt =
      unitsOf "/h/.omo/.migration-journal.json" ++ 46 :: rest := by
  unfold journalTempPath
  split <;> exact ⟨_, rfl⟩

theorem writeTempPath_sample :
    ∃ rest, writeTempPath samplePlan.targetPath (unitsOf "u" ++ decimal pid) =
      unitsOf "/h/.omo/omo.json.u" ++ rest := by
  have begins : unitsOf "/h/.omo/omo.json.u" =
      samplePlan.targetPath ++ unitsOf "." ++ unitsOf "u" := by decide +kernel
  refine ⟨decimal pid ++ unitsOf ".tmp", ?_⟩
  rw [writeTempPath, begins]
  simp only [List.append_assoc]

theorem backupCandidate_sample :
    ∃ rest, backupCandidate (samplePlan.targetPath ++ unitsOf ".bak." ++ unitsOf "d") attempt =
      unitsOf "/h/.omo/omo.json.b" ++ rest := by
  have begins : samplePlan.targetPath ++ unitsOf ".bak." ++ unitsOf "d" =
      unitsOf "/h/.omo/omo.json.b" ++ unitsOf "ak.d" := by decide +kernel
  unfold backupCandidate
  rw [begins]
  split
  · exact ⟨_, rfl⟩
  · exact ⟨_, by rw [List.append_assoc, List.append_assoc]⟩

/-- The sample plan watches nothing that starts so. -/
theorem not_watches_start
    (apart : start.take 9 ≠ (unitsOf "/h/.omo/.migration-journal.json").take 9 ∧
      start.take 2 ≠ (unitsOf "/m/a").take 2 ∧ start.take 2 ≠ (unitsOf "/b/a").take 2)
    (longer : 17 ≤ start.length)
    (rest : Units) : ¬ samplePlan.Watches sampleHost.homeDir (start ++ rest) := by
  obtain ⟨journal, source, candidate⟩ := apart
  refine not_watches_sample ?_ ?_ fun tail => ⟨?_, ?_⟩
  · intro same
    have lengths := congrArg List.length same
    have isLong : samplePlan.targetPath.length = 16 := by decide +kernel
    rw [List.length_append] at lengths
    omega
  · exact append_ne 9 (by omega) (by decide +kernel) journal []
  · exact append_ne 2 (by omega) (by decide +kernel) source tail
  · exact append_ne 2 (by omega) (by decide +kernel) candidate tail

/-- The scratch files of the sample are clear of the plan's. -/
theorem clear_sampleSurroundings (pid : Nat)
    (fresh : disk.exists (writeTempPath samplePlan.targetPath (unitsOf "u" ++ decimal pid)) =
      false) :
    (sampleSurroundings pid).Clear sampleHost.homeDir samplePlan disk := by
  obtain ⟨tempRest, isTemp⟩ := writeTempPath_sample
  refine
    { journalTemp := fun draw attempt => ?_, backup := fun draw attempt => ?_
      writeTemp := fun draw => ?_, fresh := fun _ => fresh }
  · obtain ⟨rest, isJournalTemp⟩ := journalTempPath_sample
    rw [isJournalTemp]
    have isJournal : migrationJournalPath sampleHost.homeDir =
        unitsOf "/h/.omo/.migration-journal.json" := by decide +kernel
    have isTarget : samplePlan.targetPath = unitsOf "/h/.omo/omo.json" ++ [] := by decide +kernel
    rintro (watched | ⟨draw, isWriteTemp⟩)
    · refine not_watches_sample ?_ ?_ (fun tail => ⟨?_, ?_⟩) watched
      · rw [isTarget]
        exact append_ne 9 (by decide +kernel) (by decide +kernel) (by decide +kernel) _
      · rw [isJournal]
        simp
      · exact append_ne 2 (by decide +kernel) (by decide +kernel) (by decide +kernel) _
      · exact append_ne 2 (by decide +kernel) (by decide +kernel) (by decide +kernel) _
    · rw [show (sampleSurroundings pid).randomUUID draw = unitsOf "u" ++ decimal pid from rfl,
        isTemp] at isWriteTemp
      exact append_ne 9 (by decide +kernel) (by decide +kernel) (by decide +kernel) _ isWriteTemp
  · obtain ⟨rest, isBackup⟩ := backupCandidate_sample
    rw [show (sampleSurroundings pid).backupSuffix draw = unitsOf "d" from rfl, isBackup]
    rintro (watched | ⟨other, isWriteTemp⟩)
    · exact not_watches_start (by decide +kernel) (by decide +kernel) rest watched
    · rw [show (sampleSurroundings pid).randomUUID other = unitsOf "u" ++ decimal pid from rfl,
        isTemp] at isWriteTemp
      exact append_ne 18 (by decide +kernel) (by decide +kernel) (by decide +kernel) _ isWriteTemp
  · rw [show (sampleSurroundings pid).randomUUID draw = unitsOf "u" ++ decimal pid from rfl, isTemp]
    exact not_watches_start (by decide +kernel) (by decide +kernel) tempRest

/-- The source of the sample is moved though the run crashed behind the target's write. -/
theorem survives_crashes_sample :
    ∃ disk, execute (crashStep sampleHost samplePlan) sampleDisk [(sampleSurroundings 1, 4)] =
        some disk ∧
      Recovered sampleHost samplePlan sampleDisk
        (runMigrations sampleHost (sampleSurroundings 1) false [samplePlan]
          ⟨sampleDisk, 0⟩).final.disk
        (runMigrations sampleHost (sampleSurroundings 2) false [samplePlan]
          ⟨disk, 0⟩).final.disk := by
  have clear : (sampleSurroundings 1).Clear sampleHost.homeDir samplePlan sampleDisk :=
    clear_sampleSurroundings 1 (by decide +kernel)
  have migrates : (runMigrations sampleHost (sampleSurroundings 1) false [samplePlan]
        ⟨sampleDisk, 0⟩).result =
      .ok { journalResumed := false
            results := [{ diagnostics := [], journalResumed := false, status := .migrated }] } := by
    decide +kernel
  have crashes : ((execute (crashStep sampleHost samplePlan) sampleDisk
      [(sampleSurroundings 1, 4)]).any fun disk =>
        !disk.exists (writeTempPath samplePlan.targetPath (unitsOf "u" ++ decimal 2)) &&
          !disk.exists (unitsOf "/b/a")) = true := by decide +kernel
  have isPlanned : sampleHost.plannedMoves samplePlan sampleDisk =
      [{ fromPath := unitsOf "/m/a", toPath := unitsOf "/b/a" }] := by decide +kernel
  obtain ⟨disk, reached⟩ := Option.isSome_iff_exists.mp
    (show (execute (crashStep sampleHost samplePlan) sampleDisk
      [(sampleSurroundings 1, 4)]).isSome = true by decide +kernel)
  rw [reached] at crashes
  simp only [Option.any_some, Bool.and_eq_true, Bool.not_eq_true'] at crashes
  refine ⟨disk, reached, ?_⟩
  refine (survives_crashes lawful_sampleJsonc ?_ (by decide +kernel) clear migrates rfl reached ?_
    (clear_sampleSurroundings 2 crashes.1)).2.1
  · intro content isContent
    cases isContent
  · intro next stepped
    obtain ⟨middle, isMiddle, ends⟩ := execute_cons_eq_some.mp reached
    rw [stepped] at isMiddle
    cases isMiddle
    cases ends
    refine ⟨⟨clear, ?_⟩, trivial⟩
    rw [isPlanned]
    intro move member both
    rw [List.mem_singleton.mp member, crashes.2] at both
    cases both.2

end OpenAgent.Config
