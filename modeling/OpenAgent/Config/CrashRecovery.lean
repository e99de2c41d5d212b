import OpenAgent.Config.MigrationStages

/-!
# Recovery from crashes

Every run of a migration, and every run that resumes one, goes from stage to stage, whichever
stage it starts at.  So a crash leaves the files at a stage, and the next run goes on from
there.  The one exception is a crash between the copy and the removal of a source that moves
to another device: source and backup are both there, and every later run stops at them.
-/

namespace OpenAgent.Config

open Library

/-- How far a migration has come. -/
inductive Stage
  | untouched
  | journaled
  | written
  | recorded (front : List MigrationBackupMove)
  | moved (front : List MigrationBackupMove) (move : MigrationBackupMove)
  | copied (front : List MigrationBackupMove) (move : MigrationBackupMove)
  | finished

namespace Migration

variable (migration : Migration host plan start)

/-- The files of a stage. -/
noncomputable def filesAt : Stage → Files
  | .untouched => migration.files none (mapGet start plan.targetPath) []
  | .journaled =>
    migration.files (some migration.planned.journal.content) (mapGet start plan.targetPath) []
  | .written =>
    migration.files (some migration.planned.journal.content) (some migration.next) []
  | .recorded front =>
    migration.files (some (migration.recordedJournal front).content) (some migration.next) front
  | .moved front move =>
    migration.files (some (migration.recordedJournal front).content) (some migration.next)
      (front ++ [move])
  | .copied front move =>
    (migration.files (some (migration.recordedJournal front).content) (some migration.next)
      front).set move.toPath (mapGet start move.fromPath)
  | .finished => migration.files none (some migration.next) migration.moves

/-- The moves of a stage are those of the migration, in their order. -/
def Reaches : Stage → Prop
  | .recorded front => ∃ rest, migration.moves = front ++ rest
  | .moved front move | .copied front move => ∃ rest, migration.moves = front ++ move :: rest
  | _ => True

/-- A disk at a stage. -/
def StandsAt (stage : Stage) (disk : Disk) : Prop :=
  disk.Agrees (plan.Watches host.homeDir) (migration.filesAt stage)

/-- A machine that is at some stage. -/
def Passing (machine : Machine) : Prop :=
  ∃ stage, migration.Reaches stage ∧ migration.StandsAt stage machine.disk

end Migration

/-- The paths that a run knows of: those of the plan, and its temporary targets. -/
def Surroundings.Sees (surroundings : Surroundings) (homeDir : Units) (plan : MigrationPlan)
    (path : Units) : Prop :=
  plan.Watches homeDir path ∨
    ∃ draw, path = writeTempPath plan.targetPath (surroundings.randomUUID draw)

/-- The scratch files of a run are no files of the plan: its temporary journals, its copies
of the target and its temporary targets, which are new besides. -/
structure Surroundings.Clear (surroundings : Surroundings) (homeDir : Units) (plan : MigrationPlan)
    (disk : Disk) : Prop where
  journalTemp : ∀ draw attempt, ¬ surroundings.Sees homeDir plan (journalTempPath
    (migrationJournalPath homeDir) surroundings.pid (surroundings.now draw) attempt)
  backup : ∀ draw attempt, ¬ surroundings.Sees homeDir plan (backupCandidate
    (plan.targetPath ++ unitsOf ".bak." ++ surroundings.backupSuffix draw) attempt)
  writeTemp : ∀ draw,
    ¬ plan.Watches homeDir (writeTempPath plan.targetPath (surroundings.randomUUID draw))
  fresh : ∀ draw, disk.exists (writeTempPath plan.targetPath (surroundings.randomUUID draw)) = false

namespace Migration

variable
  {migration : Migration host plan start}

/-- What is known of a machine at a stage. -/
abbrev KnownAt (migration : Migration host plan start) (surroundings : Surroundings)
    (stage : Stage) : Machine → Prop :=
  Knows (surroundings.Sees host.homeDir plan) (migration.filesAt stage)

theorem files_of_unwatched (unwatched : ¬ plan.Watches host.homeDir path)
    (areMoves : ∀ move ∈ moved, move ∈ migration.moves) :
    migration.files journal target moved path = none := by
  have notTarget : path ≠ plan.targetPath := fun same => unwatched (.inl same)
  have notJournal : path ≠ migrationJournalPath host.homeDir :=
    fun same => unwatched (.inr (.inl same))
  rw [migration.files_of_ne notTarget notJournal, Files.moveAll_of_notMem, base, if_neg unwatched]
  · rintro move member rfl
    exact unwatched (migration.watches_from (areMoves move member))
  · rintro move member rfl
    exact unwatched (migration.watches_to (areMoves move member))

theorem at_of_unwatched (unwatched : ¬ plan.Watches host.homeDir path)
    (reaches : migration.Reaches stage) : migration.filesAt stage path = none := by
  cases stage with
  | untouched | journaled | written => exact files_of_unwatched unwatched (by simp)
  | recorded front =>
    obtain ⟨rest, split⟩ := reaches
    exact files_of_unwatched unwatched (fun move member => by simp [split, member])
  | moved front move =>
    obtain ⟨rest, split⟩ := reaches
    refine files_of_unwatched unwatched (fun other member => ?_)
    rw [split, ← List.singleton_append, ← List.append_assoc]
    exact List.mem_append_left _ member
  | copied front move =>
    obtain ⟨rest, split⟩ := reaches
    have differs : path ≠ move.toPath := by
      rintro rfl
      exact unwatched (migration.watches_to (by simp [split]))
    rw [filesAt, Files.set_of_ne differs]
    exact files_of_unwatched unwatched (fun other member => by simp [split, member])
  | finished => exact files_of_unwatched unwatched (fun _ member => member)

variable {surroundings : Surroundings}

theorem Knows.passing (stage : Stage) (reaches : migration.Reaches stage)
    (knows : migration.KnownAt surroundings stage machine) : migration.Passing machine :=
  ⟨stage, reaches, fun path isWatched => knows path (.inl isWatched)⟩

variable (clear : surroundings.Clear host.homeDir plan disk)

include clear

theorem apart_of_clear (stage : Stage) (reaches : migration.Reaches stage) :
    surroundings.Apart (surroundings.Sees host.homeDir plan) (migration.filesAt stage) host.homeDir
      plan.targetPath where
  __ := clear
  writeTemp draw := .inr ⟨draw, rfl⟩
  absent draw := at_of_unwatched (clear.writeTemp draw) reaches

/-- A write of the journal, from stage to stage. -/
theorem meets_journal (before after : Stage) (reaches : migration.Reaches before)
    (reachesAfter : migration.Reaches after)
    (becomes : (migration.filesAt before).set (migrationJournalPath host.homeDir)
      (some journal.content) = migration.filesAt after) :
    Program.Meets (migration.KnownAt surroundings before)
      (writeMigrationJournal host.device host.homeDir surroundings journal) migration.Passing
      (fun _ => migration.KnownAt surroundings after) := by
  rw [KnownAt, KnownAt, ← becomes]
  refine meets_writeMigrationJournal (apart_of_clear clear before reaches) host.device journal
    (fun machine => Knows.passing before reaches) fun machine knows => ?_
  rw [becomes] at knows
  exact Knows.passing after reachesAfter knows

omit clear in
/-- A source moves to its backup. -/
theorem meets_move (split : migration.moves = front ++ move :: rest) :
    Program.Meets (migration.KnownAt surroundings (.recorded front))
      (moveMigrationBackup host.device move.fromPath move.toPath) migration.Passing
      (fun _ =>
        migration.KnownAt surroundings (.moved front move)) := by
  have isMove : move ∈ migration.moves := by simp [split]
  obtain ⟨⟨content, atFrom, isContent⟩, _⟩ := migration.files_next split
    (some (migration.recordedJournal front).content) (some migration.next)
  have isWatched : surroundings.Sees host.homeDir plan move.fromPath :=
    .inl (migration.watches_from isMove)
  have differs : move.fromPath ≠ move.toPath :=
    (migration.distinct.apart move isMove move isMove).symm
  have becomes : (migration.filesAt (.recorded front)).move move =
      migration.filesAt (.moved front move) := migration.files_move split _ _
  have passes : ∀ machine, migration.KnownAt surroundings (.moved front move) machine → migration.Passing machine :=
    fun machine => Knows.passing (.moved front move) ⟨rest, split⟩
  have present : ∀ machine, migration.KnownAt surroundings (.recorded front) machine →
        mapGet machine.disk move.fromPath = some content := by
    intro machine knows
    rw [knows _ isWatched]
    exact atFrom
  by_cases sameDevice : host.device (directoryPath move.fromPath) =
      host.device (directoryPath move.toPath)
  · refine Program.Meets.recover_of_ok (Program.Meets.alter fun machine knows => ?_)
    have after : migration.KnownAt surroundings (.moved front move)
        { machine with
          disk := mapSet (mapDelete machine.disk move.fromPath) move.toPath content } := by
      rw [KnownAt, ← becomes, Files.move, show migration.filesAt (.recorded front) move.fromPath = _ from atFrom]
      exact Disk.Agrees.mapSet (Disk.Agrees.mapDelete knows move.fromPath) move.toPath content
    refine ⟨_, ?_, passes _ after, after⟩
    simp only [Disk.rename, present machine knows, if_pos sameDevice]
    rfl
  · refine Program.Meets.recover (.system .exdev) (fun machine knows => ?_) ?_
    · simp only [renameSync, writing, Program.alter, Disk.rename, present machine knows,
        if_neg sameDevice]
      rfl
    · refine Program.Meets.bind (fun _ =>
          migration.KnownAt surroundings (.copied front move))
        (Program.Meets.alter fun machine knows => ?_) fun _ =>
          Program.Meets.alter fun machine knows => ?_
      · have after : migration.KnownAt surroundings (.copied front move)
            { machine with disk := mapSet machine.disk move.toPath content } := by
          have copied := Disk.Agrees.mapSet knows move.toPath content
          rw [← isContent] at copied
          exact copied
        refine ⟨_, ?_, Knows.passing (.copied front move) ⟨rest, split⟩ after, after⟩
        simp only [Disk.copyFile, Disk.readFile, present machine knows]
        rfl
      · have after : migration.KnownAt surroundings (.moved front move)
            { machine with disk := mapDelete machine.disk move.fromPath } := by
          have removed := Disk.Agrees.mapDelete knows move.fromPath
          intro path isSeen
          rw [removed path isSeen, ← becomes, Files.move,
            show migration.filesAt (.recorded front) move.fromPath = _ from atFrom, ← isContent]
          change Files.set (Files.set _ _ _) _ _ path = Files.set (Files.set _ _ _) _ _ path
          unfold Files.set
          by_cases isTo : path = move.toPath
          · have notFrom : path ≠ move.fromPath := fun same => differs (same.symm.trans isTo)
            rw [if_neg notFrom, if_pos isTo, if_pos isTo]
          · rw [if_neg isTo, if_neg isTo]
            rfl
        refine ⟨_, ?_, passes _ after, after⟩
        have exists_ : machine.disk.exists move.fromPath = true := by
          rw [Disk.Agrees.exists_eq knows isWatched]
          change (Files.set _ _ _ move.fromPath).isSome = true
          rw [Files.set_of_ne differs, atFrom]
          rfl
        rw [Disk.unlink, exists_]
        rfl

omit clear in
theorem recordedJournal_record (front : List MigrationBackupMove) (move : MigrationBackupMove) :
    (migration.recordedJournal front).record move = migration.recordedJournal (front ++ [move]) := by
  simp [recordedJournal, MigrationJournal.record]

/-- What a pass of either loop does with the next source. -/
def Advances (migration : Migration host plan start) (surroundings : Surroundings)
    (body : MigrationJournal → MigrationBackupMove → Action MigrationJournal) : Prop :=
  ∀ front move rest, migration.moves = front ++ move :: rest →
    Program.Meets (migration.KnownAt surroundings (.recorded front))
      (body (migration.recordedJournal front) move) migration.Passing
      (fun journal machine => journal = migration.recordedJournal (front ++ [move]) ∧
        migration.KnownAt surroundings (.recorded (front ++ [move])) machine)

/-- The journal behind a move that was just made. -/
theorem meets_recordMove (split : migration.moves = front ++ move :: rest) :
    Program.Meets (migration.KnownAt surroundings (.moved front move)) (do
        writeMigrationJournal host.device host.homeDir surroundings
          ((migration.recordedJournal front).record move)
        return (migration.recordedJournal front).record move)
      migration.Passing
      (fun journal machine => journal = migration.recordedJournal (front ++ [move]) ∧
        migration.KnownAt surroundings (.recorded (front ++ [move])) machine) := by
  rw [recordedJournal_record]
  have becomes : (migration.filesAt (.moved front move)).set (migrationJournalPath host.homeDir)
      (some (migration.recordedJournal (front ++ [move])).content) =
        migration.filesAt (.recorded (front ++ [move])) := migration.files_set_journal _ _ _ _
  refine Program.Meets.bind _
    (meets_journal clear (.moved front move) (.recorded (front ++ [move])) ⟨rest, split⟩
      ⟨rest, by simp [split]⟩ becomes) fun _ => ?_
  exact Program.Meets.finish fun machine knows => ⟨rfl, knows⟩

omit clear in
/-- The next source is there, and its backup is not. -/
theorem exists_next (split : migration.moves = front ++ move :: rest)
    (knows : migration.KnownAt surroundings (.recorded front) machine) :
    machine.disk.exists move.fromPath = true ∧ machine.disk.exists move.toPath = false := by
  have isMove : move ∈ migration.moves := by simp [split]
  obtain ⟨⟨content, atFrom, _⟩, atTo⟩ := migration.files_next split
    (some (migration.recordedJournal front).content) (some migration.next)
  constructor
  · rw [Disk.Agrees.exists_eq knows (.inl (migration.watches_from isMove))]
    exact congrArg Option.isSome atFrom
  · rw [Disk.Agrees.exists_eq knows (.inl (migration.watches_to isMove))]
    exact congrArg Option.isSome atTo

omit clear in
/-- The next source is not recorded as moved. -/
theorem notRecorded_next (split : migration.moves = front ++ move :: rest) :
    (migration.recordedJournal front).completedMoves.contains move.fromPath = false := by
  have unique := migration.distinct.sources
  rw [split, List.map_append, List.nodup_append] at unique
  have absent : move.fromPath ∉ front.map (·.fromPath) := fun member =>
    unique.2.2 _ member _ List.mem_cons_self rfl
  simpa [recordedJournal] using absent

theorem advances_executeMove : migration.Advances surroundings (executeMove host surroundings) := by
  intro front move rest split
  refine Program.Meets.bind_view false
    (fun machine knows => congrArg Except.ok (exists_next split knows).2) ?_
  exact Program.Meets.bind _ (meets_move split) fun _ => meets_recordMove clear split

theorem advances_resumeMove : migration.Advances surroundings (resumeMove host surroundings) := by
  intro front move rest split
  rw [resumeMove, notRecorded_next split]
  refine Program.Meets.bind (fun _ => migration.KnownAt surroundings (.moved front move)) ?_
    fun _ => meets_recordMove clear split
  exact Program.Meets.bind_view true
    (fun machine knows => congrArg Except.ok (exists_next split knows).1)
    (Program.Meets.bind_view false
      (fun machine knows => congrArg Except.ok (exists_next split knows).2) (meets_move split))

/-- The pass of the recovery for a source that was moved and not recorded. -/
theorem meets_resumeMoved (split : migration.moves = front ++ move :: rest) :
    Program.Meets (migration.KnownAt surroundings (.moved front move))
      (resumeMove host surroundings (migration.recordedJournal front) move) migration.Passing
      (fun journal machine => journal = migration.recordedJournal (front ++ [move]) ∧
        migration.KnownAt surroundings (.recorded (front ++ [move])) machine) := by
  have isMove : move ∈ migration.moves := by simp [split]
  have moved := migration.files_move split (some (migration.recordedJournal front).content)
  have differs : move.fromPath ≠ move.toPath :=
    (migration.distinct.apart move isMove move isMove).symm
  obtain ⟨⟨content, atFrom, _⟩, _⟩ := migration.files_next split
    (some (migration.recordedJournal front).content) (some migration.next)
  have isMoved : ∀ machine, migration.KnownAt surroundings (.moved front move) machine →
        machine.disk.exists move.fromPath = false ∧ machine.disk.exists move.toPath = true := by
    intro machine knows
    rw [Disk.Agrees.exists_eq knows (.inl (migration.watches_from isMove)),
      Disk.Agrees.exists_eq knows (.inl (migration.watches_to isMove)), filesAt, ← moved,
      Files.move, Files.set_self, Files.set_of_ne differs, Files.set_self, atFrom]
    exact ⟨rfl, rfl⟩
  rw [resumeMove, notRecorded_next split]
  refine Program.Meets.bind (fun _ => migration.KnownAt surroundings (.moved front move)) ?_ fun _ => meets_recordMove clear split
  exact Program.Meets.bind_view false
    (fun machine knows => congrArg Except.ok (isMoved machine knows).1)
    (Program.Meets.bind_view true
      (fun machine knows => congrArg Except.ok (isMoved machine knows).2)
      (Program.Meets.finish fun _ holds => holds))

omit clear in
/-- Either loop, over the moves that are left. -/
theorem meets_moves (advances : migration.Advances surroundings body)
    (split : migration.moves = front ++ rest) :
    Program.Meets (migration.KnownAt surroundings (.recorded front))
      (rest.foldlM body (migration.recordedJournal front)) migration.Passing
      (fun _ =>
        migration.KnownAt surroundings (.recorded migration.moves)) := by
  have loops := Program.Meets.foldlM body rest
    (fun processed journal machine => journal = migration.recordedJournal (front ++ processed) ∧
      migration.KnownAt surroundings (.recorded (front ++ processed)) machine)
    (fun processed move later isSplit journal => by
      rintro machine ⟨rfl, knows⟩
      have whole : migration.moves = (front ++ processed) ++ move :: later := by
        rw [split, isSplit, List.append_assoc]
      have advanced := advances (front ++ processed) move later whole machine knows
      rw [List.append_assoc] at advanced
      exact advanced)
    (migration.recordedJournal front)
  rw [← split] at loops
  refine loops.weaken (fun machine knows => ?_) (fun _ passes => passes)
    fun journal machine both => both.2
  rw [List.append_nil]
  exact ⟨rfl, knows⟩

omit clear in
theorem filesAt_journalPath (isJournal : path = migrationJournalPath host.homeDir)
    (journal target : Option Content) (moved : List MigrationBackupMove) :
    migration.files journal target moved path = journal := by
  rw [isJournal, files, Files.set_self]

omit clear in
theorem files_targetPath (journal target : Option Content) (moved : List MigrationBackupMove) :
    migration.files journal target moved plan.targetPath = target := by
  rw [files, Files.set_of_ne migration.targetPath_ne, Files.set_self]

theorem meets_target :
    Program.Meets (migration.KnownAt surroundings .journaled)
      (host.writePreparedTarget surroundings migration.planned.edits plan.targetPath)
      migration.Passing
      (fun _ => migration.KnownAt surroundings .written) := by
  have becomes : (migration.filesAt .journaled).set plan.targetPath (some migration.next) =
      migration.filesAt .written := migration.files_set_target _ _ _ _
  simp only [KnownAt, ← becomes]
  refine meets_writePreparedTarget (apart_of_clear clear .journaled trivial)
    migration.isScope (fun disk agrees => ?_) migration.edited
    (fun machine => Knows.passing .journaled trivial)
    (fun draw machine knows => ?_) fun machine knows => ?_
  · have same : mapGet disk plan.targetPath = mapGet start plan.targetPath := by
      rw [agrees _ (.inl (.inl rfl))]
      exact files_targetPath _ _ _
    rw [Host.currentContent_congr same, migration.reads]
  · have hidden : Disk.Agrees machine.disk (plan.Watches host.homeDir)
        ((migration.filesAt .journaled).set
          (writeTempPath plan.targetPath (surroundings.randomUUID draw))
          (some migration.next)) := fun path isWatched => knows path (.inl isWatched)
    exact ⟨.journaled, trivial, hidden.of_unwatched (clear.writeTemp draw)⟩
  · rw [becomes] at knows
    exact Knows.passing .written trivial knows

omit clear in
/-- The removal of the journal when all moves are recorded. -/
theorem meets_end :
    Program.Meets (migration.KnownAt surroundings (.recorded migration.moves))
      (removeMigrationJournal host.homeDir) migration.Passing
      (fun _ => migration.KnownAt surroundings .finished) := by
  have becomes : (migration.filesAt (.recorded migration.moves)).set
      (migrationJournalPath host.homeDir) none = migration.filesAt .finished :=
    migration.files_set_journal _ _ _ _
  simp only [KnownAt, ← becomes]
  refine meets_removeMigrationJournal (.inl (.inr (.inl rfl))) ?_ fun machine knows => ?_
  · exact congrArg Option.isSome (filesAt_journalPath rfl _ _ _)
  · rw [becomes] at knows
    exact Knows.passing .finished trivial knows

omit clear in
theorem recordedJournal_nil :
    { migration.planned.journal with targetWritten := true } = migration.recordedJournal [] := by
  rw [recordedJournal, List.map_nil, ← migration.sound.notMoved]

theorem meets_executePlanned :
    Program.Meets (migration.KnownAt surroundings .untouched)
      (executePlanned host surroundings migration.planned) migration.Passing
      (fun _ => migration.KnownAt surroundings .finished) := by
  have begins : (migration.filesAt .untouched).set (migrationJournalPath host.homeDir)
      (some migration.planned.journal.content) = migration.filesAt .journaled :=
    migration.files_set_journal _ _ _ _
  have continues : (migration.filesAt .written).set (migrationJournalPath host.homeDir)
      (some (migration.recordedJournal []).content) = migration.filesAt (.recorded []) :=
    migration.files_set_journal _ _ _ _
  refine Program.Meets.bind _ (meets_journal clear .untouched .journaled trivial trivial begins) fun _ => ?_
  rw [migration.sound.targetPath]
  refine Program.Meets.bind _ (meets_target clear) fun _ => ?_
  rw [recordedJournal_nil]
  refine Program.Meets.bind _ (meets_journal clear .written (.recorded []) trivial
    ⟨migration.moves, rfl⟩ continues) fun _ => ?_
  exact Program.Meets.bind _ (meets_moves (advances_executeMove clear) (List.nil_append _).symm)
    fun _ => meets_end

omit clear in
theorem parse_of_parseDocument {content : Content}
    (parsed : host.parseDocument path content = .ok members) :
    host.jsonc.parse (stripBom content) = ([], some (.object members)) := by
  unfold Host.parseDocument at parsed
  split at parsed
  · next isParsed =>
      cases parsed
      rw [Host.parseJsoncSafe] at isParsed
      have noErrors := congrArg Prod.fst isParsed
      have value := congrArg Prod.snd isParsed
      rw [noErrors] at value
      exact Prod.ext noErrors value
  · cases parsed

omit clear in
theorem content_of_currentContent {scope : ConfigScope} {content : Content}
    (reads : host.currentContent scope path disk = .ok content) :
    content = (mapGet disk path).getD emptyOmoConfig := by
  unfold Host.currentContent at reads
  split at reads
  · cases reads
  · split at reads
    · cases reads
    · dsimp only at reads
      split at reads
      · cases reads
        rfl
      · cases reads

omit clear in
theorem parseDocument_of_parse {content : Content} {members : Members}
    (parsed : host.jsonc.parse (stripBom content) = ([], some (.object members))) (path : Units) :
    host.parseDocument path content = .ok members := by
  simp only [Host.parseDocument, Host.parseJsoncSafe, parsed]
  rfl

omit clear in
/-- The target that is written names the migration once. -/
theorem reads_marked (lawful : host.jsonc.Lawful namesOnce)
    (once : ∀ content, mapGet start plan.targetPath = some content → namesOnce content) :
    ∃ document, host.parseDocument plan.targetPath migration.next = .ok document ∧
      markerCount document plan.id = 1 := by
  obtain ⟨target, prepared, isTarget, unmarked, isPrepared, sameEdits⟩ := migration.sound.prepared
  obtain ⟨front, marker, isMarker, edits, nonempty⟩ := prepare_edits isPrepared
  have reads := migration.reads
  have edited := migration.edited
  rw [← sameEdits, edits] at edited
  have begins : namesOnce migration.content ∧ ∃ members,
      host.jsonc.parse (stripBom migration.content) = ([], some (.object members)) := by
    rw [content_of_currentContent reads]
    cases found : mapGet start plan.targetPath with
    | none =>
      exact ⟨lawful.namesOnce_empty, [], lawful.parse_empty⟩
    | some content =>
      rw [Host.targetDocument, found] at isTarget
      exact ⟨once content found, target, parse_of_parseDocument isTarget⟩
  obtain ⟨isOnce, members, parses⟩ := begins
  obtain ⟨document, isDocument, isSet⟩ := applyEdits_marks lawful nonempty isOnce parses edited
  refine ⟨document, parseDocument_of_parse isDocument _, ?_⟩
  rw [markerCount_eq isSet, count_markerValue isMarker unmarked]

/-- The journal of a stage. -/
def stageJournal (migration : Migration host plan start) : Stage → Option MigrationJournal
  | .untouched | .finished => none
  | .journaled | .written => some migration.planned.journal
  | .recorded front | .moved front _ | .copied front _ => some (migration.recordedJournal front)

omit clear in
theorem readMigrationJournal_of_knows (reaches : migration.Reaches stage)
    (knows : migration.KnownAt surroundings stage machine) :
    readMigrationJournal host.homeDir machine.disk = .ok (migration.stageJournal stage) := by
  have present : mapGet machine.disk (migrationJournalPath host.homeDir) =
      (migration.stageJournal stage).map MigrationJournal.content := by
    rw [knows _ (.inl (.inr (.inl rfl)))]
    cases stage with
    | untouched | journaled | written | finished => exact filesAt_journalPath rfl _ _ _
    | recorded front | moved front move => exact filesAt_journalPath rfl _ _ _
    | copied front move =>
      obtain ⟨rest, split⟩ := reaches
      have isMove : move ∈ migration.moves := by simp [split]
      have apart := (migration.move_apart isMove).2.2
      rw [filesAt, Files.set_of_ne apart.symm]
      exact filesAt_journalPath rfl _ _ _
  cases journal : migration.stageJournal stage with
  | none =>
    rw [journal] at present
    rw [readMigrationJournal, present]
    rfl
  | some journal' =>
    rw [journal] at present
    exact readMigrationJournal_content present

omit clear in
/-- A target that has the marker is left alone. -/
theorem meets_resumeTarget_of_marked (stage : Stage)
    (marked : ∃ document, host.parseDocument plan.targetPath migration.next = .ok document ∧
      markerCount document plan.id = 1)
    (isNext : migration.filesAt stage plan.targetPath = some migration.next)
    (isTarget : journal.targetPath = plan.targetPath)
    (isId : journal.migrationId = plan.id) :
    Program.Meets (migration.KnownAt surroundings stage)
      (resumeTarget host surroundings journal) migration.Passing
      (fun _ => migration.KnownAt surroundings stage) := by
  obtain ⟨document, isDocument, once⟩ := marked
  unfold resumeTarget
  rw [isTarget, isId]
  refine Program.Meets.bind_view document (fun machine knows => ?_) ?_
  · rw [Host.targetDocument, knows _ (.inl (.inl rfl)), isNext]
    exact isDocument
  · rw [if_pos (hasMigrationMarker_of_markerCount once)]
    exact Program.Meets.finish fun _ holds => holds

/-- A target that does not is written as in the run that was cut off. -/
theorem meets_resumeTarget_of_unmarked :
    Program.Meets (migration.KnownAt surroundings .journaled)
      (resumeTarget host surroundings migration.planned.journal) migration.Passing
      (fun _ => migration.KnownAt surroundings .written) := by
  obtain ⟨target, prepared, isTarget, unmarked, isPrepared, sameEdits⟩ := migration.sound.prepared
  unfold resumeTarget
  rw [migration.sound.targetPath, migration.sound.migrationId]
  refine Program.Meets.bind_view target (fun machine knows => ?_) ?_
  · have same : mapGet machine.disk plan.targetPath = mapGet start plan.targetPath := by
      rw [knows _ (.inl (.inl rfl))]
      exact files_targetPath _ _ _
    rw [Host.targetDocument] at isTarget
    rw [Host.targetDocument, same, isTarget]
  · rw [if_neg (by rw [unmarked]; decide)]
    refine Program.Meets.bind_view prepared (fun _ _ => isPrepared) ?_
    rw [sameEdits]
    exact meets_target clear

omit clear in
/-- The recovery passes over the moves that are recorded. -/
theorem foldlM_resumeMove (rest : List MigrationBackupMove) :
    (front ++ rest).foldlM (resumeMove host surroundings) (migration.recordedJournal front) =
      rest.foldlM (resumeMove host surroundings) (migration.recordedJournal front) := by
  refine Program.foldlM_skip (fun move member => ?_) rest
  have isRecorded :
      (migration.recordedJournal front).completedMoves.contains move.fromPath = true := by
    rw [List.contains_iff_mem]
    exact List.mem_map_of_mem member
  rw [resumeMove, isRecorded]
  rfl

/-- The moves of a recovery, from a stage at which all moves made are recorded. -/
theorem meets_resumeMoves (split : migration.moves = front ++ rest) :
    Program.Meets (migration.KnownAt surroundings (.recorded front))
      (migration.moves.foldlM (resumeMove host surroundings) (migration.recordedJournal front))
      migration.Passing
      (fun _ => migration.KnownAt surroundings (.recorded migration.moves)) := by
  rw [show migration.moves.foldlM (resumeMove host surroundings) (migration.recordedJournal front) =
    rest.foldlM (resumeMove host surroundings) (migration.recordedJournal front) by
      rw [split, foldlM_resumeMove]]
  exact meets_moves (advances_resumeMove clear) split

/-- The moves of a recovery, from a stage at which the last one is not recorded. -/
theorem meets_resumeMovesMoved (split : migration.moves = front ++ move :: rest) :
    Program.Meets (migration.KnownAt surroundings (.moved front move))
      (migration.moves.foldlM (resumeMove host surroundings) (migration.recordedJournal front))
      migration.Passing
      (fun _ => migration.KnownAt surroundings (.recorded migration.moves)) := by
  rw [show migration.moves.foldlM (resumeMove host surroundings) (migration.recordedJournal front) =
    (move :: rest).foldlM (resumeMove host surroundings) (migration.recordedJournal front) by
      rw [split, foldlM_resumeMove]]
  refine Program.Meets.bind _ (meets_resumeMoved clear split) fun journal => ?_
  rintro machine ⟨rfl, knows⟩
  exact meets_moves (advances_resumeMove clear) (by simp [split]) machine knows

/-- From the journal on, a recovery ends at the last stage. -/
theorem meets_resumeJournal (stage after rewritten : Stage) (journal : MigrationJournal)
    (isJournal : { journal with targetWritten := true } = migration.recordedJournal front)
    (target : Program.Meets (migration.KnownAt surroundings stage)
      (resumeTarget host surroundings journal) migration.Passing
      (fun _ => migration.KnownAt surroundings after))
    (reaches : migration.Reaches after)
    (reachesRewritten : migration.Reaches rewritten)
    (becomes : (migration.filesAt after).set (migrationJournalPath host.homeDir)
      (some (migration.recordedJournal front).content) = migration.filesAt rewritten)
    (moves : Program.Meets (migration.KnownAt surroundings rewritten)
      (migration.moves.foldlM (resumeMove host surroundings) (migration.recordedJournal front))
      migration.Passing
      (fun _ => migration.KnownAt surroundings (.recorded migration.moves)))
    (isStage : migration.stageJournal stage = some journal)
    (reachesStage : migration.Reaches stage) :
    Program.Meets (migration.KnownAt surroundings stage)
      (resumeMigrationJournal host surroundings) migration.Passing
      (fun _ => migration.KnownAt surroundings .finished) := by
  refine Program.Meets.bind_view (some journal) (fun machine knows => ?_) ?_
  · rw [readMigrationJournal_of_knows reachesStage knows, isStage]
  · have sameMoves := congrArg MigrationJournal.backupMoves isJournal
    dsimp only
    rw [isJournal, sameMoves]
    refine Program.Meets.bind _ target fun _ => ?_
    refine Program.Meets.bind _ (meets_journal clear after rewritten reaches reachesRewritten becomes) fun _ => ?_
    refine Program.Meets.bind _ moves fun _ => ?_
    exact Program.Meets.bind _ meets_end fun _ => Program.Meets.finish fun _ holds => holds

/-- From every stage but one, a recovery ends at the last stage, or it has nothing to do. -/
theorem meets_resume
    (marked : ∃ document, host.parseDocument plan.targetPath migration.next = .ok document ∧
      markerCount document plan.id = 1)
    (reaches : migration.Reaches stage)
    (whole : ∀ front move, stage ≠ .copied front move) :
    Program.Meets (migration.KnownAt surroundings stage)
      (resumeMigrationJournal host surroundings) migration.Passing
      (fun _ machine =>
        migration.KnownAt surroundings .untouched machine ∨
          migration.KnownAt surroundings .finished machine) := by
  have isFinished : ∀ (value : Bool) (machine : Machine),
      migration.KnownAt surroundings .finished machine →
        migration.KnownAt surroundings .untouched machine ∨
          migration.KnownAt surroundings .finished machine :=
    fun _ _ knows => .inr knows
  have isNext : ∀ journal moved,
      migration.files journal (some migration.next) moved plan.targetPath = some migration.next :=
    fun journal moved => files_targetPath _ _ _
  have idle : ∀ stage, migration.Reaches stage → migration.stageJournal stage = none →
      Program.Meets (migration.KnownAt surroundings stage)
        (resumeMigrationJournal host surroundings) migration.Passing
        (fun _ => migration.KnownAt surroundings stage) := by
    intro stage reaches noJournal
    refine Program.Meets.bind_view none (fun machine knows => ?_)
      (Program.Meets.finish fun _ holds => holds)
    rw [readMigrationJournal_of_knows reaches knows, noJournal]
  have sound := migration.sound
  cases stage with
  | untouched =>
    exact (idle .untouched trivial rfl).weaken (fun _ knows => knows) (fun _ passes => passes)
      fun _ _ knows => .inl knows
  | finished =>
    exact (idle .finished trivial rfl).weaken (fun _ knows => knows) (fun _ passes => passes)
      isFinished
  | journaled =>
    exact (meets_resumeJournal clear .journaled .written (.recorded []) _ recordedJournal_nil
      (meets_resumeTarget_of_unmarked clear) trivial
      ⟨migration.moves, rfl⟩
      (migration.files_set_journal _ _ _ _) (meets_resumeMoves clear (List.nil_append _).symm)
      rfl trivial).weaken (fun _ knows => knows) (fun _ passes => passes) isFinished
  | written =>
    exact (meets_resumeJournal clear .written .written (.recorded []) _ recordedJournal_nil
      (meets_resumeTarget_of_marked .written marked (isNext _ _) sound.targetPath
        sound.migrationId) trivial
      ⟨migration.moves, rfl⟩
      (migration.files_set_journal _ _ _ _) (meets_resumeMoves clear (List.nil_append _).symm)
      rfl trivial).weaken (fun _ knows => knows) (fun _ passes => passes) isFinished
  | recorded front =>
    obtain ⟨rest, split⟩ := reaches
    exact (meets_resumeJournal clear (.recorded front) (.recorded front) (.recorded front)
      (migration.recordedJournal front) rfl
      (meets_resumeTarget_of_marked (.recorded front) marked (isNext _ _) sound.targetPath
        sound.migrationId)
      ⟨rest, split⟩ ⟨rest, split⟩
      (migration.files_set_journal _ _ _ _) (meets_resumeMoves clear split)
      rfl ⟨rest, split⟩).weaken (fun _ knows => knows) (fun _ passes => passes) isFinished
  | moved front move =>
    obtain ⟨rest, split⟩ := reaches
    exact (meets_resumeJournal clear (.moved front move) (.moved front move) (.moved front move)
      (migration.recordedJournal front) rfl
      (meets_resumeTarget_of_marked (.moved front move) marked (isNext _ _) sound.targetPath
        sound.migrationId)
      ⟨rest, split⟩ ⟨rest, split⟩
      (migration.files_set_journal _ _ _ _) (meets_resumeMovesMoved clear split)
      rfl ⟨rest, split⟩).weaken (fun _ knows => knows) (fun _ passes => passes) isFinished
  | copied front move => exact absurd rfl (whole front move)

omit clear in
/-- Before anything is done the files are as they were. -/
theorem sameFiles_untouched (stands : migration.StandsAt .untouched disk) :
    plan.SameFiles host.homeDir disk start := by
  intro path isWatched
  rw [stands path isWatched, filesAt]
  by_cases isJournal : path = migrationJournalPath host.homeDir
  · rw [filesAt_journalPath isJournal, isJournal, migration.noJournal]
  · by_cases isTarget : path = plan.targetPath
    · rw [isTarget, files_targetPath]
    · rw [migration.files_of_ne isTarget isJournal]
      exact migration.base_of_watches isWatched

omit clear in
/-- When all is done the plan is skipped. -/
theorem planMigration_finished
    (marked : ∃ document, host.parseDocument plan.targetPath migration.next = .ok document ∧
      markerCount document plan.id = 1)
    (stands : migration.StandsAt .finished disk) : host.planMigration plan disk = .ok none := by
  obtain ⟨document, isDocument, once⟩ := marked
  obtain ⟨paths, safe, _⟩ := bind_eq_ok.mp migration.isPlanned
  have isNext : mapGet disk plan.targetPath = some migration.next := by
    rw [stands _ (.inl rfl)]
    exact files_targetPath _ _ _
  have isTarget : host.targetDocument plan.targetPath disk = .ok document := by
    rw [Host.targetDocument, isNext]
    exact isDocument
  rw [Host.planMigration, bind_eq_ok]
  refine ⟨paths, safe, ?_⟩
  rw [isTarget]
  simp only [bind, Except.bind, hasMigrationMarker_of_markerCount once, Bool.not_true,
    Bool.and_false]
  rfl

/-- The plan is carried out where nothing was done, and skipped where all is done. -/
theorem meets_executePlan
    (marked : ∃ document, host.parseDocument plan.targetPath migration.next = .ok document ∧
      markerCount document plan.id = 1)
    (journalResumed : Bool) :
    Program.Meets (fun machine =>
        migration.KnownAt surroundings .untouched machine ∨
          migration.KnownAt surroundings .finished machine)
      (executePlan host surroundings false journalResumed plan) migration.Passing
      (fun _ => migration.KnownAt surroundings .finished) := by
  refine Program.Meets.bind
    (fun found machine =>
      (found = some migration.planned ∧ migration.KnownAt surroundings .untouched machine) ∨
      (found = none ∧ migration.KnownAt surroundings .finished machine))
    (Program.Meets.view ?_) fun found => ?_
  · rintro machine (knows | knows)
    · refine ⟨some migration.planned, ?_, .inl ⟨rfl, knows⟩⟩
      have stands : migration.StandsAt .untouched machine.disk :=
        fun path isWatched => knows path (.inl isWatched)
      rw [planMigration_congr (sameFiles_untouched stands), migration.isPlanned]
    · refine ⟨none, ?_, .inr ⟨rfl, knows⟩⟩
      exact planMigration_finished marked fun path isWatched => knows path (.inl isWatched)
  · rintro machine (⟨rfl, knows⟩ | ⟨rfl, knows⟩)
    · refine Program.Meets.bind _ (meets_executePlanned clear) (fun _ => ?_) machine knows
      exact Program.Meets.finish fun _ holds => holds
    · exact Program.Meets.finish (fun _ holds => holds) machine knows

/-- A run of the plan ends at the last stage, from any stage but one. -/
theorem meets_runMigrations
    (marked : ∃ document, host.parseDocument plan.targetPath migration.next = .ok document ∧
      markerCount document plan.id = 1)
    (reaches : migration.Reaches stage)
    (whole : ∀ front move, stage ≠ .copied front move) :
    Program.Meets (migration.KnownAt surroundings stage)
      (runMigrations host surroundings false [plan]) migration.Passing
      (fun _ => migration.KnownAt surroundings .finished) := by
  refine Program.Meets.bind _ (meets_resume clear marked reaches whole) fun journalResumed => ?_
  refine Program.Meets.bind
    (fun _ => migration.KnownAt surroundings .finished)
    (Program.Meets.bind _ (meets_executePlan clear marked journalResumed) fun result =>
      Program.Meets.finish fun _ holds => holds) fun results => ?_
  exact Program.Meets.finish fun _ holds => holds

end Migration

end OpenAgent.Config
