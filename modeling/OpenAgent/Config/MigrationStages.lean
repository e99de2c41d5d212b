import OpenAgent.Config.MigrationPlanning

/-!
# The stages of a migration

Between two of its writes a migration is at one of a few stages: nothing was done, the
journal is written, the target is written, some moves are recorded, one more move is made
but not recorded, all is done.  A move across devices adds one more, at which its source has
been copied and not yet removed.
-/

namespace OpenAgent.Config

open Library

def Files.move (files : Files) (move : MigrationBackupMove) : Files :=
  (files.set move.fromPath none).set move.toPath (files move.fromPath)

def Files.moveAll (files : Files) (moves : List MigrationBackupMove) : Files :=
  moves.foldl Files.move files

/-- No path is met twice. -/
structure Distinct (moves : List MigrationBackupMove) : Prop where
  sources : (moves.map (·.fromPath)).Nodup
  destinations : (moves.map (·.toPath)).Nodup
  apart : ∀ move ∈ moves, ∀ other ∈ moves, move.toPath ≠ other.fromPath

theorem Distinct.tail (distinct : Distinct (move :: moves)) : Distinct moves where
  sources := (List.nodup_cons.mp distinct.sources).2
  destinations := (List.nodup_cons.mp distinct.destinations).2
  apart other member another alsoMember :=
    distinct.apart other (List.mem_cons_of_mem move member) another
      (List.mem_cons_of_mem move alsoMember)

theorem Distinct.front {front : List MigrationBackupMove} (distinct : Distinct (front ++ rest)) :
    Distinct front where
  sources := by
    have unique := distinct.sources
    rw [List.map_append] at unique
    exact unique.of_append_left
  destinations := by
    have unique := distinct.destinations
    rw [List.map_append] at unique
    exact unique.of_append_left
  apart other member another alsoMember :=
    distinct.apart other (List.mem_append_left rest member) another
      (List.mem_append_left rest alsoMember)

theorem Files.move_of_ne {move : MigrationBackupMove} (notFrom : path ≠ move.fromPath)
    (notTo : path ≠ move.toPath) (files : Files) : files.move move path = files path := by
  rw [Files.move, Files.set_of_ne notTo, Files.set_of_ne notFrom]

theorem Files.moveAll_of_notMem (notFrom : ∀ move ∈ moves, path ≠ move.fromPath)
    (notTo : ∀ move ∈ moves, path ≠ move.toPath) (files : Files) :
    files.moveAll moves path = files path := by
  induction moves generalizing files with
  | nil => rfl
  | cons move moves ih =>
    change (files.move move).moveAll moves path = _
    rw [ih (fun other member => notFrom other (List.mem_cons_of_mem move member))
        (fun other member => notTo other (List.mem_cons_of_mem move member)),
      Files.move_of_ne (notFrom move List.mem_cons_self) (notTo move List.mem_cons_self)]

/-- Behind the moves every backup has what its source had, and the source is gone. -/
theorem Files.moveAll_of_mem (distinct : Distinct moves) {move : MigrationBackupMove}
    (isMove : move ∈ moves) (files : Files) :
    files.moveAll moves move.toPath = files move.fromPath ∧
      files.moveAll moves move.fromPath = none := by
  induction moves generalizing files with
  | nil => cases isMove
  | cons first moves ih =>
    change (files.move first).moveAll moves _ = _ ∧ (files.move first).moveAll moves _ = _
    obtain ⟨firstFrom, _⟩ := List.nodup_cons.mp distinct.sources
    obtain ⟨firstTo, _⟩ := List.nodup_cons.mp distinct.destinations
    have selfApart := distinct.apart first List.mem_cons_self
    rcases List.mem_cons.mp isMove with rfl | isLater
    · have toLater : ∀ other ∈ moves, move.toPath ≠ other.fromPath :=
        fun other member => selfApart other (List.mem_cons_of_mem move member)
      have fromLater : ∀ other ∈ moves, move.fromPath ≠ other.toPath := fun other member same =>
        distinct.apart other (List.mem_cons_of_mem move member) move List.mem_cons_self same.symm
      have notLaterTo : ∀ other ∈ moves, move.toPath ≠ other.toPath := fun other member same =>
        firstTo (List.mem_map.mpr ⟨other, member, same.symm⟩)
      have notLaterFrom : ∀ other ∈ moves, move.fromPath ≠ other.fromPath :=
        fun other member same => firstFrom (List.mem_map.mpr ⟨other, member, same.symm⟩)
      constructor
      · rw [Files.moveAll_of_notMem toLater notLaterTo, Files.move, Files.set_self]
      · rw [Files.moveAll_of_notMem notLaterFrom fromLater, Files.move,
          Files.set_of_ne (selfApart move List.mem_cons_self).symm, Files.set_self]
    · have notFirstFrom : move.fromPath ≠ first.fromPath := fun same =>
        firstFrom (List.mem_map.mpr ⟨move, isLater, same⟩)
      have notFirstTo : move.fromPath ≠ first.toPath := (selfApart move isMove).symm
      obtain ⟨atTo, atFrom⟩ := ih distinct.tail isLater (files.move first)
      exact ⟨by rw [atTo, Files.move_of_ne notFirstFrom notFirstTo], atFrom⟩

theorem Files.moveAll_concat (files : Files) (move : MigrationBackupMove) :
    files.moveAll (front ++ [move]) = (files.moveAll front).move move := by
  simp [Files.moveAll]

/-- The journal is no target. -/
theorem targetPath_ne_of_writerInput (isScope : writerInput homeDir targetPath = .ok scope) :
    targetPath ≠ migrationJournalPath homeDir := by
  intro same
  have name : isConfigName (basename (migrationJournalPath homeDir)) = false := by
    have isName : basename (migrationJournalPath homeDir) = unitsOf ".migration-journal.json" := by
      rw [basename, migrationJournalPath, List.reverse_append, List.takeWhile_append]
      rw [if_neg (by decide +kernel)]
      decide +kernel
    rw [isName]
    decide +kernel
  rw [writerInput, same, name] at isScope
  simp at isScope

/-- What an uninterrupted run of a plan computes from the disk where it starts. -/
structure Migration (host : Host) (plan : MigrationPlan) (start : Disk) where
  planned : Planned
  scope : ConfigScope
  content : Content
  next : Content
  isPlanned : host.planMigration plan start = .ok (some planned)
  noJournal : mapGet start (migrationJournalPath host.homeDir) = none
  isScope : writerInput host.homeDir plan.targetPath = .ok scope
  reads : host.currentContent scope plan.targetPath start = .ok content
  edited : host.applyEdits content planned.edits = .ok next

namespace Migration

section

variable (migration : Migration host plan start)

def moves : List MigrationBackupMove :=
  migration.planned.journal.backupMoves

/-- The journal with some moves recorded. -/
def recordedJournal (front : List MigrationBackupMove) : MigrationJournal :=
  { migration.planned.journal with
    targetWritten := true
    completedMoves := front.map (·.fromPath) }

end

open Classical in
/-- The files that the plan watches, where it starts. -/
noncomputable def base (_ : Migration host plan start) : Files :=
  fun path => if plan.Watches host.homeDir path then mapGet start path else none

section

variable (migration : Migration host plan start)

/-- The files with a journal and a target, behind some moves. -/
noncomputable def files (journal target : Option Content) (moved : List MigrationBackupMove) :
    Files :=
  ((migration.base.moveAll moved).set plan.targetPath target).set
    (migrationJournalPath host.homeDir) journal

theorem sound : migration.planned.Sound host plan start :=
  sound_of_planMigration migration.isPlanned

theorem distinct : Distinct migration.moves where
  sources := migration.sound.sources
  destinations := migration.sound.moves.destinations
  apart move member other alsoMember same :=
    migration.sound.moves.notSource move member (List.mem_map.mpr ⟨other, alsoMember, same.symm⟩)

end

section

variable (migration : Migration host plan start)
include migration

theorem watches_from (isMove : move ∈ migration.moves) : plan.Watches host.homeDir move.fromPath :=
  .inr (.inr (.inl (migration.sound.isSource move isMove)))

theorem watches_to (isMove : move ∈ migration.moves) : plan.Watches host.homeDir move.toPath :=
  .inr (.inr (.inr (migration.sound.isCandidate move isMove)))

theorem base_of_watches (isWatched : plan.Watches host.homeDir path) :
    migration.base path = mapGet start path := by
  rw [base, if_pos isWatched]

end

theorem targetPath_ne (migration : Migration host plan start) :
    plan.targetPath ≠ migrationJournalPath host.homeDir :=
  targetPath_ne_of_writerInput migration.isScope

/-- The paths of a move are neither the target nor the journal. -/
theorem move_apart (migration : Migration host plan start) (isMove : move ∈ migration.moves) :
    (move.fromPath ≠ plan.targetPath ∧ move.toPath ≠ plan.targetPath) ∧
      move.fromPath ≠ migrationJournalPath host.homeDir ∧
        move.toPath ≠ migrationJournalPath host.homeDir := by
  have fromSafe := migration.sound.safe move isMove
  have toSafe := migration.sound.moves.notProtected move isMove
  simp only [Host.protectedPaths, List.mem_cons, not_or] at fromSafe
  simp only [Host.protectedPaths, List.mem_cons, not_or] at toSafe
  exact ⟨⟨fromSafe.1, toSafe.1⟩, fromSafe.2.1, toSafe.2.1⟩

variable (migration : Migration host plan start)
include migration

theorem files_set_journal (journal other target : Option Content)
    (moved : List MigrationBackupMove) :
    (migration.files journal target moved).set (migrationJournalPath host.homeDir) other =
      migration.files other target moved := by
  funext path
  unfold files Files.set
  split <;> rfl

theorem files_set_target (journal target other : Option Content)
    (moved : List MigrationBackupMove) :
    (migration.files journal target moved).set plan.targetPath other =
      migration.files journal other moved := by
  funext path
  have differs := migration.targetPath_ne
  by_cases isTarget : path = plan.targetPath
  · subst isTarget
    rw [Files.set_self, files, Files.set_of_ne differs, Files.set_self]
  · rw [Files.set_of_ne isTarget]
    by_cases isJournal : path = migrationJournalPath host.homeDir
    · rw [isJournal, files, files, Files.set_self, Files.set_self]
    · rw [files, files, Files.set_of_ne isJournal, Files.set_of_ne isJournal,
        Files.set_of_ne isTarget, Files.set_of_ne isTarget]

theorem files_of_ne (notTarget : path ≠ plan.targetPath)
    (notJournal : path ≠ migrationJournalPath host.homeDir) (journal target : Option Content)
    (moved : List MigrationBackupMove) :
    migration.files journal target moved path = migration.base.moveAll moved path := by
  rw [files, Files.set_of_ne notJournal, Files.set_of_ne notTarget]

variable (split : migration.moves = front ++ move :: rest)
include split

variable (journal target : Option Content)

theorem files_move :
    (migration.files journal target front).move move =
      migration.files journal target (front ++ [move]) := by
  have isMove : move ∈ migration.moves := by simp [split]
  obtain ⟨⟨fromTarget, toTarget⟩, fromJournal, toJournal⟩ := migration.move_apart isMove
  funext path
  by_cases isJournal : path = migrationJournalPath host.homeDir
  · rw [isJournal, Files.move_of_ne fromJournal.symm toJournal.symm, files, files,
      Files.set_self, Files.set_self]
  · by_cases isTarget : path = plan.targetPath
    · have differs := migration.targetPath_ne
      rw [isTarget, Files.move_of_ne fromTarget.symm toTarget.symm, files, files,
        Files.set_of_ne differs, Files.set_of_ne differs, Files.set_self, Files.set_self]
    · rw [migration.files_of_ne isTarget isJournal, Files.moveAll_concat, Files.move, Files.move,
        migration.files_of_ne fromTarget fromJournal]
      unfold Files.set
      split
      · rfl
      · split
        · rfl
        · exact migration.files_of_ne isTarget isJournal _ _ _

/-- The source that is moved next is there, and its backup is not. -/
theorem files_next :
    (∃ content, migration.files journal target front move.fromPath = some content ∧
      mapGet start move.fromPath = some content) ∧
        migration.files journal target front move.toPath = none := by
  have isMove : move ∈ migration.moves := by simp [split]
  obtain ⟨⟨fromTarget, toTarget⟩, fromJournal, toJournal⟩ := migration.move_apart isMove
  have distinct := migration.distinct
  have inMoves : ∀ other ∈ front, other ∈ migration.moves := by
    intro other member
    rw [split]
    exact List.mem_append_left _ member
  have uniqueFrom := distinct.sources
  have uniqueTo := distinct.destinations
  rw [split, List.map_append, List.nodup_append] at uniqueFrom uniqueTo
  have fromBefore : ∀ other ∈ front, move.fromPath ≠ other.fromPath := fun other member same =>
    uniqueFrom.2.2 _ (List.mem_map_of_mem member) _ List.mem_cons_self same.symm
  have toBefore : ∀ other ∈ front, move.toPath ≠ other.toPath := fun other member same =>
    uniqueTo.2.2 _ (List.mem_map_of_mem member) _ List.mem_cons_self same.symm
  have fromNotTo : ∀ other ∈ front, move.fromPath ≠ other.toPath := fun other member same =>
    distinct.apart other (inMoves other member) move isMove same.symm
  have toNotFrom : ∀ other ∈ front, move.toPath ≠ other.fromPath := fun other member =>
    distinct.apart move isMove other (inMoves other member)
  constructor
  · obtain ⟨content, isContent⟩ :=
      Option.isSome_iff_exists.mp (migration.sound.present move isMove)
    refine ⟨content, ?_, isContent⟩
    rw [migration.files_of_ne fromTarget fromJournal, Files.moveAll_of_notMem fromBefore fromNotTo,
      migration.base_of_watches (migration.watches_from isMove), isContent]
  · rw [migration.files_of_ne toTarget toJournal, Files.moveAll_of_notMem toNotFrom toBefore,
      migration.base_of_watches (migration.watches_to isMove)]
    have free := migration.sound.moves.free move isMove
    rw [Disk.exists] at free
    simpa using free

end Migration

end OpenAgent.Config
