import OpenAgent.Memory.AcquireLock

/-!
# Mutual exclusion of the memory lock

A contender removes the lock of a dead owner only under the recovery lock, and
checks by a fence that it still owns the recovery lock.  Between the fence and
the removal, another contender may move the recovery file away: it has found an
earlier one dead, and inspects what it has moved only afterwards.  As long as
only recovery files of dead processes are moved away, at most one live process
holds the lock.
-/

namespace OpenAgent.Memory

open Library

/-- The recovery file that is moved to a tombstone is not that of a live
process. -/
def ReapsDead (pool : Pool LockWorld AcquirePoint) (label : AcquireLabel)
    (_ : Pool LockWorld AcquirePoint) : Prop :=
  ∀ process choice snapshot stale, label = .run process choice →
    pool.points process = .renameStale snapshot stale →
    ∀ file, pool.world.fileAt .recovery = some file → pool.world.alive file.hostPid = false

namespace AcquirePoint

/-- The file at a path that a process relies on. -/
def held : AcquirePoint → LockPath → Option LockFile
  | .holding file, .main | .releaseMain file, .main | .unlinkOwn file, .main => some file
  | .readCurrent _ recovery, .recovery | .judgeCurrent _ recovery, .recovery
  | .readFence recovery, .recovery | .unlinkMain recovery, .recovery
  | .releaseRecovery recovery _, .recovery | .unlinkRecovery recovery _, .recovery =>
    some recovery
  | _, _ => none

/-- The lock of a dead owner is about to be removed. -/
def recovering : AcquirePoint → Bool
  | .judgeCurrent _ _ | .readFence _ | .unlinkMain _ => true
  | _ => false

/-- The owner that was found dead. -/
def judged : AcquirePoint → Option LockFile
  | .linkRecovery snapshot _ | .readStale snapshot | .judgeStale snapshot _
  | .renameStale snapshot _ | .inspectMoved snapshot _ _ | .readCurrent snapshot _ =>
    some snapshot
  | _ => none

def stake (point : AcquirePoint) : Stake LockPath.recovery where
  held := point.held
  evicting := point.recovering
  judged := point.judged
  guarded := by
    cases point <;> simp [recovering, held]

end AcquirePoint

abbrev LocksSound (pool : Pool LockWorld AcquirePoint) : Prop :=
  AllSound .main LockWorld.toLockTable AcquirePoint.stake pool

/-- The effect of a move of a process. -/
abbrev MoveEffect (process : Process) (point : AcquirePoint) (world after : LockWorld)
    (next : AcquirePoint) : Prop :=
  LockEffect .main process point.stake world.toLockTable after.toLockTable next.stake

section Moves

variable {process : Process} {point next : AcquirePoint} {world after : LockWorld}
variable {choice : AcquireChoice}
variable {path : LockPath}

theorem publishExclusive_eq_some
    (published : world.publishExclusive path process choice = some after) :
    world.fileAt path = none ∧
      after.toLockTable = world.toLockTable.place path (some (world.newFile process)) := by
  unfold LockWorld.publishExclusive at published
  split at published
  next => cases published
  next free =>
    cases published
    rw [Bool.or_eq_true, not_or] at free
    exact ⟨by simpa using free.2, rfl⟩

theorem readOwner_eq_record (isRead : world.readOwner path choice = .record file) :
    world.fileAt path = some file := by
  unfold LockWorld.readOwner at isRead
  split at isRead
  next => cases isRead
  next =>
    split at isRead
    next => cases isRead
    next found isThere =>
      cases isRead
      exact isThere

theorem dead_of_isProvenDead (isDead : world.isProvenDead file choice = true) :
    world.alive file.hostPid = false := by
  simpa using (Bool.and_eq_true_iff.mp isDead).2

/-- A publication that wins its race. -/
theorem MoveEffect.published (published : world.publishExclusive path process choice = some after)
    (held : ∀ place file, next.held place = some file → place = path ∧ file = world.newFile process)
    (recovering : next.recovering = false)
    (judged : ∀ file, next.judged = some file → point.judged = some file) :
    MoveEffect process point world after next := by
  obtain ⟨free, isAfter⟩ := publishExclusive_eq_some published
  refine ⟨?_, fun file isJudged => .inl (judged file isJudged)⟩
  rw [isAfter]
  exact .published free rfl held recovering

theorem MoveEffect.toLinkMain : MoveEffect process point world world .linkMain :=
  .idle (fun _ => rfl) rfl rfl

theorem MoveEffect.toOutside : MoveEffect process point world world .outside :=
  .idle (fun _ => rfl) rfl rfl

/-- Leaving the recovery with or without its file. -/
theorem MoveEffect.toRelease (isHeld : point.held .recovery = some recovery) :
    MoveEffect process point world world (.releaseRecovery recovery false) := by
  refine .goOn ?_ nofun nofun
  rintro (_ | _) file isOwn <;> cases isOwn
  exact isHeld

theorem MoveEffect.toAfterRecovery (raised : Bool) :
    MoveEffect process point world world (afterRecovery raised) := by
  cases raised with
  | true => exact .toOutside
  | false => exact .toLinkMain

/-- The publication of the lock. -/
theorem MoveEffect.publishesLock
    (moved : acquireMove process choice .linkMain world = some (after, next)) :
    MoveEffect process .linkMain world after next := by
  simp only [acquireMove] at moved
  split at moved
  next =>
    cases moved
    exact .toOutside
  next =>
    split at moved
    next =>
      cases moved
      exact .idle (fun _ => rfl) rfl rfl
    next published =>
      cases moved
      refine .published published ?_ rfl nofun
      rintro (_ | _) file isHeld <;> cases isHeld
      exact ⟨rfl, rfl⟩

/-- The publication of the recovery lock. -/
theorem MoveEffect.publishesRecovery
    (moved : acquireMove process choice (.linkRecovery snapshot retried) world =
      some (after, next)) :
    MoveEffect process (.linkRecovery snapshot retried) world after next := by
  simp only [acquireMove] at moved
  split at moved
  next =>
    cases moved
    cases retried with
    | true => exact .toLinkMain
    | false => exact .goOn nofun nofun (fun _ isJudged => isJudged)
  next published =>
    cases moved
    refine .published published ?_ rfl ?_
    · rintro (_ | _) file isHeld <;> cases isHeld
      exact ⟨rfl, rfl⟩
    · exact fun _ isJudged => isJudged

/-- The rename of a stale recovery lock to a tombstone. -/
theorem MoveEffect.movesAway
    (reapsDead : ∀ file, world.fileAt .recovery = some file → world.alive file.hostPid = false)
    (moved : acquireMove process choice (.renameStale snapshot stale) world = some (after, next)) :
    MoveEffect process (.renameStale snapshot stale) world after next := by
  simp only [acquireMove] at moved
  split at moved
  next =>
    cases moved
    exact .toLinkMain
  next =>
    split at moved
    next =>
      cases moved
      exact .toLinkMain
    next file isThere =>
      cases moved
      refine ⟨?_, fun _ isJudged => .inl isJudged⟩
      exact .reaped isThere (reapsDead file isThere) (fun _ => rfl) rfl

/-- The second look at the lock, under the recovery lock. -/
theorem MoveEffect.confirms
    (own : Sound .main process (AcquirePoint.readCurrent snapshot recovery).stake world.toLockTable)
    (moved : acquireMove process choice (.readCurrent snapshot recovery) world =
      some (after, next)) :
    MoveEffect process (.readCurrent snapshot recovery) world after next := by
  simp only [acquireMove] at moved
  split at moved
  next =>
    cases moved
    exact .toRelease rfl
  next =>
    cases moved
    exact .toRelease rfl
  next current isRead =>
    split at moved
    next isSnapshot =>
      cases moved
      subst isSnapshot
      -- the owner was found dead before, and its file is still there
      refine ⟨.found ?_ (readOwner_eq_record isRead) (own.dead current rfl), nofun⟩
      rintro (_ | _) file isHeld <;> exact isHeld
    next =>
      cases moved
      exact .toRelease rfl

theorem acquireMove_effect (own : Sound .main process point.stake world.toLockTable)
    (reapsDead : ∀ snapshot stale, point = .renameStale snapshot stale →
      ∀ file, world.fileAt .recovery = some file → world.alive file.hostPid = false)
    (moved : acquireMove process choice point world = some (after, next)) :
    MoveEffect process point world after next := by
  have whole := moved
  revert moved
  fun_cases acquireMove process choice point world <;> intro moved
  case case2 | case3 | case4 => exact .publishesLock whole
  case case10 | case11 => exact .publishesRecovery whole
  case case17 | case18 | case19 => exact .movesAway (reapsDead _ _ rfl) whole
  case case24 | case25 | case26 | case27 => exact .confirms own whole
  all_goals cases moved
  case case1 | case5 | case6 | case9 | case12 | case13 | case16 | case22 => exact .toLinkMain
  case case7 | case21 => exact .idle (fun _ => rfl) rfl rfl
  case case8 isDead =>
    refine ⟨.quiet nofun nofun, ?_⟩
    rintro file ⟨⟩
    exact .inr (dead_of_isProvenDead isDead)
  case case14 | case15 | case20 => exact .goOn nofun nofun (fun _ isJudged => isJudged)
  case case23 free => exact ⟨.restored (by simpa using free) nofun rfl, nofun⟩
  case case28 | case30 =>
    refine .goOn ?_ (fun _ => rfl) nofun
    rintro (_ | _) file isHeld <;> exact isHeld
  case case29 | case31 => exact .toRelease rfl
  case case32 =>
    refine ⟨.evicted rfl nofun ?_ rfl, nofun⟩
    rintro (_ | _) file isHeld <;> cases isHeld
    exact .inr ⟨nofun, rfl⟩
  case case33 | case36 | case37 =>
    refine .goOn ?_ nofun nofun
    rintro (_ | _) file isHeld <;> exact isHeld
  case case34 raised _ => exact .toAfterRecovery raised
  case case35 raised => cases raised <;> exact ⟨.dropped rfl nofun rfl, nofun⟩
  case case38 => exact .toOutside
  case case39 => exact ⟨.dropped rfl nofun rfl, nofun⟩

end Moves

theorem locksSound_step (pool : Pool LockWorld AcquirePoint) (label : AcquireLabel)
    (next : Pool LockWorld AcquirePoint) (sound : LocksSound pool)
    (reapsDead : ReapsDead pool label next) (stepped : acquireStep pool label = some next) :
    LocksSound next := by
  cases label with
  | crash victim =>
    cases stepped
    exact AllSound.kill sound victim rfl
  | run process choice =>
    simp only [acquireStep] at stepped
    split at stepped
    next isAlive =>
      refine AllSound.advance nofun sound isAlive stepped ?_
      intro world point moved
      exact acquireMove_effect (sound.each process)
        (fun snapshot stale => reapsDead process choice snapshot stale rfl) moved
    next => cases stepped

theorem locksSound_freeLock : LocksSound freeLock where
  shared := trivial
  each := fun _ => ⟨fun _ => nofun, fun _ => nofun, nofun⟩

/-- At most one live process holds the lock, in every run in which only recovery
files of dead processes are moved to a tombstone. -/
theorem acquireLock_exclusive {labels : List AcquireLabel} {final : Pool LockWorld AcquirePoint}
    (reached : execute acquireStep freeLock labels = some final)
    (reapsDead : EveryStep acquireStep ReapsDead freeLock labels) {left right : Process}
    {leftFile rightFile : LockFile} (leftAlive : final.world.alive left = true)
    (leftHolds : final.points left = .holding leftFile)
    (rightAlive : final.world.alive right = true)
    (rightHolds : final.points right = .holding rightFile) : left = right := by
  have sound : LocksSound final :=
    invariant_of_execute locksSound_step locksSound_freeLock reached reapsDead
  have leftHeld : (final.points left).held .main = some leftFile := by
    rw [leftHolds]
    rfl
  have rightHeld : (final.points right).held .main = some rightFile := by
    rw [rightHolds]
    rfl
  exact AllSound.exclusive sound .main leftAlive leftHeld rightAlive rightHeld

/-- Steps of a process, none of them denied. -/
def acquireSteps (process : Process) (count : Nat) : List AcquireLabel :=
  List.replicate count (.run process .proceed)

/-- The owner and the first contender, who has the recovery lock, are dead. -/
def deadRun : List AcquireLabel :=
  acquireSteps 1 2 ++ .crash 1 :: acquireSteps 2 5 ++ [.crash 2]

/-- The second contender takes over both locks. -/
def recoverRun : List AcquireLabel :=
  deadRun ++ acquireSteps 3 17

theorem reapsDead_of_plain
    (plain : ∀ process choice, label = .run process choice →
      ∀ snapshot stale, pool.points process ≠ .renameStale snapshot stale) :
    ReapsDead pool label next :=
  fun process choice snapshot stale isLabel isPoint =>
    absurd isPoint (plain process choice isLabel snapshot stale)

theorem reapsDead_recoverRun : EveryStep acquireStep ReapsDead freeLock recoverRun := by
  iterate 2 apply EveryStep.cons rfl (reapsDead_of_plain (by nofun))
  apply EveryStep.cons rfl (reapsDead_of_plain (by rintro _ _ ⟨⟩))
  iterate 5 apply EveryStep.cons rfl (reapsDead_of_plain (by nofun))
  apply EveryStep.cons rfl (reapsDead_of_plain (by rintro _ _ ⟨⟩))
  iterate 7 apply EveryStep.cons rfl (reapsDead_of_plain (by rintro _ _ ⟨⟩ _ _; nofun))
  refine EveryStep.cons rfl ?_ ?_
  · rintro _ _ _ _ ⟨⟩ _ file isThere
    cases isThere
    rfl
  iterate 9 apply EveryStep.cons rfl (reapsDead_of_plain (by rintro _ _ ⟨⟩ _ _; nofun))
  trivial

theorem acquireLock_exclusive_recovered :
    ∃ final, execute acquireStep freeLock recoverRun = some final ∧
      final.world.alive 3 = true ∧ final.points 3 = .holding ⟨3, 3⟩ ∧
      ∀ other file, final.world.alive other = true →
        final.points other = .holding file → other = 3 := by
  obtain ⟨final, reached, isAlive, isHolding⟩ :
      ∃ final, execute acquireStep freeLock recoverRun = some final ∧ final.world.alive 3 = true ∧
        final.points 3 = .holding ⟨3, 3⟩ := by
    decide +kernel
  refine ⟨final, reached, isAlive, isHolding, ?_⟩
  intro other file otherAlive otherHolds
  exact acquireLock_exclusive reached reapsDead_recoverRun otherAlive otherHolds isAlive isHolding

/-- The third process finds the recovery lock dead and is overtaken by the fourth,
whose new recovery file it moves away when that one has passed its fence.  The
fifth takes the lock, which the fourth then removes. -/
def overtakenRun : List AcquireLabel :=
  deadRun ++ acquireSteps 3 7 ++ acquireSteps 4 13 ++ acquireSteps 3 1 ++
    acquireSteps 5 12 ++ acquireSteps 4 3

theorem not_exclusive_overtaken :
    ∃ final, execute acquireStep freeLock overtakenRun = some final ∧
      (final.world.alive 4 = true ∧ final.points 4 = .holding ⟨4, 5⟩) ∧
      (final.world.alive 5 = true ∧ final.points 5 = .holding ⟨5, 4⟩) := by
  decide +kernel

end OpenAgent.Memory
