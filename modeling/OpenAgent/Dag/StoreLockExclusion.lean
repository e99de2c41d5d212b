import OpenAgent.Dag.StoreLock

/-!
# Mutual exclusion of the store lock

A live process relies on the lock files that it has published.  They are taken
from it only by a reclaimer that mistakes them for those of a dead process: an
exclusive open that is not yet written looks like one, and a reclaim mutex may
be moved away on an outdated reading.  As long as neither happens, at most one
live process is inside.
-/

namespace OpenAgent.Dag

open Library

/-- Reclaimers take away only files of dead processes: under the mutex, a lock
without content is not one that a live process is still writing, and the mutex
that is moved away for a dead one is not that of a live process. -/
structure ReclaimsDead (pool : Pool LockWorld LockPoint) (label : LockLabel)
    (_ : Pool LockWorld LockPoint) : Prop where
  lock : ∀ process choice mutex, label = .run process choice →
    pool.points process = .confirm .blank mutex →
    ∀ file, pool.world.fileAt .main = some file → pool.world.written file = false →
      pool.world.alive file.hostPid = false
  mutex : ∀ process choice observed, label = .run process choice →
    pool.points process = .moveAway (.deadMutex observed) →
    ∀ file, pool.world.fileAt .reclaim = some file → pool.world.alive file.hostPid = false

/-- The file of a record. -/
def Holder.file? : Holder → Option LockFile
  | .record file => some file
  | _ => none

namespace Removal

/-- The files that the process relies on in front of the rename. -/
def heldBefore : Removal → LockPath → Option LockFile
  | deadMutex _, _ => none
  | ownMutex mutex _, .reclaim => some mutex
  | ownMutex _ acquired, .main => acquired
  | ownLock file, .main => some file
  | ownLock _, .reclaim => none

/-- The files that it relies on behind the rename. -/
def heldAfter : Removal → LockPath → Option LockFile
  | ownMutex _ acquired, .main => acquired
  | _, _ => none

theorem heldBefore_of_heldAfter {removal : Removal} {path : LockPath}
    (isHeld : removal.heldAfter path = some file) :
    path ≠ removal.path ∧ removal.heldBefore path = some file := by
  rcases removal with observed | ⟨own, _ | acquired⟩ | own <;> cases path <;>
    simp_all [heldAfter, heldBefore, Removal.path]

end Removal

namespace LockPoint

/-- The file at a path that a process relies on. -/
def held : LockPoint → LockPath → Option LockFile
  | .writeMain file, .main | .inside file, .main => some file
  | .writeReclaim _ mutex, .reclaim | .confirm _ mutex, .reclaim
  | .judgeConfirm _ mutex, .reclaim | .replace mutex, .reclaim => some mutex
  | .compare removal, path | .moveAway removal, path => removal.heldBefore path
  | .inspect removal _, path | .putBack removal _, path => removal.heldAfter path
  | _, _ => none

/-- The lock is about to be replaced. -/
def replacing : LockPoint → Bool
  | .judgeConfirm _ _ | .replace _ => true
  | _ => false

/-- The record that was found to belong to a dead process. -/
def judged : LockPoint → Option LockFile
  | .linkReclaim observed | .openReclaim observed | .writeReclaim observed _
  | .confirm observed _ => observed.file?
  | _ => none

def stake (point : LockPoint) : Stake LockPath.reclaim where
  held := point.held
  evicting := point.replacing
  judged := point.judged
  guarded := by
    cases point <;> simp [replacing, held]

end LockPoint

namespace Removal

variable (removal : Removal)

theorem held_afterwards (path : LockPath) :
    removal.afterwards.held path = removal.heldAfter path := by
  rcases removal with observed | ⟨mutex, _ | file⟩ | file <;> cases path <;> rfl

theorem replacing_afterwards : removal.afterwards.replacing = false := by
  rcases removal with observed | ⟨mutex, _ | file⟩ | file <;> rfl

theorem judged_afterwards : removal.afterwards.judged = none := by
  rcases removal with observed | ⟨mutex, _ | file⟩ | file <;> rfl

end Removal

abbrev LocksSound (pool : Pool LockWorld LockPoint) : Prop :=
  AllSound .main LockWorld.toLockTable LockPoint.stake pool

/-- The effect of a move of a process. -/
abbrev MoveEffect (process : Process) (point : LockPoint) (world after : LockWorld)
    (next : LockPoint) : Prop :=
  LockEffect .main process point.stake world.toLockTable after.toLockTable next.stake

section Moves

variable {world : LockWorld}

/-- The end of a removal. -/
theorem MoveEffect.leave (removal : Removal)
    (fewer : ∀ path file, removal.heldAfter path = some file → point.held path = some file) :
    MoveEffect process point world world removal.afterwards := by
  refine .goOn ?_ ?_ ?_
  · intro path file isHeld
    exact fewer path file ((removal.held_afterwards path).symm.trans isHeld)
  · intro isReplacing
    exact absurd (removal.replacing_afterwards.symm.trans isReplacing) nofun
  · intro file isJudged
    exact absurd (removal.judged_afterwards.symm.trans isJudged) nofun

/-- An attempt to publish a file at a path. -/
theorem MoveEffect.attempt (held : ∀ place, lost.held place = none)
    (lostReplacing : lost.replacing = false) (lostJudged : lost.judged = none)
    (takenHeld : ∀ place file, taken.held place = some file →
      place = path ∧ file = world.newFile process)
    (takenReplacing : taken.replacing = false)
    (takenJudged : ∀ file, taken.judged = some file → point.judged = some file)
    (moved : (if (world.fileAt path).isSome then some (world, lost)
      else some (world.publish path process isWritten, taken)) = some (after, next)) :
    MoveEffect process point world after next := by
  split at moved
  next =>
    cases moved
    exact .idle held lostReplacing lostJudged
  next free =>
    cases moved
    refine ⟨?_, fun file isJudged => .inl (takenJudged file isJudged)⟩
    exact .published (by simpa using free) rfl takenHeld takenReplacing

theorem file_of_readLockHolder (isThere : world.readLockHolder path ≠ .missing) :
    ∃ file, world.fileAt path = some file ∧ world.contentOf file = world.readLockHolder path := by
  unfold LockWorld.readLockHolder at isThere ⊢
  split
  next isNone => simp [isNone] at isThere
  next file isFile => exact ⟨file, isFile, rfl⟩

/-- The lock that was observed is still there, and its process is dead. -/
theorem MoveEffect.confirmed (isThere : world.readLockHolder .main ≠ .missing)
    (dead : ∀ file, (world.readLockHolder .main).file? = some file →
      world.alive file.hostPid = false)
    (abandoned : world.readLockHolder .main = .blank →
      ∀ file, world.fileAt .main = some file → world.written file = false →
        world.alive file.hostPid = false) :
    MoveEffect process (.confirm (world.readLockHolder .main) mutex) world world
      (.judgeConfirm (world.readLockHolder .main) mutex) := by
  obtain ⟨file, isFile, isContent⟩ := file_of_readLockHolder isThere
  refine ⟨.found ?_ isFile ?_, fun _ isJudged => by cases isJudged⟩
  · rintro (_ | _) held isHeld <;> cases isHeld
    rfl
  · unfold LockWorld.contentOf at isContent
    split at isContent
    next =>
      apply dead
      rw [← isContent]
      rfl
    next unwritten => exact abandoned isContent.symm file isFile (by simpa using unwritten)

/-- The rename of `removeObservedLock`. -/
theorem MoveEffect.movedAway (isThere : world.fileAt removal.path = some moved)
    (dead : ∀ observed, removal = .deadMutex observed → world.alive moved.hostPid = false) :
    MoveEffect process (.moveAway removal) world (world.remove removal.path)
      (.inspect removal moved) := by
  refine ⟨?_, fun _ isJudged => by cases isJudged⟩
  cases removal with
  | deadMutex observed =>
    exact .reaped isThere (dead observed rfl) (fun path => by cases path <;> rfl) rfl
  | ownMutex mutex acquired =>
    refine .dropped (rfl : _ = some mutex) ?_ rfl
    intro path file isHeld
    exact Removal.heldBefore_of_heldAfter isHeld
  | ownLock file =>
    refine .dropped (rfl : _ = some file) ?_ rfl
    intro path file isHeld
    exact Removal.heldBefore_of_heldAfter isHeld

/-- The judgement of an observed lock in front of the reclaim mutex. -/
theorem MoveEffect.judgedMain
    (moved : lockMove process .proceed (.judgeMain observed) world = some (after, next)) :
    MoveEffect process (.judgeMain observed) world after next := by
  simp only [lockMove] at moved
  split at moved <;> cases moved
  next isGone =>
    refine ⟨.quiet nofun nofun, ?_⟩
    intro file isJudged
    cases observed with
    | missing | blank => cases isJudged
    | record holder =>
      cases isJudged
      exact .inr (by simpa [LockWorld.isGone] using isGone)
  next => exact .idle (fun _ => rfl) rfl rfl

/-- Going on with the own mutex, or with a file of the own. -/
theorem MoveEffect.keeping
    (held : ∀ path file, next.held path = some file → point.held path = some file)
    (replacing : next.replacing = true → point.replacing = true) (judged : next.judged = none) :
    MoveEffect process point world world next := by
  refine .goOn held replacing ?_
  intro file isJudged
  exact absurd (judged.symm.trans isJudged) nofun

/-- Giving the own mutex back without the lock. -/
theorem MoveEffect.giveUp (isHeld : point.held .reclaim = some mutex) :
    MoveEffect process point world world (.compare (.ownMutex mutex none)) := by
  refine .keeping ?_ nofun rfl
  rintro (_ | _) file isOwn <;> cases isOwn
  exact isHeld

/-- The second look at the lock, under the reclaim mutex. -/
theorem MoveEffect.confirms
    (own : Sound .main process (LockPoint.confirm observed mutex).stake world.toLockTable)
    (abandoned : observed = .blank →
      ∀ file, world.fileAt .main = some file → world.written file = false →
        world.alive file.hostPid = false)
    (moved : lockMove process .proceed (.confirm observed mutex) world = some (after, next)) :
    MoveEffect process (.confirm observed mutex) world after next := by
  simp only [lockMove] at moved
  split at moved
  next =>
    cases moved
    exact .giveUp rfl
  next isThere =>
    split at moved
    next isObserved =>
      cases moved
      subst isObserved
      exact .confirmed isThere own.dead abandoned
    next =>
      cases moved
      exact .giveUp rfl

/-- A file that was moved away in error is linked back at a free path. -/
theorem MoveEffect.putBack
    (moved : lockMove process .proceed (.putBack removal file) world = some (after, next)) :
    MoveEffect process (.putBack removal file) world after next := by
  simp only [lockMove] at moved
  split at moved <;> cases moved
  next => exact .leave removal (fun _ _ isHeld => isHeld)
  next free =>
    refine ⟨.restored (by simpa using free) ?_ removal.replacing_afterwards, ?_⟩
    · intro path held isHeld
      exact (removal.held_afterwards path).symm.trans isHeld
    · intro held isJudged
      exact absurd (removal.judged_afterwards.symm.trans isJudged) nofun

theorem lockMove_effect (own : Sound .main process point.stake world.toLockTable)
    (abandoned : ∀ mutex, point = .confirm .blank mutex →
      ∀ file, world.fileAt .main = some file → world.written file = false →
        world.alive file.hostPid = false)
    (deadMutex : ∀ observed, point = .moveAway (.deadMutex observed) →
      ∀ file, world.fileAt .reclaim = some file → world.alive file.hostPid = false)
    (moved : lockMove process choice point world = some (after, next)) :
    MoveEffect process point world after next := by
  have whole := moved
  revert moved
  fun_cases lockMove process choice point world <;> intro moved
  case case2 | case3 | case6 | case7 =>
    refine .attempt (fun _ => rfl) rfl rfl ?_ rfl (by simp [LockPoint.judged]) whole
    rintro (_ | _) file isHeld <;> cases isHeld
    exact ⟨rfl, rfl⟩
  case case11 | case12 => exact .judgedMain whole
  case case13 | case14 | case16 | case17 =>
    refine .attempt (fun _ => rfl) rfl rfl ?_ rfl ?_ whole
    · rintro (_ | _) file isHeld <;> cases isHeld
      exact ⟨rfl, rfl⟩
    · exact fun _ isJudged => isJudged
  case case23 mutex _ | case24 mutex _ | case25 mutex _ _ =>
    refine .confirms own ?_ whole
    intro isBlank
    exact abandoned mutex (by rw [isBlank])
  case case36 | case37 => exact .putBack whole
  all_goals cases moved
  case case1 | case4 | case5 | case9 | case10 | case19 | case20 | case22 =>
    exact .idle (fun _ => rfl) rfl rfl
  case case15 => exact .goOn nofun nofun (fun _ isJudged => isJudged)
  case case8 =>
    refine .goOn ?_ nofun nofun
    rintro (_ | _) held isHeld <;> exact isHeld
  case case18 =>
    refine .goOn ?_ nofun (fun _ isJudged => isJudged)
    rintro (_ | _) held isHeld <;> exact isHeld
  case case21 => exact .idle (fun path => by cases path <;> rfl) rfl rfl
  case case26 =>
    refine .keeping ?_ (fun _ => rfl) rfl
    rintro (_ | _) held isHeld <;> exact isHeld
  case case27 => exact .giveUp rfl
  case case28 =>
    refine ⟨.evicted rfl ?_ ?_ rfl, nofun⟩
    · rintro file ⟨⟩
      rfl
    · rintro (_ | _) file isHeld <;> cases isHeld
      · exact .inl ⟨rfl, rfl⟩
      · exact .inr ⟨nofun, rfl⟩
  case case29 =>
    refine .keeping ?_ nofun rfl
    rintro (_ | _) held isHeld <;> exact isHeld
  case case30 | case35 => exact .keeping (fun _ _ isHeld => isHeld) nofun rfl
  case case31 removal _ | case32 removal _ =>
    exact .leave removal (fun _ _ isHeld => (Removal.heldBefore_of_heldAfter isHeld).2)
  case case33 removal file isThere =>
    refine .movedAway isThere ?_
    rintro observed rfl
    exact deadMutex observed rfl file isThere
  case case34 removal file _ => exact .leave removal (fun _ _ isHeld => isHeld)

end Moves

theorem locksSound_step (pool : Pool LockWorld LockPoint) (label : LockLabel)
    (next : Pool LockWorld LockPoint) (sound : LocksSound pool)
    (reclaims : ReclaimsDead pool label next) (stepped : lockStep pool label = some next) :
    LocksSound next := by
  cases label with
  | crash victim =>
    cases stepped
    exact AllSound.kill sound victim rfl
  | run process choice =>
    simp only [lockStep] at stepped
    split at stepped
    next isAlive =>
      refine AllSound.advance nofun sound isAlive stepped ?_
      intro world point moved
      exact lockMove_effect (sound.each process)
        (fun mutex => reclaims.lock process choice mutex rfl)
        (fun observed => reclaims.mutex process choice observed rfl) moved
    next => cases stepped

theorem locksSound_freeLock : LocksSound freeLock where
  shared := trivial
  each := fun _ => ⟨fun _ => nofun, fun _ => nofun, nofun⟩

/-- At most one live process is inside, in every run in which reclaimers take
away only files of dead processes. -/
theorem withLock_exclusive {labels : List LockLabel} {final : Pool LockWorld LockPoint}
    (reached : execute lockStep freeLock labels = some final)
    (reclaims : EveryStep lockStep ReclaimsDead freeLock labels) {left right : Process}
    {leftFile rightFile : LockFile} (leftAlive : final.world.alive left = true)
    (leftInside : final.points left = .inside leftFile)
    (rightAlive : final.world.alive right = true)
    (rightInside : final.points right = .inside rightFile) : left = right := by
  have sound : LocksSound final :=
    invariant_of_execute locksSound_step locksSound_freeLock reached reclaims
  have leftHeld : (final.points left).held .main = some leftFile := by
    rw [leftInside]
    rfl
  have rightHeld : (final.points right).held .main = some rightFile := by
    rw [rightInside]
    rfl
  exact AllSound.exclusive sound .main leftAlive leftHeld rightAlive rightHeld

/-- Steps of a process, none of them refused. -/
def lockSteps (process : Process) (count : Nat) : List LockLabel :=
  List.replicate count (.run process .proceed)

/-- The first process dies inside, and the second one reclaims its lock. -/
def reclaimRun : List LockLabel :=
  lockSteps 1 2 ++ .crash 1 :: lockSteps 2 11

/-- A step in front of which no reclaimer is about to take a file away. -/
theorem reclaimsDead_of_plain
    (plain : ∀ process choice, label = .run process choice →
      (∀ mutex, pool.points process ≠ .confirm .blank mutex) ∧
        ∀ observed, pool.points process ≠ .moveAway (.deadMutex observed)) :
    ReclaimsDead pool label next where
  lock := fun process choice mutex isLabel isPoint =>
    absurd isPoint ((plain process choice isLabel).1 mutex)
  mutex := fun process choice observed isLabel isPoint =>
    absurd isPoint ((plain process choice isLabel).2 observed)

theorem reclaimsDead_reclaimRun : EveryStep lockStep ReclaimsDead freeLock reclaimRun := by
  iterate 2
    apply EveryStep.cons rfl (reclaimsDead_of_plain
      (by rintro _ _ ⟨⟩; exact ⟨fun _ => nofun, fun _ => nofun⟩))
  apply EveryStep.cons rfl (reclaimsDead_of_plain (by rintro _ _ ⟨⟩))
  iterate 11
    apply EveryStep.cons rfl (reclaimsDead_of_plain
      (by rintro _ _ ⟨⟩; exact ⟨fun _ => nofun, fun _ => nofun⟩))
  trivial

theorem withLock_exclusive_reclaimed :
    ∃ final, execute lockStep freeLock reclaimRun = some final ∧
      final.world.alive 2 = true ∧ final.points 2 = .inside ⟨2, 2⟩ ∧
      ∀ other file, final.world.alive other = true →
        final.points other = .inside file → other = 2 := by
  obtain ⟨final, reached, isAlive, isInside⟩ :
      ∃ final, execute lockStep freeLock reclaimRun = some final ∧ final.world.alive 2 = true ∧
        final.points 2 = .inside ⟨2, 2⟩ := by
    decide +kernel
  refine ⟨final, reached, isAlive, isInside, ?_⟩
  intro other file otherAlive otherInside
  exact withLock_exclusive reached reclaimsDead_reclaimRun otherAlive otherInside isAlive isInside

/-- The first process opens the lock without hard links.  Before it writes, the
second one reads an empty file and reclaims it. -/
def blankRun : List LockLabel :=
  [.run 1 .proceed, .run 1 .refused, .run 1 .proceed] ++ lockSteps 2 11 ++ lockSteps 1 1

theorem not_exclusive_blank :
    ∃ final, execute lockStep freeLock blankRun = some final ∧
      (final.world.alive 1 = true ∧ final.points 1 = .inside ⟨1, 0⟩) ∧
      (final.world.alive 2 = true ∧ final.points 2 = .inside ⟨2, 2⟩) := by
  decide +kernel

/-- The second process dies with the reclaim mutex.  The third one finds it dead
and is overtaken by the fourth, whose new mutex it moves away. -/
example : (execute lockStep freeLock
    (lockSteps 1 2 ++ .crash 1 :: lockSteps 2 5 ++ .crash 2 :: lockSteps 3 8 ++
      lockSteps 4 16 ++ lockSteps 3 1 ++ lockSteps 5 11 ++ lockSteps 4 2)).map
    (fun final => (final.points 4, final.points 5)) = some (.inside ⟨4, 5⟩, .inside ⟨5, 4⟩) := by
  decide

end OpenAgent.Dag
