import OpenAgent.Team.TaskClaim

/-!
# Exclusive claims

A live call under the lock owns the lock file as long as no other call removes
it, and a call removes the file of another only after finding its owner dead.
The finding may be outdated when the file is removed; as long as it is not, at
most one call succeeds.
-/

namespace OpenAgent.Team

open Library

namespace ClaimPoint

/-- The call has created the lock and not yet released it. -/
def inside : ClaimPoint → Bool
  | .writeOwner | .readInside | .writeTask | .release _ => true
  | _ => false

/-- The creator of the lock that was found stale and is removed next. -/
def reaping : ClaimPoint → Option Process
  | .reap judged => some judged
  | _ => none

/-- The call has written the task. -/
def hasClaimed : ClaimPoint → Bool
  | .release succeeded | .finished succeeded => succeeded
  | _ => false

end ClaimPoint

/-- A call that finds an owner gone is right, and removes only the lock it has
read. -/
structure ReapsWhatItJudged (pidOf : Process → Nat) (pool : Pool ClaimWorld ClaimPoint)
    (label : ClaimLabel) (_ : Pool ClaimWorld ClaimPoint) : Prop where
  accurate : ∀ process expired, label = .run process (.owner true expired) →
    ∀ lock, pool.world.lock = some lock → pool.world.alive (pidOf lock.creator) = false
  same : ∀ process choice judged, label = .run process choice →
    (pool.points process).reaping = some judged →
    ∀ lock, pool.world.lock = some lock → lock.creator = judged

/-- The effect of a move. -/
inductive ClaimEffect (process : Process) : ClaimPoint → ClaimWorld → ClaimWorld → ClaimPoint → Prop
  /-- Outside the lock, nothing changes. -/
  | outside {point next world} (outside : next.inside = false) (nothing : next.reaping = none)
      (unclaimed : next.hasClaimed = false) : ClaimEffect process point world world next
  | judged {point world lock} (isLock : world.lock = some lock) :
      ClaimEffect process point world world (.reap lock.creator)
  | reaped {world} (judged : Process) :
      ClaimEffect process (.reap judged) world { world with lock := none } .openLock
  | created {world} (free : world.lock = none) :
      ClaimEffect process .openLock world { world with lock := some ⟨process, false⟩ } .writeOwner
  | wroteOwner {world lock} (isLock : world.lock = some lock) (own : lock.creator = process) :
      ClaimEffect process .writeOwner world { world with lock := some ⟨process, true⟩ } .readInside
  | lostOwner {world} (lost : ∀ lock, world.lock = some lock → lock.creator ≠ process) :
      ClaimEffect process .writeOwner world world .readInside
  | readPending {world} (pending : world.status = .pending) :
      ClaimEffect process .readInside world world .writeTask
  | refused {world} : ClaimEffect process .readInside world world (.release false)
  | claimed {world} : ClaimEffect process .writeTask world
        { world with status := .claimed, owner := some process } (.release true)
  | released {world} (succeeded : Bool) :
      ClaimEffect process (.release succeeded) world { world with lock := none }
        (.finished succeeded)
  | stuck {world} (succeeded : Bool) :
      ClaimEffect process (.release succeeded) world world (.finished succeeded)

section Moves

theorem effect_of_detect (outside : fresh.inside = false) (nothing : fresh.reaping = none)
    (unclaimed : fresh.hasClaimed = false)
    (detected : detectStaleLock pidOf world gone expired .reap fresh = some (after, next)) :
    ClaimEffect process point world after next := by
  revert detected
  fun_cases detectStaleLock pidOf world gone expired .reap fresh <;> rintro ⟨⟩
  case case2 lock isLock _ _ =>
    split
    next => exact .judged isLock
    next => exact .outside outside nothing unclaimed
  all_goals exact .outside outside nothing unclaimed

theorem gone_of_detect (nothing : fresh.reaping = none)
    (detected : detectStaleLock pidOf world gone expired .reap fresh = some (after, next))
    (reaps : next.reaping ≠ none) : gone = true := by
  by_contra notGone
  apply reaps
  rw [Bool.not_eq_true] at notGone
  subst notGone
  revert detected
  fun_cases detectStaleLock pidOf world false expired .reap fresh <;> rintro ⟨⟩ <;> exact nothing

section

variable (moved : claimMove pidOf process choice point world = some (after, next))
include moved

/-- A call that turns to removing a lock has found its owner gone. -/
theorem owner_of_reaping (reaps : next.reaping ≠ none) :
    ∃ expired, choice = .owner true expired := by
  revert moved
  fun_cases claimMove pidOf process choice point world <;> intro moved
  case case4 gone expired | case15 gone expired =>
    exact ⟨expired, by rw [gone_of_detect rfl moved reaps]⟩
  all_goals
    exact absurd (by cases moved <;> rfl) reaps

theorem claimMove_effect : ClaimEffect process point world after next := by
  revert moved
  fun_cases claimMove pidOf process choice point world <;> intro moved
  case case4 | case15 => exact effect_of_detect rfl rfl rfl moved
  all_goals cases moved
  case case5 judged => exact .reaped judged
  case case10 free => exact .created (by simpa using free)
  case case12 lock isLock own => exact .wroteOwner isLock own
  case case13 lock isLock foreign =>
    refine .lostOwner fun other isOther => ?_
    rw [isLock] at isOther
    cases isOther
    exact foreign
  case case14 isNone =>
    refine .lostOwner fun other isOther => ?_
    rw [isNone] at isOther
    cases isOther
  case case16 readable => exact .readPending (by simpa using (Bool.and_eq_true_iff.mp readable).1)
  case case17 => exact .refused
  case case18 => exact .claimed
  case case19 succeeded => exact .released succeeded
  case case20 succeeded => exact .stuck succeeded
  all_goals exact .outside rfl rfl rfl

end

/-- What is removed next is the lock that is there. -/
theorem ClaimEffect.lock_of_reaping {judged : Process}
    (effect : ClaimEffect process point world after next) (reaps : next.reaping = some judged) :
    ∃ lock, world.lock = some lock ∧ lock.creator = judged := by
  cases effect with
  | outside outside nothing unclaimed =>
    rw [nothing] at reaps
    cases reaps
  | @judged _ _ lock isLock =>
    cases reaps
    exact ⟨lock, isLock, rfl⟩
  | _ => cases reaps

end Moves

/-- What a call at a point relies on. -/
structure CallSound (pidOf : Process → Nat) (process : Process) (point : ClaimPoint)
    (world : ClaimWorld) : Prop where
  holds : world.alive (pidOf process) = true → point.inside = true →
    ∃ written, world.lock = some ⟨process, written⟩
  dead : ∀ judged, point.reaping = some judged → world.alive (pidOf judged) = false
  pending : world.alive (pidOf process) = true → point = .writeTask → world.status = .pending
  claimed : point.hasClaimed = true → world.status ≠ .pending ∧ world.owner = some process

/-- The assertions of all calls. -/
abbrev Exclusive (pidOf : Process → Nat) (pool : Pool ClaimWorld ClaimPoint) : Prop :=
  pool.Holds (fun _ => True) (CallSound pidOf)

section Steps

theorem callSound_of_outside (outside : point.inside = false) (nothing : point.reaping = none)
    (unclaimed : point.hasClaimed = false) : CallSound pidOf process point world where
  holds := by
    intro _ inside
    rw [outside] at inside
    cases inside
  dead := by
    intro judged reaps
    rw [nothing] at reaps
    cases reaps
  pending := by
    rintro _ rfl
    cases outside
  claimed := by
    intro hasClaimed
    rw [unclaimed] at hasClaimed
    cases hasClaimed

/-- A change of the lock disturbs only a live call that owns it. -/
theorem callSound_of_lock
    (unowned : world.alive (pidOf process) = true → point.inside = true →
      ∀ written, world.lock ≠ some ⟨process, written⟩)
    (sound : CallSound pidOf process point world) :
    CallSound pidOf process point { world with lock := lock } where
  __ := sound
  holds := by
    intro isAlive inside
    obtain ⟨written, isLock⟩ := sound.holds isAlive inside
    exact absurd isLock (unowned isAlive inside written)

theorem callSound_of_crash (sound : CallSound pidOf process point world) :
    CallSound pidOf process point
      { world with alive := Function.update world.alive pid false } := by
  have before : ∀ other, Function.update world.alive pid false other = true →
      world.alive other = true := by
    intro other isAlive
    by_cases same : other = pid
    · simp [same] at isAlive
    · simpa [same] using isAlive
  refine ⟨fun isAlive => sound.holds (before _ isAlive), ?_,
    fun isAlive => sound.pending (before _ isAlive), sound.claimed⟩
  intro judged reaps
  rw [Bool.eq_false_iff]
  intro isAlive
  have isDead := sound.dead judged reaps
  rw [before _ isAlive] at isDead
  cases isDead

/-- A call under the lock that has neither read nor written the task. -/
theorem callSound_of_plain (isOwn : ∃ written, world.lock = some ⟨process, written⟩)
    (nothing : point.reaping = none) (notWriting : point ≠ .writeTask)
    (unclaimed : point.hasClaimed = false) : CallSound pidOf process point world where
  holds := fun _ _ => isOwn
  dead := by
    intro judged reaps
    rw [nothing] at reaps
    cases reaps
  pending := fun _ isWriting => absurd isWriting notWriting
  claimed := by
    intro hasClaimed
    rw [unclaimed] at hasClaimed
    cases hasClaimed

theorem callSound_of_finished
    (claimed : succeeded = true → world.status ≠ .pending ∧ world.owner = some process) :
    CallSound pidOf process (.finished succeeded) world where
  holds := fun _ inside => nomatch inside
  dead := fun _ reaps => nomatch reaps
  pending := fun _ isWriting => nomatch isWriting
  claimed := claimed

section

variable (effect : ClaimEffect process start world after next)
include effect

/-- The mover can rely on what it has established. -/
theorem ClaimEffect.own (own : CallSound pidOf process start world)
    (isAlive : world.alive (pidOf process) = true)
    (accurate : ∀ judged, next.reaping = some judged → world.alive (pidOf judged) = false) :
    CallSound pidOf process next after := by
  cases effect with
  | outside outside nothing unclaimed => exact callSound_of_outside outside nothing unclaimed
  | judged isLock =>
    exact
      { holds := fun _ inside => nomatch inside
        dead := accurate
        pending := fun _ isWriting => nomatch isWriting
        claimed := fun hasClaimed => nomatch hasClaimed }
  | reaped judged => exact callSound_of_outside rfl rfl rfl
  | created free => exact callSound_of_plain ⟨false, rfl⟩ rfl nofun rfl
  | wroteOwner isLock isOwn => exact callSound_of_plain ⟨true, rfl⟩ rfl nofun rfl
  | lostOwner lost =>
    obtain ⟨written, isLock⟩ := own.holds isAlive rfl
    exact absurd rfl (lost _ isLock)
  | readPending pending =>
    exact
      { holds := fun isAlive _ => own.holds isAlive rfl
        dead := fun _ reaps => nomatch reaps
        pending := fun _ _ => pending
        claimed := fun hasClaimed => nomatch hasClaimed }
  | refused => exact callSound_of_plain (own.holds isAlive rfl) rfl nofun rfl
  | claimed =>
    exact
      { holds := fun isAlive _ => own.holds isAlive rfl
        dead := fun _ reaps => nomatch reaps
        pending := fun _ isWriting => nomatch isWriting
        claimed := fun _ => ⟨nofun, rfl⟩ }
  | released succeeded | stuck succeeded => exact callSound_of_finished own.claimed

/-- No call but the mover loses what it relies on. -/
theorem ClaimEffect.others (own : CallSound pidOf process start world)
    (isAlive : world.alive (pidOf process) = true) (same : ∀ judged, start.reaping = some judged →
      ∀ lock, world.lock = some lock → lock.creator = judged) (differs : other ≠ process)
    (sound : CallSound pidOf other point world) : CallSound pidOf other point after := by
  have unowned : ∀ {lock : ClaimLock}, world.lock = some lock → lock.creator = process →
      ∀ written, world.lock ≠ some ⟨other, written⟩ := by
    intro lock isLock isOwn written isOther
    rw [isLock] at isOther
    cases isOther
    exact differs isOwn
  cases effect with
  | outside outside nothing unclaimed | judged isLock => exact sound
  | reaped judged =>
    refine callSound_of_lock ?_ sound
    intro otherAlive _ written isLock
    have isJudged : other = judged := same judged rfl _ isLock
    rw [isJudged, own.dead judged rfl] at otherAlive
    cases otherAlive
  | created free =>
    refine callSound_of_lock ?_ sound
    intro _ _ written isLock
    rw [free] at isLock
    cases isLock
  | wroteOwner isLock isOwn => exact callSound_of_lock (fun _ _ => unowned isLock isOwn) sound
  | lostOwner lost | readPending pending | refused => exact sound
  | claimed =>
    obtain ⟨written, isLock⟩ := own.holds isAlive rfl
    refine ⟨sound.holds, sound.dead, ?_, ?_⟩
    · intro otherAlive isWriting
      obtain ⟨_, isOther⟩ := sound.holds otherAlive (by rw [isWriting]; rfl)
      exact absurd isOther (unowned isLock rfl _)
    · intro hasClaimed
      exact absurd (own.pending isAlive rfl) (sound.claimed hasClaimed).1
  | released succeeded =>
    obtain ⟨written, isLock⟩ := own.holds isAlive rfl
    exact callSound_of_lock (fun _ _ => unowned isLock rfl) sound
  | stuck succeeded => exact sound

end

theorem exclusive_step (pool : Pool ClaimWorld ClaimPoint) (label : ClaimLabel)
    (next : Pool ClaimWorld ClaimPoint) (exclusive : Exclusive pidOf pool)
    (judges : ReapsWhatItJudged pidOf pool label next)
    (stepped : claimStep pidOf pool label = some next) : Exclusive pidOf next := by
  cases label with
  | crash pid =>
    cases stepped
    exact ⟨trivial, fun process => callSound_of_crash (exclusive.each process)⟩
  | run process choice =>
    simp only [claimStep] at stepped
    split at stepped
    next isAlive =>
      apply exclusive.advance stepped
      intro after point moved
      have own := exclusive.each process
      have effect := claimMove_effect moved
      refine ⟨trivial, effect.own own isAlive ?_, ?_⟩
      · intro judged reaps
        obtain ⟨expired, rfl⟩ := owner_of_reaping moved (by simp [reaps])
        obtain ⟨lock, isLock, rfl⟩ := effect.lock_of_reaping reaps
        exact judges.accurate process expired rfl lock isLock
      · intro other differs sound
        exact effect.others own isAlive
          (fun judged => judges.same process choice judged rfl) differs sound
    next => cases stepped

end Steps

theorem exclusive_pendingTask (pidOf : Process → Nat) : Exclusive pidOf pendingTask where
  shared := trivial
  each := fun _ => callSound_of_outside rfl rfl rfl

/-- At most one call claims the task, in every run in which a lock is removed
only on an up-to-date finding. -/
theorem claims_exclusive {pidOf : Process → Nat} {labels : List ClaimLabel}
    {final : Pool ClaimWorld ClaimPoint}
    (reached : execute (claimStep pidOf) pendingTask labels = some final)
    (judges : EveryStep (claimStep pidOf) (ReapsWhatItJudged pidOf) pendingTask labels)
    {left right : Process} (leftClaimed : final.points left = .finished true)
    (rightClaimed : final.points right = .finished true) : left = right := by
  have exclusive : Exclusive pidOf final :=
    invariant_of_execute exclusive_step (exclusive_pendingTask pidOf) reached judges
  have isLeft := (exclusive.each left).claimed (by rw [leftClaimed]; rfl)
  have isRight := (exclusive.each right).claimed (by rw [rightClaimed]; rfl)
  exact Option.some.inj (isLeft.2.symm.trans isRight.2)

section

variable (process : Process)

/-- A call up to its lock, which it finds free. -/
def lockSteps : List ClaimLabel :=
  [.run process .proceed, .run process (.tasks false), .run process (.owner false false),
    .run process .proceed, .run process .proceed, .run process .proceed]

/-- A call up to finding the lock of a dead owner. -/
def judgeSteps : List ClaimLabel :=
  [.run process .proceed, .run process (.tasks false), .run process (.owner true true)]

/-- The removal of the lock that was found stale, and a new one. -/
def reapSteps : List ClaimLabel :=
  [.run process .proceed, .run process .proceed, .run process .proceed, .run process (.tasks false)]

/-- The claim and the release. -/
def claimSteps : List ClaimLabel :=
  [.run process .proceed, .run process .proceed]

end

/-- The first call dies under the lock, and the second one takes over. -/
def takeoverRun : List ClaimLabel :=
  lockSteps 1 ++ .crash 1 :: (judgeSteps 2 ++ reapSteps 2 ++ claimSteps 2)

theorem judges_of_plain (plain : ∀ process expired, label ≠ .run process (.owner true expired))
    (still : ∀ process choice, label = .run process choice → (pool.points process).reaping = none) :
    ReapsWhatItJudged pidOf pool label next where
  accurate := fun process expired equal => absurd equal (plain process expired)
  same := by
    intro process choice judged isLabel reaps
    rw [still process choice isLabel] at reaps
    cases reaps

theorem judges_takeover :
    EveryStep (claimStep id) (ReapsWhatItJudged id) pendingTask takeoverRun := by
  iterate 6 apply EveryStep.cons rfl (judges_of_plain (by simp) (by rintro _ _ ⟨⟩; rfl))
  apply EveryStep.cons rfl (judges_of_plain (by simp) (by rintro _ _ ⟨⟩))
  iterate 2 apply EveryStep.cons rfl (judges_of_plain (by simp) (by rintro _ _ ⟨⟩; rfl))
  refine EveryStep.cons rfl ⟨?_, ?_⟩ ?_
  · rintro _ _ ⟨⟩ lock isLock
    cases isLock
    rfl
  · rintro _ _ _ ⟨⟩ reaps
    cases reaps
  refine EveryStep.cons rfl ⟨?_, ?_⟩ ?_
  · rintro _ _ ⟨⟩
  · rintro _ _ _ ⟨⟩ reaps lock isLock
    cases reaps
    cases isLock
    rfl
  iterate 4 apply EveryStep.cons rfl (judges_of_plain (by simp) (by rintro _ _ ⟨⟩; rfl))
  exact EveryStep.cons rfl (judges_of_plain (by simp) (by rintro _ _ ⟨⟩; rfl)) trivial

theorem claims_exclusive_takeover :
    ∃ final, execute (claimStep id) pendingTask takeoverRun = some final ∧
      final.points 2 = .finished true ∧
      ∀ other, final.points other = .finished true → other = 2 := by
  obtain ⟨final, reached, isClaimed⟩ :
      ∃ final, execute (claimStep id) pendingTask takeoverRun = some final ∧
        final.points 2 = .finished true := by
    decide +kernel
  exact ⟨final, reached, isClaimed,
    fun other otherClaimed => claims_exclusive reached judges_takeover otherClaimed isClaimed⟩

/-- Two calls find the lock of a dead owner, and the second one removes the lock
that the first has put in its place. -/
def outdatedRun : List ClaimLabel :=
  lockSteps 1 ++ .crash 1 :: (judgeSteps 2 ++ judgeSteps 3 ++ reapSteps 2 ++ reapSteps 3 ++
    claimSteps 2 ++ claimSteps 3)

theorem not_exclusive_outdated :
    ∃ final, execute (claimStep id) pendingTask outdatedRun = some final ∧
      final.points 2 = .finished true ∧ final.points 3 = .finished true := by
  decide +kernel

end OpenAgent.Team
