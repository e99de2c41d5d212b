import OpenAgent.Config.MigrationLock

/-!
# Mutual exclusion of the migration lock

The lock file and its guard are removed by others when their lease has expired, or when
they cannot be read.  The removal of a stale guard is not guarded itself: between the last
look at the file and `unlink`, another contender may have replaced it.  A file that has just
been created is empty, and cannot be read either.  As long as neither happens, at most one
live process has the lock, and its `renew` fails only where it does not get the guard.
-/

namespace OpenAgent.Config

open Library

/-! ## What a process relies on -/

/-- A file that a process relies on: it is still empty, or shows its lease. -/
inductive Reliance
  | created
  | written (lease : Lease)
  deriving DecidableEq

def Reliance.content : Reliance → Content
  | .created => []
  | .written lease => lease.content

def GuardPurpose.owned : GuardPurpose → Option Lease
  | .takeOver _ => none
  | .renew owned | .release owned => some owned

def GuardOutcome.owned : GuardOutcome → Option Lease
  | .renewed owned | .failed owned _ => some owned
  | .retry _ | .refused | .released => none

/-- The content that a contender has judged. -/
def Removal.judged : Removal → Option Content
  | .staleGuard _ _ observedContent | .takenOver _ observedContent _ => some observedContent
  | .ownLock _ _ | .ownGuard _ _ => none

namespace LockPoint

/-- The lease of the lock that a process has acquired and not yet released. -/
def owned : LockPoint → Option Lease
  | .holding owned | .renewFailed owned _ | .renewCompose owned _ | .replacing owned _ _ _
  | .removing (.ownLock owned _) _ => some owned
  | .guardCompose purpose _ | .guardCreate purpose _ _ | .guardWrite purpose _
  | .guardRead purpose _ | .guardJudge purpose _ _ | .removing (.staleGuard purpose _ _) _ =>
    purpose.owned
  | .removing (.ownGuard outcome _) _ => outcome.owned
  | _ => none

/-- The lease of the guard in a guarded section. -/
def guardOwned : LockPoint → Option Lease
  | .lockRead _ guard | .lockJudge _ _ guard | .renewCompose _ guard | .replacing _ _ guard _
  | .removing (.takenOver _ _ guard) _ | .removing (.ownGuard _ guard) _ => some guard
  | .removing (.ownLock _ guard) _ => guard
  | _ => none

/-- The file at a path that a process relies on. -/
def relies (point : LockPoint) : LockPath → Option Reliance
  | .lock =>
    match point with
    | .writeLock _ => some .created
    | point => point.owned.map .written
  | .guard =>
    match point with
    | .guardWrite _ _ => some .created
    | point => point.guardOwned.map .written

/-- The content that a contender has judged and is about to remove. -/
def judged : LockPoint → Option Content
  | .removing removal _ => removal.judged
  | _ => none

/-- The content of the lock file in front of its removal by a contender. -/
def evicting : LockPoint → Option Content
  | .removing (.takenOver _ observedContent _) .change => some observedContent
  | _ => none

/-- `renew` throws, or is about to throw, for another reason than a busy guard. -/
def lost : LockPoint → Bool
  | .renewFailed _ failure => failure ≠ .busy
  | .removing (.ownGuard (.failed _ _) _) _ => true
  | _ => false

end LockPoint

/-! ## Assumptions -/

/-- The lease has not expired, as a lock file shows it. -/
def Lease.Unexpired (lease : Lease) (now : Nat) : Prop :=
  ∃ record, parseLockRecord lease.content = some record ∧ (now : ℚ) < record.leaseExpiresAt

/-- The leases that a process relies on have not expired. -/
def LockPoint.KeepsLeases (point : LockPoint) (now : Nat) : Prop :=
  ∀ path lease, point.relies path = some (.written lease) → lease.Unexpired now

section

variable (pool : Pool LockWorld LockPoint)

/-- Every live process that has the lock renews or releases it before the lease expires, and
finishes a guarded section before the lease of its guard expires. -/
def LeasesKept (_ : LockLabel) (_ : Pool LockWorld LockPoint) : Prop :=
  ∀ process, pool.world.alive process = true →
    (pool.points process).KeepsLeases pool.world.now

/-- The file that is removed is the one that was judged, and not that of a live process that
is about to write it. -/
def Removal.Aims (removal : Removal) (pool : Pool LockWorld LockPoint) : Prop :=
  ∀ observedContent ∈ removal.judged, ∀ file ∈ pool.world.fileAt removal.path,
    ((removal.path = .guard ∨ observedContent = []) → file.content = observedContent) ∧
      ¬ (file.content = [] ∧ pool.world.alive file.creator = true ∧
        (pool.points file.creator).relies removal.path = some .created)
  deriving Decidable

/-- A contender that removes a guard, or a file that it found empty, removes what it has
judged. -/
def RemovesJudged (label : LockLabel) (_ : Pool LockWorld LockPoint) : Prop :=
  ∀ process request removal, label = .run process request →
    pool.points process = .removing removal .change → removal.Aims pool

/-! ## The invariant -/

/-- A content that a contender may remove: it shows no lease, or one that has expired. -/
def Stale (now : Nat) (content : Content) : Prop :=
  ∀ record, parseLockRecord content = some record → record.leaseExpiresAt ≤ (now : ℚ)

theorem Stale.mono (stale : Stale now content) (passes : now ≤ later) : Stale later content := by
  intro record parsed
  exact (stale record parsed).trans (by exact_mod_cast passes)

theorem Lease.Unexpired.not_stale {lease : Lease} (unexpired : lease.Unexpired now) :
    ¬ Stale now lease.content := by
  obtain ⟨record, parsed, later⟩ := unexpired
  intro stale
  exact absurd (stale record parsed) (not_le.mpr later)

theorem stale_of_mayRemove {world : LockWorld}
    (mayRemove : world.mayRemove content duration = true) : Stale world.now content := by
  intro record parsed
  simp only [LockWorld.mayRemove, parsed, LockWorld.isReclaimable] at mayRemove
  split at mayRemove
  next => cases mayRemove
  next reached => exact not_lt.mp reached

/-- The assertion of a process at its point. -/
structure LockSound (process : Process) (point : LockPoint) (world : LockWorld) : Prop where
  own : world.alive process = true → ∀ path reliance, point.relies path = some reliance →
    world.fileAt path = some { content := reliance.content, creator := process }
  stale : ∀ content, point.judged = some content → Stale world.now content
  evicts : world.alive process = true → ∀ content, point.evicting = some content →
    content ≠ [] → ∃ creator, world.fileAt .lock = some { content, creator }
  calm : point.lost = false

abbrev AllLocksSound : Prop :=
  pool.Holds (fun _ => True) LockSound

end

/-- Why a move may change the file at a path. -/
inductive MayChange (point : LockPoint) (world : LockWorld) (path : LockPath) : Prop
  | free (isFree : world.fileAt path = none)
  | own (reliance : Reliance) (isOwn : point.relies path = some reliance)
  | judged (removal : Removal) (content : Content) (isPoint : point = .removing removal .change)
      (isPath : removal.path = path) (isJudged : removal.judged = some content)

/-- What a move does. -/
structure LockMoveEffect (process : Process) (point : LockPoint) (world after : LockWorld)
    (next : LockPoint) : Prop where
  now : after.now = world.now
  alive : after.alive = world.alive
  sound : LockSound process next after
  change : ∀ path, after.fileAt path = world.fileAt path ∨ MayChange point world path

section Others

/-- What a contender removes is not relied on by another live process. -/
theorem judged_unowned (sound : AllLocksSound pool) (kept : LeasesKept pool label next)
    (removesJudged : RemovesJudged pool (.run process request) next)
    (isAlive : pool.world.alive process = true)
    (isPoint : pool.points process = .removing removal .change)
    (isJudged : removal.judged = some content) (otherAlive : pool.world.alive other = true)
    (relies : (pool.points other).relies removal.path = some reliance) : False := by
  have isThere := (sound.each other).own otherAlive removal.path reliance relies
  obtain ⟨aimed, notCreated⟩ :=
    removesJudged process request removal rfl isPoint content isJudged _ isThere
  have stale : Stale pool.world.now content :=
    (sound.each process).stale content (by rw [isPoint]; exact isJudged)
  cases reliance with
  | created => exact notCreated ⟨rfl, otherAlive, relies⟩
  | written lease =>
    have same : lease.content = content := by
      by_cases empty : content = []
      · exact aimed (.inr empty)
      · cases removal with
        | staleGuard purpose attempt observedContent => exact aimed (.inl rfl)
        | takenOver attempt observedContent guard =>
          cases isJudged
          obtain ⟨creator, isFound⟩ :=
            (sound.each process).evicts isAlive content (by rw [isPoint]; rfl) empty
          rw [show Removal.path (.takenOver attempt content guard) = .lock from rfl] at isThere
          rw [isThere] at isFound
          exact congrArg PresentFile.content (Option.some.inj isFound)
        | ownLock owned guard | ownGuard outcome guard => cases isJudged
    exact (kept other otherAlive removal.path lease relies).not_stale (same ▸ stale)

theorem relies_of_evicting {point : LockPoint} (evicting : point.evicting = some content) :
    ∃ guard, point.relies .guard = some (.written guard) := by
  unfold LockPoint.evicting at evicting
  split at evicting
  next attempt observedContent guard => exact ⟨guard, rfl⟩
  next => cases evicting

theorem evicting_of_judged (isJudged : removal.judged = some content)
    (isPath : removal.path = .lock) :
    (LockPoint.removing removal .change).evicting = some content := by
  cases removal with
  | staleGuard purpose attempt observedContent => cases isPath
  | takenOver attempt observedContent guard => exact isJudged
  | ownLock owned guard | ownGuard outcome guard => cases isJudged

/-- Two live processes do not rely on one file. -/
theorem AllLocksSound.relies_unique (sound : AllLocksSound pool)
    (isAlive : pool.world.alive process = true)
    (relies : (pool.points process).relies path = some reliance)
    (otherAlive : pool.world.alive other = true)
    (otherRelies : (pool.points other).relies path = some foreign) : other = process := by
  have isThere := (sound.each process).own isAlive path reliance relies
  rw [(sound.each other).own otherAlive path foreign otherRelies] at isThere
  exact congrArg PresentFile.creator (Option.some.inj isThere)

/-- A move disturbs no other process. -/
theorem LockMoveEffect.others
    (effect : LockMoveEffect process (pool.points process) pool.world after reached)
    (sound : AllLocksSound pool) (kept : LeasesKept pool label next)
    (removesJudged : RemovesJudged pool (.run process request) next)
    (isAlive : pool.world.alive process = true) (differs : other ≠ process) :
    LockSound other (pool.points other) after where
  own := by
    intro otherAlive path reliance relies
    rw [effect.alive] at otherAlive
    have isThere := (sound.each other).own otherAlive path reliance relies
    rcases effect.change path with same | isFree | ⟨own, isOwn⟩ |
      ⟨removal, content, isPoint, rfl, isJudged⟩
    · rw [same, isThere]
    · rw [isFree] at isThere
      cases isThere
    · exact absurd (sound.relies_unique isAlive isOwn otherAlive relies) differs
    · exact (judged_unowned sound kept removesJudged isAlive isPoint isJudged otherAlive
        relies).elim
  stale := by
    intro content isJudged
    rw [effect.now]
    exact (sound.each other).stale content isJudged
  evicts := by
    intro otherAlive content evicting notEmpty
    rw [effect.alive] at otherAlive
    obtain ⟨creator, isThere⟩ := (sound.each other).evicts otherAlive content evicting notEmpty
    have stale : Stale pool.world.now content := by
      refine (sound.each other).stale content ?_
      unfold LockPoint.evicting at evicting
      split at evicting
      next attempt observedContent guard isPoint =>
        rw [isPoint]
        exact evicting
      next => cases evicting
    rcases effect.change .lock with same | isFree | ⟨own, isOwn⟩ |
      ⟨removal, removed, isPoint, isPath, isJudged⟩
    · exact ⟨creator, by rw [same, isThere]⟩
    · rw [isFree] at isThere
      cases isThere
    · -- the lease of the mover would be the expired one
      have isFound := (sound.each process).own isAlive .lock own isOwn
      rw [isThere] at isFound
      have isContent := congrArg PresentFile.content (Option.some.inj isFound)
      cases own with
      | created => exact absurd isContent notEmpty
      | written lease =>
        subst isContent
        exact ((kept process isAlive .lock lease isOwn).not_stale stale).elim
    · -- both would have the guard
      obtain ⟨guard, relies⟩ := relies_of_evicting evicting
      have ownEvicting : (pool.points process).evicting = some removed := by
        rw [isPoint]
        exact evicting_of_judged isJudged isPath
      obtain ⟨ownGuard, ownRelies⟩ := relies_of_evicting ownEvicting
      exact absurd (sound.relies_unique isAlive ownRelies otherAlive relies) differs
  calm := (sound.each other).calm

end Others

/-! ## What a move does -/

/-- A point at which a process has judged nothing, and has lost nothing. -/
structure LockPoint.Plain (point : LockPoint) : Prop where
  judged : point.judged = none
  evicting : point.evicting = none
  calm : point.lost = false

section Purposes

variable {purpose : GuardPurpose} {outcome : GuardOutcome}

section

variable (attempt : Nat)

theorem relies_nextAttempt (path : LockPath) : (nextAttempt attempt).relies path = none := by
  unfold nextAttempt
  split <;> cases path <;> rfl

theorem plain_nextAttempt : (nextAttempt attempt).Plain := by
  unfold nextAttempt
  split <;> exact ⟨rfl, rfl, rfl⟩

theorem GuardPurpose.relies_nextAttempt (path : LockPath) :
    (purpose.nextAttempt attempt).relies path =
      (LockPoint.guardRead purpose attempt).relies path := by
  unfold GuardPurpose.nextAttempt
  split
  next => cases path <;> rfl
  next => cases purpose <;> cases path <;> rfl

theorem GuardPurpose.plain_nextAttempt : (purpose.nextAttempt attempt).Plain := by
  unfold GuardPurpose.nextAttempt
  split
  next => exact ⟨rfl, rfl, rfl⟩
  next => cases purpose <;> exact ⟨rfl, rfl, rfl⟩

end

theorem GuardPurpose.relies_guarded_lock (guard : Lease) :
    (purpose.guarded guard).relies .lock = purpose.owned.map .written := by
  cases purpose <;> rfl

theorem GuardPurpose.relies_guarded_guard (guard : Lease) :
    (purpose.guarded guard).relies .guard = some (.written guard) := by
  cases purpose <;> rfl

theorem GuardPurpose.plain_guarded (guard : Lease) : (purpose.guarded guard).Plain := by
  cases purpose <;> exact ⟨rfl, rfl, rfl⟩

theorem GuardOutcome.relies_returns_lock :
    outcome.returns.relies .lock = outcome.owned.map .written := by
  cases outcome with
  | retry attempt => exact Config.relies_nextAttempt attempt .lock
  | refused | renewed owned | failed owned failure | released => rfl

theorem GuardOutcome.relies_returns_guard : outcome.returns.relies .guard = none := by
  cases outcome with
  | retry attempt => exact Config.relies_nextAttempt attempt .guard
  | refused | renewed owned | failed owned failure | released => rfl

/-- The end of a guarded section in which nothing was lost. -/
theorem GuardOutcome.plain_returns {guard : Lease}
    (calm : (LockPoint.removing (.ownGuard outcome guard) stage).lost = false) :
    outcome.returns.Plain := by
  cases outcome with
  | retry attempt => exact Config.plain_nextAttempt attempt
  | refused | renewed owned => exact ⟨rfl, rfl, rfl⟩
  | failed owned failure => cases calm
  | released => exact ⟨rfl, rfl, rfl⟩

end Purposes

section Moves

variable {world : LockWorld}

theorem LockPoint.Plain.sound (plain : next.Plain)
    (own : ∀ path reliance, next.relies path = some reliance →
      after.fileAt path = some { content := reliance.content, creator := process }) :
    LockSound process next after where
  own := fun _ => own
  stale := by
    intro content isJudged
    rw [plain.judged] at isJudged
    cases isJudged
  evicts := by
    intro _ content evicting
    rw [plain.evicting] at evicting
    cases evicting
  calm := plain.calm

/-- Going on without a change of the files. -/
theorem LockPoint.Plain.quiet (plain : next.Plain) (sound : LockSound process point world)
    (isAlive : world.alive process = true)
    (lock : next.relies .lock = point.relies .lock ∨ next.relies .lock = none)
    (guard : next.relies .guard = point.relies .guard ∨ next.relies .guard = none) :
    LockMoveEffect process point world world next where
  now := rfl
  alive := rfl
  sound := by
    refine plain.sound ?_
    intro path reliance relies
    have before : next.relies path = point.relies path ∨ next.relies path = none := by
      cases path with
      | lock => exact lock
      | guard => exact guard
    rcases before with same | nothing
    · exact sound.own isAlive path reliance (same ▸ relies)
    · rw [nothing] at relies
      cases relies
  change := fun _ => .inl rfl

/-- A change of the file at one path. -/
theorem LockPoint.Plain.changes (plain : next.Plain) (sound : LockSound process point world)
    (isAlive : world.alive process = true) (mayChange : MayChange point world path)
    (here : ∀ reliance, next.relies path = some reliance →
      file = some { content := reliance.content, creator := process })
    (elsewhere : ∀ other, other ≠ path →
      next.relies other = point.relies other ∨ next.relies other = none) :
    LockMoveEffect process point world (world.set path file) next where
  now := rfl
  alive := rfl
  sound := by
    refine plain.sound ?_
    intro other reliance relies
    by_cases same : other = path
    · subst same
      rw [LockWorld.fileAt_set_self]
      exact here reliance relies
    · rw [LockWorld.fileAt_set_of_ne same]
      rcases elsewhere other same with before | nothing
      · exact sound.own isAlive other reliance (before ▸ relies)
      · rw [nothing] at relies
        cases relies
  change := by
    intro other
    by_cases same : other = path
    · subst same
      exact .inr mayChange
    · exact .inl (LockWorld.fileAt_set_of_ne same world file)

/-- The write of a file that the process has created. -/
theorem writeCreated_eq (isThere : world.fileAt path = some file) (isOwn : file.creator = process) :
    world.writeCreated path process content =
      world.set path (some { content, creator := process }) := by
  subst isOwn
  simp [LockWorld.writeCreated, isThere]

/-- The removal of an own file finds it at every call. -/
theorem removeMove_own (removal : Removal)
    (isThere : world.fileAt removal.path = some { content := removal.expected, creator := process }) :
    removeMove removal stage world =
      match stage with
      | .exists => (world, .removing removal .read)
      | .read => (world, .removing removal .change)
      | .change => (world.set removal.path none, removal.returns) := by
  cases stage <;> simp [removeMove, isThere]

/-- The removal of the own lock, in `release`. -/
theorem removes_ownLock {guard : Option Lease}
    (sound : LockSound process (.removing (.ownLock owned guard) stage) world)
    (isAlive : world.alive process = true) :
    LockMoveEffect process (.removing (.ownLock owned guard) stage) world
      (removeMove (.ownLock owned guard) stage world).1
      (removeMove (.ownLock owned guard) stage world).2 := by
  have isThere := sound.own isAlive .lock _ rfl
  rw [removeMove_own (.ownLock owned guard) isThere]
  cases stage with
  | «exists» | read =>
    exact LockPoint.Plain.quiet ⟨rfl, rfl, rfl⟩ sound isAlive (.inl rfl) (.inl rfl)
  | change =>
    cases guard with
    | none =>
      refine LockPoint.Plain.changes ⟨rfl, rfl, rfl⟩ sound isAlive (.own _ rfl) nofun ?_
      rintro (_ | _) _
      · exact .inr rfl
      · exact .inr rfl
    | some guard =>
      refine LockPoint.Plain.changes ⟨rfl, rfl, rfl⟩ sound isAlive (.own _ rfl) nofun ?_
      rintro (_ | _) differs
      · exact absurd rfl differs
      · exact .inl rfl

/-- The release of the guard. -/
theorem removes_ownGuard {guard : Lease}
    (sound : LockSound process (.removing (.ownGuard outcome guard) stage) world)
    (isAlive : world.alive process = true) :
    LockMoveEffect process (.removing (.ownGuard outcome guard) stage) world
      (removeMove (.ownGuard outcome guard) stage world).1
      (removeMove (.ownGuard outcome guard) stage world).2 := by
  have isThere := sound.own isAlive .guard _ rfl
  rw [removeMove_own (.ownGuard outcome guard) isThere]
  have stays : ∀ later, (LockPoint.removing (.ownGuard outcome guard) later).Plain := by
    intro later
    refine ⟨rfl, rfl, ?_⟩
    cases outcome with
    | failed owned failure => exact sound.calm
    | _ => rfl
  cases stage with
  | «exists» => exact (stays .read).quiet sound isAlive (.inl rfl) (.inl rfl)
  | read => exact (stays .change).quiet sound isAlive (.inl rfl) (.inl rfl)
  | change =>
    refine (GuardOutcome.plain_returns (stays .read).calm).changes sound isAlive (.own _ rfl) ?_ ?_
    · intro reliance relies
      change outcome.returns.relies .guard = some reliance at relies
      rw [GuardOutcome.relies_returns_guard] at relies
      cases relies
    · rintro (_ | _) differs
      · exact .inl GuardOutcome.relies_returns_lock
      · exact absurd rfl differs

/-- The next call of a removal by a contender. -/
theorem LockSound.nextStage (sound : LockSound process (.removing removal stage) world)
    (isAlive : world.alive process = true)
    (relies : ∀ path, (LockPoint.removing removal later).relies path =
      (LockPoint.removing removal stage).relies path)
    (calm : (LockPoint.removing removal later).lost = false)
    (evicts : ∀ content, (LockPoint.removing removal later).evicting = some content →
      ∃ creator, world.fileAt .lock = some { content, creator }) :
    LockMoveEffect process (.removing removal stage) world world (.removing removal later) where
  now := rfl
  alive := rfl
  sound :=
    { own := fun _ path reliance isOwn => sound.own isAlive path reliance (relies path ▸ isOwn)
      stale := sound.stale
      evicts := fun _ content evicting _ => evicts content evicting
      calm }
  change := fun _ => .inl rfl

/-- The removal of a stale guard. -/
theorem removes_staleGuard
    (sound : LockSound process (.removing (.staleGuard purpose attempt observedContent) stage)
      world)
    (isAlive : world.alive process = true) :
    LockMoveEffect process (.removing (.staleGuard purpose attempt observedContent) stage) world
      (removeMove (.staleGuard purpose attempt observedContent) stage world).1
      (removeMove (.staleGuard purpose attempt observedContent) stage world).2 := by
  have retries : LockMoveEffect process
      (.removing (.staleGuard purpose attempt observedContent) stage) world world
      (purpose.nextAttempt attempt) :=
    (GuardPurpose.plain_nextAttempt attempt).quiet sound isAlive
      (.inl (GuardPurpose.relies_nextAttempt attempt .lock))
      (.inl (GuardPurpose.relies_nextAttempt attempt .guard))
  have goesOn : ∀ later, LockMoveEffect process
      (.removing (.staleGuard purpose attempt observedContent) stage) world world
      (.removing (.staleGuard purpose attempt observedContent) later) := by
    intro later
    refine sound.nextStage isAlive ?_ rfl nofun
    rintro (_ | _) <;> rfl
  cases stage with
  | «exists» =>
    simp only [removeMove]
    split
    next => exact goesOn .read
    next => exact retries
  | read =>
    simp only [removeMove]
    split
    next => exact retries
    next =>
      split
      next => exact goesOn .change
      next => exact retries
  | change =>
    simp only [removeMove]
    split
    next => exact retries
    next =>
      refine (GuardPurpose.plain_nextAttempt attempt).changes sound isAlive
        (.judged _ _ rfl rfl rfl) ?_ ?_
      · intro reliance relies
        rw [GuardPurpose.relies_nextAttempt] at relies
        cases relies
      · rintro (_ | _) differs
        · exact .inl (GuardPurpose.relies_nextAttempt attempt .lock)
        · exact absurd rfl differs

/-- The removal of a lock that is taken over. -/
theorem removes_takenOver {guard : Lease}
    (sound : LockSound process (.removing (.takenOver attempt observedContent guard) stage) world)
    (isAlive : world.alive process = true) :
    LockMoveEffect process (.removing (.takenOver attempt observedContent guard) stage) world
      (removeMove (.takenOver attempt observedContent guard) stage world).1
      (removeMove (.takenOver attempt observedContent guard) stage world).2 := by
  have leaves : ∀ outcome : GuardOutcome, outcome.owned = none →
      LockMoveEffect process (.removing (.takenOver attempt observedContent guard) stage) world
        world (.removing (.ownGuard outcome guard) .exists) := by
    intro outcome notOwned
    refine LockPoint.Plain.quiet ⟨rfl, rfl, ?_⟩ sound isAlive (.inr ?_) (.inl rfl)
    · cases outcome with
      | failed owned failure => cases notOwned
      | _ => rfl
    · change outcome.owned.map Reliance.written = none
      rw [notOwned]
      rfl
  cases stage with
  | «exists» =>
    simp only [removeMove]
    split
    next =>
      refine sound.nextStage isAlive ?_ rfl nofun
      rintro (_ | _) <;> rfl
    next => exact leaves (.retry attempt) rfl
  | read =>
    simp only [removeMove]
    split
    next => exact leaves .refused rfl
    next file isThere =>
      split
      next isExpected =>
        refine sound.nextStage isAlive ?_ rfl ?_
        · rintro (_ | _) <;> rfl
        · rintro content ⟨⟩
          subst isExpected
          exact ⟨file.creator, isThere⟩
      next => exact leaves (.retry attempt) rfl
  | change =>
    simp only [removeMove]
    split
    next => exact leaves .refused rfl
    next =>
      refine LockPoint.Plain.changes ⟨rfl, rfl, rfl⟩ sound isAlive (.judged _ _ rfl rfl rfl)
        nofun ?_
      rintro (_ | _) differs
      · exact absurd rfl differs
      · exact .inl rfl

/-- The renewal of the own lock. -/
theorem replaces_own {guard : Lease}
    (sound : LockSound process (.replacing owned renewed guard stage) world)
    (isAlive : world.alive process = true) :
    LockMoveEffect process (.replacing owned renewed guard stage) world
      (replaceMove process owned renewed guard stage world).1
      (replaceMove process owned renewed guard stage world).2 := by
  have isThere := sound.own isAlive .lock _ rfl
  change world.fileAt .lock = some { content := owned.content, creator := process } at isThere
  cases stage with
  | «exists» =>
    simp only [replaceMove, isThere, Option.isSome_some, if_true]
    exact LockPoint.Plain.quiet ⟨rfl, rfl, rfl⟩ sound isAlive (.inl rfl) (.inl rfl)
  | read =>
    simp only [replaceMove, isThere, if_true]
    exact LockPoint.Plain.quiet ⟨rfl, rfl, rfl⟩ sound isAlive (.inl rfl) (.inl rfl)
  | change =>
    simp only [replaceMove, LockWorld.overwrite, isThere]
    refine LockPoint.Plain.changes ⟨rfl, rfl, rfl⟩ sound isAlive (.own _ rfl) ?_ ?_
    · rintro reliance ⟨⟩
      rfl
    · rintro (_ | _) differs
      · exact absurd rfl differs
      · exact .inl rfl

variable (sound : LockSound process point world)
include sound

/-- A contender that may remove what it has read. -/
theorem LockSound.judges (isAlive : world.alive process = true)
    (isJudged : removal.judged = some content) (stale : Stale world.now content)
    (relies : ∀ path, (LockPoint.removing removal .exists).relies path = point.relies path)
    (calm : (LockPoint.removing removal .exists).lost = false)
    (evicting : (LockPoint.removing removal .exists).evicting = none) :
    LockMoveEffect process point world world (.removing removal .exists) where
  now := rfl
  alive := rfl
  sound :=
    { own := fun _ path reliance isOwn => sound.own isAlive path reliance (relies path ▸ isOwn)
      stale := by
        intro other isOther
        change removal.judged = some other at isOther
        rw [isJudged] at isOther
        cases isOther
        exact stale
      evicts := by
        intro _ other isEvicting
        rw [evicting] at isEvicting
        cases isEvicting
      calm }
  change := fun _ => .inl rfl

theorem lockMove_effect (isAlive : world.alive process = true)
    (moved : lockMove process request point world = some (after, next)) :
    LockMoveEffect process point world after next := by
  revert moved
  fun_cases lockMove process request point world <;> intro moved
  case case23 removal stage =>
    have isMove : removeMove removal stage world = (after, next) := Option.some.inj moved
    obtain ⟨rfl, rfl⟩ := Prod.mk.inj (isMove.symm.trans Prod.mk.eta.symm)
    cases removal with
    | staleGuard purpose attempt observedContent => exact removes_staleGuard sound isAlive
    | takenOver attempt observedContent guard => exact removes_takenOver sound isAlive
    | ownLock owned guard => exact removes_ownLock sound isAlive
    | ownGuard outcome guard => exact removes_ownGuard sound isAlive
  case case25 owned renewed guard stage =>
    have isMove : replaceMove process owned renewed guard stage world = (after, next) :=
      Option.some.inj moved
    obtain ⟨rfl, rfl⟩ := Prod.mk.inj (isMove.symm.trans Prod.mk.eta.symm)
    exact replaces_own sound isAlive
  case case9 | case10 =>
    cases request <;> cases moved <;>
      exact LockPoint.Plain.quiet ⟨rfl, rfl, rfl⟩ sound isAlive (.inl rfl) (.inl rfl)
  all_goals cases moved
  case case1 =>
    exact ⟨rfl, rfl, LockPoint.Plain.sound ⟨rfl, rfl, rfl⟩ (by rintro (_ | _) _ ⟨⟩),
      fun _ => .inl rfl⟩
  case case6 isFree =>
    refine LockPoint.Plain.changes ⟨rfl, rfl, rfl⟩ sound isAlive (.free isFree) ?_ ?_
    · rintro reliance ⟨⟩
      rfl
    · rintro (_ | _) differs
      · exact absurd rfl differs
      · exact .inl rfl
  case case8 =>
    rw [writeCreated_eq (sound.own isAlive .lock .created rfl) rfl]
    refine LockPoint.Plain.changes ⟨rfl, rfl, rfl⟩ sound isAlive (.own _ rfl) ?_ ?_
    · rintro reliance ⟨⟩
      rfl
    · rintro (_ | _) differs
      · exact absurd rfl differs
      · exact .inl rfl
  case case12 isFree =>
    refine LockPoint.Plain.changes ⟨rfl, rfl, rfl⟩ sound isAlive (.free isFree) ?_ ?_
    · rintro reliance ⟨⟩
      rfl
    · rintro (_ | _) differs
      · exact .inl rfl
      · exact absurd rfl differs
  case case14 purpose guard =>
    rw [writeCreated_eq (sound.own isAlive .guard .created rfl) rfl]
    refine (GuardPurpose.plain_guarded guard).changes sound isAlive (.own _ rfl) ?_ ?_
    · intro reliance relies
      rw [GuardPurpose.relies_guarded_guard] at relies
      cases relies
      rfl
    · rintro (_ | _) differs
      · exact .inl (GuardPurpose.relies_guarded_lock guard)
      · exact absurd rfl differs
  case case15 purpose attempt _ | case18 purpose attempt _ _ =>
    exact (GuardPurpose.plain_nextAttempt attempt).quiet sound isAlive
      (.inl (GuardPurpose.relies_nextAttempt attempt .lock))
      (.inl (GuardPurpose.relies_nextAttempt attempt .guard))
  case case17 mayRemove | case21 mayRemove =>
    refine sound.judges isAlive rfl (stale_of_mayRemove mayRemove) ?_ rfl rfl
    rintro (_ | _) <;> rfl
  all_goals exact LockPoint.Plain.quiet ⟨rfl, rfl, rfl⟩ sound isAlive (.inl rfl) (.inl rfl)

end Moves

/-! ## Mutual exclusion -/

theorem allLocksSound_step (pool : Pool LockWorld LockPoint) (label : LockLabel)
    (next : Pool LockWorld LockPoint) (sound : AllLocksSound pool)
    (meets : LeasesKept pool label next ∧ RemovesJudged pool label next)
    (stepped : lockStep pool label = some next) : AllLocksSound next := by
  obtain ⟨kept, removesJudged⟩ := meets
  cases label with
  | run process request =>
    simp only [lockStep] at stepped
    split at stepped
    next enabled =>
      apply Pool.Holds.advance sound stepped
      intro world point moved
      have effect := lockMove_effect (sound.each process) enabled.2 moved
      refine ⟨trivial, effect.sound, ?_⟩
      intro other differs _
      exact effect.others sound kept removesJudged enabled.2 differs
    next => cases stepped
  | kill victim =>
    cases stepped
    have wasAlive : ∀ process, Function.update pool.world.alive victim false process = true →
        pool.world.alive process = true := by
      intro process isAlive
      by_cases same : process = victim
      · simp [same] at isAlive
      · simpa [same] using isAlive
    refine ⟨trivial, fun process => ?_⟩
    have each := sound.each process
    exact ⟨fun isAlive => each.own (wasAlive process isAlive), each.stale,
      fun isAlive => each.evicts (wasAlive process isAlive), each.calm⟩
  | tick elapsed =>
    cases stepped
    refine ⟨trivial, fun process => ?_⟩
    have each := sound.each process
    exact ⟨each.own,
      fun content isJudged => (each.stale content isJudged).mono (Nat.le_add_right _ _),
      each.evicts, each.calm⟩

/-- A process that has acquired the lock and not yet released it. -/
def HasLock (pool : Pool LockWorld LockPoint) (process : Process) : Prop :=
  pool.world.alive process = true ∧ ∃ owned, (pool.points process).owned = some owned

theorem relies_of_owned {point : LockPoint} (isOwned : point.owned = some owned) :
    point.relies .lock = some (.written owned) := by
  cases point with
  | writeLock current => cases isOwned
  | _ =>
    simp only [LockPoint.relies, isOwned]
    rfl

/-- In every run that starts with all processes outside, in which leases are kept and
contenders remove what they have judged, at most one live process has the lock.  A `renew`
that throws has not got the guard, and a live process has its lock file still. -/
theorem migrationLock_exclusive {start final : Pool LockWorld LockPoint} {labels : List LockLabel}
    (outside : ∀ process, start.points process = .outside)
    (reached : execute lockStep start labels = some final)
    (kept : EveryStep lockStep LeasesKept start labels)
    (removesJudged : EveryStep lockStep RemovesJudged start labels) :
    (∀ left right, HasLock final left → HasLock final right → left = right) ∧
      ∀ process owned failure, final.points process = .renewFailed owned failure → failure = .busy ∧
          (final.world.alive process = true →
            final.world.fileAt .lock = some { content := owned.content, creator := process }) := by
  have initially : AllLocksSound start := by
    refine ⟨trivial, fun process => ?_⟩
    rw [outside process]
    exact LockPoint.Plain.sound ⟨rfl, rfl, rfl⟩ (by rintro (_ | _) _ ⟨⟩)
  have sound : AllLocksSound final :=
    invariant_of_execute allLocksSound_step initially reached (kept.and removesJudged)
  constructor
  · rintro left right ⟨leftAlive, leftOwned, leftOwns⟩ ⟨rightAlive, rightOwned, rightOwns⟩
    exact sound.relies_unique rightAlive (relies_of_owned rightOwns) leftAlive
      (relies_of_owned leftOwns)
  · intro process owned failure hasFailed
    have each := sound.each process
    rw [hasFailed] at each
    refine ⟨by simpa [LockPoint.lost] using each.calm, fun isAlive => ?_⟩
    exact each.own isAlive .lock (.written owned) rfl

/-! ## Runs of a few processes -/

instance (lease : Lease) (now : Nat) : Decidable (lease.Unexpired now) :=
  match parsed : parseLockRecord lease.content with
  | none => isFalse (by simp [Lease.Unexpired, parsed])
  | some record =>
    decidable_of_iff ((now : ℚ) < record.leaseExpiresAt) (by simp [Lease.Unexpired, parsed])

/-- Whether a file that may be relied on shows a lease that has not expired. -/
def Reliance.Current (now : Nat) : Option Reliance → Prop
  | some (.written lease) => lease.Unexpired now
  | _ => True

instance (now : Nat) : ∀ reliance, Decidable (Reliance.Current now reliance) := by
  intro reliance
  unfold Reliance.Current
  split <;> infer_instance

theorem keepsLeases_iff {point : LockPoint} :
    point.KeepsLeases now ↔
      Reliance.Current now (point.relies .lock) ∧ Reliance.Current now (point.relies .guard) := by
  have each : ∀ path, (∀ lease, point.relies path = some (.written lease) →
      lease.Unexpired now) ↔ Reliance.Current now (point.relies path) := by
    intro path
    cases point.relies path with
    | none => simp [Reliance.Current]
    | some reliance =>
      cases reliance with
      | created | written lease => simp [Reliance.Current]
  rw [← each, ← each]
  constructor
  · exact fun keeps => ⟨keeps .lock, keeps .guard⟩
  · rintro ⟨lock, guard⟩ (_ | _)
    · exact lock
    · exact guard

instance (point : LockPoint) (now : Nat) : Decidable (point.KeepsLeases now) :=
  decidable_of_iff _ keepsLeases_iff.symm

section

variable (bound : Nat)

/-- A step of one of the first processes, with the leases of these. -/
def LeasesKeptBelow (pool : Pool LockWorld LockPoint) (label : LockLabel)
    (_ : Pool LockWorld LockPoint) : Prop :=
  (match label with
    | .run process _ => process < bound
    | .kill _ | .tick _ => True) ∧
    ∀ process < bound, pool.world.alive process = true →
      (pool.points process).KeepsLeases pool.world.now

instance (pool next : Pool LockWorld LockPoint) :
    ∀ label, Decidable (LeasesKeptBelow bound pool label next)
  | .run process _ => inferInstanceAs (Decidable (process < bound ∧ _))
  | .kill _ => inferInstanceAs (Decidable (True ∧ _))
  | .tick _ => inferInstanceAs (Decidable (True ∧ _))

/-- All but the first processes are outside. -/
def OutsideFrom (pool : Pool LockWorld LockPoint) : Prop :=
  ∀ process, bound ≤ process → pool.points process = .outside

theorem leasesKept_of_below (outside : OutsideFrom bound start)
    (below : EveryStep lockStep (LeasesKeptBelow bound) start labels) :
    EveryStep lockStep LeasesKept start labels := by
  refine below.of_invariant ?_ outside
  rintro pool label next isOutside ⟨isBelow, keeps⟩ stepped
  constructor
  · intro process isAlive
    by_cases inside : process < bound
    · exact keeps process inside isAlive
    · rw [isOutside process (not_lt.mp inside)]
      rintro (_ | _) lease ⟨⟩
  · intro other notBelow
    cases label with
    | run process request =>
      simp only [lockStep] at stepped
      split at stepped
      next =>
        obtain ⟨world, point, _, rfl⟩ := Pool.advance_eq_some stepped
        have differs : other ≠ process := by
          rintro rfl
          exact absurd isBelow (not_lt.mpr notBelow)
        simpa [differs] using isOutside other notBelow
      next => cases stepped
    | kill victim | tick elapsed =>
      cases stepped
      exact isOutside other notBelow

/-- The removal that a point is about to make. -/
def LockPoint.aims (pool : Pool LockWorld LockPoint) : LockPoint → Prop
  | .removing removal .change => removal.Aims pool
  | _ => True

instance (pool : Pool LockWorld LockPoint) : ∀ point : LockPoint, Decidable (point.aims pool) := by
  intro point
  unfold LockPoint.aims
  split <;> infer_instance

theorem removesJudged_run_iff :
    RemovesJudged pool (.run process request) next ↔ (pool.points process).aims pool := by
  constructor
  · intro judged
    unfold LockPoint.aims
    split
    next removal isPoint => exact judged process request removal rfl isPoint
    next => trivial
  · rintro aims _ _ removal ⟨⟩ isPoint
    rw [isPoint] at aims
    exact aims

instance (pool next : Pool LockWorld LockPoint) :
    ∀ label, Decidable (RemovesJudged pool label next)
  | .run _ _ => decidable_of_iff _ removesJudged_run_iff.symm
  | .kill _ => isTrue nofun
  | .tick _ => isTrue nofun

/-- Calls of a process. -/
def lockCalls (process : Process) (count : Nat) : List LockLabel :=
  List.replicate count (.run process .proceed)

/-- The first process acquires the lock and begins to renew it, and is killed under the guard.
Both leases expire. -/
def abandonedRun : List LockLabel :=
  .run 1 (.acquire 10) :: lockCalls 1 3 ++ .run 1 .renew :: lockCalls 1 3 ++ [.kill 1, .tick 1000]

/-- The second process takes the lock over, and renews it. -/
def takeOverRun : List LockLabel :=
  abandonedRun ++ .run 2 (.acquire 30000) :: lockCalls 2 23 ++ .run 2 .renew :: lockCalls 2 10

/-- The second and the third process find the guard stale, and the third one removes the
guard of the second one in its place.  Both judge the abandoned lock. -/
def overtakenRun : List LockLabel :=
  abandonedRun ++ .run 2 (.acquire 30000) :: lockCalls 2 8 ++
    .run 3 (.acquire 30000) :: lockCalls 3 8 ++ lockCalls 2 8 ++ lockCalls 3 8 ++
    lockCalls 2 6 ++ lockCalls 3 7

/-- The second process is under the guard while the first one tries to renew. -/
def busyRun : List LockLabel :=
  .run 1 (.acquire 30000) :: lockCalls 1 3 ++ .run 2 (.acquire 30000) :: lockCalls 2 5 ++
    .run 1 .renew :: lockCalls 1 24

theorem outsideFrom_freeLock : OutsideFrom bound freeLock :=
  fun _ _ => rfl

end

theorem migrationLock_exclusive_takeOver :
    ∃ final, execute lockStep freeLock takeOverRun = some final ∧
      final.points 2 = .holding { leaseExpiresAt := 31000, pid := 2 } ∧
      ∀ other, HasLock final other → other = 2 := by
  obtain ⟨final, reached, isAlive, isHolding⟩ :
      ∃ final, execute lockStep freeLock takeOverRun = some final ∧ final.world.alive 2 = true ∧
        final.points 2 = .holding { leaseExpiresAt := 31000, pid := 2 } := by
    decide +kernel
  have kept : EveryStep lockStep LeasesKept freeLock takeOverRun :=
    leasesKept_of_below 3 (outsideFrom_freeLock 3) (by decide +kernel)
  have removesJudged : EveryStep lockStep RemovesJudged freeLock takeOverRun := by
    decide +kernel
  refine ⟨final, reached, isHolding, fun other hasLock => ?_⟩
  exact (migrationLock_exclusive (fun _ => rfl) reached kept removesJudged).1 other 2 hasLock
    ⟨isAlive, _, by rw [isHolding]; rfl⟩

/-- With all leases kept, two live processes hold the lock in one run, and a holder does not
get to renew it in another. -/
theorem not_exclusive_abandoned :
    EveryStep lockStep LeasesKept freeLock overtakenRun ∧
      (∃ final, execute lockStep freeLock overtakenRun = some final ∧
        HasLock final 2 ∧ HasLock final 3) ∧
      EveryStep lockStep LeasesKept freeLock busyRun ∧
      ∃ final, execute lockStep freeLock busyRun = some final ∧ final.world.alive 1 = true ∧
        final.points 1 = .renewFailed { leaseExpiresAt := 30000, pid := 1 } .busy := by
  refine ⟨leasesKept_of_below 4 (outsideFrom_freeLock 4) (by decide +kernel), ?_,
    leasesKept_of_below 3 (outsideFrom_freeLock 3) (by decide +kernel), by decide +kernel⟩
  obtain ⟨final, reached, ⟨secondAlive, secondHolds⟩, thirdAlive, thirdHolds⟩ :
      ∃ final, execute lockStep freeLock overtakenRun = some final ∧ (final.world.alive 2 = true ∧
          final.points 2 = .holding { leaseExpiresAt := 31000, pid := 2 }) ∧
        final.world.alive 3 = true ∧
          final.points 3 = .holding { leaseExpiresAt := 31000, pid := 3 } := by
    decide +kernel
  exact ⟨final, reached, ⟨secondAlive, _, by rw [secondHolds]; rfl⟩,
    thirdAlive, _, by rw [thirdHolds]; rfl⟩

end OpenAgent.Config
