import OpenAgent.Library.Interleaving

/-!
# Lock files with an eviction mutex

Processes publish files at paths and rely on finding them there.  The file of a
dead process at the lock path may be evicted under a mutex, which is a file at
another path; the mutex of a dead process is reaped without a further mutex.
A move is described by its effect on the files and on what its process relies
on.  From this alone, two live processes never hold a file at one path.
-/

namespace OpenAgent.Library

/-- A lock file; its token is unique. -/
structure LockFile where
  hostPid : Process
  token : Nat
  deriving DecidableEq

/-- The files at the paths, and the processes that live. -/
structure LockTable (Path : Type) where
  fileAt : Path → Option LockFile
  alive : Process → Bool

namespace LockTable

variable {Path : Type}

def place [DecidableEq Path] (table : LockTable Path) (path : Path)
    (present : Option LockFile) : LockTable Path :=
  { table with fileAt := Function.update table.fileAt path present }

@[simp] theorem fileAt_place_self [DecidableEq Path] (table : LockTable Path) :
    (table.place path present).fileAt path = present := by
  simp [place]

theorem fileAt_place_of_ne [DecidableEq Path] (differs : other ≠ path) (table : LockTable Path) :
    (table.place path present).fileAt other = table.fileAt other := by
  simp [place, differs]

def kill (table : LockTable Path) (victim : Process) : LockTable Path :=
  { table with alive := Function.update table.alive victim false }

theorem alive_of_kill {table : LockTable Path}
    (isAlive : (table.kill victim).alive process = true) : table.alive process = true := by
  by_cases same : process = victim
  · simp [kill, same] at isAlive
  · simpa [kill, same] using isAlive

theorem dead_kill {table : LockTable Path} (isDead : table.alive process = false) :
    (table.kill victim).alive process = false := by
  rw [Bool.eq_false_iff]
  intro isAlive
  rw [alive_of_kill isAlive] at isDead
  cases isDead

end LockTable

/-- What a process relies on at a point. -/
structure Stake {Path : Type} (mutex : Path) where
  /-- Its own files. -/
  held : Path → Option LockFile
  /-- It is about to evict the file of a dead process. -/
  evicting : Bool
  /-- The file of a process that it has found dead. -/
  judged : Option LockFile
  guarded : evicting = true → ∃ file, held mutex = some file

section Moves

variable {Path : Type} [DecidableEq Path] {mutex : Path}

/-- The assertion of a process with a stake. -/
structure Sound (lock : Path) (process : Process) (stake : Stake mutex)
    (table : LockTable Path) : Prop where
  holds : table.alive process = true → ∀ path file, stake.held path = some file →
    table.fileAt path = some file ∧ file.hostPid = process
  evicts : table.alive process = true → stake.evicting = true →
    ∃ file, table.fileAt lock = some file ∧ table.alive file.hostPid = false
  dead : ∀ file, stake.judged = some file → table.alive file.hostPid = false

/-- The effect of a move on the files. -/
inductive FileEffect (lock : Path) (process : Process) (start : Stake mutex)
    (table : LockTable Path) : LockTable Path → Stake mutex → Prop
  /-- Nothing changes. -/
  | quiet {next} (fewer : ∀ path file, next.held path = some file → start.held path = some file)
      (evicting : next.evicting = true → start.evicting = true) :
      FileEffect lock process start table table next
  /-- An own file at a free path. -/
  | published {next path file} (free : table.fileAt path = none) (isOwn : file.hostPid = process)
      (held : ∀ place found, next.held place = some found → place = path ∧ found = file)
      (evicting : next.evicting = false) :
      FileEffect lock process start table (table.place path (some file)) next
  /-- The file at the lock path turns out to belong to a dead process. -/
  | found {next file}
      (fewer : ∀ path file, next.held path = some file → start.held path = some file)
      (isThere : table.fileAt lock = some file) (isDead : table.alive file.hostPid = false) :
      FileEffect lock process start table table next
  /-- It is evicted. -/
  | evicted {next present} (evicting : start.evicting = true)
      (isOwn : ∀ file, present = some file → file.hostPid = process)
      (held : ∀ path file, next.held path = some file →
        (path = lock ∧ present = some file) ∨ path ≠ lock ∧ start.held path = some file)
      (done : next.evicting = false) :
      FileEffect lock process start table (table.place lock present) next
  /-- An own file is removed. -/
  | dropped {next path file} (isHeld : start.held path = some file)
      (held : ∀ place found, next.held place = some found →
        place ≠ path ∧ start.held place = some found)
      (evicting : next.evicting = false) :
      FileEffect lock process start table (table.place path none) next
  /-- The mutex of a dead process is removed. -/
  | reaped {next file} (isThere : table.fileAt mutex = some file)
      (isDead : table.alive file.hostPid = false) (held : ∀ path, next.held path = none)
      (evicting : next.evicting = false) :
      FileEffect lock process start table (table.place mutex none) next
  /-- A file is put back at a free path. -/
  | restored {next path file} (free : table.fileAt path = none)
      (fewer : ∀ path file, next.held path = some file → start.held path = some file)
      (evicting : next.evicting = false) :
      FileEffect lock process start table (table.place path (some file)) next

/-- The effect of a move, and what its process has learnt. -/
structure LockEffect (lock : Path) (process : Process) (start : Stake mutex)
    (table after : LockTable Path) (next : Stake mutex) : Prop where
  files : FileEffect lock process start table after next
  learnt : ∀ file, next.judged = some file →
    start.judged = some file ∨ table.alive file.hostPid = false

variable {next stake : Stake mutex} {table : LockTable Path}

theorem FileEffect.alive_eq (effect : FileEffect lock process start table after next) :
    after.alive = table.alive := by
  cases effect <;> rfl

omit [DecidableEq Path] in
/-- Two live processes do not hold files at one path. -/
theorem Sound.held_unique (path : Path) (sound : Sound lock process start table)
    (isAlive : table.alive process = true) (isHeld : start.held path = some file)
    (otherSound : Sound lock other stake table) (otherAlive : table.alive other = true)
    (otherHeld : stake.held path = some foreign) : other = process := by
  obtain ⟨isThere, isOwn⟩ := sound.holds isAlive path file isHeld
  obtain ⟨isForeign, ofOther⟩ := otherSound.holds otherAlive path foreign otherHeld
  rw [isThere] at isForeign
  cases isForeign
  exact ofOther.symm.trans isOwn

/-- A new file at a free path disturbs nobody. -/
theorem Sound.ofFree (sound : Sound lock other stake table) (free : table.fileAt path = none) :
    Sound lock other stake (table.place path present) := by
  have elsewhere : ∀ {place found}, table.fileAt place = some found →
      (table.place path present).fileAt place = some found := by
    intro place found isThere
    rw [LockTable.fileAt_place_of_ne]
    · exact isThere
    · rintro rfl
      rw [free] at isThere
      cases isThere
  refine ⟨?_, ?_, sound.dead⟩
  · intro isAlive place found isHeld
    obtain ⟨isThere, isOwn⟩ := sound.holds isAlive place found isHeld
    exact ⟨elsewhere isThere, isOwn⟩
  · intro isAlive evicting
    obtain ⟨found, isThere, isDead⟩ := sound.evicts isAlive evicting
    exact ⟨found, elsewhere isThere, isDead⟩

/-- A file of no live process but the mover may change, unless it is about to be
evicted. -/
theorem Sound.ofForeign (sound : Sound lock other stake table)
    (isThere : table.fileAt path = some file)
    (foreign : table.alive other = true → file.hostPid ≠ other)
    (unguarded : table.alive other = true → path = lock →
      table.alive file.hostPid = false → stake.evicting = false) :
    Sound lock other stake (table.place path present) := by
  refine ⟨?_, ?_, sound.dead⟩
  · intro isAlive place found isHeld
    obtain ⟨isFound, isOwn⟩ := sound.holds isAlive place found isHeld
    have differs : place ≠ path := by
      rintro rfl
      rw [isThere] at isFound
      cases isFound
      exact foreign isAlive isOwn
    rw [LockTable.fileAt_place_of_ne differs]
    exact ⟨isFound, isOwn⟩
  · intro isAlive evicting
    obtain ⟨found, isFound, isDead⟩ := sound.evicts isAlive evicting
    have differs : lock ≠ path := by
      rintro rfl
      rw [isThere] at isFound
      cases isFound
      rw [unguarded isAlive rfl isDead] at evicting
      cases evicting
    rw [LockTable.fileAt_place_of_ne differs]
    exact ⟨found, isFound, isDead⟩

omit [DecidableEq Path] in
theorem Sound.ofKill (sound : Sound lock process stake table) (victim : Process) :
    Sound lock process stake (table.kill victim) := by
  refine ⟨?_, ?_, ?_⟩
  · intro isAlive
    exact sound.holds (LockTable.alive_of_kill isAlive)
  · intro isAlive evicting
    obtain ⟨file, isThere, isDead⟩ := sound.evicts (LockTable.alive_of_kill isAlive) evicting
    exact ⟨file, isThere, LockTable.dead_kill isDead⟩
  · intro file isJudged
    exact LockTable.dead_kill (sound.dead file isJudged)

omit [DecidableEq Path] in
theorem hostPid_ne_of_dead {file : LockFile} (isDead : table.alive file.hostPid = false)
    (otherAlive : table.alive other = true) : file.hostPid ≠ other := by
  rintro rfl
  rw [isDead] at otherAlive
  cases otherAlive

/-- No process but the mover loses what it relies on. -/
theorem FileEffect.others (distinct : mutex ≠ lock)
    (effect : FileEffect lock process start table after next) (own : Sound lock process start table)
    (isAlive : table.alive process = true) (differs : other ≠ process)
    (sound : Sound lock other stake table) : Sound lock other stake after := by
  cases effect with
  | quiet _ _ => exact sound
  | published free _ _ _ => exact sound.ofFree free
  | found _ _ _ => exact sound
  | evicted evicting _ _ _ =>
    obtain ⟨file, isThere, isDead⟩ := own.evicts isAlive evicting
    refine sound.ofForeign isThere (hostPid_ne_of_dead isDead) ?_
    intro otherAlive _ _
    rw [Bool.eq_false_iff]
    intro otherEvicting
    obtain ⟨_, isHeld⟩ := start.guarded evicting
    obtain ⟨_, otherHeld⟩ := stake.guarded otherEvicting
    exact differs (own.held_unique mutex isAlive isHeld sound otherAlive otherHeld)
  | @dropped _ path file isHeld _ _ =>
    obtain ⟨isThere, isOwn⟩ := own.holds isAlive path file isHeld
    refine sound.ofForeign isThere ?_ ?_
    · intro _ ofOther
      exact differs (ofOther.symm.trans isOwn)
    · intro _ _ isDead
      rw [isOwn, isAlive] at isDead
      cases isDead
  | reaped isThere isDead _ _ =>
    refine sound.ofForeign isThere (hostPid_ne_of_dead isDead) ?_
    intro _ isLock
    exact absurd isLock distinct
  | restored free _ _ => exact sound.ofFree free

/-- Going on without a change of the files. -/
theorem LockEffect.goOn
    (fewer : ∀ path file, next.held path = some file → start.held path = some file)
    (evicting : next.evicting = true → start.evicting = true)
    (judged : ∀ file, next.judged = some file → start.judged = some file) :
    LockEffect lock process start table table next where
  files := .quiet fewer evicting
  learnt := fun file isJudged => .inl (judged file isJudged)

/-- Going on to a point that relies on nothing. -/
theorem LockEffect.idle (held : ∀ path, next.held path = none) (evicting : next.evicting = false)
    (judged : next.judged = none) : LockEffect lock process start table table next := by
  refine .goOn ?_ ?_ ?_
  · intro path file isHeld
    rw [held] at isHeld
    cases isHeld
  · intro isEvicting
    rw [evicting] at isEvicting
    cases isEvicting
  · intro file isJudged
    rw [judged] at isJudged
    cases isJudged

/-- The mover can rely on what it has established. -/
theorem LockEffect.own (effect : LockEffect lock process start table after next)
    (own : Sound lock process start table) : Sound lock process next after := by
  obtain ⟨files, learnt⟩ := effect
  have dead : ∀ file, next.judged = some file → after.alive file.hostPid = false := by
    intro file isJudged
    rw [files.alive_eq]
    exact (learnt file isJudged).elim (own.dead file) id
  have never : ∀ {claim : Prop}, next.evicting = false → next.evicting = true → claim := by
    intro claim isFalse isTrue
    rw [isFalse] at isTrue
    cases isTrue
  cases files with
  | quiet fewer evicting =>
    exact ⟨fun isAlive path file isHeld => own.holds isAlive path file (fewer path file isHeld),
      fun isAlive isEvicting => own.evicts isAlive (evicting isEvicting), dead⟩
  | @published _ path file free isOwn held evicting =>
    refine ⟨?_, fun _ => never evicting, dead⟩
    intro _ place found isHeld
    obtain ⟨rfl, rfl⟩ := held place found isHeld
    exact ⟨LockTable.fileAt_place_self _, isOwn⟩
  | @found _ file fewer isThere isDead =>
    exact ⟨fun isAlive path file isHeld => own.holds isAlive path file (fewer path file isHeld),
      fun _ _ => ⟨file, isThere, isDead⟩, dead⟩
  | @evicted _ present evicting isOwn held done =>
    refine ⟨?_, fun _ => never done, dead⟩
    intro isAlive path file isHeld
    rcases held path file isHeld with ⟨rfl, rfl⟩ | ⟨differs, isHeld⟩
    · exact ⟨LockTable.fileAt_place_self _, isOwn file rfl⟩
    · rw [LockTable.fileAt_place_of_ne differs]
      exact own.holds isAlive path file isHeld
  | @dropped _ path file isHeld held evicting =>
    refine ⟨?_, fun _ => never evicting, dead⟩
    intro isAlive place found isFound
    obtain ⟨differs, isHeld⟩ := held place found isFound
    rw [LockTable.fileAt_place_of_ne differs]
    exact own.holds isAlive place found isHeld
  | reaped _ _ held evicting =>
    refine ⟨?_, fun _ => never evicting, dead⟩
    intro _ place found isHeld
    rw [held place] at isHeld
    cases isHeld
  | restored free fewer evicting =>
    refine ⟨?_, fun _ => never evicting, dead⟩
    intro isAlive place found isHeld
    exact (own.ofFree free).holds isAlive place found (fewer place found isHeld)

end Moves

section Pools

variable {Path : Type} {mutex : Path} {stakeOf : Point → Stake mutex}

/-- Every process can rely on its stake. -/
abbrev AllSound (lock : Path) (tableOf : World → LockTable Path) (stakeOf : Point → Stake mutex)
    (pool : Pool World Point) : Prop :=
  pool.Holds (fun _ => True)
    fun process point world => Sound lock process (stakeOf point) (tableOf world)

theorem AllSound.advance [DecidableEq Path] (distinct : mutex ≠ lock)
    (sound : AllSound lock tableOf stakeOf pool)
    (isAlive : (tableOf pool.world).alive process = true)
    (advanced : pool.advance move process = some next)
    (effect : ∀ world point, move (pool.points process) pool.world = some (world, point) →
      LockEffect lock process (stakeOf (pool.points process)) (tableOf pool.world)
        (tableOf world) (stakeOf point)) :
    AllSound lock tableOf stakeOf next := by
  apply Pool.Holds.advance sound advanced
  intro world point moved
  have own := sound.each process
  refine ⟨trivial, (effect world point moved).own own, ?_⟩
  intro other differs others
  exact (effect world point moved).files.others distinct own isAlive differs others

theorem AllSound.kill (sound : AllSound lock tableOf stakeOf pool) (victim : Process)
    (killed : tableOf world = (tableOf pool.world).kill victim) :
    AllSound lock tableOf stakeOf { pool with world := world } where
  shared := trivial
  each := by
    intro process
    rw [killed]
    exact (sound.each process).ofKill victim

/-- At most one live process holds a file at a path. -/
theorem AllSound.exclusive (sound : AllSound lock tableOf stakeOf pool) (path : Path)
    (leftAlive : (tableOf pool.world).alive left = true)
    (leftHeld : (stakeOf (pool.points left)).held path = some leftFile)
    (rightAlive : (tableOf pool.world).alive right = true)
    (rightHeld : (stakeOf (pool.points right)).held path = some rightFile) : left = right :=
  (sound.each right).held_unique path rightAlive rightHeld (sound.each left) leftAlive leftHeld

end Pools

end OpenAgent.Library
