import OpenAgent.Tasks.RecordLock

/-!
# No update of a record is lost

A live process relies on its lock file from the creation to the end of its section, as
long as the file has not grown stale.  The file is taken from it only by a process that
judged an older file, or none, and removes what it finds at the lock path later.  As
long as a removal hits the file that was judged, the stored record is the first one with
all changes applied in the order in which they were written.
-/

namespace OpenAgent.Tasks

open Library

namespace RecordPoint

/-- The lock file of the section that the process is in. -/
def held : RecordPoint → Option HeldLock
  | .stamping _ held | .reading _ held | .writing _ _ _ held | .replacing _ _ _ held
  | .caching held | .releasing held => some held
  | .outside | .opening _ | .judging _ | .removing _ _ => none

/-- The change that was made from a record that was read. -/
def based : RecordPoint → Option (RecordCall × TaskRecord × TaskRecord)
  | .writing call current next _ | .replacing call current next _ => some (call, current, next)
  | _ => none

/-- The lock file that was judged stale. -/
def condemned : RecordPoint → Option Nat
  | .removing _ judged => judged
  | _ => none

/-- The process is about to remove the lock file of another one. -/
def isRemoving : RecordPoint → Bool
  | .removing _ _ => true
  | _ => false

end RecordPoint

/-- The section of a lock has not lasted longer than a lock file may be left alone. -/
def RecordWorld.InWindow (world : RecordWorld) (held : HeldLock) : Prop :=
  world.clock ≤ held.createdAt + lockStaleMs
  deriving Decidable

section

variable (pool : Pool RecordWorld RecordPoint)

/-- A process that goes on in its section is within the window. -/
def SectionsInWindow (label : RecordLabel) (_ : Pool RecordWorld RecordPoint) : Prop :=
  match label with
  | .run process _ => ∀ held ∈ (pool.points process).held, pool.world.InWindow held
  | _ => True

/-- A process that removes the lock file of another one finds the one that it judged, or
none. -/
def RemovesJudged (label : RecordLabel) (_ : Pool RecordWorld RecordPoint) : Prop :=
  match label with
  | .run process _ => (pool.points process).isRemoving = true →
      ∀ file ∈ pool.world.lock, (pool.points process).condemned = some file.token
  | _ => True

instance : ∀ label next, Decidable (SectionsInWindow pool label next) := by
  intro label next
  unfold SectionsInWindow
  split <;> infer_instance

instance : ∀ label next, Decidable (RemovesJudged pool label next) := by
  intro label next
  unfold RemovesJudged
  split <;> infer_instance

end

section

variable (stored : Option TaskRecord)

section

variable (world : RecordWorld)

/-- The record is the first one with the changes written so far. -/
def Serial : Prop :=
  world.stored = stored.map fun first => world.committed.foldl RecordCall.apply first

instance  : Decidable (Serial stored world) :=
  inferInstanceAs (Decidable (_ = _))

/-- The stored record is the serial one, and tokens and times of the lock file are old. -/
structure RecordShared : Prop where
  serial : Serial stored world
  lock : ∀ file, world.lock = some file → file.token < world.nextToken ∧ file.mtimeMs ≤ world.clock

end

/-- A process in its window holds the lock with a file as young as its section, what it
read is still stored, and a file that it condemned is stale. -/
structure RecordLocal (process : Process) (point : RecordPoint) (world : RecordWorld) : Prop where
  holds : ∀ held, point.held = some held → world.InWindow held →
    ∃ file, world.lock = some file ∧ file.hostPid = process ∧ file.token = held.token ∧
      held.createdAt ≤ file.mtimeMs
  read : ∀ call current next held, point.based = some (call, current, next) →
    point.held = some held → call.next current = some next ∧
      (world.InWindow held → world.stored = some current)
  stale : ∀ token, point.condemned = some token → token < world.nextToken ∧
    ∀ file, world.lock = some file → file.token = token → file.mtimeMs + lockStaleMs < world.clock

abbrev RecordSound (pool : Pool RecordWorld RecordPoint) : Prop :=
  pool.Holds (RecordShared stored) RecordLocal

end

/-- A process that relies on nothing. -/
theorem RecordLocal.idle (notHeld : point.held = none) (notCondemned : point.condemned = none) :
    RecordLocal process point world where
  holds := by
    intro held isHeld
    rw [notHeld] at isHeld
    cases isHeld
  read := by
    intro call current next held _ isHeld
    rw [notHeld] at isHeld
    cases isHeld
  stale := by
    intro token isCondemned
    rw [notCondemned] at isCondemned
    cases isCondemned

/-- A process in its section that has read nothing that it goes by. -/
theorem RecordLocal.unread
    (holds : ∀ held, point.held = some held → world.InWindow held →
      ∃ file, world.lock = some file ∧ file.hostPid = process ∧ file.token = held.token ∧
        held.createdAt ≤ file.mtimeMs)
    (notBased : point.based = none)
    (notCondemned : point.condemned = none) : RecordLocal process point world where
  holds := holds
  read := by
    intro call current next held isBased
    rw [notBased] at isBased
    cases isBased
  stale := by
    intro token isCondemned
    rw [notCondemned] at isCondemned
    cases isCondemned

theorem RecordLocal.condemning (notHeld : point.held = none)
    (stale : ∀ token, point.condemned = some token → token < world.nextToken ∧
      ∀ file, world.lock = some file → file.token = token →
        file.mtimeMs + lockStaleMs < world.clock) :
    RecordLocal process point world where
  holds := by
    intro held isHeld
    rw [notHeld] at isHeld
    cases isHeld
  read := by
    intro call current next held _ isHeld
    rw [notHeld] at isHeld
    cases isHeld
  stale := stale

theorem recordSound_atRest : RecordSound stored (recordAtRest stored) where
  shared := {
    serial := Option.map_id'.symm
    lock := nofun }
  each := fun _ => .idle rfl rfl

section

variable (assertion : RecordLocal process point world)
include assertion

/-- What others do to the files while this process is not in its window. -/
theorem RecordLocal.disturbed (outside : ∀ held, point.held = some held → ¬ after.InWindow held)
    (stale : ∀ token, point.condemned = some token → token < after.nextToken ∧
      ∀ file, after.lock = some file → file.token = token →
        file.mtimeMs + lockStaleMs < after.clock) :
    RecordLocal process point after where
  holds := fun held isHeld inWindow => absurd inWindow (outside held isHeld)
  read := fun call current next held isBased isHeld =>
    ⟨(assertion.read call current next held isBased isHeld).1,
      fun inWindow => absurd inWindow (outside held isHeld)⟩
  stale := stale

/-- Two processes in their windows are one. -/
theorem RecordLocal.unique (isHeld : point.held = some held) (inWindow : world.InWindow held)
    (otherAssertion : RecordLocal other otherPoint world)
    (otherIsHeld : otherPoint.held = some otherHeld) (otherInWindow : world.InWindow otherHeld) :
    other = process := by
  obtain ⟨file, isLock, isOwn, -⟩ := assertion.holds held isHeld inWindow
  obtain ⟨otherFile, otherLock, ofOther, -⟩ :=
    otherAssertion.holds otherHeld otherIsHeld otherInWindow
  rw [isLock] at otherLock
  cases otherLock
  exact ofOther.symm.trans isOwn

/-- The clock goes on. -/
theorem RecordLocal.tick (elapsed : Nat) :
    RecordLocal process point { world with clock := world.clock + elapsed } where
  holds := fun held isHeld inWindow =>
    assertion.holds held isHeld (Nat.le_trans (Nat.le_add_right _ _) inWindow)
  read := fun call current next held isBased isHeld =>
    ⟨(assertion.read call current next held isBased isHeld).1, fun inWindow =>
      (assertion.read call current next held isBased isHeld).2
        (Nat.le_trans (Nat.le_add_right _ _) inWindow)⟩
  stale := fun token isCondemned =>
    ⟨(assertion.stale token isCondemned).1, fun file isLock isToken =>
      Nat.lt_add_right elapsed ((assertion.stale token isCondemned).2 file isLock isToken)⟩

end

/-- What a move has to establish: the shared assertion, its own one, and those of the
others. -/
def KeepsSound (stored : Option TaskRecord) (process : Process) (world after : RecordWorld)
    (next : RecordPoint) : Prop :=
  RecordShared stored after ∧ RecordLocal process next after ∧
    ∀ other otherPoint, other ≠ process → RecordLocal other otherPoint world →
      RecordLocal other otherPoint after

section

variable (shared : RecordShared stored world)
include shared

/-- A move that changes no file. -/
theorem KeepsSound.quiet (own : RecordLocal process next world) :
    KeepsSound stored process world world next :=
  ⟨shared, own, fun _ _ _ assertion => assertion⟩

/-- A lock file is created where there was none. -/
theorem KeepsSound.create (free : world.lock = none) (call : RecordCall) :
    KeepsSound stored process world (world.create process)
      (.stamping call ⟨world.nextToken, world.clock⟩) := by
  refine ⟨⟨shared.serial, ?_⟩, .unread ?_ rfl rfl, ?_⟩
  · intro file isLock
    cases isLock
    exact ⟨Nat.lt_succ_self _, Nat.le_refl _⟩
  · intro held isHeld _
    cases isHeld
    exact ⟨_, rfl, rfl, rfl, Nat.le_refl _⟩
  · intro other otherPoint _ assertion
    refine assertion.disturbed ?_ ?_
    · intro held isHeld inWindow
      obtain ⟨file, isLock, -⟩ := assertion.holds held isHeld inWindow
      rw [free] at isLock
      cases isLock
    · intro token isCondemned
      have older := (assertion.stale token isCondemned).1
      refine ⟨Nat.lt_succ_of_lt older, ?_⟩
      intro file isLock isToken
      cases isLock
      exact absurd isToken (Nat.ne_of_gt older)

/-- The lock file goes, which was stale, or that of the process itself. -/
theorem KeepsSound.removeLock
    (others : ∀ other otherPoint, other ≠ process → RecordLocal other otherPoint world →
      ∀ held, otherPoint.held = some held → ¬ world.InWindow held)
    (notHeld : next.held = none)
    (notCondemned : next.condemned = none) :
    KeepsSound stored process world world.removeLock next := by
  refine ⟨⟨shared.serial, nofun⟩, .idle notHeld notCondemned, ?_⟩
  intro other otherPoint differs assertion
  refine assertion.disturbed (others other otherPoint differs assertion) ?_
  intro token isCondemned
  exact ⟨(assertion.stale token isCondemned).1, nofun⟩

/-- The lock file of a process in its window is written. -/
theorem KeepsSound.stamp (own : RecordLocal process (.stamping call held) world)
    (inWindow : world.InWindow held) :
    KeepsSound stored process world (world.stamp held) (.reading call held) := by
  obtain ⟨file, isLock, isOwn, isToken, created⟩ := own.holds held rfl inWindow
  have stamped : (world.stamp held).lock = some { file with mtimeMs := world.clock } := by
    rw [RecordWorld.stamp, isLock, Option.map_some, if_pos isToken]
  have younger : held.createdAt ≤ world.clock := Nat.le_trans created (shared.lock file isLock).2
  refine ⟨⟨shared.serial, ?_⟩, .unread ?_ rfl rfl, ?_⟩
  · intro other isOther
    rw [stamped] at isOther
    cases isOther
    exact ⟨(shared.lock file isLock).1, Nat.le_refl _⟩
  · intro _ isHeld _
    cases isHeld
    exact ⟨_, stamped, isOwn, isToken, younger⟩
  · intro other otherPoint differs assertion
    refine assertion.disturbed ?_ ?_
    · intro otherHeld otherIsHeld otherInWindow
      exact differs (own.unique rfl inWindow assertion otherIsHeld otherInWindow)
    · intro token isCondemned
      obtain ⟨older, stale⟩ := assertion.stale token isCondemned
      refine ⟨older, ?_⟩
      intro other isOther isCondemnedFile
      rw [stamped] at isOther
      cases isOther
      have wasStale := stale file isLock isCondemnedFile
      have young : world.clock ≤ held.createdAt + lockStaleMs := inWindow
      omega

/-- The record is rewritten from what is still stored. -/
theorem KeepsSound.rewrite (own : RecordLocal process (.replacing call current written held) world)
    (inWindow : world.InWindow held) :
    KeepsSound stored process world (world.rewrite call written) (.caching held) := by
  obtain ⟨isNext, stillStored⟩ := own.read call current written held rfl rfl
  refine ⟨⟨?_, shared.lock⟩, .unread ?_ rfl rfl, ?_⟩
  · have before := shared.serial
    unfold Serial at before ⊢
    rw [stillStored inWindow] at before
    cases first : stored with
    | none =>
      rw [first] at before
      cases before
    | some initial =>
      rw [first, Option.map_some] at before
      have isCurrent := Option.some.inj before
      rw [Option.map_some, RecordWorld.rewrite, List.foldl_append, ← isCurrent]
      simp [RecordCall.apply, isNext]
  · intro _ isHeld _
    cases isHeld
    exact own.holds held rfl inWindow
  · intro other otherPoint differs assertion
    refine assertion.disturbed ?_ assertion.stale
    intro otherHeld otherIsHeld otherInWindow
    exact differs (own.unique rfl inWindow assertion otherIsHeld otherInWindow)

end

/-- The process goes on in its section, or leaves it, without a change of the files. -/
theorem RecordLocal.goOn (assertion : RecordLocal process point world)
    (fewer : ∀ held, next.held = some held → point.held = some held)
    (based : ∀ call current written held, next.based = some (call, current, written) →
      next.held = some held →
        call.next current = some written ∧ (world.InWindow held → world.stored = some current))
    (notCondemned : next.condemned = none) : RecordLocal process next world where
  holds := fun held isHeld => assertion.holds held (fewer held isHeld)
  read := based
  stale := by
    intro token isCondemned
    rw [notCondemned] at isCondemned
    cases isCondemned

theorem RecordLocal.leaveOff (assertion : RecordLocal process point world)
    (fewer : ∀ held, next.held = some held → point.held = some held) (notBased : next.based = none)
    (notCondemned : next.condemned = none) : RecordLocal process next world :=
  .unread (fun held isHeld => assertion.holds held (fewer held isHeld)) notBased notCondemned

theorem recordMove_keepsSound (shared : RecordShared stored world)
    (own : RecordLocal process point world) (inWindow : ∀ held ∈ point.held, world.InWindow held)
    (judgedThere : ∀ call judged, point = .removing call judged →
      ∀ file ∈ world.lock, judged = some file.token)
    (moved : recordMove process choice point world = some (after, next)) :
    KeepsSound stored process world after next := by
  revert own inWindow judgedThere moved
  fun_cases recordMove process choice point world <;>
    intro own inWindow judgedThere moved <;> cases moved
  case case1 | case2 | case6 | case8 => exact .quiet shared (.idle rfl rfl)
  case case3 call free => exact .create shared (by simpa using free) call
  case case4 call held => exact .stamp shared own (inWindow held rfl)
  case case5 call isStale =>
    refine .quiet shared (.condemning rfl ?_)
    intro token isCondemned
    obtain ⟨file, isLock, isToken⟩ := Option.map_eq_some_iff.mp isCondemned
    refine ⟨isToken ▸ (shared.lock file isLock).1, ?_⟩
    intro other isOther _
    rw [RecordWorld.isStaleLock, isOther] at isStale
    simpa using isStale
  case case9 call judged =>
    refine .removeLock shared ?_ rfl rfl
    intro other otherPoint _ assertion held isHeld otherInWindow
    obtain ⟨file, isLock, -, -, created⟩ := assertion.holds held isHeld otherInWindow
    have isJudged := judgedThere call judged rfl file isLock
    have isStale := (own.stale file.token isJudged).2 file isLock rfl
    have young : world.clock ≤ held.createdAt + lockStaleMs := otherInWindow
    omega
  case case10 | case11 | case15 =>
    exact .quiet shared (own.leaveOff (fun _ isHeld => isHeld) rfl rfl)
  case case12 call held current isStored written isNext =>
    refine .quiet shared (own.goOn (fun _ isHeld => isHeld) ?_ rfl)
    intro _ _ _ _ isBased _
    cases isBased
    exact ⟨isNext, fun _ => isStored⟩
  case case13 => exact .quiet shared (own.goOn (fun _ isHeld => isHeld) own.read rfl)
  case case14 call current written held => exact .rewrite shared own (inWindow held rfl)
  case case16 held =>
    refine .removeLock shared ?_ rfl rfl
    intro other otherPoint differs assertion otherHeld otherIsHeld otherInWindow
    exact differs (own.unique rfl (inWindow held rfl) assertion otherIsHeld otherInWindow)

theorem recordSound_step (pool : Pool RecordWorld RecordPoint) (label : RecordLabel)
    (next : Pool RecordWorld RecordPoint) (sound : RecordSound stored pool)
    (meets : SectionsInWindow pool label next ∧ RemovesJudged pool label next)
    (stepped : recordStep pool label = some next) : RecordSound stored next := by
  cases label with
  | run process choice =>
    simp only [recordStep] at stepped
    split at stepped
    next =>
      apply Pool.Holds.advance sound stepped
      intro world point moved
      have judgedThere : ∀ call judged, pool.points process = .removing call judged →
          ∀ file ∈ pool.world.lock, judged = some file.token := by
        intro call judged isPoint
        have removes : (pool.points process).isRemoving = true →
            ∀ file ∈ pool.world.lock, (pool.points process).condemned = some file.token :=
          meets.2
        rw [isPoint] at removes
        exact removes rfl
      obtain ⟨shared, own, others⟩ := recordMove_keepsSound sound.shared (sound.each process)
        meets.1 judgedThere moved
      exact ⟨shared, own, fun other differs assertion =>
        others other _ differs assertion⟩
    next => cases stepped
  | crash process =>
    cases stepped
    exact ⟨⟨sound.shared.serial, sound.shared.lock⟩, fun other =>
      ⟨(sound.each other).holds, (sound.each other).read, (sound.each other).stale⟩⟩
  | tick elapsed =>
    cases stepped
    refine ⟨⟨sound.shared.serial, fun file isLock => ?_⟩, fun other =>
      (sound.each other).tick elapsed⟩
    obtain ⟨older, past⟩ := sound.shared.lock file isLock
    exact ⟨older, Nat.le_add_right_of_le past⟩

/-- The stored record is the first one with all changes that were written, applied one
after the other, in every run whose sections end within the window and whose removals
hit what was judged. -/
theorem serial_of_removesJudged (stored : Option TaskRecord) (labels : List RecordLabel)
    (final : Pool RecordWorld RecordPoint)
    (reached : execute recordStep (recordAtRest stored) labels = some final)
    (inWindow : EveryStep recordStep SectionsInWindow (recordAtRest stored) labels)
    (judged : EveryStep recordStep RemovesJudged (recordAtRest stored) labels) :
    Serial stored final.world :=
  (invariant_of_execute recordSound_step recordSound_atRest reached
    (inWindow.and judged)).shared.serial

/-- A record that two processes change at different fields. -/
def sharedRecord : TaskRecord :=
  createTaskRecord
    { taskId := "st_1", executionMode := .inProcess, model := "gpt", resolvedModel := none,
      fallbackModels := [], pendingSteering := [] } 1 0

def killCall : RecordCall :=
  .mutate fun current => some { current with killed := true }

def notifyCall : RecordCall :=
  .mutate fun current => some { current with notifiedEpoch := 0 }

/-- So many steps of a process. -/
def goesOn (process : Process) (count : Nat) : List RecordLabel :=
  List.replicate count (.run process .proceed)

/-- A process dies with the lock, and the next one takes it over and writes. -/
theorem serial_of_removesJudged_takeover :
    ∃ final, execute recordStep (recordAtRest (some sharedRecord))
        (.run 0 (.call killCall) :: goesOn 0 1 ++ .crash 0 :: .tick 5001 ::
          .run 1 (.call notifyCall) :: goesOn 1 10) = some final ∧
      Serial (some sharedRecord) final.world := by
  have observed : (execute recordStep (recordAtRest (some sharedRecord))
      (.run 0 (.call killCall) :: goesOn 0 1 ++ .crash 0 :: .tick 5001 ::
        .run 1 (.call notifyCall) :: goesOn 1 10)).isSome = true := by decide +kernel
  obtain ⟨final, reached⟩ := Option.isSome_iff_exists.mp observed
  exact ⟨final, reached,
    serial_of_removesJudged _ _ final reached (by decide +kernel) (by decide +kernel)⟩

/-- Both judge the lock of the dead process; the second one removes the lock that the
first one has created by then, and both change the record. -/
def bothTakeOver : List RecordLabel :=
  .run 0 (.call killCall) :: goesOn 0 1 ++ .crash 0 :: .tick 5001 ::
    .run 1 (.call killCall) :: goesOn 1 2 ++ .run 2 (.call notifyCall) :: goesOn 2 2 ++
      goesOn 1 2 ++ goesOn 2 2 ++ goesOn 1 3 ++ goesOn 2 3 ++ goesOn 1 1 ++ goesOn 2 1

theorem not_serial_bothTakeOver :
    ¬ ∀ stored labels final, execute recordStep (recordAtRest stored) labels = some final →
      EveryStep recordStep SectionsInWindow (recordAtRest stored) labels →
        Serial stored final.world := by
  intro serial
  obtain ⟨final, reached, lost⟩ :
      ∃ final, execute recordStep (recordAtRest (some sharedRecord)) bothTakeOver = some final ∧
        ¬ Serial (some sharedRecord) final.world := by
    decide +kernel
  exact lost (serial _ _ final reached (by decide +kernel))

end OpenAgent.Tasks
