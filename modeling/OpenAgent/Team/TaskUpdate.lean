import OpenAgent.Team.ClaimExclusive
import Mathlib.Logic.Relation

/-!
# The status of a task

`updateTaskStatus` of `team-tasklist/update.ts` beside `claimTask`, for one
task.  A call reads the task, checks the step it is asked for against what it
has read, and writes the whole task back; only `claimTask` holds the claim
lock meanwhile.  The stored status follows the allowed transitions as long as
every call writes over the status it has read.
-/

namespace OpenAgent.Team

open Library

/-- `ALLOWED_TRANSITIONS`. -/
def allowedTransitions : TaskStatus → List TaskStatus
  | .pending => [.claimed, .deleted]
  | .claimed => [.inProgress, .deleted]
  | .inProgress => [.completed, .deleted]
  | .completed => [.deleted]
  | .deleted => []

/-- `isValidTransition`. -/
def isValidTransition (current next : TaskStatus) : Bool :=
  current == next || (allowedTransitions current).contains next

/-- What a call is asked for. -/
inductive TaskRequest
  | claim
  | update (newStatus : TaskStatus)

/-- The task as a call has read it.  The owner is the call that has written
it. -/
structure ReadTask where
  status : TaskStatus
  owner : Option Process

/-- How a call ends. -/
inductive TaskOutcome
  | returned
  /-- `InvalidTaskTransitionError`. -/
  | invalidTransition (current next : TaskStatus)
  /-- `CrossOwnerUpdateError`. -/
  | crossOwner
  /-- The error of `claimTask`. -/
  | unclaimed

/-- The points of `claimTask` and `updateTaskStatus`. -/
inductive TaskPoint
  | start
  /-- Inside a call of `claimTask`. -/
  | claiming (point : ClaimPoint)
  /-- `getTask` of `updateTaskStatus`. -/
  | getTask (newStatus : TaskStatus)
  /-- Inside the `claimTask` of an update to `in_progress`. -/
  | claimingFirst (newStatus : TaskStatus) (point : ClaimPoint)
  /-- The rename of `atomicWrite`. -/
  | writeTask (newStatus : TaskStatus) (task : ReadTask)
  | finished (outcome : TaskOutcome)

/-- The names of the members that make the calls, and what they ask for. -/
structure TaskCalls (Member : Type) where
  pidOf : Process → Nat
  memberOf : Process → Member
  requestOf : Process → TaskRequest

section Moves

variable {Member : Type} [DecidableEq Member] (calls : TaskCalls Member)

/-- `updateTaskStatus` behind its `getTask`. -/
def checkUpdate (process : Process) (newStatus : TaskStatus) (task : ReadTask) : TaskPoint :=
  if task.status = newStatus then .finished .returned
  else if task.status = .pending && newStatus == .inProgress then
    .claimingFirst newStatus .readTask
  else if isValidTransition task.status newStatus then
    if newStatus ≠ .deleted ∧ task.owner.map calls.memberOf ≠ some (calls.memberOf process) then
      .finished .crossOwner
    else .writeTask newStatus task
  else .finished (.invalidTransition task.status newStatus)

/-- Behind a step of the inner `claimTask`. -/
def afterClaimStep (newStatus : TaskStatus) : ClaimPoint → TaskPoint
  | .finished true => .getTask newStatus
  | .finished false => .finished .unclaimed
  | point => .claimingFirst newStatus point

/-- The move of a call. -/
def taskMove (process : Process) (choice : ClaimChoice) (point : TaskPoint)
    (world : ClaimWorld) : Option (ClaimWorld × TaskPoint) :=
  match point with
  | .start =>
    match calls.requestOf process with
    | .claim => some (world, .claiming .readTask)
    | .update newStatus => some (world, .getTask newStatus)
  | .claiming point =>
    (claimMove calls.pidOf process choice point world).map fun moved =>
      (moved.1, .claiming moved.2)
  | .getTask newStatus =>
    some (world, checkUpdate calls process newStatus ⟨world.status, world.owner⟩)
  | .claimingFirst newStatus point =>
    (claimMove calls.pidOf process choice point world).map fun moved =>
      (moved.1, afterClaimStep newStatus moved.2)
  | .writeTask newStatus task =>
    some ({ world with status := newStatus, owner := task.owner }, .finished .returned)
  | .finished _ => none

/-- One step of the calls; a call of a dead process does not move. -/
def taskStep (pool : Pool ClaimWorld TaskPoint)
    (label : ClaimLabel) : Option (Pool ClaimWorld TaskPoint) :=
  match label with
  | .run process choice =>
    if pool.world.alive (calls.pidOf process) then
      pool.advance (taskMove calls process choice) process
    else none
  | .crash pid =>
    some { pool with world :=
      { pool.world with alive := Function.update pool.world.alive pid false } }

end Moves

/-- A task in any state before any call. -/
def storedTask (world : ClaimWorld) : Pool ClaimWorld TaskPoint where
  world := world
  points := fun _ => .start

/-- The status that a call has read when it is about to write the task. -/
def TaskPoint.writesOver : TaskPoint → Option TaskStatus
  | .claiming .writeTask => some .pending
  | .claimingFirst _ .writeTask => some .pending
  | .writeTask _ task => some task.status
  | _ => none

/-- A call that writes the task finds the status stored that it has read. -/
def WritesWhatItRead (pool : Pool ClaimWorld TaskPoint) (label : ClaimLabel)
    (_ : Pool ClaimWorld TaskPoint) : Prop :=
  ∀ process choice status, label = .run process choice →
    (pool.points process).writesOver = some status → pool.world.status = status

/-- The only write of `claimTask`. -/
theorem status_of_claimMove
    (moved : claimMove pidOf process choice point world = some (after, next)) :
    after.status = world.status ∨ (point = .writeTask ∧ after.status = .claimed) := by
  cases claimMove_effect moved with
  | claimed => exact Or.inr ⟨rfl, rfl⟩
  | _ => exact Or.inl rfl

/-- A call that is about to write a status has checked it against the one it
has read. -/
def CheckedWrite (point : TaskPoint) : Prop :=
  ∀ newStatus task, point = .writeTask newStatus task →
    isValidTransition task.status newStatus = true

/-- One status follows from another by the allowed transitions. -/
def Advanced : TaskStatus → TaskStatus → Prop :=
  Relation.ReflTransGen fun current next => next ∈ allowedTransitions current

theorem advanced_of_isValidTransition (valid : isValidTransition current next = true) :
    Advanced current next := by
  rw [isValidTransition, Bool.or_eq_true] at valid
  rcases valid with same | allowed
  · rw [beq_iff_eq.mp same]
    exact Relation.ReflTransGen.refl
  · exact Relation.ReflTransGen.single (by simpa using allowed)

/-- A task that is completed or deleted stays so. -/
theorem Advanced.ended (advanced : Advanced current next)
    (ended : current = .completed ∨ current = .deleted) : next = .completed ∨ next = .deleted := by
  induction advanced with
  | refl => exact ended
  | tail _ allowed ih =>
    rcases ih with rfl | rfl
    · exact Or.inr (by simpa [allowedTransitions] using allowed)
    · cases allowed

section Steps

variable {Member : Type} [DecidableEq Member] {calls : TaskCalls Member}

theorem checkedWrite_checkUpdate : CheckedWrite (checkUpdate calls process newStatus task) := by
  intro written read isWrite
  unfold checkUpdate at isWrite
  split at isWrite
  next => cases isWrite
  next =>
    split at isWrite
    next => cases isWrite
    next =>
      split at isWrite
      next valid =>
        split at isWrite
        next => cases isWrite
        next =>
          cases isWrite
          exact valid
      next => cases isWrite

theorem checkedWrite_afterClaimStep : CheckedWrite (afterClaimStep newStatus point) := by
  intro written read isWrite
  unfold afterClaimStep at isWrite
  split at isWrite <;> cases isWrite

/-- What a move leaves: a checked point, and a status that follows from the
stored one if the call writes over what it has read. -/
theorem taskMove_advances (moved : taskMove calls process choice point world = some (after, next))
    (checked : CheckedWrite point)
    (current : ∀ status, point.writesOver = some status → world.status = status) :
    CheckedWrite next ∧ Advanced world.status after.status := by
  cases point with
  | start =>
    simp only [taskMove] at moved
    split at moved <;> cases moved
    · exact ⟨fun _ _ isWrite => (nomatch isWrite), .refl⟩
    · exact ⟨fun _ _ isWrite => (nomatch isWrite), .refl⟩
  | claiming point | claimingFirst newStatus point =>
    obtain ⟨⟨moving, reached⟩, isMove, result⟩ := Option.map_eq_some_iff.mp moved
    cases result
    refine ⟨?_, ?_⟩
    · first
        | exact checkedWrite_afterClaimStep
        | exact fun _ _ isWrite => (nomatch isWrite)
    rcases status_of_claimMove isMove with same | ⟨rfl, claimed⟩
    · rw [same]
      exact .refl
    · rw [claimed, current .pending rfl]
      exact advanced_of_isValidTransition rfl
  | getTask newStatus =>
    cases moved
    exact ⟨checkedWrite_checkUpdate, .refl⟩
  | writeTask newStatus task =>
    cases moved
    refine ⟨fun _ _ isWrite => (nomatch isWrite), ?_⟩
    rw [current task.status rfl]
    exact advanced_of_isValidTransition (checked newStatus task rfl)
  | finished outcome => cases moved

/-- Every call stands at a checked point. -/
def AllChecked (pool : Pool ClaimWorld TaskPoint) : Prop :=
  ∀ process, CheckedWrite (pool.points process)

/-- One step of the calls. -/
theorem AllChecked.step (checked : AllChecked pool) (current : WritesWhatItRead pool label next)
    (taken : taskStep calls pool label = some next) :
    Advanced pool.world.status next.world.status ∧ AllChecked next := by
  cases label with
  | crash pid =>
    cases taken
    exact ⟨.refl, checked⟩
  | run process choice =>
    simp only [taskStep] at taken
    split at taken
    next =>
      obtain ⟨world, point, moved, rfl⟩ := Pool.advance_eq_some taken
      obtain ⟨ownChecked, advanced⟩ := taskMove_advances moved (checked process)
        fun status => current process choice status rfl
      refine ⟨advanced, fun other => ?_⟩
      by_cases same : other = process
      · subst same
        simpa using ownChecked
      · simpa [same] using checked other
    next => cases taken

/-- What the stored status of a task should do along a run: each stored status
follows from the one before it, and a task that is completed or deleted is
never claimed or in progress again. -/
def StatusMonotone (calls : TaskCalls Member) (world : ClaimWorld)
    (labels : List ClaimLabel) : Prop :=
  EveryStep (taskStep calls) (fun pool _ next => Advanced pool.world.status next.world.status)
      (storedTask world) labels ∧
    ∀ front rest middle final, labels = front ++ rest →
      execute (taskStep calls) (storedTask world) front = some middle →
      execute (taskStep calls) middle rest = some final →
      middle.world.status = .completed ∨ middle.world.status = .deleted →
      final.world.status ≠ .claimed ∧ final.world.status ≠ .inProgress

theorem advanced_of_everyStep
    (everyStep : EveryStep (taskStep calls)
      (fun pool _ next => Advanced pool.world.status next.world.status) pool labels)
    (reached : execute (taskStep calls) pool labels = some final) :
    Advanced pool.world.status final.world.status := by
  induction labels generalizing pool with
  | nil =>
    cases reached
    exact .refl
  | cons label labels ih =>
    obtain ⟨next, taken, rest⟩ := execute_cons_eq_some.mp reached
    obtain ⟨advanced, later⟩ := everyStep next taken
    exact advanced.trans (ih later rest)

/-- In every run of any number of claims and updates, whatever the task and
its lock were before, the stored status is monotone if every call writes over
the status it has read. -/
theorem statusMonotone_of_writesWhatItRead {world : ClaimWorld} {labels : List ClaimLabel}
    (current : EveryStep (taskStep calls) WritesWhatItRead (storedTask world) labels) :
    StatusMonotone calls world labels := by
  have everyStep : EveryStep (taskStep calls)
      (fun pool _ next => Advanced pool.world.status next.world.status)
      (storedTask world) labels :=
    current.of_invariant (fun _ _ _ checked writes taken => AllChecked.step checked writes taken)
      (fun _ _ _ isWrite => nomatch isWrite)
  refine ⟨everyStep, ?_⟩
  rintro front rest middle final rfl reached finished ended
  have later := advanced_of_everyStep (everyStep.append reached) finished
  rcases later.ended ended with isCompleted | isDeleted
  · rw [isCompleted]
    exact ⟨nofun, nofun⟩
  · rw [isDeleted]
    exact ⟨nofun, nofun⟩

end Steps

/-- Two calls of the member that has claimed the task: the first takes up the
work, the second deletes the task. -/
def takeUpAndDelete : TaskCalls Nat where
  pidOf := id
  memberOf := fun _ => 0
  requestOf := fun process => .update (if process = 0 then .inProgress else .deleted)

/-- A claimed task without a lock. -/
def claimedTask : ClaimWorld where
  lock := none
  status := .claimed
  owner := some 0
  alive := fun _ => true

/-- One call after the other. -/
theorem statusMonotone_inTurn :
    StatusMonotone takeUpAndDelete claimedTask [.run 0 .proceed, .run 0 .proceed, .run 0 .proceed,
        .run 1 .proceed, .run 1 .proceed, .run 1 .proceed] :=
  statusMonotone_of_writesWhatItRead (by
    iterate 6 apply EveryStep.cons rfl (by rintro _ _ _ ⟨⟩ writes; cases writes <;> rfl)
    trivial)

/-- The task is deleted behind the read of the other call, which then stores
it as in progress again. -/
theorem not_statusMonotone_crossing :
    ¬ StatusMonotone takeUpAndDelete claimedTask
      [.run 0 .proceed, .run 0 .proceed, .run 1 .proceed, .run 1 .proceed, .run 1 .proceed,
        .run 0 .proceed] := by
  intro monotone
  have again := monotone.2 [.run 0 .proceed, .run 0 .proceed, .run 1 .proceed, .run 1 .proceed,
    .run 1 .proceed] [.run 0 .proceed] _ _ rfl rfl rfl (Or.inr rfl)
  exact again.2 rfl

end OpenAgent.Team
