import OpenAgent.UlwLoop.FinalGate

/-!
# Working a schedule off

The loop that starts the next goal, records `pass` for its criteria and checkpoints it complete,
with accepted steerings at any moment.
-/

namespace OpenAgent.UlwLoop

open Library

/-- A plan, with the goal that the loop works on and its criteria that are left to record. -/
structure Driver where
  plan : Plan
  working : Option (Text × List Text)

/-- A step of the driver. -/
inductive DriverLabel
  | steer (proposal : SteeringProposal)
  | start (retryFailed : Bool)
  | record
  | checkpoint (args : CheckpointArgs)

/-- A completion with a valid Codex snapshot and a valid gate with the counts that are expected. -/
def Plan.completes (plan : Plan) (args : CheckpointArgs) : Bool :=
  args.status = .complete && args.hasEvidence && args.codexValid &&
    match args.qualityGate with
    | .accepted coverage =>
      (plan.batchClosedBy args.goalId).all fun batch => coverage = plan.batchCoverage batch
    | .missing | .invalid => false

namespace Driver

variable (driver : Driver)

def step : DriverLabel → Option Driver
  | .steer proposal =>
    if driver.plan.validateSteering proposal = [] then
      some { driver with plan := driver.plan.applySteeringMutation proposal }
    else none
  | .start retryFailed =>
    match driver.working, driver.plan.startNext retryFailed with
    | none, (plan, some id) =>
      some
        { plan
          working := some (id, ((plan.findGoal id).map fun goal =>
            goal.successCriteria.map fun criterion => criterion.id).getD []) }
    | _, _ => none
  | .record =>
    match driver.working with
    | some (id, criterionId :: rest) =>
      (driver.plan.recordEvidence id criterionId .pass).map fun plan =>
        { plan, working := some (id, rest) }
    | _ => none
  | .checkpoint args =>
    if driver.working = some (args.goalId, []) ∧ driver.plan.completes args then
      match driver.plan.checkpoint args with
      | .ok result => some { plan := result.plan, working := none }
      | .error _ => none
    else none

/-- No checkpoint of the loop is rejected. -/
def NeverRejected : Prop :=
  ∀ args, driver.working = some (args.goalId, []) → driver.plan.completes args = true →
    ∃ result, driver.plan.checkpoint args = .ok result

/-- A checkpoint of the loop is rejected only while the batch that it closes has another member
that is not resolved. -/
def RejectedForBatch : Prop :=
  ∀ args, driver.working = some (args.goalId, []) → driver.plan.completes args = true →
    ∃ goal, driver.plan.findGoal args.goalId = some goal ∧
      if driver.plan.batchFinalReady goal then ∃ result, driver.plan.checkpoint args = .ok result
      else driver.plan.checkpoint args = .error .batchOpen

/-- Every criterion that is left can be recorded. -/
def CanRecord : Prop :=
  ∀ id criterionId rest, driver.working = some (id, criterionId :: rest) →
    (driver.plan.recordEvidence id criterionId .pass).isSome = true

/-- A start that reports done leaves a plan that is. -/
def DoneWhenReported : Prop :=
  driver.working = none → ∀ retryFailed, (driver.plan.startNext retryFailed).2 = none →
    driver.plan.isUlwLoopDone = true

/-- A steering that replaces a goal has replacements, and the goal is no longer pending.  A split is
accepted for pending goals only, so this leaves out splits and supersessions of pending goals. -/
def ReplacesStarted : DriverLabel → Prop
  | .steer proposal => proposal.Replaces → proposal.children ≠ [] ∧
      ∀ target, driver.plan.steeringTarget proposal = some target → target.status ≠ .pending
  | _ => True

instance : (label : DriverLabel) → Decidable (driver.ReplacesStarted label)
  | .steer _ => inferInstanceAs (Decidable (_ = _ ∨ _ = _ → _ ∧ ∀ target, _ = some target → _))
  | .start _ | .record | .checkpoint _ => .isTrue trivial

end Driver

/-- The identifiers of `seedDefaultSuccessCriteria`, and which of them are essential. -/
def seededCriteria : List (Text × Option Bool) :=
  [(text "C001", some true), (text "C002", some true), (text "C003", some false)]

def SuccessCriterion.seed (criterion : SuccessCriterion) : Text × Option Bool :=
  (criterion.id, criterion.essential)

/-- A goal of a plan with these identifiers, where the loop works on the current one. -/
structure Goal.Sound (ids : List Text) (current : Option Text) (goal : Goal) : Prop where
  seeded : goal.successCriteria.map SuccessCriterion.seed = seededCriteria
  status : goal.status = .pending ∨ goal.status = .complete ∨
    goal.status = .inProgress ∧ current = some goal.id
  passed : goal.status = .complete → ∀ criterion ∈ goal.successCriteria, criterion.status = .pass
  notBlocked : goal.steeringStatus ≠ some .blocked
  replaced : goal.steeringStatus = some .superseded → goal.status ≠ .pending ∧
    goal.replacements ≠ [] ∧ ∀ id ∈ goal.replacements, id ∈ ids

structure Workable (driver : Driver) : Prop where
  numbered : Numbered driver.plan.ids
  goals : ∀ goal ∈ driver.plan.goals, goal.Sound driver.plan.ids (driver.working.map Prod.fst)
  members : ∀ batch ∈ driver.plan.batches, ∀ id ∈ batch.memberIds,
    ∃ goal ∈ driver.plan.goals, goal.id = id ∧ goal.isSuperseded = false
  current : ∀ id left, driver.working = some (id, left) →
    (∀ criterionId ∈ left, criterionId ∈ seededCriteria.map Prod.fst) ∧
    ∃ goal ∈ driver.plan.goals, goal.id = id ∧ goal.status = .inProgress ∧
      ∀ criterion ∈ goal.successCriteria, criterion.id ∈ left ∨ criterion.status = .pass

theorem Goal.Sound.of_fresh {goal : Goal} (isFresh : goal.IsFresh) (ids : List Text)
    (current : Option Text) : goal.Sound ids current := by
  obtain ⟨_, _, _, _, rfl⟩ := isFresh
  exact
    { seeded := rfl
      status := .inl rfl
      passed := GoalStatus.noConfusion
      notBlocked := fun isBlocked => by cases isBlocked
      replaced := fun isReplaced => by cases isReplaced }

theorem criterion_of_marks {criteria others : List SuccessCriterion}
    (marks : others.map SuccessCriterion.mark = criteria.map SuccessCriterion.mark)
    (member : criterion ∈ others) :
    ∃ twin ∈ criteria, twin.id = criterion.id ∧ twin.status = criterion.status := by
  have isMark : criterion.mark ∈ others.map SuccessCriterion.mark := List.mem_map_of_mem member
  rw [marks, List.mem_map] at isMark
  obtain ⟨twin, isMember, same⟩ := isMark
  simp only [SuccessCriterion.mark, Prod.mk.injEq] at same
  exact ⟨twin, isMember, same.1, same.2.2⟩

/-- Of a goal it only matters how far it is. -/
theorem Goal.Sound.of_progress {goal other : Goal} (sound : goal.Sound ids current)
    (same : other.progress = goal.progress) : other.Sound ids current := by
  simp only [Goal.progress, Goal.standing, Prod.mk.injEq] at same
  obtain ⟨⟨sameId, status, steering, replacements⟩, marks⟩ := same
  have sameReplacements : other.replacements = goal.replacements := by
    rw [Goal.replacements, replacements, Goal.replacements]
  refine ⟨?_, ?_, ?_, ?_, ?_⟩
  · have seeds := congrArg (List.map fun mark => (mark.1, mark.2.1)) marks
    rw [List.map_map, List.map_map] at seeds
    exact Eq.trans seeds sound.seeded
  · rw [status, sameId]
    exact sound.status
  · rw [status]
    intro complete criterion member
    obtain ⟨twin, isMember, _, sameStatus⟩ := criterion_of_marks marks member
    rw [← sameStatus, sound.passed complete twin isMember]
  · rw [steering]
    exact sound.notBlocked
  · rw [steering, status, sameReplacements]
    exact sound.replaced

theorem Goal.Sound.mono {goal : Goal} (sound : goal.Sound ids current)
    (more : ∀ id ∈ ids, id ∈ others)
    (stays : goal.status = .inProgress → current = some goal.id → next = some goal.id) :
    goal.Sound others next where
  __ := sound
  status := sound.status.imp_right fun rest =>
    rest.imp_right fun working => ⟨working.1, stays working.1 working.2⟩
  replaced := by
    intro superseded
    obtain ⟨started, nonempty, known⟩ := sound.replaced superseded
    exact ⟨started, nonempty, fun id member => more id (known id member)⟩

namespace Workable

variable {driver : Driver} {id : Text}

theorem of_created (created : plan.IsCreated) : Workable { plan, working := none } := by
  obtain ⟨numbered, _, _, fresh, valid⟩ := created.spec
  refine ⟨numbered, fun goal member => .of_fresh (fresh goal member) _ _, ?_, ?_⟩
  · intro batch isBatch id isMember
    simp only [batchesValid, Bool.and_eq_true, List.all_eq_true] at valid
    have known := (valid.1.2 batch isBatch).2 id isMember
    rw [List.contains_iff_mem, List.mem_map] at known
    obtain ⟨goal, member, isId⟩ := known
    obtain ⟨_, _, _, _, rfl⟩ := fresh goal member
    exact ⟨_, member, isId, rfl⟩
  · intro id left isWorking
    cases isWorking

section

variable (workable : Workable driver)
include workable

/-- The goal that the loop works on. -/
theorem working (isWorking : driver.working = some (id, left)) :
    ∃ goal, driver.plan.findGoal id = some goal ∧ goal ∈ driver.plan.goals ∧ goal.id = id ∧
      goal.status = .inProgress ∧
      ∀ criterion ∈ goal.successCriteria, criterion.id ∈ left ∨ criterion.status = .pass := by
  obtain ⟨_, goal, member, isId, status, recorded⟩ := workable.current id left isWorking
  have found := (Plan.findGoal_eq_some workable.numbered.nodup).mpr ⟨member, isId⟩
  exact ⟨goal, found, member, isId, status, recorded⟩

/-- A change of one goal that keeps where it stands in the schedule. -/
theorem update {working : Option (Text × List Text)} (member : goal ∈ driver.plan.goals)
    (goals : next.goals = (driver.plan.updateGoal goal.id change).goals)
    (batches : next.validationBatches = driver.plan.validationBatches)
    (sameId : ∀ other, (change other).id = other.id)
    (steering : ∀ other, (change other).steeringStatus = other.steeringStatus)
    (sound : (change goal).Sound driver.plan.ids (working.map Prod.fst))
    (others : ∀ other ∈ driver.plan.goals, other.id ≠ goal.id → other.status = .inProgress →
      driver.working.map Prod.fst = some other.id → working.map Prod.fst = some other.id)
    (current : ∀ id left, working = some (id, left) → id = goal.id ∧
      (∀ criterionId ∈ left, criterionId ∈ seededCriteria.map Prod.fst) ∧
      (change goal).status = .inProgress ∧
      ∀ criterion ∈ (change goal).successCriteria, criterion.id ∈ left ∨ criterion.status = .pass) :
    Workable { plan := next, working } := by
  have distinct := workable.numbered.nodup
  rw [Plan.updateGoal_goals distinct] at goals
  have ids : next.ids = driver.plan.ids := by
    rw [Plan.ids, goals]
    apply Plan.ids_map_change
    intro other
    split
    · exact sameId other
    · rfl
  have changed : change goal ∈ next.goals := by
    rw [goals]
    exact List.mem_map.mpr ⟨goal, member, if_pos rfl⟩
  refine ⟨?_, ?_, ?_, ?_⟩
  · rw [ids]
    exact workable.numbered
  · intro other isMember
    rw [ids]
    rw [goals] at isMember
    obtain ⟨before, inBefore, rfl⟩ := List.mem_map.mp isMember
    by_cases same : before.id = goal.id
    · rw [if_pos same, List.inj_on_of_nodup_map distinct inBefore member same]
      exact sound
    · rw [if_neg same]
      exact (workable.goals before inBefore).mono (fun _ isId => isId)
        fun isOpen isCurrent => others before inBefore same isOpen isCurrent
  · intro batch isBatch id isMember
    rw [Plan.batches, batches] at isBatch
    obtain ⟨other, inBefore, isId, inForce⟩ := workable.members batch isBatch id isMember
    refine ⟨if other.id = goal.id then change other else other, ?_, ?_, ?_⟩
    · rw [goals]
      exact List.mem_map_of_mem inBefore
    · split
      · exact (sameId other).trans isId
      · exact isId
    · split
      · rw [Goal.isSuperseded, steering]
        exact inForce
      · exact inForce
  · intro id left isWorking
    obtain ⟨rfl, known, status, recorded⟩ := current id left isWorking
    exact ⟨known, _, changed, sameId goal, status, recorded⟩

theorem startNext (idle : driver.working = none)
    (started : driver.plan.startNext retryFailed = (plan, some id)) :
    Workable
      { plan
        working := some (id, ((plan.findGoal id).map fun goal =>
          goal.successCriteria.map fun criterion => criterion.id).getD []) } := by
  have notOpen : ∀ goal ∈ driver.plan.goals, goal.status ≠ .inProgress := by
    intro goal member isOpen
    rcases (workable.goals goal member).status with status | status | ⟨_, isCurrent⟩
    · cases isOpen.symm.trans status
    · cases isOpen.symm.trans status
    · rw [idle] at isCurrent
      cases isCurrent
  rcases Plan.startNext_cases driver.plan retryFailed with
    ⟨reported, same, isOpen⟩ | ⟨next, member, _, eligible, _, isNext⟩
  · rw [same] at started
    cases started
    obtain ⟨goal, member, _, status⟩ := isOpen id rfl
    exact absurd status (notOpen goal member)
  · rw [isNext] at started
    cases started
    have sound := workable.goals next member
    have inForce : next.steeringStatus ≠ some .superseded := by
      simp only [Goal.isScheduleEligible, Bool.and_eq_true, decide_eq_true_eq] at eligible
      exact eligible.1
    have found : Plan.findGoal { driver.plan.updateGoal next.id Plan.startGoal with
        activeGoalId := some next.id } next.id = some (Plan.startGoal next) := by
      have goals : (driver.plan.updateGoal next.id Plan.startGoal).goals = _ :=
        Plan.updateGoal_goals workable.numbered.nodup
      have sameIds : (driver.plan.updateGoal next.id Plan.startGoal).ids = driver.plan.ids :=
        Plan.map_updateGoal (fun goal => goal.id) fun _ _ => rfl
      refine (Plan.findGoal_eq_some ?_).mpr ⟨?_, rfl⟩
      · exact sameIds ▸ workable.numbered.nodup
      · rw [goals]
        exact List.mem_map.mpr ⟨next, member, if_pos rfl⟩
    rw [found]
    refine workable.update member rfl rfl (fun _ => rfl) (fun _ => rfl) ?_ ?_ ?_
    · exact
        { seeded := sound.seeded
          status := .inr (.inr ⟨rfl, rfl⟩)
          passed := GoalStatus.noConfusion
          notBlocked := sound.notBlocked
          replaced := fun superseded => absurd superseded inForce }
    · exact fun other isMember _ isOpen => absurd isOpen (notOpen other isMember)
    · intro id left isWorking
      cases isWorking
      refine ⟨rfl, ?_, rfl, fun criterion isCriterion => .inl (List.mem_map_of_mem isCriterion)⟩
      have seeds := congrArg (List.map Prod.fst) sound.seeded
      rw [List.map_map] at seeds
      intro criterionId isLeft
      rw [← seeds]
      exact isLeft

theorem record (isWorking : driver.working = some (id, criterionId :: rest))
    (recorded : driver.plan.recordEvidence id criterionId .pass = some plan) :
    Workable { plan, working := some (id, rest) } := by
  obtain ⟨goal, found, member, rfl, status, passes⟩ := workable.working isWorking
  have sound := workable.goals goal member
  obtain ⟨known, _⟩ := workable.current _ _ isWorking
  obtain ⟨_, _, later⟩ := Option.bind_eq_some_iff.mp recorded
  obtain ⟨_, _, isNext⟩ := Option.bind_eq_some_iff.mp later
  cases isNext
  refine workable.update member rfl rfl (fun _ => rfl) (fun _ => rfl) ?_ ?_ ?_
  · exact
      { seeded := by
          rw [← sound.seeded]
          refine Plan.map_updateCriteria ?_
          exact fun criterion => rfl
        status := .inr (.inr ⟨status, rfl⟩)
        passed := fun complete => by cases status.symm.trans complete
        notBlocked := sound.notBlocked
        replaced := sound.replaced }
  · intro other _ _ _ isCurrent
    rw [isWorking] at isCurrent
    exact isCurrent
  · intro id left isSame
    cases isSame
    refine ⟨rfl, fun id isLeft => known id (List.mem_cons_of_mem _ isLeft), status, ?_⟩
    have distinct : (goal.successCriteria.map fun criterion => criterion.id).Nodup := by
      have seeds := congrArg (List.map Prod.fst) sound.seeded
      rw [List.map_map] at seeds
      exact seeds ▸ (by decide : (seededCriteria.map Prod.fst).Nodup)
    intro criterion isCriterion
    rcases Plan.mem_updateCriteria distinct isCriterion with ⟨kept, isOther⟩ | ⟨before, rfl⟩
    · refine (passes criterion kept).imp_left fun isLeft => ?_
      exact (List.mem_cons.mp isLeft).resolve_left isOther
    · exact .inr rfl

theorem checkpoint (isWorking : driver.working = some (args.goalId, []))
    (isComplete : args.status = .complete) (accepted : driver.plan.checkpoint args = .ok result) :
    Workable { plan := result.plan, working := none } := by
  obtain ⟨goal, found, member, isId, status, passes⟩ := workable.working isWorking
  have sound := workable.goals goal member
  obtain ⟨same, isSame, effect⟩ := Plan.checkpoint_cases accepted
  cases found.symm.trans isSame
  rcases effect with ⟨_, _, goals, _, batches⟩ | ⟨notComplete, _⟩
  · refine workable.update member goals batches (fun _ => rfl) (fun _ => rfl) ?_ ?_ ?_
    · exact
        { seeded := sound.seeded
          status := .inr (.inl rfl)
          passed := fun _ criterion isCriterion =>
            (passes criterion isCriterion).resolve_left List.not_mem_nil
          notBlocked := sound.notBlocked
          replaced := fun superseded => by
            obtain ⟨_, nonempty, known⟩ := sound.replaced superseded
            exact ⟨GoalStatus.noConfusion, nonempty, known⟩ }
    · intro other isMember isOther _ isCurrent
      rw [isWorking] at isCurrent
      exact absurd ((Option.some.inj isCurrent).symm.trans isId.symm) isOther
    · intro id left isSame
      cases isSame
  · exact absurd isComplete notComplete

theorem reworded (numbered : Numbered next.ids)
    (goals : (next.goals.map Goal.progress).Perm (driver.plan.goals.map Goal.progress))
    (batches : next.validationBatches = driver.plan.validationBatches) :
    Workable { driver with plan := next } := by
  have sameIds := Plan.ids_of_progress goals
  have kept : ∀ goal ∈ driver.plan.goals, ∃ other ∈ next.goals, other.progress = goal.progress :=
    fun goal member =>
      List.mem_map.mp (goals.mem_iff.mpr (List.mem_map_of_mem member))
  refine ⟨numbered, ?_, ?_, ?_⟩
  · intro other member
    obtain ⟨goal, inBefore, same⟩ :=
      List.mem_map.mp (goals.mem_iff.mp (List.mem_map_of_mem member))
    exact ((workable.goals goal inBefore).of_progress same.symm).mono
      (fun id isId => sameIds.mem_iff.mpr isId) fun _ isCurrent => isCurrent
  · intro batch isBatch id isMember
    rw [Plan.batches, batches] at isBatch
    obtain ⟨goal, inBefore, rfl, inForce⟩ := workable.members batch isBatch id isMember
    obtain ⟨other, member, same⟩ := kept goal inBefore
    simp only [Goal.progress, Goal.standing, Prod.mk.injEq] at same
    refine ⟨other, member, same.1.1, ?_⟩
    rw [Goal.isSuperseded, same.1.2.2.1]
    exact inForce
  · intro id left isWorking
    obtain ⟨known, goal, inBefore, rfl, status, passes⟩ := workable.current id left isWorking
    obtain ⟨other, member, same⟩ := kept goal inBefore
    simp only [Goal.progress, Goal.standing, Prod.mk.injEq] at same
    refine ⟨known, other, member, same.1.1, same.1.2.1.trans status, ?_⟩
    intro criterion isCriterion
    obtain ⟨twin, isTwin, sameId, sameStatus⟩ := criterion_of_marks same.2 isCriterion
    rw [← sameId, ← sameStatus]
    exact passes twin isTwin

theorem added {children : List Candidate} (numbered : Numbered next.ids)
    (goals : next.goals = driver.plan.goals ++ driver.plan.makeChildren children)
    (batches : next.validationBatches = driver.plan.validationBatches) :
    Workable { driver with plan := next } := by
  have kept : ∀ goal ∈ driver.plan.goals, goal ∈ next.goals := by
    intro goal member
    rw [goals]
    exact List.mem_append_left _ member
  refine ⟨numbered, ?_, ?_, ?_⟩
  · intro goal member
    rw [goals] at member
    rcases List.mem_append.mp member with old | new
    · refine (workable.goals goal old).mono (fun id isId => ?_) fun _ isCurrent => isCurrent
      obtain ⟨other, inBefore, rfl⟩ := List.mem_map.mp isId
      exact List.mem_map_of_mem (kept other inBefore)
    · exact .of_fresh (Plan.makeChildren_isFresh new) _ _
  · intro batch isBatch id isMember
    rw [Plan.batches, batches] at isBatch
    obtain ⟨goal, inBefore, facts⟩ := workable.members batch isBatch id isMember
    exact ⟨goal, kept goal inBefore, facts⟩
  · intro id left isWorking
    obtain ⟨known, goal, inBefore, facts⟩ := workable.current id left isWorking
    exact ⟨known, goal, kept goal inBefore, facts⟩

end

/-- The members of a batch of which one goal is superseded. -/
theorem mem_updateBatches {plan : Plan}
    (isBatch : batch ∈ (plan.updateBatchesAfterSupersede targetId replacements).batches)
    (nonempty : replacements ≠ []) (isMember : id ∈ batch.memberIds) :
    id ∈ replacements ∨ id ≠ targetId ∧ ∃ before ∈ plan.batches, id ∈ before.memberIds := by
  rw [Plan.updateBatchesAfterSupersede, if_neg nonempty, Plan.batches] at isBatch
  cases given : plan.validationBatches with
  | none =>
    rw [given] at isBatch
    cases isBatch
  | some batches =>
    rw [given, Option.map_some, Option.getD_some, List.mem_map] at isBatch
    obtain ⟨before, inBefore, rfl⟩ := isBatch
    have isBefore : before ∈ plan.batches := by
      rw [Plan.batches, given]
      exact inBefore
    split at isMember
    next =>
      obtain ⟨member, isOld, isNew⟩ := List.mem_flatMap.mp isMember
      split at isNew
      next => exact .inl isNew
      next isOther =>
        cases List.mem_singleton.mp isNew
        exact .inr ⟨isOther, before, isBefore, isOld⟩
    next notTarget =>
      refine .inr ⟨fun same => notTarget ?_, before, isBefore, isMember⟩
      exact List.contains_iff_mem.mpr (same ▸ isMember)

theorem superseded {fresh : List Goal} (workable : Workable driver) (numbered : Numbered next.ids)
    (member : target ∈ driver.plan.goals) (started : target.status ≠ .pending)
    (nonempty : fresh ≠ []) (areFresh : ∀ goal ∈ fresh, goal.IsFresh)
    (goals : next.goals.Perm (driver.plan.goals.map (fun goal =>
      if goal.id = target.id then goal.supersededWith (fresh.map fun child => child.id)
      else goal) ++ fresh))
    (batches : next.validationBatches = (driver.plan.updateBatchesAfterSupersede target.id
      (fresh.map fun child => child.id)).validationBatches) :
    Workable { driver with plan := next } := by
  have kept : ∀ goal ∈ driver.plan.goals, (if goal.id = target.id then
      goal.supersededWith (fresh.map fun child => child.id) else goal) ∈ next.goals :=
    fun goal inBefore => goals.mem_iff.mpr (List.mem_append_left _ (List.mem_map_of_mem inBefore))
  have isNew : ∀ goal ∈ fresh, goal ∈ next.goals :=
    fun goal inFresh => goals.mem_iff.mpr (List.mem_append_right _ inFresh)
  have moreIds : ∀ id ∈ driver.plan.ids, id ∈ next.ids := by
    intro id isId
    obtain ⟨goal, inBefore, rfl⟩ := List.mem_map.mp isId
    refine List.mem_map.mpr ⟨_, kept goal inBefore, ?_⟩
    split <;> rfl
  refine ⟨numbered, ?_, ?_, ?_⟩
  · intro goal isMember
    rcases List.mem_append.mp (goals.mem_iff.mp isMember) with old | new
    · obtain ⟨before, inBefore, rfl⟩ := List.mem_map.mp old
      have sound := workable.goals before inBefore
      by_cases same : before.id = target.id
      · rw [if_pos same]
        refine ⟨sound.seeded, sound.status, sound.passed, ?_, fun _ => ⟨?_, ?_, ?_⟩⟩
        · exact fun isBlocked => by cases isBlocked
        · rw [List.inj_on_of_nodup_map workable.numbered.nodup inBefore member same]
          exact started
        · exact fun isNil => nonempty (List.map_eq_nil_iff.mp isNil)
        · intro id isReplacement
          obtain ⟨child, inFresh, rfl⟩ := List.mem_map.mp isReplacement
          exact List.mem_map_of_mem (isNew child inFresh)
      · rw [if_neg same]
        exact sound.mono moreIds fun _ isCurrent => isCurrent
    · exact .of_fresh (areFresh goal new) _ _
  · intro batch isBatch id isMember
    rw [Plan.batches, batches] at isBatch
    have nonemptyIds : fresh.map (fun child => child.id) ≠ [] :=
      fun isNil => nonempty (List.map_eq_nil_iff.mp isNil)
    rcases mem_updateBatches isBatch nonemptyIds isMember with
      isReplacement | ⟨isOther, before, isBefore, wasMember⟩
    · obtain ⟨child, inFresh, rfl⟩ := List.mem_map.mp isReplacement
      obtain ⟨_, _, _, _, rfl⟩ := areFresh child inFresh
      exact ⟨_, isNew _ inFresh, rfl, rfl⟩
    · obtain ⟨goal, inBefore, rfl, inForce⟩ := workable.members before isBefore id wasMember
      have isKept := kept goal inBefore
      rw [if_neg isOther] at isKept
      exact ⟨goal, isKept, rfl, inForce⟩
  · intro id left isWorking
    obtain ⟨known, goal, inBefore, rfl, status, passes⟩ := workable.current id left isWorking
    refine ⟨known, _, kept goal inBefore, ?_, ?_, ?_⟩
    · split <;> rfl
    · split <;> exact status
    · split <;> exact passes

section

variable (workable : Workable driver)
include workable

theorem steer (replacesStarted : driver.ReplacesStarted (.steer proposal))
    (valid : driver.plan.validateSteering proposal = []) :
    Workable { driver with plan := driver.plan.applySteeringMutation proposal } := by
  have steered := Plan.steered_of_valid workable.numbered.nodup valid
  have numbered := Plan.numbered_of_steered workable.numbered steered
  cases steered with
  | reworded goals batches => exact workable.reworded numbered goals batches
  | added child goals batches => exact workable.added numbered goals batches
  | blocked target isTarget replaces noChildren =>
    exact absurd noChildren (replacesStarted replaces).1
  | superseded target children isTarget replaces nonempty goals batches =>
    refine workable.superseded numbered (Plan.mem_of_steeringTarget isTarget)
      ((replacesStarted replaces).2 target isTarget) ?_ ?_ goals batches
    · exact fun isNil => nonempty (List.mapIdx_eq_nil_iff.mp isNil)
    · exact fun goal isMember => Plan.makeChildren_isFresh isMember

theorem step (replacesStarted : driver.ReplacesStarted label)
    (stepped : driver.step label = some next) : Workable next := by
  cases label with
  | steer proposal =>
    rw [Driver.step] at stepped
    split at stepped
    next valid =>
      cases stepped
      exact workable.steer replacesStarted valid
    next => cases stepped
  | start retryFailed =>
    rw [Driver.step] at stepped
    split at stepped
    next idle started =>
      cases stepped
      exact workable.startNext idle started
    next => cases stepped
  | record =>
    rw [Driver.step] at stepped
    split at stepped
    next isWorking =>
      obtain ⟨plan, recorded, rfl⟩ := Option.map_eq_some_iff.mp stepped
      exact workable.record isWorking recorded
    next => cases stepped
  | checkpoint args =>
    rw [Driver.step] at stepped
    split at stepped
    next given =>
      split at stepped
      next result accepted =>
        cases stepped
        have isComplete := given.2
        simp only [Plan.completes, Bool.and_eq_true, decide_eq_true_eq] at isComplete
        exact workable.checkpoint given.1 isComplete.1.1.1 accepted
      next => cases stepped
    next => cases stepped

theorem canRecord : driver.CanRecord := by
  intro id criterionId rest isWorking
  obtain ⟨goal, found, member, _⟩ := workable.working isWorking
  have known := (workable.current _ _ isWorking).1 criterionId List.mem_cons_self
  rw [← (workable.goals goal member).seeded, List.map_map, List.mem_map] at known
  obtain ⟨criterion, isMember, isId⟩ := known
  rw [Plan.recordEvidence, found, Option.bind_eq_bind, Option.bind_some]
  cases search : goal.successCriteria.find? fun criterion => criterion.id = criterionId with
  | some found => rfl
  | none => exact absurd (decide_eq_true isId) (List.find?_eq_none.mp search criterion isMember)

/-- Without a goal that is pending and in the schedule, every goal is resolved. -/
theorem doneWhenReported : driver.DoneWhenReported := by
  intro idle retryFailed reportsDone
  have distinct := workable.numbered.nodup
  have settled : driver.plan.aggregateCompletion = true ∨
      ∀ goal ∈ driver.plan.goals, goal.status = .complete := by
    rw [Plan.startNext] at reportsDone
    split at reportsDone
    next completed => exact .inl completed
    next =>
      split at reportsDone
      next => cases reportsDone
      next =>
        dsimp only at reportsDone
        split at reportsDone
        next nothing =>
          refine .inr fun goal member => ?_
          have sound := workable.goals goal member
          rcases sound.status with isPending | complete | ⟨_, isCurrent⟩
          · have notFound := (Option.or_eq_none_iff.mp nothing).1
            have notEligible := List.find?_eq_none.mp notFound goal member
            have notSuperseded : goal.steeringStatus ≠ some .superseded :=
              fun superseded => (sound.replaced superseded).1 isPending
            exact absurd (by simp [isPending, Goal.isScheduleEligible, notSuperseded,
              sound.notBlocked]) notEligible
          · exact complete
          · rw [idle] at isCurrent
            cases isCurrent
        next => cases reportsDone
  rw [Plan.isUlwLoopDone, Bool.or_eq_true]
  refine settled.imp_right fun complete => List.all_eq_true.mpr fun goal member => ?_
  rw [Bool.not_eq_true', ← Bool.not_eq_true, Plan.isCompletionBlocking_iff]
  rintro (⟨superseded, unresolved⟩ | isBlocked | ⟨_, notComplete⟩)
  · obtain ⟨_, nonempty, known⟩ := (workable.goals goal member).replaced superseded
    have resolved : driver.plan.isSupersededResolved goal = true := by
      refine (Plan.isSupersededResolved_iff _ goal).mpr ⟨superseded, nonempty, ?_⟩
      intro id isReplacement
      obtain ⟨other, isMember, isId⟩ := List.mem_map.mp (known id isReplacement)
      exact (Plan.isComplete_iff distinct).mpr ⟨other, isMember, isId, complete other isMember⟩
    rw [resolved] at unresolved
    cases unresolved
  · exact (workable.goals goal member).notBlocked isBlocked
  · exact notComplete (complete goal member)

end

section

variable (workable : Workable driver)
include workable

/-- A member of a batch that is resolved has passed. -/
theorem passed_of_resolved (isBatch : batch ∈ driver.plan.batches)
    (isMember : goal.id ∈ batch.memberIds) (found : driver.plan.findGoal goal.id = some goal)
    (resolved : driver.plan.memberResolved goal.id = true) :
    ∀ criterion ∈ goal.successCriteria, criterion.status = .pass := by
  obtain ⟨other, member, isId, inForce⟩ := workable.members batch isBatch _ isMember
  have same := (Plan.findGoal_eq_some workable.numbered.nodup).mpr ⟨member, isId⟩
  cases found.symm.trans same
  rw [Plan.memberResolved, found, Option.any_some, Plan.isMemberResolved, Bool.or_eq_true,
    decide_eq_true_iff, Plan.isSupersededResolved, inForce] at resolved
  exact (workable.goals goal member).passed (resolved.resolve_right (by simp))

/-- At the final candidate every other goal is complete. -/
theorem complete_of_final (isWorking : driver.working = some (goal.id, []))
    (isFinal : driver.plan.isFinalRunCompletionCandidate goal = true)
    (member : other ∈ driver.plan.goals) (isOther : other.id ≠ goal.id) :
    other.status = .complete := by
  have sound := workable.goals other member
  rcases sound.status with isPending | complete | ⟨_, isCurrent⟩
  · have free := List.all_eq_true.mp (Bool.and_eq_true_iff.mp isFinal).2 other member
    have inForce : other.steeringStatus = none := by
      cases steering : other.steeringStatus with
      | none => rfl
      | some status =>
        cases status with
        | superseded => exact absurd isPending (sound.replaced steering).1
        | blocked => exact absurd steering sound.notBlocked
    rw [Plan.isCompletionBlockingForFinalCandidate, if_neg isOther, Goal.isSuperseded,
      Plan.isCompletionBlocking, inForce, isPending] at free
    cases free
  · exact complete
  · rw [isWorking] at isCurrent
    exact absurd (Option.some.inj isCurrent).symm isOther

/-- The criteria are no reason to reject the checkpoint of the loop. -/
theorem requireCriteria (isWorking : driver.working = some (goal.id, []))
    (member : goal ∈ driver.plan.goals)
    (passes : ∀ criterion ∈ goal.successCriteria, criterion.status = .pass) :
    driver.plan.requireCriteria goal = .ok () := by
  have distinct := workable.numbered.nodup
  obtain ⟨first, rest, isList⟩ : ∃ first rest, goal.successCriteria = first :: rest ∧
      first.essential = some true := by
    have seeds := (workable.goals goal member).seeded
    cases criteria : goal.successCriteria with
    | nil =>
      rw [criteria] at seeds
      cases seeds
    | cons first rest =>
      rw [criteria] at seeds
      exact ⟨first, rest, rfl, congrArg Prod.snd (List.cons.inj seeds).1⟩
  have all : goal.hasAllCriteriaPass = true := by
    rw [Goal.hasAllCriteriaPass, Bool.and_eq_true]
    refine ⟨by simp [isList.1], List.all_eq_true.mpr fun criterion isCriterion => ?_⟩
    exact decide_eq_true (passes criterion isCriterion)
  have essential : goal.hasEssentialCriteriaPass = true := by
    have explicit : goal.essentialCriteria =
        goal.successCriteria.filter fun criterion => criterion.essential.getD true := by
      rw [Goal.essentialCriteria, isList.1, List.filter_cons_of_pos (by simp [isList.2])]
    rw [Goal.hasEssentialCriteriaPass, explicit, Bool.and_eq_true]
    refine ⟨by simp [isList.1, isList.2], List.all_eq_true.mpr fun criterion isCriterion => ?_⟩
    exact decide_eq_true (passes criterion (List.mem_filter.mp isCriterion).1)
  rw [Plan.requireCriteria]
  split
  next isFinal =>
    have complete : ∀ other ∈ driver.plan.goals, other.id ≠ goal.id → other.status = .complete :=
      fun _ inPlan isOther => workable.complete_of_final isWorking isFinal inPlan isOther
    have allPass : driver.plan.allCriteriaPass = true := by
      refine List.all_eq_true.mpr fun other isMember => ?_
      refine List.all_eq_true.mpr fun criterion inOther => ?_
      by_cases same : other.id = goal.id
      · rw [List.inj_on_of_nodup_map distinct isMember member same] at inOther
        exact decide_eq_true (passes criterion inOther)
      · exact decide_eq_true ((workable.goals other isMember).passed
          (complete other isMember same) criterion inOther)
    have closed : driver.plan.allBatchesClosed goal.id = true := by
      refine List.all_eq_true.mpr fun batch isBatch => List.all_eq_true.mpr fun id isMember => ?_
      rw [Bool.or_eq_true, decide_eq_true_iff]
      by_cases same : id = goal.id
      · exact .inl same
      · obtain ⟨other, inPlan, rfl, _⟩ := workable.members batch isBatch id isMember
        refine .inr ?_
        rw [Plan.memberResolved, (Plan.findGoal_eq_some distinct).mpr ⟨inPlan, rfl⟩,
          Option.any_some, Plan.isMemberResolved, complete other inPlan same]
        rfl
    rw [all, allPass, closed]
    rfl
  next => split <;> rfl

theorem requireGate (member : goal ∈ driver.plan.goals) (isId : goal.id = args.goalId)
    (passes : ∀ criterion ∈ goal.successCriteria, criterion.status = .pass)
    (ready : driver.plan.batchFinalReady goal = true)
    (accepted : args.qualityGate = .accepted coverage)
    (expected : ((driver.plan.batchClosedBy args.goalId).all fun batch =>
      coverage = driver.plan.batchCoverage batch) = true) :
    driver.plan.requireGate goal args = .ok coverage := by
  rw [Plan.requireGate, accepted]
  dsimp only
  rw [Plan.requireBatchGate]
  rw [← isId] at expected
  rw [Plan.batchFinalReady] at ready
  cases closes : driver.plan.batchClosedBy goal.id with
  | none => rfl
  | some batch =>
    rw [closes] at expected ready
    have isBatch : batch ∈ driver.plan.batches :=
      List.mem_of_find?_eq_some (Option.filter_eq_some_iff.mp closes).1
    have allPass : ((driver.plan.members batch).all fun member =>
        member.successCriteria.all fun criterion => criterion.status = .pass) = true := by
      refine List.all_eq_true.mpr fun other isMember => ?_
      refine List.all_eq_true.mpr fun criterion inOther => ?_
      obtain ⟨id, isListed, found⟩ := List.mem_filterMap.mp isMember
      cases Plan.id_of_findGoal found
      by_cases same : other.id = goal.id
      · rw [List.inj_on_of_nodup_map workable.numbered.nodup (Plan.mem_of_findGoal found)
          member same] at inOther
        exact decide_eq_true (passes criterion inOther)
      · have resolved := List.all_eq_true.mp ready other.id isListed
        rw [Bool.or_eq_true, decide_eq_true_iff] at resolved
        exact decide_eq_true (workable.passed_of_resolved isBatch isListed found
          (resolved.resolve_left same) criterion inOther)
    dsimp only
    rw [if_pos allPass, if_pos (of_decide_eq_true expected)]

end

theorem rejectedForBatch (workable : Workable driver) : driver.RejectedForBatch := by
  intro args isWorking completes
  obtain ⟨goal, found, member, isId, _, recorded⟩ := workable.working isWorking
  have passes : ∀ criterion ∈ goal.successCriteria, criterion.status = .pass :=
    fun criterion isCriterion => (recorded criterion isCriterion).resolve_left List.not_mem_nil
  have criteria := workable.requireCriteria (isId ▸ isWorking) member passes
  simp only [Plan.completes, Bool.and_eq_true, decide_eq_true_eq] at completes
  obtain ⟨⟨⟨isComplete, hasEvidence⟩, codexValid⟩, given⟩ := completes
  refine ⟨goal, found, ?_⟩
  rw [Plan.checkpoint, found, hasEvidence, isComplete]
  dsimp only
  rw [Bool.not_true, if_neg Bool.false_ne_true]
  cases gate : args.qualityGate with
  | missing | invalid =>
    rw [gate] at given
    cases given
  | accepted coverage =>
    rw [gate] at given
    split
    next ready =>
      have gated := workable.requireGate member isId passes ready gate given
      have accepted : driver.plan.requireComplete goal args = .ok
          (if driver.plan.isFinalRunCompletionCandidate goal then some coverage else none) := by
        refine Plan.requireComplete_eq_ok.mpr ⟨criteria, fun _ => ⟨ready, ?_⟩,
          fun _ => ⟨coverage, gated, rfl⟩, fun neither => ?_, codexValid⟩
        · rw [gate]
          exact GateInput.noConfusion
        · rw [(Bool.or_eq_false_iff.mp neither).1]
          rfl
      rw [accepted]
      exact ⟨_, rfl⟩
    next notReady =>
      have closes : (driver.plan.batchClosedBy goal.id).isSome = true := by
        cases closes : driver.plan.batchClosedBy goal.id with
        | none =>
          rw [Plan.batchFinalReady, closes] at notReady
          exact absurd rfl notReady
        | some batch => rfl
      have rejected : driver.plan.requireComplete goal args = .error .batchOpen := by
        simp [Plan.requireComplete, criteria, closes, notReady, bind, Except.bind, throw,
          throwThe, MonadExceptOf.throw]
      rw [rejected]

end Workable

/-- In every run whose steerings replace only goals that are no longer pending, by at least one
goal, the criteria of a started goal can be recorded, a checkpoint is rejected only for a member of
its validation batch that is not resolved, and a start that reports done finds the plan done. -/
theorem finishable_of_replacesStarted {plan : Plan} {labels : List DriverLabel} {final : Driver}
    (created : plan.IsCreated)
    (reached : execute Driver.step { plan, working := none } labels = some final)
    (replacesStarted : EveryStep Driver.step (fun driver label _ => driver.ReplacesStarted label)
      { plan, working := none } labels) :
    final.CanRecord ∧ final.RejectedForBatch ∧ final.DoneWhenReported := by
  have preserved : ∀ (driver : Driver) (label : DriverLabel) (next : Driver), Workable driver →
      driver.ReplacesStarted label → driver.step label = some next → Workable next :=
    fun _ _ _ workable condition stepped => workable.step condition stepped
  have workable : Workable final :=
    invariant_of_execute preserved (Workable.of_created created) reached replacesStarted
  exact ⟨workable.canRecord, workable.rejectedForBatch, workable.doneWhenReported⟩

/-- A goal is started and its three criteria are recorded. -/
def worked : List DriverLabel :=
  [.start false, .record, .record, .record]

/-- Two goals whose batch ends with the first one. -/
def batchPlan : Plan where
  codexGoalMode := some .aggregate
  aggregateCompletion := false
  activeGoalId := none
  validationBatches := some
    [{ batchId := text "both"
       memberIds := [text "G001-build", text "G002-ship"]
       finalGoalId := text "G001-build" }]
  goals :=
    [ freshGoal (text "G001-build") (text "build") (text "build it") 0,
      freshGoal (text "G002-ship") (text "ship") (text "ship it") 1 ]

theorem batchPlan_isCreated : batchPlan.IsCreated :=
  ⟨{ title := text "build", objective := text "build it" },
    [{ title := text "ship", objective := text "ship it" }], none, batchPlan.validationBatches,
    by decide +kernel⟩

theorem finishable_of_replacesStarted_supersededRun :
    ∃ final, execute Driver.step { plan := singlePlan, working := none }
        (worked ++ [.steer (replacement .markBlockedSuperseded (text "G001-build"))]) = some final ∧
      final.working = some (text "G001-build", []) ∧
      final.CanRecord ∧ final.RejectedForBatch ∧ final.DoneWhenReported := by
  have run : ((execute Driver.step { plan := singlePlan, working := none }
      (worked ++ [.steer (replacement .markBlockedSuperseded (text "G001-build"))])).any
      fun final => final.working = some (text "G001-build", [])) = true := by
    decide +kernel
  rw [Option.any_eq_true] at run
  obtain ⟨final, reached, isWorking⟩ := run
  exact ⟨final, reached, of_decide_eq_true isWorking,
    finishable_of_replacesStarted singlePlan_isCreated reached (by decide +kernel)⟩

/-- A batch can be closed too early, and criteria of a goal that was split are never recorded. -/
theorem not_neverRejected :
    (¬ ∀ plan : Plan, plan.IsCreated → ∀ labels final,
      execute Driver.step { plan, working := none } labels = some final →
      final.NeverRejected ∧ final.DoneWhenReported) ∧
    ∃ final, execute Driver.step { plan := singlePlan, working := none }
        (.steer (replacement .splitSubgoal (text "G001-build")) :: worked) = some final ∧
      ¬ final.NeverRejected := by
  have rejected : ∀ (args : CheckpointArgs) {plan : Plan} {labels : List DriverLabel},
      ((execute Driver.step { plan, working := none } labels).any fun final =>
        final.working = some (args.goalId, []) && final.plan.completes args &&
          match final.plan.checkpoint args with
          | .ok _ => false
          | .error _ => true) = true →
      ∃ final, execute Driver.step { plan, working := none } labels = some final ∧
        ¬ final.NeverRejected := by
    intro args plan labels run
    rw [Option.any_eq_true] at run
    obtain ⟨final, reached, test⟩ := run
    simp only [Bool.and_eq_true, decide_eq_true_eq] at test
    refine ⟨final, reached, fun neverRejected => ?_⟩
    obtain ⟨result, accepted⟩ := neverRejected args test.1.1 test.1.2
    rw [accepted] at test
    cases test.2
  constructor
  · intro always
    have run : ∃ final, execute Driver.step { plan := batchPlan, working := none } worked =
        some final ∧ ¬ final.NeverRejected := by
      refine rejected (completion (text "G001-build") 6 3) ?_
      decide +kernel
    obtain ⟨final, reached, fails⟩ := run
    exact fails (always batchPlan batchPlan_isCreated worked final reached).1
  · refine rejected (completion (text "G002") 3 3) ?_
    decide +kernel

end OpenAgent.UlwLoop
