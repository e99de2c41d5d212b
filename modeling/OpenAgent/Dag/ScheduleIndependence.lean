import OpenAgent.Dag.DependencyOrder

/-!
# Schedule independence

When every start succeeds in the end, the states in which a run leaves its
nodes are a function of the definition and of the outcomes of the tasks.  The
order of settlements and the denials on the way leave no trace in them, nor in
the status of the run and the failure it reports.
-/

namespace OpenAgent.Dag

open Library
open RunJournal (Sound Moves Evolves SkipsOnly Quiescent outcomeState)

/-- `startOwned` was called for the node, and no answer attached a task. -/
def Unstarted (traffic : List TaskTraffic) (nodeId : DagNodeId) : Prop :=
  (∃ record, .startOwned nodeId record ∈ traffic) ∧
    ∀ answer, .answered nodeId answer ∈ traffic → answer.attachedTask false = none

/-- Why a node is in its terminal state. -/
def Explanation (outcome : DagNodeId → Settlement) (record : DagRunRecordV1)
    (traffic : List TaskTraffic) (nodeId : DagNodeId) (found : DagNodeState) : Prop :=
  (found = .skipped ∧ FailedDependency record nodeId) ∨
    (DepsCompleted record nodeId ∧ (found = (outcome nodeId).nodeState ∨ Unstarted traffic nodeId))

variable {id : DagNodeId}

theorem FailedDependency.mono (keeps : KeepsTerminal before after)
    (failed : FailedDependency before id) : FailedDependency after id := by
  obtain ⟨dep, member, found, isFound, terminal, notCompleted⟩ := failed
  refine ⟨dep, ?_, found, keeps.states dep found isFound terminal, terminal, notCompleted⟩
  rw [keeps.deps]
  exact member

theorem Explanation.mono (explanation : Explanation outcome before traffic id found)
    (keeps : KeepsTerminal before after)
    (grows : ∀ record, .startOwned id record ∈ traffic → .startOwned id record ∈ later)
    (unanswered : ∀ answer, .answered id answer ∈ later → .answered id answer ∈ traffic) :
    Explanation outcome after later id found := by
  rcases explanation with ⟨skipped, failed⟩ | ⟨completed, reason⟩
  · exact Or.inl ⟨skipped, failed.mono keeps⟩
  · refine Or.inr ⟨completed.mono keeps, reason.imp_right ?_⟩
    rintro ⟨⟨record, called⟩, noTask⟩
    exact ⟨⟨record, grows record called⟩, fun answer listed =>
      noTask answer (unanswered answer listed)⟩

namespace SchedulerState

variable {state : SchedulerState}

/-- Every terminal node is explained; active nodes have completed dependencies
and have been handed to `startOwned`; queued nodes have no task, and waiting
nodes no answer at all. -/
structure Explained (outcome : DagNodeId → Settlement) (state : SchedulerState) : Prop where
  settled : ∀ id found, stateOf state.journal.durable id = some found → found.isTerminal = true →
      Explanation outcome state.journal.durable state.traffic id found
  held : ∀ id ∈ state.holders, DepsCompleted state.journal.durable id ∧
    ∃ record, .startOwned id record ∈ state.traffic
  queue : ∀ id ∈ state.queued, ∀ answer, .answered id answer ∈ state.traffic →
    answer.attachedTask false = none
  untouched : ∀ id answer, .answered id answer ∈ state.traffic → ¬ Waiting state.journal.durable id

theorem mem_holders_of_queued (member : id ∈ state.queued) : id ∈ state.holders := by
  rcases List.mem_append.mp member with parked | starting
  · exact List.mem_append_left _ (List.mem_append_right _ parked)
  · exact List.mem_append_right _ starting

/-- Steps that neither settle a node, nor admit one, nor answer a start. -/
theorem Explained.still (explained : Explained outcome state)
    (keeps : KeepsTerminal state.journal.durable next.journal.durable)
    (traffic : next.traffic = state.traffic)
    (terminal : ∀ id found, stateOf next.journal.durable id = some found →
      found.isTerminal = true → stateOf state.journal.durable id = some found)
    (waiting : ∀ id, Waiting next.journal.durable id → Waiting state.journal.durable id)
    (holders : ∀ id ∈ next.holders, id ∈ state.holders)
    (queue : ∀ id ∈ next.queued, id ∈ state.queued) : Explained outcome next where
  settled := by
    intro id found isFound isTerminal
    rw [traffic]
    exact (explained.settled id found (terminal id found isFound isTerminal) isTerminal).mono
      keeps (fun _ called => called) (fun _ listed => listed)
  held := by
    intro id member
    obtain ⟨completed, called⟩ := explained.held id (holders id member)
    rw [traffic]
    exact ⟨completed.mono keeps, called⟩
  queue := by
    intro id member
    rw [traffic]
    exact explained.queue id (queue id member)
  untouched := by
    intro id answer listed isWaiting
    rw [traffic] at listed
    exact explained.untouched id answer listed (waiting id isWaiting)

theorem Explained.of_admits (explained : Explained outcome state)
    (keeps : KeepsTerminal state.journal.durable next.journal.durable)
    (began : Began env rank state.journal begun) (skips : SkipsOnly env begun between)
    (pass : Admits env { state with journal := begun } next between runnable) :
    Explained outcome next := by
  have nextQueue : ∀ id ∈ next.queued, id ∈ state.queued ∨ id ∈ runnable := by
    intro id member
    simp only [queued, pass.pendingAdmission, pass.phase, List.nil_append] at member
    split at member
    · cases member
    · exact (List.mem_append.mp member).imp_left (List.mem_append_left _)
  have nextHolders : ∀ id ∈ next.holders, id ∈ state.holders ∨ id ∈ runnable := by
    intro id member
    rw [holders, List.append_assoc, pass.attachedTasks, List.mem_append] at member
    rcases member with attached | inQueue
    · exact Or.inl (List.mem_append_left _ (List.mem_append_left _ attached))
    · exact (nextQueue id inQueue).imp_left mem_holders_of_queued
  have answers : ∀ id answer, .answered id answer ∈ next.traffic →
      .answered id answer ∈ state.traffic := by
    intro id answer listed
    rw [pass.traffic] at listed
    simpa using listed
  have starts : ∀ id record, .startOwned id record ∈ state.traffic →
      .startOwned id record ∈ next.traffic := by
    intro id record called
    rw [pass.traffic]
    exact List.mem_append_left _ called
  have fromBetween : KeepsTerminal between.durable next.journal.durable := by
    refine ⟨?_, depsOf_of_skeleton pass.moves.evolves.skeleton_eq⟩
    intro id found isFound terminal
    refine (kept_of_moveTo pass.moves.states_eq ?_).trans isFound
    intro ready
    obtain ⟨⟨other, isOther, isWaiting⟩, _⟩ := (pass.ready id).mp ready
    rw [isFound] at isOther
    cases isOther
    rw [DagNodeState.not_waiting_of_terminal terminal] at isWaiting
    cases isWaiting
  have waitingBefore : ∀ id, Waiting between.durable id → Waiting state.journal.durable id := by
    rintro id ⟨found, isFound, isWaiting⟩
    rcases skips.each id with same | ⟨_, skipped, _⟩
    · exact ⟨found, (congrFun began.states_eq id).symm.trans (same.symm.trans isFound), isWaiting⟩
    · rw [skipped] at isFound
      cases isFound
      cases isWaiting
  refine ⟨?_, ?_, ?_, ?_⟩
  · intro id found isFound terminal
    have betweenFound : stateOf between.durable id = some found := by
      rw [pass.moves.states_eq, moveTo_eq_some] at isFound
      rcases isFound with ⟨_, _, rfl⟩ | ⟨_, isFound⟩
      · cases terminal
      · exact isFound
    rcases skips.each id with same | ⟨_, skipped, failed⟩
    · have stateFound : stateOf state.journal.durable id = some found :=
        (congrFun began.states_eq id).symm.trans (same.symm.trans betweenFound)
      exact (explained.settled id found stateFound terminal).mono keeps (starts id) (answers id)
    · rw [skipped] at betweenFound
      cases betweenFound
      exact Or.inl ⟨rfl, failed.mono fromBetween⟩
  · intro id member
    rcases nextHolders id member with old | fresh
    · obtain ⟨completed, record, called⟩ := explained.held id old
      exact ⟨completed.mono keeps, record, starts id record called⟩
    · obtain ⟨_, _, completed⟩ := (pass.ready id).mp fresh
      refine ⟨completed.mono fromBetween, next.journal.durable, ?_⟩
      rw [pass.traffic]
      exact List.mem_append_right _ (List.mem_map.mpr ⟨id, List.mem_append_right _ fresh, rfl⟩)
  · intro id member answer listed
    rcases nextQueue id member with old | fresh
    · exact explained.queue id old answer (answers id answer listed)
    · obtain ⟨isWaiting, _⟩ := (pass.ready id).mp fresh
      exact absurd (waitingBefore id isWaiting)
        (explained.untouched id answer (answers id answer listed))
  · intro id answer listed isWaiting
    apply explained.untouched id answer (answers id answer listed)
    apply waitingBefore
    obtain ⟨found, isFound, waits⟩ := isWaiting
    rw [pass.moves.states_eq, moveTo_eq_some] at isFound
    rcases isFound with ⟨_, _, rfl⟩ | ⟨_, isFound⟩
    · cases waits
    · exact ⟨found, isFound, waits⟩

/-- The states behind a settled batch: the nodes outside it are as they were,
and a node of it that has ended got no task. -/
structure BatchExplained (batch : List DagNodeId) (answers : List StartAnswer)
    (state next : SchedulerState) : Prop where
  traffic : next.traffic = state.traffic ++
    (batch.zip answers).map fun entry => .answered entry.1 entry.2
  outside : ∀ id ∉ batch, stateOf next.journal.durable id = stateOf state.journal.durable id
  ended : ∀ entry ∈ batch.zip answers, ∀ found,
    stateOf next.journal.durable entry.1 = some found → found.isTerminal = true →
      entry.2.attachedTask false = none
  notWaiting : ∀ id ∈ batch, ¬ Waiting next.journal.durable id
  holders : ∀ id ∈ next.holders, id ∈ state.holders
  queue : ∀ id ∈ next.queued, ∃ answer, (id, answer) ∈ batch.zip answers ∧
    answer.attachedTask false = none

theorem Explained.of_batch (explained : Explained outcome state) (invariant : Invariant rank state)
    (running : state.cancellationStarted = false) (before : state.phase = .starting batch)
    (length : answers.length = batch.length)
    (keeps : KeepsTerminal state.journal.durable next.journal.durable)
    (batched : BatchExplained batch answers state next) : Explained outcome next := by
  have ids : (batch.zip answers).map Prod.fst = batch := List.map_fst_zip (by omega)
  have notDone := invariant.notDone running
  have inQueue : ∀ id ∈ batch, id ∈ state.queued := by
    intro id member
    refine List.mem_append_right _ ?_
    rw [before]
    exact member
  have batchNodup : batch.Nodup := by
    have nodup := invariant.nodup notDone
    rw [holders, before] at nodup
    exact (List.nodup_append.mp nodup).2.1
  have unique : ∀ {id answer other}, (id, answer) ∈ batch.zip answers →
      (id, other) ∈ batch.zip answers → answer = other := by
    intro id answer other first second
    have same := List.inj_on_of_nodup_map (f := Prod.fst) (by rw [ids]; exact batchNodup)
      first second rfl
    injection same
  have newAnswer : ∀ {id answer}, .answered id answer ∈ next.traffic →
      .answered id answer ∈ state.traffic ∨ (id, answer) ∈ batch.zip answers := by
    intro id answer listed
    rw [batched.traffic] at listed
    simp only [List.mem_append, List.mem_map] at listed
    rcases listed with old | ⟨⟨found, other⟩, inside, rfl, rfl⟩
    · exact Or.inl old
    · exact Or.inr inside
  have oldAnswer : ∀ {id answer}, id ∉ batch → .answered id answer ∈ next.traffic →
      .answered id answer ∈ state.traffic := by
    intro id answer outside listed
    refine (newAnswer listed).resolve_right fun inside => outside ?_
    exact (List.of_mem_zip inside).1
  have starts : ∀ id record, .startOwned id record ∈ state.traffic →
      .startOwned id record ∈ next.traffic := by
    intro id record called
    rw [batched.traffic]
    exact List.mem_append_left _ called
  have noTask : ∀ {id answer}, (id, answer) ∈ batch.zip answers →
      answer.attachedTask false = none → ∀ other, .answered id other ∈ next.traffic →
        other.attachedTask false = none := by
    intro id answer inside isNone other listed
    rcases newAnswer listed with old | fresh
    · exact explained.queue id (inQueue id (List.of_mem_zip inside).1) other old
    · rw [← unique inside fresh]
      exact isNone
  refine ⟨?_, ?_, ?_, ?_⟩
  · intro id found isFound terminal
    by_cases inBatch : id ∈ batch
    · rw [← ids] at inBatch
      obtain ⟨⟨nodeId, answer⟩, inside, rfl⟩ := List.mem_map.mp inBatch
      obtain ⟨completed, record, called⟩ := explained.held nodeId
        (mem_holders_of_queued (inQueue nodeId (List.of_mem_zip inside).1))
      refine Or.inr ⟨completed.mono keeps, Or.inr ⟨⟨record, starts nodeId record called⟩, ?_⟩⟩
      exact noTask inside (batched.ended (nodeId, answer) inside found isFound terminal)
    · rw [batched.outside id inBatch] at isFound
      exact (explained.settled id found isFound terminal).mono keeps (starts id)
        (fun answer => oldAnswer inBatch)
  · intro id member
    obtain ⟨completed, record, called⟩ := explained.held id (batched.holders id member)
    exact ⟨completed.mono keeps, record, starts id record called⟩
  · intro id member other listed
    obtain ⟨answer, inside, isNone⟩ := batched.queue id member
    exact noTask inside isNone other listed
  · intro id answer listed isWaiting
    by_cases inBatch : id ∈ batch
    · exact batched.notWaiting id inBatch isWaiting
    · apply explained.untouched id answer (oldAnswer inBatch listed)
      rwa [Waiting, batched.outside id inBatch] at isWaiting

theorem Invariant.batchExplained (invariant : Invariant rank state)
    (running : state.cancellationStarted = false) (before : state.phase = .starting batch)
    (length : answers.length = batch.length)
    (folds : BatchFolded env (batch.zip answers) []
      { state with
        traffic := state.traffic ++ (batch.zip answers).map fun entry => .answered entry.1 entry.2 }
      (folded, denied))
    (finishes : BatchFinished env folded denied next) :
    BatchExplained batch answers state next := by
  have ids : (batch.zip answers).map (·.1) = batch := List.map_fst_zip (by omega)
  have parked := invariant.parked
  simp only [ParkedAsPhase, before] at parked
  have noneParked : folded.pendingAdmission = [] :=
    folds.control.pendingAdmission.trans parked.1
  have heldEq : state.holders = state.attachedTasks ++ batch := by
    simp [holders, parked.1, before, RunPhase.batch]
  have deniedEq : denied = deniedNodes state.cancellationStarted (batch.zip answers) :=
    folds.denied_eq
  have deniedSublist := deniedNodes_sublist state.cancellationStarted (batch.zip answers)
  rw [ids, ← deniedEq] at deniedSublist
  have attachedEq : folded.attachedTasks = state.attachedTasks ++
      (attachments state.cancellationStarted (batch.zip answers)).map (·.1) :=
    folds.attachedTasks
  have attachedHeld : ∀ id ∈ folded.attachedTasks, id ∈ state.holders := by
    intro id member
    have sublist := attachments_sublist state.cancellationStarted (batch.zip answers)
    rw [ids] at sublist
    rw [attachedEq, List.mem_append] at member
    rw [heldEq, List.mem_append]
    exact member.imp_right fun fresh => sublist.subset fresh
  have outside : ∀ id ∉ batch,
      stateOf folded.journal.durable id = stateOf state.journal.durable id :=
    fun id notInside => folds.others id (by rwa [ids])
  have foldedEnded : ∀ entry ∈ batch.zip answers, ∀ found,
      stateOf folded.journal.durable entry.1 = some found → found.isTerminal = true →
        entry.2.attachedTask false = none := by
    intro entry inside found isFound terminal
    cases isTask : entry.2.attachedTask false with
    | none => rfl
    | some taskId =>
      have active := folds.active entry inside (by simp [running, isTask])
      exact absurd active (not_active_of_terminal isFound terminal)
  have foldedNotWaiting : ∀ id ∈ batch, ¬ Waiting folded.journal.durable id := by
    intro id member isWaiting
    have active := invariant.heldActive (invariant.notDone running) id
      (by rw [heldEq]; exact List.mem_append_right _ member)
    exact not_waiting_of_active active (waiting_of_folded length folds isWaiting)
  have noQueue : ∀ last : SchedulerState, last.pendingAdmission = [] →
      last.phase.batch = [] → ∀ id ∈ last.queued, ∃ answer,
        (id, answer) ∈ batch.zip answers ∧ answer.attachedTask false = none := by
    intro last noneLeft noneStarting id member
    simp [queued, noneLeft, noneStarting] at member
  have traffic : folded.traffic = _ := folds.control.traffic
  cases finishes with
  | cancelled cancelling =>
    rw [folds.control.cancellationStarted] at cancelling
    rw [show state.cancellationStarted = true from cancelling] at running
    cases running
  | admitted foldedRunning noneDenied =>
    refine ⟨traffic, outside, foldedEnded, foldedNotWaiting, ?_, noQueue _ noneParked rfl⟩
    simpa [holders, noneParked, RunPhase.batch] using attachedHeld
  | gaveUp journal foldedRunning someDenied noneAttached moves =>
    refine ⟨traffic, ?_, ?_, ?_, ?_, noQueue _ rfl rfl⟩
    · intro id notInside
      refine (kept_of_moveTo moves.states_eq ?_).trans (outside id notInside)
      exact fun isDenied => notInside (deniedSublist.subset isDenied)
    · intro entry inside found _ _
      have noneNew : attachments state.cancellationStarted (batch.zip answers) = [] := by
        rw [noneAttached] at attachedEq
        simpa using (List.append_eq_nil_iff.mp attachedEq.symm).2
      cases isTask : entry.2.attachedTask false with
      | none => rfl
      | some taskId =>
        have listed := mem_attachments.mpr ⟨entry.2, inside, running ▸ isTask⟩
        rw [noneNew] at listed
        cases listed
    · rintro id member ⟨found, isFound, isWaiting⟩
      rw [moves.states_eq, moveTo_eq_some] at isFound
      rcases isFound with ⟨_, _, rfl⟩ | ⟨_, isFound⟩
      · cases isWaiting
      · exact foldedNotWaiting id member ⟨found, isFound, isWaiting⟩
    · simp [holders, noneAttached, RunPhase.batch]
  | parked foldedRunning someDenied someAttached =>
    refine ⟨traffic, outside, foldedEnded, foldedNotWaiting, ?_, ?_⟩
    · intro id member
      simp only [holders, noneParked, RunPhase.batch, List.nil_append, List.append_nil,
        List.mem_append] at member
      rcases member with attached | isDenied
      · exact attachedHeld id attached
      · rw [heldEq]
        exact List.mem_append_right _ (deniedSublist.subset isDenied)
    · intro id member
      simp only [queued, noneParked, RunPhase.batch, List.nil_append, List.append_nil] at member
      rw [deniedEq, mem_deniedNodes] at member
      obtain ⟨_, answer, inside, isDenied⟩ := member
      exact ⟨answer, inside, attachedTask_of_denied isDenied⟩

theorem Explained.of_settles (explained : Explained outcome state)
    (follows : settlement.nodeState = (outcome nodeId).nodeState)
    (keeps : KeepsTerminal state.journal.durable folded.journal.durable)
    (before : state.phase = .settling inAdmission) (attached : nodeId ∈ state.attachedTasks)
    (folds : SettlementFolded env nodeId settlement state folded) :
    Explained outcome { folded with phase := .settled inAdmission } := by
  have held : nodeId ∈ state.holders := by simp [holders, attached]
  have answers : ∀ id answer, .answered id answer ∈ folded.traffic →
      .answered id answer ∈ state.traffic := by
    intro id answer listed
    rw [folds.traffic] at listed
    simpa using listed
  have starts : ∀ id record, .startOwned id record ∈ state.traffic →
      .startOwned id record ∈ folded.traffic := by
    intro id record called
    rw [folds.traffic]
    exact List.mem_append_left _ called
  refine ⟨?_, ?_, ?_, ?_⟩
  · intro id found isFound terminal
    rw [folds.moves.states_eq, moveTo_eq_some, List.mem_singleton] at isFound
    rcases isFound with ⟨rfl, _, rfl⟩ | ⟨_, isFound⟩
    · exact Or.inr ⟨(explained.held id held).1.mono keeps, Or.inl follows⟩
    · exact (explained.settled id found isFound terminal).mono keeps (starts id) (answers id)
  · intro id member
    have heldBefore : id ∈ state.holders := by
      simp only [holders, RunPhase.batch, List.append_nil, folds.attachedTasks,
        folds.pendingAdmission, List.mem_append] at member
      rcases member with erased | parked
      · exact List.mem_append_left _ (List.mem_append_left _ (List.mem_of_mem_erase erased))
      · exact List.mem_append_left _ (List.mem_append_right _ parked)
    obtain ⟨completed, record, called⟩ := explained.held id heldBefore
    exact ⟨completed.mono keeps, record, starts id record called⟩
  · intro id member answer listed
    refine explained.queue id ?_ answer (answers id answer listed)
    simpa [queued, folds.pendingAdmission, before, RunPhase.batch] using member
  · rintro id answer listed ⟨found, isFound, isWaiting⟩
    apply explained.untouched id answer (answers id answer listed)
    rw [folds.moves.states_eq, moveTo_eq_some] at isFound
    rcases isFound with ⟨_, _, rfl⟩ | ⟨_, isFound⟩
    · rw [DagNodeState.not_waiting_of_terminal settlement.nodeState_isTerminal] at isWaiting
      cases isWaiting
    · exact ⟨found, isFound, isWaiting⟩

end SchedulerState

/-- An undisturbed step whose settlements follow the outcomes of the tasks. -/
def FollowsOutcome (outcome : DagNodeId → Settlement) (action : SchedulerAction) : Prop :=
  action.isUndisturbed = true ∧ ∀ nodeId settlement, action = .taskSettled nodeId settlement →
      settlement.nodeState = (outcome nodeId).nodeState

namespace SchedulerState

theorem Explained.step (explained : Explained outcome state) (invariant : Invariant rank state)
    (none : state.cancellation = .none) (follows : FollowsOutcome outcome action)
    (keeps : KeepsTerminal state.journal.durable next.journal.durable)
    (ownStep : OwnStep env rank state action next) : Explained outcome next := by
  have sameStates : ∀ {next : SchedulerState},
      KeepsTerminal state.journal.durable next.journal.durable →
      stateOf next.journal.durable = stateOf state.journal.durable →
      next.traffic = state.traffic → (∀ id ∈ next.holders, id ∈ state.holders) →
      (∀ id ∈ next.queued, id ∈ state.queued) → Explained outcome next := by
    intro next keeps same traffic holders queue
    refine explained.still keeps traffic ?_ ?_ holders queue
    · intro id found isFound _
      rwa [same] at isFound
    · intro id isWaiting
      rwa [Waiting, same] at isWaiting
  cases ownStep with
  | passed _ journal watches phase began passes =>
    refine sameStates keeps began.states_eq rfl ?_ ?_
    · simp only [holders, passes.batch_eq]
      exact fun _ member => member
    · simp only [queued, passes.batch_eq]
      exact fun _ member => member
  | admits _ begun between runnable _ running before began skips quiescent pass =>
    exact explained.of_admits keeps began skips pass
  | answered batch answers folded _ denied before length folds finishes =>
    have running : state.cancellationStarted = false := by
      by_contra started
      exact invariant.flagged.mp (Bool.not_eq_false _ ▸ started) none
    exact explained.of_batch invariant running before length keeps
      (invariant.batchExplained running before length folds finishes)
  | returns _ before returned =>
    cases returned with
    | finished =>
      obtain ⟨_, _, _, _, statesEq, _⟩ := invariant.sound.finishRun_spec env
      exact sameStates keeps statesEq rfl (by simp [holders, before, RunPhase.batch])
        (by simp [queued, before, RunPhase.batch])
    | threw | settling =>
      exact sameStates keeps rfl rfl (by simp [holders, before, RunPhase.batch])
        (by simp [queued, before, RunPhase.batch])
  | settles nodeId settlement inAdmission folded before running attached folds =>
    exact explained.of_settles (follows.2 nodeId settlement rfl) keeps before attached folds
  | promotes nodeId journal watches running queued moves =>
    refine explained.still keeps rfl ?_ ?_ (fun _ member => member) (fun _ member => member)
    · intro id found isFound terminal
      rw [moves.states_eq, moveTo_eq_some] at isFound
      rcases isFound with ⟨_, _, rfl⟩ | ⟨_, isFound⟩
      · cases terminal
      · exact isFound
    · rintro id ⟨found, isFound, isWaiting⟩
      rw [moves.states_eq, moveTo_eq_some] at isFound
      rcases isFound with ⟨_, _, rfl⟩ | ⟨_, isFound⟩
      · cases isWaiting
      · exact ⟨found, isFound, isWaiting⟩
  | cancels => cases follows.1
  | cancelsTasks reason before | cancelsRest reason before =>
    rw [none] at before
    cases before

/-- How an undisturbed run is closed, whether or not it went on orderly. -/
structure ClosedByFailure (state : SchedulerState) : Prop where
  openRun : state.phase ≠ .finished → state.journal.endings = []
  closed : state.phase = .finished → AllTerminal state.journal.durable ∧
    state.journal.durable.status =
      (if firstFailure state.journal.durable = none then .completed else .failed) ∧
    ∀ error counts, .runFailed error counts ∈ state.journal.endings →
      (firstFailure state.journal.durable).isSome ∧
        error.nodeId = firstFailure state.journal.durable

theorem ClosedByFailure.step (closing : ClosedByFailure state) (invariant : Invariant rank state)
    (none : state.cancellation = .none) (ownStep : OwnStep env rank state action next) :
    ClosedByFailure next := by
  have stillOpen : ∀ {next : SchedulerState}, next.journal.endings = [] →
      next.phase ≠ .finished → ClosedByFailure next := fun noEndings notFinished =>
    ⟨fun _ => noEndings, fun finished => absurd finished notFinished⟩
  cases ownStep with
  | passed _ journal watches phase began passes =>
    cases passes with
    | stays =>
      by_cases finished : state.phase = .finished
      · have status := (closing.closed finished).2.1
        have closed : state.journal.durable.status.isTerminal = true := by
          rw [status]
          split <;> rfl
        rw [began.closed closed]
        exact ⟨closing.openRun, closing.closed⟩
      · exact stillOpen (began.endings_eq.trans (closing.openRun finished)) finished
    | signalled inAdmission before =>
      exact stillOpen (began.endings_eq.trans (closing.openRun (by simp [before]))) (by simp)
    | observed cancelling before notEnded =>
      exact stillOpen (began.endings_eq.trans (closing.openRun notEnded)) (by simp)
    | returned before done =>
      rw [none] at done
      cases done
  | admits _ begun between runnable _ running before began skips quiescent pass =>
    have notFinished : state.phase ≠ .finished := by
      rcases before with phase | ⟨_, phase⟩ <;> simp [phase]
    refine stillOpen ?_ ?_
    · rw [pass.moves.endings_eq, skips.moves.endings_eq, began.endings_eq]
      exact closing.openRun notFinished
    · rw [pass.phase]
      split <;> simp
  | answered batch answers folded _ denied before length folds finishes =>
    have noEndings : folded.journal.endings = [] :=
      folds.moves.endings_eq.trans (closing.openRun (by simp [before]))
    cases finishes with
    | cancelled | admitted => exact stillOpen noEndings (by simp)
    | gaveUp journal running someDenied noneAttached moves =>
      exact stillOpen (moves.endings_eq.trans noEndings) (by simp)
    | parked => exact stillOpen noEndings (by simp)
  | returns _ before returned =>
    have noEndings := closing.openRun (by simp [before])
    cases returned with
    | threw | settling => exact stillOpen noEndings (by simp)
    | finished allTerminal =>
      obtain ⟨payload, _, endings, sound, statesEq, statusEq, named⟩ :=
        invariant.sound.finishRun_spec env
      have sameFailure := firstFailure_congr
        (RunJournal.evolves_finishRun env state.journal).skeleton_eq statesEq
      refine ⟨fun notFinished => absurd rfl notFinished, fun _ => ⟨?_, ?_, ?_⟩⟩
      · exact (allTerminal_congr invariant.sound sound statesEq).mpr allTerminal
      · rw [sameFailure]
        exact statusEq
      · intro error counts listed
        rw [sameFailure]
        simp only [endings, noEndings, List.nil_append, List.mem_singleton] at listed
        obtain ⟨isSome, names⟩ := named error counts listed.symm
        exact ⟨isSome, names invariant.named⟩
  | settles nodeId settlement inAdmission folded before running attached folds =>
    exact stillOpen (folds.moves.endings_eq.trans (closing.openRun (by simp [before]))) (by simp)
  | promotes nodeId journal watches running queued moves =>
    have notFinished : state.phase ≠ .finished := by
      intro finished
      have all := (allTerminal_iff invariant.sound.graph).mp (closing.closed finished).1
      have terminal := all nodeId .scheduled queued
      cases terminal
    exact stillOpen (moves.endings_eq.trans (closing.openRun notFinished)) notFinished
  | cancels => exact ⟨closing.openRun, closing.closed⟩
  | cancelsTasks reason before | cancelsRest reason before =>
    rw [none] at before
    cases before

end SchedulerState

/-- The end of an undisturbed run in which tasks settle with the given
outcomes and every start succeeds in the end. -/
def FinishedRun (start : DagStart) (outcome : DagNodeId → Settlement)
    (final : SchedulerState) : Prop :=
  ∃ env files actions, execute (schedulerStep env) (start.scheduler files) actions = some final ∧
    (∀ action ∈ actions, FollowsOutcome outcome action) ∧
    final.phase = .finished ∧
    ∀ id record, .startOwned id record ∈ final.traffic →
      ∃ answer, .answered id answer ∈ final.traffic ∧ (answer.attachedTask false).isSome

theorem not_failed_of_completed (completed : DepsCompleted record id) :
    ¬ FailedDependency record id := by
  rintro ⟨dep, member, found, isFound, _, notCompleted⟩
  rw [completed dep member] at isFound
  exact notCompleted (Option.some.inj isFound).symm

/-- What a finished run has settled. -/
structure SettledRun (start : DagStart) (outcome : DagNodeId → Settlement)
    (record : DagRunRecordV1) : Prop where
  skeleton_eq : skeleton record = skeleton start.created
  nodes : ∀ id found, stateOf record id = some found →
    (found = .skipped ∧ FailedDependency record id) ∨
      (found = (outcome id).nodeState ∧ DepsCompleted record id)
  status : record.status =
    if firstFailure record = none then .completed else .failed

theorem settledRun_of_finished (accepted : start.Accepted)
    (finishedRun : FinishedRun start outcome final) :
    SettledRun start outcome final.journal.durable ∧
      ∀ error counts, .runFailed error counts ∈ final.journal.endings →
        (firstFailure final.journal.durable).isSome ∧
          error.nodeId = firstFailure final.journal.durable := by
  obtain ⟨env, files, actions, reached, follows, finished, eventually⟩ := finishedRun
  obtain ⟨rank, initially⟩ := start.invariant accepted files
  have preserved : ∀ state action next,
      state.Invariant rank ∧ state.cancellation = .none ∧ state.Explained outcome ∧
        state.ClosedByFailure ∧ skeleton state.journal.durable = skeleton start.created →
      FollowsOutcome outcome action → schedulerStep env state action = some next →
      next.Invariant rank ∧ next.cancellation = .none ∧ next.Explained outcome ∧
        next.ClosedByFailure ∧
          skeleton next.journal.durable = skeleton start.created := by
    rintro state action next ⟨invariant, none, explained, closing, same⟩ follows taken
    have own := own_of_isUndisturbed follows.1
    have ownStep := invariant.ownStep own taken
    have keeps := invariant.keepsTerminal own taken
    refine ⟨invariant.step ownStep, cancellation_none_step follows.1 none ownStep,
      explained.step invariant none follows keeps ownStep,
      closing.step invariant none ownStep, ?_⟩
    exact (SchedulerState.skeleton_of_step own taken).trans same
  have idle : ∀ id found, stateOf start.created id = some found → found = .pending := by
    intro id found isFound
    obtain ⟨node, member, _, nodeState, _⟩ := exists_of_stateOf isFound
    rw [← nodeState]
    exact compileDag_nodes_pending accepted node member
  have explainedInitially : (start.scheduler files).Explained outcome := by
    refine ⟨?_, fun id member => absurd member List.not_mem_nil,
      fun id member => absurd member List.not_mem_nil,
      fun id answer member => absurd member List.not_mem_nil⟩
    intro id found isFound terminal
    rw [idle id found isFound] at terminal
    cases terminal
  have everyStep : EveryStep (schedulerStep env)
      (fun _ action _ => FollowsOutcome outcome action) (start.scheduler files) actions :=
    everyStep_of_forall fun action member _ _ => follows action member
  obtain ⟨invariant, _, explained, closing, same⟩ := invariant_of_execute preserved
    ⟨initially, rfl, explainedInitially,
      ⟨fun _ => rfl, fun impossible => by cases impossible⟩, rfl⟩ reached everyStep
  obtain ⟨allTerminal, status, named⟩ := closing.closed finished
  refine ⟨⟨same, ?_, status⟩, named⟩
  intro id found isFound
  have terminal := (SchedulerState.allTerminal_iff invariant.sound.graph).mp allTerminal
    id found isFound
  rcases explained.settled id found isFound terminal with skipped | ⟨completed, reason⟩
  · exact Or.inl skipped
  · rcases reason with isOutcome | ⟨⟨record, called⟩, noTask⟩
    · exact Or.inr ⟨isOutcome, completed⟩
    · obtain ⟨answer, listed, isTask⟩ := eventually id record called
      rw [noTask answer listed] at isTask
      cases isTask

/-- The states of settled runs are determined. -/
theorem SettledRun.states_eq (accepted : start.Accepted)
    (settledFirst : SettledRun start outcome first)
    (settledSecond : SettledRun start outcome second) : stateOf first = stateOf second := by
  obtain ⟨rank, graph⟩ := wellFormedGraph_of_accepted accepted
  have sameSkeleton := settledFirst.skeleton_eq.trans settledSecond.skeleton_eq.symm
  have graphFirst : WellFormedGraph first.nodes rank :=
    wellFormedGraph_of_skeleton settledFirst.skeleton_eq graph
  have sameDeps := depsOf_of_skeleton sameSkeleton
  have agree : ∀ bound id, rank id < bound → stateOf first id = stateOf second id := by
    intro bound
    induction bound with
    | zero => omega
    | succ bound ih =>
      intro id below
      have depsAgree : ∀ dep ∈ depsOf first id, stateOf first dep = stateOf second dep := by
        intro dep member
        obtain ⟨smaller, _⟩ := graphFirst.dependency member
        exact ih dep (by omega)
      have failedIff : FailedDependency first id ↔ FailedDependency second id := by
        unfold FailedDependency
        rw [← sameDeps]
        constructor
        · rintro ⟨dep, member, rest⟩
          exact ⟨dep, member, by rwa [← depsAgree dep member]⟩
        · rintro ⟨dep, member, rest⟩
          exact ⟨dep, member, by rwa [depsAgree dep member]⟩
      have completedIff : DepsCompleted first id ↔ DepsCompleted second id := by
        unfold DepsCompleted
        rw [← sameDeps]
        constructor
        · intro completed dep member
          rw [← depsAgree dep member]
          exact completed dep member
        · intro completed dep member
          rw [depsAgree dep member]
          exact completed dep member
      cases foundFirst : stateOf first id with
      | none =>
        have absent : ¬ (stateOf second id).isSome := by
          rw [isSome_stateOf_iff, ← sameSkeleton, ← isSome_stateOf_iff, foundFirst]
          simp
        simpa using (Option.not_isSome_iff_eq_none.mp absent).symm
      | some one =>
        have present : (stateOf second id).isSome := by
          rw [isSome_stateOf_iff, ← sameSkeleton, ← isSome_stateOf_iff, foundFirst]
          rfl
        obtain ⟨other, foundSecond⟩ := Option.isSome_iff_exists.mp present
        rw [foundSecond]
        rcases settledFirst.nodes id one foundFirst with ⟨rfl, failed⟩ | ⟨rfl, completed⟩ <;>
        rcases settledSecond.nodes id other foundSecond with
          ⟨rfl, failedSecond⟩ | ⟨rfl, completedSecond⟩
        · rfl
        · exact absurd (failedIff.mp failed) (not_failed_of_completed completedSecond)
        · exact absurd failedSecond (not_failed_of_completed (completedIff.mp completed))
        · rfl
  funext id
  exact agree (rank id + 1) id (by omega)

/-- What two finished runs have in common. -/
structure SameOutcome (outcome : DagNodeId → Settlement)
    (first second : SchedulerState) : Prop where
  states : stateOf first.journal.durable = stateOf second.journal.durable
  ownOutcome : ∀ id found, stateOf first.journal.durable id = some found →
    (found = (outcome id).nodeState ↔ DepsCompleted first.journal.durable id)
  skipped : ∀ id found, stateOf first.journal.durable id = some found →
    (found = .skipped ↔ FailedDependency first.journal.durable id)
  status : first.journal.durable.status = second.journal.durable.status
  failure : ∀ error counts error' counts', .runFailed error counts ∈ first.journal.endings →
    .runFailed error' counts' ∈ second.journal.endings →
      ∃ nodeId, error.nodeId = some nodeId ∧ error'.nodeId = some nodeId

theorem Settlement.nodeState_ne_skipped (settlement : Settlement) :
    settlement.nodeState ≠ .skipped := by
  cases settlement with
  | record task terminal =>
    simp only [nodeState, outcomeState]
    split <;> simp
  | error message => simp [nodeState]

theorem SettledRun.ownOutcome_iff (settled : SettledRun start outcome record)
    (isFound : stateOf record id = some found) :
    found = (outcome id).nodeState ↔ DepsCompleted record id := by
  rcases settled.nodes id found isFound with ⟨rfl, failed⟩ | ⟨isOutcome, completed⟩
  · constructor
    · exact fun equal => absurd equal.symm (outcome id).nodeState_ne_skipped
    · exact fun completed => absurd failed (not_failed_of_completed completed)
  · exact ⟨fun _ => completed, fun _ => isOutcome⟩

theorem SettledRun.skipped_iff (settled : SettledRun start outcome record)
    (isFound : stateOf record id = some found) : found = .skipped ↔ FailedDependency record id := by
  rcases settled.nodes id found isFound with ⟨isSkipped, failed⟩ | ⟨rfl, completed⟩
  · exact ⟨fun _ => failed, fun _ => isSkipped⟩
  · constructor
    · exact fun equal => absurd equal (outcome id).nodeState_ne_skipped
    · exact fun failed => absurd failed (not_failed_of_completed completed)

/-- Two finished runs of one definition, with the same outcomes of the tasks,
agree on the states of the nodes, on the status and on the reported
failure. -/
theorem sameOutcome_of_finished {start : DagStart} (accepted : start.Accepted)
    {outcome : DagNodeId → Settlement} {first second : SchedulerState}
    (firstRun : FinishedRun start outcome first) (secondRun : FinishedRun start outcome second) :
    SameOutcome outcome first second := by
  obtain ⟨settledFirst, namedFirst⟩ := settledRun_of_finished accepted firstRun
  obtain ⟨settledSecond, namedSecond⟩ := settledRun_of_finished accepted secondRun
  have sameStates := settledFirst.states_eq accepted settledSecond
  have sameFailure := firstFailure_congr
    (settledFirst.skeleton_eq.trans settledSecond.skeleton_eq.symm) sameStates
  refine ⟨sameStates, fun id found isFound => settledFirst.ownOutcome_iff isFound,
    fun id found isFound => settledFirst.skipped_iff isFound, ?_, ?_⟩
  · rw [settledFirst.status, settledSecond.status, sameFailure]
  · intro error counts error' counts' listed listed'
    obtain ⟨isSome, named⟩ := namedFirst error counts listed
    obtain ⟨_, named'⟩ := namedSecond error' counts' listed'
    obtain ⟨nodeId, isFailure⟩ := Option.isSome_iff_exists.mp isSome
    exact ⟨nodeId, named.trans isFailure, named'.trans (sameFailure ▸ isFailure)⟩

/-- Every node handed to `startOwned` has got a task. -/
def startsSucceed (traffic : List TaskTraffic) : Bool :=
  traffic.all fun
    | .startOwned id _ => traffic.any fun
        | .answered other answer => other == id && (answer.attachedTask false).isSome
        | _ => false
    | _ => true

theorem exists_answer_of_startsSucceed (succeed : startsSucceed traffic = true)
    (called : .startOwned id record ∈ traffic) :
    ∃ answer, .answered id answer ∈ traffic ∧ (answer.attachedTask false).isSome := by
  obtain ⟨entry, listed, isAnswer⟩ := List.any_eq_true.mp
    (List.all_eq_true.mp succeed _ called)
  cases entry with
  | answered other answer =>
    simp only [Bool.and_eq_true, beq_iff_eq] at isAnswer
    obtain ⟨rfl, isTask⟩ := isAnswer
    exact ⟨answer, listed, isTask⟩
  | _ => cases isAnswer

/-- Two independent nodes and one that waits for both. -/
def joinStart : DagStart :=
  sampleStart [sampleNode "a" [], sampleNode "b" [], sampleNode "c" ["a", "b"]]

/-- The task of `b` fails, the others complete. -/
def joinOutcome (nodeId : DagNodeId) : Settlement :=
  if nodeId = "b" then .error "lost" else completedTask nodeId

/-- Both tasks start at once and the first one settles first. -/
def joinRun : List SchedulerAction :=
  [.run, .batchAnswered [runningTask "a", runningTask "b"], .admissionReturned,
    .taskSettled "a" (joinOutcome "a"), .settleReturned, .admissionReturned,
    .taskSettled "b" (joinOutcome "b"), .settleReturned, .admissionReturned]

/-- The first task is denied until the second one has settled. -/
def deniedJoinRun : List SchedulerAction :=
  [.run, .batchAnswered [.fulfilled .residencyDenied, runningTask "b"],
    .taskSettled "b" (joinOutcome "b"), .settleReturned, .batchAnswered [runningTask "a"],
    .admissionReturned, .taskSettled "a" (joinOutcome "a"), .settleReturned, .admissionReturned]

theorem finishedRun_of_trace (follows : ∀ action ∈ actions, FollowsOutcome joinOutcome action)
    (trace : (execute (schedulerStep sampleEnv) (joinStart.scheduler noFiles)
      actions).map (fun final => (final.phase, startsSucceed final.traffic)) =
        some (.finished, true)) :
    ∃ final, execute (schedulerStep sampleEnv) (joinStart.scheduler noFiles) actions =
        some final ∧ FinishedRun joinStart joinOutcome final := by
  obtain ⟨final, reached, both⟩ := Option.map_eq_some_iff.mp trace
  obtain ⟨finished, succeed⟩ := Prod.mk.inj both
  exact ⟨final, reached, sampleEnv, noFiles, actions, reached, follows, finished,
    fun id record => exists_answer_of_startsSucceed succeed⟩

/-- The two runs of the join agree. -/
theorem sameOutcome_join :
    ∃ first second, execute (schedulerStep sampleEnv) (joinStart.scheduler noFiles) joinRun =
        some first ∧
      execute (schedulerStep sampleEnv) (joinStart.scheduler noFiles) deniedJoinRun = some second ∧
      SameOutcome joinOutcome first second := by
  have follows : ∀ action ∈ joinRun ++ deniedJoinRun, FollowsOutcome joinOutcome action := by
    intro action member
    simp only [joinRun, deniedJoinRun, List.cons_append, List.nil_append, List.mem_cons,
      List.not_mem_nil, or_false] at member
    refine ⟨?_, ?_⟩
    · rcases member with rfl | rfl | rfl | rfl | rfl | rfl | rfl | rfl | rfl |
        rfl | rfl | rfl | rfl | rfl | rfl | rfl | rfl | rfl <;> rfl
    · intro nodeId settlement isSettled
      subst isSettled
      simp only [reduceCtorEq, false_or, or_false] at member
      rcases member with ⟨rfl, rfl⟩ | ⟨rfl, rfl⟩ | ⟨rfl, rfl⟩ | ⟨rfl, rfl⟩ <;> rfl
  obtain ⟨first, firstReached, firstRun⟩ := finishedRun_of_trace
    (fun action member => follows action (List.mem_append_left _ member))
    (by decide +kernel)
  obtain ⟨second, secondReached, secondRun⟩ := finishedRun_of_trace
    (fun action member => follows action (List.mem_append_right _ member))
    (by decide +kernel)
  exact ⟨first, second, firstReached, secondReached,
    sameOutcome_of_finished (by decide +kernel) firstRun secondRun⟩

end OpenAgent.Dag
