import OpenAgent.Dag.RunStart

/-!
# Where the reducers agree

The manager's reducer ignores most events and the scheduler's ignores
`dag.run.paused`, so a replay depends on who opens the journal first.  The
condition below says for each event, from the record before it, when the
three reducers nevertheless agree: the event is one the manager applies too,
or its whole effect is already in the record.
-/

namespace OpenAgent.Dag

open Library

theorem map_eq_self_iff {values : List α} :
    values.map change = values ↔ ∀ value ∈ values, change value = value := by
  induction values with
  | nil => simp
  | cons head tail ih => simp [ih]

theorem updateNodes_eq_self_iff : (updateNodes record nodeId change).nodes = record.nodes ↔
      ∀ node ∈ record.nodes, node.id = nodeId → change node = node := by
  rw [updateNodes, map_eq_self_iff]
  refine forall₂_congr fun node _ => ?_
  by_cases named : node.id = nodeId
  · simp
  · simp

/-- A change of one node and of the time is nothing new to a record. -/
private theorem updated_eq_self_iff {condition : DagNode → Prop}
    (unchanged : ∀ node, change node = node ↔ condition node) :
    { updateNodes record nodeId change with updatedAt := atTime } = record ↔
      (∀ node ∈ record.nodes, node.id = nodeId → condition node) ∧ record.updatedAt = atTime := by
  have nodes : (updateNodes record nodeId change).nodes = record.nodes ↔
      ∀ node ∈ record.nodes, node.id = nodeId → condition node := by
    rw [updateNodes_eq_self_iff]
    exact forall₂_congr fun node _ => imp_congr_right fun _ => unchanged node
  rw [← nodes]
  cases record
  simp [updateNodes, eq_comm, and_comm]

private theorem withUpdatedAt_eq_self_iff {record : DagRunRecordV1} :
    { record with updatedAt := atTime } = record ↔ record.updatedAt = atTime := by
  cases record
  simp [eq_comm]

theorem withCheckpointSeq_inj {right : DagRunRecordV1}
    (start : left.checkpointSeq = right.checkpointSeq) :
    withCheckpointSeq left seq = withCheckpointSeq right seq ↔ left = right := by
  constructor
  · intro same
    have fields := DagRunRecordV1.mk.inj same
    cases left
    simp_all
  · rintro rfl
    rfl

/-- A transition that is already in the node, with the replayed result. -/
def TransitionPresent (target : DagNodeState) (atTime : String)
    (replayed : Option (DagNodeResultArtifact × Option TaskRunStats)) (node : DagNode) : Prop :=
  node.state = target ∧
    (target = .running → node.startedAt.isSome = true) ∧
    (target.isTerminal = true → node.completedAt = some atTime) ∧
    ∀ artifact runStats, replayed = some (artifact, runStats) →
      node.resultArtifact = some artifact ∧
        (runStats = none ∨ node.runStats = runStats)

private theorem transitionedNode_eq_self_iff :
    transitionedNode node target atTime none = node ↔
      TransitionPresent target atTime none node := by
  unfold TransitionPresent transitionedNode clearedTerminalOutcome
  cases target <;> cases node with
  | mk _ _ _ _ _ state _ _ _ _ _ _ startedAt completedAt _ =>
    cases state <;> cases startedAt <;> simp [DagNodeState.isTerminal, eq_comm]

private theorem withResult_eq_self_iff :
    withResult artifact runStats (transitionedNode node .completed atTime none) = node ↔
      TransitionPresent .completed atTime (some (artifact, runStats)) node := by
  unfold TransitionPresent transitionedNode withResult
  cases node with
  | mk _ _ _ _ _ state _ _ _ _ nodeStats _ startedAt completedAt nodeArtifact =>
    cases runStats <;> grind

/-- What the reducers of a fresh process read besides the record. -/
structure ReplayContext where
  isAlive : Nat → Bool
  store : ResultStore
  files : ResultFiles
  clock : String

namespace ReplayContext

variable (context : ReplayContext)

section

variable (record : DagRunRecordV1) (event : DagRunEvent)

/-- The manager's reducer. -/
def manager : DagRunRecordV1 :=
  applyRunEvent context.isAlive record event

/-- The scheduler's reducer with empty side tables. -/
def scheduler : DagRunRecordV1 :=
  (applyDagSchedulerEvent context.isAlive context.store .empty context.clock
    context.files record event).1

/-- Recovery's reducer with empty side tables. -/
def recovery : DagRunRecordV1 :=
  (applyRecoveryEvent context.isAlive context.store .empty context.clock
    context.files record event).1

/-- The result a fresh process finds on disk for a transition. -/
def replayedResult (nodeId : DagNodeId) (target : DagNodeState) :
    Option (DagNodeResultArtifact × Option TaskRunStats) :=
  if target = .completed then
    replayDagNodeResult context.store context.files record.runId nodeId
  else none

/-- The reducers agree on an event: the manager applies it too, or everything
it does is already in the record. -/
def EventAgrees : Prop :=
  match event.payload with
  | .runCreated _ _ _ _ _ | .nodeRetried _ _ _ _ => True
  | .definitionAmended amendment =>
    refusesAmendment context.isAlive record amendment = false ∨
      record.updatedAt = event.atTime
  | .runPaused _ => record.status = .paused ∧ record.updatedAt = event.atTime
  | .runStarted _ =>
    record.status = .running ∧ record.startedAt.isSome = true ∧
      record.updatedAt = event.atTime
  | .runCompleted _ =>
    record.status = .completed ∧ record.completedAt = some event.atTime ∧
      record.updatedAt = event.atTime
  | .runFailed _ _ =>
    record.status = .failed ∧ record.completedAt = some event.atTime ∧
      record.updatedAt = event.atTime
  | .runCancelled _ _ _ =>
    record.status = .cancelled ∧ record.completedAt = some event.atTime ∧
      record.updatedAt = event.atTime
  | .runResumed generation =>
    record.status = .running ∧ record.completedAt = none ∧
      record.generation = generation ∧ record.updatedAt = event.atTime
  | .nodeTransitioned nodeId _ target _ =>
    (∀ node ∈ record.nodes, node.id = nodeId → TransitionPresent target event.atTime
        (context.replayedResult record nodeId target) node) ∧
      record.updatedAt = event.atTime
  | .nodeTaskAttached nodeId taskId attempt =>
    (∀ node ∈ record.nodes, node.id = nodeId → node.taskId = some taskId ∧ node.attempt = attempt) ∧
      record.updatedAt = event.atTime
  | .nodeSteered nodeId taskId .revive =>
    (∀ node ∈ record.nodes, node.id = nodeId → node.taskId = some taskId) ∧
      record.updatedAt = event.atTime
  | .nodeSteered _ _ .steer | .waveStarted _ _ | .waveCompleted _ _
  | .nodeReused _ _ _ | .diagnosticAdded _ | .streamOverflow _ _ =>
    record.updatedAt = event.atTime

end

variable {context}

private theorem applyTransition_eq_self_iff :
    applyTransition record nodeId target atTime none
        (context.replayedResult record nodeId target) = record ↔
      (∀ node ∈ record.nodes, node.id = nodeId → TransitionPresent target atTime
          (context.replayedResult record nodeId target) node) ∧
        record.updatedAt = atTime := by
  apply updated_eq_self_iff
  intro node
  unfold replayedResult transitionedWithResult
  by_cases isCompleted : target = .completed
  · subst isCompleted
    cases replayDagNodeResult context.store context.files record.runId nodeId with
    | none => exact transitionedNode_eq_self_iff
    | some result => exact withResult_eq_self_iff
  · simp only [if_neg isCompleted]
    exact transitionedNode_eq_self_iff

private theorem agrees_of_ignored (ignored : context.manager record event = record)
    (same : context.recovery record event = context.scheduler record event)
    (effect : context.scheduler record event = record ↔ context.EventAgrees record event) :
    (context.manager record event = context.scheduler record event ∧
        context.recovery record event = context.scheduler record event) ↔
      context.EventAgrees record event := by
  rw [ignored, same, ← effect]
  simp [eq_comm]

/-- The three reducers return the same record for an event exactly under the
condition. -/
theorem eventAgrees_iff :
    (context.manager record event = context.scheduler record event ∧
        context.recovery record event = context.scheduler record event) ↔
      context.EventAgrees record event := by
  obtain ⟨runId, seq, atTime, lane, payload⟩ := event
  cases payload with
  | runCreated | nodeRetried => exact ⟨fun _ => trivial, fun _ => ⟨rfl, rfl⟩⟩
  | definitionAmended amendment =>
    cases refused : refusesAmendment context.isAlive record amendment with
    | false =>
      simp [manager, scheduler, recovery, applyRunEvent, applyRecoveryEvent, applyDagSchedulerEvent,
        applyDagRunMutation, EventAgrees, refused, amendedRecord]
    | true =>
      simp only [manager, scheduler, recovery, applyRunEvent, applyRecoveryEvent,
        applyDagSchedulerEvent, applyDagRunMutation, EventAgrees, refused,
        and_true, Bool.true_eq_false, false_or]
      rw [eq_comm]
      exact withUpdatedAt_eq_self_iff
  | runPaused reason =>
    simp only [manager, scheduler, recovery, applyRunEvent, applyRecoveryEvent,
      applyDagSchedulerEvent, applyDagRunMutation, EventAgrees]
    cases record
    grind
  | nodeTransitioned nodeId source target reason =>
    refine agrees_of_ignored rfl rfl ?_
    simp only [scheduler, applyDagSchedulerEvent, applyNodeTransitioned, SideTables.empty, ite_self]
    exact applyTransition_eq_self_iff
  | nodeTaskAttached nodeId taskId attempt =>
    refine agrees_of_ignored rfl rfl ?_
    apply updated_eq_self_iff
    intro node
    cases node
    simp [eq_comm]
  | nodeSteered nodeId taskId delivery =>
    cases delivery with
    | steer => exact agrees_of_ignored rfl rfl withUpdatedAt_eq_self_iff
    | revive =>
      refine agrees_of_ignored rfl rfl ?_
      apply updated_eq_self_iff
      intro node
      cases node
      simp [eq_comm]
  | runStarted generation =>
    refine agrees_of_ignored rfl rfl ?_
    simp only [scheduler, applyDagSchedulerEvent, EventAgrees]
    cases record with
    | mk _ _ _ _ _ _ _ _ _ _ _ _ startedAt => cases startedAt <;> grind
  | runCompleted counts | runFailed error counts | runCancelled reason counts cancelledNodeIds
  | runResumed generation =>
    refine agrees_of_ignored rfl rfl ?_
    simp only [scheduler, applyDagSchedulerEvent, EventAgrees]
    cases record
    grind
  | waveStarted | waveCompleted | nodeReused =>
    exact agrees_of_ignored rfl rfl withUpdatedAt_eq_self_iff
  | diagnosticAdded | streamOverflow => exact agrees_of_ignored rfl rfl withUpdatedAt_eq_self_iff

variable (context)

/-- Recovering a checkpoint through any of the three reducers gives the same
record. -/
def ReducersAgree (checkpoint : DagRunRecordV1) (tail : List DagRunEvent) : Prop :=
  replay context.manager checkpoint tail = replay context.scheduler checkpoint tail ∧
    replay context.recovery checkpoint tail = replay context.scheduler checkpoint tail

/-- Every event of a tail meets the condition at the record before it. -/
def TailAgrees : DagRunRecordV1 → List DagRunEvent → Prop
  | _, [] => True
  | record, event :: rest =>
    context.EventAgrees record event ∧
      TailAgrees (replayEvent context.manager record event) rest

variable {context}

private theorem applyTransition_checkpointSeq :
    (applyTransition record nodeId target atTime error result).checkpointSeq =
      record.checkpointSeq := rfl

/-- No reducer moves the checkpoint; the journal does. -/
private theorem checkpointSeq_reducers (record : DagRunRecordV1) (event : DagRunEvent) :
    (context.manager record event).checkpointSeq = record.checkpointSeq ∧
      (context.scheduler record event).checkpointSeq = record.checkpointSeq ∧
      (context.recovery record event).checkpointSeq = record.checkpointSeq := by
  obtain ⟨runId, seq, atTime, lane, payload⟩ := event
  cases payload with
  | definitionAmended amendment =>
    cases refused : refusesAmendment context.isAlive record amendment <;>
      simp [manager, scheduler, recovery, applyRunEvent, applyRecoveryEvent,
        applyDagSchedulerEvent, applyDagRunMutation, refused, amendedRecord]
  | nodeTransitioned nodeId source target reason =>
    simp [manager, scheduler, recovery, applyRunEvent, applyRecoveryEvent, applyDagSchedulerEvent,
      applyDagRunMutation, applyNodeTransitioned, SideTables.empty, applyTransition_checkpointSeq]
  | nodeSteered nodeId taskId delivery => cases delivery <;> exact ⟨rfl, rfl, rfl⟩
  | _ => exact ⟨rfl, rfl, rfl⟩

private theorem replayEvent_agrees_iff :
    (replayEvent context.manager record event = replayEvent context.scheduler record event ∧
        replayEvent context.recovery record event =
          replayEvent context.scheduler record event) ↔
      context.EventAgrees record event := by
  obtain ⟨ofManager, ofScheduler, ofRecovery⟩ := @checkpointSeq_reducers context record event
  rw [← eventAgrees_iff]
  exact and_congr (withCheckpointSeq_inj (ofManager.trans ofScheduler.symm))
    (withCheckpointSeq_inj (ofRecovery.trans ofScheduler.symm))

/-- The reducers agree on a tail and on everything a crash can leave of it
exactly when every event of the tail meets the condition. -/
theorem reducersAgree_iff (checkpoint : DagRunRecordV1) (tail : List DagRunEvent) :
    (∀ written, written <+: tail → context.ReducersAgree checkpoint written) ↔
      context.TailAgrees checkpoint tail := by
  induction tail generalizing checkpoint with
  | nil =>
    refine ⟨fun _ => trivial, fun _ written isPrefix => ?_⟩
    rw [List.prefix_nil.mp isPrefix]
    exact ⟨rfl, rfl⟩
  | cons event rest ih =>
    rw [TailAgrees, ← ih, ← replayEvent_agrees_iff]
    constructor
    · intro agrees
      obtain ⟨managerFirst, recoveryFirst⟩ :=
        agrees [event] (List.prefix_append [event] rest)
      refine ⟨⟨managerFirst, recoveryFirst⟩, ?_⟩
      intro written isPrefix
      obtain ⟨managerAll, recoveryAll⟩ :=
        agrees (event :: written) (List.cons_prefix_cons.mpr ⟨rfl, isPrefix⟩)
      rw [replay_singleton, replay_singleton] at managerFirst
      rw [replay_singleton, replay_singleton] at recoveryFirst
      rw [replay_cons, replay_cons, ← managerFirst] at managerAll
      rw [replay_cons, replay_cons, recoveryFirst, ← managerFirst] at recoveryAll
      exact ⟨managerAll, recoveryAll⟩
    · rintro ⟨⟨managerFirst, recoveryFirst⟩, agrees⟩ written isPrefix
      cases written with
      | nil => exact ⟨rfl, rfl⟩
      | cons first written =>
        obtain ⟨rfl, laterPrefix⟩ := List.cons_prefix_cons.mp isPrefix
        obtain ⟨managerAll, recoveryAll⟩ := agrees written laterPrefix
        unfold ReducersAgree
        rw [replay_cons, replay_cons, replay_cons, recoveryFirst, ← managerFirst]
        exact ⟨managerAll, recoveryAll⟩

end ReplayContext

/-- A process without result files. -/
def bareContext : ReplayContext where
  isAlive := fun _ => false
  store := { sha256 := fun _ => "", stateDir := "", failure := fun _ => none }
  files := { output := fun _ => none, stats := fun _ => none }
  clock := ""

/-- The first event of the scheduler, still unread when the journal is
opened. -/
def startedEvent : DagRunEvent where
  runId := "dag_1"
  seq := 2
  atTime := "2026-01-01T00:00:01.000Z"
  lane := .boundary
  payload := .runStarted 1

/-- Opened by the manager the run is pending, opened by the scheduler it
runs. -/
theorem not_reducersAgree_started :
    ¬ bareContext.ReducersAgree chainStart.created [startedEvent] := by
  rintro ⟨same, _⟩
  have statuses := congrArg DagRunRecordV1.status same
  cases statuses

end OpenAgent.Dag
