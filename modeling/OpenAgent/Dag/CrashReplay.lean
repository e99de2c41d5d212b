import OpenAgent.Dag.ReducerAgreement

/-!
# Crash and replay of one scheduler event

The reducer of a live scheduler closes over its side tables and stages result
files; a fresh process has neither.  An event that was written to the log but
not to the checkpoint is replayed to the same record exactly when it needed
nothing of them, or the record or the disk already holds what it took.
-/

namespace OpenAgent.Dag

open Library

/-- A live scheduler about to apply an event, and the faults and the clock of
the process that replays it. -/
structure CrashContext where
  isAlive : Nat → Bool
  sha256 : String → String
  stateDir : String
  tables : SideTables
  files : ResultFiles
  failure : DagNodeId → Option PersistFailure
  clock : String
  laterFailure : DagNodeId → Option PersistFailure
  laterClock : String

namespace CrashContext

variable (context : CrashContext)

/-- The store of the live process. -/
def store : ResultStore where
  sha256 := context.sha256
  stateDir := context.stateDir
  failure := context.failure

/-- The store of the process that replays. -/
def laterStore : ResultStore where
  sha256 := context.sha256
  stateDir := context.stateDir
  failure := context.laterFailure

section

variable (record : DagRunRecordV1) (event : DagRunEvent)

/-- The live reducer: the record and the result files. -/
def apply : DagRunRecordV1 × ResultFiles :=
  applyDagSchedulerEvent context.isAlive context.store context.tables context.clock
    context.files record event

/-- The record that the append which does not crash writes as its
checkpoint. -/
def appended : DagRunRecordV1 :=
  withCheckpointSeq (context.apply record event).1 event.seq

/-- Whether `appendPayload` runs the reducer before the log write. -/
def prepared : Bool :=
  match event.payload with
  | .nodeTransitioned _ _ .completed _ => true
  | _ => false

/-- The result files when the process dies between the log write and the
checkpoint write; `reduced` says whether the reducer had run by then. -/
def crashFiles (reduced : Bool) : ResultFiles :=
  if prepared event || reduced then (context.apply record event).2 else context.files

/-- The record that a fresh process recovers from the old checkpoint and the
one event behind it. -/
def replayed (reduced : Bool) : DagRunRecordV1 :=
  replay (fun record event =>
      (applyDagSchedulerEvent context.isAlive context.laterStore .empty context.laterClock
        (context.crashFiles record event reduced) record event).1)
    record [event]

/-- The error a live transition would add is not there to be lost: there is
none, or every node of that id carries it already. -/
def ErrorSurvives (nodeId : DagNodeId) (target : DagNodeState) : Prop :=
  ∀ error, context.tables.pendingErrors nodeId = some error →
    ∀ node ∈ record.nodes, node.id = nodeId →
      node.error = some error ∧ ¬ (target = .running ∧ node.state.isTerminal = true)

/-- The staged result survives the crash: the copy does not fail and, for a
completed node, the sidecar on disk is the one of this result; for a node that
ends otherwise, the record holds the artifact and the statistics already. -/
def ResultSurvives (nodeId : DagNodeId) (target : DagNodeState) : Prop :=
  ∀ task, context.tables.pendingTerminalResults nodeId = some task → target.isTerminal = true →
      context.failure nodeId = none ∧
        ∀ node ∈ record.nodes, node.id = nodeId →
          if target = .completed then
            task.runStats.isSome = true ∨ context.files.stats nodeId = none
          else
            node.resultArtifact =
                some (persistedArtifact context.store record.runId nodeId task) ∧
              (task.runStats = none ∨ node.runStats = task.runStats)

/-- The condition under which a crash between the two writes of an append does
not change the record. -/
def CrashSafe : Prop :=
  match event.payload with
  | .nodeTransitioned nodeId _ target _ =>
    context.ErrorSurvives record nodeId target ∧
      context.ResultSurvives record nodeId target
  | _ => True

end

variable {record : DagRunRecordV1}

private theorem applyTransition_eq_iff :
    applyTransition record nodeId target atTime leftError leftResult =
        applyTransition record nodeId target atTime rightError rightResult ↔
      ∀ node ∈ record.nodes, node.id = nodeId →
        transitionedWithResult target atTime leftError leftResult node =
          transitionedWithResult target atTime rightError rightResult node := by
  have nodes : applyTransition record nodeId target atTime leftError leftResult =
        applyTransition record nodeId target atTime rightError rightResult ↔
      (updateNodes record nodeId
          (transitionedWithResult target atTime leftError leftResult)).nodes =
        (updateNodes record nodeId
          (transitionedWithResult target atTime rightError rightResult)).nodes := by
    constructor
    · intro same
      have fields := congrArg DagRunRecordV1.nodes same
      exact fields
    · intro same
      simp only [applyTransition, updateNodes] at same ⊢
      rw [same]
  rw [nodes, updateNodes, updateNodes, List.map_inj_left]
  refine forall₂_congr fun node _ => ?_
  by_cases named : node.id = nodeId
  · simp [named]
  · simp [named]

/-- Losing the error changes nothing. -/
private theorem transitionedNode_error_iff :
    transitionedNode node target atTime none = transitionedNode node target atTime error ↔
      ∀ lost, error = some lost →
        node.error = some lost ∧ ¬ (target = .running ∧ node.state.isTerminal = true) := by
  cases error with
  | none => simp
  | some lost =>
    unfold transitionedNode clearedTerminalOutcome
    grind

private theorem withResult_eq_iff (sameResult : left.resultArtifact = right.resultArtifact)
    (sameStats : left.runStats = right.runStats) :
    withResult artifact runStats left = withResult artifact runStats right ↔
      left = right := by
  unfold withResult
  cases left
  cases right
  grind

/-- Losing the result of a node that did not complete changes nothing. -/
private theorem transitionedNode_result_iff (terminal : target.isTerminal = true) :
    transitionedNode node target atTime none =
        withResult artifact runStats (transitionedNode node target atTime error) ↔
      transitionedNode node target atTime none =
          transitionedNode node target atTime error ∧
        node.resultArtifact = some artifact ∧
          (runStats = none ∨ node.runStats = runStats) := by
  have notRunning : target ≠ .running := by
    rintro rfl
    cases terminal
  unfold transitionedNode withResult
  cases runStats <;> grind

variable {context}

/-- The result that a fresh process finds for a completed node after the copy
of its staged result. -/
private theorem replayDagNodeResult_written (record : DagRunRecordV1) :
    replayDagNodeResult context.laterStore
        (writeStatsSidecar (writeOutput context.files nodeId task) record.runId nodeId task)
        record.runId nodeId =
      match task.runStats with
      | some _ => some (persistedArtifact context.store record.runId nodeId task, task.runStats)
      | none =>
        some ({ persistedArtifact context.store record.runId nodeId task with
            stats := (context.files.stats nodeId).map fun sidecar =>
              context.store.artifactRef (statsPath record.runId nodeId) sidecar.text },
          (context.files.stats nodeId).map (·.runStats)) := by
  cases stats : task.runStats with
  | none | some runStats =>
    simp [replayDagNodeResult, writeStatsSidecar, writeOutput, stats,
      persistedArtifact, ResultStore.artifactRef, store, laterStore]

/-- A completed node after the crash, with its staged result on disk. -/
private theorem completed_iff :
    transitionedWithResult .completed atTime none (match task.runStats with
        | some _ => some (persistedArtifact context.store record.runId nodeId task, task.runStats)
        | none =>
          some ({ persistedArtifact context.store record.runId nodeId task with
              stats := (context.files.stats nodeId).map fun sidecar =>
                context.store.artifactRef (statsPath record.runId nodeId) sidecar.text },
            (context.files.stats nodeId).map (·.runStats))) node =
        transitionedWithResult .completed atTime error
          (some (persistedArtifact context.store record.runId nodeId task, task.runStats)) node ↔
      transitionedNode node .completed atTime none =
          transitionedNode node .completed atTime error ∧
        (task.runStats.isSome = true ∨ context.files.stats nodeId = none) := by
  cases stats : task.runStats with
  | some runStats =>
    simp only [Option.isSome_some, true_or, and_true]
    exact withResult_eq_iff rfl rfl
  | none =>
    cases stale : context.files.stats nodeId with
    | none =>
      have same : { persistedArtifact context.store record.runId nodeId task with
          stats := none } = persistedArtifact context.store record.runId nodeId task := by
        simp [persistedArtifact, stats]
      simp only [Option.map_none, same, or_true, and_true]
      exact withResult_eq_iff rfl rfl
    | some sidecar =>
      have noStats : (persistedArtifact context.store record.runId nodeId task).stats =
          none := by
        simp [persistedArtifact, stats]
      simp only [reduceCtorEq, or_false, Option.isSome_none, and_false, iff_false]
      intro same
      have artifacts := Option.some.inj (congrArg DagNode.resultArtifact same)
      have sidecars := congrArg DagNodeResultArtifact.stats artifacts
      rw [noStats] at sidecars
      cases sidecars

private theorem errorSurvives_iff :
    context.ErrorSurvives record nodeId target ↔
      ∀ node ∈ record.nodes, node.id = nodeId → transitionedNode node target atTime none =
          transitionedNode node target atTime (context.tables.pendingErrors nodeId) := by
  simp only [transitionedNode_error_iff]
  constructor
  · intro survives node member named lost isLost
    exact survives lost isLost node member named
  · intro survives lost isLost node member named
    exact survives node member named lost isLost

/-- Without a staged result only the error can be lost. -/
private theorem unstaged_iff (result : Option (DagNodeResultArtifact × Option TaskRunStats))
    (onlyCompleted : target ≠ .completed → result = none) :
    applyTransition record nodeId target atTime none result =
        applyTransition record nodeId target atTime (context.tables.pendingErrors nodeId) result ↔
      context.ErrorSurvives record nodeId target := by
  rw [applyTransition_eq_iff, errorSurvives_iff]
  refine forall₂_congr fun node _ => imp_congr_right fun _ => ?_
  cases result with
  | none => exact Iff.rfl
  | some found =>
    by_cases isCompleted : target = .completed
    · exact withResult_eq_iff rfl rfl
    · cases onlyCompleted isCompleted

/-- What the crash does to a transition with a staged result. -/
private theorem staged_iff (staged : context.tables.pendingTerminalResults nodeId = some task)
    (fault : context.failure nodeId = none) (terminal : target.isTerminal = true)
    (files : ResultFiles)
    (written : target = .completed → files =
      writeStatsSidecar (writeOutput context.files nodeId task) record.runId nodeId task) :
    applyTransition record nodeId target atTime none (if target = .completed then
          replayDagNodeResult context.laterStore files record.runId nodeId
        else none) =
        applyTransition record nodeId target atTime (context.tables.pendingErrors nodeId)
          (some (persistedArtifact context.store record.runId nodeId task, task.runStats)) ↔
      context.ErrorSurvives record nodeId target ∧
        context.ResultSurvives record nodeId target := by
  simp only [ResultSurvives, staged, terminal, fault, Option.some.injEq, forall_eq', true_and,
    forall_const]
  rw [applyTransition_eq_iff, errorSurvives_iff, ← forall₂_and]
  refine forall₂_congr fun node _ => ?_
  rw [← imp_and]
  refine imp_congr_right fun _ => ?_
  by_cases isCompleted : target = .completed
  · subst isCompleted
    rw [written rfl, replayDagNodeResult_written]
    exact completed_iff
  · rw [if_neg isCompleted, if_neg isCompleted]
    exact transitionedNode_result_iff terminal

variable {event : DagRunEvent}

section

variable (payload : event.payload = .nodeTransitioned nodeId source target reason)
include payload

/-- The live transition in the two cases of its staged result. -/
private theorem apply_transition :
    context.apply record event =
      applyNodeTransitioned context.store context.tables context.files context.clock
        record nodeId target event.atTime := by
  simp [apply, applyDagSchedulerEvent, payload]

private theorem replayed_transition (reduced : Bool) :
    context.replayed record event reduced =
      withCheckpointSeq (applyTransition record nodeId target event.atTime none
        (if target = .completed then
          replayDagNodeResult context.laterStore (context.crashFiles record event reduced)
            record.runId nodeId
        else none)) event.seq := by
  simp [replayed, replay, replayEvent, applyDagSchedulerEvent, payload,
    applyNodeTransitioned, SideTables.empty]

private theorem transition_iff (reduced : Bool) :
    context.replayed record event reduced = context.appended record event ↔
      context.ErrorSurvives record nodeId target ∧
        context.ResultSurvives record nodeId target := by
  have start : ∀ leftError leftResult rightError rightResult,
      (applyTransition record nodeId target event.atTime leftError leftResult).checkpointSeq =
        (applyTransition record nodeId target event.atTime rightError
          rightResult).checkpointSeq :=
    fun _ _ _ _ => rfl
  rw [replayed_transition payload, appended, apply_transition payload]
  by_cases staged : target.isTerminal = true ∧
      (context.tables.pendingTerminalResults nodeId).isSome = true
  · obtain ⟨terminal, isStaged⟩ := staged
    obtain ⟨task, taskEq⟩ := Option.isSome_iff_exists.mp isStaged
    cases fault : context.failure nodeId with
    | some failure =>
      have noSurvival : ¬ context.ResultSurvives record nodeId target := by
        intro survives
        have noFault := (survives task taskEq terminal).1
        rw [fault] at noFault
        cases noFault
      refine iff_of_false ?_ fun both => noSurvival both.2
      intro same
      have diagnostics := congrArg DagRunRecordV1.diagnostics same
      simp [applyNodeTransitioned, terminal, taskEq, persistDagNodeResult, store,
        fault, withCheckpointSeq, applyTransition, updateNodes] at diagnostics
    | none =>
      have live : applyNodeTransitioned context.store context.tables context.files
          context.clock record nodeId target event.atTime =
            (applyTransition record nodeId target event.atTime (context.tables.pendingErrors nodeId)
              (some (persistedArtifact context.store record.runId nodeId task, task.runStats)),
              writeStatsSidecar (writeOutput context.files nodeId task) record.runId
                nodeId task) := by
        simp [applyNodeTransitioned, terminal, taskEq, persistDagNodeResult, store, fault]
      have written : target = .completed →
          context.crashFiles record event reduced = writeStatsSidecar
            (writeOutput context.files nodeId task) record.runId nodeId task := by
        rintro rfl
        simp [crashFiles, prepared, payload, apply_transition payload, live]
      rw [live]
      exact (withCheckpointSeq_inj (start _ _ _ _)).trans
        (staged_iff taskEq fault terminal _ written)
  · have survives : context.ResultSurvives record nodeId target := by
      intro task taskEq terminal
      exact absurd ⟨terminal, by rw [taskEq]; rfl⟩ staged
    have live : applyNodeTransitioned context.store context.tables context.files
        context.clock record nodeId target event.atTime =
          (applyTransition record nodeId target event.atTime (context.tables.pendingErrors nodeId)
            (if target = .completed then
              replayDagNodeResult context.store context.files record.runId nodeId
            else none), context.files) := by
      have nothing : (if target.isTerminal = true then
          context.tables.pendingTerminalResults nodeId else none) = none := by
        by_cases terminal : target.isTerminal = true
        · rw [if_pos terminal]
          by_contra something
          exact staged ⟨terminal, Option.isSome_iff_ne_none.mpr something⟩
        · rw [if_neg terminal]
      simp only [applyNodeTransitioned, nothing]
    have files : context.crashFiles record event reduced = context.files := by
      simp [crashFiles, apply_transition payload, live]
    rw [live, files, and_iff_left survives]
    refine (withCheckpointSeq_inj (start _ _ _ _)).trans (unstaged_iff _ ?_)
    intro notCompleted
    rw [if_neg notCompleted]

end

/-- A crash between the log write and the checkpoint write of an append is
replayed to the record of the append that does not crash exactly under the
condition. -/
theorem replayed_eq_appended_iff (record : DagRunRecordV1) (event : DagRunEvent) (reduced : Bool) :
    context.replayed record event reduced = context.appended record event ↔
      context.CrashSafe record event := by
  unfold CrashSafe
  split
  · next nodeId source target reason payload => exact transition_iff payload reduced
  · next other =>
      refine iff_of_true ?_ trivial
      obtain ⟨runId, seq, atTime, lane, payload⟩ := event
      cases payload with
      | nodeTransitioned nodeId source target reason =>
        exact absurd rfl (other nodeId source target reason)
      | nodeSteered nodeId taskId delivery => cases delivery <;> rfl
      | _ => rfl

end CrashContext

/-- A scheduler inside `failNode` for the first node of a run. -/
def failingNodeContext : CrashContext where
  isAlive := fun _ => false
  sha256 := fun _ => ""
  stateDir := "/state"
  tables :=
    { pendingErrors := fun nodeId =>
        if nodeId = "a" then
          some ⟨.startFailed, "spawn failed", some "a", "2026-01-01T00:00:02.000Z"⟩
        else none
      pendingTerminalResults := fun _ => none }
  files := { output := fun _ => none, stats := fun _ => none }
  failure := fun _ => none
  clock := "2026-01-01T00:00:02.000Z"
  laterFailure := fun _ => none
  laterClock := "2026-01-01T00:01:00.000Z"

/-- The transition that `failNode` appends. -/
def failedEvent : DagRunEvent where
  runId := "dag_1"
  seq := 4
  atTime := "2026-01-01T00:00:02.000Z"
  lane := .boundary
  payload := .nodeTransitioned "a" .scheduled .failed .failed

/-- The error of a failed node is lost in the crash. -/
theorem replayed_ne_appended_failed :
    failingNodeContext.replayed chainStart.created failedEvent false ≠
      failingNodeContext.appended chainStart.created failedEvent := by
  intro same
  have errors := congrArg (fun record => record.nodes.map (·.error)) same
  revert errors
  decide +kernel

end OpenAgent.Dag
