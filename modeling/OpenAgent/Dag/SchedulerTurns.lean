import OpenAgent.Dag.SchedulerSpecs

/-!
# Whole turns

The admission pass, the settled batch, the return of the pass and the
settlement of a task, each with everything it can lead to.
-/

namespace OpenAgent.Dag

open Library
open RunJournal (Sound Moves SkipsOnly Quiescent outcomeState)

/-- The state in which a settlement leaves its node. -/
def Settlement.nodeState : Settlement → DagNodeState
  | .record task _ => outcomeState task.status
  | .error _ => .failed

theorem Settlement.nodeState_isTerminal (settlement : Settlement) :
    settlement.nodeState.isTerminal = true := by
  cases settlement with
  | record task terminal =>
    simp only [nodeState, outcomeState]
    split <;> rfl
  | error message => rfl

namespace SchedulerState

variable (env : SchedulerEnv) {rank : DagNodeId → Nat} {state next : SchedulerState}

/-- What an admission pass does, from the journal in which the frontier is
computed. -/
structure Admits (state next : SchedulerState) (between : RunJournal)
    (runnable : List DagNodeId) : Prop where
  moves : Moves env between next.journal
    (moveTo .scheduled runnable (stateOf between.durable))
  nodup : runnable.Nodup
  ready : ∀ id, id ∈ runnable ↔ Waiting between.durable id ∧
    id ∉ state.pendingAdmission ∧ DepsCompleted between.durable id
  phase : next.phase =
    if state.pendingAdmission = [] ∧ runnable = [] then .admitted
    else .starting (state.pendingAdmission ++ runnable)
  pendingAdmission : next.pendingAdmission = []
  traffic : next.traffic = state.traffic ++
    (state.pendingAdmission ++ runnable).map fun id => .startOwned id next.journal.durable
  attachedTaskIds : next.attachedTaskIds = state.attachedTaskIds
  attachedTasks : next.attachedTasks = state.attachedTasks
  cancellationStarted : next.cancellationStarted = state.cancellationStarted
  cancellation : next.cancellation = state.cancellation
  foreignSettlement : next.foreignSettlement = state.foreignSettlement

theorem admitFrontier_admits (sound : Sound rank state.journal)
    (running : state.cancellationStarted = false) :
    ∃ runnable, Admits env state (state.admitFrontier env) state.journal runnable := by
  obtain ⟨runnable, taken, nodup, ready⟩ := sound.runnableNodes_eq state.pendingAdmission
  refine ⟨runnable, ?_⟩
  unfold admitFrontier
  rw [if_neg (by simp [running]), taken]
  simp only
  by_cases nothing : state.pendingAdmission = [] ∧ runnable = []
  · obtain ⟨noneDenied, noneReady⟩ := nothing
    rw [if_pos (by simp [noneDenied, noneReady])]
    exact
      { moves := by
          rw [noneReady]
          exact sound.moves_refl env
        nodup := nodup
        ready := ready
        phase := by simp [noneDenied, noneReady]
        pendingAdmission := noneDenied
        traffic := by simp [noneDenied, noneReady]
        attachedTaskIds := rfl
        attachedTasks := rfl
        cancellationStarted := rfl
        cancellation := rfl
        foreignSettlement := rfl }
  · rw [if_neg (by simpa using nothing)]
    have scheduled : Moves env state.journal (scheduleNodes env state.journal runnable) _ :=
      sound.foldl_moves
        (fun journal id sound known => sound.transition_moves env known .scheduled .scheduled)
        (fun id member => by
          obtain ⟨⟨found, isFound, _⟩, _⟩ := (ready id).mp member
          simp [isFound])
    have reported := scheduled.trans ((scheduled.sound sound).emitWaveAdmissions_moves env runnable)
    rw [scheduled.states_eq] at reported
    unfold startBatch
    simp only [reported.thrown, Bool.false_eq_true, if_false]
    exact
      { moves := reported
        nodup := nodup
        ready := ready
        phase := by rw [if_neg nothing]
        pendingAdmission := rfl
        traffic := rfl
        attachedTaskIds := rfl
        attachedTasks := rfl
        cancellationStarted := rfl
        cancellation := rfl
        foreignSettlement := rfl }

theorem Admits.of_journal {journal : RunJournal}
    (admits : Admits env { state with journal := journal } next between runnable) :
    Admits env state next between runnable :=
  ⟨admits.moves, admits.nodup, admits.ready, admits.phase, admits.pendingAdmission,
    admits.traffic, admits.attachedTaskIds, admits.attachedTasks,
    admits.cancellationStarted, admits.cancellation, admits.foreignSettlement⟩

/-- A turn of the outer loop: the cascade at quiescence, then the pass. -/
theorem runFrontier_admits (sound : Sound rank state.journal)
    (running : state.cancellationStarted = false) :
    ∃ between runnable, SkipsOnly env state.journal between ∧
      (state.attachedTasks = [] → Quiescent between.durable) ∧
      Admits env state (state.runFrontier env) between runnable := by
  have still : SkipsOnly env state.journal state.journal :=
    ⟨sound.moves_refl env, fun _ => Or.inl rfl⟩
  obtain ⟨cascaded, skips, quiescent, sameTurn⟩ : ∃ cascaded, SkipsOnly env state.journal cascaded ∧
      (state.attachedTasks = [] → Quiescent cascaded.durable) ∧
      (if state.attachedTasks.isEmpty then
        state.onJournal (·.applyDependentSkipCascade env) else state) =
          { state with journal := cascaded } := by
    by_cases quiet : state.attachedTasks = []
    · obtain ⟨skips, quiescent⟩ := sound.applyDependentSkipCascade_spec env
      exact ⟨_, skips, fun _ => quiescent, by simp [quiet, onJournal]⟩
    · refine ⟨state.journal, still, fun empty => absurd empty quiet, ?_⟩
      rw [if_neg (by simpa using quiet)]
  have soundCascaded := skips.moves.sound sound
  have reported := soundCascaded.emitCompletedWaves_moves env
  have sameStates := reported.states_eq
  have sameDeps := depsOf_of_skeleton reported.evolves.skeleton_eq
  obtain ⟨runnable, admits⟩ := @admitFrontier_admits env rank
    { state with journal := cascaded.emitCompletedWaves env }
    (reported.sound soundCascaded) running
  refine ⟨cascaded.emitCompletedWaves env, runnable, ⟨?_, ?_⟩, ?_, ?_⟩
  · have whole := skips.moves.trans reported
    rwa [← sameStates] at whole
  · intro id
    rcases skips.each id with same | ⟨waiting, skipped, failed⟩
    · exact Or.inl ((congrFun sameStates id).trans same)
    · refine Or.inr ⟨waiting, (congrFun sameStates id).trans skipped, ?_⟩
      unfold FailedDependency
      rw [sameDeps, sameStates]
      exact failed
  · intro empty id waiting failed
    refine quiescent empty id ?_ ?_
    · rwa [Waiting, sameStates] at waiting
    · rwa [FailedDependency, sameDeps, sameStates] at failed
  · unfold runFrontier
    rw [if_neg (by simp [running])]
    simp only [sameTurn]
    rw [if_neg (by simp [skips.moves.thrown])]
    exact admits.of_journal

/-- How an admission pass ends once its batch is folded. -/
inductive BatchFinished (state : SchedulerState) (denied : List DagNodeId) :
    SchedulerState → Prop
  | cancelled (cancelling : state.cancellationStarted = true) :
      BatchFinished state denied { state with phase := .cancelling }
  | admitted (running : state.cancellationStarted = false) (noneDenied : denied = []) :
      BatchFinished state denied { state with phase := .admitted }
  | gaveUp (journal : RunJournal) (running : state.cancellationStarted = false)
      (someDenied : denied ≠ []) (noneAttached : state.attachedTasks = [])
      (moves : Moves env state.journal journal
        (moveTo .failed denied (stateOf state.journal.durable))) :
      BatchFinished state denied
        { state with journal := journal, pendingAdmission := [], phase := .admitted }
  | parked (running : state.cancellationStarted = false)
      (someDenied : denied ≠ []) (someAttached : state.attachedTasks ≠ []) :
      BatchFinished state denied
        { state with
          pendingAdmission := state.pendingAdmission ++ denied
          settlementChanged := false
          phase := .settling true }

theorem finishBatch_cases (sound : Sound rank state.journal)
    (noForeign : state.foreignSettlement = false)
    (known : ∀ id ∈ denied, (stateOf state.journal.durable id).isSome) :
    BatchFinished env state denied (state.finishBatch env denied) := by
  unfold finishBatch
  rw [if_neg (by simp [sound.thrown])]
  by_cases cancelling : state.cancellationStarted = true
  · rw [if_pos cancelling]
    exact .cancelled cancelling
  rw [if_neg cancelling]
  have running := Bool.eq_false_iff.mpr cancelling
  by_cases noneDenied : denied = []
  · rw [if_pos (by simp [noneDenied])]
    exact .admitted running noneDenied
  rw [if_neg (by simpa using noneDenied)]
  by_cases noneAttached : state.attachedTasks = []
  · rw [if_pos (by simp [noneAttached])]
    have moves : Moves env state.journal (failDenied env state.journal denied) _ :=
      sound.foldl_moves
        (fun journal id sound known => sound.failNode_moves env known .residencyDenied _) known
    unfold endTurn
    rw [if_neg (by simp [moves.thrown])]
    exact .gaveUp _ running noneDenied noneAttached moves
  · rw [if_neg (by simpa using noneAttached)]
    unfold settleOne
    rw [if_neg (by simp [noForeign])]
    exact .parked running noneDenied noneAttached

/-- How the outer loop goes on after an admission pass. -/
inductive AdmissionReturned (state : SchedulerState) : SchedulerState → Prop
  | finished (allTerminal : AllTerminal state.journal.durable) : AdmissionReturned state
        { state with journal := state.journal.finishRun env, phase := .finished }
  | threw (pending : ¬ AllTerminal state.journal.durable)
      (noneAttached : state.attachedTasks = []) :
      AdmissionReturned state { state with phase := .threw }
  | settling (pending : ¬ AllTerminal state.journal.durable)
      (someAttached : state.attachedTasks ≠ []) :
      AdmissionReturned state { state with settlementChanged := false, phase := .settling false }

theorem afterAdmission_cases (sound : Sound rank state.journal)
    (noForeign : state.foreignSettlement = false) :
    AdmissionReturned env state (state.afterAdmission env) := by
  have terminalIff : state.journal.cache.nodes.all (·.state.isTerminal) = true ↔
      AllTerminal state.journal.durable := by
    rw [sound.synced, AllTerminal, List.all_eq_true]
  unfold afterAdmission
  by_cases allTerminal : AllTerminal state.journal.durable
  · rw [if_pos (terminalIff.mpr allTerminal)]
    obtain ⟨_, _, _, ended, _⟩ := sound.finishRun_spec env
    unfold endTurn onJournal
    rw [if_neg (by simp [ended.thrown])]
    exact .finished allTerminal
  · rw [if_neg (fun all => allTerminal (terminalIff.mp all))]
    by_cases noneAttached : state.attachedTasks = []
    · rw [if_pos (by simp [noneAttached])]
      exact .threw allTerminal noneAttached
    · rw [if_neg (by simpa using noneAttached)]
      unfold settleOne
      rw [if_neg (by simp [noForeign])]
      exact .settling allTerminal noneAttached

/-- What folding a settlement does. -/
structure SettlementFolded (nodeId : DagNodeId) (settlement : Settlement)
    (state next : SchedulerState) : Prop where
  moves : Moves env state.journal next.journal
    (moveTo settlement.nodeState [nodeId] (stateOf state.journal.durable))
  attachedTasks : next.attachedTasks = state.attachedTasks.erase nodeId
  attachedTaskIds : next.attachedTaskIds = mapDelete state.attachedTaskIds nodeId
  traffic : next.traffic = state.traffic ++ [.settled nodeId settlement]
  pendingAdmission : next.pendingAdmission = state.pendingAdmission
  phase : next.phase = state.phase
  cancellationStarted : next.cancellationStarted = state.cancellationStarted
  cancellation : next.cancellation = state.cancellation
  foreignSettlement : next.foreignSettlement = state.foreignSettlement

theorem foldSettlement_folds (sound : Sound rank state.journal)
    (known : (stateOf state.journal.durable nodeId).isSome) (settlement : Settlement) :
    SettlementFolded env nodeId settlement state (state.foldSettlement env nodeId settlement) := by
  cases settlement with
  | error message =>
    exact ⟨sound.failNode_moves env known _ _, rfl, rfl, rfl, rfl, rfl, rfl, rfl, rfl⟩
  | record task terminal =>
    exact ⟨sound.foldTaskOutcome_moves env known terminal, rfl, rfl, rfl, rfl, rfl, rfl,
      rfl, rfl⟩

end SchedulerState

end OpenAgent.Dag
