import OpenAgent.Dag.OrderlyRuns

/-!
# A run is never stuck

Without cancellation and control verbs, a run reaches its end with every node
settled and one closing event, unless a batch attaches nothing while nothing
is attached and nodes are still waiting: the skip cascade runs at the head of
the outer loop only, so such a batch is followed by the exception of
`runFrontier`.
-/

namespace OpenAgent.Dag

open Library

/-- The steps without cancellation and without control verbs. -/
def SchedulerAction.isUndisturbed : SchedulerAction → Bool
  | .cancel _ _ | .foreignCommit _ | .foreignEvent _ => false
  | _ => true

theorem own_of_isUndisturbed {action : SchedulerAction}
    (undisturbed : action.isUndisturbed = true) : action.isForeign = false := by
  cases action with
  | foreignCommit | foreignEvent => cases undisturbed
  | _ => rfl

/-- What a run owes its caller: no exception, something to wait for at every
suspension, and at its end settled nodes with one closing event. -/
structure SchedulerState.NeverStuck (state : SchedulerState) : Prop where
  notThrown : state.phase ≠ .threw
  waitsForTask : ∀ inAdmission, state.phase = .settling inAdmission → state.attachedTasks ≠ []
  waitsForStart : ∀ batch, state.phase = .starting batch → batch ≠ []
  notClosed : state.phase ≠ .finished → state.journal.endings = []
  closedOnce : state.phase = .finished → AllTerminal state.journal.durable ∧
    ∃ payload, state.journal.endings = [payload] ∧ payload.settlesRun = true

/-- An undisturbed step whose batch, if it answers one, goes on. -/
def GoesOnStep (state : SchedulerState) (action : SchedulerAction) : Prop :=
  action.isUndisturbed = true ∧
    ∀ answers, action = .batchAnswered answers → state.BatchGoesOn answers

theorem orderlyStep_of_goesOn (goesOn : GoesOnStep state action) : OrderlyStep state action := by
  obtain ⟨undisturbed, batch⟩ := goesOn
  cases action with
  | batchAnswered answers => exact Or.inr (batch answers rfl)
  | _ => trivial

/-- Cancellation starts only when it is asked for. -/
theorem cancellation_none_step (undisturbed : action.isUndisturbed = true)
    (none : state.cancellation = .none)
    (ownStep : SchedulerState.OwnStep env rank state action next) : next.cancellation = .none := by
  cases ownStep with
  | passed => exact none
  | admits _ begun between runnable _ running before began skips quiescent pass =>
    exact pass.cancellation.trans none
  | answered batch answers folded _ denied before length folds finishes =>
    have folded : folded.cancellation = .none := folds.control.cancellation.trans none
    cases finishes <;> exact folded
  | returns _ before returned => cases returned <;> exact none
  | settles nodeId settlement inAdmission folded before running attached folds =>
    exact folds.cancellation.trans none
  | promotes => exact none
  | cancels => cases undisturbed
  | cancelsTasks reason before | cancelsRest reason before =>
    rw [none] at before
    cases before

/-- In every undisturbed run whose batches go on, no state is stuck. -/
theorem neverStuck_of_goesOn {start : DagStart} (accepted : start.Accepted) {files : ResultFiles}
    {env : SchedulerEnv} {actions : List SchedulerAction} {final : SchedulerState}
    (reached : execute (schedulerStep env) (start.scheduler files) actions = some final)
    (everyStep : EveryStep (schedulerStep env)
      (fun state action _ => GoesOnStep state action) (start.scheduler files) actions) :
    final.NeverStuck := by
  obtain ⟨rank, initially⟩ := start.invariant accepted files
  have preserved : ∀ state action next,
      state.Invariant rank ∧ state.Orderly ∧ state.cancellation = .none →
        GoesOnStep state action → schedulerStep env state action = some next →
          next.Invariant rank ∧ next.Orderly ∧ next.cancellation = .none := by
    rintro state action next ⟨invariant, orderly, none⟩ goesOn taken
    have ownStep := invariant.ownStep (own_of_isUndisturbed goesOn.1) taken
    exact ⟨invariant.step ownStep, orderly.step invariant (orderlyStep_of_goesOn goesOn) ownStep,
      cancellation_none_step goesOn.1 none ownStep⟩
  obtain ⟨invariant, orderly, none⟩ := invariant_of_execute preserved
    ⟨initially, start.orderly files, rfl⟩ reached everyStep
  have running : final.cancellationStarted = false := by
    by_contra started
    exact invariant.flagged.mp (Bool.not_eq_false _ ▸ started) none
  have parked := invariant.parked
  refine ⟨orderly.notThrown, ?_, ?_, ?_, ?_⟩
  · intro inAdmission phase
    simp only [SchedulerState.ParkedAsPhase, phase] at parked
    cases inAdmission <;> exact parked.2
  · intro batch phase
    simp only [SchedulerState.ParkedAsPhase, phase] at parked
    exact parked.2.1
  · intro notFinished
    exact (orderly.openRun (SchedulerState.not_ended_of_running none notFinished)).1
  · intro finished
    have well := orderly.ended (Or.inl ⟨finished, running⟩)
    obtain ⟨payload, once, settles, _⟩ := well.once
    exact ⟨well.allTerminal, payload, once, settles running⟩

/-- An environment with a constant clock and a working file system. -/
def sampleEnv : SchedulerEnv where
  isAlive := fun _ => false
  store := fun _ => { sha256 := id, stateDir := "state", failure := fun _ => none }
  eventTime := fun _ => "2026-01-01T00:00:02.000Z"
  errorTime := fun _ => "2026-01-01T00:00:02.000Z"
  copyTime := fun _ => "2026-01-01T00:00:02.000Z"

/-- No result files. -/
def noFiles : ResultFiles where
  output := fun _ => none
  stats := fun _ => none

/-- A task that starts at once. -/
def runningTask (taskId : String) : StartAnswer :=
  .fulfilled (.started
    { taskId := taskId
      status := .running
      reused := false
      queuePosition := none
      runningAtArm := false })

/-- A completed task. -/
def completedTask (taskId : String) : Settlement :=
  .record
    { taskId := taskId
      status := .completed
      finalResponse := some "done"
      errorMessage := none
      runStats := none
      startedAt := none } rfl

/-- A whole run of two nodes in a row. -/
def chainRun : List SchedulerAction :=
  [.run, .batchAnswered [runningTask "task_a"], .admissionReturned,
    .taskSettled "a" (completedTask "task_a"), .settleReturned,
    .batchAnswered [runningTask "task_b"], .admissionReturned,
    .taskSettled "b" (completedTask "task_b"), .settleReturned, .admissionReturned]

theorem goesOn_running (state : SchedulerState) (taskId : String) :
    GoesOnStep state (.batchAnswered [runningTask taskId]) := by
  refine ⟨rfl, ?_⟩
  intro answers equal
  cases equal
  exact Or.inl ⟨runningTask taskId, List.mem_singleton_self _, rfl⟩

/-- Two nodes in a row run to the end. -/
theorem neverStuck_chain :
    ∃ final, execute (schedulerStep sampleEnv) (chainStart.scheduler noFiles) chainRun =
        some final ∧
      final.phase = .finished ∧ final.NeverStuck := by
  obtain ⟨final, reached, finished⟩ :
      ∃ final, execute (schedulerStep sampleEnv) (chainStart.scheduler noFiles) chainRun =
        some final ∧ final.phase = .finished := by
    decide +kernel
  refine ⟨final, reached, finished, neverStuck_of_goesOn (by decide +kernel) reached ?_⟩
  apply everyStep_of_forall
  intro action member state _
  simp only [chainRun, List.mem_cons, List.not_mem_nil, or_false] at member
  rcases member with rfl | rfl | rfl | rfl | rfl | rfl | rfl | rfl | rfl | rfl <;>
    first
    | exact goesOn_running state _
    | exact ⟨rfl, by simp⟩

/-- The first node fails to start, and the run throws although its second node
is waiting. -/
theorem not_neverStuck_startFailed :
    chainStart.Accepted ∧
      ∃ final, execute (schedulerStep sampleEnv) (chainStart.scheduler noFiles)
          [.run, .batchAnswered [.fulfilled (.startFailed "spawn failed")],
            .admissionReturned] = some final ∧
        ¬ final.NeverStuck := by
  obtain ⟨final, reached, threw⟩ :
      ∃ final, execute (schedulerStep sampleEnv) (chainStart.scheduler noFiles)
        [.run, .batchAnswered [.fulfilled (.startFailed "spawn failed")],
          .admissionReturned] = some final ∧ final.phase = .threw := by
    decide +kernel
  exact ⟨by decide +kernel, final, reached, fun good => good.notThrown threw⟩

/-- As long as a scheduler is alone on its run, no node is held twice, and until the run is
cancelled the nodes that are held are the active ones. -/
theorem holders_of_execute {start : DagStart} (accepted : start.Accepted) {files : ResultFiles}
    {env : SchedulerEnv} {actions : List SchedulerAction} {final : SchedulerState}
    (reached : execute (schedulerStep env) (start.scheduler files) actions = some final)
    (own : ∀ action ∈ actions, action.isForeign = false) :
    (final.cancellation ≠ .done → final.holders.Nodup) ∧
      (final.cancellationStarted = false →
        ∀ id, id ∈ final.holders ↔ Active final.journal.durable id) := by
  obtain ⟨rank, initially⟩ := start.invariant accepted files
  have everyStep : EveryStep (schedulerStep env) (fun _ action _ => action.isForeign = false)
      (start.scheduler files) actions :=
    everyStep_of_forall fun action member _ _ => own action member
  have invariant := invariant_of_execute
    (fun _ _ _ before isOwn taken => before.step (before.ownStep isOwn taken)) initially reached
    everyStep
  refine ⟨invariant.nodup, fun running id => ⟨?_, invariant.activeHeld running id⟩⟩
  exact invariant.heldActive (invariant.notDone running) id

theorem holders_of_execute_started :
    ∃ final, execute (schedulerStep sampleEnv) (chainStart.scheduler noFiles)
        [.run, .batchAnswered [runningTask "task_a"]] = some final ∧
      ∀ id, id ∈ final.holders ↔ Active final.journal.durable id := by
  obtain ⟨final, reached, running⟩ :
      ∃ final, execute (schedulerStep sampleEnv) (chainStart.scheduler noFiles)
        [.run, .batchAnswered [runningTask "task_a"]] = some final ∧
          final.cancellationStarted = false := by
    decide +kernel
  exact ⟨final, reached, (holders_of_execute (by decide +kernel) reached (by decide)).2 running⟩

end OpenAgent.Dag
