import OpenAgent.Dag.NeverStuck

/-!
# Cancellation

What a cancellation guarantees wherever it lands in an orderly run: one
closing event, terminal nodes that stay as they are, a journal that is closed
behind `dag.run.cancelled`, and no started task left alone.
-/

namespace OpenAgent.Dag

open Library
open RunJournal (Sound Moves Evolves SkipsOnly Quiescent)

namespace SchedulerState

variable {state next : SchedulerState}

theorem kept_of_moveTo {journal later : RunJournal}
    (statesEq : stateOf later.durable = moveTo target nodeIds (stateOf journal.durable))
    {id : DagNodeId} (outside : id ∉ nodeIds) :
    stateOf later.durable id = stateOf journal.durable id := by
  rw [statesEq, moveTo, if_neg outside]

/-- No step moves a terminal node. -/
theorem Invariant.terminal_kept (invariant : Invariant rank state)
    (ownStep : OwnStep env rank state action next) {id : DagNodeId}
    (isFound : stateOf state.journal.durable id = some found) (terminal : found.isTerminal = true) :
    stateOf next.journal.durable id = some found := by
  have notActive := not_active_of_terminal isFound terminal
  have notWaiting : ∀ {record}, stateOf record id = some found → ¬ Waiting record id := by
    rintro record isFound ⟨other, isOther, isWaiting⟩
    rw [isFound] at isOther
    cases isOther
    rw [DagNodeState.not_waiting_of_terminal terminal] at isWaiting
    cases isWaiting
  cases ownStep with
  | passed _ journal watches phase began passes => exact (congrFun began.states_eq id).trans isFound
  | admits _ begun between runnable _ running before began skips quiescent pass =>
    have begunFound := (congrFun began.states_eq id).trans isFound
    have betweenFound : stateOf between.durable id = some found := by
      rcases skips.each id with same | ⟨waiting, _⟩
      · exact same.trans begunFound
      · exact absurd waiting (notWaiting begunFound)
    refine (kept_of_moveTo pass.moves.states_eq ?_).trans betweenFound
    intro ready
    exact notWaiting betweenFound ((pass.ready id).mp ready).1
  | answered batch answers folded _ denied before length folds finishes =>
    have parked := invariant.parked
    simp only [ParkedAsPhase, before] at parked
    have notDone : state.cancellation ≠ .done := by
      intro done
      simp [done, CancelPhase.isEarly] at parked
    have notInBatch : id ∉ batch := by
      intro inside
      apply notActive
      apply invariant.heldActive notDone
      simp [holders, before, RunPhase.batch, inside]
    have ids : (batch.zip answers).map (·.1) = batch := List.map_fst_zip (by omega)
    have foldedFound : stateOf folded.journal.durable id = some found :=
      (folds.others id (by rwa [ids])).trans isFound
    cases finishes with
    | gaveUp journal running someDenied noneAttached moves =>
      refine (kept_of_moveTo moves.states_eq ?_).trans foldedFound
      intro isDenied
      have deniedEq : denied = _ := folds.denied_eq
      rw [deniedEq] at isDenied
      exact notInBatch (ids ▸ (deniedNodes_sublist _ _).subset isDenied)
    | _ => exact foldedFound
  | returns _ before returned =>
    cases returned with
    | finished =>
      obtain ⟨_, _, _, _, statesEq, _⟩ := invariant.sound.finishRun_spec env
      exact (congrFun statesEq id).trans isFound
    | _ => exact isFound
  | settles nodeId settlement inAdmission folded before running attached folds =>
    refine (kept_of_moveTo folds.moves.states_eq ?_).trans isFound
    rw [List.mem_singleton]
    rintro rfl
    apply notActive
    exact invariant.heldActive (invariant.notDone running) id (by simp [holders, attached])
  | promotes nodeId journal watches running queued moves =>
    refine (kept_of_moveTo moves.states_eq ?_).trans isFound
    rw [List.mem_singleton]
    rintro rfl
    rw [queued] at isFound
    cases isFound
    cases terminal
  | cancels | cancelsTasks => exact isFound
  | cancelsRest reason before =>
    obtain ⟨_, _, _, _, _, statesEq, members⟩ :=
      invariant.sound.finishCancellation_spec env reason
    refine (kept_of_moveTo statesEq ?_).trans isFound
    intro cancelled
    obtain ⟨other, isOther, active⟩ := (members id).mp cancelled
    rw [isFound] at isOther
    cases isOther
    rw [terminal] at active
    cases active

/-- Behind a finished cancellation the journal is closed. -/
theorem Orderly.closed_step (orderly : Orderly state) (invariant : Invariant rank state)
    (done : state.cancellation = .done) (ownStep : OwnStep env rank state action next) :
    next.journal = state.journal ∧ next.cancellation = .done := by
  have closed := (orderly.ended (Or.inr done)).closed
  have cancelling : state.cancellationStarted = true := invariant.flagged.mpr (by simp [done])
  cases ownStep with
  | passed _ journal watches phase began passes => exact ⟨began.closed closed, done⟩
  | admits _ begun between runnable _ running
  | settles nodeId settlement inAdmission folded before running
  | promotes nodeId journal watches running =>
    rw [cancelling] at running
    cases running
  | answered batch answers folded _ denied before =>
    have parked := invariant.parked
    simp [ParkedAsPhase, before, done, CancelPhase.isEarly] at parked
  | returns _ before =>
    have early := orderly.early before
    rw [done] at early
    cases early
  | cancels runId reason running =>
    rw [done] at running
    cases running
  | cancelsTasks reason before | cancelsRest reason before =>
    rw [done] at before
    cases before

/-- A task that `startOwned` reported as started is settled, attached or
cancelled. -/
def TasksKept (state : SchedulerState) : Prop :=
  ∀ nodeId task, .answered nodeId (.fulfilled (.started task)) ∈ state.traffic →
    (∃ settlement, .settled nodeId settlement ∈ state.traffic) ∨
      if state.cancellation.isEarly then (nodeId, task.taskId) ∈ state.attachedTaskIds
      else ∃ reason, .cancelTask task.taskId reason ∈ state.traffic

/-- Growing traffic and attachments keep it. -/
theorem TasksKept.grow (kept : state.TasksKept) (traffic : next.traffic = state.traffic ++ later)
    (noAnswer : ∀ nodeId task, .answered nodeId (.fulfilled (.started task)) ∈ later →
      next.cancellation.isEarly = true ∧ (nodeId, task.taskId) ∈ next.attachedTaskIds)
    (sameStage : next.cancellation.isEarly = state.cancellation.isEarly)
    (attached : ∀ entry ∈ state.attachedTaskIds, entry ∈ next.attachedTaskIds) :
    next.TasksKept := by
  intro nodeId task answered
  rw [traffic, List.mem_append] at answered
  rcases answered with old | fresh
  · rw [traffic, sameStage]
    rcases kept nodeId task old with ⟨settlement, settled⟩ | rest
    · exact Or.inl ⟨settlement, List.mem_append_left _ settled⟩
    · right
      split at rest
      · rename_i early
        rw [if_pos early]
        exact attached _ rest
      · rename_i late
        rw [if_neg late]
        obtain ⟨reason, cancelled⟩ := rest
        exact ⟨reason, List.mem_append_left _ cancelled⟩
  · obtain ⟨early, inMap⟩ := noAnswer nodeId task fresh
    right
    rw [if_pos early]
    exact inMap

theorem TasksKept.step (kept : state.TasksKept) (invariant : Invariant rank state)
    (ownStep : OwnStep env rank state action next) : next.TasksKept := by
  have quiet : ∀ {next : SchedulerState}, next.traffic = state.traffic →
      next.cancellation = state.cancellation →
      next.attachedTaskIds = state.attachedTaskIds → next.TasksKept := by
    intro next traffic cancellation attached
    exact kept.grow (by rw [traffic, List.append_nil]) (by simp) (by rw [cancellation])
      (by simp [attached])
  cases ownStep with
  | passed => exact quiet rfl rfl rfl
  | admits _ begun between runnable _ running before began skips quiescent pass =>
    refine kept.grow pass.traffic ?_ (by rw [pass.cancellation]) (by
      simp [pass.attachedTaskIds])
    intro nodeId task listed
    simp at listed
  | answered batch answers folded _ denied before length folds finishes =>
    have parked := invariant.parked
    simp only [ParkedAsPhase, before] at parked
    have early : folded.cancellation.isEarly = true := by
      rw [folds.control.cancellation]
      exact parked.2.2
    have foldedKept : folded.TasksKept := by
      refine kept.grow folds.control.traffic ?_ ?_ ?_
      · intro nodeId task listed
        refine ⟨early, ?_⟩
        simp only [List.mem_map] at listed
        obtain ⟨⟨found, answer⟩, inside, rfl, rfl⟩ := listed
        rw [folds.attachedTaskIds]
        exact List.mem_append_right _ (mem_attachments.mpr ⟨_, inside, rfl⟩)
      · rw [folds.control.cancellation]
      · intro entry member
        rw [folds.attachedTaskIds]
        exact List.mem_append_left _ member
    cases finishes <;> exact foldedKept
  | returns _ before returned => cases returned <;> exact quiet rfl rfl rfl
  | settles nodeId settlement inAdmission folded before running attached folds =>
    intro other task answered
    have none := invariant.none_of_running running
    simp only [folds.traffic, List.mem_append, List.mem_singleton] at answered ⊢
    rcases answered with old | impossible
    · rcases kept other task old with ⟨earlier, settled⟩ | rest
      · exact Or.inl ⟨earlier, Or.inl settled⟩
      · have inMap : (other, task.taskId) ∈ state.attachedTaskIds := by
          simpa [none, CancelPhase.isEarly] using rest
        by_cases same : other = nodeId
        · exact Or.inl ⟨settlement, Or.inr (by rw [same])⟩
        · right
          rw [if_pos (by simp [folds.cancellation, none, CancelPhase.isEarly]),
            folds.attachedTaskIds]
          exact List.mem_filter.mpr ⟨inMap, by simpa using same⟩
    · cases impossible
  | promotes => exact quiet rfl rfl rfl
  | cancels runId reason running openRun =>
    refine kept.grow (List.append_nil _).symm (by simp) ?_ (fun _ => id)
    rw [running]
    rfl
  | cancelsTasks reason before notStarting notAdmitted =>
    intro nodeId task answered
    simp only [cancelTasks, List.mem_append, List.mem_map] at answered ⊢
    rcases answered with old | ⟨_, _, impossible⟩
    · rcases kept nodeId task old with ⟨settlement, settled⟩ | rest
      · exact Or.inl ⟨settlement, Or.inl settled⟩
      · have inMap : (nodeId, task.taskId) ∈ state.attachedTaskIds := by
          simpa [before, CancelPhase.isEarly] using rest
        right
        exact ⟨reason, Or.inr ⟨_, inMap, rfl⟩⟩
    · cases impossible
  | cancelsRest reason before =>
    intro nodeId task answered
    rcases kept nodeId task answered with settled | rest
    · exact Or.inl settled
    · right
      rw [before] at rest
      exact rest

/-- The run was cancelled. -/
def Cancelled (state : SchedulerState) : Prop :=
  ∃ reason counts ids, .runCancelled reason counts ids ∈ state.journal.endings

/-- What a run with a cancellation in it guarantees, between a state and any
later one. -/
structure CancellationSafe (earlier state : SchedulerState) : Prop where
  notThrown : state.phase ≠ .threw
  atMostOnce : state.journal.endings.length ≤ 1
  exactlyOnce : state.phase = .finished → state.journal.endings.length = 1
  allTerminal : state.Cancelled → AllTerminal state.journal.durable
  closed : earlier.Cancelled → state.journal.log = earlier.journal.log
  terminalKept : ∀ id found, stateOf earlier.journal.durable id = some found →
    found.isTerminal = true → stateOf state.journal.durable id = some found
  tasksCancelled : state.cancellation.isEarly = false → ∀ nodeId task,
    .answered nodeId (.fulfilled (.started task)) ∈ state.traffic →
      (∃ settlement, .settled nodeId settlement ∈ state.traffic) ∨
        ∃ reason, .cancelTask task.taskId reason ∈ state.traffic

/-- A cancelled run is one whose cancellation is done. -/
theorem Orderly.done_of_cancelled (orderly : Orderly state) (cancelled : state.Cancelled) :
    state.cancellation = .done := by
  obtain ⟨reason, counts, ids, member⟩ := cancelled
  have ended : state.Ended := by
    by_contra notEnded
    rw [(orderly.openRun notEnded).1] at member
    cases member
  rcases ended with ⟨finished, running⟩ | done
  · obtain ⟨payload, once, settles, _⟩ := (orderly.ended (Or.inl ⟨finished, running⟩)).once
    rw [once, List.mem_singleton] at member
    have settled := settles running
    rw [← member] at settled
    cases settled
  · exact done

/-- What holds in every state of an orderly run. -/
structure OrderlyRun (rank : DagNodeId → Nat) (state : SchedulerState) : Prop where
  invariant : state.Invariant rank
  orderly : state.Orderly
  tasksKept : state.TasksKept

theorem OrderlyRun.step (run : OrderlyRun rank state) (meets : OrderlyStep state action)
    (taken : schedulerStep env state action = some next) : OrderlyRun rank next := by
  have ownStep := run.invariant.ownStep meets.own taken
  exact
    { invariant := run.invariant.step ownStep
      orderly := run.orderly.step run.invariant meets ownStep
      tasksKept := run.tasksKept.step run.invariant ownStep }

/-- What an earlier state of an orderly run settles for the later ones. -/
structure SettledBy (earlier state : SchedulerState) : Prop where
  closed : earlier.Cancelled → state.cancellation = .done ∧ state.journal = earlier.journal
  terminalKept : ∀ id found, stateOf earlier.journal.durable id = some found →
    found.isTerminal = true → stateOf state.journal.durable id = some found

theorem OrderlyRun.settledBy_self (run : OrderlyRun rank state) : SettledBy state state where
  closed := fun cancelled => ⟨run.orderly.done_of_cancelled cancelled, rfl⟩
  terminalKept := fun _ _ isFound _ => isFound

theorem SettledBy.step (settled : SettledBy earlier state) (run : OrderlyRun rank state)
    (meets : OrderlyStep state action) (taken : schedulerStep env state action = some next) :
    SettledBy earlier next := by
  have ownStep := run.invariant.ownStep meets.own taken
  refine ⟨?_, ?_⟩
  · intro cancelled
    obtain ⟨done, sameJournal⟩ := settled.closed cancelled
    obtain ⟨journal, stillDone⟩ := run.orderly.closed_step run.invariant done ownStep
    exact ⟨stillDone, journal.trans sameJournal⟩
  · intro id found isFound terminal
    have isKept := settled.terminalKept id found isFound terminal
    exact run.invariant.terminal_kept ownStep isKept terminal

end SchedulerState

/-- In every orderly run, cancellation is safe between any two states of the
run. -/
theorem cancellationSafe_of_orderly {start : DagStart} (accepted : start.Accepted)
    {files : ResultFiles} {env : SchedulerEnv} {before after : List SchedulerAction}
    {middle final : SchedulerState}
    (reachedMiddle : execute (schedulerStep env) (start.scheduler files) before = some middle)
    (reachedFinal : execute (schedulerStep env) middle after = some final)
    (orderlyBefore : EveryStep (schedulerStep env)
      (fun state action _ => OrderlyStep state action) (start.scheduler files) before)
    (orderlyAfter : EveryStep (schedulerStep env)
      (fun state action _ => OrderlyStep state action) middle after) :
    SchedulerState.CancellationSafe middle final := by
  obtain ⟨rank, initially⟩ := start.invariant accepted files
  have preserved : ∀ state action next, state.OrderlyRun rank → OrderlyStep state action →
        schedulerStep env state action = some next → next.OrderlyRun rank :=
    fun _ _ _ run meets taken => run.step meets taken
  have atMiddle := invariant_of_execute preserved
    ⟨initially, start.orderly files, fun _ _ none => absurd none List.not_mem_nil⟩
    reachedMiddle orderlyBefore
  have carried : ∀ state action next,
      state.OrderlyRun rank ∧ SchedulerState.SettledBy middle state →
        OrderlyStep state action → schedulerStep env state action = some next →
          next.OrderlyRun rank ∧ SchedulerState.SettledBy middle next := by
    rintro state action next ⟨run, settled⟩ meets taken
    exact ⟨preserved _ _ _ run meets taken, settled.step run meets taken⟩
  obtain ⟨⟨invariant, orderly, kept⟩, closed, terminalKept⟩ := invariant_of_execute carried
    ⟨atMiddle, atMiddle.settledBy_self⟩ reachedFinal orderlyAfter
  refine ⟨orderly.notThrown, ?_, ?_, ?_, ?_, terminalKept, ?_⟩
  · by_cases ended : final.Ended
    · obtain ⟨payload, once, _⟩ := (orderly.ended ended).once
      simp [once]
    · simp [(orderly.openRun ended).1]
  · intro finished
    have ended : final.Ended := by
      cases running : final.cancellationStarted with
      | false => exact Or.inl ⟨finished, running⟩
      | true => exact Or.inr (orderly.awaited finished running)
    obtain ⟨payload, once, _⟩ := (orderly.ended ended).once
    simp [once]
  · intro cancelled
    exact (orderly.ended (Or.inr (orderly.done_of_cancelled cancelled))).allTerminal
  · intro cancelled
    rw [(closed cancelled).2]
  · intro late nodeId task answered
    have cases := kept nodeId task answered
    rwa [if_neg (by simp [late])] at cases

/-- A cancellation that arrives while the first task is starting. -/
theorem cancellationSafe_chain :
    ∃ middle final, execute (schedulerStep sampleEnv) (chainStart.scheduler noFiles)
        [.run, .cancel "dag_1" none] = some middle ∧
      execute (schedulerStep sampleEnv) middle
        [.batchAnswered [runningTask "task_a"], .admissionIdle, .tasksCancelled,
          .cancelledReturned] = some final ∧
      final.phase = .finished ∧ final.traffic.getLast? = some (.cancelTask "task_a" none) ∧
      SchedulerState.CancellationSafe middle final := by
  have whole : (execute (schedulerStep sampleEnv) (chainStart.scheduler noFiles)
      ([.run, .cancel "dag_1" none] ++ [.batchAnswered [runningTask "task_a"],
        .admissionIdle, .tasksCancelled, .cancelledReturned])).map
          (fun state => (state.phase, state.traffic.getLast?)) =
        some (.finished, some (.cancelTask "task_a" none)) := by decide +kernel
  obtain ⟨final, reached, view⟩ := Option.map_eq_some_iff.mp whole
  obtain ⟨middle, reachedMiddle, reachedFinal⟩ := execute_append_eq_some.mp reached
  injection view with finished cancelledTask
  refine ⟨middle, final, reachedMiddle, reachedFinal, finished, cancelledTask,
    cancellationSafe_of_orderly (by decide +kernel) reachedMiddle reachedFinal ?_ ?_⟩
  · intro started taken
    have phase : (schedulerStep sampleEnv (chainStart.scheduler noFiles) .run).map
        (·.phase) = some (.starting ["a"]) := by decide +kernel
    rw [taken] at phase
    have isStarting : started.phase = .starting ["a"] := Option.some.inj phase
    refine ⟨trivial, fun _ _ => ⟨?_, trivial⟩⟩
    rintro ⟨admitted, _⟩
    rw [isStarting] at admitted
    cases admitted
  · apply everyStep_of_forall
    intro action member state _
    simp only [List.mem_cons, List.not_mem_nil, or_false] at member
    rcases member with rfl | rfl | rfl | rfl
    · exact Or.inr ((goesOn_running state "task_a").2 _ rfl)
    · trivial
    · trivial
    · trivial

/-- The only node fails to start and the cancellation arrives before the loop
has looked at its record: the run fails and is then cancelled as well. -/
theorem not_cancellationSafe_late :
    ∃ final, execute (schedulerStep sampleEnv) ((sampleStart [sampleNode "a" []]).scheduler noFiles)
        [.run, .batchAnswered [.fulfilled (.startFailed "spawn failed")],
          .cancel "dag_1" none, .admissionReturned, .admissionIdle, .tasksCancelled] =
          some final ∧
      final.journal.endings.length = 2 ∧
      ∀ earlier, ¬ SchedulerState.CancellationSafe earlier final := by
  obtain ⟨final, reached, two⟩ : ∃ final, execute (schedulerStep sampleEnv)
        ((sampleStart [sampleNode "a" []]).scheduler noFiles)
        [.run, .batchAnswered [.fulfilled (.startFailed "spawn failed")],
          .cancel "dag_1" none, .admissionReturned, .admissionIdle, .tasksCancelled] =
          some final ∧ final.journal.endings.length = 2 := by
    decide +kernel
  refine ⟨final, reached, two, fun earlier safe => ?_⟩
  have atMostOnce := safe.atMostOnce
  omega

end OpenAgent.Dag
