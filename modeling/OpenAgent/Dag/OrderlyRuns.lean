import OpenAgent.Dag.SchedulerInvariant

/-!
# Orderly runs

Two steps can derail a scheduler that is alone on its run.  A batch that
attaches nothing while nothing is attached leaves waiting nodes behind a pass
that has returned, and a cancellation can arrive between the last admission
pass and the test that ends the loop.  Without them a run ends exactly once.
-/

namespace OpenAgent.Dag

open Library
open RunJournal (Sound Moves Evolves SkipsOnly Quiescent)

/-- The answers attach a task, a task is attached already, or no node is
waiting. -/
def SchedulerState.BatchGoesOn (state : SchedulerState) (answers : List StartAnswer) : Prop :=
  (∃ answer ∈ answers, (answer.attachedTask false).isSome) ∨ state.attachedTasks ≠ [] ∨
    ∀ id, ¬ Waiting state.journal.durable id

/-- The steps of orderly runs. -/
def OrderlyStep (state : SchedulerState) : SchedulerAction → Prop
  | .batchAnswered answers =>
    state.cancellationStarted = true ∨ state.BatchGoesOn answers
  | .cancel _ _ => ¬ (state.phase = .admitted ∧ AllTerminal state.journal.durable)
  | .foreignCommit _ | .foreignEvent _ => False
  | _ => True

theorem OrderlyStep.own (meets : OrderlyStep state action) : action.isForeign = false := by
  cases action with
  | foreignCommit | foreignEvent => exact absurd meets id
  | _ => rfl

namespace SchedulerState

section

variable (state : SchedulerState)

/-- The run is over. -/
def Ended : Prop :=
  (state.phase = .finished ∧ state.cancellationStarted = false) ∨ state.cancellation = .done

/-- How an ended run has ended. -/
structure EndedWell : Prop where
  allTerminal : AllTerminal state.journal.durable
  closed : state.journal.durable.status.isTerminal = true
  once : ∃ payload, state.journal.endings = [payload] ∧
    (state.cancellationStarted = false → payload.settlesRun = true) ∧
    (state.cancellationStarted = true → ∃ reason counts ids,
      payload = .runCancelled reason counts ids)

/-- What holds in every state of an orderly run. -/
structure Orderly : Prop where
  notThrown : state.phase ≠ .threw
  calm : state.phase = .admitted → state.attachedTasks = [] → AllTerminal state.journal.durable
  timely : state.cancellationStarted = true → state.phase = .admitted →
    ¬ AllTerminal state.journal.durable
  early : state.phase = .admitted → state.cancellation.isEarly = true
  openRun : ¬ state.Ended → state.journal.endings = [] ∧
    state.journal.durable.status.isTerminal = false
  ended : state.Ended → state.EndedWell
  awaited : state.phase = .finished → state.cancellationStarted = true → state.cancellation = .done

end

variable {env : SchedulerEnv} {rank : DagNodeId → Nat} {state next : SchedulerState}

theorem allTerminal_iff (graph : WellFormedGraph record.nodes rank) :
    AllTerminal record ↔
      ∀ id found, stateOf record id = some found → found.isTerminal = true := by
  constructor
  · intro all id found isFound
    obtain ⟨node, member, _, nodeState, _⟩ := exists_of_stateOf isFound
    exact nodeState ▸ all node member
  · intro all node member
    exact all node.id node.state (stateOf_of_mem graph.nodupIds member)

theorem allTerminal_congr {journal : RunJournal} (sound : Sound rank journal)
    (soundLater : Sound rank later) (same : stateOf later.durable = stateOf journal.durable) :
    AllTerminal later.durable ↔ AllTerminal journal.durable := by
  rw [allTerminal_iff soundLater.graph, allTerminal_iff sound.graph, same]

theorem not_ended_of_phase (notFinished : state.phase ≠ .finished)
    (notDone : state.cancellation ≠ .done) : ¬ state.Ended := by
  rintro (⟨finished, _⟩ | done)
  · exact notFinished finished
  · exact notDone done

theorem not_ended_of_running (running : state.cancellation = .none)
    (notFinished : state.phase ≠ .finished) : ¬ state.Ended := by
  apply not_ended_of_phase notFinished
  rw [running]
  exact nofun

theorem not_done_of_early (early : state.cancellation.isEarly = true) :
    state.cancellation ≠ .done := by
  intro done
  simp [done, CancelPhase.isEarly] at early

/-- A run that is suspended elsewhere than behind an admission. -/
theorem Orderly.of_waiting (notThrown : state.phase ≠ .threw)
    (notAdmitted : state.phase ≠ .admitted) (notFinished : state.phase ≠ .finished)
    (notDone : state.cancellation ≠ .done)
    (isOpen : state.journal.endings = [] ∧ state.journal.durable.status.isTerminal = false) :
    Orderly state where
  notThrown := notThrown
  calm := fun admitted => absurd admitted notAdmitted
  timely := fun _ admitted => absurd admitted notAdmitted
  early := fun admitted => absurd admitted notAdmitted
  openRun := fun _ => isOpen
  ended := fun ended => absurd ended (not_ended_of_phase notFinished notDone)
  awaited := fun finished => absurd finished notFinished

/-- A run that is suspended behind an admission, without a cancellation. -/
theorem Orderly.of_admitted (admitted : state.phase = .admitted)
    (running : state.cancellationStarted = false) (early : state.cancellation.isEarly = true)
    (calm : state.attachedTasks = [] → AllTerminal state.journal.durable)
    (isOpen : state.journal.endings = [] ∧ state.journal.durable.status.isTerminal = false) :
    Orderly state where
  notThrown := by simp [admitted]
  calm := fun _ => calm
  timely := by simp [running]
  early := fun _ => early
  openRun := fun _ => isOpen
  ended := by
    intro ended
    exact absurd ended (not_ended_of_phase (by simp [admitted]) (not_done_of_early early))
  awaited := by simp [admitted]

theorem Orderly.of_passed (orderly : Orderly state) (invariant : Invariant rank state)
    {journal : RunJournal} {phase : RunPhase} (began : Began env rank state.journal journal)
    (passes : PassesOn state phase) :
    Orderly { state with journal := journal, promotionWatches := watches, phase := phase } := by
  have terminalIff := allTerminal_congr invariant.sound began.sound began.states_eq
  have endedIff : Ended
      { state with journal := journal, promotionWatches := watches, phase := phase } ↔
        state.Ended := by
    unfold Ended
    cases passes with
    | stays => rfl
    | signalled inAdmission before => simp [before]
    | observed cancelling before notEnded => simp [notEnded]
    | returned before done => simp [done]
  have endings := began.endings_eq
  have status := began.status_eq
  refine ⟨?_, ?_, ?_, ?_, ?_, ?_, ?_⟩
  · cases passes with
    | stays => exact orderly.notThrown
    | _ => simp
  · intro admitted noneAttached
    cases passes with
    | stays => exact terminalIff.mpr (orderly.calm admitted noneAttached)
    | _ => cases admitted
  · intro cancelling admitted
    cases passes with
    | stays => exact fun all => orderly.timely cancelling admitted (terminalIff.mp all)
    | _ => cases admitted
  · intro admitted
    cases passes with
    | stays => exact orderly.early admitted
    | _ => cases admitted
  · intro notEnded
    simp only [endings, status]
    exact orderly.openRun (fun ended => notEnded (endedIff.mpr ended))
  · intro ended
    have well := orderly.ended (endedIff.mp ended)
    exact ⟨terminalIff.mpr well.allTerminal, status.trans well.closed, by
      simp only [endings]
      exact well.once⟩
  · intro finished cancelling
    cases passes with
    | stays => exact orderly.awaited finished cancelling
    | returned before done => exact done
    | _ => cases finished

theorem Orderly.of_admits (orderly : Orderly state) (invariant : Invariant rank state)
    (running : state.cancellationStarted = false)
    (before : state.phase = .idle ∨ ∃ inAdmission, state.phase = .settled inAdmission)
    (began : Began env rank state.journal begun) (skips : SkipsOnly env begun between)
    (quiescent : state.phase ≠ .settled true → state.attachedTasks = [] → Quiescent between.durable)
    (pass : Admits env { state with journal := begun } next between runnable) : Orderly next := by
  have none := invariant.none_of_running running
  have after := invariant.of_admits running before began skips pass
  have notFinished : state.phase ≠ .finished := by
    rcases before with phase | ⟨_, phase⟩ <;> simp [phase]
  obtain ⟨noEndings, openStatus⟩ := orderly.openRun (not_ended_of_running none notFinished)
  have nextPhase : next.phase = .admitted ∨ ∃ batch, next.phase = .starting batch := by
    rw [pass.phase]
    split
    · exact Or.inl rfl
    · exact Or.inr ⟨_, rfl⟩
  have nextNone : next.cancellation = .none := pass.cancellation.trans none
  have nextRunning : next.cancellationStarted = false :=
    pass.cancellationStarted.trans running
  have nextNotEnded : ¬ next.Ended := by
    apply not_ended_of_running nextNone
    rcases nextPhase with phase | ⟨_, phase⟩ <;> simp [phase]
  have statusEq : next.journal.durable.status.isTerminal = false := by
    rw [pass.moves.status_eq, skips.moves.status_eq, began.status_eq]
    exact openStatus
  have endingsEq : next.journal.endings = [] := by
    rw [pass.moves.endings_eq, skips.moves.endings_eq, began.endings_eq]
    exact noEndings
  refine ⟨?_, ?_, ?_, ?_, fun _ => ⟨endingsEq, statusEq⟩,
    fun ended => absurd ended nextNotEnded, ?_⟩
  · rcases nextPhase with phase | ⟨_, phase⟩ <;> simp [phase]
  · intro admitted noneAttached
    have nothing : state.pendingAdmission = [] ∧ runnable = [] := by
      by_contra something
      have phaseEq := pass.phase
      rw [if_neg something, admitted] at phaseEq
      cases phaseEq
    have notInAdmission : state.phase ≠ .settled true := by
      intro phase
      have parked := invariant.parked
      simp only [ParkedAsPhase, phase] at parked
      exact parked nothing.1
    have sameStates : stateOf next.journal.durable = stateOf between.durable := by
      rw [pass.moves.states_eq, nothing.2, moveTo_nil]
    have soundBetween := skips.moves.sound began.sound
    rw [allTerminal_congr soundBetween after.sound sameStates]
    refine RunJournal.allTerminal_of_quiescent soundBetween.graph
      (quiescent notInAdmission (pass.attachedTasks.symm.trans noneAttached)) ?_ ?_
    · intro id active
      have held := after.activeHeld nextRunning id
        ((active_congr (congrFun sameStates id)).mpr active)
      simp [holders, noneAttached, pass.pendingAdmission, admitted, RunPhase.batch] at held
    · intro id waiting completed
      have ready : id ∈ runnable := (pass.ready id).mpr ⟨waiting, by
          simp [nothing.1], completed⟩
      simp [nothing.2] at ready
  · intro cancelling
    rw [nextRunning] at cancelling
    cases cancelling
  · intro _
    rw [nextNone]
    rfl
  · intro finished
    rcases nextPhase with phase | ⟨_, phase⟩ <;> simp [phase] at finished

variable {folded : SchedulerState} {batch : List DagNodeId} {answers : List StartAnswer}
variable {denied : List DagNodeId}

/-- No answer makes a node wait. -/
theorem waiting_of_folded (length : answers.length = batch.length)
    (folds : BatchFolded env (batch.zip answers) []
      { state with
        traffic := state.traffic ++ (batch.zip answers).map fun entry => .answered entry.1 entry.2 }
      (folded, denied))
    {id : DagNodeId}
    (waiting : Waiting folded.journal.durable id) : Waiting state.journal.durable id := by
  have ids : (batch.zip answers).map (·.1) = batch := List.map_fst_zip (by omega)
  have same : ∀ {id}, stateOf folded.journal.durable id = stateOf state.journal.durable id →
      Waiting folded.journal.durable id → Waiting state.journal.durable id := by
    rintro id same ⟨found, isFound, isWaiting⟩
    exact ⟨found, same ▸ isFound, isWaiting⟩
  by_cases inBatch : id ∈ batch
  · rw [← ids] at inBatch
    obtain ⟨⟨nodeId, answer⟩, inside, rfl⟩ := List.mem_map.mp inBatch
    cases isTask : answer.attachedTask state.cancellationStarted with
    | some taskId =>
      exact absurd waiting (not_waiting_of_active
        (folds.active (nodeId, answer) inside (by simp [isTask])))
    | none =>
      by_cases kept : state.cancellationStarted = true ∨ answer.isDenied = true
      · exact same (folds.kept (nodeId, answer) inside isTask kept) waiting
      · rw [not_or, Bool.not_eq_true, Bool.not_eq_true] at kept
        have failed := folds.failed kept.1 (nodeId, answer) inside isTask kept.2
        obtain ⟨found, isFound, isWaiting⟩ := waiting
        rw [failed] at isFound
        cases isFound
        cases isWaiting
  · exact same (folds.others id (by rwa [ids])) waiting

/-- A pass that has returned with nothing attached leaves no node waiting. -/
theorem allTerminal_of_goesOn (length : answers.length = batch.length)
    (goesOn : state.BatchGoesOn answers) (running : state.cancellationStarted = false)
    (folds : BatchFolded env (batch.zip answers) []
      { state with
        traffic := state.traffic ++ (batch.zip answers).map fun entry => .answered entry.1 entry.2 }
      (folded, denied))
    (after : Invariant rank next)
    (nextRunning : next.cancellationStarted = false)
    (noneHeld : next.holders = [])
    (noneAttached : folded.attachedTasks = [])
    (waitingBefore : ∀ id, Waiting next.journal.durable id → Waiting folded.journal.durable id) :
    AllTerminal next.journal.durable := by
  have noneNew : state.attachedTasks = [] ∧
      attachments state.cancellationStarted (batch.zip answers) = [] := by
    have appended := folds.attachedTasks
    rw [noneAttached] at appended
    simpa using appended.symm
  have noneWaiting : ∀ id, ¬ Waiting state.journal.durable id := by
    rcases goesOn with ⟨answer, inside, isTask⟩ | attached | noneWaiting
    · obtain ⟨index, bound, isAnswer⟩ := List.mem_iff_getElem.mp inside
      obtain ⟨taskId, isTask⟩ := Option.isSome_iff_exists.mp isTask
      have listed : (batch[index], answer) ∈ batch.zip answers := by
        rw [← isAnswer, List.mem_iff_getElem]
        exact ⟨index, by simp; omega, by simp⟩
      have attached := mem_attachments.mpr ⟨answer, listed, isTask⟩
      rw [running] at noneNew
      rw [noneNew.2] at attached
      cases attached
    · exact absurd noneNew.1 attached
    · exact noneWaiting
  rw [allTerminal_iff after.sound.graph]
  intro id found isFound
  rcases found.terminal_or_waiting_or_active with terminal | waiting | active
  · exact terminal
  · exact absurd (waiting_of_folded length folds
      (waitingBefore id ⟨found, isFound, waiting⟩)) (noneWaiting id)
  · have held := after.activeHeld nextRunning id ⟨found, isFound, active⟩
    rw [noneHeld] at held
    cases held

variable (orderly : Orderly state)
include orderly

section

variable (invariant : Invariant rank state)
include invariant

theorem Orderly.of_answered (goesOn : state.cancellationStarted = true ∨ state.BatchGoesOn answers)
    (before : state.phase = .starting batch) (length : answers.length = batch.length)
    (folds : BatchFolded env (batch.zip answers) []
      { state with
        traffic := state.traffic ++ (batch.zip answers).map fun entry => .answered entry.1 entry.2 }
      (folded, denied))
    (finishes : BatchFinished env folded denied next) : Orderly next := by
  have after := invariant.of_answered before length folds finishes
  have parked := invariant.parked
  simp only [ParkedAsPhase, before] at parked
  obtain ⟨noneParked, _, early⟩ := parked
  have foldedParked : folded.pendingAdmission = [] :=
    folds.control.pendingAdmission.trans noneParked
  have foldedEarly : folded.cancellation.isEarly = true := by
    rw [folds.control.cancellation]
    exact early
  have notDone := not_done_of_early foldedEarly
  have notEnded : ¬ state.Ended :=
    not_ended_of_phase (by simp [before]) (not_done_of_early early)
  obtain ⟨noEndings, openStatus⟩ := orderly.openRun notEnded
  have foldedOpen : folded.journal.endings = [] ∧
      folded.journal.durable.status.isTerminal = false := by
    rw [folds.moves.endings_eq, folds.moves.status_eq]
    exact ⟨noEndings, openStatus⟩
  have sameFlag : folded.cancellationStarted = state.cancellationStarted :=
    folds.control.cancellationStarted
  have running : folded.cancellationStarted = false →
      state.cancellationStarted = false ∧ state.BatchGoesOn answers := by
    intro foldedRunning
    rw [sameFlag] at foldedRunning
    exact ⟨foldedRunning, goesOn.resolve_left (by simp [foldedRunning])⟩
  cases finishes with
  | cancelled cancelling | parked foldedRunning someDenied someAttached =>
    exact .of_waiting (by simp) (by simp) (by simp) notDone foldedOpen
  | admitted foldedRunning noneDenied =>
    obtain ⟨stateRunning, batchGoesOn⟩ := running foldedRunning
    refine .of_admitted rfl foldedRunning foldedEarly ?_ foldedOpen
    intro noneAttached
    exact allTerminal_of_goesOn length batchGoesOn stateRunning folds after foldedRunning
      (by simp [holders, RunPhase.batch, foldedParked,
        show folded.attachedTasks = [] from noneAttached])
      noneAttached (fun _ => id)
  | gaveUp journal foldedRunning someDenied noneAttached moves =>
    obtain ⟨stateRunning, batchGoesOn⟩ := running foldedRunning
    refine .of_admitted rfl foldedRunning foldedEarly ?_ ?_
    · intro _
      refine allTerminal_of_goesOn length batchGoesOn stateRunning folds after
        foldedRunning (by simp [holders, RunPhase.batch, noneAttached]) noneAttached ?_
      rintro id ⟨found, isFound, isWaiting⟩
      rw [moves.states_eq, moveTo_eq_some] at isFound
      rcases isFound with ⟨_, _, rfl⟩ | ⟨_, isFound⟩
      · cases isWaiting
      · exact ⟨found, isFound, isWaiting⟩
    · simp only [moves.endings_eq, moves.status_eq]
      exact foldedOpen

theorem Orderly.of_returns (before : state.phase = .admitted)
    (returned : AdmissionReturned env state next) : Orderly next := by
  have early := orderly.early before
  have notDone := not_done_of_early early
  have notEnded : ¬ state.Ended := not_ended_of_phase (by simp [before]) notDone
  obtain ⟨noEndings, openStatus⟩ := orderly.openRun notEnded
  cases returned with
  | finished allTerminal =>
    have running : state.cancellationStarted = false := by
      by_contra cancelling
      exact orderly.timely (Bool.not_eq_false _ ▸ cancelling) before allTerminal
    obtain ⟨payload, settles, endings, sound, statesEq, statusEq, _⟩ :=
      invariant.sound.finishRun_spec env
    exact
      { notThrown := by simp
        calm := by simp
        timely := by simp
        early := by simp
        openRun := fun open' => absurd (Or.inl ⟨rfl, running⟩) open'
        ended := fun _ =>
          { allTerminal :=
              (allTerminal_congr invariant.sound sound statesEq).mpr allTerminal
            closed := by
              simp only [statusEq]
              split <;> rfl
            once := by
              refine ⟨payload, by simp [endings, noEndings], fun _ => settles, ?_⟩
              intro cancelling
              rw [show state.cancellationStarted = true from cancelling] at running
              cases running }
        awaited := by
          intro _ cancelling
          rw [show state.cancellationStarted = true from cancelling] at running
          cases running }
  | threw pending noneAttached => exact absurd (orderly.calm before noneAttached) pending
  | settling pending someAttached =>
    exact .of_waiting (by simp) (by simp) (by simp) notDone ⟨noEndings, openStatus⟩

theorem Orderly.of_settles (before : state.phase = .settling inAdmission)
    (running : state.cancellationStarted = false)
    (folds : SettlementFolded env nodeId settlement state folded) :
    Orderly { folded with phase := .settled inAdmission } := by
  have none := invariant.none_of_running running
  obtain ⟨noEndings, openStatus⟩ :=
    orderly.openRun (not_ended_of_running none (by simp [before]))
  refine .of_waiting (by simp) (by simp) (by simp) ?_ ?_
  · rw [show folded.cancellation = .none from folds.cancellation.trans none]
    exact nofun
  · simp only [folds.moves.endings_eq, folds.moves.status_eq]
    exact ⟨noEndings, openStatus⟩

theorem Orderly.of_promotes {journal : RunJournal} (running : state.cancellationStarted = false)
    (queued : stateOf state.journal.durable nodeId = some .scheduled)
    (moves : Moves env state.journal journal
      (moveTo .running [nodeId] (stateOf state.journal.durable))) :
    Orderly { state with journal := journal, promotionWatches := watches } := by
  have notAll : ¬ AllTerminal state.journal.durable := by
    intro all
    have terminal := (allTerminal_iff invariant.sound.graph).mp all nodeId .scheduled queued
    cases terminal
  exact
    { notThrown := orderly.notThrown
      calm := fun admitted noneAttached => absurd (orderly.calm admitted noneAttached) notAll
      timely := by
        intro cancelling
        rw [show state.cancellationStarted = true from cancelling] at running
        cases running
      early := orderly.early
      openRun := by
        intro notEnded
        simp only [moves.endings_eq, moves.status_eq]
        exact orderly.openRun notEnded
      ended := fun ended => absurd (orderly.ended ended).allTerminal notAll
      awaited := orderly.awaited }

end

theorem Orderly.of_cancels (openStatus : state.journal.durable.status.isTerminal = false)
    (timely : ¬ (state.phase = .admitted ∧ AllTerminal state.journal.durable))
    (running : state.cancellationStarted = false) (reason : Option String) :
    Orderly { state with cancellationStarted := true, cancellation := .awaitingIdle reason } := by
  have notEnded : ¬ state.Ended := by
    intro ended
    rw [(orderly.ended ended).closed] at openStatus
    cases openStatus
  exact
    { notThrown := orderly.notThrown
      calm := orderly.calm
      timely := fun _ admitted all => timely ⟨admitted, all⟩
      early := fun _ => rfl
      openRun := fun _ => orderly.openRun notEnded
      ended := by
        rintro (⟨_, running⟩ | done)
        · cases running
        · cases done
      awaited := by
        intro finished _
        exact absurd (Or.inl ⟨finished, running⟩) notEnded }

theorem Orderly.of_cancelsTasks (before : state.cancellation = .awaitingIdle reason)
    (notAdmitted : state.phase ≠ .admitted) (cancelling : state.cancellationStarted = true) :
    Orderly (state.cancelTasks reason) := by
  have notEnded : ¬ state.Ended := by
    rintro (⟨_, running⟩ | done)
    · rw [cancelling] at running
      cases running
    · rw [before] at done
      cases done
  exact
    { notThrown := orderly.notThrown
      calm := fun admitted => absurd admitted notAdmitted
      timely := fun _ admitted => absurd admitted notAdmitted
      early := fun admitted => absurd admitted notAdmitted
      openRun := fun _ => orderly.openRun notEnded
      ended := by
        rintro (⟨_, running⟩ | done)
        · rw [show (state.cancelTasks reason).cancellationStarted = true from cancelling]
            at running
          cases running
        · cases done
      awaited := by
        intro finished _
        rw [orderly.awaited finished cancelling] at before
        cases before }

theorem Orderly.of_cancelsRest (invariant : Invariant rank state)
    (before : state.cancellation = .cancellingTasks reason) :
    Orderly
      { state with
        journal := state.journal.finishCancellation env reason
        attachedTaskIds := []
        cancellation := .done } := by
  have cancelling := invariant.flagged.mpr (by simp [before])
  have notEnded : ¬ state.Ended := by
    rintro (⟨_, running⟩ | done)
    · rw [cancelling] at running
      cases running
    · rw [before] at done
      cases done
  have notAdmitted : state.phase ≠ .admitted := by
    intro admitted
    have early := orderly.early admitted
    rw [before] at early
    cases early
  obtain ⟨noEndings, _⟩ := orderly.openRun notEnded
  obtain ⟨counts, ids, endings, sound, statusEq, statesEq, members⟩ :=
    invariant.sound.finishCancellation_spec env reason
  exact
    { notThrown := orderly.notThrown
      calm := fun admitted => absurd admitted notAdmitted
      timely := fun _ admitted => absurd admitted notAdmitted
      early := fun admitted => absurd admitted notAdmitted
      openRun := fun notDone => absurd (Or.inr rfl) notDone
      ended := fun _ =>
        { allTerminal := by
            rw [allTerminal_iff sound.graph]
            intro id found isFound
            rw [statesEq, moveTo_eq_some] at isFound
            rcases isFound with ⟨_, _, rfl⟩ | ⟨outside, isFound⟩
            · rfl
            · by_contra active
              exact outside ((members id).mpr ⟨found, isFound, Bool.eq_false_iff.mpr active⟩)
          closed := by simp [statusEq, DagRunStatus.isTerminal]
          once := by
            refine ⟨.runCancelled reason counts ids, ?_, ?_, fun _ => ⟨reason, counts, ids, rfl⟩⟩
            · simp [endings, noEndings]
            intro running
            rw [show state.cancellationStarted = false from running] at cancelling
            cases cancelling }
      awaited := fun _ _ => rfl }

/-- Orderly steps keep a run orderly. -/
theorem Orderly.step (invariant : Invariant rank state) (meets : OrderlyStep state action)
    (ownStep : OwnStep env rank state action next) : Orderly next := by
  cases ownStep with
  | passed _ journal watches phase began passes => exact orderly.of_passed invariant began passes
  | admits _ begun between runnable _ running before began skips quiescent pass =>
    exact orderly.of_admits invariant running before began skips quiescent pass
  | answered batch answers folded _ denied before length folds finishes =>
    exact orderly.of_answered invariant meets before length folds finishes
  | returns _ before returned => exact orderly.of_returns invariant before returned
  | settles nodeId settlement inAdmission folded before running attached folds =>
    exact orderly.of_settles invariant before running folds
  | promotes nodeId journal watches running queued moves =>
    exact orderly.of_promotes invariant running queued moves
  | cancels runId reason running openRun =>
    refine orderly.of_cancels openRun meets ?_ reason
    by_contra started
    exact invariant.flagged.mp (Bool.not_eq_false _ ▸ started) running
  | cancelsTasks reason before notStarting notAdmitted =>
    exact orderly.of_cancelsTasks before notAdmitted (invariant.flagged.mpr (by simp [before]))
  | cancelsRest reason before => exact orderly.of_cancelsRest invariant before

end SchedulerState

/-- A run that has just been created is orderly. -/
theorem DagStart.orderly (start : DagStart) (files : ResultFiles) :
    (start.scheduler files).Orderly where
  notThrown := by simp [scheduler, SchedulerState.initial]
  calm := by simp [scheduler, SchedulerState.initial]
  timely := by simp [scheduler, SchedulerState.initial]
  early := by simp [scheduler, SchedulerState.initial]
  openRun := fun _ => ⟨rfl, rfl⟩
  ended := by simp [scheduler, SchedulerState.initial, SchedulerState.Ended]
  awaited := by simp [scheduler, SchedulerState.initial]

end OpenAgent.Dag
