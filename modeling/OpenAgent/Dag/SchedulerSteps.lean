import OpenAgent.Dag.SchedulerTurns

/-!
# The steps of a scheduler that is alone on its run

Every step the scheduler can take while no other journal instance commits,
with all it does, and the invariant under which this list is complete.
-/

namespace OpenAgent.Dag

open Library
open RunJournal (Sound Moves Evolves SkipsOnly Quiescent)

/-- The actions of other journal instances. -/
def SchedulerAction.isForeign : SchedulerAction → Bool
  | .foreignCommit _ | .foreignEvent _ => true
  | _ => false

/-- The nodes whose `startOwned` is pending. -/
def RunPhase.batch : RunPhase → List DagNodeId
  | .starting batch => batch
  | _ => []

/-- `performCancellation` has not passed `whenAdmissionIdle`. -/
def CancelPhase.isEarly : CancelPhase → Bool
  | .none | .awaitingIdle _ => true
  | .cancellingTasks _ | .done => false

theorem RunJournal.refresh_eq {journal : RunJournal} (synced : journal.cache = journal.durable) :
    journal.refresh = journal := by
  obtain ⟨⟩ := journal
  cases synced
  rfl

namespace SchedulerState

/-- The nodes the scheduler keeps track of: attached, parked or starting. -/
def holders (state : SchedulerState) : List DagNodeId :=
  state.attachedTasks ++ state.pendingAdmission ++ state.phase.batch

/-- What is parked in which phase, and where a task is attached. -/
def ParkedAsPhase (state : SchedulerState) : Prop :=
  match state.phase with
  | .idle | .admitted | .settled false => state.pendingAdmission = []
  | .starting batch =>
    state.pendingAdmission = [] ∧ batch ≠ [] ∧ state.cancellation.isEarly = true
  | .settling false => state.pendingAdmission = [] ∧ state.attachedTasks ≠ []
  | .settling true => state.pendingAdmission ≠ [] ∧ state.attachedTasks ≠ []
  | .settled true => state.pendingAdmission ≠ []
  | .cancelling | .finished | .threw => True

/-- The invariant of a scheduler that is alone on its run. -/
structure Invariant (rank : DagNodeId → Nat) (state : SchedulerState) : Prop where
  sound : Sound rank state.journal
  named : state.journal.ErrorsNamed
  noForeign : state.foreignSettlement = false
  flagged : state.cancellationStarted = true ↔ state.cancellation ≠ .none
  keys : state.cancellation ≠ .done → state.attachedTaskIds.map (·.1) = state.attachedTasks
  nodup : state.cancellation ≠ .done → state.holders.Nodup
  heldActive : state.cancellation ≠ .done → ∀ id ∈ state.holders, Active state.journal.durable id
  activeHeld : state.cancellationStarted = false → ∀ id,
    Active state.journal.durable id → id ∈ state.holders
  parked : state.ParkedAsPhase

/-- The journal behind the first lines of `runFrontier`. -/
structure Began (env : SchedulerEnv) (rank : DagNodeId → Nat)
    (journal next : RunJournal) : Prop where
  evolves : Evolves env journal next
  sound : Sound rank next
  states_eq : stateOf next.durable = stateOf journal.durable
  status_eq : next.durable.status.isTerminal = journal.durable.status.isTerminal
  endings_eq : next.endings = journal.endings
  closed : journal.durable.status.isTerminal = true → next = journal

/-- The phases between which a step only passes on. -/
inductive PassesOn (state : SchedulerState) : RunPhase → Prop
  | stays : PassesOn state state.phase
  | signalled (inAdmission : Bool) (before : state.phase = .settling inAdmission) :
      PassesOn state (.settled inAdmission)
  | observed (cancelling : state.cancellationStarted = true)
      (before : state.phase.batch = []) (notEnded : state.phase ≠ .finished)
      (notThrown : state.phase ≠ .threw) (notAdmitted : state.phase ≠ .admitted) :
      PassesOn state .cancelling
  | returned (before : state.phase = .cancelling) (done : state.cancellation = .done) :
      PassesOn state .finished

/-- The steps of a scheduler that is alone on its run. -/
inductive OwnStep (env : SchedulerEnv) (rank : DagNodeId → Nat)
    (state : SchedulerState) : SchedulerAction → SchedulerState → Prop
  | passed (action : SchedulerAction) (journal : RunJournal) (watches : List DagNodeId)
      (phase : RunPhase) (began : Began env rank state.journal journal)
      (passes : PassesOn state phase) : OwnStep env rank state action
        { state with journal := journal, promotionWatches := watches, phase := phase }
  | admits (action : SchedulerAction) (begun between : RunJournal)
      (runnable : List DagNodeId) (next : SchedulerState)
      (running : state.cancellationStarted = false)
      (before : state.phase = .idle ∨ ∃ inAdmission, state.phase = .settled inAdmission)
      (began : Began env rank state.journal begun) (skips : SkipsOnly env begun between)
      (quiescent : state.phase ≠ .settled true → state.attachedTasks = [] →
        Quiescent between.durable)
      (pass : Admits env { state with journal := begun } next between runnable) :
      OwnStep env rank state action next
  | answered (batch : List DagNodeId) (answers : List StartAnswer)
      (folded next : SchedulerState) (denied : List DagNodeId)
      (before : state.phase = .starting batch)
      (length : answers.length = batch.length)
      (folds : BatchFolded env (batch.zip answers) []
        { state with
          traffic := state.traffic ++
            (batch.zip answers).map fun entry => .answered entry.1 entry.2 }
        (folded, denied))
      (finishes : BatchFinished env folded denied next) :
      OwnStep env rank state (.batchAnswered answers) next
  | returns (next : SchedulerState) (before : state.phase = .admitted)
      (returned : AdmissionReturned env state next) : OwnStep env rank state .admissionReturned next
  | settles (nodeId : DagNodeId) (settlement : Settlement) (inAdmission : Bool)
      (folded : SchedulerState) (before : state.phase = .settling inAdmission)
      (running : state.cancellationStarted = false) (attached : nodeId ∈ state.attachedTasks)
      (folds : SettlementFolded env nodeId settlement state folded) :
      OwnStep env rank state (.taskSettled nodeId settlement)
        { folded with phase := .settled inAdmission }
  | promotes (nodeId : DagNodeId) (journal : RunJournal) (watches : List DagNodeId)
      (running : state.cancellationStarted = false)
      (queued : stateOf state.journal.durable nodeId = some .scheduled)
      (moves : Moves env state.journal journal
        (moveTo .running [nodeId] (stateOf state.journal.durable))) :
      OwnStep env rank state (.promoted nodeId)
        { state with journal := journal, promotionWatches := watches }
  | cancels (runId : DagRunId) (reason : Option String) (running : state.cancellation = .none)
      (openRun : state.journal.durable.status.isTerminal = false) :
      OwnStep env rank state (.cancel runId reason)
        { state with cancellationStarted := true, cancellation := .awaitingIdle reason }
  | cancelsTasks (reason : Option String) (before : state.cancellation = .awaitingIdle reason)
      (notStarting : state.phase.batch = []) (notAdmitted : state.phase ≠ .admitted) :
      OwnStep env rank state .admissionIdle (state.cancelTasks reason)
  | cancelsRest (reason : Option String) (before : state.cancellation = .cancellingTasks reason) :
      OwnStep env rank state .tasksCancelled
        { state with
          journal := state.journal.finishCancellation env reason
          attachedTaskIds := []
          cancellation := .done }

variable {env : SchedulerEnv} {rank : DagNodeId → Nat} {state next : SchedulerState}

theorem Began.refl (sound : Sound rank state.journal) :
    Began env rank state.journal state.journal :=
  ⟨RunJournal.evolves_refl, sound, rfl, rfl, rfl, fun _ => rfl⟩

section

variable (invariant : Invariant rank state)
include invariant

theorem Invariant.passed (action : SchedulerAction) {phase : RunPhase}
    (passes : PassesOn state phase) : OwnStep env rank state action { state with phase := phase } :=
  .passed action state.journal state.promotionWatches phase (Began.refl invariant.sound) passes

theorem Invariant.same (action : SchedulerAction) : OwnStep env rank state action state :=
  invariant.passed action .stays

/-- The journal behind the start of `run`. -/
theorem Invariant.began :
    ∃ begun, Began env rank state.journal begun ∧
      state.startRun env = ({ state with journal := begun } : SchedulerState).runFrontier env := by
  unfold startRun
  by_cases pending : state.journal.cache.status = .pending
  · obtain ⟨evolves, sound, statesEq, statusEq, endingsEq⟩ := invariant.sound.append_run env
      (.runStarted state.journal.cache.generation) rfl rfl rfl
    refine ⟨_, ⟨evolves, sound, statesEq, ?_, ?_, ?_⟩, by simp [pending, onJournal]⟩
    · rw [statusEq, ← invariant.sound.synced, pending]
      rfl
    · rw [endingsEq]
      simp [DagRunEventPayload.endsRun]
    · intro closed
      rw [← invariant.sound.synced, pending] at closed
      cases closed
  · exact ⟨state.journal, Began.refl invariant.sound, by simp [pending]⟩

end

theorem Began.frontier (action : SchedulerAction) (began : Began env rank state.journal begun)
    (before : state.phase = .idle ∨ state.phase = .settled false) :
    OwnStep env rank state action
      (({ state with journal := begun } : SchedulerState).runFrontier env) := by
  by_cases cancelling : state.cancellationStarted = true
  · have turn : ({ state with journal := begun } : SchedulerState).runFrontier env =
        { state with journal := begun, phase := .cancelling } := by
      unfold runFrontier
      rw [if_pos cancelling]
    rw [turn]
    refine .passed action begun state.promotionWatches .cancelling began
      (.observed cancelling ?_ ?_ ?_ ?_) <;>
    rcases before with phase | phase <;> simp [phase, RunPhase.batch]
  · have running := Bool.eq_false_iff.mpr cancelling
    obtain ⟨between, runnable, skips, quiescent, pass⟩ :=
      @runFrontier_admits env rank { state with journal := begun } began.sound running
    refine .admits action begun between runnable _ running ?_ began skips (fun _ => quiescent) pass
    rcases before with phase | phase
    · exact Or.inl phase
    · exact Or.inr ⟨false, phase⟩

variable (invariant : Invariant rank state)
include invariant

theorem Invariant.answered (before : state.phase = .starting batch)
    (length : answers.length = batch.length) :
    OwnStep env rank state (.batchAnswered answers) (state.resumeBatch env batch answers) := by
  have parked := invariant.parked
  simp only [ParkedAsPhase, before] at parked
  have notDone : state.cancellation ≠ .done := by
    intro done
    simp [done, CancelPhase.isEarly] at parked
  have ids : (batch.zip answers).map Prod.fst = batch :=
    List.map_fst_zip (by omega)
  have nodup := invariant.nodup notDone
  simp only [holders, parked.1, before, List.append_nil] at nodup
  obtain ⟨_, batchNodup, disjoint⟩ := List.nodup_append.mp nodup
  have member : ∀ entry ∈ batch.zip answers, entry.1 ∈ batch := fun entry inside =>
    (List.of_mem_zip inside).1
  have active : ∀ id ∈ batch, Active state.journal.durable id := by
    intro id inside
    apply invariant.heldActive notDone
    simp [holders, before, RunPhase.batch, inside]
  have folds := @foldAnswers_spec env rank
    { state with
      traffic := state.traffic ++ (batch.zip answers).map fun entry => .answered entry.1 entry.2 }
    (batch.zip answers) invariant.sound (invariant.keys notDone)
    (by rw [show (batch.zip answers).map (·.1) = batch from ids]; exact batchNodup)
    (fun entry inside attached => disjoint _ attached _ (member entry inside) rfl)
    (fun entry inside => active entry.1 (member entry inside)) []
  unfold resumeBatch
  simp only
  generalize (batch.zip answers).foldl (foldAnswer env) _ = result at folds
  obtain ⟨folded, denied⟩ := result
  refine .answered batch answers folded _ denied before length folds
    (finishBatch_cases env (folds.moves.sound invariant.sound)
      (folds.control.foreignSettlement.trans invariant.noForeign) ?_)
  intro id inside
  have deniedEq : denied = _ := folds.denied_eq
  rw [deniedEq, List.nil_append, mem_deniedNodes] at inside
  obtain ⟨_, answer, listed, _⟩ := inside
  exact isSome_stateOf_iff.mpr (by
    rw [folds.moves.evolves.skeleton_eq, ← isSome_stateOf_iff]
    exact isSome_of_active (active id (member (id, answer) listed)))

theorem Invariant.promotes (nodeId : DagNodeId) :
    OwnStep env rank state (.promoted nodeId) (state.foldPromotion env nodeId true).caught := by
  have caughtSame : ∀ journal : RunJournal, journal.thrown = false →
      { journal with thrown := false } = journal := by
    rintro ⟨⟩ rfl
    rfl
  have passedOver : ∀ watches, OwnStep env rank state (.promoted nodeId)
        { state with promotionWatches := watches } := fun watches =>
    .passed _ state.journal watches state.phase (Began.refl invariant.sound) .stays
  unfold foldPromotion
  by_cases cancelling : state.cancellationStarted = true
  · rw [if_pos (by simp [cancelling])]
    simp only [caught, onJournal]
    rw [caughtSame _ invariant.sound.thrown]
    exact invariant.same _
  rw [if_neg (by simp [cancelling])]
  simp only [disposePromotionWatch, invariant.sound.synced]
  cases lookup : nodeById state.journal.durable nodeId with
  | none =>
    simp only [raised, caught, onJournal]
    rw [show ({ state.journal with thrown := false } : RunJournal) = state.journal from
      caughtSame _ invariant.sound.thrown]
    exact passedOver _
  | some node =>
    simp only
    by_cases queued : node.state = .scheduled
    · have isQueued : stateOf state.journal.durable nodeId = some .scheduled := by
        simp [stateOf, lookup, queued]
      have moves := invariant.sound.transition_moves env
        (show (stateOf state.journal.durable nodeId).isSome from by simp [isQueued])
        .running .started
      rw [if_pos queued]
      simp only [caught, onJournal]
      rw [caughtSame _ moves.thrown]
      exact .promotes nodeId _ _ (Bool.eq_false_iff.mpr cancelling) isQueued moves
    · rw [if_neg queued]
      simp only [caught, onJournal]
      rw [caughtSame _ invariant.sound.thrown]
      exact passedOver _

theorem Invariant.cancelsRest (before : state.cancellation = .cancellingTasks reason) :
    OwnStep env rank state .tasksCancelled (state.cancelRemaining env reason) := by
  obtain ⟨_, _, _, sound, _⟩ := invariant.sound.finishCancellation_spec env reason
  have caughtSame : ({ state.journal.finishCancellation env reason with
      thrown := false } : RunJournal) = state.journal.finishCancellation env reason := by
    have thrown := sound.thrown
    generalize state.journal.finishCancellation env reason = journal at thrown
    obtain ⟨⟩ := journal
    cases thrown
    rfl
  simp only [cancelRemaining, caught, onJournal]
  rw [caughtSame]
  exact .cancelsRest reason before

/-- A loop that settles or has settled sees the cancellation. -/
theorem Invariant.observesCancellation (action : SchedulerAction)
    (before : state.phase = .settling inAdmission ∨ state.phase = .settled inAdmission)
    (cancelling : state.cancellationStarted = true) :
    OwnStep env rank state action { state with phase := .cancelling } := by
  apply invariant.passed action
  rcases before with before | before
  · exact .observed cancelling (by simp [before, RunPhase.batch]) (by simp [before])
      (by simp [before]) (by simp [before])
  · exact .observed cancelling (by simp [before, RunPhase.batch]) (by simp [before])
      (by simp [before]) (by simp [before])

/-- Every step of a scheduler that is alone on its run is in the list. -/
theorem Invariant.ownStep (own : action.isForeign = false)
    (taken : schedulerStep env state action = some next) : OwnStep env rank state action next := by
  cases SchedulerMove.of_step taken with
  | run phase =>
    obtain ⟨begun, began, turn⟩ := @Invariant.began env rank state invariant
    rw [turn]
    exact began.frontier _ (Or.inl phase)
  | batchAnswered before length => exact invariant.answered before length
  | admissionReturned phase =>
    exact .returns _ phase (afterAdmission_cases env invariant.sound invariant.noForeign)
  | settledLate before _ cancelling | cancellationObserved before cancelling =>
    exact invariant.observesCancellation _ (Or.inl before) cancelling
  | @taskSettled inAdmission nodeId settlement before attached running =>
    have notDone : state.cancellation ≠ .done := by
      intro done
      rw [invariant.flagged.mpr (by simp [done])] at running
      cases running
    have active := invariant.heldActive notDone nodeId (by simp [holders, attached])
    have folds := foldSettlement_folds env invariant.sound (isSome_of_active active) settlement
    unfold endTurn
    rw [if_neg (by simp [folds.moves.thrown])]
    exact .settles nodeId settlement inAdmission _ before running attached folds
  | settlementSignalled before => exact invariant.passed _ (.signalled _ before)
  | admits before =>
    by_cases cancelling : state.cancellationStarted = true
    · unfold admitFrontier
      rw [if_pos cancelling]
      exact invariant.observesCancellation _ (Or.inr before) cancelling
    · have running := Bool.eq_false_iff.mpr cancelling
      obtain ⟨runnable, pass⟩ := admitFrontier_admits env invariant.sound running
      exact .admits _ state.journal state.journal runnable _ running
        (Or.inr ⟨true, before⟩) (Began.refl invariant.sound)
        ⟨invariant.sound.moves_refl env, fun _ => Or.inl rfl⟩
        (fun notAdmission => absurd before notAdmission) pass
  | loops before => exact (Began.refl invariant.sound).frontier _ (Or.inr before)
  | @promoted nodeId => exact invariant.promotes nodeId
  | cancelIgnored => exact invariant.same _
  | cancel openRun fresh => exact .cancels _ _ fresh (invariant.sound.synced ▸ openRun)
  | @admissionIdle reason before notStarting notAdmitted =>
    refine .cancelsTasks reason before ?_ notAdmitted
    cases phase : state.phase with
    | starting batch => exact absurd phase (notStarting batch)
    | _ => rfl
  | tasksCancelled before => exact invariant.cancelsRest before
  | cancelledReturned phase done => exact invariant.passed _ (.returned phase done)
  | refresh =>
    simp only [onJournal, RunJournal.refresh_eq invariant.sound.synced]
    exact invariant.same _
  | _ => simp [SchedulerAction.isForeign] at own

end SchedulerState

end OpenAgent.Dag
