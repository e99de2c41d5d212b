import OpenAgent.Dag.JournalWrites

/-!
# Dependency order

A node is handed to `startOwned` only while every node it depends on has
completed in the durable record.  Other journal instances may commit at any
time, so the cached snapshot can be behind; it is enough that no node leaves a
terminal state and that dependencies stay as they are.
-/

namespace OpenAgent.Dag

open Library
open RunJournal (Evolves evolves_refl evolves_append evolves_staged)

/-- Terminal states and dependencies carry over from one record to another. -/
structure KeepsTerminal (before after : DagRunRecordV1) : Prop where
  states : ∀ id found, stateOf before id = some found → found.isTerminal = true →
    stateOf after id = some found
  deps : ∀ id, depsOf after id = depsOf before id

theorem DepsCompleted.mono (keeps : KeepsTerminal before after) {id : DagNodeId}
    (completed : DepsCompleted before id) : DepsCompleted after id := by
  intro dep member
  rw [keeps.deps] at member
  exact keeps.states dep .completed (completed dep member) rfl

namespace RunJournal

variable {env : SchedulerEnv} (journal : RunJournal)

theorem append_others (plain : payload.rewrites = false) {id : DagNodeId}
    (untouched : ∀ states, statesAfter states payload id = states id) :
    stateOf (journal.append env payload).durable id = stateOf journal.durable id := by
  unfold append
  split
  · rfl
  split
  · rfl
  · obtain ⟨_, statesEq, _⟩ := applyDagSchedulerEvent_view env.isAlive
      (env.store (journal.eventFor env payload).seq) journal.tables
      (env.copyTime (journal.eventFor env payload).seq) journal.files journal.durable
      (show (journal.eventFor env payload).payload.rewrites = false from plain)
    exact (congrFun statesEq id).trans (untouched _)

theorem transition_others {id : DagNodeId} (different : id ≠ nodeId) :
    stateOf (journal.transition env nodeId target reason).durable id =
      stateOf journal.durable id := by
  unfold transition
  split
  · rfl
  · apply append_others
    · rfl
    · simp [statesAfter, moveTo, different]

theorem foldl_others {id : DagNodeId} {values : List α}
    (each : ∀ value ∈ values, ∀ journal,
      stateOf (change journal value).durable id = stateOf journal.durable id)
    (journal : RunJournal) :
    stateOf (values.foldl change journal).durable id = stateOf journal.durable id := by
  induction values generalizing journal with
  | nil => rfl
  | cons value values ih =>
    rw [List.foldl_cons, ih fun other member =>
      each other (List.mem_cons_of_mem value member)]
    exact each value List.mem_cons_self journal

theorem emitWaveAdmissions_others (id : DagNodeId) :
    stateOf (journal.emitWaveAdmissions env scheduled).durable id = stateOf journal.durable id := by
  apply foldl_others
  intro index _ reporting
  have appended : stateOf (reporting.append env (.waveStarted index
      (scheduled.filter fun id => waveIndexOf journal.cache id == some index))).durable id =
        stateOf reporting.durable id :=
    append_others reporting rfl fun states => rfl
  exact appended

end RunJournal

namespace SchedulerState

variable {env : SchedulerEnv} {state middle next : SchedulerState}

/-- The nodes that are parked or starting. -/
def queued (state : SchedulerState) : List DagNodeId :=
  state.pendingAdmission ++ state.phase.batch

/-- A part of a turn that only writes the journal and attaches tasks. -/
structure Quiet (env : SchedulerEnv) (state next : SchedulerState) : Prop where
  evolves : Evolves env state.journal next.journal
  pendingAdmission : next.pendingAdmission = state.pendingAdmission
  phase : next.phase = state.phase
  traffic : next.traffic = state.traffic

theorem Quiet.trans (first : Quiet env state middle) (second : Quiet env middle next) :
    Quiet env state next where
  evolves := first.evolves.trans second.evolves
  pendingAdmission := second.pendingAdmission.trans first.pendingAdmission
  phase := second.phase.trans first.phase
  traffic := second.traffic.trans first.traffic

theorem quiet_refl : Quiet env state state :=
  ⟨evolves_refl, rfl, rfl, rfl⟩

theorem quiet_journal {journal : RunJournal} (evolves : Evolves env state.journal journal) :
    Quiet env state { state with journal := journal } :=
  ⟨evolves, rfl, rfl, rfl⟩

theorem quiet_raised : Quiet env state state.raised :=
  ⟨evolves_staged ⟨rfl, rfl, rfl, fun named => ⟨named.stored, named.staged⟩⟩, rfl, rfl, rfl⟩

theorem quiet_caught : Quiet env state state.caught :=
  ⟨evolves_staged ⟨rfl, rfl, rfl, fun named => ⟨named.stored, named.staged⟩⟩, rfl, rfl, rfl⟩

/-- The moves of some nodes to some states. -/
def Among (ids : List DagNodeId) (targets : List DagNodeState) (id : DagNodeId)
    (target : DagNodeState) : Prop :=
  id ∈ ids ∧ target ∈ targets

/-- A part of a turn that writes the journal and attaches tasks of the nodes it
may move. -/
structure Works (env : SchedulerEnv) (permit : DagNodeId → DagNodeState → Prop)
    (state next : SchedulerState) : Prop where
  evolves : Evolves env state.journal next.journal
  writes : RunJournal.Writes permit state.journal next.journal
  control : SameControl state next
  attached : ∀ id ∈ next.attachedTasks, id ∈ state.attachedTasks ∨ ∃ target, permit id target

variable {permit : DagNodeId → DagNodeState → Prop}

theorem works_refl : Works env permit state state :=
  ⟨evolves_refl, RunJournal.writes_refl, ⟨rfl, rfl, rfl, rfl, rfl, rfl⟩, fun _ => Or.inl⟩

theorem Works.trans (first : Works env permit state middle)
    (second : Works env permit middle next) : Works env permit state next where
  evolves := first.evolves.trans second.evolves
  writes := first.writes.trans second.writes
  control := first.control.trans second.control
  attached := by
    intro id member
    rcases second.attached id member with before | permitted
    · exact first.attached id before
    · exact Or.inr permitted

theorem works_journal {journal : RunJournal} (evolves : Evolves env state.journal journal)
    (writes : RunJournal.Writes permit state.journal journal) :
    Works env permit state { state with journal := journal } :=
  ⟨evolves, writes, ⟨rfl, rfl, rfl, rfl, rfl, rfl⟩, fun _ => Or.inl⟩

theorem works_watches : Works env permit state { state with promotionWatches := watches } :=
  ⟨evolves_refl, RunJournal.writes_refl, ⟨rfl, rfl, rfl, rfl, rfl, rfl⟩, fun _ => Or.inl⟩

theorem Works.quiet (works : Works env permit state next) : Quiet env state next :=
  ⟨works.evolves, works.control.pendingAdmission, works.control.phase, works.control.traffic⟩

theorem works_raised : Works env permit state state.raised :=
  works_journal (evolves_staged (RunJournal.staged_thrown state.journal true))
    (RunJournal.writes_staged (RunJournal.staged_thrown state.journal true))

variable (env) {nodeId : DagNodeId}

theorem works_foldPromotion
    (permitted : ∀ node, nodeById state.journal.cache nodeId = some node →
      node.state = .scheduled → permit nodeId .running)
    (running : Bool) : Works env permit state (state.foldPromotion env nodeId running) := by
  unfold foldPromotion
  split
  · exact works_refl
  · have disposed : Works env permit state (state.disposePromotionWatch nodeId) := works_watches
    simp only
    split
    · exact disposed.trans works_raised
    · rename_i node found
      split
      · rename_i isScheduled
        exact disposed.trans (works_journal (RunJournal.evolves_transition env _ _ _ _)
          (RunJournal.writes_transition env (permitted node found isScheduled) .started _))
      · exact disposed

section

variable (schedules : permit nodeId .scheduled) (runs : permit nodeId .running)
include schedules runs

theorem works_foldStartStatus (task : StartedTask) :
    Works env permit state (state.foldStartStatus env nodeId task) := by
  unfold foldStartStatus
  split
  · have noted : Works env permit state (state.noteQueued env nodeId task) := by
      unfold noteQueued
      split
      · exact works_journal (evolves_append _ rfl) (RunJournal.writes_move env schedules _ _ _)
      · exact works_refl
    exact noted.trans ((works_watches).trans
      (works_foldPromotion env (fun _ _ _ => runs) task.runningAtArm))
  · exact works_journal (RunJournal.evolves_transition env _ _ _ _)
      (RunJournal.writes_transition env runs _ _)
  · exact works_refl

theorem works_attachStarted (task : StartedTask) :
    Works env permit state (state.attachStarted env nodeId task) := by
  unfold attachStarted
  split
  · exact works_raised
  · rename_i node _
    simp only
    have attached : Works env permit state (state.onJournal (·.append env
        (.nodeTaskAttached nodeId task.taskId (node.attempt + 1)))) :=
      works_journal (evolves_append _ rfl) (RunJournal.writes_note env rfl _)
    have folded := attached.trans (works_foldStartStatus env schedules runs task)
    split
    · exact folded
    · refine folded.trans ⟨evolves_refl, RunJournal.writes_refl, ⟨rfl, rfl, rfl, rfl, rfl, rfl⟩, ?_⟩
      intro id member
      rcases (mem_setInsert).mp member with before | rfl
      · exact Or.inl before
      · exact Or.inr ⟨.running, runs⟩

theorem works_attachOrFail (fails : permit nodeId .failed) (result : OwnedStartResult) :
    Works env permit state (state.attachOrFail env nodeId result) := by
  have failed : ∀ code message,
      Works env permit state (state.onJournal (·.failNode env nodeId code message)) :=
    fun code message => works_journal (RunJournal.evolves_failNode env _ _ _ _)
      (RunJournal.writes_failNode env fails code message _)
  cases result with
  | ownerConflict taskId => exact works_attachStarted env schedules runs _
  | started task => exact works_attachStarted env schedules runs task
  | residencyDenied => exact works_refl
  | depthDenied reason | planUnresolved message | startFailed message => exact failed _ _

end

/-- What the answers to a batch can do to its nodes. -/
abbrev Answers (batch : List DagNodeId) : DagNodeId → DagNodeState → Prop :=
  Among batch [.scheduled, .running, .failed]

theorem works_foldAnswer (inBatch : entry.1 ∈ batch) (progress : SchedulerState × List DagNodeId) :
    Works env (Answers batch) progress.1 (foldAnswer env progress entry).1 ∧
      ∀ id ∈ (foldAnswer env progress entry).2, id ∈ progress.2 ∨ id ∈ batch := by
  have schedules : Answers batch entry.1 .scheduled := ⟨inBatch, by simp⟩
  have runs : Answers batch entry.1 .running := ⟨inBatch, by simp⟩
  have fails : Answers batch entry.1 .failed := ⟨inBatch, by simp⟩
  have kept : ∀ id ∈ progress.2, id ∈ progress.2 ∨ id ∈ batch := fun id => Or.inl
  unfold foldAnswer
  split
  · exact ⟨works_refl, kept⟩
  split
  · split
    · exact ⟨works_refl, kept⟩
    · exact ⟨works_journal (RunJournal.evolves_failNode env _ _ _ _)
        (RunJournal.writes_failNode env fails _ _ _), kept⟩
  · split
    · split
      · exact ⟨works_attachStarted env schedules runs _, kept⟩
      · exact ⟨works_refl, kept⟩
    · split
      · refine ⟨works_refl, fun id member => ?_⟩
        rcases List.mem_append.mp member with before | isEntry
        · exact Or.inl before
        · exact Or.inr (List.mem_singleton.mp isEntry ▸ inBatch)
      · exact ⟨works_attachOrFail env schedules runs fails _, kept⟩

theorem works_foldAnswers {entries : List (DagNodeId × StartAnswer)}
    (inBatch : ∀ entry ∈ entries, entry.1 ∈ batch) (progress : SchedulerState × List DagNodeId) :
    Works env (Answers batch) progress.1 (entries.foldl (foldAnswer env) progress).1 ∧
      ∀ id ∈ (entries.foldl (foldAnswer env) progress).2, id ∈ progress.2 ∨ id ∈ batch := by
  induction entries generalizing progress with
  | nil => exact ⟨works_refl, fun id => Or.inl⟩
  | cons entry entries ih =>
    obtain ⟨first, firstDenied⟩ := works_foldAnswer env (inBatch entry List.mem_cons_self) progress
    obtain ⟨rest, restDenied⟩ :=
      ih (fun other member => inBatch other (List.mem_cons_of_mem entry member))
        (foldAnswer env progress entry)
    exact ⟨first.trans rest, fun id member =>
      (restDenied id member).elim (firstDenied id) Or.inr⟩

/-- The answers to a batch are folded before the batch is finished. -/
theorem resumeBatch_folds (state : SchedulerState) (batch : List DagNodeId)
    (answers : List StartAnswer) : let heard :=
      { state with
        traffic := state.traffic ++ (batch.zip answers).map fun entry => .answered entry.1 entry.2 }
    ∃ folded denied, (batch.zip answers).foldl (foldAnswer env) (heard, []) = (folded, denied) ∧
      state.resumeBatch env batch answers = folded.finishBatch env denied ∧
      Works env (Answers batch) heard folded ∧ ∀ id ∈ denied, id ∈ batch := by
  obtain ⟨folds, denied⟩ := works_foldAnswers env
    (fun entry (member : entry ∈ batch.zip answers) => (List.of_mem_zip member).1) (_, [])
  exact ⟨_, _, rfl, rfl, folds, fun id member =>
    (denied id member).resolve_left List.not_mem_nil⟩

variable {env}

/-- What a whole step does: either it starts nothing, or it is an admission
pass that starts the parked nodes and those runnable in the snapshot. -/
inductive Turn (env : SchedulerEnv) (state next : SchedulerState) : Prop
  | quiet (evolves : Evolves env state.journal next.journal)
      (queue : ∀ id ∈ next.queued, id ∈ state.queued)
      (traffic : ∀ id record, .startOwned id record ∈ next.traffic →
        .startOwned id record ∈ state.traffic)
  | starts (between : RunJournal) (runnable : List DagNodeId)
      (before : Evolves env state.journal between) (evolves : Evolves env between next.journal)
      (taken : RunJournal.runnableNodes between.cache state.pendingAdmission
        between.cache.nodes = some runnable)
      (others : ∀ id ∉ runnable, stateOf next.journal.durable id = stateOf between.durable id)
      (queue : ∀ id ∈ next.queued, id ∈ state.queued ∨ id ∈ runnable)
      (traffic : ∀ id record, .startOwned id record ∈ next.traffic →
        .startOwned id record ∈ state.traffic ∨
          (record = next.journal.durable ∧ (id ∈ state.queued ∨ id ∈ runnable)))

section

variable (quiet : Quiet env state middle)
include quiet

/-- A quiet part before a change of phase that parks nothing new. -/
theorem Quiet.turn (evolves : Evolves env middle.journal next.journal)
    (queue : ∀ id ∈ next.queued, id ∈ middle.queued) (traffic : next.traffic = middle.traffic) :
    Turn env state next := by
  refine .quiet (quiet.evolves.trans evolves) ?_ ?_
  · intro id member
    have inMiddle := queue id member
    rwa [queued, quiet.pendingAdmission, quiet.phase] at inMiddle
  · intro id record member
    rwa [traffic, quiet.traffic] at member

theorem Quiet.rephased {phase : RunPhase} (noBatch : phase.batch = []) :
    Turn env state
      { middle with
        phase := phase, settlementChanged := signalled, foreignSettlement := foreign } := by
  refine quiet.turn evolves_refl ?_ rfl
  intro id member
  simp only [queued, noBatch, List.append_nil] at member
  exact List.mem_append_left _ member

theorem Quiet.endTurn {phase : RunPhase} (noBatch : phase.batch = []) :
    Turn env state (middle.endTurn phase) := by
  unfold SchedulerState.endTurn
  split
  · exact (quiet.trans quiet_caught).rephased rfl
  · exact quiet.rephased noBatch

theorem Quiet.settleOne (inAdmission : Bool) : Turn env state (middle.settleOne inAdmission) := by
  unfold SchedulerState.settleOne
  split
  · exact quiet.rephased rfl
  · exact quiet.rephased rfl

/-- Dropping what is parked. -/
theorem Turn.of_unparked {journal : RunJournal} {phase : RunPhase}
    (evolves : Evolves env middle.journal journal) (noBatch : phase.batch = []) :
    Turn env state
      (({ middle with journal := journal, pendingAdmission := [] } : SchedulerState).endTurn
        phase) := by
  have turn : ∀ last : SchedulerState, Evolves env middle.journal last.journal →
      last.pendingAdmission = [] → last.phase.batch = [] → last.traffic = middle.traffic →
        Turn env state last := by
    intro last evolves noneParked noneStarting traffic
    refine quiet.turn evolves ?_ traffic
    intro id member
    simp [queued, noneParked, noneStarting] at member
  unfold SchedulerState.endTurn
  split
  · have caughtLater := @quiet_caught env { middle with journal := journal, pendingAdmission := [] }
    exact turn _ (evolves.trans caughtLater.evolves) rfl rfl rfl
  · exact turn _ evolves rfl noBatch rfl

end

theorem Quiet.admitFrontier (quiet : Quiet env state middle) :
    Turn env state (middle.admitFrontier env) := by
  unfold SchedulerState.admitFrontier
  split
  · exact quiet.rephased rfl
  split
  · have raisedLater := @quiet_raised env { middle with pendingAdmission := [] }
    exact @Turn.of_unparked env state middle quiet _ .threw raisedLater.evolves rfl
  · rename_i runnable taken
    split
    · exact quiet.rephased rfl
    · unfold startBatch
      have scheduled : Evolves env middle.journal (scheduleNodes env middle.journal runnable) :=
        RunJournal.evolves_foldl (fun journal id =>
          RunJournal.evolves_transition env journal id _ _) _ _
      have evolves := scheduled.trans (RunJournal.evolves_emitWaveAdmissions env _ runnable)
      simp only
      split
      · exact @Turn.of_unparked env state middle quiet _ .threw evolves rfl
      · rw [quiet.pendingAdmission] at taken ⊢
        have inQueue : ∀ id ∈ state.pendingAdmission ++ runnable,
            id ∈ state.queued ∨ id ∈ runnable := by
          intro id member
          exact (List.mem_append.mp member).imp_left (List.mem_append_left _)
        refine .starts middle.journal runnable quiet.evolves evolves taken ?_ ?_ ?_
        · intro id outside
          have reported : stateOf ((scheduleNodes env middle.journal
              runnable).emitWaveAdmissions env runnable).durable id =
                stateOf (scheduleNodes env middle.journal runnable).durable id :=
            RunJournal.emitWaveAdmissions_others _ id
          refine reported.trans (RunJournal.foldl_others ?_ _)
          intro other member journal
          apply RunJournal.transition_others
          rintro rfl
          exact outside member
        · intro id member
          exact inQueue id member
        · intro id record member
          simp only [List.mem_append, List.mem_map, TaskTraffic.startOwned.injEq,
            quiet.traffic] at member
          rcases member with old | ⟨other, inside, rfl, rfl⟩
          · exact Or.inl old
          · exact Or.inr ⟨rfl, inQueue other (List.mem_append.mpr inside)⟩

theorem Quiet.runFrontier (quiet : Quiet env state middle) :
    Turn env state (middle.runFrontier env) := by
  have cascaded : Quiet env middle (if middle.attachedTasks.isEmpty then
        middle.onJournal (·.applyDependentSkipCascade env) else middle) := by
    split
    · exact quiet_journal (RunJournal.evolves_cascade _ _)
    · exact quiet_refl
  unfold SchedulerState.runFrontier
  split
  · exact quiet.rephased rfl
  · simp only
    have through := quiet.trans cascaded
    generalize (if middle.attachedTasks.isEmpty then
      middle.onJournal (·.applyDependentSkipCascade env) else middle) = later at through
    split
    · exact @Quiet.endTurn env state later through .threw rfl
    · exact (through.trans (quiet_journal
        (RunJournal.evolves_emitCompletedWaves _))).admitFrontier

theorem turn_resumeBatch (before : state.phase = .starting batch) :
    Turn env state (state.resumeBatch env batch answers) := by
  obtain ⟨folded, nextDenied, _, finishes, works, inBatch⟩ :=
    resumeBatch_folds env state batch answers
  have folds := works.quiet
  rw [finishes]
  have turn : ∀ last : SchedulerState, Evolves env folded.journal last.journal →
      last.phase.batch = [] → (∀ id ∈ last.pendingAdmission, id ∈ state.queued) →
        last.traffic = folded.traffic → Turn env state last := by
    intro last evolves noBatch queue traffic
    refine .quiet (folds.evolves.trans evolves) ?_ ?_
    · intro id member
      rw [queued, noBatch, List.append_nil] at member
      exact queue id member
    · intro id record member
      rw [traffic, folds.traffic] at member
      simpa using member
  have parked : ∀ id ∈ folded.pendingAdmission, id ∈ state.queued := by
    intro id member
    rw [folds.pendingAdmission] at member
    exact List.mem_append_left _ member
  have withDenied : ∀ id ∈ folded.pendingAdmission ++ nextDenied, id ∈ state.queued := by
    intro id member
    rcases List.mem_append.mp member with old | isDenied
    · exact parked id old
    · refine List.mem_append_right _ ?_
      rw [before]
      exact inBatch id isDenied
  have failed : Evolves env folded.journal (failDenied env folded.journal nextDenied) :=
    RunJournal.evolves_foldl (fun journal id =>
      RunJournal.evolves_failNode env journal id _ _) _ _
  have ended : ∀ last : SchedulerState, Evolves env folded.journal last.journal →
      ∀ phase : RunPhase, phase.batch = [] → (∀ id ∈ last.pendingAdmission, id ∈ state.queued) →
          last.traffic = folded.traffic → Turn env state (last.endTurn phase) := by
    intro last evolves phase noBatch queue traffic
    unfold SchedulerState.endTurn
    split
    · exact turn _ (evolves.trans quiet_caught.evolves) rfl queue traffic
    · exact turn _ evolves noBatch queue traffic
  unfold finishBatch
  split
  · exact ended _ evolves_refl _ rfl parked rfl
  split
  · exact turn _ evolves_refl rfl parked rfl
  split
  · exact turn _ evolves_refl rfl parked rfl
  split
  · exact ended _ failed _ rfl (fun id member => absurd member List.not_mem_nil) rfl
  · unfold SchedulerState.settleOne
    split
    · exact turn _ evolves_refl rfl withDenied rfl
    · exact turn _ evolves_refl rfl withDenied rfl

theorem turn_foldSettlement :
    Turn env state
      ((state.foldSettlement env nodeId settlement).endTurn (.settled inAdmission)) := by
  have evolves : Evolves env state.journal
      (state.foldSettlement env nodeId settlement).journal := by
    cases settlement with
    | error message => exact RunJournal.evolves_failNode env _ _ _ _
    | record task terminal => exact RunJournal.evolves_foldTaskOutcome env _ _ _
  have fields : (state.foldSettlement env nodeId settlement).pendingAdmission =
        state.pendingAdmission ∧
      (state.foldSettlement env nodeId settlement).traffic =
        state.traffic ++ [.settled nodeId settlement] := by
    cases settlement <;> exact ⟨rfl, rfl⟩
  have turn : ∀ last : SchedulerState, Evolves env state.journal last.journal →
      last.pendingAdmission = state.pendingAdmission → last.phase.batch = [] →
        last.traffic = state.traffic ++ [.settled nodeId settlement] →
          Turn env state last := by
    intro last evolves parked noBatch traffic
    refine .quiet evolves ?_ ?_
    · intro id member
      rw [queued, noBatch, List.append_nil, parked] at member
      exact List.mem_append_left _ member
    · intro id record member
      rw [traffic] at member
      simpa using member
  unfold SchedulerState.endTurn
  split
  · exact turn _ (evolves.trans quiet_caught.evolves) fields.1 rfl fields.2
  · exact turn _ evolves fields.1 rfl fields.2

theorem turn_afterAdmission : Turn env state (state.afterAdmission env) := by
  unfold afterAdmission
  split
  · exact (quiet_journal (RunJournal.evolves_finishRun env _)).endTurn rfl
  split
  · exact quiet_refl.rephased rfl
  · exact quiet_refl.settleOne false

/-- Cancelling tasks starts nothing. -/
theorem turn_cancelTasks : Turn env state (state.cancelTasks reason) := by
  refine .quiet evolves_refl (fun _ => id) ?_
  simp [cancelTasks] at *

/-- Every step that is not a commit or a refresh is a turn. -/
theorem turn_of_step (own : action.isForeign = false) (noRefresh : action ≠ .refresh)
    (taken : schedulerStep env state action = some next) : Turn env state next := by
  cases SchedulerMove.of_step taken with
  | run =>
    refine Quiet.runFrontier ?_
    split
    · exact quiet_journal (evolves_append _ rfl)
    · exact quiet_refl
  | batchAnswered before => exact turn_resumeBatch before
  | admissionReturned => exact turn_afterAdmission
  | settledLate | settlementSignalled | cancellationObserved | cancelledReturned =>
    exact quiet_refl.rephased rfl
  | taskSettled => exact turn_foldSettlement
  | admits => exact quiet_refl.admitFrontier
  | loops => exact quiet_refl.runFrontier
  | @promoted nodeId =>
    have works := @works_foldPromotion env state (fun _ _ => True) nodeId
      (fun _ _ _ => trivial) true
    exact (works.quiet.trans quiet_caught).turn evolves_refl (fun _ => id) rfl
  | cancelIgnored | cancel => exact .quiet evolves_refl (fun _ => id) (fun _ _ => id)
  | admissionIdle => exact turn_cancelTasks
  | @tasksCancelled reason =>
    have cancelled := RunJournal.evolves_finishCancellation env state.journal reason
    have caughtLater := @quiet_caught env
      { state with
        journal := state.journal.finishCancellation env reason
        cancellation := .done }
    exact .quiet (cancelled.trans caughtLater.evolves) (fun _ => id) (fun _ _ => id)
  | refresh => exact absurd rfl noRefresh
  | _ => cases own

/-- The cache is a past state of the record, and whatever is parked, starting
or started has its dependencies completed. -/
structure OrderedStarts (state : SchedulerState) : Prop where
  cached : KeepsTerminal state.journal.cache state.journal.durable
  ready : ∀ id ∈ state.queued, DepsCompleted state.journal.durable id
  started : ∀ id record, .startOwned id record ∈ state.traffic → DepsCompleted record id

theorem keepsTerminal_refl : KeepsTerminal record record :=
  ⟨fun _ _ isFound _ => isFound, fun _ => rfl⟩

/-- The cache after some changes. -/
theorem cached_of_evolves {journal : RunJournal} (evolves : Evolves env journal later)
    (cached : KeepsTerminal journal.cache journal.durable) :
    KeepsTerminal later.cache later.durable := by
  rcases evolves.touched with ⟨durable, cache⟩ | synced
  · rw [durable, cache]
    exact cached
  · rw [synced]
    exact keepsTerminal_refl

/-- The nodes found runnable in a snapshot have their dependencies completed
in the record behind the pass. -/
theorem depsCompleted_of_runnable (before : Evolves env state.journal between)
    (evolves : Evolves env between later)
    (cached : KeepsTerminal state.journal.cache state.journal.durable)
    (keeps : KeepsTerminal state.journal.durable later.durable)
    (taken : RunJournal.runnableNodes between.cache denied between.cache.nodes = some runnable)
    (others : ∀ id ∉ runnable, stateOf later.durable id = stateOf between.durable id)
    {id : DagNodeId} (member : id ∈ runnable) : DepsCompleted later.durable id := by
  obtain ⟨runs, _⟩ := RunJournal.isRunnable_of_mem_runnableNodes taken member
  obtain ⟨_, completed⟩ := RunJournal.depsCompleted_of_isRunnable runs
  rcases before.touched with ⟨_, cache⟩ | synced
  · -- nothing was read since the step began, so the snapshot is its cache
    rw [cache] at completed
    exact (completed.mono cached).mono keeps
  · rw [synced] at completed
    intro dep depMember
    rw [depsOf_of_skeleton evolves.skeleton_eq] at depMember
    have isCompleted := completed dep depMember
    rw [others dep, isCompleted]
    intro inside
    obtain ⟨depRuns, _⟩ := RunJournal.isRunnable_of_mem_runnableNodes taken inside
    obtain ⟨⟨found, isFound, waiting⟩, _⟩ := RunJournal.depsCompleted_of_isRunnable depRuns
    rw [synced, isCompleted] at isFound
    cases isFound
    cases waiting

theorem OrderedStarts.turn (ordered : state.OrderedStarts)
    (keeps : KeepsTerminal state.journal.durable next.journal.durable)
    (turn : Turn env state next) : next.OrderedStarts := by
  cases turn with
  | quiet evolves queue traffic =>
    exact
      { cached := cached_of_evolves evolves ordered.cached
        ready := fun id member => (ordered.ready id (queue id member)).mono keeps
        started := fun id record member =>
          ordered.started id record (traffic id record member) }
  | starts between runnable before evolves taken others queue traffic =>
    have ready : ∀ id, id ∈ state.queued ∨ id ∈ runnable →
        DepsCompleted next.journal.durable id := by
      rintro id (old | fresh)
      · exact (ordered.ready id old).mono keeps
      · exact depsCompleted_of_runnable before evolves ordered.cached keeps taken others fresh
    exact
      { cached := cached_of_evolves (before.trans evolves) ordered.cached
        ready := fun id member => ready id (queue id member)
        started := by
          intro id record member
          rcases traffic id record member with old | ⟨rfl, known⟩
          · exact ordered.started id record old
          · exact ready id known }

/-- A step in which no node leaves a terminal state keeps the starts in
order. -/
theorem OrderedStarts.step (ordered : state.OrderedStarts)
    (keeps : KeepsTerminal state.journal.durable next.journal.durable)
    (taken : schedulerStep env state action = some next) : next.OrderedStarts := by
  have refreshed : ∀ {foreign signalled : Bool}, OrderedStarts
      { state with
        journal := state.journal.refresh
        foreignSettlement := foreign
        settlementChanged := signalled } :=
    ⟨keepsTerminal_refl, ordered.ready, ordered.started⟩
  cases action with
  | foreignCommit record =>
    cases taken
    exact
      { cached :=
          { states := fun id found isFound terminal =>
              keeps.states id found (ordered.cached.states id found isFound terminal) terminal
            deps := fun id => (keeps.deps id).trans (ordered.cached.deps id) }
        ready := fun id member => (ordered.ready id member).mono keeps
        started := ordered.started }
  | foreignEvent event =>
    cases taken
    unfold onForeignEvent
    split
    · split
      · split
        · exact refreshed
        · exact refreshed
      · exact refreshed
    · exact ordered
  | refresh =>
    cases taken
    exact refreshed
  | _ => exact ordered.turn keeps (turn_of_step rfl (by simp) taken)

end SchedulerState

/-- In every run in which no node leaves a terminal state, every call of
`startOwned` finds the dependencies of its node completed. -/
theorem depsCompleted_of_execute {record : DagRunRecordV1} {files : ResultFiles}
    {preAttachedTasks : List (DagNodeId × String)} {env : SchedulerEnv}
    {actions : List SchedulerAction} {final : SchedulerState}
    (reached : execute (schedulerStep env)
      (SchedulerState.initial record files preAttachedTasks) actions = some final)
    (everyStep : EveryStep (schedulerStep env)
      (fun state _ next => KeepsTerminal state.journal.durable next.journal.durable)
      (SchedulerState.initial record files preAttachedTasks) actions) :
    ∀ id snapshot, .startOwned id snapshot ∈ final.traffic → DepsCompleted snapshot id := by
  have attaches : ∀ (entries : List (DagNodeId × String)) (state : SchedulerState),
      state.OrderedStarts →
        (entries.foldl (fun state entry => state.attachTaskSettlement entry.1 entry.2)
          state).OrderedStarts := by
    intro entries
    induction entries with
    | nil => exact fun _ ordered => ordered
    | cons entry entries ih =>
      exact fun state ordered => ih _ ⟨ordered.cached, ordered.ready, ordered.started⟩
  have initially : (SchedulerState.initial record files preAttachedTasks).OrderedStarts := by
    apply attaches
    exact
      { cached := SchedulerState.keepsTerminal_refl
        ready := fun id member => absurd member List.not_mem_nil
        started := fun id snapshot member => absurd member List.not_mem_nil }
  have preserved : ∀ state action next, state.OrderedStarts →
      KeepsTerminal state.journal.durable next.journal.durable →
        schedulerStep env state action = some next → next.OrderedStarts :=
    fun state action next ordered keeps taken => ordered.step keeps taken
  have ordered := invariant_of_execute preserved initially reached everyStep
  exact ordered.started

/-- A scheduler that is alone on its run keeps its graph. -/
theorem SchedulerState.skeleton_of_step (own : action.isForeign = false)
    (taken : schedulerStep env state action = some next) :
    skeleton next.journal.durable = skeleton state.journal.durable := by
  by_cases refreshes : action = .refresh
  · subst refreshes
    cases taken
    rfl
  · cases SchedulerState.turn_of_step own refreshes taken with
    | quiet evolves => exact evolves.skeleton_eq
    | starts between runnable before evolves => exact (before.trans evolves).skeleton_eq

/-- A scheduler that is alone on its run moves no terminal node. -/
theorem SchedulerState.Invariant.keepsTerminal (invariant : state.Invariant rank)
    (own : action.isForeign = false) (taken : schedulerStep env state action = some next) :
    KeepsTerminal state.journal.durable next.journal.durable := by
  have ownStep := invariant.ownStep own taken
  exact ⟨fun id found isFound terminal => invariant.terminal_kept ownStep isFound terminal,
    depsOf_of_skeleton (skeleton_of_step own taken)⟩

/-- The second of two nodes in a row is started once the first has
completed. -/
theorem depsCompleted_chain :
    ∃ final, execute (schedulerStep sampleEnv) (chainStart.scheduler noFiles) chainRun =
        some final ∧
      final.traffic.length = 6 ∧
      ∀ id snapshot, .startOwned id snapshot ∈ final.traffic → DepsCompleted snapshot id := by
  obtain ⟨final, reached, six⟩ :
      ∃ final, execute (schedulerStep sampleEnv) (chainStart.scheduler noFiles) chainRun =
        some final ∧ final.traffic.length = 6 := by
    decide +kernel
  obtain ⟨rank, initially⟩ := chainStart.invariant (by decide +kernel) noFiles
  refine ⟨final, reached, six, depsCompleted_of_execute reached ?_⟩
  refine everyStep_of_invariant ?_ initially
  intro action member state next invariant taken
  have own : action.isForeign = false := by
    simp only [chainRun, List.mem_cons, List.not_mem_nil, or_false] at member
    rcases member with rfl | rfl | rfl | rfl | rfl | rfl | rfl | rfl | rfl | rfl <;> rfl
  exact ⟨invariant.keepsTerminal own taken, invariant.step (invariant.ownStep own taken)⟩

end OpenAgent.Dag
