import OpenAgent.Dag.SharedRuns

/-!
# The account of a run

The nodes of a run are accounted for when none is cancelled and a skipped one goes
back to a failed one.  The scheduler keeps the account while it sees the record it
decides by; what the other instances may commit beside it is stated here.
-/

namespace OpenAgent.Dag

open Library

/-- No node is cancelled, and beside a skipped node there is a failed one that the
scheduler does not hold. -/
def Accounted (held : List DagNodeId) (record : DagRunRecordV1) : Prop :=
  (∀ node ∈ record.nodes, node.state ≠ .cancelled) ∧
    ((∃ node ∈ record.nodes, node.state = .skipped) →
      ∃ node ∈ record.nodes, node.state = .failed ∧ node.id ∉ held)
  deriving Decidable

section

variable (record : DagRunRecordV1)

/-- The node is not failed, or nothing is skipped. -/
def SparesFailed (nodeId : DagNodeId) : Prop :=
  (∃ node ∈ record.nodes, node.id = nodeId ∧ node.state = .failed) →
    ∀ node ∈ record.nodes, node.state ≠ .skipped

instance (nodeId : DagNodeId) : Decidable (SparesFailed record nodeId) :=
  inferInstanceAs (Decidable (_ → _))

/-- The commit cancels and skips nothing, and takes no failed node back while some
node is skipped. -/
def HarmlessCommit : DagRunEventPayload → Prop
  | .nodeTransitioned nodeId _ target _ =>
    target ≠ .cancelled ∧ target ≠ .skipped ∧ SparesFailed record nodeId
  | .nodeRetried nodeId _ _ _ => SparesFailed record nodeId
  | _ => True

instance : DecidablePred (HarmlessCommit record) := by
  intro payload
  unfold HarmlessCommit
  split <;> infer_instance

end

/-- The scheduler has seen the record when it looks for work or for the end of the
run.  While its call of `run` is under way, other instances commit nothing but
harmless events, and no amendment that has read a cancelled or skipped node; a new
scheduler finds the record accounted for. -/
def KeepsAccount (state : SchedulerState) : SharedAction → Prop
  | .scheduler .run | .scheduler .settleReturned | .scheduler .admissionReturned =>
    state.journal.cache = state.journal.durable
  | .scheduler _ | .lease _ _ _ _ => True
  | .commit _ payload =>
    state.isDecided = true ∨ HarmlessCommit state.journal.durable payload
  | .amend read _ =>
    state.isDecided = true ∨
      ∀ node ∈ read.nodes, node.state ≠ .cancelled ∧ node.state ≠ .skipped
  | .reenter preAttachedTasks =>
    Accounted (preAttachedTasks.map (·.1)) state.journal.durable

instance (state : SchedulerState) : DecidablePred (KeepsAccount state) := by
  intro action
  unfold KeepsAccount
  split <;> infer_instance

section Accounts

variable {held heldLater fewer : List DagNodeId} {record before after : DagRunRecordV1}
variable {permit : DagNodeId → DagNodeState → Prop}

/-- The account in terms of the states. -/
theorem accounted_iff (charted : Charted record) :
    Accounted held record ↔
      (∀ id, stateOf record id ≠ some .cancelled) ∧ ((∃ id, stateOf record id = some .skipped) →
          ∃ id ∉ held, stateOf record id = some .failed) := by
  have known : ∀ node ∈ record.nodes, stateOf record node.id = some node.state :=
    fun node member => stateOf_of_mem charted.nodup member
  constructor
  · rintro ⟨noneCancelled, backed⟩
    refine ⟨?_, ?_⟩
    · intro id isCancelled
      obtain ⟨node, member, _, isState, _⟩ := exists_of_stateOf isCancelled
      exact noneCancelled node member isState
    · rintro ⟨id, isSkipped⟩
      obtain ⟨node, member, _, isState, _⟩ := exists_of_stateOf isSkipped
      obtain ⟨failed, failedMember, isFailed, notHeld⟩ := backed ⟨node, member, isState⟩
      exact ⟨failed.id, notHeld, isFailed ▸ known failed failedMember⟩
  · rintro ⟨noneCancelled, backed⟩
    refine ⟨?_, ?_⟩
    · intro node member isCancelled
      exact noneCancelled node.id (isCancelled ▸ known node member)
    · rintro ⟨node, member, isSkipped⟩
      obtain ⟨id, notHeld, isFailed⟩ := backed ⟨node.id, isSkipped ▸ known node member⟩
      obtain ⟨failed, failedMember, isId, isState, _⟩ := exists_of_stateOf isFailed
      exact ⟨failed, failedMember, isState, isId ▸ notHeld⟩

theorem Accounted.mono (accounted : Accounted held record) (subset : ∀ id ∈ fewer, id ∈ held) :
    Accounted fewer record := by
  refine ⟨accounted.1, fun skipped => ?_⟩
  obtain ⟨node, member, isFailed, notHeld⟩ := accounted.2 skipped
  exact ⟨node, member, isFailed, fun inFewer => notHeld (subset node.id inFewer)⟩

/-- Moves that cancel and skip nothing and that leave the failed nodes alone, if
these are not held. -/
theorem Accounted.rewritten (accounted : Accounted held before) (charted : Charted before)
    (rewritten : Rewritten permit before after)
    (harmless : ∀ id target, permit id target → target ≠ .cancelled ∧ target ≠ .skipped)
    (spares : (∃ id, stateOf before id = some .skipped) → ∀ id ∉ held,
      stateOf before id = some .failed → id ∉ heldLater ∧ ∀ target, ¬ permit id target) :
    Accounted heldLater after := by
  rw [accounted_iff charted] at accounted
  rw [accounted_iff (charted.of_skeleton rewritten.skeleton_eq)]
  refine ⟨?_, ?_⟩
  · intro id isCancelled
    rcases rewritten.moved id _ isCancelled with earlier | permitted
    · exact accounted.1 id earlier
    · exact (harmless id _ permitted).1 rfl
  · rintro ⟨id, isSkipped⟩
    rcases rewritten.moved id _ isSkipped with earlier | permitted
    · obtain ⟨failed, notHeld, isFailed⟩ := accounted.2 ⟨id, earlier⟩
      obtain ⟨stillFree, untouched⟩ := spares ⟨id, earlier⟩ failed notHeld isFailed
      exact ⟨failed, stillFree, (rewritten.others failed untouched).trans isFailed⟩
    · exact absurd rfl (harmless id _ permitted).2

/-- Moves of nodes that are held. -/
theorem Accounted.handled (accounted : Accounted held before) (charted : Charted before)
    (inHand : ∀ id ∈ ids, id ∈ held)
    (harmless : ∀ target ∈ targets, target ≠ .cancelled ∧ target ≠ .skipped)
    (rewritten : Rewritten (SchedulerState.Among ids targets) before after) :
    Accounted held after :=
  accounted.rewritten charted rewritten
    (fun _ target permitted => harmless target permitted.2)
    fun _ id notHeld _ => ⟨notHeld, fun _ permitted => notHeld (inHand id permitted.1)⟩

/-- Skips behind nodes that ended without completing. -/
theorem Accounted.skips (accounted : Accounted [] before) (charted : Charted before)
    (rewritten : Rewritten (RunJournal.SkipsIn before) before after) : Accounted [] after := by
  rw [accounted_iff charted] at accounted
  rw [accounted_iff (charted.of_skeleton rewritten.skeleton_eq)]
  have kept : ∀ failed, stateOf before failed = some .failed →
      stateOf after failed = some .failed := by
    intro failed isFailed
    refine (rewritten.others failed ?_).trans isFailed
    rintro target ⟨_, node, member, isId, isWaiting, _⟩
    rw [← isId, stateOf_of_mem charted.nodup member, Option.some.injEq] at isFailed
    rw [isFailed] at isWaiting
    cases isWaiting
  refine ⟨?_, ?_⟩
  · intro id isCancelled
    rcases rewritten.moved id _ isCancelled with earlier | ⟨impossible, _⟩
    · exact accounted.1 id earlier
    · cases impossible
  · rintro ⟨id, isSkipped⟩
    have anyFailed : ∃ failed ∉ ([] : List DagNodeId), stateOf before failed = some .failed := by
      rcases rewritten.moved id _ isSkipped with earlier | ⟨_, node, _, _, _, behind⟩
      · exact accounted.2 ⟨id, earlier⟩
      · obtain ⟨dep, ended, isEnded, terminal, notCompleted⟩ :=
          RunJournal.exists_failed_of_hasFailedDependency behind
        cases ended with
        | failed => exact ⟨dep, List.not_mem_nil, isEnded⟩
        | skipped => exact accounted.2 ⟨dep, isEnded⟩
        | cancelled => exact absurd isEnded (accounted.1 dep)
        | completed => exact absurd rfl notCompleted
        | _ => cases terminal
    obtain ⟨failed, notHeld, isFailed⟩ := anyFailed
    exact ⟨failed, notHeld, kept failed isFailed⟩

end Accounts

namespace SchedulerState

section

variable (state : SchedulerState)

/-- Nodes are only parked inside the admission loop. -/
def ParkedInAdmission : Prop :=
  match state.phase with
  | .settling true | .settled true | .cancelling | .finished | .threw => True
  | _ => state.pendingAdmission = []

/-- The account while a call of `run` is under way. -/
structure Accountable : Prop where
  accounted : Accounted state.holders state.journal.durable
  parked : state.ParkedInAdmission
  watched : ∀ id ∈ state.promotionWatches, id ∈ state.attachedTasks

/-- The run is decided, or its nodes are accounted for. -/
def OnAccount : Prop :=
  state.isDecided = true ∨ state.Accountable

end

section Turns

open RunJournal (Writes)

variable {env : SchedulerEnv} {state next : SchedulerState} {held : List DagNodeId}

theorem onAccount_of_phase
    (ended : state.phase = .cancelling ∨ state.phase = .threw ∨ state.phase = .finished) :
    state.OnAccount := by
  left
  unfold isDecided
  rcases ended with isPhase | isPhase | isPhase <;> rw [isPhase]

theorem holders_of_noBatch (noBatch : state.phase.batch = []) :
    state.holders = state.attachedTasks ++ state.pendingAdmission := by
  rw [holders, noBatch, List.append_nil]

/-- The end of a turn that may have thrown. -/
theorem onAccount_endTurn {phase : RunPhase}
    (account : state.journal.thrown = false → ({ state with phase := phase }).OnAccount) :
    (state.endTurn phase).OnAccount := by
  unfold endTurn
  split
  · exact onAccount_of_phase (Or.inr (Or.inl rfl))
  · rename_i unthrown
    exact account (Bool.eq_false_iff.mpr unthrown)

theorem onAccount_settleOne
    (accounted : Accounted (state.attachedTasks ++ state.pendingAdmission) state.journal.durable)
    (watched : ∀ id ∈ state.promotionWatches, id ∈ state.attachedTasks) {inAdmission : Bool}
    (parked : inAdmission = false → state.pendingAdmission = []) :
    (state.settleOne inAdmission).OnAccount := by
  right
  unfold settleOne
  split
  · refine ⟨?_, ?_, watched⟩
    · rw [holders_of_noBatch rfl]
      exact accounted
    · cases inAdmission with
      | true => trivial
      | false => exact parked rfl
  · refine ⟨?_, ?_, watched⟩
    · rw [holders_of_noBatch rfl]
      exact accounted
    · cases inAdmission with
      | true => trivial
      | false => exact parked rfl

/-- The nodes that an admission pass takes up are waiting, so no failed node is
among them. -/
theorem onAccount_admitFrontier (charted : Charted state.journal.durable)
    (synced : state.journal.cache = state.journal.durable)
    (accounted : Accounted (state.attachedTasks ++ state.pendingAdmission) state.journal.durable)
    (watched : ∀ id ∈ state.promotionWatches, id ∈ state.attachedTasks) :
    (state.admitFrontier env).OnAccount := by
  unfold admitFrontier
  split
  · exact onAccount_of_phase (Or.inl rfl)
  split
  · exact onAccount_of_phase (Or.inr (Or.inl endTurn_threw))
  · rename_i runnable taken
    split
    · rename_i nothing
      rw [Bool.and_eq_true, List.isEmpty_iff] at nothing
      right
      refine ⟨?_, nothing.1, watched⟩
      rw [holders_of_noBatch rfl]
      exact accounted
    · have waits : ∀ id ∈ runnable, Waiting state.journal.durable id := by
        intro id member
        rw [← synced]
        exact (RunJournal.depsCompleted_of_isRunnable
          (RunJournal.isRunnable_of_mem_runnableNodes taken member).1).1
      have writes := (@writes_startBatch (Among runnable [.scheduled]) state env
        state.pendingAdmission runnable fun id member => ⟨member, by simp⟩).1
      unfold startBatch
      simp only
      split
      · exact onAccount_of_phase (Or.inr (Or.inl endTurn_threw))
      · right
        have notRunnable : ∀ id, stateOf state.journal.durable id = some .failed →
            id ∉ runnable := by
          intro id isFailed member
          obtain ⟨found, isFound, isWaiting⟩ := waits id member
          rw [isFailed, Option.some.injEq] at isFound
          rw [← isFound] at isWaiting
          cases isWaiting
        refine ⟨accounted.rewritten charted writes.record ?_ ?_, rfl, watched⟩
        · rintro id target ⟨_, isScheduled⟩
          rw [List.mem_singleton.mp isScheduled]
          exact ⟨by simp, by simp⟩
        · intro _ id notHeld isFailed
          have free := notRunnable id isFailed
          refine ⟨?_, fun target permitted => free permitted.1⟩
          simp only [holders, RunPhase.batch, List.append_nil, List.mem_append, not_or] at notHeld ⊢
          exact ⟨notHeld.1, notHeld.2, free⟩

theorem accounted_cascade {journal : RunJournal} (charted : Charted journal.durable)
    (synced : journal.cache = journal.durable) (accounted : Accounted [] journal.durable) :
    Accounted [] (RunJournal.cascade env fuel journal).durable := by
  have holds := @RunJournal.cascade_keeps env
    (fun journal => Charted journal.durable ∧ journal.cache = journal.durable ∧
      Accounted [] journal.durable)
    (by
      rintro journal ⟨charted, synced, accounted⟩
      have writes := RunJournal.writes_cascadePass env journal
      have record := writes.record
      rw [synced] at record
      exact ⟨charted.of_skeleton record.skeleton_eq, writes.synced synced,
        accounted.skips charted record⟩)
    journal ⟨charted, synced, accounted⟩ fuel
  exact holds.2.2

theorem onAccount_runFrontier (charted : Charted state.journal.durable)
    (synced : state.journal.cache = state.journal.durable)
    (accounted : Accounted state.attachedTasks state.journal.durable)
    (noneParked : state.pendingAdmission = [])
    (watched : ∀ id ∈ state.promotionWatches, id ∈ state.attachedTasks) :
    (state.runFrontier env).OnAccount := by
  unfold runFrontier
  split
  · exact onAccount_of_phase (Or.inl rfl)
  simp only
  have cascaded : ∃ journal : RunJournal, (if state.attachedTasks.isEmpty then
        state.onJournal (·.applyDependentSkipCascade env) else state) =
          { state with journal := journal } ∧
      Charted journal.durable ∧ journal.cache = journal.durable ∧
        Accounted state.attachedTasks journal.durable := by
    split
    · rename_i noneAttached
      have isEmpty := List.isEmpty_iff.mp noneAttached
      rw [isEmpty] at accounted
      have writes := writes_cascade env (state.journal.cache.nodes.length + 2) state.journal
      exact ⟨_, rfl, charted.of_skeleton writes.record.skeleton_eq, writes.synced synced,
        isEmpty ▸ accounted_cascade charted synced accounted⟩
    · exact ⟨state.journal, rfl, charted, synced, accounted⟩
  obtain ⟨journal, isLater, chartedLater, syncedLater, accountedLater⟩ := cascaded
  rw [isLater]
  split
  · exact onAccount_of_phase (Or.inr (Or.inl endTurn_threw))
  · have reported : Writes (fun _ _ => False) journal (journal.emitCompletedWaves env) :=
      RunJournal.writes_emitCompletedWaves env journal
    refine onAccount_admitFrontier (chartedLater.of_skeleton reported.record.skeleton_eq)
      (reported.synced syncedLater) ?_ watched
    change Accounted (state.attachedTasks ++ state.pendingAdmission) _
    rw [noneParked, List.append_nil]
    exact accountedLater.rewritten chartedLater reported.record
      (fun _ _ impossible => impossible.elim) fun _ _ notHeld _ => ⟨notHeld, fun _ => id⟩

/-- The turn has thrown, or every watched node has its task attached. -/
def WatchesAttached (state : SchedulerState) : Prop :=
  state.journal.thrown = true ∨ ∀ id ∈ state.promotionWatches, id ∈ state.attachedTasks

theorem foldPromotion_tracks (nodeId : DagNodeId) (running : Bool) :
    (∀ id ∈ (state.foldPromotion env nodeId running).promotionWatches,
        id ∈ state.promotionWatches) ∧
      (state.foldPromotion env nodeId running).attachedTasks = state.attachedTasks := by
  have disposed : ∀ id ∈ state.promotionWatches.filter (· != nodeId),
      id ∈ state.promotionWatches := fun id member => (List.mem_filter.mp member).1
  unfold foldPromotion
  split
  · exact ⟨fun _ => id, rfl⟩
  · simp only
    split
    · exact ⟨disposed, rfl⟩
    · split
      · exact ⟨disposed, rfl⟩
      · exact ⟨disposed, rfl⟩

theorem foldStartStatus_tracks (nodeId : DagNodeId) (task : StartedTask) :
    (∀ id ∈ (state.foldStartStatus env nodeId task).promotionWatches,
        id ∈ state.promotionWatches ∨ id = nodeId) ∧
      (state.foldStartStatus env nodeId task).attachedTasks = state.attachedTasks := by
  unfold foldStartStatus
  split
  · have noted : (state.noteQueued env nodeId task).promotionWatches = state.promotionWatches ∧
        (state.noteQueued env nodeId task).attachedTasks = state.attachedTasks := by
      unfold noteQueued
      split <;> exact ⟨rfl, rfl⟩
    refine ⟨?_, (foldPromotion_tracks nodeId task.runningAtArm).2.trans noted.2⟩
    intro id member
    have watched := (foldPromotion_tracks nodeId task.runningAtArm).1 id member
    rcases mem_setInsert.mp watched with before | isNode
    · rw [disposePromotionWatch, noted.1] at before
      exact Or.inl (List.mem_filter.mp before).1
    · exact Or.inr isNode
  · exact ⟨fun _ => Or.inl, rfl⟩
  · exact ⟨fun _ => Or.inl, rfl⟩

theorem watchesAttached_attachStarted
    (watched : ∀ id ∈ state.promotionWatches, id ∈ state.attachedTasks) :
    (state.attachStarted env nodeId task).WatchesAttached := by
  unfold attachStarted
  split
  · exact Or.inl rfl
  · rename_i node _
    simp only
    obtain ⟨watches, attached⟩ := @foldStartStatus_tracks env (state.onJournal (·.append env
      (.nodeTaskAttached nodeId task.taskId (node.attempt + 1)))) nodeId task
    split
    · rename_i thrown
      exact Or.inl thrown
    · right
      intro id member
      refine mem_setInsert.mpr ?_
      rw [attached]
      rcases watches id member with before | isNode
      · exact Or.inl (watched id before)
      · exact Or.inr isNode

theorem watchesAttached_foldAnswer (tracks : progress.1.WatchesAttached) :
    (foldAnswer env progress entry).1.WatchesAttached := by
  unfold foldAnswer
  split
  · exact tracks
  rename_i unthrown
  have watched := tracks.resolve_left unthrown
  split
  · split
    · exact tracks
    · exact Or.inr watched
  · rename_i result _
    split
    · split
      · exact watchesAttached_attachStarted watched
      · exact tracks
    · split
      · exact tracks
      · cases result with
        | ownerConflict taskId | started task => exact watchesAttached_attachStarted watched
        | residencyDenied => exact tracks
        | depthDenied reason | planUnresolved message | startFailed message => exact Or.inr watched

theorem watchesAttached_foldAnswers (entries : List (DagNodeId × StartAnswer))
    (tracks : progress.1.WatchesAttached) :
    (entries.foldl (foldAnswer env) progress).1.WatchesAttached := by
  induction entries generalizing progress with
  | nil => exact tracks
  | cons entry entries ih => exact ih (watchesAttached_foldAnswer tracks)

theorem onAccount_finishBatch {denied batch : List DagNodeId}
    (charted : Charted state.journal.durable)
    (accounted : Accounted (state.attachedTasks ++ batch) state.journal.durable)
    (inBatch : ∀ id ∈ denied, id ∈ batch) (noneParked : state.pendingAdmission = [])
    (tracks : state.WatchesAttached) : (state.finishBatch env denied).OnAccount := by
  unfold finishBatch
  split
  · exact onAccount_of_phase (Or.inr (Or.inl endTurn_threw))
  rename_i unthrown
  have watched := tracks.resolve_left unthrown
  split
  · exact onAccount_of_phase (Or.inl rfl)
  split
  · right
    refine ⟨?_, noneParked, watched⟩
    rw [holders_of_noBatch rfl, noneParked, List.append_nil]
    exact accounted.mono fun id => List.mem_append_left batch
  split
  · refine onAccount_endTurn fun _ => Or.inr ⟨?_, rfl, watched⟩
    have writes := @writes_failDenied (Among denied [.failed]) env denied
      (fun id member => ⟨member, by simp⟩) state.journal
    have kept := accounted.handled charted
      (fun id member => List.mem_append_right _ (inBatch id member)) (by simp) writes.record
    rw [holders_of_noBatch rfl]
    exact kept.mono fun id member => List.mem_append_left batch (by simpa using member)
  · refine @onAccount_settleOne
      { state with pendingAdmission := state.pendingAdmission ++ denied } ?_ watched true
      fun impossible => nomatch impossible
    refine accounted.mono fun id member => ?_
    rw [noneParked] at member
    rcases List.mem_append.mp member with attached | isDenied
    · exact List.mem_append_left _ attached
    · exact List.mem_append_right _ (inBatch id isDenied)

theorem onAccount_resumeBatch {batch : List DagNodeId} (charted : Charted state.journal.durable)
    (accountable : state.Accountable) (before : state.phase = .starting batch) :
    (state.resumeBatch env batch answers).OnAccount := by
  have noneParked : state.pendingAdmission = [] := by
    have parked := accountable.parked
    rwa [ParkedInAdmission, before] at parked
  have accounted := accountable.accounted
  rw [holders, before, noneParked, List.append_nil] at accounted
  obtain ⟨folded, denied, isFolded, finishes, folds, inBatch⟩ :=
    resumeBatch_folds env state batch answers
  have tracks : (folded, denied).1.WatchesAttached := by
    rw [← isFolded]
    exact watchesAttached_foldAnswers _ (Or.inr accountable.watched)
  rw [finishes]
  have kept := accounted.handled charted (fun id => List.mem_append_right _) (by simp)
    folds.writes.record
  refine @onAccount_finishBatch env folded denied batch
    (charted.of_skeleton folds.writes.record.skeleton_eq) ?_ inBatch
    (folds.control.pendingAdmission.trans noneParked) tracks
  refine kept.mono fun id member => ?_
  rcases List.mem_append.mp member with attached | starting
  · rcases folds.attached id attached with earlier | ⟨target, answered⟩
    · exact List.mem_append_left _ earlier
    · exact List.mem_append_right _ answered.1
  · exact List.mem_append_right _ starting

theorem onAccount_foldSettlement {nodeId : DagNodeId} {inAdmission : Bool}
    (charted : Charted state.journal.durable) (accountable : state.Accountable)
    (before : state.phase = .settling inAdmission) (attached : nodeId ∈ state.attachedTasks) :
    ((state.foldSettlement env nodeId settlement).endTurn (.settled inAdmission)).OnAccount := by
  have writes := @writes_foldSettlement state env nodeId settlement
  have kept := accountable.accounted.handled charted
    (fun id member => List.mem_append_left _ (List.mem_append_left _
      (List.mem_singleton.mp member ▸ attached))) (by simp) writes.record
  have fields : (state.foldSettlement env nodeId settlement).attachedTasks =
        state.attachedTasks.erase nodeId ∧
      (state.foldSettlement env nodeId settlement).pendingAdmission = state.pendingAdmission ∧
      (state.foldSettlement env nodeId settlement).promotionWatches =
        state.promotionWatches.filter (· != nodeId) := by
    cases settlement <;> exact ⟨rfl, rfl, rfl⟩
  refine onAccount_endTurn fun _ => Or.inr ⟨?_, ?_, ?_⟩
  · rw [holders_of_noBatch rfl]
    refine kept.mono fun id member => ?_
    rw [holders_of_noBatch (by rw [before]; rfl)]
    simp only [fields.1, fields.2.1] at member
    rcases List.mem_append.mp member with stillAttached | parked
    · exact List.mem_append_left _ (List.mem_of_mem_erase stillAttached)
    · exact List.mem_append_right _ parked
  · have parked := accountable.parked
    rw [ParkedInAdmission, before] at parked
    cases inAdmission with
    | true => trivial
    | false => exact fields.2.1.trans parked
  · intro id member
    simp only [fields.1, fields.2.2] at member ⊢
    obtain ⟨watched, different⟩ := List.mem_filter.mp member
    exact (List.mem_erase_of_ne (by simpa using different)).mpr (accountable.watched id watched)

theorem onAccount_foldPromotion {nodeId : DagNodeId} (charted : Charted state.journal.durable)
    (accountable : state.Accountable) (watched : nodeId ∈ state.promotionWatches) :
    (state.foldPromotion env nodeId true).caught.OnAccount := by
  have works := @works_foldPromotion env state (Among [nodeId] [.running]) nodeId
    (fun _ _ _ => by simp [Among]) true
  obtain ⟨watches, attached⟩ := @foldPromotion_tracks env state nodeId true
  have kept := accountable.accounted.handled charted
    (fun id member => List.mem_append_left _ (List.mem_append_left _
      (List.mem_singleton.mp member ▸ accountable.watched nodeId watched))) (by simp)
    works.writes.record
  right
  refine ⟨?_, ?_, ?_⟩
  · have same : (state.foldPromotion env nodeId true).caught.holders = state.holders := by
      change (state.foldPromotion env nodeId true).attachedTasks ++
        (state.foldPromotion env nodeId true).pendingAdmission ++
          (state.foldPromotion env nodeId true).phase.batch = _
      rw [attached, works.control.pendingAdmission, works.control.phase, holders]
    rw [same]
    exact kept
  · have parked := accountable.parked
    change match (state.foldPromotion env nodeId true).phase with
      | .settling true | .settled true | .cancelling | .finished | .threw => True
      | _ => (state.foldPromotion env nodeId true).pendingAdmission = []
    rw [works.control.phase, works.control.pendingAdmission]
    exact parked
  · intro id member
    change id ∈ (state.foldPromotion env nodeId true).attachedTasks
    rw [attached]
    exact accountable.watched id (watches id member)

theorem onAccount_afterAdmission (accountable : state.Accountable)
    (before : state.phase = .admitted) : (state.afterAdmission env).OnAccount := by
  have noneParked : state.pendingAdmission = [] := by
    have parked := accountable.parked
    rwa [ParkedInAdmission, before] at parked
  unfold afterAdmission
  split
  · unfold endTurn
    split
    · exact onAccount_of_phase (Or.inr (Or.inl rfl))
    · exact onAccount_of_phase (Or.inr (Or.inr rfl))
  split
  · exact onAccount_of_phase (Or.inr (Or.inl rfl))
  · refine onAccount_settleOne ?_ accountable.watched fun _ => noneParked
    have accounted := accountable.accounted
    rwa [holders_of_noBatch (by rw [before]; rfl)] at accounted

/-- A step that leaves the nodes, what is held and the phase alone. -/
theorem Accountable.same (accountable : state.Accountable)
    (durable : next.journal.durable = state.journal.durable)
    (attached : next.attachedTasks = state.attachedTasks)
    (parked : next.pendingAdmission = state.pendingAdmission)
    (watches : next.promotionWatches = state.promotionWatches) (phase : next.phase = state.phase) :
    next.Accountable where
  accounted := by
    rw [holders, attached, parked, phase, durable]
    exact accountable.accounted
  parked := by
    rw [ParkedInAdmission, phase, parked]
    exact accountable.parked
  watched := by
    rw [watches, attached]
    exact accountable.watched

/-- The steps of the scheduler keep the account. -/
theorem OnAccount.scheduler (framed : state.Framed) (onAccount : state.OnAccount)
    {action : SchedulerAction} (own : action.isCommit = false)
    (keeps : KeepsAccount state (.scheduler action))
    (stepped : schedulerStep env state action = some next) : next.OnAccount := by
  rcases onAccount with decided | accountable
  · exact Or.inl ((framed.scheduler own stepped).2 decided)
  have charted := framed.charted
  have unparked : state.phase = .idle ∨ state.phase = .settled false →
      state.pendingAdmission = [] ∧ Accounted state.attachedTasks state.journal.durable := by
    intro before
    have noneParked : state.pendingAdmission = [] := by
      have parked := accountable.parked
      rcases before with before | before <;> rwa [ParkedInAdmission, before] at parked
    have accounted := accountable.accounted
    rw [holders_of_noBatch (by rcases before with before | before <;> rw [before] <;> rfl),
      noneParked, List.append_nil] at accounted
    exact ⟨noneParked, accounted⟩
  cases SchedulerMove.of_step stepped with
  | run before =>
    have synced : state.journal.cache = state.journal.durable := keeps
    obtain ⟨noneParked, accounted⟩ := unparked (.inl before)
    unfold startRun
    split
    · have started : Writes (fun _ _ => False) state.journal
          (state.journal.append env (.runStarted state.journal.cache.generation)) :=
        RunJournal.writes_note env rfl state.journal
      refine onAccount_runFrontier (charted.of_skeleton started.record.skeleton_eq)
        (started.synced synced) ?_ noneParked accountable.watched
      exact accounted.rewritten charted started.record
        (fun _ _ impossible => impossible.elim) fun _ _ notHeld _ => ⟨notHeld, fun _ => id⟩
    · exact onAccount_runFrontier charted synced accounted noneParked accountable.watched
  | batchAnswered before => exact onAccount_resumeBatch charted accountable before
  | admissionReturned before => exact onAccount_afterAdmission accountable before
  | settledLate | cancellationObserved => exact onAccount_of_phase (Or.inl rfl)
  | taskSettled before attached =>
    exact onAccount_foldSettlement charted accountable before attached
  | @settlementSignalled inAdmission before =>
    have accounted := accountable.accounted
    rw [holders_of_noBatch (by rw [before]; rfl)] at accounted
    have parked := accountable.parked
    rw [ParkedInAdmission, before] at parked
    refine Or.inr ⟨?_, ?_, accountable.watched⟩
    · rw [holders_of_noBatch rfl]
      exact accounted
    · cases inAdmission with
      | true => trivial
      | false => exact parked
  | admits before =>
    have accounted := accountable.accounted
    rw [holders_of_noBatch (by rw [before]; rfl)] at accounted
    exact onAccount_admitFrontier charted keeps accounted accountable.watched
  | loops before =>
    obtain ⟨noneParked, accounted⟩ := unparked (.inr before)
    exact onAccount_runFrontier charted keeps accounted noneParked accountable.watched
  | promoted watched => exact onAccount_foldPromotion charted accountable watched
  | admissionIdle =>
    exact Or.inr ⟨accountable.accounted, accountable.parked,
      fun id member => absurd member List.not_mem_nil⟩
  | tasksCancelled isCancelling =>
    exact Or.inl ((framed.scheduler own stepped).2 (framed.begun (by rw [isCancelling]; rfl)))
  | cancelledReturned => exact onAccount_of_phase (Or.inr (Or.inr rfl))
  | foreignCommit => cases own
  | cancelIgnored | foreignStale => exact Or.inr accountable
  | _ => exact Or.inr (accountable.same rfl rfl rfl rfl rfl)

/-- A commit of another instance leaves the account to the record. -/
theorem OnAccount.rewritten (onAccount : state.OnAccount) {run : StoredRun}
    (accounted : state.Accountable → Accounted state.holders run.record) :
    (state.rewritten run).OnAccount := by
  rcases onAccount with decided | accountable
  · exact Or.inl decided
  · exact Or.inr ⟨accounted accountable, accountable.parked, accountable.watched⟩

theorem Accounted.commit {run : StoredRun} (accounted : Accounted held run.record)
    (charted : Charted run.record) (tables : SideTables) {payload : DagRunEventPayload}
    (goesOn : payload.endsRun = false) (plain : isAmendment payload = false)
    (harmless : HarmlessCommit run.record payload) :
    Accounted held (run.commit env tables payload).record := by
  have spared : ∀ nodeId, SparesFailed run.record nodeId →
      (∃ id, stateOf run.record id = some .skipped) → stateOf run.record nodeId ≠ some .failed := by
    rintro nodeId spares ⟨id, isSkipped⟩ isFailed
    obtain ⟨failed, failedMember, isId, failedState, _⟩ := exists_of_stateOf isFailed
    obtain ⟨skipped, skippedMember, _, skippedState, _⟩ := exists_of_stateOf isSkipped
    exact spares ⟨failed, failedMember, isId, failedState⟩ skipped skippedMember skippedState
  refine accounted.rewritten charted (rewritten_commit env run tables goesOn plain) ?_ ?_
  · intro id target permitted
    cases payload with
    | nodeTransitioned nodeId source moved reason =>
      rw [permitted.2]
      exact ⟨harmless.1, harmless.2.1⟩
    | nodeRetried nodeId priorTaskId execAttempt promptChanged =>
      rw [permitted.2]
      exact ⟨by simp, by simp⟩
    | _ => exact permitted.elim
  · intro anySkipped id notHeld isFailed
    refine ⟨notHeld, fun target permitted => ?_⟩
    cases payload with
    | nodeTransitioned nodeId source moved reason =>
      rw [permitted.1] at isFailed
      exact spared nodeId harmless.2.2 anySkipped isFailed
    | nodeRetried nodeId priorTaskId execAttempt promptChanged =>
      rw [permitted.1] at isFailed
      exact spared nodeId harmless anySkipped isFailed
    | _ => exact permitted.elim

/-- A node of an amended run is pending or as it was read. -/
theorem amendedNode_state (read : DagRunRecordV1) {compiled : DagNode}
    (pending : compiled.state = .pending) :
    (amendedNode read invalidatedIds compiled).state = .pending ∨
      amendedNode read invalidatedIds compiled ∈ read.nodes := by
  unfold amendedNode
  split
  · exact Or.inl pending
  · rename_i old found
    split
    · exact Or.inl rfl
    · exact Or.inr (List.mem_reverse.mp (List.mem_of_find?_eq_some found))

theorem Accounted.amended {run : StoredRun} (accounted : Accounted held run.record)
    (sha256 : List Char → String) {read : DagRunRecordV1}
    (unmarked : ∀ node ∈ read.nodes, node.state ≠ .cancelled ∧ node.state ≠ .skipped)
    (request : AmendRequest) :
    Accounted held (amendRunFrom env sha256 read run request).1.record := by
  obtain ⟨refusal, refused⟩ | ⟨accepted, committed⟩ :=
    amendRunFrom_cases env sha256 read run request
  · rw [refused]
    exact accounted
  · rw [committed, commitMutation_amendment]
    split
    · exact accounted
    · have states : ∀ node ∈ (amendmentOf sha256 read request
          (compileDag request.definition request.settings request.atTime)).nodes,
          node.state ≠ .cancelled ∧ node.state ≠ .skipped := by
        intro node member
        obtain ⟨compiled, compiledMember, rfl⟩ := List.mem_map.mp member
        rcases amendedNode_state read (compileDag_nodes_pending accepted compiled compiledMember)
          with isPending | isRead
        · rw [isPending]
          exact ⟨by simp, by simp⟩
        · exact unmarked _ isRead
      refine ⟨fun node member => (states node member).1, ?_⟩
      rintro ⟨node, member, isSkipped⟩
      exact absurd isSkipped (states node member).2

theorem onAccount_initial {record : DagRunRecordV1} {preAttachedTasks : List (DagNodeId × String)}
    (accounted : Accounted (preAttachedTasks.map (·.1)) record) (files : ResultFiles) :
    (initial record files preAttachedTasks).OnAccount := by
  obtain ⟨durable, _, phase, _, _, parked, watches, attached⟩ :=
    initial_fields record files preAttachedTasks
  right
  refine ⟨?_, ?_, ?_⟩
  · rw [holders_of_noBatch (by rw [phase]; rfl), parked, List.append_nil, durable]
    exact accounted.mono attached
  · rw [ParkedInAdmission, phase]
    exact parked
  · rw [watches]
    exact fun id member => absurd member List.not_mem_nil

/-- The account is kept along every run whose steps keep it. -/
theorem OnAccount.step (framed : state.Framed) (onAccount : state.OnAccount)
    {sha256 : List Char → String} {label : SchedulerEnv × SharedAction}
    (keeps : KeepsAccount state label.2) (stepped : sharedStep sha256 state label = some next) :
    next.OnAccount := by
  obtain ⟨env, action⟩ := label
  cases SharedMove.of_step stepped with
  | scheduler own stepped => exact OnAccount.scheduler framed onAccount own keeps stepped
  | @commit payload tables goesOn plain =>
    rcases keeps with decided | harmless
    · exact Or.inl decided
    · exact onAccount.rewritten fun accountable =>
        @Accounted.commit env state.holders state.stored accountable.accounted framed.charted
          tables payload goesOn plain harmless
  | amend read request =>
    rcases keeps with decided | unmarked
    · exact Or.inl decided
    · exact onAccount.rewritten fun accountable =>
        @Accounted.amended env state.holders state.stored accountable.accounted sha256 read
          unmarked request
  | lease => exact onAccount.rewritten fun accountable => accountable.accounted
  | reenter => exact onAccount_initial keeps _

end Turns

end SchedulerState

end OpenAgent.Dag
