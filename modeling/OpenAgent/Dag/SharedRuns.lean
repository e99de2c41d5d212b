import OpenAgent.Dag.DependencyOrder
import OpenAgent.Dag.LiveNodes

/-!
# A scheduler and the other instances on its run

Retry, steering with its watchers, amendments and recovery commit to the record
through journals of their own.  A verb is the sequence of its commits, and
anything may happen between two of them.  A retry or a recovery ends with a new
scheduler over the record.
-/

namespace OpenAgent.Dag

open Library

/-- The run on disk. -/
def SchedulerState.stored (state : SchedulerState) : StoredRun where
  record := state.journal.durable
  files := state.journal.files
  tasks := []
  starts := []

/-- Another instance has written the run. -/
def SchedulerState.rewritten (state : SchedulerState) (run : StoredRun) : SchedulerState :=
  state.onJournal fun journal => { journal with durable := run.record, files := run.files }

/-- What happens to a run that a scheduler shares with other instances.  Only the
scheduler ends it. -/
inductive SharedAction
  | scheduler (action : SchedulerAction)
  /-- A commit of a control verb, of a watcher behind one, or of recovery. -/
  | commit (tables : SideTables) (payload : DagRunEventPayload)
  /-- `amendRun`, with the record that it has read. -/
  | amend (read : DagRunRecordV1) (request : AmendRequest)
  | lease (parentSessionId rootSessionId : String)
      (leaseHolderPid previousLeaseHolderPid : Option Nat)
  /-- A new scheduler takes the run up. -/
  | reenter (preAttachedTasks : List (DagNodeId × String))

/-- The commits of other instances are actions of their own. -/
def SchedulerAction.isCommit : SchedulerAction → Bool
  | .foreignCommit _ => true
  | _ => false

def sharedStep (sha256 : List Char → String) (state : SchedulerState)
    (label : SchedulerEnv × SharedAction) : Option SchedulerState :=
  match label.2 with
  | .scheduler action =>
    if action.isCommit then none else schedulerStep label.1 state action
  | .commit tables payload =>
    if payload.endsRun || isAmendment payload then none
    else some (state.rewritten (state.stored.commit label.1 tables payload))
  | .amend read request =>
    some (state.rewritten (amendRunFrom label.1 sha256 read state.stored request).1)
  | .lease parentSessionId rootSessionId leaseHolderPid previousLeaseHolderPid =>
    some (state.rewritten
      { state.stored with
        record :=
          { state.journal.durable with
            parentSessionId, rootSessionId, leaseHolderPid, previousLeaseHolderPid } })
  | .reenter preAttachedTasks =>
    some (SchedulerState.initial state.journal.durable state.journal.files preAttachedTasks)

/-- The steps of a shared run. -/
inductive SharedMove (sha256 : List Char → String) (env : SchedulerEnv) (state : SchedulerState) :
    SharedAction → SchedulerState → Prop
  | scheduler (own : action.isCommit = false)
      (stepped : schedulerStep env state action = some next) :
      SharedMove sha256 env state (.scheduler action) next
  | commit (goesOn : payload.endsRun = false) (plain : isAmendment payload = false) :
      SharedMove sha256 env state (.commit tables payload)
        (state.rewritten (state.stored.commit env tables payload))
  | amend (read : DagRunRecordV1) (request : AmendRequest) :
      SharedMove sha256 env state (.amend read request)
        (state.rewritten (amendRunFrom env sha256 read state.stored request).1)
  | lease : SharedMove sha256 env state
        (.lease parentSessionId rootSessionId leaseHolderPid previousLeaseHolderPid)
        (state.rewritten
          { state.stored with
            record :=
              { state.journal.durable with
                parentSessionId, rootSessionId, leaseHolderPid, previousLeaseHolderPid } })
  | reenter (preAttachedTasks : List (DagNodeId × String)) :
      SharedMove sha256 env state (.reenter preAttachedTasks)
        (.initial state.journal.durable state.journal.files preAttachedTasks)

theorem SharedMove.of_step (stepped : sharedStep sha256 state (env, action) = some next) :
    SharedMove sha256 env state action next := by
  cases action with
  | scheduler action =>
    simp only [sharedStep, Option.ite_none_left_eq_some, Bool.not_eq_true] at stepped
    exact .scheduler stepped.1 stepped.2
  | commit tables payload =>
    simp only [sharedStep, Option.ite_none_left_eq_some, Option.some.injEq, Bool.or_eq_true,
      not_or, Bool.not_eq_true] at stepped
    obtain ⟨⟨goesOn, plain⟩, rfl⟩ := stepped
    exact .commit goesOn plain
  | amend read request =>
    cases stepped
    exact .amend read request
  | lease =>
    cases stepped
    exact .lease
  | reenter preAttachedTasks =>
    cases stepped
    exact .reenter preAttachedTasks

/-- What another instance's commit does to the record. -/
theorem rewritten_commit (env : SchedulerEnv) (run : StoredRun) (tables : SideTables)
    (goesOn : payload.endsRun = false) (plain : isAmendment payload = false) :
    Rewritten payload.Permits run.record (run.commit env tables payload).record := by
  unfold StoredRun.commit
  split
  · exact rewritten_refl
  · have applied := rewritten_applyDagSchedulerEvent env.isAlive
      (env.store (run.eventFor env payload).seq) tables
      (env.copyTime (run.eventFor env payload).seq) run.files run.record
      (show (run.eventFor env payload).payload.endsRun = false from goesOn) (by
        intro amendment isPayload
        subst isPayload
        cases plain)
    have paused : ∀ reason, payload = .runPaused reason → Rewritten payload.Permits run.record
          { run.record with
            status := .paused, updatedAt := (run.eventFor env payload).atTime } := by
      intro reason isPayload
      exact ⟨rfl, fun _ _ => Or.inl, fun _ _ => rfl, fun impossible => nomatch impossible⟩
    cases payload with
    | runPaused reason =>
      have kept := paused reason rfl
      exact ⟨kept.skeleton_eq, kept.moved, kept.others, kept.status⟩
    | _ => exact ⟨applied.skeleton_eq, applied.moved, applied.others, applied.status⟩

/-- The nodes have distinct ids, and every one of them is in a wave. -/
structure Charted (record : DagRunRecordV1) : Prop where
  nodup : (record.nodes.map (·.id)).Nodup
  listed : ∀ id ∈ record.nodes.map (·.id), id ∈ record.waves.flatMap (·.nodeIds)

theorem Charted.of_skeleton (charted : Charted before) (same : skeleton after = skeleton before) :
    Charted after := by
  have ids : after.nodes.map (·.id) = before.nodes.map (·.id) := by
    have firsts := congrArg (fun view => view.1.map Prod.fst) same
    simpa [skeleton, Function.comp_def] using firsts
  have waves : after.waves = before.waves := congrArg (·.2.1) same
  refine ⟨?_, ?_⟩
  · rw [ids]
    exact charted.nodup
  · rw [ids, waves]
    exact charted.listed

/-- A compiled graph lists every node in the wave of its depth. -/
theorem compileDag_waves_listed (accepted : (compileDag definition settings atTime).ok = true) :
    ∀ id ∈ definition.nodes.map (·.id),
      id ∈ (compileDag definition settings atTime).waves.flatMap (·.nodeIds) := by
  obtain ⟨declared, acyclic⟩ := compileDag_ok_iff.mp accepted
  intro id member
  simp only [compileDag, declared, acyclic, List.isEmpty_nil, if_true, compiledWaves,
    List.mem_flatMap, List.mem_map, exists_exists_and_eq_and, mem_stableSort, mem_setOf,
    List.mem_filter, beq_iff_eq]
  obtain ⟨node, nodeMember, rfl⟩ := List.mem_map.mp member
  exact ⟨node, nodeMember, ⟨node, nodeMember, rfl⟩, rfl⟩

theorem charted_created {start : DagStart} (accepted : start.Accepted) : Charted start.created := by
  obtain ⟨rank, graph⟩ := wellFormedGraph_of_accepted accepted
  refine ⟨graph.nodupIds, ?_⟩
  intro id member
  change id ∈ start.compiled.nodes.map (·.id) at member
  rw [DagStart.compiled, compiledIds accepted] at member
  exact compileDag_waves_listed accepted id member

theorem charted_amendRunFrom (env : SchedulerEnv) (sha256 : List Char → String)
    (read : DagRunRecordV1) {run : StoredRun} (request : AmendRequest)
    (charted : Charted run.record) :
    Charted (amendRunFrom env sha256 read run request).1.record := by
  obtain ⟨refusal, refused⟩ | ⟨accepted, committed⟩ :=
    amendRunFrom_cases env sha256 read run request
  · rw [refused]
    exact charted
  · rw [committed, commitMutation_amendment]
    split
    · exact ⟨charted.nodup, charted.listed⟩
    · obtain ⟨rank, graph⟩ := wellFormedGraph_of_accepted accepted
      have ids := amendmentIds sha256 read request
      refine ⟨?_, ?_⟩
      · change ((amendmentOf sha256 read request _).nodes.map (·.id)).Nodup
        rw [ids]
        exact graph.nodupIds
      · intro id member
        change id ∈ (amendmentOf sha256 read request _).nodes.map (·.id) at member
        rw [ids, compiledIds accepted] at member
        exact compileDag_waves_listed accepted id member

namespace SchedulerState

variable {permit : DagNodeId → DagNodeState → Prop} {state middle next : SchedulerState}
variable (env : SchedulerEnv)
variable {nodeId : DagNodeId}

/-- No call of `run` is under way that could still report an end: it has ended, or
it is going to find the run cancelled. -/
def isDecided (state : SchedulerState) : Bool :=
  match state.phase with
  | .finished | .threw | .cancelling => true
  | .starting _ | .admitted => false
  | .idle | .settling _ | .settled _ => state.cancellationStarted

/-- What holds of a shared run in every state. -/
structure Framed (state : SchedulerState) : Prop where
  charted : Charted state.journal.durable
  flagged : state.cancellation ≠ .none → state.cancellationStarted = true
  begun : state.cancellation.isEarly = false → state.isDecided = true

/-- The cancellation is as it was. -/
def SameCourse (state next : SchedulerState) : Prop :=
  next.cancellationStarted = state.cancellationStarted ∧ next.cancellation = state.cancellation

theorem Framed.keepsCourse (framed : state.Framed) (charted : Charted next.journal.durable)
    (course : SameCourse state next) (decided : state.isDecided = true → next.isDecided = true) :
    next.Framed ∧ (state.isDecided = true → next.isDecided = true) := by
  refine ⟨⟨charted, ?_, ?_⟩, decided⟩
  · rw [course.1, course.2]
    exact framed.flagged
  · rw [course.2]
    exact fun begun => decided (framed.begun begun)

theorem endTurn_course (phase : RunPhase) : SameCourse state (state.endTurn phase) := by
  unfold endTurn
  split <;> exact ⟨rfl, rfl⟩

theorem endTurn_threw : (state.endTurn .threw).phase = .threw := by
  unfold endTurn
  split <;> rfl

theorem settleOne_course : SameCourse state (state.settleOne inAdmission) := by
  unfold settleOne
  split <;> exact ⟨rfl, rfl⟩

/-- A turn of the admission loop, and what it does once the run is cancelled. -/
theorem admitFrontier_course :
    SameCourse state (state.admitFrontier env) ∧
      (state.cancellationStarted = true → (state.admitFrontier env).phase = .cancelling) := by
  unfold admitFrontier
  split
  · exact ⟨⟨rfl, rfl⟩, fun _ => rfl⟩
  · rename_i running
    refine ⟨?_, fun started => absurd started running⟩
    split
    · exact endTurn_course _
    split
    · exact ⟨rfl, rfl⟩
    · unfold startBatch
      simp only
      split
      · exact endTurn_course _
      · exact ⟨rfl, rfl⟩

theorem runFrontier_course :
    SameCourse state (state.runFrontier env) ∧
      (state.cancellationStarted = true → (state.runFrontier env).phase = .cancelling) := by
  unfold runFrontier
  split
  · exact ⟨⟨rfl, rfl⟩, fun _ => rfl⟩
  · rename_i running
    have cascaded : SameCourse state (if state.attachedTasks.isEmpty then
        state.onJournal (·.applyDependentSkipCascade env) else state) := by
      split <;> exact ⟨rfl, rfl⟩
    simp only
    generalize (if state.attachedTasks.isEmpty then
      state.onJournal (·.applyDependentSkipCascade env) else state) = later at cascaded ⊢
    refine ⟨?_, fun started => absurd started running⟩
    rw [SameCourse, ← cascaded.1, ← cascaded.2]
    split
    · exact endTurn_course _
    · exact (admitFrontier_course env).1

theorem startRun_course :
    SameCourse state (state.startRun env) ∧
      (state.cancellationStarted = true → (state.startRun env).phase = .cancelling) := by
  unfold startRun
  split
  · exact runFrontier_course env
  · exact runFrontier_course env

theorem resumeBatch_course (batch : List DagNodeId) (answers : List StartAnswer) :
    SameCourse state (state.resumeBatch env batch answers) := by
  obtain ⟨folded, denied, _, finishes, folds, _⟩ := resumeBatch_folds env state batch answers
  have started : folded.cancellationStarted = state.cancellationStarted :=
    folds.control.cancellationStarted
  have cancellation : folded.cancellation = state.cancellation := folds.control.cancellation
  rw [SameCourse, ← started, ← cancellation, finishes]
  unfold finishBatch
  split
  · exact endTurn_course _
  split
  · exact ⟨rfl, rfl⟩
  split
  · exact ⟨rfl, rfl⟩
  split
  · exact endTurn_course _
  · exact settleOne_course

theorem afterAdmission_course : SameCourse state (state.afterAdmission env) := by
  unfold afterAdmission
  split
  · exact endTurn_course _
  split
  · exact ⟨rfl, rfl⟩
  · exact settleOne_course

theorem foldSettlement_course (nodeId : DagNodeId) (settlement : Settlement) :
    SameCourse state (state.foldSettlement env nodeId settlement) := by
  cases settlement <;> exact ⟨rfl, rfl⟩

variable {env}

/-- The steps of the scheduler keep the frame, and a decided run stays decided. -/
theorem Framed.scheduler (framed : state.Framed) {action : SchedulerAction}
    (own : action.isCommit = false) (stepped : schedulerStep env state action = some next) :
    next.Framed ∧ (state.isDecided = true → next.isDecided = true) := by
  have charted : Charted next.journal.durable := by
    by_cases foreign : action.isForeign = true
    · cases SchedulerMove.of_step stepped with
      | foreignCommit => cases own
      | foreignStale | foreignEvent | foreignSettlement => exact framed.charted
      | _ => cases foreign
    · exact framed.charted.of_skeleton (skeleton_of_step (Bool.eq_false_iff.mpr foreign) stepped)
  have cancelling : ∀ {later : SchedulerState}, later.phase = .cancelling →
      later.isDecided = true := by
    intro later isPhase
    rw [isDecided, isPhase]
  cases SchedulerMove.of_step stepped with
  | run before =>
    obtain ⟨course, ends⟩ := @startRun_course state env
    refine framed.keepsCourse charted course fun decided => ?_
    rw [isDecided, before] at decided
    exact cancelling (ends decided)
  | @batchAnswered batch answers before =>
    refine framed.keepsCourse charted (resumeBatch_course env batch answers) fun decided => ?_
    rw [isDecided, before] at decided
    cases decided
  | admissionReturned before =>
    refine framed.keepsCourse charted (afterAdmission_course env) fun decided => ?_
    rw [isDecided, before] at decided
    cases decided
  | settledLate | cancellationObserved | cancelledReturned =>
    exact framed.keepsCourse charted ⟨rfl, rfl⟩ fun _ => rfl
  | @taskSettled inAdmission nodeId settlement before attached running =>
    obtain ⟨started, cancellation⟩ := @foldSettlement_course state env nodeId settlement
    refine framed.keepsCourse charted ⟨(endTurn_course _).1.trans started,
      (endTurn_course _).2.trans cancellation⟩ fun decided => ?_
    rw [isDecided, before, running] at decided
    cases decided
  | settlementSignalled before =>
    refine framed.keepsCourse charted ⟨rfl, rfl⟩ fun decided => ?_
    rw [isDecided, before] at decided
    exact decided
  | admits before =>
    obtain ⟨course, ends⟩ := @admitFrontier_course state env
    refine framed.keepsCourse charted course fun decided => ?_
    rw [isDecided, before] at decided
    exact cancelling (ends decided)
  | loops before =>
    obtain ⟨course, ends⟩ := @runFrontier_course state env
    refine framed.keepsCourse charted course fun decided => ?_
    rw [isDecided, before] at decided
    exact cancelling (ends decided)
  | @promoted nodeId =>
    have control := (@works_foldPromotion env state (fun _ _ => True) nodeId
      (fun _ _ _ => trivial) true).control
    refine framed.keepsCourse charted
      ⟨control.cancellationStarted, control.cancellation⟩ fun decided => ?_
    change (match (state.foldPromotion env nodeId true).phase with
      | .finished | .threw | .cancelling => true
      | .starting _ | .admitted => false
      | .idle | .settling _ | .settled _ =>
        (state.foldPromotion env nodeId true).cancellationStarted) = true
    rw [control.phase, control.cancellationStarted]
    exact decided
  | cancelIgnored => exact ⟨framed, id⟩
  | cancel =>
    refine ⟨⟨framed.charted, fun _ => rfl, fun late => nomatch late⟩, fun decided => ?_⟩
    rw [isDecided] at decided ⊢
    split <;> simp_all
  | admissionIdle isAwaiting notStarting notAdmitted =>
    have started := framed.flagged (by rw [isAwaiting]; exact fun impossible => nomatch impossible)
    have decided : state.isDecided = true := by
      rw [isDecided]
      split <;> simp_all
    exact ⟨⟨framed.charted, fun _ => started, fun _ => decided⟩, fun _ => decided⟩
  | tasksCancelled isCancelling =>
    have decided := framed.begun (by rw [isCancelling]; rfl)
    have started := framed.flagged (by
      rw [isCancelling]
      exact fun impossible => nomatch impossible)
    exact ⟨⟨charted, fun _ => started, fun _ => decided⟩, fun _ => decided⟩
  | foreignCommit => cases own
  | _ => exact framed.keepsCourse charted ⟨rfl, rfl⟩ id

section Steps

open RunJournal (Writes writes_refl)

variable (env)

theorem writes_caught : Writes permit state.journal state.caught.journal :=
  RunJournal.writes_staged (RunJournal.staged_thrown state.journal false)

theorem writes_endTurn {journal : RunJournal} (writes : Writes permit journal state.journal)
    (phase : RunPhase) : Writes permit journal (state.endTurn phase).journal := by
  unfold endTurn
  split
  · exact writes.trans writes_caught
  · exact writes

theorem writes_settleOne {journal : RunJournal} (writes : Writes permit journal state.journal) :
    Writes permit journal (state.settleOne inAdmission).journal := by
  unfold settleOne
  split <;> exact writes

/-- The nodes that an admission pass takes up. -/
def Schedules (state : SchedulerState) (id : DagNodeId) (target : DagNodeState) : Prop :=
  target = .scheduled ∧ ∃ runnable, RunJournal.runnableNodes state.journal.cache
    state.pendingAdmission state.journal.cache.nodes = some runnable ∧ id ∈ runnable

theorem writes_startBatch {denied runnable : List DagNodeId}
    (permitted : ∀ id ∈ runnable, permit id .scheduled) :
    Writes permit state.journal
      ((scheduleNodes env state.journal runnable).emitWaveAdmissions env runnable) ∧
      Writes permit state.journal (state.startBatch env denied runnable).journal := by
  have scheduled : Writes permit state.journal (scheduleNodes env state.journal runnable) :=
    RunJournal.writes_foldl (fun id member journal =>
      RunJournal.writes_transition env (permitted id member) .scheduled journal) _
  have writes := scheduled.trans (RunJournal.writes_emitWaveAdmissions env runnable _)
  refine ⟨writes, ?_⟩
  unfold startBatch
  simp only
  split
  · exact writes_endTurn writes .threw
  · exact writes

theorem writes_admitFrontier :
    Writes state.Schedules state.journal (state.admitFrontier env).journal := by
  unfold admitFrontier
  split
  · exact writes_refl
  split
  · exact writes_endTurn (RunJournal.writes_staged
      (RunJournal.staged_thrown state.journal true)) .threw
  · rename_i runnable taken
    split
    · exact writes_refl
    · exact (writes_startBatch env fun id member => ⟨rfl, runnable, taken, member⟩).2

theorem writes_cascade (fuel : Nat) (journal : RunJournal) :
    Writes (fun _ target => target = .skipped) journal (RunJournal.cascade env fuel journal) :=
  RunJournal.cascade_keeps env
    (fun later writes => writes.trans
      ((RunJournal.writes_cascadePass env later).mono fun _ _ skips => skips.1))
    writes_refl fuel

theorem writes_runFrontier :
    Writes (fun _ target => target = .skipped ∨ target = .scheduled) state.journal
      (state.runFrontier env).journal := by
  unfold runFrontier
  split
  · exact writes_refl
  · have cascaded : Writes (fun _ target => target = .skipped ∨ target = .scheduled)
        state.journal (if state.attachedTasks.isEmpty then
          state.onJournal (·.applyDependentSkipCascade env) else state).journal := by
      split
      · exact (writes_cascade env _ _).mono fun _ _ => Or.inl
      · exact writes_refl
    simp only
    generalize (if state.attachedTasks.isEmpty then
      state.onJournal (·.applyDependentSkipCascade env) else state) = later at cascaded
    split
    · exact writes_endTurn cascaded .threw
    · have admitted := @writes_admitFrontier (later.onJournal (·.emitCompletedWaves env)) env
      exact (cascaded.trans (RunJournal.writes_emitCompletedWaves env _)).trans
        (admitted.mono fun _ _ schedules => Or.inr schedules.1)

theorem writes_startRun :
    Writes (fun _ target => target = .skipped ∨ target = .scheduled) state.journal
      (state.startRun env).journal := by
  unfold startRun
  split
  · have started := @writes_runFrontier (state.onJournal fun journal =>
      journal.append env (.runStarted journal.cache.generation)) env
    exact (RunJournal.writes_note env rfl _).trans started
  · exact writes_runFrontier env

theorem writes_failDenied {denied : List DagNodeId} (permitted : ∀ id ∈ denied, permit id .failed)
    (journal : RunJournal) : Writes permit journal (failDenied env journal denied) :=
  RunJournal.writes_foldl (fun id member journal =>
    RunJournal.writes_failNode env (permitted id member) _ _ journal) journal

theorem writes_finishBatch (permitted : ∀ id ∈ denied, permit id .failed) :
    Writes permit state.journal (state.finishBatch env denied).journal := by
  unfold finishBatch
  split
  · exact writes_endTurn writes_refl .threw
  split
  · exact writes_refl
  split
  · exact writes_refl
  split
  · exact writes_endTurn (writes_failDenied env permitted state.journal) .admitted
  · refine writes_settleOne ?_
    exact writes_refl

theorem writes_resumeBatch (batch : List DagNodeId) (answers : List StartAnswer) :
    Writes (Answers batch) state.journal (state.resumeBatch env batch answers).journal := by
  obtain ⟨folded, denied, _, finishes, folds, inBatch⟩ := resumeBatch_folds env state batch answers
  rw [finishes]
  exact folds.writes.trans (writes_finishBatch env fun id member => ⟨inBatch id member, by simp⟩)

/-- What a settlement can do to its node. -/
abbrev Settles (nodeId : DagNodeId) : DagNodeId → DagNodeState → Prop :=
  Among [nodeId] [.completed, .failed]

theorem writes_foldSettlement (nodeId : DagNodeId) (settlement : Settlement) :
    Writes (Settles nodeId) state.journal (state.foldSettlement env nodeId settlement).journal := by
  have completes : Settles nodeId nodeId .completed := by simp [Among]
  have fails : Settles nodeId nodeId .failed := by simp [Among]
  cases settlement with
  | error message => exact RunJournal.writes_failNode env fails _ _ _
  | record task terminal => exact RunJournal.writes_foldTaskOutcome env completes fails task _

variable {env}

/-- Only the return of an admission pass and the end of a cancellation report that
a run has ended. -/
theorem endings_of_step (own : action.isCommit = false) (notReturned : action ≠ .admissionReturned)
    (notCancelled : action ≠ .tasksCancelled)
    (stepped : schedulerStep env state action = some next) :
    next.journal.endings = state.journal.endings := by
  cases SchedulerMove.of_step stepped with
  | run => exact (writes_startRun env).endings_eq
  | @batchAnswered batch answers => exact (writes_resumeBatch env batch answers).endings_eq
  | admissionReturned => exact absurd rfl notReturned
  | @taskSettled _ nodeId settlement =>
    exact (writes_endTurn (writes_foldSettlement env nodeId settlement) _).endings_eq
  | admits => exact (writes_admitFrontier env).endings_eq
  | loops => exact (writes_runFrontier env).endings_eq
  | @promoted nodeId =>
    exact (@works_foldPromotion env state (fun _ _ => True) nodeId
      (fun _ _ _ => trivial) true).writes.endings_eq
  | tasksCancelled => exact absurd rfl notCancelled
  | foreignCommit => cases own
  | _ => rfl

end Steps

/-- A scheduler that has just been created holds what was attached to it. -/
theorem initial_fields (record : DagRunRecordV1) (files : ResultFiles)
    (preAttachedTasks : List (DagNodeId × String)) :
    let state := initial record files preAttachedTasks
    state.journal.durable = record ∧ state.journal.cache = record ∧ state.phase = .idle ∧
      state.cancellationStarted = false ∧ state.cancellation = .none ∧
      state.pendingAdmission = [] ∧ state.promotionWatches = [] ∧
      ∀ id ∈ state.attachedTasks, id ∈ preAttachedTasks.map (·.1) := by
  suffices general : ∀ (entries : List (DagNodeId × String)) (state : SchedulerState),
      let final := entries.foldl
        (fun state entry => state.attachTaskSettlement entry.1 entry.2) state
      final.journal = state.journal ∧ final.phase = state.phase ∧
        final.cancellationStarted = state.cancellationStarted ∧
        final.cancellation = state.cancellation ∧
        final.pendingAdmission = state.pendingAdmission ∧
        final.promotionWatches = state.promotionWatches ∧
        ∀ id ∈ final.attachedTasks, id ∈ state.attachedTasks ∨ id ∈ entries.map (·.1) by
    obtain ⟨journal, phase, started, cancellation, parked, watches, attached⟩ :=
      general preAttachedTasks _
    refine ⟨congrArg _ journal, congrArg _ journal, phase, started, cancellation, parked,
      watches, ?_⟩
    intro id member
    exact (attached id member).resolve_left List.not_mem_nil
  intro entries
  induction entries with
  | nil => exact fun _ => ⟨rfl, rfl, rfl, rfl, rfl, rfl, fun _ => Or.inl⟩
  | cons entry entries ih =>
    intro state
    obtain ⟨journal, phase, started, cancellation, parked, watches, attached⟩ :=
      ih (state.attachTaskSettlement entry.1 entry.2)
    refine ⟨journal, phase, started, cancellation, parked, watches, ?_⟩
    intro id member
    rw [List.map_cons, List.mem_cons]
    rcases attached id member with before | later
    · rcases mem_setInsert.mp before with earlier | same
      · exact Or.inl earlier
      · exact Or.inr (Or.inl same)
    · exact Or.inr (Or.inr later)

theorem initial_log :
    (initial record files preAttachedTasks).journal.log = [] := by
  unfold initial
  suffices general : ∀ (entries : List (DagNodeId × String)) (state : SchedulerState),
      (entries.foldl (fun state entry => state.attachTaskSettlement entry.1 entry.2)
        state).journal = state.journal by
    rw [general]
  intro entries
  induction entries with
  | nil => exact fun _ => rfl
  | cons entry entries ih => exact fun state => ih (state.attachTaskSettlement entry.1 entry.2)

theorem framed_initial (charted : Charted record) :
    (initial record files preAttachedTasks).Framed := by
  obtain ⟨durable, _, _, _, cancellation, _⟩ := initial_fields record files preAttachedTasks
  refine ⟨?_, ?_, ?_⟩
  · rw [durable]
    exact charted
  · rw [cancellation]
    exact fun impossible => absurd rfl impossible
  · rw [cancellation]
    exact fun impossible => nomatch impossible

/-- Another instance writes the record and leaves the scheduler alone. -/
theorem Framed.rewritten (framed : state.Framed) (charted : Charted run.record) :
    (state.rewritten run).Framed :=
  ⟨charted, framed.flagged, framed.begun⟩

/-- The frame holds along every run. -/
theorem Framed.step (framed : state.Framed) (stepped : sharedStep sha256 state label = some next) :
    next.Framed := by
  obtain ⟨env, action⟩ := label
  cases SharedMove.of_step stepped with
  | scheduler own stepped => exact (framed.scheduler own stepped).1
  | @commit payload tables goesOn plain =>
    exact framed.rewritten (framed.charted.of_skeleton
      (rewritten_commit env state.stored tables goesOn plain).skeleton_eq)
  | amend read request =>
    exact framed.rewritten (@charted_amendRunFrom env sha256 read state.stored request
      framed.charted)
  | lease => exact framed.rewritten ⟨framed.charted.nodup, framed.charted.listed⟩
  | reenter preAttachedTasks => exact framed_initial framed.charted

end SchedulerState

end OpenAgent.Dag
