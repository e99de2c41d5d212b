import OpenAgent.Dag.Cancellation

/-!
# What the scheduler writes on a shared record

Other journal instances commit to the record of a scheduler, so its snapshot may
be behind and the nodes it holds may have moved.  Whatever the snapshot says, an
operation only makes the moves that are given here, and none of them but the two
ends of a run reports an end.
-/

namespace OpenAgent.Dag

open Library

/-- The second record has the graph of the first, nodes have only made permitted
moves, and the run has not ended in between. -/
structure Rewritten (permit : DagNodeId → DagNodeState → Prop)
    (before after : DagRunRecordV1) : Prop where
  skeleton_eq : skeleton after = skeleton before
  moved : ∀ id state, stateOf after id = some state →
    stateOf before id = some state ∨ permit id state
  others : ∀ id, (∀ state, ¬ permit id state) → stateOf after id = stateOf before id
  status : after.status.isTerminal = true → before.status.isTerminal = true

section Rewritten

variable {permit wider : DagNodeId → DagNodeState → Prop} {before between after : DagRunRecordV1}

theorem rewritten_refl : Rewritten permit before before where
  skeleton_eq := rfl
  moved := fun _ _ => Or.inl
  others := fun _ _ => rfl
  status := id

theorem Rewritten.trans (first : Rewritten permit before between)
    (second : Rewritten permit between after) : Rewritten permit before after where
  skeleton_eq := second.skeleton_eq.trans first.skeleton_eq
  moved := by
    intro id state isState
    rcases second.moved id state isState with earlier | permitted
    · exact first.moved id state earlier
    · exact Or.inr permitted
  others := fun id free => (second.others id free).trans (first.others id free)
  status := first.status ∘ second.status

theorem Rewritten.mono (rewritten : Rewritten permit before after)
    (widens : ∀ id state, permit id state → wider id state) : Rewritten wider before after where
  __ := rewritten
  moved := fun id state isState => (rewritten.moved id state isState).imp_right (widens id state)
  others := fun id free => rewritten.others id fun state permitted =>
    free state (widens id state permitted)

end Rewritten

/-- The moves that an event makes. -/
def DagRunEventPayload.Permits (payload : DagRunEventPayload) (id : DagNodeId)
    (state : DagNodeState) : Prop :=
  match payload with
  | .nodeTransitioned nodeId _ target _ => id = nodeId ∧ state = target
  | .nodeRetried nodeId _ _ _ => id = nodeId ∧ state = .pending
  | _ => False

theorem rewritten_of_moveTo (skeletonEq : skeleton after = skeleton before)
    (statesEq : stateOf after = moveTo target [nodeId] (stateOf before))
    (statusEq : after.status = before.status) :
    Rewritten (fun id state => id = nodeId ∧ state = target) before after where
  skeleton_eq := skeletonEq
  moved := by
    intro id state isState
    rw [statesEq] at isState
    rcases moveTo_eq_some.mp isState with ⟨isNode, _, isTarget⟩ | ⟨_, earlier⟩
    · exact Or.inr ⟨List.mem_singleton.mp isNode, isTarget⟩
    · exact Or.inl earlier
  others := by
    intro id free
    have different : id ∉ [nodeId] := by
      intro isNode
      exact free target ⟨List.mem_singleton.mp isNode, rfl⟩
    rw [statesEq, moveTo, if_neg different]
  status := by
    rw [statusEq]
    exact id

/-- What an event that neither ends nor amends the run does to the record. -/
theorem rewritten_applyDagSchedulerEvent (isAlive : Nat → Bool) (store : ResultStore)
    (tables : SideTables) (clock : String) (files : ResultFiles) (record : DagRunRecordV1)
    (goesOn : event.payload.endsRun = false)
    (plain : ∀ amendment, event.payload ≠ .definitionAmended amendment) :
    Rewritten event.payload.Permits record
      (applyDagSchedulerEvent isAlive store tables clock files record event).1 := by
  obtain ⟨runId, seq, atTime, lane, payload⟩ := event
  have view : ∀ (_ : payload.rewrites = false)
      (_ : statesAfter (stateOf record) payload = stateOf record)
      (_ : (statusAfter record.status payload).isTerminal = true → record.status.isTerminal = true),
      Rewritten payload.Permits record (applyDagSchedulerEvent isAlive store tables clock files
        record { runId, seq, atTime, lane, payload }).1 := by
    intro rewrites still status
    obtain ⟨skeletonEq, statesEq, statusEq⟩ := applyDagSchedulerEvent_view isAlive store tables
      clock files record (show DagRunEventPayload.rewrites
        (DagRunEvent.payload { runId, seq, atTime, lane, payload }) = false from rewrites)
    have same := statesEq.trans still
    exact
      { skeleton_eq := skeletonEq
        moved := fun id state isState => Or.inl ((congrFun same id).symm.trans isState)
        others := fun id _ => congrFun same id
        status := by
          rw [statusEq]
          exact status }
  cases payload with
  | nodeTransitioned nodeId source target reason =>
    obtain ⟨skeletonEq, statesEq, statusEq⟩ := applyDagSchedulerEvent_view isAlive store tables
      clock files record (show DagRunEventPayload.rewrites (DagRunEvent.payload
        ⟨runId, seq, atTime, lane, .nodeTransitioned nodeId source target reason⟩) = false
        from rfl)
    exact rewritten_of_moveTo skeletonEq statesEq statusEq
  | nodeRetried nodeId priorTaskId execAttempt promptChanged =>
    have found := fun id => nodeById_updateNodes record nodeId id
      (fun node => (rfl : (retriedNode execAttempt node).id = node.id))
    have statesEq : stateOf (updateNodes record nodeId (retriedNode execAttempt)) =
        moveTo .pending [nodeId] (stateOf record) := by
      funext id
      rw [stateOf, found]
      by_cases same : id = nodeId
      · subst same
        cases lookup : nodeById record id with
        | none => simp [moveTo, stateOf, lookup]
        | some node => simp [moveTo, stateOf, lookup, retriedNode]
      · simp [moveTo, stateOf, same]
    exact rewritten_of_moveTo
      (skeleton_updateNodes record nodeId (fun _ => rfl) fun _ => rfl) statesEq rfl
  | definitionAmended amendment => exact absurd rfl (plain amendment)
  | runCompleted | runFailed | runCancelled => cases goesOn
  | runStarted | runResumed => exact view rfl rfl fun impossible => by cases impossible
  | _ => exact view rfl rfl id

namespace RunJournal

/-- A change of the journal in which nodes only make permitted moves and the run
does not end. -/
structure Writes (permit : DagNodeId → DagNodeState → Prop) (journal next : RunJournal) : Prop where
  record : Rewritten permit journal.durable next.durable
  endings_eq : next.endings = journal.endings
  touched : (next.durable = journal.durable ∧ next.cache = journal.cache) ∨
    next.cache = next.durable

variable {permit wider : DagNodeId → DagNodeState → Prop} {journal middle next : RunJournal}

theorem writes_refl : Writes permit journal journal where
  record := rewritten_refl
  endings_eq := rfl
  touched := Or.inl ⟨rfl, rfl⟩

theorem Writes.trans (first : Writes permit journal middle) (second : Writes permit middle next) :
    Writes permit journal next where
  record := first.record.trans second.record
  endings_eq := second.endings_eq.trans first.endings_eq
  touched := by
    rcases second.touched with ⟨durable, cache⟩ | synced
    · rw [durable, cache]
      exact first.touched
    · exact Or.inr synced

theorem Writes.mono (writes : Writes permit journal next)
    (widens : ∀ id state, permit id state → wider id state) : Writes wider journal next where
  __ := writes
  record := writes.record.mono widens

theorem writes_staged (same : Staged journal next) : Writes permit journal next where
  record := by
    rw [same.durable]
    exact rewritten_refl
  endings_eq := by rw [endings, same.log, endings]
  touched := Or.inl ⟨same.durable, same.cache⟩

theorem staged_thrown (journal : RunJournal) (thrown : Bool) :
    Staged journal { journal with thrown := thrown } :=
  ⟨rfl, rfl, rfl, fun named => ⟨named.stored, named.staged⟩⟩

/-- The cache stays up to date. -/
theorem Writes.synced (writes : Writes permit journal next)
    (synced : journal.cache = journal.durable) : next.cache = next.durable := by
  rcases writes.touched with ⟨durable, cache⟩ | later
  · rw [durable, cache, synced]
  · exact later

theorem writes_foldl {values : List α}
    (each : ∀ value ∈ values, ∀ journal, Writes permit journal (change journal value))
    (journal : RunJournal) : Writes permit journal (values.foldl change journal) := by
  induction values generalizing journal with
  | nil => exact writes_refl
  | cons value values ih =>
    exact (each value List.mem_cons_self journal).trans
      (ih (fun other member => each other (List.mem_cons_of_mem value member))
        (change journal value))

variable (env : SchedulerEnv) {payload : DagRunEventPayload}

theorem writes_append (goesOn : payload.endsRun = false)
    (plain : ∀ amendment, payload ≠ .definitionAmended amendment)
    (permitted : ∀ id state, payload.Permits id state → permit id state) (journal : RunJournal) :
    Writes permit journal (journal.append env payload) := by
  unfold append
  split
  · exact writes_refl
  split
  · exact ⟨rewritten_refl, rfl, Or.inr rfl⟩
  · have rewritten := rewritten_applyDagSchedulerEvent env.isAlive
      (env.store (journal.eventFor env payload).seq) journal.tables
      (env.copyTime (journal.eventFor env payload).seq) journal.files journal.durable
      (show (journal.eventFor env payload).payload.endsRun = false from goesOn) plain
    have kept := rewritten.mono permitted
    exact
      { record := ⟨kept.skeleton_eq, kept.moved, kept.others, kept.status⟩
        endings_eq := by simp [endings, eventFor, goesOn]
        touched := Or.inr rfl }

/-- The scheduler's events that move no node and do not end the run. -/
def isNote : DagRunEventPayload → Bool
  | .runStarted _ | .nodeTaskAttached _ _ _ | .waveStarted _ _ | .waveCompleted _ _ => true
  | _ => false

theorem writes_note (note : isNote payload = true) (journal : RunJournal) :
    Writes permit journal (journal.append env payload) := by
  refine writes_append env ?_ ?_ ?_ journal
  · cases payload <;> first | rfl | cases note
  · rintro amendment rfl
    cases note
  · intro id state moves
    cases payload with
    | nodeTransitioned | nodeRetried => cases note
    | _ => exact moves.elim

variable {nodeId : DagNodeId}

theorem writes_move (permitted : permit nodeId target) (source : DagNodeState)
    (reason : DagNodeTransitionReason) (journal : RunJournal) :
    Writes permit journal (journal.append env (.nodeTransitioned nodeId source target reason)) := by
  refine writes_append env rfl ?_ ?_ journal
  · intro amendment impossible
    cases impossible
  · rintro id state ⟨rfl, rfl⟩
    exact permitted

theorem writes_transition (permitted : permit nodeId target) (reason : DagNodeTransitionReason)
    (journal : RunJournal) :
    Writes permit journal (journal.transition env nodeId target reason) := by
  unfold transition
  split
  · exact writes_staged (staged_thrown journal true)
  · exact writes_move env permitted _ reason journal

theorem writes_failNode (permitted : permit nodeId .failed) (code : DagNodeErrorCode)
    (message : String) (journal : RunJournal) :
    Writes permit journal (journal.failNode env nodeId code message) := by
  have moved : Writes permit journal ((journal.setPendingError nodeId
        (some (journal.nodeError env nodeId code message))).transition env nodeId
          .failed .failed) :=
    (writes_staged (staged_nodeError env journal nodeId code message)).trans
      (writes_transition env permitted .failed _)
  unfold failNode
  simp only
  split
  · exact moved
  · exact moved.trans (writes_staged (staged_clearError _ nodeId))

theorem writes_foldTaskOutcome (completes : permit nodeId .completed)
    (fails : permit nodeId .failed) (task : TaskRecord) (journal : RunJournal) :
    Writes permit journal (journal.foldTaskOutcome env nodeId task) := by
  have staged : Writes permit journal (journal.setPendingResult nodeId task) :=
    writes_staged (staged_setPendingResult journal nodeId task)
  unfold foldTaskOutcome
  split
  · split
    · exact staged.trans (writes_transition env completes .succeeded _)
    · exact staged.trans (writes_failNode env fails _ _ _)
  · exact writes_staged (staged_thrown journal true)

/-- Reporting a wave. -/
theorem writes_report (note : isNote payload = true) (admissions : List Nat)
    (journal : RunJournal) :
    Writes permit journal
      { journal.append env payload with
        emittedWaveAdmissions := admissions, emittedWaveCompletions := completions } :=
  (writes_note env note journal).trans
    (writes_staged ⟨rfl, rfl, rfl, fun named => ⟨named.stored, named.staged⟩⟩)

theorem writes_emitWaveAdmissions (scheduled : List DagNodeId) (journal : RunJournal) :
    Writes permit journal (journal.emitWaveAdmissions env scheduled) :=
  writes_foldl (fun _ _ reporting => writes_report env rfl _ reporting) journal

theorem writes_emitCompletedWaves (journal : RunJournal) :
    Writes permit journal (journal.emitCompletedWaves env) := by
  unfold emitCompletedWaves
  split
  · exact writes_refl
  · refine writes_foldl (fun wave _ reporting => ?_) journal
    unfold emitWaveCompletion
    split
    · exact writes_report env rfl _ reporting
    · exact writes_refl

/-- A node that waits in a snapshot behind one that ended without completing. -/
def SkipsIn (snapshot : DagRunRecordV1) (id : DagNodeId) (target : DagNodeState) : Prop :=
  target = .skipped ∧ ∃ node ∈ snapshot.nodes, node.id = id ∧ node.state.isWaiting = true ∧
    hasFailedDependency snapshot node.dependsOn = some true

theorem exists_failed_of_hasFailedDependency
    (failed : hasFailedDependency record dependsOn = some true) :
    ∃ dep state, stateOf record dep = some state ∧ state.isTerminal = true ∧
      state ≠ .completed := by
  unfold hasFailedDependency at failed
  induction dependsOn with
  | nil => simp at failed
  | cons dep rest ih =>
    obtain ⟨dependencies, found, someEnded⟩ := Option.map_eq_some_iff.mp failed
    simp only [List.mapM_cons, Option.bind_eq_bind, Option.bind_eq_some_iff, Option.pure_def,
      Option.some.injEq] at found
    obtain ⟨node, lookup, later, foundLater, rfl⟩ := found
    rw [List.any_cons, Bool.or_eq_true, Bool.and_eq_true, bne_iff_ne] at someEnded
    rcases someEnded with here | further
    · exact ⟨dep, node.state, by rw [stateOf, lookup, Option.map_some], here⟩
    · exact ih (by rw [foundLater, Option.map_some, further])

theorem writes_cascadePass (journal : RunJournal) :
    Writes (SkipsIn journal.cache) journal (journal.cascadePass env).1 := by
  suffices general : ∀ nodes : List DagNode, (∀ node ∈ nodes, node ∈ journal.cache.nodes) →
      ∀ progress : RunJournal × Bool, Writes (SkipsIn journal.cache) progress.1
        (nodes.foldl (cascadeNode env journal.cache) progress).1 from
    general _ (fun _ => id) (journal, false)
  intro nodes
  induction nodes with
  | nil => exact fun _ _ => writes_refl
  | cons node nodes ih =>
    intro listed progress
    refine Writes.trans ?_ (ih
      (fun other member => listed other (List.mem_cons_of_mem node member)) _)
    unfold cascadeNode
    split
    · exact writes_refl
    · split
      · exact writes_staged (staged_thrown progress.1 true)
      · rename_i failed
        have isWaiting : node.state.isWaiting = true := by simp_all
        exact writes_transition env
          ⟨rfl, node, listed node List.mem_cons_self, rfl, isWaiting, failed⟩ .skipped _
      · exact writes_refl

/-- What every pass keeps, the whole cascade keeps. -/
theorem cascade_keeps {Holds : RunJournal → Prop}
    (pass : ∀ journal, Holds journal → Holds (journal.cascadePass env).1) {journal : RunJournal}
    (holds : Holds journal) (fuel : Nat) : Holds (cascade env fuel journal) := by
  induction fuel generalizing journal with
  | zero => exact holds
  | succ fuel ih =>
    unfold cascade
    simp only
    split
    · exact ih (pass journal holds)
    · exact pass journal holds

end RunJournal

end OpenAgent.Dag
