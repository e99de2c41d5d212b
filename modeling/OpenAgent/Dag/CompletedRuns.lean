import OpenAgent.Dag.RunAccount

/-!
# Completed runs

When every node is terminal, the scheduler looks for a failed node and reports a
completed run if there is none.  A cancelled node that a retry has left alone, or a
skipped one whose failed ancestor has been revived, does not keep it from that.
-/

namespace OpenAgent.Dag

open Library

def AllCompleted (record : DagRunRecordV1) : Prop :=
  ∀ node ∈ record.nodes, node.state = .completed

/-- If a step appends `dag.run.completed`, every node of the record is completed
before it and behind it. -/
def CompletesWhole (state next : SchedulerState) : Prop :=
  ∀ events, next.journal.log = state.journal.log ++ events →
    ∀ event ∈ events, ∀ counts, event.payload = .runCompleted counts →
      AllCompleted state.journal.durable ∧ AllCompleted next.journal.durable

/-- A record whose terminal nodes are accounted for and in which no wave lists a
failed node is completed. -/
theorem Accounted.allCompleted (accounted : Accounted held record) (charted : Charted record)
    (terminal : ∀ node ∈ record.nodes, node.state.isTerminal = true)
    (noneFailed : RunJournal.primaryFailure record = some none) : AllCompleted record := by
  have notFailed : ∀ ids, RunJournal.firstFailed record ids = some none → ∀ id ∈ ids,
      stateOf record id ≠ some .failed := by
    intro ids
    induction ids with
    | nil => simp
    | cons first rest ih =>
      intro none id member
      unfold RunJournal.firstFailed at none
      split at none
      · cases none
      · rename_i node found
        split at none
        · simp at none
        · rename_i isOther
          rcases List.mem_cons.mp member with rfl | later
          · rw [stateOf, found, Option.map_some, Ne, Option.some.injEq]
            exact isOther
          · exact ih none id later
  have unfailed : ∀ node ∈ record.nodes, node.state ≠ .failed := by
    intro node member isFailed
    have inWave := charted.listed node.id (List.mem_map_of_mem member)
    refine notFailed _ noneFailed node.id inWave ?_
    rw [stateOf_of_mem charted.nodup member, isFailed]
  intro node member
  have ended := terminal node member
  cases isState : node.state with
  | completed => rfl
  | failed => exact absurd isState (unfailed node member)
  | cancelled => exact absurd isState (accounted.1 node member)
  | skipped =>
    obtain ⟨failed, failedMember, isFailed, _⟩ := accounted.2 ⟨node, member, isState⟩
    exact absurd isFailed (unfailed failed failedMember)
  | _ =>
    rw [isState] at ended
    cases ended

section Reports

open RunJournal (Writes)

variable {env : SchedulerEnv} {state next : SchedulerState}

/-- A step that adds no completion to the reported ends. -/
theorem completesWhole_of_endings (endings : next.journal.endings = state.journal.endings ++ added)
    (noCompletion : ∀ counts, .runCompleted counts ∉ added) : CompletesWhole state next := by
  intro events log event member counts isCompletion
  have split : next.journal.endings =
      state.journal.endings ++ (events.map (·.payload)).filter (·.endsRun) := by
    simp [RunJournal.endings, log]
  rw [endings, List.append_cancel_left_eq] at split
  refine absurd ?_ (noCompletion counts)
  rw [split, List.mem_filter, ← isCompletion]
  exact ⟨List.mem_map_of_mem member, by rw [isCompletion]; rfl⟩

theorem completesWhole_of_same (endings : next.journal.endings = state.journal.endings) :
    CompletesWhole state next :=
  completesWhole_of_endings (endings.trans (List.append_nil _).symm) fun _ => List.not_mem_nil

section

variable (journal : RunJournal)

/-- What an appended end adds. -/
theorem RunJournal.endings_append (payload : DagRunEventPayload) :
    ∃ added, (journal.append env payload).endings = journal.endings ++ added ∧
      ∀ other ∈ added, other = payload := by
  unfold RunJournal.append
  split
  · exact ⟨[], (List.append_nil _).symm, fun _ member => absurd member List.not_mem_nil⟩
  split
  · exact ⟨[], (List.append_nil _).symm, fun _ member => absurd member List.not_mem_nil⟩
  · refine ⟨[payload].filter (·.endsRun), ?_, ?_⟩
    · simp [RunJournal.endings, RunJournal.eventFor]
    · intro other member
      exact List.mem_singleton.mp (List.mem_filter.mp member).1

/-- A cancellation reports nothing but itself. -/
theorem RunJournal.finishCancellation_endings (reason : Option String) :
    ∃ added, (journal.finishCancellation env reason).endings = journal.endings ++ added ∧
      ∀ other ∈ added, ∃ counts cancelledNodeIds,
        other = .runCancelled reason counts cancelledNodeIds := by
  unfold RunJournal.finishCancellation
  generalize (journal.cache.nodes.filter fun node => !node.state.isTerminal).map (·.id) = ids
  have cancelled : Writes (fun _ _ => True) journal (journal.cancelNodes env ids) :=
    RunJournal.writes_foldl (fun id _ journal =>
      RunJournal.writes_transition env trivial .cancelled journal) journal
  obtain ⟨added, endings, each⟩ := @RunJournal.endings_append env (journal.cancelNodes env ids)
    (.runCancelled reason (countNodes (journal.cancelNodes env ids).cache.nodes) ids)
  rw [cancelled.endings_eq] at endings
  exact ⟨added, endings, fun other member => ⟨_, _, each other member⟩⟩

theorem completesWhole_cancelRemaining :
    CompletesWhole state (state.cancelRemaining env reason) := by
  obtain ⟨added, endings, each⟩ :=
    @RunJournal.finishCancellation_endings env state.journal reason
  refine completesWhole_of_endings endings ?_
  intro counts member
  obtain ⟨_, _, impossible⟩ := each _ member
  cases impossible

/-- How a run ends that was not cancelled. -/
theorem RunJournal.finishRun_cases :
    journal.finishRun env = { journal with thrown := true } ∨
      (RunJournal.primaryFailure journal.cache = some none ∧ journal.finishRun env =
          journal.append env (.runCompleted (countNodes journal.cache.nodes))) ∨
      ∃ error, journal.finishRun env =
        journal.append env (.runFailed error (countNodes journal.cache.nodes)) := by
  unfold RunJournal.finishRun
  split
  · exact Or.inl rfl
  · rename_i noneFailed
    exact Or.inr (Or.inl ⟨noneFailed, rfl⟩)
  · exact Or.inr (Or.inr ⟨_, rfl⟩)

theorem RunJournal.append_completed_nodes :
    (journal.append env (.runCompleted counts)).durable.nodes = journal.durable.nodes := by
  unfold RunJournal.append
  split
  · rfl
  split <;> rfl

end

section

variable
  (charted : Charted state.journal.durable)
  (accounted : Accounted held state.journal.durable)
  (synced : state.journal.cache = state.journal.durable)
include charted accounted synced

/-- The report at the end of a run. -/
theorem completesWhole_finishRun
    (terminal : ∀ node ∈ state.journal.durable.nodes, node.state.isTerminal = true) :
    CompletesWhole state ((state.onJournal (·.finishRun env)).endTurn .finished) := by
  have ended : ((state.onJournal (·.finishRun env)).endTurn .finished).journal.endings =
        (state.journal.finishRun env).endings ∧
      ((state.onJournal (·.finishRun env)).endTurn .finished).journal.durable =
        (state.journal.finishRun env).durable := by
    unfold SchedulerState.endTurn
    split <;> exact ⟨rfl, rfl⟩
  rcases @RunJournal.finishRun_cases env state.journal with
    threw | ⟨noneFailed, completed⟩ | ⟨error, failed⟩
  · rw [threw] at ended
    exact completesWhole_of_same ended.1
  · rw [synced] at noneFailed
    have whole := accounted.allCompleted charted terminal noneFailed
    intro events log event member counts isCompletion
    refine ⟨whole, ?_⟩
    rw [ended.2, completed, AllCompleted, RunJournal.append_completed_nodes]
    exact whole
  · rw [failed] at ended
    obtain ⟨added, endings, each⟩ := @RunJournal.endings_append env state.journal
      (.runFailed error (countNodes state.journal.cache.nodes))
    refine completesWhole_of_endings (ended.1.trans endings) ?_
    intro counts member
    cases each _ member

theorem completesWhole_afterAdmission : CompletesWhole state (state.afterAdmission env) := by
  unfold SchedulerState.afterAdmission
  split
  · rename_i allTerminal
    rw [synced, List.all_eq_true] at allTerminal
    exact completesWhole_finishRun charted accounted synced allTerminal
  split
  · exact completesWhole_of_same rfl
  · unfold SchedulerState.settleOne
    split <;> exact completesWhole_of_same rfl

end

/-- A step that keeps the account reports a completed run only when every node has
completed. -/
theorem completesWhole_step (framed : state.Framed) (onAccount : state.OnAccount)
    (keeps : KeepsAccount state label.2) (stepped : sharedStep sha256 state label = some next) :
    CompletesWhole state next := by
  obtain ⟨env, action⟩ := label
  cases SharedMove.of_step stepped with
  | @scheduler action _ own stepped =>
    by_cases returned : action = .admissionReturned
    · subst returned
      cases SchedulerMove.of_step stepped with
      | admissionReturned before =>
        rcases onAccount with decided | accountable
        · rw [SchedulerState.isDecided, before] at decided
          cases decided
        · exact completesWhole_afterAdmission framed.charted accountable.accounted keeps
    by_cases cancelled : action = .tasksCancelled
    · subst cancelled
      cases SchedulerMove.of_step stepped
      exact completesWhole_cancelRemaining
    · exact completesWhole_of_same (SchedulerState.endings_of_step own returned cancelled stepped)
  | commit | amend | lease => exact completesWhole_of_same rfl
  | reenter preAttachedTasks =>
    intro events log event member
    have noLog : (SchedulerState.initial state.journal.durable state.journal.files
        preAttachedTasks).journal.log = [] := SchedulerState.initial_log
    rw [noLog] at log
    rw [(List.append_eq_nil_iff.mp log.symm).2] at member
    cases member

/-- The frame and the account of a shared run. -/
structure AccountKept (state : SchedulerState) : Prop where
  framed : state.Framed
  onAccount : state.OnAccount

/-- In every run whose steps keep the account, `dag.run.completed` is appended only
when every node has completed. -/
theorem completesWhole_of_keepsAccount {sha256 : List Char → String} {start : DagStart}
    (accepted : start.Accepted) (files : ResultFiles) {labels : List (SchedulerEnv × SharedAction)}
    (keeps : EveryStep (sharedStep sha256) (fun state label _ => KeepsAccount state label.2)
      (start.scheduler files) labels) :
    EveryStep (sharedStep sha256) (fun state _ next => CompletesWhole state next)
      (start.scheduler files) labels := by
  have pending := compileDag_nodes_pending accepted
  have accounted : Accounted [] start.created := by
    refine ⟨?_, ?_⟩
    · intro node member
      rw [pending node member]
      simp
    · rintro ⟨node, member, isSkipped⟩
      rw [pending node member] at isSkipped
      cases isSkipped
  have initially : AccountKept (start.scheduler files) :=
    ⟨SchedulerState.framed_initial (charted_created accepted),
      @SchedulerState.onAccount_initial start.created [] accounted files⟩
  have each : ∀ state label next, AccountKept state → KeepsAccount state label.2 →
      sharedStep sha256 state label = some next →
        CompletesWhole state next ∧ AccountKept next := by
    intro state label next kept keeps stepped
    exact ⟨completesWhole_step kept.framed kept.onAccount keeps stepped,
      kept.framed.step stepped, kept.onAccount.step kept.framed keeps stepped⟩
  exact keeps.of_invariant each initially

/-- The run is cancelled while its nodes start. -/
def cancelledPair : List SharedAction :=
  [ .scheduler .run, .scheduler (.cancel "dag_1" none),
    .scheduler (.batchAnswered [.rejected "aborted", .rejected "aborted"]),
    .scheduler .admissionIdle, .scheduler .tasksCancelled, .scheduler .cancelledReturned ]

/-- The commits of a retry of some nodes, up to the new scheduler. -/
def retryCommits (nodeIds : List DagNodeId) : List SharedAction :=
  nodeIds.map (fun id => .commit .empty (.nodeRetried id none 1 false)) ++
    [.commit .empty (.runResumed 2)]

/-- The retry of some nodes, without another prompt. -/
def plainRetry (nodeIds : Option (List DagNodeId)) : RetryRequest where
  nodeIds := nodeIds
  prompt := none
  hostPid := 1
  effectivePrompts := fun _ => none
  materializedDiagnostics := []
  atTime := "2026-01-01T00:00:03.000Z"

/-- The new scheduler starts both nodes, and both complete. -/
def completedPair : List SharedAction :=
  [ .reenter [], .scheduler .run,
    .scheduler (.batchAnswered [runningTask "task_a", runningTask "task_b"]),
    .scheduler .admissionReturned, .scheduler (.taskSettled "a" (completedTask "task_a")),
    .scheduler .settleReturned, .scheduler .admissionReturned,
    .scheduler (.taskSettled "b" (completedTask "task_b")), .scheduler .settleReturned,
    .scheduler .admissionReturned ]

/-- The new scheduler starts the first node, and it completes. -/
def completedFirst : List SharedAction :=
  [ .reenter [], .scheduler .run, .scheduler (.batchAnswered [runningTask "task_a"]),
    .scheduler .admissionReturned, .scheduler (.taskSettled "a" (completedTask "task_a")),
    .scheduler .settleReturned ]

/-- A retry of every cancelled node leads to a completed run. -/
theorem completesWhole_wholeRetry :
    ∃ cancelled final, execute (sharedStep lengthDigest) (pairStart.scheduler noFiles)
        ((cancelledPair ++ retryCommits ["a", "b"]).map (sampleEnv, ·)) = some cancelled ∧
      execute (sharedStep lengthDigest) cancelled (completedPair.map (sampleEnv, ·)) = some final ∧
      final.journal.durable.status = .completed ∧
      EveryStep (sharedStep lengthDigest) (fun state _ next => CompletesWhole state next)
        (pairStart.scheduler noFiles)
        ((cancelledPair ++ retryCommits ["a", "b"] ++ completedPair).map (sampleEnv, ·)) := by
  have status : (execute (sharedStep lengthDigest) (pairStart.scheduler noFiles)
      ((cancelledPair ++ retryCommits ["a", "b"] ++ completedPair).map (sampleEnv, ·))).map
        (·.journal.durable.status) = some .completed := by
    decide +kernel
  obtain ⟨final, reached, isCompleted⟩ := Option.map_eq_some_iff.mp status
  rw [List.map_append, execute_append_eq_some] at reached
  obtain ⟨cancelled, retried, finished⟩ := reached
  have accepted : pairStart.Accepted := by decide +kernel
  exact ⟨cancelled, final, retried, finished, isCompleted,
    completesWhole_of_keepsAccount accepted noFiles (by decide +kernel)⟩

/-- A retry of one of two cancelled nodes is accepted; when that node completes, the
run is reported as completed with the other node cancelled. -/
theorem not_completesWhole_partialRetry :
    ∃ cancelled retried final next, execute (sharedStep lengthDigest) (pairStart.scheduler noFiles)
        (cancelledPair.map (sampleEnv, ·)) = some cancelled ∧
      execute (sharedStep lengthDigest) cancelled ((retryCommits ["a"]).map (sampleEnv, ·)) =
        some retried ∧
      (retryDagNodes sampleEnv lengthDigest cancelled.stored (plainRetry (some ["a"]))).2 = none ∧
      (retryDagNodes sampleEnv lengthDigest cancelled.stored
        (plainRetry (some ["a"]))).1.record = retried.journal.durable ∧
      execute (sharedStep lengthDigest) retried (completedFirst.map (sampleEnv, ·)) = some final ∧
      sharedStep lengthDigest final (sampleEnv, .scheduler .admissionReturned) = some next ∧
      ¬ CompletesWhole final next := by
  obtain ⟨cancelled, isCancelled, retried, isRetried, isAccepted, sameRecord, final, isFinal, next,
      isNext, grows, reports, node, member, isState⟩ :
      ∃ cancelled, execute (sharedStep lengthDigest) (pairStart.scheduler noFiles)
          (cancelledPair.map (sampleEnv, ·)) = some cancelled ∧
      ∃ retried, execute (sharedStep lengthDigest) cancelled
          ((retryCommits ["a"]).map (sampleEnv, ·)) = some retried ∧
        (retryDagNodes sampleEnv lengthDigest cancelled.stored
          (plainRetry (some ["a"]))).2 = none ∧
        (retryDagNodes sampleEnv lengthDigest cancelled.stored
          (plainRetry (some ["a"]))).1.record = retried.journal.durable ∧
      ∃ final, execute (sharedStep lengthDigest) retried
          (completedFirst.map (sampleEnv, ·)) = some final ∧
      ∃ next, sharedStep lengthDigest final (sampleEnv, .scheduler .admissionReturned) =
          some next ∧
        next.journal.log = final.journal.log ++ next.journal.log.drop final.journal.log.length ∧
        (next.journal.log.drop final.journal.log.length).map (·.payload) =
          [.runCompleted (countNodes final.journal.durable.nodes)] ∧
        ∃ node ∈ final.journal.durable.nodes, node.state = .cancelled := by
    decide +kernel
  refine ⟨cancelled, retried, final, next, isCancelled, isRetried, isAccepted, sameRecord,
    isFinal, isNext, ?_⟩
  intro whole
  obtain ⟨event, eventMember, isPayload⟩ := List.mem_map.mp
    (reports ▸ List.mem_singleton_self _ : .runCompleted (countNodes final.journal.durable.nodes) ∈
        (next.journal.log.drop final.journal.log.length).map (·.payload))
  have isCompleted := (whole _ grows event eventMember _ isPayload).1 node member
  rw [isState] at isCompleted
  cases isCompleted

end Reports

end OpenAgent.Dag
