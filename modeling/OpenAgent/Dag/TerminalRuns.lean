import OpenAgent.Dag.NodeSend

/-!
# Terminal runs and terminal nodes

A handle stops watching a run whose status is terminal, on the ground that no node
of it can move any more.  The scheduler ends a run only when its nodes are terminal,
but the reducer takes transitions, retries and amendments whatever the status is.
-/

namespace OpenAgent.Dag

open Library

/-- A terminal run has terminal nodes. -/
def TerminalSettled (record : DagRunRecordV1) : Prop :=
  record.status.isTerminal = true → ∀ node ∈ record.nodes, node.state.isTerminal = true
  deriving Decidable

/-- The event takes no node out of a terminal state. -/
def LeavesEnded : DagRunEventPayload → Prop
  | .nodeTransitioned _ _ target _ => target.isTerminal = true
  | .nodeRetried _ _ _ _ => False
  | .definitionAmended amendment => ∀ node ∈ amendment.nodes, node.state.isTerminal = true
  | _ => True

instance : DecidablePred LeavesEnded := fun payload =>
  match payload with
  | .nodeTransitioned _ _ _ _ => inferInstanceAs (Decidable (_ = _))
  | .nodeRetried _ _ _ _ => isFalse id
  | .definitionAmended _ => inferInstanceAs (Decidable (∀ _ ∈ _, _))
  | .runCreated _ _ _ _ _ | .runStarted _ | .runPaused _ | .runResumed _ | .runCompleted _
  | .runFailed _ _ | .runCancelled _ _ _ | .waveStarted _ _ | .waveCompleted _ _
  | .nodeTaskAttached _ _ _ | .nodeReused _ _ _ | .nodeSteered _ _ _
  | .diagnosticAdded _ | .streamOverflow _ _ => isTrue trivial

section

variable (sha256 : List Char → String)

/-- The amendment that a request asks for. -/
def requestedAmendment (read : DagRunRecordV1) (request : AmendRequest) : DagRunEventPayload :=
  .definitionAmended (amendmentOf sha256 read request
    (compileDag request.definition request.settings request.atTime))

variable (state : SchedulerState)

/-- The scheduler has seen the record when it ends the run, and while the run is
terminal other instances commit nothing that takes a node out of a terminal
state. -/
def KeepsEnded : SharedAction → Prop
  | .scheduler .admissionReturned | .scheduler .tasksCancelled =>
    state.journal.cache = state.journal.durable
  | .scheduler _ | .lease _ _ _ _ | .reenter _ => True
  | .commit _ payload =>
    state.journal.durable.status.isTerminal = true → LeavesEnded payload
  | .amend read request =>
    state.journal.durable.status.isTerminal = true →
      LeavesEnded (requestedAmendment sha256 read request)

instance  :
    DecidablePred (KeepsEnded sha256 state) := fun action =>
  match action with
  | .scheduler .admissionReturned | .scheduler .tasksCancelled =>
    inferInstanceAs (Decidable (_ = _))
  | .scheduler .run | .scheduler .settleReturned | .scheduler (.batchAnswered _)
  | .scheduler (.taskSettled _ _) | .scheduler .settlementSignalled
  | .scheduler .cancellationObserved | .scheduler (.promoted _) | .scheduler (.cancel _ _)
  | .scheduler .admissionIdle | .scheduler .cancelledReturned
  | .scheduler (.foreignCommit _) | .scheduler (.foreignEvent _) | .scheduler .refresh
  | .lease _ _ _ _ | .reenter _ => isTrue trivial
  | .commit _ _ => inferInstanceAs (Decidable (_ → _))
  | .amend _ _ => inferInstanceAs (Decidable (_ → _))

end

section Nodes

variable {before after : DagRunRecordV1} {permit : DagNodeId → DagNodeState → Prop}

/-- Every node of a record is terminal. -/
def NodesTerminal (record : DagRunRecordV1) : Prop :=
  ∀ node ∈ record.nodes, node.state.isTerminal = true

theorem nodesTerminal_iff (charted : Charted before) :
    NodesTerminal before ↔
      ∀ id state, stateOf before id = some state → state.isTerminal = true := by
  constructor
  · intro terminal id state isState
    obtain ⟨node, member, _, nodeState, _⟩ := exists_of_stateOf isState
    rw [← nodeState]
    exact terminal node member
  · intro terminal node member
    exact terminal node.id node.state (stateOf_of_mem charted.nodup member)

theorem NodesTerminal.rewritten (terminal : NodesTerminal before) (charted : Charted before)
    (rewritten : Rewritten permit before after)
    (settles : ∀ id target, permit id target → target.isTerminal = true) : NodesTerminal after := by
  rw [nodesTerminal_iff charted] at terminal
  rw [nodesTerminal_iff (charted.of_skeleton rewritten.skeleton_eq)]
  intro id state isState
  rcases rewritten.moved id state isState with earlier | permitted
  · exact terminal id state earlier
  · exact settles id state permitted

/-- Nothing is runnable in a snapshot whose nodes are terminal. -/
theorem runnableNodes_of_terminal (terminal : NodesTerminal before) :
    RunJournal.runnableNodes before denied before.nodes = some [] := by
  have none : ∀ nodes : List DagNode, (∀ node ∈ nodes, node.state.isTerminal = true) →
      RunJournal.runnableNodes before denied nodes = some [] := by
    intro nodes
    induction nodes with
    | nil => exact fun _ => rfl
    | cons node nodes ih =>
      intro every
      obtain ⟨ended, rest⟩ := List.forall_mem_cons.mp every
      have notWaiting : node.state.isWaiting = false := by
        cases isState : node.state <;> rw [isState] at ended <;> first | rfl | cases ended
      rw [RunJournal.runnableNodes, if_neg (by simp [notWaiting])]
      exact ih rest
  exact none before.nodes terminal

end Nodes

namespace RunJournal

variable {env : SchedulerEnv} {journal next : RunJournal} {permit : DagNodeId → DagNodeState → Prop}

/-- The nodes are terminal on disk and in the snapshot. -/
structure Ended (journal : RunJournal) : Prop where
  stored : NodesTerminal journal.durable
  seen : NodesTerminal journal.cache

theorem Ended.writes (ended : Ended journal) (charted : Charted journal.durable)
    (writes : Writes permit journal next)
    (settles : ∀ id target, permit id target → target.isTerminal = true) : Ended next := by
  have stored := ended.stored.rewritten charted writes.record settles
  refine ⟨stored, ?_⟩
  rcases writes.touched with ⟨_, cache⟩ | synced
  · rw [cache]
    exact ended.seen
  · rw [synced]
    exact stored

/-- A transition on a journal that is up to date. -/
theorem transition_reaches (charted : Charted journal.durable)
    (synced : journal.cache = journal.durable) (unthrown : journal.thrown = false)
    {nodeId : DagNodeId} (known : (stateOf journal.durable nodeId).isSome) (target : DagNodeState)
    (reason : DagNodeTransitionReason) :
    let next := journal.transition env nodeId target reason
    next.cache = next.durable ∧ next.thrown = false ∧
      skeleton next.durable = skeleton journal.durable ∧
      stateOf next.durable = moveTo target [nodeId] (stateOf journal.durable) := by
  obtain ⟨state, isState⟩ := Option.isSome_iff_exists.mp known
  obtain ⟨node, _, _, _, found⟩ := exists_of_stateOf isState
  unfold transition
  rw [synced, found]
  simp only
  unfold append
  rw [if_neg (by simp [unthrown])]
  split
  · rename_i skipped
    exact ⟨rfl, unthrown, rfl, (statesAfter_of_skipped charted.nodup skipped).symm⟩
  · obtain ⟨skeletonEq, statesEq, _⟩ := applyDagSchedulerEvent_view env.isAlive
      (env.store (journal.eventFor env (.nodeTransitioned nodeId node.state target reason)).seq)
      journal.tables
      (env.copyTime (journal.eventFor env (.nodeTransitioned nodeId node.state target reason)).seq)
      journal.files journal.durable
      (show (journal.eventFor env
        (.nodeTransitioned nodeId node.state target reason)).payload.rewrites = false from rfl)
    exact ⟨rfl, unthrown, skeletonEq, statesEq⟩

theorem cancelNodes_reaches (charted : Charted journal.durable)
    (synced : journal.cache = journal.durable) (unthrown : journal.thrown = false)
    {nodeIds : List DagNodeId} (known : ∀ id ∈ nodeIds, (stateOf journal.durable id).isSome) :
    let next := journal.cancelNodes env nodeIds
    next.cache = next.durable ∧ skeleton next.durable = skeleton journal.durable ∧
      stateOf next.durable = moveTo .cancelled nodeIds (stateOf journal.durable) := by
  induction nodeIds generalizing journal with
  | nil => exact ⟨synced, rfl, (moveTo_nil _).symm⟩
  | cons nodeId nodeIds ih =>
    obtain ⟨syncedNext, unthrownNext, skeletonEq, statesEq⟩ := @transition_reaches env journal
      charted synced unthrown nodeId (known nodeId List.mem_cons_self) .cancelled .cancelled
    have knownNext : ∀ id ∈ nodeIds, (stateOf (journal.transition env nodeId .cancelled
        .cancelled).durable id).isSome := by
      intro id member
      rw [statesEq, moveTo_isSome]
      exact known id (List.mem_cons_of_mem nodeId member)
    obtain ⟨syncedLast, skeletonLast, statesLast⟩ := ih
      (charted.of_skeleton skeletonEq) syncedNext unthrownNext knownNext
    refine ⟨syncedLast, skeletonLast.trans skeletonEq, statesLast.trans ?_⟩
    rw [statesEq, moveTo_cons]

variable {payload : DagRunEventPayload}

/-- An event about the whole run leaves the nodes alone. -/
theorem append_nodes (ends : payload.endsRun = true) (journal : RunJournal) :
    (journal.append env payload).durable.nodes = journal.durable.nodes ∧
      ((journal.append env payload).cache = journal.cache ∨
        (journal.append env payload).cache = (journal.append env payload).durable) := by
  unfold append
  split
  · exact ⟨rfl, Or.inl rfl⟩
  split
  · exact ⟨rfl, Or.inr rfl⟩
  · refine ⟨?_, Or.inr rfl⟩
    cases payload with
    | runCompleted | runFailed | runCancelled => rfl
    | _ => cases ends

theorem Ended.append (ended : Ended journal) (ends : payload.endsRun = true) :
    Ended (journal.append env payload) := by
  obtain ⟨nodes, cache⟩ := @append_nodes env payload ends journal
  have stored : NodesTerminal (journal.append env payload).durable := by
    rw [NodesTerminal, nodes]
    exact ended.stored
  refine ⟨stored, ?_⟩
  rcases cache with same | synced
  · rw [same]
    exact ended.seen
  · rw [synced]
    exact stored

/-- A cancelled run has only terminal nodes left. -/
theorem ended_finishCancellation (charted : Charted journal.durable)
    (synced : journal.cache = journal.durable) (unthrown : journal.thrown = false)
    (reason : Option String) : Ended (journal.finishCancellation env reason) := by
  unfold finishCancellation
  simp only [synced]
  have members : ∀ id,
      id ∈ (journal.durable.nodes.filter fun node => !node.state.isTerminal).map (·.id) →
        (stateOf journal.durable id).isSome := by
    intro id member
    obtain ⟨node, nodeMember, rfl⟩ := List.mem_map.mp member
    rw [stateOf_of_mem charted.nodup (List.mem_filter.mp nodeMember).1]
    rfl
  obtain ⟨syncedNext, skeletonEq, statesEq⟩ := @cancelNodes_reaches env journal charted synced
    unthrown _ members
  have stored : NodesTerminal (journal.cancelNodes env
      ((journal.durable.nodes.filter fun node => !node.state.isTerminal).map (·.id))).durable := by
    rw [nodesTerminal_iff (charted.of_skeleton skeletonEq), statesEq]
    intro id state isState
    rcases moveTo_eq_some.mp isState with ⟨_, _, rfl⟩ | ⟨notCancelled, earlier⟩
    · rfl
    · obtain ⟨node, member, isId, nodeState, _⟩ := exists_of_stateOf earlier
      by_contra active
      refine notCancelled (List.mem_map.mpr ⟨node, List.mem_filter.mpr ⟨member, ?_⟩, isId⟩)
      rw [nodeState]
      simpa using active
  refine Ended.append ⟨stored, ?_⟩ rfl
  rw [syncedNext]
  exact stored

/-- After an exception the cancellation writes nothing more. -/
theorem finishCancellation_thrown (thrown : journal.thrown = true) (reason : Option String) :
    (journal.finishCancellation env reason).durable = journal.durable ∧
      (journal.finishCancellation env reason).cache = journal.cache := by
  have cancels : ∀ (nodeIds : List DagNodeId) (journal : RunJournal), journal.thrown = true →
      (journal.cancelNodes env nodeIds).durable = journal.durable ∧
        (journal.cancelNodes env nodeIds).cache = journal.cache ∧
        (journal.cancelNodes env nodeIds).thrown = true := by
    intro nodeIds
    induction nodeIds with
    | nil => exact fun _ thrown => ⟨rfl, rfl, thrown⟩
    | cons nodeId nodeIds ih =>
      intro journal thrown
      have first : (journal.transition env nodeId .cancelled .cancelled).durable = journal.durable ∧
          (journal.transition env nodeId .cancelled .cancelled).cache = journal.cache ∧
          (journal.transition env nodeId .cancelled .cancelled).thrown = true := by
        unfold transition
        split
        · exact ⟨rfl, rfl, rfl⟩
        · rw [append, if_pos thrown]
          exact ⟨rfl, rfl, thrown⟩
      obtain ⟨durable, cache, still⟩ := ih _ first.2.2
      exact ⟨durable.trans first.1, cache.trans first.2.1, still⟩
  unfold finishCancellation
  obtain ⟨durable, cache, still⟩ := cancels
    ((journal.cache.nodes.filter fun node => !node.state.isTerminal).map (·.id)) journal thrown
  rw [append, if_pos still]
  exact ⟨durable, cache⟩

end RunJournal

namespace SchedulerState

/-- The run is decided, or nothing of it is starting or parked. -/
def AtRest (state : SchedulerState) : Prop :=
  state.isDecided = true ∨
    ((∀ batch, state.phase ≠ .starting batch) ∧ state.pendingAdmission = [])

/-- Once the run is terminal, its nodes are and the scheduler is at rest. -/
structure Ends (state : SchedulerState) : Prop where
  ended : state.journal.durable.status.isTerminal = true → state.journal.Ended
  atRest : state.journal.durable.status.isTerminal = true → state.AtRest

section Turns

open RunJournal (Writes)

variable {env : SchedulerEnv} {state next : SchedulerState}
variable {permit : DagNodeId → DagNodeState → Prop}

theorem atRest_of_phase
    (ended : state.phase = .cancelling ∨ state.phase = .threw ∨ state.phase = .finished) :
    state.AtRest := by
  left
  unfold isDecided
  rcases ended with isPhase | isPhase | isPhase <;> rw [isPhase]

theorem AtRest.same (atRest : state.AtRest) (phase : next.phase = state.phase)
    (parked : next.pendingAdmission = state.pendingAdmission)
    (started : next.cancellationStarted = state.cancellationStarted) : next.AtRest := by
  rw [AtRest, isDecided, phase, parked, started]
  exact atRest

/-- Where the scheduler only settles nodes. -/
theorem Ends.writes (ends : state.Ends) (charted : Charted state.journal.durable)
    (writes : Writes permit state.journal next.journal)
    (settles : ∀ id target, permit id target → target.isTerminal = true)
    (atRest : state.AtRest → next.AtRest) : next.Ends where
  ended := fun terminal =>
    (ends.ended (writes.record.status terminal)).writes charted writes settles
  atRest := fun terminal => atRest (ends.atRest (writes.record.status terminal))

/-- Where a run that goes on is moved. -/
theorem Ends.of_open (writes : Writes permit state.journal next.journal)
    (goesOn : state.journal.durable.status.isTerminal = false) : next.Ends := by
  have still : next.journal.durable.status.isTerminal ≠ true := by
    intro terminal
    rw [writes.record.status terminal] at goesOn
    cases goesOn
  exact ⟨fun terminal => absurd terminal still, fun terminal => absurd terminal still⟩

/-- A step that leaves the record and the snapshot alone. -/
theorem Ends.same (ends : state.Ends) (durable : next.journal.durable = state.journal.durable)
    (cache : next.journal.cache = state.journal.cache) (atRest : state.AtRest → next.AtRest) :
    next.Ends where
  ended := by
    rw [durable]
    intro terminal
    have ended := ends.ended terminal
    exact ⟨durable ▸ ended.stored, cache ▸ ended.seen⟩
  atRest := by
    rw [durable]
    exact fun terminal => atRest (ends.atRest terminal)

theorem endTurn_journal (phase : RunPhase) :
    (state.endTurn phase).journal.durable = state.journal.durable ∧
      (state.endTurn phase).journal.cache = state.journal.cache := by
  unfold endTurn
  split <;> exact ⟨rfl, rfl⟩

theorem atRest_endTurn {phase : RunPhase} (notStarting : ∀ batch, phase ≠ .starting batch)
    (noneParked : state.pendingAdmission = []) : (state.endTurn phase).AtRest := by
  unfold endTurn
  split
  · exact atRest_of_phase (Or.inr (Or.inl rfl))
  · exact Or.inr ⟨notStarting, noneParked⟩

theorem atRest_settleOne (noneParked : state.pendingAdmission = []) :
    (state.settleOne inAdmission).AtRest := by
  unfold settleOne
  split
  · exact Or.inr ⟨fun _ impossible => (nomatch impossible), noneParked⟩
  · exact Or.inr ⟨fun _ impossible => (nomatch impossible), noneParked⟩

theorem settleOne_journal : (state.settleOne inAdmission).journal = state.journal := by
  unfold settleOne
  split <;> rfl

/-- An admission pass finds nothing to start on a terminal run. -/
theorem ends_admitFrontier
    (ended : state.journal.durable.status.isTerminal = true → state.journal.Ended)
    (noneParked : state.journal.durable.status.isTerminal = true →
      state.cancellationStarted = true ∨ state.pendingAdmission = []) :
    (state.admitFrontier env).Ends := by
  have writes := @writes_admitFrontier state env
  cases isTerminal : state.journal.durable.status.isTerminal with
  | false => exact Ends.of_open writes isTerminal
  | true =>
    have nodes := ended isTerminal
    unfold admitFrontier
    split
    · exact ⟨fun _ => nodes, fun _ => atRest_of_phase (Or.inl rfl)⟩
    · rename_i running
      have parked := (noneParked isTerminal).resolve_left running
      rw [runnableNodes_of_terminal nodes.seen]
      simp only [parked]
      exact ⟨fun _ => nodes, fun _ => Or.inr ⟨fun _ impossible => (nomatch impossible), rfl⟩⟩

theorem ends_runFrontier (charted : Charted state.journal.durable)
    (ended : state.journal.durable.status.isTerminal = true → state.journal.Ended)
    (noneParked : state.journal.durable.status.isTerminal = true →
      state.cancellationStarted = true ∨ state.pendingAdmission = []) :
    (state.runFrontier env).Ends := by
  unfold runFrontier
  split
  · exact ⟨ended, fun _ => atRest_of_phase (Or.inl rfl)⟩
  simp only
  have cascaded : ∃ journal : RunJournal, (if state.attachedTasks.isEmpty then
        state.onJournal (·.applyDependentSkipCascade env) else state) =
          { state with journal := journal } ∧
      Writes (fun _ target => target = .skipped) state.journal journal := by
    split
    · exact ⟨_, rfl, writes_cascade env _ _⟩
    · exact ⟨state.journal, rfl, RunJournal.writes_refl⟩
  obtain ⟨journal, isLater, writes⟩ := cascaded
  rw [isLater]
  have reported := writes.trans (RunJournal.writes_emitCompletedWaves env journal)
  have skips : ∀ (_ : DagNodeId) (target : DagNodeState), target = .skipped →
      target.isTerminal = true := by
    rintro _ target rfl
    rfl
  split
  · refine ⟨?_, fun _ => atRest_of_phase (Or.inr (Or.inl endTurn_threw))⟩
    rw [(endTurn_journal .threw).1]
    intro terminal
    have kept := (ended (writes.record.status terminal)).writes charted writes skips
    have same := @endTurn_journal { state with journal := journal } .threw
    exact ⟨same.1 ▸ kept.stored, same.2 ▸ kept.seen⟩
  · refine @ends_admitFrontier env { state with journal := journal.emitCompletedWaves env } ?_ ?_
    · exact fun terminal =>
        (ended (reported.record.status terminal)).writes charted reported skips
    · exact fun terminal => noneParked (reported.record.status terminal)

theorem ends_finishRun (ended : state.journal.Ended) :
    ((state.onJournal (·.finishRun env)).endTurn .finished).Ends := by
  have same := @endTurn_journal (state.onJournal (·.finishRun env)) .finished
  refine ⟨fun _ => ?_, fun _ => ?_⟩
  · have finished : RunJournal.Ended (state.journal.finishRun env) := by
      unfold RunJournal.finishRun
      split
      · exact ⟨ended.stored, ended.seen⟩
      · exact ended.append rfl
      · exact ended.append rfl
    exact ⟨same.1 ▸ finished.stored, same.2 ▸ finished.seen⟩
  · unfold endTurn
    split
    · exact atRest_of_phase (Or.inr (Or.inl rfl))
    · exact atRest_of_phase (Or.inr (Or.inr rfl))

theorem ends_afterAdmission (ends : state.Ends)
    (synced : state.journal.cache = state.journal.durable) (before : state.phase = .admitted) :
    (state.afterAdmission env).Ends := by
  have noneParked : state.AtRest → state.pendingAdmission = [] := by
    rintro (decided | ⟨_, parked⟩)
    · rw [isDecided, before] at decided
      cases decided
    · exact parked
  unfold afterAdmission
  split
  · rename_i allTerminal
    rw [List.all_eq_true] at allTerminal
    exact ends_finishRun ⟨synced ▸ allTerminal, allTerminal⟩
  split
  · exact ends.same rfl rfl fun _ => atRest_of_phase (Or.inr (Or.inl rfl))
  · exact ends.same (by rw [settleOne_journal]) (by rw [settleOne_journal])
      fun atRest => atRest_settleOne (noneParked atRest)

variable {nodeId : DagNodeId}

theorem ends_foldSettlement {inAdmission : Bool} (ends : state.Ends)
    (charted : Charted state.journal.durable) (before : state.phase = .settling inAdmission)
    (running : state.cancellationStarted = false) :
    ((state.foldSettlement env nodeId settlement).endTurn (.settled inAdmission)).Ends := by
  refine ends.writes charted
    (writes_endTurn (writes_foldSettlement env nodeId settlement) (.settled inAdmission)) ?_ ?_
  · rintro id target ⟨_, isSettled⟩
    simp only [List.mem_cons, List.not_mem_nil, or_false] at isSettled
    rcases isSettled with rfl | rfl <;> rfl
  · intro atRest
    refine atRest_endTurn (fun _ impossible => nomatch impossible) ?_
    have parked : state.pendingAdmission = [] := by
      rcases atRest with decided | ⟨_, parked⟩
      · rw [isDecided, before] at decided
        rw [running] at decided
        cases decided
      · exact parked
    cases settlement <;> exact parked

/-- A queued task is not promoted on a terminal run: its node is not scheduled. -/
theorem ends_foldPromotion (ends : state.Ends) (charted : Charted state.journal.durable) :
    (state.foldPromotion env nodeId true).caught.Ends := by
  cases isTerminal : state.journal.durable.status.isTerminal with
  | false =>
    have works := @works_foldPromotion env state (fun _ _ => True) nodeId
      (fun _ _ _ => trivial) true
    exact Ends.of_open (works.writes.trans writes_caught) isTerminal
  | true =>
    have seen := (ends.ended isTerminal).seen
    have works := @works_foldPromotion env state (fun _ _ => False) nodeId
      (fun node found isScheduled => by
        have ended := seen node (mem_of_nodeById found).1
        rw [isScheduled] at ended
        cases ended) true
    exact ends.writes charted (works.writes.trans writes_caught)
      (fun _ _ impossible => impossible.elim) fun atRest =>
        atRest.same works.control.phase works.control.pendingAdmission
          works.control.cancellationStarted

theorem ends_cancelRemaining (ends : state.Ends) (charted : Charted state.journal.durable)
    (synced : state.journal.cache = state.journal.durable) (decided : state.isDecided = true) :
    (state.cancelRemaining env reason).Ends := by
  refine ⟨fun terminal => ?_, fun _ => Or.inl decided⟩
  cases unthrown : state.journal.thrown with
  | false =>
    have ended := @RunJournal.ended_finishCancellation env state.journal charted synced unthrown
      reason
    exact ⟨ended.stored, ended.seen⟩
  | true =>
    obtain ⟨durable, cache⟩ := @RunJournal.finishCancellation_thrown env state.journal unthrown
      reason
    have before : state.journal.durable.status.isTerminal = true := durable ▸ terminal
    have ended := ends.ended before
    exact ⟨durable ▸ ended.stored, cache ▸ ended.seen⟩

variable {sha256 : List Char → String}

/-- The steps of the scheduler keep a terminal run settled. -/
theorem Ends.scheduler (framed : state.Framed) (ends : state.Ends) {action : SchedulerAction}
    (own : action.isCommit = false) (keeps : KeepsEnded sha256 state (.scheduler action))
    (stepped : schedulerStep env state action = some next) : next.Ends := by
  have charted := framed.charted
  have noneParked : state.phase = .idle ∨ (∃ inAdmission, state.phase = .settled inAdmission) →
      state.journal.durable.status.isTerminal = true →
        state.cancellationStarted = true ∨ state.pendingAdmission = [] := by
    intro before terminal
    refine (ends.atRest terminal).imp ?_ And.right
    intro decided
    rcases before with before | ⟨_, before⟩ <;> rwa [isDecided, before] at decided
  cases SchedulerMove.of_step stepped with
  | run before =>
    unfold startRun
    split
    · have started : Writes (fun _ _ => False) state.journal
          (state.journal.append env (.runStarted state.journal.cache.generation)) :=
        RunJournal.writes_note env rfl state.journal
      refine ends_runFrontier (charted.of_skeleton started.record.skeleton_eq) ?_ ?_
      · exact fun terminal => (ends.ended (started.record.status terminal)).writes charted
          started fun _ _ impossible => impossible.elim
      · exact fun terminal => noneParked (.inl before) (started.record.status terminal)
    · exact ends_runFrontier charted ends.ended (noneParked (.inl before))
  | @batchAnswered batch answers before =>
    refine Ends.of_open (writes_resumeBatch env batch answers) ?_
    rw [Bool.eq_false_iff]
    intro terminal
    rcases ends.atRest terminal with decided | ⟨notStarting, _⟩
    · rw [isDecided, before] at decided
      cases decided
    · exact notStarting batch before
  | admissionReturned before => exact ends_afterAdmission ends keeps before
  | settledLate | cancellationObserved =>
    exact ends.same rfl rfl fun _ => atRest_of_phase (Or.inl rfl)
  | taskSettled before _ running => exact ends_foldSettlement ends charted before running
  | settlementSignalled before =>
    refine ends.same rfl rfl ?_
    rintro (decided | ⟨_, parked⟩)
    · rw [isDecided, before] at decided
      exact Or.inl decided
    · exact Or.inr ⟨by rintro _ ⟨⟩, parked⟩
  | admits before => exact ends_admitFrontier ends.ended (noneParked (.inr ⟨_, before⟩))
  | loops before => exact ends_runFrontier charted ends.ended (noneParked (.inr ⟨_, before⟩))
  | promoted => exact ends_foldPromotion ends charted
  | cancel =>
    have decides := (framed.scheduler own stepped).2
    exact ends.same rfl rfl fun atRest => atRest.imp_left decides
  | admissionIdle => exact ends.same rfl rfl fun atRest => atRest.same rfl rfl rfl
  | tasksCancelled isCancelling =>
    exact ends_cancelRemaining ends charted keeps (framed.begun (by rw [isCancelling]; rfl))
  | cancelledReturned => exact ends.same rfl rfl fun _ => atRest_of_phase (Or.inr (Or.inr rfl))
  | foreignCommit => cases own
  | cancelIgnored | foreignStale => exact ends
  | _ =>
    exact ⟨fun terminal => ⟨(ends.ended terminal).stored, (ends.ended terminal).stored⟩,
      fun terminal => (ends.atRest terminal).same rfl rfl rfl⟩

theorem Ends.rewritten (ends : state.Ends) {run : StoredRun}
    (status : run.record.status.isTerminal = true → state.journal.durable.status.isTerminal = true)
    (nodes : state.journal.durable.status.isTerminal = true →
      NodesTerminal state.journal.durable → NodesTerminal run.record) :
    (state.rewritten run).Ends where
  ended := fun terminal =>
    have ended := ends.ended (status terminal)
    ⟨nodes (status terminal) ended.stored, ended.seen⟩
  atRest := fun terminal => ends.atRest (status terminal)

theorem Ends.step (framed : state.Framed) (ends : state.Ends) {label : SchedulerEnv × SharedAction}
    (keeps : KeepsEnded sha256 state label.2)
    (stepped : sharedStep sha256 state label = some next) : next.Ends := by
  obtain ⟨env, action⟩ := label
  cases SharedMove.of_step stepped with
  | scheduler own stepped => exact Ends.scheduler framed ends own keeps stepped
  | @commit payload tables goesOn plain =>
    have rewritten := rewritten_commit env state.stored tables goesOn plain
    refine ends.rewritten rewritten.status fun terminal nodes =>
      nodes.rewritten framed.charted rewritten ?_
    intro id target permitted
    have leaves := keeps terminal
    cases payload with
    | nodeTransitioned nodeId source moved reason =>
      rw [permitted.2]
      exact leaves
    | nodeRetried => exact leaves.elim
    | _ => exact permitted.elim
  | amend read request =>
    obtain ⟨refusal, refused⟩ | ⟨_, committed⟩ :=
      amendRunFrom_cases env sha256 read state.stored request
    · rw [refused]
      exact ends.rewritten id fun _ => id
    · rw [committed]
      refine ends.rewritten ?_ ?_
      · rw [commitMutation_amendment]
        split <;> exact id
      · intro terminal nodes
        rw [commitMutation_amendment]
        split
        · exact nodes
        · exact keeps terminal
  | lease => exact ends.rewritten id fun _ => id
  | reenter preAttachedTasks =>
    obtain ⟨durable, cache, phase, _, _, parked, _⟩ :=
      initial_fields state.journal.durable state.journal.files preAttachedTasks
    refine ⟨?_, ?_⟩
    · rw [durable]
      intro terminal
      have stored := (ends.ended terminal).stored
      refine ⟨?_, ?_⟩
      · rw [durable]
        exact stored
      · rw [cache]
        exact stored
    · refine fun _ => Or.inr ⟨?_, parked⟩
      rw [phase]
      exact fun _ impossible => nomatch impossible

end Turns

end SchedulerState

/-- The frame of a shared run whose terminal records are settled. -/
structure EndsKept (state : SchedulerState) : Prop where
  framed : state.Framed
  ends : state.Ends

/-- In every run in which the scheduler ends what it has seen, and in which no other
instance takes a node out of a terminal state while the run is terminal, every
terminal record has terminal nodes. -/
theorem terminalSettled_of_keepsEnded {sha256 : List Char → String} {start : DagStart}
    (accepted : start.Accepted) (files : ResultFiles) {labels : List (SchedulerEnv × SharedAction)}
    {state : SchedulerState}
    (reached : execute (sharedStep sha256) (start.scheduler files) labels = some state)
    (keeps : EveryStep (sharedStep sha256) (fun state label _ => KeepsEnded sha256 state label.2)
      (start.scheduler files) labels) :
    TerminalSettled state.journal.durable := by
  have initially : EndsKept (start.scheduler files) :=
    ⟨SchedulerState.framed_initial (charted_created accepted),
      fun impossible => (nomatch impossible), fun impossible => (nomatch impossible)⟩
  have preserved : ∀ state label next, EndsKept state → KeepsEnded sha256 state label.2 →
      sharedStep sha256 state label = some next → EndsKept next := by
    intro state label next kept keeps stepped
    exact ⟨kept.framed.step stepped, kept.ends.step kept.framed keeps stepped⟩
  have kept := invariant_of_execute preserved initially reached keeps
  exact fun terminal => (kept.ends.ended terminal).stored

/-- Both of two nodes have started, and the first one completes. -/
def firstCompleted : List SharedAction :=
  [ .scheduler .run, .scheduler (.batchAnswered [runningTask "task_a", runningTask "task_b"]),
    .scheduler .admissionReturned, .scheduler (.taskSettled "a" (completedTask "task_a")),
    .scheduler .settleReturned, .scheduler .admissionReturned ]

/-- The second node completes, and the run with it. -/
def secondCompleted : List SharedAction :=
  [ .scheduler (.taskSettled "b" (completedTask "task_b")), .scheduler .settleReturned,
    .scheduler .admissionReturned ]

/-- The commits of a send that has revived the first node. -/
def revivalCommits : List SharedAction :=
  [ .commit .empty (.nodeSteered "a" "task_a" .revive),
    .commit .empty (.nodeTransitioned "a" .completed .running .revived) ]

/-- The watcher of the revived node sees it complete again. -/
def revivedCompleted : List SharedAction :=
  [ .commit .empty (.nodeTransitioned "a" .running .completed .succeeded) ]

/-- A revival that is folded while the run goes on. -/
theorem terminalSettled_earlyRevival :
    ∃ final, execute (sharedStep lengthDigest) (pairStart.scheduler noFiles)
        ((firstCompleted ++ revivalCommits ++ revivedCompleted ++ secondCompleted).map
          (sampleEnv, ·)) = some final ∧
      final.journal.durable.status = .completed ∧
      TerminalSettled final.journal.durable := by
  obtain ⟨final, reached, isCompleted⟩ :
      ∃ final, execute (sharedStep lengthDigest) (pairStart.scheduler noFiles)
        ((firstCompleted ++ revivalCommits ++ revivedCompleted ++ secondCompleted).map
          (sampleEnv, ·)) = some final ∧ final.journal.durable.status = .completed := by
    decide +kernel
  have accepted : pairStart.Accepted := by decide +kernel
  exact ⟨final, reached, isCompleted,
    terminalSettled_of_keepsEnded accepted noFiles reached (by decide +kernel)⟩

/-- A send is accepted while the run goes on, and its delivery returns when the run
has completed: the revived node runs under a completed run. -/
theorem not_terminalSettled_lateRevival :
    ∃ asked node ended final, execute (sharedStep lengthDigest) (pairStart.scheduler noFiles)
        (firstCompleted.map (sampleEnv, ·)) = some asked ∧
      (sendTarget sampleEnv.isAlive 1 (fun _ => true) asked.journal.durable "a").toOption =
        some (node, "task_a") ∧
      execute (sharedStep lengthDigest) asked (secondCompleted.map (sampleEnv, ·)) = some ended ∧
      execute (sharedStep lengthDigest) ended (revivalCommits.map (sampleEnv, ·)) = some final ∧
      (foldSendOutcome sampleEnv ended.stored node "task_a" .revived).1.record =
        final.journal.durable ∧
      final.journal.durable.status = .completed ∧
      ¬ TerminalSettled final.journal.durable := by
  obtain ⟨asked, isAsked, ⟨node, taskId⟩, isTarget, ended, isEnded, final, isFinal, isTask, values⟩ :
      ∃ asked, execute (sharedStep lengthDigest) (pairStart.scheduler noFiles)
          (firstCompleted.map (sampleEnv, ·)) = some asked ∧
        ∃ target, (sendTarget sampleEnv.isAlive 1 (fun _ => true) asked.journal.durable
            "a").toOption = some target ∧
          ∃ ended, execute (sharedStep lengthDigest) asked (secondCompleted.map (sampleEnv, ·)) =
              some ended ∧
            ∃ final, execute (sharedStep lengthDigest) ended
                (revivalCommits.map (sampleEnv, ·)) = some final ∧
              target.2 = "task_a" ∧
              (foldSendOutcome sampleEnv ended.stored target.1 "task_a" .revived).1.record =
                final.journal.durable ∧
              final.journal.durable.status = .completed ∧
              ¬ TerminalSettled final.journal.durable := by
    decide +kernel
  cases isTask
  exact ⟨asked, node, ended, final, isAsked, isTarget, isEnded, isFinal, values⟩

end OpenAgent.Dag
