import OpenAgent.Dag.NodeRetry
import OpenAgent.Dag.RecordView
import OpenAgent.Dag.Recovery

/-!
# The attempts of nodes

Between an ordinary event and a verb, a node keeps its attempt or gets a later
one, and it goes back to pending only with a later one.  Only an amendment
changes which ids a run has.
-/

namespace OpenAgent.Dag

open Library

/-- The events outside retries, amendments and recovery; none of them puts a node
back to pending. -/
def isOrdinary : DagRunEventPayload → Bool
  | .nodeRetried _ _ _ _ | .definitionAmended _ => false
  | .nodeTransitioned _ _ target _ => target != .pending
  | _ => true

/-- A node after it was left alone, or moved on, or got a further attempt. -/
inductive Follows (old node : DagNode) : Prop
  | kept (sameId : old.id = node.id) (sameAttempt : old.execAttempt = node.execAttempt)
      (pending : node.state = .pending → old.state = .pending)
  | bumped (sameId : old.id = node.id) (later : old.execAttempt.getD 0 < node.execAttempt.getD 0)

theorem Follows.refl (node : DagNode) : Follows node node :=
  .kept rfl rfl id

theorem Follows.sameId (follows : Follows old node) : old.id = node.id := by
  cases follows with
  | kept sameId _ _ | bumped sameId _ => exact sameId

theorem Follows.attempt_le (follows : Follows old node) :
    old.execAttempt.getD 0 ≤ node.execAttempt.getD 0 := by
  cases follows with
  | kept _ sameAttempt _ => rw [sameAttempt]
  | bumped _ later => exact later.le

theorem Follows.trans (first : Follows old middle) (second : Follows middle node) :
    Follows old node := by
  have sameId := first.sameId.trans second.sameId
  cases second with
  | bumped _ later => exact .bumped sameId (first.attempt_le.trans_lt later)
  | kept _ sameAttempt pending =>
    cases first with
    | bumped _ later => exact .bumped sameId (sameAttempt ▸ later)
    | kept _ firstAttempt firstPending =>
      exact .kept sameId (firstAttempt.trans sameAttempt) (firstPending ∘ pending)

/-- The ids of a run and of its definition stay, and every node follows the one
with its id. -/
structure Continues (before after : DagRunRecordV1) : Prop where
  ids : after.nodes.map (·.id) = before.nodes.map (·.id)
  definition : after.definition.nodes.map (·.input.id) = before.definition.nodes.map (·.input.id)
  follows : ∀ node ∈ after.nodes, ∃ old ∈ before.nodes, Follows old node

/-- Commits that start nothing. -/
structure Advances (run next : StoredRun) : Prop where
  continues : Continues run.record next.record
  starts : next.starts = run.starts

theorem Continues.refl (record : DagRunRecordV1) : Continues record record :=
  ⟨rfl, rfl, fun node member => ⟨node, member, .refl node⟩⟩

theorem Continues.trans (first : Continues before middle) (second : Continues middle after) :
    Continues before after := by
  refine ⟨second.ids.trans first.ids, second.definition.trans first.definition, ?_⟩
  intro node member
  obtain ⟨between, isBetween, later⟩ := second.follows node member
  obtain ⟨old, isOld, earlier⟩ := first.follows between isBetween
  exact ⟨old, isOld, earlier.trans later⟩

theorem Advances.refl (run : StoredRun) : Advances run run :=
  ⟨.refl run.record, rfl⟩

theorem Advances.trans (first : Advances run middle) (second : Advances middle next) :
    Advances run next :=
  ⟨first.continues.trans second.continues, second.starts.trans first.starts⟩

/-- Node by node changes. -/
theorem continues_of_map (nodes : after.nodes = before.nodes.map change)
    (definition : after.definition = before.definition)
    (follows : ∀ node ∈ before.nodes, Follows node (change node)) : Continues before after := by
  refine ⟨?_, by rw [definition], ?_⟩
  · rw [nodes, List.map_map]
    apply List.map_congr_left
    intro node member
    exact (follows node member).sameId.symm
  · intro node member
    rw [nodes] at member
    obtain ⟨old, isOld, rfl⟩ := List.mem_map.mp member
    exact ⟨old, isOld, follows old isOld⟩

theorem continues_updateNodes (record : DagRunRecordV1)
    (follows : ∀ node ∈ record.nodes, node.id = nodeId → Follows node (change node)) :
    Continues record (updateNodes record nodeId change) := by
  refine continues_of_map rfl rfl ?_
  intro node member
  by_cases changed : node.id = nodeId
  · rw [if_pos changed]
    exact follows node member changed
  · rw [if_neg changed]
    exact .refl node

/-- Only the nodes and the definition matter. -/
theorem Continues.congr (continues : Continues before after) (nodes : other.nodes = after.nodes)
    (definition : other.definition = after.definition) : Continues before other :=
  ⟨nodes ▸ continues.ids, definition ▸ continues.definition, nodes ▸ continues.follows⟩

section

variable
  (target : DagNodeState)
  (atTime : String)
  (error : Option DagNodeError)
  (result : Option (DagNodeResultArtifact × Option TaskRunStats))
  (node : DagNode)
include target atTime error result node

theorem execAttempt_transitioned :
    (transitionedWithResult target atTime error result node).execAttempt = node.execAttempt := by
  cases result <;>
    simp only [transitionedWithResult, withResult, transitionedNode] <;>
    split <;> simp [clearedTerminalOutcome]

theorem follows_transitioned (notPending : target ≠ .pending) :
    Follows node (transitionedWithResult target atTime error result node) := by
  have fields := transitionedWithResult_fields target atTime error result node
  have sameAttempt := execAttempt_transitioned target atTime error result node
  exact .kept fields.1.symm sameAttempt.symm fun pending =>
    absurd (fields.2.2.1.symm.trans pending) notPending

end

/-- An ordinary event keeps the attempts, and returns no node. -/
theorem continues_applyRecoveryEvent (isAlive : Nat → Bool) (store : ResultStore)
    (tables : SideTables) (clock : String) (files : ResultFiles) (record : DagRunRecordV1)
    (ordinary : isOrdinary event.payload = true) :
    Continues record (applyRecoveryEvent isAlive store tables clock files record event).1 := by
  obtain ⟨runId, seq, atTime, lane, payload⟩ := event
  have attached (nodeId : DagNodeId) (change : DagNode → DagNode)
      (keeps : ∀ node, Follows node (change node)) :
      Continues record (updateNodes record nodeId change) :=
    continues_updateNodes record fun node _ _ => keeps node
  cases payload with
  | nodeTransitioned nodeId source target reason =>
    have notPending : target ≠ .pending := by simpa [isOrdinary] using ordinary
    have transitioned (error result) :
        Continues record (applyTransition record nodeId target atTime error result) :=
      (attached nodeId _ fun node =>
        follows_transitioned target atTime error result node notPending).congr rfl rfl
    simp only [applyRecoveryEvent, applyDagSchedulerEvent, applyNodeTransitioned]
    split
    · split
      · exact transitioned _ _
      · exact (transitioned (tables.pendingErrors nodeId) none).congr rfl rfl
    · exact transitioned _ _
  | nodeTaskAttached nodeId taskId attempt =>
    exact (attached nodeId (fun node => { node with taskId := some taskId, attempt := attempt })
      fun node => .kept rfl rfl id).congr rfl rfl
  | nodeSteered nodeId taskId delivery =>
    cases delivery with
    | steer => exact (Continues.refl record).congr rfl rfl
    | revive =>
      exact (attached nodeId (fun node => { node with taskId := some taskId })
        fun node => .kept rfl rfl id).congr rfl rfl
  | nodeRetried | definitionAmended => simp [isOrdinary] at ordinary
  | _ => exact (Continues.refl record).congr rfl rfl

/-- The record after a commit, unless the commit is a duplicate. -/
theorem commit_cases (env : SchedulerEnv) (run : StoredRun) (tables : SideTables)
    (payload : DagRunEventPayload) :
    (run.commit env tables payload).starts = run.starts ∧
      ((run.commit env tables payload).record = run.record ∨ ∃ event, event.payload = payload ∧
          (run.commit env tables payload).record = withCheckpointSeq
              (applyRecoveryEvent env.isAlive (env.store event.seq) tables
                (env.copyTime event.seq) run.files run.record event).1 event.seq) := by
  unfold StoredRun.commit
  split
  · exact ⟨rfl, .inl rfl⟩
  · exact ⟨rfl, .inr ⟨run.eventFor env payload, rfl, rfl⟩⟩

theorem advances_commit (env : SchedulerEnv) (run : StoredRun) (tables : SideTables)
    (ordinary : isOrdinary payload = true) : Advances run (run.commit env tables payload) := by
  obtain ⟨starts, unchanged | ⟨event, rfl, changed⟩⟩ := commit_cases env run tables payload
  · exact ⟨(Continues.refl run.record).congr (by rw [unchanged]) (by rw [unchanged]), starts⟩
  · have continues := continues_applyRecoveryEvent env.isAlive (env.store event.seq) tables
      (env.copyTime event.seq) run.files run.record ordinary
    exact ⟨continues.congr (by rw [changed]; rfl) (by rw [changed]; rfl), starts⟩

section

variable (env : SchedulerEnv)
include env

/-- A retry advances the attempt of its node. -/
theorem advances_retried (nodup : (run.record.nodes.map (·.id)).Nodup)
    (found : nodeById run.record nodeId = some node) (priorTaskId : Option String)
    (promptChanged : Bool) :
    Advances run (run.commit env .empty
      (.nodeRetried nodeId priorTaskId (node.execAttempt.getD 0 + 1) promptChanged)) := by
  obtain ⟨starts, unchanged | ⟨event, isRetry, changed⟩⟩ := commit_cases env run .empty
    (.nodeRetried nodeId priorTaskId (node.execAttempt.getD 0 + 1) promptChanged)
  · exact ⟨(Continues.refl run.record).congr (by rw [unchanged]) (by rw [unchanged]), starts⟩
  · have retried : Continues run.record
        (updateNodes run.record nodeId (retriedNode (node.execAttempt.getD 0 + 1))) := by
      refine continues_updateNodes run.record ?_
      intro other member sameId
      have isNode := nodeById_of_mem nodup member
      rw [sameId, found] at isNode
      cases isNode
      exact .bumped rfl (Nat.lt_succ_self _)
    refine ⟨retried.congr ?_ ?_, starts⟩ <;>
      simp [changed, applyRecoveryEvent, applyDagSchedulerEvent, isRetry, applyDagRunMutation,
        withCheckpointSeq]

variable (run : StoredRun)

theorem advances_transition (tables : SideTables) (nodeId : DagNodeId)
    (reason : DagNodeTransitionReason) (notPending : target ≠ .pending) :
    Advances run (run.transition env tables nodeId target reason) := by
  unfold StoredRun.transition
  split
  · exact .refl run
  · exact advances_commit env run tables (by simpa [isOrdinary] using notPending)

theorem advances_failNode (nodeId : DagNodeId) (code : DagNodeErrorCode) (message : String) :
    Advances run (run.failNode env nodeId code message) :=
  advances_transition env run _ nodeId .failed (by decide)

theorem advances_attachTask (nodeId : DagNodeId) (taskId : String) :
    Advances run (run.attachTask env nodeId taskId) := by
  unfold StoredRun.attachTask
  split
  · exact .refl run
  · exact advances_commit env run .empty rfl

end

theorem Advances.nodup (advances : Advances run next)
    (nodup : (run.record.nodes.map (·.id)).Nodup) : (next.record.nodes.map (·.id)).Nodup :=
  advances.continues.ids ▸ nodup

theorem advances_foldl {change : StoredRun → α → StoredRun}
    (each : ∀ run value, (run.record.nodes.map (·.id)).Nodup → Advances run (change run value))
    (values : List α) (nodup : (run.record.nodes.map (·.id)).Nodup) :
    Advances run (values.foldl change run) := by
  induction values generalizing run with
  | nil => exact .refl run
  | cons value values ih =>
    have first := each run value nodup
    exact first.trans (ih (first.nodup nodup))

section

variable (env : SchedulerEnv)
include env

theorem advances_retryTarget (promptChanged : Bool) (run : StoredRun) (nodeId : DagNodeId)
    (nodup : (run.record.nodes.map (·.id)).Nodup) :
    Advances run (retryTarget env promptChanged run nodeId) := by
  unfold retryTarget
  split
  · exact .refl run
  · next found => exact advances_retried env nodup found _ promptChanged

variable (run : StoredRun)

theorem advances_restoreSkipped (node : DagNode) : Advances run (restoreSkipped env run node) :=
  advances_commit env run .empty rfl

theorem advances_reenterDagRun : Advances run (reenterDagRun env run) := by
  unfold reenterDagRun
  split
  · exact advances_commit env run .empty rfl
  · exact .refl run

theorem advances_retryTargets (promptChanged : Bool) (run : StoredRun) (targets : List DagNodeId)
    (nodup : (run.record.nodes.map (·.id)).Nodup) :
    Advances run (retryTargets env promptChanged run targets) := by
  have retried := advances_foldl (advances_retryTarget env promptChanged) targets nodup
  have restored := advances_foldl
    (fun run node _ => advances_restoreSkipped env run node)
    (skippedDependentsOf (targets.foldl (retryTarget env promptChanged) run).record targets)
    (retried.nodup nodup)
  exact (retried.trans restored).trans (advances_reenterDagRun env _)

theorem advances_foldTaskOutcome (nodeId : DagNodeId) (task : TaskRecord) :
    Advances run (run.foldTaskOutcome env nodeId task) := by
  unfold StoredRun.foldTaskOutcome
  split
  · exact advances_transition env run _ nodeId .succeeded (by decide)
  · exact advances_failNode env run nodeId _ _

theorem advances_reconcileMissing (observed : DagNode) (transcript : Bool) :
    Advances run (run.reconcileMissing env observed transcript) := by
  unfold StoredRun.reconcileMissing
  split
  · exact advances_transition env run _ observed.id .succeeded (by decide)
  · exact advances_failNode env run observed.id _ _

theorem advances_reconcileTask (observed : DagNode) (task : TaskRecord)
    (nodup : (run.record.nodes.map (·.id)).Nodup) :
    Advances run (run.reconcileTask env observed task) := by
  unfold StoredRun.reconcileTask
  split
  · split
    · exact .refl run
    · exact advances_transition env run .empty observed.id .resumed (by decide)
  · split
    · unfold StoredRun.readmit
      split
      · exact .refl run
      · next found => exact advances_retried env nodup found _ false
    · exact advances_foldTaskOutcome env run observed.id task

end

variable (sha256 : List Char → String)

theorem unlessOwned_cases (run : StoredRun) :
    run.unlessOwned sha256 node fresh = fresh ∨
      ∃ result, result ≠ .residencyDenied ∧ run.unlessOwned sha256 node fresh = (result, run) := by
  unfold StoredRun.unlessOwned
  split
  · next result owned =>
      refine .inr ⟨result, ?_, rfl⟩
      rintro rfl
      unfold StoredRun.ownedResult at owned
      repeat' split at owned
      all_goals cases owned
  · exact .inl rfl

/-- A start leaves the record alone and may claim the owner of its node; without
room nothing is started. -/
theorem startOwned_cases (run : StoredRun) (node : DagNode) (effect : StartEffect) :
    (effect = .residencyDenied ∧ run.startOwned sha256 node effect = (.residencyDenied, run)) ∨
      ∃ result started, result ≠ .residencyDenied ∧
        run.startOwned sha256 node effect = (result, started) ∧
        (started = run ∨ ∃ task, started = run.claimTask sha256 node task) := by
  have unowned (result started) (notDenied : result ≠ OwnedStartResult.residencyDenied)
      (claims : started = run ∨ ∃ task, started = run.claimTask sha256 node task) :
      ∃ other later, other ≠ .residencyDenied ∧
        run.unlessOwned sha256 node (result, started) = (other, later) ∧
        (later = run ∨ ∃ task, later = run.claimTask sha256 node task) := by
    obtain isFresh | ⟨other, otherNotDenied, isOwned⟩ :=
      unlessOwned_cases sha256 run
    · exact ⟨result, started, notDenied, isFresh, claims⟩
    · exact ⟨other, run, otherNotDenied, isOwned, .inl rfl⟩
  match effect with
  | .residencyDenied => exact .inl ⟨rfl, rfl⟩
  | .planUnresolved message => exact .inr ⟨.planUnresolved message, run, nofun, rfl, .inl rfl⟩
  | .depthDenied reason | .notClaimed message => exact .inr (unowned _ run nofun (.inl rfl))
  | .claimed task (some message) | .claimed task none =>
    exact .inr (unowned _ _ nofun (.inr ⟨task, rfl⟩))

/-- A node of an amended run follows the old one, or is compiled afresh. -/
theorem amendedNode_cases (record : DagRunRecordV1) (invalidatedIds : List DagNodeId)
    (compiled : DagNode) :
    (amendedNode record invalidatedIds compiled).id = compiled.id ∧
      ((∃ old ∈ record.nodes, Follows old (amendedNode record invalidatedIds compiled)) ∨
        compiled.id ∉ record.nodes.map (·.id)) := by
  unfold amendedNode
  split
  · next missing =>
      refine ⟨rfl, .inr ?_⟩
      intro present
      obtain ⟨old, isOld, sameId⟩ := List.mem_map.mp present
      have differs := List.find?_eq_none.mp missing old (List.mem_reverse.mpr isOld)
      simp [sameId] at differs
  · next old found =>
      have sameId : old.id = compiled.id := by simpa using List.find?_some found
      have isOld : old ∈ record.nodes := List.mem_reverse.mp (List.mem_of_find?_eq_some found)
      split
      · exact ⟨sameId, .inl ⟨old, isOld, .bumped rfl (Nat.lt_succ_self _)⟩⟩
      · exact ⟨sameId, .inl ⟨old, isOld, .refl old⟩⟩

/-- A run with an amended definition in place. -/
structure Amended (run next : StoredRun) (definition : DagDefinition) : Prop where
  nodup : (definition.nodes.map (·.id)).Nodup
  ids : next.record.nodes.map (·.id) = definition.nodes.map (·.id)
  definitionIds : next.record.definition.nodes.map (·.input.id) = definition.nodes.map (·.id)
  origin : ∀ node ∈ next.record.nodes,
    (∃ old ∈ run.record.nodes, Follows old node) ∨ node.id ∉ run.record.nodes.map (·.id)
  starts : next.starts = run.starts

/-- The commit of an amendment. -/
theorem amended_of_commitMutation (request : AmendRequest)
    (isCompiled : compiled = compileDag request.definition request.settings request.atTime)
    (accepted : compiled.ok = true) :
    Advances run (run.commitMutation env
        (.definitionAmended (amendmentOf sha256 run.record request compiled))) ∨
      Amended run (run.commitMutation env
        (.definitionAmended (amendmentOf sha256 run.record request compiled)))
        request.definition := by
  set amendment := amendmentOf sha256 run.record request compiled with isAmendment
  by_cases refused : refusesAmendment env.isAlive run.record amendment = true
  · left
    refine ⟨(Continues.refl run.record).congr ?_ ?_, rfl⟩ <;>
      simp [StoredRun.commitMutation, StoredRun.eventFor, applyDagRunMutation, refused,
        withCheckpointSeq]
  · right
    subst isCompiled
    obtain ⟨rank, graph⟩ := wellFormedGraph_of_accepted accepted
    have compiledIds :
        (compileDag request.definition request.settings request.atTime).nodes.map (·.id) =
          request.definition.nodes.map (·.id) := by
      rw [compileDag_nodes accepted, List.map_map]
      rfl
    have record : (run.commitMutation env (.definitionAmended amendment)).record =
        withCheckpointSeq (amendedRecord run.record amendment
          (env.eventTime (run.record.checkpointSeq + 1))) (run.record.checkpointSeq + 1) := by
      simp [StoredRun.commitMutation, StoredRun.eventFor, applyDagRunMutation, refused]
    have nodes : (run.commitMutation env (.definitionAmended amendment)).record.nodes =
        amendment.nodes := by
      rw [record]
      rfl
    refine ⟨compiledIds ▸ graph.nodupIds, ?_, ?_, ?_, rfl⟩
    · rw [nodes, isAmendment, amendmentOf, List.map_map, ← compiledIds]
      apply List.map_congr_left
      intro node _
      exact (amendedNode_cases run.record _ node).1
    · rw [record]
      change (materializeAmendedDefinition run.record request).nodes.map (·.input.id) = _
      rw [materializeAmendedDefinition, List.map_map]
      rfl
    · intro node member
      rw [nodes] at member
      obtain ⟨compiledNode, _, rfl⟩ := List.mem_map.mp member
      obtain ⟨sameId, origin⟩ := amendedNode_cases run.record _ compiledNode
      exact origin.imp_right fun new => sameId ▸ new

theorem amended_of_amendRun :
    Advances run (amendRun env sha256 run request).1 ∨
      Amended run (amendRun env sha256 run request).1 request.definition := by
  have unchanged : Advances run run ∨ Amended run run request.definition := .inl (.refl run)
  unfold amendRun
  dsimp only
  split
  · exact unchanged
  split
  · exact unchanged
  split
  · exact unchanged
  next compiles =>
  split
  · exact unchanged
  split
  · exact unchanged
  split
  · exact unchanged
  exact amended_of_commitMutation sha256 request rfl (Bool.not_eq_false _ ▸ compiles)

/-- The ids of a run are those of its definition, each once. -/
structure WellIdentified (record : DagRunRecordV1) : Prop where
  nodup : (record.nodes.map (·.id)).Nodup
  definition : record.definition.nodes.map (·.input.id) = record.nodes.map (·.id)

theorem Continues.identified (continues : Continues before after)
    (identified : WellIdentified before) : WellIdentified after :=
  ⟨continues.ids ▸ identified.nodup,
    continues.definition.trans (identified.definition.trans continues.ids.symm)⟩

/-- An amendment that keeps the ids. -/
theorem advances_amendRun (env : SchedulerEnv) (sha256 : List Char → String)
    (identified : WellIdentified run.record)
    (sameIds : request.definition.nodes.map (·.id) = run.record.nodes.map (·.id)) :
    Advances run (amendRun env sha256 run request).1 := by
  obtain advances | amended := amended_of_amendRun sha256
  · exact advances
  · have ids := amended.ids.trans sameIds
    refine ⟨⟨ids, ?_, ?_⟩, amended.starts⟩
    · rw [amended.definitionIds, sameIds, identified.definition]
    · intro node member
      obtain follows | new := amended.origin node member
      · exact follows
      · exact absurd (ids ▸ List.mem_map_of_mem member) new

/-- A retry keeps the ids, also behind a prompt override. -/
theorem advances_retryDagNodes (identified : WellIdentified run.record) :
    Advances run (retryDagNodes env sha256 run request).1 := by
  have amends (first : DagNodeId) (prompt : String) : Advances run
        (amendRun env sha256 run (promptAmendment run.record request first prompt)).1 := by
    refine advances_amendRun env sha256 identified ?_
    rw [← identified.definition, promptAmendment, List.map_map]
    apply List.map_congr_left
    intro node _
    by_cases isFirst : node.input.id = first
    · simp [isFirst]
    · simp [isFirst]
  unfold retryDagNodes
  dsimp only
  split
  · exact .refl run
  split
  · exact .refl run
  split
  · exact .refl run
  split
  · exact .refl run
  next targets first rest isTargets =>
  split
  · exact .refl run
  split
  · exact advances_retryTargets env false run _ identified.nodup
  next prompt isPrompt =>
  split
  · exact amends first prompt
  · exact (amends first prompt).trans
      (advances_retryTargets env true _ _ ((amends first prompt).nodup identified.nodup))

end OpenAgent.Dag
