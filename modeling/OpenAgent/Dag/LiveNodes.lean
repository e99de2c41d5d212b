import OpenAgent.Dag.FreshIdentity

/-!
# Amendments and live nodes

An amendment is checked against a record that was read without the lock of the
journal, and takes effect on the record that is there when it commits.  Both
checks look at the nodes that the definition changes or drops; what goes back to
pending are all nodes that the new graph reaches from changed or added ones.
-/

namespace OpenAgent.Dag

open Library

/-- A path over edges. -/
def Reaches (edges : List DagEdge) : DagNodeId → DagNodeId → Prop :=
  Relation.ReflTransGen fun source target =>
    ∃ edge ∈ edges, edge.source = source ∧ edge.target = target

section Follow

variable {next : DagNodeId → List DagNodeId} {queue visited : List DagNodeId} {id : DagNodeId}

/-- What a visited node reaches is visited or waits behind the queue. -/
theorem reached_of_visited
    (closed : ∀ source ∈ visited, ∀ target ∈ next source, target ∈ visited ∨ target ∈ queue)
    (isVisited : source ∈ visited)
    (path : Relation.ReflTransGen (fun source target => target ∈ next source) source id) :
    id ∈ visited ∨
      ∃ seed ∈ queue, Relation.ReflTransGen (fun source target => target ∈ next source) seed id := by
  induction path using Relation.ReflTransGen.head_induction_on with
  | refl => exact .inl isVisited
  | head step rest ih =>
    rcases closed _ isVisited _ step with targetVisited | queued
    · exact ih targetVisited
    · exact .inr ⟨_, queued, rest⟩

/-- The loop finds what its seeds reach, if the fuel pays for the queue and for
the edges of the nodes that are not visited yet. -/
theorem mem_followAll (unspent : List DagNodeId → Nat)
    (pays : ∀ visited id, id ∉ visited →
      unspent (visited ++ [id]) + (next id).length ≤ unspent visited)
    (enough : queue.length + unspent visited ≤ fuel)
    (closed : ∀ source ∈ visited, ∀ target ∈ next source, target ∈ visited ∨ target ∈ queue) :
    id ∈ followAll next fuel queue visited ↔
      id ∈ visited ∨
        ∃ seed ∈ queue,
          Relation.ReflTransGen (fun source target => target ∈ next source) seed id := by
  induction fuel generalizing queue visited with
  | zero =>
    have empty : queue = [] := List.eq_nil_of_length_eq_zero (by omega)
    subst empty
    simp [followAll]
  | succ fuel ih =>
    cases queue with
    | nil => simp [followAll]
    | cons first queue =>
      rw [List.length_cons] at enough
      by_cases isVisited : first ∈ visited
      · have stillClosed : ∀ source ∈ visited, ∀ target ∈ next source,
            target ∈ visited ∨ target ∈ queue := by
          intro source isSource target step
          rcases closed source isSource target step with found | queued
          · exact .inl found
          · rcases List.mem_cons.mp queued with rfl | later
            · exact .inl isVisited
            · exact .inr later
        rw [followAll, if_pos isVisited, ih (by omega) stillClosed]
        constructor
        · rintro (found | ⟨seed, queued, path⟩)
          · exact .inl found
          · exact .inr ⟨seed, List.mem_cons_of_mem first queued, path⟩
        · rintro (found | ⟨seed, queued, path⟩)
          · exact .inl found
          · rcases List.mem_cons.mp queued with rfl | later
            · exact reached_of_visited stillClosed isVisited path
            · exact .inr ⟨seed, later, path⟩
      · have paid := pays visited first isVisited
        have stillClosed : ∀ source ∈ visited ++ [first], ∀ target ∈ next source,
            target ∈ visited ++ [first] ∨ target ∈ queue ++ next first := by
          intro source isSource target step
          rcases List.mem_append.mp isSource with before | isFirst
          · rcases closed source before target step with found | queued
            · exact .inl (List.mem_append_left _ found)
            · rcases List.mem_cons.mp queued with rfl | later
              · exact .inl (List.mem_append_right _ (List.mem_singleton_self _))
              · exact .inr (List.mem_append_left _ later)
          · rw [List.mem_singleton.mp isFirst] at step
            exact .inr (List.mem_append_right _ step)
        rw [followAll, if_neg isVisited, ih (by rw [List.length_append]; omega) stillClosed]
        constructor
        · rintro (found | ⟨seed, queued, path⟩)
          · rcases List.mem_append.mp found with before | isFirst
            · exact .inl before
            · rw [List.mem_singleton.mp isFirst]
              exact .inr ⟨first, List.mem_cons_self, .refl⟩
          · rcases List.mem_append.mp queued with later | follows
            · exact .inr ⟨seed, List.mem_cons_of_mem first later, path⟩
            · exact .inr ⟨first, List.mem_cons_self, path.head follows⟩
        · rintro (found | ⟨seed, queued, path⟩)
          · exact .inl (List.mem_append_left _ found)
          · rcases List.mem_cons.mp queued with rfl | later
            · rcases path.cases_head with rfl | ⟨target, step, rest⟩
              · exact .inl (List.mem_append_right _ (List.mem_singleton_self _))
              · exact .inr ⟨target, List.mem_append_right _ step, rest⟩
            · exact .inr ⟨seed, List.mem_append_left _ later, path⟩

end Follow

theorem mem_dependentsOf :
    target ∈ dependentsOf edges source ↔
      ∃ edge ∈ edges, edge.source = source ∧ edge.target = target := by
  simp [dependentsOf, and_assoc]

/-- The edges whose source is not visited pay for the targets to come. -/
theorem length_unvisited (edges : List DagEdge) (visited : List DagNodeId) (id : DagNodeId)
    (isNew : id ∉ visited) :
    (edges.filter fun edge => edge.source ∉ visited ++ [id]).length +
        (dependentsOf edges id).length ≤
      (edges.filter fun edge => edge.source ∉ visited).length := by
  induction edges with
  | nil => simp [dependentsOf]
  | cons edge edges ih =>
    simp only [dependentsOf] at ih ⊢
    by_cases isSource : edge.source = id
    · simp [isSource, isNew] at ih ⊢
      omega
    · by_cases isVisited : edge.source ∈ visited
      · simpa [isSource, isVisited] using ih
      · simp [isSource, isVisited] at ih ⊢
        omega

theorem mem_transitiveDependents {id : DagNodeId} :
    id ∈ transitiveDependents edges seeds ↔ ∃ seed ∈ seeds, Reaches edges seed id := by
  have enough : seeds.length +
      (edges.filter fun edge => edge.source ∉ ([] : List DagNodeId)).length ≤
        seeds.length + edges.length :=
    Nat.add_le_add_left (List.length_filter_le _ _) _
  refine (mem_followAll (fun visited => (edges.filter fun edge => edge.source ∉ visited).length)
    (length_unvisited edges) enough ?_).trans ?_
  · exact fun _ isVisited => (nomatch isVisited)
  · simp [Reaches, mem_dependentsOf]

instance (edges : List DagEdge) (source target : DagNodeId) :
    Decidable (Reaches edges source target) :=
  decidable_of_iff (target ∈ transitiveDependents edges [source])
    (by simp [mem_transitiveDependents])

/-- `amendRun` with the record that it has read, on the run as it is when the
amendment commits. -/
def amendRunFrom (env : SchedulerEnv) (sha256 : List Char → String) (read : DagRunRecordV1)
    (run : StoredRun) (request : AmendRequest) : StoredRun × Option AmendError :=
  let compiled := compileDag request.definition request.settings request.atTime
  let diff := amendmentDiff sha256 read request
  let unsafeIds := (diff.changedIds ++ diff.removedIds).filter fun id =>
    ((nodeById read id).map (·.state.isActive)).getD false
  if read.parentSessionId ≠ request.parentSessionId then (run, some .runNotOwned)
  else if read.status = .paused ∧ liveLeaseHolder env.isAlive read then
    (run, some .invalidAmendment)
  else if compiled.ok = false then (run, some .invalidAmendment)
  else if request.definition.key ≠ read.runKey then (run, some .invalidAmendment)
  else if unsafeIds ≠ [] then (run, some .amendRunningNode)
  else if read.status = .running then (run, some .runStillActive)
  else
    let amended := run.commitMutation env
      (.definitionAmended (amendmentOf sha256 read request compiled))
    (amended,
      if amended.record.definitionFingerprint =
          fingerprintDefinition sha256 request.definition then none
      else some .runStillActive)

/-- A run with the records that were on disk so far, the newest first. -/
structure AmendedRun where
  run : StoredRun
  seen : List DagRunRecordV1

/-- What happens to the record: any commit but that of an amendment, a change of
the lease, and amendments that have read one of the earlier records. -/
inductive RecordAction
  | commit (tables : SideTables) (payload : DagRunEventPayload)
  | lease (parentSessionId rootSessionId : String)
      (leaseHolderPid previousLeaseHolderPid : Option Nat)
  | amend (back : Nat) (request : AmendRequest)

def AmendedRun.advance (state : AmendedRun) (run : StoredRun) : AmendedRun where
  run := run
  seen := run.record :: state.seen

def isAmendment : DagRunEventPayload → Bool
  | .definitionAmended _ => true
  | _ => false

section

variable (sha256 : List Char → String)

def recordStep (state : AmendedRun) (label : SchedulerEnv × RecordAction) : Option AmendedRun :=
  match label.2 with
  | .commit tables payload =>
    if isAmendment payload then none
    else some (state.advance (state.run.commit label.1 tables payload))
  | .lease parentSessionId rootSessionId leaseHolderPid previousLeaseHolderPid =>
    some (state.advance
      { state.run with
        record :=
          { state.run.record with
            parentSessionId, rootSessionId, leaseHolderPid, previousLeaseHolderPid } })
  | .amend back request =>
    state.seen[back]?.map fun read =>
      state.advance (amendRunFrom label.1 sha256 read state.run request).1

def createdAmendedRun (start : DagStart) : AmendedRun where
  run := createdRun sha256 start
  seen := [(createdRun sha256 start).record]

theorem WellIdentified.updateNodes (identified : WellIdentified record) (nodeId : DagNodeId)
    (keepsId : ∀ node, (change node).id = node.id)
    (nodes : after.nodes = (updateNodes record nodeId change).nodes)
    (definition : after.definition = record.definition) : WellIdentified after := by
  have ids : after.nodes.map (·.id) = record.nodes.map (·.id) := by
    rw [nodes, Dag.updateNodes, List.map_map]
    apply List.map_congr_left
    intro node _
    by_cases changed : node.id = nodeId
    · simp [changed, keepsId]
    · simp [changed]
  refine ⟨ids ▸ identified.nodup, ?_⟩
  rw [definition, ids]
  exact identified.definition

/-- Events other than amendments keep the ids. -/
theorem identified_commit {run : StoredRun} (tables : SideTables)
    (plain : isAmendment payload = false) (identified : WellIdentified run.record) :
    WellIdentified (run.commit env tables payload).record := by
  by_cases ordinary : isOrdinary payload = true
  · exact (advances_commit env run tables ordinary).continues.identified identified
  · obtain ⟨-, unchanged | ⟨event, isPayload, changed⟩⟩ := commit_cases env run tables payload
    · rw [unchanged]
      exact identified
    · rw [changed]
      cases payload with
      | definitionAmended => cases plain
      | nodeRetried nodeId priorTaskId execAttempt promptChanged =>
        have keepsId : ∀ node, (retriedNode execAttempt node).id = node.id := fun _ => rfl
        refine identified.updateNodes nodeId keepsId ?_ ?_
        · simp [applyRecoveryEvent, applyDagSchedulerEvent, isPayload, applyDagRunMutation,
            withCheckpointSeq]
        · simp [applyRecoveryEvent, applyDagSchedulerEvent, isPayload, applyDagRunMutation,
            withCheckpointSeq, Dag.updateNodes]
      | nodeTransitioned nodeId source target reason =>
        have isPending : target = .pending := by simpa [isOrdinary] using ordinary
        subst isPending
        refine identified.updateNodes nodeId (fun node =>
          (transitionedWithResult_fields .pending event.atTime (tables.pendingErrors nodeId) none
            node).1) ?_ ?_
        · simp [applyRecoveryEvent, applyDagSchedulerEvent, isPayload, applyNodeTransitioned,
            withCheckpointSeq, DagNodeState.isTerminal, applyTransition]
        · simp [applyRecoveryEvent, applyDagSchedulerEvent, isPayload, applyNodeTransitioned,
            withCheckpointSeq, DagNodeState.isTerminal, applyTransition, Dag.updateNodes]
      | _ => exact absurd rfl ordinary

/-- The run of a state and all records before it have unique ids. -/
structure AllIdentified (state : AmendedRun) : Prop where
  run : WellIdentified state.run.record
  seen : ∀ read ∈ state.seen, WellIdentified read

theorem AllIdentified.advance {run : StoredRun} (identified : AllIdentified state)
    (later : WellIdentified run.record) : AllIdentified (state.advance run) := by
  refine ⟨later, ?_⟩
  intro read member
  rcases List.mem_cons.mp member with rfl | before
  · exact later
  · exact identified.seen read before

/-- What an amendment commits. -/
theorem amendRunFrom_cases (env : SchedulerEnv) (sha256 : List Char → String)
    (read : DagRunRecordV1) (run : StoredRun) (request : AmendRequest) :
    (∃ refusal, amendRunFrom env sha256 read run request = (run, some refusal)) ∨
      (compileDag request.definition request.settings request.atTime).ok = true ∧
        (amendRunFrom env sha256 read run request).1 =
          run.commitMutation env (.definitionAmended (amendmentOf sha256 read request
            (compileDag request.definition request.settings request.atTime))) := by
  unfold amendRunFrom
  dsimp only
  split
  · exact .inl ⟨_, rfl⟩
  split
  · exact .inl ⟨_, rfl⟩
  split
  · exact .inl ⟨_, rfl⟩
  next compiles =>
  split
  · exact .inl ⟨_, rfl⟩
  split
  · exact .inl ⟨_, rfl⟩
  split
  · exact .inl ⟨_, rfl⟩
  exact .inr ⟨Bool.not_eq_false _ ▸ compiles, rfl⟩

/-- The record behind the commit of an amendment. -/
theorem commitMutation_amendment (env : SchedulerEnv) (run : StoredRun)
    (amendment : DagDefinitionAmendment) :
    (run.commitMutation env (.definitionAmended amendment)).record = withCheckpointSeq
        (if refusesAmendment env.isAlive run.record amendment then run.record
        else amendedRecord run.record amendment (env.eventTime (run.record.checkpointSeq + 1)))
        (run.record.checkpointSeq + 1) := rfl

theorem compiledIds (accepted : (compileDag definition settings atTime).ok = true) :
    (compileDag definition settings atTime).nodes.map (·.id) = definition.nodes.map (·.id) := by
  rw [compileDag_nodes accepted, List.map_map]
  rfl

variable (read : DagRunRecordV1)

/-- An amendment has the nodes of the compiled graph. -/
theorem amendmentIds (request : AmendRequest) (compiled : DagCompileResult) :
    (amendmentOf sha256 read request compiled).nodes.map (·.id) = compiled.nodes.map (·.id) := by
  rw [amendmentOf, List.map_map]
  apply List.map_congr_left
  intro node _
  exact (amendedNode_cases read _ node).1

theorem identified_amendRunFrom (identified : WellIdentified run.record) :
    WellIdentified (amendRunFrom env sha256 read run request).1.record := by
  obtain ⟨refusal, refused⟩ | ⟨accepted, committed⟩ :=
    amendRunFrom_cases env sha256 read run request
  · rw [refused]
    exact identified
  · rw [committed, commitMutation_amendment]
    split
    · exact ⟨identified.nodup, identified.definition⟩
    · obtain ⟨rank, graph⟩ := wellFormedGraph_of_accepted accepted
      have ids := amendmentIds sha256 read request
      refine ⟨?_, ?_⟩
      · change ((amendmentOf sha256 read request _).nodes.map (·.id)).Nodup
        rw [ids]
        exact graph.nodupIds
      · change (materializeAmendedDefinition read request).nodes.map (·.input.id) =
          (amendmentOf sha256 read request _).nodes.map (·.id)
        rw [ids, compiledIds accepted, materializeAmendedDefinition, List.map_map]
        rfl

end

theorem allIdentified_step (identified : AllIdentified state)
    (stepped : recordStep sha256 state label = some next) : AllIdentified next := by
  obtain ⟨env, action⟩ := label
  cases action with
  | commit tables payload =>
    simp only [recordStep] at stepped
    split at stepped
    next => cases stepped
    next plain =>
      cases stepped
      exact identified.advance
        (identified_commit tables (Bool.eq_false_iff.mpr plain) identified.run)
  | lease parentSessionId rootSessionId leaseHolderPid previousLeaseHolderPid =>
    cases stepped
    exact identified.advance ⟨identified.run.nodup, identified.run.definition⟩
  | amend back request =>
    obtain ⟨read, -, rfl⟩ := Option.map_eq_some_iff.mp stepped
    exact identified.advance (identified_amendRunFrom sha256 read identified.run)

theorem allIdentified_created (sha256 : List Char → String) (accepted : start.Accepted) :
    AllIdentified (createdAmendedRun sha256 start) := by
  have identified := (identified_createdRun sha256 accepted).wellIdentified
  refine ⟨identified, ?_⟩
  intro read member
  rw [List.mem_singleton.mp member]
  exact identified

/-- No scheduled or running node is removed or changed. -/
def LiveKept (before after : DagRunRecordV1) : Prop :=
  ∀ node ∈ before.nodes, node.state.isActive = true → node ∈ after.nodes
  deriving Decidable

/-- The amendment was read with the live nodes as they are, and its graph leads to
none of them from a changed or added node. -/
def LiveUnreached (sha256 : List Char → String) (read current : DagRunRecordV1)
    (request : AmendRequest) : Prop :=
  ∀ node ∈ current.nodes, node.state.isActive = true → node ∈ read.nodes ∧
      ∀ seed ∈ (amendmentDiff sha256 read request).changedIds ++
          (amendmentDiff sha256 read request).addedIds,
        ¬ Reaches (compileDag request.definition request.settings request.atTime).edges seed node.id

section Live

variable {read : DagRunRecordV1}

/-- The node of an amended run under an id that the read record has. -/
theorem amendedNode_of_mem (identified : WellIdentified read) (member : node ∈ read.nodes)
    (sameId : compiled.id = node.id) :
    amendedNode read invalidatedIds compiled =
      if node.id ∈ invalidatedIds then invalidatedNode compiled node else node := by
  let reversed : DagRunRecordV1 := { read with nodes := read.nodes.reverse }
  have unique : (reversed.nodes.map (·.id)).Nodup := by
    rw [List.map_reverse]
    exact List.nodup_reverse.mpr identified.nodup
  have found : read.nodes.reverse.find? (·.id == compiled.id) = some node := by
    rw [sameId]
    exact nodeById_of_mem unique (List.mem_reverse.mpr member)
  rw [amendedNode, found, sameId]

/-- Nodes of the read record are in its definition, so they are not added. -/
theorem notMem_addedIds (identified : WellIdentified read) (member : node ∈ read.nodes) :
    node.id ∉ (amendmentDiff sha256 read request).addedIds := by
  intro isAdded
  obtain ⟨input, added, sameId⟩ := List.mem_map.mp isAdded
  have missing := (List.mem_filter.mp added).2
  have inDefinition : node.id ∈ read.definition.nodes.map (·.input.id) := by
    rw [identified.definition]
    exact List.mem_map_of_mem member
  obtain ⟨old, isOld, oldId⟩ := List.mem_map.mp inDefinition
  rw [fingerprintOf, Option.isNone_map, Option.isNone_iff_eq_none, List.find?_eq_none] at missing
  have differs := missing old.input (List.mem_reverse.mpr (List.mem_map_of_mem isOld))
  simp [oldId, sameId] at differs

/-- A live node is in the new definition, or the reducer refuses. -/
theorem exists_compiled_of_live (identified : WellIdentified current)
    (taken : refusesAmendment isAlive current (amendmentOf sha256 read request compiled) = false)
    (member : node ∈ current.nodes) (live : node.state.isActive = true) :
    ∃ compiledNode ∈ compiled.nodes, compiledNode.id = node.id := by
  by_contra absent
  push Not at absent
  have removed : node.id ∈ (current.nodes.filter fun old =>
      !((amendmentOf sha256 read request compiled).nodes.map (·.id)).contains old.id).map
        (·.id) := by
    refine List.mem_map_of_mem (List.mem_filter.mpr ⟨member, ?_⟩)
    simp only [Bool.not_eq_true', List.contains_eq_mem, decide_eq_false_iff_not]
    intro present
    obtain ⟨amended, isAmended, sameId⟩ := List.mem_map.mp present
    obtain ⟨compiledNode, isCompiled, rfl⟩ := List.mem_map.mp isAmended
    exact absent compiledNode isCompiled ((amendedNode_cases read _ compiledNode).1 ▸ sameId)
  have unsafeId : ((nodeById current node.id).map (·.state.isActive)).getD false = true := by
    rw [nodeById_of_mem identified.nodup member]
    exact live
  have refused : refusesAmendment isAlive current (amendmentOf sha256 read request compiled) =
      true := by
    simp only [refusesAmendment, Bool.or_eq_true, Bool.not_eq_true']
    refine .inl (.inl (.inr ?_))
    rw [List.isEmpty_eq_false_iff_exists_mem]
    exact ⟨node.id, List.mem_filter.mpr ⟨List.mem_append_right _ removed, unsafeId⟩⟩
  rw [taken] at refused
  cases refused

theorem liveKept_iff_liveUnreached (readIdentified : WellIdentified read)
    (currentIdentified : WellIdentified current)
    (accepted : (compileDag request.definition request.settings request.atTime).ok = true)
    (taken : refusesAmendment isAlive current (amendmentOf sha256 read request
      (compileDag request.definition request.settings request.atTime)) = false)
    (atTime : String) :
    LiveKept current (amendedRecord current (amendmentOf sha256 read request
        (compileDag request.definition request.settings request.atTime)) atTime) ↔
      LiveUnreached sha256 read current request := by
  constructor
  · intro kept node member live
    obtain ⟨compiled, isCompiled, isNode⟩ := List.mem_map.mp (kept node member live)
    have notPending : node.state ≠ .pending := by
      intro isPending
      rw [isPending] at live
      cases live
    have compiledPending := compileDag_nodes_pending accepted compiled isCompiled
    cases found : read.nodes.reverse.find? (·.id == compiled.id) with
    | none =>
      rw [amendedNode, found] at isNode
      exact absurd (isNode ▸ compiledPending) notPending
    | some old =>
      have isOld : old ∈ read.nodes := List.mem_reverse.mp (List.mem_of_find?_eq_some found)
      have sameId : compiled.id = old.id := by
        have isId : old.id = compiled.id := by simpa using List.find?_some found
        exact isId.symm
      rw [amendedNode_of_mem readIdentified isOld sameId] at isNode
      split at isNode
      next => exact absurd (isNode ▸ rfl) notPending
      next valid =>
        subst isNode
        refine ⟨isOld, ?_⟩
        intro seed isSeed path
        apply valid
        refine List.mem_filter.mpr ⟨mem_transitiveDependents.mpr ⟨seed, isSeed, path⟩, ?_⟩
        simpa using notMem_addedIds readIdentified isOld
  · intro unreached node member live
    obtain ⟨isRead, noPath⟩ := unreached node member live
    obtain ⟨compiled, isCompiled, sameId⟩ :=
      exists_compiled_of_live currentIdentified taken member live
    refine List.mem_map.mpr ⟨compiled, isCompiled, ?_⟩
    rw [amendedNode_of_mem readIdentified isRead sameId, if_neg]
    intro isInvalidated
    obtain ⟨seed, isSeed, path⟩ := mem_transitiveDependents.mp (List.mem_filter.mp isInvalidated).1
    exact noPath seed isSeed path

end Live

/-- In every reachable state, an amendment that is accepted keeps the live nodes
exactly when the reducer leaves the record alone, or the amendment has read the
live nodes as they are and reaches none of them. -/
theorem liveKept_amendment_iff {sha256 : List Char → String} {start : DagStart}
    (accepted : start.Accepted) {labels : List (SchedulerEnv × RecordAction)} {state : AmendedRun}
    (reached : execute (recordStep sha256) (createdAmendedRun sha256 start) labels = some state)
    (env : SchedulerEnv) (request : AmendRequest) {read : DagRunRecordV1}
    (isRead : read ∈ state.seen)
    (isAccepted : (amendRunFrom env sha256 read state.run request).2 = none) :
    LiveKept state.run.record (amendRunFrom env sha256 read state.run request).1.record ↔
      refusesAmendment env.isAlive state.run.record (amendmentOf sha256 read request
          (compileDag request.definition request.settings request.atTime)) = true ∨
        LiveUnreached sha256 read state.run.record request := by
  have identified : AllIdentified state :=
    invariant_of_unconditional (fun _ _ _ => allIdentified_step)
      (allIdentified_created sha256 accepted) reached
  obtain ⟨refusal, refused⟩ | ⟨compiles, committed⟩ :=
    amendRunFrom_cases env sha256 read state.run request
  · rw [refused] at isAccepted
    cases isAccepted
  · rw [committed, commitMutation_amendment]
    cases taken : refusesAmendment env.isAlive state.run.record (amendmentOf sha256 read request
        (compileDag request.definition request.settings request.atTime)) with
    | true =>
      simp only [true_or, iff_true]
      exact fun node member _ => member
    | false =>
      simp only [Bool.false_eq_true, false_or]
      exact liveKept_iff_liveUnreached (identified.seen read isRead) identified.run compiles taken
        (env.eventTime (state.run.record.checkpointSeq + 1))

instance (sha256 : List Char → String) (read current : DagRunRecordV1) (request : AmendRequest) :
    Decidable (LiveUnreached sha256 read current request) :=
  inferInstanceAs (Decidable (∀ _ ∈ _, _))

/-- The first node is completed and the second one runs when the run is paused. -/
def pausedChain : List RecordAction :=
  [ .commit .empty (.runStarted 1),
    .commit .empty (.nodeTransitioned "a" .pending .scheduled .scheduled),
    .commit .empty (.nodeTransitioned "a" .scheduled .completed .succeeded),
    .commit .empty (.nodeTransitioned "b" .pending .scheduled .scheduled),
    .commit .empty (.nodeTransitioned "b" .scheduled .running .started),
    .commit .empty (.runPaused (some "session_shutdown")) ]

/-- A hash that tells the sample texts apart. -/
def lengthDigest (text : List Char) : String :=
  toString text.length

/-- A third node for the run, which waits for the first. -/
def nodeAddition : AmendRequest :=
  sampleAmendment [sampleNode "a" [], sampleNode "b" ["a"], sampleNode "c" ["a"]]

/-- Another prompt for the completed node. -/
def promptChange : AmendRequest :=
  sampleAmendment [{ sampleNode "a" [] with prompt := "work harder" }, sampleNode "b" ["a"]]

/-- A new node beside the live one leaves it alone. -/
theorem liveKept_nodeAddition :
    ∃ state, execute (recordStep lengthDigest) (createdAmendedRun lengthDigest chainStart)
        (pausedChain.map (stillEnv, ·)) = some state ∧
      (amendRunFrom stillEnv lengthDigest state.run.record state.run nodeAddition).2 = none ∧
      LiveKept state.run.record
        (amendRunFrom stillEnv lengthDigest state.run.record state.run nodeAddition).1.record := by
  obtain ⟨state, reached, isSeen, isAccepted, unreached⟩ :
      ∃ state, execute (recordStep lengthDigest) (createdAmendedRun lengthDigest chainStart)
        (pausedChain.map (stillEnv, ·)) = some state ∧ state.run.record ∈ state.seen ∧
        (amendRunFrom stillEnv lengthDigest state.run.record state.run nodeAddition).2 = none ∧
        LiveUnreached lengthDigest state.run.record state.run.record nodeAddition := by
    decide +kernel
  have accepted : chainStart.Accepted := by decide +kernel
  exact ⟨state, reached, isAccepted,
    (liveKept_amendment_iff accepted reached stillEnv nodeAddition isSeen isAccepted).mpr
      (.inr unreached)⟩

/-- A new prompt for the completed node puts the running one back to pending. -/
theorem not_liveKept_promptChange :
    ∃ state, execute (recordStep lengthDigest) (createdAmendedRun lengthDigest chainStart)
        (pausedChain.map (stillEnv, ·)) = some state ∧
      state.run.record ∈ state.seen ∧
      (amendRunFrom stillEnv lengthDigest state.run.record state.run promptChange).2 = none ∧
      ¬ LiveKept state.run.record
        (amendRunFrom stillEnv lengthDigest state.run.record state.run promptChange).1.record := by
  decide +kernel

end OpenAgent.Dag
