import OpenAgent.Dag.RunJournal

/-!
# What the scheduler's events do to a record

The scheduler decides by the states of nodes, their dependencies and the
status of the run.  Its own events keep the nodes, the dependencies and the
waves; they change the states and the status as computed here.
-/

namespace OpenAgent.Dag

open Library

section

variable (record : DagRunRecordV1)

/-- The state of a node, by id. -/
def stateOf (nodeId : DagNodeId) : Option DagNodeState :=
  (nodeById record nodeId).map (·.state)

/-- The dependencies of a node, by id. -/
def depsOf (nodeId : DagNodeId) : List DagNodeId :=
  ((nodeById record nodeId).map (·.dependsOn)).getD []

/-- The nodes with their dependencies, the waves and the name of a run. -/
def skeleton : List (DagNodeId × List DagNodeId) × List DagWave × DagRunId :=
  (record.nodes.map fun node => (node.id, node.dependsOn), record.waves, record.runId)

/-- Retries and amendments replace nodes. -/
def DagRunEventPayload.rewrites : DagRunEventPayload → Bool
  | .nodeRetried _ _ _ _ | .definitionAmended _ => true
  | _ => false

/-- Move some nodes to a state. -/
def moveTo (target : DagNodeState) (nodeIds : List DagNodeId)
    (states : DagNodeId → Option DagNodeState) : DagNodeId → Option DagNodeState :=
  fun id => if id ∈ nodeIds then (states id).map fun _ => target else states id

/-- The states after an event. -/
def statesAfter (states : DagNodeId → Option DagNodeState) :
    DagRunEventPayload → DagNodeId → Option DagNodeState
  | .nodeTransitioned nodeId _ target _ => moveTo target [nodeId] states
  | _ => states

/-- The status after an event. -/
def statusAfter (status : DagRunStatus) : DagRunEventPayload → DagRunStatus
  | .runStarted _ | .runResumed _ => .running
  | .runCompleted _ => .completed
  | .runFailed _ _ => .failed
  | .runCancelled _ _ _ => .cancelled
  | _ => status

theorem nodeById_updateNodes (nodeId other : DagNodeId)
    (keepsId : ∀ node, (change node).id = node.id) :
    nodeById (updateNodes record nodeId change) other =
      if other = nodeId then (nodeById record nodeId).map change
      else nodeById record other := by
  have sameTest : ((fun node : DagNode => node.id == other) ∘
      fun node => if node.id = nodeId then change node else node) =
        fun node => node.id == other := by
    funext node
    by_cases changed : node.id = nodeId
    · simp [changed, keepsId]
    · simp [changed]
  unfold nodeById updateNodes
  rw [List.find?_map, sameTest]
  split
  · rename_i equal
    subst equal
    cases found : record.nodes.find? (fun node => node.id == other) with
    | none => rfl
    | some node =>
      have isOther : node.id = other := by simpa using List.find?_some found
      simp [isOther]
  · rename_i different
    cases found : record.nodes.find? (fun node => node.id == other) with
    | none => rfl
    | some node =>
      have isOther : node.id = other := by simpa using List.find?_some found
      have unchanged : node.id ≠ nodeId := by
        rw [isOther]
        exact different
      simp [unchanged]

end

variable {record : DagRunRecordV1}

theorem mem_of_nodeById (found : nodeById record nodeId = some node) :
    node ∈ record.nodes ∧ node.id = nodeId :=
  ⟨List.mem_of_find?_eq_some found, by simpa using List.find?_some found⟩

section

variable (nodup : (record.nodes.map (·.id)).Nodup) (member : node ∈ record.nodes)
include nodup member

theorem nodeById_of_mem : nodeById record node.id = some node := by
  unfold nodeById
  generalize record.nodes = nodes at nodup member
  induction nodes with
  | nil => simp at member
  | cons head tail ih =>
    rw [List.map_cons, List.nodup_cons] at nodup
    rcases List.mem_cons.mp member with rfl | later
    · simp
    · have different : head.id ≠ node.id := by
        intro equal
        exact nodup.1 (equal ▸ List.mem_map_of_mem later)
      rw [List.find?_cons_of_neg (by simpa using different)]
      exact ih nodup.2 later

theorem stateOf_of_mem : stateOf record node.id = some node.state := by
  rw [stateOf, nodeById_of_mem nodup member, Option.map_some]

theorem depsOf_of_mem : depsOf record node.id = node.dependsOn := by
  rw [depsOf, nodeById_of_mem nodup member, Option.map_some, Option.getD_some]

end

theorem exists_of_stateOf (known : stateOf record nodeId = some state) :
    ∃ node ∈ record.nodes, node.id = nodeId ∧ node.state = state ∧
      nodeById record nodeId = some node := by
  obtain ⟨node, found, isState⟩ := Option.map_eq_some_iff.mp known
  obtain ⟨member, isId⟩ := mem_of_nodeById found
  exact ⟨node, member, isId, isState, found⟩

theorem depsOf_eq_lookup :
    depsOf record nodeId =
      (((skeleton record).1.find? (·.1 == nodeId)).map (·.2)).getD [] := by
  unfold depsOf nodeById skeleton
  cases found : record.nodes.find? (fun node => node.id == nodeId) with
  | none | some node => simp only [List.find?_map, Function.comp_def, found]; rfl

theorem depsOf_of_skeleton (same : skeleton record = skeleton other) (nodeId : DagNodeId) :
    depsOf record nodeId = depsOf other nodeId := by
  rw [depsOf_eq_lookup, depsOf_eq_lookup, same]

theorem skeleton_updateNodes (record : DagRunRecordV1) (nodeId : DagNodeId)
    (keepsId : ∀ node, (change node).id = node.id)
    (keepsDeps : ∀ node, (change node).dependsOn = node.dependsOn) :
    skeleton (updateNodes record nodeId change) = skeleton record := by
  unfold skeleton updateNodes
  rw [List.map_map]
  congr 1
  apply List.map_congr_left
  intro node _
  by_cases changed : node.id = nodeId
  · simp [changed, keepsId, keepsDeps]
  · simp [changed]

theorem transitionedWithResult_fields (target : DagNodeState) (atTime : String)
    (error : Option DagNodeError) (result : Option (DagNodeResultArtifact × Option TaskRunStats))
    (node : DagNode) :
    (transitionedWithResult target atTime error result node).id = node.id ∧
      (transitionedWithResult target atTime error result node).dependsOn = node.dependsOn ∧
      (transitionedWithResult target atTime error result node).state = target ∧
      (transitionedWithResult target atTime error result node).error = error.orElse fun _ =>
          if target = .running ∧ node.state.isTerminal then none else node.error := by
  cases result with
  | none =>
    simp only [transitionedWithResult, transitionedNode]
    split <;> simp [clearedTerminalOutcome]
  | some found =>
    simp only [transitionedWithResult, withResult, transitionedNode]
    split <;> simp [clearedTerminalOutcome]

theorem applyTransition_view :
    skeleton (applyTransition record nodeId target atTime error result) = skeleton record ∧
      stateOf (applyTransition record nodeId target atTime error result) =
        moveTo target [nodeId] (stateOf record) := by
  have fields := transitionedWithResult_fields target atTime error result
  constructor
  · exact skeleton_updateNodes record nodeId (fun node => (fields node).1)
      fun node => (fields node).2.1
  · funext id
    have found := nodeById_updateNodes record nodeId id fun node => (fields node).1
    change (nodeById (updateNodes record nodeId _) id).map (·.state) = _
    rw [found]
    by_cases same : id = nodeId
    · subst same
      cases lookup : nodeById record id with
      | none => simp [moveTo, stateOf, lookup]
      | some node => simp [moveTo, stateOf, lookup, (fields node).2.2.1]
    · simp [moveTo, stateOf, same]

/-- What an event of the scheduler does to the skeleton, the states and the
status. -/
theorem applyDagSchedulerEvent_view (isAlive : Nat → Bool) (store : ResultStore)
    (tables : SideTables) (clock : String) (files : ResultFiles) (record : DagRunRecordV1)
    (plain : event.payload.rewrites = false) :
    let next := (applyDagSchedulerEvent isAlive store tables clock files record event).1
    skeleton next = skeleton record ∧
      stateOf next = statesAfter (stateOf record) event.payload ∧
      next.status = statusAfter record.status event.payload := by
  obtain ⟨runId, seq, atTime, lane, payload⟩ := event
  have attached : ∀ change : DagNode → DagNode, (∀ node, (change node).id = node.id) →
      (∀ node, (change node).dependsOn = node.dependsOn) →
      (∀ node, (change node).state = node.state) → ∀ nodeId,
      skeleton (updateNodes record nodeId change) = skeleton record ∧
        stateOf (updateNodes record nodeId change) = stateOf record := by
    intro change keepsId keepsDeps keepsState nodeId
    refine ⟨skeleton_updateNodes record nodeId keepsId keepsDeps, ?_⟩
    funext id
    unfold stateOf
    rw [nodeById_updateNodes record nodeId id keepsId]
    by_cases same : id = nodeId
    · subst same
      simp [Function.comp_def, keepsState]
    · simp [same]
  cases payload with
  | nodeTransitioned nodeId source target reason =>
    simp only [applyDagSchedulerEvent, applyNodeTransitioned]
    split
    · split
      · exact ⟨(applyTransition_view).1, (applyTransition_view).2,
          rfl⟩
      · exact ⟨(applyTransition_view).1,
          (applyTransition_view).2, rfl⟩
    · exact ⟨(applyTransition_view).1, (applyTransition_view).2,
        rfl⟩
  | nodeTaskAttached nodeId taskId attempt =>
    have changed := attached (fun node =>
      { node with taskId := some taskId, attempt := attempt })
        (fun _ => rfl) (fun _ => rfl) (fun _ => rfl) nodeId
    exact ⟨changed.1, changed.2, rfl⟩
  | nodeSteered nodeId taskId delivery =>
    cases delivery with
    | steer => exact ⟨rfl, rfl, rfl⟩
    | revive =>
      have changed := attached (fun node => { node with taskId := some taskId })
        (fun _ => rfl) (fun _ => rfl) (fun _ => rfl) nodeId
      exact ⟨changed.1, changed.2, rfl⟩
  | nodeRetried | definitionAmended => simp [DagRunEventPayload.rewrites] at plain
  | _ => exact ⟨rfl, rfl, rfl⟩

end OpenAgent.Dag
