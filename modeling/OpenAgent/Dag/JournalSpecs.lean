import OpenAgent.Dag.JournalMoves

/-!
# The journal operations on a sound journal

One specification for each operation of the scheduler that writes its journal,
for a journal whose cache is up to date and whose graph is well formed.
-/

namespace OpenAgent.Dag

open Library

/-- The graph is a matter of the skeleton. -/
theorem wellFormedGraph_of_skeleton (same : skeleton other = skeleton record)
    (graph : WellFormedGraph record.nodes rank) : WellFormedGraph other.nodes rank := by
  have pairs : other.nodes.map (fun node => (node.id, node.dependsOn)) =
      record.nodes.map fun node => (node.id, node.dependsOn) := congrArg Prod.fst same
  have ids : other.nodes.map (·.id) = record.nodes.map (·.id) := by
    have firsts := congrArg (List.map Prod.fst) pairs
    simpa [Function.comp_def] using firsts
  have counterpart : ∀ node ∈ other.nodes, ∃ twin ∈ record.nodes,
      twin.id = node.id ∧ twin.dependsOn = node.dependsOn := by
    intro node member
    have pairMember : (node.id, node.dependsOn) ∈
        record.nodes.map fun node => (node.id, node.dependsOn) :=
      pairs ▸ List.mem_map_of_mem member
    obtain ⟨twin, twinMember, equal⟩ := List.mem_map.mp pairMember
    injection equal with idEq depsEq
    exact ⟨twin, twinMember, idEq, depsEq⟩
  refine ⟨ids ▸ graph.nodupIds, ?_, ?_⟩
  · intro node member dep depMember
    obtain ⟨twin, twinMember, _, depsEq⟩ := counterpart node member
    obtain ⟨found, foundMember, foundId⟩ :=
      graph.known twin twinMember dep (depsEq ▸ depMember)
    have inIds : dep ∈ other.nodes.map (·.id) := by
      rw [ids, ← foundId]
      exact List.mem_map_of_mem foundMember
    obtain ⟨node, nodeMember, nodeId⟩ := List.mem_map.mp inIds
    exact ⟨node, nodeMember, nodeId⟩
  · intro node member dep depMember
    obtain ⟨twin, twinMember, idEq, depsEq⟩ := counterpart node member
    rw [← idEq]
    exact graph.decreasing twin twinMember dep (depsEq ▸ depMember)

/-- Waves list known nodes only. -/
def WavesKnown (record : DagRunRecordV1) : Prop :=
  ∀ wave ∈ (skeleton record).2.1, ∀ nodeId ∈ wave.nodeIds, nodeId ∈ (skeleton record).1.map Prod.fst

theorem isSome_stateOf_iff :
    (stateOf record nodeId).isSome ↔ nodeId ∈ (skeleton record).1.map Prod.fst := by
  simp [stateOf, nodeById, skeleton]

/-- Dependencies of known nodes are known, and of smaller rank. -/
theorem WellFormedGraph.dependency (graph : WellFormedGraph record.nodes rank)
    (depMember : dep ∈ depsOf record nodeId) :
    rank dep < rank nodeId ∧ ∃ state, stateOf record dep = some state := by
  unfold depsOf at depMember
  cases found : nodeById record nodeId with
  | none => simp [found] at depMember
  | some node =>
    simp only [found] at depMember
    obtain ⟨member, isId⟩ := mem_of_nodeById found
    obtain ⟨other, otherMember, otherId⟩ := graph.known node member dep depMember
    refine ⟨isId ▸ graph.decreasing node member dep depMember, other.state, ?_⟩
    rw [← otherId]
    exact stateOf_of_mem graph.nodupIds otherMember

theorem moveTo_eq_some {id : DagNodeId} :
    moveTo target nodeIds states id = some state ↔
      (id ∈ nodeIds ∧ (states id).isSome ∧ state = target) ∨
        (id ∉ nodeIds ∧ states id = some state) := by
  unfold moveTo
  by_cases member : id ∈ nodeIds
  · cases states id <;> simp [member, eq_comm]
  · simp [member]

theorem moveTo_isSome (target : DagNodeState) (nodeIds : List DagNodeId)
    (states : DagNodeId → Option DagNodeState) (id : DagNodeId) :
    (moveTo target nodeIds states id).isSome = (states id).isSome := by
  unfold moveTo
  split <;> simp

section

variable (states : DagNodeId → Option DagNodeState)

@[simp] theorem moveTo_nil : moveTo target [] states = states := by
  funext id
  simp [moveTo]

theorem moveTo_cons :
    moveTo target nodeIds (moveTo target [nodeId] states) =
      moveTo target (nodeId :: nodeIds) states := by
  funext id
  unfold moveTo
  by_cases isHead : id = nodeId
  · subst isHead
    by_cases later : id ∈ nodeIds <;> cases states id <;> simp
  · simp [isHead]

end

theorem moveTo_eq_self (there : states nodeId = some target) :
    moveTo target [nodeId] states = states := by
  funext id
  by_cases same : id = nodeId
  · subst same
    simp [moveTo, there]
  · simp [moveTo, same]

/-- The events about nodes and waves, which leave the status of the run
alone. -/
def DagRunEventPayload.ofNodes : DagRunEventPayload → Bool
  | .nodeTransitioned _ _ _ _ | .nodeTaskAttached _ _ _
  | .waveStarted _ _ | .waveCompleted _ _ => true
  | _ => false

namespace RunJournal

/-- The run-ending events this instance appended. -/
def endings (journal : RunJournal) : List DagRunEventPayload :=
  (journal.log.map (·.payload)).filter (·.endsRun)

/-- A journal at rest: no exception, an up-to-date cache, a well-formed graph
and waves of known nodes. -/
structure Sound (rank : DagNodeId → Nat) (journal : RunJournal) : Prop where
  thrown : journal.thrown = false
  synced : journal.cache = journal.durable
  graph : WellFormedGraph journal.durable.nodes rank
  waves : WavesKnown journal.durable

/-- The exact effect of an operation that only concerns nodes. -/
structure Moves (env : SchedulerEnv) (journal next : RunJournal)
    (states : DagNodeId → Option DagNodeState) : Prop where
  evolves : Evolves env journal next
  thrown : next.thrown = false
  synced : next.cache = next.durable
  states_eq : stateOf next.durable = states
  status_eq : next.durable.status = journal.durable.status
  endings_eq : next.endings = journal.endings

theorem Moves.trans (first : Moves env journal middle states)
    (second : Moves env middle next later) : Moves env journal next later where
  __ := second
  evolves := first.evolves.trans second.evolves
  status_eq := second.status_eq.trans first.status_eq
  endings_eq := second.endings_eq.trans first.endings_eq

theorem Moves.sound (moves : Moves env journal next states) (sound : Sound rank journal) :
    Sound rank next where
  __ := moves
  graph := wellFormedGraph_of_skeleton moves.evolves.skeleton_eq sound.graph
  waves := by
    rw [WavesKnown, moves.evolves.skeleton_eq]
    exact sound.waves

variable (env)

theorem Sound.moves_refl (sound : Sound rank journal) :
    Moves env journal journal (stateOf journal.durable) where
  __ := sound
  evolves := evolves_refl
  states_eq := rfl
  status_eq := rfl
  endings_eq := rfl

/-- A staged change that throws nothing moves nothing. -/
theorem Sound.moves_staged (sound : Sound rank journal) (same : Staged journal next)
    (thrown : next.thrown = journal.thrown) : Moves env journal next (stateOf journal.durable) where
  evolves := evolves_staged same
  thrown := thrown.trans sound.thrown
  synced := by rw [same.cache, same.durable, sound.synced]
  states_eq := by rw [same.durable]
  status_eq := by rw [same.durable]
  endings_eq := by rw [endings, same.log, endings]

theorem plain_of_ofNodes (ofNodes : payload.ofNodes = true) :
    payload.rewrites = false ∧ payload.endsRun = false ∧
      ∀ status, statusAfter status payload = status := by
  cases payload <;>
    simp_all [DagRunEventPayload.ofNodes, DagRunEventPayload.rewrites,
      DagRunEventPayload.endsRun, statusAfter]

theorem statesAfter_of_skipped (nodup : (record.nodes.map (·.id)).Nodup)
    (skipped : skipDuplicateTerminalTransition record payload = true) :
    statesAfter (stateOf record) payload = stateOf record := by
  cases payload with
  | nodeTransitioned nodeId source target reason =>
    simp only [skipDuplicateTerminalTransition, Bool.and_eq_true, List.any_eq_true,
      beq_iff_eq] at skipped
    obtain ⟨_, node, member, isId, isState⟩ := skipped
    apply moveTo_eq_self
    rw [← isId, stateOf_of_mem nodup member, isState]
  | _ => rfl

/-- Appending an event about nodes. -/
theorem Sound.append_moves (sound : Sound rank journal) (ofNodes : payload.ofNodes = true) :
    Moves env journal (journal.append env payload)
      (statesAfter (stateOf journal.durable) payload) := by
  obtain ⟨plain, quiet, status⟩ := plain_of_ofNodes ofNodes
  have evolves := @evolves_append env journal payload plain
  unfold append at evolves ⊢
  rw [if_neg (by simp [sound.thrown])] at evolves ⊢
  split at evolves
  · rename_i skipped
    rw [if_pos skipped]
    exact
      { evolves := evolves
        thrown := sound.thrown
        synced := rfl
        states_eq := (statesAfter_of_skipped sound.graph.nodupIds skipped).symm
        status_eq := rfl
        endings_eq := rfl }
  · rename_i fresh
    rw [if_neg fresh]
    obtain ⟨_, statesEq, statusEq⟩ := applyDagSchedulerEvent_view env.isAlive
      (env.store (journal.eventFor env payload).seq) journal.tables
      (env.copyTime (journal.eventFor env payload).seq) journal.files journal.durable
      (show (journal.eventFor env payload).payload.rewrites = false from plain)
    exact
      { evolves := evolves
        thrown := sound.thrown
        synced := rfl
        states_eq := statesEq
        status_eq := statusEq.trans (status _)
        endings_eq := by simp [endings, eventFor, quiet] }

/-- Appending an event that starts or ends the run. -/
theorem Sound.append_run (sound : Sound rank journal) (payload : DagRunEventPayload)
    (plain : payload.rewrites = false)
    (still : statesAfter (stateOf journal.durable) payload = stateOf journal.durable)
    (kept : skipDuplicateTerminalTransition journal.durable payload = false) :
    let next := journal.append env payload
    Evolves env journal next ∧ Sound rank next ∧
      stateOf next.durable = stateOf journal.durable ∧
      next.durable.status = statusAfter journal.durable.status payload ∧
      next.endings = journal.endings ++ [payload].filter (·.endsRun) := by
  have evolves := @evolves_append env journal payload plain
  obtain ⟨_, statesEq, statusEq⟩ := applyDagSchedulerEvent_view env.isAlive
    (env.store (journal.eventFor env payload).seq) journal.tables
    (env.copyTime (journal.eventFor env payload).seq) journal.files journal.durable
    (show (journal.eventFor env payload).payload.rewrites = false from plain)
  refine ⟨evolves, ?_⟩
  have graph := wellFormedGraph_of_skeleton evolves.skeleton_eq sound.graph
  have waves := sound.waves
  rw [WavesKnown, ← evolves.skeleton_eq] at waves
  revert graph waves
  unfold append
  rw [if_neg (by simp [sound.thrown]), if_neg (by simp [kept])]
  intro graph waves
  refine ⟨⟨sound.thrown, rfl, graph, waves⟩, statesEq.trans still, statusEq, ?_⟩
  simp [endings, eventFor]

theorem evolves_transition (journal : RunJournal) (nodeId : DagNodeId) (target : DagNodeState)
    (reason : DagNodeTransitionReason) :
    Evolves env journal (journal.transition env nodeId target reason) := by
  unfold transition
  split
  · exact evolves_staged ⟨rfl, rfl, rfl, fun named => ⟨named.stored, named.staged⟩⟩
  · exact evolves_append _ rfl

theorem staged_setPendingError (names : ∀ found, error = some found → found.nodeId = some nodeId) :
    Staged journal (journal.setPendingError nodeId error) := by
  refine ⟨rfl, rfl, rfl, fun named => ⟨named.stored, ?_⟩⟩
  intro other found isError
  simp only [setPendingError] at isError
  split at isError
  · rename_i same
    rw [same]
    exact names found isError
  · exact named.staged other found isError

section

variable (journal : RunJournal) (nodeId : DagNodeId)

theorem staged_setPendingResult (task : TaskRecord) :
    Staged journal (journal.setPendingResult nodeId task) :=
  ⟨rfl, rfl, rfl, fun named => ⟨named.stored, named.staged⟩⟩

theorem staged_nodeError (code : DagNodeErrorCode) (message : String) :
    Staged journal
      (journal.setPendingError nodeId (some (journal.nodeError env nodeId code message))) :=
  staged_setPendingError (by
    intro found isError
    cases isError
    rfl)

theorem staged_clearError : Staged journal (journal.setPendingError nodeId none) :=
  staged_setPendingError (by
    intro found isError
    cases isError)

theorem evolves_failNode (code : DagNodeErrorCode) (message : String) :
    Evolves env journal (journal.failNode env nodeId code message) := by
  have moved : Evolves env journal ((journal.setPendingError nodeId
        (some (journal.nodeError env nodeId code message))).transition env nodeId
          .failed .failed) :=
    (evolves_staged (staged_nodeError env journal nodeId code message)).trans
      (evolves_transition env _ nodeId .failed .failed)
  unfold failNode
  simp only
  split
  · exact moved
  · exact moved.trans (evolves_staged (staged_clearError _ nodeId))

theorem evolves_foldTaskOutcome (task : TaskRecord) :
    Evolves env journal (journal.foldTaskOutcome env nodeId task) := by
  have staged := @evolves_staged env _ _ (staged_setPendingResult journal nodeId task)
  unfold foldTaskOutcome
  split
  · split
    · exact staged.trans (evolves_transition env _ nodeId .completed .succeeded)
    · exact staged.trans (evolves_failNode env _ nodeId _ _)
  · exact evolves_staged ⟨rfl, rfl, rfl, fun named => ⟨named.stored, named.staged⟩⟩

end

theorem Sound.transition_moves (sound : Sound rank journal)
    (known : (stateOf journal.durable nodeId).isSome) (target : DagNodeState)
    (reason : DagNodeTransitionReason) :
    Moves env journal (journal.transition env nodeId target reason)
      (moveTo target [nodeId] (stateOf journal.durable)) := by
  obtain ⟨state, isState⟩ := Option.isSome_iff_exists.mp known
  obtain ⟨node, _, _, _, found⟩ := exists_of_stateOf isState
  unfold transition
  rw [sound.synced, found]
  exact sound.append_moves env rfl

theorem Sound.failNode_moves (sound : Sound rank journal)
    (known : (stateOf journal.durable nodeId).isSome) (code : DagNodeErrorCode) (message : String) :
    Moves env journal (journal.failNode env nodeId code message)
      (moveTo .failed [nodeId] (stateOf journal.durable)) := by
  have staged := sound.moves_staged env
    (staged_nodeError env journal nodeId code message) rfl
  have moved := staged.trans
    ((staged.sound sound).transition_moves env known .failed .failed)
  unfold failNode
  rw [if_neg (by simp [moved.thrown])]
  have cleared := (moved.sound sound).moves_staged env
    (staged_clearError _ nodeId) rfl
  have whole := moved.trans cleared
  rw [moved.states_eq] at whole
  exact whole

/-- The state in which a task with the given status leaves its node. -/
def outcomeState (status : TaskStatus) : DagNodeState :=
  if status = .completed then .completed else .failed

theorem Sound.foldTaskOutcome_moves (sound : Sound rank journal)
    (known : (stateOf journal.durable nodeId).isSome) (terminal : task.status.isTerminal = true) :
    Moves env journal (journal.foldTaskOutcome env nodeId task)
      (moveTo (outcomeState task.status) [nodeId] (stateOf journal.durable)) := by
  have staged := sound.moves_staged env
    (staged_setPendingResult journal nodeId task) rfl
  have ready := staged.sound sound
  unfold foldTaskOutcome
  have failed : ∀ code message, Moves env journal
      ((journal.setPendingResult nodeId task).failNode env nodeId code message)
      (moveTo .failed [nodeId] (stateOf journal.durable)) := fun code message =>
    staged.trans (ready.failNode_moves env known code message)
  cases statusEq : task.status with
  | completed => exact staged.trans (ready.transition_moves env known _ _)
  | error | interrupted | lost | cancelled => exact failed _ _
  | pending | running => simp [statusEq, TaskStatus.isTerminal] at terminal

variable {env} in
/-- Moving the nodes of a list one after the other. -/
theorem Sound.foldl_moves
    (each : ∀ journal nodeId, Sound rank journal → (stateOf journal.durable nodeId).isSome →
        Moves env journal (change journal nodeId)
          (moveTo target [nodeId] (stateOf journal.durable)))
    (sound : Sound rank journal)
    (known : ∀ nodeId ∈ nodeIds, (stateOf journal.durable nodeId).isSome) :
    Moves env journal (nodeIds.foldl change journal)
      (moveTo target nodeIds (stateOf journal.durable)) := by
  induction nodeIds generalizing journal with
  | nil =>
    exact sound.moves_refl env
  | cons nodeId nodeIds ih =>
    have first := each journal nodeId sound (known nodeId List.mem_cons_self)
    have rest := ih (first.sound sound) (by
      intro other member
      rw [first.states_eq, moveTo_isSome]
      exact known other (List.mem_cons_of_mem nodeId member))
    rw [first.states_eq, moveTo_cons] at rest
    exact first.trans rest

variable {env} in
/-- Operations that move nothing, one after the other. -/
theorem Sound.foldl_still {change : RunJournal → α → RunJournal}
    (each : ∀ journal value, Sound rank journal →
      Moves env journal (change journal value) (stateOf journal.durable))
    (sound : Sound rank journal)
    (values : List α) :
    Moves env journal (values.foldl change journal) (stateOf journal.durable) := by
  induction values generalizing journal with
  | nil => exact sound.moves_refl env
  | cons value values ih =>
    have first := each journal value sound
    have rest := ih (first.sound sound)
    rw [first.states_eq] at rest
    exact first.trans rest

theorem evolves_emitWaveAdmissions (journal : RunJournal) (scheduled : List DagNodeId) :
    Evolves env journal (journal.emitWaveAdmissions env scheduled) := by
  apply evolves_foldl
  intro reporting index
  exact (@evolves_append env reporting _ rfl).trans
    (evolves_staged ⟨rfl, rfl, rfl, fun named => ⟨named.stored, named.staged⟩⟩)

theorem evolves_emitCompletedWaves :
    Evolves env journal (journal.emitCompletedWaves env) := by
  unfold emitCompletedWaves
  split
  · exact evolves_refl
  · apply evolves_foldl
    intro reporting wave
    unfold emitWaveCompletion
    split
    · exact (evolves_append _ rfl).trans
        (evolves_staged ⟨rfl, rfl, rfl, fun named => ⟨named.stored, named.staged⟩⟩)
    · exact evolves_refl

variable (sound : Sound rank journal)
include sound

theorem Sound.report_moves (payload : DagRunEventPayload) (ofNodes : payload.ofNodes = true)
    (still : statesAfter (stateOf journal.durable) payload = stateOf journal.durable)
    (same : Staged (journal.append env payload) reported)
    (thrown : reported.thrown = (journal.append env payload).thrown) :
    Moves env journal reported (stateOf journal.durable) := by
  have appended := sound.append_moves env ofNodes
  have whole := appended.trans ((appended.sound sound).moves_staged env same thrown)
  rw [appended.states_eq, still] at whole
  exact whole

theorem Sound.emitWaveAdmissions_moves (scheduled : List DagNodeId) :
    Moves env journal (journal.emitWaveAdmissions env scheduled) (stateOf journal.durable) := by
  apply sound.foldl_still
  intro reporting index sound
  exact sound.report_moves env (.waveStarted index _) rfl rfl
    ⟨rfl, rfl, rfl, fun named => ⟨named.stored, named.staged⟩⟩ rfl

theorem Sound.emitCompletedWaves_moves :
    Moves env journal (journal.emitCompletedWaves env) (stateOf journal.durable) := by
  unfold emitCompletedWaves
  split
  · exact sound.moves_refl env
  · apply sound.foldl_still
    intro reporting wave sound
    unfold emitWaveCompletion
    split
    · exact sound.report_moves env _ rfl rfl
        ⟨rfl, rfl, rfl, fun named => ⟨named.stored, named.staged⟩⟩ rfl
    · exact sound.moves_refl env

end RunJournal

end OpenAgent.Dag
