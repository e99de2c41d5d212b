import OpenAgent.Dag.Frontier

/-!
# The ends of a run

A finished run reports its first failure in wave order, a cancelled one the
nodes it cancelled.
-/

namespace OpenAgent.Dag

open Library

/-- The first failed node in wave order. -/
def firstFailure (record : DagRunRecordV1) : Option DagNodeId :=
  (record.waves.flatMap (·.nodeIds)).find? fun id => stateOf record id == some .failed

theorem firstFailure_congr (same : skeleton record = skeleton other)
    (states : stateOf record = stateOf other) : firstFailure record = firstFailure other := by
  have waves : record.waves = other.waves := congrArg (·.2.1) same
  rw [firstFailure, firstFailure, waves, states]

/-- The payload of a run that ended without being cancelled. -/
def DagRunEventPayload.settlesRun : DagRunEventPayload → Bool
  | .runCompleted _ | .runFailed _ _ => true
  | _ => false

namespace RunJournal

variable (env : SchedulerEnv)

theorem firstFailed_spec (known : ∀ id ∈ ids, (stateOf record id).isSome) :
    ∃ found, firstFailed record ids = some found ∧
      found.map (·.id) = ids.find? (fun id => stateOf record id == some .failed) ∧
      ∀ node, found = some node → node ∈ record.nodes := by
  induction ids with
  | nil => exact ⟨none, rfl, rfl, by simp⟩
  | cons id ids ih =>
    obtain ⟨state, isState⟩ := Option.isSome_iff_exists.mp (known id List.mem_cons_self)
    obtain ⟨node, member, isId, nodeState, lookup⟩ := exists_of_stateOf isState
    obtain ⟨found, isFound, agrees, inRecord⟩ := ih fun other member =>
      known other (List.mem_cons_of_mem id member)
    simp only [firstFailed, lookup]
    by_cases failed : node.state = .failed
    · rw [if_pos failed, List.find?_cons_of_pos (by simp [isState, ← nodeState, failed])]
      refine ⟨some node, rfl, by simp [isId], ?_⟩
      intro other equal
      cases equal
      exact member
    · rw [if_neg failed, List.find?_cons_of_neg (by simp [isState, ← nodeState, failed])]
      exact ⟨found, isFound, agrees, inRecord⟩

theorem evolves_finishRun (journal : RunJournal) : Evolves env journal (journal.finishRun env) := by
  unfold finishRun
  split
  · exact evolves_staged ⟨rfl, rfl, rfl, fun named => ⟨named.stored, named.staged⟩⟩
  · exact evolves_append _ rfl
  · exact evolves_append _ rfl

theorem evolves_finishCancellation (journal : RunJournal) (reason : Option String) :
    Evolves env journal (journal.finishCancellation env reason) := by
  exact (evolves_foldl (fun journal id => evolves_transition env journal id _ _) _ _).trans
    (evolves_append _ rfl)

/-- How a settled run ends. -/
theorem Sound.finishRun_spec (sound : Sound rank journal) :
    ∃ payload, payload.settlesRun = true ∧
      (journal.finishRun env).endings = journal.endings ++ [payload] ∧
      Sound rank (journal.finishRun env) ∧
      stateOf (journal.finishRun env).durable = stateOf journal.durable ∧
      (journal.finishRun env).durable.status =
        (if firstFailure journal.durable = none then .completed else .failed) ∧
      ∀ error counts, payload = .runFailed error counts → (firstFailure journal.durable).isSome ∧
          (journal.ErrorsNamed → error.nodeId = firstFailure journal.durable) := by
  have known : ∀ id ∈ journal.durable.waves.flatMap (·.nodeIds),
      (stateOf journal.durable id).isSome := by
    intro id member
    obtain ⟨wave, waveMember, idMember⟩ := List.mem_flatMap.mp member
    exact isSome_stateOf_iff.mpr (sound.waves wave waveMember id idMember)
  obtain ⟨found, isFound, agrees, inRecord⟩ := firstFailed_spec known
  unfold finishRun primaryFailure
  simp only [sound.synced, isFound]
  change found.map (·.id) = firstFailure journal.durable at agrees
  cases found with
  | none =>
    obtain ⟨_, rest⟩ := sound.append_run env
      (.runCompleted (countNodes journal.durable.nodes)) rfl rfl rfl
    obtain ⟨soundNext, statesEq, statusEq, endingsEq⟩ := rest
    refine ⟨_, rfl, endingsEq, soundNext, statesEq, ?_, ?_⟩
    · rw [← agrees]
      exact statusEq
    · intro error counts impossible
      cases impossible
  | some failed =>
    obtain ⟨_, rest⟩ := sound.append_run env (.runFailed (failed.error.getD
        (journal.nodeError env failed.id .startFailed "DAG node failed"))
        (countNodes journal.durable.nodes)) rfl rfl rfl
    obtain ⟨soundNext, statesEq, statusEq, endingsEq⟩ := rest
    refine ⟨_, rfl, endingsEq, soundNext, statesEq, ?_, ?_⟩
    · rw [← agrees]
      exact statusEq
    · intro error counts equal
      injection equal with errorEq _
      rw [← agrees, ← errorEq]
      refine ⟨rfl, fun named => ?_⟩
      cases stored : failed.error with
      | none => rfl
      | some error => exact named.stored failed (inRecord failed rfl) error stored

/-- How a cancelled run ends: the nodes that are not terminal are
cancelled. -/
theorem Sound.finishCancellation_spec (sound : Sound rank journal) (reason : Option String) :
    ∃ counts cancelledNodeIds, (journal.finishCancellation env reason).endings =
        journal.endings ++ [.runCancelled reason counts cancelledNodeIds] ∧
      Sound rank (journal.finishCancellation env reason) ∧
      (journal.finishCancellation env reason).durable.status = .cancelled ∧
      stateOf (journal.finishCancellation env reason).durable =
        moveTo .cancelled cancelledNodeIds (stateOf journal.durable) ∧
      ∀ id, id ∈ cancelledNodeIds ↔ ∃ state, stateOf journal.durable id = some state ∧
        state.isTerminal = false := by
  have members : ∀ id,
      id ∈ (journal.durable.nodes.filter fun node => !node.state.isTerminal).map (·.id) ↔
        ∃ state, stateOf journal.durable id = some state ∧ state.isTerminal = false := by
    intro id
    simp only [List.mem_map, List.mem_filter, Bool.not_eq_true']
    constructor
    · rintro ⟨node, ⟨member, active⟩, rfl⟩
      exact ⟨node.state, stateOf_of_mem sound.graph.nodupIds member, active⟩
    · rintro ⟨state, isState, active⟩
      obtain ⟨node, member, isId, nodeState, _⟩ := exists_of_stateOf isState
      exact ⟨node, ⟨member, nodeState ▸ active⟩, isId⟩
  unfold finishCancellation
  simp only [sound.synced]
  generalize (journal.durable.nodes.filter fun node => !node.state.isTerminal).map (·.id) =
    cancelledNodeIds at members
  have moves : Moves env journal (journal.cancelNodes env cancelledNodeIds) _ :=
    sound.foldl_moves
      (fun journal id sound known => sound.transition_moves env known .cancelled .cancelled)
      (fun id member => by
        obtain ⟨state, isState, _⟩ := (members id).mp member
        simp [isState])
  generalize journal.cancelNodes env cancelledNodeIds = cancelled at moves
  obtain ⟨_, soundNext, statesEq, statusEq, endingsEq⟩ := (moves.sound sound).append_run env
    (.runCancelled reason (countNodes cancelled.cache.nodes) cancelledNodeIds) rfl rfl rfl
  refine ⟨countNodes cancelled.cache.nodes, cancelledNodeIds, ?_, soundNext, statusEq, ?_, members⟩
  · rw [endingsEq, moves.endings_eq]
    rfl
  · rw [statesEq, moves.states_eq]

end RunJournal

end OpenAgent.Dag
