import OpenAgent.Dag.LiveNodes

/-!
# What an amendment puts back

An amendment that is accepted puts back to pending, with a further attempt, the nodes
that were there and that the new graph reaches from a changed or an added one.  All
others that stay are as they were.
-/

namespace OpenAgent.Dag

open Library

/-- A node of both definitions with another fingerprint. -/
def Changed (sha256 : List Char → String) (record : DagRunRecordV1) (definition : DagDefinition)
    (id : DagNodeId) : Prop :=
  ∃ old ∈ record.definition.nodes, ∃ node ∈ definition.nodes, old.input.id = id ∧ node.id = id ∧
    dagFingerprint sha256 (nodeFingerprintInput old.input) ≠
      dagFingerprint sha256 (nodeFingerprintInput node)

/-- Where the hash has no collisions, a node is changed when one of its fields is. -/
theorem changed_iff {id : DagNodeId} (injective : Function.Injective sha256) :
    Changed sha256 record definition id ↔
      ∃ old ∈ record.definition.nodes, ∃ node ∈ definition.nodes, old.input.id = id ∧
        node.id = id ∧ ¬ SameFields old.input node := by
  simp only [Changed, ne_eq, nodeFingerprint_inj injective]

/-- A node of the new definition alone. -/
def Added (record : DagRunRecordV1) (definition : DagDefinition) (id : DagNodeId) : Prop :=
  id ∈ definition.nodes.map (·.id) ∧ id ∉ record.definition.nodes.map (·.input.id)

/-- A changed or added node, or one that depends on such a node. -/
def Affected (sha256 : List Char → String) (record : DagRunRecordV1) (definition : DagDefinition)
    (edges : List DagEdge) (id : DagNodeId) : Prop :=
  ∃ seed, (Changed sha256 record definition seed ∨ Added record definition seed) ∧
    Reaches edges seed id

/-- The nodes are those of the new definition, the ones that were there before are put back
exactly where something they depend on has changed, and are as they were elsewhere. -/
structure AmendedExactly (sha256 : List Char → String) (before : DagRunRecordV1)
    (definition : DagDefinition) (after : DagRunRecordV1) : Prop where
  ids : after.nodes.map (·.id) = definition.nodes.map (·.id)
  putBack : ∀ old ∈ before.nodes, ∀ node ∈ after.nodes, node.id = old.id →
    (node.state = .pending ∧ node.execAttempt = some (old.execAttempt.getD 0 + 1) ↔
      Affected sha256 before definition after.edges old.id)
  kept : ∀ old ∈ before.nodes, ∀ node ∈ after.nodes, node.id = old.id →
    ¬ Affected sha256 before definition after.edges old.id → node = old

section Comparison

theorem fingerprintOf_eq_none_iff {id : DagNodeId} :
    fingerprintOf sha256 nodes id = none ↔ id ∉ nodes.map (·.id) := by
  simp [fingerprintOf]

theorem fingerprintOf_of_mem (unique : (nodes.map (·.id)).Nodup) (member : node ∈ nodes) :
    fingerprintOf sha256 nodes node.id =
      some (dagFingerprint sha256 (nodeFingerprintInput node)) := by
  cases found : nodes.reverse.find? (·.id == node.id) with
  | none =>
    rw [List.find?_eq_none] at found
    simpa using found node (List.mem_reverse.mpr member)
  | some other =>
    have isOther : other ∈ nodes := List.mem_reverse.mp (List.mem_of_find?_eq_some found)
    have sameId : other.id = node.id := by simpa using List.find?_some found
    rw [fingerprintOf, found, List.inj_on_of_nodup_map unique isOther member sameId]
    rfl

variable {id : DagNodeId}

theorem definitionIds (identified : WellIdentified record) :
    (record.definition.nodes.map (·.input)).map (·.id) = record.nodes.map (·.id) := by
  rw [List.map_map]
  exact identified.definition

theorem mem_changedIds (identified : WellIdentified record) :
    id ∈ (amendmentDiff sha256 record request).changedIds ↔
      Changed sha256 record request.definition id := by
  have unique : ((record.definition.nodes.map (·.input)).map (·.id)).Nodup :=
    definitionIds identified ▸ identified.nodup
  constructor
  · intro isChanged
    obtain ⟨node, member, rfl⟩ := List.mem_map.mp isChanged
    obtain ⟨isNode, differs⟩ := List.mem_filter.mp member
    by_cases isOld : node.id ∈ (record.definition.nodes.map (·.input)).map (·.id)
    · obtain ⟨input, isInput, sameId⟩ := List.mem_map.mp isOld
      rw [← sameId, fingerprintOf_of_mem unique isInput] at differs
      obtain ⟨old, isOld, rfl⟩ := List.mem_map.mp isInput
      exact ⟨old, isOld, node, isNode, sameId, rfl, by simpa using differs⟩
    · rw [fingerprintOf_eq_none_iff.mpr isOld] at differs
      cases differs
  · rintro ⟨old, isOld, node, isNode, sameId, rfl, differs⟩
    refine List.mem_map.mpr ⟨node, List.mem_filter.mpr ⟨isNode, ?_⟩, rfl⟩
    rw [← sameId, fingerprintOf_of_mem unique (List.mem_map_of_mem isOld)]
    simpa using differs

theorem mem_addedIds :
    id ∈ (amendmentDiff sha256 record request).addedIds ↔ Added record request.definition id := by
  simp only [amendmentDiff, diffNodeFingerprints, List.mem_map, List.mem_filter,
    Option.isNone_iff_eq_none, fingerprintOf_eq_none_iff, Added]
  constructor
  · rintro ⟨node, ⟨isNode, isNew⟩, rfl⟩
    exact ⟨⟨node, isNode, rfl⟩, by simpa using isNew⟩
  · rintro ⟨⟨node, isNode, rfl⟩, isNew⟩
    exact ⟨node, ⟨isNode, by simpa using isNew⟩, rfl⟩

/-- What the reducer takes for removed, the comparison does. -/
theorem mem_removedIds (identified : WellIdentified record)
    (compiles : (compileDag request.definition request.settings request.atTime).ok = true)
    (isRemoved : id ∈ (record.nodes.filter fun node =>
      !((amendmentOf sha256 record request (compileDag request.definition request.settings
        request.atTime)).nodes.map (·.id)).contains node.id).map (·.id)) :
    id ∈ (amendmentDiff sha256 record request).removedIds := by
  obtain ⟨node, member, rfl⟩ := List.mem_map.mp isRemoved
  obtain ⟨isNode, isGone⟩ := List.mem_filter.mp member
  rw [amendmentIds, compiledIds compiles] at isGone
  have isOld : node.id ∈ record.definition.nodes.map (·.input.id) :=
    identified.definition ▸ List.mem_map_of_mem isNode
  obtain ⟨old, isOld, sameId⟩ := List.mem_map.mp isOld
  refine List.mem_map.mpr ⟨old.input, List.mem_filter.mpr ⟨List.mem_map_of_mem isOld, ?_⟩, sameId⟩
  rw [sameId, Option.isNone_iff_eq_none, fingerprintOf_eq_none_iff]
  simpa using isGone

theorem affected_iff (identified : WellIdentified record) :
    id ∈ transitiveDependents edges ((amendmentDiff sha256 record request).changedIds ++
        (amendmentDiff sha256 record request).addedIds) ↔
      Affected sha256 record request.definition edges id := by
  simp only [mem_transitiveDependents, List.mem_append, mem_changedIds identified, mem_addedIds,
    Affected]

end Comparison

section Amendment

variable {run : StoredRun}

/-- The reducer finds nothing to refuse that the verb has not found. -/
theorem amendRun_taken (identified : WellIdentified run.record)
    (isAccepted : (amendRun env sha256 run request).2 = none) :
    (compileDag request.definition request.settings request.atTime).ok = true ∧
      (amendRun env sha256 run request).1.record = withCheckpointSeq
        (amendedRecord run.record (amendmentOf sha256 run.record request
          (compileDag request.definition request.settings request.atTime))
          (env.eventTime (run.record.checkpointSeq + 1)))
        (run.record.checkpointSeq + 1) := by
  unfold amendRun at isAccepted ⊢
  dsimp only at isAccepted ⊢
  split_ifs at isAccepted ⊢ with _ leased failed _ isUnsafe running
  · refine ⟨Bool.not_eq_false _ ▸ failed, ?_⟩
    have taken : refusesAmendment env.isAlive run.record (amendmentOf sha256 run.record request
        (compileDag request.definition request.settings request.atTime)) = false := by
      simp only [refusesAmendment, Bool.or_eq_false_iff, Bool.not_eq_eq_eq_not, Bool.not_false,
        List.isEmpty_iff]
      refine ⟨⟨⟨by simp [amendmentOf], ?_⟩, by simpa using running⟩, ?_⟩
      · rw [List.filter_eq_nil_iff]
        intro id isNamed isActive
        have safe := List.filter_eq_nil_iff.mp (not_not.mp isUnsafe) id
        rcases List.mem_append.mp isNamed with isChanged | isRemoved
        · exact safe (List.mem_append_left _ isChanged) isActive
        · refine safe (List.mem_append_right _ ?_) isActive
          exact mem_removedIds identified (Bool.not_eq_false _ ▸ failed) isRemoved
      · by_contra refused
        simp only [Bool.not_eq_false, Bool.and_eq_true, beq_iff_eq] at refused
        exact leased refused
    rw [commitMutation_amendment, taken]
    rfl

/-- A node that was there is put back, or left as it is. -/
theorem amendedNode_affected (identified : WellIdentified run.record)
    (isOld : old ∈ run.record.nodes)
    (isNode : node ∈ (amendmentOf sha256 run.record request compiled).nodes)
    (sameId : node.id = old.id) :
    Affected sha256 run.record request.definition compiled.edges old.id ∧
        (∃ fresh, node = invalidatedNode fresh old) ∨
      ¬ Affected sha256 run.record request.definition compiled.edges old.id ∧ node = old := by
  obtain ⟨fresh, -, rfl⟩ := List.mem_map.mp isNode
  rw [(amendedNode_cases run.record _ fresh).1] at sameId
  rw [amendedNode_of_mem identified isOld sameId]
  split
  · next isInvalidated =>
      exact .inl ⟨(affected_iff identified).mp (List.mem_filter.mp isInvalidated).1, fresh, rfl⟩
  · next isValid =>
      refine .inr ⟨fun affected => isValid (List.mem_filter.mpr
        ⟨(affected_iff identified).mpr affected, ?_⟩), rfl⟩
      simpa using notMem_addedIds identified isOld

/-- Every amendment that is accepted, of every run record that can be reached, puts back
exactly the nodes that depend on what it has changed. -/
theorem amendRun_exact {start : DagStart} (accepted : start.Accepted)
    {labels : List (SchedulerEnv × RecordAction)} {state : AmendedRun}
    (reached : execute (recordStep sha256) (createdAmendedRun sha256 start) labels = some state)
    (env : SchedulerEnv) (isAccepted : (amendRun env sha256 state.run request).2 = none) :
    AmendedExactly sha256 state.run.record request.definition
      (amendRun env sha256 state.run request).1.record := by
  have identified : WellIdentified state.run.record :=
    (invariant_of_unconditional (fun _ _ _ => allIdentified_step)
      (allIdentified_created sha256 accepted) reached).run
  obtain ⟨compiles, amended⟩ := amendRun_taken identified isAccepted
  rw [amended]
  constructor
  · change (amendmentOf sha256 state.run.record request _).nodes.map (·.id) = _
    rw [amendmentIds, compiledIds compiles]
  · intro old isOld node isNode sameId
    rcases amendedNode_affected identified isOld isNode sameId with
      ⟨affected, compiled, rfl⟩ | ⟨unaffected, rfl⟩
    · exact iff_of_true ⟨rfl, rfl⟩ affected
    · refine iff_of_false (fun ⟨_, raised⟩ => ?_) unaffected
      have attempts := congrArg (Option.getD · 0) raised
      simp at attempts
  · intro old isOld node isNode sameId unaffected
    rcases amendedNode_affected identified isOld isNode sameId with
      ⟨affected, -⟩ | ⟨-, isKept⟩
    · exact absurd affected unaffected
    · exact isKept

/-- A new prompt for the completed node is accepted. -/
theorem amendRun_exact_promptChange :
    ∃ state, execute (recordStep lengthDigest) (createdAmendedRun lengthDigest chainStart)
        (pausedChain.map (stillEnv, ·)) = some state ∧
      (amendRun stillEnv lengthDigest state.run promptChange).2 = none ∧
      AmendedExactly lengthDigest state.run.record promptChange.definition
        (amendRun stillEnv lengthDigest state.run promptChange).1.record := by
  obtain ⟨state, reached, isAccepted⟩ :
      ∃ state, execute (recordStep lengthDigest) (createdAmendedRun lengthDigest chainStart)
        (pausedChain.map (stillEnv, ·)) = some state ∧
        (amendRun stillEnv lengthDigest state.run promptChange).2 = none := by
    decide +kernel
  exact ⟨state, reached, isAccepted, amendRun_exact (by decide +kernel) reached stillEnv isAccepted⟩

/-- Whatever is committed, retried and amended, the nodes of a record are those of its
definition, each once. -/
theorem wellIdentified_of_execute {sha256 : List Char → String} {start : DagStart}
    (accepted : start.Accepted) {labels : List (SchedulerEnv × RecordAction)} {state : AmendedRun}
    (reached : execute (recordStep sha256) (createdAmendedRun sha256 start) labels = some state) :
    WellIdentified state.run.record :=
  (invariant_of_unconditional (fun _ _ _ => allIdentified_step)
    (allIdentified_created sha256 accepted) reached).run

/-- An amendment has added the third node. -/
theorem wellIdentified_amendedChain :
    ∃ state, execute (recordStep lengthDigest) (createdAmendedRun lengthDigest chainStart)
        ((pausedChain ++ [RecordAction.amend 0 nodeAddition]).map (stillEnv, ·)) = some state ∧
      state.run.record.nodes.length = 3 ∧ WellIdentified state.run.record := by
  obtain ⟨state, reached, isLength⟩ :
      ∃ state, execute (recordStep lengthDigest) (createdAmendedRun lengthDigest chainStart)
        ((pausedChain ++ [RecordAction.amend 0 nodeAddition]).map (stillEnv, ·)) = some state ∧
        state.run.record.nodes.length = 3 := by
    decide +kernel
  exact ⟨state, reached, isLength, wellIdentified_of_execute (by decide +kernel) reached⟩

end Amendment

end OpenAgent.Dag
