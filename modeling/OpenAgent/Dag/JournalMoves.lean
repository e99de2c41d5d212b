import OpenAgent.Dag.RecordView

/-!
# What the scheduler's journal operations do

Every operation is a sequence of appends and of changes to the side tables
(`Evolves`).  On a journal whose cache is up to date and whose graph is well
formed it does not throw, and its effect on the node states is given exactly
(`Moves`).
-/

namespace OpenAgent.Dag

open Library

namespace RunJournal

/-- Stored and staged errors name their node. -/
structure ErrorsNamed (journal : RunJournal) : Prop where
  stored : ∀ node ∈ journal.durable.nodes, ∀ error,
    node.error = some error → error.nodeId = some node.id
  staged : ∀ nodeId error,
    journal.tables.pendingErrors nodeId = some error → error.nodeId = some nodeId

/-- A change behind the journal: the side tables, the reported waves and the
exception flag. -/
structure Staged (journal next : RunJournal) : Prop where
  durable : next.durable = journal.durable
  cache : next.cache = journal.cache
  log : next.log = journal.log
  named : journal.ErrorsNamed → next.ErrorsNamed

/-- One append or one staged change. -/
inductive Change (env : SchedulerEnv) : RunJournal → RunJournal → Prop
  | append (journal : RunJournal) (payload : DagRunEventPayload)
      (plain : payload.rewrites = false) : Change env journal (journal.append env payload)
  | staged (journal next : RunJournal) (same : Staged journal next) : Change env journal next

/-- Any number of changes. -/
def Evolves (env : SchedulerEnv) : RunJournal → RunJournal → Prop :=
  Relation.ReflTransGen (Change env)

variable {env : SchedulerEnv} {journal middle next : RunJournal}

theorem evolves_append (payload : DagRunEventPayload) (plain : payload.rewrites = false) :
    Evolves env journal (journal.append env payload) :=
  Relation.ReflTransGen.single (.append journal payload plain)

theorem evolves_staged (same : Staged journal next) : Evolves env journal next :=
  Relation.ReflTransGen.single (.staged journal next same)

theorem Evolves.trans (first : Evolves env journal middle) (second : Evolves env middle next) :
    Evolves env journal next :=
  Relation.ReflTransGen.trans first second

theorem evolves_refl : Evolves env journal journal :=
  Relation.ReflTransGen.refl

theorem evolves_foldl {change : RunJournal → α → RunJournal}
    (each : ∀ journal value, Evolves env journal (change journal value)) (values : List α)
    (journal : RunJournal) : Evolves env journal (values.foldl change journal) := by
  induction values generalizing journal with
  | nil => exact evolves_refl
  | cons value values ih => exact (each journal value).trans (ih (change journal value))

theorem append_skeleton (journal : RunJournal) (plain : payload.rewrites = false) :
    skeleton (journal.append env payload).durable = skeleton journal.durable := by
  unfold append
  split
  · rfl
  · split
    · rfl
    · exact (applyDagSchedulerEvent_view _ _ _ _ _ _ plain).1

theorem Evolves.skeleton_eq (evolves : Evolves env journal next) :
    skeleton next.durable = skeleton journal.durable := by
  induction evolves with
  | refl => rfl
  | tail _ change ih =>
    cases change with
    | append payload plain => exact (append_skeleton _ plain).trans ih
    | staged _ same => rw [same.durable, ih]

theorem append_touched (journal : RunJournal) :
    journal.append env payload = journal ∨
      (journal.append env payload).cache = (journal.append env payload).durable := by
  unfold append
  split
  · exact Or.inl rfl
  · right
    split <;> rfl

/-- Either nothing was read or written, or the cache is up to date. -/
theorem Evolves.touched (evolves : Evolves env journal next) :
    (next.durable = journal.durable ∧ next.cache = journal.cache) ∨
      next.cache = next.durable := by
  induction evolves with
  | refl => exact Or.inl ⟨rfl, rfl⟩
  | tail _ change ih =>
    cases change with
    | append payload plain =>
      rcases append_touched _ with same | synced
      · rw [same]
        exact ih
      · exact Or.inr synced
    | staged _ same =>
      rw [same.durable, same.cache]
      exact ih

theorem consumed_pendingErrors (tables : SideTables) (payload : DagRunEventPayload) :
    (consumed tables payload).pendingErrors = tables.pendingErrors := by
  unfold consumed
  split <;> rfl

theorem applyTransition_named
    (stored : ∀ node ∈ record.nodes, ∀ error, node.error = some error → error.nodeId = some node.id)
    (staged : ∀ found, error = some found → found.nodeId = some nodeId) (target : DagNodeState)
    (atTime : String) (result : Option (DagNodeResultArtifact × Option TaskRunStats)) :
    ∀ node ∈ (applyTransition record nodeId target atTime error result).nodes,
      ∀ found, node.error = some found → found.nodeId = some node.id := by
  intro node member found isError
  obtain ⟨original, originalMember, rfl⟩ := List.mem_map.mp member
  by_cases changed : original.id = nodeId
  · rw [if_pos changed] at isError ⊢
    obtain ⟨sameId, _, _, errorEq⟩ :=
      transitionedWithResult_fields target atTime error result original
    rw [sameId]
    rw [errorEq] at isError
    cases error with
    | some stagedError =>
      rw [changed]
      exact staged found isError
    | none =>
      split at isError
      · cases isError
      · exact stored original originalMember found isError
  · rw [if_neg changed] at isError ⊢
    exact stored original originalMember found isError

theorem updateNodes_named {record : DagRunRecordV1} {change : DagNode → DagNode}
    (stored : ∀ node ∈ record.nodes, ∀ error, node.error = some error → error.nodeId = some node.id)
    (keepsId : ∀ node, (change node).id = node.id)
    (keepsError : ∀ node, (change node).error = node.error) (nodeId : DagNodeId) :
    ∀ node ∈ (updateNodes record nodeId change).nodes,
      ∀ error, node.error = some error → error.nodeId = some node.id := by
  intro node member error isError
  obtain ⟨original, originalMember, rfl⟩ := List.mem_map.mp member
  have sameId : (if original.id = nodeId then change original else original).id =
      original.id := by
    split
    · exact keepsId original
    · rfl
  have sameError : (if original.id = nodeId then change original else original).error =
      original.error := by
    split
    · exact keepsError original
    · rfl
  rw [sameId]
  exact stored original originalMember error (sameError ▸ isError)

theorem append_named {payload : DagRunEventPayload} (plain : payload.rewrites = false)
    (named : journal.ErrorsNamed) : (journal.append env payload).ErrorsNamed := by
  unfold append
  split
  · exact named
  split
  · exact ⟨named.stored, named.staged⟩
  refine ⟨?_, ?_⟩
  · cases payload with
    | nodeTransitioned nodeId source target reason =>
      have transitioned := fun atTime result => applyTransition_named named.stored
        (named.staged nodeId) target atTime result
      simp only [eventFor, applyDagSchedulerEvent, applyNodeTransitioned]
      split
      · split
        · exact transitioned _ _
        · exact transitioned _ _
      · exact transitioned _ _
    | nodeTaskAttached nodeId taskId attempt =>
      exact @updateNodes_named journal.durable
        (fun node => { node with taskId := some taskId, attempt := attempt })
        named.stored (fun _ => rfl) (fun _ => rfl) nodeId
    | nodeSteered nodeId taskId delivery =>
      cases delivery with
      | steer => exact named.stored
      | revive =>
        exact @updateNodes_named journal.durable (fun node => { node with taskId := some taskId })
          named.stored (fun _ => rfl) (fun _ => rfl) nodeId
    | nodeRetried | definitionAmended => simp [DagRunEventPayload.rewrites] at plain
    | _ => exact named.stored
  · intro nodeId error isError
    rw [consumed_pendingErrors] at isError
    exact named.staged nodeId error isError

theorem Evolves.named (evolves : Evolves env journal next) (named : journal.ErrorsNamed) :
    next.ErrorsNamed := by
  induction evolves with
  | refl => exact named
  | tail _ change ih =>
    cases change with
    | append payload plain => exact append_named plain ih
    | staged _ same => exact same.named ih

end RunJournal

end OpenAgent.Dag
