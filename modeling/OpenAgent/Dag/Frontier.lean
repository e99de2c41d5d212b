import OpenAgent.Dag.JournalSpecs

/-!
# The frontier of a run

The skip cascade, the newly ready nodes of an admission pass and the two ways
in which a run ends, each on a sound journal.
-/

namespace OpenAgent.Dag

open Library

section

variable (record : DagRunRecordV1)

section

variable (nodeId : DagNodeId)

/-- Some dependency ended without completing. -/
def FailedDependency : Prop :=
  ∃ dep ∈ depsOf record nodeId, ∃ state, stateOf record dep = some state ∧
    state.isTerminal = true ∧ state ≠ .completed

/-- Every dependency has completed. -/
def DepsCompleted : Prop :=
  ∀ dep ∈ depsOf record nodeId, stateOf record dep = some .completed

/-- The node waits to be admitted. -/
def Waiting : Prop :=
  ∃ state, stateOf record nodeId = some state ∧ state.isWaiting = true

/-- The node has been admitted and has not settled. -/
def Active : Prop :=
  ∃ state, stateOf record nodeId = some state ∧ state.isActive = true

end

/-- Every node is terminal. -/
def AllTerminal : Prop :=
  ∀ node ∈ record.nodes, node.state.isTerminal = true

end

namespace RunJournal

variable {env : SchedulerEnv} {rank : DagNodeId → Nat} {journal next : RunJournal}
variable {record : DagRunRecordV1}

variable {dependsOn : List DagNodeId}

theorem hasFailedDependency_spec
    (known : ∀ dep ∈ dependsOn, ∃ state, stateOf record dep = some state) :
    ∃ found, hasFailedDependency record dependsOn = some found ∧
      (found = true ↔ ∃ dep ∈ dependsOn, ∃ state, stateOf record dep = some state ∧
        state.isTerminal = true ∧ state ≠ .completed) := by
  unfold hasFailedDependency
  induction dependsOn with
  | nil => exact ⟨false, rfl, by simp⟩
  | cons dep rest ih =>
    obtain ⟨state, isState⟩ := known dep List.mem_cons_self
    obtain ⟨node, _, _, nodeState, lookup⟩ := exists_of_stateOf isState
    obtain ⟨found, isFound, meaning⟩ := ih fun other member =>
      known other (List.mem_cons_of_mem dep member)
    obtain ⟨nodes, isNodes, anyNode⟩ := Option.map_eq_some_iff.mp isFound
    refine ⟨(node.state.isTerminal && node.state != .completed) || found, ?_, ?_⟩
    · rw [List.mapM_cons, lookup, isNodes, ← anyNode]
      rfl
    · rw [Bool.or_eq_true, meaning]
      constructor
      · rintro (here | ⟨other, member, rest⟩)
        · rw [Bool.and_eq_true, bne_iff_ne] at here
          exact ⟨dep, List.mem_cons_self, node.state, nodeState ▸ isState, here⟩
        · exact ⟨other, List.mem_cons_of_mem dep member, rest⟩
      · rintro ⟨other, member, otherState, isOther, terminal, notCompleted⟩
        rcases List.mem_cons.mp member with rfl | later
        · left
          have same : otherState = node.state := by
            rw [isState] at isOther
            exact (Option.some.inj isOther).symm.trans nodeState.symm
          rw [Bool.and_eq_true, bne_iff_ne, ← same]
          exact ⟨terminal, notCompleted⟩
        · exact Or.inr ⟨other, later, otherState, isOther, terminal, notCompleted⟩

theorem evolves_cascadeNode :
    Evolves env progress.1 (cascadeNode env snapshot progress node).1 := by
  unfold cascadeNode
  split
  · exact evolves_refl
  · split
    · exact evolves_staged ⟨rfl, rfl, rfl, fun named => ⟨named.stored, named.staged⟩⟩
    · exact evolves_transition env _ _ _ _
    · exact evolves_refl

theorem evolves_cascadePass (journal : RunJournal) :
    Evolves env journal (journal.cascadePass env).1 := by
  suffices general : ∀ (nodes : List DagNode) (progress : RunJournal × Bool), Evolves env progress.1
        (nodes.foldl (cascadeNode env journal.cache) progress).1 from
    general _ (journal, false)
  intro nodes
  induction nodes with
  | nil => exact fun _ => evolves_refl
  | cons node nodes ih => exact fun progress => (evolves_cascadeNode).trans (ih _)

theorem evolves_cascade (fuel : Nat) (journal : RunJournal) :
    Evolves env journal (cascade env fuel journal) := by
  induction fuel generalizing journal with
  | zero => exact evolves_refl
  | succ fuel ih =>
    have pass := @evolves_cascadePass env journal
    unfold cascade
    simp only
    split
    · exact pass.trans (ih _)
    · exact pass

variable (env) {nodes : List DagNode}

/-- The nodes that a pass over a list of nodes skips. -/
theorem Sound.foldl_cascadeNode (graph : WellFormedGraph snapshot.nodes rank)
    (listed : ∀ node ∈ nodes, node ∈ snapshot.nodes) (sound : Sound rank journal)
    (known : ∀ node ∈ nodes, (stateOf journal.durable node.id).isSome) (changed : Bool) :
    ∃ skips : List DagNodeId,
      (∀ id, id ∈ skips ↔ ∃ node ∈ nodes, node.id = id ∧ node.state.isWaiting = true ∧
        FailedDependency snapshot id) ∧
      Moves env journal (nodes.foldl (cascadeNode env snapshot) (journal, changed)).1
        (moveTo .skipped skips (stateOf journal.durable)) ∧
      (nodes.foldl (cascadeNode env snapshot) (journal, changed)).2 =
        (changed || !skips.isEmpty) := by
  induction nodes generalizing journal changed with
  | nil =>
    refine ⟨[], by simp, ?_, by simp⟩
    exact sound.moves_refl env
  | cons node nodes ih =>
    have member := listed node List.mem_cons_self
    have laterListed := fun other otherMember =>
      listed other (List.mem_cons_of_mem node otherMember)
    have laterKnown := fun other otherMember =>
      known other (List.mem_cons_of_mem node otherMember)
    have deps := depsOf_of_mem graph.nodupIds member
    obtain ⟨found, isFound, meaning⟩ := @hasFailedDependency_spec snapshot node.dependsOn
      fun dep depMember =>
        (graph.dependency (show dep ∈ depsOf snapshot node.id from deps ▸ depMember)).2
    have failedIff : found = true ↔ FailedDependency snapshot node.id := by
      rw [meaning, FailedDependency, deps]
    rw [List.foldl_cons]
    by_cases skipped : node.state.isWaiting = true ∧ found = true
    · have step : cascadeNode env snapshot (journal, changed) node =
          (journal.transition env node.id .skipped .skipped, true) := by
        simp [cascadeNode, sound.thrown, skipped.1, isFound, skipped.2]
      have first := sound.transition_moves env (known node List.mem_cons_self) .skipped .skipped
      obtain ⟨skips, members, moves, flag⟩ := ih laterListed (first.sound sound) (by
          intro other otherMember
          rw [first.states_eq, moveTo_isSome]
          exact laterKnown other otherMember) true
      rw [first.states_eq, moveTo_cons] at moves
      rw [step]
      refine ⟨node.id :: skips, ?_, first.trans moves, by simp [flag]⟩
      intro id
      rw [List.mem_cons, members]
      constructor
      · rintro (rfl | ⟨other, otherMember, rest⟩)
        · exact ⟨node, List.mem_cons_self, rfl, skipped.1, failedIff.mp skipped.2⟩
        · exact ⟨other, List.mem_cons_of_mem node otherMember, rest⟩
      · rintro ⟨other, otherMember, isId, rest⟩
        rcases List.mem_cons.mp otherMember with rfl | later
        · exact Or.inl isId.symm
        · exact Or.inr ⟨other, later, isId, rest⟩
    · have step : cascadeNode env snapshot (journal, changed) node = (journal, changed) := by
        unfold cascadeNode
        rw [isFound]
        by_cases waiting : node.state.isWaiting = true
        · have notFound : found = false := by
            cases found with
            | false => rfl
            | true => exact absurd ⟨waiting, rfl⟩ skipped
          simp [notFound]
        · simp [waiting]
      obtain ⟨skips, members, moves, flag⟩ :=
        ih laterListed sound laterKnown changed
      rw [step]
      refine ⟨skips, ?_, moves, flag⟩
      intro id
      rw [members]
      constructor
      · rintro ⟨other, otherMember, rest⟩
        exact ⟨other, List.mem_cons_of_mem node otherMember, rest⟩
      · rintro ⟨other, otherMember, isId, waiting, failed⟩
        rcases List.mem_cons.mp otherMember with rfl | later
        · rw [← isId, ← failedIff] at failed
          exact absurd ⟨waiting, failed⟩ skipped
        · exact ⟨other, later, isId, waiting, failed⟩

/-- One pass skips exactly the waiting nodes with a failed dependency. -/
theorem Sound.cascadePass_moves (sound : Sound rank journal) :
    ∃ skips : List DagNodeId,
      (∀ id, id ∈ skips ↔ Waiting journal.durable id ∧ FailedDependency journal.durable id) ∧
      Moves env journal (journal.cascadePass env).1
        (moveTo .skipped skips (stateOf journal.durable)) ∧
      (journal.cascadePass env).2 = !skips.isEmpty := by
  unfold cascadePass
  rw [sound.synced]
  obtain ⟨skips, members, moves, flag⟩ := sound.foldl_cascadeNode env sound.graph
    (fun node member => member)
    (fun node member => by rw [stateOf_of_mem sound.graph.nodupIds member]; rfl) false
  refine ⟨skips, ?_, moves, by simpa using flag⟩
  intro id
  rw [members]
  constructor
  · rintro ⟨node, member, rfl, waiting, failed⟩
    exact ⟨⟨node.state, stateOf_of_mem sound.graph.nodupIds member, waiting⟩, failed⟩
  · rintro ⟨⟨state, isState, waiting⟩, failed⟩
    obtain ⟨node, member, isId, nodeState, _⟩ := exists_of_stateOf isState
    exact ⟨node, member, isId, nodeState ▸ waiting, failed⟩

/-- The number of waiting nodes. -/
def waitingCount (record : DagRunRecordV1) : Nat :=
  ((skeleton record).1.map Prod.fst).countP fun id =>
    ((stateOf record id).map (·.isWaiting)).getD false

theorem countP_lt_of_mem {values : List α}
    (implied : ∀ value, strong value = true → weak value = true) (member : value ∈ values)
    (isWeak : weak value = true) (notStrong : strong value = false) :
    values.countP strong < values.countP weak := by
  obtain ⟨before, after, rfl⟩ := List.append_of_mem member
  have beforeLE := List.countP_mono_left (l := before) fun value _ => implied value
  have afterLE := List.countP_mono_left (l := after) fun value _ => implied value
  simp only [List.countP_append, List.countP_cons, isWeak, notStrong]
  simp only [if_true, Bool.false_eq_true, if_false]
  omega

/-- A pass that skips a node leaves fewer waiting nodes. -/
theorem waitingCount_lt (moves : Moves env journal next states)
    (statesEq : states = moveTo .skipped skips (stateOf journal.durable)) {id : DagNodeId}
    (member : id ∈ skips) (waiting : Waiting journal.durable id) :
    waitingCount next.durable < waitingCount journal.durable := by
  obtain ⟨state, isState, isWaiting⟩ := waiting
  unfold waitingCount
  rw [moves.evolves.skeleton_eq, moves.states_eq, statesEq]
  have listed : id ∈ (skeleton journal.durable).1.map Prod.fst :=
    isSome_stateOf_iff.mp (by simp [isState])
  refine countP_lt_of_mem ?_ listed ?_ ?_
  · intro other stillWaiting
    by_cases skipped : other ∈ skips
    · simp only [moveTo, if_pos skipped] at stillWaiting
      cases known : stateOf journal.durable other <;>
        simp [known, DagNodeState.isWaiting] at stillWaiting
    · simpa only [moveTo, if_neg skipped] using stillWaiting
  · simp [isState, isWaiting]
  · simp [moveTo, member, isState, DagNodeState.isWaiting]

/-- Waiting nodes with a failed dependency may be skipped; nothing else
moves. -/
structure SkipsOnly (journal next : RunJournal) : Prop where
  moves : Moves env journal next (stateOf next.durable)
  each : ∀ id, stateOf next.durable id = stateOf journal.durable id ∨
    (Waiting journal.durable id ∧ stateOf next.durable id = some .skipped ∧
      FailedDependency next.durable id)

/-- No waiting node has a failed dependency. -/
def Quiescent (record : DagRunRecordV1) : Prop :=
  ∀ id, Waiting record id → ¬ FailedDependency record id

variable {env}

/-- A failed dependency stays one when terminal states are kept. -/
theorem failedDependency_mono (same : skeleton next.durable = skeleton journal.durable)
    (kept : ∀ id state, stateOf journal.durable id = some state →
      state.isTerminal = true → stateOf next.durable id = some state)
    {id : DagNodeId}
    (failed : FailedDependency journal.durable id) : FailedDependency next.durable id := by
  obtain ⟨dep, member, state, isState, terminal, notCompleted⟩ := failed
  refine ⟨dep, ?_, state, kept dep state isState terminal, terminal, notCompleted⟩
  rw [depsOf_of_skeleton same]
  exact member

theorem terminal_kept_of_skips (waiting : ∀ id ∈ skips, Waiting journal.durable id)
    (statesEq : stateOf next.durable = moveTo .skipped skips (stateOf journal.durable)) :
    ∀ id state, stateOf journal.durable id = some state →
      state.isTerminal = true → stateOf next.durable id = some state := by
  intro id state isState terminal
  rw [statesEq, moveTo_eq_some]
  refine Or.inr ⟨?_, isState⟩
  intro member
  obtain ⟨other, isOther, isWaiting⟩ := waiting id member
  rw [isState] at isOther
  cases isOther
  rw [DagNodeState.not_waiting_of_terminal terminal] at isWaiting
  cases isWaiting

variable (env) in
theorem Sound.cascade_spec (sound : Sound rank journal)
    (enough : waitingCount journal.durable < fuel) :
    SkipsOnly env journal (cascade env fuel journal) ∧
      Quiescent (cascade env fuel journal).durable := by
  induction fuel generalizing journal with
  | zero => omega
  | succ fuel ih =>
    obtain ⟨skips, members, moves, flag⟩ := sound.cascadePass_moves env
    have kept := terminal_kept_of_skips (fun id member => ((members id).mp member).1)
      moves.states_eq
    unfold cascade
    simp only [flag, moves.thrown]
    cases skips with
    | nil =>
      -- the pass changed nothing, so the snapshot it looked at is the result
      have same := moves.states_eq
      have deps := depsOf_of_skeleton moves.evolves.skeleton_eq
      refine ⟨⟨?_, ?_⟩, ?_⟩
      · simpa [same] using moves
      · intro id
        simp [same]
      · intro id waiting failed
        have inSkips : id ∈ ([] : List DagNodeId) := by
          rw [members]
          constructor
          · simpa [Waiting, same] using waiting
          · simpa [FailedDependency, same, deps] using failed
        simp at inSkips
    | cons first rest =>
      have fewer := waitingCount_lt env moves rfl List.mem_cons_self
        ((members first).mp List.mem_cons_self).1
      obtain ⟨after, quiescent⟩ := ih (moves.sound sound) (by omega)
      refine ⟨⟨moves.trans after.moves, ?_⟩, quiescent⟩
      intro id
      have sameSkeleton := after.moves.evolves.skeleton_eq
      have keptLater : ∀ id state, stateOf (journal.cascadePass env).1.durable id = some state →
            state.isTerminal = true →
            stateOf (cascade env fuel (journal.cascadePass env).1).durable id = some state := by
        intro id state isState terminal
        rcases after.each id with same | ⟨⟨other, isOther, isWaiting⟩, _⟩
        · rw [same, isState]
        · rw [isState] at isOther
          cases isOther
          rw [DagNodeState.not_waiting_of_terminal terminal] at isWaiting
          cases isWaiting
      by_cases skipped : id ∈ first :: rest
      · obtain ⟨⟨state, isState, isWaiting⟩, failed⟩ := (members id).mp skipped
        refine Or.inr ⟨⟨state, isState, isWaiting⟩, ?_, ?_⟩
        · apply keptLater id
          · rw [moves.states_eq, moveTo_eq_some]
            exact Or.inl ⟨skipped, by simp [isState], rfl⟩
          · rfl
        · exact failedDependency_mono sameSkeleton keptLater
            (failedDependency_mono moves.evolves.skeleton_eq kept failed)
      · have untouched : stateOf (journal.cascadePass env).1.durable id =
            stateOf journal.durable id := by
          rw [moves.states_eq, moveTo, if_neg skipped]
        rcases after.each id with same | ⟨⟨state, isState, isWaiting⟩, rest⟩
        · exact Or.inl (same.trans untouched)
        · exact Or.inr ⟨⟨state, untouched ▸ isState, isWaiting⟩, rest⟩

variable (env) in
/-- The passes suffice. -/
theorem Sound.applyDependentSkipCascade_spec (sound : Sound rank journal) :
    SkipsOnly env journal (journal.applyDependentSkipCascade env) ∧
      Quiescent (journal.applyDependentSkipCascade env).durable := by
  apply sound.cascade_spec
  rw [sound.synced]
  have bound : waitingCount journal.durable ≤ journal.durable.nodes.length := by
    refine List.countP_le_length.trans ?_
    simp [skeleton]
  omega

theorem allCompleted_of_eq_true (completed : allCompleted record dependsOn = some true) :
    ∀ dep ∈ dependsOn, stateOf record dep = some .completed := by
  induction dependsOn with
  | nil => simp
  | cons dep rest ih =>
    unfold allCompleted at completed
    split at completed
    · cases completed
    · rename_i node found
      split at completed
      · rename_i isCompleted
        intro other member
        rcases List.mem_cons.mp member with rfl | later
        · simp [stateOf, found, isCompleted]
        · exact ih completed other later
      · simp at completed

theorem depsCompleted_of_isRunnable (runnable : isRunnable record nodeId = some true) :
    Waiting record nodeId ∧ DepsCompleted record nodeId := by
  unfold isRunnable at runnable
  split at runnable
  · cases runnable
  · rename_i node found
    split at runnable
    · rename_i waiting
      refine ⟨⟨node.state, by simp [stateOf, found], waiting⟩, ?_⟩
      intro dep member
      apply allCompleted_of_eq_true runnable
      simpa [depsOf, found] using member
    · simp at runnable

/-- The nodes taken up are runnable in the snapshot. -/
theorem isRunnable_of_mem_runnableNodes (taken : runnableNodes record denied nodes = some ids)
    {id : DagNodeId} (member : id ∈ ids) : isRunnable record id = some true ∧ id ∉ denied := by
  induction nodes generalizing ids with
  | nil =>
    cases taken
    simp at member
  | cons node nodes ih =>
    unfold runnableNodes at taken
    split at taken
    · rename_i candidate
      rw [Bool.and_eq_true, Bool.not_eq_true', List.contains_eq_mem,
        decide_eq_false_iff_not] at candidate
      split at taken
      · cases taken
      · rename_i ready isReady
        obtain ⟨rest, restTaken, rfl⟩ := Option.map_eq_some_iff.mp taken
        cases ready with
        | true =>
          rcases List.mem_cons.mp member with rfl | later
          · exact ⟨isReady, candidate.2⟩
          · exact ih restTaken later
        | false => exact ih restTaken member
    · exact ih taken member

theorem allCompleted_spec (known : ∀ dep ∈ dependsOn, ∃ state, stateOf record dep = some state) :
    ∃ completed, allCompleted record dependsOn = some completed ∧
      (completed = true ↔ ∀ dep ∈ dependsOn, stateOf record dep = some .completed) := by
  induction dependsOn with
  | nil => exact ⟨true, rfl, by simp⟩
  | cons dep rest ih =>
    obtain ⟨state, isState⟩ := known dep List.mem_cons_self
    obtain ⟨node, _, _, nodeState, lookup⟩ := exists_of_stateOf isState
    obtain ⟨completed, isCompleted, meaning⟩ := ih fun other member =>
      known other (List.mem_cons_of_mem dep member)
    simp only [allCompleted, lookup]
    by_cases done : node.state = .completed
    · rw [if_pos done]
      refine ⟨completed, isCompleted, ?_⟩
      rw [meaning, List.forall_mem_cons, isState, ← nodeState, done]
      simp
    · rw [List.forall_mem_cons, isState, ← nodeState]
      simp [done]

theorem isRunnable_spec (graph : WellFormedGraph record.nodes rank) (member : node ∈ record.nodes) :
    ∃ ready, isRunnable record node.id = some ready ∧
      (ready = true ↔ node.state.isWaiting = true ∧ DepsCompleted record node.id) := by
  have deps := depsOf_of_mem graph.nodupIds member
  obtain ⟨completed, isCompleted, meaning⟩ := @allCompleted_spec record node.dependsOn
    fun dep depMember =>
      (graph.dependency (show dep ∈ depsOf record node.id from deps ▸ depMember)).2
  unfold isRunnable
  rw [nodeById_of_mem graph.nodupIds member]
  by_cases waiting : node.state.isWaiting = true
  · refine ⟨completed, by simp [waiting, isCompleted], ?_⟩
    rw [meaning, DepsCompleted, deps]
    simp [waiting]
  · exact ⟨false, by simp [waiting], by simp [waiting]⟩

theorem runnableNodes_spec (graph : WellFormedGraph record.nodes rank)
    (listed : ∀ node ∈ nodes, node ∈ record.nodes) :
    ∃ ids, runnableNodes record denied nodes = some ids ∧ ids.Sublist (nodes.map (·.id)) ∧
      ∀ id, id ∈ ids ↔ ∃ node ∈ nodes, node.id = id ∧ node.state.isWaiting = true ∧
        id ∉ denied ∧ DepsCompleted record id := by
  induction nodes with
  | nil => exact ⟨[], rfl, List.Sublist.refl _, by simp⟩
  | cons node nodes ih =>
    obtain ⟨ids, taken, sublist, members⟩ := ih fun other member =>
      listed other (List.mem_cons_of_mem node member)
    obtain ⟨ready, isReady, meaning⟩ :=
      isRunnable_spec graph (listed node List.mem_cons_self)
    have skipHead : (node.state.isWaiting = true ∧ node.id ∉ denied ∧
        DepsCompleted record node.id → False) →
        ∀ id, id ∈ ids ↔ ∃ other ∈ node :: nodes, other.id = id ∧
          other.state.isWaiting = true ∧ id ∉ denied ∧ DepsCompleted record id := by
      intro notHead id
      rw [members]
      constructor
      · rintro ⟨other, member, rest⟩
        exact ⟨other, List.mem_cons_of_mem node member, rest⟩
      · rintro ⟨other, member, rfl, rest⟩
        rcases List.mem_cons.mp member with rfl | later
        · exact absurd rest notHead
        · exact ⟨other, later, rfl, rest⟩
    unfold runnableNodes
    by_cases candidate : node.state.isWaiting = true ∧ node.id ∉ denied
    · rw [if_pos (by simp [candidate.1, candidate.2]), isReady, taken]
      cases ready with
      | true =>
        refine ⟨node.id :: ids, rfl, sublist.cons_cons node.id, ?_⟩
        intro id
        rw [List.mem_cons, members]
        constructor
        · rintro (rfl | ⟨other, member, rest⟩)
          · exact ⟨node, List.mem_cons_self, rfl, candidate.1, candidate.2, (meaning.mp rfl).2⟩
          · exact ⟨other, List.mem_cons_of_mem node member, rest⟩
        · rintro ⟨other, member, rfl, rest⟩
          rcases List.mem_cons.mp member with rfl | later
          · exact Or.inl rfl
          · exact Or.inr ⟨other, later, rfl, rest⟩
      | false =>
        refine ⟨ids, rfl, sublist.cons node.id, skipHead ?_⟩
        rintro ⟨waiting, _, completed⟩
        have isTrue := meaning.mpr ⟨waiting, completed⟩
        cases isTrue
    · rw [if_neg (by simpa using candidate)]
      refine ⟨ids, taken, sublist.cons node.id, skipHead ?_⟩
      rintro ⟨waiting, fresh, _⟩
      exact candidate ⟨waiting, fresh⟩

/-- The newly ready nodes of a sound journal. -/
theorem Sound.runnableNodes_eq (sound : Sound rank journal) (denied : List DagNodeId) :
    ∃ ids, runnableNodes journal.cache denied journal.cache.nodes = some ids ∧ ids.Nodup ∧
      ∀ id, id ∈ ids ↔ Waiting journal.durable id ∧ id ∉ denied ∧
        DepsCompleted journal.durable id := by
  rw [sound.synced]
  obtain ⟨ids, taken, sublist, members⟩ :=
    runnableNodes_spec sound.graph fun node member => member
  refine ⟨ids, taken, sublist.nodup sound.graph.nodupIds, ?_⟩
  intro id
  rw [members]
  constructor
  · rintro ⟨node, member, rfl, waiting, rest⟩
    exact ⟨⟨node.state, stateOf_of_mem sound.graph.nodupIds member, waiting⟩, rest⟩
  · rintro ⟨⟨state, isState, waiting⟩, rest⟩
    obtain ⟨node, member, isId, nodeState, _⟩ := exists_of_stateOf isState
    exact ⟨node, member, isId, nodeState ▸ waiting, rest⟩

/-- A quiescent run with no active node and nothing runnable is over. -/
theorem allTerminal_of_quiescent (graph : WellFormedGraph record.nodes rank)
    (quiescent : Quiescent record) (idle : ∀ id, ¬ Active record id)
    (nothingReady : ∀ id, Waiting record id → ¬ DepsCompleted record id) : AllTerminal record := by
  have notWaiting : ∀ bound id, rank id < bound → ¬ Waiting record id := by
    intro bound
    induction bound with
    | zero => omega
    | succ bound ih =>
      intro id below waiting
      apply nothingReady id waiting
      intro dep depMember
      obtain ⟨smaller, state, isState⟩ := graph.dependency depMember
      rcases state.terminal_or_waiting_or_active with terminal | isWaiting | active
      · by_cases completed : state = .completed
        · rw [isState, completed]
        · exact absurd ⟨dep, depMember, state, isState, terminal, completed⟩ (quiescent id waiting)
      · exact absurd ⟨state, isState, isWaiting⟩ (ih dep (by omega))
      · exact absurd ⟨state, isState, active⟩ (idle dep)
  intro node member
  have isState := stateOf_of_mem graph.nodupIds member
  rcases node.state.terminal_or_waiting_or_active with terminal | waiting | active
  · exact terminal
  · exact absurd ⟨node.state, isState, waiting⟩ (notWaiting (rank node.id + 1) node.id (by omega))
  · exact absurd ⟨node.state, isState, active⟩ (idle node.id)

end RunJournal

end OpenAgent.Dag
