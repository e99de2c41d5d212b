import OpenAgent.Dag.Graph
import Mathlib.Data.List.Perm.Subperm
import Mathlib.Tactic.Linarith

/-!
# What acceptance by `compileDag` guarantees

An accepted definition has at least one node, unique ids and known
dependencies, and its dependency relation admits a rank: the peeling loop of
`findCycles` removes nodes in an order that ranks them, and a nonempty
remainder always yields a reported cycle.
-/

namespace OpenAgent.Dag

open Library

section

variable (dependencies : DagNodeId → List DagNodeId)

/-- A rank that strictly decreases along dependencies inside a region. -/
def Rankable (region : List DagNodeId) : Prop :=
  ∃ rank : DagNodeId → Nat, ∀ id ∈ region, ∀ dep ∈ dependencies id,
    dep ∈ region → rank dep < rank id

theorem rankable_nil : Rankable dependencies [] :=
  ⟨fun _ => 0, by simp⟩

end

variable {region : List DagNodeId}

/-- Putting back an id without dependencies in the region keeps it rankable:
the id takes the least rank. -/
theorem rankable_of_erase {removed} (independent : ∀ dep ∈ dependencies removed, dep ∉ region)
    (rankable : Rankable dependencies (region.erase removed)) : Rankable dependencies region := by
  obtain ⟨rank, decreasing⟩ := rankable
  refine ⟨fun id => if id = removed then 0 else rank id + 1, ?_⟩
  intro id member dep depMember depInRegion
  by_cases isRemoved : id = removed
  · subst isRemoved
    exact absurd depInRegion (independent dep depMember)
  · by_cases depRemoved : dep = removed
    · simp [isRemoved, depRemoved]
    · have below := decreasing id ((List.mem_erase_of_ne isRemoved).mpr member)
        dep depMember ((List.mem_erase_of_ne depRemoved).mpr depInRegion)
      simp only [if_neg isRemoved, if_neg depRemoved]
      omega

section

variable (dependencies : DagNodeId → List DagNodeId)

/-- The body of the peeling loop. -/
def peelOne (live : List DagNodeId) (id : DagNodeId) : List DagNodeId :=
  if (dependencies id).all (fun dep => !live.contains dep) then live.erase id
  else live

theorem peelSweep_eq (remaining : List DagNodeId) :
    peelSweep dependencies remaining =
      remaining.foldl (peelOne dependencies) remaining := rfl

end

private theorem rankable_of_peelOne {id : DagNodeId}
    (rankable : Rankable dependencies (peelOne dependencies live id)) :
    Rankable dependencies live := by
  unfold peelOne at rankable
  by_cases ready : (dependencies id).all (fun dep => !live.contains dep) = true
  · rw [if_pos ready] at rankable
    apply rankable_of_erase _ rankable
    simpa using ready
  · rw [if_neg ready] at rankable
    exact rankable

private theorem rankable_of_foldl_peelOne {ids : List DagNodeId}
    (rankable : Rankable dependencies (ids.foldl (peelOne dependencies) live)) :
    Rankable dependencies live := by
  induction ids generalizing live with
  | nil => exact rankable
  | cons id ids ih => exact rankable_of_peelOne (ih rankable)

theorem rankable_of_peel (rankable : Rankable dependencies (peel dependencies fuel remaining)) :
    Rankable dependencies remaining := by
  induction fuel generalizing remaining with
  | zero => exact rankable
  | succ fuel ih =>
    simp only [peel] at rankable
    split at rankable
    · exact rankable_of_foldl_peelOne rankable
    · exact rankable_of_foldl_peelOne (ih rankable)

section

variable (dependencies : DagNodeId → List DagNodeId)

/-- Every id of the region has a dependency inside it. -/
def Closed (region : List DagNodeId) : Prop :=
  ∀ id ∈ region, ∃ dep ∈ dependencies id, dep ∈ region

theorem peelOne_sublist (live : List DagNodeId) (id : DagNodeId) :
    List.Sublist (peelOne dependencies live id) live := by
  unfold peelOne
  split
  · exact List.erase_sublist
  · exact List.Sublist.refl live

theorem foldl_peelOne_sublist (ids live : List DagNodeId) :
    List.Sublist (ids.foldl (peelOne dependencies) live) live := by
  induction ids generalizing live with
  | nil => exact List.Sublist.refl live
  | cons id ids ih =>
    exact (ih (peelOne dependencies live id)).trans (peelOne_sublist dependencies live id)

end

/-- A sweep that removes nothing has found a dependency in the region for
every id it visited. -/
private theorem blocked_of_foldl_length {ids : List DagNodeId} (visited : ∀ id ∈ ids, id ∈ live)
    (unchanged : (ids.foldl (peelOne dependencies) live).length = live.length) :
    ∀ id ∈ ids, ∃ dep ∈ dependencies id, dep ∈ live := by
  induction ids with
  | nil => simp
  | cons id ids ih =>
    have kept : peelOne dependencies live id = live := by
      have outer := (foldl_peelOne_sublist dependencies ids
        (peelOne dependencies live id)).length_le
      have inner := peelOne_sublist dependencies live id
      rw [List.foldl_cons] at unchanged
      exact inner.eq_of_length_le (by omega)
    have blocked : ¬(dependencies id).all (fun dep => !live.contains dep) = true := by
      intro ready
      unfold peelOne at kept
      rw [if_pos ready] at kept
      have shorter := List.length_erase_of_mem (visited id List.mem_cons_self)
      have positive := List.length_pos_of_mem (visited id List.mem_cons_self)
      rw [kept] at shorter
      omega
    rw [List.foldl_cons, kept] at unchanged
    intro other otherMember
    rcases List.mem_cons.mp otherMember with equal | later
    · subst other
      simpa using blocked
    · exact ih (fun each member => visited each (List.mem_cons_of_mem _ member))
        unchanged other later

theorem closed_peel (enough : remaining.length < fuel) :
    Closed dependencies (peel dependencies fuel remaining) := by
  induction fuel generalizing remaining with
  | zero => omega
  | succ fuel ih =>
    have shrinks := foldl_peelOne_sublist dependencies remaining remaining
    simp only [peel]
    split
    · rename_i unchanged
      rw [beq_iff_eq] at unchanged
      have same : peelSweep dependencies remaining = remaining :=
        shrinks.eq_of_length_le unchanged.ge
      rw [same]
      exact blocked_of_foldl_length (fun _ member => member) unchanged
    · rename_i changed
      apply ih
      have shorter := shrinks.length_le
      rw [beq_iff_eq, peelSweep_eq] at changed
      rw [peelSweep_eq]
      omega

theorem exists_nextInRegion (closed : Closed dependencies region) (member : current ∈ region) :
    ∃ dep ∈ region, nextInRegion dependencies region current = some dep := by
  obtain ⟨dep, depMember, depInRegion⟩ := closed current member
  let candidates := stableSort codeUnitLE ((dependencies current).filter region.contains)
  have present : dep ∈ candidates := by
    simp [candidates, depMember, depInRegion]
  obtain ⟨first, rest, shape⟩ := List.exists_cons_of_ne_nil (List.ne_nil_of_mem present)
  have firstMember : first ∈ candidates := by
    rw [shape]
    exact List.mem_cons_self
  refine ⟨first, ?_, ?_⟩
  · have filtered := mem_stableSort.mp firstMember
    simpa using (List.mem_filter.mp filtered).2
  · change candidates.head? = some first
    rw [shape]
    rfl

/-- The walk cannot leave a closed region, so it meets its own path before
the fuel runs out. -/
theorem exists_walkCycle (stays : ∀ id ∈ region, ∃ dep ∈ region, next id = some dep) (fuel : Nat)
    (pathNodup : path.Nodup) (pathInRegion : ∀ id ∈ path, id ∈ region)
    (currentMember : current ∈ region) (enough : region.length < fuel + path.length) :
    ∃ members, walkCycle next fuel path current = some members := by
  induction fuel generalizing path current with
  | zero =>
    have bounded := (List.subperm_of_subset pathNodup pathInRegion).length_le
    omega
  | succ fuel ih =>
    obtain ⟨dep, depMember, nextEq⟩ := stays current currentMember
    simp only [walkCycle, nextEq]
    by_cases seen : dep ∈ path
    · exact ⟨_, if_pos seen⟩
    · rw [if_neg seen]
      apply ih
      · exact nodup_append_singleton pathNodup seen
      · exact forall_mem_concat pathInRegion depMember
      · exact depMember
      · rw [List.length_append, List.length_singleton]
        omega

theorem collectCycles_ne_nil (dependencies : DagNodeId → List DagNodeId) (consumed : List DagNodeId)
    (found : cycles ≠ []) : collectCycles dependencies remaining starts consumed cycles ≠ [] := by
  induction starts generalizing consumed cycles with
  | nil => exact found
  | cons start starts ih =>
    simp only [collectCycles]
    split
    · exact ih consumed found
    · split
      · exact ih consumed found
      · exact ih _ (by simp)

theorem eq_nil_of_collectCycles_eq_nil (closed : Closed dependencies region)
    (noCycle : collectCycles dependencies region (stableSort codeUnitLE region) [] [] = []) :
    region = [] := by
  by_contra nonempty
  have sortedNonempty : stableSort codeUnitLE region ≠ [] := by
    obtain ⟨first, rest, shape⟩ := List.exists_cons_of_ne_nil nonempty
    have present : first ∈ stableSort codeUnitLE region := by
      rw [mem_stableSort, shape]
      exact List.mem_cons_self
    exact List.ne_nil_of_mem present
  obtain ⟨start, starts, shape⟩ := List.exists_cons_of_ne_nil sortedNonempty
  have startMember : start ∈ region := by
    rw [← mem_stableSort, shape]
    exact List.mem_cons_self
  obtain ⟨members, walked⟩ := exists_walkCycle
    (fun id member => exists_nextInRegion closed member)
    (region.length + 1)
    (List.nodup_singleton start)
    (fun id member => (List.mem_singleton.mp member) ▸ startMember)
    startMember
    (by omega)
  rw [shape] at noCycle
  simp only [collectCycles, walked] at noCycle
  exact collectCycles_ne_nil _ _ (by simp) noCycle

theorem rankable_of_findCycles_eq_nil (noCycle : findCycles ids dependencies = []) :
    Rankable dependencies ids := by
  have bounded : (setOf ids).length < ids.length + 1 := by
    have subperm := List.subperm_of_subset (nodup_setOf ids) (fun _ member => mem_setOf.mp member)
    have := subperm.length_le
    omega
  have peeled : peel dependencies (ids.length + 1) (setOf ids) = [] :=
    eq_nil_of_collectCycles_eq_nil (closed_peel bounded) noCycle
  have rankable : Rankable dependencies (setOf ids) := by
    apply rankable_of_peel
    rw [peeled]
    exact rankable_nil dependencies
  obtain ⟨rank, decreasing⟩ := rankable
  refine ⟨rank, fun id member dep depMember depInIds => ?_⟩
  exact decreasing id (mem_setOf.mpr member) dep depMember (mem_setOf.mpr depInIds)

/-- The dependency structure of a compiled node list: unique ids, and a rank
that decreases from every node to each of its known dependencies. -/
structure WellFormedGraph (nodes : List DagNode) (rank : DagNodeId → Nat) : Prop where
  nodupIds : (nodes.map (·.id)).Nodup
  known : ∀ node ∈ nodes, ∀ dep ∈ node.dependsOn, ∃ other ∈ nodes, other.id = dep
  decreasing : ∀ node ∈ nodes, ∀ dep ∈ node.dependsOn, rank dep < rank node.id

private theorem duplicateIds_grows (seen duplicates : List DagNodeId) {id : DagNodeId}
    (member : id ∈ duplicates) : id ∈ duplicateIds ids seen duplicates := by
  induction ids generalizing seen duplicates with
  | nil => exact member
  | cons head ids ih =>
    simp only [duplicateIds]
    split
    · exact ih _ _ (mem_setInsert.mpr (Or.inl member))
    · exact ih _ _ member

theorem duplicateIds_eq_nil_iff (seenNodup : seen.Nodup) :
    duplicateIds ids seen [] = [] ↔ (seen ++ ids).Nodup := by
  induction ids generalizing seen with
  | nil => simpa [duplicateIds] using seenNodup
  | cons head ids ih =>
    simp only [duplicateIds]
    split
    · rename_i present
      constructor
      · intro none
        have reported : head ∈ duplicateIds ids seen (setInsert [] head) :=
          duplicateIds_grows seen (setInsert [] head) (mem_setInsert.mpr (Or.inr rfl))
        rw [none] at reported
        exact absurd reported List.not_mem_nil
      · intro unique
        exact absurd rfl ((List.nodup_append.mp unique).2.2 head present head List.mem_cons_self)
    · rename_i fresh
      simpa using ih (nodup_append_singleton seenNodup fresh)

theorem compileDag_ok_iff : (compileDag definition settings atTime).ok = true ↔
      declarationErrors definition settings = [] ∧ cycleErrors definition = [] := by
  unfold compileDag
  by_cases declared : declarationErrors definition settings = []
  · by_cases cyclic : cycleErrors definition = [] <;>
      simp [declared, cyclic, failure]
  · simp [declared, failure]

theorem compileDag_nodes (accepted : (compileDag definition settings atTime).ok = true) :
    (compileDag definition settings atTime).nodes =
      definition.nodes.map (compiledNode definition atTime) := by
  obtain ⟨declared, acyclic⟩ := compileDag_ok_iff.mp accepted
  simp [compileDag, declared, acyclic]

private theorem declared_clean (declared : declarationErrors definition settings = []) :
    definition.nodes ≠ [] ∧ (definition.nodes.map (·.id)).Nodup := by
  unfold declarationErrors at declared
  simp only [List.append_eq_nil_iff] at declared
  obtain ⟨⟨⟨nonempty, _⟩, unique⟩, _⟩ := declared
  constructor
  · intro empty
    simp [empty] at nonempty
  · simpa using (duplicateIds_eq_nil_iff List.nodup_nil).mp (List.map_eq_nil_iff.mp unique)

theorem dependenciesOf_known {id : DagNodeId} (member : dep ∈ dependenciesOf definition id) :
    dep ∈ definition.nodes.map (·.id) := by
  unfold dependenciesOf at member
  split at member
  · simp at member
  · rw [mem_setOf, List.mem_filter] at member
    have kept := member.2
    rw [Bool.and_eq_true] at kept
    exact List.contains_iff_mem.mp kept.2

variable (accepted : (compileDag definition settings atTime).ok = true)
include accepted

/-- The graph of an accepted definition. -/
theorem wellFormedGraph_of_accepted :
    ∃ rank, WellFormedGraph (compileDag definition settings atTime).nodes rank := by
  obtain ⟨declared, acyclic⟩ := compileDag_ok_iff.mp accepted
  have noCycle := List.map_eq_nil_iff.mp acyclic
  obtain ⟨rank, decreasing⟩ := rankable_of_findCycles_eq_nil noCycle
  have ids : (definition.nodes.map (compiledNode definition atTime)).map (·.id) =
      definition.nodes.map (·.id) := by
    rw [List.map_map]
    rfl
  rw [compileDag_nodes accepted]
  refine ⟨rank, ?_, ?_, ?_⟩
  · rw [ids]
    exact (declared_clean declared).2
  · intro node member dep depMember
    obtain ⟨input, _, rfl⟩ := List.mem_map.mp member
    obtain ⟨other, otherMember, otherId⟩ :=
      List.mem_map.mp (dependenciesOf_known depMember)
    exact ⟨compiledNode definition atTime other, List.mem_map_of_mem otherMember, otherId⟩
  · intro node member dep depMember
    obtain ⟨input, inputMember, rfl⟩ := List.mem_map.mp member
    exact decreasing input.id (List.mem_map_of_mem inputMember) dep depMember
      (dependenciesOf_known depMember)

/-- Every compiled node starts out pending. -/
theorem compileDag_nodes_pending :
    ∀ node ∈ (compileDag definition settings atTime).nodes, node.state = .pending := by
  rw [compileDag_nodes accepted]
  intro node member
  obtain ⟨input, _, rfl⟩ := List.mem_map.mp member
  rfl

end OpenAgent.Dag
