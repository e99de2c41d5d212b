import OpenAgent.Dag.Types
import OpenAgent.Library.Collections

/-!
# Compiling a definition into a graph

`compileDag` of `dag/graph.ts`: declaration errors, cycle search, nodes,
edges, waves, critical path and bottlenecks.  The memoised recursions of the
source carry a fuel bound equal to the number of nodes, which no chain of
dependencies of an accepted definition exceeds.
-/

namespace OpenAgent.Dag

open Library

/-- `DagCompileErrorCode`. -/
inductive DagCompileErrorCode
  | duplicateNodeId
  | unknownDependency
  | selfDependency
  | cycle
  | nodeCountExceeded
  | promptBytesExceeded
  | dependencyFanoutExceeded
  | emptyGraph

/-- `DagCompileError`. -/
structure DagCompileError where
  code : DagCompileErrorCode
  message : String
  nodeIds : List DagNodeId

/-- The two fields of `DagSettings` that compilation reads. -/
structure DagSettings where
  maxNodesPerRun : Nat
  maxPromptBytes : Nat

/-- `DAG_SETTINGS_DEFAULTS`. -/
def dagSettingsDefaults : DagSettings where
  maxNodesPerRun := 64
  maxPromptBytes := 262144

/-- `DagCompileResult`. -/
structure DagCompileResult where
  ok : Bool
  nodes : List DagNode
  edges : List DagEdge
  waves : List DagWave
  criticalPath : List DagNodeId
  bottlenecks : List DagBottleneck
  diagnostics : List DagDiagnostic
  errors : List DagCompileError

/-- `failure`. -/
def failure (errors : List DagCompileError) (atTime : String) : DagCompileResult where
  ok := false
  nodes := []
  edges := []
  waves := []
  criticalPath := []
  bottlenecks := []
  diagnostics := errors.map fun error =>
    match error.nodeIds with
    | [nodeId] => .nodeFlag nodeId error.message atTime
    | _ => .runFlag error.message atTime
  errors := errors

section

variable (dependencies : DagNodeId → List DagNodeId)

/-- One pass of the peeling loop of `findCycles`: it walks a copy of the set
and deletes every id none of whose dependencies is left in the live set. -/
def peelSweep (remaining : List DagNodeId) : List DagNodeId :=
  remaining.foldl
    (fun live id =>
      if (dependencies id).all (fun dep => !live.contains dep) then live.erase id
      else live)
    remaining

/-- The `while (changed)` loop around `peelSweep`. -/
def peel (dependencies : DagNodeId → List DagNodeId) :
    Nat → List DagNodeId → List DagNodeId
  | 0, remaining => remaining
  | fuel + 1, remaining =>
    let next := peelSweep dependencies remaining
    if next.length == remaining.length then next
    else peel dependencies fuel next

/-- The smallest dependency of `current` that is still in the region. -/
def nextInRegion (remaining : List DagNodeId) (current : DagNodeId) : Option DagNodeId :=
  (stableSort codeUnitLE ((dependencies current).filter remaining.contains)).head?

end

/-- The inner `for (;;)` of `findCycles`: follow the smallest dependency until
a member of the path comes up again. -/
def walkCycle (next : DagNodeId → Option DagNodeId) :
    Nat → List DagNodeId → DagNodeId → Option (List DagNodeId)
  | 0, _, _ => none
  | fuel + 1, path, current =>
    match next current with
    | none => none
    | some dep =>
      if dep ∈ path then some (path.drop (path.idxOf dep))
      else walkCycle next fuel (path ++ [dep]) dep

/-- A cycle in execution order, closed on itself. -/
def closeCycle : List DagNodeId → List DagNodeId
  | [] => []
  | first :: rest => first :: rest.reverse ++ [first]

/-- The outer loop of `findCycles`, with the cycles found so far and the
members they consumed. -/
def collectCycles (dependencies : DagNodeId → List DagNodeId) (remaining : List DagNodeId) :
    List DagNodeId → List DagNodeId → List (List DagNodeId) → List (List DagNodeId)
  | [], _, cycles => cycles
  | start :: starts, consumed, cycles =>
    if start ∈ consumed then
      collectCycles dependencies remaining starts consumed cycles
    else
      match walkCycle (nextInRegion dependencies remaining)
          (remaining.length + 1) [start] start with
      | none => collectCycles dependencies remaining starts consumed cycles
      | some members =>
        collectCycles dependencies remaining starts (consumed ++ members)
          (cycles ++ [closeCycle members])

/-- `findCycles`. -/
def findCycles (ids : List DagNodeId)
    (dependencies : DagNodeId → List DagNodeId) : List (List DagNodeId) :=
  let remaining := peel dependencies (ids.length + 1) (setOf ids)
  collectCycles dependencies remaining (stableSort codeUnitLE remaining) [] []

/-- Ids declared more than once, in the order of their second declaration. -/
def duplicateIds : List DagNodeId → List DagNodeId → List DagNodeId → List DagNodeId
  | [], _, duplicates => duplicates
  | id :: ids, seen, duplicates =>
    if id ∈ seen then duplicateIds ids seen (setInsert duplicates id)
    else duplicateIds ids (seen ++ [id]) duplicates

/-- The errors one dependency of a node raises. -/
def dependencyErrors (ids : List DagNodeId) (input : DagNodeInput)
    (dep : String) : List DagCompileError :=
  if dep = input.id then
    [{ code := .selfDependency
       message := s!"node \"{input.id}\" depends on itself"
       nodeIds := [input.id] }]
  else if dep ∈ ids then []
  else
    [{ code := .unknownDependency
       message := s!"node \"{input.id}\" depends on unknown node \"{dep}\""
       nodeIds := [input.id, dep] }]

/-- The errors one declared node raises. -/
def nodeErrors (settings : DagSettings) (ids : List DagNodeId)
    (input : DagNodeInput) : List DagCompileError :=
  let bytes := input.prompt.utf8ByteSize
  let deps := input.dependsOn.getD []
  (if settings.maxPromptBytes < bytes then
    [{ code := .promptBytesExceeded
       message := s!"node \"{input.id}\" prompt is {bytes} bytes, exceeding max_prompt_bytes {settings.maxPromptBytes}"
       nodeIds := [input.id] }]
   else []) ++
  (if settings.maxNodesPerRun < deps.length then
    [{ code := .dependencyFanoutExceeded
       message := s!"node \"{input.id}\" depends on {deps.length} nodes, exceeding max_nodes_per_run {settings.maxNodesPerRun}"
       nodeIds := [input.id] }]
   else []) ++
  deps.flatMap (dependencyErrors ids input)

variable (definition : DagDefinition)

/-- Every error found before the cycle search. -/
def declarationErrors (settings : DagSettings) : List DagCompileError :=
  let ids := definition.nodes.map (·.id)
  (if definition.nodes.length = 0 then
    [{ code := .emptyGraph
       message := "dag has no nodes; a run needs at least one node"
       nodeIds := [] }]
   else []) ++
  (if settings.maxNodesPerRun < definition.nodes.length then
    [{ code := .nodeCountExceeded
       message := s!"dag has {definition.nodes.length} nodes, exceeding max_nodes_per_run {settings.maxNodesPerRun}"
       nodeIds := [] }]
   else []) ++
  (duplicateIds ids [] []).map (fun duplicate =>
    { code := .duplicateNodeId
      message := s!"duplicate node id \"{duplicate}\""
      nodeIds := [duplicate] }) ++
  definition.nodes.flatMap (nodeErrors settings ids)

/-- The `dependencies` map: known dependencies other than the node itself,
each once.  A map keeps the last value set for a key. -/
def dependenciesOf (id : DagNodeId) : List DagNodeId :=
  match definition.nodes.reverse.find? (·.id == id) with
  | none => []
  | some input =>
    setOf ((input.dependsOn.getD []).filter fun dep =>
      dep != input.id && (definition.nodes.map (·.id)).contains dep)

/-- The cycle errors, searched for only when the declarations are clean. -/
def cycleErrors : List DagCompileError :=
  (findCycles (definition.nodes.map (·.id)) (dependenciesOf definition)).map fun cycle =>
      let joined := " -> ".intercalate cycle
      { code := .cycle
        message := s!"dependency cycle detected: {joined}"
        nodeIds := cycle }

/-- A compiled node before any scheduling. -/
def compiledNode (atTime : String) (input : DagNodeInput) : DagNode where
  id := input.id
  label := input.label
  prompt := input.prompt
  route := input.target
  dependsOn := dependenciesOf definition input.id
  state := .pending
  taskId := none
  attempt := 0
  execAttempt := none
  error := none
  runStats := none
  createdAt := atTime
  startedAt := none
  completedAt := none
  resultArtifact := none

section

variable (ids : List DagNodeId)

/-- Edges ordered by the declaration of their target, then of their
source. -/
def compiledEdges (nodes : List DagNode) : List DagEdge :=
  stableSort
    (fun left right =>
      if ids.idxOf left.target = ids.idxOf right.target then
        decide (ids.idxOf left.source ≤ ids.idxOf right.source)
      else decide (ids.idxOf left.target < ids.idxOf right.target))
    (nodes.flatMap fun node =>
      node.dependsOn.map fun dep => { source := dep, target := node.id })

/-- `resolveDepth`. -/
def resolveDepth (dependencies : DagNodeId → List DagNodeId) :
    Nat → DagNodeId → Nat
  | 0, _ => 0
  | fuel + 1, id =>
    if (dependencies id).isEmpty then 0
    else 1 + ((dependencies id).map (resolveDepth dependencies fuel)).foldl max 0

/-- Nodes grouped by depth, each wave in declaration order. -/
def compiledWaves (dependencies : DagNodeId → List DagNodeId) : List DagWave :=
  let depth := resolveDepth dependencies ids.length
  (stableSort (fun left right => decide (left ≤ right)) (setOf (ids.map depth))).map fun index =>
      { index := index
        nodeIds := stableSort (fun left right =>
            if ids.idxOf left = ids.idxOf right then codeUnitLE left right
            else decide (ids.idxOf left < ids.idxOf right))
          (ids.filter fun id => depth id == index) }

/-- `compareSequences`: whether the first path is strictly preferred, being
longer or, at equal length, smaller in the order of its ids. -/
def preferredPath (candidate best : List DagNodeId) : Bool :=
  if candidate.length = best.length then
    decide (candidate.map codeUnits < best.map codeUnits)
  else decide (best.length < candidate.length)

/-- Keep the better of two paths, an empty one being no path yet. -/
def betterPath (best candidate : List DagNodeId) : List DagNodeId :=
  if best.isEmpty || preferredPath candidate best then candidate else best

variable (edges : List DagEdge)

/-- The targets of the edges leaving a node. -/
def dependentsOf (id : DagNodeId) : List DagNodeId :=
  (edges.filter (·.source == id)).map (·.target)

/-- `resolveLongest`. -/
def resolveLongest (dependents : DagNodeId → List DagNodeId) :
    Nat → DagNodeId → List DagNodeId
  | 0, id => [id]
  | fuel + 1, id =>
    id :: ((stableSort codeUnitLE (dependents id)).map
      (resolveLongest dependents fuel)).foldl betterPath []

/-- The critical path over every starting node. -/
def compiledCriticalPath : List DagNodeId :=
  ((stableSort codeUnitLE ids).map
    (resolveLongest (dependentsOf edges) ids.length)).foldl betterPath []

/-- `resolveDescendants`. -/
def resolveDescendants (dependents : DagNodeId → List DagNodeId) :
    Nat → DagNodeId → List DagNodeId
  | 0, _ => []
  | fuel + 1, id =>
    (dependents id).foldl (fun collected successor =>
        (resolveDescendants dependents fuel successor).foldl setInsert
          (setInsert collected successor))
      []

/-- Nodes by the number of nodes they block, most first. -/
def compiledBottlenecks : List DagBottleneck :=
  stableSort
    (fun left right =>
      if left.blockedCount = right.blockedCount then codeUnitLE left.nodeId right.nodeId
      else decide (right.blockedCount < left.blockedCount))
    (ids.map fun id =>
      { nodeId := id
        blockedCount := (resolveDescendants (dependentsOf edges) ids.length id).length })

end

/-- `compileDag`. -/
def compileDag (settings : DagSettings) (atTime : String) : DagCompileResult :=
  let declared := declarationErrors definition settings
  let errors := if declared.isEmpty then cycleErrors definition else declared
  if errors.isEmpty then
    let ids := definition.nodes.map (·.id)
    let nodes := definition.nodes.map (compiledNode definition atTime)
    let edges := compiledEdges ids nodes
    { ok := true
      nodes := nodes
      edges := edges
      waves := compiledWaves ids (dependenciesOf definition)
      criticalPath := compiledCriticalPath ids edges
      bottlenecks := compiledBottlenecks ids edges
      diagnostics := []
      errors := [] }
  else failure errors atTime

end OpenAgent.Dag
