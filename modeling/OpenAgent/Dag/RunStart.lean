import OpenAgent.Dag.GraphAcceptance
import OpenAgent.Dag.JournalExact

/-!
# Starting a run

`startRun` of `dag/manager.ts`: the record of an accepted definition and its
first journal event.  The fingerprint and the materialized prompts are given,
since nothing modelled here looks inside them.
-/

namespace OpenAgent.Dag

open Library

/-- The inputs of `startRun` with what its helpers return. -/
structure DagStart where
  definition : DagDefinition
  settings : DagSettings
  parentSessionId : String
  rootSessionId : String
  runId : DagRunId
  definitionFingerprint : String
  effectivePrompts : DagNodeId → Option String
  materializedDiagnostics : List DagDiagnostic
  /-- The time of the record. -/
  startedAt : String
  /-- The time of `dag.run.created`. -/
  createdAt : String

namespace DagStart

variable (start : DagStart)

/-- The compiled definition. -/
def compiled : DagCompileResult :=
  compileDag start.definition start.settings start.startedAt

/-- Whether the definition is accepted. -/
def Accepted : Prop :=
  start.compiled.ok = true

instance : Decidable start.Accepted :=
  inferInstanceAs (Decidable (_ = _))

/-- The record of a new run. -/
def record : DagRunRecordV1 where
  checkpointSeq := 0
  runId := start.runId
  runKey := start.definition.key
  name := start.definition.name
  parentSessionId := start.parentSessionId
  rootSessionId := start.rootSessionId
  definitionFingerprint := start.definitionFingerprint
  definition :=
    { key := start.definition.key
      name := start.definition.name
      nodes := start.definition.nodes.map fun node =>
        { input := node
          effectivePrompt := (start.effectivePrompts node.id).getD node.prompt } }
  status := .pending
  generation := 1
  createdAt := start.startedAt
  updatedAt := start.startedAt
  startedAt := none
  completedAt := none
  nodes := start.compiled.nodes
  edges := start.compiled.edges
  waves := start.compiled.waves
  criticalPath := start.compiled.criticalPath
  bottlenecks := start.compiled.bottlenecks
  diagnostics := start.compiled.diagnostics ++ start.materializedDiagnostics
  amendHistory := none
  leaseHolderPid := none
  previousLeaseHolderPid := none

/-- The payload of `dag.run.created`. -/
def createdPayload : DagRunEventPayload :=
  .runCreated start.definition.key start.definition.name start.definitionFingerprint
    start.compiled.nodes.length start.compiled.edges.length

/-- The journal that `startRun` opens. -/
def journalOptions : JournalOptions DagRunRecordV1 where
  runId := start.runId
  applyEvent := applyRunEvent fun _ => false
  skipDuplicate := skipDuplicateTerminalTransition
  initialCheckpoint := start.record

/-- The record that `startRun` returns. -/
def created : DagRunRecordV1 :=
  { start.record with checkpointSeq := 1, updatedAt := start.createdAt }

end DagStart

/-- A node of a small definition. -/
def sampleNode (id : String) (dependsOn : List String) : DagNodeInput where
  id := id
  label := none
  prompt := "work on " ++ id
  target := .category "quick"
  dependsOn := some dependsOn
  taskSummary := none
  description := none
  loadSkills := none

/-- The start of a run with the given nodes. -/
def sampleStart (nodes : List DagNodeInput) : DagStart where
  definition := { key := "key", name := "sample", nodes := nodes }
  settings := dagSettingsDefaults
  parentSessionId := "ses_parent"
  rootSessionId := "ses_root"
  runId := "dag_1"
  definitionFingerprint := "fingerprint"
  effectivePrompts := fun _ => none
  materializedDiagnostics := []
  startedAt := "2026-01-01T00:00:00.000Z"
  createdAt := "2026-01-01T00:00:00.001Z"

/-- Two nodes, the second waiting for the first. -/
def chainStart : DagStart :=
  sampleStart [sampleNode "a" [], sampleNode "b" ["a"]]

/-- The journal of a started run, with a crash during its first append. -/
theorem journalExact_chain :
    ∃ final, execute (journalStep chainStart.journalOptions)
        (freshJournal chainStart.journalOptions true)
        [.openJournal, .appendCrash 0 chainStart.createdPayload chainStart.createdAt, .openJournal,
          .append 1 (.runStarted 1) "2026-01-01T00:00:01.000Z", .refresh 1] = some final ∧
      final.disk.wal.length = 2 ∧ JournalExact chainStart.journalOptions final := by
  obtain ⟨final, reached, count⟩ : ∃ final, execute (journalStep chainStart.journalOptions)
        (freshJournal chainStart.journalOptions true)
        [.openJournal, .appendCrash 0 chainStart.createdPayload chainStart.createdAt,
          .openJournal, .append 1 (.runStarted 1) "2026-01-01T00:00:01.000Z",
          .refresh 1] = some final ∧ final.disk.wal.length = 2 :=
    ⟨_, rfl, rfl⟩
  exact ⟨final, reached, count, journalExact_of_execute rfl reached⟩

end OpenAgent.Dag
