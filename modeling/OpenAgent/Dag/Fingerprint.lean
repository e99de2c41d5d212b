import OpenAgent.Dag.Types
import OpenAgent.Library.JsonNumber
import OpenAgent.Library.JsonRoundTrip
import OpenAgent.Library.WellFormedText

/-!
# Fingerprints

`dag/fingerprint.ts`: the canonical text of a value, the fingerprints of nodes,
definitions and owners, and the comparison of two definitions.  The hash is a
parameter; the canonical text has no unpaired surrogates, so it is a list of
characters.
-/

namespace OpenAgent.Dag

open Library

/-- The order of `Object.keys(record).sort()`. -/
def keyLE (left right : List UInt16 × Json) : Bool :=
  decide (left.1.map UInt16.toNat ≤ right.1.map UInt16.toNat)

mutual

/-- The value with the members of its objects in the order of their keys. -/
def sortKeys : Json → Json
  | .null => .null
  | .bool value => .bool value
  | .number literal => .number literal
  | .string units => .string units
  | .array items => .array (sortItems items)
  | .object members => .object (stableSort keyLE (sortMembers members))

def sortItems : List Json → List Json
  | [] => []
  | item :: items => sortKeys item :: sortItems items

def sortMembers : List (List UInt16 × Json) → List (List UInt16 × Json)
  | [] => []
  | (key, value) :: members => (key, sortKeys value) :: sortMembers members

end

/-- `canonicalize`. -/
def canonicalize (value : Json) : List Char :=
  stringify (sortKeys value)

section

variable (sha256 : List Char → String)

/-- `dagFingerprint`. -/
def dagFingerprint (value : Json) : String :=
  sha256 (canonicalize value)

def textValue (value : String) : Json :=
  .string (unitsOf value)

/-- A member that may be undefined. -/
def optionalText (key : String) (value : Option String) : List (List UInt16 × Json) :=
  (value.map fun text => (unitsOf key, textValue text)).toList

def routeValue : DagRoute → Json
  | .category category =>
    .object [(unitsOf "kind", textValue "category"), (unitsOf "category", textValue category)]
  | .agent agent model =>
    .object ([(unitsOf "kind", textValue "agent"), (unitsOf "agent", textValue agent)] ++
      optionalText "model" model)

/-- `nodeFingerprintInput(nodeFingerprintFromInput(node))`. -/
def nodeFingerprintInput (node : DagNodeInput) : Json :=
  .object
    ([(unitsOf "nodeId", textValue node.id), (unitsOf "label", textValue (node.label.getD node.id)),
      (unitsOf "dependsOn",
      .array ((stableSort codeUnitLE (node.dependsOn.getD [])).map textValue)),
      (unitsOf "prompt", textValue node.prompt), (unitsOf "route", routeValue node.target)] ++
      optionalText "taskSummary" node.taskSummary ++
      optionalText "description" node.description ++
      [(unitsOf "childName", textValue node.id)])

/-- `SCHEDULER_FINGERPRINT_INPUT`. -/
def schedulerFingerprintInput : Json :=
  .object
    [(unitsOf "waveAdmission", textValue "dependency-frontier"),
      (unitsOf "failurePolicy", textValue "continue-independent"),
      (unitsOf "dependencyData", textValue "filesystem-only")]

/-- The value that `dagDefinitionFingerprint` hashes. -/
def definitionFingerprintInput (definition : DagDefinition) : Json :=
  let nodes := stableSort (fun left right => codeUnitLE left.id right.id) definition.nodes
  .object
    [(unitsOf "name", textValue definition.name), (unitsOf "scheduler", schedulerFingerprintInput),
      (unitsOf "nodes", .array (nodes.map nodeFingerprintInput))]

/-- `fingerprintDefinition`. -/
def fingerprintDefinition (definition : DagDefinition) : String :=
  dagFingerprint sha256 (definitionFingerprintInput definition)

/-- The result of `diffNodeFingerprints` that its callers read. -/
structure NodeFingerprintDiff where
  changedIds : List DagNodeId
  addedIds : List DagNodeId
  removedIds : List DagNodeId

/-- The fingerprint a map of nodes holds for an id. -/
def fingerprintOf (nodes : List DagNodeInput) (id : DagNodeId) : Option String :=
  (nodes.reverse.find? (·.id == id)).map fun node =>
    dagFingerprint sha256 (nodeFingerprintInput node)

/-- `diffNodeFingerprints`. -/
def diffNodeFingerprints (oldNodes newNodes : List DagNodeInput) : NodeFingerprintDiff where
  changedIds := (newNodes.filter fun node =>
    match fingerprintOf sha256 oldNodes node.id with
    | none => false
    | some fingerprint =>
      fingerprint != dagFingerprint sha256 (nodeFingerprintInput node)).map (·.id)
  addedIds := (newNodes.filter fun node =>
    (fingerprintOf sha256 oldNodes node.id).isNone).map (·.id)
  removedIds := (oldNodes.filter fun node =>
    (fingerprintOf sha256 newNodes node.id).isNone).map (·.id)

/-- `ownerFingerprintInput`. -/
def ownerFingerprintInput (definitionFingerprint : String) (nodeId : DagNodeId)
    (execAttempt : Option Nat) : Json :=
  match execAttempt with
  | some (attempt + 1) =>
    .object [(unitsOf "definitionFingerprint", textValue definitionFingerprint),
        (unitsOf "nodeId", textValue nodeId),
        (unitsOf "execAttempt", .number (naturalLiteral (attempt + 1)))]
  | _ =>
    .object [(unitsOf "definitionFingerprint", textValue definitionFingerprint),
        (unitsOf "nodeId", textValue nodeId)]

/-- The fingerprint of the owner of a node's next task. -/
def ownerFingerprint (record : DagRunRecordV1) (node : DagNode) : String :=
  dagFingerprint sha256
    (ownerFingerprintInput record.definitionFingerprint node.id node.execAttempt)

end

theorem canonicalize_injective (same : canonicalize left = canonicalize right) :
    sortKeys left = sortKeys right := by
  have parsed := congrArg parseJson same
  unfold canonicalize at parsed
  rw [parseJson_stringify, parseJson_stringify] at parsed
  exact Option.some.inj parsed

/-- The sorted members of an owner. -/
theorem sortKeys_ownerFingerprintInput :
    sortKeys (ownerFingerprintInput definitionFingerprint nodeId execAttempt) = .object
        ((unitsOf "definitionFingerprint", textValue definitionFingerprint) ::
          (match execAttempt with
            | some (attempt + 1) =>
              [(unitsOf "execAttempt", .number (naturalLiteral (attempt + 1)))]
            | _ => []) ++
          [(unitsOf "nodeId", textValue nodeId)]) := by
  match execAttempt with
  | none | some 0 | some (attempt + 1) => rfl

/-- Owners with one fingerprint have one attempt. -/
theorem execAttempt_of_ownerFingerprint (injective : Function.Injective sha256)
    (same : dagFingerprint sha256 (ownerFingerprintInput firstDefinition firstId firstAttempt) =
        dagFingerprint sha256 (ownerFingerprintInput secondDefinition secondId secondAttempt)) :
    firstAttempt.getD 0 = secondAttempt.getD 0 := by
  have sorted := canonicalize_injective (injective same)
  rw [sortKeys_ownerFingerprintInput, sortKeys_ownerFingerprintInput, Json.object.injEq,
    List.cons_append, List.cons_append, List.cons.injEq] at sorted
  have rest := sorted.2
  match firstAttempt, secondAttempt with
  | none, none | none, some 0 | some 0, none | some 0, some 0 => rfl
  | some (first + 1), some (second + 1) =>
    have literals : naturalLiteral (first + 1) = naturalLiteral (second + 1) := by
      simpa using congrArg List.head? rest
    have values := congrArg NumberLiteral.value literals
    rw [value_naturalLiteral, value_naturalLiteral] at values
    exact_mod_cast values
  | some (first + 1), none | some (first + 1), some 0 => simp at rest
  | none, some (second + 1) | some 0, some (second + 1) => simp at rest

/-! ## The fields of a node -/

theorem textValue_inj : textValue first = textValue second ↔ first = second := by
  refine ⟨fun same => ?_, congrArg textValue⟩
  have units : ∀ text, unitsOf text = textOfChars text.toList := fun text =>
    (List.map_flatMap ..).symm
  have chars := congrArg charsOf (Json.string.inj same)
  rw [units, units, charsOf_textOfChars, charsOf_textOfChars] at chars
  exact String.toList_inj.mp chars

theorem optionalText_inj : optionalText key first = optionalText key second ↔ first = second := by
  cases first <;> cases second <;> simp [optionalText, textValue_inj]

/-- A member that may be undefined, in front of one with another key. -/
theorem optionalText_append_inj (differs : unitsOf key ≠ next) :
    optionalText key first ++ (next, value) :: rest = optionalText key second ++ (next, other) :: tail ↔
      first = second ∧ value = other ∧ rest = tail := by
  cases first <;> cases second <;> simp [optionalText, textValue_inj, differs, differs.symm]

theorem sortKeys_routeValue (route : DagRoute) : sortKeys (routeValue route) = .object
    (match route with
      | .category category =>
        [(unitsOf "category", textValue category), (unitsOf "kind", textValue "category")]
      | .agent agent model =>
        (unitsOf "agent", textValue agent) :: (unitsOf "kind", textValue "agent") ::
          optionalText "model" model) := by
  match route with
  | .category _ | .agent _ none | .agent _ (some _) => rfl

theorem sortKeys_routeValue_inj :
    sortKeys (routeValue first) = sortKeys (routeValue second) ↔ first = second := by
  have differs : unitsOf "category" ≠ unitsOf "agent" := by decide
  rw [sortKeys_routeValue, sortKeys_routeValue]
  cases first <;> cases second <;> simp [textValue_inj, optionalText_inj, differs, differs.symm]

theorem sortItems_textValue (values : List String) :
    sortItems (values.map textValue) = values.map textValue := by
  induction values with
  | nil => rfl
  | cons value values ih => exact congrArg (textValue value :: ·) ih

/-- The sorted members of a node. -/
theorem sortKeys_nodeFingerprintInput (node : DagNodeInput) :
    sortKeys (nodeFingerprintInput node) = .object
      ((unitsOf "childName", textValue node.id) ::
        (unitsOf "dependsOn", .array
          ((stableSort codeUnitLE (node.dependsOn.getD [])).map textValue)) ::
        (optionalText "description" node.description ++
          (unitsOf "label", textValue (node.label.getD node.id)) ::
          (unitsOf "nodeId", textValue node.id) :: (unitsOf "prompt", textValue node.prompt) ::
          (unitsOf "route", sortKeys (routeValue node.target)) ::
          optionalText "taskSummary" node.taskSummary)) := by
  rw [← sortItems_textValue]
  obtain ⟨id, label, prompt, target, dependsOn, taskSummary, description, loadSkills⟩ := node
  cases taskSummary <;> cases description <;> rfl

/-- The fields of which the fingerprint is taken are the same. -/
structure SameFields (first second : DagNodeInput) : Prop where
  id : first.id = second.id
  label : first.label.getD first.id = second.label.getD second.id
  dependsOn : stableSort codeUnitLE (first.dependsOn.getD []) =
    stableSort codeUnitLE (second.dependsOn.getD [])
  prompt : first.prompt = second.prompt
  target : first.target = second.target
  taskSummary : first.taskSummary = second.taskSummary
  description : first.description = second.description

theorem nodeFingerprint_inj (injective : Function.Injective sha256) :
    dagFingerprint sha256 (nodeFingerprintInput first) =
      dagFingerprint sha256 (nodeFingerprintInput second) ↔ SameFields first second := by
  have texts : Function.Injective textValue := fun _ _ => textValue_inj.mp
  have differs : unitsOf "description" ≠ unitsOf "label" := by decide
  have sorted : dagFingerprint sha256 (nodeFingerprintInput first) =
        dagFingerprint sha256 (nodeFingerprintInput second) ↔
      sortKeys (nodeFingerprintInput first) = sortKeys (nodeFingerprintInput second) :=
    ⟨fun same => canonicalize_injective (injective same), fun same => by
      rw [dagFingerprint, canonicalize, same]
      rfl⟩
  rw [sorted, sortKeys_nodeFingerprintInput, sortKeys_nodeFingerprintInput]
  simp only [Json.object.injEq, List.cons.injEq, Prod.mk.injEq, true_and, Json.array.injEq,
    optionalText_append_inj differs, textValue_inj, List.map_inj_right texts,
    sortKeys_routeValue_inj, optionalText_inj]
  constructor
  · rintro ⟨id, dependsOn, description, label, -, prompt, target, taskSummary⟩
    exact { id, label, dependsOn, prompt, target, taskSummary, description }
  · rintro ⟨id, label, dependsOn, prompt, target, taskSummary, description⟩
    exact ⟨id, dependsOn, description, label, id, prompt, target, taskSummary⟩

end OpenAgent.Dag
