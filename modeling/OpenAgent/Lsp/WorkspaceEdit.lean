import Mathlib.Control.Monad.Basic
import OpenAgent.Library.FileTree
import OpenAgent.Library.WellFormedText
import OpenAgent.Lsp.TextEdits

/-!
# Planning a workspace edit

A workspace edit is a list of operations on the texts and the files of a workspace.
Planning takes a snapshot of all the paths that the operations are about, with everything
beneath those that are renamed or deleted, and carries the operations out on it.  Only an
edit without a failing operation is planned.
-/

namespace OpenAgent.Lsp

open Library

/-- The files of a workspace. -/
abbrev WorkspaceTree := FileTree FileContent

/-- The text of an absolute path. -/
def pathText (path : Path) : String :=
  "/" ++ String.intercalate "/" path

/-- Whether a name begins with two dots. -/
def startsWithDots (name : String) : Bool :=
  ['.', '.'].isPrefixOf name.toList

/-- `relative(from, to)`, where it does not lead out of the first path. -/
def relative (fromPath toPath : Path) : Option Path :=
  if fromPath <+: toPath then some (toPath.drop fromPath.length) else none

/-- A relative path that begins with two dots counts as one that leads out, also when the
dots are the beginning of a name. -/
def isSameOrDescendant (candidate parent : Path) : Bool :=
  match relative parent candidate with
  | none => false
  | some [] => true
  | some (name :: _) => !startsWithDots name

theorem prefix_of_isSameOrDescendant (recognized : isSameOrDescendant candidate parent = true) :
    parent <+: candidate := by
  rw [isSameOrDescendant, relative] at recognized
  by_contra apart
  rw [if_neg apart] at recognized
  cases recognized

/-- The check of the paths of an edit. -/
def isPathInsideWorkspace (filePath workspaceRoot : Path) : Bool :=
  match relative workspaceRoot filePath with
  | none => false
  | some [] => true
  | some (name :: _) => !startsWithDots name

/-- A change that cannot be parsed. -/
structure ParseFailure where
  changeIndex : Nat
  message : String

/-- An operation with its resolved paths and options. -/
inductive ParsedWorkspaceOperation
  | text (changeIndex : Nat) (path : Path) (reportedPath : String) (edits : List TextEdit)
      (version : Option Nat)
  | create (changeIndex : Nat) (path : Path) (reportedPath : String)
      (overwrite ignoreIfExists followedSymbolicLink : Bool)
  | rename (changeIndex : Nat) (oldPath newPath : Path) (reportedOldPath reportedNewPath : String)
      (overwrite ignoreIfExists followedSymbolicLink : Bool)
  | delete (changeIndex : Nat) (path : Path) (reportedPath : String)
      (recursive ignoreIfNotExists followedSymbolicLink : Bool)

/-- The place of an operation in the edit. -/
def ParsedWorkspaceOperation.changeIndex : ParsedWorkspaceOperation → Nat
  | .text changeIndex .. => changeIndex
  | .create changeIndex .. => changeIndex
  | .rename changeIndex .. => changeIndex
  | .delete changeIndex .. => changeIndex

/-- The paths of an operation, each with the form it is reported in. -/
def ParsedWorkspaceOperation.paths : ParsedWorkspaceOperation → List (Path × String)
  | .text _ path reportedPath .. => [(path, reportedPath)]
  | .create _ path reportedPath .. => [(path, reportedPath)]
  | .rename _ oldPath newPath reportedOldPath reportedNewPath .. =>
    [(oldPath, reportedOldPath), (newPath, reportedNewPath)]
  | .delete _ path reportedPath .. => [(path, reportedPath)]

/-- What the parser makes of an edit: no operation leaves the workspace. -/
structure ParsedWorkspaceEdit (workspaceRoot : Path) where
  operations : List ParsedWorkspaceOperation
  failures : List ParseFailure
  inside : ∀ operation ∈ operations, ∀ entry ∈ operation.paths,
    isPathInsideWorkspace entry.1 workspaceRoot = true

/-- The kinds of entries that can be edited. -/
inductive EntryKind
  | file
  | directory
  deriving DecidableEq

/-- An operation that a commit carries out. -/
inductive PlannedWorkspaceOperation
  | text (changeIndex : Nat) (path : Path) (beforeText afterText : Text) (editCount : Nat)
      (documentVersion : Option Nat)
  | create (changeIndex : Nat) (path : Path) (replaced : Bool)
  | rename (changeIndex : Nat) (oldPath newPath : Path) (sourceKind : EntryKind)
      (replaceDestination : Bool)
  | delete (changeIndex : Nat) (path : Path) (targetKind : EntryKind) (recursive : Bool)
  | noop (changeIndex : Nat)
  deriving DecidableEq

/-- The place of a planned operation in the edit. -/
def PlannedWorkspaceOperation.changeIndex : PlannedWorkspaceOperation → Nat
  | .text changeIndex .. => changeIndex
  | .create changeIndex .. => changeIndex
  | .rename changeIndex .. => changeIndex
  | .delete changeIndex .. => changeIndex
  | .noop changeIndex => changeIndex

/-- What stood at a path when the edit was planned. -/
inductive WorkspaceSnapshotEntry
  | missing
  | file (content : Text)
  | directory (children : Option (List String))
  deriving DecidableEq

/-- Snapshots by path. -/
abbrev Snapshots := List (Path × WorkspaceSnapshotEntry)

section

variable (tree : WorkspaceTree)

/-- The snapshot of one path. -/
def snapshotPath (path : Path) (includeChildren : Bool) : Except String WorkspaceSnapshotEntry :=
  match tree.find path with
  | none => .ok .missing
  | some (.file content) => .ok (.file content.text)
  | some .directory =>
    .ok (.directory
      (if includeChildren then some (stableSort codeUnitLE (tree.readdir path)) else none))
  | some .other => .error ("unsupported filesystem entry: " ++ pathText path)

/-- A path and the directories above it, as many as are asked for. -/
def upwards : Nat → Path → List Path
  | 0, path => [path]
  | count + 1, path => path :: upwards count path.dropLast

/-- Whether a path has no entry yet, or one without the children that are asked for. -/
def wantsEntry (snapshots : Snapshots) (candidate : Path) (includeChildren : Bool) : Bool :=
  match mapGet snapshots candidate with
  | none => true
  | some (.directory none) => includeChildren
  | some _ => false

/-- The pass of the loop of `add` for one path. -/
def addCandidate (path : Path) (includeChildren : Bool) (snapshots : Snapshots) (candidate : Path) :
    Except String Snapshots :=
  if wantsEntry snapshots candidate includeChildren then do
    let entry ← snapshotPath tree candidate (includeChildren && decide (candidate = path))
    .ok (mapSet snapshots candidate entry)
  else .ok snapshots

/-- The loop of `add`. -/
def addUpwards (workspaceRoot path : Path) (includeChildren : Bool) (snapshots : Snapshots) :
    Except String Snapshots :=
  (upwards (path.length - workspaceRoot.length) path).foldlM
    (addCandidate tree path includeChildren) snapshots

/-- `WorkspaceSnapshotBuilder.add`.  No subtree is deeper than the tree. -/
def addSnapshots (tree : WorkspaceTree)
    (workspaceRoot : Path) : Nat → Path → Bool → Snapshots → Except String Snapshots
  | 0, path, includeChildren, snapshots =>
    addUpwards tree workspaceRoot path includeChildren snapshots
  | depth + 1, path, includeChildren, snapshots => do
      let added ← addUpwards tree workspaceRoot path includeChildren snapshots
      if includeChildren ∧ tree.find path = some .directory then
        (tree.readdir path).foldlM (fun snapshots child =>
            addSnapshots tree workspaceRoot depth (path ++ [child]) true snapshots) added
      else .ok added

/-- The snapshots that an operation needs. -/
def snapshotOperation (workspaceRoot : Path) (snapshots : Snapshots) :
    ParsedWorkspaceOperation → Except String Snapshots
  | .rename _ oldPath newPath .. => do
      let added ← addSnapshots tree workspaceRoot tree.height oldPath true snapshots
      addSnapshots tree workspaceRoot tree.height newPath true added
  | .delete _ path .. => addSnapshots tree workspaceRoot tree.height path true snapshots
  | .text _ path .. => addSnapshots tree workspaceRoot tree.height path false snapshots
  | .create _ path .. => addSnapshots tree workspaceRoot tree.height path false snapshots

/-- The snapshots of all operations, and of the root. -/
def snapshotOperations (workspaceRoot : Path) (operations : List ParsedWorkspaceOperation) :
    Except String Snapshots := do
  let rootAdded ← addSnapshots tree workspaceRoot tree.height workspaceRoot false []
  operations.foldlM (snapshotOperation tree workspaceRoot) rootAdded

end

/-- The kind of an entry, unless it is missing. -/
def WorkspaceSnapshotEntry.kind : WorkspaceSnapshotEntry → Option EntryKind
  | .missing => none
  | .file _ => some .file
  | .directory _ => some .directory

section

variable (virtual : Snapshots)

section

variable (path : Path)

/-- `virtual.get(path) ?? { kind: "missing" }`. -/
def virtualEntry : WorkspaceSnapshotEntry :=
  (mapGet virtual path).getD .missing

/-- A subtree is deleted. -/
def removeVirtualSubtree : Snapshots :=
  mapSet (virtual.filter fun entry => !isSameOrDescendant entry.1 path) path .missing

/-- The path in a moved subtree that takes the place of another. -/
def movedPath (candidate oldPath newPath : Path) : Path :=
  newPath ++ (relative oldPath candidate).getD []

theorem movedPath_beneath (beneath : oldPath <+: candidate) (newPath : Path) :
    movedPath candidate oldPath newPath = newPath ++ candidate.drop oldPath.length := by
  rw [movedPath, relative, if_pos beneath, Option.getD_some]

theorem movedPath_append (oldPath newPath rest : Path) :
    movedPath (oldPath ++ rest) oldPath newPath = newPath ++ rest := by
  rw [movedPath_beneath (List.prefix_append oldPath rest), List.drop_left]

/-- A subtree takes the place of another. -/
def moveVirtualSubtree (oldPath newPath : Path) : Snapshots :=
  let moved := virtual.filter fun entry => isSameOrDescendant entry.1 oldPath
  moved.foldl (fun virtual entry => mapSet virtual (movedPath entry.1 oldPath newPath) entry.2)
    (removeVirtualSubtree (removeVirtualSubtree virtual oldPath) newPath)

/-- Whether anything is beneath a path. -/
def virtualDirectoryHasChildren : Bool :=
  virtual.any fun entry =>
    decide (entry.1 ≠ path) && entry.2.kind.isSome && isSameOrDescendant entry.1 path

/-- The parent of a path has to be a directory. -/
def requireVirtualParent (changeIndex : Nat) : Except WorkspaceEditValidationError Unit :=
  if (virtualEntry virtual path.dropLast).kind = some .directory then .ok ()
  else .error ⟨changeIndex, "parent directory does not exist for " ++ pathText path⟩

end

/-- A path that went through a link is refused. -/
def rejectSymbolicLink (followedSymbolicLink : Bool)
    (changeIndex : Nat) : Except WorkspaceEditValidationError Unit :=
  if followedSymbolicLink then
    .error ⟨changeIndex, "resource operations through symbolic links are unsupported"⟩
  else .ok ()

/-- A simulated operation, with the virtual files behind it. -/
abbrev Simulated := PlannedWorkspaceOperation × Snapshots

section

variable (changeIndex : Nat)

/-- Text edits, on the text that the file would have. -/
def simulateText (path : Path) (edits : List TextEdit) (version : Option Nat) :
    Except WorkspaceEditValidationError Simulated :=
  match mapGet virtual path with
  | some (.file content) => do
      let normalized ← normalizeTextEdits content edits changeIndex
      .ok (.text changeIndex path content normalized.text normalized.edits.length version,
        mapSet virtual path (.file normalized.text))
  | _ => .error ⟨changeIndex, pathText path ++ " is not a file"⟩

/-- A new file, or an empty one in the place of a file. -/
def simulateCreate (path : Path) (overwrite ignoreIfExists followedSymbolicLink : Bool) :
    Except WorkspaceEditValidationError Simulated := do
  rejectSymbolicLink followedSymbolicLink changeIndex
  requireVirtualParent virtual path changeIndex
  match (virtualEntry virtual path).kind with
  | none => .ok (.create changeIndex path false, mapSet virtual path (.file []))
  | some kind =>
    if overwrite ∧ kind = .file then
      .ok (.create changeIndex path true, mapSet virtual path (.file []))
    else if ignoreIfExists then .ok (.noop changeIndex, virtual)
    else .error ⟨changeIndex, "create target already exists: " ++ pathText path⟩

/-- A rename, with all that is beneath the path. -/
def simulateRename (oldPath newPath : Path) (overwrite ignoreIfExists followedSymbolicLink : Bool) :
    Except WorkspaceEditValidationError Simulated := do
  rejectSymbolicLink followedSymbolicLink changeIndex
  match (virtualEntry virtual oldPath).kind with
  | none => .error ⟨changeIndex, "rename source does not exist: " ++ pathText oldPath⟩
  | some sourceKind =>
    if oldPath = newPath then .ok (.noop changeIndex, virtual)
    else if isSameOrDescendant newPath oldPath then
      .error ⟨changeIndex, "cannot rename a path into its own subtree"⟩
    else do
      requireVirtualParent virtual newPath changeIndex
      let replaceDestination := (virtualEntry virtual newPath).kind.isSome
      if replaceDestination ∧ overwrite = false then
        if ignoreIfExists then .ok (.noop changeIndex, virtual)
        else .error ⟨changeIndex, "rename target already exists: " ++ pathText newPath⟩
      else
        .ok (.rename changeIndex oldPath newPath sourceKind replaceDestination,
          moveVirtualSubtree virtual oldPath newPath)

/-- A removal of a file, or of a directory. -/
def simulateDelete (path : Path) (recursive ignoreIfNotExists followedSymbolicLink : Bool) :
    Except WorkspaceEditValidationError Simulated := do
  rejectSymbolicLink followedSymbolicLink changeIndex
  match (virtualEntry virtual path).kind with
  | none =>
    if ignoreIfNotExists then .ok (.noop changeIndex, virtual)
    else .error ⟨changeIndex, "delete target does not exist: " ++ pathText path⟩
  | some targetKind =>
    if targetKind = .directory ∧ recursive = false ∧
        virtualDirectoryHasChildren virtual path = true then
      .error ⟨changeIndex, "directory is not empty: " ++ pathText path⟩
    else
      .ok (.delete changeIndex path targetKind recursive, removeVirtualSubtree virtual path)

end

/-- One operation on the virtual files. -/
def simulateOperation :
    ParsedWorkspaceOperation → Except WorkspaceEditValidationError Simulated
  | .text changeIndex path _ edits version =>
    simulateText virtual changeIndex path edits version
  | .create changeIndex path _ overwrite ignoreIfExists followedSymbolicLink =>
    simulateCreate virtual changeIndex path overwrite ignoreIfExists followedSymbolicLink
  | .rename changeIndex oldPath newPath _ _ overwrite ignoreIfExists followedSymbolicLink =>
    simulateRename virtual changeIndex oldPath newPath overwrite ignoreIfExists followedSymbolicLink
  | .delete changeIndex path _ recursive ignoreIfNotExists followedSymbolicLink =>
    simulateDelete virtual changeIndex path recursive ignoreIfNotExists followedSymbolicLink

end

/-- The planned operations, or what has failed. -/
structure SimulatedWorkspaceEdit where
  operations : List PlannedWorkspaceOperation
  failures : List ParseFailure
  /-- The virtual files at the end, which the source drops. -/
  virtual : Snapshots

/-- All operations; one that fails changes nothing. -/
def simulateOperations :
    List ParsedWorkspaceOperation → Snapshots → SimulatedWorkspaceEdit
  | [], virtual => ⟨[], [], virtual⟩
  | operation :: rest, virtual =>
    match simulateOperation virtual operation with
    | .ok (planned, next) =>
      let simulated := simulateOperations rest next
      { simulated with operations := planned :: simulated.operations }
    | .error error =>
      let simulated := simulateOperations rest virtual
      { simulated with
        failures := ⟨operation.changeIndex, error.detail⟩ :: simulated.failures }

/-- The answer to the client. -/
structure ApplyResult where
  success : Bool
  filesModified : List String
  totalEdits : Nat
  errors : List String
  failedChange : Option Nat
  lateAbort : Bool
  deriving DecidableEq

/-- The answer when nothing was changed. -/
def failureResult (failures : List ParseFailure) : ApplyResult :=
  let sorted := stableSort
    (fun left right : ParseFailure => decide (left.changeIndex ≤ right.changeIndex)) failures
  { success := false
    filesModified := []
    totalEdits := 0
    errors := sorted.map fun failure =>
      "change " ++ toString failure.changeIndex ++ ": " ++ failure.message
    failedChange := sorted.head?.map ParseFailure.changeIndex
    lateAbort := false }

/-- A plan, with the snapshots that a commit verifies. -/
structure WorkspaceEditPlan where
  workspaceRoot : Path
  operations : List PlannedWorkspaceOperation
  snapshots : Snapshots
  firstChangeByPath : List (Path × Nat)
  reportedPathByCanonical : List (Path × String)
  deriving DecidableEq

/-- Add a key unless the map has it. -/
def mapAdd [DecidableEq κ] (entries : List (κ × ν)) (key : κ) (value : ν) : List (κ × ν) :=
  if (mapGet entries key).isSome then entries else mapSet entries key value

/-- The root of a workspace, which is a directory. -/
def canonicalWorkspaceRoot (tree : WorkspaceTree) (workspaceRoot : Path) : Except String Path :=
  match tree.find workspaceRoot with
  | some .directory => .ok workspaceRoot
  | some _ => .error ("workspace root is not a directory: " ++ pathText workspaceRoot)
  | none => .error ("workspace root " ++ pathText workspaceRoot ++ ": ENOENT")

/-- The plan of an edit without a failing operation. -/
def planWorkspaceEdit (tree : WorkspaceTree) (workspaceRoot : Path)
    (edit : ParsedWorkspaceEdit workspaceRoot) : Except ApplyResult WorkspaceEditPlan :=
  match canonicalWorkspaceRoot tree workspaceRoot with
  | .error error => .error (failureResult [⟨0, error⟩])
  | .ok root =>
    if edit.failures ≠ [] then .error (failureResult edit.failures)
    else
      match snapshotOperations tree root edit.operations with
      | .error message => .error (failureResult [⟨0, message⟩])
      | .ok snapshots =>
        let simulated := simulateOperations edit.operations snapshots
        if simulated.failures ≠ [] then .error (failureResult simulated.failures)
        else
          .ok
            { workspaceRoot := root
              operations := simulated.operations
              snapshots := snapshots
              firstChangeByPath := edit.operations.foldl
                (fun entries operation => operation.paths.foldl
                  (fun entries entry => mapAdd entries entry.1 operation.changeIndex)
                  entries) []
              reportedPathByCanonical := edit.operations.foldl
                (fun entries operation => operation.paths.foldl
                  (fun entries entry => mapAdd entries entry.1 entry.2) entries) [] }

end OpenAgent.Lsp
