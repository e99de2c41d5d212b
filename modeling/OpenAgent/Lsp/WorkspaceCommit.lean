import OpenAgent.Lsp.WorkspaceEdit

/-!
# Committing a workspace edit

A commit checks that every path of the plan still is as the snapshot has it, and then
carries the planned operations out on the files.  The first file operation that fails
ends it; what was done before is reported and stays.
-/

namespace OpenAgent.Lsp

open Library

inductive WorkspaceMutation
  | text (path : Path) (beforeText afterText : Text)
  | create (path : Path) (replaced : Bool)
  | rename (oldPath newPath : Path) (sourceKind : EntryKind)
  | delete (path : Path) (targetKind : EntryKind)

/-- All changes of a commit. -/
structure WorkspaceMutationDelta where
  operations : List WorkspaceMutation
  changedPaths : List Path

/-- What a commit returns. -/
structure WorkspaceEditCommit where
  result : ApplyResult
  delta : WorkspaceMutationDelta

/-- What a commit has done so far. -/
structure CommitAccumulator where
  mutations : List WorkspaceMutation
  filesModified : List String
  totalEdits : Nat

/-- What the abort signal shows, each time it is looked at. -/
abbrev AbortSignal := Nat → Bool

def errorText : FileError → String
  | .enoent => "ENOENT"
  | .enotdir => "ENOTDIR"
  | .eisdir => "ERR_FS_EISDIR"
  | .enotempty => "ENOTEMPTY"
  | .einval => "EINVAL"
  | .ebusy => "EBUSY"
  | .unsupported => "unsupported filesystem entry"

def changedPathsForMutation : WorkspaceMutation → List Path
  | .rename oldPath newPath _ => [oldPath, newPath]
  | .text path .. => [path]
  | .create path _ => [path]
  | .delete path _ => [path]

def mutationDelta (operations : List WorkspaceMutation) : WorkspaceMutationDelta where
  operations := operations
  changedPaths := stableSort (fun left right => codeUnitLE (pathText left) (pathText right))
    (setOf (operations.flatMap changedPathsForMutation))

section

variable (plan : WorkspaceEditPlan)

def firstOperationIndex : Nat :=
  (plan.operations.head?.map PlannedWorkspaceOperation.changeIndex).getD 0

def failedCommit (message : String) (changeIndex : Nat) (accumulator : CommitAccumulator)
    (lateAbort : Bool) : WorkspaceEditCommit where
  result :=
    { success := false
      filesModified := accumulator.filesModified
      totalEdits := accumulator.totalEdits
      errors := ["change " ++ toString changeIndex ++ ": " ++ message]
      failedChange := some changeIndex
      lateAbort := lateAbort }
  delta := mutationDelta accumulator.mutations

def snapshotsEqual : WorkspaceSnapshotEntry → WorkspaceSnapshotEntry → Bool
  | .missing, .missing => true
  | .file expected, .file actual => expected = actual
  | .directory (some expected), .directory actual => actual = some expected
  | .directory none, .directory _ => true
  | _, _ => false

section

variable (tree : WorkspaceTree)

def liveSnapshot (path : Path) (expected : WorkspaceSnapshotEntry) :
    Except String WorkspaceSnapshotEntry :=
  snapshotPath tree path
    (match expected with
    | .directory (some _) => true
    | _ => false)

/-- Why a path is not as the snapshot has it. -/
def snapshotFailure (path : Path) (expected : WorkspaceSnapshotEntry) : Option String :=
  match liveSnapshot tree path expected with
  | .error detail =>
    some ("cannot verify snapshot for " ++ pathText path ++ ": " ++ detail)
  | .ok actual =>
    if snapshotsEqual expected actual then none
    else some ("workspace state changed before commit: " ++ pathText path)

def noMutations : CommitAccumulator where
  mutations := []
  filesModified := []
  totalEdits := 0

def verifySnapshots (plan : WorkspaceEditPlan) : Option WorkspaceEditCommit :=
  plan.snapshots.findSome? fun entry =>
    (snapshotFailure tree entry.1 entry.2).map fun message =>
      failedCommit message ((mapGet plan.firstChangeByPath entry.1).getD (firstOperationIndex plan))
        noMutations false

end

def addModifiedPath (paths : List String) (path : String) : List String :=
  if path ∈ paths then paths else paths ++ [path]

def reportedPath (path : Path) : String :=
  (mapGet plan.reportedPathByCanonical path).getD (pathText path)

/-- The accumulator with one more mutation. -/
def CommitAccumulator.record (accumulator : CommitAccumulator) (plan : WorkspaceEditPlan)
    (mutation : WorkspaceMutation) (path : Path) (edits : Nat) : CommitAccumulator where
  mutations := accumulator.mutations ++ [mutation]
  filesModified := addModifiedPath accumulator.filesModified (reportedPath plan path)
  totalEdits := accumulator.totalEdits + edits

/-- How far a commit has come, and the error that ended it. -/
structure CommitProgress where
  accumulator : CommitAccumulator
  tree : WorkspaceTree
  failure : Option FileError

variable (progress : CommitProgress)

/-- A file operation with the record of it, or its error. -/
def CommitProgress.perform (outcome : Except FileError WorkspaceTree) (recorded : CommitAccumulator)
    : CommitProgress :=
  match outcome with
  | .ok tree => ⟨recorded, tree, none⟩
  | .error error => { progress with failure := some error }

/-- What stands at the destination of a rename is removed first. -/
def removeDestination (newPath : Path) : CommitProgress :=
  let targetKind : EntryKind :=
    if progress.tree.find newPath = some .directory then .directory else .file
  progress.perform (progress.tree.remove newPath (decide (targetKind = .directory)))
    (progress.accumulator.record plan (.delete newPath targetKind) newPath 0)

def commitOperation : PlannedWorkspaceOperation → CommitProgress
  | .noop _ => progress
  | .text _ path beforeText afterText editCount _ =>
    progress.perform (progress.tree.writeFile path (.ofText afterText))
      (progress.accumulator.record plan (.text path beforeText afterText) path editCount)
  | .create _ path replaced =>
    progress.perform (progress.tree.writeFile path (.ofText []))
      (progress.accumulator.record plan (.create path replaced) path 0)
  | .rename _ oldPath newPath sourceKind replaceDestination =>
    let cleared :=
      if replaceDestination then removeDestination plan progress newPath else progress
    if cleared.failure.isSome then cleared
    else
      cleared.perform (cleared.tree.rename oldPath newPath)
        (cleared.accumulator.record plan (.rename oldPath newPath sourceKind) newPath 0)
  | .delete _ path targetKind recursive =>
    progress.perform (progress.tree.remove path recursive)
      (progress.accumulator.record plan (.delete path targetKind) path 0)

end

def PlannedWorkspaceOperation.kindText : PlannedWorkspaceOperation → String
  | .text .. => "text"
  | .create .. => "create"
  | .rename .. => "rename"
  | .delete .. => "delete"
  | .noop _ => "noop"

/-- The operations that are still to do.  The signal is looked at behind each of them. -/
def commitOperations (plan : WorkspaceEditPlan) (signal : AbortSignal) :
    Nat → Bool → CommitProgress → List PlannedWorkspaceOperation →
      WorkspaceEditCommit × WorkspaceTree
  | _, lateAbort, progress, [] =>
    ({ result :=
        { success := true
          filesModified := progress.accumulator.filesModified
          totalEdits := progress.accumulator.totalEdits
          errors := []
          failedChange := none
          lateAbort := lateAbort }
       delta := mutationDelta progress.accumulator.mutations },
      progress.tree)
  | look, lateAbort, progress, operation :: rest =>
    let next := commitOperation plan progress operation
    match next.failure with
    | some error =>
      (failedCommit ("I/O failure during " ++ operation.kindText ++ ": " ++ errorText error)
        operation.changeIndex next.accumulator (lateAbort || signal look), next.tree)
    | none => commitOperations plan signal (look + 1) (lateAbort || signal look) next rest

def commitWorkspaceEditPlan (tree : WorkspaceTree) (plan : WorkspaceEditPlan)
    (signal : AbortSignal) : WorkspaceEditCommit × WorkspaceTree :=
  let cancelled :=
    failedCommit "cancelled before commit" (firstOperationIndex plan) noMutations false
  if signal 0 then (cancelled, tree)
  else
    match verifySnapshots tree plan with
    | some stale => (stale, tree)
    | none =>
      if signal 1 then (cancelled, tree)
      else commitOperations plan signal 2 false ⟨noMutations, tree, none⟩ plan.operations

end OpenAgent.Lsp
