import OpenAgent.Library.WellFormedText
import OpenAgent.Memory.Frontmatter
import OpenAgent.Memory.MemoryPath
import OpenAgent.Memory.PatchParser

/-!
# The tool `memory_apply_patch`

All operations of a patch are checked against the files and the pending changes
of the operations before them; then the pending writes and deletions are carried
out.  A rejected patch does nothing.
-/

namespace OpenAgent.Memory

open Library

/-- What a path leads to. -/
inductive MemoryEntry
  | file (bytes : List UInt8)
  | directory

structure MemoryRepository where
  context : PathContext
  entryAt : Text → Option MemoryEntry
  /-- `cleanCheck` passes. -/
  isClean : Bool

/-- The arguments of the call. -/
structure MemoryApplyPatchParams where
  reason : Text
  input : Text

/-- The errors of the call. -/
inductive MemoryApplyPatchError
  | emptyReason
  | emptyInput
  | dirtyRepository
  | parse (failure : PatchParseError)
  | path (failure : MemoryPathError)
  | notFound (path : Text)
  | unreadable (path : Text)
  | duplicateTarget (path : Text)
  | existing (path : Text)
  | frontmatter (failure : FrontmatterError)
  | readOnly (path : Text)
  | writesReadOnly (path : Text)
  | hunk (failure : PatchHunkError)
  deriving DecidableEq

/-- The pending changes, by relative path. -/
structure PatchPlan where
  pendingWrites : List (Text × Text)
  pendingDeletes : List Text
  affectedPaths : List Text

/-- The change of one file. -/
inductive FileAction
  | write (path : Text) (bytes : List UInt8)
  | unlink (path : Text)
  deriving DecidableEq

def FileAction.path : FileAction → Text
  | write path _ => path
  | unlink path => path

namespace PatchPlan

def initial : PatchPlan where
  pendingWrites := []
  pendingDeletes := []
  affectedPaths := []

variable (plan : PatchPlan)

/-- `pendingWrites.has(path)`. -/
def writes (path : Text) : Bool :=
  path ∈ plan.pendingWrites.map Prod.fst

/-- A path will be written. -/
def setWrite (path content : Text) : PatchPlan where
  pendingWrites := mapSet plan.pendingWrites path content
  pendingDeletes := plan.pendingDeletes.filter (· ≠ path)
  affectedPaths := setInsert plan.affectedPaths path

/-- A path will be deleted. -/
def setDelete (path : Text) : PatchPlan where
  pendingWrites := mapDelete plan.pendingWrites path
  pendingDeletes := setInsert plan.pendingDeletes path
  affectedPaths := setInsert plan.affectedPaths path

end PatchPlan

/-- `readUtf8TextStrict`. -/
def readUtf8TextStrict (entry : Option MemoryEntry) : Option Text :=
  match entry with
  | some (.file bytes) =>
    if [0xFF, 0xFE].isPrefixOf bytes || [0xFE, 0xFF].isPrefixOf bytes then none
    else decodeFatal bytes
  | _ => none

variable (repo : MemoryRepository)

def resolvePath (input : Text) (fieldName : String) : Except MemoryApplyPatchError Text :=
  (validateMemoryPath repo.context input (text fieldName)).mapError .path

section

variable (plan : PatchPlan)

def loadCurrent (path : Text) : Except MemoryApplyPatchError Text :=
  if path ∈ plan.pendingDeletes && !plan.writes path then .error (.notFound path)
  else
    match plan.pendingWrites.lookup path with
    | some content => .ok content
    | none =>
      match readUtf8TextStrict (repo.entryAt path) with
      | none => .error (.unreadable path)
      | some content => .ok (normalizeBreaks content)

def parseForTool (content : Text) : Except MemoryApplyPatchError ParsedMemoryFile :=
  (parseMemoryFile content).mapError .frontmatter

/-- The content of an added file, with a frontmatter of its own or a new one. -/
def normalizeAddedContent (label rawContent : Text) : Text :=
  let parsed := (parseMemoryFile rawContent).bind fun parsed =>
    renderMemoryFile parsed.frontmatter parsed.body
  match parsed with
  | .ok content => content
  | .error _ =>
    let description := text "Memory block " ++ label
    match renderMemoryFile ⟨description, none, none, none⟩ rawContent with
    | .ok content => content
    | .error _ => []

def isReadOnlyValue (readOnly : Option Text) : Bool :=
  readOnly = some (text "true")

def assertEditable (readOnly : Option Text) (path : Text) : Except MemoryApplyPatchError Unit :=
  if isReadOnlyValue readOnly then .error (.readOnly path) else .ok ()

def applyHunks (content : Text) (hunks : List PatchHunk)
    (path : Text) : Except MemoryApplyPatchError Text :=
  hunks.foldlM (fun next hunk => (applyMemoryPatchHunk next hunk path).mapError .hunk) content

/-- One pass of the loop of `applyOperations`. -/
def applyOperation : PatchOperation → Except MemoryApplyPatchError PatchPlan
  | .add targetPath contentLines => do
      let target ← resolvePath repo targetPath "Add File path"
      if plan.writes target then .error (.duplicateTarget target)
      else if (repo.entryAt target).isSome then .error (.existing target)
      else
        .ok (plan.setWrite target
          (normalizeAddedContent (target.take (target.length - 3)) (joinLines contentLines)))
  | .delete targetPath => do
      let target ← resolvePath repo targetPath "Delete File path"
      let current ← loadCurrent repo plan target
      let parsed ← parseForTool current
      assertEditable parsed.frontmatter.readOnly target
      .ok (plan.setDelete target)
  | .update sourcePath targetPath hunks => do
      let source ← resolvePath repo sourcePath "Update File path"
      let target ← resolvePath repo targetPath "Move to path"
      let current ← loadCurrent repo plan source
      let parsed ← parseForTool current
      assertEditable parsed.frontmatter.readOnly source
      let next ← applyHunks current hunks source
      let result ← parseForTool next
      if isReadOnlyValue result.frontmatter.readOnly then .error (.writesReadOnly target)
      else
        let written := plan.setWrite target next
        .ok (if source = target then written else written.setDelete source)

/-- `applyOperations` up to the changes on disk. -/
def applyOperations (operations : List PatchOperation) : Except MemoryApplyPatchError PatchPlan :=
  operations.foldlM (applyOperation repo) .initial

/-- The changes on disk, in their order. -/
def PatchPlan.actions (repo : MemoryRepository) : List FileAction :=
  plan.pendingWrites.map (fun pending => .write pending.1 (encodeText pending.2)) ++
    (plan.pendingDeletes.filter fun path =>
      !plan.writes path && (repo.entryAt path).isSome).map .unlink

end

/-- `runMemoryApplyPatch` up to its commit.  The actions are carried out in their
order, until one of them fails; then the paths are committed. -/
def runMemoryApplyPatch (params : MemoryApplyPatchParams) :
    Except MemoryApplyPatchError (List FileAction) :=
  if (trim params.reason).isEmpty then .error .emptyReason
  else if (trim params.input).isEmpty then .error .emptyInput
  else if !repo.isClean then .error .dirtyRepository
  else do
    let operations ← (parseMemoryPatch params.input).mapError .parse
    let plan ← applyOperations repo operations
    .ok (plan.actions repo)

end OpenAgent.Memory
