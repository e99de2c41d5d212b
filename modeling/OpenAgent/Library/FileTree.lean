import Mathlib.Data.List.Dedup
import Mathlib.Data.List.Infix

/-!
# File trees

A file tree is a finite set of paths with what stands at them.  Everything but the root
stands in a directory; the structure carries that, so that the operations on files only
have to decide whether they can be carried out.  The content of a file is left open.
Besides files and directories there may be entries of other kinds, of which nothing is
known but that they exist.
-/

namespace OpenAgent.Library

/-- The names from the root on. -/
abbrev Path := List String

/-- What stands at a path. -/
inductive FileNode (Content : Type)
  | file (content : Content)
  | directory
  | other
  deriving DecidableEq

/-- The errors of file operations. -/
inductive FileError
  | enoent
  | enotdir
  | eisdir
  | enotempty
  | einval
  | ebusy
  /-- The operation meets an entry of another kind. -/
  | unsupported

/-- What stands at each path, and the paths where something does. -/
structure FileTree (Content : Type) where
  find : Path → Option (FileNode Content)
  paths : List Path
  nodup : paths.Nodup
  mem_paths : ∀ path, path ∈ paths ↔ find path ≠ none
  root : find [] = some .directory
  parent : ∀ path name, find (path ++ [name]) ≠ none → find path = some .directory

namespace FileTree

section

variable (tree : FileTree Content)

/-- Something stands beneath a directory only. -/
theorem directory_above (nonempty : rest ≠ []) (present : tree.find (path ++ rest) ≠ none) :
    tree.find path = some .directory := by
  induction rest generalizing path with
  | nil => exact absurd rfl nonempty
  | cons name rest ih =>
    by_cases isLast : rest = []
    · subst isLast
      exact tree.parent path name present
    · apply tree.parent path name
      rw [ih isLast (by simpa using present)]
      exact Option.some_ne_none _

/-- What is there is in a directory; the root is in itself. -/
theorem directory_dropLast (present : tree.find path ≠ none) :
    tree.find path.dropLast = some .directory := by
  rcases List.eq_nil_or_concat' path with rfl | ⟨front, name, rfl⟩
  · exact tree.root
  · rw [List.dropLast_concat]
    exact tree.parent front name present

theorem find_beneath (beneath : path <+: other) (absent : tree.find path = none) :
    tree.find other = none := by
  obtain ⟨rest, rfl⟩ := beneath
  by_contra present
  by_cases isSame : rest = []
  · subst isSame
    exact present (by rw [List.append_nil, absent])
  · have isDirectory := tree.directory_above isSame present
    rw [absent] at isDirectory
    cases isDirectory

/-- The tree of a file system that was just made. -/
def bare : FileTree Content where
  find path := if path = [] then some .directory else none
  paths := [[]]
  nodup := List.nodup_singleton _
  mem_paths := by
    intro path
    by_cases isRoot : path = [] <;> simp [isRoot]
  root := if_pos rfl
  parent := by
    intro path name present
    rw [if_neg (by simp)] at present
    exact absurd rfl present

/-- The tree with a node where there was no directory, in a directory. -/
def place (path : Path) (node : FileNode Content) (notDirectory : tree.find path ≠ some .directory)
    (inDirectory : tree.find path.dropLast = some .directory) : FileTree Content where
  find other := if other = path then some node else tree.find other
  paths := (path :: tree.paths).dedup
  nodup := List.nodup_dedup _
  mem_paths := by
    intro other
    rw [List.mem_dedup, List.mem_cons, tree.mem_paths]
    by_cases same : other = path <;> simp [same]
  root := by
    have isRoot : [] ≠ path := by
      rintro rfl
      exact notDirectory tree.root
    rw [if_neg isRoot, tree.root]
  parent := by
    intro other name present
    by_cases isPath : other ++ [name] = path
    · subst isPath
      rw [List.dropLast_concat] at inDirectory
      have apart : other ≠ other ++ [name] := by simp
      rw [if_neg apart, inDirectory]
    · rw [if_neg isPath] at present
      have isDirectory := tree.parent other name present
      have apart : other ≠ path := by
        rintro rfl
        exact notDirectory isDirectory
      rw [if_neg apart, isDirectory]

end

/-- `writeFileSync`. -/
def writeFile [DecidableEq Content] (tree : FileTree Content) (path : Path)
    (content : Content) : Except FileError (FileTree Content) :=
  if notDirectory : tree.find path = some .directory then .error .eisdir
  else if tree.find path = some .other then .error .unsupported
  else if inDirectory : tree.find path.dropLast = some .directory then
    .ok (tree.place path (.file content) notDirectory inDirectory)
  else if tree.find path.dropLast = none then .error .enoent
  else .error .enotdir

variable {tree : FileTree Content}

theorem writeFile_eq_ok [DecidableEq Content] (content : Content)
    (notDirectory : tree.find path ≠ some .directory) (notOther : tree.find path ≠ some .other)
    (inDirectory : tree.find path.dropLast = some .directory) :
    tree.writeFile path content =
      .ok (tree.place path (.file content) notDirectory inDirectory) := by
  rw [writeFile, dif_neg notDirectory, if_neg notOther, dif_pos inDirectory]

theorem find_of_writeFile [DecidableEq Content] (written : tree.writeFile path content = .ok next) :
    next.find other = if other = path then some (.file content) else tree.find other := by
  rw [writeFile] at written
  split at written
  · cases written
  · split at written
    · cases written
    · split at written
      · cases written
        rfl
      · split at written <;> cases written

/-- `readFileSync`. -/
def readFile (tree : FileTree Content) (path : Path) : Except FileError Content :=
  match tree.find path with
  | none => .error .enoent
  | some (.file content) => .ok content
  | some .directory => .error .eisdir
  | some .other => .error .unsupported

theorem readFile_eq_ok :
    tree.readFile path = .ok content ↔ tree.find path = some (.file content) := by
  rw [readFile]
  split <;> rename_i found <;> simp [found]

/-- The tree without what stands at a path and beneath it. -/
def without (tree : FileTree Content) (path : Path) (notRoot : path ≠ []) : FileTree Content where
  find other := if path <+: other then none else tree.find other
  paths := tree.paths.filter fun other => ¬ path <+: other
  nodup := tree.nodup.filter _
  mem_paths := by
    intro other
    rw [List.mem_filter, tree.mem_paths]
    by_cases beneath : path <+: other <;> simp [beneath]
  root := by
    rw [if_neg fun isPrefix => notRoot (List.prefix_nil.mp isPrefix), tree.root]
  parent := by
    intro other name present
    have apart : ¬ path <+: other ++ [name] := by
      intro beneath
      exact present (if_pos beneath)
    rw [if_neg apart] at present
    rw [if_neg fun beneath => apart (beneath.trans (List.prefix_append other [name]))]
    exact tree.parent other name present

/-- `rmSync` without `force`. -/
def remove (tree : FileTree Content) (path : Path)
    (recursive : Bool) : Except FileError (FileTree Content) :=
  if notRoot : path = [] then .error .ebusy
  else
    match tree.find path with
    | none => .error .enoent
    | some .directory =>
      if recursive then .ok (tree.without path notRoot) else .error .eisdir
    | some _ => .ok (tree.without path notRoot)

theorem remove_eq_ok (notRoot : path ≠ []) (present : tree.find path ≠ none)
    (isAllowed : tree.find path = some .directory → recursive = true) :
    tree.remove path recursive = .ok (tree.without path notRoot) := by
  rw [remove, dif_neg notRoot]
  split
  · rename_i absent
    exact absurd absent present
  · rename_i isDirectory
    rw [if_pos (isAllowed isDirectory)]
  · rfl

theorem find_of_remove (removed : tree.remove path recursive = .ok next) :
    next.find other = if path <+: other then none else tree.find other := by
  rw [remove] at removed
  split at removed
  · cases removed
  · split at removed
    · cases removed
    · split at removed
      · cases removed
        rfl
      · cases removed
    · cases removed
      rfl

/-- Neither the root nor, unless asked for, a directory is removed. -/
theorem remove_eq_error
    (isRefused : path = [] ∨ (tree.find path = some .directory ∧ recursive = false)) :
    ∃ error, tree.remove path recursive = .error error := by
  rcases isRefused with isRoot | ⟨isDirectory, notRecursive⟩
  · exact ⟨.ebusy, by rw [remove, dif_pos isRoot]⟩
  · by_cases isRoot : path = []
    · exact ⟨.ebusy, by rw [remove, dif_pos isRoot]⟩
    · exact ⟨.eisdir, by simp [remove, isRoot, isDirectory, notRecursive]⟩

/-- The tree with a subtree in another place, instead of what stood there. -/
def moved (tree : FileTree Content) (oldPath newPath : Path) (notRoot : newPath ≠ [])
    (notInside : ¬ oldPath <+: newPath)
    (inDirectory : tree.find newPath.dropLast = some .directory) : FileTree Content where
  find other :=
    if newPath <+: other then tree.find (oldPath ++ other.drop newPath.length)
    else if oldPath <+: other then none
    else tree.find other
  paths :=
    ((tree.paths.filter fun other => ¬ newPath <+: other ∧ ¬ oldPath <+: other) ++
      (tree.paths.filter fun other => oldPath <+: other).map fun other =>
        newPath ++ other.drop oldPath.length).dedup
  nodup := List.nodup_dedup _
  mem_paths := by
    intro other
    rw [List.mem_dedup, List.mem_append]
    by_cases isNew : newPath <+: other
    · rw [if_pos isNew]
      obtain ⟨rest, rfl⟩ := isNew
      rw [List.drop_left, ← tree.mem_paths]
      constructor
      · rintro (kept | isMoved)
        · exact absurd (List.prefix_append newPath rest)
            (of_decide_eq_true (List.mem_filter.mp kept).2).1
        · obtain ⟨source, isSource, same⟩ := List.mem_map.mp isMoved
          obtain ⟨isPath, beneath⟩ := List.mem_filter.mp isSource
          obtain ⟨suffix, rfl⟩ := of_decide_eq_true beneath
          rw [List.drop_left] at same
          exact List.append_cancel_left same ▸ isPath
      · intro isPath
        refine Or.inr (List.mem_map.mpr ⟨oldPath ++ rest, List.mem_filter.mpr ⟨isPath, ?_⟩, ?_⟩)
        · exact decide_eq_true (List.prefix_append oldPath rest)
        · rw [List.drop_left]
    · rw [if_neg isNew]
      have notMoved : other ∉ (tree.paths.filter fun other => oldPath <+: other).map fun other =>
          newPath ++ other.drop oldPath.length := by
        intro isMoved
        obtain ⟨source, -, rfl⟩ := List.mem_map.mp isMoved
        exact isNew (List.prefix_append _ _)
      by_cases isOld : oldPath <+: other
      · simp [isOld, notMoved]
      · simp [isOld, isNew, notMoved, tree.mem_paths]
  root := by
    have apart : ¬ oldPath <+: [] := by
      intro isPrefix
      exact notInside (List.prefix_nil.mp isPrefix ▸ List.nil_prefix)
    rw [if_neg fun isPrefix => notRoot (List.prefix_nil.mp isPrefix), if_neg apart, tree.root]
  parent := by
    intro other name present
    by_cases isNew : newPath <+: other
    · rw [if_pos (isNew.trans (List.prefix_append other [name]))] at present
      rw [if_pos isNew]
      obtain ⟨rest, rfl⟩ := isNew
      rw [List.append_assoc, List.drop_left] at present
      rw [List.drop_left]
      exact tree.parent (oldPath ++ rest) name (by rwa [List.append_assoc])
    · rw [if_neg isNew]
      by_cases isPlace : newPath <+: other ++ [name]
      · have isSame : newPath = other ++ [name] :=
          (List.prefix_concat_iff.mp isPlace).resolve_right isNew
        subst isSame
        rw [List.dropLast_concat] at inDirectory
        rw [if_neg fun beneath => notInside (beneath.trans (List.prefix_append other [name])),
          inDirectory]
      · rw [if_neg isPlace] at present
        have apart : ¬ oldPath <+: other ++ [name] := by
          intro beneath
          exact present (if_pos beneath)
        rw [if_neg apart] at present
        rw [if_neg fun beneath => apart (beneath.trans (List.prefix_append other [name]))]
        exact tree.parent other name present

/-- The names in a directory. -/
def readdir (tree : FileTree Content) (path : Path) : List String :=
  tree.paths.filterMap fun other =>
    if path <+: other then
      match other.drop path.length with
      | [name] => some name
      | _ => none
    else none

/-- `renameSync`. -/
def rename [DecidableEq Content] (tree : FileTree Content)
    (oldPath newPath : Path) : Except FileError (FileTree Content) :=
  match tree.find oldPath with
  | none => .error .enoent
  | some source =>
    if oldPath = newPath then .ok tree
    else if notInside : oldPath <+: newPath then .error .einval
    else if notRoot : newPath = [] then .error .ebusy
    else if inDirectory : tree.find newPath.dropLast = some .directory then
      let result := tree.moved oldPath newPath notRoot notInside inDirectory
      match source, tree.find newPath with
      | _, none => .ok result
      | .directory, some .directory =>
        if tree.readdir newPath = [] then .ok result else .error .enotempty
      | .directory, some _ => .error .enotdir
      | _, some .directory => .error .eisdir
      | _, some _ => .ok result
    else if tree.find newPath.dropLast = none then .error .enoent
    else .error .enotdir

theorem rename_eq_ok [DecidableEq Content] (present : tree.find oldPath ≠ none)
    (absent : tree.find newPath = none) (notInside : ¬ oldPath <+: newPath)
    (inDirectory : tree.find newPath.dropLast = some .directory) :
    tree.rename oldPath newPath =
      .ok (tree.moved oldPath newPath notRoot notInside inDirectory) := by
  have apart : oldPath ≠ newPath := by
    rintro rfl
    exact notInside List.prefix_rfl
  rw [rename]
  split
  · rename_i missing
    exact absurd missing present
  · rw [if_neg apart, dif_neg notInside, dif_neg notRoot, dif_pos inDirectory]
    simp [absent]

/-- Renaming a path to itself changes nothing; otherwise the subtree is in its new place. -/
theorem find_of_rename [DecidableEq Content] (renamed : tree.rename oldPath newPath = .ok next) :
    next = tree ∨ ∀ other, next.find other =
      if newPath <+: other then tree.find (oldPath ++ other.drop newPath.length)
      else if oldPath <+: other then none else tree.find other := by
  rw [rename] at renamed
  split at renamed
  · cases renamed
  · split at renamed
    · cases renamed
      exact Or.inl rfl
    · split at renamed
      · cases renamed
      · split at renamed
        · cases renamed
        · split at renamed
          · refine Or.inr fun other => ?_
            split at renamed
            · cases renamed
              rfl
            · split at renamed
              · cases renamed
                rfl
              · cases renamed
            · cases renamed
            · cases renamed
            · cases renamed
              rfl
          · split at renamed <;> cases renamed

theorem rename_eq_error [DecidableEq Content] (absent : tree.find oldPath = none) :
    tree.rename oldPath newPath = .error .enoent := by
  simp [rename, absent]

variable (tree : FileTree Content)

/-- The longest path bounds the depth of the tree. -/
def height : Nat :=
  (tree.paths.map List.length).foldr max 0

theorem length_le_height (present : tree.find path ≠ none) : path.length ≤ tree.height := by
  have bound : ∀ lengths : List Nat, ∀ length ∈ lengths, length ≤ lengths.foldr max 0 := by
    intro lengths length isLength
    induction lengths with
    | nil => exact absurd isLength List.not_mem_nil
    | cons first others ih =>
      rcases List.mem_cons.mp isLength with rfl | isOther
      · exact Nat.le_max_left _ _
      · exact (ih isOther).trans (Nat.le_max_right _ _)
  exact bound _ _ (List.mem_map_of_mem ((tree.mem_paths path).mpr present))

theorem mem_readdir (present : tree.find (path ++ [name]) ≠ none) : name ∈ tree.readdir path := by
  refine List.mem_filterMap.mpr ⟨path ++ [name], (tree.mem_paths _).mpr present, ?_⟩
  rw [if_pos (List.prefix_append path [name]), List.drop_left]

end FileTree

end OpenAgent.Library
