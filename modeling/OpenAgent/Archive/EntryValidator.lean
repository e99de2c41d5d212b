import Mathlib.Data.List.Infix
import OpenAgent.Memory.MemoryPath

/-!
# Entries of an archive

`validateArchiveEntries` resolves the paths of the entries by their text, with the path
functions of a POSIX system, while extraction follows the symbolic links that earlier
entries made.  An accepted text has no `..` segment, so a link leads further down, and
every path that extraction touches lies under the destination.
-/

namespace OpenAgent.Archive

open Library Memory

/-- The kinds of archive entries. -/
inductive EntryType
  | file
  | directory
  | symlink
  | hardlink
  deriving DecidableEq

structure ArchiveEntry where
  path : Text
  type : EntryType
  linkPath : Option Text

def normalizeArchivePath (filePath : Text) : Text :=
  filePath.map fun char => if char = backslash then slash else char

def containsTraversalSegment (filePath : Text) : Bool :=
  (splitSlashes (normalizeArchivePath filePath)).any fun segment => segment = text ".."

/-- The test of a drive meets no backslash here. -/
def isArchiveAbsolutePath (filePath : Text) : Bool :=
  let normalizedPath := normalizeArchivePath filePath
  normalizedPath.head? = some slash || isWindowsAbsolute normalizedPath ||
    (text "//").isPrefixOf normalizedPath

def escapesDirectory (rootDir candidatePath : List Text) : Bool :=
  let relative := relativePath rootDir candidatePath
  relative = text ".." || (text "../").isPrefixOf relative || relative.head? = some slash

/-- The message of an error about a path or the text of a link. -/
def unsafeEntry (errorLabel problem filePath : Text) : Text :=
  text "Unsafe archive entry: " ++ errorLabel ++ text " " ++ problem ++ text " (" ++ filePath ++
    text ")"

def resolveContainedPath (rootDir : List Text)
    (filePath errorLabel : Text) : Except Text (List Text) :=
  let normalizedPath := normalizeArchivePath filePath
  let resolvedPath := resolvePathSegments rootDir normalizedPath
  if isArchiveAbsolutePath normalizedPath then
    .error (unsafeEntry errorLabel (text "uses an absolute path") filePath)
  else if containsTraversalSegment normalizedPath then
    .error (unsafeEntry errorLabel (text "contains path traversal") filePath)
  else if escapesDirectory rootDir resolvedPath then
    .error (unsafeEntry errorLabel (text "contains path traversal") filePath)
  else .ok resolvedPath

/-- The checks of the text of a link. -/
def validateLinkPath (resolvedDestDir resolvedEntryPath : List Text)
    (linkPath linkTypeLabel : Text) : Except Text Unit :=
  let normalizedLinkPath := normalizeArchivePath linkPath
  if isArchiveAbsolutePath normalizedLinkPath then
    .error (unsafeEntry linkTypeLabel (text "uses an absolute path") linkPath)
  else if containsTraversalSegment normalizedLinkPath then
    .error (unsafeEntry linkTypeLabel (text "contains path traversal") linkPath)
  else if escapesDirectory resolvedDestDir
      (resolvePathSegments resolvedEntryPath.dropLast normalizedLinkPath) then
    .error (unsafeEntry linkTypeLabel (text "escapes extraction directory") linkPath)
  else .ok ()

/-- One turn of the loop; an empty text of a link counts as missing. -/
def validateArchiveEntry (resolvedDestDir : List Text) (entry : ArchiveEntry) : Except Text Unit :=
  match resolveContainedPath resolvedDestDir entry.path (text "path") with
  | .error message => .error message
  | .ok resolvedEntryPath =>
    let isSymlink : Bool := entry.type = .symlink
    if !isSymlink && entry.type ≠ .hardlink then .ok ()
    else if (entry.linkPath.getD []).isEmpty then
      .error (text "Unsafe archive entry: " ++ text (if isSymlink then "symlink" else "hard link") ++
        text " target missing for " ++ entry.path)
    else
      validateLinkPath resolvedDestDir resolvedEntryPath (entry.linkPath.getD [])
        (text (if isSymlink then "symlink target" else "hard link target"))

/-- `validateArchiveEntries`, run in a working directory. -/
def validateArchiveEntries (workingDirectory : List Text) (entries : List ArchiveEntry)
    (destDir : Text) : Except Text Unit :=
  entries.forM (validateArchiveEntry (resolvePathSegments workingDirectory destDir))

/-! ### Extraction -/

/-- What stands at a path on disk. -/
inductive DiskNode
  | file
  | directory
  | symlink (linkText : Text)
  deriving DecidableEq

abbrev Disk := List Text → Option DiskNode

/-- Where a path leads from a directory, in at most so many steps. -/
def follow (disk : Disk) (followsLast : Bool) :
    Nat → List Text → List Text → Option (List Text)
  | _, directory, [] => some directory
  | 0, _, _ :: _ => none
  | steps + 1, directory, segment :: rest =>
    if segment.isEmpty || segment = text "." then follow disk followsLast steps directory rest
    else if segment = text ".." then follow disk followsLast steps directory.dropLast rest
    else
      match disk (directory ++ [segment]) with
      | some (.symlink linkText) =>
        if followsLast || !rest.isEmpty then
          follow disk followsLast steps
            (if linkText.head? = some slash then [] else directory)
            (splitSlashes linkText ++ rest)
        else some (directory ++ [segment])
      | _ => follow disk followsLast steps (directory ++ [segment]) rest

/-- The disk and the paths that were created, written or linked to. -/
structure Extraction where
  disk : Disk
  touched : List (List Text)

def Extraction.touch (extraction : Extraction) (path : List Text) : Extraction :=
  { extraction with touched := path :: extraction.touched }

def Extraction.put (extraction : Extraction) (path : List Text) (node : DiskNode) : Extraction :=
  { extraction.touch path with disk := Function.update extraction.disk path (some node) }

/-- What extractors do differently. -/
structure Extractor where
  /-- No path is followed for longer. -/
  steps : Nat
  /-- The target of a hard link is looked up from the destination, not beside the link. -/
  fromDestDir : ArchiveEntry → Bool
  /-- A hard link to a symbolic link is one to what that leads to. -/
  followsTarget : Bool

namespace Extractor

variable (extractor : Extractor)

/-- Directories that are missing on the way are made. -/
def makeDirectories (root segments : List Text) (extraction : Extraction) : Extraction :=
  segments.inits.foldl
    (fun extraction front =>
      match follow extraction.disk true extractor.steps root front with
      | none => extraction
      | some path =>
        if (extraction.disk path).isSome then extraction else extraction.put path .directory)
    extraction

/-- One entry; a file or a link does not replace a directory. -/
def extractEntry (root : List Text) (extraction : Extraction) (entry : ArchiveEntry) : Extraction :=
  let segments := splitSlashes entry.path
  let linkText := entry.linkPath.getD []
  let ready := extractor.makeDirectories root segments.dropLast extraction
  let place := (follow ready.disk (entry.type = .file) extractor.steps root segments).filter
    fun path => ready.disk path ≠ some .directory
  match entry.type, place with
  | .directory, _ => extractor.makeDirectories root segments extraction
  | _, none => ready
  | .file, some path => ready.put path .file
  | .symlink, some path =>
    let linked := ready.put path (.symlink linkText)
    match follow linked.disk true extractor.steps path.dropLast (splitSlashes linkText) with
    | none => linked
    | some target => linked.touch target
  | .hardlink, some path =>
    match follow ready.disk extractor.followsTarget extractor.steps
        (if extractor.fromDestDir entry then root else path.dropLast) (splitSlashes linkText) with
    | none => ready
    | some target =>
      match ready.disk target with
      | none | some .directory => ready
      | some node => (ready.put path node).touch target

def extractEntries (root : List Text) (entries : List ArchiveEntry) (extraction : Extraction) :
    Extraction :=
  entries.foldl (extractor.extractEntry root) extraction

end Extractor


/-! ### Accepted texts lead downwards -/

/-- A text without a `..` segment that does not start at the root. -/
def Downward (linkText : Text) : Prop :=
  linkText.head? ≠ some slash ∧ text ".." ∉ splitSlashes linkText

/-- A segment without backslashes stays one when backslashes become separators. -/
theorem segment_normalized {segment} (plain : backslash ∉ segment) :
    ((splitSlashes filePath).head? = some segment →
      (splitSlashes (normalizeArchivePath filePath)).head? = some segment) ∧
    (segment ∈ (splitSlashes filePath).tail →
      segment ∈ (splitSlashes (normalizeArchivePath filePath)).tail) := by
  induction filePath generalizing segment with
  | nil => exact ⟨id, id⟩
  | cons char rest ih =>
    obtain ⟨first, others, split⟩ :=
      List.exists_cons_of_ne_nil (List.splitOn_ne_nil slash rest)
    obtain ⟨newFirst, newOthers, newSplit⟩ :=
      List.exists_cons_of_ne_nil (List.splitOn_ne_nil slash (normalizeArchivePath rest))
    simp only [splitSlashes, split, newSplit, List.head?_cons, Option.some.injEq,
      List.tail_cons] at ih
    have normalized : normalizeArchivePath (char :: rest) =
        (if char = backslash then slash else char) :: normalizeArchivePath rest := rfl
    have inRest : segment ∈ first :: others → segment ∈ newFirst :: newOthers := by
      intro member
      rcases List.mem_cons.mp member with rfl | isOther
      · exact List.mem_cons.mpr (.inl ((ih plain).1 rfl).symm)
      · exact List.mem_cons_of_mem _ ((ih plain).2 isOther)
    rw [normalized]
    simp only [splitSlashes, List.splitOn_cons_eq_if_modifyHead, split, newSplit]
    by_cases isSlash : char = slash
    · subst isSlash
      simpa [show slash ≠ backslash by decide] using inRest
    by_cases isBackslash : char = backslash
    · subst isBackslash
      simp only [beq_iff_eq, isSlash, if_false, List.modifyHead_cons, List.head?_cons,
        Option.some.injEq, List.tail_cons, if_true]
      refine ⟨fun isSegment => absurd ?_ plain, fun isOther => inRest (.tail _ isOther)⟩
      rw [← isSegment]
      exact List.mem_cons_self
    · simp only [beq_iff_eq, isSlash, isBackslash, if_false, List.modifyHead_cons,
        List.head?_cons, Option.some.injEq, List.tail_cons]
      refine ⟨?_, (ih plain).2⟩
      rintro rfl
      rw [(ih fun member => plain (.tail _ member)).1 rfl]

theorem dots_normalized (member : text ".." ∈ splitSlashes filePath) :
    text ".." ∈ splitSlashes (normalizeArchivePath filePath) := by
  obtain ⟨stays, staysBehind⟩ := segment_normalized (show backslash ∉ text ".." by decide)
  obtain ⟨first, others, split⟩ := List.exists_cons_of_ne_nil (List.splitOn_ne_nil slash filePath)
  rw [show splitSlashes filePath = first :: others from split] at member stays staysBehind
  rcases List.mem_cons.mp member with isFirst | isOther
  · exact List.mem_of_mem_head? (stays (by rw [isFirst]; rfl))
  · exact List.mem_of_mem_tail (staysBehind isOther)

theorem not_mem_dots (accepted : ¬containsTraversalSegment (normalizeArchivePath filePath) = true) :
    text ".." ∉ splitSlashes filePath := by
  intro member
  rw [containsTraversalSegment, List.any_eq_true] at accepted
  exact accepted ⟨_, dots_normalized (dots_normalized member), decide_eq_true rfl⟩

theorem downward_of_validateLinkPath
    (accepted : validateLinkPath resolvedDestDir resolvedEntryPath linkPath linkTypeLabel = .ok ()) :
    Downward linkPath := by
  revert accepted
  fun_cases validateLinkPath resolvedDestDir resolvedEntryPath linkPath linkTypeLabel <;>
    rintro ⟨⟩
  case case4 relative onPath _ =>
    refine ⟨fun isRoot => relative ?_, not_mem_dots onPath⟩
    have isHead : (normalizeArchivePath (normalizeArchivePath linkPath)).head? = some slash := by
      simp only [normalizeArchivePath, List.head?_map, isRoot]
      rfl
    rw [isArchiveAbsolutePath, isHead]
    rfl

theorem not_mem_dots_of_resolveContainedPath
    (accepted : resolveContainedPath rootDir filePath errorLabel = .ok resolvedPath) :
    text ".." ∉ splitSlashes filePath := by
  revert accepted
  fun_cases resolveContainedPath rootDir filePath errorLabel <;> intro accepted
  case case4 onPath _ => exact not_mem_dots onPath
  all_goals cases accepted

/-- An accepted entry has a path without `..`, and a link of it leads downwards. -/
theorem validateArchiveEntry_spec (accepted : validateArchiveEntry resolvedDestDir entry = .ok ()) :
    text ".." ∉ splitSlashes entry.path ∧
      (entry.type = .symlink ∨ entry.type = .hardlink → Downward (entry.linkPath.getD [])) := by
  revert accepted
  fun_cases validateArchiveEntry resolvedDestDir entry <;> intro accepted
  case case1 | case3 => cases accepted
  case case2 resolved isSymlink isPlain =>
    refine ⟨not_mem_dots_of_resolveContainedPath resolved, fun isLink => ?_⟩
    rcases isLink with isLink | isLink <;> simp [isSymlink, isLink] at isPlain
  case case4 resolved isSymlink _ _ =>
    exact ⟨not_mem_dots_of_resolveContainedPath resolved,
      fun _ => downward_of_validateLinkPath accepted⟩

/-! ### Extraction stays under the destination -/

/-- Every link under the destination leads downwards, and nothing outside was touched. -/
structure Contained (root : List Text) (extraction : Extraction) : Prop where
  isDirectory : extraction.disk root = some .directory
  links : ∀ path linkText, root <+: path → extraction.disk path = some (.symlink linkText) →
    Downward linkText
  touched : ∀ path ∈ extraction.touched, root <+: path

namespace Contained

variable (contained : Contained root extraction)
include contained

theorem follow (inside : root <+: directory) (onPath : text ".." ∉ segments)
    (followed : Archive.follow extraction.disk followsLast steps directory segments = some path) :
    root <+: path := by
  revert inside onPath followed
  fun_induction Archive.follow extraction.disk followsLast steps directory segments with
  | case1 =>
    rintro inside - ⟨⟩
    exact inside
  | case2 => rintro - - ⟨⟩
  | case3 steps directory segment rest _ ih =>
    exact fun inside onPath => ih inside fun isDots => onPath (.tail _ isDots)
  | case4 => exact fun _ onPath => absurd List.mem_cons_self onPath
  | case5 steps directory segment rest _ _ linkText isLink _ ih =>
    intro inside onPath
    obtain ⟨relative, onLink⟩ :=
      contained.links _ linkText (inside.trans (List.prefix_append ..)) isLink
    rw [if_neg relative] at ih ⊢
    refine ih inside fun isDots => ?_
    rcases List.mem_append.mp isDots with isDots | isDots
    · exact onLink isDots
    · exact onPath (.tail _ isDots)
  | case6 =>
    rintro inside - ⟨⟩
    exact inside.trans (List.prefix_append ..)
  | case7 steps directory segment rest _ _ _ ih =>
    exact fun inside onPath =>
      ih (inside.trans (List.prefix_append ..)) fun isDots => onPath (.tail _ isDots)

theorem touch (inside : root <+: path) : Contained root (extraction.touch path) where
  isDirectory := contained.isDirectory
  links := contained.links
  touched := List.forall_mem_cons.mpr ⟨inside, contained.touched⟩

theorem put (inside : root <+: path) (free : extraction.disk path ≠ some .directory)
    (downward : ∀ linkText, node = .symlink linkText → Downward linkText) :
    Contained root (extraction.put path node) where
  isDirectory := by
    have differs : root ≠ path := fun same => free (same ▸ contained.isDirectory)
    exact (Function.update_of_ne differs ..).trans contained.isDirectory
  links := by
    intro other linkText isInside isLink
    change Function.update extraction.disk path (some node) other = _ at isLink
    by_cases same : other = path
    · rw [same, Function.update_self] at isLink
      exact downward linkText (Option.some.inj isLink)
    · rw [Function.update_of_ne same] at isLink
      exact contained.links other linkText isInside isLink
  touched := (contained.touch inside).touched

variable (extractor : Extractor)

theorem makeDirectories (onPath : text ".." ∉ segments) :
    Contained root (extractor.makeDirectories root segments extraction) := by
  have onFronts : ∀ front ∈ segments.inits, text ".." ∉ front :=
    fun front isFront isDots => onPath ((List.mem_inits front segments).mp isFront |>.mem isDots)
  unfold Extractor.makeDirectories
  generalize segments.inits = fronts at onFronts
  induction fronts generalizing extraction with
  | nil => exact contained
  | cons front rest ih =>
    obtain ⟨onFront, onRest⟩ := List.forall_mem_cons.mp onFronts
    refine ih ?_ onRest
    dsimp only
    split
    next => exact contained
    next path followed =>
      split
      next => exact contained
      next isMissing =>
        have inside := contained.follow (List.prefix_refl root) onFront followed
        exact contained.put inside (fun isThere => isMissing (by rw [isThere]; rfl)) nofun

theorem beside (inside : root <+: path) (free : extraction.disk path ≠ some .directory) :
    root <+: path.dropLast := by
  obtain ⟨others, rfl⟩ := inside
  rcases List.eq_nil_or_concat others with rfl | ⟨others, last, rfl⟩
  · rw [List.append_nil] at free
    exact absurd contained.isDirectory free
  · rw [List.concat_eq_append, ← List.append_assoc, List.dropLast_concat]
    exact List.prefix_append ..

theorem located (onPath : text ".." ∉ segments)
    (isPlace : ((Archive.follow extraction.disk follows steps root segments).filter fun path =>
      extraction.disk path ≠ some .directory) = some path) :
    root <+: path ∧ extraction.disk path ≠ some .directory := by
  obtain ⟨followed, free⟩ := Option.filter_eq_some_iff.mp isPlace
  exact ⟨contained.follow (List.prefix_refl root) onPath followed, of_decide_eq_true free⟩

theorem extractEntry (accepted : validateArchiveEntry resolvedDestDir entry = .ok ()) :
    Contained root (extractor.extractEntry root extraction entry) := by
  obtain ⟨onPath, downward⟩ := validateArchiveEntry_spec accepted
  have ready := contained.makeDirectories extractor
    (fun isDots => onPath (List.mem_of_mem_dropLast isDots) :
      text ".." ∉ (splitSlashes entry.path).dropLast)
  fun_cases extractor.extractEntry root extraction entry
  case case1 => exact contained.makeDirectories extractor onPath
  case case2 | case6 | case7 | case8 => exact ready
  case case3 path isPlace _ =>
    obtain ⟨inside, free⟩ := ready.located onPath isPlace
    exact ready.put inside free nofun
  case case4 path isPlace isLink linked _ =>
    obtain ⟨inside, free⟩ := ready.located onPath isPlace
    refine ready.put inside free ?_
    rintro _ ⟨⟩
    exact downward (.inl isLink)
  case case5 path isPlace isLink linked target leads =>
    obtain ⟨inside, free⟩ := ready.located onPath isPlace
    have isLinked : Contained root linked := by
      refine ready.put inside free ?_
      rintro _ ⟨⟩
      exact downward (.inl isLink)
    exact isLinked.touch
      (isLinked.follow (ready.beside inside free) (downward (.inl isLink)).2 leads)
  case case9 path isPlace _ target leads node _ isNode =>
    obtain ⟨inside, free⟩ := ready.located onPath isPlace
    have isInside : root <+: target := by
      refine ready.follow ?_ (downward (.inr ‹_›)).2 leads
      split
      · exact List.prefix_refl root
      · exact ready.beside inside free
    refine (ready.put inside free ?_).touch isInside
    rintro linkText rfl
    exact ready.links target linkText isInside isNode

end Contained

/-- Extraction of accepted entries touches no path outside the destination, whatever lies
beside it and however an extractor follows paths. -/
theorem extractEntries_contained
    (accepted : validateArchiveEntries workingDirectory entries destDir = .ok ())
    (extractor : Extractor) (root : List Text) (disk : Disk)
    (isDirectory : disk root = some .directory)
    (isEmpty : ∀ path, root <+: path → path ≠ root → disk path = none) :
    ∀ path ∈ (extractor.extractEntries root entries ⟨disk, []⟩).touched, root <+: path := by
  have start : Contained root ⟨disk, []⟩ := by
    refine ⟨isDirectory, ?_, nofun⟩
    intro path linkText inside isLink
    by_cases isRoot : path = root
    · rw [isRoot] at isLink
      cases isLink.symm.trans isDirectory
    · cases isLink.symm.trans (isEmpty path inside isRoot)
  suffices contained : Contained root (extractor.extractEntries root entries ⟨disk, []⟩) from
    contained.touched
  rw [validateArchiveEntries, List.forM_eq_forM] at accepted
  generalize (⟨disk, []⟩ : Extraction) = extraction at start
  induction entries generalizing extraction with
  | nil => exact start
  | cons entry rest ih =>
    rw [List.forM_cons] at accepted
    cases isAccepted : validateArchiveEntry (resolvePathSegments workingDirectory destDir) entry with
    | error message =>
      rw [isAccepted] at accepted
      cases accepted
    | ok =>
      rw [isAccepted] at accepted
      exact ih accepted _ (start.extractEntry extractor isAccepted)

/-- A link to a directory, a file through it and a hard link to that file. -/
theorem extractEntries_contained_links :
    ∃ disk, Extractor.extractEntries ⟨10, fun _ => true, false⟩ [text "out"]
        [⟨text "link", .symlink, some (text "sub/dir")⟩, ⟨text "link/file", .file, none⟩,
          ⟨text "copy", .hardlink, some (text "link/file")⟩]
        ⟨fun path => if path = [text "out"] then some .directory else none, []⟩ = disk ∧
      ∀ path ∈ disk.touched, [text "out"] <+: path :=
  ⟨_, rfl, @extractEntries_contained [] _ (text "/out") (by decide +kernel) _ _ _ rfl
    fun _ _ differs => if_neg differs⟩

end OpenAgent.Archive
