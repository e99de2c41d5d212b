import OpenAgent.Library.Execution
import OpenAgent.Lsp.WorkspaceCommit

/-!
# A commit refines its simulation

The virtual files of a simulation stand for a file tree: where they have no entry, what
the snapshots do not cover is still as it was.  Each simulated operation and the file
operation that a commit makes of it keep the two in step, except for the operations that
the files refuse and for names that the simulation does not find beneath a path.  What the
files hold besides is their bytes, of which a simulation sees no more than a text.
-/

namespace OpenAgent.Lsp

open Library

variable {tree : WorkspaceTree} {virtual snapshots : Snapshots}

/-! ## What stands at a path -/

/-- What a reader sees of what stands at a path. -/
def shownNode : Option (FileNode FileContent) → Option (FileNode Text)
  | none => none
  | some (.file content) => some (.file content.text)
  | some .directory => some .directory
  | some .other => some .other

section

variable (tree : WorkspaceTree)

/-- What a tree shows to a reader. -/
def shownTree (path : Path) : Option (FileNode Text) :=
  shownNode (tree.find path)

def WorkspaceSnapshotEntry.shown : WorkspaceSnapshotEntry → Option (FileNode Text)
  | .missing => none
  | .file content => some (.file content)
  | .directory _ => some .directory

/-- The tree that virtual files stand for. -/
def virtualTree (snapshots virtual : Snapshots) (path : Path) : Option (FileNode Text) :=
  match mapGet virtual path with
  | some entry => entry.shown
  | none => if (mapGet snapshots path).isSome then none else shownTree tree path

/-- Unless it is cancelled before it writes, a commit succeeds, leaves the virtual tree,
and leaves what that tree has unchanged. -/
def CommitRefines (plan : WorkspaceEditPlan) (virtual : Snapshots) : Prop :=
  ∀ signal : AbortSignal, signal 0 = false → signal 1 = false →
    (commitWorkspaceEditPlan tree plan signal).1.result.success = true ∧
      (∀ path, shownTree (commitWorkspaceEditPlan tree plan signal).2 path =
        virtualTree tree plan.snapshots virtual path) ∧
      ∀ path, virtualTree tree plan.snapshots virtual path = shownTree tree path →
        (commitWorkspaceEditPlan tree plan signal).2.find path = tree.find path

end

/-! ## The conditions -/

section

variable (virtual : Snapshots)

/-- What the simulation takes to be in the subtree of a path is what is there. -/
def SubtreeRecognized (path : Path) : Prop :=
  ∀ entry ∈ virtual, entry.2 ≠ .missing → path <+: entry.1 → isSameOrDescendant entry.1 path = true
  deriving Decidable

/-- The names that a rename or delete meets are recognized. -/
def NamesRecognized : ParsedWorkspaceOperation → Prop
  | .text .. => True
  | .create .. => True
  | .rename _ oldPath newPath .. =>
    SubtreeRecognized virtual oldPath ∧ SubtreeRecognized virtual newPath ∧
      (oldPath <+: newPath → isSameOrDescendant newPath oldPath = true)
  | .delete _ path .. => SubtreeRecognized virtual path

instance decidableNamesRecognized : DecidablePred (NamesRecognized virtual) := by
  intro label
  unfold NamesRecognized
  split <;> infer_instance

section

variable (operation : ParsedWorkspaceOperation)

def nextVirtual : Option Snapshots :=
  match simulateOperation virtual operation with
  | .ok simulated => some simulated.2
  | .error _ => none

/-- Whether there is anything to do for an operation. -/
def isPerformed : Bool :=
  match simulateOperation virtual operation with
  | .ok (.noop _, _) => false
  | .ok _ => true
  | .error _ => false

end

section

variable (operations : List ParsedWorkspaceOperation)

/-- Every operation meets names that are recognized where it is simulated. -/
def WellNamed : Prop :=
  EveryStep nextVirtual
    (fun virtual operation _ =>
      isPerformed virtual operation = true → NamesRecognized virtual operation)
    virtual operations

instance decidableWellNamed : Decidable (WellNamed virtual operations) :=
  inferInstanceAs (Decidable (EveryStep nextVirtual
    (fun virtual operation _ =>
      isPerformed virtual operation = true → NamesRecognized virtual operation)
    virtual operations))

end

/-- What the files accept: no rename puts an entry in the place of a directory it is in,
and no directory is deleted but with all that is in it. -/
def Replayable : PlannedWorkspaceOperation → Prop
  | .rename _ oldPath newPath _ replaceDestination =>
    replaceDestination = true → ¬ newPath <+: oldPath
  | .delete _ path targetKind recursive =>
    path ≠ [] ∧ (targetKind = .directory → recursive = true)
  | _ => True

instance decidableReplayable : DecidablePred Replayable := by
  intro label
  unfold Replayable
  split <;> infer_instance

/-- UTF-8 can hold the text of an entry. -/
def WorkspaceSnapshotEntry.Writable : WorkspaceSnapshotEntry → Prop
  | .file content => toWellFormed content = content
  | _ => True

instance decidableWritable : DecidablePred WorkspaceSnapshotEntry.Writable := by
  intro label
  unfold WorkspaceSnapshotEntry.Writable
  split <;> infer_instance

/-- No file is left with a text that cannot be written. -/
def TextsWellFormed : Prop :=
  ∀ entry ∈ virtual, entry.2.Writable
  deriving Decidable

end

/-- Where a file comes from that an operation leaves at a path; nowhere, when it is written. -/
def placedFrom : PlannedWorkspaceOperation → Path → Option Path
  | .text _ changed .., path => if path = changed then none else some path
  | .create _ created _, path => if path = created then none else some path
  | .rename _ oldPath newPath .., path =>
    some (if newPath <+: path then oldPath ++ path.drop newPath.length else path)
  | .delete .., path => some path
  | .noop _, path => some path

/-- Where a file was at the start that stands at a path behind all operations, unless one of
them wrote it. -/
def origin (operations : List PlannedWorkspaceOperation) (path : Path) : Option Path :=
  operations.foldr (fun operation source => source.bind (placedFrom operation)) (some path)

/-- A file that shows the same text at the end as at the start has kept its bytes: a written
one had the bytes of the text, and one from elsewhere has the bytes of the one before it. -/
def BytesKept (tree : WorkspaceTree) (operations : List PlannedWorkspaceOperation) :
    Path × WorkspaceSnapshotEntry → Prop
  | (path, .file content) =>
    shownTree tree path = some (.file content) →
      tree.find path =
        match origin operations path with
        | some source => tree.find source
        | none => some (.file (.ofText content))
  | _ => True

instance decidableBytesKept (tree : WorkspaceTree) (operations : List PlannedWorkspaceOperation) :
    DecidablePred (BytesKept tree operations) := by
  intro label
  unfold BytesKept
  split <;> infer_instance

/-! ## Snapshots -/

variable {before middle after : Snapshots} {workspaceRoot path : Path}

section

variable (tree : WorkspaceTree)

/-- The snapshots are what the tree shows. -/
structure Faithful (snapshots : Snapshots) : Prop where
  unique : (snapshots.map Prod.fst).Nodup
  taken : ∀ entry ∈ snapshots, ∃ includeChildren,
    snapshotPath tree entry.1 includeChildren = .ok entry.2

/-- What is in the subtree of a path has a snapshot. -/
def Covers (snapshots : Snapshots) (path : Path) : Prop :=
  ∀ other, path <+: other → tree.find other ≠ none → (mapGet snapshots other).isSome

/-- Later snapshots are as faithful as earlier ones and lose none of them. -/
structure Extends (before after : Snapshots) : Prop where
  faithful : Faithful tree before → Faithful tree after
  keeps : ∀ path, (mapGet before path).isSome → (mapGet after path).isSome

end

namespace Extends

theorem refl (tree : WorkspaceTree) (snapshots : Snapshots) : Extends tree snapshots snapshots :=
  ⟨id, fun _ present => present⟩

theorem trans (first : Extends tree before middle)
    (second : Extends tree middle after) : Extends tree before after :=
  ⟨fun faithful => second.faithful (first.faithful faithful),
    fun path present => second.keeps path (first.keeps path present)⟩

/-- A loop extends the snapshots when each of its passes does. -/
theorem foldlM {next : Snapshots → α → Except ε Snapshots}
    (passes : ∀ before value after, next before value = .ok after → Extends tree before after)
    {values : List α} (passed : values.foldlM next before = .ok after) :
    Extends tree before after := by
  induction values generalizing before with
  | nil =>
    cases passed
    exact refl tree _
  | cons value values ih =>
    obtain ⟨middle, first, rest⟩ := foldlM_cons_eq_ok.mp passed
    exact (passes before value middle first).trans (ih rest)

/-- What the pass for one value reaches is still there at the end of the loop. -/
theorem of_mem {next : Snapshots → α → Except ε Snapshots}
    (passes : ∀ before value after, next before value = .ok after → Extends tree before after)
    {values : List α} (passed : values.foldlM next before = .ok after) (isValue : value ∈ values) :
    ∃ first second, next first value = .ok second ∧ Extends tree second after := by
  induction values generalizing before with
  | nil => cases isValue
  | cons head values ih =>
    obtain ⟨middle, first, rest⟩ := foldlM_cons_eq_ok.mp passed
    rcases List.mem_cons.mp isValue with rfl | isLater
    · exact ⟨before, middle, first, foldlM passes rest⟩
    · exact ih rest isLater

end Extends

variable {includeChildren : Bool}

theorem addCandidate_spec
    (added : addCandidate tree path includeChildren before candidate = .ok after) :
    Extends tree before after ∧ (mapGet after candidate).isSome := by
  rw [addCandidate] at added
  split at added
  · obtain ⟨entry, isEntry, isAfter⟩ := bind_eq_ok.mp added
    cases isAfter
    refine ⟨⟨?_, ?_⟩, by simp [mapGet_mapSet]⟩
    · intro faithful
      refine ⟨nodup_keys_mapSet faithful.unique candidate entry, ?_⟩
      intro other isOther
      rcases eq_or_mem_of_mem_mapSet isOther with rfl | wasThere
      · exact ⟨_, isEntry⟩
      · exact faithful.taken other wasThere
    · intro other present
      rw [mapGet_mapSet]
      split
      · rfl
      · exact present
  · rename_i notWanted
    cases added
    refine ⟨Extends.refl tree before, ?_⟩
    rw [wantsEntry] at notWanted
    split at notWanted
    · exact absurd rfl notWanted
    · rename_i isEntry
      rw [isEntry]
      rfl
    · rename_i isEntry
      rw [isEntry]
      rfl

theorem addUpwards_spec
    (added : addUpwards tree workspaceRoot path includeChildren before = .ok after) :
    Extends tree before after ∧ (mapGet after path).isSome := by
  have passes : ∀ before value after,
      addCandidate tree path includeChildren before value = .ok after →
        Extends tree before after :=
    fun _ _ _ passed => (addCandidate_spec passed).1
  refine ⟨Extends.foldlM passes added, ?_⟩
  have isFirst : path ∈ upwards (path.length - workspaceRoot.length) path := by
    cases path.length - workspaceRoot.length <;> exact List.mem_cons_self
  obtain ⟨first, second, passed, later⟩ := Extends.of_mem passes added isFirst
  exact later.keeps path (addCandidate_spec passed).2

theorem addSnapshots_extends
    (added : addSnapshots tree workspaceRoot depth path includeChildren before = .ok after) :
    Extends tree before after ∧ (mapGet after path).isSome := by
  induction depth generalizing path includeChildren before after with
  | zero => exact addUpwards_spec added
  | succ depth ih =>
    obtain ⟨middle, first, rest⟩ := bind_eq_ok.mp added
    have isFirst := addUpwards_spec first
    split at rest
    · have later := Extends.foldlM (fun _ _ _ passed => (ih passed).1) rest
      exact ⟨isFirst.1.trans later, later.keeps path isFirst.2⟩
    · cases rest
      exact isFirst

/-- A snapshot with the children covers as many levels as it goes down. -/
theorem addSnapshots_covers
    (added : addSnapshots tree workspaceRoot depth path true before = .ok after)
    (inReach : rest.length ≤ depth) (present : tree.find (path ++ rest) ≠ none) :
    (mapGet after (path ++ rest)).isSome := by
  induction depth generalizing path before after rest with
  | zero =>
    obtain rfl := List.length_eq_zero_iff.mp (Nat.le_zero.mp inReach)
    rw [List.append_nil]
    exact (addSnapshots_extends added).2
  | succ depth ih =>
    cases rest with
    | nil =>
      rw [List.append_nil]
      exact (addSnapshots_extends added).2
    | cons name rest =>
      have isDirectory : tree.find path = some .directory :=
        tree.directory_above (List.cons_ne_nil name rest) present
      have childThere : tree.find (path ++ [name]) ≠ none := by
        intro absent
        apply present
        apply tree.find_beneath _ absent
        exact ⟨rest, by simp⟩
      obtain ⟨middle, first, later⟩ := bind_eq_ok.mp added
      rw [if_pos ⟨rfl, isDirectory⟩] at later
      obtain ⟨childBefore, childAfter, passed, kept⟩ := Extends.of_mem
        (fun _ _ _ passed => (addSnapshots_extends passed).1) later
        (tree.mem_readdir childThere)
      have covered := ih passed (Nat.le_of_succ_le_succ inReach) (by simpa using present)
      simpa using kept.keeps _ covered

/-- The paths of an operation have snapshots, and so has what moves with them. -/
def Snapped (tree : WorkspaceTree) (snapshots : Snapshots) : ParsedWorkspaceOperation → Prop
  | .text _ path .. => (mapGet snapshots path).isSome
  | .create _ path .. => (mapGet snapshots path).isSome
  | .rename _ oldPath newPath .. =>
    Covers tree snapshots oldPath ∧ Covers tree snapshots newPath ∧
      (mapGet snapshots newPath).isSome
  | .delete _ path .. => Covers tree snapshots path

theorem Covers.of_extends (covered : Covers tree before path)
    (extended : Extends tree before after) : Covers tree after path :=
  fun other beneath present => extended.keeps other (covered other beneath present)

theorem Snapped.of_extends (snapped : Snapped tree before operation)
    (extended : Extends tree before after) : Snapped tree after operation := by
  cases operation with
  | text | create => exact extended.keeps _ snapped
  | rename =>
    exact ⟨snapped.1.of_extends extended, snapped.2.1.of_extends extended,
      extended.keeps _ snapped.2.2⟩
  | delete => exact Covers.of_extends snapped extended

theorem covers_of_addSnapshots
    (added : addSnapshots tree workspaceRoot tree.height path true before = .ok after) :
    Covers tree after path := by
  rintro other ⟨rest, rfl⟩ present
  have bound := tree.length_le_height present
  rw [List.length_append] at bound
  exact addSnapshots_covers added (Nat.le_of_add_left_le bound) present

theorem snapshotOperation_spec
    (taken : snapshotOperation tree workspaceRoot before operation = .ok after) :
    Extends tree before after ∧ Snapped tree after operation := by
  cases operation with
  | text | create => exact addSnapshots_extends taken
  | rename =>
    obtain ⟨middle, first, second⟩ := bind_eq_ok.mp taken
    have later := addSnapshots_extends second
    exact ⟨(addSnapshots_extends first).1.trans later.1,
      (covers_of_addSnapshots first).of_extends later.1, covers_of_addSnapshots second,
      later.2⟩
  | delete => exact ⟨(addSnapshots_extends taken).1, covers_of_addSnapshots taken⟩

theorem snapshotOperations_spec
    (taken : snapshotOperations tree workspaceRoot operations = .ok snapshots) :
    Faithful tree snapshots ∧ ∀ operation ∈ operations, Snapped tree snapshots operation := by
  obtain ⟨rootAdded, first, rest⟩ := bind_eq_ok.mp taken
  have passes : ∀ before operation after,
      snapshotOperation tree workspaceRoot before operation = .ok after →
        Extends tree before after :=
    fun _ _ _ passed => (snapshotOperation_spec passed).1
  have empty : Faithful tree [] := ⟨List.nodup_nil, fun _ isEntry => absurd isEntry List.not_mem_nil⟩
  constructor
  · exact (Extends.foldlM passes rest).faithful ((addSnapshots_extends first).1.faithful empty)
  · intro operation isOperation
    obtain ⟨_, second, passed, later⟩ := Extends.of_mem passes rest isOperation
    exact (snapshotOperation_spec passed).2.of_extends later

variable {entry : WorkspaceSnapshotEntry}

theorem snapshotFailure_eq_none (taken : snapshotPath tree path includeChildren = .ok entry) :
    snapshotFailure tree path entry = none := by
  rw [snapshotPath] at taken
  split at taken
  · rename_i absent
    cases taken
    simp [snapshotFailure, liveSnapshot, snapshotPath, absent, snapshotsEqual]
  · rename_i content isFile
    cases taken
    simp [snapshotFailure, liveSnapshot, snapshotPath, isFile, snapshotsEqual]
  · rename_i isDirectory
    cases taken
    cases includeChildren <;>
      simp [snapshotFailure, liveSnapshot, snapshotPath, isDirectory, snapshotsEqual]
  · cases taken

theorem verifySnapshots_eq_none (faithful : Faithful tree plan.snapshots) :
    verifySnapshots tree plan = none := by
  refine List.findSome?_eq_none_iff.mpr fun entry isEntry => ?_
  obtain ⟨includeChildren, taken⟩ := faithful.taken entry isEntry
  rw [snapshotFailure_eq_none taken, Option.map_none]

/-! ## Subtrees of the virtual files -/

theorem mapGet_removeVirtualSubtree (virtual : Snapshots) (path other : Path) :
    mapGet (removeVirtualSubtree virtual path) other =
      if other = path then some .missing
      else if isSameOrDescendant other path then none else mapGet virtual other := by
  rw [removeVirtualSubtree, mapGet_mapSet, mapGet_filter virtual
    (fun key => !isSameOrDescendant key path) other]
  by_cases recognized : isSameOrDescendant other path = true <;> simp [recognized]

theorem nodup_removeVirtualSubtree (unique : (virtual.map Prod.fst).Nodup) (path : Path) :
    ((removeVirtualSubtree virtual path).map Prod.fst).Nodup :=
  nodup_keys_mapSet ((List.filter_sublist.map Prod.fst).nodup unique) path .missing

variable {entries base : Snapshots}

section

variable (rename : Path → Path)

theorem mapGet_foldl_mapSet (same : ∀ entry ∈ entries, rename entry.1 = key → entry.2 = value)
    (isSet : (∃ entry ∈ entries, rename entry.1 = key) ∨ mapGet base key = some value) :
    mapGet (entries.foldl (fun map entry => mapSet map (rename entry.1) entry.2) base) key =
      some value := by
  induction entries generalizing base with
  | nil =>
    rcases isSet with ⟨_, isEntry, _⟩ | found
    · cases isEntry
    · exact found
  | cons head entries ih =>
    apply ih fun entry isEntry => same entry (List.mem_cons_of_mem _ isEntry)
    by_cases isHead : rename head.1 = key
    · right
      rw [mapGet_mapSet, if_pos isHead.symm, same head List.mem_cons_self isHead]
    · rcases isSet with ⟨entry, isEntry, isKey⟩ | found
      · rcases List.mem_cons.mp isEntry with rfl | isLater
        · exact absurd isKey isHead
        · exact Or.inl ⟨entry, isLater, isKey⟩
      · right
        rw [mapGet_mapSet, if_neg (Ne.symm isHead), found]

theorem mapGet_foldl_mapSet_of_apart (apart : ∀ entry ∈ entries, rename entry.1 ≠ key) :
    mapGet (entries.foldl (fun map entry => mapSet map (rename entry.1) entry.2) base) key =
      mapGet base key := by
  induction entries generalizing base with
  | nil => rfl
  | cons head entries ih =>
    rw [List.foldl_cons, ih fun entry isEntry => apart entry (List.mem_cons_of_mem _ isEntry),
      mapGet_mapSet, if_neg (Ne.symm (apart head List.mem_cons_self))]

theorem nodup_foldl_mapSet (unique : (base.map Prod.fst).Nodup) :
    ((entries.foldl (fun map entry => mapSet map (rename entry.1) entry.2) base).map
      Prod.fst).Nodup := by
  induction entries generalizing base with
  | nil => exact unique
  | cons head entries ih => exact ih (nodup_keys_mapSet unique _ _)

end

theorem nodup_moveVirtualSubtree (unique : (virtual.map Prod.fst).Nodup) :
    ((moveVirtualSubtree virtual oldPath newPath).map Prod.fst).Nodup :=
  nodup_foldl_mapSet (fun candidate => movedPath candidate oldPath newPath)
    (nodup_removeVirtualSubtree (nodup_removeVirtualSubtree unique oldPath) newPath)

/-! ## The files behind the virtual ones -/

/-- What a file tree shows where a snapshot says so. -/
def WorkspaceSnapshotEntry.stored : WorkspaceSnapshotEntry → Option (FileNode Text)
  | .missing => none
  | .file content => some (.file (toWellFormed content))
  | .directory _ => some .directory

/-- What the files are expected to show at a path. -/
def expected (tree : WorkspaceTree) (snapshots virtual : Snapshots)
    (path : Path) : Option (FileNode Text) :=
  match mapGet virtual path with
  | some entry => entry.stored
  | none => if (mapGet snapshots path).isSome then none else shownTree tree path

theorem shownNode_eq_none_iff : shownNode node = none ↔ node = none := by
  rcases node with _ | (_ | _ | _) <;> simp [shownNode]

theorem shownNode_eq_directory_iff :
    shownNode node = some .directory ↔ node = some .directory := by
  rcases node with _ | (_ | _ | _) <;> simp [shownNode]

theorem shownNode_eq_file_iff :
    shownNode node = some (.file content) ↔
      ∃ stored, node = some (.file stored) ∧ stored.text = content := by
  rcases node with _ | (_ | _ | _) <;> simp [shownNode]

theorem stored_of_snapshotPath (taken : snapshotPath tree path includeChildren = .ok entry) :
    entry.stored = shownTree tree path := by
  rw [snapshotPath] at taken
  split at taken
  · rename_i absent
    cases taken
    rw [shownTree, absent]
    rfl
  · rename_i content isFile
    cases taken
    rw [shownTree, isFile, WorkspaceSnapshotEntry.stored, FileContent.toWellFormed_text, shownNode]
  · rename_i isDirectory
    cases taken
    rw [shownTree, isDirectory]
    rfl
  · cases taken

theorem stored_eq_none_iff : entry.stored = none ↔ entry = .missing := by
  cases entry <;> simp [WorkspaceSnapshotEntry.stored]

theorem expected_of_mapGet (found : mapGet virtual path = some entry) :
    expected tree snapshots virtual path = entry.stored := by
  rw [expected, found]

theorem expected_eq_none (missing : mapGet virtual path = none)
    (covered : tree.find path ≠ none → (mapGet snapshots path).isSome) :
    expected tree snapshots virtual path = none := by
  rw [expected, missing]
  by_cases isKey : (mapGet snapshots path).isSome = true
  · exact if_pos isKey
  · simp only [if_neg isKey, shownTree, shownNode_eq_none_iff]
    by_contra present
    exact isKey (covered present)

theorem expected_mapSet :
    expected tree snapshots (mapSet virtual path entry) other =
      if other = path then entry.stored else expected tree snapshots virtual other := by
  rw [expected, mapGet_mapSet]
  by_cases same : other = path
  · rw [if_pos same, if_pos same]
  · rw [if_neg same, if_neg same, expected]

/-- A subtree is gone when all that is in it is recognized. -/
theorem expected_removeVirtualSubtree (covered : Covers tree snapshots path)
    (recognized : SubtreeRecognized virtual path) (other : Path) :
    expected tree snapshots (removeVirtualSubtree virtual path) other =
      if path <+: other then none else expected tree snapshots virtual other := by
  have reading := mapGet_removeVirtualSubtree virtual path other
  by_cases beneath : path <+: other
  · rw [if_pos beneath]
    by_cases same : other = path
    · rw [if_pos same] at reading
      exact expected_of_mapGet reading
    · rw [if_neg same] at reading
      by_cases isRecognized : isSameOrDescendant other path = true
      · rw [if_pos isRecognized] at reading
        exact expected_eq_none reading (covered other beneath)
      · rw [if_neg isRecognized] at reading
        cases found : mapGet virtual other with
        | none =>
          rw [found] at reading
          exact expected_eq_none reading (covered other beneath)
        | some entry =>
          rw [found] at reading
          rw [expected_of_mapGet reading, stored_eq_none_iff]
          by_contra present
          exact isRecognized (recognized (other, entry) (mem_of_mapGet found) present beneath)
  · have apart : other ≠ path := by
      rintro rfl
      exact beneath List.prefix_rfl
    rw [if_neg apart, if_neg fun recognized => beneath (prefix_of_isSameOrDescendant recognized)]
      at reading
    rw [if_neg beneath, expected, reading, expected]

theorem SubtreeRecognized.of_removeVirtualSubtree {removed}
    (recognized : SubtreeRecognized virtual path) :
    SubtreeRecognized (removeVirtualSubtree virtual removed) path := by
  intro entry isEntry present beneath
  rcases eq_or_mem_of_mem_mapSet isEntry with rfl | kept
  · exact absurd rfl present
  · exact recognized entry (List.mem_of_mem_filter kept) present beneath

/-- A subtree is in another place when all that is in both is recognized. -/
theorem expected_moveVirtualSubtree (unique : (virtual.map Prod.fst).Nodup)
    (oldCovered : Covers tree snapshots oldPath) (newCovered : Covers tree snapshots newPath)
    (oldRecognized : SubtreeRecognized virtual oldPath)
    (newRecognized : SubtreeRecognized virtual newPath) :
    expected tree snapshots (moveVirtualSubtree virtual oldPath newPath) other =
      if newPath <+: other then
        expected tree snapshots virtual (oldPath ++ other.drop newPath.length)
      else if oldPath <+: other then none
      else expected tree snapshots virtual other := by
  have cleared : expected tree snapshots
      (removeVirtualSubtree (removeVirtualSubtree virtual oldPath) newPath) other =
        if newPath <+: other then none
        else if oldPath <+: other then none else expected tree snapshots virtual other := by
    rw [expected_removeVirtualSubtree newCovered newRecognized.of_removeVirtualSubtree other,
      expected_removeVirtualSubtree oldCovered oldRecognized other]
  have suffix : ∀ entry ∈ virtual.filter fun entry => isSameOrDescendant entry.1 oldPath,
      ∃ rest, entry.1 = oldPath ++ rest ∧ movedPath entry.1 oldPath newPath = newPath ++ rest := by
    intro entry isMoved
    obtain ⟨rest, split⟩ := prefix_of_isSameOrDescendant (List.mem_filter.mp isMoved).2
    exact ⟨rest, split.symm, by rw [← split, movedPath_append]⟩
  by_cases isMoved : ∃ entry ∈ virtual.filter fun entry => isSameOrDescendant entry.1 oldPath,
      movedPath entry.1 oldPath newPath = other
  · obtain ⟨entry, isEntry, isOther⟩ := isMoved
    obtain ⟨rest, isOld, isNew⟩ := suffix entry isEntry
    have beneath : newPath <+: other := ⟨rest, by rw [← isOther, isNew]⟩
    have dropped : other.drop newPath.length = rest := by
      rw [← isOther, isNew, List.drop_left]
    have found : mapGet virtual (oldPath ++ rest) = some entry.2 := by
      rw [← isOld]
      exact mapGet_of_mem unique (List.mem_of_mem_filter isEntry)
    have reading : mapGet (moveVirtualSubtree virtual oldPath newPath) other = some entry.2 := by
      apply mapGet_foldl_mapSet (fun candidate => movedPath candidate oldPath newPath)
      · intro twin isTwin sameTarget
        obtain ⟨twinRest, twinOld, twinNew⟩ := suffix twin isTwin
        have sameRest : twinRest = rest := by
          have sameImage : newPath ++ twinRest = newPath ++ rest := by
            rw [← twinNew, sameTarget, ← isOther, isNew]
          exact List.append_cancel_left sameImage
        have twinFound := mapGet_of_mem unique (List.mem_of_mem_filter isTwin)
        rw [twinOld, sameRest, found] at twinFound
        exact (Option.some.inj twinFound).symm
      · exact Or.inl ⟨entry, isEntry, isOther⟩
    rw [expected_of_mapGet reading, if_pos beneath, dropped, expected_of_mapGet found]
  · have apart : ∀ entry ∈ virtual.filter fun entry => isSameOrDescendant entry.1 oldPath,
        movedPath entry.1 oldPath newPath ≠ other :=
      fun entry isEntry isOther => isMoved ⟨entry, isEntry, isOther⟩
    have reading : expected tree snapshots (moveVirtualSubtree virtual oldPath newPath) other =
        expected tree snapshots
          (removeVirtualSubtree (removeVirtualSubtree virtual oldPath) newPath) other := by
      rw [expected, moveVirtualSubtree,
        mapGet_foldl_mapSet_of_apart (fun candidate => movedPath candidate oldPath newPath) apart,
        expected]
    rw [reading, cleared]
    by_cases beneath : newPath <+: other
    · rw [if_pos beneath, if_pos beneath]
      obtain ⟨rest, rfl⟩ := beneath
      rw [List.drop_left]
      symm
      cases found : mapGet virtual (oldPath ++ rest) with
      | none => exact expected_eq_none found (oldCovered _ (List.prefix_append oldPath rest))
      | some entry =>
        rw [expected_of_mapGet found, stored_eq_none_iff]
        by_contra present
        have isEntry := mem_of_mapGet found
        have isRecognized := oldRecognized _ isEntry present (List.prefix_append oldPath rest)
        exact apart _ (List.mem_filter.mpr ⟨isEntry, isRecognized⟩)
          (movedPath_append oldPath newPath rest)
    · rw [if_neg beneath, if_neg beneath]

/-! ## What a simulated operation does -/

section Simulated

variable {changeIndex : Nat} {planned : PlannedWorkspaceOperation} {next : Snapshots}

theorem requireVirtualParent_eq_ok
    (required : requireVirtualParent virtual path changeIndex = .ok result) :
    (virtualEntry virtual path.dropLast).kind = some .directory := by
  rw [requireVirtualParent] at required
  split at required
  · rename_i isDirectory
    exact isDirectory
  · cases required

theorem simulateText_eq_ok
    (simulated : simulateText virtual changeIndex path edits version = .ok (planned, next)) :
    ∃ content, ∃ normalized : NormalizedTextEditResult, mapGet virtual path = some (.file content) ∧
      planned = .text changeIndex path content normalized.text normalized.edits.length version ∧
      next = mapSet virtual path (.file normalized.text) := by
  rw [simulateText] at simulated
  split at simulated
  · rename_i content isFile
    obtain ⟨normalized, -, same⟩ := bind_eq_ok.mp simulated
    cases same
    exact ⟨content, normalized, isFile, rfl, rfl⟩
  · cases simulated

theorem simulateCreate_eq_ok
    (simulated : simulateCreate virtual changeIndex path overwrite ignoreIfExists
      followedSymbolicLink = .ok (planned, next)) :
    (planned = .noop changeIndex ∧ next = virtual) ∨
      (virtualEntry virtual path.dropLast).kind = some .directory ∧
        (virtualEntry virtual path).kind ≠ some .directory ∧
        (∃ replaced, planned = .create changeIndex path replaced) ∧
        next = mapSet virtual path (.file []) := by
  obtain ⟨_, -, unlinked⟩ := bind_eq_ok.mp simulated
  obtain ⟨_, required, created⟩ := bind_eq_ok.mp unlinked
  have inDirectory := requireVirtualParent_eq_ok required
  split at created
  · rename_i isMissing
    cases created
    exact Or.inr ⟨inDirectory, by rw [isMissing]; nofun, ⟨false, rfl⟩, rfl⟩
  · rename_i kind isKind
    split at created
    · rename_i isFile
      cases created
      refine Or.inr ⟨inDirectory, ?_, ⟨true, rfl⟩, rfl⟩
      rw [isKind, isFile.2]
      nofun
    · split at created
      · cases created
        exact Or.inl ⟨rfl, rfl⟩
      · cases created

theorem simulateRename_eq_ok
    (simulated : simulateRename virtual changeIndex oldPath newPath overwrite ignoreIfExists
      followedSymbolicLink = .ok (planned, next)) :
    (planned = .noop changeIndex ∧ next = virtual) ∨
      ∃ sourceKind, (virtualEntry virtual oldPath).kind = some sourceKind ∧
        isSameOrDescendant newPath oldPath = false ∧
        (virtualEntry virtual newPath.dropLast).kind = some .directory ∧
        planned = .rename changeIndex oldPath newPath sourceKind
          (virtualEntry virtual newPath).kind.isSome ∧
        next = moveVirtualSubtree virtual oldPath newPath := by
  obtain ⟨_, -, unlinked⟩ := bind_eq_ok.mp simulated
  split at unlinked
  · cases unlinked
  · rename_i sourceKind isKind
    split at unlinked
    · cases unlinked
      exact Or.inl ⟨rfl, rfl⟩
    · split at unlinked
      · cases unlinked
      · rename_i notInside
        obtain ⟨_, required, renamed⟩ := bind_eq_ok.mp unlinked
        dsimp only at renamed
        split at renamed
        · split at renamed
          · cases renamed
            exact Or.inl ⟨rfl, rfl⟩
          · cases renamed
        · cases renamed
          exact Or.inr ⟨sourceKind, isKind, Bool.eq_false_iff.mpr notInside,
            requireVirtualParent_eq_ok required, rfl, rfl⟩

theorem simulateDelete_eq_ok
    (simulated : simulateDelete virtual changeIndex path recursive ignoreIfNotExists
      followedSymbolicLink = .ok (planned, next)) :
    (planned = .noop changeIndex ∧ next = virtual) ∨
      ∃ targetKind, (virtualEntry virtual path).kind = some targetKind ∧
        planned = .delete changeIndex path targetKind recursive ∧
        next = removeVirtualSubtree virtual path := by
  obtain ⟨_, -, unlinked⟩ := bind_eq_ok.mp simulated
  split at unlinked
  · split at unlinked
    · cases unlinked
      exact Or.inl ⟨rfl, rfl⟩
    · cases unlinked
  · rename_i targetKind isKind
    split at unlinked
    · cases unlinked
    · cases unlinked
      exact Or.inr ⟨targetKind, isKind, rfl, rfl⟩

end Simulated

/-! ## In step -/

/-- The files show what the virtual files have. -/
structure Tracks (tree : WorkspaceTree) (snapshots virtual : Snapshots)
    (current : WorkspaceTree) : Prop where
  unique : (virtual.map Prod.fst).Nodup
  same : ∀ path, shownTree current path = expected tree snapshots virtual path

namespace Tracks

variable {current : WorkspaceTree}

theorem initial (faithful : Faithful tree snapshots) : Tracks tree snapshots snapshots tree := by
  refine ⟨faithful.unique, fun path => ?_⟩
  cases found : mapGet snapshots path with
  | none => simp [expected, found]
  | some entry =>
    obtain ⟨includeChildren, taken⟩ := faithful.taken _ (mem_of_mapGet found)
    rw [expected_of_mapGet found, stored_of_snapshotPath taken]

variable (tracks : Tracks tree snapshots virtual current)
include tracks

theorem find_of_kind (isKind : (virtualEntry virtual path).kind = some kind) :
    (kind = .directory ∧ current.find path = some .directory) ∨
      kind = .file ∧ ∃ content, current.find path = some (.file content) := by
  have shown := tracks.same path
  rw [virtualEntry] at isKind
  cases found : mapGet virtual path with
  | none =>
    rw [found] at isKind
    cases isKind
  | some entry =>
    rw [found] at isKind
    rw [expected_of_mapGet found] at shown
    cases entry with
    | missing => cases isKind
    | file content =>
      cases isKind
      obtain ⟨stored, isStored, -⟩ := shownNode_eq_file_iff.mp shown
      exact Or.inr ⟨rfl, stored, isStored⟩
    | directory children =>
      cases isKind
      exact Or.inl ⟨rfl, shownNode_eq_directory_iff.mp shown⟩

theorem find_of_directory (isDirectory : (virtualEntry virtual path).kind = some .directory) :
    current.find path = some .directory := by
  rcases tracks.find_of_kind isDirectory with ⟨-, found⟩ | ⟨isFile, -⟩
  · exact found
  · cases isFile

theorem find_of_missing (snapped : (mapGet snapshots path).isSome)
    (isMissing : (virtualEntry virtual path).kind = none) : current.find path = none := by
  rw [← shownNode_eq_none_iff, ← shownTree, tracks.same]
  rw [virtualEntry] at isMissing
  cases found : mapGet virtual path with
  | none => exact expected_eq_none found fun _ => snapped
  | some entry =>
    rw [found] at isMissing
    rw [expected_of_mapGet found]
    cases entry with
    | missing => rfl
    | file | directory => cases isMissing

/-- A file of the virtual files is written. -/
theorem place (content : Text) (notDirectory : current.find path ≠ some .directory)
    (inDirectory : current.find path.dropLast = some .directory) :
    Tracks tree snapshots (mapSet virtual path (.file content))
      (current.place path (.file (.ofText content)) notDirectory inDirectory) := by
  refine ⟨nodup_keys_mapSet tracks.unique path _, fun other => ?_⟩
  rw [expected_mapSet, ← tracks.same]
  change shownNode (if other = path then some (.file (.ofText content)) else current.find other) = _
  split
  · rw [WorkspaceSnapshotEntry.stored, ← FileContent.text_ofText]
    rfl
  · rfl

theorem without (covered : Covers tree snapshots path) (recognized : SubtreeRecognized virtual path)
    (notRoot : path ≠ []) :
    Tracks tree snapshots (removeVirtualSubtree virtual path) (current.without path notRoot) := by
  refine ⟨nodup_removeVirtualSubtree tracks.unique path, fun other => ?_⟩
  rw [expected_removeVirtualSubtree covered recognized, ← tracks.same, shownTree,
    FileTree.without, apply_ite shownNode]
  rfl

/-- The files with a subtree in another place. -/
theorem moved {renamed : WorkspaceTree} (oldCovered : Covers tree snapshots oldPath)
    (newCovered : Covers tree snapshots newPath) (oldRecognized : SubtreeRecognized virtual oldPath)
    (newRecognized : SubtreeRecognized virtual newPath)
    (isRenamed : ∀ other, renamed.find other =
      if newPath <+: other then current.find (oldPath ++ other.drop newPath.length)
      else if oldPath <+: other then none else current.find other) :
    Tracks tree snapshots (moveVirtualSubtree virtual oldPath newPath) renamed := by
  refine ⟨nodup_moveVirtualSubtree tracks.unique, fun other => ?_⟩
  rw [shownTree, isRenamed, expected_moveVirtualSubtree tracks.unique oldCovered newCovered
    oldRecognized newRecognized, ← tracks.same, ← tracks.same, apply_ite shownNode,
    apply_ite shownNode]
  rfl

end Tracks

/-! ## One operation -/

section Operation

/-- A file was at a path before, or has been written since. -/
def ComesFrom (before : WorkspaceTree) (source : Option Path) (content : FileContent) : Prop :=
  match source with
  | some source => before.find source = some (.file content)
  | none => ∃ value, content = .ofText value

theorem ComesFrom.bind {before middle : WorkspaceTree} {source : Option Path}
    (later : ComesFrom middle source content)
    (first : ∀ path, middle.find path = some (.file content) →
      ComesFrom before (placed path) content) :
    ComesFrom before (source.bind placed) content := by
  cases source with
  | none => exact later
  | some source => exact first source later

theorem comesFrom_place {before : WorkspaceTree}
    (notDirectory : before.find path ≠ some .directory)
    (inDirectory : before.find path.dropLast = some .directory)
    (found : (before.place path (.file (.ofText value)) notDirectory inDirectory).find other =
      some (.file content)) :
    ComesFrom before (if other = path then none else some other) content := by
  change (if other = path then some (.file (.ofText value)) else before.find other) = _ at found
  split at found
  · next isPath =>
    rw [if_pos isPath]
    cases found
    exact ⟨value, rfl⟩
  · next elsewhere =>
    rw [if_neg elsewhere]
    exact found

variable (plan : WorkspaceEditPlan)
include plan

theorem removeDestination_eq (notRoot : newPath ≠ [])
    (present : progress.tree.find newPath ≠ none) :
    ∃ accumulator, removeDestination plan progress newPath =
      ⟨accumulator, progress.tree.without newPath notRoot, none⟩ := by
  refine ⟨progress.accumulator.record plan (.delete newPath
    (if progress.tree.find newPath = some .directory then .directory else .file)) newPath 0, ?_⟩
  rw [removeDestination, FileTree.remove_eq_ok notRoot present]
  · rfl
  · intro isDirectory
    simp [isDirectory]

theorem commitRename_eq (noFailure : progress.failure = none) (changeIndex : Nat)
    (sourceKind : EntryKind) (present : progress.tree.find oldPath ≠ none)
    (notInside : ¬ oldPath <+: newPath) (apart : ¬ newPath <+: oldPath)
    (inDirectory : progress.tree.find newPath.dropLast = some .directory)
    (replaces : replaceDestination = true ↔ progress.tree.find newPath ≠ none) :
    ∃ accumulator renamed, commitOperation plan progress
          (.rename changeIndex oldPath newPath sourceKind replaceDestination) =
        ⟨accumulator, renamed, none⟩ ∧
      ∀ other, renamed.find other =
        if newPath <+: other then progress.tree.find (oldPath ++ other.drop newPath.length)
        else if oldPath <+: other then none else progress.tree.find other := by
  have notRoot : newPath ≠ [] := by
    rintro rfl
    exact apart List.nil_prefix
  cases replaceDestination with
  | false =>
    have absent : progress.tree.find newPath = none := by
      by_contra occupied
      cases replaces.mpr occupied
    refine ⟨progress.accumulator.record plan (.rename oldPath newPath sourceKind) newPath 0,
      progress.tree.moved oldPath newPath notRoot notInside inDirectory, ?_, fun _ => rfl⟩
    rw [commitOperation]
    simp only [Bool.false_eq_true, if_false, noFailure]
    rw [FileTree.rename_eq_ok present absent notInside inDirectory]
    rfl
  | true =>
    obtain ⟨accumulator, removed⟩ := removeDestination_eq plan notRoot (replaces.mp rfl)
    have kept : ∀ other, ¬ newPath <+: other →
        (progress.tree.without newPath notRoot).find other = progress.tree.find other :=
      fun _ outside => if_neg outside
    have parentKept : ¬ newPath <+: newPath.dropLast := by
      intro beneath
      have bound := beneath.length_le
      rw [List.length_dropLast] at bound
      have nonempty := List.length_pos_iff.mpr notRoot
      omega
    have parentThere :
        (progress.tree.without newPath notRoot).find newPath.dropLast = some .directory := by
      rw [kept _ parentKept, inDirectory]
    have sourceKept : (progress.tree.without newPath notRoot).find oldPath ≠ none := by
      rw [kept _ apart]
      exact present
    refine ⟨accumulator.record plan (.rename oldPath newPath sourceKind) newPath 0,
      (progress.tree.without newPath notRoot).moved oldPath newPath notRoot notInside
        parentThere, ?_, fun other => ?_⟩
    · rw [commitOperation]
      simp only [if_true, removed]
      rw [FileTree.rename_eq_ok sourceKept (if_pos List.prefix_rfl) notInside parentThere]
      rfl
    · have isSource : ¬ newPath <+: oldPath ++ other.drop newPath.length := by
        intro beneath
        rcases List.prefix_or_prefix_of_prefix beneath
          (List.prefix_append oldPath (other.drop newPath.length)) with inside | inside
        · exact apart inside
        · exact notInside inside
      by_cases beneath : newPath <+: other
      · exact (if_pos beneath).trans ((kept _ isSource).trans (if_pos beneath).symm)
      · rw [if_neg beneath, ← kept _ beneath]
        exact if_neg beneath

/-- What an operation has done to the files when it does not fail. -/
theorem Tracks.commitOperation (tracks : Tracks tree snapshots virtual progress.tree)
    (snapped : Snapped tree snapshots operation)
    (recognized : isPerformed virtual operation = true → NamesRecognized virtual operation)
    (simulated : simulateOperation virtual operation = .ok (planned, next))
    (noFailure : progress.failure = none) (replayable : Replayable planned) :
    (Lsp.commitOperation plan progress planned).failure = none ∧
      Tracks tree snapshots next (Lsp.commitOperation plan progress planned).tree ∧
      ∀ path content,
        (Lsp.commitOperation plan progress planned).tree.find path = some (.file content) →
          ComesFrom progress.tree (placedFrom planned path) content := by
  cases operation with
  | text changeIndex path reportedPath edits version =>
    obtain ⟨content, normalized, isFile, rfl, rfl⟩ := simulateText_eq_ok simulated
    obtain ⟨stored, found, -⟩ := shownNode_eq_file_iff.mp
      ((tracks.same path).trans (expected_of_mapGet isFile))
    have notDirectory : progress.tree.find path ≠ some .directory := by
      rw [found]
      nofun
    have notOther : progress.tree.find path ≠ some .other := by
      rw [found]
      nofun
    have inDirectory : progress.tree.find path.dropLast = some .directory :=
      progress.tree.directory_dropLast (by rw [found]; nofun)
    rw [Lsp.commitOperation, FileTree.writeFile_eq_ok _ notDirectory notOther inDirectory]
    exact ⟨rfl, tracks.place normalized.text notDirectory inDirectory,
      fun _ _ => comesFrom_place notDirectory inDirectory⟩
  | create changeIndex path reportedPath overwrite ignoreIfExists followedSymbolicLink =>
    rcases simulateCreate_eq_ok simulated with
      ⟨rfl, rfl⟩ | ⟨inDirectory, notDirectory, ⟨replaced, rfl⟩, rfl⟩
    · exact ⟨noFailure, tracks, fun _ _ found => found⟩
    · have isPlace : progress.tree.find path ≠ some .directory ∧
          progress.tree.find path ≠ some .other := by
        cases isKind : (virtualEntry virtual path).kind with
        | none =>
          rw [tracks.find_of_missing snapped isKind]
          exact ⟨nofun, nofun⟩
        | some kind =>
          rcases tracks.find_of_kind isKind with ⟨isDirectory, -⟩ | ⟨-, content, isFile⟩
          · exact absurd (isDirectory ▸ isKind) notDirectory
          · rw [isFile]
            exact ⟨nofun, nofun⟩
      have parentThere := tracks.find_of_directory inDirectory
      rw [Lsp.commitOperation, FileTree.writeFile_eq_ok _ isPlace.1 isPlace.2 parentThere]
      exact ⟨rfl, tracks.place [] isPlace.1 parentThere,
        fun _ _ => comesFrom_place isPlace.1 parentThere⟩
  | rename changeIndex oldPath newPath reportedOldPath reportedNewPath overwrite
      ignoreIfExists followedSymbolicLink =>
      rcases simulateRename_eq_ok simulated with
        ⟨rfl, rfl⟩ | ⟨sourceKind, isSource, notRecognized, inDirectory, rfl, rfl⟩
      · exact ⟨noFailure, tracks, fun _ _ found => found⟩
      · obtain ⟨oldRecognized, newRecognized, insideRecognized⟩ :=
          recognized (by rw [isPerformed, simulated])
        obtain ⟨oldCovered, newCovered, newSnapped⟩ := snapped
        have present : progress.tree.find oldPath ≠ none := by
          rcases tracks.find_of_kind isSource with ⟨-, found⟩ | ⟨-, content, found⟩ <;>
            · rw [found]
              nofun
        have notInside : ¬ oldPath <+: newPath := by
          intro inside
          rw [insideRecognized inside] at notRecognized
          cases notRecognized
        have replaces : (virtualEntry virtual newPath).kind.isSome = true ↔
            progress.tree.find newPath ≠ none := by
          cases isKind : (virtualEntry virtual newPath).kind with
          | none => simp [tracks.find_of_missing newSnapped isKind]
          | some kind =>
            rcases tracks.find_of_kind isKind with ⟨-, found⟩ | ⟨-, content, found⟩ <;>
              simp [found]
        have apart : ¬ newPath <+: oldPath := by
          intro beneath
          by_cases occupied : progress.tree.find newPath = none
          · exact present (progress.tree.find_beneath beneath occupied)
          · exact replayable (replaces.mpr occupied) beneath
        obtain ⟨accumulator, renamed, committed, isRenamed⟩ :=
          commitRename_eq plan noFailure changeIndex sourceKind present notInside apart
            (tracks.find_of_directory inDirectory) replaces
        rw [committed]
        refine ⟨rfl, tracks.moved oldCovered newCovered oldRecognized newRecognized isRenamed, ?_⟩
        intro path content found
        rw [isRenamed] at found
        change progress.tree.find (if newPath <+: path then _ else path) = _
        by_cases beneath : newPath <+: path
        · rw [if_pos beneath] at found ⊢
          exact found
        · rw [if_neg beneath] at found ⊢
          split at found
          · cases found
          · exact found
  | delete changeIndex path reportedPath recursive ignoreIfNotExists followedSymbolicLink =>
    rcases simulateDelete_eq_ok simulated with
      ⟨rfl, rfl⟩ | ⟨targetKind, isTarget, rfl, rfl⟩
    · exact ⟨noFailure, tracks, fun _ _ found => found⟩
    · obtain ⟨notRoot, isAllowed⟩ := replayable
      have removed : progress.tree.remove path recursive =
          .ok (progress.tree.without path notRoot) := by
        rcases tracks.find_of_kind isTarget with ⟨isDirectory, found⟩ | ⟨isFile, content, found⟩
        · exact FileTree.remove_eq_ok notRoot (by rw [found]; nofun) fun _ => isAllowed isDirectory
        · refine FileTree.remove_eq_ok notRoot (by rw [found]; nofun) ?_
          rw [found]
          nofun
      have isRecognized := recognized (by rw [isPerformed, simulated])
      rw [Lsp.commitOperation, removed]
      refine ⟨rfl, tracks.without snapped isRecognized notRoot, fun other content found => ?_⟩
      change (if path <+: other then none else progress.tree.find other) = _ at found
      split at found
      · cases found
      · exact found

theorem Tracks.commitOperation_fails (tracks : Tracks tree snapshots virtual progress.tree)
    (simulated : simulateOperation virtual operation = .ok (planned, next))
    (notReplayable : ¬ Replayable planned) :
    ∃ error, (Lsp.commitOperation plan progress planned).failure = some error := by
  cases operation with
  | text =>
    obtain ⟨content, normalized, isFile, rfl, rfl⟩ := simulateText_eq_ok simulated
    exact absurd trivial notReplayable
  | create =>
    rcases simulateCreate_eq_ok simulated with ⟨rfl, -⟩ | ⟨-, -, ⟨replaced, rfl⟩, -⟩ <;>
      exact absurd trivial notReplayable
  | rename changeIndex oldPath newPath =>
    rcases simulateRename_eq_ok simulated with
      ⟨rfl, -⟩ | ⟨sourceKind, -, -, -, rfl, -⟩
    · exact absurd trivial notReplayable
    · rw [Replayable, Classical.not_imp, not_not] at notReplayable
      obtain ⟨replaced, beneath⟩ := notReplayable
      rw [replaced, Lsp.commitOperation]
      simp only [if_true]
      by_cases isRoot : newPath = []
      · subst isRoot
        simp [removeDestination, FileTree.remove, CommitProgress.perform]
      · have occupied : progress.tree.find newPath ≠ none := by
          rw [Option.isSome_iff_exists] at replaced
          obtain ⟨kind, isKind⟩ := replaced
          rcases tracks.find_of_kind isKind with ⟨-, found⟩ | ⟨-, content, found⟩ <;>
            · rw [found]
              exact Option.some_ne_none _
        obtain ⟨accumulator, removed⟩ := removeDestination_eq plan isRoot occupied
        have sourceGone : (progress.tree.without newPath isRoot).find oldPath = none :=
          if_pos beneath
        refine ⟨.enoent, ?_⟩
        simp only [removed]
        rw [FileTree.rename_eq_error sourceGone]
        rfl
  | delete changeIndex path reportedPath recursive =>
    rcases simulateDelete_eq_ok simulated with ⟨rfl, -⟩ | ⟨targetKind, isTarget, rfl, -⟩
    · exact absurd trivial notReplayable
    · have isRefused : path = [] ∨
          (progress.tree.find path = some .directory ∧ recursive = false) := by
        by_cases isRoot : path = []
        · exact Or.inl isRoot
        · rw [Replayable, not_and, Classical.not_imp] at notReplayable
          obtain ⟨isDirectory, notRecursive⟩ := notReplayable isRoot
          exact Or.inr ⟨tracks.find_of_directory (isDirectory ▸ isTarget),
            Bool.eq_false_iff.mpr notRecursive⟩
      obtain ⟨error, refused⟩ := FileTree.remove_eq_error isRefused
      refine ⟨error, ?_⟩
      rw [Lsp.commitOperation, refused]
      rfl

end Operation

/-! ## A whole commit -/

section Commit

/-- Without failures each operation has been simulated behind the ones before it. -/
theorem simulateOperations_cons
    (accepted : (simulateOperations (operation :: operations) virtual).failures = []) :
    ∃ planned next, simulateOperation virtual operation = .ok (planned, next) ∧
      (simulateOperations operations next).failures = [] ∧
      simulateOperations (operation :: operations) virtual =
        { simulateOperations operations next with
          operations := planned :: (simulateOperations operations next).operations } := by
  rw [simulateOperations] at accepted ⊢
  split at accepted
  · rename_i planned next simulated
    exact ⟨planned, next, simulated, accepted, rfl⟩
  · cases accepted

theorem wellNamed_cons (wellNamed : WellNamed virtual (operation :: operations))
    (simulated : simulateOperation virtual operation = .ok (planned, next)) :
    (isPerformed virtual operation = true → NamesRecognized virtual operation) ∧
      WellNamed next operations :=
  wellNamed next (by rw [nextVirtual, simulated])

/-- A commit of operations that the files accept ends in step with the simulation, with
files that come from where the operations took them, and one with an operation that they do
not accept ends with a failure. -/
theorem Tracks.commitOperations (plan : WorkspaceEditPlan) (signal : AbortSignal) (look : Nat)
    (lateAbort : Bool) (progress : CommitProgress)
    (tracks : Tracks tree snapshots virtual progress.tree)
    (snapped : ∀ operation ∈ operations, Snapped tree snapshots operation)
    (wellNamed : WellNamed virtual operations)
    (accepted : (simulateOperations operations virtual).failures = [])
    (noFailure : progress.failure = none) :
    let simulation := simulateOperations operations virtual
    let commit := Lsp.commitOperations plan signal look lateAbort progress simulation.operations
    if ∀ planned ∈ simulation.operations, Replayable planned then
      commit.1.result.success = true ∧ Tracks tree snapshots simulation.virtual commit.2 ∧
        ∀ path content, commit.2.find path = some (.file content) →
          ComesFrom progress.tree (origin simulation.operations path) content
    else commit.1.result.success = false := by
  induction operations generalizing virtual look lateAbort progress with
  | nil =>
    exact (if_pos fun _ isPlanned => absurd isPlanned List.not_mem_nil).mpr
      ⟨rfl, tracks, fun _ _ found => found⟩
  | cons operation operations ih =>
    obtain ⟨planned, next, simulated, laterAccepted, split⟩ := simulateOperations_cons accepted
    obtain ⟨recognized, laterNamed⟩ := wellNamed_cons wellNamed simulated
    rw [split]
    by_cases isFirst : Replayable planned
    · have committed := tracks.commitOperation plan
        (snapped operation List.mem_cons_self) recognized simulated noFailure isFirst
      have later := ih (look + 1) (lateAbort || signal look) _ committed.2.1
        (fun operation isLater => snapped operation (List.mem_cons_of_mem _ isLater))
        laterNamed laterAccepted committed.1
      simp only [Lsp.commitOperations, committed.1, List.forall_mem_cons, isFirst, true_and]
      dsimp only at later
      split at later
      · next replayable =>
        rw [if_pos replayable]
        obtain ⟨succeeded, laterTracks, comes⟩ := later
        exact ⟨succeeded, laterTracks, fun path content found =>
          (comes path content found).bind fun path => committed.2.2 path content⟩
      · next notReplayable =>
        rw [if_neg notReplayable]
        exact later
    · obtain ⟨error, failed⟩ :=
        tracks.commitOperation_fails plan simulated isFirst
      rw [if_neg fun replayable => isFirst (replayable planned List.mem_cons_self)]
      simp only [Lsp.commitOperations, failed]
      rfl

/-- What the files show at the end is the virtual tree when all of it could be written. -/
theorem Tracks.shownTree_iff (tracks : Tracks tree snapshots virtual current) :
    (∀ path, shownTree current path = virtualTree tree snapshots virtual path) ↔
      TextsWellFormed virtual := by
  have reading : ∀ path entry, mapGet virtual path = some entry →
      (shownTree current path = virtualTree tree snapshots virtual path ↔ entry.Writable) := by
    intro path entry found
    rw [tracks.same, virtualTree, expected_of_mapGet found, found]
    cases entry with
    | missing => exact ⟨fun _ => trivial, fun _ => rfl⟩
    | file content =>
      simp [WorkspaceSnapshotEntry.stored, WorkspaceSnapshotEntry.shown,
        WorkspaceSnapshotEntry.Writable]
    | directory children => exact ⟨fun _ => trivial, fun _ => rfl⟩
  constructor
  · intro same entry isEntry
    exact (reading entry.1 entry.2 (mapGet_of_mem tracks.unique isEntry)).mp (same entry.1)
  · intro wellFormed path
    cases found : mapGet virtual path with
    | some entry => exact (reading path entry found).mpr (wellFormed _ (mem_of_mapGet found))
    | none => rw [tracks.same, virtualTree, expected, found]

/-- What is not in the snapshots stays where it is. -/
theorem origin_of_unsnapped (snapped : ∀ operation ∈ operations, Snapped tree snapshots operation)
    (accepted : (simulateOperations operations virtual).failures = [])
    (unsnapped : ¬ (mapGet snapshots path).isSome) (present : tree.find path ≠ none) :
    origin (simulateOperations operations virtual).operations path = some path := by
  induction operations generalizing virtual with
  | nil => rfl
  | cons operation operations ih =>
    obtain ⟨planned, next, simulated, laterAccepted, split⟩ := simulateOperations_cons accepted
    obtain ⟨isSnapped, laterSnapped⟩ := List.forall_mem_cons.mp snapped
    rw [split]
    change (origin _ path).bind (placedFrom planned) = some path
    rw [ih laterSnapped laterAccepted]
    cases operation with
    | text =>
      obtain ⟨_, _, -, rfl, -⟩ := simulateText_eq_ok simulated
      refine if_neg ?_
      rintro rfl
      exact unsnapped isSnapped
    | create =>
      rcases simulateCreate_eq_ok simulated with ⟨rfl, -⟩ | ⟨-, -, ⟨replaced, rfl⟩, -⟩
      · rfl
      · refine if_neg ?_
        rintro rfl
        exact unsnapped isSnapped
    | rename =>
      rcases simulateRename_eq_ok simulated with ⟨rfl, -⟩ | ⟨_, -, -, -, rfl, -⟩
      · rfl
      · exact congrArg some
          (if_neg fun beneath => unsnapped (isSnapped.2.1 path beneath present))
    | delete => rcases simulateDelete_eq_ok simulated with ⟨rfl, -⟩ | ⟨_, -, rfl, -⟩ <;> rfl

/-- A path is determined by what it shows, but for the bytes of a file. -/
theorem find_eq_of_shownTree (same : shownTree current path = shownTree tree path)
    (files : ∀ left right, current.find path = some (.file left) →
      tree.find path = some (.file right) → left.text = right.text → left = right) :
    current.find path = tree.find path := by
  rw [shownTree, shownTree] at same
  generalize current.find path = left at same files ⊢
  generalize tree.find path = right at same files ⊢
  rcases left with _ | (left | _ | _) <;> rcases right with _ | (right | _ | _) <;>
    simp only [shownNode, reduceCtorEq, Option.some.injEq, FileNode.file.injEq] at same ⊢
  exact files left right rfl rfl same

/-- Where the files show the virtual tree, what they show unchanged is unchanged if and only
if it has kept its bytes. -/
theorem unchanged_iff (unique : (virtual.map Prod.fst).Nodup)
    (shown : ∀ path, shownTree current path = virtualTree tree snapshots virtual path)
    (comes : ∀ path content, current.find path = some (.file content) →
      ComesFrom tree (origin operations path) content)
    (stays : ∀ path, ¬ (mapGet snapshots path).isSome → tree.find path ≠ none →
      origin operations path = some path) :
    (∀ path, virtualTree tree snapshots virtual path = shownTree tree path →
        current.find path = tree.find path) ↔
      ∀ entry ∈ virtual, BytesKept tree operations entry := by
  constructor
  · rintro unchanged ⟨path, entry⟩ isEntry
    cases entry with
    | missing | directory => trivial
    | file content =>
      intro isShown
      have reading : virtualTree tree snapshots virtual path = some (.file content) := by
        rw [virtualTree, mapGet_of_mem unique isEntry]
        rfl
      obtain ⟨stored, isStored, rfl⟩ := shownNode_eq_file_iff.mp isShown
      have kept := unchanged path (reading.trans isShown.symm)
      have isFrom := comes path stored (kept.trans isStored)
      cases isOrigin : origin operations path with
      | some source =>
        rw [isOrigin] at isFrom
        exact isStored.trans isFrom.symm
      | none =>
        rw [isOrigin] at isFrom
        obtain ⟨value, rfl⟩ := isFrom
        simp [isStored]
  · intro kept path isSame
    refine find_eq_of_shownTree ((shown path).trans isSame) fun left right isLeft isRight same => ?_
    have isFrom := comes path left isLeft
    have isShown : shownTree tree path = some (.file right.text) := by
      rw [shownTree, isRight, shownNode]
    have bytes : tree.find path =
        match origin operations path with
        | some source => tree.find source
        | none => some (.file (.ofText right.text)) := by
      rw [isShown, virtualTree] at isSame
      cases found : mapGet virtual path with
      | some entry =>
        simp only [found] at isSame
        cases entry with
        | missing | directory => cases isSame
        | file content =>
          cases isSame
          exact kept _ (mem_of_mapGet found) isShown
      | none =>
        simp only [found] at isSame
        have unsnapped : ¬ (mapGet snapshots path).isSome := by
          intro isKey
          rw [if_pos isKey] at isSame
          cases isSame
        rw [stays path unsnapped (by simp [isRight])]
    rw [isRight] at bytes
    cases isOrigin : origin operations path with
    | some source =>
      simp only [isOrigin] at bytes isFrom
      rw [ComesFrom, ← bytes] at isFrom
      cases isFrom
      rfl
    | none =>
      simp only [isOrigin] at bytes isFrom
      obtain ⟨value, rfl⟩ := isFrom
      rw [← same, FileContent.text_ofText, FileContent.ofText_toWellFormed] at bytes
      exact (FileNode.file.inj (Option.some.inj bytes)).symm

theorem planWorkspaceEdit_eq_ok (accepted : planWorkspaceEdit tree workspaceRoot edit = .ok plan) :
    snapshotOperations tree workspaceRoot edit.operations = .ok plan.snapshots ∧
      (simulateOperations edit.operations plan.snapshots).failures = [] ∧
      plan.operations = (simulateOperations edit.operations plan.snapshots).operations := by
  rw [planWorkspaceEdit] at accepted
  split at accepted
  · cases accepted
  · rename_i root isRoot
    have same : root = workspaceRoot := by
      rw [canonicalWorkspaceRoot] at isRoot
      split at isRoot <;> cases isRoot
      rfl
    subst same
    split at accepted
    · cases accepted
    · split at accepted
      · cases accepted
      · rename_i snapshots taken
        dsimp only at accepted
        split at accepted
        · cases accepted
        · rename_i noFailures
          cases accepted
          exact ⟨taken, not_not.mp noFailures, rfl⟩

/-- Where the names are recognized, a commit refines its simulation exactly when the files
accept every operation, every text at the end can be written, and no file gets other bytes
under an unchanged text. -/
theorem commitRefines_iff {workspaceRoot : Path} {edit : ParsedWorkspaceEdit workspaceRoot}
    (accepted : planWorkspaceEdit tree workspaceRoot edit = .ok plan)
    (wellNamed : WellNamed plan.snapshots edit.operations) :
    CommitRefines tree plan (simulateOperations edit.operations plan.snapshots).virtual ↔
      (∀ planned ∈ plan.operations, Replayable planned) ∧
        TextsWellFormed (simulateOperations edit.operations plan.snapshots).virtual ∧
        ∀ entry ∈ (simulateOperations edit.operations plan.snapshots).virtual,
          BytesKept tree plan.operations entry := by
  obtain ⟨taken, noFailures, isPlanned⟩ := planWorkspaceEdit_eq_ok accepted
  obtain ⟨faithful, snapped⟩ := snapshotOperations_spec taken
  have verified := verifySnapshots_eq_none faithful
  have initial := Tracks.initial faithful
  have started : ∀ signal : AbortSignal, signal 0 = false → signal 1 = false →
      commitWorkspaceEditPlan tree plan signal =
        commitOperations plan signal 2 false ⟨noMutations, tree, none⟩ plan.operations := by
    intro signal first second
    simp [commitWorkspaceEditPlan, first, second, verified]
  have commits (signal : AbortSignal) := Tracks.commitOperations plan signal 2 false
    ⟨noMutations, tree, none⟩ initial snapped wellNamed noFailures rfl
  rw [isPlanned] at started ⊢
  constructor
  · intro refines
    obtain ⟨succeeded, shown, unchanged⟩ := refines (fun _ => false) rfl rfl
    rw [started _ rfl rfl] at succeeded shown unchanged
    by_cases replayable : ∀ planned ∈
        (simulateOperations edit.operations plan.snapshots).operations, Replayable planned
    · obtain ⟨-, tracks, comes⟩ := (if_pos replayable).mp (commits fun _ => false)
      exact ⟨replayable, tracks.shownTree_iff.mp shown,
        (unchanged_iff tracks.unique shown comes fun _ =>
          origin_of_unsnapped snapped noFailures).mp unchanged⟩
    · have failed := (if_neg replayable).mp (commits fun _ => false)
      rw [failed] at succeeded
      cases succeeded
  · rintro ⟨replayable, wellFormed, kept⟩ signal first second
    rw [started signal first second]
    obtain ⟨succeeded, tracks, comes⟩ := (if_pos replayable).mp (commits signal)
    have shown := tracks.shownTree_iff.mpr wellFormed
    exact ⟨succeeded, shown, (unchanged_iff tracks.unique shown comes fun _ =>
      origin_of_unsnapped snapped noFailures).mpr kept⟩

end Commit

/-! ## Two edits -/

/-- A workspace with one file. -/
def oneFile : WorkspaceTree :=
  (FileTree.bare.place ["w"] .directory (by decide) (by decide)).place
    ["w", "a"] (.file (.ofText (text "x"))) (by decide) (by decide)

/-- A directory with one file in it. -/
def smallTree : WorkspaceTree :=
  ((FileTree.bare.place ["w"] .directory (by decide) (by decide)).place
    ["w", "a"] .directory (by decide) (by decide)).place
      ["w", "a", "b"] (.file (.ofText (text "x"))) (by decide) (by decide)

/-- The file moves out of its directory and is then edited. -/
def moveOut : ParsedWorkspaceEdit ["w"] where
  operations :=
    [.rename 0 ["w", "a", "b"] ["w", "c"] "/w/a/b" "/w/c" false false false,
      .text 1 ["w", "c"] "/w/c" [⟨⟨⟨0, 0⟩, ⟨0, 0⟩⟩, text "y"⟩] none]
  failures := []
  inside := by decide

def moveOutPlan : WorkspaceEditPlan where
  workspaceRoot := ["w"]
  operations :=
    [.rename 0 ["w", "a", "b"] ["w", "c"] .file false,
      .text 1 ["w", "c"] (text "x") (text "yx") 1 none]
  snapshots :=
    [(["w"], .directory none), (["w", "a", "b"], .file (text "x")),
      (["w", "a"], .directory none), (["w", "c"], .missing)]
  firstChangeByPath := [(["w", "a", "b"], 0), (["w", "c"], 0)]
  reportedPathByCanonical := [(["w", "a", "b"], "/w/a/b"), (["w", "c"], "/w/c")]

theorem commitRefines_iff_moveOut :
    CommitRefines smallTree moveOutPlan
      (simulateOperations moveOut.operations moveOutPlan.snapshots).virtual :=
  (commitRefines_iff (show planWorkspaceEdit smallTree ["w"] moveOut = .ok moveOutPlan by
    decide +kernel) (by decide +kernel)).mpr
      ⟨by decide +kernel, by decide +kernel, by decide +kernel⟩

/-- The file takes the place of its directory. -/
def ontoParent : ParsedWorkspaceEdit ["w"] where
  operations := [.rename 0 ["w", "a", "b"] ["w", "a"] "/w/a/b" "/w/a" true false false]
  failures := []
  inside := by decide

def ontoParentPlan : WorkspaceEditPlan where
  workspaceRoot := ["w"]
  operations := [.rename 0 ["w", "a", "b"] ["w", "a"] .file true]
  snapshots :=
    [(["w"], .directory none), (["w", "a", "b"], .file (text "x")),
      (["w", "a"], .directory (some ["b"]))]
  firstChangeByPath := [(["w", "a", "b"], 0), (["w", "a"], 0)]
  reportedPathByCanonical := [(["w", "a", "b"], "/w/a/b"), (["w", "a"], "/w/a")]

/-- The directory is removed with the file in it, and nothing is left to rename. -/
theorem not_commitRefines_ontoParent :
    planWorkspaceEdit smallTree ["w"] ontoParent = .ok ontoParentPlan ∧
      ¬ CommitRefines smallTree ontoParentPlan
        (simulateOperations ontoParent.operations ontoParentPlan.snapshots).virtual := by
  refine ⟨by decide +kernel, fun refines => ?_⟩
  have succeeded := (refines (fun _ => false) rfl rfl).1
  revert succeeded
  decide +kernel

end OpenAgent.Lsp
