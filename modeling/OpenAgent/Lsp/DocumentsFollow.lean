import OpenAgent.Lsp.CommitRefinement
import OpenAgent.Lsp.OpenDocuments

/-!
# Open documents follow a commit

The mutations of a commit, carried out on the tree it began with, give the tree it ended
with.  Behind it the open documents are the images of those before, with the texts of
their files, exactly when each file that is read for a document is there, and each
document that no mutation touches was in step with its file.
-/

namespace OpenAgent.Lsp

open Library

variable {tree : WorkspaceTree}

/-- The text of the file at a path. -/
def fileText (disk : WorkspaceTree) (path : Path) : Option Text :=
  match disk.find path with
  | some (.file content) => some content.text
  | _ => none

/-- Where a mutation takes what is at a path. -/
def imageUnder : WorkspaceMutation → Path → Option Path
  | .text .., path => some path
  | .create .., path => some path
  | .rename oldPath newPath _, path =>
    if oldPath <+: path then some (newPath ++ path.drop oldPath.length) else some path
  | .delete removed _, path => if removed <+: path then none else some path

/-- Where all mutations of a delta take what is at a path. -/
def imageUnderAll : List WorkspaceMutation → Path → Option Path
  | [], path => some path
  | mutation :: rest, path => (imageUnder mutation path).bind (imageUnderAll rest)

def Touches : WorkspaceMutation → Path → Prop
  | .text changed .., path => changed = path
  | .create created _, path => created = path
  | .rename oldPath .., path => oldPath <+: path
  | .delete removed _, path => removed <+: path

instance decidableTouches : ∀ mutation path, Decidable (Touches mutation path) := by
  intro mutation path
  unfold Touches
  split <;> infer_instance

/-- After the synchronization the open documents are the images of those before, each with
the text of its file, and the server has the same documents, versions and texts. -/
def DocumentsFollow (disk : WorkspaceTree) (documents : WorkspaceDocumentState)
    (delta : WorkspaceMutationDelta) : Prop :=
  ∃ after, synchronize disk documents delta = .ok after ∧
    (∀ path, (mapGet after.openDocuments path).isSome ↔
      ∃ source, (mapGet documents.openDocuments source).isSome ∧
        imageUnderAll delta.operations source = some path) ∧
    (∀ path state, mapGet after.openDocuments path = some state →
      fileText disk path = some state.text) ∧
    ∀ path, mapGet (serverView after.sent) path =
      (mapGet after.openDocuments path).map fun state => (state.version, state.text)

/-- The open documents are kept under their paths, and the server knows of them. -/
structure Served (documents : WorkspaceDocumentState) : Prop where
  unique : (documents.openDocuments.map Prod.fst).Nodup
  keyed : ∀ entry ∈ documents.openDocuments, entry.2.path = entry.1
  viewed : ∀ path, mapGet (serverView documents.sent) path =
    (mapGet documents.openDocuments path).map fun state => (state.version, state.text)

/-- A document is found where a mutation moves or removes it, nothing is moved onto it, and
its new text can be written. -/
def Followed : WorkspaceMutation → Path → Prop
  | .text changed _ afterText, path => changed = path → toWellFormed afterText = afterText
  | .create .., _ => True
  | .rename oldPath newPath _, path =>
    (oldPath <+: path → isSameOrDescendant path oldPath = true) ∧
      (newPath <+: path → oldPath <+: path)
  | .delete removed _, path => removed <+: path → isSameOrDescendant path removed = true

instance decidableFollowed : ∀ mutation path, Decidable (Followed mutation path) := by
  intro mutation path
  unfold Followed
  split <;> infer_instance

/-- What holds of a document at every mutation, wherever it is by then. -/
def Throughout (condition : WorkspaceMutation → Path → Prop) : List WorkspaceMutation → Path → Prop
  | [], _ => True
  | mutation :: rest, path =>
    condition mutation path ∧
      match imageUnder mutation path with
      | some next => Throughout condition rest next
      | none => True

instance decidableThroughout (condition : WorkspaceMutation → Path → Prop)
    [∀ mutation path, Decidable (condition mutation path)] :
    ∀ mutations path, Decidable (Throughout condition mutations path)
  | [], _ => inferInstanceAs (Decidable True)
  | mutation :: rest, path => by
      have later : Decidable (match imageUnder mutation path with
          | some next => Throughout condition rest next
          | none => True) :=
        match imageUnder mutation path with
        | some next => decidableThroughout condition rest next
        | none => inferInstanceAs (Decidable True)
      exact inferInstanceAs (Decidable (_ ∧ _))

/-- The path at which a document is opened again for a mutation. -/
def reopenedAt : WorkspaceMutation → Path → Option Path
  | .create created _, path => if created = path then some path else none
  | .rename oldPath newPath _, path =>
    if oldPath <+: path then some (newPath ++ path.drop oldPath.length) else none
  | _, _ => none

/-- A document that is opened again finds its file. -/
def ReopensFound (disk : WorkspaceTree) (mutation : WorkspaceMutation) (path : Path) : Prop :=
  ∀ target ∈ reopenedAt mutation path, (fileText disk target).isSome

instance decidableReopensFound (disk : WorkspaceTree) (mutation : WorkspaceMutation)
    (path : Path) : Decidable (ReopensFound disk mutation path) :=
  inferInstanceAs (Decidable (∀ target ∈ reopenedAt mutation path, (fileText disk target).isSome))

/-- A document that no mutation touches is in step with its file. -/
def UntouchedInStep (disk : WorkspaceTree) (mutations : List WorkspaceMutation) (path : Path)
    (state : OpenDocumentState) : Prop :=
  (∀ mutation ∈ mutations, ¬ Touches mutation path) → fileText disk path = some state.text

instance decidableUntouchedInStep (disk : WorkspaceTree) (mutations : List WorkspaceMutation)
    (path : Path)
    (state : OpenDocumentState) : Decidable (UntouchedInStep disk mutations path state) :=
  inferInstanceAs (Decidable ((∀ mutation ∈ mutations, ¬ Touches mutation path) →
    fileText disk path = some state.text))

def performMutation (tree : WorkspaceTree) :
    WorkspaceMutation → Except FileError WorkspaceTree
  | .text path _ afterText => tree.writeFile path (.ofText afterText)
  | .create path _ => tree.writeFile path (.ofText [])
  | .rename oldPath newPath _ => tree.rename oldPath newPath
  | .delete path _ => tree.remove path true

/-- The recorded mutations lead from the first tree to the present one. -/
def Performed (tree : WorkspaceTree) (progress : CommitProgress) : Prop :=
  progress.accumulator.mutations.foldlM performMutation tree = .ok progress.tree

theorem Performed.perform (performed : Performed tree progress) (plan : WorkspaceEditPlan)
    (path : Path) (edits : Nat)
    (isOutcome : ∀ next, outcome = .ok next → performMutation progress.tree mutation = .ok next) :
    Performed tree (progress.perform outcome
      (progress.accumulator.record plan mutation path edits)) := by
  cases outcome with
  | error error => exact performed
  | ok next =>
    rw [Performed, CommitProgress.perform, CommitAccumulator.record, List.foldlM_append, performed]
    exact foldlM_cons_eq_ok.mpr ⟨next, isOutcome next rfl, rfl⟩

/-- What is removed without its subtree has none. -/
theorem remove_recursive (removed : tree.remove path recursive = .ok next) :
    tree.remove path true = .ok next := by
  cases recursive with
  | true => exact removed
  | false =>
    rw [FileTree.remove] at removed ⊢
    split at removed
    · cases removed
    · rename_i notRoot
      rw [dif_neg notRoot]
      split at removed
      · cases removed
      · cases removed
      · exact removed

theorem Performed.commitOperation (performed : Performed tree progress) (plan : WorkspaceEditPlan)
    (planned : PlannedWorkspaceOperation) :
    Performed tree (Lsp.commitOperation plan progress planned) := by
  cases planned with
  | noop => exact performed
  | text | create => exact performed.perform plan _ _ fun _ written => written
  | delete => exact performed.perform plan _ _ fun _ removed => remove_recursive removed
  | rename changeIndex oldPath newPath sourceKind replaceDestination =>
    have cleared : Performed tree (if replaceDestination then
        removeDestination plan progress newPath else progress) := by
      split
      · exact performed.perform plan _ _ fun _ removed => remove_recursive removed
      · exact performed
    rw [Lsp.commitOperation]
    generalize (if replaceDestination then removeDestination plan progress newPath
      else progress) = before at cleared ⊢
    split
    · exact cleared
    · exact cleared.perform plan _ _ fun _ renamed => renamed

theorem Performed.commitOperations (plan : WorkspaceEditPlan) (signal : AbortSignal) (look : Nat)
    (lateAbort : Bool) (performed : Performed tree progress)
    (operations : List PlannedWorkspaceOperation) :
    (Lsp.commitOperations plan signal look lateAbort progress
        operations).1.delta.operations.foldlM performMutation tree =
      .ok (Lsp.commitOperations plan signal look lateAbort progress operations).2 := by
  induction operations generalizing look lateAbort progress with
  | nil => exact performed
  | cons planned operations ih =>
    have next := performed.commitOperation plan planned
    rw [Lsp.commitOperations]
    split
    · exact next
    · exact ih (look + 1) (lateAbort || signal look) next

/-- The delta of a commit is what it has done to the tree, also when it has failed. -/
theorem performed_of_commit (tree : WorkspaceTree) (plan : WorkspaceEditPlan)
    (signal : AbortSignal) :
    (commitWorkspaceEditPlan tree plan signal).1.delta.operations.foldlM performMutation tree =
      .ok (commitWorkspaceEditPlan tree plan signal).2 := by
  have begun : Performed tree ⟨noMutations, tree, none⟩ := rfl
  rw [commitWorkspaceEditPlan]
  split
  · rfl
  · split
    · rename_i stale isStale
      obtain ⟨entry, -, failed⟩ := List.exists_of_findSome?_eq_some isStale
      obtain ⟨message, -, rfl⟩ := Option.map_eq_some_iff.mp failed
      rfl
    · split
      · rfl
      · exact begun.commitOperations plan signal 2 false plan.operations

/-- What a mutation does not touch stays, unless something is moved onto it. -/
theorem find_of_performMutation (performed : performMutation tree mutation = .ok next)
    (followed : Followed mutation path) (untouched : ¬ Touches mutation path) :
    next.find path = tree.find path := by
  cases mutation with
  | text changed beforeText afterText | create created replaced =>
    rw [FileTree.find_of_writeFile performed, if_neg fun same => untouched same.symm]
  | rename oldPath newPath sourceKind =>
    rcases FileTree.find_of_rename performed with rfl | found
    · rfl
    · rw [found, if_neg fun beneath => untouched (followed.2 beneath),
      if_neg (show ¬ oldPath <+: path from untouched)]
  | delete removed targetKind =>
    rw [FileTree.find_of_remove performed, if_neg (show ¬ removed <+: path from untouched)]

theorem imageUnder_of_untouched (untouched : ¬ Touches mutation path) :
    imageUnder mutation path = some path := by
  cases mutation with
  | text => rfl
  | create => rfl
  | rename | delete => exact if_neg untouched

/-- What no mutation touches is at the end as it was. -/
theorem find_of_untouched (performed : mutations.foldlM performMutation tree = .ok disk)
    (followable : Throughout Followed mutations path)
    (untouched : ∀ mutation ∈ mutations, ¬ Touches mutation path) :
    disk.find path = tree.find path := by
  induction mutations generalizing tree with
  | nil =>
    cases performed
    rfl
  | cons mutation mutations ih =>
    obtain ⟨next, first, rest⟩ := foldlM_cons_eq_ok.mp performed
    obtain ⟨followed, later⟩ := followable
    rw [List.forall_mem_cons] at untouched
    rw [imageUnder_of_untouched untouched.1] at later
    rw [ih rest later untouched.2, find_of_performMutation first followed untouched.1]

theorem serverView_append : serverView (sent ++ next) = next.foldl receive (serverView sent) :=
  List.foldl_append

namespace Served

theorem noDocuments : Served noDocuments :=
  ⟨List.nodup_nil, fun _ isEntry => absurd isEntry List.not_mem_nil, fun _ => rfl⟩

variable (served : Served documents)
include served

theorem path_of_mapGet (isOpen : mapGet documents.openDocuments path = some state) :
    state.path = path :=
  served.keyed _ (mem_of_mapGet isOpen)

theorem openDocument (path : Path) (text : Text) : Served (openDocument documents path text) := by
  refine ⟨nodup_keys_mapSet served.unique path _, ?_, fun other => ?_⟩
  · intro entry isEntry
    rcases eq_or_mem_of_mem_mapSet isEntry with rfl | wasThere
    · rfl
    · exact served.keyed entry wasThere
  · rw [Lsp.openDocument, serverView_append]
    change mapGet (mapSet _ path _) other = _
    rw [mapGet_mapSet, mapGet_mapSet, served.viewed other]
    split <;> rfl

theorem changeDocument (isOpen : mapGet documents.openDocuments path = some state)
    (text : Text) : Served (changeDocument documents state text) := by
  have isPath := served.path_of_mapGet isOpen
  have isKnown : (mapGet (serverView documents.sent) state.path).isSome = true := by
    rw [served.viewed, isPath, isOpen]
    rfl
  refine ⟨nodup_keys_mapSet served.unique state.path _, ?_, fun other => ?_⟩
  · intro entry isEntry
    rcases eq_or_mem_of_mem_mapSet isEntry with rfl | wasThere
    · rfl
    · exact served.keyed entry wasThere
  · rw [Lsp.changeDocument, serverView_append, List.foldl_cons, receive, if_pos isKnown]
    change mapGet (mapSet _ state.path _) other = _
    rw [mapGet_mapSet, mapGet_mapSet, served.viewed other]
    split <;> rfl

theorem closeDocument (state : OpenDocumentState) : Served (closeDocument documents state) := by
  refine ⟨nodup_keys_mapDelete served.unique state.path, ?_, fun other => ?_⟩
  · intro entry isEntry
    exact served.keyed entry (List.mem_of_mem_filter isEntry)
  · rw [Lsp.closeDocument, serverView_append]
    change mapGet (mapDelete _ state.path) other = _
    rw [mapGet_mapDelete, mapGet_mapDelete, served.viewed other]
    split <;> rfl

theorem openFile (opened : Lsp.openFile disk documents path = .ok after) : Served after := by
  obtain ⟨content, -, isAfter⟩ := bind_eq_ok.mp opened
  split at isAfter
  · cases isAfter
    exact served.openDocument path content.text
  · rename_i existing isOpen
    split at isAfter
    · cases isAfter
      exact served
    · cases isAfter
      exact served.changeDocument isOpen content.text

theorem foldl_closeDocument
    (states : List OpenDocumentState) : Served (states.foldl Lsp.closeDocument documents) := by
  induction states generalizing documents with
  | nil => exact served
  | cons state states ih => exact ih (served.closeDocument state)

/-- Events for files leave the view as it is. -/
theorem watched (events : List WatchedFileEvent) :
    Served { documents with sent := documents.sent ++ watchedNotifications events } := by
  have unchanged : ∀ (batches : List (List WatchedFileEvent)) (view : ServerView),
      (batches.map Notification.didChangeWatchedFiles).foldl receive view = view := by
    intro batches view
    induction batches with
    | nil => rfl
    | cons batch batches ih => exact ih
  refine ⟨served.unique, served.keyed, fun path => ?_⟩
  rw [serverView_append, watchedNotifications, unchanged]
  exact served.viewed path

end Served

theorem readFile_eq_ok_iff :
    fileText disk path = some value ↔
      ∃ content, disk.readFile path = .ok content ∧ content.text = value := by
  rw [fileText]
  constructor
  · intro isText
    split at isText
    · rename_i content isFile
      cases isText
      exact ⟨content, FileTree.readFile_eq_ok.mpr isFile, rfl⟩
    · cases isText
  · rintro ⟨content, isRead, rfl⟩
    rw [FileTree.readFile_eq_ok.mp isRead]

theorem reopenDocument_eq_ok :
    reopenDocument disk documents path = .ok after ↔
      ∃ value, fileText disk path = some value ∧ after = openDocument documents path value := by
  rw [reopenDocument, bind_eq_ok]
  constructor
  · rintro ⟨content, isRead, isAfter⟩
    cases isAfter
    exact ⟨content.text, readFile_eq_ok_iff.mpr ⟨content, isRead, rfl⟩, rfl⟩
  · rintro ⟨value, isText, rfl⟩
    obtain ⟨content, isRead, rfl⟩ := readFile_eq_ok_iff.mp isText
    exact ⟨content, isRead, rfl⟩

theorem mapGet_foldl_closeDocument (states : List OpenDocumentState) :
    mapGet (states.foldl closeDocument documents).openDocuments path =
      if path ∈ states.map OpenDocumentState.path then none
      else mapGet documents.openDocuments path := by
  induction states generalizing documents with
  | nil => simp
  | cons state states ih =>
    rw [List.foldl_cons, ih, closeDocument]
    rw [mapGet_mapDelete]
    by_cases isState : path = state.path <;>
      simp [isState]

section

variable (target : OpenDocumentState → Path)

/-- The loop that opens documents again, at targets that differ for different documents. -/
theorem foldlM_reopenDocument {states : List OpenDocumentState} (served : Served documents)
    (reopened : states.foldlM (fun documents state =>
      reopenDocument disk documents (target state)) documents = .ok after) :
    Served after ∧ (∀ state ∈ states, (fileText disk (target state)).isSome) ∧
      ∀ path, mapGet after.openDocuments path =
        if path ∈ states.map target then (fileText disk path).map (openedDocument path)
        else mapGet documents.openDocuments path := by
  induction states generalizing documents with
  | nil =>
    cases reopened
    exact ⟨served, fun _ isState => absurd isState List.not_mem_nil, fun _ => by simp⟩
  | cons state states ih =>
    obtain ⟨middle, first, rest⟩ := foldlM_cons_eq_ok.mp reopened
    obtain ⟨value, isText, rfl⟩ := reopenDocument_eq_ok.mp first
    obtain ⟨laterServed, found, reading⟩ :=
      ih (served.openDocument (target state) value) rest
    refine ⟨laterServed, List.forall_mem_cons.mpr ⟨by rw [isText]; rfl, found⟩, ?_⟩
    intro path
    rw [reading path, openDocument]
    rw [mapGet_mapSet]
    by_cases isLater : path ∈ states.map target
    · simp [isLater]
    · by_cases isTarget : path = target state
      · subst isTarget
        simp [isText]
      · simp [isTarget]

theorem foldlM_reopenDocument_ok {states : List OpenDocumentState}
    (found : ∀ state ∈ states, (fileText disk (target state)).isSome)
    (documents : WorkspaceDocumentState) :
    ∃ after, states.foldlM (fun documents state =>
      reopenDocument disk documents (target state)) documents = .ok after := by
  induction states generalizing documents with
  | nil => exact ⟨documents, rfl⟩
  | cons state states ih =>
    rw [List.forall_mem_cons] at found
    obtain ⟨value, isText⟩ := Option.isSome_iff_exists.mp found.1
    obtain ⟨after, rest⟩ :=
      ih found.2 (openDocument documents (target state) value)
    exact ⟨after, foldlM_cons_eq_ok.mpr ⟨_, reopenDocument_eq_ok.mpr ⟨value, isText, rfl⟩, rest⟩⟩

end

/-- What the synchronization of a mutation does to the open documents. -/
structure Synchronizes (disk : WorkspaceTree) (mutation : WorkspaceMutation)
    (before after : WorkspaceDocumentState) : Prop where
  served : Served after
  found : ∀ path, (mapGet before.openDocuments path).isSome → ReopensFound disk mutation path
  images : ∀ path, (mapGet after.openDocuments path).isSome ↔
    ∃ source, (mapGet before.openDocuments source).isSome ∧ imageUnder mutation source = some path
  kept : ∀ path state, mapGet before.openDocuments path = some state →
    ¬ Touches mutation path → mapGet after.openDocuments path = some state
  /-- A document was there and is untouched, has just been read, or has a new text. -/
  origin : ∀ path state, mapGet after.openDocuments path = some state →
    (mapGet before.openDocuments path = some state ∧ ¬ Touches mutation path) ∨
      fileText disk path = some state.text ∨
      ∃ beforeText, mutation = .text path beforeText state.text

theorem mem_documentsBeneath (served : Served documents) :
    state ∈ documentsBeneath documents path ↔
      mapGet documents.openDocuments state.path = some state ∧
        isSameOrDescendant state.path path = true := by
  rw [documentsBeneath, List.mem_filter]
  constructor
  · rintro ⟨isState, recognized⟩
    obtain ⟨entry, isEntry, rfl⟩ := List.mem_map.mp isState
    rw [served.keyed entry isEntry]
    exact ⟨mapGet_of_mem served.unique isEntry, served.keyed entry isEntry ▸ recognized⟩
  · rintro ⟨isOpen, recognized⟩
    exact ⟨List.mem_map.mpr ⟨_, mem_of_mapGet isOpen, rfl⟩, recognized⟩

section

variable (served : Served documents)
include served

theorem mem_paths_documentsBeneath {removed}
    (recognized : ∀ path, (mapGet documents.openDocuments path).isSome → removed <+: path →
      isSameOrDescendant path removed = true)
    (path : Path) :
    path ∈ (documentsBeneath documents removed).map OpenDocumentState.path ↔
      (mapGet documents.openDocuments path).isSome ∧ removed <+: path := by
  rw [List.mem_map]
  constructor
  · rintro ⟨state, isState, rfl⟩
    obtain ⟨isOpen, isRecognized⟩ := (mem_documentsBeneath served).mp isState
    exact ⟨by rw [isOpen]; rfl, prefix_of_isSameOrDescendant isRecognized⟩
  · rintro ⟨isOpen, beneath⟩
    obtain ⟨state, found⟩ := Option.isSome_iff_exists.mp isOpen
    obtain rfl := served.path_of_mapGet found
    exact ⟨state, (mem_documentsBeneath served).mpr ⟨found, recognized _ isOpen beneath⟩, rfl⟩

theorem mapGet_closeBeneath {removed}
    (recognized : ∀ path, (mapGet documents.openDocuments path).isSome → removed <+: path →
      isSameOrDescendant path removed = true)
    (path : Path) :
    mapGet ((documentsBeneath documents removed).foldl closeDocument documents).openDocuments path =
      if removed <+: path then none else mapGet documents.openDocuments path := by
  rw [mapGet_foldl_closeDocument]
  simp only [mem_paths_documentsBeneath served recognized]
  by_cases beneath : removed <+: path
  · cases isOpen : mapGet documents.openDocuments path <;> simp
  · rw [if_neg beneath, if_neg fun both => beneath both.2]

theorem synchronizes_of_closed (isClosed : mapGet documents.openDocuments path = none)
    (touches : ∀ other, Touches mutation other ↔ path = other)
    (images : ∀ other, imageUnder mutation other = some other)
    (reopens : ∀ other ≠ path, reopenedAt mutation other = none) :
    Synchronizes disk mutation documents documents where
  served := served
  found := by
    intro other isOpen target isTarget
    have apart : other ≠ path := by
      rintro rfl
      rw [isClosed] at isOpen
      cases isOpen
    rw [reopens other apart] at isTarget
    cases isTarget
  images := by simp [images]
  kept := fun _ _ isOpen _ => isOpen
  origin := by
    intro other state isOpen
    refine Or.inl ⟨isOpen, fun touched => ?_⟩
    obtain rfl := (touches other).mp touched
    rw [isClosed] at isOpen
    cases isOpen

section

variable (isOpen : mapGet documents.openDocuments path = some state)
include isOpen

theorem synchronizes_text (beforeText afterText : Text) :
    Synchronizes disk (.text path beforeText afterText) documents
      (changeDocument documents state afterText) := by
  obtain rfl := served.path_of_mapGet isOpen
  have reading : ∀ other, mapGet (changeDocument documents state afterText).openDocuments other =
      if other = state.path then some (changedDocument state afterText)
      else mapGet documents.openDocuments other :=
    fun other => mapGet_mapSet _ _ _ _
  refine ⟨served.changeDocument isOpen afterText, fun _ _ _ isTarget => (by cases isTarget),
    ?_, ?_, ?_⟩
  · intro other
    rw [reading]
    by_cases same : other = state.path
    · subst same
      simp [imageUnder, isOpen]
    · simp [imageUnder, same]
  · intro other kept isKept untouched
    rw [reading, if_neg fun same => untouched same.symm, isKept]
  · intro other found isFound
    rw [reading] at isFound
    by_cases same : other = state.path
    · rw [if_pos same] at isFound
      cases isFound
      exact Or.inr (Or.inr ⟨beforeText, by rw [same]; rfl⟩)
    · rw [if_neg same] at isFound
      exact Or.inl ⟨isFound, fun touched => same touched.symm⟩

theorem synchronizes_create (replaced : Bool) (isText : fileText disk path = some value) :
    Synchronizes disk (.create path replaced) documents
      (openDocument (closeDocument documents state) path value) := by
  obtain rfl := served.path_of_mapGet isOpen
  have reading : ∀ other,
      mapGet (openDocument (closeDocument documents state) state.path value).openDocuments other =
        if other = state.path then some (openedDocument state.path value)
        else mapGet documents.openDocuments other := by
    intro other
    rw [openDocument, closeDocument, mapGet_mapSet, mapGet_mapDelete]
    by_cases same : other = state.path <;> simp [same]
  refine ⟨(served.closeDocument state).openDocument state.path value, ?_, ?_, ?_, ?_⟩
  · intro other isOther target isTarget
    rw [reopenedAt] at isTarget
    split at isTarget
    · rename_i same
      cases isTarget
      rw [← same, isText]
      rfl
    · cases isTarget
  · intro other
    rw [reading]
    by_cases same : other = state.path
    · subst same
      simp [imageUnder, isOpen]
    · simp [imageUnder, same]
  · intro other kept isKept untouched
    rw [reading, if_neg fun same => untouched same.symm, isKept]
  · intro other found isFound
    rw [reading] at isFound
    by_cases same : other = state.path
    · rw [if_pos same] at isFound
      cases isFound
      rw [same]
      exact Or.inr (Or.inl isText)
    · rw [if_neg same] at isFound
      exact Or.inl ⟨isFound, fun touched => same touched.symm⟩

end

theorem synchronizes_delete {removed}
    (followed : ∀ path, (mapGet documents.openDocuments path).isSome →
      Followed (.delete removed targetKind) path) :
    Synchronizes disk (.delete removed targetKind) documents
      ((documentsBeneath documents removed).foldl closeDocument documents) := by
  have reading := mapGet_closeBeneath served followed
  refine ⟨served.foldl_closeDocument _, fun _ _ _ isTarget => (by cases isTarget), ?_, ?_, ?_⟩
  · intro other
    rw [reading]
    constructor
    · intro isOpen
      by_cases beneath : removed <+: other
      · rw [if_pos beneath] at isOpen
        cases isOpen
      · rw [if_neg beneath] at isOpen
        exact ⟨other, isOpen, if_neg beneath⟩
    · rintro ⟨source, isOpen, isImage⟩
      rw [imageUnder] at isImage
      split at isImage
      · cases isImage
      · rename_i outside
        cases isImage
        rw [if_neg outside]
        exact isOpen
  · intro other kept isKept untouched
    rw [reading, if_neg (show ¬ removed <+: other from untouched), isKept]
  · intro other found isFound
    rw [reading] at isFound
    split at isFound
    · cases isFound
    · rename_i outside
      exact Or.inl ⟨isFound, outside⟩

theorem synchronizes_rename
    (followed : ∀ path, (mapGet documents.openDocuments path).isSome →
      Followed (.rename oldPath newPath sourceKind) path)
    (reopened : (documentsBeneath documents oldPath).foldlM (fun documents document =>
        reopenDocument disk documents (movedPath document.path oldPath newPath))
      ((documentsBeneath documents oldPath).foldl closeDocument documents) = .ok after) :
    Synchronizes disk (.rename oldPath newPath sourceKind) documents after := by
  have recognized := fun path isOpen => (followed path isOpen).1
  have closed := mapGet_closeBeneath served recognized
  obtain ⟨laterServed, found, reading⟩ := foldlM_reopenDocument
    (fun document => movedPath document.path oldPath newPath)
    (served.foldl_closeDocument _) reopened
  have isTarget : ∀ path, path ∈ (documentsBeneath documents oldPath).map
      (fun document => movedPath document.path oldPath newPath) ↔
        ∃ source, (mapGet documents.openDocuments source).isSome ∧ oldPath <+: source ∧
          newPath ++ source.drop oldPath.length = path := by
    intro path
    constructor
    · intro isMoved
      obtain ⟨state, isState, rfl⟩ := List.mem_map.mp isMoved
      obtain ⟨isOpen, beneath⟩ := (mem_paths_documentsBeneath served recognized state.path).mp
        (List.mem_map_of_mem isState)
      exact ⟨state.path, isOpen, beneath, (movedPath_beneath beneath newPath).symm⟩
    · rintro ⟨source, isOpen, beneath, rfl⟩
      obtain ⟨state, isState, rfl⟩ := List.mem_map.mp
        ((mem_paths_documentsBeneath served recognized source).mpr ⟨isOpen, beneath⟩)
      exact List.mem_map.mpr ⟨state, isState, movedPath_beneath beneath newPath⟩
  have targetFound : ∀ path ∈ (documentsBeneath documents oldPath).map
      (fun document => movedPath document.path oldPath newPath), (fileText disk path).isSome := by
    intro path isMoved
    obtain ⟨state, isState, rfl⟩ := List.mem_map.mp isMoved
    exact found state isState
  refine ⟨laterServed, ?_, ?_, ?_, ?_⟩
  · intro path isOpen target isReopened
    rw [reopenedAt] at isReopened
    split at isReopened
    · rename_i beneath
      cases isReopened
      exact targetFound _ ((isTarget _).mpr ⟨path, isOpen, beneath, rfl⟩)
    · cases isReopened
  · intro path
    rw [reading, closed]
    by_cases isMoved : path ∈ (documentsBeneath documents oldPath).map
        fun document => movedPath document.path oldPath newPath
    · rw [if_pos isMoved, Option.isSome_map]
      obtain ⟨source, isOpen, beneath, isImage⟩ := (isTarget path).mp isMoved
      exact ⟨fun _ => ⟨source, isOpen, by rw [imageUnder, if_pos beneath, isImage]⟩,
        fun _ => targetFound path isMoved⟩
    · rw [if_neg isMoved]
      constructor
      · intro isOpen
        by_cases beneath : oldPath <+: path
        · rw [if_pos beneath] at isOpen
          cases isOpen
        · rw [if_neg beneath] at isOpen
          exact ⟨path, isOpen, if_neg beneath⟩
      · rintro ⟨source, isOpen, isImage⟩
        rw [imageUnder] at isImage
        split at isImage
        · rename_i beneath
          exact absurd ((isTarget path).mpr ⟨source, isOpen, beneath, Option.some.inj isImage⟩)
            isMoved
        · rename_i outside
          cases isImage
          rw [if_neg outside]
          exact isOpen
  · intro path state isKept untouched
    have outside : ¬ oldPath <+: path := untouched
    have notTarget : path ∉ (documentsBeneath documents oldPath).map
        fun document => movedPath document.path oldPath newPath := by
      intro isMoved
      obtain ⟨source, -, -, rfl⟩ := (isTarget path).mp isMoved
      have isOpen : (mapGet documents.openDocuments
          (newPath ++ source.drop oldPath.length)).isSome = true := by
        rw [isKept]
        rfl
      exact outside ((followed _ isOpen).2 (List.prefix_append newPath _))
    rw [reading, if_neg notTarget, closed, if_neg outside, isKept]
  · intro path state isFound
    rw [reading] at isFound
    split at isFound
    · obtain ⟨value, isText, rfl⟩ := Option.map_eq_some_iff.mp isFound
      exact Or.inr (Or.inl isText)
    · rw [closed] at isFound
      split at isFound
      · cases isFound
      · rename_i outside
        exact Or.inl ⟨isFound, outside⟩

end

section Mutation

theorem synchronizeMutation_spec (served : Served documents)
    (followed : ∀ path, (mapGet documents.openDocuments path).isSome → Followed mutation path)
    (synchronized : synchronizeMutation disk (documents, watched) mutation = .ok result) :
    Synchronizes disk mutation documents result.1 := by
  cases mutation with
  | text path beforeText afterText =>
    rw [synchronizeMutation] at synchronized
    split at synchronized
    · rename_i state isOpen
      cases synchronized
      exact synchronizes_text served isOpen beforeText afterText
    · rename_i isClosed
      cases synchronized
      exact synchronizes_of_closed served isClosed (fun _ => Iff.rfl) (fun _ => rfl) fun _ _ => rfl
  | create path replaced =>
    rw [synchronizeMutation] at synchronized
    split at synchronized
    · rename_i state isOpen
      obtain ⟨reopened, isReopened, same⟩ := bind_eq_ok.mp synchronized
      obtain ⟨value, isText, rfl⟩ := reopenDocument_eq_ok.mp isReopened
      cases same
      exact synchronizes_create served isOpen replaced isText
    · rename_i isClosed
      cases synchronized
      exact synchronizes_of_closed served isClosed (fun _ => Iff.rfl) (fun _ => rfl)
        fun _ apart => if_neg (Ne.symm apart)
  | rename oldPath newPath sourceKind =>
    obtain ⟨reopened, isReopened, same⟩ := bind_eq_ok.mp synchronized
    cases same
    exact synchronizes_rename served followed isReopened
  | delete removed targetKind =>
    cases synchronized
    exact synchronizes_delete served followed

theorem synchronizeMutation_ok (served : Served documents)
    (found : ∀ path, (mapGet documents.openDocuments path).isSome →
      ReopensFound disk mutation path) :
    ∃ result, synchronizeMutation disk (documents, watched) mutation = .ok result := by
  cases mutation with
  | text path beforeText afterText =>
    rw [synchronizeMutation]
    split <;> exact ⟨_, rfl⟩
  | create path replaced =>
    rw [synchronizeMutation]
    split
    · rename_i state isOpen
      have isFound := found path (by rw [isOpen]; rfl) path (if_pos rfl)
      obtain ⟨value, isText⟩ := Option.isSome_iff_exists.mp isFound
      exact ⟨_, bind_eq_ok.mpr ⟨_, reopenDocument_eq_ok.mpr ⟨value, isText, rfl⟩, rfl⟩⟩
    · exact ⟨_, rfl⟩
  | rename oldPath newPath sourceKind =>
    have targets : ∀ state ∈ documentsBeneath documents oldPath,
        (fileText disk (movedPath state.path oldPath newPath)).isSome := by
      intro state isState
      obtain ⟨isOpen, recognized⟩ := (mem_documentsBeneath served).mp isState
      have beneath := prefix_of_isSameOrDescendant recognized
      rw [movedPath_beneath beneath]
      exact found state.path (by rw [isOpen]; rfl) _ (if_pos beneath)
    obtain ⟨reopened, isReopened⟩ := foldlM_reopenDocument_ok
      (fun state => movedPath state.path oldPath newPath) targets
      ((documentsBeneath documents oldPath).foldl closeDocument documents)
    exact ⟨_, bind_eq_ok.mpr ⟨reopened, isReopened, rfl⟩⟩
  | delete removed targetKind => exact ⟨_, rfl⟩

end Mutation

section Delta

theorem throughout_later (synchronizes : Synchronizes disk mutation documents after)
    (throughout : ∀ path, (mapGet documents.openDocuments path).isSome →
      Throughout condition (mutation :: mutations) path) :
    ∀ path, (mapGet after.openDocuments path).isSome → Throughout condition mutations path := by
  intro path isOpen
  obtain ⟨source, wasOpen, isImage⟩ := (synchronizes.images path).mp isOpen
  have later := (throughout source wasOpen).2
  rw [isImage] at later
  exact later

/-- The first mutation for a document with a new text wrote that text. -/
theorem fileText_of_written
    (performed : performMutation tree (.text path beforeText value) = .ok next)
    (wellFormed : toWellFormed value = value) : fileText next path = some value := by
  rw [fileText, FileTree.find_of_writeFile performed, if_pos rfl]
  exact congrArg some ((FileContent.text_ofText value).trans wellFormed)

/-- A synchronized delta: the documents are the images of those before, all files that were
read are there, and the texts are those of the files if they were so where nothing was
done. -/
theorem synchronizeMutations_spec (served : Served documents)
    (followable : ∀ path, (mapGet documents.openDocuments path).isSome →
      Throughout Followed mutations path)
    (performed : mutations.foldlM performMutation tree = .ok disk)
    (synchronized : mutations.foldlM (synchronizeMutation disk) (documents, watched) = .ok result) :
    Served result.1 ∧
      (∀ path, (mapGet documents.openDocuments path).isSome →
        Throughout (ReopensFound disk) mutations path) ∧
      (∀ path, (mapGet result.1.openDocuments path).isSome ↔
        ∃ source, (mapGet documents.openDocuments source).isSome ∧
          imageUnderAll mutations source = some path) ∧
      ((∀ path state, mapGet result.1.openDocuments path = some state →
          fileText disk path = some state.text) ↔
        ∀ path state, mapGet documents.openDocuments path = some state →
          UntouchedInStep disk mutations path state) := by
  induction mutations generalizing tree documents watched with
  | nil =>
    cases synchronized
    refine ⟨served, fun _ _ => trivial, ?_, ?_⟩
    · simp [imageUnderAll]
    · constructor
      · intro inStep path state isOpen _
        exact inStep path state isOpen
      · intro inStep path state isOpen
        exact inStep path state isOpen fun _ isMutation => absurd isMutation List.not_mem_nil
  | cons mutation mutations ih =>
    obtain ⟨next, first, rest⟩ := foldlM_cons_eq_ok.mp performed
    obtain ⟨⟨middle, events⟩, step, later⟩ := foldlM_cons_eq_ok.mp synchronized
    have followed := fun path isOpen => (followable path isOpen).1
    have synchronizes := synchronizeMutation_spec served followed step
    have laterFollowable := throughout_later synchronizes followable
    obtain ⟨finallyServed, found, images, inStep⟩ := ih
      synchronizes.served laterFollowable rest later
    refine ⟨finallyServed, ?_, ?_, inStep.trans ⟨?_, ?_⟩⟩
    · intro path isOpen
      refine ⟨synchronizes.found path isOpen, ?_⟩
      split
      · rename_i image isImage
        exact found image ((synchronizes.images image).mpr ⟨path, isOpen, isImage⟩)
      · trivial
    · intro path
      rw [images]
      constructor
      · rintro ⟨image, isOpen, isPath⟩
        obtain ⟨source, wasOpen, isImage⟩ := (synchronizes.images image).mp isOpen
        exact ⟨source, wasOpen, by rw [imageUnderAll, isImage]; exact isPath⟩
      · rintro ⟨source, wasOpen, isPath⟩
        obtain ⟨image, isImage, isLater⟩ := Option.bind_eq_some_iff.mp isPath
        exact ⟨image, (synchronizes.images image).mpr ⟨source, wasOpen, isImage⟩, isLater⟩
    · intro laterInStep path state isOpen untouched
      rw [List.forall_mem_cons] at untouched
      exact laterInStep path state (synchronizes.kept path state isOpen untouched.1) untouched.2
    · intro wasInStep path state isOpen untouched
      rcases synchronizes.origin path state isOpen with
        ⟨wasOpen, notTouched⟩ | isText | ⟨beforeText, rfl⟩
      · exact wasInStep path state wasOpen (List.forall_mem_cons.mpr ⟨notTouched, untouched⟩)
      · exact isText
      · -- The text was written to the file, and nothing happens to the file later.
        have openNow : (mapGet middle.openDocuments path).isSome = true := by
          rw [isOpen]
          rfl
        obtain ⟨source, wasOpen, isImage⟩ := (synchronizes.images path).mp openNow
        obtain rfl : source = path := Option.some.inj isImage
        have isWritten := fileText_of_written first (followed source wasOpen rfl)
        rw [fileText, find_of_untouched rest (laterFollowable source openNow) untouched]
        exact isWritten

theorem synchronizeMutations_ok (watched : List WatchedFileEvent) (served : Served documents)
    (followable : ∀ path, (mapGet documents.openDocuments path).isSome →
      Throughout Followed mutations path)
    (found : ∀ path, (mapGet documents.openDocuments path).isSome →
      Throughout (ReopensFound disk) mutations path) :
    ∃ result, mutations.foldlM (synchronizeMutation disk) (documents, watched) = .ok result := by
  induction mutations generalizing documents watched with
  | nil => exact ⟨_, rfl⟩
  | cons mutation mutations ih =>
    obtain ⟨⟨middle, events⟩, step⟩ := synchronizeMutation_ok served
      fun path isOpen => (found path isOpen).1
    have synchronizes := synchronizeMutation_spec served
      (fun path isOpen => (followable path isOpen).1) step
    obtain ⟨result, later⟩ := ih events synchronizes.served
      (throughout_later synchronizes followable) (throughout_later synchronizes found)
    exact ⟨result, foldlM_cons_eq_ok.mpr ⟨_, step, later⟩⟩

end Delta

theorem forall_open_iff (served : Served documents) {property : Path → OpenDocumentState → Prop} :
    (∀ path state, mapGet documents.openDocuments path = some state → property path state) ↔
      ∀ entry ∈ documents.openDocuments, property entry.1 entry.2 :=
  ⟨fun all entry isEntry => all entry.1 entry.2 (mapGet_of_mem served.unique isEntry),
    fun all path state isOpen => all (path, state) (mem_of_mapGet isOpen)⟩

/-- Where the documents can be followed, they follow a commit exactly when each file that is
read for one is there at the end, and each that no mutation touches is in step. -/
theorem documentsFollow_iff (tree : WorkspaceTree) (plan : WorkspaceEditPlan) (signal : AbortSignal)
    (served : Served documents)
    (followable : ∀ entry ∈ documents.openDocuments, Throughout Followed
        (commitWorkspaceEditPlan tree plan signal).1.delta.operations entry.1) :
    DocumentsFollow (commitWorkspaceEditPlan tree plan signal).2 documents
        (commitWorkspaceEditPlan tree plan signal).1.delta ↔
      (∀ entry ∈ documents.openDocuments,
        Throughout (ReopensFound (commitWorkspaceEditPlan tree plan signal).2)
          (commitWorkspaceEditPlan tree plan signal).1.delta.operations entry.1) ∧
      ∀ entry ∈ documents.openDocuments,
        UntouchedInStep (commitWorkspaceEditPlan tree plan signal).2
          (commitWorkspaceEditPlan tree plan signal).1.delta.operations entry.1 entry.2 := by
  have performed := performed_of_commit tree plan signal
  have openPath : ∀ {condition : Path → Prop},
      (∀ entry ∈ documents.openDocuments, condition entry.1) →
        ∀ path, (mapGet documents.openDocuments path).isSome → condition path := by
    intro condition all path isOpen
    obtain ⟨state, isState⟩ := Option.isSome_iff_exists.mp isOpen
    exact all (path, state) (mem_of_mapGet isState)
  constructor
  · rintro ⟨after, synchronized, -, inStep, -⟩
    obtain ⟨result, ran, same⟩ := bind_eq_ok.mp synchronized
    cases same
    obtain ⟨-, found, -, texts⟩ :=
      synchronizeMutations_spec served (openPath followable) performed ran
    refine ⟨fun entry isEntry => ?_, (forall_open_iff served).mp (texts.mp inStep)⟩
    apply found
    rw [mapGet_of_mem served.unique isEntry]
    rfl
  · rintro ⟨found, inStep⟩
    obtain ⟨result, ran⟩ := synchronizeMutations_ok [] served (openPath followable) (openPath found)
    obtain ⟨finallyServed, -, images, texts⟩ :=
      synchronizeMutations_spec served (openPath followable) performed ran
    exact ⟨_, bind_eq_ok.mpr ⟨result, ran, rfl⟩, images,
      texts.mpr ((forall_open_iff served).mpr inStep), (finallyServed.watched result.2).viewed⟩

/-- The file is open. -/
def oneDocument : WorkspaceDocumentState :=
  openDocument noDocuments ["w", "a"] (text "x")

/-- The file is renamed, and its text is changed then. -/
def renameAndChange : WorkspaceEditPlan where
  workspaceRoot := ["w"]
  operations :=
    [.rename 0 ["w", "a"] ["w", "b"] .file false, .text 1 ["w", "b"] (text "x") (text "yx") 1 none]
  snapshots :=
    [(["w"], .directory none), (["w", "a"], .file (text "x")), (["w", "b"], .missing)]
  firstChangeByPath := [(["w", "a"], 0), (["w", "b"], 0)]
  reportedPathByCanonical := [(["w", "a"], "/w/a"), (["w", "b"], "/w/b")]

theorem documentsFollow_iff_renameAndChange :
    DocumentsFollow (commitWorkspaceEditPlan oneFile renameAndChange fun _ => false).2
      oneDocument (commitWorkspaceEditPlan oneFile renameAndChange fun _ => false).1.delta :=
  (documentsFollow_iff oneFile renameAndChange (fun _ => false)
    (Served.noDocuments.openDocument _ _) (by decide +kernel)).mpr
      ⟨by decide +kernel, by decide +kernel⟩

/-- The file is renamed, and renamed again. -/
def renameTwice : ParsedWorkspaceEdit ["w"] where
  operations :=
    [.rename 0 ["w", "a"] ["w", "b"] "/w/a" "/w/b" false false false,
      .rename 1 ["w", "b"] ["w", "c"] "/w/b" "/w/c" false false false]
  failures := []
  inside := by decide

def renameTwicePlan : WorkspaceEditPlan where
  workspaceRoot := ["w"]
  operations :=
    [.rename 0 ["w", "a"] ["w", "b"] .file false, .rename 1 ["w", "b"] ["w", "c"] .file false]
  snapshots :=
    [(["w"], .directory none), (["w", "a"], .file (text "x")), (["w", "b"], .missing),
      (["w", "c"], .missing)]
  firstChangeByPath := [(["w", "a"], 0), (["w", "b"], 0), (["w", "c"], 1)]
  reportedPathByCanonical := [(["w", "a"], "/w/a"), (["w", "b"], "/w/b"), (["w", "c"], "/w/c")]

/-- The commit succeeds, but at the first rename the document is to be opened with the text
of a file that has moved on by then. -/
theorem not_documentsFollow_renameTwice :
    planWorkspaceEdit oneFile ["w"] renameTwice = .ok renameTwicePlan ∧
      (commitWorkspaceEditPlan oneFile renameTwicePlan fun _ => false).1.result.success = true ∧
      ¬ DocumentsFollow (commitWorkspaceEditPlan oneFile renameTwicePlan fun _ => false).2
        oneDocument (commitWorkspaceEditPlan oneFile renameTwicePlan fun _ => false).1.delta := by
  refine ⟨by decide +kernel, by decide +kernel, ?_⟩
  rintro ⟨after, synchronized, -⟩
  cases synchronized

end OpenAgent.Lsp
