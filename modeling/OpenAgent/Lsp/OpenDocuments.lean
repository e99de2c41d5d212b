import OpenAgent.Lsp.WorkspaceCommit

/-!
# Open documents

The client keeps the documents that are open at a language server, and tells the server
of each change to them.  Behind a commit it walks over the mutations one by one: it sends
the new text of a document, and closes documents whose file has gone or moved.  Where it
opens one again, it reads the file as it is at the end of the commit.
-/

namespace OpenAgent.Lsp

open Library

/-- The types of a watched event. -/
inductive FileChangeType
  | created
  | changed
  | deleted

structure WatchedFileEvent where
  path : Path
  type : FileChangeType

/-- The notifications to the server.  A URI stands for one path, and is given as it. -/
inductive Notification
  | didOpen (path : Path) (version : Nat) (text : Text)
  | didChange (path : Path) (version : Nat) (text : Text)
  | didSave (path : Path) (text : Text)
  | didClose (path : Path)
  | didChangeWatchedFiles (changes : List WatchedFileEvent)

/-- The documents that a server has open, each with its version and its text. -/
abbrev ServerView := List (Path × (Nat × Text))

def receive (view : ServerView) : Notification → ServerView
  | .didOpen path version text => mapSet view path (version, text)
  | .didChange path version text =>
    if (mapGet view path).isSome then mapSet view path (version, text) else view
  | .didSave .. => view
  | .didClose path => mapDelete view path
  | .didChangeWatchedFiles _ => view

def serverView (sent : List Notification) : ServerView :=
  sent.foldl receive []

structure OpenDocumentState where
  path : Path
  text : Text
  version : Nat
  generation : Nat

/-- The open documents, and the notifications so far. -/
structure WorkspaceDocumentState where
  openDocuments : List (Path × OpenDocumentState)
  sent : List Notification

def noDocuments : WorkspaceDocumentState where
  openDocuments := []
  sent := []

def openedDocument (path : Path) (text : Text) : OpenDocumentState where
  path := path
  text := text
  version := 1
  generation := 1

section

variable (documents : WorkspaceDocumentState)

/-- `openDocumentSingleFlight`; no other open is in flight. -/
def openDocument (path : Path) (text : Text) : WorkspaceDocumentState where
  openDocuments := mapSet documents.openDocuments path (openedDocument path text)
  sent := documents.sent ++ [.didOpen path 1 text]

section

variable (state : OpenDocumentState)

def changedDocument (text : Text) : OpenDocumentState :=
  { state with
    text := text
    version := state.version + 1
    generation := state.generation + 1 }

def changeDocument (text : Text) : WorkspaceDocumentState where
  openDocuments := mapSet documents.openDocuments state.path (changedDocument state text)
  sent := documents.sent ++
    [.didChange state.path (state.version + 1) text, .didSave state.path text]

def closeDocument : WorkspaceDocumentState where
  openDocuments := mapDelete documents.openDocuments state.path
  sent := documents.sent ++ [.didClose state.path]

end

def openFile (disk : WorkspaceTree) (documents : WorkspaceDocumentState)
    (path : Path) : Except FileError WorkspaceDocumentState := do
  let content ← disk.readFile path
  match mapGet documents.openDocuments path with
  | none => .ok (openDocument documents path content.text)
  | some existing =>
    if existing.text = content.text then .ok documents
    else .ok (changeDocument documents existing content.text)

/-- Open a document with the text that its file has now. -/
def reopenDocument (disk : WorkspaceTree) (documents : WorkspaceDocumentState)
    (path : Path) : Except FileError WorkspaceDocumentState := do
  let content ← disk.readFile path
  .ok (openDocument documents path content.text)

/-- The open documents at a path and beneath it. -/
def documentsBeneath (path : Path) : List OpenDocumentState :=
  (documents.openDocuments.map Prod.snd).filter fun state => isSameOrDescendant state.path path

end

/-- The documents, and the events for files without one. -/
abbrev Synchronized := WorkspaceDocumentState × List WatchedFileEvent

def synchronizeMutation (disk : WorkspaceTree)
    (state : Synchronized) : WorkspaceMutation → Except FileError Synchronized
  | .text path _ afterText =>
    match mapGet state.1.openDocuments path with
    | some document => .ok (changeDocument state.1 document afterText, state.2)
    | none => .ok (state.1, state.2 ++ [⟨path, .changed⟩])
  | .create path replaced =>
    match mapGet state.1.openDocuments path with
    | some document => do
        let reopened ← reopenDocument disk (closeDocument state.1 document) path
        .ok (reopened, state.2)
    | none =>
      .ok (state.1, state.2 ++ [⟨path, if replaced then .changed else .created⟩])
  | .rename oldPath newPath _ => do
      let moved := documentsBeneath state.1 oldPath
      let reopened ← moved.foldlM (fun documents document =>
          reopenDocument disk documents (movedPath document.path oldPath newPath))
        (moved.foldl closeDocument state.1)
      .ok (reopened,
        if moved = [] then state.2 ++ [⟨oldPath, .deleted⟩, ⟨newPath, .created⟩] else state.2)
  | .delete path _ =>
    let removed := documentsBeneath state.1 path
    .ok (removed.foldl closeDocument state.1,
      if removed = [] then state.2 ++ [⟨path, .deleted⟩] else state.2)

def watchedFileBatchSize : Nat := 128

def watchedNotifications (watched : List WatchedFileEvent) : List Notification :=
  (watched.toChunks watchedFileBatchSize).map .didChangeWatchedFiles

def synchronize (disk : WorkspaceTree) (documents : WorkspaceDocumentState)
    (delta : WorkspaceMutationDelta) : Except FileError WorkspaceDocumentState := do
  let synchronized ← delta.operations.foldlM (synchronizeMutation disk) (documents, [])
  .ok { synchronized.1 with
    sent := synchronized.1.sent ++ watchedNotifications synchronized.2 }

end OpenAgent.Lsp
