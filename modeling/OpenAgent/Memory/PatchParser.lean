import OpenAgent.Library.Text

/-!
# Patches

`parseMemoryPatch` reads add, delete, update and move directives between two
marker lines; `applyMemoryPatchHunk` replaces the first occurrence of the old
lines of a hunk.  A loop that consumes several lines reports their number, and
its caller passes over as many.
-/

namespace OpenAgent.Memory

open Library

/-- The lines of a hunk, with their markers. -/
structure PatchHunk where
  lines : List Text

/-- An operation of a patch. -/
inductive PatchOperation
  | add (targetPath : Text) (contentLines : List Text)
  | delete (targetPath : Text)
  | update (sourcePath targetPath : Text) (hunks : List PatchHunk)

/-- The failures of `parseMemoryPatch`, with line numbers. -/
inductive PatchParseError
  | missingBegin
  | missingEnd
  | contentAfterEnd
  | emptyDirective (directive : Text) (line : Nat)
  | invalidAddLine (line : Nat)
  | emptyAdd (targetPath : Text)
  | invalidHunkLine (line : Nat)
  | noHunks (sourcePath : Text)
  | unknownDirective (line : Nat) (content : Text)
  | noOperations
  deriving DecidableEq

def beginPatch : Text := text "*** Begin Patch"
def endPatch : Text := text "*** End Patch"
def addFile : Text := text "*** Add File:"
def deleteFile : Text := text "*** Delete File:"
def updateFile : Text := text "*** Update File:"
def moveTo : Text := text "*** Move to:"
def endOfFile : Text := text "*** End of File"
def hunkMark : Text := text "@@"

/-- `value.replace(/\r\n/g, "\n")`. -/
def normalizeBreaks : Text → Text
  | [] => []
  | [char] => [char]
  | char :: next :: rest =>
    if char = 0xD ∧ next = newline then newline :: normalizeBreaks rest
    else char :: normalizeBreaks (next :: rest)

def isDirective (line : Text) : Bool :=
  (text "*** ").isPrefixOf line

def isHunkLine (line : Text) : Bool :=
  match line with
  | [] => true
  | char :: _ => char = unit ' ' || char = unit '+' || char = unit '-'

def directivePath (line directive : Text) (lineNumber : Nat) : Except PatchParseError Text :=
  let path := trim (line.drop directive.length)
  if path.isEmpty then .error (.emptyDirective directive lineNumber) else .ok path

/-- The content lines of an added file. -/
def addedLines : List Text → Nat → Except PatchParseError (List Text)
  | [], _ => .ok []
  | line :: rest, number =>
    if isDirective line then .ok []
    else if line.head? = some (unit '+') then
      (addedLines rest (number + 1)).map (line.tail :: ·)
    else .error (.invalidAddLine number)

/-- The lines of a hunk and the number of lines consumed, an end-of-file mark
included. -/
def hunkLines : List Text → Nat → Except PatchParseError (List Text × Nat)
  | [], _ => .ok ([], 0)
  | line :: rest, number =>
    if line = endOfFile then .ok ([], 1)
    else if hunkMark.isPrefixOf line || isDirective line then .ok ([], 0)
    else if isHunkLine line then
      (hunkLines rest (number + 1)).map fun found => (line :: found.1, found.2 + 1)
    else .error (.invalidHunkLine number)

/-- The hunks of an update and the number of lines consumed; `skip` lines belong
to the hunk before. -/
def updateHunks : List Text → Nat → Nat → Except PatchParseError (List PatchHunk × Nat)
  | [], _, _ => .ok ([], 0)
  | _ :: rest, skip + 1, number =>
    (updateHunks rest skip (number + 1)).map fun found => (found.1, found.2 + 1)
  | line :: rest, 0, number =>
    if isDirective line && line ≠ endOfFile then .ok ([], 0)
    else if hunkMark.isPrefixOf line then do
      let (body, consumed) ← hunkLines rest (number + 1)
      let (hunks, count) ← updateHunks rest consumed (number + 1)
      .ok (⟨body⟩ :: hunks, count + 1)
    else do
      let (body, consumed) ← hunkLines (line :: rest) number
      let (hunks, count) ← updateHunks rest (consumed - 1) (number + 1)
      .ok (⟨body⟩ :: hunks, count + 1)

/-- The target of a move behind an update directive. -/
def moveTarget (sourcePath : Text) (rest : List Text)
    (number : Nat) : Except PatchParseError (Text × Nat) :=
  match rest with
  | [] => .ok (sourcePath, 0)
  | line :: _ =>
    if moveTo.isPrefixOf line then
      (directivePath line moveTo number).map fun path => (path, 1)
    else .ok (sourcePath, 0)

/-- The operations between the markers. -/
def patchOperations : List Text → Nat → Nat → Except PatchParseError (List PatchOperation)
  | [], _, _ => .ok []
  | _ :: rest, skip + 1, number => patchOperations rest skip (number + 1)
  | line :: rest, 0, number =>
    if (trim line).isEmpty then patchOperations rest 0 (number + 1)
    else if addFile.isPrefixOf line then do
      let targetPath ← directivePath line addFile number
      let contentLines ← addedLines rest (number + 1)
      if contentLines.isEmpty then .error (.emptyAdd targetPath)
      else
        let operations ← patchOperations rest contentLines.length (number + 1)
        .ok (.add targetPath contentLines :: operations)
    else if deleteFile.isPrefixOf line then do
      let targetPath ← directivePath line deleteFile number
      let operations ← patchOperations rest 0 (number + 1)
      .ok (.delete targetPath :: operations)
    else if updateFile.isPrefixOf line then do
      let sourcePath ← directivePath line updateFile number
      let (targetPath, moved) ← moveTarget sourcePath rest (number + 1)
      let (hunks, consumed) ← updateHunks (rest.drop moved) 0 (number + 1 + moved)
      if hunks.isEmpty then .error (.noHunks sourcePath)
      else
        let operations ← patchOperations rest (moved + consumed) (number + 1)
        .ok (.update sourcePath targetPath hunks :: operations)
    else .error (.unknownDirective number (trim line))

def parseMemoryPatch (input : Text) : Except PatchParseError (List PatchOperation) :=
  match splitLines (normalizeBreaks input) with
  | [] => .error .missingBegin
  | first :: rest =>
    if first ≠ beginPatch then .error .missingBegin
    else
      match rest.findIdx? (· = endPatch) with
      | none => .error .missingEnd
      | some endIndex =>
        if (rest.drop (endIndex + 1)).any fun line => !(trim line).isEmpty then
          .error .contentAfterEnd
        else
          match patchOperations (rest.take endIndex) 0 2 with
          | .error failure => .error failure
          | .ok [] => .error .noOperations
          | .ok operations => .ok operations

/-- The failures of `applyMemoryPatchHunk`. -/
inductive PatchHunkError
  | noAnchor (filePath : Text)
  | contextNotFound (filePath failedChunk currentContent : Text)
  deriving DecidableEq

/-- The old and the new text of a hunk. -/
def buildOldNewChunks : List Text → Text × Text
  | [] => ([], [])
  | raw :: rest =>
    let (oldChunk, newChunk) := buildOldNewChunks rest
    match raw with
    | [] => (newline :: oldChunk, newline :: newChunk)
    | marker :: line =>
      if marker = unit ' ' then (line ++ newline :: oldChunk, line ++ newline :: newChunk)
      else if marker = unit '-' then (line ++ newline :: oldChunk, newChunk)
      else if marker = unit '+' then (oldChunk, line ++ newline :: newChunk)
      else (oldChunk, newChunk)

def replaceAt (content : Text) (index length : Nat) (replacement : Text) : Text :=
  content.take index ++ replacement ++ content.drop (index + length)

/-- The text without a newline at its end. -/
def chopNewline (value : Text) : Text :=
  if [newline].isSuffixOf value then value.dropLast else value

def applyMemoryPatchHunk (content : Text) (hunk : PatchHunk)
    (filePath : Text) : Except PatchHunkError Text :=
  let (oldChunk, newChunk) := buildOldNewChunks hunk.lines
  if oldChunk.isEmpty then .error (.noAnchor filePath)
  else
    match indexOf content oldChunk 0 with
    | some index => .ok (replaceAt content index oldChunk.length newChunk)
    | none =>
      if [newline].isSuffixOf oldChunk then
        match indexOf content oldChunk.dropLast 0 with
        | some index =>
          .ok (replaceAt content index oldChunk.dropLast.length (chopNewline newChunk))
        | none => .error (.contextNotFound filePath oldChunk content)
      else .error (.contextNotFound filePath oldChunk content)

end OpenAgent.Memory
