import OpenAgent.Hashline.Autocorrect

/-!
# Batches of edits

`types.ts`, `edit-deduplication.ts`, `edit-ordering.ts`,
`edit-operation-primitives.ts` and `edit-operations.ts`.  The primitives are
called with `skipValidation` throughout: all references are validated once,
against the lines of the file.
-/

namespace OpenAgent.Hashline

open Library

/-- `HashlineEdit`. -/
inductive HashlineEdit
  | replace (pos : Text) (endPos : Option Text) (lines : EditText)
  | append (pos : Option Text) (lines : EditText)
  | prepend (pos : Option Text) (lines : EditText)
  deriving DecidableEq

/-- An anchor that is present and not the empty string. -/
def givenAnchor (anchor : Option Text) : Option Text :=
  anchor.filter (!·.isEmpty)

def normalizeEditPayload (payload : EditText) : Text :=
  joinLines (toNewLines payload)

def canonicalAnchor (anchor : Option Text) : Text :=
  match givenAnchor anchor with
  | none => []
  | some anchor => normalizeLineRef anchor

/-- The fields of a key, separated by bars. -/
def joinFields (fields : List Text) : Text :=
  [unit '|'].intercalate fields

def buildDedupeKey : HashlineEdit → Text
  | .replace pos endPos lines =>
    joinFields [text "replace", canonicalAnchor (some pos), canonicalAnchor endPos,
      normalizeEditPayload lines]
  | .append pos lines =>
    joinFields [text "append", canonicalAnchor pos, normalizeEditPayload lines]
  | .prepend pos lines =>
    joinFields [text "prepend", canonicalAnchor pos, normalizeEditPayload lines]

/-- The edits whose keys have not been seen, with the number of the others. -/
def dedupeFrom : List Text → List HashlineEdit → List HashlineEdit × Nat
  | _, [] => ([], 0)
  | seen, edit :: edits =>
    let key := buildDedupeKey edit
    if key ∈ seen then
      let (deduped, count) := dedupeFrom seen edits
      (deduped, count + 1)
    else
      let (deduped, count) := dedupeFrom (setInsert seen key) edits
      (edit :: deduped, count)

section

variable (edits : List HashlineEdit)

def dedupeEdits : List HashlineEdit × Nat :=
  dedupeFrom [] edits

/-- `getEditLineNumber`; `none` is negative infinity. -/
def getEditLineNumber : HashlineEdit → Except HashlineError (Option Nat)
  | .replace pos endPos _ => do
      let ref ← parseLineRef (endPos.getD pos)
      return some ref.line
  | .append pos _ | .prepend pos _ =>
    match givenAnchor pos with
    | none => .ok none
    | some anchor => do
        let ref ← parseLineRef anchor
        return some ref.line

/-- `EDIT_PRECEDENCE`. -/
def editPrecedence : HashlineEdit → Nat
  | .replace _ _ _ => 0
  | .append _ _ => 1
  | .prepend _ _ => 2

/-- The line number is smaller. -/
def isBelow : Option Nat → Option Nat → Bool
  | none, some _ => true
  | some left, some right => left < right
  | _, none => false

/-- The comparison of two edits with their line numbers: falling lines, then
rising precedence. -/
def sortsBefore (left right : Option Nat × HashlineEdit) : Bool :=
  if left.1 = right.1 then editPrecedence left.2 ≤ editPrecedence right.2
  else isBelow right.1 left.1

/-- The sorted edits.  A single edit is never compared; of several unreadable
references the first one is reported. -/
def sortEdits : Except HashlineError (List HashlineEdit) :=
  if edits.length < 2 then .ok edits
  else do
    let keyed ← edits.mapM fun edit => do
      let line ← getEditLineNumber edit
      return (line, edit)
    return (stableSort sortsBefore keyed).map (·.2)

def collectLineRefs : List Text :=
  edits.flatMap fun
    | .replace pos endPos _ => pos :: (givenAnchor endPos).toList
    | .append pos _ => (givenAnchor pos).toList
    | .prepend pos _ => (givenAnchor pos).toList

end

structure EditRange where
  start : Nat
  stop : Nat
  idx : Nat

/-- The ranges of the range replaces, with the positions of their edits. -/
def editRanges : List (HashlineEdit × Nat) → Except HashlineError (List EditRange)
  | [] => .ok []
  | (.replace pos endPos _, idx) :: rest =>
    match givenAnchor endPos with
    | none => editRanges rest
    | some anchor => do
        let startRef ← parseLineRef pos
        let stopRef ← parseLineRef anchor
        let ranges ← editRanges rest
        return { start := startRef.line, stop := stopRef.line, idx := idx } :: ranges
  | _ :: rest => editRanges rest

def overlapMessage (prev curr : EditRange) : Text :=
  text "Overlapping range edits detected: edit " ++ decimalText (prev.idx + 1) ++
    text " (lines " ++ decimalText prev.start ++ text "-" ++ decimalText prev.stop ++
    text ") overlaps with edit " ++ decimalText (curr.idx + 1) ++ text " (lines " ++
    decimalText curr.start ++ text "-" ++ decimalText curr.stop ++
    text "). Use pos-only replace for single-line edits."

/-- The first range that starts inside the one before it. -/
def firstOverlap : List EditRange → Option Text
  | prev :: curr :: rest =>
    if curr.start ≤ prev.stop then some (overlapMessage prev curr)
    else firstOverlap (curr :: rest)
  | _ => none

def rangeSortsBefore (left right : EditRange) : Bool :=
  left.start < right.start || (left.start = right.start && left.stop ≤ right.stop)

def detectOverlappingRanges (edits : List HashlineEdit) : Except HashlineError (Option Text) := do
  let ranges ← editRanges edits.zipIdx
  return firstOverlap (stableSort rangeSortsBefore ranges)

/-- The first line takes over the indent of the original. -/
def restoreFirstIndent (originalLine : Text) : List Text → List Text
  | [] => []
  | first :: rest => restoreLeadingIndent originalLine first :: rest

/-- The lines that take the place of a single line. -/
def setLineReplacement (originalLine : Text) (newLines : List Text) : List Text :=
  restoreFirstIndent originalLine (autocorrectReplacementLines [originalLine] newLines)

section

variable (lines : List Text)

/-- The lines that take the place of a range. -/
def rangeReplacement (startLine endLine : Nat) (newLines : List Text) : List Text :=
  restoreFirstIndent (lines.getD (startLine - 1) [])
    (autocorrectReplacementLines (slice lines (startLine - 1) endLine)
      (stripRangeBoundaryEcho lines startLine endLine newLines))

def applySetLine (anchor : Text) (newText : EditText) : Except HashlineError (List Text) := do
  let ref ← parseLineRef anchor
  return splice lines (ref.line - 1) 1
    (setLineReplacement (lines.getD (ref.line - 1) []) (toNewLines newText))

def applyReplaceLines (startAnchor endAnchor : Text) (newText : EditText) :
    Except HashlineError (List Text) := do
  let startRef ← parseLineRef startAnchor
  let endRef ← parseLineRef endAnchor
  if endRef.line < startRef.line then
    throw (.error (text "Invalid range: start line " ++ decimalText startRef.line ++
      text " cannot be greater than end line " ++ decimalText endRef.line))
  else
    return splice lines (startRef.line - 1) (endRef.line + 1 - startRef.line)
      (rangeReplacement lines startRef.line endRef.line (toNewLines newText))

def applyInsertAfter (anchor : Text) (newText : EditText) : Except HashlineError (List Text) := do
  let ref ← parseLineRef anchor
  let newLines ← stripInsertAnchorEcho lines[ref.line - 1]? (toNewLines newText)
  if newLines.isEmpty then
    throw (.error (text "append (anchored) requires non-empty text for " ++ anchor))
  else return splice lines ref.line 0 newLines

def applyInsertBefore (anchor : Text) (newText : EditText) : Except HashlineError (List Text) := do
  let ref ← parseLineRef anchor
  let newLines ← stripInsertBeforeEcho lines[ref.line - 1]? (toNewLines newText)
  if newLines.isEmpty then
    throw (.error (text "prepend (anchored) requires non-empty text for " ++ anchor))
  else return splice lines (ref.line - 1) 0 newLines

def applyAppend (newText : EditText) : Except HashlineError (List Text) :=
  let normalized := toNewLines newText
  if normalized.isEmpty then .error (.error (text "append requires non-empty text"))
  else if lines = [[]] then .ok normalized
  else .ok (lines ++ normalized)

def applyPrepend (newText : EditText) : Except HashlineError (List Text) :=
  let normalized := toNewLines newText
  if normalized.isEmpty then .error (.error (text "prepend requires non-empty text"))
  else if lines = [[]] then .ok normalized
  else .ok (normalized ++ lines)

def applyEdit : HashlineEdit → Except HashlineError (List Text)
  | .replace pos endPos newText =>
    match givenAnchor endPos with
    | some endAnchor => applyReplaceLines lines pos endAnchor newText
    | none => applySetLine lines pos newText
  | .append pos newText =>
    match givenAnchor pos with
    | some anchor => applyInsertAfter lines anchor newText
    | none => applyAppend lines newText
  | .prepend pos newText =>
    match givenAnchor pos with
    | some anchor => applyInsertBefore lines anchor newText
    | none => applyPrepend lines newText

end

/-- The loop over the sorted edits, with the number of edits that change
nothing. -/
def applyEdits : List Text → Nat → List HashlineEdit → Except HashlineError (List Text × Nat)
  | lines, noopEdits, [] => .ok (lines, noopEdits)
  | lines, noopEdits, edit :: edits => do
      let next ← applyEdit lines edit
      if next = lines then applyEdits lines (noopEdits + 1) edits
      else applyEdits next noopEdits edits

structure HashlineApplyReport where
  content : Text
  noopEdits : Nat
  deduplicatedEdits : Nat
  deriving DecidableEq

/-- The lines of a file; an empty file has none. -/
def fileLines (content : Text) : List Text :=
  if content.isEmpty then [] else splitLines content

def applyHashlineEditsWithReport (runtime : HashRuntime) (content : Text)
    (edits : List HashlineEdit) : Except HashlineError HashlineApplyReport :=
  if edits.isEmpty then
    .ok { content := content, noopEdits := 0, deduplicatedEdits := 0 }
  else do
    let (kept, deduplicatedEdits) := dedupeEdits edits
    let sortedEdits ← sortEdits kept
    let lines := fileLines content
    validateLineRefs runtime lines (collectLineRefs sortedEdits)
    match ← detectOverlappingRanges sortedEdits with
    | some overlapError => throw (.error overlapError)
    | none =>
      let (finalLines, noopEdits) ← applyEdits lines 0 sortedEdits
      return { content := joinLines finalLines, noopEdits, deduplicatedEdits }

end OpenAgent.Hashline
