import Mathlib.Data.Rat.Defs
import OpenAgent.Library.Splice
import OpenAgent.Library.Text

/-!
# Text edits

The edits of one document all refer to the text as it was.  They are checked against it,
sorted from its end to its beginning, stripped of duplicates and applied one after the
other.
-/

namespace OpenAgent.Lsp

open Library

/-- Positions come from another program; any number may stand in one. -/
structure Position where
  line : Rat
  character : Rat
  deriving DecidableEq

/-- Two positions of a text. -/
structure Range where
  start : Position
  ends : Position
  deriving DecidableEq

structure TextEdit where
  range : Range
  newText : Text
  deriving DecidableEq

/-- Why a change cannot be made. -/
structure WorkspaceEditValidationError where
  changeIndex : Nat
  detail : String

structure IndexedTextEdit where
  edit : TextEdit
  index : Nat

structure NormalizedTextEditResult where
  edits : List TextEdit
  text : Text

def comparePosition (left right : Position) : Rat :=
  if left.line = right.line then left.character - right.character
  else left.line - right.line

def isEmptyRange (range : Range) : Bool :=
  range.start = range.ends

/-- Only integers are ever printed. -/
def formatNumber (number : Rat) : String :=
  toString number.num

def formatRange (range : Range) : String :=
  formatNumber (range.start.line + 1) ++ ":" ++ formatNumber (range.start.character + 1) ++
    "-" ++ formatNumber (range.ends.line + 1) ++ ":" ++
    formatNumber (range.ends.character + 1)

/-- The place in an array that a valid number stands for. -/
def arrayIndex (number : Rat) : Nat :=
  number.num.toNat

def validatePosition (position : Position) (label : String) (lines : List Text)
    (changeIndex : Nat) : Except WorkspaceEditValidationError Unit :=
  if !position.line.isInt || !position.character.isInt then
    .error ⟨changeIndex, label ++ " position must use integer line and character"⟩
  else if position.line < 0 ∨ position.character < 0 then
    .error ⟨changeIndex, label ++ " position cannot be negative"⟩
  else
    match lines[arrayIndex position.line]? with
    | none =>
      .error ⟨changeIndex,
        label ++ " line " ++ formatNumber position.line ++ " is outside the document"⟩
    | some line =>
      if (line.length : Rat) < position.character then
        .error ⟨changeIndex,
          label ++ " character " ++ formatNumber position.character ++ " is outside line " ++
            formatNumber position.line⟩
      else .ok ()

def validateRange (range : Range) (lines : List Text)
    (changeIndex : Nat) : Except WorkspaceEditValidationError Unit := do
  validatePosition range.start "start" lines changeIndex
  validatePosition range.ends "end" lines changeIndex
  if 0 < comparePosition range.start range.ends then
    .error ⟨changeIndex, "range " ++ formatRange range ++ " ends before it starts"⟩

/-- Later positions come first, and of edits at one position the last one. -/
def appliesBefore (left right : IndexedTextEdit) : Bool :=
  let positionOrder := comparePosition right.edit.range.start left.edit.range.start
  if positionOrder = 0 then right.index ≤ left.index else positionOrder < 0

/-- Add an edit unless it repeats the one added last. -/
def pushUnique (unique : List TextEdit) (edit : TextEdit) : List TextEdit :=
  match unique.getLast? with
  | none => unique ++ [edit]
  | some previous =>
    if !isEmptyRange edit.range && previous = edit then unique else unique ++ [edit]

def sortAndDeduplicate (edits : List TextEdit) : List TextEdit :=
  let sorted := stableSort appliesBefore (edits.zipIdx.map fun entry => ⟨entry.1, entry.2⟩)
  (sorted.map IndexedTextEdit.edit).foldl pushUnique []

def validateNoOverlap (changeIndex : Nat) : List TextEdit → Except WorkspaceEditValidationError Unit
  | later :: earlier :: rest =>
    if 0 < comparePosition earlier.range.ends later.range.start then
      .error ⟨changeIndex, "overlapping edits " ++ formatRange earlier.range ++ " and " ++
        formatRange later.range⟩
    else validateNoOverlap changeIndex (earlier :: rest)
  | _ => .ok ()

def applyTextEdit (lines : List Text) (edit : TextEdit) : List Text :=
  let startLine := arrayIndex edit.range.start.line
  let endLine := arrayIndex edit.range.ends.line
  match lines[startLine]?, lines[endLine]? with
  | some first, some last =>
    let replacement := first.take (arrayIndex edit.range.start.character) ++ edit.newText ++
      last.drop (arrayIndex edit.range.ends.character)
    splice lines startLine (endLine - startLine + 1) (splitLines replacement)
  | _, _ => lines

def applyNormalizedTextEdits (content : Text) (edits : List TextEdit) : Text :=
  joinLines (edits.foldl applyTextEdit (splitLines content))

def normalizeTextEdits (content : Text) (edits : List TextEdit)
    (changeIndex : Nat) : Except WorkspaceEditValidationError NormalizedTextEditResult := do
  let lines := splitLines content
  edits.forM fun edit => validateRange edit.range lines changeIndex
  let normalized := sortAndDeduplicate edits
  validateNoOverlap changeIndex normalized
  .ok ⟨normalized, applyNormalizedTextEdits content normalized⟩

end OpenAgent.Lsp
