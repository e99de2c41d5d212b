import OpenAgent.Hashline.LineRef

/-!
# Normalization of edit texts

`edit-text-normalization.ts`: copied markers are removed from the payload of an
edit, and so are lines that only repeat a neighbour of the place they go to.
-/

namespace OpenAgent.Hashline

open Library

/-- The `lines` of an edit. -/
inductive EditText
  | plain (value : Text)
  | list (lines : List Text)
  deriving DecidableEq

def equalsIgnoringWhitespace (left right : Text) : Bool :=
  left == right || removeWhitespace left == removeWhitespace right

/-- What follows a match of `HASHLINE_PREFIX_RE`. -/
def afterHashlinePrefix (line : Text) : Option Text :=
  let start := trimStart line
  let marked :=
    if (text ">>>").isPrefixOf start then start.drop 3
    else if (text ">>").isPrefixOf start then start.drop 2
    else start
  let numbered := trimStart marked
  if (numbered.takeWhile isDigit).isEmpty then none
  else
    match trimStart (numbered.dropWhile isDigit) with
    | hash :: rest =>
      match trimStart rest with
      | first :: second :: bar :: remainder =>
        if hash == unit '#' && isNibble first && isNibble second && bar == unit '|' then
          some remainder
        else none
      | _ => none
    | [] => none

/-- What follows a match of `DIFF_PLUS_RE`. -/
def afterDiffPlus : Text → Option Text
  | plus :: rest =>
    if plus == unit '+' && rest.head? != some (unit '+') then some rest else none
  | [] => none

def stripLinePrefixes (lines : List Text) : List Text :=
  let nonEmpty := lines.countP (!·.isEmpty)
  let hashPrefixCount := lines.countP (fun line => (afterHashlinePrefix line).isSome)
  let diffPlusCount := lines.countP (fun line => (afterDiffPlus line).isSome)
  let stripHash := 0 < hashPrefixCount && nonEmpty ≤ 2 * hashPrefixCount
  let stripPlus := !stripHash && 0 < diffPlusCount && nonEmpty ≤ 2 * diffPlusCount
  if stripHash then lines.map fun line => (afterHashlinePrefix line).getD line
  else if stripPlus then lines.map fun line => (afterDiffPlus line).getD line
  else lines

def toNewLines : EditText → List Text
  | .plain value => stripLinePrefixes (splitLines value)
  | .list lines => stripLinePrefixes lines

/-- The indent of the original line, for a line that has none of its own. -/
def restoreLeadingIndent (templateLine line : Text) : Text :=
  if line.isEmpty then line
  else if (leadingWhitespace templateLine).isEmpty then line
  else if !(leadingWhitespace line).isEmpty then line
  else if trim templateLine == trim line then line
  else leadingWhitespace templateLine ++ line

/-- The anchor line may be missing from an array that has become shorter. -/
def stripInsertAnchorEcho (anchorLine : Option Text) : List Text → Except HashlineError (List Text)
  | [] => .ok []
  | first :: rest =>
    match anchorLine with
    | none => .error .typeError
    | some anchor =>
      .ok (if equalsIgnoringWhitespace first anchor then rest else first :: rest)

def stripInsertBeforeEcho (anchorLine : Option Text)
    (newLines : List Text) : Except HashlineError (List Text) :=
  match newLines.reverse with
  | lastLine :: _ :: _ =>
    match anchorLine with
    | none => .error .typeError
    | some anchor =>
      .ok (if equalsIgnoringWhitespace lastLine anchor then newLines.dropLast
        else newLines)
  | _ => .ok newLines

variable (lines : List Text)

/-- Drop a first line that repeats the line above the range. -/
def stripEchoAbove (startLine : Nat) (out : List Text) : List Text :=
  if 2 ≤ startLine && out.head? == lines[startLine - 2]? then out.tail else out

/-- Drop a last line that repeats the line below the range. -/
def stripEchoBelow (endLine : Nat) (out : List Text) : List Text :=
  if endLine < lines.length && !out.isEmpty && out.getLast? == lines[endLine]? then
    out.dropLast
  else out

def stripRangeBoundaryEcho (startLine endLine : Nat) (newLines : List Text) : List Text :=
  if newLines.length ≤ 1 || newLines.length ≤ endLine + 1 - startLine then newLines
  else stripEchoBelow lines endLine (stripEchoAbove lines startLine newLines)

end OpenAgent.Hashline
