import OpenAgent.Hashline.Normalization

/-!
# Lines with their anchors

The printers of `hash-computation.ts` and `hashline-edit-diff.ts`: every line is
shown behind its number and its hash.
-/

namespace OpenAgent.Hashline

open Library

section

variable (runtime : HashRuntime)

/-- The anchor of a line: `LINE#ID`. -/
def anchorText (lineNumber : Nat) (content : Text) : Text :=
  decimalText lineNumber ++ unit '#' :: computeLineHash runtime lineNumber content

def formatHashLine (lineNumber : Nat) (content : Text) : Text :=
  anchorText runtime lineNumber content ++ unit '|' :: content

/-- The formatted lines of a text that starts at a given line. -/
def hashLinesFrom (startLine : Nat) (lines : List Text) : List Text :=
  (lines.zipIdx startLine).map fun entry => formatHashLine runtime entry.2 entry.1

/-- `formatHashLines`, with the number of the first line. -/
def formatHashLinesFrom (startLine : Nat) (content : Text) : Text :=
  if content.isEmpty then []
  else joinLines (hashLinesFrom runtime startLine (splitLines content))

def formatHashLines (content : Text) : Text :=
  formatHashLinesFrom runtime 1 content

/-- The line of the new content in a diff. -/
def addedLine (lineNum : Nat) (newLine : Text) : Text :=
  text "+ " ++ formatHashLine runtime lineNum newLine

/-- The line of the old content in a diff; it has no hash. -/
def removedLine (lineNum : Nat) (oldLine : Text) : Text :=
  text "- " ++ decimalText lineNum ++ text "#  |" ++ oldLine

/-- The lines for one position; a line is missing where its content has
ended. -/
def diffLines (lineNum : Nat) : Option Text → Option Text → List Text
  | none, newLine => [addedLine runtime lineNum (newLine.getD [])]
  | some oldLine, none => [removedLine lineNum oldLine]
  | some oldLine, some newLine =>
    if oldLine = newLine then []
    else [removedLine lineNum oldLine, addedLine runtime lineNum newLine]

/-- The lines behind the heading. -/
def diffBody (oldLines newLines : List Text) : List Text :=
  (List.range (max oldLines.length newLines.length)).flatMap fun index =>
    diffLines runtime (index + 1) oldLines[index]? newLines[index]?

def generateHashlineDiff (oldContent newContent filePath : Text) : Text :=
  text "--- " ++ filePath ++ text "\n+++ " ++ filePath ++ text "\n" ++
    (diffBody runtime (splitLines oldContent) (splitLines newContent)).flatMap (· ++ [newline])

end

theorem computeLineHash_eq :
    ∃ first second, computeLineHash runtime lineNumber content = [first, second] ∧
      isNibble first = true ∧ isNibble second = true := by
  have nibble : ∀ index < 16, isNibble (nibbleStr.getD index 0) = true := by decide
  refine ⟨_, _, rfl, nibble _ ?_, nibble _ ?_⟩ <;> omega

theorem nibble_ne (isNibbleChar : isNibble char = true) (notNibble : isNibble other = false) :
    char ≠ other := by
  rintro rfl
  rw [isNibbleChar] at notNibble
  cases notNibble

theorem digit_ne (isDigitChar : isDigit char = true) (notDigit : isDigit other = false) :
    char ≠ other := by
  rintro rfl
  rw [isDigitChar] at notDigit
  cases notDigit

theorem newline_notMem_anchorText : newline ∉ anchorText runtime lineNumber content := by
  obtain ⟨first, second, isHash, isFirst, isSecond⟩ :=
    computeLineHash_eq
  rw [anchorText, isHash]
  intro member
  simp only [List.mem_append, List.mem_cons, List.not_mem_nil, or_false] at member
  rcases member with inNumber | isMark | rfl | rfl
  · exact absurd rfl (digit_ne (isDigit_of_mem_decimalText inNumber) (by decide))
  · exact absurd isMark (by decide)
  · exact absurd rfl (nibble_ne isFirst (by decide))
  · exact absurd rfl (nibble_ne isSecond (by decide))

theorem newline_notMem_formatHashLine (plain : newline ∉ content) :
    newline ∉ formatHashLine runtime lineNumber content := by
  rw [formatHashLine, List.mem_append, List.mem_cons, not_or, not_or]
  exact ⟨newline_notMem_anchorText, by decide, plain⟩

theorem formatHashLine_ne_nil :
    formatHashLine runtime lineNumber content ≠ [] := by
  simp [formatHashLine]

theorem hashLinesFrom_append :
    hashLinesFrom runtime startLine (left ++ right) = hashLinesFrom runtime startLine left ++
        hashLinesFrom runtime (startLine + left.length) right := by
  simp [hashLinesFrom, List.zipIdx_append]

theorem newline_notMem_hashLinesFrom (plain : ∀ line ∈ lines, newline ∉ line) :
    ∀ line ∈ hashLinesFrom runtime startLine lines, newline ∉ line := by
  intro line member
  obtain ⟨⟨content, number⟩, isEntry, rfl⟩ := List.mem_map.mp member
  exact newline_notMem_formatHashLine
    (plain content (List.fst_mem_of_mem_zipIdx isEntry))

end OpenAgent.Hashline
