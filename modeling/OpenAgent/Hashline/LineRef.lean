import OpenAgent.Hashline.LineHash

/-!
# Line references

`validation.ts`: anchors of the form `LINE#ID`, how they are read and how they
are checked against a file.  Line numbers are exact naturals.
-/

namespace OpenAgent.Hashline

open Library

/-- A line by its number and hash. -/
structure LineRef where
  line : Nat
  hash : Text

structure HashMismatch where
  line : Nat
  expected : Text
  deriving DecidableEq

/-- What the module throws. -/
inductive HashlineError
  /-- An `Error` with its message. -/
  | error (message : Text)
  /-- A `HashlineMismatchError`. -/
  | mismatch (mismatches : List HashMismatch) (fileLines : List Text)
  /-- A method call on `undefined`. -/
  | typeError
  deriving DecidableEq

/-- A match of `[0-9]+#[ZPMQVRWSNKTXJBYH]{2}` at the start of a text. -/
structure RefMatch where
  digits : Text
  hash : Text
  rest : Text

section

variable (value : Text)

def matchLineRef : Option RefMatch :=
  match value.takeWhile isDigit, value.dropWhile isDigit with
  | digit :: digits, hash :: first :: second :: rest =>
    if hash == unit '#' && isNibble first && isNibble second then
      some { digits := digit :: digits, hash := [first, second], rest := rest }
    else none
  | _, _ => none

/-- The whole text is a reference: `HASHLINE_REF_PATTERN`. -/
def matchWholeLineRef : Option RefMatch :=
  match matchLineRef value with
  | some found => if found.rest.isEmpty then some found else none
  | none => none

/-- The first match of `LINE_REF_EXTRACT_PATTERN`. -/
def extractLineRef : Text → Option Text
  | [] => none
  | char :: rest =>
    match matchLineRef (char :: rest) with
    | some found => some (found.digits ++ unit '#' :: found.hash)
    | none => extractLineRef rest

/-- `replace(/^(?:>>>|[+-])\s*/, "")`. -/
def stripMarker : Text :=
  match value with
  | first :: rest =>
    if (text ">>>").isPrefixOf value then trimStart (value.drop 3)
    else if first == unit '+' || first == unit '-' then trimStart rest
    else value
  | [] => []

/-- `replace(/\s*#\s*/, "#")`. -/
def closeUpHash : Text :=
  match value.dropWhile (· != unit '#') with
  | [] => value
  | hash :: rest => trimEnd (value.takeWhile (· != unit '#')) ++ hash :: trimStart rest

/-- `replace(/\|.*$/, "")`; the dot stops at line terminators. -/
def cutAtBar : Text :=
  let isBar := fun suffix => match suffix with
    | [] => false
    | char :: rest => char == unit '|' && rest.all fun other => !isLineTerminator other
  match findSuffix isBar 0 value with
  | some position => value.take position
  | none => value

end

def normalizeLineRef (ref : Text) : Text :=
  let originalTrimmed := trim ref
  let trimmed := trim (cutAtBar (closeUpHash (stripMarker originalTrimmed)))
  match matchWholeLineRef trimmed with
  | some _ => trimmed
  | none =>
    match extractLineRef trimmed with
    | some extracted => extracted
    | none => originalTrimmed

/-- `Number.parseInt(digits, 10)`. -/
def parseDecimal (digits : Text) : Nat :=
  digits.foldl (fun value digit => 10 * value + (digit.toNat - 48)) 0

/-- The error for a text that is no reference. -/
def lineRefError (ref normalized : Text) : HashlineError :=
  let number := normalized.takeWhile (· != unit '#')
  let suffix := (normalized.dropWhile (· != unit '#')).tail
  let notANumber := !number.isEmpty && number.length < normalized.length &&
    !number.all isDigit && suffix.length == 2 && suffix.all isNibble
  if notANumber then
    .error (text "Invalid line reference: \"" ++ ref ++ text "\". \"" ++ number ++
      text "\" is not a line number. Use the actual line number from the read output.")
  else
    .error (text "Invalid line reference format: \"" ++ ref ++
      text "\". Expected format: \"\x7bline_number\x7d#\x7bhash_id\x7d\"")

def parseLineRef (ref : Text) : Except HashlineError LineRef :=
  let normalized := normalizeLineRef ref
  match matchWholeLineRef normalized with
  | some found => .ok { line := parseDecimal found.digits, hash := found.hash }
  | none => .error (lineRefError ref normalized)

/-- What a match consists of. -/
theorem matchLineRef_spec (isMatch : matchLineRef value = some found) :
    value = found.digits ++ unit '#' :: (found.hash ++ found.rest) ∧
      found.digits ≠ [] ∧ (∀ digit ∈ found.digits, isDigit digit = true) ∧
      ∀ char ∈ found.hash, isNibble char = true := by
  unfold matchLineRef at isMatch
  split at isMatch
  next digit digits hash first second rest isDigits isRest =>
    split at isMatch
    next isRef =>
      simp only [Bool.and_eq_true, beq_iff_eq] at isRef
      obtain ⟨⟨rfl, isFirst⟩, isSecond⟩ := isRef
      cases isMatch
      refine ⟨?_, by simp, ?_, by simp [isFirst, isSecond]⟩
      · conv_lhs => rw [← List.takeWhile_append_dropWhile (p := isDigit) (l := value)]
        rw [isDigits, isRest]
        rfl
      · intro other member
        rw [← isDigits] at member
        exact List.all_eq_true.mp List.all_takeWhile other member
    next => cases isMatch
  next => cases isMatch

theorem matchWholeLineRef_spec (isMatch : matchWholeLineRef value = some found) :
    value = found.digits ++ unit '#' :: found.hash ∧
      found.digits ≠ [] ∧ (∀ digit ∈ found.digits, isDigit digit = true) ∧
      ∀ char ∈ found.hash, isNibble char = true := by
  unfold matchWholeLineRef at isMatch
  split at isMatch
  next other isOther =>
    split at isMatch
    next noRest =>
      cases isMatch
      obtain ⟨isValue, rest⟩ := matchLineRef_spec isOther
      rw [List.isEmpty_iff.mp noRest, List.append_nil] at isValue
      exact ⟨isValue, rest⟩
    next => cases isMatch
  next => cases isMatch

def isCompatibleLineHash (runtime : HashRuntime) (line : Nat) (content hash : Text) : Bool :=
  computeLineHash runtime line content == hash ||
    computeLegacyLineHash runtime line content == hash

/-- The hash at the end of a reference that could not be read. -/
def trailingHash (ref : Text) : Option Text :=
  match (trim ref).reverse with
  | second :: first :: hash :: _ =>
    if hash == unit '#' && isNibble first && isNibble second then some [first, second]
    else none
  | _ => none

def suggestLineForHash (runtime : HashRuntime) (ref : Text) (lines : List Text) : Option Text := do
  let hash ← trailingHash ref
  let (content, line) ← (lines.zipIdx 1).find? fun entry =>
    isCompatibleLineHash runtime entry.2 entry.1 hash
  return text "Did you mean \"" ++ decimalText line ++ unit '#' ::
    computeLineHash runtime line content ++ text "\"?"

def parseLineRefWithHint (runtime : HashRuntime) (ref : Text)
    (lines : List Text) : Except HashlineError LineRef :=
  match parseLineRef ref with
  | .ok lineRef => .ok lineRef
  | .error (.error message) =>
    match suggestLineForHash runtime ref lines with
    | some hint => .error (.error (message ++ text " " ++ hint))
    | none => .error (.error message)
  | .error other => .error other

def validateLineRef (runtime : HashRuntime) (lines : List Text)
    (ref : Text) : Except HashlineError Unit := do
  let lineRef ← parseLineRefWithHint runtime ref lines
  match lineRef.line with
  | 0 => throw (outOfBounds 0)
  | number + 1 =>
    match lines[number]? with
    | none => throw (outOfBounds (number + 1))
    | some content =>
      if isCompatibleLineHash runtime (number + 1) content lineRef.hash then return ()
      else throw (.mismatch [{ line := number + 1, expected := lineRef.hash }] lines)
where
  outOfBounds (line : Nat) : HashlineError :=
    .error (text "Line number " ++ decimalText line ++ text " out of bounds. File has " ++
      decimalText lines.length ++ text " lines.")

/-- The mismatches among the references; every reference must be readable and
in bounds. -/
def collectMismatches (runtime : HashRuntime)
    (lines : List Text) : List Text → Except HashlineError (List HashMismatch)
  | [] => .ok []
  | ref :: refs => do
      let lineRef ← parseLineRefWithHint runtime ref lines
      match lineRef.line with
      | 0 => throw (outOfBounds 0)
      | number + 1 =>
        match lines[number]? with
        | none => throw (outOfBounds (number + 1))
        | some content =>
          let rest ← collectMismatches runtime lines refs
          if isCompatibleLineHash runtime (number + 1) content lineRef.hash then
            return rest
          else
            return { line := number + 1, expected := lineRef.hash } :: rest
where
  outOfBounds (line : Nat) : HashlineError :=
    .error (text "Line number " ++ decimalText line ++ text " out of bounds (file has " ++
      decimalText lines.length ++ text " lines)")

variable (runtime : HashRuntime)

def validateLineRefs (lines refs : List Text) : Except HashlineError Unit := do
  let mismatches ← collectMismatches runtime lines refs
  if mismatches.isEmpty then return ()
  else throw (.mismatch mismatches lines)

def mismatchContext : Nat := 2

variable (mismatches : List HashMismatch)

/-- The lines around the mismatches, in order. -/
def displayLines (lineCount : Nat) : List Nat :=
  let around := mismatches.flatMap fun mismatch =>
    let low := max 1 (mismatch.line - mismatchContext)
    let high := min lineCount (mismatch.line + mismatchContext)
    List.range' low (high + 1 - low)
  stableSort (fun left right => left ≤ right) (setOf around)

variable (fileLines : List Text)

/-- One shown line; `>>>` marks a line that has changed. -/
def displayLine (line : Nat) : Text :=
  let content := fileLines.getD (line - 1) []
  let marker := if mismatches.any (·.line == line) then text ">>> " else text "    "
  marker ++ decimalText line ++ unit '#' :: computeLineHash runtime line content ++
    unit '|' :: content

/-- The shown lines, with an ellipsis at every gap. -/
def displayBlock (runtime : HashRuntime) (mismatches : List HashMismatch)
    (fileLines : List Text) : Option Nat → List Nat → List Text
  | _, [] => []
  | previousLine, line :: rest =>
    let gap := match previousLine with
      | some previous => if previous + 1 < line then [text "    ..."] else []
      | none => []
    gap ++ displayLine runtime mismatches fileLines line ::
      displayBlock runtime mismatches fileLines (some line) rest

/-- `HashlineMismatchError.formatMessage`. -/
def formatMessage : Text :=
  let verb := if 1 < mismatches.length then text "s have" else text " has"
  let head := decimalText mismatches.length ++ text " line" ++ verb ++
    text " changed since last read. " ++
    text "Use updated \x7bline_number\x7d#\x7bhash_id\x7d references below " ++
    text "(>>> marks changed lines)."
  joinLines (head :: [] ::
    displayBlock runtime mismatches fileLines none (displayLines mismatches fileLines.length))

end OpenAgent.Hashline
