import OpenAgent.Hashline.Normalization
import OpenAgent.Library.Splice

/-!
# Autocorrection of replacement lines

`autocorrect-replacement-lines.ts`: merged lines are split again, wrapped lines
joined and indents restored, all by comparison with the lines that are
replaced.
-/

namespace OpenAgent.Hashline

open Library

def continuationTokens : List Text :=
  ["&&", "||", "??", "?", ":", "=", ",", "+", "-", "*", "/", ".", "("].map text

/-- The text is a continuation token with white space behind it. -/
def isContinuation (suffix : Text) : Bool :=
  continuationTokens.any fun token =>
    token.isPrefixOf suffix && (suffix.drop token.length).all isWhitespace

def stripTrailingContinuationTokens (value : Text) : Text :=
  match findSuffix isContinuation 0 value with
  | some position => value.take position
  | none => value

/-- The class `[|&?]`. -/
def isMergeOperator (char : CodeUnit) : Bool :=
  char == unit '|' || char == unit '&' || char == unit '?'

def stripMergeOperatorChars (value : Text) : Text :=
  value.filter fun char => !isMergeOperator char

/-- The position that has `count` characters other than operators in front of
it. -/
def positionBehind : Nat → Text → Nat
  | 0, _ => 0
  | _, [] => 0
  | count + 1, char :: rest =>
    if isMergeOperator char then positionBehind (count + 1) rest + 1
    else positionBehind count rest + 1

/-- Where a part of the original begins in the merged line, and how much of
the line it takes. -/
def locatePart (merged part : Text) (offset : Nat) : Option (Nat × Nat) :=
  match indexOf merged part offset with
  | some idx => some (idx, part.length)
  | none =>
    let stripped := stripTrailingContinuationTokens part
    let exact := if stripped == part then none else indexOf merged stripped offset
    match exact with
    | some idx => some (idx, stripped.length)
    | none =>
      let segment := merged.drop offset
      match indexOf (stripMergeOperatorChars segment) (stripMergeOperatorChars part) 0 with
      | some fuzzyIdx => some (offset + positionBehind fuzzyIdx segment, part.length)
      | none => none

/-- The positions of all parts, in order. -/
def locateParts (merged : Text) : Nat → List Text → Option (List Nat)
  | _, [] => some []
  | offset, part :: parts => do
      let (idx, matchedLen) ← locatePart merged part offset
      let rest ← locateParts merged (idx + matchedLen) parts
      return idx :: rest

/-- The merged line cut at the given positions. -/
def cutAt (merged : Text) : List Nat → List Text
  | [] => []
  | [start] => [trim (merged.drop start)]
  | start :: stop :: rest => trim (slice merged start stop) :: cutAt merged (stop :: rest)

/-- `split(/;\s+/)`, with the pending part reversed. -/
def splitSemicolons : Bool → Text → Text → List Text
  | _, pending, [] => [pending.reverse]
  | skipping, pending, char :: rest =>
    if skipping && isWhitespace char then splitSemicolons true pending rest
    else if char == unit ';' && (rest.head?.map isWhitespace).getD false then
      pending.reverse :: splitSemicolons true [] rest
    else splitSemicolons false (char :: pending) rest

/-- The statements of a line; all but the last one end in a semicolon. -/
def semicolonSplit (merged : Text) : List Text :=
  let pieces := splitSemicolons false [] merged
  let closed := pieces.dropLast.map (fun piece =>
    if piece.getLast? == some (unit ';') then piece else piece ++ [unit ';']) ++
      pieces.getLast?.toList
  (closed.map trim).filter (!·.isEmpty)

/-- One replacement line for several original ones. -/
def expandMerged (originalLines : List Text) (merged : Text) : List Text :=
  let parts := originalLines.map trim
  if parts.any (·.isEmpty) then [merged]
  else
    let expanded := ((locateParts merged 0 parts).map (cutAt merged)).filter fun pieces =>
      pieces.all (!·.isEmpty) && pieces.length == originalLines.length
    match expanded with
    | some pieces => pieces
    | none =>
      if (semicolonSplit merged).length == originalLines.length then semicolonSplit merged
      else [merged]

section

variable (originalLines replacementLines : List Text)

def maybeExpandSingleLineMerge : List Text :=
  match replacementLines with
  | [merged] => if originalLines.length ≤ 1 then [merged] else expandMerged originalLines merged
  | _ => replacementLines

/-- The original line with a given text, when it is the only one. -/
def uniqueOriginal (originalLines : List Text) (canonical : Text) : Option Text :=
  match originalLines.filter fun line => removeWhitespace line == canonical with
  | [line] => some line
  | _ => none

/-- A run of replacement lines that spells one original line. -/
structure WrapCandidate where
  start : Nat
  len : Nat
  replacement : Text
  canonical : Text

def wrapCandidate (start len : Nat) : Option WrapCandidate :=
  let span := slice replacementLines start (start + len)
  if replacementLines.length < start + len then none
  else if span.any fun line => (trim line).isEmpty then none
  else
    let canonicalSpan := removeWhitespace span.flatten
    match uniqueOriginal originalLines canonicalSpan with
    | some line =>
      if 6 ≤ canonicalSpan.length then
        some { start := start, len := len, replacement := line, canonical := canonicalSpan }
      else none
    | none => none

def wrapCandidates : List WrapCandidate :=
  (List.range replacementLines.length).flatMap fun start =>
    (List.range' 2 9).filterMap fun len =>
      wrapCandidate originalLines replacementLines start len

def restoreOldWrappedLines : List Text :=
  if originalLines.isEmpty || replacementLines.length < 2 then replacementLines
  else
    let candidates := wrapCandidates originalLines replacementLines
    let uniqueCandidates := candidates.filter fun candidate =>
      candidates.countP (·.canonical == candidate.canonical) == 1
    let sorted := stableSort (fun left right => right.start ≤ left.start) uniqueCandidates
    sorted.foldl (fun lines candidate =>
      splice lines candidate.start candidate.len [candidate.replacement]) replacementLines

def restoreIndentForPairedReplacement : List Text :=
  if originalLines.length = replacementLines.length then
    List.zipWith restoreLeadingIndent originalLines replacementLines
  else replacementLines

def autocorrectReplacementLines : List Text :=
  restoreIndentForPairedReplacement originalLines
    (restoreOldWrappedLines originalLines
      (maybeExpandSingleLineMerge originalLines replacementLines))

end

theorem expandMerged_ne_nil (several : 1 < originalLines.length) :
    expandMerged originalLines merged ≠ [] := by
  intro isNil
  simp only [expandMerged] at isNil
  split at isNil
  · cases isNil
  · split at isNil
    next pieces expanded =>
      have meets := (Option.filter_eq_some_iff.mp expanded).2
      simp [isNil] at meets
      omega
    next =>
      split at isNil
      next sameLength =>
        rw [isNil, beq_iff_eq, List.length_nil] at sameLength
        omega
      next => cases isNil

theorem maybeExpandSingleLineMerge_eq_nil_iff :
    maybeExpandSingleLineMerge originalLines replacementLines = [] ↔
      replacementLines = [] := by
  match replacementLines with
  | [] => rfl
  | [merged] =>
    simp only [maybeExpandSingleLineMerge]
    split
    next => rfl
    next several => simp [expandMerged_ne_nil (Nat.lt_of_not_le several)]
  | _ :: _ :: _ => rfl

theorem restoreOldWrappedLines_eq_nil_iff :
    restoreOldWrappedLines originalLines replacementLines = [] ↔ replacementLines = [] := by
  have spliced : ∀ (candidates : List WrapCandidate) (lines : List Text), lines ≠ [] →
      candidates.foldl (fun lines candidate =>
        splice lines candidate.start candidate.len [candidate.replacement]) lines ≠ [] := by
    intro candidates
    induction candidates with
    | nil => exact fun lines nonempty => nonempty
    | cons candidate candidates ih =>
      intro lines _
      apply ih
      simp [splice]
  simp only [restoreOldWrappedLines]
  split
  next => rfl
  next several =>
    have nonempty : replacementLines ≠ [] := by
      intro isNil
      simp [isNil] at several
    simp [nonempty, spliced _ _ nonempty]

theorem restoreIndentForPairedReplacement_eq_nil_iff :
    restoreIndentForPairedReplacement originalLines replacementLines = [] ↔
      replacementLines = [] := by
  unfold restoreIndentForPairedReplacement
  split
  next sameLength =>
    rw [← List.length_eq_zero_iff, ← List.length_eq_zero_iff, List.length_zipWith,
      sameLength, Nat.min_self]
  next => rfl

theorem autocorrectReplacementLines_eq_nil_iff :
    autocorrectReplacementLines originalLines replacementLines = [] ↔
      replacementLines = [] := by
  rw [autocorrectReplacementLines, restoreIndentForPairedReplacement_eq_nil_iff,
    restoreOldWrappedLines_eq_nil_iff, maybeExpandSingleLineMerge_eq_nil_iff]

end OpenAgent.Hashline
