import OpenAgent.Hashline.Edits
import OpenAgent.Library.Execution
import OpenAgent.Library.Weave

/-!
# Where the edits of a batch are made

Anchors are read once: an edit becomes a site with a normalized payload, and
applying it becomes a patch whose lines are computed from the current lines.
Sorting brings the patches into falling order and the insertions at the ends of
the file behind them.
-/

namespace OpenAgent.Hashline

open Library

/-- An edit with its place; `ranged` tells a range of one line from a single
line. -/
structure PlacedEdit where
  site : Site
  ranged : Bool
  payload : List Text
  deriving DecidableEq

/-- The line of an anchor. -/
def lineOf (anchor : Text) : Option Nat :=
  (parseLineRef anchor).toOption.map (·.line)

namespace HashlineEdit

/-- The normalized payload. -/
def payload : HashlineEdit → List Text
  | replace _ _ lines | append _ lines | prepend _ lines => toNewLines lines

/-- The place of an edit whose anchors can be read. -/
def placed (edit : HashlineEdit) : Option PlacedEdit :=
  match edit with
  | replace pos endPos _ =>
    match givenAnchor endPos with
    | some endAnchor => do
        let first ← lineOf pos
        let last ← lineOf endAnchor
        return { site := .instead first last, ranged := true, payload := edit.payload }
    | none => do
        let line ← lineOf pos
        return { site := .instead line line, ranged := false, payload := edit.payload }
  | append pos _ => do
      let line ← lineOf (← givenAnchor pos)
      return { site := .behind line, ranged := false, payload := edit.payload }
  | prepend pos _ => do
      let line ← lineOf (← givenAnchor pos)
      return { site := .before line, ranged := false, payload := edit.payload }

/-- An insertion at the end or at the start of the file. -/
def isUnanchored : HashlineEdit → Bool
  | replace _ _ _ => false
  | append pos _ | prepend pos _ => (givenAnchor pos).isNone

/-- The edit replaces the line. -/
def targets (edit : HashlineEdit) (line : Nat) : Bool :=
  edit.placed.any fun placed => placed.site.covers line

end HashlineEdit

namespace PlacedEdit

section

variable (edit : PlacedEdit) (lines : List Text)

/-- The lines the edit puts into the given ones. -/
def piece : List Text :=
  match edit.site with
  | .instead first last =>
    if edit.ranged then rangeReplacement lines first last edit.payload
    else setLineReplacement (lines.getD (first - 1) []) edit.payload
  | .behind line =>
    (stripInsertAnchorEcho lines[line - 1]? edit.payload).toOption.getD []
  | .before line =>
    (stripInsertBeforeEcho lines[line - 1]? edit.payload).toOption.getD []

/-- The edit as a patch of the given lines. -/
def patchOn : Patch Text where
  site := edit.site
  lines := edit.piece lines

/-- The edit inserts lines and replaces none. -/
def isInsertion : Bool :=
  match edit.site with
  | .instead _ _ => false
  | _ => true

/-- The range is not inverted and an insertion inserts something. -/
structure Accepts : Prop where
  ordered : ∀ first last, edit.site = .instead first last → first ≤ last
  inserts : edit.isInsertion = true → edit.piece lines ≠ []

end

/-- A run of accepted edits. -/
def Runs : List PlacedEdit → List Text → List Text → Prop
  | [], lines, final => final = lines
  | edit :: edits, lines, final =>
    edit.Accepts lines ∧ Runs edits ((edit.patchOn lines).apply lines) final

end PlacedEdit

theorem lineOf_eq_some (parsed : parseLineRef anchor = .ok ref) :
    lineOf anchor = some ref.line := by
  simp [lineOf, parsed, Except.toOption]

/-- An anchored edit is a patch. -/
theorem applyEdit_anchored (anchored : edit.isUnanchored = false)
    (applied : applyEdit lines edit = .ok next) :
    ∃ placed, edit.placed = some placed ∧ placed.Accepts lines ∧
      next = (placed.patchOn lines).apply lines := by
  cases edit with
  | replace pos endPos newText =>
    simp only [applyEdit] at applied
    cases given : givenAnchor endPos with
    | none =>
      simp only [given, applySetLine, bind_eq_ok] at applied
      obtain ⟨ref, parsed, result⟩ := applied
      refine ⟨⟨.instead ref.line ref.line, false, toNewLines newText⟩, ?_, ⟨?_, ?_⟩, ?_⟩
      · simp [HashlineEdit.placed, given, lineOf_eq_some parsed, HashlineEdit.payload]
      · rintro first last equal
        cases equal
        exact le_rfl
      · simp [PlacedEdit.isInsertion]
      · cases result
        simp [Patch.apply, PlacedEdit.patchOn, PlacedEdit.piece, Site.start, Site.count]
    | some endAnchor =>
      simp only [given, applyReplaceLines, bind_eq_ok] at applied
      obtain ⟨startRef, startParsed, endRef, endParsed, result⟩ := applied
      split at result
      · cases result
      next ordered =>
        refine ⟨⟨.instead startRef.line endRef.line, true, toNewLines newText⟩, ?_, ⟨?_, ?_⟩, ?_⟩
        · simp [HashlineEdit.placed, given, lineOf_eq_some startParsed,
            lineOf_eq_some endParsed, HashlineEdit.payload]
        · rintro first last equal
          cases equal
          omega
        · simp [PlacedEdit.isInsertion]
        · cases result
          simp [Patch.apply, PlacedEdit.patchOn, PlacedEdit.piece, Site.start, Site.count]
  | append pos newText =>
    simp only [applyEdit] at applied
    cases given : givenAnchor pos with
    | none => simp [HashlineEdit.isUnanchored, given] at anchored
    | some anchor =>
      simp only [given, applyInsertAfter, bind_eq_ok] at applied
      obtain ⟨ref, parsed, newLines, stripped, result⟩ := applied
      split at result
      · cases result
      next nonempty =>
        have isPiece : PlacedEdit.piece ⟨.behind ref.line, false, toNewLines newText⟩
            lines = newLines := by
          simp [PlacedEdit.piece, stripped, Except.toOption]
        refine ⟨⟨.behind ref.line, false, toNewLines newText⟩, ?_, ⟨?_, ?_⟩, ?_⟩
        · simp [HashlineEdit.placed, given, lineOf_eq_some parsed, HashlineEdit.payload]
        · intro first last equal
          cases equal
        · intro _
          rw [isPiece]
          simpa using nonempty
        · cases result
          simp [Patch.apply, PlacedEdit.patchOn, isPiece, Site.start, Site.count]
  | prepend pos newText =>
    simp only [applyEdit] at applied
    cases given : givenAnchor pos with
    | none => simp [HashlineEdit.isUnanchored, given] at anchored
    | some anchor =>
      simp only [given, applyInsertBefore, bind_eq_ok] at applied
      obtain ⟨ref, parsed, newLines, stripped, result⟩ := applied
      split at result
      · cases result
      next nonempty =>
        have isPiece : PlacedEdit.piece ⟨.before ref.line, false, toNewLines newText⟩
            lines = newLines := by
          simp [PlacedEdit.piece, stripped, Except.toOption]
        refine ⟨⟨.before ref.line, false, toNewLines newText⟩, ?_, ⟨?_, ?_⟩, ?_⟩
        · simp [HashlineEdit.placed, given, lineOf_eq_some parsed, HashlineEdit.payload]
        · intro first last equal
          cases equal
        · intro _
          rw [isPiece]
          simpa using nonempty
        · cases result
          simp [Patch.apply, PlacedEdit.patchOn, isPiece, Site.start, Site.count]

theorem sortsBefore_total (left right : Option Nat × HashlineEdit) :
    sortsBefore left right = true ∨ sortsBefore right left = true := by
  obtain ⟨leftLine, left⟩ := left
  obtain ⟨rightLine, right⟩ := right
  cases leftLine <;> cases rightLine <;> simp [sortsBefore, isBelow] <;> grind

theorem sortsBefore_trans (left middle right : Option Nat × HashlineEdit)
    (first : sortsBefore left middle = true) (second : sortsBefore middle right = true) :
    sortsBefore left right = true := by
  obtain ⟨leftLine, left⟩ := left
  obtain ⟨middleLine, middle⟩ := middle
  obtain ⟨rightLine, right⟩ := right
  cases leftLine <;> cases middleLine <;> cases rightLine <;>
    simp [sortsBefore, isBelow] at first second ⊢ <;> grind

/-- The order of two edits of the sorted batch. -/
def Precedes (left right : HashlineEdit) : Prop :=
  ∃ leftLine rightLine, getEditLineNumber left = .ok leftLine ∧
    getEditLineNumber right = .ok rightLine ∧
    sortsBefore (leftLine, left) (rightLine, right) = true

theorem keyed_of_mapM {edits : List HashlineEdit}
    (mapped : (edits.mapM fun edit => do
      let line ← getEditLineNumber edit
      return (line, edit)) = .ok keyed) :
    keyed.map (·.2) = edits ∧ ∀ entry ∈ keyed, getEditLineNumber entry.2 = .ok entry.1 := by
  induction edits generalizing keyed with
  | nil =>
    cases mapped
    simp
  | cons edit edits ih =>
    simp only [List.mapM_cons, bind_eq_ok] at mapped
    obtain ⟨entry, ⟨line, isLine, isEntry⟩, rest, restMapped, isKeyed⟩ := mapped
    cases isEntry
    cases isKeyed
    obtain ⟨restEdits, restLines⟩ := ih restMapped
    refine ⟨by simp [restEdits], ?_⟩
    rw [List.forall_mem_cons]
    exact ⟨isLine, restLines⟩

theorem sortEdits_spec (isSorted : sortEdits edits = .ok sorted) :
    sorted.Perm edits ∧ sorted.Pairwise Precedes := by
  unfold sortEdits at isSorted
  split at isSorted
  next short =>
    cases isSorted
    refine ⟨List.Perm.refl _, ?_⟩
    match edits, short with
    | [], _ => exact List.Pairwise.nil
    | [edit], _ => exact List.pairwise_singleton _ edit
  next =>
    simp only [bind_eq_ok] at isSorted
    obtain ⟨keyed, mapped, isSorted⟩ := isSorted
    cases isSorted
    obtain ⟨keyedEdits, keyedLines⟩ := keyed_of_mapM mapped
    have perm := perm_stableSort sortsBefore keyed
    refine ⟨keyedEdits ▸ perm.map _, ?_⟩
    rw [List.pairwise_map]
    refine (pairwise_stableSort sortsBefore_total sortsBefore_trans keyed).imp_of_mem ?_
    intro left right leftMember rightMember before
    exact ⟨left.1, right.1, keyedLines left (perm.mem_iff.mp leftMember),
      keyedLines right (perm.mem_iff.mp rightMember), before⟩

namespace PlacedEdit

/-- The precedence of the operation. -/
def precedence (edit : PlacedEdit) : Nat :=
  match edit.site with
  | .instead _ _ => 0
  | .behind _ => 1
  | .before _ => 2

/-- The order of the sorted batch. -/
def Precedes (earlier later : PlacedEdit) : Prop :=
  later.site.last < earlier.site.last ∨
    (later.site.last = earlier.site.last ∧ earlier.precedence ≤ later.precedence)

end PlacedEdit

theorem lineOf_of_parsed (isLine : lineOf anchor = some line) :
    ∃ ref, parseLineRef anchor = .ok ref ∧ ref.line = line := by
  unfold lineOf at isLine
  cases parsed : parseLineRef anchor with
  | error failure => simp [parsed, Except.toOption] at isLine
  | ok ref =>
    rw [parsed] at isLine
    exact ⟨ref, rfl, Option.some.inj isLine⟩

theorem parseLineRef_nil_ne_ok (ref : LineRef) : parseLineRef [] ≠ .ok ref := by
  have unmatched : matchWholeLineRef (normalizeLineRef []) = none := by decide
  simp [parseLineRef, unmatched]

theorem givenAnchor_eq_some (isGiven : givenAnchor anchor = some given) : anchor = some given :=
  (Option.filter_eq_some_iff.mp isGiven).1

theorem givenAnchor_eq_none (isNone : givenAnchor anchor = none) :
    anchor = none ∨ anchor = some [] := by
  cases anchor with
  | none => exact Or.inl rfl
  | some value => simpa [givenAnchor] using isNone

/-- What it means for an edit to have a place. -/
inductive PlacedAs : HashlineEdit → PlacedEdit → Prop
  | range (pos endAnchor lines first last)
      (isFirst : lineOf pos = some first) (isLast : lineOf endAnchor = some last)
      (given : givenAnchor (some endAnchor) = some endAnchor) :
      PlacedAs (.replace pos (some endAnchor) lines) ⟨.instead first last, true, toNewLines lines⟩
  | line (pos endPos lines number)
      (isLine : lineOf pos = some number) (none : givenAnchor endPos = none) :
      PlacedAs (.replace pos endPos lines) ⟨.instead number number, false, toNewLines lines⟩
  | behind (anchor lines number) (isLine : lineOf anchor = some number)
      (given : givenAnchor (some anchor) = some anchor) :
      PlacedAs (.append (some anchor) lines) ⟨.behind number, false, toNewLines lines⟩
  | before (anchor lines number) (isLine : lineOf anchor = some number)
      (given : givenAnchor (some anchor) = some anchor) :
      PlacedAs (.prepend (some anchor) lines) ⟨.before number, false, toNewLines lines⟩

theorem placedAs_of_placed (isPlaced : edit.placed = some placed) : PlacedAs edit placed := by
  cases edit with
  | replace pos endPos lines =>
    simp only [HashlineEdit.placed] at isPlaced
    cases given : givenAnchor endPos with
    | none =>
      simp only [given, bind, Option.bind_eq_some_iff] at isPlaced
      obtain ⟨number, isLine, isPlaced⟩ := isPlaced
      cases isPlaced
      exact PlacedAs.line pos endPos lines number isLine given
    | some endAnchor =>
      simp only [given, bind, Option.bind_eq_some_iff] at isPlaced
      obtain ⟨first, isFirst, last, isLast, isPlaced⟩ := isPlaced
      cases isPlaced
      obtain rfl := givenAnchor_eq_some given
      exact PlacedAs.range pos endAnchor lines first last isFirst isLast given
  | append pos lines | prepend pos lines =>
    simp only [HashlineEdit.placed, bind, Option.bind_eq_some_iff] at isPlaced
    obtain ⟨anchor, given, number, isLine, isPlaced⟩ := isPlaced
    cases isPlaced
    obtain rfl := givenAnchor_eq_some given
    first
      | exact PlacedAs.behind anchor lines number isLine given
      | exact PlacedAs.before anchor lines number isLine given

section

variable (placedAs : PlacedAs edit placed)
include placedAs

theorem PlacedAs.anchored : edit.isUnanchored = false := by
  cases placedAs with
  | range | line => rfl
  | behind anchor lines number isLine given | before anchor lines number isLine given =>
    simp [HashlineEdit.isUnanchored, given]

theorem PlacedAs.precedence_eq : editPrecedence edit = placed.precedence := by
  cases placedAs <;> rfl

/-- The line number an anchored edit is sorted by. -/
theorem PlacedAs.lineNumber_eq (isKey : getEditLineNumber edit = .ok key) :
    key = some placed.site.last := by
  have ofParsed : ∀ {anchor number}, lineOf anchor = some number →
      (do let ref ← parseLineRef anchor; return some ref.line) =
        (.ok (some number) : Except HashlineError (Option Nat)) := by
    intro anchor number isLine
    obtain ⟨ref, parsed, rfl⟩ := lineOf_of_parsed isLine
    rw [parsed]
    rfl
  cases placedAs with
  | range pos endAnchor lines first last isFirst isLast given =>
    simp only [getEditLineNumber, Option.getD_some] at isKey
    rw [ofParsed isLast] at isKey
    exact (Except.ok.inj isKey).symm
  | line pos endPos lines number isLine none =>
    rcases givenAnchor_eq_none none with rfl | rfl
    · simp only [getEditLineNumber, Option.getD_none] at isKey
      rw [ofParsed isLine] at isKey
      exact (Except.ok.inj isKey).symm
    · -- an empty `end` is compared as if it were an anchor
      simp only [getEditLineNumber, bind_eq_ok] at isKey
      obtain ⟨ref, parsed, _⟩ := isKey
      exact absurd parsed (parseLineRef_nil_ne_ok ref)
  | behind anchor lines number isLine given | before anchor lines number isLine given =>
    simp only [getEditLineNumber, given] at isKey
    rw [ofParsed isLine] at isKey
    exact (Except.ok.inj isKey).symm

end

theorem Precedes.placed (precedes : Precedes left right) (isLeft : PlacedAs left leftPlaced)
    (isRight : PlacedAs right rightPlaced) : leftPlaced.Precedes rightPlaced := by
  obtain ⟨leftLine, rightLine, leftKey, rightKey, before⟩ := precedes
  rw [isLeft.lineNumber_eq leftKey, isRight.lineNumber_eq rightKey] at before
  simp only [sortsBefore, Option.some.injEq, isLeft.precedence_eq, isRight.precedence_eq] at before
  split at before
  next same => exact Or.inr ⟨same.symm, of_decide_eq_true before⟩
  next => exact Or.inl (of_decide_eq_true before)

theorem Precedes.unanchored (precedes : Precedes left right) (isLeft : left.isUnanchored = true) :
    right.isUnanchored = true ∧ editPrecedence left ≤ editPrecedence right := by
  have keyOfUnanchored : ∀ {edit : HashlineEdit}, edit.isUnanchored = true →
      getEditLineNumber edit = .ok none := by
    intro edit isUnanchored
    cases edit with
    | replace => cases isUnanchored
    | append pos lines | prepend pos lines =>
      simp only [HashlineEdit.isUnanchored, Option.isNone_iff_eq_none] at isUnanchored
      simp [getEditLineNumber, isUnanchored]
  have keyOfAnchored : ∀ {edit : HashlineEdit} {key}, edit.isUnanchored = false →
      getEditLineNumber edit = .ok key → key ≠ none := by
    intro edit key isAnchored isKey
    cases edit with
    | replace pos endPos lines =>
      simp only [getEditLineNumber, bind_eq_ok] at isKey
      obtain ⟨ref, _, result⟩ := isKey
      cases result
      simp
    | append pos lines | prepend pos lines =>
      cases given : givenAnchor pos with
      | none => simp [HashlineEdit.isUnanchored, given] at isAnchored
      | some anchor =>
        simp only [getEditLineNumber, given, bind_eq_ok] at isKey
        obtain ⟨ref, _, result⟩ := isKey
        cases result
        simp
  obtain ⟨leftLine, rightLine, leftKey, rightKey, before⟩ := precedes
  rw [keyOfUnanchored isLeft] at leftKey
  cases leftKey
  cases isRight : right.isUnanchored with
  | false =>
    have isSome := keyOfAnchored isRight rightKey
    obtain ⟨line, rfl⟩ := Option.ne_none_iff_exists'.mp isSome
    simp [sortsBefore, isBelow] at before
  | true =>
    rw [keyOfUnanchored isRight] at rightKey
    cases rightKey
    exact ⟨rfl, by simpa [sortsBefore] using before⟩

/-- The insertions at the ends of the file come last. -/
theorem split_of_precedes {sorted : List HashlineEdit} (precedes : sorted.Pairwise Precedes) :
    ∃ anchored ends, sorted = anchored ++ ends ∧ (∀ edit ∈ anchored, edit.isUnanchored = false) ∧
      ∀ edit ∈ ends, edit.isUnanchored = true := by
  induction sorted with
  | nil => exact ⟨[], [], rfl, by simp, by simp⟩
  | cons edit sorted ih =>
    obtain ⟨first, rest⟩ := List.pairwise_cons.mp precedes
    cases isUnanchored : edit.isUnanchored with
    | true =>
      refine ⟨[], edit :: sorted, rfl, by simp, ?_⟩
      rw [List.forall_mem_cons]
      exact ⟨isUnanchored, fun other member =>
        ((first other member).unanchored isUnanchored).1⟩
    | false =>
      obtain ⟨anchored, ends, rfl, allAnchored, allUnanchored⟩ := ih rest
      refine ⟨edit :: anchored, ends, rfl, ?_, allUnanchored⟩
      rw [List.forall_mem_cons]
      exact ⟨isUnanchored, allAnchored⟩

end OpenAgent.Hashline
