import OpenAgent.Hashline.Placement

/-!
# The sorted batch

What acceptance says about a batch: its sites lie in the file, its range
replaces are disjoint, and it is a run of patches at falling lines followed by
the insertions at the two ends of the file.
-/

namespace OpenAgent.Hashline

open Library

theorem collectMismatches_bounds
    (collected : collectMismatches runtime lines refs = .ok mismatches) :
    ∀ ref ∈ refs, ∀ line, lineOf ref = some line → 1 ≤ line ∧ line ≤ lines.length := by
  induction refs generalizing mismatches with
  | nil => simp
  | cons ref refs ih =>
    simp only [collectMismatches, bind_eq_ok] at collected
    obtain ⟨lineRef, parsed, collected⟩ := collected
    have isRef : ∀ line, lineOf ref = some line → line = lineRef.line := by
      intro line isLine
      obtain ⟨found, isFound, rfl⟩ := lineOf_of_parsed isLine
      rw [parseLineRefWithHint, isFound] at parsed
      rw [Except.ok.inj parsed]
    split at collected
    · cases collected
    next number isNumber =>
      split at collected
      · cases collected
      next content isContent =>
        obtain ⟨rest, restCollected, _⟩ := bind_eq_ok.mp collected
        rw [List.forall_mem_cons]
        refine ⟨?_, ih restCollected⟩
        intro line isLine
        have inside := (List.getElem?_eq_some_iff.mp isContent).1
        rw [isRef line isLine]
        omega

theorem PlacedAs.valid (placedAs : PlacedAs edit placed)
    (bounds : ∀ ref ∈ collectLineRefs [edit], ∀ line, lineOf ref = some line →
      1 ≤ line ∧ line ≤ size)
    (accepts : placed.Accepts lines) : placed.site.Valid size := by
  cases placedAs with
  | range pos endAnchor lines first last isFirst isLast given =>
    have firstBounds := bounds pos (by simp [collectLineRefs]) first isFirst
    have lastBounds := bounds endAnchor (by simp [collectLineRefs, given]) last isLast
    exact ⟨firstBounds.1, accepts.ordered first last rfl, lastBounds.2⟩
  | line pos endPos lines number isLine none =>
    obtain ⟨low, high⟩ := bounds pos (by simp [collectLineRefs]) number isLine
    exact ⟨low, le_rfl, high⟩
  | behind anchor lines number isLine given | before anchor lines number isLine given =>
    exact bounds anchor (by simp [collectLineRefs, given]) number isLine

namespace PlacedEdit

/-- The range of a range replace. -/
def range (edit : PlacedEdit) : Option (Nat × Nat) :=
  match edit.ranged, edit.site with
  | true, .instead first last => some (first, last)
  | _, _ => none

/-- Range replaces have disjoint ranges. -/
def DisjointRanges (left right : PlacedEdit) : Prop :=
  ∀ one, left.range = some one → ∀ other, right.range = some other →
    one.2 < other.1 ∨ other.2 < one.1

end PlacedEdit

variable {edits : List HashlineEdit}

theorem editRanges_eq (collected : editRanges (edits.zipIdx idx) = .ok ranges) :
    ranges.map (fun range => (range.start, range.stop)) =
      edits.filterMap fun edit => edit.placed.bind PlacedEdit.range := by
  induction edits generalizing idx ranges with
  | nil =>
    cases collected
    rfl
  | cons edit edits ih =>
    rw [List.zipIdx_cons] at collected
    cases edit with
    | replace pos endPos lines =>
      cases given : givenAnchor endPos with
      | none =>
        simp only [editRanges, given] at collected
        rw [ih collected, List.filterMap_cons_none]
        simp only [HashlineEdit.placed, given, bind]
        cases lineOf pos <;> rfl
      | some endAnchor =>
        simp only [editRanges, given, bind_eq_ok] at collected
        obtain ⟨startRef, startParsed, stopRef, stopParsed, rest, restCollected,
          isRanges⟩ := collected
        cases isRanges
        rw [List.map_cons, ih restCollected, List.filterMap_cons_some]
        simp [HashlineEdit.placed, given, lineOf_eq_some startParsed,
          lineOf_eq_some stopParsed, PlacedEdit.range]
    | append pos lines | prepend pos lines =>
      rw [ih collected, List.filterMap_cons_none]
      simp only [HashlineEdit.placed, bind]
      cases givenAnchor pos with
      | none => rfl
      | some anchor => cases isLine : lineOf anchor <;> simp [isLine, PlacedEdit.range]

theorem pairwise_of_firstOverlap (ordered : ∀ range ∈ ranges, range.start ≤ range.stop)
    (noOverlap : firstOverlap ranges = none) :
    ranges.Pairwise fun left right => left.stop < right.start := by
  induction ranges with
  | nil => exact List.Pairwise.nil
  | cons prev ranges ih =>
    cases ranges with
    | nil => exact List.pairwise_singleton _ prev
    | cons curr rest =>
      rw [firstOverlap] at noOverlap
      split at noOverlap
      · cases noOverlap
      next apart =>
        obtain ⟨_, ordered⟩ := List.forall_mem_cons.mp ordered
        have rest := ih ordered noOverlap
        refine List.pairwise_cons.mpr ⟨?_, rest⟩
        have currOrdered := ordered curr List.mem_cons_self
        rw [List.forall_mem_cons]
        refine ⟨by omega, ?_⟩
        intro other member
        have behind := (List.pairwise_cons.mp rest).1 other member
        omega

theorem disjointRanges_of_detect
    (ordered : ∀ edit ∈ edits, ∀ range, edit.placed.bind PlacedEdit.range = some range →
      range.1 ≤ range.2)
    (detected : detectOverlappingRanges edits = .ok none) :
    edits.Pairwise fun left right => ∀ one, left.placed.bind PlacedEdit.range = some one →
      ∀ other, right.placed.bind PlacedEdit.range = some other →
        one.2 < other.1 ∨ other.2 < one.1 := by
  simp only [detectOverlappingRanges, bind_eq_ok] at detected
  obtain ⟨ranges, collected, noOverlap⟩ := detected
  have rangesEq := editRanges_eq collected
  have perm := perm_stableSort rangeSortsBefore ranges
  have rangesOrdered : ∀ range ∈ ranges, range.start ≤ range.stop := by
    intro range member
    have listed : (range.start, range.stop) ∈
        ranges.map fun range => (range.start, range.stop) := List.mem_map_of_mem member
    rw [rangesEq, List.mem_filterMap] at listed
    obtain ⟨edit, isEdit, isRange⟩ := listed
    exact ordered edit isEdit _ isRange
  have apart := pairwise_of_firstOverlap
    (fun range member => rangesOrdered range (perm.mem_iff.mp member))
    (Except.ok.inj noOverlap)
  have symmetric : ranges.Pairwise fun left right =>
      left.stop < right.start ∨ right.stop < left.start :=
    (perm.pairwise_iff fun apart => apart.symm).mp (apart.imp Or.inl)
  have mapped : (ranges.map fun range => (range.start, range.stop)).Pairwise
      fun one other => one.2 < other.1 ∨ other.2 < one.1 :=
    List.pairwise_map.mpr symmetric
  rw [rangesEq, List.pairwise_filterMap] at mapped
  exact mapped

/-- An insertion at an end of the file; a single blank line counts as
nothing. -/
def applyUnanchored (lines : List Text) (edit : HashlineEdit) : List Text :=
  if lines = [[]] then edit.payload
  else
    match edit with
    | .prepend _ _ => edit.payload ++ lines
    | _ => lines ++ edit.payload

theorem applyEdit_unanchored (isUnanchored : edit.isUnanchored = true)
    (applied : applyEdit lines edit = .ok next) :
    edit.payload ≠ [] ∧ next = applyUnanchored lines edit := by
  cases edit with
  | replace => cases isUnanchored
  | append pos newText | prepend pos newText =>
    simp only [HashlineEdit.isUnanchored, Option.isNone_iff_eq_none] at isUnanchored
    simp only [applyEdit, isUnanchored, applyAppend, applyPrepend] at applied
    split at applied
    · cases applied
    next nonempty =>
      refine ⟨by simpa [HashlineEdit.payload] using nonempty, ?_⟩
      simp only [applyUnanchored, HashlineEdit.payload]
      split at applied <;> rename_i blank <;> simpa [blank] using applied.symm

theorem applyEdits_cons
    (applied : applyEdits lines noopEdits (edit :: edits) = .ok (final, count)) :
    ∃ next, applyEdit lines edit = .ok next ∧
      ∃ noopEdits, applyEdits next noopEdits edits = .ok (final, count) := by
  simp only [applyEdits, bind_eq_ok] at applied
  obtain ⟨next, isNext, applied⟩ := applied
  split at applied
  next same =>
    rw [same] at isNext
    exact ⟨lines, isNext, noopEdits + 1, applied⟩
  next => exact ⟨next, isNext, noopEdits, applied⟩

/-- The sorted batch runs its patches and then the insertions at the ends. -/
theorem runs_of_applyEdits (areAnchored : ∀ edit ∈ anchored, edit.isUnanchored = false)
    (atEnds : ∀ edit ∈ ends, edit.isUnanchored = true)
    (applied : applyEdits lines noopEdits (anchored ++ ends) = .ok (final, count)) :
    (∀ edit ∈ anchored, edit.placed.isSome) ∧ (∀ edit ∈ ends, edit.payload ≠ []) ∧
      ∃ middle, PlacedEdit.Runs (anchored.filterMap HashlineEdit.placed) lines middle ∧
        final = ends.foldl applyUnanchored middle := by
  induction anchored generalizing lines noopEdits with
  | nil =>
    refine ⟨by simp, ?_⟩
    induction ends generalizing lines noopEdits with
    | nil =>
      cases applied
      exact ⟨by simp, _, rfl, rfl⟩
    | cons edit ends ih =>
      obtain ⟨isEnd, atEnds⟩ := List.forall_mem_cons.mp atEnds
      obtain ⟨next, isNext, _, applied⟩ := applyEdits_cons applied
      obtain ⟨nonempty, rfl⟩ := applyEdit_unanchored isEnd isNext
      obtain ⟨allNonempty, middle, isMiddle, isFinal⟩ :=
        ih atEnds applied
      refine ⟨List.forall_mem_cons.mpr ⟨nonempty, allNonempty⟩, lines, rfl, ?_⟩
      rw [isFinal, show middle = _ from isMiddle]
      rfl
  | cons edit anchored ih =>
    obtain ⟨isAnchored, areAnchored⟩ := List.forall_mem_cons.mp areAnchored
    obtain ⟨next, isNext, _, applied⟩ := applyEdits_cons applied
    obtain ⟨placed, isPlaced, accepts, rfl⟩ := applyEdit_anchored isAnchored isNext
    obtain ⟨arePlaced, nonempty, middle, runs, isFinal⟩ :=
      ih areAnchored applied
    refine ⟨List.forall_mem_cons.mpr ⟨by simp [isPlaced], arePlaced⟩, nonempty, middle, ?_, isFinal⟩
    rw [List.filterMap_cons_some isPlaced]
    exact ⟨accepts, runs⟩

theorem PlacedEdit.Runs.accepts (runs : Runs placed lines final) :
    ∀ edit ∈ placed, ∃ current, edit.Accepts current := by
  induction placed generalizing lines with
  | nil => simp
  | cons edit placed ih =>
    rw [List.forall_mem_cons]
    exact ⟨⟨lines, runs.1⟩, ih runs.2⟩

/-- How an accepted batch is applied. -/
structure SortedBatch (content : Text) (edits : List HashlineEdit)
    (anchored ends : List HashlineEdit) (middle final : List Text) : Prop where
  perm : (anchored ++ ends).Perm (dedupeEdits edits).1
  arePlaced : ∀ edit ∈ anchored, edit.placed.isSome
  atEnds : ∀ edit ∈ ends, edit.isUnanchored = true
  valid : ∀ edit ∈ anchored.filterMap HashlineEdit.placed,
    edit.site.Valid (fileLines content).length
  order : (anchored.filterMap HashlineEdit.placed).Pairwise PlacedEdit.Precedes
  endsOrder : ends.Pairwise fun left right => editPrecedence left ≤ editPrecedence right
  ranges : (anchored.filterMap HashlineEdit.placed).Pairwise PlacedEdit.DisjointRanges
  nonempty : ∀ edit ∈ ends, edit.payload ≠ []
  runs : PlacedEdit.Runs (anchored.filterMap HashlineEdit.placed) (fileLines content) middle
  final_eq : final = ends.foldl applyUnanchored middle

theorem collectLineRefs_subset (member : edit ∈ edits) :
    ∀ ref ∈ collectLineRefs [edit], ref ∈ collectLineRefs edits := by
  intro ref inside
  simp only [collectLineRefs, List.flatMap_singleton] at inside
  exact List.mem_flatMap.mpr ⟨edit, member, inside⟩

theorem sortedBatch_of_ok (someEdits : edits ≠ [])
    (accepted : applyHashlineEditsWithReport runtime content edits = .ok report) :
    ∃ anchored ends middle final, SortedBatch content edits anchored ends middle final ∧
      report.content = joinLines final := by
  simp only [applyHashlineEditsWithReport, List.isEmpty_iff, if_neg someEdits,
    bind_eq_ok] at accepted
  obtain ⟨sorted, isSorted, _, validated, overlap, detected, accepted⟩ := accepted
  cases overlap with
  | some overlapError => cases accepted
  | none =>
    obtain ⟨⟨final, count⟩, applied, isReport⟩ := bind_eq_ok.mp accepted
    cases isReport
    obtain ⟨perm, precedes⟩ := sortEdits_spec isSorted
    obtain ⟨anchored, ends, rfl, areAnchored, atEnds⟩ := split_of_precedes precedes
    obtain ⟨arePlaced, nonempty, middle, runs, isFinal⟩ :=
      runs_of_applyEdits areAnchored atEnds applied
    obtain ⟨mismatches, collected, _⟩ := bind_eq_ok.mp validated
    have bounds := collectMismatches_bounds collected
    obtain ⟨anchoredOrder, endsPairwise, _⟩ := List.pairwise_append.mp precedes
    have valid : ∀ edit ∈ anchored.filterMap HashlineEdit.placed,
        edit.site.Valid (fileLines content).length := by
      intro placed member
      obtain ⟨current, accepts⟩ := runs.accepts placed member
      obtain ⟨edit, isEdit, isPlaced⟩ := List.mem_filterMap.mp member
      refine (placedAs_of_placed isPlaced).valid ?_ accepts
      intro ref inside
      exact bounds ref (collectLineRefs_subset (List.mem_append_left ends isEdit) ref inside)
    refine ⟨anchored, ends, middle, final, ⟨perm, arePlaced, atEnds, valid, ?_, ?_, ?_,
      nonempty, runs, isFinal⟩, rfl⟩
    · rw [List.pairwise_filterMap]
      refine anchoredOrder.imp ?_
      intro left right before one isOne other isOther
      exact before.placed (placedAs_of_placed isOne) (placedAs_of_placed isOther)
    · refine endsPairwise.imp_of_mem ?_
      intro left right isLeft _ before
      exact (before.unanchored (atEnds left isLeft)).2
    · rw [List.pairwise_filterMap]
      have apart := disjointRanges_of_detect ?_ detected
      · refine (List.pairwise_append.mp apart).1.imp ?_
        intro left right disjoint one isOne other isOther oneRange isOneRange otherRange
          isOtherRange
        exact disjoint oneRange (by rw [isOne]; exact isOneRange) otherRange
          (by rw [isOther]; exact isOtherRange)
      · intro edit member range isRange
        obtain ⟨placed, isPlaced, isRange⟩ := Option.bind_eq_some_iff.mp isRange
        have placedAs := placedAs_of_placed isPlaced
        rcases List.mem_append.mp member with isAnchored | isEnd
        · have isValid := valid placed (List.mem_filterMap.mpr ⟨edit, isAnchored, isPlaced⟩)
          cases placedAs with
          | range =>
            cases isRange
            exact isValid.2.1
          | _ => cases isRange
        · have isUnanchored := atEnds edit isEnd
          rw [placedAs.anchored] at isUnanchored
          cases isUnanchored

end OpenAgent.Hashline
