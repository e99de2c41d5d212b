import Mathlib.Data.List.Pairwise
import OpenAgent.Hashline.UntargetedLines

/-!
# Edits against the snapshot

A batch with separate targets gives what its edits give when each is evaluated
alone against the original lines and all are spliced at once.  Two lookups of
the code see changed lines instead: the line below a range, when its payload is
long enough for an echo, and the single blank line that an insertion at an end
of the file takes for an empty file.
-/

namespace OpenAgent.Hashline

open Library

namespace HashlineEdit

/-- The lines inserted at the start of the file. -/
def startLines (edit : HashlineEdit) : List Text :=
  match edit with
  | prepend pos _ => if (givenAnchor pos).isNone then edit.payload else []
  | _ => []

/-- The lines inserted at the end of the file. -/
def endLines (edit : HashlineEdit) : List Text :=
  match edit with
  | append pos _ => if (givenAnchor pos).isNone then edit.payload else []
  | _ => []

/-- The edits share no target: no line, and not the same end of the file. -/
def Apart (left right : HashlineEdit) : Prop :=
  (∀ one other, left.placed = some one → right.placed = some other →
    one.site.last < other.site.first ∨ other.site.last < one.site.first) ∧
    (left.isUnanchored = true → right.isUnanchored = true →
      editPrecedence left ≠ editPrecedence right)

end HashlineEdit

variable {left : HashlineEdit}

theorem HashlineEdit.Apart.symm (apart : left.Apart right) : right.Apart left :=
  ⟨fun one other isOne isOther => (apart.1 other one isOther isOne).symm,
    fun isRight isLeft => (apart.2 isLeft isRight).symm⟩

/-- Every edit has a target, and no two edits share one.  An inverted range is
no target. -/
structure SeparateTargets (edits : List HashlineEdit) : Prop where
  readable : ∀ edit ∈ edits, edit.isUnanchored = true ∨
    ∃ placed, edit.placed = some placed ∧ placed.site.first ≤ placed.site.last
  apart : edits.Pairwise HashlineEdit.Apart

section

variable (content : Text) (edits : List HashlineEdit)

/-- The edits as patches of the original lines. -/
def snapshotPatches : List (Patch Text) :=
  (edits.filterMap HashlineEdit.placed).map (·.patchOn (fileLines content))

/-- Every edit evaluated against the original lines, and all spliced at
once. -/
def snapshotLines : List Text :=
  edits.flatMap HashlineEdit.startLines ++
    weave (snapshotPatches content edits) (fileLines content) ++
    edits.flatMap HashlineEdit.endLines

/-- The payload of a range replace is long enough to be searched for echoes. -/
def PlacedEdit.SearchesEchoes (edit : PlacedEdit) : Prop :=
  edit.ranged = true ∧ 1 < edit.payload.length ∧
    edit.site.last + 1 - edit.site.first < edit.payload.length

/-- No edit changes the line below a range whose payload is searched for
echoes: none replaces it and none is put before it. -/
def LinesBelowKept : Prop :=
  ∀ edit ∈ edits, ∀ placed, edit.placed = some placed → placed.SearchesEchoes →
    ∀ other ∈ edits, ∀ neighbour, other.placed = some neighbour →
      neighbour.site ≠ .before (placed.site.last + 1) ∧
        ∀ last, neighbour.site ≠ .instead (placed.site.last + 1) last

/-- The lines that the anchored edits leave: the untargeted ones and those that
each edit gives alone. -/
def linesLeft : List Text :=
  untargetedLines content edits ++ (snapshotPatches content edits).flatMap (·.lines)

/-- An insertion at an end of the file does not meet a single blank line. -/
structure EndsMeetLines : Prop where
  atEnd : edits.flatMap HashlineEdit.endLines ≠ [] → linesLeft content edits ≠ [[]]
  atStart : edits.flatMap HashlineEdit.startLines ≠ [] →
    linesLeft content edits ++ edits.flatMap HashlineEdit.endLines ≠ [[]]

end

theorem stripEchoAbove_congr
    (same : 2 ≤ startLine → lines[startLine - 2]? = original[startLine - 2]?) :
    stripEchoAbove lines startLine out = stripEchoAbove original startLine out := by
  unfold stripEchoAbove
  by_cases inside : 2 ≤ startLine
  · rw [same inside]
  · simp [inside]

theorem stripEchoBelow_congr (same : lines[endLine]? = original[endLine]?) :
    stripEchoBelow lines endLine out = stripEchoBelow original endLine out := by
  have inside : endLine < lines.length ↔ endLine < original.length := by
    rw [← not_le, ← not_le, ← List.getElem?_eq_none_iff, ← List.getElem?_eq_none_iff, same]
  simp only [stripEchoBelow, same, inside]

theorem stripRangeBoundaryEcho_congr
    (above : 2 ≤ startLine → lines[startLine - 2]? = original[startLine - 2]?)
    (below : 1 < newLines.length → endLine + 1 - startLine < newLines.length →
      lines[endLine]? = original[endLine]?) :
    stripRangeBoundaryEcho lines startLine endLine newLines =
      stripRangeBoundaryEcho original startLine endLine newLines := by
  unfold stripRangeBoundaryEcho
  split
  next => rfl
  next long =>
    simp only [Bool.or_eq_true, decide_eq_true_eq, not_or, not_le] at long
    rw [stripEchoAbove_congr above, stripEchoBelow_congr (below long.1 long.2)]

/-- An edit at the end of the unchanged part gives what it gives alone, unless
the line below it has changed and is looked at. -/
theorem piece_eq_of_woven (woven : Woven original patches low lines) {edit : PlacedEdit}
    (valid : edit.site.Valid original.length) (below : edit.site.last ≤ low)
    (neighbour : edit.SearchesEchoes → lines[edit.site.last]? = original[edit.site.last]?) :
    edit.piece lines = edit.piece original := by
  obtain ⟨site, ranged, payload⟩ := edit
  cases site with
  | behind number | before number =>
    simp only [Site.Valid, Site.last] at valid below
    simp only [PlacedEdit.piece]
    rw [woven.getElem?_eq (by omega)]
  | instead first last =>
    simp only [Site.Valid, Site.last] at valid below neighbour
    have firstLine : lines[first - 1]? = original[first - 1]? :=
      woven.getElem?_eq (by omega)
    simp only [PlacedEdit.piece]
    split
    next isRange =>
      have range : slice lines (first - 1) last = slice original (first - 1) last := by
        have takes := congrArg (List.take last) woven.take_eq
        rw [List.take_take, List.take_take, Nat.min_eq_left below] at takes
        rw [slice, slice, takes]
      have above : lines[first - 2]? = original[first - 2]? :=
        woven.getElem?_eq (by omega)
      have stripped : stripRangeBoundaryEcho lines first last payload =
          stripRangeBoundaryEcho original first last payload :=
        stripRangeBoundaryEcho_congr (fun _ => above)
          (fun long longer => neighbour ⟨isRange, long, longer⟩)
      rw [rangeReplacement, rangeReplacement, range, stripped, List.getD_eq_getElem?_getD,
        List.getD_eq_getElem?_getD, firstLine]
    next => rw [List.getD_eq_getElem?_getD, List.getD_eq_getElem?_getD, firstLine]

/-- The later edit ends in front of the earlier one, and the earlier one leaves
alone the line below it if that is looked at. -/
structure PlacedEdit.FallsBelow (earlier later : PlacedEdit) : Prop where
  below : later.site.last ≤ earlier.site.start
  neighbour : later.SearchesEchoes → later.site.last < earlier.site.start

theorem woven_of_separate (woven : Woven original (done.map (·.patchOn original)) low lines)
    (valid : ∀ edit ∈ placed, edit.site.Valid original.length)
    (below : ∀ edit ∈ placed, edit.site.last ≤ low)
    (fallsBelow : ∀ earlier ∈ done, ∀ later ∈ placed, earlier.FallsBelow later)
    (falling : placed.Pairwise PlacedEdit.FallsBelow) (runs : PlacedEdit.Runs placed lines final) :
    ∃ low, Woven original ((placed.reverse ++ done).map (·.patchOn original)) low final := by
  induction placed generalizing done low lines with
  | nil =>
    cases (show final = lines from runs)
    exact ⟨low, woven⟩
  | cons edit placed ih =>
    obtain ⟨_, runs⟩ := runs
    obtain ⟨editValid, valid⟩ := List.forall_mem_cons.mp valid
    obtain ⟨editBelow, below⟩ := List.forall_mem_cons.mp below
    obtain ⟨first, falling⟩ := List.pairwise_cons.mp falling
    have neighbour : edit.SearchesEchoes → lines[edit.site.last]? = original[edit.site.last]? := by
      intro searches
      rcases Nat.lt_or_ge edit.site.last low with inside | atLow
      · exact woven.getElem?_eq inside
      · obtain rfl : edit.site.last = low := by omega
        apply woven.getElem?_low
        intro patch member
        obtain ⟨earlier, isDone, rfl⟩ := List.mem_map.mp member
        exact (fallsBelow earlier isDone edit List.mem_cons_self).neighbour searches
    have samePatch : edit.patchOn lines = edit.patchOn original := by
      rw [PlacedEdit.patchOn, PlacedEdit.patchOn,
        piece_eq_of_woven woven editValid editBelow neighbour]
    rw [samePatch] at runs
    have next : Woven original ((edit :: done).map (·.patchOn original)) edit.site.start
        ((edit.patchOn original).apply lines) := woven.step editValid editBelow
    have fallsNext : ∀ earlier ∈ edit :: done, ∀ later ∈ placed, earlier.FallsBelow later := by
      rw [List.forall_mem_cons]
      exact ⟨first, fun earlier isDone later member =>
        fallsBelow earlier isDone later (List.mem_cons_of_mem edit member)⟩
    obtain ⟨finalLow, wovenFinal⟩ := ih next valid
      (fun later member => (first later member).below) fallsNext falling runs
    refine ⟨finalLow, ?_⟩
    simpa using wovenFinal

theorem fallsBelow_of_apart (isLeft : left.placed = some earlier)
    (isRight : right.placed = some later) (leftValid : earlier.site.Valid size)
    (rightValid : later.site.Valid size) (precedes : earlier.Precedes later)
    (apart : left.Apart right)
    (kept : later.SearchesEchoes → earlier.site ≠ .before (later.site.last + 1) ∧
        ∀ last, earlier.site ≠ .instead (later.site.last + 1) last) :
    earlier.FallsBelow later := by
  have away := apart.1 earlier later isLeft isRight
  have ordered := (Site.first_le_last rightValid).1
  have lastLE : later.site.last ≤ earlier.site.last := by
    rcases precedes with less | ⟨same, _⟩ <;> omega
  have front : later.site.last < earlier.site.first := by omega
  obtain ⟨site, ranged, payload⟩ := earlier
  cases site with
  | behind number =>
    simp only [Site.first] at front
    exact ⟨by simp only [Site.start]; omega, fun _ => front⟩
  | before number =>
    simp only [Site.first] at front leftValid
    refine ⟨by simp only [Site.start]; omega, fun searches => ?_⟩
    have other := (kept searches).1
    simp only [ne_eq, Site.before.injEq] at other
    simp only [Site.start]
    omega
  | instead first last =>
    simp only [Site.first] at front leftValid
    refine ⟨by simp only [Site.start]; omega, fun searches => ?_⟩
    have other := (kept searches).2 last
    simp only [ne_eq, Site.instead.injEq, and_true] at other
    simp only [Site.start]
    omega

namespace HashlineEdit

/-- The operation in a deduplication key. -/
def keyOp : HashlineEdit → Text
  | replace _ _ _ => text "replace"
  | append _ _ => text "append"
  | prepend _ _ => text "prepend"

/-- The first anchor in a deduplication key. -/
def keyAnchor : HashlineEdit → Text
  | replace pos _ _ => canonicalAnchor (some pos)
  | append pos _ | prepend pos _ => canonicalAnchor pos

/-- The rest of a deduplication key. -/
def keyRest : HashlineEdit → Text
  | replace _ endPos lines => joinFields [canonicalAnchor endPos, normalizeEditPayload lines]
  | append _ lines | prepend _ lines => normalizeEditPayload lines

theorem dedupeKey_eq :
    buildDedupeKey edit =
      edit.keyOp ++ unit '|' :: (edit.keyAnchor ++ unit '|' :: edit.keyRest) := by
  cases edit <;>
    simp [buildDedupeKey, keyOp, keyAnchor, keyRest, joinFields]

theorem bar_not_mem_keyOp (edit : HashlineEdit) : unit '|' ∉ edit.keyOp := by
  cases edit <;> simp only [keyOp] <;> decide

theorem precedence_of_keyOp (same : left.keyOp = right.keyOp) :
    editPrecedence left = editPrecedence right := by
  cases left <;> cases right <;> simp only [keyOp] at same <;>
    first | rfl | exact absurd same (by decide)

end HashlineEdit

variable {edit : HashlineEdit}

/-- A place is read from the canonical anchor. -/
theorem PlacedAs.keyAnchor_spec (placedAs : PlacedAs edit placed) :
    ∃ found, matchWholeLineRef edit.keyAnchor = some found ∧
      placed.site.first = parseDecimal found.digits := by
  have ofLine : ∀ {anchor number}, lineOf anchor = some number →
      ∃ found, matchWholeLineRef (canonicalAnchor (some anchor)) = some found ∧
        number = parseDecimal found.digits := by
    intro anchor number isLine
    obtain ⟨ref, parsed, rfl⟩ := lineOf_of_parsed isLine
    have given : givenAnchor (some anchor) = some anchor := by
      cases anchor with
      | nil => exact absurd parsed (parseLineRef_nil_ne_ok ref)
      | cons => rfl
    rw [canonicalAnchor, given]
    unfold parseLineRef at parsed
    simp only at parsed
    split at parsed
    next found isFound =>
      cases parsed
      exact ⟨found, isFound, rfl⟩
    next => cases parsed
  cases placedAs with
  | range pos endAnchor lines first last isFirst isLast given => exact ofLine isFirst
  | line pos endPos lines number isLine none | behind anchor lines number isLine given
  | before anchor lines number isLine given => exact ofLine isLine

theorem keyAnchor_of_unanchored (isUnanchored : edit.isUnanchored = true) :
    edit.keyAnchor = [] := by
  cases edit with
  | replace => cases isUnanchored
  | append pos lines | prepend pos lines =>
    simp only [HashlineEdit.isUnanchored, Option.isNone_iff_eq_none] at isUnanchored
    simp [HashlineEdit.keyAnchor, canonicalAnchor, isUnanchored]

/-- The edit has a target. -/
def HashlineEdit.Readable (edit : HashlineEdit) : Prop :=
  edit.isUnanchored = true ∨
    ∃ placed, edit.placed = some placed ∧ placed.site.first ≤ placed.site.last

theorem bar_not_mem_keyAnchor (readable : edit.Readable) : unit '|' ∉ edit.keyAnchor := by
  rcases readable with isUnanchored | ⟨placed, isPlaced, _⟩
  · simp [keyAnchor_of_unanchored isUnanchored]
  · obtain ⟨found, isMatch, _⟩ := (placedAs_of_placed isPlaced).keyAnchor_spec
    obtain ⟨isAnchor, _, digits, nibbles⟩ := matchWholeLineRef_spec isMatch
    rw [isAnchor, List.mem_append, List.mem_cons]
    rintro (inDigits | isHash | inHash)
    · exact absurd (digits _ inDigits) (by decide)
    · exact absurd isHash (by decide)
    · exact absurd (nibbles _ inHash) (by decide)

/-- Edits with the same key share a target. -/
theorem dedupeKey_ne_of_apart (leftReadable : left.Readable) (rightReadable : right.Readable)
    (apart : left.Apart right) : buildDedupeKey left ≠ buildDedupeKey right := by
  intro sameKey
  rw [left.dedupeKey_eq, right.dedupeKey_eq] at sameKey
  obtain ⟨sameOp, sameRest⟩ := append_separator_inj left.bar_not_mem_keyOp
    right.bar_not_mem_keyOp sameKey
  obtain ⟨sameAnchor, _⟩ := append_separator_inj (bar_not_mem_keyAnchor leftReadable)
    (bar_not_mem_keyAnchor rightReadable) sameRest
  have emptyAnchor : ∀ {found}, matchWholeLineRef [] ≠ some found := by
    intro found isMatch
    cases isMatch
  rcases leftReadable with leftEnd | ⟨one, isOne, oneOrdered⟩
  · rcases rightReadable with rightEnd | ⟨other, isOther, _⟩
    · exact apart.2 leftEnd rightEnd (HashlineEdit.precedence_of_keyOp sameOp)
    · obtain ⟨found, isMatch, _⟩ := (placedAs_of_placed isOther).keyAnchor_spec
      rw [← sameAnchor, keyAnchor_of_unanchored leftEnd] at isMatch
      exact emptyAnchor isMatch
  · obtain ⟨found, isMatch, oneFirst⟩ := (placedAs_of_placed isOne).keyAnchor_spec
    rcases rightReadable with rightEnd | ⟨other, isOther, otherOrdered⟩
    · rw [sameAnchor, keyAnchor_of_unanchored rightEnd] at isMatch
      exact emptyAnchor isMatch
    · obtain ⟨otherFound, otherMatch, otherFirst⟩ :=
        (placedAs_of_placed isOther).keyAnchor_spec
      rw [← sameAnchor, isMatch] at otherMatch
      cases otherMatch
      have away := apart.1 one other isOne isOther
      omega

theorem dedupeFrom_of_distinct (unseen : ∀ edit ∈ edits, buildDedupeKey edit ∉ seen)
    (distinct : edits.Pairwise fun left right => buildDedupeKey left ≠ buildDedupeKey right) :
    dedupeFrom seen edits = (edits, 0) := by
  induction edits generalizing seen with
  | nil => rfl
  | cons edit edits ih =>
    obtain ⟨editUnseen, unseen⟩ := List.forall_mem_cons.mp unseen
    obtain ⟨first, distinct⟩ := List.pairwise_cons.mp distinct
    rw [dedupeFrom, if_neg editUnseen, ih _ distinct]
    intro other member inSeen
    rw [mem_setInsert] at inSeen
    rcases inSeen with old | same
    · exact unseen other member old
    · exact first other member same.symm

theorem SeparateTargets.dedupeEdits_eq (separate : SeparateTargets edits) :
    dedupeEdits edits = (edits, 0) := by
  apply dedupeFrom_of_distinct
  · simp
  · refine separate.apart.imp_of_mem ?_
    intro left right isLeft isRight apart
    exact dedupeKey_ne_of_apart (separate.readable left isLeft)
      (separate.readable right isRight) apart

section Batch

section

variable
  (separate : SeparateTargets edits)
  (batch : SortedBatch content edits anchored ends middle final)
include separate batch

theorem SeparateTargets.perm : (anchored ++ ends).Perm edits := by
  have perm := batch.perm
  rwa [separate.dedupeEdits_eq] at perm

theorem SeparateTargets.pairwise : (anchored ++ ends).Pairwise HashlineEdit.Apart :=
  ((separate.perm batch).pairwise_iff HashlineEdit.Apart.symm).mpr separate.apart

theorem SeparateTargets.perm_placed :
    (anchored.filterMap HashlineEdit.placed).Perm (edits.filterMap HashlineEdit.placed) := by
  have noneAtEnds : ends.filterMap HashlineEdit.placed = [] := by
    rw [List.filterMap_eq_nil_iff]
    intro edit member
    by_contra isSome
    obtain ⟨placed, isPlaced⟩ := Option.ne_none_iff_exists'.mp isSome
    have isUnanchored := batch.atEnds edit member
    rw [(placedAs_of_placed isPlaced).anchored] at isUnanchored
    cases isUnanchored
  have perm := (separate.perm batch).filterMap HashlineEdit.placed
  rwa [List.filterMap_append, noneAtEnds, List.append_nil] at perm

end

/-- The anchored part of a separate batch is woven at once. -/
theorem middle_eq_weave (separate : SeparateTargets edits) (kept : LinesBelowKept edits)
    (batch : SortedBatch content edits anchored ends middle final) :
    middle = weave (snapshotPatches content edits) (fileLines content) ∧
      middle.Perm (linesLeft content edits) := by
  have permEdits := separate.perm batch
  have apart := (List.pairwise_append.mp (separate.pairwise batch)).1
  have isEdit : ∀ edit ∈ anchored, edit ∈ edits := fun edit member =>
    permEdits.mem_iff.mp (List.mem_append_left ends member)
  have falling : (anchored.filterMap HashlineEdit.placed).Pairwise PlacedEdit.FallsBelow := by
    rw [List.pairwise_filterMap]
    refine (apart.and (List.pairwise_filterMap.mp batch.order)).imp_of_mem ?_
    rintro left right isLeft isRight ⟨apart, precedes⟩ earlier isEarlier later isLater
    refine fallsBelow_of_apart isEarlier isLater
      (batch.valid earlier (List.mem_filterMap.mpr ⟨left, isLeft, isEarlier⟩))
      (batch.valid later (List.mem_filterMap.mpr ⟨right, isRight, isLater⟩))
      (precedes earlier isEarlier later isLater) apart ?_
    intro searches
    exact kept right (isEdit right isRight) later isLater searches left (isEdit left isLeft)
      earlier isEarlier
  have initial : Woven (fileLines content)
      (([] : List PlacedEdit).map (·.patchOn (fileLines content)))
      (fileLines content).length (fileLines content) := Woven.initial (fileLines content)
  obtain ⟨low, woven⟩ := woven_of_separate initial batch.valid
    (fun edit member => (Site.first_le_last (batch.valid edit member)).2)
    (by simp) falling batch.runs
  rw [List.append_nil] at woven
  have permPatches : ((anchored.filterMap HashlineEdit.placed).reverse.map
      (·.patchOn (fileLines content))).Perm (snapshotPatches content edits) :=
    ((List.reverse_perm _).trans (separate.perm_placed batch)).map _
  have apartPatches : (snapshotPatches content edits).Pairwise Patch.Apart := by
    rw [snapshotPatches, List.pairwise_map, List.pairwise_filterMap]
    refine separate.apart.imp ?_
    intro left right apart one isOne other isOther
    exact apart.1 one other isOne isOther
  have orderedPatches : ∀ patch ∈ snapshotPatches content edits,
      patch.site.first ≤ patch.site.last := by
    intro patch member
    exact (Site.first_le_last (woven.valid patch (permPatches.mem_iff.mpr member))).1
  constructor
  · rw [woven.eq_weave, weave_eq_of_perm permPatches.symm orderedPatches apartPatches]
  · have left := woven.perm_weave
    have sameRemoved : ∀ line, removed ((anchored.filterMap HashlineEdit.placed).reverse.map
        (·.patchOn (fileLines content))) line = targeted edits line := by
      intro line
      have cover := targeted_eq_any_covers batch line
      rw [separate.dedupeEdits_eq] at cover
      rw [cover, removed, List.any_map, List.any_reverse]
      rfl
    rw [outside_congr fun line _ _ => sameRemoved line] at left
    exact left.trans ((permPatches.flatMap_right _).append_left _)

/-- The insertions at the ends of a separate batch. -/
theorem ends_cases (separate : SeparateTargets edits)
    (batch : SortedBatch content edits anchored ends middle final) :
    ends = [] ∨ (∃ pos lines, ends = [.append pos lines]) ∨
      (∃ pos lines, ends = [.prepend pos lines]) ∨
      ∃ pos lines pos' lines', ends = [.append pos lines, .prepend pos' lines'] := by
  have apart := (List.pairwise_append.mp (separate.pairwise batch)).2.1
  have rising : ends.Pairwise fun left right => editPrecedence left < editPrecedence right := by
    refine (apart.and batch.endsOrder).imp_of_mem ?_
    rintro left right isLeft isRight ⟨apart, ordered⟩
    have differ := apart.2 (batch.atEnds left isLeft) (batch.atEnds right isRight)
    omega
  have insertions : ∀ edit ∈ ends, (∃ pos lines, edit = .append pos lines) ∨
      ∃ pos lines, edit = .prepend pos lines := by
    intro edit member
    have isUnanchored := batch.atEnds edit member
    cases edit with
    | replace => cases isUnanchored
    | append pos lines => exact Or.inl ⟨pos, lines, rfl⟩
    | prepend pos lines => exact Or.inr ⟨pos, lines, rfl⟩
  match ends, rising, insertions with
  | [], _, _ => exact Or.inl rfl
  | [edit], _, insertions =>
    rcases insertions edit List.mem_cons_self with ⟨pos, lines, rfl⟩ | ⟨pos, lines, rfl⟩
    · exact Or.inr (Or.inl ⟨pos, lines, rfl⟩)
    · exact Or.inr (Or.inr (Or.inl ⟨pos, lines, rfl⟩))
  | [first, second], rising, insertions =>
    have less := (List.pairwise_cons.mp rising).1 second List.mem_cons_self
    rcases insertions first (by simp) with ⟨pos, lines, rfl⟩ | ⟨pos, lines, rfl⟩ <;>
      rcases insertions second (by simp) with ⟨pos', lines', rfl⟩ | ⟨pos', lines', rfl⟩ <;>
      simp only [editPrecedence] at less <;> try omega
    exact Or.inr (Or.inr (Or.inr ⟨pos, lines, pos', lines', rfl⟩))
  | first :: second :: third :: rest, rising, insertions =>
    obtain ⟨firstLess, rising⟩ := List.pairwise_cons.mp rising
    have one := firstLess second (by simp)
    have two := (List.pairwise_cons.mp rising).1 third (by simp)
    rcases insertions first (by simp) with ⟨pos, lines, rfl⟩ | ⟨pos, lines, rfl⟩ <;>
      rcases insertions third (by simp) with ⟨pos', lines', rfl⟩ | ⟨pos', lines', rfl⟩ <;>
      simp only [editPrecedence] at one two <;> omega

theorem startLines_of_anchored (isAnchored : edit.isUnanchored = false) :
    edit.startLines = [] ∧ edit.endLines = [] := by
  cases edit with
  | replace => exact ⟨rfl, rfl⟩
  | append pos lines | prepend pos lines =>
    simp only [HashlineEdit.isUnanchored] at isAnchored
    simp [HashlineEdit.startLines, HashlineEdit.endLines, isAnchored]

/-- The lines for one end of the file come from the insertions at the ends. -/
theorem flatMap_eq_ends (separate : SeparateTargets edits)
    (batch : SortedBatch content edits anchored ends middle final)
    (emits : ∀ edit, emit edit ≠ [] → edit.isUnanchored = true ∧ editPrecedence edit = precedence) :
    edits.flatMap emit = ends.flatMap emit := by
  have exclusive : (anchored ++ ends).Pairwise fun one other =>
      emit one = [] ∨ emit other = [] := by
    refine (separate.pairwise batch).imp ?_
    intro one other apart
    by_contra both
    rw [not_or] at both
    obtain ⟨oneEnd, onePrecedence⟩ := emits one both.1
    obtain ⟨otherEnd, otherPrecedence⟩ := emits other both.2
    exact apart.2 oneEnd otherEnd (onePrecedence.trans otherPrecedence.symm)
  have none : anchored.flatMap emit = [] := by
    rw [List.flatMap_eq_nil_iff]
    intro edit member
    by_contra emitted
    obtain ⟨placed, isPlaced⟩ := Option.isSome_iff_exists.mp (batch.arePlaced edit member)
    have isAnchored := (placedAs_of_placed isPlaced).anchored
    rw [(emits edit emitted).1] at isAnchored
    cases isAnchored
  rw [← flatMap_eq_of_perm (separate.perm batch) exclusive, List.flatMap_append, none,
    List.nil_append]

theorem startLines_emits (emitted : edit.startLines ≠ []) :
    edit.isUnanchored = true ∧ editPrecedence edit = 2 := by
  cases isUnanchored : edit.isUnanchored with
  | false => exact absurd (startLines_of_anchored isUnanchored).1 emitted
  | true =>
    cases edit with
    | replace | append => exact absurd rfl emitted
    | prepend => exact ⟨rfl, rfl⟩

theorem endLines_emits (emitted : edit.endLines ≠ []) :
    edit.isUnanchored = true ∧ editPrecedence edit = 1 := by
  cases isUnanchored : edit.isUnanchored with
  | false => exact absurd (startLines_of_anchored isUnanchored).2 emitted
  | true =>
    cases edit with
    | replace | prepend => exact absurd rfl emitted
    | append => exact ⟨rfl, rfl⟩

theorem final_eq_snapshot (separate : SeparateTargets edits) (kept : LinesBelowKept edits)
    (meet : EndsMeetLines content edits)
    (batch : SortedBatch content edits anchored ends middle final) :
    final = snapshotLines content edits := by
  obtain ⟨isWoven, perm⟩ := middle_eq_weave separate kept batch
  have starts := flatMap_eq_ends separate batch fun _ => startLines_emits
  have stops := flatMap_eq_ends separate batch fun _ => endLines_emits
  obtain ⟨atEnd, atStart⟩ := meet
  rw [starts] at atStart
  rw [stops] at atEnd atStart
  rw [batch.final_eq, snapshotLines, starts, stops, ← isWoven]
  have endAnchors := batch.atEnds
  have payloads := batch.nonempty
  rcases ends_cases separate batch with rfl | ⟨pos, lines, rfl⟩ | ⟨pos, lines, rfl⟩ |
    ⟨pos, lines, pos', lines', rfl⟩
  · simp
  · simp only [List.mem_singleton, forall_eq, HashlineEdit.isUnanchored] at endAnchors payloads
    simp only [List.flatMap_singleton, HashlineEdit.endLines, HashlineEdit.startLines,
      endAnchors, if_true, ne_eq, payloads, not_false_eq_true, true_implies] at atEnd ⊢
    have notBlank : middle ≠ [[]] := by
      rintro rfl
      exact atEnd (List.singleton_perm.mp perm).symm
    simp [applyUnanchored, notBlank]
  · simp only [List.mem_singleton, forall_eq, HashlineEdit.isUnanchored] at endAnchors payloads
    simp only [List.flatMap_singleton, HashlineEdit.endLines, HashlineEdit.startLines, endAnchors,
      if_true, ne_eq, payloads, not_false_eq_true, true_implies, List.append_nil] at atStart ⊢
    have notBlank : middle ≠ [[]] := by
      rintro rfl
      exact atStart (List.singleton_perm.mp perm).symm
    simp [applyUnanchored, notBlank]
  · simp only [List.mem_cons, forall_eq_or_imp, HashlineEdit.isUnanchored] at endAnchors payloads
    simp only [List.flatMap_cons, List.flatMap_nil, HashlineEdit.endLines,
      HashlineEdit.startLines, endAnchors, if_true, ne_eq, payloads, not_false_eq_true,
      true_implies, List.append_nil, List.nil_append] at atEnd atStart ⊢
    have notBlank : middle ≠ [[]] := by
      rintro rfl
      exact atEnd (List.singleton_perm.mp perm).symm
    have stillNotBlank : middle ++ HashlineEdit.payload (.append pos lines) ≠ [[]] := by
      intro isBlank
      have left := perm.append_right (HashlineEdit.payload (.append pos lines))
      rw [isBlank, List.singleton_perm] at left
      exact atStart left.symm
    simp [applyUnanchored, notBlank, stillNotBlank]

end Batch

theorem SeparateTargets.of_perm (separate : SeparateTargets edits) (perm : listed.Perm edits) :
    SeparateTargets listed where
  readable := fun edit member => separate.readable edit (perm.mem_iff.mp member)
  apart := (perm.pairwise_iff HashlineEdit.Apart.symm).mpr separate.apart

/-- Two edits that may stand in either order share a target. -/
theorem not_apart_of_precedes (leftReadable : left.Readable) (rightReadable : right.Readable)
    (forth : Precedes left right) (back : Precedes right left) : ¬ left.Apart right := by
  intro apart
  rcases leftReadable with leftEnd | ⟨one, isOne, oneOrdered⟩
  · obtain ⟨rightEnd, upTo⟩ := forth.unanchored leftEnd
    have downTo := (back.unanchored rightEnd).2
    exact apart.2 leftEnd rightEnd (Nat.le_antisymm upTo downTo)
  · rcases rightReadable with rightEnd | ⟨other, isOther, otherOrdered⟩
    · have leftEnd := (back.unanchored rightEnd).1
      rw [(placedAs_of_placed isOne).anchored] at leftEnd
      cases leftEnd
    · have away := apart.1 one other isOne isOther
      rcases forth.placed (placedAs_of_placed isOne) (placedAs_of_placed isOther) with
        less | ⟨same, _⟩ <;>
      rcases back.placed (placedAs_of_placed isOther) (placedAs_of_placed isOne) with
        more | ⟨same', _⟩ <;> omega

theorem SeparateTargets.eq_of_precedes (separate : SeparateTargets edits) (isLeft : left ∈ edits)
    (isRight : right ∈ edits) (forth : Precedes left right) (back : Precedes right left) :
    left = right := by
  by_contra differ
  have symmetric : Std.Symm HashlineEdit.Apart := ⟨fun _ _ apart => apart.symm⟩
  exact not_apart_of_precedes (separate.readable left isLeft) (separate.readable right isRight)
    forth back (separate.apart.forall isLeft isRight differ)

theorem mapM_ok_of_forall (compute : α → Except ε β) {values : List α}
    (every : ∀ value ∈ values, ∃ result, compute value = .ok result) :
    ∃ results, values.mapM compute = .ok results := by
  induction values with
  | nil => exact ⟨[], rfl⟩
  | cons value values ih =>
    obtain ⟨⟨result, isResult⟩, every⟩ := List.forall_mem_cons.mp every
    obtain ⟨results, areResults⟩ := ih every
    refine ⟨result :: results, ?_⟩
    rw [List.mapM_cons, isResult, areResults]
    rfl

/-- Edits with separate targets are sorted to one list, in whatever order they
come. -/
theorem sortEdits_eq_of_perm (separate : SeparateTargets edits) (perm : listed.Perm edits)
    (isSorted : sortEdits edits = .ok sorted) : sortEdits listed = .ok sorted := by
  obtain ⟨sortedPerm, sortedPrecedes⟩ := sortEdits_spec isSorted
  have succeeds : ∃ other, sortEdits listed = .ok other := by
    unfold sortEdits at isSorted ⊢
    rw [perm.length_eq]
    split at isSorted
    next short =>
      rw [if_pos short]
      exact ⟨listed, rfl⟩
    next long =>
      rw [if_neg long]
      obtain ⟨keyed, mapped, _⟩ := bind_eq_ok.mp isSorted
      obtain ⟨keyedEdits, keyedLines⟩ := keyed_of_mapM mapped
      have readable : ∀ edit ∈ listed, ∃ entry, (do
          let line ← getEditLineNumber edit
          return (line, edit)) = (.ok entry : Except HashlineError _) := by
        intro edit member
        have isKeyed := perm.mem_iff.mp member
        rw [← keyedEdits] at isKeyed
        obtain ⟨entry, isEntry, rfl⟩ := List.mem_map.mp isKeyed
        refine ⟨(entry.1, entry.2), ?_⟩
        rw [keyedLines entry isEntry]
        rfl
      obtain ⟨results, areResults⟩ := mapM_ok_of_forall _ readable
      exact ⟨_, bind_eq_ok.mpr ⟨results, areResults, rfl⟩⟩
  obtain ⟨other, isOther⟩ := succeeds
  obtain ⟨otherPerm, otherPrecedes⟩ := sortEdits_spec isOther
  rw [isOther]
  refine congrArg Except.ok (List.Perm.eq_of_pairwise ?_ otherPrecedes sortedPrecedes
    ((otherPerm.trans perm).trans sortedPerm.symm))
  intro left right isLeft isRight
  exact separate.eq_of_precedes (perm.mem_iff.mp (otherPerm.mem_iff.mp isLeft))
    (sortedPerm.mem_iff.mp isRight)

theorem applyHashlineEdits_eq_of_perm (separate : SeparateTargets edits) (perm : listed.Perm edits)
    (accepted : applyHashlineEditsWithReport runtime content edits = .ok report) :
    applyHashlineEditsWithReport runtime content listed = .ok report := by
  by_cases someEdits : edits = []
  · subst someEdits
    rwa [perm.eq_nil]
  · have someListed : listed ≠ [] := by
      rintro rfl
      exact someEdits perm.nil_eq.symm
    simp only [applyHashlineEditsWithReport, List.isEmpty_iff, if_neg someEdits, if_neg someListed,
      separate.dedupeEdits_eq, (separate.of_perm perm).dedupeEdits_eq] at accepted ⊢
    obtain ⟨sorted, isSorted, applied⟩ := bind_eq_ok.mp accepted
    exact bind_eq_ok.mpr ⟨sorted, sortEdits_eq_of_perm separate perm isSorted, applied⟩

theorem joinLines_fileLines : joinLines (fileLines content) = content := by
  unfold fileLines
  split
  next empty =>
    rw [List.isEmpty_iff.mp empty]
    rfl
  next => exact List.intercalate_splitOn newline

/-- An accepted batch with separate targets gives what its edits give against
the original lines, and the order of its edits does not matter. -/
theorem applyHashlineEdits_eq_snapshot {runtime : HashRuntime} {content : Text}
    {edits : List HashlineEdit} {report : HashlineApplyReport} (separate : SeparateTargets edits)
    (kept : LinesBelowKept edits) (meet : EndsMeetLines content edits)
    (accepted : applyHashlineEditsWithReport runtime content edits = .ok report) :
    report.content = joinLines (snapshotLines content edits) ∧ ∀ listed, listed.Perm edits →
        applyHashlineEditsWithReport runtime content listed = .ok report := by
  refine ⟨?_, fun listed perm => applyHashlineEdits_eq_of_perm separate perm accepted⟩
  by_cases someEdits : edits = []
  · subst someEdits
    cases accepted
    have unchanged := (Woven.initial (fileLines content)).eq_weave
    simp only [snapshotLines, snapshotPatches, List.flatMap_nil, List.filterMap_nil,
      List.map_nil, ← unchanged, List.nil_append, List.append_nil, joinLines_fileLines]
  · obtain ⟨anchored, ends, middle, final, batch, isContent⟩ :=
      sortedBatch_of_ok someEdits accepted
    rw [isContent, final_eq_snapshot separate kept meet batch]

/-- Two anchored edits, one above the other. -/
theorem separateTargets_pair (isOne : left.placed = some one) (isOther : right.placed = some other)
    (oneOrdered : one.site.first ≤ one.site.last)
    (otherOrdered : other.site.first ≤ other.site.last) (above : one.site.last < other.site.first) :
    SeparateTargets [left, right] where
  readable := by
    simp only [List.mem_cons, List.not_mem_nil, or_false]
    rintro edit (rfl | rfl)
    · exact Or.inr ⟨one, isOne, oneOrdered⟩
    · exact Or.inr ⟨other, isOther, otherOrdered⟩
  apart := by
    rw [List.pairwise_pair]
    refine ⟨?_, fun isUnanchored => ?_⟩
    · intro upper lower isUpper isLower
      rw [isOne] at isUpper
      rw [isOther] at isLower
      cases isUpper
      cases isLower
      exact Or.inl above
    · rw [(placedAs_of_placed isOne).anchored] at isUnanchored
      cases isUnanchored

theorem applyHashlineEdits_eq_snapshot_separate :
    ∃ report, applyHashlineEditsWithReport sampleRuntime sampleContent separateEdits = .ok report ∧
      report.content = joinLines (snapshotLines sampleContent separateEdits) ∧
      ∀ listed, listed.Perm separateEdits →
        applyHashlineEditsWithReport sampleRuntime sampleContent listed = .ok report := by
  have places := separateEdits_placed
  simp only [separateEdits, List.map_cons, List.map_nil, List.cons.injEq, and_true] at places
  refine ⟨_, separateEdits_accepted,
    applyHashlineEdits_eq_snapshot ?_ ?_ ⟨?_, ?_⟩ separateEdits_accepted⟩
  · exact separateTargets_pair places.1 places.2 (by decide) (by decide) (by decide)
  · intro edit member placed isPlaced searches
    simp only [separateEdits, List.mem_cons, List.not_mem_nil, or_false] at member
    rcases member with rfl | rfl
    · rw [places.1] at isPlaced
      cases isPlaced
      exact absurd searches.1 (by decide)
    · rw [places.2] at isPlaced
      cases isPlaced
      exact absurd searches.2.1 (by decide)
  · exact fun someLines => absurd rfl someLines
  · exact fun someLines => absurd rfl someLines

def echoContent : Text := text "a\nb\nc"

/-- A range whose payload ends with the line below it, and a replace of that
line, which is applied first: the range no longer finds the echo. -/
def echoEdits : List HashlineEdit :=
  [.replace (sampleAnchor echoContent 2) (some (sampleAnchor echoContent 2))
      (.list [text "b1", text "c"]),
    .replace (sampleAnchor echoContent 3) none (.plain (text "c1"))]

theorem not_eq_snapshot_echo :
    SeparateTargets echoEdits ∧
      ∃ report, applyHashlineEditsWithReport sampleRuntime echoContent echoEdits = .ok report ∧
        report.content = text "a\nb1\nc\nc1" ∧
        joinLines (snapshotLines echoContent echoEdits) = text "a\nb1\nc1" ∧
        report.content ≠ joinLines (snapshotLines echoContent echoEdits) := by
  have places : echoEdits.map HashlineEdit.placed =
      [some ⟨.instead 2 2, true, [text "b1", text "c"]⟩,
        some ⟨.instead 3 3, false, [text "c1"]⟩] := by
    decide +kernel
  simp only [echoEdits, List.map_cons, List.map_nil, List.cons.injEq, and_true] at places
  refine ⟨separateTargets_pair places.1 places.2 (by decide) (by decide) (by decide),
    { content := text "a\nb1\nc\nc1", noopEdits := 0, deduplicatedEdits := 0 }, ?_⟩
  decide +kernel

end OpenAgent.Hashline
