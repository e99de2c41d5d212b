import OpenAgent.Hashline.Batch

/-!
# Untargeted lines

The lines that no replace targets survive a batch in their order.  The overlap
check looks at range replaces only, and an insertion at an end of the file
takes a single blank line for an empty file, so two conditions are left to the
batch itself.
-/

namespace OpenAgent.Hashline

open Library

/-- Some edit of the batch replaces the line. -/
def targeted (edits : List HashlineEdit) (line : Nat) : Bool :=
  edits.any (·.targets line)

/-- The lines of a file outside all replace targets. -/
def untargetedLines (content : Text) (edits : List HashlineEdit) : List Text :=
  outside (targeted edits) 1 (fileLines content)

/-- A replace of a single line. -/
def HashlineEdit.isLineReplace : HashlineEdit → Bool
  | replace _ endPos _ => (givenAnchor endPos).isNone
  | _ => false

/-- No replace of a single line shares its line with another replace. -/
def LineReplacesApart (edits : List HashlineEdit) : Prop :=
  edits.Pairwise fun left right =>
    left.isLineReplace = true ∨ right.isLineReplace = true →
      ∀ line, ¬ (left.targets line = true ∧ right.targets line = true)

/-- The replace puts nothing in the place of its lines: its payload is empty,
or it repeats the line above and the next untargeted line below. -/
def PlacedEdit.Vanishes (edit : PlacedEdit) (marked : Nat → Bool) (lines : List Text) : Prop :=
  edit.isInsertion = false ∧
    (edit.payload = [] ∨ ∃ line above below, edit.site = .instead line line ∧ edit.ranged = true ∧
        2 ≤ line ∧ lines[line - 2]? = some above ∧
        (outside marked (line + 1) (lines.drop line)).head? = some below ∧
        edit.payload = [above, below])

/-- Nothing is left but one blank line, and something is inserted at an end of
the file. -/
def LeavesBlankLine (content : Text) (edits : List HashlineEdit) : Prop :=
  untargetedLines content edits = [[]] ∧
    (∃ edit ∈ edits, edit.isUnanchored = true) ∧
    ∀ edit ∈ edits, edit.isUnanchored = true ∨ ∃ placed, edit.placed = some placed ∧
        placed.Vanishes (targeted edits) (fileLines content)

theorem restoreFirstIndent_eq_nil_iff :
    restoreFirstIndent originalLine lines = [] ↔ lines = [] := by
  cases lines <;> simp [restoreFirstIndent]

theorem setLineReplacement_eq_nil_iff :
    setLineReplacement originalLine newLines = [] ↔ newLines = [] := by
  rw [setLineReplacement, restoreFirstIndent_eq_nil_iff, autocorrectReplacementLines_eq_nil_iff]

theorem stripEchoAbove_cases :
    stripEchoAbove lines startLine (first :: rest) = first :: rest ∨
      2 ≤ startLine ∧ lines[startLine - 2]? = some first ∧
        stripEchoAbove lines startLine (first :: rest) = rest := by
  unfold stripEchoAbove
  split
  next isAbove =>
    simp only [Bool.and_eq_true, decide_eq_true_eq, beq_iff_eq] at isAbove
    exact Or.inr ⟨isAbove.1, isAbove.2.symm, rfl⟩
  next => exact Or.inl rfl

theorem stripEchoBelow_eq_nil (stripped : stripEchoBelow lines endLine out = []) :
    out = [] ∨ ∃ below, lines[endLine]? = some below ∧ out = [below] := by
  unfold stripEchoBelow at stripped
  split at stripped
  next isBelow =>
    simp only [Bool.and_eq_true, beq_iff_eq] at isBelow
    match out, stripped, isBelow with
    | [below], _, isBelow => exact Or.inr ⟨below, isBelow.2.symm, rfl⟩
  next => exact Or.inl stripped

/-- Echo stripping leaves nothing of a payload of two lines for one line, when
these are its neighbours. -/
theorem stripRangeBoundaryEcho_eq_nil (ordered : startLine ≤ endLine)
    (stripped : stripRangeBoundaryEcho lines startLine endLine newLines = []) :
    newLines = [] ∨ ∃ above below, startLine = endLine ∧ 2 ≤ startLine ∧
      lines[startLine - 2]? = some above ∧ lines[endLine]? = some below ∧
      newLines = [above, below] := by
  unfold stripRangeBoundaryEcho at stripped
  split at stripped
  · exact Or.inl stripped
  next long =>
    right
    simp only [Bool.or_eq_true, decide_eq_true_eq] at long
    match newLines, stripped, long with
    | [], _, long | [_], _, long => simp at long
    | first :: second :: rest, stripped, long =>
      rcases stripEchoAbove_cases with
        same | ⟨inside, isAbove, tail⟩
      · rw [same] at stripped
        rcases stripEchoBelow_eq_nil stripped with isNil | ⟨below, _, single⟩
        · cases isNil
        · simp at single
      · rw [tail] at stripped
        rcases stripEchoBelow_eq_nil stripped with isNil | ⟨below, isBelow, single⟩
        · cases isNil
        · cases single
          simp only [List.length_cons, List.length_nil] at long
          exact ⟨first, second, by omega, inside, isAbove, isBelow, rfl⟩

theorem rangeReplacement_eq_nil (ordered : startLine ≤ endLine)
    (isNil : rangeReplacement lines startLine endLine newLines = []) :
    newLines = [] ∨ ∃ above below, startLine = endLine ∧ 2 ≤ startLine ∧
      lines[startLine - 2]? = some above ∧ lines[endLine]? = some below ∧
      newLines = [above, below] := by
  rw [rangeReplacement, restoreFirstIndent_eq_nil_iff,
    autocorrectReplacementLines_eq_nil_iff] at isNil
  exact stripRangeBoundaryEcho_eq_nil ordered isNil

/-- A later replace ends in front of every earlier edit. -/
def PlacedEdit.ReplacesBelow (earlier later : PlacedEdit) : Prop :=
  later.isInsertion = false → later.site.last ≤ earlier.site.start

theorem PlacedAs.isLineReplace_eq (placedAs : PlacedAs edit placed) :
    edit.isLineReplace = (!placed.isInsertion && !placed.ranged) := by
  cases placedAs with
  | range pos endAnchor lines first last isFirst isLast given =>
    simp [HashlineEdit.isLineReplace, given]
  | line pos endPos lines number isLine none =>
    simp [HashlineEdit.isLineReplace, none, PlacedEdit.isInsertion]
  | behind => rfl
  | before => rfl

theorem targets_iff {edit : HashlineEdit} (isPlaced : edit.placed = some placed) :
    edit.targets line = placed.site.covers line := by
  simp [HashlineEdit.targets, isPlaced]

/-- Replaces that share no line end in front of those that are made before
them. -/
theorem replacesBelow_of_apart {left right : HashlineEdit} (isLeft : left.placed = some earlier)
    (isRight : right.placed = some later) (leftValid : earlier.site.Valid size)
    (rightValid : later.site.Valid size) (precedes : earlier.Precedes later)
    (ranges : earlier.DisjointRanges later)
    (apart : left.isLineReplace = true ∨ right.isLineReplace = true →
      ∀ line, ¬ (left.targets line = true ∧ right.targets line = true)) :
    earlier.ReplacesBelow later := by
  intro isReplace
  rw [(placedAs_of_placed isLeft).isLineReplace_eq,
    (placedAs_of_placed isRight).isLineReplace_eq] at apart
  simp only [targets_iff isLeft, targets_iff isRight] at apart
  obtain ⟨laterSite, laterRanged, laterPayload⟩ := later
  obtain ⟨earlierSite, earlierRanged, earlierPayload⟩ := earlier
  cases laterSite with
  | behind | before => cases isReplace
  | instead first last =>
    simp only [PlacedEdit.Precedes, PlacedEdit.precedence] at precedes
    cases earlierSite with
    | behind number | before number =>
      simp only [Site.last, Site.start] at precedes ⊢
      omega
    | instead earlierFirst earlierLast =>
      simp only [Site.Valid, Site.last, Site.start] at leftValid rightValid precedes ⊢
      by_contra overlapping
      cases earlierRanged with
      | true =>
        cases laterRanged with
        | true =>
          have disjoint := ranges (earlierFirst, earlierLast) rfl (first, last) rfl
          omega
        | false =>
          apply apart (Or.inr rfl) last
          simp only [Site.covers, Bool.and_eq_true, decide_eq_true_eq]
          omega
      | false =>
        apply apart (Or.inl rfl) last
        simp only [Site.covers, Bool.and_eq_true, decide_eq_true_eq]
        omega

theorem PlacedEdit.count_eq_zero (edit : PlacedEdit) (isInsertion : edit.isInsertion = true) :
    edit.site.count = 0 := by
  obtain ⟨site, ranged, payload⟩ := edit
  cases site with
  | instead => cases isInsertion
  | behind | before => rfl

/-- A run of falling replaces, with insertions anywhere, keeps the lines that
no replace covers. -/
theorem survives_of_runs (survives : Survives original marked low surplus lines)
    (valid : ∀ edit ∈ placed, edit.site.Valid original.length)
    (isMarked : ∀ edit ∈ placed, ∀ line, edit.site.covers line = true → marked line = true)
    (below : ∀ edit ∈ placed, edit.isInsertion = false → edit.site.last ≤ low)
    (falling : placed.Pairwise PlacedEdit.ReplacesBelow)
    (runs : PlacedEdit.Runs placed lines final) :
    ∃ low surplus', Survives original marked low surplus' final ∧ surplus ≤ surplus' ∧
      ((∃ edit ∈ placed, edit.isInsertion = true) → surplus < surplus') := by
  induction placed generalizing low surplus lines with
  | nil =>
    cases (show final = lines from runs)
    exact ⟨low, surplus, survives, le_rfl, by simp⟩
  | cons edit placed ih =>
    obtain ⟨accepts, runs⟩ := runs
    obtain ⟨editValid, valid⟩ := List.forall_mem_cons.mp valid
    obtain ⟨editMarked, isMarked⟩ := List.forall_mem_cons.mp isMarked
    obtain ⟨editBelow, below⟩ := List.forall_mem_cons.mp below
    obtain ⟨first, falling⟩ := List.pairwise_cons.mp falling
    have bounds := Site.start_add_count editValid
    cases isInsertion : edit.isInsertion with
    | false =>
      have last := editBelow isInsertion
      have replaced : Survives original marked edit.site.start
          (surplus + (edit.piece lines).length) ((edit.patchOn lines).apply lines) := by
        show Survives original marked _ _
          (splice lines edit.site.start edit.site.count (edit.piece lines))
        apply survives.replace (edit.piece lines) (by omega)
        intro number above within
        exact editMarked number ((Site.covers_iff editValid).mpr ⟨above, within⟩)
      obtain ⟨finalLow, finalSurplus, survives, grows, counted⟩ :=
        ih replaced valid isMarked first falling runs
      refine ⟨finalLow, finalSurplus, survives, by omega, ?_⟩
      rintro ⟨inserted, member, isInserted⟩
      rcases List.mem_cons.mp member with rfl | member
      · rw [isInsertion] at isInserted
        cases isInserted
      · have more := counted ⟨inserted, member, isInserted⟩
        omega
    | true =>
      have inserted : Survives original marked (min low edit.site.start)
          (surplus + (edit.piece lines).length) ((edit.patchOn lines).apply lines) := by
        have inserts := survives.insert edit.site.start (edit.piece lines)
        rwa [← edit.count_eq_zero isInsertion] at inserts
      have something := List.length_pos_iff.mpr (accepts.inserts isInsertion)
      obtain ⟨finalLow, finalSurplus, survives, grows, _⟩ :=
        ih inserted valid isMarked (fun other member isReplace => by
          have one := below other member isReplace
          have two := first other member isReplace
          omega) falling runs
      exact ⟨finalLow, finalSurplus, survives, by omega, fun _ => by omega⟩

/-- The replace that vanishes is found out from what its neighbours are when it
is made. -/
theorem vanishes_of_piece (woven : Woven original patches low lines)
    (noLines : ∀ patch ∈ patches, patch.lines = []) {edit : PlacedEdit}
    (valid : edit.site.Valid original.length) (isReplace : edit.isInsertion = false)
    (below : edit.site.last ≤ low)
    (agree : ∀ line, edit.site.last < line → marked line = removed patches line)
    (isNil : edit.piece lines = []) : edit.Vanishes marked original := by
  refine ⟨isReplace, ?_⟩
  obtain ⟨site, ranged, payload⟩ := edit
  cases site with
  | behind | before => cases isReplace
  | instead first last =>
    obtain ⟨positive, ordered, inside⟩ := valid
    simp only [Site.last] at below agree
    simp only [PlacedEdit.piece] at isNil
    split at isNil
    next isRange =>
      rcases rangeReplacement_eq_nil ordered isNil with
        empty | ⟨above, below', rfl, second, isAbove, isBelow, isPayload⟩
      · exact Or.inl empty
      · refine Or.inr ⟨first, above, below', rfl, isRange, second, ?_, ?_, isPayload⟩
        · rw [← isAbove, woven.getElem?_eq (by omega)]
        · have rest := woven.drop_eq_outside noLines below
          rw [← List.head?_drop, rest] at isBelow
          rw [← isBelow]
          congr 1
          apply outside_congr
          intro line above' _
          exact agree line (by omega)
    next => exact Or.inl (setLineReplacement_eq_nil_iff.mp isNil)

/-- A run of falling replaces is woven; if it puts no lines, every replace of
it vanishes. -/
theorem woven_of_replaces (woven : Woven original patches low lines)
    (valid : ∀ edit ∈ placed, edit.site.Valid original.length)
    (replaces : ∀ edit ∈ placed, edit.isInsertion = false)
    (below : ∀ edit ∈ placed, edit.site.last ≤ low)
    (falling : placed.Pairwise PlacedEdit.ReplacesBelow)
    (cover : ∀ line, marked line = (removed patches line || placed.any (·.site.covers line)))
    (runs : PlacedEdit.Runs placed lines final) :
    ∃ patches' low', Woven original patches' low' final ∧
      (∀ line, marked line = removed patches' line) ∧
      ((∀ patch ∈ patches', patch.lines = []) → (∀ patch ∈ patches, patch.lines = []) ∧
        ∀ edit ∈ placed, edit.Vanishes marked original) := by
  induction placed generalizing patches low lines with
  | nil =>
    cases (show final = lines from runs)
    exact ⟨patches, low, woven, by simpa using cover, fun empty => ⟨empty, by simp⟩⟩
  | cons edit placed ih =>
    obtain ⟨accepts, runs⟩ := runs
    obtain ⟨editValid, valid⟩ := List.forall_mem_cons.mp valid
    obtain ⟨isReplace, replaces⟩ := List.forall_mem_cons.mp replaces
    obtain ⟨editBelow, below⟩ := List.forall_mem_cons.mp below
    obtain ⟨first, falling⟩ := List.pairwise_cons.mp falling
    have next : Woven original (edit.patchOn lines :: patches) edit.site.start
        ((edit.patchOn lines).apply lines) := woven.step editValid editBelow
    have nextCover : ∀ line, marked line = (removed (edit.patchOn lines :: patches) line ||
        placed.any (·.site.covers line)) := by
      intro line
      rw [cover line, removed, removed, List.any_cons, List.any_cons,
        show (edit.patchOn lines).site = edit.site from rfl]
      cases edit.site.covers line <;> simp
    obtain ⟨patches', low', wovenFinal, coverFinal, vanish⟩ := ih next
      valid replaces (fun other member => first other member (replaces other member))
      falling nextCover runs
    refine ⟨patches', low', wovenFinal, coverFinal, fun empty => ?_⟩
    obtain ⟨noLines, othersVanish⟩ := vanish empty
    obtain ⟨editEmpty, noLines⟩ := List.forall_mem_cons.mp noLines
    refine ⟨noLines, List.forall_mem_cons.mpr ⟨?_, othersVanish⟩⟩
    refine vanishes_of_piece woven noLines editValid isReplace editBelow ?_ editEmpty
    intro line above
    rw [cover line]
    have notCovered : (edit :: placed).any (·.site.covers line) = false := by
      rw [List.any_eq_false]
      intro other member covered
      have otherValid : other.site.Valid original.length := by
        rcases List.mem_cons.mp member with rfl | member
        · exact editValid
        · exact valid other member
      have otherBelow : other.site.last ≤ edit.site.last := by
        rcases List.mem_cons.mp member with rfl | member
        · exact le_rfl
        · have under := first other member (replaces other member)
          have bounds := Site.start_add_count editValid
          omega
      have bounds := Site.start_add_count otherValid
      rw [Site.covers_iff otherValid] at covered
      omega
    rw [notCovered, Bool.or_false]

theorem applyUnanchored_cases (notBlank : lines ≠ [[]]) :
    applyUnanchored lines edit = edit.payload ++ lines ∨
      applyUnanchored lines edit = lines ++ edit.payload := by
  cases edit <;> simp [applyUnanchored, notBlank]

/-- Insertions at the ends keep lines, unless a single blank line is left. -/
theorem sublist_of_ends (nonempty : ∀ edit ∈ ends, edit.payload ≠ [])
    (sublist : kept.Sublist middle) (blank : ends ≠ [] → middle = [[]] → kept = []) :
    kept.Sublist (ends.foldl applyUnanchored middle) := by
  induction ends generalizing middle with
  | nil => exact sublist
  | cons edit ends ih =>
    obtain ⟨editNonempty, nonempty⟩ := List.forall_mem_cons.mp nonempty
    by_cases isBlank : middle = [[]]
    · rw [blank (List.cons_ne_nil edit ends) isBlank]
      exact List.nil_sublist _
    · have larger : kept.Sublist (applyUnanchored middle edit) := by
        rcases applyUnanchored_cases isBlank with isNext | isNext <;> rw [isNext]
        · exact sublist.trans (List.sublist_append_right _ _)
        · exact sublist.trans (List.sublist_append_left _ _)
      refine ih nonempty larger ?_
      intro _ single
      have middleNil : middle = [] := by
        have positive := List.length_pos_iff.mpr editNonempty
        rw [← List.length_eq_zero_iff]
        rcases applyUnanchored_cases isBlank with isNext | isNext <;>
          have length := congrArg List.length (isNext.symm.trans single) <;>
          simp only [List.length_append, List.length_singleton] at length <;> omega
      rw [middleNil, List.sublist_nil] at sublist
      exact sublist

section

variable (batch : SortedBatch content edits anchored ends middle final)
include batch

theorem targeted_eq_any_covers (line : Nat) :
    targeted (dedupeEdits edits).1 line =
      (anchored.filterMap HashlineEdit.placed).any (·.site.covers line) := by
  rw [Bool.eq_iff_iff, targeted, List.any_eq_true, List.any_eq_true]
  constructor
  · rintro ⟨edit, member, isTarget⟩
    obtain ⟨placed, isPlaced, covers⟩ := (Option.any_eq_true _ _).mp isTarget
    refine ⟨placed, List.mem_filterMap.mpr ⟨edit, ?_, isPlaced⟩, covers⟩
    refine (List.mem_append.mp (batch.perm.mem_iff.mpr member)).resolve_right ?_
    intro isEnd
    have isUnanchored := batch.atEnds edit isEnd
    rw [(placedAs_of_placed isPlaced).anchored] at isUnanchored
    cases isUnanchored
  · rintro ⟨placed, member, covers⟩
    obtain ⟨edit, isAnchored, isPlaced⟩ := List.mem_filterMap.mp member
    refine ⟨edit, batch.perm.mem_iff.mp (List.mem_append_left ends isAnchored), ?_⟩
    rw [targets_iff isPlaced]
    exact covers

variable (apart : LineReplacesApart (dedupeEdits edits).1)
include apart

/-- The replaces of an accepted batch fall, when none of a single line shares
its line. -/
theorem replacesBelow_of_batch :
    (anchored.filterMap HashlineEdit.placed).Pairwise PlacedEdit.ReplacesBelow := by
  have apartAnchored := (List.pairwise_append.mp ((batch.perm.pairwise_iff (by
    intro left right notShared single line both
    exact notShared single.symm line both.symm)).mpr apart)).1
  have order := List.pairwise_filterMap.mp batch.order
  have ranges := List.pairwise_filterMap.mp batch.ranges
  rw [List.pairwise_filterMap]
  refine ((apartAnchored.and order).and ranges).imp_of_mem ?_
  rintro left right isLeft isRight ⟨⟨notShared, precedes⟩, disjoint⟩ earlier isEarlier later isLater
  exact replacesBelow_of_apart isEarlier isLater
    (batch.valid earlier (List.mem_filterMap.mpr ⟨left, isLeft, isEarlier⟩))
    (batch.valid later (List.mem_filterMap.mpr ⟨right, isRight, isLater⟩))
    (precedes earlier isEarlier later isLater) (disjoint earlier isEarlier later isLater)
    notShared

/-- What is left in the middle of an accepted batch. -/
theorem middle_of_batch (notBlank : ¬ LeavesBlankLine content (dedupeEdits edits).1) :
    (untargetedLines content (dedupeEdits edits).1).Sublist middle ∧
      (ends ≠ [] → middle = [[]] → untargetedLines content (dedupeEdits edits).1 = []) := by
  have falling := replacesBelow_of_batch batch apart
  have within : ∀ edit ∈ anchored.filterMap HashlineEdit.placed,
      edit.site.last ≤ (fileLines content).length := by
    exact fun edit member => (Site.first_le_last (batch.valid edit member)).2
  have cover := targeted_eq_any_covers batch
  obtain ⟨low, surplus, survives, _, counted⟩ := survives_of_runs
    (Survives.initial (fileLines content) (targeted (dedupeEdits edits).1)) batch.valid
    (fun edit member line covers => by
      rw [cover]
      exact List.any_eq_true.mpr ⟨edit, member, covers⟩)
    (fun edit member _ => within edit member) falling batch.runs
  have whole := survives.lower (Nat.zero_le low)
  refine ⟨whole.sublist, fun someEnds isBlank => ?_⟩
  by_cases inserts : ∃ edit ∈ anchored.filterMap HashlineEdit.placed, edit.isInsertion = true
  · have length := whole.length
    have more := counted inserts
    rw [isBlank] at length
    simp only [List.drop_zero, List.length_singleton, Nat.zero_add] at length
    rw [← List.length_eq_zero_iff, untargetedLines]
    omega
  · have replaces : ∀ edit ∈ anchored.filterMap HashlineEdit.placed, edit.isInsertion = false := by
      intro edit member
      rw [← Bool.not_eq_true]
      exact fun isInsertion => inserts ⟨edit, member, isInsertion⟩
    have initially : ∀ line, targeted (dedupeEdits edits).1 line =
        (removed ([] : List (Patch Text)) line ||
          (anchored.filterMap HashlineEdit.placed).any (·.site.covers line)) := cover
    obtain ⟨patches, last, woven, removedEq, vanish⟩ := woven_of_replaces
      (Woven.initial (fileLines content)) batch.valid replaces within falling initially
      batch.runs
    have perm := woven.perm_weave
    rw [isBlank, ← outside_congr fun line _ _ => removedEq line, List.singleton_perm] at perm
    by_contra someLeft
    have leftEq : untargetedLines content (dedupeEdits edits).1 = [[]] ∧
        patches.flatMap (·.lines) = [] := by
      rcases List.append_eq_singleton_iff.mp perm.symm with ⟨none, _⟩ | ⟨single, none⟩
      · exact absurd none someLeft
      · exact ⟨single, none⟩
    obtain ⟨_, allVanish⟩ := vanish (List.flatMap_eq_nil_iff.mp leftEq.2)
    apply notBlank
    obtain ⟨edit, rest, isEnds⟩ := List.exists_cons_of_ne_nil someEnds
    have isEnd : edit ∈ ends := by simp [isEnds]
    refine ⟨leftEq.1, ⟨edit, batch.perm.mem_iff.mp (List.mem_append_right _ isEnd),
      batch.atEnds edit isEnd⟩, ?_⟩
    intro other member
    rcases List.mem_append.mp (batch.perm.mem_iff.mpr member) with isAnchored | isEnd
    · obtain ⟨placed, isPlaced⟩ := Option.isSome_iff_exists.mp (batch.arePlaced other isAnchored)
      exact Or.inr ⟨placed, isPlaced,
        allVanish placed (List.mem_filterMap.mpr ⟨other, isAnchored, isPlaced⟩)⟩
    · exact Or.inl (batch.atEnds other isEnd)

end

theorem dedupeFrom_sublist (seen : List Text) : (dedupeFrom seen edits).1.Sublist edits := by
  induction edits generalizing seen with
  | nil => exact List.Sublist.refl _
  | cons edit edits ih =>
    rw [dedupeFrom]
    split
    · exact (ih seen).cons edit
    · exact (ih _).cons_cons edit

theorem fileLines_sublist : (fileLines content).Sublist (splitLines content) := by
  unfold fileLines
  split
  · exact List.nil_sublist _
  · exact List.Sublist.refl _

/-- The lines outside all replace targets occur in the output of an accepted
batch, in their order. -/
theorem untargetedLines_sublist {runtime : HashRuntime} {content : Text} {edits : List HashlineEdit}
    {report : HashlineApplyReport} (apart : LineReplacesApart (dedupeEdits edits).1)
    (notBlank : ¬ LeavesBlankLine content (dedupeEdits edits).1)
    (accepted : applyHashlineEditsWithReport runtime content edits = .ok report) :
    (untargetedLines content edits).Sublist (splitLines report.content) := by
  have plain : ∀ line ∈ untargetedLines content edits, newline ∉ line := by
    intro line member
    have inContent : line ∈ splitLines content :=
      (fileLines_sublist).subset ((outside_sublist _ _ _).subset member)
    exact not_mem_newline_of_splitLines inContent
  by_cases someEdits : edits = []
  · subst someEdits
    cases accepted
    exact (outside_sublist _ _ _).trans fileLines_sublist
  · obtain ⟨anchored, ends, middle, final, batch, isContent⟩ :=
      sortedBatch_of_ok someEdits accepted
    obtain ⟨sublist, blank⟩ := middle_of_batch batch apart notBlank
    have kept := sublist_of_ends batch.nonempty sublist blank
    rw [← batch.final_eq] at kept
    rw [isContent]
    refine sublist_splitLines_joinLines (List.Sublist.trans ?_ kept) plain
    apply outside_anti
    intro line isTargeted
    obtain ⟨edit, member, isTarget⟩ := List.any_eq_true.mp isTargeted
    exact List.any_eq_true.mpr ⟨edit, (dedupeFrom_sublist []).subset member, isTarget⟩

/-- A runtime without Bun, for texts of lower-case letters and digits. -/
def sampleRuntime : HashRuntime where
  bunXxHash32 := none
  significant := fun value => value.any fun char =>
    isDigit char || (unit 'a' ≤ char && char ≤ unit 'z')

/-- The reference to a line of a content. -/
def sampleAnchor (content : Text) (line : Nat) : Text :=
  decimalText line ++ unit '#' ::
    computeLineHash sampleRuntime line ((fileLines content).getD (line - 1) [])

def sampleContent : Text := text "a\nb\nc\nd\ne"

/-- A single line and a range behind it. -/
def separateEdits : List HashlineEdit :=
  [.replace (sampleAnchor sampleContent 1) none (.plain (text "x")),
    .replace (sampleAnchor sampleContent 3) (some (sampleAnchor sampleContent 4)) (.list [])]

theorem separateEdits_accepted :
    applyHashlineEditsWithReport sampleRuntime sampleContent separateEdits =
      .ok { content := text "x\nb\ne", noopEdits := 0, deduplicatedEdits := 0 } := by
  decide +kernel

theorem separateEdits_placed :
    separateEdits.map HashlineEdit.placed =
      [some ⟨.instead 1 1, false, [text "x"]⟩, some ⟨.instead 3 4, true, []⟩] := by
  decide +kernel

theorem untargetedLines_sublist_separate :
    ∃ report, applyHashlineEditsWithReport sampleRuntime sampleContent separateEdits = .ok report ∧
      untargetedLines sampleContent separateEdits = [text "b", text "e"] ∧
      (untargetedLines sampleContent separateEdits).Sublist (splitLines report.content) := by
  have kept : (dedupeEdits separateEdits).1 = separateEdits := by decide +kernel
  have places := separateEdits_placed
  simp only [separateEdits, List.map_cons, List.map_nil, List.cons.injEq, and_true] at places
  refine ⟨_, separateEdits_accepted, by decide +kernel,
    untargetedLines_sublist ?_ ?_ separateEdits_accepted⟩
  · rw [kept, LineReplacesApart, separateEdits, List.pairwise_pair]
    intro _ line
    rw [targets_iff places.1, targets_iff places.2]
    simp only [Site.covers, Bool.and_eq_true, decide_eq_true_eq]
    omega
  · rw [kept]
    rintro ⟨_, ⟨edit, member, isUnanchored⟩, _⟩
    simp only [separateEdits, List.mem_cons, List.not_mem_nil, or_false] at member
    rcases member with rfl | rfl <;> cases isUnanchored

/-- A range and a single line inside it: the range shrinks to one line, and the
line number of the other replace now belongs to the last line of the file. -/
def overlappingEdits : List HashlineEdit :=
  [.replace (sampleAnchor sampleContent 2) (some (sampleAnchor sampleContent 4)) (.list [text "x"]),
    .replace (sampleAnchor sampleContent 3) none (.list [])]

theorem not_untargetedLines_sublist_overlapping :
    ∃ report, applyHashlineEditsWithReport sampleRuntime sampleContent overlappingEdits =
        .ok report ∧
      untargetedLines sampleContent overlappingEdits = [text "a", text "e"] ∧
      ¬ (untargetedLines sampleContent overlappingEdits).Sublist (splitLines report.content) := by
  refine ⟨{ content := text "a\nx", noopEdits := 0, deduplicatedEdits := 0 }, ?_⟩
  decide +kernel

end OpenAgent.Hashline
