import OpenAgent.Hashline.Autocorrect

/-!
# What autocorrection loses

One replacement line for several original ones is cut where the original lines
are found in it, or behind its semicolons.  What stands in front of the first
cut is lost, and so is the second of two semicolons.  Wrapped lines are joined
at positions counted before the first join, so that runs which overlap lose the
lines behind them.
-/

namespace OpenAgent.Hashline

open Library

/-- The characters of the lines other than white space. -/
def visible (lines : List Text) : Text :=
  removeWhitespace lines.flatten

/-- Where the merged line is cut, if all parts are found and no piece is empty. -/
def cutPositions (originalLines : List Text) (merged : Text) : Option (List Nat) :=
  (locateParts merged 0 (originalLines.map trim)).filter fun positions =>
    (cutAt merged positions).all (!·.isEmpty) &&
      (cutAt merged positions).length == originalLines.length

/-- There are two semicolons in front of white space; the flag says whether one
stands in front of the text. -/
def doublesSemicolon : Bool → Text → Bool
  | _, [] => false
  | behind, char :: rest =>
    (behind && char == unit ';' && (rest.head?.map isWhitespace).getD false) ||
      doublesSemicolon (char == unit ';') rest

/-- Nothing visible stands in front of the first cut, or no statement ends in
two semicolons. -/
def LosesNothing (originalLines : List Text) (merged : Text) : Prop :=
  match cutPositions originalLines merged with
  | some positions => ∀ start ∈ positions.head?, (merged.take start).all isWhitespace = true
  | none => (semicolonSplit merged).length = originalLines.length →
      doublesSemicolon false merged = false

theorem removeWhitespace_trim : removeWhitespace (trim value) = removeWhitespace value := by
  have front : ∀ value : Text,
      (value.dropWhile isWhitespace).filter (fun char => !isWhitespace char) =
        value.filter fun char => !isWhitespace char := by
    intro value
    induction value with
    | nil => rfl
    | cons char value ih => cases isWhite : isWhitespace char <;> simp [isWhite, ih]
  rw [trim, trimEnd, trimStart, removeWhitespace, List.filter_reverse, front, ← List.filter_reverse,
    List.reverse_reverse, front, removeWhitespace]

theorem visible_cons : visible (line :: lines) = removeWhitespace line ++ visible lines := by
  simp [visible, removeWhitespace]

theorem visible_filter_trim (lines : List Text) :
    visible ((lines.map trim).filter (!·.isEmpty)) = visible lines := by
  induction lines with
  | nil => rfl
  | cons line lines ih =>
    rw [visible_cons, ← ih, ← removeWhitespace_trim, List.map_cons, List.filter_cons]
    split
    next => rw [visible_cons]
    next isEmpty =>
      have nothing : trim line = [] := by simpa using isEmpty
      rw [nothing]
      rfl

/-- Pieces that are not empty lie one behind the other. -/
theorem visible_cutAt (nonempty : ∀ piece ∈ cutAt merged (start :: positions), piece ≠ []) :
    visible (cutAt merged (start :: positions)) = removeWhitespace (merged.drop start) := by
  induction positions generalizing start with
  | nil => rw [cutAt, visible_cons, removeWhitespace_trim]; simp [visible, removeWhitespace]
  | cons stop positions ih =>
    obtain ⟨someText, nonempty⟩ := List.forall_mem_cons.mp nonempty
    have ahead : start ≤ (merged.take stop).length := by
      by_contra behind
      apply someText
      rw [slice, List.drop_eq_nil_of_le (by omega)]
      rfl
    have split : merged.drop start = slice merged start stop ++ merged.drop stop := by
      rw [slice, ← List.drop_append_of_le_length ahead, List.take_append_drop]
    rw [cutAt, visible_cons, ih nonempty, removeWhitespace_trim, split]
    simp [removeWhitespace]

/-- The statements with the semicolons that they are given back. -/
def closedPieces (pieces : List Text) : List Text :=
  pieces.dropLast.map (fun piece =>
    if piece.getLast? == some (unit ';') then piece else piece ++ [unit ';']) ++
      pieces.getLast?.toList

theorem splitSemicolons_ne_nil : splitSemicolons skipping pending rest ≠ [] := by
  fun_induction splitSemicolons skipping pending rest <;> simp_all

theorem closedPieces_cons (someRest : pieces ≠ []) :
    closedPieces (piece :: pieces) =
      (if piece.getLast? == some (unit ';') then piece else piece ++ [unit ';']) ::
        closedPieces pieces := by
  obtain ⟨next, pieces, rfl⟩ := List.exists_cons_of_ne_nil someRest
  simp [closedPieces]

theorem removeWhitespace_append :
    removeWhitespace (left ++ right) = removeWhitespace left ++ removeWhitespace right :=
  List.filter_append left right

/-- A semicolon and the white space behind it fall away, and a semicolon comes
back if the piece has none. -/
theorem visible_closedPieces (skips : skipping = true → pending = []) :
    (visible (closedPieces (splitSemicolons skipping pending rest))).length ≤
        (removeWhitespace (pending.reverse ++ rest)).length ∧
      (visible (closedPieces (splitSemicolons skipping pending rest)) =
          removeWhitespace (pending.reverse ++ rest) ↔
        doublesSemicolon (pending.head? == some (unit ';')) rest = false) := by
  fun_induction splitSemicolons skipping pending rest with
  | case1 skipping pending => simp [closedPieces, visible, removeWhitespace, doublesSemicolon]
  | case2 skipping pending char rest isWhite ih =>
    rw [Bool.and_eq_true] at isWhite
    have other : (char == unit ';') = false := by
      rw [beq_eq_false_iff_ne]
      rintro rfl
      exact absurd isWhite.2 (by decide)
    simpa [skips isWhite.1, removeWhitespace, isWhite.2, doublesSemicolon, other] using
      ih fun _ => skips isWhite.1
  | case3 skipping pending char rest notSkipped isEnd ih =>
    rw [Bool.and_eq_true, beq_iff_eq] at isEnd
    obtain ⟨rfl, behindIsWhite⟩ := isEnd
    have shorter := (ih fun _ => rfl).1
    have sameRest : doublesSemicolon true rest = doublesSemicolon false rest := by
      cases rest with
      | nil => rfl
      | cons white rest =>
        have other : (white == unit ';') = false := by
          rw [beq_eq_false_iff_ne]
          rintro rfl
          exact absurd (show isWhitespace (unit ';') = true from behindIsWhite) (by decide)
        simp [doublesSemicolon, other]
    have semicolon : removeWhitespace [unit ';'] = [unit ';'] := by decide
    have split : removeWhitespace (pending.reverse ++ unit ';' :: rest) =
        removeWhitespace pending.reverse ++ unit ';' :: removeWhitespace rest := by
      rw [← List.singleton_append, removeWhitespace_append, removeWhitespace_append]
      rfl
    rw [closedPieces_cons splitSemicolons_ne_nil, visible_cons, split,
      List.getLast?_reverse, doublesSemicolon, behindIsWhite, beq_self_eq_true, sameRest]
    cases behind : pending.head? == some (unit ';') with
    | true =>
      rw [if_pos rfl]
      simp only [List.reverse_nil, List.nil_append, List.length_append, List.length_cons] at shorter ⊢
      refine ⟨by omega, ?_⟩
      simp only [List.append_cancel_left_eq]
      constructor
      · intro same
        rw [same, List.length_cons] at shorter
        omega
      · simp
    | false =>
      rw [if_neg (by simp), removeWhitespace_append, semicolon]
      simpa using ih fun _ => rfl
  | case4 skipping pending char rest notSkipped notEnd ih =>
    have notDoubled : ((pending.head? == some (unit ';')) && char == unit ';' &&
        (rest.head?.map isWhitespace).getD false) = false := by
      rw [Bool.and_assoc, Bool.eq_false_of_not_eq_true notEnd, Bool.and_false]
    rw [doublesSemicolon, notDoubled]
    simpa using ih (by simp)

theorem visible_semicolonSplit_iff :
    visible (semicolonSplit merged) = removeWhitespace merged ↔
      doublesSemicolon false merged = false := by
  have whole := (@visible_closedPieces false [] merged fun isSkipping => nomatch isSkipping).2
  rwa [semicolonSplit, visible_filter_trim]

theorem visible_expandMerged_iff (several : 1 < originalLines.length)
    (visibleParts : ∀ line ∈ originalLines, trim line ≠ []) :
    visible (expandMerged originalLines merged) = removeWhitespace merged ↔
      LosesNothing originalLines merged := by
  have single : visible [merged] = removeWhitespace merged := by simp [visible]
  have cut : ((locateParts merged 0 (originalLines.map trim)).map (cutAt merged)).filter
      (fun pieces => pieces.all (!·.isEmpty) && pieces.length == originalLines.length) =
        (cutPositions originalLines merged).map (cutAt merged) := by
    rw [Option.filter_map]
    rfl
  have noBlank : (originalLines.map trim).any (·.isEmpty) = false := by
    simpa using visibleParts
  rw [expandMerged, noBlank, if_neg Bool.false_ne_true, cut, LosesNothing]
  cases isCut : cutPositions originalLines merged with
  | some positions =>
    obtain ⟨-, meets⟩ := Option.filter_eq_some_iff.mp isCut
    rw [Bool.and_eq_true, beq_iff_eq] at meets
    cases positions with
    | nil =>
      have := meets.2
      simp only [cutAt, List.length_nil] at this
      omega
    | cons start positions =>
      have nonempty : ∀ piece ∈ cutAt merged (start :: positions), piece ≠ [] := by
        simpa using meets.1
      have split : removeWhitespace merged = removeWhitespace (merged.take start) ++
          removeWhitespace (merged.drop start) := by
        rw [← removeWhitespace_append, List.take_append_drop]
      simp only [Option.map_some, visible_cutAt nonempty]
      rw [split]
      simp [removeWhitespace, List.filter_eq_nil_iff]
  | none =>
    simp only [Option.map_none]
    split
    next sameLength =>
      rw [visible_semicolonSplit_iff]
      simp [beq_iff_eq.mp sameLength]
    next otherLength => simp [single, beq_iff_eq.not.mp otherLength]

/-- The text of a replacement survives just when the one line that several
visible lines became has nothing but white space in front of its first cut, and
no doubled semicolon where it is split behind semicolons. -/
theorem visible_maybeExpandSingleLineMerge_iff (originalLines replacementLines : List Text) :
    visible (maybeExpandSingleLineMerge originalLines replacementLines) =
        visible replacementLines ↔
      ∀ merged, replacementLines = [merged] → 1 < originalLines.length →
        (∀ line ∈ originalLines, trim line ≠ []) → LosesNothing originalLines merged := by
  match replacementLines with
  | [] | _ :: _ :: _ => simp [maybeExpandSingleLineMerge]
  | [merged] =>
    have single : visible [merged] = removeWhitespace merged := by simp [visible]
    simp only [maybeExpandSingleLineMerge, List.cons.injEq, and_true, forall_eq']
    split
    next few => simp [Nat.not_lt.mpr few]
    next several =>
      have several := Nat.lt_of_not_le several
      by_cases visibleParts : ∀ line ∈ originalLines, trim line ≠ []
      · rw [single, visible_expandMerged_iff several visibleParts]
        exact ⟨fun keeps _ _ => keeps, fun keeps => keeps several visibleParts⟩
      · have someBlank : (originalLines.map trim).any (·.isEmpty) = true := by
          simpa using visibleParts
        rw [expandMerged, someBlank]
        simp [visibleParts]

/-- What stands in front of the first line that is found is lost. -/
theorem not_visible_expanded :
    ¬ ∀ originalLines replacementLines,
      visible (maybeExpandSingleLineMerge originalLines replacementLines) =
        visible replacementLines := by
  intro kept
  exact absurd (kept [text "foo", text "bar"] [text "x foo bar"]) (by decide)

/-- The runs that are joined. -/
def uniqueCandidates (originalLines replacementLines : List Text) : List WrapCandidate :=
  let candidates := wrapCandidates originalLines replacementLines
  candidates.filter fun candidate =>
    candidates.countP (·.canonical == candidate.canonical) == 1

/-- The two runs have no line in common. -/
def WrapCandidate.Apart (left right : WrapCandidate) : Prop :=
  left.start + left.len ≤ right.start ∨ right.start + right.len ≤ left.start
  deriving Decidable

/-- The run lies within the lines and has the text of its replacement. -/
structure WrapCandidate.Spells (candidate : WrapCandidate) (lines : List Text) : Prop where
  several : 2 ≤ candidate.len
  inside : candidate.start + candidate.len ≤ lines.length
  text : visible (slice lines candidate.start (candidate.start + candidate.len)) =
    visible [candidate.replacement]

theorem spells_of_mem_wrapCandidates (member : candidate ∈ wrapCandidates originalLines lines) :
    candidate.Spells lines := by
  obtain ⟨start, -, member⟩ := List.mem_flatMap.mp member
  obtain ⟨len, inRange, found⟩ := List.mem_filterMap.mp member
  have several := (List.mem_range'_1.mp inRange).1
  simp only [wrapCandidate] at found
  split_ifs at found with outside
  · split at found
    next line isUnique =>
      cases found
      refine ⟨several, Nat.le_of_not_lt outside, ?_⟩
      unfold uniqueOriginal at isUnique
      split at isUnique
      next only isOnly =>
        cases isUnique
        have isLine : line ∈ originalLines.filter fun line =>
            removeWhitespace line ==
              removeWhitespace (slice lines start (start + len)).flatten := by
          rw [isOnly]
          exact List.mem_singleton_self line
        simpa [visible] using (beq_iff_eq.mp (List.mem_filter.mp isLine).2).symm
      next => cases isUnique
    next => cases found
  · split at found <;> cases found

theorem visible_append : visible (left ++ right) = visible left ++ visible right := by
  simp [visible, removeWhitespace]

section

variable {candidate : WrapCandidate} {lines : List Text}

theorem visible_splice (spells : candidate.Spells lines) :
    visible (splice lines candidate.start candidate.len [candidate.replacement]) =
      visible lines := by
  have split : lines = lines.take candidate.start ++
      slice lines candidate.start (candidate.start + candidate.len) ++
        lines.drop (candidate.start + candidate.len) := by
    rw [slice, List.drop_take, Nat.add_sub_cancel_left, List.append_assoc, ← List.drop_drop,
      List.take_append_drop, List.take_append_drop]
  conv_rhs => rw [split]
  rw [splice, visible_append, visible_append, visible_append, visible_append, spells.text]

/-- Runs in front of the one that is joined stay as they are. -/
theorem WrapCandidate.Spells.splice {start : Nat} (spells : candidate.Spells lines)
    (inside : start ≤ lines.length) (below : candidate.start + candidate.len ≤ start) (count : Nat)
    (inserted : List Text) : candidate.Spells (splice lines start count inserted) where
  several := spells.several
  inside := by
    simp only [Library.splice, List.length_append, List.length_take]
    omega
  text := by
    have front : (Library.splice lines start count inserted).take
        (candidate.start + candidate.len) = lines.take (candidate.start + candidate.len) := by
      rw [Library.splice, List.append_assoc, List.take_append_of_le_length (by simp; omega),
        List.take_take, Nat.min_eq_left below]
    rw [slice, front]
    exact spells.text

end

theorem visible_foldl_splice {candidates : List WrapCandidate}
    (spell : ∀ candidate ∈ candidates, candidate.Spells lines)
    (falling : candidates.Pairwise fun left right => right.start + right.len ≤ left.start) :
    visible (candidates.foldl (fun lines candidate =>
      splice lines candidate.start candidate.len [candidate.replacement]) lines) =
        visible lines := by
  induction candidates generalizing lines with
  | nil => rfl
  | cons candidate candidates ih =>
    obtain ⟨spells, spell⟩ := List.forall_mem_cons.mp spell
    obtain ⟨below, falling⟩ := List.pairwise_cons.mp falling
    have inside := spells.inside
    rw [List.foldl_cons, ih (fun other member => (spell other member).splice (by omega)
      (below other member) _ _) falling, visible_splice spells]

/-- Joined runs that have no line in common keep the text. -/
theorem visible_restoreOldWrappedLines
    (apart : (uniqueCandidates originalLines replacementLines).Pairwise WrapCandidate.Apart) :
    visible (restoreOldWrappedLines originalLines replacementLines) =
      visible replacementLines := by
  rw [restoreOldWrappedLines]
  split
  next => rfl
  next =>
    refine visible_foldl_splice (fun candidate member => ?_) ?_
    · rw [mem_stableSort] at member
      exact spells_of_mem_wrapCandidates (List.mem_filter.mp member).1
    · -- sorted by their starts, runs that are apart lie in front of one another
      let le : WrapCandidate → WrapCandidate → Bool := fun left right => right.start ≤ left.start
      have order := @pairwise_stableSort _ le (by simp [le, Nat.le_total])
        (by simpa [le] using fun _ _ _ first second => Nat.le_trans second first)
        (uniqueCandidates originalLines replacementLines)
      have apart := ((perm_stableSort le _).pairwise_iff Or.symm).mpr apart
      refine List.Pairwise.imp_of_mem ?_ (order.and apart)
      rintro left right isLeft - ⟨below, apart⟩
      rw [mem_stableSort] at isLeft
      have several := (spells_of_mem_wrapCandidates (List.mem_filter.mp isLeft).1).several
      have := of_decide_eq_true below
      rcases apart with inFront | behind
      · omega
      · exact behind

theorem visible_restoreOldWrappedLines_one :
    visible (restoreOldWrappedLines [text "alpha = beta;"] [text "alpha =", text "beta;"]) =
      visible [text "alpha =", text "beta;"] :=
  visible_restoreOldWrappedLines (by decide +kernel)

/-- Of two runs that overlap, the second is joined with a line too many. -/
theorem not_visible_restored :
    ¬ ∀ originalLines replacementLines,
      visible (restoreOldWrappedLines originalLines replacementLines) =
        visible replacementLines := by
  intro kept
  exact absurd (kept [text "aaabbb", text "bbbccc"] [text "aaa", text "bbb", text "ccc"])
    (by decide +kernel)

end OpenAgent.Hashline
