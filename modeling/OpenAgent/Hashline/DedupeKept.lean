import OpenAgent.Hashline.UntargetedLines

/-!
# Deduplicated edits

`dedupeEdits` drops an edit whose key has been seen.  Keys join the lines of an edit and spell
its anchors in one way, so edits with one key may still differ in their lines or in the way in
which an error names their anchors.
-/

namespace OpenAgent.Hashline

open Library

/-- Either edit alone has the same result or the same error, whatever the file is. -/
def SameEffect (runtime : HashRuntime) (first second : HashlineEdit) : Prop :=
  ∀ content, applyHashlineEditsWithReport runtime content [first] =
    applyHashlineEditsWithReport runtime content [second]

/-- Whatever is dropped has the effect of an earlier edit that is kept. -/
def DropsRepeated (runtime : HashRuntime) (edits : List HashlineEdit) : Prop :=
  ∀ front edit back, edits = front ++ edit :: back →
    (dedupeEdits (front ++ [edit])).1 = (dedupeEdits front).1 →
      ∃ earlier ∈ (dedupeEdits front).1, SameEffect runtime earlier edit

/-- Two anchors are spelled in one way, or name one line. -/
def SameAnchor (first second : Text) : Prop :=
  first = second ∨ ∃ ref, parseLineRef first = .ok ref ∧ parseLineRef second = .ok ref

/-- Both have an anchor or none, and differently spelled ones are no part of an error. -/
def SameInsert (safeLines : Nat) (first second : Option Text) (lines : List Text) : Prop :=
  givenAnchor first = givenAnchor second ∨
    safeLines ≤ lines.length ∧ Option.Rel SameAnchor (givenAnchor first) (givenAnchor second)

/-- The edits have the same lines, at the same anchors. -/
def SameEdit : HashlineEdit → HashlineEdit → Prop
  | .replace pos endPos lines, .replace pos' endPos' lines' =>
    toNewLines lines = toNewLines lines' ∧ SameAnchor pos pos' ∧
      Option.Rel SameAnchor (givenAnchor endPos) (givenAnchor endPos')
  | .append pos lines, .append pos' lines' =>
    toNewLines lines = toNewLines lines' ∧ SameInsert 2 pos pos' (toNewLines lines)
  | .prepend pos lines, .prepend pos' lines' =>
    toNewLines lines = toNewLines lines' ∧ SameInsert 1 pos pos' (toNewLines lines)
  | _, _ => False

/-- Edits with one key are the same. -/
def KeysTell (edits : List HashlineEdit) : Prop :=
  ∀ first ∈ edits, ∀ second ∈ edits, buildDedupeKey first = buildDedupeKey second →
    SameEdit first second

theorem SameAnchor.parse (same : SameAnchor first second) :
    parseLineRef first = parseLineRef second := by
  rcases same with rfl | ⟨ref, isFirst, isSecond⟩
  · rfl
  · rw [isFirst, isSecond]

theorem SameAnchor.validate (same : SameAnchor first second) :
    parseLineRefWithHint runtime first lines = parseLineRefWithHint runtime second lines := by
  rcases same with rfl | ⟨ref, isFirst, isSecond⟩
  · rfl
  · rw [parseLineRefWithHint, isFirst, parseLineRefWithHint, isSecond]

theorem SameInsert.rel (same : SameInsert safeLines first second lines) :
    Option.Rel SameAnchor (givenAnchor first) (givenAnchor second) := by
  rcases same with spelled | ⟨-, same⟩
  · rw [spelled]
    cases givenAnchor second with
    | none => exact .none
    | some anchor => exact .some (.inl rfl)
  · exact same

theorem applyHashlineEditsWithReport_single :
    applyHashlineEditsWithReport runtime content [edit] = do
      validateLineRefs runtime (fileLines content) (collectLineRefs [edit])
      match ← detectOverlappingRanges [edit] with
      | some overlapError => throw (.error overlapError)
      | none =>
        let (finalLines, noopEdits) ← applyEdits (fileLines content) 0 [edit]
        return { content := joinLines finalLines, noopEdits, deduplicatedEdits := 0 } :=
  rfl

theorem collectMismatches_congr (same : List.Forall₂ SameAnchor refs refs') :
    collectMismatches runtime lines refs = collectMismatches runtime lines refs' := by
  induction same with
  | nil => rfl
  | cons same _ ih => rw [collectMismatches, same.validate, ih, collectMismatches]

/-- Edits with the same references, ranges and results. -/
theorem sameEffect_of_applied
    (refs : List.Forall₂ SameAnchor (collectLineRefs [first]) (collectLineRefs [second]))
    (ranges : detectOverlappingRanges [first] = detectOverlappingRanges [second])
    (applied : ∀ lines, applyEdit lines first = applyEdit lines second) :
    SameEffect runtime first second := by
  intro content
  simp only [applyHashlineEditsWithReport_single, validateLineRefs, collectMismatches_congr refs,
    ranges, applyEdits, applied]

theorem forall₂_toList (same : Option.Rel SameAnchor anchor anchor') :
    List.Forall₂ SameAnchor anchor.toList anchor'.toList := by
  cases same with
  | none => exact .nil
  | some same => exact .cons same .nil

theorem applyInsertAfter_congr (same : SameAnchor anchor anchor')
    (sameLines : toNewLines payload = toNewLines payload')
    (several : 2 ≤ (toNewLines payload').length) :
    applyInsertAfter lines anchor payload = applyInsertAfter lines anchor' payload' := by
  rw [applyInsertAfter, same.parse, sameLines]
  refine congrArg (parseLineRef anchor' >>= ·) (funext fun ref => ?_)
  generalize toNewLines payload' = newLines at several ⊢
  rcases newLines with _ | ⟨first, _ | ⟨second, rest⟩⟩
  · cases several
  · simp at several
  · cases lines[ref.line - 1]? with
    | none => rfl
    | some line =>
      simp only [stripInsertAnchorEcho]
      split <;> rfl

theorem applyInsertBefore_congr (same : SameAnchor anchor anchor')
    (sameLines : toNewLines payload = toNewLines payload')
    (several : 1 ≤ (toNewLines payload').length) :
    applyInsertBefore lines anchor payload = applyInsertBefore lines anchor' payload' := by
  rw [applyInsertBefore, same.parse, sameLines]
  refine congrArg (parseLineRef anchor' >>= ·) (funext fun ref => ?_)
  generalize toNewLines payload' = newLines at several ⊢
  rcases newLines with _ | ⟨first, _ | ⟨second, rest⟩⟩
  · cases several
  · rfl
  · unfold stripInsertBeforeEcho
    cases lines[ref.line - 1]? with
    | none => split <;> rfl
    | some line =>
      split
      · dsimp only
        split <;> rfl
      · rfl

theorem sameEffect_of_sameEdit (same : SameEdit first second) :
    SameEffect runtime first second := by
  match first, second, same with
  | .replace pos endPos lines, .replace pos' endPos' lines', ⟨sameLines, same, sameEnd⟩ =>
    refine sameEffect_of_applied
      (by simpa [collectLineRefs] using ⟨same, forall₂_toList sameEnd⟩) ?_ fun lines => ?_
    · simp only [detectOverlappingRanges, List.zipIdx_cons, List.zipIdx_nil, editRanges]
      generalize givenAnchor endPos = stop at sameEnd
      generalize givenAnchor endPos' = stop' at sameEnd
      cases sameEnd with
      | none => rfl
      | some sameStop => simp only [same.parse, sameStop.parse]
    · simp only [applyEdit, applySetLine, applyReplaceLines, same.parse, sameLines]
      generalize givenAnchor endPos = stop at sameEnd
      generalize givenAnchor endPos' = stop' at sameEnd
      cases sameEnd with
      | none => rfl
      | some sameStop => simp only [sameStop.parse]
  | .append pos payload, .append pos' payload', ⟨sameLines, same⟩ =>
    refine sameEffect_of_applied (by simpa [collectLineRefs] using forall₂_toList same.rel) rfl
      fun lines => ?_
    rcases same with spelled | ⟨several, same⟩
    · simp only [applyEdit, spelled, applyInsertAfter, applyAppend, sameLines]
    · simp only [applyEdit]
      generalize givenAnchor pos = anchor at same
      generalize givenAnchor pos' = anchor' at same
      cases same with
      | none => simp only [applyAppend, sameLines]
      | some same => exact applyInsertAfter_congr same sameLines (sameLines ▸ several)
  | .prepend pos payload, .prepend pos' payload', ⟨sameLines, same⟩ =>
    refine sameEffect_of_applied (by simpa [collectLineRefs] using forall₂_toList same.rel) rfl
      fun lines => ?_
    rcases same with spelled | ⟨several, same⟩
    · simp only [applyEdit, spelled, applyInsertBefore, applyPrepend, sameLines]
    · simp only [applyEdit]
      generalize givenAnchor pos = anchor at same
      generalize givenAnchor pos' = anchor' at same
      cases same with
      | none => simp only [applyPrepend, sameLines]
      | some same => exact applyInsertBefore_congr same sameLines (sameLines ▸ several)

/-- Every edit leaves its key, and a further edit is dropped only for a key. -/
theorem dedupeFrom_keys (edits : List HashlineEdit) (seen : List Text) (edit : HashlineEdit)
    (dropped : (dedupeFrom seen (edits ++ [edit])).1 = (dedupeFrom seen edits).1) :
    buildDedupeKey edit ∈ seen ∨
      ∃ kept ∈ (dedupeFrom seen edits).1, buildDedupeKey kept = buildDedupeKey edit := by
  fun_induction dedupeFrom seen edits with
  | case1 seen =>
    left
    by_contra unseen
    simp [dedupeFrom, unseen] at dropped
  | case2 seen first edits key isSeen deduped count result ih =>
    rw [List.cons_append, dedupeFrom, if_pos isSeen] at dropped
    rw [result] at ih
    exact ih dropped
  | case3 seen first edits key unseen deduped count result ih =>
    rw [List.cons_append, dedupeFrom, if_neg unseen] at dropped
    rw [result] at ih
    rcases ih (List.cons.inj dropped).2 with isSeen | ⟨kept, member, sameKey⟩
    · rcases mem_setInsert.mp isSeen with isSeen | isKey
      · exact .inl isSeen
      · exact .inr ⟨first, List.mem_cons_self, isKey.symm⟩
    · exact .inr ⟨kept, List.mem_cons_of_mem _ member, sameKey⟩

/-- Where keys tell edits apart, what is dropped has the effect of an edit that is kept. -/
theorem dropsRepeated_of_keysTell (tell : KeysTell edits) : DropsRepeated runtime edits := by
  rintro front edit back rfl dropped
  rcases dedupeFrom_keys front [] edit dropped with impossible | ⟨kept, member, sameKey⟩
  · cases impossible
  · refine ⟨kept, member, sameEffect_of_sameEdit (tell kept ?_ edit (by simp) sameKey)⟩
    exact List.mem_append_left _ ((dedupeFrom_sublist []).subset member)

/-- One line is appended twice, as a text and as a list. -/
theorem dropsRepeated_of_keysTell_twice :
    DropsRepeated ⟨none, fun _ => false⟩
      [.append none (.plain (text "a")), .append none (.list [text "a"])] := by
  refine dropsRepeated_of_keysTell fun first isFirst second isSecond _ => ?_
  simp only [List.mem_cons, List.not_mem_nil, or_false] at isFirst isSecond
  rcases isFirst with rfl | rfl <;> rcases isSecond with rfl | rfl <;>
    exact ⟨by decide, .inl rfl⟩

/-- Edits that insert an empty line and no line have one key. -/
theorem not_dropsRepeated_emptyLine : ¬ ∀ runtime edits, DropsRepeated runtime edits := by
  intro sound
  obtain ⟨earlier, member, same⟩ := sound ⟨none, fun _ => false⟩
    [.append none (.list [[]]), .append none (.list [])] [.append none (.list [[]])]
    (.append none (.list [])) [] rfl (by decide)
  obtain rfl : earlier = .append none (.list [[]]) := by simpa [dedupeEdits, dedupeFrom] using member
  exact absurd (same []) (by decide)

end OpenAgent.Hashline
