import OpenAgent.Memory.CursorSpecs

/-!
# Nothing behind the cursor is left out

The cursor is stored as a message id and resolved to the last row that bears it.
Rows that arrive later under the id of an earlier message therefore drag the
cursor over everything in between.  As long as a message is appended as a whole
and its rows stay together, every canonical row up to the cursor has been in a
window that was finalized with success.
-/

namespace OpenAgent.Memory

open Library

/-- Between a canonical row and a later row of its message there are no canonical
rows but those that follow it directly in its message and were appended with it. -/
def KeepsTogether (old fresh : List TranscriptEntry) : Prop :=
  ∀ (first middle last : Nat) (firstRow middleRow lastRow : TranscriptEntry),
    first < middle → middle ≤ last →
    (old ++ fresh)[first]? = some firstRow → isCanonicalEntry firstRow = true →
    (old ++ fresh)[middle]? = some middleRow → isCanonicalEntry middleRow = true →
    (old ++ fresh)[last]? = some lastRow →
    lastRow.sourceMessageId = firstRow.sourceMessageId →
    (middle < old.length ∨ old.length ≤ first) ∧
      ∀ (place : Nat) (row : TranscriptEntry), first ≤ place → place ≤ middle →
        (old ++ fresh)[place]? = some row → row.sourceMessageId = firstRow.sourceMessageId

/-- Messages are appended as a whole. -/
def AppendsWhole (run : ReflectionRun) (label : ReflectionLabel) (_ : ReflectionRun) : Prop :=
  ∀ batch, label = .append batch → KeepsTogether run.entries (run.journal.appended batch)

/-- A row lies at or before a row of a message. -/
def UpTo (entries : List TranscriptEntry) (messageId : Text) (index : Nat) : Prop :=
  ∃ (last : Nat) (row : TranscriptEntry), index ≤ last ∧ entries[last]? = some row ∧
    row.sourceMessageId = messageId

/-- The canonical rows up to the last row of a message lie in windows. -/
structure ReflectedThrough (windows : List ReflectionSnapshot) (entries : List TranscriptEntry)
    (messageId : Text) : Prop where
  named : ∃ (index : Nat) (row : TranscriptEntry), entries[index]? = some row ∧
    isCanonicalEntry row = true ∧ row.sourceMessageId = messageId
  covered : ∀ (index : Nat) (row : TranscriptEntry), entries[index]? = some row →
    isCanonicalEntry row = true → UpTo entries messageId index →
    ∃ window ∈ windows, window.startLine ≤ index ∧ index < window.endSnapshotLine

/-- The rows of a window are those of the transcript. -/
structure WindowOf (entries : List TranscriptEntry) (snapshot : ReflectionSnapshot) : Prop where
  inside : snapshot.endSnapshotLine ≤ entries.length
  rows : snapshot.entries = slice entries snapshot.startLine snapshot.endSnapshotLine

/-- The invariant of a run. -/
structure Complete (run : ReflectionRun) : Prop where
  together : ∃ old fresh, run.entries = old ++ fresh ∧ KeepsTogether old fresh
  cursor : ∀ messageId, run.cursor = some messageId →
    ReflectedThrough run.finalized run.entries messageId
  captured : ∀ snapshot ∈ run.captured,
    ReflectedThrough (snapshot :: run.finalized) run.entries snapshot.endMessageId
  windows : ∀ snapshot ∈ run.captured, WindowOf run.entries snapshot
  known : ∀ window ∈ run.finalized, window ∈ run.captured

section Assertions

theorem ReflectedThrough.mono (reflected : ReflectedThrough windows entries messageId)
    (subset : ∀ window ∈ windows, window ∈ more) : ReflectedThrough more entries messageId := by
  refine ⟨reflected.named, ?_⟩
  intro index row isRow canonical upTo
  obtain ⟨window, member, contains⟩ := reflected.covered index row isRow canonical upTo
  exact ⟨window, subset window member, contains⟩

theorem ReflectedThrough.append (reflected : ReflectedThrough windows old messageId)
    (together : KeepsTogether old fresh) : ReflectedThrough windows (old ++ fresh) messageId := by
  obtain ⟨first, firstRow, isFirst, firstCanonical, rfl⟩ := reflected.named
  have firstInside := (List.getElem?_eq_some_iff.mp isFirst).1
  have isFirstNow : (old ++ fresh)[first]? = some firstRow := by
    rw [List.getElem?_append_left firstInside, isFirst]
  refine ⟨⟨first, firstRow, isFirstNow, firstCanonical, rfl⟩, ?_⟩
  rintro index row isRow canonical ⟨last, lastRow, ahead, isLast, bears⟩
  have ofOld : ∀ place placeRow, index ≤ place → old[place]? = some placeRow →
      placeRow.sourceMessageId = firstRow.sourceMessageId →
      ∃ window ∈ windows, window.startLine ≤ index ∧ index < window.endSnapshotLine := by
    intro place placeRow atMost isPlace placeBears
    have placeInside := (List.getElem?_eq_some_iff.mp isPlace).1
    rw [List.getElem?_append_left (by omega)] at isRow
    exact reflected.covered index row isRow canonical ⟨place, placeRow, atMost, isPlace, placeBears⟩
  rcases Nat.lt_or_ge first index with behind | atMost
  · obtain ⟨sameBatch, sameMessage⟩ := together first index last firstRow row lastRow behind ahead
      isFirstNow firstCanonical isRow canonical isLast bears
    have isOld : index < old.length := by omega
    have rowBears := sameMessage index row (Nat.le_of_lt behind) (Nat.le_refl index) isRow
    refine ofOld index row (Nat.le_refl index) ?_ rowBears
    rw [← isRow, List.getElem?_append_left isOld]
  · exact ofOld first firstRow atMost isFirst rfl

theorem WindowOf.append (window : WindowOf old snapshot) (fresh : List TranscriptEntry) :
    WindowOf (old ++ fresh) snapshot := by
  refine ⟨?_, ?_⟩
  · rw [List.length_append]
    exact Nat.le_add_right_of_le window.inside
  · rw [window.rows, slice, slice, List.take_append_of_le_length window.inside]

theorem WindowOf.getElem? (window : WindowOf entries snapshot)
    (started : snapshot.startLine ≤ index) (notEnded : index < snapshot.endSnapshotLine) :
    snapshot.entries[index - snapshot.startLine]? = entries[index]? := by
  rw [window.rows, slice, List.getElem?_drop, Nat.add_sub_cancel' started,
    List.getElem?_take_of_lt notEnded]

variable (captures : Captures entries cursor maxBytes snapshot)
include captures

theorem Captures.windowOf : WindowOf entries snapshot := by
  obtain ⟨line, ends, isEnd⟩ := captures.ends
  refine ⟨?_, captures.rows⟩
  have inside := ends.inside
  omega

theorem Captures.reflectedThrough (isSplit : entries = old ++ fresh)
    (together : KeepsTogether old fresh)
    (reflected : ∀ messageId, cursor = some messageId → ReflectedThrough windows entries messageId)
    :
    ReflectedThrough (snapshot :: windows) entries snapshot.endMessageId := by
  obtain ⟨line, ends, isEnd⟩ := captures.ends
  obtain ⟨first, firstRow, _, firstBefore, isFirst, firstCanonical, sameMessage⟩ := ends.group
  have firstBears := sameMessage first firstRow (Nat.le_refl first) firstBefore isFirst
  refine ⟨⟨first, firstRow, isFirst, firstCanonical, firstBears⟩, ?_⟩
  rintro index row isRow canonical ⟨last, lastRow, ahead, isLast, bears⟩
  have inside := (List.getElem?_eq_some_iff.mp isRow).1
  rcases Nat.lt_or_ge index snapshot.startLine with early | started
  · -- at or before the cursor, which has been reached
    rw [captures.start] at early
    cases cursor with
    | none => exact absurd early (Nat.not_lt_zero index)
    | some cursorId =>
      cases isAnchor : anchorRowIndex entries (some cursorId) with
      | none =>
        rw [isAnchor] at early
        exact absurd early (Nat.not_lt_zero index)
      | some anchor =>
        rw [isAnchor] at early
        obtain ⟨⟨anchorRow, isAnchorRow, anchorBears⟩, _⟩ := anchorRowIndex_spec isAnchor
        obtain ⟨window, member, contains⟩ := (reflected cursorId rfl).covered index row isRow
          canonical ⟨anchor, anchorRow, Nat.le_of_lt_succ early, isAnchorRow, anchorBears⟩
        exact ⟨window, List.mem_cons_of_mem snapshot member, contains⟩
  · refine ⟨snapshot, List.mem_cons_self, started, ?_⟩
    by_contra notBefore
    have behind : line ≤ index := by omega
    have isLine := List.getElem?_eq_getElem (show line < entries.length by omega)
    subst isSplit
    obtain ⟨_, goesOn⟩ := together first index last firstRow row lastRow (by omega) ahead
      isFirst firstCanonical isRow canonical isLast (bears.trans firstBears.symm)
    have lineBears := goesOn line _ (by omega) behind isLine
    exact ends.behind _ isLine (lineBears.trans firstBears)

end Assertions

section

variable (run : ReflectionRun)

theorem complete_step (label : ReflectionLabel) (next : ReflectionRun) (complete : Complete run)
    (whole : AppendsWhole run label next) (stepped : reflectionStep run label = some next) :
    Complete next := by
  obtain ⟨together, cursor, captured, windows, known⟩ := complete
  cases reflectionStep_effect stepped with
  | @appended batch rows sameCursor sameCaptured _ sameFinalized =>
    have isWhole := whole batch rfl
    refine ⟨⟨run.entries, run.journal.appended batch, rows, isWhole⟩, ?_, ?_, ?_, ?_⟩
    · rw [sameCursor, sameFinalized, rows]
      exact fun messageId isCursor => (cursor messageId isCursor).append isWhole
    · rw [sameCaptured, sameFinalized, rows]
      exact fun snapshot member => (captured snapshot member).append isWhole
    · rw [sameCaptured, rows]
      exact fun snapshot member => (windows snapshot member).append _
    · rw [sameFinalized, sameCaptured]
      exact known
  | quiet rows sameCursor sameCaptured _ sameFinalized =>
    refine ⟨?_, ?_, ?_, ?_, ?_⟩
    · rw [rows]
      exact together
    · rw [sameCursor, sameFinalized, rows]
      exact cursor
    · rw [sameCaptured, sameFinalized, rows]
      exact captured
    · rw [sameCaptured, rows]
      exact windows
    · rw [sameFinalized, sameCaptured]
      exact known
  | @captured maxBytes now snapshot window rows sameCursor newCaptured _ sameFinalized =>
    refine ⟨by rw [rows]; exact together, ?_, ?_, ?_, ?_⟩
    · rw [sameCursor, sameFinalized, rows]
      exact cursor
    · rw [newCaptured, sameFinalized, rows]
      obtain ⟨old, fresh, isSplit, isWhole⟩ := together
      intro other member
      rcases List.mem_cons.mp member with rfl | earlier
      · exact window.reflectedThrough isSplit isWhole cursor
      · exact captured other earlier
    · rw [newCaptured, rows]
      intro other member
      rcases List.mem_cons.mp member with rfl | earlier
      · exact window.windowOf
      · exact windows other earlier
    · rw [sameFinalized, newCaptured]
      exact fun other member => List.mem_cons_of_mem snapshot (known other member)
  | @finalized snapshot now isCaptured rows newCursor sameCaptured _ newFinalized =>
    refine ⟨by rw [rows]; exact together, ?_, ?_, ?_, ?_⟩
    · rw [newCursor, newFinalized, rows]
      rintro _ ⟨⟩
      exact captured snapshot isCaptured
    · rw [sameCaptured, newFinalized, rows]
      intro other member
      refine (captured other member).mono ?_
      exact fun window isWindow => List.cons_subset_cons other (List.subset_cons_self _ _) isWindow
    · rw [sameCaptured, rows]
      exact windows
    · rw [newFinalized, sameCaptured]
      intro other member
      rcases List.mem_cons.mp member with rfl | earlier
      · exact isCaptured
      · exact known other earlier

theorem complete_emptyRun : Complete emptyRun where
  together := ⟨[], [], rfl, fun _ _ _ _ _ _ _ _ isFirst => by cases isFirst⟩
  cursor := nofun
  captured := nofun
  windows := nofun
  known := nofun

/-- Every canonical row at or before the cursor has been in a window that was
finalized with success, in every run in which messages are appended as a whole. -/
theorem reflection_complete {labels : List ReflectionLabel} {final : ReflectionRun}
    (reached : execute reflectionStep emptyRun labels = some final)
    (whole : EveryStep reflectionStep AppendsWhole emptyRun labels) {anchor index : Nat}
    {row : TranscriptEntry} (isAnchor : anchorRowIndex final.entries final.cursor = some anchor)
    (atMost : index ≤ anchor) (isRow : final.entries[index]? = some row)
    (canonical : isCanonicalEntry row = true) :
    ∃ window ∈ final.finalized, window.startLine ≤ index ∧ index < window.endSnapshotLine ∧
      window.entries[index - window.startLine]? = some row := by
  have complete : Complete final :=
    invariant_of_execute complete_step complete_emptyRun reached whole
  cases isCursor : final.cursor with
  | none =>
    rw [isCursor] at isAnchor
    cases isAnchor
  | some messageId =>
    rw [isCursor] at isAnchor
    obtain ⟨⟨anchorRow, isAnchorRow, bears⟩, _⟩ := anchorRowIndex_spec isAnchor
    obtain ⟨window, member, started, notEnded⟩ := (complete.cursor messageId isCursor).covered
      index row isRow canonical ⟨anchor, anchorRow, atMost, isAnchorRow, bears⟩
    refine ⟨window, member, started, notEnded, ?_⟩
    rw [(complete.windows window (complete.known window member)).getElem? started notEnded]
    exact isRow

def textRow (kind : TextKind) (lineId messageId : String) : TranscriptEntry where
  body := .text kind (text "hello")
  capturedAt := text "12:00"
  sourceLineId := text lineId
  sourceMessageId := text messageId

def toolRow (lineId messageId : String) : TranscriptEntry where
  body := .toolCall (some (text "read")) none (some (text "context")) (some true)
  capturedAt := text "12:00"
  sourceLineId := text lineId
  sourceMessageId := text messageId

/-- The snapshot of a transcript that is one message. -/
def snapshotOf (messageId : String) (rows : List TranscriptEntry) : ReflectionSnapshot where
  startMessageId := text messageId
  endMessageId := text messageId
  startLine := 0
  endSnapshotLine := rows.length
  entries := rows
  backlogRemaining := none

/-- A test that a step appends whole messages: no canonical row has another one between it and a
later row of its message. -/
def appendsRows : ReflectionLabel → Prop
  | .append batch =>
    ∀ first middle last : Fin (run.entries ++ run.journal.appended batch).length,
      first < middle → middle ≤ last →
      isCanonicalEntry ((run.entries ++ run.journal.appended batch).get first) = true →
      isCanonicalEntry ((run.entries ++ run.journal.appended batch).get middle) = true →
      ((run.entries ++ run.journal.appended batch).get last).sourceMessageId ≠
        ((run.entries ++ run.journal.appended batch).get first).sourceMessageId
  | .capture _ _ | .finalize _ _ _ => True

instance  (label : ReflectionLabel) : Decidable (appendsRows run label) := by
  unfold appendsRows
  cases label <;> infer_instance

end

theorem appendsWhole_of_appendsRows (tested : appendsRows run label) :
    AppendsWhole run label next := by
  rintro batch rfl first middle last firstRow middleRow lastRow before atMost isFirst
    firstCanonical isMiddle middleCanonical isLast bears
  obtain ⟨firstInside, rfl⟩ := List.getElem?_eq_some_iff.mp isFirst
  obtain ⟨middleInside, rfl⟩ := List.getElem?_eq_some_iff.mp isMiddle
  obtain ⟨lastInside, rfl⟩ := List.getElem?_eq_some_iff.mp isLast
  exact absurd bears (tested ⟨first, firstInside⟩ ⟨middle, middleInside⟩ ⟨last, lastInside⟩
    before atMost firstCanonical middleCanonical)

def firstRows : List TranscriptEntry :=
  [textRow .assistant "a1:assistant" "a1", toolRow "a1:tool:1" "a1"]

/-- A message is captured, another one is appended, and the reflection succeeds. -/
def orderlyRun : List ReflectionLabel :=
  [.append firstRows, .capture reflectionSnapshotMaxBytes (text "12:01"),
    .append [textRow .user "u1:user" "u1"], .finalize (snapshotOf "a1" firstRows) true (text "12:02")]

theorem appendsWhole_orderlyRun : EveryStep reflectionStep AppendsWhole emptyRun orderlyRun := by
  have tested : EveryStep reflectionStep (fun run label _ => appendsRows run label) emptyRun
      orderlyRun := by
    decide +kernel
  exact tested.of_invariant
    (fun _ _ _ (_ : True) holds _ => ⟨appendsWhole_of_appendsRows holds, trivial⟩) trivial

theorem reflection_complete_orderly :
    ∃ final, execute reflectionStep emptyRun orderlyRun = some final ∧
      anchorRowIndex final.entries final.cursor = some 1 ∧
      ∃ window ∈ final.finalized, window.startLine ≤ 0 ∧ 0 < window.endSnapshotLine ∧
        window.entries[0 - window.startLine]? = some (textRow .assistant "a1:assistant" "a1") := by
  obtain ⟨final, reached, isAnchor, isRow⟩ :
      ∃ final, execute reflectionStep emptyRun orderlyRun = some final ∧
        anchorRowIndex final.entries final.cursor = some 1 ∧
        final.entries[0]? = some (textRow .assistant "a1:assistant" "a1") := by
    decide +kernel
  exact ⟨final, reached, isAnchor, reflection_complete reached appendsWhole_orderlyRun isAnchor
    (Nat.zero_le 1) isRow (by decide +kernel)⟩

/-- While the first message is reflected on, the next one and a late row of the
first one arrive. -/
def lateRun : List ReflectionLabel :=
  [.append [textRow .assistant "a1:assistant" "a1"],
    .capture reflectionSnapshotMaxBytes (text "12:01"),
    .append [textRow .user "u1:user" "u1"], .append [toolRow "a1:tool:1" "a1"],
    .finalize (snapshotOf "a1" [textRow .assistant "a1:assistant" "a1"]) true (text "12:02")]

theorem not_complete_late :
    ∃ final, execute reflectionStep emptyRun lateRun = some final ∧
      anchorRowIndex final.entries final.cursor = some 2 ∧
      final.entries[1]? = some (textRow .user "u1:user" "u1") ∧
      isCanonicalEntry (textRow .user "u1:user" "u1") = true ∧
      ∀ window ∈ final.finalized, textRow .user "u1:user" "u1" ∉ window.entries := by
  decide +kernel

end OpenAgent.Memory
