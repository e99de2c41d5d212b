import OpenAgent.Memory.CursorCompleteness

/-!
# Successive windows join

A window may take in rows behind its last message, while the next one starts
behind the last row that bears the id of that message.  The two lines agree as
long as the rows of a message are appended together, a window that takes in the
rest of the transcript ends with a message, and a snapshot is finalized before
another one is.
-/

namespace OpenAgent.Memory

open Library

/-- All rows that bear the id of an earlier canonical row follow it directly, and
were appended with it. -/
def OneGroup (old fresh : List TranscriptEntry) : Prop :=
  ∀ (first last : Nat) (firstRow lastRow : TranscriptEntry), first < last →
    (old ++ fresh)[first]? = some firstRow → isCanonicalEntry firstRow = true →
    (old ++ fresh)[last]? = some lastRow →
    lastRow.sourceMessageId = firstRow.sourceMessageId →
    (last < old.length ∨ old.length ≤ first) ∧
      ∀ (place : Nat) (row : TranscriptEntry), first ≤ place → place ≤ last →
        (old ++ fresh)[place]? = some row → row.sourceMessageId = firstRow.sourceMessageId

/-- All rows behind the last canonical row bear its message id, if that row is
not in front of a line. -/
def EndsWithMessage (entries : List TranscriptEntry) (line : Nat) : Prop :=
  ∀ (last : Nat) (lastRow : TranscriptEntry), line ≤ last → entries[last]? = some lastRow →
    isCanonicalEntry lastRow = true →
    (∀ (place : Nat) (row : TranscriptEntry), last < place → entries[place]? = some row →
      isCanonicalEntry row = false) →
    ∀ (place : Nat) (row : TranscriptEntry), last < place → entries[place]? = some row →
      row.sourceMessageId = lastRow.sourceMessageId

/-- Messages are appended together; a capture that can take in all unreflected
rows finds a message at their end; and a success belongs to a snapshot that was
captured since the last one. -/
structure JoinsWindows (run : ReflectionRun) (label : ReflectionLabel)
    (_ : ReflectionRun) : Prop where
  together : ∀ batch, label = .append batch → OneGroup run.entries (run.journal.appended batch)
  message : ∀ maxBytes now, label = .capture maxBytes now →
    (totalBytes (run.entries.drop (rowBehind (anchorRowIndex run.entries run.cursor))) : Rat) ≤
      maxBytes →
    EndsWithMessage run.entries (rowBehind (anchorRowIndex run.entries run.cursor))
  unspent : ∀ snapshot now, label = .finalize snapshot true now → snapshot ∈ run.unspent

/-- The line behind the last window. -/
def nextLine : List ReflectionSnapshot → Nat
  | [] => 0
  | window :: _ => window.endSnapshotLine

/-- A canonical row bears the id, and the last row that does is in front of a
line. -/
structure EndsAt (entries : List TranscriptEntry) (messageId : Text) (line : Nat) : Prop where
  named : ∃ (index : Nat) (row : TranscriptEntry), entries[index]? = some row ∧
    isCanonicalEntry row = true ∧ row.sourceMessageId = messageId
  last : rowBehind (anchorRowIndex entries (some messageId)) = line

/-- The invariant of a run. -/
structure Joined (run : ReflectionRun) : Prop where
  together : ∃ old fresh, run.entries = old ++ fresh ∧ OneGroup old fresh
  initial : run.cursor = none → run.finalized = []
  cursor : ∀ messageId, run.cursor = some messageId →
    EndsAt run.entries messageId (nextLine run.finalized)
  unspent : ∀ snapshot ∈ run.unspent, snapshot.startLine = nextLine run.finalized ∧
    snapshot.startLine < snapshot.endSnapshotLine ∧
    EndsAt run.entries snapshot.endMessageId snapshot.endSnapshotLine
  chain : run.finalized.IsChain fun later earlier =>
    later.startLine = earlier.endSnapshotLine
  ordered : run.finalized.Pairwise fun later earlier =>
    earlier.endSnapshotLine ≤ later.startLine
  below : ∀ window ∈ run.finalized, window.endSnapshotLine ≤ nextLine run.finalized

section Assertions

variable {entries : List TranscriptEntry}

theorem anchorRowIndex_eq_some (isRow : entries[anchor]? = some row)
    (bears : row.sourceMessageId = messageId)
    (latest : ∀ (index : Nat) (other : TranscriptEntry), entries[index]? = some other →
      other.sourceMessageId = messageId → index ≤ anchor) :
    anchorRowIndex entries (some messageId) = some anchor := by
  obtain ⟨found, isFound⟩ := anchorRowIndex_isSome isRow bears
  obtain ⟨⟨foundRow, isFoundRow, foundBears⟩, foundLatest⟩ := anchorRowIndex_spec isFound
  have same : found = anchor :=
    Nat.le_antisymm (latest found foundRow isFoundRow foundBears) (foundLatest anchor row isRow bears)
  rw [isFound, same]

theorem EndsAt.append (ends : EndsAt old messageId line) (together : OneGroup old fresh) :
    EndsAt (old ++ fresh) messageId line := by
  obtain ⟨⟨first, firstRow, isFirst, canonical, rfl⟩, last⟩ := ends
  have firstInside := (List.getElem?_eq_some_iff.mp isFirst).1
  have isFirstNow : (old ++ fresh)[first]? = some firstRow := by
    rw [List.getElem?_append_left firstInside, isFirst]
  refine ⟨⟨first, firstRow, isFirstNow, canonical, rfl⟩, ?_⟩
  obtain ⟨anchor, isAnchor⟩ := anchorRowIndex_isSome isFirst rfl
  obtain ⟨⟨anchorRow, isAnchorRow, bears⟩, latest⟩ := anchorRowIndex_spec isAnchor
  have anchorInside := (List.getElem?_eq_some_iff.mp isAnchorRow).1
  have same : anchorRowIndex (old ++ fresh) (some firstRow.sourceMessageId) = some anchor := by
    refine anchorRowIndex_eq_some ?_ bears ?_
    · rw [List.getElem?_append_left anchorInside, isAnchorRow]
    · intro index other isOther otherBears
      rcases Nat.lt_or_ge index old.length with isOld | isFresh
      · rw [List.getElem?_append_left isOld] at isOther
        exact latest index other isOther otherBears
      · obtain ⟨sameBatch, _⟩ := together first index firstRow other (by omega) isFirstNow
          canonical isOther otherBears
        omega
  rw [same, ← isAnchor]
  exact last

theorem exists_last_canonical (isRow : entries[index]? = some row)
    (canonical : isCanonicalEntry row = true) :
    ∃ last lastRow, index ≤ last ∧ entries[last]? = some lastRow ∧ isCanonicalEntry lastRow = true ∧
      ∀ (place : Nat) (other : TranscriptEntry), last < place → entries[place]? = some other →
        isCanonicalEntry other = false := by
  induction remaining : entries.length - index using Nat.strong_induction_on
    generalizing index row with
  | _ count ih =>
    have inside := (List.getElem?_eq_some_iff.mp isRow).1
    by_cases isLast : ∀ (place : Nat) (other : TranscriptEntry), index < place →
        entries[place]? = some other → isCanonicalEntry other = false
    · exact ⟨index, row, Nat.le_refl index, isRow, canonical, isLast⟩
    · push Not at isLast
      obtain ⟨place, other, behind, isOther, otherCanonical⟩ := isLast
      obtain ⟨last, lastRow, atMost, found⟩ := ih (entries.length - place)
        (by omega) isOther (by simpa using otherCanonical) rfl
      exact ⟨last, lastRow, by omega, found⟩

/-- A window ends with the last row of its last message. -/
theorem Captures.endsAt (captures : Captures entries cursor maxBytes snapshot)
    (isSplit : entries = old ++ fresh) (together : OneGroup old fresh)
    (message : (totalBytes (entries.drop snapshot.startLine) : Rat) ≤ maxBytes →
      EndsWithMessage entries snapshot.startLine) :
    snapshot.startLine < snapshot.endSnapshotLine ∧
      EndsAt entries snapshot.endMessageId snapshot.endSnapshotLine := by
  obtain ⟨line, ends, isEnd⟩ := captures.ends
  obtain ⟨first, firstRow, above, firstBefore, isFirst, canonical, sameMessage⟩ := ends.group
  have firstBears := sameMessage first firstRow (Nat.le_refl first) firstBefore isFirst
  have inside := ends.inside
  have latest : ∀ (index : Nat) (other : TranscriptEntry), entries[index]? = some other →
      other.sourceMessageId = snapshot.endMessageId → index ≤ line - 1 := by
    intro index other isOther bears
    by_contra notBefore
    have otherInside := (List.getElem?_eq_some_iff.mp isOther).1
    have isLine := List.getElem?_eq_getElem (show line < entries.length by omega)
    subst isSplit
    obtain ⟨_, goesOn⟩ := together first index firstRow other (by omega) isFirst canonical
      isOther (bears.trans firstBears.symm)
    have lineBears := goesOn line _ (by omega) (by omega) isLine
    exact ends.behind _ isLine (lineBears.trans firstBears)
  have isLast := List.getElem?_eq_getElem (show line - 1 < entries.length by omega)
  have lastBears := sameMessage (line - 1) _ (by omega) (by omega) isLast
  have isAnchor := anchorRowIndex_eq_some isLast lastBears latest
  have isEndLine : snapshot.endSnapshotLine = line := by
    rcases isEnd with isLine | ⟨isLength, fits, noneBehind⟩
    · exact isLine
    · by_contra differs
      have isNext := List.getElem?_eq_getElem (show line < entries.length by omega)
      obtain ⟨final, finalRow, behind, isFinal, finalCanonical, isFinalLast⟩ :=
        exists_last_canonical isFirst canonical
      have beforeLine : final < line := by
        by_contra notBefore
        rw [noneBehind final finalRow (by omega) isFinal] at finalCanonical
        cases finalCanonical
      have finalBears := sameMessage final finalRow behind beforeLine isFinal
      have nextBears := message fits final finalRow (by omega) isFinal finalCanonical isFinalLast
        line _ beforeLine isNext
      exact ends.behind _ isNext (nextBears.trans finalBears)
  refine ⟨by omega, ⟨first, firstRow, isFirst, canonical, firstBears⟩, ?_⟩
  rw [isAnchor, rowBehind]
  omega

end Assertions

section

variable (run : ReflectionRun)

theorem joined_step (label : ReflectionLabel) (next : ReflectionRun) (joined : Joined run)
    (joins : JoinsWindows run label next) (stepped : reflectionStep run label = some next) :
    Joined next := by
  obtain ⟨together, initial, cursor, unspent, chain, ordered, below⟩ := joined
  cases reflectionStep_effect stepped with
  | @appended batch rows sameCursor _ sameUnspent sameFinalized =>
    have isGroup := joins.together batch rfl
    refine ⟨⟨run.entries, run.journal.appended batch, rows, isGroup⟩, ?_, ?_, ?_, ?_, ?_, ?_⟩
    · rwa [sameCursor, sameFinalized]
    · rw [sameCursor, sameFinalized, rows]
      exact fun messageId isCursor => (cursor messageId isCursor).append isGroup
    · rw [sameUnspent, sameFinalized, rows]
      intro snapshot member
      obtain ⟨starts, nonempty, ends⟩ := unspent snapshot member
      exact ⟨starts, nonempty, ends.append isGroup⟩
    · rwa [sameFinalized]
    · rwa [sameFinalized]
    · rwa [sameFinalized]
  | quiet rows sameCursor _ sameUnspent sameFinalized =>
    refine ⟨?_, ?_, ?_, ?_, ?_, ?_, ?_⟩
    · rwa [rows]
    · rwa [sameCursor, sameFinalized]
    · rwa [sameCursor, sameFinalized, rows]
    · rwa [sameUnspent, sameFinalized, rows]
    · rwa [sameFinalized]
    · rwa [sameFinalized]
    · rwa [sameFinalized]
  | @captured maxBytes now snapshot window rows sameCursor _ newUnspent sameFinalized =>
    have starts : snapshot.startLine = nextLine run.finalized := by
      rw [window.start]
      cases isCursor : run.cursor with
      | none => rw [initial isCursor]; rfl
      | some messageId => exact (cursor messageId isCursor).last
    have message := joins.message maxBytes now rfl
    rw [← window.start] at message
    obtain ⟨old, fresh, isSplit, isGroup⟩ := together
    obtain ⟨nonempty, ends⟩ := window.endsAt isSplit isGroup message
    refine ⟨⟨old, fresh, rows.trans isSplit, isGroup⟩, ?_, ?_, ?_, ?_, ?_, ?_⟩
    · rwa [sameCursor, sameFinalized]
    · rwa [sameCursor, sameFinalized, rows]
    · rw [newUnspent, sameFinalized, rows]
      intro other member
      rcases List.mem_cons.mp member with rfl | earlier
      · exact ⟨starts, nonempty, ends⟩
      · exact unspent other earlier
    · rwa [sameFinalized]
    · rwa [sameFinalized]
    · rwa [sameFinalized]
  | @finalized snapshot now _ rows newCursor _ newUnspent newFinalized =>
    obtain ⟨starts, nonempty, ends⟩ := unspent snapshot (joins.unspent snapshot now rfl)
    refine ⟨by rwa [rows], ?_, ?_, ?_, ?_, ?_, ?_⟩
    · rw [newCursor]
      nofun
    · rw [newCursor, newFinalized, rows]
      rintro _ ⟨⟩
      exact ends
    · rw [newUnspent]
      nofun
    · rw [newFinalized]
      cases isFinalized : run.finalized with
      | nil => exact .singleton snapshot
      | cons window earlier =>
        rw [isFinalized] at chain starts
        exact .cons_cons starts chain
    · rw [newFinalized]
      refine List.pairwise_cons.mpr ⟨?_, ordered⟩
      intro window member
      rw [starts]
      exact below window member
    · rw [newFinalized]
      intro window member
      rcases List.mem_cons.mp member with rfl | earlier
      · exact Nat.le_refl _
      · have isBelow := below window earlier
        rw [nextLine]
        omega

theorem joined_emptyRun : Joined emptyRun where
  together := ⟨[], [], rfl, fun _ _ _ _ _ isFirst => by cases isFirst⟩
  initial := fun _ => rfl
  cursor := nofun
  unspent := nofun
  chain := .nil
  ordered := .nil
  below := nofun

/-- A window covers a line. -/
def ReflectionSnapshot.Covers (snapshot : ReflectionSnapshot) (line : Nat) : Prop :=
  snapshot.startLine ≤ line ∧ line < snapshot.endSnapshotLine

/-- Each window starts where the one before it ended, and no line is covered
twice, in every run that joins its windows. -/
theorem windows_join {labels : List ReflectionLabel} {final : ReflectionRun}
    (reached : execute reflectionStep emptyRun labels = some final)
    (joins : EveryStep reflectionStep JoinsWindows emptyRun labels) :
    (final.finalized.IsChain fun later earlier => later.startLine = earlier.endSnapshotLine) ∧
      final.finalized.Pairwise fun later earlier =>
        ∀ line, ¬ (later.Covers line ∧ earlier.Covers line) := by
  have joined : Joined final :=
    invariant_of_execute joined_step joined_emptyRun reached joins
  refine ⟨joined.chain, joined.ordered.imp ?_⟩
  rintro later earlier before line ⟨⟨started, _⟩, ⟨_, notEnded⟩⟩
  omega

def secondRow : TranscriptEntry :=
  textRow .user "u1:user" "u1"

/-- The window of the second message. -/
def secondSnapshot (startLine : Nat) (rows : List TranscriptEntry) : ReflectionSnapshot :=
  { snapshotOf "u1" rows with
    startLine := startLine
    endSnapshotLine := startLine + rows.length }

/-- Two messages, each of them captured and finalized when it is there. -/
def steadyRun : List ReflectionLabel :=
  [.append firstRows, .capture reflectionSnapshotMaxBytes (text "12:01"),
    .finalize (snapshotOf "a1" firstRows) true (text "12:02"),
    .append [secondRow], .capture reflectionSnapshotMaxBytes (text "12:03"),
    .finalize (secondSnapshot 2 [secondRow]) true (text "12:04")]

/-- A test that a step joins the windows, over the rows of the run. -/
def joinsRows : ReflectionLabel → Prop
  | .append batch =>
    ∀ first last : Fin (run.entries ++ run.journal.appended batch).length, first < last →
      isCanonicalEntry ((run.entries ++ run.journal.appended batch).get first) = true →
      ((run.entries ++ run.journal.appended batch).get last).sourceMessageId =
        ((run.entries ++ run.journal.appended batch).get first).sourceMessageId →
      (last < run.entries.length ∨ run.entries.length ≤ first) ∧
        ∀ place, first ≤ place → place ≤ last →
          ((run.entries ++ run.journal.appended batch).get place).sourceMessageId =
            ((run.entries ++ run.journal.appended batch).get first).sourceMessageId
  | .capture _ _ =>
    ∀ last place : Fin run.entries.length, last < place →
      isCanonicalEntry (run.entries.get last) = true →
      (run.entries.get place).sourceMessageId = (run.entries.get last).sourceMessageId ∨
        ∃ later, last < later ∧ isCanonicalEntry (run.entries.get later) = true
  | .finalize snapshot success _ => success = true → snapshot ∈ run.unspent

instance  : ∀ label, Decidable (joinsRows run label)
  | .append _ | .capture _ _ | .finalize _ _ _ => by
    dsimp only [joinsRows]
    infer_instance

end

theorem joins_of_joinsRows (tested : joinsRows run label) : JoinsWindows run label next where
  together := by
    rintro batch rfl first last firstRow lastRow before isFirst canonical isLast bears
    obtain ⟨firstInside, rfl⟩ := List.getElem?_eq_some_iff.mp isFirst
    obtain ⟨lastInside, rfl⟩ := List.getElem?_eq_some_iff.mp isLast
    obtain ⟨sameBatch, sameMessage⟩ := tested ⟨first, firstInside⟩ ⟨last, lastInside⟩ before
      canonical bears
    refine ⟨sameBatch, ?_⟩
    intro place row above atMost isRow
    obtain ⟨inside, rfl⟩ := List.getElem?_eq_some_iff.mp isRow
    exact sameMessage ⟨place, inside⟩ above atMost
  message := by
    rintro maxBytes now rfl _ last lastRow _ isLast canonical noneBehind place row behind isRow
    obtain ⟨lastInside, rfl⟩ := List.getElem?_eq_some_iff.mp isLast
    obtain ⟨inside, rfl⟩ := List.getElem?_eq_some_iff.mp isRow
    refine (tested ⟨last, lastInside⟩ ⟨place, inside⟩ behind canonical).resolve_right ?_
    rintro ⟨later, isLater, laterCanonical⟩
    have isPlain := noneBehind later (run.entries.get later) isLater
      (List.getElem?_eq_getElem later.isLt)
    rw [laterCanonical] at isPlain
    cases isPlain
  unspent := by
    rintro snapshot now rfl
    exact tested rfl

theorem joins_steadyRun : EveryStep reflectionStep JoinsWindows emptyRun steadyRun := by
  have tested : EveryStep reflectionStep (fun run label _ => joinsRows run label) emptyRun
      steadyRun := by
    decide +kernel
  exact tested.of_invariant
    (fun _ _ _ (_ : True) holds _ => ⟨joins_of_joinsRows holds, trivial⟩) trivial

theorem windows_join_steady :
    ∃ final, execute reflectionStep emptyRun steadyRun = some final ∧
      final.finalized = [secondSnapshot 2 [secondRow], snapshotOf "a1" firstRows] ∧
      (final.finalized.IsChain fun later earlier =>
        later.startLine = earlier.endSnapshotLine) ∧
      final.finalized.Pairwise fun later earlier =>
        ∀ line, ¬ (later.Covers line ∧ earlier.Covers line) := by
  obtain ⟨final, reached, isFinalized⟩ :
      ∃ final, execute reflectionStep emptyRun steadyRun = some final ∧
        final.finalized = [secondSnapshot 2 [secondRow], snapshotOf "a1" firstRows] := by
    decide +kernel
  exact ⟨final, reached, isFinalized, windows_join reached joins_steadyRun⟩

/-- A message that is followed by the tool call of another one. -/
def tailRows : List TranscriptEntry :=
  [textRow .assistant "a1:assistant" "a1", toolRow "a2:tool:1" "a2"]

/-- The tool call is taken in, but the cursor stays in front of it. -/
def tailRun : List ReflectionLabel :=
  [.append tailRows, .capture reflectionSnapshotMaxBytes (text "12:01"),
    .finalize (snapshotOf "a1" tailRows) true (text "12:02"),
    .append [secondRow], .capture reflectionSnapshotMaxBytes (text "12:03"),
    .finalize (secondSnapshot 1 [toolRow "a2:tool:1" "a2", secondRow]) true (text "12:04")]

theorem not_join_tail :
    ∃ final later earlier, execute reflectionStep emptyRun tailRun = some final ∧
      final.finalized = [later, earlier] ∧
      later.startLine ≠ earlier.endSnapshotLine ∧ later.Covers 1 ∧ earlier.Covers 1 := by
  obtain ⟨final, reached, isFinalized⟩ :
      ∃ final, execute reflectionStep emptyRun tailRun = some final ∧ final.finalized =
        [secondSnapshot 1 [toolRow "a2:tool:1" "a2", secondRow], snapshotOf "a1" tailRows] := by
    decide +kernel
  exact ⟨final, _, _, reached, isFinalized, by decide, ⟨by decide, by decide⟩,
    ⟨by decide, by decide⟩⟩

end OpenAgent.Memory
