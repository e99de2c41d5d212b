import Mathlib.Data.List.TakeWhile
import OpenAgent.Memory.Journal

/-!
# What a capture finds

The cursor resolves to the last row of its message.  A window ends either with
the group of rows that follows a canonical row under its message id, or with the
transcript when all unreflected rows fit into the budget.
-/

namespace OpenAgent.Memory

open Library

section Anchor

theorem anchorFrom_concat :
    anchorFrom messageId (rows ++ [row]) index found =
      if row.sourceMessageId = messageId then some (index + rows.length)
      else anchorFrom messageId rows index found := by
  induction rows generalizing index found with
  | nil => rfl
  | cons head rest ih =>
    rw [List.cons_append, anchorFrom, ih, anchorFrom, List.length_cons,
      Nat.add_right_comm, Nat.add_assoc]

/-- The anchor is the last row that bears the message id. -/
theorem anchorRowIndex_spec (isAnchor : anchorRowIndex entries (some messageId) = some anchor) :
    (∃ row, entries[anchor]? = some row ∧ row.sourceMessageId = messageId) ∧
      ∀ (index : Nat) (row : TranscriptEntry), entries[index]? = some row →
        row.sourceMessageId = messageId → index ≤ anchor := by
  unfold anchorRowIndex at isAnchor
  induction entries using List.reverseRecOn with
  | nil => cases isAnchor
  | append_singleton rows last ih =>
    simp only [anchorFrom_concat] at isAnchor
    split at isAnchor
    next isLast =>
      cases isAnchor
      refine ⟨⟨last, by simp, isLast⟩, ?_⟩
      intro index row isRow _
      have inside := (List.getElem?_eq_some_iff.mp isRow).1
      simp only [List.length_append, List.length_singleton] at inside
      omega
    next notLast =>
      obtain ⟨⟨row, isRow, bears⟩, latest⟩ := ih isAnchor
      have inside := (List.getElem?_eq_some_iff.mp isRow).1
      refine ⟨⟨row, by rw [List.getElem?_append_left inside, isRow], bears⟩, ?_⟩
      intro index other isOther otherBears
      rcases Nat.lt_or_ge index rows.length with before | behind
      · rw [List.getElem?_append_left before] at isOther
        exact latest index other isOther otherBears
      · rw [List.getElem?_append_right behind, List.getElem?_singleton] at isOther
        split at isOther
        next =>
          cases isOther
          exact absurd otherBears notLast
        next => cases isOther

theorem anchorRowIndex_isSome {index : Nat} (isRow : entries[index]? = some row)
    (bears : row.sourceMessageId = messageId) :
    ∃ anchor, anchorRowIndex entries (some messageId) = some anchor := by
  unfold anchorRowIndex
  induction entries using List.reverseRecOn generalizing index with
  | nil => simp at isRow
  | append_singleton rows last ih =>
    simp only [anchorFrom_concat]
    split
    next => exact ⟨_, rfl⟩
    next notLast =>
      rcases Nat.lt_or_ge index rows.length with before | behind
      · rw [List.getElem?_append_left before] at isRow
        exact ih isRow
      · rw [List.getElem?_append_right behind, List.getElem?_singleton] at isRow
        split at isRow
        next =>
          cases isRow
          exact absurd bears notLast
        next => cases isRow

end Anchor

/-- The rows between two lines end with those that follow a canonical row under
its message id. -/
structure MessageEnds (entries : List TranscriptEntry) (messageId : Text)
    (start line : Nat) : Prop where
  group : ∃ first row, start ≤ first ∧ first < line ∧ entries[first]? = some row ∧
    isCanonicalEntry row = true ∧
    ∀ (index : Nat) (other : TranscriptEntry), first ≤ index → index < line →
      entries[index]? = some other → other.sourceMessageId = messageId
  behind : ∀ other, entries[line]? = some other → other.sourceMessageId ≠ messageId
  inside : line ≤ entries.length

theorem getElem?_of_drop {entries : List TranscriptEntry} (isRest : entries.drop index = rows)
    (offset : Nat) : entries[index + offset]? = rows[offset]? := by
  rw [← isRest, List.getElem?_drop]

theorem messageEnds_of_group (isRest : entries.drop index = entry :: rest) (above : start ≤ index)
    (canonical : isCanonicalEntry entry = true) :
    MessageEnds entries entry.sourceMessageId start (index + (rest.takeWhile fun row =>
        row.sourceMessageId = entry.sourceMessageId).length + 1) := by
  generalize isGroup : (rest.takeWhile fun row =>
    row.sourceMessageId = entry.sourceMessageId) = trailing
  have isSplit : rest = trailing ++ rest.dropWhile (fun row =>
      row.sourceMessageId = entry.sourceMessageId) := by
    rw [← isGroup, List.takeWhile_append_dropWhile]
  refine ⟨⟨index, entry, above, by omega, ?_, canonical, ?_⟩, ?_, ?_⟩
  · exact getElem?_of_drop isRest 0
  · intro place other first last isOther
    obtain ⟨offset, rfl⟩ := Nat.exists_eq_add_of_le first
    rw [getElem?_of_drop isRest] at isOther
    cases offset with
    | zero =>
      cases isOther
      rfl
    | succ offset =>
      rw [List.getElem?_cons_succ, isSplit, List.getElem?_append_left (by omega)] at isOther
      have member := List.mem_of_getElem? isOther
      rw [← isGroup] at member
      simpa using List.mem_takeWhile_imp member
  · intro other isOther
    rw [Nat.add_assoc, getElem?_of_drop isRest, List.getElem?_cons_succ, isSplit,
      List.getElem?_append_right (Nat.le_refl _), Nat.sub_self, ← List.head?_eq_getElem?]
      at isOther
    have differs := List.head?_dropWhile_not (fun row : TranscriptEntry =>
      decide (row.sourceMessageId = entry.sourceMessageId)) rest
    rw [isOther] at differs
    simpa using differs
  · have length := congrArg List.length isRest
    have total := congrArg List.length isSplit
    simp only [List.length_drop, List.length_cons, List.length_append] at length total
    omega

section Scan

variable {entries : List TranscriptEntry}

theorem drop_succ_of_drop (isRest : entries.drop index = entry :: rest) :
    entries.drop (index + 1) = rest := by
  rw [← List.drop_drop, isRest, List.drop_one, List.tail_cons]

/-- The loop ends behind a message. -/
theorem scanWindow_closed (skip bytes : Nat) (closed : Option (Text × Nat))
    (isRest : entries.drop index = rows) (above : start ≤ index)
    (ends : ∀ messageId line, closed = some (messageId, line) →
      MessageEnds entries messageId start line)
    (isClosed : (scanWindow maxBytes rows skip index bytes closed).closed =
      some (messageId, line)) :
    MessageEnds entries messageId start line := by
  fun_induction scanWindow maxBytes rows skip index bytes closed with
  | case1 => exact ends messageId line isClosed
  | case2 _ rest skip index bytes closed ih | case6 entry rest index bytes closed _ _ ih =>
    exact ih (drop_succ_of_drop isRest) (by omega) ends isClosed
  | case3 => exact ends messageId line isClosed
  | case4 entry rest index bytes closed _ canonical =>
    cases isClosed
    exact messageEnds_of_group isRest above canonical
  | case5 entry rest index bytes closed _ canonical _ _ _ _ _ ih =>
    refine ih (drop_succ_of_drop isRest) (by omega) ?_ isClosed
    intro other last isLast
    cases Option.some.inj isLast
    exact messageEnds_of_group isRest above canonical

theorem totalBytes_append :
    totalBytes (front ++ back) = totalBytes front + totalBytes back := by
  simp [totalBytes]

theorem takeWhile_append_drop (test : TranscriptEntry → Bool) (rows : List TranscriptEntry) :
    rows.takeWhile test ++ rows.drop (rows.takeWhile test).length = rows := by
  have isSplit := List.takeWhile_append_dropWhile (p := test) (l := rows)
  have isRest : rows.drop (rows.takeWhile test).length = rows.dropWhile test :=
    calc rows.drop (rows.takeWhile test).length
        = (rows.takeWhile test ++ rows.dropWhile test).drop (rows.takeWhile test).length := by
          rw [isSplit]
      _ = rows.dropWhile test := List.drop_left
  rw [isRest, isSplit]

/-- A loop that does not exhaust the budget has counted all rows. -/
theorem scanWindow_bytes
    (fits : (scanWindow maxBytes rows skip index bytes closed).exhausted = false) :
    (scanWindow maxBytes rows skip index bytes closed).bytes =
      bytes + totalBytes (rows.drop skip) := by
  fun_induction scanWindow maxBytes rows skip index bytes closed with
  | case1 => simp [totalBytes]
  | case2 _ rest skip index bytes closed ih => exact ih fits
  | case3 | case4 => cases fits
  | case5 entry rest index bytes closed counted _ trailing groupBytes _ _ _ ih =>
    rw [ih fits]
    have isSplit := takeWhile_append_drop
    calc groupBytes + totalBytes (rest.drop trailing.length) = bytes + entryBytes entry +
            (totalBytes trailing + totalBytes (rest.drop trailing.length)) := by omega
      _ = bytes + entryBytes entry + totalBytes rest := by
            rw [← totalBytes_append, isSplit]
      _ = bytes + totalBytes (entry :: rest) := by
            simp [totalBytes, Nat.add_assoc]
  | case6 entry rest index bytes closed counted _ ih =>
    rw [ih fits]
    simp [totalBytes, counted, Nat.add_assoc]

/-- A loop that does not exhaust the budget has left no canonical row behind. -/
theorem scanWindow_tail (skip bytes : Nat) (closed : Option (Text × Nat))
    (isRest : entries.drop index = rows)
    (inGroup : 0 < skip → ∃ messageId, closed = some (messageId, index + skip))
    (passed : ∀ messageId line, closed = some (messageId, line) →
      ∀ (place : Nat) (row : TranscriptEntry), line ≤ place → place < index →
        entries[place]? = some row → isCanonicalEntry row = false)
    (fits : (scanWindow maxBytes rows skip index bytes closed).exhausted = false)
    (isClosed : (scanWindow maxBytes rows skip index bytes closed).closed = some (messageId, line))
    (isBehind : line ≤ place)
    (isRow : entries[place]? = some row) : isCanonicalEntry row = false := by
  fun_induction scanWindow maxBytes rows skip index bytes closed with
  | case1 skip index bytes closed =>
    have short : entries.length ≤ index := List.drop_eq_nil_iff.mp isRest
    have inside := (List.getElem?_eq_some_iff.mp isRow).1
    exact passed messageId line isClosed place row isBehind (by omega) isRow
  | case2 _ rest skip index bytes closed ih =>
    obtain ⟨groupId, isGroup⟩ := inGroup (by omega)
    refine ih (drop_succ_of_drop isRest) ?_ ?_ fits isClosed
    · intro _
      exact ⟨groupId, by rw [isGroup]; congr 2; omega⟩
    · intro other last isLast position
      rw [isGroup] at isLast
      cases isLast
      omega
  | case3 | case4 => cases fits
  | case5 entry rest index bytes closed _ canonical _ _ _ _ _ ih =>
    refine ih (drop_succ_of_drop isRest) ?_ ?_ fits isClosed
    · intro _
      exact ⟨entry.sourceMessageId, congrArg (fun last => some (_, last)) (by omega)⟩
    · intro other last isLast position
      cases Option.some.inj isLast
      omega
  | case6 entry rest index bytes closed _ plain ih =>
    refine ih (drop_succ_of_drop isRest) nofun ?_ fits isClosed
    intro other last isLast position found isPosition before isFound
    rcases Nat.lt_succ_iff_lt_or_eq.mp before with earlier | rfl
    · exact passed other last isLast position found isPosition earlier isFound
    · have isHead := getElem?_of_drop isRest 0
      rw [Nat.add_zero, isFound] at isHead
      cases isHead
      simpa using plain

end Scan

/-- What a captured snapshot is: it starts behind the cursor, and ends with a
message or, when all unreflected rows fit, with the transcript. -/
structure Captures (entries : List TranscriptEntry) (cursor : Option Text) (maxBytes : Rat)
    (snapshot : ReflectionSnapshot) : Prop where
  start : snapshot.startLine = rowBehind (anchorRowIndex entries cursor)
  ends : ∃ line, MessageEnds entries snapshot.endMessageId snapshot.startLine line ∧
    (snapshot.endSnapshotLine = line ∨ snapshot.endSnapshotLine = entries.length ∧
        (totalBytes (entries.drop snapshot.startLine) : Rat) ≤ maxBytes ∧
        ∀ (place : Nat) (row : TranscriptEntry), line ≤ place →
          entries[place]? = some row → isCanonicalEntry row = false)
  rows : snapshot.entries = slice entries snapshot.startLine snapshot.endSnapshotLine

theorem captureCursorSnapshot_spec
    (isCaptured : captureCursorSnapshot entries state (some maxBytes) = some snapshot) :
    Captures entries state.reflectedThroughMessageId maxBytes snapshot := by
  unfold captureCursorSnapshot at isCaptured
  simp only at isCaptured
  generalize isStart :
    rowBehind (anchorRowIndex entries state.reflectedThroughMessageId) = windowStart at isCaptured
  split at isCaptured
  next => cases isCaptured
  next lead isLead =>
    split at isCaptured
    next start messageId line isFirst isClosed =>
      cases isCaptured
      have isRest : entries.drop (windowStart + lead) = (entries.drop windowStart).drop lead := by
        rw [List.drop_drop]
      have ends := scanWindow_closed 0 _ none isRest
        (Nat.le_add_right windowStart lead) nofun isClosed
      refine ⟨isStart.symm, ⟨line, ends, ?_⟩, rfl⟩
      split
      next fits =>
        right
        simp only [Bool.and_eq_true, Bool.not_eq_true', decide_eq_true_eq] at fits
        obtain ⟨notExhausted, small⟩ := fits
        refine ⟨rfl, ?_, ?_⟩
        · rw [scanWindow_bytes notExhausted, List.drop_zero, ← totalBytes_append,
            List.take_append_drop] at small
          exact small
        · intro place row isBehind isRow
          exact scanWindow_tail 0 _ none isRest nofun nofun notExhausted isClosed isBehind isRow
      next => exact .inl rfl
    next => cases isCaptured

namespace ReflectionRun

abbrev entries (run : ReflectionRun) : List TranscriptEntry :=
  run.journal.entries

abbrev cursor (run : ReflectionRun) : Option Text :=
  run.journal.state.reflectedThroughMessageId

end ReflectionRun

/-- What a step does to the rows, the cursor and the snapshots. -/
inductive ReflectionEffect (run next : ReflectionRun) : ReflectionLabel → Prop
  | appended {batch} (rows : next.entries = run.entries ++ run.journal.appended batch)
      (cursor : next.cursor = run.cursor) (captured : next.captured = run.captured)
      (unspent : next.unspent = run.unspent) (finalized : next.finalized = run.finalized) :
      ReflectionEffect run next (.append batch)
  /-- Nothing to capture, or a reflection that failed. -/
  | quiet {label} (rows : next.entries = run.entries) (cursor : next.cursor = run.cursor)
      (captured : next.captured = run.captured) (unspent : next.unspent = run.unspent)
      (finalized : next.finalized = run.finalized) : ReflectionEffect run next label
  | captured {maxBytes now snapshot} (window : Captures run.entries run.cursor maxBytes snapshot)
      (rows : next.entries = run.entries) (cursor : next.cursor = run.cursor)
      (captured : next.captured = snapshot :: run.captured)
      (unspent : next.unspent = snapshot :: run.unspent)
      (finalized : next.finalized = run.finalized) :
      ReflectionEffect run next (.capture maxBytes now)
  | finalized {snapshot now} (isCaptured : snapshot ∈ run.captured)
      (rows : next.entries = run.entries) (cursor : next.cursor = some snapshot.endMessageId)
      (captured : next.captured = run.captured) (unspent : next.unspent = [])
      (finalized : next.finalized = snapshot :: run.finalized) :
      ReflectionEffect run next (.finalize snapshot true now)

@[simp] theorem cursor_writeState :
    (TranscriptJournal.writeState entries state).state.reflectedThroughMessageId =
      state.reflectedThroughMessageId := by
  unfold TranscriptJournal.writeState
  split <;> rfl

theorem reflectionStep_effect (stepped : reflectionStep run label = some next) :
    ReflectionEffect run next label := by
  cases label with
  | append batch =>
    cases stepped
    exact .appended rfl cursor_writeState rfl rfl rfl
  | capture maxBytes now =>
    simp only [reflectionStep, TranscriptJournal.captureReflectionSnapshot] at stepped
    cases isCaptured : captureCursorSnapshot run.journal.entries
        (deriveState run.journal.state run.journal.entries) (some maxBytes) with
    | none =>
      rw [isCaptured] at stepped
      cases stepped
      exact .quiet rfl rfl rfl rfl rfl
    | some snapshot =>
      rw [isCaptured] at stepped
      cases stepped
      exact .captured (captureCursorSnapshot_spec isCaptured) rfl cursor_writeState
        rfl rfl rfl
  | finalize snapshot success now =>
    simp only [reflectionStep] at stepped
    split at stepped
    next isCaptured =>
      cases success with
      | true =>
        cases stepped
        exact .finalized isCaptured rfl cursor_writeState rfl rfl rfl
      | false =>
        cases stepped
        exact .quiet rfl cursor_writeState rfl rfl rfl
    next => cases stepped

end OpenAgent.Memory
