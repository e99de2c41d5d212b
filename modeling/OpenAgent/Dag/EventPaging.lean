import OpenAgent.Dag.TornTail

/-!
# Reading an event log in pages

`recoverCheckpoint` and `readCancelReason` read on behind the last event of a
page until a page is the last one.  Sequence numbers rise along a log, since an
append takes only the successor of the last one, so that no event is read twice
or passed over.
-/

namespace OpenAgent.Dag

open Library

variable {syntaxError : List Char → String} {options : DagEventReadOptions}
  {events : List ParsedEvent}

/-- The events of all pages, or nothing while a page is missing or cannot be read. -/
def readPages (syntaxError : List Char → String) (options : DagEventReadOptions) :
    Nat → List UInt8 → ℚ → Option (List ParsedEvent)
  | 0, _, _ => none
  | pages + 1, bytes, sinceSeq =>
    match readEvents syntaxError bytes sinceSeq options with
    | .error _ => none
    | .ok (page, repaired) =>
      if page.hasMore then
        (readPages syntaxError options pages repaired page.nextSinceSeq).map (page.events ++ ·)
      else some page.events

theorem keeps_of_le (earlier : since ≤ next) :
    options.keeps next event = (options.keeps since event && decide (next < event.seq)) := by
  by_cases later : next < event.seq
  · simp [DagEventReadOptions.keeps, later, lt_of_le_of_lt earlier later]
  · simp [DagEventReadOptions.keeps, later]

/-- Behind the last event of a full page come the events that did not fit on it. -/
theorem filter_keeps_next (rising : events.Pairwise fun left right => left.seq < right.seq)
    (split : events.filter (options.keeps since) = front ++ last :: back) :
    events.filter (options.keeps last.seq) = back := by
  have isKept : last ∈ events.filter (options.keeps since) := by simp [split]
  have earlier : since ≤ last.seq := by
    have kept := (List.mem_filter.mp isKept).2
    simp only [DagEventReadOptions.keeps, Bool.and_eq_true, decide_eq_true_eq] at kept
    exact kept.1.1.1.le
  have sorted := rising.filter (options.keeps since)
  rw [split, List.pairwise_append, List.pairwise_cons] at sorted
  obtain ⟨-, ⟨above, -⟩, below⟩ := sorted
  have same : events.filter (options.keeps last.seq) =
      (front ++ last :: back).filter fun event => decide (last.seq < event.seq) := by
    rw [← split, List.filter_filter]
    exact List.filter_congr fun event _ => by rw [keeps_of_le earlier, Bool.and_comm]
  have noneBefore : front.filter (fun event => decide (last.seq < event.seq)) = [] := by
    rw [List.filter_eq_nil_iff]
    intro event member
    simpa using (below event member last List.mem_cons_self).le
  have allBehind : back.filter (fun event => decide (last.seq < event.seq)) = back :=
    List.filter_eq_self.mpr fun event member => decide_eq_true (above event member)
  rw [same, List.filter_append, noneBefore, List.nil_append, List.filter_cons,
    if_neg (by simp), allBehind]

/-- Up to the last line break, the lines of a text are its complete lines. -/
theorem rawLines_take
    (isLast : ((rawLines offset current rest).filter (·.complete)).getLast? = some line) :
    ∃ count, line.endOffset = offset + current.length + count ∧
      rawLines offset current (rest.take count) =
        (rawLines offset current rest).filter (·.complete) := by
  induction rest generalizing offset current with
  | nil =>
    unfold rawLines at isLast
    split at isLast <;> simp at isLast
  | cons byte rest ih =>
    rw [rawLines] at isLast ⊢
    by_cases isBreak : byte = 10
    · rw [if_pos isBreak, List.filter_cons, if_pos rfl] at isLast ⊢
      cases later : ((rawLines (offset + current.length + 1) [] rest).filter
          (·.complete)).getLast? with
      | none =>
        rw [List.getLast?_eq_none_iff] at later
        rw [later] at isLast ⊢
        cases isLast
        exact ⟨1, rfl, by simp [rawLines, isBreak]⟩
      | some last =>
        rw [List.getLast?_cons, later] at isLast
        cases isLast
        obtain ⟨count, isEnd, same⟩ := ih later
        rw [List.length_nil] at isEnd
        refine ⟨count + 1, by omega, ?_⟩
        rw [List.take_succ_cons, rawLines, if_pos isBreak, same]
    · rw [if_neg isBreak] at isLast ⊢
      obtain ⟨count, isEnd, same⟩ := ih isLast
      rw [List.length_append, List.length_singleton] at isEnd
      refine ⟨count + 1, by omega, ?_⟩
      rw [List.take_succ_cons, rawLines, if_neg isBreak, same]

/-- A repaired log needs no repair. -/
theorem inspectEventLog_repaired (inspected : inspectEventLog syntaxError bytes = .ok repaired) :
    inspectEventLog syntaxError repaired = .ok repaired := by
  have whole : repaired = bytes → inspectEventLog syntaxError repaired = .ok repaired :=
    fun same => by rwa [← same] at inspected
  simp only [inspectEventLog, forEachRawLine_eq] at inspected
  cases visited : visitAll (parseEventLine syntaxError)
      ((rawLines 0 [] bytes).filter (·.complete)) with
  | error failure =>
    rw [visited] at inspected
    cases inspected
  | ok values =>
    rw [visited] at inspected
    have cut : repaired = bytes.take
        ((((rawLines 0 [] bytes).filter (·.complete)).getLast?.map (·.endOffset)).getD 0) →
          inspectEventLog syntaxError repaired = .ok repaired := by
      rintro rfl
      have lines : rawLines 0 [] (bytes.take
          ((((rawLines 0 [] bytes).filter (·.complete)).getLast?.map (·.endOffset)).getD 0)) =
            (rawLines 0 [] bytes).filter (·.complete) := by
        cases last : ((rawLines 0 [] bytes).filter (·.complete)).getLast? with
        | none =>
          rw [List.getLast?_eq_none_iff.mp last]
          rfl
        | some line =>
          obtain ⟨count, isEnd, same⟩ := rawLines_take last
          simpa [isEnd] using same
      simp only [inspectEventLog, forEachRawLine_eq, lines, List.filter_filter, Bool.and_self,
        Bool.not_and_self, List.filter_false, visited]
      rfl
    simp only [Except.bind, repairTail] at inspected
    split at inspected
    · exact whole (Except.ok.inj inspected).symm
    · split_ifs at inspected
      · exact whole (Except.ok.inj inspected).symm
      · split at inspected
        · exact whole (Except.ok.inj inspected).symm
        · split_ifs at inspected
          exact cut (Except.ok.inj inspected).symm
        · exact cut (Except.ok.inj inspected).symm

/-- Whatever the filters and the limit, the pages hold every matching event behind
the first cursor once and in order, and there are no more pages than events. -/
theorem readPages_eq (positive : 0 < options.limit)
    (inspected : inspectEventLog syntaxError bytes = .ok repaired)
    (parsed : parseLog syntaxError repaired = .ok events)
    (rising : events.Pairwise fun left right => left.seq < right.seq) (sinceSeq : ℚ)
    (enough : events.length < pages) :
    readPages syntaxError options pages bytes sinceSeq =
      some (events.filter (options.keeps sinceSeq)) := by
  have again := inspectEventLog_repaired inspected
  have fits : (events.filter (options.keeps sinceSeq)).length < pages :=
    Nat.lt_of_le_of_lt (List.length_filter_le _ _) enough
  clear enough
  induction pages generalizing bytes sinceSeq with
  | zero => omega
  | succ pages ih =>
    have page : readEvents syntaxError bytes sinceSeq options =
        .ok (pageOf events sinceSeq options, repaired) := by
      simp [readEvents, positive.ne', inspected, parsed, Except.bind]
    rw [readPages, page]
    simp only [pageOf, decide_eq_true_eq]
    split
    next more =>
      have split := List.take_append_drop options.limit (events.filter (options.keeps sinceSeq))
      have someEvents : (events.filter (options.keeps sinceSeq)).take options.limit ≠ [] := by
        rw [ne_eq, List.take_eq_nil_iff]
        rintro (isZero | isNil)
        · omega
        · rw [isNil] at more
          cases more
      obtain ⟨front, last, isPage⟩ := (List.eq_nil_or_concat _).resolve_left someEvents
      have isSplit : events.filter (options.keeps sinceSeq) =
          front ++ last :: (events.filter (options.keeps sinceSeq)).drop options.limit := by
        rw [← List.concat_append, ← isPage, split]
      have next := filter_keeps_next rising isSplit
      rw [isPage, List.concat_eq_append, List.getLast?_concat, Option.map_some, Option.getD_some,
        ih again last.seq (by rw [next, List.length_drop]; omega), next, Option.map_some,
        ← List.concat_eq_append, ← isPage, split]
    next whole => rw [List.take_of_length_le (Nat.le_of_not_lt whole)]

theorem readPages_eq_two :
    readPages unterminatedString { limit := 1, lane := none, types := none, throughSeq := none } 3
        (logBytes [bareEvent "dag.run.created" 1, bareEvent "dag.run.started" 2]) 0 =
      some [(bareEvent "dag.run.created" 1).parsed, (bareEvent "dag.run.started" 2).parsed] := by
  have pages := @readPages_eq unterminatedString
    { limit := 1, lane := none, types := none, throughSeq := none } _ _ _ _ (by decide)
    (inspectEventLog_log [bareEvent "dag.run.created" 1, bareEvent "dag.run.started" 2])
    (parseLog_log _) (by simp [WalEvent.parsed, bareEvent]) 0 (Nat.lt_succ_self 2)
  simpa [DagEventReadOptions.keeps, WalEvent.parsed, bareEvent] using pages

end OpenAgent.Dag
