import OpenAgent.Dag.EventLines

/-!
# Recovery of a torn event log

A crash leaves a log of complete lines and a tail.  The repair drops a tail
that is not an event and keeps one that is, so reads return exactly the events
whose text was persisted.  A kept tail has no line break, though, and the next
append writes behind it on the same line; the theorem below therefore asks
that nothing is written while the log ends inside a line.
-/

namespace OpenAgent.Dag

open Library

/-- The shapes of a log between two steps. -/
inductive LogShape : LogState → Prop
  /-- Every line is complete. -/
  | complete (events : List WalEvent) (opened : Bool) :
      LogShape { bytes := logBytes events, opened := opened, accepted := events }
  /-- The last text is complete but its line break is missing. -/
  | unterminated (events : List WalEvent) (event : WalEvent) (opened : Bool) : LogShape
        { bytes := logBytes events ++ event.textBytes
          opened := opened
          accepted := events ++ [event] }
  /-- The last text was cut, and no store has been opened since. -/
  | torn (events : List WalEvent) (event : WalEvent) (kept lost : List UInt8)
      (split : kept ++ lost = event.textBytes) (some : kept ≠ []) (cut : lost ≠ []) :
      LogShape { bytes := logBytes events ++ kept, opened := false, accepted := events }

/-- The accepted events are numbered from one. -/
def Numbered (events : List WalEvent) : Prop :=
  events.map (·.seq) = List.range' 1 events.length

structure LogInvariant (state : LogState) : Prop where
  shape : LogShape state
  numbered : Numbered state.accepted

/-- The log ends behind a line break, or is empty. -/
def EndsLine (bytes : List UInt8) : Prop :=
  bytes = [] ∨ bytes.getLast? = some 10
  deriving Decidable

/-- Nothing is written while the log ends inside a line. -/
def WritesOnFreshLine (state : LogState) (action : LogAction) (_ : LogState) : Prop :=
  match action with
  | .append _ => EndsLine state.bytes
  | .appendCrash _ persisted => persisted = 0 ∨ EndsLine state.bytes
  | .reopen | .read _ _ => True

instance (state next : LogState) : ∀ action, Decidable (WritesOnFreshLine state action next) := by
  intro action
  unfold WritesOnFreshLine
  split <;> infer_instance

private theorem not_endsLine_unterminated (event : WalEvent) :
    ¬ EndsLine (logBytes events ++ event.textBytes) := by
  have nonempty := textBytes_ne_nil event
  rintro (empty | newline)
  · exact nonempty (List.append_eq_nil_iff.mp empty).2
  · rw [List.getLast?_append_of_ne_nil _ nonempty] at newline
    exact newline_notMem_textBytes event (List.mem_of_getLast? newline)

private theorem numbered_concat (numbered : Numbered events)
    (next : event.seq = events.length + 1) : Numbered (events ++ [event]) := by
  unfold Numbered at numbered ⊢
  rw [List.map_append, numbered, List.length_append, List.length_singleton,
    List.range'_concat, List.map_singleton, next]
  simp [Nat.add_comm]

private theorem lastSeq (numbered : Numbered events) :
    (((events.map WalEvent.parsed).getLast?.map (·.seq)).getD 0 : ℚ) =
      events.length := by
  have last := congrArg List.getLast? numbered
  rw [List.getLast?_map] at last
  rw [List.getLast?_map]
  cases events with
  | nil => rfl
  | cons event events =>
    cases ending : (event :: events).getLast? with
    | none => simp at ending
    | some final =>
      rw [ending] at last
      simp only [Option.map_some, List.length_cons, List.range'_concat,
        List.getLast?_concat, Option.some.injEq] at last
      simp only [Option.map_some, WalEvent.parsed, Option.getD_some, last, List.length_cons]
      push_cast
      linarith

section Steps

/-- What an append on a readable log does. -/
private theorem appendEvent_eq
    (parsed : parseLog syntaxError bytes = .ok (events.map WalEvent.parsed))
    (numbered : Numbered events) :
    appendEvent syntaxError bytes event =
      if event.seq ≤ maxSafeInteger ∧ event.seq = events.length + 1 then
        .ok (bytes ++ event.lineBytes)
      else .error (.seqMismatch (events.length + 1) event.seq) := by
  have cast : ((event.seq : ℚ) = (events.length : ℚ) + 1) ↔ event.seq = events.length + 1 := by
    exact_mod_cast Iff.rfl
  simp only [appendEvent, eventLogTailSeq, assertSupportedSchema_json, parsed,
    Except.bind, lastSeq numbered, cast]

private theorem invariant_reopen (quiet : QuietOnCuts syntaxError) (invariant : LogInvariant state)
    (taken : logStep syntaxError state .reopen = some next) : LogInvariant next := by
  obtain ⟨shape, numbered⟩ := invariant
  cases shape with
  | complete events opened =>
    simp only [logStep, inspectEventLog_log, Option.some.injEq] at taken
    subst taken
    exact ⟨.complete events true, numbered⟩
  | unterminated events event opened =>
    simp only [logStep, inspectEventLog_unterminated, Option.some.injEq] at taken
    subst taken
    exact ⟨.unterminated events event true, numbered⟩
  | torn events event kept lost split nonempty cut =>
    simp only [logStep, inspectEventLog_torn quiet split nonempty cut, Option.some.injEq] at taken
    subst taken
    exact ⟨.complete events true, numbered⟩

private theorem invariant_append (invariant : LogInvariant state) (fresh : EndsLine state.bytes)
    (taken : logStep syntaxError state (.append event) = some next) : LogInvariant next := by
  obtain ⟨shape, numbered⟩ := invariant
  cases shape with
  | complete events opened =>
    cases opened with
    | false => simp [logStep] at taken
    | true =>
      simp only [logStep, if_true, appendEvent_eq (parseLog_log events) numbered]
        at taken
      by_cases isNext : event.seq ≤ maxSafeInteger ∧ event.seq = events.length + 1
      · simp only [if_pos isNext, Option.some.injEq] at taken
        subst taken
        rw [← logBytes_concat]
        exact ⟨.complete (events ++ [event]) true, numbered_concat numbered isNext.2⟩
      · simp only [if_neg isNext, Option.some.injEq] at taken
        subst taken
        exact ⟨.complete events true, numbered⟩
  | unterminated events last opened => exact absurd fresh (not_endsLine_unterminated last)
  | torn => simp [logStep] at taken

/-- The log after a crash with part of the line written. -/
private theorem shape_crash (event : WalEvent) :
    LogShape
      { bytes := logBytes events ++ event.lineBytes.take persisted
        opened := false
        accepted :=
          if event.textBytes.length ≤ persisted then events ++ [event] else events } := by
  rcases Nat.lt_trichotomy persisted event.textBytes.length with short | exact_ | long
  · rw [if_neg (by omega), WalEvent.lineBytes, List.take_append_of_le_length (by omega)]
    by_cases nothing : persisted = 0
    · rw [nothing, List.take_zero, List.append_nil]
      exact .complete events false
    · refine .torn events event (event.textBytes.take persisted)
        (event.textBytes.drop persisted) (List.take_append_drop _ _) ?_ ?_
      · intro empty
        rw [List.take_eq_nil_iff] at empty
        exact empty.elim nothing (textBytes_ne_nil event)
      · intro empty
        rw [List.drop_eq_nil_iff] at empty
        omega
  · rw [if_pos (by omega), WalEvent.lineBytes, exact_, List.take_left]
    exact .unterminated events event false
  · have whole : event.lineBytes.take persisted = event.lineBytes := by
      apply List.take_of_length_le
      rw [WalEvent.lineBytes, List.length_append, List.length_singleton]
      omega
    rw [if_pos (by omega), whole, ← logBytes_concat]
    exact .complete (events ++ [event]) false

private theorem invariant_appendCrash (invariant : LogInvariant state)
    (fresh : persisted = 0 ∨ EndsLine state.bytes)
    (taken : logStep syntaxError state (.appendCrash event persisted) = some next) :
    LogInvariant next := by
  obtain ⟨shape, numbered⟩ := invariant
  cases shape with
  | complete events opened =>
    cases opened with
    | false => simp [logStep] at taken
    | true =>
      simp only [logStep, if_true, appendEvent_eq (parseLog_log events) numbered]
        at taken
      by_cases isNext : event.seq ≤ maxSafeInteger ∧ event.seq = events.length + 1
      · simp only [if_pos isNext, Option.some.injEq] at taken
        subst taken
        refine ⟨shape_crash event, ?_⟩
        split
        · exact numbered_concat numbered isNext.2
        · exact numbered
      · simp only [if_neg isNext, Option.some.injEq] at taken
        subst taken
        exact ⟨.complete events false, numbered⟩
  | unterminated events last opened =>
    have nothing := fresh.resolve_right (not_endsLine_unterminated last)
    have positive := List.length_pos_of_ne_nil (textBytes_ne_nil event)
    cases opened with
    | false => simp [logStep] at taken
    | true =>
      have unchanged : next =
          { bytes := logBytes events ++ last.textBytes
            opened := false
            accepted := events ++ [last] } := by
        simp only [logStep, if_true] at taken
        split at taken
        · rw [nothing, List.take_zero, List.append_nil, if_neg (by omega)] at taken
          exact (Option.some.inj taken).symm
        · exact (Option.some.inj taken).symm
      rw [unchanged]
      exact ⟨.unterminated events last false, numbered⟩
  | torn => simp [logStep] at taken

variable (quiet : QuietOnCuts syntaxError)
include quiet

/-- A read of a log in any shape. -/
private theorem readEvents_shape (shape : LogShape state) (sinceSeqExclusive : ℚ)
    (valid : options.limit ≠ 0) :
    ∃ repaired, readEvents syntaxError state.bytes sinceSeqExclusive options =
        .ok (pageOf (state.accepted.map WalEvent.parsed) sinceSeqExclusive options, repaired) ∧
      LogShape { state with bytes := repaired } := by
  cases shape with
  | complete events opened =>
    refine ⟨logBytes events, ?_, .complete events opened⟩
    simp [readEvents, valid, inspectEventLog_log, parseLog_log, Except.bind]
  | unterminated events event opened =>
    refine ⟨logBytes events ++ event.textBytes, ?_, .unterminated events event opened⟩
    simp [readEvents, valid, inspectEventLog_unterminated, parseLog_unterminated, Except.bind]
  | torn events event kept lost split nonempty cut =>
    refine ⟨logBytes events, ?_, .complete events false⟩
    simp [readEvents, valid, inspectEventLog_torn quiet split nonempty cut,
      parseLog_log, Except.bind]

private theorem invariant_read (invariant : LogInvariant state)
    (taken : logStep syntaxError state (.read sinceSeqExclusive options) = some next) :
    LogInvariant next := by
  by_cases valid : options.limit = 0
  · simp only [logStep, readEvents, valid, if_true] at taken
    split at taken
    · cases taken
      exact invariant
    · cases taken
  · obtain ⟨repaired, success, shape⟩ :=
      readEvents_shape quiet invariant.shape sinceSeqExclusive valid
    simp only [logStep, success] at taken
    split at taken
    · cases taken
      exact ⟨shape, invariant.numbered⟩
    · cases taken

theorem logInvariant_step (state : LogState) (action : LogAction) (next : LogState)
    (invariant : LogInvariant state) (fresh : WritesOnFreshLine state action next)
    (taken : logStep syntaxError state action = some next) : LogInvariant next := by
  cases action with
  | reopen => exact invariant_reopen quiet invariant taken
  | append event => exact invariant_append invariant fresh taken
  | appendCrash event persisted => exact invariant_appendCrash invariant fresh taken
  | read sinceSeqExclusive options => exact invariant_read quiet invariant taken

end Steps

/-- Every read succeeds as if the log held exactly the accepted events, and a
read from the beginning returns them all in order. -/
structure ReadsBack (syntaxError : List Char → String) (state : LogState) : Prop where
  page : ∀ (sinceSeqExclusive : ℚ) (options : DagEventReadOptions), options.limit ≠ 0 →
    ∃ repaired, readEvents syntaxError state.bytes sinceSeqExclusive options =
      .ok (pageOf (state.accepted.map WalEvent.parsed) sinceSeqExclusive options, repaired)
  whole : ∀ limit, state.accepted.length ≤ limit →
    (pageOf (state.accepted.map WalEvent.parsed) 0
      { limit := limit, lane := none, types := none, throughSeq := none }).events =
        state.accepted.map WalEvent.parsed

private theorem pageOf_whole (numbered : Numbered events) (fits : events.length ≤ limit) :
    (pageOf (events.map WalEvent.parsed) 0
      { limit := limit, lane := none, types := none, throughSeq := none }).events =
        events.map WalEvent.parsed := by
  have positive : ∀ event ∈ events, 0 < event.seq := by
    intro event member
    have inRange : event.seq ∈ List.range' 1 events.length := by
      rw [← numbered]
      exact List.mem_map_of_mem member
    rw [List.mem_range'_1] at inRange
    omega
  have allKept : (events.map WalEvent.parsed).filter (DagEventReadOptions.keeps
      { limit := limit, lane := none, types := none, throughSeq := none } 0) =
        events.map WalEvent.parsed := by
    rw [List.filter_eq_self]
    intro parsed member
    obtain ⟨event, inEvents, rfl⟩ := List.mem_map.mp member
    simpa [DagEventReadOptions.keeps, WalEvent.parsed] using positive event inEvents
  simp only [pageOf, allKept]
  exact List.take_of_length_le (by rwa [List.length_map])

/-- In every run whose writes all begin on a fresh line, whatever appends
crash wherever, reads return exactly the accepted events. -/
theorem readsBack_of_writesOnFreshLine {syntaxError : List Char → String}
    (quiet : QuietOnCuts syntaxError) {actions : List LogAction} {final : LogState}
    (reached : execute (logStep syntaxError) emptyLog actions = some final)
    (fresh : EveryStep (logStep syntaxError) WritesOnFreshLine emptyLog actions) :
    ReadsBack syntaxError final := by
  have initially : LogInvariant emptyLog := ⟨.complete [] false, rfl⟩
  obtain ⟨shape, numbered⟩ :=
    invariant_of_execute (logInvariant_step quiet) initially reached fresh
  constructor
  · intro sinceSeqExclusive options valid
    obtain ⟨repaired, success, _⟩ :=
      readEvents_shape quiet shape sinceSeqExclusive valid
    exact ⟨repaired, success⟩
  · intro limit fits
    exact pageOf_whole numbered fits

/-- An event without further payload members. -/
def bareEvent (eventType : String) (seq : Nat) : WalEvent where
  eventType := eventType
  payload := []
  oneType := by simp
  runId := "dag_1"
  seq := seq
  atTime := "2026-01-01T00:00:00.000Z"
  lane := .boundary

/-- The engine's message for a text that ends inside its first key. -/
def unterminatedString (_text : List Char) : String :=
  "Unterminated string in JSON at position 5 (line 1 column 6)"

private theorem quiet_unterminatedString : QuietOnCuts unterminatedString := by
  intro text _
  change includesText ("malformed JSON: " ++
    "Unterminated string in JSON at position 5 (line 1 column 6)") "schemaVersion" = false
  decide +kernel

theorem readsBack_after_cut :
    ∃ final, execute (logStep unterminatedString) emptyLog
        [.reopen, .appendCrash (bareEvent "dag.run.created" 1) 5, .reopen,
          .append (bareEvent "dag.run.created" 1)] = some final ∧
      final.accepted = [bareEvent "dag.run.created" 1] ∧
      ReadsBack unterminatedString final := by
  obtain ⟨middle, crashed, none, opened, written⟩ : ∃ middle,
      execute (logStep unterminatedString) emptyLog
        [.reopen, .appendCrash (bareEvent "dag.run.created" 1) 5, .reopen] = some middle ∧
      middle.accepted.length = 0 ∧ middle.opened = true ∧
      (appendEvent unterminatedString middle.bytes
        (bareEvent "dag.run.created" 1)).toOption.isSome = true := by
    decide +kernel
  cases appended : appendEvent unterminatedString middle.bytes (bareEvent "dag.run.created" 1) with
  | error failure =>
    rw [appended] at written
    cases written
  | ok bytes =>
    have wrote : execute (logStep unterminatedString) middle
        [.append (bareEvent "dag.run.created" 1)] = some { middle with
          bytes := bytes, accepted := middle.accepted ++ [bareEvent "dag.run.created" 1] } := by
      simp [execute, logStep, opened, appended]
    have reached := execute_append_eq_some.mpr ⟨middle, crashed, wrote⟩
    refine ⟨_, reached, by simp [List.length_eq_zero_iff.mp none], ?_⟩
    exact readsBack_of_writesOnFreshLine quiet_unterminatedString reached (by decide +kernel)

/-- A crash between the text and its line break, then one more append. -/
theorem not_readsBack_after_missing_newline :
    ¬ ∀ actions final, execute (logStep unterminatedString) emptyLog actions = some final →
        ReadsBack unterminatedString final := by
  intro always
  obtain ⟨final, reached, failure⟩ : ∃ final,
      execute (logStep unterminatedString) emptyLog
        [.reopen, .appendCrash (bareEvent "dag.run.created" 1)
          (bareEvent "dag.run.created" 1).textBytes.length, .reopen,
          .append (bareEvent "dag.run.started" 2)] = some final ∧
      (readEvents unterminatedString final.bytes 0
        { limit := 1, lane := none, types := none, throughSeq := none }).toOption.isNone = true := by
    decide +kernel
  obtain ⟨repaired, success⟩ := (always _ final reached).page 0
    { limit := 1, lane := none, types := none, throughSeq := none } (by decide)
  rw [success] at failure
  cases failure

/-- A repair keeps the accepted events, and leaves nothing to repair. -/
theorem inspectEventLog_shape (quiet : QuietOnCuts syntaxError) (shape : LogShape state) :
    ∃ repaired, inspectEventLog syntaxError state.bytes = .ok repaired ∧
      parseLog syntaxError repaired = .ok (state.accepted.map WalEvent.parsed) ∧
      inspectEventLog syntaxError repaired = .ok repaired := by
  cases shape with
  | complete events opened =>
    exact ⟨_, inspectEventLog_log events, parseLog_log events, inspectEventLog_log events⟩
  | unterminated events event opened =>
    exact ⟨_, inspectEventLog_unterminated .., parseLog_unterminated ..,
      inspectEventLog_unterminated ..⟩
  | torn events event kept lost split nonempty cut =>
    exact ⟨_, inspectEventLog_torn quiet split nonempty cut, parseLog_log events,
      inspectEventLog_log events⟩

/-- Wherever the write of one more line is cut, the repair keeps the events of the log, and the
new one exactly if its text is whole. -/
theorem inspectEventLog_crash {syntaxError : List Char → String}
    (quiet : QuietOnCuts syntaxError) (events : List WalEvent) (event : WalEvent)
    (persisted : Nat) : ∃ repaired,
      inspectEventLog syntaxError (logBytes events ++ event.lineBytes.take persisted) =
        .ok repaired ∧
      parseLog syntaxError repaired = .ok ((if event.textBytes.length ≤ persisted
        then events ++ [event] else events).map WalEvent.parsed) ∧
      inspectEventLog syntaxError repaired = .ok repaired :=
  inspectEventLog_shape quiet (shape_crash event)

theorem inspectEventLog_crash_cut : ∃ repaired,
    inspectEventLog unterminatedString ((bareEvent "dag.run.created" 1).lineBytes.take 5) =
      .ok repaired ∧ parseLog unterminatedString repaired = .ok [] := by
  obtain ⟨repaired, inspected, parsed, _⟩ :=
    inspectEventLog_crash quiet_unterminatedString [] (bareEvent "dag.run.created" 1) 5
  rw [if_neg (by decide +kernel)] at parsed
  exact ⟨repaired, inspected, parsed⟩

end OpenAgent.Dag
