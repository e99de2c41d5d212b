import OpenAgent.Dag.EventLog

/-!
# The lines of an event log

The buffered scan finds the lines of the file.  A completely written line
parses to its event and a line cut before the end of its text does not parse,
so the repair keeps complete texts and drops cut ones.
-/

namespace OpenAgent.Dag

open Library

/-- The lines of a text, from an offset and the bytes of the open line. -/
def rawLines : Nat → List UInt8 → List UInt8 → List RawLine
  | offset, current, [] =>
    if current.isEmpty then []
    else
      [{ line := current
         endOffset := offset + current.length
         complete := false }]
  | offset, current, byte :: rest =>
    if byte = 10 then
      { line := current
        endOffset := offset + current.length + 1
        complete := true } :: rawLines (offset + current.length + 1) [] rest
    else rawLines offset (current ++ [byte]) rest

/-- The lines a scan reports when the given bytes are still to come. -/
private def LineScan.finish (scan : LineScan) (rest : List UInt8) : List RawLine :=
  scan.visited ++
    rawLines (scan.offset - scan.pending.flatten.length) scan.pending.flatten rest

/-- Buffers are kept only when they hold something, and are counted. -/
private structure LineScan.Sound (scan : LineScan) : Prop where
  nonempty : ∀ buffer ∈ scan.pending, buffer ≠ []
  counted : scan.pending.flatten.length ≤ scan.offset

private theorem scanChunk_sound (sound : scan.Sound) (current : List UInt8) :
    (scanChunk current chunk scan).Sound := by
  induction chunk generalizing current scan with
  | nil =>
    unfold scanChunk
    by_cases empty : current.isEmpty = true
    · rw [if_pos empty]
      exact sound
    · rw [if_neg empty]
      constructor
      · exact forall_mem_concat sound.nonempty
          fun nothing => empty (List.isEmpty_iff.mpr nothing)
      · have counted := sound.counted
        simp only [List.flatten_append, List.flatten_singleton, List.length_append]
        omega
  | cons byte rest ih =>
    unfold scanChunk
    split
    · exact ih ⟨by simp, by simp⟩ []
    · exact ih sound (current ++ [byte])

private theorem scanChunk_finish (sound : scan.Sound) :
    (scanChunk current chunk scan).finish rest =
      scan.visited ++ rawLines (scan.offset - scan.pending.flatten.length)
        (scan.pending.flatten ++ current) (chunk ++ rest) := by
  induction chunk generalizing current scan with
  | nil =>
    unfold scanChunk
    by_cases empty : current.isEmpty = true
    · rw [List.isEmpty_iff.mp empty, List.append_nil]
      rfl
    · rw [if_neg empty]
      have offsets : scan.offset + current.length - (scan.pending.flatten.length + current.length) =
            scan.offset - scan.pending.flatten.length := by
        omega
      simp only [LineScan.finish, List.flatten_append, List.flatten_singleton,
        List.length_append, offsets, List.nil_append]
  | cons byte tail ih =>
    unfold scanChunk
    rw [List.cons_append, rawLines]
    by_cases newline : byte = 10
    · rw [if_pos newline, if_pos newline, ih ⟨by simp, by simp⟩]
      have counted := sound.counted
      have offsets : scan.offset - scan.pending.flatten.length +
          (scan.pending.flatten ++ current).length + 1 = scan.offset + current.length + 1 := by
        rw [List.length_append]
        omega
      rw [offsets]
      simp
    · rw [if_neg newline, if_neg newline, ih sound, List.append_assoc]

private theorem readChunks_flatten (bytes : List UInt8) (enough : bytes.length ≤ fuel) :
    (readChunks fuel bytes).flatten = bytes := by
  induction fuel generalizing bytes with
  | zero =>
    rw [List.length_eq_zero_iff.mp (Nat.le_zero.mp enough)]
    rfl
  | succ fuel ih =>
    unfold readChunks
    by_cases empty : bytes.isEmpty = true
    · rw [List.isEmpty_iff.mp empty]
      rfl
    · rw [if_neg empty, List.flatten_cons, ih, List.take_append_drop]
      have size : readBufferBytes = 65536 := rfl
      rw [List.length_drop]
      omega

private theorem foldl_scanChunk (chunks : List (List UInt8)) (sound : scan.Sound) :
    (chunks.foldl (fun scan chunk => scanChunk [] chunk scan) scan).Sound ∧
      ∀ rest, (chunks.foldl (fun scan chunk => scanChunk [] chunk scan) scan).finish
        rest = scan.finish (chunks.flatten ++ rest) := by
  induction chunks generalizing scan with
  | nil => exact ⟨sound, fun _ => rfl⟩
  | cons chunk chunks ih =>
    obtain ⟨soundAfter, finishes⟩ :=
      ih (scanChunk_sound sound [])
    refine ⟨soundAfter, fun rest => ?_⟩
    rw [List.foldl_cons, finishes, scanChunk_finish sound, List.append_nil,
      List.flatten_cons, List.append_assoc]
    rfl

/-- Reading through a buffer finds the lines of the file. -/
theorem forEachRawLine_eq : forEachRawLine bytes = rawLines 0 [] bytes := by
  have fresh : LineScan.Sound { pending := [], offset := 0, visited := [] } :=
    ⟨by simp, by simp⟩
  obtain ⟨sound, finishes⟩ := foldl_scanChunk (readChunks bytes.length bytes) fresh
  have finished := finishes []
  rw [readChunks_flatten _ (Nat.le_refl _), List.append_nil] at finished
  have start : LineScan.finish { pending := [], offset := 0, visited := [] } bytes =
      rawLines 0 [] bytes := rfl
  rw [start] at finished
  rw [← finished, forEachRawLine]
  generalize (readChunks bytes.length bytes).foldl
    (fun scan chunk => scanChunk [] chunk scan)
    { pending := [], offset := 0, visited := [] } = scan at sound
  simp only [LineScan.finish, rawLines]
  have counted := sound.counted
  by_cases empty : scan.pending = []
  · simp [empty]
  · obtain ⟨buffer, others, pendingEq⟩ := List.exists_cons_of_ne_nil empty
    have notEmpty := sound.nonempty buffer (by rw [pendingEq]; exact List.mem_cons_self)
    have flattened : scan.pending.flatten ≠ [] := by
      rw [pendingEq]
      intro nothing
      exact notEmpty (List.append_eq_nil_iff.mp nothing).1
    have offsets : scan.offset - scan.pending.flatten.length +
        scan.pending.flatten.length = scan.offset := by
      omega
    simp only [List.isEmpty_iff, empty, flattened, if_false, offsets]

/-- The bytes of completely written events. -/
def logBytes (events : List WalEvent) : List UInt8 :=
  events.flatMap WalEvent.lineBytes

@[simp] theorem logBytes_nil : logBytes [] = [] := rfl

@[simp] theorem logBytes_cons (event : WalEvent) (events : List WalEvent) :
    logBytes (event :: events) = event.textBytes ++ 10 :: logBytes events := by
  simp [logBytes, WalEvent.lineBytes]

theorem logBytes_concat :
    logBytes (events ++ [event]) = logBytes events ++ event.lineBytes := by
  simp [logBytes]

theorem newline_notMem_textBytes (event : WalEvent) : (10 : UInt8) ∉ event.textBytes :=
  newline_notMem_encodeUtf8 (newline_notMem_stringify event.json)

/-- The calls of the visitor for completely written events. -/
private def completeLines : Nat → List WalEvent → List RawLine
  | _, [] => []
  | offset, event :: events =>
    { line := event.textBytes
      endOffset := offset + event.textBytes.length + 1
      complete := true } :: completeLines (offset + event.textBytes.length + 1) events

/-- The call of the visitor for the bytes behind the last line break. -/
private def tailLine (offset : Nat) (tail : List UInt8) : List RawLine :=
  if tail.isEmpty then []
  else [{ line := tail, endOffset := offset + tail.length, complete := false }]

theorem rawLines_segment {segment} (oneLine : (10 : UInt8) ∉ segment) (offset : Nat)
    (current rest : List UInt8) :
    rawLines offset current (segment ++ rest) = rawLines offset (current ++ segment) rest := by
  induction segment generalizing current with
  | nil => rw [List.nil_append, List.append_nil]
  | cons byte segment ih =>
    rw [List.mem_cons, not_or] at oneLine
    rw [List.cons_append, rawLines, if_neg (Ne.symm oneLine.1), ih oneLine.2, List.append_assoc]
    rfl

private theorem rawLines_log (events : List WalEvent) (oneLine : (10 : UInt8) ∉ tail)
    (offset : Nat) :
    rawLines offset [] (logBytes events ++ tail) = completeLines offset events ++
        tailLine (offset + (logBytes events).length) tail := by
  induction events generalizing offset with
  | nil =>
    have segment := rawLines_segment oneLine offset [] []
    rw [List.append_nil] at segment
    rw [logBytes_nil, List.nil_append, segment]
    rfl
  | cons event events ih =>
    rw [logBytes_cons, List.append_assoc, List.cons_append,
      rawLines_segment (newline_notMem_textBytes event), List.nil_append, rawLines,
      if_pos rfl, ih, completeLines, List.cons_append]
    have offsets : offset + event.textBytes.length + 1 + (logBytes events).length =
        offset + (event.textBytes ++ 10 :: logBytes events).length := by
      simp only [List.length_append, List.length_cons]
      omega
    rw [offsets]

private theorem completeLines_complete (offset : Nat) :
    ∀ line ∈ completeLines offset events, line.complete = true := by
  induction events generalizing offset with
  | nil => simp [completeLines]
  | cons event events ih =>
    intro line member
    rcases List.mem_cons.mp member with rfl | later
    · rfl
    · exact ih _ line later

private theorem completeLines_lastOffset (offset : Nat) (events : List WalEvent) :
    ((completeLines offset events).getLast?.map (·.endOffset)).getD offset =
      offset + (logBytes events).length := by
  induction events generalizing offset with
  | nil => rfl
  | cons event events ih =>
    rw [completeLines, List.getLast?_cons]
    have later := ih (offset + event.textBytes.length + 1)
    rw [logBytes_cons, List.length_append, List.length_cons]
    cases ending : (completeLines (offset + event.textBytes.length + 1) events).getLast? with
    | none =>
      rw [ending] at later
      simp only [Option.map_none, Option.getD_none] at later
      simp only [Option.getD_none, Option.map_some, Option.getD_some]
      omega
    | some line =>
      rw [ending] at later
      simp only [Option.map_some, Option.getD_some] at later ⊢
      omega

section

variable (event : WalEvent)

/-- An event as it is read back. -/
def WalEvent.parsed : ParsedEvent where
  value := event.json
  seq := event.seq
  eventType := unitsOf event.eventType

private theorem member_schemaVersion :
    event.json.member "schemaVersion" = some (.number (naturalLiteral 1)) := by
  have lane : (unitsOf "lane" == unitsOf "schemaVersion") = false := by decide
  have atTime : (unitsOf "at" == unitsOf "schemaVersion") = false := by decide
  have seq : (unitsOf "seq" == unitsOf "schemaVersion") = false := by decide
  have runId : (unitsOf "runId" == unitsOf "schemaVersion") = false := by decide
  simp [WalEvent.json, WalEvent.members, Json.member, lane, atTime, seq, runId]

private theorem member_seq :
    event.json.member "seq" = some (.number (naturalLiteral event.seq)) := by
  have lane : (unitsOf "lane" == unitsOf "seq") = false := by decide
  have atTime : (unitsOf "at" == unitsOf "seq") = false := by decide
  simp [WalEvent.json, WalEvent.members, Json.member, lane, atTime]

private theorem member_type :
    event.json.member "type" = some (.string (unitsOf event.eventType)) := by
  have lane : (unitsOf "lane" == unitsOf "type") = false := by decide
  have atTime : (unitsOf "at" == unitsOf "type") = false := by decide
  have seq : (unitsOf "seq" == unitsOf "type") = false := by decide
  have runId : (unitsOf "runId" == unitsOf "type") = false := by decide
  have version : (unitsOf "schemaVersion" == unitsOf "type") = false := by decide
  have payload : event.payload.reverse.find? (fun member => member.1 == unitsOf "type") = none := by
    rw [List.find?_eq_none]
    intro member inPayload
    simpa using event.oneType member (List.mem_reverse.mp inPayload)
  simp [WalEvent.json, WalEvent.members, Json.member, lane, atTime, seq, runId, version, payload]

theorem assertSupportedSchema_json : assertSupportedSchema event.json = .ok () := by
  simp [assertSupportedSchema, member_schemaVersion]

private theorem parseEvent_json : parseEvent event.json = .ok event.parsed := by
  simp [parseEvent, assertSupportedSchema_json, member_seq, member_type, Except.bind,
    WalEvent.parsed]

end

section Recovery

/-- A completely written line parses to its event. -/
theorem parseEventLine_textBytes (event : WalEvent) :
    parseEventLine syntaxError event.textBytes = .ok event.parsed := by
  rw [parseEventLine, WalEvent.textBytes, decodeUtf8_encodeUtf8, parseJsonText, parseJson_stringify]
  exact parseEvent_json event

/-- The text a tail decodes to when its event was cut. -/
def CutText (text : List Char) : Prop :=
  ∃ (event : WalEvent) (kept lost : List UInt8),
    kept ++ lost = event.textBytes ∧ kept ≠ [] ∧ lost ≠ [] ∧ decodeUtf8 kept = text

/-- A line cut anywhere before the end of its text is not JSON. -/
theorem parseEventLine_cut {event : WalEvent} (split : kept ++ lost = event.textBytes)
    (cut : lost ≠ []) :
    parseEventLine syntaxError kept = .error (.journalCorrupt
      ("malformed JSON: " ++ syntaxError (decodeUtf8 kept))) := by
  obtain ⟨before, after, textEq, nonempty, decoded⟩ := decodeUtf8_cut split cut
  have notJson : parseJson (decodeUtf8 kept) = none := by
    rcases decoded with clean | torn
    · rw [clean]
      exact parseJson_cut textEq nonempty
    · rw [torn]
      exact parseJson_cut_replacement textEq
  rw [parseEventLine, parseJsonText, notJson]
  rfl

private theorem visitAll_completeLines (offset : Nat) (events : List WalEvent) :
    visitAll (parseEventLine syntaxError) (completeLines offset events) =
      .ok (events.map WalEvent.parsed) := by
  induction events generalizing offset with
  | nil => rfl
  | cons event events ih =>
    simp [completeLines, visitAll, parseEventLine_textBytes, ih, Except.bind]

private theorem visitAll_append (firstOk : visitAll visit first = .ok results)
    (secondOk : visitAll visit second = .ok more) :
    visitAll visit (first ++ second) = .ok (results ++ more) := by
  induction first generalizing results with
  | nil =>
    cases firstOk
    exact secondOk
  | cons line lines ih =>
    rw [List.cons_append, visitAll]
    rw [visitAll] at firstOk
    cases head : visit line.line with
    | error problem =>
      rw [head] at firstOk
      cases firstOk
    | ok value =>
      rw [head] at firstOk
      cases rest : visitAll visit lines with
      | error problem =>
        rw [rest] at firstOk
        cases firstOk
      | ok values =>
        rw [rest] at firstOk
        cases firstOk
        simp [Except.bind, ih rest]

private theorem filter_completeLines (offset : Nat) (events : List WalEvent)
    (keeps : ∀ line : RawLine, line.complete = true → keep line = true) :
    (completeLines offset events).filter keep = completeLines offset events :=
  List.filter_eq_self.mpr fun line member =>
    keeps line (completeLines_complete offset line member)

private theorem filter_completeLines_eq_nil (offset : Nat) (events : List WalEvent) :
    (completeLines offset events).filter (!·.complete) = [] := by
  rw [List.filter_eq_nil_iff]
  intro line member
  simp [completeLines_complete offset line member]

/-- The repair of a log that ends behind a line break. -/
theorem inspectEventLog_log (events : List WalEvent) :
    inspectEventLog syntaxError (logBytes events) = .ok (logBytes events) := by
  have lines := rawLines_log events (List.not_mem_nil (a := (10 : UInt8))) 0
  rw [List.append_nil] at lines
  unfold inspectEventLog
  simp only [forEachRawLine_eq, lines, tailLine, List.isEmpty_nil, if_true, List.append_nil]
  rw [filter_completeLines _ _ (fun _ complete => complete),
    filter_completeLines_eq_nil, visitAll_completeLines]
  rfl

private theorem lines_tail (oneLine : (10 : UInt8) ∉ tail) (nonempty : tail ≠ []) :
    forEachRawLine (logBytes events ++ tail) = completeLines 0 events ++
        [{ line := tail
           endOffset := (logBytes events).length + tail.length
           complete := false }] := by
  rw [forEachRawLine_eq, rawLines_log events oneLine, tailLine,
    if_neg (by simpa using nonempty), Nat.zero_add]

private theorem inspectEventLog_tail (events : List WalEvent) (oneLine : (10 : UInt8) ∉ tail)
    (nonempty : tail ≠ []) :
    inspectEventLog syntaxError (logBytes events ++ tail) =
      repairTail syntaxError (logBytes events ++ tail) (logBytes events).length tail := by
  have lastOffset := completeLines_lastOffset 0 events
  rw [Nat.zero_add] at lastOffset
  have notEmpty : tail.isEmpty = false := by simpa using nonempty
  unfold inspectEventLog
  simp only [lines_tail oneLine nonempty, List.filter_append]
  rw [filter_completeLines _ _ (fun _ complete => complete), filter_completeLines_eq_nil]
  simp only [List.filter_cons, List.filter_nil, Bool.false_eq_true, if_false,
    Bool.not_false, if_true, List.append_nil, List.nil_append,
    visitAll_completeLines, lastOffset, Except.bind, List.getLast?_singleton, notEmpty]

theorem parseLog_log (events : List WalEvent) :
    parseLog syntaxError (logBytes events) = .ok (events.map WalEvent.parsed) := by
  have lines := rawLines_log events (List.not_mem_nil (a := (10 : UInt8))) 0
  rw [List.append_nil] at lines
  unfold parseLog
  rw [forEachRawLine_eq, lines, tailLine, if_pos List.isEmpty_nil,
    List.append_nil, filter_completeLines _ _ (fun line complete => by rw [complete]; rfl),
    visitAll_completeLines]

section

variable (event : WalEvent)

theorem textBytes_ne_nil : event.textBytes ≠ [] := by
  exact List.cons_ne_nil _ _

theorem parseLog_unterminated :
    parseLog syntaxError (logBytes events ++ event.textBytes) =
      .ok ((events ++ [event]).map WalEvent.parsed) := by
  have nonempty := textBytes_ne_nil event
  have notEmpty : event.textBytes.isEmpty = false := by simpa using nonempty
  have lastLine : visitAll (parseEventLine syntaxError)
      [{ line := event.textBytes
         endOffset := (logBytes events).length + event.textBytes.length
         complete := false }] = .ok [event.parsed] := by
    simp [visitAll, parseEventLine_textBytes, Except.bind]
  unfold parseLog
  rw [lines_tail (newline_notMem_textBytes event) nonempty, List.filter_append,
    filter_completeLines _ _ (fun line complete => by rw [complete]; rfl),
    List.map_append]
  apply visitAll_append (visitAll_completeLines 0 events)
  simpa [notEmpty] using lastLine

theorem inspectEventLog_unterminated :
    inspectEventLog syntaxError (logBytes events ++ event.textBytes) =
      .ok (logBytes events ++ event.textBytes) := by
  rw [inspectEventLog_tail events (newline_notMem_textBytes event)
    (textBytes_ne_nil event), repairTail, parseEventLine_textBytes]

end

/-- The engine does not quote the word `schemaVersion` back when it reports
the end of a text that was cut short. -/
def QuietOnCuts (syntaxError : List Char → String) : Prop :=
  ∀ text, CutText text →
    includesText ("malformed JSON: " ++ syntaxError text) "schemaVersion" = false

theorem inspectEventLog_torn (quiet : QuietOnCuts syntaxError)
    {event : WalEvent} (split : kept ++ lost = event.textBytes) (some : kept ≠ [])
    (cut : lost ≠ []) :
    inspectEventLog syntaxError (logBytes events ++ kept) = .ok (logBytes events) := by
  have oneLine : (10 : UInt8) ∉ kept := by
    intro member
    apply newline_notMem_textBytes event
    rw [← split]
    exact List.mem_append_left lost member
  have silent := quiet _ ⟨event, kept, lost, split, some, cut, rfl⟩
  rw [inspectEventLog_tail events oneLine some, repairTail, parseEventLine_cut split cut]
  simp [silent]

end Recovery

end OpenAgent.Dag
