import OpenAgent.Dag.Types
import OpenAgent.Library.Execution
import OpenAgent.Library.JsonNumber
import OpenAgent.Library.JsonRoundTrip

/-!
# The event log of one run

`dag/store.ts` keeps the events of a run as one JSON text per line.  This
module models the bytes of that file, the scan into lines, the repair of a
torn tail and the append, together with the steps of a process that may die
while it writes.
-/

namespace OpenAgent.Dag

open Library

/-- An event as `appendEvent` receives it: the members of its payload with the
type in front, then the envelope in the order the journal writes it. -/
structure WalEvent where
  eventType : String
  payload : List (List UInt16 × Json)
  /-- An object has one member of each name. -/
  oneType : ∀ member ∈ payload, member.1 ≠ unitsOf "type"
  runId : DagRunId
  seq : Nat
  atTime : String
  lane : DagEventLane

/-- The text of a lane. -/
def DagEventLane.text : DagEventLane → String
  | .activity => "activity"
  | .boundary => "boundary"

section

variable (event : WalEvent)

/-- The object that is written. -/
def WalEvent.members : List (List UInt16 × Json) :=
  (unitsOf "type", .string (unitsOf event.eventType)) :: event.payload ++
    [(unitsOf "schemaVersion", .number (naturalLiteral 1)),
      (unitsOf "runId", .string (unitsOf event.runId)),
      (unitsOf "seq", .number (naturalLiteral event.seq)),
      (unitsOf "at", .string (unitsOf event.atTime)),
      (unitsOf "lane", .string (unitsOf event.lane.text))]

def WalEvent.json : Json := .object event.members

/-- The bytes of `JSON.stringify(event)`. -/
def WalEvent.textBytes : List UInt8 :=
  encodeUtf8 (stringify event.json)

/-- The bytes `appendEvent` writes: the text and its line break. -/
def WalEvent.lineBytes : List UInt8 :=
  event.textBytes ++ [10]

end

/-- What the store throws. -/
inductive LogError
  | journalCorrupt (message : String)
  | seqMismatch (expected : ℚ) (received : Nat)
  | invalidLimit

/-- An event as it is read back: its object with the members the store
looks at. -/
structure ParsedEvent where
  value : Json
  seq : ℚ
  eventType : List UInt16

section Parsing

variable (syntaxError : List Char → String)

/-- `parseJson`. -/
def parseJsonText (text : List Char) : Except LogError Json :=
  match parseJson text with
  | some value => .ok value
  | none => .error (.journalCorrupt ("malformed JSON: " ++ syntaxError text))

/-- `assertSupportedSchema`. -/
def assertSupportedSchema (value : Json) : Except LogError Unit :=
  match value.member "schemaVersion" with
  | some (.number version) =>
    if version.value = 1 then .ok ()
    else .error (.journalCorrupt ("unsupported schemaVersion " ++ String.ofList version.text))
  | _ => .error (.journalCorrupt "missing schemaVersion")

/-- `parseEvent`. -/
def parseEvent (value : Json) : Except LogError ParsedEvent :=
  (assertSupportedSchema value).bind fun _ =>
    match value.member "seq", value.member "type" with
    | some (.number seq), some (.string eventType) =>
      .ok { value := value, seq := seq.value, eventType := eventType }
    | _, _ => .error (.journalCorrupt "invalid DAG event envelope")

/-- `parseEventJson` of the bytes of a line. -/
def parseEventLine (line : List UInt8) : Except LogError ParsedEvent :=
  (parseJsonText syntaxError (decodeUtf8 line)).bind parseEvent

end Parsing

/-- One call of the visitor of `forEachRawLine`. -/
structure RawLine where
  line : List UInt8
  endOffset : Nat
  complete : Bool

/-- The variables of `forEachRawLine` between two reads. -/
structure LineScan where
  pending : List (List UInt8)
  offset : Nat
  visited : List RawLine

/-- One read buffer, with the bytes since the last line break in it. -/
def scanChunk : List UInt8 → List UInt8 → LineScan → LineScan
  | current, [], scan =>
    if current.isEmpty then scan
    else
      { scan with
        pending := scan.pending ++ [current]
        offset := scan.offset + current.length }
  | current, byte :: rest, scan =>
    if byte = 10 then
      scanChunk [] rest
        { pending := []
          offset := scan.offset + current.length + 1
          visited := scan.visited ++
            [{ line := (scan.pending ++ [current]).flatten
               endOffset := scan.offset + current.length + 1
               complete := true }] }
    else scanChunk (current ++ [byte]) rest scan

/-- `READ_BUFFER_BYTES`. -/
def readBufferBytes : Nat := 64 * 1024

/-- The successive contents of the read buffer. -/
def readChunks : Nat → List UInt8 → List (List UInt8)
  | 0, _ => []
  | fuel + 1, bytes =>
    if bytes.isEmpty then []
    else bytes.take readBufferBytes :: readChunks fuel (bytes.drop readBufferBytes)

/-- `forEachRawLine`: the calls of its visitor in order. -/
def forEachRawLine (bytes : List UInt8) : List RawLine :=
  let scan := (readChunks bytes.length bytes).foldl
    (fun scan chunk => scanChunk [] chunk scan)
    { pending := [], offset := 0, visited := [] }
  if scan.pending.isEmpty then scan.visited
  else
    scan.visited ++
      [{ line := scan.pending.flatten, endOffset := scan.offset, complete := false }]

/-- Visit lines until one throws. -/
def visitAll (visit : List UInt8 → Except LogError α) :
    List RawLine → Except LogError (List α)
  | [] => .ok []
  | line :: lines =>
    (visit line.line).bind fun first =>
      (visitAll visit lines).bind fun rest => .ok (first :: rest)

section Operations

variable (syntaxError : List Char → String)

/-- `String.prototype.includes`. -/
def includesText (text part : String) : Bool :=
  decide (part.toList <:+: text.toList)

variable (bytes : List UInt8)

/-- The end of `inspectEventLog`: an unterminated line that is an event stays,
any other is cut off behind the last complete line. -/
def repairTail (lastCompleteOffset : Nat) (trailing : List UInt8) : Except LogError (List UInt8) :=
  match parseEventLine syntaxError trailing with
  | .ok _ => .ok bytes
  | .error (.journalCorrupt message) =>
    if includesText message "schemaVersion" then .error (.journalCorrupt message)
    else .ok (bytes.take lastCompleteOffset)
  | .error _ => .ok (bytes.take lastCompleteOffset)

/-- `inspectEventLog`: the bytes of the log after the repair. -/
def inspectEventLog : Except LogError (List UInt8) :=
  let lines := forEachRawLine bytes
  let complete := lines.filter (·.complete)
  let lastCompleteOffset := (complete.getLast?.map (·.endOffset)).getD 0
  (visitAll (parseEventLine syntaxError) complete).bind fun _ =>
    match (lines.filter (!·.complete)).getLast? with
    | none => .ok bytes
    | some trailing =>
      if trailing.line.isEmpty then .ok bytes
      else repairTail syntaxError bytes lastCompleteOffset trailing.line

/-- `forEachJsonLine` with the visitor `parseEvent`. -/
def parseLog : Except LogError (List ParsedEvent) :=
  visitAll (parseEventLine syntaxError)
    ((forEachRawLine bytes).filter fun line => line.complete || !line.line.isEmpty)

/-- `eventLogTailSeq` of the store. -/
def eventLogTailSeq : Except LogError ℚ :=
  (parseLog syntaxError bytes).bind fun events =>
    .ok ((events.getLast?.map (·.seq)).getD 0)

/-- `Number.MAX_SAFE_INTEGER`. -/
def maxSafeInteger : Nat := 2 ^ 53 - 1

/-- `appendEvent`: the check before the write, and the bytes after it. -/
def appendEvent (event : WalEvent) : Except LogError (List UInt8) :=
  (assertSupportedSchema event.json).bind fun _ =>
    (eventLogTailSeq syntaxError bytes).bind fun tailSeq =>
      if event.seq ≤ maxSafeInteger ∧ (event.seq : ℚ) = tailSeq + 1 then
        .ok (bytes ++ event.lineBytes)
      else .error (.seqMismatch (tailSeq + 1) event.seq)

/-- `DagEventReadOptions`. -/
structure DagEventReadOptions where
  limit : Nat
  lane : Option DagEventLane
  types : Option (List String)
  throughSeq : Option ℚ

/-- `DagEventPage`. -/
structure DagEventPage where
  events : List ParsedEvent
  nextSinceSeq : ℚ
  headSeq : ℚ
  hasMore : Bool

/-- Whether the visitor of `readEvents` keeps an event. -/
def DagEventReadOptions.keeps (options : DagEventReadOptions) (sinceSeqExclusive : ℚ)
    (event : ParsedEvent) : Bool :=
  decide (sinceSeqExclusive < event.seq) &&
    options.throughSeq.all (fun last => decide (event.seq ≤ last)) &&
    options.lane.all (fun lane =>
      match event.value.member "lane" with
      | some (.string units) => units == unitsOf lane.text
      | _ => false) &&
    options.types.all (fun types => types.any fun kind => unitsOf kind == event.eventType)

/-- The page that `readEvents` builds from the events of the log. -/
def pageOf (events : List ParsedEvent) (sinceSeqExclusive : ℚ)
    (options : DagEventReadOptions) : DagEventPage :=
  let kept := events.filter (options.keeps sinceSeqExclusive)
  let page := kept.take options.limit
  { events := page
    nextSinceSeq := (page.getLast?.map (·.seq)).getD sinceSeqExclusive
    headSeq := events.foldl (fun head event => max head event.seq) 0
    hasMore := decide (options.limit < kept.length) }

/-- `readEvents`: the page and the bytes of the log after the repair. -/
def readEvents (sinceSeqExclusive : ℚ) (options : DagEventReadOptions) :
    Except LogError (DagEventPage × List UInt8) :=
  if options.limit = 0 then .error .invalidLimit
  else
    (inspectEventLog syntaxError bytes).bind fun repaired =>
      (parseLog syntaxError repaired).bind fun events =>
        .ok (pageOf events sinceSeqExclusive options, repaired)

end Operations

/-- The log, whether a store is open on it, and the events whose text was
completely persisted. -/
structure LogState where
  bytes : List UInt8
  opened : Bool
  accepted : List WalEvent

/-- What happens to the log. -/
inductive LogAction
  /-- A store is created on the directory. -/
  | reopen
  /-- An append that returns. -/
  | append (event : WalEvent)
  /-- An append whose process dies with this many bytes of the line written. -/
  | appendCrash (event : WalEvent) (persisted : Nat)
  /-- A read. -/
  | read (sinceSeqExclusive : ℚ) (options : DagEventReadOptions)

/-- One step.  An operation that throws leaves the log as it is. -/
def logStep (syntaxError : List Char → String) (state : LogState) : LogAction → Option LogState
  | .reopen =>
    match inspectEventLog syntaxError state.bytes with
    | .ok bytes => some { state with bytes := bytes, opened := true }
    | .error _ => some state
  | .append event =>
    if state.opened then
      match appendEvent syntaxError state.bytes event with
      | .ok bytes =>
        some { state with bytes := bytes, accepted := state.accepted ++ [event] }
      | .error _ => some state
    else none
  | .appendCrash event persisted =>
    if state.opened then
      match appendEvent syntaxError state.bytes event with
      | .ok _ =>
        some
          { bytes := state.bytes ++ event.lineBytes.take persisted
            opened := false
            accepted :=
              if event.textBytes.length ≤ persisted then state.accepted ++ [event]
              else state.accepted }
      | .error _ => some { state with opened := false }
    else none
  | .read sinceSeqExclusive options =>
    if state.opened then
      match readEvents syntaxError state.bytes sinceSeqExclusive options with
      | .ok (_, bytes) => some { state with bytes := bytes }
      | .error _ => some state
    else none

/-- No file yet, and no store. -/
def emptyLog : LogState := { bytes := [], opened := false, accepted := [] }

end OpenAgent.Dag
