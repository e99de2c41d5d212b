import OpenAgent.Library.Execution
import OpenAgent.Library.Json
import OpenAgent.Library.Text
import OpenAgent.Library.Utf8

/-!
# The transcript journal and its reflection cursor

A journal holds the rows of a transcript, to which it only appends, and a state
with the cursor of the last successful reflection.  The cursor is a message id.
A capture resolves it to the last row that bears the id, and takes the oldest
window behind that row that fits into a byte budget and ends with a message.
-/

namespace OpenAgent.Memory

open Library

/-- Whose text it is. -/
inductive TextKind
  | user
  | assistant
  | reasoning
  | error
  deriving DecidableEq

/-- A row with a text, or a tool call. -/
inductive EntryBody
  | text (kind : TextKind) (text : Text)
  | toolCall (name argsText resultText : Option Text) (resultOk : Option Bool)
  deriving DecidableEq

/-- A line of the transcript. -/
structure TranscriptEntry where
  body : EntryBody
  capturedAt : Text
  sourceLineId : Text
  sourceMessageId : Text
  deriving DecidableEq

namespace TextKind

def name : TextKind → String
  | user => "user"
  | assistant => "assistant"
  | reasoning => "reasoning"
  | error => "error"

end TextKind

/-- An optional field; `JSON.stringify` leaves out what is undefined. -/
def optionalMember (key : String) (value : Option Json) : List (Text × Json) :=
  match value with
  | none => []
  | some value => [(text key, value)]

namespace TranscriptEntry

/-- The fields of a row in their order. -/
def toJson (entry : TranscriptEntry) : Json :=
  let origin :=
    [(text "captured_at", Json.string entry.capturedAt),
      (text "source_line_id", .string entry.sourceLineId),
      (text "source_message_id", .string entry.sourceMessageId)]
  match entry.body with
  | .text kind body =>
    .object ((text "kind", .string (text kind.name)) :: (text "text", .string body) :: origin)
  | .toolCall name argsText resultText resultOk =>
    .object ((text "kind", .string (text "tool_call")) ::
      optionalMember "name" (name.map .string) ++
      optionalMember "argsText" (argsText.map .string) ++
      optionalMember "resultText" (resultText.map .string) ++
      optionalMember "resultOk" (resultOk.map .bool) ++ origin)

end TranscriptEntry

/-- The bytes of a row in the transcript, with its newline. -/
def entryBytes (entry : TranscriptEntry) : Nat :=
  (encodeUtf8 (stringify entry.toJson ++ ['\n'])).length

def totalBytes (entries : List TranscriptEntry) : Nat :=
  (entries.map entryBytes).sum

/-- A user or assistant row with a message id and a visible text. -/
def isCanonicalEntry (entry : TranscriptEntry) : Bool :=
  match entry.body with
  | .text kind body =>
    (kind = .user || kind = .assistant) && !entry.sourceMessageId.isEmpty && !(trim body).isEmpty
  | .toolCall _ _ _ _ => false

def countCompletedSteps (entries : List TranscriptEntry) : Nat :=
  (entries.filter fun entry =>
    match entry.body with
    | .text .assistant body => !entry.sourceMessageId.isEmpty && !(trim body).isEmpty
    | _ => false).length

structure ReflectionTranscriptState where
  reflectedThroughMessageId : Option Text
  reflectedThroughByteOffset : Option Nat
  totalCompletedSteps : Nat
  reflectedCompletedSteps : Nat
  stepsSinceLastSuccessfulReflection : Nat
  lastReflectionStartedAt : Option Text
  lastReflectionSucceededAt : Option Text
  pendingCompaction : Option Bool
  unreflectedBytes : Option Nat

/-- The window of one reflection. -/
structure ReflectionSnapshot where
  startMessageId : Text
  endMessageId : Text
  startLine : Nat
  endSnapshotLine : Nat
  entries : List TranscriptEntry
  backlogRemaining : Option Nat
  deriving DecidableEq

/-- The loop of `anchorRowIndex`. -/
def anchorFrom (messageId : Text) : List TranscriptEntry → Nat → Option Nat → Option Nat
  | [], _, anchor => anchor
  | entry :: rest, index, anchor =>
    anchorFrom messageId rest (index + 1)
      (if entry.sourceMessageId = messageId then some index else anchor)

section

variable (entries : List TranscriptEntry)

/-- The last row of the reflected message; `none` stands for `-1`. -/
def anchorRowIndex (reflectedThroughMessageId : Option Text) : Option Nat :=
  match reflectedThroughMessageId with
  | none => none
  | some messageId => anchorFrom messageId entries 0 none

/-- `anchorIndex + 1`. -/
def rowBehind : Option Nat → Nat
  | none => 0
  | some index => index + 1

def reflectedThroughByteOffsetFrom (messageId : Text) : List TranscriptEntry → Nat → Nat → Nat
  | [], _, reflected => reflected
  | entry :: rest, offset, reflected =>
    reflectedThroughByteOffsetFrom messageId rest (offset + entryBytes entry)
      (if entry.sourceMessageId = messageId then offset + entryBytes entry else reflected)

def reflectedThroughByteOffset (messageId : Text) : Nat :=
  reflectedThroughByteOffsetFrom messageId entries 0 0

def initialReflectionState : ReflectionTranscriptState where
  reflectedThroughMessageId := none
  reflectedThroughByteOffset := none
  totalCompletedSteps := 0
  reflectedCompletedSteps := 0
  stepsSinceLastSuccessfulReflection := 0
  lastReflectionStartedAt := none
  lastReflectionSucceededAt := none
  pendingCompaction := none
  unreflectedBytes := none

variable (state : ReflectionTranscriptState)

def deriveState (entries : List TranscriptEntry) : ReflectionTranscriptState :=
  let total := countCompletedSteps entries
  let reflected := min state.reflectedCompletedSteps total
  let anchorIndex := anchorRowIndex entries state.reflectedThroughMessageId
  { state with
    totalCompletedSteps := total
    reflectedCompletedSteps := reflected
    stepsSinceLastSuccessfulReflection := total - reflected
    unreflectedBytes := some (totalBytes (entries.drop (rowBehind anchorIndex))) }

/-- What the loop of `captureCursorSnapshot` has found: the bytes so far, the end
of the last message that fits, and whether the budget is exhausted. -/
structure WindowScan where
  bytes : Nat
  closed : Option (Text × Nat)
  exhausted : Bool

/-- The loop of `captureCursorSnapshot`.  Behind a message, `skip` rows of its
group are passed over. -/
def scanWindow (maxBytes : Rat) :
    List TranscriptEntry → Nat → Nat → Nat → Option (Text × Nat) → WindowScan
  | [], _, _, bytes, closed => { bytes, closed, exhausted := false }
  | _ :: rest, skip + 1, index, bytes, closed =>
    scanWindow maxBytes rest skip (index + 1) bytes closed
  | entry :: rest, 0, index, bytes, closed =>
    let bytes := bytes + entryBytes entry
    if isCanonicalEntry entry then
      let trailing := rest.takeWhile fun row =>
        row.sourceMessageId = entry.sourceMessageId
      let groupBytes := bytes + totalBytes trailing
      if (groupBytes : Rat) > maxBytes && closed.isSome then
        { bytes, closed, exhausted := true }
      else
        let closed := some (entry.sourceMessageId, index + trailing.length + 1)
        if (groupBytes : Rat) ≥ maxBytes then
          { bytes := groupBytes, closed, exhausted := true }
        else scanWindow maxBytes rest trailing.length (index + 1) groupBytes closed
    else scanWindow maxBytes rest 0 (index + 1) bytes closed

/-- `REFLECTION_SNAPSHOT_MAX_BYTES`. -/
def reflectionSnapshotMaxBytes : Rat := 131072

def captureCursorSnapshot (maxBytes : Option Rat) : Option ReflectionSnapshot :=
  let maxBytes := maxBytes.getD reflectionSnapshotMaxBytes
  let windowStart := rowBehind (anchorRowIndex entries state.reflectedThroughMessageId)
  let unreflected := entries.drop windowStart
  match unreflected.findIdx? isCanonicalEntry with
  | none => none
  | some lead =>
    let scan := scanWindow maxBytes (unreflected.drop lead) 0 (windowStart + lead)
      (totalBytes (unreflected.take lead)) none
    match unreflected[lead]?, scan.closed with
    | some start, some (endMessageId, closedLine) =>
      let endLine :=
        if !scan.exhausted && (scan.bytes : Rat) ≤ maxBytes then entries.length
        else closedLine
      some
        { startMessageId := start.sourceMessageId
          endMessageId
          startLine := windowStart
          endSnapshotLine := endLine
          entries := slice entries windowStart endLine
          backlogRemaining :=
            if entries.length - endLine > 0 then some (entries.length - endLine) else none }
    | _, _ => none

end

def finalizeCursor (state : ReflectionTranscriptState) (entries : List TranscriptEntry)
    (snapshot : ReflectionSnapshot) (success : Bool)
    (succeededAt : Text) : ReflectionTranscriptState :=
  if success then
    deriveState
      { state with
        reflectedThroughMessageId := some snapshot.endMessageId
        reflectedThroughByteOffset :=
          some (reflectedThroughByteOffset entries snapshot.endMessageId)
        reflectedCompletedSteps := countCompletedSteps (entries.take snapshot.endSnapshotLine)
        lastReflectionSucceededAt := some succeededAt }
      entries
  else deriveState state entries

/-- The transcript and the state on disk. -/
structure TranscriptJournal where
  entries : List TranscriptEntry
  state : ReflectionTranscriptState

namespace TranscriptJournal

/-- The rows of a batch whose line ids are new. -/
def freshEntries : List Text → List TranscriptEntry → List TranscriptEntry
  | _, [] => []
  | sourceIds, entry :: rest =>
    if entry.sourceLineId ∈ sourceIds then freshEntries sourceIds rest
    else entry :: freshEntries (entry.sourceLineId :: sourceIds) rest

/-- `writeStateUnlocked`. -/
def writeState (entries : List TranscriptEntry)
    (state : ReflectionTranscriptState) : TranscriptJournal where
  entries := entries
  state :=
    match state.reflectedThroughMessageId, state.reflectedThroughByteOffset with
    | some messageId, none =>
      deriveState { state with
        reflectedThroughByteOffset := some (reflectedThroughByteOffset entries messageId) }
        entries
    | _, _ => deriveState state entries

variable (journal : TranscriptJournal)

/-- The rows that `appendUnlocked` appends. -/
def appended (batch : List TranscriptEntry) : List TranscriptEntry :=
  freshEntries (journal.entries.map TranscriptEntry.sourceLineId) batch

def append (batch : List TranscriptEntry) : TranscriptJournal :=
  writeState (journal.entries ++ journal.appended batch) journal.state

def captureReflectionSnapshot (maxBytes : Rat) (now : Text) :
    TranscriptJournal × Option ReflectionSnapshot :=
  let state := deriveState journal.state journal.entries
  match captureCursorSnapshot journal.entries state (some maxBytes) with
  | none => (journal, none)
  | some snapshot =>
    (writeState journal.entries { state with lastReflectionStartedAt := some now }, some snapshot)

def finalizeReflection (snapshot : ReflectionSnapshot) (success : Bool) (now : Text) :
    TranscriptJournal :=
  writeState journal.entries
    (finalizeCursor (deriveState journal.state journal.entries) journal.entries snapshot success
      now)

end TranscriptJournal

/-- A journal with the snapshots that were captured and the windows that were
finalized with success, the newest first.  A snapshot is unspent until the next
success. -/
structure ReflectionRun where
  journal : TranscriptJournal
  captured : List ReflectionSnapshot
  unspent : List ReflectionSnapshot
  finalized : List ReflectionSnapshot

/-- A step of a journal. -/
inductive ReflectionLabel
  | append (batch : List TranscriptEntry)
  | capture (maxBytes : Rat) (now : Text)
  | finalize (snapshot : ReflectionSnapshot) (success : Bool) (now : Text)

def reflectionStep (run : ReflectionRun) : ReflectionLabel → Option ReflectionRun
  | .append batch => some { run with journal := run.journal.append batch }
  | .capture maxBytes now =>
    match run.journal.captureReflectionSnapshot maxBytes now with
    | (journal, none) => some { run with journal := journal }
    | (journal, some snapshot) =>
      some { run with
        journal := journal
        captured := snapshot :: run.captured
        unspent := snapshot :: run.unspent }
  | .finalize snapshot success now =>
    if snapshot ∈ run.captured then
      let journal := run.journal.finalizeReflection snapshot success now
      if success then
        some { run with journal, unspent := [], finalized := snapshot :: run.finalized }
      else some { run with journal }
    else none

/-- An empty journal. -/
def emptyRun : ReflectionRun where
  journal := { entries := [], state := initialReflectionState }
  captured := []
  unspent := []
  finalized := []

end OpenAgent.Memory
