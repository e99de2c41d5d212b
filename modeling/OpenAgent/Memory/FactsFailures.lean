import Mathlib.Algebra.GroupWithZero.Nat
import OpenAgent.Library.Text

/-!
# The failure ledger of facts extraction

Failed extraction batches are held back per queue endpoint: a record counts
the failures of its endpoint, sets the instant of the next attempt, and parks
the endpoint after the fifth failure or an entry that is too large.  The
functions here compute on the list of records alone; instants are milliseconds
since the epoch.
-/

namespace OpenAgent.Memory

open Library

/-- Why a batch failed. -/
inductive FactsFailureReason
  | quickCategoryUnavailable
  | childExit
  | deadlineExceeded
  | invalidExtraction
  | memoryWriteLockExhausted
  | parentDirty
  | unknownLiveness
  | payloadEnvelopeOversize
  | payloadEntryOversize
  | other
  deriving DecidableEq

inductive FactsFailureState
  | backoff
  | parked
  deriving DecidableEq

/-- The record of one queue endpoint. -/
structure FactsFailureRecord where
  conversationId : Text
  endMessageId : Text
  endSnapshotLine : Nat
  state : FactsFailureState
  streak : Nat
  firstFailureAt : Nat
  lastFailureAt : Nat
  lastReason : FactsFailureReason
  lastDetail : Option Text
  lastFailureId : Text
  nextEligibleAt : Option Nat
  parkedAt : Option Nat

/-- One queue endpoint a failure applies to. -/
structure FactsFailureTarget where
  conversationId : Text
  endMessageId : Text
  endSnapshotLine : Nat

/-- A failure and the endpoints it applies to. -/
structure FailureRequest where
  targets : List FactsFailureTarget
  failureId : Text
  reason : FactsFailureReason
  detail : Option Text
  now : Nat

/-- What a manual retry selects. -/
structure FactsFailureFilter where
  conversationId : Option Text
  endMessageId : Option Text

/-- `${conversationId}\u0000${endMessageId}`, the name of an endpoint. -/
def failureKey (conversationId endMessageId : Text) : Text :=
  conversationId ++ 0 :: endMessageId

def recordKey (record : FactsFailureRecord) : Text :=
  failureKey record.conversationId record.endMessageId

def targetKey (target : FactsFailureTarget) : Text :=
  failureKey target.conversationId target.endMessageId

def detailMaxBytes : Nat := 512

/-- The class `[\u0000-\u001f\u007f]`. -/
def isControl (char : CodeUnit) : Bool :=
  char ≤ 0x1F || char == 0x7F

/-- `detail.replace(/[\u0000-\u001f\u007f]+/g, " ")`. -/
def flattenControls : Text → Text
  | [] => []
  | char :: rest =>
    if isControl char then
      match flattenControls rest, rest with
      | flattened, next :: _ =>
        if isControl next then flattened else unit ' ' :: flattened
      | flattened, [] => unit ' ' :: flattened
    else char :: flattenControls rest

/-- The code points of a text, as a `for` loop over a string visits them; an
unpaired surrogate stands alone. -/
def characters : Text → List Text
  | high :: low :: rest =>
    if 0xD800 ≤ high && high ≤ 0xDBFF && 0xDC00 ≤ low && low ≤ 0xDFFF then
      [high, low] :: characters rest
    else [high] :: characters (low :: rest)
  | [single] => [[single]]
  | [] => []

/-- `Buffer.byteLength` of one code point; an unpaired surrogate is written as
the replacement character. -/
def characterBytes : Text → Nat
  | [single] => if single < 0x80 then 1 else if single < 0x800 then 2 else 3
  | _ => 4

def byteLength (value : Text) : Nat :=
  ((characters value).map characterBytes).sum

/-- The number of code units of the longest run of code points that fits. -/
def fittingUnits (room : Nat) : List Text → Nat
  | [] => 0
  | character :: rest =>
    if room < characterBytes character then 0
    else character.length + fittingUnits (room - characterBytes character) rest

def truncateToBytes (value : Text) (maxBytes : Nat) : Text :=
  if byteLength value ≤ maxBytes then value
  else value.take (fittingUnits maxBytes (characters value))

def sanitizeDetail (detail : Text) : Option Text :=
  let flattened := trim (flattenControls detail)
  if flattened = [] then none else some (truncateToBytes flattened detailMaxBytes)

/-- Delays after the first four failures, in milliseconds. -/
def backoffMs : List Nat :=
  [60000, 5 * 60000, 30 * 60000, 120 * 60000]

def parkAtStreak : Nat := 5

def delayFor (streak : Nat) : Nat :=
  (backoffMs[min streak backoffMs.length - 1]?).getD 0

/-- The record of an endpoint behind one more failure. -/
def nextRecord (previous : Option FactsFailureRecord) (target : FactsFailureTarget)
    (request : FailureRequest) (detail : Option Text) : FactsFailureRecord :=
  let streak := (previous.elim 0 (·.streak)) + 1
  let parks := previous.any (·.state == .parked) || request.reason == .payloadEntryOversize ||
    decide (parkAtStreak ≤ streak)
  { conversationId := target.conversationId
    endMessageId := target.endMessageId
    endSnapshotLine := target.endSnapshotLine
    state := if parks then .parked else .backoff
    streak := streak
    firstFailureAt := previous.elim request.now (·.firstFailureAt)
    lastFailureAt := request.now
    lastReason := request.reason
    lastDetail := detail
    lastFailureId := request.failureId
    nextEligibleAt := if parks then none else some (request.now + delayFor streak)
    parkedAt := if parks then some ((previous.bind (·.parkedAt)).getD request.now) else none }

/-- The order of the records: conversation, snapshot boundary, endpoint. -/
def failureRecordLE (left right : FactsFailureRecord) : Bool :=
  if left.conversationId ≠ right.conversationId then
    decide (left.conversationId < right.conversationId)
  else if left.endSnapshotLine ≠ right.endSnapshotLine then
    decide (left.endSnapshotLine ≤ right.endSnapshotLine)
  else decide (left.endMessageId ≤ right.endMessageId)

variable (entries : List FactsFailureRecord)

def sortFailureRecords : List FactsFailureRecord :=
  stableSort failureRecordLE entries

/-- The map of the records by endpoint. -/
def recordsByKey : List (Text × FactsFailureRecord) :=
  entries.foldl (fun byKey record => mapSet byKey (recordKey record) record) []

/-- One pass of the loop over the targets; a record that carries the failure's
id already is left as it is. -/
def failTarget (request : FailureRequest) (byKey : List (Text × FactsFailureRecord))
    (target : FactsFailureTarget) : List (Text × FactsFailureRecord) :=
  let previous := mapGet byKey (targetKey target)
  if previous.map (·.lastFailureId) = some request.failureId then byKey
  else
    mapSet byKey (targetKey target)
      (nextRecord previous target request (request.detail.bind sanitizeDetail))

def applyFailure (request : FailureRequest) : List FactsFailureRecord :=
  sortFailureRecords
    ((request.targets.foldl (failTarget request) (recordsByKey entries)).map Prod.snd)

def clearOnSuccess (targets : List FactsFailureTarget) : List FactsFailureRecord :=
  entries.filter fun record => !(targets.map targetKey).contains (recordKey record)

variable (filter : FactsFailureFilter)

/-- A retry selects a record when every part of the filter that is given
agrees with it. -/
def FactsFailureFilter.selects (record : FactsFailureRecord) : Bool :=
  filter.conversationId.all (record.conversationId == ·) &&
    filter.endMessageId.all (record.endMessageId == ·)

def clearForRetry : List FactsFailureRecord :=
  entries.filter fun record => !filter.selects record

end OpenAgent.Memory
