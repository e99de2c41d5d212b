import OpenAgent.Library.JsonNumber
import OpenAgent.Memory.Journal

/-!
# The reflection machine

`reserveTransition` and `completeTransition` of `reflection/machine.ts`, and the
store of `reflection/reservation.ts` over the transcript journals.  At most one
run is active and one is pending; requests that arrive meanwhile are merged into
the pending one.  A completion predicts the journals behind its finalizations,
to decide on the pending run, and then finalizes them.
-/

namespace OpenAgent.Memory

open Library

/-- What a dream was begun by. -/
inductive DreamOrigin
  | manual
  | idle
  | shutdown
  | pressure
  deriving DecidableEq

/-- A trigger; a dream has an origin, and nothing else has one. -/
inductive ReflectionTrigger
  | stepCount
  | compaction
  | manual
  | dream (origin : DreamOrigin)
  deriving DecidableEq

/-- How a reflection has ended. -/
inductive ReflectionOutcome
  | merged
  | noChanges
  | parentDirty
  | mergeConflict
  | dirtyUncommitted
  | failed
  | timedOut
  deriving DecidableEq

def ReflectionOutcome.succeeded (outcome : ReflectionOutcome) : Bool :=
  outcome = .merged || outcome = .noChanges

structure TriggerConfig where
  stepCount : Option Rat
  onCompaction : Option Bool
  snapshotMaxBytes : Option Rat

structure JournalSnapshot where
  conversationId : Text
  state : ReflectionTranscriptState
  snapshot : Option ReflectionSnapshot

/-- The window of a conversation. -/
structure CapturedConversation where
  conversationId : Text
  snapshot : ReflectionSnapshot
  deriving DecidableEq

structure ReflectionRequest where
  trigger : ReflectionTrigger
  conversationIds : List Text
  snapshots : List CapturedConversation
  focus : Option Text
  recentN : Option Nat
  targetDoc : Option Text
  deriving DecidableEq

/-- What `withLaunchOwner` adds to a run. -/
structure LaunchOwner where
  reservedAt : Text
  launcherPid : Nat
  launcherHostname : Text
  launcherProcessStart : Option Text

structure ReservedRun where
  runId : Text
  request : ReflectionRequest
  owner : Option LaunchOwner

structure ReservationState where
  active : Option ReservedRun
  pending : Option ReservedRun

namespace ReflectionTrigger

def members : ReflectionTrigger → List (Text × Json)
  | stepCount => [(text "trigger", .string (text "step-count"))]
  | compaction => [(text "trigger", .string (text "compaction"))]
  | manual => [(text "trigger", .string (text "manual"))]
  | dream origin =>
    [(text "trigger", .string (text "dream")), (text "origin", .string (text (match origin with
        | .manual => "manual"
        | .idle => "idle"
        | .shutdown => "shutdown"
        | .pressure => "pressure")))]

end ReflectionTrigger

def numberJson (number : Nat) : Json :=
  .number (naturalLiteral number)

def ReflectionSnapshot.toJson (snapshot : ReflectionSnapshot) : Json :=
  .object
    ([(text "start_message_id", Json.string snapshot.startMessageId),
      (text "end_message_id", .string snapshot.endMessageId),
      (text "start_line", numberJson snapshot.startLine),
      (text "end_snapshot_line", numberJson snapshot.endSnapshotLine),
      (text "entries", .array (snapshot.entries.map TranscriptEntry.toJson))] ++
    optionalMember "backlog_remaining" (snapshot.backlogRemaining.map numberJson))

def CapturedConversation.toJson (captured : CapturedConversation) : Json :=
  .object
    [(text "conversationId", .string captured.conversationId),
      (text "snapshot", captured.snapshot.toJson)]

def ReflectionRequest.toJson (request : ReflectionRequest) : Json :=
  .object
    (request.trigger.members ++
    [(text "conversationIds", .array (request.conversationIds.map Json.string)),
      (text "snapshots", .array (request.snapshots.map CapturedConversation.toJson))] ++
    optionalMember "focus" (request.focus.map .string) ++
    optionalMember "recentN" (request.recentN.map numberJson) ++
    optionalMember "targetDoc" (request.targetDoc.map .string))

def LaunchOwner.members (owner : LaunchOwner) : List (Text × Json) :=
  [(text "reservedAt", .string owner.reservedAt),
    (text "launcherPid", numberJson owner.launcherPid),
    (text "launcherHostname", .string owner.launcherHostname),
    (text "launcherProcessStart", (owner.launcherProcessStart.map Json.string).getD .null)]

def ReservedRun.toJson (run : ReservedRun) : Json :=
  .object
    ([(text "runId", Json.string run.runId), (text "request", run.request.toJson)] ++
    (run.owner.map LaunchOwner.members).getD [])

/-- `Buffer.byteLength(json, "utf8")`. -/
def jsonBytes (json : List Char) : Nat :=
  (encodeUtf8 json).length

/-- `REFLECTION_PENDING_MAX_CONVERSATIONS`. -/
def reflectionPendingMaxConversations : Nat := 32

/-- `REFLECTION_PENDING_MAX_BYTES`. -/
def reflectionPendingMaxBytes : Nat := 4 * 1024 * 1024

/-- The weight of a conversation grows. -/
def addWeight (weights : List (Text × Nat)) (id : Text) (bytes : Nat) : List (Text × Nat) :=
  mapSet weights id ((mapGet weights id).getD 0 + bytes)

/-- The serialized bytes of each conversation of a request. -/
def conversationWeights (request : ReflectionRequest) : List (Text × Nat) :=
  let ids := request.conversationIds.foldl
    (fun weights id => addWeight weights id (jsonBytes (quote id) + 8)) []
  request.snapshots.foldl
    (fun weights captured =>
      let json := stringifyIndented 0 captured.toJson
      let lines := (json.filter fun char => char = '\n').length + 1
      addWeight weights captured.conversationId (jsonBytes json + 6 * lines + 2))
    ids

/-- The loop over the weights: the oldest conversations go until the rest is
within the bounds. -/
def evictedConversations : List (Text × Nat) → Nat → Nat → List Text
  | [], _, _ => []
  | (id, weight) :: rest, conversations, bytes =>
    if conversations ≤ reflectionPendingMaxConversations ∧ bytes ≤ reflectionPendingMaxBytes then
      []
    else id :: evictedConversations rest (conversations - 1) (bytes - weight)

def capPendingRun (run : ReservedRun) : ReservedRun :=
  let weights := conversationWeights run.request
  let empty := { run with request := { run.request with conversationIds := [], snapshots := [] } }
  let bytes := jsonBytes (stringifyIndented 0 empty.toJson ++ ['\n']) + 16 +
    (weights.map Prod.snd).sum
  let evicted := evictedConversations weights weights.length bytes
  if evicted = [] then run
  else
    { run with
      request :=
        { run.request with
          conversationIds := run.request.conversationIds.filter fun id => !evicted.contains id
          snapshots := run.request.snapshots.filter fun captured =>
            !evicted.contains captured.conversationId } }

def requestPriority (request : ReflectionRequest) : Rat :=
  match request.trigger with
  | .stepCount => 1
  | .compaction => 2
  | .manual => 3
  | .dream .idle | .dream .pressure => 3 / 2
  | .dream .shutdown => 5 / 2
  | .dream .manual => 3

/-- The newest snapshot of each conversation. -/
def mergeSnapshots (left right : List CapturedConversation) : List CapturedConversation :=
  ((left ++ right).foldl (fun merged item => mapSet merged item.conversationId item) []).map
    Prod.snd

def mergeRequests (left right : ReflectionRequest) : ReflectionRequest :=
  let strongest := if requestPriority right ≥ requestPriority left then right else left
  let recentN := max (left.recentN.getD 0) (right.recentN.getD 0)
  { trigger := strongest.trigger
    conversationIds := setOf (left.conversationIds ++ right.conversationIds)
    snapshots := mergeSnapshots left.snapshots right.snapshots
    focus := strongest.focus
    recentN := if recentN = 0 then none else some recentN
    targetDoc := strongest.targetDoc }

/-- The state behind a request, and whether its run is active. -/
def reserveTransition (state : ReservationState) (request : ReflectionRequest)
    (runId : Text) : ReservationState × Bool :=
  match state.active with
  | none => ({ active := some { runId, request, owner := none }, pending := none }, true)
  | some active =>
    let pending :=
      match state.pending with
      | some pending =>
        { runId := pending.runId, request := mergeRequests pending.request request
          owner := none }
      | none => { runId, request, owner := none }
    ({ active := some active, pending := some (capPendingRun pending) }, false)

structure CompleteTransition where
  state : ReservationState
  finalize : List CapturedConversation
  clearPendingCompaction : List Text
  launch : Option ReservedRun

section

variable (journals : List (Text × JournalSnapshot))

/-- The prediction for one finalized conversation. -/
def predictFinalized (captured : CapturedConversation) : List (Text × JournalSnapshot) :=
  match mapGet journals captured.conversationId with
  | none => journals
  | some current =>
    let reflected := min current.state.totalCompletedSteps
      (current.state.reflectedCompletedSteps + countCompletedSteps captured.snapshot.entries)
    mapSet journals captured.conversationId
      { current with
        state :=
          { current.state with
            reflectedCompletedSteps := reflected
            stepsSinceLastSuccessfulReflection :=
              current.state.totalCompletedSteps - reflected } }

/-- `effectiveJournals` behind the loop over the finalized conversations. -/
def effectiveJournals (finalize : List CapturedConversation)
    (journals : List (Text × JournalSnapshot)) : List (Text × JournalSnapshot) :=
  finalize.foldl predictFinalized journals

def clearCompaction (conversationId : Text) : List (Text × JournalSnapshot) :=
  match mapGet journals conversationId with
  | none => journals
  | some current =>
    mapSet journals conversationId
      { current with state := { current.state with pendingCompaction := some false } }

end

def isStillTriggered (request : ReflectionRequest) (journals : List (Text × JournalSnapshot))
    (config : TriggerConfig) : Bool :=
  match request.trigger with
  | .manual | .dream _ => true
  | .compaction =>
    config.onCompaction = some true && request.conversationIds.any fun id =>
      (mapGet journals id).bind (·.state.pendingCompaction) = some true
  | .stepCount =>
    let budget := config.snapshotMaxBytes.getD reflectionSnapshotMaxBytes
    request.conversationIds.any fun id =>
      match mapGet journals id with
      | none => false
      | some journal =>
        (config.stepCount.any fun threshold =>
          0 < threshold &&
            threshold ≤ (journal.state.stepsSinceLastSuccessfulReflection : Rat)) ||
        (0 < budget && budget ≤ ((journal.state.unreflectedBytes.getD 0 : Nat) : Rat))

/-- The snapshots that a completion finalizes. -/
def finalizedBy (active : ReservedRun) (outcome : ReflectionOutcome) : List CapturedConversation :=
  if outcome.succeeded then active.request.snapshots else []

def completeTransition (state : ReservationState) (runId : Text) (outcome : ReflectionOutcome)
    (journals : List (Text × JournalSnapshot))
    (config : TriggerConfig) : Except Text CompleteTransition :=
  match state.active with
  | none => .error (text "Reflection run is not active: " ++ runId)
  | some active =>
    if active.runId ≠ runId then .error (text "Reflection run is not active: " ++ runId)
    else
      let finalize := finalizedBy active outcome
      let clearPendingCompaction :=
        if outcome.succeeded && active.request.trigger = .compaction then
          active.request.conversationIds.filter fun id =>
            (mapGet journals id).bind (·.state.pendingCompaction) = some true
        else []
      let effective := clearPendingCompaction.foldl clearCompaction
        (effectiveJournals finalize journals)
      match state.pending.map capPendingRun with
      | none =>
        .ok { state := ⟨none, none⟩, finalize, clearPendingCompaction, launch := none }
      | some pending =>
        if isStillTriggered pending.request effective config then
          .ok { state := ⟨some pending, none⟩, finalize, clearPendingCompaction
                launch := some pending }
        else .ok { state := ⟨none, none⟩, finalize, clearPendingCompaction, launch := none }

namespace TranscriptJournal

variable (journal : TranscriptJournal)

/-- `getState` writes the state it derives. -/
def getState : TranscriptJournal × ReflectionTranscriptState :=
  let state := deriveState journal.state journal.entries
  (writeState journal.entries state, state)

def setPendingCompaction (pending : Bool) : TranscriptJournal :=
  writeState journal.entries { journal.state with pendingCompaction := some pending }

end TranscriptJournal

/-- The journals of the conversations, the reservation files, and the snapshots
captured so far. -/
structure ReflectionStore where
  journals : Text → TranscriptJournal
  reservation : ReservationState
  captured : List CapturedConversation

namespace ReflectionStore

/-- A pending file with the id of the active run is what a crash has left. -/
def readState (store : ReflectionStore) : ReservationState :=
  { store.reservation with
    pending := store.reservation.pending.filter fun pending =>
      !decide (store.reservation.active.map ReservedRun.runId = some pending.runId) }

/-- The conversations whose journals a completion reads. -/
def conversationIds (state : ReservationState) : List Text :=
  setOf ((state.active.map (·.request.conversationIds)).getD [] ++
    (state.pending.map (·.request.conversationIds)).getD [])

/-- The journal of one conversation changes. -/
def update (journals : Text → TranscriptJournal) (conversationId : Text)
    (change : TranscriptJournal → TranscriptJournal) : Text → TranscriptJournal :=
  Function.update journals conversationId (change (journals conversationId))

/-- The states that `complete` reads. -/
def journalSnapshots (journals : Text → TranscriptJournal)
    (conversationIds : List Text) : List (Text × JournalSnapshot) :=
  conversationIds.map fun conversationId =>
    (conversationId,
      { conversationId
        state := (journals conversationId).getState.2
        snapshot := none })

variable (conversationIds : List Text)

/-- The journals behind these reads. -/
def readJournals (journals : Text → TranscriptJournal) : Text → TranscriptJournal :=
  conversationIds.foldl (fun journals id => update journals id (·.getState.1)) journals

/-- The finalizations of a completion. -/
def finalizeConversations (now : Text) (finalize : List CapturedConversation)
    (journals : Text → TranscriptJournal) : Text → TranscriptJournal :=
  finalize.foldl
    (fun journals captured =>
      if captured.conversationId ∈ conversationIds then
        update journals captured.conversationId fun journal =>
          journal.finalizeReflection captured.snapshot true now
      else journals)
    journals

end ReflectionStore

/-- The operations on the store. -/
inductive StoreLabel
  | append (conversationId : Text) (batch : List TranscriptEntry)
  | setPendingCompaction (conversationId : Text) (pending : Bool)
  | capture (conversationId : Text) (maxBytes : Rat) (now : Text)
  | reserve (request : ReflectionRequest) (runId : Text) (owner : LaunchOwner)
  | complete (runId : Text) (outcome : ReflectionOutcome) (now : Text) (owner : LaunchOwner)

def ReservedRun.withLaunchOwner (owner : LaunchOwner) (run : ReservedRun) : ReservedRun :=
  { run with owner := some owner }

def storeStep (config : TriggerConfig)
    (store : ReflectionStore) : StoreLabel → Option ReflectionStore
  | .append conversationId batch =>
    some { store with
      journals := ReflectionStore.update store.journals conversationId (·.append batch) }
  | .setPendingCompaction conversationId pending =>
    some { store with
      journals := ReflectionStore.update store.journals conversationId
        (·.setPendingCompaction pending) }
  | .capture conversationId maxBytes now =>
    let (journal, snapshot) :=
      (store.journals conversationId).captureReflectionSnapshot maxBytes now
    some { store with
      journals := ReflectionStore.update store.journals conversationId fun _ => journal
      captured := (snapshot.map fun snapshot =>
        (⟨conversationId, snapshot⟩ : CapturedConversation)).toList ++ store.captured }
  | .reserve request runId owner =>
    if ∀ captured ∈ request.snapshots, captured ∈ store.captured then
      let (reservation, isActive) := reserveTransition store.readState request runId
      some { store with
        reservation :=
          if isActive then
            { reservation with active := reservation.active.map (·.withLaunchOwner owner) }
          else reservation }
    else none
  | .complete runId outcome now owner =>
    let current := store.readState
    let ids := ReflectionStore.conversationIds current
    match completeTransition current runId outcome
        (ReflectionStore.journalSnapshots store.journals ids) config with
    | .error _ => none
    | .ok transition =>
      let finalized := ReflectionStore.finalizeConversations ids now transition.finalize
        (ReflectionStore.readJournals ids store.journals)
      let cleared := transition.clearPendingCompaction.foldl (fun journals id =>
          if id ∈ ids then ReflectionStore.update journals id (·.setPendingCompaction false)
          else journals)
        finalized
      some { store with
        journals := cleared
        reservation :=
          { transition.state with
            active := transition.state.active.map (·.withLaunchOwner owner) } }

/-- No conversation has a row, and nothing is reserved. -/
def emptyStore : ReflectionStore where
  journals := fun _ => { entries := [], state := initialReflectionState }
  reservation := ⟨none, none⟩
  captured := []

end OpenAgent.Memory
