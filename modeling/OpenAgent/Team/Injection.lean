import OpenAgent.Library.Json
import OpenAgent.Library.TextDecoder
import OpenAgent.Team.MailboxConservation

/-!
# Injection of team messages

`pollAndBuildInjection` of `team-mailbox/poll.ts` for one member, beside the
calls that acknowledge and requeue what was injected: the idle hook and the
error handler of a member session, the wake-up of the lead, and the
reconciliation of stale reservations.  A poll lists
the unread files, reads them, and then claims what is not pending in one
transition of the runtime state; an acknowledgement changes the pending ids
and renames the files in separate steps.
-/

namespace OpenAgent.Team

open Library

/-- The kinds of messages. -/
inductive MessageKind
  | message
  | shutdownRequest
  | shutdownApproved
  | shutdownRejected
  | announcement
  deriving DecidableEq

def MessageKind.text : MessageKind → Text
  | .message => Library.text "message"
  | .shutdownRequest => Library.text "shutdown_request"
  | .shutdownApproved => Library.text "shutdown_approved"
  | .shutdownRejected => Library.text "shutdown_rejected"
  | .announcement => Library.text "announcement"

structure TeamReference where
  path : Text
  description : Option Text
  deriving DecidableEq

/-- What an envelope shows of a message. -/
structure TeamMessage where
  messageId : Text
  sender : Text
  kind : MessageKind
  body : Text
  summary : Option Text
  references : Option (List TeamReference)
  timestamp : Nat
  correlationId : Option Text
  deriving DecidableEq

/-- `value.replaceAll(char, entity)` for the five characters; the ampersands of
the entities are written behind the first replacement. -/
def escapeUnit (char : CodeUnit) : Text :=
  if char = unit '&' then text "&amp;"
  else if char = unit '"' then text "&quot;"
  else if char = unit '<' then text "&lt;"
  else if char = unit '>' then text "&gt;"
  else if char = unit '\'' then text "&apos;"
  else [char]

def escapeAttributeValue (value : Text) : Text :=
  value.flatMap escapeUnit

def attributeText (name : String) (value : Text) : Text :=
  text name ++ text "=\"" ++ escapeAttributeValue value ++ text "\""

def TeamReference.json (reference : TeamReference) : Json :=
  .object ((text "path", .string reference.path) ::
    (reference.description.map fun description =>
      (text "description", Json.string description)).toList)

def buildEnvelope (message : TeamMessage) : Text :=
  let attributes :=
    [attributeText "from" message.sender, attributeText "timestamp" (decimalText message.timestamp),
      attributeText "messageId" message.messageId, attributeText "kind" message.kind.text,
      attributeText "correlationId" (message.correlationId.getD [])] ++
    (message.summary.map (attributeText "summary")).toList ++
    (message.references.map fun references =>
      attributeText "references"
        (textOfChars (stringify (.array (references.map TeamReference.json))))).toList
  text "<peer_message " ++ [unit ' '].intercalate attributes ++ text ">\n" ++ message.body ++
    text "\n</peer_message>"

/-- What happened to message ids, newest first in a history. -/
inductive InjectionEvent
  | injected (messageIds : List Text)
  | requeued (messageId : Text)
  deriving DecidableEq

/-- The inbox and the runtime entry of a member. -/
structure MemberState where
  mailbox : Mailbox Text
  lastInjectedTurnMarker : Option Text
  pendingInjectedMessageIds : List Text
  history : List InjectionEvent

/-- `InjectionResult`. -/
structure InjectionResult where
  injected : Bool
  content : Option Text
  messageIds : List Text
  reason : Option Text

/-- A call of `pollAndBuildInjection`, by the injector hook or by the wake-up
of the lead. -/
structure PollCall where
  turnMarker : Text
  wakesLead : Bool
  deriving DecidableEq

/-- `new Set([...left, ...right])`. -/
def unionIds (left right : List Text) : List Text :=
  setOf (left ++ right)

def notInjected (reason : String) : InjectionResult where
  injected := false
  content := none
  messageIds := []
  reason := some (text reason)

/-- The transition of `pollAndBuildInjection` on the runtime state. -/
def claimInjection (state : MemberState) (turnMarker : Text)
    (unreadMessages : List TeamMessage) : MemberState × InjectionResult :=
  if state.lastInjectedTurnMarker = some turnMarker then
    (state, notInjected "already injected this turn")
  else
    let injectableMessages := unreadMessages.filter fun message =>
      !state.pendingInjectedMessageIds.contains message.messageId
    if injectableMessages = [] then
      (state, notInjected
        (if state.pendingInjectedMessageIds = [] then "no unread" else "pending ack"))
    else
      let messageIds := injectableMessages.map (·.messageId)
      ({ state with
          lastInjectedTurnMarker := some turnMarker
          pendingInjectedMessageIds := unionIds state.pendingInjectedMessageIds messageIds
          history := .injected messageIds :: state.history },
        { injected := true
          content := some ([newline].intercalate (injectableMessages.map buildEnvelope))
          messageIds := messageIds
          reason := none })

/-- What a call still has to do behind its renames. -/
inductive InjectionStage
  /-- `requeuePendingLiveDeliveries`. -/
  | requeue (messageIds : List Text)
  /-- `#clearPending`. -/
  | clearPending (messageIds : List Text)
  /-- `reconcileReclaimedReservations`, with what has been reclaimed. -/
  | reconcile (reclaimed : List Text)
  deriving DecidableEq

/-- The points of the calls on a member. -/
inductive InjectionPoint
  | mail (point : MailPoint Text) (stages : List InjectionStage)
  /-- `readdir` of `listUnreadMessages`. -/
  | listing (poll : PollCall)
  /-- The `readFile` calls of `listUnreadMessages`: the files without an
  answer, and the messages read. -/
  | reading (poll : PollCall) (remaining : List Text) (unread : List TeamMessage)
  /-- `session.synthetic` with the injected batch. -/
  | waking (messageIds : List Text)
  /-- The transition of `#clearPending`, behind an acknowledgement or behind a failure. -/
  | clearing (messageIds : List Text) (stages : List InjectionStage)
  /-- `loadRuntimeState` of the idle hook. -/
  | loading
  /-- `claimPendingMessageAcks`. -/
  | claimingAcks (candidates : List Text)
  /-- `findDeliveredMessageIds`. -/
  | deciding (claimed : List Text)
  /-- `findAcceptedReclaimedMessageIds`. -/
  | reconciling (reclaimed : List Text)
  /-- The transition of the error handler. -/
  | markingErrored
  /-- `markLiveDeliveryPending`. -/
  | markingPending (messageId : Text)
  deriving DecidableEq

/-- What happens at a step. -/
inductive InjectionChoice
  | mail (choice : MailChoice Text)
  | poll (call : PollCall)
  | idle
  | errored
  | markPending (messageId : Text)
  /-- `reconcileStaleReservationsForMember`. -/
  | reconcile
  | proceed
  /-- `readdir` lists these unread files. -/
  | listed (messageIds : List Text)
  /-- A file is read; the message in it, unless it is gone or malformed. -/
  | read (messageId : Text) (message : Option TeamMessage)
  /-- The messages are read, in the order of their timestamps. -/
  | sorted (unread : List TeamMessage)
  /-- The session takes the batch, or not. -/
  | woken (accepted : Bool)
  /-- The ids that the history of the session shows. -/
  | delivered (messageIds : List Text)
  deriving DecidableEq

/-- The point behind a step of the mailbox: the next stage begins where a loop
of renames has ended. -/
def enterStages (point : MailPoint Text) : List InjectionStage → InjectionPoint
  | [] => .mail point []
  | .requeue messageIds :: rest =>
    if point = .idle then enterStages (requeueNext messageIds) rest
    else .mail point (.requeue messageIds :: rest)
  | .clearPending messageIds :: rest =>
    if point = .idle then .clearing messageIds rest
    else .mail point (.clearPending messageIds :: rest)
  | .reconcile reclaimed :: rest =>
    if point = .idle then
      if reclaimed = [] then enterStages .idle rest else .reconciling reclaimed
    else .mail point (.reconcile reclaimed :: rest)

/-- A rename that puts a message back among the unread ones. -/
def MailPoint.puttingBack : MailPoint Text → Option Text
  | .releaseRename id _ | .reclaimRename id _ => some id
  | _ => none

/-- The history behind a step of the mailbox: a message is requeued when its file is put
back. -/
def historyAfter (point : MailPoint Text) (state : MemberState) : List InjectionEvent :=
  match point.puttingBack with
  | some id =>
    if state.mailbox.files id .reserved then .requeued id :: state.history else state.history
  | none => state.history

/-- The stages behind a step of the mailbox: a reconciliation notes what is
reclaimed, and a reservation that is gone at `stat` ends it with an error. -/
def stagesAfter (point : MailPoint Text)
    (state : MemberState) : List InjectionStage → List InjectionStage
  | .reconcile reclaimed :: rest =>
    match point with
    | .reclaimRename id _ =>
      if state.mailbox.files id .reserved then .reconcile (reclaimed ++ [id]) :: rest
      else .reconcile reclaimed :: rest
    | .reclaimStat id _ =>
      if state.mailbox.files id .reserved then .reconcile reclaimed :: rest else []
    | _ => .reconcile reclaimed :: rest
  | stages => stages

def dropIds (ids removed : List Text) : List Text :=
  ids.filter fun id => !removed.contains id

/-- The move of a call. -/
def injectionMove (recipientUnreadMaxBytes : Nat) (process : Process) (choice : InjectionChoice)
    (point : InjectionPoint) (state : MemberState) : Option (MemberState × InjectionPoint) :=
  match point, choice with
  | .mail .idle [], .poll call => some (state, .listing call)
  | .mail .idle [], .idle => some (state, .loading)
  | .mail .idle [], .errored => some (state, .markingErrored)
  | .mail .idle [], .markPending messageId => some (state, .markingPending messageId)
  | .mail .idle [], .reconcile => some (state, .mail .reclaimList [.reconcile []])
  | .mail point stages, .mail choice =>
    (mailMove recipientUnreadMaxBytes process choice point state.mailbox).map fun moved =>
      ({ state with mailbox := moved.1, history := historyAfter point state },
        enterStages moved.2 (stagesAfter point state stages))
  | .listing call, .listed messageIds =>
    if messageIds.all fun id => state.mailbox.files id .unread then
      some (state, .reading call messageIds [])
    else none
  | .reading call remaining unread, .read messageId message =>
    if messageId ∈ remaining ∧ ∀ found, message = some found →
        found.messageId = messageId ∧ state.mailbox.files messageId .unread = true then
      some (state, .reading call (remaining.erase messageId) (unread ++ message.toList))
    else none
  | .reading call [] read, .sorted unread =>
    if unread.Perm read then
      let (claimed, result) := claimInjection state call.turnMarker unread
      some (claimed,
        if result.injected && call.wakesLead then .waking result.messageIds else .mail .idle [])
    else none
  | .waking messageIds, .woken accepted =>
    if accepted then
      some (state, enterStages (ackNext messageIds) [.clearPending messageIds])
    else
      -- the ids are no longer pending, and the files stay where they are
      some (state, .clearing messageIds [])
  | .clearing messageIds stages, .proceed =>
    some ({ state with
        pendingInjectedMessageIds := dropIds state.pendingInjectedMessageIds messageIds },
      enterStages .idle stages)
  | .loading, .proceed => some (state, .claimingAcks state.pendingInjectedMessageIds)
  | .claimingAcks candidates, .proceed =>
    let claimed := state.pendingInjectedMessageIds.filter fun id => candidates.contains id
    some ({ state with
        pendingInjectedMessageIds := dropIds state.pendingInjectedMessageIds claimed },
      .deciding claimed)
  | .deciding claimed, .delivered messageIds =>
    let acked := claimed.filter fun id => messageIds.contains id
    let requeued := claimed.filter fun id => !messageIds.contains id
    some (state, enterStages (ackNext acked) [.requeue requeued])
  | .reconciling reclaimed, .delivered messageIds =>
    some (state, enterStages (ackNext (reclaimed.filter fun id => messageIds.contains id))
      [.clearPending reclaimed])
  | .markingErrored, .proceed =>
    some ({ state with pendingInjectedMessageIds := [] },
      enterStages (requeueNext state.pendingInjectedMessageIds) [])
  | .markingPending messageId, .proceed =>
    some ({ state with
        pendingInjectedMessageIds := unionIds state.pendingInjectedMessageIds [messageId] },
      .mail .idle [])
  | _, _ => none

/-- One step of the calls on a member. -/
def injectionStep (recipientUnreadMaxBytes : Nat) (pool : Pool MemberState InjectionPoint)
    (label : Process × InjectionChoice) : Option (Pool MemberState InjectionPoint) :=
  pool.advance (injectionMove recipientUnreadMaxBytes label.1 label.2) label.1

/-- A member without messages. -/
def freshMember : Pool MemberState InjectionPoint where
  world :=
    { mailbox := { files := fun _ _ => false, lock := none, accepted := [] }
      lastInjectedTurnMarker := none
      pendingInjectedMessageIds := []
      history := [] }
  points := fun _ => .mail .idle []

end OpenAgent.Team
