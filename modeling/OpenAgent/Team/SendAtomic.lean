import OpenAgent.Hashline.Streaming

/-!
# A send that throws

`sendMessage` of `team-mailbox/send.ts` with all its recipients.  The recipients are served one
after the other, and each has its own check, so a broadcast that is refused by a later recipient
has been delivered to the earlier ones.
-/

namespace OpenAgent.Team

open Library

/-- An entry of an inbox directory; a directory that is missing has none. -/
structure InboxFile where
  name : Text
  isFile : Bool
  size : Nat
  deriving DecidableEq

/-- The inbox directories by recipient. -/
abbrev Inboxes := Text → List InboxFile

/-- What a send needs of a message; the text is only seen through its length. -/
structure OutgoingMessage where
  messageId : Text
  /-- The name of a member, or a star. -/
  recipient : Text
  body : Text
  serializedMessageBytes : Nat

structure MailboxLimits where
  messagePayloadMaxBytes : Nat
  recipientUnreadMaxBytes : Nat

/-- Who sends, and to whom. -/
structure OutgoingContext where
  isLead : Bool
  activeMembers : List Text
  leadRecipient : Option Text
  reservedRecipients : List Text

/-- What `loadRuntimeState` answers. -/
inductive LoadedState
  | missing
  | failed
  | status (status : Text)

/-- The errors of a send. -/
inductive SendFailure
  | payloadTooLarge
  | teamDeleting
  | runtimeState
  | broadcastNotPermitted
  | invalidRecipient (recipient : Text)
  | recipientBackpressure
  | duplicateMessageId
  deriving DecidableEq

def assertTeamAcceptsMessages : LoadedState → Except SendFailure Unit
  | .missing => .ok ()
  | .failed => .error .runtimeState
  | .status status =>
    if status = text "deleting" ∨ status = text "deleted" then .error .teamDeleting else .ok ()

def resolveRecipients (message : OutgoingMessage)
    (context : OutgoingContext) : Except SendFailure (List Text) :=
  if message.recipient ≠ text "*" then
    if message.recipient ∈ context.activeMembers ++ context.reservedRecipients ++
        context.leadRecipient.toList then .ok [message.recipient]
    else .error (.invalidRecipient message.recipient)
  else .ok (setOf context.activeMembers)

def delivering : Text := text ".delivering-"

def json : Text := text ".json"

/-- A file that `getUnreadSizeBytes` counts. -/
def InboxFile.isUnread (file : InboxFile) : Bool :=
  file.isFile && json.isSuffixOf file.name &&
    (delivering.isPrefixOf file.name || !(text ".").isPrefixOf file.name)

def getUnreadSizeBytes (inbox : List InboxFile) : Nat :=
  ((inbox.filter InboxFile.isUnread).map (·.size)).sum

def fileExists (inbox : List InboxFile) (name : Text) : Bool :=
  inbox.any (·.name == name)

section

variable (limits : MailboxLimits)

/-- The check that an inbox makes under its lock. -/
def refusal (message : OutgoingMessage) (inbox : List InboxFile) : Option SendFailure :=
  if limits.recipientUnreadMaxBytes <
      getUnreadSizeBytes inbox + message.serializedMessageBytes then
    some .recipientBackpressure
  else if fileExists inbox (message.messageId ++ json) ||
      fileExists inbox (delivering ++ message.messageId ++ json) then
    some .duplicateMessageId
  else none

/-- The name of the file that a recipient gets. -/
def targetName (message : OutgoingMessage) (context : OutgoingContext) (recipient : Text) : Text :=
  if some recipient ≠ context.leadRecipient ∧ recipient ∈ context.reservedRecipients then
    delivering ++ message.messageId ++ json
  else message.messageId ++ json

/-- `atomicWrite`; a file of the name is replaced. -/
def atomicWrite (inbox : List InboxFile) (name : Text) (size : Nat) : List InboxFile :=
  inbox.filter (·.name != name) ++ [⟨name, true, size⟩]

/-- The loop of `sendMessage` over the recipients. -/
def deliverTo (limits : MailboxLimits) (message : OutgoingMessage) (context : OutgoingContext)
    (deliveredTo : List Text) :
    List Text → Inboxes → Inboxes × Except SendFailure (List Text)
  | [], inboxes => (inboxes, .ok deliveredTo)
  | recipient :: rest, inboxes =>
    match refusal limits message (inboxes recipient) with
    | some failure => (inboxes, .error failure)
    | none =>
      deliverTo limits message context (deliveredTo ++ [recipient]) rest
        (Function.update inboxes recipient
          (atomicWrite (inboxes recipient) (targetName message context recipient)
            message.serializedMessageBytes))

variable (loaded : LoadedState) (message : OutgoingMessage)

/-- The recipients, when none of the checks before the loop throws. -/
def admitted (context : OutgoingContext) : Except SendFailure (List Text) :=
  if limits.messagePayloadMaxBytes < Hashline.byteLength message.body then
    .error .payloadTooLarge
  else
    match assertTeamAcceptsMessages loaded with
    | .error failure => .error failure
    | .ok () =>
      if message.recipient = text "*" ∧ !context.isLead then .error .broadcastNotPermitted
      else resolveRecipients message context

def sendMessage (context : OutgoingContext) (inboxes : Inboxes) :
    Inboxes × Except SendFailure (List Text) :=
  match admitted limits loaded message context with
  | .error failure => (inboxes, .error failure)
  | .ok recipients => deliverTo limits message context [] recipients inboxes

/-- A send that throws has changed no inbox. -/
def AtomicSend (context : OutgoingContext) (inboxes : Inboxes) : Prop :=
  let (after, result) := sendMessage limits loaded message context inboxes
  ∀ failure, result = .error failure → after = inboxes

/-- A send reaches no inbox, the first inbox refuses it, or none of the others does. -/
def RefusedFirst (context : OutgoingContext) (inboxes : Inboxes) : Prop :=
  match admitted limits loaded message context with
  | .ok (first :: rest) =>
    refusal limits message (inboxes first) ≠ none ∨
      ∀ recipient ∈ rest, refusal limits message (inboxes recipient) = none
  | _ => True

end

theorem nodup_of_admitted (isAdmitted : admitted limits loaded message context = .ok recipients) :
    recipients.Nodup := by
  unfold admitted resolveRecipients at isAdmitted
  split at isAdmitted
  next => cases isAdmitted
  next =>
    split at isAdmitted
    next => cases isAdmitted
    next =>
      split_ifs at isAdmitted <;> cases isAdmitted
      · exact List.nodup_singleton _
      · exact nodup_setOf _

/-- The loop goes through when no inbox refuses. -/
theorem goesThrough_iff (nodup : recipients.Nodup) :
    (∀ failure, (deliverTo limits message context deliveredTo recipients inboxes).2 ≠
        .error failure) ↔
      ∀ recipient ∈ recipients, refusal limits message (inboxes recipient) = none := by
  induction recipients generalizing deliveredTo inboxes with
  | nil => simp [deliverTo]
  | cons first rest ih =>
    obtain ⟨absent, nodup⟩ := List.nodup_cons.mp nodup
    rw [deliverTo, List.forall_mem_cons]
    cases accepts : refusal limits message (inboxes first) with
    | some failure => exact iff_of_false (fun quiet => quiet failure rfl) (by simp)
    | none =>
      rw [ih nodup, and_iff_right rfl]
      refine forall₂_congr fun recipient member => ?_
      rw [Function.update_of_ne (ne_of_mem_of_not_mem member absent)]

/-- The loop leaves the inboxes of others alone. -/
theorem deliverTo_other (absent : recipient ∉ recipients) :
    (deliverTo limits message context deliveredTo recipients inboxes).1 recipient =
      inboxes recipient := by
  induction recipients generalizing deliveredTo inboxes with
  | nil => rfl
  | cons first rest ih =>
    obtain ⟨differs, absent⟩ := List.mem_cons.not.mp absent |> not_or.mp
    rw [deliverTo]
    split
    next => rfl
    next => rw [ih absent, Function.update_of_ne differs]

/-- An inbox that does not refuse is changed by its delivery. -/
theorem atomicWrite_ne (accepts : refusal limits message inbox = none) :
    atomicWrite inbox (targetName message context recipient) size ≠ inbox := by
  intro unchanged
  have written : fileExists (atomicWrite inbox (targetName message context recipient) size)
      (targetName message context recipient) = true := by
    simp [fileExists, atomicWrite]
  rw [unchanged] at written
  unfold refusal at accepts
  unfold targetName at written
  split_ifs at accepts written <;> simp_all

/-- A send that throws has changed no inbox exactly when it was refused first, or is not
refused at all. -/
theorem atomicSend_iff_refusedFirst :
    AtomicSend limits loaded message context inboxes ↔
      RefusedFirst limits loaded message context inboxes := by
  unfold AtomicSend RefusedFirst sendMessage
  match isAdmitted : admitted limits loaded message context with
  | .error failure => exact iff_of_true (fun _ _ => rfl) trivial
  | .ok [] => exact iff_of_true (fun _ _ => rfl) trivial
  | .ok (first :: rest) =>
    obtain ⟨absent, nodup⟩ := List.nodup_cons.mp (nodup_of_admitted isAdmitted)
    cases accepts : refusal limits message (inboxes first) with
    | some failure => simp [deliverTo, accepts]
    | none =>
      have changed : (deliverTo limits message context ([] ++ [first]) rest
          (Function.update inboxes first
            (atomicWrite (inboxes first) (targetName message context first)
              message.serializedMessageBytes))).1 ≠ inboxes := by
        intro unchanged
        have same := congrFun unchanged first
        rw [deliverTo_other absent, Function.update_self] at same
        exact atomicWrite_ne accepts same
      simp only [deliverTo, accepts, changed, imp_false, ← ne_eq, goesThrough_iff nodup]
      rw [or_iff_right (not_ne_iff.mpr rfl)]
      refine forall₂_congr fun recipient member => ?_
      rw [Function.update_of_ne (ne_of_mem_of_not_mem member absent)]

/-- A broadcast to two members, the second of which has no room left. -/
theorem not_atomicSend_broadcast :
    ¬ ∀ limits loaded message context inboxes,
      AtomicSend limits loaded message context inboxes := by
  intro atomic
  have all := atomic ⟨100, 10⟩ .missing ⟨text "id", text "*", [], 5⟩
    ⟨true, [text "a", text "b"], none, []⟩
    (fun recipient => if recipient = text "b" then [⟨text "full.json", true, 10⟩] else [])
    .recipientBackpressure (by decide)
  exact absurd (congrFun all (text "a")) (by decide)

end OpenAgent.Team
