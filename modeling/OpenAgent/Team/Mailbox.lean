import OpenAgent.Library.Interleaving

/-!
# The team mailbox

`send.ts`, `reservation.ts`, `ack.ts` and `requeuePendingLiveDeliveries` of
`pending-delivery-recovery.ts`, on the inbox of one recipient.  A point stands
before one call of the file system, and a choice holds what the call answers
beyond the state: sizes, ages and the order of a directory.  Sizes of files are
only seen through such answers.
-/

namespace OpenAgent.Team

open Library

variable {Id : Type}

/-- The places of a message file: `ID.json`, `.delivering-ID.json` and
`processed/ID.json`. -/
inductive Place
  | unread
  | reserved
  | processed
  deriving DecidableEq

/-- What `sendMessage` needs of a message and of its context. -/
structure Send (Id : Type) where
  messageId : Id
  serializedMessageBytes : Nat
  /-- The recipient is not the lead and has live delivery. -/
  reservedRecipient : Bool
  deriving DecidableEq

/-- The place that a message is written to. -/
def Send.target (send : Send Id) : Place :=
  if send.reservedRecipient then .reserved else .unread

/-- What follows a successful reservation: the caller keeps it, or the requeue
loop releases it and goes on. -/
inductive Afterwards (Id : Type)
  | keep
  | releaseThen (rest : List Id)
  deriving DecidableEq

/-- The points of the mailbox operations. -/
inductive MailPoint (Id : Type)
  | idle
  /-- `open(lockPath, "wx")` of `withLock` in `sendMessage`. -/
  | openLock (send : Send Id)
  /-- `getUnreadSizeBytes`. -/
  | measure (send : Send Id)
  /-- `fileExists(unreservedPath)`. -/
  | statUnread (send : Send Id)
  /-- `fileExists(reservedPath)`. -/
  | statReserved (send : Send Id)
  /-- The rename of `atomicWrite`. -/
  | write (send : Send Id)
  /-- The removal of the lock. -/
  | unlock
  /-- `stat(reservedPath)` of `reserveMessageForDelivery`. -/
  | reserveStat (id : Id) (afterwards : Afterwards Id)
  /-- `rename(inboxPath, reservedPath)`. -/
  | reserveRename (id : Id) (afterwards : Afterwards Id)
  /-- `rename(reservedPath, processedPath)` of `commitDeliveryReservation`. -/
  | commitRename (id : Id)
  /-- `rename(reservedPath, inboxPath)` of `releaseDeliveryReservation`. -/
  | releaseRename (id : Id) (rest : List Id)
  /-- `readdir(inboxDir)` of `reclaimStaleReservations`. -/
  | reclaimList
  /-- `stat(filePath)`. -/
  | reclaimStat (id : Id) (rest : List Id)
  /-- `rename(filePath, restoredPath)`. -/
  | reclaimRename (id : Id) (rest : List Id)
  /-- `rename` from the inbox in `ackMessages`. -/
  | ackUnread (id : Id) (rest : List Id)
  /-- `rename` from the reservation in `ackMessages`. -/
  | ackReserved (id : Id) (rest : List Id)
  deriving DecidableEq

/-- The operations on a mailbox. -/
inductive MailOperation (Id : Type)
  | send (send : Send Id)
  | reserve (id : Id)
  | commit (id : Id)
  | release (id : Id)
  | reclaim
  | ack (messageIds : List Id)
  | requeue (messageIds : List Id)
  deriving DecidableEq

/-- What happens at a step. -/
inductive MailChoice (Id : Type)
  /-- An idle process calls an operation. -/
  | call (operation : MailOperation Id)
  /-- The file system answers from its state. -/
  | proceed
  /-- The wait for the lock times out. -/
  | timeout
  /-- The sizes of the unread files add up to this. -/
  | measured (unreadSizeBytes : Nat)
  /-- The directory holds these reservations. -/
  | listed (entries : List Id)
  /-- The reservation is older than the cutoff, or not. -/
  | aged (stale : Bool)
  deriving DecidableEq

/-- The inbox of a recipient. -/
structure Mailbox (Id : Type) where
  files : Id → Place → Bool
  lock : Option Process
  /-- The messages that `sendMessage` has written. -/
  accepted : List Id

/-- The loops over message ids. -/
def ackNext : List Id → MailPoint Id
  | [] => .idle
  | id :: rest => .ackUnread id rest

def requeueNext : List Id → MailPoint Id
  | [] => .idle
  | id :: rest => .reserveStat id (.releaseThen rest)

def reclaimNext : List Id → MailPoint Id
  | [] => .idle
  | id :: rest => .reclaimStat id rest

/-- The point at which an operation starts. -/
def MailOperation.start : MailOperation Id → MailPoint Id
  | .send message => .openLock message
  | .reserve id => .reserveStat id .keep
  | .commit id => .commitRename id
  | .release id => .releaseRename id []
  | .reclaim => .reclaimList
  | .ack messageIds => ackNext messageIds
  | .requeue messageIds => requeueNext messageIds

/-- The reservation is at hand. -/
def Afterwards.reserved (id : Id) : Afterwards Id → MailPoint Id
  | keep => .idle
  | releaseThen rest => .releaseRename id rest

/-- There is nothing to reserve. -/
def Afterwards.missing : Afterwards Id → MailPoint Id
  | keep => .idle
  | releaseThen rest => requeueNext rest

section Moves

variable [DecidableEq Id]

/-- The files after `rename`; the target is replaced. -/
def moveFile (files : Id → Place → Bool) (id : Id) (source target : Place) : Id → Place → Bool :=
  fun other place =>
    if other = id then
      if place = target then true else if place = source then false else files id place
    else files other place

/-- The files after `atomicWrite`. -/
def writeFile (files : Id → Place → Bool) (id : Id) (target : Place) : Id → Place → Bool :=
  fun other place => if other = id ∧ place = target then true else files other place

/-- A rename, and where the process goes when the source is there and when it is
missing. -/
def Mailbox.rename (mailbox : Mailbox Id) (id : Id) (source target : Place)
    (moved missing : MailPoint Id) : Mailbox Id × MailPoint Id :=
  if mailbox.files id source then
    ({ mailbox with files := moveFile mailbox.files id source target }, moved)
  else (mailbox, missing)

/-- The move of a process. -/
def mailMove (recipientUnreadMaxBytes : Nat) (process : Process) (choice : MailChoice Id)
    (point : MailPoint Id) (mailbox : Mailbox Id) : Option (Mailbox Id × MailPoint Id) :=
  match point, choice with
  | .idle, .call operation => some (mailbox, operation.start)
  | .openLock send, .proceed =>
    -- no owner dies here, so a lock that is held is waited for
    if mailbox.lock.isNone then
      some ({ mailbox with lock := some process }, .measure send)
    else some (mailbox, .openLock send)
  | .openLock _, .timeout => some (mailbox, .idle)
  | .measure send, .measured unreadSizeBytes =>
    if recipientUnreadMaxBytes < unreadSizeBytes + send.serializedMessageBytes then
      some (mailbox, .unlock)
    else some (mailbox, .statUnread send)
  | .statUnread send, .proceed =>
    if mailbox.files send.messageId .unread then some (mailbox, .unlock)
    else some (mailbox, .statReserved send)
  | .statReserved send, .proceed =>
    if mailbox.files send.messageId .reserved then some (mailbox, .unlock)
    else some (mailbox, .write send)
  | .write send, .proceed =>
    some ({ mailbox with
      files := writeFile mailbox.files send.messageId send.target
      accepted := mailbox.accepted ++ [send.messageId] }, .unlock)
  | .unlock, .proceed => some ({ mailbox with lock := none }, .idle)
  | .reserveStat id afterwards, .proceed =>
    if mailbox.files id .reserved then some (mailbox, afterwards.reserved id)
    else some (mailbox, .reserveRename id afterwards)
  | .reserveRename id afterwards, .proceed =>
    some (mailbox.rename id .unread .reserved (afterwards.reserved id) afterwards.missing)
  | .commitRename id, .proceed =>
    some (mailbox.rename id .reserved .processed .idle .idle)
  | .releaseRename id rest, .proceed =>
    -- a missing reservation is an error that ends the loop
    some (mailbox.rename id .reserved .unread (requeueNext rest) .idle)
  | .reclaimList, .listed entries =>
    if entries.all (mailbox.files · .reserved) then some (mailbox, reclaimNext entries)
    else none
  | .reclaimStat id rest, .aged stale =>
    if mailbox.files id .reserved then
      if stale then some (mailbox, .reclaimRename id rest)
      else some (mailbox, reclaimNext rest)
    else some (mailbox, .idle)
  | .reclaimRename id rest, .proceed =>
    some (mailbox.rename id .reserved .unread (reclaimNext rest) (reclaimNext rest))
  | .ackUnread id rest, .proceed =>
    some (mailbox.rename id .unread .processed (ackNext rest) (.ackReserved id rest))
  | .ackReserved id rest, .proceed =>
    some (mailbox.rename id .reserved .processed (ackNext rest) (ackNext rest))
  | _, _ => none

end Moves

/-- One step of the processes on a mailbox. -/
def mailStep [DecidableEq Id] (recipientUnreadMaxBytes : Nat)
    (pool : Pool (Mailbox Id) (MailPoint Id))
    (label : Process × MailChoice Id) : Option (Pool (Mailbox Id) (MailPoint Id)) :=
  pool.advance (mailMove recipientUnreadMaxBytes label.1 label.2) label.1

/-- An empty mailbox. -/
def emptyMailbox : Pool (Mailbox Id) (MailPoint Id) where
  world := { files := fun _ _ => false, lock := none, accepted := [] }
  points := fun _ => .idle

end OpenAgent.Team
