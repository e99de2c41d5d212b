import OpenAgent.Team.Mailbox

/-!
# Messages are neither lost nor doubled

Every operation but `sendMessage` moves a message, and a move keeps its id in
one place.  A resend checks the inbox and the reservations one after the other
and not the processed messages, so it has to be kept away from processed ids and
from moves between its checks and its write.
-/

namespace OpenAgent.Team

open Library

variable {Id : Type}

/-- The file of a message is in exactly one place. -/
def InOnePlace (files : Place → Bool) : Prop :=
  ∃ place, files place = true ∧ ∀ other, files other = true → other = place

namespace MailPoint

/-- The message whose first check is next. -/
def checking : MailPoint Id → Option (Send Id)
  | .statUnread send => some send
  | _ => none

/-- The message that a process is about to write: its first check is done. -/
def writing : MailPoint Id → Option (Send Id)
  | .statReserved send | .write send => some send
  | _ => none

/-- The process holds the lock of the inbox. -/
def holdsLock : MailPoint Id → Bool
  | .measure _ | .statUnread _ | .statReserved _ | .write _ | .unlock => true
  | _ => false

/-- The move that a process is about to make: the message and where it goes. -/
def moving : MailPoint Id → Option (Id × Place)
  | .reserveRename id _ => some (id, .reserved)
  | .commitRename id => some (id, .processed)
  | .releaseRename id _ | .reclaimRename id _ => some (id, .unread)
  | .ackUnread id _ | .ackReserved id _ => some (id, .processed)
  | _ => none

end MailPoint

/-- A send does not check an id that is already processed, and no message is
moved away from where a resend of it is about to write. -/
structure ResendsKeptApart (pool : Pool (Mailbox Id) (MailPoint Id))
    (label : Process × MailChoice Id) (_ : Pool (Mailbox Id) (MailPoint Id)) : Prop where
  unprocessed : ∀ send, (pool.points label.1).checking = some send →
    pool.world.files send.messageId .processed = false
  unmoved : ∀ id place, (pool.points label.1).moving = some (id, place) →
    ∀ other send, (pool.points other).writing = some send → send.messageId = id →
      place = send.target

namespace MailPoint

/-- The point is outside a send. -/
def isOutside (point : MailPoint Id) : Bool :=
  !point.holdsLock

theorem writing_of_isOutside {point : MailPoint Id} (outside : point.isOutside = true) :
    point.writing = none := by
  cases point <;> first | rfl | cases outside

@[simp] theorem isOutside_ackNext : (ackNext ids).isOutside = true := by
  cases ids <;> rfl

@[simp] theorem isOutside_requeueNext : (requeueNext ids).isOutside = true := by
  cases ids <;> rfl

@[simp] theorem isOutside_reclaimNext : (reclaimNext ids).isOutside = true := by
  cases ids <;> rfl

@[simp] theorem isOutside_reserved (id : Id) (afterwards : Afterwards Id) :
    (afterwards.reserved id).isOutside = true := by
  cases afterwards <;> rfl

@[simp] theorem isOutside_missing (afterwards : Afterwards Id) :
    afterwards.missing.isOutside = true := by
  cases afterwards with
  | keep => rfl
  | releaseThen rest => exact isOutside_requeueNext

@[simp] theorem isOutside_start (operation : MailOperation Id) :
    operation.start.isOutside = true := by
  cases operation with
  | ack messageIds => exact isOutside_ackNext
  | requeue messageIds => exact isOutside_requeueNext
  | _ => rfl

end MailPoint

/-- The effect of a move. -/
inductive MailEffect [DecidableEq Id] (process : Process) :
    MailPoint Id → Mailbox Id → Mailbox Id → MailPoint Id → Prop
  /-- Outside a send, nothing changes. -/
  | outside {point next mailbox} (outside : next.isOutside = true)
      (before : point.isOutside = true) : MailEffect process point mailbox mailbox next
  | moved {point next mailbox id source target} (moving : point.moving = some (id, target))
      (pending : source ≠ .processed) (present : mailbox.files id source = true)
      (outside : next.isOutside = true) : MailEffect process point mailbox
        { mailbox with files := moveFile mailbox.files id source target } next
  | locked {send mailbox} (free : mailbox.lock = none) : MailEffect process (.openLock send) mailbox
        { mailbox with lock := some process } (.measure send)
  | measured {send mailbox} : MailEffect process (.measure send) mailbox mailbox (.statUnread send)
  | refused {point mailbox} (holds : point.holdsLock = true) :
      MailEffect process point mailbox mailbox .unlock
  | notUnread {send mailbox} (absent : mailbox.files send.messageId .unread = false) :
      MailEffect process (.statUnread send) mailbox mailbox (.statReserved send)
  | notReserved {send mailbox} (absent : mailbox.files send.messageId .reserved = false) :
      MailEffect process (.statReserved send) mailbox mailbox (.write send)
  | written {send mailbox} : MailEffect process (.write send) mailbox
        { mailbox with
          files := writeFile mailbox.files send.messageId send.target
          accepted := mailbox.accepted ++ [send.messageId] } .unlock
  | unlocked {mailbox} : MailEffect process .unlock mailbox { mailbox with lock := none } .idle

section Effects

variable [DecidableEq Id] {after : Mailbox Id}

theorem effect_of_rename {id : Id} (moving : point.moving = some (id, target))
    (pending : source ≠ .processed) (before : point.isOutside = true)
    (movedOutside : moved.isOutside = true) (missingOutside : missing.isOutside = true)
    (renamed : mailbox.rename id source target moved missing = (after, next)) :
    MailEffect process point mailbox after next := by
  unfold Mailbox.rename at renamed
  split at renamed
  next present =>
    cases renamed
    exact .moved moving pending present movedOutside
  next =>
    cases renamed
    exact .outside missingOutside before

theorem mailMove_effect
    (moved : mailMove maxBytes process choice point mailbox = some (after, next)) :
    MailEffect process point mailbox after next := by
  revert moved
  fun_cases mailMove maxBytes process choice point mailbox <;> intro moved
  case case15 | case23 | case25 =>
    exact effect_of_rename rfl (by decide) rfl (by simp) (by simp) (Option.some.inj moved)
  case case16 => exact effect_of_rename rfl (by decide) rfl rfl rfl (Option.some.inj moved)
  case case17 | case24 =>
    exact effect_of_rename rfl (by decide) rfl (by simp) rfl (Option.some.inj moved)
  all_goals cases moved
  case case2 free => exact .locked (Option.isNone_iff_eq_none.mp free)
  case case5 | case7 | case9 => exact .refused rfl
  case case6 => exact .measured
  case case8 absent => exact .notUnread (Bool.eq_false_iff.mpr absent)
  case case10 absent => exact .notReserved (Bool.eq_false_iff.mpr absent)
  case case11 => exact .written
  case case12 => exact .unlocked
  case case1 | case13 | case18 | case21 => exact .outside (by simp) rfl
  all_goals exact .outside rfl rfl

end Effects

/-- Accepted messages are in one place and others in none. -/
def MailboxSound (mailbox : Mailbox Id) : Prop :=
  ∀ id, (id ∈ mailbox.accepted → InOnePlace (mailbox.files id)) ∧
    (id ∉ mailbox.accepted → ∀ place, mailbox.files id place = false)

/-- What a process at a point relies on: its lock, and where a file with the id
of its message can be. -/
structure PointSound (process : Process) (point : MailPoint Id) (mailbox : Mailbox Id) : Prop where
  locked : point.holdsLock = true → mailbox.lock = some process
  reservedOnly : ∀ send, point = .statReserved send →
    ∀ place, mailbox.files send.messageId place = true → place = .reserved ∨ place = send.target
  targetOnly : ∀ send, point = .write send →
    ∀ place, mailbox.files send.messageId place = true → place = send.target

/-- The assertions of a mailbox and its processes. -/
abbrev Conserved (pool : Pool (Mailbox Id) (MailPoint Id)) : Prop :=
  pool.Holds MailboxSound PointSound

variable {mailbox : Mailbox Id}

theorem pointSound_of_plain (plain : point.writing = none)
    (locked : point.holdsLock = true → mailbox.lock = some process) :
    PointSound process point mailbox where
  locked := locked
  reservedOnly := by
    rintro send rfl
    cases plain
  targetOnly := by
    rintro send rfl
    cases plain

theorem pointSound_of_isOutside (outside : point.isOutside = true) :
    PointSound process point mailbox := by
  apply pointSound_of_plain (MailPoint.writing_of_isOutside outside)
  intro holds
  simp [MailPoint.isOutside, holds] at outside

/-- A process that holds the lock is alone in it. -/
theorem isOutside_of_lock (lock : ∀ holder, mailbox.lock = some holder → holder = process)
    (differs : other ≠ process) (sound : PointSound other point mailbox) :
    point.isOutside = true := by
  cases holds : point.holdsLock with
  | true => exact absurd (lock other (sound.locked holds)) differs
  | false => simp [MailPoint.isOutside, holds]

theorem InOnePlace.eq_source (once : InOnePlace files) (present : files source = true)
    (there : files place = true) : place = source := by
  obtain ⟨only, _, unique⟩ := once
  rw [unique place there, unique source present]

theorem conserved_empty : Conserved (emptyMailbox : Pool (Mailbox Id) (MailPoint Id)) where
  shared := fun _ => ⟨fun isAccepted => absurd isAccepted List.not_mem_nil, fun _ _ => rfl⟩
  each := fun _ => pointSound_of_isOutside rfl

section Steps

variable [DecidableEq Id] {id : Id}

/-- After a move the message is at its target only. -/
theorem moveFile_iff (once : InOnePlace (files id)) (present : files id source = true)
    (place : Place) : moveFile files id source target id place = true ↔ place = target := by
  by_cases isTarget : place = target
  · simp [moveFile, isTarget]
  · by_cases isSource : place = source
    · subst isSource
      simp [moveFile]
    · simp only [moveFile, isTarget, isSource, iff_false]
      exact fun there => isSource (once.eq_source present there)

theorem moveFile_other (differs : other ≠ id) :
    moveFile files id source target other = files other := by
  funext place
  simp [moveFile, differs]

theorem inOnePlace_of_iff (only : ∀ place, files place = true ↔ place = target) :
    InOnePlace files :=
  ⟨target, (only target).mpr rfl, fun other there => (only other).mp there⟩

theorem mailboxSound_of_move (sound : MailboxSound mailbox) (once : InOnePlace (mailbox.files id))
    (isAccepted : id ∈ mailbox.accepted) (present : mailbox.files id source = true) :
    MailboxSound { mailbox with files := moveFile mailbox.files id source target } := by
  intro other
  by_cases same : other = id
  · subst same
    exact ⟨fun _ => inOnePlace_of_iff (moveFile_iff once present),
      fun unknown => absurd isAccepted unknown⟩
  · simp only [moveFile_other same]
    exact sound other

theorem pointSound_of_move (once : InOnePlace (mailbox.files id))
    (present : mailbox.files id source = true)
    (toTarget : ∀ send, point.writing = some send → send.messageId = id → target = send.target)
    (sound : PointSound process point mailbox) :
    PointSound process point { mailbox with files := moveFile mailbox.files id source target } := by
  have atTarget : ∀ send place, point.writing = some send → send.messageId = id →
      moveFile mailbox.files id source target id place = true → place = send.target := by
    intro send place isWriting same there
    rw [(moveFile_iff once present place).mp there]
    exact toTarget send isWriting same
  refine ⟨sound.locked, ?_, ?_⟩
  · rintro send rfl place there
    by_cases same : send.messageId = id
    · simp only [same] at there
      exact Or.inr (atTarget send place rfl same there)
    · simp only [moveFile_other same] at there
      exact sound.reservedOnly send rfl place there
  · rintro send rfl place there
    by_cases same : send.messageId = id
    · simp only [same] at there
      exact atTarget send place rfl same there
    · simp only [moveFile_other same] at there
      exact sound.targetOnly send rfl place there

theorem mailboxSound_of_write (sound : MailboxSound mailbox)
    (targetOnly : ∀ place, mailbox.files id place = true → place = target) :
    MailboxSound { mailbox with
      files := writeFile mailbox.files id target
      accepted := mailbox.accepted ++ [id] } := by
  intro other
  by_cases same : other = id
  · subst same
    have only : ∀ place, writeFile mailbox.files other target other place = true ↔
        place = target := by
      intro place
      by_cases isTarget : place = target
      · simp [writeFile, isTarget]
      · simp only [writeFile, isTarget, iff_false]
        exact fun there => isTarget (targetOnly place there)
    refine ⟨fun _ => inOnePlace_of_iff only, fun unknown => ?_⟩
    simp at unknown
  · have unchanged : writeFile mailbox.files id target other = mailbox.files other := by
      funext place
      simp [writeFile, same]
    simp only [unchanged, List.mem_append, List.mem_singleton, same, or_false]
    exact sound other

theorem conserved_step (pool : Pool (Mailbox Id) (MailPoint Id)) (label : Process × MailChoice Id)
    (next : Pool (Mailbox Id) (MailPoint Id)) (conserved : Conserved pool)
    (apart : ResendsKeptApart pool label next)
    (stepped : mailStep maxBytes pool label = some next) : Conserved next := by
  apply conserved.advance stepped
  intro after point moved
  have own := conserved.each label.1
  have shared := conserved.shared
  have effect := mailMove_effect moved
  have alone : pool.world.lock = some label.1 → ∀ other, other ≠ label.1 →
      (pool.points other).isOutside = true := by
    intro isHolder other differs
    refine isOutside_of_lock ?_ differs (conserved.each other)
    intro holder isLock
    exact Option.some.inj (isLock.symm.trans isHolder)
  generalize isStart : pool.points label.1 = start at own effect
  cases effect with
  | outside outside before =>
    exact ⟨shared, pointSound_of_isOutside outside, fun _ _ sound => sound⟩
  | @moved _ _ _ id source target moving pending present outside =>
    have isAccepted : id ∈ pool.world.accepted := by
      by_contra unknown
      rw [(shared id).2 unknown source] at present
      cases present
    have once := (shared id).1 isAccepted
    refine ⟨mailboxSound_of_move shared once isAccepted present,
      pointSound_of_isOutside outside, fun other _ sound => ?_⟩
    refine pointSound_of_move once present ?_ sound
    intro send isWriting same
    exact apart.unmoved id target (by rw [isStart]; exact moving) other send isWriting same
  | locked free =>
    refine ⟨shared, pointSound_of_plain rfl fun _ => rfl, fun other differs sound => ?_⟩
    apply pointSound_of_isOutside
    refine isOutside_of_lock ?_ differs sound
    intro holder isLock
    rw [free] at isLock
    cases isLock
  | measured =>
    exact ⟨shared, pointSound_of_plain rfl fun _ => own.locked rfl, fun _ _ sound => sound⟩
  | refused holds =>
    exact ⟨shared, pointSound_of_plain rfl fun _ => own.locked holds, fun _ _ sound => sound⟩
  | @notUnread send _ absent =>
    have unprocessed := apart.unprocessed send (by rw [isStart]; rfl)
    refine ⟨shared, ⟨fun _ => own.locked rfl, ?_, (fun _ equal => nomatch equal)⟩,
      fun _ _ sound => sound⟩
    intro other equal place there
    cases equal
    cases place with
    | unread => rw [absent] at there; cases there
    | reserved => exact Or.inl rfl
    | processed => rw [unprocessed] at there; cases there
  | @notReserved send _ absent =>
    refine ⟨shared, ⟨fun _ => own.locked rfl, (fun _ equal => nomatch equal), ?_⟩,
      fun _ _ sound => sound⟩
    intro other equal place there
    cases equal
    rcases own.reservedOnly send rfl place there with rfl | isTarget
    · rw [absent] at there
      cases there
    · exact isTarget
  | @written send _ =>
    refine ⟨mailboxSound_of_write shared (own.targetOnly send rfl),
      pointSound_of_plain rfl fun _ => own.locked rfl, fun other differs _ => ?_⟩
    exact pointSound_of_isOutside (alone (own.locked rfl) other differs)
  | unlocked =>
    refine ⟨shared, pointSound_of_isOutside rfl, fun other differs _ => ?_⟩
    exact pointSound_of_isOutside (alone (own.locked rfl) other differs)

/-- An accepted message stays accepted, and a processed one stays processed. -/
def KeepsMessages (mailbox after : Mailbox Id) : Prop :=
  ∀ id, (id ∈ mailbox.accepted → id ∈ after.accepted) ∧
    (mailbox.files id .processed = true → after.files id .processed = true)

theorem keepsMessages_of_effect (effect : MailEffect process point mailbox after next) :
    KeepsMessages mailbox after := by
  intro id
  cases effect with
  | @moved _ _ _ other source target moving pending present outside =>
    refine ⟨fun isAccepted => isAccepted, fun processed => ?_⟩
    by_cases same : id = other
    · subst same
      by_cases isTarget : Place.processed = target
      · simp [moveFile, isTarget]
      · simp [moveFile, pending.symm, processed]
    · simpa [moveFile, same] using processed
  | @written send _ =>
    refine ⟨fun isAccepted => List.mem_append_left _ isAccepted, fun processed => ?_⟩
    simp only [writeFile]
    split
    · rfl
    · exact processed
  | _ => exact ⟨fun isAccepted => isAccepted, fun processed => processed⟩

theorem keepsMessages_of_execute {final : Pool (Mailbox Id) (MailPoint Id)}
    (reached : execute (mailStep maxBytes) pool labels = some final) :
    KeepsMessages pool.world final.world := by
  induction labels generalizing pool with
  | nil =>
    cases reached
    exact fun _ => ⟨fun isAccepted => isAccepted, fun processed => processed⟩
  | cons label labels ih =>
    obtain ⟨next, stepped, rest⟩ := execute_cons_eq_some.mp reached
    obtain ⟨world, point, moved, rfl⟩ := Pool.advance_eq_some stepped
    have once := keepsMessages_of_effect (mailMove_effect moved)
    have later := ih rest
    intro id
    exact ⟨fun isAccepted => (later id).1 ((once id).1 isAccepted),
      fun processed => (later id).2 ((once id).2 processed)⟩

/-- Along a run whose resends are kept apart, an accepted message is in exactly
one place at every later time, and is never unread again once it is
processed. -/
theorem mailbox_conserved {maxBytes : Nat} {first second : List (Process × MailChoice Id)}
    {middle final : Pool (Mailbox Id) (MailPoint Id)}
    (reached : execute (mailStep maxBytes) emptyMailbox first = some middle)
    (continued : execute (mailStep maxBytes) middle second = some final)
    (apart : EveryStep (mailStep maxBytes) ResendsKeptApart emptyMailbox (first ++ second))
    {id : Id} (isAccepted : id ∈ middle.world.accepted) :
    InOnePlace (final.world.files id) ∧ (middle.world.files id .processed = true →
        final.world.files id .processed = true ∧ final.world.files id .unread = false) := by
  have whole : execute (mailStep maxBytes) emptyMailbox (first ++ second) = some final :=
    execute_append_eq_some.mpr ⟨middle, reached, continued⟩
  have conserved : Conserved final :=
    invariant_of_execute conserved_step conserved_empty whole apart
  have kept := keepsMessages_of_execute continued id
  have once := (conserved.shared id).1 (kept.1 isAccepted)
  refine ⟨once, fun wasProcessed => ⟨kept.2 wasProcessed, ?_⟩⟩
  cases isUnread : final.world.files id .unread with
  | false => rfl
  | true => exact absurd (once.eq_source (kept.2 wasProcessed) isUnread) (by decide)

end Steps

/-- The steps of an undisturbed send. -/
def sendSteps (process : Process) (message : Send Nat) : List (Process × MailChoice Nat) :=
  [(process, .call (.send message)), (process, .proceed), (process, .measured 0),
    (process, .proceed), (process, .proceed), (process, .proceed), (process, .proceed)]

def sampleMessage : Send Nat where
  messageId := 7
  serializedMessageBytes := 100
  reservedRecipient := false

def acknowledgeSteps : List (Process × MailChoice Nat) :=
  sendSteps 1 sampleMessage ++ [(2, .call (.ack [7])), (2, .proceed)]

theorem apart_of_still {next : Pool (Mailbox Nat) (MailPoint Nat)}
    (still : (pool.points label.1).moving = none)
    (unprocessed : (pool.points label.1).checking = none ∨
      ∀ id, pool.world.files id .processed = false) :
    ResendsKeptApart pool label next where
  unprocessed := by
    intro send isChecking
    rcases unprocessed with none | allUnprocessed
    · rw [none] at isChecking
      cases isChecking
    · exact allUnprocessed send.messageId
  unmoved := by
    intro id place isMoving
    rw [still] at isMoving
    cases isMoving

theorem apart_acknowledge :
    EveryStep (mailStep 1000) ResendsKeptApart emptyMailbox (acknowledgeSteps ++ []) := by
  iterate 3 apply EveryStep.cons rfl (apart_of_still rfl (Or.inl rfl))
  apply EveryStep.cons rfl (apart_of_still rfl (Or.inr fun _ => rfl))
  iterate 4 apply EveryStep.cons rfl (apart_of_still rfl (Or.inl rfl))
  refine EveryStep.cons rfl ⟨?_, ?_⟩ trivial
  · intro send isChecking
    cases isChecking
  · intro id place _ other send isWriting
    by_cases isAcking : other = 2
    · subst isAcking
      cases isWriting
    · simp [isAcking, emptyMailbox, MailPoint.writing] at isWriting

theorem mailbox_conserved_acknowledge :
    ∃ final, execute (mailStep 1000) emptyMailbox acknowledgeSteps = some final ∧
      7 ∈ final.world.accepted ∧ InOnePlace (final.world.files 7) := by
  obtain ⟨final, reached, accepted⟩ :
      ∃ final, execute (mailStep 1000) emptyMailbox acknowledgeSteps = some final ∧
        final.world.accepted = [7] := by
    decide +kernel
  have isAccepted : 7 ∈ final.world.accepted := by simp [accepted]
  exact ⟨final, reached, isAccepted,
    (mailbox_conserved reached rfl apart_acknowledge isAccepted).1⟩

theorem not_inOnePlace_resent :
    ∃ final, execute (mailStep 1000) emptyMailbox
        (acknowledgeSteps ++ sendSteps 1 sampleMessage) = some final ∧
      7 ∈ final.world.accepted ∧ final.world.files 7 .processed = true ∧
      final.world.files 7 .unread = true ∧ ¬ InOnePlace (final.world.files 7) := by
  obtain ⟨final, reached, values⟩ : ∃ final, execute (mailStep 1000) emptyMailbox
        (acknowledgeSteps ++ sendSteps 1 sampleMessage) = some final ∧
        final.world.accepted = [7, 7] ∧ final.world.files 7 .processed = true ∧
        final.world.files 7 .unread = true := by
    decide +kernel
  refine ⟨final, reached, by simp [values.1], values.2.1, values.2.2, ?_⟩
  intro once
  exact absurd (once.eq_source values.2.1 values.2.2) (by decide)

section

variable [DecidableEq Id]

/-- The message has a file. -/
def HasFile (id : Id) (pool : Pool (Mailbox Id) (MailPoint Id)) : Prop :=
  ∃ place, pool.world.files id place = true

theorem hasFile_step {id : Id} (pool label next) (hasFile : HasFile id pool)
    (stepped : mailStep maxBytes pool label = some next) : HasFile id next := by
  obtain ⟨place, isHere⟩ := hasFile
  obtain ⟨world, point, moved, rfl⟩ := Pool.advance_eq_some stepped
  generalize pool.points label.1 = before at moved
  cases mailMove_effect moved with
  | @moved _ _ _ other source target =>
    by_cases same : id = other
    · exact ⟨target, by simp [moveFile, same]⟩
    · exact ⟨place, by simpa [moveFile, same] using isHere⟩
  | written => exact ⟨place, by simp [writeFile, isHere]⟩
  | _ => exact ⟨place, isHere⟩

/-- With resends or without, a message never disappears, and a processed one stays processed. -/
theorem message_never_lost {maxBytes : Nat} {labels : List (Process × MailChoice Id)}
    {pool final : Pool (Mailbox Id) (MailPoint Id)} {id : Id} (hasFile : HasFile id pool)
    (reached : execute (mailStep maxBytes) pool labels = some final) :
    HasFile id final ∧
      (pool.world.files id .processed = true → final.world.files id .processed = true) :=
  ⟨invariant_of_unconditional hasFile_step hasFile reached,
    (keepsMessages_of_execute reached id).2⟩

end

theorem message_never_lost_resent :
    ∃ final, execute (mailStep 1000) { emptyMailbox with
        world := { files := fun _ place => place = .processed, lock := none, accepted := [7] } }
      (sendSteps 1 sampleMessage) = some final ∧ final.world.files 7 .processed = true := by
  refine Exists.imp (fun final reached => ⟨reached, ?_⟩)
    (Option.isSome_iff_exists.mp (by decide +kernel))
  exact (message_never_lost ⟨.processed, rfl⟩ reached).2 rfl

end OpenAgent.Team
