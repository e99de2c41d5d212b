import OpenAgent.Team.InboxBudget

/-!
# Accepted sends keep the budget

A process inside a send holds the lock, so nobody else writes; the renames of
the others add no bytes and uncover nothing that a measurement has counted or
still has to count.  The room that a send finds is therefore there when it
writes.
-/

namespace OpenAgent.Team

open Library

variable {Id : Type}

namespace InboxPoint

/-- The process holds the lock of the inbox. -/
def holdsLock : InboxPoint Id → Bool
  | .mail point => point.holdsLock
  | .stat _ _ _ => true

/-- The message for which the budget was checked and that is not written
yet. -/
def cleared : InboxPoint Id → Option (Send Id)
  | .mail (.statUnread send) | .mail (.statReserved send) | .mail (.write send) => some send
  | _ => none

end InboxPoint

section Assertions

variable [DecidableEq Id]

/-- Files belong to accepted messages, and the budget is kept. -/
structure WithinBudget (maxBytes : Nat) (inbox : Inbox Id) : Prop where
  known : ∀ id place, inbox.mailbox.files id place = true → id ∈ inbox.mailbox.accepted
  within : inbox.total ≤ maxBytes

/-- What a process at a point relies on: its lock, its measurement, and the
room it has found. -/
structure PointWithin (maxBytes : Nat) (process : Process) (point : InboxPoint Id)
    (inbox : Inbox Id) : Prop where
  locked : point.holdsLock = true → inbox.mailbox.lock = some process
  covered : ∀ send remaining counted, point = .stat send remaining counted →
    ∀ id, Covered inbox remaining counted id
  room : ∀ send, point.cleared = some send → inbox.total + send.serializedMessageBytes ≤ maxBytes

/-- How a move changes the inbox. -/
inductive InboxChange (process : Process) (point : InboxPoint Id) : Inbox Id → Inbox Id → Prop
  | kept (inbox : Inbox Id) : InboxChange process point inbox inbox
  | locked {inbox : Inbox Id} (free : inbox.mailbox.lock = none) : InboxChange process point inbox
        { inbox with mailbox := { inbox.mailbox with lock := some process } }
  | unlocked {inbox : Inbox Id} (holds : point.holdsLock = true) : InboxChange process point inbox
        { inbox with mailbox := { inbox.mailbox with lock := none } }
  | renamed {inbox : Inbox Id} (id : Id) (source target : Place)
      (rename : PlainRename inbox id source target) :
      InboxChange process point inbox (inbox.renamed id source target)
  | written {inbox : Inbox Id} (send : Send Id) (isWrite : point = .mail (.write send)) :
      InboxChange process point inbox (inbox.written send)

variable {inbox : Inbox Id}
  {next : InboxPoint Id}

theorem InboxChange.withinBudget (change : InboxChange process point inbox after)
    (within : WithinBudget maxBytes inbox) (own : PointWithin maxBytes process point inbox) :
    WithinBudget maxBytes after := by
  cases change with
  | kept => exact within
  | locked free | unlocked holds => exact ⟨within.known, within.within⟩
  | renamed id source target rename =>
    refine ⟨?_, rename.total_le.trans within.within⟩
    intro moved place present
    by_cases same : moved = id
    · rw [same]
      exact within.known id source rename.present
    · apply within.known moved place
      simpa [Inbox.renamed, moveFile, same] using present
  | written send isWrite =>
    refine ⟨?_, (total_written_le within.known send).trans (own.room send (by rw [isWrite]; rfl))⟩
    intro id place present
    by_cases same : id = send.messageId
    · rw [same]
      exact List.mem_append_right _ (List.mem_singleton_self _)
    · apply List.mem_append_left
      apply within.known id place
      simpa [Inbox.written, writeFile, same] using present

/-- A process keeps what it relies on while another one moves. -/
theorem InboxChange.others (change : InboxChange process point inbox after)
    (own : PointWithin maxBytes process point inbox) (differs : other ≠ process)
    (relied : PointWithin maxBytes other otherPoint inbox) :
    PointWithin maxBytes other otherPoint after := by
  have notBoth : point.holdsLock = true → otherPoint.holdsLock = true → False := by
    intro ownHolds otherHolds
    have sameLock := (own.locked ownHolds).symm.trans (relied.locked otherHolds)
    exact differs (Option.some.inj sameLock).symm
  cases change with
  | kept => exact relied
  | locked free =>
    refine ⟨?_, relied.covered, relied.room⟩
    intro otherHolds
    rw [relied.locked otherHolds] at free
    cases free
  | unlocked holds =>
    exact ⟨fun otherHolds => (notBoth holds otherHolds).elim, relied.covered, relied.room⟩
  | renamed id source target rename =>
    refine ⟨relied.locked, ?_, ?_⟩
    · intro send remaining counted isStat id
      exact (relied.covered send remaining counted isStat id).renamed rename
    · intro send isCleared
      exact (Nat.add_le_add_right rename.total_le _).trans (relied.room send isCleared)
  | written written isWrite =>
    have ownHolds : point.holdsLock = true := by
      rw [isWrite]
      rfl
    refine ⟨fun otherHolds => (notBoth ownHolds otherHolds).elim, ?_, ?_⟩
    · rintro send remaining counted rfl
      exact (notBoth ownHolds rfl).elim
    · intro send isCleared
      have otherHolds : otherPoint.holdsLock = true := by
        unfold InboxPoint.cleared at isCleared
        split at isCleared <;> first | rfl | cases isCleared
      exact (notBoth ownHolds otherHolds).elim

theorem pointWithin_of_plain (locked : next.holdsLock = true → after.mailbox.lock = some process)
    (unmeasured : ∀ send remaining counted, next ≠ .stat send remaining counted)
    (uncleared : next.cleared = none) : PointWithin maxBytes process next after where
  locked := locked
  covered := fun send remaining counted isStat => absurd isStat (unmeasured send remaining counted)
  room := fun send isCleared => absurd (uncleared.symm.trans isCleared) (by simp)

theorem pointWithin_of_outside {point : MailPoint Id} (outside : point.isOutside = true) :
    PointWithin maxBytes process (.mail point) after := by
  have noLock : point.holdsLock = false := by simpa [MailPoint.isOutside] using outside
  apply pointWithin_of_plain
  · intro holds
    exact absurd (noLock.symm.trans holds) (by simp)
  · rintro _ _ _ ⟨⟩
  · cases point <;> first | rfl | cases outside

/-- The check of the budget. -/
theorem pointWithin_checkBudget (locked : inbox.mailbox.lock = some process)
    (enough : inbox.total ≤ size) :
    PointWithin maxBytes process (checkBudget maxBytes send size) inbox := by
  unfold checkBudget
  split
  next => exact pointWithin_of_plain (fun _ => locked) (fun _ _ _ isStat => nomatch isStat) rfl
  next fits =>
    refine ⟨fun _ => locked, fun _ _ _ isStat => (nomatch isStat), ?_⟩
    intro other isCleared
    cases isCleared
    omega

variable {id : Id}

/-- The renames of the mailbox. -/
theorem mailMove_renaming {next : MailPoint Id}
    (isRename : point.renameOf = some (id, source, target))
    (moved : mailMove maxBytes process choice point mailbox = some (after, next)) :
    next.isOutside = true ∧ source ≠ .processed ∧ source ≠ target ∧
      after = if mailbox.files id source then
        { mailbox with files := moveFile mailbox.files id source target }
      else mailbox := by
  have renamed : ∀ {present missing : MailPoint Id},
      present.isOutside = true → missing.isOutside = true →
      mailbox.rename id source target present missing = (after, next) →
      next.isOutside = true ∧ after = if mailbox.files id source then
        { mailbox with files := moveFile mailbox.files id source target }
      else mailbox := by
    intro present missing presentOutside missingOutside result
    unfold Mailbox.rename at result
    split at result <;> cases result
    next isThere => exact ⟨presentOutside, (if_pos isThere).symm⟩
    next isMissing => exact ⟨missingOutside, (if_neg isMissing).symm⟩
  have proceeds : choice = .proceed := by
    cases point <;> cases choice <;> simp_all [MailPoint.renameOf, mailMove]
  subst proceeds
  cases point with
  | reserveRename moving afterwards | reclaimRename moving rest | ackReserved moving rest =>
    cases isRename
    have result := renamed (by simp) (by simp) (Option.some.inj moved)
    exact ⟨result.1, by decide, by decide, result.2⟩
  | commitRename moving =>
    cases isRename
    have result := renamed rfl rfl (Option.some.inj moved)
    exact ⟨result.1, by decide, by decide, result.2⟩
  | releaseRename moving rest | ackUnread moving rest =>
    cases isRename
    have result := renamed (by simp) rfl (Option.some.inj moved)
    exact ⟨result.1, by decide, by decide, result.2⟩
  | _ => cases isRename

theorem sizesAfter_of_rename (isRename : mailPoint.renameOf = some (id, source, target)) :
    sizesAfter mailPoint inbox =
      if inbox.mailbox.files id source then setSize inbox.sizes id target (inbox.sizes id source)
      else inbox.sizes := by
  unfold sizesAfter
  split
  next => cases isRename
  next => simp only [isRename]

theorem sizesAfter_of_plain (noRename : mailPoint.renameOf = none)
    (noWrite : ∀ send, mailPoint ≠ .write send) : sizesAfter mailPoint inbox = inbox.sizes := by
  unfold sizesAfter
  split
  next send => exact absurd rfl (noWrite send)
  next => simp only [noRename]

section MailMoves

theorem within_of_rename (isRename : mailPoint.renameOf = some (id, source, target))
    (moved : mailMove maxBytes process choice mailPoint inbox.mailbox = some (moving, nextPoint)) :
    InboxChange process (.mail mailPoint) inbox
        { mailbox := moving, sizes := sizesAfter mailPoint inbox } ∧
      PointWithin maxBytes process (.mail nextPoint)
        { mailbox := moving, sizes := sizesAfter mailPoint inbox } := by
  obtain ⟨outside, pending, differs, isMailbox⟩ := mailMove_renaming isRename moved
  refine ⟨?_, pointWithin_of_outside outside⟩
  rw [isMailbox, sizesAfter_of_rename isRename]
  by_cases present : inbox.mailbox.files id source = true
  · rw [if_pos present, if_pos present]
    exact .renamed id source target ⟨present, pending, differs⟩
  · rw [if_neg present, if_neg present]
    exact .kept inbox

theorem within_of_write (own : PointWithin maxBytes process (.mail (.write send)) inbox)
    (moved : mailMove maxBytes process choice (.write send) inbox.mailbox =
      some (moving, nextPoint)) :
    InboxChange process (.mail (.write send)) inbox
        { mailbox := moving, sizes := sizesAfter (.write send) inbox } ∧
      PointWithin maxBytes process (.mail nextPoint)
        { mailbox := moving, sizes := sizesAfter (.write send) inbox } := by
  cases choice with
  | proceed =>
    cases moved
    refine ⟨.written send rfl, ?_⟩
    exact pointWithin_of_plain (fun _ => own.locked rfl) (fun _ _ _ isStat => nomatch isStat) rfl
  | _ => cases moved

/-- The calls of the mailbox that move no file. -/
theorem within_of_plain (own : PointWithin maxBytes process (.mail mailPoint) inbox)
    (noRename : mailPoint.renameOf = none) (noWrite : ∀ send, mailPoint ≠ .write send)
    (unmeasured : ∀ send, mailPoint ≠ .measure send)
    (moved : mailMove maxBytes process choice mailPoint inbox.mailbox = some (moving, nextPoint)) :
    InboxChange process (.mail mailPoint) inbox { inbox with mailbox := moving } ∧
      PointWithin maxBytes process (.mail nextPoint) { inbox with mailbox := moving } := by
  cases mailMove_effect moved with
  | outside outside before => exact ⟨.kept inbox, pointWithin_of_outside outside⟩
  | moved isMoving pending present outside =>
    exact absurd isMoving (by
      cases mailPoint <;> simp_all [MailPoint.renameOf, MailPoint.moving])
  | locked free =>
    refine ⟨.locked free, ?_⟩
    exact pointWithin_of_plain (fun _ => rfl) (by rintro _ _ _ ⟨⟩) rfl
  | measured => exact absurd rfl (unmeasured _)
  | refused holds =>
    refine ⟨.kept inbox, ?_⟩
    exact pointWithin_of_plain (fun _ => own.locked holds) (by rintro _ _ _ ⟨⟩) rfl
  | notUnread absent | notReserved absent =>
    exact ⟨.kept inbox, fun _ => own.locked rfl, by rintro _ _ _ ⟨⟩, own.room⟩
  | written => exact absurd rfl (noWrite _)
  | unlocked => exact ⟨.unlocked rfl, pointWithin_of_outside rfl⟩

/-- A move of the mailbox outside the measurement. -/
theorem mailMove_within (own : PointWithin maxBytes process (.mail mailPoint) inbox)
    (unmeasured : ∀ send, mailPoint ≠ .measure send)
    (moved : mailMove maxBytes process choice mailPoint inbox.mailbox = some (moving, nextPoint)) :
    InboxChange process (.mail mailPoint) inbox
        { mailbox := moving, sizes := sizesAfter mailPoint inbox } ∧
      PointWithin maxBytes process (.mail nextPoint)
        { mailbox := moving, sizes := sizesAfter mailPoint inbox } := by
  cases isRename : mailPoint.renameOf with
  | some rename => exact within_of_rename isRename moved
  | none =>
    by_cases isWrite : ∃ send, mailPoint = .write send
    · obtain ⟨send, rfl⟩ := isWrite
      exact within_of_write own moved
    · have noWrite : ∀ send, mailPoint ≠ .write send := fun send equal => isWrite ⟨send, equal⟩
      rw [sizesAfter_of_plain isRename noWrite]
      exact within_of_plain own isRename noWrite unmeasured moved

end MailMoves

/-- What a move does to the inbox, and what its process relies on behind
it. -/
theorem inboxMove_within (within : WithinBudget maxBytes inbox)
    (own : PointWithin maxBytes process point inbox)
    (stays : ∀ entry, choice = .answered entry → inbox.mailbox.files entry.1 entry.2 = true)
    (moved : inboxMove maxBytes process choice point inbox = some (after, next)) :
    InboxChange process point inbox after ∧ PointWithin maxBytes process next after := by
  unfold inboxMove at moved
  split at moved
  next send entries =>
    split at moved <;> cases moved
    next listed =>
      refine ⟨.kept inbox, fun _ => own.locked rfl, ?_, fun _ isCleared => (nomatch isCleared)⟩
      rintro other remaining counted isStat
      cases isStat
      exact covered_listed within.known listed
  next => cases moved
  next send remaining counted entry =>
    have present := stays entry rfl
    split at moved <;> cases moved
    refine ⟨.kept inbox, fun _ => own.locked rfl, ?_, fun _ isCleared => (nomatch isCleared)⟩
    intro other rest counted isStat id
    cases isStat
    exact (own.covered send remaining _ rfl id).answered present
  next send counted =>
    cases moved
    refine ⟨.kept inbox, pointWithin_checkBudget (own.locked rfl) ?_⟩
    exact total_le_counted (own.covered send [] counted rfl)
  next unmeasured =>
    obtain ⟨⟨moving, nextPoint⟩, isMove, result⟩ := Option.map_eq_some_iff.mp moved
    cases result
    apply mailMove_within own _ isMove
    rintro send rfl
    exact unmeasured send rfl
  next => cases moved

/-- One step of the processes. -/
theorem withinBudget_step {later : Pool (Inbox Id) (InboxPoint Id)}
    (holds : pool.Holds (WithinBudget maxBytes) (PointWithin maxBytes))
    (stays : ListedFilesStay pool label later)
    (taken : inboxStep maxBytes pool label = some later) :
    later.Holds (WithinBudget maxBytes) (PointWithin maxBytes) := by
  refine holds.advance taken ?_
  intro world next moved
  have own := holds.each label.1
  obtain ⟨change, ownNext⟩ := inboxMove_within holds.shared own stays moved
  exact ⟨change.withinBudget holds.shared own, ownNext,
    fun other differs relied => change.others own differs relied⟩

theorem withinBudget_emptyInbox :
    (emptyInbox : Pool (Inbox Id) (InboxPoint Id)).Holds (WithinBudget maxBytes)
      (PointWithin maxBytes) where
  shared := ⟨fun _ _ present => (nomatch present), Nat.zero_le _⟩
  each := fun _ => pointWithin_of_outside rfl

/-- In every run in which no `stat` of a measurement finds its file renamed
away, the unread and reserved messages of the inbox stay within the budget. -/
theorem total_le_of_listedFilesStay {labels : List (Process × InboxChoice Id)}
    {final : Pool (Inbox Id) (InboxPoint Id)}
    (stay : EveryStep (inboxStep maxBytes) ListedFilesStay emptyInbox labels)
    (reached : execute (inboxStep maxBytes) emptyInbox labels = some final) :
    final.world.total ≤ maxBytes := by
  refine (invariant_of_execute ?_ withinBudget_emptyInbox reached stay).shared.within
  intro pool label later holds stays taken
  exact withinBudget_step holds stays taken

end Assertions

/-- A message of eight bytes for the inbox. -/
def eightBytes (messageId : Nat) : Send Nat where
  messageId := messageId
  serializedMessageBytes := 8
  reservedRecipient := false

/-- A process sends a message, with the listed files and the order of the
answers. -/
def sendLabels (process : Process) (messageId : Nat)
    (entries : List (InboxEntry Nat)) : List (Process × InboxChoice Nat) :=
  [(process, .mail (.call (.send (eightBytes messageId)))), (process, .mail .proceed),
    (process, .listed entries)] ++
  entries.map (fun entry => (process, .answered entry)) ++
  [(process, .summed), (process, .mail .proceed), (process, .mail .proceed),
    (process, .mail .proceed), (process, .mail .proceed)]

/-- Two sends, and a reservation between them. -/
def reservedBetween : List (Process × InboxChoice Nat) :=
  sendLabels 0 1 [] ++
    [(2, .mail (.call (.reserve 1))), (2, .mail .proceed), (2, .mail .proceed)] ++
    sendLabels 1 2 [(1, .reserved)]

theorem listedFilesStay_reservedBetween :
    EveryStep (inboxStep 16) ListedFilesStay emptyInbox reservedBetween := by
  iterate 20 apply EveryStep.cons rfl (by rintro _ ⟨⟩ <;> rfl)
  trivial

/-- Both messages fit a budget of sixteen bytes. -/
theorem total_le_reservedBetween :
    ∃ final, execute (inboxStep 16) emptyInbox reservedBetween = some final ∧
      final.world.total = 16 ∧ final.world.total ≤ 16 := by
  obtain ⟨final, reached, total⟩ : ∃ final,
      execute (inboxStep 16) emptyInbox reservedBetween = some final ∧ final.world.total = 16 :=
    ⟨_, rfl, by decide +kernel⟩
  exact ⟨final, reached, total, total_le_of_listedFilesStay listedFilesStay_reservedBetween reached⟩

/-- A reservation between `readdir` and `stat`: the second send measures
nothing, and the inbox holds sixteen bytes in a budget of ten. -/
theorem not_total_le_renamed :
    ∃ final, execute (inboxStep 10) emptyInbox (sendLabels 0 1 [] ++
          [(1, .mail (.call (.send (eightBytes 2)))), (1, .mail .proceed),
            (1, .listed [(1, .unread)]), (2, .mail (.call (.reserve 1))), (2, .mail .proceed),
            (2, .mail .proceed), (1, .answered (1, .unread)), (1, .mail .proceed),
            (1, .mail .proceed), (1, .mail .proceed)]) = some final ∧
      ¬ final.world.total ≤ 10 :=
  ⟨_, rfl, by decide +kernel⟩

end OpenAgent.Team
