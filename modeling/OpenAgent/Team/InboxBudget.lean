import OpenAgent.Team.MailboxConservation
import Mathlib.Algebra.BigOperators.Ring.Finset
import Mathlib.Algebra.Order.BigOperators.Group.Finset

/-!
# The byte budget of an inbox

A send measures the inbox file by file while other processes rename the files.
The mailbox of the previous modules is refined by the sizes of its files, and
the measurement by its calls: `readdir`, one `stat` for each listed file in any
order, and the sum.  A `stat` that finds its file gone ends the measurement
with zero; as long as this does not happen, the messages that are unread or
reserved never take more than the budget.
-/

namespace OpenAgent.Team

open Library

variable {Id : Type}

/-- A mailbox with the sizes of its files. -/
structure Inbox (Id : Type) where
  mailbox : Mailbox Id
  sizes : Id → Place → Nat

/-- A file that `getUnreadSizeBytes` lists. -/
abbrev InboxEntry (Id : Type) := Id × Place

/-- The points of the mailbox operations, with the measurement of a send. -/
inductive InboxPoint (Id : Type)
  | mail (point : MailPoint Id)
  /-- The `stat` calls of `getUnreadSizeBytes`: the files without an answer,
  and the answers. -/
  | stat (send : Send Id) (remaining : List (InboxEntry Id)) (counted : List (InboxEntry Id × Nat))

/-- What happens at a step. -/
inductive InboxChoice (Id : Type)
  | mail (choice : MailChoice Id)
  /-- `readdir` lists these files. -/
  | listed (entries : List (InboxEntry Id))
  /-- The `stat` of a listed file is answered. -/
  | answered (entry : InboxEntry Id)
  /-- All answers are there. -/
  | summed

namespace Inbox

/-- The bytes of the file of a message at a place. -/
def bytesAt (inbox : Inbox Id) (id : Id) (place : Place) : Nat :=
  if inbox.mailbox.files id place then inbox.sizes id place else 0

/-- The bytes of a message that is unread or reserved. -/
def bytes (inbox : Inbox Id) (id : Id) : Nat :=
  inbox.bytesAt id .unread + inbox.bytesAt id .reserved

variable [DecidableEq Id]

/-- The bytes of all messages that are unread or reserved. -/
def total (inbox : Inbox Id) : Nat :=
  ∑ id ∈ inbox.mailbox.accepted.toFinset, inbox.bytes id

/-- The entries are the unread and reserved files, each once. -/
def lists (inbox : Inbox Id) (entries : List (InboxEntry Id)) : Bool :=
  decide entries.Nodup &&
    entries.all (fun entry => inbox.mailbox.files entry.1 entry.2 && entry.2 != .processed) &&
    inbox.mailbox.accepted.all fun id =>
      [Place.unread, Place.reserved].all fun place =>
        !inbox.mailbox.files id place || entries.contains (id, place)

end Inbox

/-- The rename that a process is about to make: the message, its source and
its target. -/
def MailPoint.renameOf : MailPoint Id → Option (Id × Place × Place)
  | .reserveRename id _ => some (id, .unread, .reserved)
  | .commitRename id => some (id, .reserved, .processed)
  | .releaseRename id _ | .reclaimRename id _ => some (id, .reserved, .unread)
  | .ackUnread id _ => some (id, .unread, .processed)
  | .ackReserved id _ => some (id, .reserved, .processed)
  | _ => none

section Moves

variable [DecidableEq Id]

/-- A size at one place. -/
def setSize (sizes : Id → Place → Nat) (id : Id) (place : Place) (size : Nat) : Id → Place → Nat :=
  fun other spot => if other = id ∧ spot = place then size else sizes other spot

/-- The sizes behind a move of the mailbox: a renamed file keeps its size. -/
def sizesAfter (point : MailPoint Id) (inbox : Inbox Id) : Id → Place → Nat :=
  match point with
  | .write send =>
    setSize inbox.sizes send.messageId send.target send.serializedMessageBytes
  | point =>
    match point.renameOf with
    | some (id, source, target) =>
      if inbox.mailbox.files id source then
        setSize inbox.sizes id target (inbox.sizes id source)
      else inbox.sizes
    | none => inbox.sizes

variable (recipientUnreadMaxBytes : Nat)

/-- The check behind `getUnreadSizeBytes`. -/
def checkBudget (send : Send Id) (unreadSizeBytes : Nat) : InboxPoint Id :=
  if recipientUnreadMaxBytes < unreadSizeBytes + send.serializedMessageBytes then .mail .unlock
  else .mail (.statUnread send)

/-- The move of a process. -/
def inboxMove (process : Process) (choice : InboxChoice Id) (point : InboxPoint Id)
    (inbox : Inbox Id) : Option (Inbox Id × InboxPoint Id) :=
  match point, choice with
  | .mail (.measure send), .listed entries =>
    if inbox.lists entries then some (inbox, .stat send entries []) else none
  | .mail (.measure _), _ => none
  | .stat send remaining counted, .answered entry =>
    if entry ∈ remaining then
      if inbox.mailbox.files entry.1 entry.2 then
        some (inbox, .stat send (remaining.erase entry)
          (counted ++ [(entry, inbox.sizes entry.1 entry.2)]))
      else
        -- the error of one `stat` is taken for a missing directory
        some (inbox, checkBudget recipientUnreadMaxBytes send 0)
    else none
  | .stat send [] counted, .summed =>
    some (inbox, checkBudget recipientUnreadMaxBytes send (counted.map Prod.snd).sum)
  | .mail point, .mail choice =>
    (mailMove recipientUnreadMaxBytes process choice point inbox.mailbox).map fun moved =>
      ({ mailbox := moved.1, sizes := sizesAfter point inbox }, .mail moved.2)
  | _, _ => none

end Moves

/-- One step of the processes on an inbox. -/
def inboxStep [DecidableEq Id] (recipientUnreadMaxBytes : Nat)
    (pool : Pool (Inbox Id) (InboxPoint Id))
    (label : Process × InboxChoice Id) : Option (Pool (Inbox Id) (InboxPoint Id)) :=
  pool.advance (inboxMove recipientUnreadMaxBytes label.1 label.2) label.1

/-- An empty inbox. -/
def emptyInbox : Pool (Inbox Id) (InboxPoint Id) where
  world :=
    { mailbox := { files := fun _ _ => false, lock := none, accepted := [] }
      sizes := fun _ _ => 0 }
  points := fun _ => .mail .idle

/-- No `stat` of a measurement finds its file gone. -/
def ListedFilesStay (pool : Pool (Inbox Id) (InboxPoint Id)) (label : Process × InboxChoice Id)
    (_ : Pool (Inbox Id) (InboxPoint Id)) : Prop :=
  ∀ entry, label.2 = .answered entry → pool.world.mailbox.files entry.1 entry.2 = true

section Bytes

variable [DecidableEq Id]

/-- The inbox behind a rename. -/
def Inbox.renamed (inbox : Inbox Id) (id : Id) (source target : Place) : Inbox Id where
  mailbox := { inbox.mailbox with files := moveFile inbox.mailbox.files id source target }
  sizes := setSize inbox.sizes id target (inbox.sizes id source)

/-- The inbox behind an accepted send. -/
def Inbox.written (inbox : Inbox Id) (send : Send Id) : Inbox Id where
  mailbox := { inbox.mailbox with
    files := writeFile inbox.mailbox.files send.messageId send.target
    accepted := inbox.mailbox.accepted ++ [send.messageId] }
  sizes := setSize inbox.sizes send.messageId send.target send.serializedMessageBytes

variable {inbox : Inbox Id} {id : Id}

theorem bytesAt_renamed_other (differs : other ≠ id) :
    (inbox.renamed id source target).bytesAt other place = inbox.bytesAt other place := by
  simp [Inbox.bytesAt, Inbox.renamed, moveFile, setSize, differs]

theorem bytesAt_renamed_target (present : inbox.mailbox.files id source = true) :
    (inbox.renamed id source target).bytesAt id target = inbox.bytesAt id source := by
  simp [Inbox.bytesAt, Inbox.renamed, moveFile, setSize, present]

theorem files_renamed_source (differs : source ≠ target) :
    (inbox.renamed id source target).mailbox.files id source = false := by
  simp [Inbox.renamed, moveFile, differs]

theorem bytesAt_renamed_source (differs : source ≠ target) :
    (inbox.renamed id source target).bytesAt id source = 0 := by
  rw [Inbox.bytesAt, files_renamed_source differs]
  rfl

theorem files_renamed_third (notSource : place ≠ source) (notTarget : place ≠ target) :
    (inbox.renamed id source target).mailbox.files id place = inbox.mailbox.files id place := by
  simp [Inbox.renamed, moveFile, notSource, notTarget]

theorem bytesAt_renamed_third (notSource : place ≠ source) (notTarget : place ≠ target) :
    (inbox.renamed id source target).bytesAt id place = inbox.bytesAt id place := by
  rw [Inbox.bytesAt, files_renamed_third notSource notTarget]
  simp [Inbox.bytesAt, Inbox.renamed, setSize, notTarget]

/-- A rename that `reserve`, `release`, `reclaim`, `commit` and `ack` make. -/
structure PlainRename (inbox : Inbox Id) (id : Id) (source target : Place) : Prop where
  present : inbox.mailbox.files id source = true
  pending : source ≠ .processed
  differs : source ≠ target

/-- No rename adds bytes to a message. -/
theorem PlainRename.bytes_le (rename : PlainRename inbox id source target) :
    (inbox.renamed id source target).bytes other ≤ inbox.bytes other := by
  unfold Inbox.bytes
  by_cases same : other = id
  · subst same
    have moved : (inbox.renamed other source target).bytesAt other target =
        inbox.bytesAt other source := bytesAt_renamed_target rename.present
    have left : (inbox.renamed other source target).bytesAt other source = 0 :=
      bytesAt_renamed_source rename.differs
    cases source with
    | processed => exact absurd rfl rename.pending
    | unread =>
      cases target with
      | unread => exact absurd rfl rename.differs
      | reserved => omega
      | processed =>
        rw [left, bytesAt_renamed_third (by decide) (by decide)]
        omega
    | reserved =>
      cases target with
      | reserved => exact absurd rfl rename.differs
      | unread => omega
      | processed =>
        rw [bytesAt_renamed_third (by decide) (by decide)]
        omega
  · rw [bytesAt_renamed_other same, bytesAt_renamed_other same]

theorem PlainRename.total_le (rename : PlainRename inbox id source target) :
    (inbox.renamed id source target).total ≤ inbox.total :=
  Finset.sum_le_sum fun _ _ => rename.bytes_le

/-- A write adds at most its own bytes. -/
theorem bytes_written_le : (inbox.written send).bytes other ≤
      inbox.bytes other + if other = send.messageId then send.serializedMessageBytes else 0 := by
  by_cases same : other = send.messageId
  · cases isTarget : send.target with
    | unread =>
      simp [Inbox.bytes, Inbox.bytesAt, Inbox.written, writeFile, setSize, same, isTarget]
      omega
    | reserved | processed =>
      simp [Inbox.bytes, Inbox.bytesAt, Inbox.written, writeFile, setSize, same, isTarget]
  · simp [Inbox.bytes, Inbox.bytesAt, Inbox.written, writeFile, setSize, same]

theorem total_written_le
    (known : ∀ id place, inbox.mailbox.files id place = true → id ∈ inbox.mailbox.accepted)
    (send : Send Id) : (inbox.written send).total ≤ inbox.total + send.serializedMessageBytes := by
  have ids : (inbox.written send).mailbox.accepted.toFinset =
      insert send.messageId inbox.mailbox.accepted.toFinset := by
    simp [Inbox.written]
  have absent : send.messageId ∉ inbox.mailbox.accepted.toFinset →
      inbox.bytes send.messageId = 0 := by
    intro unknown
    have nothing : ∀ place, inbox.mailbox.files send.messageId place = false := by
      intro place
      by_contra present
      exact unknown (List.mem_toFinset.mpr
        (known send.messageId place (Bool.eq_true_of_not_eq_false present)))
    simp [Inbox.bytes, Inbox.bytesAt, nothing]
  calc (inbox.written send).total = ∑ id ∈ insert send.messageId inbox.mailbox.accepted.toFinset,
          (inbox.written send).bytes id := by rw [Inbox.total, ids]
    _ ≤ ∑ id ∈ insert send.messageId inbox.mailbox.accepted.toFinset,
          (inbox.bytes id + if id = send.messageId then send.serializedMessageBytes else 0) :=
        Finset.sum_le_sum fun id _ => bytes_written_le
    _ = inbox.total + send.serializedMessageBytes := by
        rw [Finset.sum_add_distrib, Finset.sum_insert_of_eq_zero_if_notMem absent,
          Finset.sum_ite_eq', if_pos (Finset.mem_insert_self _ _)]
        rfl

/-- The bytes of a listed file without an answer. -/
def pendingAt (inbox : Inbox Id) (remaining : List (InboxEntry Id)) (id : Id)
    (place : Place) : Nat :=
  if (id, place) ∈ remaining then inbox.bytesAt id place else 0

section

variable (counted : List (InboxEntry Id × Nat))

/-- The bytes that were counted for a message. -/
def countedOf (id : Id) : Nat :=
  ((counted.filter fun answer => answer.1.1 = id).map Prod.snd).sum

/-- A message is covered: a listed file of it is gone, or what there is of it
was counted or will be. -/
def Covered (inbox : Inbox Id) (remaining : List (InboxEntry Id))
    (counted : List (InboxEntry Id × Nat)) (id : Id) : Prop :=
  (∃ place, place ≠ .processed ∧ (id, place) ∈ remaining ∧ inbox.mailbox.files id place = false) ∨
    inbox.bytes id ≤ countedOf counted id +
      (pendingAt inbox remaining id .unread + pendingAt inbox remaining id .reserved)

theorem covered_listed
    (known : ∀ id place, inbox.mailbox.files id place = true → id ∈ inbox.mailbox.accepted)
    (listed : inbox.lists entries = true) (id : Id) : Covered inbox entries [] id := by
  right
  have each : ∀ place, place = .unread ∨ place = .reserved →
      pendingAt inbox entries id place = inbox.bytesAt id place := by
    intro place isPlace
    unfold pendingAt
    split
    next => rfl
    next unlisted =>
      rw [Inbox.bytesAt, if_neg]
      intro present
      have all := (Bool.and_eq_true_iff.mp listed).2
      have ofId := List.all_eq_true.mp all id (known id place present)
      have ofPlace := List.all_eq_true.mp ofId place (by rcases isPlace with rfl | rfl <;> simp)
      rw [present] at ofPlace
      exact unlisted (by simpa using ofPlace)
  rw [each .unread (Or.inl rfl), each .reserved (Or.inr rfl)]
  exact Nat.le_add_left _ _

theorem countedOf_concat (entry : InboxEntry Id) (size : Nat) (id : Id) :
    countedOf (counted ++ [(entry, size)]) id =
      countedOf counted id + if entry.1 = id then size else 0 := by
  by_cases same : entry.1 = id <;> simp [countedOf, same]

end

/-- An answer moves bytes from the pending ones to the counted ones. -/
theorem pendingAt_erase (remaining : List (InboxEntry Id))
    (present : inbox.mailbox.files entry.1 entry.2 = true) (id : Id) (place : Place) :
    pendingAt inbox remaining id place ≤ pendingAt inbox (remaining.erase entry) id place +
      if (id, place) = entry then inbox.sizes entry.1 entry.2 else 0 := by
  unfold pendingAt
  by_cases same : (id, place) = entry
  · subst same
    have size : inbox.bytesAt id place = inbox.sizes id place := if_pos present
    split <;> simp [size]
  · simp only [List.mem_erase_of_ne same, if_neg same]
    exact Nat.le_refl _

theorem Covered.answered (covered : Covered inbox remaining counted id)
    (present : inbox.mailbox.files entry.1 entry.2 = true) :
    Covered inbox (remaining.erase entry)
      (counted ++ [(entry, inbox.sizes entry.1 entry.2)]) id := by
  rcases covered with ⟨place, unprocessed, isPending, isGone⟩ | bound
  · left
    refine ⟨place, unprocessed, ?_, isGone⟩
    rw [List.mem_erase_of_ne]
    · exact isPending
    · rintro rfl
      rw [present] at isGone
      cases isGone
  · right
    have unread := pendingAt_erase remaining present id .unread
    have reserved := pendingAt_erase remaining present id .reserved
    rw [countedOf_concat]
    obtain ⟨counting, spot⟩ := entry
    by_cases same : counting = id
    · subst same
      rw [if_pos rfl]
      dsimp only
      cases spot <;> simp at unread reserved <;> omega
    · have notUnread : (id, Place.unread) ≠ (counting, spot) :=
        fun equal => same (congrArg Prod.fst equal).symm
      have notReserved : (id, Place.reserved) ≠ (counting, spot) :=
        fun equal => same (congrArg Prod.fst equal).symm
      rw [if_neg notUnread] at unread
      rw [if_neg notReserved] at reserved
      omega

/-- A rename of another message. -/
theorem Covered.renamed_other (covered : Covered inbox remaining counted other)
    (differs : other ≠ id) : Covered (inbox.renamed id source target) remaining counted other := by
  have files : ∀ place, (inbox.renamed id source target).mailbox.files other place =
      inbox.mailbox.files other place := by
    simp [Inbox.renamed, moveFile, differs]
  simp only [Covered, Inbox.bytes, pendingAt, bytesAt_renamed_other differs, files]
  exact covered

/-- A rename between the two listed places. -/
theorem covered_swapped (rename : PlainRename inbox id source target)
    (unprocessed : target ≠ .processed) (unlisted : (id, source) ∉ remaining)
    (bound : (id, target) ∉ remaining → inbox.bytesAt id source ≤ countedOf counted id) :
    Covered (inbox.renamed id source target) remaining counted id := by
  right
  have moved : (inbox.renamed id source target).bytesAt id target = inbox.bytesAt id source :=
    bytesAt_renamed_target rename.present
  have left : (inbox.renamed id source target).bytesAt id source = 0 :=
    bytesAt_renamed_source rename.differs
  have pending : inbox.bytesAt id source ≤ countedOf counted id +
      pendingAt (inbox.renamed id source target) remaining id target := by
    unfold pendingAt
    split
    next => omega
    next notPending =>
      have := bound notPending
      omega
  cases source with
  | processed => exact absurd rfl rename.pending
  | unread =>
    cases target with
    | unread => exact absurd rfl rename.differs
    | processed => exact absurd rfl unprocessed
    | reserved =>
      rw [Inbox.bytes]
      omega
  | reserved =>
    cases target with
    | reserved => exact absurd rfl rename.differs
    | processed => exact absurd rfl unprocessed
    | unread =>
      rw [Inbox.bytes]
      omega

/-- A rename out of the listed places. -/
theorem covered_removed (rename : PlainRename inbox id source .processed)
    (unlisted : (id, source) ∉ remaining)
    (bound : inbox.bytes id ≤ countedOf counted id +
      (pendingAt inbox remaining id .unread + pendingAt inbox remaining id .reserved)) :
    Covered (inbox.renamed id source .processed) remaining counted id := by
  right
  have left : (inbox.renamed id source .processed).bytesAt id source = 0 :=
    bytesAt_renamed_source rename.differs
  have nothing : pendingAt inbox remaining id source = 0 := if_neg unlisted
  have third : ∀ place, place ≠ source → place ≠ .processed →
      (inbox.renamed id source .processed).bytesAt id place = inbox.bytesAt id place :=
    fun place notSource notTarget => bytesAt_renamed_third notSource notTarget
  have thirdPending : ∀ place, place ≠ source → place ≠ .processed →
      pendingAt (inbox.renamed id source .processed) remaining id place =
        pendingAt inbox remaining id place := by
    intro place notSource notTarget
    rw [pendingAt, third place notSource notTarget]
    rfl
  rw [Inbox.bytes] at bound ⊢
  cases source with
  | processed => exact absurd rfl rename.pending
  | unread =>
    rw [third .reserved (by decide) (by decide), thirdPending .reserved (by decide) (by decide)]
    omega
  | reserved =>
    rw [third .unread (by decide) (by decide), thirdPending .unread (by decide) (by decide)]
    omega

/-- A rename uncovers nothing: where it takes a listed file away, that file is
gone, and elsewhere it carries bytes that were counted or are pending. -/
theorem Covered.renamed_self (covered : Covered inbox remaining counted id)
    (rename : PlainRename inbox id source target) :
    Covered (inbox.renamed id source target) remaining counted id := by
  by_cases isListed : (id, source) ∈ remaining
  · exact Or.inl ⟨source, rename.pending, isListed, files_renamed_source rename.differs⟩
  · rcases covered with ⟨place, unprocessed, isPending, isGone⟩ | bound
    · have notSource : place ≠ source := by
        rintro rfl
        exact isListed isPending
      by_cases isTarget : place = target
      · subst isTarget
        exact covered_swapped rename unprocessed isListed fun absent => absurd isPending absent
      · left
        refine ⟨place, unprocessed, isPending, ?_⟩
        rw [files_renamed_third notSource isTarget]
        exact isGone
    · by_cases isProcessed : target = .processed
      · subst isProcessed
        exact covered_removed rename isListed bound
      · apply covered_swapped rename isProcessed isListed
        intro absent
        have noSource : pendingAt inbox remaining id source = 0 := if_neg isListed
        have noTarget : pendingAt inbox remaining id target = 0 := if_neg absent
        rw [Inbox.bytes] at bound
        cases source with
        | processed => exact absurd rfl rename.pending
        | unread =>
          cases target with
          | unread => exact absurd rfl rename.differs
          | processed => exact absurd rfl isProcessed
          | reserved => omega
        | reserved =>
          cases target with
          | reserved => exact absurd rfl rename.differs
          | processed => exact absurd rfl isProcessed
          | unread => omega

theorem Covered.renamed (covered : Covered inbox remaining counted other)
    (rename : PlainRename inbox id source target) :
    Covered (inbox.renamed id source target) remaining counted other := by
  by_cases same : other = id
  · subst same
    exact covered.renamed_self rename
  · exact covered.renamed_other same

theorem sum_countedOf_le (counted : List (InboxEntry Id × Nat)) :
    ∑ id ∈ ids, countedOf counted id ≤ (counted.map Prod.snd).sum := by
  induction counted with
  | nil => simp [countedOf]
  | cons answer counted ih =>
    have first : ∀ id, countedOf (answer :: counted) id =
        (if answer.1.1 = id then answer.2 else 0) + countedOf counted id := by
      intro id
      by_cases same : answer.1.1 = id <;> simp [countedOf, same]
    have single : (∑ id ∈ ids, if answer.1.1 = id then answer.2 else 0) ≤ answer.2 := by
      rw [Finset.sum_ite_eq]
      split
      · exact Nat.le_refl _
      · exact Nat.zero_le _
    rw [Finset.sum_congr rfl fun id _ => first id, Finset.sum_add_distrib]
    exact Nat.add_le_add single ih

/-- A measurement in which every listed file was found counts all there is. -/
theorem total_le_counted (covered : ∀ id, Covered inbox [] counted id) :
    inbox.total ≤ (counted.map Prod.snd).sum := by
  have each : ∀ id, inbox.bytes id ≤ countedOf counted id := by
    intro id
    rcases covered id with ⟨_, _, isPending, _⟩ | bound
    · cases isPending
    · simpa [pendingAt] using bound
  exact (Finset.sum_le_sum fun id _ => each id).trans (sum_countedOf_le counted)

end Bytes

end OpenAgent.Team
