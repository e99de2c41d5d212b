import OpenAgent.Team.Injection

/-!
# Injection at most once

A message that was injected and not given back since is pending, or no longer
unread, or in the hands of a call that acknowledges or requeues it.  A poll leaves
out the pending ids, so it repeats no message as long as its listing is not older
than a call that took the ids out of the runtime state.
-/

namespace OpenAgent.Team

open Library

/-- Injected, and not requeued since; the newest event comes first. -/
def outstanding : List InjectionEvent → Text → Bool
  | [], _ => false
  | .injected messageIds :: earlier, id => messageIds.contains id || outstanding earlier id
  | .requeued messageId :: earlier, id => !(messageId == id) && outstanding earlier id

/-- No id is in two injected batches unless it was requeued between them. -/
def AtMostOnce (history : List InjectionEvent) : Prop :=
  ∀ later second middle first earlier,
    history = later ++ .injected second :: (middle ++ .injected first :: earlier) →
      ∀ id ∈ first, id ∈ second → .requeued id ∈ middle

section Histories

variable
  {id : Text}

theorem outstanding_injected :
    outstanding (.injected messageIds :: history) id = true ↔
      id ∈ messageIds ∨ outstanding history id = true := by
  simp [outstanding]

theorem outstanding_requeued :
    outstanding (.requeued messageId :: history) id = true ↔
      messageId ≠ id ∧ outstanding history id = true := by
  simp [outstanding]

/-- An injected id stays outstanding until it is requeued. -/
theorem outstanding_of_injected (member : id ∈ first) (kept : .requeued id ∉ middle) :
    outstanding (middle ++ .injected first :: earlier) id = true := by
  induction middle with
  | nil => exact outstanding_injected.mpr (.inl member)
  | cons event middle ih =>
    rw [List.mem_cons, not_or] at kept
    have outstandingBefore := ih kept.2
    cases event with
    | injected messageIds => exact outstanding_injected.mpr (.inr outstandingBefore)
    | requeued messageId =>
      refine outstanding_requeued.mpr ⟨?_, outstandingBefore⟩
      intro same
      exact kept.1 (by rw [same])

variable (atMostOnce : AtMostOnce history)
include atMostOnce

theorem AtMostOnce.injected (given : ∀ id ∈ messageIds, outstanding history id = false) :
    AtMostOnce (.injected messageIds :: history) := by
  intro later second middle first earlier split id inFirst inSecond
  cases later with
  | nil =>
    obtain ⟨sameBatch, rfl⟩ := List.cons.inj split
    cases sameBatch
    by_contra kept
    have stillOut : outstanding (middle ++ .injected first :: earlier) id = true :=
      outstanding_of_injected inFirst kept
    rw [given id inSecond] at stillOut
    cases stillOut
  | cons event later =>
    exact atMostOnce later second middle first earlier (List.cons.inj split).2 id inFirst inSecond

theorem AtMostOnce.requeued : AtMostOnce (.requeued messageId :: history) := by
  intro later second middle first earlier split id inFirst inSecond
  cases later with
  | nil => cases (List.cons.inj split).1
  | cons event later =>
    exact atMostOnce later second middle first earlier (List.cons.inj split).2 id inFirst inSecond

end Histories

/-- The messages that a loop of `ackMessages` or of `requeuePendingLiveDeliveries` still has
to take from the inbox. -/
def MailPoint.inHand : MailPoint Text → List Text
  | .ackUnread id rest => id :: rest
  | .ackReserved _ rest => rest
  | .reserveStat id (.releaseThen rest) | .reserveRename id (.releaseThen rest) => id :: rest
  | .releaseRename _ rest => rest
  | _ => []

/-- The messages that the next stage is about. -/
def stageInHand : List InjectionStage → List Text
  | .requeue messageIds :: _ => messageIds
  | _ => []

namespace InjectionPoint

/-- The messages that the call still has to acknowledge or to requeue. -/
def inHand : InjectionPoint → List Text
  | .mail point stages => point.inHand ++ stageInHand stages
  | .deciding claimed => claimed
  | _ => []

/-- The messages that a poll has found unread and not claimed yet. -/
def listed : InjectionPoint → List Text
  | .reading _ remaining unread => remaining ++ unread.map (·.messageId)
  | _ => []

/-- The ids that the next transition of the runtime state takes out. -/
def clears (pending : List Text) : InjectionPoint → List Text
  | .clearing messageIds _ => messageIds
  | .claimingAcks candidates => pending.filter fun id => candidates.contains id
  | .markingErrored => pending
  | _ => []

end InjectionPoint

@[simp] theorem inHand_ackNext (messageIds : List Text) :
    (ackNext messageIds).inHand = messageIds := by
  cases messageIds <;> rfl

@[simp] theorem inHand_requeueNext (messageIds : List Text) :
    (requeueNext messageIds).inHand = messageIds := by
  cases messageIds <;> rfl

@[simp] theorem listed_enterStages (point : MailPoint Text) :
    (enterStages point stages).listed = [] := by
  induction stages generalizing point with
  | nil => rfl
  | cons stage stages ih =>
    cases stage <;> simp only [enterStages] <;> repeat' split
    all_goals first | rfl | exact ih _

theorem mem_inHand_enterStages {id : Text}
    (member : id ∈ point.inHand ∨ id ∈ stageInHand stages) :
    id ∈ (enterStages point stages).inHand := by
  induction stages generalizing point with
  | nil => simpa [enterStages, InjectionPoint.inHand] using member
  | cons stage stages ih =>
    by_cases isIdle : point = .idle
    · subst isIdle
      have isStage : id ∈ stageInHand (stage :: stages) := member.resolve_left (nomatch ·)
      cases stage with
      | requeue messageIds =>
        apply ih
        rw [inHand_requeueNext]
        exact .inl isStage
      | clearPending | reconcile => cases isStage
    · cases stage <;> simpa [enterStages, isIdle, InjectionPoint.inHand, stageInHand] using member

section Files

variable {after : Mailbox Text} {id : Text}

variable (moved : mailMove maxBytes process choice point mailbox = some (after, next))
include moved

/-- A message becomes unread by a release, by a reclaim or by a send. -/
theorem unread_of_mailMove (unread : after.files id .unread = true) :
    mailbox.files id .unread = true ∨
      (point.puttingBack = some id ∧ mailbox.files id .reserved = true) ∨
      ∃ send, point = .write send ∧ send.messageId = id := by
  cases mailMove_effect moved with
  | moved moving pending present outside =>
    rename_i renamed source target
    by_cases same : id = renamed
    · subst same
      cases source with
      | unread => exact .inl present
      | processed => exact absurd rfl pending
      | reserved =>
        cases target with
        | unread => cases point <;> simp_all [MailPoint.moving, MailPoint.puttingBack]
        | reserved | processed => exact .inl (by simpa [moveFile] using unread)
    · exact .inl (by simpa [moveFile, same] using unread)
  | written =>
    rename_i send
    by_cases same : id = send.messageId
    · exact .inr (.inr ⟨send, rfl, same.symm⟩)
    · exact .inl (by simpa [writeFile, same] using unread)
  | _ => exact .inl unread

/-- A message that is to be taken from the inbox remains so until its file is gone. -/
theorem inHand_of_mailMove (member : id ∈ point.inHand)
    (apart : ∀ id, mailbox.files id .unread = true → mailbox.files id .reserved = false)
    (released : ∀ reserved rest, point = .releaseRename reserved rest →
      mailbox.files reserved .reserved = true ∨ rest = []) :
    after.files id .unread = false ∨ id ∈ next.inHand := by
  cases point with
  | ackUnread renamed rest =>
    cases choice with
    | proceed =>
      simp only [mailMove, Mailbox.rename] at moved
      split at moved <;> cases moved
      next present =>
        rcases List.mem_cons.mp member with isRenamed | behind
        · exact .inl (by simp [isRenamed, moveFile])
        · exact .inr (by simpa using behind)
      next absent =>
        rcases List.mem_cons.mp member with isRenamed | behind
        · exact .inl (by simpa [isRenamed] using absent)
        · exact .inr behind
    | _ => cases moved
  | ackReserved renamed rest =>
    cases choice with
    | proceed =>
      simp only [mailMove, Mailbox.rename] at moved
      have behind : id ∈ (ackNext rest).inHand := by rwa [inHand_ackNext]
      split at moved <;> cases moved <;> exact .inr behind
    | _ => cases moved
  | reserveStat requeued afterwards =>
    cases afterwards with
    | keep => cases member
    | releaseThen rest =>
      cases choice with
      | proceed =>
        simp only [mailMove] at moved
        split at moved <;> cases moved
        next reserved =>
          rcases List.mem_cons.mp member with rfl | behind
          · refine .inl (Bool.eq_false_iff.mpr fun unread => ?_)
            rw [apart id unread] at reserved
            cases reserved
          · exact .inr behind
        next => exact .inr member
      | _ => cases moved
  | reserveRename requeued afterwards =>
    cases afterwards with
    | keep => cases member
    | releaseThen rest =>
      cases choice with
      | proceed =>
        simp only [mailMove, Mailbox.rename] at moved
        split at moved <;> cases moved
        next present =>
          rcases List.mem_cons.mp member with isRenamed | behind
          · exact .inl (by simp [isRenamed, moveFile])
          · exact .inr behind
        next absent =>
          rcases List.mem_cons.mp member with isRenamed | behind
          · exact .inl (by simpa [isRenamed] using absent)
          · exact .inr (by simpa [Afterwards.missing] using behind)
      | _ => cases moved
  | releaseRename requeued rest =>
    rcases released requeued rest rfl with present | isLast
    · cases choice with
      | proceed =>
        simp only [mailMove, Mailbox.rename, present, if_true] at moved
        cases moved
        exact .inr (by rwa [inHand_requeueNext])
      | _ => cases moved
    · rw [isLast] at member
      cases member
  | _ => cases member

/-- No message is unread and reserved at once. -/
theorem apart_of_mailMove
    (apart : ∀ id, mailbox.files id .unread = true → mailbox.files id .reserved = false)
    (known : ∀ id place, mailbox.files id place = true → id ∈ mailbox.accepted)
    (fresh : ∀ send, point = .write send → send.messageId ∉ mailbox.accepted)
    (unread : after.files id .unread = true) : after.files id .reserved = false := by
  cases mailMove_effect moved with
  | moved moving pending present outside =>
    rename_i renamed source target
    by_cases same : id = renamed
    · cases source <;> cases target <;> simp_all [moveFile]
    · simp only [moveFile, if_neg same] at unread ⊢
      exact apart id unread
  | written =>
    rename_i send
    by_cases same : id = send.messageId
    · have absent : ∀ place, mailbox.files id place = false := by
        intro place
        refine Bool.eq_false_iff.mpr fun there => ?_
        exact fresh send rfl (same ▸ known id place there)
      cases isTarget : send.target <;> simp_all [writeFile]
    · simp only [writeFile, same, false_and, if_false] at unread ⊢
      exact apart id unread
  | _ => exact apart id unread

/-- Files belong to messages that were sent. -/
theorem known_of_mailMove
    (known : ∀ id place, mailbox.files id place = true → id ∈ mailbox.accepted) :
    (∀ id ∈ mailbox.accepted, id ∈ after.accepted) ∧
      ∀ id place, after.files id place = true → id ∈ after.accepted := by
  cases mailMove_effect moved with
  | moved moving pending present outside =>
    rename_i renamed source target
    refine ⟨fun id sent => sent, ?_⟩
    intro id place there
    by_cases same : id = renamed
    · rw [same]
      exact known renamed source present
    · exact known id place (by simpa [moveFile, same] using there)
  | written =>
    rename_i send
    refine ⟨fun id sent => List.mem_append_left _ sent, ?_⟩
    intro id place there
    by_cases same : id = send.messageId
    · rw [same]
      exact List.mem_append_right _ (List.mem_singleton_self _)
    · exact List.mem_append_left _ (known id place (by simpa [writeFile, same] using there))
  | _ => exact ⟨fun id sent => sent, known⟩

end Files

/-- What a step does to the state of the member. -/
inductive InjectionEffect (maxBytes : Nat) (process : Process) (choice : InjectionChoice) :
    InjectionPoint → MemberState → MemberState → InjectionPoint → Prop
  | stays {point state next} (inHand : ∀ id ∈ point.inHand, id ∈ next.inHand)
      (listed : ∀ id ∈ next.listed, id ∈ point.listed) :
      InjectionEffect maxBytes process choice point state state next
  | lists {call messageIds state} (answered : choice = .listed messageIds)
      (unread : ∀ id ∈ messageIds, state.mailbox.files id .unread = true) :
      InjectionEffect maxBytes process choice (.listing call) state state
        (.reading call messageIds [])
  | claims {point state next messageIds} {marker : Option Text} (quiet : point.inHand = [])
      (listed : ∀ id ∈ messageIds, id ∈ point.listed)
      (injectable : ∀ id ∈ messageIds, id ∉ state.pendingInjectedMessageIds)
      (done : next.listed = []) : InjectionEffect maxBytes process choice point state
        { state with
          lastInjectedTurnMarker := marker
          pendingInjectedMessageIds := unionIds state.pendingInjectedMessageIds messageIds
          history := .injected messageIds :: state.history } next
  | mails {point stages state mailbox mailNext next} {mailChoice : MailChoice Text}
      (moved : mailMove maxBytes process mailChoice point state.mailbox = some (mailbox, mailNext))
      (inHand : ∀ id, id ∈ mailNext.inHand ∨ id ∈ stageInHand stages → id ∈ next.inHand)
      (done : next.listed = []) :
      InjectionEffect maxBytes process choice (.mail point stages) state
        { state with mailbox, history := historyAfter point state } next
  | drops {point state next pending} (removed : List Text)
      (keeps : ∀ id ∈ state.pendingInjectedMessageIds, id ∉ removed → id ∈ pending)
      (inHand : ∀ id ∈ point.inHand, id ∈ next.inHand)
      (cleared : ∀ id ∈ removed, id ∈ point.clears state.pendingInjectedMessageIds ∧
        (id ∈ next.inHand ∨ ∃ stages, point = .clearing removed stages))
      (done : next.listed = []) : InjectionEffect maxBytes process choice point state
        { state with pendingInjectedMessageIds := pending } next

section Effects

theorem mem_unionIds {id : Text} : id ∈ unionIds left right ↔ id ∈ left ∨ id ∈ right := by
  simp [unionIds]

theorem mem_dropIds {removed} (id : Text) (member : id ∈ ids) (kept : id ∉ removed) :
    id ∈ dropIds ids removed :=
  List.mem_filter.mpr ⟨member, by simpa using kept⟩

/-- The transition of a poll. -/
theorem effect_of_claim {read : List TeamMessage} (sorted : unread.Perm read)
    (done : next.listed = []) (claimed : after = (claimInjection state call.turnMarker unread).1) :
    InjectionEffect maxBytes process choice (.reading call [] read) state after next := by
  unfold claimInjection at claimed
  split at claimed
  next =>
    subst claimed
    exact .stays (fun id member => (nomatch member)) (by simp [done])
  next =>
    dsimp only at claimed
    split at claimed
    next =>
      subst claimed
      exact .stays (fun id member => (nomatch member)) (by simp [done])
    next =>
      subst claimed
      refine .claims rfl ?_ ?_ done
      · intro id member
        obtain ⟨message, injectable, rfl⟩ := List.mem_map.mp member
        have isRead := sorted.mem_iff.mp (List.mem_filter.mp injectable).1
        exact List.mem_map_of_mem isRead
      · intro id member
        obtain ⟨message, injectable, rfl⟩ := List.mem_map.mp member
        simpa using (List.mem_filter.mp injectable).2

theorem mem_stageInHand_stagesAfter {id : Text}
    (member : id ∈ stageInHand stages) : id ∈ stageInHand (stagesAfter point state stages) := by
  cases stages with
  | nil => cases member
  | cons stage stages =>
    cases stage with
    | requeue => exact member
    | clearPending | reconcile => cases member

theorem injectionMove_effect
    (moved : injectionMove maxBytes process choice point state = some (after, next)) :
    InjectionEffect maxBytes process choice point state after next := by
  unfold injectionMove at moved
  split at moved
  iterate 5
    next =>
      cases moved
      exact .stays (fun id member => (nomatch member)) (fun id member => (nomatch member))
  next =>
    obtain ⟨⟨mailbox, mailNext⟩, mailMoved, same⟩ := Option.map_eq_some_iff.mp moved
    cases same
    refine .mails mailMoved (fun id member => mem_inHand_enterStages ?_) (by simp)
    exact member.imp_right mem_stageInHand_stagesAfter
  next call messageIds =>
    split at moved <;> cases moved
    next unread => exact .lists rfl (by simpa using unread)
  next call remaining unread messageId message =>
    split at moved <;> cases moved
    next found =>
      refine .stays (fun id member => (nomatch member)) ?_
      intro id member
      simp only [InjectionPoint.listed, List.map_append, List.mem_append] at member ⊢
      rcases member with behind | read | justRead
      · exact .inl (List.mem_of_mem_erase behind)
      · exact .inr read
      · cases message with
        | none => cases justRead
        | some message =>
          rw [Option.toList_some, List.map_singleton, List.mem_singleton] at justRead
          rw [justRead, (found.2 message rfl).1]
          exact .inl found.1
  next call read unread =>
    split at moved <;> cases moved
    next sorted =>
      refine effect_of_claim sorted ?_ rfl
      exact (apply_ite InjectionPoint.listed _ _ _).trans (ite_self [])
  next messageIds accepted =>
    split at moved <;> cases moved
    · exact .stays (fun id member => (nomatch member)) (by simp)
    · exact .stays (fun id member => (nomatch member)) (fun id member => (nomatch member))
  next messageIds stages =>
    cases moved
    refine .drops messageIds mem_dropIds (fun id member => (nomatch member)) ?_ (by simp)
    intro id member
    exact ⟨member, .inr ⟨stages, rfl⟩⟩
  next =>
    cases moved
    exact .stays (fun id member => (nomatch member)) (fun id member => (nomatch member))
  next candidates =>
    cases moved
    refine .drops _ mem_dropIds (fun id member => (nomatch member)) ?_ rfl
    intro id member
    exact ⟨member, .inl member⟩
  next claimed messageIds =>
    cases moved
    refine .stays ?_ (by simp)
    intro id member
    apply mem_inHand_enterStages
    rw [inHand_ackNext]
    by_cases delivered : id ∈ messageIds
    · exact .inl (List.mem_filter.mpr ⟨member, by simpa using delivered⟩)
    · exact .inr (List.mem_filter.mpr ⟨member, by simpa using delivered⟩)
  next reclaimed messageIds =>
    cases moved
    exact .stays (fun id member => (nomatch member)) (by simp)
  next =>
    cases moved
    refine .drops _ (fun id member removed => absurd member removed)
      (fun id member => (nomatch member)) ?_ (by simp)
    intro id member
    refine ⟨member, .inl (mem_inHand_enterStages ?_)⟩
    rw [inHand_requeueNext]
    exact .inl member
  next messageId =>
    cases moved
    exact .drops [] (fun id member _ => mem_unionIds.mpr (.inl member))
      (fun id member => (nomatch member)) (fun id member => (nomatch member)) rfl
  next => cases moved

end Effects

section

variable (pool : Pool MemberState InjectionPoint)

/-- The state of the calls between any two steps. -/
structure InjectedOnce : Prop where
  known : ∀ id place, pool.world.mailbox.files id place = true → id ∈ pool.world.mailbox.accepted
  apart : ∀ id, pool.world.mailbox.files id .unread = true →
    pool.world.mailbox.files id .reserved = false
  sent : ∀ id, outstanding pool.world.history id = true → id ∈ pool.world.mailbox.accepted
  listedSent : ∀ process, ∀ id ∈ (pool.points process).listed, id ∈ pool.world.mailbox.accepted
  covered : ∀ id, outstanding pool.world.history id = true →
    id ∈ pool.world.pendingInjectedMessageIds ∨ pool.world.mailbox.files id .unread = false ∨
      ∃ process, id ∈ (pool.points process).inHand
  listedPending : ∀ process, ∀ id ∈ (pool.points process).listed,
    outstanding pool.world.history id = true → id ∈ pool.world.pendingInjectedMessageIds
  atMostOnce : AtMostOnce pool.world.history

theorem injectedOnce_fresh : InjectedOnce freshMember where
  known := fun _ _ there => (nomatch there)
  apart := fun _ there => (nomatch there)
  sent := fun _ open_ => (nomatch open_)
  listedSent := fun _ _ member => (nomatch member)
  covered := fun _ open_ => (nomatch open_)
  listedPending := fun _ _ member => (nomatch member)
  atMostOnce := by
    intro later second middle first earlier split
    simp [freshMember] at split

/-- A step of a run in which listings do not overlap with the calls that acknowledge or
requeue: a message that a call has in hand is pending when a poll lists it, and no id is
taken out of the runtime state that a poll has listed and not claimed.  Where the messages
are not in hand when they are taken out, none of them is still unread; so no wake-up of the
lead fails.  A requeue ends early with its last message only, and sends write new ids. -/
structure AcknowledgedInOrder (label : Process × InjectionChoice)
    (_ : Pool MemberState InjectionPoint) : Prop where
  fresh : ∀ send stages, pool.points label.1 = .mail (.write send) stages →
    send.messageId ∉ pool.world.mailbox.accepted
  released : ∀ id rest stages, pool.points label.1 = .mail (.releaseRename id rest) stages →
    pool.world.mailbox.files id .reserved = true ∨ rest = []
  lists : ∀ call messageIds, pool.points label.1 = .listing call → label.2 = .listed messageIds →
      ∀ id ∈ messageIds, ∀ other, id ∈ (pool.points other).inHand →
        id ∈ pool.world.pendingInjectedMessageIds
  clears : ∀ id ∈ (pool.points label.1).clears pool.world.pendingInjectedMessageIds,
    outstanding pool.world.history id = true →
      ∀ other, id ∉ (pool.points other).listed
  renamed : ∀ messageIds stages, pool.points label.1 = .clearing messageIds stages →
    ∀ id ∈ messageIds, outstanding pool.world.history id = true →
      pool.world.mailbox.files id .unread = false

end

section Step

/-- What a step has to show of one process for the state of all calls. -/
structure KeepsOnce (pool : Pool MemberState InjectionPoint) (point next : InjectionPoint)
    (after : MemberState) : Prop where
  known : ∀ id place, after.mailbox.files id place = true → id ∈ after.mailbox.accepted
  apart : ∀ id, after.mailbox.files id .unread = true → after.mailbox.files id .reserved = false
  accepted : ∀ id ∈ pool.world.mailbox.accepted, id ∈ after.mailbox.accepted
  /-- An id is outstanding already, or injected from the listing. -/
  opened : ∀ id, outstanding after.history id = true → outstanding pool.world.history id = true ∨
      id ∈ point.listed ∧ id ∈ after.pendingInjectedMessageIds
  covered : ∀ id, outstanding after.history id = true →
    id ∈ pool.world.pendingInjectedMessageIds ∨ pool.world.mailbox.files id .unread = false ∨
        id ∈ point.inHand →
      id ∈ after.pendingInjectedMessageIds ∨ after.mailbox.files id .unread = false ∨
        id ∈ next.inHand
  listed : ∀ id ∈ next.listed, id ∈ after.mailbox.accepted ∧
    (outstanding after.history id = true → id ∈ after.pendingInjectedMessageIds)
  others : ∀ other, ∀ id ∈ (pool.points other).listed, outstanding after.history id = true →
    id ∈ pool.world.pendingInjectedMessageIds → id ∈ after.pendingInjectedMessageIds
  atMostOnce : AtMostOnce after.history

theorem KeepsOnce.injectedOnce (keeps : KeepsOnce pool (pool.points process) next after)
    (once : InjectedOnce pool) :
    InjectedOnce { world := after, points := Function.update pool.points process next } where
  __ := keeps
  sent := by
    intro id isOut
    apply keeps.accepted
    rcases keeps.opened id isOut with before | ⟨listed, -⟩
    · exact once.sent id before
    · exact once.listedSent process id listed
  listedSent := by
    intro other id member
    dsimp only at member
    by_cases same : other = process
    · subst same
      rw [Function.update_self] at member
      exact (keeps.listed id member).1
    · rw [Function.update_of_ne same] at member
      exact keeps.accepted id (once.listedSent other id member)
  covered := by
    intro id isOut
    have own : id ∈ pool.world.pendingInjectedMessageIds ∨
          pool.world.mailbox.files id .unread = false ∨ id ∈ (pool.points process).inHand →
        id ∈ after.pendingInjectedMessageIds ∨ after.mailbox.files id .unread = false ∨
          ∃ other, id ∈ (Function.update pool.points process next other).inHand := by
      intro held
      rcases keeps.covered id isOut held with pending | gone | inHand
      · exact .inl pending
      · exact .inr (.inl gone)
      · exact .inr (.inr ⟨process, by rwa [Function.update_self]⟩)
    rcases keeps.opened id isOut with before | ⟨-, pending⟩
    · rcases once.covered id before with pending | gone | ⟨other, inHand⟩
      · exact own (.inl pending)
      · exact own (.inr (.inl gone))
      · by_cases same : other = process
        · exact own (.inr (.inr (same ▸ inHand)))
        · exact .inr (.inr ⟨other, by simpa [same] using inHand⟩)
    · exact .inl pending
  listedPending := by
    intro other id member isOut
    dsimp only at member
    by_cases same : other = process
    · subst same
      rw [Function.update_self] at member
      exact (keeps.listed id member).2 isOut
    · rw [Function.update_of_ne same] at member
      rcases keeps.opened id isOut with before | ⟨-, pending⟩
      · exact keeps.others other id member isOut (once.listedPending other id member before)
      · exact pending

/-- A step that leaves the state of the member. -/
theorem keepsOnce_of_still (once : InjectedOnce pool)
    (inHand : ∀ id ∈ point.inHand, id ∈ next.inHand)
    (listed : ∀ id ∈ next.listed, id ∈ pool.world.mailbox.accepted ∧
      (outstanding pool.world.history id = true → id ∈ pool.world.pendingInjectedMessageIds)) :
    KeepsOnce pool point next pool.world where
  __ := once
  accepted := fun _ sent => sent
  opened := fun _ isOut => .inl isOut
  covered := fun id _ held => held.imp_right (Or.imp_right (inHand id))
  listed := listed
  others := fun _ _ _ _ pending => pending

theorem outstanding_of_historyAfter {id : Text}
    (isOut : outstanding (historyAfter point state) id = true) :
    outstanding state.history id = true ∧
      (point.puttingBack = some id → ¬ state.mailbox.files id .reserved = true) := by
  unfold historyAfter at isOut
  split at isOut
  next putBack isPutBack =>
    split at isOut
    next reserved =>
      obtain ⟨differs, before⟩ := outstanding_requeued.mp isOut
      refine ⟨before, ?_⟩
      intro same
      rw [isPutBack] at same
      exact absurd (Option.some.inj same) differs
    next absent =>
      refine ⟨isOut, ?_⟩
      intro same
      rw [isPutBack] at same
      cases same
      exact absent
  next isNone =>
    refine ⟨isOut, ?_⟩
    intro same
    rw [isNone] at same
    cases same

variable (once : InjectedOnce pool)
include once

theorem keepsOnce_of_mail
    (moved : mailMove maxBytes process choice point pool.world.mailbox = some (mailbox, mailNext))
    (fresh : ∀ send, point = .write send → send.messageId ∉ pool.world.mailbox.accepted)
    (released : ∀ id rest, point = .releaseRename id rest →
      pool.world.mailbox.files id .reserved = true ∨ rest = [])
    (inHand : ∀ id, id ∈ mailNext.inHand ∨ id ∈ stageInHand stages → id ∈ next.inHand)
    (done : next.listed = []) :
    KeepsOnce pool (.mail point stages) next
      { pool.world with mailbox, history := historyAfter point pool.world } where
  known := (known_of_mailMove moved once.known).2
  apart := fun _ unread => apart_of_mailMove moved once.apart once.known fresh unread
  accepted := (known_of_mailMove moved once.known).1
  opened := fun id isOut => .inl (outstanding_of_historyAfter isOut).1
  covered := by
    intro id isOut held
    obtain ⟨before, keptBack⟩ := outstanding_of_historyAfter isOut
    have staysGone : pool.world.mailbox.files id .unread = false →
        mailbox.files id .unread = false := by
      intro gone
      by_contra there
      rcases unread_of_mailMove moved (Bool.not_eq_false _ ▸ there) with
        unread | ⟨putBack, reserved⟩ | ⟨send, isWrite, isSent⟩
      · rw [gone] at unread
        cases unread
      · exact keptBack putBack reserved
      · exact fresh send isWrite (isSent ▸ once.sent id before)
    rcases held with pending | gone | isHeld
    · exact .inl pending
    · exact .inr (.inl (staysGone gone))
    · rcases List.mem_append.mp isHeld with ofLoop | ofStage
      · exact .inr ((inHand_of_mailMove moved ofLoop once.apart released).imp_right
          fun later => inHand id (.inl later))
      · exact .inr (.inr (inHand id (.inr ofStage)))
  listed := by simp [done]
  others := fun _ _ _ _ pending => pending
  atMostOnce := by
    unfold historyAfter
    split
    · split
      · exact once.atMostOnce.requeued
      · exact once.atMostOnce
    · exact once.atMostOnce

theorem keepsOnce_of_claim (isPoint : pool.points process = point) (quiet : point.inHand = [])
    (listed : ∀ id ∈ messageIds, id ∈ point.listed)
    (injectable : ∀ id ∈ messageIds, id ∉ pool.world.pendingInjectedMessageIds)
    (done : next.listed = []) :
    KeepsOnce pool point next
      { pool.world with
        lastInjectedTurnMarker := marker
        pendingInjectedMessageIds := unionIds pool.world.pendingInjectedMessageIds messageIds
        history := .injected messageIds :: pool.world.history } where
  known := once.known
  apart := once.apart
  accepted := fun _ sent => sent
  opened := by
    intro id isOut
    rcases outstanding_injected.mp isOut with injected | before
    · exact .inr ⟨listed id injected, mem_unionIds.mpr (.inr injected)⟩
    · exact .inl before
  covered := by
    intro id isOut held
    rw [quiet] at held
    rcases held with pending | gone | isHeld
    · exact .inl (mem_unionIds.mpr (.inl pending))
    · exact .inr (.inl gone)
    · cases isHeld
  listed := by simp [done]
  others := fun _ _ _ _ pending => mem_unionIds.mpr (.inl pending)
  atMostOnce := by
    apply once.atMostOnce.injected
    intro id member
    by_contra isOut
    apply injectable id member
    exact once.listedPending process id (isPoint ▸ listed id member) (Bool.not_eq_false _ ▸ isOut)

theorem keepsOnce_of_drop {removed : List Text}
    (keeps : ∀ id ∈ pool.world.pendingInjectedMessageIds, id ∉ removed → id ∈ pending)
    (inHand : ∀ id ∈ point.inHand, id ∈ next.inHand)
    (cleared : ∀ id ∈ removed, outstanding pool.world.history id = true →
      (∀ other, id ∉ (pool.points other).listed) ∧
        (id ∈ next.inHand ∨ pool.world.mailbox.files id .unread = false))
    (done : next.listed = []) :
    KeepsOnce pool point next { pool.world with pendingInjectedMessageIds := pending } where
  __ := once
  accepted := fun _ sent => sent
  opened := fun _ isOut => .inl isOut
  covered := by
    intro id isOut held
    rcases held with wasPending | gone | wasInHand
    · by_cases isRemoved : id ∈ removed
      · exact .inr (cleared id isRemoved isOut).2.symm
      · exact .inl (keeps id wasPending isRemoved)
    · exact .inr (.inl gone)
    · exact .inr (.inr (inHand id wasInHand))
  listed := by simp [done]
  others := by
    intro other id member isOut wasPending
    apply keeps id wasPending
    intro isRemoved
    exact (cleared id isRemoved isOut).1 other member

theorem injectedOnce_step (inOrder : AcknowledgedInOrder pool label final)
    (stepped : injectionStep maxBytes pool label = some final) : InjectedOnce final := by
  obtain ⟨after, next, moved, rfl⟩ := Pool.advance_eq_some stepped
  apply KeepsOnce.injectedOnce _ once
  generalize isPoint : pool.points label.1 = point at moved ⊢
  cases injectionMove_effect moved with
  | stays inHand listed =>
    apply keepsOnce_of_still once inHand
    intro id member
    have wasListed : id ∈ (pool.points label.1).listed := isPoint ▸ listed id member
    exact ⟨once.listedSent label.1 id wasListed, once.listedPending label.1 id wasListed⟩
  | @lists call messageIds _ answered unread =>
    refine keepsOnce_of_still once (fun id member => (nomatch member)) ?_
    intro id member
    have isListed : id ∈ messageIds := by simpa [InjectionPoint.listed] using member
    refine ⟨once.known id .unread (unread id isListed), ?_⟩
    intro isOut
    rcases once.covered id isOut with pending | gone | ⟨other, isHeld⟩
    · exact pending
    · rw [unread id isListed] at gone
      cases gone
    · exact inOrder.lists _ _ isPoint answered id isListed other isHeld
  | claims quiet listed injectable done =>
    exact keepsOnce_of_claim once isPoint quiet listed injectable done
  | mails mailMoved inHand done =>
    apply keepsOnce_of_mail once mailMoved _ _ inHand done
    · rintro send rfl
      exact inOrder.fresh send _ isPoint
    · rintro id rest rfl
      exact inOrder.released id rest _ isPoint
  | drops removed keeps inHand cleared done =>
    apply keepsOnce_of_drop once keeps inHand _ done
    intro id isRemoved isOut
    obtain ⟨isCleared, behind⟩ := cleared id isRemoved
    refine ⟨inOrder.clears id (isPoint ▸ isCleared) isOut, ?_⟩
    rcases behind with stillInHand | ⟨stages, isClearing⟩
    · exact .inl stillInHand
    · exact .inr (inOrder.renamed removed stages (isPoint.trans isClearing) id isRemoved isOut)

end Step

/-- In every run whose listings do not overlap with the calls that take ids out of the
runtime state, and in which no wake-up fails, no id is injected twice unless it was
requeued between. -/
theorem atMostOnce_of_acknowledgedInOrder {maxBytes : Nat}
    {labels : List (Process × InjectionChoice)} {final : Pool MemberState InjectionPoint}
    (reached : execute (injectionStep maxBytes) freshMember labels = some final)
    (inOrder : EveryStep (injectionStep maxBytes) AcknowledgedInOrder freshMember labels) :
    AtMostOnce final.world.history := by
  refine (invariant_of_execute ?_ injectedOnce_fresh reached inOrder).atMostOnce
  intro pool label next once meets stepped
  exact injectedOnce_step once meets stepped

/-- A message to the member. -/
def sampleLetter : TeamMessage where
  messageId := text "m"
  sender := text "lead"
  kind := .message
  body := text "continue"
  summary := none
  references := none
  timestamp := 1
  correlationId := none

section

variable (process : Process)

/-- A process sends the message. -/
def letterSteps : List (Process × InjectionChoice) :=
  [(process, .mail (.call (.send ⟨sampleLetter.messageId, 8, false⟩))),
    (process, .mail .proceed), (process, .mail (.measured 0)), (process, .mail .proceed),
    (process, .mail .proceed), (process, .mail .proceed), (process, .mail .proceed)]

/-- A poll up to the transition of the runtime state. -/
def listingSteps (turnMarker : String) : List (Process × InjectionChoice) :=
  [(process, .poll ⟨text turnMarker, false⟩), (process, .listed [sampleLetter.messageId]),
    (process, .read sampleLetter.messageId (some sampleLetter))]

/-- A poll of a process. -/
def pollSteps (turnMarker : String) : List (Process × InjectionChoice) :=
  listingSteps process turnMarker ++ [(process, .sorted [sampleLetter])]

/-- The idle hook of a process up to the look at the history of the session. -/
def idleSteps : List (Process × InjectionChoice) :=
  [(process, .idle), (process, .proceed), (process, .proceed)]

end

/-- The message is injected, not delivered, and injected again. -/
def redelivery : List (Process × InjectionChoice) :=
  letterSteps 0 ++ pollSteps 0 "t1" ++ idleSteps 0 ++
    [(0, .delivered []), (0, .mail .proceed), (0, .mail .proceed), (0, .mail .proceed)] ++
    pollSteps 0 "t2"

section

variable (pool : Pool MemberState InjectionPoint)

/-- A step of the first process that neither writes an id again nor clears ids that
are not in hand, nor misses a reservation. -/
def alone (label : Process × InjectionChoice) : Bool :=
  label.1 == 0 &&
    match pool.points label.1 with
    | .mail (.write send) _ => !pool.world.mailbox.accepted.contains send.messageId
    | .mail (.releaseRename id _) _ => pool.world.mailbox.files id .reserved
    | .clearing .. => false
    | _ => true

/-- Only the first process has begun a call. -/
def OthersIdle : Prop :=
  ∀ other, other ≠ 0 → pool.points other = .mail .idle []

end

theorem inOrder_of_alone (others : OthersIdle pool) (isAlone : alone pool label = true) :
    AcknowledgedInOrder pool label next := by
  obtain ⟨isFirst, own⟩ := Bool.and_eq_true_iff.mp isAlone
  have first : label.1 = 0 := by simpa using isFirst
  rw [first] at own
  refine ⟨?_, ?_, ?_, ?_, ?_⟩ <;> rw [first]
  · intro send stages isWrite
    rw [isWrite] at own
    simpa using own
  · intro id rest stages isRelease
    rw [isRelease] at own
    exact .inl own
  · intro call messageIds isListing _ id _ other isHeld
    by_cases isOwn : other = 0
    · rw [isOwn, isListing] at isHeld
      cases isHeld
    · rw [others other isOwn] at isHeld
      cases isHeld
  · intro id isCleared _ other listed
    by_cases isOwn : other = 0
    · rw [isOwn] at listed
      generalize pool.points 0 = point at isCleared listed
      cases point <;> first | cases listed | cases isCleared
    · rw [others other isOwn] at listed
      cases listed
  · intro messageIds stages isClearing
    rw [isClearing] at own
    cases own

theorem inOrder_redelivery :
    EveryStep (injectionStep 100) AcknowledgedInOrder freshMember redelivery := by
  have everyAlone : EveryStep (injectionStep 100)
      (fun pool label _ => alone pool label = true) freshMember redelivery := by
    decide +kernel
  have initially : OthersIdle freshMember := fun _ _ => rfl
  refine everyAlone.of_invariant ?_ initially
  intro pool label next others isAlone stepped
  refine ⟨inOrder_of_alone others isAlone, ?_⟩
  obtain ⟨after, point, -, rfl⟩ := Pool.advance_eq_some stepped
  have first : label.1 = 0 := by simpa using (Bool.and_eq_true_iff.mp isAlone).1
  intro other differs
  rw [first]
  simpa [differs] using others other differs

theorem atMostOnce_redelivery :
    ∃ final, execute (injectionStep 100) freshMember redelivery = some final ∧ final.world.history =
        [.injected [text "m"], .requeued (text "m"), .injected [text "m"]] ∧
      AtMostOnce final.world.history := by
  obtain ⟨final, reached, history⟩ :
      ∃ final, execute (injectionStep 100) freshMember redelivery = some final ∧
        final.world.history =
        [.injected [text "m"], .requeued (text "m"), .injected [text "m"]] :=
        by
    decide +kernel
  exact ⟨final, reached, history, atMostOnce_of_acknowledgedInOrder reached inOrder_redelivery⟩

/-- A poll lists the message that was injected before; the idle hook then takes
its id out of the runtime state to acknowledge it, and the poll injects it
again. -/
theorem not_atMostOnce_staleListing :
    ∃ final, execute (injectionStep 100) freshMember
        (letterSteps 0 ++ pollSteps 1 "t1" ++ listingSteps 2 "t2" ++ idleSteps 3 ++
          [(3, .delivered [text "m"]), (2, .sorted [sampleLetter])]) = some final ∧
      ¬ AtMostOnce final.world.history := by
  obtain ⟨final, reached, history⟩ : ∃ final, execute (injectionStep 100) freshMember
        (letterSteps 0 ++ pollSteps 1 "t1" ++ listingSteps 2 "t2" ++ idleSteps 3 ++
        [(3, .delivered [text "m"]), (2, .sorted [sampleLetter])]) = some final ∧
        final.world.history = [.injected [text "m"], .injected [text "m"]] := by
    decide +kernel
  refine ⟨final, reached, ?_⟩
  intro once
  have requeuedBetween := once [] [text "m"] [] [text "m"] [] history (text "m")
    (List.mem_singleton_self _) (List.mem_singleton_self _)
  cases requeuedBetween

end OpenAgent.Team
