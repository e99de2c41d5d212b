import OpenAgent.Dag.RunStart

/-!
# Subscribers of a journal

A journal instance keeps a bounded queue for each subscriber and drains it in
the background, one listener call at a time.  Under pressure the oldest event
is dropped, and the drain reports the loss with an overflow event before it
delivers anything else.

A viewer applies what it is given and, on an overflow event, reads the range
that the event names from the log.  Whatever is appended while its listener
takes its time, the viewer has seen every event up to any that was delivered
to it.
-/

namespace OpenAgent.Dag

open Library

/-- `OverflowState`. -/
structure OverflowState where
  droppedCount : Nat
  recoverAfterSeq : Nat

/-- `Subscriber`, with what its listener has received and the viewer behind it
has seen. -/
structure Subscriber where
  queue : List DagRunEvent
  active : Bool
  /-- A drain is scheduled or waits for the listener. -/
  running : Bool
  lastDeliveredSeq : Nat
  overflow : Option OverflowState
  subscribedAt : Nat
  delivered : List DagRunEvent
  seen : List DagRunEvent

namespace Subscriber

/-- `subscribe`, on a journal whose cached checkpoint stands at `seq`. -/
def subscribed (seq : Nat) : Subscriber where
  queue := []
  active := true
  running := false
  lastDeliveredSeq := seq
  overflow := none
  subscribedAt := seq
  delivered := []
  seen := []

variable (subscriber : Subscriber)

/-- The function that `subscribe` returns. -/
def unsubscribed : Subscriber :=
  { subscriber with active := false, queue := [], overflow := none }

/-- The oldest event leaves a full queue and is counted as dropped. -/
def dropOldest : Subscriber :=
  match subscriber.queue with
  | [] => subscriber
  | _ :: rest =>
    { subscriber with
      queue := rest
      overflow :=
        match subscriber.overflow with
        | none =>
          some { droppedCount := 1, recoverAfterSeq := subscriber.lastDeliveredSeq }
        | some overflow => some { overflow with droppedCount := overflow.droppedCount + 1 } }

/-- `enqueue`. -/
def enqueue (ringSize : Nat) (event : DagRunEvent) (subscriber : Subscriber) : Subscriber :=
  if subscriber.active then
    let room := if ringSize ≤ subscriber.queue.length then subscriber.dropOldest else subscriber
    { room with queue := room.queue ++ [event], running := true }
  else subscriber

/-- What a viewer takes from one delivered event: the event, and for an
overflow event the range of the log that it names. -/
def viewed (wal : List DagRunEvent) (event : DagRunEvent) : List DagRunEvent :=
  match event.payload with
  | .streamOverflow _ recoverAfterSeq =>
    (wal.filter fun other =>
      decide (recoverAfterSeq < other.seq) && decide (other.seq ≤ event.seq)) ++ [event]
  | _ => [event]

/-- `deliver`: the listener is called. -/
def receive (wal : List DagRunEvent) (event : DagRunEvent) (subscriber : Subscriber) : Subscriber :=
  { subscriber with
    delivered := subscriber.delivered ++ [event]
    seen := subscriber.seen ++ viewed wal event }

/-- The `finally` block of `drain`. -/
def drained : Subscriber :=
  { subscriber with
    running := subscriber.active && (subscriber.overflow.isSome || !subscriber.queue.isEmpty) }

end Subscriber

section Stream

variable [JournalCheckpoint Checkpoint]

/-- One journal instance with its subscribers; `index` is its place among the
instances the run ever had. -/
structure StreamSystem (Checkpoint : Type) where
  journal : JournalSystem Checkpoint
  index : Nat
  subscribers : List Subscriber

/-- What happens around one journal instance: the caller appends, refreshes,
subscribes and unsubscribes, and the drain of a subscriber goes on to its next
listener call. -/
inductive StreamAction
  | append (payload : DagRunEventPayload) (atTime : String)
  | refresh
  | subscribe
  | unsubscribe (place : Nat)
  | drain (place : Nat) (atTime : String)

variable (options : JournalOptions Checkpoint) (ringSize : Nat)

/-- The event that the last append wrote, when it wrote one. -/
def writtenEvent (before after : JournalSystem Checkpoint) : Option DagRunEvent :=
  after.disk.wal[before.disk.wal.length]?

section

variable (system : StreamSystem Checkpoint)

/-- `appendPayload`: the journal and the event it wrote. -/
def streamCommit (payload : DagRunEventPayload) (atTime : String) :
    JournalSystem Checkpoint × Option DagRunEvent :=
  let journal := appendPayload options system.journal system.index payload atTime false
  (journal, writtenEvent system.journal journal)

/-- The subscribers behind an append; the direct one is not queued for. -/
def enqueueAll (event : Option DagRunEvent) (direct : Option Nat)
    (subscribers : List Subscriber) : List Subscriber :=
  match event with
  | none => subscribers
  | some event =>
    subscribers.mapIdx fun place subscriber =>
      if direct = some place then subscriber else subscriber.enqueue ringSize event

/-- The cached checkpoint's number. -/
def cachedSeq : Option Nat :=
  (system.journal.instances[system.index]?).join.map checkpointSeq

/-- One turn of `drain`: up to the next listener call, or to its end. -/
def drain (place : Nat) (subscriber : Subscriber) (atTime : String) : StreamSystem Checkpoint :=
  if subscriber.active then
    match subscriber.overflow with
    | some overflow =>
      let (journal, event) := streamCommit options system
        (.streamOverflow overflow.droppedCount overflow.recoverAfterSeq) atTime
      let cleared := { subscriber with overflow := none }
      let own := match event with
        | some event => cleared.receive journal.disk.wal event
        | none => cleared
      { system with
        journal := journal
        subscribers := enqueueAll ringSize event (some place) (system.subscribers.set place own) }
    | none =>
      match subscriber.queue with
      | [] => { system with subscribers := system.subscribers.set place subscriber.drained }
      | event :: rest =>
        let taken := { subscriber with queue := rest, lastDeliveredSeq := event.seq }
        { system with
          subscribers := system.subscribers.set place
            (taken.receive system.journal.disk.wal event) }
  else { system with subscribers := system.subscribers.set place subscriber.drained }

def streamStep :
    StreamAction → Option (StreamSystem Checkpoint)
  | .append payload atTime =>
    let (journal, event) := streamCommit options system payload atTime
    some
      { system with
        journal := journal
        subscribers := enqueueAll ringSize event none system.subscribers }
  | .refresh =>
    (journalStep options system.journal (.refresh system.index)).map fun journal =>
      { system with journal := journal }
  | .subscribe =>
    (cachedSeq system).map fun seq =>
      { system with subscribers := system.subscribers ++ [Subscriber.subscribed seq] }
  | .unsubscribe place =>
    (system.subscribers[place]?).map fun subscriber =>
      { system with subscribers := system.subscribers.set place subscriber.unsubscribed }
  | .drain place atTime =>
    match system.subscribers[place]? with
    | some subscriber =>
      if subscriber.running then some (drain options ringSize system place subscriber atTime)
      else none
    | none => none

end

/-- The newest instance of a run, with nobody subscribed. -/
def StreamSystem.opened (journal : JournalSystem Checkpoint) : StreamSystem Checkpoint where
  journal := journal
  index := journal.instances.length - 1
  subscribers := []

end Stream

/-- The viewer has seen every event since its subscription up to any event
that was delivered to it. -/
def NoSilentGap (wal : List DagRunEvent) (subscriber : Subscriber) : Prop :=
  ∀ last ∈ subscriber.delivered, ∀ event ∈ wal,
    subscriber.subscribedAt < event.seq → event.seq ≤ last.seq → event ∈ subscriber.seen

/-- How a subscriber stands to the log: up to the last event taken from the
queue everything was seen, and what comes later is queued unless a drop is
noted. -/
structure KeepsUp (wal : List DagRunEvent) (subscriber : Subscriber) : Prop where
  queued : ∀ event ∈ subscriber.queue, event ∈ wal
  ordered : subscriber.queue.Pairwise fun left right => left.seq < right.seq
  behind : subscriber.lastDeliveredSeq ≤ wal.length
  deliveredBehind : ∀ event ∈ subscriber.delivered, event.seq ≤ wal.length
  taken : ∀ event ∈ wal, subscriber.subscribedAt < event.seq →
    event.seq ≤ subscriber.lastDeliveredSeq → event ∈ subscriber.seen
  kept : subscriber.active = true → subscriber.overflow = none →
    ∀ event ∈ wal, subscriber.subscribedAt < event.seq →
      event ∈ subscriber.seen ∨ event ∈ subscriber.queue
  noted : ∀ overflow, subscriber.overflow = some overflow →
    overflow.recoverAfterSeq = subscriber.lastDeliveredSeq
  noGap : NoSilentGap wal subscriber

theorem NumberedWal.seq_le (numbered : NumberedWal wal) (member : event ∈ wal) :
    event.seq ≤ wal.length := by
  have isSeq : event.seq ∈ wal.map (·.seq) := List.mem_map_of_mem member
  rw [numbered, List.mem_range'_1] at isSeq
  omega

theorem NumberedWal.seq_last (numbered : NumberedWal (wal ++ [event])) :
    event.seq = wal.length + 1 := by
  unfold NumberedWal NumberedFrom at numbered
  rw [List.length_append, List.length_singleton, List.range'_concat, List.map_append] at numbered
  have last := (List.append_inj numbered (by simp)).2
  have isSeq : event.seq = 0 + 1 + 1 * wal.length := List.head_eq_of_cons_eq last
  omega

theorem mem_viewed : event ∈ Subscriber.viewed wal event := by
  unfold Subscriber.viewed
  split
  next => exact List.mem_append_right _ (List.mem_singleton_self event)
  next => exact List.mem_singleton_self event

namespace KeepsUp

/-- A new subscriber has nothing to catch up on. -/
theorem subscribed (numbered : NumberedWal wal) :
    KeepsUp wal (Subscriber.subscribed wal.length) where
  queued := fun _ member => absurd member List.not_mem_nil
  ordered := List.Pairwise.nil
  behind := Nat.le_refl _
  deliveredBehind := fun _ member => absurd member List.not_mem_nil
  taken := fun _ _ after upTo => absurd upTo (Nat.not_le_of_lt after)
  kept := fun _ _ _ member after => absurd (numbered.seq_le member) (Nat.not_le_of_lt after)
  noted := fun _ isSome => nomatch isSome
  noGap := fun _ member => absurd member List.not_mem_nil

section

variable (keepsUp : KeepsUp wal subscriber)
include keepsUp

theorem unsubscribed : KeepsUp wal subscriber.unsubscribed where
  __ := keepsUp
  queued := fun _ member => absurd member List.not_mem_nil
  ordered := List.Pairwise.nil
  kept := fun isActive => nomatch isActive
  noted := fun _ isSome => nomatch isSome

theorem drained : KeepsUp wal subscriber.drained where
  __ := keepsUp

/-- A drop is noted with the place from which the log has to be read. -/
theorem dropOldest : KeepsUp wal subscriber.dropOldest := by
  cases isQueue : subscriber.queue with
  | nil =>
    simp only [Subscriber.dropOldest, isQueue]
    exact keepsUp
  | cons oldest rest =>
    have ordered := keepsUp.ordered
    have queued := keepsUp.queued
    rw [isQueue] at ordered queued
    simp only [Subscriber.dropOldest, isQueue]
    constructor
    · exact fun other member => queued other (List.mem_cons_of_mem oldest member)
    · exact ordered.of_cons
    · exact keepsUp.behind
    · exact keepsUp.deliveredBehind
    · exact keepsUp.taken
    · intro _ isNone
      cases before : subscriber.overflow <;> simp [before] at isNone
    · intro overflow isSome
      cases before : subscriber.overflow with
      | none =>
        simp only [before, Option.some.injEq] at isSome
        rw [← isSome]
      | some earlier =>
        simp only [before, Option.some.injEq] at isSome
        rw [← isSome]
        exact keepsUp.noted earlier before
    · exact keepsUp.noGap

end

variable (keepsUp : KeepsUp wal subscriber)
include keepsUp

/-- What the log gains lies behind everything delivered so far. -/
theorem noGap_append (isNext : event.seq = wal.length + 1) :
    NoSilentGap (wal ++ [event]) subscriber := by
  intro last isLast other member after upTo
  have bound := keepsUp.deliveredBehind last isLast
  rcases List.mem_append.mp member with old | new
  · exact keepsUp.noGap last isLast other old after upTo
  · have isEvent : other = event := List.mem_singleton.mp new
    rw [isEvent] at upTo
    omega

theorem taken_append (isNext : event.seq = wal.length + 1) (other : DagRunEvent)
    (member : other ∈ wal ++ [event]) (after : subscriber.subscribedAt < other.seq)
    (upTo : other.seq ≤ subscriber.lastDeliveredSeq) : other ∈ subscriber.seen := by
  have bound := keepsUp.behind
  rcases List.mem_append.mp member with old | new
  · exact keepsUp.taken other old after upTo
  · have isEvent : other = event := List.mem_singleton.mp new
    rw [isEvent] at upTo
    omega

variable (numbered : NumberedWal wal)
include numbered

/-- A queued event, with or without a drop to make room for it. -/
theorem enqueueRoom (isNext : event.seq = wal.length + 1) :
    KeepsUp (wal ++ [event])
      { subscriber with queue := subscriber.queue ++ [event], running := true } where
  queued := by
    intro other member
    rcases List.mem_append.mp member with old | new
    · exact List.mem_append_left _ (keepsUp.queued other old)
    · exact List.mem_append_right _ new
  ordered := by
    apply List.pairwise_append.mpr
    refine ⟨keepsUp.ordered, List.pairwise_singleton _ _, ?_⟩
    intro other isOther last isLast
    have bound := numbered.seq_le (keepsUp.queued other isOther)
    rw [List.mem_singleton.mp isLast]
    omega
  behind := by
    rw [List.length_append]
    exact Nat.le_add_right_of_le keepsUp.behind
  deliveredBehind := by
    intro other member
    rw [List.length_append]
    exact Nat.le_add_right_of_le (keepsUp.deliveredBehind other member)
  taken := keepsUp.taken_append isNext
  kept := by
    intro isActive isNone other member after
    rcases List.mem_append.mp member with old | new
    · rcases keepsUp.kept isActive isNone other old after with isSeen | isQueued
      · exact Or.inl isSeen
      · exact Or.inr (List.mem_append_left _ isQueued)
    · exact Or.inr (List.mem_append_right _ new)
  noted := keepsUp.noted
  noGap := keepsUp.noGap_append isNext

theorem enqueue (isNext : event.seq = wal.length + 1) (ringSize : Nat) :
    KeepsUp (wal ++ [event]) (subscriber.enqueue ringSize event) := by
  unfold Subscriber.enqueue
  split
  next =>
    split
    next => exact keepsUp.dropOldest.enqueueRoom numbered isNext
    next => exact keepsUp.enqueueRoom numbered isNext
  next isInactive =>
    constructor
    · exact fun other member => List.mem_append_left _ (keepsUp.queued other member)
    · exact keepsUp.ordered
    · rw [List.length_append]
      exact Nat.le_add_right_of_le keepsUp.behind
    · intro other member
      rw [List.length_append]
      exact Nat.le_add_right_of_le (keepsUp.deliveredBehind other member)
    · exact keepsUp.taken_append isNext
    · exact fun isActive => absurd isActive isInactive
    · exact keepsUp.noted
    · exact keepsUp.noGap_append isNext

/-- The overflow event closes the gap: the range it names starts where the
queue was last read. -/
theorem overflowReceived (isNoted : subscriber.overflow = some overflow)
    (isNext : event.seq = wal.length + 1)
    (isOverflow : event.payload = .streamOverflow overflow.droppedCount overflow.recoverAfterSeq) :
    KeepsUp (wal ++ [event])
      (({ subscriber with overflow := none } : Subscriber).receive (wal ++ [event]) event) := by
  have all : ∀ other ∈ wal ++ [event], subscriber.subscribedAt < other.seq →
      other ∈ subscriber.seen ++ Subscriber.viewed (wal ++ [event]) event := by
    intro other member after
    have upTo : other.seq ≤ event.seq := by
      rcases List.mem_append.mp member with old | new
      · have bound := numbered.seq_le old
        omega
      · rw [List.mem_singleton.mp new]
    by_cases early : other.seq ≤ subscriber.lastDeliveredSeq
    · exact List.mem_append_left _ (keepsUp.taken_append isNext other member after early)
    · apply List.mem_append_right
      simp only [Subscriber.viewed, isOverflow, keepsUp.noted overflow isNoted]
      apply List.mem_append_left
      exact List.mem_filter.mpr ⟨member, by simp [Nat.lt_of_not_le early, upTo]⟩
  constructor
  · exact fun other member => List.mem_append_left _ (keepsUp.queued other member)
  · exact keepsUp.ordered
  · rw [List.length_append]
    exact Nat.le_add_right_of_le keepsUp.behind
  · intro other member
    rw [List.length_append, List.length_singleton]
    rcases List.mem_append.mp member with old | new
    · exact Nat.le_add_right_of_le (keepsUp.deliveredBehind other old)
    · rw [List.mem_singleton.mp new, isNext]
  · exact fun other member after _ => all other member after
  · exact fun _ _ other member after => Or.inl (all other member after)
  · exact fun _ isSome => nomatch isSome
  · exact fun _ _ other member after _ => all other member after

/-- The oldest queued event is the next one that was not seen. -/
theorem queueReceived (isActive : subscriber.active = true) (isNone : subscriber.overflow = none)
    (isQueue : subscriber.queue = event :: rest) :
    KeepsUp wal
      (({ subscriber with queue := rest, lastDeliveredSeq := event.seq } : Subscriber).receive
        wal event) := by
  have ordered := keepsUp.ordered
  have queued := keepsUp.queued
  rw [isQueue] at ordered queued
  have kept : ∀ other ∈ wal, subscriber.subscribedAt < other.seq →
      other ∈ subscriber.seen ++ Subscriber.viewed wal event ∨ other ∈ rest := by
    intro other member after
    rcases keepsUp.kept isActive isNone other member after with isSeen | isQueued
    · exact Or.inl (List.mem_append_left _ isSeen)
    · rw [isQueue] at isQueued
      rcases List.mem_cons.mp isQueued with rfl | later
      · exact Or.inl (List.mem_append_right _ mem_viewed)
      · exact Or.inr later
  have upTo : ∀ other ∈ wal, subscriber.subscribedAt < other.seq → other.seq ≤ event.seq →
      other ∈ subscriber.seen ++ Subscriber.viewed wal event := by
    intro other member after bound
    rcases kept other member after with isSeen | later
    · exact isSeen
    · exact absurd bound (Nat.not_le_of_lt (List.rel_of_pairwise_cons ordered later))
  constructor
  · exact fun other member => queued other (List.mem_cons_of_mem event member)
  · exact ordered.of_cons
  · exact numbered.seq_le (queued event List.mem_cons_self)
  · exact forall_mem_concat keepsUp.deliveredBehind
      (numbered.seq_le (queued event List.mem_cons_self))
  · exact upTo
  · exact fun _ _ => kept
  · intro overflow isSome
    exact absurd (isNone.symm.trans isSome) (by simp)
  · intro last isLast other member after bound
    rcases List.mem_append.mp isLast with old | new
    · exact List.mem_append_left _ (keepsUp.noGap last old other member after bound)
    · rw [List.mem_singleton.mp new] at bound
      exact upTo other member after bound

end KeepsUp

section Sound

variable [JournalCheckpoint Checkpoint]
  {options : JournalOptions Checkpoint}

/-- The journal is exact, its cache is up to date, and every subscriber
keeps up with the log. -/
structure StreamSound (options : JournalOptions Checkpoint)
    (system : StreamSystem Checkpoint) : Prop where
  exactly : JournalExact options system.journal
  current : cachedSeq system = some system.journal.disk.wal.length
  keepsUp : ∀ subscriber ∈ system.subscribers, KeepsUp system.journal.disk.wal subscriber

variable {system : StreamSystem Checkpoint}

theorem cachedSeq_set (isCached : cachedSeq system = some seq)
    (instances : journal.instances = system.journal.instances.set system.index (some checkpoint)) :
    cachedSeq { system with journal := journal, subscribers := subscribers } =
      some (checkpointSeq checkpoint) := by
  have inRange : system.index < system.journal.instances.length := by
    by_contra outside
    rw [cachedSeq, List.getElem?_eq_none (Nat.le_of_not_lt outside)] at isCached
    cases isCached
  simp [cachedSeq, instances, List.getElem?_set_self inRange]

/-- What a commit does: it finds a duplicate, or it writes the next event. -/
inductive Commits (options : JournalOptions Checkpoint) (system : StreamSystem Checkpoint)
    (payload : DagRunEventPayload) : JournalSystem Checkpoint × Option DagRunEvent → Prop
  | skipped (journal : JournalSystem Checkpoint) (checkpoint : Checkpoint)
      (duplicate : options.skipDuplicate checkpoint payload = true)
      (wal : journal.disk.wal = system.journal.disk.wal) :
      Commits options system payload (journal, none)
  | wrote (journal : JournalSystem Checkpoint) (event : DagRunEvent)
      (wal : journal.disk.wal = system.journal.disk.wal ++ [event])
      (isNext : event.seq = system.journal.disk.wal.length + 1)
      (isPayload : event.payload = payload) : Commits options system payload (journal, some event)

theorem streamCommit_spec (fresh : checkpointSeq options.initialCheckpoint = 0)
    (sound : StreamSound options system) :
    Commits options system payload (streamCommit options system payload atTime) ∧
      JournalExact options (streamCommit options system payload atTime).1 ∧
      ∀ subscribers, cachedSeq
        { system with
          journal := (streamCommit options system payload atTime).1
          subscribers := subscribers } =
        some (streamCommit options system payload atTime).1.disk.wal.length := by
  obtain ⟨checkpoint, isInstance⟩ : ∃ checkpoint,
      system.journal.instances[system.index]? = some (some checkpoint) := by
    have current := sound.current
    obtain ⟨checkpoint, isSome, -⟩ := Option.map_eq_some_iff.mp current
    exact ⟨checkpoint, Option.join_eq_some_iff.mp isSome⟩
  have stepped : journalStep options system.journal (.append system.index payload atTime) =
      some (streamCommit options system payload atTime).1 := by
    simp [journalStep, isInstance, streamCommit]
  have exactly := journalExact_step fresh sound.exactly stepped
  have recovery := recovers fresh sound.exactly.numbered sound.exactly.onDisk
  have full := (isPrefixFold_replay fresh sound.exactly.numbered).1
  rw [← recovery.checkpoint] at full
  have numbered := exactly.numbered
  have neverThrew := exactly.neverThrew
  revert exactly numbered neverThrew
  unfold streamCommit appendPayload
  generalize recoverCheckpoint options.applyEvent options.initialCheckpoint
    system.journal.disk = result at recovery full
  obtain ⟨recovered, disk⟩ := result
  have sameWal : disk.wal = system.journal.disk.wal := recovery.wal
  simp only
  split
  next duplicate =>
    intro exactly _ _
    refine ⟨?_, exactly, fun subscribers => ?_⟩
    · have nothing : writtenEvent system.journal
          { system.journal with
            disk := disk
            instances := system.journal.instances.set system.index (some recovered) } = none := by
        simp [writtenEvent, sameWal]
      rw [nothing]
      exact .skipped _ recovered duplicate sameWal
    · rw [cachedSeq_set sound.current rfl, full, sameWal]
  next =>
    split
    next =>
      simp only [Bool.false_eq_true, if_false]
      intro exactly numbered _
      have isNext := numbered.seq_last
      refine ⟨?_, exactly, fun subscribers => ?_⟩
      · have written : (disk.wal ++ [journalEvent options.runId disk recovered payload atTime])[
            system.journal.disk.wal.length]? =
            some (journalEvent options.runId disk recovered payload atTime) := by
          rw [← sameWal, List.getElem?_concat_length]
        simp only [writtenEvent, written]
        exact .wrote _ _ (by rw [sameWal]) (by rw [isNext, sameWal]) rfl
      · rw [cachedSeq_set sound.current rfl, replayEvent, isNext]
        simp
    next =>
      intro _ _ threw
      cases threw

variable {subscribers : List Subscriber}

section

variable (keepsUp : ∀ subscriber ∈ subscribers, KeepsUp wal subscriber)
include keepsUp

theorem keepsUp_enqueueAll (numbered : NumberedWal wal) (isNext : event.seq = wal.length + 1) :
    ∀ subscriber ∈ enqueueAll ringSize (some event) none subscribers,
      KeepsUp (wal ++ [event]) subscriber := by
  intro subscriber member
  obtain ⟨place, inRange, rfl⟩ := List.mem_mapIdx.mp member
  exact (keepsUp _ (List.getElem_mem inRange)).enqueue numbered isNext ringSize

/-- Everyone but the direct subscriber is queued for. -/
theorem keepsUp_enqueueAll_direct (ownKeepsUp : KeepsUp (wal ++ [event]) own)
    (numbered : NumberedWal wal) (isNext : event.seq = wal.length + 1) :
    ∀ subscriber ∈ enqueueAll ringSize (some event) (some place) (subscribers.set place own),
      KeepsUp (wal ++ [event]) subscriber := by
  intro subscriber member
  obtain ⟨index, inRange, rfl⟩ := List.mem_mapIdx.mp member
  by_cases isOwn : place = index
  · subst isOwn
    rw [if_pos rfl, List.getElem_set_self]
    exact ownKeepsUp
  · rw [if_neg (by simpa using isOwn), List.getElem_set_ne isOwn]
    exact (keepsUp _ (List.getElem_mem _)).enqueue numbered isNext ringSize

end

theorem StreamSound.append (fresh : checkpointSeq options.initialCheckpoint = 0)
    (sound : StreamSound options system) (payload : DagRunEventPayload) (atTime : String) :
    StreamSound options
      { system with
        journal := (streamCommit options system payload atTime).1
        subscribers := enqueueAll ringSize (streamCommit options system payload atTime).2 none
          system.subscribers } := by
  obtain ⟨commits, exactly, current⟩ := streamCommit_spec fresh sound
  refine ⟨exactly, current _, ?_⟩
  generalize streamCommit options system payload atTime = result at commits
  cases commits with
  | skipped journal checkpoint duplicate sameWal =>
    simp only [sameWal]
    exact sound.keepsUp
  | wrote journal event isWal isNext isPayload =>
    simp only [isWal]
    exact keepsUp_enqueueAll sound.keepsUp sound.exactly.numbered isNext

/-- Only the subscribers change. -/
theorem StreamSound.withSubscribers (sound : StreamSound options system)
    (keepsUp : ∀ subscriber ∈ subscribers, KeepsUp system.journal.disk.wal subscriber) :
    StreamSound options { system with subscribers := subscribers } where
  __ := sound
  keepsUp := keepsUp

theorem StreamSound.set (sound : StreamSound options system)
    (keepsUp : KeepsUp system.journal.disk.wal own) (place : Nat) :
    StreamSound options { system with subscribers := system.subscribers.set place own } := by
  apply sound.withSubscribers
  intro subscriber member
  rcases List.mem_or_eq_of_mem_set member with old | rfl
  · exact sound.keepsUp subscriber old
  · exact keepsUp

variable (fresh : checkpointSeq options.initialCheckpoint = 0)
include fresh

theorem StreamSound.drain
    (keepsOverflow : ∀ checkpoint droppedCount recoverAfterSeq,
      options.skipDuplicate checkpoint (.streamOverflow droppedCount recoverAfterSeq) = false)
    (sound : StreamSound options system)
    (isSubscriber : system.subscribers[place]? = some subscriber)
    (atTime : String) :
    StreamSound options (drain options ringSize system place subscriber atTime) := by
  have own := sound.keepsUp subscriber (List.mem_of_getElem? isSubscriber)
  unfold Dag.drain
  split
  next isActive =>
    split
    next overflow isNoted =>
      obtain ⟨commits, exactly, current⟩ := streamCommit_spec fresh sound
      refine ⟨exactly, current _, ?_⟩
      generalize streamCommit options system
        (.streamOverflow overflow.droppedCount overflow.recoverAfterSeq) atTime = result at commits
      cases commits with
      | skipped journal checkpoint duplicate sameWal =>
        rw [keepsOverflow] at duplicate
        cases duplicate
      | wrote journal event isWal isNext isPayload =>
        simp only [isWal]
        exact keepsUp_enqueueAll_direct sound.keepsUp
          (own.overflowReceived sound.exactly.numbered isNoted isNext isPayload)
          sound.exactly.numbered isNext
    next isNone =>
      split
      next => exact sound.set own.drained place
      next event rest isQueue =>
        exact sound.set (own.queueReceived sound.exactly.numbered isActive isNone isQueue) place
  next => exact sound.set own.drained place

theorem StreamSound.refresh (sound : StreamSound options system)
    (stepped : journalStep options system.journal (.refresh system.index) = some journal) :
    StreamSound options { system with journal := journal } := by
  have exactly := journalExact_step fresh sound.exactly stepped
  have recovery := recovers fresh sound.exactly.numbered sound.exactly.onDisk
  have full := (isPrefixFold_replay fresh sound.exactly.numbered).1
  rw [← recovery.checkpoint] at full
  simp only [journalStep] at stepped
  split at stepped
  next =>
    rw [Option.some.injEq] at stepped
    subst stepped
    refine ⟨exactly, ?_, ?_⟩
    · rw [cachedSeq_set sound.current rfl, full, recovery.wal]
    · rw [recovery.wal]
      exact sound.keepsUp
  next => cases stepped

/-- One action keeps the stream sound. -/
theorem StreamSound.step
    (keepsOverflow : ∀ checkpoint droppedCount recoverAfterSeq,
      options.skipDuplicate checkpoint (.streamOverflow droppedCount recoverAfterSeq) = false)
    (sound : StreamSound options system)
    (taken : streamStep options ringSize system action = some next) : StreamSound options next := by
  cases action with
  | append payload atTime =>
    cases taken
    exact sound.append fresh payload atTime
  | refresh =>
    obtain ⟨journal, stepped, rfl⟩ := Option.map_eq_some_iff.mp taken
    exact sound.refresh fresh stepped
  | subscribe =>
    obtain ⟨seq, isSeq, rfl⟩ := Option.map_eq_some_iff.mp taken
    rw [sound.current] at isSeq
    cases isSeq
    apply sound.withSubscribers
    exact forall_mem_concat sound.keepsUp (KeepsUp.subscribed sound.exactly.numbered)
  | unsubscribe place =>
    obtain ⟨subscriber, isSubscriber, rfl⟩ := Option.map_eq_some_iff.mp taken
    exact sound.set (sound.keepsUp subscriber (List.mem_of_getElem? isSubscriber)).unsubscribed
      place
  | drain place atTime =>
    simp only [streamStep] at taken
    split at taken
    next subscriber isSubscriber =>
      split at taken
      next =>
        cases taken
        exact sound.drain fresh keepsOverflow isSubscriber atTime
      next => cases taken
    next => cases taken

/-- A newly opened instance. -/
theorem StreamSound.opened (exactly : JournalExact options before)
    (opens : journalStep options before .openJournal = some journal) :
    StreamSound options (StreamSystem.opened journal) := by
  have openedExactly := journalExact_step fresh exactly opens
  have recovery := recovers fresh exactly.numbered exactly.onDisk
  have full := (isPrefixFold_replay fresh exactly.numbered).1
  rw [← recovery.checkpoint] at full
  simp only [journalStep, Option.some.injEq] at opens
  subst opens
  refine ⟨openedExactly, ?_, fun _ member => absurd member List.not_mem_nil⟩
  simp [cachedSeq, StreamSystem.opened, full, recovery.wal]

/-- Whatever a run's journal went through before, a stream on a newly opened
instance leaves no viewer with a gap: for any order of appends, subscriptions
and drains, each viewer has seen every event since its subscription up to any
that was delivered to it. -/
theorem noSilentGap_of_execute
    (keepsOverflow : ∀ checkpoint droppedCount recoverAfterSeq,
      options.skipDuplicate checkpoint (.streamOverflow droppedCount recoverAfterSeq) = false)
    {onDisk : Bool}
    {history : List JournalAction}
    {before journal : JournalSystem Checkpoint}
    (earlier : execute (journalStep options) (freshJournal options onDisk) history = some before)
    (opens : journalStep options before .openJournal = some journal)
    {actions : List StreamAction}
    {final : StreamSystem Checkpoint}
    (reached : execute (streamStep options ringSize) (StreamSystem.opened journal) actions =
      some final) :
    ∀ subscriber ∈ final.subscribers, NoSilentGap final.journal.disk.wal subscriber := by
  have exactly := invariant_of_unconditional
    (fun _ _ _ invariant taken => journalExact_step fresh invariant taken)
    (journalExact_fresh fresh onDisk) earlier
  have sound := invariant_of_unconditional
    (fun _ _ _ invariant taken => StreamSound.step fresh keepsOverflow invariant taken)
    (StreamSound.opened fresh exactly opens) reached
  exact fun subscriber member => (sound.keepsUp subscriber member).noGap

end Sound

/-- A listener that is slow behind its first event, on a ring of two. -/
def slowViewing : List StreamAction :=
  [.subscribe, .append (.runStarted 1) "t2", .drain 0 "t", .append (.runStarted 2) "t3",
    .append (.runStarted 3) "t4", .append (.runStarted 4) "t5", .append (.runStarted 5) "t6",
    .drain 0 "t7", .drain 0 "t", .drain 0 "t"]

/-- Two events are dropped, reported and read from the log. -/
theorem noSilentGap_slowViewing :
    ∃ before journal final,
      execute (journalStep chainStart.journalOptions) (freshJournal chainStart.journalOptions true)
        [.openJournal, .append 0 chainStart.createdPayload chainStart.createdAt] = some before ∧
      journalStep chainStart.journalOptions before .openJournal = some journal ∧
      execute (streamStep chainStart.journalOptions 2) (StreamSystem.opened journal) slowViewing =
        some final ∧
      (final.subscribers.map fun subscriber => subscriber.delivered.map (·.seq)) = [[2, 7, 5, 6]] ∧
      ∀ subscriber ∈ final.subscribers, NoSilentGap final.journal.disk.wal subscriber := by
  obtain ⟨before, journal, final, earlier, opens, reached, delivered⟩ : ∃ before journal final,
        execute (journalStep chainStart.journalOptions)
          (freshJournal chainStart.journalOptions true)
          [.openJournal, .append 0 chainStart.createdPayload chainStart.createdAt] = some before ∧
        journalStep chainStart.journalOptions before .openJournal = some journal ∧
        execute (streamStep chainStart.journalOptions 2) (StreamSystem.opened journal) slowViewing =
          some final ∧
        (final.subscribers.map fun subscriber => subscriber.delivered.map (·.seq)) =
          [[2, 7, 5, 6]] :=
    ⟨_, _, _, rfl, rfl, rfl, rfl⟩
  exact ⟨before, journal, final, earlier, opens, reached, delivered,
    noSilentGap_of_execute rfl (fun _ _ _ => rfl) earlier opens reached⟩

end OpenAgent.Dag
