import OpenAgent.Background.Manager
import OpenAgent.Library.Execution

/-!
# The launch queues and their loops

A loop of `processKey` keeps the array that it has looked up when it started.  The removal of
the last item of the stored array deletes the entry of its key, and a launch then stores a
new array, at which no loop looks.  A fallback retry stores the array that it has looked up in
front of an abort.  A launch whose continuation marker cannot be written stores an item without
starting a loop.  As long as no other array is stored under the key of a running loop, every item
is stored for a loop, and no loop is left by an error, every stored item has a loop that will take
it.
-/

namespace OpenAgent.Background

open Library

namespace LaunchQueues

section

variable (queues : LaunchQueues)

/-- A stored queue with an item has a loop, and this one looks at that queue. -/
def Served : Prop :=
  ∀ key queue, queues.queuesByKey key = some queue → queues.items queue ≠ [] →
    ∃ loop, queues.loops key = some loop ∧ loop.queue = queue

/-- An array that was created for a key. -/
def Owns (key : Name) (queue : QueueId) : Prop :=
  queue.key = key ∧ queue.number < queues.nextQueue

/-- The arrays of a key are its own, and its running loop has the stored array, or an empty one
whose entry is deleted. -/
structure AttachedAt (key : Name) : Prop where
  stored : ∀ queue, queues.queuesByKey key = some queue → queues.Owns key queue
  running : ∀ loop, queues.loops key = some loop → queues.Owns key loop.queue ∧
    (queues.queuesByKey key = some loop.queue ∨
      queues.queuesByKey key = none ∧ queues.items loop.queue = [])

/-- A key whose stored queue is served. -/
structure SoundAt (key : Name) : Prop extends AttachedAt queues key where
  served : ∀ queue, queues.queuesByKey key = some queue → queues.items queue ≠ [] →
    ∃ loop, queues.loops key = some loop ∧ loop.queue = queue

/-- Nothing has changed but at one key. -/
structure Beside (next : LaunchQueues) (key : Name) : Prop where
  stored : ∀ other, other ≠ key → next.queuesByKey other = queues.queuesByKey other
  loops : ∀ other, other ≠ key → next.loops other = queues.loops other
  items : ∀ queue, queue.key ≠ key → next.items queue = queues.items queue
  numbered : queues.nextQueue ≤ next.nextQueue

end

variable {queues next final : LaunchQueues}

/-! ## The frame of a change -/

section Frame

variable (beside : queues.Beside next key)
include beside

theorem Beside.trans (later : next.Beside final key) : queues.Beside final key where
  stored := fun other differs => (later.stored other differs).trans (beside.stored other differs)
  loops := fun other differs => (later.loops other differs).trans (beside.loops other differs)
  items := fun queue differs => (later.items queue differs).trans (beside.items queue differs)
  numbered := beside.numbered.trans later.numbered

theorem Beside.owns (owns : queues.Owns other queue) : next.Owns other queue :=
  ⟨owns.1, owns.2.trans_le beside.numbered⟩

/-- The other keys stay sound. -/
theorem SoundAt.elsewhere (sound : queues.SoundAt other) (differs : other ≠ key) :
    next.SoundAt other where
  stored := by
    rw [beside.stored other differs]
    exact fun queue isStored => beside.owns (sound.stored queue isStored)
  running := by
    intro loop isLoop
    rw [beside.loops other differs] at isLoop
    obtain ⟨owns, place⟩ := sound.running loop isLoop
    rw [beside.stored other differs, beside.items loop.queue (owns.1 ▸ differs)]
    exact ⟨beside.owns owns, place⟩
  served := by
    intro queue isStored notEmpty
    rw [beside.stored other differs] at isStored
    rw [beside.items queue ((sound.stored queue isStored).1 ▸ differs)] at notEmpty
    rw [beside.loops other differs]
    exact sound.served queue isStored notEmpty

end Frame

theorem beside_setLoop (queues : LaunchQueues) (loop : Option ProcessLoop) :
    queues.Beside (queues.setLoop key loop) key :=
  ⟨fun _ _ => rfl, fun _ differs => Function.update_of_ne differs _ _, fun _ _ => rfl, le_rfl⟩

/-- The items of an array of the key change, and its entry. -/
theorem beside_items {entries : Name → Option QueueId} {rest : List QueueItem}
    (isKey : queue.key = key)
    (stored : ∀ other, other ≠ key → entries other = queues.queuesByKey other) :
    queues.Beside { queues with
      items := Function.update queues.items queue rest
      queuesByKey := entries } key :=
  ⟨stored, fun _ _ => rfl,
    fun _ differs => Function.update_of_ne (by rintro rfl; exact differs isKey) _ _, le_rfl⟩

theorem beside_takeNext (isKey : queue.key = key) (ticket : Ticket) :
    queues.Beside (queues.takeNext key queue ticket) key := by
  unfold takeNext
  split
  · exact beside_setLoop queues _
  · exact (beside_items isKey fun _ _ => rfl).trans (beside_setLoop _ _)

theorem beside_lookUp (queues : LaunchQueues) (key : Name) :
    queues.Beside (queues.lookUp key).2 key := by
  unfold lookUp
  split
  · exact ⟨fun _ _ => rfl, fun _ _ => rfl, fun _ _ => rfl, le_rfl⟩
  · exact ⟨fun _ _ => rfl, fun _ _ => rfl,
      fun _ differs => Function.update_of_ne (by rintro rfl; exact differs rfl) _ _,
      Nat.le_succ _⟩

theorem beside_store (isKey : queue.key = key) (item : QueueItem) :
    queues.Beside (queues.store key queue item) key :=
  beside_items isKey fun _ differs => Function.update_of_ne differs _ _

/-! ## The key of a change -/

/-- The head of a loop serves its key. -/
theorem AttachedAt.takeNext (attached : queues.AttachedAt key) (owns : queues.Owns key queue)
    (isStored : queues.queuesByKey key = some queue ∨
      queues.queuesByKey key = none ∧ queues.items queue = [])
    (ticket : Ticket) : (queues.takeNext key queue ticket).SoundAt key := by
  unfold LaunchQueues.takeNext
  split
  next isEmpty =>
    refine ⟨⟨attached.stored, fun loop isLoop => ?_⟩, fun foreign isForeign notEmpty => ?_⟩
    · simp [setLoop] at isLoop
    · rcases isStored with isQueue | ⟨missing, _⟩
      · cases isQueue.symm.trans isForeign
        exact absurd isEmpty notEmpty
      · cases missing.symm.trans isForeign
  next item rest isItems =>
    have stored : queues.queuesByKey key = some queue := by
      rcases isStored with isQueue | ⟨_, isEmpty⟩
      · exact isQueue
      · cases isItems.symm.trans isEmpty
    refine ⟨⟨attached.stored, fun loop isLoop => ?_⟩, fun foreign isForeign _ => ?_⟩
    · cases (Function.update_self key _ queues.loops).symm.trans isLoop
      exact ⟨owns, .inl stored⟩
    · cases stored.symm.trans isForeign
      exact ⟨_, Function.update_self .., rfl⟩

section

variable (sound : queues.SoundAt key)
include sound

/-- A running loop goes to another point. -/
theorem SoundAt.goTo (isLoop : queues.loops key = some loop) (point : LoopPoint) :
    (queues.setLoop key (some { queue := loop.queue, point })).SoundAt key := by
  refine ⟨⟨sound.stored, fun found isFound => ?_⟩, fun queue isStored notEmpty => ?_⟩
  · cases (Function.update_self key _ queues.loops).symm.trans isFound
    exact sound.running loop isLoop
  · obtain ⟨found, isFound, rfl⟩ := sound.served queue isStored notEmpty
    cases isLoop.symm.trans isFound
    exact ⟨_, Function.update_self .., rfl⟩

/-- A loop may be left when its array is empty. -/
theorem SoundAt.leave (isLoop : queues.loops key = some loop)
    (isEmpty : queues.items loop.queue = []) : (queues.setLoop key none).SoundAt key := by
  obtain ⟨owns, place⟩ := sound.running loop isLoop
  have taken := sound.toAttachedAt.takeNext owns place 0
  unfold LaunchQueues.takeNext at taken
  rw [isEmpty] at taken
  exact taken

/-- Otherwise its queue is stranded. -/
theorem SoundAt.not_served_leave (isLoop : queues.loops key = some loop)
    (notEmpty : queues.items loop.queue ≠ []) : ¬ (queues.setLoop key none).Served := by
  intro served
  obtain ⟨_, isStored | ⟨_, isEmpty⟩⟩ := sound.running loop isLoop
  · obtain ⟨found, isFound, _⟩ := served key loop.queue isStored notEmpty
    simp [setLoop] at isFound
  · exact notEmpty isEmpty

/-- The array of a key is found or created. -/
theorem SoundAt.lookUp :
    (queues.lookUp key).2.SoundAt key ∧ (queues.lookUp key).2.Owns key (queues.lookUp key).1 := by
  unfold LaunchQueues.lookUp
  split
  next queue isStored => exact ⟨sound, sound.stored queue isStored⟩
  next missing =>
    refine ⟨⟨⟨fun queue isStored => ?_, fun loop isLoop => ?_⟩, fun queue isStored => ?_⟩, rfl,
      Nat.lt_succ_self _⟩
    · cases missing.symm.trans isStored
    · obtain ⟨owns, place⟩ := sound.running loop isLoop
      have old : loop.queue ≠ { key, number := queues.nextQueue } := by
        intro isNew
        rw [isNew] at owns
        exact Nat.lt_irrefl _ owns.2
      refine ⟨⟨owns.1, Nat.lt_succ_of_lt owns.2⟩, place.imp_right fun ⟨_, isEmpty⟩ => ⟨missing, ?_⟩⟩
      exact (Function.update_of_ne old _ _).trans isEmpty
    · cases missing.symm.trans isStored

/-- An array is stored, which is that of the running loop. -/
theorem SoundAt.store (owns : queues.Owns key queue)
    (own : ∀ loop, queues.loops key = some loop → loop.queue = queue) (item : QueueItem) :
    (queues.store key queue item).AttachedAt key where
  stored := by
    intro foreign isForeign
    cases (Function.update_self key _ queues.queuesByKey).symm.trans isForeign
    exact owns
  running := fun loop isLoop => ⟨(sound.running loop isLoop).1,
    .inl (own loop isLoop ▸ Function.update_self ..)⟩

theorem SoundAt.store_running (owns : queues.Owns key queue)
    (own : ∀ loop, queues.loops key = some loop → loop.queue = queue)
    (isLoop : queues.loops key = some loop) (item : QueueItem) :
    (queues.store key queue item).SoundAt key := by
  refine ⟨sound.store owns own item, fun foreign isForeign _ => ⟨loop, isLoop, ?_⟩⟩
  cases (Function.update_self key _ queues.queuesByKey).symm.trans isForeign
  exact own loop isLoop

/-- The removal of a task from its stored queue. -/
theorem SoundAt.dequeue (task : TaskId) :
    (queues.dequeue key task).SoundAt key ∧ queues.Beside (queues.dequeue key task) key := by
  have same : queues.Beside queues key :=
    ⟨fun _ _ => rfl, fun _ _ => rfl, fun _ _ => rfl, le_rfl⟩
  unfold LaunchQueues.dequeue
  split
  next => exact ⟨sound, same⟩
  next queue isStored =>
    split
    next => exact ⟨sound, same⟩
    next item found =>
      have notEmpty : queues.items queue ≠ [] := by
        intro isEmpty
        rw [isEmpty] at found
        cases found
      obtain ⟨loop, isLoop, rfl⟩ := sound.served queue isStored notEmpty
      have owns := sound.stored loop.queue isStored
      have unique : ∀ found, queues.loops key = some found → found = loop := fun found isFound =>
        Option.some.inj (isFound.symm.trans isLoop)
      by_cases isEmpty : (queues.items loop.queue).erase item = []
      · simp only [isEmpty, if_true]
        refine ⟨⟨⟨fun foreign isForeign => ?_, fun found isFound => ?_⟩,
          fun foreign isForeign => ?_⟩,
          beside_items owns.1 fun _ differs => Function.update_of_ne differs _ _⟩
        · simp at isForeign
        · rw [unique found isFound]
          exact ⟨owns, .inr (by simp)⟩
        · simp at isForeign
      · simp only [if_neg isEmpty]
        refine ⟨⟨⟨sound.stored, fun found isFound => ?_⟩, fun foreign isForeign _ => ?_⟩,
          beside_items owns.1 fun _ _ => rfl⟩
        · rw [unique found isFound]
          exact ⟨owns, .inl isStored⟩
        · cases isStored.symm.trans isForeign
          exact ⟨loop, isLoop, rfl⟩

end

/-- `lookUp` changes no loop. -/
theorem loops_lookUp (queues : LaunchQueues) (key : Name) :
    (queues.lookUp key).2.loops = queues.loops := by
  unfold LaunchQueues.lookUp
  split <;> rfl

/-- An array stored under a key whose loop does not look at it is stranded. -/
theorem not_served_store (unseen : ∀ loop, queues.loops key = some loop → loop.queue ≠ queue) :
    ¬ (queues.store key queue item).Served := by
  intro served
  obtain ⟨loop, isLoop, isQueue⟩ := served key queue (Function.update_self ..)
    (by simp [LaunchQueues.store])
  exact unseen loop isLoop isQueue

end LaunchQueues

namespace Manager

variable {config : BackgroundTaskConfig} {manager next : Manager}

/-! ## The invariant -/

/-- The queues are sound, and retries have looked up arrays of their keys. -/
structure QueuesSound (manager : Manager) : Prop where
  queues : ∀ key, manager.queues.SoundAt key
  captured : ∀ id key queue item, manager.operations id = some (.retrying key queue item) →
    manager.queues.Owns key queue

section Invariant

theorem queues_nextItem (manager : Manager) : (manager.nextItem config key queue).queues =
      manager.queues.takeNext key queue manager.concurrency.nextTicket := by
  unfold nextItem
  split <;> rfl

theorem operations_nextItem (manager : Manager) :
    (manager.nextItem config key queue).operations = manager.operations := by
  unfold nextItem
  split <;> rfl

section

variable (sound : manager.QueuesSound)
include sound

theorem QueuesSound.setTable (table : TaskTable) : (manager.setTable table).QueuesSound :=
  ⟨sound.queues, sound.captured⟩

theorem QueuesSound.settle (id : OperationId) : (manager.settle id).QueuesSound where
  queues := sound.queues
  captured := by
    intro other key queue item isRetry
    by_cases same : other = id
    · subst same
      simp [Manager.settle] at isRetry
    · exact sound.captured other key queue item (by simpa [Manager.settle, same] using isRetry)

/-- A method starts to wait; a retry has looked up an array of its key. -/
theorem QueuesSound.await (operation : Operation)
    (owns : ∀ key queue item, operation = .retrying key queue item →
      manager.queues.Owns key queue) : (manager.await operation).QueuesSound where
  queues := sound.queues
  captured := by
    intro id key queue item isRetry
    by_cases same : id = manager.nextOperation
    · subst same
      simp only [Manager.await, Function.update_self, Option.some.injEq] at isRetry
      exact owns key queue item isRetry
    · simp only [Manager.await, Function.update_of_ne same] at isRetry
      exact sound.captured id key queue item isRetry

/-- The queues of one key change. -/
theorem QueuesSound.of_beside (key : Name) (beside : manager.queues.Beside next.queues key)
    (operations : next.operations = manager.operations) (here : next.queues.SoundAt key) :
    next.QueuesSound where
  queues := by
    intro other
    by_cases same : other = key
    · exact same ▸ here
    · exact .elsewhere beside (sound.queues other) same
  captured := by
    intro id other queue item isRetry
    rw [operations] at isRetry
    exact beside.owns (sound.captured id other queue item isRetry)

/-- A running loop goes on to its next item. -/
theorem QueuesSound.nextItem (isLoop : manager.queues.loops key = some loop) :
    (manager.nextItem config key loop.queue).QueuesSound := by
  obtain ⟨owns, place⟩ := (sound.queues key).running loop isLoop
  refine sound.of_beside key ?_ (operations_nextItem manager) ?_
  · rw [queues_nextItem]
    exact LaunchQueues.beside_takeNext owns.1 _
  · rw [queues_nextItem]
    exact (sound.queues key).toAttachedAt.takeNext owns place _

theorem QueuesSound.goTo (isLoop : manager.queues.loops key = some loop) (point : LoopPoint) :
    (manager.goTo key loop.queue point).QueuesSound :=
  sound.of_beside key (LaunchQueues.beside_setLoop _ _) rfl ((sound.queues key).goTo isLoop point)

theorem QueuesSound.dequeue (task : TaskId) : (manager.dequeue config task).QueuesSound :=
  have dequeued := (sound.queues (queueKey config (manager.object task))).dequeue task
  sound.of_beside _ dequeued.2 rfl dequeued.1

theorem QueuesSound.lookUp (key : Name) :
    (manager.setQueues (manager.queues.lookUp key).2).QueuesSound :=
  sound.of_beside key (LaunchQueues.beside_lookUp _ key) rfl (sound.queues key).lookUp.1

/-- An array is stored for a key, and its loop is started where none runs. -/
theorem QueuesSound.serve (owns : manager.queues.Owns key queue)
    (own : ∀ loop, manager.queues.loops key = some loop → loop.queue = queue)
    (isStored : next.queues = manager.queues.store key queue item)
    (operations : next.operations = manager.operations) :
    (next.processKey config key).QueuesSound := by
  have beside : manager.queues.Beside next.queues key :=
    isStored ▸ LaunchQueues.beside_store owns.1 item
  have stored : next.queues.queuesByKey key = some queue := by
    rw [isStored]
    exact Function.update_self ..
  have loops : next.queues.loops = manager.queues.loops := by
    rw [isStored]
    rfl
  unfold processKey
  rw [stored, loops]
  cases isLoop : manager.queues.loops key with
  | some loop =>
    refine sound.of_beside key beside operations ?_
    rw [isStored]
    exact (sound.queues key).store_running owns own isLoop item
  | none =>
    refine sound.of_beside key ?_ ((operations_nextItem next).trans operations) ?_
    · rw [queues_nextItem]
      exact beside.trans (LaunchQueues.beside_takeNext owns.1 _)
    · have attached := (sound.queues key).store owns own item
      rw [← isStored] at attached
      rw [queues_nextItem]
      exact attached.takeNext (beside.owns owns) (.inl stored) _

end

theorem not_served_processKey (isLoop : manager.queues.loops key = some loop)
    (other : loop.queue ≠ queue) (isStored : next.queues = manager.queues.store key queue item) :
    ¬ (next.processKey config key).queues.Served := by
  have running : next.queues.loops key = some loop := by
    rw [isStored]
    exact isLoop
  unfold processKey
  rw [running]
  rw [isStored]
  refine LaunchQueues.not_served_store ?_
  intro found isFound
  cases isLoop.symm.trans isFound
  exact other

end Invariant

/-! ## What a step stores, and what it leaves -/

section Conditions

variable (config : BackgroundTaskConfig) (manager : Manager)

/-- Where a retry without a session to abort puts its item at once. -/
def storedByRetry (task : TaskId) (model : ModelName) : Option (Name × QueueId) :=
  let object := manager.object task
  if object.sessionId.isSome ∨ object.inTeam ∧ ¬ object.hasSessionCallback then none
  else
    let key := config.concurrencyKey (rawConcurrencyKey (some model) object.agent)
    some (key, (manager.queues.lookUp key).1)

/-- The array that a step stores under a key. -/
def storedBy : Label → Option (Name × QueueId)
  | .launch input root _ =>
    if config.maxLiveDescendants ≠ 0 ∧
        config.maxLiveDescendants ≤ manager.rootDescendantCounts root then none
    else some (inputKey config input, (manager.queues.lookUp (inputKey config input)).1)
  | .settle id .proceed =>
    match manager.operations id with
    | some (.retrying key queue _) => some (key, queue)
    | _ => none
  | .retry task model => manager.storedByRetry config task model
  | _ => none

/-- The key of an item behind which no loop is started: the continuation marker of a launch
throws. -/
def unstartedBy : Label → Option Name
  | .launch input root true => (manager.storedBy config (.launch input root true)).map (·.1)
  | _ => none

/-- The array of a loop that a step leaves by an error: `acquire` was rejected, for a task that is
not stopped, or the continuation marker behind a failed start throws. -/
def abandonedBy : Label → Option QueueId
  | .loop key answer =>
    match manager.queues.loops key with
    | none => none
    | some loop =>
      match loop.point, answer with
      | .acquiring item ticket, .proceed =>
        if manager.concurrency.tickets ticket = .rejected ∧ manager.isStopped item.task = false then
          some loop.queue
        else none
      | .creating item, .throws markerThrows | .announcingSession item _, .throws markerThrows
      | .announcingRetry item, .throws markerThrows =>
        match ((manager.failStart config key item.task).object item.task).sessionId with
        | some _ => none
        | none => if markerThrows then some loop.queue else none
      | .cleaningUp _, .markerThrows => some loop.queue
      | _, _ => none
  | _ => none

/-- No other array is stored under the key of a running loop, an item behind which no loop is
started has a running one, and a loop that is left by an error has no item left. -/
structure Keeps (stored : Option (Name × QueueId)) (unstarted : Option Name)
    (abandoned : Option QueueId) : Prop where
  own : ∀ key queue, stored = some (key, queue) →
    ∀ loop, manager.queues.loops key = some loop → loop.queue = queue
  started : ∀ key, unstarted = some key → manager.queues.loops key ≠ none
  emptied : ∀ queue, abandoned = some queue → manager.queues.items queue = []

/-- What a step stores, does not start and leaves keeps the loops. -/
def KeepsLoops (label : Label) (_ : Manager) : Prop :=
  manager.Keeps (manager.storedBy config label) (manager.unstartedBy config label)
    (manager.abandonedBy config label)

end Conditions

/-! ## Steps -/

/-- A step keeps the queues sound when it keeps the loops, and strands a queue otherwise. -/
structure Decides (manager next : Manager) (stored : Option (Name × QueueId))
    (unstarted : Option Name) (abandoned : Option QueueId) : Prop where
  sound : Keeps manager stored unstarted abandoned → next.QueuesSound
  stranded : ¬ Keeps manager stored unstarted abandoned → ¬ next.queues.Served

section Steps

theorem Decides.of_sound (sound : next.QueuesSound) : Decides manager next none none none :=
  ⟨fun _ => sound, fun fails => absurd ⟨nofun, nofun, nofun⟩ fails⟩

/-- An array is stored, and the loop of its key is started. -/
theorem Decides.of_serve {stored : Manager} (lookedUp : next.QueuesSound)
    (loops : next.queues.loops = manager.queues.loops) (owns : next.queues.Owns key queue)
    (isStored : stored.queues = next.queues.store key queue item)
    (operations : stored.operations = next.operations) :
    Decides manager (stored.processKey config key) (some (key, queue)) none none where
  sound := by
    intro keeps
    refine lookedUp.serve owns ?_ isStored operations
    intro loop isLoop
    exact keeps.own key queue rfl loop (loops ▸ isLoop)
  stranded := by
    intro fails
    have foreign : ∃ loop, manager.queues.loops key = some loop ∧ loop.queue ≠ queue := by
      by_contra none
      refine fails ⟨?_, nofun, nofun⟩
      rintro _ _ ⟨⟩ loop isLoop
      by_contra differs
      exact none ⟨loop, isLoop, differs⟩
    obtain ⟨loop, isLoop, differs⟩ := foreign
    exact not_served_processKey (loops ▸ isLoop) differs isStored

/-- An array is stored, and no loop is started. -/
theorem Decides.of_store {stored : Manager} (lookedUp : next.QueuesSound)
    (loops : next.queues.loops = manager.queues.loops) (owns : next.queues.Owns key queue)
    (isStored : stored.queues = next.queues.store key queue item)
    (operations : stored.operations = next.operations) :
    Decides manager stored (some (key, queue)) (some key) none where
  sound := by
    intro keeps
    have own : ∀ loop, next.queues.loops key = some loop → loop.queue = queue :=
      fun loop isLoop => keeps.own key queue rfl loop (loops ▸ isLoop)
    obtain ⟨loop, isLoop⟩ := Option.ne_none_iff_exists'.mp (keeps.started key rfl)
    refine lookedUp.of_beside key ?_ operations ?_
    · rw [isStored]
      exact LaunchQueues.beside_store owns.1 item
    · rw [isStored]
      exact (lookedUp.queues key).store_running owns own (loops ▸ isLoop) item
  stranded := by
    intro fails
    rw [isStored]
    refine LaunchQueues.not_served_store ?_
    rintro loop isLoop rfl
    rw [loops] at isLoop
    refine fails ⟨?_, ?_, nofun⟩
    · rintro _ _ ⟨⟩ found isFound
      cases isLoop.symm.trans isFound
      rfl
    · rintro _ ⟨⟩ isNone
      cases isLoop.symm.trans isNone

variable (config) in
/-- What `retryAttempt` leaves of a task. -/
theorem object_retryAttempt (table : TaskTable) (task : TaskId) (model : ModelName) :
    ((table.retryAttempt config task model).object task).origin = (table.object task).origin ∧
      ((table.retryAttempt config task model).object task).model = some model := by
  have released : ((table.releaseSlot config task).object task).origin =
      (table.object task).origin := by
    unfold TaskTable.releaseSlot
    split
    next => rfl
    next => simp [TaskTable.setTask, BackgroundTask.origin]
  constructor
  · rw [← released]
    simp only [TaskTable.retryAttempt, TaskTable.setTask, Function.update_self]
    exact (BackgroundTask.origin_finish _ _).trans (BackgroundTask.origin_ensureCurrentAttempt ..)
  · simp only [TaskTable.retryAttempt, TaskTable.setTask, Function.update_self]
    rfl

theorem tryFallbackRetry_decides (sound : manager.QueuesSound) (task : TaskId) (model : ModelName) :
    Decides manager (manager.tryFallbackRetry config task model)
      (manager.storedByRetry config task model) none none := by
  have retried := sound.setTable (manager.retryAttempt config task model)
  obtain ⟨origin, isModel⟩ := object_retryAttempt config manager.toTaskTable task model
  have agent := congrArg BackgroundTask.TaskOrigin.agent origin
  have inTeam := congrArg BackgroundTask.TaskOrigin.inTeam origin
  have callback := congrArg BackgroundTask.TaskOrigin.hasSessionCallback origin
  simp only [BackgroundTask.origin] at agent inTeam callback
  unfold tryFallbackRetry storedByRetry
  simp only [setTable, isModel, agent, inTeam, callback]
  by_cases denied : (manager.object task).inTeam = true ∧
      ¬ (manager.object task).hasSessionCallback = true
  · rw [if_pos denied, if_pos (.inr denied)]
    exact .of_sound retried
  · rw [if_neg denied]
    generalize config.concurrencyKey (rawConcurrencyKey (some model) (manager.object task).agent)
      = key
    have lookedUp := retried.lookUp key
    have owns := (sound.queues key).lookUp.2
    cases previous : (manager.object task).sessionId with
    | some sessionID =>
      refine .of_sound (lookedUp.await _ ?_)
      rintro _ _ _ ⟨⟩
      exact owns
    | none =>
      simp only [Option.isSome_none, Bool.false_eq_true, false_or, if_neg denied]
      exact .of_serve lookedUp (LaunchQueues.loops_lookUp manager.queues key) owns rfl rfl

section Loops

variable (sound : manager.QueuesSound) (isLoop : manager.queues.loops key = some loop)
include sound isLoop

/-- A loop that is left by an error. -/
theorem leaveLoop_decides (table : TaskTable) :
    Decides manager ((manager.setTable table).leaveLoop key) none none (some loop.queue) where
  sound := fun keeps => (sound.setTable table).of_beside key (LaunchQueues.beside_setLoop _ _) rfl
    ((sound.queues key).leave isLoop (keeps.emptied loop.queue rfl))
  stranded := by
    intro fails
    refine (sound.queues key).not_served_leave isLoop fun isEmpty => fails ⟨nofun, nofun, ?_⟩
    rintro _ ⟨⟩
    exact isEmpty

theorem nextItem_decides (table : TaskTable) :
    Decides manager ((manager.setTable table).nextItem config key loop.queue) none none none :=
  .of_sound ((sound.setTable table).nextItem isLoop)

theorem goTo_decides (table : TaskTable) (point : LoopPoint) :
    Decides manager ((manager.setTable table).goTo key loop.queue point) none none none :=
  .of_sound ((sound.setTable table).goTo isLoop point)

theorem acquired_decides
    (acquires : manager.acquired config key loop.queue item ticket = some next) :
    Decides manager next none none (if manager.concurrency.tickets ticket = .rejected ∧
          manager.isStopped item.task = false then some loop.queue
        else none) := by
  unfold acquired at acquires
  split at acquires
  next => cases acquires
  next isRejected =>
    rw [isRejected]
    split at acquires
    next stopped =>
      cases acquires
      simp only [stopped]
      exact nextItem_decides sound isLoop _
    next notStopped =>
      cases acquires
      simp only [notStopped]
      exact leaveLoop_decides sound isLoop manager.toTaskTable
  next isGranted =>
    rw [isGranted]
    split at acquires
    next =>
      cases acquires
      exact nextItem_decides sound isLoop _
    next =>
      cases acquires
      exact goTo_decides sound isLoop manager.toTaskTable _

theorem endFailedStart_decides (table : TaskTable) (markerThrows : Bool) :
    Decides manager ((manager.setTable table).endFailedStart config key loop.queue markerThrows)
      none none (if markerThrows then some loop.queue else none) := by
  cases markerThrows with
  | true => exact leaveLoop_decides sound isLoop table
  | false => exact nextItem_decides sound isLoop table

theorem startFailed_decides (item : QueueItem) (markerThrows : Bool) :
    Decides manager (manager.startFailed config key loop.queue item markerThrows) none none
      (match ((manager.failStart config key item.task).object item.task).sessionId with
        | some _ => none
        | none => if markerThrows then some loop.queue else none) := by
  unfold startFailed
  simp only [setTable]
  cases isSession : ((manager.failStart config key item.task).object item.task).sessionId with
  | some sessionID => exact goTo_decides sound isLoop _ _
  | none => exact endFailedStart_decides sound isLoop _ markerThrows

theorem sessionAnnounced_decides (item : QueueItem) (sessionID : SessionId) :
    Decides manager (manager.sessionAnnounced config key loop.queue item sessionID)
      none none none := by
  unfold sessionAnnounced
  dsimp only
  split
  next => exact goTo_decides sound isLoop _ _
  next =>
    split
    next => exact goTo_decides sound isLoop _ _
    next =>
      split
      next => exact goTo_decides sound isLoop _ _
      next => exact nextItem_decides sound isLoop _

omit isLoop in
theorem runLoop_decides (stepped : manager.runLoop config key answer = some next) :
    Decides manager next none none (manager.abandonedBy config (.loop key answer)) := by
  unfold runLoop at stepped
  split at stepped
  next => cases stepped
  next loop isLoop =>
    obtain ⟨queue, point⟩ := loop
    simp only [abandonedBy, isLoop]
    dsimp only at stepped
    split at stepped
    next item ticket => exact acquired_decides sound isLoop stepped
    all_goals cases stepped
    next item sessionID =>
      unfold created
      split
      · exact goTo_decides sound isLoop manager.toTaskTable _
      · exact goTo_decides sound isLoop manager.toTaskTable _
    next item markerThrows => exact startFailed_decides sound isLoop item markerThrows
    next item _ markerThrows => exact startFailed_decides sound isLoop item markerThrows
    next item markerThrows => exact startFailed_decides sound isLoop item markerThrows
    next => exact nextItem_decides sound isLoop _
    next item sessionID => exact sessionAnnounced_decides sound isLoop item sessionID
    next => exact nextItem_decides sound isLoop _
    next => exact nextItem_decides sound isLoop _
    next => exact endFailedStart_decides sound isLoop manager.toTaskTable false
    next => exact endFailedStart_decides sound isLoop manager.toTaskTable true

end Loops

variable (sound : manager.QueuesSound)
include sound

theorem QueuesSound.cancelTask (task : TaskId) (abortSession : Bool) :
    (manager.cancelTask config task abortSession).QueuesSound := by
  unfold Manager.cancelTask
  split
  next =>
    split
    next => exact (sound.dequeue task).setTable _
    next =>
      split
      next => exact sound.await _ nofun
      next => exact sound.setTable _
    all_goals exact sound
  next => exact sound

theorem QueuesSound.pruneTask (task : TaskId) : (manager.pruneTask config task).QueuesSound := by
  unfold Manager.pruneTask
  split
  next => exact (sound.dequeue task).setTable _
  next => exact sound.setTable _

/-- A step of a method that waits. -/
theorem settle_decides {id : OperationId} (isOperation : manager.operations id = some operation)
    (stepped : (manager.settle id).runOperation config operation answer = some next) :
    Decides manager next (manager.storedBy config (.settle id answer)) none none := by
  have settled := sound.settle id
  unfold storedBy
  cases operation with
  | retrying key queue item =>
    cases answer with
    | proceed =>
      cases stepped
      simp only [isOperation]
      have serves : Decides (manager.settle id)
          ((manager.settle id).finishRetry config key queue item) _ none none :=
        .of_serve settled rfl (sound.captured id key queue item isOperation) rfl rfl
      exact ⟨fun keeps => serves.sound ⟨keeps.own, keeps.started, keeps.emptied⟩,
        fun fails => serves.stranded fun keeps =>
          fails ⟨keeps.own, keeps.started, keeps.emptied⟩⟩
    | refuse => cases stepped
  | cancelling task =>
    cases answer with
    | proceed =>
      cases stepped
      simp only [isOperation]
      exact .of_sound (settled.setTable _)
    | refuse =>
      cases stepped
      exact .of_sound settled

theorem launch_decides (input : LaunchInput) (root : SessionId) (markerThrows : Bool) :
    Decides manager (manager.launch config input root markerThrows)
      (manager.storedBy config (.launch input root markerThrows))
      (manager.unstartedBy config (.launch input root markerThrows)) none := by
  have loops := LaunchQueues.loops_lookUp manager.queues (inputKey config input)
  have owns := (sound.queues (inputKey config input)).lookUp.2
  cases markerThrows with
  | false =>
    unfold launch storedBy
    simp only
    split
    next => exact .of_sound sound
    next => exact .of_serve (sound.lookUp _) loops owns rfl rfl
  | true =>
    unfold launch unstartedBy storedBy
    simp only
    split
    next => exact .of_sound sound
    next => exact .of_store (sound.lookUp _) loops owns rfl rfl

theorem step_decides (stepped : manager.step config label = some next) :
    Decides manager next (manager.storedBy config label) (manager.unstartedBy config label)
      (manager.abandonedBy config label) := by
  cases label with
  | launch input root markerThrows =>
    cases stepped
    exact launch_decides sound input root markerThrows
  | loop key answer => exact runLoop_decides sound stepped
  | settle id answer =>
    simp only [step] at stepped
    split at stepped
    next => cases stepped
    next operation isOperation => exact settle_decides sound isOperation stepped
  | cancel task abortSession =>
    cases stepped
    exact .of_sound (sound.cancelTask task abortSession)
  | prune task =>
    simp only [step] at stepped
    split at stepped
    next =>
      cases stepped
      exact .of_sound (sound.pruneTask task)
    next => cases stepped
  | retry task model =>
    cases stepped
    exact tryFallbackRetry_decides sound task model
  | complete | other =>
    cases stepped
    exact .of_sound (sound.setTable _)

end Steps

theorem queuesSound_empty : empty.QueuesSound where
  queues := fun _ => ⟨⟨nofun, nofun⟩, nofun⟩
  captured := nofun

/-- Wherever a run passes, each stored queue with an item has a loop that looks at it, exactly
when every step keeps the loops. -/
theorem queues_served_iff (config : BackgroundTaskConfig) (labels : List Label) :
    (∀ front final, front <+: labels → execute (step config) empty front = some final →
      final.queues.Served) ↔ EveryStep (step config) (KeepsLoops config) empty labels :=
  reached_iff_everyStep
    (fun _ _ _ sound keeps stepped => (step_decides sound stepped).sound keeps)
    (fun _ sound key => (sound.queues key).served)
    (fun _ _ _ sound fails stepped => (step_decides sound stepped).stranded fails)
    queuesSound_empty

/-! ## A stranded task -/

def oneSlot : BackgroundTaskConfig where
  modelConcurrency := []
  providerConcurrency := []
  defaultConcurrency := some 1
  maxLiveDescendantsPerRoot := none

def exploreInput : LaunchInput where
  agent := "explore".toList
  model := none
  inTeam := false
  hasSessionCallback := false

/-- The loop starts the task that it has taken. -/
def startSteps (key : Name) (sessionID : SessionId) : List Label :=
  [.loop key .proceed, .loop key (.created sessionID), .loop key .proceed]

/-- The loop waits for the slot of the first task with the second one, while the third one is
cancelled and a fourth one is launched.  Then both slots are given back. -/
def strandedRun : List Label :=
  .launch exploreInput 0 false :: startSteps exploreInput.agent 1 ++
    [.launch exploreInput 0 false, .launch exploreInput 0 false, .cancel 2 true,
      .launch exploreInput 0 false, .complete 0] ++
    startSteps exploreInput.agent 2 ++ [.complete 1]

/-- The fourth task is pending in the stored queue, and no loop runs. -/
theorem not_served_stranded :
    ∃ final, execute (step oneSlot) empty strandedRun = some final ∧ ¬ final.queues.Served ∧
      final.status 3 = .pending ∧ final.queues.loops exploreInput.agent = none := by
  obtain ⟨final, reached, isStored, isItem, isPending, noLoop⟩ :
      ∃ final, execute (step oneSlot) empty strandedRun = some final ∧
        final.queues.queuesByKey exploreInput.agent =
        some { key := exploreInput.agent, number := 1 } ∧
        (final.queues.items { key := exploreInput.agent, number := 1 }).map (·.task) = [3] ∧
        final.status 3 = .pending ∧ final.queues.loops exploreInput.agent = none := by
    decide +kernel
  refine ⟨final, reached, ?_, isPending, noLoop⟩
  intro served
  have notEmpty : final.queues.items { key := exploreInput.agent, number := 1 } ≠ [] := by
    intro isEmpty
    rw [isEmpty] at isItem
    cases isItem
  obtain ⟨loop, isLoop, _⟩ := served exploreInput.agent _ isStored notEmpty
  rw [noLoop] at isLoop
  cases isLoop

end Manager

end OpenAgent.Background
