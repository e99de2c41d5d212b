import OpenAgent.Tasks.CompletionNotifier

/-!
# No announcement comes through twice

What came through is noted in the record, and every announcement that is made directly
looks at the note first.  A flush does not look: an announcement that waits in a buffer
while a timer or another call hands it over comes through once more.  So each run of a
child is announced at most once as long as no flush comes through with an announcement
that is already noted.
-/

namespace OpenAgent.Tasks

open Library

namespace NotificationStore

variable {store : NotificationStore}

theorem taskId_of_load (loaded : store.load taskId = some stored) : stored.taskId = taskId := by
  simpa using List.find?_some loaded

theorem mem_of_load (loaded : store.load taskId = some stored) : stored ∈ store.records :=
  List.mem_of_find?_eq_some loaded

theorem load_of_mem (member : stored ∈ store.records) : store.load stored.taskId = some stored := by
  cases loaded : store.load stored.taskId with
  | none => exact absurd (decide_eq_true rfl) (List.find?_eq_none.mp loaded stored member)
  | some other =>
    rw [List.inj_on_of_nodup_map store.unique (mem_of_load loaded) member (taskId_of_load loaded)]

section

variable (store : NotificationStore)

section

variable (mutation : NotificationRecord → NotificationRecord)

theorem load_mutate (keepsTask : ∀ stored, (mutation stored).taskId = stored.taskId) :
    (store.mutate taskId mutation keepsTask).load other =
      if other = taskId then (store.load other).map mutation else store.load other := by
  have sameTest : ((fun stored : NotificationRecord => decide (stored.taskId = other)) ∘
      fun stored => if stored.taskId = taskId then mutation stored else stored) =
      fun stored => decide (stored.taskId = other) := by
    funext stored
    by_cases same : stored.taskId = taskId <;> simp [same, keepsTask]
  unfold load mutate
  rw [List.find?_map, sameTest]
  cases found : store.records.find? fun stored => decide (stored.taskId = other) with
  | none => simp
  | some stored =>
    have isOther : stored.taskId = other := by simpa using List.find?_some found
    by_cases same : other = taskId <;> simp [isOther, same]

theorem load_put :
    (store.put written).load other =
      if other = written.taskId then some written else store.load other := by
  unfold put
  split
  next absent =>
    change (store.records ++ [written]).find? _ = _
    rw [List.find?_append]
    by_cases same : other = written.taskId
    · subst same
      rw [show store.records.find? _ = none from absent]
      simp
    · have differs : ¬ written.taskId = other := fun equal => same equal.symm
      rw [if_neg same]
      simp [differs, load]
  next present =>
    rw [load_mutate]
    by_cases same : other = written.taskId
    · subst same
      obtain ⟨stored, loaded⟩ := Option.ne_none_iff_exists'.mp present
      rw [if_pos rfl, if_pos rfl, loaded, Option.map_some, taskId_of_load loaded]
    · rw [if_neg same, if_neg same]

theorem load_isSome_mutate (keepsTask : ∀ stored, (mutation stored).taskId = stored.taskId) :
    ((store.mutate taskId mutation keepsTask).load other).isSome = (store.load other).isSome := by
  rw [load_mutate]
  split
  next => exact Option.isSome_map
  next => rfl

end

/-- No record is lost and no notified epoch goes back. -/
def NotLowered (store next : NotificationStore) : Prop :=
  ∀ taskId stored, store.load taskId = some stored →
    ∃ later, next.load taskId = some later ∧ stored.notifiedEpoch ≤ later.notifiedEpoch

theorem NotLowered.refl : NotLowered store store :=
  fun _ stored loaded => ⟨stored, loaded, le_rfl⟩

end

theorem NotLowered.trans (first : NotLowered store middle) (second : NotLowered middle next) :
    NotLowered store next := by
  intro taskId stored loaded
  obtain ⟨between, isBetween, firstLE⟩ := first taskId stored loaded
  obtain ⟨later, isLater, secondLE⟩ := second taskId between isBetween
  exact ⟨later, isLater, firstLE.trans secondLE⟩

theorem notLowered_mutate
    (raises : ∀ stored, stored.notifiedEpoch ≤ (mutation stored).notifiedEpoch) :
    NotLowered store (store.mutate taskId mutation keepsTask) := by
  intro other stored loaded
  rw [load_mutate, loaded]
  by_cases same : other = taskId
  · exact ⟨mutation stored, if_pos same, raises stored⟩
  · exact ⟨stored, if_neg same, le_rfl⟩

theorem notLowered_put
    (raises : (store.load written.taskId).all (·.notifiedEpoch ≤ written.notifiedEpoch) = true) :
    NotLowered store (store.put written) := by
  intro other stored loaded
  rw [load_put]
  by_cases same : other = written.taskId
  · subst same
    rw [loaded] at raises
    exact ⟨written, if_pos rfl, by simpa using raises⟩
  · exact ⟨stored, (if_neg same).trans loaded, le_rfl⟩

/-- The record of an announcement says that it came through. -/
def Notes (store : NotificationStore) (entry : CompletionEntry) : Prop :=
  ∃ stored, store.load entry.taskId = some stored ∧ (entry.epoch : Int) ≤ stored.notifiedEpoch

theorem Notes.later (noted : store.Notes entry) (notLowered : NotLowered store next) :
    next.Notes entry := by
  obtain ⟨stored, loaded, reached⟩ := noted
  obtain ⟨later, isLater, raised⟩ := notLowered entry.taskId stored loaded
  exact ⟨later, isLater, reached.trans raised⟩

theorem notLowered_persistNotified : NotLowered store (persistNotified taskId epoch store) := by
  apply notLowered_mutate
  intro stored
  dsimp only
  split <;> omega

theorem notLowered_recordFailure : NotLowered store (recordFailure taskId epoch store) :=
  notLowered_mutate fun _ => le_rfl

theorem load_isSome_persistNotified :
    ((persistNotified taskId epoch store).load other).isSome = (store.load other).isSome := by
  rw [persistNotified, load_isSome_mutate]

theorem load_persistNotified_of_ne (differs : other ≠ taskId) :
    (persistNotified taskId epoch store).load other = store.load other := by
  rw [persistNotified, load_mutate, if_neg differs]

theorem load_isSome_recordFailure :
    ((recordFailure taskId epoch store).load other).isSome = (store.load other).isSome := by
  rw [recordFailure, load_isSome_mutate]

theorem load_recordFailure_of_ne (differs : other ≠ taskId) :
    (recordFailure taskId epoch store).load other = store.load other := by
  rw [recordFailure, load_mutate, if_neg differs]

theorem load_isSome_foldl_persistNotified (entries : List CompletionEntry) (other : String) :
    ((entries.foldl (fun store entry => persistNotified entry.taskId entry.epoch store)
      store).load other).isSome = (store.load other).isSome := by
  induction entries generalizing store with
  | nil => rfl
  | cons entry entries ih => exact ih.trans load_isSome_persistNotified

/-- Where the record exists, it is noted that an announcement came through. -/
theorem notes_persistNotified (isStored : (store.load entry.taskId).isSome = true) :
    (persistNotified entry.taskId entry.epoch store).Notes entry := by
  obtain ⟨stored, loaded⟩ := Option.isSome_iff_exists.mp isStored
  refine ⟨_, by rw [persistNotified, load_mutate, if_pos rfl, loaded, Option.map_some], ?_⟩
  dsimp only
  split <;> omega

theorem notLowered_foldl {write : CompletionEntry → NotificationStore → NotificationStore}
    (raises : ∀ entry store, NotLowered store (write entry store)) (entries : List CompletionEntry)
    (store : NotificationStore) :
    NotLowered store (entries.foldl (fun store entry => write entry store) store) := by
  induction entries generalizing store with
  | nil => exact .refl store
  | cons entry entries ih => exact (raises entry store).trans (ih (write entry store))

theorem load_isSome_of_notLowered (notLowered : NotLowered store next)
    (isStored : (store.load taskId).isSome = true) : (next.load taskId).isSome = true := by
  obtain ⟨stored, loaded⟩ := Option.isSome_iff_exists.mp isStored
  obtain ⟨later, isLater, -⟩ := notLowered taskId stored loaded
  rw [isLater]
  rfl

theorem notes_foldl_persistNotified {entries : List CompletionEntry}
    (isStored : ∀ entry ∈ entries, (store.load entry.taskId).isSome = true) :
    ∀ entry ∈ entries, (entries.foldl
      (fun store entry => persistNotified entry.taskId entry.epoch store) store).Notes entry := by
  induction entries generalizing store with
  | nil => nofun
  | cons first entries ih =>
    have raises : NotLowered (persistNotified first.taskId first.epoch store)
        ((first :: entries).foldl
          (fun store entry => persistNotified entry.taskId entry.epoch store) store) :=
      notLowered_foldl (fun _ _ => notLowered_persistNotified) entries _
    intro entry member
    rcases List.mem_cons.mp member with rfl | isLater
    · exact (notes_persistNotified (isStored entry List.mem_cons_self)).later raises
    · refine ih (fun other isOther => ?_) entry isLater
      exact load_isSome_of_notLowered notLowered_persistNotified
        (isStored other (List.mem_cons_of_mem first isOther))

end NotificationStore

namespace CompletionNotifier

variable {state next : CompletionNotifier}

/-- No announcement came through twice, each that did is noted, and no buffer holds one
twice. -/
structure Noted (state : CompletionNotifier) : Prop where
  once : state.enqueued.Nodup
  noted : ∀ entry ∈ state.enqueued, state.store.Notes entry
  apart : ∀ sessionId, ((mapGet state.buffered sessionId).getD []).Nodup

theorem noted_created (store : NotificationStore) : (created store).Noted where
  once := List.nodup_nil
  noted := nofun
  apart := fun _ => List.nodup_nil

/-- A step that announces nothing. -/
theorem Noted.of_quiet (invariant : state.Noted) (sameEnqueued : next.enqueued = state.enqueued)
    (notLowered : state.store.NotLowered next.store)
    (apart : ∀ sessionId, ((mapGet next.buffered sessionId).getD []).Nodup) : next.Noted where
  once := by
    rw [sameEnqueued]
    exact invariant.once
  noted := by
    rw [sameEnqueued]
    exact fun entry member => (invariant.noted entry member).later notLowered
  apart := apart

/-- The record of a task says that its run is still to be announced. -/
def Owed (state : CompletionNotifier) (entry : CompletionEntry) : Prop :=
  ∀ stored, state.store.load entry.taskId = some stored → stored.notifiedEpoch < entry.epoch

instance (state : CompletionNotifier) (entry : CompletionEntry) : Decidable (state.Owed entry) :=
  decidable_of_iff
    ((state.store.load entry.taskId).all (·.notifiedEpoch < (entry.epoch : Int)) = true)
    (by simp [Owed, Option.all_eq_true])

/-- What is still owed has not come through. -/
theorem Noted.not_enqueued_of_owed (invariant : state.Noted) (owed : state.Owed entry) :
    entry ∉ state.enqueued := by
  intro member
  obtain ⟨stored, loaded, reached⟩ := invariant.noted entry member
  have below := owed stored loaded
  omega

theorem nodup_pushBuffered {buffered : List (String × List CompletionEntry)}
    (apart : ∀ sessionId, ((mapGet buffered sessionId).getD []).Nodup) (target : String)
    (entry : CompletionEntry) (sessionId : String) :
    ((mapGet (pushBuffered buffered target entry) sessionId).getD []).Nodup := by
  unfold pushBuffered
  dsimp only
  split
  next => exact apart sessionId
  next absent =>
    rw [mapGet_mapSet]
    by_cases same : sessionId = target
    · rw [if_pos same]
      exact nodup_append_singleton (apart target) absent
    · rw [if_neg same]
      exact apart sessionId

theorem Noted.noteDelivered (invariant : state.Noted) (owed : state.Owed entry)
    (isStored : (state.store.load entry.taskId).isSome = true) :
    (state.noteDelivered entry).Noted where
  once := nodup_append_singleton invariant.once (invariant.not_enqueued_of_owed owed)
  noted := by
    intro other member
    rcases List.mem_append.mp member with isOld | isNew
    · exact (invariant.noted other isOld).later NotificationStore.notLowered_persistNotified
    · rw [List.mem_singleton.mp isNew]
      exact NotificationStore.notes_persistNotified isStored
  apart := invariant.apart

theorem enqueued_scheduleRetry (state : CompletionNotifier) :
    (state.scheduleRetry entry).enqueued = state.enqueued ∧
      (state.scheduleRetry entry).store = state.store ∧
      (state.scheduleRetry entry).buffered = state.buffered := by
  unfold scheduleRetry
  dsimp only
  split
  next => exact ⟨rfl, rfl, rfl⟩
  next =>
    split
    next => exact ⟨rfl, rfl, rfl⟩
    next => exact ⟨rfl, rfl, rfl⟩

theorem Noted.scheduleRetry (invariant : state.Noted) (entry : CompletionEntry) :
    (state.scheduleRetry entry).Noted := by
  obtain ⟨sameEnqueued, sameStore, sameBuffered⟩ := enqueued_scheduleRetry state
  refine invariant.of_quiet sameEnqueued ?_ ?_
  · rw [sameStore]
    exact .refl _
  · rw [sameBuffered]
    exact invariant.apart

theorem Noted.finishRetryChain (invariant : state.Noted) (entry : CompletionEntry) :
    (state.finishRetryChain entry).Noted :=
  invariant.of_quiet rfl (.refl _) invariant.apart

/-- Every announcement that came through has a record, so that it could be noted. -/
def MutationsSucceed (_ : CompletionNotifier) (_ : NotifierAction) (after : CompletionNotifier) :
    Prop :=
  ∀ entry ∈ after.enqueued, (after.store.load entry.taskId).isSome = true

section

variable (reported : NotificationRecord)
include reported

variable (parentState : ParentState) (attempts : EnqueueAttempts)

/-- What a direct announcement of a record comes to. -/
theorem deliverRecord_cases (state : CompletionNotifier) :
    (state.deliverRecord reported parentState attempts).2 = state.noteDelivered (entryOf reported) ∨
      (state.deliverRecord reported parentState attempts).2 =
        { state with
          buffered := pushBuffered state.buffered reported.parentSessionId (entryOf reported) } ∨
      (state.deliverRecord reported parentState attempts).2 = scheduleRetry (entryOf reported)
          { state with store := recordFailure reported.taskId reported.runEpoch state.store } := by
  unfold deliverRecord
  cases routeCompletion parentState with
  | buffer reason => exact Or.inr (Or.inl rfl)
  | deliver decision =>
    by_cases delivered : deliverWithRetry attempts = true
    · exact Or.inl (by simp [delivered])
    · exact Or.inr (Or.inr (by simp [delivered, entryOf]))

theorem load_deliverRecord (state : CompletionNotifier) (differs : other ≠ reported.taskId) :
    (state.deliverRecord reported parentState attempts).2.store.load other =
      state.store.load other := by
  rcases deliverRecord_cases reported parentState attempts state with isNext | isNext | isNext
  · rw [isNext]
    exact NotificationStore.load_persistNotified_of_ne differs
  · rw [isNext]
  · rw [isNext, (enqueued_scheduleRetry _).2.1]
    exact NotificationStore.load_recordFailure_of_ne differs

theorem load_isSome_deliverRecord (state : CompletionNotifier) :
    ((state.deliverRecord reported parentState attempts).2.store.load other).isSome =
      (state.store.load other).isSome := by
  rcases deliverRecord_cases reported parentState attempts state with isNext | isNext | isNext
  · rw [isNext]
    exact NotificationStore.load_isSome_persistNotified
  · rw [isNext]
  · rw [isNext, (enqueued_scheduleRetry _).2.1]
    exact NotificationStore.load_isSome_recordFailure

end

theorem Noted.deliverRecord (invariant : state.Noted) (owed : state.Owed (entryOf reported))
    (isStored : entryOf reported ∈ (state.deliverRecord reported parentState attempts).2.enqueued →
        (state.store.load reported.taskId).isSome = true) :
    (state.deliverRecord reported parentState attempts).2.Noted := by
  rcases deliverRecord_cases reported parentState attempts state with
    isNext | isNext | isNext
  · rw [isNext] at isStored ⊢
    exact invariant.noteDelivered owed (isStored (List.mem_append_right _ List.mem_cons_self))
  · rw [isNext]
    exact invariant.of_quiet rfl (.refl _) (nodup_pushBuffered invariant.apart _ _)
  · rw [isNext]
    have failed : Noted
        { state with store := recordFailure reported.taskId reported.runEpoch state.store } :=
      invariant.of_quiet rfl NotificationStore.notLowered_recordFailure invariant.apart
    exact failed.scheduleRetry _

/-- An announcement by `notifyTerminal` is owed, and it is made for the record of the
task or for the one that the caller brings. -/
theorem notifyTerminal_cases (state : CompletionNotifier) :
    (state.notifyTerminal request attempts).2 = state ∨ ∃ reported,
        reported = (state.store.load request.requested.taskId).getD request.requested ∧
        reported.notifiedEpoch < reported.runEpoch ∧
        state.notifyTerminal request attempts =
          state.deliverRecord reported request.parentState attempts := by
  unfold notifyTerminal
  split
  next => exact Or.inl rfl
  next =>
    dsimp only
    split
    next => exact Or.inl rfl
    next =>
      split
      next => exact Or.inl rfl
      next =>
        split
        next => exact Or.inl rfl
        next owed => exact Or.inr ⟨_, rfl, by omega, rfl⟩

theorem Noted.notifyTerminal (invariant : state.Noted) (request : CompletionRequest)
    (attempts : EnqueueAttempts)
    (succeed : MutationsSucceed state (.notifyTerminal request attempts)
      (state.notifyTerminal request attempts).2) :
    (state.notifyTerminal request attempts).2.Noted := by
  rcases notifyTerminal_cases state with same | ⟨reported, isReported, owes, runs⟩
  · rw [same]
    exact invariant
  · rw [runs] at succeed ⊢
    refine invariant.deliverRecord ?_ fun delivered =>
      (load_isSome_deliverRecord _ _ _ _).symm.trans (succeed _ delivered)
    intro other isOther
    cases loaded : state.store.load request.requested.taskId with
    | some stored =>
      rw [loaded] at isReported
      subst isReported
      rw [entryOf, NotificationStore.taskId_of_load loaded, loaded] at isOther
      cases isOther
      exact owes
    | none =>
      rw [loaded, Option.getD_none] at isReported
      subst isReported
      rw [entryOf, loaded] at isOther
      cases isOther

/-- A flush that comes through announces nothing that is noted already. -/
def FlushesOwed (before : CompletionNotifier) : NotifierAction → CompletionNotifier → Prop
  | .flushBuffered sessionId replaced attempts, _ =>
    replaced = false → deliverWithRetry attempts = true →
      ∀ entry ∈ (mapGet before.buffered sessionId).getD [], before.Owed entry
  | _, _ => True

instance FlushesOwed.decidable (before : CompletionNotifier) :
    ∀ action after, Decidable (before.FlushesOwed action after) := by
  intro action after
  unfold FlushesOwed
  split <;> infer_instance

theorem apart_mapDelete {buffered : List (String × List CompletionEntry)}
    (apart : ∀ sessionId, ((mapGet buffered sessionId).getD []).Nodup) (target sessionId : String) :
    ((mapGet (mapDelete buffered target) sessionId).getD []).Nodup := by
  rw [mapGet_mapDelete]
  by_cases same : sessionId = target
  · rw [if_pos same]
    exact List.nodup_nil
  · rw [if_neg same]
    exact apart sessionId

theorem Noted.flushBuffered (invariant : state.Noted) (sessionId : String) (replaced : Bool)
    (attempts : EnqueueAttempts)
    (owed : FlushesOwed state (.flushBuffered sessionId replaced attempts)
      (state.flushBuffered sessionId replaced attempts).2)
    (succeed : MutationsSucceed state (.flushBuffered sessionId replaced attempts)
      (state.flushBuffered sessionId replaced attempts).2) :
    (state.flushBuffered sessionId replaced attempts).2.Noted := by
  have cleared := apart_mapDelete invariant.apart sessionId
  unfold CompletionNotifier.flushBuffered at succeed ⊢
  dsimp only at succeed ⊢
  split at succeed
  next none =>
    rw [if_pos none]
    exact invariant
  next some =>
    rw [if_neg some]
    split at succeed
    next isReplaced =>
      rw [if_pos isReplaced]
      exact invariant.of_quiet rfl (.refl _) cleared
    next notReplaced =>
      rw [if_neg notReplaced]
      split at succeed
      next delivered =>
        rw [if_pos delivered]
        have stillOwed := owed (by simpa using notReplaced) delivered
        refine ⟨?_, ?_, cleared⟩
        · refine List.nodup_append.mpr ⟨invariant.once, invariant.apart sessionId, ?_⟩
          intro left isLeft right isRight equal
          exact invariant.not_enqueued_of_owed (stillOwed right isRight) (equal ▸ isLeft)
        · intro entry member
          rcases List.mem_append.mp member with isOld | isNew
          · exact (invariant.noted entry isOld).later (NotificationStore.notLowered_foldl
                (fun _ _ => NotificationStore.notLowered_persistNotified) _ _)
          · refine NotificationStore.notes_foldl_persistNotified (fun other isOther => ?_) entry isNew
            exact (NotificationStore.load_isSome_foldl_persistNotified _ _).symm.trans
              (succeed other (List.mem_append_right _ isOther))
      next failed =>
        rw [if_neg failed]
        exact invariant.of_quiet rfl (NotificationStore.notLowered_foldl
            (fun _ _ => NotificationStore.notLowered_recordFailure) _ _) cleared

/-- What the sweep does with a record: nothing, or an announcement that is owed. -/
theorem reconcileRecord_cases (attempts : String → EnqueueAttempts) :
    reconcileRecord sessionId parentState attempts state listed = state ∨
      listed.notifiedEpoch < listed.runEpoch ∧
        reconcileRecord sessionId parentState attempts state listed =
          (state.deliverRecord listed parentState (attempts listed.taskId)).2 := by
  unfold reconcileRecord
  by_cases owed : listed.notifiedEpoch ≥ listed.runEpoch
  · left
    rw [if_pos owed]
    exact ite_self state
  · rw [if_neg owed]
    by_cases skipped : listed.parentSessionId ≠ sessionId ∨ (!listed.status.isTerminal) = true ∨
        (!shouldNotifyStatus listed.status) = true ∨ (!owesNotification listed) = true ∨
        hasBuffered state.buffered listed.parentSessionId (entryOf listed) = true
    · rcases skipped with skip | skip | skip | skip | skip <;> simp [skip]
    · right
      push Not at skipped
      obtain ⟨ofSession, terminal, notifies, owes, notBuffered⟩ := skipped
      refine ⟨by omega, ?_⟩
      rw [if_neg (not_not.mpr ofSession), if_neg terminal, if_neg notifies, if_neg owes,
        if_neg notBuffered]

/-- The sweep announces each record as it was listed, since it changes no other. -/
theorem Noted.reconcile {records : List NotificationRecord} (invariant : state.Noted)
    (unique : (records.map NotificationRecord.taskId).Nodup)
    (listed : ∀ stored ∈ records, state.store.load stored.taskId = some stored) :
    (records.foldl (reconcileRecord sessionId parentState attempts) state).Noted := by
  induction records generalizing state with
  | nil => exact invariant
  | cons first records ih =>
    obtain ⟨notLater, laterUnique⟩ := List.nodup_cons.mp unique
    have isListed := listed first List.mem_cons_self
    have later : ∀ stored ∈ records, state.store.load stored.taskId = some stored :=
      fun stored member => listed stored (List.mem_cons_of_mem first member)
    rw [List.foldl_cons]
    rcases reconcileRecord_cases attempts with
      same | ⟨owes, isNext⟩
    · rw [same]
      exact ih invariant laterUnique later
    · rw [isNext]
      apply ih _ laterUnique
      · intro stored member
        rw [load_deliverRecord]
        · exact later stored member
        · intro equal
          exact notLater (equal ▸ List.mem_map_of_mem member)
      · refine invariant.deliverRecord ?_ fun _ => by rw [isListed]; rfl
        intro stored isStored
        have same : some first = some stored := isListed.symm.trans isStored
        cases same
        exact owes

theorem Noted.runScheduledRetry (invariant : state.Noted) (entry : CompletionEntry)
    (parentState : ParentState) (currentSessionId : Option String) (attempts : EnqueueAttempts) :
    (state.runScheduledRetry entry parentState currentSessionId attempts).Noted := by
  have ended := invariant.finishRetryChain entry
  unfold CompletionNotifier.runScheduledRetry
  cases loaded : state.store.load entry.taskId with
  | none => exact ended
  | some fresh =>
    dsimp only
    split
    next => exact ended
    next =>
      split
      next => exact ended
      next =>
        split
        next => exact ended
        next =>
          split
          next => exact ended
          next owed =>
            split
            next => exact ended
            next =>
              split
              next =>
                have pushed : Noted { state with
                    buffered := pushBuffered state.buffered fresh.parentSessionId entry } :=
                  invariant.of_quiet rfl (.refl _) (nodup_pushBuffered invariant.apart _ _)
                exact pushed.finishRetryChain entry
              next =>
                split
                next =>
                  refine invariant.noteDelivered ?_ (by rw [loaded]; rfl)
                  intro stored isStored
                  have same : some fresh = some stored := loaded.symm.trans isStored
                  cases same
                  omega
                next => exact invariant.scheduleRetry entry

theorem Noted.step (invariant : state.Noted) (owed : FlushesOwed state action next)
    (succeed : MutationsSucceed state action next) (stepped : state.step action = some next) :
    next.Noted := by
  cases action with
  | notifyTerminal request attempts =>
    cases stepped
    exact invariant.notifyTerminal request attempts succeed
  | flushBuffered sessionId replaced attempts =>
    cases stepped
    exact invariant.flushBuffered sessionId replaced attempts owed succeed
  | reconcile sessionId parentState attempts =>
    cases stepped
    exact invariant.reconcile state.store.unique
      fun stored member => NotificationStore.load_of_mem member
  | retryFires entry parentState currentSessionId attempts =>
    simp only [CompletionNotifier.step] at stepped
    split at stepped
    next =>
      cases stepped
      have fired : Noted { state with
          scheduledRetries := state.scheduledRetries.filter (· ≠ entry) } :=
        invariant.of_quiet rfl (.refl _) invariant.apart
      exact fired.runScheduledRetry entry parentState currentSessionId attempts
    next => cases stepped
  | recordWritten written =>
    simp only [CompletionNotifier.step] at stepped
    split at stepped
    next raises =>
      cases stepped
      exact invariant.of_quiet rfl (NotificationStore.notLowered_put raises) invariant.apart
    next => cases stepped

/-- In a run whose flushes come through with nothing that is noted already, and whose
notes are all taken, no run of a child is announced twice. -/
theorem notifiedOnce_of_flushesOwed (store : NotificationStore) (actions : List NotifierAction)
    (final : CompletionNotifier) (reached : execute step (created store) actions = some final)
    (succeed : EveryStep step MutationsSucceed (created store) actions)
    (owed : EveryStep step FlushesOwed (created store) actions) : final.enqueued.Nodup := by
  have preserved : ∀ state action next, Noted state →
      MutationsSucceed state action next ∧ FlushesOwed state action next →
        step state action = some next → Noted next := by
    intro state action next invariant meets stepped
    exact invariant.step meets.2 meets.1 stepped
  exact (invariant_of_execute preserved (noted_created store) reached (succeed.and owed)).once

/-- A child that has ended and was not announced yet. -/
def endedChild : NotificationRecord where
  taskId := "st_1"
  parentSessionId := "parent"
  status := .completed
  notifyOnTerminal := true
  runEpoch := 0
  notifiedEpoch := -1
  notificationFailedEpoch := none

def endedChildStore : NotificationStore := ⟨[endedChild], List.nodup_singleton _⟩

/-- A child whose end is buffered and comes through with the flush. -/
theorem notifiedOnce_of_flushesOwed_buffered :
    ∃ final, execute step (created endedChildStore)
        [.notifyTerminal ⟨endedChild, .compacting, true⟩ ⟨true, true⟩,
          .flushBuffered "parent" false ⟨false, true⟩] = some final ∧
      final.enqueued = [⟨"st_1", 0⟩] ∧ final.enqueued.Nodup := by
  obtain ⟨final, reached, isEnqueued⟩ : ∃ final, execute step (created endedChildStore)
        [.notifyTerminal ⟨endedChild, .compacting, true⟩ ⟨true, true⟩,
          .flushBuffered "parent" false ⟨false, true⟩] = some final ∧
        final.enqueued = [⟨"st_1", 0⟩] := by
    decide +kernel
  refine ⟨final, reached, isEnqueued, ?_⟩
  exact notifiedOnce_of_flushesOwed endedChildStore _ final reached
    (by unfold MutationsSucceed; decide +kernel) (by decide +kernel)

/-- The first announcement fails and is left to a timer, the sweep at a session switch
buffers another one, the timer hands the first one over and the flush the second. -/
def announcedTwice : List NotifierAction :=
  [.notifyTerminal ⟨endedChild, .idle, true⟩ ⟨false, false⟩,
    .reconcile "parent" .sessionSwitching fun _ => ⟨true, true⟩,
    .retryFires ⟨"st_1", 0⟩ .idle (some "parent") ⟨true, true⟩,
    .flushBuffered "parent" false ⟨true, true⟩]

theorem not_notifiedOnce_announcedTwice :
    ¬ ∀ store actions final, execute step (created store) actions = some final →
      EveryStep step MutationsSucceed (created store) actions → final.enqueued.Nodup := by
  intro notifiedOnce
  obtain ⟨final, reached, repeated⟩ :
      ∃ final, execute step (created endedChildStore) announcedTwice = some final ∧
        ¬ final.enqueued.Nodup := by
    decide +kernel
  have succeed : EveryStep step MutationsSucceed (created endedChildStore) announcedTwice := by
    unfold MutationsSucceed
    decide +kernel
  exact repeated (notifiedOnce _ _ final reached succeed)

end CompletionNotifier

end OpenAgent.Tasks
