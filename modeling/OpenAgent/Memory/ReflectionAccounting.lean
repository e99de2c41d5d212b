import OpenAgent.Memory.CursorCompleteness
import OpenAgent.Memory.ReflectionMachine

/-!
# Predicted and written steps

A completion predicts the reflected steps of a conversation by adding those of
the snapshot to the counter; the journal counts the rows up to the end of the
snapshot.  Both agree exactly when the counter stands at the start of the
snapshot, or has passed it while no step is left behind the end.
-/

namespace OpenAgent.Memory

open Library

/-- For every finalized conversation, the steps that the completion predicts are
those that the journal holds afterwards. -/
def StepsAgree (store : ReflectionStore) (outcome : ReflectionOutcome) (now : Text) : Prop :=
  ∀ active, store.readState.active = some active →
    ∀ captured ∈ finalizedBy active outcome, ∀ predicted,
      mapGet (effectiveJournals (finalizedBy active outcome)
        (ReflectionStore.journalSnapshots store.journals
          (ReflectionStore.conversationIds store.readState))) captured.conversationId =
        some predicted →
      predicted.state.stepsSinceLastSuccessfulReflection =
        (ReflectionStore.finalizeConversations (ReflectionStore.conversationIds store.readState)
          now (finalizedBy active outcome)
          (ReflectionStore.readJournals (ReflectionStore.conversationIds store.readState)
            store.journals) captured.conversationId).state.stepsSinceLastSuccessfulReflection

/-- The steps of the snapshots of a conversation. -/
def snapshotSteps (conversationId : Text) (snapshots : List CapturedConversation) : Nat :=
  ((snapshots.filter fun captured => captured.conversationId = conversationId).map fun captured =>
    countCompletedSteps captured.snapshot.entries).sum

/-- The counter stands where the snapshot starts, or it has passed the start and
no completed step is behind the end of the snapshot. -/
def CounterAtStart (entries : List TranscriptEntry) (counted : Nat)
    (snapshot : ReflectionSnapshot) : Prop :=
  counted = countCompletedSteps (entries.take snapshot.startLine) ∨
    countCompletedSteps (entries.take snapshot.startLine) < counted ∧
      countCompletedSteps (entries.drop snapshot.endSnapshotLine) = 0

/-- The condition for each finalized conversation; where a request holds several
snapshots of one conversation, the last one is finalized behind the others. -/
def CountsFromStart (store : ReflectionStore) (outcome : ReflectionOutcome) : Prop :=
  ∀ active, store.readState.active = some active →
    ∀ front captured rest, finalizedBy active outcome = front ++ captured :: rest →
      (∀ other ∈ rest, other.conversationId ≠ captured.conversationId) →
      captured.conversationId ∈ ReflectionStore.conversationIds store.readState →
        CounterAtStart (store.journals captured.conversationId).entries
          ((store.journals captured.conversationId).getState.2.reflectedCompletedSteps +
            snapshotSteps captured.conversationId front)
          captured.snapshot

namespace ReflectionStore

variable {journals : Text → TranscriptJournal}

@[simp] theorem update_same :
    update journals conversationId change conversationId = change (journals conversationId) := by
  simp [update]

@[simp] theorem update_other (differs : other ≠ conversationId) :
    update journals conversationId change other = journals other := by
  simp [update, differs]

/-- Changes that keep the rows. -/
theorem entries_update (keeps : ∀ journal, (change journal).entries = journal.entries) :
    (update journals conversationId change other).entries = (journals other).entries := by
  by_cases same : other = conversationId
  · subst same
    rw [update_same, keeps]
  · rw [update_other same]

theorem entries_foldl {step : (Text → TranscriptJournal) → α → (Text → TranscriptJournal)}
    (keeps : ∀ journals value, (step journals value other).entries = (journals other).entries)
    (values : List α) : (values.foldl step journals other).entries = (journals other).entries := by
  induction values generalizing journals with
  | nil => rfl
  | cons value values ih => rw [List.foldl_cons, ih, keeps]

theorem entries_readJournals :
    (readJournals ids journals other).entries = (journals other).entries := by
  apply entries_foldl
  intro journals id
  exact entries_update fun _ => rfl

theorem entries_finalizeConversations :
    (finalizeConversations ids now finalize journals other).entries = (journals other).entries := by
  apply entries_foldl
  intro journals captured
  split
  · exact entries_update fun _ => rfl
  · rfl

end ReflectionStore

theorem countCompletedSteps_append :
    countCompletedSteps (front ++ back) = countCompletedSteps front + countCompletedSteps back := by
  simp [countCompletedSteps]

theorem countCompletedSteps_take_add_drop (entries : List TranscriptEntry) (line : Nat) :
    countCompletedSteps (entries.take line) + countCompletedSteps (entries.drop line) =
      countCompletedSteps entries := by
  rw [← countCompletedSteps_append, List.take_append_drop]

/-- The journal counts the rows up to the end of the snapshot. -/
theorem steps_finalizeReflection (journal : TranscriptJournal) :
    (journal.finalizeReflection snapshot true now).state.stepsSinceLastSuccessfulReflection =
      countCompletedSteps journal.entries -
        countCompletedSteps (journal.entries.take snapshot.endSnapshotLine) := by
  change _ - min (min (countCompletedSteps (journal.entries.take snapshot.endSnapshotLine))
    (countCompletedSteps journal.entries)) (countCompletedSteps journal.entries) = _
  omega

namespace ReflectionStore

variable {journals : Text → TranscriptJournal}

/-- Other conversations do not change a journal. -/
theorem finalizeConversations_other
    (others : ∀ captured ∈ finalize, captured.conversationId ≠ conversationId) :
    finalizeConversations ids now finalize journals conversationId = journals conversationId := by
  induction finalize generalizing journals with
  | nil => rfl
  | cons captured finalize ih =>
    rw [List.forall_mem_cons] at others
    rw [finalizeConversations, List.foldl_cons]
    refine (ih others.2).trans ?_
    split
    · rw [update_other others.1.symm]
    · rfl

/-- The last snapshot of a conversation decides. -/
theorem steps_finalizeConversations {captured : CapturedConversation}
    (isRead : captured.conversationId ∈ ids)
    (last : ∀ other ∈ rest, other.conversationId ≠ captured.conversationId) :
    (finalizeConversations ids now (front ++ captured :: rest) journals
        captured.conversationId).state.stepsSinceLastSuccessfulReflection =
      countCompletedSteps (journals captured.conversationId).entries -
        countCompletedSteps ((journals captured.conversationId).entries.take
          captured.snapshot.endSnapshotLine) := by
  have split : finalizeConversations ids now (front ++ captured :: rest) journals =
      finalizeConversations ids now rest
        (update (finalizeConversations ids now front journals) captured.conversationId fun journal =>
          journal.finalizeReflection captured.snapshot true now) := by
    rw [finalizeConversations, List.foldl_append, List.foldl_cons, if_pos isRead]
    rfl
  rw [split, finalizeConversations_other last, update_same, steps_finalizeReflection,
    entries_finalizeConversations]

end ReflectionStore

theorem snapshotSteps_cons :
    snapshotSteps conversationId (captured :: snapshots) =
      (if captured.conversationId = conversationId then
        countCompletedSteps captured.snapshot.entries else 0) +
        snapshotSteps conversationId snapshots := by
  unfold snapshotSteps
  by_cases same : captured.conversationId = conversationId <;> simp [same]

theorem snapshotSteps_append :
    snapshotSteps conversationId (front ++ back) =
      snapshotSteps conversationId front + snapshotSteps conversationId back := by
  simp [snapshotSteps]

theorem snapshotSteps_other
    (others : ∀ captured ∈ snapshots, captured.conversationId ≠ conversationId) :
    snapshotSteps conversationId snapshots = 0 := by
  have none : (snapshots.filter fun captured => captured.conversationId = conversationId) = [] := by
    simpa using others
  rw [snapshotSteps, none]
  rfl

/-- A state whose counters fit together. -/
def CountersFit (state : ReflectionTranscriptState) : Prop :=
  state.reflectedCompletedSteps ≤ state.totalCompletedSteps ∧
    state.stepsSinceLastSuccessfulReflection =
      state.totalCompletedSteps - state.reflectedCompletedSteps

/-- The counter grows by the steps of all snapshots of the conversation, up to
the total. -/
theorem effectiveJournals_spec (isCurrent : mapGet journals conversationId = some current)
    (fits : CountersFit current.state) :
    ∃ predicted, mapGet (effectiveJournals finalize journals) conversationId = some predicted ∧
      predicted.state.totalCompletedSteps = current.state.totalCompletedSteps ∧
      predicted.state.reflectedCompletedSteps =
        min current.state.totalCompletedSteps
          (current.state.reflectedCompletedSteps + snapshotSteps conversationId finalize) ∧
      CountersFit predicted.state := by
  induction finalize generalizing journals current with
  | nil =>
    refine ⟨current, isCurrent, rfl, ?_, fits⟩
    have bounded := fits.1
    simp [snapshotSteps, bounded]
  | cons captured finalize ih =>
    rw [snapshotSteps_cons]
    by_cases same : captured.conversationId = conversationId
    · subst same
      have written : mapGet (predictFinalized journals captured) captured.conversationId =
          some { current with
            state :=
              { current.state with
                reflectedCompletedSteps := min current.state.totalCompletedSteps
                  (current.state.reflectedCompletedSteps +
                    countCompletedSteps captured.snapshot.entries)
                stepsSinceLastSuccessfulReflection := current.state.totalCompletedSteps -
                  min current.state.totalCompletedSteps (current.state.reflectedCompletedSteps +
                      countCompletedSteps captured.snapshot.entries) } } := by
        simp only [predictFinalized, isCurrent, mapGet_mapSet, if_true]
      obtain ⟨predicted, isPredicted, total, reflected, stillFits⟩ :=
        ih written ⟨Nat.min_le_left _ _, rfl⟩
      refine ⟨predicted, isPredicted, total, ?_, stillFits⟩
      rw [reflected, if_pos rfl]
      dsimp only
      omega
    · have untouched : mapGet (predictFinalized journals captured) conversationId =
          some current := by
        unfold predictFinalized
        split
        · exact isCurrent
        · rw [mapGet_mapSet, if_neg (Ne.symm same)]
          exact isCurrent
      rw [if_neg same, Nat.zero_add]
      exact ih untouched fits

theorem effectiveJournals_none (isNone : mapGet journals conversationId = none) :
    mapGet (effectiveJournals finalize journals) conversationId = none := by
  induction finalize generalizing journals with
  | nil => exact isNone
  | cons captured finalize ih =>
    apply ih
    unfold predictFinalized
    split
    next => exact isNone
    next current isCurrent =>
      rw [mapGet_mapSet, if_neg]
      · exact isNone
      · rintro rfl
        rw [isNone] at isCurrent
        cases isCurrent

theorem mapGet_journalSnapshots (journals : Text → TranscriptJournal) (ids : List Text)
    (conversationId : Text) :
    mapGet (ReflectionStore.journalSnapshots journals ids) conversationId =
      if conversationId ∈ ids then
        some
          { conversationId
            state := (journals conversationId).getState.2
            snapshot := none }
      else none := by
  induction ids with
  | nil => rfl
  | cons id ids ih =>
    unfold mapGet ReflectionStore.journalSnapshots at *
    by_cases same : id = conversationId
    · subst same
      simp
    · rw [List.map_cons, List.find?_cons_of_neg (by simpa using same), ih]
      simp [Ne.symm same]

/-- Reserved snapshots were captured, and are windows of their transcripts. -/
structure Tracked (store : ReflectionStore) : Prop where
  windows : ∀ captured ∈ store.captured,
    WindowOf (store.journals captured.conversationId).entries captured.snapshot ∧
      captured.snapshot.startLine ≤ captured.snapshot.endSnapshotLine
  reserved : ∀ run, store.reservation.active = some run ∨ store.reservation.pending = some run →
    ∀ captured ∈ run.request.snapshots, captured ∈ store.captured

theorem mem_snapshots_capPendingRun (member : captured ∈ (capPendingRun run).request.snapshots) :
    captured ∈ run.request.snapshots := by
  unfold capPendingRun at member
  dsimp only at member
  split at member
  · exact member
  · exact (List.mem_filter.mp member).1

theorem mem_of_mem_mergeSnapshots (member : captured ∈ mergeSnapshots left right) :
    captured ∈ left ++ right := by
  have held : ∀ (items : List CapturedConversation) (merged : List (Text × CapturedConversation)),
      ∀ entry ∈ items.foldl (fun merged item => mapSet merged item.conversationId item) merged,
        entry.2 ∈ items ∨ entry ∈ merged := by
    intro items
    induction items with
    | nil => exact fun merged entry isEntry => .inr isEntry
    | cons item items ih =>
      intro merged entry isEntry
      rcases ih _ entry isEntry with later | before
      · exact .inl (List.mem_cons_of_mem item later)
      · rcases eq_or_mem_of_mem_mapSet before with rfl | older
        · exact .inl List.mem_cons_self
        · exact .inr older
  obtain ⟨entry, isEntry, rfl⟩ := List.mem_map.mp member
  rcases held _ _ entry isEntry with isItem | isNone
  · exact isItem
  · cases isNone

section Steps

/-- The reservations that `readState` shows are stored. -/
theorem reserved_readState (tracked : Tracked store)
    (isRun : store.readState.active = some run ∨ store.readState.pending = some run) :
    ∀ captured ∈ run.request.snapshots, captured ∈ store.captured := by
  apply tracked.reserved run
  rcases isRun with isActive | isPending
  · exact .inl isActive
  · exact .inr (Option.eq_some_of_filter_eq_some isPending)

variable {known : List CapturedConversation}

theorem reserved_reserveTransition
    (reserved : ∀ run, state.active = some run ∨ state.pending = some run →
      ∀ captured ∈ run.request.snapshots, captured ∈ known)
    (requested : ∀ captured ∈ request.snapshots, captured ∈ known)
    (isRun : (reserveTransition state request runId).1.active = some run ∨
      (reserveTransition state request runId).1.pending = some run) :
    ∀ captured ∈ run.request.snapshots, captured ∈ known := by
  unfold reserveTransition at isRun
  split at isRun
  next =>
    rcases isRun with isActive | isPending
    · cases isActive
      exact requested
    · cases isPending
  next active isStored =>
    rcases isRun with isActive | isPending
    · cases isActive
      exact reserved _ (.inl isStored)
    · cases isPending
      intro captured member
      have kept := mem_snapshots_capPendingRun member
      split at kept
      next pending isPending =>
        rcases List.mem_append.mp (mem_of_mem_mergeSnapshots kept) with older | newer
        · exact reserved pending (.inr isPending) captured older
        · exact requested captured newer
      next => exact requested captured kept

theorem reserved_completeTransition
    (reserved : ∀ run, state.active = some run ∨ state.pending = some run →
      ∀ captured ∈ run.request.snapshots, captured ∈ known)
    (completed : completeTransition state runId outcome journals config = .ok transition)
    (isRun : transition.state.active = some run ∨ transition.state.pending = some run) :
    ∀ captured ∈ run.request.snapshots, captured ∈ known := by
  unfold completeTransition at completed
  split at completed
  next => cases completed
  next active isActive =>
    split at completed
    next => cases completed
    next =>
      dsimp only at completed
      generalize List.foldl clearCompaction _ _ = effective at completed
      split at completed
      next =>
        cases completed
        rcases isRun with isRun | isRun <;> cases isRun
      next pending isPending =>
        split at completed
        next =>
          cases completed
          rcases isRun with isRun | isRun
          · cases isRun
            obtain ⟨stored, isStored, rfl⟩ := Option.map_eq_some_iff.mp isPending
            intro captured member
            exact reserved stored (.inr isStored) captured (mem_snapshots_capPendingRun member)
          · cases isRun
        next =>
          cases completed
          rcases isRun with isRun | isRun <;> cases isRun

theorem reserved_withLaunchOwner {state : ReservationState} {run : ReservedRun}
    (reserved : ∀ run, state.active = some run ∨ state.pending = some run →
      ∀ captured ∈ run.request.snapshots, captured ∈ known)
    (isRun : state.active.map (·.withLaunchOwner owner) = some run ∨ state.pending = some run) :
    ∀ captured ∈ run.request.snapshots, captured ∈ known := by
  rcases isRun with isActive | isPending
  · obtain ⟨stored, isStored, rfl⟩ := Option.map_eq_some_iff.mp isActive
    exact reserved stored (.inl isStored)
  · exact reserved run (.inr isPending)

theorem captureReflectionSnapshot_spec (journal : TranscriptJournal) :
    (journal.captureReflectionSnapshot maxBytes now).1.entries = journal.entries ∧
      ∀ snapshot, (journal.captureReflectionSnapshot maxBytes now).2 = some snapshot →
        Captures journal.entries journal.state.reflectedThroughMessageId maxBytes snapshot := by
  unfold TranscriptJournal.captureReflectionSnapshot
  dsimp only
  cases isCaptured : captureCursorSnapshot journal.entries
      (deriveState journal.state journal.entries) (some maxBytes) with
  | none => exact ⟨rfl, fun _ isSome => (nomatch isSome)⟩
  | some snapshot =>
    refine ⟨rfl, ?_⟩
    rintro _ ⟨⟩
    exact captureCursorSnapshot_spec isCaptured

/-- The rows of a journal only grow. -/
theorem entries_storeStep (stepped : storeStep config store label = some next) :
    ∃ fresh, (next.journals conversationId).entries =
      (store.journals conversationId).entries ++ fresh := by
  cases label with
  | append changed batch =>
    cases stepped
    dsimp only
    by_cases same : conversationId = changed
    · subst same
      rw [ReflectionStore.update_same]
      exact ⟨_, rfl⟩
    · rw [ReflectionStore.update_other same]
      exact ⟨[], (List.append_nil _).symm⟩
  | setPendingCompaction changed pending =>
    cases stepped
    refine ⟨[], ?_⟩
    rw [List.append_nil]
    exact ReflectionStore.entries_update fun _ => rfl
  | capture changed maxBytes now =>
    cases stepped
    refine ⟨[], ?_⟩
    rw [List.append_nil]
    dsimp only
    by_cases same : conversationId = changed
    · subst same
      rw [ReflectionStore.update_same]
      exact (captureReflectionSnapshot_spec _).1
    · rw [ReflectionStore.update_other same]
  | reserve request runId owner =>
    simp only [storeStep] at stepped
    split at stepped <;> cases stepped
    exact ⟨[], (List.append_nil _).symm⟩
  | complete runId outcome now owner =>
    simp only [storeStep] at stepped
    split at stepped
    next => cases stepped
    next transition completed =>
      cases stepped
      refine ⟨[], ?_⟩
      rw [List.append_nil]
      rw [ReflectionStore.entries_foldl, ReflectionStore.entries_finalizeConversations,
        ReflectionStore.entries_readJournals]
      intro journals id
      split
      · exact ReflectionStore.entries_update fun _ => rfl
      · rfl

theorem tracked_step (tracked : Tracked store)
    (stepped : storeStep config store label = some next) : Tracked next := by
  have stillWindows : ∀ captured ∈ store.captured,
      WindowOf (next.journals captured.conversationId).entries captured.snapshot ∧
        captured.snapshot.startLine ≤ captured.snapshot.endSnapshotLine := by
    intro captured member
    obtain ⟨window, ordered⟩ := tracked.windows captured member
    obtain ⟨fresh, grown⟩ := entries_storeStep stepped
    rw [grown]
    exact ⟨window.append fresh, ordered⟩
  cases label with
  | append changed batch | setPendingCompaction changed pending =>
    cases stepped
    exact ⟨stillWindows, tracked.reserved⟩
  | capture changed maxBytes now =>
    simp only [storeStep, Option.some.injEq] at stepped
    subst stepped
    refine ⟨?_, ?_⟩
    · intro captured member
      rcases List.mem_append.mp member with isNew | isOld
      · obtain ⟨snapshot, isSnapshot, rfl⟩ := Option.map_eq_some_iff.mp (Option.mem_toList.mp isNew)
        obtain ⟨sameEntries, spec⟩ :=
          captureReflectionSnapshot_spec (store.journals changed)
        have captures := spec snapshot isSnapshot
        dsimp only
        rw [ReflectionStore.update_same, sameEntries]
        refine ⟨captures.windowOf, ?_⟩
        obtain ⟨line, ends, isEnd⟩ := captures.ends
        obtain ⟨first, row, started, behind, -⟩ := ends.group
        have inside := ends.inside
        omega
      · exact stillWindows captured isOld
    · intro run isRun captured member
      exact List.mem_append_right _ (tracked.reserved run isRun captured member)
  | reserve request runId owner =>
    simp only [storeStep] at stepped
    split at stepped <;> cases stepped
    next requested =>
      refine ⟨stillWindows, ?_⟩
      intro run isRun
      have reserved := fun run => @reserved_reserveTransition _ store.readState request runId run
        (fun _ isStored => reserved_readState tracked isStored) requested
      split at isRun
      · exact reserved_withLaunchOwner reserved isRun
      · exact reserved run isRun
  | complete runId outcome now owner =>
    simp only [storeStep] at stepped
    split at stepped <;> cases stepped
    next transition completed =>
      have reserved := fun run isRun => @reserved_completeTransition _ _ _ _ _ _ _ run
        (fun _ isStored => reserved_readState tracked isStored) completed isRun
      exact ⟨stillWindows, fun _ isRun => reserved_withLaunchOwner reserved isRun⟩

end Steps

theorem tracked_emptyStore : Tracked emptyStore where
  windows := fun _ member => (nomatch member)
  reserved := fun _ isRun => (nomatch isRun)

/-- The comparison for one finalized conversation. -/
theorem steps_eq_iff_counterAtStart (window : WindowOf entries snapshot)
    (ordered : snapshot.startLine ≤ snapshot.endSnapshotLine) :
    countCompletedSteps entries -
          min (countCompletedSteps entries) (counted + countCompletedSteps snapshot.entries) =
        countCompletedSteps entries - countCompletedSteps (entries.take snapshot.endSnapshotLine) ↔
      CounterAtStart entries counted snapshot := by
  have behind := countCompletedSteps_take_add_drop entries snapshot.endSnapshotLine
  have inFront := countCompletedSteps_take_add_drop
    (entries.take snapshot.endSnapshotLine) snapshot.startLine
  rw [List.take_take, Nat.min_eq_left ordered] at inFront
  rw [window.rows, slice]
  unfold CounterAtStart
  omega

theorem countersFit_getState (journal : TranscriptJournal) : CountersFit journal.getState.2 :=
  ⟨Nat.min_le_right _ _, rfl⟩

section Agreement

/-- What a completion predicts and what the journal writes for one
conversation. -/
theorem agrees_iff_of_last (tracked : Tracked store)
    (isActive : store.readState.active = some active)
    (split : finalizedBy active outcome = front ++ captured :: rest)
    (last : ∀ other ∈ rest, other.conversationId ≠ captured.conversationId)
    (isRead : captured.conversationId ∈ ReflectionStore.conversationIds store.readState)
    (now : Text) :
    ∃ predicted, mapGet (effectiveJournals (finalizedBy active outcome)
        (ReflectionStore.journalSnapshots store.journals
          (ReflectionStore.conversationIds store.readState))) captured.conversationId =
        some predicted ∧
      (predicted.state.stepsSinceLastSuccessfulReflection =
          (ReflectionStore.finalizeConversations (ReflectionStore.conversationIds store.readState)
            now (finalizedBy active outcome)
            (ReflectionStore.readJournals (ReflectionStore.conversationIds store.readState)
              store.journals)
            captured.conversationId).state.stepsSinceLastSuccessfulReflection ↔
        CounterAtStart (store.journals captured.conversationId).entries
          ((store.journals captured.conversationId).getState.2.reflectedCompletedSteps +
            snapshotSteps captured.conversationId front)
          captured.snapshot) := by
  have isCurrent := mapGet_journalSnapshots store.journals
    (ReflectionStore.conversationIds store.readState) captured.conversationId
  rw [if_pos isRead] at isCurrent
  obtain ⟨predicted, isPredicted, total, reflected, fits⟩ :=
    effectiveJournals_spec isCurrent (countersFit_getState _)
  refine ⟨predicted, isPredicted, ?_⟩
  have isCaptured : captured ∈ store.captured := by
    apply reserved_readState tracked (.inl isActive)
    have finalized : captured ∈ finalizedBy active outcome := by simp [split]
    unfold finalizedBy at finalized
    split at finalized
    · exact finalized
    · cases finalized
  obtain ⟨window, ordered⟩ := tracked.windows captured isCaptured
  rw [fits.2, reflected, total, split, ReflectionStore.steps_finalizeConversations isRead last,
    ReflectionStore.entries_readJournals, snapshotSteps_append, snapshotSteps_cons, if_pos rfl,
    snapshotSteps_other last, ← Nat.add_assoc]
  exact steps_eq_iff_counterAtStart window ordered

end Agreement

/-- In every reachable store, a completion predicts the steps that the journals
write exactly when each counter stands at the start of its snapshot, or has
passed it with no step left behind the end. -/
theorem stepsAgree_iff_countsFromStart {config : TriggerConfig} {labels : List StoreLabel}
    {store : ReflectionStore} (reached : execute (storeStep config) emptyStore labels = some store)
    (outcome : ReflectionOutcome) (now : Text) :
    StepsAgree store outcome now ↔ CountsFromStart store outcome := by
  have tracked : Tracked store :=
    invariant_of_unconditional (fun _ _ _ => tracked_step) tracked_emptyStore reached
  constructor
  · intro agree active isActive front captured rest split last isRead
    obtain ⟨predicted, isPredicted, iff⟩ :=
      agrees_iff_of_last tracked isActive split last isRead now
    exact iff.mp (agree active isActive captured (by simp [split]) predicted isPredicted)
  · intro counts active isActive captured member predicted isPredicted
    obtain ⟨front, final, rest, split, same, last⟩ := exists_last_of_mem
      (fun other => other.conversationId = captured.conversationId) member rfl
    rw [← same] at last isPredicted ⊢
    have isRead : final.conversationId ∈ ReflectionStore.conversationIds store.readState := by
      by_contra unread
      have isNone := mapGet_journalSnapshots store.journals
        (ReflectionStore.conversationIds store.readState) final.conversationId
      rw [if_neg unread] at isNone
      rw [effectiveJournals_none isNone] at isPredicted
      cases isPredicted
    obtain ⟨other, isOther, iff⟩ :=
      agrees_iff_of_last tracked isActive split last isRead now
    rw [isPredicted] at isOther
    cases isOther
    exact iff.mpr (counts active isActive front final rest split last isRead)

def assistantRow (id : String) : TranscriptEntry :=
  textRow .assistant id id

/-- A manual request for the rows of the conversation from the start. -/
def manualRequest (rows : List TranscriptEntry) (endMessageId : String) : ReflectionRequest where
  trigger := .manual
  conversationIds := [text "c"]
  snapshots :=
    [{ conversationId := text "c"
       snapshot :=
         { startMessageId := text "a1"
           endMessageId := text endMessageId
           startLine := 0
           endSnapshotLine := rows.length
           entries := rows
           backlogRemaining := none } }]
  focus := none
  recentN := none
  targetDoc := none

def sampleOwner : LaunchOwner where
  reservedAt := text "12:00"
  launcherPid := 7
  launcherHostname := text "host"
  launcherProcessStart := none

def manualOnly : TriggerConfig where
  stepCount := none
  onCompaction := none
  snapshotMaxBytes := none

/-- One completed step is captured and reserved, and another one follows. -/
def reservedOnce : List StoreLabel :=
  [.append (text "c") [assistantRow "a1"], .capture (text "c") 100000 (text "12:01"),
    .reserve (manualRequest [assistantRow "a1"] "a1") (text "run1") sampleOwner,
    .append (text "c") [assistantRow "a2"]]

/-- A second request is captured before the first run is finalized, and a third
step follows. -/
def reservedTwice : List StoreLabel :=
  reservedOnce ++
    [.capture (text "c") 100000 (text "12:02"),
      .reserve (manualRequest [assistantRow "a1", assistantRow "a2"] "a2") (text "run2") sampleOwner,
      .append (text "c") [assistantRow "a3"],
      .complete (text "run1") .merged (text "12:03") sampleOwner]

/-- The run that takes the first step predicts what the journal writes. -/
theorem stepsAgree_reservedOnce :
    ∃ store, execute (storeStep manualOnly) emptyStore reservedOnce = some store ∧
      store.readState.active.map ReservedRun.request =
        some (manualRequest [assistantRow "a1"] "a1") ∧
      StepsAgree store .merged (text "12:03") := by
  obtain ⟨store, reached, isRequest, isReflected⟩ :
      ∃ store, execute (storeStep manualOnly) emptyStore reservedOnce = some store ∧
        store.readState.active.map ReservedRun.request =
        some (manualRequest [assistantRow "a1"] "a1") ∧
        (store.journals (text "c")).getState.2.reflectedCompletedSteps = 0 := by
    decide +kernel
  refine ⟨store, reached, isRequest, (stepsAgree_iff_countsFromStart reached _ _).mpr ?_⟩
  intro active isActive front captured rest split last isRead
  rw [isActive, Option.map_some, Option.some.injEq] at isRequest
  rw [finalizedBy, isRequest] at split
  have first : front = [] := by
    cases front with
    | nil => rfl
    | cons head front => simp [manualRequest, ReflectionOutcome.succeeded] at split
  subst first
  obtain ⟨isCaptured, -⟩ := List.cons.inj split
  subst isCaptured
  exact .inl isReflected

/-- What a completion predicts for a conversation, and what the journal writes. -/
def comparedSteps (store : ReflectionStore) (active : ReservedRun) : Option Nat × Nat :=
  let ids := ReflectionStore.conversationIds store.readState
  ((mapGet (effectiveJournals (finalizedBy active .merged)
      (ReflectionStore.journalSnapshots store.journals ids)) (text "c")).map
        (·.state.stepsSinceLastSuccessfulReflection),
    (ReflectionStore.finalizeConversations ids (text "12:04") (finalizedBy active .merged)
      (ReflectionStore.readJournals ids store.journals)
      (text "c")).state.stepsSinceLastSuccessfulReflection)

/-- The run whose snapshot starts with the step that the first run has reflected
predicts that nothing is left; the journal writes that one step is. -/
theorem not_stepsAgree_reservedTwice :
    ∃ store, execute (storeStep manualOnly) emptyStore reservedTwice = some store ∧
      ¬ StepsAgree store .merged (text "12:04") := by
  obtain ⟨store, reached, values⟩ :
      ∃ store, execute (storeStep manualOnly) emptyStore reservedTwice = some store ∧
        (store.readState.active.map fun active =>
          ((finalizedBy active .merged).map CapturedConversation.conversationId,
            comparedSteps store active)) = some ([text "c"], some 0, 1) := by
    decide +kernel
  obtain ⟨active, isActive, values⟩ := Option.map_eq_some_iff.mp values
  rw [Prod.mk.injEq] at values
  obtain ⟨isFinalized, values⟩ := values
  refine ⟨store, reached, ?_⟩
  intro agree
  obtain ⟨captured, rest, split, isConversation, -⟩ := List.map_eq_cons_iff.mp isFinalized
  obtain ⟨isPredicted, isWritten⟩ := Prod.mk.inj values
  obtain ⟨predicted, found, steps⟩ := Option.map_eq_some_iff.mp isPredicted
  rw [← isConversation] at found isWritten
  have equal := agree active isActive captured (by simp [split]) predicted found
  rw [steps, isWritten] at equal
  cases equal

end OpenAgent.Memory
