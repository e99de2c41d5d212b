import OpenAgent.Tasks.SlotAccount

/-!
# Epochs and captured records

The record of a task is written by locked changes of what is stored, and twice by a
whole record that was read before a wait: a fallback writes the record it read before
the old child's teardown, and an interrupt writes the partial text into the record it
made before the abort.  Epochs go back exactly when such a record comes behind a newer
one.
-/

namespace OpenAgent.Tasks

open Library

/-- The epochs do not go back, and a task that has ended runs again only under a new
epoch. -/
@[mk_iff] structure TaskRecord.Advances (before after : TaskRecord) : Prop where
  runEpoch : before.runEpoch ≤ after.runEpoch
  notifiedEpoch : before.notifiedEpoch ≤ after.notifiedEpoch
  revived : before.status.isTerminal = true → after.status.isTerminal = false →
    before.runEpoch < after.runEpoch

section Records

variable {record before : TaskRecord}

theorem TaskRecord.Advances.refl : record.Advances record :=
  ⟨Nat.le_refl _, Int.le_refl _, fun ended going => by simp [ended] at going⟩

theorem TaskRecord.Advances.trans (first : before.Advances middle)
    (second : middle.Advances after) : before.Advances after where
  runEpoch := Nat.le_trans first.runEpoch second.runEpoch
  notifiedEpoch := Int.le_trans first.notifiedEpoch second.notifiedEpoch
  revived := by
    intro ended going
    cases between : middle.status.isTerminal with
    | true => exact Nat.lt_of_le_of_lt first.runEpoch (second.revived between going)
    | false => exact Nat.lt_of_lt_of_le (first.revived ended between) second.runEpoch

@[simp] theorem notifiedEpoch_applyTransitionFields :
    (applyTransitionFields record transition).notifiedEpoch = record.notifiedEpoch := by
  cases transition <;> rfl

@[simp] theorem notifiedEpoch_transition :
    (transitionTaskRecord record transition).record.notifiedEpoch = record.notifiedEpoch := by
  unfold transitionTaskRecord
  split_ifs <;> simp

theorem advances_transition (transition : TaskTransition) :
    record.Advances (transitionTaskRecord record transition).record where
  runEpoch := Nat.le_of_eq (runEpoch_transition).symm
  notifiedEpoch := Int.le_of_eq (notifiedEpoch_transition).symm
  revived := by
    intro ended going
    rw [status_transition_of_terminal ended, ended] at going
    cases going

theorem advances_buildRevived : record.Advances (buildRevived record timestamp) :=
  ⟨Nat.le_succ _, Int.le_refl _, fun _ _ => Nat.lt_succ_self _⟩

end Records

namespace TaskManagerState

/-- What else writes the record of a task within its process: the notifier, the
lifecycle with its claims, and the reattachment of a respawned child. -/
inductive OwnerAction
  | task (action : TaskAction)
  | persistNotified (epoch : Nat)
  | changeResidency (change : TaskTransition)
  | claim
  | forget
  | reserveForReattach
  | releaseReserved (epoch : Nat)
  | reattach (child : StartedChild)

section Owner

variable (laneKey : String → String)

def persistNotified (epoch : Nat) (state : TaskManagerState) : TaskManagerState :=
  { state with record :=
      if state.record.notifiedEpoch ≥ epoch then state.record
      else { state.record with notifiedEpoch := epoch } }

/-- `reserveForReattach`: a task that has ended needs no slot. -/
def reserveForReattach (state : TaskManagerState) : TaskManagerState :=
  if state.record.status.isTerminal then state
  else (tryAcquire laneKey state.record.model (state.record.runEpoch + 1) state).getD state

/-- The record of a run that goes on with a new child. -/
def reattached (child : StartedChild) (record : TaskRecord) (timestamp : Nat) : TaskRecord :=
  { record with
    errorMessage := none
    finalResponse := none
    killed := false
    status := .running
    startedAt := some (record.startedAt.getD timestamp)
    updatedAt := timestamp
    runEpoch := record.runEpoch + 1
    pid := child.pid.or record.pid
    childSessionId :=
      (child.sessionId.filter fun session => !session.isEmpty).or record.childSessionId }

/-- `reattachManagedTask`: the child is discarded unless this process owns the record
and has no child for it. -/
def reattachManagedTask (hostPid : Nat) (child : StartedChild)
    (state : TaskManagerState) : TaskManagerState :=
  if state.record.hostPid ≠ some hostPid || state.record.residencyState ≠ .resident then state
  else if state.live.isSome then state
  else
    let epoch := state.record.runEpoch + 1
    let attached := attach child ⟨state.record.model, epoch⟩ false (subscribeChildFacts state)
    if state.record.status.isTerminal then
      { attached with record :=
        { attached.record with
          pid := child.pid.or attached.record.pid
          childSessionId :=
            (child.sessionId.filter fun session => !session.isEmpty).or
              attached.record.childSessionId } }
    else
      notifyStarted (trackOutcome state.children.length state.record.model epoch
          { attached with record := reattached child attached.record state.clock })

/-- One step of everything that owns the record in its process. -/
def ownerStep (hostPid : Nat) (state : TaskManagerState) :
    OwnerAction → Option TaskManagerState
  | .task action => step laneKey state action
  | .persistNotified epoch => some (persistNotified epoch state)
  | .changeResidency change =>
    if change.changesOnlyResidency then some (state.transition change) else none
  | .claim =>
    some { state with record :=
      { state.record with residencyState := .resident, hostPid := some hostPid } }
  | .forget => some (forget state)
  | .reserveForReattach => some (reserveForReattach laneKey state)
  | .releaseReserved epoch => some (releaseLease epoch state)
  | .reattach child => some (reattachManagedTask hostPid child state)

end Owner

/-- An interrupt that waits has captured a record that has ended. -/
def capturesEnd : Frame → Bool
  | .interrupting _ captured => captured.status.isTerminal
  | _ => true

/-- The record advances, and new frames have captured an end. -/
structure Onward (before after : TaskManagerState) : Prop where
  record : before.record.Advances after.record
  frames : ∀ frame ∈ after.frames, frame ∈ before.frames ∨ capturesEnd frame = true

section Onwards

variable {state : TaskManagerState} (laneKey : String → String)

theorem Onward.refl : Onward state state :=
  ⟨.refl, fun _ => .inl⟩

theorem Onward.trans (first : Onward before middle) (second : Onward middle after) :
    Onward before after where
  record := first.record.trans second.record
  frames := fun frame member =>
    (second.frames frame member).elim (first.frames frame) .inr

/-- Nothing about the record changes. -/
theorem onward_of_same (record : after.record = before.record)
    (frames : ∀ frame ∈ after.frames, frame ∈ before.frames ∨ capturesEnd frame = true) :
    Onward before after :=
  ⟨by rw [record]; exact .refl, frames⟩

theorem onward_transition (change : TaskTransition) : Onward state (state.transition change) :=
  ⟨advances_transition change, fun _ => .inl⟩

theorem onward_push (ended : capturesEnd frame = true) : Onward state (state.push frame) := by
  refine onward_of_same rfl fun other member => ?_
  refine (List.mem_append.mp member).imp id fun last => ?_
  rwa [List.mem_singleton.mp last]

/-- The steering queue and other parts that no epoch depends on. -/
theorem onward_setPendingSteering : Onward state (state.setPendingSteering queue) :=
  ⟨⟨Nat.le_refl _, Int.le_refl _, fun ended going => by
    simp [setPendingSteering, ended] at going⟩, fun _ => .inl⟩

theorem onward_updateChild (handle : Nat) (change : ChildHandle → ChildHandle) :
    Onward state (state.updateChild handle change) :=
  onward_of_same rfl fun _ => .inl

theorem frames_releaseSlot : (state.releaseSlot epoch).frames = state.frames := by
  unfold releaseSlot releaseLease
  split_ifs <;> rfl

theorem onward_releaseSlot (epoch : Nat) : Onward state (state.releaseSlot epoch) :=
  onward_of_same record_releaseSlot fun frame => by
    rw [frames_releaseSlot]
    exact .inl

theorem onward_settleWaiters : Onward state state.settleWaiters := by
  unfold settleWaiters
  split_ifs <;> exact onward_of_same rfl fun _ => .inl

theorem onward_forget : Onward state state.forget :=
  (onward_of_same rfl fun _ => .inl :
    Onward state { state with live := none, released := none, runStats := none }).trans
    onward_setPendingSteering

theorem onward_recordSpawnFacts : Onward state (state.recordSpawnFacts child) := by
  unfold recordSpawnFacts
  split_ifs with ended
  · exact .refl
  · exact ⟨⟨Nat.le_refl _, Int.le_refl _, fun isEnded => absurd isEnded ended⟩, fun _ => .inl⟩

theorem onward_attach : Onward state (attach child context relaunchable state) :=
  onward_of_same rfl fun _ => .inl

theorem onward_removeWaiter (model : String) : Onward state (state.removeWaiter laneKey model) :=
  onward_of_same rfl fun _ member => .inl (List.eraseP_sublist.subset member)

theorem onward_of_tryAcquire (acquired : tryAcquire laneKey model epoch state = some after) :
    Onward state after := by
  unfold tryAcquire at acquired
  split_ifs at acquired
  cases acquired
  exact onward_of_same rfl fun _ => .inl

theorem onward_drain (ids : List String) : Onward state (drain handle ids queue state) := by
  cases queue with
  | nil => exact onward_setPendingSteering
  | cons entry rest => exact (onward_updateChild handle ChildHandle.prompt).trans (onward_push rfl)

theorem onward_notifyStarted : Onward state state.notifyStarted := by
  unfold notifyStarted
  split
  · exact onward_drain _
  · exact .refl

theorem onward_launch (context : LaunchContext) : Onward state (launch context state) := by
  unfold launch
  split_ifs
  · exact (onward_transition _).trans (onward_push rfl)
  · exact ((onward_releaseSlot _).trans onward_setPendingSteering).trans onward_settleWaiters

theorem onward_launchRuntimeFallback (context : LaunchContext) :
    Onward state (launchRuntimeFallback context state) := by
  unfold launchRuntimeFallback
  split_ifs
  · exact onward_push rfl
  · dsimp only
    split_ifs
    · exact (onward_releaseSlot _).trans onward_settleWaiters
    · exact ((onward_releaseSlot _).trans (onward_transition _)).trans onward_settleWaiters

theorem onward_trackOutcome (onward : Onward before state) (model : String) :
    Onward before (trackOutcome handle model epoch state) :=
  onward.trans (onward_push rfl)

theorem onward_relaunched (child : StartedChild) :
    Onward state (relaunched context child state) := by
  have subscribed : Onward state state.subscribeChildFacts := onward_of_same rfl fun _ => .inl
  exact onward_trackOutcome
    ((subscribed.trans onward_attach).trans onward_recordSpawnFacts) _

theorem onward_relaunchFailed (failure : Option FailureKind) :
    Onward state (relaunchFailed context failure state) :=
  ((onward_releaseSlot _).trans (onward_transition _)).trans onward_settleWaiters

theorem onward_launchFailed (failure : Option FailureKind) :
    Onward state (launchFailed context failure state) :=
  (((onward_releaseSlot _).trans (onward_transition _)).trans
    onward_setPendingSteering).trans onward_settleWaiters

/-- A teardown that no fallback waits for. -/
theorem onward_destructionReturned (stays : caller.cause ≠ .fallbackHandoff) :
    Onward state (destructionReturned laneKey caller state) := by
  unfold destructionReturned
  rw [if_neg stays]
  have disposed : Onward state (state.transition (.dispose state.clock)) := onward_transition _
  cases caller with
  | launch context => exact (disposed.trans (onward_releaseSlot _)).trans onward_settleWaiters
  | cancelTask skipAbort => exact disposed.trans (onward_push rfl)
  | afterSettlement => exact disposed
  | runtimeFallback handOff => exact absurd rfl stays

theorem onward_destroyResidentTask
    (stays : caller.cause ≠ .fallbackHandoff ∨ state.liveHandle.isSome = true) :
    Onward state (destroyResidentTask laneKey caller state) := by
  unfold destroyResidentTask
  split
  · exact (onward_updateChild _ _).trans (onward_push rfl)
  · next unattached =>
      refine onward_destructionReturned laneKey (stays.resolve_right ?_)
      simp [unattached]

theorem onward_disposed : Onward state (disposed caller state) := by
  unfold disposed
  split_ifs
  · exact .refl
  · exact onward_forget

theorem onward_launched (child : StartedChild) :
    Onward state (launched laneKey context child state) := by
  unfold launched
  split_ifs
  · exact (onward_attach).trans
      (onward_destroyResidentTask laneKey (.inl (by simp [DestroyCaller.cause])))
  · have subscribed : Onward state state.subscribeChildFacts := onward_of_same rfl fun _ => .inl
    exact (onward_trackOutcome ((subscribed.trans onward_attach).trans
      onward_recordSpawnFacts) _).trans onward_notifyStarted

theorem onward_persistTerminal : Onward state (state.persistTerminal change) :=
  (onward_transition change).trans onward_settleWaiters

theorem onward_tryRuntimeFallback (taken : tryRuntimeFallback laneKey input state = some after) :
    Onward state after := by
  unfold tryRuntimeFallback at taken
  split_ifs at taken
  split at taken
  · next isLive =>
      split_ifs at taken
      cases taken
      exact onward_destroyResidentTask laneKey (.inr (by simp [liveHandle, isLive]))
  · cases taken

theorem onward_outcomeSettled (model : String) (outcome : RunnerOutcome) :
    Onward state (outcomeSettled laneKey handle model epoch outcome state) := by
  unfold outcomeSettled
  split_ifs
  · cases outcome with
    | error kind message killed =>
      dsimp only
      cases fallback : tryRuntimeFallback laneKey ⟨handle, model, epoch, kind, message, killed,
          state.runStats, state.clock⟩ state with
      | none => exact onward_push rfl
      | some next => exact onward_tryRuntimeFallback laneKey fallback
    | completed _ | cancelled => exact (onward_releaseSlot _).trans onward_persistTerminal
  · exact .refl

theorem onward_errorSettled (input : ErrorOutcomeInput) :
    Onward state (errorSettled input state) := by
  unfold errorSettled
  split_ifs
  · exact (onward_releaseSlot _).trans onward_persistTerminal
  · exact .refl

theorem onward_cancelTask : Onward state (cancelTask laneKey reason skipAbort state) := by
  have stays : (DestroyCaller.cancelTask skipAbort).cause ≠ .fallbackHandoff := by
    cases skipAbort <;> decide
  unfold cancelTask
  split
  · refine .trans ?_ (onward_destroyResidentTask laneKey (.inl stays))
    exact (((onward_transition _).trans (onward_removeWaiter laneKey _)).trans
      onward_settleWaiters).trans onward_setPendingSteering
  · refine (onward_transition (.cancel state.clock reason state.runStats)).trans ?_
    split
    · split_ifs
      · exact onward_destroyResidentTask laneKey (.inl stays)
      · exact (onward_push rfl).trans (onward_push rfl)
      · exact (onward_updateChild _ _).trans (onward_push rfl)
    · exact onward_destroyResidentTask laneKey (.inl stays)
  · exact .refl

theorem onward_reviveTerminal (live : LiveTask) :
    Onward state (reviveTerminal laneKey live state) := by
  unfold reviveTerminal
  dsimp only
  split
  · exact .refl
  · next leased acquired =>
      have revived : Onward leased
          { leased with record := buildRevived leased.record leased.clock } :=
        ⟨advances_buildRevived, fun _ => .inl⟩
      exact (((onward_of_tryAcquire laneKey acquired).trans revived).trans
        (onward_updateChild _ _)).trans (onward_push rfl)

theorem onward_sendToTask : Onward state (sendToTask laneKey message deliverAs state) := by
  unfold sendToTask
  dsimp only
  split_ifs
  · exact onward_setPendingSteering
  · split
    · exact .refl
    · exact .refl
    · split_ifs
      · exact .refl
      · exact onward_updateChild _ _
      · exact onward_reviveTerminal laneKey _

theorem onward_stopReturned : Onward state (stopReturned laneKey state) := by
  refine (onward_removeWaiter laneKey state.record.model).trans ?_
  unfold stopReturned releaseSlotForTask removeCapacityWaiter
  split_ifs
  · exact .refl
  · exact onward_releaseSlot _

theorem onward_interruptTask : Onward state state.interruptTask := by
  unfold interruptTask
  split_ifs with running
  · refine (onward_transition (.interrupt state.clock none none)).trans ?_
    split
    · refine (onward_updateChild _ _).trans (onward_push ?_)
      exact isTerminal_transition (by rw [running]; decide) rfl rfl
    · exact onward_push rfl
  · exact .refl

theorem onward_reattachManagedTask : Onward state (reattachManagedTask hostPid child state) := by
  have attached : Onward state (attach child
      ⟨state.record.model, state.record.runEpoch + 1⟩ false state.subscribeChildFacts) :=
    onward_of_same rfl fun _ => .inl
  unfold reattachManagedTask
  split_ifs with foreign live ended
  · exact .refl
  · exact .refl
  · refine attached.trans ⟨⟨Nat.le_refl _, Int.le_refl _, fun isEnded going => ?_⟩, fun _ => .inl⟩
    rw [show _ = true from isEnded] at going
    cases going
  · have written : Onward state
        { attach child ⟨state.record.model, state.record.runEpoch + 1⟩ false
            state.subscribeChildFacts with
          record := reattached child state.record state.clock } :=
      ⟨⟨Nat.le_succ _, Int.le_refl _, fun isEnded => absurd isEnded ended⟩, fun _ => .inl⟩
    exact (onward_trackOutcome written _).trans onward_notifyStarted

/-- A frame that writes back no captured record. -/
theorem onward_resumeFrame
    (uninterrupted : ∀ handle captured, frame = .interrupting handle captured → reply ≠ .fulfilled)
    (unhanded : ∀ handle handOff, frame = .tearingDown handle true (.runtimeFallback handOff) →
      reply ≠ .fulfilled)
    (resumed : resumeFrame laneKey state frame reply = some after) : Onward state after := by
  have leased (epoch : Nat) : Onward state { state with leases := epoch :: state.leases } :=
    onward_of_same rfl fun _ => .inl
  unfold resumeFrame at resumed
  split at resumed <;> cases resumed
  · exact (leased _).trans (onward_launch _)
  · exact (leased _).trans (onward_launchRuntimeFallback _)
  · exact onward_launched _ _
  · exact onward_launchFailed _
  · exact onward_relaunched _
  · exact onward_relaunchFailed _
  · exact onward_outcomeSettled _ _ _
  · exact onward_errorSettled _
  · exact onward_push rfl
  · exact onward_push rfl
  · next handle caller =>
      refine onward_disposed.trans (onward_destructionReturned laneKey ?_)
      cases caller with
      | runtimeFallback handOff => exact absurd rfl (unhanded _ _ rfl)
      | launch context => simp [DestroyCaller.cause]
      | cancelTask skipAbort => cases skipAbort <;> decide
      | afterSettlement => decide
  · exact onward_disposed
  · exact absurd rfl (uninterrupted _ _ rfl)
  · exact .refl
  · exact onward_destroyResidentTask laneKey (.inl (by decide))
  · exact onward_destroyResidentTask laneKey (.inl (by decide))
  · exact onward_destroyResidentTask laneKey (.inl (by decide))
  · exact onward_destroyResidentTask laneKey (.inl (by decide))
  · have subscribed : Onward state state.subscribeChildFacts := onward_of_same rfl fun _ => .inl
    exact onward_trackOutcome subscribed _
  · exact onward_of_same rfl fun _ => .inl
  · exact onward_drain _
  · exact onward_drain _
  · exact onward_stopReturned laneKey

end Onwards

section Captured

variable {state : TaskManagerState} (laneKey : String → String) (hostPid : Nat)

/-- A captured record that a frame writes back is not behind the stored one.  A
fallback's record counts as the next run's, which may be there already as long as it
has not ended for a record that goes on. -/
def Fresh (state : TaskManagerState) : Frame → Prop
  | .interrupting handle captured =>
    ((state.children[handle]?).bind ChildHandle.lastAssistantText).all String.isEmpty = true ∨
      state.record.runEpoch ≤ captured.runEpoch ∧
        state.record.notifiedEpoch ≤ captured.notifiedEpoch
  | .tearingDown _ true (.runtimeFallback handOff) =>
    state.record.notifiedEpoch ≤ handOff.record.notifiedEpoch ∧
      (state.record.runEpoch ≤ handOff.record.runEpoch ∨
        state.record.runEpoch = handOff.record.runEpoch + 1 ∧
          (state.record.status.isTerminal = false ∨ handOff.record.status.isTerminal = true))
  | _ => True

/-- No step writes back a captured record that is behind the stored one. -/
def WritesFresh (state : TaskManagerState) : OwnerAction → Prop
  | .task (.resume index .fulfilled) => ∀ frame ∈ state.frames[index]?, state.Fresh frame
  | _ => True

section

variable (handOff : HandOff)

/-- A fallback writes its record as it is: a run that does not go on has ended. -/
theorem record_continueFallback :
    (continueFallback laneKey handOff state).record = fallbackRecord handOff := by
  have settled (state : TaskManagerState) : state.settleWaiters.record = state.record := by
    unfold settleWaiters
    split_ifs <;> rfl
  unfold continueFallback
  dsimp only
  split
  · next leased acquired =>
      have record := record_of_tryAcquire acquired
      change leased.record = fallbackRecord handOff at record
      unfold launchRuntimeFallback
      split_ifs with running
      · exact record
      · rw [settled]
        split_ifs with ended
        · rw [record_releaseSlot, record]
        · have pending : leased.record.status = .pending := by
            cases status : leased.record.status <;> simp_all [TaskStatus.isTerminal]
          change (transitionTaskRecord (releaseSlot _ leased).record _).record = _
          rw [← record]
          simp [transitionTaskRecord, pending, TaskStatus.isTerminal, isStatusTransitionAllowed]
  · rfl

theorem advances_fallbackRecord_iff :
    state.record.Advances (fallbackRecord handOff) ↔
      state.Fresh (.tearingDown handle true (.runtimeFallback handOff)) := by
  constructor
  · intro advances
    refine ⟨advances.notifiedEpoch, ?_⟩
    have notBehind : state.record.runEpoch ≤ handOff.record.runEpoch + 1 := advances.runEpoch
    by_cases earlier : state.record.runEpoch ≤ handOff.record.runEpoch
    · exact .inl earlier
    · refine .inr ⟨by omega, ?_⟩
      cases ended : state.record.status.isTerminal with
      | false => exact .inl rfl
      | true =>
        refine .inr ?_
        cases goesOn : handOff.record.status.isTerminal with
        | true => rfl
        | false =>
          have : state.record.runEpoch < handOff.record.runEpoch + 1 :=
            advances.revived ended goesOn
          omega
  · rintro ⟨notified, earlier | ⟨same, goesOn | ended⟩⟩
    · exact ⟨Nat.le_succ_of_le earlier, notified, fun _ _ => Nat.lt_succ_of_le earlier⟩
    · exact ⟨Nat.le_of_eq same, notified, fun ended => by simp [goesOn] at ended⟩
    · exact ⟨Nat.le_of_eq same, notified, fun _ going => by
        rw [show (fallbackRecord handOff).status.isTerminal = true from ended] at going
        cases going⟩

/-- The partial text of an interrupt goes out with the captured record. -/
theorem advances_interrupted_iff (ended : captured.status.isTerminal = true) :
    state.record.Advances (interrupted handle captured state).record ↔
      state.Fresh (.interrupting handle captured) := by
  cases spoken : (state.children[handle]?).bind ChildHandle.lastAssistantText with
  | none =>
    have same : (interrupted handle captured state).record = state.record := by
      simp [interrupted, spoken, push]
    rw [same]
    exact iff_of_true .refl (.inl (by simp [spoken]))
  | some text =>
    by_cases isEmpty : text.isEmpty = true
    · have same : (interrupted handle captured state).record = state.record := by
        simp [interrupted, spoken, isEmpty, push]
      rw [same]
      exact iff_of_true .refl (.inl (by simp [spoken, isEmpty]))
    · have written : (interrupted handle captured state).record =
          { captured with finalResponse := some text } := by
        simp [interrupted, spoken, isEmpty, push]
      rw [written]
      constructor
      · exact fun advances => .inr ⟨advances.runEpoch, advances.notifiedEpoch⟩
      · rintro (silent | ⟨epoch, notified⟩)
        · simp [spoken, isEmpty] at silent
        · exact ⟨epoch, notified, fun _ going => by
            rw [show _ = true from ended] at going
            cases going⟩

/-- Every interrupt that waits has captured an end. -/
structure Capturing (state : TaskManagerState) : Prop where
  ended : ∀ frame ∈ state.frames, capturesEnd frame = true

theorem Onward.capturing (onward : Onward state next) (capturing : Capturing state) :
    Capturing next :=
  ⟨fun frame member => (onward.frames frame member).elim (capturing.ended frame) id⟩

theorem onward_takeFrame (index : Nat) : Onward state (takeFrame index state) :=
  onward_of_same rfl fun _ member => .inl ((List.eraseIdx_sublist _ _).subset member)

theorem capturing_continueFallback (capturing : Capturing state) :
    Capturing (continueFallback laneKey handOff state) := by
  have handedOver : Capturing (handOver handOff state) := by
    refine ⟨fun frame member => capturing.ended frame ?_⟩
    change frame ∈ (releaseSlot handOff.input.epoch { state with live := none }).frames at member
    rwa [frames_releaseSlot] at member
  refine Onward.capturing ?_ handedOver
  unfold continueFallback
  dsimp only
  split
  · next leased acquired =>
      exact (onward_of_tryAcquire laneKey acquired).trans (onward_launchRuntimeFallback _)
  · exact onward_push rfl

end

variable (capturing : Capturing state)
include capturing

/-- A resumed frame advances the record exactly when it writes back nothing stale. -/
theorem advances_resumeFrame_iff (found : state.frames[index]? = some frame)
    (resumed : resumeFrame laneKey (takeFrame index state) frame reply = some next) :
    (state.record.Advances next.record ↔ (reply = .fulfilled → state.Fresh frame)) ∧
      Capturing next := by
  have taken : Capturing (takeFrame index state) := (onward_takeFrame index).capturing capturing
  have onward
      (uninterrupted : ∀ handle captured, frame = .interrupting handle captured →
        reply ≠ .fulfilled)
      (unhanded : ∀ handle handOff,
        frame = .tearingDown handle true (.runtimeFallback handOff) → reply ≠ .fulfilled)
      (fresh : reply = .fulfilled → state.Fresh frame) :
      (state.record.Advances next.record ↔ (reply = .fulfilled → state.Fresh frame)) ∧
        Capturing next := by
    have onward := onward_resumeFrame laneKey uninterrupted unhanded resumed
    exact ⟨iff_of_true onward.record fresh, onward.capturing taken⟩
  by_cases fulfilled : reply = .fulfilled
  · subst fulfilled
    simp only [forall_const]
    cases frame with
    | interrupting handle captured =>
      cases resumed
      have ended := capturing.ended _ (List.mem_of_getElem? found)
      have advances : (takeFrame index state).record.Advances
          (interrupted handle captured (takeFrame index state)).record ↔
            (takeFrame index state).Fresh (.interrupting handle captured) :=
        advances_interrupted_iff ended
      refine ⟨advances, ⟨fun frame member => ?_⟩⟩
      rcases List.mem_append.mp member with earlier | last
      · refine taken.ended frame ?_
        revert earlier
        split
        · split_ifs <;> exact id
        · exact id
      · rw [List.mem_singleton.mp last]
        rfl
    | tearingDown handle disposing caller =>
      cases disposing with
      | false =>
        simpa using onward (fun _ _ same => nomatch same) (fun _ _ same => nomatch same)
          fun _ => trivial
      | true =>
        cases caller with
        | runtimeFallback handOff =>
          cases resumed
          refine ⟨?_, capturing_continueFallback laneKey handOff taken⟩
          have record : (continueFallback laneKey handOff (takeFrame index state)).record =
              fallbackRecord handOff := record_continueFallback laneKey handOff
          change state.record.Advances
            (continueFallback laneKey handOff (takeFrame index state)).record ↔ _
          rw [record]
          exact advances_fallbackRecord_iff handOff
        | _ =>
          simpa using onward (fun _ _ same => nomatch same) (fun _ _ same => nomatch same)
            fun _ => trivial
    | _ =>
      simpa using onward (fun _ _ same => nomatch same) (fun _ _ same => nomatch same)
        fun _ => trivial
  · exact onward (fun _ _ _ => fulfilled) (fun _ _ _ => fulfilled)
      fun isFulfilled => absurd isFulfilled fulfilled

/-- A step of the manager advances the record exactly when it writes back nothing
stale. -/
theorem advances_step_iff (stepped : step laneKey state action = some next) :
    (state.record.Advances next.record ↔ WritesFresh state (.task action)) ∧ Capturing next := by
  have onward (onward : Onward state next) (fresh : WritesFresh state (.task action)) :
      (state.record.Advances next.record ↔ WritesFresh state (.task action)) ∧ Capturing next :=
    ⟨iff_of_true onward.record fresh, onward.capturing capturing⟩
  cases action with
  | cancelTask reason skipAbort =>
    cases stepped
    exact onward (onward_cancelTask _) trivial
  | interruptTask =>
    cases stepped
    exact onward onward_interruptTask trivial
  | sendToTask message deliverAs =>
    cases stepped
    exact onward (onward_sendToTask _) trivial
  | waitFor =>
    cases stepped
    refine onward ?_ trivial
    unfold waitFor
    split_ifs <;> exact onward_of_same rfl fun _ => .inl
  | resume index reply =>
    obtain ⟨frame, found, resumed⟩ := Option.bind_eq_some_iff.mp stepped
    obtain ⟨advances, kept⟩ := advances_resumeFrame_iff laneKey capturing found resumed
    refine ⟨advances.trans ?_, kept⟩
    cases reply with
    | fulfilled => simp [WritesFresh, found]
    | _ => simp [WritesFresh]
  | observe clock room runStats =>
    cases stepped
    exact onward (onward_of_same rfl fun _ => .inl) trivial
  | childSpoke handle text | childExited handle =>
    cases stepped
    exact onward (onward_updateChild _ _) trivial

theorem advances_ownerStep_iff (stepped : ownerStep laneKey hostPid state action = some next) :
    (state.record.Advances next.record ↔ WritesFresh state action) ∧ Capturing next := by
  have onward (onward : Onward state next) (fresh : WritesFresh state action) :
      (state.record.Advances next.record ↔ WritesFresh state action) ∧ Capturing next :=
    ⟨iff_of_true onward.record fresh, onward.capturing capturing⟩
  cases action with
  | task action => exact advances_step_iff laneKey capturing stepped
  | persistNotified epoch =>
    cases stepped
    refine onward ⟨?_, fun _ => .inl⟩ trivial
    unfold persistNotified
    split_ifs with already
    · exact .refl
    · refine ⟨Nat.le_refl _, ?_, fun ended going => ?_⟩
      · change state.record.notifiedEpoch ≤ epoch
        omega
      · rw [show _ = true from ended] at going
        cases going
  | changeResidency change =>
    simp only [ownerStep] at stepped
    split_ifs at stepped
    cases stepped
    exact onward (onward_transition change) trivial
  | claim =>
    cases stepped
    refine onward ⟨⟨Nat.le_refl _, Int.le_refl _, fun ended going => ?_⟩, fun _ => .inl⟩ trivial
    rw [show _ = true from ended] at going
    cases going
  | forget =>
    cases stepped
    exact onward onward_forget trivial
  | reserveForReattach =>
    cases stepped
    refine onward ?_ trivial
    unfold reserveForReattach
    split_ifs
    · exact .refl
    · cases acquired : tryAcquire laneKey state.record.model (state.record.runEpoch + 1) state with
      | none => exact .refl
      | some leased => exact onward_of_tryAcquire laneKey acquired
  | releaseReserved epoch =>
    cases stepped
    exact onward (onward_of_same rfl fun _ => .inl) trivial
  | reattach child =>
    cases stepped
    exact onward onward_reattachManagedTask trivial

end Captured

section Runs

variable (laneKey : String → String) (hostPid : Nat)

/-- A manager starts a task, or comes to a record that another process left. -/
inductive TaskStart
  | started (input : TaskRecordInput) (room : List String) (now : Nat)
  | adopted (record : TaskRecord) (room : List String) (now : Nat)

def TaskStart.state : TaskStart → TaskManagerState
  | .started input room now => startResolved laneKey input hostPid room now
  | .adopted record room now => ⟨record, none, [], [], [], none, 0, none, room, now⟩

theorem capturing_start (start : TaskStart) : Capturing (start.state laneKey hostPid) := by
  have fresh (record : TaskRecord) (room : List String) (now : Nat) :
      Capturing ⟨record, none, [], [], [], none, 0, none, room, now⟩ :=
    ⟨fun _ member => nomatch member⟩
  cases start with
  | adopted record room now => exact fresh record room now
  | started input room now =>
    change Capturing (startResolved laneKey input hostPid room now)
    unfold startResolved
    dsimp only
    split
    · refine (onward_launch _).capturing ⟨fun _ member => nomatch member⟩
    · exact Onward.capturing (onward_push rfl) (fresh _ _ _)

/-- Each step of a run advances the record. -/
def EpochsAdvance (start : TaskManagerState) (actions : List OwnerAction) : Prop :=
  EveryStep (ownerStep laneKey hostPid)
    (fun state _ next => state.record.Advances next.record) start actions

/-- The epochs of a record advance in exactly the runs in which no captured record is
written back behind a newer one. -/
theorem epochsAdvance_iff_writesFresh (start : TaskStart) (actions : List OwnerAction) :
    EpochsAdvance laneKey hostPid (start.state laneKey hostPid) actions ↔
      EveryStep (ownerStep laneKey hostPid) (fun state action _ => state.WritesFresh action)
        (start.state laneKey hostPid) actions := by
  constructor <;> intro every <;>
    refine every.of_invariant (fun state action next capturing holds stepped => ?_)
      (capturing_start laneKey hostPid start) <;>
    obtain ⟨exactly, kept⟩ := advances_ownerStep_iff laneKey hostPid capturing stepped
  · exact ⟨exactly.mp holds, kept⟩
  · exact ⟨exactly.mpr holds, kept⟩

instance (before after : TaskRecord) : Decidable (before.Advances after) :=
  decidable_of_iff _ (TaskRecord.advances_iff before after).symm

end Runs

/-- A child that has spoken is interrupted, a message revives it before the abort
returns, and the interrupt's partial text takes the record back to the first run. -/
def lateText : List OwnerAction :=
  [.task (.resume 0 (.started plainChild)), .task (.childSpoke 0 "partial"),
    .task .interruptTask, .task (.sendToTask "go on" .followUp), .task (.resume 1 .fulfilled)]

theorem not_epochsAdvance_lateText :
    ¬ EpochsAdvance id 1
      (TaskStart.state id 1 (.started plainInput ["provider/first"] 0)) lateText := by
  unfold EpochsAdvance
  decide +kernel

end TaskManagerState

end OpenAgent.Tasks
