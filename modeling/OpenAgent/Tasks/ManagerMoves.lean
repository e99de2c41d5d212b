import OpenAgent.Tasks.ManagerControl

/-!
# The moves of the task manager's steps

A step of the manager is a row of moves of its control state, as long as no stop
comes while a fallback changes hands, no interrupt comes while the first child is
on its way or has messages coming, and nobody revives a run whose end is still
being written.
-/

namespace OpenAgent.Tasks

open Control

namespace TaskManagerState

/-! ## The control state under the operations -/

section Equations

variable {state leased : TaskManagerState} {epoch : Nat}

@[simp] theorem control_push : (state.push frame).control =
      { state.control with frames := state.control.frames ++ [frame] } := rfl

@[simp] theorem control_updateChild (change : ChildHandle → ChildHandle) :
    (state.updateChild handle change).control =
      { state.control with children := state.control.children.modify handle change } := rfl

@[simp] theorem control_transition : (state.transition change).control =
      { state.control with
        status := (transitionTaskRecord state.record change).record.status } := by
  simp [control, transition, liveHandle]

@[simp] theorem control_dispose :
    (state.transition (.dispose timestamp)).control = state.control := by
  rw [control_transition, status_dispose]
  rfl

@[simp] theorem control_releaseLease : (state.releaseLease epoch).control = state.control := rfl

@[simp] theorem control_releaseSlot :
    (state.releaseSlot epoch).control = state.control := by
  unfold releaseSlot
  split_ifs <;> rfl

@[simp] theorem record_releaseSlot :
    (state.releaseSlot epoch).record = state.record := by
  unfold releaseSlot releaseLease
  split_ifs <;> rfl

@[simp] theorem control_releaseSlotForTask : state.releaseSlotForTask.control = state.control := by
  unfold releaseSlotForTask
  split_ifs
  · rfl
  · exact control_releaseSlot

@[simp] theorem control_settleWaiters : state.settleWaiters.control = state.control := by
  unfold settleWaiters
  split_ifs <;> rfl

@[simp] theorem control_waitFor : state.waitFor.control = state.control := by
  unfold waitFor
  split_ifs <;> rfl

@[simp] theorem control_clearPersistedQueue :
    (state.clearPersistedQueue ids).control = state.control := rfl

@[simp] theorem control_dropPending : state.dropPending.control = state.control := rfl

@[simp] theorem control_enqueuePending :
    (state.enqueuePending message deliverAs).control = state.control := rfl

@[simp] theorem control_forget :
    state.forget.control = { state.control with live := none } := rfl

@[simp] theorem control_recordSpawnFacts :
    (state.recordSpawnFacts child).control = state.control := by
  unfold recordSpawnFacts
  split_ifs <;> rfl

@[simp] theorem control_removeWaiter (laneKey : String → String) :
    (state.removeWaiter laneKey model).control =
      { state.control with
        frames := state.control.frames.eraseP (Frame.queuedIn laneKey (laneKey model)) } := rfl

variable (acquired : tryAcquire laneKey model epoch state = some leased)
include acquired

theorem control_of_tryAcquire : leased.control = state.control := by
  unfold tryAcquire at acquired
  split_ifs at acquired
  cases acquired
  rfl

theorem record_of_tryAcquire : leased.record = state.record := by
  unfold tryAcquire at acquired
  split_ifs at acquired
  cases acquired
  rfl

end Equations

/-! ## Small rows of moves -/

section Rows

variable {state : TaskManagerState} {sent : Prop}

/-- A transition that would end the run ends it or is refused. -/
theorem moves_transition (ends : (transitionStatus change state.record.status).isTerminal = true)
    (bears : state.control.status.isTerminal = false → ∀ frame ∈ state.control.frames,
      frame.BearsEnd (transitionStatus change state.record.status)) :
    Moves sent state.control (state.transition change).control := by
  rw [control_transition]
  cases ended : state.control.status.isTerminal with
  | true =>
    rw [status_transition_of_terminal ended]
    exact .refl
  | false =>
    rw [status_transition]
    split_ifs
    · exact .single (.settle ended ends (bears ended))
    · exact .refl

/-- A frame without a claim that fits anywhere. -/
theorem move_push_returned (state : TaskManagerState) :
    Move sent state.control (state.push .returned).control :=
  .push trivial (.inr fun _ claimed => nomatch claimed) fun undelivered => absurd rfl undelivered

theorem drop_removeWaiter (laneKey : String → String) :
    Move sent state.control (state.removeWaiter laneKey model).control := by
  apply Move.drop List.eraseP_sublist
  intro frame member handle holds
  refine .inl ((List.mem_eraseP_of_neg ?_).mpr member)
  cases frame with
  | cancelling _ | settling _ => simp [Frame.queuedIn]
  | _ => cases holds

theorem calm_destroy : Calm ChildHandle.destroy where
  run := fun _ => rfl
  destroyed := fun _ _ => rfl
  aborted := fun _ _ => by simp [ChildHandle.destroy]

theorem calm_abort : Calm ChildHandle.abort where
  run := fun _ => rfl
  destroyed := fun child down => by simp [ChildHandle.abort, down]
  aborted := fun child _ => by
    unfold ChildHandle.abort
    split_ifs <;> simp

/-- The live child is torn down after the call. -/
theorem destroyed_destroy {control : Control} (orderly : control.Orderly)
    (isLive : control.live = some handle) :
    Destroyed { control with children := control.children.modify handle ChildHandle.destroy }
      handle := by
  have inRange := orderly.valid handle isLive
  refine ⟨(control.children[handle]).destroy, ?_, rfl⟩
  simp [inRange]

end Rows

/-! ## The moves of the operations -/

section Operations

variable {state next : TaskManagerState} {sent : Prop} {epoch : Nat}
  (laneKey : String → String)

/-- An outcome that counts ends the run that nobody else claims. -/
theorem moves_persistTerminal (orderly : state.control.Orderly)
    (unclaimed : state.control.epoch ∉ state.control.claims)
    (ends : (transitionStatus change state.record.status).isTerminal = true) :
    Moves sent state.control (persistTerminal change state).control := by
  rw [persistTerminal, control_settleWaiters]
  apply moves_transition ends
  intro going frame member
  exact bearsEnd_of_unbound (orderly.unbound_of_unclaimed (.inl going) unclaimed frame member)

theorem moves_launchRuntimeFallback (orderly : state.control.Orderly)
    (parent : state.control.children ≠ []) (unattached : state.control.live = none)
    (isEpoch : state.control.status = .running → context.epoch = state.control.epoch)
    (unclaimed : state.control.status.isTerminal = false →
      state.control.epoch ∉ state.control.claims) :
    Moves sent state.control (launchRuntimeFallback context state).control := by
  unfold launchRuntimeFallback
  split_ifs with running
  · have same := isEpoch running
    refine .single (.push ⟨parent, unattached, same, running⟩ (.inr ?_) ?_)
    · rintro _ ⟨⟩
      rw [same]
      exact ⟨unclaimed (by rw [show state.control.status = _ from running]; rfl), Nat.le_refl _⟩
    · exact fun undelivered => absurd rfl undelivered
  · simp only [control_settleWaiters]
    split_ifs with ended
    · rw [control_releaseSlot]
    · rw [← control_releaseSlot] at orderly unclaimed ⊢
      apply moves_transition rfl
      intro going frame member
      exact bearsEnd_of_unbound
        (orderly.unbound_of_unclaimed (.inl going) (unclaimed going) frame member)

/-- The teardown of the live child of a cancelled task. -/
theorem moves_destroyResidentTask {caller : DestroyCaller} (orderly : state.control.Orderly)
    (cancelled : state.control.status = .cancelled) (stops : caller.cause ≠ .fallbackHandoff) :
    Moves sent state.control (destroyResidentTask laneKey caller state).control := by
  unfold destroyResidentTask
  split
  · next handle isLive =>
      have down := destroyed_destroy orderly isLive
      have torn : Move sent state.control
          (state.updateChild handle ChildHandle.destroy).control := .touch calm_destroy
      refine .tail (.single torn) (.push ?_ (.inr ?_) fun undelivered => absurd rfl undelivered)
      · cases caller with
        | runtimeFallback handOff => exact absurd rfl stops
        | launch context | cancelTask skipAbort | afterSettlement =>
          exact ⟨down, cancelled, .inl isLive⟩
      · cases caller with
        | runtimeFallback handOff => exact absurd rfl stops
        | launch context | cancelTask skipAbort | afterSettlement => rintro _ ⟨⟩
  · unfold destructionReturned
    rw [if_neg stops]
    cases caller with
    | runtimeFallback handOff => exact absurd rfl stops
    | launch context =>
      simp only [control_settleWaiters, control_releaseSlot, control_dispose]
      exact .refl
    | cancelTask skipAbort =>
      rw [← control_dispose]
      exact .single (move_push_returned _)
    | afterSettlement =>
      simp only [control_dispose]
      exact .refl

theorem moves_launch (orderly : state.control.Orderly) (childless : state.control.children = [])
    (unattached : state.control.live = none) (isEpoch : context.epoch = state.control.epoch)
    (unclaimed : state.control.epoch ∉ state.control.claims) :
    Moves sent state.control (launch context state).control := by
  unfold launch
  split_ifs with applied
  · have waiting : state.record.status = .pending := by simpa using applied
    have unbound := orderly.unbound_of_unclaimed
      (.inl (by rw [show state.control.status = _ from waiting]; rfl)) unclaimed
    have begun : Move sent state.control (state.transition (.start state.clock none none)).control
        := by
      rw [control_transition, status_transition, if_pos applied]
      exact .begin waiting childless unattached unbound
    refine .tail (.single begun) ?_
    rw [control_push, control_transition, status_transition, if_pos applied]
    refine .push ⟨childless, unattached, isEpoch, .inl rfl⟩ (.inr ?_) ?_
    · rintro _ ⟨⟩
      rw [isEpoch]
      exact ⟨unclaimed, Nat.le_refl _⟩
    · exact fun undelivered => absurd rfl undelivered
  · simp only [control_settleWaiters, control_dropPending, control_releaseSlot]
    exact .refl

/-- The child comes, and the run that it serves is tracked. -/
theorem moves_attach (orderly : state.control.Orderly) (unattached : state.control.live = none)
    (isEpoch : context.epoch = state.control.epoch) (running : state.control.status = .running)
    (unclaimed : state.control.epoch ∉ state.control.claims) :
    Moves sent state.control (relaunched context child state).control := by
  have unbound := orderly.unbound_of_unclaimed (.inl (by rw [running]; rfl)) unclaimed
  have attached : Move sent state.control
      (attach child context true state.subscribeChildFacts).control :=
    .attach unattached isEpoch (.inl running) unbound
  refine .tail (.single attached) ?_
  unfold relaunched trackOutcome
  rw [control_push, control_recordSpawnFacts]
  refine .push trivial (.inr ?_) fun undelivered => absurd rfl undelivered
  rintro _ ⟨⟩
  rw [isEpoch]
  exact ⟨unclaimed, Nat.le_refl _⟩

/-- The first message of the steering queue goes out to a child that has just
come. -/
theorem moves_notifyStarted (running : state.control.status = .running) :
    Moves sent state.control state.notifyStarted.control := by
  unfold notifyStarted
  split
  · next handle _ isLive =>
      have prompted : Move sent state.control
          (state.updateChild handle ChildHandle.prompt).control := .prompt running isLive
      refine .tail (.single prompted) (.push trivial (.inr fun _ claimed => nomatch claimed) ?_)
      exact fun _ => ⟨running, _, _, _, rfl, isLive⟩
  · exact .refl

/-- The child of a launch that was cancelled on the way, behind the call of its
teardown. -/
def turnedAway (context : LaunchContext) (child : StartedChild) : ChildHandle :=
  ⟨child.pid, child.sessionId, child.terminable, false, none, .destroyed, context.epoch⟩

theorem control_turnedAway (childless : state.control.children = []) :
    (destroyResidentTask laneKey (.launch context) (attach child context false state)).control =
      { state.control with
        children := state.control.children ++ [turnedAway context child]
        live := some state.control.children.length
        frames := state.control.frames ++
          [.tearingDown state.control.children.length false (.launch context)] } := by
  have none : state.children = [] := childless
  simp [destroyResidentTask, attach, liveHandle, control, push, updateChild, none, turnedAway,
    ChildHandle.destroy, DestroyCaller.cause]

theorem moves_launched (orderly : state.control.Orderly) (childless : state.control.children = [])
    (unattached : state.control.live = none) (isEpoch : context.epoch = state.control.epoch)
    (going : state.control.status = .running ∨ state.control.status = .cancelled)
    (unclaimed : state.control.epoch ∉ state.control.claims) :
    Moves sent state.control (launched laneKey context child state).control := by
  unfold launched
  split_ifs with cancelled
  · have unbound :=
      orderly.unbound_of_unclaimed (.inr ⟨cancelled, childless, unattached⟩) unclaimed
    have serves : (turnedAway context child).run = state.control.epoch := isEpoch
    rw [control_turnedAway laneKey childless]
    refine .tail (.single (.attach unattached serves (.inr ⟨childless, rfl⟩) unbound)) ?_
    refine .push ⟨⟨turnedAway context child, by simp, rfl⟩, cancelled, .inl rfl⟩ (.inr ?_) ?_
    · rintro _ ⟨⟩
    · exact fun undelivered => absurd rfl undelivered
  · have running := going.resolve_right cancelled
    have tracked : Moves sent state.control (relaunched context child state).control :=
      moves_attach orderly unattached isEpoch running unclaimed
    refine .trans tracked ?_
    apply moves_notifyStarted
    unfold relaunched trackOutcome
    rw [control_push, control_recordSpawnFacts]
    exact running

theorem moves_startFailed {failure : Option FailureKind} (orderly : state.control.Orderly)
    (unclaimed : state.control.epoch ∉ state.control.claims) :
    Moves sent state.control (relaunchFailed context failure state).control ∧
      Moves sent state.control (launchFailed context failure state).control := by
  have failed : Moves sent state.control ((releaseSlot context.epoch state).transition
        (.fail state.clock (publicStartFailureMessage failure) false none)).control := by
    rw [← control_releaseSlot] at orderly unclaimed ⊢
    apply moves_transition rfl
    intro going frame member
    exact bearsEnd_of_unbound (orderly.unbound_of_unclaimed (.inl going) unclaimed frame member)
  unfold relaunchFailed launchFailed
  simp only [control_settleWaiters]
  exact ⟨failed, failed⟩

/-! ## Settled outcomes -/

/-- Facts of an outcome that counts. -/
theorem of_owned (owns : state.owned handle epoch = true)
    (claimed : state.control.Gone ∨ epoch ∉ state.control.claims ∧ epoch ≤ state.control.epoch) :
    state.control.live = some handle ∧ state.control.epoch = epoch ∧
      state.control.epoch ∉ state.control.claims := by
  simp only [owned, Bool.and_eq_true, decide_eq_true_eq] at owns
  obtain ⟨⟨⟨isLive, -⟩, -⟩, isEpoch⟩ := owns
  refine ⟨isLive, isEpoch, ?_⟩
  rcases claimed with ⟨unattached, -, -⟩ | ⟨unclaimed, -⟩
  · rw [show state.control.live = some handle from isLive] at unattached
    cases unattached
  · rwa [show state.control.epoch = epoch from isEpoch]

section

variable (orderly : state.control.Orderly)
include orderly

theorem moves_errorSettled
    (claimed : state.control.Gone ∨
      input.epoch ∉ state.control.claims ∧ input.epoch ≤ state.control.epoch) :
    Moves sent state.control (errorSettled input state).control := by
  unfold errorSettled
  split_ifs with owns
  · obtain ⟨-, -, unclaimed⟩ := of_owned owns claimed
    rw [← control_releaseSlot] at orderly unclaimed ⊢
    exact moves_persistTerminal orderly unclaimed rfl
  · exact .refl

/-- A fallback that is taken waits for the teardown of the child it replaces. -/
theorem moves_tryRuntimeFallback (isEpoch : state.control.epoch = input.epoch)
    (unclaimed : state.control.epoch ∉ state.control.claims)
    (taken : tryRuntimeFallback laneKey input state = some next) :
    Moves sent state.control next.control := by
  unfold tryRuntimeFallback at taken
  split_ifs at taken
  split at taken
  · next nextModel models live _ isLive =>
      split_ifs at taken
      cases taken
      have liveHandle : state.liveHandle = some live.handle := by simp [liveHandle, isLive]
      have down := destroyed_destroy orderly liveHandle
      have torn : Move sent state.control
          (state.updateChild live.handle ChildHandle.destroy).control := .touch calm_destroy
      unfold destroyResidentTask
      rw [liveHandle]
      refine .tail (.single torn) (.push ?_ (.inr ?_) fun undelivered => absurd rfl undelivered)
      · exact ⟨down, rfl, isEpoch, .inl liveHandle, .inr isEpoch.symm⟩
      · rintro _ ⟨⟩
        rw [← isEpoch]
        exact ⟨unclaimed, Nat.le_refl _⟩
  · cases taken

theorem moves_outcomeSettled
    (claimed : state.control.Gone ∨ epoch ∉ state.control.claims ∧ epoch ≤ state.control.epoch) :
    Moves sent state.control (outcomeSettled laneKey handle model epoch outcome state).control := by
  unfold outcomeSettled
  split_ifs with owns
  · obtain ⟨-, isEpoch, unclaimed⟩ := of_owned owns claimed
    cases outcome with
    | error kind message killed =>
      let input : ErrorOutcomeInput :=
        ⟨handle, model, epoch, kind, message, killed, state.runStats, state.clock⟩
      change Moves sent state.control
        ((tryRuntimeFallback laneKey input state).getD (state.push (.failing input))).control
      cases taken : tryRuntimeFallback laneKey input state with
      | some next => exact moves_tryRuntimeFallback laneKey orderly isEpoch unclaimed taken
      | none =>
        refine .single (.push trivial (.inr ?_) fun undelivered => absurd rfl undelivered)
        rintro _ ⟨⟩
        rw [show input.epoch = state.control.epoch from isEpoch.symm]
        exact ⟨unclaimed, Nat.le_refl _⟩
    | completed finalResponse =>
      rw [← control_releaseSlot] at orderly unclaimed ⊢
      apply moves_persistTerminal orderly unclaimed
      split_ifs <;> rfl
    | cancelled =>
      rw [← control_releaseSlot] at orderly unclaimed ⊢
      exact moves_persistTerminal orderly unclaimed rfl
  · exact .refl

end

/-! ## Teardowns that return -/

theorem control_handOver (sameStatus : handOff.record.status = state.control.status) :
    (handOver handOff state).control =
      { state.control with live := none, epoch := handOff.record.runEpoch + 1 } := by
  have released : (releaseSlot handOff.input.epoch { state with live := none }).control =
      { state.control with live := none } := control_releaseSlot
  injection released with _ _ live children frames
  unfold handOver control
  congr 1

/-- A teardown that waits is the live child's, or no child is live. -/
theorem torn_of_fits {control : Control}
    (fits : control.Fits (.tearingDown handle disposing caller)) :
    control.Destroyed handle ∧
      ∀ other, control.live = some other → control.Destroyed other := by
  have both : control.Destroyed handle ∧ (control.live = some handle ∨ control.live = none) := by
    cases caller with
    | runtimeFallback handOff => exact ⟨fits.1, fits.2.2.2.1⟩
    | launch context | cancelTask skipAbort | afterSettlement => exact ⟨fits.1, fits.2.2⟩
  refine ⟨both.1, fun other otherLive => ?_⟩
  rcases both.2 with isLive | unattached
  · rw [isLive] at otherLive
    cases otherLive
    exact both.1
  · rw [unattached] at otherLive
    cases otherLive

/-- The old child is let go under the next epoch.  While the run goes on, that epoch
is the fallback's own. -/
theorem move_handOver (sent : Prop) (orderly : state.control.Orderly)
    (fits : state.control.Fits (.tearingDown handle disposing (.runtimeFallback handOff)))
    (claimed : state.control.Gone ∨ handOff.input.epoch ∉ state.control.claims ∧
      handOff.input.epoch ≤ state.control.epoch) :
    Move sent state.control (handOver handOff state).control ∧
      (handOver handOff state).control.children ≠ [] ∧
      ((handOver handOff state).control.status.isTerminal = false →
        (handOver handOff state).control.epoch ∉ (handOver handOff state).control.claims) := by
  obtain ⟨-, torn⟩ := torn_of_fits fits
  obtain ⟨⟨child, found, down⟩, sameStatus, read, -, isEpoch⟩ := fits
  have parent : state.control.children ≠ [] := by
    intro childless
    simp [childless] at found
  rw [control_handOver sameStatus]
  cases ended : state.control.status.isTerminal with
  | true => exact ⟨.handOver torn parent (.inl ended), parent, fun going => by simp_all⟩
  | false =>
    have present := not_gone_of_going ended
    have same := isEpoch.resolve_left present
    have unclaimed := (claimed.resolve_left present).1
    have bounded := (orderly.counted.resolve_left present).2
    rw [same] at unclaimed
    refine ⟨.handOver torn parent (.inr ⟨?_, orderly.unbound_of_unclaimed (.inl ended) unclaimed⟩),
      parent, fun _ member => ?_⟩
    · rw [read, same]
    · have inTime := bounded _ member
      simp only at inTime
      omega

section

variable (orderly : state.control.Orderly)
include orderly

theorem moves_continueFallback
    (fits : state.control.Fits (.tearingDown handle disposing (.runtimeFallback handOff)))
    (claimed : state.control.Gone ∨ handOff.input.epoch ∉ state.control.claims ∧
      handOff.input.epoch ≤ state.control.epoch) :
    Moves sent state.control (continueFallback laneKey handOff state).control := by
  have isNext := control_handOver fits.2.1
  obtain ⟨handed, parent, unclaimed⟩ := move_handOver sent orderly fits claimed
  have orderlyNext := handed.orderly orderly
  refine .trans (.single handed) ?_
  unfold continueFallback
  dsimp only
  split
  · next leased acquired =>
      rw [← control_of_tryAcquire acquired] at orderlyNext unclaimed parent isNext ⊢
      apply moves_launchRuntimeFallback orderlyNext parent _ _ unclaimed
      · rw [isNext]
      · rw [isNext]
        exact fun _ => rfl
  · refine .single (.push ⟨parent, ?_, .inr ?_⟩ ?_ fun undelivered => absurd rfl undelivered)
    · rw [isNext]
    · rw [isNext]
    · cases ended : (handOver handOff state).control.status.isTerminal with
      | true => exact .inl ⟨by rw [isNext], ended, parent⟩
      | false =>
        right
        rintro _ ⟨⟩
        have fresh := unclaimed ended
        exact ⟨fresh, Nat.le_refl _⟩

/-- A teardown that is over lets the child go and goes back to its caller. -/
theorem moves_destructionReturned (fits : state.control.Fits (.tearingDown handle disposing caller))
    (claimed : state.control.Gone ∨ ∀ epoch,
      (Frame.tearingDown handle disposing caller).claim = some epoch →
        epoch ∉ state.control.claims ∧ epoch ≤ state.control.epoch) :
    Moves sent state.control (disposed caller state).control ∧ Moves sent state.control
        (destructionReturned laneKey caller (disposed caller state)).control := by
  by_cases fallback : caller.cause = .fallbackHandoff
  · cases caller with
    | runtimeFallback handOff =>
      refine ⟨.refl, ?_⟩
      exact moves_continueFallback laneKey orderly fits (claimed.imp id fun fresh => fresh _ rfl)
    | launch context | afterSettlement => cases fallback
    | cancelTask skipAbort => cases skipAbort <;> cases fallback
  · have forgotten : Move sent state.control state.forget.control :=
      .forget (torn_of_fits fits).2
    have recorded :
        (state.forget.transition (.dispose state.forget.clock)).control = state.forget.control :=
      control_dispose
    unfold destructionReturned disposed
    rw [if_neg fallback, if_neg fallback]
    refine ⟨.single forgotten, ?_⟩
    cases caller with
    | runtimeFallback handOff => exact absurd rfl fallback
    | launch context =>
      simp only [control_settleWaiters, control_releaseSlot, recorded]
      exact .single forgotten
    | cancelTask skipAbort =>
      refine .tail (.single forgotten) ?_
      rw [← recorded]
      exact move_push_returned _
    | afterSettlement =>
      simp only [recorded]
      exact .single forgotten

/-- The cancel that holds a child tears it down when its wait is over. -/
theorem moves_released (found : state.frames[index]? = some frame)
    (holds : frame.holds = some handle) (stops : caller.cause ≠ .fallbackHandoff) :
    Moves sent state.control (destroyResidentTask laneKey caller
      { state with frames := state.frames.eraseIdx index }).control := by
  have fits := orderly.fits frame (List.mem_of_getElem? found)
  obtain ⟨cancelled, reached⟩ : state.control.status = .cancelled ∧
      (state.control.live = some handle ∨ state.control.Destroyed handle) := by
    cases frame with
    | cancelling other | settling other =>
      cases holds
      exact fits
    | _ => cases holds
  cases isLive : state.liveHandle with
  | none =>
    have down := reached.resolve_left (by rw [show state.control.live = none from isLive]; simp)
    have dropped : Move sent state.control (state.control.take index) :=
      drop_take found fun other isOther => by
        rw [holds] at isOther
        cases isOther
        exact down
    have taken : (control { state with frames := state.frames.eraseIdx index }).Orderly :=
      orderly.take index
    exact .head dropped (moves_destroyResidentTask laneKey taken cancelled stops)
  | some live =>
    have down := destroyed_destroy orderly isLive
    have torn : Move sent state.control
        (state.updateChild live ChildHandle.destroy).control := .touch calm_destroy
    have dropped : Move sent (state.updateChild live ChildHandle.destroy).control
        ((state.updateChild live ChildHandle.destroy).control.take index) :=
      drop_take found fun other isOther => by
        rw [holds] at isOther
        cases isOther
        rcases reached with same | destroyed
        · rw [show state.control.live = some live from isLive] at same
          cases same
          exact down
        · exact destroyed_modify calm_destroy.destroyed destroyed
    have liveTaken : liveHandle { state with frames := state.frames.eraseIdx index } =
        some live := isLive
    unfold destroyResidentTask
    rw [liveTaken]
    refine .head torn (.head dropped (.single (.push ?_ (.inr ?_) ?_)))
    · cases caller with
      | runtimeFallback handOff => exact absurd rfl stops
      | launch context | cancelTask skipAbort | afterSettlement =>
        exact ⟨down, cancelled, .inl isLive⟩
    · cases caller with
      | runtimeFallback handOff => exact absurd rfl stops
      | launch context | cancelTask skipAbort | afterSettlement => rintro _ ⟨⟩
    · exact fun undelivered => absurd rfl undelivered

end

/-! ## Steering -/

theorem moves_interrupted (fits : state.control.Fits (.interrupting handle snapshot)) :
    Moves sent state.control (interrupted handle snapshot state).control := by
  refine .tail ?_ (move_push_returned _)
  split
  · next text _ =>
      split_ifs
      · exact .refl
      · obtain ⟨wasInterrupted, isInterrupted, isEpoch⟩ := fits
        have same : control { state with record := { snapshot with finalResponse := some text } } =
            { state.control with epoch := snapshot.runEpoch } := by
          unfold control
          congr 1
          exact wasInterrupted.trans isInterrupted.symm
        rw [same]
        rcases isEpoch with gone | isEpoch
        · exact .single (.rewind gone)
        · rw [isEpoch]
  · exact .refl

theorem bearsEnd_cancelled {frame : Frame} (handsOff : frame.handsOff = false)
    (relaunching : frame.isRelaunching = false) : frame.BearsEnd .cancelled := by
  cases frame with
  | queued relaunch context => cases relaunch <;> trivial
  | starting context => rfl
  | relaunching context => cases relaunching
  | tearingDown handle disposing caller => cases caller <;> trivial
  | _ => trivial

/-- A cancel that waits for the abort of the live child, or for its outcome, holds
it. -/
theorem moves_hold (cancelled : state.control.status = .cancelled)
    (isLive : state.control.live = some handle) :
    Moves sent state.control (push .returned (push (.settling handle) state)).control ∧
      Moves sent state.control
        (push (.cancelling handle) (updateChild handle ChildHandle.abort state)).control := by
  have settling : Move sent state.control (push (.settling handle) state).control := by
    refine .push ⟨cancelled, .inl isLive⟩ (.inr ?_) fun undelivered => absurd rfl undelivered
    rintro _ ⟨⟩
  have aborted : Move sent state.control
      (updateChild handle ChildHandle.abort state).control := .touch calm_abort
  refine ⟨.tail (.single settling) (move_push_returned _), .tail (.single aborted) ?_⟩
  refine .push ⟨cancelled, .inl isLive⟩ (.inr ?_) fun undelivered => absurd rfl undelivered
  rintro _ ⟨⟩

section

variable (orderly : state.control.Orderly)
include orderly

theorem moves_cancelTask
    (clear : state.record.status.isTerminal = false → ∀ frame ∈ state.frames,
      frame.handsOff = false ∧ frame.isRelaunching = false) :
    Moves sent state.control (cancelTask laneKey reason skipAbort state).control := by
  have settled : ∀ runStats, Moves sent state.control
      (state.transition (.cancel state.clock reason runStats)).control := fun runStats =>
    moves_transition rfl fun going frame member =>
      bearsEnd_cancelled (clear going frame member).1 (clear going frame member).2
  have isCancelled : ∀ runStats, state.record.status.isTerminal = false →
      (state.transition (.cancel state.clock reason runStats)).control.status = .cancelled := by
    intro runStats going
    rw [control_transition, status_transition, applied_cancel, going]
    rfl
  unfold cancelTask
  split
  · next pending =>
      have begun := settled none
      have status := isCancelled none (by rw [pending]; rfl)
      have dequeued : Moves sent state.control (clearPersistedQueue none (dequeuePending laneKey
            (state.transition (.cancel state.clock reason none)))).control := by
        simp only [control_clearPersistedQueue, dequeuePending, control_settleWaiters]
        exact .tail begun (drop_removeWaiter laneKey)
      refine .trans dequeued (moves_destroyResidentTask laneKey (dequeued.orderly orderly) ?_ ?_)
      · simp only [control_clearPersistedQueue, dequeuePending, control_settleWaiters]
        exact status
      · cases skipAbort <;> simp [DestroyCaller.cause]
  · next running =>
      have begun := settled state.runStats
      have status := isCancelled state.runStats (by rw [running]; rfl)
      have stops : (DestroyCaller.cancelTask skipAbort).cause ≠ .fallbackHandoff := by
        cases skipAbort <;> simp [DestroyCaller.cause]
      have torn : Moves sent _ (destroyResidentTask laneKey (.cancelTask skipAbort)
          (state.transition (.cancel state.clock reason state.runStats))).control :=
        moves_destroyResidentTask laneKey (begun.orderly orderly) status stops
      split
      · next handle isLive =>
          split_ifs
          · exact .trans begun torn
          · exact .trans begun (moves_hold status isLive).1
          · exact .trans begun (moves_hold status isLive).2
      · exact .trans begun torn
  · exact .refl

theorem moves_interruptTask
    (clear : state.record.status = .running → ∀ frame ∈ state.frames,
      frame.handsOff = false ∧ frame.isRelaunching = false ∧ frame.isStarting = false) :
    Moves sent state.control (interruptTask state).control := by
  unfold interruptTask
  split_ifs with running
  · have bears : ∀ frame ∈ state.control.frames, frame.BearsEnd .interrupted := by
      intro frame member
      have fits := orderly.fits frame member
      obtain ⟨handsOff, relaunching, starting⟩ := clear running frame member
      cases frame with
      | queued relaunch context =>
        cases relaunch with
        | false => simp_all [Fits, control]
        | true => trivial
      | starting context => cases starting
      | relaunching context => cases relaunching
      | tearingDown handle disposing caller => cases caller <;> trivial
      | _ => trivial
    have settled : Moves sent state.control
        (state.transition (.interrupt state.clock none none)).control :=
      moves_transition rfl fun _ => bears
    have isInterrupted :
        (state.transition (.interrupt state.clock none none)).control.status = .interrupted := by
      rw [control_transition, status_transition]
      simp [running, transitionStatus]
    split
    · next handle isLive =>
        have aborted : Move sent (state.transition (.interrupt state.clock none none)).control
            (updateChild handle ChildHandle.abort
              (state.transition (.interrupt state.clock none none))).control :=
          .touch calm_abort
        refine .trans settled (.tail (.single aborted) (.push ?_ (.inr ?_) ?_))
        · exact ⟨isInterrupted, isInterrupted, .inr rfl⟩
        · rintro _ ⟨⟩
        · exact fun undelivered => absurd rfl undelivered
    · exact .tail settled (move_push_returned _)
  · exact .refl

/-- A send that revives a run finds no frame bound to the one that ended. -/
theorem unbound_of_revive (isLive : state.control.live = some handle)
    (ended : state.control.status = .completed ∨ state.control.status = .error ∨
      state.control.status = .interrupted)
    (clear : ∀ frame ∈ state.frames, frame.handsOff = false ∧ frame.isInterrupting = false) :
    ∀ frame ∈ state.control.frames, frame.isBound = false := by
  intro frame member
  have fits := orderly.fits frame member
  obtain ⟨handsOff, interrupting⟩ := clear frame member
  have notCancelled : state.control.status ≠ .cancelled := by
    rcases ended with status | status | status <;> rw [status] <;> simp
  cases frame with
  | queued relaunch context => cases relaunch <;> simp_all [Fits]
  | starting context | relaunching context => simp_all [Fits]
  | tearingDown handle disposing caller =>
    cases caller with
    | runtimeFallback handOff => cases handsOff
    | launch context | cancelTask skipAbort | afterSettlement => exact absurd fits.2.1 notCancelled
  | interrupting handle record => cases interrupting
  | cancelling handle | settling handle => exact absurd fits.1 notCancelled
  | _ => rfl

end

theorem control_revived {live : LiveTask}
    (acquired : tryAcquire laneKey live.model (state.record.runEpoch + 1) state = some next) :
    (updateChild live.handle (ChildHandle.serve (state.record.runEpoch + 1) ∘ ChildHandle.prompt)
        { next with record := buildRevived next.record next.clock }).control =
      { state.control with
        status := .running
        epoch := state.control.epoch + 1
        children := state.control.children.modify live.handle
          (ChildHandle.serve (state.control.epoch + 1) ∘ ChildHandle.prompt) } := by
  rw [← control_of_tryAcquire acquired]
  simp only [control, updateChild, buildRevived, liveHandle, record_of_tryAcquire acquired]

theorem moves_reviveTerminal {live : LiveTask} (orderly : state.control.Orderly) (isSent : sent)
    (isLive : state.control.live = some live.handle)
    (ended : state.control.status.isTerminal = true)
    (unbound : ∀ frame ∈ state.control.frames, frame.isBound = false) :
    Moves sent state.control (reviveTerminal laneKey live state).control := by
  unfold reviveTerminal
  dsimp only
  split
  · exact .refl
  · next leased acquired =>
      have bounded := (orderly.counted.resolve_left fun gone => by
        rw [gone.1] at isLive
        cases isLive).2
      rw [control_push, control_revived laneKey acquired]
      refine .tail (.single (.revive isSent isLive ended unbound)) (.push trivial (.inr ?_) ?_)
      · rintro _ ⟨⟩
        exact ⟨fun member => absurd (bounded _ member) (Nat.not_succ_le_self _), Nat.le_refl _⟩
      · exact fun undelivered => absurd rfl undelivered

theorem moves_sendToTask (orderly : state.control.Orderly) (isSent : sent)
    (clear : state.record.status.isTerminal = true → ∀ frame ∈ state.frames,
      frame.handsOff = false ∧ frame.isInterrupting = false) :
    Moves sent state.control (sendToTask laneKey message deliverAs state).control := by
  unfold sendToTask
  dsimp only
  split_ifs with pending
  · rw [control_enqueuePending]
  · split
    · exact .refl
    · exact .refl
    · next live isLive continuable =>
        have liveHandle : state.control.live = some live.handle := by
          simp [control, liveHandle, isLive]
        split_ifs with exited steers
        · exact .refl
        · have running := (status_of_steer steers).resolve_left pending
          exact .single (.prompt running liveHandle)
        · have revives := Messageability.eq_revive continuable steers
          have ended := status_of_revive revives
          have terminal : state.record.status.isTerminal = true := by
            rcases ended with status | status | status <;> rw [status] <;> rfl
          exact moves_reviveTerminal laneKey orderly isSent liveHandle terminal
            (unbound_of_revive orderly liveHandle ended (clear terminal))

end Operations

/-! ## Steps -/

section Steps

variable {state next : TaskManagerState} (laneKey : String → String)

/-- What a stop or a reviving send may not meet: a fallback that changes hands, and
for an interrupt also a first child on its way or with messages coming, for a send
also an interrupt that is not through. -/
def KeepsStops (state : TaskManagerState) : TaskAction → Prop
  | .cancelTask _ _ => state.record.status.isTerminal = false →
      ∀ frame ∈ state.frames, frame.handsOff = false ∧ frame.isRelaunching = false
  | .interruptTask => state.record.status = .running →
      ∀ frame ∈ state.frames, frame.handsOff = false ∧ frame.isRelaunching = false ∧
        frame.isStarting = false ∧ frame.undelivered = []
  | .sendToTask _ _ => state.record.status.isTerminal = true →
      ∀ frame ∈ state.frames, frame.handsOff = false ∧ frame.isInterrupting = false
  | _ => True

/-- The manager with one frame on its way. -/
def takeFrame (index : Nat) (state : TaskManagerState) : TaskManagerState :=
  { state with frames := state.frames.eraseIdx index }

/-- What is known when a frame is on its way. -/
structure Resumes (frame : Frame) (state : TaskManagerState) : Prop where
  orderly : state.control.Orderly
  fits : state.control.Fits frame
  claimed : state.control.Gone ∨ ∀ epoch, frame.claim = some epoch →
    epoch ∉ state.control.claims ∧ epoch ≤ state.control.epoch

theorem resumes_takeFrame (orderly : state.control.Orderly)
    (found : state.frames[index]? = some frame) : Resumes frame (takeFrame index state) where
  orderly := orderly.take index
  fits := (orderly.fits frame (List.mem_of_getElem? found)).of_same rfl rfl rfl Iff.rfl
    fun _ down => down
  claimed := by
    rcases orderly.counted with gone | _
    · exact .inl gone
    · by_cases gone : state.control.Gone
      · exact .inl gone
      · exact .inr fun epoch claimed =>
          (orderly.unclaimed_take found claimed).resolve_left gone

namespace Resumes

variable {sent : Prop} {context : LaunchContext}

/-- The claim of a launch that waits for the runner, or of a waiter, is the running
epoch. -/
theorem unclaimed {frame : Frame} (resumes : Resumes frame state)
    (claims : frame.claim = some state.control.epoch) (present : ¬ state.control.Gone) :
    state.control.epoch ∉ state.control.claims :=
  (resumes.claimed.resolve_left present _ claims).1

/-- A granted waiter launches, and finds a run that was stopped meanwhile. -/
theorem granted (resumes : Resumes (.queued true context) state) :
    Moves sent state.control
      (launchRuntimeFallback context { state with leases := context.epoch :: state.leases }).control
      := by
  obtain ⟨parent, unattached, isEpoch⟩ := resumes.fits
  have same (going : state.control.status.isTerminal = false) :
      context.epoch = state.control.epoch :=
    isEpoch.resolve_left (not_gone_of_going going)
  exact (moves_launchRuntimeFallback resumes.orderly parent unattached
    (fun running => same (by rw [show state.control.status = .running from running]; rfl))
    (fun going => resumes.unclaimed (by rw [← same going]; rfl) (not_gone_of_going going)) :
    Moves sent (control { state with leases := context.epoch :: state.leases }) _)

/-- A step of a teardown returns. -/
theorem tornDown (resumes : Resumes (.tearingDown handle false caller) state) :
    Moves sent state.control (state.push (.tearingDown handle true caller)).control := by
  refine .single (.push ?_ ?_ fun undelivered => absurd rfl undelivered)
  · have fits := resumes.fits
    cases caller <;> exact fits
  · have claimed := resumes.claimed
    cases caller <;> exact claimed

end Resumes

/-- A resumed frame makes moves. -/
theorem moves_resumeFrame (orderly : state.control.Orderly)
    (found : state.frames[index]? = some frame)
    (resumed : resumeFrame laneKey (takeFrame index state) frame reply = some next) :
    Moves sent state.control next.control := by
  have resumes := resumes_takeFrame orderly found
  have others {next : TaskManagerState} (unheld : frame.holds = none)
      (moves : Moves sent (takeFrame index state).control next.control) :
      Moves sent state.control next.control := by
    have dropped : Move sent state.control (takeFrame index state).control :=
      drop_take found fun handle holds => by
        rw [unheld] at holds
        cases holds
    exact .head dropped moves
  revert found resumed resumes others
  fun_cases resumeFrame laneKey (takeFrame index state) frame reply <;>
    rintro found ⟨⟩ resumes others
  case case1 context =>
    obtain ⟨childless, unattached, isEpoch, -⟩ := resumes.fits
    have unclaimed := resumes.unclaimed (by rw [← isEpoch]; rfl) fun gone => gone.2.2 childless
    exact others rfl (moves_launch resumes.orderly childless unattached isEpoch unclaimed :
      Moves sent (control { takeFrame index state with
        leases := context.epoch :: (takeFrame index state).leases }) _)
  case case2 context => exact others rfl resumes.granted
  case case3 context child =>
    obtain ⟨childless, unattached, isEpoch, going⟩ := resumes.fits
    have unclaimed := resumes.unclaimed (by rw [← isEpoch]; rfl) fun gone => gone.2.2 childless
    exact others rfl
      (moves_launched laneKey resumes.orderly childless unattached isEpoch going unclaimed)
  case case4 context failure =>
    obtain ⟨childless, -, isEpoch, -⟩ := resumes.fits
    have unclaimed := resumes.unclaimed (by rw [← isEpoch]; rfl) fun gone => gone.2.2 childless
    exact others rfl (moves_startFailed resumes.orderly unclaimed).2
  case case5 context child =>
    obtain ⟨parent, unattached, isEpoch, running⟩ := resumes.fits
    have unclaimed := resumes.unclaimed (by rw [← isEpoch]; rfl)
      (not_gone_of_going (by rw [running]; rfl))
    exact others rfl (moves_attach resumes.orderly unattached isEpoch running unclaimed)
  case case6 context failure =>
    obtain ⟨parent, -, isEpoch, running⟩ := resumes.fits
    have unclaimed := resumes.unclaimed (by rw [← isEpoch]; rfl)
      (not_gone_of_going (by rw [running]; rfl))
    exact others rfl (moves_startFailed resumes.orderly unclaimed).1
  case case7 handle model epoch outcome =>
    exact others rfl (moves_outcomeSettled laneKey resumes.orderly
      (resumes.claimed.imp id fun fresh => fresh _ rfl))
  case case8 input =>
    exact others rfl
      (moves_errorSettled resumes.orderly (resumes.claimed.imp id fun fresh => fresh _ rfl))
  case case9 | case10 => exact others rfl resumes.tornDown
  case case11 =>
    exact others rfl
      (moves_destructionReturned laneKey resumes.orderly resumes.fits resumes.claimed).2
  case case12 =>
    exact others rfl
      (moves_destructionReturned laneKey resumes.orderly resumes.fits resumes.claimed).1
  case case13 => exact others rfl (moves_interrupted resumes.fits)
  case case14 | case20 => exact others rfl .refl
  case case15 | case16 | case17 | case18 =>
    exact moves_released laneKey orderly found rfl (by simp [DestroyCaller.cause])
  case case19 =>
    exact others rfl
      (.single (.push trivial resumes.claimed fun undelivered => absurd rfl undelivered))
  case case21 handle ids rest | case22 handle ids rest =>
    cases rest with
    | nil => exact others rfl .refl
    | cons entry rest => exact .single (.deliver found)
  case case23 =>
    refine others rfl ?_
    rw [stopReturned, control_releaseSlotForTask]
    exact .single (drop_removeWaiter laneKey)

/-- A step that the condition allows is a row of moves, and only a send revives. -/
theorem moves_of_step (orderly : state.control.Orderly) (keeps : state.KeepsStops action)
    (stepped : step laneKey state action = some next) :
    Moves (∃ message deliverAs, action = .sendToTask message deliverAs)
      state.control next.control := by
  cases action with
  | cancelTask reason skipAbort =>
    cases stepped
    exact moves_cancelTask laneKey orderly keeps
  | interruptTask =>
    cases stepped
    refine moves_interruptTask orderly fun running frame member => ?_
    obtain ⟨handsOff, relaunching, starting, -⟩ := keeps running frame member
    exact ⟨handsOff, relaunching, starting⟩
  | sendToTask message deliverAs =>
    cases stepped
    exact moves_sendToTask laneKey orderly ⟨message, deliverAs, rfl⟩ keeps
  | waitFor =>
    cases stepped
    rw [control_waitFor]
  | resume index reply =>
    obtain ⟨frame, found, resumed⟩ := Option.bind_eq_some_iff.mp stepped
    exact moves_resumeFrame laneKey orderly found resumed
  | observe clock room runStats =>
    cases stepped
    exact .refl
  | childSpoke handle text =>
    cases stepped
    exact .single (.touch ⟨fun _ => rfl, fun _ down => down, fun _ still => still⟩)
  | childExited handle =>
    cases stepped
    exact .single (.touch ⟨fun _ => rfl, fun _ down => down, fun _ still => still⟩)

end Steps

end TaskManagerState

end OpenAgent.Tasks
