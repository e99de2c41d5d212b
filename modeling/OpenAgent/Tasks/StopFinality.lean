import OpenAgent.Tasks.ManagerMoves

/-!
# Stops are final

A cancel or an interrupt writes the terminal status first and sees to the child
afterwards, and a fallback that hands the task over writes back the record it read
before.  So a stop is final as long as it does not meet such a fallback, and an
interrupt as long as the child it has to abort has come and has all its messages.
-/

namespace OpenAgent.Tasks

open Library

namespace Control

/-- The child of a run that was stopped: torn down, or aborted with no message on its
way, or held by a cancel that will tear it down. -/
def Halted (control : Control) (handle : Nat) (child : ChildHandle) : Prop :=
  child.life = .destroyed ∨
  (child.life = .aborted ∧ ∀ ids rest, .delivering handle ids rest ∈ control.frames → rest = []) ∨
  ∃ frame ∈ control.frames, frame.holds = some handle

/-- The account of a run that was stopped under an epoch: the task is past it, its
children are halted, a child that may still come is turned away, and no fallback of it
waits for the runner. -/
structure Stopped (epoch : Nat) (control : Control) : Prop where
  past : control.Gone ∨ epoch < control.epoch ∨
    epoch = control.epoch ∧ control.status.isTerminal = true
  halted : ∀ handle child, control.children[handle]? = some child → child.run = epoch →
    control.Halted handle child
  starts : ∀ context, .starting context ∈ control.frames → context.epoch = epoch →
    control.status = .cancelled
  relaunches : ∀ context, .relaunching context ∈ control.frames → context.epoch ≠ epoch

section Moved

variable {control next : Control} {epoch : Nat} {sent : Prop}

theorem Stopped.past_of_going (stopped : control.Stopped epoch)
    (going : control.status.isTerminal = false) : epoch < control.epoch := by
  rcases stopped.past with gone | earlier | ⟨-, ended⟩
  · exact absurd gone (not_gone_of_going going)
  · exact earlier
  · simp [going] at ended

theorem Stopped.le (stopped : control.Stopped epoch) (isLive : control.live = some handle) :
    epoch ≤ control.epoch := by
  rcases stopped.past with ⟨unattached, -, -⟩ | earlier | ⟨same, -⟩
  · rw [isLive] at unattached
    cases unattached
  · exact Nat.le_of_lt earlier
  · exact Nat.le_of_eq same

theorem going_of_running (running : control.status = .running) :
    control.status.isTerminal = false := by
  rw [running]
  rfl

section

variable (stopped : control.Stopped epoch)
include stopped

/-- Frames that come and go without letting a child loose. -/
theorem Stopped.of_frames {frames : List Frame}
    (halted : ∀ handle child, control.children[handle]? = some child → child.run = epoch →
      control.Halted handle child → Halted { control with frames := frames } handle child)
    (starts : ∀ context, .starting context ∈ frames → .starting context ∈ control.frames ∨
      (context.epoch = epoch → control.status = .cancelled))
    (relaunches : ∀ context, .relaunching context ∈ frames →
      .relaunching context ∈ control.frames ∨ context.epoch ≠ epoch) :
    Stopped epoch { control with frames := frames } where
  past := stopped.past
  halted := fun handle child found serves =>
    halted handle child found serves (stopped.halted handle child found serves)
  starts := fun context member same =>
    (starts context member).elim (fun earlier => stopped.starts context earlier same)
      fun turned => turned same
  relaunches := fun context member =>
    (relaunches context member).elim (stopped.relaunches context) id

theorem Stopped.drop {frames : List Frame} (fewer : frames.Sublist control.frames)
    (held : ∀ frame ∈ control.frames, ∀ handle, frame.holds = some handle →
      frame ∈ frames ∨ control.Destroyed handle) :
    Stopped epoch { control with frames := frames } := by
  apply stopped.of_frames
  · rintro handle child found - (down | ⟨aborted, drained⟩ | ⟨frame, member, holds⟩)
    · exact .inl down
    · exact .inr (.inl ⟨aborted, fun ids rest member => drained ids rest (fewer.subset member)⟩)
    · rcases held frame member handle holds with stays | ⟨other, same, down⟩
      · exact .inr (.inr ⟨frame, stays, holds⟩)
      · rw [found] at same
        cases same
        exact .inl down
  · exact fun context member => .inl (fewer.subset member)
  · exact fun context member => .inl (fewer.subset member)

theorem Stopped.push (orderly : control.Orderly) (fits : control.Fits frame)
    (served : frame.undelivered ≠ [] → control.status = .running ∧ ∃ handle ids rest,
        frame = .delivering handle ids rest ∧ control.live = some handle) :
    Stopped epoch { control with frames := control.frames ++ [frame] } := by
  apply stopped.of_frames
  · rintro handle child found serves (down | ⟨aborted, drained⟩ | ⟨other, member, holds⟩)
    · exact .inl down
    · refine .inr (.inl ⟨aborted, fun ids rest member => ?_⟩)
      rcases List.mem_append.mp member with earlier | last
      · exact drained ids rest earlier
      · -- messages go out only to the child of a run that is not stopped
        rw [← List.mem_singleton.mp last] at served
        by_contra undelivered
        obtain ⟨running, _, _, _, same, isLive⟩ := served undelivered
        cases same
        have earlier := stopped.past_of_going (going_of_running running)
        have := orderly.serving running handle child isLive found
        omega
    · exact .inr (.inr ⟨other, List.mem_append_left _ member, holds⟩)
  · intro context member
    rcases List.mem_append.mp member with earlier | last
    · exact .inl earlier
    · rw [← List.mem_singleton.mp last] at fits
      refine .inr fun same => ?_
      obtain ⟨-, -, isEpoch, running | cancelled⟩ := fits
      · have earlier := stopped.past_of_going (going_of_running running)
        omega
      · exact cancelled
  · intro context member
    rcases List.mem_append.mp member with earlier | last
    · exact .inl earlier
    · rw [← List.mem_singleton.mp last] at fits
      obtain ⟨-, -, isEpoch, running⟩ := fits
      have earlier := stopped.past_of_going (going_of_running running)
      exact .inr (by omega)

theorem Stopped.settle {status : TaskStatus} (going : control.status.isTerminal = false) :
    Stopped epoch { control with status := status } where
  __ := stopped
  past := .inr (.inl (stopped.past_of_going going))
  starts := fun context member same => by
    have cancelled := stopped.starts context member same
    simp [cancelled, TaskStatus.isTerminal] at going

theorem Stopped.attach (serves : child.run = control.epoch)
    (wanted : control.status = .running ∨ control.children = [] ∧ child.life = .destroyed) :
    Stopped epoch
      { control with
        children := control.children ++ [child]
        live := some control.children.length } where
  __ := stopped
  past := by
    rcases stopped.past with ⟨-, ended, parent⟩ | later
    · rcases wanted with running | ⟨childless, -⟩
      · simp [running, TaskStatus.isTerminal] at ended
      · exact absurd childless parent
    · exact .inr later
  halted := by
    intro handle other found same
    rw [List.getElem?_append] at found
    split_ifs at found with earlier
    · exact stopped.halted handle other found same
    · rw [List.getElem?_singleton] at found
      split_ifs at found
      cases found
      rcases wanted with running | ⟨-, down⟩
      · have := stopped.past_of_going (going_of_running running)
        omega
      · exact .inl down

theorem Stopped.touch (handle : Nat) (calm : Calm change) :
    Stopped epoch { control with children := control.children.modify handle change } where
  __ := stopped
  past := stopped.past.imp
    (fun ⟨unattached, ended, parent⟩ =>
      ⟨unattached, ended, fun none => parent (modify_eq_nil_iff.mp none)⟩) id
  halted := by
    intro other child found same
    obtain ⟨before, old, rfl⟩ := exists_of_modify found
    have run : before.run = epoch := by
      split_ifs at same
      · rwa [calm.run] at same
      · exact same
    split_ifs with isHandle
    · rcases stopped.halted other before old run with down | ⟨aborted, drained⟩ | held
      · exact .inl (calm.destroyed before down)
      · have still := calm.aborted before (by simp [aborted])
        cases life : (change before).life with
        | running => exact absurd life still
        | aborted => exact .inr (.inl ⟨life, drained⟩)
        | destroyed => exact .inl life
      · exact .inr (.inr held)
    · exact stopped.halted other before old run

/-- A prompt to the child of a run that is not stopped. -/
theorem Stopped.prompt (orderly : control.Orderly) (running : control.status = .running)
    (isLive : control.live = some handle) :
    Stopped epoch
      { control with children := control.children.modify handle ChildHandle.prompt } where
  __ := stopped
  past := .inr (.inl (stopped.past_of_going (going_of_running running)))
  halted := by
    intro other child found same
    obtain ⟨before, old, rfl⟩ := exists_of_modify found
    split_ifs at same ⊢ with isHandle
    · subst isHandle
      have serves := orderly.serving running handle before isLive old
      have := stopped.past_of_going (going_of_running running)
      have run : before.run = epoch := same
      omega
    · exact stopped.halted other before old same

/-- A drain that still has messages has none of a halted child's, unless the child is
torn down or held. -/
theorem Stopped.deliver {entry : PendingSteeringEntry}
    (waits : control.frames[index]? = some (.delivering handle ids (entry :: rest))) :
    Stopped epoch
      { control with
        children := control.children.modify handle ChildHandle.prompt
        frames := control.frames.eraseIdx index ++ [.delivering handle ids rest] } := by
  have fewer := List.eraseIdx_sublist control.frames index
  have old_or_last {frame : Frame}
      (member : frame ∈ control.frames.eraseIdx index ++ [.delivering handle ids rest]) :
      frame ∈ control.frames ∨ frame = .delivering handle ids rest :=
    (List.mem_append.mp member).imp (fun earlier => fewer.subset earlier) List.mem_singleton.mp
  refine ⟨?_, ?_, ?_, ?_⟩
  · exact stopped.past.imp (fun ⟨unattached, ended, parent⟩ =>
        ⟨unattached, ended, fun none => parent (modify_eq_nil_iff.mp none)⟩) id
  · intro other child found same
    obtain ⟨before, old, rfl⟩ := exists_of_modify found
    have run : before.run = epoch := by
      split_ifs at same <;> exact same
    rcases stopped.halted other before old run with
      down | ⟨aborted, drained⟩ | ⟨frame, member, holds⟩
    · refine .inl ?_
      split_ifs
      · exact reshapes_prompt.destroyed before down
      · exact down
    · split_ifs with isHandle
      · subst isHandle
        exact absurd (drained ids (entry :: rest) (List.mem_of_getElem? waits)) (by simp)
      · refine .inr (.inl ⟨aborted, fun others left member => ?_⟩)
        rcases old_or_last member with earlier | last
        · exact drained others left earlier
        · cases last
          exact absurd rfl isHandle
    · refine .inr (.inr ⟨frame, List.mem_append_left _ ?_, holds⟩)
      obtain ⟨inRange, isFrame⟩ := List.getElem?_eq_some_iff.mp waits
      rcases List.mem_cons.mp
        ((List.getElem_cons_eraseIdx_perm inRange).mem_iff.mpr member) with rfl | stays
      · rw [isFrame] at holds
        cases holds
      · exact stays
  · intro context member
    rcases old_or_last member with earlier | last
    · exact stopped.starts context earlier
    · cases last
  · intro context member
    rcases old_or_last member with earlier | last
    · exact stopped.relaunches context earlier
    · cases last

theorem Stopped.handOver (parent : control.children ≠ [])
    (next : control.status.isTerminal = true ∨
      later = control.epoch + 1 ∧ ∀ frame ∈ control.frames, frame.isBound = false) :
    Stopped epoch { control with live := none, epoch := later } where
  __ := stopped
  past := by
    cases ended : control.status.isTerminal with
    | true => exact .inl ⟨rfl, ended, parent⟩
    | false =>
      have earlier := stopped.past_of_going ended
      rcases next with isEnded | ⟨rfl, -⟩
      · simp [ended] at isEnded
      · exact .inr (.inl (Nat.lt_succ_of_lt earlier))

theorem Stopped.revive (isLive : control.live = some handle)
    (unbound : ∀ frame ∈ control.frames, frame.isBound = false) :
    Stopped epoch
      { control with
        status := .running
        epoch := control.epoch + 1
        children := control.children.modify handle
          (ChildHandle.serve (control.epoch + 1) ∘ ChildHandle.prompt) } where
  past := .inr (.inl (Nat.lt_succ_of_le (stopped.le isLive)))
  halted := by
    intro other child found same
    obtain ⟨before, old, rfl⟩ := exists_of_modify found
    split_ifs at same ⊢ with isHandle
    · have run : control.epoch + 1 = epoch := same
      have := stopped.le isLive
      omega
    · exact stopped.halted other before old same
  starts := fun context member => nomatch unbound _ member
  relaunches := fun context member => nomatch unbound _ member

end

/-- Each move keeps the account of a stopped run. -/
theorem Move.stopped (move : Move sent control next) (orderly : control.Orderly)
    (stopped : control.Stopped epoch) : next.Stopped epoch := by
  cases move with
  | drop fewer held => exact stopped.drop fewer held
  | push fits _ served => exact stopped.push orderly fits served
  | settle going _ _ => exact stopped.settle going
  | begin waiting _ _ _ => exact stopped.settle (by rw [waiting]; rfl)
  | attach _ serves wanted _ => exact stopped.attach serves wanted
  | forget _ =>
    exact ⟨stopped.past.imp (fun ⟨_, ended, parent⟩ => ⟨rfl, ended, parent⟩) id,
      stopped.halted, stopped.starts, stopped.relaunches⟩
  | touch calm => exact stopped.touch _ calm
  | prompt running isLive => exact stopped.prompt orderly running isLive
  | deliver waits => exact stopped.deliver waits
  | handOver _ parent next => exact stopped.handOver parent next
  | rewind gone => exact ⟨.inl gone, stopped.halted, stopped.starts, stopped.relaunches⟩
  | revive _ isLive _ unbound => exact stopped.revive isLive unbound

theorem Moves.stopped (moves : Moves sent control next) (orderly : control.Orderly)
    (stopped : control.Stopped epoch) : next.Stopped epoch := by
  induction moves with
  | refl => exact stopped
  | tail before move kept => exact move.stopped (Moves.orderly before orderly) kept

/-- A run that has just been stopped: only its live child was left to be halted. -/
theorem Orderly.stopped (orderly : control.Orderly)
    (isStopped : control.status = .cancelled ∨ control.status = .interrupted)
    (halts : ∀ handle child, control.live = some handle →
      control.children[handle]? = some child → control.Halted handle child) :
    control.Stopped control.epoch where
  past := .inr (.inr ⟨rfl, by rcases isStopped with status | status <;> rw [status] <;> rfl⟩)
  halted := by
    intro handle child found _
    by_cases down : child.life = .destroyed
    · exact .inl down
    · exact halts handle child (orderly.attached handle child found down) found
  starts := by
    intro context member _
    obtain ⟨-, -, -, running | cancelled⟩ := orderly.fits _ member
    · rcases isStopped with status | status <;> simp [running] at status
    · exact cancelled
  relaunches := by
    intro context member
    obtain ⟨-, -, -, running⟩ := orderly.fits _ member
    rcases isStopped with status | status <;> simp [running] at status

end Moved

end Control

namespace TaskManagerState

open Control

section Stops

variable {state next : TaskManagerState} (laneKey : String → String)

/-- The action applies its stop: the record is on its way, or running. -/
def StopsRun (state : TaskManagerState) : TaskAction → Prop
  | .cancelTask _ _ => state.record.status.isTerminal = false
  | .interruptTask => state.record.status = .running
  | _ => False

/-- What a stop leaves behind: the terminal status under the same epoch, and a live
child that is halted. -/
structure Halts (status : TaskStatus) (state next : TaskManagerState) : Prop where
  status : next.control.status = status
  epoch : next.control.epoch = state.control.epoch
  live : ∀ handle child, next.control.live = some handle →
    next.control.children[handle]? = some child → next.control.Halted handle child

theorem halts_destroyResidentTask (orderly : state.control.Orderly)
    (stops : caller.cause ≠ .fallbackHandoff) :
    Halts state.control.status state (destroyResidentTask laneKey caller state) := by
  unfold destroyResidentTask
  split
  · next handle isLive =>
      refine ⟨rfl, rfl, fun other child otherLive found => ?_⟩
      have same : other = handle := Option.some.inj (otherLive.symm.trans isLive)
      obtain ⟨torn, place, down⟩ := destroyed_destroy orderly isLive
      subst same
      have isTorn : some torn = some child := place.symm.trans found
      cases isTorn
      exact .inl down
  · next unattached =>
      have kept : (destructionReturned laneKey caller state).control.status = state.control.status ∧
          (destructionReturned laneKey caller state).control.epoch = state.control.epoch ∧
          (destructionReturned laneKey caller state).control.live = state.control.live := by
        unfold destructionReturned
        rw [if_neg stops]
        cases caller with
        | runtimeFallback handOff => exact absurd rfl stops
        | launch context =>
          simp only [control_settleWaiters, control_releaseSlot, control_dispose, and_self]
        | cancelTask skipAbort => simp only [control_push, control_dispose, and_self]
        | afterSettlement => simp only [control_dispose, and_self]
      refine ⟨kept.1, kept.2.1, fun handle child isLive => ?_⟩
      rw [kept.2.2, show state.control.live = none from unattached] at isLive
      cases isLive

/-- The live child of a cancel that waits for its abort or its outcome. -/
theorem halted_of_held {control : Control} (isLive : control.live = some handle)
    (holds : frame.holds = some handle) (member : frame ∈ control.frames)
    (otherLive : control.live = some other) : control.Halted other child := by
  rw [isLive] at otherLive
  cases otherLive
  exact .inr (.inr ⟨frame, member, holds⟩)

theorem halts_cancelTask (orderly : state.control.Orderly)
    (going : state.record.status.isTerminal = false)
    (clear : ∀ frame ∈ state.frames, frame.handsOff = false ∧ frame.isRelaunching = false) :
    Halts .cancelled state (cancelTask laneKey reason skipAbort state) := by
  have settled (runStats : Option TaskRunStats) : Moves False state.control
      (state.transition (.cancel state.clock reason runStats)).control :=
    moves_transition rfl fun _ frame member =>
      bearsEnd_cancelled (clear frame member).1 (clear frame member).2
  have isCancelled (runStats : Option TaskRunStats) :
      (state.transition (.cancel state.clock reason runStats)).control.status = .cancelled := by
    rw [control_transition, status_transition, applied_cancel, going]
    rfl
  have stops : (DestroyCaller.cancelTask skipAbort).cause ≠ .fallbackHandoff := by
    cases skipAbort <;> simp [DestroyCaller.cause]
  unfold cancelTask
  split
  · have dequeued : Moves False state.control (clearPersistedQueue none (dequeuePending laneKey
          (state.transition (.cancel state.clock reason none)))).control := by
      simp only [control_clearPersistedQueue, dequeuePending, control_settleWaiters]
      exact .tail (settled none) (drop_removeWaiter laneKey)
    have torn := halts_destroyResidentTask laneKey (dequeued.orderly orderly) stops
    refine ⟨torn.status.trans ?_, torn.epoch.trans ?_, torn.live⟩
    · simp only [control_clearPersistedQueue, dequeuePending, control_settleWaiters]
      exact isCancelled none
    · simp [dequeuePending]
  · have torn := halts_destroyResidentTask laneKey ((settled state.runStats).orderly orderly) stops
    have destroyed : Halts .cancelled state (destroyResidentTask laneKey (.cancelTask skipAbort)
          (state.transition (.cancel state.clock reason state.runStats))) :=
      ⟨torn.status.trans (isCancelled _), torn.epoch.trans (by simp), torn.live⟩
    split
    · next handle isLive =>
        have live : (state.transition (.cancel state.clock reason state.runStats)).control.live =
            some handle := isLive
        split_ifs
        · exact destroyed
        · refine ⟨isCancelled _, by simp, fun other child otherLive _ => ?_⟩
          have holds : (Frame.settling handle).holds = some handle := rfl
          exact halted_of_held live holds (by simp) otherLive
        · refine ⟨isCancelled _, by simp, fun other child otherLive _ => ?_⟩
          have holds : (Frame.cancelling handle).holds = some handle := rfl
          exact halted_of_held live holds (by simp) otherLive
    · exact destroyed
  · next other pending running =>
      cases status : state.record.status <;> simp_all [TaskStatus.isTerminal]

theorem halts_interruptTask (running : state.record.status = .running)
    (drained : ∀ frame ∈ state.frames, frame.undelivered = []) :
    Halts .interrupted state (interruptTask state) := by
  have isInterrupted :
      (state.transition (.interrupt state.clock none none)).control.status = .interrupted := by
    rw [control_transition, status_transition]
    simp [running, transitionStatus]
  unfold interruptTask
  rw [if_pos running]
  split
  · next handle isLive =>
      refine ⟨isInterrupted, by simp, fun other child otherLive found => ?_⟩
      have same : other = handle := Option.some.inj (otherLive.symm.trans isLive)
      subst same
      obtain ⟨before, old, rfl⟩ := exists_of_modify found
      rw [if_pos rfl]
      by_cases down : before.life = .destroyed
      · exact .inl (calm_abort.destroyed before down)
      · refine .inr (.inl ⟨by simp [ChildHandle.abort, down], fun ids rest member => ?_⟩)
        rcases List.mem_append.mp member with earlier | last
        · exact drained _ earlier
        · cases List.mem_singleton.mp last
  · next unattached =>
      refine ⟨isInterrupted, by simp, fun other child otherLive _ => ?_⟩
      have absent : none = some other := unattached.symm.trans otherLive
      cases absent

/-- Behind a stop that the condition allows, its run is stopped. -/
theorem stopped_of_stop (orderly : state.control.Orderly) (keeps : state.KeepsStops action)
    (stops : state.StopsRun action) (stepped : step laneKey state action = some next) :
    next.control.Stopped state.record.runEpoch ∧ next.record.status.isTerminal = true := by
  have orderlyNext := (moves_of_step laneKey orderly keeps stepped).orderly orderly
  obtain ⟨status, isStopped, halts⟩ : ∃ status,
      (status = .cancelled ∨ status = .interrupted) ∧ Halts status state next := by
    cases action with
    | cancelTask reason skipAbort =>
      cases stepped
      exact ⟨.cancelled, .inl rfl, halts_cancelTask laneKey orderly stops (keeps stops)⟩
    | interruptTask =>
      cases stepped
      exact ⟨.interrupted, .inr rfl, halts_interruptTask stops
        fun frame member => (keeps stops frame member).2.2.2⟩
    | _ => exact stops.elim
  have isStopped' := halts.status ▸ isStopped
  refine ⟨?_, ?_⟩
  · have stopped := orderlyNext.stopped isStopped' halts.live
    rwa [halts.epoch] at stopped
  · rcases isStopped' with isStatus | isStatus <;>
      rw [show next.record.status = _ from isStatus] <;> rfl

end Stops

section Runs

variable {state final : TaskManagerState} {epoch : Nat} (laneKey : String → String)

theorem orderly_queued {control : Control} (childless : control.children = [])
    (unattached : control.live = none) (only : control.frames = [frame]) (fits : control.Fits frame)
    (claims : frame.claim = some control.epoch) : control.Orderly where
  fits := by
    rw [only]
    rintro other member
    rwa [List.mem_singleton.mp member]
  valid := fun handle isLive => by
    rw [unattached] at isLive
    cases isLive
  attached := by simp [childless]
  serving := fun _ handle child isLive => by
    rw [unattached] at isLive
    cases isLive
  counted := by simp [Control.claims, only, claims]

variable (input : TaskRecordInput)

/-- The start of a task: the first launch waits for the runner or for a slot. -/
theorem orderly_startResolved (hostPid : Nat) (room : List String) (now : Nat) :
    (startResolved laneKey input hostPid room now).control.Orderly := by
  unfold startResolved
  dsimp only
  split
  · next candidate _ =>
      have pending : (effectiveRecord (createTaskRecord input hostPid now) candidate).status =
          .pending := by
        unfold effectiveRecord
        split_ifs <;> rfl
      have applied : (transitionTaskRecord
          (effectiveRecord (createTaskRecord input hostPid now) candidate)
          (.start now none none)).applied = true := by
        rw [applied_start, pending]
        rfl
      unfold launch
      rw [if_pos applied]
      refine orderly_queued rfl rfl rfl ?_ ?_
      · refine ⟨rfl, rfl, ?_, .inl ?_⟩
        · exact (runEpoch_transition).symm
        · exact (status_transition).trans (if_pos applied)
      · exact congrArg some (runEpoch_transition).symm
  · exact orderly_queued rfl rfl rfl ⟨rfl, rfl, rfl, .inl rfl⟩ rfl

def isSend : TaskAction → Bool
  | .sendToTask _ _ => true
  | _ => false

/-- Every stop of a run is final: from there on the record stays terminal while nothing
is sent to the task, and the children of the stopped run are aborted or torn down, or a
cancel that waits for them will tear them down. -/
def StopsAreFinal (start : TaskManagerState) (actions : List TaskAction) : Prop :=
  ∀ before stop after rest stopped next final, actions = before ++ stop :: (after ++ rest) →
    execute (step laneKey) start before = some stopped →
    stopped.StopsRun stop →
    step laneKey stopped stop = some next →
    execute (step laneKey) next after = some final →
      ((∀ action ∈ after, isSend action = false) → final.record.status.isTerminal = true) ∧
      ∀ handle child, final.children[handle]? = some child → child.run = stopped.record.runEpoch →
          child.life ≠ .running ∨ ∃ frame ∈ final.frames, frame.holds = some handle

/-- The manager is in order. -/
structure InOrder (state : TaskManagerState) : Prop where
  orderly : state.control.Orderly

/-- The manager is in order, and a run of the task was stopped. -/
structure StoppedRun (epoch : Nat) (state : TaskManagerState) : Prop extends InOrder state where
  stopped : state.control.Stopped epoch

theorem inOrder_of_execute (inOrder : InOrder state)
    (everyStep : EveryStep (step laneKey) (fun state action _ => state.KeepsStops action)
      state actions)
    (reached : execute (step laneKey) state actions = some final) : InOrder final := by
  have preserved : ∀ state action next, InOrder state → state.KeepsStops action →
      step laneKey state action = some next → InOrder next :=
    fun _ _ _ inOrder keeps stepped =>
      ⟨(moves_of_step laneKey inOrder.orderly keeps stepped).orderly inOrder.orderly⟩
  exact invariant_of_execute preserved inOrder reached everyStep

theorem stoppedRun_of_execute (stoppedRun : StoppedRun epoch state)
    (everyStep : EveryStep (step laneKey) (fun state action _ => state.KeepsStops action)
      state actions)
    (reached : execute (step laneKey) state actions = some final) : StoppedRun epoch final := by
  have preserved : ∀ state action next, StoppedRun epoch state → state.KeepsStops action →
      step laneKey state action = some next → StoppedRun epoch next := by
    intro state action next stoppedRun keeps stepped
    have moves := moves_of_step laneKey stoppedRun.orderly keeps stepped
    exact ⟨⟨moves.orderly stoppedRun.orderly⟩,
      Control.Moves.stopped moves stoppedRun.orderly stoppedRun.stopped⟩
  exact invariant_of_execute preserved stoppedRun reached everyStep

/-- While nothing is sent, a terminal record stays terminal. -/
theorem terminal_of_execute (inOrder : InOrder state)
    (everyStep : EveryStep (step laneKey) (fun state action _ => state.KeepsStops action)
      state actions)
    (unsent : ∀ action ∈ actions, isSend action = false)
    (ended : state.record.status.isTerminal = true)
    (reached : execute (step laneKey) state actions = some final) :
    final.record.status.isTerminal = true := by
  induction actions generalizing state with
  | nil =>
    cases reached
    exact ended
  | cons action actions ih =>
    obtain ⟨next, stepped, later⟩ := execute_cons_eq_some.mp reached
    obtain ⟨keeps, everyLater⟩ := everyStep next stepped
    have moves := moves_of_step laneKey inOrder.orderly keeps stepped
    have quiet : ¬ ∃ message deliverAs, action = .sendToTask message deliverAs := by
      rintro ⟨message, deliverAs, rfl⟩
      cases unsent _ List.mem_cons_self
    have same : next.record.status = state.record.status :=
      Control.Moves.status_of_terminal moves quiet ended
    exact ih ⟨moves.orderly inOrder.orderly⟩ everyLater
      (fun other member => unsent other (List.mem_cons_of_mem action member))
      (by rw [same, ended]) later

instance (state : TaskManagerState) : DecidablePred state.KeepsStops := fun action =>
  match action with
  | .cancelTask _ _ => inferInstanceAs (Decidable (_ → ∀ _ ∈ _, _))
  | .interruptTask => inferInstanceAs (Decidable (_ → ∀ _ ∈ _, _))
  | .sendToTask _ _ => inferInstanceAs (Decidable (_ → ∀ _ ∈ _, _))
  | .waitFor | .resume _ _ | .observe _ _ _ | .childSpoke _ _ | .childExited _ => isTrue trivial

/-- Stops are final in every run in which no stop comes while a fallback changes hands
and no interrupt comes while the first child is on its way or has messages coming. -/
theorem stopsAreFinal_of_keepsStops (hostPid : Nat) (room : List String) (now : Nat)
    (actions : List TaskAction)
    (keeps : EveryStep (step laneKey) (fun state action _ => state.KeepsStops action)
      (startResolved laneKey input hostPid room now) actions) :
    StopsAreFinal laneKey (startResolved laneKey input hostPid room now) actions := by
  rintro before stop after rest stopped next final rfl reached stops stepped ended
  have inOrder := inOrder_of_execute laneKey
    ⟨orderly_startResolved laneKey input hostPid room now⟩ keeps.of_append reached
  obtain ⟨keepsStop, later⟩ := keeps.append reached next stepped
  obtain ⟨isStopped, terminal⟩ :=
    stopped_of_stop laneKey inOrder.orderly keepsStop stops stepped
  have moves := moves_of_step laneKey inOrder.orderly keepsStop stepped
  have behind : StoppedRun stopped.record.runEpoch next :=
    ⟨⟨moves.orderly inOrder.orderly⟩, isStopped⟩
  refine ⟨fun unsent => terminal_of_execute laneKey behind.toInOrder later.of_append unsent
    terminal ended, fun handle child found serves => ?_⟩
  have finished := stoppedRun_of_execute laneKey behind later.of_append ended
  rcases finished.stopped.halted handle child found serves with down | ⟨aborted, -⟩ | held
  · exact .inl (by rw [down]; simp)
  · exact .inl (by rw [aborted]; simp)
  · exact .inr held

end Runs

/-- A task with one model to fall back to. -/
def fallbackInput : TaskRecordInput where
  taskId := "st_00000001"
  executionMode := .inProcess
  model := "provider/first"
  resolvedModel := none
  fallbackModels := ["provider/second"]
  pendingSteering := []

def inProcessChild : StartedChild := ⟨none, some "session", false⟩

def freeRoom : List String := ["provider/first", "provider/second"]

/-- A cancel of a running child: its abort, its teardown and the cancel's return. -/
theorem stopsAreFinal_cancelled :
    StopsAreFinal id (startResolved id fallbackInput 1 freeRoom 0)
      [.resume 0 (.started inProcessChild), .cancelTask none false, .resume 1 .fulfilled,
        .resume 1 .fulfilled, .resume 1 .fulfilled, .resume 1 .fulfilled] :=
  stopsAreFinal_of_keepsStops id fallbackInput 1 freeRoom 0 _ (by decide +kernel)

/-- The first child fails before it used a tool. -/
def failingStart : List TaskAction :=
  [.resume 0 (.started inProcessChild),
    .resume 0 (.settled (.error .childTurnFailed "overloaded" false))]

/-- A cancel that comes while the fallback tears the first child down is overwritten: the
record runs again, and the second child comes. -/
theorem not_stopsAreFinal_duringFallback :
    ¬ StopsAreFinal id (startResolved id fallbackInput 1 freeRoom 0)
      (failingStart ++ .cancelTask none false ::
        ([.resume 0 .fulfilled, .resume 1 .fulfilled] ++ [])) := by
  intro areFinal
  obtain ⟨stopped, reached, next, cancelled, final, ended, running, going⟩ :
      ∃ stopped, execute (step id) (startResolved id fallbackInput 1 freeRoom 0) failingStart =
          some stopped ∧
        ∃ next, step id stopped (.cancelTask none false) = some next ∧
          ∃ final, execute (step id) next [.resume 0 .fulfilled, .resume 1 .fulfilled] =
              some final ∧
            stopped.record.status = .running ∧ final.record.status.isTerminal = false := by
    decide +kernel
  have stops : stopped.StopsRun (.cancelTask none false) := by
    simp [StopsRun, running, TaskStatus.isTerminal]
  have terminal := (areFinal failingStart (.cancelTask none false) _ [] stopped next final rfl
    reached stops cancelled ended).1 (by decide)
  rw [going] at terminal
  cases terminal

end TaskManagerState

end OpenAgent.Tasks
