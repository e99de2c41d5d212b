import OpenAgent.Tasks.ManagerMoves

/-!
# Slots and waiters are given back

A run of a task holds a slot and may have waiters, and some waiting frame sees to
it: the launch, the tracked outcome, the fallback.  The account below says that one
such frame is there as long as the run has not ended, holds its slot or has waiters.
Every frame that sees to a run gives its part back or leaves another such frame,
unless its child was let go meanwhile.
-/

namespace OpenAgent.Tasks

open Library

namespace Frame

/-- The epoch of the run that a frame sees to. -/
def seesTo : Frame → Option Nat
  | .tearingDown _ _ (.launch context) => some context.epoch
  | frame => frame.claim

/-- The child whose answer a frame waits for. -/
def awaits : Frame → Option Nat
  | .tracking handle _ _ | .reviving handle _ _ => some handle
  | .failing input => some input.handle
  | _ => none

/-- A launch on its way: the task has no live child until it is done. -/
def isLaunch : Frame → Bool
  | .queued _ _ | .starting _ | .relaunching _ => true
  | _ => false

end Frame

/-- The child of a record is in this process or was disposed of. -/
def TaskRecord.Kept (record : TaskRecord) : Prop :=
  record.residencyState ≠ .persistedOnly ∧ record.residencyState ≠ .rpcDetached

namespace TaskManagerState

section

variable (state : TaskManagerState)

/-- A frame that sees to the current run, under its live child where it waits for
one. -/
def tends (frame : Frame) : Bool :=
  frame.seesTo = some state.record.runEpoch &&
    frame.awaits.all fun handle => state.liveHandle = some handle

/-- The run has ended, its slot is back and nobody waits. -/
@[mk_iff] structure SettledUp : Prop where
  ended : state.record.status.isTerminal = true
  leases : state.leases = []
  waiters : state.waiters = 0

/-- What holds while a frame waits. -/
def Placed : Frame → Prop
  | .queued relaunch context =>
    context.epoch = state.record.runEpoch ∧ state.liveHandle = none ∧ state.leases = [] ∧
      (∀ released ∈ state.released, released < state.record.runEpoch) ∧
      (state.record.status = .pending → relaunch = false) ∧
      (relaunch = false → state.record.status = .pending ∨ state.record.status.isTerminal = true)
  | .starting context | .relaunching context =>
    context.epoch = state.record.runEpoch ∧ state.liveHandle = none ∧
      state.record.status ≠ .pending
  | .tearingDown _ _ (.launch context) =>
    context.epoch = state.record.runEpoch ∧ state.record.status = .cancelled
  | .tearingDown _ _ (.runtimeFallback handOff) =>
    handOff.record.runEpoch = handOff.input.epoch ∧ handOff.record.status ≠ .pending ∧
      state.record.status ≠ .pending ∧ handOff.record.Kept
  | .interrupting _ record =>
    record.status = .interrupted ∧ record.Kept ∧ record.runEpoch ≤ state.record.runEpoch ∧
      (record.runEpoch = state.record.runEpoch → state.record.status = .interrupted)
  | _ => True

/-- The account of the manager apart from who sees to the current run: no two frames
do, and a lease is that of the current run and can still be given back. -/
structure Ordered : Prop where
  earlier : ∀ frame ∈ state.frames, ∀ epoch, frame.seesTo = some epoch →
    epoch ≤ state.record.runEpoch
  single : state.frames.countP (fun frame => frame.seesTo = some state.record.runEpoch) ≤ 1
  placed : ∀ frame ∈ state.frames, state.Placed frame
  leased : state.leases = [] ∨ state.leases = [state.record.runEpoch] ∧
    ∀ released ∈ state.released, released < state.record.runEpoch
  released : ∀ released ∈ state.released, released ≤ state.record.runEpoch
  unstarted : state.record.status = .pending → state.liveHandle = none
  kept : state.record.Kept

/-- A frame sees to the current run until all is settled. -/
def Tended : Prop :=
  state.SettledUp ∨ ∃ frame ∈ state.frames, state.tends frame = true

/-- The whole account. -/
structure SlotAccount : Prop extends Ordered state where
  tended : state.Tended

end

/-! ## Quiet changes -/

/-- A change that touches neither the frames nor the slot, and ends the run if it does
anything to its status. -/
structure Quiet (before after : TaskManagerState) : Prop where
  epoch : after.record.runEpoch = before.record.runEpoch
  live : after.liveHandle = before.liveHandle
  frames : after.frames = before.frames
  leases : after.leases = before.leases
  released : after.released = before.released
  waiters : before.waiters = 0 → after.waiters = 0
  status : after.record.status = before.record.status ∨
    before.record.status.isTerminal = false ∧ after.record.status.isTerminal = true
  kept : before.record.Kept → after.record.Kept

section QuietChanges

variable {state : TaskManagerState}

theorem Quiet.refl : Quiet state state :=
  ⟨rfl, rfl, rfl, rfl, rfl, id, .inl rfl, id⟩

theorem Quiet.isTerminal (quiet : Quiet before after)
    (ended : before.record.status.isTerminal = true) : after.record.status.isTerminal = true := by
  rcases quiet.status with same | ⟨-, isEnded⟩
  · rwa [same]
  · exact isEnded

theorem Quiet.trans (first : Quiet before middle) (second : Quiet middle after) :
    Quiet before after where
  epoch := second.epoch.trans first.epoch
  live := second.live.trans first.live
  frames := second.frames.trans first.frames
  leases := second.leases.trans first.leases
  released := second.released.trans first.released
  waiters := fun none => second.waiters (first.waiters none)
  status := by
    rcases first.status with same | ⟨going, ended⟩
    · rcases second.status with still | ⟨going, ended⟩
      · exact .inl (still.trans same)
      · exact .inr ⟨by rwa [same] at going, ended⟩
    · exact .inr ⟨going, second.isTerminal ended⟩
  kept := fun kept => second.kept (first.kept kept)

section

variable (quiet : Quiet before after)
include quiet

theorem Quiet.unstarted (pending : after.record.status = .pending) :
    before.record.status = .pending := by
  rcases quiet.status with same | ⟨-, ended⟩
  · rwa [same] at pending
  · rw [pending] at ended
    cases ended

theorem Quiet.placed (placed : before.Placed frame) : after.Placed frame := by
  have stays : before.record.status.isTerminal = true →
      after.record.status = before.record.status := by
    intro ended
    rcases quiet.status with same | ⟨going, -⟩
    · exact same
    · rw [ended] at going
      cases going
  unfold Placed at placed ⊢
  split at placed
  · obtain ⟨epoch, live, leases, released, first, waits⟩ := placed
    refine ⟨by rwa [quiet.epoch], by rwa [quiet.live], by rwa [quiet.leases],
      by rwa [quiet.released, quiet.epoch], fun pending => first (quiet.unstarted pending),
      fun isFirst => ?_⟩
    rcases waits isFirst with pending | ended
    · exact quiet.status.imp (fun same => by rwa [same]) And.right
    · exact .inr (quiet.isTerminal ended)
  · exact ⟨by rw [quiet.epoch]; exact placed.1, by rw [quiet.live]; exact placed.2.1,
      fun pending => placed.2.2 (quiet.unstarted pending)⟩
  · exact ⟨by rw [quiet.epoch]; exact placed.1, by rw [quiet.live]; exact placed.2.1,
      fun pending => placed.2.2 (quiet.unstarted pending)⟩
  · obtain ⟨current, cancelled⟩ := placed
    exact ⟨current.trans quiet.epoch.symm, (stays (by rw [cancelled]; rfl)).trans cancelled⟩
  · exact ⟨placed.1, placed.2.1, fun pending => placed.2.2.1 (quiet.unstarted pending),
      placed.2.2.2⟩
  · obtain ⟨status, kept, earlier, same⟩ := placed
    refine ⟨status, kept, by rwa [quiet.epoch], fun current => ?_⟩
    have interrupted := same (current.trans quiet.epoch)
    exact (stays (by rw [interrupted]; rfl)).trans interrupted
  · trivial

theorem Quiet.ordered (ordered : Ordered before) : Ordered after where
  earlier := by
    rw [quiet.frames, quiet.epoch]
    exact ordered.earlier
  single := by
    rw [quiet.frames, quiet.epoch]
    exact ordered.single
  placed := by
    rw [quiet.frames]
    exact fun frame member => quiet.placed (ordered.placed frame member)
  leased := by
    rw [quiet.leases, quiet.released, quiet.epoch]
    exact ordered.leased
  released := by
    rw [quiet.released, quiet.epoch]
    exact ordered.released
  unstarted := fun pending => by
    rw [quiet.live]
    exact ordered.unstarted (quiet.unstarted pending)
  kept := quiet.kept ordered.kept

theorem Quiet.settledUp (settled : before.SettledUp) : after.SettledUp :=
  ⟨quiet.isTerminal settled.ended, quiet.leases.trans settled.leases, quiet.waiters settled.waiters⟩

theorem Quiet.tends (frame : Frame) : after.tends frame = before.tends frame := by
  simp only [TaskManagerState.tends, quiet.epoch, quiet.live]

theorem Quiet.tended (tended : before.Tended) : after.Tended := by
  refine tended.imp quiet.settledUp fun ⟨frame, member, tends⟩ => ⟨frame, ?_, ?_⟩
  · rwa [quiet.frames]
  · rwa [quiet.tends]

theorem Quiet.slotAccount (account : SlotAccount before) : SlotAccount after :=
  ⟨quiet.ordered account.toOrdered, quiet.tended account.tended⟩

end

theorem quiet_transition
    (ends : ∀ status, transitionStatus change status = status ∨
      (transitionStatus change status).isTerminal = true)
    (stays : ∀ residency, transitionResidency change residency = residency ∨
      transitionResidency change residency = .disposed) :
    Quiet state (state.transition change) where
  epoch := runEpoch_transition
  live := rfl
  frames := rfl
  leases := rfl
  released := rfl
  waiters := id
  status := by
    rcases ends state.record.status with same | ended
    · refine .inl ?_
      change (transitionTaskRecord state.record change).record.status = _
      rw [status_transition, same, ite_self]
    · exact status_transition_ends ended
  kept := by
    intro kept
    have residency : (transitionTaskRecord state.record change).record.residencyState = _ :=
      residencyState_transition
    change ((transitionTaskRecord state.record change).record).Kept
    unfold TaskRecord.Kept at kept ⊢
    rw [residency]
    split_ifs
    · rcases stays state.record.residencyState with same | disposed
      · rwa [same]
      · rw [disposed]
        decide
    · exact kept

theorem quiet_settleWaiters : Quiet state state.settleWaiters := by
  unfold settleWaiters
  split_ifs
  · exact ⟨rfl, rfl, rfl, rfl, rfl, fun _ => rfl, .inl rfl, id⟩
  · exact .refl

theorem quiet_setPendingSteering : Quiet state (state.setPendingSteering queue) :=
  ⟨rfl, rfl, rfl, rfl, rfl, id, .inl rfl, id⟩

theorem quiet_updateChild (handle : Nat) (change : ChildHandle → ChildHandle) :
    Quiet state (state.updateChild handle change) :=
  ⟨rfl, rfl, rfl, rfl, rfl, id, .inl rfl, id⟩

theorem quiet_subscribeChildFacts : Quiet state state.subscribeChildFacts :=
  ⟨rfl, rfl, rfl, rfl, rfl, id, .inl rfl, id⟩

theorem quiet_recordSpawnFacts (child : StartedChild) :
    Quiet state (state.recordSpawnFacts child) := by
  unfold recordSpawnFacts
  split_ifs
  · exact .refl
  · exact ⟨rfl, rfl, rfl, rfl, rfl, id, .inl rfl, id⟩

/-- Behind a settled outcome whose slot is back all is settled. -/
theorem settledUp_settleWaiters (ended : state.record.status.isTerminal = true)
    (returned : state.leases = []) : state.settleWaiters.SettledUp := by
  unfold settleWaiters
  rw [if_pos ended]
  exact ⟨ended, returned, rfl⟩

end QuietChanges

/-! ## Frames and slots -/

section FramesAndSlots

variable {state next : TaskManagerState}

/-- Nobody sees to the current run any more. -/
def Free (state : TaskManagerState) : Prop :=
  ∀ frame ∈ state.frames, frame.seesTo ≠ some state.record.runEpoch

theorem tends_seesTo (tends : state.tends frame = true) :
    frame.seesTo = some state.record.runEpoch := by
  simp only [TaskManagerState.tends, Bool.and_eq_true, decide_eq_true_eq] at tends
  exact tends.1

/-- A launch that waits sees to the current run. -/
theorem Placed.seesTo (placed : state.Placed frame) (isLaunch : frame.isLaunch = true) :
    frame.seesTo = some state.record.runEpoch ∧ state.liveHandle = none := by
  cases frame with
  | queued relaunch context | starting context | relaunching context =>
    exact ⟨congrArg some placed.1, placed.2.1⟩
  | _ => cases isLaunch

/-- The place of a frame that is no launch is a matter of the record. -/
theorem Placed.sameRecord (placed : state.Placed frame) (noLaunch : frame.isLaunch = false)
    (record : next.record = state.record) : next.Placed frame := by
  cases frame with
  | queued _ _ | starting _ | relaunching _ => cases noLaunch
  | tearingDown handle disposing caller =>
    cases caller <;> simp only [Placed, record] at placed ⊢ <;> exact placed
  | interrupting handle captured =>
    simp only [Placed, record] at placed ⊢
    exact placed
  | _ => trivial

theorem Ordered.drop {frames : List Frame} (ordered : Ordered state)
    (fewer : frames.Sublist state.frames) : Ordered { state with frames := frames } where
  __ := ordered
  earlier := fun frame member => ordered.earlier frame (fewer.subset member)
  single := Nat.le_trans fewer.countP_le ordered.single
  placed := fun frame member => ordered.placed frame (fewer.subset member)

theorem Ordered.push (ordered : Ordered state) (placed : state.Placed frame)
    (fresh : ∀ epoch, frame.seesTo = some epoch → epoch ≤ state.record.runEpoch ∧
      (epoch = state.record.runEpoch → state.Free)) :
    Ordered (state.push frame) where
  __ := ordered
  earlier := by
    intro other member epoch sees
    rcases List.mem_append.mp member with earlier | last
    · exact ordered.earlier other earlier epoch sees
    · rw [List.mem_singleton.mp last] at sees
      exact (fresh epoch sees).1
  single := by
    simp only [TaskManagerState.push, List.countP_append, List.countP_singleton]
    split_ifs with sees
    · have free := (fresh _ (of_decide_eq_true sees)).2 rfl
      refine Nat.succ_le_succ (Nat.le_of_eq (List.countP_eq_zero.mpr ?_))
      exact fun other member sees => free other member (of_decide_eq_true sees)
    · exact ordered.single
  placed := by
    intro other member
    rcases List.mem_append.mp member with earlier | last
    · exact ordered.placed other earlier
    · rwa [List.mem_singleton.mp last]

/-- A frame that sees to no run. -/
theorem Ordered.push_idle (ordered : Ordered state) (placed : state.Placed frame)
    (idle : frame.seesTo = none) : Ordered (state.push frame) :=
  ordered.push placed fun epoch sees => by
    rw [idle] at sees
    cases sees

theorem tended_push (tended : state.Tended) : (state.push frame).Tended :=
  tended.imp (fun settled => ⟨settled.ended, settled.leases, settled.waiters⟩)
    fun ⟨other, member, tends⟩ => ⟨other, List.mem_append_left _ member, tends⟩

theorem SlotAccount.push_idle (account : SlotAccount state) (placed : state.Placed frame)
    (idle : frame.seesTo = none) : SlotAccount (state.push frame) :=
  ⟨account.toOrdered.push_idle placed idle, tended_push account.tended⟩

/-- The frame that takes the run over. -/
theorem Ordered.push_tending (ordered : Ordered state) (free : state.Free)
    (placed : state.Placed frame) (tends : state.tends frame = true) :
    SlotAccount (state.push frame) := by
  refine ⟨ordered.push placed fun epoch sees => ?_, .inr ⟨frame, by simp [TaskManagerState.push],
    tends⟩⟩
  rw [tends_seesTo tends] at sees
  cases sees
  exact ⟨Nat.le_refl _, fun _ => free⟩

/-- A slot that is given back, as far as the account goes. -/
structure Returns (before after : TaskManagerState) : Prop where
  record : after.record = before.record
  live : after.liveHandle = before.liveHandle
  frames : after.frames = before.frames
  waiters : after.waiters = before.waiters
  leases : after.leases = []
  released : ∀ released ∈ after.released, released ≤ before.record.runEpoch

theorem returns_releaseSlot (ordered : Ordered state) (current : epoch = state.record.runEpoch) :
    Returns state (state.releaseSlot epoch) := by
  subst current
  unfold releaseSlot releaseLease
  split_ifs with already
  · refine ⟨rfl, rfl, rfl, rfl, ?_, ordered.released⟩
    rcases ordered.leased with none | ⟨-, earlier⟩
    · exact none
    · cases isReleased : state.released with
      | none => simp [isReleased] at already
      | some released =>
        have : state.record.runEpoch ≤ released := by simpa [isReleased] using already
        have := earlier released isReleased
        omega
  · refine ⟨rfl, rfl, rfl, rfl, ?_, ?_⟩
    · rcases ordered.leased with none | ⟨one, -⟩
      · simp [none]
      · simp [one]
    · rintro _ ⟨⟩
      exact Nat.le_refl _

theorem Returns.placed (returns : Returns state next)
    (unqueued : ∀ relaunch context, frame ≠ .queued relaunch context)
    (placed : state.Placed frame) : next.Placed frame := by
  cases frame with
  | queued relaunch context => exact absurd rfl (unqueued relaunch context)
  | starting context | relaunching context =>
    simp only [Placed, returns.record, returns.live] at placed ⊢
    exact placed
  | _ => exact placed.sameRecord rfl returns.record

/-- A slot comes back while no launch is queued. -/
theorem Returns.ordered (returns : Returns state next) (ordered : Ordered state)
    (unqueued : ∀ relaunch context, .queued relaunch context ∉ state.frames) : Ordered next where
  earlier := by
    rw [returns.frames, returns.record]
    exact ordered.earlier
  single := by
    rw [returns.frames, returns.record]
    exact ordered.single
  placed := by
    rw [returns.frames]
    refine fun frame member => returns.placed ?_ (ordered.placed frame member)
    rintro relaunch context rfl
    exact unqueued relaunch context member
  leased := .inl returns.leases
  released := by
    rw [returns.record]
    exact returns.released
  unstarted := by
    rw [returns.record, returns.live]
    exact ordered.unstarted
  kept := by
    rw [returns.record]
    exact ordered.kept

section

variable (ordered : Ordered state)
include ordered

theorem unqueued_of_free (free : state.Free) :
    ∀ relaunch context, .queued relaunch context ∉ state.frames :=
  fun _ _ member => free _ member (Placed.seesTo (ordered.placed _ member) rfl).1

theorem unqueued_of_live (isLive : state.liveHandle = some handle) :
    ∀ relaunch context, .queued relaunch context ∉ state.frames := by
  intro relaunch context member
  have unattached := (Placed.seesTo (ordered.placed _ member) rfl).2
  rw [isLive] at unattached
  cases unattached

/-- The lease of a launch whose turn has come. -/
theorem Ordered.lease (free : state.Free)
    (returned : ∀ released ∈ state.released, released < state.record.runEpoch) :
    Ordered { state with leases := [state.record.runEpoch] } where
  __ := ordered
  placed := by
    intro frame member
    have placed := ordered.placed frame member
    cases frame with
    | queued relaunch context => exact absurd member (unqueued_of_free ordered free _ _)
    | starting context | relaunching context => exact placed
    | _ => exact placed.sameRecord rfl rfl
  leased := .inr ⟨rfl, returned⟩

/-- The live child is let go, and the guard of its slot at most with it. -/
theorem Ordered.detach {released : Option Nat}
    (fewer : ∀ epoch ∈ released, epoch ∈ state.released) :
    Ordered { state with live := none, released := released } where
  __ := ordered
  placed := by
    intro frame member
    have placed := ordered.placed frame member
    cases frame with
    | queued relaunch context =>
      obtain ⟨current, -, leases, returned, waits⟩ := placed
      exact ⟨current, rfl, leases, (fun epoch isReleased => returned epoch
        (fewer epoch isReleased)), waits⟩
    | starting context | relaunching context => exact ⟨placed.1, rfl, placed.2.2⟩
    | _ => exact placed.sameRecord rfl rfl
  leased := ordered.leased.imp id fun ⟨one, returned⟩ =>
    ⟨one, fun epoch isReleased => returned epoch (fewer epoch isReleased)⟩
  released := fun epoch isReleased => ordered.released epoch (fewer epoch isReleased)
  unstarted := fun _ => rfl

end

theorem Ordered.forget (ordered : Ordered state) : Ordered state.forget := by
  have detached : Ordered { state with live := none, released := none } :=
    ordered.detach fun _ isReleased => nomatch isReleased
  have quiet : Quiet { state with live := none, released := none } state.forget :=
    ⟨rfl, rfl, rfl, rfl, rfl, id, .inl rfl, id⟩
  exact quiet.ordered detached

/-- A child comes for the run that nobody else sees to. -/
theorem Ordered.attach (ordered : Ordered state) (free : state.Free)
    (started : state.record.status ≠ .pending) (child : StartedChild) (context : LaunchContext)
    (relaunchable : Bool) : Ordered (attach child context relaunchable state) where
  __ := ordered
  placed := by
    intro frame member
    have placed := ordered.placed frame member
    cases frame with
    | queued _ _ | starting _ | relaunching _ =>
      exact absurd (Placed.seesTo placed rfl).1 (free _ member)
    | _ => exact placed.sameRecord rfl rfl
  unstarted := fun pending => absurd pending started

/-- A launch sees to the current run, and so does the teardown of a child that was
turned away. -/
structure Unlaunched (state : TaskManagerState) : Prop where
  idle : ∀ frame ∈ state.frames, frame.isLaunch = false
  kept : ∀ handle disposing context, .tearingDown handle disposing (.launch context) ∉ state.frames

theorem Free.unlaunched (free : state.Free) (ordered : Ordered state) : state.Unlaunched where
  idle := by
    intro frame member
    rw [← Bool.not_eq_true]
    exact fun isLaunch => free frame member (Placed.seesTo (ordered.placed frame member) isLaunch).1
  kept := fun _ _ _ member => free _ member (congrArg some (ordered.placed _ member).1)

/-- A record is written for a run that nobody sees to yet. -/
theorem Ordered.write {record : TaskRecord} (ordered : Ordered state)
    (unlaunched : state.Unlaunched) (free : Free { state with record := record })
    (later : state.record.runEpoch ≤ record.runEpoch)
    (leased : state.leases = [] ∨ record.runEpoch = state.record.runEpoch)
    (uninterrupted : record.runEpoch = state.record.runEpoch → state.record.status ≠ .interrupted)
    (started : record.status ≠ .pending) (kept : record.Kept) :
    Ordered { state with record := record } where
  earlier := fun frame member epoch sees =>
    Nat.le_trans (ordered.earlier frame member epoch sees) later
  single := by
    refine Nat.le_trans (Nat.le_of_eq (List.countP_eq_zero.mpr ?_)) (Nat.zero_le 1)
    exact fun frame member sees => free frame member (of_decide_eq_true sees)
  placed := by
    intro frame member
    have placed := ordered.placed frame member
    cases frame with
    | queued _ _ | starting _ | relaunching _ => cases unlaunched.idle _ member
    | tearingDown handle disposing caller =>
      cases caller with
      | launch context => exact absurd member (unlaunched.kept _ _ _)
      | runtimeFallback handOff => exact ⟨placed.1, placed.2.1, started, placed.2.2.2⟩
      | cancelTask _ | afterSettlement => trivial
    | interrupting handle captured =>
      obtain ⟨status, isKept, earlier, same⟩ := placed
      refine ⟨status, isKept, Nat.le_trans earlier later, fun current => ?_⟩
      change captured.runEpoch = record.runEpoch at current
      exact absurd (same (by omega)) (uninterrupted (by omega))
    | _ => trivial
  leased := by
    rcases leased with none | same
    · exact .inl none
    · simp only [same]
      exact ordered.leased
  released := fun released isReleased => Nat.le_trans (ordered.released released isReleased) later
  unstarted := fun pending => absurd pending started
  kept := kept

/-- The run behind the last one that anybody saw to is new to all frames. -/
theorem Ordered.free_next {record : TaskRecord} (ordered : Ordered state)
    (next : record.runEpoch = state.record.runEpoch + 1) :
    Free { state with record := record } := by
  intro frame member sees
  have := ordered.earlier frame member _ sees
  change record.runEpoch ≤ _ at this
  omega

end FramesAndSlots

/-! ## Launches -/

section Launches

variable {context : LaunchContext} (laneKey : String → String)

section

variable (ordered : Ordered state) (free : state.Free)
include ordered free

/-- What is left of a launch that did not come to a child. -/
theorem slotAccount_unstarted (current : context.epoch = state.record.runEpoch)
    (quiet : Quiet (state.releaseSlot context.epoch) next)
    (ended : next.record.status.isTerminal = true) : SlotAccount next.settleWaiters := by
  have returns := returns_releaseSlot ordered current
  have slotless := quiet.ordered (returns.ordered ordered (unqueued_of_free ordered free))
  refine ⟨quiet_settleWaiters.ordered slotless, .inl ?_⟩
  exact settledUp_settleWaiters ended (quiet.leases.trans returns.leases)

theorem slotAccount_launch (placed : state.Placed (.queued false context)) :
    SlotAccount (launch context { state with leases := context.epoch :: state.leases }) := by
  obtain ⟨current, unattached, leases, returned, -, waits⟩ := placed
  have leased : context.epoch :: state.leases = [state.record.runEpoch] := by
    rw [current, leases]
  rw [leased]
  have taken := ordered.lease free returned
  unfold launch
  split_ifs with applied
  · rw [applied_start] at applied
    have pending : state.record.status = .pending := of_decide_eq_true applied
    have running : (transitionTaskRecord state.record
        (.start state.clock none none)).record.status = .running := by
      rw [status_transition, applied_start, pending]
      rfl
    have epoch : (transitionTaskRecord state.record
        (.start state.clock none none)).record.runEpoch = state.record.runEpoch :=
      runEpoch_transition
    have started : (transitionTaskRecord state.record
        (.start state.clock none none)).record.status ≠ .pending := by
      rw [running]
      decide
    have kept : (transitionTaskRecord state.record (.start state.clock none none)).record.Kept := by
      unfold TaskRecord.Kept
      rw [residencyState_transition]
      split_ifs <;> exact ordered.kept
    have freed : Free { state with record := (transitionTaskRecord state.record
        (.start state.clock none none)).record } := by
      intro frame member
      rw [epoch]
      exact free frame member
    have unlaunched : Unlaunched { state with leases := [state.record.runEpoch] } :=
      Free.unlaunched (fun frame member => free frame member) taken
    have written := taken.write unlaunched freed (Nat.le_of_eq epoch.symm)
      (.inr epoch) (fun _ interrupted => nomatch pending.symm.trans interrupted) started kept
    refine written.push_tending freed ⟨current.trans epoch.symm, unattached, started⟩ ?_
    simp [tends, Frame.seesTo, Frame.claim, Frame.awaits, current]
  · refine slotAccount_unstarted taken free current ?_ ?_
    · exact quiet_setPendingSteering
    · change (releaseSlot _ _).record.status.isTerminal = true
      rw [record_releaseSlot]
      exact (waits rfl).resolve_left fun pending => applied (by simp [pending])

/-- A fallback's launch whose turn has come. -/
theorem slotAccount_launchRuntimeFallback (current : context.epoch = state.record.runEpoch)
    (unattached : state.liveHandle = none) (started : state.record.status ≠ .pending) :
    SlotAccount (launchRuntimeFallback context state) := by
  unfold launchRuntimeFallback
  split_ifs with running
  · refine ordered.push_tending free ⟨current, unattached, started⟩ ?_
    simp [tends, Frame.seesTo, Frame.claim, Frame.awaits, current]
  · -- a run that has not ended is failed first
    dsimp only
    split_ifs with ended
    · exact slotAccount_unstarted ordered free current .refl ended
    · cases status : state.record.status <;> simp_all [TaskStatus.isTerminal]

theorem slotAccount_startFailed (current : context.epoch = state.record.runEpoch)
    (started : state.record.status ≠ .pending)
    (quiet : Quiet ((state.releaseSlot context.epoch).transition
      (.fail state.clock message false none)) next) :
    SlotAccount next.settleWaiters := by
  have failed : Quiet (state.releaseSlot context.epoch)
      ((state.releaseSlot context.epoch).transition (.fail state.clock message false none)) :=
    quiet_transition (fun _ => .inr rfl) fun _ => .inl rfl
  refine slotAccount_unstarted ordered free current (failed.trans quiet) (quiet.isTerminal ?_)
  change (transitionTaskRecord _ _).record.status.isTerminal = true
  rw [record_releaseSlot]
  exact isTerminal_transition started rfl rfl

theorem slotAccount_launchFailed (placed : state.Placed (.starting context))
    (failure : Option FailureKind) : SlotAccount (launchFailed context failure state) :=
  slotAccount_startFailed ordered free placed.1 placed.2.2 quiet_setPendingSteering

theorem slotAccount_relaunchFailed (placed : state.Placed (.relaunching context))
    (failure : Option FailureKind) : SlotAccount (relaunchFailed context failure state) :=
  slotAccount_startFailed ordered free placed.1 placed.2.2 .refl

/-- The child that came is tracked from here on. -/
theorem slotAccount_trackOutcome (current : context.epoch = state.record.runEpoch)
    (started : state.record.status ≠ .pending)
    (quiet : Quiet (attach child context true state) next) :
    SlotAccount (trackOutcome state.children.length context.model context.epoch next) := by
  have attached := quiet.ordered (ordered.attach free started child context true)
  have freed : next.Free := by
    intro frame
    rw [quiet.frames, quiet.epoch]
    exact free frame
  have live : next.liveHandle = some state.children.length := quiet.live
  refine attached.push_tending freed trivial ?_
  simp [tends, Frame.seesTo, Frame.claim, Frame.awaits, current, quiet.epoch, live, attach]

end

theorem slotAccount_drain (account : SlotAccount state) :
    SlotAccount (drain handle ids queue state) := by
  cases queue with
  | nil => exact (quiet_setPendingSteering).slotAccount account
  | cons entry rest =>
    exact ((quiet_updateChild handle ChildHandle.prompt).slotAccount account).push_idle trivial rfl

theorem slotAccount_notifyStarted (account : SlotAccount state) :
    SlotAccount state.notifyStarted := by
  unfold notifyStarted
  split
  · exact slotAccount_drain account
  · exact account

theorem slotAccount_relaunched (ordered : Ordered state) (free : state.Free)
    (placed : state.Placed (.relaunching context)) (child : StartedChild) :
    SlotAccount (relaunched context child state) := by
  obtain ⟨current, -, started⟩ := placed
  have subscribed : Ordered state.subscribeChildFacts := quiet_subscribeChildFacts.ordered ordered
  have freeSubscribed : state.subscribeChildFacts.Free := fun frame member => free frame member
  have recorded : Quiet (attach child context true state.subscribeChildFacts) _ :=
    quiet_recordSpawnFacts child
  have account := slotAccount_trackOutcome subscribed freeSubscribed current started recorded
  exact account

theorem slotAccount_launched (ordered : Ordered state) (free : state.Free)
    (placed : state.Placed (.starting context)) (child : StartedChild) :
    SlotAccount (launched laneKey context child state) := by
  obtain ⟨current, unattached, started⟩ := placed
  unfold launched
  split_ifs with cancelled
  · -- the child that is turned away is torn down, and the launch waits for it
    have attached := ordered.attach free started child context false
    have torn : Quiet (attach child context false state) _ :=
      quiet_updateChild state.children.length ChildHandle.destroy
    refine (torn.ordered attached).push_tending (fun frame member => free frame member)
      ⟨current, cancelled⟩ ?_
    simp [tends, Frame.seesTo, Frame.awaits, current, updateChild, attach]
  · exact slotAccount_notifyStarted
      (slotAccount_relaunched ordered free ⟨current, unattached, started⟩ child)

end Launches

/-! ## Teardowns and fallbacks -/

section Teardowns

variable (laneKey : String → String)

section

variable (account : SlotAccount state)
include account

/-- The end of a teardown that nobody waits for with a run. -/
theorem slotAccount_stopReturned
    (stops : caller = .afterSettlement ∨ ∃ skipAbort, caller = .cancelTask skipAbort) :
    SlotAccount (destructionReturned laneKey caller state) := by
  have disposed : SlotAccount (state.transition (.dispose state.clock)) :=
    Quiet.slotAccount (quiet_transition (fun _ => .inl rfl) fun _ => .inr rfl) account
  rcases stops with rfl | ⟨skipAbort, rfl⟩
  · exact disposed
  · have stops : (DestroyCaller.cancelTask skipAbort).cause ≠ .fallbackHandoff := by
      cases skipAbort <;> decide
    unfold destructionReturned
    rw [if_neg stops]
    exact disposed.push_idle trivial rfl

/-- The teardown of a stop. -/
theorem slotAccount_destroyStopped
    (stops : caller = .afterSettlement ∨ ∃ skipAbort, caller = .cancelTask skipAbort) :
    SlotAccount (destroyResidentTask laneKey caller state) := by
  unfold destroyResidentTask
  split
  · next handle _ =>
      have torn := (quiet_updateChild handle ChildHandle.destroy).slotAccount account
      rcases stops with rfl | ⟨skipAbort, rfl⟩ <;> exact torn.push_idle trivial rfl
  · exact slotAccount_stopReturned laneKey account stops

/-- The child of a stopped run is let go.  Nobody waits for an answer of it any more,
unless all is settled. -/
theorem slotAccount_forget (answered : state.SettledUp ∨
      ∀ frame ∈ state.frames, frame.awaits.isSome = true → state.tends frame = false) :
    SlotAccount state.forget := by
  refine ⟨account.toOrdered.forget, ?_⟩
  rcases answered with settled | silent
  · exact .inl ⟨settled.ended, settled.leases, settled.waiters⟩
  · rcases account.tended with settled | ⟨frame, member, tends⟩
    · exact .inl ⟨settled.ended, settled.leases, settled.waiters⟩
    · refine .inr ⟨frame, member, ?_⟩
      cases awaits : frame.awaits with
      | some handle =>
        rw [silent frame member (by simp [awaits])] at tends
        cases tends
      | none =>
        rw [TaskManagerState.tends, awaits] at tends ⊢
        exact tends

end

/-- The end of a launch that was turned away: its slot goes back whatever the child
did. -/
theorem slotAccount_turnedAway (ordered : Ordered state) (free : state.Free)
    (placed : state.Placed (.tearingDown handle disposing (.launch context))) :
    SlotAccount (destructionReturned laneKey (.launch context) state.forget) := by
  obtain ⟨current, cancelled⟩ := placed
  have disposed : Quiet state.forget (state.forget.transition (.dispose state.clock)) :=
    quiet_transition (fun _ => .inl rfl) fun _ => .inr rfl
  have forgotten := disposed.ordered ordered.forget
  have freed : Free (state.forget.transition (.dispose state.clock)) := by
    intro frame
    rw [disposed.epoch]
    exact free frame
  refine slotAccount_unstarted forgotten freed (current.trans disposed.epoch.symm) .refl ?_
  apply disposed.isTerminal
  change state.record.status.isTerminal = true
  rw [cancelled]
  rfl

/-- A fallback takes over the run that it read. -/
theorem slotAccount_continueFallback (ordered : Ordered state) (free : state.Free)
    (placed : state.Placed (.tearingDown handle disposing (.runtimeFallback handOff)))
    (current : handOff.record.runEpoch = state.record.runEpoch) :
    SlotAccount (continueFallback laneKey handOff state) := by
  obtain ⟨read, started, -, kept⟩ := placed
  have detached : Ordered { state with live := none } := ordered.detach fun _ => id
  have returns := returns_releaseSlot detached (read.symm.trans current)
  have unqueued := unqueued_of_free ordered free
  have slotless := returns.ordered detached unqueued
  have freed : Free (releaseSlot handOff.input.epoch { state with live := none }) := by
    intro frame
    rw [returns.frames, returns.record]
    exact free frame
  have later : (fallbackRecord handOff).runEpoch =
      (releaseSlot handOff.input.epoch { state with live := none }).record.runEpoch + 1 := by
    rw [returns.record]
    exact congrArg (· + 1) current
  have fresh := slotless.free_next later
  have written : Ordered (handOver handOff state) :=
    slotless.write (freed.unlaunched slotless) fresh (by omega) (.inl returns.leases)
      (fun same => by omega) started kept
  have unattached : (handOver handOff state).liveHandle = none := returns.live
  have returned : ∀ epoch ∈ (handOver handOff state).released,
      epoch < (handOver handOff state).record.runEpoch := by
    intro epoch isReleased
    have := slotless.released epoch isReleased
    change epoch < (fallbackRecord handOff).runEpoch
    omega
  unfold continueFallback
  dsimp only
  split
  · next leased acquired =>
      unfold tryAcquire at acquired
      split_ifs at acquired
      cases acquired
      refine slotAccount_launchRuntimeFallback ?_ fresh rfl unattached started
      have taken := written.lease fresh returned
      rwa [show (handOver handOff state).leases = [] from returns.leases]
  · refine written.push_tending fresh ?_ ?_
    · exact ⟨rfl, unattached, returns.leases, returned, fun pending => absurd pending started,
        fun first => nomatch first⟩
    · simp [tends, Frame.seesTo, Frame.claim, Frame.awaits, handOver, fallbackRecord]

end Teardowns

/-! ## Settled outcomes -/

section Outcomes

variable {state : TaskManagerState} (laneKey : String → String)

/-- The run that an owned outcome belongs to. -/
theorem live_of_owned (owns : state.owned handle epoch = true) :
    state.liveHandle = some handle ∧ state.record.runEpoch = epoch := by
  simp only [owned, Bool.and_eq_true, decide_eq_true_eq] at owns
  exact ⟨owns.1.1.1, owns.2⟩

/-- An outcome that nobody owns sees to nothing. -/
theorem tends_of_not_owned (kept : state.record.Kept) (disowned : state.owned handle epoch ≠ true)
    (sees : frame.seesTo = some epoch) (awaits : frame.awaits = some handle) :
    state.tends frame = false := by
  rw [← Bool.not_eq_true]
  intro tends
  simp only [TaskManagerState.tends, sees, awaits, Option.all_some, Bool.and_eq_true,
    decide_eq_true_eq, Option.some.injEq] at tends
  apply disowned
  simp [owned, tends.1, tends.2, kept.1, kept.2]

variable (ordered : Ordered state)
include ordered

theorem slotAccount_persistTerminal (free : state.Free) (started : state.record.status ≠ .pending)
    (returns : Returns state returned) (allowed : isStatusTransitionAllowed .running change = true)
    (ends : ∀ status, (transitionStatus change status).isTerminal = true)
    (stays : ∀ residency, transitionResidency change residency = residency) :
    SlotAccount (returned.persistTerminal change) := by
  have settled : Quiet returned (returned.transition change) :=
    quiet_transition (fun status => .inr (ends status)) fun residency => .inl (stays residency)
  have slotless := settled.ordered (returns.ordered ordered (unqueued_of_free ordered free))
  refine ⟨quiet_settleWaiters.ordered slotless, .inl ?_⟩
  refine settledUp_settleWaiters ?_ returns.leases
  change (transitionTaskRecord returned.record change).record.status.isTerminal = true
  rw [returns.record]
  exact isTerminal_transition started allowed (ends _)

/-- A fallback that is taken sees to the run until the old child is torn down. -/
theorem slotAccount_tryRuntimeFallback (free : state.Free)
    (current : state.record.runEpoch = input.epoch) (started : state.record.status ≠ .pending)
    (taken : tryRuntimeFallback laneKey input state = some next) : SlotAccount next := by
  unfold tryRuntimeFallback at taken
  split_ifs at taken
  split at taken
  · next nextModel models live _ isLive =>
      split_ifs at taken
      cases taken
      have liveHandle : state.liveHandle = some live.handle := by simp [liveHandle, isLive]
      have torn : Quiet state _ := quiet_updateChild live.handle ChildHandle.destroy
      unfold destroyResidentTask
      rw [liveHandle]
      refine (torn.ordered ordered).push_tending (fun frame member => free frame member)
        ⟨current, started, started, ordered.kept⟩ ?_
      simp [tends, Frame.seesTo, Frame.claim, Frame.awaits, current, updateChild]
  · cases taken

theorem slotAccount_outcomeSettled (tended : state.owned handle epoch ≠ true → state.Tended)
    (free : epoch = state.record.runEpoch → state.Free) (outcome : RunnerOutcome) :
    SlotAccount (outcomeSettled laneKey handle model epoch outcome state) := by
  unfold outcomeSettled
  split_ifs with owns
  · obtain ⟨isLive, current⟩ := live_of_owned owns
    have free := free current.symm
    have started : state.record.status ≠ .pending := by
      intro pending
      rw [ordered.unstarted pending] at isLive
      cases isLive
    have returns := returns_releaseSlot ordered current.symm
    cases outcome with
    | error kind message killed =>
      dsimp only
      cases fallback : tryRuntimeFallback laneKey ⟨handle, model, epoch, kind, message, killed,
          state.runStats, state.clock⟩ state with
      | none =>
        refine ordered.push_tending free trivial ?_
        simp [tends, Frame.seesTo, Frame.claim, Frame.awaits, current, isLive]
      | some next =>
        exact slotAccount_tryRuntimeFallback laneKey ordered free current started fallback
    | completed finalResponse =>
      dsimp only
      split_ifs
      · exact slotAccount_persistTerminal ordered free started returns rfl (fun _ => rfl)
          fun _ => rfl
      · exact slotAccount_persistTerminal ordered free started returns rfl (fun _ => rfl)
          fun _ => rfl
    | cancelled =>
      exact slotAccount_persistTerminal ordered free started returns rfl (fun _ => rfl) fun _ => rfl
  · exact ⟨ordered, tended owns⟩

theorem slotAccount_errorSettled
    (tended : state.owned input.handle input.epoch ≠ true → state.Tended)
    (free : input.epoch = state.record.runEpoch → state.Free) :
    SlotAccount (errorSettled input state) := by
  unfold errorSettled
  split_ifs with owns
  · obtain ⟨isLive, current⟩ := live_of_owned owns
    have started : state.record.status ≠ .pending := by
      intro pending
      rw [ordered.unstarted pending] at isLive
      cases isLive
    exact slotAccount_persistTerminal ordered (free current.symm) started
      (returns_releaseSlot ordered current.symm) rfl (fun _ => rfl) fun _ => rfl
  · exact ⟨ordered, tended owns⟩

end Outcomes

/-! ## Stops, sends and waits -/

section Steering

variable (laneKey : String → String)

section

variable (account : SlotAccount state)
include account

/-- A waiter of the queue is taken out. -/
theorem slotAccount_removeWaiter (model : String) (unneeded : state.SettledUp ∨
      ∀ frame ∈ state.frames, frame.queuedIn laneKey (laneKey model) = false) :
    SlotAccount (removeWaiter laneKey model state) := by
  refine ⟨account.toOrdered.drop List.eraseP_sublist, ?_⟩
  rcases unneeded with settled | none
  · exact .inl ⟨settled.ended, settled.leases, settled.waiters⟩
  · unfold removeWaiter
    rw [List.eraseP_of_forall_not fun frame member => by simp [none frame member]]
    exact account.tended

theorem leases_of_pending (pending : state.record.status = .pending) : state.leases = [] := by
  rcases account.tended with settled | ⟨frame, member, tends⟩
  · exact settled.leases
  · have placed := account.placed frame member
    have unattached := account.unstarted pending
    cases frame with
    | queued relaunch context => exact placed.2.2.1
    | starting context | relaunching context => exact absurd pending placed.2.2
    | tracking _ _ _ | failing _ | reviving _ _ _ =>
      simp [TaskManagerState.tends, Frame.awaits, unattached] at tends
    | tearingDown handle disposing caller =>
      cases caller with
      | launch context =>
        have cancelled := placed.2
        rw [pending] at cancelled
        cases cancelled
      | runtimeFallback handOff => exact absurd pending placed.2.2.1
      | cancelTask _ | afterSettlement =>
        simp [TaskManagerState.tends, Frame.seesTo, Frame.claim] at tends
    | _ => simp [TaskManagerState.tends, Frame.seesTo, Frame.claim] at tends

theorem slotAccount_cancelTask (reason : Option String) (skipAbort : Bool) :
    SlotAccount (cancelTask laneKey reason skipAbort state) := by
  have cancelled (runStats : Option TaskRunStats) :
      Quiet state (state.transition (.cancel state.clock reason runStats)) :=
    quiet_transition (fun _ => .inr rfl) fun _ => .inl rfl
  unfold cancelTask
  split
  · next pending =>
      have dequeued : SlotAccount (dequeuePending laneKey
          (state.transition (.cancel state.clock reason none))) := by
        have ordered := (cancelled none).ordered account.toOrdered
        have slotless : state.leases = [] := leases_of_pending account pending
        refine ⟨quiet_settleWaiters.ordered (ordered.drop List.eraseP_sublist), .inl ?_⟩
        refine settledUp_settleWaiters ?_ slotless
        change (transitionTaskRecord _ _).record.status.isTerminal = true
        rw [status_transition, applied_cancel, pending]
        rfl
      exact slotAccount_destroyStopped laneKey
        ((quiet_setPendingSteering).slotAccount dequeued) (.inr ⟨_, rfl⟩)
  · have account := (cancelled state.runStats).slotAccount account
    split
    · next handle isLive =>
        split_ifs
        · exact slotAccount_destroyStopped laneKey account (.inr ⟨_, rfl⟩)
        · have settling : SlotAccount (push (.settling handle)
              (state.transition (.cancel state.clock reason state.runStats))) :=
            account.push_idle trivial rfl
          exact settling.push_idle trivial rfl
        · exact ((quiet_updateChild handle ChildHandle.abort).slotAccount account).push_idle
            trivial rfl
    · exact slotAccount_destroyStopped laneKey account (.inr ⟨_, rfl⟩)
  · exact account

theorem slotAccount_interruptTask : SlotAccount state.interruptTask := by
  unfold interruptTask
  split_ifs with running
  · have interrupted : Quiet state (state.transition (.interrupt state.clock none none)) :=
      quiet_transition (fun _ => .inr rfl) fun _ => .inl rfl
    have account := interrupted.slotAccount account
    have isInterrupted :
        (state.transition (.interrupt state.clock none none)).record.status = .interrupted := by
      change (transitionTaskRecord _ _).record.status = _
      rw [status_transition]
      simp [running, transitionStatus]
    split
    · next handle isLive =>
        exact ((quiet_updateChild handle ChildHandle.abort).slotAccount account).push_idle
          ⟨isInterrupted, account.kept, Nat.le_refl _, fun _ => isInterrupted⟩ rfl
    · exact account.push_idle trivial rfl
  · exact account

end

theorem slotAccount_reviveTerminal {live : LiveTask} (ordered : Ordered state)
    (tended : state.Tended) (isLive : state.live = some live)
    (uncancelled : state.record.status ≠ .cancelled) (returned : state.leases = []) :
    SlotAccount (reviveTerminal laneKey live state) := by
  have liveHandle : state.liveHandle = some live.handle := by simp [liveHandle, isLive]
  unfold reviveTerminal
  dsimp only
  split
  · exact ⟨ordered, tended⟩
  · next leased acquired =>
      unfold tryAcquire at acquired
      split_ifs at acquired
      cases acquired
      have unlaunched : state.Unlaunched := by
        refine ⟨fun frame member => ?_, fun handle disposing context member => ?_⟩
        · rw [← Bool.not_eq_true]
          intro isLaunch
          have unattached := (Placed.seesTo (ordered.placed frame member) isLaunch).2
          rw [liveHandle] at unattached
          cases unattached
        · exact uncancelled (ordered.placed _ member).2
      have later : (buildRevived state.record state.clock).runEpoch = state.record.runEpoch + 1 :=
        rfl
      have fresh := ordered.free_next later
      have written := ordered.write unlaunched fresh (by omega) (.inl returned)
        (fun same => by omega) (by simp [buildRevived]) (by simp [TaskRecord.Kept, buildRevived])
      have taken := written.lease fresh fun epoch isReleased =>
        Nat.lt_succ_of_le (ordered.released epoch isReleased)
      rw [returned]
      have prompted := (quiet_updateChild live.handle
        (ChildHandle.serve (state.record.runEpoch + 1) ∘ ChildHandle.prompt)).ordered taken
      refine prompted.push_tending (fun frame member => fresh frame member) trivial ?_
      rw [tends, Bool.and_eq_true]
      exact ⟨decide_eq_true rfl, decide_eq_true liveHandle⟩

variable (account : SlotAccount state)
include account

theorem slotAccount_sendToTask
    (returned : messageability state.record.status state.record.residencyState
      state.record.executionMode state.record.killed = .revive → state.leases = [])
    (message : String) (deliverAs : SendDelivery) :
    SlotAccount (sendToTask laneKey message deliverAs state) := by
  unfold sendToTask
  dsimp only
  split_ifs
  · exact (quiet_setPendingSteering).slotAccount account
  · split
    · exact account
    · exact account
    · next live isLive continuable =>
        split_ifs with exited steers
        · exact account
        · exact (quiet_updateChild _ _).slotAccount account
        · have revives := Messageability.eq_revive continuable steers
          have ended := status_of_revive revives
          refine slotAccount_reviveTerminal laneKey account.toOrdered account.tended isLive ?_
            (returned revives)
          rcases ended with status | status | status <;> rw [status] <;> decide

theorem slotAccount_waitFor : SlotAccount state.waitFor := by
  unfold waitFor
  split_ifs with ended
  · exact account
  · refine ⟨?_, .inr ?_⟩
    · exact ⟨account.earlier, account.single, account.placed, account.leased, account.released,
        account.unstarted, account.kept⟩
    · rcases account.tended with settled | tended
      · exact absurd settled.ended ended
      · exact tended

/-- The manager's part behind a stop. -/
theorem slotAccount_stopped (unneeded : state.SettledUp ∨ ∀ frame ∈ state.frames,
      frame.queuedIn laneKey (laneKey state.record.model) = false) :
    SlotAccount (stopReturned laneKey state) := by
  have removed := slotAccount_removeWaiter laneKey account state.record.model unneeded
  unfold stopReturned releaseSlotForTask removeCapacityWaiter
  split_ifs with unattached
  · exact removed
  · obtain ⟨live, isLive⟩ : ∃ live,
        (removeWaiter laneKey state.record.model state).live = some live := by
      simpa [Option.isSome_iff_exists, ← Option.isSome_iff_ne_none] using unattached
    have liveHandle : (removeWaiter laneKey state.record.model state).liveHandle =
        some live.handle := by
      simp [TaskManagerState.liveHandle, isLive]
    have returns := returns_releaseSlot removed.toOrdered rfl
    refine ⟨returns.ordered removed.toOrdered (unqueued_of_live removed.toOrdered liveHandle), ?_⟩
    refine removed.tended.imp (fun settled => ?_) ?_
    · exact ⟨by rw [returns.record]; exact settled.ended, returns.leases,
        returns.waiters.trans settled.waiters⟩
    · rintro ⟨frame, member, tends⟩
      refine ⟨frame, by rwa [returns.frames], ?_⟩
      simpa only [TaskManagerState.tends, returns.record, returns.live] using tends

end Steering

/-! ## Steps -/

section Steps

variable {state : TaskManagerState} (laneKey : String → String)

section

variable (state : TaskManagerState)

instance : Decidable state.SettledUp :=
  decidable_of_iff _ (settledUp_iff state).symm

/-- A frame returns before the run that it knows, or the child that somebody waits
for, is gone: a fallback and the partial text of an interrupt find the run they read,
a stopped child is let go when its outcome is in, and no queued launch is taken away
under its waiters.  The frames of the state are the other ones. -/
def inTime : Frame → Reply → Bool
  | .tearingDown _ true (.runtimeFallback handOff), .fulfilled =>
    handOff.record.runEpoch = state.record.runEpoch
  | .tearingDown _ true (.runtimeFallback _), .rejected
  | .tearingDown _ true (.launch _), .rejected => state.SettledUp
  | .tearingDown _ true (.cancelTask _), _ | .tearingDown _ true .afterSettlement, _ =>
    state.SettledUp ||
      state.frames.all fun frame => frame.awaits.isNone || !state.tends frame
  | .interrupting handle record, .fulfilled =>
    record.runEpoch = state.record.runEpoch ||
      ((state.children[handle]?).bind ChildHandle.lastAssistantText).all String.isEmpty
  | .reviving _ _ epoch, .rejected =>
    epoch ≠ state.record.runEpoch ||
      (state.record.status.isTerminal && state.waiters = 0)
  | .returned, .fulfilled =>
    state.SettledUp ||
      state.frames.all fun frame => !frame.queuedIn laneKey (laneKey state.record.model)
  | _, _ => true

/-- Frames return in time, and nobody revives a run that still has its slot. -/
def KeepsSlots : TaskAction → Prop
  | .sendToTask _ _ =>
    messageability state.record.status state.record.residencyState
      state.record.executionMode state.record.killed = .revive → state.leases = []
  | .resume index reply => ∀ frame ∈ state.frames[index]?,
      inTime laneKey (takeFrame index state) frame reply = true
  | _ => True

end

/-- What is known when a frame is on its way. -/
structure OnItsWay (frame : Frame) (state : TaskManagerState) : Prop extends Ordered state where
  fits : state.Placed frame
  free : frame.seesTo = some state.record.runEpoch → state.Free
  before : ∀ epoch, frame.seesTo = some epoch → epoch ≤ state.record.runEpoch
  seen : state.tends frame = true ∨ state.Tended

theorem onItsWay_takeFrame (account : SlotAccount state)
    (found : state.frames[index]? = some frame) : OnItsWay frame (takeFrame index state) := by
  have fewer := List.eraseIdx_sublist state.frames index
  have member := List.mem_of_getElem? found
  obtain ⟨inRange, isFrame⟩ := List.getElem?_eq_some_iff.mp found
  have permuted := List.getElem_cons_eraseIdx_perm inRange
  rw [isFrame] at permuted
  refine ⟨account.toOrdered.drop fewer, ?_, ?_, account.earlier frame member, ?_⟩
  · have placed := account.placed frame member
    cases frame with
    | queued _ _ | starting _ | relaunching _ => exact placed
    | _ => exact placed.sameRecord rfl rfl
  · intro sees other isOther otherSees
    change frame.seesTo = some state.record.runEpoch at sees
    have single := account.single
    rw [← permuted.countP_eq, List.countP_cons, if_pos (decide_eq_true sees)] at single
    have none : (state.frames.eraseIdx index).countP
        (fun other => other.seesTo = some state.record.runEpoch) = 0 := by omega
    exact List.countP_eq_zero.mp none other isOther (decide_eq_true otherSees)
  · rcases account.tended with settled | ⟨tending, isTending, tends⟩
    · exact .inr (.inl ⟨settled.ended, settled.leases, settled.waiters⟩)
    · rcases List.mem_cons.mp (permuted.mem_iff.mpr isTending) with rfl | stays
      · exact .inl tends
      · exact .inr (.inr ⟨tending, stays, tends⟩)

namespace OnItsWay

/-- A frame that sees to no run leaves the account as it is. -/
theorem idle (resumes : OnItsWay frame state) (idle : frame.seesTo = none) : SlotAccount state :=
  ⟨resumes.toOrdered, resumes.seen.resolve_left fun tends => by
    rw [tends_seesTo tends] at idle
    cases idle⟩

theorem granted (resumes : OnItsWay (.queued true context) state) :
    SlotAccount
      (launchRuntimeFallback context { state with leases := context.epoch :: state.leases }) := by
  have free := resumes.free (Placed.seesTo resumes.fits rfl).1
  obtain ⟨current, unattached, leases, returned, first, -⟩ := resumes.fits
  have leased : context.epoch :: state.leases = [state.record.runEpoch] := by
    rw [current, leases]
  rw [leased]
  exact slotAccount_launchRuntimeFallback (resumes.toOrdered.lease free returned)
    (fun frame member => free frame member) current unattached
    fun pending => nomatch first pending

theorem tended_of_not_owned (resumes : OnItsWay frame state) (sees : frame.seesTo = some epoch)
    (awaits : frame.awaits = some handle) (disowned : state.owned handle epoch ≠ true) :
    state.Tended :=
  resumes.seen.resolve_left fun tends => by
    rw [tends_of_not_owned resumes.kept disowned sees awaits] at tends
    cases tends

/-- A frame that is pushed in the place of one that saw to the same run. -/
theorem replace (resumes : OnItsWay frame state) (fits : state.Placed other)
    (sees : other.seesTo = frame.seesTo) (tends : state.tends other = state.tends frame) :
    SlotAccount (state.push other) := by
  refine ⟨resumes.toOrdered.push fits fun epoch isEpoch => ?_, ?_⟩
  · rw [sees] at isEpoch
    refine ⟨resumes.before epoch isEpoch, fun current => resumes.free ?_⟩
    rw [isEpoch, current]
  · rcases resumes.seen with seen | tended
    · exact .inr ⟨other, by simp [TaskManagerState.push], tends.trans seen⟩
    · exact tended_push tended

theorem answered_of_inTime
    (timely : (state.SettledUp ||
      state.frames.all fun frame => frame.awaits.isNone || !state.tends frame) = true) :
    state.SettledUp ∨
      ∀ frame ∈ state.frames, frame.awaits.isSome = true → state.tends frame = false := by
  rw [Bool.or_eq_true, decide_eq_true_eq] at timely
  refine timely.imp id fun silent frame member waits => ?_
  have silent := List.all_eq_true.mp silent frame member
  simpa [Option.isSome_iff_ne_none.mp waits] using silent

section

variable (resumes : OnItsWay (.tearingDown handle true caller) state)
include resumes

/-- A child of a stopped run is let go. -/
theorem letGo (stops : caller = .afterSettlement ∨ ∃ skipAbort, caller = .cancelTask skipAbort)
    (timely : (state.SettledUp ||
      state.frames.all fun frame => frame.awaits.isNone || !state.tends frame) = true) :
    SlotAccount (disposed caller state) := by
  have idle : Frame.seesTo (.tearingDown handle true caller) = none := by
    rcases stops with rfl | ⟨skipAbort, rfl⟩ <;> rfl
  have disposed : disposed caller state = state.forget := by
    rcases stops with rfl | ⟨_ | _, rfl⟩ <;> rfl
  rw [disposed]
  exact slotAccount_forget (resumes.idle idle) (answered_of_inTime timely)

/-- The last step of a teardown is done. -/
theorem tornDown (timely : inTime laneKey state (.tearingDown handle true caller) .fulfilled = true)
    :
    SlotAccount (destructionReturned laneKey caller (disposed caller state)) := by
  cases caller with
  | launch context =>
    have free := resumes.free (congrArg some resumes.fits.1)
    exact slotAccount_turnedAway laneKey resumes.toOrdered free resumes.fits
  | runtimeFallback handOff =>
    have current := of_decide_eq_true timely
    have free := resumes.free (congrArg some (resumes.fits.1.symm.trans current))
    exact slotAccount_continueFallback laneKey resumes.toOrdered free resumes.fits current
  | cancelTask skipAbort =>
    exact slotAccount_stopReturned laneKey (resumes.letGo (.inr ⟨_, rfl⟩) timely) (.inr ⟨_, rfl⟩)
  | afterSettlement =>
    exact slotAccount_stopReturned laneKey (resumes.letGo (.inl rfl) timely) (.inl rfl)

/-- The last step of a teardown fails. -/
theorem stuck (timely : inTime laneKey state (.tearingDown handle true caller) .rejected = true) :
    SlotAccount (disposed caller state) := by
  cases caller with
  | launch context =>
    have settled : state.SettledUp := of_decide_eq_true timely
    exact slotAccount_forget ⟨resumes.toOrdered, .inl settled⟩ (.inl settled)
  | runtimeFallback handOff => exact ⟨resumes.toOrdered, .inl (of_decide_eq_true timely)⟩
  | cancelTask skipAbort => exact resumes.letGo (.inr ⟨_, rfl⟩) timely
  | afterSettlement => exact resumes.letGo (.inl rfl) timely

end

theorem interrupted (resumes : OnItsWay (.interrupting handle captured) state)
    (timely : inTime laneKey state (.interrupting handle captured) .fulfilled = true) :
    SlotAccount (interrupted handle captured state) := by
  have account := resumes.idle rfl
  obtain ⟨status, kept, -, same⟩ := resumes.fits
  refine SlotAccount.push_idle ?_ trivial rfl
  split
  · next text spoken =>
      split_ifs with isEmpty
      · exact account
      · have current : captured.runEpoch = state.record.runEpoch := by
          simpa [inTime, spoken, isEmpty] using timely
        have quiet : Quiet state
            { state with record := { captured with finalResponse := some text } } :=
          ⟨current, rfl, rfl, rfl, rfl, id, .inl (status.trans (same current).symm),
            fun _ => kept⟩
        exact quiet.slotAccount account
  · exact account

theorem unrevived (resumes : OnItsWay (.reviving handle model epoch) state)
    (timely : inTime laneKey state (.reviving handle model epoch) .rejected = true) :
    SlotAccount (state.releaseLease epoch) := by
  by_cases current : epoch = state.record.runEpoch
  · have free := resumes.free (congrArg some current)
    obtain ⟨ended, waiters⟩ : state.record.status.isTerminal = true ∧ state.waiters = 0 := by
      simpa [inTime, current] using timely
    have leases : (state.releaseLease epoch).leases = [] := by
      rcases resumes.leased with none | ⟨one, -⟩
      · simp [releaseLease, none]
      · simp [releaseLease, one, current]
    have returns : Returns state (state.releaseLease epoch) :=
      ⟨rfl, rfl, rfl, rfl, leases, resumes.released⟩
    exact ⟨returns.ordered resumes.toOrdered (unqueued_of_free resumes.toOrdered free),
      .inl ⟨ended, leases, waiters⟩⟩
  · have same : state.releaseLease epoch = state := by
      have kept : state.leases.erase epoch = state.leases := by
        rcases resumes.leased with none | ⟨one, -⟩
        · rw [none, List.erase_nil]
        · rw [one, List.erase_of_not_mem (by simpa using current)]
      rw [releaseLease, kept]
    rw [same]
    refine ⟨resumes.toOrdered, resumes.seen.resolve_left fun tends => current ?_⟩
    exact Option.some.inj (tends_seesTo tends)

end OnItsWay

/-- A resumed frame keeps the account. -/
theorem slotAccount_resumeFrame (account : SlotAccount state)
    (found : state.frames[index]? = some frame)
    (timely : inTime laneKey (takeFrame index state) frame reply = true)
    (resumed : resumeFrame laneKey (takeFrame index state) frame reply = some next) :
    SlotAccount next := by
  have resumes := onItsWay_takeFrame account found
  revert timely resumed resumes
  fun_cases resumeFrame laneKey (takeFrame index state) frame reply <;>
    rintro timely ⟨⟩ resumes
  case case1 =>
    have free := resumes.free (Placed.seesTo resumes.fits rfl).1
    exact slotAccount_launch resumes.toOrdered free resumes.fits
  case case2 => exact resumes.granted
  case case3 context child =>
    have free := resumes.free (Placed.seesTo resumes.fits rfl).1
    exact slotAccount_launched laneKey resumes.toOrdered free resumes.fits child
  case case4 context failure =>
    have free := resumes.free (Placed.seesTo resumes.fits rfl).1
    exact slotAccount_launchFailed resumes.toOrdered free resumes.fits failure
  case case5 context child =>
    have free := resumes.free (Placed.seesTo resumes.fits rfl).1
    exact slotAccount_relaunched resumes.toOrdered free resumes.fits child
  case case6 context failure =>
    have free := resumes.free (Placed.seesTo resumes.fits rfl).1
    exact slotAccount_relaunchFailed resumes.toOrdered free resumes.fits failure
  case case7 handle model epoch outcome =>
    exact slotAccount_outcomeSettled laneKey resumes.toOrdered (resumes.tended_of_not_owned rfl rfl)
      (fun current => resumes.free (congrArg some current)) outcome
  case case8 =>
    exact slotAccount_errorSettled resumes.toOrdered (resumes.tended_of_not_owned rfl rfl)
      fun current => resumes.free (congrArg some current)
  case case9 handle caller | case10 handle caller =>
    have fits := resumes.fits
    cases caller <;> exact resumes.replace fits rfl rfl
  case case11 => exact resumes.tornDown laneKey timely
  case case12 => exact resumes.stuck laneKey timely
  case case13 => exact resumes.interrupted laneKey timely
  case case14 => exact resumes.idle rfl
  case case15 | case16 =>
    exact slotAccount_destroyStopped laneKey (resumes.idle rfl) (.inr ⟨_, rfl⟩)
  case case17 | case18 => exact slotAccount_destroyStopped laneKey (resumes.idle rfl) (.inl rfl)
  case case19 handle model epoch =>
    have tracked : SlotAccount (push (.tracking handle model epoch) (takeFrame index state)) :=
      resumes.replace trivial rfl rfl
    have quiet : Quiet (push (.tracking handle model epoch) (takeFrame index state))
        (trackOutcome handle model epoch (takeFrame index state).subscribeChildFacts) :=
      ⟨rfl, rfl, rfl, rfl, rfl, id, .inl rfl, id⟩
    exact quiet.slotAccount tracked
  case case20 => exact resumes.unrevived laneKey timely
  case case21 handle ids rest | case22 handle ids rest => exact slotAccount_drain (resumes.idle rfl)
  case case23 =>
    refine slotAccount_stopped laneKey (resumes.idle rfl) ?_
    simpa [inTime] using timely

/-- A step that comes in time keeps the account. -/
theorem slotAccount_step (account : SlotAccount state) (keeps : KeepsSlots laneKey state action)
    (stepped : step laneKey state action = some next) : SlotAccount next := by
  cases action with
  | cancelTask reason skipAbort =>
    cases stepped
    exact slotAccount_cancelTask laneKey account reason skipAbort
  | interruptTask =>
    cases stepped
    exact slotAccount_interruptTask account
  | sendToTask message deliverAs =>
    cases stepped
    exact slotAccount_sendToTask laneKey account keeps message deliverAs
  | waitFor =>
    cases stepped
    exact slotAccount_waitFor account
  | resume index reply =>
    obtain ⟨frame, found, resumed⟩ := Option.bind_eq_some_iff.mp stepped
    exact slotAccount_resumeFrame laneKey account found (keeps frame found) resumed
  | observe clock room runStats =>
    cases stepped
    have quiet : Quiet state { state with
        clock := clock
        room := room
        runStats := state.runStats.map fun _ => runStats } :=
      ⟨rfl, rfl, rfl, rfl, rfl, id, .inl rfl, id⟩
    exact quiet.slotAccount account
  | childSpoke handle text | childExited handle =>
    cases stepped
    exact (quiet_updateChild handle _).slotAccount account

end Steps

/-! ## Runs -/

section Runs

variable (laneKey : String → String)

/-- A task before its launch. -/
theorem ordered_fresh {record : TaskRecord} (kept : record.Kept) (room : List String) :
    Ordered ⟨record, none, [], [], [], none, 0, none, room, now⟩ where
  earlier := fun _ member => nomatch member
  single := Nat.zero_le 1
  placed := fun _ member => nomatch member
  leased := .inl rfl
  released := fun _ isReleased => nomatch isReleased
  unstarted := fun _ => rfl
  kept := kept

/-- A task starts with its launch under way, with a slot or in the queue for one. -/
theorem slotAccount_startResolved (input : TaskRecordInput) (hostPid : Nat) (room : List String)
    (now : Nat) : SlotAccount (startResolved laneKey input hostPid room now) := by
  have queued {record : TaskRecord}
      (pending : record.status = .pending) :
      Placed ⟨record, none, [], [], [], none, 0, none, room, now⟩
        (.queued false ⟨record.model, record.runEpoch⟩) :=
    ⟨rfl, rfl, rfl, (fun _ isReleased => nomatch isReleased), fun _ => rfl, fun _ => .inl pending⟩
  unfold startResolved
  dsimp only
  split
  · next candidate _ =>
      have facts : (effectiveRecord (createTaskRecord input hostPid now) candidate).status =
          .pending ∧ (effectiveRecord (createTaskRecord input hostPid now) candidate).Kept := by
        unfold effectiveRecord
        split_ifs <;> exact ⟨rfl, by simp [createTaskRecord], by simp [createTaskRecord]⟩
      exact slotAccount_launch (ordered_fresh facts.2 room) (fun _ member => nomatch member)
        (queued facts.1)
  · have kept : (createTaskRecord input hostPid now).Kept :=
      ⟨by simp [createTaskRecord], by simp [createTaskRecord]⟩
    exact (ordered_fresh kept room).push_tending (fun _ member => nomatch member)
      (queued rfl) rfl

/-- Wherever a run comes to rest, a task that has ended holds no slot and keeps nobody
waiting.  At rest nothing of the task is under way: no operation waits, and the outcomes
of its children are in. -/
def SlotsGivenBack (start : TaskManagerState) (actions : List TaskAction) : Prop :=
  ∀ before rest final, actions = before ++ rest → execute (step laneKey) start before = some final →
      final.frames = [] → final.record.status.isTerminal = true →
        final.leases = [] ∧ final.waiters = 0

/-- Slots and waiters are given back in every run in which the frames return in time
and no run is revived that still has its slot. -/
theorem slotsGivenBack_of_keepsSlots (input : TaskRecordInput) (hostPid : Nat) (room : List String)
    (now : Nat) (actions : List TaskAction)
    (keeps : EveryStep (step laneKey) (fun state action _ => KeepsSlots laneKey state action)
      (startResolved laneKey input hostPid room now) actions) :
    SlotsGivenBack laneKey (startResolved laneKey input hostPid room now) actions := by
  rintro before rest final rfl reached atRest -
  have preserved : ∀ state action next, SlotAccount state → KeepsSlots laneKey state action →
      step laneKey state action = some next → SlotAccount next :=
    fun _ _ _ account keeps stepped => slotAccount_step laneKey account keeps stepped
  have account : SlotAccount final :=
    invariant_of_execute preserved (slotAccount_startResolved laneKey input hostPid room now)
      reached keeps.of_append
  rcases account.tended with settled | ⟨frame, member, -⟩
  · exact ⟨settled.leases, settled.waiters⟩
  · rw [atRest] at member
    cases member

instance (state : TaskManagerState) : DecidablePred (KeepsSlots laneKey state) := by
  intro action
  unfold KeepsSlots
  split <;> infer_instance

end Runs

/-- A task of one model. -/
def plainInput : TaskRecordInput where
  taskId := "st_00000002"
  executionMode := .inProcess
  model := "provider/first"
  resolvedModel := none
  fallbackModels := []
  pendingSteering := []

def plainChild : StartedChild := ⟨none, some "session", false⟩

/-- The child's outcome comes in while a cancel waits for its abort. -/
theorem slotsGivenBack_settledDuringAbort :
    SlotsGivenBack id (startResolved id plainInput 1 ["provider/first"] 0)
      [.resume 0 (.started plainChild), .waitFor, .cancelTask none false,
        .resume 0 (.settled .cancelled), .resume 0 .fulfilled, .resume 0 .fulfilled,
        .resume 0 .fulfilled, .resume 0 .fulfilled] :=
  slotsGivenBack_of_keepsSlots id plainInput 1 ["provider/first"] 0 _ (by decide +kernel)

/-- The child's outcome comes in behind its teardown: the cancelled task keeps its slot
and its waiter. -/
theorem not_slotsGivenBack_settledLate :
    ¬ SlotsGivenBack id (startResolved id plainInput 1 ["provider/first"] 0)
      ([.resume 0 (.started plainChild), .waitFor, .cancelTask none false,
        .resume 1 .fulfilled, .resume 1 .fulfilled, .resume 1 .fulfilled, .resume 1 .fulfilled,
        .resume 0 (.settled .cancelled)] ++ []) := by
  intro givenBack
  obtain ⟨final, reached, atRest, ended, leaked⟩ :
      ∃ final, execute (step id) (startResolved id plainInput 1 ["provider/first"] 0)
        [.resume 0 (.started plainChild), .waitFor, .cancelTask none false,
          .resume 1 .fulfilled, .resume 1 .fulfilled, .resume 1 .fulfilled, .resume 1 .fulfilled,
          .resume 0 (.settled .cancelled)] = some final ∧
        final.frames = [] ∧ final.record.status.isTerminal = true ∧ final.leases = [0] := by
    decide +kernel
  have none := (givenBack _ [] final rfl reached atRest ended).1
  rw [leaked] at none
  cases none

end TaskManagerState

end OpenAgent.Tasks
