import OpenAgent.Library.Tally
import OpenAgent.Tasks.Residency

/-!
# The residency cap

An admission promises a slot that its record takes later, and so does the selection of a
revival sweep that still owns its lease.  The counting sections see the records only.
As long as the slots already promised are left out of what a section gives away, the
residents and the promises together stay within the cap, and with them the residents.
-/

namespace OpenAgent.Tasks

open Library

variable {world after : ResidencyWorld} {session : String} {cap : Nat}

/-! ## Promised slots -/

/-- A start that was admitted and has no record yet holds a slot. -/
def ManagerCall.promised (call : ManagerCall) (session : String) : Nat :=
  if call.parentSessionId = session && call.point = .admitted then 1 else 0

/-- The claims that a sweep can still land.  Without its lease it lands only the one it
has already checked. -/
def Sweep.claimsAhead (sweep : Sweep) (owner : Bool) : Nat :=
  match sweep.point with
  | .claiming remaining => if owner then remaining.length else 0
  | .writing _ remaining => 1 + if owner then remaining.length else 0
  | .acquiring | .observing | .takingOver _ | .surveying => 0

theorem Sweep.claimsAhead_le (sweep : Sweep) (noMore : now = true → before = true) :
    sweep.claimsAhead now ≤ sweep.claimsAhead before := by
  cases now with
  | true => rw [noMore rfl]
  | false =>
    unfold Sweep.claimsAhead
    split <;> simp

namespace ResidencyWorld

def residentWeight (session : String) (_ : String) (task : SessionTask) : Nat :=
  if task.residesIn session then 1 else 0

section

variable (world : ResidencyWorld)

section

variable (session : String)

/-- The number of resident records of a session. -/
def residents : Nat :=
  tally world.records (residentWeight session)

def callWeight (_ : Nat) (call : ManagerCall) : Nat :=
  call.promised session

def sweepWeight (token : Nat) (sweep : Sweep) : Nat :=
  if sweep.parentSessionId = session then sweep.claimsAhead (world.isOwner session token) else 0

/-- The slots of a session that are promised to starts and sweeps under way. -/
def promised : Nat :=
  tally world.calls (callWeight session) + tally world.sweeps (world.sweepWeight session)

/-- A slot is neither occupied nor promised. -/
def HasRoom (cap : Nat) (session : String) : Prop :=
  world.residents session + world.promised session < cap
  deriving Decidable

def IsResident (session taskId : String) : Prop :=
  weightAt world.records (residentWeight session) taskId = 1
  deriving Decidable

/-- The session is at its cap, and the child to be evicted is not in an eviction yet. -/
def EvictsAnew (cap : Nat) (session : String) (manager : Nat) : Prop :=
  cap ≤ world.residents session ∧
    ∀ victim ∈ world.lruEvictable manager (world.residentsFor session),
      world.canClaimEviction manager victim = true
  deriving Decidable

/-- The child whose eviction a start of the session waits for. -/
def awaitedVictim (call : Nat) : Option String :=
  match mapGet world.calls call with
  | some ⟨_, parentSessionId, .evicting victim⟩ =>
    if parentSessionId = session then some victim else none
  | _ => none

/-- The record of the session that a start is about to write again. -/
def claimedTask (call : Nat) : Option String :=
  match mapGet world.calls call with
  | some ⟨_, _, .claimed taskId draft⟩ =>
    if draft.parentSessionId = session then some taskId else none
  | _ => none

/-- The sweep counts next, under a lease of the session that it still owns. -/
def surveys (token : Nat) (sweep : Sweep) : Bool :=
  sweep.point = .surveying && sweep.parentSessionId = session && world.isOwner session token

end

/-- There is room for all that a sweep may select, or nothing is promised to others. -/
def SweepFits (cap : Nat) (session : String) (sweep : Sweep) : Prop :=
  world.promised session = 0 ∨
    world.residents session + world.promised session +
      (world.revivalCandidates session sweep.excludeTaskIds).length ≤ cap
  deriving Decidable

end

/-- A step gives away no slot that is promised: an admission finds room, or evicts a
child that nobody evicts yet; the child is still resident when its eviction ends, and a
record when it is written again, unless there is room; a sweep fits beside the
promises. -/
def LeavesPromised (cap : Nat) (session : String) (world : ResidencyWorld) (label : ResidencyLabel)
    (_ : ResidencyWorld) : Prop :=
  match label with
  | .requestSlot _ manager parentSessionId => parentSessionId = session →
      world.HasRoom cap session ∨ world.EvictsAnew cap session manager
  | .evicted call _ failed => failed = false →
      ∀ victim ∈ world.awaitedVictim session call,
        world.IsResident session victim ∨ world.HasRoom cap session
  | .bookkeep call _ _ _ => ∀ taskId ∈ world.claimedTask session call,
      world.IsResident session taskId ∨ world.HasRoom cap session
  | .sweep token _ _ _ => ∀ sweep ∈ mapGet world.sweeps token,
      world.surveys session token sweep = true → world.SweepFits cap session sweep
  | _ => True

section

variable (world : ResidencyWorld)

instance : ∀ label next, Decidable (LeavesPromised cap session world label next) := by
  intro label next
  unfold LeavesPromised
  split <;> infer_instance

/-! ## The account of one session -/

/-- The maps of the world have one entry for each key. -/
structure Keyed : Prop where
  records : (world.records.map Prod.fst).Nodup
  calls : (world.calls.map Prod.fst).Nodup
  sweeps : (world.sweeps.map Prod.fst).Nodup

/-- Residents and promises are within the cap. -/
structure Accounted (cap : Nat) (session : String) (world : ResidencyWorld) : Prop where
  keyed : world.Keyed
  within : world.residents session + world.promised session ≤ cap

@[simp] theorem length_residentsFor :
    (world.residentsFor session).length = world.residents session := by
  unfold residentsFor list
  rw [((perm_stableSort _ world.records).filter _).length_eq, length_filter_eq_tally]
  rfl

end

section

variable (keyed : world.Keyed)
include keyed

theorem Keyed.writeRecord (taskId : String) (task : SessionTask) :
    (world.writeRecord taskId task).Keyed :=
  { keyed with records := nodup_keys_mapSet keyed.records taskId task }

theorem Keyed.enter (call : Nat) (entered : ManagerCall) : (world.enter call entered).Keyed :=
  { keyed with calls := nodup_keys_mapSet keyed.calls call entered }

theorem Keyed.leave (call : Nat) : (world.leave call).Keyed :=
  { keyed with calls := nodup_keys_mapDelete keyed.calls call }

theorem Keyed.goOn (token : Nat) (sweep : Sweep) : (world.goOn token sweep).Keyed :=
  { keyed with sweeps := nodup_keys_mapSet keyed.sweeps token sweep }

theorem Keyed.endSweep (token : Nat) (result : BatchAdmissionResult) :
    (world.endSweep token result).Keyed :=
  { keyed with sweeps := nodup_keys_mapDelete keyed.sweeps token }

end

section

variable (session : String) (keyed : world.Keyed)
include keyed

theorem residents_writeRecord (taskId : String) (task : SessionTask) :
    (world.writeRecord taskId task).residents session +
        weightAt world.records (residentWeight session) taskId =
      world.residents session + residentWeight session taskId task :=
  tally_mapSet keyed.records _ taskId task

theorem promised_enter (call : Nat) (entered : ManagerCall) :
    (world.enter call entered).promised session + weightAt world.calls (callWeight session) call =
      world.promised session + entered.promised session := by
  have changed := tally_mapSet keyed.calls (callWeight session) call entered
  change tally (mapSet world.calls call entered) (callWeight session) +
      tally world.sweeps (world.sweepWeight session) + _ = _
  unfold promised
  unfold callWeight at changed ⊢
  omega

theorem promised_leave (call : Nat) :
    (world.leave call).promised session + weightAt world.calls (callWeight session) call =
      world.promised session := by
  have changed := tally_mapDelete keyed.calls (callWeight session) call
  change tally (mapDelete world.calls call) (callWeight session) +
      tally world.sweeps (world.sweepWeight session) + _ = _
  unfold promised
  omega

theorem promised_goOn (token : Nat) (sweep : Sweep) :
    (world.goOn token sweep).promised session +
        weightAt world.sweeps (world.sweepWeight session) token =
      world.promised session + world.sweepWeight session token sweep := by
  have changed := tally_mapSet keyed.sweeps (world.sweepWeight session) token sweep
  change tally world.calls (callWeight session) +
      tally (mapSet world.sweeps token sweep) (world.sweepWeight session) + _ = _
  unfold promised
  omega

end

/-! ## Leases -/

/-- No other sweep of the session gets a lease that it did not have. -/
def OthersOwnNoMore (world after : ResidencyWorld) (session : String) (token : Nat) : Prop :=
  ∀ other, other ≠ token → after.isOwner session other = true → world.isOwner session other = true

theorem isOwner_writeLease (world : ResidencyWorld) :
    (world.writeLease other token now).isOwner session holder =
      if session = other then decide (token = holder) else world.isOwner session holder := by
  unfold isOwner writeLease
  rw [mapGet_mapSet]
  by_cases same : session = other
  · rw [if_pos same, if_pos same]
    rfl
  · rw [if_neg same, if_neg same]

theorem othersOwnNoMore_writeLease :
    OthersOwnNoMore world (world.writeLease other token now) session token := by
  intro holder isOther owns
  rw [isOwner_writeLease] at owns
  split at owns
  · exact absurd (of_decide_eq_true owns).symm isOther
  · exact owns

theorem othersOwnNoMore_releaseLease (token : Nat) :
    OthersOwnNoMore world (world.releaseLease other token) session token := by
  intro holder _ owns
  unfold releaseLease at owns
  split at owns
  · unfold isOwner at owns ⊢
    rw [mapGet_mapDelete] at owns
    split_ifs at owns with same
    exact owns
  · exact owns

/-- What is promised to the other sweeps does not grow. -/
theorem tally_others_le (noMore : OthersOwnNoMore world after session token) :
    tally (mapDelete world.sweeps token) (after.sweepWeight session) ≤
      tally (mapDelete world.sweeps token) (world.sweepWeight session) := by
  apply tally_le_tally
  intro entry member
  have isOther : entry.1 ≠ token := of_decide_eq_true (List.mem_filter.mp member).2
  unfold sweepWeight
  split_ifs
  · exact entry.2.claimsAhead_le (noMore entry.1 isOther)
  · exact Nat.le_refl 0

section

variable (session : String) (keyed : world.Keyed) (after : ResidencyWorld)
variable (sameCalls : after.calls = world.calls) (sameSweeps : after.sweeps = world.sweeps)
variable (token : Nat) (noMore : OthersOwnNoMore world after session token)
include keyed sameCalls sameSweeps noMore

/-- A sweep that goes on with nothing to claim, maybe with the lease. -/
theorem promised_goOn_le (sweep : Sweep) (claimsNone : ∀ owner, sweep.claimsAhead owner = 0) :
    (after.goOn token sweep).promised session ≤ world.promised session := by
  have weightless : after.sweepWeight session token sweep = 0 := by
    unfold sweepWeight
    rw [claimsNone, ite_self]
  have changed := tally_mapSet keyed.sweeps (after.sweepWeight session) token sweep
  have others := tally_mapDelete keyed.sweeps (after.sweepWeight session) token
  have before := tally_mapDelete keyed.sweeps (world.sweepWeight session) token
  have noGrowth := tally_others_le noMore
  change tally after.calls (callWeight session) +
      tally (mapSet after.sweeps token sweep) (after.sweepWeight session) ≤ _
  rw [sameCalls, sameSweeps]
  unfold promised
  omega

/-- A sweep that ends, maybe with its lease. -/
theorem promised_endSweep_le (result : BatchAdmissionResult) :
    (after.endSweep token result).promised session ≤ world.promised session := by
  have before := tally_mapDelete keyed.sweeps (world.sweepWeight session) token
  have noGrowth := tally_others_le noMore
  change tally after.calls (callWeight session) +
      tally (mapDelete after.sweeps token) (after.sweepWeight session) ≤ _
  rw [sameCalls, sameSweeps]
  unfold promised
  omega

end

/-! ## What each step does to the account -/

namespace Accounted

variable {taskId : String}

variable (accounted : Accounted cap session world)
include accounted

/-- A record that becomes no resident. -/
theorem writeRecord
    (noMore : residentWeight session taskId task ≤
      weightAt world.records (residentWeight session) taskId) :
    Accounted cap session (world.writeRecord taskId task) where
  keyed := accounted.keyed.writeRecord taskId task
  within := by
    have changed := residents_writeRecord session accounted.keyed taskId task
    have within := accounted.within
    change _ + world.promised session ≤ cap
    omega

/-- A call that gets no slot. -/
theorem enter (call : Nat) (unpromised : entered.promised session = 0) :
    Accounted cap session (world.enter call entered) where
  keyed := accounted.keyed.enter call entered
  within := by
    have changed := promised_enter session accounted.keyed call entered
    have within := accounted.within
    change world.residents session + _ ≤ cap
    omega

/-- A call that gets a slot where there is room. -/
theorem enter_of_hasRoom (call : Nat)
    (room : entered.promised session ≠ 0 → world.HasRoom cap session) :
    Accounted cap session (world.enter call entered) where
  keyed := accounted.keyed.enter call entered
  within := by
    have changed := promised_enter session accounted.keyed call entered
    have within := accounted.within
    have atMostOne : entered.promised session ≤ 1 := by
      unfold ManagerCall.promised
      split_ifs <;> omega
    change world.residents session + _ ≤ cap
    unfold HasRoom at room
    omega

theorem leave (call : Nat) : Accounted cap session (world.leave call) where
  keyed := accounted.keyed.leave call
  within := by
    have changed := promised_leave session accounted.keyed call
    have within := accounted.within
    change world.residents session + _ ≤ cap
    omega

theorem tryClaimEviction (claimed : world.tryClaimEviction manager taskId = some after) :
    Accounted cap session after := by
  unfold ResidencyWorld.tryClaimEviction at claimed
  split at claimed
  · cases claimed
    exact ⟨⟨accounted.keyed.records, accounted.keyed.calls, accounted.keyed.sweeps⟩,
      accounted.within⟩
  · cases claimed

/-- An admission up to its first wait. -/
theorem requestSlot (finite : settings.maxChildren = .children cap) (positive : 0 < cap)
    (call manager : Nat) (parentSessionId : String)
    (leaves : parentSessionId = session →
      world.HasRoom cap session ∨ world.EvictsAnew cap session manager) :
    Accounted cap session (world.requestSlot settings call manager parentSessionId) := by
  have isBounded : isUnbounded (.children cap) = false := decide_eq_false positive.ne'
  have grant : (parentSessionId = session → ¬ world.EvictsAnew cap session manager) →
      Accounted cap session (world.enter call ⟨manager, parentSessionId, .admitted⟩) := by
    intro notAnew
    apply accounted.enter_of_hasRoom
    intro isPromised
    have same : parentSessionId = session := by
      by_contra other
      exact isPromised (by simp [ManagerCall.promised, other])
    exact (leaves same).resolve_right (notAnew same)
  unfold ResidencyWorld.requestSlot admitResident
  rw [finite]
  dsimp only
  rw [isBounded, length_residentsFor]
  by_cases below : world.residents parentSessionId < cap
  · rw [decide_eq_true below]
    apply grant
    rintro rfl anew
    exact absurd below (Nat.not_lt.mpr anew.1)
  · rw [decide_eq_false below]
    cases chosen : world.lruEvictable manager (world.residentsFor parentSessionId) with
    | none => exact accounted
    | some victim =>
      cases claimed : world.tryClaimEviction manager victim with
      | none =>
        simp only [claimed, Bool.or_self, Bool.false_eq_true, if_false]
        apply grant
        rintro rfl anew
        have canClaim := anew.2 victim chosen
        simp [ResidencyWorld.tryClaimEviction, canClaim] at claimed
      | some next =>
        simp only [claimed, Bool.or_self, Bool.false_eq_true, if_false]
        exact (accounted.tryClaimEviction claimed).enter call (by simp [ManagerCall.promised])

theorem reclaim (reclaimed : world.reclaim call manager taskId cutoff = some after) :
    Accounted cap session after := by
  unfold ResidencyWorld.reclaim at reclaimed
  split at reclaimed
  next => cases reclaimed
  next task found =>
    split at reclaimed
    · obtain ⟨claimed, isClaimed, rfl⟩ := Option.map_eq_some_iff.mp reclaimed
      exact (accounted.tryClaimEviction isClaimed).enter call (by simp [ManagerCall.promised])
    · cases reclaimed

end Accounted

/-- An evicted record is no resident, and the others are as before. -/
theorem residents_recordResidency (keyed : world.Keyed) :
    (world.recordResidency taskId now).residents session +
        weightAt world.records (residentWeight session) taskId =
      world.residents session := by
  unfold recordResidency
  cases found : mapGet world.records taskId with
  | none => rw [weightAt_of_mapGet_eq_none found, Nat.add_zero]
  | some task =>
    rw [residents_writeRecord session keyed]
    have gone : ((transitionTaskRecord task.record (.evict now)).record).residencyState =
        .evicted := by
      simp [transitionTaskRecord, TaskTransition.changesOnlyResidency,
        isStatusTransitionAllowed, transitionResidency]
    simp [residentWeight, SessionTask.residesIn, gone]

theorem keyed_recordResidency (keyed : world.Keyed) : (world.recordResidency taskId now).Keyed := by
  unfold recordResidency
  split
  · exact keyed
  · exact keyed.writeRecord ..

theorem promised_recordResidency (world : ResidencyWorld) :
    (world.recordResidency taskId now).promised session = world.promised session := by
  unfold recordResidency
  split <;> rfl

/-- After its teardown a victim counts no longer, unless the teardown failed. -/
theorem residents_destroyed (session : String) (keyed : world.Keyed) (manager : Nat)
    (victim : String) (now : Nat) (failed : Bool) :
    (world.destroyed manager victim now failed).residents session +
        (if failed then 0 else weightAt world.records (residentWeight session) victim) =
      world.residents session := by
  cases failed with
  | true => rfl
  | false => exact residents_recordResidency keyed

theorem promised_destroyed (world : ResidencyWorld) (manager : Nat) (victim : String) (now : Nat)
    (failed : Bool) :
    (world.destroyed manager victim now failed).promised session = world.promised session := by
  cases failed with
  | true => rfl
  | false => exact promised_recordResidency world

theorem keyed_destroyed (keyed : world.Keyed) (manager : Nat) (victim : String) (now : Nat)
    (failed : Bool) : (world.destroyed manager victim now failed).Keyed := by
  have same : ∀ other : ResidencyWorld, other.Keyed →
      (other.releaseEviction manager victim).Keyed :=
    fun other otherKeyed => ⟨otherKeyed.records, otherKeyed.calls, otherKeyed.sweeps⟩
  cases failed with
  | true => exact same world keyed
  | false => exact same _ (keyed_recordResidency keyed)

namespace Accounted

section

variable (accounted : Accounted cap session world)
include accounted

theorem destroyed (manager : Nat) (victim : String) (now : Nat) (failed : Bool) :
    Accounted cap session (world.destroyed manager victim now failed) where
  keyed := keyed_destroyed accounted.keyed manager victim now failed
  within := by
    have gone := residents_destroyed session accounted.keyed manager victim now failed
    rw [promised_destroyed]
    have within := accounted.within
    omega

theorem evicted (ended : world.evicted call now failed = some after)
    (leaves : failed = false → ∀ victim ∈ world.awaitedVictim session call,
      world.IsResident session victim ∨ world.HasRoom cap session) :
    Accounted cap session after := by
  unfold ResidencyWorld.evicted at ended
  split at ended
  next manager parentSessionId victim found =>
    cases ended
    exact (accounted.destroyed manager victim now failed).leave call
  next manager parentSessionId victim found =>
    have torn := accounted.destroyed manager victim now failed
    cases failed with
    | true =>
      cases ended
      exact torn.leave call
    | false =>
      cases ended
      apply torn.enter_of_hasRoom
      intro isPromised
      have same : parentSessionId = session := by
        by_contra other
        exact isPromised (by simp [ManagerCall.promised, other])
      have awaited : victim ∈ world.awaitedVictim session call := by
        unfold awaitedVictim
        rw [found]
        exact Option.mem_def.mpr (if_pos same)
      have gone :=
        residents_destroyed session accounted.keyed manager victim now false
      have within := accounted.within
      unfold HasRoom
      rw [promised_destroyed]
      rcases leaves rfl victim awaited with isResident | room
      · unfold IsResident at isResident
        rw [if_neg Bool.false_ne_true] at gone
        omega
      · unfold HasRoom at room
        omega
  next => cases ended

/-- The record of a start takes the slot that was promised to it. -/
theorem create (created : world.create call input now = some after) :
    Accounted cap session after := by
  unfold ResidencyWorld.create at created
  split at created
  next manager parentSessionId found absent =>
    cases created
    refine ⟨(accounted.keyed.writeRecord ..).enter .., ?_⟩
    have written := residents_writeRecord session accounted.keyed input.taskId
      ⟨parentSessionId, createTaskRecord input manager now⟩
    have entered := promised_enter session accounted.keyed call
      ⟨manager, parentSessionId, .claimed input.taskId
        ⟨parentSessionId, createTaskRecord input manager now⟩⟩
    rw [weightAt_of_mapGet found] at entered
    have claimsNothing : ManagerCall.promised ⟨manager, parentSessionId,
        .claimed input.taskId ⟨parentSessionId, createTaskRecord input manager now⟩⟩
        session = 0 := by
      simp [ManagerCall.promised]
    have taken : residentWeight session input.taskId
        ⟨parentSessionId, createTaskRecord input manager now⟩ =
        callWeight session call ⟨manager, parentSessionId, .admitted⟩ := by
      simp [residentWeight, callWeight, ManagerCall.promised, SessionTask.residesIn,
        createTaskRecord]
    have within := accounted.within
    change (world.writeRecord input.taskId _).residents session +
      (world.enter call _).promised session ≤ cap
    omega
  next => cases created

theorem bookkeep (kept : world.bookkeep call model resolvedModel fallbackModels = some after)
    (leaves : ∀ taskId ∈ world.claimedTask session call,
      world.IsResident session taskId ∨ world.HasRoom cap session) :
    Accounted cap session after := by
  unfold ResidencyWorld.bookkeep at kept
  split at kept
  next manager parentSessionId taskId draft found =>
    cases kept
    apply leave
    generalize rewritten : ({ draft.record with
      model
      resolvedModel := resolvedModel.or draft.record.resolvedModel
      fallbackModels } : TaskRecord) = record
    refine ⟨accounted.keyed.writeRecord .., ?_⟩
    have written := residents_writeRecord session accounted.keyed taskId { draft with record }
    have within := accounted.within
    change _ + world.promised session ≤ cap
    by_cases same : draft.parentSessionId = session
    · have claimed : taskId ∈ world.claimedTask session call := by
        unfold claimedTask
        rw [found]
        exact Option.mem_def.mpr (if_pos same)
      have atMostOne : residentWeight session taskId { draft with record } ≤ 1 := by
        unfold residentWeight
        split_ifs <;> omega
      rcases leaves taskId claimed with isResident | room
      · unfold IsResident at isResident
        omega
      · unfold HasRoom at room
        omega
    · have foreign : residentWeight session taskId { draft with record } = 0 := by
        simp [residentWeight, SessionTask.residesIn, same]
      omega
  next => cases kept

/-- A change that makes no record resident. -/
theorem change (found : mapGet world.records taskId = some task)
    (noMore : next.residencyState = .resident → task.record.residencyState = .resident) :
    Accounted cap session (world.writeRecord taskId { task with record := next }) := by
  apply accounted.writeRecord
  rw [weightAt_of_mapGet found]
  unfold residentWeight SessionTask.residesIn
  by_cases isResident : next.residencyState = .resident
  · simp [isResident, noMore isResident]
  · simp [isResident]

end

variable {token : Nat}

section

variable (accounted : Accounted cap session world)
include accounted

/-- A sweep that goes on with no more claims ahead than before. -/
theorem goOn (found : mapGet world.sweeps token = some sweep)
    (noMore : world.sweepWeight session token next ≤ world.sweepWeight session token sweep) :
    Accounted cap session (world.goOn token next) where
  keyed := accounted.keyed.goOn token next
  within := by
    have changed := promised_goOn session accounted.keyed token next
    rw [weightAt_of_mapGet found] at changed
    have within := accounted.within
    change world.residents session + _ ≤ cap
    omega

/-- A sweep that waits for the lease has nothing to claim. -/
theorem goOn_waiting (token : Nat) (claimsNone : ∀ owner, next.claimsAhead owner = 0) :
    Accounted cap session (world.goOn token next) where
  keyed := accounted.keyed.goOn token next
  within := by
    have noMore := promised_goOn_le session accounted.keyed world rfl rfl token
      (fun _ _ owns => owns) next claimsNone
    have within := accounted.within
    change world.residents session + _ ≤ cap
    omega

/-- A sweep that has got the lease has counted nothing yet. -/
theorem acquire (token now : Nat) (sweep : Sweep) :
    Accounted cap session ((world.writeLease sweep.parentSessionId token now).goOn token
      { sweep with point := .surveying }) where
  keyed := ⟨accounted.keyed.records, accounted.keyed.calls,
    nodup_keys_mapSet accounted.keyed.sweeps _ _⟩
  within := by
    have noMore := promised_goOn_le session accounted.keyed
      (world.writeLease sweep.parentSessionId token now) rfl rfl token
      othersOwnNoMore_writeLease
      { sweep with point := .surveying } (fun _ => rfl)
    have within := accounted.within
    change world.residents session + _ ≤ cap
    omega

end

variable {sweep : Sweep}

section

variable (accounted : Accounted cap session world)
include accounted

/-- A renewal changes nothing but the time of the lease. -/
theorem renew (owns : world.isOwner sweep.parentSessionId token = true) (now : Nat) :
    Accounted cap session (world.writeLease sweep.parentSessionId token now) where
  keyed := ⟨accounted.keyed.records, accounted.keyed.calls, accounted.keyed.sweeps⟩
  within := by
    have noMore : tally world.sweeps
        ((world.writeLease sweep.parentSessionId token now).sweepWeight session) ≤
          tally world.sweeps (world.sweepWeight session) := by
      apply tally_le_tally
      intro entry _
      unfold sweepWeight
      split_ifs
      · apply entry.2.claimsAhead_le
        intro stillOwns
        rw [isOwner_writeLease] at stillOwns
        split_ifs at stillOwns with same
        · rw [same, ← of_decide_eq_true stillOwns]
          exact owns
        · exact stillOwns
      · exact Nat.le_refl 0
    have within := accounted.within
    change world.residents session + (tally world.calls (callWeight session) + tally world.sweeps
      ((world.writeLease sweep.parentSessionId token now).sweepWeight session)) ≤ cap
    unfold promised at within
    omega

theorem endSweep (sameRecords : after.records = world.records)
    (sameCalls : after.calls = world.calls) (sameSweeps : after.sweeps = world.sweeps)
    (noMore : OthersOwnNoMore world after session token) (result : BatchAdmissionResult) :
    Accounted cap session (after.endSweep token result) where
  keyed := by
    refine Keyed.endSweep ⟨?_, ?_, ?_⟩ token result
    · exact sameRecords ▸ accounted.keyed.records
    · exact sameCalls ▸ accounted.keyed.calls
    · exact sameSweeps ▸ accounted.keyed.sweeps
  within := by
    have promises :=
      promised_endSweep_le session accounted.keyed after sameCalls sameSweeps token noMore result
    have within := accounted.within
    change tally after.records (residentWeight session) + _ ≤ cap
    rw [sameRecords]
    exact Nat.le_trans (Nat.add_le_add_left promises _) within

theorem retry (token : Nat) (sweep : Sweep) (timedOut : Bool) :
    Accounted cap session (world.retry token sweep timedOut) := by
  cases timedOut with
  | true => exact accounted.endSweep rfl rfl rfl (fun _ _ owns => owns) _
  | false => exact accounted.goOn_waiting token fun _ => rfl

end

variable {settings : ResidencySettings}

variable (accounted : Accounted cap session world)
include accounted

/-- The selection of a sweep fits beside what is promised. -/
theorem survey (finite : settings.maxChildren = .children cap) (positive : 0 < cap)
    (surveying : sweep.point = .surveying)
    (leaves : world.surveys session token sweep = true → world.SweepFits cap session sweep)
    (isCandidates : candidates =
      byRevivalPriority (world.revivalCandidates sweep.parentSessionId sweep.excludeTaskIds))
    (overflow : List String) :
    Accounted cap session (world.goOn token { sweep with
      point := .claiming ((candidates.take
        (world.available settings sweep.parentSessionId candidates)).map Prod.fst)
      overflow }) where
  keyed := accounted.keyed.goOn token _
  within := by
    have changed := promised_goOn session accounted.keyed token { sweep with
      point := .claiming ((candidates.take
        (world.available settings sweep.parentSessionId candidates)).map Prod.fst)
      overflow }
    have within := accounted.within
    change world.residents session + _ ≤ cap
    by_cases surveys : world.surveys session token sweep = true
    · have same : sweep.parentSessionId = session := by
        simp only [ResidencyWorld.surveys, Bool.and_eq_true, decide_eq_true_eq] at surveys
        exact surveys.1.2
      have owns : world.isOwner session token = true := by
        simp only [ResidencyWorld.surveys, Bool.and_eq_true] at surveys
        exact surveys.2
      have isBounded : isUnbounded (.children cap) = false := decide_eq_false positive.ne'
      have isAvailable : world.available settings session candidates =
          cap - world.residents session := by
        unfold available
        rw [finite]
        rw [isBounded, length_residentsFor]
        rfl
      have count : candidates.length =
          (world.revivalCandidates session sweep.excludeTaskIds).length := by
        rw [isCandidates, same]
        exact (perm_stableSort _ _).length_eq
      have selected : world.sweepWeight session token { sweep with
          point := .claiming ((candidates.take
            (world.available settings sweep.parentSessionId candidates)).map Prod.fst)
          overflow } =
          min (cap - world.residents session)
            (world.revivalCandidates session sweep.excludeTaskIds).length := by
        unfold sweepWeight
        rw [owns, same, isAvailable, ← count]
        simp [Sweep.claimsAhead]
      rcases leaves surveys with nothingPromised | fits
      · omega
      · omega
    · have unpromised : world.sweepWeight session token { sweep with
          point := .claiming ((candidates.take
            (world.available settings sweep.parentSessionId candidates)).map Prod.fst)
          overflow } = 0 := by
        unfold sweepWeight
        split_ifs with same
        · have disowned : sweep.parentSessionId = session →
              world.isOwner session token = false := by
            simpa [ResidencyWorld.surveys, surveying] using surveys
          rw [disowned same]
          rfl
        · rfl
      omega

/-- A claim that lands takes a slot that was promised to its sweep. -/
theorem claim (found : mapGet world.sweeps token = some sweep)
    (writing : sweep.point = .writing taskId remaining)
    (claimed : world.claimResidencySlot sweep.manager sweep.parentSessionId taskId now = some after)
    (outcome : BatchAdmissionOutcome) :
    Accounted cap session (after.goOn token (sweep.report outcome remaining)) := by
  unfold claimResidencySlot at claimed
  split at claimed
  next => cases claimed
  next task isTask =>
    split at claimed
    next revivable =>
      cases claimed
      refine ⟨(accounted.keyed.writeRecord ..).goOn .., ?_⟩
      generalize rewritten : ({ task.record with
        residencyState := .resident
        hostPid := some sweep.manager
        updatedAt := now } : TaskRecord) = record
      have written := residents_writeRecord session accounted.keyed taskId { task with record }
      have went := promised_goOn session accounted.keyed token (sweep.report outcome remaining)
      rw [weightAt_of_mapGet found] at went
      have within := accounted.within
      change (world.writeRecord taskId { task with record }).residents session +
        (world.goOn token _).promised session ≤ cap
      have isParent : task.parentSessionId = sweep.parentSessionId := by
        simp only [SessionTask.revivableIn, Bool.and_eq_true, decide_eq_true_eq] at revivable
        exact revivable.1.1.1
      by_cases same : sweep.parentSessionId = session
      · have takes : residentWeight session taskId { task with record } ≤ 1 := by
          unfold residentWeight
          split_ifs <;> omega
        have oneLess : world.sweepWeight session token (sweep.report outcome remaining) + 1 =
            world.sweepWeight session token sweep := by
          unfold sweepWeight
          rw [if_pos same, if_pos (show (sweep.report outcome remaining).parentSessionId = session
            from same)]
          simp only [Sweep.claimsAhead, writing]
          exact Nat.add_comm _ _
        omega
      · have foreign : residentWeight session taskId { task with record } = 0 := by
          simp [residentWeight, SessionTask.residesIn, isParent, same]
        have none : world.sweepWeight session token (sweep.report outcome remaining) = 0 :=
          if_neg same
        omega
    next => cases claimed

variable (finite : settings.maxChildren = .children cap)
include finite

/-- One step of a sweep. -/
theorem proceed (positive : 0 < cap) (found : mapGet world.sweeps token = some sweep) (now : Nat)
    (contended timedOut : Bool)
    (leaves : world.surveys session token sweep = true → world.SweepFits cap session sweep) :
    Accounted cap session (world.proceed settings token now contended timedOut sweep) := by
  unfold ResidencyWorld.proceed
  cases point : sweep.point with
  | acquiring =>
    dsimp only
    split
    · exact accounted.acquire token now sweep
    · exact accounted.goOn_waiting token fun _ => rfl
  | observing =>
    dsimp only
    split
    · exact accounted.goOn_waiting token fun _ => rfl
    · split
      · exact accounted.goOn_waiting token fun _ => rfl
      · exact accounted.retry token sweep timedOut
  | takingOver observed =>
    dsimp only
    split
    · exact accounted.acquire token now sweep
    · exact accounted.retry token sweep timedOut
  | surveying => exact accounted.survey finite positive point leaves rfl _
  | claiming remaining =>
    cases remaining with
    | nil =>
      cases contended with
      | true => exact accounted.endSweep rfl rfl rfl (fun _ _ owns => owns) _
      | false =>
        have released : ∀ other : ResidencyWorld,
            other = world.releaseLease sweep.parentSessionId token →
            other.records = world.records ∧ other.calls = world.calls ∧
              other.sweeps = world.sweeps := by
          rintro other rfl
          unfold releaseLease
          split <;> exact ⟨rfl, rfl, rfl⟩
        obtain ⟨sameRecords, sameCalls, sameSweeps⟩ := released _ rfl
        exact accounted.endSweep sameRecords sameCalls sameSweeps
          (othersOwnNoMore_releaseLease token) _
    | cons taskId remaining =>
      dsimp only
      split
      next owns =>
        apply accounted.goOn found
        unfold sweepWeight
        split_ifs with same
        · rw [← same, owns]
          simp [Sweep.claimsAhead, point, Nat.add_comm]
        · exact Nat.le_refl 0
      next disowned =>
        apply accounted.goOn found
        unfold sweepWeight
        change (if sweep.parentSessionId = session then _ else 0) ≤ _
        split_ifs with same
        · rw [← same, Bool.not_eq_true _ |>.mp disowned]
          exact Nat.zero_le _
        · exact Nat.le_refl 0
  | writing taskId remaining =>
    have passed : ∀ outcome, Accounted cap session
        (world.goOn token (sweep.report outcome remaining)) := by
      intro outcome
      apply accounted.goOn found
      unfold sweepWeight
      change (if sweep.parentSessionId = session then _ else 0) ≤ _
      split_ifs
      · simp [Sweep.report, Sweep.claimsAhead, point]
      · exact Nat.le_refl 0
    cases contended with
    | true => exact passed _
    | false =>
      cases claimed : world.claimResidencySlot sweep.manager sweep.parentSessionId taskId now
        with
      | none =>
        simp only [claimed]
        exact passed _
      | some next =>
        simp only [claimed]
        exact accounted.claim found point claimed _

/-- The step lemma: a step that gives away no promised slot keeps the account. -/
theorem step (positive : 0 < cap) (leaves : LeavesPromised cap session world label after)
    (stepped : ResidencyWorld.step settings world label = some after) :
    Accounted cap session after := by
  revert leaves stepped
  fun_cases ResidencyWorld.step settings world label <;> intro leaves stepped
  case case3 => exact accounted.reclaim stepped
  case case5 => exact accounted.evicted stepped leaves
  case case6 => exact accounted.create stepped
  case case7 => exact accounted.bookkeep stepped leaves
  case case16 token now contended timedOut =>
    obtain ⟨sweep, found, rfl⟩ := Option.map_eq_some_iff.mp stepped
    exact accounted.proceed finite positive found now contended timedOut
      (leaves sweep (Option.mem_def.mpr found))
  all_goals cases stepped
  case case1 call manager parentSessionId _ =>
    exact accounted.requestSlot finite positive call manager parentSessionId leaves
  case case8 call => exact accounted.leave call
  case case10 | case11 | case12 =>
    exact ⟨⟨accounted.keyed.records, accounted.keyed.calls, accounted.keyed.sweeps⟩,
      accounted.within⟩
  case case14 token _ _ _ _ _ => exact accounted.goOn_waiting token fun _ => rfl
  case case18 token now sweep _ owns => exact accounted.renew owns now
  case case20 token =>
    have ended := accounted.endSweep rfl rfl rfl
      (fun other _ owns => owns : OthersOwnNoMore world world session token) ⟨.acquired, []⟩
    exact ⟨⟨ended.keyed.records, ended.keyed.calls, ended.keyed.sweeps⟩, ended.within⟩
  case case23 task found allowed =>
    apply accounted.change found
    intro isResident
    by_contra notResident
    exact allowed (by simp [isResident, notResident])
  case case24 taskId =>
    have removed := tally_mapDelete accounted.keyed.records (residentWeight session) taskId
    refine ⟨⟨nodup_keys_mapDelete accounted.keyed.records taskId, accounted.keyed.calls,
      accounted.keyed.sweeps⟩, ?_⟩
    have within := accounted.within
    change tally (mapDelete world.records taskId) (residentWeight session) +
      world.promised session ≤ cap
    unfold residents at within
    omega

end Accounted

/-! ## Runs -/

/-- No call and no sweep is under way. -/
structure AtRest (world : ResidencyWorld) : Prop where
  records : (world.records.map Prod.fst).Nodup
  calls : world.calls = []
  sweeps : world.sweeps = []

theorem AtRest.accounted (atRest : world.AtRest)
    (initially : (world.residentsFor session).length ≤ cap) : Accounted cap session world where
  keyed := {
    records := atRest.records
    calls := by
      rw [atRest.calls]
      exact List.nodup_nil
    sweeps := by
      rw [atRest.sweeps]
      exact List.nodup_nil }
  within := by
    rw [length_residentsFor] at initially
    have nothing : world.promised session = 0 := by
      unfold promised
      rw [atRest.calls, atRest.sweeps]
      rfl
    omega

/-- Whatever happens, the residents of the session stay within the cap. -/
def KeepsCap (settings : ResidencySettings) (cap : Nat) (session : String) : Prop :=
  ∀ (initial final : ResidencyWorld) (labels : List ResidencyLabel), initial.AtRest →
    (initial.residentsFor session).length ≤ cap →
      execute (step settings) initial labels = some final →
        (final.residentsFor session).length ≤ cap

/-- A session that is within its cap stays there, in every run none of whose steps gives
away a slot that is promised. -/
theorem residents_le_of_leavesPromised {settings : ResidencySettings} {cap : Nat} {session : String}
    {initial final : ResidencyWorld} {labels : List ResidencyLabel}
    (finite : settings.maxChildren = .children cap) (positive : 0 < cap) (atRest : initial.AtRest)
    (initially : (initial.residentsFor session).length ≤ cap)
    (leaves : EveryStep (step settings) (LeavesPromised cap session) initial labels)
    (reached : execute (step settings) initial labels = some final) :
    (final.residentsFor session).length ≤ cap := by
  have preserved : ∀ before label next, Accounted cap session before →
      LeavesPromised cap session before label next →
        step settings before label = some next → Accounted cap session next :=
    fun _ _ _ holds condition stepped => holds.step finite positive condition stepped
  have accounted := invariant_of_execute preserved (atRest.accounted initially) reached leaves
  have within := accounted.within
  rw [length_residentsFor]
  omega

/-! ## One slot and two starts -/

def oneChild : ResidencySettings where
  maxChildren := .children 1
  staleMs := 3000

def nothingStored : ResidencyWorld where
  records := []
  evicting := []
  sends := []
  steeringPending := []
  calls := []
  leases := []
  sweeps := []
  returned := []

theorem atRest_nothingStored : nothingStored.AtRest :=
  ⟨List.nodup_nil, rfl, rfl⟩

def childInput (taskId : String) : TaskRecordInput where
  taskId
  executionMode := .inProcess
  model := "m"
  resolvedModel := none
  fallbackModels := []
  pendingSteering := []

/-- The second start asks before the first one has created its record. -/
def bothAdmitted : List ResidencyLabel :=
  [.requestSlot 0 0 "s", .requestSlot 1 0 "s", .create 0 (childInput "a") 1, .create 1 (childInput "b") 1]

theorem not_keepsCap_bothAdmitted : ¬ KeepsCap oneChild 1 "s" := by
  intro keeps
  have reached : ∃ final, execute (step oneChild) nothingStored bothAdmitted = some final ∧
      final.residents "s" = 2 :=
    ⟨_, rfl, by decide⟩
  obtain ⟨final, isFinal, both⟩ := reached
  have within := keeps nothingStored final bothAdmitted atRest_nothingStored (by decide) isFinal
  rw [length_residentsFor, both] at within
  cases within with
  | step impossible => cases impossible

/-- The first child ends, and the second one takes its place. -/
def takesPlace : List ResidencyLabel :=
  [.requestSlot 0 0 "s", .create 0 (childInput "a") 1, .bookkeep 0 "m" none [],
    .change "a" { createTaskRecord (childInput "a") 0 1 with status := .completed },
    .requestSlot 1 0 "s", .evicted 1 2 false, .create 1 (childInput "b") 3]

theorem residents_le_of_leavesPromised_takesPlace :
    ∃ final, execute (step oneChild) nothingStored takesPlace = some final ∧
      (final.residentsFor "s").length ≤ 1 := by
  have reached : ∃ final, execute (step oneChild) nothingStored takesPlace = some final :=
    ⟨_, rfl⟩
  obtain ⟨final, isFinal⟩ := reached
  have leaves : EveryStep (step oneChild) (LeavesPromised 1 "s") nothingStored takesPlace := by
    decide
  exact ⟨final, isFinal, residents_le_of_leavesPromised rfl (Nat.zero_lt_one)
    atRest_nothingStored (by decide) leaves isFinal⟩

end ResidencyWorld
end OpenAgent.Tasks
