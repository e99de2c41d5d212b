import OpenAgent.Tasks.TaskConcurrency

/-!
# The accounts of the concurrency allocator

The count of a lane is about the leases with a finite limit, and yet each lease that is
dropped takes one off it.  So the accounts are right as long as the models of one lane
agree on their limit, and a configuration in which they do not agree has a run that
gets them wrong, unless the global limit hides the difference.
-/

namespace OpenAgent.Tasks

open Library

/-! ## The limits of one lane -/

/-- Two models that share a lane have the same limit, or no two leases live at once, or
both limits are finite and the global one is reached first. -/
def TaskConcurrencyConfig.LimitsAgree (config : TaskConcurrencyConfig) : Prop :=
  ∀ model other, config.getKey model = config.getKey other →
    config.getLimit model = config.getLimit other ∨
      config.globalLimit = some 1 ∨
        ∃ limit modelLimit otherLimit, config.globalLimit = some limit ∧
          config.getLimit model = some modelLimit ∧
          config.getLimit other = some otherLimit ∧
          limit ≤ modelLimit ∧ limit ≤ otherLimit

theorem positiveLimit_pos (isLimit : positiveLimit configured = some limit) : 0 < limit := by
  unfold positiveLimit at isLimit
  split at isLimit
  next => cases isLimit
  next positive =>
    cases isLimit
    exact Nat.pos_of_ne_zero positive

theorem TaskConcurrencyConfig.getLimit_pos {config : TaskConcurrencyConfig}
    (isLimit : config.getLimit model = some limit) : 0 < limit := by
  unfold getLimit at isLimit
  split at isLimit
  next => exact positiveLimit_pos isLimit
  next =>
    split at isLimit
    next => exact positiveLimit_pos isLimit
    next => exact positiveLimit_pos isLimit

theorem TaskConcurrencyConfig.globalLimit_pos {config : TaskConcurrencyConfig}
    (isLimit : config.globalLimit = some limit) : 0 < limit := by
  obtain ⟨configured, -, isPositive⟩ := Option.bind_eq_some_iff.mp isLimit
  exact positiveLimit_pos isPositive

theorem below_eq_true_iff :
    below count limit = true ↔ ∀ bound, limit = some bound → count < bound := by
  cases limit <;> simp [below]

namespace TaskConcurrency

/-! ## What the parts of the allocator hold -/

/-- How many live leases pass a test. -/
def leaseCount (state : TaskConcurrency) (test : Lease → Bool) : Nat :=
  state.leases.countP fun entry => test entry.2

def inLane (laneKey : String) (lease : Lease) : Bool :=
  lease.laneKey = laneKey

section

variable (config : TaskConcurrencyConfig)

/-- The leases of a lane that have a finite limit. -/
def countedIn (laneKey : String) (lease : Lease) : Bool :=
  lease.laneKey = laneKey ∧ (config.getLimit lease.model).isSome

variable (state : TaskConcurrency)

/-- The leases stand under their own keys and in the lanes of their models, at most as
many as the global limit, and each lane counts those with a finite limit. -/
structure LeaseAccount : Prop where
  unique : (state.leases.map Prod.fst).Nodup
  filed : ∀ entry ∈ state.leases, entry.1 = leaseKeyOf entry.2.taskId entry.2.runEpoch
  lanes : ∀ entry ∈ state.leases, entry.2.laneKey = config.getKey entry.2.model
  within : ∀ limit, config.globalLimit = some limit → state.leases.length ≤ limit
  counted : ∀ laneKey, state.getCount laneKey = state.leaseCount (countedIn config laneKey)

/-- The queues are not empty, and their waiters stand in the lanes of their models. -/
structure QueueAccount : Prop where
  unique : (state.queues.map Prod.fst).Nodup
  nonempty : ∀ entry ∈ state.queues, entry.2 ≠ []
  lanes : ∀ entry ∈ state.queues, ∀ waiter ∈ entry.2,
    waiter.laneKey = entry.1 ∧ waiter.laneKey = config.getKey waiter.model

def queueOf (laneKey : String) : List Waiter :=
  (mapGet state.queues laneKey).getD []

/-- The waiters of all lanes. -/
def waiting : List Waiter :=
  state.queues.flatMap Prod.snd

/-- The waiters of the other lanes. -/
def elsewhere (laneKey : String) : List Waiter :=
  (mapDelete state.queues laneKey).flatMap Prod.snd

variable (waiter : Waiter)

def IsHead : Prop :=
  ∃ entry ∈ state.queues, entry.2.head? = some waiter

/-- The lane of a waiter and the whole allocator have room for it. -/
def HasRoom : Prop :=
  state.laneHasRoom config waiter.model waiter.laneKey = true ∧
    state.globalHasRoom config = true

/-- The waiter that waits longest of the heads that have room. -/
def OldestHead : Prop :=
  state.IsHead waiter ∧ state.HasRoom config waiter ∧
    ∀ other, state.IsHead other → state.HasRoom config other → waiter.sequence ≤ other.sequence

end

/-! ## Leases that come and go -/

variable {config : TaskConcurrencyConfig}

theorem leases_recordLease
    (isNew : leaseKeyOf lease.taskId lease.runEpoch ∉ state.leases.map Prod.fst) :
    (recordLease config lease state).leases =
      state.leases ++ [(leaseKeyOf lease.taskId lease.runEpoch, lease)] :=
  if_neg isNew

theorem leaseCount_recordLease
    (isNew : leaseKeyOf lease.taskId lease.runEpoch ∉ state.leases.map Prod.fst)
    (test : Lease → Bool) :
    (recordLease config lease state).leaseCount test =
      state.leaseCount test + if test lease then 1 else 0 := by
  rw [leaseCount, leases_recordLease isNew, List.countP_append, List.countP_singleton]
  rfl

theorem getCount_recordLease (laneKey : String) :
    (recordLease config lease state).getCount laneKey =
      state.getCount laneKey + if countedIn config laneKey lease then 1 else 0 := by
  cases isLimit : config.getLimit lease.model with
  | none => simp [getCount, recordLease, countedIn, isLimit]
  | some limit =>
    by_cases same : laneKey = lease.laneKey
    · subst same
      simp [getCount, recordLease, countedIn, isLimit, mapGet_mapSet]
    · have differs : ¬ lease.laneKey = laneKey := fun equal => same equal.symm
      simp [getCount, recordLease, countedIn, isLimit, mapGet_mapSet, same, differs]

theorem LeaseAccount.recordLease (account : LeaseAccount config state)
    (isNew : leaseKeyOf lease.taskId lease.runEpoch ∉ state.leases.map Prod.fst)
    (inOwnLane : lease.laneKey = config.getKey lease.model)
    (room : state.globalHasRoom config = true) :
    LeaseAccount config (recordLease config lease state) where
  unique := nodup_keys_mapSet account.unique _ _
  filed := by
    intro entry member
    rcases eq_or_mem_of_mem_mapSet member with rfl | isOld
    · rfl
    · exact account.filed entry isOld
  lanes := by
    intro entry member
    rcases eq_or_mem_of_mem_mapSet member with rfl | isOld
    · exact inOwnLane
    · exact account.lanes entry isOld
  within := by
    intro limit isLimit
    rw [leases_recordLease isNew, List.length_append]
    exact below_eq_true_iff.mp room limit isLimit
  counted := by
    intro laneKey
    rw [getCount_recordLease, leaseCount_recordLease isNew, account.counted laneKey]

theorem getCount_dropLease : (dropLease lease state).getCount laneKey =
      state.getCount laneKey - if lease.laneKey = laneKey then 1 else 0 := by
  by_cases same : laneKey = lease.laneKey
  · subst same
    by_cases last : state.getCount lease.laneKey ≤ 1
    · have gone : (dropLease lease state).getCount lease.laneKey = 0 := by
        rw [getCount, dropLease, if_pos last, mapGet_mapDelete, if_pos rfl, Option.getD_none]
      rw [if_pos rfl]
      omega
    · have fewer : (dropLease lease state).getCount lease.laneKey =
          state.getCount lease.laneKey - 1 := by
        rw [getCount, dropLease, if_neg last, mapGet_mapSet, if_pos rfl, Option.getD_some]
      rw [fewer, if_pos rfl]
  · have differs : ¬ lease.laneKey = laneKey := fun equal => same equal.symm
    unfold dropLease
    split
    next => simp [getCount, mapGet_mapDelete, same]
    next => simp [getCount, mapGet_mapSet, same]

theorem leaseCount_dropLease (account : LeaseAccount config state)
    (isLive : mapGet state.leases (leaseKeyOf taskId runEpoch) = some lease) (test : Lease → Bool) :
    state.leaseCount test =
      (dropLease lease state).leaseCount test + if test lease then 1 else 0 := by
  have member := mem_of_mapGet isLive
  have ownKey : leaseKeyOf taskId runEpoch = leaseKeyOf lease.taskId lease.runEpoch :=
    account.filed _ member
  have split := perm_cons_mapDelete account.unique member
  rw [leaseCount, split.countP_eq, List.countP_cons, ownKey]
  rfl

/-- Another lease of a lane in which a finite lease stands has a finite limit, unless
only one lease can live. -/
theorem LeaseAccount.finite_of_finite {lease other : Lease} (agree : config.LimitsAgree)
    (sameLane : config.getKey lease.model = config.getKey other.model)
    (finite : (config.getLimit lease.model).isSome = true) :
    (config.getLimit other.model).isSome = true ∨ config.globalLimit = some 1 := by
  rcases agree lease.model other.model sameLane with
    equal | one | ⟨limit, modelLimit, otherLimit, -, -, isLimit, -⟩
  · exact Or.inl (equal ▸ finite)
  · exact Or.inr one
  · exact Or.inl (by rw [isLimit]; rfl)

section

variable (account : LeaseAccount config state) (agree : config.LimitsAgree)
include account agree

section

variable (isLive : mapGet state.leases (leaseKeyOf taskId runEpoch) = some lease)
include isLive

/-- The lease that is dropped is counted, or its lane counts nothing. -/
theorem LeaseAccount.counted_dropLease (laneKey : String) :
    (dropLease lease state).getCount laneKey =
      (dropLease lease state).leaseCount (countedIn config laneKey) := by
  have before := account.counted laneKey
  have split := leaseCount_dropLease account isLive (countedIn config laneKey)
  rw [getCount_dropLease, before, split]
  by_cases isCounted : countedIn config laneKey lease = true
  · have isLane : lease.laneKey = laneKey := (of_decide_eq_true isCounted).1
    rw [if_pos isCounted, if_pos isLane, Nat.add_sub_cancel]
  · rw [if_neg isCounted, Nat.add_zero]
    by_cases isLane : lease.laneKey = laneKey
    · -- An unbounded lease stands alone, or with none that its lane counts.
      have nothing : (dropLease lease state).leaseCount (countedIn config laneKey) = 0 := by
        rw [leaseCount, List.countP_eq_zero]
        intro entry member entryCounted
        obtain ⟨entryLane, entryFinite⟩ := of_decide_eq_true entryCounted
        have isEntry : entry ∈ state.leases := (List.mem_filter.mp member).1
        have sameLane : config.getKey entry.2.model = config.getKey lease.model := by
          rw [← account.lanes entry isEntry, ← account.lanes _ (mem_of_mapGet isLive), entryLane,
            isLane]
        rcases finite_of_finite agree sameLane entryFinite with finite | one
        · exact isCounted (decide_eq_true ⟨isLane, finite⟩)
        · have few := account.within 1 one
          have split := (perm_cons_mapDelete account.unique (mem_of_mapGet isLive)).length_eq
          have ownKey : leaseKeyOf taskId runEpoch = leaseKeyOf lease.taskId lease.runEpoch :=
            account.filed _ (mem_of_mapGet isLive)
          have positive : 0 < (mapDelete state.leases (leaseKeyOf taskId runEpoch)).length := by
            rw [ownKey]
            exact List.length_pos_of_mem member
          rw [List.length_cons] at split
          omega
      rw [nothing, Nat.zero_sub]
    · rw [if_neg isLane, Nat.sub_zero]

theorem LeaseAccount.dropLease :
    LeaseAccount config (dropLease lease state) where
  unique := nodup_keys_mapDelete account.unique _
  filed := fun entry member => account.filed entry (List.mem_filter.mp member).1
  lanes := fun entry member => account.lanes entry (List.mem_filter.mp member).1
  within := fun limit isLimit =>
    (List.length_filter_le _ _).trans (account.within limit isLimit)
  counted := account.counted_dropLease agree isLive

end

theorem LeaseAccount.inLane_recordLease_le
    (isNew : leaseKeyOf lease.taskId lease.runEpoch ∉ state.leases.map Prod.fst)
    (inOwnLane : lease.laneKey = config.getKey lease.model)
    (laneRoom : state.laneHasRoom config lease.model lease.laneKey = true)
    (globalRoom : state.globalHasRoom config = true)
    (isLimit : config.getLimit lease.model = some limit) :
    (TaskConcurrency.recordLease config lease state).leaseCount (inLane lease.laneKey) ≤ limit := by
  have underLimit := below_eq_true_iff.mp laneRoom limit isLimit
  rw [account.counted] at underLimit
  have allCounted : state.leaseCount (inLane lease.laneKey) ≤
      state.leaseCount (countedIn config lease.laneKey) := by
    apply List.countP_mono_left
    intro entry member entryInLane
    have entryLane : entry.2.laneKey = lease.laneKey := of_decide_eq_true entryInLane
    have sameLane : config.getKey lease.model = config.getKey entry.2.model := by
      rw [← account.lanes entry member, entryLane, inOwnLane]
    rcases finite_of_finite agree sameLane (by rw [isLimit]; rfl) with finite | one
    · exact decide_eq_true ⟨entryLane, finite⟩
    · have none := below_eq_true_iff.mp globalRoom 1 one
      have positive := List.length_pos_of_mem member
      omega
  have alone : inLane lease.laneKey lease = true := decide_eq_true rfl
  rw [leaseCount_recordLease isNew, if_pos alone]
  omega

end

/-! ## Queues -/

theorem waiting_perm (account : QueueAccount config state) :
    state.waiting.Perm (state.queueOf laneKey ++ state.elsewhere laneKey) := by
  unfold waiting queueOf elsewhere
  cases found : mapGet state.queues laneKey with
  | none => rw [mapDelete_of_mapGet_eq_none found, Option.getD_none, List.nil_append]
  | some queue =>
    have split := perm_cons_mapDelete account.unique (mem_of_mapGet found)
    exact (split.flatMap_right Prod.snd).trans (List.Perm.of_eq List.flatMap_cons)

theorem waiting_setQueue (account : QueueAccount config state) (laneKey : String)
    (queue : List Waiter) :
    (setQueue laneKey queue state).waiting.Perm (queue ++ state.elsewhere laneKey) := by
  cases queue with
  | nil => exact List.Perm.refl _
  | cons waiter queue =>
    have split := perm_mapSet account.unique laneKey (waiter :: queue)
    exact (split.flatMap_right Prod.snd).trans (List.Perm.of_eq List.flatMap_cons)

theorem queueOf_setQueue (laneKey other : String) :
    (setQueue laneKey queue state).queueOf other =
      if other = laneKey then queue else state.queueOf other := by
  unfold queueOf setQueue
  cases queue with
  | nil =>
    simp only [List.isEmpty_nil, if_true, mapGet_mapDelete]
    by_cases same : other = laneKey <;> simp [same]
  | cons waiter queue =>
    simp only [List.isEmpty_cons, Bool.false_eq_true, if_false, mapGet_mapSet]
    by_cases same : other = laneKey <;> simp [same]

theorem QueueAccount.setQueue (account : QueueAccount config state)
    (lanes : ∀ waiter ∈ queue,
      waiter.laneKey = laneKey ∧ waiter.laneKey = config.getKey waiter.model) :
    QueueAccount config (setQueue laneKey queue state) := by
  cases queue with
  | nil => exact {
      unique := nodup_keys_mapDelete account.unique _
      nonempty := fun entry member => account.nonempty entry (List.mem_filter.mp member).1
      lanes := fun entry member => account.lanes entry (List.mem_filter.mp member).1 }
  | cons waiter queue => exact {
      unique := nodup_keys_mapSet account.unique _ _
      nonempty := by
        intro entry member
        rcases eq_or_mem_of_mem_mapSet member with rfl | isOld
        · exact List.cons_ne_nil waiter queue
        · exact account.nonempty entry isOld
      lanes := by
        intro entry member
        rcases eq_or_mem_of_mem_mapSet member with rfl | isOld
        · exact lanes
        · exact account.lanes entry isOld }

theorem QueueAccount.of_queues (account : QueueAccount config state)
    (sameQueues : next.queues = state.queues) : QueueAccount config next where
  unique := by
    rw [sameQueues]
    exact account.unique
  nonempty := by
    rw [sameQueues]
    exact account.nonempty
  lanes := by
    rw [sameQueues]
    exact account.lanes

section

variable (account : QueueAccount config state)
include account

theorem QueueAccount.lanes_queueOf (member : waiter ∈ state.queueOf laneKey) :
    waiter.laneKey = laneKey ∧ waiter.laneKey = config.getKey waiter.model := by
  unfold queueOf at member
  cases found : mapGet state.queues laneKey with
  | none =>
    rw [found] at member
    cases member
  | some queue =>
    rw [found] at member
    exact account.lanes _ (mem_of_mapGet found) waiter member

theorem QueueAccount.queueOf_eq (member : entry ∈ state.queues) :
    state.queueOf entry.1 = entry.2 := by
  rw [queueOf, mapGet_of_mem account.unique member, Option.getD_some]

theorem QueueAccount.head (isHead : state.IsHead waiter) :
    state.queueOf waiter.laneKey = waiter :: (state.queueOf waiter.laneKey).tail := by
  obtain ⟨entry, member, isFirst⟩ := isHead
  obtain ⟨rest, isQueue⟩ := List.head?_eq_some_iff.mp isFirst
  have ownLane := (account.lanes entry member waiter (by rw [isQueue]; exact List.mem_cons_self)).1
  rw [ownLane, account.queueOf_eq member, isQueue, List.tail_cons]

/-! ## The dispatch loop -/

theorem QueueAccount.mem_eligibleHeads :
    waiter ∈ state.eligibleHeads config ↔
      state.IsHead waiter ∧ state.laneHasRoom config waiter.model waiter.laneKey = true := by
  rw [eligibleHeads, List.mem_filterMap]
  constructor
  · rintro ⟨entry, member, isSelected⟩
    obtain ⟨isFirst, room⟩ := Option.filter_eq_some_iff.mp isSelected
    have inQueue := List.mem_of_head? isFirst
    exact ⟨⟨entry, member, isFirst⟩, by rwa [(account.lanes entry member waiter inQueue).1]⟩
  · rintro ⟨⟨entry, member, isFirst⟩, room⟩
    have inQueue := List.mem_of_head? isFirst
    refine ⟨entry, member, Option.filter_eq_some_iff.mpr ⟨isFirst, ?_⟩⟩
    rwa [← (account.lanes entry member waiter inQueue).1]

theorem QueueAccount.dispatchRound_eq (room : state.globalHasRoom config = true) :
    state.dispatchRound config =
      match (state.eligibleHeads config).argmin Waiter.sequence with
      | none => (none, state)
      | some selected => (some selected, grant config selected state) := by
  have keepsAll : (state.queues.filter fun entry => !entry.2.isEmpty) = state.queues := by
    apply List.filter_eq_self.mpr
    intro entry member
    simp [account.nonempty entry member]
  have pruned : { state with queues := state.queues.filter fun entry => !entry.2.isEmpty } =
      state := by
    rw [keepsAll]
  cases heads : (state.eligibleHeads config).argmin Waiter.sequence <;>
    simp [dispatchRound, room, pruned, heads]

/-- A round ends the loop where no head has room, or lets the oldest one that has room
in. -/
theorem QueueAccount.dispatchRound_cases :
    state.dispatchRound config = (none, state) ∧
        (∀ waiter, state.IsHead waiter → ¬ state.HasRoom config waiter) ∨
      ∃ waiter, state.dispatchRound config = (some waiter, grant config waiter state) ∧
        state.OldestHead config waiter := by
  by_cases room : state.globalHasRoom config = true
  · rw [account.dispatchRound_eq room]
    cases selection : (state.eligibleHeads config).argmin Waiter.sequence with
    | none =>
      left
      refine ⟨rfl, fun waiter isHead hasRoom => ?_⟩
      have eligible := account.mem_eligibleHeads.mpr ⟨isHead, hasRoom.1⟩
      rw [List.argmin_eq_none.mp selection] at eligible
      cases eligible
    | some waiter =>
      right
      refine ⟨waiter, rfl, ?_⟩
      obtain ⟨isHead, laneRoom⟩ :=
        account.mem_eligibleHeads.mp (List.argmin_mem (Option.mem_def.mpr selection))
      refine ⟨isHead, ⟨laneRoom, room⟩, fun other otherHead otherRoom => ?_⟩
      exact List.le_of_mem_argmin
        (account.mem_eligibleHeads.mpr ⟨otherHead, otherRoom.1⟩) (Option.mem_def.mpr selection)
  · left
    rw [dispatchRound, if_pos (by simpa using room)]
    exact ⟨rfl, fun waiter _ hasRoom => room hasRoom.2⟩

end

theorem LeaseAccount.no_room_behind (leaseAccount : LeaseAccount config state)
    (account : QueueAccount config state) (agree : config.LimitsAgree)
    (noHead : ∀ waiter, state.IsHead waiter → ¬ state.HasRoom config waiter)
    (isWaiting : waiter ∈ state.waiting) : ¬ state.HasRoom config waiter := by
  rintro ⟨laneRoom, globalRoom⟩
  obtain ⟨entry, member, inQueue⟩ := List.mem_flatMap.mp isWaiting
  obtain ⟨head, rest, isQueue⟩ := List.exists_cons_of_ne_nil (account.nonempty entry member)
  obtain ⟨headLane, headKey⟩ :=
    account.lanes entry member head (by rw [isQueue]; exact List.mem_cons_self)
  obtain ⟨waiterLane, waiterKey⟩ := account.lanes entry member waiter inQueue
  apply noHead head ⟨entry, member, by rw [isQueue, List.head?_cons]⟩
  refine ⟨below_eq_true_iff.mpr fun headLimit isHeadLimit => ?_, globalRoom⟩
  have fewCounted : state.getCount entry.1 ≤ state.leases.length := by
    rw [leaseAccount.counted]
    exact List.countP_le_length
  rw [headLane]
  rcases agree head.model waiter.model (by rw [← headKey, ← waiterKey, headLane, waiterLane]) with
    equal | one | ⟨limit, modelLimit, otherLimit, isGlobal, isModel, -, reached, -⟩
  · have underLimit := below_eq_true_iff.mp laneRoom headLimit (equal ▸ isHeadLimit)
    rwa [waiterLane] at underLimit
  · have none := below_eq_true_iff.mp globalRoom 1 one
    have positive := TaskConcurrencyConfig.getLimit_pos isHeadLimit
    omega
  · have underLimit := below_eq_true_iff.mp globalRoom limit isGlobal
    have sameLimit : modelLimit = headLimit := Option.some.inj (isModel.symm.trans isHeadLimit)
    omega

end TaskConcurrency

namespace Allocation

variable {state : Allocation}

/-! ## What a run of calls keeps -/

/-- The keys of the live leases and of the waiters. -/
def heldKeys (state : Allocation) : List (String × Nat) :=
  state.allocator.leases.map Prod.fst ++
    state.allocator.waiting.map fun waiter => leaseKeyOf waiter.taskId waiter.runEpoch

/-- All who waited in a lane and did not give up, the granted ones in front. -/
def line (state : Allocation) (laneKey : String) : List Waiter :=
  state.grants.filter (·.laneKey = laneKey) ++ state.allocator.queueOf laneKey

/-- The accounts of the allocator are right, no key is held twice, and each lane is
served in the order in which it was joined. -/
structure Accounted (config : TaskConcurrencyConfig) (state : Allocation) : Prop where
  leases : state.allocator.LeaseAccount config
  queues : state.allocator.QueueAccount config
  distinct : state.heldKeys.Nodup
  introduced : ∀ key ∈ state.heldKeys, key ∈ state.introduced
  ordered : ∀ laneKey, (state.line laneKey).Pairwise (·.sequence < ·.sequence)
  fresh : ∀ laneKey, ∀ waiter ∈ state.line laneKey,
    waiter.sequence < state.allocator.enqueueSequence

theorem accounted_empty : Accounted config empty where
  leases := {
    unique := List.nodup_nil
    filed := nofun
    lanes := nofun
    within := fun _ _ => Nat.zero_le _
    counted := fun _ => rfl }
  queues := ⟨List.nodup_nil, nofun, nofun⟩
  distinct := List.nodup_nil
  introduced := nofun
  ordered := fun _ => List.Pairwise.nil
  fresh := nofun

/-- Keys that are given up. -/
theorem Accounted.of_sublist (accounted : Accounted config state)
    (leases : next.allocator.LeaseAccount config) (queues : next.allocator.QueueAccount config)
    (keys : next.heldKeys.Subperm state.heldKeys)
    (sameIntroduced : next.introduced = state.introduced)
    (lines : ∀ laneKey, (next.line laneKey).Sublist (state.line laneKey))
    (sameSequence : next.allocator.enqueueSequence = state.allocator.enqueueSequence) :
    Accounted config next where
  leases := leases
  queues := queues
  distinct := by
    obtain ⟨kept, permuted, sublist⟩ := keys
    exact permuted.nodup_iff.mp (accounted.distinct.sublist sublist)
  introduced := by
    rw [sameIntroduced]
    exact fun key member => accounted.introduced key (keys.subset member)
  ordered := fun laneKey => (accounted.ordered laneKey).sublist (lines laneKey)
  fresh := by
    rw [sameSequence]
    exact fun laneKey waiter member =>
      accounted.fresh laneKey waiter ((lines laneKey).subset member)

/-- A key that was not introduced before is free. -/
theorem Accounted.free_of_once (accounted : Accounted config state)
    (once : (state.introduced ++ [key]).Nodup) : key ∉ state.heldKeys := by
  intro held
  have apart := (List.nodup_append.mp once).2.2
  exact apart key (accounted.introduced key held) key List.mem_cons_self rfl

/-- The state behind a lease that was taken. -/
def acquired (config : TaskConcurrencyConfig) (lease : Lease) (state : Allocation) : Allocation :=
  { state with
    allocator := state.allocator.recordLease config lease
    introduced := state.introduced ++ [leaseKeyOf lease.taskId lease.runEpoch] }

theorem Accounted.of_acquired (accounted : Accounted config state)
    (once : (state.introduced ++ [leaseKeyOf lease.taskId lease.runEpoch]).Nodup)
    (inOwnLane : lease.laneKey = config.getKey lease.model)
    (room : state.allocator.globalHasRoom config = true) :
    Accounted config (state.acquired config lease) := by
  have free := accounted.free_of_once once
  have isNew : leaseKeyOf lease.taskId lease.runEpoch ∉ state.allocator.leases.map Prod.fst :=
    fun member => free (List.mem_append_left _ member)
  have keys : (state.acquired config lease).heldKeys.Perm
      (leaseKeyOf lease.taskId lease.runEpoch :: state.heldKeys) := by
    unfold heldKeys
    rw [acquired, TaskConcurrency.leases_recordLease isNew, List.map_append, List.append_assoc]
    exact List.perm_middle
  exact {
    leases := accounted.leases.recordLease isNew inOwnLane room
    queues := ⟨accounted.queues.unique, accounted.queues.nonempty, accounted.queues.lanes⟩
    distinct := keys.nodup_iff.mpr (List.nodup_cons.mpr ⟨free, accounted.distinct⟩)
    introduced := by
      intro key member
      apply List.mem_append.mpr
      rcases List.mem_cons.mp (keys.mem_iff.mp member) with rfl | isOld
      · exact Or.inr List.mem_cons_self
      · exact Or.inl (accounted.introduced key isOld)
    ordered := accounted.ordered
    fresh := accounted.fresh }

theorem heldKeys_perm_setQueue (next : Allocation) (account : state.allocator.QueueAccount config)
    (laneKey : String) (queue : List Waiter)
    (sameLeases : next.allocator.leases = state.allocator.leases)
    (queues : next.allocator.queues = (state.allocator.setQueue laneKey queue).queues) :
    next.heldKeys.Perm (state.allocator.leases.map Prod.fst ++
        (queue ++ state.allocator.elsewhere laneKey).map
          fun waiter => leaseKeyOf waiter.taskId waiter.runEpoch) := by
  unfold heldKeys TaskConcurrency.waiting
  rw [sameLeases, queues]
  exact ((TaskConcurrency.waiting_setQueue account laneKey queue).map _).append_left _

theorem heldKeys_perm (account : state.allocator.QueueAccount config) (laneKey : String) :
    state.heldKeys.Perm (state.allocator.leases.map Prod.fst ++
        (state.allocator.queueOf laneKey ++ state.allocator.elsewhere laneKey).map
          fun waiter => leaseKeyOf waiter.taskId waiter.runEpoch) :=
  ((TaskConcurrency.waiting_perm account).map _).append_left _

/-- The waiter that an enqueue appends. -/
def waiterOf (config : TaskConcurrencyConfig) (model taskId : String) (runEpoch : Nat)
    (state : Allocation) : Waiter :=
  ⟨model, config.getKey model, taskId, runEpoch, state.allocator.enqueueSequence⟩

/-- The state behind an enqueue. -/
def enqueued (config : TaskConcurrencyConfig) (model taskId : String) (runEpoch : Nat)
    (state : Allocation) : Allocation :=
  { state with
    allocator := state.allocator.enqueue config model taskId runEpoch
    introduced := state.introduced ++ [leaseKeyOf taskId runEpoch] }

theorem queues_enqueue : (state.allocator.enqueue config model taskId runEpoch).queues =
      (state.allocator.setQueue (config.getKey model)
        (state.allocator.queueOf (config.getKey model) ++
          [state.waiterOf config model taskId runEpoch])).queues := by
  simp [TaskConcurrency.enqueue, TaskConcurrency.setQueue, TaskConcurrency.queueOf, waiterOf]

theorem line_enqueued (laneKey : String) :
    (state.enqueued config model taskId runEpoch).line laneKey = state.line laneKey ++
        if laneKey = config.getKey model then [state.waiterOf config model taskId runEpoch]
        else [] := by
  have queues : (state.enqueued config model taskId runEpoch).allocator.queueOf laneKey =
      (state.allocator.setQueue (config.getKey model)
        (state.allocator.queueOf (config.getKey model) ++
          [state.waiterOf config model taskId runEpoch])).queueOf laneKey :=
    congrArg (fun queues => (mapGet queues laneKey).getD []) queues_enqueue
  rw [line, queues, TaskConcurrency.queueOf_setQueue]
  by_cases same : laneKey = config.getKey model
  · rw [if_pos same, if_pos same, same, ← List.append_assoc]
    rfl
  · rw [if_neg same, if_neg same, List.append_nil]
    rfl

section

variable (accounted : Accounted config state)
include accounted

theorem Accounted.of_enqueued (once : (state.introduced ++ [leaseKeyOf taskId runEpoch]).Nodup) :
    Accounted config (state.enqueued config model taskId runEpoch) := by
  have free := accounted.free_of_once once
  have keys : (state.enqueued config model taskId runEpoch).heldKeys.Perm
      (leaseKeyOf taskId runEpoch :: state.heldKeys) := by
    have here := heldKeys_perm accounted.queues (config.getKey model)
    have behind := heldKeys_perm_setQueue (state.enqueued config model taskId runEpoch)
      accounted.queues (config.getKey model) _ rfl queues_enqueue
    refine behind.trans (List.Perm.trans ?_ (here.symm.cons _))
    rw [List.map_append, List.map_append, List.map_append]
    simp only [List.append_assoc]
    refine List.Perm.trans (List.Perm.append_left _ List.perm_middle) List.perm_middle
  have lanes : ∀ waiter ∈ state.allocator.queueOf (config.getKey model) ++
      [state.waiterOf config model taskId runEpoch],
      waiter.laneKey = config.getKey model ∧ waiter.laneKey = config.getKey waiter.model :=
    forall_mem_concat (fun _ => accounted.queues.lanes_queueOf) ⟨rfl, rfl⟩
  exact {
    leases := ⟨accounted.leases.unique, accounted.leases.filed, accounted.leases.lanes,
      accounted.leases.within, accounted.leases.counted⟩
    queues := (accounted.queues.setQueue lanes).of_queues queues_enqueue
    distinct := keys.nodup_iff.mpr (List.nodup_cons.mpr ⟨free, accounted.distinct⟩)
    introduced := by
      intro key member
      apply List.mem_append.mpr
      rcases List.mem_cons.mp (keys.mem_iff.mp member) with rfl | isOld
      · exact Or.inr List.mem_cons_self
      · exact Or.inl (accounted.introduced key isOld)
    ordered := by
      intro laneKey
      rw [line_enqueued]
      split
      next =>
        refine List.pairwise_append.mpr ⟨accounted.ordered laneKey, List.pairwise_singleton _ _, ?_⟩
        intro waiter member last isLast
        rw [List.mem_singleton.mp isLast]
        exact accounted.fresh laneKey waiter member
      next =>
        rw [List.append_nil]
        exact accounted.ordered laneKey
    fresh := by
      intro laneKey waiter member
      rw [line_enqueued] at member
      rcases List.mem_append.mp member with isOld | isNew
      · exact Nat.lt_succ_of_lt (accounted.fresh laneKey waiter isOld)
      · split at isNew
        next =>
          rw [List.mem_singleton.mp isNew]
          exact Nat.lt_succ_self _
        next => cases isNew }

/-- Waiters that leave one queue. -/
theorem Accounted.of_setQueue (laneKey : String)
    (shorter : queue.Sublist (state.allocator.queueOf laneKey))
    (isNext : next = { state with allocator := state.allocator.setQueue laneKey queue }) :
    Accounted config next := by
  subst isNext
  refine accounted.of_sublist
    ⟨accounted.leases.unique, accounted.leases.filed, accounted.leases.lanes,
      accounted.leases.within, accounted.leases.counted⟩
    (accounted.queues.setQueue fun waiter member =>
      accounted.queues.lanes_queueOf (shorter.subset member)) ?_ rfl ?_ rfl
  · have behind := heldKeys_perm_setQueue
      { state with allocator := state.allocator.setQueue laneKey queue }
      accounted.queues laneKey queue rfl rfl
    have shorterKeys := (((shorter.append_right (state.allocator.elsewhere laneKey)).map
      fun waiter => leaseKeyOf waiter.taskId waiter.runEpoch).append_left
        (state.allocator.leases.map Prod.fst)).subperm
    exact behind.subperm.trans
      (shorterKeys.trans (heldKeys_perm accounted.queues laneKey).symm.subperm)
  · intro other
    unfold line
    rw [TaskConcurrency.queueOf_setQueue]
    apply List.Sublist.append_left
    split
    next same => rwa [same]
    next => exact List.Sublist.refl _

/-- A lease that is given back. -/
theorem Accounted.of_dropLease (agree : config.LimitsAgree)
    (isLive : mapGet state.allocator.leases (leaseKeyOf taskId runEpoch) = some lease) :
    Accounted config { state with allocator := state.allocator.dropLease lease } := by
  refine accounted.of_sublist (accounted.leases.dropLease agree isLive)
    (accounted.queues.of_queues rfl) ?_ rfl (fun _ => List.Sublist.refl _) rfl
  exact ((List.filter_sublist.map Prod.fst).append_right _).subperm

end

/-- The state behind a grant. -/
def granted (config : TaskConcurrencyConfig) (outer : Nat) (waiter : Waiter)
    (state : Allocation) : Allocation :=
  { state with
    allocator := state.allocator.grant config waiter
    loops := outer + 1
    grants := state.grants ++ [waiter] }

theorem line_granted (account : state.allocator.QueueAccount config) (outer : Nat)
    (isHead : state.allocator.IsHead waiter) (laneKey : String) :
    (state.granted config outer waiter).line laneKey = state.line laneKey := by
  have isQueue := account.head isHead
  have queues : (state.granted config outer waiter).allocator.queueOf laneKey =
      (state.allocator.setQueue waiter.laneKey
        (state.allocator.queueOf waiter.laneKey).tail).queueOf laneKey := rfl
  rw [line, line, queues, TaskConcurrency.queueOf_setQueue, granted, List.filter_append]
  by_cases same : laneKey = waiter.laneKey
  · subst same
    rw [if_pos rfl, List.filter_cons_of_pos (by simp), List.filter_nil,
      List.append_assoc, List.singleton_append, ← isQueue]
  · rw [if_neg same, List.filter_cons_of_neg (by simpa using Ne.symm same), List.filter_nil,
      List.append_nil]

section

variable (accounted : Accounted config state)
include accounted

theorem Accounted.of_tail (laneKey : String) :
    Accounted config
      { state with
        allocator := state.allocator.setQueue laneKey (state.allocator.queueOf laneKey).tail } :=
  accounted.of_setQueue laneKey (List.tail_sublist _) rfl

theorem Accounted.free_of_head (isHead : state.allocator.IsHead waiter) :
    leaseKeyOf waiter.taskId waiter.runEpoch ∉ state.allocator.leases.map Prod.fst := by
  intro isLeased
  have before := heldKeys_perm accounted.queues waiter.laneKey
  rw [accounted.queues.head isHead] at before
  have apart := (List.nodup_append.mp (before.nodup_iff.mp accounted.distinct)).2.2
  exact apart _ isLeased _ List.mem_cons_self rfl

theorem Accounted.lane_of_head (isHead : state.allocator.IsHead waiter) :
    waiter.laneKey = config.getKey waiter.model := by
  obtain ⟨entry, member, isFirst⟩ := isHead
  exact (accounted.queues.lanes entry member waiter (List.mem_of_head? isFirst)).2

theorem Accounted.of_granted (outer : Nat) (oldest : state.allocator.OldestHead config waiter) :
    Accounted config (state.granted config outer waiter) := by
  obtain ⟨isHead, ⟨-, globalRoom⟩, -⟩ := oldest
  have popped := accounted.of_tail waiter.laneKey
  have isNew := accounted.free_of_head isHead
  have keys : (state.granted config outer waiter).heldKeys.Perm state.heldKeys := by
    have leases : (state.granted config outer waiter).allocator.leases = state.allocator.leases ++
          [(leaseKeyOf waiter.taskId waiter.runEpoch, TaskConcurrency.leaseOf waiter)] :=
      if_neg isNew
    have waiting := TaskConcurrency.waiting_setQueue accounted.queues waiter.laneKey
      (state.allocator.queueOf waiter.laneKey).tail
    have before := heldKeys_perm accounted.queues waiter.laneKey
    rw [accounted.queues.head isHead] at before
    refine List.Perm.trans ?_ before.symm
    unfold heldKeys
    rw [leases, List.map_append, List.append_assoc]
    exact ((waiting.map _).cons _).append_left _
  exact {
    leases := popped.leases.recordLease isNew (accounted.lane_of_head isHead) globalRoom
    queues := popped.queues.of_queues rfl
    distinct := keys.nodup_iff.mpr accounted.distinct
    introduced := fun key member => accounted.introduced key (keys.mem_iff.mp member)
    ordered := by
      intro laneKey
      rw [line_granted accounted.queues outer isHead]
      exact accounted.ordered laneKey
    fresh := by
      intro laneKey other member
      rw [line_granted accounted.queues outer isHead] at member
      exact accounted.fresh laneKey other member }

end

/-! ## What each call does -/

/-- Each key is acquired or enqueued at most once. -/
def Once (_ : Allocation) (_ : ConcurrencyCall) (after : Allocation) : Prop :=
  after.introduced.Nodup

/-- The dispatch loop of this call is over. -/
def LoopEnds (before : Allocation) (call : ConcurrencyCall) (after : Allocation) : Prop :=
  match call with
  | .releaseLease _ _ =>
    (before.beforeDispatch call).isSome = true ∧ after.loops = before.loops
  | .grantReturns => after.loops < before.loops
  | _ => False

/-- What is promised of one call: live leases keep to the global limit, the lane of a
lease just taken keeps to the limit of its model, counts are right, waiters of one lane
are granted in order and each of them was the oldest head with room, and a release
leaves no waiter that has room. -/
structure Sound (config : TaskConcurrencyConfig) (before : Allocation) (call : ConcurrencyCall)
    (after : Allocation) : Prop where
  within : ∀ limit, config.globalLimit = some limit → after.allocator.leases.length ≤ limit
  granted : ∀ entry ∈ after.allocator.leases, entry ∉ before.allocator.leases →
    ∀ limit, config.getLimit entry.2.model = some limit → after.allocator.leaseCount
        (TaskConcurrency.inLane (config.getKey entry.2.model)) ≤ limit
  counted : ∀ laneKey, after.allocator.getCount laneKey =
    after.allocator.leaseCount (TaskConcurrency.countedIn config laneKey)
  ordered : ∀ laneKey,
    (after.grants.filter (·.laneKey = laneKey)).Pairwise (·.sequence < ·.sequence)
  oldest : ∀ waiter, after.grants = before.grants ++ [waiter] →
    ∃ searched, before.beforeDispatch call = some searched ∧
      searched.allocator.OldestHead config waiter
  settled : before.LoopEnds call after → ∀ waiter ∈ after.allocator.waiting,
    ¬ after.allocator.HasRoom config waiter

theorem tryAcquire_cases (allocator : TaskConcurrency) :
    allocator.tryAcquire config model taskId runEpoch = (false, allocator) ∨
      allocator.tryAcquire config model taskId runEpoch =
          (true, allocator.recordLease config ⟨model, config.getKey model, taskId, runEpoch⟩) ∧
        allocator.laneHasRoom config model (config.getKey model) = true ∧
        allocator.globalHasRoom config = true := by
  unfold TaskConcurrency.tryAcquire
  by_cases isLeased : (mapGet allocator.leases (leaseKeyOf taskId runEpoch)).isSome = true
  · exact Or.inl (if_pos isLeased)
  · by_cases isQueued : (mapGet allocator.queues (config.getKey model)).isSome = true
    · exact Or.inl (by simp [isQueued])
    · by_cases laneRoom : allocator.laneHasRoom config model (config.getKey model) = true
      · by_cases globalRoom : allocator.globalHasRoom config = true
        · exact Or.inr ⟨by simp [isLeased, isQueued, laneRoom, globalRoom], laneRoom, globalRoom⟩
        · exact Or.inl (by simp [globalRoom])
      · exact Or.inl (by simp [laneRoom])

theorem step_tryAcquire_cases
    (stepped : step config state (.tryAcquire model taskId runEpoch) = some next) :
    next = state ∨
      next = state.acquired config ⟨model, config.getKey model, taskId, runEpoch⟩ ∧
        state.allocator.laneHasRoom config model (config.getKey model) = true ∧
        state.allocator.globalHasRoom config = true := by
  rcases tryAcquire_cases state.allocator with
    refused | ⟨taken, laneRoom, globalRoom⟩
  · simp only [step] at stepped
    rw [refused] at stepped
    exact Or.inl (Option.some.inj stepped).symm
  · simp only [step] at stepped
    rw [taken] at stepped
    exact Or.inr ⟨(Option.some.inj stepped).symm, laneRoom, globalRoom⟩

theorem step_remove_cases (stepped : step config state (.remove model taskId) = some next) :
    ∃ queue, queue.Sublist (state.allocator.queueOf (config.getKey model)) ∧ (next = state ∨
        next = { state with
          allocator := state.allocator.setQueue (config.getKey model) queue }) := by
  unfold step TaskConcurrency.remove at stepped
  cases found : mapGet state.allocator.queues (config.getKey model) with
  | none =>
    simp only [found] at stepped
    exact ⟨[], List.nil_sublist _, Or.inl (Option.some.inj stepped).symm⟩
  | some queue =>
    have isQueue : state.allocator.queueOf (config.getKey model) = queue := by
      rw [TaskConcurrency.queueOf, found, Option.getD_some]
    simp only [found] at stepped
    refine ⟨queue.eraseP (·.taskId = taskId), isQueue ▸ List.eraseP_sublist, ?_⟩
    split at stepped
    next => exact Or.inr (Option.some.inj stepped).symm
    next => exact Or.inl (Option.some.inj stepped).symm

theorem dispatch_cases (account : state.allocator.QueueAccount config) :
    dispatch config outer state = { state with loops := outer } ∧
        (∀ waiter, state.allocator.IsHead waiter → ¬ state.allocator.HasRoom config waiter) ∨
      ∃ waiter, dispatch config outer state = state.granted config outer waiter ∧
        state.allocator.OldestHead config waiter := by
  unfold dispatch
  rcases account.dispatchRound_cases with ⟨ended, noHead⟩ | ⟨waiter, selected, oldest⟩
  · rw [ended]
    exact Or.inl ⟨rfl, noHead⟩
  · rw [selected]
    exact Or.inr ⟨waiter, rfl, oldest⟩

theorem step_dispatching (stepped : step config state call = some next)
    (searches : state.beforeDispatch call = some searched) :
    ∃ outer, next = dispatch config outer searched ∧
      (state.LoopEnds call next → next.loops = outer) := by
  cases call with
  | releaseLease taskId runEpoch =>
    simp only [step, searches] at stepped
    exact ⟨state.loops, (Option.some.inj stepped).symm, fun ends => ends.2⟩
  | grantReturns =>
    cases searches
    simp only [step] at stepped
    split at stepped
    next => cases stepped
    next running =>
      have isNext := (Option.some.inj stepped).symm
      refine ⟨state.loops - 1, isNext, fun ends => ?_⟩
      have fewer : next.loops < state.loops := ends
      unfold dispatch at isNext
      split at isNext
      next => rw [isNext]
      next =>
        rw [isNext] at fewer
        dsimp only at fewer
        omega
  | tryAcquire model taskId runEpoch | enqueue model taskId runEpoch | remove model taskId =>
    cases searches

/-- A call that grants nobody and whose loop does not end is sound where the accounts
are right and a new lease found room. -/
theorem Sound.of_quiet (accounted : Accounted config next) (sameGrants : next.grants = state.grants)
    (granted : ∀ entry ∈ next.allocator.leases, entry ∉ state.allocator.leases →
      ∀ limit, config.getLimit entry.2.model = some limit →
        next.allocator.leaseCount (TaskConcurrency.inLane (config.getKey entry.2.model)) ≤ limit)
    (runsOn : ¬ state.LoopEnds call next) : Sound config state call next where
  within := accounted.leases.within
  granted := granted
  counted := accounted.leases.counted
  ordered := fun laneKey => (accounted.ordered laneKey).sublist (List.sublist_append_left _ _)
  oldest := by
    intro waiter isGrant
    rw [sameGrants, List.self_eq_append_right] at isGrant
    cases isGrant
  settled := fun ends => absurd ends runsOn

/-- A round of a dispatch loop keeps the accounts, and what it does is sound. -/
theorem sound_dispatch (agree : config.LimitsAgree) (accounted : Accounted config searched)
    (searches : state.beforeDispatch call = some searched)
    (sameGrants : searched.grants = state.grants)
    (fewer : ∀ entry ∈ searched.allocator.leases, entry ∈ state.allocator.leases)
    (ends : state.LoopEnds call (dispatch config outer searched) →
      (dispatch config outer searched).loops = outer) :
    Sound config state call (dispatch config outer searched) ∧
      Accounted config (dispatch config outer searched) := by
  rcases dispatch_cases accounted.queues with ⟨ended, noHead⟩ | ⟨waiter, isGrant, oldest⟩
  · rw [ended]
    have kept : Accounted config { searched with loops := outer } :=
      ⟨accounted.leases, accounted.queues, accounted.distinct, accounted.introduced,
        accounted.ordered, accounted.fresh⟩
    refine ⟨?_, kept⟩
    exact {
      within := kept.leases.within
      granted := fun entry member isNew => absurd (fewer entry member) isNew
      counted := kept.leases.counted
      ordered := fun laneKey =>
        (kept.ordered laneKey).sublist (List.sublist_append_left _ _)
      oldest := by
        intro waiter isGrant
        have noGrant : searched.grants = state.grants ++ [waiter] := isGrant
        rw [sameGrants, List.self_eq_append_right] at noGrant
        cases noGrant
      settled := fun _ waiter member =>
        accounted.leases.no_room_behind accounted.queues agree noHead member }
  · rw [isGrant] at ends ⊢
    have kept := accounted.of_granted outer oldest
    have isHead := oldest.1
    have isNew := accounted.free_of_head isHead
    refine ⟨?_, kept⟩
    exact {
      within := kept.leases.within
      granted := by
        intro entry member isNewEntry limit isLimit
        have leases : (searched.granted config outer waiter).allocator.leases =
            searched.allocator.leases ++
              [(leaseKeyOf waiter.taskId waiter.runEpoch, TaskConcurrency.leaseOf waiter)] :=
          if_neg isNew
        rw [leases, List.mem_append, List.mem_singleton] at member
        rcases member with isOld | rfl
        · exact absurd (fewer entry isOld) isNewEntry
        · have inOwnLane := accounted.lane_of_head isHead
          have roomBehind : (searched.allocator.setQueue waiter.laneKey
              (searched.allocator.queueOf waiter.laneKey).tail).laneHasRoom config
                (TaskConcurrency.leaseOf waiter).model
                (TaskConcurrency.leaseOf waiter).laneKey = true := oldest.2.1.1
          have underLimit := (accounted.of_tail waiter.laneKey).leases.inLane_recordLease_le
            agree isNew inOwnLane roomBehind oldest.2.1.2 isLimit
          exact inOwnLane ▸ underLimit
      counted := kept.leases.counted
      ordered := fun laneKey =>
        (kept.ordered laneKey).sublist (List.sublist_append_left _ _)
      oldest := by
        intro other isOther
        have sameWaiter : searched.grants ++ [waiter] = state.grants ++ [other] := isOther
        rw [sameGrants] at sameWaiter
        have same := List.append_cancel_left sameWaiter
        cases same
        exact ⟨searched, searches, oldest⟩
      settled := fun ended => absurd (ends ended) (Nat.succ_ne_self outer) }

theorem sound_acquired (agree : config.LimitsAgree) (accounted : Accounted config state)
    (once : (state.introduced ++ [leaseKeyOf lease.taskId lease.runEpoch]).Nodup)
    (inOwnLane : lease.laneKey = config.getKey lease.model)
    (laneRoom : state.allocator.laneHasRoom config lease.model lease.laneKey = true)
    (globalRoom : state.allocator.globalHasRoom config = true)
    (runsOn : ¬ state.LoopEnds call (state.acquired config lease)) :
    Sound config state call (state.acquired config lease) := by
  have isNew : leaseKeyOf lease.taskId lease.runEpoch ∉ state.allocator.leases.map Prod.fst :=
    fun member => accounted.free_of_once once (List.mem_append_left _ member)
  refine .of_quiet (accounted.of_acquired once inOwnLane globalRoom) rfl ?_ runsOn
  intro entry member isNewEntry limit isLimit
  rcases eq_or_mem_of_mem_mapSet member with rfl | isOld
  · have underLimit := accounted.leases.inLane_recordLease_le agree isNew inOwnLane laneRoom
      globalRoom isLimit
    exact inOwnLane ▸ underLimit
  · exact absurd isOld isNewEntry

/-- Where the limits agree, each call does what is promised and keeps the accounts. -/
theorem sound_of_step (agree : config.LimitsAgree) (accounted : Accounted config state)
    (once : next.introduced.Nodup) (stepped : step config state call = some next) :
    Sound config state call next ∧ Accounted config next := by
  have nothingNew : ∀ entry ∈ state.allocator.leases, entry ∉ state.allocator.leases →
      ∀ limit, config.getLimit entry.2.model = some limit → state.allocator.leaseCount
          (TaskConcurrency.inLane (config.getKey entry.2.model)) ≤ limit :=
    fun entry member isNew => absurd member isNew
  cases call with
  | tryAcquire model taskId runEpoch =>
    rcases step_tryAcquire_cases stepped with rfl | ⟨rfl, laneRoom, globalRoom⟩
    · exact ⟨.of_quiet accounted rfl nothingNew id, accounted⟩
    · exact ⟨sound_acquired agree accounted once rfl laneRoom globalRoom id,
        accounted.of_acquired once rfl globalRoom⟩
  | enqueue model taskId runEpoch =>
    cases stepped
    have kept : Accounted config (state.enqueued config model taskId runEpoch) :=
      accounted.of_enqueued once
    exact ⟨.of_quiet kept rfl nothingNew id, kept⟩
  | remove model taskId =>
    obtain ⟨queue, shorter, rfl | isNext⟩ := step_remove_cases stepped
    · exact ⟨.of_quiet accounted rfl nothingNew id, accounted⟩
    · have kept := accounted.of_setQueue (config.getKey model) shorter isNext
      subst isNext
      exact ⟨.of_quiet kept rfl nothingNew id, kept⟩
  | releaseLease taskId runEpoch =>
    cases found : mapGet state.allocator.leases (leaseKeyOf taskId runEpoch) with
    | none =>
      have noSearch : state.beforeDispatch (.releaseLease taskId runEpoch) = none := by
        rw [beforeDispatch, found, Option.map_none]
      simp only [step, noSearch] at stepped
      cases stepped
      refine ⟨.of_quiet accounted rfl nothingNew ?_, accounted⟩
      rintro ⟨searches, -⟩
      rw [noSearch] at searches
      cases searches
    | some lease =>
      have searches : state.beforeDispatch (.releaseLease taskId runEpoch) =
          some { state with allocator := state.allocator.dropLease lease } := by
        rw [beforeDispatch, found, Option.map_some]
      obtain ⟨outer, rfl, ends⟩ := step_dispatching stepped searches
      exact sound_dispatch agree (accounted.of_dropLease agree found) searches rfl
        (fun entry member => (List.mem_filter.mp member).1) ends
  | grantReturns =>
    have searches : state.beforeDispatch .grantReturns = some state := rfl
    obtain ⟨outer, rfl, ends⟩ := step_dispatching stepped searches
    exact sound_dispatch agree accounted searches rfl (fun entry member => member) ends

/-! ## Limits that do not agree -/

theorem step_tryAcquire_of_room
    (free : leaseKeyOf taskId runEpoch ∉ state.allocator.leases.map Prod.fst)
    (noQueue : mapGet state.allocator.queues (config.getKey model) = none)
    (laneRoom : state.allocator.laneHasRoom config model (config.getKey model) = true)
    (globalRoom : state.allocator.globalHasRoom config = true) :
    step config state (.tryAcquire model taskId runEpoch) =
      some (state.acquired config ⟨model, config.getKey model, taskId, runEpoch⟩) := by
  have taken : state.allocator.tryAcquire config model taskId runEpoch =
      (true, state.allocator.recordLease config
        ⟨model, config.getKey model, taskId, runEpoch⟩) := by
    simp [TaskConcurrency.tryAcquire, mapGet_eq_none_iff.mpr free, noQueue, laneRoom, globalRoom]
  simp only [step]
  rw [taken]
  rfl

section

variable (reached : execute (step config) empty calls = some state)
include reached

/-- A run that releases a lease at its end cannot be sound when the dispatch behind the
release is not. -/
theorem not_everyStep_sound_of_release
    (searches : state.beforeDispatch (.releaseLease taskId runEpoch) = some searched)
    (unsound : ¬ Sound config state (.releaseLease taskId runEpoch)
      (dispatch config state.loops searched)) :
    ¬ EveryStep (step config) (Sound config) empty (calls ++ [.releaseLease taskId runEpoch]) := by
  intro everyStep
  have last := everyStep.append reached
  have released : step config state (.releaseLease taskId runEpoch) =
      some (dispatch config state.loops searched) := by
    rw [step, searches, Option.map_some, Option.getD_some]
  exact unsound (last _ released).1

/-- Releases introduce no key. -/
theorem once_concat_release (everyStep : EveryStep (step config) Once empty calls)
    (once : state.introduced.Nodup) :
    EveryStep (step config) Once empty (calls ++ [.releaseLease taskId runEpoch]) := by
  refine everyStep.concat fun last next isLast stepped => ?_
  rw [reached] at isLast
  cases isLast
  have isNext : next.introduced = state.introduced := by
    cases searches : state.beforeDispatch (.releaseLease taskId runEpoch) with
    | none =>
      simp only [step, searches] at stepped
      cases stepped
      rfl
    | some searched =>
      obtain ⟨outer, rfl, -⟩ := step_dispatching stepped searches
      have sameKeys : searched.introduced = state.introduced := by
        obtain ⟨lease, -, rfl⟩ := Option.map_eq_some_iff.mp searches
        rfl
      unfold dispatch
      split
      next => exact sameKeys
      next => exact sameKeys
  unfold Once
  rwa [isNext]

end

/-- An unbounded lease in front of a finite one of its lane: when it is dropped, the
count of the lane loses the finite one. -/
theorem not_sound_of_unbounded (sameLane : config.getKey model = config.getKey other)
    (unbounded : config.getLimit model = none) (finite : config.getLimit other = some limit)
    (notSingle : ∀ bound, config.globalLimit = some bound → 1 < bound) :
    ∃ calls, EveryStep (step config) Once empty calls ∧
      ¬ EveryStep (step config) (Sound config) empty calls := by
  have positive := TaskConcurrencyConfig.getLimit_pos finite
  let first : Lease := ⟨model, config.getKey model, "t", 0⟩
  let second : Lease := ⟨other, config.getKey other, "t", 1⟩
  let one := empty.acquired config first
  let two := one.acquired config second
  have roomForFirst : empty.allocator.globalHasRoom config = true :=
    below_eq_true_iff.mpr fun bound isBound =>
      Nat.lt_trans Nat.zero_lt_one (notSingle bound isBound)
  have roomForSecond : one.allocator.globalHasRoom config = true :=
    below_eq_true_iff.mpr notSingle
  have takesFirst : step config empty (.tryAcquire model "t" 0) = some one := by
    refine step_tryAcquire_of_room List.not_mem_nil rfl ?_ roomForFirst
    rw [TaskConcurrency.laneHasRoom, unbounded]
    rfl
  have nothingCounted (laneKey : String) : one.allocator.getCount laneKey = 0 := by
    have uncounted : TaskConcurrency.countedIn config laneKey first = false := by
      simp [TaskConcurrency.countedIn, first, unbounded]
    have counts : one.allocator.getCount laneKey = _ :=
      TaskConcurrency.getCount_recordLease laneKey
    rw [counts, uncounted]
    rfl
  have oneKey : one.allocator.leases.map Prod.fst = [("t", 0)] := rfl
  have takesSecond : step config one (.tryAcquire other "t" 1) = some two := by
    refine step_tryAcquire_of_room (by rw [oneKey]; decide) rfl ?_ roomForSecond
    rw [TaskConcurrency.laneHasRoom, nothingCounted, finite]
    exact decide_eq_true positive
  have onceOne : ([("t", 0)] : List (String × Nat)).Nodup := by decide
  have onceTwo : ([("t", 0), ("t", 1)] : List (String × Nat)).Nodup := by decide
  have accountedOne : Accounted config one :=
    accounted_empty.of_acquired onceOne rfl roomForFirst
  have accounted : Accounted config two := accountedOne.of_acquired onceTwo rfl roomForSecond
  have isLive : mapGet two.allocator.leases (leaseKeyOf "t" 0) = some first := rfl
  have reached : execute (step config) empty [.tryAcquire model "t" 0, .tryAcquire other "t" 1] =
      some two :=
    execute_cons_eq_some.mpr ⟨one, takesFirst, execute_cons_eq_some.mpr ⟨two, takesSecond, rfl⟩⟩
  have once : EveryStep (step config) Once empty
      [.tryAcquire model "t" 0, .tryAcquire other "t" 1] :=
    .cons takesFirst onceOne (.cons takesSecond onceTwo trivial)
  refine ⟨_, once_concat_release reached once onceTwo,
    not_everyStep_sound_of_release reached (by rw [beforeDispatch, isLive, Option.map_some]) ?_⟩
  intro sound
  let dropped : Allocation := { two with allocator := two.allocator.dropLease first }
  have ended : (dispatch config two.loops dropped).allocator = two.allocator.dropLease first := by
    have queues : dropped.allocator.QueueAccount config := accounted.queues.of_queues rfl
    rcases dispatch_cases queues with
      ⟨ended, -⟩ | ⟨waiter, -, ⟨entry, member, -⟩, -⟩
    · rw [ended]
    · cases member
  have balance := sound.counted (config.getKey other)
  have counts : two.allocator.getCount (config.getKey other) = _ :=
    TaskConcurrency.getCount_recordLease (config.getKey other)
  have isCounted : TaskConcurrency.countedIn config (config.getKey other) second = true := by
    simp [TaskConcurrency.countedIn, second, finite]
  have leases : (two.allocator.dropLease first).leases = [(("t", 1), second)] := rfl
  rw [ended, TaskConcurrency.getCount_dropLease, counts, nothingCounted,
    TaskConcurrency.leaseCount, leases, List.countP_singleton, isCounted, if_pos sameLane] at balance
  cases balance

/-- A lane with as many leases for one model as the number says. -/
def holding (config : TaskConcurrencyConfig) (model : String) : Nat → Allocation
  | 0 => empty
  | number + 1 =>
    (holding config model number).acquired config ⟨model, config.getKey model, "t", number⟩

/-- The calls that take them. -/
def acquisitions (model : String) (number : Nat) : List ConcurrencyCall :=
  (List.range number).map fun epoch => .tryAcquire model "t" epoch

theorem introduced_holding : (holding config model number).introduced =
      (List.range number).map fun epoch => leaseKeyOf "t" epoch := by
  induction number with
  | zero => rfl
  | succ number ih =>
    rw [List.range_succ, List.map_append, ← ih]
    rfl

theorem nodup_introduced_holding (number : Nat) :
    (holding config model number).introduced.Nodup := by
  rw [introduced_holding]
  exact List.nodup_range.map fun left right equal => (Prod.mk.inj equal).2

theorem queues_holding (number : Nat) : (holding config model number).allocator.queues = [] := by
  induction number with
  | zero => rfl
  | succ number ih => exact ih

theorem mapGet_holding :
    mapGet (holding config model (number + 1)).allocator.leases (leaseKeyOf "t" 0) =
      some ⟨model, config.getKey model, "t", 0⟩ := by
  induction number with
  | zero => rfl
  | succ number ih =>
    have differs : leaseKeyOf "t" 0 ≠ leaseKeyOf "t" (number + 1) := by
      intro equal
      cases (Prod.mk.inj equal).2
    exact (mapGet_mapSet _ _ _ _).trans ((if_neg differs).trans ih)

/-- As long as there is room, the leases are taken one by one and each is counted. -/
theorem acquisitions_reach (finite : config.getLimit model = some limit) (laneRoom : number ≤ limit)
    (globalRoom : ∀ bound, config.globalLimit = some bound → number ≤ bound) :
    execute (step config) empty (acquisitions model number) = some (holding config model number) ∧
      EveryStep (step config) Once empty (acquisitions model number) ∧
      Accounted config (holding config model number) ∧
      (holding config model number).allocator.leases.length = number ∧
      (holding config model number).allocator.getCount (config.getKey model) = number := by
  induction number with
  | zero => exact ⟨rfl, trivial, accounted_empty, rfl, rfl⟩
  | succ number ih =>
    obtain ⟨reached, once, accounted, isLength, isCount⟩ :=
      ih (Nat.le_of_succ_le laneRoom)
        fun bound isBound => Nat.le_of_succ_le (globalRoom bound isBound)
    have hasGlobalRoom : (holding config model number).allocator.globalHasRoom config = true := by
      refine below_eq_true_iff.mpr fun bound isBound => ?_
      rw [isLength]
      exact globalRoom bound isBound
    have hasLaneRoom : (holding config model number).allocator.laneHasRoom config model
        (config.getKey model) = true := by
      rw [TaskConcurrency.laneHasRoom, isCount, finite]
      exact decide_eq_true laneRoom
    have onceBehind : ((holding config model number).introduced ++ [leaseKeyOf "t" number]).Nodup :=
      nodup_introduced_holding (number + 1)
    have free : leaseKeyOf "t" number ∉
        (holding config model number).allocator.leases.map Prod.fst :=
      fun member => accounted.free_of_once onceBehind (List.mem_append_left _ member)
    have noQueue : mapGet (holding config model number).allocator.queues
        (config.getKey model) = none := by
      rw [queues_holding]
      rfl
    have taken : step config (holding config model number) (.tryAcquire model "t" number) =
        some (holding config model (number + 1)) :=
      step_tryAcquire_of_room free noQueue hasLaneRoom hasGlobalRoom
    have calls : acquisitions model (number + 1) =
        acquisitions model number ++ [.tryAcquire model "t" number] := by
      rw [acquisitions, List.range_succ, List.map_append]
      rfl
    rw [calls]
    refine ⟨execute_append_eq_some.mpr ⟨_, reached, execute_cons_eq_some.mpr ⟨_, taken, rfl⟩⟩,
      once.concat ?_, accounted.of_acquired onceBehind rfl hasGlobalRoom, ?_, ?_⟩
    · intro last next isLast stepped
      rw [reached] at isLast
      cases isLast
      rw [taken] at stepped
      cases stepped
      exact onceBehind
    · rw [holding, acquired, TaskConcurrency.leases_recordLease free, List.length_append, isLength]
      rfl
    · have isCounted : TaskConcurrency.countedIn config (config.getKey model)
          ⟨model, config.getKey model, "t", number⟩ = true := by
        simp [TaskConcurrency.countedIn, finite]
      rw [holding, acquired, TaskConcurrency.getCount_recordLease, isCount, isCounted]
      rfl

/-- A head with the lower limit of its lane: when a lease is released, it has no room
and the waiter behind it has. -/
theorem not_sound_of_lower (sameLane : config.getKey model = config.getKey other)
    (isLow : config.getLimit model = some low) (isHigh : config.getLimit other = some high)
    (lower : low < high) (globalHigher : ∀ bound, config.globalLimit = some bound → low < bound) :
    ∃ calls, EveryStep (step config) Once empty calls ∧
      ¬ EveryStep (step config) (Sound config) empty calls := by
  obtain ⟨reached, once, accounted, isLength, isCount⟩ :=
    acquisitions_reach isHigh (Nat.succ_le_of_lt lower) globalHigher
  let held := holding config other (low + 1)
  let one := held.enqueued config model "u" 0
  let two := one.enqueued config other "v" 0
  have differs (taskId : String) (isOther : "t" ≠ taskId) :
      leaseKeyOf taskId 0 ∉ held.introduced := by
    rw [introduced_holding]
    intro member
    obtain ⟨epoch, -, equal⟩ := List.mem_map.mp member
    exact isOther (Prod.mk.inj equal).1
  have onceOne : one.introduced.Nodup :=
    nodup_append_singleton (nodup_introduced_holding (low + 1)) (differs "u" (by decide))
  have onceTwo : two.introduced.Nodup := by
    refine nodup_append_singleton onceOne fun member => ?_
    rcases List.mem_append.mp member with isHeld | isNew
    · exact differs "v" (by decide) isHeld
    · exact absurd (List.mem_singleton.mp isNew) (by decide)
  have oneReached : execute (step config) empty
      (acquisitions other (low + 1) ++ [.enqueue model "u" 0]) = some one :=
    execute_append_eq_some.mpr ⟨held, reached, rfl⟩
  have twoReached : execute (step config) empty
      (acquisitions other (low + 1) ++ [.enqueue model "u" 0] ++ [.enqueue other "v" 0]) =
        some two :=
    execute_append_eq_some.mpr ⟨one, oneReached, rfl⟩
  have onceWaits : EveryStep (step config) Once empty
      (acquisitions other (low + 1) ++ [.enqueue model "u" 0] ++ [.enqueue other "v" 0]) := by
    refine (once.concat ?_).concat ?_
    · intro last next isLast stepped
      rw [reached] at isLast
      cases isLast
      cases stepped
      exact onceOne
    · intro last next isLast stepped
      rw [oneReached] at isLast
      cases isLast
      cases stepped
      exact onceTwo
  have accountedOne : Accounted config one := accounted.of_enqueued onceOne
  have accountedTwo : Accounted config two := accountedOne.of_enqueued onceTwo
  let lease : Lease := ⟨other, config.getKey other, "t", 0⟩
  have isLive : mapGet two.allocator.leases (leaseKeyOf "t" 0) = some lease :=
    mapGet_holding
  let dropped : Allocation := { two with allocator := two.allocator.dropLease lease }
  have searches : two.beforeDispatch (.releaseLease "t" 0) = some dropped := by
    rw [beforeDispatch, isLive, Option.map_some]
  refine ⟨_, once_concat_release twoReached onceWaits onceTwo,
    not_everyStep_sound_of_release twoReached searches ?_⟩
  intro sound
  have queues : dropped.allocator.queues = [(config.getKey other,
      [⟨model, config.getKey other, "u", 0, held.allocator.enqueueSequence⟩,
        ⟨other, config.getKey other, "v", 0, held.allocator.enqueueSequence + 1⟩])] := by
    have none : held.allocator.queues = [] := queues_holding (low + 1)
    simp [dropped, two, one, enqueued, TaskConcurrency.enqueue, TaskConcurrency.dropLease, none,
      mapGet, mapSet, sameLane]
  have count : dropped.allocator.getCount (config.getKey other) = low := by
    rw [TaskConcurrency.getCount_dropLease, if_pos rfl]
    exact congrArg (· - 1) isCount
  have fewer : dropped.allocator.leases.length = low := by
    have split := (perm_cons_mapDelete accountedTwo.leases.unique (mem_of_mapGet isLive)).length_eq
    exact Nat.succ.inj (split.symm.trans isLength)
  have account : dropped.allocator.QueueAccount config := accountedTwo.queues.of_queues rfl
  rcases dispatch_cases account with ⟨ended, -⟩ | ⟨waiter, -, isHead, ⟨laneRoom, -⟩, -⟩
  · let behind : Waiter :=
      ⟨other, config.getKey other, "v", 0, held.allocator.enqueueSequence + 1⟩
    have isWaiting : behind ∈ dropped.allocator.waiting := by
      rw [TaskConcurrency.waiting, queues]
      simp [behind]
    have laneRoom : dropped.allocator.laneHasRoom config behind.model behind.laneKey = true := by
      rw [TaskConcurrency.laneHasRoom, count, isHigh]
      exact decide_eq_true lower
    have globalRoom : dropped.allocator.globalHasRoom config = true := by
      rw [TaskConcurrency.globalHasRoom, fewer]
      exact below_eq_true_iff.mpr globalHigher
    rw [ended] at sound
    have ends : two.LoopEnds (.releaseLease "t" 0) { dropped with loops := two.loops } :=
      ⟨by rw [searches]; rfl, rfl⟩
    exact sound.settled ends behind isWaiting ⟨laneRoom, globalRoom⟩
  · obtain ⟨entry, member, isFirst⟩ := isHead
    rw [queues, List.mem_singleton] at member
    subst member
    cases isFirst
    have underLimit := below_eq_true_iff.mp laneRoom low isLow
    rw [count] at underLimit
    exact Nat.lt_irrefl low underLimit

/-- The allocator does what is promised in every run in which each key is acquired or
enqueued at most once, for exactly those configurations whose limits agree. -/
theorem soundRuns_iff_limitsAgree (config : TaskConcurrencyConfig) :
    (∀ calls, EveryStep (step config) Once empty calls →
      EveryStep (step config) (Sound config) empty calls) ↔ config.LimitsAgree := by
  constructor
  · intro soundRuns
    by_contra disagree
    unfold TaskConcurrencyConfig.LimitsAgree at disagree
    push Not at disagree
    obtain ⟨model, other, sameLane, differs, notSingle, notReached⟩ := disagree
    have refuted : ∃ calls, EveryStep (step config) Once empty calls ∧
        ¬ EveryStep (step config) (Sound config) empty calls := by
      have many (bound : Nat) (isBound : config.globalLimit = some bound) : 1 < bound := by
        have positive := TaskConcurrencyConfig.globalLimit_pos isBound
        have notOne : bound ≠ 1 := fun isOne => notSingle (isOne ▸ isBound)
        omega
      cases isLimit : config.getLimit model with
      | none =>
        cases isOther : config.getLimit other with
        | none => exact absurd (isLimit.trans isOther.symm) differs
        | some otherLimit => exact not_sound_of_unbounded sameLane isLimit isOther many
      | some modelLimit =>
        cases isOther : config.getLimit other with
        | none => exact not_sound_of_unbounded sameLane.symm isOther isLimit many
        | some otherLimit =>
          have apart (bound : Nat) (isBound : config.globalLimit = some bound) :=
            notReached bound modelLimit otherLimit isBound isLimit isOther
          have unequal : modelLimit ≠ otherLimit := by
            intro equal
            exact differs (by rw [isLimit, isOther, equal])
          rcases Nat.lt_or_gt_of_ne unequal with lower | higher
          · exact not_sound_of_lower sameLane isLimit isOther lower
              fun bound isBound => by have := apart bound isBound; omega
          · exact not_sound_of_lower sameLane.symm isOther isLimit higher
              fun bound isBound => by have := apart bound isBound; omega
    obtain ⟨calls, once, unsound⟩ := refuted
    exact unsound (soundRuns calls once)
  · intro agree calls once
    exact once.of_invariant (fun state call next accounted isOnce stepped =>
        sound_of_step agree accounted isOnce stepped)
      accounted_empty

/-! ## A provider that is also a model -/

/-- A name with one limit as a model and another one as a provider. -/
def sharedName : TaskConcurrencyConfig where
  defaultConcurrency := none
  providerConcurrency := [("openai", 2)]
  modelConcurrency := [("openai", 0)]
  globalConcurrency := none

/-- The unbounded lease takes the finite one out of the count when it goes. -/
theorem not_soundRuns_sharedName :
    ¬ ∀ config calls, EveryStep (step config) Once empty calls →
      EveryStep (step config) (Sound config) empty calls := by
  intro soundRuns
  have everyStep := soundRuns sharedName
    [.tryAcquire "openai" "st_1" 0, .tryAcquire "openai/gpt" "st_2" 0, .releaseLease "st_1" 0]
    (by unfold Once; decide +kernel)
  have counted := everyStep.of_invariant
    (fun _ _ _ _ sound _ => And.intro (sound.counted "openai") trivial) trivial
  exact absurd counted (by decide +kernel)

end Allocation
end OpenAgent.Tasks
