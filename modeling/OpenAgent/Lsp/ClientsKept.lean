import OpenAgent.Lsp.LspManager

/-!
# Clients are kept while they are used

Every client whose stop has not begun is the one of its key, and an entry counts the callers
that hold its client and those that wait for it.  Three things break this: a release behind
which another client has the key, the abort of the call that makes a client for which others
wait, and a call that makes a client although there is one again.
-/

namespace OpenAgent.Lsp
namespace LspManager

open Library

/-! ## What is promised -/

section

variable (manager : LspManager)

def holders (client : Nat) : Nat :=
  tally manager.calls fun _ call => if call.holds client then 1 else 0

def waiters (client : Nat) : Nat :=
  tally manager.calls fun _ call => if call.waitsFor client then 1 else 0

/-- The causes for which no client in use is stopped. -/
def Spares : StopCause → Prop
  | .evicted | .idle | .orphaned | .aborted => True
  | _ => False

/-- One client for each key, counts that are right, and no client in use stopped. -/
structure KeepsClients : Prop where
  single : ∀ first < manager.nextClient, ∀ second < manager.nextClient,
    (manager.managed first).stopBegun = false → (manager.managed second).stopBegun = false →
      (manager.managed first).key = (manager.managed second).key → first = second
  counted : ∀ key client, mapGet manager.clients key = some client →
    (manager.managed client).refCount =
      (manager.calls.filter fun entry => entry.2.holds client).length
  spared : ∀ stop ∈ manager.stopLog, Spares stop.cause → stop.inUse = false

/-- A release while another client has the key and is held, the abort of the call that makes
a client in use, or a call that makes a client although its key has one. -/
def Breaks (options : LspManagerOptions) (manager : LspManager) : ManagerLabel → Prop
  | .releaseClient index _ => ∃ call client other,
      mapGet manager.calls index = some call ∧ call.phase = .returned client ∧
        mapGet manager.clients call.key = some other ∧ other ≠ client ∧
          0 < (manager.managed other).refCount
  | .resume index bySignal _ now => ∃ call, mapGet manager.calls index = some call ∧
      ((∃ client, call.phase = .creating client ∧ bySignal = true ∧
          (manager.managed client).stopBegun = false ∧ manager.isInUse client = true) ∨
        (∃ stop other, call.phase = .awaitingTimedOut stop ∧
          ((manager.evictForAdmission options).ensureRespawnAllowed call.key now).1 = true ∧
            mapGet (manager.evictForAdmission options).clients call.key = some other))
  | _ => False

/-! ## The invariant -/

structure Sound : Prop where
  uniqueKeys : (manager.clients.map Prod.fst).Nodup
  uniqueCalls : (manager.calls.map Prod.fst).Nodup
  resident : ∀ key client, mapGet manager.clients key = some client →
    client < manager.nextClient ∧ (manager.managed client).key = key ∧
      (manager.managed client).stopBegun = false
  listed : ∀ client < manager.nextClient, (manager.managed client).stopBegun = false →
    mapGet manager.clients (manager.managed client).key = some client
  known : ∀ index call client, mapGet manager.calls index = some call →
    call.holds client = true ∨ call.waitsFor client = true →
      client < manager.nextClient ∧ (manager.managed client).key = call.key
  counted : ∀ key client, mapGet manager.clients key = some client →
    (manager.managed client).refCount = manager.holders client
  waiting : ∀ client < manager.nextClient,
    (manager.managed client).pendingWaiters = manager.waiters client
  spared : ∀ stop ∈ manager.stopLog, Spares stop.cause → stop.inUse = false

end

variable {manager : LspManager}

theorem holders_eq (manager : LspManager) (client : Nat) :
    manager.holders client =
      (manager.calls.filter fun entry => entry.2.holds client).length :=
  (length_filter_eq_tally manager.calls fun entry => entry.2.holds client).symm

theorem waiters_eq (manager : LspManager) :
    manager.waiters client =
      (manager.calls.filter fun entry => entry.2.waitsFor client).length :=
  (length_filter_eq_tally manager.calls fun entry => entry.2.waitsFor client).symm

theorem Sound.keepsClients (sound : manager.Sound) : manager.KeepsClients where
  single := by
    intro first isFirst second isSecond firstRuns secondRuns sameKey
    have listedFirst := sound.listed first isFirst firstRuns
    rw [sameKey, sound.listed second isSecond secondRuns] at listedFirst
    exact (Option.some.inj listedFirst).symm
  counted := fun key client isCurrent =>
    (sound.counted key client isCurrent).trans (manager.holders_eq client)
  spared := sound.spared

theorem sound_fresh : fresh.Sound where
  uniqueKeys := List.nodup_nil
  uniqueCalls := List.nodup_nil
  resident := by
    intro key client isCurrent
    cases isCurrent
  listed := by
    intro client isOld
    cases isOld
  known := by
    intro index call client isCall
    cases isCall
  counted := by
    intro key client isCurrent
    cases isCurrent
  waiting := by
    intro client isOld
    cases isOld
  spared := by
    intro stop isLogged
    cases isLogged

theorem isInUse_eq_false (noHolder : manager.holders client = 0)
    (noWaiter : manager.waiters client = 0) : manager.isInUse client = false := by
  rw [holders_eq, List.length_eq_zero_iff, List.filter_eq_nil_iff] at noHolder
  rw [waiters_eq, List.length_eq_zero_iff, List.filter_eq_nil_iff] at noWaiter
  rw [isInUse, List.any_eq_false]
  intro entry isEntry
  simp [noHolder entry isEntry, noWaiter entry isEntry]

theorem Sound.not_inUse_of_isIdle (sound : manager.Sound)
    (isCurrent : mapGet manager.clients key = some client)
    (isIdle : (manager.managed client).isIdle = true) : manager.isInUse client = false := by
  obtain ⟨noRef, noWaiter, -⟩ := of_decide_eq_true isIdle
  refine isInUse_eq_false ?_ ?_
  · rw [← sound.counted key client isCurrent, noRef]
  · rw [← sound.waiting client (sound.resident key client isCurrent).1, noWaiter]

/-! ## Counting calls -/

section PutCall

variable (sound : manager.Sound)
include sound

theorem tally_putCall (isOld : mapGet manager.calls index = some old) (call : Call)
    (counts : Call → Bool) :
    tally (manager.putCall index call).calls (fun _ call => if counts call then 1 else 0) +
        (if counts old then 1 else 0) =
      tally manager.calls (fun _ call => if counts call then 1 else 0) +
        (if counts call then 1 else 0) := by
  have sums := tally_mapSet sound.uniqueCalls (fun _ call => if counts call then 1 else 0)
    index call
  rwa [weightAt_of_mapGet isOld] at sums

theorem tally_putCall_new (isNew : mapGet manager.calls index = none) (call : Call)
    (counts : Call → Bool) :
    tally (manager.putCall index call).calls (fun _ call => if counts call then 1 else 0) =
      tally manager.calls (fun _ call => if counts call then 1 else 0) +
        (if counts call then 1 else 0) := by
  have sums := tally_mapSet sound.uniqueCalls (fun _ call => if counts call then 1 else 0)
    index call
  rwa [weightAt_of_mapGet_eq_none isNew] at sums

/-- One call moves on, and the entries count it anew. -/
theorem Sound.change {other : LspManager} (isOld : mapGet manager.calls index = some old)
    (sameClients : other.clients = manager.clients)
    (sameNext : other.nextClient = manager.nextClient) (sameLog : other.stopLog = manager.stopLog)
    (isPut : other.calls = mapSet manager.calls index call)
    (sameKeys : ∀ client, (other.managed client).key = (manager.managed client).key)
    (sameStops : ∀ client, (other.managed client).stopBegun = (manager.managed client).stopBegun)
    (known : ∀ client, call.holds client = true ∨ call.waitsFor client = true →
      client < manager.nextClient ∧ (manager.managed client).key = call.key)
    (held : ∀ key client, mapGet manager.clients key = some client →
      (other.managed client).refCount + (if old.holds client then 1 else 0) =
        (manager.managed client).refCount + (if call.holds client then 1 else 0))
    (waiting : ∀ client < manager.nextClient,
      (other.managed client).pendingWaiters + (if old.waitsFor client then 1 else 0) =
        (manager.managed client).pendingWaiters + (if call.waitsFor client then 1 else 0)) :
    other.Sound where
  uniqueKeys := sameClients ▸ sound.uniqueKeys
  uniqueCalls := isPut ▸ nodup_keys_mapSet sound.uniqueCalls index call
  resident := by
    intro key client isCurrent
    rw [sameClients] at isCurrent
    rw [sameNext, sameKeys, sameStops]
    exact sound.resident key client isCurrent
  listed := by
    intro client isOld runs
    rw [sameNext] at isOld
    rw [sameStops] at runs
    rw [sameClients, sameKeys]
    exact sound.listed client isOld runs
  known := by
    intro place found client isFound counts
    rw [isPut, mapGet_mapSet] at isFound
    rw [sameNext, sameKeys]
    split at isFound
    · cases isFound
      exact known client counts
    · exact sound.known place found client isFound counts
  counted := by
    intro key client isCurrent
    rw [sameClients] at isCurrent
    have sums := tally_putCall sound isOld call (Call.holds client)
    have before := sound.counted key client isCurrent
    have change := held key client isCurrent
    rw [LspManager.putCall, ← isPut] at sums
    dsimp only at sums
    rw [holders] at before ⊢
    omega
  waiting := by
    intro client isBorn
    rw [sameNext] at isBorn
    have sums := tally_putCall sound isOld call (Call.waitsFor client)
    have before := sound.waiting client isBorn
    have change := waiting client isBorn
    rw [LspManager.putCall, ← isPut] at sums
    dsimp only at sums
    rw [waiters] at before ⊢
    omega
  spared := sameLog ▸ sound.spared

theorem Sound.putCall (isOld : mapGet manager.calls index = some old) (sameKey : call.key = old.key)
    (sameHolds : ∀ client, call.holds client = old.holds client)
    (sameWaits : ∀ client, call.waitsFor client = old.waitsFor client) :
    (manager.putCall index call).Sound := by
  refine sound.change isOld rfl rfl rfl rfl (fun _ => rfl) (fun _ => rfl) ?_ ?_ ?_
  · intro client counts
    rw [sameHolds, sameWaits] at counts
    rw [sameKey]
    exact sound.known index old client isOld counts
  · intro key client _
    rw [sameHolds]
    rfl
  · intro client _
    rw [sameWaits]
    rfl

end PutCall

/-- A call that counts for nothing. -/
def Quiet (call : Call) : Prop :=
  ∀ client, call.holds client = false ∧ call.waitsFor client = false

section

variable (sound : manager.Sound)
include sound

theorem Sound.putQuiet (isOld : mapGet manager.calls index = some old)
    (sameKey : call.key = old.key) (wasQuiet : Quiet old) (isQuiet : Quiet call) :
    (manager.putCall index call).Sound :=
  sound.putCall isOld sameKey
    (fun client => (isQuiet client).1.trans (wasQuiet client).1.symm)
    (fun client => (isQuiet client).2.trans (wasQuiet client).2.symm)

/-- A new call. -/
theorem Sound.putNew (isNew : mapGet manager.calls index = none) (isQuiet : Quiet call) :
    (manager.putCall index call).Sound where
  __ := sound
  uniqueCalls := nodup_keys_mapSet sound.uniqueCalls index call
  known := by
    intro place found client isFound counts
    rw [LspManager.putCall] at isFound
    rw [mapGet_mapSet] at isFound
    split at isFound
    · cases isFound
      rcases counts with holds | waits
      · rw [(isQuiet client).1] at holds
        cases holds
      · rw [(isQuiet client).2] at waits
        cases waits
    · exact sound.known place found client isFound counts
  counted := by
    intro key client isCurrent
    have sums := tally_putCall_new sound isNew call (Call.holds client)
    rw [(isQuiet client).1] at sums
    exact (sound.counted key client isCurrent).trans sums.symm
  waiting := by
    intro client isBorn
    have sums := tally_putCall_new sound isNew call (Call.waitsFor client)
    rw [(isQuiet client).2] at sums
    exact (sound.waiting client isBorn).trans sums.symm

/-! ## Changes of entries -/

/-- Nothing that counts changes. -/
theorem Sound.of_same {other : LspManager} (sameClients : other.clients = manager.clients)
    (sameNext : other.nextClient = manager.nextClient) (sameLog : other.stopLog = manager.stopLog)
    (sameCalls : other.calls = manager.calls)
    (sameManaged : ∀ client, (other.managed client).key = (manager.managed client).key ∧
      (other.managed client).stopBegun = (manager.managed client).stopBegun ∧
        (other.managed client).refCount = (manager.managed client).refCount ∧
          (other.managed client).pendingWaiters = (manager.managed client).pendingWaiters) :
    other.Sound where
  uniqueKeys := sameClients ▸ sound.uniqueKeys
  uniqueCalls := sameCalls ▸ sound.uniqueCalls
  resident := by
    intro key client isCurrent
    rw [sameClients] at isCurrent
    rw [sameNext, (sameManaged client).1, (sameManaged client).2.1]
    exact sound.resident key client isCurrent
  listed := by
    intro client isBorn runs
    rw [sameNext] at isBorn
    rw [(sameManaged client).2.1] at runs
    rw [sameClients, (sameManaged client).1]
    exact sound.listed client isBorn runs
  known := by
    intro place found client isFound counts
    rw [sameCalls] at isFound
    rw [sameNext, (sameManaged client).1]
    exact sound.known place found client isFound counts
  counted := by
    intro key client isCurrent
    rw [sameClients] at isCurrent
    rw [(sameManaged client).2.2.1, holders, sameCalls]
    exact sound.counted key client isCurrent
  waiting := by
    intro client isBorn
    rw [sameNext] at isBorn
    rw [(sameManaged client).2.2.2, waiters, sameCalls]
    exact sound.waiting client isBorn
  spared := sameLog ▸ sound.spared

/-- An entry keeps what counts. -/
theorem Sound.update (client : Nat) (managed : ManagedClient)
    (sameKey : managed.key = (manager.managed client).key)
    (sameStop : managed.stopBegun = (manager.managed client).stopBegun)
    (sameRefs : managed.refCount = (manager.managed client).refCount)
    (sameWaiters : managed.pendingWaiters = (manager.managed client).pendingWaiters) :
    (manager.update client managed).Sound := by
  refine sound.of_same rfl rfl rfl rfl fun other => ?_
  rw [LspManager.update]
  dsimp only
  by_cases same : other = client
  · subst same
    rw [Function.update_self]
    exact ⟨sameKey, sameStop, sameRefs, sameWaiters⟩
  · rw [Function.update_of_ne same]
    exact ⟨rfl, rfl, rfl, rfl⟩

/-! ## Stops -/

theorem Sound.tombstoneStop (key : String) (cause : StopCause)
    (hasBegun : (manager.managed client).stopBegun = true) :
    (manager.tombstoneStop key client cause).Sound := by
  refine sound.of_same rfl rfl (if_pos hasBegun) rfl fun other => ?_
  rw [LspManager.tombstoneStop, LspManager.update]
  dsimp only
  by_cases same : other = client
  · subst same
    rw [Function.update_self]
    exact ⟨rfl, hasBegun.symm, rfl, rfl⟩
  · rw [Function.update_of_ne same]
    exact ⟨rfl, rfl, rfl, rfl⟩

end

theorem managed_deleteAndStop (manager : LspManager) :
    (manager.deleteAndStop key client cause).managed other =
      if other = client then { manager.managed other with stopBegun := true }
      else manager.managed other := by
  rw [deleteAndStop, LspManager.tombstoneStop, LspManager.update]
  dsimp only
  by_cases same : other = client
  · subst same
    rw [Function.update_self, if_pos rfl]
  · rw [Function.update_of_ne same, if_neg same]

theorem Sound.deleteAndStop (sound : manager.Sound)
    (isCurrent : mapGet manager.clients key = some client)
    (spares : Spares cause → manager.isInUse client = false) :
    (manager.deleteAndStop key client cause).Sound := by
  obtain ⟨isBorn, isKey, runs⟩ := sound.resident key client isCurrent
  have clients : ∀ other, mapGet (manager.deleteAndStop key client cause).clients other =
      if other = key then none else mapGet manager.clients other :=
    mapGet_mapDelete manager.clients key
  have sameKeys : ∀ other, ((manager.deleteAndStop key client cause).managed other).key =
      (manager.managed other).key := by
    intro other
    rw [managed_deleteAndStop]
    split <;> rfl
  have elsewhere : ∀ other place, mapGet manager.clients place = some other → place ≠ key →
      other ≠ client := by
    rintro other place isPlace different rfl
    exact different ((sound.resident place other isPlace).2.1.symm.trans isKey)
  constructor
  · exact nodup_keys_mapDelete sound.uniqueKeys key
  · exact sound.uniqueCalls
  · intro place other isPlace
    rw [clients] at isPlace
    split at isPlace
    · cases isPlace
    · rename_i different
      rw [managed_deleteAndStop, if_neg (elsewhere other place isPlace different)]
      exact sound.resident place other isPlace
  · intro other isOther stillRuns
    rw [managed_deleteAndStop] at stillRuns
    split at stillRuns
    · cases stillRuns
    · rename_i different
      have isListed := sound.listed other isOther stillRuns
      rw [sameKeys, clients, if_neg, isListed]
      intro same
      rw [same, isCurrent] at isListed
      exact different (Option.some.inj isListed).symm
  · intro place call other isCall counts
    rw [sameKeys]
    exact sound.known place call other isCall counts
  · intro place other isPlace
    rw [clients] at isPlace
    split at isPlace
    · cases isPlace
    · rename_i different
      rw [managed_deleteAndStop, if_neg (elsewhere other place isPlace different)]
      exact sound.counted place other isPlace
  · intro other isOther
    have sameWaiters : ((manager.deleteAndStop key client cause).managed other).pendingWaiters =
        (manager.managed other).pendingWaiters := by
      rw [managed_deleteAndStop]
      split <;> rfl
    exact sameWaiters.trans (sound.waiting other isOther)
  · intro stop isLogged
    have log : (manager.deleteAndStop key client cause).stopLog =
        manager.stopLog ++ [⟨client, cause, manager.isInUse client⟩] :=
      if_neg (by simp [runs])
    rw [log, List.mem_append, List.mem_singleton] at isLogged
    rcases isLogged with isOld | rfl
    · exact sound.spared stop isOld
    · exact spares

/-- A client is stopped whether or not it still has its entry. -/
theorem Sound.discard (sound : manager.Sound) (isBorn : client < manager.nextClient)
    (isKey : (manager.managed client).key = key)
    (spares : Spares cause → (manager.managed client).stopBegun = false →
      manager.isInUse client = false) :
    (manager.discard key client cause).Sound := by
  rw [LspManager.discard]
  split
  · rename_i isCurrent
    exact sound.deleteAndStop isCurrent fun isSpared =>
      spares isSpared (sound.resident key client isCurrent).2.2
  · rename_i notCurrent
    refine sound.tombstoneStop key cause ((Bool.not_eq_false _).mp fun runs => notCurrent ?_)
    rw [← isKey]
    exact sound.listed client isBorn runs

theorem calls_discard (manager : LspManager) :
    (manager.discard key client cause).calls = manager.calls := by
  rw [LspManager.discard]
  split <;> rfl

/-! ## Budgets -/

theorem Sound.budgets (sound : manager.Sound) (respawnBudgets : List (String × RespawnBudget)) :
    { manager with respawnBudgets }.Sound :=
  sound.of_same rfl rfl rfl rfl fun _ => ⟨rfl, rfl, rfl, rfl⟩

theorem ensureRespawnAllowed_spec (manager : LspManager) (key : String) :
    ∃ respawnBudgets,
      (manager.ensureRespawnAllowed key now).2 = { manager with respawnBudgets } := by
  rw [ensureRespawnAllowed]
  split
  · exact ⟨manager.respawnBudgets, rfl⟩
  · split
    · exact ⟨manager.respawnBudgets, rfl⟩
    · split
      · exact ⟨_, rfl⟩
      · split
        · exact ⟨manager.respawnBudgets, rfl⟩
        · exact ⟨_, rfl⟩

/-! ## Reaping and evicting -/

theorem Sound.reapEntry (sound : manager.Sound) (now : Int)
    (isCurrent : mapGet manager.clients entry.1 = some entry.2) :
    (LspManager.reapEntry options now manager entry).Sound := by
  rw [LspManager.reapEntry]
  split
  · exact sound.deleteAndStop isCurrent False.elim
  · split
    · rename_i isIdle
      exact sound.deleteAndStop isCurrent fun _ => sound.not_inUse_of_isIdle isCurrent isIdle.1
    · exact sound

theorem clients_reapEntry (different : other ≠ entry.1) :
    mapGet (LspManager.reapEntry options now manager entry).clients other =
      mapGet manager.clients other := by
  have deleted : ∀ cause, mapGet (manager.deleteAndStop entry.1 entry.2 cause).clients other =
      mapGet manager.clients other := by
    intro cause
    exact (mapGet_mapDelete manager.clients entry.1 other).trans (if_neg different)
  rw [LspManager.reapEntry]
  split
  · exact deleted _
  · split
    · exact deleted _
    · rfl

theorem Sound.reapStale (sound : manager.Sound) (now : Int) :
    (manager.reapStale options now).Sound := by
  have reaped : ∀ (entries : List (String × Nat)) (manager : LspManager), manager.Sound →
      (entries.map Prod.fst).Nodup →
        (∀ entry ∈ entries, mapGet manager.clients entry.1 = some entry.2) →
          (entries.foldl (LspManager.reapEntry options now) manager).Sound := by
    intro entries
    induction entries with
    | nil => exact fun _ sound _ _ => sound
    | cons entry entries ih =>
      intro manager sound unique areCurrent
      rw [List.map_cons, List.nodup_cons] at unique
      rw [List.forall_mem_cons] at areCurrent
      refine ih _ (sound.reapEntry now areCurrent.1) unique.2 ?_
      intro other isOther
      rw [clients_reapEntry, areCurrent.2 other isOther]
      intro same
      exact unique.1 (same ▸ List.mem_map_of_mem isOther)
  exact reaped manager.clients manager sound sound.uniqueKeys
    fun entry isEntry => mapGet_of_mem sound.uniqueKeys isEntry

/-- The client to evict has an entry and is idle. -/
theorem leastRecentlyUsedIdleClient_spec
    (isVictim : manager.leastRecentlyUsedIdleClient = some victim) :
    victim ∈ manager.clients ∧ (manager.managed victim.2).isIdle = true := by
  revert isVictim
  refine List.foldlRecOn manager.clients _ (motive := fun chosen => chosen = some victim →
    victim ∈ manager.clients ∧ (manager.managed victim.2).isIdle = true)
    (fun isNone => by cases isNone) ?_
  intro candidate good entry isEntry isNext
  split at isNext
  · exact good isNext
  · rename_i isIdle
    have entryGood := And.intro isEntry (not_not.mp isIdle)
    split at isNext
    · cases isNext
      exact entryGood
    · split at isNext
      · cases isNext
        exact entryGood
      · exact good isNext

/-- Evicting keeps the calls and makes no entry. -/
structure Evicts (manager after : LspManager) : Prop where
  sound : after.Sound
  sameNext : after.nextClient = manager.nextClient
  sameCalls : after.calls = manager.calls
  absent : ∀ key, mapGet manager.clients key = none → mapGet after.clients key = none

theorem Sound.evictForAdmission (sound : manager.Sound) (options : LspManagerOptions) :
    Evicts manager (manager.evictForAdmission options) := by
  have evicted : ∀ (fuel : Nat) (manager : LspManager), manager.Sound →
      Evicts manager (evictFrom options fuel manager) := by
    intro fuel
    induction fuel with
    | zero => exact fun manager sound => ⟨sound, rfl, rfl, fun _ isAbsent => isAbsent⟩
    | succ fuel ih =>
      intro manager sound
      rw [evictFrom]
      split
      · split
        · exact ⟨sound, rfl, rfl, fun _ isAbsent => isAbsent⟩
        · rename_i victim isVictim
          obtain ⟨isEntry, isIdle⟩ := leastRecentlyUsedIdleClient_spec isVictim
          have isCurrent := mapGet_of_mem sound.uniqueKeys isEntry
          have later := ih _ (sound.deleteAndStop isCurrent
            fun _ : Spares .evicted => sound.not_inUse_of_isIdle isCurrent isIdle)
          refine ⟨later.sound, later.sameNext, later.sameCalls, fun key isAbsent => ?_⟩
          refine later.absent key ?_
          refine (mapGet_mapDelete manager.clients victim.1 key).trans ?_
          split
          · rfl
          · exact isAbsent
      · exact ⟨sound, rfl, rfl, fun _ isAbsent => isAbsent⟩
  exact evicted _ manager sound

/-! ## New clients -/

theorem Sound.unused (sound : manager.Sound) :
    manager.holders manager.nextClient = 0 ∧ manager.waiters manager.nextClient = 0 := by
  have noCall : ∀ entry ∈ manager.calls,
      ¬ (entry.2.holds manager.nextClient = true ∨ entry.2.waitsFor manager.nextClient = true) := by
    intro entry isEntry counts
    have isCall := mapGet_of_mem sound.uniqueCalls isEntry
    exact absurd (sound.known entry.1 entry.2 _ isCall counts).1 (Nat.lt_irrefl _)
  rw [holders_eq, waiters_eq, List.length_eq_zero_iff, List.length_eq_zero_iff,
    List.filter_eq_nil_iff, List.filter_eq_nil_iff]
  exact ⟨fun entry isEntry holds => noCall entry isEntry (.inl holds),
    fun entry isEntry waits => noCall entry isEntry (.inr waits)⟩

theorem Sound.spawn (sound : manager.Sound) (managed : ManagedClient)
    (isAbsent : mapGet manager.clients managed.key = none) (runs : managed.stopBegun = false)
    (noRef : managed.refCount = 0) (noWaiter : managed.pendingWaiters = 0) :
    (manager.spawn managed).Sound := by
  have clients : ∀ key, mapGet (manager.spawn managed).clients key =
      if key = managed.key then some manager.nextClient else mapGet manager.clients key :=
    fun key => mapGet_mapSet manager.clients managed.key key manager.nextClient
  have isNew : (manager.spawn managed).managed manager.nextClient = managed :=
    Function.update_self _ _ _
  have isOld : ∀ client < manager.nextClient,
      (manager.spawn managed).managed client = manager.managed client :=
    fun client isBorn => Function.update_of_ne (Nat.ne_of_lt isBorn) _ _
  constructor
  · exact nodup_keys_mapSet sound.uniqueKeys _ _
  · exact sound.uniqueCalls
  · intro key client isCurrent
    rw [clients] at isCurrent
    split at isCurrent
    · rename_i isKey
      cases isCurrent
      rw [isNew]
      exact ⟨Nat.lt_succ_self _, isKey.symm, runs⟩
    · obtain ⟨isBorn, isKey, stillRuns⟩ := sound.resident key client isCurrent
      rw [isOld client isBorn]
      exact ⟨Nat.lt_succ_of_lt isBorn, isKey, stillRuns⟩
  · intro client isBorn stillRuns
    rw [clients]
    rcases Nat.lt_succ_iff_lt_or_eq.mp isBorn with isBefore | rfl
    · rw [isOld client isBefore] at stillRuns ⊢
      have isListed := sound.listed client isBefore stillRuns
      rw [if_neg, isListed]
      intro same
      rw [same, isAbsent] at isListed
      cases isListed
    · rw [isNew, if_pos rfl]
  · intro index call client isCall counts
    obtain ⟨isBorn, isKey⟩ := sound.known index call client isCall counts
    rw [isOld client isBorn]
    exact ⟨Nat.lt_succ_of_lt isBorn, isKey⟩
  · intro key client isCurrent
    rw [clients] at isCurrent
    split at isCurrent
    · cases isCurrent
      rw [isNew, noRef]
      exact sound.unused.1.symm
    · rw [isOld client (sound.resident key client isCurrent).1]
      exact sound.counted key client isCurrent
  · intro client isBorn
    rcases Nat.lt_succ_iff_lt_or_eq.mp isBorn with isBefore | rfl
    · rw [isOld client isBefore]
      exact sound.waiting client isBefore
    · rw [isNew, noWaiter]
      exact sound.unused.2.symm
  · exact sound.spared

/-! ## The pieces of `getClient` -/

theorem quiet_running (call : Call) : Quiet { call with phase := .running } := by
  intro client
  simp [Call.holds, Call.waitsFor]

theorem Sound.spawnWaiting (sound : manager.Sound) (isCall : mapGet manager.calls index = some call)
    (isQuiet : Quiet call) (isAbsent : mapGet manager.clients call.key = none) :
    ((manager.spawn (newManaged call.key false now)).putCall index
      { call with phase := .creating manager.nextClient }).Sound := by
  have spawned := sound.spawn { newManaged call.key false now with pendingWaiters := 0 }
    isAbsent rfl rfl rfl
  have managed : ∀ managed client, (manager.spawn managed).managed client =
      if client = manager.nextClient then managed else manager.managed client := by
    intro managed client
    by_cases same : client = manager.nextClient
    · subst same
      rw [if_pos rfl]
      exact Function.update_self _ _ _
    · rw [if_neg same]
      exact Function.update_of_ne same _ _
  have waits : ∀ client, Call.waitsFor client { call with phase := .creating manager.nextClient } =
      decide (client = manager.nextClient) := by
    simp [Call.waitsFor, eq_comm]
  have same : ∀ client, ((manager.spawn (newManaged call.key false now)).managed client).key =
          ((manager.spawn { newManaged call.key false now with
            pendingWaiters := 0 }).managed client).key ∧
        ((manager.spawn (newManaged call.key false now)).managed client).stopBegun =
          ((manager.spawn { newManaged call.key false now with
            pendingWaiters := 0 }).managed client).stopBegun ∧
        ((manager.spawn (newManaged call.key false now)).managed client).refCount =
          ((manager.spawn { newManaged call.key false now with
            pendingWaiters := 0 }).managed client).refCount := by
    intro client
    rw [managed, managed]
    split <;> exact ⟨rfl, rfl, rfl⟩
  refine spawned.change isCall rfl rfl rfl rfl (fun client => (same client).1)
    (fun client => (same client).2.1) ?_ ?_ ?_
  · intro client counts
    rw [waits] at counts
    rcases counts with holds | isNew
    · simp [Call.holds] at holds
    · obtain rfl := of_decide_eq_true isNew
      rw [managed, if_pos rfl]
      exact ⟨Nat.lt_succ_self _, rfl⟩
  · intro key client _
    rw [(isQuiet client).1]
    exact congrArg (· + _) (same client).2.2
  · intro client _
    rw [(isQuiet client).2, waits, LspManager.putCall]
    rw [managed, managed]
    by_cases isNew : client = manager.nextClient
    · simp [isNew, newManaged]
    · simp [isNew]

theorem Sound.create (sound : manager.Sound) (isCall : mapGet manager.calls index = some call)
    (isQuiet : Quiet call) (now : Int)
    (isAbsent : ((manager.evictForAdmission options).ensureRespawnAllowed call.key now).1 = true →
      mapGet (manager.evictForAdmission options).clients call.key = none) :
    (manager.create options index call now).Sound := by
  have evicts := sound.evictForAdmission options
  obtain ⟨respawnBudgets, isAdmitted⟩ :=
    ensureRespawnAllowed_spec (manager.evictForAdmission options) call.key
  have admitted := evicts.sound.budgets respawnBudgets
  have isStillCall : mapGet (manager.evictForAdmission options).calls index = some call := by
    rw [evicts.sameCalls, isCall]
  rw [LspManager.create]
  rw [isAdmitted]
  split
  · rename_i isAllowed
    exact admitted.spawnWaiting isStillCall isQuiet (isAbsent isAllowed)
  · exact admitted.putQuiet isStillCall rfl isQuiet fun client => by
      simp [Call.holds, Call.waitsFor]

theorem managed_update (manager : LspManager) (client : Nat) (managed : ManagedClient)
    (other : Nat) :
    (manager.update client managed).managed other =
      if other = client then managed else manager.managed other := by
  by_cases same : other = client
  · subst same
    rw [if_pos rfl]
    exact Function.update_self _ _ _
  · rw [if_neg same]
    exact Function.update_of_ne same _ _

section

variable (sound : manager.Sound) (isCall : mapGet manager.calls index = some call)
include sound isCall

theorem Sound.leaveOrphan (isQuiet : Quiet call) (client : Nat) :
    (manager.leaveOrphan index call client).Sound := by
  rw [LspManager.leaveOrphan]
  split
  · rename_i isOrphan
    have stopped := sound.deleteAndStop isOrphan.2
      fun _ : Spares .orphaned => sound.not_inUse_of_isIdle isOrphan.2 isOrphan.1
    exact stopped.putQuiet isCall rfl isQuiet fun client => by simp [Call.holds, Call.waitsFor]
  · exact sound.putQuiet isCall rfl isQuiet fun client => by simp [Call.holds, Call.waitsFor]

/-- A call moves on, and the entry of one client counts it anew. -/
theorem Sound.recount {managed : ManagedClient}
    (sameKey : managed.key = (manager.managed client).key)
    (sameStop : managed.stopBegun = (manager.managed client).stopBegun)
    (known : ∀ other, phase = .returned other ∨ phase = .awaitingInit other →
      other < manager.nextClient ∧ (manager.managed other).key = call.key)
    (notCreating : ∀ other, phase ≠ .creating other)
    (held : ∀ other, (if other = client then managed else manager.managed other).refCount +
        (if call.holds other then 1 else 0) =
      (manager.managed other).refCount + (if phase = .returned other then 1 else 0))
    (waiting : ∀ other, other < manager.nextClient →
      (if other = client then managed else manager.managed other).pendingWaiters +
          (if call.waitsFor other then 1 else 0) =
        (manager.managed other).pendingWaiters + (if phase = .awaitingInit other then 1 else 0)) :
    ((manager.update client managed).putCall index { call with phase }).Sound := by
  have isManaged : ∀ other,
      ((manager.update client managed).putCall index { call with phase }).managed other =
        if other = client then managed else manager.managed other :=
    managed_update manager client managed
  refine sound.change isCall rfl rfl rfl rfl ?_ ?_ ?_ ?_ ?_
  · intro other
    rw [isManaged]
    split
    · rename_i same
      rw [same, sameKey]
    · rfl
  · intro other
    rw [isManaged]
    split
    · rename_i same
      rw [same, sameStop]
    · rfl
  · intro other counts
    refine known other ?_
    simpa [Call.holds, Call.waitsFor, notCreating other] using counts
  · intro key other _
    rw [isManaged, held]
    simp [Call.holds]
  · intro other isBorn
    rw [isManaged, waiting other isBorn]
    simp [Call.waitsFor, notCreating other]

/-- A call holds a client. -/
theorem Sound.hold (isQuiet : Quiet call) (isBorn : client < manager.nextClient)
    (isKey : (manager.managed client).key = call.key) (now : Int) :
    ((manager.update client { manager.managed client with
        refCount := (manager.managed client).refCount + 1, lastUsedAt := now }).putCall index
      { call with phase := .returned client }).Sound := by
  refine sound.recount isCall rfl rfl ?_ (by simp) ?_ ?_
  · intro other counts
    obtain rfl : client = other := by simpa using counts
    exact ⟨isBorn, isKey⟩
  · intro other
    rw [(isQuiet other).1]
    by_cases same : other = client
    · simp [same]
    · simp [same, Ne.symm same]
  · intro other _
    rw [(isQuiet other).2]
    by_cases same : other = client
    · simp [same]
    · simp [same]

/-- A call begins to wait for a client. -/
theorem Sound.wait (isQuiet : Quiet call) (isBorn : client < manager.nextClient)
    (isKey : (manager.managed client).key = call.key) :
    ((manager.update client { manager.managed client with
        pendingWaiters := (manager.managed client).pendingWaiters + 1 }).putCall index
      { call with phase := .awaitingInit client }).Sound := by
  refine sound.recount isCall rfl rfl ?_ (by simp) ?_ ?_
  · intro other counts
    obtain rfl : client = other := by simpa using counts
    exact ⟨isBorn, isKey⟩
  · intro other
    rw [(isQuiet other).1]
    by_cases same : other = client
    · simp [same]
    · simp [same]
  · intro other _
    rw [(isQuiet other).2]
    by_cases same : other = client
    · simp [same]
    · simp [same, Ne.symm same]

/-- A call no longer waits for a client. -/
theorem Sound.stopWaiting
    (waits : call.phase = .awaitingInit client ∨ call.phase = .creating client) :
    (manager.stopWaiting index call client).Sound := by
  have doesWait : ∀ other, call.waitsFor other = decide (client = other) := by
    rcases waits with waits | waits <;> simp [Call.waitsFor, waits]
  have holdsNone : ∀ other, call.holds other = false := by
    rcases waits with waits | waits <;> simp [Call.holds, waits]
  have isBorn := (sound.known index call client isCall (.inr (by simp [doesWait]))).1
  have isCounted : 0 < (manager.managed client).pendingWaiters := by
    rw [sound.waiting client isBorn, waiters_eq]
    exact List.length_pos_of_mem (List.mem_filter.mpr ⟨mem_of_mapGet isCall, by simp [doesWait]⟩)
  refine sound.recount isCall rfl rfl (by simp) (by simp) ?_ ?_
  · intro other
    rw [holdsNone]
    by_cases same : other = client
    · simp [same]
    · simp [same]
  · intro other _
    rw [doesWait]
    by_cases same : other = client
    · subst same
      simp only [if_true, decide_true]
      rw [if_neg (by simp)]
      omega
    · simp [same, Ne.symm same]

theorem Sound.receive (isQuiet : Quiet call) (isBorn : client < manager.nextClient)
    (isKey : (manager.managed client).key = call.key) (alive : Bool) (now : Int) :
    (manager.receive index call client alive now).Sound := by
  rw [LspManager.receive]
  split
  · exact sound.leaveOrphan isCall isQuiet client
  · split
    · exact (sound.budgets (mapDelete manager.respawnBudgets call.key)).hold isCall isQuiet
        isBorn isKey now
    · have recorded : (manager.recordDeadGeneration call.key).Sound := sound.budgets _
      have stopped := recorded.discard isBorn isKey fun isSpared : Spares .dead => isSpared.elim
      have isStillCall : mapGet ((manager.recordDeadGeneration call.key).discard call.key client
          .dead).calls index = some call := by
        rw [calls_discard]
        exact isCall
      exact stopped.putQuiet isStillCall rfl isQuiet
        fun client => by simp [Call.holds, Call.waitsFor]

theorem Sound.enter (isQuiet : Quiet call) (alive : Bool) (now : Int) :
    (manager.enter options index call alive now).Sound := by
  rw [LspManager.enter]
  split
  · exact sound.putQuiet isCall rfl isQuiet fun client => by simp [Call.holds, Call.waitsFor]
  · rw [LspManager.proceed]
    split
    · exact sound.putQuiet isCall rfl isQuiet fun client => by simp [Call.holds, Call.waitsFor]
    · split
      · rename_i isAbsent
        exact sound.create isCall isQuiet now fun _ =>
          (sound.evictForAdmission options).absent call.key isAbsent
      · rename_i client isCurrent
        obtain ⟨isBorn, isKey, runs⟩ := sound.resident call.key client isCurrent
        dsimp only
        split
        · exact (sound.deleteAndStop isCurrent
            fun isSpared : Spares .initTimeout => isSpared.elim).putQuiet isCall rfl isQuiet
              fun client => by simp [Call.holds, Call.waitsFor]
        · split
          · exact sound.wait isCall isQuiet isBorn isKey
          · exact sound.receive isCall isQuiet isBorn isKey alive now

end

/-! ## Behind the awaits -/

theorem managed_stopWaiting (manager : LspManager) :
    (manager.stopWaiting index call client).managed client =
      { manager.managed client with
        pendingWaiters := (manager.managed client).pendingWaiters - 1 } :=
  Function.update_self _ _ _

theorem isInUse_stopWaiting (sound : manager.Sound)
    (isCall : mapGet manager.calls index = some call)
    (waits : call.phase = .awaitingInit client ∨ call.phase = .creating client)
    (isAborted : call.aborted = true) :
    (manager.stopWaiting index call client).isInUse client = manager.isInUse client := by
  have sameInit : ((manager.stopWaiting index call client).managed client).initialized =
      (manager.managed client).initialized := by
    rw [managed_stopWaiting]
  have notHeld : call.phase ≠ .returned client := by
    rcases waits with waits | waits <;> simp [waits]
  have before := perm_cons_mapDelete sound.uniqueCalls (mem_of_mapGet isCall)
  have after := perm_mapSet sound.uniqueCalls index { call with phase := .running }
  rw [isInUse, isInUse, before.any_eq, sameInit]
  refine (after.any_eq).trans ?_
  simp [notHeld, isAborted, Call.holds]

section

variable (sound : manager.Sound) (isCall : mapGet manager.calls index = some call)
include sound isCall

theorem Sound.resumeWaiting (waits : call.phase = .awaitingInit client)
    (resumed : manager.resumeWaiting index call client bySignal alive now = some next) :
    next.Sound := by
  have woken := sound.stopWaiting isCall (.inl waits)
  obtain ⟨isBorn, isKey⟩ := sound.known index call client isCall
    (.inr (by simp [Call.waitsFor, waits]))
  have isWoken : mapGet (manager.stopWaiting index call client).calls index =
      some { call with phase := .running } :=
    (mapGet_mapSet manager.calls index index _).trans (if_pos rfl)
  have isQuiet := quiet_running call
  rw [LspManager.resumeWaiting] at resumed
  split at resumed
  · split at resumed
    · cases resumed
      exact woken.leaveOrphan isWoken isQuiet client
    · cases resumed
  · split at resumed
    · cases resumed
    · cases resumed
      exact woken.leaveOrphan isWoken isQuiet client
    · cases resumed
      refine woken.receive isWoken isQuiet isBorn ?_ alive now
      rw [managed_stopWaiting]
      exact isKey

/-- The call that made a client.  The abort of this call spares a client in use. -/
theorem Sound.resumeCreating (creates : call.phase = .creating client)
    (spares : bySignal = true → (manager.managed client).stopBegun = false →
      manager.isInUse client = false)
    (resumed : manager.resumeCreating index call client bySignal alive now = some next) :
    next.Sound := by
  have woken := sound.stopWaiting isCall (.inr creates)
  obtain ⟨isBorn, isKey⟩ := sound.known index call client isCall
    (.inr (by simp [Call.waitsFor, creates]))
  have isWoken : mapGet (manager.stopWaiting index call client).calls index =
      some { call with phase := .running } :=
    (mapGet_mapSet manager.calls index index _).trans (if_pos rfl)
  have isQuiet := quiet_running call
  have wokenKey : ((manager.stopWaiting index call client).managed client).key = call.key := by
    rw [managed_stopWaiting]
    exact isKey
  have discarded : ∀ cause stop,
      ((manager.stopWaiting index call client).discard call.key client cause).Sound →
        (((manager.stopWaiting index call client).discard call.key client cause).putCall index
          { call with phase := .failing stop }).Sound := by
    intro cause stop stopped
    have isStillCall : mapGet ((manager.stopWaiting index call client).discard call.key client
        cause).calls index = some { call with phase := .running } := by
      rw [calls_discard]
      exact isWoken
    exact stopped.putQuiet isStillCall rfl isQuiet fun client => by simp [Call.holds, Call.waitsFor]
  rw [LspManager.resumeCreating] at resumed
  split at resumed
  · rename_i isSignal
    split at resumed
    · rename_i isAborted
      cases resumed
      refine discarded _ _ (woken.discard isBorn wokenKey fun _ runs => ?_)
      rw [isInUse_stopWaiting sound isCall (.inr creates) isAborted]
      rw [managed_stopWaiting] at runs
      exact spares isSignal runs
    · cases resumed
  · split at resumed
    · cases resumed
    · cases resumed
      exact discarded _ _ (woken.discard isBorn wokenKey
        fun isSpared : Spares .initFailed => isSpared.elim)
    · cases resumed
      have finished := woken.update client
        (finishInit ((manager.stopWaiting index call client).managed client)) rfl rfl rfl rfl
      refine finished.receive isWoken isQuiet isBorn ?_ alive now
      rw [managed_update, if_pos rfl]
      exact wokenKey

theorem Sound.resume (keeps : ¬ manager.Breaks options (.resume index bySignal alive now))
    (resumed : manager.resume options index call bySignal alive now = some next) : next.Sound := by
  have quiet : (∀ client, call.phase ≠ .returned client) →
      (∀ client, call.phase ≠ .awaitingInit client) →
        (∀ client, call.phase ≠ .creating client) → Quiet call := by
    intro notReturned notWaiting notCreating client
    simp [Call.holds, Call.waitsFor, notReturned client, notWaiting client, notCreating client]
  revert keeps resumed
  fun_cases manager.resume options index call bySignal alive now <;> intro keeps resumed
  case case5 client isPhase => exact sound.resumeWaiting isCall isPhase resumed
  case case6 client isPhase =>
    refine sound.resumeCreating isCall isPhase (fun isSignal runs => ?_) resumed
    by_contra isUsed
    exact keeps ⟨call, isCall, .inl ⟨client, isPhase, isSignal, runs,
      (Bool.not_eq_false _).mp isUsed⟩⟩
  all_goals cases resumed
  case case1 isPhase _ | case7 isPhase _ =>
    exact sound.enter isCall (quiet (by simp [isPhase]) (by simp [isPhase])
      (by simp [isPhase])) alive now
  case case3 stop isPhase _ =>
    refine sound.create isCall (quiet (by simp [isPhase]) (by simp [isPhase])
      (by simp [isPhase])) now fun isAllowed => ?_
    cases found : mapGet (manager.evictForAdmission options).clients call.key with
    | none => rfl
    | some other => exact absurd ⟨call, isCall, .inr ⟨stop, other, isPhase, isAllowed, found⟩⟩ keeps
  case case9 isPhase _ =>
    exact sound.putQuiet isCall rfl (quiet (by simp [isPhase]) (by simp [isPhase])
      (by simp [isPhase])) fun client => by simp [Call.holds, Call.waitsFor]

end

/-! ## The other operations -/

section

variable (sound : manager.Sound)
include sound

/-- A release of a client that no longer has its entry. -/
theorem Sound.releaseGone (isCall : mapGet manager.calls index = some call)
    (isHeld : call.phase = .returned client)
    (isGone : ∀ key, mapGet manager.clients key ≠ some client) :
    (manager.putCall index { call with phase := .released client }).Sound := by
  refine sound.change isCall rfl rfl rfl rfl (fun _ => rfl) (fun _ => rfl) ?_ ?_ ?_
  · intro other counts
    simp [Call.holds, Call.waitsFor] at counts
  · intro key other isOther
    have different : ¬ client = other := by
      rintro rfl
      exact isGone key isOther
    simp [Call.holds, isHeld, different, LspManager.putCall]
  · simp [Call.waitsFor, isHeld, LspManager.putCall]

/-- A release of the client that the call holds, or behind which none is counted. -/
theorem Sound.release (isCall : mapGet manager.calls index = some call)
    (isHeld : call.phase = .returned client) (now : Int)
    (keeps : ∀ other, mapGet manager.clients call.key = some other → other ≠ client →
      (manager.managed other).refCount = 0) :
    ((manager.releaseClient call.key now).putCall index
      { call with phase := .released client }).Sound := by
  obtain ⟨isBorn, isKey⟩ := sound.known index call client isCall
    (.inl (by simp [Call.holds, isHeld]))
  have isGone : mapGet manager.clients call.key ≠ some client →
      ∀ key, mapGet manager.clients key ≠ some client := by
    intro notCurrent key isCurrent
    have sameKey := (sound.resident key client isCurrent).2.1
    rw [isKey] at sameKey
    exact notCurrent (sameKey ▸ isCurrent)
  rw [LspManager.releaseClient]
  split
  · rename_i isAbsent
    exact sound.releaseGone isCall isHeld (isGone (by rw [isAbsent]; simp))
  · rename_i current isCurrent
    by_cases same : current = client
    · subst same
      have isCounted : 0 < (manager.managed current).refCount := by
        rw [sound.counted call.key current isCurrent, holders_eq]
        exact List.length_pos_of_mem (List.mem_filter.mpr
          ⟨mem_of_mapGet isCall, by simp [Call.holds, isHeld]⟩)
      rw [if_pos isCounted]
      refine sound.recount isCall rfl rfl (by simp) (by simp) ?_ ?_
      · intro other
        by_cases isOther : other = current
        · subst isOther
          have holds : call.holds other = true := by simp [Call.holds, isHeld]
          simp only [if_true, holds]
          rw [if_neg (by simp)]
          omega
        · simp [isOther, Call.holds, isHeld, Ne.symm isOther]
      · intro other _
        by_cases isOther : other = current
        · simp [isOther, Call.waitsFor, isHeld]
        · simp [isOther, Call.waitsFor, isHeld]
    · rw [if_neg (by rw [keeps current isCurrent same]; exact Nat.lt_irrefl 0)]
      refine sound.releaseGone isCall isHeld (isGone ?_)
      rw [isCurrent]
      exact fun isSame => same (Option.some.inj isSame)

theorem Sound.warmupClient (key : String) (now : Int) :
    (manager.warmupClient options key now).Sound := by
  rw [LspManager.warmupClient]
  split
  · exact sound
  · rename_i isAbsent
    rw [not_or, Option.not_isSome_iff_eq_none] at isAbsent
    have evicts := sound.evictForAdmission options
    obtain ⟨respawnBudgets, isAdmitted⟩ :=
      ensureRespawnAllowed_spec (manager.evictForAdmission options) key
    dsimp only
    rw [isAdmitted]
    split
    · exact (evicts.sound.budgets respawnBudgets).spawn (newManaged key true now)
        (evicts.absent key isAbsent.1) rfl rfl rfl
    · exact evicts.sound.budgets respawnBudgets

theorem Sound.warmedUp (isBorn : client < manager.nextClient)
    (warmed : manager.warmedUp client now = some next) : next.Sound := by
  rw [LspManager.warmedUp] at warmed
  split at warmed
  · split at warmed
    · cases warmed
    · cases warmed
      exact sound.update client _ rfl rfl rfl rfl
    · cases warmed
      have updated := sound.update client { manager.managed client with warming := false }
        rfl rfl rfl rfl
      refine updated.discard isBorn ?_ fun isSpared : Spares .initFailed => isSpared.elim
      rw [managed_update, if_pos rfl]
  · cases warmed

theorem Sound.step (keeps : ¬ manager.Breaks options label)
    (stepped : manager.step options label = some next) : next.Sound := by
  revert keeps stepped
  fun_cases manager.step options label <;> intro keeps stepped
  case case3 index bySignal alive now =>
    obtain ⟨call, isCall, resumed⟩ := Option.bind_eq_some_iff.mp stepped
    exact sound.resume isCall keeps resumed
  case case4 index =>
    obtain ⟨call, isCall, aborted⟩ := Option.bind_eq_some_iff.mp stepped
    split at aborted <;> cases aborted
    exact sound.putCall isCall rfl (fun _ => rfl) (fun _ => rfl)
  case case11 index now =>
    obtain ⟨call, isCall, released⟩ := Option.bind_eq_some_iff.mp stepped
    split at released <;> cases released
    next client isHeld =>
      refine sound.release isCall isHeld now fun other isOther different => ?_
      by_contra isCounted
      exact keeps ⟨call, client, other, isCall, isHeld, isOther, different,
        Nat.pos_of_ne_zero isCounted⟩
  case case14 client now isBorn => exact sound.warmedUp isBorn stepped
  all_goals cases stepped
  case case2 index root serverId hasSignal aborted alive now isNew call =>
    have isQuiet := quiet_running call
    exact (sound.putNew isNew isQuiet).enter
      ((mapGet_mapSet manager.calls index index _).trans (if_pos rfl)) isQuiet alive now
  case case5 client _ _ _ => exact sound.update client _ rfl rfl rfl rfl
  case case7 | case9 => exact sound.of_same rfl rfl rfl rfl fun _ => ⟨rfl, rfl, rfl, rfl⟩
  case case12 root serverId client =>
    rw [LspManager.invalidateClient]
    split
    · exact sound
    next current isCurrent =>
      split
      · exact sound
      · exact sound.deleteAndStop isCurrent fun isSpared : Spares .invalidated => isSpared.elim
  case case13 root serverId now => exact sound.warmupClient _ now
  case case16 now => exact sound.reapStale now

end

/-! ## Steps that break what is promised -/

theorem stopLog_discard (manager : LspManager) (runs : (manager.managed client).stopBegun = false) :
    (manager.discard key client cause).stopLog =
      manager.stopLog ++ [⟨client, cause, manager.isInUse client⟩] := by
  rw [LspManager.discard]
  split <;> exact if_neg (by simp [runs])

section

variable (sound : manager.Sound)
include sound

theorem not_keepsClients_of_release (isCall : mapGet manager.calls index = some call)
    (isHeld : call.phase = .returned client)
    (isCurrent : mapGet manager.clients call.key = some other) (different : other ≠ client)
    (isCounted : 0 < (manager.managed other).refCount) :
    ¬ ((manager.releaseClient call.key now).putCall index
      { call with phase := .released client }).KeepsClients := by
  intro keepsClients
  have released : manager.releaseClient call.key now = manager.update other
      { manager.managed other with
        refCount := (manager.managed other).refCount - 1, lastUsedAt := now } := by
    rw [LspManager.releaseClient, isCurrent]
    exact if_pos isCounted
  rw [released] at keepsClients
  have after := keepsClients.counted call.key other isCurrent
  rw [← holders_eq] at after
  have sums := tally_putCall sound isCall { call with phase := .released client } (Call.holds other)
  have before := sound.counted call.key other isCurrent
  have isManaged : (((manager.update other { manager.managed other with
      refCount := (manager.managed other).refCount - 1, lastUsedAt := now }).putCall index
      { call with phase := .released client }).managed other).refCount =
        (manager.managed other).refCount - 1 :=
    congrArg ManagedClient.refCount ((managed_update _ _ _ _).trans (if_pos rfl))
  have notHeld : call.holds other = false ∧
      Call.holds other { call with phase := .released client } = false := by
    simp [Call.holds, isHeld, Ne.symm different]
  rw [notHeld.1, notHeld.2] at sums
  rw [isManaged] at after
  rw [holders] at before after
  simp only [LspManager.putCall, LspManager.update] at sums after
  omega

theorem not_keepsClients_of_abort (isCall : mapGet manager.calls index = some call)
    (creates : call.phase = .creating client) (runs : (manager.managed client).stopBegun = false)
    (isUsed : manager.isInUse client = true)
    (resumed : manager.resumeCreating index call client true alive now = some next) :
    ¬ next.KeepsClients := by
  intro keepsClients
  rw [LspManager.resumeCreating] at resumed
  rw [if_pos rfl] at resumed
  split at resumed
  · rename_i isAborted
    cases resumed
    have wokenRuns : ((manager.stopWaiting index call client).managed client).stopBegun =
        false := by
      rw [managed_stopWaiting]
      exact runs
    have isLogged : (⟨client, .aborted, manager.isInUse client⟩ : StopBegin) ∈
        ((manager.stopWaiting index call client).discard call.key client .aborted).stopLog := by
      rw [stopLog_discard _ wokenRuns, isInUse_stopWaiting sound isCall (.inr creates) isAborted]
      exact List.mem_append_right _ List.mem_cons_self
    have isSpared := keepsClients.spared _ isLogged trivial
    rw [isUsed] at isSpared
    cases isSpared
  · cases resumed

theorem not_keepsClients_of_create
    (isAllowed : ((manager.evictForAdmission options).ensureRespawnAllowed call.key now).1 = true)
    (isCurrent : mapGet (manager.evictForAdmission options).clients call.key = some other) :
    ¬ (manager.create options index call now).KeepsClients := by
  intro keepsClients
  have evicted := (sound.evictForAdmission options).sound
  obtain ⟨isBorn, isKey, runs⟩ := evicted.resident call.key other isCurrent
  obtain ⟨respawnBudgets, isAdmitted⟩ :=
    ensureRespawnAllowed_spec (manager.evictForAdmission options) call.key
  rw [LspManager.create, if_pos isAllowed, isAdmitted] at keepsClients
  have different := Nat.ne_of_lt isBorn
  have isOld := managed_update (manager.evictForAdmission options)
    (manager.evictForAdmission options).nextClient (newManaged call.key false now) other
  rw [if_neg different] at isOld
  have isNew := managed_update (manager.evictForAdmission options)
    (manager.evictForAdmission options).nextClient (newManaged call.key false now)
    (manager.evictForAdmission options).nextClient
  rw [if_pos rfl] at isNew
  refine different (keepsClients.single other (Nat.lt_succ_of_lt isBorn)
    (manager.evictForAdmission options).nextClient (Nat.lt_succ_self _) ?_ ?_ ?_)
  · exact (congrArg ManagedClient.stopBegun isOld).trans runs
  · exact congrArg ManagedClient.stopBegun isNew
  · exact ((congrArg ManagedClient.key isOld).trans isKey).trans
      (congrArg ManagedClient.key isNew).symm

theorem not_keepsClients_of_breaks (breaks : manager.Breaks options label)
    (stepped : manager.step options label = some next) : ¬ next.KeepsClients := by
  cases label with
  | releaseClient index now =>
    obtain ⟨call, client, other, isCall, isHeld, isCurrent, different, isCounted⟩ := breaks
    simp only [LspManager.step, isCall, Option.bind_some, isHeld, Option.some.injEq] at stepped
    subst stepped
    exact not_keepsClients_of_release sound isCall isHeld isCurrent different isCounted
  | resume index bySignal alive now =>
    obtain ⟨call, isCall, ⟨client, creates, rfl, runs, isUsed⟩ |
      ⟨stop, other, isPhase, isAllowed, isCurrent⟩⟩ := breaks
    · simp only [LspManager.step, isCall, Option.bind_some, LspManager.resume, creates]
        at stepped
      exact not_keepsClients_of_abort sound isCall creates runs isUsed stepped
    · simp only [LspManager.step, isCall, Option.bind_some, LspManager.resume, isPhase]
        at stepped
      split at stepped
      · cases stepped
        exact not_keepsClients_of_create sound isAllowed isCurrent
      · cases stepped
  | _ => exact breaks.elim

end

/-- Wherever a run passes, there is one client for each key, the counts are right and no
client in use has been stopped, exactly when no step of the run is one of the three. -/
theorem keepsClients_iff (options : LspManagerOptions) (labels : List ManagerLabel) :
    (∀ front final, front <+: labels → execute (step options) fresh front = some final →
      final.KeepsClients) ↔
      EveryStep (step options) (fun before label _ => ¬ before.Breaks options label) fresh labels :=
  reached_iff_everyStep
    (fun _ _ _ sound keeps stepped => sound.step keeps stepped)
    (fun _ sound => sound.keepsClients)
    (fun _ _ _ sound breaks stepped =>
      not_keepsClients_of_breaks sound (not_not.mp breaks) stepped)
    sound_fresh

/-- The caller that made a client gives up while another one waits for it. -/
theorem not_keepsClients_abort :
    ¬ ∀ (options : LspManagerOptions) (labels : List ManagerLabel) (final : LspManager),
      execute (step options) fresh labels = some final → final.KeepsClients := by
  intro keepsClients
  have reached : ∃ final, execute (step ⟨300000, 60000, 6⟩) fresh
      [.getClient 0 "r" "s" true false true 0, .getClient 1 "r" "s" false false true 1,
        .abort 0, .resume 0 true true 2] = some final ∧
      ⟨0, .aborted, true⟩ ∈ final.stopLog :=
    ⟨_, rfl, by decide⟩
  obtain ⟨final, isFinal, isLogged⟩ := reached
  have isSpared := (keepsClients _ _ final isFinal).spared _ isLogged trivial
  cases isSpared

end LspManager
end OpenAgent.Lsp
