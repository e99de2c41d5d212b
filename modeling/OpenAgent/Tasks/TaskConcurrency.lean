import OpenAgent.Library.Collections
import OpenAgent.Library.Execution
import Mathlib.Data.List.MinMax

/-!
# The concurrency allocator

Runs take leases in lanes, one lane for each limited model or provider, and all lanes
share one global limit.  A run that finds no room waits in the queue of its lane, and
a released lease lets the oldest head that has room in.  The grant of a waiter is a
call back into the caller, which may use the allocator before it returns; so the
machine below counts the dispatch loops whose grant has not returned yet.
-/

namespace OpenAgent.Tasks

open Library

/-- The limits are natural numbers, as the settings schema has them. -/
structure TaskConcurrencyConfig where
  defaultConcurrency : Option Nat
  providerConcurrency : List (String × Nat)
  modelConcurrency : List (String × Nat)
  globalConcurrency : Option Nat

/-- A run that waits in its lane. -/
structure Waiter where
  model : String
  laneKey : String
  taskId : String
  runEpoch : Nat
  sequence : Nat

/-- A lease, with the model that it was taken for. -/
structure Lease where
  model : String
  laneKey : String
  taskId : String
  runEpoch : Nat

/-- The key of a lease.  Its text form starts with the length of the task's id, so it
tells the two parts apart. -/
def leaseKeyOf (taskId : String) (runEpoch : Nat) : String × Nat :=
  (taskId, runEpoch)

structure TaskConcurrency where
  counts : List (String × Nat)
  queues : List (String × List Waiter)
  leases : List ((String × Nat) × Lease)
  enqueueSequence : Nat

def defaultLimit : Nat := 5

def providerOf (model : String) : String :=
  String.ofList (model.toList.takeWhile (· ≠ '/'))

/-- A limit of zero is none. -/
def positiveLimit (limit : Nat) : Option Nat :=
  if limit = 0 then none else some limit

namespace TaskConcurrencyConfig

variable (config : TaskConcurrencyConfig)

/-- The limit of a model's lane under that model, or none when it is unbounded. -/
def getLimit (model : String) : Option Nat :=
  match mapGet config.modelConcurrency model with
  | some modelLimit => positiveLimit modelLimit
  | none =>
    match mapGet config.providerConcurrency (providerOf model) with
    | some providerLimit => positiveLimit providerLimit
    | none => positiveLimit (config.defaultConcurrency.getD defaultLimit)

def getKey (model : String) : String :=
  if (mapGet config.modelConcurrency model).isSome then model
  else if (mapGet config.providerConcurrency (providerOf model)).isSome then providerOf model
  else model

/-- The global limit, or none. -/
def globalLimit : Option Nat :=
  config.globalConcurrency.bind positiveLimit

end TaskConcurrencyConfig

/-- A count has room under a limit. -/
def below (count : Nat) (limit : Option Nat) : Bool :=
  limit.all (count < ·)

namespace TaskConcurrency

variable (config : TaskConcurrencyConfig) (state : TaskConcurrency)

def getCount (laneKey : String) : Nat :=
  (mapGet state.counts laneKey).getD 0

def laneHasRoom (model laneKey : String) : Bool :=
  below (state.getCount laneKey) (config.getLimit model)

def globalHasRoom : Bool :=
  below state.leases.length config.globalLimit

def recordLease (lease : Lease) (state : TaskConcurrency) : TaskConcurrency :=
  { state with
    leases := mapSet state.leases (leaseKeyOf lease.taskId lease.runEpoch) lease
    counts :=
      if (config.getLimit lease.model).isNone then state.counts
      else mapSet state.counts lease.laneKey (state.getCount lease.laneKey + 1) }

def dropLease (lease : Lease) (state : TaskConcurrency) : TaskConcurrency :=
  { state with
    leases := mapDelete state.leases (leaseKeyOf lease.taskId lease.runEpoch)
    counts :=
      if state.getCount lease.laneKey ≤ 1 then mapDelete state.counts lease.laneKey
      else mapSet state.counts lease.laneKey (state.getCount lease.laneKey - 1) }

section

variable (model taskId : String)

def tryAcquire (runEpoch : Nat) (state : TaskConcurrency) : Bool × TaskConcurrency :=
  let laneKey := config.getKey model
  if (mapGet state.leases (leaseKeyOf taskId runEpoch)).isSome then (false, state)
  else if (mapGet state.queues laneKey).isSome then (false, state)
  else if !state.laneHasRoom config model laneKey || !state.globalHasRoom config then
    (false, state)
  else (true, recordLease config ⟨model, laneKey, taskId, runEpoch⟩ state)

def enqueue (runEpoch : Nat) (state : TaskConcurrency) : TaskConcurrency :=
  let laneKey := config.getKey model
  let queue := (mapGet state.queues laneKey).getD []
  { state with
    queues := mapSet state.queues laneKey
      (queue ++ [⟨model, laneKey, taskId, runEpoch, state.enqueueSequence⟩])
    enqueueSequence := state.enqueueSequence + 1 }

/-- A queue that has become empty goes. -/
def setQueue (laneKey : String) (queue : List Waiter) (state : TaskConcurrency) : TaskConcurrency :=
  { state with
    queues :=
      if queue.isEmpty then mapDelete state.queues laneKey
      else mapSet state.queues laneKey queue }

def remove (state : TaskConcurrency) : Bool × TaskConcurrency :=
  let laneKey := config.getKey model
  match mapGet state.queues laneKey with
  | none => (false, state)
  | some queue =>
    if queue.any (·.taskId = taskId) then
      (true, setQueue laneKey (queue.eraseP (·.taskId = taskId)) state)
    else (false, state)

end

/-- The heads of the queues that have room in their lanes. -/
def eligibleHeads : List Waiter :=
  state.queues.filterMap fun entry =>
    entry.2.head?.filter fun head => state.laneHasRoom config head.model entry.1

/-- The lease of a waiter whose turn has come. -/
def leaseOf (waiter : Waiter) : Lease :=
  ⟨waiter.model, waiter.laneKey, waiter.taskId, waiter.runEpoch⟩

/-- The queue of the selected waiter without it, and its lease. -/
def grant (selected : Waiter) (state : TaskConcurrency) : TaskConcurrency :=
  recordLease config (leaseOf selected)
    (setQueue selected.laneKey ((mapGet state.queues selected.laneKey).getD []).tail state)

/-- One round of the dispatch loop up to the grant.  Empty queues are dropped on the
way, and the loop is over when it selects nobody. -/
def dispatchRound : Option Waiter × TaskConcurrency :=
  if !state.globalHasRoom config then (none, state)
  else
    let pruned := { state with queues := state.queues.filter fun entry => !entry.2.isEmpty }
    match (pruned.eligibleHeads config).argmin Waiter.sequence with
    | none => (none, pruned)
    | some selected => (some selected, grant config selected pruned)

end TaskConcurrency

/-- A call of the allocator, or the return of the grant that runs. -/
inductive ConcurrencyCall
  | tryAcquire (model taskId : String) (runEpoch : Nat)
  | enqueue (model taskId : String) (runEpoch : Nat)
  | remove (model taskId : String)
  | releaseLease (taskId : String) (runEpoch : Nat)
  | grantReturns

/-- The allocator with the dispatch loops that wait for a grant to return, the inner
ones for calls that the outer grants made.  The waiters granted so far and the keys
acquired or enqueued so far stand beside it. -/
structure Allocation where
  allocator : TaskConcurrency
  loops : Nat
  grants : List Waiter
  introduced : List (String × Nat)

namespace Allocation

variable (config : TaskConcurrencyConfig)

def empty : Allocation := ⟨⟨[], [], [], 0⟩, 0, [], []⟩

/-- A round of a dispatch loop under `outer` other ones. -/
def dispatch (outer : Nat) (state : Allocation) : Allocation :=
  match state.allocator.dispatchRound config with
  | (none, allocator) => { state with allocator := allocator, loops := outer }
  | (some granted, allocator) =>
    { state with
      allocator := allocator
      loops := outer + 1
      grants := state.grants ++ [granted] }

/-- What the call does before it looks for waiters, if it does. -/
def beforeDispatch (state : Allocation) : ConcurrencyCall → Option Allocation
  | .releaseLease taskId runEpoch =>
    (mapGet state.allocator.leases (leaseKeyOf taskId runEpoch)).map fun lease =>
      { state with allocator := state.allocator.dropLease lease }
  | .grantReturns => some state
  | _ => none

/-- One call, up to the next grant or its return. -/
def step (state : Allocation) : ConcurrencyCall → Option Allocation
  | .tryAcquire model taskId runEpoch =>
    match state.allocator.tryAcquire config model taskId runEpoch with
    | (false, allocator) => some { state with allocator := allocator }
    | (true, allocator) =>
      some { state with
        allocator := allocator
        introduced := state.introduced ++ [leaseKeyOf taskId runEpoch] }
  | .enqueue model taskId runEpoch =>
    some { state with
      allocator := state.allocator.enqueue config model taskId runEpoch
      introduced := state.introduced ++ [leaseKeyOf taskId runEpoch] }
  | .remove model taskId =>
    some { state with allocator := (state.allocator.remove config model taskId).2 }
  | .releaseLease taskId runEpoch =>
    some (((state.beforeDispatch (.releaseLease taskId runEpoch)).map
      (dispatch config state.loops)).getD state)
  | .grantReturns =>
    if state.loops = 0 then none else some (dispatch config (state.loops - 1) state)

end Allocation

end OpenAgent.Tasks
