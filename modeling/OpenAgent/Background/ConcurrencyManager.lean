import Mathlib.Algebra.Field.Rat
import OpenAgent.Background.BackgroundTask

/-!
# The concurrency manager

`concurrency.ts`: slots for each concurrency key, with a queue of those who wait for one.
Each call of `acquire` has a ticket, on which its promise is settled.  A limit is any number
that is not negative, as the schema has it.
-/

namespace OpenAgent.Background

/-- `BackgroundTaskConfig`. -/
structure BackgroundTaskConfig where
  modelConcurrency : List (Name × ℚ≥0)
  providerConcurrency : List (Name × ℚ≥0)
  defaultConcurrency : Option ℚ≥0
  maxLiveDescendantsPerRoot : Option Nat

namespace BackgroundTaskConfig

/-- `model.split('/')[0]`. -/
def providerOf (model : Name) : Name :=
  model.takeWhile (· ≠ '/')

/-- A limit of 0 stands for `Infinity`, which is `none`. -/
def unlimitedZero (limit : ℚ≥0) : Option ℚ≥0 :=
  if limit = 0 then none else some limit

variable (config : BackgroundTaskConfig)

/-- `getConcurrencyLimit`. -/
def concurrencyLimit (model : Name) : Option ℚ≥0 :=
  match config.modelConcurrency.lookup model with
  | some limit => unlimitedZero limit
  | none =>
    match config.providerConcurrency.lookup (providerOf model) with
    | some limit => unlimitedZero limit
    | none =>
      match config.defaultConcurrency with
      | some limit => unlimitedZero limit
      | none => some 5

/-- `getConcurrencyKey`. -/
def concurrencyKey (model : Name) : Name :=
  if (config.modelConcurrency.lookup model).isSome then model
  else if providerOf model ≠ [] ∧ (config.providerConcurrency.lookup (providerOf model)).isSome
  then providerOf model
  else model

/-- `getMaxLiveDescendantsPerRoot`, with `DEFAULT_MAX_LIVE_DESCENDANTS_PER_ROOT`. -/
def maxLiveDescendants : Nat :=
  config.maxLiveDescendantsPerRoot.getD 24

end BackgroundTaskConfig

abbrev Ticket := Nat

/-- The promise of an `acquire`. -/
inductive TicketState
  | waiting
  | granted
  | rejected
  deriving DecidableEq

/-- The settled flag keeps an entry from being settled twice. -/
structure QueueEntry where
  ticket : Ticket
  taskId : Option TaskId
  settled : Bool
  deriving DecidableEq

structure ConcurrencyManager where
  counts : Name → Nat
  queues : Name → List QueueEntry
  tickets : Ticket → TicketState
  nextTicket : Ticket
  /-- The calls that settled a promise, in their order. -/
  settlements : List Ticket

namespace ConcurrencyManager

def empty : ConcurrencyManager where
  counts := fun _ => 0
  queues := fun _ => []
  tickets := fun _ => .waiting
  nextTicket := 0
  settlements := []

section

variable (manager : ConcurrencyManager)

def setCount (key : Name) (count : Nat) : ConcurrencyManager :=
  { manager with counts := Function.update manager.counts key count }

def setQueue (key : Name) (queue : List QueueEntry) : ConcurrencyManager :=
  { manager with queues := Function.update manager.queues key queue }

/-- A promise is resolved or rejected. -/
def settle (ticket : Ticket) (state : TicketState) : ConcurrencyManager :=
  { manager with
    tickets := Function.update manager.tickets ticket state
    settlements := manager.settlements ++ [ticket] }

/-- The promise of a new call. -/
def issue : ConcurrencyManager :=
  { manager with nextTicket := manager.nextTicket + 1 }

end

variable (config : BackgroundTaskConfig) (model : Name)

/-- `acquire`; its ticket is the next one. -/
def acquire (taskId : Option TaskId) (manager : ConcurrencyManager) : ConcurrencyManager :=
  let key := config.concurrencyKey model
  let ticket := manager.nextTicket
  match config.concurrencyLimit model with
  | none => manager.issue.settle ticket .granted
  | some limit =>
    if (manager.counts key : ℚ≥0) < limit then
      (manager.setCount key (manager.counts key + 1)).issue.settle ticket .granted
    else
      manager.issue.setQueue key (manager.queues key ++ [{ ticket, taskId, settled := false }])

/-- The loop of `release`: the first entry that is not settled, and the entries after it. -/
def takeLive : List QueueEntry → Option (QueueEntry × List QueueEntry)
  | [] => none
  | next :: rest => if next.settled then takeLive rest else some (next, rest)

variable (manager : ConcurrencyManager)

/-- `release`. -/
def release : ConcurrencyManager :=
  let key := config.concurrencyKey model
  match takeLive (manager.queues key) with
  | some (next, rest) => (manager.setQueue key rest).settle next.ticket .granted
  | none => (manager.setQueue key []).setCount key (manager.counts key - 1)

/-- `cancelWaiter`. -/
def cancelWaiter (taskId : TaskId) (manager : ConcurrencyManager) : ConcurrencyManager :=
  let key := config.concurrencyKey model
  let queue := manager.queues key
  match queue.find? fun entry => entry.taskId = some taskId ∧ entry.settled = false with
  | none => manager
  | some entry => (manager.settle entry.ticket .rejected).setQueue key (queue.erase entry)

/-- `cancelWaiters`. -/
def cancelWaiters : ConcurrencyManager :=
  let key := config.concurrencyKey model
  let live := (manager.queues key).filter fun entry => entry.settled = false
  (live.foldl (fun manager entry => manager.settle entry.ticket .rejected) manager).setQueue key []

end ConcurrencyManager

end OpenAgent.Background
