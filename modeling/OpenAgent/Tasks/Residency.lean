import OpenAgent.Library.Collections
import OpenAgent.Library.Execution
import OpenAgent.Tasks.TaskRecord

/-!
# Residency of the children of a session

A session may keep only so many children in memory.  A start asks for admission, which
counts the resident records of the session and evicts an ended child when they are too
many; the record of the new child is created later.  A sweep that revives suspended
children counts once under the lease of the session and then claims record by record.
Managers and processes share the records and the lease files; a step is one section
that no other step of its process, and under a lock no step of any process, can divide.
-/

namespace OpenAgent.Tasks

open Library

/-- `max_children`. -/
inductive ResidencyMaxChildren
  | unlimited
  | children (count : Nat)

/-- The limits of a manager. -/
structure ResidencySettings where
  maxChildren : ResidencyMaxChildren
  staleMs : Nat

/-- Both the literal and a cap of zero stand for no cap. -/
def isUnbounded : ResidencyMaxChildren → Bool
  | .unlimited => true
  | .children count => count = 0

/-- A record with the session that it belongs to. -/
structure SessionTask where
  parentSessionId : String
  record : TaskRecord
  deriving DecidableEq

/-- What stands in a lease file.  A token is made anew for each acquisition. -/
inductive LeaseFile
  | corrupt
  | body (token renewedAt : Nat)
  deriving DecidableEq

/-- Where a call of a manager stands, in front of its next step. -/
inductive CallPoint
  /-- The idle sweep waits for the teardown of a child. -/
  | reclaiming (victim : String)
  /-- An admission waits for the teardown of a child. -/
  | evicting (victim : String)
  /-- A start was admitted, and its record does not exist yet. -/
  | admitted
  /-- The record was created and is yet to be written with its plan. -/
  | claimed (taskId : String) (draft : SessionTask)
  deriving DecidableEq

/-- A call that asks for a slot. -/
structure ManagerCall where
  manager : Nat
  parentSessionId : String
  point : CallPoint

/-- Why a record is not claimed. -/
inductive BatchAdmissionDeferral
  | capacity
  | lockContended
  | foreignLiveOwner
  | leaseLost

inductive BatchAdmissionOutcome
  | claimed (taskId : String)
  | deferred (taskId : String) (reason : BatchAdmissionDeferral)

inductive BatchLease
  | acquired
  | lockContended
  | leaseLost

/-- What a sweep returns. -/
structure BatchAdmissionResult where
  lease : BatchLease
  outcomes : List BatchAdmissionOutcome

/-- Where a sweep stands. -/
inductive SweepPoint
  | acquiring
  | observing
  | takingOver (observed : LeaseFile)
  /-- The lease is acquired, and nothing has been counted. -/
  | surveying
  /-- In front of `isOwner` for the first of the selected records. -/
  | claiming (remaining : List String)
  /-- In front of the claim of a record, after `isOwner` held. -/
  | writing (taskId : String) (remaining : List String)
  deriving DecidableEq

/-- A run of `admitSuspendedBatch`. -/
structure Sweep where
  manager : Nat
  parentSessionId : String
  excludeTaskIds : List String
  point : SweepPoint
  result : BatchAdmissionResult
  overflow : List String

/-- The records by their ids, what each manager keeps for its children, the calls of the
managers, the lease files of the sessions, the sweeps by their tokens, and what the
sweeps that ended returned. -/
structure ResidencyWorld where
  records : List (String × SessionTask)
  evicting : List (Nat × String)
  sends : List (Nat × String)
  steeringPending : List (Nat × String)
  calls : List (Nat × ManagerCall)
  leases : List (String × LeaseFile)
  sweeps : List (Nat × Sweep)
  returned : List (Nat × BatchAdmissionResult)

/-- `AgentLimitReached` names the residents. -/
inductive AdmissionResult
  | admitted
  | evicts (victim : String)
  | rejected (residents : List (String × TaskStatus))

/-- A step of the managers. -/
inductive ResidencyLabel
  /-- `start` or `startOwned` asks for admission. -/
  | requestSlot (call manager : Nat) (parentSessionId : String)
  /-- `reclaimIdleResidents` comes to a record that it looks at again. -/
  | reclaim (call manager : Nat) (taskId : String) (cutoff : Nat)
  /-- The teardown of an evicted child ends. -/
  | evicted (call now : Nat) (failed : Bool)
  /-- `claimTaskRecord` has found a free id. -/
  | create (call : Nat) (input : TaskRecordInput) (now : Nat)
  /-- The new record is written with its plan. -/
  | bookkeep (call : Nat) (model : String) (resolvedModel : Option String)
      (fallbackModels : List String)
  /-- A call ends before its next step: a denial, a failure, an owned task that is
  there, or the end of its process. -/
  | endCall (call : Nat)
  | tryBeginSend (manager : Nat) (taskId : String)
  | endSend (manager : Nat) (taskId : String)
  | steer (steeringPending : List (Nat × String))
  | beginSweep (token manager : Nat) (parentSessionId : String) (excludeTaskIds : List String)
  /-- A sweep goes on.  It may fail to get the lock of its section, or have waited too
  long for the lease. -/
  | sweep (token now : Nat) (contended timedOut : Bool)
  | renew (token now : Nat)
  | crashSweep (token : Nat)
  /-- Anything else that happens to a record, none of which makes it resident. -/
  | change (taskId : String) (next : TaskRecord)
  | remove (taskId : String)

namespace SessionTask

variable (task : SessionTask) (parentSessionId : String)

/-- The record is a resident of the session. -/
def residesIn : Bool :=
  task.parentSessionId = parentSessionId && task.record.residencyState = .resident

def isSuspended : Bool :=
  task.record.residencyState = .persistedOnly || task.record.residencyState = .rpcDetached

def isRevivable : Bool :=
  task.record.status = .pending || task.record.status = .running ||
    task.record.status = .interrupted

/-- The record can be revived into its session. -/
def revivableIn : Bool :=
  task.parentSessionId = parentSessionId && task.isSuspended && task.isRevivable &&
    !task.record.killed

end SessionTask

namespace LeaseFile

def isStale (staleMs now : Nat) : LeaseFile → Bool
  | .corrupt => true
  | .body _ renewedAt => renewedAt + staleMs < now

def hasToken (token : Nat) : LeaseFile → Bool
  | .corrupt => false
  | .body held _ => held = token

end LeaseFile

namespace ResidencyWorld

variable (world : ResidencyWorld)

/-- The records in the order of their file names. -/
def list : List (String × SessionTask) :=
  stableSort (fun left right => codeUnitLE left.1 right.1) world.records

def residentsFor (parentSessionId : String) : List (String × SessionTask) :=
  world.list.filter fun entry => entry.2.residesIn parentSessionId

def hasPendingSends (manager : Nat) (taskId : String) : Bool :=
  (manager, taskId) ∈ world.sends || (manager, taskId) ∈ world.steeringPending

/-- The ended resident without messages that was touched the longest ago. -/
def lruEvictable (manager : Nat) (residents : List (String × SessionTask)) : Option String :=
  let evictable := residents.filter fun entry =>
    entry.2.record.status.isTerminal && !world.hasPendingSends manager entry.1
  ((stableSort (fun left right => left.2.record.updatedAt ≤ right.2.record.updatedAt)
    evictable).head?).map Prod.fst

section

variable (settings : ResidencySettings)

section

variable (manager : Nat)

def admitResident (parentSessionId : String) : AdmissionResult :=
  let residents := world.residentsFor parentSessionId
  match settings.maxChildren with
  | .unlimited => .admitted
  | .children count =>
    if isUnbounded settings.maxChildren || residents.length < count then .admitted
    else
      match world.lruEvictable manager residents with
      | none => .rejected (residents.map fun entry => (entry.1, entry.2.record.status))
      | some victim => .evicts victim

section

variable (taskId : String)

/-- A child with a send under way, or in an eviction, cannot be claimed for one. -/
def canClaimEviction : Bool :=
  (manager, taskId) ∉ world.sends && (manager, taskId) ∉ world.evicting

def tryClaimEviction : Option ResidencyWorld :=
  if world.canClaimEviction manager taskId then
    some { world with evicting := (manager, taskId) :: world.evicting }
  else none

def releaseEviction : ResidencyWorld :=
  { world with evicting := world.evicting.erase (manager, taskId) }

def writeRecord (task : SessionTask) : ResidencyWorld :=
  { world with records := mapSet world.records taskId task }

/-- A record that is gone has nothing to say about its residency. -/
def recordResidency (now : Nat) : ResidencyWorld :=
  match mapGet world.records taskId with
  | none => world
  | some task =>
    let record := (transitionTaskRecord task.record (.evict now)).record
    world.writeRecord taskId { task with record }

end

def enter (call : Nat) (entered : ManagerCall) : ResidencyWorld :=
  { world with calls := mapSet world.calls call entered }

def leave (call : Nat) : ResidencyWorld :=
  { world with calls := mapDelete world.calls call }

/-- An admission up to its first wait.  An eviction that cannot be claimed is taken for
done. -/
def requestSlot (call manager : Nat) (parentSessionId : String) : ResidencyWorld :=
  match world.admitResident settings manager parentSessionId with
  | .rejected _ => world
  | .admitted => world.enter call ⟨manager, parentSessionId, .admitted⟩
  | .evicts victim =>
    match world.tryClaimEviction manager victim with
    | none => world.enter call ⟨manager, parentSessionId, .admitted⟩
    | some claimed => claimed.enter call ⟨manager, parentSessionId, .evicting victim⟩

/-- An idle resident is evicted when it still is one. -/
def reclaim (call manager : Nat) (taskId : String) (cutoff : Nat) : Option ResidencyWorld :=
  match mapGet world.records taskId with
  | none => none
  | some task =>
    if task.record.residencyState = .resident && task.record.status.isTerminal &&
        task.record.updatedAt ≤ cutoff && !world.hasPendingSends manager taskId then
      (world.tryClaimEviction manager taskId).map fun claimed =>
        claimed.enter call ⟨manager, task.parentSessionId, .reclaiming taskId⟩
    else none

/-- The end of `destroyResidentTask` with the teardown behind it. -/
def destroyed (victim : String) (now : Nat) (failed : Bool) : ResidencyWorld :=
  if failed then world.releaseEviction manager victim
  else (world.recordResidency victim now).releaseEviction manager victim

end

def evicted (call now : Nat) (failed : Bool) : Option ResidencyWorld :=
  match mapGet world.calls call with
  | some ⟨manager, _, .reclaiming victim⟩ =>
    some ((world.destroyed manager victim now failed).leave call)
  | some ⟨manager, parentSessionId, .evicting victim⟩ =>
    let after := world.destroyed manager victim now failed
    if failed then some (after.leave call)
    else some (after.enter call ⟨manager, parentSessionId, .admitted⟩)
  | _ => none

def create (call : Nat) (input : TaskRecordInput) (now : Nat) : Option ResidencyWorld :=
  match mapGet world.calls call, mapGet world.records input.taskId with
  | some ⟨manager, parentSessionId, .admitted⟩, none =>
    let draft : SessionTask := ⟨parentSessionId, createTaskRecord input manager now⟩
    some ((world.writeRecord input.taskId draft).enter call
      ⟨manager, parentSessionId, .claimed input.taskId draft⟩)
  | _, _ => none

/-- The second write of a start does not look at the record. -/
def bookkeep (call : Nat) (model : String) (resolvedModel : Option String)
    (fallbackModels : List String) : Option ResidencyWorld :=
  match mapGet world.calls call with
  | some ⟨_, _, .claimed taskId draft⟩ =>
    let record := { draft.record with
      model
      resolvedModel := resolvedModel.or draft.record.resolvedModel
      fallbackModels }
    some ((world.writeRecord taskId { draft with record }).leave call)
  | _ => none

variable (parentSessionId : String)

def isOwner (token : Nat) : Bool :=
  match mapGet world.leases parentSessionId with
  | none => false
  | some lease => lease.hasToken token

def writeLease (token now : Nat) : ResidencyWorld :=
  { world with leases := mapSet world.leases parentSessionId (.body token now) }

/-- The lease is taken when it still is the one that was observed, and stale. -/
def canTakeOver (observed : LeaseFile) (now : Nat) : Bool :=
  match mapGet world.leases parentSessionId, observed with
  | none, _ => false
  | some .corrupt, _ => observed = .corrupt
  | some (.body _ _), .corrupt => false
  | some (.body token renewedAt), .body observedToken _ =>
    token = observedToken && renewedAt + settings.staleMs < now

/-- The lease is removed only by its owner. -/
def releaseLease (token : Nat) : ResidencyWorld :=
  if world.isOwner parentSessionId token then
    { world with leases := mapDelete world.leases parentSessionId }
  else world

def revivalCandidates (excludeTaskIds : List String) : List (String × SessionTask) :=
  world.list.filter fun entry =>
    entry.1 ∉ excludeTaskIds && entry.2.revivableIn parentSessionId

def revivalLE (left right : String × SessionTask) : Bool :=
  if left.2.record.status.isTerminal ≠ right.2.record.status.isTerminal then
    right.2.record.status.isTerminal
  else if left.2.record.updatedAt ≠ right.2.record.updatedAt then
    right.2.record.updatedAt < left.2.record.updatedAt
  else codeUnitLE left.1 right.1

def byRevivalPriority (records : List (String × SessionTask)) : List (String × SessionTask) :=
  stableSort revivalLE records

def available (candidates : List (String × SessionTask)) : Nat :=
  match settings.maxChildren with
  | .unlimited => candidates.length
  | .children count =>
    if isUnbounded settings.maxChildren then candidates.length
    else count - (world.residentsFor parentSessionId).length

end

/-- The claim lands only on a record that can still be revived. -/
def claimResidencySlot (manager : Nat) (parentSessionId taskId : String) (now : Nat) :
    Option ResidencyWorld :=
  match mapGet world.records taskId with
  | none => none
  | some task =>
    if task.revivableIn parentSessionId then
      let record := { task.record with
        residencyState := .resident
        hostPid := some manager
        updatedAt := now }
      some (world.writeRecord taskId { task with record })
    else none

variable (token : Nat)

def goOn (sweep : Sweep) : ResidencyWorld :=
  { world with sweeps := mapSet world.sweeps token sweep }

def endSweep (result : BatchAdmissionResult) : ResidencyWorld :=
  { world with
    sweeps := mapDelete world.sweeps token
    returned := (token, result) :: world.returned }

/-- The sweep gives up waiting for the lease, or tries again. -/
def retry (sweep : Sweep) (timedOut : Bool) : ResidencyWorld :=
  if timedOut then
    let candidates := world.revivalCandidates sweep.parentSessionId sweep.excludeTaskIds
    world.endSweep token
      ⟨.lockContended, candidates.map fun entry => .deferred entry.1 .lockContended⟩
  else world.goOn token { sweep with point := .acquiring }

end ResidencyWorld

namespace Sweep

/-- The sweep with one record more that it is through with. -/
def report (sweep : Sweep) (outcome : BatchAdmissionOutcome) (remaining : List String) : Sweep :=
  { sweep with
    point := .claiming remaining
    result := { sweep.result with outcomes := sweep.result.outcomes ++ [outcome] } }

/-- What the sweep returns: the records beyond the capacity stay suspended. -/
def outcome (sweep : Sweep) : BatchAdmissionResult :=
  { sweep.result with
    outcomes := sweep.result.outcomes ++
      sweep.overflow.map fun taskId => .deferred taskId .capacity }

end Sweep

namespace ResidencyWorld

def proceed (world : ResidencyWorld) (settings : ResidencySettings) (token now : Nat)
    (contended timedOut : Bool) (sweep : Sweep) : ResidencyWorld :=
  match sweep.point with
  | .acquiring =>
    match mapGet world.leases sweep.parentSessionId with
    | none =>
      (world.writeLease sweep.parentSessionId token now).goOn token
        { sweep with point := .surveying }
    | some _ => world.goOn token { sweep with point := .observing }
  | .observing =>
    match mapGet world.leases sweep.parentSessionId with
    | none => world.goOn token { sweep with point := .acquiring }
    | some observed =>
      if observed.isStale settings.staleMs now then
        world.goOn token { sweep with point := .takingOver observed }
      else world.retry token sweep timedOut
  | .takingOver observed =>
    if !contended && world.canTakeOver settings sweep.parentSessionId observed now then
      (world.writeLease sweep.parentSessionId token now).goOn token
        { sweep with point := .surveying }
    else world.retry token sweep timedOut
  | .surveying =>
    let candidates :=
      byRevivalPriority (world.revivalCandidates sweep.parentSessionId sweep.excludeTaskIds)
    let available := world.available settings sweep.parentSessionId candidates
    world.goOn token { sweep with
      point := .claiming ((candidates.take available).map Prod.fst)
      overflow := (candidates.drop available).map Prod.fst }
  | .claiming [] =>
    let after :=
      if contended then world else world.releaseLease sweep.parentSessionId token
    after.endSweep token sweep.outcome
  | .claiming (taskId :: remaining) =>
    if world.isOwner sweep.parentSessionId token then
      world.goOn token { sweep with point := .writing taskId remaining }
    else
      world.goOn token { sweep.report (.deferred taskId .leaseLost) remaining with
        result.lease := .leaseLost }
  | .writing taskId remaining =>
    if contended then
      world.goOn token (sweep.report (.deferred taskId .lockContended) remaining)
    else
      match world.claimResidencySlot sweep.manager sweep.parentSessionId taskId now with
      | none => world.goOn token (sweep.report (.deferred taskId .foreignLiveOwner) remaining)
      | some claimed => claimed.goOn token (sweep.report (.claimed taskId) remaining)

def step (settings : ResidencySettings)
    (world : ResidencyWorld) : ResidencyLabel → Option ResidencyWorld
  | .requestSlot call manager parentSessionId =>
    match mapGet world.calls call with
    | none => some (world.requestSlot settings call manager parentSessionId)
    | some _ => none
  | .reclaim call manager taskId cutoff =>
    match mapGet world.calls call with
    | none => world.reclaim call manager taskId cutoff
    | some _ => none
  | .evicted call now failed => world.evicted call now failed
  | .create call input now => world.create call input now
  | .bookkeep call model resolvedModel fallbackModels =>
    world.bookkeep call model resolvedModel fallbackModels
  | .endCall call => some (world.leave call)
  | .tryBeginSend manager taskId =>
    if (manager, taskId) ∈ world.evicting then none
    else some { world with sends := (manager, taskId) :: world.sends }
  | .endSend manager taskId =>
    some { world with sends := world.sends.erase (manager, taskId) }
  | .steer steeringPending => some { world with steeringPending }
  | .beginSweep token manager parentSessionId excludeTaskIds =>
    match mapGet world.sweeps token with
    | none =>
      if world.isOwner parentSessionId token then none
      else
        some (world.goOn token
          ⟨manager, parentSessionId, excludeTaskIds, .acquiring, ⟨.acquired, []⟩, []⟩)
    | some _ => none
  | .sweep token now contended timedOut =>
    (mapGet world.sweeps token).map (world.proceed settings token now contended timedOut)
  | .renew token now =>
    match mapGet world.sweeps token with
    | none => none
    | some sweep =>
      if world.isOwner sweep.parentSessionId token then
        some (world.writeLease sweep.parentSessionId token now)
      else none
  | .crashSweep token => some { world with sweeps := mapDelete world.sweeps token }
  | .change taskId next =>
    match mapGet world.records taskId with
    | none => none
    | some task =>
      if next.residencyState = .resident && task.record.residencyState ≠ .resident then none
      else some (world.writeRecord taskId { task with record := next })
  | .remove taskId => some { world with records := mapDelete world.records taskId }

end ResidencyWorld

end OpenAgent.Tasks
