import OpenAgent.Library.Execution
import OpenAgent.Library.Tally

/-!
# The manager of language server clients

The manager keeps one client for each root and server, shares it between callers and stops
it when it is idle, dead or in the way.  A label is one piece of code between two awaits, or
one thing that happens outside: an abort, a start or a stop that ends.  Clients, their
entries and their stops are numbered in the order in which they are made.
-/

namespace OpenAgent.Lsp

open Library

/-- The options of the manager. -/
structure LspManagerOptions where
  idleTimeoutMs : Int
  initTimeoutMs : Int
  maxResidentClients : Nat

def clientRespawnRetryLimit : Nat := 2

def clientRespawnCooldownMs : Int := 60000

/-- An entry with what is known of its client: whether it is being warmed up, the outcome of
its start and initialization, and whether a stop of it has begun. -/
structure ManagedClient where
  key : String
  refCount : Nat
  pendingWaiters : Nat
  lastUsedAt : Int
  initPromise : Bool
  isInitializing : Bool
  initializingSince : Option Int
  warming : Bool
  initialized : Option Bool
  stopBegun : Bool

/-- The dead generations of a key. -/
structure RespawnBudget where
  deadGenerations : Nat
  exhaustedAt : Option Int

/-- Why a client is stopped. -/
inductive StopCause
  | initTimeout
  | idle
  | evicted
  | orphaned
  | dead
  | initFailed
  | aborted
  | invalidated
  deriving DecidableEq

/-- A stop that begins, and whether a caller held the client or was about to receive it. -/
structure StopBegin where
  client : Nat
  cause : StopCause
  inUse : Bool
  deriving DecidableEq

/-- Where a call of `getClient` stands.  Behind an await its code runs up to the next one. -/
inductive CallPhase
  | running
  | awaitingStop (stop : Nat)
  | awaitingTimedOut (stop : Nat)
  | awaitingInit (client : Nat)
  | creating (client : Nat)
  | awaitingDead (stop : Nat)
  | failing (stop : Nat)
  | returned (client : Nat)
  | released (client : Nat)
  | threw
  deriving DecidableEq

structure Call where
  key : String
  hasSignal : Bool
  aborted : Bool
  phase : CallPhase

structure LspManager where
  nextClient : Nat
  managed : Nat → ManagedClient
  clients : List (String × Nat)
  nextStop : Nat
  settledStops : List Nat
  pendingStops : List (String × Nat)
  respawnBudgets : List (String × RespawnBudget)
  calls : List (Nat × Call)
  stopLog : List StopBegin

def getKey (root serverId : String) : String :=
  root ++ "::" ++ serverId

def ManagedClient.isIdle (managed : ManagedClient) : Bool :=
  managed.refCount = 0 ∧ managed.pendingWaiters = 0 ∧ managed.isInitializing = false

def ManagedClient.initTimedOut (options : LspManagerOptions) (managed : ManagedClient)
    (now : Int) : Bool :=
  managed.isInitializing &&
    managed.initializingSince.any fun since => options.initTimeoutMs < now - since

namespace Call

def holds (client : Nat) (call : Call) : Bool :=
  call.phase = .returned client

def waitsFor (client : Nat) (call : Call) : Bool :=
  call.phase = .awaitingInit client ∨ call.phase = .creating client

end Call

namespace LspManager

section

variable (manager : LspManager)

/-- Whether a caller holds a client, or is about to receive it: it waits for a client whose
initialization has not failed, and its signal is not aborted. -/
def isInUse (client : Nat) : Bool :=
  manager.calls.any fun entry =>
    entry.2.holds client ||
      (entry.2.waitsFor client && !entry.2.aborted &&
        (manager.managed client).initialized != some false)

def update (manager : LspManager) (client : Nat) (managed : ManagedClient) : LspManager :=
  { manager with managed := Function.update manager.managed client managed }

def putCall (index : Nat) (call : Call) : LspManager :=
  { manager with calls := mapSet manager.calls index call }

variable (key : String)

/-- Begin a stop, whose number is the next one. -/
def tombstoneStop (client : Nat) (cause : StopCause) : LspManager :=
  let managed := manager.managed client
  { manager.update client { managed with stopBegun := true } with
    nextStop := manager.nextStop + 1
    pendingStops := mapSet manager.pendingStops key manager.nextStop
    stopLog :=
      if managed.stopBegun then manager.stopLog
      else manager.stopLog ++ [⟨client, cause, manager.isInUse client⟩] }

/-- `clients.delete(key)` and a stop. -/
def deleteAndStop (client : Nat) (cause : StopCause) : LspManager :=
  { manager with clients := mapDelete manager.clients key }.tombstoneStop key client cause

/-- A stop behind `if (clients.get(key) === managed) clients.delete(key)`. -/
def discard (client : Nat) (cause : StopCause) : LspManager :=
  if mapGet manager.clients key = some client then manager.deleteAndStop key client cause
  else manager.tombstoneStop key client cause

def recordDeadGeneration : LspManager :=
  let budget := (mapGet manager.respawnBudgets key).getD ⟨0, none⟩
  { manager with
    respawnBudgets := mapSet manager.respawnBudgets key
      { budget with deadGenerations := budget.deadGenerations + 1 } }

def markHealthyGeneration : LspManager :=
  { manager with respawnBudgets := mapDelete manager.respawnBudgets key }

/-- Whether a spawn is allowed, with the budgets afterwards. -/
def ensureRespawnAllowed (now : Int) : Bool × LspManager :=
  match mapGet manager.respawnBudgets key with
  | none => (true, manager)
  | some budget =>
    let put := fun budget : RespawnBudget =>
      { manager with respawnBudgets := mapSet manager.respawnBudgets key budget }
    if budget.deadGenerations < clientRespawnRetryLimit then (true, manager)
    else
      match budget.exhaustedAt with
      | none => (false, put { budget with exhaustedAt := some now })
      | some exhaustedAt =>
        if now - exhaustedAt < clientRespawnCooldownMs then (false, manager)
        else (true, put ⟨0, none⟩)

end

section

variable (options : LspManagerOptions)

def reapEntry (now : Int) (manager : LspManager) (entry : String × Nat) : LspManager :=
  let managed := manager.managed entry.2
  if managed.initTimedOut options now then manager.deleteAndStop entry.1 entry.2 .initTimeout
  else if managed.isIdle ∧ options.idleTimeoutMs < now - managed.lastUsedAt then
    manager.deleteAndStop entry.1 entry.2 .idle
  else manager

def reapStale (now : Int) (manager : LspManager) : LspManager :=
  manager.clients.foldl (reapEntry options now) manager

def leastRecentlyUsedIdleClient (manager : LspManager) : Option (String × Nat) :=
  manager.clients.foldl
    (fun candidate entry =>
      if ¬ (manager.managed entry.2).isIdle then candidate
      else
        match candidate with
        | none => some entry
        | some best =>
          if (manager.managed entry.2).lastUsedAt < (manager.managed best.2).lastUsedAt then
            some entry
          else candidate)
    none

/-- The loop deletes an entry at each turn. -/
def evictFrom (options : LspManagerOptions) : Nat → LspManager → LspManager
  | 0, manager => manager
  | fuel + 1, manager =>
    if options.maxResidentClients ≤ manager.clients.length then
      match manager.leastRecentlyUsedIdleClient with
      | none => manager
      | some victim =>
        evictFrom options fuel (manager.deleteAndStop victim.1 victim.2 .evicted)
    else manager

variable (manager : LspManager)

def evictForAdmission : LspManager :=
  evictFrom options (manager.clients.length + 1) manager

/-- A new entry for a client that is being started. -/
def newManaged (key : String) (warming : Bool) (now : Int) : ManagedClient where
  key
  refCount := 0
  pendingWaiters := if warming then 0 else 1
  lastUsedAt := now
  initPromise := true
  isInitializing := true
  initializingSince := some now
  warming
  initialized := none
  stopBegun := false

def spawn (managed : ManagedClient) : LspManager :=
  { manager.update manager.nextClient managed with
    nextClient := manager.nextClient + 1
    clients := mapSet manager.clients managed.key manager.nextClient }

section

variable (index : Nat)

/-- A call makes a new client. -/
def create (call : Call) (now : Int) : LspManager :=
  let admitted := (manager.evictForAdmission options).ensureRespawnAllowed call.key now
  if admitted.1 then
    (admitted.2.spawn (newManaged call.key false now)).putCall index
      { call with phase := .creating admitted.2.nextClient }
  else admitted.2.putCall index { call with phase := .threw }

/-- The check for an orphan, behind which the call throws. -/
def leaveOrphan (call : Call) (client : Nat) : LspManager :=
  if (manager.managed client).isIdle ∧ mapGet manager.clients call.key = some client then
    (manager.deleteAndStop call.key client .orphaned).putCall index
      { call with phase := .failing manager.nextStop }
  else manager.putCall index { call with phase := .threw }

/-- A call has a client that is no longer being initialized. -/
def receive (call : Call) (client : Nat) (alive : Bool) (now : Int) : LspManager :=
  if call.aborted then manager.leaveOrphan index call client
  else if alive then
    let managed := manager.managed client
    ((manager.markHealthyGeneration call.key).update client
        { managed with refCount := managed.refCount + 1, lastUsedAt := now }).putCall index
      { call with phase := .returned client }
  else
    ((manager.recordDeadGeneration call.key).discard call.key client .dead).putCall index
      { call with phase := .awaitingDead manager.nextStop }

/-- A call from the loop over the pending stops to the next await. -/
def proceed (call : Call) (alive : Bool) (now : Int) : LspManager :=
  match mapGet manager.pendingStops call.key with
  | some stop => manager.putCall index { call with phase := .awaitingStop stop }
  | none =>
    match mapGet manager.clients call.key with
    | none => manager.create options index call now
    | some client =>
      let managed := manager.managed client
      if managed.initTimedOut options now then
        (manager.deleteAndStop call.key client .initTimeout).putCall index
          { call with phase := .awaitingTimedOut manager.nextStop }
      else if managed.initPromise then
        (manager.update client
            { managed with pendingWaiters := managed.pendingWaiters + 1 }).putCall index
          { call with phase := .awaitingInit client }
      else manager.receive index call client alive now

/-- A call from its start, or from its start over. -/
def enter (call : Call) (alive : Bool) (now : Int) : LspManager :=
  if call.aborted then manager.putCall index { call with phase := .threw }
  else manager.proceed options index call alive now

/-- A call no longer waits for a client. -/
def stopWaiting (call : Call) (client : Nat) : LspManager :=
  let managed := manager.managed client
  (manager.update client
      { managed with pendingWaiters := managed.pendingWaiters - 1 }).putCall index
    { call with phase := .running }

def finishInit (managed : ManagedClient) : ManagedClient :=
  { managed with isInitializing := false, initializingSince := none, initPromise := false }

/-- The call that made a client, behind its initialization.  With `bySignal` the await has
ended with the abort. -/
def resumeCreating (call : Call) (client : Nat) (bySignal alive : Bool) (now : Int) :
    Option LspManager :=
  let woken := manager.stopWaiting index call client
  let call := { call with phase := .running }
  if bySignal then
    if call.aborted then
      some ((woken.discard call.key client .aborted).putCall index
        { call with phase := .failing woken.nextStop })
    else none
  else
    match (manager.managed client).initialized with
    | none => none
    | some false =>
      some ((woken.discard call.key client .initFailed).putCall index
        { call with phase := .failing woken.nextStop })
    | some true =>
      some ((woken.update client (finishInit (woken.managed client))).receive index call client
        alive now)

/-- Another call, behind the initialization it waits for. -/
def resumeWaiting (call : Call) (client : Nat) (bySignal alive : Bool) (now : Int) :
    Option LspManager :=
  let woken := manager.stopWaiting index call client
  let call := { call with phase := .running }
  if bySignal then
    if call.aborted then some (woken.leaveOrphan index call client) else none
  else
    match (manager.managed client).initialized with
    | none => none
    | some false => some (woken.leaveOrphan index call client)
    | some true => some (woken.receive index call client alive now)

/-- A call behind the await at which it stands. -/
def resume (call : Call) (bySignal alive : Bool) (now : Int) : Option LspManager :=
  let isSettled := fun stop => decide (stop ∈ manager.settledStops)
  match call.phase with
  | .awaitingStop stop =>
    if isSettled stop ∨ call.aborted then some (manager.enter options index call alive now)
    else none
  | .awaitingTimedOut stop =>
    if isSettled stop then some (manager.create options index call now) else none
  | .awaitingInit client => manager.resumeWaiting index call client bySignal alive now
  | .creating client => manager.resumeCreating index call client bySignal alive now
  | .awaitingDead stop =>
    if isSettled stop then some (manager.enter options index call alive now) else none
  | .failing stop =>
    if isSettled stop then some (manager.putCall index { call with phase := .threw }) else none
  | _ => none

end

variable (key : String)

def releaseClient (now : Int) : LspManager :=
  match mapGet manager.clients key with
  | none => manager
  | some client =>
    let managed := manager.managed client
    if 0 < managed.refCount then
      manager.update client { managed with refCount := managed.refCount - 1, lastUsedAt := now }
    else manager

def invalidateClient (client : Option Nat) : LspManager :=
  match mapGet manager.clients key with
  | none => manager
  | some current =>
    if client.any (· ≠ current) then manager
    else manager.deleteAndStop key current .invalidated

def warmupClient (now : Int) : LspManager :=
  if (mapGet manager.clients key).isSome ∨ (mapGet manager.pendingStops key).isSome then manager
  else
    let admitted := (manager.evictForAdmission options).ensureRespawnAllowed key now
    if admitted.1 then admitted.2.spawn (newManaged key true now) else admitted.2

end

/-- What follows the initialization of a client that is warmed up. -/
def warmedUp (manager : LspManager) (client : Nat) (now : Int) : Option LspManager :=
  let managed := { manager.managed client with warming := false }
  if (manager.managed client).warming then
    match managed.initialized with
    | none => none
    | some true =>
      some (manager.update client { finishInit managed with lastUsedAt := now })
    | some false => some ((manager.update client managed).discard managed.key client .initFailed)
  else none

end LspManager

/-- A step of the manager. -/
inductive ManagerLabel
  | getClient (index : Nat) (root serverId : String) (hasSignal aborted alive : Bool) (now : Int)
  | resume (index : Nat) (bySignal alive : Bool) (now : Int)
  | abort (index : Nat)
  | initialized (client : Nat) (succeeded : Bool)
  | stopSettled (stop : Nat)
  | forgetStop (stop : Nat)
  | releaseClient (index : Nat) (now : Int)
  | invalidateClient (root serverId : String) (client : Option Nat)
  | warmupClient (root serverId : String) (now : Int)
  | warmedUp (client : Nat) (now : Int)
  | reapStale (now : Int)

namespace LspManager

def fresh : LspManager where
  nextClient := 0
  managed := fun _ => { newManaged "" true 0 with stopBegun := true }
  clients := []
  nextStop := 0
  settledStops := []
  pendingStops := []
  respawnBudgets := []
  calls := []
  stopLog := []

/-- What happens at a label.  A label that cannot happen now gives no state. -/
def step (options : LspManagerOptions) (manager : LspManager) : ManagerLabel → Option LspManager
  | .getClient index root serverId hasSignal aborted alive now =>
    match mapGet manager.calls index with
    | some _ => none
    | none =>
      let call : Call := ⟨getKey root serverId, hasSignal, hasSignal && aborted, .running⟩
      some ((manager.putCall index call).enter options index call alive now)
  | .resume index bySignal alive now =>
    (mapGet manager.calls index).bind fun call =>
      manager.resume options index call bySignal alive now
  | .abort index =>
    (mapGet manager.calls index).bind fun call =>
      if call.hasSignal then some (manager.putCall index { call with aborted := true })
      else none
  | .initialized client succeeded =>
    let managed := manager.managed client
    if client < manager.nextClient ∧ managed.initialized = none then
      some (manager.update client { managed with initialized := some succeeded })
    else none
  | .stopSettled stop =>
    if stop < manager.nextStop then
      some { manager with settledStops := stop :: manager.settledStops }
    else none
  | .forgetStop stop =>
    if stop ∈ manager.settledStops then
      some { manager with pendingStops := manager.pendingStops.filter (·.2 ≠ stop) }
    else none
  | .releaseClient index now =>
    (mapGet manager.calls index).bind fun call =>
      match call.phase with
      | .returned client =>
        some ((manager.releaseClient call.key now).putCall index
          { call with phase := .released client })
      | _ => none
  | .invalidateClient root serverId client =>
    some (manager.invalidateClient (getKey root serverId) client)
  | .warmupClient root serverId now =>
    some (manager.warmupClient options (getKey root serverId) now)
  | .warmedUp client now =>
    if client < manager.nextClient then manager.warmedUp client now else none
  | .reapStale now => some (manager.reapStale options now)

end LspManager

end OpenAgent.Lsp
