import OpenAgent.Dag.Reducer
import OpenAgent.Library.Execution
import Mathlib.Data.List.Range

/-!
# The run journal

`dag/journal.ts` over an arbitrary checkpoint type and reducer: recovery of a
checkpoint from the write-ahead log in pages, the append under the run lock,
and a system of any number of journal instances on one run.  The lock makes
each operation one step; a process may die between the log write and the
checkpoint write.
-/

namespace OpenAgent.Dag

open Library

/-- `DagJournalCheckpoint`: a checkpoint says how far it has read. -/
class JournalCheckpoint (Checkpoint : Type) where
  checkpointSeq : Checkpoint → Nat
  withCheckpointSeq : Checkpoint → Nat → Checkpoint
  checkpointSeq_withCheckpointSeq : ∀ checkpoint seq,
    checkpointSeq (withCheckpointSeq checkpoint seq) = seq

export JournalCheckpoint (checkpointSeq withCheckpointSeq checkpointSeq_withCheckpointSeq)

attribute [simp] checkpointSeq_withCheckpointSeq

instance : JournalCheckpoint DagRunRecordV1 where
  checkpointSeq := DagRunRecordV1.checkpointSeq
  withCheckpointSeq := fun record seq => { record with checkpointSeq := seq }
  checkpointSeq_withCheckpointSeq := fun _ _ => rfl

section Journal

variable [JournalCheckpoint Checkpoint]

/-- One event of a replay. -/
def replayEvent (applyEvent : Checkpoint → DagRunEvent → Checkpoint) (checkpoint : Checkpoint)
    (event : DagRunEvent) : Checkpoint :=
  withCheckpointSeq (applyEvent checkpoint event) event.seq

/-- The left fold of the reducer over events. -/
def replay (applyEvent : Checkpoint → DagRunEvent → Checkpoint) (checkpoint : Checkpoint)
    (events : List DagRunEvent) : Checkpoint :=
  events.foldl (replayEvent applyEvent) checkpoint

/-- What `store.readEvents` returns to the journal. -/
structure WalPage where
  events : List DagRunEvent
  nextSinceSeq : Nat
  headSeq : Nat
  hasMore : Bool

/-- `store.readEvents` without filters. -/
def readWal (wal : List DagRunEvent) (sinceSeq limit : Nat) : WalPage :=
  let wanted := wal.filter fun event => decide (sinceSeq < event.seq)
  let page := wanted.take limit
  { events := page
    nextSinceSeq := (page.getLast?.map (·.seq)).getD sinceSeq
    headSeq := wal.foldl (fun head event => max head event.seq) 0
    hasMore := decide (limit < wanted.length) }

/-- `REPLAY_PAGE_SIZE`. -/
def replayPageSize : Nat := 1000

/-- The loop of `recoverCheckpoint`, with the flag `replayed`. -/
def recoverPages (applyEvent : Checkpoint → DagRunEvent → Checkpoint) (wal : List DagRunEvent) :
    Nat → Nat → Checkpoint × Bool → Checkpoint × Bool
  | 0, _, progress => progress
  | fuel + 1, sinceSeq, (checkpoint, replayed) =>
    let page := readWal wal sinceSeq replayPageSize
    let progress :=
      (replay applyEvent checkpoint page.events, replayed || !page.events.isEmpty)
    if page.hasMore then
      recoverPages applyEvent wal fuel page.nextSinceSeq progress
    else progress

/-- The durable state of a run: the log and the checkpoint file. -/
structure JournalDisk (Checkpoint : Type) where
  wal : List DagRunEvent
  checkpoint : Option Checkpoint

/-- `recoverCheckpoint`: the checkpoint and the disk after it. -/
def recoverCheckpoint (applyEvent : Checkpoint → DagRunEvent → Checkpoint) (initial : Checkpoint)
    (disk : JournalDisk Checkpoint) : Checkpoint × JournalDisk Checkpoint :=
  let start := disk.checkpoint.getD initial
  let (checkpoint, replayed) := recoverPages applyEvent disk.wal (disk.wal.length + 1)
    (checkpointSeq start) (start, false)
  (checkpoint,
    if replayed then { disk with checkpoint := some checkpoint } else disk)

/-- The event `appendPayload` writes, from the recovered checkpoint. -/
def journalEvent (runId : DagRunId) (disk : JournalDisk Checkpoint) (recovered : Checkpoint)
    (payload : DagRunEventPayload) (atTime : String) : DagRunEvent where
  runId := runId
  seq := max (checkpointSeq recovered)
    (readWal disk.wal (checkpointSeq recovered) 1).headSeq + 1
  atTime := atTime
  lane := dagEventLane payload
  payload := payload

/-- The check of `store.appendEvent`: the sequence number continues the last
line of the log. -/
def appendAccepted (wal : List DagRunEvent) (event : DagRunEvent) : Bool :=
  decide (event.seq = (wal.getLast?.map (·.seq)).getD 0 + 1)

/-- What the instances of one run share: its id, reducer, duplicate check and
initial checkpoint. -/
structure JournalOptions (Checkpoint : Type) where
  runId : DagRunId
  applyEvent : Checkpoint → DagRunEvent → Checkpoint
  skipDuplicate : Checkpoint → DagRunEventPayload → Bool
  initialCheckpoint : Checkpoint

/-- The disk and the cached checkpoint of every instance; an instance whose
process died is `none`. -/
structure JournalSystem (Checkpoint : Type) where
  disk : JournalDisk Checkpoint
  instances : List (Option Checkpoint)
  /-- Whether an append has thrown. -/
  threw : Bool

/-- One operation of one instance. -/
inductive JournalAction
  | openJournal
  | append (index : Nat) (payload : DagRunEventPayload) (atTime : String)
  | appendCrash (index : Nat) (payload : DagRunEventPayload) (atTime : String)
  | refresh (index : Nat)

variable (options : JournalOptions Checkpoint)

/-- `appendPayload` up to and including the log write, with what happens to
the instance and the disk next. -/
def appendPayload (system : JournalSystem Checkpoint) (index : Nat) (payload : DagRunEventPayload)
    (atTime : String) (crash : Bool) : JournalSystem Checkpoint :=
  let (recovered, disk) :=
    recoverCheckpoint options.applyEvent options.initialCheckpoint system.disk
  if options.skipDuplicate recovered payload then
    { system with
      disk := disk
      instances := system.instances.set index (some recovered) }
  else
    let event := journalEvent options.runId disk recovered payload atTime
    if appendAccepted disk.wal event then
      if crash then
        { system with
          disk := { disk with wal := disk.wal ++ [event] }
          instances := system.instances.set index none }
      else
        let next := replayEvent options.applyEvent recovered event
        { system with
          disk := { wal := disk.wal ++ [event], checkpoint := some next }
          instances := system.instances.set index (some next) }
    else { system with disk := disk, threw := true }

/-- One step of the system. -/
def journalStep
    (system : JournalSystem Checkpoint) : JournalAction → Option (JournalSystem Checkpoint)
  | .openJournal =>
    let (recovered, disk) :=
      recoverCheckpoint options.applyEvent options.initialCheckpoint system.disk
    some
      { system with
        disk := disk
        instances := system.instances ++ [some recovered] }
  | .append index payload atTime =>
    match system.instances[index]? with
    | some (some _) => some (appendPayload options system index payload atTime false)
    | _ => none
  | .appendCrash index payload atTime =>
    match system.instances[index]? with
    | some (some _) => some (appendPayload options system index payload atTime true)
    | _ => none
  | .refresh index =>
    match system.instances[index]? with
    | some (some _) =>
      let (recovered, disk) :=
        recoverCheckpoint options.applyEvent options.initialCheckpoint system.disk
      some
        { system with
          disk := disk
          instances := system.instances.set index (some recovered) }
    | _ => none

/-- A run nobody has opened a journal on; its checkpoint file may already hold
the initial checkpoint. -/
def freshJournal (onDisk : Bool) : JournalSystem Checkpoint where
  disk :=
    { wal := []
      checkpoint := if onDisk then some options.initialCheckpoint else none }
  instances := []
  threw := false

end Journal

end OpenAgent.Dag
