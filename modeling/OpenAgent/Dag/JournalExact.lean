import OpenAgent.Dag.Journal

/-!
# No lost and no doubled event

Whatever the instances of a journal do and wherever they die between the log
write and the checkpoint write, the log is numbered without gaps and every
checkpoint is the fold of the reducer over a prefix of it.
-/

namespace OpenAgent.Dag

open Library

/-- The events of a log carry consecutive numbers from an offset on. -/
def NumberedFrom (offset : Nat) (wal : List DagRunEvent) : Prop :=
  wal.map (·.seq) = List.range' (offset + 1) wal.length

/-- The sequence numbers of a log are exactly one to its length. -/
def NumberedWal (wal : List DagRunEvent) : Prop :=
  NumberedFrom 0 wal

theorem numberedFrom_cons :
    NumberedFrom offset (event :: wal) ↔
      event.seq = offset + 1 ∧ NumberedFrom (offset + 1) wal := by
  simp [NumberedFrom, List.range'_succ]

theorem numberedWal_concat (numbered : NumberedWal wal) (next : event.seq = wal.length + 1) :
    NumberedWal (wal ++ [event]) := by
  unfold NumberedWal NumberedFrom at numbered ⊢
  rw [List.map_append, numbered, List.length_append, List.length_singleton,
    List.range'_concat, List.map_singleton, next]
  simp [Nat.add_comm]

private theorem filter_since (numbered : NumberedFrom offset wal) :
    wal.filter (fun event => decide (sinceSeq < event.seq)) = wal.drop (sinceSeq - offset) := by
  induction wal generalizing offset with
  | nil => simp
  | cons event wal ih =>
    obtain ⟨seqEq, rest⟩ := numberedFrom_cons.mp numbered
    rw [List.filter_cons, ih rest, seqEq]
    by_cases skipped : offset < sinceSeq
    · have notWanted : ¬ sinceSeq < offset + 1 := by omega
      have positions : sinceSeq - offset = sinceSeq - (offset + 1) + 1 := by omega
      simp [notWanted, positions]
    · have wanted : sinceSeq < offset + 1 := by omega
      have here : sinceSeq - offset = 0 := by omega
      have after : sinceSeq - (offset + 1) = 0 := by omega
      simp [wanted, here, after]

private theorem foldl_max_seq (numbered : NumberedFrom offset wal) (below : head ≤ offset) :
    wal.foldl (fun head event => max head event.seq) head =
      if wal = [] then head else offset + wal.length := by
  induction wal generalizing offset head with
  | nil => rfl
  | cons event wal ih =>
    obtain ⟨seqEq, rest⟩ := numberedFrom_cons.mp numbered
    have larger : max head event.seq = offset + 1 := by
      omega
    rw [List.foldl_cons, larger, ih rest (Nat.le_refl _)]
    cases wal with
    | nil => rfl
    | cons next wal =>
      simp only [reduceCtorEq, if_false, List.length_cons]
      omega

private theorem headSeq_readWal (numbered : NumberedWal wal) :
    (readWal wal sinceSeq limit).headSeq = wal.length := by
  have folded := foldl_max_seq numbered (Nat.le_refl 0)
  simp only [readWal, folded]
  cases wal with
  | nil => rfl
  | cons event wal => simp

private theorem lastSeq_wal (numbered : NumberedFrom offset wal) :
    (wal.getLast?.map (·.seq)).getD offset = offset + wal.length := by
  induction wal generalizing offset with
  | nil => rfl
  | cons event wal ih =>
    obtain ⟨seqEq, rest⟩ := numberedFrom_cons.mp numbered
    have later := ih rest
    rw [List.getLast?_cons, List.length_cons]
    cases ending : wal.getLast? with
    | none =>
      rw [ending] at later
      simp only [Option.map_none, Option.getD_none] at later
      simp only [Option.getD_none, Option.map_some, Option.getD_some]
      omega
    | some last =>
      rw [ending] at later
      simp only [Option.map_some, Option.getD_some] at later ⊢
      omega

private theorem numberedFrom_drop (numbered : NumberedWal wal) (fits : count ≤ wal.length) :
    NumberedFrom count (wal.drop count) := by
  unfold NumberedFrom
  rw [List.map_drop, numbered, List.length_drop]
  have split : List.range' (0 + 1) wal.length =
      List.range' 1 count ++ List.range' (1 + count) (wal.length - count) := by
    rw [List.range'_append_1]
    congr 1
    omega
  rw [split, List.drop_left' (List.length_range'), Nat.add_comm]

private theorem numberedFrom_take (numbered : NumberedFrom offset wal) (count : Nat) :
    NumberedFrom offset (wal.take count) := by
  induction wal generalizing offset count with
  | nil => simp [NumberedFrom]
  | cons event wal ih =>
    obtain ⟨seqEq, rest⟩ := numberedFrom_cons.mp numbered
    cases count with
    | zero => simp [NumberedFrom]
    | succ count => exact numberedFrom_cons.mpr ⟨seqEq, ih rest count⟩

section Recovery

variable [JournalCheckpoint Checkpoint]
  {applyEvent : Checkpoint → DagRunEvent → Checkpoint}

theorem replay_cons :
    replay applyEvent checkpoint (event :: events) =
      replay applyEvent (replayEvent applyEvent checkpoint event) events := rfl

theorem replay_singleton :
    replay applyEvent checkpoint [event] = replayEvent applyEvent checkpoint event := rfl

theorem replay_append :
    replay applyEvent checkpoint (first ++ second) =
      replay applyEvent (replay applyEvent checkpoint first) second :=
  List.foldl_append

theorem checkpointSeq_replay (starts : checkpointSeq checkpoint = offset)
    (numbered : NumberedFrom offset wal) :
    checkpointSeq (replay applyEvent checkpoint wal) = offset + wal.length := by
  induction wal generalizing offset checkpoint with
  | nil => exact starts
  | cons event wal ih =>
    obtain ⟨seqEq, rest⟩ := numberedFrom_cons.mp numbered
    have next : checkpointSeq (replayEvent applyEvent checkpoint event) = offset + 1 := by
      rw [replayEvent, checkpointSeq_withCheckpointSeq, seqEq]
    have later := ih next rest
    rw [List.length_cons]
    rw [replay_cons]
    omega

/-- The paged loop replays the whole rest of the log once. -/
theorem recoverPages_eq (numbered : NumberedWal wal) (fits : sinceSeq ≤ wal.length)
    (enough : wal.length - sinceSeq < fuel) :
    recoverPages applyEvent wal fuel sinceSeq (checkpoint, replayed) =
      (replay applyEvent checkpoint (wal.drop sinceSeq),
        replayed || decide (sinceSeq < wal.length)) := by
  induction fuel generalizing sinceSeq checkpoint replayed with
  | zero => omega
  | succ fuel ih =>
    have pageEvents : (readWal wal sinceSeq replayPageSize).events =
        (wal.drop sinceSeq).take replayPageSize := by
      simp [readWal, filter_since numbered]
    have pageMore : (readWal wal sinceSeq replayPageSize).hasMore =
        decide (replayPageSize < wal.length - sinceSeq) := by
      simp [readWal, filter_since numbered]
    have pageNext : (readWal wal sinceSeq replayPageSize).nextSinceSeq =
        sinceSeq + min replayPageSize (wal.length - sinceSeq) := by
      have last := lastSeq_wal (numberedFrom_take (numberedFrom_drop numbered fits) replayPageSize)
      rw [List.length_take, List.length_drop] at last
      rw [← last]
      simp [readWal, filter_since numbered]
    have size : replayPageSize = 1000 := rfl
    rw [recoverPages, pageEvents, pageMore]
    by_cases more : replayPageSize < wal.length - sinceSeq
    · rw [if_pos (by simpa using more), pageNext, Nat.min_eq_left (by omega),
        ih (by omega) (by omega), ← replay_append]
      have nonempty : ((wal.drop sinceSeq).take replayPageSize).isEmpty = false := by
        rw [List.isEmpty_eq_false_iff, ← List.length_pos_iff, List.length_take, List.length_drop]
        omega
      rw [nonempty]
      have before : sinceSeq < wal.length := by omega
      simp [before]
    · rw [if_neg (by simpa using more)]
      have whole : (wal.drop sinceSeq).take replayPageSize = wal.drop sinceSeq := by
        apply List.take_of_length_le
        rw [List.length_drop]
        omega
      have emptiness : (!(wal.drop sinceSeq).isEmpty) =
          decide (sinceSeq < wal.length) := by
        by_cases before : sinceSeq < wal.length
        · simp [before]
        · simp [before, Nat.le_of_not_lt before]
      rw [whole, emptiness]

end Recovery

section System

variable [JournalCheckpoint Checkpoint]
  (options : JournalOptions Checkpoint)

/-- A checkpoint is the fold of the reducer over the prefix of the log up to
its own sequence number. -/
def IsPrefixFold (wal : List DagRunEvent) (checkpoint : Checkpoint) : Prop :=
  checkpointSeq checkpoint ≤ wal.length ∧
    checkpoint = replay options.applyEvent options.initialCheckpoint
      (wal.take (checkpointSeq checkpoint))

/-- The log is numbered one to its length, and every checkpoint, on disk or in
an instance, is a fold over a prefix of it. -/
structure JournalExact (system : JournalSystem Checkpoint) : Prop where
  numbered : NumberedWal system.disk.wal
  onDisk : ∀ checkpoint, system.disk.checkpoint = some checkpoint →
    IsPrefixFold options system.disk.wal checkpoint
  cached : ∀ checkpoint, some checkpoint ∈ system.instances →
    IsPrefixFold options system.disk.wal checkpoint
  neverThrew : system.threw = false

/-- What recovery returns and leaves on disk. -/
structure Recovers (disk : JournalDisk Checkpoint)
    (result : Checkpoint × JournalDisk Checkpoint) : Prop where
  checkpoint : result.1 = replay options.applyEvent options.initialCheckpoint disk.wal
  wal : result.2.wal = disk.wal
  onDisk : ∀ checkpoint, result.2.checkpoint = some checkpoint →
    IsPrefixFold options disk.wal checkpoint

variable {options}

private theorem isPrefixFold_append (isFold : IsPrefixFold options wal checkpoint) :
    IsPrefixFold options (wal ++ more) checkpoint := by
  obtain ⟨fits, fold⟩ := isFold
  refine ⟨?_, ?_⟩
  · rw [List.length_append]
    omega
  · rwa [List.take_append_of_le_length fits]

variable (fresh : checkpointSeq options.initialCheckpoint = 0)
include fresh

theorem isPrefixFold_replay (numbered : NumberedWal wal) :
    checkpointSeq (replay options.applyEvent options.initialCheckpoint wal) = wal.length ∧
      IsPrefixFold options wal (replay options.applyEvent options.initialCheckpoint wal) := by
  have seqEq : checkpointSeq (replay options.applyEvent options.initialCheckpoint wal) =
      wal.length := by
    have counted : checkpointSeq (replay options.applyEvent
        options.initialCheckpoint wal) = 0 + wal.length :=
      checkpointSeq_replay fresh numbered
    rwa [Nat.zero_add] at counted
  refine ⟨seqEq, Nat.le_of_eq seqEq, ?_⟩
  rw [seqEq, List.take_length]

/-- The paged loop, started at the stored checkpoint, ends at the fold over
the whole log. -/
private theorem recoverPages_start {disk : JournalDisk Checkpoint} (numbered : NumberedWal disk.wal)
    (onDisk : ∀ checkpoint, disk.checkpoint = some checkpoint →
      IsPrefixFold options disk.wal checkpoint) :
    let start := disk.checkpoint.getD options.initialCheckpoint
    recoverPages options.applyEvent disk.wal (disk.wal.length + 1)
        (checkpointSeq start) (start, false) =
      (replay options.applyEvent options.initialCheckpoint disk.wal,
        decide (checkpointSeq start < disk.wal.length)) := by
  intro start
  have startFold : IsPrefixFold options disk.wal start := by
    cases stored : disk.checkpoint with
    | none =>
      have startEq : start = options.initialCheckpoint := by simp [start, stored]
      rw [startEq]
      exact ⟨by simp [fresh], by simp [fresh, replay]⟩
    | some checkpoint =>
      have startEq : start = checkpoint := by simp [start, stored]
      rw [startEq]
      exact onDisk checkpoint stored
  obtain ⟨fits, fold⟩ := startFold
  have whole : replay options.applyEvent start (disk.wal.drop (checkpointSeq start)) =
      replay options.applyEvent options.initialCheckpoint disk.wal := by
    calc replay options.applyEvent start (disk.wal.drop (checkpointSeq start))
        = replay options.applyEvent (replay options.applyEvent options.initialCheckpoint
            (disk.wal.take (checkpointSeq start)))
              (disk.wal.drop (checkpointSeq start)) := by rw [← fold]
      _ = replay options.applyEvent options.initialCheckpoint disk.wal := by
          rw [← replay_append, List.take_append_drop]
  rw [recoverPages_eq numbered fits (by omega), whole, Bool.false_or]

/-- Recovery reads the whole log. -/
theorem recovers (numbered : NumberedWal disk.wal)
    (onDisk : ∀ checkpoint, disk.checkpoint = some checkpoint →
      IsPrefixFold options disk.wal checkpoint) :
    Recovers options disk
      (recoverCheckpoint options.applyEvent options.initialCheckpoint disk) := by
  have pages := recoverPages_start fresh numbered onDisk
  constructor
  · rw [recoverCheckpoint, pages]
  · rw [recoverCheckpoint]
    simp only
    split <;> rfl
  · intro checkpoint
    rw [recoverCheckpoint, pages]
    simp only
    split
    · intro stored
      cases stored
      exact (isPrefixFold_replay fresh numbered).2
    · exact onDisk checkpoint

/-- What an append does in an exact system: it either finds a duplicate, or
writes the next event. -/
private theorem appendPayload_exact (exact_ : JournalExact options system) (index : Nat)
    (payload : DagRunEventPayload) (atTime : String) (crash : Bool) :
    JournalExact options (appendPayload options system index payload atTime crash) := by
  have recovery := recovers fresh exact_.numbered exact_.onDisk
  have full := isPrefixFold_replay fresh exact_.numbered
  unfold appendPayload
  generalize recoverCheckpoint options.applyEvent options.initialCheckpoint system.disk =
    result at recovery
  obtain ⟨recovered, disk⟩ := result
  obtain ⟨recoveredEq, walEq, diskFold⟩ := recovery
  simp only at recoveredEq walEq diskFold ⊢
  subst recoveredEq
  rw [← walEq] at diskFold full
  have numbered : NumberedWal disk.wal := walEq ▸ exact_.numbered
  have cached : ∀ checkpoint, some checkpoint ∈ system.instances →
      IsPrefixFold options disk.wal checkpoint := by
    rw [walEq]
    exact exact_.cached
  rw [← walEq]
  split
  · refine ⟨numbered, diskFold, ?_, exact_.neverThrew⟩
    intro checkpoint member
    rcases List.mem_or_eq_of_mem_set member with old | new
    · exact cached checkpoint old
    · cases new
      exact full.2
  · have seqEq : (journalEvent options.runId disk (replay options.applyEvent
        options.initialCheckpoint disk.wal) payload atTime).seq = disk.wal.length + 1 := by
      simp only [journalEvent]
      rw [headSeq_readWal numbered, full.1, Nat.max_self]
    have accepted : appendAccepted disk.wal (journalEvent options.runId disk (replay
        options.applyEvent options.initialCheckpoint disk.wal) payload atTime) = true := by
      have last := lastSeq_wal numbered
      rw [Nat.zero_add] at last
      rw [appendAccepted, last, seqEq, decide_eq_true rfl]
    generalize journalEvent options.runId disk (replay options.applyEvent
      options.initialCheckpoint disk.wal) payload atTime = event at seqEq accepted
    rw [if_pos accepted]
    have longer := numberedWal_concat numbered seqEq
    have nextFold := isPrefixFold_replay fresh longer
    have nextEq : replay options.applyEvent options.initialCheckpoint
        (disk.wal ++ [event]) = replayEvent options.applyEvent
          (replay options.applyEvent options.initialCheckpoint disk.wal) event :=
      replay_append
    rw [nextEq] at nextFold
    split
    · refine ⟨longer, fun checkpoint stored =>
        isPrefixFold_append (diskFold checkpoint stored), ?_, exact_.neverThrew⟩
      intro checkpoint member
      rcases List.mem_or_eq_of_mem_set member with old | new
      · exact isPrefixFold_append (cached checkpoint old)
      · cases new
    · refine ⟨longer, ?_, ?_, exact_.neverThrew⟩
      · intro checkpoint stored
        cases stored
        exact nextFold.2
      · intro checkpoint member
        rcases List.mem_or_eq_of_mem_set member with old | new
        · exact isPrefixFold_append (cached checkpoint old)
        · cases new
          exact nextFold.2

theorem journalExact_step (exact_ : JournalExact options system)
    (taken : journalStep options system action = some next) : JournalExact options next := by
  have recovery := recovers fresh exact_.numbered exact_.onDisk
  have full := isPrefixFold_replay fresh exact_.numbered
  have recovered : ∀ {instances},
      (∀ checkpoint, some checkpoint ∈ instances → some checkpoint ∈ system.instances ∨
        checkpoint = (recoverCheckpoint options.applyEvent options.initialCheckpoint
          system.disk).1) →
      JournalExact options ⟨(recoverCheckpoint options.applyEvent options.initialCheckpoint
        system.disk).2, instances, system.threw⟩ := by
    intro instances held
    refine ⟨?_, ?_, ?_, exact_.neverThrew⟩
    · rw [recovery.wal]
      exact exact_.numbered
    · rw [recovery.wal]
      exact recovery.onDisk
    · intro checkpoint member
      rw [recovery.wal]
      rcases held checkpoint member with old | rfl
      · exact exact_.cached checkpoint old
      · rw [recovery.checkpoint]
        exact full.2
  cases action with
  | openJournal =>
    cases taken
    refine recovered fun checkpoint member => ?_
    exact (List.mem_append.mp member).imp_right
      fun new => Option.some.inj (List.mem_singleton.mp new)
  | append index payload atTime | appendCrash index payload atTime =>
    simp only [journalStep] at taken
    split at taken <;> cases taken
    exact appendPayload_exact fresh exact_ index payload atTime _
  | refresh index =>
    simp only [journalStep] at taken
    split at taken <;> cases taken
    refine recovered fun checkpoint member => ?_
    exact (List.mem_or_eq_of_mem_set member).imp_right Option.some.inj

theorem journalExact_fresh (onDisk : Bool) :
    JournalExact options (freshJournal options onDisk) := by
  refine ⟨rfl, ?_, ?_, rfl⟩
  · intro checkpoint stored
    cases onDisk with
    | false => cases stored
    | true =>
      cases stored
      exact ⟨by simp [fresh], by simp [fresh, replay]⟩
  · intro checkpoint member
    cases member

end System

/-- For any interleaving of the operations of any number of instances, with
crashes between the log write and the checkpoint write, the log is numbered
one to its length, every recovered checkpoint is the fold of the reducer over
the prefix of the log it has read, and no append throws. -/
theorem journalExact_of_execute {Checkpoint : Type} [JournalCheckpoint Checkpoint]
    {options : JournalOptions Checkpoint} (fresh : checkpointSeq options.initialCheckpoint = 0)
    {onDisk : Bool} {actions : List JournalAction} {final : JournalSystem Checkpoint}
    (reached : execute (journalStep options) (freshJournal options onDisk) actions = some final) :
    JournalExact options final :=
  invariant_of_unconditional
    (fun _ _ _ invariant taken => journalExact_step fresh invariant taken)
    (journalExact_fresh fresh onDisk) reached

end OpenAgent.Dag
