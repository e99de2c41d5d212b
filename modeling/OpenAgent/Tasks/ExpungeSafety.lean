import OpenAgent.Tasks.Expiry

/-!
# What an expunge may delete

A record leaves its path only at a locked check that found it expired.  The tombstone
keeps the id of its task from being judged again, and its removal is the end of the last
trace of the task.  Two things are needed for that end to be a safe one: a sweep that
finishes the work of another one finds the process of the task ended, and no new task
takes an id whose expunge is under way.
-/

namespace OpenAgent.Tasks

open Library

variable {world after : ExpiryWorld}

/-! ## Safety of one step -/

namespace SweepPhase

def pendingAfter : AfterExpunge → List (String × Nat)
  | .recover found => found
  | .sweep _ => []

/-- The expunges that a sweep is about to complete, with their generations. -/
def pending : SweepPhase → List (String × Nat)
  | .recovering found => found
  | .tombstoned taskId stored _ | .loading taskId stored _ | .waiting taskId stored _ _
  | .disposing taskId stored _ => [(taskId, stored.generation)]
  | .removing taskId generation _ afterwards =>
    (taskId, generation) :: pendingAfter afterwards
  | .listing | .scanning | .sweeping _ => []

/-- The record that a sweep has renamed and not yet begun to remove. -/
def buried : SweepPhase → Option (String × Incarnation)
  | .tombstoned taskId stored _ | .loading taskId stored _ | .waiting taskId stored _ _
  | .disposing taskId stored _ => some (taskId, stored)
  | _ => none

/-- The expunge that a sweep found, and the operation that it has come to. -/
def removal : SweepPhase → Option (String × Nat × ExpungeStage)
  | .removing taskId generation stage _ => some (taskId, generation, stage)
  | _ => none

/-- The expunge that a sweep takes over from another one next. -/
def adopts : SweepPhase → Option String
  | .recovering ((taskId, _) :: _) => some taskId
  | _ => none

/-- The record that a sweep checks next. -/
def checks : SweepPhase → Option String
  | .sweeping ((taskId, _) :: _) => some taskId
  | _ => none

end SweepPhase

namespace ExpiryWorld

section

variable (world : ExpiryWorld)

/-- The process of a record has ended. -/
def Ended (task : ExpiryRecord) : Prop :=
  ∀ pid ∈ task.processOf, pid ∈ world.exited
  deriving Decidable

/-- The step is a locked check that found the record expired. -/
def ExpiresAt (label : ExpiryLabel) (taskId : String) (stored : Incarnation) : Prop :=
  ∃ token now sweep, label = .proceed token now ∧
    mapGet world.sweeps token = some sweep ∧ sweep.phase.checks = some taskId ∧
      world.shouldRetain sweep.manager taskId stored.task sweep.cutoff = false

/-- A record goes only when the locked check finds it expired, the last trace of a task
only after its process has ended, and an expunge removes nothing that a later task with
the id has written. -/
structure ExpungeSafe (label : ExpiryLabel) (after : ExpiryWorld) : Prop where
  retained : ∀ taskId stored, mapGet world.records taskId = some stored →
    mapGet after.records taskId = none → world.ExpiresAt label taskId stored
  ended : ∀ taskId stored, mapGet world.tombstones taskId = some stored →
    mapGet after.tombstones taskId ≠ some stored → after.Ended stored.task
  own : ∀ token now sweep taskId generation stage, label = .proceed token now →
    mapGet world.sweeps token = some sweep →
      sweep.phase.removal = some (taskId, generation, stage) →
        ∀ writer ∈ world.removes taskId stage, writer ≤ generation

/-- No expunge of the id is under way: there is no tombstone, and no sweep is about to
complete one. -/
def Unclaimed (taskId : String) : Prop :=
  mapGet world.tombstones taskId = none ∧
    ∀ entry ∈ world.sweeps, taskId ∉ entry.2.phase.pending.map Prod.fst
  deriving Decidable

end

section

variable (world : ExpiryWorld)

/-- A sweep that takes over an expunge finds the process of the tombstone ended. -/
def AdoptsEnded (label : ExpiryLabel) (_ : ExpiryWorld) : Prop :=
  match label with
  | .proceed token _ => ∀ sweep ∈ mapGet world.sweeps token,
      ∀ taskId ∈ sweep.phase.adopts, ∀ stored ∈ mapGet world.tombstones taskId,
        world.Ended stored.task
  | _ => True

/-- A new task takes no id whose expunge is under way. -/
def CreatesUnclaimed (label : ExpiryLabel) (_ : ExpiryWorld) : Prop :=
  match label with
  | .claim call => ∀ creation ∈ mapGet world.creations call,
      mapGet world.records (formatTaskId creation.value) = none →
        world.Unclaimed (formatTaskId creation.value)
  | _ => True

instance : ∀ label next, Decidable (AdoptsEnded world label next) := by
  intro label next
  unfold AdoptsEnded
  split <;> infer_instance

instance : ∀ label next, Decidable (CreatesUnclaimed world label next) := by
  intro label next
  unfold CreatesUnclaimed
  split <;> infer_instance

/-! ## The invariant -/

/-- The files of the store: an id has a record or a tombstone, each of its newest task,
and nothing was written by tasks to come. -/
structure FilesSound : Prop where
  unique : (world.tombstones.map Prod.fst).Nodup
  apart : ∀ taskId stored, mapGet world.tombstones taskId = some stored →
    mapGet world.records taskId = none
  newestRecord : ∀ taskId stored, mapGet world.records taskId = some stored →
    stored.generation = world.generationOf taskId
  newestTombstone : ∀ taskId stored, mapGet world.tombstones taskId = some stored →
    stored.generation = world.generationOf taskId
  written : ∀ artifact taskId, ∀ writer ∈ world.contents artifact taskId,
    writer ≤ world.generationOf taskId

/-- What a sweep goes by at its point. -/
structure PhaseSound (phase : SweepPhase) : Prop where
  /-- The ids it is about to expunge are without a record, and without a later task. -/
  pending : ∀ taskId generation, (taskId, generation) ∈ phase.pending →
    mapGet world.records taskId = none ∧ generation = world.generationOf taskId
  /-- The tombstone is the one that it has written. -/
  buried : ∀ taskId stored, phase.buried = some (taskId, stored) →
    ∀ tombstone, mapGet world.tombstones taskId = some tombstone → tombstone = stored
  /-- The process it waits for is the one of the record. -/
  waiting : ∀ taskId stored pid remaining, phase = .waiting taskId stored pid remaining →
    stored.task.processOf = some pid
  disposing : ∀ taskId stored remaining, phase = .disposing taskId stored remaining →
    world.Ended stored.task
  removal : ∀ taskId generation stage, phase.removal = some (taskId, generation, stage) →
    ∀ tombstone, mapGet world.tombstones taskId = some tombstone → world.Ended tombstone.task

structure ExpirySound : Prop where
  files : world.FilesSound
  phases : ∀ token sweep, mapGet world.sweeps token = some sweep → world.PhaseSound sweep.phase

end

/-! ## What changes of the files leave to the sweeps -/

/-- No task comes to an expunged id, and no process comes back. -/
structure Respects (world after : ExpiryWorld) (phase : SweepPhase) : Prop where
  records : ∀ taskId ∈ phase.pending.map Prod.fst, mapGet world.records taskId = none →
    mapGet after.records taskId = none
  generations : ∀ taskId ∈ phase.pending.map Prod.fst,
    after.generationOf taskId = world.generationOf taskId
  tombstones : ∀ taskId ∈ phase.pending.map Prod.fst, ∀ stored,
    mapGet after.tombstones taskId = some stored → mapGet world.tombstones taskId = some stored
  exited : ∀ pid ∈ world.exited, pid ∈ after.exited

theorem Ended.mono (isEnded : world.Ended task)
    (exited : ∀ pid ∈ world.exited, pid ∈ after.exited) : after.Ended task :=
  fun pid named => exited pid (isEnded pid named)

variable {phase : SweepPhase}

theorem pending_of_buried (isBuried : phase.buried = some (taskId, stored)) :
    (taskId, stored.generation) ∈ phase.pending := by
  cases phase <;> cases isBuried <;> exact List.mem_singleton_self _

theorem pending_of_removal (isRemoval : phase.removal = some (taskId, generation, stage)) :
    (taskId, generation) ∈ phase.pending := by
  cases phase <;> cases isRemoval
  exact List.mem_cons_self

theorem PhaseSound.of_respects (sound : world.PhaseSound phase)
    (respects : Respects world after phase) : after.PhaseSound phase where
  pending := by
    intro taskId generation isPending
    have isKey := List.mem_map_of_mem (f := Prod.fst) isPending
    obtain ⟨absent, newest⟩ := sound.pending taskId generation isPending
    exact ⟨respects.records taskId isKey absent,
      newest.trans (respects.generations taskId isKey).symm⟩
  buried := by
    intro taskId stored isBuried tombstone found
    have isKey := List.mem_map_of_mem (f := Prod.fst) (pending_of_buried isBuried)
    exact sound.buried taskId stored isBuried tombstone
      (respects.tombstones taskId isKey tombstone found)
  waiting := sound.waiting
  disposing := fun taskId stored remaining isPhase =>
    (sound.disposing taskId stored remaining isPhase).mono respects.exited
  removal := by
    intro taskId generation stage isRemoval tombstone found
    have isKey := List.mem_map_of_mem (f := Prod.fst) (pending_of_removal isRemoval)
    exact (sound.removal taskId generation stage isRemoval tombstone
      (respects.tombstones taskId isKey tombstone found)).mono respects.exited

theorem Respects.of_same (sameRecords : after.records = world.records)
    (sameGenerations : after.generations = world.generations)
    (sameTombstones : after.tombstones = world.tombstones)
    (exited : ∀ pid ∈ world.exited, pid ∈ after.exited) : Respects world after phase where
  records := fun _ _ absent => sameRecords ▸ absent
  generations := fun _ _ => by
    unfold generationOf
    rw [sameGenerations]
  tombstones := fun _ _ _ found => sameTombstones ▸ found
  exited := exited

/-- A record that is there is written again. -/
theorem respects_writeRecord (found : mapGet world.records taskId = some stored) :
    Respects world (world.writeRecord taskId next) phase where
  records := by
    intro other _ absent
    change mapGet (mapSet world.records taskId next) other = none
    have apart : other ≠ taskId := by
      rintro rfl
      rw [found] at absent
      cases absent
    rw [mapGet_mapSet, if_neg apart, absent]
  generations := fun _ _ => rfl
  tombstones := fun _ _ _ isTombstone => isTombstone
  exited := fun _ ended => ended

/-- A sweep whose expunges are without records sees no new tombstone of its own. -/
theorem respects_bury (sound : world.PhaseSound phase)
    (found : mapGet world.records taskId = some stored) :
    Respects world (world.bury taskId stored) phase where
  records := by
    intro other _ absent
    change mapGet (mapDelete world.records taskId) other = none
    rw [mapGet_mapDelete, absent, ite_self]
  generations := fun _ _ => rfl
  tombstones := by
    intro other isKey tombstone isTombstone
    obtain ⟨⟨key, generation⟩, isPending, rfl⟩ := List.mem_map.mp isKey
    change mapGet (mapSet world.tombstones taskId stored) key = some tombstone at isTombstone
    have apart : key ≠ taskId := by
      rintro rfl
      have absent := (sound.pending key generation isPending).1
      rw [found] at absent
      cases absent
    rwa [mapGet_mapSet, if_neg apart] at isTombstone
  exited := fun _ ended => ended

theorem respects_remove : Respects world (world.remove taskId stage) phase := by
  cases stage with
  | artifact removed => exact .of_same rfl rfl rfl fun _ ended => ended
  | record =>
    refine ⟨?_, fun _ _ => rfl, fun _ _ _ isTombstone => isTombstone, fun _ ended => ended⟩
    intro other _ absent
    change mapGet (mapDelete world.records taskId) other = none
    rw [mapGet_mapDelete, absent, ite_self]
  | tombstone =>
    exact ⟨fun _ _ absent => absent, fun _ _ => rfl,
      fun _ _ _ isTombstone => mapGet_of_mapDelete isTombstone, fun _ ended => ended⟩

theorem respects_create (unclaimed : formatTaskId creation.value ∉ phase.pending.map Prod.fst) :
    Respects world (world.create call creation) phase where
  records := by
    intro other isKey absent
    have apart : other ≠ formatTaskId creation.value := fun same => unclaimed (same ▸ isKey)
    change mapGet (mapSet world.records _ _) other = none
    rw [mapGet_mapSet, if_neg apart, absent]
  generations := by
    intro other isKey
    have apart : other ≠ formatTaskId creation.value := fun same => unclaimed (same ▸ isKey)
    change (mapGet (mapSet world.generations _ _) other).getD 0 = _
    rw [mapGet_mapSet, if_neg apart]
    rfl
  tombstones := fun _ _ _ isTombstone => isTombstone
  exited := fun _ ended => ended

/-! ## What changes of the files keep of them -/

section

variable (sound : world.FilesSound)
include sound

theorem FilesSound.of_same (sameRecords : after.records = world.records)
    (sameTombstones : after.tombstones = world.tombstones)
    (sameGenerations : after.generations = world.generations)
    (written : ∀ artifact taskId, ∀ writer ∈ after.contents artifact taskId,
      writer ∈ world.contents artifact taskId ∨ writer ≤ world.generationOf taskId) :
    after.FilesSound where
  unique := sameTombstones ▸ sound.unique
  apart := by
    rw [sameRecords, sameTombstones]
    exact sound.apart
  newestRecord := by
    unfold generationOf
    rw [sameRecords, sameGenerations]
    exact sound.newestRecord
  newestTombstone := by
    unfold generationOf
    rw [sameTombstones, sameGenerations]
    exact sound.newestTombstone
  written := by
    intro artifact taskId writer wrote
    unfold generationOf
    rw [sameGenerations]
    rcases written artifact taskId writer wrote with before | bounded
    · exact sound.written artifact taskId writer before
    · exact bounded

theorem FilesSound.appendArtifact (artifact : Artifact)
    (bounded : generation ≤ world.generationOf taskId) :
    (world.appendArtifact artifact taskId generation).FilesSound := by
  refine FilesSound.of_same sound rfl rfl rfl ?_
  intro other otherId writer wrote
  unfold contents ExpiryWorld.appendArtifact at wrote
  rw [mapGet_mapSet] at wrote
  split_ifs at wrote with same
  · cases same
    rcases List.mem_append.mp wrote with before | isNew
    · exact .inl before
    · rw [List.mem_singleton.mp isNew]
      exact .inr bounded
  · exact .inl wrote

section

variable (found : mapGet world.records taskId = some stored)
include found

theorem FilesSound.writeRecord (sameGeneration : next.generation = stored.generation) :
    (world.writeRecord taskId next).FilesSound where
  __ := sound
  apart := by
    intro other tombstone isTombstone
    have absent := sound.apart other tombstone isTombstone
    have respects : Respects world (world.writeRecord taskId next) (.recovering [(other, 0)]) :=
      respects_writeRecord found
    exact respects.records other (List.mem_singleton_self _) absent
  newestRecord := by
    intro other record isRecord
    change mapGet (mapSet world.records taskId next) other = some record at isRecord
    rw [mapGet_mapSet] at isRecord
    split_ifs at isRecord with same
    · cases isRecord
      subst same
      exact sameGeneration.trans (sound.newestRecord other stored found)
    · exact sound.newestRecord other record isRecord

theorem FilesSound.bury :
    (world.bury taskId stored).FilesSound where
  unique := nodup_keys_mapSet sound.unique taskId stored
  apart := by
    intro other tombstone isTombstone
    change mapGet (mapSet world.tombstones taskId stored) other = some tombstone at isTombstone
    change mapGet (mapDelete world.records taskId) other = none
    rw [mapGet_mapDelete]
    rw [mapGet_mapSet] at isTombstone
    split_ifs at isTombstone ⊢ with same
    · rfl
    · exact sound.apart other tombstone isTombstone
  newestRecord := fun other record isRecord =>
    sound.newestRecord other record (mapGet_of_mapDelete isRecord)
  newestTombstone := by
    intro other tombstone isTombstone
    change mapGet (mapSet world.tombstones taskId stored) other = some tombstone at isTombstone
    rw [mapGet_mapSet] at isTombstone
    split_ifs at isTombstone with same
    · cases isTombstone
      subst same
      exact sound.newestRecord other stored found
    · exact sound.newestTombstone other tombstone isTombstone
  written := sound.written

end

theorem FilesSound.remove (taskId : String) (stage : ExpungeStage) :
    (world.remove taskId stage).FilesSound := by
  cases stage with
  | artifact removed =>
    refine FilesSound.of_same sound rfl rfl rfl ?_
    intro other otherId writer wrote
    unfold contents ExpiryWorld.remove at wrote
    rw [mapGet_mapDelete] at wrote
    split_ifs at wrote
    · cases wrote
    · exact .inl wrote
  | record =>
    refine ⟨sound.unique, ?_, fun other record isRecord =>
      sound.newestRecord other record (mapGet_of_mapDelete isRecord),
      sound.newestTombstone, sound.written⟩
    intro other tombstone isTombstone
    change mapGet (mapDelete world.records taskId) other = none
    rw [mapGet_mapDelete, sound.apart other tombstone isTombstone, ite_self]
  | tombstone =>
    exact ⟨nodup_keys_mapDelete sound.unique taskId,
      fun other tombstone isTombstone =>
        sound.apart other tombstone (mapGet_of_mapDelete isTombstone),
      sound.newestRecord,
      fun other tombstone isTombstone =>
        sound.newestTombstone other tombstone (mapGet_of_mapDelete isTombstone),
      sound.written⟩

theorem FilesSound.create
    (unclaimed : mapGet world.tombstones (formatTaskId creation.value) = none) :
    (world.create call creation).FilesSound where
  unique := sound.unique
  apart := by
    intro other tombstone isTombstone
    change mapGet world.tombstones other = some tombstone at isTombstone
    have apart : other ≠ formatTaskId creation.value := by
      rintro rfl
      rw [unclaimed] at isTombstone
      cases isTombstone
    change mapGet (mapSet world.records _ _) other = none
    rw [mapGet_mapSet, if_neg apart]
    exact sound.apart other tombstone isTombstone
  newestRecord := by
    intro other record isRecord
    change mapGet (mapSet world.records _ _) other = some record at isRecord
    change _ = (mapGet (mapSet world.generations _ _) other).getD 0
    rw [mapGet_mapSet] at isRecord ⊢
    split_ifs at isRecord ⊢ with same
    · cases isRecord
      rfl
    · exact sound.newestRecord other record isRecord
  newestTombstone := by
    intro other tombstone isTombstone
    change mapGet world.tombstones other = some tombstone at isTombstone
    change _ = (mapGet (mapSet world.generations _ _) other).getD 0
    have apart : other ≠ formatTaskId creation.value := by
      rintro rfl
      rw [unclaimed] at isTombstone
      cases isTombstone
    rw [mapGet_mapSet, if_neg apart]
    exact sound.newestTombstone other tombstone isTombstone
  written := by
    intro artifact other writer wrote
    have before := sound.written artifact other writer wrote
    change _ ≤ (mapGet (mapSet world.generations _ _) other).getD 0
    rw [mapGet_mapSet]
    split_ifs with same
    · subst same
      exact Nat.le_succ_of_le before
    · exact before

end

/-! ## The points of a sweep -/

theorem PhaseSound.of_pending_nil (nothing : phase.pending = []) : world.PhaseSound phase where
  pending := by
    intro taskId generation isPending
    rw [nothing] at isPending
    cases isPending
  buried := by
    intro taskId stored isBuried
    have isPending := pending_of_buried isBuried
    rw [nothing] at isPending
    cases isPending
  waiting := by
    rintro taskId stored pid remaining rfl
    cases nothing
  disposing := by
    rintro taskId stored remaining rfl
    cases nothing
  removal := by
    intro taskId generation stage isRemoval
    have isPending := pending_of_removal isRemoval
    rw [nothing] at isPending
    cases isPending

theorem PhaseSound.recovering
    (pending : ∀ taskId generation, (taskId, generation) ∈ found →
      mapGet world.records taskId = none ∧ generation = world.generationOf taskId) :
    world.PhaseSound (.recovering found) where
  pending := pending
  buried := by
    intro taskId stored isBuried
    cases isBuried
  waiting := by
    intro taskId stored pid remaining isPhase
    cases isPhase
  disposing := by
    intro taskId stored remaining isPhase
    cases isPhase
  removal := by
    intro taskId generation stage isRemoval
    cases isRemoval

theorem PhaseSound.removing
    (pending : ∀ other written, (other, written) ∈ (taskId, generation) ::
      SweepPhase.pendingAfter afterwards →
        mapGet world.records other = none ∧ written = world.generationOf other)
    (ended : ∀ tombstone, mapGet world.tombstones taskId = some tombstone →
      world.Ended tombstone.task) :
    world.PhaseSound (.removing taskId generation stage afterwards) where
  pending := pending
  buried := by
    intro other stored isBuried
    cases isBuried
  waiting := by
    intro other stored pid remaining isPhase
    cases isPhase
  disposing := by
    intro other stored remaining isPhase
    cases isPhase
  removal := by
    intro other written otherStage isRemoval
    cases isRemoval
    exact ended

/-- A sweep that has renamed the record, at one of the points up to the removal. -/
theorem PhaseSound.burying (isBuried : phase.buried = some (taskId, stored))
    (isPending : phase.pending = [(taskId, stored.generation)])
    (absent : mapGet world.records taskId = none)
    (newest : stored.generation = world.generationOf taskId)
    (own : ∀ tombstone, mapGet world.tombstones taskId = some tombstone → tombstone = stored)
    (waiting : ∀ pid remaining, phase = .waiting taskId stored pid remaining →
      stored.task.processOf = some pid)
    (disposing : ∀ remaining, phase = .disposing taskId stored remaining →
      world.Ended stored.task) :
    world.PhaseSound phase where
  pending := by
    intro other generation member
    rw [isPending] at member
    cases List.mem_singleton.mp member
    exact ⟨absent, newest⟩
  buried := by
    intro other otherStored isOther
    rw [isBuried] at isOther
    cases isOther
    exact own
  waiting := by
    rintro other otherStored pid remaining rfl
    cases isBuried
    exact waiting pid remaining rfl
  disposing := by
    rintro other otherStored remaining rfl
    cases isBuried
    exact disposing remaining rfl
  removal := by
    intro other generation stage isRemoval
    cases phase <;> cases isRemoval
    cases isBuried

/-- The tombstone that a sweep has written may be removed when its process has ended. -/
theorem PhaseSound.complete (sound : world.PhaseSound phase)
    (isBuried : phase.buried = some (taskId, stored)) (isEnded : world.Ended stored.task)
    (remaining : List (String × ExpiryRecord)) :
    world.PhaseSound
      (.removing taskId stored.generation (.artifact .children) (.sweep remaining)) := by
  apply PhaseSound.removing
  · intro other written member
    cases List.mem_singleton.mp member
    exact sound.pending _ _ (pending_of_buried isBuried)
  · intro tombstone found
    rw [sound.buried taskId stored isBuried tombstone found]
    exact isEnded

/-- The sweep goes on after changes of the files that the other sweeps do not notice. -/
theorem ExpirySound.goOn (sound : world.ExpirySound) (files : after.FilesSound)
    (sameSweeps : after.sweeps = world.sweeps)
    (respects : ∀ other sweep, mapGet world.sweeps other = some sweep →
      Respects world after sweep.phase)
    (own : after.PhaseSound next.phase) : (after.goOn token next).ExpirySound where
  files := ⟨files.unique, files.apart, files.newestRecord, files.newestTombstone, files.written⟩
  phases := by
    have others : ∀ other sweep, mapGet (after.goOn token next).sweeps other = some sweep →
        after.PhaseSound sweep.phase := by
      intro other sweep found
      change mapGet (mapSet after.sweeps token next) other = some sweep at found
      rw [mapGet_mapSet] at found
      split_ifs at found
      · cases found
        exact own
      · rw [sameSweeps] at found
        exact (sound.phases other sweep found).of_respects (respects other sweep found)
    intro other sweep found
    have holds := others other sweep found
    exact ⟨holds.pending, holds.buried, holds.waiting, holds.disposing, holds.removal⟩

theorem ExpirySound.moves (sound : world.ExpirySound) (own : world.PhaseSound next.phase) :
    (world.goOn token next).ExpirySound :=
  sound.goOn sound.files rfl (fun _ _ _ => .of_same rfl rfl rfl fun _ ended => ended) own

theorem ended_of_not_isAlive (named : task.processOf = some pid)
    (notAlive : world.isAlive pid = false) : world.Ended task := by
  intro other isNamed
  cases named.symm.trans (Option.mem_def.mp isNamed)
  simpa [isAlive] using notAlive

theorem ended_of_processOf_eq_none (unnamed : task.processOf = none) : world.Ended task := by
  intro pid isNamed
  rw [unnamed] at isNamed
  cases isNamed

/-! ## One step of a sweep -/

/-- Two worlds have the same records and tombstones. -/
structure SameFiles (left right : ExpiryWorld) : Prop where
  records : left.records = right.records
  tombstones : left.tombstones = right.tombstones

/-- A step of a sweep renames an expired record, or does an operation of a removal, or
leaves records and tombstones alone. -/
inductive SweepFiles (world : ExpiryWorld) (sweep : ExpirySweep) (after : ExpiryWorld) : Prop
  | kept (same : SameFiles after world)
  | buried (taskId : String) (stored : Incarnation) (checks : sweep.phase.checks = some taskId)
      (isStored : mapGet world.records taskId = some stored)
      (expired : world.shouldRetain sweep.manager taskId stored.task sweep.cutoff = false)
      (same : SameFiles after (world.bury taskId stored))
  | removed (taskId : String) (generation : Nat) (stage : ExpungeStage)
      (isRemoval : sweep.phase.removal = some (taskId, generation, stage))
      (same : SameFiles after (world.remove taskId stage))
      (sameExited : after.exited = world.exited)

/-- A step of a sweep keeps the invariant. -/
structure Proceeds (world : ExpiryWorld) (sweep : ExpirySweep) (after : ExpiryWorld) : Prop where
  sound : after.ExpirySound
  files : SweepFiles world sweep after

section Proceeding

theorem ExpirySound.passesOn (sound : world.ExpirySound) (own : world.PhaseSound next.phase) :
    Proceeds world sweep (world.goOn token next) :=
  ⟨sound.moves own, .kept ⟨rfl, rfl⟩⟩

theorem phaseSound_listExpunging (files : world.FilesSound) :
    world.PhaseSound (.recovering world.listExpunging) := by
  apply PhaseSound.recovering
  intro taskId generation listed
  obtain ⟨⟨key, stored⟩, isEntry, isPair⟩ := List.mem_map.mp listed
  cases isPair
  have found := mapGet_of_mem files.unique (mem_stableSort.mp isEntry)
  exact ⟨files.apart key stored found, files.newestTombstone key stored found⟩

/-- The locked check renames an expired record, and the sweep goes by its tombstone. -/
theorem ExpirySound.tombstoneIfExpired (sound : world.ExpirySound)
    (checks : sweep.phase.checks = some taskId) (remaining : List (String × ExpiryRecord)) :
    Proceeds world sweep (world.tombstoneIfExpired token sweep taskId remaining) := by
  unfold ExpiryWorld.tombstoneIfExpired
  cases found : mapGet world.records taskId with
  | none => exact sound.passesOn (.of_pending_nil rfl)
  | some stored =>
    dsimp only
    split
    · exact sound.passesOn (.of_pending_nil rfl)
    next expired =>
      refine ⟨?_, .buried taskId stored checks found (Bool.not_eq_true _ |>.mp expired) ⟨rfl, rfl⟩⟩
      apply sound.goOn (sound.files.bury found) rfl
      · intro other otherSweep isOther
        exact respects_bury (sound.phases other otherSweep isOther) found
      · have absent : mapGet (world.bury taskId stored).records taskId = none := by
          change mapGet (mapDelete world.records taskId) taskId = none
          rw [mapGet_mapDelete, if_pos rfl]
        refine .burying rfl rfl absent (sound.files.newestRecord taskId stored found) ?_ ?_ ?_
        · intro tombstone isTombstone
          change mapGet (mapSet world.tombstones taskId stored) taskId = _ at isTombstone
          rw [mapGet_mapSet, if_pos rfl] at isTombstone
          exact (Option.some.inj isTombstone).symm
        · intro pid others isPhase
          cases isPhase
        · intro others isPhase
          cases isPhase

theorem PhaseSound.passes (sound : world.PhaseSound phase)
    (isBuried : phase.buried = some (taskId, stored)) (respects : Respects world after phase)
    (stillBuried : next.buried = some (taskId, stored))
    (isPending : next.pending = [(taskId, stored.generation)])
    (waiting : ∀ pid remaining, next = .waiting taskId stored pid remaining →
      stored.task.processOf = some pid)
    (disposing : ∀ remaining, next = .disposing taskId stored remaining → after.Ended stored.task) :
    after.PhaseSound next := by
  have holds := sound.of_respects respects
  obtain ⟨absent, newest⟩ := holds.pending _ _ (pending_of_buried isBuried)
  exact .burying stillBuried isPending absent newest (holds.buried taskId stored isBuried) waiting
    disposing

theorem respects_appendArtifact :
    Respects world (world.appendArtifact artifact taskId generation) phase :=
  .of_same rfl rfl rfl fun _ ended => ended

theorem ExpirySound.terminateOrphan (sound : world.ExpirySound)
    (found : mapGet world.sweeps token = some sweep)
    (loading : sweep.phase = .loading taskId stored remaining) :
    Proceeds world sweep (world.terminateOrphan token sweep taskId stored remaining) := by
  have phase := sound.phases token sweep found
  have isBuried : sweep.phase.buried = some (taskId, stored) := by rw [loading]; rfl
  obtain ⟨absent, newest⟩ := phase.pending _ _ (pending_of_buried isBuried)
  have disposes : world.Ended stored.task →
      Proceeds world sweep (world.goOn token (sweep.moveTo (.disposing taskId stored remaining))) := by
    intro isEnded
    apply sound.passesOn
    refine phase.passes isBuried (.of_same rfl rfl rfl fun _ ended => ended) rfl rfl ?_ ?_
    · intro pid others isPhase
      cases isPhase
    · exact fun others _ => isEnded
  unfold ExpiryWorld.terminateOrphan
  rw [absent]
  cases named : stored.task.processOf with
  | none => exact disposes (ended_of_processOf_eq_none named)
  | some pid =>
    cases alive : world.isAlive pid with
    | false =>
      simp only [alive]
      exact disposes (ended_of_not_isAlive named alive)
    | true =>
      simp only [alive]
      refine ⟨?_, .kept ⟨rfl, rfl⟩⟩
      apply sound.goOn (sound.files.appendArtifact .log newest.le) rfl
      · exact fun _ _ _ => respects_appendArtifact ..
      · refine phase.passes isBuried (respects_appendArtifact ..) rfl rfl ?_ ?_
        · intro other others isPhase
          cases isPhase
          exact named
        · intro others isPhase
          cases isPhase

theorem respects_kill :
    Respects world ((world.kill pid).appendArtifact artifact taskId generation) phase :=
  .of_same rfl rfl rfl fun _ ended => List.mem_cons_of_mem pid ended

theorem FilesSound.kill (sound : world.FilesSound) (pid : Nat) : (world.kill pid).FilesSound :=
  ⟨sound.unique, sound.apart, sound.newestRecord, sound.newestTombstone, sound.written⟩

/-- After its delay a sweep that still finds the process alive ends it. -/
theorem ExpirySound.killed (sound : world.ExpirySound)
    (found : mapGet world.sweeps token = some sweep)
    (waiting : sweep.phase = .waiting taskId stored pid remaining) :
    Proceeds world sweep (if world.isAlive pid then
      ((world.kill pid).appendArtifact .log taskId stored.generation).goOn token
        (sweep.moveTo (.disposing taskId stored remaining))
    else world.goOn token (sweep.moveTo (.disposing taskId stored remaining))) := by
  have phase := sound.phases token sweep found
  have isBuried : sweep.phase.buried = some (taskId, stored) := by rw [waiting]; rfl
  have named := phase.waiting taskId stored pid remaining waiting
  obtain ⟨-, newest⟩ := phase.pending _ _ (pending_of_buried isBuried)
  split
  next =>
    refine ⟨?_, .kept ⟨rfl, rfl⟩⟩
    apply sound.goOn ((sound.files.kill pid).appendArtifact .log newest.le) rfl
    · exact fun _ _ _ => respects_kill ..
    · refine phase.passes isBuried (respects_kill ..) rfl rfl ?_ ?_
      · intro other others isPhase
        cases isPhase
      · intro others _ other isNamed
        cases named.symm.trans (Option.mem_def.mp isNamed)
        exact List.mem_cons_self
  next dead =>
    apply sound.passesOn
    refine phase.passes isBuried (.of_same rfl rfl rfl fun _ ended => ended) rfl rfl ?_ ?_
    · intro other others isPhase
      cases isPhase
    · exact fun others _ => ended_of_not_isAlive named (Bool.not_eq_true _ |>.mp dead)

theorem ExpirySound.removed (sound : world.ExpirySound)
    (found : mapGet world.sweeps token = some sweep)
    (removing : sweep.phase = .removing taskId generation stage afterwards) :
    Proceeds world sweep ((world.remove taskId stage).goOn token
      (sweep.removed taskId generation stage afterwards)) := by
  have phase := (sound.phases token sweep found).of_respects
    (respects_remove : Respects world (world.remove taskId stage) sweep.phase)
  have isRemoval : sweep.phase.removal = some (taskId, generation, stage) := by rw [removing]; rfl
  have ended := phase.removal taskId generation stage isRemoval
  have pending := phase.pending
  rw [removing] at pending
  refine ⟨?_, .removed taskId generation stage isRemoval ⟨rfl, rfl⟩ (by cases stage <;> rfl)⟩
  apply sound.goOn (sound.files.remove taskId stage) (by cases stage <;> rfl)
  · exact fun _ _ _ => respects_remove
  · unfold ExpirySweep.removed
    split
    · exact .removing pending ended
    · cases afterwards with
      | recover remaining =>
        exact .recovering fun other written member =>
          pending other written (List.mem_cons_of_mem _ member)
      | sweep remaining => exact .of_pending_nil rfl

theorem recordDisposal_of_absent (absent : mapGet world.records taskId = none) :
    world.recordDisposal taskId now = world := by
  rw [recordDisposal, absent]

variable (sound : world.ExpirySound)
include sound

variable (found : mapGet world.sweeps token = some sweep)
include found

/-- A step of a sweep that takes over only what has ended keeps the invariant. -/
theorem ExpirySound.proceed
    (adoptsEnded : ∀ taskId ∈ sweep.phase.adopts, ∀ stored ∈ mapGet world.tombstones taskId,
      world.Ended stored.task) : Proceeds world sweep (world.proceed ttlMs token now sweep) := by
  have phase := sound.phases token sweep found
  unfold ExpiryWorld.proceed
  cases isPhase : sweep.phase with
  | listing => exact sound.passesOn (phaseSound_listExpunging sound.files)
  | recovering pending =>
    rw [isPhase] at phase adoptsEnded
    cases pending with
    | nil => exact sound.passesOn (.of_pending_nil rfl)
    | cons entry rest =>
      exact sound.passesOn (.removing phase.pending fun tombstone isTombstone =>
        adoptsEnded entry.1 rfl tombstone isTombstone)
  | scanning => exact sound.passesOn (.of_pending_nil rfl)
  | sweeping remaining =>
    cases remaining with
    | nil =>
      refine ⟨⟨⟨sound.files.unique, sound.files.apart, sound.files.newestRecord,
        sound.files.newestTombstone, sound.files.written⟩, ?_⟩, .kept ⟨rfl, rfl⟩⟩
      intro other otherSweep isOther
      have holds := sound.phases other otherSweep (mapGet_of_mapDelete isOther)
      exact ⟨holds.pending, holds.buried, holds.waiting, holds.disposing, holds.removal⟩
    | cons entry rest =>
      dsimp only
      split
      · exact sound.passesOn (.of_pending_nil rfl)
      · exact sound.tombstoneIfExpired (by rw [isPhase]; rfl) rest
  | tombstoned taskId stored remaining =>
    have isBuried : sweep.phase.buried = some (taskId, stored) := by rw [isPhase]; rfl
    dsimp only
    cases named : stored.task.processOf with
    | none =>
      exact sound.passesOn (phase.complete isBuried (ended_of_processOf_eq_none named) remaining)
    | some pid =>
      cases alive : world.isAlive pid with
      | false =>
        simp only [alive]
        exact sound.passesOn (phase.complete isBuried (ended_of_not_isAlive named alive) remaining)
      | true =>
        simp only [alive]
        apply sound.passesOn
        refine phase.passes isBuried (.of_same rfl rfl rfl fun _ ended => ended) rfl rfl ?_ ?_
        · intro other others isOther
          cases isOther
        · intro others isOther
          cases isOther
  | loading taskId stored remaining => exact sound.terminateOrphan found isPhase
  | waiting taskId stored pid remaining => exact sound.killed found isPhase
  | disposing taskId stored remaining =>
    have isBuried : sweep.phase.buried = some (taskId, stored) := by rw [isPhase]; rfl
    have absent := (phase.pending _ _ (pending_of_buried isBuried)).1
    dsimp only
    rw [recordDisposal_of_absent absent]
    exact sound.passesOn
      (phase.complete isBuried (phase.disposing taskId stored remaining isPhase) remaining)
  | removing taskId generation stage afterwards => exact sound.removed found isPhase

/-- What an expunge removes was not written by a later task. -/
theorem le_of_removes (isRemoval : sweep.phase.removal = some (taskId, generation, stage))
    (wrote : writer ∈ world.removes taskId stage) : writer ≤ generation := by
  obtain ⟨absent, newest⟩ := (sound.phases token sweep found).pending taskId generation
    (pending_of_removal isRemoval)
  rw [newest]
  cases stage with
  | artifact removed => exact sound.files.written removed taskId writer wrote
  | record =>
    unfold removes at wrote
    rw [absent] at wrote
    cases wrote
  | tombstone =>
    unfold removes at wrote
    cases isTombstone : mapGet world.tombstones taskId with
    | none =>
      rw [isTombstone] at wrote
      cases wrote
    | some stored =>
      rw [isTombstone] at wrote
      rw [List.mem_singleton.mp wrote]
      exact (sound.files.newestTombstone taskId stored isTombstone).le

theorem expungeSafe_proceed (files : SweepFiles world sweep after) :
    ExpungeSafe world (.proceed token now) after where
  retained := by
    intro taskId stored isRecord gone
    rcases files with
      same | ⟨checked, judged, checks, isJudged, expired, same⟩ |
        ⟨removed, generation, stage, isRemoval, same, -⟩
    · rw [same.records, isRecord] at gone
      cases gone
    · rw [same.records] at gone
      change mapGet (mapDelete world.records checked) taskId = none at gone
      rw [mapGet_mapDelete] at gone
      split_ifs at gone with isChecked
      · subst isChecked
        cases isRecord.symm.trans isJudged
        exact ⟨token, now, sweep, rfl, found, checks, expired⟩
      · rw [isRecord] at gone
        cases gone
    · have absent := ((sound.phases token sweep found).pending removed generation
        (pending_of_removal isRemoval)).1
      rw [same.records] at gone
      cases stage with
      | artifact other =>
        rw [show (world.remove removed (.artifact other)).records = world.records from rfl,
          isRecord] at gone
        cases gone
      | tombstone =>
        rw [show (world.remove removed .tombstone).records = world.records from rfl,
          isRecord] at gone
        cases gone
      | record =>
        change mapGet (mapDelete world.records removed) taskId = none at gone
        rw [mapDelete_of_mapGet_eq_none absent, isRecord] at gone
        cases gone
  ended := by
    intro taskId stored isTombstone gone
    rcases files with
      same | ⟨checked, judged, checks, isJudged, expired, same⟩ |
        ⟨removed, generation, stage, isRemoval, same, sameExited⟩
    · rw [same.tombstones] at gone
      exact absurd isTombstone gone
    · rw [same.tombstones] at gone
      change mapGet (mapSet world.tombstones checked judged) taskId ≠ some stored at gone
      rw [mapGet_mapSet] at gone
      split_ifs at gone with isChecked
      · subst isChecked
        have absent := sound.files.apart taskId stored isTombstone
        rw [isJudged] at absent
        cases absent
      · exact absurd isTombstone gone
    · rw [same.tombstones] at gone
      unfold Ended
      rw [sameExited]
      cases stage with
      | artifact other | record => exact absurd isTombstone gone
      | tombstone =>
        change mapGet (mapDelete world.tombstones removed) taskId ≠ some stored at gone
        rw [mapGet_mapDelete] at gone
        split_ifs at gone with isRemoved
        · subst isRemoved
          exact (sound.phases token sweep found).removal taskId generation _ isRemoval stored
            isTombstone
        · exact absurd isTombstone gone
  own := by
    intro otherToken otherNow other taskId generation stage isLabel isOther isRemoval writer wrote
    exact le_of_removes sound isOther isRemoval wrote

end Proceeding

/-! ## The other steps -/

theorem expungeSafe_of_kept (noSweep : ∀ token now, label ≠ .proceed token now)
    (kept : ∀ taskId, mapGet after.records taskId = none → mapGet world.records taskId = none)
    (sameTombstones : after.tombstones = world.tombstones) : ExpungeSafe world label after where
  retained := by
    intro taskId stored isRecord gone
    rw [kept taskId gone] at isRecord
    cases isRecord
  ended := by
    intro taskId stored isTombstone gone
    rw [sameTombstones] at gone
    exact absurd isTombstone gone
  own := fun token now _ _ _ _ isLabel => absurd isLabel (noSweep token now)

theorem of_mapGet_mapSet_eq_none {entries : List (String × Incarnation)}
    (absent : mapGet (mapSet entries key value) other = none) : mapGet entries other = none := by
  rw [mapGet_mapSet] at absent
  split_ifs at absent
  exact absent

section

variable (sound : world.ExpirySound)
include sound

/-- The invariant without a change of the sweeps. -/
theorem ExpirySound.keeps (files : after.FilesSound) (sameSweeps : after.sweeps = world.sweeps)
    (respects : ∀ token sweep, mapGet world.sweeps token = some sweep →
      Respects world after sweep.phase) :
    after.ExpirySound where
  files := files
  phases := by
    intro token sweep found
    rw [sameSweeps] at found
    exact (sound.phases token sweep found).of_respects (respects token sweep found)

theorem ExpirySound.aside (sameRecords : after.records = world.records)
    (sameTombstones : after.tombstones = world.tombstones)
    (sameGenerations : after.generations = world.generations)
    (sameArtifacts : after.artifacts = world.artifacts)
    (exited : ∀ pid ∈ world.exited, pid ∈ after.exited) (sameSweeps : after.sweeps = world.sweeps) :
    after.ExpirySound := by
  apply sound.keeps _ sameSweeps
  · exact fun _ _ _ => .of_same sameRecords sameGenerations sameTombstones exited
  · apply sound.files.of_same sameRecords sameTombstones sameGenerations
    intro artifact taskId writer wrote
    unfold contents at wrote ⊢
    rw [sameArtifacts] at wrote
    exact .inl wrote

theorem ExpirySound.create (unclaimed : world.Unclaimed (formatTaskId creation.value)) :
    (world.create call creation).ExpirySound :=
  sound.keeps (sound.files.create unclaimed.1) rfl fun _ _ found =>
    respects_create (unclaimed.2 _ (mem_of_mapGet found))

theorem ExpirySound.claim (call : Nat)
    (unclaimed : mapGet world.records (formatTaskId creation.value) = none →
      world.Unclaimed (formatTaskId creation.value)) :
    (world.claim call creation).ExpirySound := by
  unfold ExpiryWorld.claim
  cases absent : mapGet world.records (formatTaskId creation.value) with
  | none => exact sound.create (unclaimed absent)
  | some _ =>
    dsimp only
    split
    · exact sound.aside rfl rfl rfl rfl (fun _ ended => ended) rfl
    · exact sound.aside rfl rfl rfl rfl (fun _ ended => ended) rfl

end

theorem expungeSafe_claim : ExpungeSafe world (.claim call) (world.claim call creation) := by
  apply expungeSafe_of_kept
  · intro token now isLabel
    cases isLabel
  · intro taskId gone
    unfold ExpiryWorld.claim at gone
    split at gone
    · exact of_mapGet_mapSet_eq_none gone
    · split at gone <;> exact gone
  · unfold ExpiryWorld.claim
    split
    · rfl
    · split <;> rfl

/-- The step lemma: a step that meets both conditions is safe and keeps the invariant. -/
theorem ExpirySound.step (sound : world.ExpirySound) (adoptsEnded : AdoptsEnded world label after)
    (createsUnclaimed : CreatesUnclaimed world label after)
    (stepped : ExpiryWorld.step ttlMs world label = some after) :
    ExpungeSafe world label after ∧ after.ExpirySound := by
  revert adoptsEnded createsUnclaimed stepped
  fun_cases ExpiryWorld.step ttlMs world label <;> intro adoptsEnded createsUnclaimed stepped
  case case3 token now =>
    obtain ⟨sweep, found, rfl⟩ := Option.map_eq_some_iff.mp stepped
    have proceeds : Proceeds world sweep (world.proceed ttlMs token now sweep) :=
      sound.proceed found (adoptsEnded sweep (Option.mem_def.mpr found))
    exact ⟨expungeSafe_proceed sound found proceeds.files, proceeds.sound⟩
  case case7 call =>
    obtain ⟨creation, found, rfl⟩ := Option.map_eq_some_iff.mp stepped
    exact ⟨expungeSafe_claim,
      sound.claim call (createsUnclaimed creation (Option.mem_def.mpr found))⟩
  case case9 taskId next =>
    obtain ⟨stored, found, rfl⟩ := Option.map_eq_some_iff.mp stepped
    exact ⟨expungeSafe_of_kept (fun _ _ => ExpiryLabel.noConfusion)
        (fun _ gone => of_mapGet_mapSet_eq_none gone) rfl,
      sound.keeps (sound.files.writeRecord found rfl) rfl fun _ _ _ => respects_writeRecord found⟩
  case case5 =>
    obtain ⟨value, -, rfl⟩ := Option.map_eq_some_iff.mp stepped
    exact ⟨expungeSafe_of_kept (fun _ _ => ExpiryLabel.noConfusion) (fun _ gone => gone) rfl,
      sound.aside rfl rfl rfl rfl (fun _ ended => ended) rfl⟩
  all_goals cases stepped
  all_goals
    refine ⟨expungeSafe_of_kept (fun _ _ => ExpiryLabel.noConfusion) (fun _ gone => gone) rfl, ?_⟩
  case case1 => exact sound.moves (.of_pending_nil rfl)
  case case4 token =>
    refine ⟨⟨sound.files.unique, sound.files.apart, sound.files.newestRecord,
      sound.files.newestTombstone, sound.files.written⟩, ?_⟩
    intro other sweep found
    have holds := sound.phases other sweep (mapGet_of_mapDelete found)
    exact ⟨holds.pending, holds.buried, holds.waiting, holds.disposing, holds.removal⟩
  case case8 | case13 => exact sound.aside rfl rfl rfl rfl (fun _ ended => ended) rfl
  case case10 artifact _ _ bounded =>
    exact sound.keeps (sound.files.appendArtifact artifact bounded) rfl
      fun _ _ _ => respects_appendArtifact ..
  case case12 pid =>
    exact sound.aside rfl rfl rfl rfl (fun _ ended => List.mem_cons_of_mem pid ended) rfl

/-! ## Runs -/

/-- No sweep is under way.  Tombstones of sweeps that crashed may be left. -/
structure AtRest (world : ExpiryWorld) : Prop where
  files : world.FilesSound
  sweeps : world.sweeps = []

/-- Every step of every run is safe. -/
def ExpungesSafely (ttlMs : Nat) : Prop :=
  ∀ (initial : ExpiryWorld) (labels : List ExpiryLabel), initial.AtRest →
    EveryStep (step ttlMs) ExpungeSafe initial labels

/-- Every step of a run is safe, in which sweeps take over only what has ended and new
tasks take no id whose expunge is under way. -/
theorem expungeSafe_of_adoptsEnded (ttlMs : Nat) {initial : ExpiryWorld} {labels : List ExpiryLabel}
    (atRest : initial.AtRest) (adoptsEnded : EveryStep (step ttlMs) AdoptsEnded initial labels)
    (createsUnclaimed : EveryStep (step ttlMs) CreatesUnclaimed initial labels) :
    EveryStep (step ttlMs) ExpungeSafe initial labels := by
  have initially : initial.ExpirySound := by
    refine ⟨atRest.files, ?_⟩
    intro token sweep found
    rw [atRest.sweeps] at found
    cases found
  refine (adoptsEnded.and createsUnclaimed).of_invariant ?_ initially
  intro before label next sound conditions stepped
  exact sound.step conditions.1 conditions.2 stepped

/-! ## A sweep that crashes between the rename and the signal -/

/-- A task that ended long ago, whose process still runs. -/
def endedTask : ExpiryRecord where
  record :=
    { createTaskRecord
        { taskId := "st_00000001", executionMode := .process, model := "m",
          resolvedModel := none, fallbackModels := [], pendingSteering := [] } 1 0 with
      status := .completed
      residencyState := .disposed
      notifiedEpoch := 0
      terminalAt := some 0
      pid := some 7 }
  notifyOnTerminal := true
  notificationFailedEpoch := none

def oneEnded : ExpiryWorld where
  records := [("st_00000001", ⟨1, endedTask⟩)]
  tombstones := []
  artifacts := [((.log, "st_00000001"), [1])]
  generations := [("st_00000001", 1)]
  handles := []
  exited := []
  lastTaskIdValues := []
  creations := []
  sweeps := []
  returned := []

theorem atRest_oneEnded : oneEnded.AtRest where
  files := {
    unique := List.nodup_nil
    apart := by
      intro taskId stored found
      cases found
    newestRecord := by
      intro taskId stored found
      have isEntry := List.mem_singleton.mp (mem_of_mapGet found)
      cases isEntry
      rfl
    newestTombstone := by
      intro taskId stored found
      cases found
    written := by
      intro artifact taskId writer wrote
      unfold contents at wrote
      cases found : mapGet oneEnded.artifacts (artifact, taskId) with
      | none =>
        rw [found] at wrote
        cases wrote
      | some writers =>
        have isEntry := List.mem_singleton.mp (mem_of_mapGet found)
        cases isEntry
        rw [List.mem_singleton.mp wrote]
        decide }
  sweeps := rfl

/-- The first sweep crashes when it has renamed the record. -/
def crashesAfterRename : List ExpiryLabel :=
  [.beginSweep 0 0, .proceed 0 100, .proceed 0 100, .proceed 0 100, .proceed 0 100, .crash 0]

/-- The second sweep completes what it finds, up to the given operation. -/
def recovers (operations : Nat) : List ExpiryLabel :=
  .beginSweep 1 0 :: .proceed 1 100 :: .proceed 1 100 :: List.replicate operations (.proceed 1 100)

theorem not_expungesSafely_crash : ¬ ExpungesSafely 10 := by
  intro safely
  have reached : ∃ last, execute (step 10) oneEnded (crashesAfterRename ++ recovers 4) =
      some last ∧ mapGet last.tombstones "st_00000001" = some ⟨1, endedTask⟩ ∧
        ∃ next, step 10 last (.proceed 1 100) = some next ∧
          mapGet next.tombstones "st_00000001" = none ∧ next.exited = [] :=
    ⟨_, rfl, by decide +kernel, _, rfl, by decide +kernel, rfl⟩
  obtain ⟨last, isLast, standing, next, isNext, gone, noneExited⟩ := reached
  have everyStep := safely oneEnded (crashesAfterRename ++ recovers 4 ++ [.proceed 1 100])
    atRest_oneEnded
  have safe := (everyStep.append isLast next isNext).1
  have ended := safe.ended "st_00000001" ⟨1, endedTask⟩ standing (by
    rw [gone]
    intro same
    cases same)
  have exited := ended 7 rfl
  rw [noneExited] at exited
  cases exited

/-- The process ends by itself before the second sweep comes to the tombstone. -/
theorem expungeSafe_of_adoptsEnded_exit :
    EveryStep (step 10) ExpungeSafe oneEnded (crashesAfterRename ++ .exit 7 :: recovers 5) :=
  expungeSafe_of_adoptsEnded 10 atRest_oneEnded (by decide +kernel) (by decide +kernel)

end ExpiryWorld
end OpenAgent.Tasks
