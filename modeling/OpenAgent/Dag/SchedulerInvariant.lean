import OpenAgent.Dag.SchedulerSteps

/-!
# The invariant of the scheduler

Attached, parked and starting nodes are distinct, and they are exactly the
active nodes of the record until the run is cancelled.
-/

namespace OpenAgent.Dag

open Library
open RunJournal (Sound Moves Evolves SkipsOnly Quiescent)

namespace SchedulerState

variable {env : SchedulerEnv} {rank : DagNodeId → Nat} {state next : SchedulerState}

variable {id : DagNodeId}

theorem not_waiting_of_active (active : Active record id) : ¬ Waiting record id := by
  rintro ⟨found, isFound, isWaiting⟩
  obtain ⟨other, isOther, isActive⟩ := active
  rw [isFound] at isOther
  cases isOther
  cases found <;> simp [DagNodeState.isWaiting, DagNodeState.isActive] at isWaiting isActive

theorem not_active_of_terminal (isFound : stateOf record id = some found)
    (terminal : found.isTerminal = true) : ¬ Active record id := by
  rintro ⟨other, isOther, isActive⟩
  rw [isFound] at isOther
  cases isOther
  rw [DagNodeState.not_active_of_terminal terminal] at isActive
  cases isActive

theorem active_congr (same : stateOf other id = stateOf record id) :
    Active other id ↔ Active record id := by
  unfold Active
  rw [same]

/-- The cascade does not touch active nodes. -/
theorem active_of_skips {journal : RunJournal} (skips : SkipsOnly env journal between) :
    Active between.durable id ↔ Active journal.durable id := by
  rcases skips.each id with same | ⟨waiting, skipped, _⟩
  · exact active_congr same
  · constructor
    · intro active
      exact absurd active (not_active_of_terminal skipped rfl)
    · intro active
      exact absurd waiting (not_waiting_of_active active)

variable {journal later : RunJournal}

section

variable (statesEq : stateOf later.durable = moveTo target nodeIds (stateOf journal.durable))
include statesEq

/-- Moving nodes to a terminal state. -/
theorem active_moveTo_terminal (terminal : target.isTerminal = true) (id : DagNodeId) :
    Active later.durable id ↔ Active journal.durable id ∧ id ∉ nodeIds := by
  by_cases member : id ∈ nodeIds
  · simp only [member, not_true_eq_false, and_false, iff_false]
    rintro ⟨found, isFound, isActive⟩
    rw [statesEq, moveTo_eq_some] at isFound
    rcases isFound with ⟨_, _, rfl⟩ | ⟨outside, _⟩
    · rw [DagNodeState.not_active_of_terminal terminal] at isActive
      cases isActive
    · exact outside member
  · simp only [member, not_false_eq_true, and_true]
    apply active_congr
    rw [statesEq, moveTo, if_neg member]

/-- Moving nodes to an active state. -/
theorem active_moveTo_active (active : target.isActive = true)
    (known : ∀ id ∈ nodeIds, (stateOf journal.durable id).isSome) :
    Active later.durable id ↔ Active journal.durable id ∨ id ∈ nodeIds := by
  by_cases member : id ∈ nodeIds
  · simp only [member, or_true, iff_true]
    refine ⟨target, ?_, active⟩
    rw [statesEq, moveTo_eq_some]
    exact Or.inl ⟨member, known id member, rfl⟩
  · simp only [member, or_false]
    apply active_congr
    rw [statesEq, moveTo, if_neg member]

end

theorem Invariant.notDone (invariant : Invariant rank state)
    (running : state.cancellationStarted = false) : state.cancellation ≠ .done := by
  intro done
  have started := invariant.flagged.mpr (by simp [done])
  rw [running] at started
  cases started

theorem Invariant.none_of_running (invariant : Invariant rank state)
    (running : state.cancellationStarted = false) : state.cancellation = .none := by
  by_contra started
  rw [invariant.flagged.mpr started] at running
  cases running

variable {phase : RunPhase}

theorem PassesOn.batch_eq (passes : PassesOn state phase) : phase.batch = state.phase.batch := by
  cases passes with
  | stays => rfl
  | signalled inAdmission before | observed cancelling before | returned before => rw [before]; rfl

variable {watches : List DagNodeId}

theorem Invariant.of_passed (invariant : Invariant rank state)
    (began : Began env rank state.journal journal) (passes : PassesOn state phase) :
    Invariant rank
      { state with journal := journal, promotionWatches := watches, phase := phase } where
  __ := invariant
  sound := began.sound
  named := began.evolves.named invariant.named
  nodup := by
    simp only [holders, passes.batch_eq]
    exact invariant.nodup
  heldActive := by
    simp only [holders, passes.batch_eq]
    intro notDone id member
    exact (active_congr (congrFun began.states_eq id)).mpr (invariant.heldActive notDone id member)
  activeHeld := by
    simp only [holders, passes.batch_eq]
    intro running id active
    exact invariant.activeHeld running id ((active_congr (congrFun began.states_eq id)).mp active)
  parked := by
    have parked := invariant.parked
    cases passes with
    | stays => exact parked
    | signalled inAdmission before =>
      simp only [ParkedAsPhase, before] at parked
      cases inAdmission <;> exact parked.1
    | observed | returned => trivial

theorem Invariant.of_admits (invariant : Invariant rank state)
    (running : state.cancellationStarted = false)
    (before : state.phase = .idle ∨ ∃ inAdmission, state.phase = .settled inAdmission)
    (began : Began env rank state.journal begun) (skips : SkipsOnly env begun between)
    (pass : Admits env { state with journal := begun } next between runnable) :
    Invariant rank next := by
  have notDone := invariant.notDone running
  have noBatch : state.phase.batch = [] := by
    rcases before with phase | ⟨_, phase⟩ <;> simp [phase, RunPhase.batch]
  have heldBefore : state.holders = state.attachedTasks ++ state.pendingAdmission := by
    simp [holders, noBatch]
  have heldAfter : next.holders = state.attachedTasks ++ (state.pendingAdmission ++ runnable) := by
    rw [holders, pass.attachedTasks, pass.pendingAdmission, pass.phase]
    split
    · rename_i nothing
      change state.pendingAdmission = [] ∧ runnable = [] at nothing
      simp [nothing.1, nothing.2, RunPhase.batch]
    · simp [RunPhase.batch]
  have known : ∀ id ∈ runnable, (stateOf between.durable id).isSome := by
    intro id member
    obtain ⟨⟨found, isFound, _⟩, _⟩ := (pass.ready id).mp member
    simp [isFound]
  have activeBetween : ∀ id, Active between.durable id ↔ Active state.journal.durable id :=
    fun id => (active_of_skips skips).trans (active_congr (congrFun began.states_eq id))
  have activeAfter : ∀ id, Active next.journal.durable id ↔
      Active state.journal.durable id ∨ id ∈ runnable := fun id =>
    (active_moveTo_active pass.moves.states_eq rfl known).trans
      (or_congr_left (activeBetween id))
  have sound := pass.moves.sound (skips.moves.sound began.sound)
  have none := invariant.none_of_running running
  refine
    { sound := sound
      named := pass.moves.evolves.named (skips.moves.evolves.named
        (began.evolves.named invariant.named))
      noForeign := pass.foreignSettlement.trans invariant.noForeign
      flagged := by
        rw [pass.cancellationStarted, pass.cancellation]
        exact invariant.flagged
      keys := by
        rw [pass.attachedTaskIds, pass.attachedTasks, pass.cancellation]
        exact invariant.keys
      nodup := ?_
      heldActive := ?_
      activeHeld := ?_
      parked := ?_ }
  · intro _
    rw [heldAfter, ← List.append_assoc]
    refine List.nodup_append.mpr ⟨heldBefore ▸ invariant.nodup notDone, pass.nodup, ?_⟩
    intro left leftMember right rightMember equal
    subst equal
    have active := invariant.heldActive notDone left (heldBefore ▸ leftMember)
    exact not_waiting_of_active ((activeBetween left).mpr active)
      ((pass.ready left).mp rightMember).1
  · intro _ id member
    rw [heldAfter, ← List.append_assoc, List.mem_append, ← heldBefore] at member
    rw [activeAfter]
    exact member.imp_left (invariant.heldActive notDone id)
  · intro _ id active
    rw [heldAfter, ← List.append_assoc, List.mem_append, ← heldBefore]
    exact ((activeAfter id).mp active).imp_left (invariant.activeHeld running id)
  · unfold ParkedAsPhase
    rw [pass.phase, pass.pendingAdmission, pass.cancellation]
    by_cases nothing : state.pendingAdmission = [] ∧ runnable = []
    · rw [if_pos nothing]
    · rw [if_neg nothing]
      refine ⟨rfl, ?_, ?_⟩
      · simpa using nothing
      · rw [none]
        rfl

theorem attachedTask_of_denied {answer : StartAnswer} (isDenied : answer.isDenied = true) :
    answer.attachedTask cancelling = none := by
  unfold StartAnswer.attachedTask
  split <;> first | rfl | cases isDenied

theorem attachments_sublist (cancelling : Bool) (entries : List (DagNodeId × StartAnswer)) :
    ((attachments cancelling entries).map (·.1)).Sublist (entries.map (·.1)) := by
  induction entries with
  | nil => exact List.Sublist.refl _
  | cons entry entries ih =>
    simp only [attachments, List.filterMap_cons]
    cases entry.2.attachedTask cancelling with
    | none => exact ih.cons _
    | some taskId => exact ih.cons_cons _

theorem deniedNodes_sublist (cancelling : Bool) (entries : List (DagNodeId × StartAnswer)) :
    (deniedNodes cancelling entries).Sublist (entries.map (·.1)) := by
  cases cancelling with
  | true => exact List.nil_sublist _
  | false => exact (List.filter_sublist).map _

/-- What a folded batch leaves of its nodes. -/
structure BatchOutcome (state folded : SchedulerState)
    (batch attached denied : List DagNodeId) : Prop where
  attachedTasks : folded.attachedTasks = state.attachedTasks ++ attached
  nodup : (state.attachedTasks ++ (attached ++ denied)).Nodup
  active : ∀ id ∈ state.attachedTasks ++ (attached ++ denied), Active folded.journal.durable id
  held : state.cancellationStarted = false → ∀ id, Active folded.journal.durable id →
    id ∈ state.attachedTasks ++ (attached ++ denied)
  keys : folded.attachedTaskIds.map (·.1) = folded.attachedTasks

variable {folded : SchedulerState} {answers : List StartAnswer} {denied : List DagNodeId}

section

variable (invariant : Invariant rank state)
include invariant

theorem Invariant.batchOutcome (before : state.phase = .starting batch)
    (length : answers.length = batch.length)
    (folds : BatchFolded env (batch.zip answers) []
      { state with
        traffic := state.traffic ++ (batch.zip answers).map fun entry => .answered entry.1 entry.2 }
      (folded, denied)) :
    BatchOutcome state folded batch
      ((attachments state.cancellationStarted (batch.zip answers)).map (·.1)) denied := by
  have parked := invariant.parked
  simp only [ParkedAsPhase, before] at parked
  obtain ⟨noneParked, _, early⟩ := parked
  have notDone : state.cancellation ≠ .done := by
    intro done
    simp [done, CancelPhase.isEarly] at early
  have ids : (batch.zip answers).map (·.1) = batch := List.map_fst_zip (by omega)
  have heldEq : state.holders = state.attachedTasks ++ batch := by
    simp [holders, noneParked, before, RunPhase.batch]
  have nodup := heldEq ▸ invariant.nodup notDone
  obtain ⟨attachedNodup, batchNodup, disjoint⟩ := List.nodup_append.mp nodup
  have activeBefore : ∀ id ∈ state.attachedTasks ++ batch, Active state.journal.durable id :=
    fun id member => invariant.heldActive notDone id (heldEq ▸ member)
  have deniedEq : denied = deniedNodes state.cancellationStarted (batch.zip answers) :=
    folds.denied_eq
  have attachedSublist := attachments_sublist state.cancellationStarted (batch.zip answers)
  rw [ids] at attachedSublist
  have deniedSublist := deniedNodes_sublist state.cancellationStarted (batch.zip answers)
  rw [ids, ← deniedEq] at deniedSublist
  have unique := List.inj_on_of_nodup_map (f := Prod.fst) (l := batch.zip answers) (by
    rw [show (batch.zip answers).map Prod.fst = batch from ids]
    exact batchNodup)
  have apart : ∀ id ∈ (attachments state.cancellationStarted (batch.zip answers)).map (·.1),
      id ∉ denied := by
    intro id attached isDenied
    obtain ⟨⟨found, taskId⟩, listed, rfl⟩ := List.mem_map.mp attached
    obtain ⟨answer, inside, isTask⟩ := mem_attachments.mp listed
    rw [deniedEq, mem_deniedNodes] at isDenied
    obtain ⟨_, other, otherInside, otherDenied⟩ := isDenied
    have same := unique inside otherInside rfl
    injection same with _ sameAnswer
    rw [← sameAnswer] at otherDenied
    cases isTask.symm.trans (attachedTask_of_denied otherDenied)
  have outside : ∀ id ∈ state.attachedTasks, id ∉ batch := fun id attached inBatch =>
    disjoint id attached id inBatch rfl
  refine ⟨folds.attachedTasks, ?_, ?_, ?_, ?_⟩
  · refine List.nodup_append.mpr ⟨attachedNodup, ?_, ?_⟩
    · refine List.nodup_append.mpr ⟨attachedSublist.nodup batchNodup,
        deniedSublist.nodup batchNodup, ?_⟩
      intro left leftMember right rightMember equal
      exact apart left leftMember (equal ▸ rightMember)
    · intro left leftMember right rightMember equal
      subst equal
      rcases List.mem_append.mp rightMember with attached | isDenied
      · exact outside left leftMember (attachedSublist.subset attached)
      · exact outside left leftMember (deniedSublist.subset isDenied)
  · intro id member
    rcases List.mem_append.mp member with old | fresh
    · refine (active_congr (folds.others id ?_)).mpr (activeBefore id (List.mem_append_left _ old))
      rw [ids]
      exact outside id old
    rcases List.mem_append.mp fresh with attached | isDenied
    · obtain ⟨⟨found, taskId⟩, listed, rfl⟩ := List.mem_map.mp attached
      obtain ⟨answer, inside, isTask⟩ := mem_attachments.mp listed
      exact folds.active (found, answer) inside (by simp [isTask])
    · have inBatch := deniedSublist.subset isDenied
      rw [deniedEq, mem_deniedNodes] at isDenied
      obtain ⟨running, answer, inside, answerDenied⟩ := isDenied
      exact (active_congr (folds.kept (id, answer) inside (attachedTask_of_denied answerDenied)
        (Or.inr answerDenied))).mpr
        (activeBefore id (List.mem_append_right _ inBatch))
  · intro running id active
    by_cases inBatch : id ∈ batch
    · apply List.mem_append_right
      rw [← ids] at inBatch
      obtain ⟨⟨found, answer⟩, inside, rfl⟩ := List.mem_map.mp inBatch
      cases isTask : answer.attachedTask state.cancellationStarted with
      | some taskId =>
        exact List.mem_append_left _ (List.mem_map_of_mem
          (mem_attachments.mpr ⟨answer, inside, isTask⟩))
      | none =>
        apply List.mem_append_right
        rw [deniedEq, mem_deniedNodes]
        refine ⟨running, answer, inside, ?_⟩
        by_contra notDenied
        have failed := folds.failed running (found, answer) inside isTask
          (Bool.eq_false_iff.mpr notDenied)
        exact not_active_of_terminal failed rfl active
    · apply List.mem_append_left
      have activeOld := (active_congr (folds.others id (by rwa [ids]))).mp active
      have held := heldEq ▸ invariant.activeHeld running id activeOld
      exact (List.mem_append.mp held).resolve_right inBatch
  · rw [folds.attachedTaskIds, folds.attachedTasks, List.map_append]
    rw [show state.attachedTaskIds.map (·.1) = state.attachedTasks from invariant.keys notDone]

theorem Invariant.of_answered (before : state.phase = .starting batch)
    (length : answers.length = batch.length)
    (folds : BatchFolded env (batch.zip answers) []
      { state with
        traffic := state.traffic ++ (batch.zip answers).map fun entry => .answered entry.1 entry.2 }
      (folded, denied))
    (finishes : BatchFinished env folded denied next) : Invariant rank next := by
  have outcome := invariant.batchOutcome before length folds
  have parked := invariant.parked
  simp only [ParkedAsPhase, before] at parked
  have sound := folds.moves.sound invariant.sound
  have named := folds.moves.evolves.named invariant.named
  have noForeign := folds.control.foreignSettlement.trans invariant.noForeign
  have flagged : folded.cancellationStarted = true ↔ folded.cancellation ≠ .none := by
    rw [folds.control.cancellationStarted, folds.control.cancellation]
    exact invariant.flagged
  have noneParked : folded.pendingAdmission = [] :=
    folds.control.pendingAdmission.trans parked.1
  have sameFlag : folded.cancellationStarted = state.cancellationStarted :=
    folds.control.cancellationStarted
  have heldEq : state.attachedTasks ++ ((attachments state.cancellationStarted
      (batch.zip answers)).map (·.1) ++ denied) = folded.attachedTasks ++ denied := by
    rw [outcome.attachedTasks, List.append_assoc]
  have nodup := outcome.nodup
  have active := outcome.active
  have held := outcome.held
  rw [heldEq] at nodup active held
  rw [← sameFlag] at held
  cases finishes with
  | cancelled cancelling =>
    refine ⟨sound, named, noForeign, flagged, fun _ => outcome.keys, ?_, ?_, ?_, trivial⟩ <;>
      simp only [holders, noneParked, RunPhase.batch, List.append_nil]
    · exact fun _ => nodup.sublist (List.sublist_append_left _ _)
    · exact fun _ id member => active id (List.mem_append_left _ member)
    · intro running
      rw [show folded.cancellationStarted = true from cancelling] at running
      cases running
  | admitted running noneDenied =>
    rw [noneDenied, List.append_nil] at nodup active held
    refine ⟨sound, named, noForeign, flagged, fun _ => outcome.keys, ?_, ?_, ?_, noneParked⟩ <;>
      simp only [holders, noneParked, RunPhase.batch, List.append_nil]
    · exact fun _ => nodup
    · exact fun _ => active
    · exact held
  | gaveUp journal running someDenied noneAttached moves =>
    have activeIff := active_moveTo_terminal moves.states_eq rfl
    refine ⟨moves.sound sound, moves.evolves.named named, noForeign, flagged,
      fun _ => outcome.keys, ?_, ?_, ?_, rfl⟩ <;>
      simp only [noneAttached]
    · exact fun _ => List.nodup_nil
    · intro _ id member
      cases member
    · intro _ id active
      obtain ⟨activeFolded, notDenied⟩ := (activeIff id).mp active
      have isHeld := held running id activeFolded
      rw [noneAttached] at isHeld
      exact absurd isHeld (by simpa using notDenied)
  | parked running someDenied someAttached =>
    refine ⟨sound, named, noForeign, flagged, fun _ => outcome.keys, ?_, ?_, ?_,
      ?_, someAttached⟩ <;>
      simp only [holders, noneParked, RunPhase.batch, List.append_nil]
    · exact fun _ => nodup
    · exact fun _ => active
    · exact held
    · exact someDenied

theorem Invariant.of_returns (before : state.phase = .admitted)
    (returned : AdmissionReturned env state next) : Invariant rank next := by
  have noBatch : state.holders = state.attachedTasks ++ state.pendingAdmission := by
    simp [holders, before, RunPhase.batch]
  have parked := invariant.parked
  simp only [ParkedAsPhase, before] at parked
  have nodup := invariant.nodup
  have heldActive := invariant.heldActive
  have activeHeld := invariant.activeHeld
  rw [noBatch] at nodup heldActive activeHeld
  cases returned with
  | finished allTerminal =>
    obtain ⟨_, _, _, sound, statesEq, _⟩ := invariant.sound.finishRun_spec env
    have named := (RunJournal.evolves_finishRun env state.journal).named invariant.named
    refine ⟨sound, named, invariant.noForeign, invariant.flagged, invariant.keys, ?_, ?_,
      ?_, trivial⟩ <;>
      simp only [holders, RunPhase.batch, List.append_nil]
    · exact nodup
    · intro notDone id member
      exact (active_congr (congrFun statesEq id)).mpr (heldActive notDone id member)
    · intro running id active
      exact activeHeld running id ((active_congr (congrFun statesEq id)).mp active)
  | threw =>
    refine ⟨invariant.sound, invariant.named, invariant.noForeign, invariant.flagged,
      invariant.keys, ?_, ?_, ?_, trivial⟩ <;>
      simpa only [holders, RunPhase.batch, List.append_nil]
  | settling pending someAttached =>
    refine ⟨invariant.sound, invariant.named, invariant.noForeign, invariant.flagged,
      invariant.keys, ?_, ?_, ?_, parked, someAttached⟩ <;>
      simpa only [holders, RunPhase.batch, List.append_nil]

end

theorem map_fst_mapDelete (entries : List (DagNodeId × String)) (nodeId : DagNodeId)
    (nodup : (entries.map (·.1)).Nodup) :
    (mapDelete entries nodeId).map (·.1) = (entries.map (·.1)).erase nodeId := by
  rw [nodup.erase_eq_filter, List.filter_map]
  congr 1
  apply List.filter_congr
  intro entry _
  by_cases same : entry.1 = nodeId <;> simp [same]

variable (invariant : Invariant rank state)
include invariant

theorem Invariant.of_settles (before : state.phase = .settling inAdmission)
    (running : state.cancellationStarted = false) (attached : nodeId ∈ state.attachedTasks)
    (folds : SettlementFolded env nodeId settlement state folded) :
    Invariant rank { folded with phase := .settled inAdmission } := by
  have notDone := invariant.notDone running
  have noBatch : state.holders = state.attachedTasks ++ state.pendingAdmission := by
    simp [holders, before, RunPhase.batch]
  have nodup := invariant.nodup notDone
  rw [noBatch] at nodup
  obtain ⟨attachedNodup, _, disjoint⟩ := List.nodup_append.mp nodup
  have notParked : nodeId ∉ state.pendingAdmission := fun parked =>
    disjoint nodeId attached nodeId parked rfl
  have activeIff := active_moveTo_terminal folds.moves.states_eq settlement.nodeState_isTerminal
  have memberIff : ∀ id, id ∈ state.attachedTasks.erase nodeId ++ state.pendingAdmission ↔
      id ∈ state.holders ∧ id ∉ [nodeId] := by
    intro id
    rw [noBatch, List.mem_append, List.mem_append, attachedNodup.mem_erase_iff, List.mem_singleton]
    constructor
    · rintro (⟨different, member⟩ | parked)
      · exact ⟨Or.inl member, different⟩
      · exact ⟨Or.inr parked, fun same => notParked (same ▸ parked)⟩
    · rintro ⟨member | parked, different⟩
      · exact Or.inl ⟨different, member⟩
      · exact Or.inr parked
  have parked := invariant.parked
  simp only [ParkedAsPhase, before] at parked
  have keys := invariant.keys notDone
  refine ⟨folds.moves.sound invariant.sound, folds.moves.evolves.named invariant.named,
    folds.foreignSettlement.trans invariant.noForeign, ?_, ?_, ?_, ?_, ?_, ?_⟩
  · simp only [folds.cancellationStarted, folds.cancellation]
    exact invariant.flagged
  · intro _
    rw [folds.attachedTaskIds, folds.attachedTasks,
      map_fst_mapDelete _ _ (keys ▸ attachedNodup), keys]
  · intro _
    simp only [holders, RunPhase.batch, List.append_nil, folds.attachedTasks,
      folds.pendingAdmission]
    exact nodup.sublist (List.Sublist.append_right List.erase_sublist _)
  · intro _ id member
    simp only [holders, RunPhase.batch, List.append_nil, folds.attachedTasks,
      folds.pendingAdmission] at member
    obtain ⟨held, different⟩ := (memberIff id).mp member
    exact (activeIff id).mpr ⟨invariant.heldActive notDone id held, different⟩
  · intro _ id active
    simp only [holders, RunPhase.batch, List.append_nil, folds.attachedTasks,
      folds.pendingAdmission]
    obtain ⟨activeBefore, different⟩ := (activeIff id).mp active
    exact (memberIff id).mpr ⟨invariant.activeHeld running id activeBefore, different⟩
  · simp only [folds.pendingAdmission]
    cases inAdmission <;> exact parked.1

theorem Invariant.of_promotes (queued : stateOf state.journal.durable nodeId = some .scheduled)
    (moves : Moves env state.journal journal
      (moveTo .running [nodeId] (stateOf state.journal.durable))) :
    Invariant rank { state with journal := journal, promotionWatches := watches } := by
  have activeIff : ∀ id, Active journal.durable id ↔ Active state.journal.durable id := by
    intro id
    rw [active_moveTo_active moves.states_eq rfl (by simp [queued]), List.mem_singleton]
    constructor
    · rintro (active | rfl)
      · exact active
      · exact ⟨.scheduled, queued, rfl⟩
    · exact Or.inl
  refine ⟨moves.sound invariant.sound, moves.evolves.named invariant.named,
    invariant.noForeign, invariant.flagged, invariant.keys, invariant.nodup, ?_, ?_,
    invariant.parked⟩
  · intro notDone id member
    exact (activeIff id).mpr (invariant.heldActive notDone id member)
  · intro running id active
    exact invariant.activeHeld running id ((activeIff id).mp active)

theorem Invariant.of_cancels (running : state.cancellation = .none) (reason : Option String) :
    Invariant rank
      { state with cancellationStarted := true, cancellation := .awaitingIdle reason } where
  __ := invariant
  flagged := by simp
  keys := fun _ => invariant.keys (by simp [running])
  nodup := fun _ => invariant.nodup (by simp [running])
  heldActive := fun _ => invariant.heldActive (by simp [running])
  activeHeld := by simp
  parked := by
    have parked := invariant.parked
    unfold ParkedAsPhase at parked ⊢
    split <;> simp_all [CancelPhase.isEarly]

theorem Invariant.of_cancelsTasks (before : state.cancellation = .awaitingIdle reason)
    (notStarting : state.phase.batch = []) : Invariant rank (state.cancelTasks reason) where
  __ := invariant
  flagged := by
    simp only [cancelTasks]
    rw [invariant.flagged, before]
    simp
  keys := fun _ => invariant.keys (by simp [before])
  nodup := fun _ => invariant.nodup (by simp [before])
  heldActive := fun _ => invariant.heldActive (by simp [before])
  parked := by
    have parked := invariant.parked
    unfold ParkedAsPhase at parked ⊢
    simp only [cancelTasks]
    split <;> simp_all [RunPhase.batch]

theorem Invariant.of_cancelsRest (before : state.cancellation = .cancellingTasks reason) :
    Invariant rank
      { state with
        journal := state.journal.finishCancellation env reason
        attachedTaskIds := []
        cancellation := .done } := by
  obtain ⟨_, _, _, sound, _⟩ := invariant.sound.finishCancellation_spec env reason
  have started := invariant.flagged.mpr (by simp [before])
  refine ⟨sound, (RunJournal.evolves_finishCancellation env state.journal reason).named
    invariant.named, invariant.noForeign, by simp [started], by simp, by simp, by simp,
    by simp [started], ?_⟩
  have parked := invariant.parked
  unfold ParkedAsPhase at parked ⊢
  split <;> simp_all [CancelPhase.isEarly]

/-- Every step of a scheduler that is alone on its run keeps the invariant. -/
theorem Invariant.step (ownStep : OwnStep env rank state action next) : Invariant rank next := by
  cases ownStep with
  | passed _ journal watches phase began passes => exact invariant.of_passed began passes
  | admits _ begun between runnable _ running before began skips quiescent pass =>
    exact invariant.of_admits running before began skips pass
  | answered batch answers folded _ denied before length folds finishes =>
    exact invariant.of_answered before length folds finishes
  | returns _ before returned => exact invariant.of_returns before returned
  | settles nodeId settlement inAdmission folded before running attached folds =>
    exact invariant.of_settles before running attached folds
  | promotes nodeId journal watches running queued moves => exact invariant.of_promotes queued moves
  | cancels runId reason running openRun => exact invariant.of_cancels running reason
  | cancelsTasks reason before notStarting notAdmitted =>
    exact invariant.of_cancelsTasks before notStarting
  | cancelsRest reason before => exact invariant.of_cancelsRest before

end SchedulerState

theorem compileDag_waves_known (accepted : (compileDag definition settings atTime).ok = true) :
    ∀ wave ∈ (compileDag definition settings atTime).waves, ∀ id ∈ wave.nodeIds,
      id ∈ definition.nodes.map (·.id) := by
  obtain ⟨declared, acyclic⟩ := compileDag_ok_iff.mp accepted
  intro wave waveMember id idMember
  simp only [compileDag, declared, acyclic, List.isEmpty_nil, if_true, compiledWaves,
    List.mem_map] at waveMember
  obtain ⟨index, _, rfl⟩ := waveMember
  rw [mem_stableSort, List.mem_filter] at idMember
  exact idMember.1

/-- The scheduler of a run that has just been created. -/
def DagStart.scheduler (start : DagStart) (files : ResultFiles) : SchedulerState :=
  SchedulerState.initial start.created files []

/-- The invariant holds when a run of an accepted definition is created. -/
theorem DagStart.invariant {start : DagStart} (accepted : start.Accepted) (files : ResultFiles) :
    ∃ rank, SchedulerState.Invariant rank (start.scheduler files) := by
  obtain ⟨rank, graph⟩ := wellFormedGraph_of_accepted accepted
  have pending := compileDag_nodes_pending accepted
  have nodes := compileDag_nodes accepted
  have idle : ∀ id, ¬ Active start.created id := by
    rintro id ⟨found, isFound, isActive⟩
    obtain ⟨node, member, _, nodeState, _⟩ := exists_of_stateOf isFound
    rw [← nodeState, pending node member] at isActive
    cases isActive
  refine ⟨rank, ⟨rfl, rfl, graph, ?_⟩, ⟨?_, ?_⟩, rfl, ?_, fun _ => rfl, ?_, ?_, ?_, rfl⟩
  · intro wave waveMember id idMember
    have known := compileDag_waves_known accepted wave waveMember id idMember
    have ids : (skeleton start.created).1.map Prod.fst = start.definition.nodes.map (·.id) := by
      change (List.map _ (compileDag _ _ _).nodes).map Prod.fst = _
      rw [nodes, List.map_map, List.map_map]
      rfl
    exact ids ▸ known
  · intro node member error isError
    change node ∈ (compileDag _ _ _).nodes at member
    rw [nodes] at member
    obtain ⟨input, _, rfl⟩ := List.mem_map.mp member
    cases isError
  · intro id error isError
    cases isError
  · simp [scheduler, SchedulerState.initial]
  · intro _
    exact List.nodup_nil
  · intro _ id member
    cases member
  · intro _ id active
    exact absurd active (idle id)

end OpenAgent.Dag
