import OpenAgent.Dag.Scheduler
import OpenAgent.Dag.RunEnds

/-!
# The turns of the scheduler

One specification for each turn of the scheduler on a sound journal: what it
does to the node states, to the attached tasks and to the traffic, and which
fields it leaves alone.
-/

namespace OpenAgent.Dag

open Library
open RunJournal (Sound Moves)

namespace SchedulerState

variable (env : SchedulerEnv) {rank : DagNodeId → Nat} {state middle next : SchedulerState}
variable {nodeId : DagNodeId}

/-- The fields that attaching a task leaves alone. -/
structure SameControl (state next : SchedulerState) : Prop where
  pendingAdmission : next.pendingAdmission = state.pendingAdmission
  phase : next.phase = state.phase
  cancellationStarted : next.cancellationStarted = state.cancellationStarted
  cancellation : next.cancellation = state.cancellation
  foreignSettlement : next.foreignSettlement = state.foreignSettlement
  traffic : next.traffic = state.traffic

theorem SameControl.trans (first : SameControl state middle) (second : SameControl middle next) :
    SameControl state next where
  pendingAdmission := second.pendingAdmission.trans first.pendingAdmission
  phase := second.phase.trans first.phase
  cancellationStarted := second.cancellationStarted.trans first.cancellationStarted
  cancellation := second.cancellation.trans first.cancellation
  foreignSettlement := second.foreignSettlement.trans first.foreignSettlement
  traffic := second.traffic.trans first.traffic

/-- The node stays active and nothing else moves. -/
structure StaysActive (nodeId : DagNodeId) (state next : SchedulerState) : Prop where
  moves : Moves env state.journal next.journal (stateOf next.journal.durable)
  others : ∀ id, id ≠ nodeId → stateOf next.journal.durable id = stateOf state.journal.durable id
  active : Active next.journal.durable nodeId
  control : SameControl state next
  attachedTaskIds : next.attachedTaskIds = state.attachedTaskIds
  attachedTasks : next.attachedTasks = state.attachedTasks

variable {env} in
theorem StaysActive.trans (first : StaysActive env nodeId state middle)
    (second : StaysActive env nodeId middle next) : StaysActive env nodeId state next where
  moves := first.moves.trans second.moves
  others := fun id different => (second.others id different).trans (first.others id different)
  active := second.active
  control := first.control.trans second.control
  attachedTaskIds := second.attachedTaskIds.trans first.attachedTaskIds
  attachedTasks := second.attachedTasks.trans first.attachedTasks

/-- A change of the journal that leaves the states alone. -/
theorem staysActive_of_still {journal : RunJournal}
    (moves : Moves env state.journal journal (stateOf state.journal.durable))
    (active : Active state.journal.durable nodeId) :
    StaysActive env nodeId state { state with journal := journal } where
  moves := by simpa only [moves.states_eq] using moves
  others := fun id _ => congrFun moves.states_eq id
  active := by
    unfold Active
    rw [moves.states_eq]
    exact active
  control := ⟨rfl, rfl, rfl, rfl, rfl, rfl⟩
  attachedTaskIds := rfl
  attachedTasks := rfl

/-- A move of the node to an active state. -/
theorem staysActive_of_move {journal : RunJournal}
    (moves : Moves env state.journal journal
      (moveTo target [nodeId] (stateOf state.journal.durable)))
    (activeTarget : target.isActive = true)
    (known : (stateOf state.journal.durable nodeId).isSome) :
    StaysActive env nodeId state { state with journal := journal } where
  moves := by simpa only [moves.states_eq] using moves
  others := by
    intro id different
    rw [moves.states_eq]
    simp [moveTo, different]
  active := by
    refine ⟨target, ?_, activeTarget⟩
    rw [moves.states_eq, moveTo_eq_some]
    exact Or.inl ⟨List.mem_singleton_self nodeId, known, rfl⟩
  control := ⟨rfl, rfl, rfl, rfl, rfl, rfl⟩
  attachedTaskIds := rfl
  attachedTasks := rfl

theorem isSome_of_active (active : Active record nodeId) : (stateOf record nodeId).isSome := by
  obtain ⟨found, isFound, _⟩ := active
  simp [isFound]

section

variable (sound : Sound rank state.journal) (active : Active state.journal.durable nodeId)
include sound active

theorem staysActive_watches (watches : List DagNodeId) :
    StaysActive env nodeId state { state with promotionWatches := watches } where
  moves := sound.moves_refl env
  others := fun _ _ => rfl
  active := active
  control := ⟨rfl, rfl, rfl, rfl, rfl, rfl⟩
  attachedTaskIds := rfl
  attachedTasks := rfl

/-- Folding a promotion of an active node. -/
theorem foldPromotion_staysActive (running : Bool) :
    StaysActive env nodeId state (state.foldPromotion env nodeId running) := by
  unfold foldPromotion
  have disposed := staysActive_watches env sound active
    (state.promotionWatches.filter (· != nodeId))
  split
  · exact staysActive_watches env sound active state.promotionWatches
  · obtain ⟨found, isFound, _⟩ := id active
    obtain ⟨node, _, _, nodeState, lookup⟩ := exists_of_stateOf isFound
    simp only [disposePromotionWatch, sound.synced, lookup]
    split
    · exact disposed.trans (staysActive_of_move env
        (sound.transition_moves env (isSome_of_active active) .running .started) rfl
        (isSome_of_active active))
    · exact disposed

theorem noteQueued_staysActive (task : StartedTask) :
    StaysActive env nodeId state (state.noteQueued env nodeId task) := by
  unfold noteQueued
  split
  · exact staysActive_of_move env (sound.append_moves env rfl) rfl (isSome_of_active active)
  · exact staysActive_watches env sound active state.promotionWatches

theorem foldStartStatus_staysActive (task : StartedTask) :
    StaysActive env nodeId state (state.foldStartStatus env nodeId task) := by
  have known := isSome_of_active active
  unfold foldStartStatus
  split
  · have queued := noteQueued_staysActive env sound active task
    have soundBetween := queued.moves.sound sound
    have watched := staysActive_watches env soundBetween queued.active
      (setInsert ((state.noteQueued env nodeId task).promotionWatches.filter (· != nodeId)) nodeId)
    exact queued.trans (watched.trans (foldPromotion_staysActive env
      (watched.moves.sound soundBetween) watched.active task.runningAtArm))
  · exact staysActive_of_move env (sound.transition_moves env known .running _) rfl known
  · exact staysActive_watches env sound active state.promotionWatches

end

/-- What attaching a started task does. -/
structure Attaches (nodeId : DagNodeId) (taskId : String) (state next : SchedulerState) : Prop where
  moves : Moves env state.journal next.journal (stateOf next.journal.durable)
  others : ∀ id, id ≠ nodeId → stateOf next.journal.durable id = stateOf state.journal.durable id
  active : Active next.journal.durable nodeId
  control : SameControl state next
  attachedTaskIds : next.attachedTaskIds = mapSet state.attachedTaskIds nodeId taskId
  attachedTasks : next.attachedTasks = setInsert state.attachedTasks nodeId

theorem attachStarted_attaches (sound : Sound rank state.journal)
    (active : Active state.journal.durable nodeId) (task : StartedTask) :
    Attaches env nodeId task.taskId state (state.attachStarted env nodeId task) := by
  obtain ⟨found, isFound, _⟩ := id active
  obtain ⟨node, _, _, _, lookup⟩ := exists_of_stateOf isFound
  unfold attachStarted
  rw [sound.synced, lookup]
  simp only
  have attached : StaysActive env nodeId state (state.onJournal (·.append env
      (.nodeTaskAttached nodeId task.taskId (node.attempt + 1)))) :=
    staysActive_of_still env (sound.append_moves env rfl) active
  have folded := attached.trans (foldStartStatus_staysActive env
    (attached.moves.sound sound) attached.active task)
  rw [if_neg (by simp [folded.moves.thrown])]
  exact
    { moves := folded.moves
      others := folded.others
      active := folded.active
      control :=
        ⟨folded.control.pendingAdmission, folded.control.phase,
          folded.control.cancellationStarted, folded.control.cancellation,
          folded.control.foreignSettlement, folded.control.traffic⟩
      attachedTaskIds := by
        change mapSet _ _ _ = _
        rw [folded.attachedTaskIds]
      attachedTasks := by
        change setInsert _ _ = _
        rw [folded.attachedTasks] }

end SchedulerState

section

variable (cancelling : Bool)

/-- The task an answer attaches to its node; while the run is being cancelled
only a task that was really started is attached. -/
def StartAnswer.attachedTask : StartAnswer → Option String
  | .fulfilled (.started task) => some task.taskId
  | .fulfilled (.ownerConflict taskId) => if cancelling then none else some taskId
  | _ => none

/-- The answer parks its node. -/
def StartAnswer.isDenied : StartAnswer → Bool
  | .fulfilled .residencyDenied => true
  | _ => false

/-- The nodes of a batch that get a task, with the task. -/
def attachments (entries : List (DagNodeId × StartAnswer)) : List (DagNodeId × String) :=
  entries.filterMap fun entry => (entry.2.attachedTask cancelling).map fun taskId =>
    (entry.1, taskId)

/-- The nodes of a batch that are parked. -/
def deniedNodes (entries : List (DagNodeId × StartAnswer)) : List DagNodeId :=
  if cancelling then [] else (entries.filter (·.2.isDenied)).map (·.1)

end

theorem mem_attachments :
    (nodeId, taskId) ∈ attachments cancelling entries ↔ ∃ answer, (nodeId, answer) ∈ entries ∧
        answer.attachedTask cancelling = some taskId := by
  simp only [attachments, List.mem_filterMap, Option.map_eq_some_iff, Prod.mk.injEq]
  constructor
  · rintro ⟨⟨id, answer⟩, member, task, isTask, rfl, rfl⟩
    exact ⟨answer, member, isTask⟩
  · rintro ⟨answer, member, isTask⟩
    exact ⟨(nodeId, answer), member, taskId, isTask, rfl, rfl⟩

theorem mem_deniedNodes :
    nodeId ∈ deniedNodes cancelling entries ↔
      cancelling = false ∧ ∃ answer, (nodeId, answer) ∈ entries ∧ answer.isDenied = true := by
  cases cancelling <;> simp [deniedNodes]

namespace SchedulerState

variable (env : SchedulerEnv) {rank : DagNodeId → Nat} {state next : SchedulerState}
variable {nodeId : DagNodeId}

/-- What folding one entry of the batch does. -/
inductive AnswerFolded (nodeId : DagNodeId) (answer : StartAnswer) (state : SchedulerState)
    (denied : List DagNodeId) : SchedulerState × List DagNodeId → Prop
  | attached (taskId : String) (next : SchedulerState)
      (isTask : answer.attachedTask state.cancellationStarted = some taskId)
      (attaches : Attaches env nodeId taskId state next) :
      AnswerFolded nodeId answer state denied (next, denied)
  | dropped (noTask : answer.attachedTask state.cancellationStarted = none)
      (cancelling : state.cancellationStarted = true) :
      AnswerFolded nodeId answer state denied (state, denied)
  | parked (noTask : answer.attachedTask state.cancellationStarted = none)
      (running : state.cancellationStarted = false) (isDenied : answer.isDenied = true) :
      AnswerFolded nodeId answer state denied (state, denied ++ [nodeId])
  | failed (journal : RunJournal) (noTask : answer.attachedTask state.cancellationStarted = none)
      (running : state.cancellationStarted = false) (notDenied : answer.isDenied = false)
      (moves : Moves env state.journal journal
        (moveTo .failed [nodeId] (stateOf state.journal.durable))) :
      AnswerFolded nodeId answer state denied ({ state with journal := journal }, denied)

theorem foldAnswer_cases (sound : Sound rank state.journal)
    (active : Active state.journal.durable nodeId) (answer : StartAnswer)
    (denied : List DagNodeId) :
    AnswerFolded env nodeId answer state denied
      (foldAnswer env (state, denied) (nodeId, answer)) := by
  have known := isSome_of_active active
  unfold foldAnswer
  simp only [sound.thrown]
  by_cases cancelling : state.cancellationStarted = true
  · cases answer with
    | rejected message =>
      simp only [cancelling]
      exact .dropped rfl cancelling
    | fulfilled result =>
      simp only [cancelling]
      cases result with
      | started task =>
        exact .attached task.taskId _ rfl (attachStarted_attaches env sound active task)
      | ownerConflict taskId =>
        exact .dropped (by simp [StartAnswer.attachedTask, cancelling]) cancelling
      | residencyDenied | depthDenied reason | planUnresolved message | startFailed message =>
        exact .dropped rfl cancelling
  · have running := Bool.eq_false_iff.mpr cancelling
    have fails := fun code message => sound.failNode_moves env known code message
    cases answer with
    | rejected message =>
      simp only [running]
      exact .failed _ rfl running rfl (fails _ _)
    | fulfilled result =>
      simp only [running]
      cases result with
      | started task =>
        exact .attached task.taskId _ rfl (attachStarted_attaches env sound active task)
      | ownerConflict taskId =>
        exact .attached taskId _ (by simp [StartAnswer.attachedTask, running])
          (attachStarted_attaches env sound active ⟨taskId, .running, true, none, false⟩)
      | residencyDenied => exact .parked rfl running rfl
      | depthDenied reason | planUnresolved message | startFailed message =>
        exact .failed _ rfl running rfl (fails _ _)

/-- What folding a whole batch does. -/
structure BatchFolded (entries : List (DagNodeId × StartAnswer)) (denied : List DagNodeId)
    (state : SchedulerState) (result : SchedulerState × List DagNodeId) : Prop where
  moves : Moves env state.journal result.1.journal (stateOf result.1.journal.durable)
  control : SameControl state result.1
  attachedTaskIds : result.1.attachedTaskIds =
    state.attachedTaskIds ++ attachments state.cancellationStarted entries
  attachedTasks : result.1.attachedTasks =
    state.attachedTasks ++ (attachments state.cancellationStarted entries).map (·.1)
  others : ∀ id, id ∉ entries.map (·.1) →
    stateOf result.1.journal.durable id = stateOf state.journal.durable id
  active : ∀ entry ∈ entries, (entry.2.attachedTask state.cancellationStarted).isSome →
    Active result.1.journal.durable entry.1
  failed : state.cancellationStarted = false → ∀ entry ∈ entries,
    entry.2.attachedTask state.cancellationStarted = none → entry.2.isDenied = false →
      stateOf result.1.journal.durable entry.1 = some .failed
  kept : ∀ entry ∈ entries, entry.2.attachedTask state.cancellationStarted = none →
    state.cancellationStarted = true ∨ entry.2.isDenied = true →
      stateOf result.1.journal.durable entry.1 = stateOf state.journal.durable entry.1
  denied_eq : result.2 = denied ++ deniedNodes state.cancellationStarted entries

theorem batchFolded_nil (sound : Sound rank state.journal) (denied : List DagNodeId) :
    BatchFolded env [] denied state (state, denied) where
  moves := sound.moves_refl env
  control := ⟨rfl, rfl, rfl, rfl, rfl, rfl⟩
  attachedTaskIds := by simp [attachments]
  attachedTasks := by simp [attachments]
  others := fun _ _ => rfl
  active := by simp
  failed := by simp
  kept := by simp
  denied_eq := by simp [deniedNodes]

theorem deniedNodes_cons :
    deniedNodes cancelling (entry :: entries) =
      (if cancelling = false ∧ entry.2.isDenied = true then [entry.1] else []) ++
        deniedNodes cancelling entries := by
  cases cancelling <;> cases isDenied : entry.2.isDenied <;>
    simp [deniedNodes, isDenied]

variable {entries : List (DagNodeId × StartAnswer)}

/-- An entry that attaches nothing, in front of a folded batch. -/
theorem BatchFolded.cons_plain {journal : RunJournal} (parked : List DagNodeId)
    (parkedEq : (if state.cancellationStarted = false ∧ answer.isDenied = true
      then [nodeId] else []) = parked)
    (fresh : nodeId ∉ entries.map (·.1))
    (noTask : answer.attachedTask state.cancellationStarted = none)
    (moves : Moves env state.journal journal (stateOf journal.durable))
    (others : ∀ id, id ≠ nodeId → stateOf journal.durable id = stateOf state.journal.durable id)
    (failed : state.cancellationStarted = false → answer.isDenied = false →
      stateOf journal.durable nodeId = some .failed)
    (kept : state.cancellationStarted = true ∨ answer.isDenied = true →
      stateOf journal.durable nodeId = stateOf state.journal.durable nodeId)
    (rest : BatchFolded env entries (denied ++ parked) { state with journal := journal }
      result) :
    BatchFolded env ((nodeId, answer) :: entries) denied state result where
  moves := moves.trans rest.moves
  control := ⟨rest.control.pendingAdmission, rest.control.phase,
    rest.control.cancellationStarted, rest.control.cancellation,
    rest.control.foreignSettlement, rest.control.traffic⟩
  attachedTaskIds := by simpa [attachments, noTask] using rest.attachedTaskIds
  attachedTasks := by simpa [attachments, noTask] using rest.attachedTasks
  others := by
    intro id outside
    simp only [List.map_cons, List.mem_cons, not_or] at outside
    exact (rest.others id outside.2).trans (others id outside.1)
  active := by
    intro entry member isTask
    rcases List.mem_cons.mp member with rfl | later
    · simp [noTask] at isTask
    · exact rest.active entry later isTask
  failed := by
    intro running entry member entryNoTask notDenied
    rcases List.mem_cons.mp member with rfl | later
    · exact (rest.others nodeId fresh).trans (failed running notDenied)
    · exact rest.failed running entry later entryNoTask notDenied
  kept := by
    intro entry member entryNoTask reason
    rcases List.mem_cons.mp member with rfl | later
    · exact (rest.others nodeId fresh).trans (kept reason)
    · rw [rest.kept entry later entryNoTask reason]
      apply others
      intro same
      exact fresh (same ▸ List.mem_map_of_mem later)
  denied_eq := by
    rw [rest.denied_eq, deniedNodes_cons, List.append_assoc, parkedEq]

/-- An entry that attaches a task, in front of a folded batch. -/
theorem BatchFolded.cons_attached (fresh : nodeId ∉ entries.map (·.1))
    (unattached : nodeId ∉ state.attachedTasks)
    (keys : state.attachedTaskIds.map (·.1) = state.attachedTasks)
    (isTask : answer.attachedTask state.cancellationStarted = some taskId)
    (attaches : Attaches env nodeId taskId state next)
    (rest : BatchFolded env entries denied next result) :
    BatchFolded env ((nodeId, answer) :: entries) denied state result := by
  have sameFlag := attaches.control.cancellationStarted
  have notDenied : answer.isDenied = false := by
    unfold StartAnswer.attachedTask at isTask
    split at isTask <;> first | rfl | cases isTask
  have listed : attachments state.cancellationStarted ((nodeId, answer) :: entries) =
      (nodeId, taskId) :: attachments state.cancellationStarted entries := by
    simp [attachments, isTask]
  refine
    { moves := attaches.moves.trans rest.moves
      control := attaches.control.trans rest.control
      attachedTaskIds := ?_
      attachedTasks := ?_
      others := ?_
      active := ?_
      failed := ?_
      kept := ?_
      denied_eq := ?_ }
  · have newKey : nodeId ∉ state.attachedTaskIds.map Prod.fst := by
      rw [show state.attachedTaskIds.map Prod.fst = state.attachedTasks from keys]
      exact unattached
    rw [rest.attachedTaskIds, attaches.attachedTaskIds, listed, sameFlag, mapSet,
      if_neg newKey, List.append_assoc]
    rfl
  · rw [rest.attachedTasks, attaches.attachedTasks, listed, sameFlag, setInsert,
      if_neg unattached, List.append_assoc]
    rfl
  · intro id outside
    simp only [List.map_cons, List.mem_cons, not_or] at outside
    exact (rest.others id outside.2).trans (attaches.others id outside.1)
  · intro entry member entryTask
    rcases List.mem_cons.mp member with rfl | later
    · obtain ⟨found, isFound, isActive⟩ := attaches.active
      exact ⟨found, (rest.others nodeId fresh).trans isFound, isActive⟩
    · exact rest.active entry later (sameFlag ▸ entryTask)
  · intro running entry member entryNoTask
    rcases List.mem_cons.mp member with rfl | later
    · rw [isTask] at entryNoTask
      cases entryNoTask
    · rw [← sameFlag] at running entryNoTask
      exact rest.failed running entry later entryNoTask
  · intro entry member entryNoTask reason
    rcases List.mem_cons.mp member with rfl | later
    · rw [isTask] at entryNoTask
      cases entryNoTask
    · rw [← sameFlag] at reason entryNoTask
      rw [rest.kept entry later entryNoTask reason]
      apply attaches.others
      intro same
      exact fresh (same ▸ List.mem_map_of_mem later)
  · rw [rest.denied_eq, deniedNodes_cons, sameFlag, notDenied]
    simp

/-- Folding a batch of distinct active nodes without tasks. -/
theorem foldAnswers_spec (sound : Sound rank state.journal)
    (keys : state.attachedTaskIds.map (·.1) = state.attachedTasks)
    (nodup : (entries.map (·.1)).Nodup)
    (unattached : ∀ entry ∈ entries, entry.1 ∉ state.attachedTasks)
    (active : ∀ entry ∈ entries, Active state.journal.durable entry.1) (denied : List DagNodeId) :
    BatchFolded env entries denied state (entries.foldl (foldAnswer env) (state, denied)) := by
  induction entries generalizing state denied with
  | nil => exact batchFolded_nil env sound denied
  | cons entry entries ih =>
    obtain ⟨nodeId, answer⟩ := entry
    rw [List.map_cons, List.nodup_cons] at nodup
    have headActive := active (nodeId, answer) List.mem_cons_self
    have headFree := unattached (nodeId, answer) List.mem_cons_self
    have laterFree := fun entry member =>
      unattached entry (List.mem_cons_of_mem (nodeId, answer) member)
    have laterActive := fun entry member =>
      active entry (List.mem_cons_of_mem (nodeId, answer) member)
    have different : ∀ entry ∈ entries, entry.1 ≠ nodeId := by
      intro entry member same
      exact nodup.1 (List.mem_map.mpr ⟨entry, member, same⟩)
    rw [List.foldl_cons]
    have folded := foldAnswer_cases env sound headActive answer denied
    generalize foldAnswer env (state, denied) (nodeId, answer) = progress at folded
    cases folded with
    | attached taskId next isTask attaches =>
      have stillActive : ∀ entry ∈ entries, Active next.journal.durable entry.1 := by
        intro entry member
        obtain ⟨found, isFound, isActive⟩ := laterActive entry member
        exact ⟨found, (attaches.others _ (different entry member)).trans isFound, isActive⟩
      have keysNext : next.attachedTaskIds.map (·.1) = next.attachedTasks := by
        have newKey : nodeId ∉ state.attachedTaskIds.map Prod.fst := by
          rw [show state.attachedTaskIds.map Prod.fst = state.attachedTasks from keys]
          exact headFree
        rw [attaches.attachedTaskIds, attaches.attachedTasks, mapSet, if_neg newKey,
          setInsert, if_neg headFree, List.map_append, keys]
        rfl
      have stillFree : ∀ entry ∈ entries, entry.1 ∉ next.attachedTasks := by
        intro entry member
        rw [attaches.attachedTasks, mem_setInsert]
        rintro (earlier | same)
        · exact laterFree entry member earlier
        · exact different entry member same
      exact BatchFolded.cons_attached env nodup.1 headFree keys isTask attaches
        (ih (attaches.moves.sound sound) keysNext nodup.2 stillFree stillActive denied)
    | dropped noTask cancelling =>
      have rest := ih sound keys nodup.2 laterFree laterActive denied
      exact BatchFolded.cons_plain env [] (by simp [cancelling]) nodup.1 noTask
        (sound.moves_refl env) (fun _ _ => rfl) (by simp [cancelling]) (fun _ => rfl)
        (by rwa [List.append_nil])
    | parked noTask running isDenied =>
      have rest := ih sound keys nodup.2 laterFree laterActive (denied ++ [nodeId])
      exact BatchFolded.cons_plain env [nodeId] (by simp [running, isDenied]) nodup.1
        noTask (sound.moves_refl env) (fun _ _ => rfl) (by simp [isDenied])
        (fun _ => rfl) rest
    | failed journal noTask running notDenied moves =>
      have others : ∀ id, id ≠ nodeId →
          stateOf journal.durable id = stateOf state.journal.durable id := by
        intro id outside
        rw [moves.states_eq]
        simp [moveTo, outside]
      have isFailed : stateOf journal.durable nodeId = some .failed := by
        rw [moves.states_eq, moveTo_eq_some]
        exact Or.inl ⟨List.mem_singleton_self nodeId, isSome_of_active headActive, rfl⟩
      have stillActive : ∀ entry ∈ entries, Active journal.durable entry.1 := by
        intro entry member
        obtain ⟨found, isFound, isActive⟩ := laterActive entry member
        exact ⟨found, (others _ (different entry member)).trans isFound, isActive⟩
      have rest := @ih { state with journal := journal }
        (moves.sound sound) keys nodup.2 laterFree stillActive denied
      exact BatchFolded.cons_plain env [] (by simp [notDenied]) nodup.1 noTask
        (by simpa only [moves.states_eq] using moves) others (fun _ _ => isFailed)
        (by simp [running, notDenied]) (by rwa [List.append_nil])

end SchedulerState

end OpenAgent.Dag
