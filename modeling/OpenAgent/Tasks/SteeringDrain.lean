import OpenAgent.Tasks.TaskManager

/-!
# The steering queue after a drain

A drain hands the messages of a snapshot of the queue to the child, and takes all of the
snapshot's ids out of the queue behind it: those of the messages that the child did not take,
and those of messages that were enqueued in between under one of these ids, as well.
-/

namespace OpenAgent.Tasks

open Library

/-- While a delivery is awaited, another process may still enqueue a message. -/
inductive DrainLabel
  | enqueue (clock : Nat) (message : String) (deliverAs : SendDelivery)
  | answer (taken : Bool)
  deriving DecidableEq

/-- The manager in a drain, the messages without an answer, the awaited one first, and the
messages with theirs. -/
structure SteeringDrain where
  manager : TaskManagerState
  waiting : List PendingSteeringEntry
  answered : List (PendingSteeringEntry × Bool)

namespace SteeringDrain

/-- The start of a drain. -/
def notified (manager : TaskManagerState) : SteeringDrain :=
  ⟨manager.notifyStarted, manager.record.pendingSteering, []⟩

/-- The drain waits in the frame at `index`. -/
def step (laneKey : String → String) (index : Nat)
    (drain : SteeringDrain) : DrainLabel → Option SteeringDrain
  | .enqueue clock message deliverAs =>
    if drain.manager.frames.length ≤ index then none
    else some { drain with
      manager := TaskManagerState.enqueuePending message deliverAs
        { drain.manager with clock := clock } }
  | .answer taken =>
    match drain.waiting with
    | [] => none
    | entry :: rest =>
      (drain.manager.step laneKey
        (.resume index (if taken then .fulfilled else .rejected))).map fun manager =>
          ⟨manager, rest, drain.answered ++ [(entry, taken)]⟩

variable (drain : SteeringDrain)

/-- The messages that the child took, in the order of their deliveries. -/
def delivered : List PendingSteeringEntry :=
  (drain.answered.filter (·.2)).map (·.1)

/-- The messages of the snapshot that the child did not take. -/
def undelivered : List PendingSteeringEntry :=
  (drain.answered.filter (!·.2)).map (·.1) ++ drain.waiting

end SteeringDrain

/-- The entries that are enqueued behind a queue of `length` messages. -/
def enqueuedEntries (length : Nat) : List DrainLabel → List PendingSteeringEntry
  | [] => []
  | .enqueue clock message deliverAs :: labels =>
    ⟨s!"ps-{clock}-{length + 1}", message, deliverAs⟩ :: enqueuedEntries (length + 1) labels
  | .answer _ :: labels => enqueuedEntries length labels

namespace SteeringDrain

theorem resumeFrame_delivering (state : TaskManagerState) (taken : Bool) :
    state.resumeFrame laneKey (.delivering handle ids rest)
        (if taken then .fulfilled else .rejected) = some (state.drain handle ids rest) := by
  cases taken <;> rfl

/-- Without its frame a drain takes no step. -/
theorem step_eq_none (isOver : drain.manager.frames.length ≤ index) :
    step laneKey index drain label = none := by
  cases label with
  | enqueue clock message deliverAs => rw [step, if_pos isOver]
  | answer taken =>
    rw [step, TaskManagerState.step, List.getElem?_eq_none isOver]
    split <;> rfl

theorem execute_of_over (reached : execute (step laneKey index) drain labels = some final)
    (isOver : drain.manager.frames.length ≤ index) : labels = [] ∧ final = drain := by
  cases labels with
  | nil => exact ⟨rfl, (Option.some.inj reached).symm⟩
  | cons label labels =>
    obtain ⟨_, stepped, _⟩ := execute_cons_eq_some.mp reached
    cases (step_eq_none isOver).symm.trans stepped

/-- An answer leads to the next delivery. -/
theorem step_answer (isWaiting : drain.waiting = entry :: rest)
    (isFrame : drain.manager.frames = frames ++ [.delivering handle ids rest]) :
    step laneKey frames.length drain (.answer taken) =
      some ⟨TaskManagerState.drain handle ids rest { drain.manager with frames := frames }, rest,
        drain.answered ++ [(entry, taken)]⟩ := by
  rw [step, isWaiting]
  simp only [TaskManagerState.step, isFrame, List.getElem?_concat_length, Option.bind_some]
  rw [resumeFrame_delivering, List.eraseIdx_append_of_length_le (Nat.le_refl _)]
  simp

/-- The queue behind a drain that is over. -/
theorem drained_of_execute
    (reached : execute (step laneKey frames.length) drain labels = some final)
    (isOver : final.manager.frames.length = frames.length)
    (isWaiting : drain.waiting = entry :: rest)
    (isFrame : drain.manager.frames = frames ++ [.delivering handle ids rest]) :
    final.waiting = [] ∧
      (∃ later, final.answered = drain.answered ++ later ∧
        ((∀ answer ∈ later, answer.2 = true) ↔ .answer false ∉ labels)) ∧
      final.manager.record.pendingSteering =
        (drain.manager.record.pendingSteering ++
          enqueuedEntries drain.manager.record.pendingSteering.length labels).filter
            fun queued => !ids.contains queued.id := by
  induction labels generalizing drain entry rest with
  | nil =>
    cases reached
    simp [isFrame] at isOver
  | cons label labels ih =>
    obtain ⟨next, stepped, later⟩ := execute_cons_eq_some.mp reached
    cases label with
    | enqueue clock message deliverAs =>
      rw [step, if_neg (by simp [isFrame])] at stepped
      cases stepped
      obtain ⟨none, ⟨answers, isAnswered, allTaken⟩, queue⟩ := ih later isWaiting isFrame
      refine ⟨none, ⟨answers, isAnswered, by simpa using allTaken⟩, ?_⟩
      rw [queue]
      simp [enqueuedEntries, TaskManagerState.enqueuePending, TaskManagerState.setPendingSteering]
    | answer taken =>
      rw [step_answer isWaiting isFrame] at stepped
      cases stepped
      cases rest with
      | nil =>
        obtain ⟨rfl, rfl⟩ := execute_of_over later (Nat.le_refl _)
        simp [enqueuedEntries, TaskManagerState.drain, TaskManagerState.clearPersistedQueue,
          TaskManagerState.setPendingSteering]
      | cons following rest =>
        obtain ⟨none, ⟨answers, isAnswered, allTaken⟩, queue⟩ := ih later rfl rfl
        refine ⟨none, ⟨(entry, taken) :: answers, by simp [isAnswered], ?_⟩, queue⟩
        cases taken
        · simp
        · simpa using allTaken

/-- The messages are handed over in the order of the queue, each one once. -/
def InOrder (queue : List PendingSteeringEntry) (drain : SteeringDrain) : Prop :=
  drain.answered.map (·.1) ++ drain.waiting = queue

theorem inOrder_step (drain : SteeringDrain) (label : DrainLabel) (next : SteeringDrain)
    (inOrder : InOrder queue drain) (stepped : step laneKey index drain label = some next) :
    InOrder queue next := by
  cases label with
  | enqueue clock message deliverAs =>
    rw [step] at stepped
    split_ifs at stepped
    cases stepped
    exact inOrder
  | answer taken =>
    rw [step] at stepped
    split at stepped
    · cases stepped
    · next entry rest isWaiting =>
      obtain ⟨manager, _, rfl⟩ := Option.map_eq_some_iff.mp stepped
      simpa [InOrder, isWaiting] using inOrder

theorem InOrder.delivered_sublist (inOrder : InOrder queue drain) : drain.delivered.Sublist queue :=
  inOrder ▸ ((List.filter_sublist).map _).trans (List.sublist_append_left _ _)

/-- A drain starts where there are a live child and a message for it. -/
theorem notifyStarted_cases (manager : TaskManagerState) :
    manager.notifyStarted = manager ∨
      ∃ handle entry rest, manager.record.pendingSteering = entry :: rest ∧
        manager.notifyStarted.record = manager.record ∧
        manager.notifyStarted.frames = manager.frames ++
          [.delivering handle (manager.record.pendingSteering.map (·.id)) rest] := by
  unfold TaskManagerState.notifyStarted
  split
  · next entry rest handle isQueue _ =>
    exact .inr ⟨handle, entry, rest, isQueue, rfl, by rw [isQueue]; rfl⟩
  · exact .inl rfl

theorem filter_eq_append_iff :
    list.filter keeps = front ++ list ↔ front = [] ∧ ∀ entry ∈ list, keeps entry = true := by
  rw [← List.filter_eq_self]
  constructor
  · intro equal
    have atMost := List.length_filter_le keeps list
    have isEmpty : front = [] := by
      rw [equal, List.length_append] at atMost
      exact List.length_eq_zero_iff.mp (by omega)
    exact ⟨isEmpty, by simpa [isEmpty] using equal⟩
  · rintro ⟨rfl, all⟩
    exact all

/-- Every message is handed over at most once and in the order of the queue, and the queue
that is left is that of the messages that were not delivered if and only if the child took
all of them and no message was enqueued under the id of one that was there. -/
theorem drainsExactly_iff (manager : TaskManagerState) {labels : List DrainLabel}
    (reached : execute (step laneKey manager.frames.length) (notified manager) labels =
      some final) :
    final.delivered.Sublist manager.record.pendingSteering ∧
      (final.manager.frames.length = manager.frames.length →
        (final.manager.record.pendingSteering = final.undelivered ++
            enqueuedEntries manager.record.pendingSteering.length labels ↔
          .answer false ∉ labels ∧
            ∀ entry ∈ enqueuedEntries manager.record.pendingSteering.length labels,
              entry.id ∉ manager.record.pendingSteering.map (·.id))) := by
  refine ⟨(invariant_of_unconditional inOrder_step rfl reached).delivered_sublist, fun isOver => ?_⟩
  rcases notifyStarted_cases manager with isIdle | ⟨handle, entry, rest, isQueue, sameRecord, isFrame⟩
  · obtain ⟨rfl, rfl⟩ := execute_of_over reached (by simp [notified, isIdle])
    simp [notified, isIdle, undelivered, enqueuedEntries]
  · obtain ⟨none, ⟨answers, isAnswered, allTaken⟩, queue⟩ :=
      drained_of_execute reached isOver isQueue isFrame
    have noneLeft : final.undelivered = [] ↔ .answer false ∉ labels := by
      rw [← allTaken, undelivered, none, isAnswered]
      simp [notified]
    have drained : manager.record.pendingSteering.filter (fun queued =>
        !(manager.record.pendingSteering.map (·.id)).contains queued.id) = [] := by
      rw [List.filter_eq_nil_iff]
      intro entry member
      simpa using ⟨entry, member, rfl⟩
    have sameQueue : (notified manager).manager.record.pendingSteering =
        manager.record.pendingSteering :=
      congrArg TaskRecord.pendingSteering sameRecord
    rw [queue, sameQueue, List.filter_append, drained, List.nil_append, filter_eq_append_iff,
      noneLeft]
    simp

/-- A running task with a live child and one queued message. -/
def steered : TaskManagerState where
  record :=
    { createTaskRecord ⟨"st_00000003", .inProcess, "provider/first", none, [],
        [⟨"ps-5-1", "look at the tests", .steer⟩]⟩ 1 5 with status := .running }
  live := some ⟨0, "provider/first", true⟩
  children := []
  frames := []
  leases := [0]
  released := none
  waiters := 0
  runStats := none
  room := []
  clock := 6

/-- The message is taken, and the one that comes in meanwhile stays. -/
theorem drainsExactly_taken :
    ∃ final, execute (step id 0) (notified steered)
        [.enqueue 7 "and at the build" .followUp, .answer true] = some final ∧
      final.manager.record.pendingSteering =
        final.undelivered ++ [⟨"ps-7-2", "and at the build", .followUp⟩] := by
  obtain ⟨final, reached, isOver⟩ : ∃ final, execute (step id 0) (notified steered)
        [.enqueue 7 "and at the build" .followUp, .answer true] = some final ∧
        final.manager.frames.length = 0 := by
    decide +kernel
  exact ⟨final, reached, ((drainsExactly_iff steered reached).2 isOver).mpr (by decide +kernel)⟩

/-- The child refuses the message, which is gone then. -/
theorem not_drainsExactly_refused :
    ∃ final, execute (step id 0) (notified steered) [.answer false] = some final ∧
      final.manager.frames = [] ∧ final.delivered = [] ∧
      final.manager.record.pendingSteering ≠ final.undelivered := by
  decide +kernel

end SteeringDrain

end OpenAgent.Tasks
