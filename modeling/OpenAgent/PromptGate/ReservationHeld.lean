import OpenAgent.PromptGate.NeverStranded

/-!
# What the queue and the reservation show

Until a reservation is released, it is that of the one dispatch that is pending, and the prompt of
the one running drain is in the queue.
-/

namespace OpenAgent.PromptGate

open Library

/-- The dispatch has neither returned nor thrown. -/
def Stage.isPending : Stage → Bool
  | .returned _ | .thrown => false
  | _ => true

/-- The reservation of a dispatch up to its `finally` block. -/
def Dispatch.reservation (dispatch : Dispatch) : Reservation where
  source := dispatch.prompt.source
  dedupeKey := dispatch.prompt.dedupeKey
  token := dispatch.token
  expiresAt := none

/-- The dispatch function may still be called, or the prompt be put into the queue again. -/
def Operation.isLive (operation : Operation) : Bool :=
  operation.dispatch.stage.isPending ||
    operation.awaiter ≠ .caller && operation.dispatch.stage ≠ .thrown

namespace Gate

variable {gate next : Gate} {id : OperationId} {dispatch : Dispatch}

theorem reservation_pruneReservation (gate : Gate) :
    gate.pruneReservation.reservation =
      gate.reservation.filter fun active => active.expiresAt.all (gate.now < ·) := by
  unfold pruneReservation
  rcases isReservation : gate.reservation with _ | active
  · exact isReservation
  · rcases isTime : active.expiresAt with _ | expiresAt
    · simp [isTime, isReservation, Option.filter]
    · by_cases isPast : expiresAt ≤ gate.now
      · simp [isTime, isPast, Option.filter, setReservation, schedule, setTimer]
      · simp [isTime, isPast, isReservation, Option.filter, Nat.lt_of_not_le isPast]

/-- The reservation of a pending dispatch does not expire. -/
theorem reservation_pruneReservation_of_held (held : gate.reservation = some dispatch.reservation) :
    gate.pruneReservation.reservation = some dispatch.reservation := by
  rw [reservation_pruneReservation, held]
  rfl

/-! ## The reservation of a dispatch -/

/-- A dispatch that is still pending holds the reservation. -/
def Holds (reached : Gate × Dispatch) : Prop :=
  reached.2.stage.isPending = true → reached.1.reservation = some reached.2.reservation

section

variable (held : gate.reservation = some dispatch.reservation)
include held

theorem holds_decide (decision : Decision) : Holds (gate.decide dispatch decision) := by
  cases decision with
  | proceed | pending => exact fun _ => held
  | cancel | throws => exact nofun

theorem holds_afterStatus : Holds (gate.afterStatus dispatch decision) := by
  unfold afterStatus
  split
  · exact fun _ => held
  · exact holds_decide held decision

theorem holds_afterSettle : Holds (gate.afterSettle dispatch decision) := by
  unfold afterSettle
  split
  · exact fun _ => held
  · exact holds_afterStatus held

end

section

variable (proceeded : gate.proceed dispatch answer decision = some reached)
include proceeded

theorem pending_of_proceed : dispatch.stage.isPending = true := by
  revert proceeded
  fun_cases gate.proceed dispatch answer decision <;> intro proceeded <;> cases proceeded
  all_goals simp [Stage.isPending, *]

theorem holds_of_proceed (held : gate.reservation = some dispatch.reservation) : Holds reached := by
  revert proceeded
  fun_cases gate.proceed dispatch answer decision <;> intro proceeded <;> cases proceeded
  case case1 => exact holds_afterSettle held
  case case3 => exact holds_afterStatus held
  case case5 => exact holds_decide held decision
  case case7 => exact fun _ => held
  all_goals
    intro pending
    cases pending

end

/-- A dispatch begins: it leaves the reservation that it finds, or becomes pending with its own. -/
structure Finds (gate : Gate) (reached : Gate × Dispatch) : Prop where
  free : reached.2.stage.isPending = true →
    gate.pruneReservation.reservation = none ∧
      reached.1.reservation = some reached.2.reservation
  taken : gate.pruneReservation.reservation ≠ none →
    reached.1.reservation = gate.pruneReservation.reservation

theorem finds_dispatchAfterSessionIdle (gate : Gate) (call : CallId) (prompt : Prompt)
    (decision : Decision) : gate.Finds (gate.dispatchAfterSessionIdle call prompt decision) := by
  unfold dispatchAfterSessionIdle
  dsimp only
  split
  next => exact ⟨nofun, fun _ => rfl⟩
  next isFree =>
    split
    · exact ⟨fun _ => ⟨isFree, rfl⟩, absurd isFree⟩
    · exact ⟨fun pending => ⟨isFree, holds_afterSettle (by rfl) pending⟩, absurd isFree⟩

/-! ## The pending operation -/

/-- The reservation is that of the one operation that is pending. -/
structure Reserved (reservation : Option Reservation)
    (operations : OperationId → Option Operation) : Prop where
  held : ∀ id operation, operations id = some operation →
    operation.dispatch.stage.isPending = true → reservation = some operation.dispatch.reservation
  single : ∀ id other operation found, operations id = some operation →
    operations other = some found → operation.dispatch.stage.isPending = true →
      found.dispatch.stage.isPending = true → id = other

section

variable {reservation reached : Option Reservation} {operations : OperationId → Option Operation}

/-- An operation that changes with the reservation. -/
theorem Reserved.update (reserved : Reserved reservation operations)
    (stays : ∀ other found, other ≠ id → operations other = some found →
      found.dispatch.stage.isPending = true → reached = reservation)
    (begins : ∀ operation, changed = some operation →
      operation.dispatch.stage.isPending = true →
        reached = some operation.dispatch.reservation ∧
          ∀ other found, operations other = some found →
            found.dispatch.stage.isPending = true → other = id) :
    Reserved reached (Function.update operations id changed) where
  held := by
    intro other found isFound pending
    by_cases same : other = id
    · subst same
      rw [Function.update_self] at isFound
      exact (begins found isFound pending).1
    · rw [Function.update_of_ne same] at isFound
      exact (stays other found same isFound pending).trans
        (reserved.held other found isFound pending)
  single := by
    intro other another found foundAnother isFound isAnother pending pendingAnother
    rcases update_eq_some isFound with ⟨rfl, isNew⟩ | before
    · rcases update_eq_some isAnother with ⟨rfl, _⟩ | beforeAnother
      · rfl
      · exact ((begins found isNew pending).2 another foundAnother beforeAnother
          pendingAnother).symm
    · rcases update_eq_some isAnother with ⟨rfl, isNew⟩ | beforeAnother
      · exact (begins foundAnother isNew pendingAnother).2 other found before pending
      · exact reserved.single other another found foundAnother before beforeAnother pending
          pendingAnother

theorem Reserved.endOperation (reserved : Reserved reservation operations) (id : OperationId) :
    Reserved reservation (Function.update operations id none) := by
  refine reserved.update (fun _ _ _ _ _ => rfl) ?_
  intro operation isNone
  cases isNone

theorem Reserved.prune (reserved : Reserved gate.reservation operations) :
    Reserved gate.pruneReservation.reservation operations where
  held := fun other found isFound pending =>
    reservation_pruneReservation_of_held (reserved.held other found isFound pending)
  single := reserved.single

/-- A dispatch that begins under an identifier whose operation is not pending. -/
theorem Reserved.begins {reached : Gate × Dispatch} (reserved : Reserved gate.reservation operations)
    (finds : gate.Finds reached) (awaiter : Awaiter) :
    Reserved reached.1.reservation
      (Function.update operations id (some { awaiter, dispatch := reached.2 })) := by
  refine reserved.prune.update ?_ ?_
  · intro other found _ isFound pending
    refine finds.taken ?_
    rw [reserved.prune.held other found isFound pending]
    exact Option.some_ne_none _
  · intro operation isNew pending
    cases isNew
    obtain ⟨isFree, isReserved⟩ := finds.free pending
    refine ⟨isReserved, fun other found isFound otherPending => ?_⟩
    cases isFree.symm.trans (reserved.prune.held other found isFound otherPending)

end

/-! ## The running drain -/

/-- A running drain has this entry in hand. -/
def HasInHand (gate : Gate) (id : OperationId) (entry : Entry) : Prop :=
  ∃ operation drain, gate.operations id = some operation ∧ operation.awaiter = .drain drain ∧
    entry = { id := operation.dispatch.call, prompt := operation.dispatch.prompt }

/-- What the gate keeps of its operations while nothing is released. -/
structure Tracked (gate : Gate) : Prop where
  reserved : Reserved gate.reservation gate.operations
  flagged : ∀ id entry, gate.HasInHand id entry → gate.draining = true
  queued : ∀ id entry, gate.HasInHand id entry → entry ∈ gate.queue
  alone : ∀ id entry other found, gate.HasInHand id entry → gate.HasInHand other found →
    id = other

theorem HasInHand.of_update (inHand : next.HasInHand other entry)
    (operations : next.operations = Function.update gate.operations id changed) :
    gate.HasInHand other entry ∨ other = id ∧ ∃ operation drain, changed = some operation ∧
      operation.awaiter = .drain drain ∧
        entry = { id := operation.dispatch.call, prompt := operation.dispatch.prompt } := by
  obtain ⟨operation, drain, isThere, isDrain, isEntry⟩ := inHand
  rcases update_eq_some (operations ▸ isThere) with ⟨isId, isNew⟩ | before
  · exact .inr ⟨isId, operation, drain, isNew, isDrain, isEntry⟩
  · exact .inl ⟨operation, drain, before, isDrain, isEntry⟩

section

variable (tracked : gate.Tracked)
include tracked

theorem Tracked.mono (reserved : Reserved next.reservation next.operations)
    (draining : next.draining = gate.draining) (queue : ∀ entry ∈ gate.queue, entry ∈ next.queue)
    (inHand : ∀ id entry, next.HasInHand id entry → gate.HasInHand id entry) : next.Tracked where
  reserved := reserved
  flagged := fun id entry isDrain => draining ▸ tracked.flagged id entry (inHand id entry isDrain)
  queued := fun id entry isDrain => queue entry (tracked.queued id entry (inHand id entry isDrain))
  alone := fun id entry other found isDrain isOther =>
    tracked.alone id entry other found (inHand id entry isDrain) (inHand other found isOther)

/-- No operation changes. -/
theorem Tracked.same (reservation : next.reservation = gate.reservation)
    (operations : next.operations = gate.operations) (draining : next.draining = gate.draining)
    (queue : ∀ entry ∈ gate.queue, entry ∈ next.queue) : next.Tracked := by
  refine tracked.mono (reservation ▸ operations ▸ tracked.reserved) draining queue ?_
  rintro id entry ⟨operation, drain, isThere, inHand⟩
  exact ⟨operation, drain, operations ▸ isThere, inHand⟩

theorem Tracked.prune : gate.pruneReservation.Tracked := by
  have quiet := quiet_pruneReservation gate
  have pruned : { gate with reservation := gate.pruneReservation.reservation }.Tracked :=
    tracked.mono tracked.reserved.prune rfl (fun _ member => member) fun _ _ inHand => inHand
  exact pruned.same rfl quiet.operations quiet.draining fun _ member => quiet.queue ▸ member

/-- A call whose own dispatch has returned goes on. -/
theorem Tracked.endOperation (id : OperationId) : (gate.setOperation id none).Tracked := by
  refine tracked.mono (tracked.reserved.endOperation id) rfl (fun _ member => member) ?_
  intro other entry inHand
  have operations : (gate.setOperation id none).operations = Function.update gate.operations id none :=
    rfl
  rcases inHand.of_update operations with before | ⟨-, _, _, isNone, -⟩
  · exact before
  · cases isNone

theorem Tracked.dispatchDirectly (call : CallId) (prompt : Prompt) (decision : Decision) :
    (gate.dispatchDirectly call prompt decision).Tracked := by
  have numbered : (gate.setNextOperation (gate.nextOperation + 1)).Tracked :=
    tracked.same rfl rfl rfl fun _ member => member
  have begins := begins_dispatchAfterSessionIdle (gate.setNextOperation (gate.nextOperation + 1))
    call prompt decision
  have finds := finds_dispatchAfterSessionIdle (gate.setNextOperation (gate.nextOperation + 1))
    call prompt decision
  unfold Gate.dispatchDirectly
  generalize (gate.setNextOperation (gate.nextOperation + 1)).dispatchAfterSessionIdle call prompt
    decision = reached at begins finds
  have operations : (reached.1.setOperation gate.nextOperation (some
      { awaiter := .caller, dispatch := reached.2 })).operations =
        Function.update gate.operations gate.nextOperation _ :=
    congrArg (Function.update · gate.nextOperation _) begins.operations
  refine numbered.mono ?_ begins.draining (fun _ member => begins.queue ▸ member) ?_
  · rw [operations]
    exact numbered.reserved.begins finds .caller
  intro other entry inHand
  refine (inHand.of_update operations).resolve_right ?_
  rintro ⟨-, operation, drain, isNew, isDrain, -⟩
  cases isNew
  cases isDrain

end

/-- The gate in the hands of its running drain. -/
structure Beside (id : OperationId) (gate : Gate) : Prop where
  reserved : Reserved gate.reservation (Function.update gate.operations id none)
  alone : ∀ other entry, gate.HasInHand other entry → other = id

section

variable {before : Gate}

theorem Beside.same (beside : Beside id before) (reservation : gate.reservation = before.reservation)
    (operations : gate.operations = before.operations) : Beside id gate where
  reserved := reservation ▸ operations ▸ beside.reserved
  alone := by
    rintro other entry ⟨operation, drain, isThere, inHand⟩
    exact beside.alone other entry ⟨operation, drain, operations ▸ isThere, inHand⟩

theorem Beside.endDrain (beside : Beside id gate) (drain : Drain) :
    (gate.endDrain id drain).Tracked := by
  have noDrain : ∀ other entry, ¬ ((gate.setDraining false).setOperation id none).HasInHand
      other entry := by
    intro other entry inHand
    rcases inHand.of_update (show _ = Function.update gate.operations id none from rfl) with
      before | ⟨-, _, _, isNone, -⟩
    · obtain rfl := beside.alone other entry before
      obtain ⟨operation, drain, isThere, -⟩ := inHand
      change Function.update gate.operations other none other = some operation at isThere
      rw [Function.update_self] at isThere
      cases isThere
    · cases isNone
  have ended : ((gate.setDraining false).setOperation id none).Tracked :=
    { reserved := beside.reserved
      flagged := fun other entry inHand => absurd inHand (noDrain other entry)
      queued := fun other entry inHand => absurd inHand (noDrain other entry)
      alone := fun other entry _ _ inHand => absurd inHand (noDrain other entry) }
  unfold Gate.endDrain
  split
  · exact ended
  · exact ended.same rfl rfl rfl fun _ member => member

theorem Beside.drainLoop (beside : Beside id gate) (isDraining : gate.draining = true)
    (looped : gate.drainLoop turns id drain decision = some next) : next.Tracked := by
  obtain ⟨queue, -, loops⟩ := loops_of_drainLoop looped
  cases loops with
  | ends drain before still reservation _ isNext =>
    exact isNext ▸ (beside.same (reservation.trans rfl) still.operations).endDrain drain
  | awaits drain entry result member decision isResult begins isNext =>
    subst isNext
    have finds := isResult ▸ finds_dispatchAfterSessionIdle
      ((gate.setQueue queue).setInFlight (some entry)) entry.id entry.prompt decision
    have operations : (result.1.setOperation id (some
        { awaiter := .drain drain, dispatch := result.2 })).operations =
          Function.update gate.operations id _ :=
      congrArg (Function.update · id _) begins.operations
    have isEntry : ∀ other found, (result.1.setOperation id (some
        { awaiter := .drain drain, dispatch := result.2 })).HasInHand other found →
          other = id ∧ found = entry := by
      intro other found inHand
      have isId : other = id :=
        (inHand.of_update operations).elim (beside.alone other found) And.left
      subst isId
      obtain ⟨operation, otherDrain, isThere, -, isFound⟩ := inHand
      cases (Function.update_self other _ result.1.operations).symm.trans isThere
      rw [isFound, begins.isCall, begins.isPrompt]
      exact ⟨rfl, rfl⟩
    refine ⟨?_, fun _ _ _ => begins.draining.trans isDraining, ?_, ?_⟩
    · rw [operations, ← Function.update_idem (a := id) (v := none)]
      have reserved : Reserved ((gate.setQueue queue).setInFlight (some entry)).reservation _ :=
        beside.reserved
      exact reserved.begins finds (.drain drain)
    · intro other found inHand
      rw [(isEntry other found inHand).2]
      exact begins.queue ▸ member
    · intro other entry another found inHand isOther
      exact (isEntry other entry inHand).1.trans (isEntry another found isOther).1.symm

end

/-- A drain begins, unless one is running. -/
theorem Tracked.drainPromptQueue (tracked : gate.Tracked)
    (drained : gate.drainPromptQueue awaited decision = some next) : next.Tracked := by
  unfold Gate.drainPromptQueue at drained
  split at drained
  next =>
    split at drained
    next => exact Option.some.inj drained ▸ tracked
    next => exact Option.some.inj drained ▸ tracked.same rfl rfl rfl fun _ member => member
  next notDraining =>
    have beside : Beside gate.nextOperation gate.beginDrain :=
      { reserved := tracked.reserved.endOperation gate.nextOperation
        alone := fun other entry inHand => absurd (tracked.flagged other entry inHand) notDraining }
    exact beside.drainLoop rfl drained

theorem Tracked.continueDrain (tracked : gate.Tracked) (inHand : gate.HasInHand id entry)
    (continued : gate.continueDrain id drain entry result decision = some next) :
    next.Tracked := by
  have isDraining := tracked.flagged id entry inHand
  have beside : Beside id (gate.land entry.id) := by
    have here : Beside id gate :=
      { reserved := tracked.reserved.endOperation id
        alone := fun other found isOther => tracked.alone other found id entry isOther inHand }
    refine here.same ?_ (sameOperations_land gate entry.id).operations
    unfold land
    split <;> rfl
  have isLanded : (gate.land entry.id).draining = true := by
    unfold land
    split <;> exact isDraining
  cases continues_of_continueDrain continued with
  | rotates drain state _ _ _ ran =>
    refine Beside.drainLoop ?_ ?_ ran
    · exact beside.same rfl rfl
    · exact isLanded
  | stays drain before _ still reservation _ isNext
  | ends drain before _ _ _ still reservation _ isNext =>
    exact isNext ▸ (beside.same reservation still.operations).endDrain drain
  | drops drain _ _ _ ran =>
    refine Beside.drainLoop ?_ ?_ ran
    · exact beside.same rfl rfl
    · exact isLanded

theorem Tracked.enqueue (tracked : gate.Tracked)
    (enqueued : gate.enqueueInternalPrompt entry decision = some next) : next.Tracked := by
  have pushed : (gate.push entry).Tracked :=
    tracked.prune.same rfl rfl rfl fun _ => List.mem_append_left _
  cases enqueues_of_enqueue enqueued with
  | coalesced result isNext => exact isNext ▸ tracked.prune.same rfl rfl rfl fun _ member => member
  | waits _ result isNext => exact isNext ▸ pushed.same rfl rfl rfl fun _ member => member
  | drains _ _ drained => exact pushed.drainPromptQueue drained

theorem Proceeds.entry (proceeds : gate.Proceeds dispatch answer result) :
    result.2.call = dispatch.call ∧ result.2.prompt = dispatch.prompt := by
  cases proceeds with
  | begins begins => exact ⟨begins.isCall, begins.isPrompt⟩
  | attempted _ _ isResult | threw _ isResult => exact isResult ▸ ⟨rfl, rfl⟩

/-- The pending dispatch goes on, and is the only one that is pending. -/
theorem Tracked.settle (tracked : gate.Tracked)
    (stepped : gate.step (.settle id answer decision) = some next) : next.Tracked := by
  obtain ⟨operation, isThere, moved⟩ := Option.bind_eq_some_iff.mp stepped
  obtain ⟨result, proceeded, rfl⟩ := Option.map_eq_some_iff.mp moved
  have proceeds := proceeds_of_proceed proceeded
  have quiet := proceeds.quiet
  have pending := pending_of_proceed proceeded
  have holds := holds_of_proceed proceeded (tracked.reserved.held id operation isThere pending)
  have operations : (result.1.setOperation id (some
      { operation with dispatch := result.2 })).operations = Function.update gate.operations id _ :=
    congrArg (Function.update · id _) quiet.operations
  refine tracked.mono ?_ quiet.draining (fun _ member => quiet.queue ▸ member) ?_
  · rw [operations]
    have single : ∀ other found, gate.operations other = some found →
        found.dispatch.stage.isPending = true → other = id := fun other found isFound isPending =>
      tracked.reserved.single other id found operation isFound isThere isPending pending
    refine tracked.reserved.update ?_ ?_
    · exact fun other found differs isFound isPending =>
        absurd (single other found isFound isPending) differs
    · intro changed isNew isPending
      cases isNew
      exact ⟨holds isPending, single⟩
  · intro other entry inHand
    rcases inHand.of_update operations with before | ⟨rfl, changed, drain, isNew, isDrain, isEntry⟩
    · exact before
    · cases isNew
      rw [isEntry, proceeds.entry.1, proceeds.entry.2]
      exact ⟨operation, drain, isThere, isDrain, rfl⟩

theorem Tracked.continue (tracked : gate.Tracked)
    (stepped : gate.step (.continue id decision) = some next) : next.Tracked := by
  obtain ⟨operation, isThere, continued⟩ := Option.bind_eq_some_iff.mp stepped
  unfold continueOperation at continued
  dsimp only at continued
  split at continued
  next drain _ isDrain =>
    exact tracked.continueDrain ⟨operation, drain, isThere, isDrain, rfl⟩ continued
  next =>
    cases continued
    exact (tracked.endOperation id).same rfl rfl rfl fun _ member => member
  next drain _ isDrain =>
    cases continued
    have beside : Beside id gate :=
      { reserved := tracked.reserved.endOperation id
        alone := fun other found isOther =>
          tracked.alone other found id _ isOther ⟨operation, drain, isThere, isDrain, rfl⟩ }
    exact beside.endDrain { awaited := none, awaitedResult := none, deferredRetryIds := [] }
  next =>
    cases continued
    exact tracked.endOperation id
  next => cases continued

theorem Tracked.call (tracked : gate.Tracked)
    (called : gate.dispatchInternalPrompt args decision = some next) : next.Tracked := by
  have entered : ({ gate with nextCall := gate.nextCall + 1 }.note
      (.entered gate.nextCall)).Tracked :=
    tracked.same rfl rfl rfl fun _ member => member
  revert called
  fun_cases gate.dispatchInternalPrompt args decision <;> intro called
  case case7 => exact entered.enqueue called
  all_goals cases called
  case case1 | case6 => exact entered.same rfl rfl rfl fun _ member => member
  case case2 | case3 | case4 => exact entered.prune.same rfl rfl rfl fun _ member => member
  case case5 => exact entered.prune.dispatchDirectly _ _ decision
  case case8 => exact entered.dispatchDirectly _ _ decision

theorem releases_or_same (gate : Gate) (request : ReleaseRequest) :
    .released ∈ (gate.releaseReservation request).log ∨ gate = gate.releaseReservation request := by
  unfold releaseReservation
  split
  · exact .inr rfl
  · split
    · exact .inl (List.mem_append_right _ List.mem_cons_self)
    · exact .inr rfl

/-- A step that releases nothing. -/
theorem Tracked.step (tracked : gate.Tracked) (stepped : gate.step label = some next)
    (notReleased : .released ∉ next.log) : next.Tracked := by
  cases label with
  | call args decision => exact tracked.call stepped
  | fire decision =>
    simp only [Gate.step] at stepped
    split at stepped
    · have fired : (gate.setTimer none).Tracked := tracked.same rfl rfl rfl fun _ member => member
      exact fired.drainPromptQueue stepped
    · cases stepped
  | settle id answer decision => exact tracked.settle stepped
  | «continue» id decision => exact tracked.continue stepped
  | release request =>
    cases stepped
    exact (releases_or_same gate request).resolve_left notReleased ▸ tracked
  | prune =>
    cases stepped
    exact tracked.prune
  | tick elapsed =>
    cases stepped
    exact tracked.same rfl rfl rfl fun _ member => member

/-- The gate shows the key of every operation that is live. -/
theorem Tracked.shows (tracked : gate.Tracked) (isThere : gate.operations id = some operation)
    (isLive : operation.isLive = true) : gate.Shows operation.dispatch.prompt.dedupeKey := by
  rcases Bool.or_eq_true_iff.mp isLive with pending | returned
  · have held := tracked.reserved.held id operation isThere pending
    exact .inr ⟨_, reservation_pruneReservation_of_held held, rfl⟩
  · cases isAwaiter : operation.awaiter with
    | drain drain =>
      exact .inl ⟨_, tracked.queued id _ ⟨operation, drain, isThere, isAwaiter, rfl⟩, rfl⟩
    | caller =>
      rw [isAwaiter] at returned
      cases returned

theorem tracked_start : start.Tracked := by
  have noDrain : ∀ id entry, ¬ start.HasInHand id entry := by
    rintro id entry ⟨operation, drain, isThere, -⟩
    cases isThere
  refine ⟨⟨?_, ?_⟩, fun id entry inHand => absurd inHand (noDrain id entry),
    fun id entry inHand => absurd inHand (noDrain id entry),
    fun id entry _ _ inHand => absurd inHand (noDrain id entry)⟩
  · intro id operation isThere
    cases isThere
  · intro id other operation found isThere
    cases isThere

end Gate

end OpenAgent.PromptGate
