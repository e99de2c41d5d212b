import OpenAgent.Library.Collections
import OpenAgent.PromptGate.NeverStranded

/-!
# When the queue of prompts loses nothing

A drain takes its own entry out of the queue, and a release takes out the entry in flight.  A
durable entry whose dispatch has failed is put at the end of the queue in exchange for the head:
this is the entry itself, unless a release has taken it out in the meantime.
-/

namespace OpenAgent.PromptGate

open Library

namespace Gate

section

variable (gate : Gate)

/-- An entry with this identifier is in the queue. -/
def Queued (call : CallId) : Prop :=
  ∃ entry ∈ gate.queue, entry.id = call

/-- A result with which the dispatch of an entry ends its stay in the queue: it was dispatched,
cancelled, has failed for good, or, for an entry that is not durable, has failed for the third
time. -/
def EndsStay (dispatch : Dispatch) : DispatchResult → Prop
  | .dispatched | .cancelled => True
  | .failed dispatchAttempted queueRetryable =>
    (DispatchResult.failed dispatchAttempted queueRetryable).isRetryable = false ∨
      dispatch.prompt.durableRetry = false ∧ 3 ≤ gate.failureCount dispatch.call + 1
  | _ => False

/-- Why an entry leaves the queue: a dispatch of this entry has ended its stay, or a release has
named its dedupe key while it was in flight. -/
def Handled (call : CallId) : Label → Prop
  | .continue id _ => ∃ operation drain result, gate.operations id = some operation ∧
      operation.awaiter = .drain drain ∧ operation.dispatch.stage = .returned result ∧
      operation.dispatch.call = call ∧ gate.EndsStay operation.dispatch result
  | .release request => ∃ entry reservation, gate.inFlight = some entry ∧ entry.id = call ∧
      gate.reservation = some reservation ∧ sourceMatches reservation.source request ∧
      reservation.dedupeKey = entry.prompt.dedupeKey
  | _ => False

/-- An entry that leaves the queue was handled. -/
def LeavesHandled (label : Label) (next : Gate) : Prop :=
  ∀ call, gate.Queued call → ¬ next.Queued call → gate.Handled call label

/-- A drain goes on with the retryable failure of a durable entry while several are queued. -/
def Rotates (dispatch : Dispatch) : Label → Prop
  | .continue id _ => ∃ operation drain result, gate.operations id = some operation ∧
      operation.awaiter = .drain drain ∧ operation.dispatch = dispatch ∧
      dispatch.stage = .returned result ∧ result.isRetryable = true ∧
      dispatch.prompt.durableRetry = true ∧ 1 < gate.queue.length
  | _ => False

/-- A durable entry that is put at the end of a queue of several is the head of this queue. -/
def RotatesItself (label : Label) (_ : Gate) : Prop :=
  ∀ dispatch, gate.Rotates dispatch label →
    (gate.queue.head?).map (·.id) = some dispatch.call

end

variable {gate : Gate} {id : OperationId}

def ids (gate : Gate) : List CallId :=
  gate.queue.map (·.id)

theorem queued_iff : gate.Queued call ↔ call ∈ gate.ids :=
  List.mem_map.symm

/-- What a part of a step makes of the gate: the identifiers of its queue, in some order, and
regular stages. -/
structure Gives (gate next : Gate) (ids : List CallId) : Prop where
  ids : next.ids.Perm ids
  nextCall : next.nextCall = gate.nextCall
  stages : ∀ other operation, next.operations other = some operation →
    gate.operations other = some operation ∨ operation.dispatch.stage = .thrown ∨
      operation.dispatch.stage.IsRegular

variable {ids : List CallId}

theorem gives_of_operations (sameIds : next.ids.Perm ids) (nextCall : next.nextCall = gate.nextCall)
    (operations : next.operations = gate.operations) : gate.Gives next ids :=
  ⟨sameIds, nextCall, fun _ _ isThere => .inl (operations ▸ isThere)⟩

theorem Gives.trans (gives : gate.Gives middle ids) (later : middle.Gives next middle.ids) :
    gate.Gives next ids where
  ids := later.ids.trans gives.ids
  nextCall := later.nextCall.trans gives.nextCall
  stages := fun other operation isThere =>
    (later.stages other operation isThere).elim (gives.stages other operation) .inr

theorem Quiet.gives (quiet : gate.Quiet next) : gate.Gives next gate.ids :=
  gives_of_operations (List.Perm.map _ (List.Perm.of_eq quiet.queue)) quiet.nextCall
    quiet.operations

theorem gives_setOperation
    (regular : ∀ found, operation = some found →
      found.dispatch.stage = .thrown ∨ found.dispatch.stage.IsRegular) :
    gate.Gives (gate.setOperation id operation) gate.ids where
  ids := .refl _
  nextCall := rfl
  stages := by
    intro other found isFound
    rcases update_eq_some isFound with ⟨-, isNew⟩ | before
    · exact .inr (regular found isNew)
    · exact .inl before

theorem gives_endOperation (gate : Gate) (id : OperationId) :
    gate.Gives (gate.setOperation id none) gate.ids := by
  refine gives_setOperation ?_
  intro found isFound
  cases isFound

theorem gives_endDrain (gate : Gate) : gate.Gives (gate.endDrain id drain) gate.ids := by
  have flagged : gate.Gives (gate.setDraining false) gate.ids :=
    gives_of_operations (.refl _) rfl rfl
  have ended : gate.Gives ((gate.setDraining false).setOperation id none) gate.ids :=
    flagged.trans (gives_endOperation _ id)
  unfold endDrain
  split
  · exact ended
  · exact ended.trans (quiet_reply _ _ _).gives

/-- The loop keeps every entry. -/
theorem gives_drainLoop (looped : gate.drainLoop turns id drain decision = some next) :
    gate.Gives next gate.ids := by
  obtain ⟨queue, perm, loops⟩ := loops_of_drainLoop looped
  have rotated : gate.Gives (gate.setQueue queue) gate.ids :=
    gives_of_operations (perm.map _) rfl rfl
  cases loops with
  | ends drain before still _ _ isNext =>
    exact isNext ▸ (rotated.trans still.toQuiet.gives).trans (gives_endDrain before)
  | awaits drain entry result _ _ _ begins isNext =>
    subst isNext
    have inFlight : gate.Gives ((gate.setQueue queue).setInFlight (some entry)) gate.ids :=
      gives_of_operations (perm.map _) rfl rfl
    refine (inFlight.trans begins.toQuiet.gives).trans (gives_setOperation ?_)
    intro found isFound
    cases isFound
    exact .inr begins.regular

section

variable (gate : Gate)

theorem gives_removeEntry (call : CallId) :
    gate.Gives (gate.removeEntry call) (gate.ids.filter fun queued => queued ≠ call) := by
  refine gives_of_operations (List.Perm.of_eq ?_) rfl rfl
  change (gate.queue.filter fun queued => queued.id ≠ call).map (·.id) = _
  rw [ids, List.filter_map]
  rfl

theorem gives_land (call : CallId) : gate.Gives (gate.land call) gate.ids := by
  unfold land
  split <;> exact gives_of_operations (.refl _) rfl rfl

theorem queue_land (call : CallId) : (gate.land call).queue = gate.queue := by
  unfold land
  split <;> rfl

theorem failureCount_land : (gate.land landed).failureCount call = gate.failureCount call := by
  unfold land
  split <;> rfl

end

theorem gives_drainPromptQueue (drained : gate.drainPromptQueue awaited decision = some next) :
    gate.Gives next gate.ids := by
  unfold drainPromptQueue at drained
  split at drained
  · split at drained <;> (cases drained; exact gives_of_operations (.refl _) rfl rfl)
  · have began : gate.Gives gate.beginDrain gate.ids := gives_of_operations (.refl _) rfl rfl
    exact began.trans (gives_drainLoop drained)

/-- The head of several entries is exchanged for the durable entry that has failed, the entries
stay, or the one whose dispatch ends its stay is taken out. -/
theorem gives_continueDrain (isReturned : dispatch.stage = .returned result)
    (regular : dispatch.stage.IsRegular)
    (continued : gate.continueDrain id drain { id := dispatch.call, prompt := dispatch.prompt }
      result decision = some next) :
    if result.isRetryable = true ∧ dispatch.prompt.durableRetry = true ∧ 1 < gate.queue.length then
      gate.Gives next (gate.ids.tail ++ [dispatch.call])
    else gate.Gives next gate.ids ∨ gate.EndsStay dispatch result ∧
      gate.Gives next (gate.ids.filter fun queued => queued ≠ dispatch.call) := by
  have landed := gives_land gate dispatch.call
  have removed : gate.Gives ((gate.land dispatch.call).removeEntry dispatch.call)
      (gate.ids.filter fun queued => queued ≠ dispatch.call) := by
    have gives := gives_removeEntry (gate.land dispatch.call) dispatch.call
    refine gives_of_operations ?_ landed.nextCall
      (sameOperations_land gate dispatch.call).operations
    exact gives.ids.trans (landed.ids.filter _)
  cases continues_of_continueDrain continued with
  | rotates drain state isRetryable isDurable several ran =>
    rw [queue_land] at several ran
    rw [if_pos ⟨isRetryable, isDurable, several⟩]
    refine Gives.trans ?_ (gives_drainLoop ran)
    refine gives_of_operations (List.Perm.of_eq ?_) landed.nextCall
      (sameOperations_land gate dispatch.call).operations
    change List.map (fun queued : Entry => queued.id) (gate.queue.tail ++ [_]) = _
    rw [List.map_append, List.map_tail]
    rfl
  | stays drain before noRotation still _ _ isNext =>
    rw [queue_land] at noRotation
    rw [if_neg noRotation]
    exact .inl (isNext ▸ (landed.trans still.toQuiet.gives).trans (gives_endDrain before))
  | drops drain isRetryable notDurable thrice ran =>
    rw [if_neg fun rotates => Bool.eq_false_iff.mp notDurable rotates.2.1]
    rw [failureCount_land] at thrice
    refine .inr ⟨?_, removed.trans (gives_drainLoop ran)⟩
    cases result with
    | failed dispatchAttempted queueRetryable => exact .inr ⟨notDurable, thrice⟩
    | _ => cases isRetryable
  | ends drain before notRetryable notActive notReserved still _ _ isNext =>
    rw [if_neg fun rotates => Bool.eq_false_iff.mp notRetryable rotates.1]
    have endsStay : gate.EndsStay dispatch result := by
      rw [isReturned] at regular
      cases result with
      | active => exact absurd rfl notActive
      | reserved reservedBy => exact absurd rfl (notReserved reservedBy)
      | queued queuedBy position | unavailable => exact regular.elim
      | failed dispatchAttempted queueRetryable => exact .inl notRetryable
      | dispatched | cancelled => trivial
    exact .inr ⟨endsStay,
      isNext ▸ (removed.trans still.toQuiet.gives).trans (gives_endDrain before)⟩

/-- What a step makes of the identifiers in the queue: they stay, in some order, a new one is put
behind them, one that is handled is taken out, or the head is exchanged. -/
inductive Moves (gate : Gate) (label : Label) (next : Gate) : Prop
  | kept (same : next.ids.Perm gate.ids)
  | pushed (ids : next.ids.Perm (gate.ids ++ [gate.nextCall]))
      (counted : gate.nextCall < next.nextCall)
  | removed (call : CallId)
      (handled : gate.Handled call label)
      (ids : next.ids.Perm (gate.ids.filter fun queued => queued ≠ call))
  | rotated (dispatch : Dispatch) (rotates : gate.Rotates dispatch label)
      (ids : next.ids.Perm (gate.ids.tail ++ [dispatch.call]))

/-- The stages of all dispatches are regular, or a callback has thrown. -/
def Regular (gate : Gate) : Prop :=
  ∀ id operation, gate.operations id = some operation →
    operation.dispatch.stage = .thrown ∨ operation.dispatch.stage.IsRegular

/-- A step as it moves the queue. -/
structure Steps (gate : Gate) (label : Label) (next : Gate) : Prop where
  moves : gate.Moves label next
  grows : gate.nextCall ≤ next.nextCall
  regular : gate.Regular → next.Regular

theorem Gives.regular (gives : gate.Gives next ids) (regular : gate.Regular) : next.Regular := by
  intro id operation isThere
  rcases gives.stages id operation isThere with before | reached
  · exact regular id operation before
  · exact reached

theorem Gives.steps (gives : gate.Gives next ids)
    (moves : next.ids.Perm ids → gate.Moves label next) : gate.Steps label next :=
  ⟨moves gives.ids, Nat.le_of_eq gives.nextCall.symm, gives.regular⟩

theorem steps_of_same (queue : next.queue = gate.queue) (nextCall : next.nextCall = gate.nextCall)
    (operations : next.operations = gate.operations) : gate.Steps label next :=
  (gives_of_operations (List.Perm.map _ (List.Perm.of_eq queue)) nextCall operations).steps .kept

theorem gives_dispatchDirectly (gate : Gate) :
    gate.Gives (gate.dispatchDirectly call prompt decision) gate.ids := by
  have numbered : gate.Gives (gate.setNextOperation (gate.nextOperation + 1)) gate.ids :=
    gives_of_operations (.refl _) rfl rfl
  have begins := begins_dispatchAfterSessionIdle (gate.setNextOperation (gate.nextOperation + 1))
    call prompt decision
  refine (numbered.trans begins.toQuiet.gives).trans (gives_setOperation ?_)
  intro found isFound
  cases isFound
  exact .inr begins.regular

/-- An entry is pushed, or its call returns. -/
theorem gives_enqueue (enqueued : gate.enqueueInternalPrompt entry decision = some next) :
    gate.Gives next gate.ids ∨ gate.Gives next (gate.ids ++ [entry.id]) := by
  have pruned := (quiet_pruneReservation gate).gives
  have pushed : gate.Gives (gate.push entry) (gate.ids ++ [entry.id]) := by
    refine gives_of_operations (List.Perm.of_eq ?_) pruned.nextCall
      (quiet_pruneReservation gate).operations
    change (gate.pruneReservation.queue ++ [entry]).map (·.id) = _
    rw [(quiet_pruneReservation gate).queue, List.map_append]
    rfl
  cases enqueues_of_enqueue enqueued with
  | coalesced result isNext => exact .inl (isNext ▸ pruned.trans (quiet_reply _ _ _).gives)
  | waits _ result isNext =>
    exact .inr (isNext ▸ (pushed.trans (quiet_schedule _ 0).gives).trans (quiet_reply _ _ _).gives)
  | drains _ _ drained => exact .inr (pushed.trans (gives_drainPromptQueue drained))

theorem steps_call (called : gate.dispatchInternalPrompt args decision = some next) :
    gate.Steps (.call args decision) next := by
  let entered := { gate with nextCall := gate.nextCall + 1 }.note (.entered gate.nextCall)
  have counted : ∀ {ids}, entered.Gives next ids →
      (next.ids.Perm ids → gate.nextCall < next.nextCall →
        gate.Moves (.call args decision) next) → gate.Steps (.call args decision) next := by
    intro ids gives moves
    have less : gate.nextCall < next.nextCall :=
      Nat.lt_of_lt_of_eq (Nat.lt_succ_self gate.nextCall) gives.nextCall.symm
    exact ⟨moves gives.ids less, Nat.le_of_lt less, gives.regular⟩
  have kept : entered.Gives next gate.ids → gate.Steps (.call args decision) next :=
    fun gives => counted gives fun same _ => .kept same
  have pruned := (quiet_pruneReservation entered).gives
  revert called counted kept
  fun_cases gate.dispatchInternalPrompt args decision <;> intro called counted kept
  case case7 =>
    rcases gives_enqueue called with gives | gives
    · exact kept gives
    · exact counted gives fun pushed less => .pushed pushed less
  all_goals cases called
  case case1 | case6 => exact kept (quiet_reply entered _ _).gives
  case case2 | case3 | case4 => exact kept (pruned.trans (quiet_reply _ _ _).gives)
  case case5 => exact kept (pruned.trans (gives_dispatchDirectly _))
  case case8 => exact kept (gives_dispatchDirectly entered)

theorem steps_settle (stepped : gate.step (.settle id answer decision) = some next) :
    gate.Steps (.settle id answer decision) next := by
  obtain ⟨operation, isThere, moved⟩ := Option.bind_eq_some_iff.mp stepped
  obtain ⟨result, proceeded, rfl⟩ := Option.map_eq_some_iff.mp moved
  have gives : gate.Gives (result.1.setOperation id (some
      { operation with dispatch := result.2 })) gate.ids := by
    have proceeds := proceeds_of_proceed proceeded
    refine proceeds.quiet.gives.trans (gives_setOperation ?_)
    intro found isFound
    cases isFound
    exact proceeds.regular.symm.imp (fun threw => threw.2) fun regular => regular
  exact gives.steps .kept

theorem steps_continue (regular : gate.Regular)
    (stepped : gate.step (.continue id decision) = some next) :
    gate.Steps (.continue id decision) next := by
  obtain ⟨operation, isThere, continued⟩ := Option.bind_eq_some_iff.mp stepped
  have ended := gives_endOperation gate id
  unfold continueOperation at continued
  dsimp only at continued
  split at continued
  next result drain isReturned isDrain =>
    have isRegular : operation.dispatch.stage.IsRegular := by
      refine (regular id operation isThere).resolve_left ?_
      rw [isReturned]
      nofun
    have gives := gives_continueDrain isReturned isRegular continued
    split at gives
    next rotates =>
      refine gives.steps (.rotated operation.dispatch ?_)
      exact ⟨operation, drain, result, isThere, isDrain, rfl, isReturned, rotates⟩
    next =>
      rcases gives with gives | gives
      · exact gives.steps .kept
      · refine gives.2.steps (.removed operation.dispatch.call ?_)
        exact ⟨operation, drain, result, isThere, isDrain, isReturned, rfl, gives.1⟩
  next result isReturned isCaller =>
    cases continued
    exact (ended.trans (quiet_reply _ _ _).gives).steps .kept
  next drain isThrown isDrain =>
    cases continued
    have flagged : gate.Gives (gate.setDraining false) gate.ids :=
      gives_of_operations (.refl _) rfl rfl
    exact (flagged.trans (gives_endOperation _ id)).steps .kept
  next isThrown isCaller =>
    cases continued
    exact ended.steps .kept
  next => cases continued

theorem steps_release (gate : Gate) :
    gate.Steps (.release request) (gate.releaseReservation request) := by
  unfold releaseReservation
  split
  next => exact steps_of_same rfl rfl rfl
  next reservation isReserved =>
    split
    next isSource =>
      dsimp only
      unfold releaseInFlight
      split
      next => exact steps_of_same rfl rfl rfl
      next entry isInFlight =>
        split
        next isKey =>
          have gives : gate.Gives
              ((((({ gate.setReservation none with
                recent := Function.update gate.recent reservation.dedupeKey none }).removeEntry
                entry.id).setInFlight none).setDraining false).schedule 0 |>.note .released)
              (gate.ids.filter fun queued => queued ≠ entry.id) :=
            gives_of_operations (gives_removeEntry gate entry.id).ids rfl rfl
          refine gives.steps (.removed entry.id ?_)
          exact ⟨entry, reservation, isInFlight, rfl, isReserved, isSource, isKey.symm⟩
        next => exact steps_of_same rfl rfl rfl
    next => exact steps_of_same rfl rfl rfl

/-- Each step moves the queue in one of these ways. -/
theorem steps_of_step (regular : gate.Regular) (stepped : gate.step label = some next) :
    gate.Steps label next := by
  cases label with
  | call args decision => exact steps_call stepped
  | fire decision =>
    simp only [step] at stepped
    split at stepped
    · have timed : gate.Gives (gate.setTimer none) gate.ids :=
        gives_of_operations (.refl _) rfl rfl
      exact (timed.trans (gives_drainPromptQueue stepped)).steps .kept
    · cases stepped
  | settle id answer decision => exact steps_settle stepped
  | «continue» id decision => exact steps_continue regular stepped
  | release request =>
    cases stepped
    exact steps_release gate
  | prune =>
    cases stepped
    exact (quiet_pruneReservation gate).gives.steps .kept
  | tick elapsed =>
    cases stepped
    exact steps_of_same rfl rfl rfl

/-- What the queue keeps while entries are put at its end in exchange for themselves. -/
structure Distinct (gate : Gate) : Prop where
  nodup : gate.ids.Nodup
  isOld : ∀ call ∈ gate.ids, call < gate.nextCall
  regular : gate.Regular

theorem head_eq_head_ids : (gate.queue.head?).map (·.id) = gate.ids.head? :=
  List.head?_map.symm

/-- Where the head is exchanged for itself, the queue keeps its entries. -/
theorem perm_of_head (isHead : gate.ids.head? = some call)
    (rotated : ids.Perm (gate.ids.tail ++ [call])) : ids.Perm gate.ids := by
  refine rotated.trans ((List.perm_append_singleton call gate.ids.tail).trans ?_)
  rw [List.cons_head?_tail isHead]

/-- An entry that leaves the queue in a step was handled, if the head is not exchanged for
another entry. -/
theorem leavesHandled_of_moves (moves : gate.Moves label next)
    (rotatesItself : gate.RotatesItself label next) : gate.LeavesHandled label next := by
  intro call wasQueued left
  rw [queued_iff] at wasQueued left
  cases moves with
  | kept same => exact absurd (same.mem_iff.mpr wasQueued) left
  | pushed ids counted => exact absurd (ids.mem_iff.mpr (List.mem_append_left _ wasQueued)) left
  | removed removed handled ids =>
    by_cases same : call = removed
    · exact same ▸ handled
    · refine absurd (ids.mem_iff.mpr (List.mem_filter.mpr ⟨wasQueued, ?_⟩)) left
      exact decide_eq_true same
  | rotated dispatch rotates ids =>
    have isHead := head_eq_head_ids.symm.trans (rotatesItself dispatch rotates)
    exact absurd ((perm_of_head isHead ids).mem_iff.mpr wasQueued) left

theorem Distinct.of_moves (distinct : gate.Distinct) (steps : gate.Steps label next)
    (rotatesItself : gate.RotatesItself label next) : next.Distinct := by
  have kept : next.ids.Perm gate.ids → next.Distinct := fun same =>
    ⟨same.nodup_iff.mpr distinct.nodup, fun call member =>
      Nat.lt_of_lt_of_le (distinct.isOld call (same.mem_iff.mp member)) steps.grows,
      steps.regular distinct.regular⟩
  cases steps.moves with
  | kept same => exact kept same
  | pushed ids counted =>
    refine ⟨ids.nodup_iff.mpr ?_, ?_, steps.regular distinct.regular⟩
    · exact nodup_append_singleton distinct.nodup
        fun member => (distinct.isOld _ member).false
    · intro call member
      rcases List.mem_append.mp (ids.mem_iff.mp member) with old | new
      · exact Nat.lt_trans (distinct.isOld call old) counted
      · exact List.mem_singleton.mp new ▸ counted
  | removed removed handled ids =>
    refine ⟨ids.nodup_iff.mpr (distinct.nodup.filter _), ?_, steps.regular distinct.regular⟩
    intro call member
    exact Nat.lt_of_lt_of_le
      (distinct.isOld call (List.mem_filter.mp (ids.mem_iff.mp member)).1) steps.grows
  | rotated dispatch rotates ids =>
    exact kept (perm_of_head (head_eq_head_ids.symm.trans (rotatesItself dispatch rotates)) ids)

/-- Where the head is exchanged for another entry, it leaves the queue without being handled. -/
theorem rotatesItself_of_leavesHandled (distinct : gate.Distinct)
    (stepped : gate.step label = some next) (leavesHandled : gate.LeavesHandled label next) :
    gate.RotatesItself label next := by
  intro dispatch rotates
  cases label with
  | «continue» id decision =>
    obtain ⟨operation, drain, result, isThere, isDrain, rfl, isReturned, isRetryable,
      isDurable, several⟩ := rotates
    obtain ⟨found, isFound, continued⟩ := Option.bind_eq_some_iff.mp stepped
    cases isThere.symm.trans isFound
    unfold continueOperation at continued
    dsimp only at continued
    rw [isReturned, isDrain] at continued
    have isRegular := (distinct.regular id operation isThere).resolve_left
      (by rw [isReturned]; nofun)
    have gives := gives_continueDrain isReturned isRegular continued
    rw [if_pos ⟨isRetryable, isDurable, several⟩] at gives
    have ids := gives.ids
    rw [head_eq_head_ids]
    cases isIds : gate.ids with
    | nil =>
      have noLength : gate.queue.length = 0 := by
        rw [← List.length_map (·.id)]
        exact congrArg List.length isIds
      exact absurd several (noLength ▸ nofun)
    | cons first rest =>
      rw [isIds] at ids
      have nodup := List.nodup_cons.mp (isIds ▸ distinct.nodup)
      by_contra differs
      have other : first ≠ operation.dispatch.call := fun same => differs (congrArg some same)
      have left : ¬ next.Queued first := by
        rw [queued_iff, ids.mem_iff, List.mem_append, List.mem_singleton]
        rintro (isRest | isCall)
        · exact nodup.1 isRest
        · exact other isCall
      have wasQueued : gate.Queued first :=
        queued_iff.mpr (isIds ▸ List.mem_cons_self)
      obtain ⟨handler, handlerDrain, handlerResult, isHandler, _, _, isCall, _⟩ :=
        leavesHandled first wasQueued left
      cases isThere.symm.trans isHandler
      exact other isCall.symm
  | _ => exact rotates.elim

/-- In a run, every entry that leaves the queue was handled exactly if every durable entry that is
put at the end of a queue of several is its head. -/
theorem everyStep_leavesHandled_iff (distinct : gate.Distinct) :
    EveryStep step LeavesHandled gate labels ↔ EveryStep step RotatesItself gate labels := by
  induction labels generalizing gate with
  | nil => exact Iff.rfl
  | cons label labels ih =>
    have each : ∀ next, gate.step label = some next →
        (gate.LeavesHandled label next ∧ EveryStep step LeavesHandled next labels ↔
          gate.RotatesItself label next ∧ EveryStep step RotatesItself next labels) := by
      intro next stepped
      have steps := steps_of_step distinct.regular stepped
      constructor
      · rintro ⟨leavesHandled, later⟩
        have rotates := rotatesItself_of_leavesHandled distinct stepped leavesHandled
        exact ⟨rotates, (ih (distinct.of_moves steps rotates)).mp later⟩
      · rintro ⟨rotates, later⟩
        exact ⟨leavesHandled_of_moves steps.moves rotates,
          (ih (distinct.of_moves steps rotates)).mpr later⟩
    exact forall₂_congr each

theorem distinct_start : start.Distinct where
  nodup := List.nodup_nil
  isOld := nofun
  regular := by
    intro id operation isThere
    cases isThere

/-- In a run from the start, every entry that leaves the queue was handled exactly if no durable
entry is put at the end of a queue of several whose head is another one. -/
theorem entries_handled_iff (labels : List Label) :
    EveryStep step LeavesHandled start labels ↔ EveryStep step RotatesItself start labels :=
  everyStep_leavesHandled_iff distinct_start

/-- A durable prompt is in flight with two more behind it, is released, and its dispatch fails. -/
def releasedRun : List Label :=
  [.call { promptArgs ['a'] with durableRetry := some true } .proceed,
    .call (promptArgs ['b']) .proceed, .call (promptArgs ['c']) .proceed,
    .release
      { expectedSources := [['a']]
        reservedByPrefixes := []
        supersedeTransientRetryOwners := false },
    .settle 0 (.failed true) .proceed]

/-- The failure of the released prompt drops the second one. -/
theorem not_leavesHandled : ¬ ∀ labels, EveryStep step LeavesHandled start labels := by
  intro always
  obtain ⟨middle, reached, next, stepped, before, after, isCall⟩ :
      ∃ middle, execute step start releasedRun = some middle ∧
        ∃ next, middle.step (.continue 0 .proceed) = some next ∧
          middle.ids = [1, 2] ∧ next.ids = [2, 0] ∧
          (middle.operations 0).map (·.dispatch.call) = some 0 := by
    decide +kernel
  have leavesHandled :=
    ((always (releasedRun ++ [.continue 0 .proceed])).append reached next stepped).1
  have wasQueued : middle.Queued 1 := by
    rw [queued_iff, before]
    decide
  have left : ¬ next.Queued 1 := by
    rw [queued_iff, after]
    decide
  obtain ⟨operation, drain, result, isThere, _, _, isSecond, _⟩ := leavesHandled 1 wasQueued left
  rw [isThere] at isCall
  cases isSecond.symm.trans (Option.some.inj isCall)

end Gate

end OpenAgent.PromptGate
