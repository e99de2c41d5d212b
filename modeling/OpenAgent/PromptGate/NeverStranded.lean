import OpenAgent.PromptGate.Gate

/-!
# A queued prompt has a drain or a timer

A drain that ends with a prompt in the queue has armed the timer behind its last look at the
queue, and a timer that fires without effect does so beside a running drain.
-/

namespace OpenAgent.PromptGate

open Library

namespace Stage

/-- A stage that a dispatch reaches while callbacks return: the result is none of those that only
`dispatchInternalPrompt` gives. -/
def IsRegular : Stage → Prop
  | .thrown | .returned (.queued _ _) | .returned .unavailable => False
  | _ => True

theorem IsRegular.not_thrown {stage : Stage} (regular : stage.IsRegular) : stage ≠ .thrown := by
  rintro rfl
  exact regular

end Stage

namespace Gate

variable {gate next : Gate} {id : OperationId}

/-- What a call of `dispatchAfterSessionIdle` leaves of the queue and its drains.  The timer is
armed anew at most. -/
structure Quiet (gate next : Gate) : Prop where
  queue : next.queue = gate.queue
  draining : next.draining = gate.draining
  inFlight : next.inFlight = gate.inFlight
  operations : next.operations = gate.operations
  nextOperation : next.nextOperation = gate.nextOperation
  nextCall : next.nextCall = gate.nextCall
  timer : next.timer = gate.timer ∨ (gate.queue ≠ [] → next.timer.isSome)

theorem Quiet.refl : gate.Quiet gate :=
  ⟨rfl, rfl, rfl, rfl, rfl, rfl, .inl rfl⟩

theorem Quiet.trans (quiet : gate.Quiet next) (later : next.Quiet final) : gate.Quiet final where
  queue := later.queue.trans quiet.queue
  draining := later.draining.trans quiet.draining
  inFlight := later.inFlight.trans quiet.inFlight
  operations := later.operations.trans quiet.operations
  nextOperation := later.nextOperation.trans quiet.nextOperation
  nextCall := later.nextCall.trans quiet.nextCall
  timer := by
    rcases later.timer with same | armed
    · rw [same]
      exact quiet.timer
    · exact .inr (quiet.queue ▸ armed)

section

variable (gate : Gate)

theorem timer_schedule :
    (gate.schedule delayMs).queue ≠ [] → (gate.schedule delayMs).timer.isSome := by
  intro notEmpty
  change (if gate.queue = [] then none else some (gate.now + delayMs)).isSome
  rw [if_neg (show gate.queue ≠ [] from notEmpty)]
  rfl

theorem quiet_schedule (delayMs : Nat) : gate.Quiet (gate.schedule delayMs) := by
  exact ⟨rfl, rfl, rfl, rfl, rfl, rfl, .inr (timer_schedule gate)⟩

theorem quiet_setReservation (reservation : Option Reservation) :
    gate.Quiet (gate.setReservation reservation) :=
  ⟨rfl, rfl, rfl, rfl, rfl, rfl, .inl rfl⟩

theorem quiet_note : gate.Quiet (gate.note event) :=
  ⟨rfl, rfl, rfl, rfl, rfl, rfl, .inl rfl⟩

theorem quiet_reply (call : CallId) (result : DispatchResult) :
    gate.Quiet (gate.reply call result) :=
  ⟨rfl, rfl, rfl, rfl, rfl, rfl, .inl rfl⟩

theorem quiet_setRetryState : gate.Quiet (gate.setRetryState call state) :=
  ⟨rfl, rfl, rfl, rfl, rfl, rfl, .inl rfl⟩

end

/-- A change that the log and the table of recent dispatches do not tell of. -/
structure Still (gate next : Gate) : Prop extends Quiet gate next where
  now : next.now = gate.now
  recent : next.recent = gate.recent
  log : next.log = gate.log

theorem Still.refl : gate.Still gate :=
  ⟨.refl, rfl, rfl, rfl⟩

theorem Still.trans (still : gate.Still next) (later : next.Still final) : gate.Still final :=
  ⟨still.toQuiet.trans later.toQuiet, later.now.trans still.now, later.recent.trans still.recent,
    later.log.trans still.log⟩

section

variable (gate : Gate)

theorem still_schedule : gate.Still (gate.schedule delayMs) :=
  ⟨quiet_schedule gate delayMs, rfl, rfl, rfl⟩

theorem still_pruneReservation : gate.Still gate.pruneReservation := by
  unfold pruneReservation
  split
  next => exact .refl
  next expiresAt =>
    split
    next => exact ⟨(quiet_setReservation gate none).trans (quiet_schedule _ 0), rfl, rfl, rfl⟩
    next => exact .refl

theorem quiet_pruneReservation : gate.Quiet gate.pruneReservation :=
  (still_pruneReservation gate).toQuiet

theorem still_finishReservation (token : Nat) (dispatchAttempted : Bool) (postDispatchHoldMs : Nat)
    :
    gate.Still (gate.finishReservation token dispatchAttempted postDispatchHoldMs) := by
  unfold finishReservation
  split
  next => exact .refl
  next current =>
    split
    · exact .refl
    · split
      · exact ⟨quiet_setReservation gate _, rfl, rfl, rfl⟩
      · exact ⟨quiet_setReservation gate _, rfl, rfl, rfl⟩

theorem quiet_remember (prompt : Prompt) : gate.Quiet (gate.remember prompt) := by
  unfold remember
  split
  · exact .refl
  · exact ⟨rfl, rfl, rfl, rfl, rfl, rfl, .inl rfl⟩

/-- A dispatch in front of the end of its attempt: it is silent, or it invokes the dispatch
function. -/
structure Begins (call : CallId) (prompt : Prompt) (result : Gate × Dispatch) : Prop
    extends Quiet gate result.1 where
  regular : result.2.stage.IsRegular
  isCall : result.2.call = call
  isPrompt : result.2.prompt = prompt
  now : result.1.now = gate.now
  recent : result.1.recent = gate.recent
  log : result.1.log = gate.log ∨ result.2.stage = .dispatching ∧
    result.1.log = gate.log ++ [.invoked call prompt.dedupeKey gate.now]

end

theorem Still.begins (still : gate.Still next) (call : CallId) (prompt : Prompt) (token : Nat)
    (regular : stage.IsRegular) : gate.Begins call prompt (next, { call, prompt, token, stage }) :=
  ⟨still.toQuiet, regular, rfl, rfl, still.now, still.recent, .inl still.log⟩

theorem Begins.after (begins : next.Begins call prompt result) (still : gate.Still next) :
    gate.Begins call prompt result where
  toQuiet := still.toQuiet.trans begins.toQuiet
  regular := begins.regular
  isCall := begins.isCall
  isPrompt := begins.isPrompt
  now := begins.now.trans still.now
  recent := begins.recent.trans still.recent
  log := still.log ▸ still.now ▸ begins.log

section

variable (gate : Gate)

section

variable (dispatch : Dispatch)

theorem begins_finish (regular : stage.IsRegular) :
    gate.Begins dispatch.call dispatch.prompt (gate.finish dispatch dispatchAttempted stage) :=
  (still_finishReservation gate _ _ _).begins _ _ _ regular

theorem begins_invoke : gate.Begins dispatch.call dispatch.prompt (gate.invoke dispatch) :=
  ⟨quiet_note gate, trivial, rfl, rfl, rfl, rfl, .inr ⟨rfl, rfl⟩⟩

theorem begins_decide :
    gate.Begins dispatch.call dispatch.prompt (gate.decide dispatch decision) := by
  cases decision with
  | proceed => exact begins_invoke gate dispatch
  | cancel => exact begins_finish gate dispatch trivial
  | pending => exact Still.refl.begins _ _ _ trivial
  | throws => exact begins_finish gate dispatch trivial

theorem begins_afterStatus :
    gate.Begins dispatch.call dispatch.prompt (gate.afterStatus dispatch decision) := by
  unfold afterStatus
  split
  · exact Still.refl.begins _ _ _ trivial
  · exact begins_decide gate dispatch

theorem begins_afterSettle (decision : Decision) :
    gate.Begins dispatch.call dispatch.prompt (gate.afterSettle dispatch decision) := by
  unfold afterSettle
  split
  · exact Still.refl.begins _ _ _ trivial
  · exact begins_afterStatus gate dispatch

end

theorem begins_dispatchAfterSessionIdle (call : CallId) (prompt : Prompt) (decision : Decision) :
    gate.Begins call prompt (gate.dispatchAfterSessionIdle call prompt decision) := by
  have pruned := still_pruneReservation gate
  unfold dispatchAfterSessionIdle
  dsimp only
  split
  · exact pruned.begins _ _ _ trivial
  · refine Begins.after ?_ pruned
    have reserved : ∀ reservation token, gate.pruneReservation.Still
        { gate.pruneReservation with reservation := some reservation, nextToken := token } :=
      fun _ _ => ⟨⟨rfl, rfl, rfl, rfl, rfl, rfl, .inl rfl⟩, rfl, rfl, rfl⟩
    split
    · exact (reserved _ _).begins _ _ _ trivial
    · exact (begins_afterSettle _ { call, prompt, token := _, stage := .settling } decision).after
        (reserved _ _)

end

/-- How a dispatch goes on: in front of the end of its attempt, or with it. -/
inductive Proceeds (gate : Gate) (dispatch : Dispatch) (answer : Answer)
    (result : Gate × Dispatch) : Prop
  | begins (begins : gate.Begins dispatch.call dispatch.prompt result)
  | attempted (stage : Stage) (regular : stage.IsRegular)
      (isResult : result = ((gate.endAttempt dispatch).remember dispatch.prompt).finish dispatch
        true stage)
  | threw (isThrow : answer = .callbackThrew)
      (isResult : result = (gate.endAttempt dispatch).finish dispatch true .thrown)

theorem proceeds_of_proceed (proceeded : gate.proceed dispatch answer decision = some result) :
    gate.Proceeds dispatch answer result := by
  revert proceeded
  fun_cases gate.proceed dispatch answer decision <;> intro proceeded <;> cases proceeded
  case case1 => exact .begins (begins_afterSettle gate dispatch decision)
  case case3 => exact .begins (begins_afterStatus gate dispatch)
  case case5 => exact .begins (begins_decide gate dispatch)
  case case7 => exact .begins (begins_invoke gate dispatch)
  case case10 => exact .attempted (.returned .dispatched) trivial rfl
  case case11 => exact .attempted (.returned (.failed true _)) trivial rfl
  case case12 => exact .threw rfl rfl
  all_goals exact .begins (begins_finish gate dispatch trivial)

theorem Proceeds.quiet (proceeds : gate.Proceeds dispatch answer result) : gate.Quiet result.1 := by
  have finished (before : Gate) (stage : Stage) :
      before.Quiet (before.finish dispatch true stage).1 :=
    (still_finishReservation before _ _ _).toQuiet
  cases proceeds with
  | begins begins => exact begins.toQuiet
  | attempted stage _ isResult =>
    subst isResult
    exact ((quiet_note gate).trans (quiet_remember _ _)).trans (finished _ stage)
  | threw _ isResult =>
    subst isResult
    exact (quiet_note gate).trans (finished _ .thrown)

theorem Proceeds.regular (proceeds : gate.Proceeds dispatch answer result) :
    result.2.stage.IsRegular ∨ answer = .callbackThrew ∧ result.2.stage = .thrown := by
  cases proceeds with
  | begins begins => exact .inl begins.regular
  | attempted stage regular isResult => exact .inl (isResult ▸ regular)
  | threw isThrow isResult => exact .inr ⟨isThrow, isResult ▸ rfl⟩

/-- A running call of `drainPromptQueue`. -/
def Drains (gate : Gate) : Prop :=
  ∃ id operation drain, gate.operations id = some operation ∧ operation.awaiter = .drain drain

/-- Each turn of the loop without an `await` puts another entry off. -/
theorem drainLoop_isSome (drain : Drain) (gate : Gate)
    (enough : (gate.queue.filter fun entry => entry.id ∉ drain.deferredRetryIds).length < turns) :
    (gate.drainLoop turns id drain decision).isSome := by
  induction turns generalizing gate drain with
  | zero => exact absurd enough (Nat.not_lt_zero _)
  | succ turns ih =>
    unfold drainLoop
    split
    next => rfl
    next entry rest isQueue =>
      split
      next =>
        split
        next => rfl
        next isNew =>
          refine ih _ _ ?_
          have fewer : ((rest ++ [entry]).filter fun queued =>
              queued.id ∉ entry.id :: drain.deferredRetryIds).length ≤
                (rest.filter fun queued => queued.id ∉ drain.deferredRetryIds).length := by
            rw [List.filter_append]
            simp only [List.mem_cons, true_or, not_true_eq_false, decide_false,
              List.filter_cons_of_neg, Bool.false_eq_true, not_false_eq_true, List.filter_nil,
              List.append_nil]
            exact (List.monotone_filter_right _ fun queued => by simp).length_le
          rw [isQueue, List.filter_cons_of_pos (by simpa using isNew)] at enough
          exact Nat.lt_of_le_of_lt fewer (Nat.lt_of_succ_lt_succ enough)
      next => rfl

/-- The loop never lacks a turn. -/
theorem runDrain_isSome (gate : Gate) : (gate.runDrain id drain decision).isSome :=
  drainLoop_isSome drain gate
    (Nat.lt_succ_of_le (List.length_filter_le _ _))

/-- How a drain leaves the gate: it has ended, and has armed the timer for what is left, or it
awaits a dispatch. -/
inductive Leaves (id : OperationId) (gate next : Gate) : Prop
  | ended (notDraining : next.draining = false)
      (operations : next.operations = Function.update gate.operations id none)
      (armed : next.queue ≠ [] → next.timer.isSome)
  | awaits (operation : Operation) (drain : Drain)
      (operations : next.operations = Function.update gate.operations id (some operation))
      (isDrain : operation.awaiter = .drain drain) (regular : operation.dispatch.stage.IsRegular)

/-- A drain that ends with the timer armed. -/
theorem leaves_endDrain (operations : next.operations = gate.operations)
    (armed : next.queue ≠ [] → next.timer.isSome) : Leaves id gate (next.endDrain id drain) := by
  have updated : Function.update next.operations id none =
      Function.update gate.operations id none := by
    rw [operations]
  unfold endDrain
  split
  · exact .ended rfl updated armed
  · exact .ended rfl updated armed

variable {before : Gate}

theorem Leaves.of_operations (leaves : Leaves id gate next)
    (same : gate.operations = before.operations) : Leaves id before next := by
  cases leaves with
  | ended notDraining operations armed => exact .ended notDraining (same ▸ operations) armed
  | awaits operation drain operations isDrain regular =>
    exact .awaits operation drain (same ▸ operations) isDrain regular

/-- How the loop of a drain leaves off: the drain ends, with the timer armed for what is left, or
it awaits the dispatch of an entry. -/
inductive Loops (gate : Gate) (id : OperationId) (next : Gate) : Prop
  | ends (drain : Drain) (before : Gate) (still : gate.Still before)
      (reservation : before.reservation = gate.reservation)
      (armed : before.queue ≠ [] → before.timer.isSome) (isNext : next = before.endDrain id drain)
  | awaits (drain : Drain) (entry : Entry) (result : Gate × Dispatch) (member : entry ∈ gate.queue)
      (decision : Decision)
      (isResult : (gate.setInFlight (some entry)).dispatchAfterSessionIdle entry.id entry.prompt
        decision = result)
      (begins : (gate.setInFlight (some entry)).Begins entry.id entry.prompt result)
      (isNext : next = result.1.setOperation id (some
        { awaiter := .drain drain, dispatch := result.2 }))

/-- The turns without an `await` bring the queue in another order. -/
theorem loops_of_drainLoop (looped : gate.drainLoop turns id drain decision = some next) :
    ∃ queue, queue.Perm gate.queue ∧ (gate.setQueue queue).Loops id next := by
  induction turns generalizing gate drain with
  | zero => cases looped
  | succ turns ih =>
    unfold drainLoop at looped
    split at looped
    next isEmpty =>
      exact ⟨gate.queue, .refl _, .ends drain gate .refl rfl (absurd isEmpty)
        (Option.some.inj looped).symm⟩
    next entry rest isQueue =>
      split at looped
      next =>
        split at looped
        next =>
          exact ⟨gate.queue, .refl _, .ends drain _ (still_schedule gate) rfl (timer_schedule gate)
            (Option.some.inj looped).symm⟩
        next =>
          obtain ⟨queue, perm, loops⟩ := ih looped
          exact ⟨queue, perm.trans (isQueue ▸ List.perm_append_singleton entry rest), loops⟩
      next =>
        exact ⟨gate.queue, .refl _, .awaits drain entry _ (isQueue ▸ List.mem_cons_self) decision
          rfl (begins_dispatchAfterSessionIdle _ _ _ decision) (Option.some.inj looped).symm⟩

theorem nextOperation_endDrain (gate : Gate) (id : OperationId) (drain : Drain) :
    (gate.endDrain id drain).nextOperation = gate.nextOperation := by
  unfold endDrain
  split <;> rfl

theorem leaves_drainLoop (looped : gate.drainLoop turns id drain decision = some next) :
    Leaves id gate next ∧ next.nextOperation = gate.nextOperation := by
  obtain ⟨queue, -, loops⟩ := loops_of_drainLoop looped
  cases loops with
  | ends drain before still _ armed isNext =>
    subst isNext
    exact ⟨leaves_endDrain still.operations armed,
      (nextOperation_endDrain before id drain).trans still.nextOperation⟩
  | awaits drain entry result _ _ _ begins isNext =>
    subst isNext
    exact ⟨.awaits _ drain (congrArg (fun operations => Function.update operations id _)
      begins.operations) rfl begins.regular, begins.nextOperation⟩

/-- What the gate keeps of its drains. -/
structure Attended (gate : Gate) : Prop where
  served : gate.queue ≠ [] → gate.Drains ∨ gate.timer.isSome
  flagged : gate.draining = true → gate.Drains
  fresh : ∀ id, gate.nextOperation ≤ id → gate.operations id = none
  noThrow : ∀ id operation, gate.operations id = some operation → operation.dispatch.stage ≠ .thrown

/-- No callback throws in the error path of a dispatch. -/
def CallbacksReturn : Label → Prop
  | .settle _ answer _ => answer ≠ .callbackThrew
  | _ => True

theorem Quiet.drains (quiet : gate.Quiet next) (drains : gate.Drains) : next.Drains := by
  obtain ⟨id, operation, drain, isThere, isDrain⟩ := drains
  exact ⟨id, operation, drain, quiet.operations ▸ isThere, isDrain⟩

theorem Attended.quiet (attended : gate.Attended) (quiet : gate.Quiet next) : next.Attended where
  served := by
    intro notEmpty
    rw [quiet.queue] at notEmpty
    rcases quiet.timer with same | armed
    · rcases attended.served notEmpty with drains | timer
      · exact .inl (quiet.drains drains)
      · exact .inr (same ▸ timer)
    · exact .inr (armed notEmpty)
  flagged := fun isDraining => quiet.drains (attended.flagged (quiet.draining ▸ isDraining))
  fresh := by
    rw [quiet.operations, quiet.nextOperation]
    exact attended.fresh
  noThrow := by
    rw [quiet.operations]
    exact attended.noThrow

section

variable {operations : OperationId → Option Operation}

theorem update_eq_some (isThere : Function.update operations id changed other = some operation) :
    other = id ∧ changed = some operation ∨ operations other = some operation := by
  rw [Function.update_apply] at isThere
  split at isThere
  next same => exact .inl ⟨same, isThere⟩
  next => exact .inr isThere

theorem update_fresh (fresh : ∀ other, counter ≤ other → operations other = none)
    (isOld : id < counter) (other : OperationId) (late : counter ≤ other) :
    Function.update operations id changed other = none :=
  (Function.update_of_ne (Nat.ne_of_gt (Nat.lt_of_lt_of_le isOld late)) _ _).trans
    (fresh other late)

end

/-- A drain that has ended or awaits a dispatch leaves nothing unattended. -/
theorem Attended.leaves (attended : gate.Attended) (isOld : id < next.nextOperation)
    (grows : gate.nextOperation ≤ next.nextOperation) (leaves : Leaves id gate next) :
    next.Attended := by
  have unused : ∀ other, next.nextOperation ≤ other → gate.operations other = none :=
    fun other late => attended.fresh other (Nat.le_trans grows late)
  cases leaves with
  | ended notDraining operations armed =>
    refine ⟨fun notEmpty => .inr (armed notEmpty), ?_, operations ▸ update_fresh unused isOld, ?_⟩
    · intro isDraining
      cases notDraining.symm.trans isDraining
    · intro other operation isThere
      rcases update_eq_some (operations ▸ isThere) with ⟨-, isNone⟩ | before
      · cases isNone
      · exact attended.noThrow other operation before
  | awaits operation drain operations isDrain regular =>
    have drains : next.Drains :=
      ⟨id, operation, drain, by rw [operations, Function.update_self], isDrain⟩
    refine ⟨fun _ => .inl drains, fun _ => drains, operations ▸ update_fresh unused isOld, ?_⟩
    intro other found isThere
    rcases update_eq_some (operations ▸ isThere) with ⟨-, isNew⟩ | before
    · cases isNew
      exact regular.not_thrown
    · exact attended.noThrow other found before

/-- A gate as another one but for its queue, its timer and its flag. -/
structure SameOperations (gate next : Gate) : Prop where
  operations : next.operations = gate.operations
  nextOperation : next.nextOperation = gate.nextOperation

theorem Quiet.sameOperations (quiet : gate.Quiet next) : gate.SameOperations next :=
  ⟨quiet.operations, quiet.nextOperation⟩

/-- The loop of a drain that is under way, or just began. -/
theorem Attended.runDrain (attended : before.Attended) (same : before.operations = gate.operations)
    (isOld : id < gate.nextOperation) (grows : before.nextOperation ≤ gate.nextOperation)
    (ran : gate.runDrain id drain decision = some next) : next.Attended := by
  obtain ⟨leaves, counter⟩ := leaves_drainLoop ran
  exact attended.leaves (counter ▸ isOld) (counter ▸ grows) (leaves.of_operations same.symm)

theorem Attended.endDrain (attended : before.Attended) (same : before.SameOperations gate)
    (isOld : id < before.nextOperation) (armed : gate.queue ≠ [] → gate.timer.isSome) :
    (gate.endDrain id drain).Attended := by
  have counter := (nextOperation_endDrain gate id drain).trans same.nextOperation
  exact attended.leaves (counter ▸ isOld) (Nat.le_of_eq counter.symm) (leaves_endDrain same.operations armed)

theorem Attended.drainPromptQueue (attended : gate.Attended) (timer : Option Nat)
    (drained : (gate.setTimer timer).drainPromptQueue awaited decision = some next) :
    next.Attended := by
  unfold Gate.drainPromptQueue at drained
  split at drained
  next isDraining =>
    have drains := attended.flagged isDraining
    have still : (gate.setTimer timer).Attended :=
      ⟨fun _ => .inl drains, fun _ => drains, attended.fresh, attended.noThrow⟩
    split at drained
    next =>
      cases drained
      exact still
    next entry =>
      cases drained
      exact still.quiet (quiet_reply _ _ _)
  next =>
    refine attended.runDrain ?_ ?_ ?_ drained
    · rfl
    · exact Nat.lt_succ_self gate.nextOperation
    · exact Nat.le_succ gate.nextOperation

theorem drains_of_update (drains : gate.Drains) (isThere : gate.operations id = some operation)
    (operations : next.operations = Function.update gate.operations id (some changed))
    (sameAwaiter : changed.awaiter = operation.awaiter) : next.Drains := by
  obtain ⟨other, found, drain, isFound, isDrain⟩ := drains
  by_cases same : other = id
  · subst same
    cases isThere.symm.trans isFound
    exact ⟨other, changed, drain, by rw [operations, Function.update_self],
      sameAwaiter.trans isDrain⟩
  · exact ⟨other, found, drain, by rw [operations, Function.update_of_ne same, isFound], isDrain⟩

theorem Attended.isOld (attended : gate.Attended) (isThere : gate.operations id = some operation) :
    id < gate.nextOperation := by
  by_contra late
  cases isThere.symm.trans (attended.fresh id (Nat.le_of_not_lt late))

/-- A stage goes on. -/
theorem Attended.settle (attended : gate.Attended) (returns : answer ≠ .callbackThrew)
    (stepped : gate.step (.settle id answer decision) = some next) : next.Attended := by
  obtain ⟨operation, isThere, moved⟩ := Option.bind_eq_some_iff.mp stepped
  obtain ⟨result, proceeded, rfl⟩ := Option.map_eq_some_iff.mp moved
  have proceeds := proceeds_of_proceed proceeded
  have quiet := proceeds.quiet
  have regular := proceeds.regular.resolve_right fun threw => returns threw.1
  have reached := attended.quiet quiet
  rw [← quiet.operations] at isThere
  have drains : result.1.Drains → (result.1.setOperation id (some
      { operation with dispatch := result.2 })).Drains := fun drains =>
    drains_of_update drains isThere rfl rfl
  refine ⟨fun notEmpty => (reached.served notEmpty).imp drains fun timer => timer,
    fun isDraining => drains (reached.flagged isDraining),
    update_fresh reached.fresh (reached.isOld isThere), ?_⟩
  intro other found isFound
  rcases update_eq_some isFound with ⟨-, isNew⟩ | before
  · cases isNew
    exact regular.not_thrown
  · exact reached.noThrow other found before

/-- A call that awaits its own dispatch returns. -/
theorem Attended.endOperation (attended : gate.Attended)
    (isThere : gate.operations id = some operation) (isCaller : operation.awaiter = .caller) :
    (gate.setOperation id none).Attended := by
  have drains : gate.Drains → (gate.setOperation id none).Drains := by
    rintro ⟨other, found, drain, isFound, isDrain⟩
    have differs : other ≠ id := by
      rintro rfl
      cases isThere.symm.trans isFound
      cases isCaller.symm.trans isDrain
    exact ⟨other, found, drain, (Function.update_of_ne differs _ _).trans isFound, isDrain⟩
  refine ⟨fun notEmpty => (attended.served notEmpty).imp drains fun timer => timer,
    fun isDraining => drains (attended.flagged isDraining),
    update_fresh attended.fresh (attended.isOld isThere), ?_⟩
  intro other found isFound
  rcases update_eq_some isFound with ⟨-, isNone⟩ | before
  · cases isNone
  · exact attended.noThrow other found before

theorem sameOperations_land (gate : Gate) (call : CallId) :
    gate.SameOperations (gate.land call) := by
  unfold land
  split <;> exact ⟨rfl, rfl⟩

theorem SameOperations.trans (same : gate.SameOperations next) (later : next.SameOperations final) :
    gate.SameOperations final :=
  ⟨later.operations.trans same.operations, later.nextOperation.trans same.nextOperation⟩

theorem sameOperations_removeEntry (gate : Gate) (call : CallId) :
    gate.SameOperations (gate.removeEntry call) := ⟨rfl, rfl⟩

theorem sameOperations_setQueue (gate : Gate) (queue : List Entry) :
    gate.SameOperations (gate.setQueue queue) := ⟨rfl, rfl⟩

/-- The loop of a drain goes on. -/
theorem Attended.goesOn (attended : before.Attended) (same : before.SameOperations gate)
    (isOld : id < before.nextOperation) (ran : gate.runDrain id drain decision = some next) :
    next.Attended :=
  attended.runDrain same.operations.symm (same.nextOperation ▸ isOld)
    (Nat.le_of_eq same.nextOperation.symm) ran

/-- How a drain goes on with the result of a dispatch. -/
inductive Continues (landed : Gate) (id : OperationId) (entry : Entry) (result : DispatchResult)
    (decision : Decision) (next : Gate) : Prop
  | rotates (drain : Drain) (state : Option RetryState) (isRetryable : result.isRetryable = true)
      (isDurable : entry.prompt.durableRetry = true) (several : 1 < landed.queue.length)
      (ran : ((landed.setRetryState entry.id state).setQueue
        (landed.queue.tail ++ [entry])).runDrain id drain decision = some next)
  | stays (drain : Drain) (before : Gate)
      (noRotation : ¬(result.isRetryable = true ∧ entry.prompt.durableRetry = true ∧
        1 < landed.queue.length))
      (still : landed.Still before) (reservation : before.reservation = landed.reservation)
      (armed : before.queue ≠ [] → before.timer.isSome) (isNext : next = before.endDrain id drain)
  | drops (drain : Drain) (isRetryable : result.isRetryable = true)
      (notDurable : entry.prompt.durableRetry = false)
      (thrice : 3 ≤ landed.failureCount entry.id + 1)
      (ran : (landed.removeEntry entry.id).runDrain id drain decision = some next)
  | ends (drain : Drain) (before : Gate) (notRetryable : result.isRetryable = false)
      (notActive : result ≠ .active) (notReserved : ∀ reservedBy, result ≠ .reserved reservedBy)
      (still : (landed.removeEntry entry.id).Still before)
      (reservation : before.reservation = landed.reservation)
      (armed : before.queue ≠ [] → before.timer.isSome) (isNext : next = before.endDrain id drain)

theorem continues_of_continueDrain
    (continued : gate.continueDrain id drain entry result decision = some next) :
    (gate.land entry.id).Continues id entry result decision next := by
  have stays {drain noted delayMs}
      (noRotation : ¬(result.isRetryable = true ∧ entry.prompt.durableRetry = true ∧
        1 < (gate.land entry.id).queue.length))
      (still : (gate.land entry.id).Still noted)
      (reservation : noted.reservation = (gate.land entry.id).reservation)
      (isNext : some ((noted.schedule delayMs).endDrain id drain) = some next) :
      (gate.land entry.id).Continues id entry result decision next :=
    .stays drain _ noRotation (still.trans (still_schedule noted)) reservation
      (timer_schedule noted) (Option.some.inj isNext).symm
  unfold Gate.continueDrain at continued
  dsimp only at continued
  split at continued
  next isRetryable =>
    have noted (state : Option RetryState) : (gate.land entry.id).Still
        ((gate.land entry.id).setRetryState entry.id state) :=
      ⟨quiet_setRetryState _, rfl, rfl, rfl⟩
    unfold retryLater at continued
    dsimp only at continued
    split at continued
    next isDurable =>
      split at continued
      next several => exact .rotates drain _ isRetryable isDurable several continued
      next few => exact stays (fun rotates => few rotates.2.2) (noted _) rfl continued
    next notDurable =>
      split at continued
      next thrice => exact .drops _ isRetryable (Bool.eq_false_iff.mpr notDurable) thrice continued
      next => exact stays (fun rotates => notDurable rotates.2.1) (noted _) rfl continued
  next notRetryable =>
    split at continued
    next => exact stays (fun rotates => notRetryable rotates.1) .refl rfl continued
    next => exact stays (fun rotates => notRetryable rotates.1) .refl rfl continued
    next notActive notReserved =>
      have notRetryable := Bool.eq_false_iff.mpr notRetryable
      split at continued
      next isEmpty =>
        exact .ends _ _ notRetryable notActive notReserved .refl rfl (absurd isEmpty)
          (Option.some.inj continued).symm
      next =>
        exact .ends _ _ notRetryable notActive notReserved (still_schedule _) rfl
          (timer_schedule _) (Option.some.inj continued).symm

theorem Attended.continueDrain (attended : gate.Attended) (isOld : id < gate.nextOperation)
    (continued : gate.continueDrain id drain entry result decision = some next) :
    next.Attended := by
  have landed := sameOperations_land gate entry.id
  have removed := landed.trans (sameOperations_removeEntry (gate.land entry.id) entry.id)
  cases continues_of_continueDrain continued with
  | rotates drain state _ _ _ ran => exact attended.goesOn (landed.trans ⟨by rfl, by rfl⟩) isOld ran
  | stays drain before _ still _ armed isNext =>
    exact isNext ▸ attended.endDrain (landed.trans still.sameOperations) isOld armed
  | drops drain _ _ _ ran => exact attended.goesOn removed isOld ran
  | ends drain before _ _ _ still _ armed isNext =>
    exact isNext ▸ attended.endDrain (removed.trans still.sameOperations) isOld armed

theorem Attended.continue (attended : gate.Attended)
    (stepped : gate.step (.continue id decision) = some next) : next.Attended := by
  obtain ⟨operation, isThere, continued⟩ := Option.bind_eq_some_iff.mp stepped
  have isOld := attended.isOld isThere
  unfold continueOperation at continued
  dsimp only at continued
  split at continued
  next result drain isReturned isDrain => exact attended.continueDrain isOld continued
  next result isReturned isCaller =>
    cases continued
    exact (attended.endOperation isThere isCaller).quiet (quiet_reply _ _ _)
  next drain isThrown isDrain => exact absurd isThrown (attended.noThrow id operation isThere)
  next isThrown isCaller =>
    cases continued
    exact attended.endOperation isThere isCaller
  next => cases continued

/-- A call whose own dispatch begins. -/
theorem Attended.dispatchDirectly (attended : gate.Attended) (call : CallId) (prompt : Prompt)
    (decision : Decision) : (gate.dispatchDirectly call prompt decision).Attended := by
  have begins := begins_dispatchAfterSessionIdle (gate.setNextOperation (gate.nextOperation + 1))
    call prompt decision
  have numbered : (gate.setNextOperation (gate.nextOperation + 1)).Attended :=
    ⟨attended.served, attended.flagged,
      fun id late => attended.fresh id (Nat.le_of_succ_le late), attended.noThrow⟩
  have reached := numbered.quiet begins.toQuiet
  have unused : ((gate.setNextOperation (gate.nextOperation + 1)).dispatchAfterSessionIdle call
      prompt decision).1.operations gate.nextOperation = none := by
    rw [begins.operations]
    exact attended.fresh gate.nextOperation (Nat.le_refl _)
  have drains : ∀ operation, ((gate.setNextOperation
      (gate.nextOperation + 1)).dispatchAfterSessionIdle call prompt decision).1.Drains →
        (((gate.setNextOperation (gate.nextOperation + 1)).dispatchAfterSessionIdle call prompt
          decision).1.setOperation gate.nextOperation operation).Drains := by
    rintro operation ⟨other, found, drain, isFound, isDrain⟩
    have differs : other ≠ gate.nextOperation := by
      rintro rfl
      cases unused.symm.trans isFound
    exact ⟨other, found, drain, (Function.update_of_ne differs _ _).trans isFound, isDrain⟩
  have isOld := Nat.lt_of_lt_of_eq gate.nextOperation.lt_succ_self begins.nextOperation.symm
  refine ⟨fun notEmpty => (reached.served notEmpty).imp (drains _) fun timer => timer,
    fun isDraining => drains _ (reached.flagged isDraining), update_fresh reached.fresh isOld, ?_⟩
  intro other found isFound
  rcases update_eq_some isFound with ⟨-, isNew⟩ | before
  · cases isNew
    exact begins.regular.not_thrown
  · exact reached.noThrow other found before

/-- A queue that is changed in front of a call of `schedule`. -/
theorem Attended.schedule (attended : before.Attended) (same : before.SameOperations gate)
    (flagged : gate.draining = true → before.draining = true) (delayMs : Nat) :
    (gate.schedule delayMs).Attended := by
  have operations : (gate.schedule delayMs).operations = before.operations := same.operations
  refine ⟨fun notEmpty => .inr (timer_schedule gate notEmpty), ?_, ?_, ?_⟩
  · intro isDraining
    obtain ⟨id, operation, drain, isThere, isDrain⟩ := attended.flagged (flagged isDraining)
    exact ⟨id, operation, drain, operations ▸ isThere, isDrain⟩
  · intro id late
    rw [operations]
    exact attended.fresh id (same.nextOperation ▸ late)
  · rw [operations]
    exact attended.noThrow

/-- A prompt with the key waits in the queue or holds the reservation. -/
def Shows (gate : Gate) (dedupeKey : Text) : Prop :=
  (∃ entry ∈ gate.queue, entry.prompt.dedupeKey = dedupeKey) ∨
    ∃ active ∈ gate.pruneReservation.reservation, active.dedupeKey = dedupeKey
deriving Decidable

/-- The queue with one more entry. -/
def push (gate : Gate) (entry : Entry) : Gate :=
  gate.pruneReservation.setQueue (gate.pruneReservation.queue ++ [entry])

/-- How a prompt is queued: it is taken for one that the gate shows, or it waits behind others, or
a drain begins with it. -/
inductive Enqueues (gate : Gate) (entry : Entry) (decision : Decision) (next : Gate) : Prop
  | coalesced (result : DispatchResult)
      (isNext : next = gate.pruneReservation.reply entry.id result)
  | waits (notShown : ¬ gate.Shows entry.prompt.dedupeKey) (result : DispatchResult)
      (isNext : next = ((gate.push entry).schedule 0).reply entry.id result)
  | drains (notShown : ¬ gate.Shows entry.prompt.dedupeKey)
      (notDraining : ¬ gate.pruneReservation.draining = true)
      (drained : (gate.push entry).drainPromptQueue (some entry) decision = some next)

theorem enqueues_of_enqueue (enqueued : gate.enqueueInternalPrompt entry decision = some next) :
    gate.Enqueues entry decision next := by
  unfold enqueueInternalPrompt at enqueued
  dsimp only at enqueued
  split at enqueued
  next => exact .coalesced _ (Option.some.inj enqueued).symm
  next notReserved =>
    split at enqueued
    next => exact .coalesced _ (Option.some.inj enqueued).symm
    next notQueued =>
      have notShown : ¬ gate.Shows entry.prompt.dedupeKey := by
        rintro (⟨queued, member, sameKey⟩ | ⟨active, isActive, sameKey⟩)
        · rw [(quiet_pruneReservation gate).queue] at notQueued
          exact List.find?_eq_none.mp notQueued queued member (decide_eq_true sameKey)
        · exact Option.filter_eq_none_iff.mp notReserved active isActive (decide_eq_true sameKey)
      split at enqueued
      next => exact .waits notShown _ (Option.some.inj enqueued).symm
      next isAlone => exact .drains notShown (fun isDraining => isAlone (.inr isDraining)) enqueued

theorem Attended.enqueue (attended : gate.Attended)
    (enqueued : gate.enqueueInternalPrompt entry decision = some next) : next.Attended := by
  have pruned := attended.quiet (quiet_pruneReservation gate)
  cases enqueues_of_enqueue enqueued with
  | coalesced result isNext => exact isNext ▸ pruned.quiet (quiet_reply _ _ _)
  | waits _ result isNext =>
    have sameOperations : gate.pruneReservation.SameOperations (gate.push entry) :=
      sameOperations_setQueue gate.pruneReservation _
    have pushed := pruned.schedule sameOperations (fun isDraining => isDraining) 0
    exact isNext ▸ pushed.quiet (quiet_reply _ _ _)
  | drains _ notDraining drained =>
    unfold Gate.drainPromptQueue at drained
    rw [if_neg (show ¬ (gate.push entry).draining = true from notDraining)] at drained
    refine pruned.runDrain ?_ ?_ ?_ drained
    · rfl
    · exact Nat.lt_succ_self gate.pruneReservation.nextOperation
    · exact Nat.le_succ gate.pruneReservation.nextOperation

theorem Attended.call (attended : gate.Attended)
    (called : gate.dispatchInternalPrompt args decision = some next) : next.Attended := by
  have entered : ({ gate with nextCall := gate.nextCall + 1 }.note
      (.entered gate.nextCall)).Attended :=
    ⟨attended.served, attended.flagged, attended.fresh, attended.noThrow⟩
  have pruned := entered.quiet (quiet_pruneReservation _)
  revert called
  fun_cases gate.dispatchInternalPrompt args decision <;> intro called
  case case7 => exact entered.enqueue called
  all_goals cases called
  case case1 | case6 => exact entered.quiet (quiet_reply _ _ _)
  case case2 | case3 | case4 => exact pruned.quiet (quiet_reply _ _ _)
  case case5 => exact pruned.dispatchDirectly _ _ decision
  case case8 => exact entered.dispatchDirectly _ _ decision

theorem Attended.release (attended : gate.Attended) (request : ReleaseRequest) :
    (gate.releaseReservation request).Attended := by
  unfold releaseReservation
  split
  next => exact attended
  next existing =>
    split
    next =>
      refine (attended.schedule ?_ ?_ 0).quiet (quiet_note _)
      · unfold releaseInFlight
        split
        · exact ⟨rfl, rfl⟩
        · split <;> exact ⟨rfl, rfl⟩
      · unfold releaseInFlight
        split
        · exact id
        · split
          · nofun
          · exact id
    next => exact attended

theorem attended_step (gate : Gate) (label : Label) (next : Gate) (attended : gate.Attended)
    (returns : CallbacksReturn label) (stepped : gate.step label = some next) : next.Attended := by
  cases label with
  | call args decision => exact attended.call stepped
  | fire decision =>
    simp only [step] at stepped
    split at stepped
    · exact attended.drainPromptQueue none stepped
    · cases stepped
  | settle id answer decision => exact attended.settle returns stepped
  | «continue» id decision => exact attended.continue stepped
  | release request =>
    cases stepped
    exact attended.release request
  | prune =>
    cases stepped
    exact attended.quiet (quiet_pruneReservation gate)
  | tick elapsed =>
    cases stepped
    exact ⟨attended.served, attended.flagged, attended.fresh, attended.noThrow⟩

theorem attended_start : start.Attended where
  served := fun notEmpty => absurd rfl notEmpty
  flagged := nofun
  fresh := fun _ _ => rfl
  noThrow := by
    intro id operation isThere
    cases isThere

/-- Whenever the queue is not empty, a drain is running or the drain timer is armed. -/
theorem queue_attended {labels : List Label} (reached : execute step start labels = some final)
    (returns : ∀ label ∈ labels, CallbacksReturn label) (notEmpty : final.queue ≠ []) :
    final.Drains ∨ final.timer.isSome := by
  have everyStep : EveryStep step (fun _ label _ => CallbacksReturn label) start labels :=
    everyStep_of_forall fun label member _ _ => returns label member
  have attended : final.Attended :=
    invariant_of_execute attended_step attended_start reached everyStep
  exact attended.served notEmpty

/-- An asynchronous prompt with a text as its key. -/
def promptArgs (dedupeKey : Text) : InternalPromptDispatchArgs where
  mode := .async
  source := dedupeKey
  dedupeKey
  queueBehavior := none
  queue := none
  queueRetryMs := none
  settleMs := some 0
  postDispatchHoldMs := none
  semanticDedupeHoldMs := none
  checkStatus := none
  checkToolState := none
  durableRetry := none
  hasDispatch := true
  hasStatus := false
  hasMessages := false

/-- Two prompts are queued, the first one is dispatched, and its drain has ended. -/
def dispatchedRun : List Label :=
  [.call (promptArgs ['a']) .proceed, .call (promptArgs ['b']) .proceed,
    .settle 0 .accepted .proceed, .continue 0 .proceed]

theorem queue_attended_dispatched :
    ∃ final, execute step start dispatchedRun = some final ∧ final.queue.length = 1 ∧
      (final.Drains ∨ final.timer.isSome) := by
  obtain ⟨final, reached, isLength⟩ :
      ∃ final, execute step start dispatchedRun = some final ∧ final.queue.length = 1 := by
    decide +kernel
  refine ⟨final, reached, isLength, queue_attended reached ?_ ?_⟩
  · intro label member
    simp only [dispatchedRun, List.mem_cons, List.not_mem_nil, or_false] at member
    rcases member with rfl | rfl | rfl | rfl
    · trivial
    · trivial
    · nofun
    · trivial
  · intro isEmpty
    rw [isEmpty] at isLength
    cases isLength

end Gate

end OpenAgent.PromptGate
