import OpenAgent.PromptGate.ReservationHeld

/-!
# When a duplicate waits until the semantic hold is over

The table of recent dispatches is read when a call enters the gate.  A call that waits behind this
point is not checked again, so the window holds as long as no two calls under way have the same
dedupe key.  The queue and the reservation ensure this, but for a direct call, which does not look
at the queue, and for a dispatch that a release has hidden.
-/

namespace OpenAgent.PromptGate

open Library

section

variable (log : List Event)

/-- Behind the end of an attempt, without a release in between, the dispatch function of another
call with the same dedupe key is not invoked before the semantic hold is over. -/
def HoldKept : Prop :=
  ∀ front first dedupeKey time semanticHold middle second later rest,
    log = front ++ .ended first dedupeKey time semanticHold :: middle ++
      .invoked second dedupeKey later :: rest →
    first ≠ second → .released ∉ middle → time + semanticHold ≤ later

/-- Behind the call of a dispatch function, without a release in between, the dispatch function of
another call with the same dedupe key is not invoked before the attempt has ended and its semantic
hold is over. -/
def AttemptKept : Prop :=
  ∀ front first dedupeKey invokedAt middle second later back time semanticHold rest,
    log = front ++ .invoked first dedupeKey invokedAt :: middle ++
      .invoked second dedupeKey later :: back ++ .ended first dedupeKey time semanticHold :: rest →
    first ≠ second → .released ∉ middle → time + semanticHold ≤ later

/-- The window of two calls, whether the attempt of the first one has ended or not. -/
def DedupeWindow : Prop :=
  HoldKept log ∧ AttemptKept log

end

/-! ## Logs that grow -/

theorem append_cons_eq_concat (split : front ++ event :: rest = log ++ [last]) :
    (front = log ∧ event = last ∧ rest = []) ∨
      ∃ shorter, rest = shorter ++ [last] ∧ front ++ event :: shorter = log := by
  rcases rest.eq_nil_or_concat with rfl | ⟨shorter, final, rfl⟩
  · obtain ⟨isFront, isEvent⟩ := List.append_inj' split rfl
    exact .inl ⟨isFront, List.cons.inj isEvent |>.1, rfl⟩
  · rw [List.concat_eq_append, ← List.cons_append, ← List.append_assoc] at split
    obtain ⟨isFront, isLast⟩ := List.append_inj' split rfl
    cases isLast
    exact .inr ⟨shorter, List.concat_eq_append, isFront⟩

/-- An attempt that has ended, with no release behind it. -/
def Ended (log : List Event) (call : CallId) (dedupeKey : Text) (time semanticHold : Nat) : Prop :=
  ∃ front back, log = front ++ .ended call dedupeKey time semanticHold :: back ∧ .released ∉ back

/-- The dispatch functions of two calls with one key were invoked one after the other. -/
def Follows (log : List Event) (first second : CallId) (dedupeKey : Text) : Prop :=
  ∃ front invokedAt middle later back,
    log = front ++ .invoked first dedupeKey invokedAt :: middle ++
      .invoked second dedupeKey later :: back

theorem Ended.mem (ended : Ended log call dedupeKey time semanticHold) :
    .ended call dedupeKey time semanticHold ∈ log := by
  obtain ⟨front, back, rfl, _⟩ := ended
  exact List.mem_append_right _ List.mem_cons_self

theorem Ended.of_concat (ended : Ended (log ++ [last]) call dedupeKey time semanticHold) :
    last = .ended call dedupeKey time semanticHold ∨
      last ≠ .released ∧ Ended log call dedupeKey time semanticHold := by
  obtain ⟨front, back, split, notReleased⟩ := ended
  rcases append_cons_eq_concat split.symm with ⟨_, isLast, _⟩ | ⟨shorter, rfl, isLog⟩
  · exact .inl isLast.symm
  · refine .inr ⟨?_, front, shorter, isLog.symm, ?_⟩
    · rintro rfl
      exact notReleased (List.mem_append_right _ List.mem_cons_self)
    · exact fun member => notReleased (List.mem_append_left _ member)

theorem Follows.of_concat (follows : Follows (log ++ [last]) first second dedupeKey) :
    Follows log first second dedupeKey ∨ ∃ later, last = .invoked second dedupeKey later := by
  obtain ⟨front, invokedAt, between, later, back, split⟩ := follows
  rcases append_cons_eq_concat split.symm with ⟨_, isLast, _⟩ | ⟨shorter, rfl, isLog⟩
  · exact .inr ⟨later, isLast.symm⟩
  · exact .inl ⟨front, invokedAt, between, later, shorter, isLog.symm⟩

/-- The first of two calls was invoked. -/
theorem Follows.mem (follows : Follows log first second dedupeKey) :
    ∃ time, .invoked first dedupeKey time ∈ log := by
  obtain ⟨front, invokedAt, between, later, back, rfl⟩ := follows
  exact ⟨invokedAt, List.mem_append_left _ (List.mem_append_right _ List.mem_cons_self)⟩

theorem HoldKept.concat (kept : HoldKept log)
    (isOver : ∀ first dedupeKey time semanticHold second later,
      last = .invoked second dedupeKey later → Ended log first dedupeKey time semanticHold →
        first ≠ second → time + semanticHold ≤ later) :
    HoldKept (log ++ [last]) := by
  intro front first dedupeKey time semanticHold between second later rest split differs notReleased
  rcases append_cons_eq_concat split.symm with ⟨isLog, isLast, _⟩ | ⟨shorter, rfl, isLog⟩
  · exact isOver first dedupeKey time semanticHold second later isLast.symm
      ⟨front, between, isLog.symm, notReleased⟩ differs
  · exact kept front first dedupeKey time semanticHold between second later shorter isLog.symm
      differs notReleased

theorem AttemptKept.concat (kept : AttemptKept log)
    (neverEnds : ∀ first second dedupeKey time semanticHold,
      last = .ended first dedupeKey time semanticHold → Follows log first second dedupeKey →
        first = second) :
    AttemptKept (log ++ [last]) := by
  intro front first dedupeKey invokedAt between second later back time semanticHold rest split
    differs notReleased
  rcases append_cons_eq_concat split.symm with ⟨isLog, isLast, _⟩ | ⟨shorter, rfl, isLog⟩
  · exact absurd (neverEnds first second dedupeKey time semanticHold isLast.symm
      ⟨front, invokedAt, between, later, back, isLog.symm⟩) differs
  · exact kept front first dedupeKey invokedAt between second later back time semanticHold shorter
      isLog.symm differs notReleased

/-- A call that neither waits in the queue nor looks at it. -/
def InternalPromptDispatchArgs.isDirect (args : InternalPromptDispatchArgs) : Bool :=
  match args.behavior with
  | .enqueue => !args.queue.getD true
  | .defer => false

namespace Gate

/-- The calls under way: those in the queue, and those with a live operation. -/
def underWay (gate : Gate) : List (CallId × Prompt) :=
  (gate.queue.map fun entry => (entry.id, entry.prompt)) ++
    (List.range gate.nextOperation).filterMap fun id =>
      ((gate.operations id).filter (·.isLive)).map fun operation =>
        (operation.dispatch.call, operation.dispatch.prompt)

/-- A direct call that no reservation turns away finds no prompt with its key in the queue, and
behind a release no call comes with the key of a dispatch that the gate does not show. -/
def ComesApart (gate : Gate) : Label → Prop
  | .call args _ =>
    (args.isDirect = true → gate.pruneReservation.reservation.isNone = true →
      ∀ entry ∈ gate.queue, entry.prompt.dedupeKey ≠ args.dedupeKey) ∧
    (.released ∈ gate.log → (∃ call ∈ gate.underWay, call.2.dedupeKey = args.dedupeKey) →
      gate.Shows args.dedupeKey)
  | _ => True

variable {gate : Gate} {id : OperationId}

/-! ## Calls under way -/

theorem mem_underWay_of_queue (member : entry ∈ gate.queue) :
    (entry.id, entry.prompt) ∈ gate.underWay :=
  List.mem_append_left _ (List.mem_map.mpr ⟨entry, member, rfl⟩)

theorem mem_underWay_of_operation (isOld : id < gate.nextOperation)
    (isThere : gate.operations id = some operation) (isLive : operation.isLive = true) :
    (operation.dispatch.call, operation.dispatch.prompt) ∈ gate.underWay := by
  refine List.mem_append_right _ (List.mem_filterMap.mpr ⟨id, List.mem_range.mpr isOld, ?_⟩)
  rw [isThere, Option.filter_some_pos isLive]
  rfl

theorem mem_underWay (isUnderWay : (call, prompt) ∈ gate.underWay) :
    { id := call, prompt := prompt } ∈ gate.queue ∨
      ∃ id operation, gate.operations id = some operation ∧ operation.isLive = true ∧
        operation.dispatch.call = call ∧ operation.dispatch.prompt = prompt := by
  rcases List.mem_append.mp isUnderWay with queued | running
  · obtain ⟨entry, member, isEntry⟩ := List.mem_map.mp queued
    cases isEntry
    exact .inl member
  · obtain ⟨id, _, isRunning⟩ := List.mem_filterMap.mp running
    obtain ⟨operation, isThere, isOperation⟩ := Option.map_eq_some_iff.mp isRunning
    cases isOperation
    have ⟨isThere, isLive⟩ := Option.filter_eq_some_iff.mp isThere
    exact .inr ⟨id, operation, isThere, isLive, rfl, rfl⟩

/-- A gate on the way through a step: its calls are known, its clock and its counter of calls are
those of the gate before it, and unused operations are free. -/
structure Within (known : CallId → Prompt → Prop) (gate next : Gate) : Prop where
  queue : ∀ entry ∈ next.queue, known entry.id entry.prompt
  operations : ∀ id operation, next.operations id = some operation → operation.isLive = true →
    known operation.dispatch.call operation.dispatch.prompt
  now : next.now = gate.now
  nextCall : next.nextCall = gate.nextCall
  fresh : ∀ id, next.nextOperation ≤ id → next.operations id = none

theorem Within.underWay (within : Within known gate next)
    (isUnderWay : (call, prompt) ∈ next.underWay) : known call prompt := by
  rcases mem_underWay isUnderWay with queued | ⟨id, operation, isThere, isLive, rfl, rfl⟩
  · exact within.queue _ queued
  · exact within.operations id operation isThere isLive

theorem Within.isOld (within : Within known gate next)
    (isThere : next.operations id = some operation) : id < next.nextOperation := by
  by_contra late
  cases isThere.symm.trans (within.fresh id (Nat.le_of_not_lt late))

/-- A gate on the way through a step that callers have not heard of. -/
structure Silent (known : CallId → Prompt → Prop) (gate next : Gate) : Prop
    extends Within known gate next where
  log : next.log = gate.log
  recent : next.recent = gate.recent

/-- A change that the dedupe window does not depend on. -/
theorem Silent.mono (silent : Silent known gate middle)
    (queue : ∀ entry ∈ next.queue, entry ∈ middle.queue)
    (operations : next.operations = middle.operations)
    (nextOperation : next.nextOperation = middle.nextOperation) (now : next.now = middle.now)
    (nextCall : next.nextCall = middle.nextCall) (log : next.log = middle.log)
    (recent : next.recent = middle.recent) : Silent known gate next where
  queue := fun entry member => silent.queue entry (queue entry member)
  operations := operations ▸ silent.operations
  now := now.trans silent.now
  nextCall := nextCall.trans silent.nextCall
  fresh := by
    rw [operations, nextOperation]
    exact silent.fresh
  log := log.trans silent.log
  recent := recent.trans silent.recent

/-- What callers hear of a step. -/
inductive Course (known : CallId → Prompt → Prop) (gate next : Gate) : Prop
  | silent (log : next.log = gate.log) (recent : next.recent = gate.recent)
  | invokes (call : CallId) (prompt : Prompt) (isKnown : known call prompt)
      (isUnderWay : (call, prompt) ∈ next.underWay)
      (log : next.log = gate.log ++ [.invoked call prompt.dedupeKey gate.now])
      (recent : next.recent = gate.recent)
  | ends (call : CallId) (prompt : Prompt) (isKnown : known call prompt)
      (isAlone : ∀ other otherPrompt, known other otherPrompt →
        otherPrompt.dedupeKey = prompt.dedupeKey → other = call)
      (log : next.log = gate.log ++
        [.ended call prompt.dedupeKey gate.now prompt.semanticDedupeHoldMs])
      (recent : next.recent = (gate.remember prompt).recent)
  | releases (log : next.log = gate.log ++ [.released])

/-- A part of a step, and what callers hear of it. -/
structure Turn (known : CallId → Prompt → Prop) (gate next : Gate) : Prop
    extends Within known gate next where
  course : Course known gate next

theorem Silent.turn (silent : Silent known gate next) : Turn known gate next :=
  { silent.toWithin with course := .silent silent.log silent.recent }

/-! ## Stages -/

theorem Silent.schedule (silent : Silent known gate next) (delayMs : Nat) :
    Silent known gate (next.schedule delayMs) :=
  silent.mono (fun _ member => member) rfl rfl rfl rfl rfl rfl

section

variable (silent : Silent known gate next)
include silent

theorem Silent.reply (call : CallId) (result : DispatchResult) :
    Silent known gate (next.reply call result) :=
  silent.mono (fun _ member => member) rfl rfl rfl rfl rfl rfl

theorem Silent.setRetryState (call : CallId) (state : Option RetryState) :
    Silent known gate (next.setRetryState call state) :=
  silent.mono (fun _ member => member) rfl rfl rfl rfl rfl rfl

end

theorem Silent.still (silent : Silent known gate middle) (still : middle.Still next) :
    Silent known gate next :=
  silent.mono (fun _ member => still.queue ▸ member) still.operations still.nextOperation
    still.now still.nextCall still.log still.recent

/-! ## Drains -/

theorem Within.setOperation (within : Within known gate next)
    (isKnown : operation.isLive = true → known operation.dispatch.call operation.dispatch.prompt)
    (isOld : id < next.nextOperation) :
    Within known gate (next.setOperation id (some operation)) where
  __ := within
  operations := by
    intro other found isFound
    rcases update_eq_some isFound with ⟨-, isNew⟩ | before
    · cases isNew
      exact isKnown
    · exact within.operations other found before
  fresh := update_fresh within.fresh isOld

/-- An operation for a dispatch that has begun. -/
theorem Silent.setOperation (silent : Silent known gate middle)
    (begins : middle.Begins call prompt result)
    (isKnown : Operation.isLive { awaiter, dispatch := result.2 } = true → known call prompt)
    (isOld : id < middle.nextOperation) :
    Turn known gate (result.1.setOperation id (some { awaiter, dispatch := result.2 })) := by
  obtain ⟨⟨queue, -, -, operations, nextOperation, nextCall, -⟩, -, rfl, rfl, now, recent, log⟩ :=
    begins
  have within : Within known gate result.1 :=
    { queue := queue ▸ silent.queue
      operations := operations ▸ silent.operations
      now := now.trans silent.now
      nextCall := nextCall.trans silent.nextCall
      fresh := operations ▸ nextOperation ▸ silent.fresh }
  rw [← nextOperation] at isOld
  refine { within.setOperation isKnown isOld with course := ?_ }
  have recent := recent.trans silent.recent
  rw [silent.log, silent.now] at log
  rcases log with log | log
  · exact .silent log recent
  · have isLive : Operation.isLive { awaiter, dispatch := result.2 } = true := by
      unfold Operation.isLive
      rw [log.1]
      rfl
    refine .invokes result.2.call result.2.prompt (isKnown isLive) ?_ log.2 recent
    have member : ∀ after : Gate, id < after.nextOperation →
        after.operations id = some { awaiter, dispatch := result.2 } →
          (result.2.call, result.2.prompt) ∈ after.underWay := fun _ isOld isThere =>
      mem_underWay_of_operation isOld isThere isLive
    exact member _ isOld (Function.update_self id _ _)

section

variable (silent : Silent known gate next)
include silent

theorem Silent.endOperation (id : OperationId) :
    Silent known gate (next.setOperation id none) where
  __ := silent
  operations := by
    intro other operation isThere
    rcases update_eq_some isThere with ⟨-, isNone⟩ | before
    · cases isNone
    · exact silent.operations other operation before
  fresh := by
    intro other late
    by_cases same : other = id
    · rw [same]
      exact Function.update_self id none next.operations
    · exact (Function.update_of_ne same none next.operations).trans (silent.fresh other late)

theorem Silent.setDraining (draining : Bool) : Silent known gate (next.setDraining draining) :=
  silent.mono (fun _ member => member) rfl rfl rfl rfl rfl rfl

theorem Silent.endDrain (id : OperationId) (drain : Drain) :
    Silent known gate (next.endDrain id drain) := by
  have ended := (silent.setDraining false).endOperation id
  unfold Gate.endDrain
  split
  · exact ended
  · exact ended.reply _ _

end

theorem Silent.setQueue {queue : List Entry} (silent : Silent known gate next)
    (isKnown : ∀ entry ∈ queue, known entry.id entry.prompt) :
    Silent known gate (next.setQueue queue) :=
  { silent with queue := isKnown }

theorem Silent.removeEntry (silent : Silent known gate next) (call : CallId) :
    Silent known gate (next.removeEntry call) :=
  silent.mono (fun _ member => (List.mem_filter.mp member).1) rfl rfl rfl rfl rfl rfl

theorem Silent.land (silent : Silent known gate next) (call : CallId) :
    Silent known gate (next.land call) := by
  unfold Gate.land
  split
  · exact silent.mono (fun _ member => member) rfl rfl rfl rfl rfl rfl
  · exact silent

section

variable (silent : Silent known gate middle)
include silent

/-- The loop of a drain invokes the dispatch function of at most one entry. -/
theorem Silent.drainLoop (isOld : id < middle.nextOperation)
    (looped : middle.drainLoop turns id drain decision = some next) : Turn known gate next := by
  obtain ⟨queue, perm, loops⟩ := loops_of_drainLoop looped
  have rotated := silent.setQueue fun entry member => silent.queue entry (perm.mem_iff.mp member)
  cases loops with
  | ends drain before still _ _ isNext =>
    exact isNext ▸ ((rotated.still still).endDrain id drain).turn
  | awaits drain entry result member _ _ begins isNext =>
    have inFlight : Silent known gate ((middle.setQueue queue).setInFlight (some entry)) :=
      rotated.mono (fun _ member => member) rfl rfl rfl rfl rfl rfl
    exact isNext ▸ inFlight.setOperation begins (fun _ => rotated.queue entry member) isOld

theorem Silent.drainPromptQueue (drained : middle.drainPromptQueue awaited decision = some next) :
    Turn known gate next := by
  unfold Gate.drainPromptQueue at drained
  split at drained
  next =>
    split at drained
    next =>
      cases drained
      exact silent.turn
    next =>
      cases drained
      exact (silent.reply _ _).turn
  next =>
    have began : Silent known gate middle.beginDrain :=
      { silent with fresh := fun id late => silent.fresh id (Nat.le_of_succ_le late) }
    refine began.drainLoop ?_ drained
    exact Nat.lt_succ_self middle.nextOperation

/-- A drain goes on with the result of a dispatch. -/
theorem Silent.continueDrain (isKnown : known entry.id entry.prompt)
    (isOld : id < middle.nextOperation)
    (continued : middle.continueDrain id drain entry result decision = some next) :
    Turn known gate next := by
  have landed := silent.land entry.id
  have isLanded : id < (middle.land entry.id).nextOperation :=
    Nat.lt_of_lt_of_eq isOld (sameOperations_land middle entry.id).nextOperation.symm
  cases continues_of_continueDrain continued with
  | rotates drain state _ _ _ ran =>
    refine ((landed.setRetryState entry.id state).setQueue ?_).drainLoop isLanded ran
    intro queued member
    rcases List.mem_append.mp member with isRest | isLast
    · exact landed.queue queued (List.mem_of_mem_tail isRest)
    · exact List.mem_singleton.mp isLast ▸ isKnown
  | stays drain before _ still _ _ isNext =>
    exact isNext ▸ ((landed.still still).endDrain id drain).turn
  | drops drain _ _ _ ran => exact (landed.removeEntry entry.id).drainLoop isLanded ran
  | ends drain before _ _ _ still _ _ isNext =>
    exact isNext ▸ (((landed.removeEntry entry.id).still still).endDrain id drain).turn

/-! ## Calls -/

/-- A call that finds a reservation returns at once. -/
theorem Silent.dispatchDirectly
    (isKnown : middle.pruneReservation.reservation = none → known call prompt)
    (decision : Decision) : Turn known gate (middle.dispatchDirectly call prompt decision) := by
  have numbered : Silent known gate (middle.setNextOperation (middle.nextOperation + 1)) :=
    { silent with fresh := fun id late => silent.fresh id (Nat.le_of_succ_le late) }
  refine numbered.setOperation (begins_dispatchAfterSessionIdle _ call prompt decision) ?_
    (Nat.lt_succ_self middle.nextOperation)
  intro isLive
  have pending := (Bool.or_eq_true_iff.mp isLive).resolve_right (by simp)
  have isFree := ((finds_dispatchAfterSessionIdle _ call prompt decision).free pending).1
  rw [reservation_pruneReservation] at isFree
  exact isKnown ((reservation_pruneReservation middle).trans isFree)

/-- A prompt that the gate does not show is pushed into the queue. -/
theorem Silent.enqueue (isKnown : ¬ middle.Shows entry.prompt.dedupeKey → known entry.id entry.prompt)
    (enqueued : middle.enqueueInternalPrompt entry decision = some next) :
    Turn known gate next := by
  have pruned := silent.still (still_pruneReservation _)
  have pushed : known entry.id entry.prompt → Silent known gate (middle.push entry) := by
    intro isNew
    refine pruned.setQueue ?_
    intro queued member
    rcases List.mem_append.mp member with isOld | isLast
    · exact pruned.queue queued isOld
    · exact List.mem_singleton.mp isLast ▸ isNew
  cases enqueues_of_enqueue enqueued with
  | coalesced result isNext => exact isNext ▸ (pruned.reply _ _).turn
  | waits notShown result isNext =>
    exact isNext ▸ (((pushed (isKnown notShown)).schedule 0).reply _ _).turn
  | drains notShown _ drained => exact (pushed (isKnown notShown)).drainPromptQueue drained

end

/-! ## The window -/

/-- The semantic holds of the other calls with the key of a prompt are over. -/
def Clear (gate : Gate) (call : CallId) (prompt : Prompt) : Prop :=
  ∀ first time semanticHold, Ended gate.log first prompt.dedupeKey time semanticHold →
    first ≠ call → time + semanticHold ≤ gate.now

/-- What the gate keeps of its calls.  The calls under way have different keys. -/
structure Deduped (gate : Gate) : Prop where
  window : DedupeWindow gate.log
  clear : ∀ call prompt, (call, prompt) ∈ gate.underWay → gate.Clear call prompt
  table : ∀ first dedupeKey time semanticHold, Ended gate.log first dedupeKey time semanticHold →
    gate.now < time + semanticHold →
      ∃ recent, gate.recent dedupeKey = some recent ∧ time + semanticHold ≤ recent.expiresAt
  single : ∀ call prompt other, (call, prompt) ∈ gate.underWay → (call, other) ∈ gate.underWay →
    prompt = other
  apart : ∀ call prompt other otherPrompt, (call, prompt) ∈ gate.underWay →
    (other, otherPrompt) ∈ gate.underWay → prompt.dedupeKey = otherPrompt.dedupeKey → call = other
  holds : ∀ call dedupeKey time semanticHold prompt,
    .ended call dedupeKey time semanticHold ∈ gate.log → (call, prompt) ∈ gate.underWay →
      prompt.semanticDedupeHoldMs = semanticHold
  past : ∀ call dedupeKey time semanticHold,
    .ended call dedupeKey time semanticHold ∈ gate.log → time ≤ gate.now ∧ call < gate.nextCall
  invoked : ∀ call dedupeKey time, .invoked call dedupeKey time ∈ gate.log → call < gate.nextCall
  isOld : ∀ call prompt, (call, prompt) ∈ gate.underWay → call < gate.nextCall
  follows : ∀ first second dedupeKey, Follows gate.log first second dedupeKey →
    ∀ prompt, (first, prompt) ∈ gate.underWay → prompt.dedupeKey = dedupeKey →
      ∃ other, (second, other) ∈ gate.underWay ∧ other.dedupeKey = dedupeKey
  fresh : ∀ id, gate.nextOperation ≤ id → gate.operations id = none

/-- The calls that a step may deal with. -/
structure Admits (known : CallId → Prompt → Prop) (gate : Gate) : Prop where
  clear : ∀ call prompt, known call prompt → gate.Clear call prompt
  single : ∀ call prompt other, known call prompt → known call other → prompt = other
  apart : ∀ call prompt other otherPrompt, known call prompt → known other otherPrompt →
    prompt.dedupeKey = otherPrompt.dedupeKey → call = other
  holds : ∀ call dedupeKey time semanticHold prompt,
    .ended call dedupeKey time semanticHold ∈ gate.log → known call prompt →
      prompt.semanticDedupeHoldMs = semanticHold
  isOld : ∀ call prompt, known call prompt → call < gate.nextCall
  isNew : ∀ call prompt, known call prompt →
    (call, prompt) ∈ gate.underWay ∨ ∀ dedupeKey time, .invoked call dedupeKey time ∉ gate.log

theorem Deduped.admits (deduped : gate.Deduped) :
    Admits (fun call prompt => (call, prompt) ∈ gate.underWay) gate where
  __ := deduped
  isNew := fun _ _ isUnderWay => .inl isUnderWay

/-- Two calls that followed each other are no longer under way both. -/
theorem Deduped.same_of_follows (deduped : gate.Deduped) (admits : Admits known gate)
    (follows : Follows gate.log first second dedupeKey)
    (isKnown : known first prompt) (sameKey : prompt.dedupeKey = dedupeKey) : first = second := by
  obtain ⟨time, isInvoked⟩ := follows.mem
  rcases admits.isNew first prompt isKnown with isUnderWay | isNew
  · obtain ⟨other, isOther, otherKey⟩ :=
      deduped.follows first second dedupeKey follows prompt isUnderWay sameKey
    exact deduped.apart first prompt second other isUnderWay isOther (sameKey.trans otherKey.symm)
  · exact absurd isInvoked (isNew dedupeKey time)

section

variable (turn : Turn known gate next)
include turn

/-- An attempt that has ended, before this step or in it. -/
theorem Turn.ended (ended : Ended next.log call dedupeKey time semanticHold) :
    Ended gate.log call dedupeKey time semanticHold ∨
      ∃ prompt, known call prompt ∧ prompt.dedupeKey = dedupeKey ∧ time = gate.now ∧
        semanticHold = prompt.semanticDedupeHoldMs ∧
        next.recent = (gate.remember prompt).recent ∧
        ∀ other otherPrompt, known other otherPrompt → otherPrompt.dedupeKey = dedupeKey →
          other = call := by
  cases turn.course with
  | silent log recent => exact .inl (log ▸ ended)
  | invokes other prompt isKnown isUnderWay log recent =>
    rw [log] at ended
    rcases ended.of_concat with isLast | ⟨_, before⟩
    · cases isLast
    · exact .inl before
  | ends other prompt isKnown isAlone log recent =>
    rw [log] at ended
    rcases ended.of_concat with isLast | ⟨_, before⟩
    · cases isLast
      exact .inr ⟨prompt, isKnown, rfl, rfl, rfl, recent, isAlone⟩
    · exact .inl before
  | releases log =>
    rw [log] at ended
    rcases ended.of_concat with isLast | ⟨notReleased, _⟩
    · cases isLast
    · exact absurd rfl notReleased

/-- The events of a log behind a step. -/
theorem Turn.mem_log (member : event ∈ next.log) :
    event ∈ gate.log ∨ event = .released ∨ ∃ call prompt, known call prompt ∧
      (event = .invoked call prompt.dedupeKey gate.now ∨
        event = .ended call prompt.dedupeKey gate.now prompt.semanticDedupeHoldMs) := by
  cases turn.course with
  | silent log recent => exact .inl (log ▸ member)
  | invokes call prompt isKnown isUnderWay log recent =>
    rw [log, List.mem_append, List.mem_singleton] at member
    exact member.imp_right fun isLast => .inr ⟨call, prompt, isKnown, .inl isLast⟩
  | ends call prompt isKnown isAlone log recent =>
    rw [log, List.mem_append, List.mem_singleton] at member
    exact member.imp_right fun isLast => .inr ⟨call, prompt, isKnown, .inr isLast⟩
  | releases log =>
    rw [log, List.mem_append, List.mem_singleton] at member
    exact member.imp_right .inl

theorem Turn.mem_of_mem (member : event ∈ gate.log) : event ∈ next.log := by
  cases turn.course with
  | silent log recent => exact log ▸ member
  | invokes _ _ _ _ log | ends _ _ _ _ log | releases log =>
    exact log ▸ List.mem_append_left _ member

end

section

variable (deduped : gate.Deduped)
include deduped

section

variable (admits : Admits known gate)
include admits

theorem Deduped.window_turn (turn : Turn known gate next) : DedupeWindow next.log := by
  obtain ⟨holdKept, attemptKept⟩ := deduped.window
  cases turn.course with
  | silent log recent =>
    rw [log]
    exact ⟨holdKept, attemptKept⟩
  | invokes call prompt isKnown isUnderWay log recent =>
    rw [log]
    refine ⟨holdKept.concat ?_, attemptKept.concat nofun⟩
    intro first dedupeKey time semanticHold second later isLast ended differs
    cases isLast
    exact admits.clear call prompt isKnown first time semanticHold ended differs
  | ends call prompt isKnown isAlone log recent =>
    rw [log]
    refine ⟨holdKept.concat nofun, attemptKept.concat ?_⟩
    intro first second dedupeKey time semanticHold isLast follows
    cases isLast
    exact deduped.same_of_follows admits follows isKnown rfl
  | releases log =>
    rw [log]
    exact ⟨holdKept.concat nofun, attemptKept.concat nofun⟩

/-- The table still has the longest hold. -/
theorem Deduped.table_turn (turn : Turn known gate next)
    (ended : Ended next.log first dedupeKey time semanticHold)
    (runs : gate.now < time + semanticHold) :
    ∃ recent, next.recent dedupeKey = some recent ∧ time + semanticHold ≤ recent.expiresAt := by
  have remembered : ∀ prompt : Prompt, prompt.dedupeKey = dedupeKey →
      prompt.semanticDedupeHoldMs = semanticHold → time ≤ gate.now →
        next.recent = (gate.remember prompt).recent →
          ∃ recent, next.recent dedupeKey = some recent ∧
            time + semanticHold ≤ recent.expiresAt := by
    rintro prompt rfl rfl isPast recent
    have positive : prompt.semanticDedupeHoldMs ≠ 0 := by
      intro isZero
      rw [isZero] at runs
      exact absurd isPast (Nat.not_le_of_lt runs)
    refine ⟨{ source := prompt.source, expiresAt := gate.now + prompt.semanticDedupeHoldMs }, ?_,
      Nat.add_le_add_right isPast _⟩
    rw [recent, remember, if_neg positive]
    exact Function.update_self _ _ _
  rcases turn.ended ended with before | ⟨prompt, _, isKey, rfl, isHold, recent, _⟩
  · have stays := deduped.table first dedupeKey time semanticHold before runs
    cases turn.course with
    | silent log recent | invokes call prompt isKnown isUnderWay log recent => exact recent ▸ stays
    | ends call prompt isKnown isAlone log recent =>
      by_cases sameKey : prompt.dedupeKey = dedupeKey
      · by_cases sameCall : first = call
        · subst sameCall
          exact remembered prompt sameKey
            (admits.holds first dedupeKey time semanticHold prompt before.mem isKnown)
            (deduped.past first dedupeKey time semanticHold before.mem).1 recent
        · subst sameKey
          exact absurd runs (Nat.not_lt_of_le
            (admits.clear call prompt isKnown first time semanticHold before sameCall))
      · have same : next.recent dedupeKey = gate.recent dedupeKey := by
          rw [recent, remember]
          split
          · rfl
          · exact Function.update_of_ne (Ne.symm sameKey) _ _
        rw [same]
        exact stays
    | releases log =>
      rw [log] at ended
      rcases ended.of_concat with isLast | ⟨notReleased, _⟩
      · cases isLast
      · exact absurd rfl notReleased
  · exact remembered prompt isKey isHold.symm (Nat.le_refl _) recent

/-- A step that deals only with calls of different keys keeps the window. -/
theorem Deduped.turn (turn : Turn known gate next) : next.Deduped where
  window := deduped.window_turn admits turn
  clear := by
    intro call prompt isUnderWay first time semanticHold ended differs
    have isKnown := turn.underWay isUnderWay
    rw [turn.now]
    rcases turn.ended ended with before | ⟨_, _, _, _, _, _, isAlone⟩
    · exact admits.clear call prompt isKnown first time semanticHold before differs
    · exact absurd (isAlone call prompt isKnown rfl) (Ne.symm differs)
  table := by
    intro first dedupeKey time semanticHold ended runs
    exact deduped.table_turn admits turn ended (turn.now ▸ runs)
  single := fun call prompt other isUnderWay isOther =>
    admits.single call prompt other (turn.underWay isUnderWay) (turn.underWay isOther)
  apart := fun call prompt other otherPrompt isUnderWay isOther =>
    admits.apart call prompt other otherPrompt (turn.underWay isUnderWay) (turn.underWay isOther)
  holds := by
    intro call dedupeKey time semanticHold prompt member isUnderWay
    have isKnown := turn.underWay isUnderWay
    rcases turn.mem_log member with before | isLast | ⟨other, otherPrompt, isOther, isLast | isLast⟩
    · exact admits.holds call dedupeKey time semanticHold prompt before isKnown
    · cases isLast
    · cases isLast
    · cases isLast
      rw [admits.single call prompt otherPrompt isKnown isOther]
  past := by
    intro call dedupeKey time semanticHold member
    rw [turn.now, turn.nextCall]
    rcases turn.mem_log member with before | isLast | ⟨other, otherPrompt, isOther, isLast | isLast⟩
    · exact deduped.past call dedupeKey time semanticHold before
    · cases isLast
    · cases isLast
    · cases isLast
      exact ⟨Nat.le_refl _, admits.isOld call otherPrompt isOther⟩
  invoked := by
    intro call dedupeKey time member
    rw [turn.nextCall]
    rcases turn.mem_log member with before | isLast | ⟨other, otherPrompt, isOther, isLast | isLast⟩
    · exact deduped.invoked call dedupeKey time before
    · cases isLast
    · cases isLast
      exact admits.isOld call otherPrompt isOther
    · cases isLast
  isOld := by
    intro call prompt isUnderWay
    rw [turn.nextCall]
    exact admits.isOld call prompt (turn.underWay isUnderWay)
  follows := by
    intro first second dedupeKey follows prompt isUnderWay sameKey
    have isKnown := turn.underWay isUnderWay
    have old : Follows gate.log first second dedupeKey →
        ∃ other, (second, other) ∈ next.underWay ∧ other.dedupeKey = dedupeKey := by
      intro before
      cases deduped.same_of_follows admits before isKnown sameKey
      exact ⟨prompt, isUnderWay, sameKey⟩
    cases turn.course with
    | silent log recent => exact old (log ▸ follows)
    | invokes call otherPrompt _ isOther log recent =>
      rw [log] at follows
      rcases follows.of_concat with before | ⟨later, isLast⟩
      · exact old before
      · cases isLast
        exact ⟨otherPrompt, isOther, rfl⟩
    | ends call otherPrompt _ isAlone log recent | releases log =>
      rw [log] at follows
      exact old (follows.of_concat.resolve_right nofun)
  fresh := turn.fresh

end

/-! ## Steps -/

theorem Deduped.silent :
    Silent (fun call prompt => (call, prompt) ∈ gate.underWay) gate gate where
  queue := fun _ member => mem_underWay_of_queue member
  operations := by
    intro id operation isThere isLive
    refine mem_underWay_of_operation ?_ isThere isLive
    by_contra late
    cases isThere.symm.trans (deduped.fresh id (Nat.le_of_not_lt late))
  now := rfl
  nextCall := rfl
  fresh := deduped.fresh
  log := rfl
  recent := rfl

end

/-- The entry of a call. -/
def enter (gate : Gate) : Gate :=
  { gate with nextCall := gate.nextCall + 1 }.note (.entered gate.nextCall)

theorem Deduped.enter (deduped : gate.Deduped) : gate.enter.Deduped where
  __ := deduped
  window := ⟨deduped.window.1.concat nofun, deduped.window.2.concat nofun⟩
  clear := by
    intro call prompt isUnderWay first time semanticHold ended
    exact deduped.clear call prompt isUnderWay first time semanticHold
      (ended.of_concat.resolve_left nofun).2
  table := fun first dedupeKey time semanticHold ended =>
    deduped.table first dedupeKey time semanticHold (ended.of_concat.resolve_left nofun).2
  holds := by
    intro call dedupeKey time semanticHold prompt member
    exact deduped.holds call dedupeKey time semanticHold prompt
      ((List.mem_append.mp member).resolve_right (by simp))
  past := by
    intro call dedupeKey time semanticHold member
    have before := deduped.past call dedupeKey time semanticHold
      ((List.mem_append.mp member).resolve_right (by simp))
    exact ⟨before.1, Nat.lt_succ_of_lt before.2⟩
  invoked := by
    intro call dedupeKey time member
    exact Nat.lt_succ_of_lt (deduped.invoked call dedupeKey time
      ((List.mem_append.mp member).resolve_right (by simp)))
  isOld := fun call prompt isUnderWay => Nat.lt_succ_of_lt (deduped.isOld call prompt isUnderWay)
  follows := fun first second dedupeKey follows =>
    deduped.follows first second dedupeKey (follows.of_concat.resolve_right nofun)

theorem Deduped.tick (deduped : gate.Deduped) (elapsed : Nat) :
    { gate with now := gate.now + elapsed }.Deduped :=
  { deduped with
    clear := fun call prompt isUnderWay first time semanticHold ended differs =>
      Nat.le_trans (deduped.clear call prompt isUnderWay first time semanticHold ended differs)
        (Nat.le_add_right _ _)
    table := fun first dedupeKey time semanticHold ended runs =>
      deduped.table first dedupeKey time semanticHold ended
        (Nat.lt_of_le_of_lt (Nat.le_add_right _ _) runs)
    past := fun call dedupeKey time semanticHold member =>
      have before := deduped.past call dedupeKey time semanticHold member
      ⟨Nat.le_trans before.1 (Nat.le_add_right _ _), before.2⟩ }

/-- A call that finds no recent dispatch, and no call under way with its key. -/
theorem Deduped.admitsNew (deduped : gate.Deduped)
    (noRecent : gate.recentDispatch prompt.dedupeKey = none)
    (isApart : ∀ call ∈ gate.underWay, call.2.dedupeKey ≠ prompt.dedupeKey) :
    Admits (fun call other => (call, other) ∈ gate.underWay ∨
      call = gate.nextCall ∧ other = prompt) gate.enter where
  clear := by
    rintro call other (isUnderWay | ⟨rfl, rfl⟩) first time semanticHold ended differs
    · exact deduped.enter.clear call other isUnderWay first time semanticHold ended differs
    · by_contra runs
      obtain ⟨recent, isRecent, isLate⟩ := deduped.enter.table first other.dedupeKey time
        semanticHold ended (Nat.lt_of_not_le runs)
      have isOver : ¬ gate.now < recent.expiresAt := by
        simpa using Option.filter_eq_none_iff.mp noRecent recent isRecent
      exact isOver (Nat.lt_of_lt_of_le (Nat.lt_of_not_le runs) isLate)
  single := by
    rintro call prompt' other (isUnderWay | ⟨rfl, rfl⟩) (isOther | ⟨isNew, rfl⟩)
    · exact deduped.single call prompt' other isUnderWay isOther
    · exact absurd (isNew ▸ deduped.isOld call prompt' isUnderWay) (Nat.lt_irrefl _)
    · exact absurd (deduped.isOld _ other isOther) (Nat.lt_irrefl _)
    · rfl
  apart := by
    rintro call prompt' other otherPrompt (isUnderWay | ⟨rfl, rfl⟩) (isOther | ⟨rfl, rfl⟩) sameKey
    · exact deduped.apart call prompt' other otherPrompt isUnderWay isOther sameKey
    · exact absurd sameKey (isApart (call, prompt') isUnderWay)
    · exact absurd sameKey.symm (isApart (other, otherPrompt) isOther)
    · rfl
  holds := by
    rintro call dedupeKey time semanticHold other member (isUnderWay | ⟨rfl, rfl⟩)
    · exact deduped.enter.holds call dedupeKey time semanticHold other member isUnderWay
    · have before := (List.mem_append.mp member).resolve_right (by simp)
      exact absurd (deduped.past _ dedupeKey time semanticHold before).2 (Nat.lt_irrefl _)
  isOld := by
    rintro call other (isUnderWay | ⟨rfl, rfl⟩)
    · exact deduped.enter.isOld call other isUnderWay
    · exact Nat.lt_succ_self gate.nextCall
  isNew := by
    rintro call other (isUnderWay | ⟨rfl, rfl⟩)
    · exact .inl isUnderWay
    · refine .inr fun dedupeKey time member => ?_
      have before := (List.mem_append.mp member).resolve_right (by simp)
      exact absurd (deduped.invoked _ dedupeKey time before) (Nat.lt_irrefl _)

theorem reservation_enter (gate : Gate) :
    gate.enter.pruneReservation.reservation = gate.pruneReservation.reservation :=
  (reservation_pruneReservation gate.enter).trans (reservation_pruneReservation gate).symm

theorem queue_of_queuedPromptBlocker (notBlocked : ¬ gate.queuedPromptBlocker.isSome = true) :
    gate.queue = [] := by
  unfold queuedPromptBlocker at notBlocked
  split at notBlocked
  · exact absurd rfl notBlocked
  · simpa using notBlocked

theorem turn_call (deduped : gate.Deduped)
    (shows : (∃ call ∈ gate.underWay, call.2.dedupeKey = args.dedupeKey) → gate.Shows args.dedupeKey)
    (passes : args.isDirect = true → gate.pruneReservation.reservation.isNone = true →
      ∀ entry ∈ gate.queue, entry.prompt.dedupeKey ≠ args.dedupeKey)
    (called : gate.dispatchInternalPrompt args decision = some next) :
    ∃ known, Admits known gate.enter ∧ Turn known gate.enter next := by
  have silent := deduped.enter.silent
  have pruned := silent.still (still_pruneReservation _)
  have turns : Turn _ gate.enter next → ∃ known, Admits known gate.enter ∧
      Turn known gate.enter next := fun turn => ⟨_, deduped.enter.admits, turn⟩
  have admitted : gate.recentDispatch args.prompt.dedupeKey = none →
      ¬ gate.Shows args.prompt.dedupeKey →
      (∀ known : CallId → Prompt → Prop, known gate.nextCall args.prompt →
        (∀ call other, (call, other) ∈ gate.underWay → known call other) →
          Turn known gate.enter next) →
      ∃ known, Admits known gate.enter ∧ Turn known gate.enter next := fun noRecent notShown turn =>
    ⟨_, deduped.admitsNew noRecent fun call isUnderWay sameKey =>
      notShown (shows ⟨call, isUnderWay, sameKey⟩), turn _ (.inr ⟨rfl, rfl⟩) fun _ _ => .inl⟩
  have knows : ∀ known : CallId → Prompt → Prop,
      (∀ call other, (call, other) ∈ gate.underWay → known call other) →
        Silent known gate.enter gate.enter := fun known isKnown =>
    { silent with
      queue := fun entry member => isKnown _ _ (silent.queue entry member)
      operations := fun id operation isThere isLive =>
        isKnown _ _ (silent.operations id operation isThere isLive) }
  revert called turns admitted
  fun_cases gate.dispatchInternalPrompt args decision <;> intro called turns admitted
  case case7 noRecent _ =>
    by_cases isShown : gate.Shows args.prompt.dedupeKey
    · refine turns (silent.enqueue (fun notShown => absurd ?_ notShown) called)
      refine isShown.imp_right ?_
      rintro ⟨active, isActive, sameKey⟩
      exact ⟨active, reservation_enter gate ▸ isActive, sameKey⟩
    · exact admitted noRecent isShown fun known isNew isKnown =>
        (knows known isKnown).enqueue (fun _ => isNew) called
  all_goals cases called
  case case1 | case6 => exact turns (silent.reply _ _).turn
  case case2 | case3 | case4 => exact turns (pruned.reply _ _).turn
  case case5 isFree notBlocked noRecent =>
    have isEmpty := queue_of_queuedPromptBlocker fun isSome => notBlocked (.inl isSome)
    rw [(quiet_pruneReservation _).queue] at isEmpty
    refine admitted ?_ ?_ fun known isNew isKnown =>
      ((knows known isKnown).still (still_pruneReservation _)).dispatchDirectly (fun _ => isNew)
        decision
    · rw [← noRecent]
      change _ = gate.enter.pruneReservation.recentDispatch args.prompt.dedupeKey
      unfold recentDispatch
      rw [pruned.recent, pruned.now]
      rfl
    · rintro (⟨entry, member, -⟩ | ⟨active, isActive, -⟩)
      · cases isEmpty ▸ member
      · cases (reservation_enter gate).symm.trans isFree ▸ isActive
  case case8 isEnqueue noRecent isDirect =>
    by_cases isFree : gate.pruneReservation.reservation = none
    · refine admitted noRecent ?_ fun known isNew isKnown =>
        (knows known isKnown).dispatchDirectly (fun _ => isNew) decision
      have isDirect : args.isDirect = true := by
        unfold InternalPromptDispatchArgs.isDirect
        rw [isEnqueue]
        simpa using isDirect
      rintro (⟨entry, member, sameKey⟩ | ⟨active, isActive, -⟩)
      · exact passes isDirect (isFree ▸ rfl) entry member sameKey
      · cases isFree ▸ isActive
    · exact turns (silent.dispatchDirectly
        (fun isNone => absurd ((reservation_enter gate).symm.trans isNone) isFree) decision)

/-- An attempt that ends without an exception of a callback. -/
theorem Silent.attempt (silent : Silent known gate gate)
    (isKnown : known dispatch.call dispatch.prompt)
    (isAlone : ∀ other otherPrompt, known other otherPrompt →
      otherPrompt.dedupeKey = dispatch.prompt.dedupeKey → other = dispatch.call)
    (isOld : id < gate.nextOperation)
    (awaiter : Awaiter)
    (result : Gate × Dispatch)
    (stage : Stage)
    (isResult : result = ((gate.endAttempt dispatch).remember dispatch.prompt).finish dispatch true
      stage) :
    Turn known gate (result.1.setOperation id (some { awaiter, dispatch := result.2 })) := by
  subst isResult
  have remembered : ∀ before : Gate, Silent known before before →
      Silent known { before with recent := (before.remember dispatch.prompt).recent }
        (before.remember dispatch.prompt) := by
    intro before silent
    unfold remember
    split
    · exact silent
    · exact { silent with log := rfl, recent := rfl }
  have finished := still_finishReservation ((gate.endAttempt dispatch).remember dispatch.prompt)
    dispatch.token true dispatch.prompt.postDispatchHoldMs
  have ended :=
    (remembered (gate.endAttempt dispatch) { silent with log := rfl, recent := rfl }).still finished
  have counter := finished.nextOperation.trans (quiet_remember _ dispatch.prompt).nextOperation
  refine { Within.setOperation ?_ (fun _ => isKnown) (Nat.lt_of_lt_of_eq isOld counter.symm) with course := ?_ }
  · exact ⟨ended.queue, ended.operations, ended.now, ended.nextCall, ended.fresh⟩
  · refine .ends dispatch.call dispatch.prompt isKnown isAlone ended.log (ended.recent.trans ?_)
    unfold remember
    split <;> rfl

theorem turn_settle (deduped : gate.Deduped) (returns : answer ≠ .callbackThrew)
    (stepped : gate.step (.settle id answer decision) = some next) :
    Turn (fun call prompt => (call, prompt) ∈ gate.underWay) gate next := by
  obtain ⟨operation, isThere, moved⟩ := Option.bind_eq_some_iff.mp stepped
  obtain ⟨result, proceeded, rfl⟩ := Option.map_eq_some_iff.mp moved
  have silent := deduped.silent
  have isLive : operation.isLive = true :=
    Bool.or_eq_true_iff.mpr (.inl (pending_of_proceed proceeded))
  have isKnown := silent.operations id operation isThere isLive
  have isOld := silent.isOld isThere
  have isAlone : ∀ other otherPrompt, (other, otherPrompt) ∈ gate.underWay →
      otherPrompt.dedupeKey = operation.dispatch.prompt.dedupeKey →
        other = operation.dispatch.call := fun other otherPrompt isOther sameKey =>
    deduped.apart other otherPrompt _ _ isOther isKnown sameKey
  cases proceeds_of_proceed proceeded with
  | begins begins => exact silent.setOperation begins (fun _ => isKnown) isOld
  | attempted stage _ isResult =>
    exact silent.attempt isKnown isAlone isOld operation.awaiter result stage isResult
  | threw isThrow _ => exact absurd isThrow returns

theorem turn_continue (deduped : gate.Deduped)
    (stepped : gate.step (.continue id decision) = some next) :
    Turn (fun call prompt => (call, prompt) ∈ gate.underWay) gate next := by
  obtain ⟨operation, isThere, continued⟩ := Option.bind_eq_some_iff.mp stepped
  have silent := deduped.silent
  unfold continueOperation at continued
  dsimp only at continued
  split at continued
  next result drain isReturned isDrain =>
    have isLive : operation.isLive = true := by
      simp [Operation.isLive, isReturned, isDrain]
    exact silent.continueDrain (silent.operations id operation isThere isLive)
      (silent.isOld isThere) continued
  next =>
    cases continued
    exact ((silent.endOperation id).reply _ _).turn
  next =>
    cases continued
    exact ((silent.setDraining false).endOperation id).turn
  next =>
    cases continued
    exact (silent.endOperation id).turn
  next => cases continued

theorem turn_release (deduped : gate.Deduped) :
    Turn (fun call prompt => (call, prompt) ∈ gate.underWay) gate
      (gate.releaseReservation request) := by
  have silent := deduped.silent
  unfold releaseReservation
  split
  · exact silent.turn
  · split
    · dsimp only
      unfold releaseInFlight
      split
      · exact { silent with course := .releases rfl }
      · split
        · exact
            { silent with
              queue := fun entry member => silent.queue entry (List.mem_filter.mp member).1
              course := .releases rfl }
        · exact { silent with course := .releases rfl }
    · exact silent.turn

/-- What the gate keeps in a run without thrown callbacks. -/
def Guarded (gate : Gate) : Prop :=
  gate.Deduped ∧ (.released ∉ gate.log → gate.Tracked)

/-- The gate shows the calls under way, up to a release. -/
theorem Guarded.shows (guarded : gate.Guarded) (notReleased : .released ∉ gate.log)
    (isUnderWay : ∃ call ∈ gate.underWay, call.2.dedupeKey = dedupeKey) :
    gate.Shows dedupeKey := by
  obtain ⟨⟨call, prompt⟩, member, rfl⟩ := isUnderWay
  rcases mem_underWay member with queued | ⟨id, operation, isThere, isLive, rfl, rfl⟩
  · exact .inl ⟨_, queued, rfl⟩
  · exact (guarded.2 notReleased).shows isThere isLive

/-- A step under the conditions of the window. -/
theorem guarded_step (gate : Gate) (label : Label) (next : Gate) (guarded : gate.Guarded)
    (condition : gate.ComesApart label ∧ CallbacksReturn label)
    (stepped : gate.step label = some next) : next.Guarded := by
  have deduped := guarded.1
  have tracked : (∀ event ∈ gate.log, event ∈ next.log) → .released ∉ next.log → next.Tracked :=
    fun grows notReleased =>
      (guarded.2 fun released => notReleased (grows _ released)).step stepped notReleased
  have turns : Turn (fun call prompt => (call, prompt) ∈ gate.underWay) gate next →
      next.Guarded := fun turn =>
    ⟨deduped.turn deduped.admits turn, tracked fun _ => turn.mem_of_mem⟩
  cases label with
  | call args decision =>
    have shows : (∃ call ∈ gate.underWay, call.2.dedupeKey = args.dedupeKey) →
        gate.Shows args.dedupeKey := by
      by_cases released : .released ∈ gate.log
      · exact condition.1.2 released
      · exact guarded.shows released
    obtain ⟨known, admits, turn⟩ := turn_call deduped shows condition.1.1 stepped
    exact ⟨deduped.enter.turn admits turn,
      tracked fun _ member => turn.mem_of_mem (List.mem_append_left _ member)⟩
  | fire decision =>
    simp only [step] at stepped
    split at stepped
    · have timed : Silent (fun call prompt => (call, prompt) ∈ gate.underWay) gate
          (gate.setTimer none) :=
        deduped.silent.mono (fun _ member => member) rfl rfl rfl rfl rfl rfl
      exact turns (timed.drainPromptQueue stepped)
    · cases stepped
  | settle id answer decision => exact turns (turn_settle deduped condition.2 stepped)
  | «continue» id decision => exact turns (turn_continue deduped stepped)
  | release request =>
    cases stepped
    exact turns (turn_release deduped)
  | prune =>
    cases stepped
    exact turns (deduped.silent.still (still_pruneReservation _)).turn
  | tick elapsed =>
    cases stepped
    exact ⟨deduped.tick elapsed, tracked fun _ member => member⟩

theorem deduped_start : start.Deduped where
  window := by
    constructor
    · intro front first dedupeKey time semanticHold between second later rest split
      simp [start] at split
    · intro front first dedupeKey invokedAt between second later back time semanticHold rest split
      simp [start] at split
  clear := nofun
  table := fun _ _ _ _ ended => absurd ended.mem List.not_mem_nil
  single := nofun
  apart := nofun
  holds := nofun
  past := nofun
  invoked := nofun
  isOld := nofun
  follows := by
    intro first second dedupeKey follows
    obtain ⟨time, member⟩ := follows.mem
    exact absurd member List.not_mem_nil
  fresh := fun _ _ => rfl

instance : (label : Label) → Decidable (CallbacksReturn label) := by
  intro label
  unfold CallbacksReturn
  split <;> infer_instance

instance (gate : Gate) : DecidablePred gate.ComesApart := by
  intro label
  unfold ComesApart
  split <;> infer_instance

/-- In a run in which no direct call passes a prompt with its key in the queue, no call comes with
the key of a dispatch that a release has hidden, and no callback throws, a duplicate is not
dispatched before the semantic hold is over. -/
theorem dedupeWindow_of_comesApart {labels : List Label}
    (reached : execute step start labels = some final)
    (everyStep : EveryStep step
      (fun gate label _ => gate.ComesApart label ∧ CallbacksReturn label) start labels) :
    DedupeWindow final.log := by
  have guarded : final.Guarded :=
    invariant_of_execute guarded_step ⟨deduped_start, fun _ => tracked_start⟩ reached everyStep
  exact guarded.1.window

/-- A prompt is dispatched, and its duplicate enters the gate when the semantic hold is over. -/
def repeatedRun : List Label :=
  [.call (promptArgs ['a']) .proceed, .settle 0 .accepted .proceed, .continue 0 .proceed,
    .tick 15000, .call (promptArgs ['a']) .proceed]

theorem dedupeWindow_repeatedRun :
    ∃ final, execute step start repeatedRun = some final ∧
      final.log = [.entered 0, .invoked 0 ['a'] 0, .ended 0 ['a'] 0 15000, .entered 1,
        .invoked 1 ['a'] 15000] ∧ DedupeWindow final.log := by
  obtain ⟨final, reached, isLog⟩ : ∃ final, execute step start repeatedRun = some final ∧
        final.log = [.entered 0, .invoked 0 ['a'] 0, .ended 0 ['a'] 0 15000, .entered 1,
          .invoked 1 ['a'] 15000] := by
    decide +kernel
  exact ⟨final, reached, isLog, dedupeWindow_of_comesApart reached (by decide +kernel)⟩

/-- A prompt waits in the queue while a direct call with its key is dispatched. -/
def overtakenRun : List Label :=
  [.call { promptArgs ['a'] with postDispatchHoldMs := some 0 } .proceed,
    .call { promptArgs ['b'] with semanticDedupeHoldMs := some 15000 } .proceed,
    .settle 0 .accepted .proceed, .continue 0 .proceed,
    .call
      { promptArgs ['b'] with
        queue := some false
        postDispatchHoldMs := some 0
        semanticDedupeHoldMs := some 15000 }
      .proceed,
    .settle 1 .accepted .proceed, .continue 1 .proceed, .fire .proceed]

/-- The drain of the waiting prompt dispatches it again at once. -/
theorem not_dedupeWindow :
    ¬ ∀ labels final, execute step start labels = some final → DedupeWindow final.log := by
  intro always
  obtain ⟨final, reached, isLog⟩ : ∃ final, execute step start overtakenRun = some final ∧
        final.log = [.entered 0, .invoked 0 ['a'] 0, .entered 1, .ended 0 ['a'] 0 0, .entered 2,
          .invoked 2 ['b'] 0, .ended 2 ['b'] 0 15000, .invoked 1 ['b'] 0] := by
    decide +kernel
  have kept := (always overtakenRun final reached).1
    [.entered 0, .invoked 0 ['a'] 0, .entered 1, .ended 0 ['a'] 0 0, .entered 2, .invoked 2 ['b'] 0]
    2 ['b'] 0 15000 [] 1 0 [] isLog (by decide) List.not_mem_nil
  exact absurd kept (by decide)

end Gate

end OpenAgent.PromptGate
