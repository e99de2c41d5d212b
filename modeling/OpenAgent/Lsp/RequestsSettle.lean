import OpenAgent.Lsp.PendingRequests

/-!
# Every request settles

A request waits, has been answered, has been cancelled before or after it was written, or
has failed.  A request that is sent with an aborted signal, and one whose write fails after
its signal was aborted, is none of these: its promise never settles.
-/

namespace OpenAgent.Lsp

open Library

namespace Request

def isWaiting (request : Request) : Bool :=
  match request.body with
  | .threw => false
  | _ => !request.settled

/-- The write of the request has not ended, or what awaits it has not run. -/
inductive Writing (request : Request) : Prop
  | pending (unwritten : request.requestWritten = false) (place : request.body = .writing)
      (noFailure : request.writeFailed = false)
  | ended (failure : Option RequestError) (unwritten : request.requestWritten = false)
      (place : request.body = .resuming failure) (isFailure : request.writeFailed = failure.isSome)

/-- How far a request has come. -/
inductive Stage (request : Request) : Prop
  | waiting (unsettled : request.settled = false) (noOutcome : request.outcomes = [])
      (notCancelled : request.cancel = .idle) (noCancel : request.cancelAfterWrite = false)
      (place : request.Writing ∨ (request.requestWritten = true ∧ request.body = .returned ∧
        request.writeFailed = false))
  | answered (isSettled : request.settled = true) (once : request.outcomes.length = 1)
      (notCancelled : request.cancel = .idle) (noCancel : request.cancelAfterWrite = false)
      (place : request.Writing ∨ request.body = .returned)
  | cancelledEarly (isSettled : request.settled = true) (noOutcome : request.outcomes = [])
      (notCancelled : request.cancel = .idle) (cancelLater : request.cancelAfterWrite = true)
      (place : request.Writing)
  | cancelling (isSettled : request.settled = true) (noOutcome : request.outcomes = [])
      (isCancelling : request.cancel = .writing ∨ ∃ failure, request.cancel = .resuming failure)
      (place : request.body = .cancelling ∨ request.body = .returned)
  | cancelled (isSettled : request.settled = true) (once : request.outcomes.length = 1)
      (isCancelled : request.cancel = .done)
      (place : request.body = .cancelling ∨ request.body = .returned)
  | threw (once : request.outcomes.length = 1) (notCancelled : request.cancel = .idle)
      (place : request.body = .threw)

variable {request : Request}

theorem Writing.busy (writing : request.Writing) :
    request.writePending = true ∨ request.isQueued = true := by
  cases writing with
  | pending _ place _ => exact .inl (by rw [writePending, place])
  | ended failure _ place _ =>
    right
    rw [isQueued, place]

theorem Stage.once (stage : request.Stage) : request.outcomes.length ≤ 1 := by
  cases stage with
  | waiting _ none _ _ _ => rw [none]; exact Nat.zero_le 1
  | answered _ once _ _ _ => exact once.le
  | cancelledEarly _ none _ _ _ | cancelling _ none _ _ => rw [none]; exact Nat.zero_le 1
  | cancelled _ once _ _ | threw once _ _ => exact once.le

/-- A request that neither waits nor has anything under way is settled. -/
theorem Stage.isSettled (stage : request.Stage) (notWaiting : request.isWaiting = false)
    (noWrite : request.writePending = false) (notQueued : request.isQueued = false) :
    request.isSettled = true := by
  have quiet : ¬ request.Writing := by
    intro writing
    rcases writing.busy with busy | busy
    · rw [noWrite] at busy
      cases busy
    · rw [notQueued] at busy
      cases busy
  have isOne : request.outcomes.length = 1 → request.outcomes.isEmpty = false := by
    intro once
    cases isOutcomes : request.outcomes with
    | nil => rw [isOutcomes] at once; cases once
    | cons outcome outcomes => rfl
  cases stage with
  | waiting unsettled _ _ _ place =>
    rcases place with writing | ⟨_, place, _⟩
    · exact absurd writing quiet
    · rw [isWaiting, place, unsettled] at notWaiting
      cases notWaiting
  | answered _ once _ _ place =>
    rcases place with writing | place
    · exact absurd writing quiet
    · rw [Request.isSettled, place]
      simp [isOne once]
  | cancelledEarly _ _ _ _ place => exact absurd place quiet
  | cancelling _ _ isCancelling place =>
    rcases isCancelling with isWriting | ⟨failure, isResuming⟩
    · rcases place with place | place <;> rw [writePending, place, isWriting] at noWrite <;>
        cases noWrite
    · rcases place with place | place <;> rw [isQueued, place, isResuming] at notQueued <;>
        cases notQueued
  | cancelled _ once isCancelled place =>
    rcases place with place | place
    · rw [isQueued, place, isCancelled] at notQueued
      cases notQueued
    · rw [Request.isSettled, place]
      simp [isOne once]
  | threw once _ place =>
    rw [Request.isSettled, place]
    simp [isOne once]

theorem isWaiting_of_settled (isSettled : request.settled = true) : request.isWaiting = false := by
  rw [isWaiting]
  split
  · rfl
  · rw [isSettled]
    rfl

/-- What is known of a request that waits. -/
theorem Stage.of_isWaiting (stage : request.Stage) (isWaiting : request.isWaiting = true) :
    request.settled = false ∧ request.outcomes = [] ∧ request.cancel = .idle ∧
      request.cancelAfterWrite = false ∧
        (request.Writing ∨ (request.requestWritten = true ∧ request.body = .returned ∧
          request.writeFailed = false)) := by
  have notSettled : request.settled ≠ true := by
    intro isSettled
    rw [isWaiting_of_settled isSettled] at isWaiting
    cases isWaiting
  cases stage with
  | waiting unsettled noOutcome notCancelled noCancel place =>
    exact ⟨unsettled, noOutcome, notCancelled, noCancel, place⟩
  | answered isSettled | cancelledEarly isSettled | cancelling isSettled | cancelled isSettled =>
    exact absurd isSettled notSettled
  | threw _ _ place =>
    rw [Request.isWaiting, place] at isWaiting
    cases isWaiting

/-- A waiting request with nothing under way has been written. -/
theorem Stage.notFailed (stage : request.Stage) (isWaiting : request.isWaiting = true)
    (noWrite : request.writePending = false) (notQueued : request.isQueued = false) :
    request.writeFailed = false := by
  obtain ⟨-, -, -, -, writing | ⟨-, -, notFailed⟩⟩ := stage.of_isWaiting isWaiting
  · rcases writing.busy with busy | busy
    · rw [noWrite] at busy
      cases busy
    · rw [notQueued] at busy
      cases busy
  · exact notFailed

theorem Writing.of_same {other : Request} (writing : request.Writing)
    (sameWritten : other.requestWritten = request.requestWritten)
    (sameBody : other.body = request.body) (sameFailed : other.writeFailed = request.writeFailed) :
    other.Writing := by
  cases writing with
  | pending unwritten place noFailure =>
    exact .pending (sameWritten.trans unwritten) (sameBody.trans place) (sameFailed.trans noFailure)
  | ended failure unwritten place isFailure =>
    exact .ended failure (sameWritten.trans unwritten) (sameBody.trans place)
      (sameFailed.trans isFailure)

theorem stage_start (signal : Option Nat) : (start signal).Stage :=
  .waiting rfl rfl rfl rfl (.inl (.pending rfl rfl rfl))

variable (stage : request.Stage)
include stage

theorem Stage.settle (isWaiting : request.isWaiting = true) (outcome : Outcome) :
    (request.settle outcome).Stage := by
  obtain ⟨-, noOutcome, notCancelled, noCancel, place⟩ := stage.of_isWaiting isWaiting
  refine .answered rfl ?_ notCancelled noCancel ?_
  · rw [Request.settle, noOutcome]
    rfl
  · rcases place with writing | ⟨-, place, -⟩
    · exact .inl (writing.of_same rfl rfl rfl)
    · exact .inr place

theorem Stage.settleCancel (isWaiting : request.isWaiting = true) : request.settleCancel.Stage := by
  obtain ⟨-, noOutcome, notCancelled, noCancel, place⟩ := stage.of_isWaiting isWaiting
  rcases place with writing | ⟨isWritten, place, -⟩
  · have unwritten : request.requestWritten = false := by
      cases writing with
      | pending unwritten | ended _ unwritten => exact unwritten
    have early : request.settleCancel =
        { request with settled := true, listening := false, cancelAfterWrite := true } := by
      simp [Request.settleCancel, unwritten]
    rw [early]
    exact .cancelledEarly rfl noOutcome notCancelled rfl (writing.of_same rfl rfl rfl)
  · have late : request.settleCancel =
        { request with settled := true, listening := false, cancel := .writing } := by
      simp [Request.settleCancel, isWritten]
    rw [late]
    exact .cancelling rfl noOutcome (.inl rfl) (.inr place)

theorem Stage.responded : { request with responded := true }.Stage := by
  cases stage with
  | waiting unsettled noOutcome notCancelled noCancel place =>
    exact .waiting unsettled noOutcome notCancelled noCancel
      (place.imp_left fun writing => writing.of_same rfl rfl rfl)
  | answered isSettled once notCancelled noCancel place =>
    exact .answered isSettled once notCancelled noCancel
      (place.imp_left fun writing => writing.of_same rfl rfl rfl)
  | cancelledEarly isSettled noOutcome notCancelled cancelLater place =>
    exact .cancelledEarly isSettled noOutcome notCancelled cancelLater (place.of_same rfl rfl rfl)
  | cancelling isSettled noOutcome isCancelling place =>
    exact .cancelling isSettled noOutcome isCancelling place
  | cancelled isSettled once isCancelled place => exact .cancelled isSettled once isCancelled place
  | threw once notCancelled place => exact .threw once notCancelled place

/-- The callback of the write. -/
theorem Stage.written (isWriting : request.body = .writing) (failure : Option RequestError) :
    { request with body := .resuming failure, writeFailed := failure.isSome }.Stage := by
  have elsewhere : ∀ {P : Prop}, request.body = .cancelling ∨ request.body = .returned → P := by
    intro P place
    rw [isWriting] at place
    rcases place with place | place <;> cases place
  have ended : request.Writing →
      { request with body := .resuming failure, writeFailed := failure.isSome }.Writing := by
    intro writing
    cases writing with
    | pending unwritten | ended _ unwritten => exact .ended failure unwritten rfl rfl
  cases stage with
  | waiting unsettled noOutcome notCancelled noCancel place =>
    rcases place with writing | ⟨-, place, -⟩
    · exact .waiting unsettled noOutcome notCancelled noCancel (.inl (ended writing))
    · exact elsewhere (.inr place)
  | answered isSettled once notCancelled noCancel place =>
    rcases place with writing | place
    · exact .answered isSettled once notCancelled noCancel (.inl (ended writing))
    · exact elsewhere (.inr place)
  | cancelledEarly isSettled noOutcome notCancelled cancelLater place =>
    exact .cancelledEarly isSettled noOutcome notCancelled cancelLater (ended place)
  | cancelling _ _ _ place | cancelled _ _ _ place => exact elsewhere place
  | threw _ _ place =>
    rw [isWriting] at place
    cases place

/-- A request whose write has ended waits, is answered or is cancelled. -/
theorem Stage.of_resuming {failure : Option RequestError}
    (isResuming : request.body = .resuming failure) :
    request.writeFailed = failure.isSome ∧ request.cancel = .idle ∧
      ((request.settled = false ∧ request.outcomes = [] ∧ request.cancelAfterWrite = false) ∨
        (request.settled = true ∧ request.outcomes.length = 1 ∧ request.cancelAfterWrite = false) ∨
        (request.settled = true ∧ request.outcomes = [] ∧ request.cancelAfterWrite = true)) := by
  have elsewhere : ∀ {P : Prop}, request.body = .cancelling ∨ request.body = .returned → P := by
    intro P place
    rw [isResuming] at place
    rcases place with place | place <;> cases place
  have failed : request.Writing → request.writeFailed = failure.isSome := by
    intro writing
    cases writing with
    | pending _ place =>
      rw [isResuming] at place
      cases place
    | ended other _ place isFailure =>
      rw [isResuming] at place
      cases place
      exact isFailure
  cases stage with
  | waiting unsettled noOutcome notCancelled noCancel place =>
    rcases place with writing | ⟨-, place, -⟩
    · exact ⟨failed writing, notCancelled, .inl ⟨unsettled, noOutcome, noCancel⟩⟩
    · exact elsewhere (.inr place)
  | answered isSettled once notCancelled noCancel place =>
    rcases place with writing | place
    · exact ⟨failed writing, notCancelled, .inr (.inl ⟨isSettled, once, noCancel⟩)⟩
    · exact elsewhere (.inr place)
  | cancelledEarly isSettled noOutcome notCancelled cancelLater place =>
    exact ⟨failed place, notCancelled, .inr (.inr ⟨isSettled, noOutcome, cancelLater⟩)⟩
  | cancelling _ _ _ place | cancelled _ _ _ place => exact elsewhere place
  | threw _ _ place =>
    rw [isResuming] at place
    cases place

/-- A request whose cancellation is being written. -/
theorem Stage.of_cancelling (isCancelling : request.cancel ≠ .idle) :
    request.settled = true ∧ (request.body = .cancelling ∨ request.body = .returned) ∧
      ((request.outcomes = [] ∧ request.cancel ≠ .done) ∨
        (request.outcomes.length = 1 ∧ request.cancel = .done)) := by
  cases stage with
  | waiting _ _ notCancelled | answered _ _ notCancelled | cancelledEarly _ _ notCancelled =>
    exact absurd notCancelled isCancelling
  | cancelling isSettled noOutcome isOpen place =>
    refine ⟨isSettled, place, .inl ⟨noOutcome, ?_⟩⟩
    rcases isOpen with isWriting | ⟨failure, isResuming⟩
    · simp [isWriting]
    · simp [isResuming]
  | cancelled isSettled once isCancelled place => exact ⟨isSettled, place, .inr ⟨once, isCancelled⟩⟩
  | threw _ notCancelled => exact absurd notCancelled isCancelling

end Request

namespace Connection

variable {connection : Connection} {request : Request} {id : Nat}

section

variable (connection : Connection)

/-- What holds of a request with an id.  It has an entry while it waits, and listens to its
signal just as long. -/
structure Sound (id : Nat) (request : Request) : Prop where
  stage : request.Stage
  pending : id ∈ connection.pendingRequests ↔ request.isWaiting = true
  listening : request.listening = (request.isWaiting && request.signal.isSome)
  notAborted : request.isWaiting = true → connection.isAborted request.signal = false
  notResponded : request.isWaiting = true → request.responded = false
  notDisposed : request.isWaiting = true → connection.disposed = false

structure Invariant : Prop where
  sound : ∀ id request, connection.requests id = some request → Sound connection id request
  unused : ∀ id, connection.nextRequestId ≤ id → connection.requests id = none
  known : ∀ id ∈ connection.pendingRequests, connection.requests id ≠ none

/-- Its response has arrived, its signal is aborted, its write has failed or the connection
is disposed. -/
def IsDue (request : Request) : Prop :=
  request.responded = true ∨ connection.isAborted request.signal = true ∨
    request.writeFailed = true ∨ connection.disposed = true

/-- No promise has settled twice, and each request that is due and has nothing under way has
settled and has no entry. -/
def Settles : Prop :=
  ∀ id request, connection.requests id = some request → request.outcomes.length ≤ 1 ∧
      (connection.IsDue request → request.writePending = false → request.isQueued = false →
        request.isSettled = true ∧ id ∉ connection.pendingRequests)

/-- A call with a signal that is aborted already, or the code behind a failed write of a
request whose signal was aborted before. -/
def Strands : ConnectionLabel → Prop
  | .sendRequest signal => connection.disposed = false ∧ connection.isAborted signal = true
  | .resume id => ∃ request failure, connection.requests id = some request ∧
      request.body = .resuming (some failure) ∧ request.cancelAfterWrite = true
  | _ => False

end

theorem Invariant.settles (invariant : connection.Invariant) : connection.Settles := by
  intro id request isRequest
  have sound := invariant.sound id request isRequest
  refine ⟨sound.stage.once, fun due noWrite notQueued => ?_⟩
  have notWaiting : request.isWaiting = false := by
    by_contra waits
    have isWaiting := (Bool.not_eq_false _).mp waits
    rcases due with isResponded | isAborted | hasFailed | isDisposed
    · rw [sound.notResponded isWaiting] at isResponded
      cases isResponded
    · rw [sound.notAborted isWaiting] at isAborted
      cases isAborted
    · rw [sound.stage.notFailed isWaiting noWrite notQueued] at hasFailed
      cases hasFailed
    · rw [sound.notDisposed isWaiting] at isDisposed
      cases isDisposed
  refine ⟨sound.stage.isSettled notWaiting noWrite notQueued, fun isPending => ?_⟩
  rw [sound.pending.mp isPending] at notWaiting
  cases notWaiting

theorem invariant_fresh : fresh.Invariant where
  sound := by
    intro id request isRequest
    cases isRequest
  unused := fun _ _ => rfl
  known := by
    intro id isPending
    cases isPending

theorem Sound.of_same {other : Connection} (sound : Sound connection id request)
    (samePending : id ∈ other.pendingRequests ↔ id ∈ connection.pendingRequests)
    (sameAborted : other.isAborted request.signal = connection.isAborted request.signal)
    (sameDisposed : other.disposed = connection.disposed) : Sound other id request where
  __ := sound
  pending := samePending.trans sound.pending
  notAborted := fun isWaiting => sameAborted.trans (sound.notAborted isWaiting)
  notDisposed := fun isWaiting => sameDisposed.trans (sound.notDisposed isWaiting)

/-- A change of a request that waits as long as before. -/
theorem Sound.replace {other : Request} (sound : Sound connection id request) (stage : other.Stage)
    (sameWaiting : other.isWaiting = request.isWaiting) (sameSignal : other.signal = request.signal)
    (sameListening : other.listening = request.listening)
    (responded : other.isWaiting = true → other.responded = request.responded) :
    Sound connection id other where
  stage
  pending := sameWaiting ▸ sound.pending
  listening := by rw [sameListening, sameWaiting, sameSignal, sound.listening]
  notAborted := fun isWaiting => sameSignal ▸ sound.notAborted (sameWaiting ▸ isWaiting)
  notResponded := fun isWaiting =>
    (responded isWaiting).trans (sound.notResponded (sameWaiting ▸ isWaiting))
  notDisposed := fun isWaiting => sound.notDisposed (sameWaiting ▸ isWaiting)

/-- A request that no longer waits. -/
theorem sound_of_notWaiting (stage : request.Stage) (notWaiting : request.isWaiting = false)
    (silent : request.listening = false) (gone : id ∉ connection.pendingRequests) :
    Sound connection id request where
  stage
  pending := ⟨fun isPending => absurd isPending gone, fun isWaiting => by
    rw [notWaiting] at isWaiting
    cases isWaiting⟩
  listening := by rw [silent, notWaiting]; rfl
  notAborted := fun isWaiting => by rw [notWaiting] at isWaiting; cases isWaiting
  notResponded := fun isWaiting => by rw [notWaiting] at isWaiting; cases isWaiting
  notDisposed := fun isWaiting => by rw [notWaiting] at isWaiting; cases isWaiting

variable {old : Request}

section

variable (invariant : connection.Invariant) (isOld : connection.requests id = some old)
include invariant isOld

/-- One request changes, and with it no entry but its own. -/
theorem Invariant.change {other : Connection}
    (requests : other.requests = Function.update connection.requests id (some request))
    (sameNext : other.nextRequestId = connection.nextRequestId)
    (stays : ∀ key ≠ id, key ∈ other.pendingRequests ↔ key ∈ connection.pendingRequests)
    (sameAborted : other.aborted = connection.aborted)
    (sameDisposed : other.disposed = connection.disposed) (sound : Sound other id request) :
    other.Invariant where
  sound := by
    intro key found isFound
    by_cases same : key = id
    · subst same
      rw [requests, Function.update_self] at isFound
      cases isFound
      exact sound
    · rw [requests, Function.update_of_ne same] at isFound
      refine (invariant.sound key found isFound).of_same (stays key same) ?_ sameDisposed
      cases isSignal : found.signal with
      | none => rfl
      | some signal => rw [isAborted, isAborted, sameAborted]
  unused := by
    intro key isUnused
    have different : key ≠ id := by
      rintro rfl
      rw [invariant.unused key (sameNext ▸ isUnused)] at isOld
      cases isOld
    rw [requests, Function.update_of_ne different]
    exact invariant.unused key (sameNext ▸ isUnused)
  known := by
    intro key isPending
    rw [requests]
    by_cases same : key = id
    · subst same
      rw [Function.update_self]
      exact Option.some_ne_none _
    · rw [Function.update_of_ne same]
      exact invariant.known key ((stays key same).mp isPending)

theorem Invariant.put (sound : Sound connection id request) :
    (connection.put id request).Invariant :=
  invariant.change isOld rfl rfl (fun _ _ => Iff.rfl) rfl rfl (sound.of_same Iff.rfl rfl rfl)

/-- A request that loses its entry. -/
theorem Invariant.forgetPut (stage : request.Stage) (notWaiting : request.isWaiting = false)
    (silent : request.listening = false) : ((connection.forget id).put id request).Invariant := by
  have gone : id ∉ ((connection.forget id).put id request).pendingRequests := by
    simp [Connection.put, forget]
  refine invariant.change isOld rfl rfl ?_ rfl rfl
    (sound_of_notWaiting stage notWaiting silent gone)
  intro key different
  simp [Connection.put, forget, different]

end

section

variable (invariant : connection.Invariant)
include invariant

/-- What is written and emitted does not matter. -/
theorem Invariant.log (sent : List Outgoing) (emitted : List RequestError) :
    { connection with sent, emitted }.Invariant where
  __ := invariant
  sound := fun id request isRequest =>
    (invariant.sound id request isRequest).of_same Iff.rfl rfl rfl

theorem Invariant.sendRequest {signal : Option Nat}
    (keeps : ¬ connection.Strands (.sendRequest signal)) :
    (connection.sendRequest signal).Invariant := by
  cases isDisposed : connection.disposed with
  | true =>
    rw [Connection.sendRequest, if_pos isDisposed]
    exact ⟨fun id request isRequest =>
      (invariant.sound id request isRequest).of_same Iff.rfl rfl rfl, invariant.unused,
      invariant.known⟩
  | false =>
    have notAborted : connection.isAborted signal = false := by
      by_contra isAborted
      exact keeps ⟨isDisposed, (Bool.not_eq_false _).mp isAborted⟩
    have opened : connection.sendRequest signal =
        { connection with
          nextRequestId := connection.nextRequestId + 1
          requests := Function.update connection.requests connection.nextRequestId
            (some (.start signal))
          pendingRequests := connection.pendingRequests ++ [connection.nextRequestId]
          sent := connection.sent ++ [.request connection.nextRequestId] } := by
      rw [Connection.sendRequest, if_neg (by simp [isDisposed]), if_neg (by simp [notAborted])]
      rfl
    rw [opened]
    constructor
    · intro id request isRequest
      dsimp only at isRequest
      by_cases same : id = connection.nextRequestId
      · subst same
        rw [Function.update_self] at isRequest
        cases isRequest
        exact
          { stage := Request.stage_start signal
            pending := by simp [Request.isWaiting, Request.start]
            listening := rfl
            notAborted := fun _ => by
              rw [← notAborted]
              cases signal <;> rfl
            notResponded := fun _ => rfl
            notDisposed := fun _ => isDisposed }
      · rw [Function.update_of_ne same] at isRequest
        exact (invariant.sound id request isRequest).of_same (by simp [same]) rfl rfl
    · intro id isUnused
      have different : id ≠ connection.nextRequestId := by
        dsimp only at isUnused
        omega
      dsimp only
      rw [Function.update_of_ne different]
      exact invariant.unused id (by dsimp only at isUnused; omega)
    · intro id isPending
      dsimp only at isPending ⊢
      by_cases same : id = connection.nextRequestId
      · subst same
        rw [Function.update_self]
        exact Option.some_ne_none _
      · rw [Function.update_of_ne same]
        exact invariant.known id (by simpa [same] using isPending)

/-- The body behind a write that went well. -/
theorem Invariant.resume_none (isRequest : connection.requests id = some request)
    (isResuming : request.body = .resuming none) :
    (connection.resumeBody id request none).Invariant := by
  have sound := invariant.sound id request isRequest
  obtain ⟨notFailed, notCancelled, stage⟩ := sound.stage.of_resuming isResuming
  have waits : request.isWaiting = !request.settled := by
    rw [Request.isWaiting, isResuming]
  rw [resumeBody]
  split
  · rename_i cancelLater
    have cancelled : request.settled = true ∧ request.outcomes = [] := by
      rcases stage with ⟨-, -, notLater⟩ | ⟨-, -, notLater⟩ | ⟨isSettled, noOutcome, -⟩
      · rw [notLater] at cancelLater
        cases cancelLater
      · rw [notLater] at cancelLater
        cases cancelLater
      · exact ⟨isSettled, noOutcome⟩
    have stage : { request with
        requestWritten := true, body := .cancelling, cancel := .writing }.Stage :=
      .cancelling cancelled.1 cancelled.2 (.inl rfl) (.inl rfl)
    have kept := invariant.put isRequest (sound.replace stage waits.symm rfl rfl fun _ => rfl)
    exact kept.log _ _
  · rename_i notLater
    refine invariant.put isRequest (sound.replace ?_ waits.symm rfl rfl fun _ => rfl)
    rcases stage with ⟨unsettled, noOutcome, noCancel⟩ | ⟨isSettled, once, noCancel⟩ |
      ⟨-, -, cancelLater⟩
    · exact .waiting unsettled noOutcome notCancelled noCancel (.inr ⟨rfl, rfl, notFailed⟩)
    · exact .answered isSettled once notCancelled noCancel (.inr rfl)
    · exact absurd cancelLater notLater

/-- The body behind a write that failed. -/
theorem Invariant.resume_some {failure : RequestError}
    (isRequest : connection.requests id = some request)
    (isResuming : request.body = .resuming (some failure))
    (notLater : request.cancelAfterWrite = false) :
    (connection.resumeBody id request (some failure)).Invariant := by
  have sound := invariant.sound id request isRequest
  obtain ⟨-, notCancelled, stage⟩ := sound.stage.of_resuming isResuming
  have waits : request.isWaiting = !request.settled := by
    rw [Request.isWaiting, isResuming]
  rw [resumeBody]
  split
  · rename_i isSettled
    refine invariant.put isRequest (sound.replace ?_ waits.symm rfl rfl fun _ => rfl)
    rcases stage with ⟨unsettled, -⟩ | ⟨-, once, noCancel⟩ | ⟨-, -, cancelLater⟩
    · rw [unsettled] at isSettled
      cases isSettled
    · exact .answered isSettled once notCancelled noCancel (.inr rfl)
    · rw [notLater] at cancelLater
      cases cancelLater
  · rename_i notSettled
    refine invariant.forgetPut isRequest (.threw ?_ notCancelled rfl) rfl rfl
    rcases stage with ⟨-, noOutcome, -⟩ | ⟨isSettled, -⟩ | ⟨isSettled, -⟩
    · rw [noOutcome]
      rfl
    · exact absurd isSettled notSettled
    · exact absurd isSettled notSettled

end

variable {next : Connection}

section

variable (invariant : connection.Invariant) (isRequest : connection.requests id = some request)
include invariant isRequest

theorem Invariant.resume (keeps : ¬ connection.Strands (.resume id))
    (resumed : connection.resume id request = some next) : next.Invariant := by
  have sound := invariant.sound id request isRequest
  rw [Connection.resume] at resumed
  split at resumed
  · rename_i failure isResuming
    cases resumed
    cases failure with
    | none => exact invariant.resume_none isRequest isResuming
    | some failure =>
      refine invariant.resume_some isRequest isResuming ?_
      by_contra later
      exact keeps ⟨request, failure, isRequest, isResuming, (Bool.not_eq_false _).mp later⟩
  · rename_i isCancelling isDone
    cases resumed
    obtain ⟨isSettled, -, isOne⟩ := sound.stage.of_cancelling (by rw [isDone]; simp)
    have once : request.outcomes.length = 1 := by
      rcases isOne with ⟨-, notDone⟩ | ⟨once, -⟩
      · exact absurd isDone notDone
      · exact once
    have stage : { request with body := .returned }.Stage :=
      .cancelled isSettled once isDone (.inr rfl)
    refine invariant.put isRequest (sound.replace stage ?_ rfl rfl fun _ => rfl)
    rw [Request.isWaiting_of_settled isSettled]
    exact Request.isWaiting_of_settled isSettled
  · cases resumed

/-- The callback of the write of a cancellation, and the code behind it. -/
theorem Invariant.cancelWritten (isWriting : request.cancel = .writing)
    (failure : Option RequestError) :
    (connection.put id { request with cancel := .resuming failure }).Invariant := by
  have sound := invariant.sound id request isRequest
  obtain ⟨isSettled, place, isOne⟩ := sound.stage.of_cancelling (by rw [isWriting]; simp)
  have noOutcome : request.outcomes = [] := by
    rcases isOne with ⟨noOutcome, -⟩ | ⟨-, isDone⟩
    · exact noOutcome
    · rw [isWriting] at isDone
      cases isDone
  have stage : { request with cancel := .resuming failure }.Stage :=
    .cancelling isSettled noOutcome (.inr ⟨failure, rfl⟩) place
  exact invariant.put isRequest (sound.replace stage rfl rfl rfl fun _ => rfl)

theorem Invariant.resumeCancel {failure : Option RequestError}
    (isResuming : request.cancel = .resuming failure) (outcome : Outcome) :
    (connection.put id
      { request with cancel := .done, outcomes := request.outcomes ++ [outcome] }).Invariant := by
  have sound := invariant.sound id request isRequest
  obtain ⟨isSettled, place, isOne⟩ := sound.stage.of_cancelling (by rw [isResuming]; simp)
  have noOutcome : request.outcomes = [] := by
    rcases isOne with ⟨noOutcome, -⟩ | ⟨-, isDone⟩
    · exact noOutcome
    · rw [isResuming] at isDone
      cases isDone
  have stage : { request with
      cancel := .done, outcomes := request.outcomes ++ [outcome] }.Stage :=
    .cancelled isSettled (by rw [noOutcome]; rfl) rfl place
  exact invariant.put isRequest (sound.replace stage rfl rfl rfl fun _ => rfl)

end

theorem isAborted_abort (different : other ≠ some signal) :
    (connection.abort signal reason).isAborted other = connection.isAborted other := by
  cases other with
  | none => rfl
  | some other =>
    have notFirst : ¬ signal = other := fun same => different (by rw [same])
    simp [isAborted, Connection.abort, mapGet, notFirst]

section

variable (invariant : connection.Invariant)
include invariant

theorem Invariant.abort (signal : Nat) (reason : AbortReason) :
    (connection.abort signal reason).Invariant := by
  have pending : ∀ key, key ∈ (connection.abort signal reason).pendingRequests ↔
      key ∈ connection.pendingRequests ∧ connection.isHearing signal key = false := by
    simp [Connection.abort]
  constructor
  · intro key found isFound
    obtain ⟨request, isRequest, rfl⟩ := Option.map_eq_some_iff.mp isFound
    have sound := invariant.sound key request isRequest
    have hearing : connection.isHearing signal key = hears signal request := by
      rw [isHearing, isRequest]
      rfl
    split
    · rename_i isHearing
      have isWaiting : request.isWaiting = true := by
        have isListening := (Bool.and_eq_true_iff.mp isHearing).1
        rw [sound.listening] at isListening
        exact (Bool.and_eq_true_iff.mp isListening).1
      have isSettled : request.settleCancel.settled = true ∧
          request.settleCancel.listening = false := by
        rw [Request.settleCancel]
        split <;> exact ⟨rfl, rfl⟩
      refine sound_of_notWaiting (sound.stage.settleCancel isWaiting)
        (Request.isWaiting_of_settled isSettled.1) isSettled.2 ?_
      rw [pending, hearing, isHearing]
      rintro ⟨-, isFalse⟩
      cases isFalse
    · rename_i notHearing
      have deaf : hears signal request = false := (Bool.not_eq_true _).mp notHearing
      refine
        { stage := sound.stage
          pending := by rw [pending, hearing, deaf, sound.pending]; simp
          listening := sound.listening
          notAborted := fun isWaiting => ?_
          notResponded := sound.notResponded
          notDisposed := sound.notDisposed }
      have different : request.signal ≠ some signal := by
        intro isSignal
        apply notHearing
        rw [hears, sound.listening, isWaiting, isSignal]
        simp
      rw [isAborted_abort different]
      exact sound.notAborted isWaiting
  · intro key isUnused
    exact Option.map_eq_none_iff.mpr (invariant.unused key isUnused)
  · intro key isPending
    have isKnown := invariant.known key ((pending key).mp isPending).1
    exact fun isNone => isKnown (Option.map_eq_none_iff.mp isNone)

theorem Invariant.handleResponse (id : Nat) (message : Json) :
    (connection.handleResponse id message).Invariant := by
  rw [Connection.handleResponse]
  split
  · exact invariant
  · rename_i request isRequest
    have sound := invariant.sound id request isRequest
    split
    · rename_i isPending
      have isWaiting := sound.pending.mp isPending
      exact invariant.forgetPut isRequest (sound.stage.responded.settle isWaiting _)
        (Request.isWaiting_of_settled rfl) rfl
    · rename_i notPending
      refine invariant.put isRequest
        (sound.replace sound.stage.responded rfl rfl rfl fun isWaiting => ?_)
      exact absurd (sound.pending.mpr isWaiting) notPending

theorem Invariant.dispose : connection.dispose.Invariant := by
  rw [Connection.dispose]
  split
  · exact invariant
  · constructor
    · intro key found isFound
      obtain ⟨request, isRequest, rfl⟩ := Option.map_eq_some_iff.mp isFound
      have sound := invariant.sound key request isRequest
      split
      · rename_i isPending
        exact sound_of_notWaiting (sound.stage.settle (sound.pending.mp isPending) _)
          (Request.isWaiting_of_settled rfl) rfl List.not_mem_nil
      · rename_i notPending
        have notWaiting : request.isWaiting = false :=
          (Bool.not_eq_true _).mp fun isWaiting => notPending (sound.pending.mpr isWaiting)
        refine sound_of_notWaiting sound.stage notWaiting ?_ List.not_mem_nil
        rw [sound.listening, notWaiting]
        rfl
    · intro key isUnused
      exact Option.map_eq_none_iff.mpr (invariant.unused key isUnused)
    · intro key isPending
      cases isPending

theorem Invariant.step {label : ConnectionLabel} (keeps : ¬ connection.Strands label)
    (stepped : connection.step label = some next) : next.Invariant := by
  revert keeps stepped
  fun_cases connection.step label <;> intro keeps stepped
  case case5 id =>
    obtain ⟨request, isRequest, resumed⟩ := Option.bind_eq_some_iff.mp stepped
    exact invariant.resume isRequest keeps resumed
  all_goals cases stepped
  case case1 => exact invariant.sendRequest keeps
  case case2 id failure request isRequest isWriting =>
    have sound := invariant.sound id request isRequest
    refine invariant.put isRequest
      (sound.replace (sound.stage.written isWriting failure) ?_ rfl rfl fun _ => rfl)
    rw [Request.isWaiting, Request.isWaiting, isWriting]
  case case6 id failure request isRequest isWriting =>
    exact invariant.cancelWritten isRequest isWriting failure
  case case9 id request isRequest failure isResuming =>
    exact (invariant.resumeCancel isRequest isResuming _).log _ _
  case case13 signal reason _ => exact invariant.abort signal reason
  case case14 id message => exact invariant.handleResponse id message
  case case15 => exact invariant.dispose

end

/-- A request whose promise has not settled although nothing is under way. -/
theorem not_settles_of_stranded (isRequest : connection.requests id = some request)
    (isDue : connection.IsDue request) (isReturned : request.body = .returned)
    (notCancelled : request.cancel = .idle) (noOutcome : request.outcomes = []) :
    ¬ connection.Settles := by
  intro settles
  have isSettled := ((settles id request isRequest).2 isDue
    (by rw [Request.writePending, isReturned, notCancelled])
    (by rw [Request.isQueued, isReturned, notCancelled])).1
  rw [Request.isSettled, isReturned, noOutcome] at isSettled
  cases isSettled

theorem not_settles_of_strands {label : ConnectionLabel} (invariant : connection.Invariant)
    (strands : connection.Strands label) (stepped : connection.step label = some next) :
    ¬ next.Settles := by
  cases label with
  | sendRequest signal =>
    obtain ⟨isOpen, isAborted⟩ := strands
    cases stepped
    rw [Connection.sendRequest, if_neg (by simp [isOpen]), if_pos isAborted]
    refine not_settles_of_stranded (Function.update_self _ _ _) (.inr (.inl ?_)) rfl rfl rfl
    rw [← isAborted]
    cases signal <;> rfl
  | resume id =>
    obtain ⟨request, failure, isRequest, isResuming, cancelLater⟩ := strands
    obtain ⟨isFailure, notCancelled, stage⟩ :=
      (invariant.sound id request isRequest).stage.of_resuming isResuming
    obtain ⟨isSettled, noOutcome⟩ : request.settled = true ∧ request.outcomes = [] := by
      rcases stage with ⟨-, -, notLater⟩ | ⟨-, -, notLater⟩ | ⟨isSettled, noOutcome, -⟩
      · rw [cancelLater] at notLater
        cases notLater
      · rw [cancelLater] at notLater
        cases notLater
      · exact ⟨isSettled, noOutcome⟩
    simp only [Connection.step, isRequest, Option.bind_some, Connection.resume, isResuming,
      resumeBody, if_pos isSettled, Option.some.injEq] at stepped
    subst stepped
    exact not_settles_of_stranded (Function.update_self _ _ _) (.inr (.inr (.inl isFailure)))
      rfl notCancelled noOutcome
  | _ => exact strands.elim

/-- Wherever a run passes, each request that is due has settled or has something under way,
exactly when no step of the run strands a request. -/
theorem settles_iff (labels : List ConnectionLabel) :
    (∀ front final, front <+: labels → execute step fresh front = some final → final.Settles) ↔
      EveryStep step (fun before label _ => ¬ before.Strands label) fresh labels :=
  reached_iff_everyStep
    (fun _ _ _ invariant keeps stepped => invariant.step keeps stepped)
    (fun _ invariant => invariant.settles)
    (fun _ _ _ invariant strands stepped =>
      not_settles_of_strands invariant (not_not.mp strands) stepped)
    invariant_fresh

/-- A call with a signal that is aborted already. -/
theorem not_settles_sendAborted :
    ¬ ∀ (labels : List ConnectionLabel) (final : Connection),
      execute step fresh labels = some final → final.Settles := by
  intro settles
  have reached : ∃ final, execute step fresh [.abort 0 .other, .sendRequest (some 0)] =
      some final ∧ ∃ request, final.requests 1 = some request ∧ final.IsDue request ∧
        request.writePending = false ∧ request.isQueued = false ∧ request.isSettled = false :=
    ⟨_, rfl, _, rfl, .inr (.inl rfl), rfl, rfl, rfl⟩
  obtain ⟨final, isFinal, request, isRequest, isDue, noWrite, notQueued, open'⟩ := reached
  have isSettled := ((settles _ final isFinal 1 request isRequest).2 isDue noWrite notQueued).1
  rw [open'] at isSettled
  cases isSettled

end Connection

end OpenAgent.Lsp
