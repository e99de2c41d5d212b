import OpenAgent.Library.Execution
import OpenAgent.Lsp.JsonRpcFraming

/-!
# Requests of a connection and what becomes of them

`sendRequest` sets up an entry for the response, a listener for the signal of the request
and a write, each of which ends in its own time.  A label is one thing that happens: a
call, the callback of a write, the code behind an `await`, an abort, a response or the
disposal of the connection.  The handlers of errors are taken not to throw.
-/

namespace OpenAgent.Lsp

open Library

/-- What a request rejects with. -/
inductive RequestError
  | error (name message : String)
  /-- What `jsonRpcErrorToError` makes of the error of a response. -/
  | response (value : Json)

inductive AbortReason
  | error (failure : RequestError)
  | text (message : String)
  | other

def abortError : AbortReason → RequestError
  | .error failure => failure
  | .text message => .error "AbortError" message
  | .other => .error "AbortError" "LSP request cancelled"

/-- How a promise is settled. -/
inductive Outcome
  | resolved (result : Option Json)
  | rejected (failure : RequestError)

/-- Where the body of `sendRequest` stands.  Behind the callback of a write, the code that
awaits it is queued. -/
inductive BodyPhase
  | writing
  | resuming (failure : Option RequestError)
  | cancelling
  | returned
  | threw

/-- Where `rejectAfterCancelWrite` stands. -/
inductive CancelPhase
  | idle
  | writing
  | resuming (failure : Option RequestError)
  | done

/-- The variables of one call of `sendRequest`, and how often its promise has been resolved
or rejected.  The last two fields record what has happened to it. -/
structure Request where
  signal : Option Nat
  requestWritten : Bool
  cancelAfterWrite : Bool
  settled : Bool
  listening : Bool
  body : BodyPhase
  cancel : CancelPhase
  outcomes : List Outcome
  responded : Bool
  writeFailed : Bool

namespace Request

def start (signal : Option Nat) : Request where
  signal
  requestWritten := false
  cancelAfterWrite := false
  settled := false
  listening := signal.isSome
  body := .writing
  cancel := .idle
  outcomes := []
  responded := false
  writeFailed := false

variable (request : Request)

/-- The functions `resolve` and `reject` of an entry. -/
def settle (outcome : Outcome) : Request :=
  { request with
    settled := true
    listening := false
    outcomes := request.outcomes ++ [outcome] }

/-- `settleCancel`, for a request that is not settled. -/
def settleCancel : Request :=
  let request := { request with settled := true, listening := false }
  if request.requestWritten then { request with cancel := .writing }
  else { request with cancelAfterWrite := true }

/-- The promise of the call.  Behind `return responsePromise` it follows that one. -/
def isSettled : Bool :=
  match request.body with
  | .returned | .threw => !request.outcomes.isEmpty
  | _ => false

def writePending : Bool :=
  match request.body, request.cancel with
  | .writing, _ => true
  | _, .writing => true
  | _, _ => false

/-- Code behind an `await` that has ended waits for its turn. -/
def isQueued : Bool :=
  match request.body, request.cancel with
  | .resuming _, _ => true
  | _, .resuming _ => true
  | .cancelling, .done => true
  | _, _ => false

end Request

/-- A message that was sent. -/
inductive Outgoing
  | request (id : Nat)
  | cancelRequest (id : Nat)

/-- A connection with the requests that it has sent, the signals that have been aborted,
the number of calls that were refused because it is disposed, what it has written and the
errors it has emitted. -/
structure Connection where
  nextRequestId : Nat
  requests : Nat → Option Request
  pendingRequests : List Nat
  disposed : Bool
  aborted : List (Nat × AbortReason)
  refused : Nat
  sent : List Outgoing
  emitted : List RequestError

/-- A step of the connection. -/
inductive ConnectionLabel
  | sendRequest (signal : Option Nat)
  | written (id : Nat) (failure : Option RequestError)
  | resume (id : Nat)
  | cancelWritten (id : Nat) (failure : Option RequestError)
  | resumeCancel (id : Nat)
  | abort (signal : Nat) (reason : AbortReason)
  | handleResponse (id : Nat) (message : Json)
  | dispose

namespace Connection

def fresh : Connection where
  nextRequestId := 1
  requests := fun _ => none
  pendingRequests := []
  disposed := false
  aborted := []
  refused := 0
  sent := []
  emitted := []

variable (connection : Connection)

def isAborted : Option Nat → Bool
  | none => false
  | some signal => (mapGet connection.aborted signal).isSome

def put (id : Nat) (request : Request) : Connection :=
  { connection with requests := Function.update connection.requests id (some request) }

def forget (id : Nat) : Connection :=
  { connection with pendingRequests := connection.pendingRequests.filter (· ≠ id) }

/-- The call up to its first `await`. -/
def sendRequest (signal : Option Nat) : Connection :=
  if connection.disposed then { connection with refused := connection.refused + 1 }
  else
    let id := connection.nextRequestId
    let request := Request.start signal
    if connection.isAborted signal then
      -- The entry is gone again, and the promise is returned before anything is written.
      { connection.put id { request.settleCancel with body := .returned } with
        nextRequestId := id + 1 }
    else
      { connection.put id request with
        nextRequestId := id + 1
        pendingRequests := connection.pendingRequests ++ [id]
        sent := connection.sent ++ [.request id] }

/-- The body behind the write of the request. -/
def resumeBody (id : Nat) (request : Request) : Option RequestError → Connection
  | none =>
    let request := { request with requestWritten := true }
    if request.cancelAfterWrite then
      { connection.put id { request with body := .cancelling, cancel := .writing } with
        sent := connection.sent ++ [.cancelRequest id] }
    else connection.put id { request with body := .returned }
  | some failure =>
    if request.settled then connection.put id { request with body := .returned }
    else
      (connection.forget id).put id
        { request with
          listening := false
          body := .threw
          outcomes := request.outcomes ++ [.rejected failure] }

def resume (id : Nat) (request : Request) : Option Connection :=
  match request.body, request.cancel with
  | .resuming failure, _ => some (connection.resumeBody id request failure)
  | .cancelling, .done => some (connection.put id { request with body := .returned })
  | _, _ => none

/-- What an aborted request is rejected with. -/
def rejectCancelled (request : Request) : Outcome :=
  .rejected (abortError
    ((request.signal.bind fun signal => mapGet connection.aborted signal).getD .other))

def hears (signal : Nat) (request : Request) : Bool :=
  request.listening && request.signal == some signal

def isHearing (signal id : Nat) : Bool :=
  (connection.requests id).any (hears signal)

def isWritten (id : Nat) : Bool :=
  (connection.requests id).any Request.requestWritten

/-- Each listener of a signal settles its request. -/
def abort (signal : Nat) (reason : AbortReason) : Connection :=
  let heard := connection.pendingRequests.filter (connection.isHearing signal)
  { connection with
    aborted := (signal, reason) :: connection.aborted
    requests := fun id => (connection.requests id).map fun request =>
      if hears signal request then request.settleCancel else request
    pendingRequests :=
      connection.pendingRequests.filter fun id => !connection.isHearing signal id
    sent := connection.sent ++ (heard.filter connection.isWritten).map .cancelRequest }

def outcomeOf (message : Json) : Outcome :=
  match message.member "error" with
  | some value => .rejected (.response value)
  | none => .resolved (message.member "result")

/-- A response whose id is that of the request as a text.  A response to a request that has
no entry is dropped. -/
def handleResponse (id : Nat) (message : Json) : Connection :=
  match connection.requests id with
  | none => connection
  | some request =>
    let request := { request with responded := true }
    if id ∈ connection.pendingRequests then
      (connection.forget id).put id (request.settle (outcomeOf message))
    else connection.put id request

def dispose : Connection :=
  if connection.disposed then connection
  else
    { connection with
      disposed := true
      requests := fun id => (connection.requests id).map fun request =>
        if id ∈ connection.pendingRequests then
          request.settle (.rejected (.error "Error" "JSON-RPC connection disposed"))
        else request
      pendingRequests := [] }

/-- What happens at a label.  A label that cannot happen now gives no state. -/
def step : ConnectionLabel → Option Connection
  | .sendRequest signal => some (connection.sendRequest signal)
  | .written id failure =>
    match connection.requests id with
    | some request =>
      match request.body with
      | .writing =>
        some (connection.put id
          { request with body := .resuming failure, writeFailed := failure.isSome })
      | _ => none
    | none => none
  | .resume id => (connection.requests id).bind (connection.resume id)
  | .cancelWritten id failure =>
    match connection.requests id with
    | some request =>
      match request.cancel with
      | .writing => some (connection.put id { request with cancel := .resuming failure })
      | _ => none
    | none => none
  | .resumeCancel id =>
    match connection.requests id with
    | some request =>
      match request.cancel with
      | .resuming failure =>
        some
          { connection.put id
              { request with
                cancel := .done
                outcomes := request.outcomes ++ [connection.rejectCancelled request] } with
            emitted := connection.emitted ++ failure.toList }
      | _ => none
    | none => none
  | .abort signal reason =>
    if connection.isAborted (some signal) then none else some (connection.abort signal reason)
  | .handleResponse id message => some (connection.handleResponse id message)
  | .dispose => some connection.dispose

end Connection

end OpenAgent.Lsp
