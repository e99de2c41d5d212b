import OpenAgent.Dag.SharedRuns

/-!
# Sending to a node

`sendToDagNode` of `dag/node-send.ts`.  The run and the node are checked in front
of the delivery, which the task manager takes any time for; the outcome is folded
into the record that is there afterwards.
-/

namespace OpenAgent.Dag

open Library

/-- The codes of `DagNodeControlErrorCode` that a send to a known run raises. -/
inductive SendErrorCode
  | runNotOwned
  | nodeNotFound
  | nodeHasNoTask
  | nodeNotContinuable

/-- `DagNodeControlError`. -/
structure SendError where
  code : SendErrorCode
  message : String
  runId : DagRunId
  nodeIds : List DagNodeId

/-- `SendOutcome` of the steering engine. -/
inductive SendOutcome
  | queued (queuePosition : Nat)
  | steered
  | revived
  | deliveryUncertain (reason suggestion : String)
  | capacityDeferred (reason : String)
  | oneShotAgent (agent message : String)
  | scopeDenied (reason : String)
  | notContinuable (reason : String)
  | notFound

/-- How a message was delivered, with the queue position of one that waits. -/
inductive DagNodeDelivery
  | steer
  | revive
  | queued (queuePosition : Nat)

/-- The refusals of `sendToDagNode`, or the node and its task. -/
def sendTarget (isAlive : Nat → Bool) (hostPid : Nat) (taskKnown : String → Bool)
    (record : DagRunRecordV1) (nodeId : DagNodeId) : Except SendError (DagNode × String) :=
  if leasedElsewhere isAlive hostPid record then
    .error
      { code := .runNotOwned
        message := "dag run \"" ++ record.runId ++ "\" is leased by live process " ++
          toString (record.leaseHolderPid.getD 0)
        runId := record.runId
        nodeIds := [] }
  else
    match nodeById record nodeId with
    | none =>
      .error
        { code := .nodeNotFound
          message := "unknown dag node \"" ++ nodeId ++ "\""
          runId := record.runId
          nodeIds := [nodeId] }
    | some node =>
      if record.status = .completed then
        .error
          { code := .nodeNotContinuable
            message := "dag run \"" ++ record.runId ++ "\" already completed; node \"" ++
              nodeId ++ "\" cannot be steered or revived. Amend the definition or start a new run."
            runId := record.runId
            nodeIds := [nodeId] }
      else if record.status = .cancelled then
        .error
          { code := .nodeNotContinuable
            message := "dag run \"" ++ record.runId ++ "\" was cancelled; node \"" ++ nodeId ++
              "\" cannot be steered or revived. Retry the node to run it again."
            runId := record.runId
            nodeIds := [nodeId] }
      else
        match node.taskId with
        | none =>
          .error
            { code := .nodeHasNoTask
              message := "dag node \"" ++ nodeId ++
                "\" never started a child; retry the run to dispatch it"
              runId := record.runId
              nodeIds := [nodeId] }
        | some taskId =>
          if taskKnown taskId then .ok (node, taskId)
          else
            .error
              { code := .nodeNotFound
                message := "dag node \"" ++ nodeId ++ "\" points at task " ++ taskId ++
                  ", which no longer exists"
                runId := record.runId
                nodeIds := [nodeId] }

/-- The refusal of a message that was not delivered. -/
def undelivered (runId : DagRunId) (node : DagNode) (message : String) :
    Except SendError DagNodeDelivery :=
  .error
    { code := .nodeNotContinuable
      message := "dag node \"" ++ node.id ++ "\" " ++ message
      runId := runId
      nodeIds := [node.id] }

/-- `foldSendOutcome`, on the run as it is when the delivery has returned. -/
def foldSendOutcome (env : SchedulerEnv) (run : StoredRun) (node : DagNode)
    (taskId : String) : SendOutcome → StoredRun × Except SendError DagNodeDelivery
  | .queued queuePosition => (run, .ok (.queued queuePosition))
  | .steered => (run.commit env .empty (.nodeSteered node.id taskId .steer), .ok .steer)
  | .revived =>
    ((run.commit env .empty (.nodeSteered node.id taskId .revive)).commit env .empty
      (.nodeTransitioned node.id node.state .running .revived), .ok .revive)
  | .deliveryUncertain reason suggestion =>
    (run, undelivered run.record.runId node
      ("has uncertain delivery for task " ++ taskId ++ ": " ++ reason ++ " " ++ suggestion))
  | .capacityDeferred reason =>
    (run, undelivered run.record.runId node ("could not revive: " ++ reason))
  | .oneShotAgent agent message =>
    (run, undelivered run.record.runId node
      ("runs one-shot agent " ++ agent ++ ": " ++ message ++ " Retry the node instead."))
  | .scopeDenied reason =>
    (run, undelivered run.record.runId node
      ("cannot be messaged: " ++ reason ++ " Retry the node instead."))
  | .notContinuable reason =>
    (run, undelivered run.record.runId node
      ("cannot be continued: " ++ reason ++ " Retry the node to run it again."))
  | .notFound =>
    (run, .error
      { code := .nodeNotFound
        message := "dag node \"" ++ node.id ++ "\" points at task " ++ taskId ++
          ", which no longer exists"
        runId := run.record.runId
        nodeIds := [node.id] })

end OpenAgent.Dag
