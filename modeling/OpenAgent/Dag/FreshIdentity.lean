import OpenAgent.Dag.Attempts

/-!
# Fresh owners

A node that goes back to pending must not own an old task.  Retries, amendments
and recovery advance the attempt of a node they put back, and the attempt is part
of its owner.  Two ways back leave the attempt alone: an amendment compiles an
added node afresh, whatever ran under its id before, and recovery returns a
scheduled node whose task it cannot find and cannot start.
-/

namespace OpenAgent.Dag

open Library

/-- What happens to a run: commits of the scheduler and of steering, changes of
its lease, starts and ends of tasks, and the verbs. -/
inductive RunAction
  | commit (tables : SideTables) (payload : DagRunEventPayload)
  | lease (parentSessionId rootSessionId : String)
      (leaseHolderPid previousLeaseHolderPid : Option Nat)
  | startOwned (nodeId : DagNodeId) (effect : StartEffect)
  | changeTask (taskId : String) (task : TaskRecord)
  | expireTask (taskId : String)
  | retry (request : RetryRequest)
  | amend (request : AmendRequest)
  | reconcile (nodeId : DagNodeId) (effect : StartEffect) (transcript : Bool)

section

variable (sha256 : List Char → String)

section

variable (run : StoredRun)

/-- One action, with the clocks, the processes and the file system at that time. -/
def runStep (label : SchedulerEnv × RunAction) : Option StoredRun :=
  match label.2 with
  | .commit tables payload =>
    if isOrdinary payload then some (run.commit label.1 tables payload) else none
  | .lease parentSessionId rootSessionId leaseHolderPid previousLeaseHolderPid =>
    some
      { run with
        record :=
          { run.record with
            parentSessionId, rootSessionId, leaseHolderPid, previousLeaseHolderPid } }
  | .startOwned nodeId effect =>
    match nodeById run.record nodeId with
    | none => none
    | some node =>
      if node.state = .scheduled then some (run.startOwned sha256 node effect).2 else none
  | .changeTask taskId task => some (run.changeTask taskId task)
  | .expireTask taskId => some (run.expireTask taskId)
  | .retry request => some (retryDagNodes label.1 sha256 run request).1
  | .amend request => some (amendRun label.1 sha256 run request).1
  | .reconcile nodeId effect transcript =>
    if run.record.status = .paused then
      (nodeById run.record nodeId).map fun observed =>
        run.reconcileNode label.1 sha256 observed effect transcript
    else none

/-- The run that `startRun` leaves behind. -/
def createdRun (start : DagStart) : StoredRun where
  record :=
    { start.created with
      definitionFingerprint := fingerprintDefinition sha256 start.definition }
  files := { output := fun _ => none, stats := fun _ => none }
  tasks := []
  starts := []

/-- A node has gone back to pending. -/
def PutBack (before : DagRunRecordV1) (node : DagNode) : Prop :=
  node.state = .pending ∧ ∀ old ∈ before.nodes, old.id = node.id → old.state = .pending →
    old.execAttempt ≠ node.execAttempt
  deriving Decidable

/-- No task was started under the owner of a node that goes back to pending. -/
def FreshReturns (run next : StoredRun) : Prop :=
  ∀ node ∈ next.record.nodes, PutBack run.record node →
    (node.id, ownerFingerprint sha256 next.record node) ∉ run.starts

instance (run next : StoredRun) : Decidable (FreshReturns sha256 run next) :=
  inferInstanceAs (Decidable (∀ _ ∈ _, _))

/-- An amendment adds only ids under which nothing was started. -/
def AddsUnstarted (request : AmendRequest) : Prop :=
  ∀ input ∈ request.definition.nodes, input.id ∉ run.record.nodes.map (·.id) →
    input.id ∉ run.starts.map Prod.fst

/-- A scheduled node without a task, neither attached nor stored, has an owner
that never started one. -/
def LacksNoTask (nodeId : DagNodeId) : Prop :=
  ∀ node ∈ run.record.nodes, node.id = nodeId → node.state = .scheduled →
    node.taskId = none → run.findOwnedTask nodeId = none →
      (nodeId, ownerFingerprint sha256 run.record node) ∉ run.starts

/-- The two ways back to pending with an old attempt lead to new owners. -/
def ReturnsUnstarted (label : SchedulerEnv × RunAction) (_ : StoredRun) : Prop :=
  match label.2 with
  | .amend request => AddsUnstarted run request
  | .reconcile nodeId effect _ => effect = .residencyDenied → LacksNoTask sha256 run nodeId
  | _ => True

instance (request : AmendRequest) : Decidable (AddsUnstarted run request) :=
  inferInstanceAs (Decidable (∀ _ ∈ _, _))

instance  (nodeId : DagNodeId) : Decidable (LacksNoTask sha256 run nodeId) :=
  inferInstanceAs (Decidable (∀ _ ∈ _, _))

instance (next : StoredRun) :
    ∀ label, Decidable (ReturnsUnstarted sha256 run label next) := by
  intro label
  unfold ReturnsUnstarted
  split <;> infer_instance

end

/-- Where a node comes from. -/
inductive Origin (sha256 : List Char → String) (run next : StoredRun) (node : DagNode) : Prop
  | followed (member : old ∈ run.record.nodes) (follows : Follows old node)
  | returned (member : old ∈ run.record.nodes) (sameId : old.id = node.id)
      (sameAttempt : old.execAttempt = node.execAttempt)
      (unstarted : (node.id, ownerFingerprint sha256 next.record node) ∉ run.starts)
  | added (new : node.id ∉ run.record.nodes.map (·.id))
      (unstarted : node.id ∉ run.starts.map Prod.fst)

/-- Nodes come from somewhere, and only the owners of nodes start tasks. -/
structure StepEffect (run next : StoredRun) : Prop where
  identified : WellIdentified next.record
  origin : ∀ node ∈ next.record.nodes, Origin sha256 run next node
  starts : ∀ start ∈ next.starts, start ∈ run.starts ∨
    ∃ node ∈ run.record.nodes, start = (node.id, ownerFingerprint sha256 run.record node)

end

/-- Commits, perhaps behind a start. -/
theorem StepEffect.of_advances (identified : WellIdentified run.record)
    (sameRecord : started.record = run.record)
    (starts : ∀ start ∈ started.starts, start ∈ run.starts ∨
      ∃ node ∈ run.record.nodes, start = (node.id, ownerFingerprint sha256 run.record node))
    (advances : Advances started next) : StepEffect sha256 run next := by
  have continues := advances.continues
  rw [sameRecord] at continues
  refine ⟨continues.identified identified, ?_, advances.starts ▸ starts⟩
  intro node member
  obtain ⟨old, isOld, follows⟩ := continues.follows node member
  exact .followed isOld follows

theorem Advances.effect (advances : Advances run next) (identified : WellIdentified run.record) :
    StepEffect sha256 run next :=
  .of_advances identified rfl (fun _ member => .inl member) advances

/-- A start for a node of the run. -/
theorem effect_startOwned (identified : WellIdentified run.record)
    (member : node ∈ run.record.nodes)
    (claims : started = run ∨ ∃ task, started = run.claimTask sha256 node task)
    (advances : Advances started next) : StepEffect sha256 run next := by
  obtain rfl | ⟨task, rfl⟩ := claims
  · exact advances.effect identified
  · refine .of_advances identified ?_ ?_ advances
    · rfl
    · intro start isStart
      obtain isOld | isNew := List.mem_append.mp isStart
      · exact .inl isOld
      · exact .inr ⟨node, member, List.mem_singleton.mp isNew⟩

variable {run : StoredRun}

section

variable
  (env : SchedulerEnv)
  (identified : WellIdentified run.record)
  (member : observed ∈ run.record.nodes)
include env identified member

/-- Without room a node keeps its owner. -/
theorem effect_returned
    (unstarted : (observed.id, ownerFingerprint sha256 run.record observed) ∉ run.starts) :
    StepEffect sha256 run (run.commit env .empty
      (.nodeTransitioned observed.id .scheduled .pending .resumed)) := by
  obtain ⟨starts, unchanged | ⟨event, isReturn, changed⟩⟩ := commit_cases env run .empty
    (.nodeTransitioned observed.id .scheduled .pending .resumed)
  · have advances : Advances run _ :=
      ⟨(Continues.refl run.record).congr (by rw [unchanged]) (by rw [unchanged]), starts⟩
    exact advances.effect identified
  · set next := run.commit env .empty (.nodeTransitioned observed.id .scheduled .pending .resumed)
    let change : DagNode → DagNode := transitionedWithResult .pending event.atTime none none
    have nodes : next.record.nodes = (updateNodes run.record observed.id change).nodes := by
      rfl
    have sameIds : next.record.nodes.map (·.id) = run.record.nodes.map (·.id) := by
      rw [nodes, updateNodes, List.map_map]
      apply List.map_congr_left
      intro node _
      by_cases isObserved : node.id = observed.id
      · simp only [Function.comp_apply, if_pos isObserved]
        exact (transitionedWithResult_fields .pending event.atTime none none node).1
      · simp only [Function.comp_apply, if_neg isObserved]
    refine ⟨⟨sameIds ▸ identified.nodup, ?_⟩, ?_, ?_⟩
    · rw [sameIds, ← identified.definition]
      rfl
    · intro node isNode
      obtain ⟨old, isOld, rfl⟩ := List.mem_map.mp isNode
      by_cases isObserved : old.id = observed.id
      · cases List.inj_on_of_nodup_map identified.nodup isOld member isObserved
        have sameId := (transitionedWithResult_fields .pending event.atTime none none observed).1
        have sameAttempt := execAttempt_transitioned .pending event.atTime none none observed
        simp only
        refine .returned member sameId.symm sameAttempt.symm ?_
        exact unstarted
      · simp only [if_neg isObserved]
        exact .followed isOld (.refl old)
    · intro start isStart
      exact .inl (starts ▸ isStart)

theorem effect_reconcileUnstarted
    (unstarted : effect = .residencyDenied →
      (observed.id, ownerFingerprint sha256 run.record observed) ∉ run.starts) :
    StepEffect sha256 run (run.reconcileUnstarted env sha256 observed effect) := by
  unfold StoredRun.reconcileUnstarted
  obtain ⟨isDenied, outcome⟩ | ⟨result, started, notDenied, outcome, claims⟩ :=
    startOwned_cases sha256 run observed effect
  · rw [outcome]
    exact effect_returned env identified member (unstarted isDenied)
  · have nodup : (started.record.nodes.map (·.id)).Nodup := by
      obtain rfl | ⟨task, rfl⟩ := claims
      · exact identified.nodup
      · exact identified.nodup
    have failed (code message) : Advances started
          ((started.failNode env observed.id code message).reconcileMissing env observed false) :=
      (advances_failNode env started observed.id code message).trans
        (advances_reconcileMissing env _ observed false)
    rw [outcome]
    refine effect_startOwned identified member claims ?_
    cases result with
    | residencyDenied => exact absurd rfl notDenied
    | started task =>
      have attached := advances_attachTask env started observed.id task.taskId
      dsimp only
      split
      · exact attached.trans (advances_reconcileTask env _ observed _ (attached.nodup nodup))
      · exact attached.trans (advances_reconcileMissing env _ observed false)
    | depthDenied reason | planUnresolved message | startFailed message | ownerConflict taskId =>
      exact failed _ _

theorem effect_reconcileNode
    (unstarted : effect = .residencyDenied → observed.state = .scheduled →
      observed.taskId = none → run.findOwnedTask observed.id = none →
        (observed.id, ownerFingerprint sha256 run.record observed) ∉ run.starts) :
    StepEffect sha256 run (run.reconcileNode env sha256 observed effect transcript) := by
  have active : StepEffect sha256 run
      (run.reconcileActive env sha256 observed effect transcript) := by
    unfold StoredRun.reconcileActive
    dsimp only
    split
    · next task isTask =>
        have attached : Advances run (if observed.taskId = some task.taskId then run
            else run.attachTask env observed.id task.taskId) := by
          split
          · exact .refl run
          · exact advances_attachTask env run observed.id task.taskId
        exact (attached.trans (advances_reconcileTask env _ observed task
          (attached.nodup identified.nodup))).effect identified
    · next noTask =>
        split
        · next unattached =>
            have notFound : run.findOwnedTask observed.id = none := by
              cases found : run.findOwnedTask observed.id with
              | none => rfl
              | some owned => simp [found] at noTask
            exact effect_reconcileUnstarted env identified member fun isDenied =>
              unstarted isDenied unattached.1 unattached.2 notFound
        · exact (advances_reconcileMissing env run observed transcript).effect identified
  have unchanged : StepEffect sha256 run run := (Advances.refl run).effect identified
  unfold StoredRun.reconcileNode
  split
  · split
    · exact (advances_commit env run .empty rfl).effect identified
    · exact unchanged
  · exact active
  · exact active
  all_goals exact unchanged

end

/-- An amendment that adds only ids under which nothing was started. -/
theorem effect_amendRun (identified : WellIdentified run.record)
    (unstarted : AddsUnstarted run request) :
    StepEffect sha256 run (amendRun env sha256 run request).1 := by
  obtain advances | amended := amended_of_amendRun sha256
  · exact advances.effect identified
  · refine ⟨⟨amended.ids ▸ amended.nodup, amended.definitionIds.trans amended.ids.symm⟩, ?_, ?_⟩
    · intro node member
      obtain ⟨old, isOld, follows⟩ | new := amended.origin node member
      · exact .followed isOld follows
      · have inDefinition : node.id ∈ request.definition.nodes.map (·.id) :=
          amended.ids ▸ List.mem_map_of_mem member
        obtain ⟨input, isInput, sameId⟩ := List.mem_map.mp inDefinition
        exact .added new (sameId ▸ unstarted input isInput (sameId ▸ new))
    · intro start isStart
      exact .inl (amended.starts ▸ isStart)

theorem effect_of_step (identified : WellIdentified run.record)
    (meets : ReturnsUnstarted sha256 run label next)
    (stepped : runStep sha256 run label = some next) : StepEffect sha256 run next := by
  obtain ⟨env, action⟩ := label
  cases action with
  | commit tables payload =>
    by_cases ordinary : isOrdinary payload = true
    · simp only [runStep, if_pos ordinary, Option.some.injEq] at stepped
      subst stepped
      exact (advances_commit env run tables ordinary).effect identified
    · simp [runStep, ordinary] at stepped
  | lease parentSessionId rootSessionId leaseHolderPid previousLeaseHolderPid =>
    cases stepped
    refine Advances.effect ?_ identified
    exact ⟨(Continues.refl run.record).congr rfl rfl, rfl⟩
  | startOwned nodeId effect =>
    cases found : nodeById run.record nodeId with
    | none => simp [runStep, found] at stepped
    | some node =>
      have member := (mem_of_nodeById found).1
      simp only [runStep, found, Option.ite_none_right_eq_some, Option.some.injEq] at stepped
      obtain ⟨_, rfl⟩ := stepped
      obtain ⟨_, outcome⟩ | ⟨result, started, _, outcome, claims⟩ :=
        startOwned_cases sha256 run node effect
      · rw [outcome]
        exact (Advances.refl run).effect identified
      · rw [outcome]
        exact effect_startOwned identified member claims (.refl started)
  | changeTask taskId task =>
    cases stepped
    have advances : Advances run (run.changeTask taskId task) := ⟨.refl run.record, rfl⟩
    exact advances.effect identified
  | expireTask taskId =>
    cases stepped
    have advances : Advances run (run.expireTask taskId) := ⟨.refl run.record, rfl⟩
    exact advances.effect identified
  | retry request =>
    cases stepped
    exact (advances_retryDagNodes sha256 identified).effect identified
  | amend request =>
    cases stepped
    exact effect_amendRun identified meets
  | reconcile nodeId effect transcript =>
    simp only [runStep, Option.ite_none_right_eq_some, Option.map_eq_some_iff] at stepped
    obtain ⟨_, observed, found, rfl⟩ := stepped
    obtain ⟨member, rfl⟩ := mem_of_nodeById found
    refine effect_reconcileNode env identified member ?_
    intro isDenied isScheduled unattached notFound
    exact meets isDenied observed member rfl isScheduled unattached notFound

/-- Tasks were started under attempts up to the current one. -/
structure Identified (sha256 : List Char → String) (run : StoredRun) : Prop where
  wellIdentified : WellIdentified run.record
  bounded : ∀ node ∈ run.record.nodes, ∀ fingerprint, (node.id, fingerprint) ∈ run.starts →
    ∃ definitionFingerprint attempt, fingerprint =
        dagFingerprint sha256 (ownerFingerprintInput definitionFingerprint node.id attempt) ∧
      attempt.getD 0 ≤ node.execAttempt.getD 0

theorem identified_of_effect (identified : Identified sha256 run)
    (effect : StepEffect sha256 run next) : Identified sha256 next := by
  refine ⟨effect.identified, ?_⟩
  intro node member fingerprint started
  have before (old : DagNode) (isOld : old ∈ run.record.nodes) (sameId : old.id = node.id)
      (attempts : old.execAttempt.getD 0 ≤ node.execAttempt.getD 0) :
      ∃ definitionFingerprint attempt, fingerprint =
          dagFingerprint sha256 (ownerFingerprintInput definitionFingerprint node.id attempt) ∧
        attempt.getD 0 ≤ node.execAttempt.getD 0 := by
    obtain wasStarted | ⟨owner, isOwner, isStart⟩ := effect.starts _ started
    · obtain ⟨definitionFingerprint, attempt, isOwned, bound⟩ :=
        identified.bounded old isOld fingerprint (sameId ▸ wasStarted)
      exact ⟨definitionFingerprint, attempt, sameId ▸ isOwned, bound.trans attempts⟩
    · injection isStart with ownerId isOwned
      cases List.inj_on_of_nodup_map identified.wellIdentified.nodup isOwner isOld
        (ownerId.symm.trans sameId.symm)
      exact ⟨run.record.definitionFingerprint, old.execAttempt, ownerId ▸ isOwned, attempts⟩
  cases effect.origin node member with
  | followed isOld follows => exact before _ isOld follows.sameId follows.attempt_le
  | returned isOld sameId sameAttempt unstarted =>
    exact before _ isOld sameId (sameAttempt ▸ le_rfl)
  | added new unstarted =>
    obtain wasStarted | ⟨owner, isOwner, isStart⟩ := effect.starts _ started
    · exact absurd (List.mem_map_of_mem wasStarted) unstarted
    · injection isStart with ownerId isOwned
      exact absurd (ownerId ▸ List.mem_map_of_mem isOwner) new

theorem freshReturns_of_effect (injective : Function.Injective sha256)
    (identified : Identified sha256 run) (effect : StepEffect sha256 run next) :
    FreshReturns sha256 run next := by
  rintro node member ⟨pending, returns⟩ started
  cases effect.origin node member with
  | followed isOld follows =>
    cases follows with
    | kept sameId sameAttempt wasPending =>
      exact returns _ isOld sameId (wasPending pending) sameAttempt
    | bumped sameId later =>
      obtain ⟨definitionFingerprint, attempt, isOwned, bound⟩ :=
        identified.bounded _ isOld _ (sameId ▸ started)
      have sameAttempt := execAttempt_of_ownerFingerprint injective isOwned
      omega
  | returned isOld sameId sameAttempt unstarted => exact unstarted started
  | added new unstarted => exact unstarted (List.mem_map_of_mem started)

theorem identified_createdRun (sha256 : List Char → String) (accepted : start.Accepted) :
    Identified sha256 (createdRun sha256 start) := by
  obtain ⟨rank, graph⟩ := wellFormedGraph_of_accepted accepted
  refine ⟨⟨graph.nodupIds, ?_⟩, ?_⟩
  · change (start.definition.nodes.map _).map _ = start.compiled.nodes.map (·.id)
    rw [DagStart.compiled, compileDag_nodes accepted, List.map_map, List.map_map]
    rfl
  · intro node member fingerprint started
    cases started

/-- In a run whose amendments add only ids under which nothing was started, and
whose recovery has room for every node with an expired task, each node that goes
back to pending has an owner that never started a task. -/
theorem freshReturns_of_returnsUnstarted {sha256 : List Char → String}
    (injective : Function.Injective sha256) {start : DagStart} (accepted : start.Accepted)
    {labels : List (SchedulerEnv × RunAction)}
    (everyStep : EveryStep (runStep sha256) (ReturnsUnstarted sha256)
      (createdRun sha256 start) labels) :
    EveryStep (runStep sha256) (fun run _ next => FreshReturns sha256 run next)
      (createdRun sha256 start) labels := by
  refine everyStep.of_invariant ?_ (identified_createdRun sha256 accepted)
  intro run label next identified meets stepped
  have effect := effect_of_step identified.wellIdentified meets stepped
  exact ⟨freshReturns_of_effect injective identified effect, identified_of_effect identified effect⟩

/-- A hash with short digests for the texts of a table. -/
def tableDigest (table : List (List Char)) (text : List Char) : String :=
  if text ∈ table then String.ofList (List.replicate (table.idxOf text) '+')
  else String.ofList ('-' :: text)

theorem tableDigest_injective : Function.Injective (tableDigest table) := by
  intro left right same
  unfold tableDigest at same
  by_cases leftListed : left ∈ table <;> by_cases rightListed : right ∈ table
  · rw [if_pos leftListed, if_pos rightListed] at same
    have lengths := congrArg List.length (String.ofList_injective same)
    rw [List.length_replicate, List.length_replicate] at lengths
    exact (List.idxOf_inj leftListed).mp lengths
  · rw [if_pos leftListed, if_neg rightListed] at same
    have isPlus := List.eq_of_mem_replicate
      (String.ofList_injective same ▸ List.mem_cons_self : '-' ∈ List.replicate _ '+')
    cases isPlus
  · rw [if_neg leftListed, if_pos rightListed] at same
    have isPlus := List.eq_of_mem_replicate
      (String.ofList_injective same.symm ▸ List.mem_cons_self : '-' ∈ List.replicate _ '+')
    cases isPlus
  · rw [if_neg leftListed, if_neg rightListed] at same
    exact List.tail_eq_of_cons_eq (String.ofList_injective same)

/-- Clocks that stand still, and dead processes. -/
def stillEnv : SchedulerEnv where
  isAlive := fun _ => false
  store := fun _ => { sha256 := id, stateDir := "/state", failure := fun _ => none }
  eventTime := fun _ => "2026-01-01T00:00:00.000Z"
  errorTime := fun _ => "2026-01-01T00:00:00.000Z"
  copyTime := fun _ => "2026-01-01T00:00:00.000Z"

def sampleTask (taskId : String) (status : TaskStatus) : TaskRecord where
  taskId := taskId
  status := status
  finalResponse := none
  errorMessage := none
  runStats := none
  startedAt := none

/-- An amendment of the sample run. -/
def sampleAmendment (nodes : List DagNodeInput) : AmendRequest where
  definition := { key := "key", name := "sample", nodes := nodes }
  parentSessionId := "ses_parent"
  settings := dagSettingsDefaults
  effectivePrompts := fun _ => none
  materializedDiagnostics := []
  atTime := "2026-01-01T00:00:02.000Z"

/-- Two nodes that do not depend on each other. -/
def pairStart : DagStart :=
  sampleStart [sampleNode "a" [], sampleNode "b" []]

/-- The first of the two fails, and the run with it. -/
def failedRun : List RunAction :=
  [ .commit .empty (.runStarted 1),
    .commit .empty (.nodeTransitioned "a" .pending .scheduled .scheduled),
    .commit .empty (.nodeTransitioned "b" .pending .scheduled .scheduled),
    .startOwned "a" (.claimed (sampleTask "task_1" .running) none),
    .startOwned "b" (.claimed (sampleTask "task_2" .running) none),
    .changeTask "task_1" (sampleTask "task_1" .error),
    .commit .empty (.nodeTransitioned "a" .scheduled .failed .failed),
    .changeTask "task_2" (sampleTask "task_2" .completed),
    .commit .empty (.nodeTransitioned "b" .scheduled .completed .succeeded),
    .commit .empty (.runFailed ⟨.taskError, "task failed", some "a", ""⟩ (countNodes [])) ]

/-- A retry, a task that is lost before its launch, and an amendment with a new
node. -/
def returningRun : List RunAction :=
  failedRun ++
    [ .retry
        { nodeIds := none
          prompt := none
          hostPid := 1
          effectivePrompts := fun _ => none
          materializedDiagnostics := []
          atTime := "2026-01-01T00:00:01.000Z" },
      .commit .empty (.nodeTransitioned "a" .pending .scheduled .scheduled),
      .startOwned "a" (.claimed (sampleTask "task_3" .pending) none),
      .commit .empty (.runPaused (some "session_shutdown")),
      .changeTask "task_3" (sampleTask "task_3" .lost),
      .reconcile "a" .residencyDenied false,
      .amend (sampleAmendment
        [{ sampleNode "a" [] with prompt := "work harder" }, sampleNode "b" [],
          sampleNode "c" ["a"]]) ]

/-- The failed node is taken out of the definition and put back in. -/
def readdingRun : List RunAction :=
  failedRun ++
    [ .amend (sampleAmendment [sampleNode "b" []]),
      .amend (sampleAmendment [sampleNode "a" [], sampleNode "b" []]) ]

/-- A hash with short digests for the sample definitions. -/
def sampleDigest : List Char → String :=
  tableDigest
    [ canonicalize (definitionFingerprintInput pairStart.definition),
      canonicalize (definitionFingerprintInput (sampleAmendment [sampleNode "b" []]).definition) ]

theorem returnsUnstarted_returningRun :
    EveryStep (runStep sampleDigest) (ReturnsUnstarted sampleDigest)
      (createdRun sampleDigest pairStart) (returningRun.map (stillEnv, ·)) := by
  decide +kernel

/-- A run with three ways back to pending. -/
theorem freshReturns_returningRun :
    (execute (runStep sampleDigest) (createdRun sampleDigest pairStart)
        (returningRun.map (stillEnv, ·))).map
        (fun run => run.record.nodes.map fun node => (node.id, node.state, node.execAttempt)) =
      some [("a", .pending, some 3), ("b", .completed, none), ("c", .pending, none)] ∧
    EveryStep (runStep sampleDigest) (fun run _ next => FreshReturns sampleDigest run next)
      (createdRun sampleDigest pairStart) (returningRun.map (stillEnv, ·)) := by
  constructor
  · decide +kernel
  · have accepted : pairStart.Accepted := by decide +kernel
    exact freshReturns_of_returnsUnstarted tableDigest_injective accepted
      returnsUnstarted_returningRun

/-- The definition is the first one again, and so is the attempt of the node. -/
theorem not_freshReturns_readdingRun :
    ¬EveryStep (runStep sampleDigest) (fun run _ next => FreshReturns sampleDigest run next)
      (createdRun sampleDigest pairStart) (readdingRun.map (stillEnv, ·)) := by
  decide +kernel

/-- A task is lost before it is attached, its record expires, and recovery has no
room for its node. -/
example : ¬EveryStep (runStep sampleDigest) (fun run _ next => FreshReturns sampleDigest run next)
      (createdRun sampleDigest pairStart)
      ([ .commit .empty (.runStarted 1),
          .commit .empty (.nodeTransitioned "a" .pending .scheduled .scheduled),
          .startOwned "a" (.claimed (sampleTask "task_1" .running) none),
          .changeTask "task_1" (sampleTask "task_1" .lost),
          .expireTask "task_1",
          .commit .empty (.runPaused (some "session_shutdown")),
          .reconcile "a" .residencyDenied false ].map (stillEnv, ·)) := by
  decide +kernel

end OpenAgent.Dag
