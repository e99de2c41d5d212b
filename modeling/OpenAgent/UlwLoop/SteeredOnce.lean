import OpenAgent.Library.Execution
import OpenAgent.UlwLoop.Steering

/-!
# When a keyed steering is applied once

`steerUlwLoop` and `steerUlwLoopBatch` on the files of a plan and of its ledger.  A key is looked
up in the ledger, and the plan is written in front of the ledger.  Calls come one after the other,
as the state lock has it, and a call may be cut off between two of its file operations.
-/

namespace OpenAgent.UlwLoop

open Library

/-- The kinds of ledger entries. -/
inductive LedgerKind
  | steeringAccepted
  | steeringRejected
  | criteriaRevised
  | batchUpdated

/-- `UlwLoopSteeringAudit`, as far as a key is looked up in it. -/
structure SteeringAudit where
  accepted : Bool
  idempotencyKey : Option Text
  promptSignature : Option Text

structure SteeringLedgerEntry where
  kind : LedgerKind
  idempotencyKey : Option Text
  steering : Option SteeringAudit

namespace SteeringProposal

variable (proposal : SteeringProposal)

/-- `proposal.idempotencyKey ?? proposal.promptSignature`. -/
def key : Option Text :=
  proposal.idempotencyKey.or proposal.promptSignature

/-- `auditFor`. -/
def audit (reasons : List Text) : SteeringAudit where
  accepted := reasons = []
  idempotencyKey := filled proposal.idempotencyKey
  promptSignature := filled proposal.promptSignature

/-- `ledgerEntry`. -/
def ledgerEntry (reasons : List Text) : SteeringLedgerEntry where
  kind :=
    if reasons = [] then
      if proposal.kind = .reviseCriterion then .criteriaRevised else .steeringAccepted
    else .steeringRejected
  idempotencyKey := proposal.idempotencyKey
  steering := some (proposal.audit reasons)

end SteeringProposal

/-- `findAcceptedSteeringLedgerEntry`. -/
def findAccepted (ledger : List SteeringLedgerEntry) (key : Text) : Option SteeringLedgerEntry :=
  ledger.find? fun entry => entry.steering.any fun steering => steering.accepted &&
    (entry.idempotencyKey = some key || steering.idempotencyKey = some key ||
      steering.promptSignature = some key)

/-- The prior entry of a proposal. -/
def priorEntry (ledger : List SteeringLedgerEntry) (proposal : SteeringProposal) :
    Option SteeringLedgerEntry :=
  proposal.key.bind (findAccepted ledger)

/-- `batchUpdateLedgerEntry`. -/
def batchUpdate (before after : Plan) : List SteeringLedgerEntry :=
  if before.batches = after.batches then []
  else [{ kind := .batchUpdated, idempotencyKey := none, steering := none }]

/-- The files, with the proposals whose mutations are in the stored plan. -/
structure SteeringFiles where
  plan : Plan
  ledger : List SteeringLedgerEntry
  applied : List SteeringProposal

inductive FileWrite
  | plan (next : Plan) (applied : List SteeringProposal)
  | ledger (entries : List SteeringLedgerEntry)

def SteeringFiles.perform (files : SteeringFiles) : FileWrite → SteeringFiles
  | .plan next applied => { files with plan := next, applied := files.applied ++ applied }
  | .ledger entries => { files with ledger := files.ledger ++ entries }

/-- The file operations of `steerUlwLoop`. -/
def steerUlwLoop (files : SteeringFiles) (proposal : SteeringProposal) : List FileWrite :=
  if (priorEntry files.ledger proposal).isSome then []
  else
    let reasons := files.plan.validateSteering proposal
    if reasons = [] then
      let next := files.plan.applySteeringMutation proposal
      [.plan next [proposal], .ledger [proposal.ledgerEntry []],
        .ledger (batchUpdate files.plan next)]
    else [.ledger [proposal.ledgerEntry reasons]]

/-- `PreparedItem`, with the rejected ones apart. -/
inductive PreparedItem
  | deduped
  | rejected (reasons : List Text)
  | fresh (proposal : SteeringProposal) (next : Plan)

namespace PreparedItem

def isRejected : PreparedItem → Bool
  | rejected _ => true
  | _ => false

def proposal? : PreparedItem → Option SteeringProposal
  | fresh proposal _ => some proposal
  | _ => none

/-- The plan behind an item. -/
def planAfter (plan : Plan) : PreparedItem → Plan
  | fresh _ next => next
  | _ => plan

end PreparedItem

/-- `prepareBatch`. -/
def prepareBatch (ledger : List SteeringLedgerEntry) :
    Plan → List SteeringProposal → List PreparedItem
  | _, [] => []
  | current, proposal :: rest =>
    if (priorEntry ledger proposal).isSome then .deduped :: prepareBatch ledger current rest
    else
      let reasons := current.validateSteering proposal
      if reasons = [] then
        let next := current.applySteeringMutation proposal
        .fresh proposal next :: prepareBatch ledger next rest
      else .rejected reasons :: prepareBatch ledger current rest

/-- The file operations of `steerUlwLoopBatch`. -/
def steerUlwLoopBatch (files : SteeringFiles) (proposals : List SteeringProposal) :
    List FileWrite :=
  let items := prepareBatch files.ledger files.plan proposals
  if items.any (·.isRejected) then
    [.ledger [{ kind := .steeringRejected, idempotencyKey := none, steering := none }]]
  else
    let fresh := items.filterMap (·.proposal?)
    if fresh = [] then []
    else
      let next := items.foldl (fun plan item => item.planAfter plan) files.plan
      [.plan next fresh, .ledger (fresh.map (·.ledgerEntry []) ++ batchUpdate files.plan next)]

inductive SteeringCall
  | single (proposal : SteeringProposal)
  | batch (proposals : List SteeringProposal)

/-- A call, with the number of its file operations behind which it is cut off. -/
structure SteeringLabel where
  call : SteeringCall
  cutAfter : Option Nat

namespace SteeringFiles

section

variable (files : SteeringFiles)

def writes : SteeringCall → List FileWrite
  | .single proposal => steerUlwLoop files proposal
  | .batch proposals => steerUlwLoopBatch files proposals

variable (label : SteeringLabel)

def step : Option SteeringFiles :=
  let writes := files.writes label.call
  some ((writes.take (label.cutAfter.getD writes.length)).foldl perform files)

/-- The proposals of a call whose mutations it writes. -/
def freshProposals : SteeringCall → List SteeringProposal
  | .single proposal =>
    if (priorEntry files.ledger proposal).isSome ∨ files.plan.validateSteering proposal ≠ [] then
      []
    else [proposal]
  | .batch proposals =>
    let items := prepareBatch files.ledger files.plan proposals
    if items.any (·.isRejected) then [] else items.filterMap (·.proposal?)

/-- The keys of the proposals that a call writes differ, are looked up as they are given, and their
call is not cut off between the plan and the ledger. -/
def Orderly (_ : SteeringFiles) : Prop :=
  ((files.freshProposals label.call).filterMap (·.key)).Nodup ∧
    (∀ proposal ∈ files.freshProposals label.call,
      proposal.idempotencyKey = none → filled proposal.promptSignature = proposal.promptSignature) ∧
    ((files.freshProposals label.call).filterMap (·.key) ≠ [] → label.cutAfter ≠ some 1)

instance  (next : SteeringFiles) : Decidable (files.Orderly label next) :=
  inferInstanceAs (Decidable (_ ∧ _ ∧ (_ → _)))

/-- A rejected batch leaves the stored plan unchanged. -/
def RejectedUnchanged (next : SteeringFiles) : Prop :=
  ∀ proposals, label.call = .batch proposals →
    (prepareBatch files.ledger files.plan proposals).any (·.isRejected) = true →
      next.plan = files.plan

end

variable {files : SteeringFiles} {proposal : SteeringProposal}

theorem prior_eq_none_of_prepared {ledger : List SteeringLedgerEntry} {plan : Plan}
    (member : proposal ∈ (prepareBatch ledger plan proposals).filterMap (·.proposal?)) :
    priorEntry ledger proposal = none := by
  induction proposals generalizing plan with
  | nil => cases member
  | cons first rest ih =>
    unfold prepareBatch at member
    dsimp only at member
    split at member
    next => exact ih member
    next isNew =>
      split at member
      next =>
        rcases List.mem_cons.mp member with rfl | later
        · exact Option.not_isSome_iff_eq_none.mp isNew
        · exact ih later
      next => exact ih member

/-- The plan of a batch is the one behind its mutations. -/
theorem plan_of_prepared (ledger : List SteeringLedgerEntry) (plan : Plan) :
    (prepareBatch ledger plan proposals).foldl (fun plan item => item.planAfter plan) plan =
      ((prepareBatch ledger plan proposals).filterMap (·.proposal?)).foldl
        Plan.applySteeringMutation plan := by
  induction proposals generalizing plan with
  | nil => rfl
  | cons first rest ih =>
    unfold prepareBatch
    dsimp only
    split
    · exact ih plan
    · split
      · exact ih _
      · exact ih plan

theorem prior_eq_none_of_fresh (member : proposal ∈ files.freshProposals call) :
    priorEntry files.ledger proposal = none := by
  cases call with
  | single given =>
    unfold freshProposals at member
    dsimp only at member
    split at member
    next => cases member
    next accepted =>
      cases List.mem_singleton.mp member
      exact Option.not_isSome_iff_eq_none.mp fun isPrior => accepted (.inl isPrior)
  | batch proposals =>
    unfold freshProposals at member
    dsimp only at member
    split at member
    · cases member
    · exact prior_eq_none_of_prepared member

/-- What a call writes: nothing to the plan, or its proposals, with their entries in the ledger. -/
theorem writes_cases (files : SteeringFiles) :
    (∀ write ∈ files.writes call, ∃ entries, write = .ledger entries) ∨
      ∃ entries rest, files.writes call =
        .plan ((files.freshProposals call).foldl Plan.applySteeringMutation files.plan)
            (files.freshProposals call) ::
          .ledger ((files.freshProposals call).map (·.ledgerEntry []) ++ entries) :: rest ∧
        ∀ write ∈ rest, ∃ entries, write = .ledger entries := by
  cases call with
  | single proposal =>
    simp only [writes, steerUlwLoop, freshProposals]
    split
    next => exact .inl nofun
    next isNew =>
      split
      next accepted =>
        rw [if_neg (by simp [isNew, accepted])]
        refine .inr ⟨[], _, rfl, ?_⟩
        intro write member
        exact ⟨_, List.mem_singleton.mp member⟩
      next =>
        refine .inl fun write member => ?_
        exact ⟨_, List.mem_singleton.mp member⟩
  | batch proposals =>
    simp only [writes, steerUlwLoopBatch, freshProposals]
    split
    next =>
      refine .inl fun write member => ?_
      exact ⟨_, List.mem_singleton.mp member⟩
    next =>
      split
      next => exact .inl nofun
      next =>
        rw [plan_of_prepared]
        exact .inr ⟨_, [], rfl, nofun⟩

/-- Writes to the ledger leave the plan as it is. -/
theorem perform_ledgers {writes : List FileWrite} (files : SteeringFiles)
    (onlyLedger : ∀ write ∈ writes, ∃ entries, write = .ledger entries) :
    ∃ entries, writes.foldl perform files = { files with ledger := files.ledger ++ entries } := by
  induction writes generalizing files with
  | nil => exact ⟨[], by simp⟩
  | cons write rest ih =>
    obtain ⟨entries, rfl⟩ := onlyLedger write List.mem_cons_self
    obtain ⟨more, performed⟩ := ih (files.perform (.ledger entries))
      fun other member => onlyLedger other (List.mem_cons_of_mem _ member)
    refine ⟨entries ++ more, performed.trans ?_⟩
    simp [perform]

theorem findAccepted_append {ledger : List SteeringLedgerEntry}
    (found : (findAccepted ledger key).isSome) : (findAccepted (ledger ++ entries) key).isSome := by
  unfold findAccepted at found ⊢
  rw [List.find?_append]
  rw [Option.isSome_or, found, Bool.true_or]

/-- A proposal is found by its key in a ledger with its entry. -/
theorem findAccepted_of_entry {ledger : List SteeringLedgerEntry} (isKey : proposal.key = some key)
    (asGiven : proposal.idempotencyKey = none →
      filled proposal.promptSignature = proposal.promptSignature)
    (member : proposal.ledgerEntry [] ∈ ledger) : (findAccepted ledger key).isSome := by
  unfold findAccepted
  rw [List.find?_isSome]
  refine ⟨proposal.ledgerEntry [], member, ?_⟩
  simp only [SteeringProposal.ledgerEntry, SteeringProposal.audit, Option.any_some, decide_true,
    Bool.true_and, Bool.or_eq_true, decide_eq_true_eq]
  cases isGiven : proposal.idempotencyKey with
  | some given =>
    rw [SteeringProposal.key, isGiven] at isKey
    exact .inl (.inl isKey)
  | none =>
    rw [SteeringProposal.key, isGiven] at isKey
    exact .inr ((asGiven isGiven).trans isKey)

/-- What the files keep: the keys of the mutations in the stored plan differ, and each is found in
the ledger. -/
structure Recorded (initial : Plan) (files : SteeringFiles) : Prop where
  nodup : (files.applied.filterMap (·.key)).Nodup
  found : ∀ proposal ∈ files.applied, ∀ key, proposal.key = some key →
    (findAccepted files.ledger key).isSome
  plan : files.plan = files.applied.foldl Plan.applySteeringMutation initial

theorem Recorded.ledger (recorded : Recorded initial files) (entries : List SteeringLedgerEntry) :
    Recorded initial { files with ledger := files.ledger ++ entries } :=
  ⟨recorded.nodup, fun proposal member key isKey =>
      findAccepted_append (recorded.found proposal member key isKey),
    recorded.plan⟩

/-- Fresh proposals that are found in the ledger behind their mutations. -/
theorem Recorded.write {ledger : List SteeringLedgerEntry} (recorded : Recorded initial files)
    (differ : (fresh.filterMap (·.key)).Nodup)
    (isNew : ∀ proposal ∈ fresh, priorEntry files.ledger proposal = none)
    (grows : ∀ key, (findAccepted files.ledger key).isSome → (findAccepted ledger key).isSome)
    (found : ∀ proposal ∈ fresh, ∀ key, proposal.key = some key →
      (findAccepted ledger key).isSome) :
    Recorded initial
      { plan := fresh.foldl Plan.applySteeringMutation files.plan
        ledger
        applied := files.applied ++ fresh } where
  nodup := by
    rw [List.filterMap_append, List.nodup_append]
    refine ⟨recorded.nodup, differ, ?_⟩
    rintro key isApplied other isFresh rfl
    obtain ⟨before, wasApplied, isKey⟩ := List.mem_filterMap.mp isApplied
    obtain ⟨proposal, member, sameKey⟩ := List.mem_filterMap.mp isFresh
    have isPrior := recorded.found before wasApplied key isKey
    have notPrior := isNew proposal member
    rw [priorEntry, sameKey] at notPrior
    rw [show findAccepted files.ledger key = none from notPrior] at isPrior
    cases isPrior
  found := by
    intro proposal member key isKey
    rcases List.mem_append.mp member with before | isFresh
    · exact grows key (recorded.found proposal before key isKey)
    · exact found proposal isFresh key isKey
  plan := by
    rw [List.foldl_append, ← recorded.plan]

theorem recorded_step (files : SteeringFiles) (label : SteeringLabel) (next : SteeringFiles)
    (recorded : Recorded initial files) (orderly : files.Orderly label next)
    (stepped : files.step label = some next) : Recorded initial next := by
  obtain ⟨differ, asGiven, wholly⟩ := orderly
  cases stepped
  have isNew : ∀ proposal ∈ files.freshProposals label.call,
      priorEntry files.ledger proposal = none := fun _ => prior_eq_none_of_fresh
  rcases writes_cases files with onlyLedger | ⟨entries, rest, isWrites, onlyLedger⟩
  · obtain ⟨entries, performed⟩ := perform_ledgers files fun write member =>
      onlyLedger write (List.mem_of_mem_take (i := label.cutAfter.getD _) member)
    rw [performed]
    exact recorded.ledger entries
  · rw [isWrites]
    have cut : label.cutAfter.getD (rest.length + 1 + 1) = 0 ∨ label.cutAfter = some 1 ∨
        ∃ more, label.cutAfter.getD (rest.length + 1 + 1) = more + 1 + 1 := by
      cases label.cutAfter with
      | none => exact .inr (.inr ⟨rest.length, rfl⟩)
      | some count =>
        match count with
        | 0 => exact .inl rfl
        | 1 => exact .inr (.inl rfl)
        | more + 2 => exact .inr (.inr ⟨more, rfl⟩)
    simp only [List.length_cons]
    rcases cut with isZero | isOne | ⟨more, isMore⟩
    · rw [isZero]
      exact recorded
    · have noKeys : (files.freshProposals label.call).filterMap (·.key) = [] := by
        by_contra keyed
        exact wholly keyed isOne
      rw [isOne]
      refine recorded.write differ isNew (fun _ found => found) ?_
      intro proposal member key isKey
      have isMember := List.mem_filterMap.mpr ⟨proposal, member, isKey⟩
      rw [noKeys] at isMember
      cases isMember
    · rw [isMore]
      simp only [List.take_succ_cons, List.foldl_cons]
      obtain ⟨later, performed⟩ := perform_ledgers
        ((files.perform (.plan ((files.freshProposals label.call).foldl
          Plan.applySteeringMutation files.plan) (files.freshProposals label.call))).perform
          (.ledger ((files.freshProposals label.call).map (·.ledgerEntry []) ++ entries)))
        fun write member => onlyLedger write (List.mem_of_mem_take (i := more) member)
      rw [performed]
      refine Recorded.ledger (recorded.write differ isNew (fun _ => findAccepted_append) ?_) later
      intro proposal member key isKey
      refine findAccepted_of_entry isKey (asGiven proposal member) ?_
      exact List.mem_append_right _ (List.mem_append_left _ (List.mem_map_of_mem member))

theorem rejectedUnchanged_of_step (stepped : files.step label = some next) :
    files.RejectedUnchanged label next := by
  intro proposals isBatch isRejected
  cases stepped
  have onlyLedger : ∀ write ∈ files.writes label.call, ∃ entries, write = .ledger entries := by
    intro write member
    rw [isBatch] at member
    simp only [writes, steerUlwLoopBatch, isRejected, if_true, List.mem_singleton] at member
    exact ⟨_, member⟩
  obtain ⟨entries, performed⟩ := perform_ledgers files fun write member =>
    onlyLedger write (List.mem_of_mem_take (i := label.cutAfter.getD _) member)
  rw [performed]

/-- In a run of orderly calls the stored plan has the mutation of each key at most once, and
rejected batches leave it unchanged. -/
theorem steered_once {labels : List SteeringLabel} (isNew : files.applied = [])
    (reached : execute step files labels = some final)
    (everyStep : EveryStep step Orderly files labels) :
    final.plan = final.applied.foldl Plan.applySteeringMutation files.plan ∧
      (final.applied.filterMap (·.key)).Nodup ∧
      EveryStep step RejectedUnchanged files labels := by
  have initially : Recorded files.plan files :=
    { nodup := by
        rw [isNew]
        exact List.nodup_nil
      found := by
        intro proposal member
        rw [isNew] at member
        cases member
      plan := by
        rw [isNew]
        rfl }
  have recorded : Recorded files.plan final :=
    invariant_of_execute recorded_step initially reached everyStep
  refine ⟨recorded.plan, recorded.nodup, ?_⟩
  exact everyStep.of_invariant
    (fun _ _ _ (_ : True) _ stepped => ⟨rejectedUnchanged_of_step stepped, trivial⟩) trivial

/-- A new goal with a key. -/
def addProposal (key : Text) : SteeringProposal where
  kind := .addSubgoal
  evidence := text "seen"
  rationale := text "needed"
  targetGoalId := none
  targetGoalIds := none
  goalId := none
  criterionId := none
  title := some (text "New goal")
  objective := some (text "Do the new goal")
  childGoals := none
  revisedTitle := none
  revisedObjective := none
  pendingOrder := none
  after := none
  scenario := none
  expectedEvidence := none
  userModel := none
  promptSignature := none
  idempotencyKey := some key
  hasProtected := false
  weakens := false

/-- A plan with one goal, and an empty ledger. -/
def newFiles : SteeringFiles where
  plan :=
    { codexGoalMode := some .aggregate
      aggregateCompletion := false
      activeGoalId := none
      validationBatches := none
      goals := [freshGoal (text "G001") (text "Ship") (text "Ship it") 0] }
  ledger := []
  applied := []

/-- A batch is cut off in front of its writes, retried, and repeated by one of its proposals. -/
def retriedRun : List SteeringLabel :=
  [ { call := .batch [addProposal (text "a"), addProposal (text "b")], cutAfter := some 0 },
    { call := .batch [addProposal (text "a"), addProposal (text "b")], cutAfter := none },
    { call := .single (addProposal (text "a")), cutAfter := none } ]

theorem steered_once_retriedRun :
    ∃ final, execute step newFiles retriedRun = some final ∧ final.applied.length = 2 ∧
      final.plan = final.applied.foldl Plan.applySteeringMutation newFiles.plan ∧
      (final.applied.filterMap (·.key)).Nodup ∧
      EveryStep step RejectedUnchanged newFiles retriedRun := by
  obtain ⟨final, reached, isLength⟩ :
      ∃ final, execute step newFiles retriedRun = some final ∧ final.applied.length = 2 := by
    decide +kernel
  exact ⟨final, reached, isLength, steered_once rfl reached (by decide +kernel)⟩

/-- A batch with one key twice applies both mutations. -/
theorem not_steered_once :
    ¬ ∀ (files final : SteeringFiles) (labels : List SteeringLabel), files.applied = [] →
      execute step files labels = some final → (final.applied.filterMap (·.key)).Nodup := by
  intro always
  obtain ⟨final, reached, isKeys⟩ : ∃ final, execute step newFiles
        [{ call := .batch [addProposal (text "a"), addProposal (text "a")], cutAfter := none }] =
        some final ∧ final.applied.filterMap (·.key) = [text "a", text "a"] := by
    decide +kernel
  have nodup := always newFiles final _ rfl reached
  rw [isKeys] at nodup
  exact absurd nodup (by decide)

end SteeringFiles

end OpenAgent.UlwLoop
