import OpenAgent.Memory.FactsFailures
import Mathlib.Data.List.Induction

/-!
# What a failure streak counts

A ledger is followed through any sequence of failures and clears, beside the
ids that each endpoint was given since it was last cleared.  A record remembers
only the newest id, so its streak counts the changes of the id: it is the
number of different ids exactly as long as no id comes back behind another
one.
-/

namespace OpenAgent.Memory

open Library

/-- The record of an endpoint. -/
def failureOf (entries : List FactsFailureRecord) (endpoint : Text) : Option FactsFailureRecord :=
  entries.find? fun record => recordKey record = endpoint

/-- No two records are about one endpoint. -/
def UniqueEndpoints (entries : List FactsFailureRecord) : Prop :=
  (entries.map recordKey).Nodup

/-- A map of records in which every record stands under its own endpoint. -/
structure ByEndpoint (byKey : List (Text × FactsFailureRecord)) : Prop where
  own : ∀ entry ∈ byKey, recordKey entry.2 = entry.1
  unique : (byKey.map Prod.fst).Nodup

theorem ByEndpoint.nil : ByEndpoint [] where
  own := fun _ member => absurd member List.not_mem_nil
  unique := List.nodup_nil

section

variable (sound : ByEndpoint byKey)
include sound

theorem ByEndpoint.mapSet (record : FactsFailureRecord) :
    ByEndpoint (mapSet byKey (recordKey record) record) where
  own := by
    intro entry member
    rcases eq_or_mem_of_mem_mapSet member with rfl | old
    · rfl
    · exact sound.own entry old
  unique := by
    rw [keys_mapSet]
    exact nodup_setInsert sound.unique _

theorem ByEndpoint.keys : (byKey.map Prod.snd).map recordKey = byKey.map Prod.fst := by
  rw [List.map_map]
  apply List.map_congr_left
  intro entry member
  exact sound.own entry member

theorem ByEndpoint.failureOf_values (endpoint : Text) :
    failureOf (byKey.map Prod.snd) endpoint = mapGet byKey endpoint := by
  unfold failureOf mapGet
  rw [List.find?_map]
  congr 1
  induction byKey with
  | nil => rfl
  | cons entry rest ih =>
    have ownKey := sound.own entry List.mem_cons_self
    have restSound : ByEndpoint rest :=
      ⟨fun other member => sound.own other (List.mem_cons_of_mem entry member),
        (List.nodup_cons.mp sound.unique).2⟩
    have restFound := ih restSound
    simp only [Function.comp_def] at restFound
    simp only [List.find?_cons, Function.comp_def, ownKey, restFound]

end

section

variable (unique : UniqueEndpoints entries)
include unique

theorem uniqueEndpoints_sortFailureRecords : UniqueEndpoints (sortFailureRecords entries) :=
  (((perm_stableSort failureRecordLE entries).map recordKey).nodup_iff).mpr unique

theorem failureOf_sortFailureRecords (endpoint : Text) :
    failureOf (sortFailureRecords entries) endpoint = failureOf entries endpoint :=
  find?_key_of_perm unique (perm_stableSort failureRecordLE entries) endpoint

/-- The map of a ledger holds the ledger's records. -/
theorem recordsByKey_spec :
    ByEndpoint (recordsByKey entries) ∧
      ∀ endpoint, mapGet (recordsByKey entries) endpoint = failureOf entries endpoint := by
  induction entries using List.reverseRecOn with
  | nil => exact ⟨ByEndpoint.nil, fun _ => rfl⟩
  | append_singleton front record ih =>
    unfold UniqueEndpoints at unique
    rw [List.map_append, List.nodup_append] at unique
    obtain ⟨frontUnique, -, apart⟩ := unique
    obtain ⟨sound, lookups⟩ := ih frontUnique
    have folded : recordsByKey (front ++ [record]) =
        mapSet (recordsByKey front) (recordKey record) record := by
      simp [recordsByKey]
    rw [folded]
    refine ⟨sound.mapSet record, fun endpoint => ?_⟩
    rw [mapGet_mapSet, lookups]
    unfold failureOf
    rw [List.find?_append]
    by_cases same : endpoint = recordKey record
    · have absent : (front.find? fun other => decide (recordKey other = endpoint)) = none := by
        rw [List.find?_eq_none]
        intro other member equal
        exact apart _ (List.mem_map_of_mem member) _
          (List.mem_map_of_mem (List.mem_singleton_self record))
          ((of_decide_eq_true equal).trans same)
      rw [absent]
      simp [same]
    · have differs : ¬ recordKey record = endpoint := fun equal => same equal.symm
      rw [if_neg same]
      simp [differs]

end

/-- What one target does to the record of its own endpoint. -/
def failedRecord (request : FailureRequest) (target : FactsFailureTarget)
    (previous : Option FactsFailureRecord) : Option FactsFailureRecord :=
  if previous.map (·.lastFailureId) = some request.failureId then previous
  else some (nextRecord previous target request (request.detail.bind sanitizeDetail))

theorem recordKey_nextRecord (previous : Option FactsFailureRecord) (detail : Option Text) :
    recordKey (nextRecord previous target request detail) = targetKey target := rfl

theorem failTarget_spec (sound : ByEndpoint byKey) (request : FailureRequest) :
    ByEndpoint (failTarget request byKey target) ∧
      ∀ endpoint, mapGet (failTarget request byKey target) endpoint =
        if targetKey target = endpoint then failedRecord request target (mapGet byKey endpoint)
        else mapGet byKey endpoint := by
  unfold failTarget failedRecord
  by_cases known : (mapGet byKey (targetKey target)).map (·.lastFailureId) = some request.failureId
  · rw [if_pos known]
    refine ⟨sound, fun endpoint => ?_⟩
    by_cases own : targetKey target = endpoint
    · rw [if_pos own, ← own, if_pos known]
    · rw [if_neg own]
  · rw [if_neg known]
    refine ⟨?_, fun endpoint => ?_⟩
    · rw [← recordKey_nextRecord (mapGet byKey (targetKey target))
        (request.detail.bind sanitizeDetail)]
      exact sound.mapSet _
    · rw [mapGet_mapSet]
      by_cases own : targetKey target = endpoint
      · rw [if_pos own.symm, if_pos own, ← own, if_neg known]
      · rw [if_neg fun equal => own equal.symm, if_neg own]

/-- The targets of a failure that name an endpoint. -/
def targetsAt (request : FailureRequest) (endpoint : Text) : List FactsFailureTarget :=
  request.targets.filter fun target => targetKey target = endpoint

theorem failTargets_spec (sound : ByEndpoint byKey) (request : FailureRequest)
    (targets : List FactsFailureTarget) :
    ByEndpoint (targets.foldl (failTarget request) byKey) ∧
      ∀ endpoint, mapGet (targets.foldl (failTarget request) byKey) endpoint =
        (targets.filter fun target => targetKey target = endpoint).foldl
          (fun previous target => failedRecord request target previous) (mapGet byKey endpoint) := by
  induction targets generalizing byKey with
  | nil => exact ⟨sound, fun _ => rfl⟩
  | cons target targets ih =>
    obtain ⟨nextSound, nextLookups⟩ := failTarget_spec sound request
    obtain ⟨allSound, allLookups⟩ := ih nextSound
    refine ⟨allSound, fun endpoint => ?_⟩
    rw [List.foldl_cons, allLookups, nextLookups]
    by_cases own : targetKey target = endpoint <;> simp [own]

section

variable (unique : UniqueEndpoints entries)
include unique

theorem applyFailure_spec (request : FailureRequest) :
    UniqueEndpoints (applyFailure entries request) ∧
      ∀ endpoint, failureOf (applyFailure entries request) endpoint =
        (targetsAt request endpoint).foldl
          (fun previous target => failedRecord request target previous)
          (failureOf entries endpoint) := by
  obtain ⟨sound, lookups⟩ := recordsByKey_spec unique
  obtain ⟨allSound, allLookups⟩ := failTargets_spec sound request request.targets
  have values : UniqueEndpoints
      ((request.targets.foldl (failTarget request) (recordsByKey entries)).map Prod.snd) := by
    unfold UniqueEndpoints
    rw [allSound.keys]
    exact allSound.unique
  refine ⟨uniqueEndpoints_sortFailureRecords values, fun endpoint => ?_⟩
  unfold applyFailure
  rw [failureOf_sortFailureRecords values, allSound.failureOf_values, allLookups, lookups]
  rfl

variable (keep : FactsFailureRecord → Bool)

theorem uniqueEndpoints_filter : UniqueEndpoints (entries.filter keep) :=
  (List.filter_sublist.map recordKey).nodup unique

/-- A record survives a filter when the filter keeps it. -/
theorem failureOf_filter :
    failureOf (entries.filter keep) endpoint = (failureOf entries endpoint).filter keep := by
  induction entries with
  | nil => rfl
  | cons record rest ih =>
    obtain ⟨fresh, restUnique⟩ := List.nodup_cons.mp unique
    have later := ih restUnique
    unfold failureOf at later ⊢
    by_cases own : recordKey record = endpoint
    · have absent : rest.find? (fun other => decide (recordKey other = endpoint)) = none := by
        rw [List.find?_eq_none]
        intro other member equal
        exact fresh (List.mem_map.mpr ⟨other, member, (of_decide_eq_true equal).trans own.symm⟩)
      rw [absent] at later
      cases kept : keep record with
      | true => simp [own, kept, Option.filter]
      | false => simpa [own, kept, Option.filter] using later
    · cases kept : keep record with
      | true | false => simpa [own] using later

end

section

variable (record : Option FactsFailureRecord)

/-- The streak of an endpoint; without a record it is zero. -/
def streakOf : Nat :=
  record.elim 0 (·.streak)

def isParked : Bool :=
  record.any (·.state == .parked)

/-- How a record stands to the ids its endpoint was given, newest first. -/
structure Accounts (history : List Text) : Prop where
  newest : record.map (·.lastFailureId) = history.head?
  atLeast : history.dedup.length ≤ streakOf record
  exactly : streakOf record = history.dedup.length ↔ ¬ Recurs history

end

theorem Accounts.empty : Accounts none [] where
  newest := rfl
  atLeast := Nat.le_refl 0
  exactly := ⟨fun _ => not_recurs_nil, fun _ => rfl⟩

section

variable (accounts : Accounts record history)
include accounts

/-- The id that the record carries is not counted again. -/
theorem Accounts.repeated (known : record.map (·.lastFailureId) = some failureId) :
    Accounts record (failureId :: history) := by
  have isHead : history.head? = some failureId := accounts.newest ▸ known
  have sameCount : (failureId :: history).dedup = history.dedup :=
    List.dedup_cons_of_mem (List.mem_of_head? isHead)
  constructor
  · rw [known, List.head?_cons]
  · rw [sameCount]
    exact accounts.atLeast
  · rw [sameCount, recurs_cons_head isHead]
    exact accounts.exactly

/-- Any other id is counted, whether or not it was counted before. -/
theorem Accounts.counted (unknown : record.map (·.lastFailureId) ≠ some failureId)
    (carries : next.lastFailureId = failureId) (grows : next.streak = streakOf record + 1) :
    Accounts (some next) (failureId :: history) := by
  have notHead : history.head? ≠ some failureId := accounts.newest ▸ unknown
  have streak : streakOf (some next) = streakOf record + 1 := grows
  have bound := accounts.atLeast
  have exactly := accounts.exactly
  by_cases before : failureId ∈ history
  · have sameCount : (failureId :: history).dedup = history.dedup := List.dedup_cons_of_mem before
    constructor
    · rw [Option.map_some, carries, List.head?_cons]
    · rw [sameCount]
      omega
    · rw [sameCount, recurs_cons_of_ne_head notHead]
      constructor
      · omega
      · intro fresh
        exact absurd (Or.inr before) fresh
  · have oneMore : (failureId :: history).dedup.length = history.dedup.length + 1 := by
      rw [List.dedup_cons_of_notMem before, List.length_cons]
    constructor
    · rw [Option.map_some, carries, List.head?_cons]
    · omega
    · rw [recurs_cons_of_ne_head notHead, or_iff_left before, ← exactly]
      omega

theorem Accounts.failed (request : FailureRequest) (target : FactsFailureTarget) :
    Accounts (failedRecord request target record) (request.failureId :: history) := by
  unfold failedRecord
  split
  next known => exact accounts.repeated known
  next unknown => exact accounts.counted unknown rfl rfl

end

theorem isParked_failedRecord (parked : isParked record = true) :
    isParked (failedRecord request target record) = true := by
  unfold failedRecord
  split
  next => exact parked
  next =>
    have parks : record.any (·.state == .parked) = true := parked
    simp [isParked, nextRecord, parks]

/-- The calls that change a ledger. -/
inductive FailureCall
  | applyFailure (request : FailureRequest)
  | clearOnSuccess (targets : List FactsFailureTarget)
  | clearForRetry (filter : FactsFailureFilter)

namespace FailureCall

def perform (entries : List FactsFailureRecord) : FailureCall → List FactsFailureRecord
  | .applyFailure request => Memory.applyFailure entries request
  | .clearOnSuccess targets => Memory.clearOnSuccess entries targets
  | .clearForRetry filter => Memory.clearForRetry entries filter

/-- Whether a call clears an endpoint: it names the endpoint as succeeded, or
it is a retry whose filter selects the endpoint's record. -/
def clears (entries : List FactsFailureRecord) (endpoint : Text) : FailureCall → Bool
  | .applyFailure _ => false
  | .clearOnSuccess targets => (targets.map targetKey).contains endpoint
  | .clearForRetry filter => (failureOf entries endpoint).any filter.selects

/-- The ids that a call gives to an endpoint. -/
def failureIds (endpoint : Text) : FailureCall → List Text
  | .applyFailure request => (targetsAt request endpoint).map fun _ => request.failureId
  | .clearOnSuccess _ => []
  | .clearForRetry _ => []

end FailureCall

/-- The records, and the ids given to each endpoint since it was last cleared,
newest first. -/
structure FailureLedger where
  entries : List FactsFailureRecord
  history : Text → List Text

def ledgerStep (ledger : FailureLedger) (call : FailureCall) : FailureLedger where
  entries := call.perform ledger.entries
  history := fun endpoint =>
    if call.clears ledger.entries endpoint then []
    else call.failureIds endpoint ++ ledger.history endpoint

/-- The ledger behind a sequence of calls, from an empty file. -/
def ledgerAfter (calls : List FailureCall) : FailureLedger :=
  calls.foldl ledgerStep ⟨[], fun _ => []⟩

theorem ledgerAfter_concat :
    ledgerAfter (calls ++ [call]) = ledgerStep (ledgerAfter calls) call := by
  simp [ledgerAfter]

structure LedgerSound (ledger : FailureLedger) : Prop where
  unique : UniqueEndpoints ledger.entries
  accounts : ∀ endpoint, Accounts (failureOf ledger.entries endpoint) (ledger.history endpoint)

theorem Accounts.failedAll (accounts : Accounts record history) (request : FailureRequest)
    (targets : List FactsFailureTarget) :
    Accounts (targets.foldl (fun previous target => failedRecord request target previous) record)
      ((targets.map fun _ => request.failureId) ++ history) := by
  induction targets using List.reverseRecOn with
  | nil => exact accounts
  | append_singleton front target ih =>
    have sameIds : ((front ++ [target]).map fun _ => request.failureId) ++ history =
        request.failureId :: ((front.map fun _ => request.failureId) ++ history) := by
      rw [List.map_append, List.map_const', List.map_cons, List.map_nil, ← List.replicate_succ',
        List.replicate_succ, List.cons_append]
    rw [List.foldl_append, sameIds]
    exact ih.failed request target

section

variable (unique : UniqueEndpoints entries)
include unique

theorem failureOf_clearOnSuccess (targets : List FactsFailureTarget) (endpoint : Text) :
    failureOf (clearOnSuccess entries targets) endpoint =
      if (targets.map targetKey).contains endpoint then none else failureOf entries endpoint := by
  unfold clearOnSuccess
  rw [failureOf_filter unique]
  cases found : failureOf entries endpoint with
  | none => simp
  | some record =>
    have own : recordKey record = endpoint := by
      simpa using List.find?_some found
    cases named : (targets.map targetKey).contains endpoint with
    | true =>
      simp only [Option.filter, own, named, Bool.not_true, Bool.false_eq_true, if_false, if_true]
    | false =>
      simp only [Option.filter, own, named, Bool.not_false, Bool.false_eq_true, if_false, if_true]

theorem failureOf_clearForRetry (filter : FactsFailureFilter) (endpoint : Text) :
    failureOf (clearForRetry entries filter) endpoint =
      if (failureOf entries endpoint).any filter.selects then none
      else failureOf entries endpoint := by
  unfold clearForRetry
  rw [failureOf_filter unique]
  cases failureOf entries endpoint with
  | none => rfl
  | some record =>
    cases selected : filter.selects record with
    | true | false => simp [selected]

/-- A call either clears an endpoint or fails its targets in turn. -/
theorem failureOf_perform (call : FailureCall) (endpoint : Text) :
    failureOf (call.perform entries) endpoint =
      if call.clears entries endpoint then none
      else
        match call with
        | .applyFailure request =>
          (targetsAt request endpoint).foldl
            (fun previous target => failedRecord request target previous)
            (failureOf entries endpoint)
        | _ => failureOf entries endpoint := by
  cases call with
  | applyFailure request => exact (applyFailure_spec unique request).2 endpoint
  | clearOnSuccess targets => exact failureOf_clearOnSuccess unique targets endpoint
  | clearForRetry filter => exact failureOf_clearForRetry unique filter endpoint

end

/-- One call keeps the ledger sound. -/
theorem LedgerSound.step (sound : LedgerSound ledger) (call : FailureCall) :
    LedgerSound (ledgerStep ledger call) := by
  have unique : UniqueEndpoints (ledgerStep ledger call).entries := by
    cases call with
    | applyFailure request => exact (applyFailure_spec sound.unique request).1
    | clearOnSuccess targets | clearForRetry filter => exact uniqueEndpoints_filter sound.unique _
  refine ⟨unique, fun endpoint => ?_⟩
  have found := failureOf_perform sound.unique call endpoint
  have accounts := sound.accounts endpoint
  change Accounts (failureOf (call.perform ledger.entries) endpoint)
    (if call.clears ledger.entries endpoint then []
      else call.failureIds endpoint ++ ledger.history endpoint)
  rw [found]
  cases cleared : call.clears ledger.entries endpoint with
  | true => exact Accounts.empty
  | false =>
    cases call with
    | applyFailure request => exact accounts.failedAll request (targetsAt request endpoint)
    | clearOnSuccess targets | clearForRetry filter => exact accounts

theorem ledgerSound_ledgerAfter : LedgerSound (ledgerAfter calls) := by
  induction calls using List.reverseRecOn with
  | nil => exact ⟨List.nodup_nil, fun _ => Accounts.empty⟩
  | append_singleton front call ih =>
    rw [ledgerAfter_concat]
    exact ih.step call

/-- Every streak is the number of different ids since the last clear. -/
def StreaksCount (ledger : FailureLedger) : Prop :=
  ∀ endpoint, streakOf (failureOf ledger.entries endpoint) = (ledger.history endpoint).dedup.length

/-- A call leaves every parked endpoint parked that it does not clear. -/
def ParkedKept (ledger : FailureLedger) (call : FailureCall) : Prop :=
  ∀ endpoint, isParked (failureOf ledger.entries endpoint) = true →
    call.clears ledger.entries endpoint = false →
      isParked (failureOf (ledgerStep ledger call).entries endpoint) = true

section

variable (calls : List FailureCall)

/-- The account a sequence of calls should keep at each of its points. -/
def FailuresAccounted : Prop :=
  (∀ front, front <+: calls → StreaksCount (ledgerAfter front)) ∧
    ∀ front call, front ++ [call] <+: calls → ParkedKept (ledgerAfter front) call

/-- No endpoint is given an id again behind a different one, unless it was
cleared in between. -/
def NoLateReplay : Prop :=
  ∀ front, front <+: calls → ∀ endpoint, ¬ Recurs ((ledgerAfter front).history endpoint)

/-- Parking ends with a clear only. -/
theorem LedgerSound.parkedKept (sound : LedgerSound ledger) : ParkedKept ledger call := by
  intro endpoint parked notCleared
  change isParked (failureOf (call.perform ledger.entries) endpoint) = true
  rw [failureOf_perform sound.unique, notCleared]
  cases call with
  | clearOnSuccess targets | clearForRetry filter => exact parked
  | applyFailure request =>
    change isParked ((targetsAt request endpoint).foldl
      (fun previous target => failedRecord request target previous)
      (failureOf ledger.entries endpoint)) = true
    generalize failureOf ledger.entries endpoint = record at parked
    induction targetsAt request endpoint generalizing record with
    | nil => exact parked
    | cons target targets ih => exact ih _ (isParked_failedRecord parked)

theorem LedgerSound.streaksCount_iff (sound : LedgerSound ledger) :
    StreaksCount ledger ↔ ∀ endpoint, ¬ Recurs (ledger.history endpoint) :=
  forall_congr' fun endpoint => (sound.accounts endpoint).exactly

/-- The streaks count the different ids of their endpoints, and parking lasts
until a clear, exactly in the sequences in which no id comes back late. -/
theorem failuresAccounted_iff_noLateReplay : FailuresAccounted calls ↔ NoLateReplay calls := by
  have parked : ∀ front call, front ++ [call] <+: calls → ParkedKept (ledgerAfter front) call :=
    fun front call _ => (ledgerSound_ledgerAfter).parkedKept
  unfold FailuresAccounted NoLateReplay
  rw [and_iff_left parked]
  apply forall_congr'
  intro front
  apply imp_congr_right
  intro _
  exact (ledgerSound_ledgerAfter).streaksCount_iff

end

/-- A failure of one endpoint. -/
def endpointFailure (failureId : Text) : FailureCall :=
  .applyFailure
    { targets := [⟨text "c", text "m2", 4⟩]
      failureId := failureId
      reason := .childExit
      detail := none
      now := 0 }

/-- The first of two failures is replayed behind the second one: two ids, a
streak of three. -/
theorem not_failuresAccounted_lateReplay :
    ¬ FailuresAccounted [endpointFailure (text "run-a"), endpointFailure (text "run-b"),
        endpointFailure (text "run-a")] := by
  intro accounted
  have equal := accounted.1 _ List.prefix_rfl (failureKey (text "c") (text "m2"))
  revert equal
  decide +kernel

end OpenAgent.Memory
