import OpenAgent.UlwLoop.Checkpoint

/-!
# Goals of a plan

The identifiers of a plan: every goal keeps a number of its own, whichever of the four counters
gave it.  Of a plan with distinct identifiers, a search, an update and a reordering are said by the
members of its list of goals.
-/

namespace OpenAgent.UlwLoop

open Library

theorem digitsValue_paddedNumber : digitsValue (paddedNumber number) = number := by
  have zeros : ∀ count, digitsValue (List.replicate count (unit '0')) = 0 := by
    intro count
    induction count with
    | zero => rfl
    | succ count ih => exact ih
  have digits : ∀ (chars : List Char) (value : Nat), (∀ char ∈ chars, char.isDigit) →
      (chars.map unit).foldl (fun value digit => 10 * value + (digit.toNat - 48)) value =
        Nat.ofDigitChars 10 chars value := by
    intro chars
    induction chars with
    | nil => exact fun value _ => (Nat.ofDigitChars_nil).symm
    | cons char rest ih =>
      intro value areDigits
      have isDigit : char.isDigit := areDigits char List.mem_cons_self
      simp only [Char.isDigit, Bool.and_eq_true, decide_eq_true_eq] at isDigit
      have high : char.toNat ≤ 57 := isDigit.2
      have same : (unit char).toNat = char.toNat := by
        rw [unit, UInt16.toNat_ofNat', Nat.mod_eq_of_lt (by omega)]
      rw [List.map_cons, List.foldl_cons, same]
      exact ih _ fun other member => areDigits other (List.mem_cons_of_mem _ member)
  rw [digitsValue, paddedNumber, List.foldl_append, ← digitsValue, zeros, decimalText_eq_map,
    digits _ 0 fun char member => Nat.isDigit_of_mem_toDigits (by decide) (by decide) member]
  exact Nat.ofDigitChars_ten_toDigits

theorem isDigit_of_mem_paddedNumber (member : char ∈ paddedNumber number) :
    isDigit char = true := by
  rcases List.mem_append.mp member with isZero | isDigit
  · rw [List.eq_of_mem_replicate isZero]
    decide
  · exact isDigit_of_mem_decimalText isDigit

/-- An identifier is read back as the number it was made of. -/
theorem goalNumber_paddedNumber (number : Nat) (ends : rest.head?.getD (unit '-') = unit '-') :
    goalNumber (unit 'G' :: paddedNumber number ++ rest) = some number := by
  have notDigit : rest.takeWhile isDigit = [] ∧ rest.dropWhile isDigit = rest := by
    cases rest with
    | nil => exact ⟨rfl, rfl⟩
    | cons char rest =>
      cases (ends : char = unit '-')
      exact ⟨rfl, rfl⟩
  have taken : (paddedNumber number ++ rest).takeWhile isDigit = paddedNumber number := by
    rw [List.takeWhile_append_of_pos fun _ => isDigit_of_mem_paddedNumber, notDigit.1,
      List.append_nil]
  have dropped : (paddedNumber number ++ rest).dropWhile isDigit = rest := by
    rw [List.dropWhile_append_of_pos fun _ => isDigit_of_mem_paddedNumber, notDigit.2]
  have nonempty : paddedNumber number ≠ [] := fun isNil =>
    decimalText_ne_nil number (List.append_eq_nil_iff.mp isNil).2
  rw [List.cons_append, goalNumber, taken, dropped, if_pos ⟨rfl, nonempty, ends⟩,
    digitsValue_paddedNumber]

theorem goalNumber_normalizeGoalId :
    goalNumber (normalizeGoalId title index) = some (index + 1) := by
  apply goalNumber_paddedNumber
  split
  · rfl
  · rfl

theorem goalNumber_unit_paddedNumber :
    goalNumber (unit 'G' :: paddedNumber number) = some number := by
  have ends : ([] : Text).head?.getD (unit '-') = unit '-' := rfl
  have isNumber := goalNumber_paddedNumber number ends
  rwa [List.append_nil] at isNumber

variable {id : Text}

theorem leadingNumber_of_goalNumber (isNumber : goalNumber id = some number) :
    leadingNumber id = some number := by
  cases id with
  | nil => cases isNumber
  | cons first rest =>
    rw [goalNumber] at isNumber
    split at isNumber
    next isId =>
      rw [leadingNumber, if_pos ⟨isId.1, isId.2.1⟩]
      exact isNumber
    next => cases isNumber

/-- Every identifier has a number of its own, at most their number. -/
structure Numbered (ids : List Text) : Prop where
  bounded : ∀ id ∈ ids, ∃ number, goalNumber id = some number ∧ number ≤ ids.length
  distinct : (ids.map goalNumber).Nodup

theorem Numbered.nodup (numbered : Numbered ids) : ids.Nodup :=
  numbered.distinct.of_map

theorem Numbered.perm (numbered : Numbered ids) (same : others.Perm ids) : Numbered others where
  bounded := by
    intro id member
    rw [same.length_eq]
    exact numbered.bounded id (same.mem_iff.mp member)
  distinct := (same.map goalNumber).nodup_iff.mpr numbered.distinct

/-- Identifiers with the numbers behind a bound of those that are there. -/
theorem Numbered.append (numbered : Numbered ids)
    (below : ∀ id ∈ ids, ∀ number, goalNumber id = some number → number ≤ base)
    (small : base ≤ ids.length)
    (counted : fresh.map goalNumber =
      (List.range fresh.length).map fun offset => some (base + (offset + 1))) :
    Numbered (ids ++ fresh) where
  bounded := by
    intro id member
    rw [List.length_append]
    rcases List.mem_append.mp member with old | new
    · obtain ⟨number, isNumber, bound⟩ := numbered.bounded id old
      exact ⟨number, isNumber, by omega⟩
    · have isCounted : goalNumber id ∈ fresh.map goalNumber := List.mem_map_of_mem new
      rw [counted, List.mem_map] at isCounted
      obtain ⟨offset, inRange, isNumber⟩ := isCounted
      have := List.mem_range.mp inRange
      exact ⟨base + (offset + 1), isNumber.symm, by omega⟩
  distinct := by
    rw [List.map_append, counted]
    apply List.Nodup.append numbered.distinct
    · apply List.Nodup.map _ List.nodup_range
      intro first second same
      have := Option.some.inj same
      omega
    · intro number old new
      obtain ⟨id, member, isNumber⟩ := List.mem_map.mp old
      obtain ⟨offset, _, isOffset⟩ := List.mem_map.mp new
      have := below id member (base + (offset + 1)) (isNumber.trans isOffset.symm)
      omega

theorem numbered_nil : Numbered [] where
  bounded := by simp
  distinct := List.nodup_nil

variable {goals : List Goal}

/-- The greatest number is above every number and at most the number of goals. -/
theorem Numbered.maxNumber {read : Text → Option Nat} (numbered : Numbered (goals.map (·.id)))
    (reads : ∀ {id number}, goalNumber id = some number → read id = some number) :
    (∀ id ∈ goals.map (·.id), ∀ number, goalNumber id = some number →
      number ≤ UlwLoop.maxNumber read goals) ∧
      UlwLoop.maxNumber read goals ≤ (goals.map (·.id)).length := by
  have general : ∀ (goals : List Goal) (start bound : Nat), start ≤ bound →
      (∀ goal ∈ goals, ∃ number, goalNumber goal.id = some number ∧ number ≤ bound) →
      let greatest := goals.foldl
        (fun current goal => (read goal.id).elim current (max current)) start
      start ≤ greatest ∧ greatest ≤ bound ∧
        ∀ goal ∈ goals, ∀ number, goalNumber goal.id = some number → number ≤ greatest := by
    intro goals
    induction goals with
    | nil => exact fun start bound low _ => ⟨Nat.le_refl _, low, by simp⟩
    | cons goal rest ih =>
      intro start bound low bounded
      obtain ⟨number, isNumber, atMost⟩ := bounded goal List.mem_cons_self
      rw [List.foldl_cons, reads isNumber]
      obtain ⟨above, upper, others⟩ := ih (max start number) bound
        (Nat.max_le.mpr ⟨low, atMost⟩) fun other member =>
          bounded other (List.mem_cons_of_mem _ member)
      refine ⟨Nat.le_trans (Nat.le_max_left _ _) above, upper, ?_⟩
      intro other member otherNumber isOther
      rcases List.mem_cons.mp member with rfl | later
      · rw [isNumber] at isOther
        cases isOther
        exact Nat.le_trans (Nat.le_max_right _ _) above
      · exact others other later otherNumber isOther
  obtain ⟨_, upper, above⟩ := general goals 0 (goals.map (·.id)).length (Nat.zero_le _)
    fun goal member => numbered.bounded goal.id (List.mem_map_of_mem member)
  refine ⟨?_, upper⟩
  intro id member
  obtain ⟨goal, isMember, rfl⟩ := List.mem_map.mp member
  exact above goal isMember

variable {change : Goal → Goal}

theorem map_of_absent (absent : ∀ goal ∈ goals, goal.id ≠ id) :
    goals.map (fun goal => if goal.id = id then change goal else goal) = goals := by
  rw [List.map_congr_left fun goal member => if_neg (absent goal member), List.map_id']

/-- Where identifiers are distinct, the one goal is changed and the others are added. -/
theorem spliceGoals_perm (change : Goal → Goal) (distinct : (goals.map (·.id)).Nodup)
    (found : id ∈ goals.map (·.id)) :
    (Plan.spliceGoals id change inserted goals).Perm
      (goals.map (fun goal => if goal.id = id then change goal else goal) ++ inserted) := by
  induction goals with
  | nil => cases found
  | cons goal rest ih =>
    obtain ⟨notInRest, restDistinct⟩ := List.nodup_cons.mp distinct
    by_cases isId : goal.id = id
    · have absent : ∀ other ∈ rest, other.id ≠ id := by
        intro other member sameId
        exact notInRest (List.mem_map.mpr ⟨other, member, sameId.trans isId.symm⟩)
      rw [Plan.spliceGoals, if_pos isId, List.map_cons, if_pos isId, map_of_absent absent]
      exact List.perm_append_comm.cons _
    · rw [Plan.spliceGoals, if_neg isId, List.map_cons, if_neg isId]
      have inRest : id ∈ rest.map (·.id) :=
        (List.mem_cons.mp found).resolve_left fun sameId => isId sameId.symm
      exact (ih restDistinct inRest).cons _

theorem spliceGoals_nil (distinct : (goals.map (·.id)).Nodup) :
    Plan.spliceGoals id change [] goals =
      goals.map fun goal => if goal.id = id then change goal else goal := by
  induction goals with
  | nil => rfl
  | cons goal rest ih =>
    obtain ⟨notInRest, restDistinct⟩ := List.nodup_cons.mp distinct
    by_cases isId : goal.id = id
    · have absent : ∀ other ∈ rest, other.id ≠ id := by
        intro other member sameId
        exact notInRest (List.mem_map.mpr ⟨other, member, sameId.trans isId.symm⟩)
      rw [Plan.spliceGoals, if_pos isId, List.map_cons, if_pos isId, map_of_absent absent,
        List.nil_append]
    · rw [Plan.spliceGoals, if_neg isId, List.map_cons, if_neg isId, ih restDistinct]

namespace Plan

/-- The identifiers of the goals. -/
def ids (plan : Plan) : List Text :=
  plan.goals.map fun goal => goal.id

variable {plan : Plan}

theorem id_of_findGoal (found : plan.findGoal id = some goal) : goal.id = id := by
  have := List.find?_some found
  simpa using this

theorem mem_of_findGoal (found : plan.findGoal id = some goal) : goal ∈ plan.goals :=
  List.mem_of_find?_eq_some found

section

variable (distinct : plan.ids.Nodup)
include distinct

theorem findGoal_eq_some : plan.findGoal id = some goal ↔ goal ∈ plan.goals ∧ goal.id = id := by
  constructor
  · exact fun found => ⟨mem_of_findGoal found, id_of_findGoal found⟩
  · rintro ⟨member, rfl⟩
    cases search : plan.findGoal goal.id with
    | none =>
      have differs := List.find?_eq_none.mp search goal member
      exact absurd (decide_eq_true rfl) differs
    | some other =>
      rw [List.inj_on_of_nodup_map distinct (mem_of_findGoal search) member (id_of_findGoal search)]

theorem isComplete_iff :
    plan.isComplete id = true ↔ ∃ goal ∈ plan.goals, goal.id = id ∧ goal.status = .complete := by
  rw [isComplete, Option.any_eq_true]
  constructor
  · rintro ⟨goal, found, complete⟩
    obtain ⟨member, isId⟩ := (findGoal_eq_some distinct).mp found
    exact ⟨goal, member, isId, of_decide_eq_true complete⟩
  · rintro ⟨goal, member, isId, complete⟩
    exact ⟨goal, (findGoal_eq_some distinct).mpr ⟨member, isId⟩, decide_eq_true complete⟩

theorem updateGoal_goals : (plan.updateGoal id change).goals =
      plan.goals.map fun goal => if goal.id = id then change goal else goal :=
  spliceGoals_nil distinct

/-- A reordering by distinct identifiers of the plan. -/
theorem reorder_perm (orderDistinct : order.Nodup) (known : ∀ id ∈ order, id ∈ plan.ids) :
    (plan.reorder order).goals.Perm plan.goals := by
  have moved : ∀ id ∈ order, ∃ goal, plan.findGoal id = some goal := by
    intro id member
    obtain ⟨goal, isMember, isId⟩ := List.mem_map.mp (known id member)
    exact ⟨goal, (findGoal_eq_some distinct).mpr ⟨isMember, isId⟩⟩
  have movedIds : (order.filterMap plan.findGoal).map (·.id) = order := by
    rw [List.map_filterMap]
    have each : ∀ id ∈ order, (plan.findGoal id).map (fun goal => goal.id) = some id := by
      intro id member
      obtain ⟨goal, found⟩ := moved id member
      rw [found, Option.map_some, id_of_findGoal found]
    rw [List.filterMap_congr each, List.filterMap_some]
  have goalsDistinct : plan.goals.Nodup := List.Nodup.of_map _ distinct
  rw [reorder, List.perm_ext_iff_of_nodup]
  · intro goal
    rw [List.mem_append, List.mem_filterMap, List.mem_filter]
    constructor
    · rintro (⟨id, _, found⟩ | ⟨member, _⟩)
      · exact mem_of_findGoal found
      · exact member
    · intro member
      by_cases inOrder : goal.id ∈ order
      · exact .inl ⟨goal.id, inOrder, (findGoal_eq_some distinct).mpr ⟨member, rfl⟩⟩
      · exact .inr ⟨member, by simpa using inOrder⟩
  · apply List.Nodup.append
    · apply List.Nodup.of_map (fun goal => goal.id)
      rwa [movedIds]
    · exact goalsDistinct.filter _
    · intro goal isMoved isKept
      obtain ⟨id, member, found⟩ := List.mem_filterMap.mp isMoved
      have notMember := (List.mem_filter.mp isKept).2
      rw [id_of_findGoal found] at notMember
      simp [member] at notMember
  · exact goalsDistinct

end

/-- A view of the goals that an update keeps. -/
theorem map_updateGoal (view : Goal → α)
    (keeps : ∀ goal ∈ plan.goals, view (change goal) = view goal) :
    (plan.updateGoal id change).goals.map view = plan.goals.map view := by
  have general : ∀ goals : List Goal, (∀ goal ∈ goals, view (change goal) = view goal) →
      (spliceGoals id change [] goals).map view = goals.map view := by
    intro goals
    induction goals with
    | nil => exact fun _ => rfl
    | cons goal rest ih =>
      intro keepsAll
      have ofRest := ih fun other member =>
        keepsAll other (List.mem_cons_of_mem _ member)
      by_cases isId : goal.id = id
      · rw [spliceGoals, if_pos isId, List.map_cons, keepsAll goal List.mem_cons_self,
          List.nil_append, List.map_cons]
      · rw [spliceGoals, if_neg isId, List.map_cons, ofRest, List.map_cons]
  exact general plan.goals keeps

variable (plan : Plan)

@[simp] theorem deactivate_goals : (plan.deactivate id).goals = plan.goals := by
  rw [deactivate]
  split <;> rfl

@[simp] theorem deactivate_batches :
    (plan.deactivate id).validationBatches = plan.validationBatches := by
  rw [deactivate]
  split <;> rfl

@[simp] theorem deactivate_aggregateCompletion :
    (plan.deactivate id).aggregateCompletion = plan.aggregateCompletion := by
  rw [deactivate]
  split <;> rfl

@[simp] theorem deactivate_codexGoalMode :
    (plan.deactivate id).codexGoalMode = plan.codexGoalMode := by
  rw [deactivate]
  split <;> rfl

@[simp] theorem updateBatchesAfterSupersede_aggregateCompletion (ids : List Text) :
    (plan.updateBatchesAfterSupersede id ids).aggregateCompletion = plan.aggregateCompletion := by
  rw [updateBatchesAfterSupersede]
  split <;> rfl

@[simp] theorem updateBatchesAfterSupersede_codexGoalMode (ids : List Text) :
    (plan.updateBatchesAfterSupersede id ids).codexGoalMode = plan.codexGoalMode := by
  rw [updateBatchesAfterSupersede]
  split <;> rfl

end Plan

/-- The marks of a criterion that no steering changes. -/
def SuccessCriterion.mark (criterion : SuccessCriterion) : Text × Option Bool × CriterionStatus :=
  (criterion.id, criterion.essential, criterion.status)

/-- The fields of a goal that doneness reads. -/
def Goal.standing (goal : Goal) : Text × GoalStatus × Option SteeringStatus × Option (List Text) :=
  (goal.id, goal.status, goal.steeringStatus, goal.supersededBy)

/-- The standing of a goal, with the marks of its criteria. -/
def Goal.progress (goal : Goal) : (Text × GoalStatus × Option SteeringStatus × Option (List Text)) ×
      List (Text × Option Bool × CriterionStatus) :=
  (goal.standing, goal.successCriteria.map SuccessCriterion.mark)

/-- A goal that nothing has happened to. -/
def Goal.IsFresh (goal : Goal) : Prop :=
  ∃ id title objective index, goal = freshGoal id title objective index

/-- A goal as it is superseded by others. -/
def Goal.supersededWith (replacements : List Text) (goal : Goal) : Goal :=
  { goal with steeringStatus := some .superseded, supersededBy := some replacements }

/-- The goal that a steering changes. -/
def Plan.steeringTarget (plan : Plan) (proposal : SteeringProposal) : Option Goal :=
  proposal.mutationTargets.head?.bind plan.findGoal

/-- The kinds that take a goal out of the schedule. -/
def SteeringProposal.Replaces (proposal : SteeringProposal) : Prop :=
  proposal.kind = .splitSubgoal ∨ proposal.kind = .markBlockedSuperseded

/-- What an accepted steering does to a plan. -/
inductive Steered (proposal : SteeringProposal) (before after : Plan) : Prop
  | reworded (goals : (after.goals.map Goal.progress).Perm (before.goals.map Goal.progress))
      (batches : after.validationBatches = before.validationBatches)
  | added (child : Candidate) (goals : after.goals = before.goals ++ before.makeChildren [child])
      (batches : after.validationBatches = before.validationBatches)
  | blocked
      (target : Goal)
      (isTarget : before.steeringTarget proposal = some target)
      (replaces : proposal.Replaces)
      (noChildren : proposal.children = [])
      (goals : after.goals = before.goals.map fun goal =>
        if goal.id = target.id then { goal with status := .blocked, steeringStatus := some .blocked }
        else goal)
      (batches : after.validationBatches = before.validationBatches)
  | superseded
      (target : Goal)
      (children : List Candidate)
      (isTarget : before.steeringTarget proposal = some target)
      (replaces : proposal.Replaces)
      (nonempty : children ≠ [])
      (goals : after.goals.Perm (before.goals.map (fun goal =>
          if goal.id = target.id then
            goal.supersededWith ((before.makeChildren children).map fun child => child.id)
          else goal) ++ before.makeChildren children))
      (batches : after.validationBatches = (before.updateBatchesAfterSupersede target.id
          ((before.makeChildren children).map fun child => child.id)).validationBatches)

namespace Plan

theorem reasons_eq_nil : reasons checks = [] ↔ ∀ check ∈ checks, check.1 = false := by
  rw [reasons]
  simp

variable {plan : Plan}

theorem not_done_of_validateSteering (valid : plan.validateSteering proposal = []) :
    plan.isUlwLoopDone = false := by
  have checked := reasons_eq_nil.mp (List.append_eq_nil_iff.mp valid).1
  exact checked (plan.isUlwLoopDone, text "plan already complete") (by simp)

theorem validateKind_of_validateSteering (valid : plan.validateSteering proposal = []) :
    plan.validateKind proposal = [] :=
  (List.append_eq_nil_iff.mp valid).2

/-- A valid order has distinct identifiers of the plan. -/
theorem order_valid (valid : plan.validateOrder proposal = []) :
    proposal.order.Nodup ∧ ∀ id ∈ proposal.order, id ∈ plan.ids := by
  have checked := reasons_eq_nil.mp valid
  have distinct := checked (!decide proposal.order.Nodup, text "duplicate pending id") (by simp)
  have known := checked (_, text "unknown pending id")
    (List.mem_cons_of_mem _ (List.mem_cons_of_mem _ List.mem_cons_self))
  refine ⟨by simpa using distinct, ?_⟩
  intro id member
  have isKnown := List.any_eq_false.mp known id member
  simp only [Bool.not_eq_true, Bool.not_eq_false'] at isKnown
  rw [List.contains_iff_mem, List.mem_map] at isKnown
  obtain ⟨goal, isPending, isId⟩ := isKnown
  exact List.mem_map.mpr ⟨goal, (List.mem_filter.mp isPending).1, isId⟩

variable {goal : Goal}

theorem makeChildren_isFresh (member : goal ∈ plan.makeChildren children) : goal.IsFresh := by
  obtain ⟨index, _, rfl⟩ := List.mem_mapIdx.mp member
  exact ⟨_, _, _, _, rfl⟩

theorem mem_of_steeringTarget (isTarget : plan.steeringTarget proposal = some target) :
    target ∈ plan.goals := by
  obtain ⟨id, _, found⟩ := Option.bind_eq_some_iff.mp isTarget
  exact mem_of_findGoal found

variable {before after : Plan}

theorem steered_of_kept (goals : after.goals.map Goal.progress = before.goals.map Goal.progress)
    (batches : after.validationBatches = before.validationBatches) :
    Steered proposal before after :=
  .reworded (List.Perm.of_eq goals) batches

/-- A view of the criteria that an update keeps. -/
theorem map_updateCriteria {change : SuccessCriterion → SuccessCriterion}
    (keeps : ∀ criterion, view (change criterion) = view criterion) :
    (updateCriteria id change criteria).map view = criteria.map view := by
  induction criteria with
  | nil => rfl
  | cons criterion rest ih =>
    rw [updateCriteria]
    split
    · rw [List.map_cons, keeps, List.map_cons]
    · rw [List.map_cons, ih, List.map_cons]

/-- Behind an update of the one criterion with an identifier. -/
theorem mem_updateCriteria {change : SuccessCriterion → SuccessCriterion}
    (distinct : (criteria.map fun criterion => criterion.id).Nodup)
    (member : criterion ∈ updateCriteria id change criteria) :
    criterion ∈ criteria ∧ criterion.id ≠ id ∨ ∃ before, criterion = change before := by
  induction criteria with
  | nil => cases member
  | cons first rest ih =>
    obtain ⟨notInRest, restDistinct⟩ := List.nodup_cons.mp distinct
    rw [updateCriteria] at member
    split at member
    next isId =>
      rcases List.mem_cons.mp member with rfl | later
      · exact .inr ⟨first, rfl⟩
      · refine .inl ⟨List.mem_cons_of_mem _ later, fun sameId => notInRest ?_⟩
        exact List.mem_map.mpr ⟨criterion, later, sameId.trans isId.symm⟩
    next notId =>
      rcases List.mem_cons.mp member with rfl | later
      · exact .inl ⟨List.mem_cons_self, notId⟩
      · exact (ih restDistinct later).imp_left fun kept =>
          ⟨List.mem_cons_of_mem _ kept.1, kept.2⟩

theorem steered_reviseWording : Steered proposal plan (plan.reviseWording proposal) := by
  rw [reviseWording]
  split
  next => exact steered_of_kept rfl rfl
  next target _ => exact steered_of_kept (map_updateGoal Goal.progress fun goal _ => rfl) rfl

theorem steered_reviseCriterion : Steered proposal plan (plan.reviseCriterion proposal) := by
  rw [reviseCriterion]
  split
  next target criterionId _ _ =>
    refine steered_of_kept (map_updateGoal Goal.progress fun goal _ => ?_) rfl
    refine congrArg (Prod.mk goal.standing) (map_updateCriteria ?_)
    exact fun criterion => rfl
  next => exact steered_of_kept rfl rfl

theorem steered_splitOrBlock (distinct : plan.ids.Nodup) (replaces : proposal.Replaces) :
    Steered proposal plan (plan.splitOrBlock proposal) := by
  rw [splitOrBlock, ← steeringTarget]
  cases isTarget : plan.steeringTarget proposal with
  | none => exact steered_of_kept rfl rfl
  | some target =>
    have member : target ∈ plan.goals := mem_of_steeringTarget isTarget
    cases children : proposal.children with
    | nil =>
      refine .blocked target isTarget replaces children ?_ ?_
      · rw [makeChildren, List.mapIdx_nil]
        rw [deactivate_goals, updateGoal_goals distinct]
      · rw [makeChildren, List.mapIdx_nil]
        rw [deactivate_batches]
        rfl
    | cons first rest =>
      have made : ∃ goal goals, plan.makeChildren (first :: rest) = goal :: goals :=
        ⟨_, _, List.mapIdx_cons⟩
      obtain ⟨goal, goals, isMade⟩ := made
      refine .superseded target (first :: rest) isTarget replaces (List.cons_ne_nil _ _) ?_ ?_
      · rw [isMade]
        rw [deactivate_goals]
        exact spliceGoals_perm _ distinct (List.mem_map_of_mem member)
      · rw [isMade]
        rw [deactivate_batches, updateBatchesAfterSupersede, updateBatchesAfterSupersede]
        split <;> rfl

/-- What the mutation of a valid steering does. -/
theorem steered_of_valid (distinct : plan.ids.Nodup) (valid : plan.validateSteering proposal = []) :
    Steered proposal plan (plan.applySteeringMutation proposal) := by
  have ofKind := validateKind_of_validateSteering valid
  rw [applySteeringMutation]
  cases isKind : proposal.kind with
  | addSubgoal => exact .added _ rfl rfl
  | splitSubgoal => exact steered_splitOrBlock distinct (.inl isKind)
  | reorderPending =>
    rw [validateKind, isKind] at ofKind
    obtain ⟨orderDistinct, known⟩ := order_valid ofKind
    exact .reworded ((reorder_perm distinct orderDistinct known).map _) rfl
  | revisePendingWording => exact steered_reviseWording
  | reviseCriterion => exact steered_reviseCriterion
  | annotateLedger => exact steered_of_kept rfl rfl
  | markBlockedSuperseded => exact steered_splitOrBlock distinct (.inr isKind)

/-- The fields of a plan that no steering changes. -/
theorem applySteeringMutation_fields (plan : Plan) (proposal : SteeringProposal) :
    (plan.applySteeringMutation proposal).aggregateCompletion = plan.aggregateCompletion ∧
      (plan.applySteeringMutation proposal).codexGoalMode = plan.codexGoalMode := by
  have ofSplit : (plan.splitOrBlock proposal).aggregateCompletion = plan.aggregateCompletion ∧
      (plan.splitOrBlock proposal).codexGoalMode = plan.codexGoalMode := by
    rw [splitOrBlock]
    split
    next => exact ⟨rfl, rfl⟩
    next => split <;> simp [supersede, updateGoal]
  rw [applySteeringMutation]
  cases proposal.kind with
  | addSubgoal => exact ⟨rfl, rfl⟩
  | splitSubgoal => exact ofSplit
  | reorderPending => exact ⟨rfl, rfl⟩
  | revisePendingWording =>
    dsimp only
    rw [reviseWording]
    split <;> exact ⟨rfl, rfl⟩
  | reviseCriterion =>
    dsimp only
    rw [reviseCriterion]
    split <;> exact ⟨rfl, rfl⟩
  | annotateLedger => exact ⟨rfl, rfl⟩
  | markBlockedSuperseded => exact ofSplit

/-- The numbers of new goals follow the greatest one. -/
theorem numbers_makeChildren (plan : Plan) :
    ((plan.makeChildren children).map fun child => child.id).map goalNumber =
      (List.range ((plan.makeChildren children).map fun child => child.id).length).map
        fun offset => some (maxNumber goalNumber plan.goals + (offset + 1)) := by
  apply List.ext_getElem
  · simp
  · simp [makeChildren, makeChild, freshGoal, goalNumber_unit_paddedNumber]

theorem numbered_makeChildren (numbered : Numbered plan.ids) (children : List Candidate) :
    Numbered (plan.ids ++ (plan.makeChildren children).map fun child => child.id) := by
  obtain ⟨below, small⟩ := numbered.maxNumber id
  exact numbered.append below small (numbers_makeChildren plan)

theorem ids_of_progress
    (goals : (after.goals.map Goal.progress).Perm (before.goals.map Goal.progress)) :
    after.ids.Perm before.ids := by
  have same := goals.map fun progress => progress.1.1
  rwa [List.map_map, List.map_map] at same

/-- Changes of single goals keep the identifiers. -/
theorem ids_map_change (keeps : ∀ goal, (change goal).id = goal.id) :
    (goals.map change).map (fun goal => goal.id) = goals.map fun goal => goal.id := by
  rw [List.map_map]
  exact List.map_congr_left fun goal _ => keeps goal

theorem numbered_of_steered (numbered : Numbered before.ids)
    (steered : Steered proposal before after) : Numbered after.ids := by
  cases steered with
  | reworded goals => exact numbered.perm (ids_of_progress goals)
  | added child goals =>
    rw [ids, goals, List.map_append]
    exact numbered_makeChildren numbered [child]
  | blocked target _ _ _ goals =>
    rw [ids, goals, ids_map_change fun goal => by split <;> rfl]
    exact numbered
  | superseded target children _ _ _ goals =>
    refine (numbered_makeChildren numbered children).perm ?_
    have same := goals.map fun goal => goal.id
    rwa [List.map_append, ids_map_change fun goal => by split <;> rfl] at same

theorem makeGoal_eq_some (made : makeGoal title objective index = some goal) :
    goal = freshGoal (normalizeGoalId (trim title) index) (trim title) (trim objective) index := by
  rw [makeGoal] at made
  split at made
  · cases made
  · cases made
    rfl

theorem makeGoals_spec (made : makeGoals index candidates = some goals) :
    (∀ goal ∈ goals, goal.IsFresh) ∧ (goals.map fun goal => goal.id).map goalNumber =
        (List.range (goals.map fun goal => goal.id).length).map
          fun offset => some (index + (offset + 1)) := by
  induction candidates generalizing index goals with
  | nil =>
    cases made
    exact ⟨by simp, rfl⟩
  | cons candidate rest ih =>
    obtain ⟨goal, isGoal, later⟩ := Option.bind_eq_some_iff.mp made
    obtain ⟨others, areOthers, isAll⟩ := Option.bind_eq_some_iff.mp later
    cases isAll
    obtain ⟨fresh, numbers⟩ := ih areOthers
    cases makeGoal_eq_some isGoal
    constructor
    · intro goal member
      rcases List.mem_cons.mp member with rfl | isOther
      · exact ⟨_, _, _, _, rfl⟩
      · exact fresh goal isOther
    · rw [List.map_cons, List.map_cons, numbers, List.length_cons, List.range_succ_eq_map,
        List.map_cons, List.map_map]
      refine congrArg₂ List.cons goalNumber_normalizeGoalId ?_
      apply List.map_congr_left
      intro offset _
      congr 1
      omega

/-- A plan that `createUlwLoopPlan` makes. -/
def IsCreated (plan : Plan) : Prop :=
  ∃ first rest mode batches, createUlwLoopPlan first rest mode batches = some plan

theorem IsCreated.spec (created : plan.IsCreated) :
    Numbered plan.ids ∧ plan.aggregateCompletion = false ∧ plan.goals ≠ [] ∧
      (∀ goal ∈ plan.goals, goal.IsFresh) ∧ batchesValid plan.goals plan.batches = true := by
  obtain ⟨first, rest, mode, batches, isPlan⟩ := created
  obtain ⟨goals, made, isPlan⟩ := Option.bind_eq_some_iff.mp isPlan
  split at isPlan
  next valid =>
    cases isPlan
    obtain ⟨fresh, numbers⟩ := makeGoals_spec made
    have nonempty : goals ≠ [] := by
      obtain ⟨goal, _, later⟩ := Option.bind_eq_some_iff.mp made
      obtain ⟨others, _, isAll⟩ := Option.bind_eq_some_iff.mp later
      cases isAll
      exact List.cons_ne_nil _ _
    refine ⟨?_, rfl, nonempty, fresh, valid⟩
    have numbered := numbered_nil.append (by simp) (Nat.zero_le _) numbers
    rwa [List.nil_append] at numbered
  next => cases isPlan

/-- One goal more, with a number behind a bound of those that are there. -/
theorem numbered_concat (numbered : Numbered plan.ids)
    (below : ∀ id ∈ plan.ids, ∀ number, goalNumber id = some number → number ≤ base)
    (small : base ≤ plan.ids.length) (isNumber : goalNumber goal.id = some (base + 1)) :
    Numbered ((plan.goals ++ [goal]).map fun goal => goal.id) := by
  rw [List.map_append]
  apply numbered.append below small
  rw [List.map_singleton, List.map_singleton, isNumber]
  rfl

theorem addGoal_spec (numbered : Numbered plan.ids)
    (added : plan.addGoal title objective = some next) :
    Numbered next.ids ∧ ∃ goal : Goal, goal.IsFresh ∧
      next = { plan with goals := plan.goals ++ [goal] } := by
  obtain ⟨goal, made, rfl⟩ := Option.map_eq_some_iff.mp added
  cases makeGoal_eq_some made
  refine ⟨?_, _, ⟨_, _, _, _, rfl⟩, rfl⟩
  have counted : plan.ids.length = plan.goals.length := List.length_map _
  refine numbered_concat numbered ?_ (Nat.le_of_eq counted.symm) goalNumber_normalizeGoalId
  intro id member number isNumber
  obtain ⟨_, same, bound⟩ := numbered.bounded id member
  cases isNumber.symm.trans same
  rwa [counted] at bound

/-- When a completion passes its checks, and with which gate. -/
theorem requireComplete_eq_ok :
    plan.requireComplete goal args = .ok gate ↔
      plan.requireCriteria goal = .ok () ∧
      ((plan.batchClosedBy goal.id).isSome = true →
        plan.batchFinalReady goal = true ∧ args.qualityGate ≠ .missing) ∧
      ((plan.isFinalRunCompletionCandidate goal || (plan.batchClosedBy goal.id).isSome) = true →
        ∃ coverage, plan.requireGate goal args = .ok coverage ∧
          gate = if plan.isFinalRunCompletionCandidate goal then some coverage else none) ∧
      ((plan.isFinalRunCompletionCandidate goal || (plan.batchClosedBy goal.id).isSome) = false →
        gate = none) ∧
      args.codexValid = true := by
  unfold requireComplete
  generalize plan.requireCriteria goal = criteria
  generalize (plan.batchClosedBy goal.id).isSome = closesBatch
  generalize plan.batchFinalReady goal = ready
  generalize plan.isFinalRunCompletionCandidate goal = final
  generalize plan.requireGate goal args = required
  generalize args.codexValid = codexValid
  cases criteria with
  | error => simp [bind, Except.bind]
  | ok =>
    cases closesBatch with
    | false =>
      cases final <;> cases codexValid <;> cases required <;>
        simp [bind, Except.bind, pure, Except.pure, Except.map, eq_comm]
    | true =>
      by_cases missing : args.qualityGate = .missing
      · cases ready <;>
          simp [bind, Except.bind, missing]
      · cases ready <;> cases final <;> cases codexValid <;> cases required <;>
          simp [bind, Except.bind, pure, Except.pure, Except.map, missing, eq_comm]
end Plan

end OpenAgent.UlwLoop
