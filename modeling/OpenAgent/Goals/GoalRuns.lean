import OpenAgent.Goals.GoalStore

/-!
# Runs of the goal store

What the store writes is sound as long as the sums of every accounting are safe integers.
-/

namespace OpenAgent.Goals

open Library

/-- The file of the store and all goals that were written, the last one first. -/
structure GoalRun where
  file : Option Goal
  written : List Goal

/-- The identity that a call gives to a new goal. -/
def GoalCall.uuid : GoalCall → Option Text
  | .createGoal _ _ _ uuid | .updateGoal _ _ uuid => some uuid
  | .clearGoal | .accountGoalUsage _ _ _ _ _ => none

/-- One call after the others.  `randomUUID` returns no identity twice. -/
def goalStep (threadId : Text) (run : GoalRun) (call : GoalCall) : Option GoalRun :=
  if ∃ goal ∈ run.written, call.uuid = some goal.id then none
  else
    match call.writes threadId run.file with
    | .ok (some file) => some ⟨file, file.toList ++ run.written⟩
    | .ok none | .error _ => some run

/-- The reader accepts a goal and its fields fit its status. -/
structure Goal.Sound (goal : Goal) : Prop where
  readable : isGoal goal
  belowBudget : goal.status = .active → ∀ budget ∈ goal.tokenBudget, goal.tokensUsed < budget
  started : goal.lastStartedAt.isSome ↔ goal.status = .active
  completed : goal.completedAt.isSome ↔ goal.status = .complete

/-- Every goal that was written is sound, and the tokens of an identity never decrease. -/
structure GoalRun.Sound (run : GoalRun) : Prop where
  each : ∀ goal ∈ run.written, goal.Sound
  tokens : run.written.Pairwise fun later earlier =>
    later.id = earlier.id → earlier.tokensUsed ≤ later.tokensUsed

/-- The sums of an accounting, in doubles, are safe integers. -/
def SafeUsage (run : GoalRun) : GoalCall → Prop
  | .accountGoalUsage usage elapsedSeconds mode expectedGoalId _ =>
    ∀ goal ∈ run.file, CountsFor mode expectedGoalId goal →
      isSafeInteger (toDouble (goal.tokensUsed + goalTokenDeltaForUsage usage)) ∧
        isSafeInteger (toDouble (goal.timeUsedSeconds + max 0 (trunc elapsedSeconds : ℚ)))
  | _ => True

/-- The goal of the file was written last. -/
structure GoalRun.Kept (run : GoalRun) : Prop extends run.Sound where
  last : ∀ goal ∈ run.file, ∃ earlier, run.written = goal :: earlier

variable {goal : Goal} {now : Seconds} {threadId uuid : Text} {value : ℚ}

theorem isNonNegativeSafeInteger_seconds (now : Seconds) :
    isNonNegativeSafeInteger (now.val : ℚ) := by
  have bound : ((now.val : ℕ) : ℚ) ≤ ((2 ^ 53 - 1 : ℕ) : ℚ) :=
    Nat.cast_le.mpr (Nat.le_pred_of_lt now.isLt)
  refine ⟨⟨Rat.den_natCast _, ?_⟩, Nat.cast_nonneg _⟩
  rw [abs_of_nonneg (Nat.cast_nonneg _)]
  exact bound.trans (by norm_num)

theorem floor_le_roundEven : ⌊value⌋ ≤ roundEven value := by
  simp only [roundEven]
  split
  · exact le_refl _
  · omega

/-- A sum is not rounded below a safe integer that it reaches. -/
theorem le_toDouble (safe : isNonNegativeSafeInteger count) (reaches : count ≤ value) :
    count ≤ toDouble value := by
  obtain ⟨⟨whole, bound⟩, nonneg⟩ := safe
  have isInt : ((count.num : ℤ) : ℚ) = count := Rat.den_eq_one_iff count |>.mp whole
  rw [abs_of_nonneg nonneg] at bound
  let exponent := max (Int.log 2 |value| - 52) (-1074)
  have positive : (0 : ℚ) < 2 ^ exponent := zpow_pos (by norm_num) _
  have below : (⌊value / 2 ^ exponent⌋ : ℚ) * 2 ^ exponent ≤ toDouble value :=
    mul_le_mul_of_nonneg_right (Int.cast_le.mpr floor_le_roundEven) positive.le
  refine le_trans ?_ below
  rw [← div_le_iff₀ positive]
  by_cases fine : exponent ≤ 0
  · have multiple : count / 2 ^ exponent = ((count.num * 2 ^ (-exponent).toNat : ℤ) : ℚ) := by
      push_cast
      rw [isInt, div_eq_mul_inv, ← zpow_neg, ← zpow_natCast, Int.toNat_of_nonneg (by omega)]
    rw [multiple, Int.cast_le, Int.le_floor, ← multiple]
    exact div_le_div_of_nonneg_right reaches positive.le
  · have isLog : exponent = Int.log 2 |value| - 52 := by omega
    have valued : 0 < |value| := by
      rcases (abs_nonneg value).lt_or_eq with isPositive | isZero
      · exact isPositive
      · rw [← isZero, Int.log_zero_right] at isLog
        omega
    have large : (2 : ℚ) ^ (52 : ℤ) ≤ value / 2 ^ exponent := by
      rw [le_div_iff₀ positive, ← zpow_add₀ (by norm_num), isLog, add_sub_cancel]
      have reachesLog := Int.zpow_log_le_self (b := 2) (by norm_num) valued
      rw [abs_of_nonneg (nonneg.trans reaches)] at reachesLog ⊢
      exact_mod_cast reachesLog
    have floors : ((2 : ℤ) ^ 52) ≤ ⌊value / 2 ^ exponent⌋ := by
      rw [Int.le_floor]
      exact_mod_cast large
    have small : count / 2 ^ exponent ≤ ((2 ^ 52 : ℤ) : ℚ) := by
      rw [div_le_iff₀ positive]
      have double : (2 : ℚ) ^ (1 : ℤ) ≤ 2 ^ exponent :=
        zpow_le_zpow_right₀ (by norm_num) (by omega)
      norm_num at double bound ⊢
      linarith
    exact small.trans (Int.cast_le.mpr floors)

theorem isNonNegativeSafeInteger_zero : isNonNegativeSafeInteger 0 := by
  decide +kernel

theorem goalTokenDeltaForUsage_nonneg : 0 ≤ goalTokenDeltaForUsage usage :=
  le_toDouble isNonNegativeSafeInteger_zero (add_nonneg (le_max_left _ _) (le_max_left _ _))

theorem validateTokenBudget_positive (validated : validateTokenBudget tokenBudget = .ok accepted) :
    accepted = tokenBudget ∧ ∀ budget ∈ accepted.join, isPositiveSafeInteger budget := by
  unfold validateTokenBudget at validated
  split at validated
  · next value =>
    split at validated
    · next positive =>
      cases validated
      exact ⟨rfl, by simpa using positive⟩
    · cases validated
  · next notNumber =>
    cases validated
    refine ⟨rfl, fun budget member => ?_⟩
    rw [Option.mem_def, Option.join_eq_some_iff] at member
    exact absurd member (notNumber budget)

theorem readGoal_sound (sound : ∀ goal ∈ file, Goal.Sound goal) : readGoal file = .ok file := by
  cases file with
  | none => rfl
  | some goal => exact if_pos (sound goal rfl).readable

/-- A status that the budget limits is active below the budget only. -/
theorem statusAfterBudgetLimit_active
    (active : statusAfterBudgetLimit status tokensUsed tokenBudget = .active)
    (member : budget ∈ tokenBudget) : tokensUsed < budget := by
  unfold statusAfterBudgetLimit at active
  split at active
  · cases active
  · next below => exact not_le.mp fun reached => below ⟨active, budget, member, reached⟩

theorem createGoal_sound
    (created : createGoal threadId file objective tokenBudget now uuid = .ok goal) :
    goal.Sound ∧ goal.id = uuid := by
  obtain ⟨current, _, created⟩ := bind_eq_ok.mp created
  split at created
  · cases created
  obtain ⟨normalized, _, created⟩ := bind_eq_ok.mp created
  obtain ⟨accepted, validated, created⟩ := bind_eq_ok.mp created
  obtain ⟨rfl, positive⟩ := validateTokenBudget_positive validated
  have budgets : ∀ budget ∈ tokenBudget, isPositiveSafeInteger budget := fun budget member =>
    positive budget (by rw [member]; rfl)
  have clock := isNonNegativeSafeInteger_seconds now
  have zero := isNonNegativeSafeInteger_zero
  cases created
  refine ⟨⟨⟨budgets, zero, zero, clock, clock, ?_, nofun⟩, fun _ budget member => ?_, by simp,
    by simp⟩, rfl⟩
  · rintro _ ⟨⟩
    exact clock
  · exact (budgets budget member).2

theorem isNonNegativeSafeInteger_of_ite [Decidable condition]
    (member : seconds ∈ if condition then some (now.val : ℚ) else none) :
    isNonNegativeSafeInteger seconds := by
  split at member
  · cases member
    exact isNonNegativeSafeInteger_seconds now
  · cases member

theorem replacement_sound (budgets : ∀ budget ∈ tokenBudget, isPositiveSafeInteger budget) :
    (replacement threadId objective requestedStatus tokenBudget now uuid).Sound := by
  have clock := isNonNegativeSafeInteger_seconds now
  have zero := isNonNegativeSafeInteger_zero
  refine ⟨⟨budgets, zero, zero, clock, clock, ?_, ?_⟩, fun active budget member => ?_, ?_, ?_⟩
  · exact fun seconds member => isNonNegativeSafeInteger_of_ite member
  · exact fun seconds member => isNonNegativeSafeInteger_of_ite member
  · exact statusAfterBudgetLimit_active active member
  · exact Option.isSome_ite
  · exact Option.isSome_ite

/-- An update leaves a goal active only below its budget. -/
theorem revision_belowBudget
    (active : (revision goal objective requestedStatus tokenBudget now).status = .active)
    (member : budget ∈ tokenBudget.getD goal.tokenBudget) : goal.tokensUsed < budget := by
  dsimp only [revision] at active
  unfold revisedStatus at active
  split at active
  · unfold statusAfterBudgetUpdate at active
    split at active
    · exact statusAfterBudgetLimit_active active member
    · contradiction
  · unfold statusAfterExplicitStatusUpdate at active
    split at active
    · cases active
    · exact statusAfterBudgetLimit_active active member

theorem revision_sound (sound : goal.Sound)
    (budgets : ∀ budget ∈ tokenBudget.join, isPositiveSafeInteger budget) :
    (revision goal objective requestedStatus tokenBudget now).Sound := by
  have clock := isNonNegativeSafeInteger_seconds now
  have readable := sound.readable
  refine ⟨⟨?_, readable.tokensUsed, readable.timeUsedSeconds, readable.createdAt, clock, ?_, ?_⟩,
    fun active budget member => ?_, ?_, ?_⟩
  · cases tokenBudget with
    | none => exact readable.tokenBudget
    | some budget => exact budgets
  · intro seconds member
    dsimp only [revision] at member
    split at member
    · cases member
      exact clock
    · split at member
      · cases member
      · exact readable.lastStartedAt seconds member
  · intro seconds member
    dsimp only [revision] at member
    split at member
    · cases member
      cases completed : goal.completedAt with
      | none => exact clock
      | some seconds => exact readable.completedAt seconds completed
    · cases member
  · have below : goal.tokensUsed < budget := revision_belowBudget active member
    exact below
  · dsimp only [revision]
    split
    · next restarted => exact iff_of_true rfl restarted.1
    · next kept =>
      split
      · next stopped => exact iff_of_false Bool.false_ne_true stopped
      · next active =>
        have active := not_not.mp active
        have wasActive := not_not.mp fun other => kept ⟨active, other⟩
        exact iff_of_true (sound.started.mpr wasActive) active
  · exact Option.isSome_ite

theorem updateGoal_sound (sound : ∀ goal ∈ file, Goal.Sound goal)
    (updated : updateGoal threadId file update now uuid = .ok goal) :
    goal.Sound ∧ (goal.id = uuid ∨
      ∃ current ∈ file, goal.id = current.id ∧ goal.tokensUsed = current.tokensUsed) := by
  obtain ⟨current, read, updated⟩ := bind_eq_ok.mp updated
  rw [readGoal_sound sound] at read
  cases read
  cases file with
  | none => cases updated
  | some current =>
    obtain ⟨tokenBudget, validated, updated⟩ := bind_eq_ok.mp updated
    obtain ⟨objective, _, updated⟩ := bind_eq_ok.mp updated
    obtain ⟨_, budgets⟩ := validateTokenBudget_positive validated
    split at updated
    · cases updated
      exact ⟨replacement_sound budgets, .inl rfl⟩
    · cases updated
      exact ⟨revision_sound (sound current rfl) budgets, .inr ⟨current, rfl, rfl, rfl⟩⟩

theorem tokensUsed_le_accounted (sound : goal.Sound) :
    goal.tokensUsed ≤ (accounted goal usage elapsedSeconds mode now).tokensUsed :=
  le_toDouble sound.readable.tokensUsed
    (le_add_of_nonneg_right goalTokenDeltaForUsage_nonneg)

/-- An accounting changes the status of a goal only to `budgetLimited`. -/
theorem statusAfterAccounting_cases :
    statusAfterAccounting status tokensUsed tokenBudget mode = .budgetLimited ∧
        status ≠ .complete ∨
      statusAfterAccounting status tokensUsed tokenBudget mode = status ∧
        status ≠ .budgetLimited ∧
        (status = .active → ∀ budget ∈ tokenBudget, tokensUsed < budget) := by
  unfold statusAfterAccounting
  split
  · next below => cases status <;> simp; exact below
  · cases mode <;> cases status <;> simp

theorem accounted_sound (sound : goal.Sound)
    (safeTokens : isSafeInteger (toDouble (goal.tokensUsed + goalTokenDeltaForUsage usage)))
    (safeTime : isSafeInteger
      (toDouble (goal.timeUsedSeconds + max 0 (trunc elapsedSeconds : ℚ)))) :
    (accounted goal usage elapsedSeconds mode now).Sound := by
  have clock := isNonNegativeSafeInteger_seconds now
  have readable := sound.readable
  have zero := isNonNegativeSafeInteger_zero
  have tokens : isNonNegativeSafeInteger
      (toDouble (goal.tokensUsed + goalTokenDeltaForUsage usage)) :=
    ⟨safeTokens, le_toDouble zero
      (add_nonneg readable.tokensUsed.2 goalTokenDeltaForUsage_nonneg)⟩
  have time : isNonNegativeSafeInteger
      (toDouble (goal.timeUsedSeconds + max 0 (trunc elapsedSeconds : ℚ))) :=
    ⟨safeTime, le_toDouble zero (add_nonneg readable.timeUsedSeconds.2 (le_max_left _ _))⟩
  rcases @statusAfterAccounting_cases goal.status
      (toDouble (goal.tokensUsed + goalTokenDeltaForUsage usage)) goal.tokenBudget mode with
    ⟨limited, unfinished⟩ | ⟨same, notLimited, below⟩
  · have isStopped : (accounted goal usage elapsedSeconds mode now).lastStartedAt = none :=
      if_pos limited
    refine ⟨⟨readable.tokenBudget, tokens, time, readable.createdAt, clock, by simp [isStopped],
      readable.completedAt⟩, fun active => ?_, ?_, ?_⟩
    · cases limited.symm.trans active
    · exact iff_of_false (by simp [isStopped]) fun active => by cases limited.symm.trans active
    · exact iff_of_false (fun isSome => unfinished (sound.completed.mp isSome))
        fun complete => by cases limited.symm.trans complete
  · have isKept : (accounted goal usage elapsedSeconds mode now).lastStartedAt =
        goal.lastStartedAt := if_neg fun limited => notLimited (same.symm.trans limited)
    refine ⟨⟨readable.tokenBudget, tokens, time, readable.createdAt, clock, ?_,
      readable.completedAt⟩, fun active => below (same.symm.trans active), ?_, ?_⟩
    · exact isKept ▸ readable.lastStartedAt
    · rw [isKept, sound.started]
      exact (congrArg (· = GoalStatus.active) same.symm).to_iff
    · exact sound.completed.trans (congrArg (· = GoalStatus.complete) same.symm).to_iff

/-- A call of a run writes over a sound file and leaves a sound goal: a new one, or one with the
identity and no fewer tokens. -/
theorem writes_sound (sound : ∀ goal ∈ file, Goal.Sound goal)
    (safe : SafeUsage ⟨file, written⟩ call)
    (wrote : call.writes threadId file = .ok (some (some goal))) :
    goal.Sound ∧ (call.uuid = some goal.id ∨
      ∃ current ∈ file, goal.id = current.id ∧ current.tokensUsed ≤ goal.tokensUsed) := by
  cases call with
  | createGoal objective tokenBudget now uuid =>
    cases created : createGoal threadId file objective tokenBudget now uuid with
    | error failure => simp [GoalCall.writes, created, Except.map] at wrote
    | ok next =>
      simp only [GoalCall.writes, created, Except.map, Function.comp_apply, Except.ok.injEq,
        Option.some.injEq] at wrote
      obtain ⟨isSound, isNew⟩ := createGoal_sound created
      subst wrote
      exact ⟨isSound, .inl (congrArg some isNew.symm)⟩
  | updateGoal update now uuid =>
    cases updated : updateGoal threadId file update now uuid with
    | error failure => simp [GoalCall.writes, updated, Except.map] at wrote
    | ok next =>
      simp only [GoalCall.writes, updated, Except.map, Function.comp_apply, Except.ok.injEq,
        Option.some.injEq] at wrote
      obtain ⟨isSound, identity⟩ := updateGoal_sound sound updated
      subst wrote
      refine ⟨isSound, identity.imp (fun isNew => congrArg some isNew.symm) ?_⟩
      exact fun ⟨current, isCurrent, same, tokens⟩ => ⟨current, isCurrent, same, tokens.ge⟩
  | clearGoal => simp [GoalCall.writes, readGoal_sound sound, Except.map] at wrote
  | accountGoalUsage usage elapsedSeconds mode expectedGoalId now =>
    simp only [GoalCall.writes, readGoal_sound sound, Except.map, Except.ok.injEq,
      Option.map_eq_some_iff, Option.filter_eq_some_iff, decide_eq_true_eq,
      Option.some.injEq] at wrote
    obtain ⟨current, ⟨isCurrent, counts⟩, rfl⟩ := wrote
    obtain ⟨safeTokens, safeTime⟩ := safe current isCurrent counts
    exact ⟨accounted_sound (sound current isCurrent) safeTokens safeTime,
      .inr ⟨current, isCurrent, rfl, tokensUsed_le_accounted (sound current isCurrent)⟩⟩

theorem GoalRun.Kept.fileSound (kept : GoalRun.Kept run) : ∀ goal ∈ run.file, Goal.Sound goal := by
  intro goal isCurrent
  obtain ⟨earlier, isLast⟩ := kept.last goal isCurrent
  exact kept.each goal (isLast ▸ List.mem_cons_self)

theorem goalStep_cases (stepped : goalStep threadId run call = some next) :
    (¬ ∃ goal ∈ run.written, call.uuid = some goal.id) ∧
      (next = run ∨ ∃ file, call.writes threadId run.file = .ok (some file) ∧
        next = ⟨file, file.toList ++ run.written⟩) := by
  unfold goalStep at stepped
  split at stepped
  · cases stepped
  · next isFresh =>
    refine ⟨isFresh, ?_⟩
    split at stepped
    · next file wrote => exact .inr ⟨file, wrote, (Option.some.inj stepped).symm⟩
    · exact .inl (Option.some.inj stepped).symm
    · exact .inl (Option.some.inj stepped).symm

theorem goalStep_kept (run : GoalRun) (call : GoalCall) (next : GoalRun) (kept : run.Kept)
    (safe : SafeUsage run call) (stepped : goalStep threadId run call = some next) : next.Kept := by
  obtain ⟨isFresh, rfl | ⟨file, wrote, rfl⟩⟩ := goalStep_cases stepped
  · exact kept
  cases file with
  | none => exact ⟨⟨kept.each, kept.tokens⟩, by simp⟩
  | some goal =>
    obtain ⟨sound, identity⟩ := writes_sound kept.fileSound safe wrote
    refine ⟨⟨List.forall_mem_cons.mpr ⟨sound, kept.each⟩,
      List.pairwise_cons.mpr ⟨fun earlier member same => ?_, kept.tokens⟩⟩, ?_⟩
    · rcases identity with isNew | ⟨current, isCurrent, sameId, tokens⟩
      · exact absurd ⟨earlier, member, same ▸ isNew⟩ isFresh
      · obtain ⟨rest, isLast⟩ := kept.last current isCurrent
        have ordered := kept.tokens
        rw [isLast] at member ordered
        rcases List.mem_cons.mp member with rfl | older
        · exact tokens
        · exact (List.rel_of_pairwise_cons ordered older (sameId ▸ same)).trans tokens
    · rintro _ ⟨⟩
      exact ⟨run.written, rfl⟩

/-- An accounting whose sums are no safe integers writes a file that the reader refuses. -/
theorem goalStep_breaks (run : GoalRun) (call : GoalCall) (next : GoalRun) (kept : run.Kept)
    (unsafeUsage : ¬ SafeUsage run call) (stepped : goalStep threadId run call = some next) :
    ¬ next.Sound := by
  intro sound
  cases call with
  | createGoal _ _ _ _ | updateGoal _ _ _ | clearGoal => exact unsafeUsage trivial
  | accountGoalUsage usage elapsedSeconds mode expectedGoalId now =>
    refine unsafeUsage fun goal isCurrent counts => ?_
    have wrote : (GoalCall.accountGoalUsage usage elapsedSeconds mode expectedGoalId now).writes
        threadId run.file = .ok (some (some (accounted goal usage elapsedSeconds mode now))) := by
      rw [GoalCall.writes, readGoal_sound kept.fileSound, isCurrent]
      simp [Except.map, counts]
    unfold goalStep at stepped
    split at stepped
    · cases stepped
    · rw [wrote] at stepped
      cases stepped
      have readable := (sound.each _ List.mem_cons_self).readable
      exact ⟨readable.tokensUsed.1, readable.timeUsedSeconds.1⟩

/-- A run writes sound goals throughout exactly when the sums of every accounting are safe
integers. -/
theorem goalsKept_iff :
    (∀ front final, front <+: calls →
      execute (goalStep threadId) ⟨none, []⟩ front = some final → final.Sound) ↔
      EveryStep (goalStep threadId) (fun run call _ => SafeUsage run call) ⟨none, []⟩ calls :=
  reached_iff_everyStep goalStep_kept (fun _ kept => kept.toSound) goalStep_breaks
    ⟨⟨by simp, .nil⟩, by simp⟩

/-- Half a token is accounted to a new goal. -/
def halfToken : List GoalCall :=
  [.createGoal (text "fix it") none 5 (text "a"), .accountGoalUsage ⟨1 / 2, 0⟩ 0 .active none 6]

theorem not_goalsKept_halfToken :
    ¬ ∀ final, execute (goalStep (text "t")) ⟨none, []⟩ halfToken = some final → final.Sound := by
  intro kept
  obtain ⟨final, reached, refused⟩ : ∃ final,
      execute (goalStep (text "t")) ⟨none, []⟩ halfToken = some final ∧
        ¬ ∀ goal ∈ final.written, isGoal goal := by
    decide +kernel
  exact refused fun goal member => ((kept final reached).each goal member).readable

end OpenAgent.Goals
