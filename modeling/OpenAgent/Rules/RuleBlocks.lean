import OpenAgent.Library.Json
import OpenAgent.Rules.Matchers
import Mathlib.Data.List.DropRight

/-!
# The blocks of rules

A body passes through the cut of its own limit and then through the loop over the shared budget.
The loop stops at a rule without room for its notice, whatever stands behind it.
-/

namespace OpenAgent.Rules

open Library

/-- Where a rule comes from. -/
inductive RuleSource
  | omoRules
  | claudeRules
  | cursorRules
  | githubInstructions
  | copilotInstructions
  | contextFile
  | homeOmoRules
  | homeOpencodeRules
  | homeClaudeRules
  | pluginBundled
  deriving DecidableEq

/-- The fields of a loaded rule that the blocks read. -/
structure LoadedRule where
  path : Text
  relativePath : Text
  source : RuleSource
  description : Option Text
  body : Text

/-- The limits of a block. -/
structure FormatOptions where
  maxRuleChars : Nat
  maxResultChars : Nat

/-- A rule in front of the limits. -/
structure BudgetRule where
  body : Text
  relativePath : Text

/-- A rule that was cut or not. -/
structure BudgetResult extends BudgetRule where
  truncated : Bool

/-- A text behind its limit. -/
structure TruncationResult where
  body : Text
  truncated : Bool
  originalLength : Nat

/-- A rule that the notice names. -/
structure TruncatedRule where
  path : Text
  relativePath : Text
  body : Text

/-- `body.replace(/\r\n/g, "\n")`. -/
def joinBreaks : Text → Text
  | [] => []
  | [char] => [char]
  | char :: next :: rest =>
    if char = carriageReturn ∧ next = newline then newline :: joinBreaks rest
    else char :: joinBreaks (next :: rest)

def normalizeRuleBody (body : Text) : Text :=
  trim ((joinBreaks body).map fun char => if char = carriageReturn then newline else char)

/-- `TRUNCATION_NOTICE` in front of the path. -/
def noticeFront : Text :=
  text "\n\n[Truncated. Full: "

/-- A replacement string of `replace`, with its dollar patterns. -/
def expandReplacement : Text → Text
  | [] => []
  | [char] => [char]
  | char :: next :: rest =>
    if char ≠ unit '$' then char :: expandReplacement (next :: rest)
    else if next = unit '$' then unit '$' :: expandReplacement rest
    else if next = unit '&' then text "\x7bpath\x7d" ++ expandReplacement rest
    else if next = 0x60 then noticeFront ++ expandReplacement rest
    else if next = 0x27 then text "]" ++ expandReplacement rest
    else char :: expandReplacement (next :: rest)

def truncationNotice (relativePath : Text) : Text :=
  noticeFront ++ expandReplacement relativePath ++ text "]"

def neverTruncatedRulePaths : List Text :=
  [text "bundled-rules/hephaestus.md", text "bundled-rules/hephaestus/gpt-5.5.md",
    text "bundled-rules/hephaestus/gpt-5.6.md", text "bundled-rules/hephaestus/gpt-6.md"]

/-- No character outside of ASCII becomes one of these paths' characters in lower case. -/
def isNeverTruncatedRule (relativePath : Text) : Bool :=
  ((normalizePath relativePath).map fun char =>
    if unit 'A' ≤ char ∧ char ≤ unit 'Z' then char + 32 else char) ∈ neverTruncatedRulePaths

def safeSliceEnd (body : Text) (stop : Nat) : Nat :=
  if stop = 0 then 0
  else if body[stop - 1]?.any isHighSurrogate then stop - 1
  else stop

def truncateRule (body : Text) (maxChars : Nat) (relativePath : Text) : TruncationResult :=
  if isNeverTruncatedRule relativePath ∨ body.length ≤ maxChars then ⟨body, false, body.length⟩
  else
    let notice := truncationNotice relativePath
    if maxChars < notice.length then ⟨notice, true, body.length⟩
    else
      let sliceEnd := safeSliceEnd body (maxChars - notice.length)
      ⟨body.take sliceEnd ++ notice, true, body.length⟩

/-- The body of the loop of `truncateBudget`; `none` is its `break`. -/
def budgetStep (remainingBudget : Int) (rule : BudgetRule) : Option BudgetResult :=
  if isNeverTruncatedRule rule.relativePath then some ⟨rule, false⟩
  else if rule.body.length ≤ remainingBudget then some ⟨rule, false⟩
  else
    let notice := truncationNotice rule.relativePath
    if remainingBudget ≤ notice.length then none
    else
      let sliceEnd := safeSliceEnd rule.body (remainingBudget - notice.length).toNat
      some ⟨⟨rule.body.take sliceEnd ++ notice, rule.relativePath⟩, true⟩

def truncateBudget (remainingBudget : Int) : List BudgetRule → List BudgetResult
  | [] => []
  | rule :: rules =>
    match budgetStep remainingBudget rule with
    | none => []
    | some result => result :: truncateBudget (remainingBudget - result.body.length) rules

/-- A rule after the cut of its own limit. -/
def perRuleBudgeted (options : FormatOptions) (count : Nat) (rule : LoadedRule) : BudgetRule :=
  let body := normalizeRuleBody rule.body
  let maxChars := min options.maxRuleChars (options.maxResultChars / max 1 count)
  ⟨if isNeverTruncatedRule rule.relativePath then body
    else (truncateRule body maxChars rule.relativePath).body, rule.relativePath⟩

/-- The rules that the shared budget is given to. -/
def budgetRules (rules : List LoadedRule) (options : FormatOptions) : List BudgetRule :=
  rules.map (perRuleBudgeted options rules.length)

def truncateRules (rules : List LoadedRule) (options : FormatOptions) : List TruncatedRule :=
  List.zipWith (fun rule result => ⟨rule.path, result.relativePath, result.body⟩) rules
    (truncateBudget options.maxResultChars (budgetRules rules options))

/-- The body of a rule as its block has it. -/
def TruncatedRule.shownBody (rule : TruncatedRule) : Text :=
  normalizeRuleBody rule.body

def formatRule (rule : TruncatedRule) : Text :=
  text "Instructions from: " ++ rule.path ++
    if rule.shownBody = [] then [] else text "\n\n" ++ rule.shownBody

/-- A block with its heading. -/
def ruleBlock (heading : Text) (rules : List TruncatedRule) : Text :=
  heading ++ text "\n\n" ++ (text "\n\n").intercalate (rules.map formatRule)

/-- The loop of `uniqueRulesByBody` with its two sets. -/
def uniqueRulesFrom (seenBodies userDescriptions : List Text) : List LoadedRule → List LoadedRule
  | [] => []
  | rule :: rules =>
    let descriptionKey := rule.description.map trim
    let bodyKey := normalizeRuleBody rule.body
    if rule.source = .pluginBundled ∧ descriptionKey.any (· ∈ userDescriptions) then
      uniqueRulesFrom seenBodies userDescriptions rules
    else if bodyKey ∈ seenBodies then uniqueRulesFrom seenBodies userDescriptions rules
    else
      rule :: uniqueRulesFrom (bodyKey :: seenBodies)
        (if rule.source = .pluginBundled then userDescriptions
          else descriptionKey.toList ++ userDescriptions) rules

def uniqueRulesByBody : List LoadedRule → List LoadedRule :=
  uniqueRulesFrom [] []

def isHephaestusRule (rule : LoadedRule) : Bool :=
  isNeverTruncatedRule (if rule.relativePath = [] then rule.path else rule.relativePath)

section

variable (rules : List LoadedRule)

def orderStaticRules : List LoadedRule :=
  rules.filter isHephaestusRule ++ rules.filter fun rule => !isHephaestusRule rule

/-- The rules of the static block, in its order. -/
def staticRules : List LoadedRule :=
  orderStaticRules (uniqueRulesByBody rules)

def staticHeading : Text :=
  text "## Project Instructions"

def formatStaticBlock (options : FormatOptions) : Text :=
  if rules.isEmpty then []
  else if options.maxResultChars ≤ 0 then []
  else ruleBlock staticHeading (truncateRules (staticRules rules) options)

variable (targetRelativePath : Text)

def dynamicHeading : Text :=
  text "Additional project instructions matched for " ++ targetRelativePath ++ text ":"

def formatDynamicBlock (options : FormatOptions) : Text :=
  if rules.isEmpty then []
  else ruleBlock (dynamicHeading targetRelativePath) (truncateRules rules options)

end

/-- A cut at this position would separate a surrogate pair. -/
def SplitsPair (body : Text) : Nat → Prop
  | 0 => False
  | before + 1 =>
    body[before]?.any isHighSurrogate = true ∧ body[before + 1]?.any isLowSurrogate = true

/-- A prefix that separates no pair, with the notice behind it. -/
def CutFrom (body notice cut : Text) : Prop :=
  ∃ stop, ¬SplitsPair body stop ∧ cut = body.take stop ++ notice

/-- The body that a block shows is whole or cut. -/
def WholeOrCut (body notice shown : Text) : Prop :=
  shown = body ∨ ∃ cut, CutFrom body notice cut ∧ shown = normalizeRuleBody cut

def ordinaryChars (shown : List TruncatedRule) : Nat :=
  ((shown.filter fun rule => !isNeverTruncatedRule rule.relativePath).map
    fun rule => rule.shownBody.length).sum

/-- What a block of rules keeps. -/
structure BlockKept (block heading : Text) (rules : List LoadedRule) (options : FormatOptions)
    (shown : List TruncatedRule) : Prop where
  block : rules ≠ [] → block = ruleBlock heading shown
  total : ordinaryChars shown ≤ options.maxResultChars
  bodies : ∀ (i : Nat) (rule : LoadedRule) (entry : TruncatedRule),
    rules[i]? = some rule → shown[i]? = some entry →
      entry.path = rule.path ∧ WholeOrCut (normalizeRuleBody rule.body)
        (truncationNotice rule.relativePath) entry.shownBody
  inFull : ∀ (i : Nat) (rule : LoadedRule),
    rules[i]? = some rule → isNeverTruncatedRule rule.relativePath →
      ∃ entry : TruncatedRule, shown[i]? = some entry ∧ entry.path = rule.path ∧
        entry.shownBody = normalizeRuleBody rule.body

/-- No room is left for the rule, and none for its notice. -/
def RunsOut (left : Int) (rule : BudgetRule) : Prop :=
  isNeverTruncatedRule rule.relativePath = false ∧ left < rule.body.length ∧
    left ≤ (truncationNotice rule.relativePath).length

/-- What a rule takes of the budget. -/
def takenBy (left : Int) (rule : BudgetRule) : Nat :=
  let notice := (truncationNotice rule.relativePath).length
  if isNeverTruncatedRule rule.relativePath ∨ rule.body.length ≤ left then rule.body.length
  else safeSliceEnd rule.body (left - notice).toNat + notice

/-- No never-truncated rule stands behind a rule that finds the budget run out. -/
def NoneBehind (left : Int) : List BudgetRule → Prop
  | [] => True
  | rule :: rules =>
    (RunsOut left rule → ∀ later ∈ rules, isNeverTruncatedRule later.relativePath = false) ∧
      (¬RunsOut left rule → NoneBehind (left - takenBy left rule) rules)

theorem joinBreaks_of_plain (plain : carriageReturn ∉ body) : joinBreaks body = body := by
  fun_induction joinBreaks body with
  | case1 => rfl
  | case2 => rfl
  | case3 char next rest isBreak => simp [isBreak.1] at plain
  | case4 char next rest _ ih => rw [ih fun member => plain (List.mem_cons_of_mem _ member)]

theorem length_joinBreaks_le : (joinBreaks body).length ≤ body.length := by
  fun_induction joinBreaks body <;> simp_all; omega

theorem trim_trim : trim (trim value) = trim value := by
  have isPrefix : trim value <+: trimStart value := List.rdropWhile_prefix isWhitespace _
  have starts : trimStart (trim value) = trim value := by
    rw [trimStart, List.dropWhile_eq_self_iff]
    intro nonempty
    have visible := List.dropWhile_eq_self_iff.mp
      (List.dropWhile_idempotent (p := isWhitespace) (l := value))
    rw [isPrefix.getElem nonempty]
    exact visible (nonempty.trans_le isPrefix.length_le)
  rw [trim, starts]
  exact List.rdropWhile_idempotent isWhitespace _

theorem length_normalizeRuleBody_le (body : Text) :
    (normalizeRuleBody body).length ≤ body.length := by
  have trimmed : ∀ value : Text, (trim value).length ≤ value.length := fun value =>
    (List.rdropWhile_prefix isWhitespace _).length_le.trans (List.length_dropWhile_le _ _)
  calc (normalizeRuleBody body).length
      ≤ _ := trimmed _
    _ = (joinBreaks body).length := List.length_map _
    _ ≤ body.length := length_joinBreaks_le

@[simp] theorem normalizeRuleBody_idem :
    normalizeRuleBody (normalizeRuleBody body) = normalizeRuleBody body := by
  have plain : carriageReturn ∉ normalizeRuleBody body := by
    intro member
    have inMap := (List.dropWhile_sublist _).mem ((List.rdropWhile_prefix _ _).mem member)
    obtain ⟨char, -, equal⟩ := List.mem_map.mp inMap
    split at equal
    · cases equal
    · contradiction
  have same : (normalizeRuleBody body).map
      (fun char => if char = carriageReturn then newline else char) = normalizeRuleBody body := by
    conv_rhs => rw [← List.map_id (normalizeRuleBody body)]
    exact List.map_congr_left fun char member => by
      rw [if_neg (ne_of_mem_of_not_mem member plain), id]
  rw [normalizeRuleBody, joinBreaks_of_plain plain, same]
  exact trim_trim

theorem not_splitsPair_safeSliceEnd (body : Text) (stop : Nat) :
    ¬SplitsPair body (safeSliceEnd body stop) := by
  rcases stop with _ | before
  · exact id
  simp only [safeSliceEnd, Nat.add_sub_cancel, if_neg (Nat.succ_ne_zero before)]
  split
  next isHigh =>
    rcases before with _ | before
    · exact id
    rintro ⟨-, isLow⟩
    cases found : body[before + 1]? with
    | none => simp [found] at isLow
    | some char =>
      simp only [found, Option.any_some, isHighSurrogate, isLowSurrogate, Bool.and_eq_true,
        decide_eq_true_eq] at isHigh isLow
      omega
  next notHigh => exact fun splits => notHigh splits.1

/-- A cut in front of the notice of an earlier cut. -/
theorem cut_again (inside : stop < (body.take last).length)
    (whole : ¬SplitsPair (body.take last ++ notice) stop) :
    ¬SplitsPair body stop ∧ (body.take last ++ notice).take stop = body.take stop := by
  have beforeLast : stop < last := inside.trans_le (List.length_take_le _ _)
  have unit : ∀ i ≤ stop, (body.take last ++ notice)[i]? = body[i]? := by
    intro i bound
    rw [List.getElem?_append_left (bound.trans_lt inside),
      List.getElem?_take_of_lt (bound.trans_lt beforeLast)]
  constructor
  · rcases stop with _ | before
    · exact id
    · rwa [SplitsPair, unit before (Nat.le_succ _), unit _ le_rfl] at whole
  · rw [List.take_append_of_le_length inside.le, List.take_take, Nat.min_eq_left beforeLast.le]

theorem truncateRule_body : (truncateRule body maxChars relativePath).body = body ∨
      CutFrom body (truncationNotice relativePath)
        (truncateRule body maxChars relativePath).body := by
  unfold truncateRule
  split
  · exact .inl rfl
  right
  dsimp only
  split
  · exact ⟨0, id, rfl⟩
  · exact ⟨_, not_splitsPair_safeSliceEnd body _, rfl⟩

theorem budgetStep_eq_none_iff : budgetStep left rule = none ↔ RunsOut left rule := by
  unfold budgetStep RunsOut
  grind

theorem safeSliceEnd_le (body : Text) (stop : Nat) : safeSliceEnd body stop ≤ stop := by
  unfold safeSliceEnd
  split <;> [omega; split <;> omega]

/-- One step of the loop: the body as it is, or a cut that the budget has room for. -/
theorem budgetStep_eq_some (step : budgetStep left rule = some result) :
    result.relativePath = rule.relativePath ∧ result.body.length = takenBy left rule ∧
      (isNeverTruncatedRule rule.relativePath = false → result.body.length ≤ left) ∧
      (result.body = rule.body ∨ isNeverTruncatedRule rule.relativePath = false ∧
        ∃ stop, stop + (truncationNotice rule.relativePath).length < rule.body.length ∧
          ¬SplitsPair rule.body stop ∧
          result.body = rule.body.take stop ++ truncationNotice rule.relativePath) := by
  unfold budgetStep at step
  split at step
  next never =>
    cases step
    exact ⟨rfl, by simp [takenBy, never], fun ordinary => by simp [never] at ordinary, .inl rfl⟩
  next ordinary =>
  split at step
  next fits =>
    cases step
    exact ⟨rfl, by simp [takenBy, fits], fun _ => fits, .inl rfl⟩
  next exceeds =>
  dsimp only at step
  split at step
  · cases step
  next room =>
    cases step
    have small := safeSliceEnd_le rule.body (left - (truncationNotice rule.relativePath).length).toNat
    refine ⟨rfl, ?_, fun _ => ?_, .inr ⟨by simpa using ordinary, _, ?_,
      not_splitsPair_safeSliceEnd _ _, rfl⟩⟩
    · simp only [takenBy, ordinary, exceeds, Bool.false_eq_true, or_self, if_false,
        List.length_append, List.length_take]
      omega
    · simp only [List.length_append, List.length_take]
      omega
    · omega

theorem truncateBudget_getElem? {i : Nat} (found : (truncateBudget left rules)[i]? = some result) :
    ∃ rule before, rules[i]? = some rule ∧ budgetStep before rule = some result := by
  induction rules generalizing left i with
  | nil => simp [truncateBudget] at found
  | cons rule rules ih =>
    unfold truncateBudget at found
    split at found
    · simp at found
    next step =>
      cases i with
      | zero =>
        cases found
        exact ⟨rule, left, rfl, step⟩
      | succ i => exact ih found

/-- The loop reaches all never-truncated rules if and only if none stands behind its end. -/
theorem truncateBudget_reaches_iff (left : Int) (rules : List BudgetRule) :
    (∀ (i : Nat) (rule : BudgetRule), rules[i]? = some rule →
        isNeverTruncatedRule rule.relativePath → i < (truncateBudget left rules).length) ↔
      NoneBehind left rules := by
  induction rules generalizing left with
  | nil => simp [NoneBehind]
  | cons rule rules ih =>
    rw [← Nat.and_forall_add_one, NoneBehind, truncateBudget]
    cases step : budgetStep left rule with
    | none =>
      have isOut := budgetStep_eq_none_iff.mp step
      simp [isOut, isOut.1, List.mem_iff_getElem?]
      exact forall_comm
    | some result =>
      have notOut : ¬RunsOut left rule := fun isOut => by simp [budgetStep_eq_none_iff.mpr isOut] at step
      simp [notOut, ← ih, (budgetStep_eq_some step).2.1]

theorem ordinaryChars_cons :
    ordinaryChars (rule :: rules) =
      (if isNeverTruncatedRule rule.relativePath then 0 else rule.shownBody.length) +
        ordinaryChars rules := by
  cases never : isNeverTruncatedRule rule.relativePath <;> simp [ordinaryChars, never]

/-- The bodies of the ordinary rules stay inside the budget. -/
theorem ordinaryChars_truncateBudget_le (paths : List LoadedRule) (left : Int)
    (rules : List BudgetRule) :
    (ordinaryChars (List.zipWith (fun rule result => ⟨rule.path, result.relativePath, result.body⟩)
      paths (truncateBudget left rules)) : Int) ≤ max left 0 := by
  induction rules generalizing paths left with
  | nil => simp [truncateBudget, ordinaryChars]
  | cons rule rules ih =>
    unfold truncateBudget
    split
    · simp [ordinaryChars]
    next result step =>
    cases paths with
    | nil => simp [ordinaryChars]
    | cons path paths =>
      obtain ⟨samePath, -, inside, -⟩ := budgetStep_eq_some step
      have rest := ih paths (left - result.body.length)
      have shown := length_normalizeRuleBody_le result.body
      rw [List.zipWith_cons_cons, ordinaryChars_cons]
      simp only [TruncatedRule.shownBody]
      rw [samePath]
      split
      next => omega
      next ordinary =>
        have room := inside (by simpa using ordinary)
        omega

theorem perRuleBudgeted_body (options : FormatOptions) (count : Nat) (rule : LoadedRule) :
    (perRuleBudgeted options count rule).body = normalizeRuleBody rule.body ∨
      CutFrom (normalizeRuleBody rule.body) (truncationNotice rule.relativePath)
        (perRuleBudgeted options count rule).body := by
  unfold perRuleBudgeted
  split
  · exact .inl rfl
  · exact truncateRule_body

theorem truncateRules_getElem? {i : Nat} (isRule : rules[i]? = some rule)
    (isEntry : (truncateRules rules options)[i]? = some entry) :
    entry.path = rule.path ∧
      WholeOrCut (normalizeRuleBody rule.body) (truncationNotice rule.relativePath)
        entry.shownBody ∧
      (isNeverTruncatedRule rule.relativePath →
        entry.shownBody = normalizeRuleBody rule.body) := by
  obtain ⟨found, result, isFound, isResult, rfl⟩ := List.getElem?_zipWith_eq_some.mp isEntry
  cases isRule.symm.trans isFound
  obtain ⟨budgeted, before, isBudgeted, step⟩ := truncateBudget_getElem? isResult
  rw [budgetRules, List.getElem?_map, isRule] at isBudgeted
  cases isBudgeted
  obtain ⟨-, -, -, body⟩ := budgetStep_eq_some step
  have perRule := perRuleBudgeted_body options rules.length rule
  have samePath : (perRuleBudgeted options rules.length rule).relativePath = rule.relativePath :=
    rfl
  refine ⟨rfl, ?_, fun never => ?_⟩
  · simp only [TruncatedRule.shownBody]
    rcases body with whole | ⟨-, stop, inside, safe, cut⟩
    · rw [whole]
      exact perRule.imp (fun uncut => by simp [uncut]) fun cut => ⟨_, cut, rfl⟩
    · rw [samePath] at inside cut
      refine .inr ⟨_, ?_, rfl⟩
      rcases perRule with uncut | ⟨last, -, cutBefore⟩
      · exact ⟨stop, uncut ▸ safe, uncut ▸ cut⟩
      · rw [cutBefore] at inside safe cut
        rw [List.length_append] at inside
        obtain ⟨safe, front⟩ := cut_again (by omega) safe
        exact ⟨stop, safe, by rw [cut, front]⟩
  · rcases body with whole | ⟨ordinary, -⟩
    · simp [TruncatedRule.shownBody, whole, perRuleBudgeted, never]
    · simp [samePath, never] at ordinary

theorem blockKept_iff
    (isBlock : rules ≠ [] → block = ruleBlock heading (truncateRules rules options)) :
    BlockKept block heading rules options (truncateRules rules options) ↔
      NoneBehind options.maxResultChars (budgetRules rules options) := by
  have isBudgeted (i : Nat) : (budgetRules rules options)[i]? =
      rules[i]?.map (perRuleBudgeted options rules.length) := List.getElem?_map ..
  rw [← truncateBudget_reaches_iff]
  constructor
  · intro kept i budgeted found never
    rw [isBudgeted, Option.map_eq_some_iff] at found
    obtain ⟨rule, isRule, rfl⟩ := found
    obtain ⟨entry, isEntry, -⟩ := kept.inFull i rule isRule never
    exact (List.getElem?_eq_some_iff.mp isEntry).1.trans_le
      (List.length_zipWith.trans_le (Nat.min_le_right _ _))
  · intro reaches
    refine ⟨isBlock, ?_, fun i rule entry isRule isEntry => ?_, fun i rule isRule never => ?_⟩
    · have bound := ordinaryChars_truncateBudget_le rules options.maxResultChars
        (budgetRules rules options)
      rw [max_eq_left (Int.natCast_nonneg _)] at bound
      exact_mod_cast bound
    · obtain ⟨path, body, -⟩ := truncateRules_getElem? isRule isEntry
      exact ⟨path, body⟩
    · have reached := reaches i _ ((isBudgeted i).trans (congrArg _ isRule)) never
      have inRules := (List.getElem?_eq_some_iff.mp isRule).1
      have inShown : i < (truncateRules rules options).length := by
        rw [truncateRules, List.length_zipWith]
        exact lt_min inRules reached
      have isEntry := List.getElem?_eq_getElem inShown
      obtain ⟨path, -, full⟩ := truncateRules_getElem? isRule isEntry
      exact ⟨_, isEntry, path, full never⟩

/-- Both blocks of a list of rules. -/
def BlocksKept (rules : List LoadedRule) (targetRelativePath : Text)
    (options : FormatOptions) : Prop :=
  BlockKept (formatStaticBlock rules options) staticHeading (staticRules rules) options
      (truncateRules (staticRules rules) options) ∧
    BlockKept (formatDynamicBlock rules targetRelativePath options)
      (dynamicHeading targetRelativePath) rules options (truncateRules rules options)

/-- The blocks are kept exactly when no never-truncated rule stands behind the end of the loop. -/
theorem blocksKept_iff (positive : 0 < options.maxRuleChars ∧ 0 < options.maxResultChars) :
    BlocksKept rules targetRelativePath options ↔
      NoneBehind options.maxResultChars (budgetRules (staticRules rules) options) ∧
        NoneBehind options.maxResultChars (budgetRules rules options) := by
  refine and_congr (blockKept_iff fun nonempty => ?_) (blockKept_iff fun nonempty => ?_)
  · have someRules : rules ≠ [] := by
      rintro rfl
      exact nonempty rfl
    simp [formatStaticBlock, someRules, positive.2.ne']
  · simp [formatDynamicBlock, nonempty]

/-- An ordinary rule without room for its notice, in front of a never-truncated one. -/
def crowdedRules : List LoadedRule :=
  [⟨text "/w/a.md", text "a.md", .omoRules, none, text "an ordinary rule"⟩,
    ⟨text "/p/hephaestus.md", text "bundled-rules/hephaestus.md", .pluginBundled, none, text "kept"⟩]

theorem blocksKept_iff_crowded :
    BlocksKept crowdedRules (text "b.ts") ⟨12000, 40⟩ ↔
      NoneBehind 40 (budgetRules (staticRules crowdedRules) ⟨12000, 40⟩) ∧
        NoneBehind 40 (budgetRules crowdedRules ⟨12000, 40⟩) :=
  blocksKept_iff (by decide)

theorem not_blocksKept_crowded : ¬BlocksKept crowdedRules (text "b.ts") ⟨12000, 10⟩ := by
  rintro ⟨-, kept⟩
  obtain ⟨entry, isEntry, -⟩ := kept.inFull 1 _ rfl (by decide +kernel)
  have noEntry : (truncateRules crowdedRules ⟨12000, 10⟩)[1]?.isNone := by decide +kernel
  rw [isEntry] at noEntry
  cases noEntry

end OpenAgent.Rules
