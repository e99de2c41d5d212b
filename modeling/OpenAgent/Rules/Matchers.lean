import OpenAgent.Library.Text

/-!
# The two rule matchers

The matcher of the engine and `shouldApplyRule` over one glob predicate.  The first one holds
the exclusions against the base that a pattern matched, the second one against all bases.
-/

namespace OpenAgent.Rules

open Library

/-- `string | string[]`. -/
inductive PatternList
  | single (pattern : Text)
  | many (patterns : List Text)

/-- The fields of a rule's frontmatter that the matchers read. -/
structure RuleFrontmatter where
  globs : Option PatternList
  paths : Option PatternList
  applyTo : Option PatternList
  alwaysApply : Option Bool

/-- Why a rule applies. -/
inductive MatchReason
  | alwaysApply
  | singleFile
  | glob (pattern : Text)
  | noMatch

/-- `MatchResult` of the engine. -/
structure MatchResult where
  matched : Bool
  reason : MatchReason

structure PathBases where
  projectRelative : Text
  scopeRelative : Option Text
  basename : Text

/-- `MatchResult` of `shouldApplyRule`. -/
structure ApplyResult where
  applies : Bool
  reason : Option Text

/-- `path.replaceAll("\\", "/")`. -/
def normalizePath (path : Text) : Text :=
  path.map fun char => if char = unit '\\' then unit '/' else char

def normalizePatternList : Option PatternList → List Text
  | none => []
  | some (.single pattern) => [pattern]
  | some (.many patterns) => patterns

def normalizeGlobs (frontmatter : RuleFrontmatter) : List Text :=
  setOf ((normalizePatternList frontmatter.globs ++ normalizePatternList frontmatter.paths ++
    normalizePatternList frontmatter.applyTo).map normalizePath)

/-- `pattern.startsWith("!")`. -/
def isNegated (pattern : Text) : Bool :=
  pattern.head? = some (unit '!')

def positivePatterns (patterns : List Text) : List Text :=
  patterns.filter fun pattern => !isNegated pattern

/-- The negated patterns without their marks. -/
def negativePatterns (patterns : List Text) : List Text :=
  (patterns.filter isNegated).map List.tail

/-- `picomatch` with the options that both matchers give it. -/
abbrev Glob :=
  Text → Text → Bool

variable (picomatch : Glob)

def createGlobMatcher (pattern : Text) : Text → Bool :=
  picomatch (normalizePath pattern)

def isExcluded (pathBase : Text) (negative : List Text) : Bool :=
  negative.any fun pattern => createGlobMatcher picomatch pattern pathBase

def normalizedPathBases (bases : PathBases) : List Text :=
  ([bases.projectRelative] ++ bases.scopeRelative.toList ++ [bases.basename]).map normalizePath

/-- The loops over patterns and bases end at the first base that a pattern matches. -/
def matchRule (frontmatter : RuleFrontmatter) (isSingleFile : Bool)
    (bases : PathBases) : MatchResult :=
  if isSingleFile then ⟨true, .singleFile⟩
  else if frontmatter.alwaysApply = some true then ⟨true, .alwaysApply⟩
  else
    let patterns := normalizeGlobs frontmatter
    let candidates := (positivePatterns patterns).flatMap fun pattern =>
      (normalizedPathBases bases).map fun pathBase => (pattern, pathBase)
    match candidates.find? fun candidate =>
        createGlobMatcher picomatch candidate.1 candidate.2 with
    | none => ⟨false, .noMatch⟩
    | some (pattern, pathBase) =>
      if isExcluded picomatch pathBase (negativePatterns patterns) then ⟨false, .noMatch⟩
      else ⟨true, .glob pattern⟩

/-- The path is given by its relative form and its last component. -/
def shouldApplyRule (metadata : RuleFrontmatter) (relativePath baseName : Text) : ApplyResult :=
  if metadata.alwaysApply = some true then ⟨true, some (text "alwaysApply")⟩
  else
    let patterns := normalizeGlobs metadata
    let pathBases := [normalizePath relativePath, normalizePath baseName]
    match (positivePatterns patterns).find? fun pattern => pathBases.any (picomatch pattern) with
    | none => ⟨false, none⟩
    | some pattern =>
      if pathBases.any fun pathBase =>
          (negativePatterns patterns).any fun negative => picomatch negative pathBase then
        ⟨false, none⟩
      else ⟨true, some (text "glob: " ++ pattern)⟩

/-- The same patterns in another order. -/
structure Reordered (metadata other : RuleFrontmatter) : Prop where
  alwaysApply : other.alwaysApply = metadata.alwaysApply
  patterns : (normalizeGlobs other).Perm (normalizeGlobs metadata)

variable (metadata : RuleFrontmatter) (relativePath baseName : Text)

/-- The verdict of the engine on the two bases of a path. -/
def engineMatches : Bool :=
  (matchRule picomatch metadata false ⟨relativePath, none, baseName⟩).matched

abbrev basesOf : List Text :=
  [normalizePath relativePath, normalizePath baseName]

/-- A negated pattern of the rule matches a base. -/
abbrev Excludes (pathBase : Text) : Prop :=
  isExcluded picomatch pathBase (negativePatterns (normalizeGlobs metadata)) = true

/-- The matchers give one answer, in any order of the patterns, and neither applies a rule
that excludes a base of the path. -/
structure MatchersAgree : Prop where
  agree : engineMatches picomatch metadata relativePath baseName =
    (shouldApplyRule picomatch metadata relativePath baseName).applies
  inAnyOrder : ∀ other, Reordered metadata other →
    engineMatches picomatch other relativePath baseName =
        engineMatches picomatch metadata relativePath baseName ∧
      (shouldApplyRule picomatch other relativePath baseName).applies =
        (shouldApplyRule picomatch metadata relativePath baseName).applies
  excluded : (∃ pathBase ∈ basesOf relativePath baseName, Excludes picomatch metadata pathBase) →
    engineMatches picomatch metadata relativePath baseName = false ∧
      (shouldApplyRule picomatch metadata relativePath baseName).applies = false

/-- When a base is excluded, then the rule is not applied always, and the first base that a
positive pattern matches is excluded too. -/
def FirstBasesExcluded : Prop :=
  (∃ pathBase ∈ basesOf relativePath baseName, Excludes picomatch metadata pathBase) →
    metadata.alwaysApply ≠ some true ∧
      ∀ pattern ∈ positivePatterns (normalizeGlobs metadata), ∀ pathBase,
        (basesOf relativePath baseName).find? (picomatch pattern) = some pathBase →
          Excludes picomatch metadata pathBase

variable {picomatch metadata relativePath baseName} {other : RuleFrontmatter} {pattern : Text}

theorem normalizePath_normalizePath : normalizePath (normalizePath path) = normalizePath path := by
  rw [normalizePath, normalizePath, List.map_map]
  refine List.map_congr_left fun char _ => ?_
  simp only [Function.comp_apply]
  split
  · decide
  · rfl

theorem normalizePath_of_mem (member : pattern ∈ normalizeGlobs metadata) :
    normalizePath pattern = pattern := by
  obtain ⟨raw, _, rfl⟩ := List.mem_map.mp (mem_setOf.mp member)
  exact normalizePath_normalizePath

theorem isExcluded_iff :
    Excludes picomatch metadata pathBase ↔
      ∃ negative ∈ negativePatterns (normalizeGlobs metadata),
        picomatch negative pathBase = true := by
  have unmarked : ∀ negative ∈ negativePatterns (normalizeGlobs metadata),
      normalizePath negative = negative := by
    intro negative member
    obtain ⟨pattern, isMember, rfl⟩ := List.mem_map.mp member
    have normal := normalizePath_of_mem (List.mem_filter.mp isMember).1
    rw [normalizePath, List.map_tail, ← normalizePath, normal]
  rw [Excludes, isExcluded, List.any_eq_true]
  constructor
  · rintro ⟨negative, member, isMatch⟩
    exact ⟨negative, member, unmarked negative member ▸ isMatch⟩
  · rintro ⟨negative, member, isMatch⟩
    exact ⟨negative, member, by rwa [createGlobMatcher, unmarked negative member]⟩

/-- Two nested loops end at the first hit of the inner one. -/
theorem find?_pairs (hits : α → β → Bool) (patterns : List α) (bases : List β) :
    (patterns.flatMap fun pattern => bases.map fun pathBase => (pattern, pathBase)).find?
        (fun pair => hits pair.1 pair.2) =
      patterns.findSome? fun pattern => (bases.find? (hits pattern)).map (pattern, ·) := by
  simp only [List.find?_flatMap, List.find?_map, Function.comp_def]

/-- The engine takes the first base of some positive pattern that matches. -/
theorem engineMatches_cases (byPattern : metadata.alwaysApply ≠ some true) :
    (engineMatches picomatch metadata relativePath baseName = false ∧
      ∀ pattern ∈ positivePatterns (normalizeGlobs metadata),
        (basesOf relativePath baseName).find? (picomatch pattern) = none) ∨
    ∃ pattern ∈ positivePatterns (normalizeGlobs metadata), ∃ pathBase,
      (basesOf relativePath baseName).find? (picomatch pattern) = some pathBase ∧
        engineMatches picomatch metadata relativePath baseName =
          !isExcluded picomatch pathBase (negativePatterns (normalizeGlobs metadata)) := by
  have normal : ∀ pattern ∈ positivePatterns (normalizeGlobs metadata),
      createGlobMatcher picomatch pattern = picomatch pattern := fun pattern member => by
    rw [createGlobMatcher, normalizePath_of_mem (List.mem_filter.mp member).1]
  rw [engineMatches, matchRule, if_neg Bool.false_ne_true, if_neg byPattern]
  dsimp only
  rw [find?_pairs]
  split
  · next isNone =>
    rw [List.findSome?_eq_none_iff] at isNone
    refine .inl ⟨rfl, fun pattern member => ?_⟩
    have noHit := isNone pattern member
    rw [normal pattern member, Option.map_eq_none_iff] at noHit
    exact noHit
  · next pattern pathBase isSome =>
    obtain ⟨_, member, isHit⟩ := List.exists_of_findSome?_eq_some isSome
    rw [normal _ member, Option.map_eq_some_iff] at isHit
    obtain ⟨_, found, ⟨⟩⟩ := isHit
    refine .inr ⟨pattern, member, pathBase, found, ?_⟩
    split
    · next excluded => rw [excluded]; rfl
    · next kept => rw [Bool.eq_false_of_not_eq_true kept]; rfl

theorem applies_eq (byPattern : metadata.alwaysApply ≠ some true) :
    (shouldApplyRule picomatch metadata relativePath baseName).applies = true ↔
      (∃ pattern ∈ positivePatterns (normalizeGlobs metadata),
        ∃ pathBase ∈ basesOf relativePath baseName, picomatch pattern pathBase = true) ∧
      ∀ pathBase ∈ basesOf relativePath baseName, ¬ Excludes picomatch metadata pathBase := by
  rw [shouldApplyRule, if_neg byPattern]
  dsimp only
  have excluded : ((basesOf relativePath baseName).any fun pathBase =>
      (negativePatterns (normalizeGlobs metadata)).any fun negative =>
        picomatch negative pathBase) = true ↔
      ∃ pathBase ∈ basesOf relativePath baseName, Excludes picomatch metadata pathBase := by
    simp only [List.any_eq_true, isExcluded_iff]
  split
  · next isNone =>
    rw [List.find?_eq_none] at isNone
    refine iff_of_false Bool.false_ne_true fun ⟨⟨pattern, member, isHit⟩, _⟩ => ?_
    exact isNone pattern member (List.any_eq_true.mpr isHit)
  · next pattern isSome =>
    have isHit : (basesOf relativePath baseName).any (picomatch pattern) = true :=
      @List.find?_some _ (fun pattern => (basesOf relativePath baseName).any (picomatch pattern))
        _ _ isSome
    have member := List.mem_of_find?_eq_some isSome
    split
    · next isExcluded =>
      obtain ⟨pathBase, isBase, excludes⟩ := excluded.mp isExcluded
      exact iff_of_false Bool.false_ne_true fun applies => applies.2 pathBase isBase excludes
    · next kept =>
      refine iff_of_true rfl ⟨⟨pattern, member, List.any_eq_true.mp isHit⟩,
        fun pathBase isBase excludes => ?_⟩
      exact kept (excluded.mpr ⟨pathBase, isBase, excludes⟩)

/-- Where the first bases are excluded whenever one is, the matchers agree. -/
theorem engineMatches_eq
    (firstExcluded : FirstBasesExcluded picomatch metadata relativePath baseName) :
    engineMatches picomatch metadata relativePath baseName =
      (shouldApplyRule picomatch metadata relativePath baseName).applies := by
  by_cases byPattern : metadata.alwaysApply = some true
  · simp [engineMatches, matchRule, shouldApplyRule, byPattern]
  rw [Bool.eq_iff_iff, applies_eq byPattern]
  rcases @engineMatches_cases picomatch _ _ _ byPattern with
    ⟨isFalse, noHit⟩ | ⟨pattern, member, pathBase, found, verdict⟩
  · rw [isFalse]
    refine iff_of_false Bool.false_ne_true fun ⟨⟨pattern, member, pathBase, isBase, isHit⟩, _⟩ => ?_
    exact List.find?_eq_none.mp (noHit pattern member) pathBase isBase isHit
  · have isBase := List.mem_of_find?_eq_some found
    rw [verdict, Bool.not_eq_true', ← Bool.not_eq_true]
    constructor
    · intro kept
      refine ⟨⟨pattern, member, pathBase, isBase, List.find?_some found⟩, fun other isOther out => ?_⟩
      exact kept ((firstExcluded ⟨other, isOther, out⟩).2 pattern member pathBase found)
    · exact fun applies => applies.2 pathBase isBase

section

variable (reordered : Reordered metadata other)
include reordered

theorem Reordered.mem_iff : pattern ∈ normalizeGlobs other ↔ pattern ∈ normalizeGlobs metadata :=
  reordered.patterns.mem_iff

theorem Reordered.excludes_iff :
    Excludes picomatch other pathBase ↔ Excludes picomatch metadata pathBase := by
  simp only [isExcluded_iff, negativePatterns, List.mem_map, List.mem_filter, reordered.mem_iff]

theorem Reordered.firstBasesExcluded
    (firstExcluded : FirstBasesExcluded picomatch metadata relativePath baseName) :
    FirstBasesExcluded picomatch other relativePath baseName := by
  intro excludes
  simp only [reordered.excludes_iff] at excludes ⊢
  refine ⟨reordered.alwaysApply ▸ (firstExcluded excludes).1, fun pattern member pathBase found => ?_⟩
  rw [positivePatterns, List.mem_filter, reordered.mem_iff] at member
  exact (firstExcluded excludes).2 pattern (List.mem_filter.mpr member) pathBase found

theorem Reordered.applies_eq :
    (shouldApplyRule picomatch other relativePath baseName).applies =
      (shouldApplyRule picomatch metadata relativePath baseName).applies := by
  by_cases byPattern : metadata.alwaysApply = some true
  · simp [shouldApplyRule, byPattern, reordered.alwaysApply]
  rw [Bool.eq_iff_iff, Rules.applies_eq byPattern,
    Rules.applies_eq (reordered.alwaysApply ▸ byPattern)]
  simp only [positivePatterns, List.mem_filter, reordered.mem_iff, reordered.excludes_iff]

end

/-- A pattern of a rule can be put in front of the others. -/
theorem exists_reordered (member : pattern ∈ normalizeGlobs metadata) :
    ∃ other rest, Reordered metadata other ∧ normalizeGlobs other = pattern :: rest := by
  let other : RuleFrontmatter :=
    ⟨some (.many (pattern :: normalizeGlobs metadata)), none, none, metadata.alwaysApply⟩
  have same : normalizeGlobs other = Library.setOf (pattern :: normalizeGlobs metadata) := by
    have normal : (pattern :: normalizeGlobs metadata).map normalizePath =
        pattern :: normalizeGlobs metadata := by
      refine (List.map_congr_left fun value isValue => ?_).trans (List.map_id _)
      exact normalizePath_of_mem ((List.mem_cons.mp isValue).elim (fun isHead => isHead ▸ member) id)
    rw [normalizeGlobs]
    simp only [other, normalizePatternList, List.append_nil, normal]
  have grows : ∀ values front : List Text, front <+: values.foldl setInsert front := by
    intro values
    induction values with
    | nil => exact fun front => List.prefix_refl front
    | cons head values ih =>
      intro front
      refine List.IsPrefix.trans ?_ (ih (setInsert front head))
      unfold setInsert
      split
      · exact List.prefix_refl front
      · exact List.prefix_append front [head]
  obtain ⟨rest, isRest⟩ := grows (normalizeGlobs metadata) [pattern]
  refine ⟨other, rest, ⟨rfl, ?_⟩, same.trans isRest.symm⟩
  have isSet : (normalizeGlobs metadata).Nodup := nodup_setOf _
  rw [same, List.perm_ext_iff_of_nodup (nodup_setOf _) isSet]
  intro value
  rw [mem_setOf, List.mem_cons]
  exact ⟨fun found => found.elim (fun isHead => isHead ▸ member) id, .inr⟩

/-- The two matchers agree on the rules and paths where a rule that excludes a base of the path
is not applied always, and excludes the first base of every pattern that matches one. -/
theorem matchersAgree_iff :
    MatchersAgree picomatch metadata relativePath baseName ↔
      FirstBasesExcluded picomatch metadata relativePath baseName := by
  constructor
  · intro agree excludes
    have byPattern : metadata.alwaysApply ≠ some true := by
      intro always
      have refused := (agree.excluded excludes).1
      simp [engineMatches, matchRule, always] at refused
    refine ⟨byPattern, fun pattern member pathBase found => ?_⟩
    by_contra kept
    obtain ⟨isMember, positive⟩ := List.mem_filter.mp member
    obtain ⟨other, rest, reordered, isFirst⟩ := exists_reordered isMember
    have refused := (agree.inAnyOrder other reordered).1.trans (agree.excluded excludes).1
    have isNormal : createGlobMatcher picomatch pattern = picomatch pattern := by
      rw [createGlobMatcher, normalizePath_of_mem isMember]
    rw [← reordered.excludes_iff] at kept
    have front : positivePatterns (normalizeGlobs other) = pattern :: positivePatterns rest := by
      rw [isFirst]
      exact List.filter_cons_of_pos positive
    rw [engineMatches, matchRule, if_neg Bool.false_ne_true,
      if_neg (reordered.alwaysApply ▸ byPattern)] at refused
    dsimp only at refused
    rw [find?_pairs, front, List.findSome?_cons, isNormal,
      show (normalizedPathBases ⟨relativePath, none, baseName⟩).find? (picomatch pattern) =
      some pathBase from found] at refused
    dsimp only [Option.map_some] at refused
    rw [if_neg kept] at refused
    exact Bool.false_ne_true refused.symm
  · intro firstExcluded
    refine ⟨engineMatches_eq firstExcluded, fun other reordered => ⟨?_, reordered.applies_eq⟩,
      fun isOut => ?_⟩
    · rw [engineMatches_eq firstExcluded, ← reordered.applies_eq,
        engineMatches_eq (reordered.firstBasesExcluded firstExcluded)]
    · rw [engineMatches_eq firstExcluded, and_self, ← Bool.not_eq_true,
        applies_eq (firstExcluded isOut).1]
      obtain ⟨pathBase, isBase, excludes⟩ := isOut
      exact fun applies => applies.2 pathBase isBase excludes

/-- A rule with the pattern `a/*.ts` and the exclusion of `x.ts`, at the path `a/x.ts`. -/
def excludedBase : RuleFrontmatter where
  globs := some (.many [text "a/*.ts", text "!x.ts"])
  paths := none
  applyTo := none
  alwaysApply := none

def twoPatterns : Glob :=
  fun pattern path => (pattern, path) ∈
    [(text "a/*.ts", text "a/x.ts"), (text "x.ts", text "x.ts")]

theorem not_matchersAgree_excludedBase :
    ¬ MatchersAgree twoPatterns excludedBase (text "a/x.ts") (text "x.ts") := by
  intro agree
  have differ : engineMatches twoPatterns excludedBase (text "a/x.ts") (text "x.ts") = true ∧
      (shouldApplyRule twoPatterns excludedBase (text "a/x.ts") (text "x.ts")).applies = false := by
    decide +kernel
  exact Bool.false_ne_true (differ.2.symm.trans (agree.agree.symm.trans differ.1))

end OpenAgent.Rules
