import OpenAgent.Library.Splice

/-!
# Patches at separate places

A patch puts values before, behind or in place of numbered values.  `weave`
makes a list of patches at once; `Woven` is what a list looks like while the
patches are made one by one from its end.
-/

namespace OpenAgent.Library

variable {α : Type}

/-- Where a patch is made. -/
inductive Site
  | instead (first last : Nat)
  | before (number : Nat)
  | behind (number : Nat)
  deriving DecidableEq

/-- Values for a site. -/
structure Patch (α : Type) where
  site : Site
  lines : List α

namespace Site

/-- The last number the site is attached to. -/
def last : Site → Nat
  | instead _ last => last
  | before number => number
  | behind number => number

/-- The first number the site is attached to. -/
def first : Site → Nat
  | instead first _ => first
  | before number => number
  | behind number => number

/-- The values in front of the site. -/
def start : Site → Nat
  | instead first _ => first - 1
  | before number => number - 1
  | behind number => number

/-- The values that are removed. -/
def count : Site → Nat
  | instead first last => last + 1 - first
  | _ => 0

/-- The number is removed. -/
def covers : Site → Nat → Bool
  | instead first last, number => first ≤ number && number ≤ last
  | _, _ => false

/-- The site lies in a list of the given size. -/
def Valid (size : Nat) : Site → Prop
  | instead first last => 1 ≤ first ∧ first ≤ last ∧ last ≤ size
  | before number => 1 ≤ number ∧ number ≤ size
  | behind number => 1 ≤ number ∧ number ≤ size

theorem first_le_last {site : Site} (valid : site.Valid size) :
    site.first ≤ site.last ∧ site.last ≤ size := by
  cases site with
  | instead first last => exact ⟨valid.2.1, valid.2.2⟩
  | before number | behind number => exact ⟨Nat.le_refl _, valid.2⟩

theorem start_add_count {site : Site} (valid : site.Valid size) :
    site.start + site.count ≤ site.last ∧
      (site.start = site.last ∨ site.start < site.last) := by
  cases site with
  | instead first last =>
    obtain ⟨positive, ordered, _⟩ := valid
    simp only [start, count, Site.last]
    omega
  | before number =>
    simp only [start, count, Site.last]
    omega
  | behind number => simp [start, count, Site.last]

theorem covers_iff {site : Site} (valid : site.Valid size) :
    site.covers number = true ↔
      site.start < number ∧ number ≤ site.start + site.count := by
  cases site with
  | instead first last =>
    obtain ⟨positive, ordered, _⟩ := valid
    simp only [covers, start, count, Bool.and_eq_true, decide_eq_true_eq]
    omega
  | before | behind =>
    simp only [covers, count, Bool.false_eq_true, false_iff]
    omega

end Site

namespace Patch

/-- Make one patch. -/
def apply (values : List α) (patch : Patch α) : List α :=
  splice values patch.site.start patch.site.count patch.lines

variable (number : Nat)

/-- The values the patch puts behind a number. -/
def linesBehind (patch : Patch α) : List α :=
  match patch.site with
  | .behind other => if other = number then patch.lines else []
  | _ => []

/-- The values the patch puts before a number. -/
def linesBefore (patch : Patch α) : List α :=
  match patch.site with
  | .before other => if other = number then patch.lines else []
  | _ => []

/-- The values the patch puts in place of a range that starts at a number. -/
def linesInstead (patch : Patch α) : List α :=
  match patch.site with
  | .instead first _ => if first = number then patch.lines else []
  | _ => []

end Patch

section

variable (patches : List (Patch α))

/-- What the patches put between a number and the next one. -/
def gapLines (number : Nat) : List α :=
  patches.flatMap (·.linesBehind number) ++ patches.flatMap (·.linesBefore (number + 1)) ++
    patches.flatMap (·.linesInstead (number + 1))

/-- Some patch removes the number. -/
def removed (number : Nat) : Bool :=
  patches.any fun patch => patch.site.covers number

/-- Make the patches at once, in the part of a list behind a number. -/
def weaveFrom (patches : List (Patch α)) (number : Nat) : List α → List α
  | [] => gapLines patches number
  | value :: rest =>
    gapLines patches number ++ (if removed patches (number + 1) then [] else [value]) ++
      weaveFrom patches (number + 1) rest

/-- Make the patches at once. -/
def weave (values : List α) : List α :=
  weaveFrom patches 0 values

end

section Distance

variable {patch : Patch α} {patches : List (Patch α)}

section

variable (valid : ∀ patch ∈ patches, patch.site.Valid size)
include valid

theorem gapLines_eq_nil (above : ∀ patch ∈ patches, number < patch.site.start) :
    gapLines patches number = [] := by
  simp only [gapLines, List.append_eq_nil_iff, List.flatMap_eq_nil_iff]
  refine ⟨⟨?_, ?_⟩, ?_⟩ <;> intro patch member <;> have far := above patch member <;>
    have inside := valid patch member <;> obtain ⟨site, lines⟩ := patch <;>
    cases site <;> simp only [Site.start] at far inside <;>
    simp only [Patch.linesBehind, Patch.linesBefore, Patch.linesInstead] <;>
    rw [if_neg (by omega)]

theorem removed_eq_false (above : ∀ patch ∈ patches, number ≤ patch.site.start) :
    removed patches number = false := by
  rw [removed, List.any_eq_false]
  intro patch member covered
  rw [Site.covers_iff (valid patch member)] at covered
  have far := above patch member
  omega

end

theorem gapLines_cons_of_ne (valid : patch.site.Valid size)
    (elsewhere : patch.site.start ≠ number) :
    gapLines (patch :: patches) number = gapLines patches number := by
  obtain ⟨site, lines⟩ := patch
  cases site <;> simp only [Site.start] at elsewhere valid <;>
    simp [gapLines, Patch.linesBehind, Patch.linesBefore, Patch.linesInstead] <;> omega

/-- A patch in front of the list has no part in it. -/
theorem weaveFrom_cons_of_passed (valid : patch.site.Valid size)
    (passed : patch.site.start < number) (ended : patch.site.start + patch.site.count ≤ number)
    (values : List α) :
    weaveFrom (patch :: patches) number values = weaveFrom patches number values := by
  induction values generalizing number with
  | nil => exact gapLines_cons_of_ne valid (by omega)
  | cons value rest ih =>
    have notCovered : patch.site.covers (number + 1) = false := by
      rw [Bool.eq_false_iff]
      intro covered
      rw [Site.covers_iff valid] at covered
      omega
    have sameRemoved : removed (patch :: patches) (number + 1) = removed patches (number + 1) := by
      simp [removed, notCovered]
    rw [weaveFrom, weaveFrom, gapLines_cons_of_ne valid (by omega), sameRemoved,
      ih (by omega) (by omega)]

/-- Values in front of all patches stay. -/
theorem weaveFrom_append_of_above (valid : ∀ patch ∈ patches, patch.site.Valid size)
    (values rest : List α) (above : ∀ patch ∈ patches, number + values.length ≤ patch.site.start) :
    weaveFrom patches number (values ++ rest) =
      values ++ weaveFrom patches (number + values.length) rest := by
  induction values generalizing number with
  | nil => rfl
  | cons value values ih =>
    simp only [List.length_cons] at above ⊢
    have noGap : gapLines patches number = [] :=
      gapLines_eq_nil valid fun patch member => by
        have far := above patch member
        omega
    have notRemoved : removed patches (number + 1) = false :=
      removed_eq_false valid fun patch member => by
        have far := above patch member
        omega
    rw [List.cons_append, weaveFrom, noGap, notRemoved, ih fun patch member => by
        have far := above patch member
        omega]
    rw [show number + 1 + values.length = number + (values.length + 1) by omega]
    rfl

variable (valid : patch.site.Valid size) (allValid : ∀ patch ∈ patches, patch.site.Valid size)
include valid allValid

/-- Inside the range a patch removes, nothing is left. -/
theorem weaveFrom_cons_of_removed
    (above : ∀ other ∈ patches, patch.site.start + patch.site.count ≤ other.site.start)
    (values rest : List α) (passed : patch.site.start < number)
    (ends : number + values.length = patch.site.start + patch.site.count) :
    weaveFrom (patch :: patches) number (values ++ rest) =
      weaveFrom patches (number + values.length) rest := by
  induction values generalizing number with
  | nil => exact weaveFrom_cons_of_passed valid passed (by simp at ends; omega) rest
  | cons value values ih =>
    simp only [List.length_cons] at ends ⊢
    have noGap : gapLines patches number = [] :=
      gapLines_eq_nil allValid fun patch member => by
        have far := above patch member
        omega
    have isRemoved : removed (patch :: patches) (number + 1) = true := by
      rw [removed, List.any_cons, (Site.covers_iff valid).mpr (by omega), Bool.true_or]
    rw [List.cons_append, weaveFrom, gapLines_cons_of_ne valid (by omega), noGap,
      isRemoved, ih (by omega) (by omega)]
    rw [show number + 1 + values.length = number + (values.length + 1) by omega]
    rfl

variable (above : ∀ other ∈ patches, patch.site.last ≤ other.site.start)
include above

theorem gapLines_cons_of_start (starts : patch.site.start = number) :
    gapLines (patch :: patches) number = patch.lines ++ gapLines patches number := by
  have noGap : number < patch.site.last → gapLines patches number = [] := by
    intro below
    apply gapLines_eq_nil allValid
    intro other member
    have far := above other member
    omega
  obtain ⟨site, lines⟩ := patch
  cases site with
  | behind other =>
    simp only [Site.start] at starts
    simp [gapLines, Patch.linesBehind, Patch.linesBefore, Patch.linesInstead, starts]
  | before first | instead first last =>
    simp only [Site.start, Site.last, Site.Valid] at starts noGap valid
    have none := noGap (by omega)
    rw [none]
    simp only [gapLines, List.append_eq_nil_iff] at none
    obtain ⟨⟨noneBehind, noneBefore⟩, noneInstead⟩ := none
    rw [gapLines, List.flatMap_cons, List.flatMap_cons, List.flatMap_cons, noneBehind,
      noneBefore, noneInstead]
    simp [Patch.linesBehind, Patch.linesBefore, Patch.linesInstead,
      show first = number + 1 by omega]

/-- At its own place a patch removes its range and puts its lines. -/
theorem weaveFrom_cons_of_start (values rest : List α) (starts : patch.site.start = number)
    (length : values.length = patch.site.count) :
    weaveFrom (patch :: patches) number (values ++ rest) =
      patch.lines ++ weaveFrom patches (number + values.length) rest := by
  have bounds := Site.start_add_count valid
  have farAbove : ∀ other ∈ patches, patch.site.start + patch.site.count ≤ other.site.start := by
    intro other member
    have far := above other member
    omega
  have gap := gapLines_cons_of_start valid allValid above starts
  cases values with
  | nil =>
    rw [List.length_nil] at length
    cases rest with
    | nil => exact gap
    | cons value rest =>
      have notCovered : patch.site.covers (number + 1) = false := by
        rw [Bool.eq_false_iff]
        intro covered
        rw [Site.covers_iff valid] at covered
        omega
      have sameRemoved : removed (patch :: patches) (number + 1) =
          removed patches (number + 1) := by
        simp [removed, notCovered]
      rw [List.nil_append, weaveFrom, gap, sameRemoved,
        weaveFrom_cons_of_passed valid (by omega) (by omega)]
      simp [weaveFrom]
  | cons value values =>
    rw [List.length_cons] at length
    have noGap : gapLines patches number = [] :=
      gapLines_eq_nil allValid fun other member => by
        have far := farAbove other member
        omega
    have isRemoved : removed (patch :: patches) (number + 1) = true := by
      rw [removed, List.any_cons, (Site.covers_iff valid).mpr (by omega), Bool.true_or]
    rw [List.cons_append, weaveFrom, gap, noGap, isRemoved,
      weaveFrom_cons_of_removed valid allValid farAbove values rest (by omega) (by omega), show number + 1 + values.length = number + (values.length + 1) by
        omega]
    simp

end Distance

/-- Patches without lines only remove. -/
theorem weaveFrom_of_empty (empty : ∀ patch ∈ patches, patch.lines = []) (rest : List α) :
    weaveFrom patches number rest = outside (removed patches) (number + 1) rest := by
  have noGap : ∀ number, gapLines patches number = [] := by
    intro number
    simp only [gapLines, List.append_eq_nil_iff, List.flatMap_eq_nil_iff]
    refine ⟨⟨?_, ?_⟩, ?_⟩ <;> intro patch member <;>
      simp only [Patch.linesBehind, Patch.linesBefore, Patch.linesInstead, empty patch member] <;>
      split <;> simp
  induction rest generalizing number with
  | nil => exact noGap number
  | cons value rest ih =>
    rw [weaveFrom, noGap, ih]
    rfl

/-- The first `low` values are the original ones, and the patches are made in
the rest. -/
structure Woven (values : List α) (patches : List (Patch α)) (low : Nat)
    (lines : List α) : Prop where
  within : low ≤ values.length
  valid : ∀ patch ∈ patches, patch.site.Valid values.length
  above : ∀ patch ∈ patches, low ≤ patch.site.start
  lines_eq : lines = values.take low ++ weaveFrom patches low (values.drop low)
  perm : (weaveFrom patches low (values.drop low)).Perm
    (outside (removed patches) (low + 1) (values.drop low) ++ patches.flatMap (·.lines))

namespace Woven

variable {patches : List (Patch α)}

theorem initial (values : List α) : Woven values [] values.length values where
  within := Nat.le_refl _
  valid := by simp
  above := by simp
  lines_eq := by simp [weaveFrom, gapLines]
  perm := by simp [weaveFrom, gapLines, outside, flatMapFrom]

section Step

variable {patch : Patch α}

/-- The parts of the list that a further patch removes and keeps. -/
theorem drop_start_eq (woven : Woven values patches low lines)
    (valid : patch.site.Valid values.length) (below : patch.site.last ≤ low) :
    ∃ range between, values.drop patch.site.start = range ++ (between ++ values.drop low) ∧
      range.length = patch.site.count ∧
      patch.site.start + patch.site.count + between.length = low ∧
      lines.drop (patch.site.start + patch.site.count) =
        between ++ weaveFrom patches low (values.drop low) := by
  have bounds := Site.start_add_count valid
  have within := woven.within
  refine ⟨(values.take (patch.site.start + patch.site.count)).drop patch.site.start,
    (values.take low).drop (patch.site.start + patch.site.count), ?_, ?_, ?_, ?_⟩
  · rw [← drop_eq_append_drop (by omega), ← drop_eq_append_drop (Nat.le_add_right _ _)]
  · simp only [List.length_drop, List.length_take]
    omega
  · simp only [List.length_drop, List.length_take]
    omega
  · rw [woven.lines_eq, List.drop_append_of_le_length]
    simp only [List.length_take]
    omega

theorem step (woven : Woven values patches low lines) (valid : patch.site.Valid values.length)
    (below : patch.site.last ≤ low) :
    Woven values (patch :: patches) patch.site.start (patch.apply lines) := by
  have bounds := Site.start_add_count valid
  have within := woven.within
  have above : ∀ other ∈ patches, patch.site.last ≤ other.site.start := fun other member =>
    Nat.le_trans below (woven.above other member)
  obtain ⟨range, between, parts, rangeLength, ends, rest⟩ := woven.drop_start_eq valid below
  have wovenRest : weaveFrom (patch :: patches) patch.site.start (values.drop patch.site.start) =
        patch.lines ++ (between ++ weaveFrom patches low (values.drop low)) := by
    rw [parts, weaveFrom_cons_of_start valid woven.valid above range _ rfl rangeLength,
      rangeLength, weaveFrom_append_of_above woven.valid, ends]
    intro other member
    rw [ends]
    exact woven.above other member
  have left : outside (removed (patch :: patches)) (patch.site.start + 1)
      (values.drop patch.site.start) =
        between ++ outside (removed patches) (low + 1) (values.drop low) := by
    rw [parts, outside_append, outside_append, rangeLength,
      show patch.site.start + 1 + patch.site.count + between.length = low + 1 by omega]
    have noRange : outside (removed (patch :: patches)) (patch.site.start + 1) range = [] := by
      apply outside_of_marked
      intro number lower upper
      rw [removed, List.any_cons, (Site.covers_iff valid).mpr (by omega), Bool.true_or]
    have notCovered : ∀ number, patch.site.start + patch.site.count < number →
        removed (patch :: patches) number = removed patches number := by
      intro number beyond
      have notInside : patch.site.covers number = false := by
        rw [Bool.eq_false_iff]
        intro covered
        rw [Site.covers_iff valid] at covered
        omega
      simp [removed, notInside]
    have allBetween : outside (removed (patch :: patches))
        (patch.site.start + 1 + patch.site.count) between = between := by
      apply outside_of_unmarked
      intro number lower upper
      rw [notCovered number (by omega)]
      apply removed_eq_false woven.valid
      intro other member
      have far := woven.above other member
      omega
    rw [noRange, List.nil_append]
    congr 1
    apply outside_congr
    intro number lower upper
    exact notCovered number (by omega)
  refine ⟨by omega, ?_, ?_, ?_, ?_⟩
  · exact List.forall_mem_cons.mpr ⟨valid, woven.valid⟩
  · exact List.forall_mem_cons.mpr ⟨Nat.le_refl _, fun other member => by
      have far := above other member
      omega⟩
  · rw [wovenRest, Patch.apply, splice, rest, woven.lines_eq]
    rw [List.take_append_of_le_length (by simp; omega), List.take_take,
      Nat.min_eq_left (by omega), List.append_assoc]
  · rw [wovenRest, left]
    refine ((woven.perm.append_left between).append_left patch.lines).trans ?_
    rw [← List.append_assoc between]
    exact List.perm_append_comm_assoc _ _ _

end Step

theorem eq_weave (woven : Woven values patches low lines) : lines = weave patches values := by
  have length : (values.take low).length = low := by
    simp [woven.within]
  have split : weaveFrom patches 0 (values.take low ++ values.drop low) =
      values.take low ++ weaveFrom patches (0 + (values.take low).length) (values.drop low) := by
    apply weaveFrom_append_of_above woven.valid
    simpa [length] using woven.above
  rw [List.take_append_drop, length, Nat.zero_add, ← woven.lines_eq] at split
  exact split.symm

theorem take_eq (woven : Woven values patches low lines) : lines.take low = values.take low := by
  have within := woven.within
  rw [woven.lines_eq, List.take_append_of_le_length (by simp; omega), List.take_take, Nat.min_self]

theorem getElem?_eq (woven : Woven values patches low lines) (below : index < low) :
    lines[index]? = values[index]? := by
  have within := woven.within
  rw [woven.lines_eq, List.getElem?_append_left (by simp; omega), List.getElem?_take_of_lt below]

/-- While the patches have no lines, what is left is what they do not
remove. -/
theorem drop_eq_outside (woven : Woven values patches low lines)
    (empty : ∀ patch ∈ patches, patch.lines = []) (below : start ≤ low) :
    lines.drop start = outside (removed patches) (start + 1) (values.drop start) := by
  have within := woven.within
  have between : outside (removed patches) (start + 1) ((values.take low).drop start) =
      (values.take low).drop start := by
    apply outside_of_unmarked
    intro number lower upper
    apply removed_eq_false woven.valid
    intro patch member
    have far := woven.above patch member
    simp only [List.length_drop, List.length_take] at upper
    omega
  rw [outside_drop (removed patches) below within, between,
    ← weaveFrom_of_empty empty, woven.lines_eq, List.drop_append_of_le_length]
  simp only [List.length_take]
  omega

/-- The lines of a woven list are those that are not removed and those of the
patches. -/
theorem perm_weave (woven : Woven values patches low lines) :
    lines.Perm (outside (removed patches) 1 values ++ patches.flatMap (·.lines)) := by
  have front : outside (removed patches) 1 (values.take low) = values.take low := by
    apply outside_of_unmarked
    intro number lower upper
    apply removed_eq_false woven.valid
    intro patch member
    have far := woven.above patch member
    simp only [List.length_take] at upper
    omega
  have parts := outside_drop (removed patches) (Nat.zero_le low) woven.within
  rw [List.drop_zero, List.drop_zero, front] at parts
  rw [parts, List.append_assoc, woven.lines_eq]
  exact woven.perm.append_left _

/-- The next original value is still there when no patch starts in front of
it. -/
theorem getElem?_low (woven : Woven values patches low lines)
    (farther : ∀ patch ∈ patches, low < patch.site.start) : lines[low]? = values[low]? := by
  have noGap := gapLines_eq_nil woven.valid farther
  have within := woven.within
  have length : (values.take low).length = low := by simp [within]
  rw [woven.lines_eq, List.getElem?_append_right (by omega), length, Nat.sub_self,
    ← List.head?_eq_getElem?, ← List.head?_drop]
  cases values.drop low with
  | nil => simp [weaveFrom, noGap]
  | cons value rest =>
    have notRemoved : removed patches (low + 1) = false := by
      apply removed_eq_false woven.valid
      exact farther
    simp [weaveFrom, noGap, notRemoved]

end Woven

/-- Lists of which at most one is not empty may be joined in any order. -/
theorem flatMap_eq_of_perm {left : List β} (perm : left.Perm right)
    (exclusive : left.Pairwise fun one other => emit one = [] ∨ emit other = []) :
    left.flatMap emit = right.flatMap emit := by
  induction perm with
  | nil => rfl
  | cons value _ ih =>
    rw [List.flatMap_cons, List.flatMap_cons, ih (List.pairwise_cons.mp exclusive).2]
  | swap one other rest =>
    have either := (List.pairwise_cons.mp exclusive).1 one List.mem_cons_self
    rcases either with isNil | isNil <;> simp [isNil]
  | trans first _ firstHypothesis secondHypothesis =>
    rw [firstHypothesis exclusive]
    exact secondHypothesis ((first.pairwise_iff fun either => either.symm).mp exclusive)

namespace Patch

variable {patch : Patch α}

theorem first_of_linesBehind (some : patch.linesBehind number ≠ []) :
    patch.site.first = number := by
  obtain ⟨site, lines⟩ := patch
  cases site <;> simp_all [linesBehind, Site.first]

theorem first_of_linesBefore (some : patch.linesBefore number ≠ []) :
    patch.site.first = number := by
  obtain ⟨site, lines⟩ := patch
  cases site <;> simp_all [linesBefore, Site.first]

theorem first_of_linesInstead (some : patch.linesInstead number ≠ []) :
    patch.site.first = number := by
  obtain ⟨site, lines⟩ := patch
  cases site <;> simp_all [linesInstead, Site.first]

end Patch

/-- Two patches at different places. -/
def Patch.Apart (left right : Patch α) : Prop :=
  left.site.last < right.site.first ∨ right.site.last < left.site.first

theorem weave_eq_of_perm (perm : patches.Perm other)
    (ordered : ∀ patch ∈ patches, patch.site.first ≤ patch.site.last)
    (apart : patches.Pairwise Patch.Apart) (values : List α) :
    weave patches values = weave other values := by
  have exclusive : ∀ emit : Patch α → List α, (∀ left right, emit left ≠ [] → emit right ≠ [] →
        left.site.first = right.site.first) →
      patches.flatMap emit = other.flatMap emit := by
    intro emit samePlace
    apply flatMap_eq_of_perm perm
    refine apart.imp_of_mem ?_
    intro left right isLeft isRight away
    by_contra both
    rw [not_or] at both
    have same := samePlace left right both.1 both.2
    have leftOrdered := ordered left isLeft
    have rightOrdered := ordered right isRight
    rcases away with away | away <;> omega
  have gaps : ∀ number, gapLines patches number = gapLines other number := by
    intro number
    rw [gapLines, gapLines, exclusive (·.linesBehind number),
      exclusive (·.linesBefore (number + 1)), exclusive (·.linesInstead (number + 1))]
    · exact fun left right isLeft isRight =>
        (Patch.first_of_linesInstead isLeft).trans (Patch.first_of_linesInstead isRight).symm
    · exact fun left right isLeft isRight =>
        (Patch.first_of_linesBefore isLeft).trans (Patch.first_of_linesBefore isRight).symm
    · exact fun left right isLeft isRight =>
        (Patch.first_of_linesBehind isLeft).trans (Patch.first_of_linesBehind isRight).symm
  have removedEq : ∀ number, removed patches number = removed other number := by
    intro number
    exact perm.any_eq
  have weaves : ∀ number, weaveFrom patches number values = weaveFrom other number values := by
    induction values with
    | nil => exact gaps
    | cons value rest ih =>
      intro number
      rw [weaveFrom, weaveFrom, gaps, removedEq, ih]
  exact weaves 0

end OpenAgent.Library
