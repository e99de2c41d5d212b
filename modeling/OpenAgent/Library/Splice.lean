import Mathlib.Data.List.Perm.Basic

/-!
# Editing a list from its end

Values are numbered from one.  A list that is edited at falling positions
keeps a prefix of the original, so that original numbers stay valid for the
edits that are still to come.  Two consequences are stated here: values that
no edit removes survive in order, and separate edits applied one after the
other weave into the list as if applied at once.
-/

namespace OpenAgent.Library

variable {α : Type}

/-- Remove `count` values behind the first `start` ones and insert others. -/
def splice (values : List α) (start count : Nat) (inserted : List α) : List α :=
  values.take start ++ inserted ++ values.drop (start + count)

/-- Replace every value by a list that may depend on its number. -/
def flatMapFrom (emit : Nat → α → List α) (number : Nat) : List α → List α
  | [] => []
  | value :: rest => emit number value ++ flatMapFrom emit (number + 1) rest

theorem flatMapFrom_append (emit : Nat → α → List α) :
    flatMapFrom emit number (left ++ right) =
      flatMapFrom emit number left ++ flatMapFrom emit (number + left.length) right := by
  induction left generalizing number with
  | nil => rfl
  | cons value left ih =>
    simp only [List.cons_append, flatMapFrom, ih, List.append_assoc, List.length_cons]
    rw [show number + 1 + left.length = number + (left.length + 1) by omega]

theorem flatMapFrom_congr {values : List α}
    (agree : ∀ position value, number ≤ position → position < number + values.length →
      emit position value = other position value) :
    flatMapFrom emit number values = flatMapFrom other number values := by
  induction values generalizing number with
  | nil => rfl
  | cons value rest ih =>
    rw [flatMapFrom, agree number value (by omega) (by simp)]
    congr 1
    apply ih
    intro position value above below
    exact agree position value (by omega) (by rw [List.length_cons]; omega)

theorem flatMapFrom_keep (number : Nat) (values : List α) :
    flatMapFrom (fun _ value => [value]) number values = values := by
  induction values generalizing number with
  | nil => rfl
  | cons value rest ih => simp [flatMapFrom, ih]

theorem flatMapFrom_drop : flatMapFrom (fun _ _ => []) number values = [] := by
  induction values generalizing number with
  | nil => rfl
  | cons value rest ih => simp [flatMapFrom, ih]

theorem flatMapFrom_sublist
    (each : ∀ position value, (emit position value).Sublist (other position value)) (number : Nat)
    (values : List α) :
    (flatMapFrom emit number values).Sublist (flatMapFrom other number values) := by
  induction values generalizing number with
  | nil => exact List.Sublist.refl _
  | cons value rest ih => exact (each number value).append (ih (number + 1))

/-- The values whose numbers are not marked. -/
def outside (marked : Nat → Bool) : Nat → List α → List α :=
  flatMapFrom fun number value => if marked number then [] else [value]

theorem outside_append (marked : Nat → Bool) :
    outside marked number (left ++ right) =
      outside marked number left ++ outside marked (number + left.length) right :=
  flatMapFrom_append _

theorem outside_of_marked {values : List α}
    (all : ∀ position, number ≤ position → position < number + values.length →
      marked position = true) :
    outside marked number values = [] := by
  rw [← flatMapFrom_drop]
  apply flatMapFrom_congr
  intro position value above below
  rw [if_pos (all position above below)]

theorem outside_of_unmarked {values : List α}
    (none : ∀ position, number ≤ position → position < number + values.length →
      marked position = false) :
    outside marked number values = values := by
  conv_rhs => rw [← flatMapFrom_keep number values]
  apply flatMapFrom_congr
  intro position value above below
  simp [none position above below]

theorem outside_congr {values : List α}
    (agree : ∀ position, number ≤ position → position < number + values.length →
      marked position = other position) :
    outside marked number values = outside other number values := by
  apply flatMapFrom_congr
  intro position value above below
  rw [agree position above below]

/-- Marking more numbers leaves fewer values. -/
theorem outside_anti (more : ∀ number, marked number = true → other number = true) : (outside other number values).Sublist (outside marked number values) := by
  apply flatMapFrom_sublist
  intro position value
  cases isMarked : marked position with
  | false =>
    split
    · exact List.nil_sublist _
    · exact List.Sublist.refl _
  | true => simp [more position isMarked]

theorem outside_sublist (marked : Nat → Bool) (number : Nat) (values : List α) :
    (outside marked number values).Sublist values := by
  have everything : outside (fun _ => false) number values = values :=
    outside_of_unmarked fun _ _ _ => rfl
  conv_rhs => rw [← everything]
  exact outside_anti (by simp)

/-- The list cut behind its first `start` and its first `stop` values. -/
theorem drop_eq_append_drop {values : List α} (ordered : start ≤ stop) :
    values.drop start = (values.take stop).drop start ++ values.drop stop := by
  conv_lhs => rw [← List.take_append_drop stop values]
  by_cases short : values.length < start
  · rw [List.drop_eq_nil_of_le (by simp; omega), List.drop_eq_nil_of_le (by simp; omega),
      List.drop_eq_nil_of_le (by omega), List.append_nil]
  · exact List.drop_append_of_le_length (by simp; omega)

theorem outside_drop (marked : Nat → Bool) {values : List α} (ordered : start ≤ stop)
    (within : stop ≤ values.length) :
    outside marked (start + 1) (values.drop start) =
      outside marked (start + 1) ((values.take stop).drop start) ++
        outside marked (stop + 1) (values.drop stop) := by
  rw [drop_eq_append_drop ordered, outside_append]
  have length : ((values.take stop).drop start).length = stop - start := by
    simp [within]
  rw [length, show start + 1 + (stop - start) = stop + 1 by omega]

/-- The first `low` values are the original ones, and behind them the unmarked
values survive among at least `surplus` others. -/
structure Survives (values : List α) (marked : Nat → Bool) (low surplus : Nat)
    (lines : List α) : Prop where
  within : low ≤ values.length
  kept : lines.take low = values.take low
  sublist : (outside marked (low + 1) (values.drop low)).Sublist (lines.drop low)
  length : (outside marked (low + 1) (values.drop low)).length + surplus ≤
    (lines.drop low).length

namespace Survives

variable {values lines : List α}

theorem initial (values : List α) (marked : Nat → Bool) :
    Survives values marked values.length 0 values where
  within := Nat.le_refl _
  kept := rfl
  sublist := by simp [outside, flatMapFrom]
  length := by simp [outside, flatMapFrom]

theorem low_le (survives : Survives values marked low surplus lines) : low ≤ lines.length := by
  have lengths := congrArg List.length survives.kept
  have within := survives.within
  simp only [List.length_take] at lengths
  omega

variable (survives : Survives values marked low surplus lines)
include survives

theorem lower (below : start ≤ low) : Survives values marked start surplus lines := by
  have split : lines.drop start = (values.take low).drop start ++ lines.drop low := by
    rw [← survives.kept]
    exact drop_eq_append_drop below
  have between := outside_sublist marked (start + 1) ((values.take low).drop start)
  refine ⟨Nat.le_trans below survives.within, ?_, ?_, ?_⟩
  · have takes := congrArg (List.take start) survives.kept
    rwa [List.take_take, List.take_take, Nat.min_eq_left below] at takes
  · rw [outside_drop marked below survives.within, split]
    exact between.append survives.sublist
  · have shorter := between.length_le
    have length := survives.length
    rw [outside_drop marked below survives.within, split]
    simp only [List.length_append]
    omega

/-- Marked values in the original part may be replaced. -/
theorem replace (inserted : List α) (below : start + count ≤ low)
    (isMarked : ∀ number, start < number → number ≤ start + count → marked number = true) :
    Survives values marked start (surplus + inserted.length)
      (splice lines start count inserted) := by
  have lowered := survives.lower below
  have startLe : start ≤ lines.length := by
    have := survives.low_le
    omega
  have removed : outside marked (start + 1) (values.drop start) =
      outside marked (start + count + 1) (values.drop (start + count)) := by
    rw [outside_drop marked (Nat.le_add_right start count) lowered.within,
      outside_of_marked, List.nil_append]
    intro number above within
    refine isMarked number (by omega) ?_
    simp only [List.length_drop, List.length_take] at within
    omega
  have tail : (splice lines start count inserted).drop start =
      inserted ++ lines.drop (start + count) := by
    rw [splice, List.append_assoc, List.drop_append_of_le_length (by simp; omega)]
    simp
  refine ⟨Nat.le_trans (Nat.le_add_right start count) lowered.within, ?_, ?_, ?_⟩
  · rw [splice, List.append_assoc, List.take_append_of_le_length (by simp; omega),
      List.take_take, Nat.min_self]
    exact (survives.lower (Nat.le_trans (Nat.le_add_right start count) below)).kept
  · rw [removed, tail]
    exact lowered.sublist.trans (List.sublist_append_right _ _)
  · have length := lowered.length
    rw [removed, tail, List.length_append]
    omega

/-- Values may be inserted anywhere. -/
theorem insert (start : Nat) (inserted : List α) :
    Survives values marked (min low start) (surplus + inserted.length)
      (splice lines start 0 inserted) := by
  have lowered := survives.lower (Nat.min_le_left low start)
  have lowLe := survives.low_le
  have head : min low start ≤ (lines.take start).length := by
    simp only [List.length_take]
    omega
  have tail : (splice lines start 0 inserted).drop (min low start) =
      (lines.take start).drop (min low start) ++ (inserted ++ lines.drop start) := by
    rw [splice, List.append_assoc, List.drop_append_of_le_length head, Nat.add_zero]
  have before : lines.drop (min low start) =
      (lines.take start).drop (min low start) ++ lines.drop start :=
    drop_eq_append_drop (Nat.min_le_right low start)
  refine ⟨lowered.within, ?_, ?_, ?_⟩
  · rw [splice, List.append_assoc, List.take_append_of_le_length head, List.take_take,
      Nat.min_eq_left (Nat.min_le_right low start)]
    exact lowered.kept
  · rw [tail]
    refine lowered.sublist.trans ?_
    rw [before]
    exact (List.Sublist.refl _).append (List.sublist_append_right _ _)
  · have length := lowered.length
    rw [before] at length
    rw [tail]
    simp only [List.length_append] at length ⊢
    omega

end Survives

end OpenAgent.Library
