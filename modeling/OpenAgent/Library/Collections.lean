import Mathlib.Data.List.Dedup
import Mathlib.Data.List.Lex
import Mathlib.Data.List.Sort

/-!
# Insertion-ordered sets, stable sorting and code-unit order

Three conventions of the source language that programs rely on: a set iterates
its members in the order of their first insertion, sorting is stable, and
strings compare by their UTF-16 code units.
-/

namespace OpenAgent.Library

/-- Add a member to an insertion-ordered set. -/
def setInsert [DecidableEq α] (members : List α) (value : α) : List α :=
  if value ∈ members then members else members ++ [value]

/-- The insertion-ordered set of the values of a list. -/
def setOf [DecidableEq α] (values : List α) : List α :=
  values.foldl setInsert []

@[simp] theorem mem_setInsert [DecidableEq α] {other : α} :
    other ∈ setInsert members value ↔ other ∈ members ∨ other = value := by
  unfold setInsert
  by_cases present : value ∈ members
  · rw [if_pos present]
    constructor
    · exact Or.inl
    · rintro (member | equal)
      · exact member
      · exact equal ▸ present
  · simp [if_neg present]

theorem nodup_append_singleton (nodup : members.Nodup) (absent : value ∉ members) :
    (members ++ [value]).Nodup :=
  nodup.append (List.nodup_singleton value) (List.disjoint_singleton.mpr absent)

theorem nodup_setInsert [DecidableEq α] (nodup : members.Nodup) (value : α) :
    (setInsert members value).Nodup := by
  unfold setInsert
  by_cases present : value ∈ members
  · simpa [if_pos present] using nodup
  · rw [if_neg present]
    exact nodup_append_singleton nodup present

theorem mem_foldl_setInsert [DecidableEq α] (values : List α) :
    value ∈ values.foldl setInsert members ↔ value ∈ members ∨ value ∈ values := by
  induction values generalizing members with
  | nil => simp
  | cons head tail ih => rw [List.foldl_cons, ih, mem_setInsert, List.mem_cons, or_assoc]

@[simp] theorem mem_setOf [DecidableEq α] {value : α} : value ∈ setOf values ↔ value ∈ values := by
  simp [setOf, mem_foldl_setInsert]

theorem nodup_foldl_setInsert [DecidableEq α] (values : List α) (nodup : members.Nodup) :
    (values.foldl setInsert members).Nodup := by
  induction values generalizing members with
  | nil => exact nodup
  | cons head tail ih => exact ih (nodup_setInsert nodup head)

theorem nodup_setOf [DecidableEq α] (values : List α) : (setOf values).Nodup :=
  nodup_foldl_setInsert values List.nodup_nil

/-- Set the value of a key in an insertion-ordered map. -/
def mapSet [DecidableEq κ] (entries : List (κ × ν)) (key : κ) (value : ν) : List (κ × ν) :=
  if key ∈ entries.map Prod.fst then
    entries.map fun entry => if entry.1 = key then (key, value) else entry
  else entries ++ [(key, value)]

/-- The value of a key in an insertion-ordered map. -/
def mapGet [DecidableEq κ] (entries : List (κ × ν)) (key : κ) : Option ν :=
  (entries.find? fun entry => entry.1 = key).map Prod.snd

/-- Delete a key of an insertion-ordered map. -/
def mapDelete [DecidableEq κ] (entries : List (κ × ν)) (key : κ) : List (κ × ν) :=
  entries.filter fun entry => entry.1 ≠ key

@[simp] theorem mem_keys_mapSet [DecidableEq κ] {entries : List (κ × ν)} :
    other ∈ (mapSet entries key value).map Prod.fst ↔
      other ∈ entries.map Prod.fst ∨ other = key := by
  unfold mapSet
  by_cases present : key ∈ entries.map Prod.fst
  · have sameKeys :
        (entries.map fun entry => if entry.1 = key then (key, value) else entry).map Prod.fst =
          entries.map Prod.fst := by
      rw [List.map_map]
      apply List.map_congr_left
      intro entry _
      by_cases equal : entry.1 = key <;> simp [equal]
    rw [if_pos present, sameKeys]
    constructor
    · exact Or.inl
    · rintro (member | equal)
      · exact member
      · exact equal ▸ present
  · rw [if_neg present]
    simp

theorem keys_mapSet [DecidableEq κ] (entries : List (κ × ν)) (key : κ) (value : ν) :
    (mapSet entries key value).map Prod.fst = setInsert (entries.map Prod.fst) key := by
  unfold mapSet setInsert
  by_cases present : key ∈ entries.map Prod.fst
  · rw [if_pos present, if_pos present, List.map_map]
    apply List.map_congr_left
    intro entry _
    by_cases equal : entry.1 = key <;> simp [equal]
  · rw [if_neg present, if_neg present, List.map_append]
    rfl

theorem eq_or_mem_of_mem_mapSet [DecidableEq κ] {entries : List (κ × ν)}
    (member : entry ∈ mapSet entries key value) : entry = (key, value) ∨ entry ∈ entries := by
  unfold mapSet at member
  split at member
  next =>
    obtain ⟨old, isOld, rfl⟩ := List.mem_map.mp member
    by_cases equal : old.1 = key
    · exact Or.inl (if_pos equal)
    · rw [if_neg equal]
      exact Or.inr isOld
  next =>
    rcases List.mem_append.mp member with isOld | isNew
    · exact Or.inr isOld
    · exact Or.inl (List.mem_singleton.mp isNew)

/-- Reading a map behind a write. -/
theorem mapGet_mapSet [DecidableEq κ] (entries : List (κ × ν)) (key other : κ) (value : ν) :
    mapGet (mapSet entries key value) other =
      if other = key then some value else mapGet entries other := by
  unfold mapGet mapSet
  by_cases present : key ∈ entries.map Prod.fst
  · have sameTest : ((fun entry : κ × ν => decide (entry.1 = other)) ∘
        fun entry => if entry.1 = key then (key, value) else entry) =
        fun entry => decide (entry.1 = other) := by
      funext entry
      by_cases equal : entry.1 = key <;> simp [equal]
    rw [if_pos present, List.find?_map, sameTest]
    by_cases same : other = key
    · obtain ⟨entry, isEntry, isKey⟩ := List.mem_map.mp present
      have found : (entries.find? fun entry => decide (entry.1 = other)).isSome := by
        rw [List.find?_isSome]
        exact ⟨entry, isEntry, by simp [isKey, same]⟩
      obtain ⟨first, isFirst⟩ := Option.isSome_iff_exists.mp found
      have hasKey : first.1 = other := by simpa using List.find?_some isFirst
      rw [isFirst, if_pos same, Option.map_some, Option.map_some, if_pos (hasKey.trans same)]
    · rw [if_neg same]
      cases found : entries.find? fun entry => decide (entry.1 = other) with
      | none => rfl
      | some first =>
        have hasKey : first.1 = other := by simpa using List.find?_some found
        simp [hasKey, same]
  · rw [if_neg present, List.find?_append]
    by_cases same : other = key
    · have absent : (entries.find? fun entry => decide (entry.1 = other)) = none := by
        rw [List.find?_eq_none]
        intro entry member equal
        exact present (List.mem_map.mpr ⟨entry, member, by simpa [same] using equal⟩)
      rw [absent]
      simp [same]
    · have differs : ¬ key = other := fun equal => same equal.symm
      simp [differs, same]

@[simp] theorem mem_keys_mapDelete [DecidableEq κ] {other : κ} :
    other ∈ (mapDelete entries key).map Prod.fst ↔ other ∈ entries.map Prod.fst ∧ other ≠ key := by
  constructor
  · intro member
    obtain ⟨entry, kept, rfl⟩ := List.mem_map.mp member
    obtain ⟨present, differs⟩ := List.mem_filter.mp kept
    exact ⟨List.mem_map_of_mem present, of_decide_eq_true differs⟩
  · rintro ⟨member, differs⟩
    obtain ⟨entry, present, rfl⟩ := List.mem_map.mp member
    exact List.mem_map_of_mem (List.mem_filter.mpr ⟨present, decide_eq_true differs⟩)

theorem nodup_keys_mapSet [DecidableEq κ] (unique : (entries.map Prod.fst).Nodup) (key : κ)
    (value : ν) : ((mapSet entries key value).map Prod.fst).Nodup := by
  rw [keys_mapSet]
  exact nodup_setInsert unique key

theorem nodup_keys_mapDelete [DecidableEq κ] (unique : (entries.map Prod.fst).Nodup) (key : κ) :
    ((mapDelete entries key).map Prod.fst).Nodup :=
  unique.sublist (List.filter_sublist.map Prod.fst)

theorem mem_of_mapGet [DecidableEq κ] {entries : List (κ × ν)}
    (present : mapGet entries key = some value) : (key, value) ∈ entries := by
  obtain ⟨entry, found, rfl⟩ := Option.map_eq_some_iff.mp present
  have isKey : entry.1 = key := by simpa using List.find?_some found
  have member := List.mem_of_find?_eq_some found
  rwa [← isKey]

theorem mapGet_eq_none_iff [DecidableEq κ] {key : κ} :
    mapGet entries key = none ↔ key ∉ entries.map Prod.fst := by
  rw [mapGet, Option.map_eq_none_iff, List.find?_eq_none]
  constructor
  · intro none isKey
    obtain ⟨entry, member, equal⟩ := List.mem_map.mp isKey
    exact none entry member (decide_eq_true equal)
  · intro absent entry member equal
    exact absent (of_decide_eq_true equal ▸ List.mem_map_of_mem member)

theorem mapGet_of_mem [DecidableEq κ] {entries : List (κ × ν)}
    (unique : (entries.map Prod.fst).Nodup) (member : (key, value) ∈ entries) :
    mapGet entries key = some value := by
  cases found : mapGet entries key with
  | none => exact absurd (List.mem_map_of_mem member) (mapGet_eq_none_iff.mp found)
  | some other =>
    have same := List.inj_on_of_nodup_map unique (mem_of_mapGet found) member rfl
    rw [(Prod.mk.inj same).2]

/-- Reading a map that was cut down to some keys. -/
theorem mapGet_filter [DecidableEq κ] (entries : List (κ × ν)) (keep : κ → Bool) (key : κ) :
    mapGet (entries.filter fun entry => keep entry.1) key =
      if keep key then mapGet entries key else none := by
  unfold mapGet
  rw [List.find?_filter]
  by_cases kept : keep key = true
  · rw [if_pos kept]
    congr 2
    funext entry
    by_cases isKey : entry.1 = key <;> simp [isKey, kept]
  · rw [if_neg kept, Option.map_eq_none_iff, List.find?_eq_none]
    intro entry _
    by_cases isKey : entry.1 = key <;> simp [isKey, kept]

theorem mapGet_mapDelete [DecidableEq κ] (entries : List (κ × ν)) (key other : κ) :
    mapGet (mapDelete entries key) other =
      if other = key then none else mapGet entries other := by
  rw [mapDelete, mapGet_filter entries (fun present => decide (present ≠ key)) other]
  by_cases same : other = key <;> simp

theorem forall_mem_concat {property : ν → Prop} (old : ∀ value ∈ values, property value)
    (new : property last) : ∀ value ∈ values ++ [last], property value :=
  List.forall_mem_append.mpr ⟨old, List.forall_mem_singleton.mpr new⟩

theorem mapGet_of_mapDelete [DecidableEq κ] {entries : List (κ × ν)}
    (found : mapGet (mapDelete entries key) other = some value) :
    mapGet entries other = some value := by
  rw [mapGet_mapDelete] at found
  exact (Option.ite_none_left_eq_some.mp found).2

theorem mapDelete_of_mapGet_eq_none [DecidableEq κ] {key : κ} (absent : mapGet entries key = none) :
    mapDelete entries key = entries := by
  apply List.filter_eq_self.mpr
  intro entry member
  apply decide_eq_true
  rintro rfl
  exact mapGet_eq_none_iff.mp absent (List.mem_map_of_mem member)

/-- A map with unique keys, up to its order, from the entry of a key and the rest. -/
theorem perm_cons_mapDelete [DecidableEq κ] {entries : List (κ × ν)}
    (unique : (entries.map Prod.fst).Nodup) (member : (key, value) ∈ entries) :
    entries.Perm ((key, value) :: mapDelete entries key) := by
  obtain ⟨front, rest, rfl⟩ := List.append_of_mem member
  rw [List.map_append] at unique
  obtain ⟨-, restUnique, apart⟩ := List.nodup_append.mp unique
  have keepsFront : mapDelete front key = front := by
    apply List.filter_eq_self.mpr
    intro entry isEntry
    exact decide_eq_true (apart entry.1 (List.mem_map_of_mem isEntry) key List.mem_cons_self)
  have keepsRest : mapDelete rest key = rest := by
    apply List.filter_eq_self.mpr
    intro entry isEntry
    apply decide_eq_true
    intro isKey
    exact (List.nodup_cons.mp restUnique).1 (List.mem_map.mpr ⟨entry, isEntry, isKey⟩)
  have split : mapDelete (front ++ (key, value) :: rest) key = front ++ rest := by
    rw [mapDelete, List.filter_append, List.filter_cons_of_neg (by simp)]
    exact congrArg₂ (· ++ ·) keepsFront keepsRest
  rw [split]
  exact List.perm_middle

theorem mapDelete_mapSet [DecidableEq κ] (key : κ) (value : ν) :
    mapDelete (mapSet entries key value) key = mapDelete entries key := by
  unfold mapSet mapDelete
  split
  · rw [List.filter_map]
    have sameTest : ((fun entry : κ × ν => decide (entry.1 ≠ key)) ∘
        fun entry => if entry.1 = key then (key, value) else entry) =
        fun entry => decide (entry.1 ≠ key) := by
      funext entry
      by_cases equal : entry.1 = key <;> simp [equal]
    rw [sameTest]
    have unchanged : ∀ entry ∈ entries.filter fun entry => decide (entry.1 ≠ key),
        (if entry.1 = key then (key, value) else entry) = entry := by
      intro entry member
      exact if_neg (of_decide_eq_true (List.mem_filter.mp member).2)
    exact (List.map_congr_left unchanged).trans (List.map_id' _)
  · simp

theorem perm_mapSet [DecidableEq κ] (unique : (entries.map Prod.fst).Nodup) (key : κ) (value : ν) :
    (mapSet entries key value).Perm ((key, value) :: mapDelete entries key) := by
  rw [← mapDelete_mapSet key value]
  apply perm_cons_mapDelete (nodup_keys_mapSet unique key value)
  apply mem_of_mapGet
  rw [mapGet_mapSet, if_pos rfl]

/-- The stable sort by a comparison. -/
def stableSort (le : α → α → Bool) (values : List α) : List α :=
  values.insertionSort fun left right => le left right = true

@[simp] theorem mem_stableSort : value ∈ stableSort le values ↔ value ∈ values :=
  List.mem_insertionSort _

theorem perm_stableSort (le : α → α → Bool) (values : List α) :
    (stableSort le values).Perm values :=
  List.perm_insertionSort _ values

theorem pairwise_stableSort {le : α → α → Bool}
    (total : ∀ left right, le left right = true ∨ le right left = true)
    (transitive : ∀ left middle right, le left middle = true → le middle right = true →
      le left right = true)
    (values : List α) : (stableSort le values).Pairwise fun left right => le left right = true := by
  have isTotal : Std.Total fun left right => le left right = true := ⟨total⟩
  have isTransitive : IsTrans α fun left right => le left right = true := ⟨transitive⟩
  exact List.pairwise_insertionSort _ values

/-- The last value with a property. -/
theorem exists_last_of_mem (Holds : α → Prop) (member : value ∈ values) (holds : Holds value) :
    ∃ front last rest, values = front ++ last :: rest ∧ Holds last ∧
      ∀ other ∈ rest, ¬ Holds other := by
  induction values generalizing value with
  | nil => cases member
  | cons head values ih =>
    by_cases later : ∃ other ∈ values, Holds other
    · obtain ⟨other, isOther, otherHolds⟩ := later
      obtain ⟨front, last, rest, split, found⟩ := ih isOther otherHolds
      exact ⟨head :: front, last, rest, by rw [split, List.cons_append], found⟩
    · push Not at later
      rcases List.mem_cons.mp member with rfl | isLater
      · exact ⟨[], value, values, rfl, holds, later⟩
      · exact absurd holds (later value isLater)

/-- Where keys are unique, the entry of a key does not depend on the order. -/
theorem find?_key_of_perm [DecidableEq κ] {right : List α} (unique : (left.map keyOf).Nodup)
    (permuted : right.Perm left) (key : κ) :
    (right.find? fun entry => keyOf entry = key) =
      left.find? fun entry => keyOf entry = key := by
  cases found : left.find? fun entry => decide (keyOf entry = key) with
  | none =>
    rw [List.find?_eq_none] at found ⊢
    exact fun entry member => found entry (permuted.mem_iff.mp member)
  | some entry =>
    have isEntry := List.mem_of_find?_eq_some found
    have hasKey : keyOf entry = key := by simpa using List.find?_some found
    have present : (right.find? fun other => decide (keyOf other = key)).isSome := by
      rw [List.find?_isSome]
      exact ⟨entry, permuted.mem_iff.mpr isEntry, by simpa using hasKey⟩
    obtain ⟨other, isOther⟩ := Option.isSome_iff_exists.mp present
    have otherMember := permuted.mem_iff.mp (List.mem_of_find?_eq_some isOther)
    have otherKey : keyOf other = key := by simpa using List.find?_some isOther
    rw [isOther, List.inj_on_of_nodup_map unique otherMember isEntry (otherKey.trans hasKey.symm)]

/-- Some value stands on both sides of another one. -/
def Recurs (values : List α) : Prop :=
  ∃ value other, value ≠ other ∧ [value, other, value].Sublist values

theorem not_recurs_nil : ¬ Recurs ([] : List α) := by
  rintro ⟨value, other, -, sublist⟩
  cases sublist

/-- Repeating the newest value brings nothing back. -/
theorem recurs_cons_head (isHead : values.head? = some newest) :
    Recurs (newest :: values) ↔ Recurs values := by
  obtain ⟨rest, rfl⟩ : ∃ rest, values = newest :: rest := by
    cases values with
    | nil => cases isHead
    | cons head rest =>
      cases isHead
      exact ⟨rest, rfl⟩
  constructor
  · rintro ⟨value, other, differs, sublist⟩
    rcases List.sublist_cons_iff.mp sublist with inner | ⟨tail, isTail, inner⟩
    · exact ⟨value, other, differs, inner⟩
    · obtain ⟨rfl, rfl⟩ := List.cons.inj isTail
      refine ⟨value, other, differs, ?_⟩
      rcases List.sublist_cons_iff.mp inner with deeper | ⟨last, isLast, -⟩
      · exact deeper.cons_cons value
      · exact absurd (List.cons.inj isLast).1.symm differs
  · rintro ⟨value, other, differs, sublist⟩
    exact ⟨value, other, differs, sublist.cons newest⟩

/-- A value that is not the newest one comes back exactly when it stands
further back. -/
theorem recurs_cons_of_ne_head (notHead : values.head? ≠ some newest) :
    Recurs (newest :: values) ↔ Recurs values ∨ newest ∈ values := by
  constructor
  · rintro ⟨value, other, differs, sublist⟩
    rcases List.sublist_cons_iff.mp sublist with inner | ⟨tail, isTail, inner⟩
    · exact Or.inl ⟨value, other, differs, inner⟩
    · obtain ⟨rfl, rfl⟩ := List.cons.inj isTail
      exact Or.inr (inner.subset (by simp))
  · rintro (⟨value, other, differs, sublist⟩ | member)
    · exact ⟨value, other, differs, sublist.cons newest⟩
    · cases values with
      | nil => cases member
      | cons head rest =>
        have differs : newest ≠ head := fun equal => notHead (by rw [equal]; rfl)
        have inRest : newest ∈ rest := (List.mem_cons.mp member).resolve_left differs
        exact ⟨newest, head, differs,
          ((List.singleton_sublist.mpr inRest).cons_cons head).cons_cons newest⟩

/-- The UTF-16 code units of one character. -/
def codeUnitsOfChar (char : Char) : List Nat :=
  if char.toNat < 0x10000 then [char.toNat]
  else
    [0xD800 + (char.toNat - 0x10000) / 0x400, 0xDC00 + (char.toNat - 0x10000) % 0x400]

/-- The UTF-16 code units of a string. -/
def codeUnits (text : String) : List Nat :=
  text.toList.flatMap codeUnitsOfChar

/-- String order by code units, as the relational operators compare. -/
def codeUnitLE (left right : String) : Bool :=
  decide (codeUnits left ≤ codeUnits right)

end OpenAgent.Library
