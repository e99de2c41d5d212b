import Mathlib.Algebra.GroupWithZero.Nat
import Mathlib.Algebra.Order.BigOperators.Group.List
import Mathlib.Algebra.Order.Group.Nat
import OpenAgent.Library.Collections

/-!
# Sums over the entries of a map

Accounts of a program are often sums over a map: how many entries have a property, or
how much each of them still claims.  Where the keys are unique, an update of one key
changes the sum by the weight of that entry alone.
-/

namespace OpenAgent.Library

variable {κ ν : Type}

/-- The weights of all entries of a map together. -/
def tally (entries : List (κ × ν)) (weight : κ → ν → Nat) : Nat :=
  (entries.map fun entry => weight entry.1 entry.2).sum

/-- The weight of what a map has at a key. -/
def weightAt [DecidableEq κ] (entries : List (κ × ν)) (weight : κ → ν → Nat) (key : κ) : Nat :=
  match mapGet entries key with
  | none => 0
  | some value => weight key value

@[simp] theorem tally_nil (weight : κ → ν → Nat) : tally [] weight = 0 := rfl

@[simp] theorem tally_cons (weight : κ → ν → Nat) :
    tally (entry :: entries) weight = weight entry.1 entry.2 + tally entries weight := by
  simp [tally]

theorem tally_of_perm (permuted : left.Perm right) (weight : κ → ν → Nat) :
    tally left weight = tally right weight :=
  (permuted.map _).sum_eq

theorem tally_le_tally {entries : List (κ × ν)}
    (each : ∀ entry ∈ entries, weight entry.1 entry.2 ≤ other entry.1 entry.2) :
    tally entries weight ≤ tally entries other :=
  List.sum_le_sum each

theorem weightAt_of_mapGet [DecidableEq κ] (found : mapGet entries key = some value)
    (weight : κ → ν → Nat) : weightAt entries weight key = weight key value := by
  rw [weightAt, found]

theorem weightAt_of_mapGet_eq_none [DecidableEq κ] (absent : mapGet entries key = none)
    (weight : κ → ν → Nat) : weightAt entries weight key = 0 := by
  rw [weightAt, absent]

/-- The sum without a key, and the weight at the key. -/
theorem tally_mapDelete [DecidableEq κ] (unique : (entries.map Prod.fst).Nodup)
    (weight : κ → ν → Nat) (key : κ) :
    tally (mapDelete entries key) weight + weightAt entries weight key = tally entries weight := by
  cases found : mapGet entries key with
  | none => rw [weightAt_of_mapGet_eq_none found, mapDelete_of_mapGet_eq_none found, Nat.add_zero]
  | some value =>
    rw [weightAt_of_mapGet found, tally_of_perm (perm_cons_mapDelete unique (mem_of_mapGet found)),
      tally_cons, Nat.add_comm]

/-- The sum with a key set anew: its weight replaces the old one. -/
theorem tally_mapSet [DecidableEq κ] (unique : (entries.map Prod.fst).Nodup) (weight : κ → ν → Nat)
    (key : κ) (value : ν) :
    tally (mapSet entries key value) weight + weightAt entries weight key =
      tally entries weight + weight key value := by
  have without := tally_mapDelete unique weight key
  rw [tally_of_perm (perm_mapSet unique key value), tally_cons]
  dsimp only
  omega

/-- The number of entries with a property is a sum. -/
theorem length_filter_eq_tally (entries : List (κ × ν)) (holds : κ × ν → Bool) :
    (entries.filter holds).length =
      tally entries fun key value => if holds (key, value) then 1 else 0 := by
  induction entries with
  | nil => rfl
  | cons entry entries ih =>
    rw [tally_cons, ← ih]
    cases isHeld : holds entry with
    | true => rw [List.filter_cons_of_pos isHeld, List.length_cons, if_pos rfl, Nat.add_comm]
    | false =>
      rw [List.filter_cons_of_neg (by rw [isHeld]; exact Bool.false_ne_true),
        if_neg Bool.false_ne_true, Nat.zero_add]

end OpenAgent.Library
