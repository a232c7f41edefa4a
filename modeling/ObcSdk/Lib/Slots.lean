import Mathlib.Data.Fintype.Card
import Mathlib.Data.List.FinRange
import Mathlib.Logic.Function.Basic
import Mathlib.Tactic.Common
/-!
# Slots

A fixed number of slots, each in use or not: the first that is not, and
how many are.
-/

namespace ObcSdk

namespace Slots

variable {n : ℕ} {used : Fin n → Bool} {i j : Fin n}

/-- The first slot not in use. -/
def firstUnused (used : Fin n → Bool) : Option (Fin n) :=
  (List.finRange n).find? fun i => !used i

/-- How many slots are in use. -/
def inUse (used : Fin n → Bool) : ℕ := (Finset.univ.filter fun i => used i = true).card

theorem firstUnused_eq_some (h : firstUnused used = some i) : used i = false := by
  have hfound := List.find?_some h
  simpa using hfound

theorem firstUnused_eq_none_iff : firstUnused used = none ↔ ∀ i, used i = true := by
  rw [firstUnused, List.find?_eq_none]
  simp

theorem inUse_le (used : Fin n → Bool) : inUse used ≤ n := by
  have hle := Finset.card_le_univ (Finset.univ.filter fun i => used i = true)
  rwa [Fintype.card_fin] at hle

theorem inUse_eq_zero_iff : inUse used = 0 ↔ ∀ i, used i = false := by
  rw [inUse, Finset.card_eq_zero, Finset.filter_eq_empty_iff]
  simp

theorem inUse_eq_iff : inUse used = n ↔ ∀ i, used i = true := by
  have hcard := Finset.card_eq_iff_eq_univ (Finset.univ.filter fun i => used i = true)
  rw [Fintype.card_fin] at hcard
  rw [inUse, hcard, Finset.filter_eq_self]
  simp

/-- Using a slot makes one more. -/
theorem inUse_update_true (h : used i = false) :
    inUse (Function.update used i true) = inUse used + 1 := by
  have hset : (Finset.univ.filter fun j => Function.update used i true j = true) =
      insert i (Finset.univ.filter fun j => used j = true) := by
    ext j
    by_cases hj : j = i
    · simp [hj]
    · simp [hj]
  rw [inUse, hset, Finset.card_insert_of_notMem (by simp [h]), inUse]

/-- Leaving a slot makes one less. -/
theorem inUse_update_false (h : used i = true) :
    inUse (Function.update used i false) + 1 = inUse used := by
  have hback : Function.update (Function.update used i false) i true = used := by
    rw [Function.update_idem, ← h, Function.update_eq_self]
  have hnot : Function.update used i false i = false := Function.update_self _ _ _
  rw [← inUse_update_true hnot, hback]

end Slots

end ObcSdk
