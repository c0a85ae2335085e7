import Mathlib.Data.List.Sort
import Mathlib.Order.Interval.Finset.Nat

set_option relaxedAutoImplicit false
set_option autoImplicit false

/-!
# Increasing lists and intervals of numbers

A strictly increasing list of natural numbers is determined by its elements, so a list whose
elements form an interval is the list of consecutive numbers.

## Main results

* `Intervals.toFinset_range'` — consecutive numbers form an interval.
* `Intervals.eq_range'_of_toFinset` — an increasing list over an interval is consecutive.
* `Intervals.eq_of_toFinset` — increasing lists with the same elements are equal.
-/

namespace Intervals

/-- The elements of a list of consecutive numbers form an interval. -/
lemma toFinset_range' (a n : ℕ) : (List.range' a (n + 1)).toFinset = Finset.Icc a (a + n) := by
  ext v
  simp only [List.mem_toFinset, List.mem_range'_1, Finset.mem_Icc]
  omega

/-- Strictly increasing lists with the same elements are equal. -/
lemma eq_of_toFinset {l₁ l₂ : List ℕ} (h₁ : l₁.SortedLT) (h₂ : l₂.SortedLT)
    (h : l₁.toFinset = l₂.toFinset) : l₁ = l₂ := by
  apply h₁.eq_of_mem_iff h₂
  intro v
  rw [← List.mem_toFinset, h, List.mem_toFinset]

/-- A strictly increasing list whose elements form an interval is a list of consecutive
numbers. -/
lemma eq_range'_of_toFinset {l : List ℕ} {a b : ℕ} (h : l.SortedLT) (hab : a ≤ b)
    (hl : l.toFinset = Finset.Icc a b) : l = List.range' a (b - a + 1) := by
  apply eq_of_toFinset h (List.sortedLT_range' a _ one_ne_zero)
  rw [hl, toFinset_range', Nat.add_sub_cancel' hab]

/-- The number of elements of a strictly increasing list. -/
lemma card_toFinset {l : List ℕ} (h : l.SortedLT) : l.toFinset.card = l.length :=
  List.toFinset_card_of_nodup h.nodup

end Intervals
