import Mathlib.Algebra.Group.Fin.Basic
import Mathlib.Data.List.FinRange
import Mathlib.Algebra.Order.Ring.Nat
import Mathlib.Tactic.Abel

set_option relaxedAutoImplicit false
set_option autoImplicit false
set_option linter.unusedSectionVars false

/-!
# Seats around a table

Positions `0 .. n - 1` in a circle. The distance from one seat to another counts the moves
forward, and a search around the table finds the seat at the least distance that qualifies.

## Main definitions

* `Circle.dist` — the moves from a seat to another.

## Main results

* `Circle.findSome?_pairwise` — a search along an ordered list finds the first element.
* `Circle.dist_sub`, `Circle.dist_back` — distances seen from another seat.
-/

namespace Circle

/-! ### Searches -/

section Search

variable {α β : Type*} {key : α → ℕ} {l : List α}

/-- What a search along a list ordered by a key gives is found at an element before which nothing
is found. -/
lemma findSome?_pairwise {f : α → Option β} {b : β}
    (hl : l.Pairwise fun x y => key x < key y) (h : l.findSome? f = some b) :
    ∃ a ∈ l, f a = some b ∧ ∀ x ∈ l, key x < key a → f x = none := by
  obtain ⟨l₁, a, l₂, rfl, ha, hl₁⟩ := List.findSome?_eq_some_iff.mp h
  refine ⟨a, by simp, ha, fun x hx hlt => ?_⟩
  rw [List.pairwise_append, List.pairwise_cons] at hl
  obtain ⟨-, ⟨ha₂, -⟩, -⟩ := hl
  rcases List.mem_append.mp hx with hx | hx
  · exact hl₁ x hx
  · rcases List.mem_cons.mp hx with rfl | hx
    · omega
    · have := ha₂ x hx
      omega

/-- A search for an element along a list ordered by a key finds the one with the least key. -/
lemma find?_pairwise {P : α → Bool} {a : α} (hl : l.Pairwise fun x y => key x < key y)
    (h : l.find? P = some a) : P a = true ∧ ∀ x ∈ l, P x = true → key a ≤ key x := by
  refine ⟨List.find?_some h, fun x hx hP => ?_⟩
  rw [← List.findSome?_guard] at h
  obtain ⟨a', -, ha', hmin⟩ := findSome?_pairwise hl h
  obtain ⟨rfl, -⟩ := Option.guard_eq_some_iff.mp ha'
  by_contra hlt
  have hnone := hmin x hx (not_le.mp hlt)
  simp [Option.guard, hP] at hnone

end Search

/-! ### Distances -/

variable {n : ℕ} [NeZero n]

/-- The number of moves forward from `a` to `b`. -/
def dist (a b : Fin n) : ℕ := (b - a).val

lemma dist_lt (a b : Fin n) : dist a b < n := (b - a).isLt

@[simp]
lemma dist_self (a : Fin n) : dist a a = 0 := by simp [dist]

lemma dist_eq_zero {a b : Fin n} : dist a b = 0 ↔ a = b := by
  rw [dist, Fin.val_eq_zero_iff, sub_eq_zero, eq_comm]

/-- The distance between two seats, seen from a third one before both. -/
lemma dist_sub {a b c : Fin n} (h : dist a b ≤ dist a c) : dist b c = dist a c - dist a b := by
  have hsub : c - b = (c - a) - (b - a) := by abel
  rw [dist, hsub]
  exact Fin.sub_val_of_le h

/-- The way back around the table. -/
lemma dist_back {a b : Fin n} (h : a ≠ b) : dist b a = n - dist a b := by
  have hne : b - a ≠ 0 := sub_ne_zero.mpr h.symm
  have hneg : a - b = -(b - a) := by abel
  rw [dist, hneg, Fin.val_neg, if_neg hne]
  rfl

/-- The distance from the next seat. -/
lemma dist_add_one (a b : Fin n) : dist (a + 1) b = if a = b then n - 1 else dist a b - 1 := by
  have hpos := NeZero.pos n
  by_cases hn : n = 1
  · subst hn
    simp [dist]
  have hone : (1 : Fin n).val = 1 := by
    rw [Fin.val_one']
    exact Nat.mod_eq_of_lt (by omega)
  have hstep : dist a (a + 1) = 1 := by
    rw [dist, add_sub_cancel_left, hone]
  split_ifs with h
  · subst h
    have hne : a ≠ a + 1 := by
      intro h
      have := dist_eq_zero.mpr h
      omega
    rw [dist_back hne, hstep]
  · have hd : dist a b ≠ 0 := fun h0 => h (dist_eq_zero.mp h0)
    have hle : dist a (a + 1) ≤ dist a b := by omega
    rw [dist_sub hle, hstep]

/-- A seat is as far forward of `a` as it is from being found backward. -/
lemma dist_sub_one (a b : Fin n) : dist b (a - 1) = n - 1 - dist a b := by
  have hback := dist_add_one (a - 1) b
  rw [sub_add_cancel] at hback
  have hlt := dist_lt a b
  split_ifs at hback with h
  · rw [h, dist_self, hback]
    omega
  · rw [dist_back h]
    have := dist_lt (a - 1) b
    have hne : dist (a - 1) b ≠ 0 := fun h0 => h (dist_eq_zero.mp h0)
    omega

/-! ### Once around -/

/-- The seats from `a` on are met in the order of their distance. -/
lemma pairwise_add (a : Fin n) :
    ((List.finRange n).map fun i => a + i).Pairwise fun x y => dist a x < dist a y := by
  rw [List.pairwise_map]
  refine (List.pairwise_lt_finRange n).imp fun {i j} hij => ?_
  simpa [dist] using hij

/-- The seats from `a` backward are met in the order of their distance to `a`. -/
lemma pairwise_sub (a : Fin n) :
    ((List.finRange n).map fun i => a - i).Pairwise fun x y => dist x a < dist y a := by
  rw [List.pairwise_map]
  refine (List.pairwise_lt_finRange n).imp fun {i j} hij => ?_
  simpa [dist] using hij

lemma mem_add (a b : Fin n) : b ∈ (List.finRange n).map fun i => a + i :=
  List.mem_map.mpr ⟨b - a, List.mem_finRange _, by abel⟩

lemma mem_sub (a b : Fin n) : b ∈ (List.finRange n).map fun i => a - i :=
  List.mem_map.mpr ⟨a - b, List.mem_finRange _, by abel⟩

end Circle
