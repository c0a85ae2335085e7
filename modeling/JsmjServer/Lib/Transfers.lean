import Mathlib.Algebra.BigOperators.Group.Finset.Piecewise
import Mathlib.Algebra.BigOperators.Ring.Finset
import Mathlib.Data.Fintype.BigOperators
import Mathlib.Tactic.Ring

set_option relaxedAutoImplicit false
set_option autoImplicit false

/-!
# Transfers between parties

A settlement between finitely many parties in which every amount received is paid by a party. The
module gives the net amount of a party, in total zero, for the kinds of payments that occur: by all
other parties, and by one party to several.

## Main definitions

* `Transfers.net` — the amounts received less those paid.
* `Transfers.fromOthers` — every other party pays the same amount.
* `Transfers.fromOne` — one party pays each of some parties.

## Main results

* `Transfers.sum_net` — the net amounts sum to zero.
-/

open Finset

namespace Transfers

variable {ι : Type*} [Fintype ι]

/-- The amounts a party receives less those it pays, where `q` pays `pays p q` to `p`. -/
def net (pays : ι → ι → ℤ) (p : ι) : ℤ := ∑ q, pays p q - ∑ q, pays q p

/-- The net amounts sum to zero, as every amount is received once and paid once. -/
theorem sum_net (pays : ι → ι → ℤ) : ∑ p, net pays p = 0 := by
  unfold net
  rw [sum_sub_distrib, sum_comm, sub_self]

lemma net_add (pays pays' : ι → ι → ℤ) (p : ι) :
    net (fun p q => pays p q + pays' p q) p = net pays p + net pays' p := by
  unfold net
  rw [sum_add_distrib, sum_add_distrib]
  ring

section Kinds

variable [DecidableEq ι]

/-- Every other party pays `f p` to `p`. -/
def fromOthers (f : ι → ℤ) (p q : ι) : ℤ := if q = p then 0 else f p

/-- The party `t` pays `k` to each party of `w`. -/
def fromOne (w : ι → Prop) [DecidablePred w] (t : ι) (k : ℤ) (p q : ι) : ℤ :=
  if w p ∧ q = t then k else 0

lemma sum_ite_eq_zero (f : ι → ℤ) (p : ι) : ∑ q, (if q = p then 0 else f q) = ∑ q, f q - f p := by
  have hsplit : ∀ q, (if q = p then 0 else f q) = f q - if q = p then f q else 0 := by
    intro q
    split_ifs <;> ring
  rw [sum_congr rfl fun q _ => hsplit q, sum_sub_distrib, sum_ite_eq' univ p f]
  simp

/-- A party receives its amount from each other party, and pays the amount of each. -/
lemma net_fromOthers (f : ι → ℤ) (p : ι) : net (fromOthers f) p =
    (Fintype.card ι - 1) * f p - ∑ q, (if q = p then 0 else f q) := by
  have hgot : ∑ q, fromOthers f p q = (Fintype.card ι - 1) * f p := by
    have hconst := sum_ite_eq_zero (fun _ => f p) p
    rw [sum_const, card_univ, nsmul_eq_mul] at hconst
    calc ∑ q, fromOthers f p q = Fintype.card ι * f p - f p := hconst
      _ = _ := by ring
  have hpaid : ∑ q, fromOthers f q p = ∑ q, (if q = p then 0 else f q) := by
    refine sum_congr rfl fun q _ => ?_
    unfold fromOthers
    simp only [eq_comm]
  rw [net, hgot, hpaid]

/-- A party of `w` receives `k`, and the paying party pays it as often as there are parties in
`w`. -/
lemma net_fromOne (w : ι → Prop) [DecidablePred w] (t : ι) (k : ℤ) (p : ι) :
    net (fromOne w t k) p =
      (if w p then k else 0) - if p = t then k * ∑ q, (if w q then 1 else 0) else 0 := by
  have hgot : ∑ q, fromOne w t k p q = if w p then k else 0 := by
    simp only [fromOne]
    by_cases hw : w p
    · simp [hw]
    · simp [hw]
  have hpaid : ∑ q, fromOne w t k q p = if p = t then k * ∑ q, (if w q then 1 else 0) else 0 := by
    simp only [fromOne]
    by_cases hp : p = t
    · simp only [hp, and_true, if_true, mul_sum, mul_ite, mul_one, mul_zero]
    · simp [hp]
  rw [net, hgot, hpaid]

end Kinds

end Transfers
