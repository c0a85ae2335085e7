import Mathlib.Algebra.BigOperators.Group.Finset.Basic
import Mathlib.Algebra.BigOperators.Ring.Finset
import Mathlib.Algebra.Ring.Nat
import Mathlib.Algebra.Order.BigOperators.Group.Finset
import Mathlib.Data.Fintype.Basic
import Mathlib.Data.Finset.Lattice.Fold
import Mathlib.Order.Lattice.Nat

set_option relaxedAutoImplicit false
set_option autoImplicit false
set_option linter.unusedSectionVars false

/-!
# Layers of a family of amounts

A finite family of amounts is cut at its values into layers: the layer that ends at `v` holds the
same share of every amount that reaches `v`. The module gives the content of a layer and the
condition that every layer divides evenly among the members of a set that reach it.

## Main definitions

* `Layers.below` — where the layer that ends at a value begins.
* `Layers.Even` — every layer above a level divides evenly.
* `Layers.gains` — what the members of a set get when they divide the layers above a level.

## Main results

* `Layers.sum_sub` — the content of one layer.
* `Layers.even_step`, `Layers.gains_step` — the layers one by one.
* `Layers.sum_layers` — an amount is the sum of its layers.
-/

namespace Layers

variable {ι : Type*} (b : ι → ℕ)

/-- No amount ends strictly between two levels. -/
def Gap (u v : ℕ) : Prop := ∀ i, b i ≤ u ∨ v ≤ b i

/-- The members of a set that reach a level. -/
def reach (S : Finset ι) (v : ℕ) : Finset ι := S.filter fun i => v ≤ b i

variable [Fintype ι]

/-- The level where the layer that ends at `v` begins, when everything up to `u` is gone. -/
def below (u v : ℕ) : ℕ := max u ((Finset.univ.filter fun i => b i < v).sup b)

variable [DecidableEq ι]

/-- Every layer above `u` that a member of `W` reaches holds an amount of the others that divides
evenly among the members of `W` that reach it. -/
def Even (W : Finset ι) (u : ℕ) : Prop :=
  ∀ j, u < b j → (reach b W (b j)).Nonempty →
    (reach b W (b j)).card ∣ (b j - below b u (b j)) * (reach b Wᶜ (b j)).card

variable {b}

/-- The content of the layer between two levels. -/
lemma sum_sub (S : Finset ι) {u v : ℕ} (huv : u ≤ v) (h : Gap b u v) :
    ∑ i ∈ S, (b i - u) = ∑ i ∈ S, (b i - v) + (v - u) * (reach b S v).card := by
  have hterm : ∀ i ∈ S, b i - u = (b i - v) + if v ≤ b i then v - u else 0 := by
    intro i _
    rcases h i with hi | hi
    · split_ifs <;> omega
    · rw [if_pos hi]
      omega
  rw [Finset.sum_congr rfl hterm, Finset.sum_add_distrib, ← Finset.sum_filter, Finset.sum_const,
    Nat.nsmul_eq_mul, mul_comm]
  rfl

lemma card_reach_add_compl (W : Finset ι) (v : ℕ) :
    (reach b W v).card + (reach b Wᶜ v).card = (reach b Finset.univ v).card := by
  rw [reach, reach, reach, ← Finset.card_union_of_disjoint, ← Finset.filter_union,
    Finset.union_compl]
  exact Finset.disjoint_filter_filter disjoint_compl_right

/-- Everyone in a set is given the same amount. -/
lemma sum_ite_add (R : Finset ι) (d : ι → ℕ) (c : ℕ) :
    ∑ i, (if i ∈ R then d i + c else d i) = ∑ i, d i + R.card * c := by
  have hterm : ∀ i ∈ Finset.univ, (if i ∈ R then d i + c else d i) =
      d i + if i ∈ R then c else 0 := by
    intro i _
    split_ifs <;> rfl
  rw [Finset.sum_congr rfl hterm, Finset.sum_add_distrib, Finset.sum_ite_mem, Finset.univ_inter,
    Finset.sum_const, Nat.nsmul_eq_mul]

lemma below_of_gap {u v : ℕ} (h : Gap b u v) : below b u v = u := by
  refine max_eq_left (Finset.sup_le fun i hi => ?_)
  have hlt := (Finset.mem_filter.mp hi).2
  exact (h i).resolve_right (not_le.mpr hlt)

/-- Beyond a level that is an amount, the layers do not depend on what lies under it. -/
lemma below_of_le {u v x : ℕ} {j : ι} (huv : u ≤ v) (hj : b j = v) (hx : v < x) :
    below b u x = below b v x := by
  have hle : v ≤ (Finset.univ.filter fun i => b i < x).sup b := by
    rw [← hj]
    exact Finset.le_sup (f := b) (by simpa [hj] using hx)
  rw [below, below, max_eq_right hle, max_eq_right (huv.trans hle)]

/-- The layers above `u` are the first one, which ends at `v`, and the layers above `v`. -/
lemma even_step {W : Finset ι} {u v : ℕ} {j : ι} (huv : u < v) (hj : b j = v) (h : Gap b u v) :
    Even b W u ↔ ((reach b W v).Nonempty →
      (reach b W v).card ∣ (v - u) * (reach b Wᶜ v).card) ∧ Even b W v := by
  constructor
  · intro he
    refine ⟨fun hne => ?_, fun k hk hne => ?_⟩
    · have hdvd := he j (hj ▸ huv) (hj ▸ hne)
      rwa [hj, below_of_gap h] at hdvd
    · have hdvd := he k (huv.trans hk) hne
      rwa [below_of_le huv.le hj hk] at hdvd
  · rintro ⟨hfirst, he⟩ k hk hne
    rcases h k with hku | hvk
    · omega
    rcases hvk.eq_or_lt with rfl | hvk
    · rw [below_of_gap h]
      exact hfirst hne
    · rw [below_of_le huv.le hj hvk]
      exact he k hvk hne

/-- Among the members of a set of one every layer divides evenly. -/
lemma even_singleton (w : ι) (u : ℕ) : Even b {w} u := by
  intro j _ hne
  have hle : (reach b {w} (b j)).card ≤ 1 := Finset.card_filter_le _ _
  have hone : (reach b {w} (b j)).card = 1 := le_antisymm hle (Finset.card_pos.mpr hne)
  rw [hone]
  exact one_dvd _

/-! ### Dividing the layers -/

variable (b) in
/-- The values between two levels at which a layer ends. -/
def layers (u c : ℕ) : Finset ℕ := (Finset.univ.image b).filter fun v => u < v ∧ v ≤ c

variable (b) in
/-- The share of a member of `W` in the layer that ends at `v`, when those who reach it divide
it. -/
def gain (W : Finset ι) (u v : ℕ) (i : ι) : ℕ :=
  if i ∈ reach b W v then
    (v - below b u v) * (reach b Finset.univ v).card / (reach b W v).card
  else 0

variable (b) in
/-- The shares in all layers above `u` that a member of `W` reaches. -/
def gains (W : Finset ι) (u : ℕ) (i : ι) : ℕ := ∑ v ∈ layers b u (W.sup b), gain b W u v i

lemma mem_layers {u c v : ℕ} : v ∈ layers b u c ↔ (∃ j, b j = v) ∧ u < v ∧ v ≤ c := by
  simp [layers]

lemma layers_eq_empty {u c : ℕ} (h : c ≤ u) : layers b u c = ∅ := by
  refine Finset.filter_eq_empty_iff.mpr fun v _ hv => ?_
  omega

/-- The layers below a level, and those above it. -/
lemma sum_layers_split {u w c : ℕ} (f : ℕ → ℕ) (h : w ≤ c) : ∑ v ∈ layers b u c, f v =
    ∑ v ∈ layers b u w, f v + ∑ v ∈ layers b (max u w) c, f v := by
  have hdisj : Disjoint (layers b u w) (layers b (max u w) c) := by
    refine Finset.disjoint_left.mpr fun v hv hv' => ?_
    have := (mem_layers.mp hv).2.2
    have := (mem_layers.mp hv').2.1
    omega
  rw [← Finset.sum_union hdisj]
  refine Finset.sum_congr ?_ fun _ _ => rfl
  ext v
  rw [Finset.mem_union, mem_layers, mem_layers, mem_layers]
  constructor
  · rintro ⟨hv, huv, hvc⟩
    rcases le_or_gt v w with hvw | hwv
    · exact .inl ⟨hv, huv, hvw⟩
    · exact .inr ⟨hv, by omega, hvc⟩
  · rintro (⟨hv, huv, hvw⟩ | ⟨hv, huv, hvc⟩)
    · exact ⟨hv, huv, hvw.trans h⟩
    · exact ⟨hv, by omega, hvc⟩

/-- The first layer, and the layers above it. -/
lemma layers_eq_insert {u v c : ℕ} {j : ι} (huv : u < v) (hj : b j = v) (h : Gap b u v)
    (hc : v ≤ c) : layers b u c = insert v (layers b v c) := by
  ext x
  rw [Finset.mem_insert, mem_layers, mem_layers]
  constructor
  · rintro ⟨⟨i, rfl⟩, hux, hxc⟩
    rcases (h i).resolve_left (by omega) |>.eq_or_lt with heq | hlt
    · exact .inl heq.symm
    · exact .inr ⟨⟨i, rfl⟩, hlt, hxc⟩
  · rintro (rfl | ⟨hx, hvx, hxc⟩)
    · exact ⟨⟨j, hj⟩, huv, hc⟩
    · exact ⟨hx, huv.trans hvx, hxc⟩

/-- The layers of a family above a level, one by one: what holds above the largest amount, and of
the layers above `u` when it holds of those above the next level, holds of all. -/
lemma layers_induction {P : ℕ → Prop} (c : ℕ) (hbase : ∀ u, c ≤ u → P u)
    (hstep : ∀ u v j, u < v → b j = v → Gap b u v → v ≤ c → P v → P u)
    (hc : ∃ i, b i = c) (u : ℕ) : P u := by
  induction hk : c - u using Nat.strong_induction_on generalizing u with
  | _ k ih =>
    rcases le_or_gt c u with hcu | huc
    · exact hbase u hcu
    obtain ⟨i, hi⟩ := hc
    obtain ⟨j, hj, hmin⟩ := Finset.exists_min_image (Finset.univ.filter fun i => u < b i) b
      ⟨i, Finset.mem_filter.mpr ⟨Finset.mem_univ i, by omega⟩⟩
    have huj : u < b j := (Finset.mem_filter.mp hj).2
    have hle : b j ≤ b i := hmin i (Finset.mem_filter.mpr ⟨Finset.mem_univ i, by omega⟩)
    refine hstep u (b j) j huj rfl (fun x => ?_) (by omega) (ih (c - b j) (by omega) (b j) rfl)
    rcases le_or_gt (b x) u with hx | hx
    · exact .inl hx
    · exact .inr (hmin x (Finset.mem_filter.mpr ⟨Finset.mem_univ x, hx⟩))

/-- An amount is the sum of its layers. -/
lemma sum_layers (i : ι) (u : ℕ) : ∑ v ∈ layers b u (b i), (v - below b u v) = b i - u := by
  refine layers_induction (b := b) (P := fun u =>
    ∑ v ∈ layers b u (b i), (v - below b u v) = b i - u) (b i) (fun u h => ?_)
    (fun u v j huv hj hgap hle ih => ?_) ⟨i, rfl⟩ u
  · rw [layers_eq_empty h, Finset.sum_empty]
    omega
  · have hnot : v ∉ layers b v (b i) := fun hv => by
      have := (mem_layers.mp hv).2.1
      omega
    have hrest : ∀ x ∈ layers b v (b i), x - below b u x = x - below b v x := fun x hx => by
      rw [below_of_le huv.le hj (mem_layers.mp hx).2.1]
    rw [layers_eq_insert huv hj hgap hle, Finset.sum_insert hnot, below_of_gap hgap,
      Finset.sum_congr rfl hrest, ih]
    omega

/-- Above a level that is an amount, the shares do not depend on what lies under it. -/
lemma gain_of_le {W : Finset ι} {u v x : ℕ} {j : ι} (huv : u ≤ v) (hj : b j = v) (hx : v < x)
    (i : ι) : gain b W u x i = gain b W v x i := by
  rw [gain, gain, below_of_le huv hj hx]

/-- The first layer is divided first. -/
lemma gains_step {W : Finset ι} {u v : ℕ} {j : ι} (huv : u < v) (hj : b j = v) (h : Gap b u v)
    (hv : v ≤ W.sup b) (i : ι) : gains b W u i = gain b W u v i + gains b W v i := by
  have hnot : v ∉ layers b v (W.sup b) := fun hmem => by
    have := (mem_layers.mp hmem).2.1
    omega
  rw [gains, layers_eq_insert huv hj h hv, Finset.sum_insert hnot, gains]
  congr 1
  exact Finset.sum_congr rfl fun x hx => gain_of_le huv.le hj (mem_layers.mp hx).2.1 i

/-- Only those who reach the layer matter. -/
lemma gain_reach (W : Finset ι) (u v : ℕ) (i : ι) : gain b (reach b W v) u v i = gain b W u v i := by
  have hself : reach b (reach b W v) v = reach b W v :=
    Finset.filter_true_of_mem fun j hj => (Finset.mem_filter.mp hj).2
  rw [gain, gain, hself]

lemma gains_of_sup_le {W : Finset ι} {u : ℕ} (h : W.sup b ≤ u) (i : ι) : gains b W u i = 0 := by
  rw [gains, layers_eq_empty h, Finset.sum_empty]

/-- The layers of an amount below another one. -/
lemma sum_layers_of_le {c u : ℕ} {i : ι} (h : b i ≤ c) :
    ∑ v ∈ layers b u c, (if v ≤ b i then v - below b u v else 0) = b i - u := by
  rw [← Finset.sum_filter, ← sum_layers i u]
  refine Finset.sum_congr ?_ fun _ _ => rfl
  ext v
  simp only [layers, Finset.mem_filter]
  constructor
  · rintro ⟨⟨hv, huv, -⟩, hvi⟩
    exact ⟨hv, huv, hvi⟩
  · rintro ⟨hv, huv, hvi⟩
    exact ⟨⟨hv, huv, hvi.trans h⟩, hvi⟩

/-- When the others are below the level, everyone in `W` takes back the own layers. -/
lemma gains_of_compl_le {W : Finset ι} {u : ℕ} (h : ∀ i ∉ W, b i ≤ u) (i : ι) :
    gains b W u i = if i ∈ W then b i - u else 0 := by
  have hgain : ∀ v ∈ layers b u (W.sup b), gain b W u v i =
      if i ∈ W then (if v ≤ b i then v - below b u v else 0) else 0 := by
    intro v hv
    have hall : reach b Finset.univ v = reach b W v := by
      ext j
      simp only [reach, Finset.mem_filter, Finset.mem_univ, true_and]
      refine ⟨fun hj => ⟨by_contra fun hW => ?_, hj⟩, And.right⟩
      have := h j hW
      have := (mem_layers.mp hv).2.1
      omega
    have hmem : i ∈ reach b W v ↔ i ∈ W ∧ v ≤ b i := Finset.mem_filter
    rw [gain, hall]
    by_cases hi : i ∈ W ∧ v ≤ b i
    · rw [if_pos (hmem.mpr hi), if_pos hi.1, if_pos hi.2,
        Nat.mul_div_cancel _ (Finset.card_pos.mpr ⟨i, hmem.mpr hi⟩)]
    · rw [if_neg fun hr => hi (hmem.mp hr)]
      by_cases hW : i ∈ W
      · rw [if_pos hW, if_neg fun hv => hi ⟨hW, hv⟩]
      · rw [if_neg hW]
  rw [gains, Finset.sum_congr rfl hgain]
  split_ifs with hW
  · exact sum_layers_of_le (Finset.le_sup (f := b) hW)
  · exact Finset.sum_const_zero

/-- A single member takes from every amount what its own amount covers. -/
lemma gains_singleton (w : ι) (u : ℕ) (i : ι) :
    gains b {w} u i = if i = w then ∑ j, (min (b j) (b w) - u) else 0 := by
  rw [gains, Finset.sup_singleton]
  split_ifs with hi
  · subst hi
    have hgain : ∀ v ∈ layers b u (b i), gain b {i} u v i =
        ∑ j, if v ≤ b j then v - below b u v else 0 := by
      intro v hv
      have hself : reach b {i} v = {i} :=
        Finset.filter_true_of_mem fun j hj => by
          rw [Finset.mem_singleton.mp hj]
          exact (mem_layers.mp hv).2.2
      rw [gain, hself, if_pos (Finset.mem_singleton_self i), Finset.card_singleton, Nat.div_one,
        ← Finset.sum_filter, Finset.sum_const, Nat.nsmul_eq_mul, mul_comm]
      rfl
    rw [Finset.sum_congr rfl hgain, Finset.sum_comm]
    refine Finset.sum_congr rfl fun j _ => ?_
    rcases le_total (b j) (b i) with hle | hle
    · rw [min_eq_left hle]
      exact sum_layers_of_le hle
    · rw [min_eq_right hle, ← sum_layers_of_le (le_refl (b i))]
      refine Finset.sum_congr rfl fun v hv => ?_
      have hvi := (mem_layers.mp hv).2.2
      rw [if_pos hvi, if_pos (hvi.trans hle)]
  · refine Finset.sum_eq_zero fun v _ => if_neg fun hr => hi ?_
    exact Finset.mem_singleton.mp (Finset.mem_filter.mp hr).1

end Layers
