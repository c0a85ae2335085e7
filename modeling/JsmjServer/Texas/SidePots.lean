import JsmjServer.Lib.Sizes
import JsmjServer.Texas.Settlement

set_option relaxedAutoImplicit false
set_option autoImplicit false

/-!
# Side pots

What a showdown is meant to pay: the total bets are cut into layers at their values, and each layer
is a pot of its own, which the best of its contributors who have not folded divide. `endNormal`
never builds these pots. It goes through the ranking and lets every rank take what its bets cover.

## Main definitions

* `Texas.Showdown.sidePots` — the payouts by layers.
* `Texas.Showdown.credited` — what `endNormal` adds to the chips of the players.
* `Texas.Showdown.LayersDivide` — the condition that no layer leaves odd chips.

## Main results

* `Texas.Showdown.credited_eq_sidePots` — the two agree.
-/

namespace Texas

open Finset

namespace Showdown

variable {n : ℕ} (t : Showdown n)

/-! ### The pots -/

/-- The distinct total bets, where the layers end. -/
def betLevels : Finset ℕ := (univ.image t.bet).erase 0

/-- The players whose bet reaches a level. -/
def contributors (v : ℕ) : Finset (Fin n) := univ.filter fun i => v ≤ t.bet i

/-- What each contributor has in the layer that ends at `v`: the difference to the next smaller
bet. -/
def layerBet (v : ℕ) : ℕ := v - (univ.filter fun i => t.bet i < v).sup t.bet

/-- The pot of a layer. -/
def layerPot (v : ℕ) : ℕ := t.layerBet v * (t.contributors v).card

/-- The best of the contributors who have not folded. -/
def layerWinners (v : ℕ) : Finset (Fin n) :=
  (t.contributors v).filter fun i =>
    t.fold i = false ∧ ∀ j ∈ t.contributors v, t.fold j = false → t.rank j ≤ t.rank i

/-- A layer of several players, not all of whom have folded. -/
def Shared (v : ℕ) : Prop := 2 ≤ (t.contributors v).card ∧ ∃ j ∈ t.contributors v, t.fold j = false

instance (v : ℕ) : Decidable (t.Shared v) :=
  inferInstanceAs (Decidable (2 ≤ (t.contributors v).card ∧ ∃ j ∈ t.contributors v, t.fold j = false))

/-- What a player gets of a layer: the winners divide a shared one, any other is returned. -/
def layerShare (v : ℕ) (i : Fin n) : ℕ :=
  if t.Shared v then
    if i ∈ t.layerWinners v then t.layerPot v / (t.layerWinners v).card else 0
  else if i ∈ t.contributors v then t.layerBet v else 0

/-- The payouts by layers. -/
def sidePots (i : Fin n) : ℕ := ∑ v ∈ t.betLevels, t.layerShare v i

/-- Every shared layer divides evenly among its winners. -/
def LayersDivide : Prop :=
  ∀ v ∈ t.betLevels, t.Shared v → (t.layerWinners v).card ∣ t.layerPot v

instance : Decidable t.LayersDivide :=
  inferInstanceAs (Decidable (∀ v ∈ t.betLevels, t.Shared v →
    (t.layerWinners v).card ∣ t.layerPot v))

/-- What `endNormal` adds to the chips of the players, before it compares the sums and announces the
result. -/
def credited : Option (Fin n → ℕ) :=
  (settle t.uidRank ⟨t.bet, fun _ => 0⟩).map fun s i => s.calcDetails i + s.uidBet i

/-! ### Layers and ranks -/

/-- The players who have not folded. -/
abbrev staying : List (Fin n) := (List.finRange n).filter fun p => !t.fold p

lemma mem_staying {i : Fin n} : i ∈ t.staying ↔ t.fold i = false := by simp

lemma contributors_eq (v : ℕ) : t.contributors v = Layers.reach t.bet univ v := rfl

lemma layerBet_eq (v : ℕ) : t.layerBet v = v - Layers.below t.bet 0 v := by
  rw [layerBet, Layers.below, Nat.zero_max]

lemma betLevels_eq : t.betLevels = Layers.layers t.bet 0 (univ.sup t.bet) := by
  ext v
  rw [betLevels, mem_erase, mem_image, Layers.mem_layers]
  constructor
  · rintro ⟨hv, j, -, rfl⟩
    exact ⟨⟨j, rfl⟩, Nat.pos_of_ne_zero hv, le_sup (f := t.bet) (mem_univ j)⟩
  · rintro ⟨⟨j, rfl⟩, hpos, -⟩
    exact ⟨hpos.ne', j, mem_univ j, rfl⟩

lemma layerWinners_eq (v : ℕ) : t.layerWinners v = t.best t.staying v := by
  ext i
  simp only [layerWinners, contributors, best, mem_filter, mem_univ, true_and, List.mem_toFinset,
    mem_staying]
  constructor
  · rintro ⟨hv, hi, hmax⟩
    exact ⟨hi, hv, fun j hj hvj => hmax j hvj hj⟩
  · rintro ⟨hi, hv, hmax⟩
    exact ⟨hv, hi, fun j hvj hj => hmax j hj hvj⟩

/-- Above a level that is 0 or an amount, a layer begins where it does among all layers. -/
lemma below_sup (S : Finset (Fin n)) {v : ℕ} (hv : S.sup t.bet < v) :
    Layers.below t.bet (S.sup t.bet) v = Layers.below t.bet 0 v := by
  rcases S.eq_empty_or_nonempty with rfl | hne
  · rfl
  · obtain ⟨j, -, hj⟩ := exists_mem_eq_sup S hne t.bet
    exact (Layers.below_of_le (Nat.zero_le _) hj.symm hv).symm

/-- When every shared layer divides, so does every layer of a tie.

**Proof sketch.** The players of a rank who reach a layer above the bets of the better ones are the
winners of the layer. What they put in themselves divides among them, so that the rest does, too. -/
lemma tiesDivide_of_layersDivide (h : t.LayersDivide) : t.TiesDivide := by
  intro p hp j hj hne
  set W := univ.filter fun q => t.fold q = false ∧ t.rank q = t.rank p with hW
  set better := univ.filter fun q => t.fold q = false ∧ t.rank p < t.rank q with hbetter
  set v := t.bet j with hv
  have hmemW : ∀ i, i ∈ Layers.reach t.bet W v ↔
      (t.fold i = false ∧ t.rank i = t.rank p) ∧ v ≤ t.bet i := by
    simp [Layers.reach, hW]
  have hbest : ∀ i, v ≤ t.bet i → t.fold i = false → t.rank i ≤ t.rank p := by
    intro i hi hfold
    by_contra hlt
    have := le_sup (f := t.bet) (show i ∈ better by simp [hbetter, hfold]; omega)
    omega
  have hwinners : t.layerWinners v = Layers.reach t.bet W v := by
    obtain ⟨k, hk⟩ := hne
    obtain ⟨⟨hkfold, hkrank⟩, hkv⟩ := (hmemW k).mp hk
    ext i
    rw [hmemW]
    simp only [layerWinners, contributors, mem_filter, mem_univ, true_and]
    constructor
    · rintro ⟨hi, hfold, hmax⟩
      have := hmax k hkv hkfold
      have := hbest i hi hfold
      exact ⟨⟨hfold, by omega⟩, hi⟩
    · rintro ⟨⟨hfold, hrank⟩, hi⟩
      exact ⟨hi, hfold, fun q hq hqfold => hrank ▸ hbest q hq hqfold⟩
  have hcard := Layers.card_reach_add_compl (b := t.bet) W v
  rw [t.below_sup better hj, ← t.layerBet_eq]
  by_cases hshared : t.Shared v
  · have hdvd := h v (by simp [betLevels, hv]; omega) hshared
    rw [layerPot, hwinners, contributors_eq, ← hcard, Nat.mul_add] at hdvd
    exact (Nat.dvd_add_right (Dvd.intro_left _ rfl)).mp hdvd
  · have hpos := card_pos.mpr hne
    have hone : (Layers.reach t.bet univ v).card < 2 := by
      by_contra hge
      obtain ⟨k, hk⟩ := hne
      obtain ⟨⟨hkfold, -⟩, hkv⟩ := (hmemW k).mp hk
      exact hshared ⟨not_lt.mp hge, k, by simpa [contributors] using hkv, hkfold⟩
    have hzero : (Layers.reach t.bet Wᶜ v).card = 0 := by omega
    rw [hzero, mul_zero]
    exact dvd_zero _

/-- A layer that somebody reaches who has not folded goes to the best of them. -/
lemma layerShare_eq_gain {v : ℕ} (hv : ∃ j ∈ t.contributors v, t.fold j = false) (i : Fin n) :
    t.layerShare v i = Layers.gain t.bet (t.best t.staying v) 0 v i := by
  have hself : Layers.reach t.bet (t.best t.staying v) v = t.layerWinners v := by
    rw [layerWinners_eq]
    exact filter_true_of_mem fun j hj => (mem_filter.mp hj).2.1
  rw [Layers.gain, hself, ← t.layerBet_eq, ← t.contributors_eq, layerShare]
  by_cases hshared : t.Shared v
  · rw [if_pos hshared]
    rfl
  · -- a single contributor is the winner
    obtain ⟨k, hk, hkfold⟩ := hv
    have hone : (t.contributors v).card = 1 := by
      have := card_pos.mpr ⟨k, hk⟩
      by_contra hne
      exact hshared ⟨by omega, k, hk, hkfold⟩
    obtain ⟨x, hx⟩ := card_eq_one.mp hone
    have hwinners : t.layerWinners v = t.contributors v := by
      refine filter_true_of_mem fun q hq => ?_
      rw [hx] at hk hq
      obtain rfl := mem_singleton.mp hk
      obtain rfl := mem_singleton.mp hq
      refine ⟨hkfold, fun y hy _ => ?_⟩
      rw [hx] at hy
      rw [mem_singleton.mp hy]
    rw [if_neg hshared, hwinners, hone, mul_one, Nat.div_one]

/-- What the ranking pays and what is left over are the payouts by layers. -/
lemma won_add_rest (i : Fin n) :
    t.won t.staying 0 i + (t.bet i - t.staying.toFinset.sup t.bet) = t.sidePots i := by
  have hle : t.staying.toFinset.sup t.bet ≤ univ.sup t.bet := sup_mono (subset_univ _)
  rw [sidePots, betLevels_eq, Layers.sum_layers_split _ hle, Nat.zero_max, won]
  congr 1
  · refine sum_congr rfl fun v hv => (t.layerShare_eq_gain ?_ i).symm
    obtain ⟨-, hpos, hvc⟩ := Layers.mem_layers.mp hv
    have hne : t.staying.toFinset.Nonempty := by
      by_contra hempty
      rw [not_nonempty_iff_eq_empty.mp hempty, sup_empty] at hvc
      exact absurd hvc (by simpa using hpos.ne')
    obtain ⟨j, hj, hcj⟩ := exists_mem_eq_sup _ hne t.bet
    exact ⟨j, by simpa [contributors, ← hcj] using hvc, by simpa using hj⟩
  · rw [← Layers.sum_layers_of_le (b := t.bet) (le_sup (f := t.bet) (mem_univ i))]
    refine sum_congr rfl fun v hv => ?_
    obtain ⟨-, hcv, -⟩ := Layers.mem_layers.mp hv
    have hfold : ¬ t.Shared v := by
      rintro ⟨-, j, hj, hjfold⟩
      have hjv : v ≤ t.bet j := by simpa [contributors] using hj
      have := le_sup (f := t.bet) (show j ∈ t.staying.toFinset by simpa using hjfold)
      omega
    rw [layerShare, if_neg hfold, t.layerBet_eq, t.below_sup _ hcv]
    simp only [contributors, mem_filter, mem_univ, true_and]

/-- **The payouts are the side pots**: when every shared layer divides evenly among its winners,
every player is credited the shares of all layers, and this is what `endNormal` returns, unless the
encoder refuses the announcement that follows.

**Proof sketch.** Everything up to the largest bet of a rank is settled with that rank, layer by
layer (`settle_iff`). The layers above the bets of all who have not folded are what the others take
back. -/
theorem credited_eq_sidePots (h : t.LayersDivide) : t.credited = some t.sidePots ∧
    t.endNormal = if t.client && !t.encodes then none else some t.sidePots := by
  have hties := t.tiesDivide_iff.mp (t.tiesDivide_of_layersDivide h)
  have hn : t.staying.Nodup := (List.nodup_finRange n).filter _
  have hs₀ : (⟨t.bet, fun _ => 0⟩ : Purse n).uidBet = fun i => t.bet i - 0 := rfl
  obtain ⟨s, hs, htotal, hbet, hwon⟩ := (t.settle_iff 10 hn hs₀).1 hties
  have hpaid : (fun i => s.calcDetails i + s.uidBet i) = t.sidePots := by
    funext i
    simp only [hwon, hbet, Nat.zero_add, Nat.zero_max]
    exact t.won_add_rest i
  have hsum : ∑ i, t.sidePots i = ∑ i, t.bet i := by
    rw [← hpaid]
    simpa [Purse.total, sum_add_distrib] using htotal
  refine ⟨?_, ?_⟩
  · rw [credited, uidRank, hs, Option.map_some, hpaid]
  · have hkept : ∑ i, (t.chips i + t.bet i) =
        ∑ i, (t.chips i + (s.calcDetails i + s.uidBet i)) := by
      rw [sum_add_distrib, sum_add_distrib, ← hsum, ← hpaid]
    rw [endNormal, uidRank, hs, Option.bind_some]
    dsimp only
    rw [if_neg (not_not.mpr hkept), hpaid]

/-- Two players tie with a bet of four each against one all in with two. -/
def splitLayers : Showdown 3 :=
  ⟨![96, 96, 0], ![4, 4, 2], fun _ => false, ![1, 1, 0], false, by decide⟩

/-- The tied players divide both layers. -/
theorem splitLayers_paid : splitLayers.credited = some splitLayers.sidePots ∧
    splitLayers.sidePots 0 = 5 ∧ splitLayers.sidePots 1 = 5 ∧ splitLayers.sidePots 2 = 0 :=
  ⟨(splitLayers.credited_eq_sidePots (by decide)).1, by decide, by decide, by decide⟩

end Showdown

end Texas
