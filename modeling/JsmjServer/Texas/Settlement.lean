import JsmjServer.Lib.Layers
import Mathlib.Algebra.BigOperators.Fin
import Mathlib.Data.List.FinRange
import Mathlib.Data.Finset.Sort
import Mathlib.Data.Rat.Lemmas
import Mathlib.Tactic.Linarith

set_option relaxedAutoImplicit false
set_option autoImplicit false
set_option linter.unusedSectionVars false

/-!
# The settlement of a showdown

`endNormal` of `texas/GameLogic.lua`: the players who have not folded are ranked, and rank by rank
the winners take what they covered, tied winners layer by layer. A layer that does not divide
evenly among its winners stops the settlement: the code that would give the odd chips to the
winner nearest to the dealer calls a method that does not exist.

## Main definitions

* `Texas.Showdown` — what a settlement starts from.
* `Texas.Showdown.endNormal` — the chips every player gets, `none` when the code stops before its
  end.
* `Texas.Showdown.TiesDivide`, `Texas.Showdown.PotsDivide` — the conditions for it.

## Main results

* `Texas.Showdown.settle_iff` — the settlement, rank by rank.
* `Texas.Showdown.endNormal_conserves_iff` — when the settlement ends and conserves the chips.

## Design

Amounts are natural numbers, and the quotient of an amount and a number of players is exact, as
Lua's is for amounts below `2 ^ 53`. The best groups enter by their order only. The result is sent
to the clients at the table, and the encoder refuses an amount that is no integer.
-/

namespace Texas

open Finset

/-- What a settlement starts from: the chips left and the total bets of the players, who has
folded, the order of the best groups, and whether a client that is no robot is at the table. -/
structure Showdown (n : ℕ) where
  chips : Fin n → ℕ
  bet : Fin n → ℕ
  fold : Fin n → Bool
  rank : Fin n → ℕ
  client : Bool
  two_left : 2 ≤ (univ.filter fun p => fold p = false).card

namespace Showdown

variable {n : ℕ}

/-! ### The ranking -/

/-- The loop for the largest group among those not used. -/
def maxGroup (t : Showdown n) (p : Fin n) (unused : List (Fin n)) : Fin n :=
  unused.foldl (fun m g => if t.rank m < t.rank g then g else m) p

lemma maxGroup_spec (t : Showdown n) (p : Fin n) (unused : List (Fin n)) :
    t.maxGroup p unused ∈ p :: unused ∧ ∀ q ∈ p :: unused, t.rank q ≤ t.rank (t.maxGroup p unused) := by
  induction unused generalizing p with
  | nil => simp [maxGroup]
  | cons q unused ih =>
    obtain ⟨hmem, hmax⟩ := ih (if t.rank p < t.rank q then q else p)
    have hfold : t.maxGroup p (q :: unused) =
        t.maxGroup (if t.rank p < t.rank q then q else p) unused := rfl
    rw [hfold]
    constructor
    · rcases List.mem_cons.mp hmem with h | h
      · rw [h]
        split_ifs <;> simp
      · exact List.mem_cons_of_mem _ (List.mem_cons_of_mem _ h)
    · have hhead := hmax _ List.mem_cons_self
      intro x hx
      rcases List.mem_cons.mp hx with rfl | hx
      · refine le_trans ?_ hhead
        split_ifs <;> omega
      · rcases List.mem_cons.mp hx with rfl | hx
        · refine le_trans ?_ hhead
          split_ifs <;> omega
        · exact hmax x (List.mem_cons_of_mem _ hx)

/-- The loop that ranks the groups: those equal to the largest one get the weight, the others are
ranked with the next weight. -/
def rankLoop (t : Showdown n) (unused : List (Fin n)) (baseWeight : ℤ) : List (Fin n × ℤ) :=
  match unused with
  | [] => []
  | p :: ps =>
    let m := t.maxGroup p ps
    ((p :: ps).filter fun g => t.rank g = t.rank m).map (fun g => (g, baseWeight)) ++
      t.rankLoop ((p :: ps).filter fun g => t.rank g ≠ t.rank m) (baseWeight - 1)
termination_by unused.length
decreasing_by
  obtain ⟨hmem, -⟩ := t.maxGroup_spec p ps
  exact List.length_filter_lt_length_iff_exists.mpr ⟨_, hmem, by simp⟩

/-- `uidRank`: the players who have not folded with their weights, the best first. -/
def uidRank (t : Showdown n) : List (Fin n × ℤ) :=
  t.rankLoop ((List.finRange n).filter fun p => !t.fold p) 10

/-! ### The settlement -/

/-- `uidBet` and `calcDetails`: the bets not yet settled and the chips won. -/
structure Purse (n : ℕ) where
  uidBet : Fin n → ℕ
  calcDetails : Fin n → ℕ

/-- A single winner takes from every bet what his own bet covers. -/
def winAlone (s : Purse n) (w : Fin n) : Purse n :=
  let winnerBet := s.uidBet w
  if winnerBet ≠ 0 then
    { uidBet := fun i =>
        if i = w then 0
        else s.uidBet i - (if s.uidBet i > winnerBet then winnerBet else s.uidBet i)
      calcDetails := Function.update s.calcDetails w (s.calcDetails w + ∑ i,
        if i = w then s.uidBet i
        else if s.uidBet i > winnerBet then winnerBet else s.uidBet i) }
  else s

/-- The loop for the smallest bet that is not zero. -/
def minWinBet (uidBet : Fin n → ℕ) : Option ℕ :=
  (((List.finRange n).map uidBet).filter fun v => v ≠ 0).min?

lemma minWinBet_eq_none {uidBet : Fin n → ℕ} (h : minWinBet uidBet = none) (i : Fin n) :
    uidBet i = 0 := by
  have hall : ∀ i, uidBet i = 0 := by
    simpa [minWinBet, List.min?_eq_none_iff] using h
  exact hall i

lemma minWinBet_eq_some {uidBet : Fin n → ℕ} {m : ℕ} (h : minWinBet uidBet = some m) :
    m ≠ 0 ∧ (∃ j, uidBet j = m) ∧ ∀ i, uidBet i ≠ 0 → m ≤ uidBet i := by
  obtain ⟨hmem, hmin⟩ := List.min?_eq_some_iff.mp h
  simp only [List.mem_filter, List.mem_map, List.mem_finRange, true_and, decide_eq_true_eq,
    ne_eq] at hmem hmin
  exact ⟨hmem.2, hmem.1, fun i hi => hmin _ ⟨⟨i, rfl⟩, hi⟩⟩

/-- One layer for tied winners: everyone with a bet of at least `m` gives `m`; the winners take
back their own and divide the rest. `none` when the rest does not divide. -/
def layer (W : List (Fin n)) (s : Purse n) (m : ℕ) : Option (Purse n) :=
  let totalWinPlayers := W.filter fun i => m ≤ s.uidBet i
  let losers := (List.finRange n).filter fun i => i ∉ W ∧ m ≤ s.uidBet i
  let totalWinMoney := (losers.map fun _ => m).sum
  let modWinMoney := totalWinMoney % totalWinPlayers.length
  let eachWinMoney := (totalWinMoney - modWinMoney) / totalWinPlayers.length
  -- the odd chips go to the winner nearest to the dealer by `getPositionOffset`, which is nil
  if modWinMoney ≠ 0 then none
  else some
    { uidBet := fun i => if m ≤ s.uidBet i then s.uidBet i - m else s.uidBet i
      calcDetails := fun i =>
        if i ∈ totalWinPlayers then s.calcDetails i + m + eachWinMoney else s.calcDetails i }

lemma layer_uidBet {W : List (Fin n)} {s s' : Purse n} {m : ℕ} (h : layer W s m = some s') :
    s'.uidBet = fun i => if m ≤ s.uidBet i then s.uidBet i - m else s.uidBet i := by
  simp only [layer] at h
  split_ifs at h
  cases h
  rfl

/-- The loop for tied winners: it ends when the losers have nothing left, and the winners take
back the rest of their own, or when the winners have nothing left. -/
def tieLoop (W : List (Fin n)) (s : Purse n) : Option (Purse n) :=
  if ∀ i, i ∉ W → s.uidBet i = 0 then
    some
      { uidBet := fun i => if i ∈ W then 0 else s.uidBet i
        calcDetails := fun i => if i ∈ W then s.calcDetails i + s.uidBet i else s.calcDetails i }
  else if ∀ i ∈ W, s.uidBet i = 0 then some s
  else
    match _hm : minWinBet s.uidBet with
    | none => none
    | some m =>
      match _hs : layer W s m with
      | none => none
      | some s' => tieLoop W s'
termination_by ∑ i, s.uidBet i
decreasing_by
  obtain ⟨hpos, ⟨j, hj⟩, -⟩ := minWinBet_eq_some _hm
  rw [layer_uidBet _hs]
  refine sum_lt_sum (fun i _ => ?_) ⟨j, mem_univ j, ?_⟩
  · split_ifs <;> omega
  · rw [hj, if_pos le_rfl]
    omega

/-- The loop over the ranking: the players with the weight of the first one are the winners, then
they leave the ranking. -/
def settle (uidRank : List (Fin n × ℤ)) (s : Purse n) : Option (Purse n) :=
  match uidRank with
  | [] => some s
  | (p, winnerWeight) :: rest =>
    let winnersUid := (((p, winnerWeight) :: rest).filter fun v => v.2 = winnerWeight).map Prod.fst
    (if winnersUid.length = 1 then some (winAlone s p) else tieLoop winnersUid s).bind fun s' =>
      settle (((p, winnerWeight) :: rest).drop winnersUid.length) s'
termination_by uidRank.length
decreasing_by
  simp only [List.length_map, List.length_drop, List.length_cons, List.filter_cons_of_pos,
    decide_true]
  omega

/-! ### The announcement -/

/-- The units of the pots: the steps between the initial chips of the players. -/
def betUnits : ℕ → List ℕ → List ℕ
  | _, [] => []
  | tmpChipsAmount, tmpChips :: rest => (tmpChips - tmpChipsAmount) :: betUnits tmpChips rest

/-- The part of `calcPotInfo` for a player: what a bet puts into the pots. -/
def fill : List ℕ → ℕ → List (Option ℕ)
  | [], _ => []
  | betUnit :: rest, playerBets =>
    if playerBets > betUnit then some betUnit :: fill rest (playerBets - betUnit)
    else if playerBets > 0 then some playerBets :: fill rest 0
    else none :: fill rest playerBets

/-- `betPot2`: the pots by the initial chips, each with the amounts of its players. -/
def betPot2 (t : Showdown n) : List (Fin n → Option ℕ) :=
  let units := betUnits 0 ((univ.image fun i => t.chips i + t.bet i).sort (· ≤ ·))
  (List.range units.length).map fun k i => ((fill units (t.bet i))[k]?).join

/-- The players of a pot with the largest weight. -/
def maxRank (t : Showdown n) (pot : Fin n → Option ℕ) : List (Fin n × ℤ) :=
  (((List.finRange n).filter fun i => (pot i).isSome).filterMap fun i =>
    (t.uidRank.lookup i).map fun weight => (i, weight)).foldl
    (fun best v => match best with
      | [] => [v]
      | b :: _ => if v.2 > b.2 then [v] else if v.2 = b.2 then best ++ [v] else best) []

/-- `potBetInfo`: the winners of the pots that have any. -/
def potBetInfo (t : Showdown n) : List (List (Fin n × ℤ)) :=
  (t.betPot2.map t.maxRank).filter fun best => !best.isEmpty

/-- `WinChips` of a pot: the share of a winner less what he put in himself. -/
def winChips (winners : List (Fin n × ℤ)) (pot : Fin n → Option ℕ) : Option ℚ := do
  guard (winners.all fun v => (pot v.1).isSome)
  let last ← winners.getLast?
  let own ← pot last.1
  return ((∑ i, (pot i).getD 0 : ℕ) : ℚ) / winners.length - own

/-- The encoder accepts the result: every `WinChips` is an integer. -/
def encodes (t : Showdown n) : Bool :=
  (t.potBetInfo.zip t.betPot2).all fun x => (winChips x.1 x.2).any fun q => q.den = 1

/-- `endNormal`: the chips every player gets, `none` when the code stops before its end. -/
def endNormal (t : Showdown n) : Option (Fin n → ℕ) :=
  (settle t.uidRank ⟨t.bet, fun _ => 0⟩).bind fun s =>
    let added := fun i => s.calcDetails i + s.uidBet i
    if ∑ i, (t.chips i + t.bet i) ≠ ∑ i, (t.chips i + added i) then none
    else if t.client && !t.encodes then none
    else some added

/-! ### One rank -/

section Rank

variable {b : Fin n → ℕ} {W : List (Fin n)} {s s' : Purse n} {u m : ℕ}

/-- The chips at stake: won or not yet settled. -/
def Purse.total (s : Purse n) : ℕ := ∑ i, s.calcDetails i + ∑ i, s.uidBet i

/-- When everything up to the level `u` is settled, the smallest bet left gives the next level. -/
lemma gap_of_minWinBet (hs : s.uidBet = fun i => b i - u) (hm : minWinBet s.uidBet = some m) :
    u < u + m ∧ (∃ j, b j = u + m) ∧ Layers.Gap b u (u + m) := by
  obtain ⟨hpos, ⟨j, hj⟩, hmin⟩ := minWinBet_eq_some hm
  simp only [hs] at hj hmin
  refine ⟨by omega, ⟨j, by omega⟩, fun i => ?_⟩
  by_cases hi : b i - u = 0
  · left
    omega
  · right
    have := hmin i hi
    omega

/-- A layer that divides gives the winners their shares of it, settles everything up to the next
level and conserves the chips. -/
lemma layer_spec (hW : W.Nodup) (hs : s.uidBet = fun i => b i - u)
    (hm : minWinBet s.uidBet = some m) :
    ((Layers.reach b W.toFinset (u + m)).card ∣
        (u + m - u) * (Layers.reach b W.toFinsetᶜ (u + m)).card →
      ∃ s', layer W s m = some s' ∧ s'.uidBet = (fun i => b i - (u + m)) ∧
        s'.total = s.total ∧
        s'.calcDetails = fun i => s.calcDetails i + Layers.gain b W.toFinset u (u + m) i) ∧
    (¬ (Layers.reach b W.toFinset (u + m)).card ∣
        (u + m - u) * (Layers.reach b W.toFinsetᶜ (u + m)).card → layer W s m = none) := by
  obtain ⟨hlt, -, hgap⟩ := gap_of_minWinBet hs hm
  have hreach : ∀ i, m ≤ s.uidBet i ↔ u + m ≤ b i := by
    intro i
    simp only [hs]
    omega
  have hwin : (W.filter fun i => m ≤ s.uidBet i).toFinset =
      Layers.reach b W.toFinset (u + m) := by
    ext i
    simp [Layers.reach, hreach]
  have hw : (W.filter fun i => m ≤ s.uidBet i).length =
      (Layers.reach b W.toFinset (u + m)).card := by
    rw [← hwin, List.toFinset_card_of_nodup (hW.filter _)]
  have hlose : ((List.finRange n).filter fun i => i ∉ W ∧ m ≤ s.uidBet i).toFinset =
      Layers.reach b W.toFinsetᶜ (u + m) := by
    ext i
    simp [Layers.reach, hreach]
  have hl : ((List.finRange n).filter fun i => i ∉ W ∧ m ≤ s.uidBet i).length =
      (Layers.reach b W.toFinsetᶜ (u + m)).card := by
    rw [← hlose, List.toFinset_card_of_nodup ((List.nodup_finRange n).filter _)]
  have hmem : ∀ i, (i ∈ W.filter fun i => m ≤ s.uidBet i) ↔
      i ∈ Layers.reach b W.toFinset (u + m) := by
    intro i
    rw [← hwin, List.mem_toFinset]
  have hbets : (fun i => if m ≤ s.uidBet i then s.uidBet i - m else s.uidBet i) =
      fun i => b i - (u + m) := by
    funext i
    rcases hgap i with hi | hi
    · rw [if_neg (by rw [hreach]; omega)]
      simp only [hs]
      omega
    · rw [if_pos ((hreach i).mpr hi)]
      simp only [hs]
      omega
  simp only [layer, List.map_const', List.sum_replicate, smul_eq_mul, hw, hl, hmem, hbets,
    Nat.add_sub_cancel_left]
  generalize hcw : (Layers.reach b W.toFinset (u + m)).card = w at hw ⊢
  generalize hcl : (Layers.reach b W.toFinsetᶜ (u + m)).card = l at hl ⊢
  constructor
  · intro hdvd
    rw [mul_comm] at hdvd
    have hmod : l * m % w = 0 := Nat.mod_eq_zero_of_dvd hdvd
    have hall : w + l = (Layers.reach b univ (u + m)).card := by
      rw [← hcw, ← hcl, Layers.card_reach_add_compl]
    refine ⟨_, if_neg (by simp [hmod]), rfl, ?_, ?_⟩
    rotate_left
    · funext i
      rw [Layers.gain, Layers.below_of_gap hgap, ← hall, hcw, Nat.add_sub_cancel_left]
      by_cases hi : i ∈ Layers.reach b W.toFinset (u + m)
      · have hpos : 0 < w := hcw ▸ card_pos.mpr ⟨i, hi⟩
        simp only [if_pos hi]
        rw [hmod, Nat.sub_zero, Nat.mul_add, mul_comm m w, Nat.mul_add_div hpos, mul_comm l m,
          add_assoc]
      · simp only [if_neg hi, add_zero]
    have hshare : w * (l * m / w) = l * m := Nat.mul_div_cancel' hdvd
    have hwon := Layers.sum_ite_add (Layers.reach b W.toFinset (u + m)) s.calcDetails
      (m + l * m / w)
    have hbet := Layers.sum_sub univ hlt.le hgap
    rw [← Layers.card_reach_add_compl W.toFinset, hcw, hcl, Nat.add_sub_cancel_left] at hbet
    simp only [Purse.total, hmod, Nat.sub_zero, add_assoc, hwon, hs, hbet, hcw]
    rw [mul_add w, hshare, mul_add m, mul_comm m w, mul_comm m l]
    omega
  · intro hdvd
    rw [mul_comm] at hdvd
    exact if_pos fun hmod => hdvd (Nat.dvd_of_mod_eq_zero hmod)

/-- A pass of the loop. -/
lemma tieLoop_eq (hlose : ¬ ∀ i, i ∉ W → s.uidBet i = 0) (hwin : ¬ ∀ i ∈ W, s.uidBet i = 0)
    (hm : minWinBet s.uidBet = some m) : tieLoop W s = (layer W s m).bind (tieLoop W) := by
  rw [tieLoop, if_neg hlose, if_neg hwin]
  split
  · next h => simp [hm] at h
  · next m' h =>
    obtain rfl : m = m' := Option.some.inj (hm.symm.trans h)
    split
    · next hs => rw [hs, Option.bind_none]
    · next hs => rw [hs, Option.bind_some]

/-- Tied winners: the loop ends exactly when every layer divides, and then everything up to the
largest bet of a winner is settled, layer by layer.

**Proof sketch.** By induction on the chips not yet settled. What is settled is always everything
up to a level; a pass of the loop settles the layer up to the next value of a bet. The loop ends
when the losers are below the level, so that the other layers hold nothing of theirs, or when the
winners are, so that the other layers are not shared. -/
lemma tieLoop_iff (hW : W.Nodup) (hs : s.uidBet = fun i => b i - u) :
    (Layers.Even b W.toFinset u → ∃ s', tieLoop W s = some s' ∧
      s'.uidBet = (fun i => b i - max u (W.toFinset.sup b)) ∧ s'.total = s.total ∧
      s'.calcDetails = fun i => s.calcDetails i + Layers.gains b W.toFinset u i) ∧
    (¬ Layers.Even b W.toFinset u → tieLoop W s = none) := by
  induction hk : ∑ i, s.uidBet i using Nat.strong_induction_on generalizing s u with
  | _ k ih =>
  by_cases hlose : ∀ i, i ∉ W → s.uidBet i = 0
  · -- the losers have nothing left
    rw [tieLoop, if_pos hlose]
    have hle : ∀ i, i ∉ W → b i ≤ u := by
      intro i hi
      have := hlose i hi
      simp only [hs] at this
      omega
    refine ⟨fun _ => ⟨_, rfl, ?_, ?_, ?_⟩, fun heven => absurd ?_ heven⟩
    · funext i
      by_cases hi : i ∈ W
      · have hsup : b i ≤ W.toFinset.sup b := le_sup (f := b) (List.mem_toFinset.mpr hi)
        simp only [if_pos hi]
        omega
      · have := hle i hi
        simp only [if_neg hi, hs]
        omega
    · simp only [Purse.total, ← sum_add_distrib]
      refine sum_congr rfl fun i _ => ?_
      split_ifs <;> omega
    · funext i
      rw [Layers.gains_of_compl_le fun i hi => hle i (by simpa using hi)]
      simp only [List.mem_toFinset, hs]
      split_ifs <;> rfl
    · intro j hj _
      have hempty : Layers.reach b W.toFinsetᶜ (b j) = ∅ := by
        refine filter_eq_empty_iff.mpr fun i hi => ?_
        have := hle i (by simpa using hi)
        omega
      simp [hempty]
  by_cases hwin : ∀ i ∈ W, s.uidBet i = 0
  · -- the winners have nothing left
    rw [tieLoop, if_neg hlose, if_pos hwin]
    have hle : ∀ i ∈ W, b i ≤ u := by
      intro i hi
      have := hwin i hi
      simp only [hs] at this
      omega
    have hsup : W.toFinset.sup b ≤ u := Finset.sup_le fun i hi => hle i (List.mem_toFinset.mp hi)
    refine ⟨fun _ => ⟨_, rfl, ?_, rfl, ?_⟩, fun heven => absurd ?_ heven⟩
    · rw [max_eq_left hsup, hs]
    · funext i
      rw [Layers.gains_of_sup_le hsup, add_zero]
    · rintro j hj ⟨i, hi⟩
      have hij := (mem_filter.mp hi).2
      have := hle i (List.mem_toFinset.mp (mem_filter.mp hi).1)
      omega
  cases hm : minWinBet s.uidBet with
  | none =>
    exact absurd (fun i _ => minWinBet_eq_none hm i) hwin
  | some m =>
    obtain ⟨hlt, ⟨j, hj⟩, hgap⟩ := gap_of_minWinBet hs hm
    have hne : (Layers.reach b W.toFinset (u + m)).Nonempty := by
      obtain ⟨i, hi, hbi⟩ : ∃ i ∈ W, s.uidBet i ≠ 0 := by simpa using hwin
      have hmin := (minWinBet_eq_some hm).2.2 i hbi
      simp only [hs] at hmin
      exact ⟨i, mem_filter.mpr ⟨List.mem_toFinset.mpr hi, by omega⟩⟩
    obtain ⟨hyes, hno⟩ := layer_spec hW hs hm
    rw [Layers.even_step hlt hj hgap, tieLoop_eq hlose hwin hm]
    by_cases hdvd : (Layers.reach b W.toFinset (u + m)).card ∣
        (u + m - u) * (Layers.reach b W.toFinsetᶜ (u + m)).card
    · obtain ⟨s', hlayer, hs', htotal, hgain⟩ := hyes hdvd
      have hless : ∑ i, s'.uidBet i < k := by
        rw [← hk, hs, hs']
        refine sum_lt_sum (fun i _ => by omega) ⟨j, mem_univ j, ?_⟩
        omega
      obtain ⟨hthen, helse⟩ := ih _ hless hs' rfl
      rw [hlayer, Option.bind_some]
      refine ⟨fun heven => ?_, fun heven => helse fun h => heven ⟨fun _ => hdvd, h⟩⟩
      obtain ⟨s'', hs'', hbet, htotal', hgains⟩ := hthen heven.2
      obtain ⟨i, hi⟩ := hne
      have hsup : u + m ≤ W.toFinset.sup b :=
        (mem_filter.mp hi).2.trans (le_sup (f := b) (mem_filter.mp hi).1)
      refine ⟨s'', hs'', ?_, htotal'.trans htotal, ?_⟩
      · rw [hbet, max_eq_right hsup, max_eq_right (by omega)]
      · funext i
        simp only [hgains, hgain]
        rw [Layers.gains_step hlt hj hgap hsup, add_assoc]
    · rw [hno hdvd, Option.bind_none]
      exact ⟨fun heven => absurd (heven.1 hne) hdvd, fun _ => rfl⟩

/-- A single winner: everything up to his bet is settled. -/
lemma winAlone_spec (w : Fin n) (hs : s.uidBet = fun i => b i - u) :
    (winAlone s w).uidBet = (fun i => b i - max u (b w)) ∧ (winAlone s w).total = s.total ∧
      (winAlone s w).calcDetails = fun i => s.calcDetails i + Layers.gains b {w} u i := by
  have hw : s.uidBet w = b w - u := by rw [hs]
  by_cases hzero : s.uidBet w = 0
  · simp only [winAlone, hzero, ne_eq, not_true, if_false]
    have hle : b w ≤ u := by omega
    refine ⟨?_, trivial, ?_⟩
    · rw [max_eq_left hle]
      exact hs
    · funext i
      rw [Layers.gains_of_sup_le (by simpa using hle), add_zero]
  · have hmax : max u (b w) = b w := max_eq_right (by omega)
    simp only [winAlone, if_pos hzero, hmax]
    refine ⟨?_, ?_, ?_⟩
    · funext i
      rcases eq_or_ne i w with rfl | hi
      · simp
      · simp only [if_neg hi, hs]
        split_ifs <;> omega
    rotate_left
    · funext i
      rw [Layers.gains_singleton]
      rcases eq_or_ne i w with rfl | hi
      · rw [Function.update_self, if_pos rfl]
        congr 1
        refine sum_congr rfl fun j _ => ?_
        have hj : s.uidBet j = b j - u := by rw [hs]
        rw [hj, hw]
        rcases eq_or_ne j i with rfl | hji
        · rw [if_pos rfl, min_self]
        · rw [if_neg hji]
          split_ifs <;> omega
      · rw [Function.update_of_ne hi, if_neg hi, add_zero]
    · have hdetails := sum_update_of_mem (mem_univ w) s.calcDetails (s.calcDetails w + ∑ i,
        if i = w then s.uidBet i
        else if s.uidBet i > s.uidBet w then s.uidBet w else s.uidBet i)
      have hown := add_sum_erase univ s.calcDetails (mem_univ w)
      have hbets : ∑ i, s.uidBet i = (∑ i, if i = w then s.uidBet i
          else if s.uidBet i > s.uidBet w then s.uidBet w else s.uidBet i) +
          ∑ i, (if i = w then 0 else s.uidBet i -
            if s.uidBet i > s.uidBet w then s.uidBet w else s.uidBet i) := by
        rw [← sum_add_distrib]
        refine sum_congr rfl fun i _ => ?_
        split_ifs <;> omega
      rw [sdiff_singleton_eq_erase] at hdetails
      simp only [Purse.total, hdetails, hbets, ← hown]
      omega

/-- The winners of one rank: the settlement goes on exactly when every layer divides among them. -/
lemma settleRank_iff {p : Fin n} (hW : W.Nodup) (hp : W.head? = some p)
    (hs : s.uidBet = fun i => b i - u) :
    (Layers.Even b W.toFinset u →
      ∃ s', (if W.length = 1 then some (winAlone s p) else tieLoop W s) = some s' ∧
        s'.uidBet = (fun i => b i - max u (W.toFinset.sup b)) ∧ s'.total = s.total ∧
        s'.calcDetails = fun i => s.calcDetails i + Layers.gains b W.toFinset u i) ∧
    (¬ Layers.Even b W.toFinset u →
      (if W.length = 1 then some (winAlone s p) else tieLoop W s) = none) := by
  split_ifs with hlen
  · obtain ⟨w, rfl⟩ := List.length_eq_one_iff.mp hlen
    obtain rfl : w = p := by simpa using hp
    obtain ⟨hbet, htotal, hgains⟩ := winAlone_spec w hs
    refine ⟨fun _ => ⟨_, rfl, by simpa using hbet, htotal, by simpa using hgains⟩,
      fun heven => absurd ?_ heven⟩
    simpa using Layers.even_singleton w u
  · exact tieLoop_iff hW hs

end Rank

/-! ### Rank by rank -/

section Ranks

variable (t : Showdown n)

lemma rankLoop_weight_le (unused : List (Fin n)) (base : ℤ) :
    ∀ v ∈ t.rankLoop unused base, v.2 ≤ base := by
  fun_induction rankLoop t unused base with
  | case1 => simp
  | case2 base p ps m ih =>
    intro v hv
    rcases List.mem_append.mp hv with hv | hv
    · obtain ⟨g, -, rfl⟩ := List.mem_map.mp hv
      exact le_rfl
    · have := ih v hv
      omega

/-- The players of a list with the rank of a player. -/
def rankOf (unused : List (Fin n)) (p : Fin n) : Finset (Fin n) :=
  (unused.filter fun q => t.rank q = t.rank p).toFinset

/-- The largest bet of the players of a list who are better than a player. -/
def covered (unused : List (Fin n)) (p : Fin n) : ℕ :=
  ((unused.filter fun q => t.rank p < t.rank q).toFinset).sup t.bet

/-- Every layer of every rank divides evenly among its winners, when everything up to `u` is
settled. -/
def RanksEven (unused : List (Fin n)) (u : ℕ) : Prop :=
  ∀ p ∈ unused, Layers.Even t.bet (t.rankOf unused p) (max u (t.covered unused p))

/-- The best rank first. -/
lemma ranksEven_iff {unused : List (Fin n)} {m : Fin n} (hm : m ∈ unused)
    (hmax : ∀ q ∈ unused, t.rank q ≤ t.rank m) (u : ℕ) :
    t.RanksEven unused u ↔ Layers.Even t.bet (t.rankOf unused m) u ∧
      t.RanksEven (unused.filter fun q => t.rank q ≠ t.rank m)
        (max u ((t.rankOf unused m).sup t.bet)) := by
  have hbest : ∀ p ∈ unused, t.rank p = t.rank m →
      t.rankOf unused p = t.rankOf unused m ∧ t.covered unused p = 0 := by
    intro p _ hp
    refine ⟨by simp only [rankOf, hp], ?_⟩
    have hempty : (unused.filter fun q => t.rank p < t.rank q) = [] := by
      refine List.filter_eq_nil_iff.mpr fun q hq => ?_
      have := hmax q hq
      simp only [decide_eq_true_eq]
      omega
    simp [covered, hempty]
  have hrest : ∀ p ∈ unused, t.rank p ≠ t.rank m →
      t.rankOf (unused.filter fun q => t.rank q ≠ t.rank m) p = t.rankOf unused p ∧
      max (max u ((t.rankOf unused m).sup t.bet))
        (t.covered (unused.filter fun q => t.rank q ≠ t.rank m) p) =
      max u (t.covered unused p) := by
    intro p hp hne
    have hlt : t.rank p < t.rank m := lt_of_le_of_ne (hmax p hp) hne
    constructor
    · ext q
      simp only [rankOf, List.mem_toFinset, List.mem_filter, decide_eq_true_eq, ne_eq]
      constructor
      · rintro ⟨⟨hq, -⟩, heq⟩
        exact ⟨hq, heq⟩
      · rintro ⟨hq, heq⟩
        exact ⟨⟨hq, by omega⟩, heq⟩
    · have hunion : (unused.filter fun q => t.rank p < t.rank q).toFinset =
          t.rankOf unused m ∪ ((unused.filter fun q => t.rank q ≠ t.rank m).filter
            fun q => t.rank p < t.rank q).toFinset := by
        ext q
        simp only [rankOf, mem_union, List.mem_toFinset, List.mem_filter, decide_eq_true_eq, ne_eq]
        constructor
        · rintro ⟨hq, hpq⟩
          by_cases heq : t.rank q = t.rank m
          · exact .inl ⟨hq, heq⟩
          · exact .inr ⟨⟨hq, heq⟩, hpq⟩
        · rintro (⟨hq, heq⟩ | ⟨⟨hq, -⟩, hpq⟩)
          · exact ⟨hq, by omega⟩
          · exact ⟨hq, hpq⟩
      rw [covered, covered, hunion, sup_union, max_assoc]
  constructor
  · intro h
    refine ⟨?_, fun p hp => ?_⟩
    · have heven := h m hm
      rwa [(hbest m hm rfl).2, max_eq_left (Nat.zero_le u)] at heven
    · obtain ⟨hp, hne⟩ : p ∈ unused ∧ t.rank p ≠ t.rank m := by simpa using hp
      rw [(hrest p hp hne).1, (hrest p hp hne).2]
      exact h p hp
  · rintro ⟨hfirst, h⟩ p hp
    by_cases heq : t.rank p = t.rank m
    · rwa [(hbest p hp heq).1, (hbest p hp heq).2, max_eq_left (Nat.zero_le u)]
    · have heven := h p (by simpa using ⟨hp, heq⟩)
      rwa [(hrest p hp heq).1, (hrest p hp heq).2] at heven

/-- The winners at the head of a ranking are settled first. -/
lemma settle_append {p : Fin n} {W : List (Fin n)} {w : ℤ} {rest : List (Fin n × ℤ)}
    {s : Purse n} (hp : W.head? = some p) (hrest : ∀ v ∈ rest, v.2 < w) :
    settle (W.map (fun g => (g, w)) ++ rest) s =
      (if W.length = 1 then some (winAlone s p) else tieLoop W s).bind (settle rest) := by
  cases W with
  | nil => cases hp
  | cons q W =>
    obtain rfl : q = p := by simpa using hp
    have hrest' : (rest.filter fun v => v.2 = w) = [] := by
      refine List.filter_eq_nil_iff.mpr fun v hv => ?_
      have := hrest v hv
      simp only [decide_eq_true_eq]
      omega
    have hW : (((q, w) :: (W.map (fun g => (g, w)) ++ rest)).filter fun v => v.2 = w).map
        Prod.fst = q :: W := by
      rw [List.filter_cons_of_pos (by simp), List.filter_append, hrest', List.append_nil,
        List.filter_eq_self.mpr (by simp), List.map_cons, List.map_map]
      exact congrArg (q :: ·) (List.map_id W)
    rw [List.map_cons, List.cons_append, settle, hW]
    have hdrop : ((q, w) :: (W.map (fun g => (g, w)) ++ rest)).drop (q :: W).length = rest := by
      simp
    simp only [hdrop]

/-- Of the players of a list who have bet as much as `v`, those with the best group. -/
def best (unused : List (Fin n)) (v : ℕ) : Finset (Fin n) :=
  unused.toFinset.filter fun i =>
    v ≤ t.bet i ∧ ∀ j ∈ unused, v ≤ t.bet j → t.rank j ≤ t.rank i

/-- What the players of a list get when the best of them divide every layer above `u`. -/
def won (unused : List (Fin n)) (u : ℕ) (i : Fin n) : ℕ :=
  ∑ v ∈ Layers.layers t.bet u (unused.toFinset.sup t.bet),
    Layers.gain t.bet (t.best unused v) u v i

/-- The players of a rank, and the others. -/
lemma toFinset_eq_union (unused : List (Fin n)) (m : Fin n) : unused.toFinset =
    t.rankOf unused m ∪ (unused.filter fun q => t.rank q ≠ t.rank m).toFinset := by
  ext q
  simp only [rankOf, mem_union, List.mem_toFinset, List.mem_filter, decide_eq_true_eq]
  tauto

/-- The best rank divides the layers it reaches, the others those above them. -/
lemma won_eq {unused : List (Fin n)} {m : Fin n} (hm : m ∈ unused)
    (hmax : ∀ q ∈ unused, t.rank q ≤ t.rank m) (u : ℕ) (i : Fin n) :
    t.won unused u i = Layers.gains t.bet (t.rankOf unused m) u i +
      t.won (unused.filter fun q => t.rank q ≠ t.rank m)
        (max u ((t.rankOf unused m).sup t.bet)) i := by
  set rest := unused.filter fun q => t.rank q ≠ t.rank m with hrest
  set c := (t.rankOf unused m).sup t.bet with hc
  have hsup : unused.toFinset.sup t.bet = max c (rest.toFinset.sup t.bet) := by
    rw [t.toFinset_eq_union unused m, sup_union]
  have hrank : ∀ q, q ∈ t.rankOf unused m ↔ q ∈ unused ∧ t.rank q = t.rank m := by
    simp [rankOf]
  obtain ⟨j, hj, hcj⟩ := exists_mem_eq_sup (t.rankOf unused m) ⟨m, (hrank m).mpr ⟨hm, rfl⟩⟩ t.bet
  rw [won, Layers.sum_layers_split _ (hsup ▸ le_max_left c _)]
  congr 1
  · -- the layers that the best rank reaches
    rw [Layers.gains]
    refine sum_congr rfl fun v hv => ?_
    have hvc := (Layers.mem_layers.mp hv).2.2
    have hbest : t.best unused v = Layers.reach t.bet (t.rankOf unused m) v := by
      ext q
      simp only [best, Layers.reach, mem_filter, List.mem_toFinset, hrank]
      constructor
      · rintro ⟨hq, hvq, hqmax⟩
        have hjq := hqmax j ((hrank j).mp hj).1 (by rw [← hcj]; exact hvc)
        rw [((hrank j).mp hj).2] at hjq
        exact ⟨⟨hq, le_antisymm (hmax q hq) hjq⟩, hvq⟩
      · rintro ⟨⟨hq, heq⟩, hvq⟩
        exact ⟨hq, hvq, fun k hk _ => heq ▸ hmax k hk⟩
    rw [hbest, Layers.gain_reach]
  · -- the layers above
    have hlayers : Layers.layers t.bet (max u c) (unused.toFinset.sup t.bet) =
        Layers.layers t.bet (max u c) (rest.toFinset.sup t.bet) := by
      rcases le_total c (rest.toFinset.sup t.bet) with hle | hle
      · rw [hsup, max_eq_right hle]
      · rw [Layers.layers_eq_empty (by rw [hsup, max_eq_left hle]; exact le_max_right u c),
          Layers.layers_eq_empty (hle.trans (le_max_right u c))]
    rw [won, hlayers]
    refine sum_congr rfl fun v hv => ?_
    have huv := (Layers.mem_layers.mp hv).2.1
    have hbest : t.best unused v = t.best rest v := by
      have hnot : ∀ q ∈ unused, v ≤ t.bet q → t.rank q ≠ t.rank m := by
        intro q hq hvq heq
        have := le_sup (f := t.bet) ((hrank q).mpr ⟨hq, heq⟩)
        omega
      ext q
      simp only [best, mem_filter, List.mem_toFinset, hrest, List.mem_filter, decide_eq_true_eq]
      constructor
      · rintro ⟨hq, hvq, hqmax⟩
        exact ⟨⟨hq, by simpa using hnot q hq hvq⟩, hvq, fun k hk hvk => hqmax k hk.1 hvk⟩
      · rintro ⟨⟨hq, -⟩, hvq, hqmax⟩
        exact ⟨hq, hvq, fun k hk hvk => hqmax k ⟨hk, by simpa using hnot k hk hvk⟩ hvk⟩
    rw [hbest]
    rcases le_total u c with hle | hle
    · rw [max_eq_right hle] at huv ⊢
      exact Layers.gain_of_le hle hcj.symm huv i
    · rw [max_eq_left hle]

/-- The settlement of a ranking ends exactly when every layer of every rank divides, and then the
best players divide every layer that one of the list reaches, and the chips are conserved. -/
lemma settle_iff {unused : List (Fin n)} (base : ℤ) {s : Purse n} {u : ℕ} (hn : unused.Nodup)
    (hs : s.uidBet = fun i => t.bet i - u) :
    (t.RanksEven unused u →
      ∃ s', settle (t.rankLoop unused base) s = some s' ∧ s'.total = s.total ∧
        s'.uidBet = (fun i => t.bet i - max u (unused.toFinset.sup t.bet)) ∧
        s'.calcDetails = fun i => s.calcDetails i + t.won unused u i) ∧
    (¬ t.RanksEven unused u → settle (t.rankLoop unused base) s = none) := by
  fun_induction rankLoop t unused base generalizing s u with
  | case1 =>
    refine ⟨fun _ => ⟨s, by rw [settle], rfl, ?_, ?_⟩, fun h => absurd ?_ h⟩
    · simp [hs]
    · funext i
      rw [won, Layers.layers_eq_empty (by simp), sum_empty, add_zero]
    · simp [RanksEven]
  | case2 base p ps m =>
    rename_i ih
    have hm : m ∈ p :: ps := (t.maxGroup_spec p ps).1
    have hmax : ∀ q ∈ p :: ps, t.rank q ≤ t.rank m := (t.maxGroup_spec p ps).2
    clear_value m
    rw [t.ranksEven_iff hm hmax]
    have hW : ((p :: ps).filter fun g => t.rank g = t.rank m).Nodup := hn.filter _
    obtain ⟨q, hq⟩ : ∃ q, ((p :: ps).filter fun g => t.rank g = t.rank m).head? = some q := by
      refine Option.isSome_iff_exists.mp (List.isSome_head?.mpr ?_)
      exact List.ne_nil_of_mem (List.mem_filter.mpr ⟨hm, by simp⟩)
    have hrest : ∀ v ∈ t.rankLoop ((p :: ps).filter fun g => t.rank g ≠ t.rank m) (base - 1),
        v.2 < base := by
      intro v hv
      have := t.rankLoop_weight_le _ _ v hv
      omega
    rw [settle_append hq hrest]
    obtain ⟨hthen, helse⟩ := settleRank_iff (b := t.bet) hW hq hs
    by_cases heven : Layers.Even t.bet (t.rankOf (p :: ps) m) u
    · obtain ⟨s', hs', hbet, htotal, hgains⟩ := hthen heven
      obtain ⟨ihthen, ihelse⟩ := ih (hn.filter _) hbet
      rw [hs', Option.bind_some]
      refine ⟨fun h => ?_, fun h => ihelse fun hr => h ⟨heven, hr⟩⟩
      obtain ⟨s'', hs'', htotal', hbet', hwon⟩ := ihthen h.2
      refine ⟨s'', hs'', htotal'.trans htotal, ?_, ?_⟩
      · rw [hbet', t.toFinset_eq_union (p :: ps) m, sup_union, max_assoc]
        rfl
      · funext i
        simp only [hwon, hgains]
        rw [t.won_eq hm hmax, add_assoc]
        rfl
    · rw [helse heven, Option.bind_none]
      exact ⟨fun h => absurd h.1 heven, fun _ => rfl⟩

end Ranks

/-! ### Pots -/

section Pots

variable (t : Showdown n)

/-- The winners of a pot: of its players who have not folded, those with the best group. -/
def potWinners (pot : Fin n → Option ℕ) : Finset (Fin n) :=
  univ.filter fun i => ((pot i).isSome ∧ t.fold i = false) ∧
    ∀ j, (pot j).isSome ∧ t.fold j = false → t.rank j ≤ t.rank i

lemma potWinners_nonempty_iff (pot : Fin n → Option ℕ) :
    (t.potWinners pot).Nonempty ↔ ∃ i, (pot i).isSome ∧ t.fold i = false := by
  constructor
  · rintro ⟨i, hi⟩
    exact ⟨i, (mem_filter.mp hi).2.1⟩
  · rintro ⟨i, hi⟩
    obtain ⟨m, hm, hmax⟩ := exists_max_image
      (univ.filter fun i => (pot i).isSome ∧ t.fold i = false) t.rank
      ⟨i, mem_filter.mpr ⟨mem_univ i, hi⟩⟩
    refine ⟨m, mem_filter.mpr ⟨mem_univ m, (mem_filter.mp hm).2, fun j hj => ?_⟩⟩
    exact hmax j (mem_filter.mpr ⟨mem_univ j, hj⟩)

lemma lookup_map_const (W : List (Fin n)) (w : ℤ) (i : Fin n) :
    (W.map fun g => (g, w)).lookup i = if i ∈ W then some w else none := by
  induction W with
  | nil => rfl
  | cons g W ih =>
    by_cases h : i = g
    · subst h
      simp
    · have hne : (i == g) = false := by simpa using h
      rw [List.map_cons, List.lookup_cons, hne, ih]
      simp [h]

/-- The ranking lists exactly the given players, and orders them by their groups. -/
lemma rankLoop_lookup (unused : List (Fin n)) (base : ℤ) :
    (∀ i ∉ unused, (t.rankLoop unused base).lookup i = none) ∧
    ∃ weight : Fin n → ℤ, (∀ i ∈ unused,
      (t.rankLoop unused base).lookup i = some (weight i) ∧ weight i ≤ base) ∧
      ∀ i ∈ unused, ∀ j ∈ unused, weight j ≤ weight i ↔ t.rank j ≤ t.rank i := by
  fun_induction rankLoop t unused base with
  | case1 => exact ⟨fun _ _ => rfl, fun _ => 0, by simp, by simp⟩
  | case2 base p ps m ih =>
    have hmax : ∀ q ∈ p :: ps, t.rank q ≤ t.rank m := (t.maxGroup_spec p ps).2
    clear_value m
    obtain ⟨hnone, weight, hsome, horder⟩ := ih
    have hrest : ∀ i, i ∈ ((p :: ps).filter fun g => t.rank g ≠ t.rank m) ↔
        i ∈ p :: ps ∧ t.rank i ≠ t.rank m := by
      intro i
      rw [List.mem_filter, decide_eq_true_eq]
    have hbest : ∀ i, i ∈ ((p :: ps).filter fun g => t.rank g = t.rank m) ↔
        i ∈ p :: ps ∧ t.rank i = t.rank m := by
      intro i
      rw [List.mem_filter, decide_eq_true_eq]
    refine ⟨fun i hi => ?_, fun i => if t.rank i = t.rank m then base else weight i, ?_, ?_⟩
    · rw [List.lookup_append, lookup_map_const, if_neg (by rw [hbest]; exact fun h => hi h.1),
        hnone i (by rw [hrest]; exact fun h => hi h.1)]
      rfl
    · intro i hi
      dsimp only
      by_cases heq : t.rank i = t.rank m
      · rw [List.lookup_append, lookup_map_const, if_pos ((hbest i).mpr ⟨hi, heq⟩), if_pos heq]
        exact ⟨rfl, le_rfl⟩
      · obtain ⟨hw, hle⟩ := hsome i ((hrest i).mpr ⟨hi, heq⟩)
        rw [List.lookup_append, lookup_map_const, if_neg (by rw [hbest]; exact fun h => heq h.2),
          if_neg heq, hw]
        exact ⟨rfl, by omega⟩
    · intro i hi j hj
      have hi' := hmax i hi
      have hj' := hmax j hj
      dsimp only
      split_ifs with hjm him him
      · omega
      · have := (hsome i ((hrest i).mpr ⟨hi, him⟩)).2
        omega
      · have := (hsome j ((hrest j).mpr ⟨hj, hjm⟩)).2
        omega
      · exact horder i ((hrest i).mpr ⟨hi, him⟩) j ((hrest j).mpr ⟨hj, hjm⟩)

/-- The loop for the largest weight keeps the entries no other entry exceeds. -/
lemma foldl_max_eq_filter (es : List (Fin n × ℤ)) :
    es.foldl (fun best v => match best with
      | [] => [v]
      | b :: _ => if v.2 > b.2 then [v] else if v.2 = b.2 then best ++ [v] else best) [] =
    es.filter fun v => ∀ e ∈ es, e.2 ≤ v.2 := by
  induction es using List.reverseRecOn with
  | nil => rfl
  | append_singleton es v ih =>
    have hsplit : ∀ x : Fin n × ℤ, (∀ e ∈ es ++ [v], e.2 ≤ x.2) ↔
        (∀ e ∈ es, e.2 ≤ x.2) ∧ v.2 ≤ x.2 := by
      intro x
      simp only [List.mem_append, List.mem_singleton, or_imp, forall_and, forall_eq]
    rw [List.foldl_append, ih, List.foldl_cons, List.foldl_nil, List.filter_append]
    simp only [hsplit]
    cases hF : es.filter fun x => ∀ e ∈ es, e.2 ≤ x.2 with
    | nil =>
      -- a list without a largest entry is empty
      have hes : es = [] := by
        by_contra hne
        obtain ⟨x, hx, hmax⟩ := es.toFinset.exists_max_image (fun e => e.2)
          ⟨es.head hne, by simp⟩
        have hmem : x ∈ es.filter fun x => ∀ e ∈ es, e.2 ≤ x.2 :=
          List.mem_filter.mpr ⟨by simpa using hx, by simpa using hmax⟩
        rw [hF] at hmem
        cases hmem
      subst hes
      simp
    | cons b bs =>
      have hb : b ∈ es.filter fun x => ∀ e ∈ es, e.2 ≤ x.2 := by
        rw [hF]
        exact List.mem_cons_self
      obtain ⟨hbmem, hbmax⟩ := List.mem_filter.mp hb
      simp only [decide_eq_true_eq] at hbmax
      dsimp only
      split_ifs with hgt heq
      · have hnil : (es.filter fun x => (∀ e ∈ es, e.2 ≤ x.2) ∧ v.2 ≤ x.2) = [] := by
          refine List.filter_eq_nil_iff.mpr fun x hx => ?_
          have := hbmax x hx
          simp only [decide_eq_true_eq, not_and, not_le]
          omega
        rw [hnil, List.nil_append, List.filter_cons_of_pos, List.filter_nil]
        simp only [le_refl, and_true, decide_eq_true_eq]
        intro e he
        have := hbmax e he
        omega
      all_goals
        have hsame : (es.filter fun x => (∀ e ∈ es, e.2 ≤ x.2) ∧ v.2 ≤ x.2) = b :: bs := by
          rw [← hF]
          refine List.filter_congr fun x _ => ?_
          refine decide_eq_decide.mpr ⟨And.left, fun h => ⟨h, ?_⟩⟩
          have := h b hbmem
          omega
        rw [hsame]
      · rw [List.filter_cons_of_pos, List.filter_nil]
        simp only [le_refl, and_true, decide_eq_true_eq, heq]
        exact hbmax
      · rw [List.filter_cons_of_neg, List.filter_nil, List.append_nil]
        simp only [le_refl, and_true, decide_eq_true_eq]
        intro h
        have := h b hbmem
        omega

/-- The players of a pot in the ranking. -/
lemma exists_weight : ∃ weight : Fin n → ℤ,
    (∀ i j, t.fold i = false → t.fold j = false →
      (weight j ≤ weight i ↔ t.rank j ≤ t.rank i)) ∧
    ∀ pot : Fin n → Option ℕ,
      (((List.finRange n).filter fun i => (pot i).isSome).filterMap fun i =>
        (t.uidRank.lookup i).map fun weight => (i, weight)) =
      ((List.finRange n).filter fun i => (pot i).isSome ∧ t.fold i = false).map
        fun i => (i, weight i) := by
  obtain ⟨hnone, weight, hsome, horder⟩ :=
    t.rankLoop_lookup ((List.finRange n).filter fun p => !t.fold p) 10
  have hmem : ∀ i, i ∈ ((List.finRange n).filter fun p => !t.fold p) ↔ t.fold i = false := by
    simp
  refine ⟨weight, fun i j hi hj => horder i ((hmem i).mpr hi) j ((hmem j).mpr hj), fun pot => ?_⟩
  induction List.finRange n with
  | nil => rfl
  | cons i l ih =>
    cases hpot : pot i with
    | none => simpa [List.filter_cons, hpot] using ih
    | some c =>
      cases hfold : t.fold i with
      | true =>
        have hlook : t.uidRank.lookup i = none := hnone i (by rw [hmem, hfold]; decide)
        simpa [List.filter_cons, hpot, hfold, hlook] using ih
      | false =>
        have hlook : t.uidRank.lookup i = some (weight i) := (hsome i ((hmem i).mpr hfold)).1
        simpa [List.filter_cons, hpot, hfold, hlook] using ih

/-- The loop for the winners of a pot finds them. -/
lemma maxRank_spec (pot : Fin n → Option ℕ) :
    (t.maxRank pot).length = (t.potWinners pot).card ∧
      ∀ v ∈ t.maxRank pot, v.1 ∈ t.potWinners pot := by
  obtain ⟨weight, horder, hentries⟩ := t.exists_weight
  have hmax : t.maxRank pot =
      (((List.finRange n).filter fun i => (pot i).isSome ∧ t.fold i = false).filter
        fun i => i ∈ t.potWinners pot).map fun i => (i, weight i) := by
    rw [maxRank, hentries, foldl_max_eq_filter, List.filter_map]
    congr 1
    refine List.filter_congr fun i hi => decide_eq_decide.mpr ?_
    have hi' : (pot i).isSome ∧ t.fold i = false := by
      simpa using (List.mem_filter.mp hi).2
    simp only [potWinners, mem_filter, mem_univ, true_and, List.mem_map, List.mem_filter,
      List.mem_finRange, decide_eq_true_eq, forall_exists_index, and_imp]
    constructor
    · intro h
      refine ⟨hi', fun j hj hf => ?_⟩
      have := h _ j hj hf rfl
      exact (horder i j hi'.2 hf).mp this
    · rintro ⟨-, h⟩ e j hj hf rfl
      exact (horder i j hi'.2 hf).mpr (h j hj hf)
  constructor
  · rw [hmax, List.length_map, ← List.toFinset_card_of_nodup]
    · congr 1
      ext i
      simp only [List.mem_toFinset, List.mem_filter, List.mem_finRange, true_and,
        decide_eq_true_eq, potWinners, mem_filter, mem_univ]
      constructor
      · exact fun h => h.2
      · exact fun h => ⟨h.1, h⟩
    · exact ((List.nodup_finRange n).filter _).filter _
  · intro v hv
    rw [hmax] at hv
    obtain ⟨i, hi, rfl⟩ := List.mem_map.mp hv
    simpa using (List.mem_filter.mp hi).2

lemma fill_zero (units : List ℕ) (k : ℕ) : ((fill units 0)[k]?).join = none := by
  induction units generalizing k with
  | nil => simp [fill]
  | cons u units ih =>
    cases k with
    | zero => simp [fill]
    | succ k => simpa [fill] using ih k

/-- Whoever pays into a pot pays into the pots before it. -/
lemma fill_isSome (units : List ℕ) (b : ℕ) {k k' : ℕ} (hk : k ≤ k')
    (h : ((fill units b)[k']?).join.isSome) : ((fill units b)[k]?).join.isSome := by
  induction units generalizing b k k' with
  | nil => simp [fill] at h
  | cons u units ih =>
    rcases Nat.eq_zero_or_pos b with rfl | hpos
    · simp [fill_zero] at h
    cases k with
    | zero =>
      rw [fill]
      split_ifs <;> rfl
    | succ k =>
      obtain ⟨l, rfl⟩ : ∃ l, k' = l + 1 := ⟨k' - 1, by omega⟩
      rw [fill] at h ⊢
      split_ifs at h ⊢ with hgt
      · exact ih _ (by omega) h
      · exact ih _ (by omega) h

/-- The pots with a winner come first, so that the winners found are those of the first pots. -/
lemma zip_filter_map {α β : Type*} (l : List α) (g : α → β) (q : β → Bool)
    (h : l.Pairwise fun a a' => q (g a') = true → q (g a) = true) :
    ((l.map g).filter q).zip l = (l.filter fun a => q (g a)).map fun a => (g a, a) := by
  induction l with
  | nil => rfl
  | cons a l ih =>
    obtain ⟨ha, hl⟩ := List.pairwise_cons.mp h
    cases hq : q (g a) with
    | true => simp [hq, ih hl]
    | false =>
      have hnone : ∀ a' ∈ l, q (g a') = false := by
        intro a' ha'
        by_contra hne
        simp [ha a' ha' (by simpa using hne)] at hq
      have hl : (l.filter fun a => q (g a)) = [] :=
        List.filter_eq_nil_iff.mpr fun a' ha' => by simp [hnone a' ha']
      have hmap : (l.map g).filter q = [] := by
        rw [List.filter_map]
        exact congrArg (List.map g) hl
      simp [hq, hl, hmap]

/-- Every pot divides evenly among its winners. -/
def PotsDivide : Prop :=
  ∀ pot ∈ t.betPot2, (t.potWinners pot).Nonempty →
    (t.potWinners pot).card ∣ ∑ i, (pot i).getD 0

/-- The result can be encoded exactly when every pot divides. -/
lemma encodes_iff : t.encodes = true ↔ t.PotsDivide := by
  have hempty : ∀ pot, (!(t.maxRank pot).isEmpty) = true ↔ (t.potWinners pot).Nonempty := by
    intro pot
    rw [← card_pos, ← (t.maxRank_spec pot).1]
    cases t.maxRank pot <;> simp
  have hzip : t.potBetInfo.zip t.betPot2 =
      (t.betPot2.filter fun pot => !(t.maxRank pot).isEmpty).map
        fun pot => (t.maxRank pot, pot) := by
    refine zip_filter_map _ _ _ ?_
    simp only [hempty, potWinners_nonempty_iff, betPot2, List.pairwise_map]
    refine List.pairwise_lt_range.imp fun {k k'} hk => ?_
    rintro ⟨i, hi, hfold⟩
    exact ⟨i, fill_isSome _ _ hk.le hi, hfold⟩
  rw [encodes, hzip]
  simp only [List.all_map, List.all_eq_true, List.mem_filter, Function.comp_apply, and_imp, hempty,
    PotsDivide]
  refine forall_congr' fun pot => forall_congr' fun _ => forall_congr' fun hne => ?_
  obtain ⟨hlen, hmem⟩ := t.maxRank_spec pot
  have hpos := card_pos.mpr hne
  have hsome : ∀ v ∈ t.maxRank pot, (pot v.1).isSome := fun v hv =>
    (mem_filter.mp (hmem v hv)).2.1.1
  obtain ⟨last, hlast⟩ : ∃ last, (t.maxRank pot).getLast? = some last := by
    cases hrank : t.maxRank pot with
    | nil =>
      rw [hrank, List.length_nil] at hlen
      omega
    | cons v best => exact ⟨_, List.getLast?_eq_some_getLast (List.cons_ne_nil v best)⟩
  obtain ⟨own, hown⟩ := Option.isSome_iff_exists.mp (hsome last (List.mem_of_getLast? hlast))
  have hguard : ((t.maxRank pot).all fun v => (pot v.1).isSome) = true := by
    simpa using hsome
  have hchips : winChips (t.maxRank pot) pot =
      some (((∑ i, (pot i).getD 0 : ℕ) : ℚ) / (t.potWinners pot).card - own) := by
    rw [winChips, hguard, hlast, hlen]
    simp [hown, guard]
  rw [hchips, Option.any_some, decide_eq_true_eq, Rat.sub_natCast_den,
    Rat.den_div_natCast_eq_one_iff _ _ hpos.ne']

end Pots

/-! ### The whole settlement -/

/-- Every layer of every rank divides evenly among its winners: for a player who has not folded,
what the others put between two successive bets above the bets of the better players is a multiple
of the number of players of his rank who have bet as much. -/
def TiesDivide (t : Showdown n) : Prop :=
  ∀ p, t.fold p = false → Layers.Even t.bet
    (univ.filter fun q => t.fold q = false ∧ t.rank q = t.rank p)
    ((univ.filter fun q => t.fold q = false ∧ t.rank p < t.rank q).sup t.bet)

lemma tiesDivide_iff (t : Showdown n) :
    t.TiesDivide ↔ t.RanksEven ((List.finRange n).filter fun p => !t.fold p) 0 := by
  have hrank : ∀ p, t.rankOf ((List.finRange n).filter fun p => !t.fold p) p =
      univ.filter fun q => t.fold q = false ∧ t.rank q = t.rank p := by
    intro p
    ext q
    simp [rankOf, and_comm]
  have hcovered : ∀ p, t.covered ((List.finRange n).filter fun p => !t.fold p) p =
      (univ.filter fun q => t.fold q = false ∧ t.rank p < t.rank q).sup t.bet := by
    intro p
    rw [covered]
    congr 1
    ext q
    simp [and_comm]
  simp only [TiesDivide, RanksEven, hrank, hcovered, Nat.zero_max, List.mem_filter,
    List.mem_finRange, true_and, Bool.not_eq_true']

/-- When every layer of every tie divides, only the encoder can stop the settlement, and the chips
are conserved. -/
lemma endNormal_of_tiesDivide {t : Showdown n} (h : t.TiesDivide) :
    ∃ added, ∑ i, added i = ∑ i, t.bet i ∧
      t.endNormal = if t.client && !t.encodes then none else some added := by
  have hn : ((List.finRange n).filter fun p => !t.fold p).Nodup := (List.nodup_finRange n).filter _
  have hs₀ : (⟨t.bet, fun _ => 0⟩ : Purse n).uidBet = fun i => t.bet i - 0 := rfl
  obtain ⟨s, hs, htotal, -, -⟩ := (t.settle_iff 10 hn hs₀).1 (t.tiesDivide_iff.mp h)
  have hsum : ∑ i, (s.calcDetails i + s.uidBet i) = ∑ i, t.bet i := by
    simpa [Purse.total, sum_add_distrib] using htotal
  refine ⟨_, hsum, ?_⟩
  rw [endNormal, uidRank, hs, Option.bind_some]
  refine if_neg (not_not.mpr ?_)
  rw [sum_add_distrib, sum_add_distrib, hsum]

/-- A layer that does not divide stops the settlement. -/
lemma endNormal_of_not_tiesDivide {t : Showdown n} (h : ¬ t.TiesDivide) : t.endNormal = none := by
  have hn : ((List.finRange n).filter fun p => !t.fold p).Nodup := (List.nodup_finRange n).filter _
  have hs₀ : (⟨t.bet, fun _ => 0⟩ : Purse n).uidBet = fun i => t.bet i - 0 := rfl
  have hnone := (t.settle_iff 10 hn hs₀).2 fun hr => h (t.tiesDivide_iff.mpr hr)
  rw [endNormal, uidRank, hnone, Option.bind_none]

/-- `endNormal` runs to its end and gives the players the sum of all bets, exactly when every
layer of a tie divides evenly among its winners and, if a client is told the result, so does every
pot.

**Proof sketch.** The settlement goes rank by rank. After the ranks that are done everything up to
their largest bet is settled, and a pass over the winners of a rank settles the layers up to their
largest bet one by one. A layer that does not divide ends it; every other one conserves the
chips. The announced share of a pot is an integer exactly when the pot divides. -/
theorem endNormal_conserves_iff (t : Showdown n) :
    (∃ added, t.endNormal = some added ∧ ∑ i, added i = ∑ i, t.bet i) ↔
      t.TiesDivide ∧ (t.client = true → t.PotsDivide) := by
  by_cases hties : t.TiesDivide
  · obtain ⟨added, hsum, hend⟩ := endNormal_of_tiesDivide hties
    rw [hend, ← encodes_iff]
    cases hclient : t.client <;> cases hencodes : t.encodes <;> simp [hties, hsum]
  · simp [endNormal_of_not_tiesDivide hties, hties]

/-- Two players tie with a bet of two each, and the small blind folded with a bet of one. -/
def splitBlind : Showdown 3 :=
  ⟨![98, 98, 99], ![2, 2, 1], ![false, false, true], fun _ => 0, true, by decide⟩

/-- The odd chip stops the settlement. -/
theorem splitBlind_stops :
    ¬ ∃ added, splitBlind.endNormal = some added ∧ ∑ i, added i = ∑ i, splitBlind.bet i := by
  have hodd : ¬ splitBlind.TiesDivide := by
    intro h
    have hdvd := h 0 rfl 2 (by decide) ⟨0, by decide⟩
    revert hdvd
    decide
  rw [endNormal_of_not_tiesDivide hodd]
  simp

end Showdown

end Texas
