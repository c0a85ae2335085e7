import JsmjServer.Mahjong.Division
import JsmjServer.Mahjong.TingHints
import JsmjServer.Nanjing.BaoPai

set_option relaxedAutoImplicit false
set_option autoImplicit false

/-!
# Waits and suits of a win in nanjing mahjong

Some types of `nanjingmj/CountHuType.lua` are found by short cuts. `isDiao` takes a hand that waits
for one tile, neither at the edge nor inside a run, to wait for its pair. `getYiSeType` and
`isQueMeng` look at the suits of the hand and the piles without the tile that wins.

## Main definitions

* `Nanjing.HuTypes.Win` — the fields of `CountHuType` that are read.
* `Nanjing.HuTypes.isBian`, `Nanjing.HuTypes.isKa`, `Nanjing.HuTypes.isDiao` — the waits.
* `Nanjing.HuTypes.getYiSeType`, `Nanjing.HuTypes.isQueMeng` — the suits.
* `Nanjing.HuTypes.PairWait`, `Nanjing.HuTypes.Accepted` — some division of the winning hand has the
  tile as its pair; the recogniser accepts the full hand.

## Main results

* `Nanjing.HuTypes.single_wait_classified` — a single wait is an edge, a closed wait or a pair.
* `Nanjing.HuTypes.suit_types_exact` — the suits of a win are those of the hand and the piles.

## Design

The count map has no entry beyond `Zi7`, and flowers of the hand are left out of it. Divisions are
those of the tiles that are counted.
-/

namespace Mahjong.MJPlayer

/-- `MJPlayer:getCanHuCardList`. -/
def getCanHuCardList (p : MJPlayer) : List ℕ :=
  MJMath.getCanHuCards (p.transHandCardsToCountMap false [])

end Mahjong.MJPlayer

namespace Nanjing.HuTypes

open Mahjong MJMath MJPlayer
open BaoPai (suit getSuitCountInPile)

/-! ### The program -/

/-- The fields of `CountHuType` that are read: the player, and the tile it wins on, `none` if it has
drawn the tile. -/
structure Win where
  player : MJPlayer
  huCard : Option ℕ

/-- The tile that wins: `huCard`, or the new tile. -/
def Win.card (t : Win) : ℕ := t.huCard.getD t.player.newCard

/-- The point of a tile, `10` for a byte that is none. -/
def point (byte : ℕ) : ℕ := if MJCard.isValid byte then byte % 10 else 10

/-- The end of `isBian` and `isKa`: one tile less at two indices, no count below zero, and the
recogniser accepts the rest. -/
def canHuWithout (countMap : ℕ → ℕ) (i j : ℕ) : Bool :=
  if countMap i = 0 ∨ countMap j = 0 then false
  else MJMath.canHu fun k => if k = i ∨ k = j then countMap k - 1 else countMap k

/-- `CountHuType:isBian`. -/
def isBian (t : Win) : Bool :=
  if suit t.card = 3 then false
  else if point t.card ≠ 3 ∧ point t.card ≠ 7 then false
  else if t.player.getCanHuCardList.length ≠ 1 then false
  else
    let countMap := t.player.transHandCardsToCountMap false []
    if point t.card = 7 then canHuWithout countMap (t.card + 1) (t.card + 2)
    else if point t.card = 3 then canHuWithout countMap (t.card - 1) (t.card - 2)
    else false

/-- `CountHuType:isKa`. -/
def isKa (t : Win) : Bool :=
  if suit t.card = 3 then false
  else if point t.card = 1 ∨ point t.card = 9 then false
  else if t.player.getCanHuCardList.length ≠ 1 then false
  else canHuWithout (t.player.transHandCardsToCountMap false []) (t.card + 1) (t.card - 1)

/-- `CountHuType:isDiao`. -/
def isDiao (t : Win) : Bool :=
  if t.player.getCanHuCardList.length ≠ 1 then false else !isBian t && !isKa t

/-- `MJPlayer:getSuitCountInHand`. The branch for the new tile compares it with a name that is never
assigned, and is never taken. -/
def getSuitCountInHand (p : MJPlayer) (s : ℕ) (bIncludeNewCard : Bool) : ℕ :=
  let byteCard : Option ℕ := none
  p.cardList.countP (fun v => suit v = s) +
    if bIncludeNewCard && some p.newCard == byteCard && suit p.newCard == s then 1 else 0

/-- `CountHuType:getYiSeType`: `1` for honours only, `2` for one suit, `3` for one suit and
honours. -/
def getYiSeType (p : MJPlayer) : ℕ :=
  let suitCountList := [0, 1, 2, 3].map fun s =>
    getSuitCountInHand p s false + getSuitCountInPile p.pileList s
  let suitCount := suitCountList.countP (0 < ·)
  if suitCount = 1 then if 0 < suitCountList.getD 3 0 then 1 else 2
  else if suitCount = 2 ∧ 0 < suitCountList.getD 3 0 then 3
  else 0

/-- `CountHuType:isQueMeng`: one of the suits Wan, Tiao and Tong is missing. A claimed tile sets the
count of its suit to one. -/
def isQueMeng (t : Win) : Bool :=
  let suitCountList := [0, 1, 2].map fun s =>
    getSuitCountInHand t.player s true + getSuitCountInPile t.player.pileList s
  let suitCountList :=
    match t.huCard with
    | some huCard => if huCard / 10 ≤ 2 then suitCountList.set (huCard / 10) 1 else suitCountList
    | none => suitCountList
  decide (suitCountList.countP (0 < ·) < 3)

/-! ### The hand as a multiset -/

/-- The tiles of the hand that the count map counts. -/
def counted (p : MJPlayer) : Multiset ℕ := ((p.cardList.filter (· ≤ Zi7) : List ℕ) : Multiset ℕ)

section Hand

variable {p : MJPlayer} {w : ℕ} {n rest : Multiset ℕ}

lemma isTile_counted (hv : ∀ x ∈ p.cardList, MJCard.isValid x = true) :
    ∀ x ∈ counted p, IsTile x := by
  intro x hx
  rw [counted, Multiset.mem_coe, List.mem_filter, decide_eq_true_eq] at hx
  exact (isTile_or_lt (hv x hx.1)).resolve_right (not_lt.mpr hx.2)

lemma count_counted (p : MJPlayer) {i : ℕ} (hi : i ≤ 37) :
    (counted p).count i = p.cardList.count i := by
  rw [counted, Multiset.coe_count, List.count_filter (by simpa using show i ≤ Zi7 from hi)]

lemma transHandCardsToCountMap_false (p : MJPlayer) {i : ℕ} (hi : i ≤ 37) :
    p.transHandCardsToCountMap false [] i = (counted p).count i := by
  rw [count_counted p hi]
  simp [transHandCardsToCountMap, show i ≤ Zi7 from hi]

/-- The tiles the hand waits for. -/
lemma mem_getCanHuCardList (hv : ∀ x ∈ p.cardList, MJCard.isValid x = true) {j : ℕ} :
    j ∈ p.getCanHuCardList ↔ IsTile j ∧ Winning (j ::ₘ counted p) 0 := by
  have hn := isTile_counted hv
  have hpai : ∀ i ≤ 37, p.transHandCardsToCountMap false [] i = (counted p).count i :=
    fun i hi => transHandCardsToCountMap_false p hi
  have hempty : ∀ i ≤ 37, ¬IsTile i → p.transHandCardsToCountMap false [] i = 0 := by
    intro i hi hnot
    rw [hpai i hi, Multiset.count_eq_zero]
    exact fun hmem => hnot (hn i hmem)
  have hgap : p.transHandCardsToCountMap false [] 10 = 0 ∧
      p.transHandCardsToCountMap false [] 20 = 0 ∧ p.transHandCardsToCountMap false [] 30 = 0 :=
    ⟨hempty 10 (by decide) (by decide), hempty 20 (by decide) (by decide),
      hempty 30 (by decide) (by decide)⟩
  rw [getCanHuCardList, mem_getCanHuCards hgap]
  refine and_congr_right fun hj => ?_
  rw [canHu_addTile hgap hj, tiles_of_count hn hpai, hempty 0 (by decide) (by decide)]

/-- Taking two different tiles off the map. -/
lemma canHuWithout_of {pai : ℕ → ℕ} {i j : ℕ} (hij : i ≠ j) (hn : ∀ x ∈ n, IsTile x)
    (hpai : ∀ k ≤ 37, pai k = n.count k) (he : n = {i, j} + rest) (hwin : Winning rest 0) :
    canHuWithout pai i j = true := by
  have hi : IsTile i := hn i (by simp [he])
  have hj : IsTile j := hn j (by simp [he])
  have hcount : ∀ k ≤ 37, pai k = (if k = i ∨ k = j then 1 else 0) + rest.count k := by
    intro k hk
    rw [hpai k hk, he, Multiset.count_add, Multiset.insert_eq_cons, Multiset.count_cons,
      Multiset.count_singleton]
    split_ifs <;> omega
  have hci := hcount i hi.2.1
  have hcj := hcount j hj.2.1
  rw [if_pos (Or.inl rfl)] at hci
  rw [if_pos (Or.inr rfl)] at hcj
  rw [canHuWithout, if_neg (by omega)]
  refine (canHu_iff_of_count (n := rest) (fun x hx => hn x ?_) fun k hk => ?_).mpr hwin
  · rw [he]
    exact Multiset.mem_add.mpr (Or.inr hx)
  · rw [hcount k hk]
    split_ifs <;> omega

end Hand

/-! ### Waits -/

/-- Some division of the winning hand has the tile that wins as its pair. -/
def PairWait (t : Win) : Prop :=
  ∃ ms, Division (t.card ::ₘ counted t.player) {t.card, t.card} ms

section Waits

variable {t : Win}

lemma suit_of_isTile {w : ℕ} (hw : IsTile w) : suit w = w / 10 := if_pos hw.isValid

lemma point_of_isTile {w : ℕ} (hw : IsTile w) : point w = w % 10 := if_pos hw.isValid

/-- A closed wait. -/
lemma isKa_of (hv : ∀ x ∈ t.player.cardList, MJCard.isValid x = true)
    (hlist : t.player.getCanHuCardList = [t.card]) {rest : Multiset ℕ} {i : ℕ}
    (hi : IsRunStart i) (hcard : t.card = i + 1)
    (he : counted t.player = {i, i + 2} + rest) (hwin : Winning rest 0) : isKa t = true := by
  obtain ⟨h30, h1, h7⟩ := hi
  have hw : IsTile t.card := ⟨by omega, by omega, by omega⟩
  have hsuit : ¬suit t.card = 3 := by
    rw [suit_of_isTile hw]
    omega
  have hpoint : ¬(point t.card = 1 ∨ point t.card = 9) := by
    rw [point_of_isTile hw]
    omega
  rw [isKa, if_neg hsuit, if_neg hpoint, if_neg (by simp [hlist])]
  refine canHuWithout_of (by omega) (isTile_counted hv)
    (fun k hk => transHandCardsToCountMap_false _ hk) ?_ hwin
  rw [he, hcard, Nat.add_sub_cancel, Multiset.pair_comm]

/-- A wait at the edge: the tile ends the first run of its suit or begins the last. -/
lemma isBian_of (hv : ∀ x ∈ t.player.cardList, MJCard.isValid x = true)
    (hlist : t.player.getCanHuCardList = [t.card]) {rest : Multiset ℕ} {i : ℕ} (hi : IsRunStart i)
    (hcard : (t.card = i ∧ i % 10 = 7 ∧ counted t.player = {i + 1, i + 2} + rest) ∨
      (t.card = i + 2 ∧ i % 10 = 1 ∧ counted t.player = {i, i + 1} + rest))
    (hwin : Winning rest 0) : isBian t = true := by
  obtain ⟨h30, h1, h7⟩ := hi
  have hw : IsTile t.card := ⟨by omega, by omega, by omega⟩
  have hsuit : ¬suit t.card = 3 := by
    rw [suit_of_isTile hw]
    omega
  have hn := isTile_counted hv
  have hpai : ∀ k ≤ 37, t.player.transHandCardsToCountMap false [] k = (counted t.player).count k :=
    fun k hk => transHandCardsToCountMap_false _ hk
  have hpoint := point_of_isTile hw
  rcases hcard with ⟨hcard, hp, he⟩ | ⟨hcard, hp, he⟩
  · have h7' : point t.card = 7 := by omega
    rw [isBian, if_neg hsuit, if_neg (by omega), if_neg (by simp [hlist])]
    simp only [h7', if_true]
    refine canHuWithout_of (by omega) hn hpai ?_ hwin
    rw [he, hcard]
  · have h3 : point t.card = 3 := by omega
    rw [isBian, if_neg hsuit, if_neg (by omega), if_neg (by simp [hlist])]
    simp only [h3, if_true, Nat.reduceEqDiff, if_false]
    refine canHuWithout_of (by omega) hn hpai ?_ hwin
    have h2 : i + 2 - 1 = i + 1 := by omega
    rw [he, hcard, h2, Nat.add_sub_cancel, Multiset.pair_comm]

/-- The hand waits for each tile that completes a block of a division. -/
lemma wait_of_meld (hv : ∀ x ∈ t.player.cardList, MJCard.isValid x = true)
    (hlist : t.player.getCanHuCardList = [t.card]) {j c d y : ℕ} {ms : Multiset (Multiset ℕ)}
    (hj : IsTile j) (hy : IsTile y) (hms : ∀ b ∈ ms, b ∈ melds)
    (he : counted t.player = {c, d} + ({y, y} + ms.sum)) (hmeld : j ::ₘ {c, d} ∈ melds) :
    j = t.card := by
  have hwin : Winning (j ::ₘ counted t.player) 0 := by
    refine winning_zero_iff.mpr ⟨{y, y}, (j ::ₘ {c, d}) ::ₘ ms, ⟨y, hy, rfl⟩, ?_, ?_⟩
    · exact Multiset.forall_mem_cons.mpr ⟨hmeld, hms⟩
    · rw [he, Multiset.sum_cons, Multiset.cons_add, Multiset.add_cons, add_left_comm]
  have hmem := (mem_getCanHuCardList hv).mpr ⟨hj, hwin⟩
  rw [hlist] at hmem
  exact List.mem_singleton.mp hmem

/-- The hand waits for the tile of the pair if the tile that wins completes a triplet: the two
change places. -/
lemma wait_of_pair (hv : ∀ x ∈ t.player.cardList, MJCard.isValid x = true)
    (hlist : t.player.getCanHuCardList = [t.card]) {x y : ℕ} {ms : Multiset (Multiset ℕ)}
    (hx : IsTile x) (hy : IsTile y) (hms : ∀ b ∈ ms, b ∈ melds)
    (he : counted t.player = {x, x} + ({y, y} + ms.sum)) : y = t.card := by
  rw [add_left_comm] at he
  exact wait_of_meld hv hlist hy hx hms he (triplet_mem_melds hy)

/-- **A single wait is an edge, a closed wait or a pair.** When the hand waits for one tile and wins
on it, the wait is at the edge or inside a run, or the tile is the pair of some division; so
`isDiao` holds only of a wait for the pair.

**Proof sketch.** Take the block of a division in which the tile lies (`Division.block_cases`). If
it is a triplet, the pair of the division could be made a triplet and the tile the pair
(`wait_of_pair`); if it is a run with the tile at an end, and there is room on the other side, the
tile of that side would complete the run as well (`wait_of_meld`). -/
theorem single_wait_classified (hv : ∀ x ∈ t.player.cardList, MJCard.isValid x = true)
    (hlist : t.player.getCanHuCardList = [t.card]) :
    (isBian t = true ∨ isKa t = true ∨ PairWait t) ∧ (isDiao t = true → PairWait t) := by
  have hclass : isBian t = true ∨ isKa t = true ∨ PairWait t := by
    obtain ⟨hw, hwin⟩ := (mem_getCanHuCardList hv).mp
      (hlist ▸ List.mem_singleton_self t.card : t.card ∈ t.player.getCanHuCardList)
    obtain ⟨p, ms, hdiv⟩ := winning_zero_iff.mp hwin
    obtain ⟨⟨y, hy, rfl⟩, hms, -⟩ := id hdiv
    rcases hdiv.block_cases with ⟨hp, -⟩ | ⟨ms', rfl, he⟩ | ⟨i, ms', hi, rfl, hplace⟩
    · rw [hp] at hdiv
      exact Or.inr (Or.inr ⟨ms, hdiv⟩)
    · have hms' := fun b hb => hms b (Multiset.mem_cons_of_mem hb)
      obtain rfl := wait_of_pair hv hlist hw hy hms' he
      exact Or.inr (Or.inr ⟨_, hdiv⟩)
    · have hms' := fun b hb => hms b (Multiset.mem_cons_of_mem hb)
      have hrest : Winning ({y, y} + ms'.sum) 0 :=
        winning_zero_iff.mpr ⟨_, _, ⟨y, hy, rfl⟩, hms', rfl⟩
      obtain ⟨h30, h1, h7⟩ := id hi
      rcases hplace with ⟨hcard, he⟩ | ⟨hcard, he⟩ | ⟨hcard, he⟩
      · by_cases h : i % 10 = 7
        · exact Or.inl (isBian_of hv hlist hi (Or.inl ⟨hcard, h, he⟩) hrest)
        · -- the tile after the run would do as well
          have hrun : (i + 3) ::ₘ {i + 1, i + 2} ∈ melds := by
            rw [cons_pair_rotate]
            exact run_mem_melds ⟨by omega, by omega, by omega⟩
          have := wait_of_meld hv hlist ⟨by omega, by omega, by omega⟩ hy hms' he hrun
          omega
      · exact Or.inr (Or.inl (isKa_of hv hlist hi hcard he hrest))
      · by_cases h : i % 10 = 1
        · exact Or.inl (isBian_of hv hlist hi (Or.inr ⟨hcard, h, he⟩) hrest)
        · -- the tile before the run would do as well
          have hrun : (i - 1) ::ₘ {i, i + 1} ∈ melds := by
            have hnext : i - 1 + 1 = i ∧ i - 1 + 2 = i + 1 := by omega
            have hmeld : ({i - 1, i - 1 + 1, i - 1 + 2} : Multiset ℕ) ∈ melds :=
              run_mem_melds ⟨by omega, by omega, by omega⟩
            rw [hnext.1, hnext.2] at hmeld
            exact hmeld
          have := wait_of_meld hv hlist ⟨by omega, by omega, by omega⟩ hy hms' he hrun
          omega
  refine ⟨hclass, fun hdiao => ?_⟩
  rw [isDiao, if_neg (by simp [hlist]), Bool.and_eq_true, Bool.not_eq_true', Bool.not_eq_true']
    at hdiao
  rcases hclass with h | h | h
  · exact absurd h (by simp [hdiao.1])
  · exact absurd h (by simp [hdiao.2])
  · exact h

/-- A triplet and a single honour: the hand waits for the pair. -/
theorem honour_pairWait : PairWait ⟨⟨kCardNull, [1, 1, 1, 31], [], .null, []⟩, some 31⟩ :=
  (single_wait_classified (by decide) (by decide +kernel)).2 (by decide +kernel)

end Waits

/-! ### Suits -/

/-- All tiles of a win: the tile that wins, the hand and the piles. -/
def Win.allTiles (t : Win) : List ℕ :=
  t.card :: (t.player.cardList ++ t.player.pileList.flatMap MJPile.cardList)

/-- Those of the given suits that occur among the tiles. -/
def suitsOf (suits l : List ℕ) : List ℕ := suits.filter fun s => l.any fun x => suit x = s

/-- The classification by the suits of all tiles: honours only, one suit, one suit and honours. -/
def yiSeType (l : List ℕ) : ℕ :=
  if (suitsOf [0, 1, 2, 3] l).length = 1 then
    if 3 ∈ suitsOf [0, 1, 2, 3] l then 1 else 2
  else if (suitsOf [0, 1, 2, 3] l).length = 2 ∧ 3 ∈ suitsOf [0, 1, 2, 3] l then 3
  else 0

/-- One of the suits Wan, Tiao and Tong does not occur. -/
def queMeng (l : List ℕ) : Bool := decide ((suitsOf [0, 1, 2] l).length < 3)

/-- The recogniser, or that of seven pairs, accepts the full hand without wild tiles: the hand with
a claimed tile of the table, or with the new tile. -/
structure Accepted (t : Win) : Prop where
  valid : ∀ x ∈ t.card :: t.player.cardList, MJCard.isValid x = true
  accepted : (∃ c, t.huCard = some c ∧ c ≤ Zi7 ∧
      (t.player.canHu c [] = true ∨ t.player.canHuQiDui c [] = true)) ∨
    (t.huCard = none ∧ (t.player.canSelfHu [] = true ∨ t.player.canSelfHuQiDui [] = true))

section Suits

variable {t : Win} {w : ℕ} {n : Multiset ℕ} {pai : ℕ → ℕ}

/-- A tile of a winning hand is not alone in its suit. -/
lemma exists_same_suit (h : Winning (w ::ₘ n) 0) : ∃ x ∈ n, x / 10 = w / 10 := by
  obtain ⟨p, ms, hdiv⟩ := winning_zero_iff.mp h
  rcases hdiv.block_cases with ⟨-, he⟩ | ⟨ms', -, he⟩ | ⟨i, ms', ⟨h30, h1, h7⟩, -, hplace⟩
  · exact ⟨w, by simp [he], rfl⟩
  · exact ⟨w, by simp [he], rfl⟩
  · rcases hplace with ⟨rfl, he⟩ | ⟨rfl, he⟩ | ⟨rfl, he⟩
    · exact ⟨w + 1, by simp [he], by omega⟩
    · exact ⟨i, by simp [he], by omega⟩
    · exact ⟨i, by simp [he], by omega⟩

/-- A tile of seven pairs is there twice. -/
lemma mem_of_canHuQiDui (h0 : pai 0 = 0) (hw : 1 ≤ w ∧ w ≤ 37) (hpai : pai w = (w ::ₘ n).count w)
    (h : MJMath.canHuQiDui pai = true) : w ∈ n := by
  have hnone : countSingle pai = [] := by
    rw [MJMath.canHuQiDui] at h
    split_ifs at h with hsum
    simp only [h0, Bool.or_eq_true, beq_iff_eq, Bool.and_eq_true, decide_eq_true_eq,
      Nat.le_zero] at h
    rcases h with h | h
    · exact List.length_eq_zero_iff.mp h
    · exact List.length_eq_zero_iff.mp h.1
  have heven : pai w % 2 = 0 := by
    by_contra hodd
    have hmem : w ∈ countSingle pai := by
      refine List.mem_filter.mpr ⟨List.mem_range'_1.mpr ⟨hw.1, by omega⟩, by simpa using hodd⟩
    rw [hnone] at hmem
    exact absurd hmem List.not_mem_nil
  rw [hpai, Multiset.count_cons_self] at heven
  exact Multiset.count_pos.mp (by omega)

/-- The tile that wins is not alone in its suit, if it is a suit or honour tile. -/
lemma exists_mem_suit (h : Accepted t) (hw : t.card ≤ 37) :
    ∃ x ∈ t.player.cardList, suit x = suit t.card := by
  have hvalid : ∀ x ∈ t.player.cardList, MJCard.isValid x = true :=
    fun x hx => h.valid x (List.mem_cons_of_mem _ hx)
  have htile : IsTile t.card :=
    (isTile_or_lt (h.valid _ List.mem_cons_self)).resolve_right (not_lt.mpr hw)
  have hn := isTile_counted hvalid
  -- both recognisers see the counts of the full hand
  have hread : ∀ pai : ℕ → ℕ, (∀ i ≤ 37, pai i = (t.card ::ₘ counted t.player).count i) →
      MJMath.canHu pai = true ∨ MJMath.canHuQiDui pai = true →
      ∃ x ∈ counted t.player, x / 10 = t.card / 10 := by
    intro pai hpai hacc
    have hall : ∀ x ∈ t.card ::ₘ counted t.player, IsTile x :=
      Multiset.forall_mem_cons.mpr ⟨htile, hn⟩
    rcases hacc with hacc | hacc
    · exact exists_same_suit ((canHu_iff_of_count hall hpai).mp hacc)
    · have h0 : pai 0 = 0 := by
        rw [hpai 0 (by omega), Multiset.count_eq_zero]
        exact fun hmem => absurd (hall 0 hmem) (by decide)
      exact ⟨t.card, mem_of_canHuQiDui h0 ⟨htile.1, hw⟩ (hpai _ hw) hacc, rfl⟩
  obtain ⟨x, hx, hxw⟩ : ∃ x ∈ counted t.player, x / 10 = t.card / 10 := by
    rcases h.accepted with ⟨c, hc, -, hacc⟩ | ⟨hnone, hacc⟩
    · have hcard : t.card = c := by simp [Win.card, hc]
      refine hread (fun i => if i = c then t.player.transHandCardsToCountMap false [] i + 1
        else t.player.transHandCardsToCountMap false [] i) (fun i hi => ?_) ?_
      · simp only [transHandCardsToCountMap_false _ hi, Multiset.count_cons, hcard]
        split_ifs <;> rfl
      · simp only [MJPlayer.canHu, MJPlayer.canHuQiDui, Bool.and_eq_true] at hacc
        exact hacc.imp And.right And.right
    · have hcard : t.card = t.player.newCard := by simp [Win.card, hnone]
      refine hread (t.player.transHandCardsToCountMap true []) (fun i hi => ?_) ?_
      · have hnew : t.player.newCard ≠ kCardNull := by
          rw [← hcard]
          exact fun h0 => absurd (h0 ▸ htile : IsTile kCardNull) (by decide)
        have hi37 : i ≤ Zi7 := hi
        rw [Multiset.count_cons, count_counted _ hi, hcard]
        simp only [transHandCardsToCountMap, List.foldl_nil, hi37, if_true, Bool.true_and,
          bne_iff_ne.mpr hnew, beq_iff_eq, eq_comm (a := i)]
      · simp only [MJPlayer.canSelfHu, MJPlayer.canSelfHuQiDui, Bool.and_eq_true] at hacc
        exact hacc.imp And.right And.right
  refine ⟨x, ?_, ?_⟩
  · rw [counted, Multiset.mem_coe, List.mem_filter] at hx
    exact hx.1
  · rw [suit_of_isTile (hn x hx), suit_of_isTile htile, hxw]

/-- The hand and the piles have a tile of a suit if and only if all tiles have one. -/
lemma suitCount_pos (h : Accepted t) {s : ℕ} (hs : s ≤ 3) (b : Bool) :
    0 < getSuitCountInHand t.player s b + getSuitCountInPile t.player.pileList s ↔
      (t.allTiles.any fun x => suit x = s) = true := by
  have hhand : getSuitCountInHand t.player s b = t.player.cardList.countP fun v => suit v = s := by
    simp [getSuitCountInHand]
  have hcard : suit t.card = s → ∃ x ∈ t.player.cardList, suit x = s := by
    intro hw
    have hle : t.card ≤ 37 := by
      have hvalid := h.valid _ List.mem_cons_self
      rw [suit, if_pos hvalid] at hw
      rcases isTile_or_lt hvalid with htile | hlt
      · exact htile.2.1
      · have hbig : ¬MJCard.isValid 38 = true ∧ ¬MJCard.isValid 39 = true := by decide
        have h38 : t.card ≠ 38 := fun h38 => hbig.1 (h38 ▸ hvalid)
        have h39 : t.card ≠ 39 := fun h39 => hbig.2 (h39 ▸ hvalid)
        unfold Zi7 at hlt
        omega
    obtain ⟨x, hx, hxw⟩ := exists_mem_suit h hle
    exact ⟨x, hx, hxw.trans hw⟩
  rw [hhand, Nat.add_pos_iff_pos_or_pos, List.countP_pos_iff, Nat.pos_iff_ne_zero, Ne,
    BaoPai.getSuitCountInPile_eq_zero]
  push Not
  simp only [Win.allTiles, List.any_cons, List.any_append, List.any_flatMap, Bool.or_eq_true,
    List.any_eq_true, decide_eq_true_eq]
  constructor
  · rintro (hx | hx)
    · exact Or.inr (Or.inl hx)
    · exact Or.inr (Or.inr hx)
  · rintro (hw | hx | hx)
    · exact Or.inl (hcard hw)
    · exact Or.inl hx
    · exact Or.inr hx

/-- The number of suits counted. -/
lemma countP_suits (h : Accepted t) (suits : List ℕ) (hs : ∀ s ∈ suits, s ≤ 3) (b : Bool) :
    (suits.map fun s => getSuitCountInHand t.player s b +
      getSuitCountInPile t.player.pileList s).countP (0 < ·) =
      (suitsOf suits t.allTiles).length := by
  rw [List.countP_map, suitsOf, ← List.countP_eq_length_filter]
  refine List.countP_congr fun s hmem => ?_
  rw [Function.comp_apply, decide_eq_true_iff]
  exact suitCount_pos h (hs s hmem) b

/-- **The suits of a win are those of the hand and the piles.** When the full hand is accepted,
`getYiSeType` and `isQueMeng` agree with the classification by the suits of all tiles, the tile that
wins included.

**Proof sketch.** A tile of a winning hand is not alone in its suit (`exists_same_suit`,
`mem_of_canHuQiDui`), so that leaving it out changes no count from positive to zero. -/
theorem suit_types_exact (h : Accepted t) :
    getYiSeType t.player = yiSeType t.allTiles ∧ isQueMeng t = queMeng t.allTiles := by
  constructor
  · have hlen := countP_suits h [0, 1, 2, 3] (by decide) false
    have hzi : 0 < ([0, 1, 2, 3].map fun s => getSuitCountInHand t.player s false +
        getSuitCountInPile t.player.pileList s).getD 3 0 ↔ 3 ∈ suitsOf [0, 1, 2, 3] t.allTiles := by
      refine (suitCount_pos h le_rfl false).trans ?_
      rw [suitsOf, List.mem_filter]
      exact (and_iff_right (by decide)).symm
    simp only [getYiSeType, yiSeType, hlen, hzi]
  · have hlen := countP_suits h [0, 1, 2] (by decide) true
    rw [queMeng, ← hlen]
    cases hc : t.huCard with
    | none => simp only [isQueMeng, hc]
    | some c =>
      -- the suit of a claimed tile is counted already
      have hset : ∀ l : List ℕ, 0 < l.getD (c / 10) 0 →
          (l.set (c / 10) 1).countP (0 < ·) = l.countP (0 < ·) := by
        intro l hpos
        rw [List.getD_eq_getElem?_getD] at hpos
        cases hget : l[c / 10]? with
        | none => simp [hget] at hpos
        | some v =>
          obtain ⟨hlt, hv⟩ := List.getElem?_eq_some_iff.mp hget
          rw [hget, Option.getD_some] at hpos
          have hcount : 0 < l.countP (0 < ·) :=
            List.countP_pos_iff.mpr ⟨v, hv ▸ List.getElem_mem hlt, by simpa using hpos⟩
          rw [List.countP_set hlt]
          simp only [hv, decide_eq_true_eq, hpos, if_true, Nat.one_pos]
          omega
      have hcard : t.card = c := by simp [Win.card, hc]
      simp only [isQueMeng, hc]
      split_ifs with h2
      · rw [hset]
        have hpos := (suitCount_pos h (s := c / 10) (by omega) true).mpr ?_
        · obtain h0 | h1 | h2 : c / 10 = 0 ∨ c / 10 = 1 ∨ c / 10 = 2 := by omega
          · rw [h0] at hpos ⊢
            exact hpos
          · rw [h1] at hpos ⊢
            exact hpos
          · rw [h2] at hpos ⊢
            exact hpos
        · have hvalid := h.valid _ List.mem_cons_self
          rw [Win.allTiles, List.any_cons, hcard, suit, if_pos (hcard ▸ hvalid)]
          simp
      · rfl

/-- A pair of the first suit and a claimed honour. -/
theorem mixed_suits_exact :
    getYiSeType ⟨kCardNull, [5, 5, 31, 31], [], .null, []⟩ =
        yiSeType (Win.allTiles ⟨⟨kCardNull, [5, 5, 31, 31], [], .null, []⟩, some 31⟩) ∧
      isQueMeng ⟨⟨kCardNull, [5, 5, 31, 31], [], .null, []⟩, some 31⟩ =
        queMeng (Win.allTiles ⟨⟨kCardNull, [5, 5, 31, 31], [], .null, []⟩, some 31⟩) :=
  suit_types_exact (t := ⟨⟨kCardNull, [5, 5, 31, 31], [], .null, []⟩, some 31⟩)
    ⟨by decide, Or.inl ⟨31, rfl, by decide, Or.inl (by decide +kernel)⟩⟩

end Suits

end Nanjing.HuTypes
