import JsmjServer.Mahjong.MJPlayer

set_option relaxedAutoImplicit false
set_option autoImplicit false

/-!
# The count map of a hand, tile by tile

`MJPlayer:transHandCardsToCountMap` of `mj_core/MJPlayer.lua` counts the tiles of a hand and then
goes through the wild tiles, moving their counts to index `0`. Each tile of the hand contributes to
the map on its own: a wild tile of the table counts at index `0`, another tile of the table at its
own index, and a tile beyond the table at index `0`, once for each time the list names it.

## Main definitions

* `Mahjong.MJPlayer.tileEntry`, `Mahjong.MJPlayer.tileMap` — what one tile contributes; the map of
  a list of tiles.

## Main results

* `Mahjong.MJPlayer.transHandCardsToCountMap_new`, `transHandCardsToCountMap_hand` — the count map
  of the source is the map of the tiles held.
* `Mahjong.MJPlayer.tileMap_of_ne`, `tileMap_zero_pos_iff` — its entries.
-/

namespace Mahjong.MJPlayer

/-! ### The loop over the wild tiles -/

/-- The map before the loop over the wild tiles: the tiles from `0` to `Zi7` are counted. -/
def plainMap (cnt : ℕ → ℕ) : ℕ → ℕ := fun i => if i ≤ Zi7 then cnt i else 0

/-- The loop of `transHandCardsToCountMap` for one wild tile. A tile of the table gives its count
away; of a tile beyond it, which the table does not count, the hand is counted. -/
def wildStep (cnt map : ℕ → ℕ) (v : ℕ) : ℕ → ℕ := fun i =>
  if v ≤ Zi7 then
    (if i = v ∧ v ≠ 0 then 0 else if i = 0 ∧ v ≠ 0 then map 0 + map v else map i)
  else if i = 0 then map 0 + cnt v else map i

/-- What a tile contributes to the count map at an index. -/
def tileEntry (baiDaList : List ℕ) (t i : ℕ) : ℕ :=
  if t ≤ Zi7 then (if i = (if t ∈ baiDaList then 0 else t) then 1 else 0)
  else if i = 0 then baiDaList.count t else 0

/-- The count map of a list of tiles. -/
def tileMap (baiDaList l : List ℕ) : ℕ → ℕ := fun i => (l.map fun t => tileEntry baiDaList t i).sum

section Loop

variable {baiDaList : List ℕ}

/-- The loop is additive in the counts. -/
lemma foldl_wildStep_add (c₁ c₂ : ℕ → ℕ) (L : List ℕ) (m₁ m₂ : ℕ → ℕ) :
    L.foldl (wildStep fun v => c₁ v + c₂ v) (fun i => m₁ i + m₂ i) =
      fun i => L.foldl (wildStep c₁) m₁ i + L.foldl (wildStep c₂) m₂ i := by
  induction L generalizing m₁ m₂ with
  | nil => rfl
  | cons v L ih =>
    have hstep : wildStep (fun v => c₁ v + c₂ v) (fun i => m₁ i + m₂ i) v =
        fun i => wildStep c₁ m₁ v i + wildStep c₂ m₂ v i := by
      funext i
      simp only [wildStep]
      split_ifs <;> omega
    rw [List.foldl_cons, hstep, ih]
    rfl

/-- No tiles, no counts. -/
lemma foldl_wildStep_zero (L : List ℕ) :
    L.foldl (wildStep fun _ => 0) (fun _ => 0) = fun _ => 0 := by
  induction L with
  | nil => rfl
  | cons v L ih =>
    have hstep : wildStep (fun _ => 0) (fun _ => 0) v = fun _ => 0 := by
      funext i
      unfold wildStep
      split_ifs <;> rfl
    rw [List.foldl_cons, hstep, ih]

/-- The counts of a single tile after the loop. -/
lemma foldl_wildStep_single (t : ℕ) (L : List ℕ) :
    L.foldl (wildStep fun v => if t = v then 1 else 0) (plainMap fun i => if t = i then 1 else 0) =
      tileEntry L t := by
  induction L using List.reverseRecOn with
  | nil =>
    funext i
    simp only [List.foldl_nil, plainMap, tileEntry, List.not_mem_nil, if_false, List.count_nil]
    split_ifs <;> omega
  | append_singleton L v ih =>
    rw [List.foldl_append, List.foldl_cons, List.foldl_nil, ih]
    funext i
    by_cases ht : t ≤ Zi7
    · -- a tile of the table: it moves to index `0` when the loop meets it
      simp only [wildStep, tileEntry, ht, if_true, List.mem_append, List.mem_singleton]
      by_cases hm : t ∈ L
      · simp only [hm, if_true, true_or]
        split_ifs <;> omega
      · simp only [hm, if_false, false_or]
        split_ifs <;> omega
    · simp only [wildStep, tileEntry, ht, if_false, List.count_append, List.count_singleton,
        beq_iff_eq]
      split_ifs <;> omega

/-- The counts of a list of tiles after the loop. -/
lemma foldl_wildStep_count (L l : List ℕ) :
    L.foldl (wildStep fun v => l.count v) (plainMap fun i => l.count i) = tileMap L l := by
  induction l with
  | nil =>
    have hzero : plainMap (fun _ => 0) = fun _ => 0 := by
      funext i
      exact ite_self 0
    simp only [List.count_nil, hzero, foldl_wildStep_zero]
    rfl
  | cons t l ih =>
    have hcnt : (fun v => (t :: l).count v) = fun v => (if t = v then 1 else 0) + l.count v := by
      funext v
      rw [List.count_cons, add_comm]
      simp only [beq_iff_eq]
    have hmap : plainMap (fun i => (t :: l).count i) = fun i =>
        plainMap (fun i => if t = i then 1 else 0) i + plainMap (fun i => l.count i) i := by
      rw [hcnt]
      funext i
      unfold plainMap
      split_ifs <;> rfl
    rw [hmap, hcnt, foldl_wildStep_add, foldl_wildStep_single, ih]
    rfl

/-- The loop reads the hand only for tiles beyond the table. -/
lemma wildStep_congr {c₁ c₂ : ℕ → ℕ} (h : ∀ v, Zi7 < v → c₁ v = c₂ v) :
    wildStep c₁ = wildStep c₂ := by
  funext map v i
  unfold wildStep
  split_ifs with hv h1 h2 h3
  · rfl
  · rfl
  · rfl
  · rw [h v (by omega)]
  · rfl

end Loop

/-! ### The count map of a player -/

section Player

variable {p : MJPlayer} {L : List ℕ}

/-- **The count map of a player who has a new tile.** -/
theorem transHandCardsToCountMap_new (hn : p.hasNewCard = true) (L : List ℕ) :
    p.transHandCardsToCountMap true L = tileMap L (p.newCard :: p.cardList) := by
  rw [← foldl_wildStep_count]
  have hcnt : (fun v => p.getCardCountInHand v true) =
      fun v => (p.newCard :: p.cardList).count v := by
    funext v
    exact getCardCountInHand_true p v
  have hmap : (fun i => if i ≤ Zi7 then p.cardList.count i +
      (if true && p.newCard != kCardNull && p.newCard == i then 1 else 0) else 0) =
        plainMap fun i => (p.newCard :: p.cardList).count i := by
    funext i
    simp only [plainMap, List.count_cons, Bool.true_and,
      show (p.newCard != kCardNull) = true from hn]
  show L.foldl (wildStep fun v => p.getCardCountInHand v true) _ = _
  rw [hcnt, hmap]

/-- **The count map of a player who has none.** -/
theorem transHandCardsToCountMap_hand (hn : p.hasNewCard = false) (L : List ℕ) :
    p.transHandCardsToCountMap false L = tileMap L p.cardList := by
  rw [← foldl_wildStep_count]
  have hcnt : (wildStep fun v => p.getCardCountInHand v true) =
      wildStep fun v => p.cardList.count v := by
    refine wildStep_congr fun v hv => ?_
    have hne : p.newCard ≠ v := by
      rw [newCard_of_not_hasNewCard hn]
      exact (Nat.zero_lt_of_lt hv).ne
    simp [getCardCountInHand, hne]
  have hmap : (fun i => if i ≤ Zi7 then p.cardList.count i +
      (if false && p.newCard != kCardNull && p.newCard == i then 1 else 0) else 0) =
        plainMap fun i => p.cardList.count i := by
    funext i
    simp [plainMap]
  show L.foldl (wildStep fun v => p.getCardCountInHand v true) _ = _
  rw [hcnt, hmap]

/-! ### The entries of the map -/

variable {l l' : List ℕ} {t i : ℕ}

lemma tileMap_cons (L : List ℕ) (t : ℕ) (l : List ℕ) (i : ℕ) :
    tileMap L (t :: l) i = tileEntry L t i + tileMap L l i := rfl

/-- The order of the tiles does not matter. -/
lemma tileMap_perm (L : List ℕ) (h : l.Perm l') : tileMap L l = tileMap L l' := by
  funext i
  exact (h.map _).sum_eq

lemma tileEntry_of_ne (hi : i ≠ 0) :
    tileEntry L t i = if i ≤ Zi7 ∧ i ∉ L ∧ t = i then 1 else 0 := by
  unfold tileEntry
  by_cases hti : t = i
  · subst hti
    by_cases hm : t ∈ L <;> simp [hm, hi]
  · by_cases hm : t ∈ L
    · simp [hm, hi, hti]
    · simp [hm, hi, hti, Ne.symm hti]

/-- At an index of the table, the copies of the tile are counted unless it is wild. -/
lemma tileMap_of_ne (L l : List ℕ) (hi : i ≠ 0) :
    tileMap L l i = if i ≤ Zi7 ∧ i ∉ L then l.count i else 0 := by
  induction l with
  | nil => simp [tileMap]
  | cons t l ih =>
    rw [tileMap_cons, ih, tileEntry_of_ne hi, List.count_cons]
    simp only [beq_iff_eq]
    split_ifs <;> first | omega | simp_all

lemma tileMap_pos_iff (hi : i ≠ 0) : 0 < tileMap L l i ↔ i ≤ Zi7 ∧ i ∉ L ∧ i ∈ l := by
  rw [tileMap_of_ne L l hi]
  split_ifs with h
  · rw [List.count_pos_iff]
    exact ⟨fun hm => ⟨h.1, h.2, hm⟩, fun hm => hm.2.2⟩
  · exact iff_of_false (lt_irrefl 0) fun hm => h ⟨hm.1, hm.2.1⟩

lemma tileEntry_zero_pos_iff (ht : t ≠ 0) : 0 < tileEntry L t 0 ↔ t ∈ L := by
  unfold tileEntry
  by_cases h37 : t ≤ Zi7
  · by_cases hm : t ∈ L
    · simp [h37, hm]
    · simp [h37, hm, Ne.symm ht]
  · simp only [h37, if_false, if_true, List.count_pos_iff]

/-- Index `0` counts the wild tiles of the hand. -/
lemma tileMap_zero_pos_iff (h0 : 0 ∉ l) : 0 < tileMap L l 0 ↔ ∃ w ∈ L, w ∈ l := by
  induction l with
  | nil => simp [tileMap]
  | cons t l ih =>
    have ht : t ≠ 0 := fun h => h0 (by simp [h])
    have ih' := ih fun h => h0 (List.mem_cons_of_mem t h)
    rw [tileMap_cons, Nat.add_pos_iff_pos_or_pos, tileEntry_zero_pos_iff ht, ih']
    constructor
    · rintro (hm | ⟨w, hw, hwl⟩)
      · exact ⟨t, hm, by simp⟩
      · exact ⟨w, hw, List.mem_cons_of_mem t hwl⟩
    · rintro ⟨w, hw, hwl⟩
      rcases List.mem_cons.mp hwl with rfl | hwl
      · exact Or.inl hw
      · exact Or.inr ⟨w, hw, hwl⟩

/-! ### The number of tiles -/

lemma remain_eq_sum (pai : ℕ → ℕ) : MJMath.remain pai = ∑ i ∈ Finset.Icc 1 37, pai i := by
  rw [Nat.Icc_eq_range']
  rfl

/-- A tile of the table that is not wild counts among the natural tiles. -/
lemma remain_tileEntry (L : List ℕ) (t : ℕ) :
    MJMath.remain (tileEntry L t) = if 1 ≤ t ∧ t ≤ Zi7 ∧ t ∉ L then 1 else 0 := by
  have hentry : ∀ i ∈ Finset.Icc 1 37,
      tileEntry L t i = if t = i then (if t ≤ Zi7 ∧ t ∉ L then 1 else 0) else 0 := by
    intro i hi
    have hi0 : i ≠ 0 := by
      have := (Finset.mem_Icc.mp hi).1
      omega
    rw [tileEntry_of_ne hi0]
    by_cases hti : t = i
    · subst hti
      simp
    · simp [hti]
  rw [remain_eq_sum, Finset.sum_congr rfl hentry, Finset.sum_ite_eq]
  simp only [Finset.mem_Icc]
  unfold Zi7
  by_cases hm : t ∈ L
  · simp [hm]
  · simp only [hm, not_false_eq_true, and_true]
    split_ifs <;> omega

lemma remain_tileMap_cons (L : List ℕ) (t : ℕ) (l : List ℕ) :
    MJMath.remain (tileMap L (t :: l)) =
      MJMath.remain (tileEntry L t) + MJMath.remain (tileMap L l) := by
  unfold MJMath.remain
  rw [← List.sum_map_add]
  rfl

/-! ### A discard and a draw -/

/-- `MJPlayer:getAllHandCards`. -/
def getAllHandCards (p : MJPlayer) : List ℕ :=
  p.cardList ++ if p.hasNewCard then [p.newCard] else []

lemma getAllHandCards_perm (hn : p.hasNewCard = true) :
    p.getAllHandCards.Perm (p.newCard :: p.cardList) := by
  rw [getAllHandCards, if_pos hn]
  exact List.perm_append_singleton _ _

/-- The count map after a tile held is played and another is drawn. -/
lemma transHandCardsToCountMap_draw (hn : p.hasNewCard = true) {c : ℕ}
    (hc : c ∈ p.newCard :: p.cardList) (hv : MJCard.isValid t = true) (L : List ℕ) :
    ((p.doPlayCard c).2.addNewCard t).hasNewCard = true ∧
      ((p.doPlayCard c).2.addNewCard t).transHandCardsToCountMap true L =
        tileMap L (t :: (p.newCard :: p.cardList).erase c) := by
  rcases doPlayCard_spec (b := c) hn with ⟨hnot, -⟩ | ⟨l, hperm, hdo⟩
  · exact absurd hc hnot
  have hrest : l.Perm ((p.newCard :: p.cardList).erase c) := by
    have := hperm.erase c
    rwa [List.erase_cons_head, List.perm_comm] at this
  have hadd : (p.doPlayCard c).2.addNewCard t =
      ⟨t, l, p.pileList, .newCard, p.huaList⟩ := by
    rw [hdo, addNewCard_eq hv]
  have hnew : hasNewCard ⟨t, l, p.pileList, .newCard, p.huaList⟩ = true := by
    simpa [hasNewCard] using ne_kCardNull_of_isValid hv
  rw [hadd]
  exact ⟨hnew, (transHandCardsToCountMap_new hnew L).trans (tileMap_perm L (hrest.cons t))⟩

end Player

end Mahjong.MJPlayer
