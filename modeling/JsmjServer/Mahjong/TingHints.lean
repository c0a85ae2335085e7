import JsmjServer.Mahjong.CountMap
import JsmjServer.Tongxiang.TXMJPlayer

set_option relaxedAutoImplicit false
set_option autoImplicit false

/-!
# Hints for a ready hand

`MJPlayer:getTingNormalCards` of `mj_core/MJPlayer.lua`: which tile to play, and which draws then
complete the hand. It tries every tile of the count map with one wild tile more, and then asks
`MJMath:getCanHuCards` for the tiles, which adds every tile at its own index, the wild ones too. A
tile that is really drawn goes through `transHandCardsToCountMap`, where a wild one counts at index
`0`.

## Main definitions

* `Mahjong.MJPlayer.getTingNormalCards` — the hints.
* `Mahjong.MJPlayer.WinsAfter`, `Mahjong.MJPlayer.TingHintsExact` — a draw after a discard completes
  the hand; the hints name each discard that leaves a winning draw once, with its draws.
* `Mahjong.MJPlayer.TingSettled` — the condition for exact hints.

## Main results

* `Mahjong.MJMath.mem_getCanHuCards` — the skipped suits hold no tile that completes the hand.
* `Mahjong.MJPlayer.tingHints_exact_iff` — for which hands and wild tiles the hints are exact.
-/

namespace Mahjong

namespace MJMath

/-! ### One tile more -/

/-- A table with `k` copies more at an index. -/
def addAt (pai : ℕ → ℕ) (j k : ℕ) : ℕ → ℕ := fun i => if i = j then pai i + k else pai i

section AddAt

variable {pai : ℕ → ℕ} {j : ℕ} {suit : List ℕ} {n : Multiset ℕ}

lemma tiles_addAt_zero (pai : ℕ → ℕ) (k : ℕ) : tiles (addAt pai 0 k) = tiles pai := by
  ext t
  rw [count_tiles, count_tiles, addAt]
  split_ifs with h h0
  · omega
  · rfl
  · rfl

lemma tiles_addAt (pai : ℕ → ℕ) (hj : 1 ≤ j ∧ j ≤ 37) :
    tiles (addAt pai j 1) = j ::ₘ tiles pai := by
  ext t
  rw [Multiset.count_cons, count_tiles, count_tiles, addAt]
  split_ifs <;> omega

/-- The recogniser on a table with some wild tiles more. -/
lemma canHu_addWild (hgap : pai 10 = 0 ∧ pai 20 = 0 ∧ pai 30 = 0) (k : ℕ) :
    canHu (addAt pai 0 k) = true ↔ Winning (tiles pai) (pai 0 + k) := by
  have hgap' : addAt pai 0 k 10 = 0 ∧ addAt pai 0 k 20 = 0 ∧ addAt pai 0 k 30 = 0 := hgap
  rw [canHu_iff hgap', tiles_addAt_zero]
  rfl

/-- The recogniser on a table with a natural tile more. -/
lemma canHu_addTile (hgap : pai 10 = 0 ∧ pai 20 = 0 ∧ pai 30 = 0) (hj : IsTile j) :
    canHu (addAt pai j 1) = true ↔ Winning (j ::ₘ tiles pai) (pai 0) := by
  obtain ⟨h1, h37, h10⟩ := hj
  have hother : ∀ i, i % 10 = 0 → addAt pai j 1 i = pai i := by
    intro i hi
    exact if_neg (by omega)
  have hgap' : addAt pai j 1 10 = 0 ∧ addAt pai j 1 20 = 0 ∧ addAt pai j 1 30 = 0 := by
    rw [hother 10 rfl, hother 20 rfl, hother 30 rfl]
    exact hgap
  rw [canHu_iff hgap', tiles_addAt pai ⟨h1, h37⟩, hother 0 rfl]

/-- A wild tile more completes the hand if and only if some natural tile does. -/
lemma canHu_addWild_iff (hgap : pai 10 = 0 ∧ pai 20 = 0 ∧ pai 30 = 0) :
    canHu (addAt pai 0 1) = true ↔ ∃ j, IsTile j ∧ canHu (addAt pai j 1) = true := by
  rw [canHu_addWild hgap, Winning, WildCover.succ_iff]
  exact exists_congr fun j => and_congr_right fun hj => (canHu_addTile hgap hj).symm

/-! ### The suits that are skipped -/

/-- A run lies in one suit. -/
lemma mem_suit_of_run (hs : suit ∈ suitCards) {t : ℕ} (ht : IsRunStart t) :
    (t + 1 ∈ suit ↔ t ∈ suit) ∧ (t + 2 ∈ suit ↔ t ∈ suit) := by
  obtain ⟨h30, h1, h7⟩ := ht
  simp only [suitCards, List.mem_cons, List.not_mem_nil, or_false, Zi1] at hs
  rcases hs with rfl | rfl | rfl | rfl <;> simp only [List.mem_range'_1] <;> omega

lemma countP_singleton_mem (t : ℕ) (suit : List ℕ) :
    ({t} : Multiset ℕ).countP (· ∈ suit) = if t ∈ suit then 1 else 0 := by
  rw [← Multiset.cons_zero, Multiset.countP_cons, Multiset.countP_zero, zero_add]

/-- The tiles of one suit in a winning hand without wild tiles: whole melds, and perhaps the
pair. -/
lemma countP_suit_mod (hs : suit ∈ suitCards) (h : Winning n 0) :
    n.countP (· ∈ suit) % 3 ≠ 1 := by
  have hmelds : ∀ b ∈ melds, b.countP (· ∈ suit) % 3 = 0 := by
    rintro b (⟨t, -, rfl⟩ | ⟨t, ht, rfl⟩)
    · by_cases hmem : t ∈ suit <;> simp [countP_singleton_mem, hmem]
    · obtain ⟨h₁, h₂⟩ := mem_suit_of_run hs ht
      by_cases hmem : t ∈ suit <;> simp [countP_singleton_mem, h₁, h₂, hmem]
  obtain ⟨b, ⟨t, -, rfl⟩, heq⟩ := WildCover.countP_mod h hmelds
  rw [heq]
  by_cases hmem : t ∈ suit <;> simp [countP_singleton_mem, hmem]

lemma countP_tiles (pai : ℕ → ℕ) (q : ℕ → Prop) [DecidablePred q] :
    (tiles pai).countP q = ∑ t ∈ Finset.Icc 1 37, if q t then pai t else 0 := by
  have hsum : ∀ s : Finset ℕ, (∑ t ∈ s, Multiset.replicate (pai t) t).countP q =
      ∑ t ∈ s, if q t then pai t else 0 := by
    intro s
    induction s using Finset.induction with
    | empty => simp
    | insert a s ha ih =>
      rw [Finset.sum_insert ha, Finset.sum_insert ha, Multiset.countP_add, ih]
      congr 1
      split_ifs with hq
      · rw [Multiset.countP_eq_card.mpr fun x hx => (Multiset.eq_of_mem_replicate hx) ▸ hq,
          Multiset.card_replicate]
      · rw [Multiset.countP_eq_zero]
        intro x hx
        rwa [Multiset.eq_of_mem_replicate hx]
  exact hsum _

/-- The tiles of a suit on a table. -/
lemma countP_suit (hs : suit ∈ suitCards) (pai : ℕ → ℕ) :
    (tiles pai).countP (· ∈ suit) = (suit.map pai).sum := by
  have hfilter : suit.Nodup ∧ (Finset.Icc 1 37).filter (· ∈ suit) = suit.toFinset := by
    have hall : ∀ suit ∈ suitCards,
        suit.Nodup ∧ (Finset.Icc 1 37).filter (· ∈ suit) = suit.toFinset := by decide
    exact hall suit hs
  rw [countP_tiles, ← Finset.sum_filter, hfilter.2, List.sum_toFinset _ hfilter.1]

/-- A tile of a suit is a tile. -/
lemma isTile_iff_mem_suit : IsTile j ↔ ∃ suit ∈ suitCards, j ∈ suit := by
  simp only [suitCards, List.mem_cons, List.not_mem_nil, or_false, exists_eq_or_imp,
    exists_eq_left, List.mem_range'_1, IsTile, Zi1]
  omega

/-- **The tiles a hand waits for**: `getCanHuCards` returns the suit and honour tiles that complete
the hand, each at its own index.

**Proof sketch.** A suit is skipped if there is no wild tile and its tiles make whole melds by their
number. One tile more would leave one over, and a winning hand has none or two
(`countP_suit_mod`). -/
theorem mem_getCanHuCards (hgap : pai 10 = 0 ∧ pai 20 = 0 ∧ pai 30 = 0) :
    j ∈ getCanHuCards pai ↔ IsTile j ∧ canHu (addAt pai j 1) = true := by
  have hmem : j ∈ getCanHuCards pai ↔ (remain pai + pai 0) % 3 = 1 ∧ ∃ suit ∈ suitCards,
      (pai 0 ≠ 0 ∨ (suit.map pai).sum % 3 ≠ 0) ∧ j ∈ suit ∧ canHu (addAt pai j 1) = true := by
    unfold getCanHuCards
    split_ifs with hmod
    · exact iff_of_false List.not_mem_nil fun h => hmod h.1
    · simp only [List.mem_flatMap, List.mem_filter, Bool.or_eq_true, decide_eq_true_eq]
      constructor
      · rintro ⟨suit, ⟨hs, hskip⟩, hj⟩
        exact ⟨not_not.mp hmod, suit, hs, hskip, hj⟩
      · rintro ⟨-, suit, hs, hskip, hj⟩
        exact ⟨suit, ⟨hs, hskip⟩, hj⟩
  rw [hmem]
  constructor
  · rintro ⟨-, suit, hs, -, hj, hwin⟩
    exact ⟨isTile_iff_mem_suit.mpr ⟨suit, hs, hj⟩, hwin⟩
  · rintro ⟨hj, hwin⟩
    obtain ⟨suit, hs, hjs⟩ := isTile_iff_mem_suit.mp hj
    have hw := (canHu_addTile hgap hj).mp hwin
    have hcard := hw.card_mod
    rw [Multiset.card_cons, card_tiles] at hcard
    refine ⟨by omega, suit, hs, ?_, hjs, hwin⟩
    by_contra hskip
    rw [not_or, not_not, not_not] at hskip
    rw [hskip.1] at hw
    have hsuit := countP_suit_mod hs hw
    rw [Multiset.countP_cons_of_pos _ hjs, countP_suit hs] at hsuit
    omega

end AddAt

end MJMath

namespace MJPlayer

open MJMath

/-! ### The hints -/

/-- `TingNode`: a tile to play, and the tiles that complete the hand then. -/
structure TingNode where
  playCard : ℕ
  huCardList : List ℕ
  deriving DecidableEq

/-- `MJPlayer:getTingNormalCards`, in the order of the tiles. -/
def getTingNormalCards (p : MJPlayer) (baiDaList : List ℕ) : List TingNode :=
  if !p.hasNewCard then []
  else
    let countMap := p.transHandCardsToCountMap true baiDaList
    indices.filterMap fun byteCard =>
      if 0 < countMap byteCard then
        let cpyMap : ℕ → ℕ := fun i => if i = byteCard then countMap i - 1 else countMap i
        if MJMath.canHu (addAt cpyMap 0 1) then some ⟨byteCard, getCanHuCards cpyMap⟩ else none
      else none

/-- After the tile `c` is played, the draw `t` completes the hand. -/
def WinsAfter (p : MJPlayer) (baiDaList : List ℕ) (c t : ℕ) : Prop :=
  ((p.doPlayCard c).2.addNewCard t).canSelfHu baiDaList = true

/-- The hints are exact: a tile is listed if and only if it is held and not wild and some draw
completes the hand after it is played; its tiles are the suit and honour tiles that do; and no tile
is listed twice. -/
structure TingHintsExact (p : MJPlayer) (baiDaList : List ℕ) : Prop where
  listed : ∀ c, (∃ node ∈ p.getTingNormalCards baiDaList, node.playCard = c) ↔
    c ∈ p.newCard :: p.cardList ∧ c ∉ baiDaList ∧
      ∃ t, MJCard.isValid t = true ∧ p.WinsAfter baiDaList c t
  draws : ∀ node ∈ p.getTingNormalCards baiDaList,
    ∀ j, j ∈ node.huCardList ↔ IsTile j ∧ p.WinsAfter baiDaList node.playCard j
  once : ((p.getTingNormalCards baiDaList).map TingNode.playCard).Nodup

/-- The count map of the hand after a tile is played. -/
def restMap (p : MJPlayer) (baiDaList : List ℕ) (c : ℕ) : ℕ → ℕ :=
  (p.doPlayCard c).2.transHandCardsToCountMap false baiDaList

/-- The condition for exact hints, on the tiles held that are not wild. Either the tile has a place
on the map, a wild tile completes the hand without it, and so does each suit or honour tile of the
list, counted as the tile it is. Or neither a wild tile completes the hand without it, nor as many
of them as the list names some tile beyond the map. -/
def TingSettled (p : MJPlayer) (baiDaList : List ℕ) : Prop :=
  ∀ c ∈ p.newCard :: p.cardList, c ∉ baiDaList →
    (c ≤ Zi7 ∧ MJMath.canHu (addAt (p.restMap baiDaList c) 0 1) = true ∧
      ∀ w ∈ baiDaList, IsTile w → MJMath.canHu (addAt (p.restMap baiDaList c) w 1) = true) ∨
    (MJMath.canHu (addAt (p.restMap baiDaList c) 0 1) = false ∧
      ∀ t, MJCard.isValid t = true → Zi7 < t →
        MJMath.canHu (addAt (p.restMap baiDaList c) 0 (baiDaList.count t)) = false)

section Hints

variable {p : MJPlayer} {L : List ℕ} {c t : ℕ}

/-- The tiles left after a discard, on the map. -/
lemma restMap_eq (hn : p.hasNewCard = true) (hc : c ∈ p.newCard :: p.cardList) (L : List ℕ) :
    p.restMap L c = tileMap L ((p.newCard :: p.cardList).erase c) := by
  rcases doPlayCard_spec (b := c) hn with ⟨hnot, -⟩ | ⟨l, hperm, hdo⟩
  · exact absurd hc hnot
  have hrest := hperm.erase c
  rw [List.erase_cons_head] at hrest
  have hnone : hasNewCard ⟨kCardNull, l, p.pileList, .play, p.huaList⟩ = false := rfl
  rw [restMap, hdo, transHandCardsToCountMap_hand hnone]
  exact tileMap_perm L hrest.symm

/-- There are no tiles at the gaps of the map. -/
lemma restMap_gap (hn : p.hasNewCard = true)
    (hv : ∀ x ∈ p.newCard :: p.cardList, MJCard.isValid x = true)
    (hc : c ∈ p.newCard :: p.cardList) (L : List ℕ) :
    p.restMap L c 10 = 0 ∧ p.restMap L c 20 = 0 ∧ p.restMap L c 30 = 0 := by
  have hempty : ∀ i, MJCard.isValid i = false → i ≠ 0 → p.restMap L c i = 0 := by
    intro i hi hi0
    rw [restMap_eq hn hc, tileMap_of_ne _ _ hi0, List.count_eq_zero_of_not_mem, ite_self]
    intro hmem
    have := hv i (List.mem_of_mem_erase hmem)
    rw [hi] at this
    exact absurd this (by decide)
  exact ⟨hempty 10 rfl (by decide), hempty 20 rfl (by decide), hempty 30 rfl (by decide)⟩

/-- What a draw adds to the map. -/
lemma winsAfter_iff (hn : p.hasNewCard = true) (hc : c ∈ p.newCard :: p.cardList)
    (ht : MJCard.isValid t = true) :
    p.WinsAfter L c t ↔
      MJMath.canHu (if t ≤ Zi7 then addAt (p.restMap L c) (if t ∈ L then 0 else t) 1
        else addAt (p.restMap L c) 0 (L.count t)) = true := by
  obtain ⟨hnew, hmap⟩ := transHandCardsToCountMap_draw hn hc ht L
  have hadd : tileMap L (t :: (p.newCard :: p.cardList).erase c) =
      if t ≤ Zi7 then addAt (p.restMap L c) (if t ∈ L then 0 else t) 1
        else addAt (p.restMap L c) 0 (L.count t) := by
    rw [restMap_eq hn hc]
    funext i
    rw [tileMap_cons, tileEntry]
    by_cases h37 : t ≤ Zi7
    · simp only [h37, if_true, addAt]
      split_ifs <;> omega
    · simp only [h37, if_false, addAt]
      split_ifs <;> omega
  rw [WinsAfter, canSelfHu, hnew, hmap, hadd, Bool.true_and]

lemma winsAfter_natural (hn : p.hasNewCard = true) (hc : c ∈ p.newCard :: p.cardList)
    (ht : IsTile t) (hL : t ∉ L) :
    p.WinsAfter L c t ↔ MJMath.canHu (addAt (p.restMap L c) t 1) = true := by
  rw [winsAfter_iff hn hc ht.isValid, if_pos (show t ≤ Zi7 from ht.2.1), if_neg hL]

lemma winsAfter_wild (hn : p.hasNewCard = true) (hc : c ∈ p.newCard :: p.cardList)
    (ht : IsTile t) (hL : t ∈ L) :
    p.WinsAfter L c t ↔ MJMath.canHu (addAt (p.restMap L c) 0 1) = true := by
  rw [winsAfter_iff hn hc ht.isValid, if_pos (show t ≤ Zi7 from ht.2.1), if_pos hL]

lemma winsAfter_beyond (hn : p.hasNewCard = true) (hc : c ∈ p.newCard :: p.cardList)
    (ht : MJCard.isValid t = true) (h37 : Zi7 < t) :
    p.WinsAfter L c t ↔ MJMath.canHu (addAt (p.restMap L c) 0 (L.count t)) = true := by
  rw [winsAfter_iff hn hc ht, if_neg (not_le.mpr h37)]

/-- A valid tile has a place on the map or lies beyond it. -/
lemma isTile_or_lt (ht : MJCard.isValid t = true) : IsTile t ∨ Zi7 < t := by
  by_cases h37 : t ≤ Zi7
  · have hall : ∀ x ≤ 37, MJCard.isValid x = true → IsTile x := by decide
    exact Or.inl (hall t h37 ht)
  · exact Or.inr (not_le.mp h37)

/-- The quick test with a wild tile more decides whether some suit or honour tile is a winning
draw. -/
lemma exists_winsAfter_iff (hn : p.hasNewCard = true)
    (hv : ∀ x ∈ p.newCard :: p.cardList, MJCard.isValid x = true)
    (hc : c ∈ p.newCard :: p.cardList) :
    (∃ t, IsTile t ∧ p.WinsAfter L c t) ↔ MJMath.canHu (addAt (p.restMap L c) 0 1) = true := by
  have hgap := restMap_gap hn hv hc L
  constructor
  · rintro ⟨t, ht, hwin⟩
    by_cases hL : t ∈ L
    · exact (winsAfter_wild hn hc ht hL).mp hwin
    · exact (canHu_addWild_iff hgap).mpr ⟨t, ht, (winsAfter_natural hn hc ht hL).mp hwin⟩
  · intro hwild
    obtain ⟨t, ht, hwin⟩ := (canHu_addWild_iff hgap).mp hwild
    by_cases hL : t ∈ L
    · exact ⟨t, ht, (winsAfter_wild hn hc ht hL).mpr hwild⟩
    · exact ⟨t, ht, (winsAfter_natural hn hc ht hL).mpr hwin⟩

/-- The hints: the tiles on the map that leave a hand which a wild tile more completes. -/
lemma mem_getTingNormalCards (hn : p.hasNewCard = true)
    (hv : ∀ x ∈ p.newCard :: p.cardList, MJCard.isValid x = true) (node : TingNode) :
    node ∈ p.getTingNormalCards L ↔ node.playCard ∈ p.newCard :: p.cardList ∧
      node.playCard ∉ L ∧ node.playCard ≤ Zi7 ∧
      MJMath.canHu (addAt (p.restMap L node.playCard) 0 1) = true ∧
      node.huCardList = getCanHuCards (p.restMap L node.playCard) := by
  -- the map without one copy of a tile is the map of the tiles left
  have hcopy : ∀ c ∈ p.newCard :: p.cardList, c ∉ L → c ≤ Zi7 →
      (fun i => if i = c then tileMap L (p.newCard :: p.cardList) i - 1
        else tileMap L (p.newCard :: p.cardList) i) = p.restMap L c := by
    intro c hc hL h37
    rw [restMap_eq hn hc, tileMap_perm L (List.perm_cons_erase hc)]
    funext i
    rw [tileMap_cons, tileEntry, if_pos h37, if_neg hL]
    split_ifs <;> omega
  rw [getTingNormalCards, hn, transHandCardsToCountMap_new hn]
  simp only [Bool.not_true, Bool.false_eq_true, if_false, List.mem_filterMap]
  constructor
  · rintro ⟨c, hc, hnode⟩
    rw [indices, List.mem_range'_1] at hc
    split_ifs at hnode with hpos hhu
    obtain ⟨h37, hL, hmem⟩ := (tileMap_pos_iff (by omega)).mp hpos
    rw [hcopy c hmem hL h37] at hhu hnode
    obtain rfl := Option.some.inj hnode
    exact ⟨hmem, hL, h37, hhu, rfl⟩
  · rintro ⟨hmem, hL, h37, hhu, hlist⟩
    have h0 : node.playCard ≠ 0 := ne_kCardNull_of_isValid (hv _ hmem)
    refine ⟨node.playCard, ?_, ?_⟩
    · rw [indices, List.mem_range'_1]
      exact ⟨by omega, by unfold Zi7 at h37; omega⟩
    · rw [if_pos ((tileMap_pos_iff h0).mpr ⟨h37, hL, hmem⟩), hcopy _ hmem hL h37, if_pos hhu,
        ← hlist]

/-- No tile is listed twice. -/
lemma nodup_playCards (p : MJPlayer) (L : List ℕ) :
    ((p.getTingNormalCards L).map TingNode.playCard).Nodup := by
  have hindices : indices.Nodup := by decide
  unfold getTingNormalCards
  split_ifs
  · exact List.nodup_nil
  · have hsub : ∀ (f : ℕ → Option TingNode) (l : List ℕ),
        (∀ c node, f c = some node → node.playCard = c) →
          ((l.filterMap f).map TingNode.playCard).Sublist l := by
      intro f l hf
      induction l with
      | nil => exact List.Sublist.slnil
      | cons c l ih =>
        rw [List.filterMap_cons]
        cases hfc : f c with
        | none => exact ih.cons c
        | some node =>
          rw [List.map_cons, hf c node hfc]
          exact ih.cons_cons c
    refine hindices.sublist (hsub _ _ fun c node hnode => ?_)
    dsimp only at hnode
    split_ifs at hnode
    rw [← Option.some.inj hnode]

end Hints

/-- **When the hints are exact**: for every hand of tiles with a new one and every list of wild
tiles, the hints are exact if and only if `TingSettled` holds.

**Proof sketch.** A tile is listed if it has a place on the map and the quick test succeeds
(`mem_getTingNormalCards`), and the test succeeds if and only if some suit or honour tile is a
winning draw (`exists_winsAfter_iff`). Of the draws, `getCanHuCards` finds those that complete the
hand at their own index (`mem_getCanHuCards`), while a wild tile of the list completes it whenever
the test succeeds. What is left are tiles beyond the map, played or drawn. -/
theorem tingHints_exact_iff (p : MJPlayer) (L : List ℕ) (hn : p.hasNewCard = true)
    (hv : ∀ x ∈ p.newCard :: p.cardList, MJCard.isValid x = true) :
    p.TingHintsExact L ↔ p.TingSettled L := by
  have hmem := mem_getTingNormalCards (L := L) hn hv
  constructor
  · intro hexact c hc hL
    by_cases hready : c ≤ Zi7 ∧ MJMath.canHu (addAt (p.restMap L c) 0 1) = true
    · refine Or.inl ⟨hready.1, hready.2, fun w hw hwt => ?_⟩
      have hnode := (hmem ⟨c, getCanHuCards (p.restMap L c)⟩).mpr
        ⟨hc, hL, hready.1, hready.2, rfl⟩
      have hwin : p.WinsAfter L c w := (winsAfter_wild hn hc hwt hw).mpr hready.2
      exact ((mem_getCanHuCards (restMap_gap hn hv hc L)).mp
        ((hexact.draws _ hnode w).mpr ⟨hwt, hwin⟩)).2
    · -- the tile is not listed, and so no draw wins
      have hnone : ∀ t, MJCard.isValid t = true → ¬p.WinsAfter L c t := by
        intro t ht hwin
        obtain ⟨node, hnode, rfl⟩ := (hexact.listed c).mpr ⟨hc, hL, t, ht, hwin⟩
        have h := (hmem node).mp hnode
        exact hready ⟨h.2.2.1, h.2.2.2.1⟩
      refine Or.inr ⟨?_, fun t ht h37 => ?_⟩
      · rw [← Bool.not_eq_true, ← exists_winsAfter_iff hn hv hc]
        rintro ⟨t, ht, hwin⟩
        exact hnone t ht.isValid hwin
      · rw [← Bool.not_eq_true, ← winsAfter_beyond hn hc ht h37]
        exact hnone t ht
  · intro hsettled
    have hdraw : ∀ c ∈ p.newCard :: p.cardList, c ∉ L → ∀ t, MJCard.isValid t = true →
        p.WinsAfter L c t → c ≤ Zi7 ∧ MJMath.canHu (addAt (p.restMap L c) 0 1) = true := by
      intro c hc hL t ht hwin
      rcases hsettled c hc hL with h | ⟨hno, hbeyond⟩
      · exact ⟨h.1, h.2.1⟩
      · rcases isTile_or_lt ht with htile | h37
        · have := (exists_winsAfter_iff hn hv hc).mp ⟨t, htile, hwin⟩
          rw [hno] at this
          exact absurd this (by decide)
        · have := (winsAfter_beyond hn hc ht h37).mp hwin
          rw [hbeyond t ht h37] at this
          exact absurd this (by decide)
    refine ⟨fun c => ⟨?_, ?_⟩, fun node hnode j => ?_, ?_⟩
    · rintro ⟨node, hnode, rfl⟩
      obtain ⟨hc, hL, -, hhu, -⟩ := (hmem node).mp hnode
      obtain ⟨t, ht, hwin⟩ := (exists_winsAfter_iff hn hv hc).mpr hhu
      exact ⟨hc, hL, t, ht.isValid, hwin⟩
    · rintro ⟨hc, hL, t, ht, hwin⟩
      obtain ⟨h37, hhu⟩ := hdraw c hc hL t ht hwin
      exact ⟨_, (hmem ⟨c, getCanHuCards (p.restMap L c)⟩).mpr ⟨hc, hL, h37, hhu, rfl⟩, rfl⟩
    · obtain ⟨hc, hL, h37, hhu, hlist⟩ := (hmem node).mp hnode
      rw [hlist, mem_getCanHuCards (restMap_gap hn hv hc L)]
      refine and_congr_right fun hj => ?_
      by_cases hjL : j ∈ L
      · rw [winsAfter_wild hn hc hj hjL]
        refine iff_of_true ?_ hhu
        rcases hsettled _ hc hL with h | ⟨hno, -⟩
        · exact h.2.2 j hjL hj
        · rw [hhu] at hno
          exact absurd hno (by decide)
      · rw [winsAfter_natural hn hc hj hjL]
    · exact nodup_playCards p L

/-- A player with four exposed triplets, the tile `5` and the new tile `9`. -/
def twoTiles : MJPlayer :=
  ⟨9, [5], [⟨[11, 11, 11], .peng, some 0⟩, ⟨[12, 12, 12], .peng, some 0⟩,
    ⟨[13, 13, 13], .peng, some 0⟩, ⟨[14, 14, 14], .peng, some 0⟩], .newCard, []⟩

/-- Two tiles, one of them wild: the hints are exact. -/
theorem tingHints_exact_of_wild_five : twoTiles.TingHintsExact [5] := by
  refine (tingHints_exact_iff twoTiles [5] (by decide) (by decide)).mpr ?_
  have hcheck : ∀ c ∈ twoTiles.newCard :: twoTiles.cardList, c ∉ [5] → c ≤ Zi7 ∧
      MJMath.canHu (addAt (twoTiles.restMap [5] c) 0 1) = true ∧
        ∀ w ∈ [5], MJMath.canHu (addAt (twoTiles.restMap [5] c) w 1) = true := by decide +kernel
  exact fun c hc hL => Or.inl ⟨(hcheck c hc hL).1, (hcheck c hc hL).2.1,
    fun w hw _ => (hcheck c hc hL).2.2 w hw⟩

/-- Two natural tiles and the wild tile `35`: after `9` is played the wild tile completes the pair,
and it is missing from the hint. -/
theorem tingHints_miss_wild :
    ⟨9, [5]⟩ ∈ twoTiles.getTingNormalCards [35] ∧ twoTiles.WinsAfter [35] 9 35 ∧
      ¬twoTiles.TingHintsExact [35] := by
  have hnode : ⟨9, [5]⟩ ∈ twoTiles.getTingNormalCards [35] := by decide +kernel
  have hwin : twoTiles.WinsAfter [35] 9 35 := by
    unfold WinsAfter
    decide +kernel
  have htile : IsTile 35 := by decide
  refine ⟨hnode, hwin, fun hexact => ?_⟩
  have := (hexact.draws _ hnode 35).mpr ⟨htile, hwin⟩
  exact absurd this (by decide)

end MJPlayer

end Mahjong
