import JsmjServer.Mahjong.Table
import Mathlib.Algebra.Order.BigOperators.Group.Finset

set_option relaxedAutoImplicit false
set_option autoImplicit false

/-!
# The deal

What `GameBegin:dealHandCards` gives the seats: thirteen tiles each and one more for the banker, and
the tiles of the players and of the wall together are those of the wall before. In the games with
flowers these are then exchanged for tiles of the wall; how a game puts a flower aside and which
tiles count as flowers are parameters here.

## Main definitions

* `Mahjong.dealTo` — the deal to given seats.
* `Mahjong.exchangeFlowers` — the exchange of a player's flowers.

## Main results

* `Mahjong.dealTo_spec` — the hands after the deal.
* `Mahjong.exchangeAll_spec` — the hands after the exchange of the flowers.
-/

namespace Mahjong

/-- A hand as it is dealt. -/
def Dealt (player : MJPlayer) : Prop :=
  player.hasNewCard = false ∧ player.cardList.length = 13 ∧ player.pileList = [] ∧
    player.huaList = []

lemma Dealt.tiles {player : MJPlayer} (h : Dealt player) : player.tiles = ↑player.cardList := by
  rw [MJPlayer.tiles_of_not_hasNewCard h.1, h.2.2.1, h.2.2.2]
  simp

/-- The tiles of the inner loop of the deal. -/
lemma dealHand_spec (n : ℕ) (player : MJPlayer) (wall : List ℕ) (hn : n ≤ wall.length)
    (hv : ∀ c ∈ wall, MJCard.isValid c = true) :
    ∃ l, l.Perm (player.cardList ++ wall.take n) ∧
      dealHand n player wall = ({ player with cardList := l }, wall.drop n) := by
  induction n generalizing player wall with
  | zero => exact ⟨player.cardList, by simp, rfl⟩
  | succ n ih =>
    cases wall with
    | nil => simp at hn
    | cons c wall =>
      have hadd : player.addHandCard c = { player with
          cardList := (player.cardList ++ [c]).insertionSort (· ≤ ·) } :=
        if_pos (hv c (by simp))
      obtain ⟨l, hperm, hdeal⟩ := ih (player.addHandCard c) wall (by simpa using hn)
        fun x hx => hv x (by simp [hx])
      refine ⟨l, ?_, by rw [dealHand, hdeal, hadd, List.drop_succ_cons]⟩
      rw [hadd] at hperm
      refine hperm.trans ?_
      have hsort := List.perm_insertionSort (· ≤ ·) (player.cardList ++ [c])
      simpa using hsort.append_right (wall.take n)

/-- The tiles of the outer loop of the deal. -/
lemma deal_spec (l : List Seat) (r : (Seat → MJPlayer) × List ℕ)
    (hlen : 13 * l.length ≤ r.2.length) (hnodup : l.Nodup) (hnew : ∀ p ∈ l, r.1 p = MJPlayer.new)
    (hv : ∀ c ∈ r.2, MJCard.isValid c = true) :
    ∃ r', l.foldl (fun r pos => (Function.update r.1 pos (dealHand 13 MJPlayer.new r.2).1,
        (dealHand 13 MJPlayer.new r.2).2)) r = r' ∧
      r'.2 = r.2.drop (13 * l.length) ∧
      ∑ p, (r'.1 p).tiles + (r'.2 : Multiset ℕ) = ∑ p, (r.1 p).tiles + (r.2 : Multiset ℕ) ∧
      (∀ p ∈ l, Dealt (r'.1 p)) ∧ ∀ p ∉ l, r'.1 p = r.1 p := by
  induction l generalizing r with
  | nil => exact ⟨r, rfl, by simp, rfl, by simp, fun _ _ => rfl⟩
  | cons pos l ih =>
    rw [List.length_cons] at hlen
    obtain ⟨hand, hperm, hdeal⟩ := dealHand_spec 13 MJPlayer.new r.2 (by omega) hv
    rw [List.nodup_cons] at hnodup
    set r₁ : (Seat → MJPlayer) × List ℕ := (Function.update r.1 pos
      (dealHand 13 MJPlayer.new r.2).1, (dealHand 13 MJPlayer.new r.2).2) with hr₁
    have hwall : r₁.2 = r.2.drop 13 := by rw [hr₁, hdeal]
    have hhand : r₁.1 pos = { MJPlayer.new with cardList := hand } := by
      rw [hr₁, hdeal]
      exact Function.update_self _ _ _
    have hother : ∀ p, p ≠ pos → r₁.1 p = r.1 p := fun p hp => by
      rw [hr₁]
      exact Function.update_of_ne hp _ _
    have hdealt : Dealt (r₁.1 pos) := by
      rw [hhand]
      refine ⟨rfl, ?_, rfl, rfl⟩
      have hlength := hperm.length_eq
      simp only [MJPlayer.new, List.nil_append, List.length_take] at hlength
      show hand.length = 13
      omega
    have hnew₁ : ∀ p ∈ l, r₁.1 p = MJPlayer.new := by
      intro p hp
      have hne : p ≠ pos := by
        rintro rfl
        exact hnodup.1 hp
      rw [hother p hne]
      exact hnew p (by simp [hp])
    have hv₁ : ∀ c ∈ r₁.2, MJCard.isValid c = true := by
      intro c hc
      rw [hwall] at hc
      exact hv c (List.mem_of_mem_drop hc)
    obtain ⟨r', hfold, hrest, htiles, hall, hsame⟩ :=
      ih r₁ (by rw [hwall, List.length_drop]; omega) hnodup.2 hnew₁ hv₁
    refine ⟨r', hfold, ?_, ?_, fun p hp => ?_, fun p hp => ?_⟩
    · rw [hrest, hwall, List.drop_drop, List.length_cons]
      congr 1
      omega
    · have hsum := Table.sum_update (f := fun p => (r.1 p).tiles) pos (r₁.1 pos).tiles
      have hfun : (fun p => (r₁.1 p).tiles) =
          Function.update (fun p => (r.1 p).tiles) pos (r₁.1 pos).tiles := by
        funext p
        by_cases hp : p = pos
        · subst hp
          simp
        · simp [hp, hother p hp]
      have hzero : (r.1 pos).tiles = 0 := by
        rw [hnew pos (by simp)]
        rfl
      rw [hzero, add_zero] at hsum
      have htaken : (r₁.1 pos).tiles = ↑(r.2.take 13) := by
        rw [hdealt.tiles, hhand]
        exact Multiset.coe_eq_coe.mpr (by simpa [MJPlayer.new] using hperm)
      calc ∑ p, (r'.1 p).tiles + (r'.2 : Multiset ℕ)
          = ∑ p, (r₁.1 p).tiles + ↑(r.2.drop 13) := by rw [htiles, hwall]
        _ = ∑ p, (r.1 p).tiles + (↑(r.2.take 13) + ↑(r.2.drop 13)) := by
            rw [hfun, hsum, htaken, add_assoc]
        _ = ∑ p, (r.1 p).tiles + (r.2 : Multiset ℕ) := by
            rw [Multiset.coe_add, List.take_append_drop]
    · rcases List.mem_cons.mp hp with rfl | hp
      · rw [hsame p hnodup.1]
        exact hdealt
      · exact hall p hp
    · rw [List.mem_cons, not_or] at hp
      rw [hsame p hp.2, hother p hp.1]

/-- Thirteen tiles to each of the seats `l` in turn, and one more to the banker. -/
def dealTo (l : List Seat) (wall : List ℕ) (banker : Seat) : (Seat → MJPlayer) × List ℕ :=
  let r := l.foldl
    (fun r pos =>
      let d := dealHand 13 MJPlayer.new r.2
      (Function.update r.1 pos d.1, d.2))
    ((fun _ => MJPlayer.new : Seat → MJPlayer), wall)
  match r.2 with
  | [] => r
  | byteCard :: wall => (Function.update r.1 banker ((r.1 banker).addNewCard byteCard), wall)

/-- The hands after the deal of a wall with enough tiles. -/
lemma dealTo_spec {l : List Seat} {wall : List ℕ} {banker : Seat} (hnodup : l.Nodup)
    (hbanker : banker ∈ l) (hlen : 13 * l.length + 1 ≤ wall.length)
    (hv : ∀ c ∈ wall, MJCard.isValid c = true) :
    let r := dealTo l wall banker
    ∑ p, (r.1 p).tiles + ↑r.2 = (wall : Multiset ℕ) ∧ (∀ p ∈ l, (r.1 p).Sound) ∧
      (∀ p, (r.1 p).hasNewCard = true ↔ p = banker) ∧ (r.1 banker).justDoOper = .newCard ∧
      (∀ p, (r.1 p).huaList = []) ∧ (∀ p ∉ l, r.1 p = MJPlayer.new) ∧
      r.2.length + (13 * l.length + 1) = wall.length := by
  obtain ⟨r, hfold, hrest, htiles, hdealt, hsame⟩ := deal_spec l
    ((fun _ => MJPlayer.new : Seat → MJPlayer), wall) (by dsimp only; omega) hnodup
    (fun _ _ => rfl) hv
  have hnil : ∑ p, ((fun _ => MJPlayer.new : Seat → MJPlayer) p).tiles = 0 := by
    simp [MJPlayer.new, MJPlayer.tiles]
  rw [hnil, zero_add] at htiles
  have hvalid : ∀ p, ∀ c ∈ (r.1 p).tiles, MJCard.isValid c = true := by
    intro p c hc
    apply hv
    rw [← Multiset.mem_coe, ← htiles, Multiset.mem_add, Multiset.mem_sum]
    exact Or.inl ⟨p, Finset.mem_univ _, hc⟩
  have hsound : ∀ p ∈ l, (r.1 p).Sound := by
    intro p hp
    obtain ⟨-, hlength, hpile, -⟩ := hdealt p hp
    exact ⟨by rw [hlength, hpile]; rfl, by rw [hpile]; simp, hvalid p⟩
  have hnone : ∀ p, (r.1 p).hasNewCard = false ∧ (r.1 p).huaList = [] := by
    intro p
    by_cases hp : p ∈ l
    · exact ⟨(hdealt p hp).1, (hdealt p hp).2.2.2⟩
    · rw [hsame p hp]
      exact ⟨rfl, rfl⟩
  have hrestlen : r.2.length + 13 * l.length = wall.length := by
    rw [hrest, List.length_drop]
    dsimp only
    omega
  obtain ⟨c, rest, hwall⟩ : ∃ c rest, r.2 = c :: rest :=
    List.exists_cons_of_length_pos (by omega)
  have hvc : MJCard.isValid c = true := by
    apply hv
    apply List.mem_of_mem_drop (i := 13 * l.length)
    rw [← hrest, hwall]
    simp
  obtain ⟨hs, htiles', hnew, hjust, -⟩ :=
    MJPlayer.addNewCard_sound (hsound banker hbanker) (hnone banker).1 hvc
  have hdeal : dealTo l wall banker =
      (Function.update r.1 banker ((r.1 banker).addNewCard c), rest) := by
    unfold dealTo
    dsimp only
    rw [hfold, hwall]
  have hplayer : ∀ p, Function.update r.1 banker ((r.1 banker).addNewCard c) p =
      if p = banker then (r.1 banker).addNewCard c else r.1 p := fun p => by
    rw [Function.update_apply]
  have hhua : ((r.1 banker).addNewCard c).huaList = [] := by
    rw [MJPlayer.addNewCard, if_pos hvc]
    exact (hnone banker).2
  rw [hdeal]
  dsimp only
  refine ⟨?_, fun p hp => ?_, fun p => ?_, ?_, fun p => ?_, fun p hp => ?_, ?_⟩
  · have hsum := Table.sum_update (f := fun p => (r.1 p).tiles) banker
      ((r.1 banker).addNewCard c).tiles
    have hfun : (fun p => (Function.update r.1 banker ((r.1 banker).addNewCard c) p).tiles) =
        Function.update (fun p => (r.1 p).tiles) banker ((r.1 banker).addNewCard c).tiles := by
      funext p
      by_cases hp : p = banker
      · subst hp
        simp
      · simp [hp]
    rw [htiles', ← Multiset.singleton_add, ← add_assoc] at hsum
    have hsum' := add_right_cancel hsum
    rw [hfun, htiles', ← Multiset.singleton_add, hsum', ← htiles, hwall, ← Multiset.cons_coe,
      ← Multiset.singleton_add]
    abel
  · rw [hplayer]
    split_ifs
    · exact hs
    · exact hsound p hp
  · rw [hplayer]
    by_cases hp : p = banker
    · simp [hp, hnew]
    · simp [hp, (hnone p).1]
  · rw [hplayer, if_pos rfl]
    exact hjust
  · rw [hplayer]
    split_ifs
    · exact hhua
    · exact (hnone p).2
  · rw [hplayer, if_neg, hsame p hp]
    rintro rfl
    exact hp hbanker
  · rw [hwall, List.length_cons] at hrestlen
    omega

/-- The hands after the deal to four seats. -/
lemma dealHandCards_spec {wall : List ℕ} (banker : Seat) (hlen : 53 ≤ wall.length)
    (hv : ∀ c ∈ wall, MJCard.isValid c = true) :
    ∑ p, ((dealHandCards wall banker).1 p).tiles + ↑(dealHandCards wall banker).2 =
        (wall : Multiset ℕ) ∧
      (∀ p, ((dealHandCards wall banker).1 p).Sound) ∧
      (∀ p, ((dealHandCards wall banker).1 p).hasNewCard = true ↔ p = banker) ∧
      ((dealHandCards wall banker).1 banker).justDoOper = .newCard ∧
      (∀ p, ((dealHandCards wall banker).1 p).huaList = []) ∧
      (dealHandCards wall banker).2.length + 53 = wall.length := by
  have hall : ∀ p : Seat, p ∈ seats := List.mem_finRange
  obtain ⟨htiles, hsound, hnew, hjust, hhua, -, hrest⟩ :=
    dealTo_spec (l := seats) (List.nodup_finRange 4) (hall banker) (by simpa [seats] using hlen) hv
  exact ⟨htiles, fun p => hsound p (hall p), hnew, hjust, hhua, hrest⟩

/-! ### The exchange of the flowers -/

section Exchange

variable (constHuaList : List ℕ) (addHua : MJPlayer → ℕ → MJPlayer)

/-- The flowers a player has not yet put aside. -/
def flowerCount (player : MJPlayer) : ℕ :=
  (player.newCard :: player.cardList).countP (· ∈ constHuaList)

/-- A flower is put aside by `addHua`, and the tile `b` takes its place in the hand or as the new
tile. -/
def exchangeFlower (player : MJPlayer) (b : ℕ) : MJPlayer :=
  let c := player.getHua constHuaList
  let r := (addHua player c).delHandCard c
  if !r.1 then (r.2.delNewCard c).2.addNewCard b else r.2.addHandCard b

/-- The flowers of a player are exchanged, while there are tiles in the wall. -/
def exchangeFlowers (player : MJPlayer) : List ℕ → MJPlayer × List ℕ
  | [] => (player, [])
  | b :: wall =>
    if player.hasHua constHuaList then
      exchangeFlowers (exchangeFlower constHuaList addHua player b) wall
    else (player, b :: wall)

/-- `addHua` puts the tile to the flowers, and may note what was done last. -/
def PutsAside : Prop :=
  ∀ player c, ∃ o, addHua player c =
    { player with huaList := player.huaList ++ [c], justDoOper := o }

variable {constHuaList addHua} {player : MJPlayer} {b : ℕ} {wall : List ℕ}

lemma hasHua_iff_flowerCount :
    player.hasHua constHuaList = true ↔ flowerCount constHuaList player ≠ 0 := by
  rw [flowerCount, Ne, List.countP_eq_zero]
  simp only [MJPlayer.hasHua, Bool.or_eq_true, List.any_eq_true, List.contains_iff_mem,
    List.mem_cons, decide_eq_true_eq]
  push Not
  constructor
  · rintro (⟨c, hc, hmem⟩ | hnew)
    · exact ⟨c, Or.inr hc, hmem⟩
    · exact ⟨_, Or.inl rfl, hnew⟩
  · rintro ⟨c, rfl | hc, hmem⟩
    · exact Or.inr hmem
    · exact Or.inl ⟨c, hc, hmem⟩

/-- A flower is found in the hand, or else it is the new tile. -/
lemma exchangeFlower_cases (ha : PutsAside addHua) (h : player.hasHua constHuaList = true)
    (hv : MJCard.isValid b = true) :
    (∃ c ∈ constHuaList, c ∈ player.cardList ∧ ∃ l o, l.Perm (b :: player.cardList.erase c) ∧
      exchangeFlower constHuaList addHua player b =
        { player with cardList := l, huaList := player.huaList ++ [c], justDoOper := o }) ∨
    (player.newCard ∈ constHuaList ∧ exchangeFlower constHuaList addHua player b = { player with
      newCard := b
      huaList := player.huaList ++ [player.newCard]
      justDoOper := .newCard }) := by
  unfold exchangeFlower MJPlayer.getHua
  cases hfind : player.cardList.find? (constHuaList.contains ·) with
  | some c =>
    have hmem := List.mem_of_find?_eq_some hfind
    have hhua : c ∈ constHuaList := by simpa using List.find?_some hfind
    obtain ⟨o, haside⟩ := ha player c
    refine Or.inl ⟨c, hhua, hmem, (player.cardList.erase c ++ [b]).insertionSort (· ≤ ·), o,
      (List.perm_insertionSort _ _).trans (List.perm_append_singleton _ _), ?_⟩
    simp only [haside, MJPlayer.delHandCard_fst, MJPlayer.delHandCard_snd, hmem, decide_true,
      Bool.not_true, Bool.false_eq_true, if_false, MJPlayer.addHandCard, hv, if_true]
    rfl
  | none =>
    have hnone : ∀ c ∈ player.cardList, c ∉ constHuaList := by
      intro c hc
      have := List.find?_eq_none.mp hfind c hc
      simpa using this
    have hnew : player.newCard ∈ constHuaList := by
      simp only [MJPlayer.hasHua, Bool.or_eq_true, List.any_eq_true, List.contains_iff_mem] at h
      rcases h with ⟨c, hc, hmem⟩ | h
      · exact absurd hmem (hnone c hc)
      · exact h
    have hnot : player.newCard ∉ player.cardList := fun hc => hnone _ hc hnew
    obtain ⟨o, haside⟩ := ha player player.newCard
    refine Or.inr ⟨hnew, ?_⟩
    simp only [List.contains_iff_mem.mpr hnew, if_true, haside, MJPlayer.delHandCard_fst,
      MJPlayer.delHandCard_snd, hnot, decide_false, Bool.not_false, MJPlayer.delNewCard,
      MJPlayer.addNewCard, hv]
    rw [List.erase_of_not_mem hnot]

/-- An exchange takes in the tile, and leaves one flower less. -/
lemma exchangeFlower_spec (ha : PutsAside addHua) (hnull : kCardNull ∉ constHuaList)
    (hs : player.Sound) (h : player.hasHua constHuaList = true) (hv : MJCard.isValid b = true) :
    (exchangeFlower constHuaList addHua player b).Sound ∧
      (exchangeFlower constHuaList addHua player b).tiles = b ::ₘ player.tiles ∧
      (exchangeFlower constHuaList addHua player b).hasNewCard = player.hasNewCard ∧
      flowerCount constHuaList (exchangeFlower constHuaList addHua player b) + 1 =
        flowerCount constHuaList player + [b].countP (· ∈ constHuaList) := by
  have hb := MJPlayer.ne_kCardNull_of_isValid hv
  have hvalid : ∀ {q : MJPlayer}, q.tiles = b ::ₘ player.tiles →
      ∀ t ∈ q.tiles, MJCard.isValid t = true := by
    intro q hq t ht
    rw [hq, Multiset.mem_cons] at ht
    rcases ht with rfl | ht
    · exact hv
    · exact hs.valid t ht
  rcases exchangeFlower_cases ha h hv with ⟨c, hc, hmem, l, o, hperm, heq⟩ | ⟨hnew, heq⟩
  · have hcard : (player.cardList : Multiset ℕ) = c ::ₘ ↑(player.cardList.erase c) :=
      Multiset.coe_eq_coe.mpr (List.perm_cons_erase hmem)
    have htiles : (exchangeFlower constHuaList addHua player b).tiles = b ::ₘ player.tiles := by
      rw [heq]
      simp only [MJPlayer.tiles, hcard, Multiset.coe_eq_coe.mpr hperm, ← Multiset.cons_coe,
        ← Multiset.coe_add, ← Multiset.singleton_add]
      rw [Multiset.coe_nil]
      abel
    refine ⟨⟨?_, ?_, hvalid htiles⟩, htiles, by rw [heq]; rfl, ?_⟩
    · rw [heq]
      have hlen := hperm.length_eq
      rw [List.length_cons, List.length_erase_of_mem hmem] at hlen
      have hpos := List.length_pos_of_mem hmem
      have hsize := hs.size
      dsimp only
      omega
    · rw [heq]
      exact hs.formed
    · rw [heq]
      have hold := (List.perm_cons_erase hmem).countP_eq (· ∈ constHuaList)
      have hnew := hperm.countP_eq (· ∈ constHuaList)
      have hone : List.countP (· ∈ constHuaList) (c :: player.cardList.erase c) =
          List.countP (· ∈ constHuaList) (player.cardList.erase c) + 1 :=
        List.countP_cons_of_pos (by simpa using hc)
      simp only [flowerCount, List.countP_cons, List.countP_nil] at hold hnew hone ⊢
      omega
  · have hne : player.newCard ≠ kCardNull := by
      intro heq
      rw [heq] at hnew
      exact hnull hnew
    have htiles : (exchangeFlower constHuaList addHua player b).tiles = b ::ₘ player.tiles := by
      rw [heq]
      simp only [MJPlayer.tiles, MJPlayer.newTiles_of_ne hb, MJPlayer.newTiles_of_ne hne,
        ← Multiset.coe_add, Multiset.coe_singleton, ← Multiset.singleton_add]
      abel
    refine ⟨⟨?_, ?_, hvalid htiles⟩, htiles, ?_, ?_⟩
    · rw [heq]
      exact hs.size
    · rw [heq]
      exact hs.formed
    · rw [heq]
      show (b != kCardNull) = (player.newCard != kCardNull)
      rw [bne_iff_ne.mpr hb, bne_iff_ne.mpr hne]
    · rw [heq]
      simp only [flowerCount, List.countP_cons, List.countP_nil, hnew, decide_true, if_true]
      omega

/-- The exchange of a player's flowers, when the wall has enough other tiles. -/
lemma exchangeFlowers_spec (ha : PutsAside addHua) (hnull : kCardNull ∉ constHuaList)
    (hs : player.Sound) (hv : ∀ c ∈ wall, MJCard.isValid c = true)
    (hlen : flowerCount constHuaList player + wall.countP (· ∈ constHuaList) ≤ wall.length) :
    let r := exchangeFlowers constHuaList addHua player wall
    r.1.Sound ∧ flowerCount constHuaList r.1 = 0 ∧ r.1.tiles + ↑r.2 = player.tiles + ↑wall ∧
      r.1.hasNewCard = player.hasNewCard ∧ (∀ c ∈ r.2, c ∈ wall) ∧
      flowerCount constHuaList player + wall.countP (· ∈ constHuaList) + r.2.length =
        r.2.countP (· ∈ constHuaList) + wall.length := by
  induction wall generalizing player with
  | nil =>
    simp only [List.countP_nil, List.length_nil] at hlen
    have hzero : flowerCount constHuaList player = 0 := by omega
    exact ⟨hs, hzero, rfl, rfl, fun c hc => hc, by simp [hzero, exchangeFlowers]⟩
  | cons b wall ih =>
    rw [exchangeFlowers]
    split_ifs with hhua
    · obtain ⟨hsound, htiles, hnew, hflow⟩ :=
        exchangeFlower_spec ha hnull hs hhua (hv b (by simp))
      have hcount : (b :: wall).countP (· ∈ constHuaList) =
          [b].countP (· ∈ constHuaList) + wall.countP (· ∈ constHuaList) := by
        rw [← List.countP_append, List.singleton_append]
      rw [hcount, List.length_cons] at hlen
      obtain ⟨h1, h2, h3, h4, h5, h6⟩ :=
        ih hsound (fun c hc => hv c (List.mem_cons_of_mem _ hc)) (by omega)
      refine ⟨h1, h2, ?_, h4.trans hnew, fun c hc => List.mem_cons_of_mem _ (h5 c hc), ?_⟩
      · rw [h3, htiles, ← Multiset.cons_coe, ← Multiset.singleton_add, ← Multiset.singleton_add]
        abel
      · rw [hcount, List.length_cons]
        omega
    · have hzero : flowerCount constHuaList player = 0 := by
        by_contra hne
        exact hhua (hasHua_iff_flowerCount.mpr hne)
      exact ⟨hs, hzero, rfl, rfl, fun c hc => hc, by rw [hzero, zero_add]⟩

/-- The exchange of the flowers of the seats `l`, one after the other. -/
lemma exchangeAll_spec (ha : PutsAside addHua) (hnull : kCardNull ∉ constHuaList) (l : List Seat)
    (r : (Seat → MJPlayer) × List ℕ) (hnodup : l.Nodup) (hs : ∀ p ∈ l, (r.1 p).Sound)
    (hv : ∀ c ∈ r.2, MJCard.isValid c = true)
    (hlen : (l.map fun p => flowerCount constHuaList (r.1 p)).sum +
      r.2.countP (· ∈ constHuaList) ≤ r.2.length) :
    ∃ r', l.foldl (fun r pos =>
        let d := exchangeFlowers constHuaList addHua (r.1 pos) r.2
        (Function.update r.1 pos d.1, d.2)) r = r' ∧
      (∀ p ∈ l, (r'.1 p).Sound) ∧ (∀ p ∈ l, flowerCount constHuaList (r'.1 p) = 0) ∧
      (∀ p, (r'.1 p).hasNewCard = (r.1 p).hasNewCard) ∧ (∀ p, p ∉ l → r'.1 p = r.1 p) ∧
      ∑ p, (r'.1 p).tiles + ↑r'.2 = ∑ p, (r.1 p).tiles + (r.2 : Multiset ℕ) := by
  induction l generalizing r with
  | nil => exact ⟨r, rfl, by simp, by simp, fun _ => rfl, fun _ _ => rfl, rfl⟩
  | cons pos l ih =>
    rw [List.nodup_cons] at hnodup
    rw [List.map_cons, List.sum_cons] at hlen
    obtain ⟨hsound, hzero, htiles, hnew, hsub, hcount⟩ :=
      exchangeFlowers_spec ha hnull (hs pos (by simp)) hv (by omega)
    set d := exchangeFlowers constHuaList addHua (r.1 pos) r.2 with hd
    set r₁ : (Seat → MJPlayer) × List ℕ := (Function.update r.1 pos d.1, d.2) with hr₁
    have hat : ∀ p, r₁.1 p = if p = pos then d.1 else r.1 p := fun p =>
      Function.update_apply _ _ _ _
    have hother : ∀ p ∈ l, r₁.1 p = r.1 p := by
      intro p hp
      have hne : p ≠ pos := by
        rintro rfl
        exact hnodup.1 hp
      rw [hat, if_neg hne]
    have hmap : (l.map fun p => flowerCount constHuaList (r₁.1 p)) =
        l.map fun p => flowerCount constHuaList (r.1 p) :=
      List.map_congr_left fun p hp => by rw [hother p hp]
    obtain ⟨r', hfold, h1, h2, h3, h4, h5⟩ := ih r₁ hnodup.2
      (fun p hp => by
        rw [hother p hp]
        exact hs p (List.mem_cons_of_mem _ hp))
      (fun c hc => hv c (hsub c hc))
      (by
        rw [hmap]
        show _ + List.countP _ d.2 ≤ d.2.length
        omega)
    refine ⟨r', hfold, fun p hp => ?_, fun p hp => ?_, fun p => ?_, fun p hp => ?_, ?_⟩
    · rcases List.mem_cons.mp hp with rfl | hp
      · rw [h4 p hnodup.1, hat, if_pos rfl]
        exact hsound
      · exact h1 p hp
    · rcases List.mem_cons.mp hp with rfl | hp
      · rw [h4 p hnodup.1, hat, if_pos rfl]
        exact hzero
      · exact h2 p hp
    · rw [h3 p, hat]
      split_ifs with hp
      · rw [hp]
        exact hnew
      · rfl
    · rw [List.mem_cons, not_or] at hp
      rw [h4 p hp.2, hat, if_neg hp.1]
    · have hfun : (fun p => (r₁.1 p).tiles) =
          Function.update (fun p => (r.1 p).tiles) pos d.1.tiles := by
        funext p
        rw [hat, Function.update_apply]
        split_ifs <;> rfl
      have hsum := Table.sum_update (f := fun p => (r.1 p).tiles) pos d.1.tiles
      rw [h5]
      have hcancel : (∑ p, (r₁.1 p).tiles + ↑d.2) + (r.1 pos).tiles =
          (∑ p, (r.1 p).tiles + ↑r.2) + (r.1 pos).tiles := by
        calc _ = (∑ p, (r₁.1 p).tiles + (r.1 pos).tiles) + ↑d.2 := by abel
          _ = (∑ p, (r.1 p).tiles + d.1.tiles) + ↑d.2 := by rw [hfun, hsum]
          _ = ∑ p, (r.1 p).tiles + (d.1.tiles + ↑d.2) := by abel
          _ = _ := by
            rw [htiles]
            abel
      exact add_right_cancel hcancel

/-- A player's flowers that are not yet put aside are among its tiles. -/
lemma flowerCount_le (hnull : kCardNull ∉ constHuaList) (player : MJPlayer) :
    flowerCount constHuaList player ≤ player.tiles.countP (· ∈ constHuaList) := by
  rw [flowerCount, MJPlayer.tiles]
  by_cases hnew : player.hasNewCard = true
  · rw [MJPlayer.newTiles_of_hasNewCard hnew, Multiset.singleton_add, Multiset.cons_coe]
    simp only [Multiset.countP_add, Multiset.coe_countP]
    omega
  · rw [Bool.not_eq_true] at hnew
    rw [MJPlayer.newCard_of_not_hasNewCard hnew, MJPlayer.newTiles_kCardNull, zero_add]
    rw [List.countP_cons_of_neg (by simpa using hnull)]
    simp only [Multiset.countP_add, Multiset.coe_countP]
    omega

/-- The flowers of all seats and of the wall are no more than those among all the tiles. -/
lemma sum_flowerCount_le (hnull : kCardNull ∉ constHuaList) (r : (Seat → MJPlayer) × List ℕ) :
    ∑ p, flowerCount constHuaList (r.1 p) + r.2.countP (· ∈ constHuaList) ≤
      (∑ p, (r.1 p).tiles + ↑r.2).countP (· ∈ constHuaList) := by
  rw [Multiset.countP_add, Multiset.coe_countP]
  have hle : ∑ p, flowerCount constHuaList (r.1 p) ≤
      (∑ p, (r.1 p).tiles).countP (· ∈ constHuaList) := by
    rw [← Multiset.coe_countPAddMonoidHom, map_sum]
    exact Finset.sum_le_sum fun p _ => flowerCount_le hnull (r.1 p)
  omega

end Exchange

end Mahjong
