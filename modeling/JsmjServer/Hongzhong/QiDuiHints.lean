import JsmjServer.Mahjong.CountMap
import JsmjServer.Hongzhong.GamePlaying
import Mathlib.Data.List.GetD

set_option relaxedAutoImplicit false
set_option autoImplicit false

/-!
# Hints for seven pairs in hongzhong mahjong

`HZMJPlayer:getTingQiDuiCards` of `hongzhongmj/HZMJPlayer.lua`: which tile to play, and which draw
then completes seven pairs. It compares the number of tiles with an odd count with the number of
wild tiles held.

## Main definitions

* `Hongzhong.getTingQiDuiCards` — the hints.
* `Hongzhong.IsDraw`, `Hongzhong.Wins` — the tiles of a hand or a draw; a draw after a discard
  completes seven pairs.
* `Hongzhong.QiDuiHintsExact` — the hints name each discard that leaves a winning draw once, with
  its draws.

## Main results

* `Hongzhong.canHuQiDui_iff` — fourteen tiles are seven pairs if and only if there are as many wild
  tiles as odd ones.
* `Hongzhong.qiDuiHints_exact_iff` — for which hands the hints are exact.
-/

namespace Hongzhong

open Mahjong MJPlayer

/-! ### The hints -/

/-- `MJConst.Baida`, which stands for every tile in a list of draws. -/
def Baida : ℕ := 62

/-- `TingNode`: a tile to play, the tiles that win then, and whether every tile does. -/
structure TingNode where
  playCard : ℕ
  huCardList : List ℕ
  isDiaoDa : ℕ
  deriving DecidableEq

/-- `HZMJPlayer:getTingQiDuiCards`. -/
def getTingQiDuiCards (p : MJPlayer) (baiDaList : List ℕ) : List TingNode :=
  if !p.hasNewCard || 0 < p.pileList.length then []
  else
    let countMap := p.transHandCardsToCountMap true baiDaList
    let singleCards := MJMath.countSingle countMap
    let baidaCount := hasBaiDa p baiDaList.head?
    let count : ℤ := singleCards.length - baidaCount
    if count = 2 then
      if baidaCount = 0 then
        [⟨singleCards.getD 0 0, [singleCards.getD 1 0], 0⟩,
          ⟨singleCards.getD 1 0, [singleCards.getD 0 0], 0⟩]
      else singleCards.map fun v => ⟨v, singleCards.filter (· ≠ v), 0⟩
    else if count = 0 then
      if 0 < baidaCount then singleCards.map fun v => ⟨v, [Baida], 1⟩ else []
    else if count < 0 then
      (p.getAllHandCards.filter (· ≠ Baida)).map fun v => ⟨v, [Baida], 1⟩
    else []

/-- A tile that a hand may hold and a draw may give: a suit or honour tile, or the wild tile. -/
def IsDraw (w t : ℕ) : Prop := IsTile t ∨ t = w

/-- After the tile `c` is played, the draw `t` completes seven pairs. -/
def Wins (p : MJPlayer) (w c t : ℕ) : Prop :=
  ((p.doPlayCard c).2.addNewCard t).canSelfHuQiDui [w] = true

/-- The hints are exact: a tile is listed if and only if it is held and not wild and some draw wins
after it is played; its tiles are these draws, or the mark for all tiles where all draws win; and no
tile is listed twice. -/
structure QiDuiHintsExact (p : MJPlayer) (w : ℕ) : Prop where
  listed : ∀ c, (∃ node ∈ getTingQiDuiCards p [w], node.playCard = c) ↔
    c ∈ p.newCard :: p.cardList ∧ c ≠ w ∧ ∃ t, IsDraw w t ∧ Wins p w c t
  draws : ∀ node ∈ getTingQiDuiCards p [w],
    (∀ t, IsDraw w t → Wins p w node.playCard t) ∧ node.huCardList = [Baida] ∨
    (¬∀ t, IsDraw w t → Wins p w node.playCard t) ∧
      ∀ t, t ∈ node.huCardList ↔ IsDraw w t ∧ Wins p w node.playCard t
  once : ((getTingQiDuiCards p [w]).map TingNode.playCard).Nodup

/-! ### Tiles with an odd count -/

/-- The tiles with an odd count, the wild one left out. -/
def singles (w : ℕ) (l : List ℕ) : List ℕ := MJMath.countSingle (tileMap [w] l)

section Singles

variable {w t i : ℕ} {l : List ℕ}

lemma IsDraw.ne_zero (h : IsDraw w t) (hw : w ≠ 0) : t ≠ 0 := by
  rcases h with h | rfl
  · exact Nat.one_le_iff_ne_zero.mp h.1
  · exact hw

lemma mem_singles : i ∈ singles w l ↔ (1 ≤ i ∧ i ≤ 37) ∧ i ≠ w ∧ l.count i % 2 = 1 := by
  rw [singles, MJMath.countSingle, List.mem_filter, MJMath.indices, List.mem_range'_1,
    decide_eq_true_eq]
  have hrange : (1 ≤ i ∧ i < 1 + 37) ↔ 1 ≤ i ∧ i ≤ 37 := by omega
  rw [hrange]
  refine and_congr_right fun hi => ?_
  rw [tileMap_of_ne _ _ (by omega : i ≠ 0)]
  have h37 : i ≤ Zi7 := hi.2
  by_cases hw : i = w
  · simp [hw]
  · simp only [h37, List.mem_singleton, hw, not_false_eq_true, and_self, if_true, ne_eq, true_and]
    omega

lemma nodup_singles : (singles w l).Nodup := by
  have hnodup : MJMath.indices.Nodup := by decide
  rw [singles, MJMath.countSingle]
  exact hnodup.filter _

lemma singles_perm {l' : List ℕ} (h : l.Perm l') : singles w l = singles w l' := by
  rw [singles, tileMap_perm _ h, singles]

/-- A wild tile more changes no odd count. -/
lemma singles_cons_wild : (singles w (w :: l)).length = (singles w l).length := by
  refine (List.Perm.length_eq ?_)
  rw [List.perm_ext_iff_of_nodup nodup_singles nodup_singles]
  intro i
  rw [mem_singles, mem_singles]
  refine and_congr_right fun _ => and_congr_right fun hi => ?_
  rw [List.count_cons_of_ne (Ne.symm hi)]

/-- A natural tile more makes its own count even if it was odd. -/
lemma length_singles_of_mem (ht : t ∈ singles w l) :
    (singles w (t :: l)).length + 1 = (singles w l).length := by
  have hperm : (singles w l).Perm (t :: singles w (t :: l)) := by
    have hmem := mem_singles.mp ht
    have hnot : t ∉ singles w (t :: l) := by
      intro h
      have hodd := (mem_singles.mp h).2.2
      rw [List.count_cons_self] at hodd
      omega
    rw [List.perm_ext_iff_of_nodup nodup_singles (List.nodup_cons.mpr ⟨hnot, nodup_singles⟩)]
    intro i
    rw [List.mem_cons]
    by_cases hi : i = t
    · subst hi
      exact iff_of_true ht (Or.inl rfl)
    · rw [mem_singles, mem_singles, List.count_cons_of_ne (Ne.symm hi)]
      exact (or_iff_right hi).symm
  simpa using hperm.length_eq.symm

/-- A natural tile more makes its own count odd if it was even. -/
lemma length_singles_of_notMem (ht : IsTile t) (hw : t ≠ w) (hnot : t ∉ singles w l) :
    (singles w (t :: l)).length = (singles w l).length + 1 := by
  have heven : l.count t % 2 = 0 := by
    by_contra hodd
    exact hnot (mem_singles.mpr ⟨⟨ht.1, ht.2.1⟩, hw, by omega⟩)
  have hmem : t ∈ singles w (t :: l) := by
    refine mem_singles.mpr ⟨⟨ht.1, ht.2.1⟩, hw, ?_⟩
    rw [List.count_cons_self]
    omega
  have hperm : (singles w (t :: l)).Perm (t :: singles w l) := by
    rw [List.perm_ext_iff_of_nodup nodup_singles (List.nodup_cons.mpr ⟨hnot, nodup_singles⟩)]
    intro i
    rw [List.mem_cons]
    by_cases hi : i = t
    · subst hi
      exact iff_of_true hmem (Or.inl rfl)
    · rw [mem_singles, mem_singles, List.count_cons_of_ne (Ne.symm hi)]
      exact (or_iff_right hi).symm
  simpa using hperm.length_eq

/-- Odd counts and wild tiles together have the parity of the hand, and there are no more of them
than tiles. -/
lemma singles_parity (hl : ∀ t ∈ l, IsDraw w t) :
    ((singles w l).length + l.count w) % 2 = l.length % 2 ∧ (singles w l).length ≤ l.length := by
  induction l with
  | nil => exact ⟨by simp [singles, MJMath.countSingle, tileMap], by
      simp [singles, MJMath.countSingle, tileMap]⟩
  | cons t l ih =>
    obtain ⟨hpar, hle⟩ := ih fun x hx => hl x (List.mem_cons_of_mem t hx)
    rw [List.length_cons]
    by_cases hw : t = w
    · subst hw
      rw [singles_cons_wild, List.count_cons_self]
      omega
    · have ht : IsTile t := (hl t (by simp)).resolve_right hw
      rw [List.count_cons_of_ne hw]
      by_cases hmem : t ∈ singles w l
      · have := length_singles_of_mem hmem
        omega
      · have := length_singles_of_notMem ht hw hmem
        omega

/-- There is a natural tile that is not among the odd ones. -/
lemma exists_notMem_singles (hle : (singles w l).length ≤ 13) :
    ∃ t, IsTile t ∧ t ≠ w ∧ t ∉ singles w l := by
  by_contra hall
  simp only [not_exists, not_and, not_not] at hall
  -- the fifteen tiles of the first two suits below eight, one of them perhaps wild
  have hsub : (([1, 2, 3, 4, 5, 6, 7, 8, 9, 11, 12, 13, 14, 15, 16] : List ℕ).erase w) ⊆
      singles w l := by
    intro t ht
    have hmem := List.mem_of_mem_erase ht
    have htile : IsTile t := by
      have hcheck : ∀ x ∈ ([1, 2, 3, 4, 5, 6, 7, 8, 9, 11, 12, 13, 14, 15, 16] : List ℕ),
          IsTile x := by decide
      exact hcheck t hmem
    have hne : t ≠ w := by
      rintro rfl
      exact List.Nodup.not_mem_erase (by decide) ht
    exact hall t htile hne
  have hnodup : (([1, 2, 3, 4, 5, 6, 7, 8, 9, 11, 12, 13, 14, 15, 16] : List ℕ).erase w).Nodup :=
    List.Nodup.erase _ (by decide)
  have hlen := (List.subperm_of_subset hnodup hsub).length_le
  rw [List.length_erase] at hlen
  split_ifs at hlen <;> simp only [List.length_cons, List.length_nil] at hlen <;> omega

/-! ### Seven pairs -/

/-- Index `0` of the count map holds the wild tiles. -/
lemma tileMap_zero (hw : w ≠ 0) (h0 : 0 ∉ l) : tileMap [w] l 0 = l.count w := by
  induction l with
  | nil => rfl
  | cons t l ih =>
    have ht : t ≠ 0 := fun h => h0 (by simp [h])
    rw [tileMap_cons, ih fun h => h0 (List.mem_cons_of_mem t h), List.count_cons, tileEntry]
    by_cases htw : t = w
    · subst htw
      simp [add_comm]
    · have hcount : List.count t [w] = 0 := by simp [Ne.symm htw]
      simp [htw, hcount, Ne.symm ht]

/-- The count map counts every tile of the hand. -/
lemma remain_add_zero (hw : w ≠ 0) (hl : ∀ t ∈ l, IsDraw w t) :
    MJMath.remain (tileMap [w] l) + tileMap [w] l 0 = l.length := by
  have h0 : 0 ∉ l := fun h => (hl 0 h).ne_zero hw rfl
  rw [tileMap_zero hw h0]
  induction l with
  | nil => simp [remain_eq_sum, tileMap]
  | cons t l ih =>
    have hrest := ih (fun x hx => hl x (List.mem_cons_of_mem t hx))
      fun h => h0 (List.mem_cons_of_mem t h)
    rw [remain_tileMap_cons, remain_tileEntry, List.length_cons]
    by_cases htw : t = w
    · subst htw
      rw [List.count_cons_self]
      simp only [List.mem_singleton, not_true_eq_false, and_false, if_false]
      omega
    · have ht : IsTile t := (hl t (by simp)).resolve_right htw
      have hone : 1 ≤ t ∧ t ≤ Zi7 ∧ t ∉ [w] := ⟨ht.1, ht.2.1, by simpa using htw⟩
      rw [List.count_cons_of_ne htw, if_pos hone]
      omega

/-- **Fourteen tiles are seven pairs if and only if there are as many wild tiles as odd ones.** The
parity that `canHuQiDui` tests besides is that of the fourteen tiles. -/
theorem canHuQiDui_iff (hw : w ≠ 0) (hl : ∀ t ∈ l, IsDraw w t) (hlen : l.length = 14) :
    MJMath.canHuQiDui (tileMap [w] l) = true ↔ (singles w l).length ≤ l.count w := by
  have h0 : 0 ∉ l := fun h => (hl 0 h).ne_zero hw rfl
  have htotal : ¬MJMath.remain (tileMap [w] l) + tileMap [w] l 0 ≠ 14 := by
    rw [remain_add_zero hw hl]
    omega
  have hpar := (singles_parity hl).1
  rw [MJMath.canHuQiDui, if_neg htotal, tileMap_zero hw h0]
  show ((singles w l).length == 0 || _) = true ↔ _
  simp only [Bool.or_eq_true, Bool.and_eq_true, beq_iff_eq, decide_eq_true_eq]
  show (singles w l).length = 0 ∨ (singles w l).length ≤ l.count w ∧
    (l.count w - (singles w l).length) % 2 = 0 ↔ _
  omega

end Singles

/-! ### Draws after a discard -/

section Draws

variable {p : MJPlayer} {w c t : ℕ} {l : List ℕ} (hn : p.hasNewCard = true)
  (hw : MJCard.isValid w = true) (hl : ∀ x ∈ p.newCard :: p.cardList, IsDraw w x)
  (hlen : p.cardList.length = 13) (hperm : (p.newCard :: p.cardList).Perm (c :: l))

include hn hw hl hlen hperm

/-- What a draw does: it wins if there are enough wild tiles for the odd counts. -/
lemma wins_iff (ht : IsDraw w t) :
    Wins p w c t ↔ (singles w (t :: l)).length ≤ (t :: l).count w := by
  have hc : c ∈ p.newCard :: p.cardList := hperm.symm.subset (by simp)
  have hv : MJCard.isValid t = true := by
    rcases ht with ht | rfl
    · exact ht.isValid
    · exact hw
  have hrest : ((p.newCard :: p.cardList).erase c).Perm l := by
    have := hperm.erase c
    rwa [List.erase_cons_head] at this
  obtain ⟨hnew, hmap⟩ := transHandCardsToCountMap_draw hn hc hv [w]
  rw [tileMap_perm [w] (hrest.cons t)] at hmap
  have hdraws : ∀ x ∈ t :: l, IsDraw w x := by
    intro x hx
    rcases List.mem_cons.mp hx with rfl | hx
    · exact ht
    · exact hl x (hperm.symm.subset (List.mem_cons_of_mem c hx))
  have hlength := hperm.length_eq
  simp only [List.length_cons] at hlength
  rw [Wins, canSelfHuQiDui, hnew, hmap, Bool.true_and,
    canHuQiDui_iff (ne_kCardNull_of_isValid hw) hdraws (by rw [List.length_cons]; omega)]

/-- The wild tile wins whenever some draw does. -/
lemma wins_of_wild : Wins p w c w ↔ (singles w l).length ≤ l.count w + 1 := by
  rw [wins_iff hn hw hl hlen hperm (Or.inr rfl), singles_cons_wild, List.count_cons_self]

/-- A natural tile wins if it makes a pair with an odd one and there are wild tiles for the others,
or if there are wild tiles enough for it too. -/
lemma wins_of_natural (ht : IsTile t) (htw : t ≠ w) :
    Wins p w c t ↔ (t ∈ singles w l ∧ (singles w l).length ≤ l.count w + 1) ∨
      (singles w l).length + 1 ≤ l.count w := by
  rw [wins_iff hn hw hl hlen hperm (Or.inl ht), List.count_cons_of_ne htw]
  by_cases hmem : t ∈ singles w l
  · have := length_singles_of_mem hmem
    simp only [hmem, true_and]
    omega
  · have := length_singles_of_notMem ht htw hmem
    simp only [hmem, false_and, false_or]
    omega

/-- Some draw wins. -/
lemma exists_wins_iff :
    (∃ t, IsDraw w t ∧ Wins p w c t) ↔ (singles w l).length ≤ l.count w + 1 := by
  have hwild := wins_of_wild hn hw hl hlen hperm
  constructor
  · rintro ⟨t, ht, hwin⟩
    by_cases htw : t = w
    · subst htw
      exact hwild.mp hwin
    · rcases (wins_of_natural hn hw hl hlen hperm (ht.resolve_right htw) htw).mp hwin with h | h
      · exact h.2
      · omega
  · intro h
    exact ⟨w, Or.inr rfl, hwild.mpr h⟩

/-- Every draw wins. -/
lemma forall_wins_iff :
    (∀ t, IsDraw w t → Wins p w c t) ↔ (singles w l).length + 1 ≤ l.count w := by
  constructor
  · intro h
    have hlength := hperm.length_eq
    simp only [List.length_cons] at hlength
    have hle := (singles_parity (w := w) (l := l)
      fun x hx => hl x (hperm.symm.subset (List.mem_cons_of_mem c hx))).2
    obtain ⟨t, ht, htw, hnot⟩ := exists_notMem_singles (w := w) (l := l) (by omega)
    rcases (wins_of_natural hn hw hl hlen hperm ht htw).mp (h t (Or.inl ht)) with h' | h'
    · exact absurd h'.1 hnot
    · exact h'
  · intro h t ht
    by_cases htw : t = w
    · subst htw
      exact (wins_of_wild hn hw hl hlen hperm).mpr (by omega)
    · exact (wins_of_natural hn hw hl hlen hperm (ht.resolve_right htw) htw).mpr (Or.inr h)

end Draws

/-! ### When the hints are exact -/

/-- The condition for exact hints, on the fourteen tiles: the odd counts outnumber the wild tiles by
four or more; or there are as many wild tiles as odd counts, and every natural tile has an odd
count; or there are more wild tiles, the wild tile is the mark for all tiles, and no natural tile is
held twice. -/
def QiDuiSettled (p : MJPlayer) (w : ℕ) : Prop :=
  (p.newCard :: p.cardList).count w + 4 ≤ (singles w (p.newCard :: p.cardList)).length ∨
  ((singles w (p.newCard :: p.cardList)).length = (p.newCard :: p.cardList).count w ∧
    ∀ c ∈ p.newCard :: p.cardList, c ≠ w → c ∈ singles w (p.newCard :: p.cardList)) ∨
  ((singles w (p.newCard :: p.cardList)).length < (p.newCard :: p.cardList).count w ∧ w = Baida ∧
    ((p.newCard :: p.cardList).filter (· ≠ w)).Nodup)

section Exact

variable {p : MJPlayer} {w c : ℕ}

lemma hasBaiDa_some (hn : p.hasNewCard = true) (w : ℕ) :
    hasBaiDa p (some w) = (p.newCard :: p.cardList).count w := by
  rw [hasBaiDa_eq_count, if_pos hn]
  exact (List.perm_append_singleton p.newCard p.cardList).count_eq w

/-- The hints in terms of the fourteen tiles. -/
lemma getTingQiDuiCards_eq (hn : p.hasNewCard = true) (hpile : p.pileList = []) (w : ℕ) :
    getTingQiDuiCards p [w] =
      let s := singles w (p.newCard :: p.cardList)
      let b := (p.newCard :: p.cardList).count w
      if (s.length : ℤ) - b = 2 then
        if b = 0 then [⟨s.getD 0 0, [s.getD 1 0], 0⟩, ⟨s.getD 1 0, [s.getD 0 0], 0⟩]
        else s.map fun v => ⟨v, s.filter (· ≠ v), 0⟩
      else if (s.length : ℤ) - b = 0 then
        if 0 < b then s.map fun v => ⟨v, [Baida], 1⟩ else []
      else if (s.length : ℤ) - b < 0 then
        (p.getAllHandCards.filter (· ≠ Baida)).map fun v => ⟨v, [Baida], 1⟩
      else [] := by
  rw [getTingQiDuiCards, hn, hpile, transHandCardsToCountMap_new hn, List.head?_cons,
    hasBaiDa_some hn]
  rfl

/-- The discard of a natural tile takes it from the odd ones or puts it to them. -/
lemma length_singles_discard {H l : List ℕ} (hperm : H.Perm (c :: l)) (hc : IsTile c)
    (hcw : c ≠ w) :
    l.count w = H.count w ∧
      ((c ∈ singles w H ∧ (singles w l).length + 1 = (singles w H).length) ∨
        (c ∉ singles w H ∧ (singles w l).length = (singles w H).length + 1)) := by
  have hcount := hperm.count_eq w
  rw [List.count_cons_of_ne hcw] at hcount
  refine ⟨hcount.symm, ?_⟩
  rw [singles_perm hperm]
  by_cases hmem : c ∈ singles w l
  · have hlen := length_singles_of_mem hmem
    refine Or.inr ⟨fun h => ?_, hlen.symm⟩
    have hodd := (mem_singles.mp hmem).2.2
    have hodd' := (mem_singles.mp h).2.2
    rw [List.count_cons_self] at hodd'
    omega
  · have hlen := length_singles_of_notMem hc hcw hmem
    refine Or.inl ⟨?_, hlen.symm⟩
    by_contra hnot
    have heven : ¬l.count c % 2 = 1 :=
      fun h => hmem (mem_singles.mpr ⟨⟨hc.1, hc.2.1⟩, hcw, h⟩)
    refine hnot (mem_singles.mpr ⟨⟨hc.1, hc.2.1⟩, hcw, ?_⟩)
    rw [List.count_cons_self]
    omega

/-- An odd tile is held. -/
lemma mem_of_mem_singles {H : List ℕ} (h : c ∈ singles w H) : c ∈ H ∧ c ≠ w := by
  obtain ⟨-, hcw, hodd⟩ := mem_singles.mp h
  exact ⟨List.count_pos_iff.mp (by omega), hcw⟩

/-- After which discards some draw wins, and after which all do. -/
lemma draws_of_discard (hn : p.hasNewCard = true) (hw : MJCard.isValid w = true)
    (hl : ∀ x ∈ p.newCard :: p.cardList, IsDraw w x) (hlen : p.cardList.length = 13)
    (hc : c ∈ p.newCard :: p.cardList) (hcw : c ≠ w) :
    let s := (singles w (p.newCard :: p.cardList)).length
    let b := (p.newCard :: p.cardList).count w
    ((∃ t, IsDraw w t ∧ Wins p w c t) ↔
      (c ∈ singles w (p.newCard :: p.cardList) ∧ s ≤ b + 2) ∨ s ≤ b) ∧
    ((∀ t, IsDraw w t → Wins p w c t) ↔
      (c ∈ singles w (p.newCard :: p.cardList) ∧ s ≤ b) ∨ s + 2 ≤ b) ∧
    (Wins p w c w ↔ ∃ t, IsDraw w t ∧ Wins p w c t) := by
  have hperm := List.perm_cons_erase hc
  have hsome := exists_wins_iff hn hw hl hlen hperm
  have hall := forall_wins_iff hn hw hl hlen hperm
  have hwild := wins_of_wild hn hw hl hlen hperm
  obtain ⟨hcount, hcase⟩ := length_singles_discard hperm ((hl c hc).resolve_right hcw) hcw
  refine ⟨?_, ?_, hwild.trans hsome.symm⟩
  · rw [hsome, hcount]
    rcases hcase with ⟨hmem, hs⟩ | ⟨hmem, hs⟩
    · simp only [hmem, true_and]
      omega
    · simp only [hmem, false_and, false_or]
      omega
  · rw [hall, hcount]
    rcases hcase with ⟨hmem, hs⟩ | ⟨hmem, hs⟩
    · simp only [hmem, true_and]
      omega
    · simp only [hmem, false_and, false_or]
      omega

end Exact

section Cases

variable {p : MJPlayer} {w : ℕ} (hn : p.hasNewCard = true) (hpile : p.pileList = [])
  (hlen : p.cardList.length = 13) (hw : MJCard.isValid w = true)
  (hl : ∀ x ∈ p.newCard :: p.cardList, IsDraw w x)

include hn hpile hlen hw hl

/-- More wild tiles than odd counts: all tiles held are listed. -/
lemma exact_iff_of_lt
    (hlt : (singles w (p.newCard :: p.cardList)).length < (p.newCard :: p.cardList).count w) :
    QiDuiHintsExact p w ↔ w = Baida ∧ ((p.newCard :: p.cardList).filter (· ≠ w)).Nodup := by
  have hhints := getTingQiDuiCards_eq hn hpile w
  dsimp only at hhints
  rw [if_neg (by omega), if_neg (by omega), if_pos (by omega)] at hhints
  have hhand := getAllHandCards_perm hn
  have hpar := (singles_parity hl).1
  rw [List.length_cons, hlen] at hpar
  constructor
  · intro hexact
    have hwH : w ∈ p.newCard :: p.cardList := List.count_pos_iff.mp (by omega)
    have hBaida : w = Baida := by
      by_contra hne
      have hnode : (⟨w, [Baida], 1⟩ : TingNode) ∈ getTingQiDuiCards p [w] := by
        rw [hhints]
        exact List.mem_map_of_mem (List.mem_filter.mpr
          ⟨hhand.symm.subset hwH, decide_eq_true hne⟩)
      exact ((hexact.listed w).mp ⟨_, hnode, rfl⟩).2.1 rfl
    have honce := hexact.once
    rw [hhints, List.map_map] at honce
    refine ⟨hBaida, ?_⟩
    rw [hBaida]
    exact (hhand.filter _).nodup_iff.mp (by simpa [Function.comp_def] using honce)
  · rintro ⟨rfl, hnodup⟩
    have hmem : ∀ node, node ∈ getTingQiDuiCards p [Baida] ↔
        ∃ c, (c ∈ p.newCard :: p.cardList ∧ c ≠ Baida) ∧ ⟨c, [Baida], 1⟩ = node := by
      intro node
      rw [hhints, List.mem_map]
      refine exists_congr fun c => and_congr_left fun _ => ?_
      rw [List.mem_filter, hhand.mem_iff, decide_eq_true_eq]
    have hall : ∀ c ∈ p.newCard :: p.cardList, c ≠ Baida →
        ∀ t, IsDraw Baida t → Wins p Baida c t :=
      fun c hc hcw => (draws_of_discard hn hw hl hlen hc hcw).2.1.mpr (Or.inr (by omega))
    refine ⟨fun c => ⟨?_, ?_⟩, fun node hnode => ?_, ?_⟩
    · rintro ⟨node, hnode, rfl⟩
      obtain ⟨c, ⟨hc, hcw⟩, rfl⟩ := (hmem node).mp hnode
      exact ⟨hc, hcw, Baida, Or.inr rfl, hall c hc hcw Baida (Or.inr rfl)⟩
    · rintro ⟨hc, hcw, -⟩
      exact ⟨_, (hmem _).mpr ⟨c, ⟨hc, hcw⟩, rfl⟩, rfl⟩
    · obtain ⟨c, ⟨hc, hcw⟩, rfl⟩ := (hmem node).mp hnode
      exact Or.inl ⟨hall c hc hcw, rfl⟩
    · rw [hhints, List.map_map]
      have := (hhand.filter fun x => decide (x ≠ Baida)).nodup_iff.mpr hnodup
      simpa [Function.comp_def] using this

/-- As many wild tiles as odd counts: the odd tiles are listed. -/
lemma exact_iff_of_eq
    (heq : (singles w (p.newCard :: p.cardList)).length = (p.newCard :: p.cardList).count w) :
    QiDuiHintsExact p w ↔
      ∀ c ∈ p.newCard :: p.cardList, c ≠ w → c ∈ singles w (p.newCard :: p.cardList) := by
  have hnodes : getTingQiDuiCards p [w] =
      (singles w (p.newCard :: p.cardList)).map fun v => ⟨v, [Baida], 1⟩ := by
    have hhints := getTingQiDuiCards_eq hn hpile w
    dsimp only at hhints
    rw [hhints, if_neg (by omega), if_pos (by omega)]
    split_ifs with hb0
    · rfl
    · rw [List.length_eq_zero_iff.mp
        (by omega : (singles w (p.newCard :: p.cardList)).length = 0)]
      rfl
  have hsome : ∀ c ∈ p.newCard :: p.cardList, c ≠ w → ∃ t, IsDraw w t ∧ Wins p w c t :=
    fun c hc hcw => (draws_of_discard hn hw hl hlen hc hcw).1.mpr (Or.inr heq.le)
  constructor
  · intro hexact c hc hcw
    obtain ⟨node, hnode, rfl⟩ := (hexact.listed c).mpr ⟨hc, hcw, hsome c hc hcw⟩
    rw [hnodes] at hnode
    obtain ⟨v, hv, rfl⟩ := List.mem_map.mp hnode
    exact hv
  · intro hodd
    refine ⟨fun c => ?_, fun node hnode => ?_, ?_⟩
    · rw [hnodes]
      constructor
      · rintro ⟨node, hnode, rfl⟩
        obtain ⟨v, hv, rfl⟩ := List.mem_map.mp hnode
        obtain ⟨hc, hcw⟩ := mem_of_mem_singles hv
        exact ⟨hc, hcw, hsome v hc hcw⟩
      · rintro ⟨hc, hcw, -⟩
        exact ⟨_, List.mem_map_of_mem (hodd c hc hcw), rfl⟩
    · rw [hnodes] at hnode
      obtain ⟨v, hv, rfl⟩ := List.mem_map.mp hnode
      obtain ⟨hc, hcw⟩ := mem_of_mem_singles hv
      exact Or.inl ⟨(draws_of_discard hn hw hl hlen hc hcw).2.1.mpr (Or.inl ⟨hv, heq.le⟩), rfl⟩
    · rw [hnodes, List.map_map]
      simpa [Function.comp_def] using (nodup_singles (w := w) (l := p.newCard :: p.cardList))

/-- Two odd counts more than wild tiles: the wild tile is missing from the lists. -/
lemma not_exact_of_two
    (htwo : (singles w (p.newCard :: p.cardList)).length =
      (p.newCard :: p.cardList).count w + 2) : ¬QiDuiHintsExact p w := by
  intro hexact
  have hhints := getTingQiDuiCards_eq hn hpile w
  have hdraws := fun c (hc : c ∈ p.newCard :: p.cardList) (hcw : c ≠ w) =>
    draws_of_discard hn hw hl hlen hc hcw
  dsimp only at hhints hdraws
  set s := singles w (p.newCard :: p.cardList) with hs
  obtain ⟨node, hnode, hplay, hmiss⟩ : ∃ node ∈ getTingQiDuiCards p [w],
      node.playCard ∈ s ∧ ∀ t ∈ node.huCardList, t ∈ s := by
    rw [hhints, if_pos (by omega)]
    have hget : ∀ i, i < s.length → s.getD i 0 ∈ s := by
      intro i hi
      rw [List.getD_eq_getElem _ _ hi]
      exact List.getElem_mem hi
    split_ifs with hb0
    · refine ⟨_, List.mem_cons_self, hget 0 (by omega), fun t ht => ?_⟩
      rw [List.mem_singleton.mp ht]
      exact hget 1 (by omega)
    · exact ⟨_, List.mem_map_of_mem (hget 0 (by omega)), hget 0 (by omega),
        fun t ht => (List.mem_filter.mp ht).1⟩
  obtain ⟨hc, hcw⟩ := mem_of_mem_singles hplay
  obtain ⟨hsome, hall, hwild⟩ := hdraws node.playCard hc hcw
  rcases hexact.draws node hnode with ⟨h, -⟩ | ⟨-, h⟩
  · have := hall.mp h
    omega
  · have hwin : Wins p w node.playCard w := hwild.mpr (hsome.mpr (Or.inl ⟨hplay, by omega⟩))
    exact (mem_of_mem_singles (hmiss w ((h w).mpr ⟨Or.inr rfl, hwin⟩))).2 rfl

/-- Four odd counts more or still more: no discard leaves a winning draw, and none is listed. -/
lemma exact_of_four
    (hfour : (p.newCard :: p.cardList).count w + 4 ≤
      (singles w (p.newCard :: p.cardList)).length) : QiDuiHintsExact p w := by
  have hhints := getTingQiDuiCards_eq hn hpile w
  dsimp only at hhints
  rw [if_neg (by omega), if_neg (by omega), if_neg (by omega)] at hhints
  refine ⟨fun c => ?_, ?_, ?_⟩
  · rw [hhints]
    refine iff_of_false (by simp) ?_
    rintro ⟨hc, hcw, hsome⟩
    have := (draws_of_discard hn hw hl hlen hc hcw).1.mp hsome
    omega
  · rw [hhints]
    simp
  · rw [hhints]
    exact List.nodup_nil

end Cases

/-- **When the hints for seven pairs are exact**: for every hand of thirteen tiles and a new one
without piles, and every wild tile, in whatever number, the hints are exact if and only if the tiles
satisfy `QiDuiSettled`.

**Proof sketch.** With `s` odd counts and `b` wild tiles, a discard leaves a winning draw if
`s ≤ b + 2` and the tile is odd, or if `s ≤ b`; then the wild tile wins too (`draws_of_discard`).
As fourteen tiles are even, `s - b` is. For `s = b + 2` the source lists the other odd tiles and not
the wild one. For `s = b` it lists the odd tiles, and misses those of which an even number is held.
For `s < b` it lists all tiles held, with their repetitions and the wild ones, but for `Baida`. -/
theorem qiDuiHints_exact_iff (p : MJPlayer) (w : ℕ) (hn : p.hasNewCard = true)
    (hpile : p.pileList = []) (hlen : p.cardList.length = 13) (hw : MJCard.isValid w = true)
    (hl : ∀ x ∈ p.newCard :: p.cardList, IsDraw w x) :
    QiDuiHintsExact p w ↔ QiDuiSettled p w := by
  have hpar := (singles_parity hl).1
  rw [List.length_cons, hlen] at hpar
  unfold QiDuiSettled
  rcases lt_trichotomy (singles w (p.newCard :: p.cardList)).length
    ((p.newCard :: p.cardList).count w) with hlt | heq | hgt
  · rw [exact_iff_of_lt hn hpile hlen hw hl hlt]
    constructor
    · exact fun h => Or.inr (Or.inr ⟨hlt, h⟩)
    · rintro (h | h | h)
      · omega
      · omega
      · exact h.2
  · rw [exact_iff_of_eq hn hpile hlen hw hl heq]
    constructor
    · exact fun h => Or.inr (Or.inl ⟨heq, h⟩)
    · rintro (h | h | h)
      · omega
      · exact h.2
      · omega
  · by_cases hfour : (p.newCard :: p.cardList).count w + 4 ≤
        (singles w (p.newCard :: p.cardList)).length
    · exact iff_of_true (exact_of_four hn hpile hlen hw hl hfour) (Or.inl hfour)
    · exact iff_of_false (not_exact_of_two hn hpile hlen hw hl (by omega)) (by omega)

/-- The hand of seven different tiles and seven wild ones. -/
def sevenWild : MJPlayer :=
  ⟨7, [1, 2, 3, 4, 5, 6, 35, 35, 35, 35, 35, 35, 35], [], .newCard, []⟩

/-- Seven different tiles and seven wild ones: the hints are exact. -/
theorem qiDuiHints_exact_of_sevenWild : QiDuiHintsExact sevenWild 35 :=
  (qiDuiHints_exact_iff sevenWild 35 rfl rfl rfl rfl
    (by decide +kernel : ∀ x ∈ sevenWild.newCard :: sevenWild.cardList, IsTile x ∨ x = 35)).mpr
    (Or.inr (Or.inl (by decide +kernel)))

/-- The hand of seven pairs without a wild tile. -/
def sevenPairs : MJPlayer :=
  ⟨7, [1, 1, 2, 2, 3, 3, 4, 4, 5, 5, 6, 6, 7], [], .newCard, []⟩

/-- Seven pairs: the discard of any tile leaves that tile to win with, and no hint is given. -/
theorem sevenPairs_hints_not_exact :
    getTingQiDuiCards sevenPairs [35] = [] ∧ Wins sevenPairs 35 7 7 ∧
      ¬QiDuiHintsExact sevenPairs 35 := by
  have hnone : getTingQiDuiCards sevenPairs [35] = [] := by decide +kernel
  have hwin : Wins sevenPairs 35 7 7 := by
    unfold Wins
    decide +kernel
  have htile : IsTile 7 := by decide
  refine ⟨hnone, hwin, fun hexact => ?_⟩
  obtain ⟨node, hnode, -⟩ :=
    (hexact.listed 7).mpr ⟨List.mem_cons_self, by decide, 7, Or.inl htile, hwin⟩
  rw [hnone] at hnode
  exact absurd hnode List.not_mem_nil

end Hongzhong
