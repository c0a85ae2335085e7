import JsmjServer.Mahjong.Division
import Mathlib.Data.List.Perm.Subperm

set_option relaxedAutoImplicit false
set_option autoImplicit false

/-!
# The dragon and six runs of maanshan mahjong

`CountHuType:isTiaoLong` and `CountHuType:isSixShun` of `maanshanmj/CountHuType.lua`. Both take the
named tiles off the hand and ask the recogniser about the rest. `isSixShun` does so in twelve
windows one after the other: a window that succeeds stays taken off, and one that fails is put back
in two lists by the values of its tiles.

The hands of this game hold suit and honour tiles only.

## Main definitions

* `Maanshan.CountHuType.isTiaoLong`, `Maanshan.CountHuType.isSixShun` — the two functions, with the
  table of tiles they fill.

## Main results

* `Maanshan.CountHuType.isTiaoLong_iff`, `Maanshan.CountHuType.isSixShun_iff` — what they test.
* `Maanshan.CountHuType.tiaoLong_sixShun_exact` — some division of the hand contains the runs.
-/

namespace Maanshan.CountHuType

open Mahjong Mahjong.MJMath

/-! ### The program -/

/-- `transferCardMap`: the counts of `cards`, with one copy less of each of `filterCards`. -/
def transferCardMap (cards filterCards : List ℕ) : ℕ → ℕ :=
  filterCards.foldl
    (fun cardmap card =>
      if 0 < cardmap card then fun i => if i = card then cardmap i - 1 else cardmap i else cardmap)
    fun i => if i ≤ Zi7 then cards.count i else 0

/-- The part of `isTiaoLong` for one suit: all nine tiles are in the hand, and the rest wins. -/
def tiaoLongOf (handCards : List ℕ) (suit : ℕ) (tbTiaoLong : List (List ℕ)) : List (List ℕ) :=
  let cards := List.range' (suit * 10 + 1) 9
  if cards.all fun i => handCards.contains i then
    if canHu (transferCardMap handCards cards) then tbTiaoLong ++ [cards] else tbTiaoLong
  else tbTiaoLong

/-- `CountHuType:isTiaoLong`, with the table it fills: the suits Wan, Tiao and Tong in turn. -/
def isTiaoLong (handCards : List ℕ) (tbTiaoLong : List (List ℕ)) : Bool × List (List ℕ) :=
  let tbTiaoLong := [0, 1, 2].foldl (fun tb suit => tiaoLongOf handCards suit tb) tbTiaoLong
  (decide (0 < tbTiaoLong.length), tbTiaoLong)

/-- What the loops of `isSixShun` mutate: the tiles left and the tiles taken off. -/
structure SixState where
  tempCards : List ℕ
  tbSixShuan : List ℕ

/-- `tbCardPoint`: the points of six tiles that follow one another. -/
def tbCardPoint : List (List ℕ) :=
  [[1, 2, 3, 4, 5, 6], [2, 3, 4, 5, 6, 7], [3, 4, 5, 6, 7, 8], [4, 5, 6, 7, 8, 9]]

/-- The tiles of the windows, suit by suit. -/
def windows : List (List ℕ) :=
  [0, 1, 2].flatMap fun suit => tbCardPoint.map fun findCards => findCards.map (suit * 10 + ·)

/-- The `while` loop of `isSixShun`: it stops at a tile that is not there. -/
def foundAll (tempCards : List ℕ) : List ℕ → Bool
  | [] => true
  | card :: rest =>
    if tempCards.contains card && 5 < tempCards.length then foundAll tempCards rest else false

/-- The body of the loop of `isSixShun` for one window. `table.removeItem` takes off the first copy
of a tile. -/
def tryWindow (s : SixState) (cards : List ℕ) : SixState :=
  if foundAll s.tempCards cards then
    let tbSixShuan := s.tbSixShuan ++ cards
    let tempCards := cards.foldl List.erase s.tempCards
    if canHu fun i => if i ≤ Zi7 then tempCards.count i else 0 then ⟨tempCards, tbSixShuan⟩
    else ⟨tempCards ++ cards, cards.foldl List.erase tbSixShuan⟩
  else s

/-- `CountHuType:isSixShun`, with the table it fills. -/
def isSixShun (handCards tbSixShuan : List ℕ) : Bool × List ℕ :=
  let s := windows.foldl tryWindow ⟨handCards, tbSixShuan⟩
  (decide (5 < s.tbSixShuan.length), s.tbSixShuan)

/-! ### Taking tiles off a hand -/

variable {handCards l cards : List ℕ} {s : SixState}

lemma transferCardMap_eq (cards filterCards : List ℕ) (i : ℕ) :
    transferCardMap cards filterCards i =
      (if i ≤ Zi7 then cards.count i else 0) - filterCards.count i := by
  have hfold : ∀ map : ℕ → ℕ, filterCards.foldl
      (fun cardmap card => if 0 < cardmap card then
        fun i => if i = card then cardmap i - 1 else cardmap i else cardmap) map i =
      map i - filterCards.count i := by
    induction filterCards with
    | nil => exact fun map => rfl
    | cons card rest ih =>
      intro map
      have hstep :
          (if 0 < map card then fun i => if i = card then map i - 1 else map i else map) i =
            map i - if card == i then 1 else 0 := by
        by_cases hi : card = i
        · subst hi
          split_ifs with hpos <;> simp_all
        · have hi' : ¬i = card := Ne.symm hi
          simp only [beq_iff_eq, hi, if_false, Nat.sub_zero]
          split_ifs
          · exact if_neg hi'
          · rfl
      rw [List.foldl_cons, ih, hstep, List.count_cons, Nat.sub_sub, Nat.add_comm]
  exact hfold _

lemma coe_foldl_erase (l cards : List ℕ) :
    ((cards.foldl List.erase l : List ℕ) : Multiset ℕ) =
      (l : Multiset ℕ) - (cards : Multiset ℕ) := by
  rw [← List.diff_eq_foldl, Multiset.coe_sub]

/-- Different tiles lie in a hand if each of them does. -/
lemma coe_le_of_nodup (hd : cards.Nodup) :
    (cards : Multiset ℕ) ≤ (l : Multiset ℕ) ↔ ∀ t ∈ cards, t ∈ l := by
  rw [Multiset.le_iff_subset (Multiset.coe_nodup.mpr hd)]
  rfl

/-- The window can be taken off the hand, and the rest wins. -/
def Hit (n : Multiset ℕ) (cards : List ℕ) : Prop :=
  (cards : Multiset ℕ) ≤ n ∧ Winning (n - (cards : Multiset ℕ)) 0

/-! ### The dragon -/

lemma tiaoLongOf_length (hv : ∀ t ∈ handCards, IsTile t) (suit : ℕ) (tb : List (List ℕ)) :
    (0 < (tiaoLongOf handCards suit tb).length) ↔
      0 < tb.length ∨ Hit (handCards : Multiset ℕ) (List.range' (suit * 10 + 1) 9) := by
  have hall : ((List.range' (suit * 10 + 1) 9).all fun i => handCards.contains i) = true ↔
      (List.range' (suit * 10 + 1) 9 : Multiset ℕ) ≤ (handCards : Multiset ℕ) := by
    rw [coe_le_of_nodup List.nodup_range']
    simp
  have hrest : canHu (transferCardMap handCards (List.range' (suit * 10 + 1) 9)) = true ↔
      Winning ((handCards : Multiset ℕ) - (List.range' (suit * 10 + 1) 9 : Multiset ℕ)) 0 := by
    refine canHu_iff_of_count (fun t ht => hv t ?_) fun i hi => ?_
    · exact Multiset.mem_coe.mp (Multiset.mem_of_le (Multiset.sub_le_self _ _) ht)
    · rw [transferCardMap_eq, if_pos (show i ≤ Zi7 from hi), Multiset.count_sub,
        Multiset.coe_count, Multiset.coe_count]
  simp only [tiaoLongOf, Hit]
  rw [← hall, ← hrest]
  split_ifs with h1 h2
  · refine iff_of_true ?_ (Or.inr ⟨h1, h2⟩)
    rw [List.length_append]
    exact Nat.succ_pos _
  · exact ⟨Or.inl, fun h => h.resolve_right fun hh => h2 hh.2⟩
  · exact ⟨Or.inl, fun h => h.resolve_right fun hh => h1 hh.1⟩

lemma isTiaoLong_iff (hv : ∀ t ∈ handCards, IsTile t) :
    (isTiaoLong handCards []).1 = true ↔
      ∃ suit < 3, Hit (handCards : Multiset ℕ) (List.range' (suit * 10 + 1) 9) := by
  have hfold : (isTiaoLong handCards []).1 = decide (0 <
      (tiaoLongOf handCards 2 (tiaoLongOf handCards 1 (tiaoLongOf handCards 0 []))).length) := rfl
  rw [hfold, decide_eq_true_iff, tiaoLongOf_length hv, tiaoLongOf_length hv, tiaoLongOf_length hv,
    List.length_nil]
  simp only [lt_irrefl, false_or]
  constructor
  · rintro ((h | h) | h)
    · exact ⟨0, by omega, h⟩
    · exact ⟨1, by omega, h⟩
    · exact ⟨2, by omega, h⟩
  · rintro ⟨suit, hs, h⟩
    obtain rfl | rfl | rfl : suit = 0 ∨ suit = 1 ∨ suit = 2 := by omega
    · exact Or.inl (Or.inl h)
    · exact Or.inl (Or.inr h)
    · exact Or.inr h

/-! ### Six runs -/

lemma foundAll_iff : foundAll l cards = true ↔ ∀ t ∈ cards, t ∈ l ∧ 5 < l.length := by
  induction cards with
  | nil => simp [foundAll]
  | cons card rest ih =>
    rw [foundAll, List.forall_mem_cons, ← ih]
    by_cases h : l.contains card && 5 < l.length
    · simp_all
    · simp_all

/-- A window of six different tiles is found if the tiles lie in the hand. -/
lemma foundAll_of_window (hd : cards.Nodup) (hlen : cards.length = 6) :
    foundAll l cards = true ↔ (cards : Multiset ℕ) ≤ (l : Multiset ℕ) := by
  rw [foundAll_iff, coe_le_of_nodup hd]
  refine ⟨fun h t ht => (h t ht).1, fun h t ht => ⟨h t ht, ?_⟩⟩
  have hle := Multiset.card_le_card ((coe_le_of_nodup hd).mpr h)
  rw [Multiset.coe_card, Multiset.coe_card, hlen] at hle
  omega

/-- One window: taken off, or all left as it was up to the order of the tiles. -/
lemma tryWindow_spec (hv : ∀ t ∈ s.tempCards, IsTile t) (hd : cards.Nodup)
    (hlen : cards.length = 6) :
    (Hit (s.tempCards : Multiset ℕ) cards →
      (tryWindow s cards).tempCards.Sublist s.tempCards ∧
        (tryWindow s cards).tbSixShuan = s.tbSixShuan ++ cards) ∧
    (¬Hit (s.tempCards : Multiset ℕ) cards →
      (tryWindow s cards).tempCards.Perm s.tempCards ∧
        (tryWindow s cards).tbSixShuan.Perm s.tbSixShuan) := by
  have hrest : (canHu fun i =>
      if i ≤ Zi7 then (cards.foldl List.erase s.tempCards).count i else 0) = true ↔
        Winning ((s.tempCards : Multiset ℕ) - (cards : Multiset ℕ)) 0 := by
    refine canHu_iff_of_count (fun t ht => hv t ?_) fun i hi => ?_
    · exact Multiset.mem_coe.mp (Multiset.mem_of_le (Multiset.sub_le_self _ _) ht)
    · rw [if_pos (show i ≤ Zi7 from hi), ← coe_foldl_erase, Multiset.coe_count]
  have hfound := foundAll_of_window (l := s.tempCards) hd hlen
  constructor
  · intro h
    simp only [tryWindow, hfound.mpr h.1, hrest.mpr h.2, if_true]
    rw [← List.diff_eq_foldl]
    exact ⟨List.diff_sublist _ _, trivial⟩
  · intro h
    by_cases hle : foundAll s.tempCards cards = true
    · have hwin := mt hrest.mp fun hwin => h ⟨hfound.mp hle, hwin⟩
      simp only [tryWindow, hle, if_true, hwin, Bool.false_eq_true, if_false]
      constructor
      · rw [← Multiset.coe_eq_coe, ← Multiset.coe_add, coe_foldl_erase,
          tsub_add_cancel_of_le (hfound.mp hle)]
      · rw [← Multiset.coe_eq_coe, coe_foldl_erase, ← Multiset.coe_add, add_tsub_cancel_right]
    · simp only [tryWindow, hle, Bool.false_eq_true, if_false]
      exact ⟨List.Perm.refl _, List.Perm.refl _⟩

/-- The loop over the windows. Until a window succeeds, the hand is whole and no tile is taken off;
afterwards six tiles stay taken off.

**Proof sketch.** Induction on the windows (`tryWindow_spec`). A window that fails permutes the two
lists, one that succeeds lengthens the second. -/
lemma foldl_tryWindow (ws : List (List ℕ)) (hw : ∀ w ∈ ws, w.Nodup ∧ w.length = 6)
    (hv : ∀ t ∈ s.tempCards, IsTile t) :
    s.tbSixShuan.length ≤ (ws.foldl tryWindow s).tbSixShuan.length ∧
      (s.tbSixShuan = [] → (5 < (ws.foldl tryWindow s).tbSixShuan.length ↔
        ∃ w ∈ ws, Hit (s.tempCards : Multiset ℕ) w)) := by
  induction ws generalizing s with
  | nil => simp +contextual
  | cons w ws ih =>
    obtain ⟨hd, hlen⟩ := hw w List.mem_cons_self
    have hws : ∀ w ∈ ws, w.Nodup ∧ w.length = 6 := fun x hx => hw x (List.mem_cons_of_mem w hx)
    obtain ⟨hhit, hmiss⟩ := tryWindow_spec hv hd hlen
    rw [List.foldl_cons]
    by_cases h : Hit (s.tempCards : Multiset ℕ) w
    · obtain ⟨hsub, htb⟩ := hhit h
      obtain ⟨hle, -⟩ := ih hws fun t ht => hv t (hsub.subset ht)
      rw [htb, List.length_append, hlen] at hle
      refine ⟨by omega, fun _ => iff_of_true (by omega) ⟨w, List.mem_cons_self, h⟩⟩
    · obtain ⟨htemp, htb⟩ := hmiss h
      obtain ⟨hle, hiff⟩ := ih hws fun t ht => hv t (htemp.subset ht)
      refine ⟨htb.length_eq ▸ hle, fun hnil => ?_⟩
      rw [hnil] at htb
      rw [hiff htb.eq_nil, Multiset.coe_eq_coe.mpr htemp]
      constructor
      · rintro ⟨x, hx, hxs⟩
        exact ⟨x, List.mem_cons_of_mem w hx, hxs⟩
      · rintro ⟨x, hx, hxs⟩
        rcases List.mem_cons.mp hx with rfl | hx
        · exact absurd hxs h
        · exact ⟨x, hx, hxs⟩

/-- The windows are the six tiles from the beginning of a run whose third successor begins one. -/
lemma mem_windows : cards ∈ windows ↔
    ∃ t, IsRunStart t ∧ IsRunStart (t + 3) ∧ cards = List.range' t 6 := by
  constructor
  · have hall : ∀ w ∈ windows, (w.headD 0 < 30 ∧ 1 ≤ w.headD 0 % 10 ∧ w.headD 0 % 10 ≤ 4) ∧
        w = List.range' (w.headD 0) 6 := by decide
    intro hmem
    obtain ⟨h, heq⟩ := hall cards hmem
    exact ⟨_, ⟨by omega, by omega, by omega⟩, ⟨by omega, by omega, by omega⟩, heq⟩
  · rintro ⟨t, ⟨h30, h1, h7⟩, ⟨h30', h1', h7'⟩, rfl⟩
    have hall : ∀ t < 30, 1 ≤ t % 10 ∧ t % 10 ≤ 4 → List.range' t 6 ∈ windows := by decide
    exact hall t h30 ⟨h1, by omega⟩

lemma isSixShun_iff (hv : ∀ t ∈ handCards, IsTile t) :
    (isSixShun handCards []).1 = true ↔ ∃ t, IsRunStart t ∧ IsRunStart (t + 3) ∧
      Hit (handCards : Multiset ℕ) (List.range' t 6) := by
  have hw : ∀ w ∈ windows, w.Nodup ∧ w.length = 6 := by decide
  obtain ⟨-, hiff⟩ := foldl_tryWindow (s := ⟨handCards, []⟩) windows hw hv
  simp only [isSixShun, decide_eq_true_eq, hiff rfl, mem_windows]
  constructor
  · rintro ⟨w, ⟨t, ht, ht', rfl⟩, h⟩
    exact ⟨t, ht, ht', h⟩
  · rintro ⟨t, ht, ht', h⟩
    exact ⟨_, ⟨t, ht, ht', rfl⟩, h⟩

/-! ### Decompositions -/

/-- A window that is made of whole runs can be taken off exactly if some division has the runs. -/
lemma hit_iff {n : Multiset ℕ} {bs : Multiset (Multiset ℕ)} (hbs : ∀ b ∈ bs, b ∈ melds)
    (hsum : (cards : Multiset ℕ) = bs.sum) : Hit n cards ↔ ∃ p ms, Division n p ms ∧ bs ≤ ms := by
  rw [exists_division_iff hbs, Hit, hsum]

/-- **The dragon and six runs are exact.** `isTiaoLong` holds exactly if some division of the hand
contains the three runs `123`, `456` and `789` of one suit, and `isSixShun` exactly if some division
contains two runs that follow one another in a suit.

**Proof sketch.** Taking the tiles off and asking the recogniser finds such a division
(`exists_division_iff`). In `isSixShun` the first window that succeeds is tried on the whole hand,
in some order (`foldl_tryWindow`). -/
theorem tiaoLong_sixShun_exact (hv : ∀ t ∈ handCards, IsTile t) :
    ((isTiaoLong handCards []).1 = true ↔ ∃ suit < 3, ∃ p ms,
      Division (handCards : Multiset ℕ) p ms ∧
        {run (suit * 10 + 1), run (suit * 10 + 4), run (suit * 10 + 7)} ≤ ms) ∧
    ((isSixShun handCards []).1 = true ↔ ∃ t, IsRunStart t ∧ IsRunStart (t + 3) ∧ ∃ p ms,
      Division (handCards : Multiset ℕ) p ms ∧ {run t, run (t + 3)} ≤ ms) := by
  rw [isTiaoLong_iff hv, isSixShun_iff hv]
  constructor
  · refine exists_congr fun suit => and_congr_right fun hs => hit_iff ?_ ?_
    · have hrun : ∀ k, k = 1 ∨ k = 4 ∨ k = 7 → run (suit * 10 + k) ∈ melds :=
        fun k hk => run_mem_melds ⟨by omega, by omega, by omega⟩
      simp only [Multiset.insert_eq_cons, Multiset.mem_cons, Multiset.mem_singleton]
      rintro b (rfl | rfl | rfl)
      · exact hrun 1 (by omega)
      · exact hrun 4 (by omega)
      · exact hrun 7 (by omega)
    · simp only [Multiset.insert_eq_cons, Multiset.sum_cons, Multiset.sum_singleton]
      rfl
  · refine exists_congr fun t => and_congr_right fun ht => and_congr_right fun ht' =>
      hit_iff ?_ ?_
    · simp only [Multiset.insert_eq_cons, Multiset.mem_cons, Multiset.mem_singleton]
      rintro b (rfl | rfl)
      · exact run_mem_melds ht
      · exact run_mem_melds ht'
    · simp only [Multiset.insert_eq_cons, Multiset.sum_cons, Multiset.sum_singleton]
      rfl

/-- A hand with the dragon of the first suit and a pair. -/
theorem dragon_divides : ∃ suit < 3, ∃ p ms,
    Division (([1, 2, 3, 4, 5, 6, 7, 8, 9, 31, 31] : List ℕ) : Multiset ℕ) p ms ∧
      {run (suit * 10 + 1), run (suit * 10 + 4), run (suit * 10 + 7)} ≤ ms :=
  (tiaoLong_sixShun_exact (by decide)).1.mp (by decide +kernel)

end Maanshan.CountHuType
