import JsmjServer.Mahjong.MJWall
import Mathlib.Data.Int.ConditionallyCompleteOrder
import Mathlib.Data.Int.Interval

set_option relaxedAutoImplicit false
set_option autoImplicit false

/-!
# The announced number of tiles

`MJWall:getRemainCardsNum` counts the indexes of the range. Some games announce it in place of
`getCanGetCount`, after `takeIndexCard` has taken the wild tile out of the middle of the wall. The
count is right as long as every item of the range can be obtained and none outside.

## Main definitions

* `Mahjong.MJWall.Full` — the items of the range can be obtained, and only these.
* `Mahjong.MJWall.CountRight` — what is claimed of a state.
* `Mahjong.MJWall.Orderly` — the condition on a step.

## Main results

* `Mahjong.MJWall.countRight_iff` — the states in which the count is right.
* `Mahjong.MJWall.announced_count_iff` — the count is right along a run if and only if its steps are
  orderly.
-/

namespace Mahjong

namespace MJWall

/-- The number of the items in the range that can be obtained. -/
noncomputable def canGetInRange (w : MJWall) : ℕ :=
  ((Finset.Icc w.frontIndex w.backIndex).filter fun i => w.canGetAt i = true).card

/-- The number of the indexes in the range is the number of its items that can be obtained, and the
number of all items that can be obtained. -/
def CountRight (w : MJWall) : Prop :=
  w.getRemainCardsNum = w.canGetInRange ∧ w.getRemainCardsNum = w.getCanGetCount

/-- The items that can be obtained are those of the range, which is not turned round. -/
structure Full (w : MJWall) : Prop where
  le : w.frontIndex ≤ w.backIndex + 1
  canGet : ∀ i, w.canGetAt i = true ↔ w.frontIndex ≤ i ∧ i ≤ w.backIndex

/-- The steps of a wall from its initialisation to the deal. -/
inductive Action
  | init
  | shuffle (count : Option ℤ) (random : ℕ → ℕ → ℕ)
  | getFrontCard
  | getBackCard
  | takeIndexCard (index : ℤ)

/-- The wall after a step. -/
def act (w : MJWall) : Action → MJWall
  | .init => w.init
  | .shuffle count random => w.shuffle count random
  | .getFrontCard => w.getFrontCard.2
  | .getBackCard => w.getBackCard.2
  | .takeIndexCard index => (w.takeIndexCard index).2

/-- No item of the range is taken by its index, and a shuffle leaves the items that can be obtained
in the range. -/
def Orderly (w : MJWall) : Action → Prop
  | .shuffle count random => ∀ i, (w.shuffle count random).canGetAt i = true ↔
      w.frontIndex ≤ i ∧ i ≤ w.backIndex
  | .takeIndexCard index => ¬(w.frontIndex ≤ index ∧ index ≤ w.backIndex)
  | _ => True

/-! ### The states in which the count is right -/

/-- Counting in a list is counting indexes. -/
lemma countP_eq_card {α : Type} (p : α → Bool) (l : List α) :
    l.countP p = ((Finset.Icc (1 : ℤ) l.length).filter fun i =>
      (l[(i - 1).toNat]?).any p = true).card := by
  induction l using List.reverseRecOn with
  | nil => rfl
  | append_singleton l a ih =>
    have hend : Finset.Icc (1 : ℤ) (l ++ [a]).length =
        insert ((l.length : ℤ) + 1) (Finset.Icc (1 : ℤ) l.length) := by
      ext i
      simp only [List.length_append, List.length_singleton, Finset.mem_Icc, Finset.mem_insert]
      omega
    have hold : ((Finset.Icc (1 : ℤ) l.length).filter fun i =>
          ((l ++ [a])[(i - 1).toNat]?).any p = true) =
        (Finset.Icc (1 : ℤ) l.length).filter fun i => (l[(i - 1).toNat]?).any p = true := by
      refine Finset.filter_congr fun i hi => ?_
      rw [Finset.mem_Icc] at hi
      rw [List.getElem?_append_left (by omega)]
    have hlast : ((l ++ [a])[((l.length : ℤ) + 1 - 1).toNat]?).any p = p a := by simp
    rw [List.countP_append, ih, hend, Finset.filter_insert, hlast, hold]
    cases hp : p a with
    | true =>
      rw [if_pos rfl, Finset.card_insert_of_notMem (by simp)]
      simp [hp]
    | false => simp [hp]

section States

variable {w : MJWall}

/-- The indexes of the items that can be obtained. -/
noncomputable def canGetIndexes (w : MJWall) : Finset ℤ :=
  (Finset.Icc (1 : ℤ) w.wallList.length).filter fun i => w.canGetAt i = true

lemma mem_canGetIndexes {i : ℤ} : i ∈ w.canGetIndexes ↔ w.canGetAt i = true := by
  simp only [canGetIndexes, Finset.mem_filter, Finset.mem_Icc, and_iff_right_iff_imp]
  exact pos_of_canGetAt

lemma getCanGetCount_eq : w.getCanGetCount = w.canGetIndexes.card := by
  rw [getCanGetCount, getStateCount, countP_eq_card]
  congr 1
  refine Finset.filter_congr fun i hi => ?_
  rw [canGetAt, itemAt, if_pos (Finset.mem_Icc.mp hi).1]
  rfl

lemma canGetInRange_eq : w.canGetInRange =
    (w.canGetIndexes.filter fun i => w.frontIndex ≤ i ∧ i ≤ w.backIndex).card := by
  rw [canGetInRange]
  congr 1
  ext i
  simp only [Finset.mem_filter, Finset.mem_Icc, mem_canGetIndexes]
  exact and_comm

/-- **The count of a state** is right if and only if the items of the range can be obtained, and
only these. -/
lemma countRight_iff : w.CountRight ↔ w.Full := by
  have hcard : w.frontIndex ≤ w.backIndex + 1 →
      w.getRemainCardsNum = (Finset.Icc w.frontIndex w.backIndex).card := by
    intro hle
    rw [Int.card_Icc, getRemainCardsNum]
    omega
  constructor
  · rintro ⟨hrange, hall⟩
    have hle : w.frontIndex ≤ w.backIndex + 1 := by
      rw [getRemainCardsNum] at hall
      omega
    have hsame : w.canGetIndexes.filter (fun i => w.frontIndex ≤ i ∧ i ≤ w.backIndex) =
        w.canGetIndexes := by
      refine Finset.eq_of_subset_of_card_le (Finset.filter_subset _ _) ?_
      rw [← canGetInRange_eq, ← getCanGetCount_eq]
      omega
    have hfull : w.canGetIndexes = Finset.Icc w.frontIndex w.backIndex := by
      refine Finset.eq_of_subset_of_card_le (fun i hi => ?_) ?_
      · rw [← hsame] at hi
        exact Finset.mem_Icc.mpr (Finset.mem_filter.mp hi).2
      · rw [← getCanGetCount_eq]
        have := hcard hle
        omega
    refine ⟨hle, fun i => ?_⟩
    rw [← mem_canGetIndexes, hfull, Finset.mem_Icc]
  · intro h
    have hfull : w.canGetIndexes = Finset.Icc w.frontIndex w.backIndex := by
      ext i
      rw [mem_canGetIndexes, h.canGet, Finset.mem_Icc]
    refine ⟨?_, by rw [hcard h.le, getCanGetCount_eq, hfull]⟩
    rw [hcard h.le, canGetInRange_eq, hfull]
    congr 2
    ext i
    simp

end States

/-! ### Steps -/

section Steps

variable {w : MJWall} {i : ℤ} {item : MJWallItem}

/-- A deal from the front hands out the item at the front index while the count is right. -/
lemma Full.getFrontCard (hb : w.Bounds) (h : w.Full) : w.getFrontCard.2.Full := by
  have hone := hb.one_le
  have hle' := h.le
  rcases getFrontCard_cases hb with ⟨-, heq⟩ | ⟨hle, ⟨i, item, h₁, -, hskip, -, -, heq⟩ |
    ⟨-, -, hnone, -⟩ | ⟨-, hnone, -⟩⟩
  · rw [heq]
    exact h
  · have hfront := (h.canGet w.frontIndex).mpr ⟨le_rfl, hle⟩
    obtain rfl : i = w.frontIndex := by
      by_contra hne
      rw [hskip _ le_rfl (by omega)] at hfront
      cases hfront
    have hfrom : w.getFrontCard.2.frontIndex = w.frontIndex + 1 := by rw [heq]
    have hto : w.getFrontCard.2.backIndex = w.backIndex := by rw [heq]; rfl
    have hget (j : ℤ) : w.getFrontCard.2.canGetAt j =
        (decide (j ≠ w.frontIndex) && w.canGetAt j) := by
      rw [heq]
      exact canGetAt_takeAt hone
    refine ⟨by omega, fun j => ?_⟩
    rw [hget, hfrom, hto, Bool.and_eq_true, h.canGet, decide_eq_true_eq]
    omega
  · have hfront := (h.canGet w.frontIndex).mpr ⟨le_rfl, hle⟩
    rw [hnone _ le_rfl hle] at hfront
    cases hfront
  · have hfront := (h.canGet w.frontIndex).mpr ⟨le_rfl, hle⟩
    rw [hnone _ le_rfl (by omega)] at hfront
    cases hfront

lemma Full.getBackCard (hb : w.Bounds) (h : w.Full) : w.getBackCard.2.Full := by
  have hone := hb.one_le
  rcases getBackCard_cases hb with ⟨-, heq⟩ | ⟨-, hle, ⟨item, -, -, heq⟩ | ⟨hnot, -⟩⟩
  · rw [heq]
    exact h
  · have hfrom : w.getBackCard.2.frontIndex = w.frontIndex := by rw [heq]; rfl
    have hto : w.getBackCard.2.backIndex = w.backIndex - 1 := by rw [heq]
    have hget (j : ℤ) : w.getBackCard.2.canGetAt j =
        (decide (j ≠ w.backIndex) && w.canGetAt j) := by
      rw [heq]
      exact canGetAt_takeAt (hone.trans hle)
    refine ⟨by omega, fun j => ?_⟩
    rw [hget, hfrom, hto, Bool.and_eq_true, h.canGet, decide_eq_true_eq]
    omega
  · have hback := (h.canGet w.backIndex).mpr ⟨hle, le_rfl⟩
    rw [hnot] at hback
    cases hback

/-- Taking an item of the range by its index makes the count wrong. -/
lemma Full.takeIndexCard_iff (hb : w.Bounds) (h : w.Full) (index : ℤ) :
    (w.takeIndexCard index).2.Full ↔ ¬(w.frontIndex ≤ index ∧ index ≤ w.backIndex) := by
  have hone := hb.one_le
  rcases takeIndexCard_cases hb index with ⟨heq, hnot⟩ | ⟨heq, h₁, h₂, -⟩
  · rw [heq]
    refine iff_of_true h fun hin => hnot ⟨hin.1, hin.2, (h.canGet index).mpr hin⟩
  · rw [heq]
    refine iff_of_false (fun hfull => ?_) (not_not_intro ⟨h₁, h₂⟩)
    have hstill := (hfull.canGet index).mpr ⟨h₁, h₂⟩
    rw [canGetAt_takeAt (by omega)] at hstill
    simp at hstill

/-- An item that has been added can be obtained. -/
lemma mem_addMJ {byteCard : Option ℕ} {count : ℤ}
    (h : item ∈ (w.addMJ byteCard count).wallList) : item ∈ w.wallList ∨ item.canGet = true := by
  unfold addMJ at h
  split at h
  · rcases List.mem_append.mp h with h | h
    · exact .inl h
    · rw [List.eq_of_mem_replicate h]
      exact .inr (MJWallItem.canGet_addGetStat _)
  · exact .inl h

/-- Every item can be obtained after an initialisation. -/
lemma full_closed {α : Type} (f : α → Option ℕ) (count : α → ℤ) (l : List α) {w : MJWall}
    (hfront : w.frontIndex = 1) (hget : ∀ item ∈ w.wallList, item.canGet = true) :
    (l.foldl (fun w a => w.addMJ (f a) (count a)) w).closed.Full := by
  induction l generalizing w with
  | nil =>
    refine ⟨by simp [closed, hfront], fun i => ⟨fun hi => ?_, fun hi => ?_⟩⟩
    · exact ⟨hfront.trans_le (pos_of_canGetAt hi).1, (pos_of_canGetAt hi).2⟩
    · have h₁ : 1 ≤ i := hfront.symm.trans_le hi.1
      obtain ⟨item, hitem⟩ := exists_itemAt (w := w.closed) h₁ hi.2
      refine (canGetAt_eq hitem).trans ?_
      rw [itemAt, if_pos h₁] at hitem
      exact hget item (List.mem_of_getElem? hitem)
  | cons a l ih =>
    refine ih (by rw [frontIndex_addMJ, hfront]) fun item hitem => ?_
    rcases mem_addMJ hitem with hitem | hitem
    · exact hget item hitem
    · exact hitem

lemma full_init (w : MJWall) : w.init.Full :=
  full_closed _ _ _ rfl (by simp [MJWall.clear])

/-- The range stays in the wall. -/
lemma Bounds.act (hb : w.Bounds) (a : Action) : (w.act a).Bounds := by
  cases a with
  | init => exact bounds_closed _ _ _ rfl
  | shuffle count random => exact hb.shuffle count random
  | getFrontCard => exact (after_cases hb .getFrontCard).1
  | getBackCard => exact (after_cases hb .getBackCard).1
  | takeIndexCard index => exact (after_cases hb (.takeIndexCard index)).1

/-- An orderly step keeps the count right, any other makes it wrong. -/
lemma Full.act_iff (hb : w.Bounds) (h : w.Full) (a : Action) :
    (w.act a).Full ↔ w.Orderly a := by
  cases a with
  | init => exact iff_of_true (full_init w) trivial
  | shuffle count random => exact ⟨fun hs => hs.canGet, fun hs => ⟨h.le, hs⟩⟩
  | getFrontCard => exact iff_of_true (h.getFrontCard hb) trivial
  | getBackCard => exact iff_of_true (h.getBackCard hb) trivial
  | takeIndexCard index => exact h.takeIndexCard_iff hb index

end Steps

/-- **The announced count**: along a run of initialisations, shuffles and deals the number of the
indexes in the range is the number of tiles that can be obtained, in the range and in the whole
wall, if and only if no step takes an item of the range by its index and no shuffle moves a dealt
item into the range.

**Proof sketch.** The count of a state is right when the wall is full between the indexes
(`countRight_iff`); while it is, dealing takes the item at an index and moves the index
(`Full.getFrontCard`), and the other steps are those of `Full.act_iff`. -/
theorem announced_count_iff (wallConfigMap : List (ℕ × ℤ)) (actions : List Action) :
    Runs.Along act (fun w a => (w.act a).CountRight) (new wallConfigMap) actions ↔
      Runs.Along act Orderly (new wallConfigMap) actions := by
  have hnew : (new wallConfigMap).Bounds ∧ (new wallConfigMap).Full := by
    refine ⟨⟨le_rfl, by simp [new]⟩, by simp [new], fun i => ?_⟩
    constructor
    · intro hi
      exact pos_of_canGetAt hi
    · rintro ⟨h₁, h₂⟩
      dsimp only [new] at h₁ h₂
      omega
  refine Runs.along_congr (I := fun w => w.Bounds ∧ w.Full) (fun w a h ha => ?_)
    (fun w a h => ?_) hnew
  · exact ⟨h.1.act a, (h.2.act_iff h.1 a).mpr ha⟩
  · rw [countRight_iff, h.2.act_iff h.1]

/-- Before the deal the second of three tiles is taken by its index, as the wild tile is in some
games: three tiles are announced, and two are left. -/
theorem taken_tile_counted : ¬∀ (wallConfigMap : List (ℕ × ℤ)) (actions : List Action),
    Runs.Along act (fun w a => (w.act a).CountRight) (new wallConfigMap) actions := by
  intro h
  have hright := h [(1, 3)] [.init, .takeIndexCard 2] [.init] (.takeIndexCard 2)
    (List.prefix_refl _)
  have hcount := hright.2
  revert hcount
  decide

end MJWall

end Mahjong
