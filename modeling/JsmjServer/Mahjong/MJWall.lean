import JsmjServer.Lib.Runs
import JsmjServer.Mahjong.Const
import Mathlib.Data.List.Nodup

set_option relaxedAutoImplicit false
set_option autoImplicit false

/-!
# The tile wall

`mj_core/MJWall.lua`: a list of items with a tile and states each, and two indexes that enclose the
part of the wall from which tiles are dealt. `getFrontCard` and `getBackCard` skip the items that
have been taken by index. The loop at the front goes one item too far, and the one at the back calls
`getBackItem` without the wall.

## Main definitions

* `Mahjong.MJWallItem`, `Mahjong.MJWall` — the classes.
* `Mahjong.MJWall.getFrontCard`, `Mahjong.MJWall.getBackCard`, `Mahjong.MJWall.takeIndexCard`,
  `Mahjong.MJWall.shuffle` — the operations.
* `Mahjong.MJWall.Safe`, `Mahjong.MJWall.DealsSafely` — what is claimed of a call and of a run.
* `Mahjong.MJWall.Slips` — the states in which a call goes wrong.

## Main results

* `Mahjong.MJWall.deals_safely_iff` — the wall deals safely if and only if no call slips.

## Design

An operation returns its outcome with the wall it leaves, also when it stops with a runtime error.
The order of `pairs` on a configuration is the one of the list; the numbers that `math.random` draws
are the values of a function of the round and the draw.
-/

namespace Mahjong

/-- `MJWallItemState`. -/
inductive MJWallItemState
  | null | canGet | token | show | fixed
  deriving DecidableEq, Repr

/-- `MJWallItem`. -/
structure MJWallItem where
  byteCard : ℕ
  stateList : MJWallItemState → Bool

namespace MJWallItem

variable (item : MJWallItem)

/-- `MJWallItem:ctor`. -/
def new : MJWallItem := ⟨kCardNull, fun state => state == .null⟩

/-- `MJWallItem:setItem`, `none` when it is refused. -/
def setItem (byteCard : ℕ) : Option MJWallItem :=
  if MJCard.isValid byteCard then some { item with byteCard := byteCard } else none

/-- `MJWallItem:addState`. -/
def addState (state : MJWallItemState) : MJWallItem :=
  { item with stateList := Function.update item.stateList state true }

/-- `MJWallItem:subState`. -/
def subState (state : MJWallItemState) : MJWallItem :=
  { item with stateList := Function.update item.stateList state false }

/-- `MJWallItem:hasState`. -/
def hasState (state : MJWallItemState) : Bool := item.stateList state

/-- `MJWallItem:canGet`. -/
def canGet : Bool := item.hasState .canGet

/-- `MJWall:addGetStat`. -/
def addGetStat : MJWallItem := ((item.subState .null).subState .token).addState .canGet

/-- `MJWall:takeaway`. -/
def takeaway : MJWallItem := ((item.subState .null).subState .canGet).addState .token

@[simp] lemma canGet_addGetStat : item.addGetStat.canGet = true := rfl

@[simp] lemma canGet_takeaway : item.takeaway.canGet = false := rfl

end MJWallItem

/-- `index2ByteCardMap`. -/
def index2ByteCardMap (k : ℕ) : Option ℕ :=
  if k = 0 then none
  else
    (List.range' 1 9 ++ List.range' 11 9 ++ List.range' 21 9 ++ List.range' 31 7 ++
      List.range' 41 8 ++ List.range' 51 4 ++ [61, 62])[k - 1]?

/-- `MJWall`. -/
structure MJWall where
  wallConfigMap : List (ℕ × ℤ)
  wallList : List MJWallItem
  frontIndex : ℤ
  backIndex : ℤ

/-- What an operation returns: nothing at all, a tile, or `nil` in its place; or it stops with a
runtime error. -/
inductive Outcome
  | done
  | handed (byteCard : ℕ)
  | empty
  | raised
  deriving DecidableEq, Repr

namespace MJWall

/-- `MJWall:ctor`. -/
def new (wallConfigMap : List (ℕ × ℤ)) : MJWall := ⟨wallConfigMap, [], 1, 0⟩

variable (w : MJWall)

/-- `MJWall:clear`. -/
def clear : MJWall := { w with wallList := [], frontIndex := 1, backIndex := 0 }

/-- `MJWall:addMJ`. -/
def addMJ (byteCard : Option ℕ) (count : ℤ) : MJWall :=
  match byteCard.bind MJWallItem.new.setItem with
  | some item => { w with wallList := w.wallList ++ List.replicate count.toNat item.addGetStat }
  | none => w

/-- The last step of both initialisations: the back index is the length of the wall. -/
def closed : MJWall := { w with backIndex := w.wallList.length }

/-- `MJWall:init`. -/
def init : MJWall :=
  (w.wallConfigMap.foldl (fun w kv => w.addMJ (index2ByteCardMap kv.1) kv.2) w.clear).closed

/-- `MJWall:initWithSeq`. -/
def initWithSeq (data : List ℕ) : MJWall :=
  (data.foldl (fun w v => w.addMJ (some v) 1) w.clear).closed

/-- A round of `MJWall:shuffle`: the items are taken out of a copy at the random positions. -/
def shuffleRound (random : ℕ → ℕ) : ℕ → List MJWallItem → List MJWallItem
  | 0, _ => []
  | n + 1, tempWall =>
    (tempWall[random n % tempWall.length]?).toList ++
      shuffleRound random n (tempWall.eraseIdx (random n % tempWall.length))

/-- Rounds of the shuffle, one after the other. -/
def shuffleRounds (random : ℕ → ℕ → ℕ) (rounds : ℕ) (wallList : List MJWallItem) :
    List MJWallItem :=
  (List.range rounds).foldl (fun l i => shuffleRound (random i) l.length l) wallList

/-- `MJWall:shuffle`, with one round more than its argument says. -/
def shuffle (count : Option ℤ) (random : ℕ → ℕ → ℕ) : MJWall :=
  { w with wallList := shuffleRounds random (count.getD 3 + 1).toNat w.wallList }

/-- `wallList[i]`. -/
def itemAt (i : ℤ) : Option MJWallItem := if 1 ≤ i then w.wallList[(i - 1).toNat]? else none

/-- The item at an index can be obtained. -/
def canGetAt (i : ℤ) : Bool := (w.itemAt i).any MJWallItem.canGet

/-- `MJWall:takeaway` of the item at an index. -/
def takeAt (i : ℤ) : MJWall :=
  { w with wallList := w.wallList.modify (i - 1).toNat MJWallItem.takeaway }

/-- `MJWall:getFrontItem`. -/
def getFrontItem : Option MJWallItem := w.itemAt w.frontIndex

/-- `MJWall:getBackItem`. -/
def getBackItem : Option MJWallItem := w.itemAt w.backIndex

/-- `MJWall:getStateCount`. -/
def getStateCount (state : MJWallItemState) : ℕ :=
  w.wallList.countP fun item => item.hasState state

/-- `MJWall:getCanGetCount`. -/
def getCanGetCount : ℕ := w.getStateCount .canGet

/-- `MJWall:getRemainCardsNum`. -/
def getRemainCardsNum : ℤ := w.backIndex - w.frontIndex + 1

/-- `MJWall:setFrontIndex`. -/
def setFrontIndex (num : ℤ) : MJWall :=
  if num ≤ w.backIndex ∧ w.frontIndex ≤ num then { w with frontIndex := num } else w

/-- `MJWall:setBackIndex`. -/
def setBackIndex (num : ℤ) : MJWall :=
  if num ≤ w.backIndex ∧ w.frontIndex ≤ num then { w with backIndex := num } else w

/-- `MJWall:takeIndexCard`. -/
def takeIndexCard (index : ℤ) : Outcome × MJWall :=
  if w.frontIndex ≤ index ∧ index ≤ w.backIndex then
    match w.itemAt index with
    | none => (.raised, w)
    | some item => (.done, if item.canGet then w.takeAt index else w)
  else (.done, w)

/-- The loop of `getFrontCard` over the items that cannot be obtained, for a number of turns. It
leaves the last item it has looked at, `none` if there is none at the index. -/
def frontLoop : ℕ → MJWallItem → MJWall → Option MJWallItem × MJWall
  | 0, item, w => (some item, w)
  | n + 1, _, w =>
    match w.itemAt (w.frontIndex + 1) with
    | none => (none, { w with frontIndex := w.frontIndex + 1 })
    | some item =>
      if item.canGet then (some item, { w with frontIndex := w.frontIndex + 1 })
      else frontLoop n item { w with frontIndex := w.frontIndex + 1 }

/-- `MJWall:getFrontCard`. The loop is bounded by the length of the range, but its first turn looks
at the second item already. -/
def getFrontCard : Outcome × MJWall :=
  if 0 < w.getCanGetCount ∧ w.frontIndex ≤ w.backIndex then
    match w.getFrontItem with
    | none => (.raised, w)
    | some item =>
      let r := if item.canGet then (some item, w)
        else frontLoop (w.backIndex - w.frontIndex + 1).toNat item w
      match r.1 with
      | none => (.raised, r.2)
      | some item =>
        if item.canGet then
          (.handed item.byteCard, { r.2.takeAt r.2.frontIndex with
            frontIndex := r.2.frontIndex + 1 })
        else (.empty, r.2)
  else (.empty, w)

/-- The loop of `getBackCard`. Its call `self.getBackItem()` passes no wall, so that its first turn
stops with an error. -/
def backLoop : ℕ → MJWallItem → MJWall → Option MJWallItem × MJWall
  | 0, item, w => (some item, w)
  | _ + 1, _, w => (none, { w with backIndex := w.backIndex - 1 })

/-- `MJWall:getBackCard`. -/
def getBackCard : Outcome × MJWall :=
  if 0 < w.getCanGetCount ∧ w.frontIndex ≤ w.backIndex then
    match w.getBackItem with
    | none => (.raised, w)
    | some item =>
      let r := if item.canGet then (some item, w)
        else backLoop (w.backIndex - w.frontIndex + 1).toNat item w
      match r.1 with
      | none => (.raised, r.2)
      | some item =>
        if item.canGet then
          (.handed item.byteCard, { r.2.takeAt r.2.backIndex with backIndex := r.2.backIndex - 1 })
        else (.empty, r.2)
  else (.empty, w)

/-! ### The items after an operation -/

section Items

variable {w : MJWall} {i j : ℤ} {item : MJWallItem}

lemma itemAt_eq_none (hi : 1 ≤ i) : w.itemAt i = none ↔ w.wallList.length < i := by
  rw [itemAt, if_pos hi, List.getElem?_eq_none_iff]
  omega

lemma exists_itemAt (h₁ : 1 ≤ i) (h₂ : i ≤ w.wallList.length) : ∃ item, w.itemAt i = some item :=
  Option.ne_none_iff_exists'.mp ((itemAt_eq_none h₁).not.mpr (by omega))

lemma canGetAt_eq (h : w.itemAt i = some item) : w.canGetAt i = item.canGet := by
  simp [canGetAt, h]

lemma exists_of_canGetAt (h : w.canGetAt i = true) :
    ∃ item, w.itemAt i = some item ∧ item.canGet = true := by
  cases hitem : w.itemAt i with
  | none => simp [canGetAt, hitem] at h
  | some item => exact ⟨item, rfl, by rwa [canGetAt_eq hitem] at h⟩

lemma pos_of_canGetAt (h : w.canGetAt i = true) : 1 ≤ i ∧ i ≤ w.wallList.length := by
  obtain ⟨item, hitem, -⟩ := exists_of_canGetAt h
  by_contra hout
  by_cases h₁ : 1 ≤ i
  · rw [(itemAt_eq_none h₁).mpr (by omega)] at hitem
    cases hitem
  · rw [itemAt, if_neg h₁] at hitem
    cases hitem

/-- There is something to obtain if and only if an item can be obtained. -/
lemma getCanGetCount_pos : 0 < w.getCanGetCount ↔ ∃ i, w.canGetAt i = true := by
  rw [getCanGetCount, getStateCount, List.countP_pos_iff]
  constructor
  · rintro ⟨item, hmem, hget⟩
    obtain ⟨k, hk⟩ := List.mem_iff_getElem?.mp hmem
    refine ⟨k + 1, ?_⟩
    have hitem : w.itemAt (k + 1) = some item := by
      rw [itemAt, if_pos (by omega)]
      simpa using hk
    rw [canGetAt_eq hitem]
    exact hget
  · rintro ⟨i, hi⟩
    obtain ⟨item, hitem, hget⟩ := exists_of_canGetAt hi
    rw [itemAt, if_pos (pos_of_canGetAt hi).1] at hitem
    exact ⟨item, List.mem_of_getElem? hitem, hget⟩

/-- An item that is taken away cannot be obtained any longer, the others are as before. -/
lemma canGetAt_takeAt (hi : 1 ≤ i) :
    (w.takeAt i).canGetAt j = (decide (j ≠ i) && w.canGetAt j) := by
  unfold canGetAt itemAt takeAt
  by_cases hj : 1 ≤ j
  · rw [if_pos hj, if_pos hj, List.getElem?_modify]
    by_cases hji : j = i
    · subst hji
      cases w.wallList[(j - 1).toNat]? <;> simp
    · have hne : ¬(i - 1).toNat = (j - 1).toNat := by omega
      simp only [hne, if_false]
      simp [hji]
  · simp [hj]

lemma canGetAt_congr {w' : MJWall} (h : w'.wallList = w.wallList) :
    w'.canGetAt i = w.canGetAt i := by
  simp only [canGetAt, itemAt, h]

/-- The range of the indexes lies in the wall. -/
structure Bounds (w : MJWall) : Prop where
  one_le : 1 ≤ w.frontIndex
  le_length : w.backIndex ≤ w.wallList.length

end Items

/-! ### The loop at the front -/

section Front

variable {w : MJWall} {item : MJWallItem} {n : ℕ} {i : ℤ}

/-- There are items at the indexes after the first one and before the second, and none of them can
be obtained. -/
def Skipped (w : MJWall) (a b : ℤ) : Prop :=
  ∀ j, a < j → j < b → w.canGetAt j = false ∧ w.itemAt j ≠ none

lemma skipped_succ {a b : ℤ} (h : w.itemAt (a + 1) = some item) (hget : item.canGet = false)
    (hskip : w.Skipped (a + 1) b) : w.Skipped a b := by
  intro j hj₁ hj₂
  rcases (show j = a + 1 ∨ a + 1 < j by omega) with rfl | hj
  · exact ⟨by rw [canGetAt_eq h, hget], by simp [h]⟩
  · exact hskip j hj hj₂

/-- How the loop ends: at the first item that can be obtained, at an index without an item, or after
all its turns. -/
lemma frontLoop_cases (n : ℕ) {item : MJWallItem} (w : MJWall) (hitem : item.canGet = false) :
    (∃ i item', w.frontIndex < i ∧ i ≤ w.frontIndex + n ∧ w.Skipped w.frontIndex i ∧
      w.itemAt i = some item' ∧ item'.canGet = true ∧
      frontLoop n item w = (some item', { w with frontIndex := i })) ∨
    (∃ i, w.frontIndex < i ∧ i ≤ w.frontIndex + n ∧ w.Skipped w.frontIndex i ∧
      w.itemAt i = none ∧ frontLoop n item w = (none, { w with frontIndex := i })) ∨
    (w.Skipped w.frontIndex (w.frontIndex + n + 1) ∧ ∃ item', item'.canGet = false ∧
      frontLoop n item w = (some item', { w with frontIndex := w.frontIndex + n })) := by
  induction n generalizing w item with
  | zero =>
    refine .inr (.inr ⟨fun j hj₁ hj₂ => by omega, item, hitem, ?_⟩)
    simp [frontLoop]
  | succ n ih =>
    have hnone : w.Skipped w.frontIndex (w.frontIndex + 1) := fun j hj₁ hj₂ => by omega
    cases hnext : w.itemAt (w.frontIndex + 1) with
    | none =>
      exact .inr (.inl ⟨w.frontIndex + 1, by omega, by omega, hnone, hnext,
        by rw [frontLoop, hnext]⟩)
    | some next =>
      cases hget : next.canGet with
      | true =>
        exact .inl ⟨w.frontIndex + 1, next, by omega, by omega, hnone, hnext, hget,
          by rw [frontLoop, hnext]; exact if_pos hget⟩
      | false =>
        have hloop : frontLoop (n + 1) item w =
            frontLoop n next { w with frontIndex := w.frontIndex + 1 } := by
          rw [frontLoop, hnext]
          exact if_neg (by simp [hget])
        rw [hloop]
        rcases ih { w with frontIndex := w.frontIndex + 1 } hget with
          ⟨i, item', h₁, h₂, hskip, h₃, h₄, heq⟩ | ⟨i, h₁, h₂, hskip, h₃, heq⟩ |
            ⟨hskip, item', h₃, heq⟩
        · dsimp only at h₁ h₂ hskip
          exact .inl ⟨i, item', by omega, by omega, skipped_succ hnext hget hskip, h₃, h₄, heq⟩
        · dsimp only at h₁ h₂ hskip
          exact .inr (.inl ⟨i, by omega, by omega, skipped_succ hnext hget hskip, h₃, heq⟩)
        · have hend : w.frontIndex + ((n + 1 : ℕ) : ℤ) = w.frontIndex + 1 + n := by omega
          rw [hend]
          exact .inr (.inr ⟨skipped_succ hnext hget hskip, item', h₃, heq⟩)

/-- What `getFrontCard` does: nothing; it hands out the first item that can be obtained, at most one
index after the range; or there is none, and it stops behind the range, with an error at the end of
the wall. -/
lemma getFrontCard_cases (hb : w.Bounds) :
    ((¬∃ i, w.canGetAt i = true) ∨ w.backIndex < w.frontIndex) ∧ w.getFrontCard = (.empty, w) ∨
    w.frontIndex ≤ w.backIndex ∧
      ((∃ i item, w.frontIndex ≤ i ∧ i ≤ w.backIndex + 1 ∧
        (∀ j, w.frontIndex ≤ j → j < i → w.canGetAt j = false) ∧
        w.itemAt i = some item ∧ item.canGet = true ∧
        w.getFrontCard = (.handed item.byteCard, { w.takeAt i with frontIndex := i + 1 })) ∨
      ((∃ i, w.canGetAt i = true) ∧ w.backIndex = w.wallList.length ∧
        (∀ j, w.frontIndex ≤ j → j ≤ w.backIndex → w.canGetAt j = false) ∧
        w.getFrontCard = (.raised, { w with frontIndex := w.backIndex + 1 })) ∨
      (w.backIndex < w.wallList.length ∧
        (∀ j, w.frontIndex ≤ j → j ≤ w.backIndex + 1 → w.canGetAt j = false) ∧
        w.getFrontCard = (.empty, { w with frontIndex := w.backIndex + 1 }))) := by
  have hone := hb.one_le
  have hlen := hb.le_length
  by_cases hguard : 0 < w.getCanGetCount ∧ w.frontIndex ≤ w.backIndex
  · refine .inr ⟨hguard.2, ?_⟩
    have hle := hguard.2
    obtain ⟨item, hitem⟩ := exists_itemAt (w := w) hone (by omega)
    have hturns : w.frontIndex + ((w.backIndex - w.frontIndex + 1).toNat : ℤ) =
        w.backIndex + 1 := by omega
    cases hget : item.canGet with
    | true =>
      refine .inl ⟨w.frontIndex, item, le_rfl, by omega, fun j h₁ h₂ => by omega, hitem, hget, ?_⟩
      rw [getFrontCard, if_pos hguard, getFrontItem, hitem]
      simp [hget]
    | false =>
      have hfirst : w.canGetAt w.frontIndex = false := by rw [canGetAt_eq hitem, hget]
      have hfrom : ∀ {b j : ℤ}, w.Skipped w.frontIndex b → w.frontIndex ≤ j → j < b →
          w.canGetAt j = false := by
        intro b j hskip h₁ h₂
        rcases h₁.eq_or_lt with rfl | h₁
        · exact hfirst
        · exact (hskip j h₁ h₂).1
      rcases frontLoop_cases (w.backIndex - w.frontIndex + 1).toNat w hget with
        ⟨i, item', h₁, h₂, hskip, hitem', hget', heq⟩ | ⟨i, h₁, h₂, hskip, hnil, heq⟩ |
          ⟨hskip, item', hget', heq⟩
      · refine .inl ⟨i, item', h₁.le, by omega, fun j => hfrom hskip, hitem', hget', ?_⟩
        rw [getFrontCard, if_pos hguard, getFrontItem, hitem]
        simp [hget, heq, hget', takeAt]
      · have hi := (itemAt_eq_none (w := w) (by omega : 1 ≤ i)).mp hnil
        obtain rfl : i = w.backIndex + 1 := by omega
        refine .inr (.inl ⟨getCanGetCount_pos.mp hguard.1, by omega,
          fun j hj₁ hj₂ => hfrom hskip hj₁ (by omega), ?_⟩)
        rw [getFrontCard, if_pos hguard, getFrontItem, hitem]
        simp [hget, heq]
      · rw [hturns] at hskip heq
        have hnext := (hskip (w.backIndex + 1) (by omega) (by omega)).2
        rw [Ne, itemAt_eq_none (by omega)] at hnext
        refine .inr (.inr ⟨by omega, fun j hj₁ hj₂ => hfrom hskip hj₁ (by omega), ?_⟩)
        rw [getFrontCard, if_pos hguard, getFrontItem, hitem]
        simp [hget, heq, hget']
  · refine .inl ⟨?_, by rw [getFrontCard, if_neg hguard]⟩
    rw [getCanGetCount_pos, not_and_or, not_le] at hguard
    exact hguard

end Front

/-- What `getBackCard` does: nothing; it hands out the item at the back index; or this item cannot
be obtained, and the loop stops with an error. -/
lemma getBackCard_cases {w : MJWall} (hb : w.Bounds) :
    ((¬∃ i, w.canGetAt i = true) ∨ w.backIndex < w.frontIndex) ∧ w.getBackCard = (.empty, w) ∨
    (∃ i, w.canGetAt i = true) ∧ w.frontIndex ≤ w.backIndex ∧
      ((∃ item, w.itemAt w.backIndex = some item ∧ item.canGet = true ∧
        w.getBackCard =
          (.handed item.byteCard, { w.takeAt w.backIndex with backIndex := w.backIndex - 1 })) ∨
      (w.canGetAt w.backIndex = false ∧
        w.getBackCard = (.raised, { w with backIndex := w.backIndex - 1 }))) := by
  have hone := hb.one_le
  have hlen := hb.le_length
  by_cases hguard : 0 < w.getCanGetCount ∧ w.frontIndex ≤ w.backIndex
  · have hle := hguard.2
    refine .inr ⟨getCanGetCount_pos.mp hguard.1, hguard.2, ?_⟩
    obtain ⟨item, hitem⟩ := exists_itemAt (w := w) (by omega : 1 ≤ w.backIndex) hlen
    cases hget : item.canGet with
    | true =>
      refine .inl ⟨item, hitem, hget, ?_⟩
      rw [getBackCard, if_pos hguard, getBackItem, hitem]
      simp [hget, takeAt]
    | false =>
      refine .inr ⟨by rw [canGetAt_eq hitem, hget], ?_⟩
      obtain ⟨n, hn⟩ : ∃ n, (w.backIndex - w.frontIndex + 1).toNat = n + 1 :=
        ⟨(w.backIndex - w.frontIndex).toNat, by omega⟩
      rw [getBackCard, if_pos hguard, getBackItem, hitem, hn]
      simp [hget, backLoop]
  · refine .inl ⟨?_, by rw [getBackCard, if_neg hguard]⟩
    rw [getCanGetCount_pos, not_and_or, not_le] at hguard
    exact hguard

/-! ### Calls -/

/-- The calls on a wall that has been set up. -/
inductive Call
  | getFrontCard
  | getBackCard
  | takeIndexCard (index : ℤ)
  | setFrontIndex (num : ℤ)
  | setBackIndex (num : ℤ)

/-- The outcome of a call and the wall after it. -/
def call (w : MJWall) : Call → Outcome × MJWall
  | .getFrontCard => w.getFrontCard
  | .getBackCard => w.getBackCard
  | .takeIndexCard index => w.takeIndexCard index
  | .setFrontIndex num => (.done, w.setFrontIndex num)
  | .setBackIndex num => (.done, w.setBackIndex num)

/-- The wall after a call. -/
def after (w : MJWall) (c : Call) : MJWall := (w.call c).2

/-- A call raises no error; a tile that it hands out is the one of an item of the range that could
be obtained and cannot any longer; and it returns `nil` in place of a tile only when no item of the
range can be obtained. -/
structure Safe (w : MJWall) (c : Call) : Prop where
  noError : (w.call c).1 ≠ .raised
  handed : ∀ byteCard, (w.call c).1 = .handed byteCard → ∃ i item, w.frontIndex ≤ i ∧
    i ≤ w.backIndex ∧ w.itemAt i = some item ∧ item.byteCard = byteCard ∧ item.canGet = true ∧
    (w.after c).canGetAt i = false
  empty : (w.call c).1 = .empty → ∀ i, w.frontIndex ≤ i → i ≤ w.backIndex → w.canGetAt i = false

/-- The indexes of the items that a call hands out or takes. -/
def taken (w : MJWall) (c : Call) : List ℕ :=
  (List.range (w.wallList.length + 1)).filter fun i => w.canGetAt i && !(w.after c).canGetAt i

/-- The indexes of the items that are handed out or taken along a run. -/
def takenAlong : MJWall → List Call → List ℕ
  | _, [] => []
  | w, c :: calls => w.taken c ++ takenAlong (w.after c) calls

/-- Every call of a run is safe, and no item is handed out or taken twice. -/
def DealsSafely (w : MJWall) (calls : List Call) : Prop :=
  Runs.Along after Safe w calls ∧ (takenAlong w calls).Nodup

/-- A wall as it is before the first tile is dealt: made from a configuration or a list of tiles,
and shuffled. -/
inductive Setup
  | init (wallConfigMap : List (ℕ × ℤ))
  | initWithSeq (data : List ℕ)

/-- The wall of a setup after a shuffle. A count below zero leaves the order as it is. -/
def Setup.wall (s : Setup) (count : Option ℤ) (random : ℕ → ℕ → ℕ) : MJWall :=
  match s with
  | .init wallConfigMap => (new wallConfigMap).init.shuffle count random
  | .initWithSeq data => ((new []).initWithSeq data).shuffle count random

/-- There is a tile to obtain somewhere in the wall, and `getFrontCard` finds none in the range
while the range ends with the wall, or the item behind it can be obtained; or `getBackCard` finds
that the item at the back index cannot be obtained. -/
def Slips (w : MJWall) : Call → Prop
  | .getFrontCard => (∃ i, w.canGetAt i = true) ∧ w.frontIndex ≤ w.backIndex ∧
      (∀ i, w.frontIndex ≤ i → i ≤ w.backIndex → w.canGetAt i = false) ∧
      (w.backIndex = w.wallList.length ∨ w.canGetAt (w.backIndex + 1) = true)
  | .getBackCard => (∃ i, w.canGetAt i = true) ∧ w.frontIndex ≤ w.backIndex ∧
      w.canGetAt w.backIndex = false
  | _ => False

section Calls

variable {w : MJWall} {c : Call} {i : ℤ}

lemma takeIndexCard_cases (hb : w.Bounds) (index : ℤ) :
    w.takeIndexCard index = (.done, w) ∧
        ¬(w.frontIndex ≤ index ∧ index ≤ w.backIndex ∧ w.canGetAt index = true) ∨
      w.takeIndexCard index = (.done, w.takeAt index) ∧
        w.frontIndex ≤ index ∧ index ≤ w.backIndex ∧ w.canGetAt index = true := by
  have hone := hb.one_le
  have hlen := hb.le_length
  unfold takeIndexCard
  by_cases hin : w.frontIndex ≤ index ∧ index ≤ w.backIndex
  · obtain ⟨item, hitem⟩ := exists_itemAt (w := w) (i := index) (by omega) (by omega)
    rw [if_pos hin, hitem, canGetAt_eq hitem]
    cases hget : item.canGet with
    | true => exact .inr ⟨by simp [hget], hin.1, hin.2, rfl⟩
    | false => exact .inl ⟨by simp [hget], by simp⟩
  · rw [if_neg hin]
    exact .inl ⟨rfl, fun h => hin ⟨h.1, h.2.1⟩⟩

/-- A call leaves the items as they are or takes one away, and the range stays in the wall. -/
lemma after_cases (hb : w.Bounds) (c : Call) : (w.after c).Bounds ∧
    ((w.after c).wallList = w.wallList ∨
      ∃ i, 1 ≤ i ∧ (w.after c).wallList = (w.takeAt i).wallList) := by
  have hone := hb.one_le
  have hlen := hb.le_length
  have hmoved : ∀ {w' : MJWall} {i : ℤ}, w'.wallList = (w.takeAt i).wallList →
      w'.wallList.length = w.wallList.length := fun h => by simp [h, takeAt]
  cases c with
  | getFrontCard =>
    rw [after, call]
    rcases getFrontCard_cases hb with ⟨-, h⟩ | ⟨hle, ⟨i, item, h₁, h₂, -, -, -, h⟩ |
      ⟨-, -, -, h⟩ | ⟨-, -, h⟩⟩ <;> rw [h]
    · exact ⟨hb, .inl rfl⟩
    · refine ⟨⟨?_, ?_⟩, .inr ⟨i, by omega, rfl⟩⟩
      · dsimp only
        omega
      · rw [hmoved (i := i) rfl]
        exact hlen
    · exact ⟨⟨by dsimp only; omega, hlen⟩, .inl rfl⟩
    · exact ⟨⟨by dsimp only; omega, hlen⟩, .inl rfl⟩
  | getBackCard =>
    rw [after, call]
    rcases getBackCard_cases hb with ⟨-, h⟩ | ⟨-, hle, ⟨item, -, -, h⟩ | ⟨-, h⟩⟩ <;> rw [h]
    · exact ⟨hb, .inl rfl⟩
    · refine ⟨⟨hone, ?_⟩, .inr ⟨w.backIndex, by omega, rfl⟩⟩
      rw [hmoved (i := w.backIndex) rfl]
      dsimp only
      omega
    · exact ⟨⟨hone, by dsimp only; omega⟩, .inl rfl⟩
  | takeIndexCard index =>
    rw [after, call]
    rcases takeIndexCard_cases hb index with ⟨h, -⟩ | ⟨h, h₁, -, -⟩ <;> rw [h]
    · exact ⟨hb, .inl rfl⟩
    · refine ⟨⟨hone, ?_⟩, .inr ⟨index, by omega, rfl⟩⟩
      rw [hmoved (i := index) rfl]
      exact hlen
  | setFrontIndex num =>
    rw [after, call, setFrontIndex]
    split_ifs with hin
    · exact ⟨⟨by dsimp only; omega, hlen⟩, .inl rfl⟩
    · exact ⟨hb, .inl rfl⟩
  | setBackIndex num =>
    rw [after, call, setBackIndex]
    split_ifs with hin
    · exact ⟨⟨hone, by dsimp only; omega⟩, .inl rfl⟩
    · exact ⟨hb, .inl rfl⟩

/-- No call makes an item obtainable again. -/
lemma canGetAt_of_after (hb : w.Bounds) (h : (w.after c).canGetAt i = true) :
    w.canGetAt i = true := by
  rcases (after_cases hb c).2 with heq | ⟨k, hk, heq⟩
  · rwa [canGetAt_congr heq] at h
  · rw [canGetAt_congr heq, canGetAt_takeAt hk, Bool.and_eq_true] at h
    exact h.2

lemma safe_of_done (h : (w.call c).1 = .done) : w.Safe c := by
  constructor <;> simp [h]

lemma safe_of_empty (h : (w.call c).1 = .empty)
    (hnone : ∀ i, w.frontIndex ≤ i → i ≤ w.backIndex → w.canGetAt i = false) : w.Safe c := by
  refine ⟨by simp [h], fun byteCard hh => ?_, fun _ => hnone⟩
  rw [h] at hh
  cases hh

lemma not_safe_of_raised (h : (w.call c).1 = .raised) : ¬w.Safe c := fun hs => hs.noError h

/-- A tile of an item of the range is handed out safely when the item is taken away. -/
lemma safe_of_handed {item : MJWallItem} (h : (w.call c).1 = .handed item.byteCard)
    (h₁ : w.frontIndex ≤ i) (h₂ : i ≤ w.backIndex) (hone : 1 ≤ i) (hitem : w.itemAt i = some item)
    (hget : item.canGet = true) (hafter : (w.after c).wallList = (w.takeAt i).wallList) :
    w.Safe c := by
  refine ⟨by simp [h], fun byteCard hh => ?_, fun hh => ?_⟩
  · rw [h] at hh
    refine ⟨i, item, h₁, h₂, hitem, Outcome.handed.inj hh, hget, ?_⟩
    rw [canGetAt_congr hafter, canGetAt_takeAt hone]
    simp
  · rw [h] at hh
    cases hh

/-- A call is safe unless it slips. -/
lemma safe_iff (hb : w.Bounds) : w.Safe c ↔ ¬w.Slips c := by
  have hone := hb.one_le
  cases c with
  | getFrontCard =>
    rcases getFrontCard_cases hb with ⟨hno, h⟩ | ⟨hle, ⟨i, item, h₁, h₂, hskip, hitem, hget, h⟩ |
      ⟨hex, hend, hnone, h⟩ | ⟨hlt, hnone, h⟩⟩
    · refine iff_of_true (safe_of_empty (by rw [call, h]) fun i h₁ h₂ => ?_) ?_
      · rcases hno with hno | hno
        · exact Bool.eq_false_iff.mpr fun hi => hno ⟨i, hi⟩
        · omega
      · rintro ⟨hex, hle, -⟩
        rcases hno with hno | hno
        · exact hno hex
        · omega
    · have hi : w.canGetAt i = true := by rw [canGetAt_eq hitem, hget]
      by_cases hin : i ≤ w.backIndex
      · refine iff_of_true (safe_of_handed (i := i) (by rw [call, h]) h₁ hin (by omega) hitem hget
          (by rw [after, call, h])) ?_
        rintro ⟨-, -, hnone, -⟩
        rw [hnone i h₁ hin] at hi
        cases hi
      · obtain rfl : i = w.backIndex + 1 := by omega
        have hnone : ∀ j, w.frontIndex ≤ j → j ≤ w.backIndex → w.canGetAt j = false :=
          fun j hj₁ hj₂ => hskip j hj₁ (by omega)
        refine iff_of_false (fun hs => ?_) (not_not_intro ⟨⟨_, hi⟩, hle, hnone, .inr hi⟩)
        obtain ⟨j, item', hj₁, hj₂, hitem', -, hget', -⟩ :=
          hs.handed item.byteCard (by rw [call, h])
        have hj := hnone j hj₁ hj₂
        rw [canGetAt_eq hitem', hget'] at hj
        cases hj
    · exact iff_of_false (not_safe_of_raised (by rw [call, h]))
        (not_not_intro ⟨hex, hle, hnone, .inl hend⟩)
    · refine iff_of_true (safe_of_empty (by rw [call, h]) fun i h₁ h₂ => hnone i h₁ (by omega)) ?_
      rintro ⟨-, -, -, hend | hnext⟩
      · omega
      · rw [hnone _ (by omega) le_rfl] at hnext
        cases hnext
  | getBackCard =>
    rcases getBackCard_cases hb with ⟨hno, h⟩ | ⟨hex, hle, ⟨item, hitem, hget, h⟩ | ⟨hnot, h⟩⟩
    · refine iff_of_true (safe_of_empty (by rw [call, h]) fun i h₁ h₂ => ?_) ?_
      · rcases hno with hno | hno
        · exact Bool.eq_false_iff.mpr fun hi => hno ⟨i, hi⟩
        · omega
      · rintro ⟨hex, hle, -⟩
        rcases hno with hno | hno
        · exact hno hex
        · omega
    · refine iff_of_true (safe_of_handed (i := w.backIndex) (by rw [call, h]) hle le_rfl (by omega)
        hitem hget (by rw [after, call, h])) ?_
      rintro ⟨-, -, hnot⟩
      rw [canGetAt_eq hitem, hget] at hnot
      cases hnot
    · exact iff_of_false (not_safe_of_raised (by rw [call, h])) (not_not_intro ⟨hex, hle, hnot⟩)
  | takeIndexCard index =>
    refine iff_of_true (safe_of_done ?_) id
    rw [call]
    rcases takeIndexCard_cases hb index with ⟨h, -⟩ | ⟨h, -⟩ <;> rw [h]
  | setFrontIndex num => exact iff_of_true (safe_of_done rfl) id
  | setBackIndex num => exact iff_of_true (safe_of_done rfl) id

/-- What is taken along a run could be obtained before. -/
lemma canGetAt_of_mem_takenAlong {calls : List Call} (hb : w.Bounds) {i : ℕ}
    (h : i ∈ takenAlong w calls) : w.canGetAt i = true := by
  induction calls generalizing w with
  | nil => simp [takenAlong] at h
  | cons c calls ih =>
    rw [takenAlong, List.mem_append] at h
    rcases h with h | h
    · simp only [taken, List.mem_filter, Bool.and_eq_true] at h
      exact h.2.1
    · exact canGetAt_of_after hb (ih (after_cases hb c).1 h)

/-- No item is handed out or taken twice, whatever the calls. -/
lemma nodup_takenAlong (hb : w.Bounds) (calls : List Call) : (takenAlong w calls).Nodup := by
  induction calls generalizing w with
  | nil => exact List.nodup_nil
  | cons c calls ih =>
    rw [takenAlong, List.nodup_append']
    refine ⟨List.nodup_range.filter _, ih (after_cases hb c).1, fun i h₁ h₂ => ?_⟩
    have hlater := canGetAt_of_mem_takenAlong (after_cases hb c).1 h₂
    simp only [taken, List.mem_filter, Bool.and_eq_true, Bool.not_eq_true'] at h₁
    rw [hlater] at h₁
    exact Bool.noConfusion h₁.2.2

end Calls

/-- A round of the shuffle keeps all items. -/
lemma length_shuffleRound (random : ℕ → ℕ) {n : ℕ} {l : List MJWallItem} (h : n ≤ l.length) :
    (shuffleRound random n l).length = n := by
  induction n generalizing l with
  | zero => rfl
  | succ n ih =>
    have hpos : random n % l.length < l.length := Nat.mod_lt _ (by omega)
    have hrest : n ≤ (l.eraseIdx (random n % l.length)).length := by
      rw [List.length_eraseIdx_of_lt hpos]
      omega
    rw [shuffleRound, List.length_append, ih hrest, List.getElem?_eq_getElem hpos]
    simp
    omega

lemma length_shuffleRounds (random : ℕ → ℕ → ℕ) (rounds : ℕ) (l : List MJWallItem) :
    (shuffleRounds random rounds l).length = l.length := by
  unfold shuffleRounds
  induction rounds with
  | zero => rfl
  | succ n ih =>
    rw [List.range_succ, List.foldl_append, List.foldl_cons, List.foldl_nil]
    rw [length_shuffleRound _ le_rfl, ih]

lemma Bounds.shuffle {w : MJWall} (hb : w.Bounds) (count : Option ℤ) (random : ℕ → ℕ → ℕ) :
    (w.shuffle count random).Bounds :=
  ⟨hb.one_le, by
    rw [MJWall.shuffle, length_shuffleRounds]
    exact hb.le_length⟩

lemma frontIndex_addMJ (w : MJWall) (byteCard : Option ℕ) (count : ℤ) :
    (w.addMJ byteCard count).frontIndex = w.frontIndex := by
  unfold addMJ
  split <;> rfl

/-- An initialisation gives the whole wall as the range. -/
lemma bounds_closed {α : Type} (f : α → Option ℕ) (count : α → ℤ) (l : List α) {w : MJWall}
    (h : w.frontIndex = 1) :
    (l.foldl (fun w a => w.addMJ (f a) (count a)) w).closed.Bounds := by
  induction l generalizing w with
  | nil => exact ⟨h.ge, le_rfl⟩
  | cons a l ih => exact ih (by rw [frontIndex_addMJ, h])

lemma bounds_wall (s : Setup) (count : Option ℤ) (random : ℕ → ℕ → ℕ) :
    (s.wall count random).Bounds := by
  cases s with
  | init wallConfigMap => exact (bounds_closed _ _ _ rfl).shuffle count random
  | initWithSeq data => exact (bounds_closed some (fun _ => 1) data rfl).shuffle count random

/-- **Safe dealing**: for every wall, every shuffle and every run of calls, no call raises an error,
every tile comes from the range, is handed out once, and is missed only when there is none, if and
only if no call slips.

**Proof sketch.** The range stays in the wall (`after_cases`), so the outcomes of `getFrontCard` and
`getBackCard` are those of `getFrontCard_cases` and `getBackCard_cases`. No call makes an item
obtainable again, so that none is handed out twice (`nodup_takenAlong`). -/
theorem deals_safely_iff (s : Setup) (count : Option ℤ) (random : ℕ → ℕ → ℕ) (calls : List Call) :
    DealsSafely (s.wall count random) calls ↔
      Runs.Along after (fun w c => ¬w.Slips c) (s.wall count random) calls := by
  rw [DealsSafely, and_iff_left (nodup_takenAlong (bounds_wall s count random) calls)]
  exact Runs.along_congr (I := Bounds) (fun w c hb _ => (after_cases hb c).1)
    (fun w c hb => safe_iff hb) (bounds_wall s count random)

/-- The last of two tiles is taken by its index, and the next is asked for at the back. -/
theorem back_card_raises : ¬∀ (s : Setup) (count : Option ℤ) (random : ℕ → ℕ → ℕ)
    (calls : List Call), DealsSafely (s.wall count random) calls := by
  intro h
  have hsafe := (h (.init [(1, 2)]) (some (-1)) (fun _ _ => 0) [.takeIndexCard 2, .getBackCard]).1
    [.takeIndexCard 2] .getBackCard (List.prefix_refl _)
  exact hsafe.noError (by decide)

end MJWall

end Mahjong
