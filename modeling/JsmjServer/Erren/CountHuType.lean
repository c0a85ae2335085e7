import JsmjServer.Nanjing.HuTypes

set_option relaxedAutoImplicit false
set_option autoImplicit false

/-!
# Types of a win in mahjong for two

The tests of `errenmj/CountHuType.lua` for runs, terminals, concealed triplets and honours. They
read the count map of the hand with the tile that wins, and the exposed piles. A pile has the field
`operType`; the tests for runs and concealed kongs ask for `oper`, which no pile has.

The module has all of these tests, and what becomes of the honour types when the winds and the
dragons change places. The pairs of dragons are counted over `Zi4`, `Zi5` and `Zi6`.

## Main definitions

* `Erren.CountHuType` — the fields that are read; `fullCountMap` is the count map.
* `Erren.CountHuType.honourTypes` — the wind and dragon types that `calculate` awards.
* `Erren.CountHuType.Dealt`, `Erren.CountHuType.hand`, `Erren.pileTiles` — a player with tiles of
  the game, its hand with the tile that wins, and the tiles of a pile.
* `Erren.HonourPerm`, `Erren.CountHuType.swap` — a permutation of the winds and of the dragons,
  applied to a hand and its piles.
* `Erren.CountHuType.Alike` — the condition for equal honour types.

## Main results

* `Erren.CountHuType.fullCountMap_swap`, `Erren.CountHuType.keCount_swap` — the counts move with the
  tiles.
* `Erren.CountHuType.honours_alike_iff` — when the honour types stay as they are.
-/

namespace Erren

open Mahjong MJMath

/-- The fields of `CountHuType` that are read: the player, and the tile it wins on, `none` if it has
drawn the tile. -/
structure CountHuType where
  player : MJPlayer
  huCard : Option ℕ

namespace CountHuType

/-! ### The program -/

/-- `validHuCard`: `huCard`, or the new tile. -/
def validHuCard (t : CountHuType) : ℕ := t.huCard.getD t.player.newCard

/-- `fullCountMap`: the hand and the tile that wins. -/
def fullCountMap (t : CountHuType) : ℕ → ℕ :=
  addAt (t.player.transHandCardsToCountMap false []) t.validHuCard 1

/-- `pile.oper`: there is no such field. -/
def oper (_ : MJPile) : Option Oper := none

/-- `chiType`: the three operations that claim a run. -/
def chiType : List Oper := [.lChi, .mChi, .rChi]

/-- The loop of `getFengDuiCount` and `getJianDuiCount`: the tiles held twice. -/
def duiCount (t : CountHuType) (validCards : List ℕ) : ℕ :=
  validCards.countP fun v => t.fullCountMap v == 2

/-- The loops of `getFengKeCount` and `getJianKeCount`: the piles of the tiles, and the tiles held
three times. -/
def keCount (t : CountHuType) (validCards : List ℕ) : ℕ :=
  (t.player.pileList.countP fun pile => pile.cardList.head?.any fun v => validCards.contains v) +
    validCards.countP fun v => 3 ≤ t.fullCountMap v

/-- `CountHuType:getFengDuiCount`. -/
def getFengDuiCount (t : CountHuType) : ℕ := t.duiCount [31, 32, 33, 34]

/-- `CountHuType:getFengKeCount`. -/
def getFengKeCount (t : CountHuType) : ℕ := t.keCount [31, 32, 33, 34]

/-- `CountHuType:getJianKeCount`. -/
def getJianKeCount (t : CountHuType) : ℕ := t.keCount [35, 36, 37]

/-- `CountHuType:getJianDuiCount`. -/
def getJianDuiCount (t : CountHuType) : ℕ := t.duiCount [34, 35, 36]

/-- The types of honours, `kHuType`. -/
inductive HuType
  | kDaSiXi | kXiaoSiXi | kSanFengKe | kDaSanYuan | kXiaoSanYuan | kErJianKe | kJianKe
  deriving DecidableEq, Repr

/-- The wind types in `calculate`. -/
def fengTypes (t : CountHuType) : List HuType :=
  if t.getFengKeCount = 4 then [.kDaSiXi]
  else if t.getFengKeCount = 3 then
    if t.getFengDuiCount = 1 then [.kXiaoSiXi] else [.kSanFengKe]
  else []

/-- The dragon types in `calculate`. -/
def jianTypes (t : CountHuType) : List HuType :=
  if t.getJianKeCount = 3 then [.kDaSanYuan]
  else if t.getJianKeCount = 2 then
    if t.getJianDuiCount = 1 then [.kXiaoSanYuan] else [.kErJianKe]
  else if t.getJianKeCount = 1 then [.kJianKe]
  else []

/-- The wind and dragon types that `calculate` awards. -/
def honourTypes (t : CountHuType) : List HuType := t.fengTypes ++ t.jianTypes

/-- The count map with the tiles of the piles that `oper` says are runs. -/
def mapWithChi (t : CountHuType) : ℕ → ℕ :=
  t.player.pileList.foldl
    (fun map pile =>
      if (oper pile).any fun o => chiType.contains o then
        pile.cardList.foldl (fun map card => addAt map card 1) map
      else map)
    t.fullCountMap

/-- `CountHuType:isShuangLong`. The list of counts has the indices `1` to `9`. -/
def isShuangLong (t : CountHuType) : Bool :=
  let validCount := [2, 2, 2, 0, 2, 0, 2, 2, 2]
  (List.range' 11 9).all fun i => some (t.fullCountMap i) == validCount[i - 1]?

/-- `CountHuType:getTongCount`. -/
def getTongCount (t : CountHuType) : ℕ :=
  let map := t.mapWithChi
  match (List.range' 11 7).find? fun i => 1 < map i && 1 < map (i + 1) && 1 < map (i + 2) with
  | some i => min (map i) (min (map (i + 1)) (map (i + 2)))
  | none => 0

/-- The inner loop of `isSiBuGao` and `isSanBuGao`: the counts from an index on. -/
def fits (map : ℕ → ℕ) : ℕ → List ℕ → Bool
  | _, [] => true
  | i, count :: validCount => count ≤ map i && fits map (i + 1) validCount

/-- `CountHuType:isSiBuGao`. -/
def isSiBuGao (t : CountHuType) : Bool :=
  (List.range' 11 4).any fun i => fits t.mapWithChi i [1, 2, 3, 3, 2, 1]

/-- `CountHuType:isSanBuGao`. -/
def isSanBuGao (t : CountHuType) : Bool :=
  (List.range' 11 5).any fun i => fits t.mapWithChi i [1, 2, 3, 2, 1]

/-- `CountHuType:isQingLong`. -/
def isQingLong (t : CountHuType) : Bool := (List.range' 11 9).all fun i => 1 ≤ t.mapWithChi i

/-- `CountHuType:isLaoShao`. -/
def isLaoShao (t : CountHuType) : Bool :=
  [11, 12, 13, 17, 18, 19].all fun card => !(t.mapWithChi card ≤ 0)

/-- `CountHuType:getAnKeCount`. -/
def getAnKeCount (t : CountHuType) : ℕ :=
  (t.player.pileList.countP fun pile => oper pile == some .ag) +
    (List.range 38).countP fun i => 3 ≤ t.fullCountMap i

/-- `invalidCards` in `isDuan`: the terminals of the suit Tiao, and the honours. -/
def yaoCards : List ℕ := [11, 19, 31, 32, 33, 34, 35, 36, 37]

/-- `CountHuType:isDuan`. The count map has an entry for every index. -/
def isDuan (t : CountHuType) : Bool :=
  (t.player.pileList.all fun pile => pile.cardList.all fun card => !yaoCards.contains card) &&
    (List.range 38).all fun card => !yaoCards.contains card

/-- `CountHuType:isQuanYao`. -/
def isQuanYao (t : CountHuType) : Bool :=
  (t.player.pileList.all fun pile => pile.cardList.all fun card =>
    if (oper pile).any fun o => chiType.contains o then
      !([12, 13, 14, 15, 16, 17, 18].contains card)
    else !([11, 12, 13, 17, 18, 19].contains card)) &&
  ((List.range' 11 9).all fun i => !(0 < t.fullCountMap i && 14 ≤ i && i ≤ 16)) &&
  !(t.fullCountMap 11 < t.fullCountMap 12 || t.fullCountMap 11 < t.fullCountMap 13 ||
    t.fullCountMap 19 < t.fullCountMap 18 || t.fullCountMap 19 < t.fullCountMap 17)

end CountHuType

/-! ### The tiles of a win -/

/-- The tiles of the game: the suit Tiao and the honours. -/
def IsErren (x : ℕ) : Prop := (11 ≤ x ∧ x ≤ 19) ∨ (31 ≤ x ∧ x ≤ 37)

instance decidableIsErren : DecidablePred IsErren := fun _ =>
  inferInstanceAs (Decidable (_ ∧ _ ∨ _ ∧ _))

lemma IsErren.isTile {x : ℕ} (h : IsErren x) : IsTile x := by
  unfold IsErren at h
  exact ⟨by omega, by omega, by omega⟩

/-- The tiles of an exposed pile. `MyPlayer:doChi` puts the two tiles of the hand into it, without
the tile that is claimed: the last one, the middle one or the first one of the run. -/
def pileTiles (pile : MJPile) : List ℕ :=
  match pile.operType, pile.cardList with
  | .lChi, [a, b] => [a, b, b + 1]
  | .mChi, [a, b] => [a, a + 1, b]
  | .rChi, [a, b] => [a - 1, a, b]
  | _, cardList => cardList

namespace CountHuType

open Nanjing.HuTypes (counted transHandCardsToCountMap_false)

/-- The hand and the tile that wins. -/
def hand (t : CountHuType) : Multiset ℕ := t.validHuCard ::ₘ counted t.player

/-- The hand has tiles of the game and flowers, and wins on a tile of the game. -/
structure Dealt (t : CountHuType) : Prop where
  cardList : ∀ x ∈ t.player.cardList, IsErren x ∨ Zi7 < x
  card : IsErren t.validHuCard

lemma Dealt.isErren {t : CountHuType} (h : Dealt t) : ∀ x ∈ t.hand, IsErren x := by
  intro x hx
  rcases Multiset.mem_cons.mp hx with rfl | hx
  · exact h.card
  · rw [counted, Multiset.mem_coe, List.mem_filter, decide_eq_true_eq] at hx
    exact (h.cardList x hx.1).resolve_right (not_lt.mpr hx.2)

lemma fullCountMap_eq (t : CountHuType) {i : ℕ} (hi : i ≤ 37) :
    t.fullCountMap i = t.hand.count i := by
  rw [fullCountMap, addAt, transHandCardsToCountMap_false _ hi, hand, Multiset.count_cons]
  split_ifs <;> rfl

end CountHuType

/-! ### A permutation of the honours -/

/-- The winds. -/
def winds : List ℕ := [31, 32, 33, 34]

/-- The dragons. -/
def dragons : List ℕ := [35, 36, 37]

/-- A permutation of the four winds and of the three dragons; other tiles stay. -/
structure HonourPerm where
  perm : Equiv.Perm ℕ
  winds : ∀ v ∈ winds, perm v ∈ winds
  dragons : ∀ v ∈ dragons, perm v ∈ dragons
  other : ∀ v, v ∉ Erren.winds → v ∉ Erren.dragons → perm v = v

namespace HonourPerm

variable (π : HonourPerm)

lemma not_both {v : ℕ} (hw : v ∈ Erren.winds) (hd : v ∈ Erren.dragons) : False := by
  have hall : ∀ v ∈ Erren.winds, v ∉ Erren.dragons := by decide
  exact hall v hw hd

lemma mem_winds (v : ℕ) : π.perm v ∈ Erren.winds ↔ v ∈ Erren.winds := by
  refine ⟨fun h => ?_, π.winds v⟩
  by_contra hw
  by_cases hd : v ∈ Erren.dragons
  · exact not_both h (π.dragons v hd)
  · exact hw (π.other v hw hd ▸ h)

lemma mem_dragons (v : ℕ) : π.perm v ∈ Erren.dragons ↔ v ∈ Erren.dragons := by
  refine ⟨fun h => ?_, π.dragons v⟩
  by_contra hd
  by_cases hw : v ∈ Erren.winds
  · exact not_both (π.winds v hw) h
  · exact hd (π.other v hw hd ▸ h)

/-- The permutation keeps to the tiles of the count map. -/
lemma le_iff (v : ℕ) : π.perm v ≤ 37 ↔ v ≤ 37 := by
  have hw : ∀ v ∈ Erren.winds, v ≤ 37 := by decide
  have hd : ∀ v ∈ Erren.dragons, v ≤ 37 := by decide
  by_cases h : v ∈ Erren.winds
  · exact iff_of_true (hw _ (π.winds v h)) (hw v h)
  · by_cases h' : v ∈ Erren.dragons
    · exact iff_of_true (hd _ (π.dragons v h')) (hd v h')
    · rw [π.other v h h']

/-- A list of tiles that the permutation keeps is only reordered by it. -/
lemma map_perm {l : List ℕ} (hd : l.Nodup) (h : ∀ v, π.perm v ∈ l ↔ v ∈ l) :
    (l.map π.perm).Perm l := by
  refine (List.perm_ext_iff_of_nodup (hd.map π.perm.injective) hd).mpr fun v => ?_
  rw [List.mem_map]
  constructor
  · rintro ⟨u, hu, rfl⟩
    exact (h u).mpr hu
  · intro hv
    refine ⟨π.perm.symm v, (h _).mp ?_, π.perm.apply_symm_apply v⟩
    rwa [π.perm.apply_symm_apply]

end HonourPerm

namespace CountHuType

/-- A permutation of the honours, applied to a hand and its piles. -/
def swap (π : HonourPerm) (t : CountHuType) : CountHuType :=
  ⟨{ t.player with
      newCard := π.perm t.player.newCard
      cardList := t.player.cardList.map π.perm
      pileList := t.player.pileList.map fun pile =>
        { pile with cardList := pile.cardList.map π.perm } },
    t.huCard.map π.perm⟩

section Swap

variable (π : HonourPerm) (t : CountHuType)

/-- The counts move with the tiles. -/
lemma fullCountMap_swap (i : ℕ) : (t.swap π).fullCountMap (π.perm i) = t.fullCountMap i := by
  have hcard : (t.swap π).validHuCard = π.perm t.validHuCard := by
    unfold validHuCard swap
    cases t.huCard <;> rfl
  have hmap : (t.swap π).player.transHandCardsToCountMap false [] (π.perm i) =
      t.player.transHandCardsToCountMap false [] i := by
    have hle : π.perm i ≤ Zi7 ↔ i ≤ Zi7 := π.le_iff i
    simp only [MJPlayer.transHandCardsToCountMap, Bool.false_and, Bool.false_eq_true, if_false,
      add_zero, List.foldl_nil, hle]
    rw [show (t.swap π).player.cardList = t.player.cardList.map π.perm from rfl,
      List.count_map_of_injective _ _ π.perm.injective]
  simp only [fullCountMap, addAt, hcard, hmap, π.perm.injective.eq_iff]

/-- The triplets and kongs of a list of tiles that the permutation keeps. -/
lemma keCount_swap {l : List ℕ} (hd : l.Nodup) (h : ∀ v, π.perm v ∈ l ↔ v ∈ l) :
    (t.swap π).keCount l = t.keCount l := by
  have hpiles : ((t.swap π).player.pileList.countP fun pile =>
      pile.cardList.head?.any fun v => l.contains v) =
        t.player.pileList.countP fun pile => pile.cardList.head?.any fun v => l.contains v := by
    rw [swap, List.countP_map]
    refine List.countP_congr fun pile _ => ?_
    rw [Function.comp_apply, List.head?_map]
    cases pile.cardList.head? with
    | none => rfl
    | some v => simp [h]
  have hhand : (l.countP fun v => 3 ≤ (t.swap π).fullCountMap v) =
      l.countP fun v => 3 ≤ t.fullCountMap v := by
    rw [← (π.map_perm hd h).countP_eq, List.countP_map]
    simp only [Function.comp_def, fullCountMap_swap]
  rw [keCount, keCount, hpiles, hhand]

/-- The pairs of a list of tiles that the permutation keeps. -/
lemma duiCount_swap {l : List ℕ} (hd : l.Nodup) (h : ∀ v, π.perm v ∈ l ↔ v ∈ l) :
    (t.swap π).duiCount l = t.duiCount l := by
  rw [duiCount, ← (π.map_perm hd h).countP_eq, List.countP_map]
  simp only [Function.comp_def, fullCountMap_swap]
  rfl

lemma fengTypes_swap : (t.swap π).fengTypes = t.fengTypes := by
  have hke : (t.swap π).getFengKeCount = t.getFengKeCount :=
    keCount_swap π t (by decide) π.mem_winds
  have hdui : (t.swap π).getFengDuiCount = t.getFengDuiCount :=
    duiCount_swap π t (by decide) π.mem_winds
  rw [fengTypes, hke, hdui]
  rfl

/-- The tiles over which the source counts the pairs of dragons. -/
def jianDuiCards : List ℕ := [34, 35, 36]

/-- Just one of the tiles is held twice. -/
def OnePair (t : CountHuType) (P : ℕ → Prop) : Prop := ∃! v, P v ∧ t.fullCountMap v = 2

/-- The condition: there are not just two triplets and kongs of dragons, exposed or held; or just
one of the tiles `Zi4`, `Zi5` and `Zi6` is held twice if and only if this is so of the tiles that
take their places. -/
def Alike (π : HonourPerm) (t : CountHuType) : Prop :=
  t.keCount dragons ≠ 2 ∨
    (t.OnePair (fun v => v ∈ jianDuiCards) ↔ t.OnePair fun v => π.perm v ∈ jianDuiCards)

lemma getJianDuiCount_eq_one : t.getJianDuiCount = 1 ↔ t.OnePair fun v => v ∈ jianDuiCards := by
  rw [getJianDuiCount, duiCount, List.countP_eq_length_filter, List.length_eq_one_iff]
  have hd : ([34, 35, 36].filter fun v => t.fullCountMap v == 2).Nodup :=
    List.Nodup.filter _ (by decide)
  have hmem : ∀ v, v ∈ [34, 35, 36].filter (fun v => t.fullCountMap v == 2) ↔
      v ∈ jianDuiCards ∧ t.fullCountMap v = 2 := by
    intro v
    rw [List.mem_filter, beq_iff_eq]
    rfl
  constructor
  · rintro ⟨v, hv⟩
    refine ⟨v, (hmem v).mp (by rw [hv]; exact List.mem_singleton_self v), fun u hu => ?_⟩
    have := (hmem u).mpr hu
    rw [hv] at this
    exact List.mem_singleton.mp this
  · rintro ⟨v, hv, huniq⟩
    refine ⟨v, List.perm_singleton.mp ((List.perm_ext_iff_of_nodup hd
      (List.nodup_singleton v)).mpr fun u => ?_)⟩
    rw [hmem, List.mem_singleton]
    exact ⟨huniq u, fun h => h ▸ hv⟩

lemma onePair_swap : (t.swap π).OnePair (fun v => v ∈ jianDuiCards) ↔
    t.OnePair fun v => π.perm v ∈ jianDuiCards := by
  refine (π.perm.existsUnique_congr fun v => ?_).symm
  rw [fullCountMap_swap]

/-- **Honours that change places**: the wind types stay, and the dragon types stay just when the
condition holds.

**Proof sketch.** All counts but that of the pairs of dragons run over a list of tiles that the
permutation keeps. The pairs of dragons are only read with two triplets and kongs of dragons. -/
theorem honours_alike_iff : (t.swap π).honourTypes = t.honourTypes ↔ Alike π t := by
  have hke : (t.swap π).getJianKeCount = t.getJianKeCount :=
    keCount_swap π t (by decide) π.mem_dragons
  have hjian : (t.swap π).jianTypes = t.jianTypes ↔ Alike π t := by
    rw [Alike, ← onePair_swap, ← getJianDuiCount_eq_one, ← getJianDuiCount_eq_one]
    change _ ↔ t.getJianKeCount ≠ 2 ∨ _
    rw [jianTypes, jianTypes, hke]
    by_cases htwo : t.getJianKeCount = 2
    · rw [htwo]
      by_cases h : t.getJianDuiCount = 1
      · by_cases h' : (t.swap π).getJianDuiCount = 1
        · simp [h, h']
        · simp [h, h']
      · by_cases h' : (t.swap π).getJianDuiCount = 1
        · simp [h, h']
        · simp [h, h']
    · simp [htwo]
  rw [honourTypes, honourTypes, fengTypes_swap, List.append_cancel_left_eq, hjian]

end Swap

/-- The dragons `Zi5` and `Zi7` change places. -/
def swapJian : HonourPerm where
  perm := Equiv.swap 35 37
  winds := by decide
  dragons := by decide
  other := fun v _ hd => Equiv.swap_apply_of_ne_of_ne
    (fun h => hd (h ▸ List.mem_cons_self)) (fun h => hd (h ▸ List.mem_of_getLast? rfl))

/-- Triplets of `Zi5` and `Zi6`, a pair of `Zi7` and two runs. -/
def twoTriplets : CountHuType :=
  ⟨⟨kCardNull, [11, 12, 13, 14, 15, 16, 35, 35, 35, 36, 36, 36, 37], [], .null, []⟩, some 37⟩

/-- The pair of `Zi7` is not counted, the pair of `Zi5` is. -/
theorem twoTriplets_swap : twoTriplets.player.canHu 37 [] = true ∧
    twoTriplets.honourTypes = [.kErJianKe] ∧
    (twoTriplets.swap swapJian).honourTypes = [.kXiaoSanYuan] := by
  decide +kernel

end CountHuType

end Erren
