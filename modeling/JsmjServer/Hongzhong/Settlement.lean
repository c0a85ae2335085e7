import JsmjServer.Hongzhong.Conservation
import JsmjServer.Lib.Transfers
import Mathlib.Algebra.Order.BigOperators.Group.Finset

set_option relaxedAutoImplicit false
set_option autoImplicit false

/-!
# The settlement of hongzhong mahjong

`hongzhongmj/CountHuType.lua` and the part of `game_state/GameEnd.lua` that uses it: how many fan a
seat wins or loses at the end of a round, and the money that is paid for them.

## Main definitions

* `Hongzhong.CountHuType.calculate` — the fan of a seat, with the text that explains them.
* `Hongzhong.initCountHuType`, `Hongzhong.calculateMoney` — the settlement of a round.
* `Hongzhong.pays` — who pays whom.

## Main results

* `Hongzhong.fan_eq_net` — the fan of a seat are what the others pay to it less what it pays.
* `Hongzhong.settlement_zero_sum` — fan and money of the four seats sum to zero.

## Design

`ZhaMaFen`, the bonus of the round, is any integer here: the settlement reads it only. The captions
that `GameEnd:calculate` puts beside the texts are left out.
-/

namespace Hongzhong

open Mahjong

/-! ### The fan of a seat -/

/-- `CountHuType` after `setParams`, with `gameProgress.ZhaMaFen`. -/
structure CountHuType where
  pos : Seat
  playerList : Seat → MJPlayer
  fangPaoPos : Option Seat
  isQiangGang : Bool
  isZiMo : Bool
  isHu : Bool
  HuCount : ℤ
  isLiuJu : Bool
  ZhaMaFen : ℤ

/-- What `CountHuType:calculate` computes. -/
structure HuDetails where
  describe : String
  fan : ℤ
  isBaoPai : Bool
  baoPaiPos : Option Seat

/-- The result before anything is counted. -/
def HuDetails.new : HuDetails := ⟨"", 0, false, none⟩

/-- Append a text and add to the fan. -/
def HuDetails.fill (huDetails : HuDetails) (text : String) (fan : ℤ) : HuDetails :=
  { huDetails with describe := huDetails.describe ++ text, fan := huDetails.fan + fan }

namespace CountHuType

/-- The number of piles made by an operation. -/
def pileCount (player : MJPlayer) (operType : Oper) : ℤ :=
  player.pileList.countP fun v => v.operType = operType

/-- The sum of a number over the piles of the seats other than `pos`. -/
def otherCount (c : CountHuType) (operType : Oper) : ℤ :=
  ∑ i, if i = c.pos then 0 else pileCount (c.playerList i) operType

/-- `CountHuType:getMGangCount`: kongs of winds are not counted here. -/
def getMGangCount (c : CountHuType) : ℤ :=
  (c.playerList c.pos).pileList.countP fun v =>
    v.operType = .mg && (v.cardList.headD kCardNull < Zi1 || Zi4 < v.cardList.headD kCardNull)

/-- `CountHuType:getDianGangCount`: the kongs of all seats whose tile came from this one. -/
def getDianGangCount (c : CountHuType) : ℤ :=
  ∑ i, ((c.playerList i).pileList.countP fun v =>
    v.operType = .mg && v.fromPos = some c.pos : ℤ)

/-- `CountHuType:getMXGangCount`. -/
def getMXGangCount (c : CountHuType) : ℤ := pileCount (c.playerList c.pos) .mxg

/-- `CountHuType:getOtherMXGangCount`. -/
def getOtherMXGangCount (c : CountHuType) : ℤ := c.otherCount .mxg

/-- `CountHuType:getAGangCount`. -/
def getAGangCount (c : CountHuType) : ℤ := pileCount (c.playerList c.pos) .ag

/-- `CountHuType:getOtherAGangCount`. -/
def getOtherAGangCount (c : CountHuType) : ℤ := c.otherCount .ag

/-- A win by self-draw. -/
def ziMo (c : CountHuType) (huDetails : HuDetails) : HuDetails :=
  if c.isZiMo then
    if c.isHu then huDetails.fill "自摸6分;" 6 else huDetails.fill "自摸-2分;" (-2)
  else huDetails

/-- A win by robbing a kong. -/
def qiangGang (c : CountHuType) (huDetails : HuDetails) : HuDetails :=
  if c.isQiangGang then
    if c.isHu then huDetails.fill "抢杠6分;" 6
    else if some c.pos = c.fangPaoPos then
      let HuFans := 6 * c.HuCount
      huDetails.fill ("被抢杠-" ++ toString HuFans ++ "分;") (-HuFans)
    else huDetails
  else huDetails

/-- The added kongs of the seat; one that is robbed does not count. -/
def pGangCount (c : CountHuType) : ℤ :=
  if c.isQiangGang ∧ some c.pos = c.fangPaoPos then c.getMXGangCount - 1 else c.getMXGangCount

/-- The added kongs of the others. -/
def mBPGangCount (c : CountHuType) : ℤ :=
  if c.isQiangGang ∧ some c.pos ≠ c.fangPaoPos then c.getOtherMXGangCount - 1
  else c.getOtherMXGangCount

/-- The fan for the kongs of the seat. -/
def mJieGang (c : CountHuType) : ℤ :=
  (if 0 < c.getMGangCount then c.getMGangCount * 6 else 0) +
    (if 0 < c.pGangCount then c.pGangCount * 6 else 0) +
    (if 0 < c.getAGangCount then c.getAGangCount * 9 else 0)

/-- The fan for the kongs of the others. -/
def mDianGang (c : CountHuType) : ℤ :=
  (if 0 < c.getDianGangCount then c.getDianGangCount * 6 else 0) +
    (if 0 < c.getOtherAGangCount then c.getOtherAGangCount * 3 else 0) +
    (if 0 < c.mBPGangCount then c.mBPGangCount * 2 else 0)

/-- The kongs. -/
def gang (c : CountHuType) (huDetails : HuDetails) : HuDetails :=
  let huDetails :=
    if 0 < c.mJieGang then
      huDetails.fill ("接杠" ++ toString c.mJieGang ++ "分;") c.mJieGang
    else huDetails
  if 0 < c.mDianGang then
    huDetails.fill ("点杠-" ++ toString c.mDianGang ++ "分;") (-c.mDianGang)
  else huDetails

/-- `CountHuType:baoPao`. -/
def baoPao (c : CountHuType) (huDetails : HuDetails) : HuDetails :=
  if c.isQiangGang then { huDetails with baoPaiPos := c.fangPaoPos, isBaoPai := true }
  else huDetails

/-- The bonus. -/
def zhaMa (c : CountHuType) (huDetails : HuDetails) : HuDetails :=
  if c.isLiuJu then huDetails
  else if 0 < c.ZhaMaFen then
    if c.isHu then
      huDetails.fill ("扎码" ++ toString (c.ZhaMaFen * 3) ++ "分;") (c.ZhaMaFen * 3)
    else if c.isQiangGang then
      if c.fangPaoPos = some c.pos then
        let zmFans := c.ZhaMaFen * 3 * c.HuCount
        huDetails.fill ("扎码-" ++ toString zmFans ++ "分;") (-zmFans)
      else huDetails
    else huDetails.fill ("扎码-" ++ toString c.ZhaMaFen ++ "分;") (-c.ZhaMaFen)
  else huDetails

/-- `CountHuType:calculate`. -/
def calculate (c : CountHuType) : HuDetails :=
  c.zhaMa (c.baoPao (c.gang (c.qiangGang (c.ziMo .new))))

/-- `CountHuType:getTotalFan`. -/
def getTotalFan (c : CountHuType) : ℤ := c.calculate.fan

end CountHuType

/-- `GameEnd:initCountHuType`. -/
def initCountHuType (s : Table) (args : EndArgs) (ZhaMaFen : ℤ) (i : Seat) : CountHuType where
  pos := i
  playerList := s.playerList
  fangPaoPos := args.fangPaoPos
  isQiangGang := args.isQiangGang
  isZiMo := args.isZiMo
  isHu := i ∈ args.winnerPosList
  HuCount := ∑ q, if q ∈ args.winnerPosList then 1 else 0
  isLiuJu := args.isLiuJu
  ZhaMaFen := ZhaMaFen

/-- `GameEnd:calculateMoney`; the product of two integers needs no rounding. -/
def calculateMoney (s : Table) (args : EndArgs) (ZhaMaFen unitCoin : ℤ) (i : Seat) : ℤ :=
  (initCountHuType s args ZhaMaFen i).getTotalFan * unitCoin

/-! ### Who pays whom -/

section Pays

variable (s : Table) (args : EndArgs) (ZhaMaFen : ℤ)

/-- The added kongs of a seat that have not been robbed. -/
def addedGangs (p : Seat) : ℤ :=
  CountHuType.pileCount (s.playerList p) .mxg -
    if args.isQiangGang ∧ args.fangPaoPos = some p then 1 else 0

/-- The kongs of `p` that `q` pays alone. -/
def mGangFrom (p q : Seat) : ℤ :=
  (s.playerList p).pileList.countP fun v => v.operType = .mg && v.fromPos = some q

/-- The kongs of `p` that every other seat pays. -/
def gangFromOthers (p : Seat) : ℤ :=
  3 * CountHuType.pileCount (s.playerList p) .ag + 2 * addedGangs s args p

/-- A third of what a winner gets: the win and the bonus. -/
def worth : ℤ := 2 + max ZhaMaFen 0

/-- What `q` pays to `p` for a win. -/
def huPays (p q : Seat) : ℤ :=
  if args.isZiMo then
    Transfers.fromOthers (fun p => if p ∈ args.winnerPosList then worth ZhaMaFen else 0) p q
  else
    match args.fangPaoPos with
    | some t => Transfers.fromOne (· ∈ args.winnerPosList) t (3 * worth ZhaMaFen) p q
    | none => 0

/-- What `q` pays to `p` at the end of a round. -/
def pays (p q : Seat) : ℤ :=
  huPays args ZhaMaFen p q +
    (6 * mGangFrom s p q + Transfers.fromOthers (gangFromOthers s args) p q)

end Pays

/-! ### Fan for the win and for the kongs -/

namespace CountHuType

variable {c : CountHuType}

/-- The fan without those for kongs. -/
def huFan (c : CountHuType) : ℤ := (c.zhaMa (c.qiangGang (c.ziMo .new))).fan

@[simp] lemma fan_fill (huDetails : HuDetails) (text : String) (fan : ℤ) :
    (huDetails.fill text fan).fan = huDetails.fan + fan := rfl

lemma pos_part_nonneg (n : ℤ) {k : ℤ} (hk : 0 ≤ k) : 0 ≤ if 0 < n then n * k else 0 := by
  split_ifs with h
  · exact mul_nonneg h.le hk
  · exact le_refl 0

lemma pos_part_eq {n : ℤ} (k : ℤ) (hn : 0 ≤ n) : (if 0 < n then n * k else 0) = n * k := by
  split_ifs with h
  · rfl
  · obtain rfl : n = 0 := by omega
    simp

lemma mJieGang_nonneg (c : CountHuType) : 0 ≤ c.mJieGang :=
  add_nonneg (add_nonneg (pos_part_nonneg _ (by decide)) (pos_part_nonneg _ (by decide)))
    (pos_part_nonneg _ (by decide))

lemma mDianGang_nonneg (c : CountHuType) : 0 ≤ c.mDianGang :=
  add_nonneg (add_nonneg (pos_part_nonneg _ (by decide)) (pos_part_nonneg _ (by decide)))
    (pos_part_nonneg _ (by decide))

lemma fan_gang (c : CountHuType) (huDetails : HuDetails) :
    (c.gang huDetails).fan = huDetails.fan + (c.mJieGang - c.mDianGang) := by
  have hjie := c.mJieGang_nonneg
  have hdian := c.mDianGang_nonneg
  unfold gang
  dsimp only
  split_ifs with h1 h2 h2
  · rw [fan_fill, fan_fill]
    ring
  · rw [fan_fill]
    omega
  · rw [fan_fill]
    omega
  · omega

/-- The bonus does not depend on what was counted before. -/
lemma fan_zhaMa (c : CountHuType) (huDetails : HuDetails) :
    (c.zhaMa huDetails).fan = huDetails.fan + (c.zhaMa .new).fan := by
  unfold zhaMa
  dsimp only
  split_ifs <;> simp [HuDetails.new]

/-- Kongs are counted apart from the win. -/
lemma getTotalFan_eq (c : CountHuType) :
    c.getTotalFan = c.huFan + (c.mJieGang - c.mDianGang) := by
  have hbao : ∀ huDetails, (c.baoPao huDetails).fan = huDetails.fan := by
    intro huDetails
    unfold baoPao
    split_ifs <;> rfl
  unfold getTotalFan calculate huFan
  rw [fan_zhaMa, hbao, fan_gang, c.fan_zhaMa (c.qiangGang _)]
  ring

/-- In a drawn round there is no win to pay. -/
lemma huFan_liuJu (hl : c.isLiuJu = true) (hz : c.isZiMo = false) (hq : c.isQiangGang = false) :
    c.huFan = 0 := by
  simp [huFan, zhaMa, qiangGang, ziMo, hl, hz, hq, HuDetails.new]

/-- The bonus adds to what a self-draw wins or loses. -/
lemma huFan_ziMo (hl : c.isLiuJu = false) (hz : c.isZiMo = true) (hq : c.isQiangGang = false) :
    c.huFan = if c.isHu then 3 * worth c.ZhaMaFen else -worth c.ZhaMaFen := by
  have hstep : (c.qiangGang (c.ziMo .new)).fan = if c.isHu then 6 else -2 := by
    simp only [qiangGang, ziMo, hz, hq, if_true, Bool.false_eq_true, if_false]
    split_ifs <;> rfl
  rw [huFan, fan_zhaMa, hstep]
  simp only [zhaMa, hl, hq, Bool.false_eq_true, if_false, worth]
  split_ifs <;> simp only [fan_fill, HuDetails.new] <;> omega

/-- The seat whose kong is robbed pays for all winners. -/
lemma huFan_qiangGang (hl : c.isLiuJu = false) (hz : c.isZiMo = false)
    (hq : c.isQiangGang = true) :
    c.huFan = if c.isHu then 3 * worth c.ZhaMaFen
      else if c.fangPaoPos = some c.pos then -(3 * worth c.ZhaMaFen * c.HuCount) else 0 := by
  have hstep : (c.qiangGang (c.ziMo .new)).fan =
      if c.isHu then 6 else if c.fangPaoPos = some c.pos then -(6 * c.HuCount) else 0 := by
    simp only [qiangGang, ziMo, hz, hq, if_true, Bool.false_eq_true, if_false, eq_comm]
    split_ifs <;> simp [HuDetails.new]
  rw [huFan, fan_zhaMa, hstep]
  simp only [zhaMa, hl, hq, Bool.false_eq_true, if_false, if_true, worth]
  by_cases hbonus : 0 < c.ZhaMaFen
  · rw [max_eq_left hbonus.le]
    split_ifs <;> simp only [fan_fill, HuDetails.new] <;> ring
  · rw [max_eq_right (not_lt.mp hbonus)]
    split_ifs <;> simp only [HuDetails.new] <;> ring

end CountHuType

/-! ### The fan of a seat are its net payments -/

section Net

variable {s : Table} {a : EndArgs} {Z : ℤ} {W : Multiset ℕ}

/-- Each of the piles was made with a tile of some seat. -/
lemma sum_countP_from (l : List MJPile) (hl : ∀ v ∈ l, v.Formed)
    (hfeng : ∀ v ∈ l, v.cardList.headD kCardNull < Zi1 ∨ Zi4 < v.cardList.headD kCardNull) :
    ∑ q : Seat, (l.countP fun v => v.operType = .mg && v.fromPos = some q : ℤ) =
      l.countP fun v => v.operType = .mg &&
        (v.cardList.headD kCardNull < Zi1 || Zi4 < v.cardList.headD kCardNull) := by
  induction l with
  | nil => simp
  | cons v l ih =>
    have hrest := ih (fun v hv => hl v (List.mem_cons_of_mem _ hv))
      fun v hv => hfeng v (List.mem_cons_of_mem _ hv)
    obtain ⟨t, ht⟩ : ∃ t, v.fromPos = some t := by
      cases hl v List.mem_cons_self with
      | peng b pos => exact ⟨pos, rfl⟩
      | gang b pos ho => exact ⟨pos, rfl⟩
    have hhead : (v.cardList.headD kCardNull < Zi1 || Zi4 < v.cardList.headD kCardNull) = true := by
      simpa using hfeng v List.mem_cons_self
    simp only [List.countP_cons, ht, hhead, Bool.and_true, Option.some.injEq, Nat.cast_add]
    rw [Finset.sum_add_distrib, hrest]
    congr 1
    by_cases hmg : v.operType = .mg
    · simp [hmg]
    · simp [hmg]

/-- What holds of a round that has ended, as far as the kongs are concerned. -/
lemma Ended.kongs (h : Ended W s a) (hW : ∀ c ∈ W, c < Zi1 ∨ Zi4 < c) (p : Seat) :
    ∑ q, mGangFrom s p q = (initCountHuType s a Z p).getMGangCount := by
  apply sum_countP_from _ (h.sound p).formed
  intro v hv
  apply hW
  have hmem : v.cardList.headD kCardNull ∈ v.cardList := by
    cases (h.sound p).formed v hv with
    | peng b pos => simp
    | gang b pos ho => simp
  rw [← h.tiles]
  exact Multiset.mem_add.mpr
    (Or.inl (Table.mem_tiles_of_player (MJPlayer.mem_tiles_of_mem_pile hv hmem)))

lemma pileCount_nonneg (player : MJPlayer) (o : Oper) : 0 ≤ CountHuType.pileCount player o :=
  Int.natCast_nonneg _

/-- The robbed kong is one of the added kongs. -/
lemma Ended.addedGangs_nonneg (h : Ended W s a) (p : Seat) : 0 ≤ addedGangs s a p := by
  unfold addedGangs
  have hnn := pileCount_nonneg (s.playerList p) .mxg
  split_ifs with hrob
  · cases h.outcome with
    | liuJu ha => simp [ha, EndArgs.liuJu] at hrob
    | ziMo t _ _ hq _ _ _ => simp [hq] at hrob
    | qiangGang t pos _ _ _ ht _ _ _ _ hpile =>
      obtain rfl : t = p := Option.some.inj (ht.symm.trans hrob.2)
      obtain ⟨v, hv, hmxg⟩ := hpile
      have hpos : 0 < (s.playerList t).pileList.countP fun v => v.operType = .mxg :=
        List.countP_pos_iff.mpr ⟨v, hv, by simp [hmxg]⟩
      unfold CountHuType.pileCount
      omega
  · omega

/-- When a kong is robbed, some seat pays for it. -/
lemma Ended.exists_fangPaoPos (h : Ended W s a) (hq : a.isQiangGang = true) :
    ∃ t, a.fangPaoPos = some t := by
  cases h.outcome with
  | liuJu ha => simp [ha, EndArgs.liuJu] at hq
  | ziMo t _ _ hq' _ _ _ => simp [hq'] at hq
  | qiangGang t pos _ _ _ ht _ _ _ _ _ => exact ⟨t, ht⟩

lemma pGangCount_eq (p : Seat) : (initCountHuType s a Z p).pGangCount = addedGangs s a p := by
  show (if a.isQiangGang = true ∧ some p = a.fangPaoPos then _ - 1 else _) = _
  unfold addedGangs CountHuType.getMXGangCount
  dsimp only [initCountHuType]
  simp only [eq_comm]
  split_ifs <;> ring

/-- What a seat gets for its kongs. -/
lemma Ended.mJieGang_eq (h : Ended W s a) (p : Seat) :
    (initCountHuType s a Z p).mJieGang = 6 * (initCountHuType s a Z p).getMGangCount +
      3 * gangFromOthers s a p := by
  have hag : (initCountHuType s a Z p).getAGangCount =
    CountHuType.pileCount (s.playerList p) .ag := rfl
  have hmg : 0 ≤ (initCountHuType s a Z p).getMGangCount := Int.natCast_nonneg _
  unfold CountHuType.mJieGang
  rw [CountHuType.pos_part_eq 6 hmg, pGangCount_eq,
    CountHuType.pos_part_eq 6 (h.addedGangs_nonneg p), hag,
    CountHuType.pos_part_eq 9 (pileCount_nonneg _ _)]
  unfold gangFromOthers
  ring

/-- The other seats pay as if the robbed kong were not there. -/
lemma Ended.mBPGangCount_eq (h : Ended W s a) (p : Seat) :
    (initCountHuType s a Z p).mBPGangCount = ∑ q, (if q = p then 0 else addedGangs s a q) := by
  show (if a.isQiangGang = true ∧ some p ≠ a.fangPaoPos then
    ∑ q, (if q = p then 0 else CountHuType.pileCount (s.playerList q) .mxg) - 1
    else ∑ q, (if q = p then 0 else CountHuType.pileCount (s.playerList q) .mxg)) = _
  unfold addedGangs
  simp only [Transfers.sum_ite_eq_zero, Finset.sum_sub_distrib]
  by_cases hq : a.isQiangGang = true
  · obtain ⟨t, ht⟩ := h.exists_fangPaoPos hq
    simp only [hq, ht, true_and, Option.some.injEq, Finset.sum_ite_eq, Finset.mem_univ, if_true]
    by_cases hpt : p = t
    · simp only [hpt, ne_eq, not_true_eq_false, if_false, if_true]
      ring
    · have hne : some p ≠ some t := fun heq => hpt (Option.some.inj heq)
      rw [if_pos hne, if_neg fun heq => hpt heq.symm]
      ring
  · simp [hq]

/-- What a seat pays for the kongs of the others. -/
lemma Ended.mDianGang_eq (h : Ended W s a) (p : Seat) :
    (initCountHuType s a Z p).mDianGang = 6 * (initCountHuType s a Z p).getDianGangCount +
      ∑ q, (if q = p then 0 else gangFromOthers s a q) := by
  have hothers : 0 ≤ ∑ q, (if q = p then 0 else CountHuType.pileCount (s.playerList q) .ag) := by
    refine Finset.sum_nonneg fun q _ => ?_
    split_ifs
    · exact le_refl 0
    · exact pileCount_nonneg _ _
  have hsum : ∑ q, (if q = p then 0 else gangFromOthers s a q) =
      3 * ∑ q, (if q = p then 0 else CountHuType.pileCount (s.playerList q) .ag) +
      2 * ∑ q, (if q = p then 0 else addedGangs s a q) := by
    unfold gangFromOthers
    rw [Finset.mul_sum, Finset.mul_sum, ← Finset.sum_add_distrib]
    refine Finset.sum_congr rfl fun q _ => ?_
    split_ifs <;> ring
  have hnn : 0 ≤ ∑ q, (if q = p then 0 else addedGangs s a q) := by
    refine Finset.sum_nonneg fun q _ => ?_
    split_ifs
    · exact le_refl 0
    · exact h.addedGangs_nonneg q
  have hdian : 0 ≤ (initCountHuType s a Z p).getDianGangCount :=
    Finset.sum_nonneg fun q _ => Int.natCast_nonneg _
  have hag : (initCountHuType s a Z p).getOtherAGangCount =
    ∑ q, (if q = p then 0 else CountHuType.pileCount (s.playerList q) .ag) := rfl
  unfold CountHuType.mDianGang
  rw [h.mBPGangCount_eq, CountHuType.pos_part_eq 2 hnn, hag, CountHuType.pos_part_eq 3 hothers,
    CountHuType.pos_part_eq 6 hdian, hsum]
  ring

/-- Kongs: the discarder pays six, and for the other kongs every other seat pays. -/
lemma Ended.net_gang (h : Ended W s a) (hW : ∀ c ∈ W, c < Zi1 ∨ Zi4 < c) (p : Seat) :
    Transfers.net
        (fun p q => 6 * mGangFrom s p q + Transfers.fromOthers (gangFromOthers s a) p q) p =
      (initCountHuType s a Z p).mJieGang - (initCountHuType s a Z p).mDianGang := by
  have hfrom : Transfers.net (fun p q => 6 * mGangFrom s p q) p =
      6 * (initCountHuType s a Z p).getMGangCount -
        6 * (initCountHuType s a Z p).getDianGangCount := by
    have hdian : ∑ q, mGangFrom s q p = (initCountHuType s a Z p).getDianGangCount := rfl
    rw [Transfers.net, ← Finset.mul_sum, ← Finset.mul_sum, h.kongs hW, hdian]
  have hcard : ((Fintype.card Seat : ℕ) : ℤ) = 4 := rfl
  rw [Transfers.net_add, hfrom, Transfers.net_fromOthers, hcard, h.mJieGang_eq, h.mDianGang_eq]
  ring

/-- The win: by self-draw all others pay the winner, and a robbed seat pays every winner. -/
lemma Ended.net_hu (h : Ended W s a) (p : Seat) :
    Transfers.net (huPays a Z) p = (initCountHuType s a Z p).huFan := by
  cases h.outcome with
  | liuJu ha =>
    subst ha
    rw [CountHuType.huFan_liuJu rfl rfl rfl]
    have hzero : huPays .liuJu Z = fun _ _ => 0 := rfl
    rw [hzero, Transfers.net]
    simp
  | ziMo t hl hz hq ht _ hw =>
    have hpays : huPays a Z =
        Transfers.fromOthers fun p => if p = t then worth Z else 0 := by
      funext p q
      simp [huPays, hz, hw]
    have hhu : ((initCountHuType s a Z p).isHu = true) = (p = t) := by
      simp [initCountHuType, hw]
    have hcard : ((Fintype.card Seat : ℕ) : ℤ) = 4 := rfl
    rw [hpays, Transfers.net_fromOthers, Transfers.sum_ite_eq_zero, hcard,
      CountHuType.huFan_ziMo hl hz hq]
    simp only [hhu, Finset.sum_ite_eq', Finset.mem_univ, if_true]
    show _ = if p = t then 3 * worth Z else -worth Z
    split_ifs <;> ring
  | qiangGang t pos hl hz hq ht _ _ _ hnot _ =>
    have hpays : huPays a Z = Transfers.fromOne (· ∈ a.winnerPosList) t (3 * worth Z) := by
      funext p q
      simp [huPays, hz, ht]
    have hhu : ((initCountHuType s a Z p).isHu = true) = (p ∈ a.winnerPosList) := by
      simp [initCountHuType]
    have hpos : ((initCountHuType s a Z p).fangPaoPos = some (initCountHuType s a Z p).pos) =
        (p = t) := by
      show (a.fangPaoPos = some p) = _
      rw [ht, Option.some.injEq]
      exact propext eq_comm
    rw [hpays, Transfers.net_fromOne, CountHuType.huFan_qiangGang hl hz hq]
    simp only [hhu, hpos]
    show _ = if p ∈ a.winnerPosList then 3 * worth Z
      else if p = t then -(3 * worth Z * ∑ q, if q ∈ a.winnerPosList then 1 else 0) else 0
    by_cases hp : p = t
    · subst hp
      simp [hnot]
    · simp [hp]

/-- The fan of a seat are what the others pay to it less what it pays to them. -/
theorem fan_eq_net (h : Ended W s a) (hW : ∀ c ∈ W, c < Zi1 ∨ Zi4 < c) (Z : ℤ) (p : Seat) :
    (initCountHuType s a Z p).getTotalFan = Transfers.net (pays s a Z) p := by
  have hsplit : pays s a Z = fun p q => huPays a Z p q +
      (6 * mGangFrom s p q + Transfers.fromOthers (gangFromOthers s a) p q) := rfl
  rw [CountHuType.getTotalFan_eq, hsplit, Transfers.net_add, h.net_hu, h.net_gang hW]

/-- **Zero-sum settlement.** However a round has been played and ended (by self-draw, by robbing a
kong with any winners, or drawn), with whatever kongs, for every bonus and every price of a fan, the
fan of the four seats sum to zero, and so do the amounts of money.

**Proof sketch.** The fan of each seat are its net payments in one table of payments
(`fan_eq_net`); there every amount is paid by a seat. That every kong on a discard has a seat that
paid for it, and that the robbed kong is among those counted, are invariants of play
(`Reachable.kept`). -/
theorem settlement_zero_sum (d : Deal) (s : Table) (hs : Reachable d s) (a : EndArgs)
    (ha : s.endArgs = some a) (ZhaMaFen unitCoin : ℤ) :
    ∑ p, (initCountHuType s a ZhaMaFen p).getTotalFan = 0 ∧
      ∑ p, calculateMoney s a ZhaMaFen unitCoin p = 0 := by
  have hended : Ended ↑d.wall s a := by
    cases hs.kept with
    | playing hp => simp [hp.going] at ha
    | ended a' ha' hended =>
      obtain rfl : a' = a := Option.some.inj (ha'.symm.trans ha)
      exact hended
  have hwall : ∀ c ∈ (d.wall : Multiset ℕ), c < Zi1 ∨ Zi4 < c := fun c hc =>
    (wallTiles_valid c (d.perm.mem_iff.mp hc)).2.2
  have hfan : ∑ p, (initCountHuType s a ZhaMaFen p).getTotalFan = 0 := by
    rw [Finset.sum_congr rfl fun p _ => fan_eq_net hended hwall ZhaMaFen p]
    exact Transfers.sum_net _
  refine ⟨hfan, ?_⟩
  unfold calculateMoney
  rw [← Finset.sum_mul, hfan, zero_mul]

/-- The settlement of `robbedKong`, where two seats win on the robbed kong. -/
theorem robbedKong_settled : ∃ s a, Runs.exec (step robbedKong.rule) NoTest (start robbedKong)
      robbedMsgs = some s ∧ s.endArgs = some a ∧
      ((seats.map fun p => (initCountHuType s a 4 p).getTotalFan) = [0, -36, 18, 18]) ∧
      ∑ p, (initCountHuType s a 4 p).getTotalFan = 0 ∧ ∑ p, calculateMoney s a 4 100 p = 0 := by
  have hrun : ((Runs.exec (step robbedKong.rule) NoTest (start robbedKong) robbedMsgs).any
      fun s => s.endArgs.any fun a => decide
        ((seats.map fun p => (initCountHuType s a 4 p).getTotalFan) = [0, -36, 18, 18])) = true := by
    decide +kernel
  obtain ⟨s, hs, hover⟩ := (Option.any_eq_true _ _).mp hrun
  obtain ⟨a, ha, hfan⟩ := (Option.any_eq_true _ _).mp hover
  exact ⟨s, a, hs, ha, of_decide_eq_true hfan,
    settlement_zero_sum robbedKong s (Runs.reaches_of_exec _ .init hs) a ha 4 100⟩

end Net

end Hongzhong
