import JsmjServer.Mahjong.PlayerGrabMgr
import JsmjServer.Lib.Runs
import Mathlib.Algebra.BigOperators.Fin
import Mathlib.Algebra.Order.BigOperators.Group.List
import Mathlib.Tactic.FinCases
import Mathlib.Tactic.Ring

set_option relaxedAutoImplicit false
set_option autoImplicit false

/-!
# The score stacks of a maanshan match

`maanshanmj/game_state/GameEnd.lua` with the accounts of `MAANSHMJPlayer.lua` and
`GameProgress.lua`. A player starts with several stacks of points. The losers of a round pay from
their current stacks as far as these reach, and when one is used up all players go on to the next.

## Main definitions

* `Maanshan.MAANSHMJPlayer` — the stacks of a player, and the one in use.
* `Maanshan.calculateMoney` — what is paid and booked for a round that is won.
* `Maanshan.Match`, `Maanshan.onEntry` — the system of a match over its rounds.

## Main results

* `Maanshan.balanced_of_reaches` — points are only moved, no stack is overdrawn, and the players
  go on to the next stack together, exactly when one is used up.

## Design

The value of a hand, computed by `CountHuType:calculate`, is part of the event; only the award for
winning all that the others have, which depends on the stacks, is computed here. The shares of the
total that are sent to the clients, and the statistics in `tempData`, are left out.
-/

open Finset

namespace Maanshan

open Mahjong

/-! ### The player -/

/-- The accounts of `MAANSHMJPlayer`: the stacks, the extra points, and the stack in use. -/
structure MAANSHMJPlayer where
  baseScores : List ℤ := []
  extraFans : ℤ := 0
  index : ℤ := -1
  subScore : ℤ := 0

namespace MAANSHMJPlayer

/-- `self.baseScores[self.index]`, where the stacks are counted from one. -/
def stack (player : MAANSHMJPlayer) : Option ℤ :=
  if 1 ≤ player.index then player.baseScores[(player.index - 1).toNat]? else none

/-- `MAANSHMJPlayer:updatePlayerScore`. -/
def updatePlayerScore (player : MAANSHMJPlayer) (score : ℤ) : MAANSHMJPlayer :=
  match player.stack with
  | some old =>
    { player with baseScores := player.baseScores.set (player.index - 1).toNat (score + old) }
  | none => player

/-- `MAANSHMJPlayer:updatePlayerExtraFan`. -/
def updatePlayerExtraFan (player : MAANSHMJPlayer) (score : ℤ) : MAANSHMJPlayer :=
  { player with extraFans := score + player.extraFans }

/-- `MAANSHMJPlayer:getPlayerScore`. -/
def getPlayerScore (player : MAANSHMJPlayer) : ℤ := player.stack.getD (-1)

/-- `MAANSHMJPlayer:incBaseCnt`. -/
def incBaseCnt (player : MAANSHMJPlayer) : MAANSHMJPlayer :=
  { player with index := player.index + 1 }

/-- `MAANSHMJPlayer:getTotalScore`. -/
def getTotalScore (player : MAANSHMJPlayer) : ℤ :=
  player.baseScores.foldl (fun score num => num + score) (0 - player.subScore)

/-- `MAANSHMJPlayer:initBaseScores` for a new player. -/
def initBaseScores (num : ℕ) (baseScore : ℤ) : MAANSHMJPlayer where
  baseScores := List.replicate num baseScore
  index := 1
  subScore := num * baseScore

end MAANSHMJPlayer

/-! ### The settlement of a round -/

/-- A winning hand: its seat, and the points and extra points `CountHuType:calculate` gives it. -/
structure Hand where
  pos : Seat
  fan : ℤ
  extraFan : ℤ

/-- The state of a match. -/
structure Match where
  playerList : Seat → MAANSHMJPlayer
  baseZoom : ℤ
  roundScoreList : List (Seat → ℤ) := []
  roundCount : ℕ := 1
  subRoundCount : ℕ := 1
  isVIPRoom : Bool := true
  disbanded : Bool := false

/-- `CountHuType:checkWinAllScore`: no other player has more than the points. -/
def checkWinAllScore (m : Match) (hand : Hand) : Bool :=
  [hand.pos + 1, hand.pos + 2, hand.pos + 3].all fun pos =>
    !decide (hand.fan < (m.playerList pos).getPlayerScore)

/-- The end of `CountHuType:calculate`: the award for winning all that the others have, larger in
the first round on a stack. -/
def calculateHand (m : Match) (hand : Hand) : Hand :=
  if checkWinAllScore m hand then
    if m.subRoundCount = 1 then { hand with extraFan := hand.extraFan + 4 * m.baseZoom }
    else if 1 < m.subRoundCount then { hand with extraFan := hand.extraFan + 2 * m.baseZoom }
    else hand
  else hand

/-- The tables filled by `calculateMoney`, and whether a stack is used up. -/
structure Payments where
  money : Seat → ℤ := fun _ => 0
  extraFans : Seat → ℤ := fun _ => 0
  changeIndex : Bool := false

/-- The body of the inner loop of `calculateMoney`: a loser pays the points, or what is left on the
stack. -/
def payWinner (playerList : Seat → MAANSHMJPlayer) (hand : Hand) (r : Payments) (i : Seat) :
    Payments :=
  if i = hand.pos then r
  else
    let score := (playerList i).getPlayerScore
    let money := Function.update r.money i (if score ≤ hand.fan then 0 - score else 0 - hand.fan)
    let extraFans := Function.update r.extraFans i (0 - hand.extraFan)
    { money := Function.update money hand.pos (money hand.pos - money i)
      extraFans := Function.update extraFans hand.pos (extraFans hand.pos + hand.extraFan)
      changeIndex := r.changeIndex || score ≤ hand.fan }

/-- The body of the outer loop of `GameEnd:calculateMoney`, for one winner. -/
def settleHand (r : Match × Payments) (hand : Hand) : Match × Payments :=
  let pay := seats.foldl (payWinner r.1.playerList hand) { r.2 with changeIndex := false }
  let playerList := fun pos =>
    ((r.1.playerList pos).updatePlayerScore (pay.money pos)).updatePlayerExtraFan (pay.extraFans pos)
  if pay.changeIndex then
    ({ r.1 with playerList := fun pos => (playerList pos).incBaseCnt, subRoundCount := 0 }, pay)
  else ({ r.1 with playerList := playerList }, pay)

/-- `GameEnd:calculateMoney`. -/
def calculateMoney (m : Match) (hands : List Hand) : Match × Payments :=
  hands.foldl settleHand (m, {})

/-- `GameEnd:dealVIPEnd`. -/
def dealVIPEnd (m : Match) (money : Seat → ℤ) : Match :=
  if m.isVIPRoom then { m with roundScoreList := m.roundScoreList ++ [money] } else m

/-- `GameProgress:isVIPOver`. -/
def isVIPOver (m : Match) : Bool := (m.playerList 0).getPlayerScore < 0

/-- `GameEnd:loopTo` with `GameEnd:gotoNextState`. -/
def loopTo (m : Match) : Match :=
  if isVIPOver m then { m with disbanded := true }
  else if m.isVIPRoom then
    { m with roundCount := m.roundCount + 1, subRoundCount := m.subRoundCount + 1 }
  else m

/-- The end of a round: it is drawn, or won with some hands. -/
inductive Round where
  | liuJu
  | won (hands : List Hand)

/-- The match and the money of a round after its settlement. -/
def settle (m : Match) : Round → Match × (Seat → ℤ)
  | .liuJu => (m, fun _ => 0)
  | .won hands =>
    let r := calculateMoney m (hands.map (calculateHand m))
    (r.1, r.2.money)

/-- `GameEnd:onEntry`. A room that is disbanded plays no more rounds. -/
def onEntry (m : Match) (round : Round) : Option Match :=
  if m.disbanded then none
  else
    let r := settle m round
    some (loopTo (dealVIPEnd r.1 r.2))

/-- The match of `GameProgress:ctor`, with as many stacks of fifty points as the room has
rounds. -/
def newMatch (roundCount : ℕ) (baseZoom : ℤ) (isVIPRoom : Bool) : Match where
  playerList := fun _ => MAANSHMJPlayer.initBaseScores roundCount 50
  baseZoom := baseZoom
  isVIPRoom := isVIPRoom

/-! ### The accounts of a player -/

namespace MAANSHMJPlayer

variable {player : MAANSHMJPlayer} {x : ℤ}

lemma getTotalScore_eq (player : MAANSHMJPlayer) :
    player.getTotalScore = player.baseScores.sum - player.subScore := by
  have hfold : ∀ (l : List ℤ) (score : ℤ),
      l.foldl (fun score num => num + score) score = l.sum + score := by
    intro l
    induction l with
    | nil => intro score; simp
    | cons num l ih =>
      intro score
      rw [List.foldl_cons, ih, List.sum_cons]
      ring
  rw [getTotalScore, hfold]
  ring

/-- The stack in use is there when its number is that of a stack. -/
lemma exists_stack (h : 1 ≤ player.index) (hle : player.index ≤ player.baseScores.length) :
    ∃ x, player.stack = some x := by
  have hlt : (player.index - 1).toNat < player.baseScores.length := by omega
  exact ⟨_, by rw [stack, if_pos h, List.getElem?_eq_getElem hlt]⟩

lemma getElem?_of_stack (h : player.stack = some x) :
    player.baseScores[(player.index - 1).toNat]? = some x := by
  unfold stack at h
  split_ifs at h
  exact h

lemma mem_of_stack (h : player.stack = some x) : x ∈ player.baseScores :=
  List.mem_of_getElem? (getElem?_of_stack h)

lemma updatePlayerScore_of_stack (h : player.stack = some x) (score : ℤ) :
    player.updatePlayerScore score = { player with
      baseScores := player.baseScores.set (player.index - 1).toNat (score + x) } := by
  simp only [updatePlayerScore, h]

end MAANSHMJPlayer

/-! ### What a round costs -/

section Payments

variable {playerList : Seat → MAANSHMJPlayer} {hand : Hand}

/-- What a loser pays. -/
def due (playerList : Seat → MAANSHMJPlayer) (hand : Hand) (i : Seat) : ℤ :=
  min (playerList i).getPlayerScore hand.fan

lemma foldl_payWinner (playerList : Seat → MAANSHMJPlayer) (hand : Hand) (l : List Seat)
    (r : Payments) :
    (l.foldl (payWinner playerList hand) r).money = (fun q =>
      if q = hand.pos then
        r.money hand.pos + ((l.filter (· ≠ hand.pos)).map (due playerList hand)).sum
      else if q ∈ l then -due playerList hand q else r.money q) ∧
    (l.foldl (payWinner playerList hand) r).changeIndex =
      (r.changeIndex || l.any fun i => i ≠ hand.pos && (playerList i).getPlayerScore ≤ hand.fan) := by
  induction l generalizing r with
  | nil =>
    refine ⟨?_, by simp⟩
    funext q
    by_cases hq : q = hand.pos <;> simp [hq]
  | cons i l ih =>
    obtain ⟨hmoney, hchange⟩ := ih (payWinner playerList hand r i)
    rw [List.foldl_cons, hmoney, hchange]
    by_cases hi : i = hand.pos
    · refine ⟨?_, by simp [payWinner, hi]⟩
      funext q
      by_cases hq : q = hand.pos
      · simp [payWinner, hi, hq]
      · simp [payWinner, hi, hq]
    · have hdue : (if (playerList i).getPlayerScore ≤ hand.fan then
          0 - (playerList i).getPlayerScore else 0 - hand.fan) = -due playerList hand i := by
        unfold due
        split_ifs with hle
        · rw [min_eq_left hle, zero_sub]
        · rw [min_eq_right (by omega), zero_sub]
      refine ⟨?_, by simp [payWinner, hi, Bool.or_assoc]⟩
      funext q
      simp only [payWinner, hi, if_false, hdue, Function.update_self]
      by_cases hq : q = hand.pos
      · simp only [hq, if_true, Function.update_of_ne (Ne.symm hi)]
        rw [List.filter_cons_of_pos (by simpa using hi), List.map_cons, List.sum_cons]
        ring
      · simp only [hq, if_false, Function.update_of_ne hq, List.mem_cons]
        by_cases hqi : q = i
        · simp [hqi]
        · simp [hqi]

/-- What the winner gets is what the others pay. -/
lemma sum_money (pos : Seat) (f : Seat → ℤ) :
    ∑ q : Seat, (if q = pos then ((seats.filter (· ≠ pos)).map f).sum else -f q) = 0 := by
  have hall : ∀ pos : Seat, seats.filter (· ≠ pos) = [0, 1, 2, 3].filter (· ≠ pos) := by decide
  rw [hall, Fin.sum_univ_four]
  fin_cases pos <;> simp <;> ring

end Payments

/-! ### A round won by one seat -/

/-- The round is drawn, or won by a single seat with points that are not negative, while the stack
in use is one of those at the start. -/
def SingleWin (roundCount : ℕ) (m : Match) : Round → Prop
  | .liuJu => True
  | .won hands => (∀ p, 1 ≤ (m.playerList p).index ∧ (m.playerList p).index ≤ roundCount) ∧
      ∃ hand, hands = [hand] ∧ 0 ≤ hand.fan

/-- The seat loses the round. -/
def Loses : Round → Seat → Prop
  | .liuJu, _ => False
  | .won hands, q => q ∉ hands.map Hand.pos

/-- The accounts of a match: every player has the stacks of the start, none is overdrawn, all use
the stack of the same number, and points are only moved from player to player. -/
structure Accounts (roundCount : ℕ) (m : Match) : Prop where
  length : ∀ p, (m.playerList p).baseScores.length = roundCount
  subScore : ∀ p, (m.playerList p).subScore = roundCount * 50
  nonneg : ∀ p, ∀ x ∈ (m.playerList p).baseScores, 0 ≤ x
  index : ∀ p q, (m.playerList p).index = (m.playerList q).index
  total : ∑ p, (m.playerList p).baseScores.sum = 4 * (roundCount * 50)

section Settle

variable {roundCount : ℕ} {m : Match} {hand : Hand}

@[simp] lemma pos_calculateHand (m : Match) (hand : Hand) :
    (calculateHand m hand).pos = hand.pos := by
  unfold calculateHand
  split_ifs <;> rfl

@[simp] lemma fan_calculateHand (m : Match) (hand : Hand) :
    (calculateHand m hand).fan = hand.fan := by
  unfold calculateHand
  split_ifs <;> rfl

lemma due_calculateHand (m : Match) (hand : Hand) :
    due m.playerList (calculateHand m hand) = due m.playerList hand := by
  funext i
  simp [due]

/-- Some loser has no more on the stack in use than the points of the hand. -/
def UsedUp (m : Match) (hand : Hand) : Prop :=
  ∃ q, q ≠ hand.pos ∧ (m.playerList q).getPlayerScore ≤ hand.fan

instance (m : Match) (hand : Hand) : Decidable (UsedUp m hand) := by
  unfold UsedUp
  infer_instance

/-- The money of a round with one winner. -/
lemma settle_money (m : Match) (hand : Hand) : (settle m (.won [hand])).2 = fun q =>
    if q = hand.pos then ((seats.filter (· ≠ hand.pos)).map (due m.playerList hand)).sum
    else -due m.playerList hand q := by
  have hfold := foldl_payWinner m.playerList (calculateHand m hand) seats {}
  have hmoney : (settle m (.won [hand])).2 =
      (seats.foldl (payWinner m.playerList (calculateHand m hand)) {}).money := by
    simp only [settle, calculateMoney, List.map_cons, List.map_nil, List.foldl_cons, List.foldl_nil,
      settleHand]
    split_ifs <;> rfl
  rw [hmoney, hfold.1, due_calculateHand]
  funext q
  simp [seats]

/-- The accounts of a player after a round with one winner. -/
lemma settle_player {p : Seat} {x : ℤ} (hx : (m.playerList p).stack = some x) (hand : Hand) :
    ((settle m (.won [hand])).1.playerList p).baseScores =
      (m.playerList p).baseScores.set ((m.playerList p).index - 1).toNat
        ((settle m (.won [hand])).2 p + x) ∧
    ((settle m (.won [hand])).1.playerList p).subScore = (m.playerList p).subScore ∧
    ((settle m (.won [hand])).1.playerList p).index =
      if UsedUp m hand then (m.playerList p).index + 1 else (m.playerList p).index := by
  have hfold := foldl_payWinner m.playerList (calculateHand m hand) seats {}
  have hchange : (seats.foldl (payWinner m.playerList (calculateHand m hand)) {}).changeIndex =
      decide (UsedUp m hand) := by
    rw [hfold.2, Bool.eq_iff_iff, decide_eq_true_eq]
    simp [seats, UsedUp]
  simp only [settle, calculateMoney, List.map_cons, List.map_nil, List.foldl_cons, List.foldl_nil,
    settleHand, hchange, decide_eq_true_eq]
  split_ifs
  · refine ⟨?_, ?_, ?_⟩ <;>
      simp [MAANSHMJPlayer.incBaseCnt, MAANSHMJPlayer.updatePlayerExtraFan,
        MAANSHMJPlayer.updatePlayerScore_of_stack hx]
  · refine ⟨?_, ?_, ?_⟩ <;>
      simp [MAANSHMJPlayer.updatePlayerExtraFan, MAANSHMJPlayer.updatePlayerScore_of_stack hx]

/-- The round books its money and goes on to the next, or ends the match; the accounts stay as they
have been settled. -/
lemma onEntry_playerList {round : Round} {m' : Match} (hs : onEntry m round = some m') :
    m'.playerList = (settle m round).1.playerList := by
  unfold onEntry at hs
  split_ifs at hs
  obtain rfl := Option.some.inj hs
  unfold loopTo dealVIPEnd
  split_ifs <;> rfl

/-- The stacks in use of all players. -/
lemma Accounts.exists_stacks (h : Accounts roundCount m)
    (hon : ∀ p, 1 ≤ (m.playerList p).index ∧ (m.playerList p).index ≤ roundCount) :
    ∃ x : Seat → ℤ, ∀ p, (m.playerList p).stack = some (x p) ∧
      (m.playerList p).getPlayerScore = x p ∧ 0 ≤ x p := by
  have hstack : ∀ p, ∃ x, (m.playerList p).stack = some x := by
    intro p
    apply MAANSHMJPlayer.exists_stack (hon p).1
    rw [h.length]
    exact (hon p).2
  choose x hx using hstack
  refine ⟨x, fun p => ⟨hx p, ?_, h.nonneg p _ (MAANSHMJPlayer.mem_of_stack (hx p))⟩⟩
  rw [MAANSHMJPlayer.getPlayerScore, hx p, Option.getD_some]

/-- What is left on a stack in use. -/
lemma nonneg_left {x : Seat → ℤ} (hscore : ∀ p, (m.playerList p).getPlayerScore = x p)
    (hx : ∀ p, 0 ≤ x p) (hfan : 0 ≤ hand.fan) (p : Seat) :
    0 ≤ (settle m (.won [hand])).2 p + x p := by
  have hdue : ∀ q, 0 ≤ due m.playerList hand q ∧ due m.playerList hand q ≤ x q := by
    intro q
    rw [due, hscore]
    exact ⟨le_min (hx q) hfan, min_le_left _ _⟩
  rw [settle_money]
  dsimp only
  split_ifs with hp
  · refine add_nonneg (List.sum_nonneg ?_) (hx p)
    intro y hy
    obtain ⟨q, -, rfl⟩ := List.mem_map.mp hy
    exact (hdue q).1
  · have hle := (hdue p).2
    omega

/-- Moved points stay on the stacks. -/
lemma Accounts.settle_won (h : Accounts roundCount m)
    (hon : ∀ p, 1 ≤ (m.playerList p).index ∧ (m.playerList p).index ≤ roundCount)
    (hfan : 0 ≤ hand.fan) : Accounts roundCount (settle m (.won [hand])).1 := by
  obtain ⟨x, hx⟩ := h.exists_stacks hon
  have hplayer := fun p => settle_player (hx p).1 hand
  refine ⟨?_, ?_, ?_, ?_, ?_⟩
  · intro p
    rw [(hplayer p).1, List.length_set, h.length]
  · intro p
    rw [(hplayer p).2.1, h.subScore]
  · intro p y hy
    rw [(hplayer p).1] at hy
    rcases List.mem_or_eq_of_mem_set hy with hmem | rfl
    · exact h.nonneg p y hmem
    · exact nonneg_left (fun q => (hx q).2.1) (fun q => (hx q).2.2) hfan p
  · intro p q
    rw [(hplayer p).2.2, (hplayer q).2.2, h.index p q]
  · have hsum : ∀ p, ((settle m (.won [hand])).1.playerList p).baseScores.sum =
        (m.playerList p).baseScores.sum + (settle m (.won [hand])).2 p := by
      intro p
      obtain ⟨hlt, hget⟩ :=
        List.getElem?_eq_some_iff.mp (MAANSHMJPlayer.getElem?_of_stack (hx p).1)
      rw [(hplayer p).1, List.sum_set', dif_pos hlt, hget]
      ring
    rw [sum_congr rfl fun p _ => hsum p, sum_add_distrib, h.total, settle_money,
      sum_money hand.pos (due m.playerList hand), add_zero]

/-- A stack is used up exactly when one of the losers has nothing left on it. -/
lemma Accounts.usedUp_iff (h : Accounts roundCount m)
    (hon : ∀ p, 1 ≤ (m.playerList p).index ∧ (m.playerList p).index ≤ roundCount) :
    UsedUp m hand ↔ ∃ q, q ≠ hand.pos ∧ ((settle m (.won [hand])).1.playerList q).baseScores[
      ((m.playerList q).index - 1).toNat]? = some 0 := by
  obtain ⟨x, hx⟩ := h.exists_stacks hon
  have hleft : ∀ q, q ≠ hand.pos → ((m.playerList q).getPlayerScore ≤ hand.fan ↔
      ((settle m (.won [hand])).1.playerList q).baseScores[
        ((m.playerList q).index - 1).toNat]? = some 0) := by
    intro q hq
    obtain ⟨hlt, -⟩ := List.getElem?_eq_some_iff.mp (MAANSHMJPlayer.getElem?_of_stack (hx q).1)
    rw [(settle_player (hx q).1 hand).1, List.getElem?_set_self hlt, Option.some.injEq,
      settle_money, (hx q).2.1]
    simp only [hq, if_false, due, (hx q).2.1]
    omega
  constructor
  · rintro ⟨q, hq, hle⟩
    exact ⟨q, hq, (hleft q hq).mp hle⟩
  · rintro ⟨q, hq, hzero⟩
    exact ⟨q, hq, (hleft q hq).mpr hzero⟩

end Settle

/-! ### The match -/

/-- What is claimed of the accounts of a match. -/
structure Balanced (m : Match) : Prop where
  nonneg : ∀ p, ∀ x ∈ (m.playerList p).baseScores, 0 ≤ x
  index : ∀ p q, (m.playerList p).index = (m.playerList q).index
  total : ∀ p, ∑ q, (m.playerList q).baseScores.sum = 4 * (m.playerList p).subScore
  totalScore : ∑ p, (m.playerList p).getTotalScore = 0

/-- What is claimed of a round: its money sums to zero, and the players go on to the next stack when
a loser has used up the current one, and only then. -/
structure Settled (m : Match) (round : Round) (m' : Match) : Prop where
  money : ∑ p, (settle m round).2 p = 0
  advances : ∀ p, (m'.playerList p).index = (m.playerList p).index + 1 ↔
    ∃ q, Loses round q ∧
      (m'.playerList q).baseScores[((m.playerList q).index - 1).toNat]? = some 0
  stays : ∀ p, (m'.playerList p).index = (m.playerList p).index ∨
    (m'.playerList p).index = (m.playerList p).index + 1

section Match

variable {roundCount : ℕ} {m m' : Match} {round : Round}

lemma Accounts.balanced (h : Accounts roundCount m) : Balanced m := by
  refine ⟨h.nonneg, h.index, fun p => by rw [h.total, h.subScore], ?_⟩
  have hscore : ∀ p, (m.playerList p).getTotalScore =
      (m.playerList p).baseScores.sum - roundCount * 50 := by
    intro p
    rw [MAANSHMJPlayer.getTotalScore_eq, h.subScore]
  rw [sum_congr rfl fun p _ => hscore p, sum_sub_distrib, h.total]
  simp

lemma Accounts.of_playerList (h : Accounts roundCount m) (heq : m'.playerList = m.playerList) :
    Accounts roundCount m' := by
  obtain ⟨hlength, hsub, hnonneg, hindex, htotal⟩ := h
  rw [← heq] at hlength hsub hnonneg hindex htotal
  exact ⟨hlength, hsub, hnonneg, hindex, htotal⟩

/-- One round. -/
lemma Accounts.onEntry (h : Accounts roundCount m) (hok : SingleWin roundCount m round)
    (hs : Maanshan.onEntry m round = some m') :
    Accounts roundCount m' ∧ Settled m round m' := by
  have hplayers := onEntry_playerList hs
  cases round with
  | liuJu =>
    refine ⟨h.of_playerList hplayers, by simp [settle], ?_, ?_⟩
    · intro p
      rw [hplayers]
      simp [settle, Loses]
    · intro p
      rw [hplayers]
      exact .inl rfl
  | won hands =>
    obtain ⟨hon, hand, rfl, hfan⟩ := hok
    obtain ⟨x, hx⟩ := h.exists_stacks hon
    have hindex := fun p => (settle_player (hx p).1 hand).2.2
    refine ⟨(h.settle_won hon hfan).of_playerList hplayers, ?_, ?_, ?_⟩
    · rw [settle_money]
      exact sum_money hand.pos (due m.playerList hand)
    · intro p
      have hlose : ∀ q, Loses (.won [hand]) q ↔ q ≠ hand.pos := by
        intro q
        simp [Loses]
      simp only [hplayers, hlose]
      rw [hindex p, ← h.usedUp_iff hon]
      split_ifs with hused
      · simp [hused]
      · simp [hused]
    · intro p
      rw [hplayers, hindex p]
      split_ifs
      · exact .inr rfl
      · exact .inl rfl

lemma accounts_newMatch (roundCount : ℕ) (baseZoom : ℤ) (isVIPRoom : Bool) :
    Accounts roundCount (newMatch roundCount baseZoom isVIPRoom) where
  length := fun _ => by simp [newMatch, MAANSHMJPlayer.initBaseScores]
  subScore := fun _ => rfl
  nonneg := by
    intro p x hx
    rw [List.eq_of_mem_replicate hx]
    omega
  index := fun _ _ => rfl
  total := by simp [newMatch, MAANSHMJPlayer.initBaseScores]

/-- In every match of any number of rounds, each drawn or won by a single seat on one of the stacks
of the start: no stack is overdrawn, the players use stacks of the same number, and together they
have the points of the start; and the money of the next round sums to zero, and it moves the players
to the next stack exactly when it leaves a loser with nothing on the current one.

**Proof sketch.** A loser pays the smaller of the points and its stack, and the winner gets the sum.
So a stack reaches zero exactly where the points are at least the stack, which is where the code
notes that the players are to go on. -/
theorem balanced_of_reaches {baseZoom : ℤ} {isVIPRoom : Bool}
    (h : Runs.Reaches Maanshan.onEntry (SingleWin roundCount)
      (newMatch roundCount baseZoom isVIPRoom) m) :
    Balanced m ∧ ∀ round m', SingleWin roundCount m round → Maanshan.onEntry m round = some m' →
      Settled m round m' := by
  have hI : Accounts roundCount m := by
    apply h.invariant (I := Accounts roundCount) (accounts_newMatch roundCount baseZoom isVIPRoom)
    intro m round m' hm hok hs
    exact (hm.onEntry hok hs).1
  refine ⟨hI.balanced, ?_⟩
  intro round m' hok hs
  exact (hI.onEntry hok hs).2

end Match

instance (roundCount : ℕ) (m : Match) (round : Round) :
    Decidable (SingleWin roundCount m round) :=
  match round with
  | .liuJu => isTrue trivial
  | .won [] => isFalse (by simp [SingleWin])
  | .won [hand] => decidable_of_iff
      ((∀ p, 1 ≤ (m.playerList p).index ∧ (m.playerList p).index ≤ roundCount) ∧ 0 ≤ hand.fan)
      (by simp [SingleWin])
  | .won (_ :: _ :: _) => isFalse (by simp [SingleWin])

/-- A match on two stacks: a hand worth more than the stacks, a draw, and a hand worth ten. -/
theorem balanced_of_two_stacks : ∃ m, Runs.Reaches onEntry (SingleWin 2) (newMatch 2 1 true) m ∧
    (m.playerList 0).baseScores = [200, 40] ∧ (m.playerList 1).baseScores = [0, 80] ∧
    (m.playerList 0).index = 2 ∧ Balanced m := by
  have hexec : ((Runs.exec onEntry (SingleWin 2) (newMatch 2 1 true)
      [.won [⟨0, 60, 0⟩], .liuJu, .won [⟨1, 10, 0⟩]]).any fun m =>
        (m.playerList 0).baseScores == [200, 40] && (m.playerList 1).baseScores == [0, 80] &&
          (m.playerList 0).index == 2) = true := by
    decide +kernel
  obtain ⟨m, hrun, hm⟩ := (Option.any_eq_true _ _).mp hexec
  simp only [Bool.and_eq_true, beq_iff_eq] at hm
  have hreaches : Runs.Reaches onEntry (SingleWin 2) (newMatch 2 1 true) m :=
    Runs.reaches_of_exec _ .init hrun
  exact ⟨m, hreaches, hm.1.1, hm.1.2, hm.2, (balanced_of_reaches hreaches).1⟩

end Maanshan
