import JsmjServer.Tongxiang.TXMJPlayer
import JsmjServer.Nanjing.GamePlaying

set_option relaxedAutoImplicit false
set_option autoImplicit false

/-!
# The playing state of tongxiang mahjong

`tongxiangmj/game_state/GamePlaying.lua` with `CountHuType.lua`, the dealing of `GameBegin.lua` and
the choice of the wild tile in `FanDa.lua`. A seat that discards the wild tile is said to let the
flower float (`piao hua`); until it draws again the others are to draw and discard only.

## Main definitions

* `Tongxiang.Game` — the state, the common table with the fields of this game.
* `Tongxiang.calculate` — the value of a winning hand, with the branch that stops.
* `Tongxiang.checkMyOper`, `Tongxiang.checkOtherOper` — the offers.
* `Tongxiang.onClientMsg` — the handler of client messages.
* `Tongxiang.Deal`, `Tongxiang.onEntry`, `Tongxiang.step` — the system of a round.

## Design

The operation history is a field of the players in the source; it is kept beside them here, as the
players are shared with games that do not read it. A handler that stops with a runtime error leaves
the state as it is at that moment, together with the kind of the error. No flowers are configured
in this game (`constHuaList` is empty), so that the loops that exchange them do nothing, and nothing
sets `isAutoHu`. The table of offers is cleared by the same text as in nanjing mahjong. What is only
sent to clients is left out, with the tips for the player: their evaluations are made on copies of
the player with an empty history, change nothing, and never reach the branch that stops.
-/

namespace Tongxiang

open Mahjong
open Nanjing (clearAllCanDoMap clearCanDoMap)

/-! ### The state -/

/-- The entries of `roomRuleMap` that are read: a hand with wild tiles must wait for every tile;
kong points count; payments are capped. -/
structure RoomRuleMap where
  tx_playrule_2p : Bool
  tx_extrarule1_gangf : Bool
  tx_extrarule2_16fd : Bool

/-- The fields of `GameProgress` (from `baiDa` to `opHistoryList`) and of `GamePlaying` that the
games do not share. `roundGangScore` is the entry of `roundGangScoreList` for the round, zeros when
there is none. -/
structure Game extends Table where
  baiDa : ℕ
  m_bBaoZi : Bool
  hengFan : Bool
  piaoHua : Seat → ℕ
  gangPiao : Seat → ℤ
  roundGangScore : Seat → ℤ
  opHistoryList : Seat → List Oper
  xiangGong : Seat → Bool
  canNotChu : Seat → List ℕ
  piaoHuaPos : Option Seat
  lastPlayCard : Seat → Option ℕ

/-- The runtime errors: a missing tile or seat is used, a count map has no entry for a tile, and
`huDetails..describe` joins a table to an undefined name. -/
inductive Fault
  | missing
  | countMap
  | describe
  deriving DecidableEq

/-- The state a handler leaves, having finished or stopped with an error. -/
abbrev Handled := Except (Fault × Game) Game

/-- The state left behind. -/
def Handled.state : Handled → Game
  | .ok s => s
  | .error e => e.2

namespace Game

/-- Replace a player. -/
def setPlayer (s : Game) (pos : Seat) (player : MJPlayer) : Game :=
  { s with toTable := s.toTable.setPlayer pos player }

/-- Replace a river. -/
def setRiver (s : Game) (pos : Seat) (river : List ℕ) : Game :=
  { s with toTable := s.toTable.setRiver pos river }

/-- `table.insert(player.opHistoryList, player.justDoOper)`. -/
def record (s : Game) (pos : Seat) : Game :=
  let history := s.opHistoryList pos ++ [(s.playerList pos).justDoOper]
  { s with opHistoryList := Function.update s.opHistoryList pos history }

/-- `GamePlaying:gotoNextState`. -/
def gotoNextState (s : Game) (args : EndArgs) : Game :=
  { s with toTable := s.toTable.gotoNextState args }

/-- A seat that claims a tile or declares a kong ends the round of draws it has imposed. -/
def resetPiaoHuaPos (s : Game) (pos : Seat) : Game :=
  if s.piaoHuaPos = some pos then { s with piaoHuaPos := none } else s

end Game

/-! ### The value of a hand -/

/-- `CountHuType:isTianHu` and `GamePlaying:isTianHu`. -/
def isTianHu (s : Game) (pos : Seat) : Bool :=
  (seats.all fun p => (s.riverCardList p).isEmpty) && (s.playerList pos).pileList.isEmpty &&
    (s.playerList pos).hasNewCard

/-- The number of tiles in the rivers. -/
def playedCardCount (s : Game) : ℕ := (seats.map fun p => (s.riverCardList p).length).sum

/-- `CountHuType:isDiHu`. -/
def isDiHu (s : Game) (pos : Seat) : Bool :=
  playedCardCount s == 1 && (s.playerList pos).pileList.isEmpty && !(s.playerList pos).hasNewCard

/-- `CountHuType:isDaDiaoChe`. -/
def isDaDiaoChe (player : MJPlayer) : Bool := player.cardList.length == 1

/-- `opHistoryList[len - 1]` when the history is longer than one. -/
def prevOper (s : Game) (pos : Seat) : Option Oper := (s.opHistoryList pos).dropLast.getLast?

/-- `CountHuType:isGangKai` and `GamePlaying:isGangKai`. -/
def isGangKai (s : Game) (pos : Seat) : Bool :=
  ((prevOper s pos).any fun oper => oper ∈ [.mg, .ag, .mxg, .buHua]) &&
    (s.playerList pos).hasNewCard

/-- `CountHuType:isHaiDi`. -/
def isHaiDi (s : Game) (pos : Seat) : Bool := s.mjWall.isEmpty && (s.playerList pos).hasNewCard

/-- The condition of the branch `飘杠` of `CountHuType:calculate`. -/
def isPiaoGang (s : Game) (pos : Seat) : Bool :=
  (s.riverCardList pos).getLast? == some s.baiDa && isGangKai s pos

/-- `CountHuType:calculate`: the field `fan`. The branch `飘杠` stops with an error, as it writes
`huDetails..describe` for `huDetails.describe`. -/
def calculate (s : Game) (pos : Seat) (isZiMo : Bool) : Option ℕ :=
  let player := s.playerList pos
  let baiDaNum := hasBaiDa player s.baiDa
  let last := (s.riverCardList pos).getLast?
  let lastButOne := (s.riverCardList pos).dropLast.getLast?
  -- 胡牌
  let hua :=
    if !isTianHu s pos && !isDiHu s pos then
      if isDaDiaoChe player && baiDaNum == 0 then if isZiMo then 2 else 0 else 2
    else 0
  let hua := if isTianHu s pos then hua + 128 else hua
  let hua := if isDiHu s pos then hua + 128 else hua
  -- 有花出壳
  let hua :=
    if baiDaNum == 1 && last == some s.baiDa && lastButOne != some s.baiDa &&
      checkChuKe player s.baiDa then hua * 2 else hua
  -- 三花
  let hua := if baiDaNum == 3 then hua * 2 else hua
  let hua :=
    if baiDaNum == 1 && checkChuKe player s.baiDa then
      if last == some s.baiDa && lastButOne == some s.baiDa then hua * 8 else hua
    else if baiDaNum == 2 && checkChuKe player s.baiDa then
      if last == some s.baiDa then hua * 4 else hua
    else hua
  -- 无花杠开
  let hua :=
    if isGangKai s pos && baiDaNum == 0 && player.newCard != s.baiDa then hua * 2 else hua
  -- 飘杠
  if isPiaoGang s pos then none
  else
    -- 大吊车
    let hua :=
      if isDaDiaoChe player then
        if baiDaNum != 0 || player.newCard == s.baiDa then hua * 2
        else if isZiMo then hua * 4 else 10
      else hua
    -- 海底捞, 豹子, 横翻
    let hua := if isHaiDi s pos then hua * 2 else hua
    let hua := if s.m_bBaoZi then hua * 2 else hua
    let hua := if s.hengFan then hua * 2 else hua
    -- 杠飘
    some (if 0 < s.gangPiao pos then hua * 2 ^ (s.gangPiao pos).toNat else hua)

/-- The evaluation stops exactly in the branch `飘杠`. -/
lemma calculate_eq_none {s : Game} {pos : Seat} {isZiMo : Bool} :
    calculate s pos isZiMo = none ↔ isPiaoGang s pos = true := by
  by_cases h : isPiaoGang s pos = true <;> simp [calculate, h]

/-! ### Ends of a round -/

/-- `GamePlaying:checkFirstHuPos`: the first seat after `pos` in the list. -/
def checkFirstHuPos (posList : List Seat) (pos : Seat) : List Seat :=
  ([pos + 1, pos + 2, pos + 3, pos].find? (posList.contains ·)).toList

/-- `GamePlaying:doHu`. -/
def doHu (s : Game) (pos : Seat) (byteCard : ℕ) : Game :=
  let posList :=
    if s.bZiMo pos then [pos]
    else if 1 < s.multiHuPos.length then
      match s.playerGrabMgr.pos with
      | some turn => checkFirstHuPos s.multiHuPos turn
      | none => []
    else s.multiHuPos
  s.gotoNextState
    ⟨false, s.bZiMo pos, s.playerGrabMgr.pos, posList, byteCard, s.isQiangGanging, pos, []⟩

/-! ### Offers to the seat whose turn it is -/

/-- A hand with wild tiles that must wait for every tile and does not: the new tile, or a tile of
the hand, is wild, and the tile was not drawn after a kong. -/
def needChuKe (s : Game) (turn : Seat) : Bool :=
  let player := s.playerList turn
  let notGang := (prevOper s turn).any fun oper => oper ∉ [Oper.mg, .ag, .mxg]
  if player.newCard = s.baiDa then player.cardList.length != 1 && notGang
  else 0 < hasBaiDa player s.baiDa && notGang

/-- The flag `bHu` of `checkMyOper` for a complete hand. -/
def selfHu (rule : RoomRuleMap) (s : Game) (turn : Seat) (checkCanGang : Bool) : Bool :=
  -- 碰后可以马上再杠牌
  let bHu := !checkCanGang
  -- 第二飘除了飘的那个人,当圈其余人只可以杠开,不能自摸
  let bHu := bHu && !(s.piaoHuaPos.any fun p => 2 ≤ s.piaoHua p && p != turn && !isGangKai s turn)
  -- 有花只能出壳才能胡
  let bHu := bHu && !(rule.tx_playrule_2p && needChuKe s turn &&
    !checkChuKe (s.playerList turn) s.baiDa)
  isTianHu s turn || bHu

/-- The offers of `checkMyOper`. The possibility to cancel is left out for a complete hand, also
when the win is withheld from a seat that has let the flower float in vain (`xiangGong`). -/
def myOffers (s : Game) (turn : Seat) (bHu : Bool) : List (Oper × List ℕ) :=
  let player := s.playerList turn
  let anGangCardList := player.getAnGangCardListWithDa [s.baiDa]
  let mxGangCardList := player.getMXGangCardList
  let offers :=
    (if bHu && !s.xiangGong turn then [(.hu, [player.newCard])] else []) ++
    (if 0 < anGangCardList.length then [(.ag, anGangCardList)] else []) ++
    (if 0 < mxGangCardList.length then [(.mxg, mxGangCardList)] else [])
  (.play, []) :: if bHu then offers else withCancel offers

/-- The part of `checkMyOper` after the flag `bHu` is known. A seat that has let the flower float
and does not win with its next tile may not win any more. -/
def offerTurn (s : Game) (turn : Seat) (bHu : Bool) : Game :=
  let offers := myOffers s turn bHu
  let s :=
    if s.piaoHuaPos = some turn then
      { s with
        xiangGong := if bHu then s.xiangGong else Function.update s.xiangGong turn true
        piaoHuaPos := none }
    else s
  { s with
    playerGrabMgr := (s.playerGrabMgr.addCanDoItem turn (offers.map Prod.fst)).setPos turn
    playerCanDoMap := Function.update s.playerCanDoMap turn (some (.ofOffers offers)) }

section Handlers

variable (rule : RoomRuleMap)

/-- `GamePlaying:checkMyOper` with `checkOp`, which all callers set. The evaluation of a complete
hand may stop, after the offers of the last turn have been cleared. -/
def checkMyOper (s : Game) (turn : Seat) (checkCanGang : Bool) : Handled :=
  let s := { s with toTable := clearAllCanDoMap s.toTable }
  let player := s.playerList turn
  if player.hasNewCard = false then .ok s
  else
    let s := { s with playerGrabMgr := s.playerGrabMgr.clear }
    let complete := player.canSelfHu [s.baiDa]
    if complete && (calculate s turn false).isNone then .error (.describe, s)
    else
      .ok (offerTurn s turn (complete && selfHu rule s turn checkCanGang))

/-- `GamePlaying:giveNewCard`. -/
def giveNewCard (s : Game) (turn : Seat) : Handled :=
  match takeCard s.toTable turn with
  | none => .ok (s.gotoNextState .liuJu)
  | some (byteCard, table) =>
    let table := { table with
      playerGrabMgr := table.playerGrabMgr.setPos turn
      mjCancelMgr := table.mjCancelMgr.clearPos turn }
    let player := (table.playerList turn).addNewCard byteCard
    checkMyOper rule (({ s with toTable := table }.setPlayer turn player).record turn) turn false

end Handlers

/-! ### Offers to the other seats -/

/-- `GamePlaying:noPileCard`. -/
def noPileCard (s : Game) : Bool := seats.all fun p => (s.playerList p).pileList.isEmpty

/-- The seat may win on the tile: it has passed on no win since it last drew, waits for one tile
without a wild one, or the tile is the first that is played. -/
def otherHu (s : Game) (pos : Seat) (byteCard : ℕ) (bGrabGang : Bool) : Bool :=
  let player := s.playerList pos
  (s.mjCancelMgr.getCancelItem pos .hu).isNone && player.canHu byteCard [s.baiDa] &&
    ( -- 无花大吊才能捉冲
     let bHu := player.cardList.length == 1 && hasBaiDa player s.baiDa == 0
     -- 抢杠的人必须无百搭
     let bHu := bHu && !(bGrabGang && 0 < hasBaiDa player s.baiDa)
     -- 第二飘不能抢杠
     let bHu := bHu && !(bGrabGang && s.piaoHuaPos.any fun p => s.piaoHua p == 2 && p != pos)
     -- 地胡不需要大吊也可以捉冲
     bHu || (playedCardCount s == 1 && noPileCard s))

/-- The claims `checkOtherOper` finds for a seat: kong, peng and, for the next seat, runs only on a
discarded tile. -/
def claims (s : Game) (turn : Seat) (byteCard : ℕ) (bGrabGang : Bool) (pos : Seat) :
    List (Oper × List ℕ) :=
  let player := s.playerList pos
  (if otherHu s pos byteCard bGrabGang then [(.hu, [byteCard])] else []) ++
  (if !bGrabGang && player.canGangWithDa byteCard [s.baiDa] then [(.mg, [byteCard])] else []) ++
  (if !bGrabGang && !s.mjCancelMgr.isCancelOper pos .peng byteCard &&
      player.canPengWithDa byteCard [s.baiDa] then [(.peng, [byteCard])] else []) ++
  (if !bGrabGang && pos == nextPlayerPos turn && s.lastPlayCard pos != some byteCard then
    (player.getCanChiTypeWithDa byteCard [s.baiDa]).map fun chiType => (chiType, [byteCard])
  else [])

/-- The operations that are withdrawn while a flower floats. -/
def isChiPeng (oper : Oper) : Bool := oper ∈ [.lChi, .mChi, .rChi, .peng]

/-- The loop of `checkOtherOper` that deletes peng and runs. It goes through the list by index while
`table.removeItem` moves the rest of the list one place down, and so it skips the entry after each
one it deletes. -/
def delChiPeng : List Oper → List Oper
  | [] => []
  | [oper] => if isChiPeng oper then [] else [oper]
  | oper :: next :: rest =>
    if isChiPeng oper then next :: delChiPeng rest else oper :: delChiPeng (next :: rest)

/-- The operations offered to a seat, with the possibility to cancel, filtered while a flower
floats. -/
def operList (claims : Seat → List (Oper × List ℕ)) (piaoHuaPos : Option Seat) (pos : Seat) :
    List Oper :=
  let operList := (withCancel (claims pos)).map Prod.fst
  if piaoHuaPos.any (· != pos) then delChiPeng operList else operList

/-- The end of the body of the loop of `checkOtherOper`. The table of offered tiles keeps the
operations that have been deleted from the list: the loop over it tests an undefined name. -/
def offerTo (claims : Seat → List (Oper × List ℕ)) (piaoHuaPos : Option Seat) (r : Bool × Table)
    (pos : Seat) : Bool × Table :=
  let operList := operList claims piaoHuaPos pos
  let s :=
    if .hu ∈ (claims pos).map Prod.fst then { r.2 with multiHuPos := r.2.multiHuPos ++ [pos] }
    else r.2
  let s := s.setCanDoMap pos
    { CanDoMap.ofOffers (withCancel (claims pos)) with operList := some operList }
  if 1 < operList.length then
    (true, { s with playerGrabMgr := s.playerGrabMgr.addCanDoItem pos operList })
  else (r.1, s)

/-- The count map of `canHu` has no entry for a tile beyond `Zi7`, and adding to it is an error. -/
def canHuStops (s : Game) (byteCard : ℕ) (pos : Seat) : Bool :=
  (s.mjCancelMgr.getCancelItem pos .hu).isNone && !(s.playerList pos).hasNewCard && Zi7 < byteCard

/-- `GamePlaying:checkOtherOper`: whether some other seat may claim the tile, and the offers. When
it stops, the offers to the seats before are left behind. -/
def checkOtherOper (s : Game) (turn : Seat) (byteCard : ℕ) (bGrabGang : Bool) :
    Except (Fault × Game) (Bool × Game) :=
  let s := { s with toTable :=
    { clearAllCanDoMap s.toTable with
      playerGrabMgr := s.playerGrabMgr.clear.setPos turn
      multiHuPos := [] } }
  let others := [turn + 1, turn + 2, turn + 3]
  let r := (others.takeWhile fun pos => !canHuStops s byteCard pos).foldl
    (offerTo (claims s turn byteCard bGrabGang) s.piaoHuaPos) (false, s.toTable)
  if others.any (canHuStops s byteCard) then .error (.countMap, { s with toTable := r.2 })
  else .ok (r.1, { s with toTable := r.2 })

/-! ### Operations -/

/-- A ready hand with wild tiles is noted (`gangPiao` goes from `-1` to `0`). -/
def noteChuKe (s : Game) (pos : Seat) : Game :=
  if s.gangPiao pos = -1 ∧ checkChuKe (s.playerList pos) s.baiDa = true then
    { s with gangPiao := Function.update s.gangPiao pos 0 }
  else s

/-- A kong of a seat whose ready hand has been noted is counted. -/
def noteGang (s : Game) (pos : Seat) : Game :=
  let s := noteChuKe s pos
  if s.gangPiao pos ≠ -1 then
    { s with gangPiao := Function.update s.gangPiao pos (s.gangPiao pos + 1) }
  else s

/-- The table `tbMoney` of a kong. -/
def tbMoney (pos : Seat) (gain loss : ℤ) : Seat → ℤ := fun i => if i = pos then gain else -loss

/-- `GameProgress:addRoundGangScore`. -/
def addRoundGangScore (s : Game) (scoreMap : Seat → ℤ) : Game :=
  { s with roundGangScore := fun i => s.roundGangScore i + scoreMap i }

/-- The tiles `doChi` forbids to play next: the tile and, when it has room in the suit, the tile at
the other end of the run. -/
def chiCanNotChu (chiType : Oper) (byteCard : ℕ) : List ℕ :=
  match chiType with
  | .lChi =>
    if 3 < byteCard % 10 then [byteCard, byteCard - 3]
    else if byteCard % 10 = 3 then [byteCard] else []
  | .mChi => [byteCard]
  | .rChi =>
    if byteCard % 10 < 7 then [byteCard + 3, byteCard]
    else if byteCard % 10 = 7 then [byteCard] else []
  | _ => []

section Handlers

variable (rule : RoomRuleMap)

/-- `GamePlaying:doPeng`; `none` when the player cannot. -/
def doPeng (s : Game) (pos : Seat) (byteCard : ℕ) (grabedPos : Seat) : Option Handled :=
  let r := (s.playerList pos).doPeng byteCard grabedPos
  if r.1 then
    let s := ((s.setPlayer pos r.2).record pos).resetPiaoHuaPos pos
    let s := s.setRiver grabedPos (MJRiver.popCard (s.riverCardList grabedPos))
    some (checkMyOper rule s pos true)
  else none

/-- `GamePlaying:doGang`; `none` when the player cannot. -/
def doGang (s : Game) (pos : Seat) (byteCard : ℕ) (grabedPos : Seat) : Option Handled :=
  let r := (s.playerList pos).doGang byteCard grabedPos
  if r.1 then
    let s := (noteGang ((s.setPlayer pos r.2).record pos) pos).resetPiaoHuaPos pos
    let s := addRoundGangScore s (tbMoney pos 3 1)
    let s := s.setRiver grabedPos (MJRiver.popCard (s.riverCardList grabedPos))
    some (giveNewCard rule s pos)
  else none

/-- `GamePlaying:doChi`. -/
def doChi (s : Game) (pos : Seat) (chiType : Oper) (byteCard : ℕ) (grabedPos : Seat) : Handled :=
  let r := (s.playerList pos).doChi byteCard chiType grabedPos
  if r.1 then
    let s := (s.setPlayer pos r.2).record pos
    let canNotChu := s.canNotChu pos ++ chiCanNotChu chiType byteCard
    let s := { s with canNotChu := Function.update s.canNotChu pos canNotChu }
    let s := s.resetPiaoHuaPos pos
    let s := s.setRiver grabedPos (MJRiver.popCard (s.riverCardList grabedPos))
    checkMyOper rule s pos true
  else .ok s

/-- `GamePlaying:doMXGang`. Only the first added kong of a player may be robbed. -/
def doMXGang (s : Game) (pos : Seat) (byteCard : ℕ) : Handled :=
  let r := (s.playerList pos).doMXGang byteCard
  if r.1 then
    let s := (noteGang ((s.setPlayer pos r.2).record pos) pos).resetPiaoHuaPos pos
    let s := addRoundGangScore s (tbMoney pos 3 1)
    if getMXGNum (s.playerList pos) = 1 then
      match checkOtherOper s pos byteCard true with
      | .error e => .error e
      | .ok (true, s) => .ok { s with isQiangGanging := true, qiangGangInfo := some pos }
      | .ok (false, s) => giveNewCard rule s pos
    else giveNewCard rule s pos
  else .ok s

/-- `GamePlaying:doAnGang`. -/
def doAnGang (s : Game) (pos : Seat) (byteCard : ℕ) (grabedPos : Seat) : Handled :=
  let r := (s.playerList pos).doAnGang byteCard grabedPos
  if r.1 then
    let s := (noteGang ((s.setPlayer pos r.2).record pos) pos).resetPiaoHuaPos pos
    giveNewCard rule (addRoundGangScore s (tbMoney pos 6 2)) pos
  else .ok s

/-- The wild tile is discarded: the flower floats, unless one does already. -/
def piaoHua (s : Game) (pos : Seat) (byteCard : ℕ) : Game :=
  if byteCard = s.baiDa ∧ s.piaoHuaPos = none then
    { s with piaoHua := Function.update s.piaoHua pos (s.piaoHua pos + 1), piaoHuaPos := some pos }
  else s

/-- The part of `onPlayCard` from the tile having left the player to the offers. -/
def discard (s : Game) (pos : Seat) (byteCard : ℕ) (player : MJPlayer) : Game :=
  let s := (s.setPlayer pos player).record pos
  let s := { s with
    lastPlayCard := Function.update s.lastPlayCard pos (some byteCard)
    canNotChu := Function.update s.canNotChu pos [] }
  let s := noteChuKe s pos
  let s :=
    if byteCard = s.baiDa ∧ 0 < s.gangPiao pos then
      { s with gangPiao := Function.update s.gangPiao pos (s.gangPiao pos + 1) }
    else s
  let s := { s with
    playerGrabMgr := (s.playerGrabMgr.playerDoGrab pos .play (some byteCard)).2 }
  let s := { s with toTable := clearCanDoMap s.toTable pos }
  piaoHua (s.setRiver pos (MJRiver.pushCard (s.riverCardList pos) byteCard)) pos byteCard

/-- `GamePlaying:onPlayCard`. Its first log line stops with an error when there is no tile; the
tiles in `canNotChu` are not looked at. -/
def onPlayCard (s : Game) (pos : Seat) (card : Option ℕ) : Handled :=
  match card with
  | none => .error (.missing, s)
  | some byteCard =>
    if !s.playerGrabMgr.hasOper pos .play then .ok s
    else
      let r := (s.playerList pos).doPlayCard byteCard
      if !r.1 then .ok s
      else
        match checkOtherOper (discard s pos byteCard r.2) pos byteCard false with
        | .error e => .error e
        | .ok (true, s) => .ok s
        | .ok (false, s) => giveNewCard rule s (nextPlayerPos pos)

/-- The branch of `grabEnd` for a choice to cancel. -/
def cancelEnd (s : Game) (pos grabedPos : Seat) : Handled :=
  if s.isQiangGanging then
    match s.qiangGangInfo with
    | none => .error (.missing, s)
    | some tPos => giveNewCard rule { s with isQiangGanging := false, qiangGangInfo := none } tPos
  else
    match s.playerCanDoMap pos with
    | none => .error (.missing, s)
    | some map =>
      if .play ∈ map.operList.getD [] then .ok s
      else giveNewCard rule s (nextPlayerPos grabedPos)

/-- `GamePlaying:grabEnd`: the prevailing choice is carried out. -/
def grabEnd (s : Game) : Handled :=
  match s.playerGrabMgr.pos with
  | none => .error (.missing, s)
  | some grabedPos =>
    match s.playerGrabMgr.getPowestNode with
    | none => giveNewCard rule s (nextPlayerPos grabedPos)
    | some node =>
      match node.operList.head?, node.byteCard with
      | some .cancel, _ => cancelEnd rule s node.pos grabedPos
      | _, none => .error (.missing, s)
      | some .hu, some byteCard => .ok (doHu s node.pos byteCard)
      | some .peng, some byteCard =>
        (doPeng rule s node.pos byteCard grabedPos).getD
          (giveNewCard rule s (nextPlayerPos grabedPos))
      | some .ag, some byteCard => doAnGang rule s node.pos byteCard grabedPos
      | some .mg, some byteCard =>
        (doGang rule s node.pos byteCard grabedPos).getD
          (giveNewCard rule s (nextPlayerPos grabedPos))
      | some .mxg, some byteCard => doMXGang rule s node.pos byteCard
      | some .lChi, some byteCard => doChi rule s node.pos .lChi byteCard grabedPos
      | some .mChi, some byteCard => doChi rule s node.pos .mChi byteCard grabedPos
      | some .rChi, some byteCard => doChi rule s node.pos .rChi byteCard grabedPos
      | some .play, some byteCard => onPlayCard rule s node.pos (some byteCard)
      | _, _ => .ok s

/-- The end of `onGrabCard`. `GamePlaying:needWait` is true when the choices can be decided, and
always for a declared win. -/
def decideOrWait (s : Game) (oper : Oper) : Handled :=
  match s.playerGrabMgr.needWait with
  | none => .error (.missing, s)
  | some wait => if !wait || oper = .hu then grabEnd rule s else .ok s

/-- `GamePlaying:onGrabCard`. The log line for a tile that is not offered stops with an error when
there is no tile. -/
def onGrabCard (s : Game) (pos : Seat) (oper : Oper) (card : Option ℕ) : Handled :=
  if !s.playerGrabMgr.hasOper pos oper then .ok s
  else
    match s.playerCanDoMap pos with
    | none => .ok s
    | some canDoMap =>
      match canDoMap.cards oper with
      | none => .ok s
      | some cardList =>
        if oper = .cancel then
          let s := { s with toTable := clearCanDoMap { s.toTable with
            playerGrabMgr := (s.playerGrabMgr.playerDoGrab pos oper (some 1)).2 } pos }
          let s :=
            if (s.playerList pos).hasNewCard then s
            else { s with mjCancelMgr := addCancelOpers s.mjCancelMgr pos canDoMap }
          decideOrWait rule s oper
        else
          match card with
          | none => .error (.missing, s)
          | some byteCard =>
            if byteCard ∈ cardList then
              decideOrWait rule { s with toTable := clearCanDoMap { s.toTable with
                playerGrabMgr := (s.playerGrabMgr.playerDoGrab pos oper (some byteCard)).2 } pos }
                oper
            else .ok s

/-- `GamePlaying:onClientMsg`. A code that names no operation is refused by `hasOper`. -/
def onClientMsg (s : Game) (pos : Seat) (pkg : ClientMsg) : Handled :=
  let card := fromOld2NowCardByteMap pkg.card_bytes
  match Oper.ofCode pkg.operation with
  | some .play => onPlayCard rule s pos card
  | some .syncData => .ok s
  | some .testNeedCard =>
    .ok { s with testPlayerNeedCard := Function.update s.testPlayerNeedCard pos card }
  | some oper => onGrabCard rule s pos oper card
  | none => .ok s

end Handlers

/-! ### The system -/

/-- The tiles of the wall, from `wallConfig`: four of each suit tile and honour. -/
def wallTiles : List ℕ :=
  (List.range' 1 9 ++ List.range' 11 9 ++ List.range' 21 9 ++ List.range' Zi1 7).flatMap
    (List.replicate 4)

/-- A round about to be played: the shuffled wall, the banker, whether the dice double the payments,
the wild tile that `FanDa:getDa` has found among the obtainable tiles, and the state the last round
left, where tiles may have been asked for by the debug operation. -/
structure Deal where
  wall : List ℕ
  perm : wall.Perm wallTiles
  banker : Seat
  m_bBaoZi : Bool
  baiDa : ℕ
  fanDa : baiDa ∈ (dealHandCards wall banker).2
  last : Game
  asked : ∀ pos byteCard, last.testPlayerNeedCard pos = some byteCard →
    ∃ b, fromOld2NowCardByteMap b = some byteCard

/-- The state before the first round. -/
def newGame : Game where
  toTable := newTable
  baiDa := kCardNull
  m_bBaoZi := false
  hengFan := false
  piaoHua := fun _ => 0
  gangPiao := fun _ => -1
  roundGangScore := fun _ => 0
  opHistoryList := fun _ => []
  xiangGong := fun _ => false
  canNotChu := fun _ => []
  piaoHuaPos := none
  lastPlayCard := fun _ => none

lemma newGame_asked (pos : Seat) (byteCard : ℕ)
    (h : newGame.testPlayerNeedCard pos = some byteCard) :
    ∃ b, fromOld2NowCardByteMap b = some byteCard :=
  newTable_asked pos byteCard h

/-- The table after the deal, when `FanDa` has taken the wild tile from the wall. -/
def dealt (d : Deal) : Game where
  mjWall := (dealHandCards d.wall d.banker).2.erase d.baiDa
  playerList := (dealHandCards d.wall d.banker).1
  riverCardList := fun _ => []
  playerGrabMgr := d.last.playerGrabMgr.clear
  mjCancelMgr := d.last.mjCancelMgr.clear
  playerCanDoMap := fun _ => none
  testPlayerNeedCard := d.last.testPlayerNeedCard
  isQiangGanging := false
  qiangGangInfo := d.last.qiangGangInfo
  multiHuPos := []
  timers := []
  endArgs := none
  baiDa := d.baiDa
  m_bBaoZi := d.m_bBaoZi
  hengFan := d.last.hengFan
  piaoHua := fun _ => 0
  gangPiao := fun _ => -1
  roundGangScore := d.last.roundGangScore
  opHistoryList := fun _ => []
  xiangGong := fun _ => false
  canNotChu := fun _ => []
  piaoHuaPos := none
  lastPlayCard := fun _ => none

/-- `GamePlaying:onEntry`. -/
def onEntry (rule : RoomRuleMap) (d : Deal) : Handled := checkMyOper rule (dealt d) d.banker false

/-- A message of a seat. After an error the round goes on from the state left behind; once it is
over, messages no longer come here. -/
def step (rule : RoomRuleMap) (s : Game) (e : Seat × ClientMsg) : Option Game :=
  if s.endArgs.isSome then none else some (onClientMsg rule s e.1 e.2).state

end Tongxiang
