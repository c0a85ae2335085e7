import JsmjServer.Mahjong.Table
import JsmjServer.Lib.Runs

set_option relaxedAutoImplicit false
set_option autoImplicit false

/-!
# The playing state of hongzhong mahjong

`hongzhongmj/game_state/GamePlaying.lua`, with the dealing of `GameBegin.lua`: offers, claims on a
discarded tile or on an added kong, and the client messages that drive them.

## Main definitions

* `Hongzhong.checkMyOper`, `Hongzhong.checkOtherOper` — the offers to the seat whose turn it is and
  to the other seats.
* `Hongzhong.onClientMsg` — the handler of client messages, through `onPlayCard` and `onGrabCard`.
* `Hongzhong.Deal`, `Hongzhong.start`, `Hongzhong.step` — the system of a round.

## Design

What is only sent to clients is left out, with the tips for the player (`getCanTingCards`), the
choice of the next banker and the timers, which this game no longer sets. The flag `isAutoHu` of
`CountHuType` is never set in this game, so that its branches are left out; so is `doChi`, as no
chi is offered. The wild tile is `Zi5` in every round. The flower list is empty in this game.
-/

namespace Hongzhong

open Mahjong

/-- The entries of `roomRuleMap` that the game reads. -/
structure RoomRuleMap where
  hz_playrule_7dui : Bool
  hz_playrule_1m : Bool
  hz_playrule_z2m : Bool
  hz_playrule_z4m : Bool
  hz_playrule_z6m : Bool

/-- `gameProgress.baiDa`, set by `FanDa:getDa`. -/
def baiDa : ℕ := Zi5

/-- `gameProgress.huaList`, the tiles that count as flowers. -/
def huaList : List ℕ := []

/-- `HZMJPlayer:hasBaiDa`: the number of wild tiles; without an argument nothing is counted. -/
def hasBaiDa (player : MJPlayer) (baiDa : Option ℕ) : ℕ :=
  (player.cardList ++ if player.hasNewCard then [player.newCard] else []).countP
    fun card => some card = baiDa

/-- With the wild tile as argument, its copies among the tiles held are counted. -/
lemma hasBaiDa_eq_count (player : MJPlayer) (w : ℕ) :
    hasBaiDa player (some w) =
      (player.cardList ++ if player.hasNewCard then [player.newCard] else []).count w := by
  rw [hasBaiDa, List.count]
  refine List.countP_congr fun x _ => ?_
  simp

section Offers

variable (rule : RoomRuleMap)

/-- The operations other than playing a tile that a seat with a new tile may do. -/
def selfOffers (player : MJPlayer) : List (Oper × List ℕ) :=
  let handCount := player.cardList.length
  let baidaCount := hasBaiDa player none
  let anGangCardList := player.getAnGangCardListWithDa [baiDa]
  let mxGangCardList := player.getMXGangCardList
  (if player.canSelfHu [baiDa] || player.getCardCountInHand Zi5 true == 4 ||
      (rule.hz_playrule_7dui && player.canSelfHuQiDui [baiDa]) then
    [(.hu, [player.newCard])] else []) ++
  (if baidaCount + 4 < handCount ∧ 0 < anGangCardList.length then
    [(.ag, anGangCardList)] else []) ++
  (if 0 < mxGangCardList.length then [(.mxg, mxGangCardList)] else [])

/-- The offers of `checkMyOper`: to play a tile and, when operations are checked, the others with
the possibility to cancel. -/
def myOffers (player : MJPlayer) (checkOp : Bool) : List (Oper × List ℕ) :=
  (.play, []) :: withCancel (if checkOp then selfOffers rule player else [])

/-- `GamePlaying:checkMyOper`. -/
def checkMyOper (s : Table) (turn : Seat) (checkOp : Bool) : Table :=
  let player := s.playerList turn
  if player.hasNewCard = false then s
  else
    let offers := myOffers rule player checkOp
    let grab := (s.playerGrabMgr.clear.addCanDoItem turn (offers.map Prod.fst)).setPos turn
    { s with playerGrabMgr := grab }.setCanDoMap turn (.ofOffers offers)

/-- The claims `checkOtherOper` allows one seat: to win only on an added kong, kong and peng only
on a discarded tile. -/
def claims (s : Table) (pos : Seat) (byteCard : ℕ) (bGrabGang : Bool) : List (Oper × List ℕ) :=
  let player := s.playerList pos
  let handCount := player.cardList.length
  let baidaCount := hasBaiDa player none
  (if bGrabGang && player.canHu byteCard [baiDa] then [(.hu, [byteCard])] else []) ++
  (if !bGrabGang && player.canGang byteCard && baidaCount + 3 < handCount then
    [(.mg, [byteCard])] else []) ++
  (if !bGrabGang && !s.mjCancelMgr.isCancelOper pos .peng byteCard && player.canPeng byteCard &&
      baidaCount + 2 < handCount then
    [(.peng, [byteCard])] else [])

/-- The count map of `canHu` has no entry for a tile beyond `Zi7`, and adding to it is an error. -/
def canHuStops (s : Table) (byteCard : ℕ) (bGrabGang : Bool) (pos : Seat) : Bool :=
  bGrabGang && !(s.playerList pos).hasNewCard && Zi7 < byteCard

/-- `GamePlaying:checkOtherOper`: whether some other seat may claim the tile, and the offers. -/
def checkOtherOper (s : Table) (turn : Seat) (byteCard : ℕ) (bGrabGang : Bool) :
    Except Table (Bool × Table) :=
  let s := { s with playerGrabMgr := s.playerGrabMgr.clear.setPos turn, multiHuPos := [] }
  s.offerUntil turn (canHuStops s byteCard bGrabGang) fun pos => claims s pos byteCard bGrabGang

end Offers

section Moves

variable (rule : RoomRuleMap)

/-- The number of tiles drawn for the bonus, in `GameProgress:getNeedCardsAndBroadcast`. -/
def needCardNum : ℕ :=
  if rule.hz_playrule_1m then 1
  else if rule.hz_playrule_z2m then 2
  else if rule.hz_playrule_z4m then 4
  else if rule.hz_playrule_z6m then 6
  else 0

/-- `GamePlaying:doHu`. -/
def doHu (s : Table) (pos : Seat) (byteCard : ℕ) : Table :=
  let posList := if s.bZiMo pos then [pos] else s.multiHuPos
  let cards := s.mjWall.take (needCardNum rule)
  { s with mjWall := s.mjWall.drop (needCardNum rule) }.gotoNextState
    ⟨false, s.bZiMo pos, s.playerGrabMgr.pos, posList, byteCard, s.isQiangGanging, pos, cards⟩

/-- The loop of `giveNewCard` that puts flowers aside and draws again; `false` when the wall is
empty. -/
def redraw (player : MJPlayer) : List ℕ → Bool × MJPlayer × List ℕ
  | [] =>
    if player.hasHua huaList then
      let hua := player.getHua huaList
      (false, ((player.addHua hua).delNewCard hua).2, [])
    else (true, player, [])
  | byteCard :: wall =>
    if player.hasHua huaList then
      let hua := player.getHua huaList
      redraw (((player.addHua hua).delNewCard hua).2.addNewCard byteCard) wall
    else (true, player, byteCard :: wall)

/-- `GamePlaying:giveNewCard`. -/
def giveNewCard (s : Table) (turn : Seat) : Table :=
  match takeCard s turn with
  | none => s.gotoNextState .liuJu
  | some (byteCard, s) =>
    let s := { s with
      playerGrabMgr := s.playerGrabMgr.setPos turn
      mjCancelMgr := s.mjCancelMgr.clearPos turn }
    let r := redraw ((s.playerList turn).addNewCard byteCard) s.mjWall
    let s := { s with mjWall := r.2.2 }.setPlayer turn r.2.1
    if r.1 then checkMyOper rule s turn true else s.gotoNextState .liuJu

/-- `GamePlaying:doPeng`. -/
def doPeng (s : Table) (pos : Seat) (byteCard : ℕ) (grabedPos : Seat) : Bool × Table :=
  let r := (s.playerList pos).doPeng byteCard grabedPos
  if r.1 then
    let s := s.setPlayer pos r.2
    let s := s.setRiver grabedPos (MJRiver.popCard (s.riverCardList grabedPos))
    (true, checkMyOper rule s pos false)
  else (false, s)

/-- `GamePlaying:doGang`. -/
def doGang (s : Table) (pos : Seat) (byteCard : ℕ) (grabedPos : Seat) : Bool × Table :=
  let r := (s.playerList pos).doGang byteCard grabedPos
  if r.1 then
    let s := s.setPlayer pos r.2
    let s := s.setRiver grabedPos (MJRiver.popCard (s.riverCardList grabedPos))
    (true, giveNewCard rule s pos)
  else (false, s)

/-- `GamePlaying:doMXGang`. -/
def doMXGang (s : Table) (pos : Seat) (byteCard : ℕ) : Handled :=
  let r := (s.playerList pos).doMXGang byteCard
  if r.1 then
    (checkOtherOper (s.setPlayer pos r.2) pos byteCard true).map fun c =>
      if c.1 then { c.2 with isQiangGanging := true, qiangGangInfo := some pos }
      else giveNewCard rule c.2 pos
  else .ok s

/-- `GamePlaying:doAnGang`. -/
def doAnGang (s : Table) (pos : Seat) (byteCard : ℕ) (grabedPos : Seat) : Table :=
  let r := (s.playerList pos).doAnGang byteCard grabedPos
  if r.1 then giveNewCard rule (s.setPlayer pos r.2) pos else s

/-- `GamePlaying:onPlayCard`. Its first log line stops with an error when there is no tile; a tile
the player does not have is answered by sending the state again. -/
def onPlayCard (s : Table) (pos : Seat) (card : Option ℕ) : Handled :=
  match card with
  | none => .error s
  | some byteCard =>
    if !s.playerGrabMgr.hasOper pos .play then .ok s
    else
      let r := (s.playerList pos).doPlayCard byteCard
      if !r.1 then .ok s
      else
        let s := s.setPlayer pos r.2
        let s := { s with
          playerGrabMgr := (s.playerGrabMgr.playerDoGrab pos .play (some byteCard)).2 }
        let s := s.setCanDoMap pos .empty
        let s := s.setRiver pos (MJRiver.pushCard (s.riverCardList pos) byteCard)
        (checkOtherOper s pos byteCard false).map fun c =>
          if !c.1 then giveNewCard rule c.2 (nextPlayerPos pos) else c.2

/-- The branch of `grabEnd` for a choice to cancel. -/
def cancelEnd (s : Table) (pos grabedPos : Seat) : Handled :=
  if s.isQiangGanging then
    match s.qiangGangInfo with
    | none => .error s
    | some tPos =>
      .ok (giveNewCard rule { s with isQiangGanging := false, qiangGangInfo := none } tPos)
  else
    match s.playerCanDoMap pos with
    | none => .error s
    | some map =>
      if .play ∈ map.operList.getD [] then .ok s
      else .ok (giveNewCard rule s (nextPlayerPos grabedPos))

/-- `GamePlaying:grabEnd`: the prevailing choice is carried out. The position and the tile of a
choice are always there; without them the handler would stop. -/
def grabEnd (s : Table) : Handled :=
  match s.playerGrabMgr.pos with
  | none => .error s
  | some grabedPos =>
    match s.playerGrabMgr.getPowestNode with
    | none => .ok (giveNewCard rule s (nextPlayerPos grabedPos))
    | some node =>
      match node.operList.head?, node.byteCard with
      | some .cancel, _ => cancelEnd rule s node.pos grabedPos
      | _, none => .error s
      | some .hu, some byteCard => .ok (doHu rule s node.pos byteCard)
      | some .peng, some byteCard =>
        let r := doPeng rule s node.pos byteCard grabedPos
        if r.1 then .ok r.2 else .ok (giveNewCard rule r.2 (nextPlayerPos grabedPos))
      | some .ag, some byteCard => .ok (doAnGang rule s node.pos byteCard grabedPos)
      | some .mg, some byteCard =>
        let r := doGang rule s node.pos byteCard grabedPos
        if r.1 then .ok r.2 else .ok (giveNewCard rule r.2 (nextPlayerPos grabedPos))
      | some .mxg, some byteCard => doMXGang rule s node.pos byteCard
      | some .play, some byteCard => onPlayCard rule s node.pos (some byteCard)
      | _, _ => .ok s

/-- `GamePlaying:needWait`, which is true when the choices can be decided: at once for a win. -/
def needWait (s : Table) (oper : Oper) : Option Bool :=
  s.playerGrabMgr.needWait.map fun bPowerestWait => !bPowerestWait || oper == .hu

/-- The end of `onGrabCard`: decide, or wait for the other seats. -/
def decideOrWait (s : Table) (oper : Oper) : Handled :=
  match needWait s oper with
  | none => .error s
  | some true => grabEnd rule s
  | some false => .ok s

end Moves

section Messages

variable (rule : RoomRuleMap)

/-- `GamePlaying:onGrabCard`. The log line for a tile that is not offered stops with an error when
there is no tile. -/
def onGrabCard (s : Table) (pos : Seat) (oper : Oper) (card : Option ℕ) : Handled :=
  if !s.playerGrabMgr.hasOper pos oper then .ok s
  else
    match s.playerCanDoMap pos with
    | none => .ok s
    | some canDoMap =>
      match canDoMap.cards oper with
      | none => .ok s
      | some cardList =>
        if oper = .cancel then
          let s := { s with
            playerGrabMgr := (s.playerGrabMgr.playerDoGrab pos oper (some 1)).2 }
          let s :=
            if (s.playerList pos).hasNewCard then s
            else { s with mjCancelMgr := addCancelOpers s.mjCancelMgr pos canDoMap }
          decideOrWait rule s oper
        else
          match card with
          | none => .error s
          | some byteCard =>
            if byteCard ∈ cardList then
              decideOrWait rule { s with
                playerGrabMgr := (s.playerGrabMgr.playerDoGrab pos oper (some byteCard)).2 } oper
            else .ok s

/-- `GamePlaying:onClientMsg`. A code that names no operation is refused by `hasOper`. -/
def onClientMsg (s : Table) (pos : Seat) (pkg : ClientMsg) : Handled :=
  let card := fromOld2NowCardByteMap pkg.card_bytes
  match Oper.ofCode pkg.operation with
  | some .play => onPlayCard rule s pos card
  | some .syncData => .ok s
  | some .testNeedCard =>
    .ok { s with testPlayerNeedCard := Function.update s.testPlayerNeedCard pos card }
  | some oper => onGrabCard rule s pos oper card
  | none => .ok s

end Messages

/-! ### The system -/

/-- The tiles of the wall, from `wallConfig`: four of each suit tile and of `Zi5`. -/
def wallTiles : List ℕ :=
  (List.range' 1 9 ++ List.range' 11 9 ++ List.range' 21 9 ++ [Zi5]).flatMap
    (List.replicate 4)

/-- A round about to be dealt: the rules, the shuffled wall, the banker, and the table as the last
round left it, where no tile has been asked for by the debug operation. -/
structure Deal where
  rule : RoomRuleMap
  wall : List ℕ
  perm : wall.Perm wallTiles
  banker : Seat
  last : Table
  noTest : ∀ pos, last.testPlayerNeedCard pos = none

/-- `GamePlaying:onEntry` after dealing. With no flowers in the game, `buHuaNew` exchanges
nothing. -/
def onEntry (rule : RoomRuleMap) (wall : List ℕ) (banker : Seat) (last : Table) : Table :=
  let r := dealHandCards wall banker
  checkMyOper rule
    { mjWall := r.2
      playerList := r.1
      riverCardList := fun _ => []
      playerGrabMgr := last.playerGrabMgr.clear
      mjCancelMgr := last.mjCancelMgr.clear
      playerCanDoMap := fun _ => none
      testPlayerNeedCard := last.testPlayerNeedCard
      isQiangGanging := false
      qiangGangInfo := last.qiangGangInfo
      multiHuPos := []
      timers := []
      endArgs := none } banker true

/-- The table after the deal. -/
def start (d : Deal) : Table := onEntry d.rule d.wall d.banker d.last

/-- A message of a seat. After an error the round goes on from the state left behind; once it is
over, messages no longer come here. -/
def step (rule : RoomRuleMap) (s : Table) (e : Seat × ClientMsg) : Option Table :=
  if s.endArgs.isSome then none else some (onClientMsg rule s e.1 e.2).state

/-- Messages other than the debug operation. -/
def NoTest (_ : Table) (e : Seat × ClientMsg) : Prop :=
  Oper.ofCode e.2.operation ≠ some .testNeedCard

instance (s : Table) (e : Seat × ClientMsg) : Decidable (NoTest s e) :=
  inferInstanceAs (Decidable (_ ≠ _))

/-- The states of a round, with any messages of any seats in any order. -/
def Reachable (d : Deal) (s : Table) : Prop := Runs.Reaches (step d.rule) NoTest (start d) s

/-! ### A round in which an added kong is robbed -/

/-- The hands of the four seats, the banker's new tile, and the tile drawn after it. -/
def robbedHands : List ℕ :=
  [1, 1, 9, 16, 17, 18, 26, 27, 28, 8, 21, 25, 15] ++
  [4, 4, 4, 1, 2, 15, 19, 21, 25, 26, 27, 28, 8] ++
  [12, 12, 12, 13, 13, 13, 14, 14, 14, 19, 19, 5, 6] ++
  [22, 22, 22, 23, 23, 23, 24, 24, 24, 29, 29, 5, 6] ++ [4, 17]

/-- A deal after which the third and the fourth seat wait for the tile `4`. -/
def robbedKong : Deal where
  rule := ⟨false, false, false, false, false⟩
  wall := robbedHands ++ wallTiles.diff robbedHands
  perm := by decide +kernel
  banker := 0
  last := newTable
  noTest := newTable_noTest

/-- The banker plays `4`, which the second seat takes by peng; it plays `1`, which the banker takes
by peng; he plays `9`, and the second seat, having drawn, adds its last `4` to the peng. The third
seat cancels, and the fourth declares a win. -/
def robbedMsgs : List (Seat × ClientMsg) :=
  [(0, ⟨10, 68⟩), (1, ⟨2, 68⟩), (1, ⟨10, 65⟩), (0, ⟨2, 65⟩), (0, ⟨10, 73⟩), (1, ⟨5, 68⟩),
    (2, ⟨11, 0⟩), (3, ⟨1, 68⟩)]

end Hongzhong
