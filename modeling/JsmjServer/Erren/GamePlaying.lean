import JsmjServer.Tongxiang.TXMJPlayer
import JsmjServer.Mahjong.Deal
import JsmjServer.Lib.Runs

set_option relaxedAutoImplicit false
set_option autoImplicit false

/-!
# The playing state of two-player mahjong

`errenmj/game_state/GamePlaying.lua` with `MyPlayer.lua` and the dealing of `GameBegin.lua`: two
seats, one suit with the honours and flowers, and a hand that may be declared waiting (`ting`). A
drawn flower is exchanged by a timer; a seat that does not play, and claims that are not answered,
are decided by timers.

## Main definitions

* `Erren.Round` — the state, the common table with the fields of this game.
* `Erren.checkMyOper`, `Erren.checkOtherOper` — the offers to the seat whose turn it is and to the
  other seat.
* `Erren.onClientMsg`, `Erren.buHua`, `Erren.grabEnd` — the handlers of messages and timers.
* `Erren.Deal`, `Erren.onEntry`, `Erren.step` — the system of a round.

## Design

The seats `0` and `1` of the common table are played; the others stay empty. Nothing sets
`isAutoHu`, and the evaluation of a waiting hand restores the hand it is made on, so that it is left
out with all that is only sent to clients. The list `moves` is not in the source: it records, beside
the state, who made an added kong and who drew a tile, in order. The timers of playing and of claims
are kept as running or not, with the seat; that of flowers as in the common table.
-/

namespace Erren

open Mahjong

/-! ### Seats and tiles -/

/-- The two seats, `maxPlayerCount = 2`. -/
def playing : List Seat := [0, 1]

/-- `GameProgress:nextPlayerPos`. -/
def nextPlayerPos (pos : Seat) : Seat := if pos = 0 then 1 else 0

/-- `GameProgress:prevPlayerPos`. -/
def prevPlayerPos (pos : Seat) : Seat := if pos = 0 then 1 else 0

/-- `gameProgress.huaList`. -/
def huaList : List ℕ := List.range' 41 8

/-- The tiles of the wall, from `wallConfig`: four of each tile of the suit Tiao and of each honour,
and the eight flowers. -/
def wallTiles : List ℕ :=
  (List.range' 11 9 ++ List.range' Zi1 7).flatMap (List.replicate 4) ++ List.range' 41 8

/-! ### The player -/

namespace MyPlayer

/-- `MyPlayer:doChi`. The pile is made of the two tiles of the hand alone. -/
def doChi (p : MJPlayer) (byteCard : ℕ) (chiType : Oper) (pos : Seat) : Bool × MJPlayer :=
  if chiType ∉ p.getCanChiType byteCard then (false, p)
  else
    match MJPlayer.chiCardList byteCard chiType with
    | none => (false, p)
    | some (c₁, c₂) =>
      let p := (p.delHandCard c₁).2
      let p := (p.delHandCard c₂).2
      let pile := MJPile.new.setPile 3 [c₁, c₂] pos chiType
      let p := { p with pileList := p.pileList ++ [pile], justDoOper := pile.operType }
      (true, p.pushLastCardToNewCard)

/-- `MyPlayer:getTingNormalCards`: the tiles after which a wild tile would win. -/
def getTingNormalCards (p : MJPlayer) : List ℕ :=
  if !p.hasNewCard then []
  else
    let countMap := p.transHandCardsToCountMap true []
    (List.range' 1 Zi7).filter fun byteCard =>
      0 < countMap byteCard && MJMath.canHu fun i =>
        if i = 0 then countMap 0 + 1 else if i = byteCard then countMap i - 1 else countMap i

/-- `MyPlayer:getTingQiDuiCards`: the tiles after which a hand without piles waits for a pair. -/
def getTingQiDuiCards (p : MJPlayer) : List ℕ :=
  if !p.hasNewCard || !p.pileList.isEmpty then []
  else
    let singleCards := MJMath.countSingle (p.transHandCardsToCountMap true [])
    if singleCards.length = 2 then singleCards else []

/-- The field `playCard` of the nodes of `MyPlayer:getCanTingCards`. -/
def getCanTingCards (p : MJPlayer) : List ℕ :=
  getTingNormalCards p ++ (getTingQiDuiCards p).filter (· ∉ getTingNormalCards p)

end MyPlayer

/-! ### The state -/

/-- What is recorded of a run: an added kong, and a tile drawn from the wall in play. -/
inductive Move
  | mxGang (pos : Seat)
  | draw (pos : Seat)
  deriving DecidableEq

/-- The state `GamePlaying`. `waitPlayHandle` is the seat for which the timer of playing runs,
`waitGrabHandle` whether the timer of claims does; `isPrevTing` and `isTing` are fields of the
players. -/
structure Round extends Table where
  curTurn : Seat
  isPrevTing : Seat → Bool
  isTing : Seat → Bool
  waitPlayHandle : Option Seat
  waitGrabHandle : Bool
  moves : List Move

/-- The state a handler leaves, having finished or stopped with an error. -/
abbrev Handled := Except Round Round

/-- The state left behind. -/
def Handled.state : Handled → Round
  | .ok s => s
  | .error s => s

namespace Round

/-- Replace a player. -/
def setPlayer (s : Round) (pos : Seat) (player : MJPlayer) : Round :=
  { s with toTable := s.toTable.setPlayer pos player }

/-- Replace a river. -/
def setRiver (s : Round) (pos : Seat) (river : List ℕ) : Round :=
  { s with toTable := s.toTable.setRiver pos river }

/-- Replace an entry of `playerCanDoMap`. -/
def setCanDoMap (s : Round) (pos : Seat) (map : CanDoMap) : Round :=
  { s with toTable := s.toTable.setCanDoMap pos map }

/-- Replace the record of claims. -/
def setGrab (s : Round) (grab : PlayerGrabMgr) : Round := { s with playerGrabMgr := grab }

/-- `GamePlaying:gotoNextState`. -/
def gotoNextState (s : Round) (args : EndArgs) : Round :=
  { s with
    toTable := s.toTable.gotoNextState args
    waitPlayHandle := none
    waitGrabHandle := false }

end Round

/-! ### Offers -/

/-- The offers of `checkMyOper`. -/
def myOffers (player : MJPlayer) (isTing : Bool) : List (Oper × List ℕ) :=
  let canTingNodes := MyPlayer.getCanTingCards player
  let anGangCardList := player.getAnGangCardListWithDa []
  let mxGangCardList := player.getMXGangCardList
  (.play, []) :: withCancel
    ((if player.canSelfHu [] || player.canSelfHuQiDui [] then [(.hu, [player.newCard])] else []) ++
    (if !isTing && 0 < canTingNodes.length then [(.ting, canTingNodes)] else []) ++
    (if !isTing && 0 < anGangCardList.length then [(.ag, anGangCardList)] else []) ++
    (if !isTing && 0 < mxGangCardList.length then [(.mxg, mxGangCardList)] else []))

/-- `GamePlaying:checkMyOper`. -/
def checkMyOper (s : Round) (turn : Seat) : Round :=
  let player := s.playerList turn
  if player.hasNewCard = false then s
  else
    let offers := myOffers player (s.isTing turn)
    let grab := (s.playerGrabMgr.clear.addCanDoItem turn (offers.map Prod.fst)).setPos turn
    { (s.setGrab grab).setCanDoMap turn (.ofOffers offers) with waitPlayHandle := some turn }

/-- The claims `checkOtherOper` allows the seat `pos` on the tile of `turn`, whether it is a
discarded tile or that of an added kong. -/
def claims (s : Round) (turn pos : Seat) (byteCard : ℕ) : List (Oper × List ℕ) :=
  let player := s.playerList pos
  (if !s.mjCancelMgr.isCancelOper pos .hu byteCard &&
      (player.canHu byteCard [] || player.canHuQiDui byteCard []) then [(.hu, [byteCard])]
    else []) ++
  (if s.isTing pos then [] else
    (if player.canGang byteCard then [(.mg, [byteCard])] else []) ++
    (if !s.mjCancelMgr.isCancelOper pos .peng byteCard && player.canPeng byteCard then
      [(.peng, [byteCard])] else []) ++
    (if pos = prevPlayerPos turn then
      (player.getCanChiType byteCard).map fun chiType => (chiType, [byteCard]) else []))

/-- The count map of `canHu` has no entry for a tile beyond `Zi7`, and adding to it is an error. -/
def canHuStops (s : Round) (pos : Seat) (byteCard : ℕ) : Bool :=
  !s.mjCancelMgr.isCancelOper pos .hu byteCard && !(s.playerList pos).hasNewCard && Zi7 < byteCard

/-- `GamePlaying:checkOtherOper`: whether the other seat may claim the tile, and the offers. The
loop over `maxPlayerCount - 1` seats is made once. -/
def checkOtherOper (s : Round) (turn : Seat) (byteCard : ℕ) : Except Round (Bool × Round) :=
  let s := s.setGrab (s.playerGrabMgr.clear.setPos turn)
  let pos := nextPlayerPos turn
  if canHuStops s pos byteCard then .error s
  else
    let offers := withCancel (claims s turn pos byteCard)
    let s := (s.setGrab (s.playerGrabMgr.addCanDoItem pos (offers.map Prod.fst))).setCanDoMap pos
      (.ofOffers offers)
    if 1 < offers.length then .ok (true, { s with waitGrabHandle := true }) else .ok (false, s)

/-! ### Moves -/

/-- `GamePlaying:giveNewCard`. A flower is exchanged later, by `buHua`. -/
def giveNewCard (s : Round) (turn : Seat) : Round :=
  match takeCard s.toTable turn with
  | none => s.gotoNextState .liuJu
  | some (byteCard, table) =>
    let player := { (table.playerList turn).addNewCard byteCard with justDoOper := .newCard }
    let s := { s with
      toTable := { table with mjCancelMgr := table.mjCancelMgr.clearSeat turn }.setPlayer turn player
      curTurn := turn
      moves := s.moves ++ [Move.draw turn] }
    if player.hasHua huaList then { s with timers := s.timers ++ [turn] }
    else checkMyOper { s with waitPlayHandle := none } turn

/-- `GamePlaying:buHua`, the callback of the timer. -/
def buHua (s : Round) (turn : Seat) : Round :=
  let player := s.playerList turn
  if player.hasHua huaList then
    let huaByteCard := player.getHua huaList
    giveNewCard (s.setPlayer turn ((player.addHua huaByteCard).delNewCard huaByteCard).2) turn
  else s

/-- `GamePlaying:doHu`. -/
def doHu (s : Round) (pos : Seat) (byteCard : ℕ) : Round :=
  let posList :=
    if s.bZiMo pos then [pos]
    else seats.filter fun p => (s.playerCanDoMap p).any fun map => .hu ∈ map.operList.getD []
  s.gotoNextState
    ⟨false, s.bZiMo pos, s.curTurn, posList, byteCard, s.isQiangGanging, pos, []⟩

/-- `GamePlaying:doPeng`. -/
def doPeng (s : Round) (pos : Seat) (byteCard : ℕ) (grabedPos : Seat) : Bool × Round :=
  let r := (s.playerList pos).doPeng byteCard grabedPos
  if r.1 then
    let s := s.setPlayer pos r.2
    let s := s.setRiver grabedPos (MJRiver.popCard (s.riverCardList grabedPos))
    (true, { checkMyOper s pos with curTurn := pos })
  else (false, s)

/-- `GamePlaying:doChi`. -/
def doChi (s : Round) (pos : Seat) (chiType : Oper) (byteCard : ℕ) (grabedPos : Seat) : Round :=
  let r := MyPlayer.doChi (s.playerList pos) byteCard chiType grabedPos
  if r.1 then
    let s := s.setPlayer pos r.2
    let s := s.setRiver grabedPos (MJRiver.popCard (s.riverCardList grabedPos))
    { checkMyOper s pos with curTurn := pos }
  else s

/-- `GamePlaying:doGang`. -/
def doGang (s : Round) (pos : Seat) (byteCard : ℕ) (grabedPos : Seat) : Bool × Round :=
  let r := (s.playerList pos).doGang byteCard grabedPos
  if r.1 then
    let s := s.setPlayer pos r.2
    let s := s.setRiver grabedPos (MJRiver.popCard (s.riverCardList grabedPos))
    (true, giveNewCard s pos)
  else (false, s)

/-- `GamePlaying:doMXGang`. -/
def doMXGang (s : Round) (pos : Seat) (byteCard : ℕ) : Handled :=
  let r := (s.playerList pos).doMXGang byteCard
  if r.1 then
    let s := { s.setPlayer pos r.2 with moves := s.moves ++ [Move.mxGang pos] }
    (checkOtherOper s pos byteCard).map fun c =>
      if c.1 then { c.2 with isQiangGanging := true, qiangGangInfo := some pos }
      else giveNewCard c.2 pos
  else .ok s

/-- `GamePlaying:doAnGang`. -/
def doAnGang (s : Round) (pos : Seat) (byteCard : ℕ) (grabedPos : Seat) : Round :=
  let r := (s.playerList pos).doAnGang byteCard grabedPos
  if r.1 then giveNewCard (s.setPlayer pos r.2) pos else s

/-- The tile that `onPlayCard` takes for the one in the message. A seat that is about to declare its
hand waiting plays a tile it was offered for that, by default the first; once declared it plays the
new tile. The outer `none` is the error of an offer that is missing. -/
def playedCard (s : Round) (pos : Seat) (card : Option ℕ) : Option (Option ℕ) :=
  if s.isPrevTing pos && !s.isTing pos then
    match (s.playerCanDoMap pos).bind fun canDoMap => canDoMap.cards .ting with
    | none => none
    | some tingNodes =>
      if card.any (tingNodes.contains ·) then some card else tingNodes.head?.map some
  else if s.isTing pos then some (some (s.playerList pos).newCard)
  else some card

/-- `MyPlayer:doTing` for a seat that is about to declare its hand waiting. -/
def declareTing (s : Round) (pos : Seat) : Round :=
  if s.isPrevTing pos && !s.isTing pos then { s with isTing := Function.update s.isTing pos true }
  else s

/-- The part of `onPlayCard` that puts the tile on the river, once it has left the player. -/
def discard (s : Round) (pos : Seat) (byteCard : ℕ) (player : MJPlayer) : Round :=
  let s := s.setPlayer pos player
  let s := s.setGrab (s.playerGrabMgr.playerDoGrab pos .play (some byteCard)).2
  let s := s.setCanDoMap pos .empty
  { s.setRiver pos (MJRiver.pushCard (s.riverCardList pos) byteCard) with waitPlayHandle := none }

/-- `GamePlaying:onPlayCard`. -/
def onPlayCard (s : Round) (pos : Seat) (card : Option ℕ) : Handled :=
  if !s.playerGrabMgr.hasOper pos .play then .ok s
  else
    match playedCard s pos card with
    | none => .error (declareTing s pos)
    | some none => .ok (declareTing s pos)
    | some (some byteCard) =>
      let r := (s.playerList pos).doPlayCard byteCard
      if !r.1 then .ok (declareTing s pos)
      else
        (checkOtherOper (discard (declareTing s pos) pos byteCard r.2) pos byteCard).map fun c =>
          if !c.1 then giveNewCard c.2 (nextPlayerPos pos) else { c.2 with waitGrabHandle := true }

/-- The branch of `grabEnd` for a choice to cancel. Whether or not a kong was being robbed, the tile
goes to the seat after `curTurn`. -/
def cancelEnd (s : Round) (pos : Seat) : Handled :=
  if s.isQiangGanging && s.qiangGangInfo.isNone then .error s
  else
    let s := if s.isQiangGanging then { s with isQiangGanging := false, qiangGangInfo := none } else s
    match s.playerCanDoMap pos with
    | none => .error s
    | some map =>
      if .play ∈ map.operList.getD [] then .ok s
      else .ok (giveNewCard s (nextPlayerPos s.curTurn))

/-- The branches of `grabEnd` for the choice of the seat `pos` on a tile of `grabedPos`. -/
def carryOut (s : Round) (pos : Seat) (oper : Oper) (byteCard : ℕ) (grabedPos : Seat) : Handled :=
  match oper with
  | .hu => .ok (doHu s pos byteCard)
  | .peng =>
    let r := doPeng s pos byteCard grabedPos
    if r.1 then .ok r.2 else .ok (giveNewCard r.2 (nextPlayerPos r.2.curTurn))
  | .ag => .ok (doAnGang s pos byteCard grabedPos)
  | .mg =>
    let r := doGang s pos byteCard grabedPos
    if r.1 then .ok r.2 else .ok (giveNewCard r.2 (nextPlayerPos r.2.curTurn))
  | .mxg => doMXGang s pos byteCard
  | .lChi => .ok (doChi s pos .lChi byteCard grabedPos)
  | .mChi => .ok (doChi s pos .mChi byteCard grabedPos)
  | .rChi => .ok (doChi s pos .rChi byteCard grabedPos)
  | .cancel => cancelEnd s pos
  | .play => onPlayCard s pos (some byteCard)
  | _ => .ok s

/-- `GamePlaying:grabEnd`: the prevailing choice is carried out. The position and the tile of a
choice are always there; without them the handler would stop. -/
def grabEnd (s : Round) : Handled :=
  let s := { s with waitGrabHandle := false, waitPlayHandle := none }
  match s.playerGrabMgr.pos with
  | none => .error s
  | some grabedPos =>
    match s.playerGrabMgr.getPowestNode with
    | none => .ok (giveNewCard s (nextPlayerPos grabedPos))
    | some node =>
      match node.operList.head?, node.byteCard with
      | some oper, some byteCard => carryOut s node.pos oper byteCard grabedPos
      | _, _ => .error s

/-- The end of `onGrabCard`. -/
def decideOrWait (s : Round) : Handled :=
  match s.playerGrabMgr.needWait with
  | none => .error s
  | some false => grabEnd s
  | some true => .ok s

/-- `GamePlaying:onGrabCard`. -/
def onGrabCard (s : Round) (pos : Seat) (oper : Oper) (card : Option ℕ) : Handled :=
  if !s.playerGrabMgr.hasOper pos oper then .ok s
  else
    match (s.playerCanDoMap pos).bind fun canDoMap =>
        (canDoMap.cards oper).map fun cardList => (canDoMap, cardList) with
    | none => .ok s
    | some (canDoMap, cardList) =>
      if oper = .ting then
        .ok { s.setGrab (s.playerGrabMgr.playerDoGrab pos oper (some 1)).2 with
          isPrevTing := Function.update s.isPrevTing pos true
          isTing := Function.update s.isTing pos false }
      else if oper = .cancel then
        let s := s.setGrab (s.playerGrabMgr.playerDoGrab pos oper (some 1)).2
        let s :=
          if (s.playerList pos).hasNewCard then s
          else { s with mjCancelMgr := addCancelOpers s.mjCancelMgr pos canDoMap }
        decideOrWait s
      else if card.any (cardList.contains ·) then
        decideOrWait (s.setGrab (s.playerGrabMgr.playerDoGrab pos oper card).2)
      else .ok s

/-- `GamePlaying:onClientMsg`. A code that names no operation is refused by `hasOper`. -/
def onClientMsg (s : Round) (pos : Seat) (pkg : ClientMsg) : Handled :=
  let card := fromOld2NowCardByteMap pkg.card_bytes
  match Oper.ofCode pkg.operation with
  | some .play => onPlayCard s pos card
  | some .syncData => .ok s
  | some .testNeedCard =>
    .ok { s with testPlayerNeedCard := Function.update s.testPlayerNeedCard pos card }
  | some oper => onGrabCard s pos oper card
  | none => .ok s

/-! ### The system -/

/-- A round about to be dealt: the shuffled wall, the banker, and the table as the last round left
it, with callbacks that still wait and no tile asked for by the debug operation. -/
structure Deal where
  wall : List ℕ
  perm : wall.Perm wallTiles
  banker : Seat
  seated : banker ∈ playing
  last : Table
  noTest : ∀ pos, last.testPlayerNeedCard pos = none

/-- `GameBegin:dealHandCards`: thirteen tiles to each seat and one more to the banker. -/
def dealHandCards (wall : List ℕ) (banker : Seat) : (Seat → MJPlayer) × List ℕ :=
  dealTo playing wall banker

/-- `GameBegin:buHua`: the flowers are exchanged in the order of the seats. -/
def exchangeHands (r : (Seat → MJPlayer) × List ℕ) : (Seat → MJPlayer) × List ℕ :=
  playing.foldl
    (fun r pos =>
      let d := exchangeFlowers huaList MJPlayer.addHua (r.1 pos) r.2
      (Function.update r.1 pos d.1, d.2))
    r

/-- `GamePlaying:onEntry` after dealing. -/
def onEntry (d : Deal) : Round :=
  let r := exchangeHands (dealHandCards d.wall d.banker)
  checkMyOper
    { mjWall := r.2
      playerList := r.1
      riverCardList := fun _ => []
      playerGrabMgr := d.last.playerGrabMgr.clear
      mjCancelMgr := d.last.mjCancelMgr.clear
      playerCanDoMap := fun _ => none
      testPlayerNeedCard := d.last.testPlayerNeedCard
      isQiangGanging := false
      qiangGangInfo := d.last.qiangGangInfo
      multiHuPos := []
      timers := d.last.timers
      endArgs := none
      curTurn := d.banker
      isPrevTing := fun _ => false
      isTing := fun _ => false
      waitPlayHandle := none
      waitGrabHandle := false
      moves := [] } d.banker

/-- A message of a seat, or a timer that fires: of playing, of claims, or of a flower. -/
inductive Event where
  | clientMsg (pos : Seat) (pkg : ClientMsg)
  | playTimeOut
  | grabTimeOut
  | buHua (turn : Seat)

/-- After an error the round goes on from the state left behind; once it is over, events no longer
come here. -/
def step (s : Round) (e : Event) : Option Round :=
  if s.endArgs.isSome then none
  else
    match e with
    | .clientMsg pos pkg =>
      if pos ∈ playing then some (onClientMsg s pos pkg).state else none
    | .playTimeOut => s.waitPlayHandle.map fun turn =>
        (onPlayCard { s with waitPlayHandle := none } turn (some (s.playerList turn).newCard)).state
    | .grabTimeOut => if s.waitGrabHandle then some (grabEnd s).state else none
    | .buHua turn =>
      if turn ∈ s.timers then some (buHua { s with timers := s.timers.erase turn } turn) else none

end Erren
