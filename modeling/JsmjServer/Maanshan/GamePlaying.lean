import JsmjServer.Nanjing.GamePlaying

set_option relaxedAutoImplicit false
set_option autoImplicit false

/-!
# The playing state of maanshan mahjong

`maanshanmj/game_state/GamePlaying.lua`, with the dealing of `GameBegin.lua`: offers, claims on a
discarded tile or on an added kong, and the client messages. A message that declares a win goes to
`doHu` at once, and there is one winner.

## Main definitions

* `Maanshan.GameProgress` — the suits given up by the players before the round.
* `Maanshan.checkMyOper`, `Maanshan.checkOtherOper` — the offers to the seat whose turn it is and to
  the other seats.
* `Maanshan.doHu`, `Maanshan.checkFirstHuPos` — the end of a round that is won.
* `Maanshan.onClientMsg` — the handler of client messages.
* `Maanshan.Deal`, `Maanshan.onDeal`, `Maanshan.step` — the system of a round.

## Design

There are no flowers and no timers. The table of offers is cleared as in nanjing mahjong. What is
only sent to clients is left out, with the tips for the player; the banker, which `doHu` sets for
the next round, is not read in this state. The operation to give up a suit is handled before the
round.
-/

namespace Maanshan

open Mahjong
open Nanjing (clearCanDoMap clearAllCanDoMap)

/-! ### What is asked outside -/

/-- The rule `mas_playrule_q1m`, and the suit each player has given up, `-1` when there is none. -/
structure GameProgress where
  isDefinedQ1m : Bool
  selectedAbandonedSuit : Seat → ℤ

/-- `MJPlayer:getAllHandCards`. -/
def getAllHandCards (player : MJPlayer) : List ℕ :=
  player.cardList ++ if player.hasNewCard then [player.newCard] else []

section Rules

variable (gameProgress : GameProgress)

/-- `GameProgress:getPlayerFirstCard`: the tiles of the suit the player has given up. -/
def getPlayerFirstCard (s : Table) (turn : Seat) : List ℕ :=
  (getAllHandCards (s.playerList turn)).filter fun card =>
    gameProgress.selectedAbandonedSuit turn = ((card / 10 : ℕ) : ℤ)

/-- `GameProgress:sendUidCanPlayCards`. -/
def sendUidCanPlayCards (s : Table) (turn : Seat) : List ℕ :=
  if gameProgress.isDefinedQ1m then getPlayerFirstCard gameProgress s turn else []

/-- `GamePlaying:findFilterCards`. -/
def findFilterCards (sourceCards filterCards : List ℕ) : List ℕ :=
  filterCards.foldl List.erase sourceCards

/-! ### The end of a round -/

/-- `GamePlaying:checkFirstHuPos`: the first of the seats after a position. -/
def checkFirstHuPos (posList : List Seat) (pos : Seat) : List Seat :=
  ([pos + 1, pos + 2, pos + 3, pos].find? (· ∈ posList)).toList

/-- `GamePlaying:doHu`. Its log line stops with an error when there is no tile. Without a position
the search begins with the first seat. -/
def doHu (s : Table) (pos : Seat) (card : Option ℕ) : Handled :=
  let bZiMo := s.bZiMo pos
  let posList :=
    if !bZiMo then
      if 1 < s.multiHuPos.length then checkFirstHuPos s.multiHuPos (s.playerGrabMgr.pos.getD 3)
      else s.multiHuPos
    else [pos]
  match card with
  | none => .error s
  | some byteCard =>
    .ok (s.gotoNextState
      ⟨false, bZiMo, s.playerGrabMgr.pos, posList, byteCard, s.isQiangGanging, pos, []⟩)

/-! ### Offers -/

/-- The offers of `checkMyOper`. Tiles of the suit given up bar the win and may not be used for a
kong. -/
def myOffers (s : Table) (turn : Seat) (checkOp : Bool) : List (Oper × List ℕ) :=
  let player := s.playerList turn
  let filtercards := sendUidCanPlayCards gameProgress s turn
  let anGangCardList := findFilterCards (player.getAnGangCardListWithDa []) filtercards
  let mxGangCardList := findFilterCards player.getMXGangCardList filtercards
  (.play, []) :: withCancel
    ((if checkOp && player.canSelfHu [] && (filtercards.isEmpty || !gameProgress.isDefinedQ1m) then
        [(.hu, [player.newCard])] else []) ++
      (if checkOp && 0 < anGangCardList.length then [(.ag, anGangCardList)] else []) ++
      (if checkOp && 0 < mxGangCardList.length then [(.mxg, mxGangCardList)] else []))

/-- `GamePlaying:checkMyOper`. -/
def checkMyOper (s : Table) (turn : Seat) (checkOp : Bool) : Table :=
  if (s.playerList turn).hasNewCard = false then s
  else
    let offers := myOffers gameProgress s turn checkOp
    { s with
      playerGrabMgr := (s.playerGrabMgr.clear.addCanDoItem turn (offers.map Prod.fst)).setPos turn
      }.setCanDoMap turn (.ofOffers offers)

/-- The claims `checkOtherOper` allows one seat: kong and peng only on a discarded tile, and not of
the suit given up. -/
def claims (s : Table) (pos : Seat) (byteCard : ℕ) (bGrabGang : Bool) : List (Oper × List ℕ) :=
  let player := s.playerList pos
  let filterCards := getPlayerFirstCard gameProgress s pos
  let bSuit := gameProgress.selectedAbandonedSuit pos ≠ ((byteCard / 10 : ℕ) : ℤ)
  (if !s.mjCancelMgr.isCancelOper pos .hu byteCard && player.canHu byteCard [] &&
      (filterCards.isEmpty || !gameProgress.isDefinedQ1m) then [(.hu, [byteCard])] else []) ++
  (if !bGrabGang && player.canGang byteCard && bSuit then [(.mg, [byteCard])] else []) ++
  (if !bGrabGang && !s.mjCancelMgr.isCancelOper pos .peng byteCard && player.canPeng byteCard &&
      bSuit then [(.peng, [byteCard])] else [])

/-- The count map of `canHu` has no entry for a tile beyond `Zi7`, and adding to it is an error. -/
def canHuStops (s : Table) (byteCard : ℕ) (pos : Seat) : Bool :=
  !s.mjCancelMgr.isCancelOper pos .hu byteCard && !(s.playerList pos).hasNewCard && Zi7 < byteCard

/-- `GamePlaying:checkOtherOper`: whether some other seat may claim the tile, and the offers. -/
def checkOtherOper (s : Table) (turn : Seat) (byteCard : ℕ) (bGrabGang : Bool) :
    Except Table (Bool × Table) :=
  let s := { clearAllCanDoMap s with
    playerGrabMgr := s.playerGrabMgr.clear.setPos turn
    multiHuPos := [] }
  s.offerUntil turn (canHuStops s byteCard) fun pos => claims gameProgress s pos byteCard bGrabGang

/-! ### The operations -/

/-- `GamePlaying:giveNewCard`. -/
def giveNewCard (s : Table) (turn : Seat) : Table :=
  match takeCard s turn with
  | none => s.gotoNextState .liuJu
  | some (byteCard, s) =>
    let player := { (s.playerList turn).addNewCard byteCard with justDoOper := .newCard }
    let s := { s with
      playerGrabMgr := s.playerGrabMgr.setPos turn
      mjCancelMgr := s.mjCancelMgr.clearPos turn }.setPlayer turn player
    checkMyOper gameProgress s turn true

/-- `GamePlaying:doPeng`. -/
def doPeng (s : Table) (pos : Seat) (byteCard : ℕ) (grabedPos : Seat) : Bool × Table :=
  let r := (s.playerList pos).doPeng byteCard grabedPos
  if r.1 then
    let s := s.setPlayer pos r.2
    let s := s.setRiver grabedPos (MJRiver.popCard (s.riverCardList grabedPos))
    (true, checkMyOper gameProgress s pos false)
  else (false, s)

/-- `GamePlaying:doGang`. -/
def doGang (s : Table) (pos : Seat) (byteCard : ℕ) (grabedPos : Seat) : Bool × Table :=
  let r := (s.playerList pos).doGang byteCard grabedPos
  if r.1 then
    let s := s.setPlayer pos r.2
    let s := s.setRiver grabedPos (MJRiver.popCard (s.riverCardList grabedPos))
    (true, giveNewCard gameProgress s pos)
  else (false, s)

/-- `GamePlaying:doMXGang`. -/
def doMXGang (s : Table) (pos : Seat) (byteCard : ℕ) : Handled :=
  let r := (s.playerList pos).doMXGang byteCard
  if r.1 then
    (checkOtherOper gameProgress (s.setPlayer pos r.2) pos byteCard true).map fun c =>
      if c.1 then { c.2 with isQiangGanging := true, qiangGangInfo := some pos }
      else giveNewCard gameProgress c.2 pos
  else .ok s

/-- `GamePlaying:doAnGang`. -/
def doAnGang (s : Table) (pos : Seat) (byteCard : ℕ) (grabedPos : Seat) : Table :=
  let r := (s.playerList pos).doAnGang byteCard grabedPos
  if r.1 then giveNewCard gameProgress (s.setPlayer pos r.2) pos else s

/-- The part of `onPlayCard` that puts the tile on the river, once it has left the player. -/
def discard (s : Table) (pos : Seat) (byteCard : ℕ) (player : MJPlayer) : Table :=
  let s := s.setPlayer pos player
  let s := { s with
    playerGrabMgr := (s.playerGrabMgr.playerDoGrab pos .play (some byteCard)).2 }
  let s := (clearCanDoMap s pos).setCanDoMap pos .empty
  let s := s.setRiver pos (MJRiver.pushCard (s.riverCardList pos) byteCard)
  { s with mjCancelMgr := s.mjCancelMgr.clearPos pos }

/-- `GamePlaying:onPlayCard`. A tile the player does not have is answered by sending the state
again. -/
def onPlayCard (s : Table) (pos : Seat) (card : Option ℕ) : Handled :=
  if !s.playerGrabMgr.hasOper pos .play then .ok s
  else
    match card with
    | none => .ok s
    | some byteCard =>
      let r := (s.playerList pos).doPlayCard byteCard
      if !r.1 then .ok s
      else
        (checkOtherOper gameProgress (discard s pos byteCard r.2) pos byteCard false).map fun c =>
          if !c.1 then giveNewCard gameProgress c.2 (nextPlayerPos pos) else c.2

/-- The branch of `grabEnd` for a choice to cancel. -/
def cancelEnd (s : Table) (pos grabedPos : Seat) : Handled :=
  if s.isQiangGanging then
    match s.qiangGangInfo with
    | none => .error s
    | some tPos =>
      .ok (giveNewCard gameProgress { s with isQiangGanging := false, qiangGangInfo := none } tPos)
  else
    match s.playerCanDoMap pos with
    | none => .error s
    | some map =>
      if .play ∈ map.operList.getD [] then .ok s
      else .ok (giveNewCard gameProgress s (nextPlayerPos grabedPos))

/-- `GamePlaying:grabEnd`: the prevailing choice is carried out. The position and the tile of a
choice are always there; without them the handler would stop. -/
def grabEnd (s : Table) : Handled :=
  match s.playerGrabMgr.pos with
  | none => .error s
  | some grabedPos =>
    match s.playerGrabMgr.getPowestNode with
    | none => .ok (giveNewCard gameProgress s (nextPlayerPos grabedPos))
    | some node =>
      match node.operList.head?, node.byteCard with
      | some .cancel, _ => cancelEnd gameProgress s node.pos grabedPos
      | some .hu, byteCard => doHu s node.pos byteCard
      | _, none => .error s
      | some .peng, some byteCard =>
        let r := doPeng gameProgress s node.pos byteCard grabedPos
        if r.1 then .ok r.2 else .ok (giveNewCard gameProgress r.2 (nextPlayerPos grabedPos))
      | some .ag, some byteCard => .ok (doAnGang gameProgress s node.pos byteCard grabedPos)
      | some .mg, some byteCard =>
        let r := doGang gameProgress s node.pos byteCard grabedPos
        if r.1 then .ok r.2 else .ok (giveNewCard gameProgress r.2 (nextPlayerPos grabedPos))
      | some .mxg, some byteCard => doMXGang gameProgress s node.pos byteCard
      | some .play, some byteCard => onPlayCard gameProgress s node.pos (some byteCard)
      | _, _ => .ok s

/-- The end of `onGrabCard`: `GamePlaying:needWait` is true when the choices can be decided, and
always for a win. -/
def decideOrWait (s : Table) (oper : Oper) : Handled :=
  match s.playerGrabMgr.needWait with
  | none => .error s
  | some wait => if !wait || oper = .hu then grabEnd gameProgress s else .ok s

/-- `GamePlaying:onGrabCard`. -/
def onGrabCard (s : Table) (pos : Seat) (oper : Oper) (card : Option ℕ) : Handled :=
  if !s.playerGrabMgr.hasOper pos oper then .ok s
  else
    match s.playerCanDoMap pos with
    | none => .ok s
    | some canDoMap =>
      match canDoMap.cards oper with
      | none => .ok s
      | some cardList =>
        if oper = .cancel then
          let s := clearCanDoMap { s with
            playerGrabMgr := (s.playerGrabMgr.playerDoGrab pos oper (some 1)).2 } pos
          let s :=
            if (s.playerList pos).hasNewCard then s
            else { s with mjCancelMgr := addCancelOpers s.mjCancelMgr pos canDoMap }
          decideOrWait gameProgress s oper
        else
          match card with
          | none => .ok s
          | some byteCard =>
            if byteCard ∈ cardList then
              decideOrWait gameProgress (clearCanDoMap { s with
                playerGrabMgr := (s.playerGrabMgr.playerDoGrab pos oper (some byteCard)).2 } pos) oper
            else .ok s

/-- `GamePlaying:onClientMsg`. A win is carried out without asking whether it is offered. A code
that names no operation is refused by `hasOper`. -/
def onClientMsg (s : Table) (pos : Seat) (pkg : ClientMsg) : Handled :=
  let card := fromOld2NowCardByteMap pkg.card_bytes
  match Oper.ofCode pkg.operation with
  | some .play => onPlayCard gameProgress s pos card
  | some .syncData => .ok s
  | some .testNeedCard =>
    .ok { s with testPlayerNeedCard := Function.update s.testPlayerNeedCard pos card }
  | some .hu => doHu s pos card
  | some oper => onGrabCard gameProgress s pos oper card
  | none => .ok s

end Rules

/-! ### The system -/

/-- The tiles of the wall, from `wallConfig`: four of each suit tile and honour. -/
def wallTiles : List ℕ :=
  (List.range' 1 9 ++ List.range' 11 9 ++ List.range' 21 9 ++ List.range' Zi1 7).flatMap
    (List.replicate 4)

/-- A round about to be dealt: the shuffled wall, the banker, the suits the players give up, and the
table as the last round left it, where tiles may have been asked for by the debug operation. -/
structure Deal where
  wall : List ℕ
  perm : wall.Perm wallTiles
  banker : Seat
  gameProgress : GameProgress
  last : Table
  asked : ∀ pos byteCard, last.testPlayerNeedCard pos = some byteCard →
    ∃ b, fromOld2NowCardByteMap b = some byteCard

/-- `GamePlaying:onEntry` after dealing. -/
def onDeal (d : Deal) : Table :=
  let r := dealHandCards d.wall d.banker
  checkMyOper d.gameProgress
    { mjWall := r.2
      playerList := r.1
      riverCardList := fun _ => []
      playerGrabMgr := d.last.playerGrabMgr.clear
      mjCancelMgr := d.last.mjCancelMgr.clear
      playerCanDoMap := fun _ => none
      testPlayerNeedCard := d.last.testPlayerNeedCard
      isQiangGanging := false
      qiangGangInfo := d.last.qiangGangInfo
      multiHuPos := []
      timers := []
      endArgs := none } d.banker true

/-- A message of a seat. After an error the round goes on from the state left behind; once it is
over, messages no longer come here. -/
def step (gameProgress : GameProgress) (s : Table) (e : Seat × ClientMsg) : Option Table :=
  if s.endArgs.isSome then none else some (onClientMsg gameProgress s e.1 e.2).state

end Maanshan
