import JsmjServer.Mahjong.Table
import JsmjServer.Lib.Runs

set_option relaxedAutoImplicit false
set_option autoImplicit false

/-!
# The playing state of nanjing mahjong

`nanjingmj/game_state/GamePlaying.lua`, with the dealing of `GameBegin.lua`: offers, claims on a
discarded tile or on an added kong, automatic wins, the exchange of flowers after a delay, and the
client messages.

## Main definitions

* `Nanjing.GameProgress` — what the state asks of `GameProgress` and `CountHuType`.
* `Nanjing.checkMyOper`, `Nanjing.checkOtherOper` — the offers to the seat whose turn it is and to
  the other seats.
* `Nanjing.onClientMsg`, `Nanjing.buHua` — the handlers of client messages and of the timer.
* `Nanjing.Deal`, `Nanjing.onEntry`, `Nanjing.step` — the system of a round.

## Design

The evaluation of a hand by `CountHuType`, and the accounts of the players, are not part of the
state: every event brings the answers that are asked for while it is handled, each at most once, and
any answers are allowed. What is only sent to clients or changes the accounts is left out, with the
tips for the player; after computing them `checkMyOper` reads a flag of `CountHuType` that they may
have set, so that `isAutoHu` is an answer of its own. A timer that fires after the round has ended
finds a player without flowers, and is left out.
-/

namespace Nanjing

open Mahjong

/-! ### What is asked outside -/

/-- The results of `CountHuType:calculate` that the state reads. -/
structure CountHuType where
  isKuaiZhao : Bool
  isBaoPai : Bool
  isAutoHu : Bool
  /-- `hasHuType` of `kMengQing` or of a type in `kDaHuTypeList`. -/
  hasDaHu : Bool

/-- The answers while an event is handled: the evaluation for a seat and the tile it would win on,
`none` for its own new tile; whether a player of a jin-yuan-zi room has no money left; how many
have not; and whether a fine for a played tile stops with an error, as `broadcastOutCardMoney` does
in other rooms with a score limit. -/
structure GameProgress where
  countHuType : Seat → Option ℕ → CountHuType
  isOut : Seat → Bool
  getJYZCount : ℕ
  faFenStops : Bool := false

/-- `gameProgress.huaList`: the tiles from `Zi5` to `Hua8` count as flowers. -/
def huaList : List ℕ := List.range' Zi5 14

/-! ### The table of offers -/

/-- `#self.playerCanDoMap`: the entries up to the first that is missing. -/
def canDoCount (s : Table) : ℕ := (seats.takeWhile fun pos => (s.playerCanDoMap pos).isSome).length

/-- `GamePlaying:clearCanDoMap` without an argument. -/
def clearAllCanDoMap (s : Table) : Table :=
  { s with playerCanDoMap := fun pos =>
      if pos.val < canDoCount s then some .empty else s.playerCanDoMap pos }

/-- `GamePlaying:clearCanDoMap` for a seat. -/
def clearCanDoMap (s : Table) (pos : Seat) : Table :=
  if (s.playerCanDoMap pos).isSome then s.setCanDoMap pos .empty else clearAllCanDoMap s

/-- `GamePlaying:doHu`. -/
def doHu (s : Table) (pos : Seat) (byteCard : ℕ) : Table :=
  let posList := if s.bZiMo pos then [pos] else s.multiHuPos
  s.gotoNextState
    ⟨false, s.bZiMo pos, s.playerGrabMgr.pos, posList, byteCard, s.isQiangGanging, pos, []⟩

/-! ### Offers -/

/-- The seat may win with its new tile. -/
def selfHu (countHuType : CountHuType) (player : MJPlayer) : Bool :=
  countHuType.isKuaiZhao ||
    ((player.canSelfHu [] || player.canSelfHuQiDui []) &&
      (4 ≤ player.huaList.length || countHuType.hasDaHu))

/-- The offers of `checkMyOper`. The possibility to cancel is left out for a seat that may win. -/
def myOffers (countHuType : CountHuType) (player : MJPlayer) (checkOp : Bool) :
    List (Oper × List ℕ) :=
  let bHu := selfHu countHuType player
  let anGangCardList := player.getAnGangCardListWithDa []
  let mxGangCardList := player.getMXGangCardList
  let offers :=
    (if bHu && (countHuType.isBaoPai || checkOp) then [(.hu, [player.newCard])] else []) ++
    (if checkOp && 0 < anGangCardList.length then [(.ag, anGangCardList)] else []) ++
    (if checkOp && 0 < mxGangCardList.length then [(.mxg, mxGangCardList)] else [])
  (.play, []) :: if bHu then offers else withCancel offers

section Handlers

variable (gameProgress : GameProgress)

/-- `GamePlaying:checkMyOper`. An automatic win is carried out at once. -/
def checkMyOper (s : Table) (turn : Seat) (checkOp : Bool) : Table :=
  let s := clearAllCanDoMap s
  let player := s.playerList turn
  if player.hasNewCard = false then s
  else
    let countHuType := gameProgress.countHuType turn none
    let offers := myOffers countHuType player checkOp
    let grab := (s.playerGrabMgr.clear.addCanDoItem turn (offers.map Prod.fst)).setPos turn
    let s := { s with playerGrabMgr := grab }.setCanDoMap turn (.ofOffers offers)
    if countHuType.isAutoHu then
      doHu { s with
        playerGrabMgr := (s.playerGrabMgr.playerDoGrab turn .hu (some player.newCard)).2 }
        turn player.newCard
    else s

/-- The seat may win on the tile of `turn`: not when it has passed on it before, nor from a player
who has no money left. -/
def otherHu (s : Table) (turn pos : Seat) (byteCard : ℕ) : Bool :=
  let player := s.playerList pos
  !gameProgress.isOut turn && !s.mjCancelMgr.isCancelOper pos .hu byteCard &&
    (player.canHu byteCard [] || player.canHuQiDui byteCard []) &&
    (4 ≤ player.huaList.length || (gameProgress.countHuType pos (some byteCard)).hasDaHu)

/-- The claims `checkOtherOper` allows one seat: kong and peng only on a discarded tile. -/
def claims (s : Table) (turn pos : Seat) (byteCard : ℕ) (bGrabGang : Bool) :
    List (Oper × List ℕ) :=
  let player := s.playerList pos
  (if otherHu gameProgress s turn pos byteCard then [(.hu, [byteCard])] else []) ++
  (if !bGrabGang && player.canGang byteCard then [(.mg, [byteCard])] else []) ++
  (if !bGrabGang && !s.mjCancelMgr.isCancelOper pos .peng byteCard && player.canPeng byteCard then
    [(.peng, [byteCard])] else [])

/-- The count map of `canHu` has no entry for a tile beyond `Zi7`, and adding to it is an error. -/
def canHuStops (s : Table) (turn : Seat) (byteCard : ℕ) (pos : Seat) : Bool :=
  !gameProgress.isOut turn && !s.mjCancelMgr.isCancelOper pos .hu byteCard &&
    !(s.playerList pos).hasNewCard && Zi7 < byteCard

/-- The last seat in order that wins automatically. -/
def autoHuPos (s : Table) (turn : Seat) (byteCard : ℕ) : Option Seat :=
  ([turn + 1, turn + 2, turn + 3].filter fun pos =>
    otherHu gameProgress s turn pos byteCard &&
      (gameProgress.countHuType pos (some byteCard)).isAutoHu).getLast?

/-- `GamePlaying:checkOtherOper`: whether some other seat may claim the tile, the seat that wins
automatically, and the offers. -/
def checkOtherOper (s : Table) (turn : Seat) (byteCard : ℕ) (bGrabGang : Bool) :
    Except Table (Bool × Option Seat × Table) :=
  let s := { clearAllCanDoMap s with
    playerGrabMgr := s.playerGrabMgr.clear.setPos turn
    multiHuPos := [] }
  (s.offerUntil turn (canHuStops gameProgress s turn byteCard)
      fun pos => claims gameProgress s turn pos byteCard bGrabGang).map
    fun r => (r.1, autoHuPos gameProgress s turn byteCard, r.2)

/-- The automatic win of a seat on another seat's tile. -/
def autoHu (s : Table) (pos : Option Seat) (byteCard : ℕ) : Table :=
  match pos with
  | none => s
  | some pos =>
    doHu { s with
      playerGrabMgr := (s.playerGrabMgr.playerDoGrab pos .hu (some byteCard)).2 } pos byteCard

/-- `GamePlaying:giveNewCard`. A flower is exchanged later, by `buHua`. -/
def giveNewCard (s : Table) (turn : Seat) : Table :=
  if 2 ≤ gameProgress.getJYZCount then s.gotoNextState .liuJu
  else
    match takeCard s turn with
    | none => s.gotoNextState .liuJu
    | some (byteCard, s) =>
      let player := { (s.playerList turn).addNewCard byteCard with justDoOper := .newCard }
      let s := { s with
        playerGrabMgr := s.playerGrabMgr.setPos turn
        mjCancelMgr := s.mjCancelMgr.clearSeat turn }.setPlayer turn player
      if player.hasHua huaList then { s with timers := s.timers ++ [turn] }
      else checkMyOper gameProgress s turn true

/-- `GamePlaying:buHua`, the callback of the timer. -/
def buHua (s : Table) (turn : Seat) : Table :=
  let player := s.playerList turn
  if player.hasHua huaList then
    let huaByteCard := player.getHua huaList
    giveNewCard gameProgress
      (s.setPlayer turn ((player.addHua huaByteCard).delNewCard huaByteCard).2) turn
  else s

/-- `GamePlaying:doPeng`. -/
def doPeng (s : Table) (pos : Seat) (byteCard : ℕ) (grabedPos : Seat) : Bool × Table :=
  let r := (s.playerList pos).doPeng byteCard grabedPos
  if r.1 then
    let s := s.setPlayer pos r.2
    let s := s.setRiver grabedPos (MJRiver.popCard (s.riverCardList grabedPos))
    (true, checkMyOper gameProgress s pos false)
  else (false, s)

/-- `GamePlaying:doGang`. -/
def doGang (s : Table) (pos : Seat) (byteCard : ℕ) (grabedPos : Seat) : Bool × Table :=
  let r := (s.playerList pos).doGang byteCard grabedPos
  if r.1 then
    let s := s.setPlayer pos r.2
    let s := s.setRiver grabedPos (MJRiver.popCard (s.riverCardList grabedPos))
    (true, giveNewCard gameProgress s pos)
  else (false, s)

/-- `GamePlaying:doMXGang`. -/
def doMXGang (s : Table) (pos : Seat) (byteCard : ℕ) : Handled :=
  let r := (s.playerList pos).doMXGang byteCard
  if r.1 then
    (checkOtherOper gameProgress (s.setPlayer pos r.2) pos byteCard true).map fun c =>
      if c.1 then
        autoHu { c.2.2 with isQiangGanging := true, qiangGangInfo := some pos } c.2.1 byteCard
      else giveNewCard gameProgress c.2.2 pos
  else .ok s

/-- `GamePlaying:doAnGang`. -/
def doAnGang (s : Table) (pos : Seat) (byteCard : ℕ) (grabedPos : Seat) : Table :=
  let r := (s.playerList pos).doAnGang byteCard grabedPos
  if r.1 then giveNewCard gameProgress (s.setPlayer pos r.2) pos else s

/-- The part of `onPlayCard` that puts the tile on the river, once it has left the player. -/
def discard (s : Table) (pos : Seat) (byteCard : ℕ) (player : MJPlayer) : Table :=
  let s := s.setPlayer pos player
  let s := { s with
    playerGrabMgr := (s.playerGrabMgr.playerDoGrab pos .play (some byteCard)).2 }
  let s := clearCanDoMap s pos
  s.setRiver pos (MJRiver.pushCard (s.riverCardList pos) byteCard)

/-- `GamePlaying:onPlayCard`. Its first log line stops with an error when there is no tile; a tile
the player does not have is answered by sending the state again. -/
def onPlayCard (s : Table) (pos : Seat) (card : Option ℕ) : Handled :=
  match card with
  | none => .error s
  | some byteCard =>
    if !s.playerGrabMgr.hasOper pos .play then .ok s
    else
      let r := (s.playerList pos).doPlayCard byteCard
      if !r.1 then .ok s
      else
        let s := discard s pos byteCard r.2
        if gameProgress.faFenStops then .error s
        else
          (checkOtherOper gameProgress s pos byteCard false).map fun c =>
            if !c.1 then giveNewCard gameProgress c.2.2 (nextPlayerPos pos)
            else autoHu c.2.2 c.2.1 byteCard

/-- The branch of `grabEnd` for a choice to cancel. The list of offered operations has been cleared
with the choice, so that the next seat draws a tile even when the seat could still play one. -/
def cancelEnd (s : Table) (pos grabedPos : Seat) : Handled :=
  if s.isQiangGanging then
    match s.qiangGangInfo with
    | none => .error s
    | some tPos =>
      .ok (giveNewCard gameProgress { s with isQiangGanging := false, qiangGangInfo := none } tPos)
  else
    match s.playerCanDoMap pos with
    | none => .error s
    | some map =>
      if .play ∈ map.operList.getD [] then .ok s
      else .ok (giveNewCard gameProgress s (nextPlayerPos grabedPos))

/-- `GamePlaying:grabEnd`: the prevailing choice is carried out. The position and the tile of a
choice are always there; without them the handler would stop. -/
def grabEnd (s : Table) : Handled :=
  match s.playerGrabMgr.pos with
  | none => .error s
  | some grabedPos =>
    match s.playerGrabMgr.getPowestNode with
    | none => .ok (giveNewCard gameProgress s (nextPlayerPos grabedPos))
    | some node =>
      match node.operList.head?, node.byteCard with
      | some .cancel, _ => cancelEnd gameProgress s node.pos grabedPos
      | _, none => .error s
      | some .hu, some byteCard => .ok (doHu s node.pos byteCard)
      | some .peng, some byteCard =>
        let r := doPeng gameProgress s node.pos byteCard grabedPos
        if r.1 then .ok r.2 else .ok (giveNewCard gameProgress r.2 (nextPlayerPos grabedPos))
      | some .ag, some byteCard => .ok (doAnGang gameProgress s node.pos byteCard grabedPos)
      | some .mg, some byteCard =>
        let r := doGang gameProgress s node.pos byteCard grabedPos
        if r.1 then .ok r.2 else .ok (giveNewCard gameProgress r.2 (nextPlayerPos grabedPos))
      | some .mxg, some byteCard => doMXGang gameProgress s node.pos byteCard
      | some .play, some byteCard => onPlayCard gameProgress s node.pos (some byteCard)
      | _, _ => .ok s

/-- The end of `onGrabCard`: `GamePlaying:needWait` is true when the choices can be decided. -/
def decideOrWait (s : Table) : Handled :=
  match s.playerGrabMgr.needWait with
  | none => .error s
  | some false => grabEnd gameProgress s
  | some true => .ok s

/-- `GamePlaying:onGrabCard`. The log line for a tile that is not offered stops with an error when
there is no tile. -/
def onGrabCard (s : Table) (pos : Seat) (oper : Oper) (card : Option ℕ) : Handled :=
  if !s.playerGrabMgr.hasOper pos oper then .ok s
  else
    match s.playerCanDoMap pos with
    | none => .ok s
    | some canDoMap =>
      match canDoMap.cards oper with
      | none => .ok s
      | some cardList =>
        if oper = .cancel then
          let s := clearCanDoMap { s with
            playerGrabMgr := (s.playerGrabMgr.playerDoGrab pos oper (some 1)).2 } pos
          let s :=
            if (s.playerList pos).hasNewCard then s
            else { s with mjCancelMgr := addCancelOpers s.mjCancelMgr pos canDoMap }
          decideOrWait gameProgress s
        else
          match card with
          | none => .error s
          | some byteCard =>
            if byteCard ∈ cardList then
              decideOrWait gameProgress (clearCanDoMap { s with
                playerGrabMgr := (s.playerGrabMgr.playerDoGrab pos oper (some byteCard)).2 } pos)
            else .ok s

/-- `GamePlaying:onClientMsg`. A code that names no operation is refused by `hasOper`. -/
def onClientMsg (s : Table) (pos : Seat) (pkg : ClientMsg) : Handled :=
  let card := fromOld2NowCardByteMap pkg.card_bytes
  match Oper.ofCode pkg.operation with
  | some .play => onPlayCard gameProgress s pos card
  | some .syncData => .ok s
  | some .testNeedCard =>
    .ok { s with testPlayerNeedCard := Function.update s.testPlayerNeedCard pos card }
  | some oper => onGrabCard gameProgress s pos oper card
  | none => .ok s

end Handlers

/-! ### A tile is played -/

section Discard

variable {s : Table} {p q : Seat}

/-- The entry of a seat that has one is emptied, and no other. -/
lemma clearCanDoMap_eq (h : (s.playerCanDoMap q).isSome) :
    clearCanDoMap s q = s.setCanDoMap q .empty := if_pos h

/-- The table after a tile is put on the river, for a seat that has an entry. -/
lemma discard_eq (h : (s.playerCanDoMap p).isSome) (b : ℕ) (player : MJPlayer) :
    discard s p b player = { s with
      playerList := Function.update s.playerList p player
      riverCardList := Function.update s.riverCardList p (MJRiver.pushCard (s.riverCardList p) b)
      playerGrabMgr := (s.playerGrabMgr.playerDoGrab p .play (some b)).2
      playerCanDoMap := Function.update s.playerCanDoMap p (some .empty) } := by
  have hclear := clearCanDoMap_eq (q := p) (s := { s.setPlayer p player with
    playerGrabMgr := ((s.setPlayer p player).playerGrabMgr.playerDoGrab p .play (some b)).2 }) h
  simp only [discard, hclear]
  rfl

end Discard

/-! ### The system -/

/-- The tiles of the wall, from `wallConfig`: four of each suit tile and honour, and the eight
flowers. -/
def wallTiles : List ℕ :=
  (List.range' 1 9 ++ List.range' 11 9 ++ List.range' 21 9 ++ List.range' Zi1 7).flatMap
    (List.replicate 4) ++ List.range' 41 8

/-- A round about to be dealt: the shuffled wall, the banker, and the table as the last round left
it, where tiles may have been asked for by the debug operation. -/
structure Deal where
  wall : List ℕ
  perm : wall.Perm wallTiles
  banker : Seat
  last : Table
  asked : ∀ pos byteCard, last.testPlayerNeedCard pos = some byteCard →
    ∃ b, fromOld2NowCardByteMap b = some byteCard

/-- The loop of `GameBegin:buHuaNew` for a player, while there are tiles in the wall. -/
def buHuaNew (player : MJPlayer) : List ℕ → MJPlayer × List ℕ
  | [] => (player, [])
  | newByteCard :: wall =>
    if player.hasHua huaList then
      let huaByteCard := player.getHua huaList
      let r := (player.addHuaWithoutHis huaByteCard).delHandCard huaByteCard
      if !r.1 then buHuaNew ((r.2.delNewCard huaByteCard).2.addNewCard newByteCard) wall
      else buHuaNew (r.2.addHandCard newByteCard) wall
    else (player, newByteCard :: wall)

/-- `GameBegin:dealHandCardsNew`: the deal, and the exchange of the flowers in the order of the
seats. -/
def dealHandCardsNew (wall : List ℕ) (banker : Seat) : (Seat → MJPlayer) × List ℕ :=
  seats.foldl
    (fun r pos =>
      let d := buHuaNew (r.1 pos) r.2
      (Function.update r.1 pos d.1, d.2))
    (dealHandCards wall banker)

/-- `GamePlaying:onEntry` after dealing; callbacks of the last round may still be waiting. -/
def onEntry (gameProgress : GameProgress) (d : Deal) : Table :=
  let r := dealHandCardsNew d.wall d.banker
  checkMyOper gameProgress
    { mjWall := r.2
      playerList := r.1
      riverCardList := fun _ => []
      playerGrabMgr := d.last.playerGrabMgr.clear
      mjCancelMgr := d.last.mjCancelMgr.clear
      playerCanDoMap := fun _ => none
      testPlayerNeedCard := d.last.testPlayerNeedCard
      isQiangGanging := false
      qiangGangInfo := d.last.qiangGangInfo
      multiHuPos := []
      timers := d.last.timers
      endArgs := none } d.banker true

/-- A message of a seat, or a timer that fires. -/
inductive Event where
  | clientMsg (pos : Seat) (pkg : ClientMsg)
  | buHua (turn : Seat)

/-- An event with the answers given while it is handled. After an error the round goes on from the
state left behind; once it is over, events no longer come here. -/
def step (s : Table) (e : GameProgress × Event) : Option Table :=
  if s.endArgs.isSome then none
  else
    match e.2 with
    | .clientMsg pos pkg => some (onClientMsg e.1 s pos pkg).state
    | .buHua turn =>
      if turn ∈ s.timers then some (buHua e.1 { s with timers := s.timers.erase turn } turn)
      else none

end Nanjing
