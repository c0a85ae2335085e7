import JsmjServer.Nanjing.GamePlaying
import JsmjServer.Nanjing.Accounts

set_option relaxedAutoImplicit false
set_option autoImplicit false

/-!
# A nanjing room

The rounds of a VIP room with their payments: the handlers of
`nanjingmj/game_state/GamePlaying.lua` that move scores, the end of a round in `GameEnd.lua`, and
how the rounds follow each other. What the handlers do at the table is in `Nanjing.GamePlaying`;
there the accounts are answers from outside, here they are part of the state.

## Main definitions

* `Nanjing.Room` — the table, the accounts, and what `GameProgress` keeps from round to round.
* `Nanjing.Room.doGang`, `Nanjing.Room.doMXGang`, `Nanjing.Room.doAnGang`, `Nanjing.Room.buHua`,
  `Nanjing.Room.onPlayCard`, `Nanjing.Room.cancelEnd` — the handlers that pay.
* `Nanjing.Room.gameEnd` — `GameEnd:onEntry` with `loopTo`.
* `Nanjing.Room.step` — the system.

## Implementation notes

The answers of `CountHuType` come with the event. A handler that ends the round does nothing after
it, so that the round is settled when the handler has returned. A flower timer fires in every state
of the room, also after its last round. What a new round takes over from the last one is the field
`last` of the deal, which may be any table; the wall, the first banker and the seats that take part
are not decided here. Nothing is booked in another order than in the source, except that the list
of kong payments and that of the scores, which do not depend on each other, grow in one step.
-/

namespace Nanjing

open Mahjong

/-- The state `curGameState`; while the tiles are dealt nothing happens that matters here. -/
inductive GameState
  | waitBegin | gamePlaying | gameEnd
  deriving DecidableEq

/-- A VIP room. The accounts are those of `GameProgress`, `qiangGangMoney` is the payment kept in
`qiangGangInfo`, and `banker` is missing before the first round. -/
structure Room where
  table : Table
  accounts : Accounts
  huaGangList : Seat → List ℕ
  qiangGangMoney : Option (Seat → ℤ)
  banker : Option Seat
  isBiXiaHu : Bool
  hasFaFen : Bool
  hasHuaGang : Bool
  curGameState : GameState
  isDisband : Bool

/-- What is asked of `CountHuType` while an event is handled: the evaluations during the round,
those of the winners at its end, and whether one of them stops with an error. -/
structure Asked where
  countHuType : Seat → Option ℕ → CountHuType
  evaluate : Seat → Evaluation
  stops : Bool

/-- `NJMJPlayer:isHuaGang`: the list of flower kongs with the new one, if the flower makes one. -/
def isHuaGang (huaGangList huaList : List ℕ) (byteCard : ℕ) : Option (List ℕ) :=
  if byteCard ∈ huaGangList then none
  else if 4 ≤ huaList.count byteCard then some (huaGangList ++ [byteCard])
  else if 44 ∉ huaGangList ∧ byteCard ∈ [41, 42, 43, 44] ∧ ∀ v ∈ [41, 42, 43, 44], v ∈ huaList then
    some (huaGangList ++ [44])
  else if 48 ∉ huaGangList ∧ byteCard ∈ [45, 46, 47, 48] ∧ ∀ v ∈ [45, 46, 47, 48], v ∈ huaList then
    some (huaGangList ++ [48])
  else none

/-- `isGeng4`: the last tiles of the other rivers are this one. -/
def isGeng4 (table : Table) (pos : Seat) (byteCard : ℕ) : Bool :=
  [pos - 1, pos - 2, pos - 3].all fun prevTurn =>
    (table.riverCardList prevTurn).getLast? == some byteCard

namespace Room

/-- The state a handler leaves, having finished (`ok`) or stopped with a runtime error. -/
abbrev Handled := Except Room Room

/-- The state left behind. -/
def Handled.state : Handled → Room
  | .ok s => s
  | .error s => s

section Handlers

variable (rule : RoomRule) (ask : Seat → Option ℕ → CountHuType)

/-- The answers to what `GamePlaying` asks at this moment. -/
def gameProgress (s : Room) : GameProgress where
  countHuType := ask
  isOut := fun pos => rule.isJYZ && s.accounts.leftMoney pos ≤ 0
  getJYZCount := s.accounts.getJYZCount rule

/-- A payment for a kong: `updatePlayersMoney` and `addRoundGangScore`. -/
def bookGang (s : Room) (tbMoney : Seat → ℤ) : Room :=
  { s with accounts := (s.accounts.addRoundScore rule tbMoney).addRoundGangScore tbMoney }

/-- `GamePlaying:giveNewCard`. -/
def giveNewCard (s : Room) (turn : Seat) : Room :=
  { s with table := Nanjing.giveNewCard (s.gameProgress rule ask) s.table turn }

/-- `GamePlaying:buHua`. -/
def buHua (s : Room) (turn : Seat) : Room :=
  let player := s.table.playerList turn
  if player.hasHua huaList then
    let huaByteCard := player.getHua huaList
    let player := player.addHua huaByteCard
    let s :=
      match isHuaGang (s.huaGangList turn) player.huaList huaByteCard with
      | none => s
      | some huaGangList =>
        bookGang rule { s with
          huaGangList := Function.update s.huaGangList turn huaGangList
          hasHuaGang := true } (huaGangFee rule s.accounts s.isBiXiaHu turn)
    giveNewCard rule ask
      { s with table := s.table.setPlayer turn (player.delNewCard huaByteCard).2 } turn
  else s

/-- `GamePlaying:doPeng`. -/
def doPeng (s : Room) (pos : Seat) (byteCard : ℕ) (grabedPos : Seat) : Bool × Room :=
  let r := Nanjing.doPeng (s.gameProgress rule ask) s.table pos byteCard grabedPos
  (r.1, { s with table := r.2 })

/-- `GamePlaying:doGang`. -/
def doGang (s : Room) (pos : Seat) (byteCard : ℕ) (grabedPos : Seat) : Bool × Room :=
  let r := (s.table.playerList pos).doGang byteCard grabedPos
  if r.1 then
    let table := s.table.setPlayer pos r.2
    let table := table.setRiver grabedPos (MJRiver.popCard (table.riverCardList grabedPos))
    let s := bookGang rule { s with table := table }
      (oneFee rule s.accounts s.isBiXiaHu pos grabedPos)
    (true, giveNewCard rule ask s pos)
  else (false, s)

/-- `GamePlaying:doMXGang`. The payment for a kong that may be robbed is kept for later. -/
def doMXGang (s : Room) (pos : Seat) (byteCard : ℕ) : Handled :=
  let player := s.table.playerList pos
  let r := player.doMXGang byteCard
  if r.1 then
    let s := { s with table := s.table.setPlayer pos r.2 }
    match (player.pileList.find? (MJPlayer.isPengOf byteCard)).bind MJPile.fromPos with
    | none => .error s
    | some fromPos =>
      let tbMoney := oneFee rule s.accounts s.isBiXiaHu pos fromPos
      match checkOtherOper (s.gameProgress rule ask) s.table pos byteCard true with
      | .error table => .error { s with table := table }
      | .ok c =>
        if c.1 then
          .ok { s with
            table := autoHu { c.2.2 with isQiangGanging := true, qiangGangInfo := some pos }
              c.2.1 byteCard
            qiangGangMoney := some tbMoney }
        else .ok (giveNewCard rule ask (bookGang rule { s with table := c.2.2 } tbMoney) pos)
  else .ok s

/-- `GamePlaying:doAnGang`. -/
def doAnGang (s : Room) (pos : Seat) (byteCard : ℕ) (grabedPos : Seat) : Room :=
  let r := (s.table.playerList pos).doAnGang byteCard grabedPos
  if r.1 then
    let s := bookGang rule { s with table := s.table.setPlayer pos r.2 }
      (anGangFee rule s.accounts s.isBiXiaHu pos)
    giveNewCard rule ask s pos
  else s

/-- A fine: `broadcastOutCardMoney`, which notes it even when nothing is paid. -/
def faFen (s : Room) (loser : Seat) : Handled :=
  let s := { s with hasFaFen := true }
  match broadcastOutCardMoney rule s.accounts s.isBiXiaHu loser with
  | none => .error s
  | some accounts => .ok { s with accounts := accounts }

/-- The fines in `onPlayCard`: for the fourth tile of a kind in a river, and for a tile that all
four seats have played in turn, which the one who began pays. -/
def faFens (s : Room) (pos : Seat) (byteCard : ℕ) : Handled :=
  (if (s.table.riverCardList pos).count byteCard = 4 then faFen rule s pos else .ok s).bind fun s =>
    if isGeng4 s.table pos byteCard then faFen rule s (nextPlayerPos pos) else .ok s

/-- `GamePlaying:onPlayCard`. -/
def onPlayCard (s : Room) (pos : Seat) (card : Option ℕ) : Handled :=
  match card with
  | none => .error s
  | some byteCard =>
    if !s.table.playerGrabMgr.hasOper pos .play then .ok s
    else
      let r := (s.table.playerList pos).doPlayCard byteCard
      if !r.1 then .ok s
      else
        (faFens rule { s with table := discard s.table pos byteCard r.2 } pos byteCard).bind fun s =>
          match checkOtherOper (s.gameProgress rule ask) s.table pos byteCard false with
          | .error table => .error { s with table := table }
          | .ok c =>
            if !c.1 then .ok (giveNewCard rule ask { s with table := c.2.2 } (nextPlayerPos pos))
            else .ok { s with table := autoHu c.2.2 c.2.1 byteCard }

/-- The branch of `grabEnd` for a choice to cancel. The payment kept for a kong that has not been
robbed is booked in `roundScoreList` only. -/
def cancelEnd (s : Room) (pos grabedPos : Seat) : Handled :=
  if s.table.isQiangGanging then
    match s.table.qiangGangInfo, s.qiangGangMoney with
    | some tPos, some tbMoney =>
      .ok (giveNewCard rule ask { s with
        accounts := s.accounts.addRoundScore rule tbMoney
        table := { s.table with isQiangGanging := false, qiangGangInfo := none }
        qiangGangMoney := none } tPos)
    | _, _ => .error s
  else
    match s.table.playerCanDoMap pos with
    | none => .error s
    | some map =>
      if .play ∈ map.operList.getD [] then .ok s
      else .ok (giveNewCard rule ask s (nextPlayerPos grabedPos))

/-- `GamePlaying:grabEnd`. -/
def grabEnd (s : Room) : Handled :=
  match s.table.playerGrabMgr.pos with
  | none => .error s
  | some grabedPos =>
    match s.table.playerGrabMgr.getPowestNode with
    | none => .ok (giveNewCard rule ask s (nextPlayerPos grabedPos))
    | some node =>
      match node.operList.head?, node.byteCard with
      | some .cancel, _ => cancelEnd rule ask s node.pos grabedPos
      | _, none => .error s
      | some .hu, some byteCard => .ok { s with table := doHu s.table node.pos byteCard }
      | some .peng, some byteCard =>
        let r := doPeng rule ask s node.pos byteCard grabedPos
        if r.1 then .ok r.2 else .ok (giveNewCard rule ask r.2 (nextPlayerPos grabedPos))
      | some .ag, some byteCard => .ok (doAnGang rule ask s node.pos byteCard grabedPos)
      | some .mg, some byteCard =>
        let r := doGang rule ask s node.pos byteCard grabedPos
        if r.1 then .ok r.2 else .ok (giveNewCard rule ask r.2 (nextPlayerPos grabedPos))
      | some .mxg, some byteCard => doMXGang rule ask s node.pos byteCard
      | some .play, some byteCard => onPlayCard rule ask s node.pos (some byteCard)
      | _, _ => .ok s

/-- The end of `onGrabCard`. -/
def decideOrWait (s : Room) : Handled :=
  match s.table.playerGrabMgr.needWait with
  | none => .error s
  | some false => grabEnd rule ask s
  | some true => .ok s

/-- `GamePlaying:onGrabCard`. -/
def onGrabCard (s : Room) (pos : Seat) (oper : Oper) (card : Option ℕ) : Handled :=
  if !s.table.playerGrabMgr.hasOper pos oper then .ok s
  else
    match s.table.playerCanDoMap pos with
    | none => .ok s
    | some canDoMap =>
      match canDoMap.cards oper with
      | none => .ok s
      | some cardList =>
        if oper = .cancel then
          let table := clearCanDoMap { s.table with
            playerGrabMgr := (s.table.playerGrabMgr.playerDoGrab pos oper (some 1)).2 } pos
          let table :=
            if (table.playerList pos).hasNewCard then table
            else { table with mjCancelMgr := addCancelOpers table.mjCancelMgr pos canDoMap }
          decideOrWait rule ask { s with table := table }
        else
          match card with
          | none => .error s
          | some byteCard =>
            if byteCard ∈ cardList then
              decideOrWait rule ask { s with table := clearCanDoMap { s.table with
                playerGrabMgr :=
                  (s.table.playerGrabMgr.playerDoGrab pos oper (some byteCard)).2 } pos }
            else .ok s

/-- `GamePlaying:onClientMsg`. -/
def onClientMsg (s : Room) (pos : Seat) (pkg : ClientMsg) : Handled :=
  let card := fromOld2NowCardByteMap pkg.card_bytes
  match Oper.ofCode pkg.operation with
  | some .play => onPlayCard rule ask s pos card
  | some .syncData => .ok s
  | some .testNeedCard =>
    .ok { s with table := { s.table with
      testPlayerNeedCard := Function.update s.table.testPlayerNeedCard pos card } }
  | some oper => onGrabCard rule ask s pos oper card
  | none => .ok s

end Handlers

/-! ### Rounds -/

section Rounds

variable (rule : RoomRule)

/-- `GameProgress:isVIPOver`. -/
def isVIPOver (s : Room) (isbegin : Bool) : Bool :=
  (if isbegin then rule.RoundCount < s.accounts.roundCount
    else rule.RoundCount ≤ s.accounts.roundCount) || 2 ≤ s.accounts.getJYZCount rule

/-- `GameProgress:clear`. -/
def clear (s : Room) : Room :=
  { s with
    table := { s.table with
      playerList := fun _ => MJPlayer.new
      riverCardList := fun _ => [] }
    huaGangList := fun _ => []
    hasFaFen := false
    hasHuaGang := false }

/-- `GameEnd:loopTo`: the next round may begin, or the room is disbanded. -/
def loopTo (s : Room) : Room :=
  if !s.isVIPOver rule false then
    let s := s.clear
    { s with
      accounts := { s.accounts with roundCount := s.accounts.roundCount + 1 }
      curGameState := .waitBegin }
  else { s with curGameState := .waitBegin, isDisband := true }

/-- Whether scores are doubled in the round after one that is won. -/
def biXiaHu (evaluate : Seat → Evaluation) (s : Room) (winnerPosList : List Seat) : Bool :=
  s.banker.any (· ∈ winnerPosList) ||
    (winnerPosList.any fun winPos => (evaluate winPos).hasGangKai ||
      ((evaluate winPos).baoPai rule).isSome || 1 < winnerPosList.length || s.hasHuaGang ||
        s.hasFaFen) ||
    rule.isJieZhuangBiXiaHu && s.banker.any fun banker => winnerPosList == [nextPlayerPos banker]

/-- `GameEnd:onEntry`. A settlement that stops leaves the room in this state. -/
def gameEnd (asked : Asked) (s : Room) (args : EndArgs) : Room :=
  let s := { s with curGameState := .gameEnd, table := { s.table with endArgs := none } }
  if args.isLiuJu then
    loopTo rule { s with
      accounts := s.accounts.addRoundScore rule fun _ => 0
      banker := s.banker.map nextPlayerPos }
  else if asked.stops then s
  else
    match calculateMoney rule s.accounts.leftMoney asked.evaluate args with
    | none => s
    | some money =>
      loopTo rule { s with
        isBiXiaHu := biXiaHu rule asked.evaluate s args.winnerPosList
        banker := if s.banker.any (· ∈ args.winnerPosList) then s.banker
          else s.banker.map nextPlayerPos
        accounts := s.accounts.addSettlement rule money }

/-- A round that has ended is settled. -/
def settle (asked : Asked) (s : Room) : Room :=
  match s.table.endArgs with
  | none => s
  | some args => gameEnd rule asked s args

/-- `GameBegin:onEntry` and the deal. Without jin-yuan-zi the seats begin each round with the
limit. -/
def gameBegin (asked : Asked) (s : Room) (d : Deal) : Room :=
  let s := s.clear
  let s := if rule.isJYZ then s
    else { s with accounts := { s.accounts with leftMoney := fun _ => rule.limitScore } }
  { s with
    curGameState := .gamePlaying
    banker := some d.banker
    table := onEntry (s.gameProgress rule asked.countHuType) d }

/-- What happens in a room: a round begins, a client sends a message or a flower timer fires, or the
room is disbanded by vote. -/
inductive RoomEvent
  | gameStart (d : Deal)
  | play (e : Event)
  | disband

/-- A room before its first round. -/
def opened : Room where
  table := newTable
  accounts := ⟨fun _ => rule.limitScore, 1, fun _ => none, fun _ => none, fun _ => none, fun _ => none⟩
  huaGangList := fun _ => []
  qiangGangMoney := none
  banker := none
  isBiXiaHu := false
  hasFaFen := false
  hasHuaGang := false
  curGameState := .waitBegin
  isDisband := false

/-- The event is handled, but the round not yet settled when it has ended. -/
def handle (asked : Asked) (s : Room) : RoomEvent → Option Room
  | .gameStart d =>
    if s.curGameState ≠ .waitBegin ∨ s.isDisband then none
    else if s.isVIPOver rule true then some { s with isDisband := true }
    else if s.banker.all (· = d.banker) then some (gameBegin rule asked s d)
    else none
  | .play (.clientMsg pos pkg) =>
    if s.curGameState = .gamePlaying then some (onClientMsg rule asked.countHuType s pos pkg).state
    else none
  | .play (.buHua turn) =>
    if turn ∈ s.table.timers then
      some (buHua rule asked.countHuType
        { s with table := { s.table with timers := s.table.timers.erase turn } } turn)
    else none
  | .disband => some { s with curGameState := .waitBegin, isDisband := true }

/-- One event, with what is asked while it is handled. -/
def step (s : Room) (e : Asked × RoomEvent) : Option Room :=
  (handle rule e.1 s e.2).map (settle rule e.1)

end Rounds

end Room

end Nanjing
