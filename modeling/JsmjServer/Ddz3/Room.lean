import JsmjServer.Ddz3.CardAlgorithm
import JsmjServer.Lib.Runs
import Mathlib.Data.Fin.Basic
import Mathlib.Logic.Function.Basic
import Mathlib.Algebra.Order.Ring.Int
import JsmjServer.Lib.Sizes

set_option relaxedAutoImplicit false
set_option autoImplicit false

/-!
# The room of the three-player landlord game

The state machine of `ddz3/room.lua`, with the cards of `CardPool.lua`, `CardConstant.lua` and
`PokerPlayer.lua`. A deal goes through the timed steps of `PokerDeskLogic`: the cards are sent, the
seats call points and grab the landlord, the landlord gets the base cards, the score may be
doubled, and the seats play until a hand is empty. A step is scheduled with a time and switched to
by the timer; meanwhile the room still handles the operations of the old step.

## Main definitions

* `Ddz3.Room` — the fields of the room and the hands of the three seats.
* `Ddz3.onGameTimer`, `Ddz3.onPlayerOperation`, `Ddz3.onUserCutBack` — the handlers.
* `Ddz3.step` — the room as a transition function of clocked events.

## Design

`maxPlayer` is 3 and a game starts with all seats taken, so positions are `Fin 3` and no lookup of
a player fails. A handler that raises an error leaves the state as it was at that moment: its
result is then the `error` that carries this state. Every event gives the time at which it is
handled and the order of the cards should the handler shuffle a deck.
-/

namespace Ddz3

/-! ### Cards -/

/-- A position at the table. -/
abbrev Seat := Fin 3

/-- `CardConstant.getCardSuit`. -/
def getCardSuit (card : ℤ) : ℤ := card / 16

/-- `CardConstant.getCardValue`. -/
def getCardValue (card : ℤ) : ℤ := card - getCardSuit card * 16

/-- `CardConstant.isValidCardByte`. -/
def isValidCardByte (card : ℤ) : Bool :=
  if 1 ≤ getCardSuit card ∧ getCardSuit card ≤ 4 then
    1 ≤ getCardValue card ∧ getCardValue card ≤ value2
  else if getCardSuit card = 5 then
    getCardValue card = valueBlack ∨ getCardValue card = valueRed
  else false

/-- `CardPool:InitPoker(true)`: the values 3 to 2 of the four suits and the two jokers. -/
def initPoker : List ℤ :=
  ((List.range' 1 4).flatMap fun suit => (List.range' 1 13).map fun value =>
    (suit * 16 + value : ℤ)) ++ [5 * 16 + 15, 5 * 16 + 14]

/-- A shuffled pool; its head is the card that `popCard` takes next. -/
abbrev Pool := {cards : List ℤ // cards.Perm initPoker}

/-- `CardPool:popCard`, which returns 0 when the pool is empty. -/
def popCard : List ℤ → ℤ × List ℤ
  | [] => (0, [])
  | card :: rest => (card, rest)

/-- `n` calls of `popCard`, in their order, and the pool after them. -/
def popCards : ℕ → List ℤ → List ℤ × List ℤ
  | 0, pool => ([], pool)
  | n + 1, pool =>
    let (card, rest) := popCard pool
    let (cards, rest) := popCards n rest
    (card :: cards, rest)

/-- `CardConstant.sortPlayerHandCards`: by value, then by suit. -/
def sortPlayerHandCards (cards : List ℤ) : List ℤ :=
  cards.insertionSort fun a b => getCardValue a < getCardValue b ∨
    getCardValue a = getCardValue b ∧ getCardSuit a ≤ getCardSuit b

/-- `PokerPlayer:hasCards`. -/
def hasCards (hand : List ℤ) : List ℤ → Bool
  | [] => true
  | card :: rest => if card ∈ hand then hasCards (hand.erase card) rest else false

/-- `PokerPlayer:removeCards`. -/
def removeCards (hand : List ℤ) : List ℤ → List ℤ
  | [] => hand
  | card :: rest => removeCards (hand.erase card) rest

/-- `room:tanslateCardsToValues`: no values for no cards or an invalid card. -/
def tanslateCardsToValues (cards : List ℤ) : Option (List ℕ) :=
  if cards = [] then none
  else if cards.all isValidCardByte then some (cards.map fun card => (getCardValue card).toNat)
  else none

/-! ### The state -/

/-- The steps of `PokerDeskLogic`. -/
inductive LogicStep
  | idle
  | sendCards
  | callPoints
  | grabLandLord
  | sendBaseCards
  | doubleScore
  | outCard
  | stepEnd
  deriving DecidableEq, Repr

/-- The operations of `PokerDeskLogic`; `other` stands for every other code. -/
inductive Operation
  | callPoints
  | callPointsPass
  | grabLandLord
  | grabLandLordPass
  | outCard
  | outCardPass
  | doubleScore
  | other
  deriving DecidableEq, Repr

/-- An entry of `outCards`: the cards of a play with the seat that played them, or the empty
table that marks the start of a new trick. -/
structure OutCardInfo where
  cards : List ℤ
  pos : Option Seat
  deriving DecidableEq, Repr

/-- The fields of the room. `next` holds `nextLogicStep` and `nextLogicSwitchTime`, which the code
sets and clears together. The fields of a step are `nil` in the code before the step is started,
and first read after that. -/
structure Room where
  cardPool : List ℤ := []
  hands : Seat → List ℤ := fun _ => []
  operationSeq : ℕ := 0
  outCards : List OutCardInfo := []
  logicStep : LogicStep := .idle
  next : Option (LogicStep × ℕ) := none
  operationTimeoutTime : Option ℕ := none
  zhuangPos : Seat := 0
  callPointsPos : Seat := 0
  firstCallPointsPos : Seat := 0
  maxCallPointsPos : Seat := 0
  callPoints : ℤ := 0
  grabLandLordPos : Seat := 0
  landLordPos : Seat := 0
  cannotGrabPos : List Seat := []
  grabLandLordScoreMulti : ℕ := 1
  grabLandLordCounts : ℕ := 0
  baseCards : List ℤ := []
  doubleScoreMulti : ℕ := 1
  outCardPos : Seat := 0
  winnerPos : Option Seat := none
  landLordWin : Option Bool := none
  isPlaying : Bool := false

/-- `stepInterval`. -/
def stepInterval : ℕ := 10

/-- `stepInterval + 4000/stepInterval`. -/
def dealInterval : ℕ := 410

/-- `gtimerSeconds * siTimeRate`. -/
def operationTimeout : ℕ := 2000

/-- `gtimeoutForDoubleScore`. -/
def timeoutForDoubleScore : ℕ := 500

/-- `grabLandLordUpLimit`. -/
def grabLandLordUpLimit : ℕ := 3

/-- `baseroom:getNextPosition`. -/
def getNextPosition (pos : Seat) : Seat := pos + 1

/-- The clock and the shuffled deck that an event meets. -/
structure Tick where
  now : ℕ
  shuffled : Pool

/-- `room:logicStartStep`. -/
def logicStartStep (r : Room) (k : Tick) (step : LogicStep) (interval : ℕ) : Room :=
  { r with next := some (step, k.now + interval) }

/-- `room:logicStopStep`. -/
def logicStopStep (r : Room) : Room := { r with next := none }

/-- `room:logicStartTimeout`. -/
def logicStartTimeout (r : Room) (k : Tick) (ms : ℕ) : Room :=
  { r with operationTimeoutTime := some (k.now + ms) }

/-- `room:logicStopTimeout`. -/
def logicStopTimeout (r : Room) : Room := { r with operationTimeoutTime := none }

/-- `room:incOperationSeq`. -/
def incOperationSeq (r : Room) : Room := { r with operationSeq := r.operationSeq + 1 }

/-! ### The timed steps -/

/-- `room:startStepSendCards`. -/
def startStepSendCards (r : Room) (k : Tick) : Room :=
  logicStartStep { r with cardPool := k.shuffled.1 } k .sendCards dealInterval

/-- `room:startStepCallPoints`. -/
def startStepCallPoints (r : Room) (k : Tick) : Room :=
  logicStartStep
    { r with
      callPointsPos := r.zhuangPos
      firstCallPointsPos := r.zhuangPos
      maxCallPointsPos := r.zhuangPos
      callPoints := 0
      zhuangPos := getNextPosition r.zhuangPos } k .callPoints dealInterval

/-- The body of the loop of `onStepSendCards`: 17 cards to one seat, sorted. -/
def sendCardsTo (r : Room) (pos : Seat) : Room :=
  let cards := popCards 17 r.cardPool
  { r with
    cardPool := cards.2
    hands := Function.update r.hands pos (sortPlayerHandCards (r.hands pos ++ cards.1)) }

/-- `room:onStepSendCards`. The code goes through the seats in the order of a hash table; every
order is the order of the seats for another shuffle. -/
def onStepSendCards (r : Room) (k : Tick) : Room :=
  startStepCallPoints (sendCardsTo (sendCardsTo (sendCardsTo (incOperationSeq r) 0) 1) 2) k

/-- `room:onStepCallPoints`. -/
def onStepCallPoints (r : Room) (k : Tick) : Room :=
  logicStartTimeout (incOperationSeq r) k operationTimeout

/-- `room:startStepGrabLandLord`. -/
def startStepGrabLandLord (r : Room) (k : Tick) : Room :=
  logicStartStep
    { r with
      grabLandLordPos := getNextPosition r.maxCallPointsPos
      landLordPos := r.maxCallPointsPos
      cannotGrabPos := []
      grabLandLordScoreMulti := 1
      grabLandLordCounts := 0 } k .grabLandLord stepInterval

/-- `room:onStepGrabLandLord`. -/
def onStepGrabLandLord (r : Room) (k : Tick) : Room :=
  logicStartTimeout (incOperationSeq r) k operationTimeout

/-- `room:startStepDoubleScore`. -/
def startStepDoubleScore (r : Room) (k : Tick) : Room :=
  logicStartStep { r with doubleScoreMulti := 1 } k .doubleScore stepInterval

/-- `room:onStepDoubleScore`. -/
def onStepDoubleScore (r : Room) (k : Tick) : Room :=
  logicStartTimeout (incOperationSeq r) k timeoutForDoubleScore

/-- `room:onStepSendBaseCards`. -/
def onStepSendBaseCards (r : Room) (k : Tick) : Room :=
  let cards := popCards 3 r.cardPool
  startStepDoubleScore
    { incOperationSeq r with
      baseCards := cards.1
      cardPool := cards.2
      hands := Function.update r.hands r.landLordPos (r.hands r.landLordPos ++ cards.1) } k

/-- `room:startStepOutCard`. -/
def startStepOutCard (r : Room) (k : Tick) : Room :=
  logicStartStep { r with outCardPos := r.landLordPos } k .outCard stepInterval

/-- `room:onStepOutCard`. -/
def onStepOutCard (r : Room) (k : Tick) : Room :=
  logicStartTimeout (incOperationSeq r) k operationTimeout

/-- `room:startStepEnd`. -/
def startStepEnd (r : Room) (k : Tick) : Room :=
  logicStartStep { r with landLordWin := some (r.winnerPos == some r.landLordPos) } k .stepEnd
    stepInterval

/-- `room:clearResource`. -/
def clearResource (r : Room) : Room :=
  { r with hands := fun _ => [], outCards := [], landLordWin := none }

/-- `room:onStepEnd`, with the `GameEnd` of the base room. The money is booked by the players'
agents and does not come back into the room. -/
def onStepEnd (r : Room) : Room :=
  { clearResource (incOperationSeq (logicStopTimeout (logicStopStep r))) with isPlaying := false }

/-- `room:onStepSwitch`. -/
def onStepSwitch (r : Room) (k : Tick) : LogicStep → Room
  | .sendCards => onStepSendCards r k
  | .callPoints => onStepCallPoints r k
  | .grabLandLord => onStepGrabLandLord r k
  | .doubleScore => onStepDoubleScore r k
  | .sendBaseCards => onStepSendBaseCards r k
  | .outCard => onStepOutCard r k
  | .stepEnd => onStepEnd r
  | .idle => r

/-! ### The operations -/

/-- The result of a handler: the room, or the room at the moment an error was raised. -/
abbrev Outcome := Except Room Room

/-- The room a handler leaves behind. -/
def Outcome.room : Outcome → Room
  | .ok r => r
  | .error r => r

/-- `room:onPlayerOperationStepCallPoints`. A call without a parameter compares `nil` with a
number, which is an error. -/
def onPlayerOperationStepCallPoints (r : Room) (k : Tick) (pos : Seat) (op : Operation)
    (param : Option ℤ) : Outcome :=
  if pos ≠ r.callPointsPos then .ok r
  else if op = .callPoints then
    match param with
    | none => .error r
    | some points =>
      if points > r.callPoints then
        let r : Room := { r with callPoints := points, maxCallPointsPos := pos }
        if points = 3 then .ok (logicStopTimeout (startStepGrabLandLord r k))
        else
          let nextCallPos := getNextPosition pos
          if nextCallPos = r.firstCallPointsPos then
            .ok (logicStopTimeout (startStepGrabLandLord r k))
          else
            .ok (logicStopTimeout
              (logicStartStep { r with callPointsPos := nextCallPos } k .callPoints stepInterval))
      else .ok r
  else if op = .callPointsPass then
    let nextCallPos := getNextPosition pos
    if r.callPoints = 0 ∧ nextCallPos = r.firstCallPointsPos then
      .ok (logicStopTimeout (startStepSendCards r k))
    else
      .ok (logicStopTimeout
        (logicStartStep { r with callPointsPos := nextCallPos } k .callPoints stepInterval))
  else .ok r

/-- `room:grabLandLordLimit`: whether the limit is reached. -/
def grabLandLordLimit (r : Room) (k : Tick) (pos : Seat) : Room × Bool :=
  if r.maxCallPointsPos = pos then
    let r : Room := { r with grabLandLordCounts := r.grabLandLordCounts + 1 }
    if r.grabLandLordCounts ≥ grabLandLordUpLimit then
      (logicStartStep r k .sendBaseCards stepInterval, true)
    else (r, false)
  else (r, false)

/-- The `while true` loop of `onPlayerOperationGrabLandLord`: the next seat after `pos` that has
not passed, or `stop`. No seat is returned when the limit is reached on the way, and nothing when
the loop takes more than `fuel` turns. -/
def nextGrabPos (stop : Seat) (k : Tick) : ℕ → Room → Seat → Option (Room × Option Seat)
  | 0, _, _ => none
  | fuel + 1, r, pos =>
    let nextPos := getNextPosition pos
    let canGrab := nextPos ∉ r.cannotGrabPos
    let limit := grabLandLordLimit r k nextPos
    if limit.2 then some (limit.1, none)
    else if canGrab ∨ nextPos = stop then some (limit.1, some nextPos)
    else nextGrabPos stop k fuel limit.1 nextPos

/-- What both branches of `onPlayerOperationGrabLandLord` do with the seat they found. When the
limit was reached they return at once and leave the timeout running. -/
def grabNext (r : Room) (k : Tick) (found : Option (Room × Option Seat)) : Outcome :=
  match found with
  | none => .error r
  | some (r, none) => .ok r
  | some (r, some nextPos) =>
    if nextPos = r.landLordPos then
      .ok (logicStopTimeout (logicStartStep r k .sendBaseCards stepInterval))
    else
      .ok (logicStopTimeout
        (logicStartStep { r with grabLandLordPos := nextPos } k .grabLandLord stepInterval))

/-- `room:onPlayerOperationGrabLandLord`. Both loops end within three turns
(`nextGrabPos_terminates`). -/
def onPlayerOperationGrabLandLord (r : Room) (k : Tick) (pos : Seat) (op : Operation) : Outcome :=
  if pos ≠ r.grabLandLordPos then .ok r
  else if op = .grabLandLord then
    let r : Room := { r with
      landLordPos := pos, grabLandLordScoreMulti := r.grabLandLordScoreMulti * 2 }
    grabNext r k (nextGrabPos pos k 3 r pos)
  else if op = .grabLandLordPass then
    let r : Room := { r with cannotGrabPos := r.cannotGrabPos ++ [pos] }
    grabNext r k (nextGrabPos r.landLordPos k 3 r pos)
  else .ok r

/-- `room:onPlayerOperationDoubleScore`. -/
def onPlayerOperationDoubleScore (r : Room) (op : Operation) : Outcome :=
  if op = .doubleScore then .ok { r with doubleScoreMulti := r.doubleScoreMulti * 2 } else .ok r

/-- The part of `onPlayerOperationOutCard` that leading and following share: the cards go from
the hand to the play list, and the next seat is asked unless the hand is empty. Only when
following is the timeout stopped after the last card. -/
def playCards (r : Room) (k : Tick) (pos : Seat) (cards : List ℤ) (leading : Bool) : Room :=
  let hand := removeCards (r.hands pos) cards
  let r : Room := { r with
    outCards := r.outCards ++ [{ cards := cards, pos := some pos }]
    hands := Function.update r.hands pos hand }
  if hand.length = 0 then
    let r := startStepEnd { r with winnerPos := some pos } k
    if leading then r else logicStopTimeout r
  else
    logicStopTimeout (logicStartStep { r with outCardPos := getNextPosition r.outCardPos } k .outCard
      stepInterval)

/-- `room:onPlayerOperationOutCard`. -/
def onPlayerOperationOutCard (r : Room) (k : Tick) (pos : Seat) (op : Operation)
    (cards : Option (List ℤ)) : Outcome :=
  let r := incOperationSeq r
  if pos ≠ r.outCardPos then .ok r
  else if op = .outCard then
    match cards with
    | none => .error r
    | some cards =>
      if cards.length = 0 then .ok r
      else if !hasCards (r.hands pos) cards then .ok r
      else
        let lastOutCardList := (r.outCards.getLast?.map OutCardInfo.cards).getD []
        if lastOutCardList.length = 0 then
          match matchPockerType (tanslateCardsToValues cards) with
          | none => .error r
          | some tp => if !tp.bFind then .ok r else .ok (playCards r k pos cards true)
        else
          match matchPockerType (tanslateCardsToValues cards),
            matchPockerType (tanslateCardsToValues lastOutCardList) with
          | some cardsAType, some cardsBType =>
            let more := getMaxPockerType cardsAType cardsBType
            if !more.1 then .ok r
            else if 0 ≥ more.2 then .ok r
            else .ok (playCards r k pos cards false)
          | _, _ => .error r
  else if op = .outCardPass then
    match r.outCards.getLast? with
    | none => .error r
    | some last =>
      if last.cards.length = 0 then .ok r
      else
        let nextOutCardPos := getNextPosition pos
        let r : Room := if last.pos = some nextOutCardPos then
            { r with outCards := r.outCards ++ [{ cards := [], pos := none }] }
          else r
        .ok (logicStopTimeout
          (logicStartStep { r with outCardPos := nextOutCardPos } k .outCard stepInterval))
  else .ok r

/-- `room:onPlayerOperation`. -/
def onPlayerOperation (r : Room) (k : Tick) (pos : Seat) (op : Operation) (param : Option ℤ)
    (cards : Option (List ℤ)) : Outcome :=
  match r.logicStep with
  | .callPoints => onPlayerOperationStepCallPoints r k pos op param
  | .grabLandLord => onPlayerOperationGrabLandLord r k pos op
  | .doubleScore => onPlayerOperationDoubleScore r op
  | .outCard => onPlayerOperationOutCard r k pos op cards
  | _ => .ok r

/-! ### The timer -/

/-- `room:onTimeoutOutCard`: a leading seat plays its last card, any other passes. -/
def onTimeoutOutCard (r : Room) (k : Tick) : Outcome :=
  let lastOutCardList := (r.outCards.getLast?.map OutCardInfo.cards).getD []
  if lastOutCardList.length = 0 then
    match (r.hands r.outCardPos).getLast? with
    | none => .error r
    | some lastCard => onPlayerOperation r k r.outCardPos .outCard none (some [lastCard])
  else onPlayerOperation r k r.outCardPos .outCardPass none none

/-- `room:onOperationTimeout`. -/
def onOperationTimeout (r : Room) (k : Tick) : Outcome :=
  (match r.logicStep with
    | .callPoints => onPlayerOperation r k r.callPointsPos .callPointsPass none none
    | .grabLandLord => onPlayerOperation r k r.grabLandLordPos .grabLandLordPass none none
    | .doubleScore => .ok (startStepOutCard r k)
    | .outCard => onTimeoutOutCard r k
    | _ => .ok r).map logicStopTimeout

/-- The first half of `room:OnGameTimer`: the switch to the scheduled step when its time is
over. -/
def switchLogicStep (r : Room) (k : Tick) : Room :=
  match r.next with
  | none => r
  | some (step, time) =>
    if k.now > time then onStepSwitch { logicStopStep r with logicStep := step } k step else r

/-- The second half of `room:OnGameTimer`: the operation timeout. -/
def checkOperationTimeout (r : Room) (k : Tick) : Outcome :=
  match r.operationTimeoutTime with
  | none => .ok r
  | some time => if k.now > time then onOperationTimeout r k else .ok r

/-- `room:OnGameTimer`. -/
def onGameTimer (r : Room) (k : Tick) : Outcome :=
  checkOperationTimeout (switchLogicStep r k) k

/-! ### The room as a transition system -/

/-- `room:onUserCutBack`: the hand of the returning player is sorted in place and sent. -/
def onUserCutBack (r : Room) (pos : Seat) : Room :=
  { incOperationSeq r with
    hands := Function.update r.hands pos (sortPlayerHandCards (r.hands pos)) }

/-- `startCommonGame` of the base room, down to `room:GameStart`. -/
def gameStart (r : Room) (k : Tick) : Room :=
  startStepSendCards { r with isPlaying := true } k

/-- What happens to a room. -/
inductive Event
  | start
  | timer
  | operation (pos : Seat) (op : Operation) (param : Option ℤ) (cards : Option (List ℤ))
  | cutBack (pos : Seat)

/-- One event at its time. A game starts only when none is played. -/
def step (r : Room) (e : Tick × Event) : Option Room :=
  match e.2 with
  | .start => if r.isPlaying then none else some (gameStart r e.1)
  | .timer => some (onGameTimer r e.1).room
  | .operation pos op param cards => some (onPlayerOperation r e.1 pos op param cards).room
  | .cutBack pos => some (onUserCutBack r pos)

end Ddz3
