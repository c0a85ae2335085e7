import JsmjServer.Lib.Runs
import Mathlib.Algebra.BigOperators.Group.List.Basic
import Mathlib.Data.List.FinRange
import Mathlib.Data.Fin.Basic
import Mathlib.Data.Int.Basic
import JsmjServer.Lib.Sizes
import Mathlib.Algebra.Order.Ring.Int
import Mathlib.Algebra.Order.Ring.Nat

set_option relaxedAutoImplicit false
set_option autoImplicit false
set_option linter.unusedSectionVars false

/-!
# A hand of texas hold'em

`texas/GameLogic.lua` and `texas/PokerPlayer.lua` from `GameStart` up to the settlement: the
timed steps of a hand and the operations of the players.

## Main definitions

* `Texas.PokerPlayer`, `Texas.GameLogic` — a player and the state of a hand.
* `Texas.GameLogic.onPlayerOperation` — an operation of a player.
* `Texas.GameLogic.onStepSwitch`, `Texas.GameLogic.onOperationTimeout` — the timer.
* `Texas.GameLogic.step` — one event of a run.

## Design

Desk positions `1 .. maxPlayer` are `Fin n`. `OnGameTimer` makes two checks, for a scheduled
step and for an operation that timed out; each is an event of its own. A search for a seat that
Lua would never finish gives `none`. Cards, recorder and notifications are left out, except for
the operations requested of a seat, which an event returns beside the state. An event is handled
as a whole: the calls to the players' agents on the way are taken to return at once.
-/

namespace Texas

/-! ### Constants -/

/-- The steps of a hand. -/
inductive Step
  | begin | firstBet | send2Cards | send2CardsBet | show3Cards | show3CardsBet | show4Cards
  | show4CardsBet | show5Cards | show5CardsBet | stepEnd
  deriving DecidableEq, Repr

/-- The operations, by their codes `1 .. 7`. -/
inductive Operation
  | bet | call | fold | check | raise | reraise | allin
  deriving DecidableEq, Repr

/-- The operation a client's code denotes. -/
def Operation.ofCode (c : ℤ) : Option Operation :=
  if c = 1 then some .bet
  else if c = 2 then some .call
  else if c = 3 then some .fold
  else if c = 4 then some .check
  else if c = 5 then some .raise
  else if c = 6 then some .reraise
  else if c = 7 then some .allin
  else none

/-- The time between two steps, in hundredths of a second. -/
def stepInterval : ℕ := 50

/-! ### Players -/

/-- The logic data of a player. -/
structure PokerPlayer where
  chips : ℤ
  fold : Bool
  operations : List Operation
  betList : List ℤ
  deriving DecidableEq

namespace PokerPlayer

/-- `PokerPlayer:getTotalBet`. -/
def getTotalBet (p : PokerPlayer) : ℤ := p.betList.sum

/-- `PokerPlayer:isAllIn`. -/
def isAllIn (p : PokerPlayer) : Bool := p.chips = 0

/-- `PokerPlayer:setChips` to `chips` less and `PokerPlayer:addBet` of them. -/
def pay (p : PokerPlayer) (amount : ℤ) : PokerPlayer :=
  { p with chips := p.chips - amount, betList := p.betList ++ [amount] }

/-- Neither folded nor all in. -/
def active (p : PokerPlayer) : Bool := !(p.isAllIn || p.fold)

end PokerPlayer

/-! ### The state -/

/-- The state of a hand at a table of `n` seats. `next` is the scheduled step with the time it is
due, `nextLogicStep` and `nextLogicSwitchTime`. -/
structure GameLogic (n : ℕ) where
  players : Fin n → Option PokerPlayer
  initialChips : Fin n → ℤ
  sbBet : ℤ
  bbBet : ℤ
  buttonSeat : Fin n
  sbPos : Fin n
  bbPos : Fin n
  timeout : ℕ
  logicStep : Step
  next : Option (Step × ℕ)
  operationTimeoutTime : Option ℕ
  currentOperatorPos : Option (Fin n)
  endOperatorPos : Option (Fin n)

namespace GameLogic

variable {n : ℕ} [NeZero n]

/-- Replace the data of a player. -/
def set (s : GameLogic n) (pos : Fin n) (p : PokerPlayer) : GameLogic n :=
  { s with players := Function.update s.players pos (some p) }

/-- `logicStartStep`. -/
def logicStartStep (s : GameLogic n) (now : ℕ) (step : Step) (interval : ℕ) : GameLogic n :=
  { s with next := some (step, now + interval) }

/-- `logicStopTimeout`. -/
def logicStopTimeout (s : GameLogic n) : GameLogic n := { s with operationTimeoutTime := none }

/-- `logicStartTimeout`: an operation timeout of zero seconds switches the timer off. -/
def logicStartTimeout (s : GameLogic n) (now : ℕ) : GameLogic n :=
  { s with operationTimeoutTime :=
      if s.timeout > 0 then some (now + s.timeout * 100) else s.operationTimeoutTime }

/-- The positions after `pos`, once around the table and ending with `pos`. -/
def forward (pos : Fin n) : List (Fin n) := (List.finRange n).map fun i => pos + 1 + i

/-- The positions before `pos`, once around the table and ending with `pos`. -/
def backward (pos : Fin n) : List (Fin n) := (List.finRange n).map fun i => pos - 1 - i

/-- `getNextPlayer`: the position of the next playing player. -/
def getNextPlayer (s : GameLogic n) (pos : Fin n) : Option (Fin n) :=
  (forward pos).find? fun q => (s.players q).isSome

/-- `getPrevPlayer`: the position of the previous playing player. -/
def getPrevPlayer (s : GameLogic n) (pos : Fin n) : Option (Fin n) :=
  (backward pos).find? fun q => (s.players q).isSome

/-- The playing players. -/
def playing (s : GameLogic n) : List PokerPlayer := (List.finRange n).filterMap s.players

/-- `getPlayingCount`. -/
def getPlayingCount (s : GameLogic n) : ℕ := s.playing.length

/-- `getFoldCount`. -/
def getFoldCount (s : GameLogic n) : ℕ := s.playing.countP fun p => p.fold

/-- `getAllInCount`. -/
def getAllInCount (s : GameLogic n) : ℕ := s.playing.countP fun p => p.isAllIn

/-- `getPlayerMaxBet`: the largest total bet of a player who has not folded. -/
def getPlayerMaxBet (s : GameLogic n) : ℤ :=
  s.playing.foldl (fun m p => if !p.fold && m < p.getTotalBet then p.getTotalBet else m) 0

/-- `isPlayerBetEqual`: everyone in the hand has bet as much as the largest bet or is all in. -/
def isPlayerBetEqual (s : GameLogic n) : Bool :=
  s.playing.all fun p => p.fold || !(p.getTotalBet < s.getPlayerMaxBet) || p.isAllIn

/-- The chips a player needs to call. -/
def needChips (s : GameLogic n) (p : PokerPlayer) : ℤ := s.getPlayerMaxBet - p.getTotalBet

/-- The largest number of chips another player holds. -/
def maxOtherChips (s : GameLogic n) (pos : Fin n) : ℤ :=
  ((List.finRange n).filter fun q => q ≠ pos).foldl
    (fun m q => match s.players q with
      | some p => if m < p.chips then p.chips else m
      | none => m) 0

/-- `getPlayerOperations`. -/
def getPlayerOperations (s : GameLogic n) (pos : Fin n) (p : PokerPlayer) : List Operation :=
  let maxBetNumber := s.getPlayerMaxBet
  let nMaxChips := s.maxOtherChips pos
  if p.getTotalBet < maxBetNumber then
    let callNeedChips := maxBetNumber - p.getTotalBet
    if p.chips > callNeedChips then
      if nMaxChips > 0 ∧ nMaxChips > callNeedChips then [.call, .fold, .raise, .allin]
      else [.call, .fold]
    else if callNeedChips > 0 then [.fold, .allin]
    else [.call, .fold]
  else if p.chips > 0 then [.check, .fold, .raise, .allin]
  else [.check, .fold]

/-! ### Operations -/

/-- `onPlayerCall`: whether the call is accepted, and the state after it. -/
def onPlayerCall (s : GameLogic n) (pos : Fin n) (p : PokerPlayer) : Bool × GameLogic n :=
  if p.isAllIn then (false, s)
  else if s.needChips p ≤ 0 then (false, s)
  else
    let need := if p.chips < s.needChips p then p.chips else s.needChips p
    if p.chips < need then (false, s)
    else if p.chips - need < 0 then (false, s)
    else (true, s.set pos (p.pay need))

/-- `onPlayerRaise` by `chips` over the bet to call. -/
def onPlayerRaise (s : GameLogic n) (pos : Fin n) (p : PokerPlayer) (chips : ℤ) :
    Bool × GameLogic n :=
  if p.chips < chips then (false, s)
  else if chips = 0 then (false, s)
  else if s.needChips p < 0 then (false, s)
  else if p.chips < s.needChips p then (false, s)
  else
    let totalCostChips := s.needChips p + chips
    if p.chips < totalCostChips then (false, s)
    else if p.chips - totalCostChips < 0 then (false, s)
    else (true, { s.set pos (p.pay totalCostChips) with endOperatorPos := s.getPrevPlayer pos })

/-- `onPlayerAllIn`: a call when the chips are not enough, else a raise. -/
def onPlayerAllIn (s : GameLogic n) (pos : Fin n) (p : PokerPlayer) : Bool × GameLogic n :=
  if p.chips ≤ s.needChips p then s.onPlayerCall pos p
  else s.onPlayerRaise pos p (p.chips - s.needChips p)

/-- `onPlayerFold`: when one player is left the settlement is scheduled and the result is
`false`. -/
def onPlayerFold (s : GameLogic n) (now : ℕ) (pos : Fin n) (p : PokerPlayer) :
    Bool × GameLogic n :=
  let s := s.set pos { p with fold := true }
  if s.getFoldCount + 1 = s.getPlayingCount then
    (false, s.logicStopTimeout.logicStartStep now .stepEnd (stepInterval * 2))
  else (true, s)

/-- `onPlayerCheck`. -/
def onPlayerCheck (s : GameLogic n) : Bool × GameLogic n := (s.isPlayerBetEqual, s)

/-- The handler of an operation; other operations are refused. -/
def execute (s : GameLogic n) (now : ℕ) (pos : Fin n) (p : PokerPlayer)
    (op : Option Operation) (data : ℤ) : Bool × GameLogic n :=
  match op with
  | some .fold => s.onPlayerFold now pos p
  | some .call => s.onPlayerCall pos p
  | some .raise => s.onPlayerRaise pos p data
  | some .check => s.onPlayerCheck
  | some .allin => s.onPlayerAllIn pos p
  | _ => (false, s)

/-- The step after a betting round. -/
def advance (s : GameLogic n) (now : ℕ) : GameLogic n :=
  match s.logicStep with
  | .send2CardsBet => s.logicStartStep now .show3Cards stepInterval
  | .show3CardsBet => s.logicStartStep now .show4Cards stepInterval
  | .show4CardsBet => s.logicStartStep now .show5Cards stepInterval
  | .show5CardsBet => s.logicStartStep now .stepEnd (stepInterval * 2)
  | _ => s

/-- The loop of `onPlayerOperation` for the next operator: the next position with an active
player, or `true` when the end position is reached on a folded or all in player before. -/
def nextOperator (s : GameLogic n) (pos : Fin n) : Option (Fin n × Bool) :=
  (forward pos).findSome? fun q =>
    match s.players q with
    | none => none
    | some p =>
      if p.active then some (q, false)
      else if some q = s.endOperatorPos then some (q, true)
      else none

/-- The part of `onPlayerOperation` after an accepted operation. -/
def proceed (s : GameLogic n) (now : ℕ) (pos : Fin n) : Option (GameLogic n) :=
  if some pos = s.endOperatorPos then some (s.advance now)
  else
    match s.nextOperator pos with
    | none => none
    | some (_, true) => some (s.advance now)
    | some (q, false) =>
      some ({ s with currentOperatorPos := some q }.logicStartStep now s.logicStep stepInterval)

/-- The operations requested of seats during an event, in order. -/
abbrev Requests (n : ℕ) := List (Fin n × List Operation)

/-- `onPlayerOperation`. -/
def onPlayerOperation (s : GameLogic n) (now : ℕ) (pos : Fin n) (op : Option Operation)
    (data : ℤ) : Option (GameLogic n × Requests n) :=
  if some pos ≠ s.currentOperatorPos then some (s, [])
  else
    match s.players pos with
    | none => some (s, [])
    | some p =>
      let r := s.execute now pos p op data
      if !r.1 then
        if op = some .fold then some (r.2, [])
        else some (r.2, [(pos, p.operations)])
      else
        match r.2.players pos with
        | none => some (r.2, [])
        | some p' =>
          let s' := (r.2.set pos { p' with operations := [] }).logicStopTimeout
          (s'.proceed now pos).map fun s'' => (s'', [])

/-! ### Steps -/

/-- One blind of `onStepFirstBet`; `none` when the chips are not enough. -/
def postBlind (s : GameLogic n) (pos : Fin n) (betSum : ℤ) : Option (GameLogic n) :=
  match s.players pos with
  | none => none
  | some p => if p.chips < betSum then none else some (s.set pos (p.pay betSum))

/-- `onStepFirstBet`. -/
def onStepFirstBet (s : GameLogic n) (now : ℕ) : GameLogic n :=
  match s.postBlind s.sbPos s.sbBet with
  | none => s
  | some s₁ =>
    match s₁.postBlind s.bbPos s.bbBet with
    | none => s₁
    | some s₂ => s₂.logicStartStep now .send2Cards stepInterval

/-- The first operator of a hand: the player after the big blind, of two players the button. -/
def firstOperator (s : GameLogic n) : Option (Fin n) :=
  if s.getPlayingCount = 2 then some s.buttonSeat else s.getNextPlayer s.bbPos

/-- `onStepSend2Cards`. -/
def onStepSend2Cards (s : GameLogic n) (now : ℕ) : Option (GameLogic n) := do
  let pos ← s.firstOperator
  let endPos ← s.getPrevPlayer pos
  return { s with currentOperatorPos := some pos, endOperatorPos := some endPos }.logicStartStep
    now .send2CardsBet stepInterval

/-- The four steps that request an operation of the current operator. -/
def onStepBet (s : GameLogic n) (now : ℕ) : GameLogic n × Requests n :=
  match s.currentOperatorPos with
  | none => (s, [])
  | some pos =>
    match s.players pos with
    | none => (s, [])
    | some p =>
      let operations := s.getPlayerOperations pos p
      ((s.set pos { p with operations := operations }).logicStartTimeout now,
        [(pos, operations)])

/-- An active player at a position. -/
def activeAt (s : GameLogic n) (pos : Fin n) : Bool :=
  match s.players pos with
  | none => false
  | some p => p.active

/-- The three steps that show cards: with at most one active player the next cards are shown
after `skip`, else a betting round begins, of two players with the big blind, else with the first
active player from the small blind on. -/
def showCards (s : GameLogic n) (now : ℕ) (bet skip : Step) (interval : ℕ) :
    Option (GameLogic n) :=
  if s.getAllInCount + s.getFoldCount + 1 ≥ s.getPlayingCount ∨
      s.getAllInCount = s.getPlayingCount then
    some (s.logicStartStep now skip interval)
  else if s.getPlayingCount = 2 then
    some ({ s with
      currentOperatorPos := some s.bbPos,
      endOperatorPos := some s.sbPos }.logicStartStep now bet stepInterval)
  else do
    let pos ← (s.sbPos :: forward s.sbPos).find? s.activeAt
    let endPos ← (backward s.sbPos).find? s.activeAt
    return { s with currentOperatorPos := some pos, endOperatorPos := some endPos }.logicStartStep
      now bet stepInterval

/-- `onStepShow3Cards`. -/
def onStepShow3Cards (s : GameLogic n) (now : ℕ) : Option (GameLogic n) :=
  s.showCards now .show3CardsBet .show4Cards stepInterval

/-- `onStepShow4Cards`. -/
def onStepShow4Cards (s : GameLogic n) (now : ℕ) : Option (GameLogic n) :=
  s.showCards now .show4CardsBet .show5Cards stepInterval

/-- `onStepShow5Cards`. -/
def onStepShow5Cards (s : GameLogic n) (now : ℕ) : Option (GameLogic n) :=
  s.showCards now .show5CardsBet .stepEnd (stepInterval * 2)

/-- `onStepEnd` up to the settlement: all timers are stopped. -/
def onStepEnd (s : GameLogic n) : GameLogic n :=
  { s with next := none, operationTimeoutTime := none }

/-- `onStepSwitch`, in the state of the new step. `STEP_BEGIN` is never scheduled. -/
def onStepSwitch (s : GameLogic n) (now : ℕ) : Option (GameLogic n × Requests n) :=
  match s.logicStep with
  | .begin => some (s, [])
  | .firstBet => some (s.onStepFirstBet now, [])
  | .send2Cards => (s.onStepSend2Cards now).map fun s' => (s', [])
  | .show3Cards => (s.onStepShow3Cards now).map fun s' => (s', [])
  | .show4Cards => (s.onStepShow4Cards now).map fun s' => (s', [])
  | .show5Cards => (s.onStepShow5Cards now).map fun s' => (s', [])
  | .send2CardsBet | .show3CardsBet | .show4CardsBet | .show5CardsBet => some (s.onStepBet now)
  | .stepEnd => some (s.onStepEnd, [])

/-- The first check of `OnGameTimer`: a scheduled step that is due begins. -/
def stepTimer (s : GameLogic n) (now : ℕ) : Option (GameLogic n × Requests n) :=
  match s.next with
  | none => some (s, [])
  | some (step, time) =>
    if now > time then { s with next := none, logicStep := step }.onStepSwitch now
    else some (s, [])

/-- The steps in which an operation may time out. -/
def betStep : Step → Bool
  | .send2CardsBet | .show3CardsBet | .show4CardsBet | .show5CardsBet => true
  | _ => false

/-- `onTimeoutSend2CardsBet`: the operator calls if calling is possible and folds otherwise. -/
def onOperationTimeout (s : GameLogic n) (now : ℕ) : Option (GameLogic n × Requests n) :=
  if betStep s.logicStep then
    match s.currentOperatorPos with
    | none => some (s, [])
    | some pos =>
      match s.players pos with
      | none => some (s, [])
      | some p =>
        if (s.getPlayerOperations pos p).contains .call then
          s.onPlayerOperation now pos (some .call) 0
        else s.onPlayerOperation now pos (some .fold) 0
  else some (s, [])

/-- The second check of `OnGameTimer`: an operation that is overdue times out. -/
def timeoutTimer (s : GameLogic n) (now : ℕ) : Option (GameLogic n × Requests n) :=
  match s.operationTimeoutTime with
  | none => some (s, [])
  | some time => if now > time then s.onOperationTimeout now else some (s, [])

/-! ### Runs -/

/-- The events of a hand: a message with an operation code and a raise amount from the player at
a position, and the two checks of the timer. -/
inductive Event (n : ℕ)
  | message (now : ℕ) (pos : Fin n) (op : ℤ) (data : ℤ)
  | stepTimer (now : ℕ)
  | timeoutTimer (now : ℕ)

/-- One event. After the settlement the recorder is gone and nothing happens any more. -/
def step (s : GameLogic n) (e : Event n) : Option (GameLogic n × Requests n) :=
  if s.logicStep = .stepEnd then some (s, [])
  else
    match e with
    | .message now pos op data => s.onPlayerOperation now pos (Operation.ofCode op) data
    | .stepTimer now => s.stepTimer now
    | .timeoutTimer now => s.timeoutTimer now

/-- The state after an event. -/
def next? (s : GameLogic n) (e : Event n) : Option (GameLogic n) := (s.step e).map Prod.fst

/-- What a hand starts from: the chips of the players at their positions, after the automatic
exchange, the big blind, the button of the hand before and the operation timeout. -/
structure Setup (n : ℕ) where
  chips : Fin n → Option ℕ
  unitcoin : ℕ
  buttonSeat : Fin n
  timeout : ℕ

/-- The state of a table at rest, with the chips of a new hand. -/
def Setup.table (c : Setup n) : GameLogic n where
  players := fun pos => (c.chips pos).map fun chips : ℕ => ⟨chips, false, [], []⟩
  initialChips := fun pos => (c.chips pos).getD 0
  sbBet := c.unitcoin / 2
  bbBet := c.unitcoin
  buttonSeat := c.buttonSeat
  sbPos := c.buttonSeat
  bbPos := c.buttonSeat
  timeout := c.timeout
  logicStep := .begin
  next := none
  operationTimeoutTime := none
  currentOperatorPos := none
  endOperatorPos := none

/-- The small blind: the player after the button, of two players the button. -/
def Setup.smallBlind (c : Setup n) (button : Fin n) : Option (Fin n) :=
  if c.table.getPlayingCount = 2 then some button else c.table.getNextPlayer button

/-- `GameStart`: the button moves on, the blinds are the players after it, and the first bets are
scheduled. -/
def gameStart (c : Setup n) (now : ℕ) : Option (GameLogic n) := do
  let button ← c.table.getNextPlayer c.buttonSeat
  let sb ← c.smallBlind button
  let bb ← c.table.getNextPlayer sb
  return { c.table with buttonSeat := button, sbPos := sb, bbPos := bb }.logicStartStep
    now .firstBet stepInterval

lemma gameStart_eq_some {c : Setup n} {now : ℕ} {s : GameLogic n} (h : gameStart c now = some s) :
    ∃ button sb bb, c.table.getNextPlayer c.buttonSeat = some button ∧
      c.smallBlind button = some sb ∧ c.table.getNextPlayer sb = some bb ∧
      s = { c.table with buttonSeat := button, sbPos := sb, bbPos := bb }.logicStartStep
        now .firstBet stepInterval := by
  obtain ⟨button, hbutton, h⟩ := Option.bind_eq_some_iff.mp h
  obtain ⟨sb, hsb, h⟩ := Option.bind_eq_some_iff.mp h
  obtain ⟨bb, hbb, h⟩ := Option.bind_eq_some_iff.mp h
  exact ⟨button, sb, bb, hbutton, hsb, hbb, (Option.some.inj h).symm⟩

/-! ### What an operation does -/

section Cases

variable {s s' : GameLogic n} {now : ℕ} {pos : Fin n} {p : PokerPlayer}
  {op : Option Operation} {data : ℤ} {r : Requests n}

/-- The checks of the handlers that refuse an operation. A fold is never refused. -/
def refuses (s : GameLogic n) (p : PokerPlayer) (op : Option Operation) (data : ℤ) : Bool :=
  match op with
  | some .fold => false
  | some .call => p.isAllIn || s.needChips p ≤ 0
  | some .raise => p.chips < data || data = 0 || s.needChips p < 0 ||
      p.chips < s.needChips p || p.chips < s.needChips p + data
  | some .check => !s.isPlayerBetEqual
  | some .allin =>
    if p.chips ≤ s.needChips p then p.isAllIn || s.needChips p ≤ 0 else s.needChips p < 0
  | _ => true

lemma onPlayerCall_eq (data : ℤ) : s.onPlayerCall pos p =
    if s.refuses p (some .call) data then (false, s)
    else (true, s.set pos (p.pay (min p.chips (s.needChips p)))) := by
  simp only [onPlayerCall, refuses, Bool.or_eq_true, decide_eq_true_eq]
  by_cases hall : p.isAllIn
  · simp [hall]
  by_cases hneed : s.needChips p ≤ 0
  · simp [hneed]
  by_cases hlt : p.chips < s.needChips p
  · simp [hall, hneed, hlt, min_eq_left hlt.le]
  · have hle : s.needChips p ≤ p.chips := not_lt.mp hlt
    simp [hall, hneed, hlt, hle]

lemma onPlayerRaise_eq : s.onPlayerRaise pos p data =
    if s.refuses p (some .raise) data then (false, s)
    else (true, { s.set pos (p.pay (s.needChips p + data)) with
      endOperatorPos := s.getPrevPlayer pos }) := by
  simp only [onPlayerRaise, refuses, Bool.or_eq_true, decide_eq_true_eq]
  split_ifs <;> first | rfl | omega

/-- An all in is a call of everything, or a raise to it. -/
lemma onPlayerAllIn_eq (data : ℤ) : s.onPlayerAllIn pos p =
    if s.refuses p (some .allin) data then (false, s)
    else if p.chips ≤ s.needChips p then (true, s.set pos (p.pay p.chips))
    else (true, { s.set pos (p.pay p.chips) with endOperatorPos := s.getPrevPlayer pos }) := by
  rw [onPlayerAllIn]
  by_cases h : p.chips ≤ s.needChips p
  · simp only [if_pos h, onPlayerCall_eq data, refuses, min_eq_left h]
  · simp only [if_neg h, onPlayerRaise_eq, refuses, Bool.or_eq_true, decide_eq_true_eq,
      add_sub_cancel]
    split_ifs <;> first | rfl | omega

/-- What a handler does: it refuses, it changes the player and perhaps the end of the round, or it
is the fold that leaves one player and schedules the settlement. -/
lemma execute_cases (now : ℕ) (op : Option Operation) (data : ℤ) (hp : s.players pos = some p) :
    (s.refuses p op data = true ∧ s.execute now pos p op data = (false, s)) ∨
    (s.refuses p op data = false ∧ ∃ p' e,
      s.execute now pos p op data = (true, { s.set pos p' with endOperatorPos := e })) ∨
    (op = some .fold ∧ s.execute now pos p op data =
      (false, (s.set pos { p with fold := true }).logicStopTimeout.logicStartStep now .stepEnd
        (stepInterval * 2))) := by
  have hself : s.set pos p = s := by
    rw [set, ← hp, Function.update_eq_self]
  rcases op with _ | op
  · exact .inl ⟨rfl, rfl⟩
  cases op with
  | bet => exact .inl ⟨rfl, rfl⟩
  | reraise => exact .inl ⟨rfl, rfl⟩
  | fold =>
    rw [execute, onPlayerFold]
    split_ifs
    · exact .inr (.inr ⟨rfl, rfl⟩)
    · exact .inr (.inl ⟨rfl, _, _, rfl⟩)
  | call =>
    rw [execute, onPlayerCall_eq data]
    split_ifs with h
    · exact .inl ⟨h, rfl⟩
    · exact .inr (.inl ⟨Bool.eq_false_of_not_eq_true h, _, _, rfl⟩)
  | raise =>
    rw [execute, onPlayerRaise_eq]
    split_ifs with h
    · exact .inl ⟨h, rfl⟩
    · exact .inr (.inl ⟨Bool.eq_false_of_not_eq_true h, _, _, rfl⟩)
  | allin =>
    rw [execute, onPlayerAllIn_eq data]
    split_ifs with h
    · exact .inl ⟨h, rfl⟩
    · exact .inr (.inl ⟨Bool.eq_false_of_not_eq_true h, _, _, rfl⟩)
    · exact .inr (.inl ⟨Bool.eq_false_of_not_eq_true h, _, _, rfl⟩)
  | check =>
    rw [execute, onPlayerCheck]
    cases h : s.isPlayerBetEqual with
    | false => exact .inl ⟨by simp [refuses, h], rfl⟩
    | true => exact .inr (.inl ⟨by simp [refuses, h], p, s.endOperatorPos, by rw [hself]⟩)

/-- After an accepted operation the operations of the player are reset and the hand goes on. -/
lemma onPlayerOperation_of_execute {p' : PokerPlayer} {e : Option (Fin n)}
    (hpos : s.currentOperatorPos = some pos) (hp : s.players pos = some p)
    (h : s.execute now pos p op data = (true, { s.set pos p' with endOperatorPos := e })) :
    s.onPlayerOperation now pos op data =
      ({ s.set pos { p' with operations := [] } with
        endOperatorPos := e }.logicStopTimeout.proceed now pos).map fun s' => (s', []) := by
  have hset : (s.set pos p').set pos { p' with operations := [] } =
      s.set pos { p' with operations := [] } := by
    simp [set]
  have hat : (s.set pos p').players pos = some p' := Function.update_self ..
  rw [onPlayerOperation, if_neg (not_not.mpr hpos.symm)]
  simp only [hp, h, Bool.not_true]
  rw [if_neg (by decide)]
  simp only [hat, ← hset]
  rfl

/-- What an operation does: nothing, when it is not the operator's; else it is refused and
requested again, or the hand goes on after it, or it is the fold that leaves one player. -/
lemma onPlayerOperation_cases (h : s.onPlayerOperation now pos op data = some (s', r)) :
    (s' = s ∧ r = [] ∧ (s.currentOperatorPos ≠ some pos ∨ s.players pos = none)) ∨
    ∃ p, s.currentOperatorPos = some pos ∧ s.players pos = some p ∧
      ((s.refuses p op data = true ∧ s' = s ∧ r = [(pos, p.operations)]) ∨
      (s.refuses p op data = false ∧ r = [] ∧ ∃ p' e,
        s.execute now pos p op data = (true, { s.set pos p' with endOperatorPos := e }) ∧
        ({ s.set pos { p' with operations := [] } with
          endOperatorPos := e }.logicStopTimeout.proceed now pos = some s')) ∨
      (op = some .fold ∧ r = [] ∧ s' = (s.set pos
        { p with fold := true }).logicStopTimeout.logicStartStep now .stepEnd
          (stepInterval * 2))) := by
  have h' := h
  rw [onPlayerOperation] at h
  by_cases hpos : s.currentOperatorPos = some pos
  · rw [if_neg (not_not.mpr hpos.symm)] at h
    cases hp : s.players pos with
    | none =>
      rw [hp] at h
      cases h
      exact .inl ⟨rfl, rfl, .inr rfl⟩
    | some p =>
      refine .inr ⟨p, hpos, rfl, ?_⟩
      simp only [hp] at h
      obtain ⟨href, hexec⟩ | ⟨href, p', e, hexec⟩ | ⟨rfl, hexec⟩ :=
        execute_cases now op data hp
      · have hop : op ≠ some .fold := by
          rintro rfl
          cases href
        simp only [hexec, Bool.not_false, if_true, if_neg hop] at h
        cases h
        exact .inl ⟨href, rfl, rfl⟩
      · rw [onPlayerOperation_of_execute hpos hp hexec] at h'
        obtain ⟨s₁, h₁, hr⟩ := Option.map_eq_some_iff.mp h'
        cases hr
        exact .inr (.inl ⟨href, rfl, p', e, hexec, h₁⟩)
      · simp only [hexec, Bool.not_false, if_true] at h
        cases h
        exact .inr (.inr ⟨rfl, rfl, rfl⟩)
  · rw [if_pos (Ne.symm hpos)] at h
    cases h
    exact .inl ⟨rfl, rfl, .inl hpos⟩

end Cases

end GameLogic

end Texas
