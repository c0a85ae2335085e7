import JsmjServer.Tongxiang.GamePlaying
import Mathlib.Data.Int.Basic

set_option relaxedAutoImplicit false
set_option autoImplicit false

/-!
# The rounds of a tongxiang room

`tongxiangmj/game_state/GameEnd.lua` with the accounts of `GameProgress.lua`: what is paid at the
end of a round, what is booked in `roundScoreList` and what is shown of it, and how the rounds of a
VIP room follow each other.

## Main definitions

* `Tongxiang.calculateMoney` — the payments of a round that is won, with the kong points.
* `Tongxiang.gameEnd` — what `GameEnd:onEntry` books.
* `Tongxiang.Room`, `Tongxiang.roomStep` — the system of a VIP room over its rounds.

## Design

The kong points of the round are a field of the state `Game`; they are zero when a new round
begins, as they are filed under the number of the round. Every finished round is kept with the
state in which it has ended, the entry made for it in `roundScoreList`, and the kong points written
into the details of its result message. Nothing sets `songGang`, whose branches are left out. The
other texts of the message and the statistics in `tempData` are left out.
-/

namespace Tongxiang

open Mahjong

/-! ### The settlement of a round -/

/-- `CountHuType:getTotalFan`. -/
def getTotalFan (args : EndArgs) (fan : ℕ) : ℕ :=
  let fan := if args.isZiMo then fan * 3 else fan
  if args.isQiangGang then fan * 3 else fan

/-- The cap `tx_extrarule2_16fd` on an amount. -/
def fengDing (rule : RoomRuleMap) (bound money : ℤ) : ℤ :=
  if rule.tx_extrarule2_16fd && bound ≤ money then bound else money

/-- One seat pays another. -/
def payOne (money : Seat → ℤ) (pos payer : Seat) (totalMoney : ℤ) : Seat → ℤ :=
  let money := Function.update money pos (money pos + totalMoney)
  Function.update money payer (money payer - totalMoney)

/-- Every other seat pays a third, rounded up. -/
def payAll (money : Seat → ℤ) (pos : Seat) (totalMoney : ℤ) : Seat → ℤ :=
  let perMoney := -(-totalMoney / 3)
  fun i => if i ≠ pos then money i - perMoney else money i + totalMoney

/-- The payment to one winner in the loop of `GameEnd:calculateMoney`. It stops when the seat that
is to pay is missing. The flag `isBaoPai` is set by `baoPao` for a robbed kong, whose seat pays. -/
def payWinner (rule : RoomRuleMap) (unitCoin : ℤ) (args : EndArgs) (pos : Seat) (fan : ℕ)
    (money : Seat → ℤ) : Option (Seat → ℤ) :=
  let totalMoney := getTotalFan args fan * unitCoin
  if args.isQiangGang then
    args.fangPaoPos.map fun baoPaiPos => payOne money pos baoPaiPos (fengDing rule 16 totalMoney)
  else if !args.isZiMo then
    args.fangPaoPos.map fun fangPaoPos => payOne money pos fangPaoPos (fengDing rule 16 totalMoney)
  else some (payAll money pos (fengDing rule 48 totalMoney))

/-- The kong points are added in the loop, when they count. -/
def addGang (rule : RoomRuleMap) (s : Game) (money : Seat → ℤ) : Seat → ℤ :=
  if rule.tx_extrarule1_gangf then fun i => money i + s.roundGangScore i else money

/-- The loop of `GameEnd:calculateMoney` over the winners, after `GameEnd:calculate` has evaluated
their hands. -/
def payWinners (rule : RoomRuleMap) (unitCoin : ℤ) (s : Game) (args : EndArgs) :
    List Seat → (Seat → ℤ) → Option (Seat → ℤ)
  | [], money => some money
  | pos :: rest, money =>
    match calculate s pos args.isZiMo with
    | none => none
    | some fan =>
      match payWinner rule unitCoin args pos fan money with
      | none => none
      | some money => payWinners rule unitCoin s args rest (addGang rule s money)

/-- `GameEnd:calculateMoney`. -/
def calculateMoney (rule : RoomRuleMap) (unitCoin : ℤ) (s : Game) (args : EndArgs) :
    Option (Seat → ℤ) :=
  payWinners rule unitCoin s args args.winnerPosList fun _ => 0

/-- The scores that `GameEnd:onEntry` hands to `dealVIPEnd`: zeros for a drawn round. -/
def gameEnd (rule : RoomRuleMap) (unitCoin : ℤ) (s : Game) (args : EndArgs) :
    Option (Seat → ℤ) :=
  if args.isLiuJu then some fun _ => 0 else calculateMoney rule unitCoin s args

/-- The kong points (`杠分`) that the details of a result show for each seat, in a drawn round and in
one that is won. -/
def details (rule : RoomRuleMap) (s : Game) (pos : Seat) : Option ℤ :=
  if rule.tx_extrarule1_gangf then some (s.roundGangScore pos) else none

/-! ### The room -/

/-- What does not change: the rules, the stake, and `fangInfo.RoundCount`. -/
structure RoomInfo where
  roomRuleMap : RoomRuleMap
  unitCoin : ℤ
  RoundCount : ℕ

/-- A finished round: its last state, its entry in `roundScoreList`, and what its result shows. -/
structure Round where
  final : Game
  args : EndArgs
  score : Seat → ℤ
  shown : Seat → Option ℤ

/-- A VIP room: the round that is played or was played last, and the finished ones. -/
structure Room where
  game : Game
  playing : Bool
  disbanded : Bool
  roundCount : ℕ
  rounds : List Round

/-- `roundScoreList`. -/
def Room.roundScoreList (r : Room) : List (Seat → ℤ) := r.rounds.map Round.score

/-- A room before its first round. -/
def newRoom : Room := ⟨newGame, false, false, 1, []⟩

/-- `GameEnd:onEntry` with `loopTo`: the round is booked and shown, and the room is disbanded after
the last one. A settlement that stops leaves the room as it is. -/
def endRound (info : RoomInfo) (r : Room) (s : Game) (args : EndArgs) : Room :=
  match gameEnd info.roomRuleMap info.unitCoin s args with
  | none => { r with game := s }
  | some score =>
    let r : Room := { r with
      game := { s with hengFan := args.isLiuJu }
      playing := false
      rounds := r.rounds ++ [⟨s, args, score, details info.roomRuleMap s⟩] }
    if info.RoundCount ≤ r.roundCount then { r with disbanded := true }
    else { r with
      game := { r.game with roundGangScore := fun _ => 0 }
      roundCount := r.roundCount + 1 }

/-- What happens in a room: a round is dealt, a seat sends a message, or the room is disbanded by
vote. -/
inductive RoomEvent
  | start (d : Deal)
  | msg (e : Seat × ClientMsg)
  | disband

/-- A round is dealt on the state the last one has left. -/
def Follows (r : Room) : RoomEvent → Prop
  | .start d => d.last = r.game
  | _ => True

/-- One event. Messages are handled while a round is played; the round that ends is settled at
once. -/
def roomStep (info : RoomInfo) (r : Room) : RoomEvent → Option Room
  | .start d =>
    if r.playing || r.disbanded || info.RoundCount < r.roundCount then none
    else some { r with game := (onEntry info.roomRuleMap d).state, playing := true }
  | .msg e =>
    if !r.playing then none
    else (step info.roomRuleMap r.game e).map fun s =>
      match s.endArgs with
      | none => { r with game := s }
      | some args => endRound info r s args
  | .disband => if r.disbanded then none else some { r with playing := false, disbanded := true }

end Tongxiang
