import JsmjServer.Hongzhong.Settlement

set_option relaxedAutoImplicit false
set_option autoImplicit false

/-!
# The rounds of a hongzhong room

The bonus of `hongzhongmj/GameProgress.lua`, tiles that are drawn from the wall when a round is won,
with `ZhaMaFen`, the field in which their value is kept for the settlement, and the rounds of a room
that follow each other.

## Main definitions

* `Hongzhong.getZhaMaCount` — the value of the tiles drawn for the bonus.
* `Hongzhong.calcExtraFans` — what is filed for the bonus when a round is won.
* `Hongzhong.Room`, `Hongzhong.roomStep` — the system of a room over its rounds.

## Design

`ZhaMaFen` is a field of `GameProgress`, which lives as long as the room. Every finished round is
kept with the state in which its last message has found it, the state in which it has ended, and
the value of `ZhaMaFen` that `CountHuType:calculate` has read. `ZhaMaCount` and `ZhaMaIndex`, which
are only sent to the clients, are left out. The scores and statistics of a room are left out too, as
nothing here reads them.
-/

namespace Hongzhong

open Mahjong

/-! ### The bonus -/

/-- The value of the tiles so far, and one more: with `hz_playrule_1m` the points of the tile, ten
for a wild one; otherwise the tiles `1`, `5` and `9` of every suit count, and `Zi5` as a `5`. -/
def addZhaMa (rule : RoomRuleMap) (num v : ℕ) : ℕ :=
  let value := v % 10
  if rule.hz_playrule_1m then
    if v = Zi5 then 10 else value
  else if value = 1 ∨ value = 5 ∨ value = 9 then num + 1
  else num

/-- `GameProgress:getZhaMaCount`. -/
def getZhaMaCount (rule : RoomRuleMap) (cards : List ℕ) : ℕ :=
  let num := cards.foldl (addZhaMa rule) 0
  if rule.hz_playrule_1m = false then num * 2 else num

/-- `GameProgress:calcExtraFans`: the fans of every seat, and the field `ZhaMaFen`, which stays as
it was when there is no tile. -/
def calcExtraFans (rule : RoomRuleMap) (winPos : List Seat) (cards : List ℕ) (ZhaMaFen : ℕ) :
    (Seat → ℕ) × ℕ :=
  if cards.length = 0 then (fun _ => 0, ZhaMaFen)
  else winPos.foldl
    (fun r pos => (Function.update r.1 pos (getZhaMaCount rule cards), getZhaMaCount rule cards))
    (fun _ => 0, ZhaMaFen)

/-! ### The room -/

/-- What does not change: the rules, the type of the room, and `fangInfo.RoundCount`. -/
structure RoomInfo where
  roomRuleMap : RoomRuleMap
  isVIPRoom : Bool
  RoundCount : ℕ

/-- A finished round: the table before and after its last message, the arguments of `GameEnd`, the
fans that `calcExtraFans` returns, and `ZhaMaFen` after it. -/
structure Round where
  before : Table
  final : Table
  args : EndArgs
  extraFans : Seat → ℕ
  ZhaMaFen : ℕ

/-- The settlement of a finished round for a seat. -/
def Round.countHuType (rd : Round) (i : Seat) : CountHuType :=
  initCountHuType rd.final rd.args rd.ZhaMaFen i

/-- A room: the round that is played or was played last, and the finished ones. -/
structure Room where
  game : Table
  playing : Bool
  disbanded : Bool
  roundCount : ℕ
  ZhaMaFen : ℕ
  rounds : List Round

/-- A room before its first round, from `GameProgress:ctor`. -/
def newRoom : Room := ⟨newTable, false, false, 1, 0, []⟩

/-- The end of a round. When it is won, `doHu` has drawn the tiles and calls `calcExtraFans`; a
round that is drawn has no winners and no tiles, and nothing is filed. After `GameEnd:onEntry` the
room is disbanded, or waits for the next round (`GameEnd:loopTo`). -/
def endRound (info : RoomInfo) (r : Room) (s : Table) (args : EndArgs) : Room :=
  let fans := calcExtraFans info.roomRuleMap args.winnerPosList args.zhaMaCards r.ZhaMaFen
  let r : Room := { r with
    game := s
    playing := false
    ZhaMaFen := fans.2
    rounds := r.rounds ++ [⟨r.game, s, args, fans.1, fans.2⟩] }
  if info.RoundCount ≤ r.roundCount then { r with disbanded := true }
  else if info.isVIPRoom then { r with roundCount := r.roundCount + 1 }
  else r

/-- What happens in a room: a round is dealt, a seat sends a message, or the room is disbanded by
vote. -/
inductive RoomEvent
  | start (d : Deal)
  | msg (e : Seat × ClientMsg)
  | disband

/-- A round is dealt by the rules of the room on the table that the last one has left, and nobody
sends the debug operation. -/
def Follows (info : RoomInfo) (r : Room) : RoomEvent → Prop
  | .start d => d.rule = info.roomRuleMap ∧ d.last = r.game
  | .msg e => NoTest r.game e
  | .disband => True

/-- One event. Messages are handled while a round is played; the round that ends is settled at
once. -/
def roomStep (info : RoomInfo) (r : Room) : RoomEvent → Option Room
  | .start d =>
    if r.playing || r.disbanded || info.isVIPRoom && info.RoundCount < r.roundCount then none
    else some { r with game := Hongzhong.start d, playing := true }
  | .msg e =>
    if !r.playing then none
    else (step info.roomRuleMap r.game e).map fun s =>
      match s.endArgs with
      | none => { r with game := s }
      | some args => endRound info r s args
  | .disband => if r.disbanded then none else some { r with playing := false, disbanded := true }

/-! ### What is filed for the bonus -/

section Filed

variable (rule : RoomRuleMap) {winPos : List Seat} {cards : List ℕ} {fen : ℕ} {pos : Seat}

@[simp] lemma getZhaMaCount_nil : getZhaMaCount rule [] = 0 := by
  simp [getZhaMaCount]

@[simp] lemma calcExtraFans_nil : calcExtraFans rule winPos [] fen = (fun _ => 0, fen) := rfl

/-- When there are tiles and winners, the value of the tiles is filed for every winner. -/
lemma calcExtraFans_eq (hcards : cards ≠ []) :
    calcExtraFans rule winPos cards fen =
      (fun pos => if pos ∈ winPos then getZhaMaCount rule cards else 0,
        if winPos = [] then fen else getZhaMaCount rule cards) := by
  have hfold : ∀ fans : Seat → ℕ, winPos.foldl (fun r pos =>
      (Function.update r.1 pos (getZhaMaCount rule cards), getZhaMaCount rule cards)) (fans, fen) =
        (fun pos => if pos ∈ winPos then getZhaMaCount rule cards else fans pos,
          if winPos = [] then fen else getZhaMaCount rule cards) := by
    induction winPos generalizing fen with
    | nil => simp
    | cons p winPos ih =>
      intro fans
      rw [List.foldl_cons, ih]
      refine Prod.ext (funext fun q => ?_) (by simp)
      by_cases hq : q = p <;> simp [hq]
  rw [calcExtraFans, if_neg (by simpa using hcards), hfold]

/-- The fans of a winner are always those of the tiles drawn. -/
lemma calcExtraFans_fans (hpos : pos ∈ winPos) :
    (calcExtraFans rule winPos cards fen).1 pos = getZhaMaCount rule cards := by
  by_cases hcards : cards = []
  · simp [hcards]
  · rw [calcExtraFans_eq rule hcards]
    exact if_pos hpos

/-- `ZhaMaFen` is that of the tiles drawn, when there are any. -/
lemma calcExtraFans_ZhaMaFen (hwin : cards ≠ [] → winPos ≠ []) :
    (calcExtraFans rule winPos cards fen).2 =
      if cards = [] then fen else getZhaMaCount rule cards := by
  by_cases hcards : cards = []
  · simp [hcards]
  · rw [calcExtraFans_eq rule hcards, if_neg hcards]
    exact if_neg (hwin hcards)

end Filed

end Hongzhong
