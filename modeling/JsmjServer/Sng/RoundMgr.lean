import JsmjServer.Lib.Runs
import Mathlib.Data.List.Sort
import Mathlib.Data.List.Nodup
import Mathlib.Logic.Function.Basic
import Mathlib.Data.Int.Notation

set_option relaxedAutoImplicit false
set_option autoImplicit false

/-!
# The rounds of a tournament

`common/sng/sngroundmgr.lua`: the players of a round sit in rooms, and every room reports the
scores of its games. Who is still above the cut when a room ends is kept for the next round, which
begins when the last room has ended.

## Main definitions

* `Sng.RoundMgr` — the manager with its players, rooms and timers.
* `Sng.RoundMgr.updateScore` — the report of a room.
* `Sng.RoundMgr.onGameEnd` — the end of a room, and the choice of the next round.
* `Sng.RoundMgr.step` — one event.
* `Sng.RoundMgr.Sound` — what holds between events.

## Implementation notes

Players are Lua tables, which several lists share. They have an address here, and `items` is their
contents. `table.sort` leaves the order of equal scores open, so a sort is a parameter
(`ScoreSort`). Messages to players, rooms and the database are left out, and so is the time before
the first round, in which players and robots are added: a run begins where its timer is set.
-/

namespace Sng

/-- The round configuration: how many players it takes, after how many games a room ends, and the
scores below which a player is out, which rise with time. -/
structure RoundConfig where
  openCount : ℕ
  endCount : ℕ
  cutScore : List ℤ
  deriving DecidableEq, Repr

/-- `sngConfig`. -/
structure SngConfig where
  initScore : ℤ
  totalRound : ℕ
  roundConfig : List RoundConfig
  length_eq : roundConfig.length = totalRound

/-- `sngConfig.roundConfig[roundCount]`. -/
def SngConfig.round (config : SngConfig) (roundCount : ℕ) : RoundConfig :=
  config.roundConfig.getD (roundCount - 1) ⟨0, 0, []⟩

/-- `PlayerItem`, with the number of its room. -/
structure PlayerItem where
  uid : ℕ
  score : ℤ := 0
  room : Option ℕ := none
  deriving DecidableEq, Repr

structure RoomInfo where
  roomid : ℕ
  roundCount : ℕ
  deriving DecidableEq, Repr

/-- The timers of the manager: the begin of the first round, that of a later one, and the
distribution of the players of a round. -/
inductive Timer
  | firstRound
  | nextRound
  | allocRoom (playerList : List ℕ)
  deriving DecidableEq, Repr

/-- `table.sort` by descending scores. -/
structure ScoreSort where
  sort : (ℕ → ℤ) → List ℕ → List ℕ
  perm (score : ℕ → ℤ) (l : List ℕ) : (sort score l).Perm l
  pairwise (score : ℕ → ℤ) (l : List ℕ) : (sort score l).Pairwise fun p q => score q ≤ score p

/-- `RoundMgr`. The lists hold addresses, of which `made` have been given out; `rankList` is a
copy of its own, with users and scores. -/
structure RoundMgr where
  sngConfig : SngConfig
  items : ℕ → PlayerItem
  made : ℕ
  playing : Bool := false
  playerList : List ℕ := []
  roomList : List RoomInfo := []
  reservePlayer : List ℕ := []
  roundLevel : ℕ := 0
  roundCount : ℕ := 1
  playingPlayers : List ℕ := []
  rankList : List (ℕ × ℤ) := []
  roundConfig : RoundConfig
  cutScore : ℤ
  timers : List Timer := []

namespace RoundMgr

variable (m : RoundMgr)

/-- The score of a player. -/
def score (ref : ℕ) : ℤ := (m.items ref).score

/-- What a score map says of a player. -/
def named (scoreMap : ℕ → Option ℤ) (ref : ℕ) : Option ℤ := scoreMap (m.items ref).uid

def setTimeOut (timer : Timer) : RoundMgr := { m with timers := m.timers ++ [timer] }

/-- `RoundMgr:getRoom`. -/
def getRoom (roomid : ℕ) : Option RoomInfo := m.roomList.find? fun room => room.roomid == roomid

/-- `RoundMgr:deletePlayer`. -/
def deletePlayer (uid : ℕ) : RoundMgr :=
  { m with playerList := m.playerList.eraseP fun ref => (m.items ref).uid == uid }

/-- `RoundMgr:updateOutPlayerStatus`. -/
def updateOutPlayerStatus (ref : ℕ) : RoundMgr := m.deletePlayer (m.items ref).uid

/-- `RoundMgr:refreshRankList`. -/
def refreshRankList (uid : ℕ) (score : ℤ) : List (ℕ × ℤ) → List (ℕ × ℤ)
  | [] => []
  | item :: rest =>
    if item.1 = uid then (uid, score) :: rest else item :: refreshRankList uid score rest

/-- The rank list takes the score of a player. -/
def refresh (ref : ℕ) : RoundMgr :=
  { m with rankList := refreshRankList (m.items ref).uid (m.score ref) m.rankList }

/-! ### Scores -/

/-- A player gets a new score. -/
def setScore (ref : ℕ) (score : ℤ) : RoundMgr :=
  { m with items := Function.update m.items ref { m.items ref with score := score } }

/-- The first loop of `updateScore`, which ends at a player whose score falls below the cut, and
whether it does. -/
def addScores (scoreMap : ℕ → Option ℤ) : List ℕ → RoundMgr → RoundMgr × Bool
  | [], m => (m, false)
  | ref :: rest, m =>
    match m.named scoreMap ref with
    | none => addScores scoreMap rest m
    | some amount =>
      let m := (m.setScore ref (m.score ref + amount)).refresh ref
      if m.score ref < m.cutScore then (m, true) else addScores scoreMap rest m

/-- The second loop of `updateScore`: the players of the map who are kept. -/
def reserve (scoreMap : ℕ → Option ℤ) : RoundMgr :=
  { m with
    reservePlayer := m.reservePlayer ++ m.playingPlayers.filter fun ref =>
      (m.named scoreMap ref).isSome && decide (m.cutScore ≤ m.score ref) }

/-- One game more of a room. -/
def countGame (roomid : ℕ) : List RoomInfo → List RoomInfo
  | [] => []
  | room :: rest =>
    if room.roomid = roomid then { room with roundCount := room.roundCount + 1 } :: rest
    else room :: countGame roomid rest

/-- The lists in the order of the scores. -/
def sortPlayers (sort : ScoreSort) : RoundMgr :=
  let m := { m with
    playerList := sort.sort m.score m.playerList
    playingPlayers := sort.sort m.score m.playingPlayers }
  let m := m.playingPlayers.foldl refresh m
  { m with reservePlayer := sort.sort m.score m.reservePlayer }

/-- `RoundMgr:updateScore`, with whether the game is to end. A call without a score map passes an
empty one. -/
def updateScore (sort : ScoreSort) (scoreMap : ℕ → Option ℤ) (roomid : ℕ) : RoundMgr × Bool :=
  match m.getRoom roomid with
  | none => (m, false)
  | some roomInfo =>
    let full := decide (m.roundConfig.endCount ≤ roomInfo.roundCount)
    let m := { m with roomList := countGame roomid m.roomList }
    let added := addScores scoreMap m.playingPlayers m
    let m := added.1
    let willGameEnd := full || added.2
    let m := if willGameEnd then m.reserve scoreMap else m
    (m.sortPlayers sort, willGameEnd)

/-! ### Rounds -/

/-- `RoundMgr:removeRoom`: the players of the room who are not kept are out. -/
def removeRoom (roomid : ℕ) : RoundMgr :=
  if (m.getRoom roomid).isSome then
    let out := m.playingPlayers.filter fun ref =>
      (m.items ref).room == some roomid && !m.reservePlayer.contains ref
    let m := out.foldl updateOutPlayerStatus m
    { m with roomList := m.roomList.eraseP fun room => room.roomid == roomid }
  else m

/-- `RoundMgr:overRound`. -/
def overRound : RoundMgr :=
  let roundConfig := m.sngConfig.round 1
  { m with
    playing := false
    playerList := []
    roundLevel := 0
    roundCount := 1
    roundConfig := roundConfig
    cutScore := roundConfig.cutScore.headD 0
    reservePlayer := [] }

/-- The configuration of the round after. -/
def advance : RoundMgr :=
  { m with roundCount := m.roundCount + 1, roundConfig := m.sngConfig.round (m.roundCount + 1) }

/-- The last of the kept players is out, `n` times. -/
def removeOut : ℕ → RoundMgr → RoundMgr
  | 0, m => m
  | n + 1, m =>
    match m.reservePlayer.getLast? with
    | none => m
    | some ref =>
      removeOut n { m.updateOutPlayerStatus ref with reservePlayer := m.reservePlayer.dropLast }

/-- The kept players are removed from the end until the round can take them, and it is set to
begin. -/
def goOn : RoundMgr :=
  (removeOut (m.reservePlayer.length - m.roundConfig.openCount) m).setTimeOut .nextRound

/-- The loop of `onGameEnd` over the rounds that are left, the number `n` of which bounds it. -/
def skipRounds : ℕ → RoundMgr → RoundMgr
  | 0, m => m.setTimeOut .nextRound
  | n + 1, m =>
    let m := m.advance
    if m.roundConfig.openCount < m.reservePlayer.length then m.goOn
    else if m.roundCount = m.sngConfig.totalRound then m.overRound
    else skipRounds n m

/-- `RoundMgr:onGameEnd`. -/
def onGameEnd (roomid : ℕ) : RoundMgr :=
  let m := m.removeRoom roomid
  if m.roomList ≠ [] then m
  else if m.roundCount = m.sngConfig.totalRound then m.overRound
  else
    let m : RoundMgr := { m.advance with roundLevel := 0 }
    if m.reservePlayer.length < m.roundConfig.openCount then
      if m.roundCount < m.sngConfig.totalRound then
        skipRounds (m.sngConfig.totalRound - m.roundCount) m
      else m.overRound
    else m.goOn

/-- The score with which a player begins a round: half of the last one, rounded up. -/
def firstScore (ref : ℕ) : ℤ :=
  if m.roundCount = 1 then m.sngConfig.initScore else (m.score ref + 1) / 2

/-- `RoundMgr:beginRound`. With too few or too many players nothing follows. -/
def beginRound (playerList : List ℕ) : RoundMgr :=
  let m := { m with playing := true, playingPlayers := [], roundLevel := 0 }
  let m := playerList.foldl (fun m ref => (m.setScore ref (m.firstScore ref)).refresh ref) m
  let m :=
    if playerList.length = m.roundConfig.openCount then m.setTimeOut (.allocRoom playerList) else m
  { m with reservePlayer := [] }

/-- The timer that `addPlayer` sets: the first round begins with all players. -/
def firstRound : RoundMgr :=
  let m := { m with rankList := m.playerList.map fun ref => ((m.items ref).uid, m.score ref) }
  m.beginRound m.playerList

/-- A player gets a room: the round has a copy of him. -/
def allocPlayer (roomid : ℕ) (ref : ℕ) : RoundMgr :=
  let item := { m.items ref with room := some roomid }
  { m with
    items := Function.update (Function.update m.items ref item) m.made item
    made := m.made + 1
    playingPlayers := m.playingPlayers ++ [m.made] }

/-- The loop of `allocRoom` over the rooms that it is given, by their numbers and sizes. There is no
result when a room is not filled, which is a Lua error, or when players are left. -/
def allocRooms : List (ℕ × ℕ) → List ℕ → RoundMgr → Option RoundMgr
  | [], players, m => if players = [] then some m else none
  | (roomid, maxplayernum) :: rooms, players, m =>
    if players = [] ∨ players.length < maxplayernum then none
    else
      let m := { m with roomList := m.roomList ++ [⟨roomid, 1⟩] }
      allocRooms rooms (players.drop maxplayernum)
        ((players.take maxplayernum).foldl (allocPlayer · roomid) m)

/-- `RoundMgr:allocRoom`. -/
def allocRoom (rooms : List (ℕ × ℕ)) (playerList : List ℕ) : Option RoundMgr :=
  allocRooms rooms playerList { m with roomList := [] }

/-- `RoundMgr:checkCutScore`. -/
def checkCutScore : RoundMgr :=
  let roundLevel := min (m.roundLevel + 1) m.roundConfig.cutScore.length
  { m with
    roundLevel := roundLevel
    cutScore := m.roundConfig.cutScore.getD (roundLevel - 1) m.cutScore }

/-! ### Runs -/

/-- The reports of the rooms, and the timers. -/
inductive Event
  | updateScore (scoreMap : ℕ → Option ℤ) (roomid : ℕ)
  | onGameEnd (roomid : ℕ)
  | firstRound
  | nextRound
  | allocRoom (rooms : List (ℕ × ℕ)) (playerList : List ℕ)
  | checkCutScore

/-- A timer that has been set runs. -/
def runTimer (timer : Timer) : Option RoundMgr :=
  if timer ∈ m.timers then some { m with timers := m.timers.erase timer } else none

/-- One event. -/
def step (sort : ScoreSort) : Event → Option RoundMgr
  | .updateScore scoreMap roomid => some (m.updateScore sort scoreMap roomid).1
  | .onGameEnd roomid => some (m.onGameEnd roomid)
  | .firstRound => (m.runTimer .firstRound).map firstRound
  | .nextRound => (m.runTimer .nextRound).map fun m => m.beginRound m.reservePlayer
  | .allocRoom rooms playerList =>
    (m.runTimer (.allocRoom playerList)).bind fun m => m.allocRoom rooms playerList
  | .checkCutScore => some m.checkCutScore

/-- Between events the players of a round are different tables, the kept ones are in the order of
their scores, and the round is one of the tournament's. -/
structure Sound : Prop where
  nodup : m.playingPlayers.Nodup
  playing_lt : ∀ ref ∈ m.playingPlayers, ref < m.made
  reserve_lt : ∀ ref ∈ m.reservePlayer, ref < m.made
  sorted : m.reservePlayer.Pairwise fun p q => m.score q ≤ m.score p
  one_le : 1 ≤ m.roundCount
  roundCount_le : m.roundCount ≤ m.sngConfig.totalRound

end RoundMgr

end Sng
