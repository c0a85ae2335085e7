import JsmjServer.Lobby.EnterRoom

set_option relaxedAutoImplicit false
set_option autoImplicit false

/-!
# Leaving a room

A player who leaves while a game is played stays in the room until the game has ended: `leaveRoom`
of `common/base/baseroom.lua` puts the uid in `leavePlayers`, and `GameEnd` is to remove the players
whose uids are there. It does so with `table.removeItem` (`global/functions.lua`), which looks for a
value at the positions `1, …, #list`. The players are the values of a table whose keys are the uids.

## Main definitions

* `Lobby.removeItem` — `table.removeItem` on a table of values of one type.
* `Lobby.GameRoom` — a room with the players who wait to leave.
* `Lobby.GameRoom.call` — one of the calls `enterRoom`, `leaveRoom`, `startGame` and `GameEnd`.
* `Lobby.LeaversGone` — those who wait to leave have left, and the others are as they were.

## Main results

* `Lobby.leaversGone_iff` — those who wait leave at the end of a game exactly when none of them is a
  player any more.

## Implementation notes

The calls come one after another. Where a handler calls the race manager or the robots, their
answers are part of the call. The length operator may yield any border of a table; it is part of
the call, too.
-/

namespace Lobby

/-! ### `table.removeItem` -/

/-- The values that the lists of a room hold: numbers, and players, of which the desk position is
kept. -/
inductive LuaValue
  | number (n : ℕ)
  | player (deskPos : ℕ)
  deriving DecidableEq, Repr

section Remove

variable {β : Type}

/-- `table.remove` at a position of a list of length `n`: what comes after it moves down. -/
def tableRemove (n : ℕ) (list : LuaTable ℕ β) (pos : ℕ) : LuaTable ℕ β :=
  ((List.range' pos (n - pos)).foldl (fun list i =>
    match list.lookup (i + 1) with
    | some v => list.insert i v
    | none => list.erase i) list).erase n

/-- `table.removeItem` of the first occurrence. Two values are equal as Lua values. -/
def removeItem (len : LuaTable ℕ β → ℕ) (value : β → LuaValue) (list : LuaTable ℕ β)
    (item : LuaValue) : LuaTable ℕ β :=
  match (List.range' 1 (len list)).find? fun i => (list.lookup i).map value = some item with
  | some i => tableRemove (len list) list i
  | none => list

lemma removeItem_of_ne {len : LuaTable ℕ β → ℕ} {value : β → LuaValue} {list : LuaTable ℕ β}
    {item : LuaValue} (h : ∀ v, value v ≠ item) : removeItem len value list item = list := by
  have hnone : (List.range' 1 (len list)).find?
      (fun i => (list.lookup i).map value = some item) = none := by
    refine List.find?_eq_none.mpr fun i _ hi => ?_
    obtain ⟨v, -, hv⟩ := Option.map_eq_some_iff.mp (of_decide_eq_true hi)
    exact h v hv
  rw [removeItem, hnone]

end Remove

/-! ### The room -/

/-- A room, with the uids of `leavePlayers` and whether its vote has disbanded it. -/
structure GameRoom extends BaseRoom where
  minPlayer : ℕ := 0
  leavePlayers : List ℕ := []
  isDisband : Bool := false

namespace GameRoom

/-- The room with other containers. -/
def withBase (r : GameRoom) (b : BaseRoom) : GameRoom := { r with toBaseRoom := b }

/-- `CMD:leaveRoom`, with its second result: whether the seat is held for the user. -/
def leaveRoom (r : GameRoom) (uid : ℕ) : GameRoom × Bool :=
  let r := match r.players.lookup uid with
    | none => r
    | some deskPos =>
      if r.isPlaying then { r with leavePlayers := r.leavePlayers.erase uid ++ [uid] }
      else
        -- the seat of a locked room is kept
        let b := if r.roomType = some .vip ∧ r.isVIPLock then
            { r.toBaseRoom with lockedPlayers := r.lockedPlayers.insert uid deskPos }
          else r.toBaseRoom
        r.withBase (b.deletePlayer uid)
  (r, !r.isDisband && !r.isVIPLock && (r.holdPlayers.lookup uid).isSome)

/-- The answers that `notifyPlayerLeave` is given: of the robots, when the player is one, and of the
race manager, which calls the room's `leaveRoom` before it agrees. -/
structure Answers where
  robot : Option Bool
  manager : Bool
  deriving DecidableEq, Repr

/-- `baseroom:notifyPlayerLeave`. -/
def notifyPlayerLeave (r : GameRoom) (uid : ℕ) (answers : Answers) : GameRoom :=
  if r.isPlayingPlayer uid then if answers.manager then (r.leaveRoom uid).1 else r
  else
    let r := if answers.robot = some false then r.withBase (r.deletePlayer uid) else r
    if answers.manager then (r.leaveRoom uid).1 else r.withBase (r.deletePlayer uid)

/-- `CMD:enterRoom`. A player whose coins do not fit is added first and then sent away. -/
def enterRoom (r : GameRoom) (uid : ℕ) (money : ℤ) (answers : Answers) : GameRoom :=
  match r.findSeat uid with
  | none => r
  | some resultSeat =>
    if r.newGamePlayer resultSeat then
      let r' := r.withBase (r.letIn uid resultSeat)
      if r.moneyFits money then r' else r'.notifyPlayerLeave uid answers
    else r

/-- `baseroom:GameEnd`: the game is over, and those who wait are removed from the players. -/
def gameEnd (r : GameRoom) (len : LuaTable ℕ ℕ → ℕ) : GameRoom :=
  r.withBase { r.toBaseRoom with
    isPlaying := false
    players := r.leavePlayers.foldl
      (fun players uid => removeItem len .player players (.number uid)) r.players }

/-- `CMD:startGame`. With too few players the game ends at once. A room opened by a user locks the
seats of the game (`GameProgress.playerList`), which are `seats`. -/
def startGame (r : GameRoom) (seats : LuaTable ℕ ℕ) (len : LuaTable ℕ ℕ → ℕ) : GameRoom :=
  match r.roomType with
  | some .common | some .sng | some .vip =>
    if r.players.keys.length < r.minPlayer then r.gameEnd len
    else
      let b := { r.toBaseRoom with
        isPlaying := true
        playingPlayers := (r.players.entries.filter fun x => 0 < x.2).map (·.1) }
      let b := if r.roomType = some .vip then
          { b with lockedPlayers := seats, holdPlayers := ∅ }
        else b
      { r.withBase b with leavePlayers := [] }
  | some .mtt | none => r

inductive Call
  | enterRoom (uid : ℕ) (money : ℤ) (answers : Answers)
  | leaveRoom (uid : ℕ)
  | startGame (seats : LuaTable ℕ ℕ) (len : LuaTable ℕ ℕ → ℕ)
  | gameEnd (len : LuaTable ℕ ℕ → ℕ)

/-- What a call does to the room. -/
def call (r : GameRoom) : Call → GameRoom
  | .enterRoom uid money answers => r.enterRoom uid money answers
  | .leaveRoom uid => (r.leaveRoom uid).1
  | .startGame seats len => r.startGame seats len
  | .gameEnd len => r.gameEnd len

/-- The room after some calls. -/
def run (r : GameRoom) (calls : List Call) : GameRoom := calls.foldl call r

end GameRoom

/-! ### The end of a game -/

/-- From `r` to `r'` those who wait to leave have left: they are no players of `r'` and nobody has
the seat they had, and all others are as they were. -/
structure LeaversGone (r r' : GameRoom) : Prop where
  gone : ∀ uid ∈ r.leavePlayers, uid ∉ r'.players
  free : ∀ uid ∈ r.leavePlayers, ∀ deskPos, r.players.lookup uid = some deskPos →
    deskPos ∉ r'.seatMap
  others : ∀ uid, uid ∉ r.leavePlayers → r'.players.lookup uid = r.players.lookup uid

/-- The end of a game removes no player: the values of the table are players, none of which equals a
number. -/
lemma players_gameEnd (r : GameRoom) (len : LuaTable ℕ ℕ → ℕ) :
    (r.gameEnd len).players = r.players := by
  change r.leavePlayers.foldl _ r.players = r.players
  induction r.leavePlayers with
  | nil => rfl
  | cons uid leavePlayers ih =>
    rw [List.foldl_cons, removeItem_of_ne fun v => by exact LuaValue.noConfusion]
    exact ih

/-- Whatever calls came before, the players who wait to leave have left after the end of the game
**exactly when** none of them is a player any more before it.

**Proof sketch.** The end of a game leaves the players as they are (`players_gameEnd`). -/
theorem leaversGone_iff (r : GameRoom) (calls : List GameRoom.Call) (len : LuaTable ℕ ℕ → ℕ) :
    LeaversGone (r.run calls) ((r.run calls).call (.gameEnd len)) ↔
      ∀ uid ∈ (r.run calls).leavePlayers, uid ∉ (r.run calls).players := by
  set r' := r.run calls
  have hplayers : (r'.call (.gameEnd len)).players = r'.players := players_gameEnd r' len
  constructor
  · intro h uid huid
    rw [← hplayers]
    exact h.gone uid huid
  · intro h
    refine ⟨?_, ?_, ?_⟩
    · intro uid huid
      rw [hplayers]
      exact h uid huid
    · intro uid huid deskPos hpos
      refine absurd ?_ (h uid huid)
      rw [← AList.lookup_isSome, hpos]
      rfl
    · intro uid _
      rw [hplayers]

/-- A common room for two. -/
def roomForTwo : GameRoom where
  maxPlayer := 2
  roomType := some .common
  maxCoin := 1000
  minPlayer := 2

/-- Two users enter and play, and one leaves during the game: after the end of the game it is still
there, on its seat. -/
theorem leaver_stays :
    ¬ ∀ calls len, LeaversGone (roomForTwo.run calls) ((roomForTwo.run calls).call (.gameEnd len)) := by
  intro h
  have hgone := (h [.enterRoom 7 100 ⟨none, false⟩, .enterRoom 8 100 ⟨none, false⟩,
    .startGame ∅ fun _ => 0, .leaveRoom 8] fun _ => 0).gone 8 (by decide)
  exact absurd hgone (by decide)

end Lobby
