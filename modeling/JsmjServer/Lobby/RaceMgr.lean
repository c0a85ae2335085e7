import JsmjServer.Lobby.EnterRoom

set_option relaxedAutoImplicit false
set_option autoImplicit false

/-!
# The race manager

The handlers of `service/gameracemgr.lua` that keep the lists of a room: who is in it, who has a
seat, who is ready, who watches and whose connection is lost. Every message is handled by a
coroutine of its own, which is suspended where the handler calls another service; a step lets one
coroutine go on to its next call.

## Main definitions

* `RaceMgr` — the tables of the manager and the coroutines that wait.
* `RaceMgr.checkGameStart` — `CheckGameStart` up to the call of the room.
* `RaceMgr.userReady`, `RaceMgr.userLeaveRoom`, `RaceMgr.userDisconnect` and so on — the handlers
  up to their first call.
* `RaceMgr.resume` — what a coroutine does when the call has returned.
* `RaceMgr.step` — a message, or the return of a call.

## Implementation notes

Rooms and players are Lua tables that a coroutine may keep while others put a new table in the
pool; they have an address here. The answers of the rooms are part of the step, and so is the room
that `enterRoom` finds for a user, which `Lobby.enterRoom` is about. `CheckGameStart` is always a
step of its own, as if it had to wait for the queue `cs`, which is held while a coroutine in it
waits. A Lua error ends the coroutine; what it has done before stays. `starts` records the games
that `CheckGameStart` has started. Messages to clients and agents change nothing here.
-/

open Lobby (LuaTable RoomState addUid)

namespace RaceMgr

/-- `Enums.PlayerState`. -/
inductive PlayerState
  | idle | seat | watch | ready | playing | wating | sngSignup | mttSignup
  deriving DecidableEq, Repr

/-- `Enums.GameBeginType`. -/
inductive GameBeginType
  | allReadyEqualMaxPlayer | allReadyMoreThanMinPlayer
  deriving DecidableEq, Repr

/-- A group of `group_list`; `players` are the users who have entered the game. -/
structure Group where
  minplayer : ℕ
  maxplayer : ℕ
  gameBeginType : GameBeginType
  isVIP : Bool
  players : List ℕ := []

/-- A room. A new one has no `minplayernum`. -/
structure Room where
  roomstatus : RoomState := .idle
  minplayernum : Option ℕ := none
  maxplayernum : ℕ := 0
  curplayers : List ℕ := []
  readyplayers : List ℕ := []
  seatplayers : List ℕ := []
  watchplayers : List ℕ := []
  cutplayers : List ℕ := []
  groupid : ℕ := 0
  isVIP : Bool := false
  isReleased : Bool := false

/-- A user of `player_list`. -/
structure Player where
  roomid : ℕ := 0
  playerstatus : PlayerState := .idle
  groupid : ℕ := 0
  holdRoomId : Option ℕ := none

namespace Room

variable (room : Room) (uid : ℕ)

/-- The user gets a seat, and is not ready. -/
def sit : Room :=
  { room with
    readyplayers := room.readyplayers.erase uid
    seatplayers := addUid room.seatplayers uid
    watchplayers := room.watchplayers.erase uid }

/-- The user gives up the seat, or does not get one. -/
def stand : Room :=
  { room with
    readyplayers := room.readyplayers.erase uid
    seatplayers := room.seatplayers.erase uid
    watchplayers := addUid (room.watchplayers.erase uid) uid }

/-- `userStandup` puts the user at the end of the list of seats. -/
def sitDown : Room :=
  { room with
    readyplayers := room.readyplayers.erase uid
    seatplayers := room.seatplayers.erase uid ++ [uid]
    watchplayers := room.watchplayers.erase uid }

/-- The user has entered the room. -/
def enter (isPlayer : Bool) : Room :=
  if isPlayer then { room with
    curplayers := addUid room.curplayers uid
    seatplayers := addUid room.seatplayers uid }
  else { room with
    curplayers := addUid room.curplayers uid
    watchplayers := addUid room.watchplayers uid }

/-- The user is taken off all lists. -/
def remove : Room :=
  { room with
    curplayers := room.curplayers.erase uid
    readyplayers := room.readyplayers.erase uid
    watchplayers := room.watchplayers.erase uid
    seatplayers := room.seatplayers.erase uid
    cutplayers := room.cutplayers.erase uid }

/-- The user raises a hand. -/
def raiseHand : Room := { room with readyplayers := addUid (room.readyplayers.erase uid) uid }

/-- The users whose connection is lost are taken off their seats, and off no other list. -/
def dropCut : Room :=
  { room with
    seatplayers := room.cutplayers.foldl List.erase room.seatplayers
    cutplayers := [] }

/-- Nobody is left in the room. -/
def isEmpty : Bool := room.curplayers.isEmpty && room.watchplayers.isEmpty

end Room

/-- Who has called `leaveRoom`: another service, `userDisconnect`, the coroutine that
`CheckGameStart` forks for a user whose connection is lost, or `changeRoom`. -/
inductive Caller
  | service
  | disconnect (uid player : ℕ)
  | fork (uid : ℕ)
  | change (uid findedRoomId : ℕ)

/-- What follows `CheckGameStart`: nothing, or the rest of `userLeaveRoom`. -/
inductive After
  | nothing
  | left (roomid : ℕ) (leaveGame : Bool) (caller : Caller)

/-- A coroutine that waits, with the values it has kept.

* `entered` — `enterRoom`, for the room;
* `selectedSeat`, `quit`, `stoodUp`, `readied` — `userSelectSeat`, `userQuit`, `userStandup` and
  `userReady`, for the room;
* `left`, `idled` — `userLeaveRoom`, for the room and then for the agent;
* `check` — `CheckGameStart`, for the queue;
* `started`, `reset`, `made` — `CheckGameStart`, for the room, and in `ResetRoom` for a new service
  and for the room that is made of it;
* `readying`, `leaving` — forked: `userReady`, and `leaveRoom` with `leaveGame`. -/
inductive Coroutine
  | entered (uid findedRoomId : ℕ)
  | selectedSeat (uid player room roomid : ℕ)
  | quit (player : ℕ)
  | stoodUp (uid roomid : ℕ) (isstandup : Bool)
  | readied (room roomid : ℕ)
  | left (uid player : ℕ) (caller : Caller)
  | idled (uid player : ℕ) (isHold : Bool) (caller : Caller)
  | check (groupid roomid : ℕ) (after : After)
  | started (room roomid : ℕ) (after : After)
  | reset (roomid : ℕ) (isVIP : Bool) (after : After)
  | made (after : After)
  | readying (uid : ℕ)
  | leaving (uid : ℕ)

/-- A game that `CheckGameStart` has started, with the lists it has compared. -/
structure Start where
  readyplayers : List ℕ
  seatplayers : List ℕ
  minplayernum : ℕ
  deriving DecidableEq

/-- The results of a call. Which of them are read depends on the call. -/
structure Answer where
  ok : Bool := true
  more : Bool := false
  ret : ℕ := 0

end RaceMgr

/-- The race manager: its tables, where `room_pool` and `player_list` hold addresses, the coroutines
that wait, whether the queue `cs` is held, and the games started. -/
structure RaceMgr where
  group_list : LuaTable ℕ RaceMgr.Group
  room_pool : LuaTable ℕ ℕ := ∅
  rooms : ℕ → RaceMgr.Room := fun _ => {}
  player_list : LuaTable ℕ ℕ := ∅
  players : ℕ → RaceMgr.Player := fun _ => {}
  nextTable : ℕ := 0
  waiting : List RaceMgr.Coroutine := []
  csHeld : Bool := false
  starts : List RaceMgr.Start := []

namespace RaceMgr

/-- `CMD.open`: all groups have the same type of beginning, and nobody is there. -/
def opened (groups : LuaTable ℕ (ℕ × ℕ × Bool)) : RaceMgr where
  group_list := ⟨groups.entries.map fun g => ⟨g.1, {
    minplayer := g.2.1
    maxplayer := g.2.2.1
    gameBeginType := .allReadyMoreThanMinPlayer
    isVIP := g.2.2.2 }⟩, by
      have h := groups.nodupKeys
      unfold List.NodupKeys List.keys at h ⊢
      rw [List.map_map]
      exact h⟩

variable (s : RaceMgr)

def updRoom (room : ℕ) (f : Room → Room) : RaceMgr :=
  { s with rooms := Function.update s.rooms room (f (s.rooms room)) }

def updPlayer (player : ℕ) (f : Player → Player) : RaceMgr :=
  { s with players := Function.update s.players player (f (s.players player)) }

def wait (c : Coroutine) : RaceMgr := { s with waiting := s.waiting ++ [c] }

def hold : RaceMgr := { s with csHeld := true }

def release : RaceMgr := { s with csHeld := false }

/-- A change of the user's own table, when there is one. -/
def updUser (uid : ℕ) (f : Player → Player) : RaceMgr :=
  match s.player_list.lookup uid with
  | none => s
  | some player => s.updPlayer player f

/-- `CreateRoom` puts a new table in the pool. -/
def createRoom (roomid : ℕ) (isVIP : Bool) : RaceMgr :=
  { s with
    rooms := Function.update s.rooms s.nextTable { isVIP := isVIP }
    room_pool := s.room_pool.insert roomid s.nextTable
    nextTable := s.nextTable + 1 }

/-- `getRoomFromPool` takes an idle room, or the one with a fixed number. -/
def getRoomFromPool (groupid roomid : ℕ) (fixed : Bool) : RaceMgr :=
  match s.group_list.lookup groupid, s.room_pool.lookup roomid with
  | some group, some room =>
    if fixed ∨ (s.rooms room).roomstatus = .idle then
      s.updRoom room fun r => { r with
        roomstatus := .wait
        minplayernum := some group.minplayer
        maxplayernum := group.maxplayer
        groupid := groupid }
    else s
  | _, _ => s

/-! ### Entering and leaving -/

/-- `enterGame`. -/
def enterGame (uid groupid : ℕ) : RaceMgr :=
  if s.group_list.entries.any fun g => uid ∈ g.2.players then s
  else match s.group_list.lookup groupid with
    | none => s
    | some group =>
      let group := { group with players := group.players ++ [uid] }
      let s := { s with group_list := s.group_list.insert groupid group }
      match s.player_list.lookup uid with
      | none =>
        { s with
          players := Function.update s.players s.nextTable { groupid := groupid }
          player_list := s.player_list.insert uid s.nextTable
          nextTable := s.nextTable + 1 }
      | some player => s.updPlayer player fun p => { p with
          playerstatus := .idle
          groupid := groupid
          roomid := if p.holdRoomId.getD 0 ≠ 0 then p.holdRoomId.getD 0 else p.roomid }

/-- `enterRoom` up to the call of the room. A user who comes back after a lost connection is only
taken off the list of those. -/
def enterRoom (uid findedRoomId : ℕ) : RaceMgr :=
  match s.player_list.lookup uid with
  | none => s
  | some ref =>
    let player := s.players ref
    if 0 < player.roomid ∧ player.holdRoomId = some 0 then
      match s.room_pool.lookup player.roomid with
      | none => s
      | some room => s.updRoom room fun r => { r with cutplayers := r.cutplayers.erase uid }
    else match s.group_list.lookup player.groupid with
      | none => s
      | some _ =>
        let findedRoomId :=
          if 0 < player.holdRoomId.getD 0 then player.holdRoomId.getD 0 else findedRoomId
        match s.room_pool.lookup findedRoomId with
        | none => s
        | some _ => s.wait (.entered uid findedRoomId)

/-- The room has let the user in or not. -/
def entered (uid findedRoomId : ℕ) (enterOK isPlayer : Bool) : RaceMgr :=
  if enterOK then
    let s := match s.room_pool.lookup findedRoomId with
      | none => s
      | some room => s.updRoom room (Room.enter · uid isPlayer)
    s.updUser uid fun p => { p with
      playerstatus := if isPlayer then .seat else .watch
      roomid := findedRoomId }
  else s

/-- The user is no longer one of the group's players. -/
def leaveGroup (groupid uid : ℕ) : RaceMgr :=
  match s.group_list.lookup groupid with
  | none => s
  | some group =>
    let group := { group with players := group.players.erase uid }
    { s with group_list := s.group_list.insert groupid group }

/-- `leaveGame`. -/
def leaveGame (uid : ℕ) : RaceMgr :=
  match s.player_list.lookup uid with
  | none => s
  | some player =>
    let s := s.leaveGroup (s.players player).groupid uid
    { s with player_list := s.player_list.erase uid }

/-- `leaveRoom` has returned. -/
def returned (caller : Caller) (ret leaveGame : Bool) : RaceMgr :=
  match caller with
  | .service => s
  | .disconnect uid player =>
    if leaveGame then s.leaveGame uid else s.leaveGroup (s.players player).groupid uid
  | .fork uid => s.leaveGame uid
  | .change uid findedRoomId => if ret then s.enterRoom uid findedRoomId else s

/-- `userLeaveRoom` up to the call of the room. -/
def userLeaveRoom (uid : ℕ) (caller : Caller) : RaceMgr :=
  match s.player_list.lookup uid with
  | none => s.returned caller false false
  | some player =>
    match s.room_pool.lookup (s.players player).roomid with
    | none => s.returned caller false true
    | some _ => s.wait (.left uid player caller)

/-- The room has let the user go or not. -/
def left (uid ref : ℕ) (caller : Caller) (bRet isHold : Bool) : RaceMgr :=
  if bRet then
    let player := s.players ref
    let s := s.updPlayer ref fun p => { p with
      holdRoomId := some (if isHold then p.roomid else 0) }
    if player.playerstatus = .playing then s.returned caller false false
    else match s.room_pool.lookup player.roomid with
      | none => s
      | some room =>
        let s := s.updRoom room (Room.remove · uid)
        if uid ∈ s.player_list then s.wait (.idled uid ref isHold caller) else s
  else s.returned caller false false

/-- The agent has been told that the user has left. -/
def idled (uid ref : ℕ) (isHold : Bool) (caller : Caller) : RaceMgr :=
  match s.player_list.lookup uid with
  | none => s
  | some player =>
    let roomid := (s.players player).roomid
    let s := s.updPlayer player fun p => { p with roomid := 0, playerstatus := .idle }
    s.wait (.check (s.players ref).groupid roomid (.left roomid (!isHold) caller))

/-- The rest of a handler after `CheckGameStart`. When the room is no longer in the pool, the
message about it fails. -/
def proceed : After → RaceMgr
  | .nothing => s
  | .left roomid leaveGame caller =>
    if roomid ∈ s.room_pool then s.returned caller true leaveGame else s

/-- `userDisconnect`. -/
def userDisconnect (uid : ℕ) : RaceMgr :=
  match s.player_list.lookup uid with
  | none => s
  | some ref =>
    match (s.players ref).playerstatus with
    | .sngSignup => s
    | .playing =>
      match s.room_pool.lookup (s.players ref).roomid with
      | none => s
      | some room => s.updRoom room fun r => { r with cutplayers := r.cutplayers.erase uid ++ [uid] }
    | _ => s.userLeaveRoom uid (.disconnect uid ref)

/-! ### Seats -/

/-- `userSelectSeat` up to the call of the room. -/
def userSelectSeat (uid : ℕ) : RaceMgr :=
  match s.player_list.lookup uid with
  | none => s
  | some player =>
    match s.room_pool.lookup (s.players player).roomid with
    | none => s
    | some room => s.hold.wait (.selectedSeat uid player room (s.players player).roomid)

/-- The room has given the user a seat (1, or 2 when there was one before), or not (0). -/
def selectedSeat (uid player room roomid ret : ℕ) : RaceMgr :=
  if ret = 1 ∨ ret = 2 then
    let s := s.updPlayer player fun p => { p with playerstatus := .seat }
    let s := s.updRoom room (Room.sit · uid)
    (s.updUser uid fun p => { p with playerstatus := .seat, holdRoomId := some roomid }).release
  else if ret = 0 then
    let s := s.updRoom room (Room.stand · uid)
    (s.updUser uid fun p => { p with playerstatus := .watch, holdRoomId := some 0 }).release
  else s.release

/-- `userQuit` up to the call of the room. -/
def userQuit (uid : ℕ) : RaceMgr :=
  match s.player_list.lookup uid with
  | none => s
  | some player =>
    match s.room_pool.lookup (s.players player).roomid with
    | none => s
    | some _ => s.wait (.quit player)

/-- `userStandup` up to the call of the room. -/
def userStandup (uid : ℕ) (isstandup : Bool) : RaceMgr :=
  match s.player_list.lookup uid with
  | none => s
  | some player =>
    match s.room_pool.lookup (s.players player).roomid with
    | none => s
    | some _ => s.wait (.stoodUp uid (s.players player).roomid isstandup)

/-- The room has let the user stand up or sit down. A user who sits down is made ready. -/
def stoodUp (uid roomid : ℕ) (isstandup : Bool) : RaceMgr :=
  match s.room_pool.lookup roomid with
  | none => s
  | some room =>
    let s := s.updRoom room (if isstandup then (Room.stand · uid) else (Room.sitDown · uid))
    match s.player_list.lookup uid with
    | none => s
    | some player =>
      let s := s.updPlayer player fun p => { p with
        playerstatus := if isstandup then .watch else .seat }
      let s := if isstandup then s else s.wait (.readying uid)
      s.wait (.check (s.players player).groupid roomid .nothing)

/-! ### The beginning of a game -/

/-- `userReady` up to the call of the room. -/
def userReady (uid : ℕ) : RaceMgr :=
  match s.player_list.lookup uid with
  | none => s
  | some player =>
    if (s.players player).playerstatus = .seat then
      let roomid := (s.players player).roomid
      let s := s.updPlayer player fun p => { p with playerstatus := .ready }
      match s.room_pool.lookup roomid with
      | none => s
      | some room => (s.updRoom room (Room.raiseHand · uid)).wait (.readied room roomid)
    else s

/-- The end of `CheckGameStart`: a room without users is given up. -/
def closeRoom (room roomid : ℕ) (after : After) : RaceMgr :=
  let r := s.rooms room
  if r.isEmpty then
    if r.isVIP then
      if r.isReleased then
        match s.group_list.lookup r.groupid with
        | none => s.release
        | some _ => ({ s with room_pool := s.room_pool.erase roomid }.release).proceed after
      else s.release.proceed after
    else
      match s.room_pool.lookup roomid with
      | none => s.release.proceed after
      | some room =>
        match s.group_list.lookup (s.rooms room).groupid with
        | none => s.release
        | some group => s.hold.wait (.reset roomid group.isVIP after)
  else s.release.proceed after

/-- The group lets a game begin. -/
def canBegin (group : Group) (room : Room) (minplayernum : ℕ) : Bool :=
  match group.gameBeginType with
  | .allReadyEqualMaxPlayer => room.seatplayers.length = room.maxplayernum
  | .allReadyMoreThanMinPlayer => minplayernum ≤ room.seatplayers.length

/-- The game is started: the hands are taken down, and the room is called. -/
def startGame (room roomid minplayernum : ℕ) (after : After) : RaceMgr :=
  let r := s.rooms room
  let start : Start := ⟨r.readyplayers, r.seatplayers, minplayernum⟩
  let s := { s with starts := s.starts ++ [start] }
  let s := s.updRoom room fun r => { r with roomstatus := .playing, readyplayers := [] }
  s.hold.wait (.started room roomid after)

/-- `CheckGameStart` up to the call of the room. -/
def checkGameStart (groupid roomid : ℕ) (after : After) : RaceMgr :=
  match s.room_pool.lookup roomid with
  | none => s.proceed after
  | some room =>
    if (s.rooms room).roomstatus = .playing then s.proceed after
    else
      let cut := (s.rooms room).cutplayers
      let s := s.updRoom room Room.dropCut
      let s := { s with waiting := s.waiting ++ cut.map Coroutine.leaving }
      let r := s.rooms room
      match r.minplayernum with
      | none => s.closeRoom room roomid after
      | some minplayernum =>
        if r.seatplayers.length = r.readyplayers.length then
          match s.group_list.lookup groupid with
          | none => s
          | some group =>
            if canBegin group r minplayernum then s.startGame room roomid minplayernum after
            else s.closeRoom room roomid after
        else s.closeRoom room roomid after

/-- The room has started the game. -/
def started (room roomid : ℕ) (after : After) : RaceMgr :=
  let s := (s.rooms room).seatplayers.foldl
    (fun s uid => s.updUser uid fun p => { p with holdRoomId := some 0 }) s
  s.closeRoom room roomid after

/-- `requestReleaseRoom`. -/
def requestReleaseRoom (roomid : ℕ) : RaceMgr :=
  match s.room_pool.lookup roomid with
  | none => s
  | some room =>
    match s.group_list.lookup (s.rooms room).groupid with
    | none => s
    | some _ =>
      let s := s.updRoom room fun r => { r with
        isReleased := true
        curplayers := []
        watchplayers := [] }
      { s with room_pool := s.room_pool.erase roomid }

/-- `userGameEnd`. -/
def userGameEnd (uid : ℕ) : RaceMgr :=
  match s.player_list.lookup uid with
  | none => s
  | some player =>
    let s := s.updPlayer player fun p => { p with
      playerstatus := if p.playerstatus = .playing then .seat else p.playerstatus }
    match s.room_pool.lookup (s.players player).roomid with
    | none => s
    | some room => s.updRoom room fun r => { r with roomstatus := .wait }

/-! ### Steps -/

/-- The coroutine goes on with the results of the call. -/
def resume (c : Coroutine) (a : Answer) : RaceMgr :=
  match c with
  | .entered uid findedRoomId => s.entered uid findedRoomId a.ok a.more
  | .selectedSeat uid player room roomid => s.selectedSeat uid player room roomid a.ret
  | .quit player =>
    if a.ok then s.updPlayer player fun p => { p with playerstatus := .idle, holdRoomId := some 0 }
    else s
  | .stoodUp uid roomid isstandup => if a.ok then s.stoodUp uid roomid isstandup else s
  | .readied room roomid => s.wait (.check (s.rooms room).groupid roomid .nothing)
  | .left uid player caller => s.left uid player caller a.ok a.more
  | .idled uid player isHold caller => s.idled uid player isHold caller
  | .check groupid roomid after => s.checkGameStart groupid roomid after
  | .started room roomid after => s.started room roomid after
  | .reset roomid isVIP after => (s.createRoom roomid isVIP).wait (.made after)
  | .made after => s.release.proceed after
  | .readying uid => s.userReady uid
  | .leaving uid => s.userLeaveRoom uid (.fork uid)

/-- The coroutine has to get the queue first. -/
def Coroutine.needsCs : Coroutine → Bool
  | .check _ _ _ => true
  | _ => false

/-- A message, or the return of the call for which a coroutine waits. -/
inductive Event
  | createRoom (roomid : ℕ) (isVIP : Bool)
  | getRoomFromPool (groupid roomid : ℕ) (fixed : Bool)
  | enterGame (uid groupid : ℕ)
  | enterRoom (uid findedRoomId : ℕ)
  | leaveRoom (uid : ℕ)
  | leaveGame (uid : ℕ)
  | changeRoom (uid findedRoomId : ℕ)
  | userDisconnect (uid : ℕ)
  | userSelectSeat (uid : ℕ)
  | userQuit (uid : ℕ)
  | userStandup (uid : ℕ) (isstandup : Bool)
  | userReady (uid : ℕ)
  | userGameStart (uid : ℕ)
  | userGameEnd (uid : ℕ)
  | startGame (roomid : ℕ)
  | changePlayerState (uid : ℕ) (state : PlayerState)
  | setPlayerHoldRoomId (uid roomId : ℕ)
  | requestReleaseRoom (roomid : ℕ)
  | resume (n : ℕ) (answer : Answer)

/-- One step. Messages that need the queue wait outside until it is free. -/
def step : Event → Option RaceMgr
  | .createRoom roomid isVIP => some (s.createRoom roomid isVIP)
  | .getRoomFromPool groupid roomid fixed => some (s.getRoomFromPool groupid roomid fixed)
  | .enterGame uid groupid => some (s.enterGame uid groupid)
  | .enterRoom uid findedRoomId => some (s.enterRoom uid findedRoomId)
  | .leaveRoom uid => some (s.userLeaveRoom uid .service)
  | .leaveGame uid => some (s.leaveGame uid)
  | .changeRoom uid findedRoomId => some (s.userLeaveRoom uid (.change uid findedRoomId))
  | .userDisconnect uid => some (s.userDisconnect uid)
  | .userSelectSeat uid => if s.csHeld then none else some (s.userSelectSeat uid)
  | .userQuit uid => some (s.userQuit uid)
  | .userStandup uid isstandup => some (s.userStandup uid isstandup)
  | .userReady uid => some (s.userReady uid)
  | .userGameStart uid => some (s.updUser uid fun p => { p with playerstatus := .playing })
  | .userGameEnd uid => some (s.userGameEnd uid)
  | .startGame roomid =>
    match s.room_pool.lookup roomid with
    | none => some s
    | some room =>
      some (s.updRoom room fun r => { r with roomstatus := .playing, readyplayers := [] })
  | .changePlayerState uid state => some (s.updUser uid fun p => { p with playerstatus := state })
  | .setPlayerHoldRoomId uid roomId =>
    some (s.updUser uid fun p => { p with holdRoomId := some roomId })
  | .requestReleaseRoom roomid => if s.csHeld then none else some (s.requestReleaseRoom roomid)
  | .resume n answer =>
    match s.waiting[n]? with
    | none => none
    | some c =>
      if c.needsCs ∧ s.csHeld then none
      else some (resume { s with waiting := s.waiting.eraseIdx n } c answer)

end RaceMgr
