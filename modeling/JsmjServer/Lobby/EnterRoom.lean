import Mathlib.Data.List.AList
import Mathlib.Logic.Function.Basic
import JsmjServer.Lib.Runs

set_option relaxedAutoImplicit false
set_option autoImplicit false

/-!
# Entering a room

A user enters a room through two services: the race manager (`gameracemgr`) looks for a room and
calls it, the room (`baseroom`) chooses a seat and adds the player. Every request runs in a
coroutine of its own. Where a handler calls another service it is suspended, and handlers of other
requests run meanwhile. A request is therefore modelled by the call it waits for, and an event lets
one request go on to its next such call. Calls after which nothing shared has changed are not told
apart: the room's handler asks the agent and the user data several times between choosing a seat
and adding the player, which is one wait here.

## Main definitions

* `Lobby.BaseRoom` — what `enterRoom` reads and writes of a room service.
* `Lobby.RoomInfo`, `Lobby.Group`, `Lobby.PlayerInfo` — the manager's records.
* `Lobby.Phase` — the call for which a request waits.
* `Lobby.step` — one request goes on to its next call.
* `Lobby.Fresh` — the users who ask are different users, none of whom is in a room.

## Implementation notes

`table.sort` leaves open which of several equal rooms comes first, and `pairs` in which order the
pool is gone through; both choices are part of the event. A Lua error in a handler ends the request.
-/

namespace Lobby

/-- A Lua table with keys of type `α` and values of type `β`. -/
abbrev LuaTable (α β : Type) := AList fun _ : α => β

/-- `RoomConstant.RoomType`. -/
inductive RoomType
  | common | vip | sng | mtt
  deriving DecidableEq, Repr

/-- `Enums.RoomState`. -/
inductive RoomState
  | idle | wait | playing
  deriving DecidableEq, Repr

/-! ### The room -/

/-- A room service. Players, watchers, holders and locked players are given by their desk position.
`refusesNoSeat` says whether the game's `newGamePlayer` makes no player for position 0. -/
structure BaseRoom where
  players : LuaTable ℕ ℕ := ∅
  watchers : LuaTable ℕ ℕ := ∅
  playingPlayers : List ℕ := []
  maxPlayer : ℕ := 0
  isPlaying : Bool := false
  isVIPLock : Bool := false
  lockedPlayers : LuaTable ℕ ℕ := ∅
  holdPlayers : LuaTable ℕ ℕ := ∅
  roomType : Option RoomType := none
  minCoin : ℤ := 0
  maxCoin : ℤ := 0
  refusesNoSeat : Bool := false

namespace BaseRoom

/-- `CMD:init`. Without the record of an opened room (`_fangInfo`) it fails after the first
assignments, where it reads `_fangInfo.RoomRule`. -/
def init (r : BaseRoom) (roommaxPlayer : ℕ) (roomType : Option RoomType) (minCoin maxCoin : ℤ)
    (fangInfo : Bool) : BaseRoom :=
  if fangInfo then
    { r with
      maxPlayer := roommaxPlayer
      roomType := some (roomType.getD .common)
      minCoin := minCoin
      maxCoin := maxCoin }
  else { r with maxPlayer := roommaxPlayer }

/-- The desk positions of the players, the keys of `seatMap`. -/
def seatMap (r : BaseRoom) : List ℕ := r.players.entries.map (·.2)

/-- The first position that no player has, 0 when there is none. -/
def findEmptySeat (r : BaseRoom) : ℕ :=
  ((List.range' 1 r.maxPlayer).find? fun seatId => seatId ∉ r.seatMap).getD 0

/-- The position that is kept for a user in a room that has been opened by a user. -/
def kept (r : BaseRoom) (uid : ℕ) : Option ℕ :=
  if r.isVIPLock then r.lockedPlayers.lookup uid else r.holdPlayers.lookup uid

/-- The position for a user who enters. In a room of another type the function has no result, which
its caller cannot handle. -/
def findSeat (r : BaseRoom) (uid : ℕ) : Option ℕ :=
  match r.roomType with
  | some .common | some .sng => some r.findEmptySeat
  | some .vip => some ((r.kept uid).getD 0)
  | some .mtt | none => none

/-- Whether the game makes a player for the position. -/
def newGamePlayer (r : BaseRoom) (resultSeat : ℕ) : Bool :=
  !(r.refusesNoSeat && resultSeat == 0)

/-- The user takes part in the round that is played. -/
def isPlayingPlayer (r : BaseRoom) (uid : ℕ) : Bool :=
  decide (uid ∈ r.playingPlayers) && r.isPlaying

/-- What `enterRoom` does with the new player after its waits: a user without a position in a room
opened by a user watches, everyone else is added to the players. -/
def letIn (r : BaseRoom) (uid resultSeat : ℕ) : BaseRoom :=
  if r.roomType = some .vip ∧ resultSeat = 0 then { r with watchers := r.watchers.insert uid 1 }
  else { r with players := r.players.insert uid resultSeat }

def deletePlayer (r : BaseRoom) (uid : ℕ) : BaseRoom :=
  { r with players := r.players.erase uid }

/-- The player has the coins that the room asks for. Only common rooms ask. -/
def moneyFits (r : BaseRoom) (money : ℤ) : Bool :=
  decide (r.roomType = some .common → r.minCoin ≤ money ∧ money ≤ r.maxCoin)

end BaseRoom

/-- The results of the room's `enterRoom`. -/
structure Reply where
  enterOK : Bool
  isPlayer : Bool
  resultSeat : ℕ
  deriving DecidableEq, Repr

/-- The reply to a user whose coins fit. A user without a position is let in only to watch. -/
def BaseRoom.reply (r : BaseRoom) (resultSeat : ℕ) : Reply :=
  if 0 < resultSeat then ⟨true, true, resultSeat⟩
  else if r.roomType = some .vip ∧ r.isVIPLock = false then ⟨true, false, resultSeat⟩
  else ⟨false, false, 0⟩

/-! ### The race manager -/

/-- A group of `group_list`. -/
structure Group where
  maxplayer : ℕ
  mincoin : ℤ
  maxcoin : ℤ
  roomType : Option RoomType
  rooms : List ℕ

/-- A room of `room_pool`; `room` is the address of its service. -/
structure RoomInfo where
  room : ℕ
  roomstatus : RoomState := .idle
  maxplayernum : ℕ := 0
  curplayers : List ℕ := []
  seatplayers : List ℕ := []
  watchplayers : List ℕ := []
  enteredplayers : List ℕ := []

/-- A user of `player_list`. -/
structure PlayerInfo where
  roomid : ℕ := 0
  holdRoomId : Option ℕ := none
  groupid : ℕ

/-- `table.insert` of a user who is not in the list. -/
def addUid (l : List ℕ) (uid : ℕ) : List ℕ := if uid ∈ l then l else l ++ [uid]

lemma mem_addUid {l : List ℕ} {u v : ℕ} : v ∈ addUid l u ↔ v = u ∨ v ∈ l := by
  unfold addUid
  split_ifs with hu
  · constructor
    · exact .inr
    · rintro (rfl | hv)
      · exact hu
      · exact hv
  · rw [List.mem_append, List.mem_singleton, or_comm]

lemma nodup_addUid {l : List ℕ} (h : l.Nodup) (u : ℕ) : (addUid l u).Nodup := by
  unfold addUid
  split_ifs with hu
  · exact h
  · exact List.nodup_append.mpr ⟨h, List.nodup_singleton u, by rintro a ha b hb rfl; simp_all⟩

def RoomInfo.addRoomCurPlayer (room : RoomInfo) (uid : ℕ) : RoomInfo :=
  { room with curplayers := addUid room.curplayers uid }

def RoomInfo.addRoomSeatPlayer (room : RoomInfo) (uid : ℕ) : RoomInfo :=
  { room with seatplayers := addUid room.seatplayers uid }

def RoomInfo.addRoomWatcher (room : RoomInfo) (uid : ℕ) : RoomInfo :=
  { room with watchplayers := addUid room.watchplayers uid }

def RoomInfo.addRoomEnteredPlayer (room : RoomInfo) (uid : ℕ) : RoomInfo :=
  { room with enteredplayers := addUid room.enteredplayers uid }

/-- The lists of the room after a user has been let in. -/
def RoomInfo.book (room : RoomInfo) (uid : ℕ) (isPlayer : Bool) : RoomInfo :=
  let room := room.addRoomCurPlayer uid
  let room := if isPlayer then room.addRoomSeatPlayer uid else room.addRoomWatcher uid
  room.addRoomEnteredPlayer uid

@[simp] lemma RoomInfo.book_room (room : RoomInfo) (uid : ℕ) (isPlayer : Bool) :
    (room.book uid isPlayer).room = room.room := by
  cases isPlayer <;> rfl

@[simp] lemma RoomInfo.book_roomstatus (room : RoomInfo) (uid : ℕ) (isPlayer : Bool) :
    (room.book uid isPlayer).roomstatus = room.roomstatus := by
  cases isPlayer <;> rfl

@[simp] lemma RoomInfo.book_maxplayernum (room : RoomInfo) (uid : ℕ) (isPlayer : Bool) :
    (room.book uid isPlayer).maxplayernum = room.maxplayernum := by
  cases isPlayer <;> rfl

@[simp] lemma RoomInfo.book_curplayers (room : RoomInfo) (uid : ℕ) (isPlayer : Bool) :
    (room.book uid isPlayer).curplayers = addUid room.curplayers uid := by
  cases isPlayer <;> rfl

/-- A room with free seats comes before a full one, and before one with more free seats. -/
def roomSortFunc (a b : RoomInfo) : Bool :=
  if a.seatplayers.length < a.maxplayernum then
    if b.maxplayernum ≤ b.seatplayers.length then true
    else decide (a.maxplayernum - a.seatplayers.length < b.maxplayernum - b.seatplayers.length)
  else false

/-- The call for which a request waits. `roomid` is the number of the room, `addr` its address at
the time of the call.

* `creating` — in `CreateRoom`, for the new service;
* `naming` — in `CreateRoom`, for `setRoomId`;
* `initing` — in `getRoomFromPool`, for the room's `init`;
* `called` — for the room's `enterRoom`, which has not begun;
* `waiting` — the room's handler has chosen a seat and waits for the user's data;
* `leaving` — the room's handler has added the player, whose coins do not fit, and waits for the
  manager; `stays` says that the player is in the round that is played;
* `replied` — the room's handler has returned. -/
inductive Phase
  | creating (roomid : ℕ)
  | naming
  | initing (addr : ℕ)
  | called (roomid addr : ℕ)
  | waiting (roomid addr resultSeat : ℕ)
  | leaving (roomid addr : ℕ) (stays : Bool)
  | replied (roomid addr : ℕ) (reply : Reply)
  deriving DecidableEq, Repr

/-- A request for a room, with the call for which it waits. -/
structure Request where
  groupid : ℕ
  isRobot : Bool
  phase : Phase
  deriving DecidableEq, Repr

end Lobby

/-- The race manager, the room services by address, and the requests in progress by user. -/
structure Lobby where
  group_list : Lobby.LuaTable ℕ Lobby.Group
  room_pool : Lobby.LuaTable ℕ Lobby.RoomInfo
  player_list : Lobby.LuaTable ℕ Lobby.PlayerInfo
  nextRoomId : ℕ := 1
  refusesNoSeat : Bool := false
  services : ℕ → Lobby.BaseRoom
  nextAddr : ℕ
  requests : Lobby.LuaTable ℕ Lobby.Request := ∅

namespace Lobby

/-- The request of the user waits for the call. -/
def wait (s : Lobby) (uid : ℕ) (q : Request) : Lobby :=
  { s with requests := s.requests.insert uid q }

/-- The request of the user has come to its end. -/
def done (s : Lobby) (uid : ℕ) : Lobby :=
  { s with requests := s.requests.erase uid }

def setService (s : Lobby) (addr : ℕ) (r : BaseRoom) : Lobby :=
  { s with services := Function.update s.services addr r }

lemma setService_self (s : Lobby) (addr : ℕ) (r : BaseRoom) :
    (s.setService addr r).services addr = r := by
  simp [setService]

lemma setService_of_ne (s : Lobby) {addr a : ℕ} (h : a ≠ addr) (r : BaseRoom) :
    (s.setService addr r).services a = s.services a := by
  simp [setService, h]

def setRoom (s : Lobby) (roomid : ℕ) (room : RoomInfo) : Lobby :=
  { s with room_pool := s.room_pool.insert roomid room }

/-- The rooms of the group, without the one that the user comes from. -/
def allocateRoom (s : Lobby) (group : Group) (excludeRoomId : Option ℕ) : List (ℕ × RoomInfo) :=
  (group.rooms.filter fun roomid => some roomid ≠ excludeRoomId).filterMap fun roomid =>
    (s.room_pool.lookup roomid).map fun room => (roomid, room)

/-- The room may be the first of the list after `table.sort`. -/
def sortsFirst (rooms : List (ℕ × RoomInfo)) (x : ℕ × RoomInfo) : Bool :=
  rooms.all fun y => !roomSortFunc y.2 x.2

/-- `getRoomFromPool` without a fixed number: the idle room `idle` is taken and its `init` is
called; when no room is idle, a new one is created. -/
def getRoomFromPool (s : Lobby) (uid groupid : ℕ) (isRobot : Bool) (group : Group)
    (idle : Option ℕ) : Option Lobby :=
  match idle with
  | some roomid =>
    (s.room_pool.lookup roomid).bind fun room =>
      if room.roomstatus = .idle then
        some ((s.setRoom roomid
          { room with roomstatus := .wait, maxplayernum := group.maxplayer }).wait uid
            ⟨groupid, isRobot, .initing room.room⟩)
      else none
  | none =>
    if s.room_pool.entries.any fun x => x.2.roomstatus = .idle then none
    else some (s.wait uid ⟨groupid, isRobot, .creating s.nextRoomId⟩)

/-- The manager calls the room's `enterRoom`. -/
def callRoom (s : Lobby) (uid groupid : ℕ) (isRobot : Bool) (findedRoomId : ℕ) : Lobby :=
  match s.room_pool.lookup findedRoomId with
  | none => s
  | some room => s.wait uid ⟨groupid, isRobot, .called findedRoomId room.room⟩

/-- The manager's `enterRoom` up to its first call. -/
def enterRoom (s : Lobby) (uid : ℕ) (oldRoomId newRoomId : Option ℕ) (isRobot : Bool)
    (first idle : Option ℕ) : Option Lobby :=
  match s.player_list.lookup uid with
  | none => some s
  | some player =>
    -- the user is back after a lost connection: only the socket of the player changes
    if 0 < player.roomid ∧ player.holdRoomId = some 0 then some s
    else match s.group_list.lookup player.groupid with
      | none => some s
      | some group =>
        let called := s.callRoom uid player.groupid isRobot
        let pooled := s.getRoomFromPool uid player.groupid isRobot group idle
        if 0 < player.holdRoomId.getD 0 then some (called (player.holdRoomId.getD 0))
        else match newRoomId with
          | some roomid => some (called roomid)
          | none =>
            let rooms := s.allocateRoom group oldRoomId
            match first with
            | none => if rooms.isEmpty then pooled else none
            | some roomid =>
              (rooms.find? fun x => x.1 = roomid).bind fun x =>
                if sortsFirst rooms x then
                  if x.2.curplayers.length < x.2.maxplayernum then some (called roomid)
                  else pooled
                else none

/-- The new service is there: `CreateRoom` puts the room in the pool, whatever is under its
number. -/
def created (s : Lobby) (uid : ℕ) (q : Request) (roomid : ℕ) : Lobby :=
  { s with
    services := Function.update s.services s.nextAddr { refusesNoSeat := s.refusesNoSeat }
    nextAddr := s.nextAddr + 1
    room_pool := s.room_pool.insert roomid { room := s.nextAddr }
    requests := s.requests.insert uid { q with phase := .naming } }

/-- The number is set: `CreateRoom` returns and `getRoomFromPool` begins again. -/
def named (s : Lobby) (uid : ℕ) (q : Request) (idle : Option ℕ) : Option Lobby :=
  (s.group_list.lookup q.groupid).bind fun group =>
    getRoomFromPool { s with nextRoomId := s.nextRoomId + 1 } uid q.groupid q.isRobot group idle

/-- The room handles `init`. `enterRoom` passes no record of an opened room, so that `init` fails
and the request ends with it. -/
def inited (s : Lobby) (uid : ℕ) (q : Request) (addr : ℕ) : Option Lobby :=
  (s.group_list.lookup q.groupid).map fun group =>
    (s.setService addr ((s.services addr).init group.maxplayer group.roomType group.mincoin
      group.maxcoin false)).done uid

/-- The room's `enterRoom` up to its first call. -/
def handled (s : Lobby) (uid : ℕ) (q : Request) (roomid addr : ℕ) : Lobby :=
  match (s.services addr).findSeat uid with
  | none => s.done uid
  | some resultSeat =>
    if (s.services addr).newGamePlayer resultSeat then
      s.wait uid { q with phase := .waiting roomid addr resultSeat }
    else s.wait uid { q with phase := .replied roomid addr ⟨false, false, 0⟩ }

/-- The room's `enterRoom` after the last call for the user's data. -/
def resumed (s : Lobby) (uid : ℕ) (q : Request) (roomid addr resultSeat : ℕ) (money : ℤ) : Lobby :=
  let r := s.services addr
  let s := s.setService addr (r.letIn uid resultSeat)
  if r.moneyFits money then
    s.wait uid { q with phase := .replied roomid addr (r.reply resultSeat) }
  else s.wait uid { q with phase := .leaving roomid addr (r.isPlayingPlayer uid) }

/-- `notifyPlayerLeave` after the call of the manager, which does not find the user in a room. -/
def left (s : Lobby) (uid : ℕ) (q : Request) (roomid addr : ℕ) (stays : Bool) : Lobby :=
  let s := if stays then s else s.setService addr ((s.services addr).deletePlayer uid)
  s.wait uid { q with phase := .replied roomid addr ⟨false, false, 0⟩ }

/-- The manager's `enterRoom` after the call of the room. -/
def booked (s : Lobby) (uid roomid : ℕ) (reply : Reply) : Lobby :=
  if reply.enterOK then
    let s := match s.room_pool.lookup roomid with
      | none => s
      | some room => s.setRoom roomid (room.book uid reply.isPlayer)
    let player_list := match s.player_list.lookup uid with
      | none => s.player_list
      | some player => s.player_list.insert uid { player with roomid := roomid }
    { s with player_list := player_list }.done uid
  else s.done uid

/-! ### Interleavings -/

/-- A user asks for a room, or the call for which the user's request waits returns. -/
inductive Event
  | enterRoom (uid : ℕ) (oldRoomId newRoomId : Option ℕ) (isRobot : Bool) (first idle : Option ℕ)
  | created (uid : ℕ)
  | named (uid : ℕ) (idle : Option ℕ)
  | inited (uid : ℕ)
  | handled (uid : ℕ)
  | resumed (uid : ℕ) (money : ℤ)
  | resetRobot (uid : ℕ)
  | left (uid : ℕ)
  | booked (uid : ℕ)
  deriving DecidableEq, Repr

/-- One request goes on until it waits for its next call. There is no step when the user's request
does not wait for that call. -/
def step (s : Lobby) : Event → Option Lobby
  | .enterRoom uid oldRoomId newRoomId isRobot first idle =>
    s.enterRoom uid oldRoomId newRoomId isRobot first idle
  | .created uid => (s.requests.lookup uid).bind fun q =>
    match q.phase with
    | .creating roomid => some (s.created uid q roomid)
    | _ => none
  | .named uid idle => (s.requests.lookup uid).bind fun q =>
    match q.phase with
    | .naming => s.named uid q idle
    | _ => none
  | .inited uid => (s.requests.lookup uid).bind fun q =>
    match q.phase with
    | .initing addr => s.inited uid q addr
    | _ => none
  | .handled uid => (s.requests.lookup uid).bind fun q =>
    match q.phase with
    | .called roomid addr => some (s.handled uid q roomid addr)
    | _ => none
  | .resumed uid money => (s.requests.lookup uid).bind fun q =>
    match q.phase with
    | .waiting roomid addr resultSeat => some (s.resumed uid q roomid addr resultSeat money)
    | _ => none
  -- a robot that has to leave is first given back to its manager, which cannot make it leave
  | .resetRobot uid => (s.requests.lookup uid).bind fun q =>
    match q.phase with
    | .leaving _ addr false =>
      if q.isRobot then some (s.setService addr ((s.services addr).deletePlayer uid)) else none
    | _ => none
  | .left uid => (s.requests.lookup uid).bind fun q =>
    match q.phase with
    | .leaving roomid addr stays => some (s.left uid q roomid addr stays)
    | _ => none
  | .booked uid => (s.requests.lookup uid).bind fun q =>
    match q.phase with
    | .replied roomid _ reply => some (s.booked uid roomid reply)
    | _ => none

/-- A user who asks has no other request in progress and is in no room. -/
def Fresh (s : Lobby) : Event → Prop
  | .enterRoom uid _ _ _ _ _ =>
    uid ∉ s.requests ∧ ∀ x ∈ s.room_pool.entries, uid ∉ x.2.curplayers
  | _ => True

instance (s : Lobby) (e : Event) : Decidable (s.Fresh e) :=
  match e with
  | .enterRoom uid _ _ _ _ _ =>
    inferInstanceAs (Decidable (uid ∉ s.requests ∧
      ∀ x ∈ s.room_pool.entries, uid ∉ x.2.curplayers))
  | .created _ | .named _ _ | .inited _ | .handled _ | .resumed _ _ | .resetRobot _ | .left _
  | .booked _ => isTrue trivial

end Lobby
