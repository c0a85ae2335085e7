import JsmjServer.Common.TimeManager

set_option relaxedAutoImplicit false
set_option autoImplicit false

/-!
# The vote to disband a room

`common/utils/VoteManager.lua`: in a locked room a seated player may ask to disband it. The other
seats vote, one disagreement ends the vote, and after 60 seconds without one the room is disbanded.
The vote ends by a timer of the room (`TimeManager`), whose list it shares with the game.

## Main definitions

* `Common.VoteRoom` — the vote manager, with what it reads and writes of the room.
* `Common.VoteRoom.onPlayerDisband`, `Common.VoteRoom.dealTimeOutEvent` — a message, a pass.
* `Common.VoteRoom.step` — one event.
* `Common.VoteSafe` — every disbanding of a locked room was decided by the vote it ended.
* `Common.FreshVote` — the timer of a vote is given a handle that no pending timer has.

## Implementation notes

Messages to the clients, the log in the database and the names that are only shown are left out. The
callbacks of other timers do nothing here; what they do to the timers are events of their own. The
room clears its timers only when it is released, which no event does. A Lua error ends the handler.
-/

namespace Common

/-- The status of a seat in a vote. -/
inductive VoteStatus
  | null | agree | disagree | request
  deriving DecidableEq, Repr

structure VoteItem where
  status : VoteStatus
  uid : ℕ
  deriving DecidableEq, Repr

/-- The callbacks of timers: the countdown that clients are shown, the end of a vote, and those of
other parts of the room. -/
inductive VoteCallback
  | startVoteTimeOut
  | voteTimeOut (uid : ℕ)
  | other
  deriving DecidableEq, Repr

/-- A second, in ticks. -/
def kPerecent : ℕ := 100

def kVoteTimeOut : ℕ := 60 * kPerecent

/-- The delay after which a disbanded room asks to be released. -/
def kRobotTimeOut : ℕ := 2 * kPerecent

/-- What a client sends to disagree. Any other value agrees. -/
def kVoteClientDisagree : ℕ := 0

/-- A vote, from the request on: when it was asked for, and the seats that asked or agreed. -/
structure Ballot where
  since : ℕ
  yes : List ℕ
  deriving DecidableEq, Repr

/-- A disbanding: the vote it ended, its time, and whether the room was locked. -/
structure Disbanding where
  ballot : Option Ballot
  now : ℕ
  locked : Bool
  deriving DecidableEq, Repr

/-- `VoteManager` and its room. Players are given by their desk position. The votes as they were
cast and the disbandings are recorded in `ballot` and `disbandings`, which no function reads. -/
structure VoteRoom where
  maxPlayer : ℕ
  players : ℕ → Option ℕ := fun _ => none
  watchers : ℕ → Bool := fun _ => false
  isVIPLock : Bool := false
  /-- `fangInfo.OwnerUserId`, where there is a `fangInfo`. -/
  fangInfo : Option (Option ℕ) := none
  timeMgr : TimeManager VoteCallback := {}
  clock : ℕ := 0
  voteHandle : Option ℕ := none
  disband : Bool := false
  leftTimeOut : ℕ := 0
  round : ℕ := 1
  voteList : List VoteItem := []
  ballot : Option Ballot := none
  disbandings : List Disbanding := []

namespace VoteRoom

def setTimeOut (s : VoteRoom) (now delayMS : ℕ) (callback : VoteCallback) : VoteRoom :=
  { s with timeMgr := s.timeMgr.setTimeOut now delayMS (some callback) }

def deleteTimeOut (s : VoteRoom) (handle : ℕ) : VoteRoom :=
  { s with timeMgr := s.timeMgr.deleteTimeOut handle }

/-- `VoteManager:initVoteList`. -/
def initVoteList (s : VoteRoom) : VoteRoom :=
  { s with voteList := List.replicate s.maxPlayer ⟨.null, 0⟩ }

/-- `VoteManager:startVoteTimeOut`. -/
def startVoteTimeOut (s : VoteRoom) (now : ℕ) : VoteRoom :=
  if 0 < s.leftTimeOut then
    { s with leftTimeOut := s.leftTimeOut - 1 }.setTimeOut now kPerecent .startVoteTimeOut
  else { s with leftTimeOut := 0 }

/-- `VoteManager:onDisband`, with the timer that the room sets when it is called back. -/
def onDisband (s : VoteRoom) (now : ℕ) : VoteRoom :=
  let s := match s.voteHandle with
    | some handle => { s.deleteTimeOut handle with voteHandle := none }
    | none => s
  { s with
    disband := true
    ballot := none
    disbandings := s.disbandings ++ [Disbanding.mk s.ballot now s.isVIPLock] }.setTimeOut now
      kRobotTimeOut .other

/-- `VoteManager:sendVoteResultMsg`. -/
def sendVoteResultMsg (s : VoteRoom) (now : ℕ) (result : Bool) : VoteRoom :=
  if result then s.onDisband now else { s with disband := false }

/-- The desk position of a user who has a seat. -/
def seatOf (s : VoteRoom) (uid : ℕ) : Option ℕ :=
  (s.players uid).filter fun pos => decide (0 < pos) && decide (pos ≤ s.maxPlayer)

/-- What a request of a seated user of a locked room does. -/
def openVote (s : VoteRoom) (now uid pos : ℕ) : VoteRoom :=
  let s := s.initVoteList
  let s := { s with
    voteList := s.voteList.set (pos - 1) ⟨.request, uid⟩
    leftTimeOut := kVoteTimeOut / kPerecent
    ballot := some ⟨now, [pos]⟩ }.startVoteTimeOut now
  { s.setTimeOut now kVoteTimeOut (.voteTimeOut uid) with voteHandle := some s.timeMgr.uuid }

/-- `VoteManager:onPlayerRequestDisband`. Before the room is locked only its owner may disband
it. -/
def onPlayerRequestDisband (s : VoteRoom) (now uid : ℕ) : VoteRoom :=
  if s.voteHandle.isSome then s
  else if (s.players uid).isSome then
    match s.seatOf uid with
    | some pos =>
      if s.isVIPLock then s.openVote now uid pos
      else if s.fangInfo.join = some uid then s.sendVoteResultMsg now true
      else s
    | none => s
  else if s.fangInfo.join = some uid ∧ s.watchers uid ∧ ¬ s.isVIPLock then
    s.sendVoteResultMsg now true
  else s

/-- `VoteManager:checkNeedDisband`. -/
def checkNeedDisband (s : VoteRoom) : Bool := s.voteList.all fun item => item.status != .null

/-- The vote of a seated user who agrees. -/
def agree (s : VoteRoom) (uid pos : ℕ) : VoteRoom :=
  { s with
    voteList :=
      if (s.voteList[pos - 1]?).any (fun item => item.status == .null) then
        s.voteList.set (pos - 1) ⟨.agree, uid⟩
      else s.voteList
    ballot := s.ballot.map fun b => { b with yes := b.yes ++ [pos] } }

/-- `VoteManager:onPlayerVote`. -/
def onPlayerVote (s : VoteRoom) (now uid willDisband : ℕ) : VoteRoom :=
  match s.voteHandle with
  | none => s
  | some handle =>
    match s.seatOf uid with
    | none => s
    | some pos =>
      if willDisband = kVoteClientDisagree then
        let s := { s.deleteTimeOut handle with voteHandle := none, ballot := none }
        let s := s.sendVoteResultMsg now false
        { s with round := s.round + 1 }
      else
        let s := s.agree uid pos
        if s.checkNeedDisband then s.sendVoteResultMsg now true else s

/-- `VoteManager:onPlayerDisband`. -/
def onPlayerDisband (s : VoteRoom) (now uid isRequest willDisband : ℕ) : VoteRoom :=
  if isRequest = 1 then s.onPlayerRequestDisband now uid else s.onPlayerVote now uid willDisband

/-- The callback of a timer. -/
def runCallback (s : VoteRoom) (now : ℕ) : VoteCallback → VoteRoom
  | .startVoteTimeOut => s.startVoteTimeOut now
  | .voteTimeOut _ => { s with voteHandle := none }.sendVoteResultMsg now true
  | .other => s

/-- One entry of a pass. -/
def dealTimeOut (now : ℕ) (s : VoteRoom) (v : Timeout VoteCallback) : VoteRoom :=
  match v.callback with
  | some callback =>
    if v.endTime ≤ now then (s.runCallback now callback).deleteTimeOut v.uuid else s
  | none => s

/-- `TimeManager:dealTimeOutEvent`: the copied list is gone through. -/
def dealTimeOutEvent (s : VoteRoom) (now : ℕ) : VoteRoom :=
  s.timeMgr.timeoutList.foldl (dealTimeOut now) s

/-- The events: a message of a client about the vote, a pass, any change of the seats, the lock of
the room at the begin of its first game, and what the rest of the room does to the timers. -/
inductive Event
  | requestVIPDisband (now uid isRequest willDisband : ℕ)
  | dealTimeOutEvent (now : ℕ)
  | seats (players : ℕ → Option ℕ) (watchers : ℕ → Bool)
  | lock
  | setTimeOut (now delayMS : ℕ)
  | deleteTimeOut (handle : ℕ)

/-- The time of an event, where it matters. -/
def Event.time? : Event → Option ℕ
  | .requestVIPDisband now _ _ _ | .dealTimeOutEvent now | .setTimeOut now _ => some now
  | .seats _ _ | .lock | .deleteTimeOut _ => none

/-- What an event does. -/
def handle (s : VoteRoom) : Event → VoteRoom
  | .requestVIPDisband now uid isRequest willDisband => s.onPlayerDisband now uid isRequest willDisband
  | .dealTimeOutEvent now => s.dealTimeOutEvent now
  | .seats players watchers => { s with players := players, watchers := watchers }
  | .lock => { s with isVIPLock := true }
  | .setTimeOut now delayMS => s.setTimeOut now delayMS .other
  | .deleteTimeOut handle => s.deleteTimeOut handle

/-- One event. Time does not go back. -/
def step (s : VoteRoom) (e : Event) : Option VoteRoom :=
  if e.time?.any (fun now => decide (now < s.clock)) then none
  else some { s.handle e with clock := e.time?.getD s.clock }

end VoteRoom

/-! ### Safety -/

/-- The vote allowed the disbanding: every seat had asked or agreed, or 60 seconds had passed. A
disagreement ends the vote, so there was none in it. -/
def Disbanding.Fair (d : Disbanding) (maxPlayer : ℕ) : Prop :=
  ∃ b, d.ballot = some b ∧
    ((∀ pos, 1 ≤ pos → pos ≤ maxPlayer → pos ∈ b.yes) ∨ b.since + kVoteTimeOut ≤ d.now)

/-- The timer ends a vote. -/
def Timeout.isVote (t : Timeout VoteCallback) : Bool :=
  match t.callback with
  | some (.voteTimeOut _) => true
  | _ => false

/-- Disbandings of the locked room were fair. Where no vote is open, nothing of an ended one is
left: no handle and no timer. Where one is open, the seats that count are those that asked or
agreed in it. -/
structure VoteSafe (s : VoteRoom) : Prop where
  fair : ∀ d ∈ s.disbandings, d.locked → d.Fair s.maxPlayer
  ended : s.ballot = none →
    s.voteHandle = none ∧ ∀ t ∈ s.timeMgr.timeoutList, ¬ t.isVote
  counted : ∀ b, s.ballot = some b → ∀ pos, 1 ≤ pos → pos ≤ s.maxPlayer →
    ∃ item, s.voteList[pos - 1]? = some item ∧ (item.status ≠ .null ↔ pos ∈ b.yes)

/-- The timers when a vote begins, before the one that ends it is set. -/
def VoteRoom.beforeVote (s : VoteRoom) (now : ℕ) : TimeManager VoteCallback :=
  s.timeMgr.setTimeOut now kPerecent (some .startVoteTimeOut)

/-- A request that opens a vote comes when no pending timer has the handle that the timer of the
vote is given. -/
def FreshVote (s : VoteRoom) : VoteRoom.Event → Prop
  | .requestVIPDisband now uid isRequest _ =>
    isRequest = 1 → s.voteHandle = none → s.isVIPLock → (s.seatOf uid).isSome →
      ∀ t ∈ (s.beforeVote now).timeoutList, t.uuid ≠ (s.beforeVote now).uuid
  | _ => True

instance (s : VoteRoom) : (e : VoteRoom.Event) → Decidable (FreshVote s e)
  | .requestVIPDisband now uid isRequest _ =>
    inferInstanceAs (Decidable (isRequest = 1 → s.voteHandle = none → s.isVIPLock →
      (s.seatOf uid).isSome → ∀ t ∈ (s.beforeVote now).timeoutList, _))
  | .dealTimeOutEvent _ | .seats _ _ | .lock | .setTimeOut _ _ | .deleteTimeOut _ => .isTrue trivial

end Common
