import Mathlib.Data.Finset.Card
import Mathlib.Data.List.Nodup
import JsmjServer.Lobby.RaceMgr

set_option relaxedAutoImplicit false
set_option autoImplicit false

/-!
# With whom a game starts

`CheckGameStart` starts a game when as many users are ready as have a seat. These are the same
users as long as only users with a seat are ready. Every handler takes a user off the list of the
ready when it takes the user's seat, except `CheckGameStart` itself, for users whose connection is
lost; and `userReady` looks at the state of the user, which then still says that there is a seat.

## Main definitions

* `RaceMgr.Room.Good` — the users who are ready have a seat, and no list names a user twice.
* `RaceMgr.Orderly` — the condition on a step.
* `RaceMgr.Start.Fair` — the game is started with its ready, seated users.

## Main results

* `RaceMgr.checkGameStart_inv` — `CheckGameStart` starts fair games from good rooms.
* `RaceMgr.starts_fair` — in every run whose steps are orderly, all games are started so.
-/

namespace RaceMgr

/-- The users who are ready have a seat, and no list names a user twice. -/
structure Room.Good (room : Room) : Prop where
  seats : room.seatplayers.Nodup
  hands : room.readyplayers.Nodup
  sub : room.readyplayers ⊆ room.seatplayers

/-- The game is started with its ready, seated users, and there are enough of them. -/
def Start.Fair (start : Start) : Prop :=
  start.readyplayers.toFinset = start.seatplayers.toFinset ∧
    start.minplayernum ≤ start.seatplayers.toFinset.card

instance (start : Start) : Decidable start.Fair :=
  inferInstanceAs (Decidable (start.readyplayers.toFinset = start.seatplayers.toFinset ∧
    start.minplayernum ≤ start.seatplayers.toFinset.card))

/-- A user who gets ready has a seat in the room. -/
def HasSeat (s : RaceMgr) (uid : ℕ) : Prop :=
  ∀ player ∈ s.player_list.lookup uid, (s.players player).playerstatus = .seat →
    ∀ room ∈ s.room_pool.lookup (s.players player).roomid, uid ∈ (s.rooms room).seatplayers

/-- None of the users whose connection is lost is ready when they are taken off their seats. -/
def CutNotReady (s : RaceMgr) (roomid : ℕ) : Prop :=
  ∀ room ∈ s.room_pool.lookup roomid, (s.rooms room).roomstatus ≠ .playing →
    ∀ uid ∈ (s.rooms room).cutplayers, uid ∉ (s.rooms room).readyplayers

instance (s : RaceMgr) (uid : ℕ) : Decidable (s.HasSeat uid) :=
  inferInstanceAs (Decidable (∀ player ∈ s.player_list.lookup uid,
    (s.players player).playerstatus = .seat →
      ∀ room ∈ s.room_pool.lookup (s.players player).roomid, uid ∈ (s.rooms room).seatplayers))

instance (s : RaceMgr) (roomid : ℕ) : Decidable (s.CutNotReady roomid) :=
  inferInstanceAs (Decidable (∀ room ∈ s.room_pool.lookup roomid,
    (s.rooms room).roomstatus ≠ .playing →
      ∀ uid ∈ (s.rooms room).cutplayers, uid ∉ (s.rooms room).readyplayers))

/-- The condition on a coroutine that goes on. -/
def OrderlyResume (s : RaceMgr) : Coroutine → Prop
  | .readying uid => s.HasSeat uid
  | .check _ roomid _ => s.CutNotReady roomid
  | _ => True

instance (s : RaceMgr) (c : Coroutine) : Decidable (s.OrderlyResume c) :=
  match c with
  | .readying uid => inferInstanceAs (Decidable (s.HasSeat uid))
  | .check _ roomid _ => inferInstanceAs (Decidable (s.CutNotReady roomid))
  | .entered _ _ | .selectedSeat _ _ _ _ | .quit _ | .stoodUp _ _ _ | .readied _ _ | .left _ _ _
  | .idled _ _ _ _ | .started _ _ _ | .reset _ _ _ | .made _ | .leaving _ => .isTrue trivial

/-- The condition on a step: who gets ready has a seat, and who loses a seat in `CheckGameStart` is
not ready. -/
def Orderly (s : RaceMgr) : Event → Prop
  | .userReady uid => s.HasSeat uid
  | .resume n _ => ∀ c ∈ s.waiting[n]?, s.OrderlyResume c
  | _ => True

instance (s : RaceMgr) (e : Event) : Decidable (s.Orderly e) :=
  match e with
  | .userReady uid => inferInstanceAs (Decidable (s.HasSeat uid))
  | .resume n _ => inferInstanceAs (Decidable (∀ c ∈ s.waiting[n]?, s.OrderlyResume c))
  | .createRoom _ _ | .getRoomFromPool _ _ _ | .enterGame _ _ | .enterRoom _ _ | .leaveRoom _
  | .leaveGame _ | .changeRoom _ _ | .userDisconnect _ | .userSelectSeat _ | .userQuit _
  | .userStandup _ _ | .userGameStart _ | .userGameEnd _ | .startGame _ | .changePlayerState _ _
  | .setPlayerHoldRoomId _ _ | .requestReleaseRoom _ => .isTrue trivial

/-! ### The lists of a room -/

section Lists

variable {room : Room} {uid : ℕ}

lemma Room.Good.sit (h : room.Good) (uid : ℕ) : (room.sit uid).Good where
  seats := Lobby.nodup_addUid h.seats uid
  hands := h.hands.erase uid
  sub _ ha := Lobby.mem_addUid.mpr (Or.inr (h.sub (List.mem_of_mem_erase ha)))

/-- Off both lists. -/
lemma Room.Good.erase_sub (h : room.Good) (uid : ℕ) :
    room.readyplayers.erase uid ⊆ room.seatplayers.erase uid := by
  intro a ha
  rw [h.hands.mem_erase_iff] at ha
  exact h.seats.mem_erase_iff.mpr ⟨ha.1, h.sub ha.2⟩

lemma Room.Good.stand (h : room.Good) (uid : ℕ) : (room.stand uid).Good where
  seats := h.seats.erase uid
  hands := h.hands.erase uid
  sub := h.erase_sub uid

lemma Room.Good.sitDown (h : room.Good) (uid : ℕ) : (room.sitDown uid).Good where
  seats := by
    refine List.nodup_append.mpr ⟨h.seats.erase uid, by simp, ?_⟩
    rintro a ha b hb rfl
    rw [List.mem_singleton.mp hb] at ha
    exact (h.seats.not_mem_erase ha).elim
  hands := h.hands.erase uid
  sub a ha := List.mem_append_left _ (h.erase_sub uid ha)

lemma Room.Good.enter (h : room.Good) (uid : ℕ) (isPlayer : Bool) :
    (room.enter uid isPlayer).Good := by
  cases isPlayer with
  | false => exact ⟨h.seats, h.hands, h.sub⟩
  | true =>
    exact ⟨Lobby.nodup_addUid h.seats uid, h.hands,
      fun a ha => Lobby.mem_addUid.mpr (Or.inr (h.sub ha))⟩

lemma Room.Good.remove (h : room.Good) (uid : ℕ) : (room.remove uid).Good where
  seats := h.seats.erase uid
  hands := h.hands.erase uid
  sub := h.erase_sub uid

/-- A user with a seat gets ready. -/
lemma Room.Good.raiseHand (h : room.Good) (hseat : uid ∈ room.seatplayers) :
    (room.raiseHand uid).Good where
  seats := h.seats
  hands := Lobby.nodup_addUid (h.hands.erase uid) uid
  sub a ha := by
    rcases Lobby.mem_addUid.mp ha with rfl | ha
    · exact hseat
    · exact h.sub (List.mem_of_mem_erase ha)

/-- The users whose connection is lost are not ready. -/
lemma Room.Good.dropCut (h : room.Good)
    (hcut : ∀ uid ∈ room.cutplayers, uid ∉ room.readyplayers) : room.dropCut.Good where
  seats := by
    change (room.cutplayers.foldl List.erase room.seatplayers).Nodup
    rw [← List.diff_eq_foldl]
    exact h.seats.diff
  hands := h.hands
  sub a ha := by
    change a ∈ room.cutplayers.foldl List.erase room.seatplayers
    rw [← List.diff_eq_foldl, h.seats.mem_sdiff_iff]
    exact ⟨h.sub ha, fun hmem => hcut a hmem ha⟩

/-- **The lists of a good room with equal lengths name the same users.** -/
lemma Room.Good.fair (h : room.Good) (hlen : room.seatplayers.length = room.readyplayers.length)
    {minplayernum : ℕ} (hmin : minplayernum ≤ room.seatplayers.length) :
    (⟨room.readyplayers, room.seatplayers, minplayernum⟩ : Start).Fair := by
  have hseats := List.toFinset_card_of_nodup h.seats
  have hhands := List.toFinset_card_of_nodup h.hands
  constructor
  · apply Finset.eq_of_subset_of_card_le
    · intro a ha
      rw [List.mem_toFinset] at ha ⊢
      exact h.sub ha
    · change room.seatplayers.toFinset.card ≤ room.readyplayers.toFinset.card
      omega
  · change minplayernum ≤ room.seatplayers.toFinset.card
    omega

end Lists

/-! ### The invariant -/

/-- All rooms are good, all games have been started fairly, and all groups have the type of
beginning that `CMD.open` gives them. -/
structure Inv (s : RaceMgr) : Prop where
  rooms : ∀ room, (s.rooms room).Good
  starts : ∀ start ∈ s.starts, start.Fair
  groups : ∀ groupid, ∀ group ∈ s.group_list.lookup groupid,
    group.gameBeginType = .allReadyMoreThanMinPlayer

section Frame

variable {s : RaceMgr} (h : s.Inv)

include h

lemma Inv.updPlayer (player : ℕ) (f : Player → Player) : (s.updPlayer player f).Inv :=
  ⟨h.rooms, h.starts, h.groups⟩

lemma Inv.wait (c : Coroutine) : (s.wait c).Inv := ⟨h.rooms, h.starts, h.groups⟩

lemma Inv.hold : s.hold.Inv := ⟨h.rooms, h.starts, h.groups⟩

lemma Inv.release : s.release.Inv := ⟨h.rooms, h.starts, h.groups⟩

lemma Inv.updUser (uid : ℕ) (f : Player → Player) : (s.updUser uid f).Inv := by
  unfold RaceMgr.updUser
  split
  · exact h
  · exact h.updPlayer _ _

/-- A room is changed. -/
lemma Inv.updRoom (room : ℕ) (f : Room → Room) (hf : (s.rooms room).Good → (f (s.rooms room)).Good) :
    (s.updRoom room f).Inv := by
  refine ⟨fun r => ?_, h.starts, h.groups⟩
  change (Function.update s.rooms room (f (s.rooms room)) r).Good
  by_cases hr : r = room
  · rw [hr, Function.update_self]
    exact hf (h.rooms room)
  · rw [Function.update_of_ne hr]
    exact h.rooms r

lemma Inv.createRoom (roomid : ℕ) (isVIP : Bool) : (s.createRoom roomid isVIP).Inv := by
  refine ⟨fun r => ?_, h.starts, h.groups⟩
  change (Function.update s.rooms s.nextTable { isVIP := isVIP } r).Good
  by_cases hr : r = s.nextTable
  · rw [hr, Function.update_self]
    exact ⟨by simp, by simp, by simp⟩
  · rw [Function.update_of_ne hr]
    exact h.rooms r

lemma Inv.getRoomFromPool (groupid roomid : ℕ) (fixed : Bool) :
    (s.getRoomFromPool groupid roomid fixed).Inv := by
  unfold RaceMgr.getRoomFromPool
  split
  · split_ifs
    · exact h.updRoom _ _ fun hg => ⟨hg.seats, hg.hands, hg.sub⟩
    · exact h
  · exact h

/-- Only the players of a group change. -/
lemma Inv.setGroup {groupid : ℕ} {group : Group} (hg : s.group_list.lookup groupid = some group)
    (players : List ℕ) :
    ({ s with group_list := s.group_list.insert groupid { group with players := players } } :
      RaceMgr).Inv := by
  refine ⟨h.rooms, h.starts, fun g group' hgroup' => ?_⟩
  change group' ∈ (s.group_list.insert groupid { group with players := players }).lookup g at hgroup'
  by_cases heq : g = groupid
  · subst heq
    rw [AList.lookup_insert, Option.mem_some_iff] at hgroup'
    rw [← hgroup']
    exact h.groups g group hg
  · rw [AList.lookup_insert_ne heq] at hgroup'
    exact h.groups g group' hgroup'

lemma Inv.enterGame (uid groupid : ℕ) : (s.enterGame uid groupid).Inv := by
  unfold RaceMgr.enterGame
  split_ifs
  · exact h
  · split
    · exact h
    · rename_i group hg
      have hset := h.setGroup hg (group.players ++ [uid])
      dsimp only
      split
      · exact ⟨hset.rooms, hset.starts, hset.groups⟩
      · exact hset.updPlayer _ _

lemma Inv.enterRoom (uid findedRoomId : ℕ) : (s.enterRoom uid findedRoomId).Inv := by
  unfold RaceMgr.enterRoom
  split
  · exact h
  · dsimp only
    split_ifs
    · split
      · exact h
      · exact h.updRoom _ _ fun hg => ⟨hg.seats, hg.hands, hg.sub⟩
    all_goals
      split
      · exact h
      · split
        · exact h
        · exact h.wait _

lemma Inv.entered (uid findedRoomId : ℕ) (enterOK isPlayer : Bool) :
    (s.entered uid findedRoomId enterOK isPlayer).Inv := by
  unfold RaceMgr.entered
  cases enterOK with
  | false => exact h
  | true =>
    rw [if_pos rfl]
    apply Inv.updUser
    split
    · exact h
    · exact h.updRoom _ _ fun hg => hg.enter uid isPlayer

lemma Inv.leaveGroup (groupid uid : ℕ) : (s.leaveGroup groupid uid).Inv := by
  unfold RaceMgr.leaveGroup
  split
  · exact h
  · rename_i group hg
    exact h.setGroup hg (group.players.erase uid)

lemma Inv.leaveGame (uid : ℕ) : (s.leaveGame uid).Inv := by
  unfold RaceMgr.leaveGame
  split
  · exact h
  · rename_i player _
    have hleft := h.leaveGroup (s.players player).groupid uid
    exact ⟨hleft.rooms, hleft.starts, hleft.groups⟩

lemma Inv.returned (caller : Caller) (ret leaveGame : Bool) :
    (s.returned caller ret leaveGame).Inv := by
  cases caller with
  | service => exact h
  | disconnect uid player =>
    unfold RaceMgr.returned
    dsimp only
    split_ifs
    · exact h.leaveGame uid
    · exact h.leaveGroup _ uid
  | fork uid => exact h.leaveGame uid
  | change uid findedRoomId =>
    unfold RaceMgr.returned
    dsimp only
    split_ifs
    · exact h.enterRoom uid findedRoomId
    · exact h

lemma Inv.userLeaveRoom (uid : ℕ) (caller : Caller) : (s.userLeaveRoom uid caller).Inv := by
  unfold RaceMgr.userLeaveRoom
  split
  · exact h.returned _ _ _
  · split
    · exact h.returned _ _ _
    · exact h.wait _

lemma Inv.left (uid ref : ℕ) (caller : Caller) (bRet isHold : Bool) :
    (s.left uid ref caller bRet isHold).Inv := by
  unfold RaceMgr.left
  cases bRet with
  | false => exact h.returned _ _ _
  | true =>
    have hheld := h.updPlayer ref fun p => { p with
      holdRoomId := some (if isHold then p.roomid else 0) }
    rw [if_pos rfl]
    dsimp only
    generalize RaceMgr.updPlayer s ref _ = s₁ at hheld ⊢
    split_ifs
    · exact hheld.returned _ _ _
    · split
      · exact hheld
      · rename_i room _
        have hroom := hheld.updRoom room (Room.remove · uid) fun hg => hg.remove uid
        split_ifs
        · exact hroom.wait _
        · exact hroom

lemma Inv.idled (uid ref : ℕ) (isHold : Bool) (caller : Caller) :
    (s.idled uid ref isHold caller).Inv := by
  unfold RaceMgr.idled
  split
  · exact h
  · exact (h.updPlayer _ _).wait _

lemma Inv.proceed (after : After) : (s.proceed after).Inv := by
  cases after with
  | nothing => exact h
  | left roomid leaveGame caller =>
    unfold RaceMgr.proceed
    dsimp only
    split_ifs
    · exact h.returned _ _ _
    · exact h

lemma Inv.userDisconnect (uid : ℕ) : (s.userDisconnect uid).Inv := by
  unfold RaceMgr.userDisconnect
  split
  · exact h
  · split
    · exact h
    · split
      · exact h
      · exact h.updRoom _ _ fun hg => ⟨hg.seats, hg.hands, hg.sub⟩
    · exact h.userLeaveRoom _ _

lemma Inv.userSelectSeat (uid : ℕ) : (s.userSelectSeat uid).Inv := by
  unfold RaceMgr.userSelectSeat
  split
  · exact h
  · split
    · exact h
    · exact h.hold.wait _

lemma Inv.selectedSeat (uid player room roomid ret : ℕ) :
    (s.selectedSeat uid player room roomid ret).Inv := by
  unfold RaceMgr.selectedSeat
  split_ifs
  · exact (((h.updPlayer _ _).updRoom _ _ fun hg => hg.sit uid).updUser _ _).release
  · exact ((h.updRoom _ _ fun hg => hg.stand uid).updUser _ _).release
  · exact h.release

lemma Inv.userQuit (uid : ℕ) : (s.userQuit uid).Inv := by
  unfold RaceMgr.userQuit
  split
  · exact h
  · split
    · exact h
    · exact h.wait _

lemma Inv.userStandup (uid : ℕ) (isstandup : Bool) : (s.userStandup uid isstandup).Inv := by
  unfold RaceMgr.userStandup
  split
  · exact h
  · split
    · exact h
    · exact h.wait _

lemma Inv.stoodUp (uid roomid : ℕ) (isstandup : Bool) : (s.stoodUp uid roomid isstandup).Inv := by
  unfold RaceMgr.stoodUp
  split
  · exact h
  · rename_i room _
    cases isstandup with
    | true =>
      have hroom := h.updRoom room (Room.stand · uid) fun hg => hg.stand uid
      simp only [if_true]
      split
      · exact hroom
      · exact (hroom.updPlayer _ _).wait _
    | false =>
      have hroom := h.updRoom room (Room.sitDown · uid) fun hg => hg.sitDown uid
      simp only [Bool.false_eq_true, if_false]
      split
      · exact hroom
      · exact ((hroom.updPlayer _ _).wait _).wait _

/-- A user with a seat gets ready. -/
lemma Inv.userReady (uid : ℕ) (hseat : s.HasSeat uid) : (s.userReady uid).Inv := by
  unfold RaceMgr.userReady
  split
  · exact h
  · rename_i player hplayer
    by_cases hstatus : (s.players player).playerstatus = .seat
    · rw [if_pos hstatus]
      dsimp only
      split
      · exact h.updPlayer _ _
      · rename_i room hroom
        have hmem := hseat player hplayer hstatus room hroom
        exact ((h.updPlayer _ _).updRoom room _ fun hg => hg.raiseHand hmem).wait _
    · rw [if_neg hstatus]
      exact h

lemma Inv.closeRoom (room roomid : ℕ) (after : After) : (s.closeRoom room roomid after).Inv := by
  have herase : ({ s with room_pool := s.room_pool.erase roomid } : RaceMgr).Inv :=
    ⟨h.rooms, h.starts, h.groups⟩
  unfold RaceMgr.closeRoom
  dsimp only
  split_ifs
  · split
    · exact h.release
    · exact herase.release.proceed after
  · exact h.release.proceed after
  · split
    · exact h.release.proceed after
    · split
      · exact h.release
      · exact h.hold.wait _
  · exact h.release.proceed after

lemma Inv.started (room roomid : ℕ) (after : After) : (s.started room roomid after).Inv := by
  unfold RaceMgr.started
  apply Inv.closeRoom
  generalize (s.rooms room).seatplayers = uids
  induction uids generalizing s with
  | nil => exact h
  | cons uid uids ih => exact ih (h.updUser uid _)

lemma Inv.requestReleaseRoom (roomid : ℕ) : (s.requestReleaseRoom roomid).Inv := by
  unfold RaceMgr.requestReleaseRoom
  split
  · exact h
  · rename_i room _
    split
    · exact h
    · have hroom := h.updRoom room (fun r => { r with
        isReleased := true
        curplayers := []
        watchplayers := [] }) fun hg => ⟨hg.seats, hg.hands, hg.sub⟩
      exact ⟨hroom.rooms, hroom.starts, hroom.groups⟩

lemma Inv.userGameEnd (uid : ℕ) : (s.userGameEnd uid).Inv := by
  unfold RaceMgr.userGameEnd
  split
  · exact h
  · dsimp only
    split
    · exact h.updPlayer _ _
    · exact (h.updPlayer _ _).updRoom _ _ fun hg => ⟨hg.seats, hg.hands, hg.sub⟩

/-- A fair game is started. -/
lemma Inv.startGame (room roomid minplayernum : ℕ) (after : After)
    (hfair : (⟨(s.rooms room).readyplayers, (s.rooms room).seatplayers, minplayernum⟩ : Start).Fair) :
    (s.startGame room roomid minplayernum after).Inv := by
  have hlog : ({ s with starts := s.starts ++
      [⟨(s.rooms room).readyplayers, (s.rooms room).seatplayers, minplayernum⟩] } : RaceMgr).Inv := by
    refine ⟨h.rooms, fun start hstart => ?_, h.groups⟩
    rcases List.mem_append.mp hstart with hstart | hstart
    · exact h.starts start hstart
    · rw [List.mem_singleton.mp hstart]
      exact hfair
  unfold RaceMgr.startGame
  dsimp only
  exact ((hlog.updRoom room _ fun hg => ⟨hg.seats, by simp, by simp⟩).hold).wait _

/-- **`CheckGameStart` starts fair games**, when no user whose connection is lost is ready. -/
lemma checkGameStart_inv (groupid roomid : ℕ) (after : After) (hcut : s.CutNotReady roomid) :
    (s.checkGameStart groupid roomid after).Inv := by
  unfold checkGameStart
  split
  · exact h.proceed after
  · rename_i room hroom
    by_cases hplaying : (s.rooms room).roomstatus = .playing
    · rw [if_pos hplaying]
      exact h.proceed after
    · rw [if_neg hplaying]
      dsimp only
      have hdrop := h.updRoom room Room.dropCut fun hg => hg.dropCut (hcut room hroom hplaying)
      set s₁ : RaceMgr := { s.updRoom room Room.dropCut with
        waiting := (s.updRoom room Room.dropCut).waiting ++
          (s.rooms room).cutplayers.map Coroutine.leaving } with hs₁
      have h₁ : s₁.Inv := ⟨hdrop.rooms, hdrop.starts, hdrop.groups⟩
      split
      · exact h₁.closeRoom _ _ _
      · rename_i minplayernum _
        by_cases hlen : (s₁.rooms room).seatplayers.length = (s₁.rooms room).readyplayers.length
        · rw [if_pos hlen]
          split
          · exact h₁
          · rename_i group hgroup
            by_cases hbegin : canBegin group (s₁.rooms room) minplayernum = true
            · rw [if_pos hbegin]
              have hmin : minplayernum ≤ (s₁.rooms room).seatplayers.length := by
                rw [canBegin, h₁.groups groupid group hgroup] at hbegin
                simpa using hbegin
              exact h₁.startGame _ _ _ _ ((h₁.rooms room).fair hlen hmin)
            · rw [if_neg hbegin]
              exact h₁.closeRoom _ _ _
        · rw [if_neg hlen]
          exact h₁.closeRoom _ _ _

end Frame

/-! ### Runs -/

/-- A coroutine goes on. -/
lemma Inv.resume {s : RaceMgr} (h : s.Inv) {c : Coroutine} (a : Answer) (hok : s.OrderlyResume c) :
    (s.resume c a).Inv := by
  cases c with
  | entered uid findedRoomId => exact h.entered _ _ _ _
  | selectedSeat uid player room roomid => exact h.selectedSeat _ _ _ _ _
  | quit player =>
    unfold RaceMgr.resume
    dsimp only
    split_ifs
    · exact h.updPlayer _ _
    · exact h
  | stoodUp uid roomid isstandup =>
    unfold RaceMgr.resume
    dsimp only
    split_ifs
    · exact h.stoodUp _ _ _
    · exact h
  | readied room roomid => exact h.wait _
  | left uid player caller => exact h.left _ _ _ _ _
  | idled uid player isHold caller => exact h.idled _ _ _ _
  | check groupid roomid after => exact checkGameStart_inv h groupid roomid after hok
  | started room roomid after => exact h.started _ _ _
  | reset roomid isVIP after => exact (h.createRoom _ _).wait _
  | made after => exact h.release.proceed after
  | readying uid => exact h.userReady uid hok
  | leaving uid => exact h.userLeaveRoom _ _

/-- What an orderly step keeps. -/
lemma step_inv {s s' : RaceMgr} {e : Event} (h : s.Inv) (hok : s.Orderly e)
    (hstep : s.step e = some s') : s'.Inv := by
  cases e with
  | createRoom roomid isVIP =>
    obtain rfl := Option.some.inj hstep
    exact h.createRoom _ _
  | getRoomFromPool groupid roomid fixed =>
    obtain rfl := Option.some.inj hstep
    exact h.getRoomFromPool _ _ _
  | enterGame uid groupid =>
    obtain rfl := Option.some.inj hstep
    exact h.enterGame _ _
  | enterRoom uid findedRoomId =>
    obtain rfl := Option.some.inj hstep
    exact h.enterRoom _ _
  | leaveRoom uid =>
    obtain rfl := Option.some.inj hstep
    exact h.userLeaveRoom _ _
  | leaveGame uid =>
    obtain rfl := Option.some.inj hstep
    exact h.leaveGame _
  | changeRoom uid findedRoomId =>
    obtain rfl := Option.some.inj hstep
    exact h.userLeaveRoom _ _
  | userDisconnect uid =>
    obtain rfl := Option.some.inj hstep
    exact h.userDisconnect _
  | userSelectSeat uid =>
    unfold step at hstep
    dsimp only at hstep
    split_ifs at hstep
    obtain rfl := Option.some.inj hstep
    exact h.userSelectSeat _
  | userQuit uid =>
    obtain rfl := Option.some.inj hstep
    exact h.userQuit _
  | userStandup uid isstandup =>
    obtain rfl := Option.some.inj hstep
    exact h.userStandup _ _
  | userReady uid =>
    obtain rfl := Option.some.inj hstep
    exact h.userReady uid hok
  | userGameStart uid =>
    obtain rfl := Option.some.inj hstep
    exact h.updUser _ _
  | userGameEnd uid =>
    obtain rfl := Option.some.inj hstep
    exact h.userGameEnd _
  | startGame roomid =>
    unfold step at hstep
    dsimp only at hstep
    split at hstep <;> obtain rfl := Option.some.inj hstep
    · exact h
    · exact h.updRoom _ _ fun hg => ⟨hg.seats, by simp, by simp⟩
  | changePlayerState uid state =>
    obtain rfl := Option.some.inj hstep
    exact h.updUser _ _
  | setPlayerHoldRoomId uid roomId =>
    obtain rfl := Option.some.inj hstep
    exact h.updUser _ _
  | requestReleaseRoom roomid =>
    unfold step at hstep
    dsimp only at hstep
    split_ifs at hstep
    obtain rfl := Option.some.inj hstep
    exact h.requestReleaseRoom _
  | resume n answer =>
    unfold step at hstep
    dsimp only at hstep
    split at hstep
    · exact absurd hstep (by simp)
    · rename_i c hc
      split_ifs at hstep
      obtain rfl := Option.some.inj hstep
      have hrest : ({ s with waiting := s.waiting.eraseIdx n } : RaceMgr).Inv :=
        ⟨h.rooms, h.starts, h.groups⟩
      -- the condition does not look at the coroutines that wait
      have hresume : OrderlyResume { s with waiting := s.waiting.eraseIdx n } c := by
        have hc' := hok c hc
        cases c <;> exact hc'
      exact hrest.resume answer hresume

lemma opened_inv (groups : Lobby.LuaTable ℕ (ℕ × ℕ × Bool)) : (opened groups).Inv := by
  refine ⟨fun room => ⟨by simp [opened], by simp [opened], by simp [opened]⟩, by simp [opened], ?_⟩
  intro groupid group hgroup
  rw [AList.mem_lookup_iff] at hgroup
  obtain ⟨g, -, hg⟩ := List.mem_map.mp hgroup
  cases hg
  rfl

/-- **A game starts only with its ready, seated users**, in every run in which those who get ready
have a seat and those who are taken off their seats in `CheckGameStart` are not ready.

**Proof sketch.** Every other step keeps the list of the ready within that of the seats. Two lists
without repetition, one within the other and of the same length, name the same users. -/
theorem starts_fair {groups : Lobby.LuaTable ℕ (ℕ × ℕ × Bool)} {s : RaceMgr}
    (h : Runs.Reaches step Orderly (opened groups) s) : ∀ start ∈ s.starts, start.Fair :=
  (h.invariant (opened_inv groups) fun _ _ _ hI hok hstep => step_inv hI hok hstep).starts

/-! ### Two runs -/

/-- One group, whose games need two users. -/
def pairGroup : Lobby.LuaTable ℕ (ℕ × ℕ × Bool) := (∅ : Lobby.LuaTable ℕ _).insert 1 (2, 4, false)

/-- A user enters the room and gets a seat. -/
def enters (uid : ℕ) : List Event :=
  [.enterGame uid 1, .enterRoom uid 7, .resume 0 { more := true }]

/-- A user gets ready, and the room is checked. -/
def getsReady (uid : ℕ) : List Event := [.userReady uid, .resume 0 {}, .resume 0 {}]

/-- A room is made for the group. -/
def makesRoom : List Event := [.createRoom 7 false, .getRoomFromPool 1 7 false]

/-- Two users sit down and get ready, and the game starts with them. -/
theorem starts_fair_pair : ∃ s, Runs.Reaches step Orderly (opened pairGroup) s ∧
    s.starts = [⟨[11, 12], [11, 12], 2⟩] ∧ ∀ start ∈ s.starts, start.Fair := by
  have hrun : ((Runs.exec step Orderly (opened pairGroup)
      (makesRoom ++ enters 11 ++ enters 12 ++ getsReady 11 ++ getsReady 12)).any fun s =>
      s.starts = [⟨[11, 12], [11, 12], 2⟩]) = true := by
    decide +kernel
  obtain ⟨s, hs, hprop⟩ := (Option.any_eq_true _ _).mp hrun
  have hreach := Runs.reaches_of_exec _ .init hs
  exact ⟨s, hreach, of_decide_eq_true hprop, starts_fair hreach⟩

/-- The connection of the third of three users is lost in a game. After the game this user and the
first get ready. The room takes the third user off the seats and starts a game of the first two, of
whom the second is not ready. -/
theorem starts_without_hand : ¬ ∀ groups s,
    Runs.Reaches step (fun _ _ => True) (opened groups) s → ∀ start ∈ s.starts, start.Fair := by
  have hrun : ((Runs.exec step (fun _ _ => True) (opened pairGroup)
      (makesRoom ++ enters 11 ++ enters 12 ++ enters 13 ++
        [.userReady 11, .userReady 12, .userReady 13, .resume 0 {}, .resume 0 {}, .resume 0 {},
          .resume 0 {}, .userGameStart 11, .userGameStart 12, .userGameStart 13,
          .userDisconnect 13, .resume 2 {}, .userGameEnd 11, .userGameEnd 12, .userGameEnd 13,
          .userReady 13, .userReady 11, .resume 2 {}, .resume 3 {}])).any fun s =>
      s.starts = [⟨[11, 12, 13], [11, 12, 13], 2⟩, ⟨[13, 11], [11, 12], 2⟩]) = true := by
    decide +kernel
  obtain ⟨s, hs, hprop⟩ := (Option.any_eq_true _ _).mp hrun
  intro hfair
  have hlist := of_decide_eq_true hprop
  have hlast := hfair pairGroup s (Runs.reaches_of_exec _ .init hs) ⟨[13, 11], [11, 12], 2⟩
    (by simp [hlist])
  exact absurd hlast (by decide)

end RaceMgr
