import JsmjServer.Lib.Tables
import JsmjServer.Lobby.EnterRoom

set_option relaxedAutoImplicit false
set_option autoImplicit false

/-!
# One player for each seat

`enterRoom` of a room chooses the seat before it asks for the user's data and adds the player
afterwards, outside the critical section that both services have. The module says when all runs keep
one player for each seat: when a request chooses a seat that no other request is waiting to take.

## Main definitions

* `Lobby.OnePerSeat` — what is claimed of a state.
* `Lobby.Ready` — the states in which the requests begin.
* `Lobby.Orderly` — the condition on a step.
* `Lobby.Inv` — the invariant: a waiting request has its seat for itself.

## Main results

* `Lobby.onePerSeat_of_reaches` — runs of orderly steps keep one player for each seat.
* `Lobby.three_on_one_seat` — without the condition they do not.
-/

namespace Lobby

/-- No two players of a room have the same position, there are at most `maxPlayer` of them, and the
manager's list of the users in a room is not longer than the room's maximum. -/
structure OnePerSeat (s : Lobby) : Prop where
  distinct : ∀ a u v p, (s.services a).players.lookup u = some p →
    (s.services a).players.lookup v = some p → u = v
  seated : ∀ a, (s.services a).players.keys.length ≤ (s.services a).maxPlayer
  current : ∀ id room, s.room_pool.lookup id = some room →
    room.curplayers.length ≤ room.maxplayernum

/-! ### The initial states -/

/-- Players have different positions of the room. In a room opened by a user, a position is kept for
one user, and no other user is there; `userSelectSeat` sees to that. A service that has not been
initialised has no players. -/
structure BaseRoom.Fair (r : BaseRoom) : Prop where
  closed : r.roomType = none → r.players = ∅
  injective : ∀ u v p, r.players.lookup u = some p → r.players.lookup v = some p → u = v
  range : ∀ u p, r.players.lookup u = some p → 1 ≤ p ∧ p ≤ r.maxPlayer
  kept : r.roomType = some .vip → ∀ u v p, r.kept u = some p → r.kept v = some p → u = v
  vacant : r.roomType = some .vip → ∀ u v p, r.players.lookup u = some p → r.kept v = some p → u = v

/-- The manager's record agrees with the service: the users in the room are among its players, and a
room is idle as long as its service has not been initialised. -/
structure RoomOk (services : ℕ → BaseRoom) (nextAddr : ℕ) (room : RoomInfo) : Prop where
  addr : room.room < nextAddr
  nodup : room.curplayers.Nodup
  players : ∀ u ∈ room.curplayers, u ∈ (services room.room).players
  opened : (services room.room).roomType ≠ none →
    room.roomstatus ≠ .idle ∧ room.maxplayernum = (services room.room).maxPlayer

/-- No request is in progress and every room is in order. -/
structure Ready (s : Lobby) : Prop where
  requests : s.requests = ∅
  fair : ∀ a, (s.services a).Fair
  room : ∀ id room, s.room_pool.lookup id = some room →
    RoomOk s.services s.nextAddr room

/-! ### The condition -/

/-- A request has chosen the seat and waits to take it. -/
def chosen (s : Lobby) (addr seat : ℕ) : Bool :=
  s.requests.entries.any fun x =>
    match x.2.phase with
    | .waiting _ a k => a == addr && k == seat
    | _ => false

/-- The seat that the room has found is one of its seats, and no other request waits to take it.
Without a seat, the game refuses the user, or the room is one that is locked. -/
def SeatFits (s : Lobby) (addr seat : ℕ) : Prop :=
  if seat = 0 then
    (s.services addr).newGamePlayer 0 = false ∨
      (s.services addr).roomType = some .vip ∧ (s.services addr).isVIPLock = true
  else seat ≤ (s.services addr).maxPlayer ∧ s.chosen addr seat = false

instance (s : Lobby) (addr seat : ℕ) : Decidable (s.SeatFits addr seat) := by
  unfold SeatFits
  infer_instance

/-- When the room's handler begins, the seat that it finds fits; when a new room is put in the pool,
there is no initialised room under its number. -/
def Orderly (s : Lobby) : Event → Prop
  | .handled uid => ∀ q ∈ s.requests.lookup uid, match q.phase with
    | .called _ addr => ∀ seat ∈ (s.services addr).findSeat uid, s.SeatFits addr seat
    | _ => True
  | .created uid => ∀ q ∈ s.requests.lookup uid, match q.phase with
    | .creating roomid => ∀ room ∈ s.room_pool.lookup roomid,
      (s.services room.room).roomType = none
    | _ => True
  | _ => True

instance (s : Lobby) (e : Event) : Decidable (s.Orderly e) :=
  match e with
  | .handled uid => @Option.decidableForallMem _ _ (fun q =>
      match q.phase with
      | .called _ addr => inferInstanceAs
          (Decidable (∀ seat ∈ (s.services addr).findSeat uid, s.SeatFits addr seat))
      | .creating _ | .naming | .initing _ | .waiting _ _ _ | .leaving _ _ _ | .replied _ _ _ =>
        isTrue trivial) (s.requests.lookup uid)
  | .created uid => @Option.decidableForallMem _ _ (fun q =>
      match q.phase with
      | .creating roomid => inferInstanceAs (Decidable (∀ room ∈ s.room_pool.lookup roomid,
          (s.services room.room).roomType = none))
      | .called _ _ | .naming | .initing _ | .waiting _ _ _ | .leaving _ _ _ | .replied _ _ _ =>
        isTrue trivial) (s.requests.lookup uid)
  | .enterRoom _ _ _ _ _ _ | .named _ _ | .inited _ | .resumed _ _ | .resetRobot _ | .left _
  | .booked _ => isTrue trivial

/-! ### The invariant -/

/-- The call goes to the service under the room's number, if that service has been initialised. -/
def Linked (s : Lobby) (id a : ℕ) : Prop :=
  a < s.nextAddr ∧ ((s.services a).roomType ≠ none →
    ∃ room, s.room_pool.lookup id = some room ∧ room.room = a)

/-- The seat that a waiting request has chosen is free for its user. -/
structure WaitOk (r : BaseRoom) (u k : ℕ) : Prop where
  watches : k = 0 → r.roomType = some .vip ∧ r.isVIPLock = true
  opened : r.roomType ≠ none
  le : k ≤ r.maxPlayer
  free : k ≠ 0 → ∀ v, r.players.lookup v = some k → v = u
  kept : k ≠ 0 → r.roomType = some .vip → r.kept u = some k

/-- What holds of a request while it waits. -/
def PhaseOk (s : Lobby) (u : ℕ) : Phase → Prop
  | .creating _ | .naming => True
  | .initing a => a < s.nextAddr ∧ (s.services a).roomType = none
  | .called id a | .leaving id a _ => s.Linked id a
  | .waiting id a k => s.Linked id a ∧ WaitOk (s.services a) u k
  | .replied id a reply => s.Linked id a ∧
    (reply.enterOK = true → (s.services a).roomType ≠ none ∧ u ∈ (s.services a).players)

/-- Rooms are in order, no two requests wait to take the same seat, and a user whose request is in
progress is not yet listed in a room. -/
structure Inv (s : Lobby) : Prop where
  fair : ∀ a, (s.services a).Fair
  room : ∀ id room, s.room_pool.lookup id = some room →
    RoomOk s.services s.nextAddr room
  request : ∀ u q, s.requests.lookup u = some q → s.PhaseOk u q.phase
  apart : ∀ u v q q' id id' a k, s.requests.lookup u = some q → s.requests.lookup v = some q' →
    q.phase = .waiting id a k → q'.phase = .waiting id' a k → k ≠ 0 → u = v
  free : ∀ u ∈ s.requests, ∀ id room, s.room_pool.lookup id = some room → u ∉ room.curplayers

lemma Ready.inv {s : Lobby} (h : s.Ready) : s.Inv := by
  refine ⟨h.fair, h.room, ?_, ?_, ?_⟩
  · intro u q hq
    rw [h.requests] at hq
    simp at hq
  · intro u v q q' id id' a k hq
    rw [h.requests] at hq
    simp at hq
  · intro u hu
    rw [h.requests] at hu
    simp at hu

/-- A service that has not been initialised has nobody listed in its room. -/
lemma RoomOk.curplayers_eq_nil {services : ℕ → BaseRoom} {n : ℕ} {room : RoomInfo}
    (h : RoomOk services n room) (hf : (services room.room).Fair)
    (hclosed : (services room.room).roomType = none) : room.curplayers = [] := by
  apply List.eq_nil_iff_forall_not_mem.mpr
  intro u hu
  have hmem := h.players u hu
  rw [hf.closed hclosed] at hmem
  exact AList.notMem_empty u hmem

lemma Inv.onePerSeat {s : Lobby} (h : s.Inv) : s.OnePerSeat := by
  refine ⟨fun a => (h.fair a).injective, ?_, ?_⟩
  · intro a
    exact Tables.length_keys_le (h.fair a).injective (h.fair a).range
  · intro id room hroom
    have hok := h.room id room hroom
    have hf := h.fair room.room
    by_cases hc : (s.services room.room).roomType = none
    · rw [hok.curplayers_eq_nil hf hc]
      exact Nat.zero_le _
    · rw [(hok.opened hc).2]
      exact Tables.length_le_of_injective hok.nodup hok.players hf.injective hf.range

/-! ### Updates -/

section Updates

variable {s : Lobby}

/-- What holds of a request still holds when it holds of the services that the request names. -/
lemma PhaseOk.mono {s' : Lobby} {v : ℕ} {phase : Phase} (h : s.PhaseOk v phase)
    (hlink : ∀ id a, s.Linked id a → s'.Linked id a)
    (hinit : ∀ a, a < s.nextAddr → (s.services a).roomType = none →
      a < s'.nextAddr ∧ (s'.services a).roomType = none)
    (hwait : ∀ id a k, phase = .waiting id a k → s.Linked id a → WaitOk (s.services a) v k →
      WaitOk (s'.services a) v k)
    (hreply : ∀ id a reply, phase = .replied id a reply → s.Linked id a → reply.enterOK = true →
      (s.services a).roomType ≠ none ∧ v ∈ (s.services a).players →
      (s'.services a).roomType ≠ none ∧ v ∈ (s'.services a).players) : s'.PhaseOk v phase := by
  cases phase with
  | creating _ => trivial
  | naming => trivial
  | initing a => exact hinit a h.1 h.2
  | called id a => exact hlink id a h
  | leaving id a _ => exact hlink id a h
  | waiting id a k => exact ⟨hlink id a h.1, hwait id a k rfl h.1 h.2⟩
  | replied id a reply =>
    exact ⟨hlink id a h.1, fun ho => hreply id a reply rfl h.1 ho (h.2 ho)⟩

/-- A request goes on to another call. -/
lemma Inv.wait (h : s.Inv) {u : ℕ} {q : Request} (hq : s.PhaseOk u q.phase)
    (happart : ∀ id a k, q.phase = .waiting id a k → k ≠ 0 → ∀ v q' id', v ≠ u →
      s.requests.lookup v = some q' → q'.phase ≠ .waiting id' a k)
    (hfree : ∀ id room, s.room_pool.lookup id = some room → u ∉ room.curplayers) :
    (s.wait u q).Inv := by
  refine ⟨h.fair, h.room, ?_, ?_, ?_⟩
  · intro v q' hv
    obtain ⟨rfl, rfl⟩ | ⟨_, hv⟩ := (Tables.lookup_insert_eq_some _ _ _ _ _).mp hv
    · exact hq
    · exact h.request v q' hv
  · intro v w qv qw id id' a k hv hw hpv hpw hk
    obtain ⟨rfl, rfl⟩ | ⟨hvu, hv'⟩ := (Tables.lookup_insert_eq_some _ _ _ _ _).mp hv
    · obtain ⟨rfl, rfl⟩ | ⟨hwu, hw⟩ := (Tables.lookup_insert_eq_some _ _ _ _ _).mp hw
      · rfl
      · exact absurd hpw (happart id a k hpv hk w qw id' hwu hw)
    · obtain ⟨rfl, rfl⟩ | ⟨_, hw⟩ := (Tables.lookup_insert_eq_some _ _ _ _ _).mp hw
      · exact absurd hpv (happart id' a k hpw hk v qv id hvu hv')
      · exact h.apart v w qv qw id id' a k hv' hw hpv hpw hk
  · intro v hv
    obtain rfl | hv := (AList.mem_insert _).mp hv
    · exact hfree
    · exact h.free v hv

/-- A request that does not wait to take a seat goes on to another call of this kind. -/
lemma Inv.wait_elsewhere (h : s.Inv) {u groupid : ℕ} {isRobot : Bool} {phase : Phase}
    (hq : s.PhaseOk u phase) (hphase : ∀ id a k, phase ≠ .waiting id a k)
    (hfree : ∀ id room, s.room_pool.lookup id = some room → u ∉ room.curplayers) :
    (s.wait u ⟨groupid, isRobot, phase⟩).Inv :=
  h.wait hq (fun id a k hp => absurd hp (hphase id a k)) hfree

lemma Inv.done (h : s.Inv) (u : ℕ) : (s.done u).Inv := by
  refine ⟨h.fair, h.room, ?_, ?_, ?_⟩
  · intro v q hv
    exact h.request v q ((Tables.lookup_erase_eq_some _ _ _ _).mp hv).2
  · intro v w q q' id id' a k hv hw
    exact h.apart v w q q' id id' a k ((Tables.lookup_erase_eq_some _ _ _ _).mp hv).2
      ((Tables.lookup_erase_eq_some _ _ _ _).mp hw).2
  · intro v hv
    exact h.free v (AList.mem_erase.mp hv).2

/-- The pool gets another record of the same service. -/
lemma Inv.setRoom (h : s.Inv) {id : ℕ} {room room' : RoomInfo}
    (hroom : s.room_pool.lookup id = some room) (haddr : room'.room = room.room)
    (hok : RoomOk s.services s.nextAddr room') (hfree : ∀ u ∈ s.requests, u ∉ room'.curplayers) :
    (s.setRoom id room').Inv := by
  have hlink : ∀ id' a, s.Linked id' a → (s.setRoom id room').Linked id' a := by
    intro id' a hl
    refine ⟨hl.1, fun ho => ?_⟩
    obtain ⟨r, hr, hra⟩ := hl.2 ho
    by_cases hid : id' = id
    · subst hid
      rw [hroom] at hr
      obtain rfl := Option.some.inj hr
      exact ⟨room', AList.lookup_insert _, haddr.trans hra⟩
    · exact ⟨r, (AList.lookup_insert_ne hid).trans hr, hra⟩
  refine ⟨h.fair, ?_, ?_, h.apart, ?_⟩
  · intro id' r hr
    obtain ⟨rfl, rfl⟩ | ⟨_, hr⟩ := (Tables.lookup_insert_eq_some _ _ _ _ _).mp hr
    · exact hok
    · exact h.room id' r hr
  · intro v q hq
    exact (h.request v q hq).mono hlink (fun _ hlt hc => ⟨hlt, hc⟩) (fun _ _ _ _ _ hw => hw)
      fun _ _ _ _ _ _ hr => hr
  · intro v hv id' r hr
    obtain ⟨rfl, rfl⟩ | ⟨_, hr⟩ := (Tables.lookup_insert_eq_some _ _ _ _ _).mp hr
    · exact hfree v hv
    · exact h.free v hv id' r hr

/-- A service gets other players. -/
lemma Inv.setService (h : s.Inv) {a : ℕ} {r : BaseRoom} (hfair : r.Fair)
    (htype : r.roomType = (s.services a).roomType)
    (hmax : (s.services a).roomType ≠ none → r.maxPlayer = (s.services a).maxPlayer)
    (hcur : ∀ id room, s.room_pool.lookup id = some room → room.room = a →
      ∀ u ∈ room.curplayers, u ∈ r.players)
    (hwait : ∀ v q id k, s.requests.lookup v = some q → q.phase = .waiting id a k →
      WaitOk (s.services a) v k → WaitOk r v k)
    (hreply : ∀ v q id reply, s.requests.lookup v = some q → q.phase = .replied id a reply →
      reply.enterOK = true → v ∈ r.players) :
    (s.setService a r).Inv := by
  have htypes : ∀ b, ((s.setService a r).services b).roomType = (s.services b).roomType := by
    intro b
    by_cases hb : b = a
    · subst hb
      rw [setService_self, htype]
    · rw [setService_of_ne s hb]
  have hlink : ∀ id b, s.Linked id b → (s.setService a r).Linked id b := by
    intro id b hl
    exact ⟨hl.1, fun ho => hl.2 (by rwa [← htypes b])⟩
  refine ⟨?_, ?_, ?_, h.apart, h.free⟩
  · intro b
    by_cases hb : b = a
    · subst hb
      rw [setService_self]
      exact hfair
    · rw [setService_of_ne s hb]
      exact h.fair b
  · intro id room hroom
    have hok := h.room id room hroom
    by_cases hb : room.room = a
    · subst hb
      have hr := setService_self s room.room r
      refine ⟨hok.addr, hok.nodup, ?_, ?_⟩
      · rw [hr]
        exact hcur id room hroom rfl
      · rw [hr]
        intro ho
        rw [htype] at ho
        exact ⟨(hok.opened ho).1, (hok.opened ho).2.trans (hmax ho).symm⟩
    · have hr := setService_of_ne s hb r
      exact ⟨hok.addr, hok.nodup, by rw [hr]; exact hok.players, by rw [hr]; exact hok.opened⟩
  · intro v q hq
    refine (h.request v q hq).mono hlink ?_ ?_ ?_
    · intro b hlt hc
      exact ⟨hlt, (htypes b).trans hc⟩
    · intro id b k hp _ hw
      by_cases hb : b = a
      · subst hb
        rw [setService_self]
        exact hwait v q id k hq hp hw
      · rwa [setService_of_ne s hb]
    · intro id b reply hp _ ho hr
      refine ⟨by rw [htypes b]; exact hr.1, ?_⟩
      by_cases hb : b = a
      · subst hb
        rw [setService_self]
        exact hreply v q id reply hq hp ho
      · rw [setService_of_ne s hb]
        exact hr.2

end Updates

/-! ### Choosing a seat -/

/-- The seat that is found free is one of the room's seats and nobody's. -/
lemma BaseRoom.findEmptySeat_spec {r : BaseRoom} (h : r.findEmptySeat ≠ 0) :
    r.findEmptySeat ≤ r.maxPlayer ∧ ∀ v, r.players.lookup v ≠ some r.findEmptySeat := by
  unfold findEmptySeat at h ⊢
  cases hfind : (List.range' 1 r.maxPlayer).find? fun seatId => seatId ∉ r.seatMap with
  | none =>
    rw [hfind] at h
    exact absurd rfl h
  | some k =>
    have hfree : k ∉ r.seatMap := by simpa using List.find?_some hfind
    have hmem := List.mem_range'_1.mp (List.mem_of_find?_eq_some hfind)
    refine ⟨by simp only [Option.getD_some]; omega, fun v hv => hfree ?_⟩
    exact List.mem_map.mpr ⟨⟨v, k⟩, (Tables.mem_entries_iff _ _ _).mpr hv, rfl⟩

/-- A seat that fits is free for the user who is going to take it. -/
lemma waitOk_of_findSeat {s : Lobby} {a u k : ℕ} (hf : (s.services a).Fair)
    (hseat : (s.services a).findSeat u = some k) (hfits : s.SeatFits a k)
    (hplayer : (s.services a).newGamePlayer k = true) : WaitOk (s.services a) u k := by
  set r := s.services a with hr
  have hzero : k = 0 → r.roomType = some .vip ∧ r.isVIPLock = true := by
    rintro rfl
    obtain hno | hvip := hfits
    · exact absurd hplayer (Bool.not_eq_true _ |>.mpr hno)
    · exact hvip
  have hle : k ≤ r.maxPlayer := by
    by_cases hk : k = 0
    · rw [hk]
      exact Nat.zero_le _
    · rw [SeatFits, if_neg hk] at hfits
      exact hfits.1
  unfold BaseRoom.findSeat at hseat
  split at hseat
  -- a free seat, in a common room or in a match
  · next htype =>
    obtain rfl := Option.some.inj hseat
    refine ⟨hzero, by simp [htype], hle, fun hk v hv => ?_, fun _ hvip => ?_⟩
    · exact absurd hv ((BaseRoom.findEmptySeat_spec hk).2 v)
    · rw [htype] at hvip
      cases hvip
  · next htype =>
    obtain rfl := Option.some.inj hseat
    refine ⟨hzero, by simp [htype], hle, fun hk v hv => ?_, fun _ hvip => ?_⟩
    · exact absurd hv ((BaseRoom.findEmptySeat_spec hk).2 v)
    · rw [htype] at hvip
      cases hvip
  -- the seat that is kept for the user
  · next htype =>
    have hkept : k ≠ 0 → r.kept u = some k := by
      intro hk
      cases hu : r.kept u with
      | none => simp [hu] at hseat; exact absurd hseat.symm hk
      | some k' => simpa [hu] using hseat
    exact ⟨hzero, by simp [htype], hle, fun hk v hv => hf.vacant htype v u k hv (hkept hk),
      fun hk _ => hkept hk⟩
  · cases hseat
  · cases hseat

/-- No request waits to take a seat that is not chosen. -/
lemma not_waiting_of_not_chosen {s : Lobby} {a k : ℕ} (h : s.chosen a k = false) {v id : ℕ}
    {q : Request} (hq : s.requests.lookup v = some q) : q.phase ≠ .waiting id a k := by
  intro hp
  have hany : s.chosen a k = true := by
    apply List.any_eq_true.mpr
    exact ⟨⟨v, q⟩, (Tables.mem_entries_iff _ _ _).mpr hq, by simp [hp]⟩
  rw [h] at hany
  cases hany

/-! ### The steps -/

section Steps

variable {s s' : Lobby} {u : ℕ} {q : Request}

lemma Inv.getRoomFromPool (h : s.Inv) {groupid : ℕ} {isRobot : Bool} {group : Group}
    {idle : Option ℕ}
    (hfree : ∀ id room, s.room_pool.lookup id = some room → u ∉ room.curplayers)
    (hs : s.getRoomFromPool u groupid isRobot group idle = some s') : s'.Inv := by
  unfold Lobby.getRoomFromPool at hs
  split at hs
  · next roomid =>
    obtain ⟨room, hroom, hs⟩ := Option.bind_eq_some_iff.mp hs
    split_ifs at hs with hidle
    obtain rfl := Option.some.inj hs
    have hok := h.room roomid room hroom
    -- only a service that has not been initialised is idle
    have hclosed : (s.services room.room).roomType = none := by
      by_contra ho
      exact (hok.opened ho).1 hidle
    have hnil := hok.curplayers_eq_nil (h.fair _) hclosed
    set room' : RoomInfo := { room with roomstatus := .wait, maxplayernum := group.maxplayer }
    have hok' : RoomOk s.services s.nextAddr room' :=
      ⟨hok.addr, hok.nodup, hok.players, fun ho => absurd hclosed ho⟩
    have hI : (s.setRoom roomid room').Inv :=
      h.setRoom hroom rfl hok' fun v hv => h.free v hv roomid room hroom
    refine hI.wait_elsewhere ⟨hok.addr, hclosed⟩ (fun _ _ _ => by simp) ?_
    intro id r hr
    obtain ⟨rfl, rfl⟩ | ⟨_, hr⟩ := (Tables.lookup_insert_eq_some _ _ _ _ _).mp hr
    · exact hfree id room hroom
    · exact hfree id r hr
  · split_ifs at hs with hany
    obtain rfl := Option.some.inj hs
    exact h.wait_elsewhere trivial (fun _ _ _ => by simp) hfree

lemma Inv.callRoom (h : s.Inv) (groupid : ℕ) (isRobot : Bool) (id : ℕ)
    (hfree : ∀ id room, s.room_pool.lookup id = some room → u ∉ room.curplayers) :
    (s.callRoom u groupid isRobot id).Inv := by
  unfold Lobby.callRoom
  split
  · exact h
  · next room hroom =>
    have hlink : s.Linked id room.room := ⟨(h.room id room hroom).addr, fun _ => ⟨room, hroom, rfl⟩⟩
    exact h.wait_elsewhere hlink (fun _ _ _ => by simp) hfree

/-- The manager's handler ends, calls a room, or takes one from the pool. -/
lemma enterRoom_cases {oldRoomId newRoomId : Option ℕ} {isRobot : Bool} {first idle : Option ℕ}
    (hs : s.enterRoom u oldRoomId newRoomId isRobot first idle = some s') :
    s' = s ∨ (∃ groupid id, s' = s.callRoom u groupid isRobot id) ∨
      ∃ groupid group, s.getRoomFromPool u groupid isRobot group idle = some s' := by
  unfold Lobby.enterRoom at hs
  split at hs
  · exact .inl (Option.some.inj hs).symm
  · split at hs
    · exact .inl (Option.some.inj hs).symm
    · split at hs
      · exact .inl (Option.some.inj hs).symm
      · dsimp only at hs
        split at hs
        · exact .inr (.inl ⟨_, _, (Option.some.inj hs).symm⟩)
        · split at hs
          · exact .inr (.inl ⟨_, _, (Option.some.inj hs).symm⟩)
          · split at hs
            · split_ifs at hs
              exact .inr (.inr ⟨_, _, hs⟩)
            · obtain ⟨x, _, hs⟩ := Option.bind_eq_some_iff.mp hs
              split_ifs at hs
              · exact .inr (.inl ⟨_, _, (Option.some.inj hs).symm⟩)
              · exact .inr (.inr ⟨_, _, hs⟩)

lemma Inv.enterRoom (h : s.Inv) {oldRoomId newRoomId : Option ℕ} {isRobot : Bool}
    {first idle : Option ℕ} (hfresh : s.Fresh (.enterRoom u oldRoomId newRoomId isRobot first idle))
    (hs : s.enterRoom u oldRoomId newRoomId isRobot first idle = some s') : s'.Inv := by
  have hfree : ∀ id room, s.room_pool.lookup id = some room → u ∉ room.curplayers := by
    intro id room hroom
    exact hfresh.2 ⟨id, room⟩ ((Tables.mem_entries_iff _ _ _).mpr hroom)
  obtain rfl | ⟨groupid, id, rfl⟩ | ⟨groupid, group, hs⟩ := enterRoom_cases hs
  · exact h
  · exact h.callRoom groupid isRobot id hfree
  · exact h.getRoomFromPool hfree hs

/-- The invariant does not depend on the number of the next room. -/
lemma Inv.nextRoomId (h : s.Inv) (n : ℕ) : Inv { s with nextRoomId := n } :=
  ⟨h.fair, h.room, h.request, h.apart, h.free⟩

lemma Inv.named (h : s.Inv) (hq : s.requests.lookup u = some q) {idle : Option ℕ}
    (hs : s.named u q idle = some s') : s'.Inv := by
  obtain ⟨group, _, hs⟩ := Option.bind_eq_some_iff.mp hs
  have hu : u ∈ s.requests := (Tables.mem_iff_lookup _ _).mpr ⟨q, hq⟩
  exact (h.nextRoomId (s.nextRoomId + 1)).getRoomFromPool (h.free u hu) hs

lemma Inv.created (h : s.Inv) (hq : s.requests.lookup u = some q) {roomid : ℕ}
    (hclosed : ∀ room, s.room_pool.lookup roomid = some room →
      (s.services room.room).roomType = none) : (s.created u q roomid).Inv := by
  set s₁ := s.created u q roomid with hs₁
  have hself : s₁.services s.nextAddr = { refusesNoSeat := s.refusesNoSeat } := by
    simp [hs₁, Lobby.created]
  have hold : ∀ a, a ≠ s.nextAddr → s₁.services a = s.services a := by
    intro a ha
    simp [hs₁, Lobby.created, ha]
  have hlink : ∀ id a, s.Linked id a → s₁.Linked id a := by
    intro id a hl
    refine ⟨Nat.lt_succ_of_lt hl.1, fun ho => ?_⟩
    rw [hold a hl.1.ne] at ho
    obtain ⟨room, hroom, hra⟩ := hl.2 ho
    have hid : id ≠ roomid := by
      rintro rfl
      exact ho (hra ▸ hclosed room hroom)
    exact ⟨room, (AList.lookup_insert_ne hid).trans hroom, hra⟩
  have hfair : ∀ a, (s₁.services a).Fair := by
    intro a
    by_cases ha : a = s.nextAddr
    · rw [ha, hself]
      exact ⟨fun _ => rfl, by simp, by simp, by simp, by simp⟩
    · rw [hold a ha]
      exact h.fair a
  refine ⟨hfair, ?_, ?_, ?_, ?_⟩
  · intro id room hroom
    obtain ⟨rfl, rfl⟩ | ⟨_, hroom⟩ := (Tables.lookup_insert_eq_some _ _ _ _ _).mp hroom
    · exact ⟨Nat.lt_succ_self _, List.nodup_nil, by simp, fun ho => absurd (by rw [hself]) ho⟩
    · have hok := h.room id room hroom
      have hr := hold _ hok.addr.ne
      exact ⟨Nat.lt_succ_of_lt hok.addr, hok.nodup, by rw [hr]; exact hok.players,
        by rw [hr]; exact hok.opened⟩
  · intro v q' hq'
    obtain ⟨rfl, rfl⟩ | ⟨_, hq'⟩ := (Tables.lookup_insert_eq_some _ _ _ _ _).mp hq'
    · trivial
    · refine (h.request v q' hq').mono hlink ?_ ?_ ?_
      · intro a hlt hc
        exact ⟨Nat.lt_succ_of_lt hlt, by rw [hold a hlt.ne]; exact hc⟩
      · intro id a k _ hl hw
        rwa [hold a hl.1.ne]
      · intro id a reply _ hl _ hr
        rwa [hold a hl.1.ne]
  · intro v w qv qw id id' a k hv hw hpv hpw hk
    obtain ⟨rfl, rfl⟩ | ⟨_, hv⟩ := (Tables.lookup_insert_eq_some _ _ _ _ _).mp hv
    · cases hpv
    · obtain ⟨rfl, rfl⟩ | ⟨_, hw⟩ := (Tables.lookup_insert_eq_some _ _ _ _ _).mp hw
      · cases hpw
      · exact h.apart v w qv qw id id' a k hv hw hpv hpw hk
  · intro v hv id room hroom
    have hv' : v ∈ s.requests := by
      obtain rfl | hv := (AList.mem_insert _).mp hv
      · exact (Tables.mem_iff_lookup _ _).mpr ⟨q, hq⟩
      · exact hv
    obtain ⟨rfl, rfl⟩ | ⟨_, hroom⟩ := (Tables.lookup_insert_eq_some _ _ _ _ _).mp hroom
    · exact List.not_mem_nil
    · exact h.free v hv' id room hroom

/-- A service that has not been initialised stays without players. -/
lemma Inv.inited (h : s.Inv) (hq : s.requests.lookup u = some q) {a : ℕ}
    (hp : q.phase = .initing a) (hs : s.inited u q a = some s') : s'.Inv := by
  obtain ⟨group, _, rfl⟩ := Option.map_eq_some_iff.mp hs
  have hclosed : (s.services a).roomType = none := by
    have hv := h.request u q hq
    rw [hp] at hv
    exact hv.2
  have hf := h.fair a
  have hempty := hf.closed hclosed
  set r := (s.services a).init group.maxplayer group.roomType group.mincoin group.maxcoin false
  have hr : r = { s.services a with maxPlayer := group.maxplayer } := rfl
  refine (h.setService (r := r) ?_ rfl ?_ ?_ ?_ ?_).done u
  · refine ⟨hf.closed, hf.injective, ?_, ?_, ?_⟩
    · intro v p hv
      rw [hr, hempty] at hv
      simp at hv
    · intro hvip
      rw [show r.roomType = none from hclosed] at hvip
      cases hvip
    · intro hvip
      rw [show r.roomType = none from hclosed] at hvip
      cases hvip
  · exact fun ho => absurd hclosed ho
  · intro id room hroom ha v hv
    have hmem := (h.room id room hroom).players v hv
    rwa [ha] at hmem
  · intro v q' id k _ _ hw
    exact absurd hclosed hw.opened
  · intro v q' id reply hq' hp' ho
    have hv := h.request v q' hq'
    rw [hp'] at hv
    exact (hv.2 ho).2

lemma Inv.handled (h : s.Inv) (hq : s.requests.lookup u = some q) {id a : ℕ}
    (hp : q.phase = .called id a)
    (hfits : ∀ k, (s.services a).findSeat u = some k → s.SeatFits a k) :
    (s.handled u q id a).Inv := by
  have hlink : s.Linked id a := by
    have hv := h.request u q hq
    rwa [hp] at hv
  have hfree := h.free u ((Tables.mem_iff_lookup _ _).mpr ⟨q, hq⟩)
  unfold Lobby.handled
  split
  · exact h.done u
  · next k hseat =>
    split_ifs with hplayer
    · refine h.wait ⟨hlink, waitOk_of_findSeat (h.fair a) hseat (hfits k hseat) hplayer⟩ ?_ hfree
      intro id' a' k' hw hk v q' id'' _ hv
      obtain ⟨rfl, rfl, rfl⟩ : id = id' ∧ a = a' ∧ k = k' := by simpa using hw
      have hseatFits := hfits k hseat
      rw [SeatFits, if_neg hk] at hseatFits
      exact not_waiting_of_not_chosen hseatFits.2 hv
    · exact h.wait_elsewhere ⟨hlink, fun ho => by cases ho⟩ (fun _ _ _ => by simp) hfree

/-- The player takes the seat that its request has waited for. -/
lemma Inv.letIn (h : s.Inv) (hq : s.requests.lookup u = some q) {id a k : ℕ}
    (hp : q.phase = .waiting id a k) (hw : WaitOk (s.services a) u k) :
    (s.setService a ((s.services a).letIn u k)).Inv := by
  set r := s.services a with hr
  have hf : r.Fair := h.fair a
  by_cases hwatch : r.roomType = some .vip ∧ k = 0
  · have hletIn : r.letIn u k = { r with watchers := r.watchers.insert u 1 } := if_pos hwatch
    rw [hletIn]
    refine h.setService ?_ rfl (fun _ => rfl) ?_ ?_ ?_
    · exact ⟨hf.closed, hf.injective, hf.range, hf.kept, hf.vacant⟩
    · intro id' room hroom ha v hv
      have hmem := (h.room id' room hroom).players v hv
      rwa [ha] at hmem
    · intro v q' id' k' _ _ hw'
      exact ⟨hw'.watches, hw'.opened, hw'.le, hw'.free, hw'.kept⟩
    · intro v q' id' reply hq' hp' ho
      have hv := h.request v q' hq'
      rw [hp'] at hv
      exact (hv.2 ho).2
  · have hletIn : r.letIn u k = { r with players := r.players.insert u k } := if_neg hwatch
    rw [hletIn]
    have hk : k ≠ 0 := fun hk => hwatch ⟨(hw.watches hk).1, hk⟩
    have hnew : ∀ v p, (r.players.insert u k).lookup v = some p →
        v = u ∧ p = k ∨ v ≠ u ∧ r.players.lookup v = some p ∧ p ≠ k := by
      intro v p hv
      obtain ⟨rfl, rfl⟩ | ⟨hvu, hv⟩ := (Tables.lookup_insert_eq_some _ _ _ _ _).mp hv
      · exact .inl ⟨rfl, rfl⟩
      · exact .inr ⟨hvu, hv, fun hpk => hvu (hw.free hk v (hpk ▸ hv))⟩
    refine h.setService ?_ rfl (fun _ => rfl) ?_ ?_ ?_
    · refine ⟨fun hc => absurd hc hw.opened, ?_, ?_, hf.kept, ?_⟩
      · intro v w p hv hw'
        obtain ⟨rfl, rfl⟩ | ⟨_, hv, hpk⟩ := hnew v p hv
        · obtain ⟨rfl, _⟩ | ⟨_, _, hpk⟩ := hnew w p hw'
          · rfl
          · exact absurd rfl hpk
        · obtain ⟨_, rfl⟩ | ⟨_, hw', _⟩ := hnew w p hw'
          · exact absurd rfl hpk
          · exact hf.injective v w p hv hw'
      · intro v p hv
        obtain ⟨_, rfl⟩ | ⟨_, hv, _⟩ := hnew v p hv
        · exact ⟨Nat.one_le_iff_ne_zero.mpr hk, hw.le⟩
        · exact hf.range v p hv
      · intro hvip v w p hv hkept
        obtain ⟨rfl, rfl⟩ | ⟨_, hv, _⟩ := hnew v p hv
        · exact hf.kept hvip v w p (hw.kept hk hvip) hkept
        · exact hf.vacant hvip v w p hv hkept
    · intro id' room hroom ha v hv
      have hmem := (h.room id' room hroom).players v hv
      rw [ha] at hmem
      exact (AList.mem_insert _).mpr (.inr hmem)
    -- another waiting request has another seat
    · intro v q' id' k' hq' hp' hw'
      refine ⟨hw'.watches, hw'.opened, hw'.le, ?_, hw'.kept⟩
      intro hk' w hl
      obtain ⟨rfl, rfl⟩ | ⟨_, hl, _⟩ := hnew w k' hl
      · exact h.apart w v q q' id id' a k' hq hq' hp hp' hk'
      · exact hw'.free hk' w hl
    · intro v q' id' reply hq' hp' ho
      have hv := h.request v q' hq'
      rw [hp'] at hv
      exact (AList.mem_insert _).mpr (.inr (hv.2 ho).2)

/-- The player whose coins do not fit is removed. -/
lemma Inv.deletePlayer (h : s.Inv) (hq : s.requests.lookup u = some q) {id a : ℕ} {stays : Bool}
    (hp : q.phase = .leaving id a stays) :
    (s.setService a ((s.services a).deletePlayer u)).Inv := by
  have hf := h.fair a
  have hold : ∀ v p, ((s.services a).deletePlayer u).players.lookup v = some p →
      (s.services a).players.lookup v = some p := by
    intro v p hv
    exact ((Tables.lookup_erase_eq_some _ _ _ _).mp hv).2
  refine h.setService ?_ rfl (fun _ => rfl) ?_ ?_ ?_
  · refine ⟨?_, ?_, fun v p hv => hf.range v p (hold v p hv), hf.kept, ?_⟩
    · intro hc
      have hempty : (s.services a).players.erase u = ∅ := by
        rw [hf.closed hc]
        rfl
      exact hempty
    · exact fun v w p hv hw => hf.injective v w p (hold v p hv) (hold w p hw)
    · exact fun hvip v w p hv hkept => hf.vacant hvip v w p (hold v p hv) hkept
  · intro id' room hroom ha v hv
    have hmem := (h.room id' room hroom).players v hv
    rw [ha] at hmem
    refine AList.mem_erase.mpr ⟨?_, hmem⟩
    rintro rfl
    exact h.free v ((Tables.mem_iff_lookup _ _).mpr ⟨q, hq⟩) id' room hroom hv
  · intro v q' id' k _ _ hw
    exact ⟨hw.watches, hw.opened, hw.le, fun hk w hl => hw.free hk w (hold w k hl), hw.kept⟩
  · intro v q' id' reply hq' hp' ho
    have hv := h.request v q' hq'
    rw [hp'] at hv
    refine AList.mem_erase.mpr ⟨?_, (hv.2 ho).2⟩
    rintro rfl
    obtain rfl : q = q' := Option.some.inj (hq.symm.trans hq')
    rw [hp] at hp'
    cases hp'

lemma Inv.resumed (h : s.Inv) (hq : s.requests.lookup u = some q) {id a k : ℕ}
    (hp : q.phase = .waiting id a k) (money : ℤ) : (s.resumed u q id a k money).Inv := by
  have hw : WaitOk (s.services a) u k := by
    have hv := h.request u q hq
    rw [hp] at hv
    exact hv.2
  have hI := h.letIn hq hp hw
  set s₁ := s.setService a ((s.services a).letIn u k) with hs₁
  have hlink : s₁.Linked id a := by
    have hv := hI.request u q hq
    rw [hp] at hv
    exact hv.1
  have hfree := h.free u ((Tables.mem_iff_lookup _ _).mpr ⟨q, hq⟩)
  have hself : s₁.services a = (s.services a).letIn u k := setService_self s a _
  unfold Lobby.resumed
  dsimp only
  rw [← hs₁]
  split_ifs with hmoney
  · refine hI.wait_elsewhere ⟨hlink, fun ho => ?_⟩ (fun _ _ _ => by simp) hfree
    -- a user without a seat is let in only where a room is not locked
    have hk : k ≠ 0 := by
      rintro rfl
      simp [BaseRoom.reply, (hw.watches rfl).2] at ho
    have hletIn : (s.services a).letIn u k =
        { s.services a with players := (s.services a).players.insert u k } :=
      if_neg fun hc => hk hc.2
    rw [hself, hletIn]
    exact ⟨hw.opened, (AList.mem_insert _).mpr (.inl rfl)⟩
  · exact hI.wait_elsewhere hlink (fun _ _ _ => by simp) hfree

lemma Inv.left (h : s.Inv) (hq : s.requests.lookup u = some q) {id a : ℕ} {stays : Bool}
    (hp : q.phase = .leaving id a stays) : (s.left u q id a stays).Inv := by
  have hfree := h.free u ((Tables.mem_iff_lookup _ _).mpr ⟨q, hq⟩)
  unfold Lobby.left
  dsimp only
  set s₁ := if stays = true then s else s.setService a ((s.services a).deletePlayer u) with hs₁
  have hI : s₁.Inv := by
    rw [hs₁]
    split_ifs
    · exact h
    · exact h.deletePlayer hq hp
  have hreq : s₁.requests = s.requests := by
    rw [hs₁]
    split_ifs <;> rfl
  have hpool : s₁.room_pool = s.room_pool := by
    rw [hs₁]
    split_ifs <;> rfl
  have hlink : s₁.Linked id a := by
    have hv := hI.request u q (by rw [hreq]; exact hq)
    rwa [hp] at hv
  exact hI.wait_elsewhere ⟨hlink, fun ho => by cases ho⟩ (fun _ _ _ => by simp)
    (by rw [hpool]; exact hfree)

/-- The manager lists a user who is among the players of the room. -/
lemma Inv.booked (h : s.Inv) (hq : s.requests.lookup u = some q) {id a : ℕ} {reply : Reply}
    (hp : q.phase = .replied id a reply) : (s.booked u id reply).Inv := by
  unfold Lobby.booked
  split_ifs with hok
  · obtain ⟨hlink, hreply⟩ : s.PhaseOk u (.replied id a reply) := hp ▸ h.request u q hq
    obtain ⟨hopen, hmem⟩ := hreply hok
    obtain ⟨room, hroom, rfl⟩ := hlink.2 hopen
    have hr := h.room id room hroom
    simp only [hroom]
    have hbook : RoomOk s.services s.nextAddr (room.book u reply.isPlayer) := by
      refine ⟨by simpa using hr.addr, by simpa using nodup_addUid hr.nodup u, ?_, ?_⟩
      · intro v hv
        rw [RoomInfo.book_curplayers] at hv
        rw [RoomInfo.book_room]
        obtain rfl | hv := mem_addUid.mp hv
        · exact hmem
        · exact hr.players v hv
      · simpa using hr.opened
    have hI : ((s.done u).setRoom id (room.book u reply.isPlayer)).Inv := by
      refine (h.done u).setRoom hroom (RoomInfo.book_room room u reply.isPlayer) hbook ?_
      intro v hv hcur
      obtain ⟨hvu, hv⟩ := AList.mem_erase.mp hv
      rw [RoomInfo.book_curplayers] at hcur
      obtain rfl | hcur := mem_addUid.mp hcur
      · exact hvu rfl
      · exact h.free v hv id room hroom hcur
    exact ⟨hI.fair, hI.room, hI.request, hI.apart, hI.free⟩
  · exact h.done u

/-- An orderly step keeps the invariant. -/
lemma Inv.step (h : s.Inv) {e : Event} (hfresh : s.Fresh e) (hok : s.Orderly e)
    (hs : s.step e = some s') : s'.Inv := by
  cases e with
  | enterRoom uid oldRoomId newRoomId isRobot first idle => exact h.enterRoom hfresh hs
  | created uid =>
    obtain ⟨q, hq, hs⟩ := Option.bind_eq_some_iff.mp hs
    have hok := hok q hq
    split at hs
    · next roomid hp =>
      obtain rfl := Option.some.inj hs
      rw [hp] at hok
      exact h.created hq hok
    · cases hs
  | named uid idle =>
    obtain ⟨q, hq, hs⟩ := Option.bind_eq_some_iff.mp hs
    split at hs
    · exact h.named hq hs
    · cases hs
  | inited uid =>
    obtain ⟨q, hq, hs⟩ := Option.bind_eq_some_iff.mp hs
    split at hs
    · next a hp => exact h.inited hq hp hs
    · cases hs
  | handled uid =>
    obtain ⟨q, hq, hs⟩ := Option.bind_eq_some_iff.mp hs
    have hok := hok q hq
    split at hs
    · next id a hp =>
      obtain rfl := Option.some.inj hs
      rw [hp] at hok
      exact h.handled hq hp hok
    · cases hs
  | resumed uid money =>
    obtain ⟨q, hq, hs⟩ := Option.bind_eq_some_iff.mp hs
    split at hs
    · next id a k hp => exact Option.some.inj hs ▸ h.resumed hq hp money
    · cases hs
  | resetRobot uid =>
    obtain ⟨q, hq, hs⟩ := Option.bind_eq_some_iff.mp hs
    split at hs
    · next id a hp =>
      split_ifs at hs
      exact Option.some.inj hs ▸ h.deletePlayer hq hp
    · cases hs
  | left uid =>
    obtain ⟨q, hq, hs⟩ := Option.bind_eq_some_iff.mp hs
    split at hs
    · next id a stays hp => exact Option.some.inj hs ▸ h.left hq hp
    · cases hs
  | booked uid =>
    obtain ⟨q, hq, hs⟩ := Option.bind_eq_some_iff.mp hs
    split at hs
    · next id a reply hp => exact Option.some.inj hs ▸ h.booked hq hp
    · cases hs

end Steps

/-! ### Runs -/

/-- **Orderly runs keep one player for each seat.** In every run of requests of different users in
which a request chooses a seat of the room that no other request is waiting to take, no two players
have the same position, and neither the players of a room nor the users listed in it exceed its
maximum.

**Proof sketch.** `Inv` says that a waiting request has its seat for itself: the seat is nobody's
when it is chosen, only waiting requests take seats, and they wait for different ones. A user is
listed after the room has accepted the user as a player (`Lobby.Inv.booked`), so that the users
listed are among the players, who have different seats of the room
(`Tables.length_le_of_injective`). -/
theorem onePerSeat_of_reaches {s₀ s : Lobby} (h₀ : s₀.Ready)
    (h : Runs.Reaches step (fun s e => s.Fresh e ∧ s.Orderly e) s₀ s) : s.OnePerSeat :=
  (h.invariant h₀.inv fun _ _ _ hI hok hs => hI.step hok.1 hok.2 hs).onePerSeat

/-- A common room with two seats and nobody in it, and three users who have entered the game. -/
def twoSeats : Lobby where
  group_list := AList.singleton 7 ⟨2, 0, 100, some .common, [1]⟩
  room_pool := AList.singleton 1 { room := 0, roomstatus := .wait, maxplayernum := 2 }
  player_list := ((AList.singleton 11 { groupid := 7 }).insert 12 { groupid := 7 }).insert 13
    { groupid := 7 }
  nextRoomId := 2
  services a := if a = 0 then ({} : BaseRoom).init 2 (some .common) 0 100 true else {}
  nextAddr := 1

lemma twoSeats_ready : twoSeats.Ready := by
  have hplayers : ∀ a, (twoSeats.services a).players = ∅ := by
    intro a
    by_cases ha : a = 0 <;> simp [twoSeats, ha, BaseRoom.init]
  have hvip : ∀ a, (twoSeats.services a).roomType ≠ some .vip := by
    intro a
    by_cases ha : a = 0 <;> simp [twoSeats, ha, BaseRoom.init]
  refine ⟨rfl, fun a => ⟨fun _ => hplayers a, ?_, ?_, ?_, ?_⟩, ?_⟩
  · simp [hplayers a]
  · simp [hplayers a]
  · exact fun h => absurd h (hvip a)
  · exact fun h => absurd h (hvip a)
  · intro id room hroom
    obtain ⟨rfl, rfl⟩ | ⟨_, hroom⟩ := (Tables.lookup_insert_eq_some ∅ _ _ _ _).mp hroom
    · exact ⟨Nat.one_pos, List.nodup_nil, by simp, fun _ => ⟨by simp, rfl⟩⟩
    · simp at hroom

/-- The user asks for a room of the group, whose first room has the number 1. -/
def asks (uid : ℕ) : Event := .enterRoom uid none none false (some 1) none

/-- Two users who enter one after the other have a seat each. -/
theorem onePerSeat_one_after_another : ∃ s,
    Runs.Reaches step (fun s e => s.Fresh e ∧ s.Orderly e) twoSeats s ∧
      ((s.services 0).players.lookup 11 = some 1 ∧ (s.services 0).players.lookup 12 = some 2) ∧
      s.OnePerSeat := by
  have hrun : ((Runs.exec step (fun s e => s.Fresh e ∧ s.Orderly e) twoSeats
      [asks 11, .handled 11, .resumed 11 50, .booked 11,
        asks 12, .handled 12, .resumed 12 50, .booked 12]).any fun s =>
      (s.services 0).players.lookup 11 = some 1 ∧
        (s.services 0).players.lookup 12 = some 2) = true := by
    decide +kernel
  obtain ⟨s, hs, hprop⟩ := (Option.any_eq_true _ _).mp hrun
  have hreach := Runs.reaches_of_exec _ .init hs
  exact ⟨s, hreach, by simpa using hprop, onePerSeat_of_reaches twoSeats_ready hreach⟩

/-- Three users ask for the room with two seats while nobody is in it. The room chooses the first
seat for each of them before it adds the first, and then adds and accepts all three. -/
theorem three_on_one_seat : twoSeats.Ready ∧ ∃ s, Runs.Reaches step Fresh twoSeats s ∧
    ((s.services 0).players.lookup 11 = some 1 ∧ (s.services 0).players.lookup 12 = some 1) ∧
    ((s.services 0).maxPlayer = 2 ∧ (s.services 0).players.keys.length = 3) ∧
    (∃ room, s.room_pool.lookup 1 = some room ∧ room.maxplayernum = 2 ∧
      room.curplayers = [11, 12, 13]) ∧ ¬ s.OnePerSeat := by
  have hrun : ((Runs.exec step Fresh twoSeats
      [asks 11, asks 12, asks 13, .handled 11, .handled 12, .handled 13,
        .resumed 11 50, .resumed 12 50, .resumed 13 50, .booked 11, .booked 12, .booked 13]).any
      fun s => ((s.services 0).players.lookup 11 = some 1 ∧
        (s.services 0).players.lookup 12 = some 1) ∧
        ((s.services 0).maxPlayer = 2 ∧ (s.services 0).players.keys.length = 3) ∧
        (s.room_pool.lookup 1).any fun room => room.maxplayernum = 2 ∧
          room.curplayers = [11, 12, 13]) = true := by
    decide +kernel
  obtain ⟨s, hs, hprop⟩ := (Option.any_eq_true _ _).mp hrun
  obtain ⟨hpos, hseated, hcur⟩ := of_decide_eq_true hprop
  obtain ⟨room, hroom, hlist⟩ := (Option.any_eq_true _ _).mp hcur
  refine ⟨twoSeats_ready, s, Runs.reaches_of_exec _ .init hs, hpos, hseated, ?_, fun hone => ?_⟩
  · exact ⟨room, hroom, of_decide_eq_true hlist⟩
  · have heq : 11 = 12 := hone.distinct 0 11 12 1 hpos.1 hpos.2
    omega

end Lobby
