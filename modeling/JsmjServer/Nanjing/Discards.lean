import JsmjServer.Nanjing.Conservation
import JsmjServer.Nanjing.Ledger
import JsmjServer.Nanjing.Settlement
import JsmjServer.Nanjing.Winners

set_option relaxedAutoImplicit false
set_option autoImplicit false

/-!
# Discards in a nanjing room

An accepted discard is put on the river, fined when it is due, and shown to the other seats; then a
claim is awaited, the next seat is dealt a tile, or the round ends. The module shows that in every
state of every run exactly two errors get in the way: a fine in an open-head room with a score
limit, and a seat that is asked whether it wins on a flower.

## Main definitions

* `Nanjing.Live` — some seat may act, a flower is about to be exchanged, or the round has ended.
* `Nanjing.Room.Accepts`, `Nanjing.Room.Completed` — an accepted discard, and what it has to lead
  to.
* `Nanjing.Room.FineStops`, `Nanjing.Room.FlowerStops` — the two errors.

## Main results

* `Nanjing.Room.legal_of_reaches` — in every run, the tiles still to come are valid.
* `Nanjing.Room.completed_iff` — a discard completes the turn unless one of the errors occurs.
* `Nanjing.Room.follow_stops_in_limited` — four equal tiles in turn in a room with the limit 200.
-/

namespace Nanjing

open Mahjong

/-! ### The tiles still to come -/

section Legal

variable (gameProgress : GameProgress) {s s' : Table} {t p : Seat} {b : ℕ}

lemma autoHu_legal (h : Legal s) (pos : Option Seat) : Legal (autoHu s pos b) := by
  cases pos with
  | none => exact h
  | some p => exact h

lemma checkMyOper_legal (h : Legal s) (checkOp : Bool) :
    Legal (checkMyOper gameProgress s t checkOp) := by
  unfold checkMyOper
  dsimp only
  split_ifs <;> exact h

lemma giveNewCard_legal (h : Legal s) : Legal (giveNewCard gameProgress s t) := by
  unfold giveNewCard
  split_ifs
  · exact h
  cases htake : takeCard s t with
  | none => exact h
  | some x =>
    obtain ⟨c, s₁⟩ := x
    have hlegal := (takeCard_legal h htake).2
    dsimp only
    split_ifs
    · exact hlegal
    · refine checkMyOper_legal gameProgress ?_ true
      exact hlegal

lemma doPeng_legal (h : Legal s) : Legal (doPeng gameProgress s p b t).2 := by
  unfold doPeng
  dsimp only
  split_ifs
  · refine checkMyOper_legal gameProgress ?_ false
    exact h
  · exact h

/-- Whether it stops or not, `checkOtherOper` draws no tile. -/
lemma checkOtherOper_legal (h : Legal s) (bGrabGang : Bool) :
    (∀ s', checkOtherOper gameProgress s t b bGrabGang = .error s' → Legal s') ∧
      ∀ c, checkOtherOper gameProgress s t b bGrabGang = .ok c → Legal c.2.2 := by
  obtain ⟨l, r, -, hoff, hcases⟩ := Hands.checkOtherOper_cases gameProgress s t b bGrabGang
  have hr : Legal r.2 := by
    rw [hoff.frame]
    exact h
  obtain heq | heq := hcases
  · rw [heq]
    refine ⟨fun s' hs' => ?_, fun c hc => absurd hc (by simp)⟩
    obtain rfl := Except.error.inj hs'
    exact hr
  · rw [heq]
    refine ⟨fun s' hs' => absurd hs' (by simp), fun c hc => ?_⟩
    obtain rfl := Except.ok.inj hc
    exact hr

lemma discard_legal (h : Legal s) (player : MJPlayer) : Legal (discard s p b player) := by
  obtain ⟨map, heq⟩ := Hands.discard_frame s p b player
  rw [heq]
  exact h

lemma clearCanDoMap_legal (h : Legal s) (pos : Seat) : Legal (clearCanDoMap s pos) := by
  unfold clearCanDoMap
  split_ifs <;> exact h

end Legal

namespace Room

section Handlers

variable (rule : RoomRule) (ask : Seat → Option ℕ → CountHuType) {s s' : Room} {p t : Seat}
  {b : ℕ}

lemma buHua_legal (h : Legal s.table) (turn : Seat) : Legal (buHua rule ask s turn).table := by
  unfold buHua
  dsimp only
  split_ifs
  · refine giveNewCard_legal _ ?_
    split <;> exact h
  · exact h

lemma doGang_legal (h : Legal s.table) : Legal (doGang rule ask s p b t).2.table := by
  unfold doGang
  dsimp only
  split_ifs
  · exact giveNewCard_legal _ h
  · exact h

lemma doAnGang_legal (h : Legal s.table) : Legal (doAnGang rule ask s p b t).table := by
  unfold doAnGang
  dsimp only
  split_ifs
  · exact giveNewCard_legal _ h
  · exact h

lemma doMXGang_legal (h : Legal s.table) : Legal (doMXGang rule ask s p b).state.table := by
  unfold doMXGang
  dsimp only
  split_ifs
  · split
    · exact h
    · have hother := checkOtherOper_legal (gameProgress rule ask
        { s with table := s.table.setPlayer p ((s.table.playerList p).doMXGang b).2 })
        (s := s.table.setPlayer p ((s.table.playerList p).doMXGang b).2) (t := p) (b := b) h true
      split
      · rename_i table heq
        exact hother.1 table heq
      · rename_i c heq
        have hc := hother.2 c heq
        split_ifs
        · refine autoHu_legal ?_ c.2.1
          exact hc
        · exact giveNewCard_legal _ hc
  · exact h

/-- Fines touch only the accounts. -/
lemma faFen_table (s : Room) (loser : Seat) : (faFen rule s loser).state.table = s.table := by
  unfold faFen
  dsimp only
  split <;> rfl

lemma faFens_table (s : Room) (pos : Seat) : (faFens rule s pos b).state.table = s.table := by
  unfold faFens
  have hfirst : (if (s.table.riverCardList pos).count b = 4 then faFen rule s pos
      else .ok s : Handled).state.table = s.table := by
    split_ifs
    · exact faFen_table rule s pos
    · rfl
  cases hr : (if (s.table.riverCardList pos).count b = 4 then faFen rule s pos
      else .ok s : Handled) with
  | error s₁ =>
    rw [hr] at hfirst
    exact hfirst
  | ok s₁ =>
    rw [hr] at hfirst
    have hs₁ : s₁.table = s.table := hfirst
    show (if isGeng4 s₁.table pos b then faFen rule s₁ (nextPlayerPos pos)
      else .ok s₁ : Handled).state.table = s.table
    split_ifs
    · exact (faFen_table rule s₁ _).trans hs₁
    · exact hs₁

lemma onPlayCard_legal (h : Legal s.table) (pos : Seat) (card : Option ℕ) :
    Legal (onPlayCard rule ask s pos card).state.table := by
  cases card with
  | none => exact h
  | some b =>
    unfold onPlayCard
    dsimp only
    split_ifs
    · exact h
    · exact h
    set s₀ : Room := { s with
      table := discard s.table pos b ((s.table.playerList pos).doPlayCard b).2 } with hs₀
    have hlegal : Legal (faFens rule s₀ pos b).state.table := by
      rw [faFens_table]
      exact discard_legal h _
    cases hr : faFens rule s₀ pos b with
    | error s₁ =>
      rw [hr] at hlegal
      exact hlegal
    | ok s₁ =>
      rw [hr] at hlegal
      have hother := checkOtherOper_legal (gameProgress rule ask s₁) (s := s₁.table) (t := pos)
        (b := b) hlegal false
      simp only [Except.bind]
      split
      · rename_i table heq
        exact hother.1 table heq
      · rename_i c heq
        have hc := hother.2 c heq
        split_ifs
        · exact giveNewCard_legal _ hc
        · exact autoHu_legal hc c.2.1

lemma cancelEnd_legal (h : Legal s.table) : Legal (cancelEnd rule ask s p t).state.table := by
  unfold cancelEnd
  split_ifs
  · split
    · exact giveNewCard_legal _ h
    · exact h
  · split
    · exact h
    · split_ifs
      · exact h
      · exact giveNewCard_legal _ h

lemma grabEnd_legal (h : Legal s.table) : Legal (grabEnd rule ask s).state.table := by
  unfold grabEnd
  split
  · exact h
  split
  · exact giveNewCard_legal _ h
  rename_i grabedPos _ _ node _
  dsimp only
  split
  · exact cancelEnd_legal rule ask h
  · exact h
  · exact h
  · split_ifs
    · exact doPeng_legal _ h
    · exact giveNewCard_legal _ (doPeng_legal _ h)
  · exact doAnGang_legal rule ask h
  · split_ifs
    · exact doGang_legal rule ask h
    · exact giveNewCard_legal _ (doGang_legal rule ask h)
  · exact doMXGang_legal rule ask h
  · exact onPlayCard_legal rule ask h _ _
  · exact h

lemma decideOrWait_legal (h : Legal s.table) : Legal (decideOrWait rule ask s).state.table := by
  unfold decideOrWait
  split
  · exact h
  · exact grabEnd_legal rule ask h
  · exact h

lemma onGrabCard_legal (h : Legal s.table) (pos : Seat) (oper : Oper) (card : Option ℕ) :
    Legal (onGrabCard rule ask s pos oper card).state.table := by
  unfold onGrabCard
  split
  · exact h
  split
  · exact h
  split
  · exact h
  split
  · refine decideOrWait_legal rule ask ?_
    dsimp only
    have hclear : Legal (clearCanDoMap { s.table with
        playerGrabMgr := (s.table.playerGrabMgr.playerDoGrab pos oper (some 1)).2 } pos) := by
      refine clearCanDoMap_legal ?_ pos
      exact h
    split_ifs <;> exact hclear
  · split
    · exact h
    · split_ifs
      · refine decideOrWait_legal rule ask (clearCanDoMap_legal ?_ pos)
        exact h
      · exact h

lemma onClientMsg_legal (h : Legal s.table) (pos : Seat) (pkg : ClientMsg) :
    Legal (onClientMsg rule ask s pos pkg).state.table := by
  unfold onClientMsg
  dsimp only
  split
  · exact onPlayCard_legal rule ask h pos _
  · exact h
  · refine ⟨h.1, fun q c hc => ?_⟩
    change Function.update s.table.testPlayerNeedCard pos _ q = some c at hc
    by_cases hq : q = pos
    · rw [hq, Function.update_self] at hc
      exact isValid_fromOld2NowCardByteMap hc
    · rw [Function.update_of_ne hq] at hc
      exact h.2 q c hc
  · exact onGrabCard_legal rule ask h pos _ _
  · exact h

/-- The tiles of a new round are those of the wall that have not been dealt. -/
lemma onEntry_legal (gameProgress : GameProgress) (d : Deal) : Legal (onEntry gameProgress d) := by
  unfold onEntry
  refine checkMyOper_legal gameProgress ⟨fun c hc => ?_, fun q c hc => ?_⟩ true
  · exact wallTiles_valid c (d.perm.subset ((dealHandCardsNew_drawn d.wall d.banker).2 hc))
  · obtain ⟨b, hb⟩ := d.asked q c hc
    exact isValid_fromOld2NowCardByteMap hb

lemma gameEnd_legal (h : Legal s.table) (asked : Asked) (args : EndArgs) :
    Legal (gameEnd rule asked s args).table := by
  have hloop : ∀ s : Room, Legal s.table → Legal (loopTo rule s).table := by
    intro s hs
    unfold loopTo
    split_ifs <;> exact hs
  unfold gameEnd
  dsimp only
  split
  · exact hloop _ h
  split
  · exact h
  split
  · exact h
  · exact hloop _ h

lemma handle_legal (h : Legal s.table) {asked : Asked} {e : RoomEvent}
    (hs : handle rule asked s e = some s') : Legal s'.table := by
  cases e with
  | gameStart d =>
    simp only [handle] at hs
    split_ifs at hs
    · obtain rfl := Option.some.inj hs
      exact h
    · obtain rfl := Option.some.inj hs
      exact onEntry_legal _ d
  | play e =>
    cases e with
    | clientMsg pos pkg =>
      simp only [handle] at hs
      split_ifs at hs
      obtain rfl := Option.some.inj hs
      exact onClientMsg_legal rule asked.countHuType h pos pkg
    | buHua turn =>
      simp only [handle] at hs
      split_ifs at hs
      obtain rfl := Option.some.inj hs
      refine buHua_legal rule asked.countHuType ?_ turn
      exact h
  | disband =>
    obtain rfl := Option.some.inj hs
    exact h

/-- In every state of every run the tiles still to come are valid. -/
lemma legal_of_reaches {ok : Room → Asked × RoomEvent → Prop}
    (h : Runs.Reaches (step rule) ok (opened rule) s) : Legal s.table := by
  refine h.invariant (I := fun s => Legal s.table) ⟨fun c hc => absurd hc (by simp [opened, newTable]),
    fun q c hc => absurd hc (by simp [opened, newTable])⟩ ?_
  intro s e s' hlegal _ hstep
  obtain ⟨s₁, hs₁, rfl⟩ := Option.map_eq_some_iff.mp hstep
  have hs₁' := handle_legal rule hlegal hs₁
  unfold settle
  split
  · exact hs₁'
  · exact gameEnd_legal rule hs₁' e.1 _

end Handlers

end Room

/-! ### Who may act -/

/-- Some seat is offered an operation, a flower is about to be exchanged, or the round has ended. -/
def Live (s : Table) : Prop :=
  (∃ p o, s.playerGrabMgr.hasOper p o = true) ∨ s.timers ≠ [] ∨ s.endArgs.isSome

section Live

variable (gameProgress : GameProgress) {s : Table} {t p : Seat} {b : ℕ}

lemma autoHu_live (h : Live s) (pos : Option Seat) : Live (autoHu s pos b) := by
  cases pos with
  | none => exact h
  | some p => exact .inr (.inr rfl)

/-- A seat with a new tile may play it, or has won with it. -/
lemma checkMyOper_live (hnew : (s.playerList t).hasNewCard = true) (checkOp : Bool) :
    Live (checkMyOper gameProgress s t checkOp) := by
  have hnew' : ((clearAllCanDoMap s).playerList t).hasNewCard ≠ false := by
    show (s.playerList t).hasNewCard ≠ false
    simp [hnew]
  unfold checkMyOper
  dsimp only
  rw [if_neg hnew']
  split_ifs
  · exact .inr (.inr rfl)
  · refine .inl ⟨t, .play, PlayerGrabMgr.hasOper_iff.mpr ?_⟩
    show .play ∈ (PlayerGrabMgr.addCanDoItem _ t _).canGrabMgr.opers t
    rw [PlayerGrabMgr.addCanDoItem, CanGrabMgr.opers_addItem, if_pos rfl,
      PlayerGrabMgr.Round.mem_sortOpers]
    simp [myOffers]

/-- The seat that is dealt a tile may act, unless there is none left. -/
lemma giveNewCard_live (h : Legal s) : Live (giveNewCard gameProgress s t) := by
  unfold giveNewCard
  split_ifs
  · exact .inr (.inr rfl)
  cases htake : takeCard s t with
  | none => exact .inr (.inr rfl)
  | some x =>
    obtain ⟨c, s₁⟩ := x
    obtain ⟨hvalid, -⟩ := takeCard_legal h htake
    dsimp only
    split_ifs
    · exact .inr (.inl (by simp [Table.setPlayer]))
    · refine checkMyOper_live gameProgress ?_ true
      have hadd : (s₁.playerList t).addNewCard c =
          { s₁.playerList t with justDoOper := .newCard, newCard := c } := if_pos hvalid
      simp only [Table.setPlayer, Function.update_self, hadd]
      simpa [MJPlayer.hasNewCard] using MJPlayer.ne_kCardNull_of_isValid hvalid

/-- The other seats are asked without an error when none of them is asked about a flower. -/
lemma checkOtherOper_ok_iff (s : Table) (t : Seat) (b : ℕ) (bGrabGang : Bool) :
    (∃ c, checkOtherOper gameProgress s t b bGrabGang = .ok c) ↔
      ∀ q, q ≠ t → canHuStops gameProgress s t b q = false := by
  have hcheck : checkOtherOper gameProgress s t b bGrabGang =
      ((Hands.cleared s t).offerUntil t (canHuStops gameProgress s t b)
        fun pos => claims gameProgress (Hands.cleared s t) t pos b bGrabGang).map
        fun r => (r.1, autoHuPos gameProgress (Hands.cleared s t) t b, r.2) := rfl
  have hany : [t + 1, t + 2, t + 3].any (canHuStops gameProgress s t b) = false ↔
      ∀ q, q ≠ t → canHuStops gameProgress s t b q = false := by
    rw [List.any_eq_false]
    refine forall_congr' fun q => ?_
    rw [Table.mem_otherSeats, Bool.not_eq_true]
  rw [hcheck, Table.offerUntil, ← hany]
  cases [t + 1, t + 2, t + 3].any (canHuStops gameProgress s t b) with
  | true => simp [Except.map]
  | false => simp [Except.map]

/-- When somebody may claim the tile, a seat is offered an operation. -/
lemma checkOtherOper_live {bGrabGang : Bool} {c : Bool × Option Seat × Table}
    (hc : checkOtherOper gameProgress s t b bGrabGang = .ok c) (hgrab : c.1 = true) :
    Live c.2.2 := by
  obtain ⟨l, r, -, hoff, heq | heq⟩ := Hands.checkOtherOper_cases gameProgress s t b bGrabGang
  · rw [heq] at hc
    exact absurd hc (by simp)
  rw [heq] at hc
  obtain rfl := Except.ok.inj hc
  change r.1 = true at hgrab
  rw [hoff.grab, Bool.false_or, List.any_eq_true] at hgrab
  obtain ⟨q, hq, hclaims⟩ := hgrab
  have hne : claims gameProgress (Hands.cleared s t) t q b bGrabGang ≠ [] := by
    simpa using hclaims
  obtain ⟨⟨o, cards⟩, hmem⟩ := List.exists_mem_of_ne_nil _ hne
  refine .inl ⟨q, o, PlayerGrabMgr.hasOper_iff.mpr ?_⟩
  show o ∈ r.2.playerGrabMgr.canGrabMgr.opers q
  rw [hoff.opers, if_pos ⟨hq, hne⟩, PlayerGrabMgr.Round.mem_sortOpers, List.mem_map]
  exact ⟨(o, cards), List.mem_append_left _ hmem, rfl⟩

end Live

/-! ### Fines -/

/-- Fines are stopped by an error: in an open-head room with a limit the source looks for the player
of a seat it has not named, as soon as somebody is to pay. -/
def RoomRule.FinesStop (rule : RoomRule) : Prop :=
  rule.isJYZ = false ∧ 0 < rule.limitScore ∧ rule.unitCoin ≠ 0

lemma broadcastOutCardMoney_eq_none {rule : RoomRule} {a : Accounts} {isBiXiaHu : Bool}
    {loser : Seat} :
    broadcastOutCardMoney rule a isBiXiaHu loser = none ↔ rule.FinesStop := by
  have hsucc : ∀ p : Seat, p + 1 ≠ p := by decide
  have hpays : (∃ k, fine rule isBiXiaHu loser k < 0) ↔ rule.unitCoin ≠ 0 := by
    have hloser : fine rule isBiXiaHu loser loser = -3 * fee rule isBiXiaHu := if_pos rfl
    have hother : fine rule isBiXiaHu loser (loser + 1) = fee rule isBiXiaHu :=
      if_neg (hsucc loser)
    have hfee : fee rule isBiXiaHu < 0 ↔ rule.unitCoin < 0 := by
      unfold fee
      dsimp only
      split_ifs <;> omega
    have hfee' : 0 < fee rule isBiXiaHu ↔ 0 < rule.unitCoin := by
      unfold fee
      dsimp only
      split_ifs <;> omega
    constructor
    · rintro ⟨k, hk⟩ hzero
      have hnone : fee rule isBiXiaHu = 0 := by omega
      unfold fine at hk
      rw [hnone] at hk
      split_ifs at hk <;> omega
    · intro hne
      by_cases hneg : rule.unitCoin < 0
      · exact ⟨loser + 1, by rw [hother]; exact hfee.mpr hneg⟩
      · refine ⟨loser, ?_⟩
        have hpos := hfee'.mpr (by omega)
        omega
  unfold broadcastOutCardMoney RoomRule.FinesStop
  dsimp only
  by_cases hjyz : rule.isJYZ = true
  · rw [if_pos hjyz]
    split_ifs <;> simp [hjyz]
  · rw [if_neg hjyz, ← hpays]
    have hany : (seats.any fun k => fine rule isBiXiaHu loser k < 0 ∧ 0 < rule.limitScore) = true ↔
        (∃ k, fine rule isBiXiaHu loser k < 0) ∧ 0 < rule.limitScore := by
      simp [seats]
    split_ifs with hstop
    · simpa [hjyz, and_comm] using hany.mp hstop
    · have hnot := fun h => hstop (hany.mpr h)
      simp only [false_iff]
      rintro ⟨-, hlimit, hk⟩
      exact hnot ⟨hk, hlimit⟩

/-- The fine for `loser` when it is due: for all four seats, or for none. -/
def FineApplied (rule : RoomRule) (isBiXiaHu due : Bool) (loser : Seat) (a a' : Accounts) : Prop :=
  a' = a ∨ due = true ∧
    a' = (a.addRoundScore rule (fine rule isBiXiaHu loser)).addRoundFaScore
      (fine rule isBiXiaHu loser)

namespace Room

variable (rule : RoomRule) (ask : Seat → Option ℕ → CountHuType) {s : Room} {pos : Seat} {b : ℕ}

/-- The discard is the fourth of its kind in the river of its seat. -/
def fourSame (s : Room) (pos : Seat) (b : ℕ) : Bool :=
  (MJRiver.pushCard (s.table.riverCardList pos) b).count b == 4

/-- The seat may play, and has the tile. -/
def Accepts (s : Room) (pos : Seat) (b : ℕ) : Prop :=
  s.table.playerGrabMgr.hasOper pos .play = true ∧ ((s.table.playerList pos).doPlayCard b).1 = true

/-- The discard of the tile `b` has led from `s` to `s'`: somebody may act, or the round is over,
and every fine that is due has been applied to all seats or to none. -/
structure Completed (s s' : Room) (pos : Seat) (b : ℕ) : Prop where
  live : Live s'.table
  fines : ∃ a, FineApplied rule s.isBiXiaHu (s.fourSame pos b) pos s.accounts a ∧
    FineApplied rule s.isBiXiaHu (isGeng4 s.table pos b) (nextPlayerPos pos) a s'.accounts

/-- A fine is due in an open-head room with a score limit. -/
def FineStops (s : Room) (pos : Seat) (b : ℕ) : Prop :=
  rule.FinesStop ∧ (s.fourSame pos b = true ∨ isGeng4 s.table pos b = true)

/-- The accounts after the fines that are due and not stopped. -/
def finedAccounts (s : Room) (pos : Seat) (b : ℕ) : Accounts :=
  let a := if s.fourSame pos b then
      (broadcastOutCardMoney rule s.accounts s.isBiXiaHu pos).getD s.accounts
    else s.accounts
  if isGeng4 s.table pos b then
    (broadcastOutCardMoney rule a s.isBiXiaHu (nextPlayerPos pos)).getD a
  else a

/-- Another seat is asked whether it wins on a flower beyond `Zi7`: it has no new tile and has not
passed on this one, and in a jin-yuan-zi room the discarder has something left. -/
def FlowerStops (s : Room) (pos : Seat) (b : ℕ) : Prop :=
  Zi7 < b ∧ (rule.isJYZ = true → 0 < (finedAccounts rule s pos b).leftMoney pos) ∧
    ∃ q, q ≠ pos ∧ (s.table.playerList q).hasNewCard = false ∧
      s.table.mjCancelMgr.isCancelOper q .hu b = false

/-- A fine when it is due: it stops, or it is applied. -/
lemma faFen_cases (s : Room) (due : Bool) (loser : Seat) :
    ((rule.FinesStop ∧ due = true) ∧
      ∃ s₁, (if due = true then faFen rule s loser else .ok s : Handled) = .error s₁) ∨
    (¬ (rule.FinesStop ∧ due = true) ∧ ∃ a,
      a = (if due = true then (broadcastOutCardMoney rule s.accounts s.isBiXiaHu loser).getD s.accounts
        else s.accounts) ∧
      FineApplied rule s.isBiXiaHu due loser s.accounts a ∧
      (if due = true then faFen rule s loser else .ok s : Handled) =
        .ok { s with accounts := a, hasFaFen := s.hasFaFen || due }) := by
  cases due with
  | false => exact .inr ⟨by simp, s.accounts, rfl, .inl rfl, by simp⟩
  | true =>
    simp only [if_true, and_true, Bool.or_true]
    unfold faFen
    cases hfine : broadcastOutCardMoney rule s.accounts s.isBiXiaHu loser with
    | none => exact .inl ⟨broadcastOutCardMoney_eq_none.mp hfine, _, by dsimp only; rw [hfine]⟩
    | some a =>
      refine .inr ⟨fun hstop => ?_, a, rfl, ?_, by dsimp only; rw [hfine]⟩
      · rw [broadcastOutCardMoney_eq_none.mpr hstop] at hfine
        exact absurd hfine (by simp)
      · obtain heq | ⟨heq, -⟩ := broadcastOutCardMoney_cases hfine
        · exact .inl heq
        · exact .inr ⟨rfl, heq⟩

lemma discard_river (table : Table) (pos : Seat) (b : ℕ) (player : MJPlayer) :
    (discard table pos b player).riverCardList = Function.update table.riverCardList pos
      (MJRiver.pushCard (table.riverCardList pos) b) := by
  obtain ⟨map, hdiscard⟩ := Hands.discard_frame table pos b player
  rw [hdiscard]

lemma isGeng4_iff (table : Table) (pos : Seat) (b : ℕ) : isGeng4 table pos b = true ↔
    ∀ q, q ≠ pos → (table.riverCardList q).getLast? = some b := by
  have hseats : ∀ p q : Seat, q ≠ p ↔ q = p - 1 ∨ q = p - 2 ∨ q = p - 3 := by decide
  simp only [isGeng4, List.all_cons, List.all_nil, Bool.and_true, Bool.and_eq_true, beq_iff_eq,
    hseats pos, forall_eq_or_imp, forall_eq]

/-- The tile itself does not matter for the fine of four seats. -/
lemma isGeng4_discard (table : Table) (pos : Seat) (b : ℕ) (player : MJPlayer) :
    isGeng4 (discard table pos b player) pos b = isGeng4 table pos b := by
  rw [Bool.eq_iff_iff, isGeng4_iff, isGeng4_iff, discard_river]
  refine forall₂_congr fun q hq => ?_
  rw [Function.update_of_ne hq]

/-- The fines stop, or are applied in order. -/
lemma faFens_discard (s : Room) (pos : Seat) (b : ℕ) (player : MJPlayer) :
    (FineStops rule s pos b ∧
      ∃ s₁, faFens rule { s with table := discard s.table pos b player } pos b = .error s₁) ∨
    (¬ FineStops rule s pos b ∧
      faFens rule { s with table := discard s.table pos b player } pos b =
        .ok { s with
          table := discard s.table pos b player
          accounts := finedAccounts rule s pos b
          hasFaFen := s.hasFaFen || s.fourSame pos b || isGeng4 s.table pos b } ∧
      ∃ a, FineApplied rule s.isBiXiaHu (s.fourSame pos b) pos s.accounts a ∧
        FineApplied rule s.isBiXiaHu (isGeng4 s.table pos b) (nextPlayerPos pos) a
          (finedAccounts rule s pos b)) := by
  have hcount : ((discard s.table pos b player).riverCardList pos).count b = 4 ↔
      s.fourSame pos b = true := by
    rw [discard_river, Function.update_self, fourSame, beq_iff_eq]
  have hgeng := isGeng4_discard s.table pos b player
  unfold faFens
  simp only [hcount]
  obtain ⟨hstop, s₁, hs₁⟩ | ⟨hgo, a, ha, happlied, hs₁⟩ := faFen_cases rule
    { s with table := discard s.table pos b player } (s.fourSame pos b) pos
  · rw [hs₁]
    exact .inl ⟨⟨hstop.1, .inl hstop.2⟩, s₁, rfl⟩
  rw [hs₁]
  simp only [Except.bind, hgeng]
  obtain ⟨hstop, s₂, hs₂⟩ | ⟨hgo', a', ha', happlied', hs₂⟩ := faFen_cases rule
    { s with
      table := discard s.table pos b player
      accounts := a
      hasFaFen := s.hasFaFen || s.fourSame pos b } (isGeng4 s.table pos b) (nextPlayerPos pos)
  · rw [hs₂]
    exact .inl ⟨⟨hstop.1, .inr hstop.2⟩, s₂, rfl⟩
  have hfined : finedAccounts rule s pos b = a' := by
    rw [finedAccounts, ha', ha]
  rw [hs₂, hfined]
  refine .inr ⟨?_, rfl, a, happlied, happlied'⟩
  rintro ⟨hrule, hdue | hdue⟩
  · exact hgo ⟨hrule, hdue⟩
  · exact hgo' ⟨hrule, hdue⟩

/-- Asking the other seats about the discarded tile stops on a flower. -/
lemma canHuStops_iff (s : Room) (pos : Seat) (b : ℕ) (player : MJPlayer) (hasFaFen : Bool) :
    (∃ q, q ≠ pos ∧ canHuStops
      (gameProgress rule ask { s with
        table := discard s.table pos b player
        accounts := finedAccounts rule s pos b
        hasFaFen := hasFaFen })
      (discard s.table pos b player) pos b q = true) ↔ FlowerStops rule s pos b := by
  obtain ⟨map, hdiscard⟩ := Hands.discard_frame s.table pos b player
  have hplayer : ∀ q, q ≠ pos → (discard s.table pos b player).playerList q =
      s.table.playerList q := by
    intro q hq
    rw [hdiscard]
    exact Function.update_of_ne hq _ _
  have hcancel : (discard s.table pos b player).mjCancelMgr = s.table.mjCancelMgr := by
    rw [hdiscard]
  have hout : (rule.isJYZ && (finedAccounts rule s pos b).leftMoney pos ≤ 0) = false ↔
      (rule.isJYZ = true → 0 < (finedAccounts rule s pos b).leftMoney pos) := by
    cases rule.isJYZ <;> simp
  unfold canHuStops FlowerStops
  rw [← hout, hcancel]
  constructor
  · rintro ⟨q, hq, hstop⟩
    simp only [gameProgress, Bool.and_eq_true, Bool.not_eq_true', decide_eq_true_eq, hplayer q hq]
      at hstop
    obtain ⟨⟨⟨hmoney, hpassed⟩, hnew⟩, hflower⟩ := hstop
    exact ⟨hflower, hmoney, q, hq, hnew, hpassed⟩
  · rintro ⟨hflower, hmoney, q, hq, hnew, hpassed⟩
    refine ⟨q, hq, ?_⟩
    simp only [gameProgress, Bool.and_eq_true, Bool.not_eq_true', decide_eq_true_eq, hplayer q hq]
    exact ⟨⟨⟨hmoney, hpassed⟩, hnew⟩, hflower⟩

/-- An accepted discard: the fines, then the question to the other seats. -/
lemma onPlayCard_of_accepts (hacc : s.Accepts pos b) : onPlayCard rule ask s pos (some b) =
    (faFens rule
      { s with table := discard s.table pos b ((s.table.playerList pos).doPlayCard b).2 }
      pos b).bind fun s =>
      match checkOtherOper (s.gameProgress rule ask) s.table pos b false with
      | .error table => .error { s with table := table }
      | .ok c =>
        if !c.1 then .ok (giveNewCard rule ask { s with table := c.2.2 } (nextPlayerPos pos))
        else .ok { s with table := autoHu c.2.2 c.2.1 b } := by
  unfold onPlayCard
  dsimp only
  rw [hacc.1, hacc.2]
  rfl

/-- In every state of every run, in every room: an accepted discard ends without an error, somebody
may act afterwards or the round is over, and every fine that is due has been applied to all seats or
to none, if and only if no fine is due in an open-head room with a score limit and no seat is asked
whether it wins on a flower beyond `Zi7`.

**Proof sketch.** The fines and the question to the other seats are the only things that stop
(`faFens_discard`, `checkOtherOper_ok_iff`). When somebody may claim the tile it is offered an
operation; otherwise the next seat is dealt a tile that is still to come, which is valid, so that
this seat may play it, or exchanges it for being a flower, or the wall is used up. -/
theorem completed_iff (h : Runs.Reaches (step rule) (fun _ _ => True) (opened rule) s)
    (hacc : s.Accepts pos b) :
    (∃ s', onPlayCard rule ask s pos (some b) = .ok s' ∧ Completed rule s s' pos b) ↔
      ¬ FineStops rule s pos b ∧ ¬ FlowerStops rule s pos b := by
  have hlegal := legal_of_reaches rule h
  rw [onPlayCard_of_accepts rule ask hacc]
  set player := ((s.table.playerList pos).doPlayCard b).2
  obtain ⟨hstop, s₁, hs₁⟩ | ⟨hgo, hs₁, hfines⟩ := faFens_discard rule s pos b player
  · rw [hs₁]
    simp [Except.bind, hstop]
  rw [hs₁]
  simp only [Except.bind]
  set s₁ : Room := { s with
    table := discard s.table pos b player
    accounts := finedAccounts rule s pos b
    hasFaFen := s.hasFaFen || s.fourSame pos b || isGeng4 s.table pos b } with hs₁def
  have hflower := canHuStops_iff rule ask s pos b player
    (s.hasFaFen || s.fourSame pos b || isGeng4 s.table pos b)
  have hok := checkOtherOper_ok_iff (s₁.gameProgress rule ask) s₁.table pos b false
  cases hcheck : checkOtherOper (s₁.gameProgress rule ask) s₁.table pos b false with
  | error table =>
    have hstops : FlowerStops rule s pos b := by
      by_contra hnot
      rw [← hflower] at hnot
      simp only [not_exists, not_and, Bool.not_eq_true] at hnot
      obtain ⟨c, hc⟩ := hok.mpr hnot
      rw [hcheck] at hc
      exact absurd hc (by simp)
    simp [hstops]
  | ok c =>
    have hnot : ¬ FlowerStops rule s pos b := by
      rw [← hflower]
      rintro ⟨q, hq, hstop⟩
      have hclear := hok.mp ⟨c, hcheck⟩ q hq
      exact absurd (hstop.symm.trans hclear) (by simp)
    refine ⟨fun _ => ⟨hgo, hnot⟩, fun _ => ?_⟩
    dsimp only
    cases hgrab : c.1 with
    | false =>
      have hc : Legal c.2.2 := (checkOtherOper_legal _ (discard_legal hlegal player) false).2 c
        hcheck
      exact ⟨_, rfl, giveNewCard_live _ hc, hfines⟩
    | true => exact ⟨_, rfl, autoHu_live (checkOtherOper_live _ hcheck hgrab) _, hfines⟩

/-! ### Runs -/

/-- Hands with one tile `31` each. -/
def followHands : List ℕ :=
  [1, 3, 5, 7, 9, 11, 13, 15, 17, 19, 21, 23, 31] ++
  [1, 3, 5, 7, 9, 11, 13, 15, 17, 19, 21, 23, 31] ++
  [2, 4, 6, 8, 12, 14, 16, 18, 22, 24, 26, 28, 31] ++
  [2, 4, 6, 8, 12, 14, 16, 18, 22, 24, 26, 28, 31] ++ [34] ++ [32, 33, 32]

/-- A deal in which all seats can play the tile `31` in turn. -/
def followDeal : Deal where
  wall := followHands ++ wallTiles.diff followHands
  perm := by decide +kernel
  banker := 0
  last := newTable
  asked := newTable_asked

/-- The first three seats play it. -/
def followEvents : List Event :=
  [.clientMsg 0 ⟨10, 170⟩, .clientMsg 1 ⟨10, 170⟩, .clientMsg 2 ⟨10, 170⟩]

/-- An open-head room with the stake 1 and the limit 200. -/
def limited200 : RoomRule := ⟨false, 200, false, 1, 8⟩

/-- Without a limit the first seat is fined when the fourth follows, and it draws the next tile. -/
theorem followed_in_unlimited :
    ∃ s, Runs.Reaches (step unlimited) (fun _ _ => True) (opened unlimited) s ∧ s.Accepts 3 31 ∧
      isGeng4 s.table 3 31 = true ∧
      ∃ s', onPlayCard unlimited concealed.countHuType s 3 (some 31) = .ok s' ∧
        Completed unlimited s s' 3 31 := by
  have hrun : ((Runs.exec (step unlimited) (fun _ _ => True) (opened unlimited)
      (played followDeal followEvents)).any fun s => s.table.playerGrabMgr.hasOper 3 .play &&
        ((s.table.playerList 3).doPlayCard 31).1 && isGeng4 s.table 3 31) = true := by
    decide +kernel
  obtain ⟨s, hs, hfacts⟩ := (Option.any_eq_true _ _).mp hrun
  simp only [Bool.and_eq_true] at hfacts
  obtain ⟨⟨hplay, hhas⟩, hgeng⟩ := hfacts
  have hreaches : Runs.Reaches (step unlimited) (fun _ _ => True) (opened unlimited) s :=
    Runs.reaches_of_exec _ .init hs
  refine ⟨s, hreaches, ⟨hplay, hhas⟩, hgeng, ?_⟩
  exact (completed_iff unlimited concealed.countHuType hreaches ⟨hplay, hhas⟩).mpr
    ⟨fun hstop => absurd hstop.1.2.1 (by decide), fun hstop => absurd hstop.1 (by decide)⟩

/-- The fourth seat's discard stops with its tile in the river, and nobody is to act. -/
lemma followRun_stops : ((Runs.exec (step limited200) (fun _ _ => True) (opened limited200)
    (played followDeal followEvents)).any fun s => s.table.playerGrabMgr.hasOper 3 .play &&
      ((s.table.playerList 3).doPlayCard 31).1 && isGeng4 s.table 3 31 &&
      match onPlayCard limited200 concealed.countHuType s 3 (some 31) with
      | .ok _ => false
      | .error s' => (s'.table.riverCardList 3).getLast? == some 31 &&
        decide (∀ i, s'.accounts.leftMoney i = 200) &&
        decide (∀ p, s'.table.playerGrabMgr.canGrabMgr.opers p = if p = 3 then [.play] else []) &&
        !(s'.table.playerList 3).hasNewCard && s'.table.timers.isEmpty &&
        s'.table.endArgs.isNone) = true := by
  decide +kernel

/-- With the limit 200 the handler stops when the fourth seat follows: the tile is on the river,
nobody has been fined, and the only operation left is to play, for a seat without a new tile. -/
theorem follow_stops_in_limited :
    ∃ s, Runs.Reaches (step limited200) (fun _ _ => True) (opened limited200) s ∧ s.Accepts 3 31 ∧
      isGeng4 s.table 3 31 = true ∧
      (∃ s', onPlayCard limited200 concealed.countHuType s 3 (some 31) = .error s' ∧
        (s'.table.riverCardList 3).getLast? = some 31 ∧ (∀ i, s'.accounts.leftMoney i = 200) ∧
        (∀ p, s'.table.playerGrabMgr.canGrabMgr.opers p = if p = 3 then [.play] else []) ∧
        (s'.table.playerList 3).hasNewCard = false ∧ s'.table.timers = [] ∧ s'.table.endArgs = none) ∧
      ¬ ∃ s', onPlayCard limited200 concealed.countHuType s 3 (some 31) = .ok s' ∧
        Completed limited200 s s' 3 31 := by
  obtain ⟨s, hs, hfacts⟩ := (Option.any_eq_true _ _).mp followRun_stops
  simp only [Bool.and_eq_true] at hfacts
  obtain ⟨⟨⟨hplay, hhas⟩, hgeng⟩, hend⟩ := hfacts
  refine ⟨s, Runs.reaches_of_exec _ .init hs, ⟨hplay, hhas⟩, hgeng, ?_⟩
  cases hr : onPlayCard limited200 concealed.countHuType s 3 (some 31) with
  | ok s' =>
    rw [hr] at hend
    exact absurd hend (by simp)
  | error s' =>
    rw [hr] at hend
    simp only [Bool.and_eq_true, Bool.not_eq_true', beq_iff_eq, decide_eq_true_eq,
      List.isEmpty_iff, Option.isNone_iff_eq_none] at hend
    obtain ⟨⟨⟨⟨⟨hriver, hmoney⟩, hopers⟩, hnew⟩, htimers⟩, hover⟩ := hend
    exact ⟨⟨s', rfl, hriver, hmoney, hopers, hnew, htimers, hover⟩, by simp⟩

end Room

end Nanjing
