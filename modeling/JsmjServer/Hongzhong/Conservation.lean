import JsmjServer.Hongzhong.GamePlaying
import JsmjServer.Mahjong.Deal

set_option relaxedAutoImplicit false
set_option autoImplicit false

/-!
# The tiles of a round of hongzhong mahjong

Every client message leaves the tiles of the round together, whatever it asks for, and every handler
runs to its end unless the message lacks a tile it needs.

## Main definitions

* `Hongzhong.Turn`, `Hongzhong.Claim` — the two phases of a round.
* `Hongzhong.Kept` — the invariant: a playing state in one of the phases, or an ended round.
* `Hongzhong.Outcome` — how a round ends.
* `Hongzhong.Offered`, `Hongzhong.Stops` — the messages that may change something, and those that
  stop the handler.

## Main results

* `Hongzhong.grabEnd_kept`, `Hongzhong.playTile_kept` — one move keeps the invariant.
* `Hongzhong.onClientMsg_spec` — what a message does.
* `Hongzhong.Reachable.kept` — the invariant holds in every run.
* `Hongzhong.tiles_conserved` — tile conservation.
-/

namespace Hongzhong

open Mahjong

/-! ### Offers -/

section Offers

variable {rule : RoomRuleMap} {player : MJPlayer} {s s' : Table} {pos : Seat} {b : ℕ} {o : Oper}
  {l : List ℕ} {bGrabGang checkOp : Bool}

@[simp] lemma hasBaiDa_none : hasBaiDa player none = 0 := by
  simp [hasBaiDa]

/-- The offers to the seat whose turn it is, with their tiles. -/
lemma mem_myOffers (h : (o, l) ∈ myOffers rule player checkOp) :
    (o = .play ∧ l = []) ∨ (o = .cancel ∧ l = []) ∨
      checkOp = true ∧ ((o = .hu ∧ l = [player.newCard]) ∨
        (o = .ag ∧ l = player.getAnGangCardListWithDa [baiDa]) ∨
        (o = .mxg ∧ l = player.getMXGangCardList)) := by
  rw [myOffers, List.mem_cons] at h
  rcases h with h | h
  · exact Or.inl (by simpa using h)
  rcases mem_withCancel h with h | h
  · cases checkOp with
    | false => simp at h
    | true =>
      rw [if_pos rfl] at h
      simp only [selfOffers, List.mem_append] at h
      rcases h with (h | h) | h <;> split_ifs at h <;> simp at h
      · exact Or.inr (Or.inr ⟨rfl, Or.inl h⟩)
      · exact Or.inr (Or.inr ⟨rfl, Or.inr (Or.inl h)⟩)
      · exact Or.inr (Or.inr ⟨rfl, Or.inr (Or.inr h)⟩)
  · exact Or.inr (Or.inl (by simpa using h))

/-- A claim on the tile `b`: to win on an added kong, else kong or peng from the hand. -/
def MayClaim (player : MJPlayer) (b : ℕ) (bGrabGang : Bool) (o : Oper) : Prop :=
  (o = .hu ∧ bGrabGang = true) ∨
  (o = .mg ∧ bGrabGang = false ∧ player.canGang b = true) ∨
  (o = .peng ∧ bGrabGang = false ∧ player.canPeng b = true ∧ 2 < player.cardList.length)

/-- The claims allowed to another seat, with their tiles. -/
lemma mem_claims (h : (o, l) ∈ claims s pos b bGrabGang) :
    l = [b] ∧ MayClaim (s.playerList pos) b bGrabGang o := by
  simp only [claims, List.mem_append] at h
  rcases h with (h | h) | h <;> split_ifs at h with hc <;>
    simp only [List.not_mem_nil, List.mem_singleton, Prod.mk.injEq] at h <;>
    simp only [Bool.and_eq_true, Bool.not_eq_true', decide_eq_true_eq, hasBaiDa_none] at hc
  · exact ⟨h.2, Or.inl ⟨h.1, hc.1⟩⟩
  · exact ⟨h.2, Or.inr (Or.inl ⟨h.1, hc.1.1, hc.1.2⟩)⟩
  · exact ⟨h.2, Or.inr (Or.inr ⟨h.1, hc.1.1.1, hc.1.2, by omega⟩)⟩

lemma MayClaim.mem_operLevel (h : MayClaim player b bGrabGang o) : o ∈ operLevel ∧ o ≠ .play := by
  rcases h with ⟨rfl, -⟩ | ⟨rfl, -⟩ | ⟨rfl, -⟩ <;> decide

end Offers

/-! ### The two phases of a round -/

/-- An operation other than playing a tile that the seat `t` with the new tile may do with the
tile `c`. -/
def MayDo (s : Table) (t : Seat) (o : Oper) (c : ℕ) : Prop :=
  (o = .hu ∧ s.bZiMo t = true) ∨
  (o = .ag ∧ 4 ≤ (s.playerList t).getCardCountInHand c true) ∨
  (o = .mxg ∧ c ∈ (s.playerList t).newCard :: (s.playerList t).cardList ∧
    ∃ v ∈ (s.playerList t).pileList, MJPlayer.isPengOf c v = true)

/-- The seat `t` has the new tile and is to play or to do something with it. -/
structure Turn (s : Table) (t : Seat) : Prop where
  pos : s.playerGrabMgr.pos = some t
  newCard : ∀ p, (s.playerList p).hasNewCard = true ↔ p = t
  quiet : s.isQiangGanging = false
  opers : ∀ p, ∀ o ∈ s.playerGrabMgr.canGrabMgr.opers p, p = t
  offers : ∃ map, s.playerCanDoMap t = some map ∧ .play ∈ map.operList.getD [] ∧
    ∀ o ∈ s.playerGrabMgr.canGrabMgr.opers t, ∃ l, map.cards o = some l ∧
      (o ≠ .cancel → ∀ c ∈ l, MayDo s t o c)
  chosen : s.playerGrabMgr.Chosen fun p o c => p = t ∧ (o = .cancel ∨ MayDo s t o c)

/-- The other seats may claim the tile `b` of the seat `t`: its last discard, or the tile of its
added kong. -/
structure Claim (s : Table) (t : Seat) (b : ℕ) : Prop where
  pos : s.playerGrabMgr.pos = some t
  valid : MJCard.isValid b = true
  newCard : ∀ p, (s.playerList p).hasNewCard = false
  opers : ∀ p, ∀ o ∈ s.playerGrabMgr.canGrabMgr.opers p, p ≠ t
  offers : ∀ p, p ≠ t → ∃ map, s.playerCanDoMap p = some map ∧ .play ∉ map.operList.getD [] ∧
    ∀ o ∈ s.playerGrabMgr.canGrabMgr.opers p, ∃ l, map.cards o = some l ∧
      (o ≠ .cancel → l = [b] ∧ MayClaim (s.playerList p) b s.isQiangGanging o ∧
        (o = .hu → p ∈ s.multiHuPos))
  chosen : s.playerGrabMgr.Chosen fun p o c => p ≠ t ∧ (o = .cancel ∨
    c = b ∧ MayClaim (s.playerList p) b s.isQiangGanging o ∧ (o = .hu → p ∈ s.multiHuPos))
  winners : s.multiHuPos.Nodup ∧ t ∉ s.multiHuPos
  river : s.isQiangGanging = false → ∃ l, s.riverCardList t = l ++ [b]
  robbed : s.isQiangGanging = true → s.qiangGangInfo = some t ∧
    ∃ v ∈ (s.playerList t).pileList, v.operType = .mxg

/-- The tiles `W` of the round are all at the table, and those of each player fit together. -/
structure Balanced (W : Multiset ℕ) (s : Table) : Prop where
  legal : ∀ c ∈ W, MJCard.isValid c = true ∧ c ≤ Zi7
  tiles : s.tiles = W
  sound : ∀ p, (s.playerList p).Sound
  noTest : ∀ p, s.testPlayerNeedCard p = none

/-- The round goes on, in one of the two phases. -/
structure Playing (W : Multiset ℕ) (s : Table) : Prop extends Balanced W s where
  going : s.endArgs = none
  valid : s.playerGrabMgr.Valid
  phase : (∃ t, Turn s t) ∨ ∃ t b, Claim s t b

/-- How a round ends: drawn, by self-draw, or by robbing an added kong. -/
inductive Outcome (s : Table) (a : EndArgs) : Prop
  | liuJu : a = .liuJu → Outcome s a
  | ziMo (t : Seat) : a.isLiuJu = false → a.isZiMo = true → a.isQiangGang = false →
      a.fangPaoPos = some t → a.huPos = some t → a.winnerPosList = [t] → Outcome s a
  | qiangGang (t pos : Seat) : a.isLiuJu = false → a.isZiMo = false → a.isQiangGang = true →
      a.fangPaoPos = some t → a.huPos = some pos → pos ∈ a.winnerPosList →
      a.winnerPosList.Nodup → t ∉ a.winnerPosList →
      (∃ v ∈ (s.playerList t).pileList, v.operType = .mxg) → Outcome s a

/-- A round that has ended: the tiles drawn for the bonus are with the others. -/
structure Ended (W : Multiset ℕ) (s : Table) (a : EndArgs) : Prop where
  tiles : s.tiles + ↑a.zhaMaCards = W
  sound : ∀ p, (s.playerList p).Sound
  outcome : Outcome s a

/-- What every reachable state keeps. -/
inductive Kept (W : Multiset ℕ) (s : Table) : Prop
  | playing : Playing W s → Kept W s
  | ended (a : EndArgs) : s.endArgs = some a → Ended W s a → Kept W s

/-- Between two turns: nobody has a new tile and no kong is being robbed. -/
structure Idle (W : Multiset ℕ) (s : Table) : Prop extends Balanced W s where
  going : s.endArgs = none
  newCard : ∀ p, (s.playerList p).hasNewCard = false
  quiet : s.isQiangGanging = false

/-! ### Drawing -/

section Draw

variable {rule : RoomRuleMap} {W : Multiset ℕ} {s : Table} {t : Seat} {checkOp : Bool}

/-- The offers of `checkMyOper` change the managers only. -/
lemma checkMyOper_eq (hn : (s.playerList t).hasNewCard = true) :
    checkMyOper rule s t checkOp = { s with
      playerGrabMgr := (s.playerGrabMgr.clear.addCanDoItem t
        ((myOffers rule (s.playerList t) checkOp).map Prod.fst)).setPos t
      playerCanDoMap := Function.update s.playerCanDoMap t
        (some (.ofOffers (myOffers rule (s.playerList t) checkOp))) } := by
  unfold checkMyOper
  simp only [hn, Bool.true_eq_false, if_false]
  rfl

lemma checkMyOper_playing (hb : Balanced W s) (hgo : s.endArgs = none) (hq : s.isQiangGanging = false)
    (hnew : ∀ p, (s.playerList p).hasNewCard = true ↔ p = t)
    (hz : checkOp = true → s.bZiMo t = true) : Playing W (checkMyOper rule s t checkOp) := by
  have hn : (s.playerList t).hasNewCard = true := (hnew t).mpr rfl
  rw [checkMyOper_eq hn]
  set offers := myOffers rule (s.playerList t) checkOp with hoffers
  have hopers : ∀ p, ((s.playerGrabMgr.clear.addCanDoItem t (offers.map Prod.fst)).setPos
      t).canGrabMgr.opers p = if p = t then sortOpers (offers.map Prod.fst) else [] := by
    intro p
    simp [PlayerGrabMgr.setPos, PlayerGrabMgr.addCanDoItem, PlayerGrabMgr.clear]
  have hlevel : ∀ o ∈ offers.map Prod.fst, o ∈ operLevel := by
    intro o ho
    obtain ⟨⟨o, l⟩, hmem, rfl⟩ := List.mem_map.mp ho
    rcases mem_myOffers hmem with ⟨rfl, -⟩ | ⟨rfl, -⟩ | ⟨-, ⟨rfl, -⟩ | ⟨rfl, -⟩ | ⟨rfl, -⟩⟩ <;>
      simp [operLevel]
  refine ⟨⟨hb.legal, hb.tiles, hb.sound, hb.noTest⟩, hgo,
    (PlayerGrabMgr.valid_clear.addCanDoItem hlevel).setPos, Or.inl ⟨t, ?_⟩⟩
  refine ⟨rfl, hnew, hq, fun p o ho => ?_, ⟨.ofOffers offers, ?_, ?_, ?_⟩, ?_⟩
  · rw [hopers] at ho
    by_contra hp
    rw [if_neg hp] at ho
    exact absurd ho List.not_mem_nil
  · exact Function.update_self _ _ _
  · show .play ∈ offers.map Prod.fst
    simp [hoffers, myOffers]
  · intro o ho
    rw [hopers, if_pos rfl, PlayerGrabMgr.Round.mem_sortOpers] at ho
    obtain ⟨l, hl⟩ := CanDoMap.cards_ofOffers_isSome ho
    refine ⟨l, hl, fun hne c hc => ?_⟩
    rcases mem_myOffers (CanDoMap.mem_of_cards_ofOffers hl) with
      ⟨-, rfl⟩ | ⟨h, -⟩ | ⟨hop, ⟨rfl, rfl⟩ | ⟨rfl, rfl⟩ | ⟨rfl, rfl⟩⟩
    · simp at hc
    · exact absurd h hne
    · exact Or.inl ⟨rfl, hz hop⟩
    · exact Or.inr (Or.inl ⟨rfl, (MJPlayer.count_of_mem_getAnGangCardListWithDa hc).ge⟩)
    · exact Or.inr (Or.inr ⟨rfl, MJPlayer.mem_of_mem_getMXGangCardList hc⟩)
  · exact PlayerGrabMgr.chosen_clear

/-- No tile counts as a flower, so nothing is redrawn. -/
lemma redraw_eq (player : MJPlayer) (wall : List ℕ) : redraw player wall = (true, player, wall) := by
  cases wall <;> simp [redraw, huaList]

/-- The next tile of the wall goes to the seat, whose turn it is then; without one the round is
drawn. -/
lemma giveNewCard_kept (hi : Idle W s) : Kept W (giveNewCard rule s t) := by
  unfold giveNewCard takeCard
  rw [hi.noTest t]
  cases hwall : s.mjWall with
  | nil =>
    refine .ended .liuJu rfl ⟨?_, hi.sound, .liuJu rfl⟩
    have : (s.gotoNextState .liuJu).tiles + ↑EndArgs.liuJu.zhaMaCards = s.tiles := by
      show s.tiles + 0 = s.tiles
      rw [add_zero]
    exact this.trans hi.tiles
  | cons c wall =>
    simp only [getFrontCard, Option.map_some, redraw_eq, if_true]
    have hvalid : MJCard.isValid c = true := by
      refine (hi.legal c ?_).1
      rw [← hi.tiles]
      exact Table.mem_tiles_of_wall (by simp [hwall])
    obtain ⟨hsound, htiles, hnew, hjust, -⟩ :=
      MJPlayer.addNewCard_sound (hi.sound t) (hi.newCard t) hvalid
    set s₁ : Table := { s with
      mjWall := wall
      playerGrabMgr := s.playerGrabMgr.setPos t
      mjCancelMgr := s.mjCancelMgr.clearPos t } with hs₁
    have hwalltiles : s.tiles = c ::ₘ s₁.tiles := by
      simp only [Table.tiles, hs₁, hwall, ← Multiset.cons_coe, Multiset.cons_add]
    have hplayer : ∀ p, ((s₁.setPlayer t ((s.playerList t).addNewCard c)).playerList p) =
        if p = t then (s.playerList t).addNewCard c else s.playerList p := by
      intro p
      simp only [Table.setPlayer, hs₁, Function.update_apply]
    refine .playing (checkMyOper_playing ⟨hi.legal, ?_, fun p => ?_, hi.noTest⟩ hi.going hi.quiet
      (fun p => ?_) fun _ => ?_)
    · have hadd : (s₁.setPlayer t ((s.playerList t).addNewCard c)).tiles = c ::ₘ s₁.tiles :=
        Table.tiles_setPlayer_add htiles
      rw [hadd, ← hwalltiles]
      exact hi.tiles
    · rw [hplayer]
      split_ifs
      · exact hsound
      · exact hi.sound p
    · rw [hplayer]
      by_cases hp : p = t
      · simp [hp, hnew]
      · simp [hp, hi.newCard p]
    · simp only [Table.bZiMo, hplayer, if_true, hnew, hjust]
      rfl

end Draw

/-! ### Claims on a tile -/

section Claims

variable {rule : RoomRuleMap} {W : Multiset ℕ} {s : Table} {t : Seat} {b : ℕ} {bGrabGang : Bool}

/-- The offers of `checkOtherOper` when it does not stop. -/
def otherOffers (s : Table) (turn : Seat) (byteCard : ℕ) (bGrabGang : Bool) : Bool × Table :=
  { s with playerGrabMgr := s.playerGrabMgr.clear.setPos turn, multiHuPos := [] }.offerToOthers turn
    fun pos => claims s pos byteCard bGrabGang

/-- For a discarded tile, and for one in the count map, nothing stops. -/
lemma checkOtherOper_eq (h : bGrabGang = false ∨ b ≤ Zi7) :
    checkOtherOper s t b bGrabGang = .ok (otherOffers s t b bGrabGang) := by
  apply Table.offerUntil_of_not_stops
  intro p
  rcases h with rfl | h
  · rfl
  · have hle : decide (Zi7 < b) = false := by simpa using h
    simp [canHuStops, hle]

/-- The table on which the offers are made. -/
lemma otherOffers_offered (s : Table) (t : Seat) (b : ℕ) (bGrabGang : Bool) :
    Table.Offered (fun pos => claims s pos b bGrabGang) [t + 1, t + 2, t + 3]
      (false, { s with playerGrabMgr := s.playerGrabMgr.clear.setPos t, multiHuPos := [] })
      (otherOffers s t b bGrabGang) :=
  Table.offerToOthers_offered _ _ _

/-- The managers are all that the offers change. -/
lemma otherOffers_frame (s : Table) (t : Seat) (b : ℕ) (bGrabGang : Bool) :
    (otherOffers s t b bGrabGang).2 = { s with
      playerGrabMgr := (otherOffers s t b bGrabGang).2.playerGrabMgr
      multiHuPos := [t + 1, t + 2, t + 3].filter
        (Table.offersHu fun pos => claims s pos b bGrabGang)
      playerCanDoMap := fun p =>
        if p ∈ [t + 1, t + 2, t + 3] then some (.ofOffers (withCancel (claims s p b bGrabGang)))
        else s.playerCanDoMap p } :=
  (otherOffers_offered s t b bGrabGang).frame

lemma otherOffers_idle (hi : Idle W s) : Idle W (otherOffers s t b bGrabGang).2 := by
  rw [otherOffers_frame]
  exact ⟨⟨hi.legal, hi.tiles, hi.sound, hi.noTest⟩, hi.going, hi.newCard, hi.quiet⟩

/-- The claims on the tile `b` of the seat `t` are open: its last discard, or, once the kong is
marked as being robbed, the tile of its added kong. -/
lemma otherOffers_playing (t : Seat) (b : ℕ) (bGrabGang : Bool) (info : Option Seat)
    (hi : Idle W s) (hv : MJCard.isValid b = true)
    (hriver : bGrabGang = false → ∃ l, s.riverCardList t = l ++ [b])
    (hrob : bGrabGang = true → info = some t ∧
      ∃ v ∈ (s.playerList t).pileList, v.operType = .mxg) :
    Playing W { (otherOffers s t b bGrabGang).2 with
      isQiangGanging := bGrabGang, qiangGangInfo := info } := by
  have hoff := otherOffers_offered s t b bGrabGang
  set grab := (otherOffers s t b bGrabGang).2.playerGrabMgr with hgrab
  have hframe := otherOffers_frame s t b bGrabGang
  rw [hframe]
  have hlevel : ∀ p, ∀ x ∈ claims s p b bGrabGang, x.1 ∈ operLevel := fun p x hx =>
    (mem_claims hx).2.mem_operLevel.1
  have hopers : ∀ p, ∀ o ∈ grab.canGrabMgr.opers p,
      p ≠ t ∧ o ∈ (withCancel (claims s p b bGrabGang)).map Prod.fst := by
    intro p o ho
    rw [hgrab, hoff.opers] at ho
    split_ifs at ho with h
    · exact ⟨Table.mem_otherSeats.mp h.1, PlayerGrabMgr.Round.mem_sortOpers.mp ho⟩
    · simp [PlayerGrabMgr.setPos, PlayerGrabMgr.clear] at ho
  have hhu : ∀ p, p ≠ t → .hu ∈ (withCancel (claims s p b bGrabGang)).map Prod.fst →
      p ∈ [t + 1, t + 2, t + 3].filter (Table.offersHu fun pos => claims s pos b bGrabGang) := by
    intro p hp ho
    rw [List.mem_filter, Table.mem_otherSeats]
    exact ⟨hp, by simpa [Table.offersHu] using ho⟩
  refine ⟨⟨hi.legal, hi.tiles, hi.sound, hi.noTest⟩, hi.going,
    hoff.valid hlevel PlayerGrabMgr.valid_clear.setPos, Or.inr ⟨t, b, ?_⟩⟩
  refine ⟨hoff.pos, hv, hi.newCard, fun p o ho => (hopers p o ho).1, fun p hp => ?_, ?_, ?_,
    hriver, hrob⟩
  · refine ⟨.ofOffers (withCancel (claims s p b bGrabGang)), if_pos (Table.mem_otherSeats.mpr hp),
      ?_, fun o ho => ?_⟩
    · intro hplay
      obtain ⟨⟨o, l⟩, hmem, ho⟩ := List.mem_map.mp hplay
      rcases mem_withCancel hmem with h | h
      · exact (mem_claims h).2.mem_operLevel.2 ho
      · rw [h] at ho
        exact absurd ho (by decide)
    · obtain ⟨l, hl⟩ := CanDoMap.cards_ofOffers_isSome (hopers p o ho).2
      refine ⟨l, hl, fun hne => ?_⟩
      rcases mem_withCancel (CanDoMap.mem_of_cards_ofOffers hl) with h | h
      · refine ⟨(mem_claims h).1, (mem_claims h).2, fun heq => hhu p hp ?_⟩
        rw [← heq]
        exact (hopers p o ho).2
      · exact absurd (congrArg Prod.fst h) hne
  · have hdone : grab.doneGrabMgr = s.playerGrabMgr.clear.doneGrabMgr := hoff.done
    exact PlayerGrabMgr.chosen_clear.of_done hdone
  · exact ⟨(Table.nodup_otherSeats t).filter _,
      fun hmem => Table.mem_otherSeats.mp (List.mem_of_mem_filter hmem) rfl⟩

/-- Once a tile is played, the table is idle until the claims on it are known. -/
lemma playTile_kept (rule : RoomRuleMap) (grab : PlayerGrabMgr) (hp : Playing W s)
    (ht : Turn s t) {q : MJPlayer} (hv : MJCard.isValid b = true) (hs : q.Sound)
    (htiles : (s.playerList t).tiles = b ::ₘ q.tiles) (hq : q.hasNewCard = false) :
    let c := otherOffers
      (({ s.setPlayer t q with playerGrabMgr := grab }.setCanDoMap t .empty).setRiver t
        (MJRiver.pushCard (s.riverCardList t) b)) t b false
    Kept W (if !c.1 then giveNewCard rule c.2 (nextPlayerPos t) else c.2) := by
  intro c
  have hplayer : ∀ p, (s.setPlayer t q).playerList p = if p = t then q else s.playerList p := by
    intro p
    simp only [Table.setPlayer, Function.update_apply]
  have hpush : MJRiver.pushCard (s.riverCardList t) b = s.riverCardList t ++ [b] := if_pos hv
  have hidle : Idle W
      (({ s.setPlayer t q with playerGrabMgr := grab }.setCanDoMap t .empty).setRiver t
        (MJRiver.pushCard (s.riverCardList t) b)) := by
    refine ⟨⟨hp.legal, ?_, fun p => ?_, hp.noTest⟩, hp.going, fun p => ?_, ht.quiet⟩
    · exact (Table.tiles_play hv htiles).trans hp.tiles
    · show ((s.setPlayer t q).playerList p).Sound
      rw [hplayer]
      split_ifs
      · exact hs
      · exact hp.sound p
    · show ((s.setPlayer t q).playerList p).hasNewCard = false
      rw [hplayer]
      split_ifs with h
      · exact hq
      · have hne := (ht.newCard p).not.mpr h
        simpa using hne
  by_cases hc : c.1
  · rw [hc, Bool.not_true, if_neg (by simp)]
    have hclaim := otherOffers_playing t b false c.2.qiangGangInfo hidle hv
      (fun _ => ⟨s.riverCardList t, by simp [Table.setRiver, hpush]⟩) (by simp)
    have hquiet : c.2.isQiangGanging = false := by
      show (otherOffers _ t b false).2.isQiangGanging = false
      rw [otherOffers_frame]
      exact ht.quiet
    have heta : { c.2 with isQiangGanging := false, qiangGangInfo := c.2.qiangGangInfo } = c.2 := by
      rw [← hquiet]
    rw [← heta]
    exact .playing hclaim
  · rw [Bool.not_eq_true] at hc
    rw [hc, Bool.not_false, if_pos rfl]
    exact giveNewCard_kept (otherOffers_idle hidle)

end Claims

/-! ### The prevailing choice -/

section Moves

variable {rule : RoomRuleMap} {W : Multiset ℕ} {s : Table} {t p : Seat} {b : ℕ}

/-- The table after the seat `p` has taken the last discard of the seat `t`. -/
lemma take_balanced (hb : Balanced W s) {player : MJPlayer} {l : List ℕ}
    (hriver : s.riverCardList t = l ++ [b]) (hs : player.Sound)
    (htiles : player.tiles = b ::ₘ (s.playerList p).tiles) :
    Balanced W ((s.setPlayer p player).setRiver t (MJRiver.popCard (s.riverCardList t))) := by
  refine ⟨hb.legal, ?_, fun q => ?_, hb.noTest⟩
  · rw [Table.tiles_take hriver htiles]
    exact hb.tiles
  · show ((s.setPlayer p player).playerList q).Sound
    rw [Table.playerList_setPlayer]
    split_ifs
    · exact hs
    · exact hb.sound q

/-- A peng on a discard gives its seat the turn. -/
lemma doPeng_kept (rule : RoomRuleMap) (hp : Playing W s) (hc : Claim s t b)
    (hq : s.isQiangGanging = false)
    (hpeng : (s.playerList p).canPeng b = true) (hl : 2 < (s.playerList p).cardList.length) :
    (doPeng rule s p b t).1 = true ∧ Kept W (doPeng rule s p b t).2 := by
  obtain ⟨player, hdo, hs, htiles, hnew, -, -⟩ :=
    MJPlayer.doPeng_sound t (hp.sound p) hpeng hc.valid hl
  obtain ⟨l, hriver⟩ := hc.river hq
  have hbal := take_balanced hp.toBalanced hriver hs htiles
  simp only [doPeng, hdo, if_true, true_and]
  refine .playing (checkMyOper_playing hbal hp.going hq (fun q => ?_) (by simp))
  show ((s.setPlayer p player).playerList q).hasNewCard = true ↔ q = p
  rw [Table.playerList_setPlayer]
  by_cases h : q = p
  · simp [h, hnew]
  · simp [h, hc.newCard q]

/-- A kong on a discard is followed by a draw. -/
lemma doGang_kept (rule : RoomRuleMap) (hp : Playing W s) (hc : Claim s t b)
    (hq : s.isQiangGanging = false)
    (hgang : (s.playerList p).canGang b = true) :
    (doGang rule s p b t).1 = true ∧ Kept W (doGang rule s p b t).2 := by
  obtain ⟨player, hdo, hs, htiles, hnew, -⟩ :=
    MJPlayer.doGang_sound t (hp.sound p) hgang hc.valid
  obtain ⟨l, hriver⟩ := hc.river hq
  have hbal := take_balanced hp.toBalanced hriver hs htiles
  simp only [doGang, hdo, if_true, true_and]
  refine giveNewCard_kept ⟨hbal, hp.going, fun q => ?_, hq⟩
  show ((s.setPlayer p player).playerList q).hasNewCard = false
  rw [Table.playerList_setPlayer]
  split_ifs
  · exact hnew
  · exact hc.newCard q

/-- The table after the seat whose turn it is has used up its new tile. -/
lemma use_idle (hp : Playing W s) (ht : Turn s t) {player : MJPlayer} (hs : player.Sound)
    (htiles : player.tiles = (s.playerList t).tiles) (hnew : player.hasNewCard = false) :
    Idle W (s.setPlayer t player) := by
  refine ⟨⟨hp.legal, ?_, fun q => ?_, hp.noTest⟩, hp.going, fun q => ?_, ht.quiet⟩
  · rw [Table.tiles_setPlayer_same htiles]
    exact hp.tiles
  · rw [Table.playerList_setPlayer]
    split_ifs
    · exact hs
    · exact hp.sound q
  · rw [Table.playerList_setPlayer]
    split_ifs with h
    · exact hnew
    · simpa using (ht.newCard q).not.mpr h

/-- A concealed kong is followed by a draw. -/
lemma doAnGang_kept (hp : Playing W s) (ht : Turn s t) (pos : Seat)
    (hc : 4 ≤ (s.playerList t).getCardCountInHand b true) :
    Kept W (doAnGang rule s t b pos) := by
  obtain ⟨player, hdo, hs, htiles, hnew, -⟩ :=
    MJPlayer.doAnGang_sound pos (hp.sound t) ((ht.newCard t).mpr rfl) hc
  simp only [doAnGang, hdo, if_true]
  exact giveNewCard_kept (use_idle hp ht hs htiles hnew)

/-- An added kong may be robbed; else it is followed by a draw. -/
lemma doMXGang_kept (hp : Playing W s) (ht : Turn s t)
    (hc : b ∈ (s.playerList t).newCard :: (s.playerList t).cardList)
    (hpile : ∃ v ∈ (s.playerList t).pileList, MJPlayer.isPengOf b v = true) :
    ∃ s', doMXGang rule s t b = .ok s' ∧ Kept W s' := by
  have hnewt := (ht.newCard t).mpr rfl
  obtain ⟨player, hdo, hs, htiles, hnew, hmxg⟩ :=
    MJPlayer.doMXGang_sound (hp.sound t) hnewt hc hpile
  have hidle := use_idle hp ht hs htiles hnew
  have hmem : b ∈ (s.playerList t).tiles := by
    rw [MJPlayer.tiles_of_hasNewCard hnewt, Multiset.mem_add, Multiset.mem_add]
    exact Or.inl (Or.inl hc)
  have hle : b ≤ Zi7 := by
    refine (hp.legal b ?_).2
    rw [← hp.tiles]
    exact Table.mem_tiles_of_player hmem
  have hv : MJCard.isValid b = true := (hp.sound t).valid b hmem
  simp only [doMXGang, hdo, if_true, checkOtherOper_eq (Or.inr hle)]
  refine ⟨_, rfl, ?_⟩
  dsimp only
  split_ifs
  · refine .playing (otherOffers_playing t b true (some t) hidle hv (by simp) fun _ => ⟨rfl, ?_⟩)
    rw [Table.playerList_setPlayer, if_pos rfl]
    exact hmxg
  · exact giveNewCard_kept (otherOffers_idle hidle)

/-- The tiles drawn for the bonus. -/
lemma doHu_tiles (s : Table) (pos : Seat) (c : ℕ) :
    (doHu rule s pos c).tiles + ↑(s.mjWall.take (needCardNum rule)) = s.tiles := by
  have hwall : (s.mjWall : Multiset ℕ) =
      ↑(s.mjWall.drop (needCardNum rule)) + ↑(s.mjWall.take (needCardNum rule)) := by
    rw [Multiset.coe_add, Multiset.coe_eq_coe]
    exact (List.Perm.of_eq (List.take_append_drop _ _).symm).trans List.perm_append_comm
  have hleft : (doHu rule s pos c).tiles = ↑(s.mjWall.drop (needCardNum rule)) +
      ∑ p, (s.playerList p).tiles + ∑ p, (s.riverCardList p : Multiset ℕ) := rfl
  rw [hleft, Table.tiles, hwall]
  abel

/-- A win by self-draw. -/
lemma doHu_ziMo (hp : Playing W s) (ht : Turn s t) (hz : s.bZiMo t = true) (c : ℕ) :
    Kept W (doHu rule s t c) := by
  refine .ended _ rfl ⟨?_, hp.sound, .ziMo t rfl hz ht.quiet ht.pos rfl ?_⟩
  · exact (doHu_tiles s t c).trans hp.tiles
  · simp [hz]

/-- A win by robbing an added kong. -/
lemma doHu_qiangGang (hp : Playing W s) (hc : Claim s t b) (hq : s.isQiangGanging = true)
    (hmem : p ∈ s.multiHuPos) (c : ℕ) : Kept W (doHu rule s p c) := by
  have hz : s.bZiMo p = false := by simp [Table.bZiMo, hc.newCard p]
  refine .ended _ rfl ⟨(doHu_tiles s p c).trans hp.tiles, hp.sound,
    .qiangGang t p rfl hz hq hc.pos rfl ?_ ?_ ?_ (hc.robbed hq).2⟩
  · simpa [hz] using hmem
  · simpa [hz] using hc.winners.1
  · simpa [hz] using hc.winners.2

/-- The claims are over: nobody has a new tile. -/
lemma Claim.idle (hp : Playing W s) (hc : Claim s t b) (info : Option Seat) :
    Idle W { s with isQiangGanging := false, qiangGangInfo := info } :=
  ⟨⟨hp.legal, hp.tiles, hp.sound, hp.noTest⟩, hp.going, hc.newCard, rfl⟩

/-- The choice to cancel prevails. -/
lemma cancelEnd_kept (hp : Playing W s) (hphase : Turn s t ∧ p = t ∨ (∃ b, Claim s t b) ∧ p ≠ t) :
    ∃ s', cancelEnd rule s p t = .ok s' ∧ Kept W s' := by
  unfold cancelEnd
  rcases hphase with ⟨ht, rfl⟩ | ⟨⟨b, hc⟩, hne⟩
  · obtain ⟨map, hmap, hplay, -⟩ := ht.offers
    simp only [ht.quiet, Bool.false_eq_true, if_false, hmap, hplay, if_true]
    exact ⟨s, rfl, .playing hp⟩
  · by_cases hq : s.isQiangGanging
    · simp only [hq, if_true, (hc.robbed hq).1]
      exact ⟨_, rfl, giveNewCard_kept (hc.idle hp none)⟩
    · obtain ⟨map, hmap, hplay, -⟩ := hc.offers p hne
      simp only [hq, Bool.false_eq_true, if_false, hmap, hplay]
      refine ⟨_, rfl, giveNewCard_kept ⟨hp.toBalanced, hp.going, hc.newCard, by simpa using hq⟩⟩

/-- The prevailing choice is carried out without an error, and the state is kept. -/
lemma grabEnd_kept (hp : Playing W s) (hd : s.playerGrabMgr.doneGrabMgr.opers p ≠ []) :
    ∃ s', grabEnd rule s = .ok s' ∧ Kept W s' := by
  obtain ⟨node, hnode⟩ := PlayerGrabMgr.exists_getPowestNode hp.valid hd
  unfold grabEnd
  rcases hp.phase with ⟨t, ht⟩ | ⟨t, b, hc⟩
  · obtain ⟨-, o, c, ho, hcard, hpos, hkind⟩ := ht.chosen.getPowestNode hnode
    rw [ht.pos, hnode]
    dsimp only
    rw [ho, hcard, hpos, List.head?_cons]
    rcases hkind with rfl | ⟨rfl, hz⟩ | ⟨rfl, hag⟩ | ⟨rfl, hmem, hpile⟩
    · exact cancelEnd_kept hp (Or.inl ⟨ht, rfl⟩)
    · exact ⟨_, rfl, doHu_ziMo hp ht hz c⟩
    · exact ⟨_, rfl, doAnGang_kept hp ht t hag⟩
    · exact doMXGang_kept hp ht hmem hpile
  · obtain ⟨-, o, c, ho, hcard, hpos, hkind⟩ := hc.chosen.getPowestNode hnode
    rw [hc.pos, hnode]
    dsimp only
    rw [ho, hcard, List.head?_cons]
    rcases hkind with rfl | ⟨rfl, ⟨rfl, hq⟩ | ⟨rfl, hq, hgang⟩ | ⟨rfl, hq, hpeng, hl⟩, hhu⟩
    · exact cancelEnd_kept hp (Or.inr ⟨⟨b, hc⟩, hpos⟩)
    · exact ⟨_, rfl, doHu_qiangGang hp hc hq (hhu rfl) c⟩
    · obtain ⟨hdo, hk⟩ := doGang_kept rule hp hc hq hgang
      exact ⟨_, by simp [hdo], hk⟩
    · obtain ⟨hdo, hk⟩ := doPeng_kept rule hp hc hq hpeng hl
      exact ⟨_, by simp [hdo], hk⟩

end Moves

/-! ### Messages -/

/-- The operation, with the tile, is one that the seat is offered now. A tile may be played when it
is in the hand; a choice to cancel needs no tile. -/
def Offered (s : Table) (pos : Seat) (oper : Oper) (card : Option ℕ) : Prop :=
  oper ∈ s.playerGrabMgr.canGrabMgr.opers pos ∧
    match oper with
    | .cancel => True
    | .play => ∃ b, card = some b ∧ b ∈ (s.playerList pos).newCard :: (s.playerList pos).cardList
    | oper => ∃ b map l, card = some b ∧ s.playerCanDoMap pos = some map ∧
        map.cards oper = some l ∧ b ∈ l

section Messages

variable {rule : RoomRuleMap} {W : Multiset ℕ} {s : Table} {pos : Seat} {oper : Oper}

/-- An open choice with a tile it is offered for may be recorded. -/
lemma Playing.choose (hp : Playing W s) (hmem : oper ∈ s.playerGrabMgr.canGrabMgr.opers pos)
    {map : CanDoMap} {l : List ℕ} {c : ℕ} (hmap : s.playerCanDoMap pos = some map)
    (hl : map.cards oper = some l) (hc : oper = .cancel ∨ c ∈ l) (m : MJCancelMgr) :
    Playing W { s with
      playerGrabMgr := (s.playerGrabMgr.playerDoGrab pos oper (some c)).2, mjCancelMgr := m } := by
  refine ⟨⟨hp.legal, hp.tiles, hp.sound, hp.noTest⟩, hp.going, hp.valid.playerDoGrab _, ?_⟩
  have hsub : ∀ p, (s.playerGrabMgr.playerDoGrab pos oper (some c)).2.canGrabMgr.opers p ⊆
      s.playerGrabMgr.canGrabMgr.opers p := fun p =>
    PlayerGrabMgr.opers_playerDoGrab_subset (some c)
  rcases hp.phase with ⟨t, ht⟩ | ⟨t, b, hb⟩
  · obtain rfl : pos = t := ht.opers pos oper hmem
    obtain ⟨map', hmap', hplay, hoff⟩ := ht.offers
    refine Or.inl ⟨pos, (PlayerGrabMgr.pos_playerDoGrab _).trans ht.pos, ht.newCard, ht.quiet,
      fun p o ho => ht.opers p o (hsub p ho),
      ⟨map', hmap', hplay, fun o ho => hoff o (hsub pos ho)⟩, ht.chosen.playerDoGrab fun _ => ?_⟩
    refine ⟨rfl, ?_⟩
    obtain ⟨l', hl', hdo⟩ := hoff oper hmem
    obtain rfl : map = map' := Option.some.inj (hmap.symm.trans hmap')
    obtain rfl : l = l' := Option.some.inj (hl.symm.trans hl')
    rcases hc with rfl | hc
    · exact Or.inl rfl
    · by_cases hcancel : oper = .cancel
      · exact Or.inl hcancel
      · exact Or.inr (hdo hcancel c hc)
  · have hne := hb.opers pos oper hmem
    refine Or.inr ⟨t, b, (PlayerGrabMgr.pos_playerDoGrab _).trans hb.pos, hb.valid, hb.newCard,
      fun p o ho => hb.opers p o (hsub p ho), fun p hpt => ?_,
      hb.chosen.playerDoGrab fun _ => ⟨hne, ?_⟩, hb.winners, hb.river, hb.robbed⟩
    · obtain ⟨map', hmap', hplay, hoff⟩ := hb.offers p hpt
      exact ⟨map', hmap', hplay, fun o ho => hoff o (hsub p ho)⟩
    · obtain ⟨map', hmap', -, hoff⟩ := hb.offers pos hne
      obtain ⟨l', hl', hdo⟩ := hoff oper hmem
      obtain rfl : map = map' := Option.some.inj (hmap.symm.trans hmap')
      obtain rfl : l = l' := Option.some.inj (hl.symm.trans hl')
      rcases hc with rfl | hc
      · exact Or.inl rfl
      · by_cases hcancel : oper = .cancel
        · exact Or.inl hcancel
        · obtain ⟨rfl, hclaim, hhu⟩ := hdo hcancel
          exact Or.inr ⟨List.mem_singleton.mp hc, hclaim, hhu⟩

/-- What an open operation is offered with. -/
lemma Playing.exists_cards (hp : Playing W s)
    (hmem : oper ∈ s.playerGrabMgr.canGrabMgr.opers pos) :
    ∃ map l, s.playerCanDoMap pos = some map ∧ map.cards oper = some l := by
  rcases hp.phase with ⟨t, ht⟩ | ⟨t, b, hb⟩
  · obtain rfl : pos = t := ht.opers pos oper hmem
    obtain ⟨map, hmap, -, hoff⟩ := ht.offers
    obtain ⟨l, hl, -⟩ := hoff oper hmem
    exact ⟨map, l, hmap, hl⟩
  · obtain ⟨map, hmap, -, hoff⟩ := hb.offers pos (hb.opers pos oper hmem)
    obtain ⟨l, hl, -⟩ := hoff oper hmem
    exact ⟨map, l, hmap, hl⟩

/-- The choices are decided, or the others are waited for, without an error. -/
lemma decideOrWait_kept (rule : RoomRuleMap) (oper : Oper) (hp : Playing W s)
    (hd : s.playerGrabMgr.doneGrabMgr.opers pos ≠ []) :
    ∃ s', decideOrWait rule s oper = .ok s' ∧ Kept W s' := by
  obtain ⟨wait, hwait, -⟩ := PlayerGrabMgr.needWait_spec hp.valid
  simp only [decideOrWait, needWait, hwait, Option.map_some]
  cases !wait || oper == .hu with
  | false => exact ⟨s, rfl, .playing hp⟩
  | true => exact grabEnd_kept hp hd

/-- `onGrabCard` on a playing state: only an offered operation without a tile makes it stop, and
only an offered operation changes anything. -/
lemma onGrabCard_spec (rule : RoomRuleMap) (pos : Seat) (hp : Playing W s) (card : Option ℕ)
    (hoper : oper ≠ .play) :
    (card = none ∧ oper ≠ .cancel ∧ oper ∈ s.playerGrabMgr.canGrabMgr.opers pos ∧
      onGrabCard rule s pos oper card = .error s) ∨
    ((card = none → oper ≠ .cancel → oper ∉ s.playerGrabMgr.canGrabMgr.opers pos) ∧
      ∃ s', onGrabCard rule s pos oper card = .ok s' ∧ Kept W s' ∧
        (¬Offered s pos oper card → s' = s)) := by
  unfold onGrabCard
  by_cases hmem : oper ∈ s.playerGrabMgr.canGrabMgr.opers pos
  · obtain ⟨map, l, hmap, hl⟩ := hp.exists_cards hmem
    simp only [PlayerGrabMgr.hasOper_iff.mpr hmem, Bool.not_true, Bool.false_eq_true, if_false,
      hmap, hl]
    by_cases hcancel : oper = .cancel
    · right
      refine ⟨fun _ h => absurd hcancel h, ?_⟩
      simp only [hcancel, if_true]
      rw [hcancel] at hmem hl
      have hdone := PlayerGrabMgr.opers_playerDoGrab_ne_nil (c := some 1) hmem
      have hkept : ∀ m, ∃ s', decideOrWait rule { s with
          playerGrabMgr := (s.playerGrabMgr.playerDoGrab pos .cancel (some 1)).2
          mjCancelMgr := m } .cancel = .ok s' ∧ Kept W s' := fun m =>
        decideOrWait_kept rule .cancel (hp.choose hmem hmap hl (Or.inl rfl) m) hdone
      split_ifs
      · obtain ⟨s', hs', hk⟩ := hkept s.mjCancelMgr
        exact ⟨s', hs', hk, fun h => absurd ⟨hmem, trivial⟩ h⟩
      · obtain ⟨s', hs', hk⟩ := hkept (addCancelOpers s.mjCancelMgr pos map)
        exact ⟨s', hs', hk, fun h => absurd ⟨hmem, trivial⟩ h⟩
    · simp only [hcancel, if_false]
      cases card with
      | none => exact Or.inl ⟨rfl, hcancel, hmem, rfl⟩
      | some b =>
        right
        refine ⟨by simp, ?_⟩
        dsimp only
        by_cases hb : b ∈ l
        · rw [if_pos hb]
          obtain ⟨s', hs', hk⟩ := decideOrWait_kept rule oper
            (hp.choose hmem hmap hl (Or.inr hb) s.mjCancelMgr)
            (PlayerGrabMgr.opers_playerDoGrab_ne_nil hmem)
          refine ⟨s', hs', hk, fun h => absurd ⟨hmem, ?_⟩ h⟩
          cases oper <;> first | exact absurd rfl hoper | exact absurd rfl hcancel |
            exact ⟨b, map, l, rfl, hmap, hl, hb⟩
        · rw [if_neg hb]
          exact ⟨s, rfl, .playing hp, fun _ => rfl⟩
  · right
    have hhas := PlayerGrabMgr.hasOper_eq_false hmem
    exact ⟨fun _ _ => hmem, s, by simp [hhas], .playing hp, fun _ => rfl⟩

/-- `onPlayCard` on a playing state. -/
lemma onPlayCard_spec (rule : RoomRuleMap) (pos : Seat) (hp : Playing W s) (card : Option ℕ) :
    (card = none ∧ onPlayCard rule s pos card = .error s) ∨
    (card ≠ none ∧ ∃ s', onPlayCard rule s pos card = .ok s' ∧ Kept W s' ∧
      (¬Offered s pos .play card → s' = s)) := by
  cases card with
  | none => exact Or.inl ⟨rfl, rfl⟩
  | some b =>
    refine Or.inr ⟨by simp, ?_⟩
    simp only [onPlayCard]
    by_cases hmem : .play ∈ s.playerGrabMgr.canGrabMgr.opers pos
    · simp only [PlayerGrabMgr.hasOper_iff.mpr hmem, Bool.not_true, Bool.false_eq_true, if_false]
      rcases hp.phase with ⟨t, ht⟩ | ⟨t, c, hc⟩
      · obtain rfl : pos = t := ht.opers pos _ hmem
        rcases MJPlayer.doPlayCard_sound (b := b) (hp.sound pos) ((ht.newCard pos).mpr rfl) with
          ⟨-, hdo⟩ | ⟨hb, hv, q, hdo, hs, htiles, hq, -⟩
        · simp only [hdo, Bool.not_false, if_true]
          exact ⟨s, rfl, .playing hp, fun _ => rfl⟩
        · simp only [hdo, Bool.not_true, Bool.false_eq_true, if_false, checkOtherOper_eq (Or.inl rfl)]
          exact ⟨_, rfl, playTile_kept rule _ hp ht hv hs htiles hq,
            fun h => absurd ⟨hmem, b, rfl, hb⟩ h⟩
      · obtain ⟨_, _, _, hoff⟩ := hc.offers pos (hc.opers pos _ hmem)
        obtain ⟨_, _, hdo⟩ := hoff _ hmem
        exact absurd rfl (hdo (by decide)).2.1.mem_operLevel.2
    · have hhas := PlayerGrabMgr.hasOper_eq_false hmem
      simp only [hhas, Bool.not_false, if_true]
      exact ⟨s, rfl, .playing hp, fun _ => rfl⟩

/-- The message makes the handler stop: it has no tile, and plays a tile or chooses an offered
operation that needs one. -/
def Stops (s : Table) (pos : Seat) (pkg : ClientMsg) : Prop :=
  fromOld2NowCardByteMap pkg.card_bytes = none ∧
    (Oper.ofCode pkg.operation = some .play ∨
      ∃ oper, Oper.ofCode pkg.operation = some oper ∧ oper ≠ .cancel ∧
        oper ∈ s.playerGrabMgr.canGrabMgr.opers pos)

/-- The operation of a message, with its tile, is offered to the seat. -/
def OfferedMsg (s : Table) (pos : Seat) (pkg : ClientMsg) : Prop :=
  ∃ oper, Oper.ofCode pkg.operation = some oper ∧
    Offered s pos oper (fromOld2NowCardByteMap pkg.card_bytes)

/-- A message on a playing state: it stops the handler before anything is changed, or it is handled
to the end, and only an offered operation changes anything. -/
lemma onClientMsg_spec (hp : Playing W s) (pkg : ClientMsg) (hnt : NoTest s (pos, pkg)) :
    (Stops s pos pkg ∧ onClientMsg rule s pos pkg = .error s) ∨
    (¬Stops s pos pkg ∧ ∃ s', onClientMsg rule s pos pkg = .ok s' ∧ Kept W s' ∧
      (¬OfferedMsg s pos pkg → s' = s)) := by
  have hopen : ∀ o, o ∈ s.playerGrabMgr.canGrabMgr.opers pos → o ∈ operLevel := fun o ho =>
    hp.valid.can.drawn pos o ho
  unfold onClientMsg Stops OfferedMsg
  unfold NoTest at hnt
  cases hop : Oper.ofCode pkg.operation with
  | none => exact Or.inr ⟨by simp, s, rfl, .playing hp, fun _ => rfl⟩
  | some oper =>
    by_cases hplay : oper = .play
    · subst hplay
      rcases onPlayCard_spec rule pos hp
        (fromOld2NowCardByteMap pkg.card_bytes) with ⟨hcard, herr⟩ | ⟨hcard, s', hs', hk, hsame⟩
      · exact Or.inl ⟨⟨hcard, Or.inl rfl⟩, herr⟩
      · refine Or.inr ⟨fun h => hcard h.1, s', hs', hk, fun h => hsame fun hoff => h ⟨_, rfl, hoff⟩⟩
    by_cases hsync : oper = .syncData
    · subst hsync
      refine Or.inr ⟨?_, s, rfl, .playing hp, fun _ => rfl⟩
      rintro ⟨-, h | ⟨o, ho, -, hmem⟩⟩
      · simp at h
      · obtain rfl := Option.some.inj ho
        exact absurd (hopen _ hmem) (by decide)
    · have hgrab : onClientMsg rule s pos pkg = onGrabCard rule s pos oper
          (fromOld2NowCardByteMap pkg.card_bytes) := by
        rw [hop] at hnt
        unfold onClientMsg
        rw [hop]
        cases oper <;> first | rfl | exact absurd rfl hplay | exact absurd rfl hsync |
          exact absurd rfl hnt
      unfold onClientMsg at hgrab
      rw [hop] at hgrab
      rw [hgrab]
      rcases onGrabCard_spec rule pos hp
        (fromOld2NowCardByteMap pkg.card_bytes) hplay with
        ⟨hcard, hcancel, hmem, herr⟩ | ⟨hno, s', hs', hk, hsame⟩
      · exact Or.inl ⟨⟨hcard, Or.inr ⟨oper, rfl, hcancel, hmem⟩⟩, herr⟩
      · refine Or.inr ⟨?_, s', hs', hk, fun h => hsame fun hoff => h ⟨_, rfl, hoff⟩⟩
        rintro ⟨hcard, h | ⟨o, ho, hcancel, hmem⟩⟩
        · exact hplay (Option.some.inj h)
        · obtain rfl := Option.some.inj ho
          exact hno hcard hcancel hmem

end Messages

/-! ### The deal -/

section Dealing

/-- Every tile of the wall is a suit tile or `Zi5`. -/
lemma wallTiles_valid : ∀ c ∈ wallTiles,
    MJCard.isValid c = true ∧ c ≤ Zi7 ∧ (c < Zi1 ∨ Zi4 < c) := by
  decide

lemma Deal.legal (d : Deal) : ∀ c ∈ d.wall, MJCard.isValid c = true ∧ c ≤ Zi7 := fun c hc =>
  ⟨(wallTiles_valid c (d.perm.subset hc)).1, (wallTiles_valid c (d.perm.subset hc)).2.1⟩

lemma Deal.valid (d : Deal) : ∀ c ∈ d.wall, MJCard.isValid c = true := fun c hc => (d.legal c hc).1

/-- After the deal the banker has the turn. -/
lemma start_playing (d : Deal) : Playing ↑d.wall (start d) := by
  have hlen : d.wall.length = 112 := d.perm.length_eq
  obtain ⟨htiles, hsound, hnew, hjust, -⟩ :=
    dealHandCards_spec d.banker (by rw [hlen]; decide) d.valid
  unfold start onEntry
  refine checkMyOper_playing ⟨fun c hc => d.legal c hc, ?_, hsound, d.noTest⟩ rfl rfl hnew
    fun _ => ?_
  · rw [← htiles]
    simp only [Table.tiles, Multiset.coe_nil, Finset.sum_const_zero, add_zero]
    abel
  · simp only [Table.bZiMo, (hnew d.banker).mpr rfl, hjust]
    rfl

end Dealing

/-! ### Every run -/

section Runs

variable {d : Deal} {s : Table}

/-- Every reachable state is kept. -/
lemma Reachable.kept (hs : Reachable d s) : Kept ↑d.wall s := by
  refine Runs.Reaches.invariant hs (.playing (start_playing d)) ?_
  intro s e s' hkept hok hstep
  unfold step at hstep
  split_ifs at hstep with hover
  obtain rfl := Option.some.inj hstep
  cases hkept with
  | ended a ha _ => simp [ha] at hover
  | playing hp =>
    rcases onClientMsg_spec hp e.2 hok with ⟨-, herr⟩ | ⟨-, s', hs', hk, -⟩
    · rw [herr]
      exact .playing hp
    · rw [hs']
      exact hk

/-- A reachable state in which the round goes on. -/
lemma Reachable.playing (hs : Reachable d s) (hgo : s.endArgs = none) : Playing ↑d.wall s := by
  cases hs.kept with
  | playing hp => exact hp
  | ended a ha _ => simp [ha] at hgo

/-- **Tile conservation.** From the deal until the round ends, whatever the clients send, the tiles
of the wall, the hands, the new tiles, the piles, the rivers and the flowers are together those of
the wall at the beginning; every hand has thirteen tiles, each pile counted as three, and at most
one seat has a new tile.

**Proof sketch.** The round is in one of two phases: a seat with a new tile has the turn, or the
others may claim its tile. In each phase the recorded choices are possible with the tiles the seat
has (`Turn.chosen`, `Claim.chosen`), so that the operations of the players succeed and move exactly
the tiles they claim to move (`grabEnd_kept`, `playTile_kept`). -/
theorem tiles_conserved (d : Deal) (s : Table) (hs : Reachable d s) (hgo : s.endArgs = none) :
    s.tiles = ↑d.wall ∧
      (∀ p, (s.playerList p).cardList.length + 3 * (s.playerList p).pileList.length = 13) ∧
      ∀ p q, (s.playerList p).hasNewCard = true → (s.playerList q).hasNewCard = true → p = q := by
  have hp := hs.playing hgo
  refine ⟨hp.tiles, fun p => (hp.sound p).size, fun p q hnp hnq => ?_⟩
  rcases hp.phase with ⟨t, ht⟩ | ⟨t, b, hc⟩
  · exact ((ht.newCard p).mp hnp).trans ((ht.newCard q).mp hnq).symm
  · simp [hc.newCard p] at hnp

/-- The tiles while the added kong of `robbedKong` can be robbed. -/
theorem robbedKong_conserved : ∃ s, Runs.exec (step robbedKong.rule) NoTest (start robbedKong)
      (robbedMsgs.take 7) = some s ∧ s.isQiangGanging = true ∧ s.tiles = ↑robbedKong.wall ∧
      (∀ p, (s.playerList p).cardList.length + 3 * (s.playerList p).pileList.length = 13) ∧
      ∀ p q, (s.playerList p).hasNewCard = true → (s.playerList q).hasNewCard = true → p = q := by
  have hrun : ((Runs.exec (step robbedKong.rule) NoTest (start robbedKong)
      (robbedMsgs.take 7)).any fun s => s.isQiangGanging && s.endArgs.isNone) = true := by
    decide +kernel
  obtain ⟨s, hs, hrob⟩ := (Option.any_eq_true _ _).mp hrun
  rw [Bool.and_eq_true, Option.isNone_iff_eq_none] at hrob
  have hreach : Reachable robbedKong s := Runs.reaches_of_exec (robbedMsgs.take 7) .init hs
  obtain ⟨htiles, hsize, hnew⟩ := tiles_conserved robbedKong s hreach hrob.2
  exact ⟨s, hs, hrob.1, htiles, hsize, hnew⟩

end Runs

end Hongzhong
