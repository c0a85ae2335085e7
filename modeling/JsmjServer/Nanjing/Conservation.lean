import JsmjServer.Nanjing.GamePlaying
import JsmjServer.Mahjong.Deal
import JsmjServer.Mahjong.Winners
import Mathlib.Algebra.Order.BigOperators.Group.Finset

set_option relaxedAutoImplicit false
set_option autoImplicit false

/-!
# The tiles of a round of nanjing mahjong

A drawn flower is exchanged by a timer. Until the timer fires the offers stand as they were, and a
seat that has drawn the flower after a concealed kong may still play a tile. When it plays another
tile than the flower, the flower enters the hand; the timer then puts it aside without taking it out
of the hand and gives the seat a tile out of turn. In runs without such plays the tiles stay
together, whatever the clients send and whenever the timers fire.

## Main definitions

* `Nanjing.Hands.Turn`, `Nanjing.Hands.Claim`, `Nanjing.Hands.Stuck` — the phases of a round.
* `Nanjing.Hands.Kept` — the invariant.
* `Nanjing.KeepsFlowers` — the condition on the events of a run.

## Main results

* `Nanjing.Hands.giveNewCard_kept`, `Nanjing.Hands.onPlayCard_kept`,
  `Nanjing.Hands.grabEnd_kept` — one move keeps the invariant.
* `Nanjing.tiles_kept` — every run.
-/

namespace Nanjing

open Mahjong

namespace Hands

/-! ### Offers -/

section Offers

variable {countHuType : CountHuType} {gameProgress : GameProgress} {player : MJPlayer} {s : Table}
  {t pos : Seat} {b : ℕ} {o : Oper} {l : List ℕ} {bGrabGang checkOp : Bool}

/-- The offers to the seat whose turn it is, with their tiles. -/
lemma mem_myOffers (h : (o, l) ∈ myOffers countHuType player checkOp) :
    (o = .play ∧ l = []) ∨ (o = .cancel ∧ l = []) ∨ (o = .hu ∧ l = [player.newCard]) ∨
      (o = .ag ∧ l = player.getAnGangCardListWithDa []) ∨
      (o = .mxg ∧ l = player.getMXGangCardList) := by
  have hoffers : ∀ {offers : List (Oper × List ℕ)}, (o, l) ∈
      (if selfHu countHuType player then offers else withCancel offers) →
      (o, l) ∈ offers ∨ (o = .cancel ∧ l = []) := by
    intro offers hx
    split_ifs at hx
    · exact Or.inl hx
    · exact (mem_withCancel hx).imp_right fun h => by simpa using h
  rw [myOffers, List.mem_cons] at h
  rcases h with h | h
  · exact Or.inl (by simpa using h)
  rcases hoffers h with h | h
  · simp only [List.mem_append] at h
    rcases h with (h | h) | h <;> split_ifs at h <;>
      simp only [List.not_mem_nil, List.mem_singleton, Prod.mk.injEq] at h
    · exact Or.inr (Or.inr (Or.inl h))
    · exact Or.inr (Or.inr (Or.inr (Or.inl h)))
    · exact Or.inr (Or.inr (Or.inr (Or.inr h)))
  · exact Or.inr (Or.inl h)

/-- A claim on the tile `b`: to win, or kong or peng from the hand on a discarded tile. -/
def MayClaim (player : MJPlayer) (b : ℕ) (bGrabGang : Bool) (o : Oper) : Prop :=
  o = .hu ∨ (o = .mg ∧ bGrabGang = false ∧ player.canGang b = true) ∨
    (o = .peng ∧ bGrabGang = false ∧ player.canPeng b = true)

/-- The claims allowed to another seat, with their tiles. -/
lemma mem_claims (h : (o, l) ∈ claims gameProgress s t pos b bGrabGang) :
    l = [b] ∧ MayClaim (s.playerList pos) b bGrabGang o := by
  simp only [claims, List.mem_append] at h
  rcases h with (h | h) | h <;> split_ifs at h with hc <;>
    simp only [List.not_mem_nil, List.mem_singleton, Prod.mk.injEq] at h
  · exact ⟨h.2, Or.inl h.1⟩
  · simp only [Bool.and_eq_true, Bool.not_eq_true'] at hc
    exact ⟨h.2, Or.inr (Or.inl ⟨h.1, hc.1, hc.2⟩)⟩
  · simp only [Bool.and_eq_true, Bool.not_eq_true'] at hc
    exact ⟨h.2, Or.inr (Or.inr ⟨h.1, hc.1.1, hc.2⟩)⟩

/-- Every claim is stronger than a kong, or one, and so stronger than to cancel. -/
lemma MayClaim.level_le (h : MayClaim player b bGrabGang o) : level o ≤ level .mg := by
  rcases h with rfl | ⟨rfl, -⟩ | ⟨rfl, -⟩ <;> decide

lemma MayClaim.mem_operLevel (h : MayClaim player b bGrabGang o) : o ∈ operLevel ∧ o ≠ .play := by
  rcases h with rfl | ⟨rfl, -⟩ | ⟨rfl, -⟩ <;> decide

end Offers

/-! ### The phases of a round -/

/-- An operation other than playing a tile that the seat `t` with the new tile may do with the
tile `c`. -/
def MayDo (s : Table) (t : Seat) (o : Oper) (c : ℕ) : Prop :=
  o = .hu ∨ (o = .ag ∧ 4 ≤ (s.playerList t).getCardCountInHand c true) ∨
  (o = .mxg ∧ c ∈ (s.playerList t).newCard :: (s.playerList t).cardList ∧
    ∃ v ∈ (s.playerList t).pileList, MJPlayer.isPengOf c v = true)

/-- The seat `t` has the new tile. With a flower it waits for the timer and may at most play; else
it is to play or to do something with its tiles. -/
structure Turn (s : Table) (t : Seat) : Prop where
  pos : s.playerGrabMgr.pos = some t
  newCard : ∀ p, (s.playerList p).hasNewCard = true ↔ p = t
  quiet : s.isQiangGanging = false
  opers : ∀ p, ∀ o ∈ s.playerGrabMgr.canGrabMgr.opers p, p = t
  waiting : (s.playerList t).newCard ∈ huaList →
    ∀ o ∈ s.playerGrabMgr.canGrabMgr.opers t, o = .play
  play : (s.playerList t).newCard ∉ huaList → .play ∈ s.playerGrabMgr.canGrabMgr.opers t
  offers : (s.playerList t).newCard ∉ huaList → ∀ o ∈ s.playerGrabMgr.canGrabMgr.opers t,
    o ≠ .cancel → ∀ map l, s.playerCanDoMap t = some map → map.cards o = some l →
      ∀ c ∈ l, MayDo s t o c
  chosen : (s.playerList t).newCard ∉ huaList →
    s.playerGrabMgr.Chosen fun p o c => p = t ∧ (o = .cancel ∨ MayDo s t o c)
  free : s.playerGrabMgr.doneGrabMgr.opers t ≠ [] →
    ∀ o ∈ s.playerGrabMgr.canGrabMgr.opers t, o = .play

/-- The other seats may claim the tile `b` of the seat `t`: its last discard, or the tile of its
added kong. -/
structure Claim (s : Table) (t : Seat) (b : ℕ) : Prop where
  pos : s.playerGrabMgr.pos = some t
  valid : MJCard.isValid b = true
  newCard : ∀ p, (s.playerList p).hasNewCard = false
  opers : ∀ p, ∀ o ∈ s.playerGrabMgr.canGrabMgr.opers p,
    o = .cancel ∨ MayClaim (s.playerList p) b s.isQiangGanging o
  full : ∀ p, s.playerGrabMgr.canGrabMgr.opers p ≠ [] →
    ∃ o ∈ s.playerGrabMgr.canGrabMgr.opers p, o ≠ .cancel
  offers : ∀ p, ∀ o ∈ s.playerGrabMgr.canGrabMgr.opers p, o ≠ .cancel →
    ∀ map l, s.playerCanDoMap p = some map → map.cards o = some l → l = [b]
  chosen : s.playerGrabMgr.Chosen fun p o c =>
    o = .cancel ∨ c = b ∧ MayClaim (s.playerList p) b s.isQiangGanging o
  river : s.isQiangGanging = false → ∃ l, s.riverCardList t = l ++ [b]
  robbed : s.isQiangGanging = true → s.qiangGangInfo = some t

/-- A fine has stopped with an error: nobody has a new tile, and nothing can be done any more. -/
structure Stuck (s : Table) : Prop where
  newCard : ∀ p, (s.playerList p).hasNewCard = false
  opers : ∀ p, ∀ o ∈ s.playerGrabMgr.canGrabMgr.opers p, o = .play

/-- The tiles `W` of the round are all at the table, those of each player fit together, and no hand
has a flower, unless as the new tile. -/
structure Balanced (W : Multiset ℕ) (s : Table) : Prop where
  legal : ∀ c ∈ W, MJCard.isValid c = true ∧ (c ≤ Zi4 ∨ c ∈ huaList)
  tiles : s.tiles = W
  sound : ∀ p, (s.playerList p).Sound
  noTest : ∀ p, s.testPlayerNeedCard p = none
  flowers : ∀ p, ∀ c ∈ (s.playerList p).cardList, c ∉ huaList

/-- What every state of a run keeps. -/
structure Kept (W : Multiset ℕ) (s : Table) : Prop extends Balanced W s where
  oneNew : ∀ p q, (s.playerList p).hasNewCard = true → (s.playerList q).hasNewCard = true → p = q
  phase : s.endArgs = none → s.playerGrabMgr.Valid ∧
    ((∃ t, Turn s t) ∨ (∃ t b, Claim s t b) ∨ Stuck s)

/-- Between two turns: nobody has a new tile and no kong is being robbed, and at most the seat that
draws next has an offer, to play. -/
structure Idle (W : Multiset ℕ) (s : Table) (t : Seat) : Prop extends Balanced W s where
  newCard : ∀ p, (s.playerList p).hasNewCard = false
  quiet : s.isQiangGanging = false
  valid : s.playerGrabMgr.Valid
  closed : ∀ p, ∀ o ∈ s.playerGrabMgr.canGrabMgr.opers p, p = t ∧ o = .play

/-! ### Ends and draws -/

section Draw

variable (gameProgress : GameProgress) {W : Multiset ℕ} {s : Table} {t p : Seat} {b : ℕ}

/-- States with the same tiles. -/
lemma Balanced.of_same {s' : Table} (h : Balanced W s) (hwall : s'.mjWall = s.mjWall)
    (hplayers : s'.playerList = s.playerList) (hrivers : s'.riverCardList = s.riverCardList)
    (htest : s'.testPlayerNeedCard = s.testPlayerNeedCard) : Balanced W s' := by
  refine ⟨h.legal, ?_, fun p => ?_, fun p => ?_, fun p => ?_⟩
  · rw [← h.tiles]
    simp only [Table.tiles, hwall, hplayers, hrivers]
  · rw [hplayers]
    exact h.sound p
  · rw [htest]
    exact h.noTest p
  · rw [hplayers]
    exact h.flowers p

/-- The round is over; the tiles are where they were. -/
lemma Balanced.ended {s' : Table} (h : Balanced W s') (hover : s'.endArgs ≠ none)
    (hone : ∀ p q, (s'.playerList p).hasNewCard = true → (s'.playerList q).hasNewCard = true →
      p = q) : Kept W s' :=
  ⟨h, hone, fun hgo => absurd hgo hover⟩

lemma oneNew_of_none (h : ∀ p, (s.playerList p).hasNewCard = false) :
    ∀ p q, (s.playerList p).hasNewCard = true → (s.playerList q).hasNewCard = true → p = q := by
  intro p q hp
  simp [h p] at hp

lemma oneNew_of_iff (h : ∀ p, (s.playerList p).hasNewCard = true ↔ p = t) :
    ∀ p q, (s.playerList p).hasNewCard = true → (s.playerList q).hasNewCard = true → p = q :=
  fun p q hp hq => ((h p).mp hp).trans ((h q).mp hq).symm

/-- The offers of `checkMyOper` to a seat with a new tile that is no flower. -/
lemma checkMyOper_kept (hb : Balanced W s) (hq : s.isQiangGanging = false)
    (hnew : ∀ p, (s.playerList p).hasNewCard = true ↔ p = t)
    (hhua : (s.playerList t).newCard ∉ huaList) (checkOp : Bool) :
    Kept W (checkMyOper gameProgress s t checkOp) := by
  have hn : (s.playerList t).hasNewCard = true := (hnew t).mpr rfl
  have hn' : ¬((clearAllCanDoMap s).playerList t).hasNewCard = false := by
    show ¬(s.playerList t).hasNewCard = false
    simp [hn]
  unfold checkMyOper
  dsimp only
  rw [if_neg hn']
  split_ifs with hauto
  · -- an automatic win
    refine Balanced.ended ?_ (by simp [doHu, Table.gotoNextState]) (oneNew_of_iff hnew)
    exact hb.of_same rfl rfl rfl rfl
  set offers := myOffers (gameProgress.countHuType t none) (s.playerList t) checkOp with hoffers
  have hopers : ∀ p, ((s.playerGrabMgr.clear.addCanDoItem t (offers.map Prod.fst)).setPos
      t).canGrabMgr.opers p = if p = t then sortOpers (offers.map Prod.fst) else [] := by
    intro p
    simp [PlayerGrabMgr.setPos, PlayerGrabMgr.addCanDoItem, PlayerGrabMgr.clear]
  have hlevel : ∀ o ∈ offers.map Prod.fst, o ∈ operLevel := by
    intro o ho
    obtain ⟨⟨o, l⟩, hmem, rfl⟩ := List.mem_map.mp ho
    rcases mem_myOffers hmem with ⟨rfl, -⟩ | ⟨rfl, -⟩ | ⟨rfl, -⟩ | ⟨rfl, -⟩ | ⟨rfl, -⟩ <;>
      simp [operLevel]
  refine ⟨hb.of_same rfl rfl rfl rfl, oneNew_of_iff hnew, fun _ => ⟨?_, Or.inl ⟨t, ?_⟩⟩⟩
  · exact (PlayerGrabMgr.valid_clear.addCanDoItem hlevel).setPos
  refine ⟨rfl, hnew, hq, fun p o ho => ?_, fun h => absurd h hhua, fun _ => ?_,
    fun _ o ho hne map l hmap hl c hc => ?_, fun _ => PlayerGrabMgr.chosen_clear, fun hdone => ?_⟩
  · by_contra hp
    have hnil := hopers p
    rw [if_neg hp] at hnil
    change o ∈ ((s.playerGrabMgr.clear.addCanDoItem t (offers.map Prod.fst)).setPos
      t).canGrabMgr.opers p at ho
    simp [hnil] at ho
  · show .play ∈ ((s.playerGrabMgr.clear.addCanDoItem t (offers.map Prod.fst)).setPos
      t).canGrabMgr.opers t
    rw [hopers, if_pos rfl, PlayerGrabMgr.Round.mem_sortOpers]
    simp [hoffers, myOffers]
  · have hmap' : map = .ofOffers offers := by
      change Function.update (clearAllCanDoMap s).playerCanDoMap t
        (some (CanDoMap.ofOffers offers)) t = some map at hmap
      rw [Function.update_self] at hmap
      exact (Option.some.inj hmap).symm
    rw [hmap'] at hl
    rcases mem_myOffers (CanDoMap.mem_of_cards_ofOffers hl) with
      ⟨-, rfl⟩ | ⟨h, -⟩ | ⟨rfl, -⟩ | ⟨rfl, rfl⟩ | ⟨rfl, rfl⟩
    · simp at hc
    · exact absurd h hne
    · exact Or.inl rfl
    · exact Or.inr (Or.inl ⟨rfl, (MJPlayer.count_of_mem_getAnGangCardListWithDa hc).ge⟩)
    · exact Or.inr (Or.inr ⟨rfl, MJPlayer.mem_of_mem_getMXGangCardList hc⟩)
  · refine absurd ?_ hdone
    simp [Table.setCanDoMap, PlayerGrabMgr.setPos, PlayerGrabMgr.addCanDoItem, PlayerGrabMgr.clear]

/-- The next tile of the wall goes to the seat: a flower waits for the timer, with any other tile
it is the seat's turn. Without a tile the round is drawn. -/
lemma giveNewCard_kept (hi : Idle W s t) : Kept W (giveNewCard gameProgress s t) := by
  have hdrawn : Kept W (s.gotoNextState .liuJu) := by
    refine Balanced.ended ?_ (by simp [Table.gotoNextState]) (oneNew_of_none hi.newCard)
    exact hi.toBalanced.of_same rfl rfl rfl rfl
  unfold giveNewCard takeCard
  rw [hi.noTest t]
  split_ifs
  · exact hdrawn
  cases hwall : s.mjWall with
  | nil => exact hdrawn
  | cons c wall =>
    simp only [getFrontCard, Option.map_some]
    have hvalid : MJCard.isValid c = true := by
      refine (hi.legal c ?_).1
      rw [← hi.tiles]
      exact Table.mem_tiles_of_wall (by simp [hwall])
    obtain ⟨hsound, htiles, hnew, -⟩ :=
      MJPlayer.addNewCard_sound (hi.sound t) (hi.newCard t) hvalid
    set player : MJPlayer := { (s.playerList t).addNewCard c with justDoOper := .newCard }
      with hplayer
    have hfields : player.cardList = (s.playerList t).cardList ∧ player.newCard = c := by
      rw [hplayer, MJPlayer.addNewCard_eq hvalid]
      exact ⟨rfl, rfl⟩
    have hsound' : player.Sound := ⟨hsound.size, hsound.formed, hsound.valid⟩
    set s₁ : Table := { s with
      mjWall := wall
      playerGrabMgr := s.playerGrabMgr.setPos t
      mjCancelMgr := s.mjCancelMgr.clearSeat t } with hs₁
    have hwalltiles : s.tiles = c ::ₘ s₁.tiles := by
      simp only [Table.tiles, hs₁, hwall, ← Multiset.cons_coe, Multiset.cons_add]
    have hadd : (s₁.setPlayer t player).tiles = c ::ₘ s₁.tiles := Table.tiles_setPlayer_add htiles
    have hat : (s₁.setPlayer t player).playerList t = player := by
      rw [Table.playerList_setPlayer, if_pos rfl]
    have hbal : Balanced W (s₁.setPlayer t player) := by
      refine ⟨hi.legal, ?_, fun p => ?_, hi.noTest, fun p => ?_⟩
      · rw [hadd, ← hwalltiles]
        exact hi.tiles
      · rw [Table.playerList_setPlayer]
        split_ifs
        · exact hsound'
        · exact hi.sound p
      · rw [Table.playerList_setPlayer]
        split_ifs with hp
        · rw [hfields.1]
          exact hi.flowers t
        · exact hi.flowers p
    have hiff : ∀ p, ((s₁.setPlayer t player).playerList p).hasNewCard = true ↔ p = t := by
      intro p
      rw [Table.playerList_setPlayer]
      by_cases hp : p = t
      · simp only [hp, if_true, iff_true]
        exact hnew
      · simp [hp, hs₁, hi.newCard p]
    have hhas : player.hasHua huaList = true ↔ player.newCard ∈ huaList :=
      MJPlayer.hasHua_iff (hfields.1 ▸ hi.flowers t)
    split_ifs with hhua
    · refine ⟨hbal.of_same rfl rfl rfl rfl, oneNew_of_iff hiff, fun _ => ⟨hi.valid.setPos,
        Or.inl ⟨t, rfl, hiff, hi.quiet, fun p o ho => (hi.closed p o ho).1, ?_, ?_, ?_, ?_,
          fun _ o ho => (hi.closed t o ho).2⟩⟩⟩
      · exact fun _ o ho => (hi.closed t o ho).2
      all_goals
        intro hnot
        refine absurd (hhas.mp hhua) ?_
        change (((s₁.setPlayer t player).playerList t).newCard ∉ huaList) at hnot
        rwa [hat] at hnot
    · refine checkMyOper_kept gameProgress hbal hi.quiet hiff ?_ true
      rw [hat]
      exact fun hmem => hhua (hhas.mpr hmem)

lemma kCardNull_notMem_huaList : kCardNull ∉ huaList := by decide

/-- A seat that holds a flower has the turn. -/
lemma Kept.turn_of_flower (h : Kept W s) (hgo : s.endArgs = none)
    (hhua : (s.playerList p).newCard ∈ huaList) : Turn s p := by
  have hnew := MJPlayer.hasNewCard_of_mem kCardNull_notMem_huaList hhua
  rcases (h.phase hgo).2 with ⟨t, ht⟩ | ⟨t, b, hc⟩ | hs
  · obtain rfl := (ht.newCard p).mp hnew
    exact ht
  · simp [hc.newCard p] at hnew
  · simp [hs.newCard p] at hnew

/-- The exchange of a flower, whenever the timer fires. -/
lemma buHua_kept (h : Kept W s) (hgo : s.endArgs = none) (p : Seat) :
    Kept W (buHua gameProgress s p) := by
  unfold buHua
  dsimp only
  split_ifs with hhas
  · have hhua := (MJPlayer.hasHua_iff (h.flowers p)).mp hhas
    have ht := h.turn_of_flower hgo hhua
    rw [MJPlayer.getHua_eq (h.flowers p) hhua]
    obtain ⟨hsound, htiles, hcards, hnone⟩ := (h.sound p).buHua ((ht.newCard p).mpr rfl)
    set player := (((s.playerList p).addHua (s.playerList p).newCard).delNewCard
      (s.playerList p).newCard).2
    apply giveNewCard_kept
    refine ⟨⟨h.legal, ?_, fun q => ?_, h.noTest, fun q => ?_⟩, fun q => ?_, ht.quiet,
      (h.phase hgo).1, fun q o ho => ?_⟩
    · exact (Table.tiles_setPlayer_same htiles).trans h.tiles
    · rw [Table.playerList_setPlayer]
      split_ifs
      · exact hsound
      · exact h.sound q
    · rw [Table.playerList_setPlayer]
      split_ifs
      · exact hcards ▸ h.flowers p
      · exact h.flowers q
    · rw [Table.playerList_setPlayer]
      split_ifs with hq
      · exact hnone
      · simpa using (ht.newCard q).not.mpr hq
    · obtain rfl := ht.opers q o ho
      exact ⟨rfl, ht.waiting hhua o ho⟩
  · exact h

end Draw

/-! ### Claims on a tile -/

section Claims

variable (gameProgress : GameProgress) {W : Multiset ℕ} {s : Table} {t : Seat} {b : ℕ}
  {bGrabGang : Bool}

/-- The table on which `checkOtherOper` makes its offers. -/
def cleared (s : Table) (t : Seat) : Table :=
  { clearAllCanDoMap s with
    playerGrabMgr := s.playerGrabMgr.clear.setPos t
    multiHuPos := [] }

/-- What `checkOtherOper` leaves: the claims of some of the other seats, of all when it does not
stop. -/
lemma checkOtherOper_cases (s : Table) (t : Seat) (b : ℕ) (bGrabGang : Bool) :
    ∃ l r, l ⊆ [t + 1, t + 2, t + 3] ∧ Table.Offered
        (fun pos => claims gameProgress (cleared s t) t pos b bGrabGang) l (false, cleared s t) r ∧
      (checkOtherOper gameProgress s t b bGrabGang = .error r.2 ∨
        checkOtherOper gameProgress s t b bGrabGang =
          .ok (r.1, autoHuPos gameProgress (cleared s t) t b, r.2)) := by
  have hcheck : checkOtherOper gameProgress s t b bGrabGang =
      ((cleared s t).offerUntil t (canHuStops gameProgress (cleared s t) t b)
        fun pos => claims gameProgress (cleared s t) t pos b bGrabGang).map
        fun r => (r.1, autoHuPos gameProgress (cleared s t) t b, r.2) := rfl
  rw [hcheck, Table.offerUntil]
  refine ⟨[t + 1, t + 2, t + 3].takeWhile fun pos =>
    !canHuStops gameProgress (cleared s t) t b pos, _, List.takeWhile_subset _,
    Table.foldl_offerTo_offered _ _, ?_⟩
  split_ifs
  · exact Or.inl rfl
  · exact Or.inr rfl

/-- For a tile of the count map nothing stops. -/
lemma checkOtherOper_ok (h : b ≤ Zi7) (s' : Table) :
    checkOtherOper gameProgress s t b bGrabGang ≠ .error s' := by
  have hstops : ∀ p, canHuStops gameProgress (cleared s t) t b p = false := by
    intro p
    have hle : decide (Zi7 < b) = false := by simpa using h
    simp [canHuStops, hle]
  have hcheck : checkOtherOper gameProgress s t b bGrabGang =
      ((cleared s t).offerUntil t (canHuStops gameProgress (cleared s t) t b)
        fun pos => claims gameProgress (cleared s t) t pos b bGrabGang).map
        fun r => (r.1, autoHuPos gameProgress (cleared s t) t b, r.2) := rfl
  rw [hcheck, Table.offerUntil_of_not_stops hstops]
  simp [Except.map]

variable {l : List Seat} {r : Bool × Table}

/-- The tiles do not move when offers are made. -/
lemma offered_balanced (hb : Balanced W s)
    (hoff : Table.Offered (fun pos => claims gameProgress (cleared s t) t pos b bGrabGang) l
      (false, cleared s t) r) : Balanced W r.2 := by
  rw [hoff.frame]
  exact hb.of_same rfl rfl rfl rfl

/-- The offers made to the seats `l` on the tile `b` of the seat `t`. -/
lemma offered_claim (hnew : ∀ p, (s.playerList p).hasNewCard = false)
    (hv : MJCard.isValid b = true) (info : Option Seat)
    (hoff : Table.Offered (fun pos => claims gameProgress (cleared s t) t pos b bGrabGang) l
      (false, cleared s t) r)
    (hriver : bGrabGang = false → ∃ l, s.riverCardList t = l ++ [b])
    (hrob : bGrabGang = true → info = some t) :
    r.2.playerGrabMgr.Valid ∧
      Claim { r.2 with isQiangGanging := bGrabGang, qiangGangInfo := info } t b := by
  have hlevel : ∀ p, ∀ x ∈ claims gameProgress (cleared s t) t p b bGrabGang, x.1 ∈ operLevel :=
    fun p x hx => (mem_claims hx).2.mem_operLevel.1
  have hplayers : r.2.playerList = s.playerList := by
    rw [hoff.frame]
    rfl
  have hrivers : r.2.riverCardList = s.riverCardList := by
    rw [hoff.frame]
    rfl
  have hopen : ∀ p, ∀ o ∈ r.2.playerGrabMgr.canGrabMgr.opers p, p ∈ l ∧
      claims gameProgress (cleared s t) t p b bGrabGang ≠ [] ∧
      o ∈ (withCancel (claims gameProgress (cleared s t) t p b bGrabGang)).map Prod.fst := by
    intro p o ho
    rw [hoff.opers] at ho
    split_ifs at ho with h
    · exact ⟨h.1, h.2, PlayerGrabMgr.Round.mem_sortOpers.mp ho⟩
    · simp [cleared, PlayerGrabMgr.setPos, PlayerGrabMgr.clear] at ho
  have hmap : ∀ p ∈ l, r.2.playerCanDoMap p = some (.ofOffers
      (withCancel (claims gameProgress (cleared s t) t p b bGrabGang))) := by
    intro p hp
    rw [hoff.frame]
    exact if_pos hp
  refine ⟨hoff.valid hlevel PlayerGrabMgr.valid_clear.setPos, hoff.pos, hv, ?_, ?_, ?_, ?_, ?_,
    ?_, hrob⟩
  · intro p
    show (r.2.playerList p).hasNewCard = false
    rw [hplayers]
    exact hnew p
  · intro p o ho
    obtain ⟨-, -, hmem⟩ := hopen p o ho
    obtain ⟨⟨o, l'⟩, hmem', rfl⟩ := List.mem_map.mp hmem
    rcases mem_withCancel hmem' with h | h
    · right
      have hclaim := (mem_claims h).2
      show MayClaim (r.2.playerList p) b bGrabGang o
      rw [hplayers]
      exact hclaim
    · exact Or.inl (congrArg Prod.fst h)
  · intro p hne
    obtain ⟨o, ho⟩ := List.exists_mem_of_ne_nil _ hne
    obtain ⟨hl, hclaims, -⟩ := hopen p o ho
    obtain ⟨x, hx⟩ := List.exists_mem_of_ne_nil _ hclaims
    refine ⟨x.1, ?_, ?_⟩
    · show x.1 ∈ r.2.playerGrabMgr.canGrabMgr.opers p
      rw [hoff.opers, if_pos ⟨hl, hclaims⟩, PlayerGrabMgr.Round.mem_sortOpers]
      exact List.mem_map_of_mem (List.mem_append_left _ hx)
    · have hclaim := (mem_claims (o := x.1) (l := x.2) hx).2
      rcases hclaim with h | ⟨h, -⟩ | ⟨h, -⟩ <;> rw [h] <;> decide
  · intro p o ho hne map l' hmap' hl'
    obtain ⟨hl, -, -⟩ := hopen p o ho
    change r.2.playerCanDoMap p = some map at hmap'
    rw [hmap p hl] at hmap'
    obtain rfl := Option.some.inj hmap'
    rcases mem_withCancel (CanDoMap.mem_of_cards_ofOffers hl') with h | h
    · exact (mem_claims h).1
    · exact absurd (congrArg Prod.fst h) hne
  · exact PlayerGrabMgr.chosen_clear.of_done hoff.done
  · intro hq
    show ∃ l, r.2.riverCardList t = l ++ [b]
    rw [hrivers]
    exact hriver hq

/-- Where no seat has a claim, nothing is open. -/
lemma offered_idle {p : Seat} (hi : Idle W s p)
    (hoff : Table.Offered (fun pos => claims gameProgress (cleared s t) t pos b bGrabGang) l
      (false, cleared s t) r) (hr : r.1 = false) (q : Seat) : Idle W r.2 q := by
  have hnone : ∀ p ∈ l, claims gameProgress (cleared s t) t p b bGrabGang = [] := by
    intro p hp
    have hany := hoff.grab.symm.trans hr
    rw [Bool.false_or, List.any_eq_false] at hany
    simpa using hany p hp
  have hopers : ∀ p, r.2.playerGrabMgr.canGrabMgr.opers p = [] := by
    intro p
    rw [hoff.opers, if_neg fun h => h.2 (hnone p h.1)]
    simp [cleared, PlayerGrabMgr.setPos, PlayerGrabMgr.clear]
  have hlevel : ∀ p, ∀ x ∈ claims gameProgress (cleared s t) t p b bGrabGang, x.1 ∈ operLevel :=
    fun p x hx => (mem_claims hx).2.mem_operLevel.1
  refine ⟨offered_balanced gameProgress hi.toBalanced hoff, ?_, ?_,
    hoff.valid hlevel PlayerGrabMgr.valid_clear.setPos, fun p o ho => ?_⟩
  · rw [hoff.frame]
    exact hi.newCard
  · rw [hoff.frame]
    exact hi.quiet
  · simp [hopers p] at ho

/-- A seat that has answered everything, and an automatic win on top. -/
lemma autoHu_kept (hk : Kept W s) (pos : Option Seat) : Kept W (autoHu s pos b) := by
  cases pos with
  | none => exact hk
  | some pos =>
    refine Balanced.ended ?_ (by simp [autoHu, doHu, Table.gotoNextState]) hk.oneNew
    exact hk.toBalanced.of_same rfl rfl rfl rfl

end Claims

/-! ### A played tile -/

section Play

variable (gameProgress : GameProgress) {W : Multiset ℕ} {s : Table} {t : Seat} {b : ℕ}

/-- The claims on a tile that has just been discarded, and the draw when there are none. -/
lemma checkOtherOper_discard_kept (hi : Idle W s t) (hv : MJCard.isValid b = true)
    (hriver : ∃ l, s.riverCardList t = l ++ [b]) :
    Kept W (Handled.state ((checkOtherOper gameProgress s t b false).map fun c =>
      if !c.1 then giveNewCard gameProgress c.2.2 (nextPlayerPos t)
      else autoHu c.2.2 c.2.1 b)) := by
  obtain ⟨l, r, -, hoff, hcases⟩ := checkOtherOper_cases gameProgress s t b false
  have hkept : Kept W r.2 := by
    obtain ⟨hvalid, hclaim⟩ := offered_claim gameProgress hi.newCard hv r.2.qiangGangInfo hoff
      (fun _ => hriver) (by simp)
    have hquiet : r.2.isQiangGanging = false := by
      rw [hoff.frame]
      exact hi.quiet
    have heta : { r.2 with isQiangGanging := false, qiangGangInfo := r.2.qiangGangInfo } =
        r.2 := by
      rw [← hquiet]
    rw [heta] at hclaim
    exact ⟨offered_balanced gameProgress hi.toBalanced hoff, oneNew_of_none hclaim.newCard,
      fun _ => ⟨hvalid, Or.inr (Or.inl ⟨t, b, hclaim⟩)⟩⟩
  rcases hcases with herr | hok
  · rw [herr]
    exact hkept
  · rw [hok]
    show Kept W (if !r.1 then giveNewCard gameProgress r.2 (nextPlayerPos t)
      else autoHu r.2 (autoHuPos gameProgress (cleared s t) t b) b)
    cases hr : r.1 with
    | false =>
      exact giveNewCard_kept gameProgress (offered_idle gameProgress hi hoff hr _)
    | true => exact autoHu_kept hkept _

/-- What `discard` changes. -/
lemma discard_frame (s : Table) (p : Seat) (b : ℕ) (player : MJPlayer) :
    ∃ map, discard s p b player = { s with
      playerList := Function.update s.playerList p player
      riverCardList := Function.update s.riverCardList p (MJRiver.pushCard (s.riverCardList p) b)
      playerGrabMgr := (s.playerGrabMgr.playerDoGrab p .play (some b)).2
      playerCanDoMap := map } := by
  unfold discard clearCanDoMap
  dsimp only
  split_ifs
  · exact ⟨_, rfl⟩
  · exact ⟨_, rfl⟩

/-- Once a tile has been put on the river, nobody has a new tile. -/
lemma discard_idle (h : Kept W s) (hgo : s.endArgs = none) (ht : Turn s t)
    (hplay : .play ∈ s.playerGrabMgr.canGrabMgr.opers t) {q : MJPlayer}
    (hv : MJCard.isValid b = true) (hs : q.Sound)
    (htiles : (s.playerList t).tiles = b ::ₘ q.tiles) (hq : q.hasNewCard = false)
    (hflow : ∀ c ∈ q.cardList, c ∉ huaList) :
    Idle W (discard s t b q) t ∧ ∃ l, (discard s t b q).riverCardList t = l ++ [b] := by
  obtain ⟨map, hdiscard⟩ := discard_frame s t b q
  have hplayers : ∀ p, (discard s t b q).playerList p = if p = t then q else s.playerList p := by
    intro p
    rw [hdiscard]
    exact Function.update_apply _ _ _ _
  have hpush : MJRiver.pushCard (s.riverCardList t) b = s.riverCardList t ++ [b] := if_pos hv
  have hgrab : (discard s t b q).playerGrabMgr =
      (s.playerGrabMgr.playerDoGrab t .play (some b)).2 := by rw [hdiscard]
  refine ⟨⟨⟨h.legal, ?_, fun p => ?_, fun p => ?_, fun p => ?_⟩, fun p => ?_, ?_, ?_,
    fun p o ho => ?_⟩, s.riverCardList t, ?_⟩
  · have hsame := Table.tiles_play hv htiles
    rw [hdiscard]
    exact hsame.trans h.tiles
  · rw [hplayers]
    split_ifs
    · exact hs
    · exact h.sound p
  · rw [hdiscard]
    exact h.noTest p
  · rw [hplayers]
    split_ifs
    · exact hflow
    · exact h.flowers p
  · rw [hplayers]
    split_ifs with hp
    · exact hq
    · simpa using (ht.newCard p).not.mpr hp
  · rw [hdiscard]
    exact ht.quiet
  · rw [hgrab]
    exact (h.phase hgo).1.playerDoGrab _
  · rw [hgrab] at ho
    obtain rfl := ht.opers p o (PlayerGrabMgr.opers_playerDoGrab_subset (some b) ho)
    exact ⟨rfl, PlayerGrabMgr.opers_playerDoGrab_self hplay (some b) o ho⟩
  · rw [hdiscard]
    show Function.update s.riverCardList t (MJRiver.pushCard (s.riverCardList t) b) t = _
    rw [Function.update_self, hpush]

/-- A played tile leaves no flower in the hand, unless a flower was exchanged for it. -/
lemma doPlayCard_flowers (h : Kept W s) (ht : Turn s t)
    (hplay : ((s.playerList t).doPlayCard b).1 = true)
    (hkeep : (s.playerList t).newCard ∈ huaList → b ∈ (s.playerList t).cardList →
      b = (s.playerList t).newCard) :
    ∀ c ∈ ((s.playerList t).doPlayCard b).2.cardList, c ∉ huaList := by
  rcases MJPlayer.doPlayCard_spec (b := b) ((ht.newCard t).mpr rfl) with
    ⟨-, hdo⟩ | ⟨l, hperm, hdo⟩
  · simp [hdo] at hplay
  rw [hdo]
  intro c hc
  by_cases hnew : (s.playerList t).newCard ∈ huaList
  · -- the flower itself is played, as the hand has none
    have hb : b = (s.playerList t).newCard := by
      have hmem : b ∈ (s.playerList t).newCard :: (s.playerList t).cardList :=
        hperm.symm.subset (by simp)
      rcases List.mem_cons.mp hmem with h | h
      · exact h
      · exact hkeep hnew h
    rw [hb, List.perm_cons] at hperm
    exact h.flowers t c (hperm.symm.subset hc)
  · have hmem : c ∈ (s.playerList t).newCard :: (s.playerList t).cardList :=
      hperm.symm.subset (List.mem_cons_of_mem _ hc)
    rcases List.mem_cons.mp hmem with rfl | hmem
    · exact hnew
    · exact h.flowers t c hmem

/-- A play, of a flower only when it is the tile just drawn. -/
lemma onPlayCard_kept (h : Kept W s) (hgo : s.endArgs = none) (p : Seat) (card : Option ℕ)
    (hkeep : ∀ b, card = some b → .play ∈ s.playerGrabMgr.canGrabMgr.opers p →
      (s.playerList p).newCard ∈ huaList → b ∈ (s.playerList p).cardList →
      b = (s.playerList p).newCard) :
    Kept W (onPlayCard gameProgress s p card).state := by
  cases card with
  | none => exact h
  | some b =>
    simp only [onPlayCard]
    by_cases hmem : .play ∈ s.playerGrabMgr.canGrabMgr.opers p
    swap
    · have hhas := PlayerGrabMgr.hasOper_eq_false hmem
      simp only [hhas, Bool.not_false, if_true]
      exact h
    simp only [PlayerGrabMgr.hasOper_iff.mpr hmem, Bool.not_true, Bool.false_eq_true, if_false]
    rcases (h.phase hgo).2 with ⟨t, ht⟩ | ⟨t, c, hc⟩ | hs
    · obtain rfl : p = t := ht.opers p _ hmem
      have hflow := doPlayCard_flowers (b := b) h ht
      rcases MJPlayer.doPlayCard_sound (b := b) (h.sound p) ((ht.newCard p).mpr rfl) with
        ⟨-, hdo⟩ | ⟨hb, hv, q, hdo, hs, htiles, hq, -⟩
      · simp only [hdo, Bool.not_false, if_true]
        exact h
      · rw [hdo] at hflow
        obtain ⟨hidle, hriver⟩ := discard_idle h hgo ht hmem hv hs htiles hq
          (hflow rfl (hkeep b rfl hmem))
        simp only [hdo, Bool.not_true, Bool.false_eq_true, if_false]
        split_ifs
        · -- the fine stops with an error
          exact ⟨hidle.toBalanced, oneNew_of_none hidle.newCard, fun _ => ⟨hidle.valid,
            Or.inr (Or.inr ⟨hidle.newCard, fun p o ho => (hidle.closed p o ho).2⟩)⟩⟩
        · exact checkOtherOper_discard_kept gameProgress hidle hv hriver
    · rcases hc.opers p _ hmem with h | h
      · exact absurd h (by decide)
      · exact absurd rfl h.mem_operLevel.2
    · have hdo : (s.playerList p).doPlayCard b = (false, s.playerList p) :=
        MJPlayer.doPlayCard_of_no_new (hs.newCard p)
      simp only [hdo, Bool.not_false, if_true]
      exact h

end Play

/-! ### The prevailing choice -/

/-- A state in which the choices are to be decided: nobody waits for the exchange of a flower. -/
structure Deciding (W : Multiset ℕ) (s : Table) : Prop extends Balanced W s where
  going : s.endArgs = none
  valid : s.playerGrabMgr.Valid
  phase : (∃ t, Turn s t ∧ (s.playerList t).newCard ∉ huaList) ∨ ∃ t b, Claim s t b

section Moves

variable (gameProgress : GameProgress) {W : Multiset ℕ} {s : Table} {t p : Seat} {b : ℕ}

lemma Deciding.kept (h : Deciding W s) : Kept W s := by
  refine ⟨h.toBalanced, ?_, fun _ => ⟨h.valid, ?_⟩⟩
  · rcases h.phase with ⟨t, ht, -⟩ | ⟨t, b, hc⟩
    · exact oneNew_of_iff ht.newCard
    · exact oneNew_of_none hc.newCard
  · rcases h.phase with ⟨t, ht, -⟩ | ⟨t, b, hc⟩
    · exact Or.inl ⟨t, ht⟩
    · exact Or.inr (Or.inl ⟨t, b, hc⟩)

/-- When a kong or the choice to cancel prevails on a claimed tile, no offer is open. -/
lemma Claim.closed (hc : Claim s t b) {o : Oper} (ho : o = .mg ∨ o = .cancel)
    (hprev : s.playerGrabMgr.Prevails o) (q : Seat) :
    s.playerGrabMgr.canGrabMgr.opers q = [] := by
  by_contra hne
  obtain ⟨o', ho', hcancel⟩ := hc.full q hne
  have hle : level o' ≤ level .mg := ((hc.opers q o' ho').resolve_left hcancel).level_le
  have hlt : level o < level o' := by
    rcases hprev with rfl | hlt
    · rcases ho with h | h <;> exact absurd h (by decide)
    · exact hlt q o' ho'
  have hmg : level .mg ≤ level o := by
    rcases ho with rfl | rfl
    · exact le_rfl
    · decide
  omega

/-- The claims are over, and the seat `q` draws next. -/
lemma Claim.idle (h : Deciding W s) (hc : Claim s t b)
    (hclosed : ∀ q, s.playerGrabMgr.canGrabMgr.opers q = []) (info : Option Seat) (q : Seat) :
    Idle W { s with isQiangGanging := false, qiangGangInfo := info } q := by
  refine ⟨h.toBalanced.of_same rfl rfl rfl rfl, hc.newCard, rfl, h.valid, fun p o ho => ?_⟩
  have hnil : s.playerGrabMgr.canGrabMgr.opers p = [] := hclosed p
  change o ∈ s.playerGrabMgr.canGrabMgr.opers p at ho
  simp [hnil] at ho

/-- The table after the seat `p` has taken the last discard of the seat `t`. -/
lemma take_balanced (hb : Balanced W s) {player : MJPlayer} {l : List ℕ}
    (hriver : s.riverCardList t = l ++ [b]) (hs : player.Sound)
    (htiles : player.tiles = b ::ₘ (s.playerList p).tiles)
    (hsub : player.cardList ⊆ (s.playerList p).cardList) :
    Balanced W ((s.setPlayer p player).setRiver t (MJRiver.popCard (s.riverCardList t))) := by
  refine ⟨hb.legal, ?_, fun q => ?_, hb.noTest, fun q => ?_⟩
  · rw [Table.tiles_take hriver htiles]
    exact hb.tiles
  · show ((s.setPlayer p player).playerList q).Sound
    rw [Table.playerList_setPlayer]
    split_ifs
    · exact hs
    · exact hb.sound q
  · show ∀ c ∈ ((s.setPlayer p player).playerList q).cardList, c ∉ huaList
    rw [Table.playerList_setPlayer]
    split_ifs
    · exact fun c hc => hb.flowers p c (hsub hc)
    · exact hb.flowers q

/-- A hand from which a peng can be made keeps a tile to play. -/
lemma two_lt_length_of_canPeng (hb : Balanced W s) (hpeng : (s.playerList p).canPeng b = true) :
    2 < (s.playerList p).cardList.length := by
  have hcount : 2 ≤ (s.playerList p).cardList.count b := by
    simp only [MJPlayer.canPeng, Bool.and_eq_true, decide_eq_true_eq,
      MJPlayer.getCardCountInHand_false] at hpeng
    exact hpeng.2
  have hle : (s.playerList p).cardList.count b ≤ (s.playerList p).cardList.length :=
    List.count_le_length
  have hsize := (hb.sound p).size
  omega

/-- A peng on a discard gives its seat the turn. -/
lemma doPeng_kept (h : Deciding W s) (hc : Claim s t b) (hq : s.isQiangGanging = false)
    (hpeng : (s.playerList p).canPeng b = true) :
    (doPeng gameProgress s p b t).1 = true ∧ Kept W (doPeng gameProgress s p b t).2 := by
  obtain ⟨hsub, hnewsub⟩ := MJPlayer.doPeng_subset (s.playerList p) b t
  obtain ⟨player, hdo, hs, htiles, hnew, -, -⟩ := MJPlayer.doPeng_sound t (h.sound p) hpeng hc.valid
    (two_lt_length_of_canPeng h.toBalanced hpeng)
  rw [hdo] at hsub hnewsub
  obtain ⟨l, hriver⟩ := hc.river hq
  have hbal := take_balanced h.toBalanced hriver hs htiles hsub
  have hplayer : ((s.setPlayer p player).setRiver t
      (MJRiver.popCard (s.riverCardList t))).playerList p = player := Function.update_self _ _ _
  simp only [doPeng, hdo, if_true, true_and]
  refine checkMyOper_kept gameProgress hbal hq (fun q => ?_) ?_ false
  · show ((s.setPlayer p player).playerList q).hasNewCard = true ↔ q = p
    rw [Table.playerList_setPlayer]
    by_cases hqp : q = p
    · simp [hqp, hnew]
    · simp [hqp, hc.newCard q]
  · rw [hplayer]
    rcases hnewsub rfl with hnull | hmem
    · dsimp only at hnull
      rw [hnull]
      exact kCardNull_notMem_huaList
    · exact h.flowers p _ hmem

/-- A kong on a discard is followed by a draw. -/
lemma doGang_kept (h : Deciding W s) (hc : Claim s t b) (hq : s.isQiangGanging = false)
    (hclosed : ∀ q, s.playerGrabMgr.canGrabMgr.opers q = [])
    (hgang : (s.playerList p).canGang b = true) :
    (doGang gameProgress s p b t).1 = true ∧ Kept W (doGang gameProgress s p b t).2 := by
  have hsub := MJPlayer.doGang_subset (s.playerList p) b t
  obtain ⟨player, hdo, hs, htiles, hnew, -⟩ := MJPlayer.doGang_sound t (h.sound p) hgang hc.valid
  rw [hdo] at hsub
  obtain ⟨l, hriver⟩ := hc.river hq
  have hbal := take_balanced h.toBalanced hriver hs htiles hsub
  simp only [doGang, hdo, if_true, true_and]
  refine giveNewCard_kept gameProgress ⟨hbal, fun q => ?_, hq, h.valid, fun q o ho => ?_⟩
  · show ((s.setPlayer p player).playerList q).hasNewCard = false
    rw [Table.playerList_setPlayer]
    split_ifs
    · exact hnew
    · exact hc.newCard q
  · change o ∈ s.playerGrabMgr.canGrabMgr.opers q at ho
    simp [hclosed q] at ho

/-- The table after the seat whose turn it is has used up its new tile, which is no flower. -/
lemma use_idle (h : Deciding W s) (ht : Turn s t) (hhua : (s.playerList t).newCard ∉ huaList)
    (hdone : s.playerGrabMgr.doneGrabMgr.opers t ≠ []) {player : MJPlayer} (hs : player.Sound)
    (htiles : player.tiles = (s.playerList t).tiles) (hnew : player.hasNewCard = false)
    (hsub : player.cardList ⊆ (s.playerList t).newCard :: (s.playerList t).cardList) :
    Idle W (s.setPlayer t player) t := by
  refine ⟨⟨h.legal, ?_, fun q => ?_, h.noTest, fun q => ?_⟩, fun q => ?_, ht.quiet, h.valid,
    fun q o ho => ?_⟩
  · rw [Table.tiles_setPlayer_same htiles]
    exact h.tiles
  · rw [Table.playerList_setPlayer]
    split_ifs
    · exact hs
    · exact h.sound q
  · rw [Table.playerList_setPlayer]
    split_ifs
    · intro c hc
      rcases List.mem_cons.mp (hsub hc) with rfl | hmem
      · exact hhua
      · exact h.flowers t c hmem
    · exact h.flowers q
  · rw [Table.playerList_setPlayer]
    split_ifs with hq
    · exact hnew
    · simpa using (ht.newCard q).not.mpr hq
  · obtain rfl := ht.opers q o ho
    exact ⟨rfl, ht.free hdone o ho⟩

/-- A concealed kong is followed by a draw. -/
lemma doAnGang_kept (h : Deciding W s) (ht : Turn s t)
    (hhua : (s.playerList t).newCard ∉ huaList)
    (hdone : s.playerGrabMgr.doneGrabMgr.opers t ≠ []) (pos : Seat)
    (hc : 4 ≤ (s.playerList t).getCardCountInHand b true) :
    Kept W (doAnGang gameProgress s t b pos) := by
  have hsub := MJPlayer.doAnGang_subset (s.playerList t) b pos
  obtain ⟨player, hdo, hs, htiles, hnew, -⟩ :=
    MJPlayer.doAnGang_sound pos (h.sound t) ((ht.newCard t).mpr rfl) hc
  rw [hdo] at hsub
  simp only [doAnGang, hdo, if_true]
  exact giveNewCard_kept gameProgress (use_idle h ht hhua hdone hs htiles hnew hsub)

/-- An added kong may be robbed; else it is followed by a draw. -/
lemma doMXGang_kept (h : Deciding W s) (ht : Turn s t)
    (hhua : (s.playerList t).newCard ∉ huaList)
    (hdone : s.playerGrabMgr.doneGrabMgr.opers t ≠ [])
    (hc : b ∈ (s.playerList t).newCard :: (s.playerList t).cardList)
    (hpile : ∃ v ∈ (s.playerList t).pileList, MJPlayer.isPengOf b v = true) :
    Kept W (doMXGang gameProgress s t b).state := by
  have hnewt := (ht.newCard t).mpr rfl
  have hsub := MJPlayer.doMXGang_subset (s.playerList t) b
  obtain ⟨player, hdo, hs, htiles, hnew, -⟩ :=
    MJPlayer.doMXGang_sound (h.sound t) hnewt hc hpile
  rw [hdo] at hsub
  have hidle := use_idle h ht hhua hdone hs htiles hnew hsub
  have hmem : b ∈ (s.playerList t).tiles := by
    rw [MJPlayer.tiles_of_hasNewCard hnewt, Multiset.mem_add, Multiset.mem_add]
    exact Or.inl (Or.inl hc)
  have hv : MJCard.isValid b = true := (h.sound t).valid b hmem
  have hle : b ≤ Zi7 := by
    have hb : b ∉ huaList := by
      rcases List.mem_cons.mp hc with rfl | hmem
      · exact hhua
      · exact h.flowers t b hmem
    have hlegal := (h.legal b (h.tiles ▸ Table.mem_tiles_of_player hmem)).2.resolve_right hb
    exact hlegal.trans (by decide)
  obtain ⟨l, r, -, hoff, hcases⟩ :=
    checkOtherOper_cases gameProgress (s.setPlayer t player) t b true
  have hok := hcases.resolve_left (checkOtherOper_ok gameProgress hle r.2)
  simp only [doMXGang, hdo, if_true, hok]
  show Kept W (if r.1 then autoHu { r.2 with isQiangGanging := true, qiangGangInfo := some t }
    (autoHuPos gameProgress (cleared (s.setPlayer t player) t) t b) b
    else giveNewCard gameProgress r.2 t)
  cases hr : r.1 with
  | false => exact giveNewCard_kept gameProgress (offered_idle gameProgress hidle hoff hr t)
  | true =>
    obtain ⟨hvalid, hclaim⟩ := offered_claim gameProgress hidle.newCard hv (some t) hoff
      (by simp) fun _ => rfl
    have hbal := offered_balanced gameProgress hidle.toBalanced hoff
    have hkept : Kept W { r.2 with isQiangGanging := true, qiangGangInfo := some t } :=
      ⟨hbal.of_same rfl rfl rfl rfl, oneNew_of_none hclaim.newCard,
        fun _ => ⟨hvalid, Or.inr (Or.inl ⟨t, b, hclaim⟩)⟩⟩
    exact autoHu_kept hkept _

/-- A declared win ends the round. -/
lemma doHu_kept (h : Deciding W s) (p : Seat) (c : ℕ) : Kept W (doHu s p c) := by
  refine Balanced.ended ?_ (by simp [doHu, Table.gotoNextState]) h.kept.oneNew
  exact h.toBalanced.of_same rfl rfl rfl rfl

/-- All claims on a tile have been given up. -/
lemma cancelEnd_kept (h : Deciding W s) (hc : Claim s t b)
    (hclosed : ∀ q, s.playerGrabMgr.canGrabMgr.opers q = []) (p : Seat) :
    Kept W (cancelEnd gameProgress s p t).state := by
  unfold cancelEnd
  by_cases hq : s.isQiangGanging = true
  · simp only [hq, if_true, hc.robbed hq]
    exact giveNewCard_kept gameProgress (hc.idle h hclosed none t)
  · rw [Bool.not_eq_true] at hq
    simp only [hq, Bool.false_eq_true, if_false]
    cases s.playerCanDoMap p with
    | none => exact h.kept
    | some map =>
      dsimp only
      split_ifs
      · exact h.kept
      · have hidle := hc.idle h hclosed s.qiangGangInfo (nextPlayerPos t)
        rw [← hq] at hidle
        exact giveNewCard_kept gameProgress hidle

/-- The prevailing choice is carried out.

**Proof sketch.** With a new tile that is no flower the seat may still play, so that the choice to
cancel never prevails, and its other choices are possible with its tiles. On a claimed tile a kong
or the choice to cancel prevails only over claims that are no longer open. -/
lemma grabEnd_kept (h : Deciding W s) (hd : s.playerGrabMgr.doneGrabMgr.opers p ≠ [])
    (hwait : s.playerGrabMgr.needWait = some false) :
    Kept W (grabEnd gameProgress s).state := by
  obtain ⟨node, hnode⟩ := PlayerGrabMgr.exists_getPowestNode h.valid hd
  unfold grabEnd
  rcases h.phase with ⟨t, ht, hhua⟩ | ⟨t, b, hc⟩
  · obtain ⟨hitem, o, c, ho, hcard, hpos, hkind⟩ := (ht.chosen hhua).getPowestNode hnode
    have hprev := PlayerGrabMgr.prevails_of_needWait h.valid hwait hnode ho
    have hdone : s.playerGrabMgr.doneGrabMgr.opers t ≠ [] := by
      rw [hpos] at hitem
      simp [CanGrabMgr.opers, hitem, ho]
    rw [ht.pos, hnode]
    dsimp only
    rw [ho, hcard, hpos, List.head?_cons]
    rcases hkind with rfl | rfl | ⟨rfl, hag⟩ | ⟨rfl, hmem, hpile⟩
    · have hlt := (hprev.resolve_left (by decide)) t .play (ht.play hhua)
      exact absurd hlt (by decide)
    · exact doHu_kept h t c
    · exact doAnGang_kept gameProgress h ht hhua hdone t hag
    · exact doMXGang_kept gameProgress h ht hhua hdone hmem hpile
  · obtain ⟨-, o, c, ho, hcard, hkind⟩ := hc.chosen.getPowestNode hnode
    have hprev := PlayerGrabMgr.prevails_of_needWait h.valid hwait hnode ho
    rw [hc.pos, hnode]
    dsimp only
    rw [ho, hcard, List.head?_cons]
    rcases hkind with rfl | ⟨rfl, rfl | ⟨rfl, hq, hgang⟩ | ⟨rfl, hq, hpeng⟩⟩
    · exact cancelEnd_kept gameProgress h hc (hc.closed (Or.inr rfl) hprev) node.pos
    · exact doHu_kept h node.pos c
    · obtain ⟨hdo, hk⟩ :=
        doGang_kept gameProgress h hc hq (hc.closed (Or.inl rfl) hprev) hgang
      simp only [hdo, if_true]
      exact hk
    · obtain ⟨hdo, hk⟩ := doPeng_kept gameProgress h hc hq hpeng
      simp only [hdo, if_true]
      exact hk

end Moves

/-! ### Messages -/

section Messages

variable (gameProgress : GameProgress) {W : Multiset ℕ} {s : Table} {pos : Seat} {oper : Oper}

/-- An open choice with a tile it is offered for is recorded, and the seat's offers are gone. -/
lemma Kept.choose (h : Kept W s) (hgo : s.endArgs = none)
    (hmem : oper ∈ s.playerGrabMgr.canGrabMgr.opers pos) (hplay : oper ≠ .play)
    {map : CanDoMap} {l : List ℕ} {c : ℕ} (hmap : s.playerCanDoMap pos = some map)
    (hl : map.cards oper = some l) (hc : oper = .cancel ∨ c ∈ l) (m : MJCancelMgr) :
    Deciding W { s with
      playerGrabMgr := (s.playerGrabMgr.playerDoGrab pos oper (some c)).2
      playerCanDoMap := Function.update s.playerCanDoMap pos (some .empty)
      mjCancelMgr := m } := by
  obtain ⟨hvalid, hphase⟩ := h.phase hgo
  refine ⟨h.toBalanced.of_same rfl rfl rfl rfl, hgo, hvalid.playerDoGrab _, ?_⟩
  have hsub : ∀ p, (s.playerGrabMgr.playerDoGrab pos oper (some c)).2.canGrabMgr.opers p ⊆
      s.playerGrabMgr.canGrabMgr.opers p := fun p =>
    PlayerGrabMgr.opers_playerDoGrab_subset (some c)
  have hself := PlayerGrabMgr.opers_playerDoGrab_self hmem (some c)
  rcases hphase with ⟨t, ht⟩ | ⟨t, b, hb⟩ | hs
  · obtain rfl : pos = t := ht.opers pos oper hmem
    have hhua : (s.playerList pos).newCard ∉ huaList := fun hw =>
      hplay (ht.waiting hw oper hmem)
    refine Or.inl ⟨pos, ⟨(PlayerGrabMgr.pos_playerDoGrab _).trans ht.pos, ht.newCard, ht.quiet,
      fun p o ho => ht.opers p o (hsub p ho), fun _ => hself, fun _ => ?_, ?_, ?_,
      fun _ => hself⟩, hhua⟩
    · -- the possibility to play stays open
      have hopen := ht.play hhua
      show .play ∈ (s.playerGrabMgr.playerDoGrab pos oper (some c)).2.canGrabMgr.opers pos
      have hdel : .play ∈ (s.playerGrabMgr.canGrabMgr.delPlayer pos).2.opers pos := by
        rw [CanGrabMgr.opers_delPlayer, if_pos rfl, if_pos (by simpa using hopen)]
        simp
      rcases PlayerGrabMgr.playerDoGrab_cases s.playerGrabMgr pos oper (some c) with
        ⟨-, heq⟩ | ⟨-, heq⟩ | ⟨-, heq⟩ <;> rw [heq]
      · exact hopen
      · exact hdel
      · exact hdel
    · intro _ o ho hne map' l' hmap' hl'
      change Function.update s.playerCanDoMap pos (some .empty) pos = some map' at hmap'
      rw [Function.update_self] at hmap'
      obtain rfl := Option.some.inj hmap'
      simp [CanDoMap.empty] at hl'
    · refine fun _ => (ht.chosen hhua).playerDoGrab fun _ => ⟨rfl, ?_⟩
      by_cases hcancel : oper = .cancel
      · exact Or.inl hcancel
      · exact Or.inr (ht.offers hhua oper hmem hcancel map l hmap hl c (hc.resolve_left hcancel))
  · have hnil : (s.playerGrabMgr.playerDoGrab pos oper (some c)).2.canGrabMgr.opers pos = [] := by
      by_contra hne
      obtain ⟨o, ho⟩ := List.exists_mem_of_ne_nil _ hne
      rcases hb.opers pos o (hsub pos ho) with h | h
      · exact absurd ((hself o ho).symm.trans h) (by decide)
      · exact h.mem_operLevel.2 (hself o ho)
    have hother : ∀ p, p ≠ pos →
        (s.playerGrabMgr.playerDoGrab pos oper (some c)).2.canGrabMgr.opers p =
          s.playerGrabMgr.canGrabMgr.opers p := fun p hp =>
      (PlayerGrabMgr.opers_playerDoGrab_of_ne hp (some c)).1
    refine Or.inr ⟨t, b, (PlayerGrabMgr.pos_playerDoGrab _).trans hb.pos, hb.valid, hb.newCard,
      fun p o ho => hb.opers p o (hsub p ho), fun p hne => ?_, ?_, ?_, hb.river, hb.robbed⟩
    · change (s.playerGrabMgr.playerDoGrab pos oper (some c)).2.canGrabMgr.opers p ≠ [] at hne
      have hp : p ≠ pos := by
        rintro rfl
        exact hne hnil
      show ∃ o ∈ (s.playerGrabMgr.playerDoGrab pos oper (some c)).2.canGrabMgr.opers p, o ≠ .cancel
      rw [hother p hp] at hne ⊢
      exact hb.full p hne
    · intro p o ho hne map' l' hmap' hl'
      have hp : p ≠ pos := by
        rintro rfl
        change o ∈ (s.playerGrabMgr.playerDoGrab p oper (some c)).2.canGrabMgr.opers p at ho
        simp [hnil] at ho
      change Function.update s.playerCanDoMap pos (some .empty) p = some map' at hmap'
      rw [Function.update_of_ne hp] at hmap'
      exact hb.offers p o (hsub p ho) hne map' l' hmap' hl'
    · refine hb.chosen.playerDoGrab fun _ => ?_
      by_cases hcancel : oper = .cancel
      · exact Or.inl hcancel
      · have hlist := hb.offers pos oper hmem hcancel map l hmap hl
        have hcl := hc.resolve_left hcancel
        rw [hlist] at hcl
        exact Or.inr ⟨List.mem_singleton.mp hcl, (hb.opers pos oper hmem).resolve_left hcancel⟩
  · exact absurd (hs.opers pos oper hmem) hplay

/-- The choices are decided, or the others are waited for. -/
lemma decideOrWait_kept (h : Deciding W s)
    (hd : s.playerGrabMgr.doneGrabMgr.opers pos ≠ []) :
    Kept W (decideOrWait gameProgress s).state := by
  unfold decideOrWait
  cases hwait : s.playerGrabMgr.needWait with
  | none => exact h.kept
  | some wait =>
    cases wait with
    | false => exact grabEnd_kept gameProgress h hd hwait
    | true => exact h.kept

/-- A choice of a client. -/
lemma onGrabCard_kept (h : Kept W s) (hgo : s.endArgs = none) (pos : Seat) (hplay : oper ≠ .play)
    (card : Option ℕ) : Kept W (onGrabCard gameProgress s pos oper card).state := by
  unfold onGrabCard
  by_cases hmem : oper ∈ s.playerGrabMgr.canGrabMgr.opers pos
  swap
  · have hhas := PlayerGrabMgr.hasOper_eq_false hmem
    simp only [hhas, Bool.not_false, if_true]
    exact h
  simp only [PlayerGrabMgr.hasOper_iff.mpr hmem, Bool.not_true, Bool.false_eq_true, if_false]
  cases hmap : s.playerCanDoMap pos with
  | none => exact h
  | some map =>
    cases hl : map.cards oper with
    | none =>
      simp only [hl]
      exact h
    | some l =>
      simp only [hl]
      have hdone : ∀ c, (s.playerGrabMgr.playerDoGrab pos oper
          (some c)).2.doneGrabMgr.opers pos ≠ [] := fun c =>
        PlayerGrabMgr.opers_playerDoGrab_ne_nil hmem
      have hclear : ∀ c, clearCanDoMap { s with
          playerGrabMgr := (s.playerGrabMgr.playerDoGrab pos oper (some c)).2 } pos = { s with
          playerGrabMgr := (s.playerGrabMgr.playerDoGrab pos oper (some c)).2
          playerCanDoMap := Function.update s.playerCanDoMap pos (some .empty) } := by
        intro c
        rw [clearCanDoMap_eq (by simp [hmap])]
        rfl
      split_ifs with hcancel
      · rw [hclear]
        exact decideOrWait_kept gameProgress
          (h.choose hgo hmem hplay hmap hl (Or.inl hcancel) s.mjCancelMgr) (hdone 1)
      · rw [hclear]
        exact decideOrWait_kept gameProgress
          (h.choose hgo hmem hplay hmap hl (Or.inl hcancel) _) (hdone 1)
      · cases card with
        | none => exact h
        | some b =>
          dsimp only
          split_ifs with hb
          · rw [hclear]
            exact decideOrWait_kept gameProgress
              (h.choose hgo hmem hplay hmap hl (Or.inr hb) s.mjCancelMgr) (hdone b)
          · exact h

end Messages

/-! ### The deal -/

section Dealing

/-- The flowers a player has not yet put aside. -/
def flowers (player : MJPlayer) : ℕ := (player.newCard :: player.cardList).countP (· ∈ huaList)

/-- One turn of the loop of `buHuaNew`: a flower is put aside for the tile `b`. -/
def exchange (player : MJPlayer) (b : ℕ) : MJPlayer :=
  let c := player.getHua huaList
  let r := (player.addHuaWithoutHis c).delHandCard c
  if !r.1 then (r.2.delNewCard c).2.addNewCard b else r.2.addHandCard b

lemma buHuaNew_cons (player : MJPlayer) (b : ℕ) (wall : List ℕ) :
    buHuaNew player (b :: wall) =
      if player.hasHua huaList then buHuaNew (exchange player b) wall else (player, b :: wall) := by
  rw [buHuaNew]
  simp only [exchange]
  split_ifs <;> rfl

lemma addHuaWithoutHis_putsAside : PutsAside MJPlayer.addHuaWithoutHis := fun player _ =>
  ⟨player.justDoOper, rfl⟩

/-- The loop of `buHuaNew` is the exchange of the flowers of this game. -/
lemma buHuaNew_eq (player : MJPlayer) (wall : List ℕ) :
    buHuaNew player wall = exchangeFlowers huaList MJPlayer.addHuaWithoutHis player wall := by
  induction wall generalizing player with
  | nil => rfl
  | cons b wall ih =>
    rw [buHuaNew_cons, exchangeFlowers, ih]
    rfl

/-- Every tile of the wall is a suit tile, a wind or a flower. -/
lemma wallTiles_legal : ∀ c ∈ wallTiles,
    MJCard.isValid c = true ∧ (c ≤ Zi4 ∨ c ∈ huaList) := by
  decide +kernel

/-- The hands after the deal and the exchange of the flowers. -/
lemma dealHandCardsNew_spec (d : Deal) :
    let r := dealHandCardsNew d.wall d.banker
    ∑ p, (r.1 p).tiles + ↑r.2 = (d.wall : Multiset ℕ) ∧ (∀ p, (r.1 p).Sound) ∧
      (∀ p, (r.1 p).hasNewCard = true ↔ p = d.banker) ∧ ∀ p, flowers (r.1 p) = 0 := by
  intro r
  have hlen : d.wall.length = 144 := d.perm.length_eq
  have hvalid : ∀ c ∈ d.wall, MJCard.isValid c = true := fun c hc =>
    (wallTiles_legal c (d.perm.subset hc)).1
  obtain ⟨htiles, hsound, hnew, -, -, hrest⟩ :=
    dealHandCards_spec d.banker (by rw [hlen]; decide) hvalid
  set r₀ := dealHandCards d.wall d.banker with hr₀
  have hcount : (d.wall : Multiset ℕ).countP (· ∈ huaList) = 20 := by
    rw [Multiset.coe_countP, d.perm.countP_eq]
    decide
  have hwall : ∀ c ∈ r₀.2, MJCard.isValid c = true := by
    intro c hc
    apply hvalid
    rw [← Multiset.mem_coe, ← htiles, Multiset.mem_add]
    exact Or.inr (Multiset.mem_coe.mpr hc)
  have hbound : (seats.map fun p => flowers (r₀.1 p)).sum + r₀.2.countP (· ∈ huaList) ≤ 20 := by
    have hsum : (seats.map fun p => flowers (r₀.1 p)).sum = ∑ p, flowers (r₀.1 p) := by
      rw [seats, Fin.sum_univ_def]
    have hle := sum_flowerCount_le kCardNull_notMem_huaList r₀
    rw [htiles, hcount] at hle
    rw [hsum]
    exact hle
  obtain ⟨r', hfold, h1, h2, h3, -, h5⟩ := exchangeAll_spec addHuaWithoutHis_putsAside
    kCardNull_notMem_huaList seats r₀ (by decide) (fun p _ => hsound p) hwall
    (hbound.trans (by omega))
  have hr : r = r' := by
    rw [← hfold]
    simp only [r, dealHandCardsNew, buHuaNew_eq]
    rfl
  rw [hr]
  exact ⟨h5.trans htiles, fun p => h1 p (by simp [seats]), fun p => by rw [h3 p]; exact hnew p,
    fun p => h2 p (by simp [seats])⟩

/-- After the deal the banker has the turn. -/
lemma onEntry_kept (gameProgress : GameProgress) (d : Deal)
    (htest : ∀ p, d.last.testPlayerNeedCard p = none) :
    Kept ↑d.wall (onEntry gameProgress d) := by
  obtain ⟨htiles, hsound, hnew, hflow⟩ := dealHandCardsNew_spec d
  have hnone : ∀ p, ∀ c ∈ ((dealHandCardsNew d.wall d.banker).1 p).newCard ::
      ((dealHandCardsNew d.wall d.banker).1 p).cardList, c ∉ huaList := by
    intro p c hc
    have := List.countP_eq_zero.mp (hflow p) c hc
    simpa using this
  unfold onEntry
  refine checkMyOper_kept gameProgress ?_ rfl hnew (hnone d.banker _ (by simp)) true
  refine ⟨fun c hc => ?_, ?_, hsound, htest, fun p c hc => ?_⟩
  · exact wallTiles_legal c (d.perm.subset hc)
  · rw [← htiles]
    simp only [Table.tiles, Multiset.coe_nil, Finset.sum_const_zero, add_zero]
    abel
  · exact hnone p c (List.mem_cons_of_mem _ hc)

end Dealing

end Hands

/-! ### Every run -/

/-- The message plays a tile of the hand while the flower the seat has drawn waits for its
exchange. -/
def playsOverFlower (s : Table) (p : Seat) (pkg : ClientMsg) : Bool :=
  Oper.ofCode pkg.operation == some .play && s.playerGrabMgr.hasOper p .play &&
    huaList.contains (s.playerList p).newCard &&
    (fromOld2NowCardByteMap pkg.card_bytes).any fun b =>
      b != (s.playerList p).newCard && (s.playerList p).cardList.contains b

/-- The message does not ask for a tile by the debug operation. -/
def NoTest (_ : Table) (e : GameProgress × Event) : Prop :=
  match e.2 with
  | .clientMsg _ pkg => Oper.ofCode pkg.operation ≠ some .testNeedCard
  | .buHua _ => True

/-- No flower that waits for its exchange is played over. -/
def KeepsFlowers (s : Table) (e : GameProgress × Event) : Prop :=
  NoTest s e ∧
    match e.2 with
    | .clientMsg p pkg => playsOverFlower s p pkg = false
    | .buHua _ => True

instance (s : Table) (e : GameProgress × Event) : Decidable (NoTest s e) :=
  match e with
  | (_, .clientMsg _ _) => inferInstanceAs (Decidable (_ ≠ _))
  | (_, .buHua _) => inferInstanceAs (Decidable True)

instance (s : Table) (e : GameProgress × Event) : Decidable (KeepsFlowers s e) :=
  match e with
  | (_, .clientMsg _ _) => inferInstanceAs (Decidable (_ ∧ _ = false))
  | (_, .buHua _) => inferInstanceAs (Decidable (_ ∧ True))

section Runs

variable {W : Multiset ℕ} {s s' : Table}

/-- A message of a client that plays over no flower. -/
lemma Hands.onClientMsg_kept (gameProgress : GameProgress) (h : Hands.Kept W s)
    (hgo : s.endArgs = none) {p : Seat} {pkg : ClientMsg}
    (hok : KeepsFlowers s (gameProgress, .clientMsg p pkg)) :
    Hands.Kept W (onClientMsg gameProgress s p pkg).state := by
  obtain ⟨htest, hover⟩ := hok
  change Oper.ofCode pkg.operation ≠ some .testNeedCard at htest
  change playsOverFlower s p pkg = false at hover
  unfold onClientMsg
  dsimp only
  cases hop : Oper.ofCode pkg.operation with
  | none => exact h
  | some oper =>
    by_cases hplay : oper = .play
    · subst hplay
      refine Hands.onPlayCard_kept gameProgress h hgo p _ fun b hb hmem hhua hcard => ?_
      by_contra hne
      have hhas := PlayerGrabMgr.hasOper_iff.mpr hmem
      simp [playsOverFlower, hop, hhas, hhua, hb, hne, hcard] at hover
    · have hgrab := Hands.onGrabCard_kept gameProgress h hgo p hplay
        (fromOld2NowCardByteMap pkg.card_bytes)
      rw [hop] at htest
      cases oper <;> first | exact absurd rfl hplay | exact absurd rfl htest | exact h | exact hgrab

/-- One event keeps the tiles together. -/
lemma Hands.step_kept {e : GameProgress × Event} (h : Hands.Kept W s) (hok : KeepsFlowers s e)
    (hstep : step s e = some s') : Hands.Kept W s' := by
  obtain ⟨gameProgress, event⟩ := e
  unfold step at hstep
  split_ifs at hstep with hover
  have hgo : s.endArgs = none := by simpa using hover
  cases event with
  | clientMsg p pkg =>
    obtain rfl := Option.some.inj hstep
    exact Hands.onClientMsg_kept gameProgress h hgo hok
  | buHua t =>
    dsimp only at hstep
    split_ifs at hstep
    obtain rfl := Option.some.inj hstep
    suffices hk : Hands.Kept W { s with timers := s.timers.erase t } from
      Hands.buHua_kept gameProgress hk hgo t
    refine ⟨h.toBalanced.of_same rfl rfl rfl rfl, h.oneNew, fun _ => ?_⟩
    obtain ⟨hvalid, hphase⟩ := h.phase hgo
    refine ⟨hvalid, ?_⟩
    rcases hphase with ⟨t, ht⟩ | ⟨t, b, hc⟩ | hs
    · exact Or.inl ⟨t, ht.pos, ht.newCard, ht.quiet, ht.opers, ht.waiting, ht.play, ht.offers,
        ht.chosen, ht.free⟩
    · exact Or.inr (Or.inl ⟨t, b, hc.pos, hc.valid, hc.newCard, hc.opers, hc.full, hc.offers,
        hc.chosen, hc.river, hc.robbed⟩)
    · exact Or.inr (Or.inr ⟨hs.newCard, hs.opers⟩)

/-- The hands of a deal in which the banker has a concealed kong, and the tile after them. -/
def flowerHands : List ℕ :=
  [5, 5, 5, 5, 12, 14, 16, 18, 22, 24, 31, 32, 33] ++
  [1, 1, 2, 2, 3, 3, 4, 4, 6, 6, 7, 7, 9] ++
  [11, 11, 12, 13, 13, 14, 15, 15, 16, 17, 17, 18, 19] ++
  [21, 21, 22, 23, 23, 24, 25, 25, 26, 27, 27, 28, 29] ++ [34] ++ [41]

/-- The banker draws the flower `41` after its kong. -/
def flowerDeal : Deal where
  wall := flowerHands ++ wallTiles.diff flowerHands
  perm := by decide +kernel
  banker := 0
  last := newTable
  asked := newTable_asked

/-- Answers for hands that no seat wins with. -/
def noWin : GameProgress where
  countHuType := fun _ _ => ⟨false, false, false, false⟩
  isOut := fun _ => false
  getJYZCount := 0

/-- The banker declares its kong, and the timer fires; it plays a tile before or after that. -/
def flowerEvents (before : Bool) : List (GameProgress × Event) :=
  (noWin, .clientMsg 0 ⟨4, 69⟩) ::
    if before then [(noWin, .clientMsg 0 ⟨10, 170⟩), (noWin, .buHua 0)]
    else [(noWin, .buHua 0), (noWin, .clientMsg 0 ⟨10, 170⟩)]

end Runs

end Nanjing
