import JsmjServer.Erren.GamePlaying
import JsmjServer.Mahjong.Winners

set_option relaxedAutoImplicit false
set_option autoImplicit false

/-!
# The tiles and turns of a round of two-player mahjong

Five things make a round lose or double a tile, or pass the turn to the wrong seat. A claimed run is
laid down without the claimed tile. When an added kong is not robbed, the tile that replaces it goes
to the other seat. A claim that is not answered in time stays open while the seat waits for the
exchange of a flower it has drawn, and its answer makes the other seat draw as well. And a seat that
may still play while its flower waits may play another tile. In runs without these events the tiles
stay together and every added kong is followed by a draw of its seat, whatever the clients send and
whenever the timers fire.

## Main definitions

* `Erren.Hands.Turn`, `Erren.Hands.Claim`, `Erren.Hands.Stuck` — the phases of a round.
* `Erren.Hands.Kept` — the invariant.
* `Erren.Orderly` — the condition on the events of a run.

## Main results

* `Erren.Hands.giveNewCard_kept`, `Erren.Hands.onPlayCard_kept`, `Erren.Hands.onGrabCard_kept` —
  one move keeps the invariant.
* `Erren.tiles_turns_of_reaches` — every run.
-/

namespace Erren

open Mahjong

namespace Hands

/-! ### The answer of one seat -/

section Answer

variable {g : PlayerGrabMgr} {t : Seat} {o : Oper} {c : ℕ}

/-- What is open after the choice of the only seat with offers. -/
lemma opers_playerDoGrab_alone (hmem : o ∈ g.canGrabMgr.opers t)
    (hdone : g.doneGrabMgr.opers t = []) (honly : ∀ p, p ≠ t → g.canGrabMgr.opers p = []) (p : Seat) :
    (g.playerDoGrab t o (some c)).2.canGrabMgr.opers p =
      if p = t then (if .play ∈ g.canGrabMgr.opers t then [.play] else []) else [] := by
  rw [PlayerGrabMgr.playerDoGrab_of_mem hmem hdone]
  dsimp only
  rw [CanGrabMgr.opers_delPlayer]
  by_cases hp : p = t
  · simp [hp]
  · simp [hp, honly p hp]

/-- When only the seat `t` has offers and nobody has chosen, its choice is the one to be carried
out, at once unless the seat may play and has chosen to cancel. -/
lemma playerDoGrab_alone (hmem : o ∈ g.canGrabMgr.opers t) (ho : o ∈ operLevel)
    (hdone : ∀ p, g.doneGrabMgr.opers p = [])
    (honly : ∀ p, p ≠ t → g.canGrabMgr.opers p = []) :
    (∃ node, (g.playerDoGrab t o (some c)).2.getPowestNode = some node ∧ node.pos = t ∧
      node.operList = [o] ∧ node.byteCard = some c) ∧
    ∃ wait, (g.playerDoGrab t o (some c)).2.needWait = some wait ∧
      (wait = true ↔ .play ∈ g.canGrabMgr.opers t ∧ level .play ≤ level o) := by
  have hcan := opers_playerDoGrab_alone (c := c) hmem (hdone t) honly
  have hchosen : ∀ p, (g.playerDoGrab t o (some c)).2.doneGrabMgr.opers p =
      if p = t then [o] else [] := by
    intro p
    rw [PlayerGrabMgr.playerDoGrab_of_mem hmem (hdone t)]
    dsimp only
    rw [CanGrabMgr.opers_setCanOperList]
    by_cases hp : p = t
    · simp [hp, sortOpers]
    · simp [hp, hdone p]
  have hv : (g.playerDoGrab t o (some c)).2.Valid := by
    refine ⟨⟨fun p o' ho' => ?_, fun p => ?_⟩, ⟨fun p o' ho' => ?_, fun p => ?_⟩⟩
    · rw [hcan] at ho'
      split_ifs at ho'
      · rw [List.mem_singleton.mp ho']
        decide
      · simp at ho'
      · simp at ho'
    · rw [hcan]
      split_ifs <;> simp
    · rw [hchosen] at ho'
      split_ifs at ho'
      · rw [List.mem_singleton.mp ho']
        exact ho
      · simp at ho'
    · rw [hchosen]
      split_ifs <;> simp
  have hkind : (g.playerDoGrab t o (some c)).2.Chosen fun p o' c' => p = t ∧ o' = o ∧ c' = c := by
    refine PlayerGrabMgr.Chosen.playerDoGrab (fun p item hitem => Or.inl ?_) fun _ => ⟨rfl, rfl, rfl⟩
    have hnil := hdone p
    rwa [CanGrabMgr.opers, hitem] at hnil
  refine ⟨?_, ?_⟩
  · obtain ⟨node, hnode⟩ := PlayerGrabMgr.exists_getPowestNode (p := t) hv (by simp [hchosen])
    obtain ⟨-, o', c', ho', hc', hpos, rfl, rfl⟩ := hkind.getPowestNode hnode
    exact ⟨node, hnode, hpos, ho', hc'⟩
  · obtain ⟨wait, hwait, hiff⟩ := PlayerGrabMgr.needWait_spec hv
    refine ⟨wait, hwait, ?_⟩
    have hprev : wait = false ↔ (g.playerDoGrab t o (some c)).2.Prevails o := by
      rw [hiff]
      constructor
      · rintro (hall | ⟨p, o', ho', hprev⟩)
        · have hnil := (hall t).2
          simp [hchosen] at hnil
        · rw [hchosen] at ho'
          split_ifs at ho'
          · obtain rfl : o = o' := by simpa using ho'
            exact hprev
          · simp at ho'
      · exact fun h => Or.inr ⟨t, o, by simp [hchosen], h⟩
    rw [← Bool.not_eq_false, hprev, PlayerGrabMgr.Prevails]
    constructor
    · intro hnot
      rw [not_or] at hnot
      by_contra hplay
      refine hnot.2 fun p o' ho' => ?_
      rw [hcan] at ho'
      split_ifs at ho' with hp hopen
      · rw [List.mem_singleton.mp ho']
        exact not_le.mp fun hle => hplay ⟨hopen, hle⟩
      · simp at ho'
      · simp at ho'
    · rintro ⟨hopen, hle⟩ (rfl | hlt)
      · exact absurd hle (by decide)
      · exact absurd (hlt t .play (by simp [hcan, hopen])) (not_lt.mpr hle)

/-- Without any choice there is none to be carried out. -/
lemma getPowestNode_of_undecided (h : ∀ p, g.doneGrabMgr.opers p = []) :
    g.getPowestNode = none := by
  rw [PlayerGrabMgr.getPowestNode, CanGrabMgr.getPowestOper_of_empty h]
  dsimp only
  rw [List.findSome?_eq_none_iff]
  intro p _
  rw [Option.filter_eq_none_iff]
  intro item hitem hhas
  have hnil := h p
  rw [CanGrabMgr.opers, hitem] at hnil
  simp [GrabItem.hasOper, hnil] at hhas

end Answer

/-! ### The phases of a round -/

/-- An operation other than to play or to cancel that a player with a new tile may do with the tile
`c`. -/
def MayDo (player : MJPlayer) (o : Oper) (c : ℕ) : Prop :=
  o = .hu ∨ o = .ting ∨ (o = .ag ∧ 4 ≤ player.getCardCountInHand c true) ∨
    (o = .mxg ∧ c ∈ player.newCard :: player.cardList ∧
      ∃ v ∈ player.pileList, MJPlayer.isPengOf c v = true)

/-- The operations that claim a run. -/
def chiOpers : List Oper := [.lChi, .mChi, .rChi]

/-- A claim on the tile `b`: to win, kong or peng from the hand, or a run. -/
def MayClaim (player : MJPlayer) (b : ℕ) (o : Oper) : Prop :=
  o = .hu ∨ (o = .mg ∧ player.canGang b = true) ∨ (o = .peng ∧ player.canPeng b = true) ∨
    o ∈ chiOpers

/-- Claims that the seat `t` has not answered in time are still open. -/
structure Late (g : PlayerGrabMgr) (t : Seat) : Prop where
  opers : ∀ o ∈ g.canGrabMgr.opers t, o ∈ [.hu, .mg, .peng, .cancel] ++ chiOpers
  undecided : ∀ p, g.doneGrabMgr.opers p = []

/-- The seat `t` has drawn a tile that is no flower: it may play, or do one thing with its tiles. -/
structure Acting (s : Round) (t : Seat) : Prop where
  play : .play ∈ s.playerGrabMgr.canGrabMgr.opers t
  offers : ∀ o ∈ s.playerGrabMgr.canGrabMgr.opers t, o ≠ .cancel → o ≠ .play →
    ∀ map l, s.playerCanDoMap t = some map → map.cards o = some l →
      ∀ c ∈ l, MayDo (s.playerList t) o c
  others : ∀ p, p ≠ t → s.playerGrabMgr.doneGrabMgr.opers p = []
  free : s.playerGrabMgr.doneGrabMgr.opers t ≠ [] →
    ∀ o ∈ s.playerGrabMgr.canGrabMgr.opers t, o = .play

/-- The seat `t` has the new tile. With a flower it waits for the timer; what is still open then is
to play, after a concealed kong, or the claims it has not answered. -/
structure Turn (s : Round) (t : Seat) : Prop where
  seated : t ∈ playing
  cur : s.curTurn = t
  pos : s.playerGrabMgr.pos ≠ none
  newCard : ∀ p, (s.playerList p).hasNewCard = true ↔ p = t
  quiet : s.isQiangGanging = false
  noGrab : s.waitGrabHandle = false
  opers : ∀ p, p ≠ t → s.playerGrabMgr.canGrabMgr.opers p = []
  waiting : (s.playerList t).newCard ∈ huaList → s.waitPlayHandle = none ∧
    ((∀ o ∈ s.playerGrabMgr.canGrabMgr.opers t, o = .play) ∨ Late s.playerGrabMgr t)
  acting : (s.playerList t).newCard ∉ huaList → Acting s t
  settled : ∀ q, s.moves.getLast? ≠ some (.mxGang q)

/-- The other seat may claim the tile `b` of the seat `t`: its last discard, or the tile of its
added kong. -/
structure Claim (s : Round) (t : Seat) (b : ℕ) : Prop where
  seated : t ∈ playing
  cur : s.curTurn = t
  pos : s.playerGrabMgr.pos = some t
  valid : MJCard.isValid b = true
  newCard : ∀ p, (s.playerList p).hasNewCard = false
  opers : ∀ p, p ≠ nextPlayerPos t → s.playerGrabMgr.canGrabMgr.opers p = []
  claims : ∀ o ∈ s.playerGrabMgr.canGrabMgr.opers (nextPlayerPos t),
    o = .cancel ∨ MayClaim (s.playerList (nextPlayerPos t)) b o
  offers : ∀ o ∈ s.playerGrabMgr.canGrabMgr.opers (nextPlayerPos t), o ≠ .cancel →
    ∀ map l, s.playerCanDoMap (nextPlayerPos t) = some map → map.cards o = some l → l = [b]
  noPlay : ∀ map, s.playerCanDoMap (nextPlayerPos t) = some map → .play ∉ map.operList.getD []
  undecided : ∀ p, s.playerGrabMgr.doneGrabMgr.opers p = []
  river : s.isQiangGanging = false → ∃ l, s.riverCardList t = l ++ [b]
  robbed : s.isQiangGanging = true → 4 ≤ (s.playerList t).tiles.count b ∧
    s.qiangGangInfo = some t ∧ s.moves.getLast? = some (.mxGang t)
  settled : s.isQiangGanging = false → ∀ q, s.moves.getLast? ≠ some (.mxGang q)

/-- A handler has stopped with an error after a tile was played: nothing can be done any more. -/
structure Stuck (s : Round) : Prop where
  newCard : ∀ p, (s.playerList p).hasNewCard = false
  opers : ∀ p, s.playerGrabMgr.canGrabMgr.opers p = []
  noGrab : s.waitGrabHandle = false

/-- The tiles `W` of the round are all at the table, those of each player fit together, and no hand
has a flower, unless as the new tile. -/
structure Balanced (W : Multiset ℕ) (s : Table) : Prop where
  legal : ∀ c ∈ W, MJCard.isValid c = true ∧ (c ≤ Zi7 ∨ c ∈ huaList)
  few : ∀ c, W.count c ≤ 4
  tiles : s.tiles = W
  sound : ∀ p ∈ playing, (s.playerList p).Sound
  noTest : ∀ p, s.testPlayerNeedCard p = none
  flowers : ∀ p, ∀ c ∈ (s.playerList p).cardList, c ∉ huaList

/-- After an added kong the next move recorded is a draw of its seat. -/
def Follows (a b : Move) : Prop := ∀ p, a = .mxGang p → b = .draw p

instance (a b : Move) : Decidable (Follows a b) :=
  match a with
  | .mxGang p => decidable_of_iff (b = .draw p)
      ⟨fun h _ hp => by obtain rfl := Move.mxGang.inj hp; exact h, fun h => h p rfl⟩
  | .draw _ => .isTrue fun _ h => by simp at h

/-- What every state of a run keeps. -/
structure Kept (W : Multiset ℕ) (s : Round) : Prop where
  balanced : Balanced W s.toTable
  chain : s.moves.IsChain Follows
  oneNew : ∀ p q, (s.playerList p).hasNewCard = true → (s.playerList q).hasNewCard = true → p = q
  phase : s.endArgs = none → (∃ t, Turn s t) ∨ (∃ t b, Claim s t b) ∨ Stuck s

/-- Between two turns: nobody has a new tile, and the seat `t` is to draw. -/
structure Idle (W : Multiset ℕ) (s : Round) (t : Seat) : Prop where
  balanced : Balanced W s.toTable
  chain : s.moves.IsChain Follows
  seated : t ∈ playing
  newCard : ∀ p, (s.playerList p).hasNewCard = false
  quiet : s.isQiangGanging = false
  noGrab : s.waitGrabHandle = false
  noPlay : s.waitPlayHandle = none
  pos : s.playerGrabMgr.pos ≠ none
  opers : ∀ p, p ≠ t → s.playerGrabMgr.canGrabMgr.opers p = []
  closed : (∀ o ∈ s.playerGrabMgr.canGrabMgr.opers t, o = .play) ∨ Late s.playerGrabMgr t
  pending : ∀ q, s.moves.getLast? = some (.mxGang q) → q = t

/-! ### Ends and draws -/

section Draw

variable {W : Multiset ℕ} {s : Round} {t p : Seat} {b : ℕ}

/-- Tables with the same tiles. -/
lemma Balanced.of_same {s s' : Table} (h : Balanced W s) (hwall : s'.mjWall = s.mjWall)
    (hplayers : s'.playerList = s.playerList) (hrivers : s'.riverCardList = s.riverCardList)
    (htest : s'.testPlayerNeedCard = s.testPlayerNeedCard) : Balanced W s' := by
  refine ⟨h.legal, h.few, ?_, fun p hp => ?_, fun p => ?_, fun p => ?_⟩
  · rw [← h.tiles]
    simp only [Table.tiles, hwall, hplayers, hrivers]
  · rw [hplayers]
    exact h.sound p hp
  · rw [htest]
    exact h.noTest p
  · rw [hplayers]
    exact h.flowers p

/-- A player is replaced and the tiles of the table stay what they were. -/
lemma Balanced.setPlayer {s : Table} (h : Balanced W s) {player : MJPlayer} (hs : player.Sound)
    (hflow : ∀ c ∈ player.cardList, c ∉ huaList) {s' : Table} (htiles : s'.tiles = s.tiles)
    (hplayers : ∀ q, s'.playerList q = if q = t then player else s.playerList q)
    (htest : s'.testPlayerNeedCard = s.testPlayerNeedCard) : Balanced W s' := by
  refine ⟨h.legal, h.few, htiles.trans h.tiles, fun q hq => ?_, fun q => ?_, fun q => ?_⟩
  · rw [hplayers]
    split_ifs
    · exact hs
    · exact h.sound q hq
  · rw [htest]
    exact h.noTest q
  · rw [hplayers]
    split_ifs
    · exact hflow
    · exact h.flowers q

lemma oneNew_of_none {s : Table} (h : ∀ p, (s.playerList p).hasNewCard = false) :
    ∀ p q, (s.playerList p).hasNewCard = true → (s.playerList q).hasNewCard = true → p = q := by
  intro p q hp
  simp [h p] at hp

lemma oneNew_of_iff {s : Table} (h : ∀ p, (s.playerList p).hasNewCard = true ↔ p = t) :
    ∀ p q, (s.playerList p).hasNewCard = true → (s.playerList q).hasNewCard = true → p = q :=
  fun p q hp hq => ((h p).mp hp).trans ((h q).mp hq).symm

lemma kCardNull_notMem_huaList : kCardNull ∉ huaList := by decide

/-- The round ends; the tiles are where they were. -/
lemma Kept.ended (hb : Balanced W s.toTable) (hc : s.moves.IsChain Follows)
    (hone : ∀ p q, (s.playerList p).hasNewCard = true → (s.playerList q).hasNewCard = true → p = q)
    (args : EndArgs) : Kept W (s.gotoNextState args) :=
  ⟨hb.of_same rfl rfl rfl rfl, hc, hone, fun hgo => by simp [Round.gotoNextState,
    Table.gotoNextState] at hgo⟩

/-- Without a tile in the wall the round is drawn. -/
lemma giveNewCard_kept_of_empty (hb : Balanced W s.toTable) (hc : s.moves.IsChain Follows)
    (hone : ∀ p q, (s.playerList p).hasNewCard = true → (s.playerList q).hasNewCard = true → p = q)
    (hwall : s.mjWall = []) (t : Seat) : Kept W (giveNewCard s t) := by
  have hdrawn : giveNewCard s t = s.gotoNextState .liuJu := by
    unfold giveNewCard takeCard
    rw [hb.noTest t, hwall]
    rfl
  rw [hdrawn]
  exact Kept.ended hb hc hone _

/-- The offers to the seat whose turn it is, with their tiles. -/
lemma mem_myOffers {player : MJPlayer} {isTing : Bool} {o : Oper} {l : List ℕ}
    (h : (o, l) ∈ myOffers player isTing) :
    o = .play ∨ o = .cancel ∨ ∀ c ∈ l, MayDo player o c := by
  rw [myOffers, List.mem_cons] at h
  rcases h with h | h
  · exact Or.inl (congrArg Prod.fst h)
  rcases mem_withCancel h with h | h
  swap
  · exact Or.inr (Or.inl (congrArg Prod.fst h))
  refine Or.inr (Or.inr fun c hc => ?_)
  simp only [List.mem_append] at h
  rcases h with ((h | h) | h) | h <;> split_ifs at h <;>
    simp only [List.not_mem_nil, List.mem_singleton, Prod.mk.injEq] at h
  · exact Or.inl h.1
  · exact Or.inr (Or.inl h.1)
  · obtain ⟨rfl, rfl⟩ := h
    exact Or.inr (Or.inr (Or.inl ⟨rfl, (MJPlayer.count_of_mem_getAnGangCardListWithDa hc).ge⟩))
  · obtain ⟨rfl, rfl⟩ := h
    exact Or.inr (Or.inr (Or.inr ⟨rfl, MJPlayer.mem_of_mem_getMXGangCardList hc⟩))

/-- The offers of `checkMyOper` to a seat with a new tile that is no flower. -/
lemma checkMyOper_kept (hb : Balanced W s.toTable) (hc : s.moves.IsChain Follows)
    (hseat : t ∈ playing) (hcur : s.curTurn = t) (hq : s.isQiangGanging = false)
    (hgrab : s.waitGrabHandle = false)
    (hnew : ∀ p, (s.playerList p).hasNewCard = true ↔ p = t)
    (hhua : (s.playerList t).newCard ∉ huaList)
    (hset : ∀ q, s.moves.getLast? ≠ some (.mxGang q)) : Kept W (checkMyOper s t) := by
  have hn : ¬(s.playerList t).hasNewCard = false := by simp [(hnew t).mpr rfl]
  unfold checkMyOper
  dsimp only
  rw [if_neg hn]
  set offers := myOffers (s.playerList t) (s.isTing t) with hoffers
  set grab := (s.playerGrabMgr.clear.addCanDoItem t (offers.map Prod.fst)).setPos t with hg
  have hopers : ∀ p, grab.canGrabMgr.opers p =
      if p = t then sortOpers (offers.map Prod.fst) else [] := by
    intro p
    simp [hg, PlayerGrabMgr.setPos, PlayerGrabMgr.addCanDoItem, PlayerGrabMgr.clear]
  have hdone : ∀ p, grab.doneGrabMgr.opers p = [] := by
    intro p
    simp [hg, PlayerGrabMgr.setPos, PlayerGrabMgr.addCanDoItem, PlayerGrabMgr.clear]
  refine ⟨hb.of_same rfl rfl rfl rfl, hc, oneNew_of_iff hnew, fun _ => Or.inl ⟨t, hseat, hcur,
    by simp [Round.setGrab, Round.setCanDoMap, Table.setCanDoMap, hg, PlayerGrabMgr.setPos],
    hnew, hq, hgrab, fun p hp => ?_, fun h => absurd h hhua, fun _ => ?_, hset⟩⟩
  · show grab.canGrabMgr.opers p = []
    rw [hopers, if_neg hp]
  refine ⟨?_, fun o ho hcancel hplay map l hmap hl c hc => ?_, fun p _ => hdone p,
    fun hne => absurd (hdone t) hne⟩
  · show .play ∈ grab.canGrabMgr.opers t
    rw [hopers, if_pos rfl, PlayerGrabMgr.Round.mem_sortOpers]
    simp [hoffers, myOffers]
  · have hmap' : map = .ofOffers offers := by
      change Function.update s.playerCanDoMap t (some (CanDoMap.ofOffers offers)) t = some map
        at hmap
      rw [Function.update_self] at hmap
      exact (Option.some.inj hmap).symm
    rw [hmap'] at hl
    rcases mem_myOffers (CanDoMap.mem_of_cards_ofOffers hl) with h | h | h
    · exact absurd h hplay
    · exact absurd h hcancel
    · exact h c hc

/-- The next tile of the wall goes to the seat: a flower waits for the timer, with any other tile
it is the seat's turn. -/
lemma giveNewCard_kept (hi : Idle W s t) : Kept W (giveNewCard s t) := by
  cases hwall : s.mjWall with
  | nil => exact giveNewCard_kept_of_empty hi.balanced hi.chain (oneNew_of_none hi.newCard) hwall t
  | cons c wall =>
    unfold giveNewCard takeCard
    rw [hi.balanced.noTest t, hwall]
    simp only [getFrontCard, Option.map_some]
    have hvalid : MJCard.isValid c = true := by
      refine (hi.balanced.legal c ?_).1
      rw [← hi.balanced.tiles]
      exact Table.mem_tiles_of_wall (by simp [hwall])
    obtain ⟨hsound, htiles, hnew, -⟩ :=
      MJPlayer.addNewCard_sound (hi.balanced.sound t hi.seated) (hi.newCard t) hvalid
    set player : MJPlayer := { (s.playerList t).addNewCard c with justDoOper := .newCard }
      with hplayer
    have hfields : player.cardList = (s.playerList t).cardList ∧ player.newCard = c := by
      rw [hplayer, MJPlayer.addNewCard_eq hvalid]
      exact ⟨rfl, rfl⟩
    set table : Table := { s.toTable with
      mjWall := wall
      mjCancelMgr := s.mjCancelMgr.clearSeat t } with htable
    have hplayers : ∀ q, (table.setPlayer t player).playerList q =
        if q = t then player else s.playerList q := fun q =>
      Table.playerList_setPlayer table t q player
    have hsound' : player.Sound := ⟨hsound.size, hsound.formed, hsound.valid⟩
    have hbal : Balanced W (table.setPlayer t player) := by
      refine hi.balanced.setPlayer hsound' ?_ ?_ hplayers rfl
      · rw [hfields.1]
        exact hi.balanced.flowers t
      · have hadd : (table.setPlayer t player).tiles = c ::ₘ table.tiles :=
          Table.tiles_setPlayer_add htiles
        rw [hadd]
        simp only [Table.tiles, htable, hwall, ← Multiset.cons_coe, Multiset.cons_add]
    have hiff : ∀ q, ((table.setPlayer t player).playerList q).hasNewCard = true ↔ q = t := by
      intro q
      rw [hplayers]
      by_cases hq : q = t
      · simp only [hq, if_true, iff_true]
        exact hnew
      · simp [hq, hi.newCard q]
    have hat : (table.setPlayer t player).playerList t = player := by rw [hplayers, if_pos rfl]
    have hchain : (s.moves ++ [Move.draw t]).IsChain Follows := by
      refine hi.chain.append (List.isChain_singleton _) fun a ha b hb q hq => ?_
      obtain rfl : Move.draw t = b := by simpa using hb
      rw [hi.pending q (hq ▸ ha)]
    have hset : ∀ q, (s.moves ++ [Move.draw t]).getLast? ≠ some (.mxGang q) := by
      intro q
      simp
    have hhas : player.hasHua huaList = true ↔ player.newCard ∈ huaList :=
      MJPlayer.hasHua_iff (hfields.1 ▸ hi.balanced.flowers t)
    split_ifs with hhua
    · -- the flower waits, and what was open stays open
      refine ⟨hbal.of_same rfl rfl rfl rfl, hchain, oneNew_of_iff hiff, fun _ => Or.inl ⟨t,
        hi.seated, rfl, hi.pos, hiff, hi.quiet, hi.noGrab, hi.opers, fun _ => ⟨hi.noPlay,
        hi.closed⟩, fun hnot => ?_, hset⟩⟩
      refine absurd (hhas.mp hhua) ?_
      change ((table.setPlayer t player).playerList t).newCard ∉ huaList at hnot
      rwa [hat] at hnot
    · refine checkMyOper_kept hbal hchain hi.seated rfl hi.quiet hi.noGrab hiff ?_ hset
      show ((table.setPlayer t player).playerList t).newCard ∉ huaList
      rw [hat]
      exact fun hmem => hhua (hhas.mpr hmem)

/-- A seat that holds a flower has the turn. -/
lemma Kept.turn_of_flower (h : Kept W s) (hgo : s.endArgs = none)
    (hhua : (s.playerList p).newCard ∈ huaList) : Turn s p := by
  have hnew := MJPlayer.hasNewCard_of_mem kCardNull_notMem_huaList hhua
  rcases h.phase hgo with ⟨t, ht⟩ | ⟨t, b, hc⟩ | hs
  · obtain rfl := (ht.newCard p).mp hnew
    exact ht
  · simp [hc.newCard p] at hnew
  · simp [hs.newCard p] at hnew

/-- The exchange of a flower, whenever the timer fires. -/
lemma buHua_kept (h : Kept W s) (hgo : s.endArgs = none) (p : Seat) : Kept W (buHua s p) := by
  unfold buHua
  dsimp only
  split_ifs with hhas
  swap
  · exact h
  have hhua := (MJPlayer.hasHua_iff (h.balanced.flowers p)).mp hhas
  have ht := h.turn_of_flower hgo hhua
  obtain ⟨hplay, hopen⟩ := ht.waiting hhua
  rw [MJPlayer.getHua_eq (h.balanced.flowers p) hhua]
  obtain ⟨hsound', htiles, hcards, hnone⟩ :=
    (h.balanced.sound p ht.seated).buHua ((ht.newCard p).mpr rfl)
  set player := (((s.playerList p).addHua (s.playerList p).newCard).delNewCard
    (s.playerList p).newCard).2
  have hplayers : ∀ q, (s.setPlayer p player).playerList q =
      if q = p then player else s.playerList q := fun q =>
    Table.playerList_setPlayer s.toTable p q player
  refine giveNewCard_kept ⟨h.balanced.setPlayer hsound' (hcards ▸ h.balanced.flowers p)
    (Table.tiles_setPlayer_same htiles) hplayers rfl, h.chain, ht.seated, fun q => ?_, ht.quiet,
    ht.noGrab, hplay, ht.pos, ht.opers, hopen, fun q hq => absurd hq (ht.settled q)⟩
  rw [hplayers]
  split_ifs with hq
  · exact hnone
  · simpa using (ht.newCard q).not.mpr hq

end Draw

/-! ### Claims on a tile -/

section Claims

variable {W : Multiset ℕ} {s : Round} {t : Seat} {b : ℕ}

lemma nextPlayerPos_mem : nextPlayerPos t ∈ playing := by
  revert t
  decide

lemma mem_chiOpers {player : MJPlayer} {o : Oper} (h : o ∈ player.getCanChiType b) :
    o ∈ chiOpers := by
  have htypes : ∀ countMap, o ∈ MJPlayer.chiTypes countMap b → o ∈ chiOpers := by
    intro countMap ho
    simp only [MJPlayer.chiTypes, List.mem_append] at ho
    rcases ho with (ho | ho) | ho <;> split_ifs at ho <;>
      simp only [List.mem_singleton, List.not_mem_nil] at ho <;> rw [ho] <;> decide
  unfold MJPlayer.getCanChiType at h
  split_ifs at h
  · simp at h
  · simp at h
  · simp at h
  · exact htypes _ h

/-- The claims allowed to the other seat, with their tiles. -/
lemma mem_claims {pos : Seat} {o : Oper} {l : List ℕ} (h : (o, l) ∈ claims s t pos b) :
    l = [b] ∧ MayClaim (s.playerList pos) b o := by
  simp only [claims, List.mem_append] at h
  rcases h with h | h
  · split_ifs at h <;> simp only [List.not_mem_nil, List.mem_singleton, Prod.mk.injEq] at h
    exact ⟨h.2, Or.inl h.1⟩
  by_cases hting : s.isTing pos = true
  · simp [hting] at h
  simp only [hting, Bool.false_eq_true, if_false, List.mem_append] at h
  rcases h with (h | h) | h <;> split_ifs at h with hc <;>
    simp only [List.not_mem_nil, List.mem_singleton, Prod.mk.injEq, List.mem_map] at h
  · exact ⟨h.2, Or.inr (Or.inl ⟨h.1, hc⟩)⟩
  · simp only [Bool.and_eq_true, Bool.not_eq_true'] at hc
    exact ⟨h.2, Or.inr (Or.inr (Or.inl ⟨h.1, hc.2⟩))⟩
  · obtain ⟨o', ho', rfl, rfl⟩ := h
    exact ⟨rfl, Or.inr (Or.inr (Or.inr (mem_chiOpers ho')))⟩

lemma MayClaim.mem {player : MJPlayer} {o : Oper} (h : MayClaim player b o) :
    o ∈ [.hu, .mg, .peng, .cancel] ++ chiOpers := by
  rcases h with rfl | ⟨rfl, -⟩ | ⟨rfl, -⟩ | h
  · decide
  · decide
  · decide
  · exact List.mem_append_right _ h

/-- The claims of the other seat are open. -/
def offered (s : Round) (t : Seat) (b : ℕ) : Round :=
  let offers := withCancel (claims s t (nextPlayerPos t) b)
  (s.setGrab ((s.playerGrabMgr.clear.setPos t).addCanDoItem (nextPlayerPos t)
    (offers.map Prod.fst))).setCanDoMap (nextPlayerPos t) (.ofOffers offers)

/-- What `checkOtherOper` leaves: it stops for a tile beyond the count map; else the claims are
offered when there are any. -/
lemma checkOtherOper_cases (s : Round) (t : Seat) (b : ℕ) :
    (Zi7 < b ∧ checkOtherOper s t b = .error (s.setGrab (s.playerGrabMgr.clear.setPos t))) ∨
    (claims s t (nextPlayerPos t) b = [] ∧ checkOtherOper s t b = .ok (false, offered s t b)) ∨
    (claims s t (nextPlayerPos t) b ≠ [] ∧
      checkOtherOper s t b = .ok (true, { offered s t b with waitGrabHandle := true })) := by
  have hlen : 1 < (withCancel (claims s t (nextPlayerPos t) b)).length ↔
      claims s t (nextPlayerPos t) b ≠ [] := by
    rw [← one_lt_length_withCancel, List.length_map]
  unfold checkOtherOper
  dsimp only
  by_cases hstop : canHuStops (s.setGrab (s.playerGrabMgr.clear.setPos t)) (nextPlayerPos t) b = true
  · refine Or.inl ⟨?_, if_pos hstop⟩
    simp only [canHuStops, Bool.and_eq_true, decide_eq_true_eq] at hstop
    exact hstop.2
  · rw [if_neg hstop]
    by_cases hnil : claims s t (nextPlayerPos t) b = []
    · exact Or.inr (Or.inl ⟨hnil, if_neg fun h => hlen.mp h hnil⟩)
    · exact Or.inr (Or.inr ⟨hnil, if_pos (hlen.mpr hnil)⟩)

lemma opers_offered (p : Seat) : (offered s t b).playerGrabMgr.canGrabMgr.opers p =
    if p = nextPlayerPos t then
      sortOpers ((withCancel (claims s t (nextPlayerPos t) b)).map Prod.fst) else [] := by
  simp [offered, Round.setGrab, Round.setCanDoMap, Table.setCanDoMap, PlayerGrabMgr.setPos,
    PlayerGrabMgr.addCanDoItem, PlayerGrabMgr.clear]

lemma done_offered (p : Seat) : (offered s t b).playerGrabMgr.doneGrabMgr.opers p = [] := by
  simp [offered, Round.setGrab, Round.setCanDoMap, Table.setCanDoMap, PlayerGrabMgr.setPos,
    PlayerGrabMgr.addCanDoItem, PlayerGrabMgr.clear]

/-- The offers made on the tile `b` of the seat `t`, discarded or of an added kong. -/
lemma offered_claim (hseat : t ∈ playing) (hcur : s.curTurn = t)
    (hnew : ∀ p, (s.playerList p).hasNewCard = false) (hv : MJCard.isValid b = true)
    (q : Bool) (info : Option Seat)
    (hriver : q = false → (∃ l, s.riverCardList t = l ++ [b]) ∧
      ∀ q, s.moves.getLast? ≠ some (.mxGang q))
    (hrob : q = true → 4 ≤ (s.playerList t).tiles.count b ∧ info = some t ∧
      s.moves.getLast? = some (.mxGang t)) :
    Claim { offered s t b with
      waitGrabHandle := true, isQiangGanging := q, qiangGangInfo := info } t b := by
  have hmap : (offered s t b).playerCanDoMap (nextPlayerPos t) =
      some (.ofOffers (withCancel (claims s t (nextPlayerPos t) b))) :=
    Function.update_self _ _ _
  have hmem : ∀ o ∈ (offered s t b).playerGrabMgr.canGrabMgr.opers (nextPlayerPos t),
      o = .cancel ∨ MayClaim (s.playerList (nextPlayerPos t)) b o := by
    intro o ho
    rw [opers_offered, if_pos rfl, PlayerGrabMgr.Round.mem_sortOpers] at ho
    obtain ⟨⟨o, l⟩, hx, rfl⟩ := List.mem_map.mp ho
    rcases mem_withCancel hx with hx | hx
    · exact Or.inr (mem_claims hx).2
    · exact Or.inl (congrArg Prod.fst hx)
  refine ⟨hseat, hcur, rfl, hv, hnew, fun p hp => ?_, hmem, fun o ho hne map l hmap' hl => ?_,
    fun map hmap' => ?_, done_offered, fun h => (hriver h).1, hrob, fun h => (hriver h).2⟩
  · show (offered s t b).playerGrabMgr.canGrabMgr.opers p = []
    rw [opers_offered, if_neg hp]
  · obtain rfl := Option.some.inj (hmap.symm.trans hmap')
    rcases mem_withCancel (CanDoMap.mem_of_cards_ofOffers hl) with hx | hx
    · exact (mem_claims hx).1
    · exact absurd (congrArg Prod.fst hx) hne
  · obtain rfl := Option.some.inj (hmap.symm.trans hmap')
    intro hplay
    change .play ∈ (withCancel (claims s t (nextPlayerPos t) b)).map Prod.fst at hplay
    have hopen : .play ∈ (offered s t b).playerGrabMgr.canGrabMgr.opers (nextPlayerPos t) := by
      rw [opers_offered, if_pos rfl, PlayerGrabMgr.Round.mem_sortOpers]
      exact hplay
    rcases hmem _ hopen with h | h
    · exact absurd h (by decide)
    · exact absurd h.mem (by decide)

/-- Where the other seat has no claim, nothing is open, and any seat may draw next. -/
lemma offered_idle (hi : Idle W s t) (hnil : claims s t (nextPlayerPos t) b = []) {q : Seat}
    (hq : q ∈ playing) (hpend : ∀ p, s.moves.getLast? = some (.mxGang p) → p = q) :
    Idle W (offered s t b) q := by
  have hopers : ∀ p, (offered s t b).playerGrabMgr.canGrabMgr.opers p = [] := by
    intro p
    rw [opers_offered, hnil]
    split_ifs
    · rfl
    · rfl
  exact ⟨hi.balanced.of_same rfl rfl rfl rfl, hi.chain, hq, hi.newCard, hi.quiet, hi.noGrab,
    hi.noPlay, Option.some_ne_none t, fun p _ => hopers p,
    Or.inl fun o ho => absurd (hopers q ▸ ho) List.not_mem_nil, hpend⟩

end Claims

/-! ### A played tile -/

section Play

variable {W : Multiset ℕ} {s : Round} {t : Seat} {b : ℕ}

/-- Timers that have fired and declarations of waiting hands do not matter to the invariant. -/
lemma Kept.of_same (h : Kept W s) (timers : List Seat) (isTing : Seat → Bool)
    {handle : Option Seat} (hhandle : handle = s.waitPlayHandle ∨ handle = none) :
    Kept W { s with timers := timers, isTing := isTing, waitPlayHandle := handle } := by
  refine ⟨h.balanced.of_same rfl rfl rfl rfl, h.chain, h.oneNew, fun hgo => ?_⟩
  rcases h.phase hgo with ⟨t, ht⟩ | ⟨t, b, hc⟩ | hs
  · refine Or.inl ⟨t, ht.seated, ht.cur, ht.pos, ht.newCard, ht.quiet, ht.noGrab, ht.opers,
      fun hhua => ⟨?_, (ht.waiting hhua).2⟩, fun hhua => ?_, ht.settled⟩
    · rcases hhandle with rfl | rfl
      · exact (ht.waiting hhua).1
      · rfl
    · have ha := ht.acting hhua
      exact ⟨ha.play, ha.offers, ha.others, ha.free⟩
  · exact Or.inr (Or.inl ⟨t, b, hc.seated, hc.cur, hc.pos, hc.valid, hc.newCard, hc.opers,
      hc.claims, hc.offers, hc.noPlay, hc.undecided, hc.river, hc.robbed, hc.settled⟩)
  · exact Or.inr (Or.inr ⟨hs.newCard, hs.opers, hs.noGrab⟩)

lemma declareTing_eq (s : Round) (p : Seat) :
    ∃ isTing, declareTing s p = { s with isTing := isTing } := by
  unfold declareTing
  split_ifs
  · exact ⟨_, rfl⟩
  · exact ⟨s.isTing, rfl⟩

lemma Kept.declareTing (h : Kept W s) (p : Seat) : Kept W (declareTing s p) := by
  obtain ⟨isTing, heq⟩ := declareTing_eq s p
  rw [heq]
  exact h.of_same s.timers isTing (Or.inl rfl)

/-- The claims on a tile that has just been discarded, and the draw when there are none. -/
lemma checkOtherOper_discard_kept (hi : Idle W s t) (hcur : s.curTurn = t)
    (hv : MJCard.isValid b = true) (hriver : ∃ l, s.riverCardList t = l ++ [b])
    (hset : ∀ q, s.moves.getLast? ≠ some (.mxGang q)) :
    Kept W (Handled.state ((checkOtherOper s t b).map fun c =>
      if !c.1 then giveNewCard c.2 (nextPlayerPos t) else { c.2 with waitGrabHandle := true })) := by
  rcases checkOtherOper_cases s t b with ⟨-, heq⟩ | ⟨hnil, heq⟩ | ⟨-, heq⟩ <;> rw [heq]
  · refine ⟨hi.balanced.of_same rfl rfl rfl rfl, hi.chain, oneNew_of_none hi.newCard,
      fun _ => Or.inr (Or.inr ⟨hi.newCard, fun p => ?_, hi.noGrab⟩)⟩
    simp [Except.map, Handled.state, Round.setGrab, PlayerGrabMgr.setPos, PlayerGrabMgr.clear]
  · exact giveNewCard_kept (offered_idle hi hnil nextPlayerPos_mem fun p hp => absurd hp (hset p))
  · have hclaim := offered_claim hi.seated hcur hi.newCard hv false s.qiangGangInfo
      (fun _ => ⟨hriver, hset⟩) (by simp)
    rw [← hi.quiet] at hclaim
    exact ⟨hi.balanced.of_same rfl rfl rfl rfl, hi.chain, oneNew_of_none hi.newCard,
      fun _ => Or.inr (Or.inl ⟨t, b, hclaim⟩)⟩

/-- Once a tile has been put on the river, nobody has a new tile. -/
lemma discard_idle (h : Kept W s) (ht : Turn s t)
    (hplay : .play ∈ s.playerGrabMgr.canGrabMgr.opers t) {q : MJPlayer}
    (hv : MJCard.isValid b = true) (hs : q.Sound)
    (htiles : (s.playerList t).tiles = b ::ₘ q.tiles) (hq : q.hasNewCard = false)
    (hflow : ∀ c ∈ q.cardList, c ∉ huaList) :
    Idle W (discard s t b q) t ∧ ∃ l, (discard s t b q).riverCardList t = l ++ [b] := by
  have hplayers : ∀ p, (discard s t b q).playerList p = if p = t then q else s.playerList p :=
    fun p => Table.playerList_setPlayer s.toTable t p q
  have hgrab : (discard s t b q).playerGrabMgr =
      (s.playerGrabMgr.playerDoGrab t .play (some b)).2 := rfl
  have hpush : MJRiver.pushCard (s.riverCardList t) b = s.riverCardList t ++ [b] := if_pos hv
  have hbal : Balanced W ((s.toTable.setPlayer t q).setRiver t
      (MJRiver.pushCard (s.riverCardList t) b)) :=
    h.balanced.setPlayer hs hflow (Table.tiles_play hv htiles)
      (fun p => Table.playerList_setPlayer s.toTable t p q) rfl
  refine ⟨⟨hbal.of_same rfl rfl rfl rfl, h.chain, ht.seated, fun p => ?_, ht.quiet, ht.noGrab, rfl,
    ?_, fun p hp => ?_, Or.inl fun o ho => ?_, fun p hp => absurd hp (ht.settled p)⟩,
    s.riverCardList t, ?_⟩
  · rw [hplayers]
    split_ifs with hp
    · exact hq
    · simpa using (ht.newCard p).not.mpr hp
  · rw [hgrab, PlayerGrabMgr.pos_playerDoGrab]
    exact ht.pos
  · rw [hgrab, (PlayerGrabMgr.opers_playerDoGrab_of_ne hp (some b)).1]
    exact ht.opers p hp
  · rw [hgrab] at ho
    exact PlayerGrabMgr.opers_playerDoGrab_self hplay (some b) o ho
  · show Function.update s.riverCardList t (MJRiver.pushCard (s.riverCardList t) b) t = _
    rw [Function.update_self, hpush]

/-- A played tile leaves no flower in the hand, unless a flower was kept for it. -/
lemma doPlayCard_flowers {s : Table} (hb : Balanced W s)
    (hnew : (s.playerList t).hasNewCard = true)
    (hplay : ((s.playerList t).doPlayCard b).1 = true)
    (hkeep : (s.playerList t).newCard ∈ huaList → b ∈ (s.playerList t).cardList →
      b = (s.playerList t).newCard) :
    ∀ c ∈ ((s.playerList t).doPlayCard b).2.cardList, c ∉ huaList := by
  rcases MJPlayer.doPlayCard_spec (b := b) hnew with ⟨-, hdo⟩ | ⟨l, hperm, hdo⟩
  · simp [hdo] at hplay
  rw [hdo]
  intro c hc
  by_cases hhua : (s.playerList t).newCard ∈ huaList
  · have hbn : b = (s.playerList t).newCard := by
      have hmem : b ∈ (s.playerList t).newCard :: (s.playerList t).cardList :=
        hperm.symm.subset (by simp)
      rcases List.mem_cons.mp hmem with h | h
      · exact h
      · exact hkeep hhua h
    rw [hbn, List.perm_cons] at hperm
    exact hb.flowers t c (hperm.symm.subset hc)
  · have hmem : c ∈ (s.playerList t).newCard :: (s.playerList t).cardList :=
      hperm.symm.subset (List.mem_cons_of_mem _ hc)
    rcases List.mem_cons.mp hmem with rfl | hmem
    · exact hhua
    · exact hb.flowers t c hmem

/-- A play, of a flower only when it is the tile just drawn. -/
lemma onPlayCard_kept (h : Kept W s) (hgo : s.endArgs = none) (p : Seat) (card : Option ℕ)
    (hkeep : ∀ b, playedCard s p card = some (some b) →
      .play ∈ s.playerGrabMgr.canGrabMgr.opers p → (s.playerList p).newCard ∈ huaList →
      b ∈ (s.playerList p).cardList → b = (s.playerList p).newCard) :
    Kept W (onPlayCard s p card).state := by
  unfold onPlayCard
  by_cases hmem : .play ∈ s.playerGrabMgr.canGrabMgr.opers p
  swap
  · have hhas := PlayerGrabMgr.hasOper_eq_false hmem
    simp only [hhas, Bool.not_false, if_true]
    exact h
  simp only [PlayerGrabMgr.hasOper_iff.mpr hmem, Bool.not_true, Bool.false_eq_true, if_false]
  have hd := h.declareTing p
  cases hcard : playedCard s p card with
  | none => exact hd
  | some card' =>
    cases card' with
    | none => exact hd
    | some b =>
      dsimp only
      rcases h.phase hgo with ⟨t, ht⟩ | ⟨t, c, hc⟩ | hs
      · obtain rfl : p = t := by
          by_contra hp
          rw [ht.opers p hp] at hmem
          exact absurd hmem List.not_mem_nil
        have hnew := (ht.newCard p).mpr rfl
        have hflow := doPlayCard_flowers (b := b) h.balanced hnew
        rcases MJPlayer.doPlayCard_sound (b := b) (h.balanced.sound p ht.seated) hnew with
          ⟨-, hdo⟩ | ⟨-, hv, q, hdo, hs, htiles, hq, -⟩
        · simp only [hdo, Bool.not_false, if_true]
          exact hd
        · rw [hdo] at hflow
          simp only [hdo, Bool.not_true, Bool.false_eq_true, if_false]
          obtain ⟨isTing, heq⟩ := declareTing_eq s p
          have ht' : Turn { s with isTing := isTing } p :=
            ⟨ht.seated, ht.cur, ht.pos, ht.newCard, ht.quiet, ht.noGrab, ht.opers, ht.waiting,
              fun hhua => ⟨(ht.acting hhua).play, (ht.acting hhua).offers,
                (ht.acting hhua).others, (ht.acting hhua).free⟩, ht.settled⟩
          rw [heq] at hd ⊢
          obtain ⟨hidle, hriver⟩ := discard_idle hd ht' hmem hv hs htiles hq
            (hflow rfl (hkeep b hcard hmem))
          exact checkOtherOper_discard_kept hidle ht.cur hv hriver ht.settled
      · by_cases hp : p = nextPlayerPos t
        · rw [hp] at hmem
          rcases hc.claims _ hmem with h' | h'
          · exact absurd h' (by decide)
          · exact absurd h'.mem (by decide)
        · rw [hc.opers p hp] at hmem
          exact absurd hmem List.not_mem_nil
      · rw [hs.opers p] at hmem
        exact absurd hmem List.not_mem_nil

end Play

/-! ### The choice of the seat whose turn it is -/

/-- The seat `t` has chosen what to do with its tiles, and the timers are stopped. -/
structure Deciding (W : Multiset ℕ) (s : Round) (t : Seat) : Prop where
  balanced : Balanced W s.toTable
  chain : s.moves.IsChain Follows
  seated : t ∈ playing
  cur : s.curTurn = t
  pos : s.playerGrabMgr.pos ≠ none
  newCard : ∀ p, (s.playerList p).hasNewCard = true ↔ p = t
  noHua : (s.playerList t).newCard ∉ huaList
  quiet : s.isQiangGanging = false
  noGrab : s.waitGrabHandle = false
  noPlay : s.waitPlayHandle = none
  opers : ∀ p, p ≠ t → s.playerGrabMgr.canGrabMgr.opers p = []
  closed : ∀ o ∈ s.playerGrabMgr.canGrabMgr.opers t, o = .play
  settled : ∀ q, s.moves.getLast? ≠ some (.mxGang q)

section Choice

variable {W : Multiset ℕ} {s : Round} {t p : Seat} {b : ℕ}

/-- A declared win ends the round. -/
lemma doHu_kept (hb : Balanced W s.toTable) (hc : s.moves.IsChain Follows)
    (hone : ∀ p q, (s.playerList p).hasNewCard = true → (s.playerList q).hasNewCard = true → p = q)
    (p : Seat) (c : ℕ) : Kept W (doHu s p c) := Kept.ended hb hc hone _

/-- The seat whose turn it is has used up its new tile. -/
lemma use_idle (h : Deciding W s t) {player : MJPlayer} (hs : player.Sound)
    (htiles : player.tiles = (s.playerList t).tiles) (hnew : player.hasNewCard = false)
    (hsub : player.cardList ⊆ (s.playerList t).newCard :: (s.playerList t).cardList) :
    Idle W (s.setPlayer t player) t := by
  have hplayers : ∀ q, (s.setPlayer t player).playerList q =
      if q = t then player else s.playerList q := fun q =>
    Table.playerList_setPlayer s.toTable t q player
  have hflow : ∀ c ∈ player.cardList, c ∉ huaList := by
    intro c hc
    rcases List.mem_cons.mp (hsub hc) with rfl | hmem
    · exact h.noHua
    · exact h.balanced.flowers t c hmem
  refine ⟨h.balanced.setPlayer hs hflow (Table.tiles_setPlayer_same htiles) hplayers rfl, h.chain,
    h.seated, fun q => ?_, h.quiet, h.noGrab, h.noPlay, h.pos, h.opers, Or.inl h.closed,
    fun q hq => absurd hq (h.settled q)⟩
  rw [hplayers]
  split_ifs with hq
  · exact hnew
  · simpa using (h.newCard q).not.mpr hq

/-- A concealed kong is followed by a draw. -/
lemma doAnGang_kept (h : Deciding W s t) (pos : Seat)
    (hc : 4 ≤ (s.playerList t).getCardCountInHand b true) : Kept W (doAnGang s t b pos) := by
  have hsub := MJPlayer.doAnGang_subset (s.playerList t) b pos
  obtain ⟨player, hdo, hs, htiles, hnew, -⟩ :=
    MJPlayer.doAnGang_sound pos (h.balanced.sound t h.seated) ((h.newCard t).mpr rfl) hc
  rw [hdo] at hsub
  simp only [doAnGang, hdo, if_true]
  exact giveNewCard_kept (use_idle h hs htiles hnew hsub)

/-- The tile of an added kong and the pile it is added to make four copies. -/
lemma four_le_count {player : MJPlayer} (hn : player.hasNewCard = true)
    (hc : b ∈ player.newCard :: player.cardList)
    (hpile : ∃ v ∈ player.pileList, MJPlayer.isPengOf b v = true) :
    4 ≤ player.tiles.count b := by
  obtain ⟨v, hv, hpeng⟩ := hpile
  obtain ⟨pre, post, hsplit⟩ := List.append_of_mem hv
  have hthree : v.cardList.count b = 3 := by
    simp only [MJPlayer.isPengOf, MJPile.getCardCount, Bool.and_eq_true, beq_iff_eq] at hpeng
    exact hpeng.1
  have hone : 0 < (player.newCard :: player.cardList).count b := List.count_pos_iff.mpr hc
  rw [MJPlayer.tiles_of_hasNewCard hn, hsplit]
  simp only [MJPlayer.pileTiles_append, MJPlayer.pileTiles_cons, Multiset.count_add,
    Multiset.coe_count]
  omega

/-- An added kong may be robbed; else it is followed by a draw. -/
lemma doMXGang_kept (h : Deciding W s t)
    (hc : b ∈ (s.playerList t).newCard :: (s.playerList t).cardList)
    (hpile : ∃ v ∈ (s.playerList t).pileList, MJPlayer.isPengOf b v = true) :
    Kept W (doMXGang s t b).state := by
  have hnewt := (h.newCard t).mpr rfl
  have hsound := h.balanced.sound t h.seated
  have hsub := MJPlayer.doMXGang_subset (s.playerList t) b
  have hfour := four_le_count hnewt hc hpile
  obtain ⟨player, hdo, hs, htiles, hnew, -⟩ := MJPlayer.doMXGang_sound hsound hnewt hc hpile
  rw [hdo] at hsub
  have hidle := use_idle h hs htiles hnew hsub
  have hmem : b ∈ (s.playerList t).tiles := Multiset.count_pos.mp (by omega)
  have hv : MJCard.isValid b = true := hsound.valid b hmem
  have hle : ¬Zi7 < b := by
    have hb : b ∉ huaList := by
      rcases List.mem_cons.mp hc with rfl | hmem
      · exact h.noHua
      · exact h.balanced.flowers t b hmem
    have hlegal := (h.balanced.legal b (h.balanced.tiles ▸ Table.mem_tiles_of_player hmem)).2
    exact not_lt.mpr (hlegal.resolve_right hb)
  simp only [doMXGang, hdo, if_true]
  set s₁ : Round := { s.setPlayer t player with moves := s.moves ++ [Move.mxGang t] } with hs₁
  have hlast : s₁.moves.getLast? = some (.mxGang t) := by simp [hs₁]
  have hpend : ∀ q, s₁.moves.getLast? = some (.mxGang q) → q = t := by
    intro q hq
    rw [hlast] at hq
    exact (Move.mxGang.inj (Option.some.inj hq)).symm
  have hidle₁ : Idle W s₁ t := by
    refine ⟨hidle.balanced, ?_, hidle.seated, hidle.newCard, hidle.quiet, hidle.noGrab,
      hidle.noPlay, hidle.pos, hidle.opers, hidle.closed, hpend⟩
    refine h.chain.append (List.isChain_singleton _) fun a ha b _ q hq => ?_
    exact absurd (hq ▸ ha) (h.settled q)
  rcases checkOtherOper_cases s₁ t b with ⟨hlt, -⟩ | ⟨hnil, heq⟩ | ⟨-, heq⟩
  · exact absurd hlt hle
  · rw [heq]
    exact giveNewCard_kept (offered_idle hidle₁ hnil h.seated hpend)
  · rw [heq]
    have hplayer : (s₁.playerList t).tiles = (s.playerList t).tiles := by
      have hat : s₁.playerList t = player := Function.update_self _ _ _
      rw [hat, htiles]
    have hclaim := offered_claim (s := s₁) h.seated h.cur hidle₁.newCard hv true (some t) (by simp)
      fun _ => ⟨hplayer ▸ hfour, rfl, hlast⟩
    exact ⟨hidle₁.balanced.of_same rfl rfl rfl rfl, hidle₁.chain, oneNew_of_none hidle₁.newCard,
      fun _ => Or.inr (Or.inl ⟨t, b, hclaim⟩)⟩

end Choice

/-! ### The answer to a claim -/

/-- The seat after `t` has answered its claims on the tile `b`, and the timers are stopped. -/
structure Granted (W : Multiset ℕ) (s : Round) (t : Seat) (b : ℕ) : Prop where
  balanced : Balanced W s.toTable
  chain : s.moves.IsChain Follows
  seated : t ∈ playing
  cur : s.curTurn = t
  pos : s.playerGrabMgr.pos = some t
  valid : MJCard.isValid b = true
  newCard : ∀ p, (s.playerList p).hasNewCard = false
  opers : ∀ p, s.playerGrabMgr.canGrabMgr.opers p = []
  noGrab : s.waitGrabHandle = false
  noPlay : s.waitPlayHandle = none
  map : ∃ map, s.playerCanDoMap (nextPlayerPos t) = some map ∧ .play ∉ map.operList.getD []
  river : s.isQiangGanging = false → ∃ l, s.riverCardList t = l ++ [b]
  settled : s.isQiangGanging = false → ∀ q, s.moves.getLast? ≠ some (.mxGang q)

section Answers

variable {W : Multiset ℕ} {s : Round} {t p : Seat} {b : ℕ}

/-- The tile of an added kong is not in the other hand. -/
lemma count_eq_zero_of_robbed {s : Table} (hb : Balanced W s) (hseat : t ∈ playing)
    (h : 4 ≤ (s.playerList t).tiles.count b) :
    (s.playerList (nextPlayerPos t)).cardList.count b = 0 := by
  have hall : s.tiles.count b ≤ 4 := by
    rw [hb.tiles]
    exact hb.few b
  have hsum : ∑ p, (s.playerList p).tiles.count b ≤ s.tiles.count b := by
    rw [Table.tiles, Multiset.count_add, Multiset.count_add, Multiset.count_sum']
    omega
  have hhand : (s.playerList (nextPlayerPos t)).cardList.count b ≤
      (s.playerList (nextPlayerPos t)).tiles.count b := by
    simp only [MJPlayer.tiles, Multiset.count_add, Multiset.coe_count]
    omega
  rw [Fin.sum_univ_four] at hsum
  rcases (by simpa [playing] using hseat : t = 0 ∨ t = 1) with rfl | rfl
  · change (s.playerList 1).cardList.count b ≤ (s.playerList 1).tiles.count b at hhand
    show (s.playerList 1).cardList.count b = 0
    omega
  · change (s.playerList 0).cardList.count b ≤ (s.playerList 0).tiles.count b at hhand
    show (s.playerList 0).cardList.count b = 0
    omega

/-- The table after the other seat has taken the last discard of the seat `t`. -/
lemma take_balanced {s : Table} (hb : Balanced W s) {player : MJPlayer} {l : List ℕ}
    (hriver : s.riverCardList t = l ++ [b]) (hs : player.Sound)
    (htiles : player.tiles = b ::ₘ (s.playerList p).tiles)
    (hsub : player.cardList ⊆ (s.playerList p).cardList) :
    Balanced W ((s.setPlayer p player).setRiver t (MJRiver.popCard (s.riverCardList t))) :=
  hb.setPlayer hs (fun c hc => hb.flowers p c (hsub hc)) (Table.tiles_take hriver htiles)
    (fun q => Table.playerList_setPlayer s p q player) rfl

/-- A peng on a discard gives its seat the turn. -/
lemma doPeng_kept (h : Granted W s t b) (hq : s.isQiangGanging = false)
    (hpeng : (s.playerList (nextPlayerPos t)).canPeng b = true) :
    (doPeng s (nextPlayerPos t) b t).1 = true ∧ Kept W (doPeng s (nextPlayerPos t) b t).2 := by
  set p := nextPlayerPos t with hp
  have hsound := h.balanced.sound p nextPlayerPos_mem
  have hlen : 2 < (s.playerList p).cardList.length := by
    have hcount : 2 ≤ (s.playerList p).cardList.count b := by
      simp only [MJPlayer.canPeng, Bool.and_eq_true, decide_eq_true_eq,
        MJPlayer.getCardCountInHand_false] at hpeng
      exact hpeng.2
    have hle : (s.playerList p).cardList.count b ≤ (s.playerList p).cardList.length :=
      List.count_le_length
    have hsize := hsound.size
    omega
  obtain ⟨hsub, hnewsub⟩ := MJPlayer.doPeng_subset (s.playerList p) b t
  obtain ⟨player, hdo, hs, htiles, hnew, -, -⟩ :=
    MJPlayer.doPeng_sound t hsound hpeng h.valid hlen
  rw [hdo] at hsub hnewsub
  obtain ⟨l, hriver⟩ := h.river hq
  have hbal := take_balanced h.balanced hriver hs htiles hsub
  simp only [doPeng, hdo, if_true, true_and]
  have hswap : ∀ s : Round, { checkMyOper s p with curTurn := p } =
      checkMyOper { s with curTurn := p } p := by
    intro s
    unfold checkMyOper
    dsimp only
    split_ifs <;> rfl
  rw [hswap]
  refine checkMyOper_kept hbal h.chain nextPlayerPos_mem rfl hq h.noGrab (fun q => ?_) ?_
    (h.settled hq)
  · show ((s.toTable.setPlayer p player).playerList q).hasNewCard = true ↔ q = p
    rw [Table.playerList_setPlayer]
    by_cases hqp : q = p
    · simp [hqp, hnew]
    · simp [hqp, h.newCard q]
  · show ((s.toTable.setPlayer p player).playerList p).newCard ∉ huaList
    rw [Table.playerList_setPlayer, if_pos rfl]
    rcases hnewsub rfl with hnull | hmem
    · dsimp only at hnull
      rw [hnull]
      exact kCardNull_notMem_huaList
    · exact h.balanced.flowers p _ hmem

/-- A kong on a discard is followed by a draw. -/
lemma doGang_kept (h : Granted W s t b) (hq : s.isQiangGanging = false)
    (hgang : (s.playerList (nextPlayerPos t)).canGang b = true) :
    (doGang s (nextPlayerPos t) b t).1 = true ∧ Kept W (doGang s (nextPlayerPos t) b t).2 := by
  set p := nextPlayerPos t with hp
  have hsub := MJPlayer.doGang_subset (s.playerList p) b t
  obtain ⟨player, hdo, hs, htiles, hnew, -⟩ :=
    MJPlayer.doGang_sound t (h.balanced.sound p nextPlayerPos_mem) hgang h.valid
  rw [hdo] at hsub
  obtain ⟨l, hriver⟩ := h.river hq
  have hbal := take_balanced h.balanced hriver hs htiles hsub
  simp only [doGang, hdo, if_true, true_and]
  refine giveNewCard_kept ⟨hbal, h.chain, nextPlayerPos_mem, fun q => ?_, hq, h.noGrab, h.noPlay,
    fun hnone => absurd (h.pos.symm.trans hnone) (by simp), fun q _ => h.opers q,
    Or.inl fun o ho => ?_, fun q hlast => absurd hlast (h.settled hq q)⟩
  · show ((s.toTable.setPlayer p player).playerList q).hasNewCard = false
    rw [Table.playerList_setPlayer]
    split_ifs
    · exact hnew
    · exact h.newCard q
  · change o ∈ s.playerGrabMgr.canGrabMgr.opers p at ho
    rw [h.opers p] at ho
    exact absurd ho List.not_mem_nil

/-- All claims on a discard have been given up; on the tile of an added kong only when there is no
tile to draw. -/
lemma cancelEnd_kept (h : Granted W s t b) (hq : s.isQiangGanging = false ∨ s.mjWall = []) :
    Kept W (cancelEnd s (nextPlayerPos t)).state := by
  obtain ⟨map, hmap, hplay⟩ := h.map
  unfold cancelEnd
  by_cases hstop : (s.isQiangGanging && s.qiangGangInfo.isNone) = true
  · rw [if_pos hstop]
    exact ⟨h.balanced, h.chain, oneNew_of_none h.newCard,
      fun _ => Or.inr (Or.inr ⟨h.newCard, h.opers, h.noGrab⟩)⟩
  rw [if_neg hstop]
  by_cases hrob : s.isQiangGanging = true
  · -- the round is drawn, as there is no tile for the wrong seat
    have hwall := hq.resolve_left (by simp [hrob])
    simp only [hrob, if_true, hmap, if_neg hplay]
    exact giveNewCard_kept_of_empty
      (s := { s with isQiangGanging := false, qiangGangInfo := none })
      (h.balanced.of_same rfl rfl rfl rfl) h.chain (oneNew_of_none h.newCard) hwall _
  · simp only [hrob, Bool.false_eq_true, if_false, hmap, if_neg hplay]
    rw [Bool.not_eq_true] at hrob
    rw [Handled.state, h.cur]
    exact giveNewCard_kept ⟨h.balanced, h.chain, nextPlayerPos_mem, h.newCard, hrob, h.noGrab,
      h.noPlay, fun hnone => absurd (h.pos.symm.trans hnone) (by simp), fun q _ => h.opers q,
      Or.inl fun o ho => absurd (h.opers _ ▸ ho) List.not_mem_nil,
      fun q hlast => absurd hlast (h.settled hrob q)⟩

end Answers

/-! ### Messages -/

/-- The tests `onGrabCard` makes of a choice before it is recorded. -/
def accepts (s : Round) (pos : Seat) (oper : Oper) (card : Option ℕ) : Bool :=
  s.playerGrabMgr.hasOper pos oper &&
    ((s.playerCanDoMap pos).bind fun canDoMap => canDoMap.cards oper).any fun cardList =>
      oper == .cancel || card.any (cardList.contains ·)

/-- The choice is taken, and claims a run; or it gives up the claims on an added kong, or answers
claims while a flower waits, and there is a tile for the wrong seat to draw. -/
def misleads (s : Round) (pos : Seat) (oper : Oper) (card : Option ℕ) : Bool :=
  accepts s pos oper card &&
    (chiOpers.contains oper && !(s.playerList pos).hasNewCard ||
      !s.mjWall.isEmpty &&
        (oper == .cancel && s.isQiangGanging ||
          [Oper.peng, Oper.mg, Oper.cancel].contains oper &&
            huaList.contains (s.playerList pos).newCard))

section Messages

variable {W : Multiset ℕ} {s : Round} {t pos : Seat} {oper : Oper} {b c : ℕ}

/-- The state after a choice has been recorded. -/
def recorded (s : Round) (pos : Seat) (oper : Oper) (c : ℕ) (m : MJCancelMgr) : Round :=
  { s.setGrab (s.playerGrabMgr.playerDoGrab pos oper (some c)).2 with mjCancelMgr := m }

/-- The state in which a recorded choice is carried out. -/
def stopped (s : Round) : Round := { s with waitGrabHandle := false, waitPlayHandle := none }

lemma grabEnd_of_getPowestNode {s : Round} {q : Seat} {node : GrabItem}
    (hpos : s.playerGrabMgr.pos = some q) (hnode : s.playerGrabMgr.getPowestNode = some node)
    (hop : node.operList.head? = some oper) {c : ℕ} (hcard : node.byteCard = some c) :
    grabEnd s = carryOut (stopped s) node.pos oper c q := by
  simp only [grabEnd, hpos, hnode, hop, hcard]
  rfl

/-- The choice of the only seat with offers is carried out, unless the seat may play and has chosen
to cancel. -/
lemma decideOrWait_recorded (hmem : oper ∈ s.playerGrabMgr.canGrabMgr.opers t)
    (ho : oper ∈ operLevel) (hdone : ∀ p, s.playerGrabMgr.doneGrabMgr.opers p = [])
    (honly : ∀ p, p ≠ t → s.playerGrabMgr.canGrabMgr.opers p = []) {q : Seat}
    (hpos : s.playerGrabMgr.pos = some q) (c : ℕ) (m : MJCancelMgr) :
    decideOrWait (recorded s t oper c m) =
      if .play ∈ s.playerGrabMgr.canGrabMgr.opers t ∧ level .play ≤ level oper then
        .ok (recorded s t oper c m)
      else carryOut (stopped (recorded s t oper c m)) t oper c q := by
  obtain ⟨⟨node, hnode, hp, hop, hcard⟩, wait, hwait, hiff⟩ :=
    playerDoGrab_alone (c := c) hmem ho hdone honly
  have hpos' : (s.playerGrabMgr.playerDoGrab t oper (some c)).2.pos = some q := by
    rw [PlayerGrabMgr.pos_playerDoGrab]
    exact hpos
  have hwait' : (recorded s t oper c m).playerGrabMgr.needWait = some wait := hwait
  unfold decideOrWait
  rw [hwait']
  cases wait with
  | true => rw [if_pos (hiff.mp rfl)]
  | false =>
    have hend := grabEnd_of_getPowestNode (s := recorded s t oper c m) hpos' hnode
      (by rw [hop]; rfl) hcard
    rw [if_neg fun h => absurd (hiff.mpr h) (by simp)]
    rw [hp] at hend
    exact hend

/-- A choice of the seat whose turn it is, while it has made none before. -/
lemma Acting.undecided (ha : Acting s t) (hmem : oper ∈ s.playerGrabMgr.canGrabMgr.opers t)
    (hplay : oper ≠ .play) (p : Seat) : s.playerGrabMgr.doneGrabMgr.opers p = [] := by
  by_cases hp : p = t
  · by_contra hne
    rw [hp] at hne
    exact hplay (ha.free hne oper hmem)
  · exact ha.others p hp

/-- After a choice of its own the seat may at most play. -/
lemma Turn.choose (ht : Turn s t) (hhua : (s.playerList t).newCard ∉ huaList)
    (hmem : oper ∈ s.playerGrabMgr.canGrabMgr.opers t) (hplay : oper ≠ .play) (c : ℕ)
    (m : MJCancelMgr) (isPrevTing isTing : Seat → Bool) :
    Turn { recorded s t oper c m with isPrevTing := isPrevTing, isTing := isTing } t := by
  have ha := ht.acting hhua
  have hopers := opers_playerDoGrab_alone (c := c) hmem (ha.undecided hmem hplay t) ht.opers
  refine ⟨ht.seated, ht.cur, ?_, ht.newCard, ht.quiet, ht.noGrab, fun p hp => ?_,
    fun h => absurd h hhua, fun _ => ⟨?_, fun o ho hcancel hne => ?_, fun p hp => ?_,
    fun _ o ho => ?_⟩, ht.settled⟩
  · show (s.playerGrabMgr.playerDoGrab t oper (some c)).2.pos ≠ none
    rw [PlayerGrabMgr.pos_playerDoGrab]
    exact ht.pos
  · exact (hopers p).trans (if_neg hp)
  · refine (hopers t).symm ▸ ?_
    simp [ha.play]
  · have ho' := (hopers t) ▸ ho
    simp only [if_true, ha.play, List.mem_singleton] at ho'
    exact absurd ho' hne
  · exact (PlayerGrabMgr.opers_playerDoGrab_of_ne hp (some c)).2.trans (ha.others p hp)
  · have ho' := (hopers t) ▸ ho
    simpa only [if_true, ha.play, List.mem_singleton] using ho'

/-- The state in which a choice of the seat whose turn it is is carried out. -/
lemma Turn.deciding (h : Kept W s) (ht : Turn s t) (hhua : (s.playerList t).newCard ∉ huaList)
    (hmem : oper ∈ s.playerGrabMgr.canGrabMgr.opers t) (hplay : oper ≠ .play) (c : ℕ)
    (m : MJCancelMgr) : Deciding W (stopped (recorded s t oper c m)) t := by
  have ht' := ht.choose hhua hmem hplay c m s.isPrevTing s.isTing
  exact ⟨h.balanced.of_same rfl rfl rfl rfl, h.chain, ht.seated, ht.cur, ht'.pos, ht.newCard, hhua,
    ht.quiet, rfl, rfl, ht'.opers, PlayerGrabMgr.opers_playerDoGrab_self hmem (some c), ht.settled⟩

/-- A choice of the seat whose turn it is, of a tile that is no flower. -/
lemma decideOrWait_of_acting (h : Kept W s) (ht : Turn s t)
    (hhua : (s.playerList t).newCard ∉ huaList)
    (hmem : oper ∈ s.playerGrabMgr.canGrabMgr.opers t) (hplay : oper ≠ .play) (hting : oper ≠ .ting)
    (hdo : oper = .cancel ∨ MayDo (s.playerList t) oper c) (m : MJCancelMgr) :
    Kept W (decideOrWait (recorded s t oper c m)).state := by
  have ha := ht.acting hhua
  have hd := ht.deciding h hhua hmem hplay c m
  have hlevel : oper ∈ operLevel := by
    rcases hdo with rfl | rfl | rfl | ⟨rfl, -⟩ | ⟨rfl, -⟩
    · decide
    · decide
    · exact absurd rfl hting
    · decide
    · decide
  obtain ⟨q, hq⟩ := Option.ne_none_iff_exists'.mp ht.pos
  rw [decideOrWait_recorded hmem hlevel (ha.undecided hmem hplay) ht.opers hq]
  rcases hdo with rfl | rfl | rfl | ⟨rfl, hag⟩ | ⟨rfl, hc, hpile⟩
  · -- the seat may still play, and is waited for
    rw [if_pos ⟨ha.play, by decide⟩]
    exact ⟨h.balanced.of_same rfl rfl rfl rfl, h.chain, oneNew_of_iff ht.newCard, fun _ =>
      Or.inl ⟨t, ht.choose hhua hmem hplay c m s.isPrevTing s.isTing⟩⟩
  · rw [if_neg fun h => absurd h.2 (by decide)]
    exact doHu_kept hd.balanced hd.chain (oneNew_of_iff hd.newCard) t c
  · exact absurd rfl hting
  · rw [if_neg fun h => absurd h.2 (by decide)]
    exact doAnGang_kept hd q hag
  · rw [if_neg fun h => absurd h.2 (by decide)]
    exact doMXGang_kept hd hc hpile

/-- An answer to claims that have not been answered in time, while a flower waits: to win ends the
round, a run is refused, and the others only come when no tile is left. -/
lemma decideOrWait_of_late (h : Kept W s) (ht : Turn s t)
    (hhua : (s.playerList t).newCard ∈ huaList) (hl : Late s.playerGrabMgr t)
    (hmem : oper ∈ s.playerGrabMgr.canGrabMgr.opers t)
    (hwall : oper ∈ [Oper.peng, Oper.mg, Oper.cancel] → s.mjWall = []) (c : ℕ) (m : MJCancelMgr) :
    Kept W (decideOrWait (recorded s t oper c m)).state := by
  have hkinds := hl.opers oper hmem
  have hlevel : oper ∈ operLevel := by
    have hall : ∀ o ∈ [Oper.hu, .mg, .peng, .cancel] ++ chiOpers, o ∈ operLevel := by decide
    exact hall oper hkinds
  have hnoPlay : .play ∉ s.playerGrabMgr.canGrabMgr.opers t := by
    intro hplay
    exact absurd (hl.opers _ hplay) (by decide)
  obtain ⟨q, hq⟩ := Option.ne_none_iff_exists'.mp ht.pos
  rw [decideOrWait_recorded hmem hlevel hl.undecided ht.opers hq, if_neg fun h => hnoPlay h.1]
  set s₁ := stopped (recorded s t oper c m) with hs₁
  have hbal : Balanced W s₁.toTable := h.balanced.of_same rfl rfl rfl rfl
  have hnew : (s₁.playerList t).hasNewCard = true := (ht.newCard t).mpr rfl
  have hone := oneNew_of_iff (s := s₁.toTable) ht.newCard
  have hopers := opers_playerDoGrab_alone (c := c) hmem (hl.undecided t) ht.opers
  have hclosed : ∀ p, s₁.playerGrabMgr.canGrabMgr.opers p = [] := by
    intro p
    refine (hopers p).trans ?_
    simp [hnoPlay]
  have hkept : Kept W s₁ := by
    refine ⟨hbal, h.chain, hone, fun _ => Or.inl ⟨t, ht.seated, ht.cur, ?_, ht.newCard,
      ht.quiet, rfl, fun p _ => hclosed p, fun _ => ⟨rfl, Or.inl fun o ho => ?_⟩,
      fun hnot => absurd hhua hnot, ht.settled⟩⟩
    · show (s.playerGrabMgr.playerDoGrab t oper (some c)).2.pos ≠ none
      rw [PlayerGrabMgr.pos_playerDoGrab]
      exact ht.pos
    · rw [hclosed t] at ho
      exact absurd ho List.not_mem_nil
  have hchi : ∀ o, MyPlayer.doChi (s₁.playerList t) c o q = (false, s₁.playerList t) := by
    intro o
    have hnone : (s₁.playerList t).getCanChiType c = [] := by
      rw [MJPlayer.getCanChiType, if_pos hnew]
    rw [MyPlayer.doChi, hnone, if_pos List.not_mem_nil]
  simp only [List.cons_append, List.nil_append, chiOpers, List.mem_cons, List.not_mem_nil,
    or_false] at hkinds
  rcases hkinds with rfl | rfl | rfl | rfl | rfl | rfl | rfl
  · exact doHu_kept hbal h.chain hone t c
  · have hdo : doGang s₁ t c q = (false, s₁) := by
      simp [doGang, MJPlayer.doGang, MJPlayer.canGang, hnew]
    simp only [carryOut, hdo, Bool.false_eq_true, if_false]
    exact giveNewCard_kept_of_empty hbal h.chain hone (hwall (by decide)) _
  · have hdo : doPeng s₁ t c q = (false, s₁) := by
      simp [doPeng, MJPlayer.doPeng, MJPlayer.canPeng, hnew]
    simp only [carryOut, hdo, Bool.false_eq_true, if_false]
    exact giveNewCard_kept_of_empty hbal h.chain hone (hwall (by decide)) _
  · have hquiet : s₁.isQiangGanging = false := ht.quiet
    simp only [carryOut, cancelEnd, hquiet, Bool.false_and, Bool.false_eq_true, if_false]
    cases s₁.playerCanDoMap t with
    | none => exact hkept
    | some map =>
      dsimp only
      split_ifs
      · exact hkept
      · exact giveNewCard_kept_of_empty hbal h.chain hone (hwall (by decide)) _
  · simp only [carryOut, doChi, hchi, Bool.false_eq_true, if_false]
    exact hkept
  · simp only [carryOut, doChi, hchi, Bool.false_eq_true, if_false]
    exact hkept
  · simp only [carryOut, doChi, hchi, Bool.false_eq_true, if_false]
    exact hkept

/-- An answer to the claims on a tile, other than to claim a run. -/
lemma decideOrWait_of_claim (h : Kept W s) (hc : Claim s t b)
    (hmem : oper ∈ s.playerGrabMgr.canGrabMgr.opers (nextPlayerPos t)) (hchi : oper ∉ chiOpers)
    (hcard : oper ≠ .cancel → c = b) (hmap : (s.playerCanDoMap (nextPlayerPos t)).isSome)
    (hwall : oper = .cancel → s.isQiangGanging = true → s.mjWall = []) (m : MJCancelMgr) :
    Kept W (decideOrWait (recorded s (nextPlayerPos t) oper c m)).state := by
  have hkind := hc.claims oper hmem
  have hlevel : oper ∈ operLevel := by
    rcases hkind with rfl | rfl | ⟨rfl, -⟩ | ⟨rfl, -⟩ | h
    · decide
    · decide
    · decide
    · decide
    · exact absurd h hchi
  have hnoPlay : .play ∉ s.playerGrabMgr.canGrabMgr.opers (nextPlayerPos t) := by
    intro hplay
    rcases hc.claims _ hplay with h | h
    · exact absurd h (by decide)
    · exact absurd h.mem (by decide)
  rw [decideOrWait_recorded hmem hlevel hc.undecided hc.opers hc.pos,
    if_neg fun h => hnoPlay h.1]
  set s₁ := stopped (recorded s (nextPlayerPos t) oper c m) with hs₁
  have hopers := opers_playerDoGrab_alone (c := c) hmem (hc.undecided _) hc.opers
  obtain ⟨map, hmap⟩ := Option.isSome_iff_exists.mp hmap
  have hg : Granted W s₁ t b := by
    refine ⟨h.balanced.of_same rfl rfl rfl rfl, h.chain, hc.seated, hc.cur, ?_, hc.valid,
      hc.newCard, fun p => (hopers p).trans ?_, rfl, rfl, ⟨map, hmap, hc.noPlay map hmap⟩,
      hc.river, hc.settled⟩
    · show (s.playerGrabMgr.playerDoGrab (nextPlayerPos t) oper (some c)).2.pos = some t
      rw [PlayerGrabMgr.pos_playerDoGrab]
      exact hc.pos
    · simp [hnoPlay]
  -- the tile of an added kong can neither be claimed by peng nor by kong
  have hquiet : 0 < (s.playerList (nextPlayerPos t)).cardList.count b →
      s.isQiangGanging = false := by
    intro hpos
    by_contra hrob
    rw [Bool.not_eq_false] at hrob
    have hzero := count_eq_zero_of_robbed h.balanced hc.seated (hc.robbed hrob).1
    omega
  rcases hkind with rfl | rfl | ⟨rfl, hgang⟩ | ⟨rfl, hpeng⟩ | h'
  · refine cancelEnd_kept hg ?_
    cases hrob : s.isQiangGanging with
    | false => exact Or.inl hrob
    | true => exact Or.inr (hwall rfl hrob)
  · exact doHu_kept hg.balanced hg.chain (oneNew_of_none hg.newCard) _ _
  · obtain rfl := hcard (by decide)
    have hcount : 0 < (s.playerList (nextPlayerPos t)).cardList.count c := by
      simp only [MJPlayer.canGang, Bool.and_eq_true, decide_eq_true_eq,
        MJPlayer.getCardCountInHand_false] at hgang
      omega
    obtain ⟨hdo, hk⟩ := doGang_kept hg (hquiet hcount) hgang
    simp only [carryOut, hdo, if_true]
    exact hk
  · obtain rfl := hcard (by decide)
    have hcount : 0 < (s.playerList (nextPlayerPos t)).cardList.count c := by
      simp only [MJPlayer.canPeng, Bool.and_eq_true, decide_eq_true_eq,
        MJPlayer.getCardCountInHand_false] at hpeng
      omega
    obtain ⟨hdo, hk⟩ := doPeng_kept hg (hquiet hcount) hpeng
    simp only [carryOut, hdo, if_true]
    exact hk
  · exact absurd h' hchi

/-- What it means that a choice that is taken does not mislead. -/
lemma of_not_misleads {card : Option ℕ} (hacc : accepts s pos oper card = true)
    (hok : misleads s pos oper card = false) :
    (oper ∈ chiOpers → (s.playerList pos).hasNewCard = true) ∧
    (oper = .cancel → s.isQiangGanging = true → s.mjWall = []) ∧
    (oper ∈ [Oper.peng, Oper.mg, Oper.cancel] → (s.playerList pos).newCard ∈ huaList →
      s.mjWall = []) := by
  rw [misleads, hacc, Bool.true_and, Bool.or_eq_false_iff] at hok
  obtain ⟨hchi, hwall⟩ := hok
  have hempty : ∀ {x : Bool}, (!s.mjWall.isEmpty && x) = false → x = true → s.mjWall = [] := by
    intro x hand hx
    simpa [hx] using hand
  refine ⟨fun ho => ?_, fun ho hrob => hempty hwall ?_, fun ho hhua => hempty hwall ?_⟩
  · simpa [ho] using hchi
  · simp [ho, hrob]
  · simp only [List.contains_iff_mem.mpr ho, List.contains_iff_mem.mpr hhua, Bool.and_self,
      Bool.or_true]

/-- A choice that is taken. -/
lemma decideOrWait_kept (h : Kept W s) (hgo : s.endArgs = none)
    (hmem : oper ∈ s.playerGrabMgr.canGrabMgr.opers pos) (hplay : oper ≠ .play)
    (hting : oper ≠ .ting) {map : CanDoMap} {l : List ℕ} (hmap : s.playerCanDoMap pos = some map)
    (hl : map.cards oper = some l) (hc : oper = .cancel ∨ c ∈ l) {card : Option ℕ}
    (hacc : accepts s pos oper card = true) (hok : misleads s pos oper card = false)
    (m : MJCancelMgr) : Kept W (decideOrWait (recorded s pos oper c m)).state := by
  obtain ⟨hchi, hrob, hlate⟩ := of_not_misleads hacc hok
  rcases h.phase hgo with ⟨t, ht⟩ | ⟨t, b, hb⟩ | hs
  · obtain rfl : pos = t := by
      by_contra hp
      rw [ht.opers pos hp] at hmem
      exact absurd hmem List.not_mem_nil
    by_cases hhua : (s.playerList pos).newCard ∈ huaList
    · rcases (ht.waiting hhua).2 with hall | hl'
      · exact absurd (hall oper hmem) hplay
      · exact decideOrWait_of_late h ht hhua hl' hmem (fun ho => hlate ho hhua) c m
    · refine decideOrWait_of_acting h ht hhua hmem hplay hting ?_ m
      by_cases hcancel : oper = .cancel
      · exact Or.inl hcancel
      · exact Or.inr ((ht.acting hhua).offers oper hmem hcancel hplay map l hmap hl c
          (hc.resolve_left hcancel))
  · obtain rfl : pos = nextPlayerPos t := by
      by_contra hp
      rw [hb.opers pos hp] at hmem
      exact absurd hmem List.not_mem_nil
    refine decideOrWait_of_claim h hb hmem (fun ho => ?_) (fun hcancel => ?_) (by simp [hmap]) hrob m
    · exact absurd (hchi ho) (by simp [hb.newCard])
    · have hlist := hb.offers oper hmem hcancel map l hmap hl
      rw [hlist] at hc
      exact List.mem_singleton.mp (hc.resolve_left hcancel)
  · rw [hs.opers pos] at hmem
    exact absurd hmem List.not_mem_nil

/-- A choice of a client. -/
lemma onGrabCard_kept (h : Kept W s) (hgo : s.endArgs = none) (pos : Seat) (hplay : oper ≠ .play)
    (card : Option ℕ) (hok : misleads s pos oper card = false) :
    Kept W (onGrabCard s pos oper card).state := by
  unfold onGrabCard
  by_cases hmem : oper ∈ s.playerGrabMgr.canGrabMgr.opers pos
  swap
  · have hhas := PlayerGrabMgr.hasOper_eq_false hmem
    simp only [hhas, Bool.not_false, if_true]
    exact h
  have hhas := PlayerGrabMgr.hasOper_iff.mpr hmem
  simp only [hhas, Bool.not_true, Bool.false_eq_true, if_false]
  cases hmap : s.playerCanDoMap pos with
  | none => exact h
  | some map =>
    cases hl : map.cards oper with
    | none =>
      simp only [Option.bind_some, hl, Option.map_none]
      exact h
    | some l =>
      simp only [Option.bind_some, hl, Option.map_some]
      by_cases hting : oper = .ting
      · rw [if_pos hting]
        rcases h.phase hgo with ⟨t, ht⟩ | ⟨t, b, hb⟩ | hs
        · obtain rfl : pos = t := by
            by_contra hp
            rw [ht.opers pos hp] at hmem
            exact absurd hmem List.not_mem_nil
          have hhua : (s.playerList pos).newCard ∉ huaList := by
            intro hhua
            rcases (ht.waiting hhua).2 with hall | hl'
            · exact hplay (hall oper hmem)
            · have hkind := hl'.opers oper hmem
              rw [hting] at hkind
              exact absurd hkind (by decide)
          exact ⟨h.balanced.of_same rfl rfl rfl rfl, h.chain, oneNew_of_iff ht.newCard, fun _ =>
            Or.inl ⟨pos, ht.choose hhua hmem hplay 1 s.mjCancelMgr _ _⟩⟩
        · by_cases hp : pos = nextPlayerPos t
          · rw [hp, hting] at hmem
            rcases hb.claims _ hmem with h' | h'
            · exact absurd h' (by decide)
            · exact absurd h'.mem (by decide)
          · rw [hb.opers pos hp] at hmem
            exact absurd hmem List.not_mem_nil
        · rw [hs.opers pos] at hmem
          exact absurd hmem List.not_mem_nil
      rw [if_neg hting]
      by_cases hcancel : oper = .cancel
      · rw [if_pos hcancel]
        have hacc : accepts s pos oper card = true := by
          simp only [accepts, hhas, hmap, Option.bind_some, hl, Option.any_some, Bool.true_and]
          simp [hcancel]
        have hkept := decideOrWait_kept (c := 1) h hgo hmem hplay hting hmap hl (Or.inl hcancel)
          hacc hok
        split_ifs
        · exact hkept s.mjCancelMgr
        · exact hkept (addCancelOpers s.mjCancelMgr pos map)
      · rw [if_neg hcancel]
        cases card with
        | none => exact h
        | some b =>
          by_cases hb : b ∈ l
          · have hcont : (some b).any (l.contains ·) = true := by simpa using hb
            have hacc : accepts s pos oper (some b) = true := by
              simp [accepts, hhas, hmap, hl, hb]
            rw [if_pos hcont]
            exact decideOrWait_kept h hgo hmem hplay hting hmap hl (Or.inr hb) hacc hok
              s.mjCancelMgr
          · have hcont : ¬(some b).any (l.contains ·) = true := by simpa using hb
            rw [if_neg hcont]
            exact h

/-- The claims on a tile are not answered in time. -/
lemma grabTimeOut_kept (h : Kept W s) (hgo : s.endArgs = none) (hgrab : s.waitGrabHandle = true)
    (hwall : s.isQiangGanging = true → s.mjWall = []) : Kept W (grabEnd s).state := by
  rcases h.phase hgo with ⟨t, ht⟩ | ⟨t, b, hc⟩ | hs
  · exact absurd (ht.noGrab.symm.trans hgrab) (by decide)
  · have hnode := getPowestNode_of_undecided hc.undecided
    have hend : grabEnd s = .ok (giveNewCard (stopped s) (nextPlayerPos t)) := by
      unfold grabEnd
      dsimp only
      rw [hc.pos, hnode]
      rfl
    rw [hend]
    by_cases hrob : s.isQiangGanging = true
    · exact giveNewCard_kept_of_empty (s := stopped s) h.balanced h.chain
        (oneNew_of_none hc.newCard) (hwall hrob) _
    · rw [Bool.not_eq_true] at hrob
      refine giveNewCard_kept ⟨h.balanced, h.chain, nextPlayerPos_mem, hc.newCard, hrob, rfl, rfl,
        fun hnone => absurd (hc.pos.symm.trans hnone) (by simp), hc.opers,
        Or.inr ⟨fun o ho => ?_, hc.undecided⟩, fun q hlast => absurd hlast (hc.settled hrob q)⟩
      rcases hc.claims o ho with rfl | hclaim
      · decide
      · exact hclaim.mem
  · exact absurd (hs.noGrab.symm.trans hgrab) (by decide)

end Messages

/-! ### The deal -/

section Dealing

lemma addHua_putsAside : PutsAside MJPlayer.addHua := fun _ _ => ⟨.buHua, rfl⟩

/-- Every tile of the wall is a suit tile, an honour or a flower. -/
lemma wallTiles_legal : ∀ c ∈ wallTiles,
    MJCard.isValid c = true ∧ (c ≤ Zi7 ∨ c ∈ huaList) := by
  decide +kernel

/-- No tile is there more than four times. -/
lemma count_wallTiles_le (c : ℕ) : wallTiles.count c ≤ 4 := by
  by_cases hc : c ∈ wallTiles
  · have hall : ∀ c ∈ wallTiles, wallTiles.count c ≤ 4 := by decide +kernel
    exact hall c hc
  · rw [List.count_eq_zero_of_not_mem hc]
    omega

/-- The hands after the deal and the exchange of the flowers. -/
lemma exchangeHands_spec (d : Deal) :
    let r := exchangeHands (dealHandCards d.wall d.banker)
    ∑ p, (r.1 p).tiles + ↑r.2 = (d.wall : Multiset ℕ) ∧ (∀ p ∈ playing, (r.1 p).Sound) ∧
      (∀ p, (r.1 p).hasNewCard = true ↔ p = d.banker) ∧
      ∀ p, flowerCount huaList (r.1 p) = 0 := by
  intro r
  have hlen : d.wall.length = 72 := d.perm.length_eq
  have hvalid : ∀ c ∈ d.wall, MJCard.isValid c = true := fun c hc =>
    (wallTiles_legal c (d.perm.subset hc)).1
  obtain ⟨htiles, hsound, hnew, -, -, hempty, hrest⟩ :=
    dealTo_spec (l := playing) (by decide) d.seated (by rw [hlen]; decide) hvalid
  set r₀ := dealTo playing d.wall d.banker with hr₀
  have hwall : ∀ c ∈ r₀.2, MJCard.isValid c = true := by
    intro c hc
    apply hvalid
    rw [← Multiset.mem_coe, ← htiles, Multiset.mem_add]
    exact Or.inr (Multiset.mem_coe.mpr hc)
  have hcount : (d.wall : Multiset ℕ).countP (· ∈ huaList) = 8 := by
    rw [Multiset.coe_countP, d.perm.countP_eq]
    decide
  have hbound := sum_flowerCount_le kCardNull_notMem_huaList r₀
  rw [htiles, hcount, Fin.sum_univ_four] at hbound
  have hsum : (playing.map fun p => flowerCount huaList (r₀.1 p)).sum +
      r₀.2.countP (· ∈ huaList) ≤ r₀.2.length := by
    have hplaying : (playing.map fun p => flowerCount huaList (r₀.1 p)).sum =
        flowerCount huaList (r₀.1 0) + flowerCount huaList (r₀.1 1) := by
      simp [playing]
    have hseats : playing.length = 2 := rfl
    rw [hplaying]
    omega
  obtain ⟨r', hfold, h1, h2, h3, h4, h5⟩ := exchangeAll_spec addHua_putsAside
    kCardNull_notMem_huaList playing r₀ (by decide) hsound hwall hsum
  have hr : r = r' := hfold
  rw [hr]
  refine ⟨h5.trans htiles, h1, fun p => by rw [h3 p]; exact hnew p, fun p => ?_⟩
  by_cases hp : p ∈ playing
  · exact h2 p hp
  · rw [h4 p hp, hempty p hp]
    decide

/-- After the deal the banker has the turn. -/
lemma onEntry_kept (d : Deal) : Kept ↑d.wall (onEntry d) := by
  obtain ⟨htiles, hsound, hnew, hflow⟩ := exchangeHands_spec d
  set r := exchangeHands (dealHandCards d.wall d.banker) with hr
  have hnone : ∀ p, ∀ c ∈ (r.1 p).newCard :: (r.1 p).cardList, c ∉ huaList := by
    intro p c hc
    have hzero := List.countP_eq_zero.mp (hflow p) c hc
    simpa using hzero
  unfold onEntry
  refine checkMyOper_kept ?_ List.IsChain.nil d.seated rfl rfl rfl hnew
    (hnone d.banker _ List.mem_cons_self) (by simp)
  refine ⟨fun c hc => wallTiles_legal c (d.perm.subset hc), fun c => ?_, ?_, hsound, d.noTest,
    fun p c hc => hnone p c (List.mem_cons_of_mem _ hc)⟩
  · rw [Multiset.coe_count, d.perm.count_eq]
    exact count_wallTiles_le c
  · rw [← htiles]
    simp only [Table.tiles, Multiset.coe_nil, Finset.sum_const_zero, add_zero]
    exact add_comm _ _

end Dealing

end Hands

/-! ### Every run -/

/-- The message plays a tile of the hand while the flower the seat has drawn waits for its
exchange. -/
def playsOverFlower (s : Round) (p : Seat) (card : Option ℕ) : Bool :=
  s.playerGrabMgr.hasOper p .play && huaList.contains (s.playerList p).newCard &&
    (playedCard s p card).any fun card => card.any fun b =>
      b != (s.playerList p).newCard && (s.playerList p).cardList.contains b

/-- The message does not ask for a tile by the debug operation. -/
def NoTest (_ : Round) (e : Event) : Prop :=
  match e with
  | .clientMsg _ pkg => Oper.ofCode pkg.operation ≠ some .testNeedCard
  | _ => True

/-- The message neither plays over a flower nor makes a choice that misleads. -/
def orderlyMsg (s : Round) (p : Seat) (pkg : ClientMsg) : Bool :=
  let card := fromOld2NowCardByteMap pkg.card_bytes
  match Oper.ofCode pkg.operation with
  | none => true
  | some oper => if oper = .play then !playsOverFlower s p card else !Hands.misleads s p oper card

/-- The event is none of those that lose or double a tile or pass the turn to the wrong seat: no run
is claimed; an added kong that may be robbed is neither let through nor left to the timer, unless
the wall is empty; claims are not answered late, unless the wall is empty; and no flower that waits
for its exchange is played over. -/
def Orderly (s : Round) (e : Event) : Prop :=
  NoTest s e ∧
    match e with
    | .clientMsg p pkg => orderlyMsg s p pkg = true
    | .grabTimeOut => s.isQiangGanging = false ∨ s.mjWall = []
    | _ => True

instance (s : Round) (e : Event) : Decidable (NoTest s e) :=
  match e with
  | .clientMsg _ _ => inferInstanceAs (Decidable (_ ≠ _))
  | .playTimeOut => inferInstanceAs (Decidable True)
  | .grabTimeOut => inferInstanceAs (Decidable True)
  | .buHua _ => inferInstanceAs (Decidable True)

instance (s : Round) (e : Event) : Decidable (Orderly s e) :=
  match e with
  | .clientMsg _ _ => inferInstanceAs (Decidable (_ ∧ _ = true))
  | .playTimeOut => inferInstanceAs (Decidable (_ ∧ True))
  | .grabTimeOut => inferInstanceAs (Decidable (_ ∧ (_ ∨ _)))
  | .buHua _ => inferInstanceAs (Decidable (_ ∧ True))

/-- One event that is orderly keeps the invariant. -/
lemma step_kept {W : Multiset ℕ} {s s' : Round} {e : Event} (h : Hands.Kept W s)
    (hok : Orderly s e) (hstep : step s e = some s') : Hands.Kept W s' := by
  unfold step at hstep
  by_cases hover : s.endArgs.isSome = true
  · simp [hover] at hstep
  rw [if_neg hover] at hstep
  have hgo : s.endArgs = none := by simpa using hover
  obtain ⟨htest, hok⟩ := hok
  cases e with
  | clientMsg p pkg =>
    dsimp only [NoTest] at htest hok hstep
    split_ifs at hstep with hseat
    obtain rfl := Option.some.inj hstep
    unfold onClientMsg
    dsimp only
    cases hoper : Oper.ofCode pkg.operation with
    | none => exact h
    | some oper =>
      rw [hoper] at htest
      simp only [orderlyMsg, hoper] at hok
      by_cases hplay : oper = .play
      · subst hplay
        rw [if_pos rfl] at hok
        refine Hands.onPlayCard_kept h hgo p _ fun b hb hmem hhua hhand => ?_
        have hhas := PlayerGrabMgr.hasOper_iff.mpr hmem
        simpa [playsOverFlower, hhas, hhua, hb, hhand] using hok
      · rw [if_neg hplay, Bool.not_eq_true'] at hok
        have hkept := Hands.onGrabCard_kept h hgo p hplay _ hok
        cases oper with
        | play => exact absurd rfl hplay
        | testNeedCard => exact absurd rfl htest
        | syncData => exact h
        | _ => exact hkept
  | playTimeOut =>
    dsimp only at hstep
    obtain ⟨p, hhandle, rfl⟩ := Option.map_eq_some_iff.mp hstep
    refine Hands.onPlayCard_kept (h.of_same s.timers s.isTing (Or.inr rfl)) hgo p _
      fun b _ _ hhua _ => ?_
    -- the timer of playing does not run while a flower waits
    have hnone := ((h.turn_of_flower hgo hhua).waiting hhua).1
    rw [hhandle] at hnone
    exact absurd hnone (by simp)
  | grabTimeOut =>
    dsimp only at hstep hok
    split_ifs at hstep with hgrab
    obtain rfl := Option.some.inj hstep
    refine Hands.grabTimeOut_kept h hgo hgrab fun hrob => hok.resolve_left ?_
    simp [hrob]
  | buHua turn =>
    dsimp only at hstep
    split_ifs at hstep
    obtain rfl := Option.some.inj hstep
    exact Hands.buHua_kept (h.of_same (s.timers.erase turn) s.isTing (Or.inl rfl)) hgo turn

/-- **Tiles and turns.** In every run of orderly events, whatever else the clients send and whenever
the timers fire: the tiles of the wall, the hands, the piles, the rivers and the flower lists are
those of the wall at the beginning; every hand has thirteen tiles, each pile counted as three; at
most one seat has a new tile; and the move recorded after an added kong is a draw of its seat.

**Proof sketch.** The invariant `Hands.Kept` says in which phase the round is. A seat that has the
new tile carries out its choice or plays, and the other seat may then claim the tile; what is open
in each phase is possible with the tiles of the seat. The tile of an added kong cannot be claimed
by peng or kong, as its four copies lie with the seat that made it, so that only a win, or the
events excluded, can follow before that seat draws. -/
theorem tiles_turns_of_reaches (d : Deal) {s : Round}
    (hs : Runs.Reaches step Orderly (onEntry d) s) :
    s.tiles = ↑d.wall ∧
      (∀ p ∈ playing,
        (s.playerList p).cardList.length + 3 * (s.playerList p).pileList.length = 13) ∧
      (∀ p q, (s.playerList p).hasNewCard = true → (s.playerList q).hasNewCard = true → p = q) ∧
      s.moves.IsChain Hands.Follows := by
  have hk : Hands.Kept ↑d.wall s := hs.invariant (Hands.onEntry_kept d) fun _ _ _ => step_kept
  exact ⟨hk.balanced.tiles, fun p hp => (hk.balanced.sound p hp).size, hk.oneNew, hk.chain⟩

/-- The hands of a deal in which the second seat can claim a wind, and the tiles after them. -/
def kongHands : List ℕ :=
  [31, 11, 12, 14, 15, 17, 18, 32, 33, 34, 35, 36, 37] ++
  [31, 31, 11, 13, 14, 17, 19, 32, 33, 34, 35, 36, 37] ++ [19] ++ [16, 31, 18]

/-- The second seat draws the fourth copy of the wind. -/
def kongDeal : Deal where
  wall := kongHands ++ wallTiles.diff kongHands
  perm := by decide +kernel
  banker := 0
  seated := by decide
  last := newTable
  noTest := newTable_noTest

/-- The second seat claims the wind by peng, and adds the fourth copy to it. -/
def kongRun : List Event :=
  [.clientMsg 0 ⟨10, 170⟩, .clientMsg 1 ⟨2, 170⟩, .clientMsg 1 ⟨10, 172⟩, .clientMsg 0 ⟨10, 134⟩,
    .clientMsg 1 ⟨5, 170⟩]

/-- A run with an added kong, which its seat follows with a draw. -/
theorem tiles_turns_kongRun : ∃ s, Runs.Reaches step Orderly (onEntry kongDeal) s ∧
    s.moves = [.draw 0, .draw 1, .mxGang 1, .draw 1] ∧ s.tiles = ↑kongDeal.wall ∧
    (∀ p ∈ playing,
      (s.playerList p).cardList.length + 3 * (s.playerList p).pileList.length = 13) ∧
    (∀ p q, (s.playerList p).hasNewCard = true → (s.playerList q).hasNewCard = true → p = q) ∧
    s.moves.IsChain Hands.Follows := by
  have hrun : ((Runs.exec step Orderly (onEntry kongDeal) kongRun).any fun s =>
      decide (s.moves = [.draw 0, .draw 1, .mxGang 1, .draw 1])) = true := by decide +kernel
  obtain ⟨s, hexec, hmoves⟩ := (Option.any_eq_true _ _).mp hrun
  have hs : Runs.Reaches step Orderly (onEntry kongDeal) s :=
    Runs.reaches_of_exec kongRun .init hexec
  exact ⟨s, hs, of_decide_eq_true hmoves, tiles_turns_of_reaches kongDeal hs⟩

/-- The hands of a deal in which the second seat can claim a run, and the banker's tile. -/
def chiHands : List ℕ :=
  [11, 14, 17, 31, 31, 32, 32, 33, 33, 34, 34, 35, 35] ++
  [12, 13, 15, 16, 18, 19, 36, 36, 37, 37, 14, 17, 19] ++ [33]

/-- The second seat holds the two tiles after the banker's lowest one. -/
def chiDeal : Deal where
  wall := chiHands ++ wallTiles.diff chiHands
  perm := by decide +kernel
  banker := 0
  seated := by decide
  last := newTable
  noTest := newTable_noTest

/-- A claimed run loses the claimed tile: of the seventy-two tiles seventy-one are left. -/
theorem claimed_run_loses_tile : ¬∀ (d : Deal) (s : Round),
    Runs.Reaches step NoTest (onEntry d) s →
    s.tiles = ↑d.wall ∧
      (∀ p ∈ playing,
        (s.playerList p).cardList.length + 3 * (s.playerList p).pileList.length = 13) ∧
      (∀ p q, (s.playerList p).hasNewCard = true → (s.playerList q).hasNewCard = true → p = q) ∧
      s.moves.IsChain Hands.Follows := by
  intro hall
  have hrun : ((Runs.exec step NoTest (onEntry chiDeal)
      [.clientMsg 0 ⟨10, 129⟩, .clientMsg 1 ⟨8, 129⟩]).any fun s =>
      decide (Multiset.card s.tiles = 71)) = true := by decide +kernel
  obtain ⟨s, hexec, hcard⟩ := (Option.any_eq_true _ _).mp hrun
  have hs : Runs.Reaches step NoTest (onEntry chiDeal) s := Runs.reaches_of_exec _ .init hexec
  have htiles := congrArg Multiset.card (hall chiDeal s hs).1
  rw [of_decide_eq_true hcard, Multiset.coe_card] at htiles
  have hlen : chiDeal.wall.length = 72 := chiDeal.perm.length_eq
  omega

end Erren
