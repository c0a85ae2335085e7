import JsmjServer.Maanshan.GamePlaying
import JsmjServer.Mahjong.Deal
import JsmjServer.Nanjing.Winners

set_option relaxedAutoImplicit false
set_option autoImplicit false

/-!
# Wins by a live offer in maanshan mahjong

`doHu` carries out every declared win, for the seat with the drawn tile or for the first seat of
`multiHuPos`. The module says when a declared win is one that is offered, and when the winner still
has the offer: exactly when the sender and that first seat have not answered.

## Main definitions

* `Maanshan.HuLive` — a win on a tile is offered to a seat, which has not answered.
* `Maanshan.WinsByOffer` — what is claimed of a message that declares a win.
* `Maanshan.Honest` — the condition.
* `Maanshan.Live` — the invariant of the offers.

## Main results

* `Maanshan.winsByOffer_iff` — in every state reached, a declared win is by a live offer if and only
  if the condition holds.
-/

namespace Maanshan

open Mahjong

/-- A win on the tile is offered to the seat. An answer, by cancelling or otherwise, closes the
offer. -/
def HuLive (s : Table) (pos : Seat) (byteCard : ℕ) : Prop :=
  ∃ l, s.HuOffered pos l ∧ byteCard ∈ l

/-- The seat `w` comes before `pos` in the order after the seat whose tile is claimed. -/
def Precedes (s : Table) (w pos : Seat) : Prop :=
  ∃ t, s.playerGrabMgr.pos = some t ∧ w - t < pos - t

/-- When the message ends the round, a win on its tile is offered to the sender, and the winner is
the sender or a seat before it to which the win is offered as well. -/
def WinsByOffer (gameProgress : GameProgress) (s : Table) (pos : Seat) (pkg : ClientMsg) : Prop :=
  ∀ a, (onClientMsg gameProgress s pos pkg).state.endArgs = some a →
    ∃ byteCard, fromOld2NowCardByteMap pkg.card_bytes = some byteCard ∧ HuLive s pos byteCard ∧
      ∃ w, a.winnerPosList = [w] ∧ (w = pos ∨ HuLive s w byteCard ∧ Precedes s w pos)

/-- The message names no tile; or the win on its tile is offered to the sender, and unless the
sender has drawn the tile, the win is still offered to the first of the seats to which it was. -/
def Honest (s : Table) (pos : Seat) (pkg : ClientMsg) : Prop :=
  ∀ byteCard, fromOld2NowCardByteMap pkg.card_bytes = some byteCard →
    HuLive s pos byteCard ∧
      (s.bZiMo pos = true ∨ ∀ q, s.multiHuPos.head? = some q → HuLive s q byteCard)

/-! ### The invariant -/

/-- The seat waits for a tile of another seat and is in `multiHuPos`, which follows the order after
that seat. -/
def Waits (s : Table) (q : Seat) : Prop :=
  s.bZiMo q = false ∧ q ∈ s.multiHuPos ∧
    ∃ t, s.playerGrabMgr.pos = some t ∧ s.multiHuPos.Sublist [t + 1, t + 2, t + 3]

/-- A win is offered to a seat that has drawn a tile, or that waits for a tile of another; a seat
that has answered has no offer but to play a tile; and the tiles still to come are valid. -/
structure Live (s : Table) : Prop where
  offers : ∀ q l, s.HuOffered q l → s.bZiMo q = true ∨ Waits s q
  free : ∀ q, ∀ o ∈ s.playerGrabMgr.canGrabMgr.opers q, o ≠ .play → s.Unanswered q
  legal : Nanjing.Legal s

/-- The round goes on with live offers, or it is over. -/
def Kept (s : Table) : Prop := s.endArgs.isSome = true ∨ Live s

section Live

variable {s s' : Table} {p q : Seat}

/-- The invariant looks at the managers, the table of offers and the tiles still to come, and at the
hands of the seats that may win. -/
lemma Live.of_same (h : Live s)
    (hgrab : s'.playerGrabMgr = s.playerGrabMgr)
    (hmap : s'.playerCanDoMap = s.playerCanDoMap) (hmulti : s'.multiHuPos = s.multiHuPos)
    (hplayer : ∀ q, .hu ∈ s.playerGrabMgr.canGrabMgr.opers q → s'.playerList q = s.playerList q)
    (hlegal : Nanjing.Legal s') : Live s' := by
  refine ⟨?_, ?_, hlegal⟩
  · intro q l hq
    have hq' : s.HuOffered q l := by
      unfold Table.HuOffered at hq ⊢
      rw [hgrab, hmap] at hq
      exact hq
    have hz : s'.bZiMo q = s.bZiMo q := by
      unfold Table.bZiMo
      rw [hplayer q hq'.1]
    unfold Waits
    rw [hz, hmulti, hgrab]
    exact h.offers q l hq'
  · intro q o ho hne
    unfold Table.Unanswered
    rw [hgrab] at ho ⊢
    exact h.free q o ho hne

/-- The hand of a seat that has answered may change. -/
lemma Live.setPlayer (h : Live s) (hp : ¬ s.Unanswered p) (player : MJPlayer) :
    Live (s.setPlayer p player) := by
  refine h.of_same rfl rfl rfl ?_ h.legal
  intro q hq
  apply Function.update_of_ne
  rintro rfl
  exact hp (h.free q .hu hq (by decide))

/-- A choice other than to win: the offers of the seat are closed, and entries of the table may be
cleared. -/
lemma Live.choose {o : Oper} {c : ℕ} (h : Live s)
    (ho : o ∈ s.playerGrabMgr.canGrabMgr.opers p)
    (hgrab : s'.playerGrabMgr = (s.playerGrabMgr.playerDoGrab p o (some c)).2)
    (hmap : ∀ q, s'.playerCanDoMap q = some .empty ∨ s'.playerCanDoMap q = s.playerCanDoMap q)
    (hmulti : s'.multiHuPos = s.multiHuPos) (hplayers : s'.playerList = s.playerList)
    (hwall : s'.mjWall = s.mjWall) (hneed : s'.testPlayerNeedCard = s.testPlayerNeedCard) :
    Live s' ∧ ¬ s'.Unanswered p := by
  have hother := fun q (hq : q ≠ p) => PlayerGrabMgr.opers_playerDoGrab_of_ne (g := s.playerGrabMgr)
    (o := o) hq (some c)
  have hplay := PlayerGrabMgr.opers_playerDoGrab_self ho (some c)
  have hanswered : ¬ s'.Unanswered p := by
    unfold Table.Unanswered
    rw [hgrab]
    exact PlayerGrabMgr.opers_playerDoGrab_ne_nil ho
  refine ⟨⟨?_, ?_, ?_⟩, hanswered⟩
  · intro q l hq
    have hqp : q ≠ p := by
      rintro rfl
      have hhu := hq.1
      rw [hgrab] at hhu
      exact absurd (hplay _ hhu) (by decide)
    have hq' : s.HuOffered q l := by
      obtain ⟨hhu, htiles⟩ := hq
      rw [hgrab, (hother q hqp).1] at hhu
      refine ⟨hhu, ?_⟩
      rcases hmap q with hempty | hsame
      · rw [hempty] at htiles
        exact absurd htiles (by simp [CanDoMap.empty])
      · rwa [hsame] at htiles
    have hz : s'.bZiMo q = s.bZiMo q := by
      unfold Table.bZiMo
      rw [hplayers]
    unfold Waits
    rw [hz, hmulti, hgrab, PlayerGrabMgr.pos_playerDoGrab]
    exact h.offers q l hq'
  · intro q o' ho' hne'
    rw [hgrab] at ho'
    by_cases hqp : q = p
    · rw [hqp] at ho'
      exact absurd (hplay o' ho') hne'
    · unfold Table.Unanswered
      rw [hgrab, (hother q hqp).2]
      rw [(hother q hqp).1] at ho'
      exact h.free q o' ho' hne'
  · exact h.legal.of_same hwall hneed

end Live

/-! ### New offers -/

section Offers

variable (gameProgress : GameProgress) {s : Table} {t p : Seat} {b : ℕ}

lemma hu_mem_myOffers {checkOp : Bool}
    (h : .hu ∈ (myOffers gameProgress s t checkOp).map Prod.fst) : checkOp = true := by
  cases checkOp with
  | true => rfl
  | false => simp [myOffers, withCancel] at h

/-- The offers to a seat with a new tile: a win is offered when the tile is drawn. -/
lemma checkMyOper_live (checkOp : Bool) (hlegal : Nanjing.Legal s)
    (hnew : (s.playerList t).hasNewCard = true) (hz : checkOp = true → s.bZiMo t = true) :
    Live (checkMyOper gameProgress s t checkOp) := by
  have hopers : ∀ q, (checkMyOper gameProgress s t checkOp).playerGrabMgr.canGrabMgr.opers q =
      if q = t then sortOpers ((myOffers gameProgress s t checkOp).map Prod.fst) else [] := by
    intro q
    simp [checkMyOper, hnew, Table.setCanDoMap, PlayerGrabMgr.setPos, PlayerGrabMgr.addCanDoItem,
      PlayerGrabMgr.clear]
  have hdone : ∀ q, (checkMyOper gameProgress s t checkOp).Unanswered q := by
    intro q
    simp [Table.Unanswered, checkMyOper, hnew, Table.setCanDoMap, PlayerGrabMgr.setPos,
      PlayerGrabMgr.addCanDoItem, PlayerGrabMgr.clear]
  refine ⟨?_, fun q o _ _ => hdone q, ?_⟩
  · intro q l hq
    have hhu := hq.1
    rw [hopers] at hhu
    split_ifs at hhu with hqt
    · left
      have hcheck := hu_mem_myOffers gameProgress (PlayerGrabMgr.Round.mem_sortOpers.mp hhu)
      have hself := hz hcheck
      rw [hqt]
      simpa [Table.bZiMo, checkMyOper, hnew, Table.setCanDoMap] using hself
    · exact absurd hhu List.not_mem_nil
  · simpa [Nanjing.Legal, checkMyOper, hnew, Table.setCanDoMap] using hlegal

/-- A draw. -/
lemma giveNewCard_kept (hlegal : Nanjing.Legal s) : Kept (giveNewCard gameProgress s t) := by
  unfold giveNewCard
  cases hcard : takeCard s t with
  | none => exact .inl rfl
  | some r =>
    obtain ⟨byteCard, s'⟩ := r
    obtain ⟨hvalid, hlegal'⟩ := Nanjing.takeCard_legal hlegal hcard
    have hne := MJPlayer.ne_kCardNull_of_isValid hvalid
    right
    apply checkMyOper_live
    · exact hlegal'
    · simpa [Table.setPlayer, MJPlayer.addNewCard, hvalid, MJPlayer.hasNewCard] using hne
    · intro _
      simpa [Table.bZiMo, Table.setPlayer, MJPlayer.addNewCard, hvalid, MJPlayer.hasNewCard] using hne

lemma claims_hu {bGrabGang : Bool} {q : Seat} {l : List ℕ}
    (h : (Oper.hu, l) ∈ claims gameProgress s q b bGrabGang) :
    (s.playerList q).hasNewCard = false := by
  unfold claims at h
  simp only [List.mem_append] at h
  rcases h with (h | h) | h <;> split_ifs at h with hcond <;> simp at h
  simp only [Bool.and_eq_true, MJPlayer.canHu, Bool.not_eq_true'] at hcond
  exact hcond.1.2.1

/-- The offers to some of the other seats. -/
lemma offered_live {claims : Seat → List (Oper × List ℕ)} {l : List Seat} {r : Bool × Table}
    {g : PlayerGrabMgr} (h : Table.Offered claims l (false, s) r)
    (hl : l.Sublist [t + 1, t + 2, t + 3]) (hgrab : s.playerGrabMgr = g.clear.setPos t)
    (hmulti : s.multiHuPos = []) (hlegal : Nanjing.Legal s)
    (hhu : ∀ q l', (Oper.hu, l') ∈ claims q → (s.playerList q).hasNewCard = false) : Live r.2 := by
  have hframe := h.frame
  have hm : r.2.multiHuPos = l.filter (Table.offersHu claims) := by
    rw [hframe]
    simp [hmulti]
  have hplayers : r.2.playerList = s.playerList := by rw [hframe]
  refine ⟨?_, ?_, ?_⟩
  · intro q l' hq
    have hopen := hq.1
    rw [h.opers] at hopen
    split_ifs at hopen with hcond
    · have hmem := PlayerGrabMgr.Round.mem_sortOpers.mp hopen
      obtain ⟨x, hx, hxhu⟩ := List.mem_map.mp hmem
      have hclaim : (Oper.hu, x.2) ∈ claims q := by
        rcases mem_withCancel hx with hx | rfl
        · rwa [← hxhu]
        · exact absurd hxhu (by simp)
      have hnew := hhu q x.2 hclaim
      refine .inr ⟨?_, ?_, t, ?_, ?_⟩
      · simp [Table.bZiMo, hplayers, hnew]
      · rw [hm, List.mem_filter]
        exact ⟨hcond.1, by simpa [Table.offersHu] using hmem⟩
      · rw [h.pos, hgrab]
        rfl
      · rw [hm]
        exact (List.filter_sublist).trans hl
    · simp [hgrab, PlayerGrabMgr.setPos, PlayerGrabMgr.clear] at hopen
  · intro q o _ _
    unfold Table.Unanswered
    rw [h.done]
    simp [hgrab, PlayerGrabMgr.setPos, PlayerGrabMgr.clear]
  · exact hlegal.of_same (by rw [hframe]) (by rw [hframe])

/-- The offers to the other seats, as far as they are made. -/
lemma checkOtherOper_live (hlegal : Nanjing.Legal s) (turn : Seat) (bGrabGang : Bool) :
    (∃ s', checkOtherOper gameProgress s turn b bGrabGang = .error s' ∧ Live s') ∨
      ∃ r, checkOtherOper gameProgress s turn b bGrabGang = .ok r ∧ Live r.2 := by
  set s₀ : Table := { Nanjing.clearAllCanDoMap s with
    playerGrabMgr := s.playerGrabMgr.clear.setPos turn
    multiHuPos := [] } with hs₀
  have hlive : ∀ l : List Seat, l.Sublist [turn + 1, turn + 2, turn + 3] →
      Live (l.foldl (Table.offerTo fun pos => claims gameProgress s₀ pos b bGrabGang)
        (false, s₀)).2 := by
    intro l hl
    apply offered_live (Table.foldl_offerTo_offered l (false, s₀)) hl rfl rfl
    · exact hlegal
    · exact fun q l' hq => claims_hu gameProgress hq
  unfold checkOtherOper Table.offerUntil
  dsimp only
  split_ifs
  · exact .inl ⟨_, rfl, hlive _ (List.takeWhile_sublist _)⟩
  · exact .inr ⟨_, rfl, hlive _ (List.takeWhile_sublist _)⟩

end Offers

/-! ### The operations -/

section Handlers

variable (gameProgress : GameProgress) {s : Table} {t p : Seat} {b : ℕ}

lemma Live.kept (h : Live s) : Kept s := .inr h

/-- A peng, after which the seat may have no tile to play only if it had none left. -/
lemma doPeng_kept (h : Live s) (hp : ¬ s.Unanswered p) (b : ℕ) (grabedPos : Seat) :
    ((doPeng gameProgress s p b grabedPos).1 = true → Kept (doPeng gameProgress s p b grabedPos).2) ∧
      ((doPeng gameProgress s p b grabedPos).1 = false →
        (doPeng gameProgress s p b grabedPos).2 = s) := by
  unfold doPeng
  dsimp only
  split_ifs
  · refine ⟨fun _ => ?_, by simp⟩
    right
    set player := ((s.playerList p).doPeng b grabedPos).2
    have hlive : Live ((s.setPlayer p player).setRiver grabedPos
        (MJRiver.popCard ((s.setPlayer p player).riverCardList grabedPos))) :=
      (h.setPlayer hp player).of_same rfl rfl rfl (fun _ _ => rfl) h.legal
    by_cases hnew : (((s.setPlayer p player).setRiver grabedPos
        (MJRiver.popCard ((s.setPlayer p player).riverCardList grabedPos))).playerList p).hasNewCard =
          true
    · exact checkMyOper_live gameProgress false hlive.legal hnew (by simp)
    · rw [checkMyOper, if_pos (by simpa using hnew)]
      exact hlive
  · exact ⟨by simp, fun _ => rfl⟩

lemma doGang_kept (hlegal : Nanjing.Legal s) (b : ℕ) (grabedPos : Seat) :
    ((doGang gameProgress s p b grabedPos).1 = true → Kept (doGang gameProgress s p b grabedPos).2) ∧
      ((doGang gameProgress s p b grabedPos).1 = false →
        (doGang gameProgress s p b grabedPos).2 = s) := by
  unfold doGang
  dsimp only
  split_ifs
  · exact ⟨fun _ => giveNewCard_kept gameProgress hlegal, by simp⟩
  · exact ⟨by simp, fun _ => rfl⟩

lemma doAnGang_kept (h : Live s) (b : ℕ) (grabedPos : Seat) :
    Kept (doAnGang gameProgress s p b grabedPos) := by
  unfold doAnGang
  dsimp only
  split_ifs
  · exact giveNewCard_kept gameProgress h.legal
  · exact h.kept

lemma doMXGang_kept (h : Live s) (b : ℕ) : Kept (doMXGang gameProgress s p b).state := by
  unfold doMXGang
  dsimp only
  split_ifs
  · set player := ((s.playerList p).doMXGang b).2
    have hlegal : Nanjing.Legal (s.setPlayer p player) := h.legal
    obtain ⟨s', heq, hlive⟩ | ⟨r, heq, hlive⟩ :=
      checkOtherOper_live gameProgress (b := b) hlegal p true
    · rw [heq]
      exact hlive.kept
    · rw [heq]
      show Kept (if r.1 then _ else _)
      split_ifs
      · exact Live.kept (hlive.of_same rfl rfl rfl (fun _ _ => rfl) hlive.legal)
      · exact giveNewCard_kept gameProgress hlive.legal
  · exact h.kept

lemma onPlayCard_kept (h : Live s) (card : Option ℕ) :
    Kept (onPlayCard gameProgress s p card).state := by
  unfold onPlayCard
  split_ifs
  · exact h.kept
  cases card with
  | none => exact h.kept
  | some byteCard =>
    dsimp only
    split_ifs
    · exact h.kept
    · set player := ((s.playerList p).doPlayCard byteCard).2
      have hlegal : Nanjing.Legal (discard s p byteCard player) := by
        unfold discard Nanjing.clearCanDoMap
        dsimp only
        split_ifs <;> exact h.legal
      obtain ⟨s', heq, hlive⟩ | ⟨r, heq, hlive⟩ :=
        checkOtherOper_live gameProgress (b := byteCard) hlegal p false
      · rw [heq]
        exact hlive.kept
      · rw [heq]
        show Kept (if !r.1 then _ else _)
        split_ifs
        · exact giveNewCard_kept gameProgress hlive.legal
        · exact hlive.kept

lemma doHu_kept (h : Live s) (card : Option ℕ) : Kept (doHu s p card).state := by
  cases card with
  | none => exact h.kept
  | some byteCard => exact .inl rfl

lemma cancelEnd_kept (h : Live s) (grabedPos : Seat) :
    Kept (cancelEnd gameProgress s p grabedPos).state := by
  unfold cancelEnd
  split_ifs
  · cases s.qiangGangInfo with
    | none => exact h.kept
    | some tPos =>
      apply giveNewCard_kept
      exact h.legal
  · cases s.playerCanDoMap p with
    | none => exact h.kept
    | some map =>
      dsimp only
      split_ifs
      · exact h.kept
      · exact giveNewCard_kept gameProgress h.legal

/-- The prevailing choice is that of a seat that has answered. -/
lemma answered_of_getPowestNode {node : GrabItem}
    (h : s.playerGrabMgr.getPowestNode = some node) : ¬ s.Unanswered node.pos := by
  have hitem := PlayerGrabMgr.getItem_of_getPowestNode h
  have hhas : node.operList ≠ [] := by
    unfold PlayerGrabMgr.getPowestNode at h
    split at h
    · exact absurd h (by simp)
    · obtain ⟨q, -, hq⟩ := List.exists_of_findSome?_eq_some h
      rw [Option.filter_eq_some_iff] at hq
      intro hnil
      simp [GrabItem.hasOper, hnil] at hq
  unfold Table.Unanswered CanGrabMgr.opers
  rw [hitem]
  exact hhas

lemma grabEnd_kept (h : Live s) : Kept (grabEnd gameProgress s).state := by
  unfold grabEnd
  cases s.playerGrabMgr.pos with
  | none => exact h.kept
  | some grabedPos =>
    dsimp only
    cases hnode : s.playerGrabMgr.getPowestNode with
    | none => exact giveNewCard_kept gameProgress h.legal
    | some node =>
      have hp := answered_of_getPowestNode hnode
      dsimp only
      split
      · exact cancelEnd_kept gameProgress h grabedPos
      · exact doHu_kept h _
      · exact h.kept
      · rename_i byteCard _ _
        obtain ⟨hpeng, hfail⟩ := doPeng_kept gameProgress h hp byteCard grabedPos
        split_ifs with hr
        · exact hpeng hr
        · rw [hfail (by simpa using hr)]
          exact giveNewCard_kept gameProgress h.legal
      · exact doAnGang_kept gameProgress h _ _
      · rename_i byteCard _ _
        obtain ⟨hgang, hfail⟩ := doGang_kept gameProgress (p := node.pos) h.legal byteCard grabedPos
        split_ifs with hr
        · exact hgang hr
        · rw [hfail (by simpa using hr)]
          exact giveNewCard_kept gameProgress h.legal
      · exact doMXGang_kept gameProgress h _
      · exact onPlayCard_kept gameProgress h _
      · exact h.kept

lemma decideOrWait_kept (h : Live s) (oper : Oper) :
    Kept (decideOrWait gameProgress s oper).state := by
  unfold decideOrWait
  cases s.playerGrabMgr.needWait with
  | none => exact h.kept
  | some wait =>
    dsimp only
    split_ifs
    · exact grabEnd_kept gameProgress h
    · exact h.kept

/-- Clearing the entry of a seat empties entries and changes nothing else. -/
lemma clearCanDoMap_frame (s : Table) (p : Seat) :
    ∃ map, Nanjing.clearCanDoMap s p = { s with playerCanDoMap := map } ∧
      ∀ q, map q = some .empty ∨ map q = s.playerCanDoMap q := by
  unfold Nanjing.clearCanDoMap
  split_ifs
  · refine ⟨_, rfl, fun q => ?_⟩
    by_cases hq : q = p
    · rw [hq, Function.update_self]
      exact .inl rfl
    · rw [Function.update_of_ne hq]
      exact .inr rfl
  · exact ⟨_, rfl, Nanjing.clearAllCanDoMap_entry s⟩

/-- The table after a choice is recorded and the entry of the seat cleared. -/
lemma Live.chosen {o : Oper} (h : Live s) (ho : s.playerGrabMgr.hasOper p o = true) (c : ℕ) :
    Live (Nanjing.clearCanDoMap { s with
      playerGrabMgr := (s.playerGrabMgr.playerDoGrab p o (some c)).2 } p) := by
  obtain ⟨map, heq, hmap⟩ := clearCanDoMap_frame { s with
      playerGrabMgr := (s.playerGrabMgr.playerDoGrab p o (some c)).2 } p
  rw [heq]
  refine (h.choose (c := c) (PlayerGrabMgr.hasOper_iff.mp ho) ?_ ?_ ?_ ?_ ?_ ?_).1
  · rfl
  · exact hmap
  all_goals rfl

lemma onGrabCard_kept (h : Live s) (oper : Oper) (card : Option ℕ) :
    Kept (onGrabCard gameProgress s p oper card).state := by
  unfold onGrabCard
  by_cases hoper : s.playerGrabMgr.hasOper p oper = true
  swap
  · rw [if_pos (by simpa using hoper)]
    exact h.kept
  rw [if_neg (by simpa using hoper)]
  cases s.playerCanDoMap p with
  | none => exact h.kept
  | some canDoMap =>
    dsimp only
    cases canDoMap.cards oper with
    | none => exact h.kept
    | some cardList =>
      dsimp only
      split_ifs
      · apply decideOrWait_kept
        exact h.chosen hoper 1
      · apply decideOrWait_kept
        have hlive := h.chosen hoper 1
        exact hlive.of_same rfl rfl rfl (fun _ _ => rfl) hlive.legal
      · cases card with
        | none => exact h.kept
        | some byteCard =>
          dsimp only
          split_ifs
          · apply decideOrWait_kept
            exact h.chosen hoper byteCard
          · exact h.kept

/-- A tile asked for by the debug operation is valid. -/
lemma testNeedCard_legal (h : Nanjing.Legal s) (b : ℤ) : Nanjing.Legal { s with
    testPlayerNeedCard := Function.update s.testPlayerNeedCard p (fromOld2NowCardByteMap b) } := by
  refine ⟨h.1, ?_⟩
  intro q c hc
  by_cases hq : q = p
  · rw [hq] at hc
    simp only [Function.update_self] at hc
    exact isValid_fromOld2NowCardByteMap hc
  · simp only [Function.update_of_ne hq] at hc
    exact h.2 q c hc

/-- Every message keeps the invariant or ends the round. -/
lemma onClientMsg_kept (h : Live s) (pos : Seat) (pkg : ClientMsg) :
    Kept (onClientMsg gameProgress s pos pkg).state := by
  unfold onClientMsg
  dsimp only
  split
  · exact onPlayCard_kept gameProgress h _
  · exact h.kept
  · exact Live.kept (h.of_same rfl rfl rfl (fun _ _ => rfl) (testNeedCard_legal h.legal _))
  · exact doHu_kept h _
  · exact onGrabCard_kept gameProgress h _ _
  · exact h.kept

lemma wallTiles_valid : ∀ c ∈ wallTiles, MJCard.isValid c = true := by decide +kernel

/-- The table after the deal. -/
lemma onDeal_live (d : Deal) : Live (onDeal d) := by
  have hwall : ∀ c ∈ d.wall, MJCard.isValid c = true := fun c hc =>
    wallTiles_valid c (d.perm.mem_iff.mp hc)
  have hlen : d.wall.length = 136 := by
    rw [d.perm.length_eq]
    decide +kernel
  obtain ⟨htiles, -, hnew, hjust, -⟩ := dealHandCards_spec d.banker (by omega) hwall
  have hbanker := (hnew d.banker).mpr rfl
  apply checkMyOper_live
  · refine ⟨fun c hc => hwall c ?_, ?_⟩
    · rw [← Multiset.mem_coe, ← htiles, Multiset.mem_add]
      exact .inr hc
    · intro pos byteCard hasked
      obtain ⟨b, hb⟩ := d.asked pos byteCard hasked
      exact isValid_fromOld2NowCardByteMap hb
  · exact hbanker
  · intro _
    simp [Table.bZiMo, hbanker, hjust]

/-- The states reached in a round. -/
def Reached (d : Deal) (s : Table) : Prop :=
  Runs.Reaches (step d.gameProgress) (fun _ _ => True) (onDeal d) s

lemma live_of_reached {d : Deal} (h : Reached d s) (hgo : s.endArgs = none) : Live s := by
  have hkept : Kept s := by
    apply h.invariant (I := Kept) (.inr (onDeal_live d))
    intro s e s' hI _ hs
    unfold step at hs
    split_ifs at hs with hover
    obtain rfl := Option.some.inj hs
    exact onClientMsg_kept d.gameProgress (hI.resolve_left hover) e.1 e.2
  exact hkept.resolve_left (by simp [hgo])

end Handlers

/-! ### The winner -/

section Winner

variable {s : Table} {p q t : Seat}

/-- In the order after a seat, the first seat of the list is found first and precedes the others. -/
lemma checkFirstHuPos_eq {l : List Seat} (h : (q :: l).Sublist [t + 1, t + 2, t + 3]) :
    checkFirstHuPos (q :: l) t = [q] ∧ ∀ p ∈ q :: l, p = q ∨ q - t < p - t := by
  have hmem := List.mem_sublists'.mpr h
  simp only [List.sublists'_cons, List.sublists'_nil, List.map_cons, List.map_nil, List.cons_append,
    List.nil_append, List.mem_cons, List.cons.injEq, List.not_mem_nil, or_false, reduceCtorEq,
    false_or] at hmem
  rcases hmem with ⟨rfl, rfl⟩ | ⟨rfl, rfl⟩ | ⟨rfl, rfl⟩ | ⟨rfl, rfl⟩ | ⟨rfl, rfl⟩ | ⟨rfl, rfl⟩ |
    ⟨rfl, rfl⟩ <;> revert t <;> decide

/-- The winner of a declared win on another seat's tile is the first seat of `multiHuPos`. -/
lemma winners_eq (hw : Waits s p) : ∃ q l, s.multiHuPos = q :: l ∧
    (if 1 < s.multiHuPos.length then checkFirstHuPos s.multiHuPos (s.playerGrabMgr.pos.getD 3)
      else s.multiHuPos) = [q] ∧ (p = q ∨ Precedes s q p) := by
  obtain ⟨-, hmem, t, hpos, hsub⟩ := hw
  obtain ⟨q, l, hl⟩ := List.exists_cons_of_ne_nil (List.ne_nil_of_mem hmem)
  rw [hl] at hsub hmem
  obtain ⟨hfirst, hall⟩ := checkFirstHuPos_eq hsub
  refine ⟨q, l, hl, ?_, (hall p hmem).imp id fun hlt => ⟨t, hpos, hlt⟩⟩
  rw [hl, hpos, Option.getD_some, hfirst]
  split_ifs with hlen
  · rfl
  · have hnil : l = [] := by
      simp only [List.length_cons, not_lt] at hlen
      exact List.length_eq_zero_iff.mp (by omega)
    rw [hnil]

/-- In every state of every round, for every seat and every message that declares a win: the round
ends only by a live offer, and the winner is the sender or a seat before it with a live offer, if
and only if the win is offered to the sender and, unless the sender has drawn the tile, the first
seat of `multiHuPos` has not answered. A message that names no tile stops with an error.

**Proof sketch.** A win is offered to a seat that has drawn a tile, which is then the winner, or to
seats that wait for a tile of another. In that case the offers that were made are those of
`multiHuPos`, in the order after that seat, so that `checkFirstHuPos` finds the first of them. -/
theorem winsByOffer_iff {d : Deal} (h : Reached d s) (hgo : s.endArgs = none) (pos : Seat)
    (pkg : ClientMsg) (hop : Oper.ofCode pkg.operation = some .hu) :
    WinsByOffer d.gameProgress s pos pkg ↔ Honest s pos pkg := by
  have hlive := live_of_reached h hgo
  have hmsg : onClientMsg d.gameProgress s pos pkg =
      doHu s pos (fromOld2NowCardByteMap pkg.card_bytes) := by
    simp only [onClientMsg, hop]
  unfold WinsByOffer Honest
  rw [hmsg]
  cases hcard : fromOld2NowCardByteMap pkg.card_bytes with
  | none =>
    -- the handler stops before the round is ended
    simp [doHu, Handled.state, hgo]
  | some byteCard =>
    constructor
    · intro hwin c hc
      obtain rfl := Option.some.inj hc
      obtain ⟨c, hc', hoffer, w, hw, hby⟩ := hwin _ rfl
      obtain rfl := Option.some.inj hc'
      refine ⟨hoffer, ?_⟩
      obtain ⟨l, hl, hmem⟩ := hoffer
      rcases hlive.offers pos l hl with hz | hwait
      · exact .inl hz
      · right
        intro q hq
        obtain ⟨q', l', hmulti, heq, -⟩ := winners_eq hwait
        simp only [hwait.1, Bool.not_false, if_true, heq, List.cons.injEq, and_true] at hw
        rw [hmulti, List.head?_cons, Option.some.injEq] at hq
        obtain rfl : w = q := hw.symm.trans hq
        rcases hby with rfl | ⟨hw', -⟩
        · exact ⟨l, hl, hmem⟩
        · exact hw'
    · intro hhonest a ha
      obtain ⟨hoffer, hfirst⟩ := hhonest byteCard rfl
      obtain rfl := Option.some.inj ha
      refine ⟨byteCard, rfl, hoffer, ?_⟩
      obtain ⟨l, hl, hmem⟩ := hoffer
      rcases hlive.offers pos l hl with hz | hwait
      · exact ⟨pos, by simp [hz], .inl rfl⟩
      · obtain ⟨q, l', hmulti, heq, horder⟩ := winners_eq hwait
        refine ⟨q, by simp only [hwait.1, Bool.not_false, if_true, heq], ?_⟩
        rcases horder with hself | hbefore
        · exact .inl hself.symm
        · refine .inr ⟨?_, hbefore⟩
          apply hfirst.resolve_left (by simp [hwait.1])
          rw [hmulti, List.head?_cons]

end Winner

/-! ### Rounds -/

/-- A round with the tiles in the order of the wall, in which nobody gives up a suit. -/
def sortedDeal : Deal where
  wall := wallTiles
  perm := .refl _
  banker := 0
  gameProgress := ⟨false, fun _ => -1⟩
  last := newTable
  asked := by simp [newTable]

/-- A round in which the banker is dealt four triplets and a pair. -/
def winningDeal : Deal :=
  let hand := [1, 1, 1, 2, 2, 2, 3, 3, 3, 4, 4, 4, 5]
  let rest := (wallTiles.diff hand).erase 5
  { sortedDeal with
    wall := hand ++ rest.take 39 ++ [5] ++ rest.drop 39
    perm := by decide +kernel }

/-- The banker has been dealt a complete hand, the win is offered to it, and it declares it. -/
theorem winsByOffer_of_dealt : ∃ d s, Reached d s ∧ s.endArgs = none ∧ HuLive s 0 5 ∧
    WinsByOffer d.gameProgress s 0 ⟨1, 69⟩ ∧
    (onClientMsg d.gameProgress s 0 ⟨1, 69⟩).state.endArgs.any fun a => a.winnerPosList == [0] := by
  have hoffer : HuLive (onDeal winningDeal) 0 5 := by
    refine ⟨[5], ⟨?_, ?_⟩, by simp⟩ <;> decide +kernel
  have hgo : (onDeal winningDeal).endArgs.isNone = true := by decide +kernel
  have hz : (onDeal winningDeal).bZiMo 0 = true := by decide +kernel
  have hcard : fromOld2NowCardByteMap 69 = some 5 := by decide
  refine ⟨winningDeal, onDeal winningDeal, .init, by simpa using hgo, hoffer, ?_,
    by decide +kernel⟩
  apply (winsByOffer_iff .init (by simpa using hgo) 0 ⟨1, 69⟩ (by decide)).mpr
  intro byteCard hb
  rw [hcard, Option.some.injEq] at hb
  rw [← hb]
  exact ⟨hoffer, .inl hz⟩

/-- The banker's hand is far from complete and no win is offered to it. It declares a win on the
tile it was dealt last, and the round ends with the banker as the winner. -/
theorem win_without_offer : ∃ d s, Reached d s ∧ s.endArgs = none ∧
    .hu ∉ s.playerGrabMgr.canGrabMgr.opers 0 ∧ (s.playerList 0).canSelfHu [] = false ∧
    ((onClientMsg d.gameProgress s 0 ⟨1, 133⟩).state.endArgs.any fun a => a.winnerPosList == [0]) ∧
    ¬ WinsByOffer d.gameProgress s 0 ⟨1, 133⟩ := by
  have hgo : (onDeal sortedDeal).endArgs.isNone = true := by decide +kernel
  have hnot : .hu ∉ (onDeal sortedDeal).playerGrabMgr.canGrabMgr.opers 0 := by decide +kernel
  have hends : ((onClientMsg sortedDeal.gameProgress (onDeal sortedDeal) 0 ⟨1, 133⟩).state.endArgs.any
      fun a => a.winnerPosList == [0]) = true := by decide +kernel
  refine ⟨sortedDeal, onDeal sortedDeal, .init, by simpa using hgo, hnot, by decide +kernel, hends,
    ?_⟩
  intro hwins
  obtain ⟨a, ha, -⟩ := (Option.any_eq_true _ _).mp hends
  obtain ⟨byteCard, -, ⟨l, hl, -⟩, -⟩ := hwins a ha
  exact hnot hl.1

end Maanshan
