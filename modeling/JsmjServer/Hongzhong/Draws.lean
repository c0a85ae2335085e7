import JsmjServer.Hongzhong.Conservation
import JsmjServer.Mahjong.Draws

set_option relaxedAutoImplicit false
set_option autoImplicit false

/-!
# Draws in hongzhong mahjong

Every message other than the debug operation ends in at most one call of `giveNewCard`, which hands
out the front of the wall.

## Main definitions

* `Hongzhong.onPlayerOperation` — `room.REQUEST:onPlayerOperation`.
* `Hongzhong.next` — a message of a seat in an environment.

## Main results

* `Hongzhong.giveNewCard_dealt`, `Hongzhong.onClientMsg_dealt` — one message.
* `Hongzhong.next_dealt`, `Hongzhong.next_of_not_isGameOper` — one message that comes through the
  room.
-/

namespace Hongzhong

open Mahjong Mahjong.Table

variable {rule : RoomRuleMap} {s₀ s : Table} {t p : Seat} {b : ℕ} {oper : Oper}

/-! ### Offers and draws -/

variable (rule s t) in
lemma checkMyOper_same (checkOp : Bool) : SameHands s (checkMyOper rule s t checkOp) := by
  unfold checkMyOper
  dsimp only
  split_ifs <;> exact ⟨rfl, rfl, rfl, Or.inl rfl⟩

/-- The offers to the other seats, also when they are not completed. -/
lemma checkOtherOper_undrawn (h : Undrawn s₀ s) (b : ℕ) (bGrabGang : Bool) :
    (∃ s', checkOtherOper s t b bGrabGang = .error s' ∧ Undrawn s₀ s') ∨
      ∃ r, checkOtherOper s t b bGrabGang = .ok r ∧ Undrawn s₀ r.2 := by
  set s₁ : Table := { s with
    playerGrabMgr := s.playerGrabMgr.clear.setPos t, multiHuPos := [] } with hs₁
  have h₁ : Undrawn s₀ s₁ := h.congr ⟨rfl, rfl, rfl, Or.inl rfl⟩ h.going
  rcases offerUntil_same s₁ t (canHuStops s₁ b bGrabGang)
    (fun pos => claims s₁ pos b bGrabGang) with ⟨s', heq, hsame, hover⟩ | ⟨r, heq, hsame, hover⟩
  · exact Or.inl ⟨s', heq, h₁.congr hsame (hover.trans h₁.going)⟩
  · exact Or.inr ⟨r, heq, h₁.congr hsame (hover.trans h₁.going)⟩

/-- The tile that is handed out is the front of the wall. -/
lemma giveNewCard_dealt (hgo : s₀.endArgs = none) (h : Undrawn s₀ s) (t : Seat) :
    Dealt s₀ (giveNewCard rule s t) := by
  unfold giveNewCard
  rcases h.takeCard_eq t with ⟨-, htake⟩ | ⟨c, wall, hwall, htake⟩
  · rw [htake]
    exact h.liuJu hgo
  · rw [htake]
    have hc : MJCard.isValid c = true := h.legal c (by simp [hwall])
    simp only [redraw_eq, if_true]
    set player := (s.playerList t).addNewCard c with hplayer
    have hadd : player = { s.playerList t with justDoOper := .newCard, newCard := c } := if_pos hc
    have hsame := checkMyOper_same rule (Table.setPlayer { s with
      mjWall := wall
      playerGrabMgr := s.playerGrabMgr.setPos t
      mjCancelMgr := s.mjCancelMgr.clearPos t } t player) t true
    exact h.draw player hwall (by rw [hadd]) (by rw [hadd]) hsame.wall hsame.players
      hsame.need

/-! ### Moves -/

section Moves

variable (hgo : s₀.endArgs = none) (h : Undrawn s₀ s)

include hgo h

lemma doHu_dealt (pos : Seat) (c : ℕ) : Dealt s₀ (doHu rule s pos c) := by
  refine h.ended hgo ?_ rfl rfl
  show s.mjWall.take (needCardNum rule) ++ s.mjWall.drop (needCardNum rule) = s.mjWall
  exact List.take_append_drop _ _

variable (rule) in
/-- A peng hands out nothing; when it is refused nothing has happened. -/
lemma doPeng_dealt (pos grabedPos : Seat) (c : ℕ) :
    if (doPeng rule s pos c grabedPos).1 then Dealt s₀ (doPeng rule s pos c grabedPos).2
    else Undrawn s₀ (doPeng rule s pos c grabedPos).2 := by
  unfold doPeng
  dsimp only
  by_cases hdo : ((s.playerList pos).doPeng c grabedPos).1 = true
  · rw [if_pos hdo, if_pos rfl]
    have h₁ := h.setPlayer pos (MJPlayer.justDoOper_doPeng _ _ _ hdo)
    apply h₁.same hgo
    refine SameHands.trans ?_ (checkMyOper_same _ (Table.setRiver _ grabedPos _) _ false)
    exact ⟨rfl, rfl, rfl, Or.inl rfl⟩
  · rw [if_neg hdo]
    exact h

variable (rule) in
lemma doGang_dealt (pos grabedPos : Seat) (c : ℕ) :
    if (doGang rule s pos c grabedPos).1 then Dealt s₀ (doGang rule s pos c grabedPos).2
    else Undrawn s₀ (doGang rule s pos c grabedPos).2 := by
  unfold doGang
  dsimp only
  by_cases hdo : ((s.playerList pos).doGang c grabedPos).1 = true
  · rw [if_pos hdo, if_pos rfl]
    have h₁ := h.setPlayer pos (MJPlayer.justDoOper_doGang _ _ _ hdo)
    apply giveNewCard_dealt hgo
    exact h₁.congr ⟨rfl, rfl, rfl, Or.inl rfl⟩ h₁.going
  · rw [if_neg hdo]
    exact h

lemma doAnGang_dealt (pos grabedPos : Seat) (c : ℕ) :
    Dealt s₀ (doAnGang rule s pos c grabedPos) := by
  unfold doAnGang
  dsimp only
  split_ifs with hdo
  · exact giveNewCard_dealt hgo (h.setPlayer _ (MJPlayer.justDoOper_doAnGang _ _ _ hdo)) pos
  · exact h.dealt hgo

lemma doMXGang_dealt (pos : Seat) (c : ℕ) : Dealt s₀ (Handled.state (doMXGang rule s pos c)) := by
  unfold doMXGang
  dsimp only
  split_ifs with hdo
  · have h₁ := h.setPlayer pos (MJPlayer.justDoOper_doMXGang _ _ hdo)
    rcases checkOtherOper_undrawn (t := pos) h₁ c true with ⟨s', heq, hs'⟩ | ⟨r, heq, hr⟩
    · rw [heq]
      exact hs'.dealt hgo
    · rw [heq]
      show Dealt s₀ (if r.1 then _ else giveNewCard rule r.2 pos)
      split_ifs
      · exact hr.same hgo ⟨rfl, rfl, rfl, Or.inl rfl⟩
      · exact giveNewCard_dealt hgo hr pos
  · exact h.dealt hgo

lemma onPlayCard_dealt (pos : Seat) (card : Option ℕ) :
    Dealt s₀ (Handled.state (onPlayCard rule s pos card)) := by
  unfold onPlayCard
  cases card with
  | none => exact h.dealt hgo
  | some c =>
    dsimp only
    split_ifs with hhas hdo
    · exact h.dealt hgo
    · exact h.dealt hgo
    · have hplay : ((s.playerList pos).doPlayCard c).1 = true := by simpa using hdo
      have h₁ := h.setPlayer pos (MJPlayer.justDoOper_doPlayCard _ _ hplay)
      set s₁ := Table.setRiver (Table.setCanDoMap { s.setPlayer pos ((s.playerList pos).doPlayCard c).2
        with playerGrabMgr := (s.playerGrabMgr.playerDoGrab pos .play (some c)).2 } pos .empty) pos
        (MJRiver.pushCard (s.riverCardList pos) c) with hs₁
      have h₂ : Undrawn s₀ s₁ := h₁.congr ⟨rfl, rfl, rfl, Or.inl rfl⟩ h₁.going
      show Dealt s₀ (Handled.state ((checkOtherOper s₁ pos c false).map _))
      rcases checkOtherOper_undrawn (t := pos) h₂ c false with ⟨s', heq, hs'⟩ | ⟨r, heq, hr⟩
      · rw [heq]
        exact hs'.dealt hgo
      · rw [heq]
        show Dealt s₀ (if !r.1 then giveNewCard rule r.2 (nextPlayerPos pos) else r.2)
        split_ifs
        · exact giveNewCard_dealt hgo hr _
        · exact hr.dealt hgo

lemma cancelEnd_dealt (pos grabedPos : Seat) :
    Dealt s₀ (Handled.state (cancelEnd rule s pos grabedPos)) := by
  unfold cancelEnd
  split_ifs
  · cases s.qiangGangInfo with
    | none => exact h.dealt hgo
    | some tPos =>
      apply giveNewCard_dealt hgo
      exact h.congr ⟨rfl, rfl, rfl, Or.inl rfl⟩ h.going
  · cases s.playerCanDoMap pos with
    | none => exact h.dealt hgo
    | some map =>
      dsimp only
      split_ifs
      · exact h.dealt hgo
      · exact giveNewCard_dealt hgo h _

/-- Whatever choice prevails. -/
lemma grabEnd_dealt : Dealt s₀ (Handled.state (grabEnd rule s)) := by
  unfold grabEnd
  cases s.playerGrabMgr.pos with
  | none => exact h.dealt hgo
  | some grabedPos =>
    dsimp only
    cases s.playerGrabMgr.getPowestNode with
    | none => exact giveNewCard_dealt hgo h _
    | some node =>
      dsimp only
      split
      · exact cancelEnd_dealt hgo h _ _
      · exact h.dealt hgo
      · exact doHu_dealt hgo h _ _
      · rename_i c _ _
        have hpeng := doPeng_dealt rule hgo h node.pos grabedPos c
        split_ifs at hpeng ⊢
        · exact hpeng
        · exact giveNewCard_dealt hgo hpeng _
      · exact doAnGang_dealt hgo h _ _ _
      · rename_i c _ _
        have hgang := doGang_dealt rule hgo h node.pos grabedPos c
        split_ifs at hgang ⊢
        · exact hgang
        · exact giveNewCard_dealt hgo hgang _
      · exact doMXGang_dealt hgo h _ _
      · exact onPlayCard_dealt hgo h _ _
      · exact h.dealt hgo

lemma decideOrWait_dealt : Dealt s₀ (Handled.state (decideOrWait rule s oper)) := by
  unfold decideOrWait
  cases needWait s oper with
  | none => exact h.dealt hgo
  | some decide =>
    cases decide with
    | true => exact grabEnd_dealt hgo h
    | false => exact h.dealt hgo

lemma onGrabCard_dealt (pos : Seat) (card : Option ℕ) :
    Dealt s₀ (Handled.state (onGrabCard rule s pos oper card)) := by
  unfold onGrabCard
  by_cases hhas : (!s.playerGrabMgr.hasOper pos oper) = true
  · rw [if_pos hhas]
    exact h.dealt hgo
  · rw [if_neg hhas]
    cases s.playerCanDoMap pos with
    | none => exact h.dealt hgo
    | some map =>
      dsimp only
      cases map.cards oper with
      | none => exact h.dealt hgo
      | some cardList =>
        dsimp only
        split_ifs
        · exact decideOrWait_dealt hgo (h.congr ⟨rfl, rfl, rfl, Or.inl rfl⟩ h.going)
        · exact decideOrWait_dealt hgo (h.congr ⟨rfl, rfl, rfl, Or.inl rfl⟩ h.going)
        · cases card with
          | none => exact h.dealt hgo
          | some c =>
            dsimp only
            split_ifs
            · exact decideOrWait_dealt hgo (h.congr ⟨rfl, rfl, rfl, Or.inl rfl⟩ h.going)
            · exact h.dealt hgo

/-- A message other than the debug operation. -/
lemma onClientMsg_dealt (pos : Seat) {pkg : ClientMsg}
    (hnt : Oper.ofCode pkg.operation ≠ some .testNeedCard) :
    Dealt s₀ (Handled.state (onClientMsg rule s pos pkg)) := by
  unfold onClientMsg
  dsimp only
  cases ho : Oper.ofCode pkg.operation with
  | none => exact h.dealt hgo
  | some oper =>
    cases oper with
    | play => exact onPlayCard_dealt hgo h _ _
    | syncData => exact h.dealt hgo
    | testNeedCard => exact absurd ho hnt
    | _ => exact onGrabCard_dealt hgo h _ _

end Moves

/-! ### Messages through the room -/

/-- `room.REQUEST:onPlayerOperation` for the messages of players. Those of robots take the same way
after a delay. -/
def onPlayerOperation (rule : RoomRuleMap) (runenv : Option String) (s : Table) (pos : Seat)
    (pkg : ClientMsg) : Handled :=
  if passes runenv pkg then onClientMsg rule s pos pkg else .ok s

/-- A message of a seat in the environment `runenv`; once the round is over, the message no longer
comes to the playing state. -/
def next (rule : RoomRuleMap) (runenv : Option String) (s : Table) (e : Seat × ClientMsg) : Table :=
  if s.endArgs.isSome then s else (onPlayerOperation rule runenv s e.1 e.2).state

/-- Outside of the environment `develop` a step deals from the front of the wall. -/
lemma next_dealt {runenv : Option String} (hrun : runenv.getD "product" ≠ "develop")
    (e : Seat × ClientMsg) (hlegal : ∀ c ∈ s.mjWall, MJCard.isValid c = true)
    (hneed : ∀ p, s.testPlayerNeedCard p = none) : Dealt s (next rule runenv s e) := by
  unfold next
  split_ifs with hover
  · exact ⟨.nothing rfl fun _ => Or.inr rfl, hlegal, hneed⟩
  · have hgo : s.endArgs = none := by simpa using hover
    have h := Undrawn.refl hgo hlegal hneed
    unfold onPlayerOperation
    split_ifs with hpass
    · exact onClientMsg_dealt hgo h e.1 ((passes_iff hrun).mp hpass)
    · exact h.dealt hgo

/-- Outside of the environment `develop` a message that is no operation of the game changes
nothing. -/
lemma next_of_not_isGameOper {runenv : Option String} (hrun : runenv.getD "product" ≠ "develop")
    (s : Table) (e : Seat × ClientMsg) (h : isGameOper e.2 = false) : next rule runenv s e = s := by
  unfold next
  split_ifs with hover
  · rfl
  · unfold onPlayerOperation
    split_ifs with hpass
    · have hnt := (passes_iff hrun).mp hpass
      unfold isGameOper at h
      unfold onClientMsg
      dsimp only
      cases ho : Oper.ofCode e.2.operation with
      | none => rfl
      | some oper =>
        rw [ho] at h hnt
        cases oper with
        | syncData => rfl
        | testNeedCard => exact absurd rfl hnt
        | _ => simp at h
    · rfl

/-- After the deal no tile has been asked for, and the tiles of the wall are valid. -/
lemma start_undrawn (d : Deal) : (∀ c ∈ (start d).mjWall, MJCard.isValid c = true) ∧
    ∀ p, (start d).testPlayerNeedCard p = none := by
  have hp := start_playing d
  refine ⟨fun c hc => d.valid c ?_, ?_⟩
  · have hmem := Table.mem_tiles_of_wall hc
    rw [hp.tiles] at hmem
    exact hmem
  · intro p
    unfold start onEntry
    rw [(checkMyOper_same _ _ _ true).need]
    exact d.noTest p

end Hongzhong
