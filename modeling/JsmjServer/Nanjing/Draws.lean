import JsmjServer.Nanjing.Conservation
import JsmjServer.Mahjong.Draws

set_option relaxedAutoImplicit false
set_option autoImplicit false

/-!
# Draws in nanjing mahjong

As in hongzhong mahjong every message other than the debug operation ends in at most one call of
`giveNewCard`, which hands out the front of the wall; so does the timer that exchanges a flower. A
seat may win automatically with the tile it is handed.

## Main definitions

* `Nanjing.onPlayerOperation` — `room.REQUEST:onPlayerOperation`.
* `Nanjing.next` — an event in an environment.
* `Nanjing.isGameEvent` — the events that are operations of the game, or timers.

## Main results

* `Nanjing.giveNewCard_dealt`, `Nanjing.onClientMsg_dealt`, `Nanjing.buHua_dealt` — one event.
* `Nanjing.next_dealt`, `Nanjing.next_of_not_isGameEvent` — one event that comes through the room.
-/

namespace Nanjing

open Mahjong Mahjong.Table

variable {gameProgress : GameProgress} {s₀ s : Table} {t p : Seat} {b : ℕ} {oper : Oper}

/-! ### Offers and draws -/

lemma clearCanDoMap_same (s : Table) (p : Seat) :
    SameHands s (clearCanDoMap s p) ∧ (clearCanDoMap s p).endArgs = s.endArgs := by
  unfold clearCanDoMap
  split_ifs <;> exact ⟨⟨rfl, rfl, rfl, Or.inl rfl⟩, rfl⟩

lemma doHu_same (s : Table) (p : Seat) (c : ℕ) : SameHands s (doHu s p c) :=
  ⟨rfl, rfl, rfl, Or.inr ⟨_, rfl, rfl⟩⟩

lemma autoHu_same (s : Table) (pos : Option Seat) (c : ℕ) : SameHands s (autoHu s pos c) := by
  cases pos with
  | none => exact ⟨rfl, rfl, rfl, Or.inl rfl⟩
  | some pos => exact ⟨rfl, rfl, rfl, Or.inr ⟨_, rfl, rfl⟩⟩

variable (gameProgress s t) in
lemma checkMyOper_same (checkOp : Bool) : SameHands s (checkMyOper gameProgress s t checkOp) := by
  unfold checkMyOper
  dsimp only
  split_ifs
  · exact ⟨rfl, rfl, rfl, Or.inl rfl⟩
  · exact ⟨rfl, rfl, rfl, Or.inr ⟨_, rfl, rfl⟩⟩
  · exact ⟨rfl, rfl, rfl, Or.inl rfl⟩

variable (gameProgress) in
/-- The offers to the other seats, also when they are not completed. -/
lemma checkOtherOper_undrawn (h : Undrawn s₀ s) (b : ℕ) (bGrabGang : Bool) :
    (∃ s', checkOtherOper gameProgress s t b bGrabGang = .error s' ∧ Undrawn s₀ s') ∨
      ∃ r, checkOtherOper gameProgress s t b bGrabGang = .ok r ∧ Undrawn s₀ r.2.2 := by
  set s₁ : Table := { clearAllCanDoMap s with
    playerGrabMgr := s.playerGrabMgr.clear.setPos t
    multiHuPos := [] } with hs₁
  have h₁ : Undrawn s₀ s₁ := h.congr ⟨rfl, rfl, rfl, Or.inl rfl⟩ h.going
  unfold checkOtherOper
  rcases offerUntil_same s₁ t (canHuStops gameProgress s₁ t b)
    (fun pos => claims gameProgress s₁ t pos b bGrabGang) with
    ⟨s', heq, hsame, hover⟩ | ⟨r, heq, hsame, hover⟩
  · refine Or.inl ⟨s', ?_, h₁.congr hsame (hover.trans h₁.going)⟩
    show (s₁.offerUntil t _ _).map _ = _
    rw [heq]
    rfl
  · refine Or.inr ⟨(r.1, autoHuPos gameProgress s₁ t b, r.2), ?_,
      h₁.congr hsame (hover.trans h₁.going)⟩
    show (s₁.offerUntil t _ _).map _ = _
    rw [heq]
    rfl

/-- The tile that is handed out is the front of the wall, whether it is a flower or not. -/
lemma giveNewCard_dealt (hgo : s₀.endArgs = none) (h : Undrawn s₀ s) (t : Seat) :
    Dealt s₀ (giveNewCard gameProgress s t) := by
  unfold giveNewCard
  split_ifs
  · exact h.liuJu hgo
  · rcases h.takeCard_eq t with ⟨-, htake⟩ | ⟨c, wall, hwall, htake⟩
    · rw [htake]
      exact h.liuJu hgo
    · rw [htake]
      dsimp only
      have hc : MJCard.isValid c = true := h.legal c (by simp [hwall])
      set player : MJPlayer := { (s.playerList t).addNewCard c with justDoOper := .newCard }
        with hplayer
      have hnew : player.newCard = c := by
        have hadd : (s.playerList t).addNewCard c =
            { s.playerList t with justDoOper := .newCard, newCard := c } := if_pos hc
        rw [hplayer, hadd]
      split_ifs
      · exact h.draw player hwall hnew rfl rfl rfl rfl
      · have hsame := checkMyOper_same gameProgress (Table.setPlayer { s with
            mjWall := wall
            playerGrabMgr := s.playerGrabMgr.setPos t
            mjCancelMgr := s.mjCancelMgr.clearSeat t } t player) t true
        exact h.draw player hwall hnew rfl hsame.wall hsame.players hsame.need

/-! ### Moves -/

section Moves

variable (hgo : s₀.endArgs = none) (h : Undrawn s₀ s)

include hgo h

/-- The timer puts a flower aside and hands out another tile. -/
lemma buHua_dealt (t : Seat) : Dealt s₀ (buHua gameProgress s t) := by
  unfold buHua
  dsimp only
  split_ifs
  · apply giveNewCard_dealt hgo
    apply h.setPlayer
    unfold MJPlayer.delNewCard
    split_ifs <;> simp [MJPlayer.addHua]
  · exact h.dealt hgo

variable (gameProgress) in
/-- A peng hands out nothing; when it is refused nothing has happened. -/
lemma doPeng_dealt (pos grabedPos : Seat) (c : ℕ) :
    if (doPeng gameProgress s pos c grabedPos).1 then
      Dealt s₀ (doPeng gameProgress s pos c grabedPos).2
    else Undrawn s₀ (doPeng gameProgress s pos c grabedPos).2 := by
  unfold doPeng
  dsimp only
  by_cases hdo : ((s.playerList pos).doPeng c grabedPos).1 = true
  · rw [if_pos hdo, if_pos rfl]
    have h₁ := h.setPlayer pos (MJPlayer.justDoOper_doPeng _ _ _ hdo)
    apply h₁.same hgo
    refine SameHands.trans ?_ (checkMyOper_same _ (Table.setRiver _ grabedPos _) _ false)
    exact ⟨rfl, rfl, rfl, Or.inl rfl⟩
  · rw [if_neg hdo]
    exact h

variable (gameProgress) in
lemma doGang_dealt (pos grabedPos : Seat) (c : ℕ) :
    if (doGang gameProgress s pos c grabedPos).1 then
      Dealt s₀ (doGang gameProgress s pos c grabedPos).2
    else Undrawn s₀ (doGang gameProgress s pos c grabedPos).2 := by
  unfold doGang
  dsimp only
  by_cases hdo : ((s.playerList pos).doGang c grabedPos).1 = true
  · rw [if_pos hdo, if_pos rfl]
    have h₁ := h.setPlayer pos (MJPlayer.justDoOper_doGang _ _ _ hdo)
    apply giveNewCard_dealt hgo
    exact h₁.congr ⟨rfl, rfl, rfl, Or.inl rfl⟩ h₁.going
  · rw [if_neg hdo]
    exact h

lemma doAnGang_dealt (pos grabedPos : Seat) (c : ℕ) :
    Dealt s₀ (doAnGang gameProgress s pos c grabedPos) := by
  unfold doAnGang
  dsimp only
  split_ifs with hdo
  · exact giveNewCard_dealt hgo (h.setPlayer _ (MJPlayer.justDoOper_doAnGang _ _ _ hdo)) pos
  · exact h.dealt hgo

lemma doMXGang_dealt (pos : Seat) (c : ℕ) :
    Dealt s₀ (Handled.state (doMXGang gameProgress s pos c)) := by
  unfold doMXGang
  dsimp only
  split_ifs with hdo
  · have h₁ := h.setPlayer pos (MJPlayer.justDoOper_doMXGang _ _ hdo)
    rcases checkOtherOper_undrawn gameProgress (t := pos) h₁ c true with
      ⟨s', heq, hs'⟩ | ⟨r, heq, hr⟩
    · rw [heq]
      exact hs'.dealt hgo
    · rw [heq]
      show Dealt s₀ (if r.1 then _ else giveNewCard gameProgress r.2.2 pos)
      split_ifs
      · apply hr.same hgo
        refine SameHands.trans ?_ (autoHu_same _ _ _)
        exact ⟨rfl, rfl, rfl, Or.inl rfl⟩
      · exact giveNewCard_dealt hgo hr pos
  · exact h.dealt hgo

omit hgo in
/-- A tile is put on the river. -/
lemma discard_undrawn {player : MJPlayer} (hj : player.justDoOper ≠ .newCard) (pos : Seat) (c : ℕ) :
    Undrawn s₀ (discard s pos c player) := by
  have h₁ := h.setPlayer pos hj
  set s₁ : Table := { s.setPlayer pos player with
    playerGrabMgr := (s.playerGrabMgr.playerDoGrab pos .play (some c)).2 } with hs₁
  have h₂ : Undrawn s₀ s₁ := h₁.congr ⟨rfl, rfl, rfl, Or.inl rfl⟩ h₁.going
  obtain ⟨hsame, hover⟩ := clearCanDoMap_same s₁ pos
  exact h₂.congr (SameHands.trans hsame ⟨rfl, rfl, rfl, Or.inl rfl⟩) (hover.trans h₂.going)

lemma onPlayCard_dealt (pos : Seat) (card : Option ℕ) :
    Dealt s₀ (Handled.state (onPlayCard gameProgress s pos card)) := by
  unfold onPlayCard
  cases card with
  | none => exact h.dealt hgo
  | some c =>
    dsimp only
    split_ifs with hhas hdo
    · exact h.dealt hgo
    · exact h.dealt hgo
    all_goals
      have hplay : ((s.playerList pos).doPlayCard c).1 = true := by simpa using hdo
      have h₁ := discard_undrawn h (MJPlayer.justDoOper_doPlayCard _ _ hplay) pos c
    · exact h₁.dealt hgo
    · rcases checkOtherOper_undrawn gameProgress (t := pos) h₁ c false with
        ⟨s', heq, hs'⟩ | ⟨r, heq, hr⟩
      · rw [heq]
        exact hs'.dealt hgo
      · rw [heq]
        show Dealt s₀ (if !r.1 then giveNewCard gameProgress r.2.2 (nextPlayerPos pos)
          else autoHu r.2.2 r.2.1 c)
        split_ifs
        · exact giveNewCard_dealt hgo hr _
        · exact hr.same hgo (autoHu_same _ _ _)

lemma cancelEnd_dealt (pos grabedPos : Seat) :
    Dealt s₀ (Handled.state (cancelEnd gameProgress s pos grabedPos)) := by
  unfold cancelEnd
  split_ifs
  · cases s.qiangGangInfo with
    | none => exact h.dealt hgo
    | some tPos =>
      apply giveNewCard_dealt hgo
      exact h.congr ⟨rfl, rfl, rfl, Or.inl rfl⟩ h.going
  · cases s.playerCanDoMap pos with
    | none => exact h.dealt hgo
    | some map =>
      dsimp only
      split_ifs
      · exact h.dealt hgo
      · exact giveNewCard_dealt hgo h _

/-- Whatever choice prevails. -/
lemma grabEnd_dealt : Dealt s₀ (Handled.state (grabEnd gameProgress s)) := by
  unfold grabEnd
  cases s.playerGrabMgr.pos with
  | none => exact h.dealt hgo
  | some grabedPos =>
    dsimp only
    cases s.playerGrabMgr.getPowestNode with
    | none => exact giveNewCard_dealt hgo h _
    | some node =>
      dsimp only
      split
      · exact cancelEnd_dealt hgo h _ _
      · exact h.dealt hgo
      · exact h.same hgo (doHu_same _ _ _)
      · rename_i c _ _
        have hpeng := doPeng_dealt gameProgress hgo h node.pos grabedPos c
        split_ifs at hpeng ⊢
        · exact hpeng
        · exact giveNewCard_dealt hgo hpeng _
      · exact doAnGang_dealt hgo h _ _ _
      · rename_i c _ _
        have hgang := doGang_dealt gameProgress hgo h node.pos grabedPos c
        split_ifs at hgang ⊢
        · exact hgang
        · exact giveNewCard_dealt hgo hgang _
      · exact doMXGang_dealt hgo h _ _
      · exact onPlayCard_dealt hgo h _ _
      · exact h.dealt hgo

lemma decideOrWait_dealt : Dealt s₀ (Handled.state (decideOrWait gameProgress s)) := by
  unfold decideOrWait
  cases s.playerGrabMgr.needWait with
  | none => exact h.dealt hgo
  | some wait =>
    cases wait with
    | true => exact h.dealt hgo
    | false => exact grabEnd_dealt hgo h

omit hgo in
/-- A choice of a seat is recorded, and its offers are cleared. -/
lemma choose_undrawn (grab : PlayerGrabMgr) (pos : Seat) :
    Undrawn s₀ (clearCanDoMap { s with playerGrabMgr := grab } pos) := by
  set s₁ : Table := { s with playerGrabMgr := grab } with hs₁
  have h₁ : Undrawn s₀ s₁ := h.congr ⟨rfl, rfl, rfl, Or.inl rfl⟩ h.going
  obtain ⟨hsame, hover⟩ := clearCanDoMap_same s₁ pos
  exact h₁.congr hsame (hover.trans h₁.going)

lemma onGrabCard_dealt (pos : Seat) (card : Option ℕ) :
    Dealt s₀ (Handled.state (onGrabCard gameProgress s pos oper card)) := by
  unfold onGrabCard
  by_cases hhas : (!s.playerGrabMgr.hasOper pos oper) = true
  · rw [if_pos hhas]
    exact h.dealt hgo
  · rw [if_neg hhas]
    cases s.playerCanDoMap pos with
    | none => exact h.dealt hgo
    | some map =>
      dsimp only
      cases map.cards oper with
      | none => exact h.dealt hgo
      | some cardList =>
        dsimp only
        have hchoose := fun grab => choose_undrawn h grab pos
        split_ifs
        · exact decideOrWait_dealt hgo (hchoose _)
        · exact decideOrWait_dealt hgo
            ((hchoose _).congr ⟨rfl, rfl, rfl, Or.inl rfl⟩ (hchoose _).going)
        · cases card with
          | none => exact h.dealt hgo
          | some c =>
            dsimp only
            split_ifs
            · exact decideOrWait_dealt hgo (hchoose _)
            · exact h.dealt hgo

/-- A message other than the debug operation. -/
lemma onClientMsg_dealt (pos : Seat) {pkg : ClientMsg}
    (hnt : Oper.ofCode pkg.operation ≠ some .testNeedCard) :
    Dealt s₀ (Handled.state (onClientMsg gameProgress s pos pkg)) := by
  unfold onClientMsg
  dsimp only
  cases ho : Oper.ofCode pkg.operation with
  | none => exact h.dealt hgo
  | some oper =>
    cases oper with
    | play => exact onPlayCard_dealt hgo h _ _
    | syncData => exact h.dealt hgo
    | testNeedCard => exact absurd ho hnt
    | _ => exact onGrabCard_dealt hgo h _ _

end Moves

/-! ### Events -/

/-- `room.REQUEST:onPlayerOperation` for the messages of players. Those of robots take the same way
after a delay. -/
def onPlayerOperation (gameProgress : GameProgress) (runenv : Option String) (s : Table)
    (pos : Seat) (pkg : ClientMsg) : Handled :=
  if passes runenv pkg then onClientMsg gameProgress s pos pkg else .ok s

/-- A message of a seat in the environment `runenv`, or a timer that fires; once the round is over,
neither comes to the playing state, and a timer that is not set does not fire. -/
def next (runenv : Option String) (s : Table) (e : GameProgress × Event) : Table :=
  if s.endArgs.isSome then s
  else
    match e.2 with
    | .clientMsg pos pkg => (onPlayerOperation e.1 runenv s pos pkg).state
    | .buHua turn =>
      if turn ∈ s.timers then buHua e.1 { s with timers := s.timers.erase turn } turn else s

/-- The event is an operation of the game or a timer. -/
def isGameEvent (e : GameProgress × Event) : Bool :=
  match e.2 with
  | .clientMsg _ pkg => isGameOper pkg
  | .buHua _ => true

/-- Outside of the environment `develop` a step deals from the front of the wall. -/
lemma next_dealt {runenv : Option String} (hrun : runenv.getD "product" ≠ "develop")
    (e : GameProgress × Event) (hlegal : ∀ c ∈ s.mjWall, MJCard.isValid c = true)
    (hneed : ∀ p, s.testPlayerNeedCard p = none) : Dealt s (next runenv s e) := by
  unfold next
  by_cases hover : s.endArgs.isSome = true
  · rw [if_pos hover]
    exact ⟨.nothing rfl fun _ => Or.inr rfl, hlegal, hneed⟩
  · rw [if_neg hover]
    have hgo : s.endArgs = none := by simpa using hover
    have h := Undrawn.refl hgo hlegal hneed
    obtain ⟨gameProgress, ⟨pos, pkg⟩ | turn⟩ := e
    · dsimp only [onPlayerOperation]
      split_ifs with hpass
      · exact onClientMsg_dealt hgo h pos ((passes_iff hrun).mp hpass)
      · exact h.dealt hgo
    · dsimp only
      split_ifs
      · apply buHua_dealt hgo
        exact h.congr ⟨rfl, rfl, rfl, Or.inl rfl⟩ h.going
      · exact h.dealt hgo

/-- Outside of the environment `develop` a message that is no operation of the game changes
nothing. -/
lemma next_of_not_isGameEvent {runenv : Option String} (hrun : runenv.getD "product" ≠ "develop")
    (s : Table) (e : GameProgress × Event) (h : isGameEvent e = false) : next runenv s e = s := by
  obtain ⟨gameProgress, ⟨pos, pkg⟩ | turn⟩ := e
  · unfold next
    split_ifs with hover
    · rfl
    · dsimp only [onPlayerOperation]
      split_ifs with hpass
      · have hnt := (passes_iff hrun).mp hpass
        unfold isGameEvent isGameOper at h
        unfold onClientMsg
        dsimp only at h ⊢
        cases ho : Oper.ofCode pkg.operation with
        | none => rfl
        | some oper =>
          rw [ho] at h hnt
          cases oper with
          | syncData => rfl
          | testNeedCard => exact absurd rfl hnt
          | _ => simp at h
      · rfl
  · simp [isGameEvent] at h

/-- After the deal the tiles of the wall are valid, and no tile has been asked for when none was in
the last round. -/
lemma onEntry_undrawn (gameProgress : GameProgress) (d : Deal)
    (hlast : ∀ p, d.last.testPlayerNeedCard p = none) :
    (∀ c ∈ (onEntry gameProgress d).mjWall, MJCard.isValid c = true) ∧
      ∀ p, (onEntry gameProgress d).testPlayerNeedCard p = none := by
  have hk := Hands.onEntry_kept gameProgress d hlast
  refine ⟨fun c hc => ?_, hk.noTest⟩
  have hmem := Table.mem_tiles_of_wall hc
  rw [hk.tiles] at hmem
  exact (hk.legal c hmem).1

end Nanjing
