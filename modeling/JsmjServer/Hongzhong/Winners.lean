import JsmjServer.Hongzhong.Conservation
import JsmjServer.Mahjong.Winners

set_option relaxedAutoImplicit false
set_option autoImplicit false

/-!
# The winners of a round of hongzhong mahjong

A declaration on a tile that other seats may win on too is answered at once, and `doHu` counts all
seats of `multiHuPos` as winners. In runs in which nobody declares a win after another of these
seats has answered, the winners of the round are right.

## Main definitions

* `Hongzhong.TimelyMsg` — the messages of these runs.

## Main results

* `Hongzhong.onClientMsg_fine` — such a message keeps the invariant, or ends the round rightly.
* `Hongzhong.winners_of_timely` — so do whole runs.
-/

namespace Hongzhong

open Mahjong

section Steps

variable {rule : RoomRuleMap} {s : Table} {t p : Seat} {b : ℕ} {oper : Oper}

lemma checkMyOper_fair (h : s.Fair) (checkOp : Bool) : (checkMyOper rule s t checkOp).Fair := by
  by_cases hn : (s.playerList t).hasNewCard = true
  · rw [checkMyOper_eq hn]
    refine Table.turn_fair s.playerGrabMgr h.going hn ?_ h.full
    intro o ho
    obtain ⟨⟨o, l⟩, hmem, rfl⟩ := List.mem_map.mp ho
    rcases mem_myOffers hmem with ⟨rfl, -⟩ | ⟨rfl, -⟩ | ⟨-, ⟨rfl, -⟩ | ⟨rfl, -⟩ | ⟨rfl, -⟩⟩ <;>
      simp [operLevel]
  · rw [Bool.not_eq_true] at hn
    simpa [checkMyOper, hn] using h

lemma giveNewCard_fine (h : s.Fair) : (giveNewCard rule s t).Fine := by
  unfold giveNewCard
  cases hcard : takeCard s t with
  | none => exact Table.liuJu_fine s
  | some r =>
    obtain ⟨c, s₁⟩ := r
    obtain ⟨wall, need, rfl⟩ := takeCard_frame hcard
    simp only [redraw_eq, if_true]
    left
    apply checkMyOper_fair
    refine h.of_same rfl rfl rfl (fun _ => Option.some_ne_none t) rfl rfl fun q _ hn => ?_
    show (Function.update s.playerList t _ q).hasNewCard = true
    by_cases hq : q = t
    · subst hq
      rw [Function.update_self]
      exact MJPlayer.hasNewCard_addNewCard c hn
    · rwa [Function.update_of_ne hq]

lemma checkOtherOper_fair (hgo : s.endArgs = none) (ht : (s.playerCanDoMap t).isSome) (b : ℕ)
    (bGrabGang : Bool) :
    (∃ s', checkOtherOper s t b bGrabGang = .error s' ∧ s'.Fair) ∨
      ∃ c, checkOtherOper s t b bGrabGang = .ok c ∧ c.2.Fair := by
  set s₀ : Table := { s with
    playerGrabMgr := s.playerGrabMgr.clear.setPos t, multiHuPos := [] } with hs₀
  have hstops : ∀ p q, canHuStops s₀ b bGrabGang p = false → canHuStops s₀ b bGrabGang q = true →
      Table.offersHu (fun pos => claims s₀ pos b bGrabGang) p = false := by
    intro p q hp hq
    simp only [canHuStops, Bool.and_eq_true, Bool.not_eq_true', decide_eq_true_eq] at hq
    -- beyond the count map a seat is only passed over when it has a new tile
    have hnew : (s₀.playerList p).hasNewCard = true := by
      simpa [canHuStops, hq.1.1, hq.2] using hp
    simp [Table.offersHu, claims, withCancel, MJPlayer.canHu, hnew, hq.1.1]
  have hfair := Table.offerUntil_fair (s := s₀) (t := t) (b := b) (g := s.playerGrabMgr) hgo rfl rfl
    (fun p x hx => (mem_claims hx).2.mem_operLevel.1) (fun p l hl => (mem_claims hl).1) hstops ht
  rcases hfair with herr | ⟨hok, hfair⟩
  · exact Or.inl herr
  · exact Or.inr ⟨_, hok, hfair⟩

lemma doPeng_fine (h : s.Fair) (hp : ¬s.Unanswered p) (b : ℕ) (grabedPos : Seat) :
    (doPeng rule s p b grabedPos).2.Fair := by
  unfold doPeng
  dsimp only
  split_ifs
  · apply checkMyOper_fair
    exact (h.setPlayer hp _).of_same rfl rfl rfl id rfl rfl fun _ _ => id
  · exact h

lemma doGang_fine (h : s.Fair) (hp : ¬s.Unanswered p) (b : ℕ) (grabedPos : Seat) :
    (doGang rule s p b grabedPos).2.Fine ∧
      ((doGang rule s p b grabedPos).1 = false → (doGang rule s p b grabedPos).2.Fair) := by
  unfold doGang
  dsimp only
  split_ifs
  · refine ⟨?_, by simp⟩
    apply giveNewCard_fine
    exact (h.setPlayer hp _).of_same rfl rfl rfl id rfl rfl fun _ _ => id
  · exact ⟨Or.inl h, fun _ => h⟩

lemma doAnGang_fine (h : s.Fair) (hp : ¬s.Unanswered p) (b : ℕ) (grabedPos : Seat) :
    (doAnGang rule s p b grabedPos).Fine := by
  unfold doAnGang
  dsimp only
  split_ifs
  · exact giveNewCard_fine (h.setPlayer hp _)
  · exact Or.inl h

lemma doMXGang_fine (h : s.Fair) (hp : ¬s.Unanswered p) (b : ℕ) :
    (Handled.state (doMXGang rule s p b)).Fine := by
  unfold doMXGang
  dsimp only
  split_ifs
  · have hmap : ((s.setPlayer p ((s.playerList p).doMXGang b).2).playerCanDoMap p).isSome :=
      h.mapped p (Or.inr hp)
    rcases checkOtherOper_fair (h.setPlayer hp _).going hmap b true with
      ⟨s', herr, hs'⟩ | ⟨c, hok, hc⟩
    · rw [herr]
      exact Or.inl hs'
    · rw [hok]
      show Table.Fine (if c.1 then _ else giveNewCard rule c.2 p)
      split_ifs
      · exact Or.inl (hc.of_same rfl rfl rfl id rfl rfl fun _ _ => id)
      · exact giveNewCard_fine hc
  · exact Or.inl h

lemma onPlayCard_fine (h : s.Fair) (pos : Seat) (card : Option ℕ) :
    (Handled.state (onPlayCard rule s pos card)).Fine := by
  unfold onPlayCard
  cases card with
  | none => exact Or.inl h
  | some b =>
    dsimp only
    split_ifs with hhas hdo
    · exact Or.inl h
    · exact Or.inl h
    · set s₁ := Table.setRiver (Table.setCanDoMap { s.setPlayer pos ((s.playerList pos).doPlayCard b).2
        with playerGrabMgr := (s.playerGrabMgr.playerDoGrab pos .play (some b)).2 } pos .empty) pos
        (MJRiver.pushCard (s.riverCardList pos) b) with hs₁
      have hmap : (s₁.playerCanDoMap pos).isSome := by
        rw [hs₁]
        show (Function.update s.playerCanDoMap pos (some .empty) pos).isSome
        simp
      have hgo : s₁.endArgs = none := h.going
      show (Handled.state ((checkOtherOper s₁ pos b false).map _)).Fine
      rcases checkOtherOper_fair hgo hmap b false with ⟨s', herr, hs'⟩ | ⟨c, hok, hc⟩
      · rw [herr]
        exact Or.inl hs'
      · rw [hok]
        show Table.Fine (if !c.1 then giveNewCard rule c.2 (nextPlayerPos pos) else c.2)
        split_ifs
        · exact giveNewCard_fine hc
        · exact Or.inl hc

lemma cancelEnd_fine (h : s.Fair) (pos grabedPos : Seat) :
    (Handled.state (cancelEnd rule s pos grabedPos)).Fine := by
  unfold cancelEnd
  split_ifs
  · cases s.qiangGangInfo with
    | none => exact Or.inl h
    | some tPos =>
      apply giveNewCard_fine
      exact h.of_same rfl rfl rfl id rfl rfl fun _ _ => id
  · cases s.playerCanDoMap pos with
    | none => exact Or.inl h
    | some map =>
      dsimp only
      split_ifs
      · exact Or.inl h
      · exact giveNewCard_fine h

/-- A choice other than to win is carried out. -/
lemma grabEnd_fine (h : s.Fair) : (Handled.state (grabEnd rule s)).Fine := by
  unfold grabEnd
  cases hpos : s.playerGrabMgr.pos with
  | none => exact Or.inl h
  | some grabedPos =>
    dsimp only
    cases hnode : s.playerGrabMgr.getPowestNode with
    | none => exact giveNewCard_fine h
    | some node =>
      obtain ⟨o, c, hdone, ho, hcard, hne⟩ := h.node hnode
      have hans : ¬s.Unanswered node.pos := by simp [Table.Unanswered, hdone]
      dsimp only
      rw [ho, hcard, List.head?_cons]
      cases o with
      | hu => exact absurd rfl hne
      | cancel => exact cancelEnd_fine h _ _
      | peng =>
        dsimp only
        have hfair : (doPeng rule s node.pos c grabedPos).2.Fair := doPeng_fine h hans c grabedPos
        split_ifs
        · exact Or.inl hfair
        · exact giveNewCard_fine hfair
      | mg =>
        dsimp only
        split_ifs with hdo
        · exact (doGang_fine h hans c grabedPos).1
        · exact giveNewCard_fine ((doGang_fine h hans c grabedPos).2 (by simpa using hdo))
      | ag => exact doAnGang_fine h hans c grabedPos
      | mxg => exact doMXGang_fine h hans c
      | play => exact onPlayCard_fine h _ _
      | _ => exact Or.inl h

lemma decideOrWait_fine (h : s.Fair) : (Handled.state (decideOrWait rule s oper)).Fine := by
  unfold decideOrWait
  cases needWait s oper with
  | none => exact Or.inl h
  | some decide =>
    cases decide with
    | true => exact grabEnd_fine h
    | false => exact Or.inl h

/-- A declared win ends the round at once. -/
lemma decideOrWait_hu {l : List ℕ} (h : s.Fair) (hoff : s.HuOffered p l) (hb : b ∈ l)
    (ht : s.Timely p) :
    (Handled.state (decideOrWait rule { s with
      playerGrabMgr := (s.playerGrabMgr.playerDoGrab p .hu (some b)).2 } .hu)).Fine := by
  obtain ⟨hwait, node, hnode, hpos, ho, hcard⟩ := h.decided hoff.1 b
  obtain ⟨grabedPos, hgrabed⟩ :=
    Option.ne_none_iff_exists'.mp (h.placed p (List.ne_nil_of_mem hoff.1))
  set s₁ : Table := { s with
    playerGrabMgr := (s.playerGrabMgr.playerDoGrab p .hu (some b)).2 } with hs₁
  have hneed : needWait s₁ .hu = some true := by
    show Option.map _ (s.playerGrabMgr.playerDoGrab p .hu (some b)).2.needWait = some true
    rw [hwait]
    rfl
  have hgrabed₁ : s₁.playerGrabMgr.pos = some grabedPos :=
    PlayerGrabMgr.pos_playerDoGrab (some b) |>.trans hgrabed
  have hdo : grabEnd rule s₁ = .ok (doHu rule s₁ p b) := by
    unfold grabEnd
    rw [hgrabed₁]
    dsimp only
    rw [hnode]
    dsimp only
    rw [ho, hcard, hpos]
    rfl
  rw [decideOrWait, hneed]
  dsimp only
  rw [hdo]
  exact Or.inr ⟨_, rfl, Or.inr (h.won hoff hb ht rfl (fun _ _ => rfl) rfl rfl rfl)⟩

lemma onGrabCard_fine (h : s.Fair) (pos : Seat) (card : Option ℕ)
    (ht : oper = .hu → ∀ c l, card = some c → s.HuOffered pos l → c ∈ l → s.Timely pos) :
    (Handled.state (onGrabCard rule s pos oper card)).Fine := by
  unfold onGrabCard
  by_cases hmem : oper ∈ s.playerGrabMgr.canGrabMgr.opers pos
  · rw [PlayerGrabMgr.hasOper_iff.mpr hmem, Bool.not_true, if_neg (by simp)]
    cases hmap : s.playerCanDoMap pos with
    | none => exact Or.inl h
    | some map =>
      dsimp only
      have hsome : (s.playerCanDoMap pos).isSome := by simp [hmap]
      cases hcards : map.cards oper with
      | none => exact Or.inl h
      | some cardList =>
        dsimp only
        split_ifs with hcancel hnew
        · subst hcancel
          apply decideOrWait_fine
          exact h.choose hmem (by decide) 1 rfl rfl (fun _ _ => rfl) hsome rfl rfl
        · subst hcancel
          apply decideOrWait_fine
          exact h.choose hmem (by decide) 1 rfl rfl (fun _ _ => rfl) hsome rfl rfl
        · cases card with
          | none => exact Or.inl h
          | some c =>
            dsimp only
            split_ifs with hc
            · by_cases hhu : oper = .hu
              · subst hhu
                have hoff : s.HuOffered pos cardList := ⟨hmem, by simp [hmap, hcards]⟩
                exact decideOrWait_hu h hoff hc (ht rfl c cardList rfl hoff hc)
              · apply decideOrWait_fine
                exact h.choose hmem hhu c rfl rfl (fun _ _ => rfl) hsome rfl rfl
            · exact Or.inl h
  · have hhas := PlayerGrabMgr.hasOper_eq_false hmem
    rw [hhas, Bool.not_false, if_pos rfl]
    exact Or.inl h

end Steps

/-! ### Runs -/

/-- A message that, if it declares an offered win, does so in time. -/
def TimelyMsg (s : Table) (e : Seat × ClientMsg) : Prop :=
  s.declaresHu e.1 e.2 = true → s.Timely e.1

instance (s : Table) (e : Seat × ClientMsg) : Decidable (TimelyMsg s e) :=
  inferInstanceAs (Decidable (_ → _))

section Runs

variable {rule : RoomRuleMap} {s : Table}

/-- Any message, of the debug operation too. -/
lemma onClientMsg_fine (h : s.Fair) (pos : Seat) (pkg : ClientMsg) (ht : TimelyMsg s (pos, pkg)) :
    (Handled.state (onClientMsg rule s pos pkg)).Fine := by
  unfold onClientMsg
  cases ho : Oper.ofCode pkg.operation with
  | none => exact Or.inl h
  | some oper =>
    have hgrab : (Handled.state (onGrabCard rule s pos oper
        (fromOld2NowCardByteMap pkg.card_bytes))).Fine := by
      refine onGrabCard_fine h pos _ ?_
      rintro rfl c l hc hoff hmem
      exact ht (Table.declaresHu_iff ho hc hoff hmem)
    cases oper with
    | play => exact onPlayCard_fine h pos _
    | syncData => exact Or.inl h
    | testNeedCard => exact Or.inl (h.of_same rfl rfl rfl id rfl rfl fun _ _ => id)
    | _ => exact hgrab

/-- After the deal the offers are fair. -/
lemma onEntry_fair (rule : RoomRuleMap) (wall : List ℕ) (banker : Seat) (last : Table) :
    (onEntry rule wall banker last).Fair := by
  unfold onEntry
  apply checkMyOper_fair
  refine ⟨rfl, PlayerGrabMgr.valid_clear, PlayerGrabMgr.chosen_clear, ?_, ?_, ?_, ?_, ?_⟩
  · intro q o ho
    simp [PlayerGrabMgr.clear] at ho
  · intro q hq
    simp [PlayerGrabMgr.clear] at hq
  · intro q hq
    simp [PlayerGrabMgr.clear, Table.Unanswered] at hq
  · intro hm
    exact absurd rfl hm
  · intro q l hq
    have hmem := hq.1
    simp [PlayerGrabMgr.clear] at hmem

/-- In every run whose declarations are timely, a round that is not drawn is won by
declaration. -/
lemma winners_of_timely {wall : List ℕ} {banker : Seat} {last : Table}
    (hs : Runs.Reaches (step rule) TimelyMsg (onEntry rule wall banker last) s) : s.Fine := by
  refine Runs.Reaches.invariant hs (Or.inl (onEntry_fair rule wall banker last)) ?_
  intro s e s' hfine hok hstep
  unfold step at hstep
  split_ifs at hstep with hover
  obtain rfl := Option.some.inj hstep
  rcases hfine with hfair | ⟨a, ha, -⟩
  · exact onClientMsg_fine hfair e.1 e.2 hok
  · simp [ha] at hover

end Runs

end Hongzhong
