import JsmjServer.Tongxiang.Draws

set_option relaxedAutoImplicit false
set_option autoImplicit false

/-!
# Rounds that are played out

From every turn of a round the wall can be used up: the seat plays the tile it has drawn, the seats
that may claim it cancel, and the next seat draws. Nobody has done a kong meanwhile, so that no draw
stops, and the kong points stay as they are.

## Main definitions

* `Tongxiang.Plain` — the tiles to come are ordinary ones of the wall.
* `Tongxiang.Passing` — the seats that have answered a discard have cancelled.

## Main results

* `Tongxiang.Passing.passes` — the claims on a discard come to their end.
* `Tongxiang.Turn.playedOut` — a round can be played out from every turn.
-/

namespace Tongxiang

open Mahjong
open Nanjing (clearCanDoMap)

/-- Nobody has asked for a tile, and the wall has no tile beyond `Zi7`. -/
structure Plain (s : Game) : Prop where
  wall : ∀ c ∈ s.mjWall, c ≤ Zi7
  asked : ∀ p, s.testPlayerNeedCard p = none

/-- The wall and the kong points are the same. -/
structure Alike (s s' : Game) : Prop where
  wall : s'.mjWall = s.mjWall
  asked : s'.testPlayerNeedCard = s.testPlayerNeedCard
  gang : s'.roundGangScore = s.roundGangScore

lemma Alike.plain {s s' : Game} (h : Alike s s') (hp : Plain s) : Plain s' :=
  ⟨h.wall ▸ hp.wall, h.asked ▸ hp.asked⟩

/-! ### Draws -/

section Draw

variable {rule : RoomRuleMap} {s : Game} {t : Seat}

/-- A seat that has rested draws the next tile of the wall and gets the turn. -/
lemma Idle.draw_plain (rule : RoomRuleMap) (hi : Idle s t) (hrest : Rested s t) (hp : Plain s) :
    (s.mjWall = [] ∧ giveNewCard rule s t = .ok (s.gotoNextState .liuJu)) ∨
    ∃ c wall s', s.mjWall = c :: wall ∧ giveNewCard rule s t = .ok s' ∧ Going s' ∧ Turn s' t ∧
      (s'.playerList t).newCard = c ∧ s'.mjWall = wall ∧
      s'.testPlayerNeedCard = s.testPlayerNeedCard ∧ s'.roundGangScore = s.roundGangScore := by
  have hnot : ¬PiaoGang s t := by
    rintro ⟨c, table, -, -, -, o, ho, hlast⟩
    rcases hrest with hnil | hplay
    · rw [hnil] at hlast
      cases hlast
    · rw [hlast] at hplay
      obtain rfl := Option.some.inj hplay
      exact absurd ho (by decide)
  cases hwall : s.mjWall with
  | nil =>
    left
    have htake : takeCard s.toTable t = none := by simp [takeCard, hp.asked t, hwall, getFrontCard]
    simp only [giveNewCard, htake, true_and]
  | cons c wall =>
    right
    have htake : takeCard s.toTable t = some (c, { s.toTable with mjWall := wall }) := by
      simp [takeCard, hp.asked t, hwall, getFrontCard]
    rcases giveNewCard_cases rule hi with
      ⟨hnone, -⟩ | ⟨c', table, htake', ⟨herr, -⟩ | ⟨-, s', hok, hgo, hturn⟩⟩
    · rw [htake] at hnone
      cases hnone
    · exact absurd ((giveNewCard_error rule hi).mp ⟨_, _, herr⟩) hnot
    · refine ⟨c, wall, s', rfl, hok, hgo, hturn, ?_⟩
      rw [giveNewCard_eq rule htake] at hok
      obtain ⟨hv, -⟩ := drawn_frame hi.toSound htake
      have hplayer := playerList_drawn hi htake
      have hadd := ((hi.held t).addNewCard hv).2
      have hnew : ((Tongxiang.drawn s { s.toTable with mjWall := wall } t c).playerList t).hasNewCard =
          true := by
        rw [hplayer, hadd]
        exact MJPlayer.hasNewCard_of_isValid hv
      obtain ⟨grab, map, xiangGong, piaoHuaPos, hstate, -⟩ := checkMyOper_frame rule hnew false
      rw [hok] at hstate
      change s' = _ at hstate
      rw [hstate]
      refine ⟨?_, rfl, rfl, rfl⟩
      show ((Tongxiang.drawn s { s.toTable with mjWall := wall } t c).playerList t).newCard = c
      rw [hplayer, hadd]

end Draw

/-! ### Claims that nobody takes -/

/-- A discard is offered to other seats: those that have not answered may cancel, and the others
have cancelled. -/
structure Passing (s : Game) (t : Seat) (b : ℕ) : Prop extends Going s where
  claim : Claim s t b
  quiet : s.isQiangGanging = false
  cancel : ∀ p, s.playerGrabMgr.canGrabMgr.opers p ≠ [] →
    .cancel ∈ s.playerGrabMgr.canGrabMgr.opers p ∧
      ∃ map l, s.playerCanDoMap p = some map ∧ map.cards .cancel = some l
  passed : s.playerGrabMgr.Chosen fun _ o _ => o = .cancel
  empty : ∀ p, s.playerGrabMgr.doneGrabMgr.opers p ≠ [] → s.playerCanDoMap p = some .empty

section Pass

variable (rule : RoomRuleMap) {s : Game} {t p : Seat} {b : ℕ}

/-- The message by which a seat cancels. -/
lemma onClientMsg_cancel (hmem : .cancel ∈ s.playerGrabMgr.canGrabMgr.opers p) {map : CanDoMap}
    {l : List ℕ} (hmap : s.playerCanDoMap p = some map) (hl : map.cards .cancel = some l) :
    ∃ m, onClientMsg rule s p ⟨11, 0⟩ =
      decideOrWait rule (afterChoice s p .cancel 1 m) .cancel := by
  have hclear : clearCanDoMap { s.toTable with
      playerGrabMgr := (s.playerGrabMgr.playerDoGrab p .cancel (some 1)).2 } p =
      (afterChoice s p .cancel 1 s.mjCancelMgr).toTable := by
    rw [Nanjing.clearCanDoMap_eq (by simp [hmap])]
    rfl
  have hmsg : onClientMsg rule s p ⟨11, 0⟩ =
      onGrabCard rule s p .cancel (fromOld2NowCardByteMap 0) := rfl
  rw [hmsg]
  unfold onGrabCard
  simp only [PlayerGrabMgr.hasOper_iff.mpr hmem, Bool.not_true, Bool.false_eq_true, if_false, hmap,
    hl, if_true, hclear]
  split_ifs
  · exact ⟨_, rfl⟩
  · exact ⟨_, rfl⟩

/-- A seat cancels: the others are waited for, or the next seat draws. -/
lemma Passing.step (h : Passing s t b) (hp : s.playerGrabMgr.canGrabMgr.opers p ≠ []) :
    ∃ m, Passing (afterChoice s p .cancel 1 m) t b ∧
      ((onClientMsg rule s p ⟨11, 0⟩ = .ok (afterChoice s p .cancel 1 m) ∧
          ∃ q, (afterChoice s p .cancel 1 m).playerGrabMgr.canGrabMgr.opers q ≠ []) ∨
        onClientMsg rule s p ⟨11, 0⟩ =
          giveNewCard rule (afterChoice s p .cancel 1 m) (t + 1)) := by
  obtain ⟨hmem, map, l, hmap, hl⟩ := h.cancel p hp
  obtain ⟨m, hmsg⟩ := onClientMsg_cancel rule hmem hmap hl
  have hch : Chooses s p .cancel 1 := ⟨hmem, by decide, map, l, hmap, hl, Or.inl rfl⟩
  set s₁ := afterChoice s p .cancel 1 m with hs₁
  have hother : ∀ q, s₁.playerGrabMgr.canGrabMgr.opers q ≠ [] → q ≠ p := by
    rintro q hq rfl
    exact hq (h.claim.opers_choose hmem 1)
  have hopers : ∀ q, q ≠ p → s₁.playerGrabMgr.canGrabMgr.opers q =
      s.playerGrabMgr.canGrabMgr.opers q := fun q hq =>
    (PlayerGrabMgr.opers_playerDoGrab_of_ne hq (some 1)).1
  have hmaps : ∀ q, q ≠ p → s₁.playerCanDoMap q = s.playerCanDoMap q := fun q hq =>
    Function.update_of_ne hq _ _
  have hpass : Passing s₁ t b := by
    refine ⟨h.toGoing.choose hch (by decide) m, h.claim.choose hch (by decide) m, h.quiet,
      fun q hq => ?_, h.passed.playerDoGrab fun _ => rfl, fun q hq => ?_⟩
    · have hne := hother q hq
      rw [hopers q hne] at hq ⊢
      rw [hmaps q hne]
      exact h.cancel q hq
    · by_cases hqp : q = p
      · rw [hqp]
        exact Function.update_self _ _ _
      · rw [hmaps q hqp]
        refine h.empty q ?_
        rw [← (PlayerGrabMgr.opers_playerDoGrab_of_ne hqp (some 1)).2]
        exact hq
  refine ⟨m, hpass, ?_⟩
  have hdone : s₁.playerGrabMgr.doneGrabMgr.opers p ≠ [] :=
    PlayerGrabMgr.opers_playerDoGrab_ne_nil hmem
  obtain ⟨wait, hwait, hiff⟩ := PlayerGrabMgr.needWait_spec hpass.valid
  rw [hmsg, decideOrWait, hwait]
  cases wait with
  | true =>
    left
    refine ⟨rfl, ?_⟩
    -- a choice is waited for only while somebody may still make one
    by_contra hnone
    rw [not_exists] at hnone
    obtain ⟨o, rest, ho⟩ := List.exists_cons_of_ne_nil hdone
    have hfalse := hiff.mpr (Or.inr ⟨p, o, by rw [ho]; rfl, Or.inr fun q o' ho' => ?_⟩)
    · cases hfalse
    · exact absurd (List.ne_nil_of_mem ho') (hnone q)
  | false =>
    right
    obtain ⟨node, hnode⟩ := PlayerGrabMgr.exists_getPowestNode hpass.valid hdone
    obtain ⟨hitem, o, c, ho, hcard, rfl⟩ := hpass.passed.getPowestNode hnode
    have hempty : s₁.playerCanDoMap node.pos = some .empty := by
      apply hpass.empty
      simp [CanGrabMgr.opers, hitem, ho]
    show grabEnd rule s₁ = giveNewCard rule s₁ (t + 1)
    unfold grabEnd
    rw [hpass.claim.pos, hnode]
    dsimp only
    rw [ho, hcard, List.head?_cons]
    simp only [cancelEnd, hpass.quiet, Bool.false_eq_true, if_false, hempty]
    rfl

/-- When the seats that may claim a discard cancel one after the other, the next seat draws. -/
lemma Passing.passes (h : Passing s t b) (l : List Seat)
    (hl : ∀ p, s.playerGrabMgr.canGrabMgr.opers p ≠ [] → p ∈ l)
    (hp : ∃ p, s.playerGrabMgr.canGrabMgr.opers p ≠ []) :
    ∃ s₁ s₂ p, Runs.Reaches (Tongxiang.step rule) (fun _ _ => True) s s₁ ∧ s₁.endArgs = none ∧
      onClientMsg rule s₁ p ⟨11, 0⟩ = giveNewCard rule s₂ (t + 1) ∧ Idle s₂ (t + 1) ∧
      Rested s₂ (t + 1) ∧ Alike s s₂ := by
  induction l generalizing s with
  | nil =>
    obtain ⟨p, hp⟩ := hp
    exact absurd (hl p hp) List.not_mem_nil
  | cons q l ih =>
    by_cases hq : s.playerGrabMgr.canGrabMgr.opers q = []
    · refine ih h (fun p hp => ?_) hp
      rcases List.mem_cons.mp (hl p hp) with rfl | hmem
      · exact absurd hq hp
      · exact hmem
    · obtain ⟨m, hpass, hcases⟩ := h.step rule hq
      rcases hcases with ⟨hwait, hopen⟩ | hdraw
      · have hstep : Tongxiang.step rule s (q, ⟨11, 0⟩) = some (afterChoice s q .cancel 1 m) := by
          simp only [Tongxiang.step, h.going, Option.isSome_none, Bool.false_eq_true, if_false, hwait]
          rfl
        have hrest : ∀ p, (afterChoice s q .cancel 1 m).playerGrabMgr.canGrabMgr.opers p ≠ [] →
            p ∈ l := by
          intro p hp
          have hsub : (afterChoice s q .cancel 1 m).playerGrabMgr.canGrabMgr.opers p ⊆
              s.playerGrabMgr.canGrabMgr.opers p :=
            PlayerGrabMgr.opers_playerDoGrab_subset (some 1)
          have hold : s.playerGrabMgr.canGrabMgr.opers p ≠ [] := by
            intro hnil
            rw [hnil] at hsub
            exact hp (List.subset_nil.mp hsub)
          rcases List.mem_cons.mp (hl p hold) with rfl | hmem
          · exact absurd (h.claim.opers_choose (h.cancel p hq).1 1) hp
          · exact hmem
        obtain ⟨s₁, s₂, p, hreach, hover, hmsg, hidle, hrest, halike⟩ := ih hpass hrest hopen
        exact ⟨s₁, s₂, p, (Runs.Reaches.init.step trivial hstep).trans hreach, hover, hmsg, hidle,
          hrest, halike.wall, halike.asked, halike.gang⟩
      · refine ⟨s, _, q, .init, h.going, hdraw, ⟨hpass.toSound, hpass.claim.newCard, hpass.quiet,
          fun p _ => hpass.claim.rested p (Or.inl hpass.quiet)⟩,
          hpass.claim.rested _ (Or.inl hpass.quiet), rfl, rfl, rfl⟩

end Pass

/-! ### Discards -/

section Play

variable (rule : RoomRuleMap) {s : Game} {t : Seat}

/-- The offers of a discard may be cancelled. -/
lemma Idle.passing {b : ℕ} {l : List Seat} {r : Bool × Table} {d : Game} (h : Idle d t)
    (hrest : ∀ p, Rested d p) (hv : MJCard.isValid b = true) (hl : ∀ p ∈ l, p ≠ t)
    (hnodup : l.Nodup) (hoff : Offered (claims d t b false) d.piaoHuaPos l (false, cleared d t) r)
    (hgrab : r.1 = true) :
    Passing { d with toTable := r.2 } t b ∧
      ∃ p, r.2.playerGrabMgr.canGrabMgr.opers p ≠ [] := by
  have hq : r.2.isQiangGanging = false := (h.offered hoff).quiet
  have hsame : r.2 = { r.2 with isQiangGanging := false, qiangGangInfo := r.2.qiangGangInfo } := by
    rw [← hq]
  have hdone : ∀ p, r.2.playerGrabMgr.doneGrabMgr.opers p = [] := by
    intro p
    rw [hoff.done]
    simp [cleared, PlayerGrabMgr.setPos, PlayerGrabMgr.clear]
  -- who is offered anything may cancel
  have hopen : ∀ p, r.2.playerGrabMgr.canGrabMgr.opers p ≠ [] →
      p ∈ l ∧ .cancel ∈ r.2.playerGrabMgr.canGrabMgr.opers p ∧
        .cancel ∈ (withCancel (claims d t b false p)).map Prod.fst := by
    intro p hp
    rw [hoff.opers] at hp ⊢
    split_ifs at hp ⊢ with hcond
    · have hne : claims d t b false p ≠ [] := by
        intro hnil
        rw [operList_of_claims_nil hnil] at hcond
        simp at hcond
      have hmem : .cancel ∈ (withCancel (claims d t b false p)).map Prod.fst := by
        simp [withCancel, hne]
      refine ⟨hcond.1, PlayerGrabMgr.Round.mem_sortOpers.mpr ?_, hmem⟩
      unfold operList
      dsimp only
      split_ifs
      · exact mem_delChiPeng hmem rfl
      · exact hmem
    · simp [cleared, PlayerGrabMgr.setPos, PlayerGrabMgr.clear] at hp
  have hclaim : Going { d with toTable := r.2 } ∧ Claim { d with toTable := r.2 } t b := by
    obtain ⟨hvalid, hclaim⟩ := offered_claim h.newCard hv hl hnodup hoff r.2.qiangGangInfo
      (fun h => absurd h (by decide)) (fun p _ => hrest p) rfl
    rw [hsame]
    exact ⟨⟨(h.offered hoff).toSound.of_same rfl rfl rfl rfl, hvalid,
      Or.inr (Or.inl ⟨t, b, hclaim⟩)⟩, hclaim⟩
  refine ⟨⟨hclaim.1, hclaim.2, hq, fun p hp => ⟨(hopen p hp).2.1, ?_⟩, ?_, fun p hp => ?_⟩, ?_⟩
  · obtain ⟨hpl, -, hmem⟩ := hopen p hp
    obtain ⟨cards, hcards⟩ := CanDoMap.cards_ofOffers_isSome hmem
    refine ⟨{ CanDoMap.ofOffers (withCancel (claims d t b false p)) with
      operList := some (operList (claims d t b false) d.piaoHuaPos p) }, cards, ?_, hcards⟩
    show r.2.playerCanDoMap p = _
    rw [hoff.frame]
    exact if_pos hpl
  · exact PlayerGrabMgr.chosen_clear.of_done hoff.done
  · exact absurd (hdone p) hp
  · rw [hoff.grab, Bool.false_or, List.any_eq_true] at hgrab
    obtain ⟨p, hp, hlen⟩ := hgrab
    rw [decide_eq_true_eq] at hlen
    refine ⟨p, ?_⟩
    rw [hoff.opers, if_pos ⟨hp, hlen⟩]
    intro hnil
    have hsort := List.length_insertionSort (fun a b : Oper => a.code ≤ b.code)
      (operList (claims d t b false) d.piaoHuaPos p)
    change (sortOpers _).length = _ at hsort
    rw [hnil, List.length_nil] at hsort
    omega

/-- The seat plays the tile it has drawn, and all others pass: the next seat draws. -/
lemma Turn.passed (h : Going s) (ht : Turn s t) (hc : (s.playerList t).newCard ≤ Zi7) :
    ∃ s₁ s₂ e, Runs.Reaches (step rule) (fun _ _ => True) s s₁ ∧
      step rule s₁ e = some (giveNewCard rule s₂ (t + 1)).state ∧ Idle s₂ (t + 1) ∧
      Rested s₂ (t + 1) ∧ Alike s s₂ := by
  have hn : (s.playerList t).hasNewCard = true := (ht.newCard t).mpr rfl
  set b := (s.playerList t).newCard with hb
  have hmem : b ∈ (s.playerList t).newCard :: (s.playerList t).cardList := by simp [hb]
  have hdo := MJPlayer.doPlayCard_of_mem hn hmem
  obtain ⟨x, hstep⟩ := h.exists_play rule hn hmem
  obtain ⟨-, -, hv, -⟩ := (h.held t).doPlayCard hdo
  obtain ⟨hidle, hrest⟩ := discard_idle h ht hdo
  obtain ⟨l, r, hl, hnodup, hoff, hcases⟩ := onPlayCard_cases rule ht hdo
  obtain ⟨gangPiao, grab, map, n, hframe⟩ := discard_frame s t b ((s.playerList t).doPlayCard b).2
  set d := discard s t b ((s.playerList t).doPlayCard b).2 with hd
  have halike : Alike s { d with toTable := r.2 } := by
    rw [hoff.frame, hframe]
    exact ⟨rfl, rfl, rfl⟩
  rcases hcases with ⟨-, hlt⟩ | ⟨heq, hgrab, -⟩ | ⟨heq, -⟩
  · omega
  · obtain ⟨hpass, hopen⟩ := hidle.passing hrest hv hl hnodup hoff hgrab
    obtain ⟨s₁, s₂, p, hreach, hover, hmsg, hidle₂, hrest₂, halike₂⟩ :=
      hpass.passes rule seats (fun p _ => by simp [seats]) hopen
    refine ⟨s₁, s₂, (p, ⟨11, 0⟩), ?_, ?_, hidle₂, hrest₂, ?_⟩
    · rw [heq] at hstep
      exact (Runs.Reaches.init.step trivial hstep).trans hreach
    · rw [step, hover]
      simp only [Option.isSome_none, Bool.false_eq_true, if_false, hmsg]
    · exact ⟨halike₂.wall.trans halike.wall, halike₂.asked.trans halike.asked,
        halike₂.gang.trans halike.gang⟩
  · have hnext : Idle d (t + 1) := ⟨hidle.toSound, hidle.newCard, hidle.quiet, fun p _ => hrest p⟩
    rw [heq] at hstep
    refine ⟨s, _, (t, ⟨10, x⟩), .init, hstep, hnext.offered hoff, ?_, halike⟩
    have hrest₂ := hrest (t + 1)
    rw [hoff.frame]
    exact hrest₂

/-- A round can be played out from every turn, without a kong. -/
theorem Turn.playedOut (h : Going s) (ht : Turn s t) (hp : Plain s)
    (hc : (s.playerList t).newCard ≤ Zi7) :
    ∃ s', Runs.Reaches (step rule) (fun _ _ => True) s s' ∧ s'.endArgs = some .liuJu ∧
      s'.roundGangScore = s.roundGangScore := by
  induction hwall : s.mjWall generalizing s t with
  | nil =>
    obtain ⟨s₁, s₂, e, hreach, hstep, hidle, hrest, halike⟩ := ht.passed rule h hc
    rcases hidle.draw_plain rule hrest (halike.plain hp) with
      ⟨-, hdraw⟩ | ⟨c, wall, s', hcons, -⟩
    · rw [hdraw] at hstep
      exact ⟨_, hreach.step trivial hstep, rfl, halike.gang⟩
    · rw [halike.wall, hwall] at hcons
      cases hcons
  | cons c wall ih =>
    obtain ⟨s₁, s₂, e, hreach, hstep, hidle, hrest, halike⟩ := ht.passed rule h hc
    have hplain := halike.plain hp
    rcases hidle.draw_plain rule hrest hplain with
      ⟨hnil, -⟩ | ⟨c', wall', s', hcons, hok, hgo, hturn, hnew, hw, hasked, hgang⟩
    · rw [halike.wall, hwall] at hnil
      cases hnil
    · rw [halike.wall, hwall] at hcons
      obtain ⟨rfl, rfl⟩ := List.cons.inj hcons
      rw [hok] at hstep
      have hwalls : ∀ x ∈ s.mjWall, x ≤ Zi7 := hp.wall
      rw [hwall] at hwalls
      have hplain' : Plain s' := by
        refine ⟨fun x hx => ?_, fun p => ?_⟩
        · rw [hw] at hx
          exact hwalls x (List.mem_cons_of_mem _ hx)
        · rw [hasked]
          exact hplain.asked p
      have hnew' : (s'.playerList (t + 1)).newCard ≤ Zi7 := by
        rw [hnew]
        exact hwalls c List.mem_cons_self
      obtain ⟨s'', hreach', hover, hgang'⟩ := ih hgo hturn hplain' hnew' hw
      exact ⟨s'', (hreach.step trivial hstep).trans hreach', hover,
        hgang'.trans (hgang.trans halike.gang)⟩

end Play

end Tongxiang
