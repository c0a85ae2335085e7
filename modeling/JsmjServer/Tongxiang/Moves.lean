import JsmjServer.Tongxiang.Phases

set_option relaxedAutoImplicit false
set_option autoImplicit false

/-!
# What a message can do in tongxiang mahjong

A message is refused, notes a tile for the next draw, records a choice, makes the choices be carried
out, declares a win or discards a tile. Each of these leaves the round in one of its phases, drawn,
or won by a declaration.

## Main definitions

* `Tongxiang.afterChoice` — the state after a choice has been recorded.
* `Tongxiang.Decided` — what is carried out when the choices are decided.
* `Tongxiang.Outcome` — what a message can do.

## Main results

* `Tongxiang.onClientMsg_outcome` — every message, while the round goes on.
* `Tongxiang.Outcome.kept` — the phases after it.
* `Tongxiang.going_of_reaches` — every state of a run.
-/

namespace Tongxiang

open Mahjong
open Nanjing (clearAllCanDoMap clearCanDoMap)

/-! ### Choices -/

/-- The state after a choice of a seat has been recorded; `m` holds what it has passed on. -/
def afterChoice (s : Game) (p : Seat) (o : Oper) (c : ℕ) (m : MJCancelMgr) : Game :=
  { s with
    playerGrabMgr := (s.playerGrabMgr.playerDoGrab p o (some c)).2
    playerCanDoMap := Function.update s.playerCanDoMap p (some .empty)
    mjCancelMgr := m }

/-- The seat may choose the operation with the tile. -/
def Chooses (s : Game) (p : Seat) (o : Oper) (c : ℕ) : Prop :=
  o ∈ s.playerGrabMgr.canGrabMgr.opers p ∧ o ≠ .play ∧
    ∃ map l, s.playerCanDoMap p = some map ∧ map.cards o = some l ∧ (o = .cancel ∨ c ∈ l)

section Choose

variable {s : Game} {p t : Seat} {o : Oper} {b c : ℕ}

/-- What is taken is none of the operations of a turn. -/
lemma MayTake.kind (h : MayTake s t b p o) :
    o = .mg ∨ o = .peng ∨ o = .lChi ∨ o = .mChi ∨ o = .rChi := by
  rcases h.2.2 with ⟨rfl, -⟩ | ⟨rfl, -⟩ | ⟨-, hchi⟩
  · exact Or.inl rfl
  · exact Or.inr (Or.inl rfl)
  · exact Or.inr (Or.inr (isChi_of_mem_getCanChiType hchi))

lemma MayTake.canPeng (h : MayTake s t b p .peng) : (s.playerList p).canPeng b = true := by
  rcases h.2.2 with ⟨h, -⟩ | ⟨-, h⟩ | ⟨-, h⟩
  · exact absurd h (by decide)
  · exact h
  · rcases isChi_of_mem_getCanChiType h with h | h | h <;> exact absurd h (by decide)

lemma MayTake.canGang (h : MayTake s t b p .mg) : (s.playerList p).canGang b = true := by
  rcases h.2.2 with ⟨-, h⟩ | ⟨h, -⟩ | ⟨-, h⟩
  · exact h
  · exact absurd h (by decide)
  · rcases isChi_of_mem_getCanChiType h with h | h | h <;> exact absurd h (by decide)

/-- Nobody may play while a tile can be claimed. -/
lemma Claim.not_play (h : Claim s t b) (p : Seat) :
    .play ∉ s.playerGrabMgr.canGrabMgr.opers p := by
  intro hmem
  rcases h.opers p .play hmem with h | ⟨h, -⟩ | h
  · exact absurd h (by decide)
  · exact absurd h (by decide)
  · rcases h.kind with h | h | h | h | h <;> exact absurd h (by decide)

/-- The choices recorded are not to win. -/
lemma Going.chosen_ne (h : Going s) (hmem : o ∈ s.playerGrabMgr.canGrabMgr.opers p) :
    s.playerGrabMgr.Chosen fun _ o _ => o ≠ .hu := by
  rcases h.phase with ⟨t, ht⟩ | ⟨t, b, hc⟩ | hs
  · refine ht.chosen.mono ?_
    rintro p o c ⟨-, rfl | rfl | rfl⟩ <;> decide
  · refine hc.chosen.mono ?_
    rintro p o c (rfl | ⟨-, htake⟩)
    · decide
    · rcases htake.kind with rfl | rfl | rfl | rfl | rfl <;> decide
  · simp [hs p] at hmem

/-- A seat that may still choose has not chosen. -/
lemma Going.unanswered (h : Going s) (hmem : o ∈ s.playerGrabMgr.canGrabMgr.opers p)
    (hplay : o ≠ .play) : s.Unanswered p := by
  rcases h.phase with ⟨t, ht⟩ | ⟨t, b, hc⟩ | hs
  · obtain rfl : p = t := (ht.opers p o hmem).1
    exact ht.free o hmem hplay
  · exact hc.free p o hmem
  · simp [hs p] at hmem

/-- A choice other than to win keeps the turn. -/
lemma Turn.choose (ht : Turn s t) (hmem : o ∈ s.playerGrabMgr.canGrabMgr.opers p)
    (hplay : o ≠ .play) (hhu : o ≠ .hu) (c : ℕ) (m : MJCancelMgr) :
    Turn (afterChoice s p o c m) t := by
  obtain ⟨rfl, hdo⟩ := ht.opers p o hmem
  have hsub : ∀ q, (s.playerGrabMgr.playerDoGrab p o (some c)).2.canGrabMgr.opers q ⊆
      s.playerGrabMgr.canGrabMgr.opers q := fun q =>
    PlayerGrabMgr.opers_playerDoGrab_subset (some c)
  refine ⟨(PlayerGrabMgr.pos_playerDoGrab _).trans ht.pos, ht.newCard, ht.quiet, ?_,
    fun q o' ho' => ht.opers q o' (hsub q ho'), ?_, fun o' ho' hne => ?_, ht.rested⟩
  · -- the possibility to play stays open
    have hdel : .play ∈ (s.playerGrabMgr.canGrabMgr.delPlayer p).2.opers p := by
      rw [CanGrabMgr.opers_delPlayer, if_pos rfl, if_pos ht.play]
      simp
    show .play ∈ (s.playerGrabMgr.playerDoGrab p o (some c)).2.canGrabMgr.opers p
    rcases PlayerGrabMgr.playerDoGrab_cases s.playerGrabMgr p o (some c) with
      ⟨-, heq⟩ | ⟨-, heq⟩ | ⟨-, heq⟩ <;> rw [heq]
    · exact ht.play
    · exact hdel
    · exact hdel
  · refine ht.chosen.playerDoGrab fun _ => ⟨rfl, ?_⟩
    rcases hdo with h | h | h | h | ⟨h, -⟩
    · exact absurd h hplay
    · exact Or.inl h
    · exact Or.inr (Or.inl h)
    · exact Or.inr (Or.inr h)
    · exact absurd h hhu
  · exact absurd (PlayerGrabMgr.opers_playerDoGrab_self hmem (some c) o' ho') hne

/-- A choice closes the offers of its seat on a tile that can be claimed. -/
lemma Claim.opers_choose (hb : Claim s t b) (hmem : o ∈ s.playerGrabMgr.canGrabMgr.opers p)
    (c : ℕ) : (s.playerGrabMgr.playerDoGrab p o (some c)).2.canGrabMgr.opers p = [] := by
  refine List.eq_nil_iff_forall_not_mem.mpr fun o' ho' => ?_
  obtain rfl := PlayerGrabMgr.opers_playerDoGrab_self hmem (some c) o' ho'
  exact hb.not_play p (PlayerGrabMgr.opers_playerDoGrab_subset (some c) ho')

/-- A choice other than to win keeps the claims. -/
lemma Claim.choose (hb : Claim s t b) (hch : Chooses s p o c) (hhu : o ≠ .hu) (m : MJCancelMgr) :
    Claim (afterChoice s p o c m) t b := by
  obtain ⟨hmem, -, map, l, hmap, hl, hc⟩ := hch
  have hsub : ∀ q, (s.playerGrabMgr.playerDoGrab p o (some c)).2.canGrabMgr.opers q ⊆
      s.playerGrabMgr.canGrabMgr.opers q := fun q =>
    PlayerGrabMgr.opers_playerDoGrab_subset (some c)
  have hother : ∀ q, ∀ o' ∈ (s.playerGrabMgr.playerDoGrab p o (some c)).2.canGrabMgr.opers q,
      q ≠ p := by
    rintro q o' ho' rfl
    simp [hb.opers_choose hmem c] at ho'
  refine ⟨(PlayerGrabMgr.pos_playerDoGrab _).trans hb.pos, hb.valid, hb.newCard, hb.multi,
    fun q o' ho' => hb.opers q o' (hsub q ho'), ?_, ?_, ?_, hb.rested, hb.robbed⟩
  · intro q o' ho' hne map' l' hmap' hl'
    change Function.update s.playerCanDoMap p (some .empty) q = some map' at hmap'
    rw [Function.update_of_ne (hother q o' ho')] at hmap'
    exact hb.tile q o' (hsub q ho') hne map' l' hmap' hl'
  · refine hb.chosen.playerDoGrab fun _ => ?_
    by_cases hcancel : o = .cancel
    · exact Or.inl hcancel
    · have hlist := hb.tile p o hmem hcancel map l hmap hl
      have hcl := hc.resolve_left hcancel
      rw [hlist] at hcl
      refine Or.inr ⟨List.mem_singleton.mp hcl, ?_⟩
      rcases hb.opers p o hmem with h | ⟨h, -⟩ | h
      · exact absurd h hcancel
      · exact absurd h hhu
      · exact h
  · intro q o' ho'
    have hfree := hb.free q o' (hsub q ho')
    show (s.playerGrabMgr.playerDoGrab p o (some c)).2.doneGrabMgr.opers q = []
    rw [(PlayerGrabMgr.opers_playerDoGrab_of_ne (hother q o' ho') (some c)).2]
    exact hfree

/-- A choice other than to win keeps the phase. -/
lemma Going.choose (h : Going s) (hch : Chooses s p o c) (hhu : o ≠ .hu) (m : MJCancelMgr) :
    Going (afterChoice s p o c m) := by
  refine ⟨h.toSound.of_same rfl rfl rfl rfl, h.valid.playerDoGrab _, ?_⟩
  rcases h.phase with ⟨t, ht⟩ | ⟨t, b, hb⟩ | hs
  · exact Or.inl ⟨t, ht.choose hch.1 hch.2.1 hhu c m⟩
  · exact Or.inr (Or.inl ⟨t, b, hb.choose hch hhu m⟩)
  · have hmem := hch.1
    simp [hs p] at hmem

end Choose

/-! ### Decisions -/

/-- What is carried out when the choices are decided: nothing, the next draw, or the strongest
choice. -/
inductive Decided (rule : RoomRuleMap) (s : Game) : Handled → Prop
  | stay : Decided rule s (.ok s)
  | stop : Decided rule s (.error (.missing, s))
  | pass {t : Seat} {b : ℕ} : Claim s t b → s.isQiangGanging = false →
      Decided rule s (giveNewCard rule s (t + 1))
  | kong {t : Seat} {b : ℕ} : Claim s t b → s.isQiangGanging = true →
      Decided rule s
        (giveNewCard rule { s with isQiangGanging := false, qiangGangInfo := none } t)
  | peng {t q : Seat} {b : ℕ} {h : Handled} : Claim s t b → MayTake s t b q .peng →
      .peng ∈ s.playerGrabMgr.doneGrabMgr.opers q → doPeng rule s q b t = some h → Decided rule s h
  | gang {t q : Seat} {b : ℕ} {h : Handled} : Claim s t b → MayTake s t b q .mg →
      doGang rule s q b t = some h → Decided rule s h
  | chi {t q : Seat} {b : ℕ} {o : Oper} : Claim s t b → MayTake s t b q o →
      (o = .lChi ∨ o = .mChi ∨ o = .rChi) → o ∈ s.playerGrabMgr.doneGrabMgr.opers q →
      Decided rule s (doChi rule s q o b t)
  | anGang {t : Seat} (c : ℕ) : Turn s t → Decided rule s (doAnGang rule s t c t)
  | mxGang {t : Seat} (c : ℕ) : Turn s t → Decided rule s (doMXGang rule s t c)

section Decide

variable (rule : RoomRuleMap) {s : Game} {p t : Seat} {b : ℕ}

/-- The branch of `grabEnd` for a choice to cancel. -/
lemma cancelEnd_decided (hc : Claim s t b) (p : Seat) : Decided rule s (cancelEnd rule s p t) := by
  unfold cancelEnd
  by_cases hq : s.isQiangGanging = true
  · rw [if_pos hq, hc.robbed hq]
    exact .kong hc hq
  · rw [if_neg hq]
    rw [Bool.not_eq_true] at hq
    cases s.playerCanDoMap p with
    | none => exact .stop
    | some map =>
      dsimp only
      split_ifs
      · exact .stay
      · exact .pass hc hq

/-- The prevailing choice is carried out. To cancel does not prevail in a turn, as its seat may
still play a tile. -/
lemma grabEnd_decided (hv : s.playerGrabMgr.Valid) (hheld : ∀ p, (s.playerList p).Held)
    (hphase : (∃ t, Turn s t) ∨ ∃ t b, Claim s t b)
    (hd : s.playerGrabMgr.doneGrabMgr.opers p ≠ [])
    (hwait : s.playerGrabMgr.needWait = some false) : Decided rule s (grabEnd rule s) := by
  obtain ⟨node, hnode⟩ := PlayerGrabMgr.exists_getPowestNode hv hd
  unfold grabEnd
  rcases hphase with ⟨t, ht⟩ | ⟨t, b, hc⟩
  · obtain ⟨-, o, c, ho, hcard, hpos, hkind⟩ := ht.chosen.getPowestNode hnode
    have hprev := PlayerGrabMgr.prevails_of_needWait hv hwait hnode ho
    rw [ht.pos, hnode]
    dsimp only
    rw [ho, hcard, hpos, List.head?_cons]
    rcases hkind with rfl | rfl | rfl
    · have hlt := (hprev.resolve_left (by decide)) t .play ht.play
      exact absurd hlt (by decide)
    · exact .anGang c ht
    · exact .mxGang c ht
  · obtain ⟨hitem, o, c, ho, hcard, hkind⟩ := hc.chosen.getPowestNode hnode
    have hdone : o ∈ s.playerGrabMgr.doneGrabMgr.opers node.pos := by
      simp [CanGrabMgr.opers, hitem, ho]
    rw [hc.pos, hnode]
    dsimp only
    rw [ho, hcard, List.head?_cons]
    rcases hkind with rfl | ⟨rfl, htake⟩
    · exact cancelEnd_decided rule hc node.pos
    · rcases htake.2.2 with ⟨rfl, hgang⟩ | ⟨rfl, hpeng⟩ | ⟨-, hchi⟩
      · obtain ⟨q, hdo, -⟩ := (hheld node.pos).doGang t hgang hc.valid
        have hsome : ∃ h, doGang rule s node.pos c t = some h := by
          simp only [doGang, hdo, if_true]
          exact ⟨_, rfl⟩
        obtain ⟨h, hsome⟩ := hsome
        simp only [hsome, Option.getD_some]
        exact .gang hc htake hsome
      · obtain ⟨q, hdo, -⟩ := (hheld node.pos).doPeng t hpeng hc.valid
        have hsome : ∃ h, doPeng rule s node.pos c t = some h := by
          simp only [doPeng, hdo, if_true]
          exact ⟨_, rfl⟩
        obtain ⟨h, hsome⟩ := hsome
        simp only [hsome, Option.getD_some]
        exact .peng hc htake hdone hsome
      · have hkind := isChi_of_mem_getCanChiType hchi
        rcases hkind with rfl | rfl | rfl
        · exact .chi hc htake (Or.inl rfl) hdone
        · exact .chi hc htake (Or.inr (Or.inl rfl)) hdone
        · exact .chi hc htake (Or.inr (Or.inr rfl)) hdone

end Decide

/-! ### Messages -/

/-- What a message of the seat `p`, with the operation and the tile it names, can do while the round
goes on. -/
inductive Outcome (rule : RoomRuleMap) (s : Game) (p : Seat) :
    Option Oper → Option ℕ → Handled → Prop
  | same {oper : Option Oper} {card : Option ℕ} : Outcome rule s p oper card (.ok s)
  | stop {oper : Option Oper} {card : Option ℕ} :
      Outcome rule s p oper card (.error (.missing, s))
  | ask {card : Option ℕ} : (∀ c, card = some c → MJCard.isValid c = true) →
      Outcome rule s p (some .testNeedCard) card
        (.ok { s with testPlayerNeedCard := Function.update s.testPlayerNeedCard p card })
  | wait {o : Oper} {card : Option ℕ} {c : ℕ} {m : MJCancelMgr} : Chooses s p o c → o ≠ .hu →
      Outcome rule s p (some o) card (.ok (afterChoice s p o c m))
  | decide {o : Oper} {card : Option ℕ} {c : ℕ} {m : MJCancelMgr} {h : Handled} :
      Chooses s p o c → o ≠ .hu → Decided rule (afterChoice s p o c m) h →
      Outcome rule s p (some o) card h
  | declare {c : ℕ} : Chooses s p .hu c →
      Outcome rule s p (some .hu) (some c)
        (.ok (doHu (afterChoice s p .hu c s.mjCancelMgr) p c))
  | play {b : ℕ} : Turn s p → ((s.playerList p).doPlayCard b).1 = true →
      Outcome rule s p (some .play) (some b) (onPlayCard rule s p (some b))

section Messages

variable (rule : RoomRuleMap) {s : Game} {p : Seat} {o : Oper} {c : ℕ}

/-- A seat that may play a tile has the turn. -/
lemma Going.turn_of_play (h : Going s) (hmem : .play ∈ s.playerGrabMgr.canGrabMgr.opers p) :
    Turn s p := by
  rcases h.phase with ⟨t, ht⟩ | ⟨t, b, hc⟩ | hs
  · obtain rfl : p = t := (ht.opers p .play hmem).1
    exact ht
  · exact absurd hmem (hc.not_play p)
  · simp [hs p] at hmem

lemma onPlayCard_outcome (h : Going s) (p : Seat) (card : Option ℕ) :
    Outcome rule s p (some .play) card (onPlayCard rule s p card) := by
  cases card with
  | none => exact .stop
  | some b =>
    by_cases hmem : .play ∈ s.playerGrabMgr.canGrabMgr.opers p
    · by_cases hdo : ((s.playerList p).doPlayCard b).1 = true
      · exact .play (h.turn_of_play hmem) hdo
      · rw [Bool.not_eq_true] at hdo
        have heq : onPlayCard rule s p (some b) = .ok s := by
          simp [onPlayCard, PlayerGrabMgr.hasOper_iff.mpr hmem, hdo]
        rw [heq]
        exact .same
    · have hhas := PlayerGrabMgr.hasOper_eq_false hmem
      have heq : onPlayCard rule s p (some b) = .ok s := by simp [onPlayCard, hhas]
      rw [heq]
      exact .same

/-- A recorded choice is waited for, or decided; a declared win is settled. -/
lemma decideOrWait_outcome (h : Going s) (hch : Chooses s p o c) (m : MJCancelMgr)
    (card : Option ℕ) (hm : o = .hu → m = s.mjCancelMgr ∧ card = some c) :
    Outcome rule s p (some o) card (decideOrWait rule (afterChoice s p o c m) o) := by
  have hunanswered := h.unanswered hch.1 hch.2.1
  by_cases hhu : o = .hu
  · subst hhu
    obtain ⟨rfl, rfl⟩ := hm rfl
    obtain ⟨hwait, node, hnode, rfl, ho, hcard⟩ :=
      PlayerGrabMgr.decided_hu h.valid (h.chosen_ne hch.1) hch.1 hunanswered c
    have hpos : ∃ t, s.playerGrabMgr.pos = some t := by
      rcases h.phase with ⟨t, ht⟩ | ⟨t, b, hc⟩ | hs
      · exact ⟨t, ht.pos⟩
      · exact ⟨t, hc.pos⟩
      · have hmem := hch.1
        simp [hs node.pos] at hmem
    obtain ⟨t, hpos⟩ := hpos
    set s₁ := afterChoice s node.pos .hu c s.mjCancelMgr with hs₁
    have hwait₁ : s₁.playerGrabMgr.needWait = some false := hwait
    have hnode₁ : s₁.playerGrabMgr.getPowestNode = some node := hnode
    have hpos₁ : s₁.playerGrabMgr.pos = some t := (PlayerGrabMgr.pos_playerDoGrab _).trans hpos
    have heq : decideOrWait rule s₁ .hu = .ok (doHu s₁ node.pos c) := by
      simp only [decideOrWait, hwait₁, Bool.not_false, Bool.true_or, if_true, grabEnd, hpos₁,
        hnode₁, ho, hcard, List.head?_cons]
    rw [heq, hs₁]
    exact .declare hch
  · have hgo := h.choose hch hhu m
    have hphase : (∃ t, Turn (afterChoice s p o c m) t) ∨
        ∃ t b, Claim (afterChoice s p o c m) t b := by
      rcases h.phase with ⟨t, ht⟩ | ⟨t, b, hc⟩ | hs
      · exact Or.inl ⟨t, ht.choose hch.1 hch.2.1 hhu c m⟩
      · exact Or.inr ⟨t, b, hc.choose hch hhu m⟩
      · have hmem := hch.1
        simp [hs p] at hmem
    have hdone : (afterChoice s p o c m).playerGrabMgr.doneGrabMgr.opers p ≠ [] :=
      PlayerGrabMgr.opers_playerDoGrab_ne_nil hch.1
    obtain ⟨wait, hwait, -⟩ := PlayerGrabMgr.needWait_spec hgo.valid
    simp only [decideOrWait, hwait, hhu, decide_false, Bool.or_false]
    cases wait with
    | true => exact .wait hch hhu
    | false => exact .decide hch hhu (grabEnd_decided rule hgo.valid hgo.held hphase hdone hwait)

lemma onGrabCard_outcome (h : Going s) (p : Seat) (hplay : o ≠ .play) (card : Option ℕ) :
    Outcome rule s p (some o) card (onGrabCard rule s p o card) := by
  unfold onGrabCard
  by_cases hmem : o ∈ s.playerGrabMgr.canGrabMgr.opers p
  swap
  · have hhas := PlayerGrabMgr.hasOper_eq_false hmem
    simp only [hhas, Bool.not_false, if_true]
    exact .same
  simp only [PlayerGrabMgr.hasOper_iff.mpr hmem, Bool.not_true, Bool.false_eq_true, if_false]
  cases hmap : s.playerCanDoMap p with
  | none => exact .same
  | some map =>
    dsimp only
    cases hl : map.cards o with
    | none => exact .same
    | some l =>
      dsimp only
      have hclear : ∀ c, clearCanDoMap { s.toTable with
          playerGrabMgr := (s.playerGrabMgr.playerDoGrab p o (some c)).2 } p =
          (afterChoice s p o c s.mjCancelMgr).toTable := by
        intro c
        rw [Nanjing.clearCanDoMap_eq (by simp [hmap])]
        rfl
      have hne : o = .cancel → o ≠ .hu := by
        rintro rfl
        decide
      split_ifs with hcancel hn
      · rw [hclear]
        exact decideOrWait_outcome rule h ⟨hmem, hplay, map, l, hmap, hl, Or.inl hcancel⟩ _ card
          fun hhu => absurd hhu (hne hcancel)
      · rw [hclear]
        exact decideOrWait_outcome rule h ⟨hmem, hplay, map, l, hmap, hl, Or.inl hcancel⟩ _ card
          fun hhu => absurd hhu (hne hcancel)
      · cases card with
        | none => exact .stop
        | some b =>
          dsimp only
          split_ifs with hb
          · rw [hclear]
            exact decideOrWait_outcome rule h ⟨hmem, hplay, map, l, hmap, hl, Or.inr hb⟩
              s.mjCancelMgr (some b) fun _ => ⟨rfl, rfl⟩
          · exact .same

/-- What a message can do while the round goes on. -/
theorem onClientMsg_outcome (h : Going s) (p : Seat) (pkg : ClientMsg) :
    Outcome rule s p (Oper.ofCode pkg.operation) (fromOld2NowCardByteMap pkg.card_bytes)
      (onClientMsg rule s p pkg) := by
  unfold onClientMsg
  cases hcode : Oper.ofCode pkg.operation with
  | none => exact .same
  | some o =>
    by_cases hplay : o = .play
    · subst hplay
      exact onPlayCard_outcome rule h p _
    by_cases htest : o = .testNeedCard
    · subst htest
      exact .ask fun c hc => isValid_fromOld2NowCardByteMap hc
    by_cases hsync : o = .syncData
    · subst hsync
      exact .same
    have heq := onGrabCard_outcome rule h p hplay (fromOld2NowCardByteMap pkg.card_bytes)
    cases o <;> first | exact heq | exact absurd rfl hplay | exact absurd rfl htest |
      exact absurd rfl hsync

end Messages

/-! ### Operations -/

/-- A seat has used its tiles for the operation its player has just done. -/
def used (s : Game) (p : Seat) (player : MJPlayer) : Game :=
  { s with
    playerList := Function.update s.playerList p player
    opHistoryList := Function.update s.opHistoryList p (s.opHistoryList p ++ [player.justDoOper])
    piaoHuaPos := if s.piaoHuaPos = some p then none else s.piaoHuaPos }

/-- The seat may not play the tiles next. -/
def forbid (s : Game) (p : Seat) (l : List ℕ) : Game :=
  { s with canNotChu := Function.update s.canNotChu p (s.canNotChu p ++ l) }

section Operations

variable (rule : RoomRuleMap) {s : Game} {p t : Seat} {b : ℕ} {o : Oper}

lemma reset_record (s : Game) (p : Seat) (player : MJPlayer) :
    ((s.setPlayer p player).record p).resetPiaoHuaPos p = used s p player := by
  unfold used
  by_cases h : s.piaoHuaPos = some p
  · rw [Game.resetPiaoHuaPos, if_pos (show ((s.setPlayer p player).record p).piaoHuaPos = _ from h),
      if_pos h]
    simp only [Game.record, Game.setPlayer, Table.setPlayer, Function.update_self]
  · rw [Game.resetPiaoHuaPos, if_neg (show ¬((s.setPlayer p player).record p).piaoHuaPos = _ from h),
      if_neg h]
    simp only [Game.record, Game.setPlayer, Table.setPlayer, Function.update_self]

lemma noteChuKe_frame (s : Game) (p : Seat) :
    ∃ gangPiao, noteChuKe s p = { s with gangPiao := gangPiao } := by
  unfold noteChuKe
  split_ifs
  · exact ⟨_, rfl⟩
  · exact ⟨s.gangPiao, rfl⟩

lemma noteGang_frame (s : Game) (p : Seat) :
    ∃ gangPiao, noteGang s p = { s with gangPiao := gangPiao } := by
  obtain ⟨gangPiao, h⟩ := noteChuKe_frame s p
  unfold noteGang
  rw [h]
  dsimp only
  split_ifs
  · exact ⟨_, rfl⟩
  · exact ⟨gangPiao, rfl⟩

/-- The state after a kong, up to its payment. -/
lemma reset_noteGang (s : Game) (p : Seat) (player : MJPlayer) : ∃ gangPiao,
    (noteGang ((s.setPlayer p player).record p) p).resetPiaoHuaPos p =
      { used s p player with gangPiao := gangPiao } := by
  obtain ⟨gangPiao, h⟩ := noteGang_frame ((s.setPlayer p player).record p) p
  refine ⟨gangPiao, ?_⟩
  rw [h, ← reset_record]
  unfold Game.resetPiaoHuaPos
  split_ifs <;> rfl

lemma doPeng_eq (h : ((s.playerList p).doPeng b t).1 = true) :
    doPeng rule s p b t = some (checkMyOper rule
      ((used s p ((s.playerList p).doPeng b t).2).setRiver t
        (MJRiver.popCard (s.riverCardList t))) p true) := by
  simp only [doPeng, h, if_true, reset_record]
  rfl

lemma doChi_eq (h : ((s.playerList p).doChi b o t).1 = true) :
    doChi rule s p o b t = checkMyOper rule
      ((used (forbid s p (chiCanNotChu o b)) p ((s.playerList p).doChi b o t).2).setRiver t
        (MJRiver.popCard (s.riverCardList t))) p true := by
  set s₁ := ((forbid s p (chiCanNotChu o b)).setPlayer p ((s.playerList p).doChi b o t).2).record p
    with hs₁
  have heq : doChi rule s p o b t = checkMyOper rule ((s₁.resetPiaoHuaPos p).setRiver t
      (MJRiver.popCard ((s₁.resetPiaoHuaPos p).riverCardList t))) p true := by
    simp only [doChi, h, if_true]
    rfl
  rw [heq, hs₁, reset_record]
  rfl

lemma doGang_eq (h : ((s.playerList p).doGang b t).1 = true) : ∃ gangPiao,
    doGang rule s p b t = some (giveNewCard rule ((addRoundGangScore
      { used s p ((s.playerList p).doGang b t).2 with gangPiao := gangPiao }
      (tbMoney p 3 1)).setRiver t (MJRiver.popCard (s.riverCardList t))) p) := by
  obtain ⟨gangPiao, hnote⟩ := reset_noteGang s p ((s.playerList p).doGang b t).2
  refine ⟨gangPiao, ?_⟩
  simp only [doGang, h, if_true, hnote]
  rfl

lemma doAnGang_eq (h : ((s.playerList p).doAnGang b t).1 = true) : ∃ gangPiao,
    doAnGang rule s p b t = giveNewCard rule (addRoundGangScore
      { used s p ((s.playerList p).doAnGang b t).2 with gangPiao := gangPiao }
      (tbMoney p 6 2)) p := by
  obtain ⟨gangPiao, hnote⟩ := reset_noteGang s p ((s.playerList p).doAnGang b t).2
  refine ⟨gangPiao, ?_⟩
  simp only [doAnGang, h, if_true, hnote]

/-- The state in which the others may rob an added kong. -/
def added (s : Game) (p : Seat) (b : ℕ) (gangPiao : Seat → ℤ) : Game :=
  addRoundGangScore { used s p ((s.playerList p).doMXGang b).2 with gangPiao := gangPiao }
    (tbMoney p 3 1)

lemma doMXGang_eq (h : ((s.playerList p).doMXGang b).1 = true) : ∃ gangPiao,
    doMXGang rule s p b = if getMXGNum ((added s p b gangPiao).playerList p) = 1 then
      match checkOtherOper (added s p b gangPiao) p b true with
      | .error e => .error e
      | .ok (true, s) => .ok { s with isQiangGanging := true, qiangGangInfo := some p }
      | .ok (false, s) => giveNewCard rule s p
    else giveNewCard rule (added s p b gangPiao) p := by
  obtain ⟨gangPiao, hnote⟩ := reset_noteGang s p ((s.playerList p).doMXGang b).2
  refine ⟨gangPiao, ?_⟩
  simp only [doMXGang, h, if_true, hnote]
  rfl

/-- The tile of an added kong is offered to the others, or its seat draws. -/
lemma doMXGang_cases (h : ((s.playerList p).doMXGang b).1 = true) :
    ∃ gangPiao, doMXGang rule s p b = giveNewCard rule (added s p b gangPiao) p ∨
      ∃ l r, (∀ q ∈ l, q ≠ p) ∧ l.Nodup ∧
        Offered (claims (added s p b gangPiao) p b true) (added s p b gangPiao).piaoHuaPos l
          (false, cleared (added s p b gangPiao) p) r ∧
        ((doMXGang rule s p b =
            .error (.countMap, { added s p b gangPiao with toTable := r.2 }) ∧
            Zi7 < b ∧ ∀ q ∈ l, canHuStops (added s p b gangPiao) b q = false) ∨
          doMXGang rule s p b = .ok { added s p b gangPiao with toTable :=
            { r.2 with isQiangGanging := true, qiangGangInfo := some p } } ∨
          doMXGang rule s p b =
            giveNewCard rule { added s p b gangPiao with toTable := r.2 } p) := by
  obtain ⟨gangPiao, heq⟩ := doMXGang_eq rule h
  refine ⟨gangPiao, ?_⟩
  rw [heq]
  split_ifs
  · right
    obtain ⟨l, r, hl, hnodup, hoff, hcheck⟩ :=
      checkOtherOper_cases (added s p b gangPiao) p b true
    refine ⟨l, r, hl, hnodup, hoff, ?_⟩
    rcases hcheck with ⟨heq', hb, hstops⟩ | ⟨heq', -⟩ <;> rw [heq']
    · exact Or.inl ⟨rfl, hb, hstops⟩
    · right
      cases r.1 with
      | true => exact Or.inl rfl
      | false => exact Or.inr rfl
  · exact Or.inl rfl

/-- The wild tile is counted for a seat with a ready hand noted. -/
lemma notePiao_frame (s : Game) (p : Seat) (b : ℕ) : ∃ gangPiao,
    (if b = s.baiDa ∧ 0 < s.gangPiao p then
      { s with gangPiao := Function.update s.gangPiao p (s.gangPiao p + 1) }
    else s) = { s with gangPiao := gangPiao } := by
  by_cases h : b = s.baiDa ∧ 0 < s.gangPiao p
  · exact ⟨_, if_pos h⟩
  · exact ⟨s.gangPiao, if_neg h⟩

lemma clearCanDoMap_frame (s : Table) (p : Seat) :
    ∃ map, clearCanDoMap s p = { s with playerCanDoMap := map } := by
  by_cases h : (s.playerCanDoMap p).isSome
  · exact ⟨_, if_pos h⟩
  · exact ⟨_, if_neg h⟩

lemma piaoHua_frame (s : Game) (p : Seat) (b : ℕ) : ∃ piaoHua, Tongxiang.piaoHua s p b = { s with
    piaoHua := piaoHua
    piaoHuaPos := if b = s.baiDa ∧ s.piaoHuaPos = none then some p else s.piaoHuaPos } := by
  unfold Tongxiang.piaoHua
  by_cases h : b = s.baiDa ∧ s.piaoHuaPos = none
  · rw [if_pos h, if_pos h]
    exact ⟨_, rfl⟩
  · rw [if_neg h, if_neg h]
    exact ⟨_, rfl⟩

/-- What a discard changes before the offers. -/
lemma discard_frame (s : Game) (p : Seat) (b : ℕ) (player : MJPlayer) :
    ∃ gangPiao grab map piaoHua, discard s p b player = { s with
      playerList := Function.update s.playerList p player
      opHistoryList := Function.update s.opHistoryList p (s.opHistoryList p ++ [player.justDoOper])
      lastPlayCard := Function.update s.lastPlayCard p (some b)
      canNotChu := Function.update s.canNotChu p []
      gangPiao := gangPiao
      playerGrabMgr := grab
      playerCanDoMap := map
      riverCardList := Function.update s.riverCardList p (MJRiver.pushCard (s.riverCardList p) b)
      piaoHua := piaoHua
      piaoHuaPos := if b = s.baiDa ∧ s.piaoHuaPos = none then some p else s.piaoHuaPos } := by
  have hrecord : (s.setPlayer p player).record p = { s with
      playerList := Function.update s.playerList p player
      opHistoryList :=
        Function.update s.opHistoryList p (s.opHistoryList p ++ [player.justDoOper]) } := by
    simp only [Game.record, Game.setPlayer, Table.setPlayer, Function.update_self]
  set s₁ : Game := { (s.setPlayer p player).record p with
    lastPlayCard := Function.update s.lastPlayCard p (some b)
    canNotChu := Function.update s.canNotChu p [] } with hs₁
  obtain ⟨g₁, h₁⟩ := noteChuKe_frame s₁ p
  obtain ⟨g₂, h₂⟩ := notePiao_frame (noteChuKe s₁ p) p b
  set s₂ := { noteChuKe s₁ p with gangPiao := g₂ } with hs₂
  set s₃ : Game := { s₂ with
    playerGrabMgr := (s₂.playerGrabMgr.playerDoGrab p .play (some b)).2 } with hs₃
  obtain ⟨map, h₃⟩ := clearCanDoMap_frame s₃.toTable p
  set s₄ : Game := { s₃ with toTable := clearCanDoMap s₃.toTable p } with hs₄
  obtain ⟨n, h₄⟩ := piaoHua_frame (s₄.setRiver p (MJRiver.pushCard (s₄.riverCardList p) b)) p b
  have heq : discard s p b player =
      piaoHua (s₄.setRiver p (MJRiver.pushCard (s₄.riverCardList p) b)) p b := by
    rw [hs₄, hs₃, ← h₂]
    rfl
  refine ⟨g₂, (s₂.playerGrabMgr.playerDoGrab p .play (some b)).2, map, n, ?_⟩
  rw [heq, h₄, hs₄, h₃, hs₃, hs₂, h₁, hs₁, hrecord]
  rfl
end Operations

/-! ### What a turn leaves alone -/

/-- Nothing is open but the operations of a turn, and nothing is chosen. -/
def TurnOnly (g : PlayerGrabMgr) : Prop :=
  ∀ p, (∀ o ∈ g.canGrabMgr.opers p, isChiPeng o = false) ∧ g.doneGrabMgr.opers p = []

section Frames

variable (rule : RoomRuleMap) {s : Game} {t : Seat}

/-- The offers to the seat with the new tile, or an error in their place, change nothing else,
except that its floating flower has come down. -/
lemma checkMyOper_frame (hn : (s.playerList t).hasNewCard = true) (checkCanGang : Bool) :
    ∃ grab map xiangGong piaoHuaPos, (checkMyOper rule s t checkCanGang).state = { s with
        playerGrabMgr := grab
        playerCanDoMap := map
        xiangGong := xiangGong
        piaoHuaPos := piaoHuaPos } ∧
      TurnOnly grab ∧ (piaoHuaPos = none ∨ piaoHuaPos = s.piaoHuaPos) := by
  rcases checkMyOper_cases rule hn checkCanGang with ⟨herr, -⟩ | ⟨-, hok⟩
  · rw [herr]
    refine ⟨s.playerGrabMgr.clear, _, s.xiangGong, s.piaoHuaPos, rfl, fun p => ?_, Or.inr rfl⟩
    simp [PlayerGrabMgr.clear]
  · rw [hok]
    set bHu := (s.playerList t).canSelfHu [s.baiDa] && selfHu rule s t checkCanGang
    obtain ⟨xiangGong, hframe⟩ := offerTurn_frame (opened s) t bHu
    refine ⟨_, _, xiangGong, _, hframe, fun p => ⟨fun o ho => ?_, ?_⟩, ?_⟩
    · have hopers : ((s.playerGrabMgr.clear.addCanDoItem t
          ((myOffers (opened s) t bHu).map Prod.fst)).setPos t).canGrabMgr.opers p =
          if p = t then sortOpers ((myOffers (opened s) t bHu).map Prod.fst) else [] := by
        simp [PlayerGrabMgr.setPos, PlayerGrabMgr.addCanDoItem, PlayerGrabMgr.clear]
      change o ∈ ((s.playerGrabMgr.clear.addCanDoItem t
        ((myOffers (opened s) t bHu).map Prod.fst)).setPos t).canGrabMgr.opers p at ho
      rw [hopers] at ho
      split_ifs at ho
      · rcases (mem_myOffers (PlayerGrabMgr.Round.mem_sortOpers.mp ho)).2 with
          rfl | rfl | rfl | rfl | ⟨rfl, -⟩ <;> rfl
      · simp at ho
    · show s.playerGrabMgr.clear.doneGrabMgr.opers p = []
      simp [PlayerGrabMgr.clear]
    · show (if s.piaoHuaPos = some t then none else s.piaoHuaPos) = none ∨
        (if s.piaoHuaPos = some t then none else s.piaoHuaPos) = s.piaoHuaPos
      split_ifs
      · exact Or.inl rfl
      · exact Or.inr rfl

/-- A draw changes the wall, the tile and the history of its seat, and the offers; or it ends the
round. -/
lemma giveNewCard_frame (h : Sound s) :
    (giveNewCard rule s t).state = s.gotoNextState .liuJu ∨
    ∃ c wall need cancel grab map xiangGong piaoHuaPos, (giveNewCard rule s t).state = { s with
        mjWall := wall
        testPlayerNeedCard := need
        mjCancelMgr := cancel
        playerList := Function.update s.playerList t
          { s.playerList t with justDoOper := .newCard, newCard := c }
        opHistoryList := Function.update s.opHistoryList t (s.opHistoryList t ++ [.newCard])
        playerGrabMgr := grab
        playerCanDoMap := map
        xiangGong := xiangGong
        piaoHuaPos := piaoHuaPos } ∧
      TurnOnly grab ∧ (piaoHuaPos = none ∨ piaoHuaPos = s.piaoHuaPos) := by
  cases htake : takeCard s.toTable t with
  | none =>
    left
    simp only [giveNewCard, htake]
    rfl
  | some r =>
    right
    obtain ⟨c, table⟩ := r
    rw [giveNewCard_eq rule htake]
    obtain ⟨hv, wall, need, grab₀, cancel, hdrawn, -, -⟩ := drawn_frame h htake
    have hn : ((drawn s table t c).playerList t).hasNewCard = true := by
      rw [hdrawn]
      show (Function.update s.playerList t _ t).hasNewCard = true
      rw [Function.update_self]
      exact MJPlayer.hasNewCard_of_isValid hv
    obtain ⟨grab, map, xiangGong, piaoHuaPos, hstate, hturn, hpiao⟩ :=
      checkMyOper_frame rule hn false
    rw [hstate, hdrawn]
    refine ⟨c, wall, need, cancel, grab, map, xiangGong, piaoHuaPos, rfl, hturn, ?_⟩
    rw [hdrawn] at hpiao
    exact hpiao

end Frames

/-! ### The phases after an operation -/

/-- The handler draws no tile, and the round goes on. -/
structure NoDraw (s : Game) (r : Handled) : Prop where
  going : Going r.state
  fault : ∀ f s', r = .error (f, s') → f ≠ .describe
  drawn : ∀ p, (r.state.opHistoryList p).count .newCard = (s.opHistoryList p).count .newCard

/-- What a handler does when nobody declares a win: at its end a seat draws between two turns, or
nobody does. -/
def Handles (rule : RoomRuleMap) (s : Game) (r : Handled) : Prop :=
  (∃ s₁ t, Idle s₁ t ∧ r = giveNewCard rule s₁ t) ∨ NoDraw s r

section Kept

variable (rule : RoomRuleMap) {s : Game} {p q t : Seat} {b c : ℕ} {o : Oper} {player : MJPlayer}

/-- What is looked at between two turns. -/
lemma Idle.of_same {s' : Game} (h : Idle s t) (hgo : s'.endArgs = s.endArgs)
    (hplayers : s'.playerList = s.playerList) (hwall : s'.mjWall = s.mjWall)
    (htest : s'.testPlayerNeedCard = s.testPlayerNeedCard)
    (hq : s'.isQiangGanging = s.isQiangGanging) (hhist : s'.opHistoryList = s.opHistoryList) :
    Idle s' t := by
  refine ⟨h.toSound.of_same hgo hplayers hwall htest, hplayers ▸ h.newCard, hq.trans h.quiet,
    fun p hp => ?_⟩
  unfold Rested
  rw [hhist]
  exact h.rested p hp

/-- The player of a seat is replaced by another that fits. -/
lemma Sound.used (h : Sound s) (hp : player.Held) : Sound (used s p player) := by
  refine ⟨h.going, fun q => ?_, h.wall, h.asked⟩
  show (Function.update s.playerList p player q).Held
  rw [Function.update_apply]
  split_ifs
  · exact hp
  · exact h.held q

lemma rested_used (hq : q ≠ p) (h : Rested s q) : Rested (used s p player) q := by
  unfold Rested
  show Function.update s.opHistoryList p _ q = [] ∨
    (Function.update s.opHistoryList p _ q).getLast? = some .play
  rw [Function.update_of_ne hq]
  exact h

/-- A seat that has used its tiles without getting a new one is to draw. -/
lemma used_idle (hs : Sound s) (hp : player.Held) (hn : player.hasNewCard = false)
    (hnew : ∀ q, q ≠ p → (s.playerList q).hasNewCard = false) (hq : s.isQiangGanging = false)
    (hrest : ∀ q, q ≠ p → Rested s q) : Idle (used s p player) p := by
  refine ⟨hs.used hp, fun q => ?_, hq, fun q hqp => rested_used hqp (hrest q hqp)⟩
  show (Function.update s.playerList p player q).hasNewCard = false
  rw [Function.update_apply]
  split_ifs with h
  · exact hn
  · exact hnew q h

/-- A seat at rest does not win by a tile drawn after a kong. -/
lemma isPiaoGang_of_rested {s' : Game} {o : Oper} (h : Rested s p)
    (hhist : s'.opHistoryList p = s.opHistoryList p ++ [o]) : isPiaoGang s' p = false := by
  have hprev : ((prevOper s' p).any fun oper => oper ∈ [.mg, .ag, .mxg, .buHua]) = false := by
    rw [prevOper, hhist, List.dropLast_concat]
    rcases h with h | h <;> rw [h]
    · rfl
    · rfl
  rw [isPiaoGang, isGangKai, hprev, Bool.false_and, Bool.and_false]

lemma noDraw_self (h : Going s) : NoDraw s (.ok s) := by
  refine ⟨h, fun f s' heq => ?_, fun _ => rfl⟩
  cases heq

lemma noDraw_missing (h : Going s) : NoDraw s (.error (.missing, s)) := by
  refine ⟨h, fun f s' heq => ?_, fun _ => rfl⟩
  cases heq
  decide

lemma Handles.kept {r : Handled} (h : Handles rule s r) : Kept r := by
  rcases h with ⟨s₁, t, hidle, rfl⟩ | h
  · exact giveNewCard_kept rule hidle
  · cases r with
    | ok s' => exact Or.inl h.going
    | error e => exact ⟨h.going, fun hf => absurd hf (h.fault _ _ rfl)⟩

/-- What a seat has done other than to draw. -/
lemma count_used (hjust : player.justDoOper ≠ .newCard) (q : Seat) :
    ((used s p player).opHistoryList q).count .newCard = (s.opHistoryList q).count .newCard := by
  show (Function.update s.opHistoryList p _ q).count .newCard = _
  rw [Function.update_apply]
  split_ifs with hq
  · rw [List.count_append, List.count_singleton, hq]
    simp [hjust]
  · rfl

/-- A seat that has claimed a tile for a peng or a run gets the turn. -/
lemma claimed_noDraw (h : Going s) (hc : Claim s t b) (hq : s.isQiangGanging = false)
    (hp : player.Held) (hn : player.hasNewCard = true) (hpile : player.pileList ≠ [])
    (hjust : player.justDoOper ≠ .newCard) (l river : List ℕ) :
    NoDraw s (checkMyOper rule ((used (forbid s p l) p player).setRiver t river) p true) := by
  have hsound : Sound (used s p player) := h.toSound.used hp
  have hplayer : (Function.update s.playerList p player) p = player := Function.update_self _ _ _
  have hnew : ∀ q, (Function.update s.playerList p player q).hasNewCard = true ↔ q = p := by
    intro q
    rw [Function.update_apply]
    split_ifs with hqp
    · simp [hqp, hn]
    · simp [hqp, hc.newCard q]
  have hnot : isPiaoGang ((used (forbid s p l) p player).setRiver t river) p = false :=
    isPiaoGang_of_rested (hc.rested p (Or.inl hq)) (Function.update_self _ _ _)
  obtain ⟨grab, map, xiangGong, piaoHuaPos, hstate, -⟩ := checkMyOper_frame rule
    (s := (used (forbid s p l) p player).setRiver t river) ((hnew p).mpr rfl) true
  have hcount : ∀ q, ((checkMyOper rule ((used (forbid s p l) p player).setRiver t river) p
      true).state.opHistoryList q).count .newCard = (s.opHistoryList q).count .newCard := by
    intro q
    rw [hstate]
    exact count_used (s := forbid s p l) hjust q
  rcases checkMyOper_turn rule (s := (used (forbid s p l) p player).setRiver t river)
      (hsound.of_same rfl rfl rfl rfl) hq hnew
      (fun q hqp => rested_used hqp (hc.rested q (Or.inl hq))) true
      (Or.inr ⟨rfl, show (Function.update s.playerList p player p).pileList ≠ [] by
        rw [hplayer]; exact hpile⟩) with ⟨-, -, hgang⟩ | ⟨-, s', hok, hgo, -⟩
  · rw [hnot] at hgang
    exact absurd hgang (by decide)
  · rw [hok] at hcount ⊢
    refine ⟨hgo, fun f s'' herr => ?_, hcount⟩
    cases herr

lemma doPeng_handles (h : Going s) (hc : Claim s t b) (htake : MayTake s t b p .peng) {r : Handled}
    (hr : doPeng rule s p b t = some r) : Handles rule s r := by
  obtain ⟨player, hdo, hheld, hn, hjust, hpile⟩ := (h.held p).doPeng t htake.canPeng hc.valid
  rw [doPeng_eq rule (by rw [hdo]), hdo, Option.some.injEq] at hr
  subst hr
  have hnone := claimed_noDraw rule h hc htake.1 (p := p) hheld hn (by simp [hpile])
    (by rw [hjust]; decide) [] (MJRiver.popCard (s.riverCardList t))
  have hforbid : forbid s p [] = s := by
    simp only [forbid, List.append_nil, Function.update_eq_self]
  rw [hforbid] at hnone
  exact Or.inr hnone

lemma doChi_handles (h : Going s) (hc : Claim s t b) (htake : MayTake s t b p o)
    (ho : o = .lChi ∨ o = .mChi ∨ o = .rChi) : Handles rule s (doChi rule s p o b t) := by
  right
  by_cases hr : ((s.playerList p).doChi b o t).1 = true
  · obtain ⟨-, hheld, hn, hjust, c₁, c₂, hpile⟩ := (h.held p).doChi hr
    rw [doChi_eq rule hr]
    refine claimed_noDraw rule h hc htake.1 hheld hn (by simp [hpile]) ?_ _ _
    rw [hjust]
    rcases ho with rfl | rfl | rfl <;> decide
  · rw [doChi, if_neg hr]
    exact noDraw_self h

lemma doGang_handles (h : Going s) (hc : Claim s t b) (htake : MayTake s t b p .mg) {r : Handled}
    (hr : doGang rule s p b t = some r) : Handles rule s r := by
  obtain ⟨player, hdo, hheld, hn, -, -⟩ := (h.held p).doGang t htake.canGang hc.valid
  obtain ⟨gangPiao, heq⟩ := doGang_eq rule (s := s) (p := p) (b := b) (t := t) (by rw [hdo])
  rw [heq, hdo, Option.some.injEq] at hr
  subst hr
  have hnew : player.hasNewCard = false := by
    have hold := hc.newCard p
    unfold MJPlayer.hasNewCard at hold ⊢
    rw [hn]
    exact hold
  have hidle : Idle (used s p player) p := used_idle h.toSound hheld hnew
    (fun q _ => hc.newCard q) htake.1 fun q _ => hc.rested q (Or.inl htake.1)
  refine Or.inl ⟨_, p, ?_, rfl⟩
  exact hidle.of_same rfl rfl rfl rfl rfl rfl

lemma Turn.not_new (ht : Turn s t) (hq : q ≠ t) : (s.playerList q).hasNewCard = false := by
  rw [← Bool.not_eq_true]
  exact fun h => hq ((ht.newCard q).mp h)

lemma doAnGang_handles (h : Going s) (ht : Turn s t) : Handles rule s (doAnGang rule s t c t) := by
  by_cases hr : ((s.playerList t).doAnGang c t).1 = true
  · obtain ⟨hheld, hn, -, -⟩ := (h.held t).doAnGang hr
    obtain ⟨gangPiao, heq⟩ := doAnGang_eq rule hr
    have hidle := used_idle h.toSound hheld hn (fun q => ht.not_new) ht.quiet ht.rested
    refine Or.inl ⟨_, t, ?_, heq⟩
    exact hidle.of_same rfl rfl rfl rfl rfl rfl
  · rw [doAnGang, if_neg hr]
    exact Or.inr (noDraw_self h)

variable {bGrabGang : Bool} {l : List Seat} {r : Bool × Table}

/-- Nothing but the offers changes while they are made to the other seats. -/
lemma Idle.offered (h : Idle s t)
    (hoff : Offered (claims s p b bGrabGang) s.piaoHuaPos l (false, cleared s p) r) :
    Idle { s with toTable := r.2 } t := by
  rw [hoff.frame]
  exact h.of_same rfl rfl rfl rfl rfl rfl

/-- The tile of a seat is offered to the others. -/
lemma Idle.claimed (h : Idle s q) (hv : MJCard.isValid b = true) (hl : ∀ p ∈ l, p ≠ t)
    (hnodup : l.Nodup)
    (hoff : Offered (claims s t b bGrabGang) s.piaoHuaPos l (false, cleared s t) r)
    (hrest : ∀ p, bGrabGang = false ∨ p ≠ t → Rested s p) (info : Option Seat)
    (hrob : bGrabGang = true → info = some t) :
    Going { s with toTable := { r.2 with isQiangGanging := bGrabGang, qiangGangInfo := info } } := by
  obtain ⟨hvalid, hclaim⟩ := offered_claim h.newCard hv hl hnodup hoff info hrob hrest rfl
  exact ⟨(h.offered hoff).toSound.of_same rfl rfl rfl rfl, hvalid, Or.inr (Or.inl ⟨t, b, hclaim⟩)⟩

/-- An added kong that no seat may look at: those before have passed on a win. -/
lemma Idle.stuck (h : Idle s q) (hb : Zi7 < b) (hstops : ∀ p ∈ l, canHuStops s b p = false)
    (hoff : Offered (claims s t b true) s.piaoHuaPos l (false, cleared s t) r) :
    Going { s with toTable := r.2 } := by
  have hnone : ∀ p ∈ l, claims s t b true p = [] := by
    intro p hp
    have hstop := hstops p hp
    simp only [canHuStops, h.newCard p, Bool.not_false, Bool.and_true, hb, decide_true] at hstop
    simp [claims, otherHu, hstop]
  refine ⟨(h.offered hoff).toSound, hoff.valid (fun _ _ => mem_operLevel_of_claims)
    PlayerGrabMgr.valid_clear.setPos, Or.inr (Or.inr fun p => ?_)⟩
  show r.2.playerGrabMgr.canGrabMgr.opers p = []
  rw [hoff.opers, if_neg ?_]
  · simp [cleared, PlayerGrabMgr.setPos, PlayerGrabMgr.clear]
  · rintro ⟨hp, hlen⟩
    rw [operList_of_claims_nil (hnone p hp)] at hlen
    simp at hlen

lemma doMXGang_handles (h : Going s) (ht : Turn s t) : Handles rule s (doMXGang rule s t c) := by
  by_cases hr : ((s.playerList t).doMXGang c).1 = true
  swap
  · rw [doMXGang, if_neg hr]
    exact Or.inr (noDraw_self h)
  obtain ⟨hv, hheld, hn, hjust, -⟩ := (h.held t).doMXGang hr
  obtain ⟨gangPiao, hcases⟩ := doMXGang_cases rule hr
  have hidle : Idle (added s t c gangPiao) t :=
    (used_idle h.toSound hheld hn (fun q => ht.not_new) ht.quiet ht.rested).of_same rfl rfl rfl
      rfl rfl rfl
  have hcount : ∀ q, ((added s t c gangPiao).opHistoryList q).count .newCard =
      (s.opHistoryList q).count .newCard := by
    refine count_used (s := s) ?_
    rcases hjust with hj | hj <;> rw [hj] <;> decide
  rcases hcases with heq | ⟨l, r, hl, hnodup, hoff, ⟨heq, hb, hstops⟩ | heq | heq⟩
  · exact Or.inl ⟨_, t, hidle, heq⟩
  · rw [heq]
    refine Or.inr ⟨hidle.stuck hb hstops hoff, fun f s' herr => ?_, hcount⟩
    cases herr
    decide
  · rw [heq]
    refine Or.inr ⟨hidle.claimed hv hl hnodup hoff
      (fun p hp => hidle.rested p (hp.resolve_left (by decide))) (some t) fun _ => rfl,
      fun f s' herr => ?_, hcount⟩
    cases herr
  · exact Or.inl ⟨_, t, hidle.offered hoff, heq⟩

/-- The state in which a discarded tile is offered. -/
lemma discard_idle (h : Going s) (ht : Turn s t) (hr : ((s.playerList t).doPlayCard b).1 = true) :
    Idle (discard s t b ((s.playerList t).doPlayCard b).2) t ∧
      ∀ p, Rested (discard s t b ((s.playerList t).doPlayCard b).2) p := by
  obtain ⟨-, -, -, hheld, hn, hjust, -⟩ := (h.held t).doPlayCard hr
  obtain ⟨gangPiao, grab, map, n, hframe⟩ :=
    discard_frame s t b ((s.playerList t).doPlayCard b).2
  have hidle : Idle (discard s t b ((s.playerList t).doPlayCard b).2) t := by
    rw [hframe]
    exact (used_idle h.toSound hheld hn (fun q => ht.not_new) ht.quiet ht.rested).of_same
      rfl rfl rfl rfl rfl rfl
  refine ⟨hidle, fun p => ?_⟩
  by_cases hp : p = t
  · right
    rw [hframe, hp]
    show (Function.update s.opHistoryList t _ t).getLast? = some .play
    rw [Function.update_self, List.getLast?_concat, hjust]
  · exact hidle.rested p hp

lemma onPlayCard_of_turn (ht : Turn s t) (hr : ((s.playerList t).doPlayCard b).1 = true) :
    onPlayCard rule s t (some b) =
      match checkOtherOper (discard s t b ((s.playerList t).doPlayCard b).2) t b false with
      | .error e => .error e
      | .ok (true, s) => .ok s
      | .ok (false, s) => giveNewCard rule s (nextPlayerPos t) := by
  unfold onPlayCard
  dsimp only
  rw [PlayerGrabMgr.hasOper_iff.mpr ht.play, hr]
  rfl

/-- A discard is offered to the others, or the next seat draws. -/
lemma onPlayCard_cases (ht : Turn s t) (hr : ((s.playerList t).doPlayCard b).1 = true) :
    ∃ l r, (∀ p ∈ l, p ≠ t) ∧ l.Nodup ∧
      Offered (claims (discard s t b ((s.playerList t).doPlayCard b).2) t b false)
        (discard s t b ((s.playerList t).doPlayCard b).2).piaoHuaPos l
        (false, cleared (discard s t b ((s.playerList t).doPlayCard b).2) t) r ∧
      ((onPlayCard rule s t (some b) = .error (.countMap,
          { discard s t b ((s.playerList t).doPlayCard b).2 with toTable := r.2 }) ∧ Zi7 < b) ∨
        (onPlayCard rule s t (some b) = .ok
          { discard s t b ((s.playerList t).doPlayCard b).2 with toTable := r.2 } ∧
          r.1 = true ∧ ∀ p, p ≠ t → p ∈ l) ∨
        (onPlayCard rule s t (some b) = giveNewCard rule
          { discard s t b ((s.playerList t).doPlayCard b).2 with toTable := r.2 } (t + 1) ∧
          r.1 = false ∧ ∀ p, p ≠ t → p ∈ l)) := by
  set d := discard s t b ((s.playerList t).doPlayCard b).2 with hd
  obtain ⟨l, r, hl, hnodup, hoff, hcheck⟩ := checkOtherOper_cases d t b false
  refine ⟨l, r, hl, hnodup, hoff, ?_⟩
  rw [onPlayCard_of_turn rule ht hr]
  rcases hcheck with ⟨heq', hb, -⟩ | ⟨heq', hall⟩ <;> rw [heq']
  · exact Or.inl ⟨rfl, hb⟩
  · right
    cases r.1 with
    | true => exact Or.inl ⟨rfl, rfl, hall⟩
    | false => exact Or.inr ⟨rfl, rfl, hall⟩

lemma onPlayCard_handles (h : Going s) (ht : Turn s t)
    (hr : ((s.playerList t).doPlayCard b).1 = true) :
    Handles rule s (onPlayCard rule s t (some b)) := by
  obtain ⟨-, -, hv, -, -, hjust, -⟩ := (h.held t).doPlayCard hr
  obtain ⟨hidle, hrest⟩ := discard_idle h ht hr
  obtain ⟨l, r, hl, hnodup, hoff, hcases⟩ := onPlayCard_cases rule ht hr
  obtain ⟨gangPiao, grab, map, n, hframe⟩ := discard_frame s t b ((s.playerList t).doPlayCard b).2
  set d := discard s t b ((s.playerList t).doPlayCard b).2 with hd
  have hcount : ∀ q, (d.opHistoryList q).count .newCard = (s.opHistoryList q).count .newCard := by
    intro q
    rw [hframe]
    refine count_used (s := s) ?_ q
    rw [hjust]
    decide
  have hgoing : Going { d with toTable := r.2 } := by
    have hq : r.2.isQiangGanging = false := (hidle.offered hoff).quiet
    have heq : r.2 = { r.2 with isQiangGanging := false, qiangGangInfo := r.2.qiangGangInfo } := by
      rw [← hq]
    rw [heq]
    exact hidle.claimed hv hl hnodup hoff (fun p _ => hrest p) _ fun h => absurd h (by decide)
  rcases hcases with ⟨heq, -⟩ | ⟨heq, -⟩ | ⟨heq, -⟩
  · rw [heq]
    refine Or.inr ⟨hgoing, fun f s' herr => ?_, hcount⟩
    cases herr
    decide
  · rw [heq]
    refine Or.inr ⟨hgoing, fun f s' herr => ?_, hcount⟩
    cases herr
  · have hnext : Idle d (t + 1) := ⟨hidle.toSound, hidle.newCard, hidle.quiet, fun p _ => hrest p⟩
    exact Or.inl ⟨_, t + 1, hnext.offered hoff, heq⟩

/-- What is carried out ends with a draw between two turns, or draws nothing. -/
lemma Decided.handles {r : Handled} (h : Going s) (hd : Decided rule s r) : Handles rule s r := by
  cases hd with
  | stay => exact Or.inr (noDraw_self h)
  | stop => exact Or.inr (noDraw_missing h)
  | pass hc hq =>
    exact Or.inl ⟨_, _, ⟨h.toSound, hc.newCard, hq, fun p _ => hc.rested p (Or.inl hq)⟩, rfl⟩
  | kong hc hq =>
    refine Or.inl ⟨_, _, ?_, rfl⟩
    exact ⟨h.toSound.of_same rfl rfl rfl rfl, hc.newCard, rfl,
      fun p hp => hc.rested p (Or.inr hp)⟩
  | peng hc htake _ heq => exact doPeng_handles rule h hc htake heq
  | gang hc htake heq => exact doGang_handles rule h hc htake heq
  | chi hc htake ho _ => exact doChi_handles rule h hc htake ho
  | anGang c ht => exact doAnGang_handles rule h ht
  | mxGang c ht => exact doMXGang_handles rule h ht

/-- A message ends with a draw between two turns, or draws nothing, or declares a win. -/
theorem Outcome.handles {oper : Option Oper} {card : Option ℕ} {r : Handled} (h : Going s)
    (ho : Outcome rule s p oper card r) :
    Handles rule s r ∨ ∃ c, oper = some .hu ∧ card = some c ∧ Chooses s p .hu c ∧
      r = .ok (doHu (afterChoice s p .hu c s.mjCancelMgr) p c) := by
  cases ho with
  | same => exact Or.inl (Or.inr (noDraw_self h))
  | stop => exact Or.inl (Or.inr (noDraw_missing h))
  | @ask card hcard =>
    have hsound : Sound { s with
        testPlayerNeedCard := Function.update s.testPlayerNeedCard p card } := by
      refine ⟨h.going, h.held, h.wall, fun q c hc => ?_⟩
      change Function.update s.testPlayerNeedCard p card q = some c at hc
      rw [Function.update_apply] at hc
      split_ifs at hc
      · exact hcard c hc
      · exact h.asked q c hc
    refine Or.inl (Or.inr ⟨⟨hsound, h.valid, ?_⟩, fun f s' herr => ?_, fun _ => rfl⟩)
    · rcases h.phase with ⟨t, ht⟩ | ⟨t, b, hc⟩ | hs
      · exact Or.inl ⟨t, ⟨ht.pos, ht.newCard, ht.quiet, ht.play, ht.opers, ht.chosen, ht.free,
          ht.rested⟩⟩
      · exact Or.inr (Or.inl ⟨t, b, ⟨hc.pos, hc.valid, hc.newCard, hc.multi, hc.opers, hc.tile,
          hc.chosen, hc.free, hc.rested, hc.robbed⟩⟩)
      · exact Or.inr (Or.inr hs)
    · cases herr
  | wait hch hhu =>
    refine Or.inl (Or.inr ⟨h.choose hch hhu _, fun f s' herr => ?_, fun _ => rfl⟩)
    cases herr
  | @decide o card c m r hch hhu hd =>
    left
    rcases hd.handles rule (h.choose hch hhu m) with hdraw | ⟨hgo, hfault, hcount⟩
    · exact Or.inl hdraw
    · exact Or.inr ⟨hgo, hfault, hcount⟩
  | declare hch => exact Or.inr ⟨_, rfl, rfl, hch, rfl⟩
  | play ht hr => exact Or.inl (onPlayCard_handles rule h ht hr)

/-- A message leaves the round in one of its phases, or drawn, or declares a win. -/
theorem Outcome.kept {oper : Option Oper} {card : Option ℕ} {r : Handled} (h : Going s)
    (ho : Outcome rule s p oper card r) :
    Kept r ∨ ∃ c, oper = some .hu ∧ card = some c ∧ Chooses s p .hu c ∧
      r = .ok (doHu (afterChoice s p .hu c s.mjCancelMgr) p c) :=
  (ho.handles rule h).imp_left fun hh => hh.kept rule

end Kept

/-! ### Runs -/

/-- The state after a seat has declared a win. -/
def Won (s : Game) : Prop :=
  ∃ s₀ p c, Going s₀ ∧ Chooses s₀ p .hu c ∧ s = doHu (afterChoice s₀ p .hu c s₀.mjCancelMgr) p c

section Runs

variable {rule : RoomRuleMap} {s s' : Game}

lemma Kept.state {r : Handled} (h : Kept r) : Going r.state ∨ r.state.endArgs = some .liuJu := by
  cases r with
  | ok s => exact h
  | error e => exact Or.inl h.1

lemma isValid_of_mem_wallTiles : ∀ c ∈ wallTiles, MJCard.isValid c = true := by decide +kernel

/-- The hands that are dealt fit together. -/
lemma dealt_sound (d : Deal) : Sound (dealt d) ∧
    (∀ p, ((dealt d).playerList p).hasNewCard = true ↔ p = d.banker) ∧
    ((dealt d).playerList d.banker).justDoOper = .newCard := by
  have hlen : 53 ≤ d.wall.length := by
    rw [d.perm.length_eq]
    decide +kernel
  have hv : ∀ c ∈ d.wall, MJCard.isValid c = true := fun c hc =>
    isValid_of_mem_wallTiles c (d.perm.subset hc)
  obtain ⟨htiles, hsound, hnew, hjust, -, -⟩ := dealHandCards_spec d.banker hlen hv
  refine ⟨⟨rfl, fun p => ⟨(hsound p).size, fun c hc => ?_, fun hn => ?_⟩, fun c hc => ?_,
    fun p c hc => ?_⟩, hnew, hjust⟩
  · apply (hsound p).valid
    simp only [MJPlayer.tiles, Multiset.mem_add]
    exact Or.inl (Or.inl (Or.inr hc))
  · apply (hsound p).valid
    simp only [MJPlayer.tiles, Multiset.mem_add]
    refine Or.inl (Or.inl (Or.inl ?_))
    change ((dealHandCards d.wall d.banker).1 p).hasNewCard = true at hn
    have hne : ((dealHandCards d.wall d.banker).1 p).newCard ≠ kCardNull := by
      simpa [MJPlayer.hasNewCard] using hn
    rw [MJPlayer.newTiles, if_neg hne]
    exact Multiset.mem_singleton_self _
  · apply hv
    rw [← Multiset.mem_coe, ← htiles, Multiset.mem_add]
    exact Or.inr (List.mem_of_mem_erase hc)
  · obtain ⟨b, hb⟩ := d.asked p c hc
    exact isValid_fromOld2NowCardByteMap hb

lemma onEntry_kept (d : Deal) : Kept (onEntry rule d) := by
  obtain ⟨hsound, hnew, hjust⟩ := dealt_sound d
  refine checkMyOper_kept rule hsound rfl hnew (fun p _ => Or.inl rfl) false (Or.inl hjust) ?_
  intro hgang
  have hnot : isPiaoGang (dealt d) d.banker = false := rfl
  rw [hnot] at hgang
  exact absurd hgang (by decide)

/-- A step of a round that goes on. -/
lemma step_outcome {e : Seat × ClientMsg} (h : Going s) (hstep : step rule s e = some s') :
    ∃ r, Outcome rule s e.1 (Oper.ofCode e.2.operation) (fromOld2NowCardByteMap e.2.card_bytes) r ∧
      s' = r.state := by
  rw [step, h.going] at hstep
  simp only [Option.isSome_none, Bool.false_eq_true, if_false, Option.some.injEq] at hstep
  exact ⟨_, onClientMsg_outcome rule h e.1 e.2, hstep.symm⟩

/-- A message plays a tile that the seat holds. -/
lemma Going.exists_play {p : Seat} {b : ℕ} (rule : RoomRuleMap) (h : Going s)
    (hn : (s.playerList p).hasNewCard = true)
    (hmem : b ∈ (s.playerList p).newCard :: (s.playerList p).cardList) :
    ∃ x, step rule s (p, ⟨10, x⟩) = some (onPlayCard rule s p (some b)).state := by
  obtain ⟨x, hx⟩ := exists_fromOld2NowCardByteMap ((h.held p).isValid hn hmem)
  have hcode : Oper.ofCode 10 = some .play := rfl
  refine ⟨x, ?_⟩
  rw [step, h.going]
  simp [onClientMsg, hcode, hx]

/-- A step leaves the round in one of its phases, or drawn, or won by a declaration. -/
lemma Going.step {e : Seat × ClientMsg} (h : Going s) (hstep : step rule s e = some s') :
    Going s' ∨ s'.endArgs = some .liuJu ∨ Won s' := by
  obtain ⟨r, hout, rfl⟩ := step_outcome h hstep
  rcases hout.kept rule h with hkept | ⟨c, -, -, hch, rfl⟩
  · exact hkept.state.imp_right Or.inl
  · exact Or.inr (Or.inr ⟨s, e.1, c, h, hch, rfl⟩)

/-- A round goes on in one of its phases, until it is drawn or won by a declaration. -/
theorem going_of_reaches {ok : Game → Seat × ClientMsg → Prop} {d : Deal}
    (h : Runs.Reaches (step rule) ok (onEntry rule d).state s) :
    Going s ∨ s.endArgs = some .liuJu ∨ Won s := by
  refine h.invariant (I := fun s => Going s ∨ s.endArgs = some .liuJu ∨ Won s) ?_ ?_
  · exact (onEntry_kept d).state.imp_right Or.inl
  · intro s e s' hs _ hstep
    rcases hs with hgo | hdrawn | ⟨s₀, p, c, -, -, rfl⟩
    · exact hgo.step hstep
    · simp [Tongxiang.step, hdrawn] at hstep
    · simp [Tongxiang.step, doHu, Game.gotoNextState, Table.gotoNextState] at hstep

/-- A round that is left by a step goes on before it. -/
lemma going_of_step {ok : Game → Seat × ClientMsg → Prop} {d : Deal} {e : Seat × ClientMsg}
    (h : Runs.Reaches (step rule) ok (onEntry rule d).state s) (hstep : step rule s e = some s') :
    Going s := by
  rcases going_of_reaches h with hgo | hdrawn | ⟨s₀, p, c, -, -, rfl⟩
  · exact hgo
  · simp [step, hdrawn] at hstep
  · simp [step, doHu, Game.gotoNextState, Table.gotoNextState] at hstep

end Runs

end Tongxiang
