import JsmjServer.Tongxiang.Moves

set_option relaxedAutoImplicit false
set_option autoImplicit false

/-!
# The round of draws after a wild tile is discarded

When a seat discards the wild tile, the others are to draw and discard only, until `piaoHuaPos` is
reset. The peng and the runs are deleted from the list of offers while the list is being traversed,
and of each two of them that follow one another one is skipped.

## Main definitions

* `Tongxiang.takes` — the peng and the runs a seat might claim a tile for.
* `Tongxiang.Banned` — the others are neither offered nor may be granted a peng or a run.
* `Tongxiang.OneTake` — each of them might claim the tile in one way at most.

## Main results

* `Tongxiang.banned_iff_oneTake` — the round of draws is kept exactly when there is no second claim.
* `Tongxiang.second_claim_kept` — the second claim is offered and carried out.
-/

namespace Tongxiang

open Mahjong

/-! ### Claims that are deleted -/

/-- The peng and the runs a seat may claim the tile for. -/
def takes (s : Game) (t : Seat) (b : ℕ) (q : Seat) : List Oper :=
  (if !s.mjCancelMgr.isCancelOper q .peng b && (s.playerList q).canPengWithDa b [s.baiDa] then
    [.peng] else []) ++
  (if q == nextPlayerPos t && s.lastPlayCard q != some b then
    (s.playerList q).getCanChiTypeWithDa b [s.baiDa] else [])

/-- The seat whose flower floats when the tile is offered. -/
def floats (s : Game) (t : Seat) (b : ℕ) : Option Seat :=
  if b = s.baiDa ∧ s.piaoHuaPos = none then some t else s.piaoHuaPos

/-- While a flower floats, no other seat might claim the tile in two ways. -/
def OneTake (s : Game) (t : Seat) (b : ℕ) : Prop :=
  ∀ p, floats s t b = some p → ∀ q, q ≠ t → q ≠ p → (takes s t b q).length ≤ 1

instance (s : Game) (t : Seat) (b : ℕ) : Decidable (OneTake s t b) := by
  unfold OneTake
  infer_instance

/-- The message plays a tile the seat has, in its turn. -/
def plays (s : Game) (e : Seat × ClientMsg) (b : ℕ) : Prop :=
  Oper.ofCode e.2.operation = some .play ∧ fromOld2NowCardByteMap e.2.card_bytes = some b ∧
    s.playerGrabMgr.hasOper e.1 .play = true ∧ ((s.playerList e.1).doPlayCard b).1 = true

instance (s : Game) (e : Seat × ClientMsg) (b : ℕ) : Decidable (plays s e b) := by
  unfold plays
  infer_instance

/-- A tile that is played might be claimed in one way at most. -/
def OneTakeMsg (s : Game) (e : Seat × ClientMsg) : Prop :=
  ∀ b ∈ fromOld2NowCardByteMap e.2.card_bytes, plays s e b → OneTake s e.1 b

instance (s : Game) (e : Seat × ClientMsg) : Decidable (OneTakeMsg s e) := by
  unfold OneTakeMsg
  infer_instance

section Filter

variable {l pre rest : List Oper} {x y : Oper}

/-- A single claim is deleted. -/
lemma delChiPeng_eq_false (h : l.countP isChiPeng ≤ 1) :
    ∀ o ∈ delChiPeng l, isChiPeng o = false := by
  fun_induction delChiPeng l with
  | case1 => simp
  | case2 oper hc => simp
  | case3 oper hc => simpa using hc
  | case4 oper next rest hc ih =>
    rw [List.countP_cons_of_pos hc] at h
    have hzero : (next :: rest).countP isChiPeng = 0 := by omega
    rw [List.countP_eq_zero] at hzero
    intro o ho
    have hmem : o ∈ next :: rest := by
      rcases List.mem_cons.mp ho with rfl | ho
      · exact List.mem_cons_self
      · exact List.mem_cons_of_mem _ ((delChiPeng_sublist rest).subset ho)
    simpa using hzero o hmem
  | case5 oper next rest hc ih =>
    rw [List.countP_cons_of_neg hc] at h
    intro o ho
    rcases List.mem_cons.mp ho with rfl | ho
    · simpa using hc
    · exact ih h o ho

/-- The entry after one that is deleted is skipped. -/
lemma mem_delChiPeng_skipped (hpre : ∀ o ∈ pre, isChiPeng o = false) (hx : isChiPeng x = true) :
    y ∈ delChiPeng (pre ++ x :: y :: rest) := by
  induction pre with
  | nil =>
    rw [List.nil_append, delChiPeng, if_pos hx]
    exact List.mem_cons_self
  | cons z pre ih =>
    have hz : ¬isChiPeng z = true := by simp [hpre z List.mem_cons_self]
    have hind := ih fun o ho => hpre o (List.mem_cons_of_mem _ ho)
    obtain ⟨w, l, hl⟩ : ∃ w l, pre ++ x :: y :: rest = w :: l :=
      List.exists_cons_of_ne_nil (by simp)
    rw [List.cons_append, hl, delChiPeng, if_neg hz, ← hl]
    exact List.mem_cons_of_mem _ hind

variable {s : Game} {t p q : Seat} {b : ℕ} {o : Oper}

lemma isChiPeng_takes (h : o ∈ takes s t b q) : isChiPeng o = true := by
  unfold takes at h
  rcases List.mem_append.mp h with h | h
  · split_ifs at h
    · rw [List.mem_singleton.mp h]
      rfl
    · simp at h
  · split_ifs at h
    · rcases isChi_of_mem_getCanChiType (MJPlayer.getCanChiType_of_withDa h) with rfl | rfl | rfl <;>
        rfl
    · simp at h

/-- The claims on a discarded tile: to win and a kong, then the peng and the runs. -/
lemma claims_eq (s : Game) (t : Seat) (b : ℕ) (q : Seat) : ∃ pre,
    (claims s t b false q).map Prod.fst = pre ++ takes s t b q ∧
      ∀ o ∈ pre, isChiPeng o = false := by
  refine ⟨(if otherHu s q b false then [.hu] else []) ++
    (if (s.playerList q).canGangWithDa b [s.baiDa] then [.mg] else []), ?_, fun o ho => ?_⟩
  · simp only [claims, takes, Bool.not_false, Bool.true_and, List.map_append, List.append_assoc]
    congr 1
    · split_ifs <;> rfl
    congr 1
    · split_ifs <;> rfl
    congr 1
    · split_ifs <;> rfl
    · split_ifs
      · rw [List.map_map]
        exact List.map_id _
      · rfl
  · rcases List.mem_append.mp ho with ho | ho
    all_goals
      split_ifs at ho
      · rw [List.mem_singleton.mp ho]
        rfl
      · simp at ho

/-- With one claim to delete, none is offered. -/
lemma operList_of_oneTake (hone : (takes s t b q).length ≤ 1) (hq : q ≠ p) :
    ∀ o ∈ operList (claims s t b false) (some p) q, isChiPeng o = false := by
  obtain ⟨pre, hclaims, hpre⟩ := claims_eq s t b q
  have hcount : ((withCancel (claims s t b false q)).map Prod.fst).countP isChiPeng ≤ 1 := by
    have hzero : pre.countP isChiPeng = 0 := List.countP_eq_zero.mpr fun o ho => by simp [hpre o ho]
    have hcancel : ((if (claims s t b false q).isEmpty then [] else
        [(Oper.cancel, ([] : List ℕ))]).map Prod.fst).countP isChiPeng = 0 := by
      split_ifs <;> rfl
    rw [withCancel, List.map_append, List.countP_append, hclaims, List.countP_append, hzero,
      hcancel]
    have hle : (takes s t b q).countP isChiPeng ≤ (takes s t b q).length := List.countP_le_length
    omega
  have hany : (some p).any (· != q) = true := by simp [hq.symm]
  simp only [operList, hany, if_true]
  exact delChiPeng_eq_false hcount

/-- With two claims to delete, one is offered all the same. -/
lemma operList_of_two_takes (htwo : 1 < (takes s t b q).length) (hq : q ≠ p) :
    1 < (operList (claims s t b false) (some p) q).length ∧
      ∃ o ∈ operList (claims s t b false) (some p) q, isChiPeng o = true := by
  obtain ⟨pre, hclaims, hpre⟩ := claims_eq s t b q
  obtain ⟨x, y, rest, htakes⟩ : ∃ x y rest, takes s t b q = x :: y :: rest := by
    rcases h : takes s t b q with _ | ⟨x, _ | ⟨y, rest⟩⟩
    · simp [h] at htwo
    · simp [h] at htwo
    · exact ⟨x, y, rest, rfl⟩
  have hx : isChiPeng x = true := isChiPeng_takes (by rw [htakes]; simp)
  have hy : isChiPeng y = true := isChiPeng_takes (by rw [htakes]; simp)
  have hne : (claims s t b false q).isEmpty = false := by
    rw [← Bool.not_eq_true, List.isEmpty_iff]
    intro hnil
    rw [hnil, htakes] at hclaims
    simp at hclaims
  have hlist : (withCancel (claims s t b false q)).map Prod.fst =
      pre ++ x :: y :: (rest ++ [.cancel]) := by
    rw [withCancel, hne, List.map_append, hclaims, htakes]
    simp
  have hany : (some p).any (· != q) = true := by simp [hq.symm]
  have heq : operList (claims s t b false) (some p) q =
      delChiPeng (pre ++ x :: y :: (rest ++ [.cancel])) := by
    simp only [operList, hany, if_true, hlist]
  rw [heq]
  have hmem : y ∈ delChiPeng (pre ++ x :: y :: (rest ++ [.cancel])) :=
    mem_delChiPeng_skipped hpre hx
  have hcancel : .cancel ∈ delChiPeng (pre ++ x :: y :: (rest ++ [.cancel])) :=
    mem_delChiPeng (by simp) rfl
  refine ⟨?_, y, hmem, hy⟩
  by_contra hlen
  -- a list of one entry would make the skipped claim the possibility to cancel
  rcases hl : delChiPeng (pre ++ x :: y :: (rest ++ [.cancel])) with _ | ⟨z, _ | ⟨w, l⟩⟩
  · simp [hl] at hmem
  · rw [hl, List.mem_singleton] at hmem hcancel
    rw [hmem, ← hcancel] at hy
    exact absurd hy (by decide)
  · simp [hl] at hlen

end Filter

/-! ### The ban -/

/-- While a flower floats, no other seat is offered a peng or a run, or has chosen one. -/
def Banned (s : Game) : Prop :=
  ∀ p, s.piaoHuaPos = some p → ∀ q, q ≠ p → ∀ o, isChiPeng o = true →
    o ∉ s.playerGrabMgr.canGrabMgr.opers q ∧ o ∉ s.playerGrabMgr.doneGrabMgr.opers q

/-- The number of tiles of others a player has taken for a peng or a run and not made a kong of. -/
def claimed (player : MJPlayer) : ℕ := player.pileList.countP fun pile => isChiPeng pile.operType

section Ban

variable (rule : RoomRuleMap) {s s' : Game} {t p q : Seat} {b c : ℕ} {o : Oper}

lemma banned_of_turnOnly (h : TurnOnly s.playerGrabMgr) : Banned s := by
  intro p _ q _ o ho
  obtain ⟨hcan, hdone⟩ := h q
  refine ⟨fun hmem => ?_, by simp [hdone]⟩
  rw [hcan o hmem] at ho
  exact absurd ho (by decide)

/-- The ban looks at the managers and at the seat whose flower floats, if it still does. -/
lemma Banned.of_same (h : Banned s) (hgrab : s'.playerGrabMgr = s.playerGrabMgr)
    (hpiao : s'.piaoHuaPos = none ∨ s'.piaoHuaPos = s.piaoHuaPos) : Banned s' := by
  intro p hp q hq o ho
  rw [hgrab]
  rcases hpiao with hnone | hsame
  · rw [hnone] at hp
    exact absurd hp (by simp)
  · exact h p (hsame.symm.trans hp) q hq o ho

lemma Banned.used (h : Banned s) (player : MJPlayer) : Banned (used s p player) := by
  refine h.of_same rfl ?_
  show (if s.piaoHuaPos = some p then none else s.piaoHuaPos) = none ∨
    (if s.piaoHuaPos = some p then none else s.piaoHuaPos) = s.piaoHuaPos
  split_ifs
  · exact Or.inl rfl
  · exact Or.inr rfl

/-- A choice of what is offered. -/
lemma Banned.choose (h : Banned s) (hmem : o ∈ s.playerGrabMgr.canGrabMgr.opers q)
    (m : MJCancelMgr) : Banned (afterChoice s q o c m) := by
  intro p hp r hr o' ho'
  obtain ⟨hcan, hdone⟩ := h p hp r hr o' ho'
  refine ⟨fun hmem' => ?_, fun hmem' => ?_⟩
  · exact hcan (PlayerGrabMgr.opers_playerDoGrab_subset (some c) hmem')
  · rcases PlayerGrabMgr.mem_done_playerDoGrab hmem' with hmem' | ⟨rfl, rfl⟩
    · exact hdone hmem'
    · exact hcan hmem

lemma giveNewCard_banned (hs : Sound s) (h : Banned s) : Banned (giveNewCard rule s t).state := by
  rcases giveNewCard_frame rule hs with heq | ⟨_, _, _, _, _, _, _, _, heq, hturn, -⟩ <;> rw [heq]
  · exact h.of_same rfl (Or.inr rfl)
  · exact banned_of_turnOnly hturn

lemma checkMyOper_banned (hn : (s.playerList t).hasNewCard = true) (checkCanGang : Bool) :
    Banned (checkMyOper rule s t checkCanGang).state := by
  obtain ⟨_, _, _, _, heq, hturn, -⟩ := checkMyOper_frame rule hn checkCanGang
  rw [heq]
  exact banned_of_turnOnly hturn

/-- A draw leaves the piles alone. -/
lemma giveNewCard_claimed (hs : Sound s) (q : Seat) :
    claimed ((giveNewCard rule s t).state.playerList q) = claimed (s.playerList q) := by
  rcases giveNewCard_frame rule hs with heq | ⟨c, _, _, _, _, _, _, _, heq, -, -⟩ <;> rw [heq]
  · rfl
  · show claimed (Function.update s.playerList t _ q) = claimed (s.playerList q)
    rw [Function.update_apply]
    split_ifs with hq
    · rw [hq]
      rfl
    · rfl

lemma checkMyOper_claimed (hn : (s.playerList t).hasNewCard = true) (checkCanGang : Bool)
    (q : Seat) :
    claimed ((checkMyOper rule s t checkCanGang).state.playerList q) = claimed (s.playerList q) := by
  obtain ⟨_, _, _, _, heq, -, -⟩ := checkMyOper_frame rule hn checkCanGang
  rw [heq]

lemma claimed_used {player : MJPlayer} (h : q = p → claimed player ≤ claimed (s.playerList p)) :
    claimed ((used s p player).playerList q) ≤ claimed (s.playerList q) := by
  show claimed (Function.update s.playerList p player q) ≤ claimed (s.playerList q)
  rw [Function.update_apply]
  split_ifs with hq
  · rw [hq]
    exact h hq
  · exact le_rfl

/-- What a handler keeps of the ban. -/
def Bans (s s' : Game) : Prop :=
  Banned s' ∧ ∀ p, s.piaoHuaPos = some p → ∀ q, q ≠ p →
    claimed (s'.playerList q) ≤ claimed (s.playerList q)

/-- The next draw of a seat that has made a kong, or of any other. -/
lemma giveNewCard_bans (hs : Sound s') (h : Banned s')
    (hle : ∀ q, claimed (s'.playerList q) ≤ claimed (s.playerList q)) :
    Bans s (giveNewCard rule s' t).state :=
  ⟨giveNewCard_banned rule hs h, fun _ _ q _ => (giveNewCard_claimed rule hs q).trans_le (hle q)⟩

/-- A seat that has claimed a tile for a peng or a run is the one whose flower floats. -/
lemma claim_bans {player : MJPlayer} {l river : List ℕ} (h : Banned s) (ho : isChiPeng o = true)
    (hdone : o ∈ s.playerGrabMgr.doneGrabMgr.opers p) (hn : player.hasNewCard = true) :
    Bans s (checkMyOper rule ((used (forbid s p l) p player).setRiver t river) p true).state := by
  have hnew : (((used (forbid s p l) p player).setRiver t river).playerList p).hasNewCard = true := by
    show (Function.update s.playerList p player p).hasNewCard = true
    rw [Function.update_self]
    exact hn
  refine ⟨checkMyOper_banned rule hnew true, fun p' hp' q hq => ?_⟩
  rw [checkMyOper_claimed rule hnew true]
  refine claimed_used (s := forbid s p l) fun hqp => ?_
  subst hqp
  exact absurd hdone (h p' hp' q hq o ho).2

lemma doGang_bans (hg : Going s) (hc : Claim s t b) (htake : MayTake s t b p .mg) (h : Banned s)
    {r : Handled} (hr : doGang rule s p b t = some r) : Bans s r.state := by
  obtain ⟨player, hdo, hheld, -, -, hpile⟩ := (hg.held p).doGang t htake.canGang hc.valid
  obtain ⟨gangPiao, heq⟩ := doGang_eq rule (s := s) (p := p) (b := b) (t := t) (by rw [hdo])
  rw [heq, hdo, Option.some.injEq] at hr
  subst hr
  refine giveNewCard_bans rule ((hg.toSound.used hheld).of_same rfl rfl rfl rfl)
    ((h.used player).of_same rfl (Or.inr rfl)) fun q => ?_
  refine claimed_used (s := s) (p := p) fun _ => ?_
  simp [claimed, hpile, isChiPeng]

lemma doAnGang_bans (hg : Going s) (h : Banned s) : Bans s (doAnGang rule s t c t).state := by
  by_cases hr : ((s.playerList t).doAnGang c t).1 = true
  · obtain ⟨hheld, -, -, hpile⟩ := (hg.held t).doAnGang hr
    obtain ⟨gangPiao, heq⟩ := doAnGang_eq rule hr
    rw [heq]
    refine giveNewCard_bans rule ((hg.toSound.used hheld).of_same rfl rfl rfl rfl)
      ((h.used _).of_same rfl (Or.inr rfl)) fun q => ?_
    refine claimed_used (s := s) (p := t) fun _ => ?_
    simp [claimed, hpile, isChiPeng]
  · rw [doAnGang, if_neg hr]
    exact ⟨h, fun _ _ _ _ => le_rfl⟩

/-- Only a win is offered on an added kong. -/
lemma turnOnly_of_offered {l : List Seat} {r : Bool × Table}
    (hoff : Offered (claims s t b true) s.piaoHuaPos l (false, cleared s t) r) :
    TurnOnly r.2.playerGrabMgr := by
  intro q
  refine ⟨fun o ho => ?_, ?_⟩
  · rw [hoff.opers] at ho
    split_ifs at ho
    · rcases mem_operList (PlayerGrabMgr.Round.mem_sortOpers.mp ho) with ⟨l', hmem⟩ | rfl
      · rcases (mem_claims hmem).2 with ⟨rfl, -⟩ | ⟨h, -⟩
        · rfl
        · exact absurd h (by decide)
      · rfl
    · simp [cleared, PlayerGrabMgr.setPos, PlayerGrabMgr.clear] at ho
  · rw [hoff.done]
    simp [cleared, PlayerGrabMgr.setPos, PlayerGrabMgr.clear]

lemma doMXGang_bans (hg : Going s) (h : Banned s) : Bans s (doMXGang rule s t c).state := by
  by_cases hr : ((s.playerList t).doMXGang c).1 = true
  swap
  · rw [doMXGang, if_neg hr]
    exact ⟨h, fun _ _ _ _ => le_rfl⟩
  obtain ⟨-, hheld, -, -, pre, w, v, post, hold, hnew, hpeng, -⟩ := (hg.held t).doMXGang hr
  obtain ⟨gangPiao, hcases⟩ := doMXGang_cases rule hr
  have hsound : Sound (added s t c gangPiao) := (hg.toSound.used hheld).of_same rfl rfl rfl rfl
  -- a peng becomes a kong
  have hle : ∀ q, claimed ((added s t c gangPiao).playerList q) ≤ claimed (s.playerList q) := by
    intro q
    refine claimed_used (s := s) (p := t) fun _ => ?_
    have hw : isChiPeng w.operType = true := by
      rw [hpeng]
      rfl
    simp only [claimed, hold, hnew, List.countP_append, List.countP_cons, hw, if_true]
    split_ifs <;> omega
  rcases hcases with heq | ⟨l, r, -, -, hoff, hcases⟩
  · rw [heq]
    exact giveNewCard_bans rule hsound ((h.used _).of_same rfl (Or.inr rfl)) hle
  have hturn := turnOnly_of_offered hoff
  have hle' : ∀ q, claimed (r.2.playerList q) ≤ claimed (s.playerList q) := by
    rw [hoff.frame]
    exact hle
  rcases hcases with ⟨heq, -⟩ | heq | heq <;> rw [heq]
  · exact ⟨banned_of_turnOnly hturn, fun _ _ q _ => hle' q⟩
  · exact ⟨banned_of_turnOnly hturn, fun _ _ q _ => hle' q⟩
  · refine giveNewCard_bans rule ?_ (banned_of_turnOnly hturn) hle'
    rw [hoff.frame]
    exact hsound.of_same rfl rfl rfl rfl

/-- What is carried out keeps the ban. -/
lemma Decided.bans {r : Handled} (hg : Going s) (h : Banned s) (hd : Decided rule s r) :
    Bans s r.state := by
  cases hd with
  | stay => exact ⟨h, fun _ _ _ _ => le_rfl⟩
  | stop => exact ⟨h, fun _ _ _ _ => le_rfl⟩
  | pass hc hq => exact giveNewCard_bans rule hg.toSound h fun _ => le_rfl
  | kong hc hq =>
    exact giveNewCard_bans rule (hg.toSound.of_same rfl rfl rfl rfl) (h.of_same rfl (Or.inr rfl))
      fun _ => le_rfl
  | @peng t q b r hc htake hdone heq =>
    obtain ⟨player, hdo, -, hn, -⟩ := (hg.held q).doPeng t htake.canPeng hc.valid
    rw [doPeng_eq rule (by rw [hdo]), hdo, Option.some.injEq] at heq
    subst heq
    have hforbid : forbid s q [] = s := by
      simp only [forbid, List.append_nil, Function.update_eq_self]
    have hbans : Bans s (checkMyOper rule ((used (forbid s q []) q player).setRiver t
        (MJRiver.popCard (s.riverCardList t))) q true).state := claim_bans rule h rfl hdone hn
    rw [hforbid] at hbans
    exact hbans
  | gang hc htake heq => exact doGang_bans rule hg hc htake h heq
  | @chi t q b o hc htake ho hdone =>
    have hkind : isChiPeng o = true := by rcases ho with rfl | rfl | rfl <;> rfl
    by_cases hr : ((s.playerList q).doChi b o t).1 = true
    · obtain ⟨-, -, hn, -⟩ := (hg.held q).doChi hr
      rw [doChi_eq rule hr]
      exact claim_bans rule h hkind hdone hn
    · rw [doChi, if_neg hr]
      exact ⟨h, fun _ _ _ _ => le_rfl⟩
  | anGang c ht => exact doAnGang_bans rule hg h
  | mxGang c ht => exact doMXGang_bans rule hg h

end Ban

/-! ### Discards -/

section Discard

variable (rule : RoomRuleMap) {s : Game} {t p q : Seat} {b : ℕ} {l : List Seat} {r : Bool × Table}

/-- What the other seats might take does not depend on the discard having been made. -/
lemma takes_discard (hq : q ≠ t) (player : MJPlayer) :
    takes (discard s t b player) t b q = takes s t b q := by
  obtain ⟨gangPiao, grab, map, n, hframe⟩ := discard_frame s t b player
  rw [hframe]
  simp only [takes, Function.update_of_ne hq]

lemma floats_discard (player : MJPlayer) :
    (discard s t b player).piaoHuaPos = floats s t b := by
  obtain ⟨gangPiao, grab, map, n, hframe⟩ := discard_frame s t b player
  rw [hframe]
  rfl

/-- The offers on a discard. -/
lemma opers_offered
    (hoff : Offered (claims s t b false) s.piaoHuaPos l (false, cleared s t) r) (q : Seat)
    (o : Oper) : o ∈ r.2.playerGrabMgr.canGrabMgr.opers q ↔
      q ∈ l ∧ 1 < (operList (claims s t b false) s.piaoHuaPos q).length ∧
        o ∈ operList (claims s t b false) s.piaoHuaPos q := by
  rw [hoff.opers]
  split_ifs with h
  · rw [PlayerGrabMgr.Round.mem_sortOpers]
    tauto
  · simp only [cleared, PlayerGrabMgr.setPos, PlayerGrabMgr.clear, CanGrabMgr.opers_clear,
      List.not_mem_nil, false_iff]
    tauto

/-- Without a second claim, the offers on a discard keep the ban. -/
lemma banned_of_oneTake (player : MJPlayer) (hl : ∀ p ∈ l, p ≠ t)
    (hoff : Offered (claims (discard s t b player) t b false)
      (discard s t b player).piaoHuaPos l (false, cleared (discard s t b player) t) r)
    (hone : OneTake s t b) : Banned { discard s t b player with toTable := r.2 } := by
  intro p hp q hq o ho
  change (discard s t b player).piaoHuaPos = some p at hp
  refine ⟨fun hmem => ?_, ?_⟩
  · obtain ⟨hql, -, hmem⟩ := (opers_offered hoff q o).mp hmem
    have hlen := hone p ((floats_discard player).symm.trans hp) q (hl q hql) hq
    rw [← takes_discard (hl q hql) player] at hlen
    rw [hp] at hmem
    rw [operList_of_oneTake hlen hq o hmem] at ho
    exact absurd ho (by decide)
  · show o ∉ r.2.playerGrabMgr.doneGrabMgr.opers q
    rw [hoff.done]
    simp [cleared, PlayerGrabMgr.setPos, PlayerGrabMgr.clear]

/-- A seat that might take the tile in two ways can do so with a tile of a suit only. -/
lemma takes_length_of_honour (hb : Zi7 < b) : (takes s t b q).length ≤ 1 := by
  have hchi : (s.playerList q).getCanChiTypeWithDa b [s.baiDa] = [] := by
    have hsuit : 3 ≤ b / 10 := by
      have : Zi7 = 37 := rfl
      omega
    unfold MJPlayer.getCanChiTypeWithDa
    simp [hsuit]
  unfold takes
  rw [hchi]
  split_ifs <;> simp

/-- A discard keeps the ban exactly when no seat under it might claim the tile in two ways. -/
lemma onPlayCard_banned_iff (hg : Going s) (ht : Turn s t)
    (hr : ((s.playerList t).doPlayCard b).1 = true) :
    Banned (onPlayCard rule s t (some b)).state ↔ OneTake s t b := by
  obtain ⟨l, r, hl, -, hoff, hcases⟩ := onPlayCard_cases rule ht hr
  have hidle := (discard_idle hg ht hr).1
  set player := ((s.playerList t).doPlayCard b).2 with hplayer
  constructor
  · intro h p hp q hqt hqp
    by_contra htwo
    rw [not_le] at htwo
    have hpiao : (discard s t b player).piaoHuaPos = some p := (floats_discard player).trans hp
    rw [← takes_discard hqt player] at htwo
    obtain ⟨hlen, o, ho, hkind⟩ := operList_of_two_takes htwo hqp
    have hoffered : (∀ p, p ≠ t → p ∈ l) → o ∈ r.2.playerGrabMgr.canGrabMgr.opers q := by
      intro hall
      rw [opers_offered hoff, hpiao]
      exact ⟨hall q hqt, hlen, ho⟩
    rcases hcases with ⟨-, hb⟩ | ⟨heq, -, hall⟩ | ⟨-, hgrab, hall⟩
    · exact absurd (takes_length_of_honour hb) (not_le.mpr htwo)
    · rw [heq] at h
      exact (h p hpiao q hqp o hkind).1 (hoffered hall)
    · rw [hoff.grab, Bool.false_or, List.any_eq_false] at hgrab
      rw [hpiao] at hgrab
      exact hgrab q (hall q hqt) (decide_eq_true hlen)
  · intro hone
    have hbanned := banned_of_oneTake player hl hoff hone
    rcases hcases with ⟨heq, -⟩ | ⟨heq, -⟩ | ⟨heq, -⟩ <;> rw [heq]
    · exact hbanned
    · exact hbanned
    · exact giveNewCard_banned rule (hidle.offered hoff).toSound hbanned

/-- A discard leaves the piles alone. -/
lemma onPlayCard_claimed (hg : Going s) (ht : Turn s t)
    (hr : ((s.playerList t).doPlayCard b).1 = true) (q : Seat) :
    claimed ((onPlayCard rule s t (some b)).state.playerList q) = claimed (s.playerList q) := by
  obtain ⟨l, r, hl, -, hoff, hcases⟩ := onPlayCard_cases rule ht hr
  obtain ⟨-, -, -, -, -, -, hpile⟩ := (hg.held t).doPlayCard hr
  have hidle := (discard_idle hg ht hr).1
  set player := ((s.playerList t).doPlayCard b).2 with hplayer
  have hsame : claimed (r.2.playerList q) = claimed (s.playerList q) := by
    obtain ⟨gangPiao, grab, map, n, hframe⟩ := discard_frame s t b player
    rw [hoff.frame]
    show claimed ((discard s t b player).playerList q) = claimed (s.playerList q)
    rw [hframe]
    show claimed (Function.update s.playerList t player q) = claimed (s.playerList q)
    rw [Function.update_apply]
    split_ifs with hq
    · rw [claimed, hpile, hq]
      rfl
    · rfl
  rcases hcases with ⟨heq, -⟩ | ⟨heq, -⟩ | ⟨heq, -⟩ <;> rw [heq]
  · exact hsame
  · exact hsame
  · rw [giveNewCard_claimed rule (hidle.offered hoff).toSound]
    exact hsame

end Discard

/-! ### Runs -/

section Runs

variable (rule : RoomRuleMap) {s s' : Game} {p : Seat} {e : Seat × ClientMsg}

/-- A message keeps the ban, when a tile it plays might be claimed in one way at most; and whatever
it is, no seat under the ban gets a peng or a run. -/
lemma Outcome.bans {oper : Option Oper} {card : Option ℕ} {r : Handled} (hg : Going s)
    (h : Banned s) (ho : Outcome rule s p oper card r) :
    ((∀ b, oper = some .play → card = some b → s.playerGrabMgr.hasOper p .play = true →
      ((s.playerList p).doPlayCard b).1 = true → OneTake s p b) → Banned r.state) ∧
    ∀ p', s.piaoHuaPos = some p' → ∀ q, q ≠ p' →
      claimed (r.state.playerList q) ≤ claimed (s.playerList q) := by
  cases ho with
  | same => exact ⟨fun _ => h, fun _ _ _ _ => le_rfl⟩
  | stop => exact ⟨fun _ => h, fun _ _ _ _ => le_rfl⟩
  | ask _ => exact ⟨fun _ => h.of_same rfl (Or.inr rfl), fun _ _ _ _ => le_rfl⟩
  | wait hch _ => exact ⟨fun _ => h.choose hch.1 _, fun _ _ _ _ => le_rfl⟩
  | decide hch hhu hd =>
    have hbans := hd.bans rule (hg.choose hch hhu _) (h.choose hch.1 _)
    exact ⟨fun _ => hbans.1, hbans.2⟩
  | @declare c hch =>
    have hban : Banned (afterChoice s p .hu c s.mjCancelMgr) := h.choose hch.1 _
    exact ⟨fun _ => hban.of_same rfl (Or.inr rfl), fun _ _ _ _ => le_rfl⟩
  | @play b ht hr =>
    refine ⟨fun hone => ?_, fun _ _ q _ => (onPlayCard_claimed rule hg ht hr q).le⟩
    exact (onPlayCard_banned_iff rule hg ht hr).mpr
      (hone b rfl rfl (PlayerGrabMgr.hasOper_iff.mpr ht.play) hr)

/-- The deal leaves no flower floating. -/
lemma onEntry_banned (d : Deal) : Banned (onEntry rule d).state := by
  obtain ⟨-, hnew, -⟩ := dealt_sound d
  exact checkMyOper_banned rule ((hnew d.banker).mpr rfl) false

/-- While a flower floats, no seat but its own is offered a peng or a run or gets one, in every run
in which no tile that is played might be claimed in two ways by a seat under the ban. A discard
keeps the ban exactly when this is so.

**Proof sketch.** Offers are made after a discard, where the filter deletes a single claim and skips
the second of two that follow one another, and to the seat whose turn it is, which claims nothing.
What is chosen was offered, and what is carried out was chosen. -/
theorem banned_iff_oneTake (rule : RoomRuleMap) (d : Deal) :
    (∀ s, Runs.Reaches (step rule) OneTakeMsg (onEntry rule d).state s → Banned s ∧
      ∀ e s', step rule s e = some s' → ∀ p, s.piaoHuaPos = some p → ∀ q, q ≠ p →
        claimed (s'.playerList q) ≤ claimed (s.playerList q)) ∧
    ∀ s e s' b, Runs.Reaches (step rule) (fun _ _ => True) (onEntry rule d).state s →
      step rule s e = some s' → plays s e b → (Banned s' ↔ OneTake s e.1 b) := by
  constructor
  · intro s hs
    have hban : Banned s := by
      induction hs with
      | init => exact onEntry_banned rule d
      | @step s₀ s₁ e hs hok hstep ih =>
        have hgo := going_of_step hs hstep
        obtain ⟨r, hout, rfl⟩ := step_outcome hgo hstep
        refine (hout.bans rule hgo ih).1 fun b ho hb hhas hdo => ?_
        exact hok b hb ⟨ho, hb, hhas, hdo⟩
    refine ⟨hban, fun e s' hstep => ?_⟩
    have hgo := going_of_step hs hstep
    obtain ⟨r, hout, rfl⟩ := step_outcome hgo hstep
    exact (hout.bans rule hgo hban).2
  · rintro s e s' b hs hstep ⟨ho, hb, hhas, hdo⟩
    have hgo := going_of_step hs hstep
    have hturn := hgo.turn_of_play (PlayerGrabMgr.hasOper_iff.mp hhas)
    have hmsg : onClientMsg rule s e.1 e.2 = onPlayCard rule s e.1 (some b) := by
      simp only [onClientMsg, ho, hb]
    rw [step, hgo.going] at hstep
    simp only [Option.isSome_none, Bool.false_eq_true, if_false, Option.some.injEq, hmsg] at hstep
    rw [← hstep]
    exact onPlayCard_banned_iff rule hgo hturn hdo

end Runs

/-! ### The second claim -/

/-- Hands in which nobody wins with the wild tile `5` that the banker plays. The next seat holds the
given tiles. -/
def floatHands (next : List ℕ) : List ℕ :=
  [5, 12, 14, 16, 18, 22, 24, 26, 28, 31, 32, 33, 34] ++
  next ++ [8, 11, 13, 17, 19, 21, 25, 27, 29, 32] ++
  [1, 4, 7, 12, 15, 18, 22, 25, 28, 31, 33, 34, 35] ++
  [1, 4, 7, 11, 14, 17, 21, 24, 27, 31, 32, 33, 34] ++ [31]

/-- The next seat might take `5` with `3` and `4`. -/
def oneTakeDeal : Deal where
  wall := floatHands [3, 4, 9] ++ wallTiles.diff (floatHands [3, 4, 9])
  perm := by decide +kernel
  banker := 0
  m_bBaoZi := false
  baiDa := 5
  fanDa := by decide +kernel
  last := newGame
  asked := newGame_asked

/-- The next seat might take `5` with `3` and `4`, or with `4` and `6`. -/
def twoTakesDeal : Deal where
  wall := floatHands [3, 4, 6] ++ wallTiles.diff (floatHands [3, 4, 6])
  perm := by decide +kernel
  banker := 0
  m_bBaoZi := false
  baiDa := 5
  fanDa := by decide +kernel
  last := newGame
  asked := newGame_asked

/-- A single claim is deleted, and the next seat draws. -/
theorem banned_one_take : ∃ s,
    Runs.exec (step ⟨false, true, false⟩) OneTakeMsg
      (onEntry ⟨false, true, false⟩ oneTakeDeal).state [(0, ⟨10, 69⟩)] = some s ∧
      takes (onEntry ⟨false, true, false⟩ oneTakeDeal).state 0 5 1 = [.lChi] ∧
      s.piaoHuaPos = some 0 ∧ Banned s := by
  have hrun : ((Runs.exec (step ⟨false, true, false⟩) OneTakeMsg
      (onEntry ⟨false, true, false⟩ oneTakeDeal).state [(0, ⟨10, 69⟩)]).any fun s =>
        decide (takes (onEntry ⟨false, true, false⟩ oneTakeDeal).state 0 5 1 = [.lChi] ∧
          s.piaoHuaPos = some 0)) = true := by
    decide +kernel
  obtain ⟨s, hs, hend⟩ := (Option.any_eq_true _ _).mp hrun
  obtain ⟨htakes, hpiao⟩ := of_decide_eq_true hend
  exact ⟨s, hs, htakes, hpiao, ((banned_iff_oneTake _ oneTakeDeal).1 s
    (Runs.reaches_of_exec _ .init hs)).1⟩

/-- The second of two runs is offered to the next seat, and carried out, while the flower of the
banker floats. -/
theorem second_claim_kept : ∃ s s',
    Runs.exec (step ⟨false, true, false⟩) (fun _ _ => True)
      (onEntry ⟨false, true, false⟩ twoTakesDeal).state [(0, ⟨10, 69⟩)] = some s ∧
      s.piaoHuaPos = some 0 ∧ .mChi ∈ s.playerGrabMgr.canGrabMgr.opers 1 ∧ ¬Banned s ∧
      step ⟨false, true, false⟩ s (1, ⟨7, 69⟩) = some s' ∧ s'.piaoHuaPos = some 0 ∧
      claimed (s.playerList 1) = 0 ∧ claimed (s'.playerList 1) = 1 := by
  have hrun : ((Runs.exec (step ⟨false, true, false⟩) (fun _ _ => True)
      (onEntry ⟨false, true, false⟩ twoTakesDeal).state [(0, ⟨10, 69⟩)]).any fun s =>
        (step ⟨false, true, false⟩ s (1, ⟨7, 69⟩)).any fun s' =>
          decide (s.piaoHuaPos = some 0 ∧ .mChi ∈ s.playerGrabMgr.canGrabMgr.opers 1 ∧
            s'.piaoHuaPos = some 0 ∧ claimed (s.playerList 1) = 0 ∧
            claimed (s'.playerList 1) = 1)) = true := by
    decide +kernel
  obtain ⟨s, hs, hnext⟩ := (Option.any_eq_true _ _).mp hrun
  obtain ⟨s', hs', hend⟩ := (Option.any_eq_true _ _).mp hnext
  obtain ⟨hpiao, hmem, hpiao', hnone, hone⟩ := of_decide_eq_true hend
  refine ⟨s, s', hs, hpiao, hmem, fun hban => ?_, hs', hpiao', hnone, hone⟩
  exact (hban 0 hpiao 1 (by decide) .mChi rfl).1 hmem

end Tongxiang
