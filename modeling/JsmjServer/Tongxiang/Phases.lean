import JsmjServer.Tongxiang.GamePlaying
import JsmjServer.Mahjong.Deal
import JsmjServer.Mahjong.Winners
import JsmjServer.Lib.Runs

set_option relaxedAutoImplicit false
set_option autoImplicit false

/-!
# The phases of a round of tongxiang mahjong

While a round goes on, a seat has the turn, or the other seats may claim a tile, or an error has
left nobody with an offer. The offers of a turn and of a claim lead into these phases.

## Main definitions

* `Tongxiang.Turn`, `Tongxiang.Claim`, `Tongxiang.Stuck` — the phases.
* `Tongxiang.Going` — what holds of a round that goes on.
* `Tongxiang.Kept` — what a handler leaves when nobody declares a win.

## Main results

* `Tongxiang.checkOtherOper_cases` — the offers to the other seats.
* `Tongxiang.giveNewCard_kept` — a draw between two turns.
* `Tongxiang.offered_claim` — the phase after a discard or an added kong.
-/

namespace Tongxiang

open Mahjong
open Nanjing (clearAllCanDoMap clearCanDoMap)

/-! ### The filter of offers -/

section Filter

variable {l : List Oper} {o : Oper}

/-- The filter only deletes. -/
lemma delChiPeng_sublist (l : List Oper) : (delChiPeng l).Sublist l := by
  fun_induction delChiPeng l with
  | case1 => exact List.Sublist.refl _
  | case2 oper h => exact List.nil_sublist _
  | case3 oper h => exact List.Sublist.refl _
  | case4 oper next rest h ih => exact (ih.cons_cons next).cons oper
  | case5 oper next rest h ih => exact ih.cons_cons oper

/-- The filter keeps what is neither peng nor a run. -/
lemma mem_delChiPeng (h : o ∈ l) (ho : isChiPeng o = false) : o ∈ delChiPeng l := by
  fun_induction delChiPeng l with
  | case1 => exact h
  | case2 oper hc =>
    rw [List.mem_singleton.mp h] at ho
    simp [ho] at hc
  | case3 oper hc => exact h
  | case4 oper next rest hc ih =>
    rcases List.mem_cons.mp h with rfl | h
    · simp [ho] at hc
    · rcases List.mem_cons.mp h with rfl | h
      · exact List.mem_cons_self
      · exact List.mem_cons_of_mem _ (ih h)
  | case5 oper next rest hc ih =>
    rcases List.mem_cons.mp h with rfl | h
    · exact List.mem_cons_self
    · exact List.mem_cons_of_mem _ (ih h)

variable {claims : Seat → List (Oper × List ℕ)} {piaoHuaPos : Option Seat} {p : Seat}

/-- An operation offered to a seat is one of its claims, or to cancel. -/
lemma mem_operList (h : o ∈ operList claims piaoHuaPos p) :
    (∃ l, (o, l) ∈ claims p) ∨ o = .cancel := by
  have hmem : o ∈ (withCancel (claims p)).map Prod.fst := by
    unfold operList at h
    dsimp only at h
    split_ifs at h
    · exact (delChiPeng_sublist _).subset h
    · exact h
  obtain ⟨⟨o, l⟩, hx, rfl⟩ := List.mem_map.mp hmem
  rcases mem_withCancel hx with hx | hx
  · exact Or.inl ⟨l, hx⟩
  · exact Or.inr (congrArg Prod.fst hx)

lemma operList_of_claims_nil (h : claims p = []) : operList claims piaoHuaPos p = [] := by
  simp [operList, h, withCancel, delChiPeng]

end Filter

/-! ### The offers to other seats -/

/-- What the loop of `checkOtherOper` leaves after the seats `l`. -/
structure Offered (claims : Seat → List (Oper × List ℕ)) (piaoHuaPos : Option Seat)
    (l : List Seat) (r r' : Bool × Table) : Prop where
  frame : r'.2 = { r.2 with
    playerGrabMgr := r'.2.playerGrabMgr
    multiHuPos := r.2.multiHuPos ++ l.filter fun p => .hu ∈ (claims p).map Prod.fst
    playerCanDoMap := fun p =>
      if p ∈ l then some { CanDoMap.ofOffers (withCancel (claims p)) with
        operList := some (operList claims piaoHuaPos p) }
      else r.2.playerCanDoMap p }
  pos : r'.2.playerGrabMgr.pos = r.2.playerGrabMgr.pos
  done : r'.2.playerGrabMgr.doneGrabMgr = r.2.playerGrabMgr.doneGrabMgr
  valid : (∀ p, ∀ x ∈ claims p, x.1 ∈ operLevel) → r.2.playerGrabMgr.Valid →
    r'.2.playerGrabMgr.Valid
  opers : ∀ p, r'.2.playerGrabMgr.canGrabMgr.opers p =
    if p ∈ l ∧ 1 < (operList claims piaoHuaPos p).length then
      sortOpers (operList claims piaoHuaPos p)
    else r.2.playerGrabMgr.canGrabMgr.opers p
  grab : r'.1 = (r.1 || l.any fun p => decide (1 < (operList claims piaoHuaPos p).length))

section Offered

variable {claims : Seat → List (Oper × List ℕ)} {piaoHuaPos : Option Seat}

/-- The body of the loop, without its case distinctions. -/
lemma offerTo_eq (r : Bool × Table) (pos : Seat) : offerTo claims piaoHuaPos r pos =
    (r.1 || decide (1 < (operList claims piaoHuaPos pos).length),
      { r.2 with
        multiHuPos := r.2.multiHuPos ++
          [pos].filter fun p => .hu ∈ (claims p).map Prod.fst
        playerCanDoMap := Function.update r.2.playerCanDoMap pos
          (some { CanDoMap.ofOffers (withCancel (claims pos)) with
            operList := some (operList claims piaoHuaPos pos) })
        playerGrabMgr :=
          if 1 < (operList claims piaoHuaPos pos).length then
            r.2.playerGrabMgr.addCanDoItem pos (operList claims piaoHuaPos pos)
          else r.2.playerGrabMgr }) := by
  unfold offerTo
  dsimp only
  by_cases hhu : .hu ∈ (claims pos).map Prod.fst <;>
    by_cases hlen : 1 < (operList claims piaoHuaPos pos).length
  all_goals
    simp only [hhu, hlen, if_true, if_false, Table.setCanDoMap, List.filter_cons, List.filter_nil,
      decide_true, decide_false, Bool.or_true, Bool.or_false, List.append_nil, Bool.false_eq_true]

lemma offerTo_offered (r : Bool × Table) (pos : Seat) :
    Offered claims piaoHuaPos [pos] r (offerTo claims piaoHuaPos r pos) := by
  rw [offerTo_eq]
  refine ⟨?_, ?_, ?_, ?_, ?_, by simp⟩
  · have hmap : (Function.update r.2.playerCanDoMap pos
        (some { CanDoMap.ofOffers (withCancel (claims pos)) with
          operList := some (operList claims piaoHuaPos pos) })) = fun p => if p ∈ [pos] then
            some { CanDoMap.ofOffers (withCancel (claims p)) with
              operList := some (operList claims piaoHuaPos p) }
          else r.2.playerCanDoMap p := by
      funext p
      by_cases h : p = pos
      · subst h
        simp
      · simp [h]
    simp only [hmap]
  · dsimp only
    split_ifs <;> rfl
  · dsimp only
    split_ifs <;> rfl
  · intro hclaims hv
    dsimp only
    split_ifs
    · refine hv.addCanDoItem fun o ho => ?_
      rcases mem_operList ho with ⟨l, hl⟩ | rfl
      · exact hclaims pos _ hl
      · decide
    · exact hv
  · intro p
    dsimp only
    by_cases hp : p = pos
    · subst hp
      by_cases h : 1 < (operList claims piaoHuaPos p).length
      · simp [h, PlayerGrabMgr.addCanDoItem]
      · simp [h]
    · by_cases h : 1 < (operList claims piaoHuaPos pos).length
      · simp [h, hp, PlayerGrabMgr.addCanDoItem]
      · simp [h, hp]

lemma foldl_offerTo_offered (l : List Seat) (r : Bool × Table) :
    Offered claims piaoHuaPos l r (l.foldl (offerTo claims piaoHuaPos) r) := by
  induction l generalizing r with
  | nil => exact ⟨by simp, rfl, rfl, fun _ => id, by simp, by simp⟩
  | cons pos l ih =>
    have h1 : Offered claims piaoHuaPos [pos] r (offerTo claims piaoHuaPos r pos) :=
      offerTo_offered r pos
    have h2 := ih (offerTo claims piaoHuaPos r pos)
    rw [List.foldl_cons]
    refine ⟨?_, h2.pos.trans h1.pos, h2.done.trans h1.done,
      fun hclaims hv => h2.valid hclaims (h1.valid hclaims hv), ?_, ?_⟩
    · rw [h2.frame, h1.frame]
      have hmap : (fun p => if p ∈ l then
          some { CanDoMap.ofOffers (withCancel (claims p)) with
            operList := some (operList claims piaoHuaPos p) }
          else if p ∈ [pos] then some { CanDoMap.ofOffers (withCancel (claims p)) with
            operList := some (operList claims piaoHuaPos p) }
          else r.2.playerCanDoMap p) = fun p => if p ∈ pos :: l then
            some { CanDoMap.ofOffers (withCancel (claims p)) with
              operList := some (operList claims piaoHuaPos p) }
          else r.2.playerCanDoMap p := by
        funext p
        by_cases h : p ∈ l <;> by_cases h' : p = pos <;> simp [h, h']
      simp only [hmap, List.append_assoc, ← List.filter_append, List.singleton_append]
    · intro p
      rw [h2.opers, h1.opers]
      by_cases hc : 1 < (operList claims piaoHuaPos p).length
      · simp only [List.mem_cons, hc, and_true]
        by_cases h : p ∈ l <;> by_cases h' : p = pos <;> simp [h, h']
      · simp [hc]
    · rw [h2.grab, h1.grab]
      simp [Bool.or_assoc]

/-- The table on which `checkOtherOper` makes its offers. -/
def cleared (s : Game) (t : Seat) : Table :=
  { clearAllCanDoMap s.toTable with
    playerGrabMgr := s.playerGrabMgr.clear.setPos t
    multiHuPos := [] }

/-- What `checkOtherOper` leaves: the offers to the three other seats, or to those before the first
for which it stops. -/
lemma checkOtherOper_cases (s : Game) (t : Seat) (b : ℕ) (bGrabGang : Bool) :
    ∃ l r, (∀ p ∈ l, p ≠ t) ∧ l.Nodup ∧
      Offered (Tongxiang.claims s t b bGrabGang) s.piaoHuaPos l (false, cleared s t) r ∧
      ((checkOtherOper s t b bGrabGang = .error (.countMap, { s with toTable := r.2 }) ∧
          Zi7 < b ∧ ∀ p ∈ l, canHuStops s b p = false) ∨
        (checkOtherOper s t b bGrabGang = .ok (r.1, { s with toTable := r.2 }) ∧
          ∀ p, p ≠ t → p ∈ l)) := by
  set others := [t + 1, t + 2, t + 3] with hothers
  set l := others.takeWhile fun pos => !canHuStops s b pos with hl
  have hsub : ∀ p ∈ l, p ≠ t := fun p hp =>
    Table.mem_otherSeats.mp (hothers ▸ (List.takeWhile_sublist _).subset hp)
  refine ⟨l, _, hsub, (Table.nodup_otherSeats t).sublist (List.takeWhile_sublist _),
    foldl_offerTo_offered l (false, cleared s t), ?_⟩
  by_cases hany : others.any (canHuStops s b) = true
  · left
    refine ⟨if_pos hany, ?_, fun p hp => ?_⟩
    · obtain ⟨q, -, hq⟩ := List.any_eq_true.mp hany
      simp only [canHuStops, Bool.and_eq_true, decide_eq_true_eq] at hq
      exact hq.2
    · simpa using List.mem_takeWhile_imp hp
  · right
    refine ⟨if_neg hany, fun p hp => ?_⟩
    have hall : l = others := by
      refine List.takeWhile_eq_self_iff.mpr fun q hq => ?_
      rw [Bool.not_eq_true, List.any_eq_false] at hany
      simpa using hany q hq
    rw [hall]
    exact Table.mem_otherSeats.mpr hp

end Offered

section Claims

variable {s : Game} {t p : Seat} {b : ℕ} {bGrabGang : Bool} {o : Oper} {l : List ℕ}

/-- The claims allowed to another seat, with their tiles. -/
lemma mem_claims (h : (o, l) ∈ claims s t b bGrabGang p) :
    l = [b] ∧ ((o = .hu ∧ otherHu s p b bGrabGang = true) ∨ (bGrabGang = false ∧
      ((o = .mg ∧ (s.playerList p).canGang b = true) ∨
        (o = .peng ∧ (s.playerList p).canPeng b = true) ∨
        (p = t + 1 ∧ o ∈ (s.playerList p).getCanChiType b)))) := by
  simp only [claims, List.mem_append] at h
  rcases h with ((h | h) | h) | h
  · split_ifs at h with hhu
    · simp only [List.mem_singleton, Prod.mk.injEq] at h
      exact ⟨h.2, Or.inl ⟨h.1, hhu⟩⟩
    · simp at h
  · split_ifs at h with hg
    · simp only [List.mem_singleton, Prod.mk.injEq] at h
      rw [Bool.and_eq_true, Bool.not_eq_true'] at hg
      exact ⟨h.2, Or.inr ⟨hg.1, Or.inl ⟨h.1, MJPlayer.canGang_of_withDa hg.2⟩⟩⟩
    · simp at h
  · split_ifs at h with hg
    · simp only [List.mem_singleton, Prod.mk.injEq] at h
      rw [Bool.and_eq_true, Bool.and_eq_true, Bool.not_eq_true'] at hg
      exact ⟨h.2, Or.inr ⟨hg.1.1, Or.inr (Or.inl ⟨h.1, MJPlayer.canPeng_of_withDa hg.2⟩)⟩⟩
    · simp at h
  · split_ifs at h with hg
    · rw [Bool.and_eq_true, Bool.and_eq_true, Bool.not_eq_true', beq_iff_eq] at hg
      obtain ⟨chiType, hmem, heq⟩ := List.mem_map.mp h
      simp only [Prod.mk.injEq] at heq
      obtain ⟨rfl, rfl⟩ := heq
      exact ⟨rfl, Or.inr ⟨hg.1.1, Or.inr (Or.inr ⟨hg.1.2,
        MJPlayer.getCanChiType_of_withDa hmem⟩)⟩⟩
    · simp at h

/-- The runs are among the operations of the manager. -/
lemma isChi_of_mem_getCanChiType {player : MJPlayer} (h : o ∈ player.getCanChiType b) :
    o = .lChi ∨ o = .mChi ∨ o = .rChi := by
  unfold MJPlayer.getCanChiType at h
  split_ifs at h
  · simp at h
  · simp at h
  · simp at h
  simp only [MJPlayer.chiTypes, List.mem_append] at h
  rcases h with (h | h) | h
  all_goals
    split_ifs at h
    swap
    · simp at h
  · exact Or.inl (List.mem_singleton.mp h)
  · exact Or.inr (Or.inl (List.mem_singleton.mp h))
  · exact Or.inr (Or.inr (List.mem_singleton.mp h))

end Claims

/-! ### The phases -/

/-- The seat has not acted, or has played a tile since it last did anything else. -/
def Rested (s : Game) (p : Seat) : Prop :=
  s.opHistoryList p = [] ∨ (s.opHistoryList p).getLast? = some .play

/-- An operation open to the seat `t` with the new tile. A win is open only when the tile has been
drawn, and only when its evaluation does not stop. -/
def MayDo (s : Game) (t : Seat) (o : Oper) : Prop :=
  o = .play ∨ o = .cancel ∨ o = .ag ∨ o = .mxg ∨
    (o = .hu ∧ s.bZiMo t = true ∧ isPiaoGang s t = false)

/-- The seat `t` has the new tile and may play it. -/
structure Turn (s : Game) (t : Seat) : Prop where
  pos : s.playerGrabMgr.pos = some t
  newCard : ∀ p, (s.playerList p).hasNewCard = true ↔ p = t
  quiet : s.isQiangGanging = false
  play : .play ∈ s.playerGrabMgr.canGrabMgr.opers t
  opers : ∀ p, ∀ o ∈ s.playerGrabMgr.canGrabMgr.opers p, p = t ∧ MayDo s t o
  chosen : s.playerGrabMgr.Chosen fun p o _ => p = t ∧ (o = .cancel ∨ o = .ag ∨ o = .mxg)
  free : ∀ o ∈ s.playerGrabMgr.canGrabMgr.opers t, o ≠ .play → s.Unanswered t
  rested : ∀ p, p ≠ t → Rested s p

/-- A claim other than to win, on the tile `b` that the seat `t` has discarded. -/
def MayTake (s : Game) (t : Seat) (b : ℕ) (p : Seat) (o : Oper) : Prop :=
  s.isQiangGanging = false ∧ p ≠ t ∧
    ((o = .mg ∧ (s.playerList p).canGang b = true) ∨
      (o = .peng ∧ (s.playerList p).canPeng b = true) ∨
      (p = t + 1 ∧ o ∈ (s.playerList p).getCanChiType b))

/-- The other seats may claim the tile `b` of the seat `t`: its last discard, or the tile of its
added kong. -/
structure Claim (s : Game) (t : Seat) (b : ℕ) : Prop where
  pos : s.playerGrabMgr.pos = some t
  valid : MJCard.isValid b = true
  newCard : ∀ p, (s.playerList p).hasNewCard = false
  multi : t ∉ s.multiHuPos ∧ s.multiHuPos.Nodup
  opers : ∀ p, ∀ o ∈ s.playerGrabMgr.canGrabMgr.opers p,
    o = .cancel ∨ (o = .hu ∧ p ∈ s.multiHuPos) ∨ MayTake s t b p o
  tile : ∀ p, ∀ o ∈ s.playerGrabMgr.canGrabMgr.opers p, o ≠ .cancel →
    ∀ map l, s.playerCanDoMap p = some map → map.cards o = some l → l = [b]
  chosen : s.playerGrabMgr.Chosen fun p o c => o = .cancel ∨ c = b ∧ MayTake s t b p o
  free : ∀ p, ∀ o ∈ s.playerGrabMgr.canGrabMgr.opers p, s.Unanswered p
  rested : ∀ p, s.isQiangGanging = false ∨ p ≠ t → Rested s p
  robbed : s.isQiangGanging = true → s.qiangGangInfo = some t

/-- An error has left nobody with an offer. -/
def Stuck (s : Game) : Prop := ∀ p, s.playerGrabMgr.canGrabMgr.opers p = []

/-- The tiles of the players fit together, and those still to come are tiles. -/
structure Sound (s : Game) : Prop where
  going : s.endArgs = none
  held : ∀ p, (s.playerList p).Held
  wall : ∀ c ∈ s.mjWall, MJCard.isValid c = true
  asked : ∀ p c, s.testPlayerNeedCard p = some c → MJCard.isValid c = true

/-- A round that goes on. -/
structure Going (s : Game) : Prop extends Sound s where
  valid : s.playerGrabMgr.Valid
  phase : (∃ t, Turn s t) ∨ (∃ t b, Claim s t b) ∨ Stuck s

/-- Between two turns: nobody has a new tile, and all but the seat that draws next are at rest. -/
structure Idle (s : Game) (t : Seat) : Prop extends Sound s where
  newCard : ∀ p, (s.playerList p).hasNewCard = false
  quiet : s.isQiangGanging = false
  rested : ∀ p, p ≠ t → Rested s p

/-- The seat has just drawn a tile after a kong with which its hand is complete, and the last tile
it has discarded is wild. -/
def DrewPiaoGang (s : Game) (t : Seat) : Prop :=
  (s.opHistoryList t).getLast? = some .newCard ∧ isPiaoGang s t = true ∧
    (s.playerList t).canSelfHu [s.baiDa] = true

/-- What a handler leaves when nobody declares a win. -/
def Kept : Handled → Prop
  | .ok s => Going s ∨ s.endArgs = some .liuJu
  | .error (f, s) => Going s ∧ (f = .describe → ∃ t, DrewPiaoGang s t)

/-! ### Turns and draws -/

/-- The state in which `checkMyOper` looks at the hand of a seat with a new tile. -/
def opened (s : Game) : Game :=
  { s with
    playerGrabMgr := s.playerGrabMgr.clear
    playerCanDoMap := (clearAllCanDoMap s.toTable).playerCanDoMap }

/-- What `offerTurn` changes. -/
lemma offerTurn_frame (s : Game) (t : Seat) (bHu : Bool) : ∃ xiangGong, offerTurn s t bHu = { s with
    xiangGong := xiangGong
    piaoHuaPos := if s.piaoHuaPos = some t then none else s.piaoHuaPos
    playerGrabMgr := (s.playerGrabMgr.addCanDoItem t ((myOffers s t bHu).map Prod.fst)).setPos t
    playerCanDoMap := Function.update s.playerCanDoMap t (some (.ofOffers (myOffers s t bHu))) } := by
  by_cases h : s.piaoHuaPos = some t
  · exact ⟨if bHu then s.xiangGong else Function.update s.xiangGong t true,
      by simp only [offerTurn, h, if_true]⟩
  · exact ⟨s.xiangGong, by simp only [offerTurn, if_neg h]⟩

/-- The operations offered to the seat whose turn it is. -/
lemma mem_myOffers {s : Game} {t : Seat} {bHu : Bool} {o : Oper}
    (h : o ∈ (myOffers s t bHu).map Prod.fst) :
    o ∈ operLevel ∧ (o = .play ∨ o = .cancel ∨ o = .ag ∨ o = .mxg ∨ (o = .hu ∧ bHu = true)) := by
  obtain ⟨⟨o, l⟩, hmem, rfl⟩ := List.mem_map.mp h
  have hkind : o = .play ∨ o = .cancel ∨ o = .ag ∨ o = .mxg ∨ (o = .hu ∧ bHu = true) := by
    rcases List.mem_cons.mp hmem with heq | hmem
    · exact Or.inl (congrArg Prod.fst heq)
    right
    set offers : List (Oper × List ℕ) := _ ++ _ ++ _ with hoffers
    have hcancel : (o, l) ∈ offers ∨ o = .cancel := by
      split_ifs at hmem
      · exact Or.inl hmem
      · rcases mem_withCancel hmem with hmem | heq
        · exact Or.inl hmem
        · exact Or.inr (congrArg Prod.fst heq)
    rcases hcancel with hmem | rfl
    · right
      rw [hoffers, List.mem_append, List.mem_append] at hmem
      rcases hmem with (hmem | hmem) | hmem
      · split_ifs at hmem with hhu
        · rw [Bool.and_eq_true] at hhu
          exact Or.inr (Or.inr ⟨congrArg Prod.fst (List.mem_singleton.mp hmem), hhu.1⟩)
        · simp at hmem
      · split_ifs at hmem
        · exact Or.inl (congrArg Prod.fst (List.mem_singleton.mp hmem))
        · simp at hmem
      · split_ifs at hmem
        · exact Or.inr (Or.inl (congrArg Prod.fst (List.mem_singleton.mp hmem)))
        · simp at hmem
    · exact Or.inl rfl
  refine ⟨?_, hkind⟩
  rcases hkind with rfl | rfl | rfl | rfl | ⟨rfl, -⟩ <;> simp [operLevel]

section Draw

variable (rule : RoomRuleMap) {s : Game} {t p : Seat} {b : ℕ}

/-- `checkMyOper` stops in the branch `飘杠` of the evaluation, or makes its offers. -/
lemma checkMyOper_cases (hn : (s.playerList t).hasNewCard = true) (checkCanGang : Bool) :
    (checkMyOper rule s t checkCanGang = .error (.describe, opened s) ∧
        (s.playerList t).canSelfHu [s.baiDa] = true ∧ isPiaoGang s t = true) ∨
      (((s.playerList t).canSelfHu [s.baiDa] = true → isPiaoGang s t = false) ∧
        checkMyOper rule s t checkCanGang = .ok (offerTurn (opened s) t
          ((s.playerList t).canSelfHu [s.baiDa] && selfHu rule s t checkCanGang))) := by
  have hnot : ¬(s.playerList t).hasNewCard = false := by simp [hn]
  have hnone : (calculate (opened s) t false).isNone = isPiaoGang s t := by
    rw [Bool.eq_iff_iff, Option.isNone_iff_eq_none, calculate_eq_none]
    exact Iff.rfl
  by_cases hstop : (s.playerList t).canSelfHu [s.baiDa] = true ∧ isPiaoGang s t = true
  · left
    have hcond : ((s.playerList t).canSelfHu [s.baiDa] &&
        (calculate (opened s) t false).isNone) = true := by
      rw [Bool.and_eq_true, hnone]
      exact hstop
    exact ⟨(if_neg hnot).trans (if_pos hcond), hstop⟩
  · right
    have hcond : ¬((s.playerList t).canSelfHu [s.baiDa] &&
        (calculate (opened s) t false).isNone) = true := by
      rw [Bool.and_eq_true, hnone]
      exact hstop
    refine ⟨fun hhu => ?_, (if_neg hnot).trans (if_neg hcond)⟩
    rw [← Bool.not_eq_true]
    exact fun h => hstop ⟨hhu, h⟩

/-- What is kept when only the offers and the claims of the last turn are cleared. -/
lemma Sound.of_same {s' : Game} (h : Sound s) (hgo : s'.endArgs = s.endArgs)
    (hplayers : s'.playerList = s.playerList) (hwall : s'.mjWall = s.mjWall)
    (htest : s'.testPlayerNeedCard = s.testPlayerNeedCard) : Sound s' :=
  ⟨hgo.trans h.going, hplayers ▸ h.held, hwall ▸ h.wall, htest ▸ h.asked⟩

/-- The seat with the new tile gets the turn, or the evaluation of its hand stops. -/
lemma checkMyOper_turn (hs : Sound s) (hq : s.isQiangGanging = false)
    (hnew : ∀ p, (s.playerList p).hasNewCard = true ↔ p = t) (hrest : ∀ p, p ≠ t → Rested s p)
    (checkCanGang : Bool)
    (hz : (s.playerList t).justDoOper = .newCard ∨
      (checkCanGang = true ∧ (s.playerList t).pileList ≠ [])) :
    (checkMyOper rule s t checkCanGang = .error (.describe, opened s) ∧
        (s.playerList t).canSelfHu [s.baiDa] = true ∧ isPiaoGang s t = true) ∨
      (((s.playerList t).canSelfHu [s.baiDa] = true → isPiaoGang s t = false) ∧
        ∃ s', checkMyOper rule s t checkCanGang = .ok s' ∧ Going s' ∧ Turn s' t) := by
  rcases checkMyOper_cases rule ((hnew t).mpr rfl) checkCanGang with herr | ⟨hfree, hok⟩
  · exact Or.inl herr
  refine Or.inr ⟨hfree, _, hok, ?_⟩
  set bHu := (s.playerList t).canSelfHu [s.baiDa] && selfHu rule s t checkCanGang with hbHu
  -- a complete hand may be declared only with a tile that has been drawn
  have hwin : bHu = true → s.bZiMo t = true ∧ isPiaoGang s t = false := by
    intro h
    rw [hbHu, Bool.and_eq_true] at h
    refine ⟨?_, hfree h.1⟩
    have hjust : (s.playerList t).justDoOper = .newCard := by
      refine hz.resolve_right fun ⟨hcheck, hpile⟩ => ?_
      have hself := h.2
      simp only [selfHu, isTianHu, hcheck, Bool.not_true, Bool.false_and, Bool.or_false,
        Bool.and_eq_true, List.isEmpty_iff] at hself
      exact hpile hself.1.2
    simp [Table.bZiMo, (hnew t).mpr rfl, hjust]
  obtain ⟨xiangGong, hframe⟩ := offerTurn_frame (opened s) t bHu
  rw [hframe]
  have hopers : ∀ p, ((s.playerGrabMgr.clear.addCanDoItem t
      ((myOffers (opened s) t bHu).map Prod.fst)).setPos t).canGrabMgr.opers p =
      if p = t then sortOpers ((myOffers (opened s) t bHu).map Prod.fst) else [] := by
    intro p
    simp [PlayerGrabMgr.setPos, PlayerGrabMgr.addCanDoItem, PlayerGrabMgr.clear]
  suffices hturn : Turn _ t from ⟨⟨hs.of_same rfl rfl rfl rfl,
    (PlayerGrabMgr.valid_clear.addCanDoItem fun o ho => (mem_myOffers ho).1).setPos,
    Or.inl ⟨t, hturn⟩⟩, hturn⟩
  refine ⟨rfl, hnew, hq, ?_, fun p o ho => ?_, PlayerGrabMgr.chosen_clear.of_done rfl,
    fun o _ _ => ?_, hrest⟩
  · show .play ∈ ((s.playerGrabMgr.clear.addCanDoItem t
      ((myOffers (opened s) t bHu).map Prod.fst)).setPos t).canGrabMgr.opers t
    rw [hopers, if_pos rfl, PlayerGrabMgr.Round.mem_sortOpers]
    simp [myOffers]
  · change o ∈ ((s.playerGrabMgr.clear.addCanDoItem t
      ((myOffers (opened s) t bHu).map Prod.fst)).setPos t).canGrabMgr.opers p at ho
    rw [hopers] at ho
    split_ifs at ho with hp
    · refine ⟨hp, ?_⟩
      rcases (mem_myOffers (PlayerGrabMgr.Round.mem_sortOpers.mp ho)).2 with
        h | h | h | h | ⟨h, hb⟩
      · exact Or.inl h
      · exact Or.inr (Or.inl h)
      · exact Or.inr (Or.inr (Or.inl h))
      · exact Or.inr (Or.inr (Or.inr (Or.inl h)))
      · exact Or.inr (Or.inr (Or.inr (Or.inr ⟨h, hwin hb⟩)))
    · simp at ho
  · show s.playerGrabMgr.clear.doneGrabMgr.opers t = []
    simp [PlayerGrabMgr.clear]

/-- The offers to the seat with the new tile keep the round in one of its phases. -/
lemma checkMyOper_kept (hs : Sound s) (hq : s.isQiangGanging = false)
    (hnew : ∀ p, (s.playerList p).hasNewCard = true ↔ p = t) (hrest : ∀ p, p ≠ t → Rested s p)
    (checkCanGang : Bool)
    (hz : (s.playerList t).justDoOper = .newCard ∨
      (checkCanGang = true ∧ (s.playerList t).pileList ≠ []))
    (hdraw : isPiaoGang s t = true → (s.opHistoryList t).getLast? = some .newCard) :
    Kept (checkMyOper rule s t checkCanGang) := by
  rcases checkMyOper_turn rule hs hq hnew hrest checkCanGang hz with
    ⟨herr, hhu, hgang⟩ | ⟨-, s', hok, hgo, -⟩
  · rw [herr]
    refine ⟨⟨hs.of_same rfl rfl rfl rfl, PlayerGrabMgr.valid_clear, Or.inr (Or.inr fun p => ?_)⟩,
      fun _ => ⟨t, hdraw hgang, hgang, hhu⟩⟩
    simp [opened, PlayerGrabMgr.clear]
  · rw [hok]
    exact Or.inl hgo

/-- A tile to come is one. -/
lemma Sound.takeCard {c : ℕ} {table : Table} (h : Sound s)
    (htake : takeCard s.toTable t = some (c, table)) :
    MJCard.isValid c = true ∧ ∃ wall need, table = { s.toTable with
      mjWall := wall, testPlayerNeedCard := need } ∧ (∀ c ∈ wall, MJCard.isValid c = true) ∧
      ∀ p c, need p = some c → MJCard.isValid c = true := by
  unfold Mahjong.takeCard at htake
  cases hneed : s.testPlayerNeedCard t with
  | some c' =>
    simp only [hneed, Option.some.injEq, Prod.mk.injEq] at htake
    obtain ⟨rfl, rfl⟩ := htake
    refine ⟨h.asked t c' hneed, s.mjWall, _, rfl, h.wall, fun p c hc => ?_⟩
    rw [Function.update_apply] at hc
    split_ifs at hc
    exact h.asked p c hc
  | none =>
    simp only [hneed] at htake
    cases hwall : s.mjWall with
    | nil => simp [hwall, getFrontCard] at htake
    | cons c' wall =>
      simp only [hwall, getFrontCard, Option.map_some, Option.some.injEq, Prod.mk.injEq] at htake
      obtain ⟨rfl, rfl⟩ := htake
      have hv := h.wall
      rw [hwall] at hv
      exact ⟨hv c' (by simp), wall, _, rfl, fun c hc => hv c (by simp [hc]), h.asked⟩

/-- The state in which a seat has drawn the tile `c`. -/
def drawn (s : Game) (table : Table) (t : Seat) (c : ℕ) : Game :=
  ({ s with toTable := { table with
    playerGrabMgr := table.playerGrabMgr.setPos t
    mjCancelMgr := table.mjCancelMgr.clearPos t } }.setPlayer t
      ((table.playerList t).addNewCard c)).record t

lemma giveNewCard_eq {c : ℕ} {table : Table} (htake : takeCard s.toTable t = some (c, table)) :
    giveNewCard rule s t = checkMyOper rule (drawn s table t c) t false := by
  simp only [giveNewCard, htake]
  rfl

/-- What drawing a tile changes. -/
lemma drawn_frame {c : ℕ} {table : Table} (h : Sound s)
    (htake : takeCard s.toTable t = some (c, table)) :
    MJCard.isValid c = true ∧ ∃ wall need grab cancel, drawn s table t c = { s with
      mjWall := wall
      testPlayerNeedCard := need
      playerGrabMgr := grab
      mjCancelMgr := cancel
      playerList := Function.update s.playerList t
        { s.playerList t with justDoOper := .newCard, newCard := c }
      opHistoryList := Function.update s.opHistoryList t (s.opHistoryList t ++ [.newCard]) } ∧
      (∀ c ∈ wall, MJCard.isValid c = true) ∧
      ∀ p c, need p = some c → MJCard.isValid c = true := by
  obtain ⟨hv, wall, need, rfl, hwall, hneed⟩ := h.takeCard htake
  have hadd := ((h.held t).addNewCard hv).2
  refine ⟨hv, wall, need, s.playerGrabMgr.setPos t, s.mjCancelMgr.clearPos t, ?_, hwall, hneed⟩
  simp only [drawn, Game.setPlayer, Table.setPlayer, Game.record, hadd, Function.update_self]

/-- The state in which a seat has drawn a tile between two turns. -/
lemma Idle.drawn {c : ℕ} {table : Table} (hi : Idle s t)
    (htake : takeCard s.toTable t = some (c, table)) :
    Sound (drawn s table t c) ∧ (drawn s table t c).isQiangGanging = false ∧
      (∀ p, ((drawn s table t c).playerList p).hasNewCard = true ↔ p = t) ∧
      (∀ p, p ≠ t → Rested (drawn s table t c) p) ∧
      ((drawn s table t c).playerList t).justDoOper = .newCard ∧
      (drawn s table t c).opHistoryList t = s.opHistoryList t ++ [.newCard] := by
  obtain ⟨hv, wall, need, grab, cancel, hframe, hwall, hneed⟩ := drawn_frame hi.toSound htake
  have hplayer : ∀ p, (Tongxiang.drawn s table t c).playerList p = if p = t then
      { s.playerList t with justDoOper := .newCard, newCard := c } else s.playerList p := by
    intro p
    rw [hframe]
    exact Function.update_apply _ _ _ _
  have hhist : ∀ p, (Tongxiang.drawn s table t c).opHistoryList p = if p = t then
      s.opHistoryList t ++ [.newCard] else s.opHistoryList p := by
    intro p
    rw [hframe]
    exact Function.update_apply _ _ _ _
  have hheld := (hi.held t).addNewCard hv
  rw [hheld.2] at hheld
  refine ⟨⟨?_, fun p => ?_, ?_, ?_⟩, ?_, fun p => ?_, fun p hp => ?_, ?_, ?_⟩
  · rw [hframe]
    exact hi.going
  · rw [hplayer]
    split_ifs
    · exact hheld.1
    · exact hi.held p
  · rw [hframe]
    exact hwall
  · rw [hframe]
    exact hneed
  · rw [hframe]
    exact hi.quiet
  · rw [hplayer]
    by_cases hp : p = t
    · simp only [hp, if_true, iff_true]
      exact MJPlayer.hasNewCard_of_isValid hv
    · simp [hp, hi.newCard p]
  · have hrest := hi.rested p hp
    unfold Rested
    rw [hhist, if_neg hp]
    exact hrest
  · rw [hplayer, if_pos rfl]
  · rw [hhist, if_pos rfl]

/-- A draw ends the round, or stops in the evaluation of the hand, or gives its seat the turn. -/
lemma giveNewCard_cases (hi : Idle s t) :
    (takeCard s.toTable t = none ∧ giveNewCard rule s t = .ok (s.gotoNextState .liuJu)) ∨
    ∃ c table, takeCard s.toTable t = some (c, table) ∧
      ((giveNewCard rule s t = .error (.describe, opened (drawn s table t c)) ∧
          ((drawn s table t c).playerList t).canSelfHu [s.baiDa] = true ∧
          isPiaoGang (drawn s table t c) t = true) ∨
        ((((drawn s table t c).playerList t).canSelfHu [s.baiDa] = true →
            isPiaoGang (drawn s table t c) t = false) ∧
          ∃ s', giveNewCard rule s t = .ok s' ∧ Going s' ∧ Turn s' t)) := by
  cases htake : takeCard s.toTable t with
  | none =>
    left
    simp only [giveNewCard, htake, true_and]
  | some r =>
    right
    obtain ⟨c, table⟩ := r
    obtain ⟨hs, hq, hnew, hrest, hjust, -⟩ := hi.drawn htake
    refine ⟨c, table, rfl, ?_⟩
    rw [giveNewCard_eq rule htake]
    exact checkMyOper_turn rule hs hq hnew hrest false (Or.inl hjust)

/-- A draw gives its seat the turn, or ends the round, or stops. -/
lemma giveNewCard_kept (hi : Idle s t) : Kept (giveNewCard rule s t) := by
  cases htake : takeCard s.toTable t with
  | none =>
    simp only [giveNewCard, htake]
    exact Or.inr rfl
  | some r =>
    obtain ⟨c, table⟩ := r
    obtain ⟨hs, hq, hnew, hrest, hjust, hhist⟩ := hi.drawn htake
    rw [giveNewCard_eq rule htake]
    refine checkMyOper_kept rule hs hq hnew hrest false (Or.inl hjust) fun _ => ?_
    rw [hhist, List.getLast?_concat]

end Draw

/-! ### Claims -/

section Claims

variable {s s' : Game} {t : Seat} {b : ℕ} {bGrabGang : Bool} {l : List Seat} {r : Bool × Table}

/-- Every claim is among the operations of the manager. -/
lemma mem_operLevel_of_claims {p : Seat} {x : Oper × List ℕ} (h : x ∈ claims s t b bGrabGang p) :
    x.1 ∈ operLevel := by
  obtain ⟨o, l⟩ := x
  rcases (mem_claims h).2 with ⟨rfl, -⟩ | ⟨-, ⟨rfl, -⟩ | ⟨rfl, -⟩ | ⟨-, hchi⟩⟩
  · simp [operLevel]
  · simp [operLevel]
  · simp [operLevel]
  · rcases isChi_of_mem_getCanChiType hchi with rfl | rfl | rfl <;> simp [operLevel]

/-- The offers made to the seats `l` on the tile `b` of the seat `t`. -/
lemma offered_claim (hnew : ∀ p, (s.playerList p).hasNewCard = false)
    (hv : MJCard.isValid b = true) (hl : ∀ p ∈ l, p ≠ t) (hnodup : l.Nodup)
    (hoff : Offered (claims s t b bGrabGang) s.piaoHuaPos l (false, cleared s t) r)
    (info : Option Seat) (hrob : bGrabGang = true → info = some t)
    (hrest : ∀ p, bGrabGang = false ∨ p ≠ t → Rested s p)
    (hs' : s' = { s with toTable :=
      { r.2 with isQiangGanging := bGrabGang, qiangGangInfo := info } }) :
    s'.playerGrabMgr.Valid ∧ Claim s' t b := by
  subst hs'
  have hplayers : r.2.playerList = s.playerList := by
    rw [hoff.frame]
    rfl
  have hmulti : r.2.multiHuPos =
      l.filter fun p => .hu ∈ (claims s t b bGrabGang p).map Prod.fst := by
    rw [hoff.frame]
    exact List.nil_append _
  have hopen : ∀ p, ∀ o ∈ r.2.playerGrabMgr.canGrabMgr.opers p, p ∈ l ∧
      ((∃ l', (o, l') ∈ claims s t b bGrabGang p) ∨ o = .cancel) := by
    intro p o ho
    rw [hoff.opers] at ho
    split_ifs at ho with h
    · exact ⟨h.1, mem_operList (PlayerGrabMgr.Round.mem_sortOpers.mp ho)⟩
    · simp [cleared, PlayerGrabMgr.setPos, PlayerGrabMgr.clear] at ho
  refine ⟨hoff.valid (fun _ _ => mem_operLevel_of_claims) PlayerGrabMgr.valid_clear.setPos,
    hoff.pos, hv, ?_, ⟨?_, ?_⟩, ?_, ?_, ?_, ?_, hrest, hrob⟩
  · intro p
    show (r.2.playerList p).hasNewCard = false
    rw [hplayers]
    exact hnew p
  · show t ∉ r.2.multiHuPos
    rw [hmulti, List.mem_filter]
    exact fun h => hl t h.1 rfl
  · show r.2.multiHuPos.Nodup
    rw [hmulti]
    exact hnodup.filter _
  · intro p o ho
    obtain ⟨hp, ⟨l', hmem⟩ | rfl⟩ := hopen p o ho
    · right
      rcases (mem_claims hmem).2 with ⟨rfl, -⟩ | ⟨hgrab, htake⟩
      · left
        refine ⟨rfl, ?_⟩
        show p ∈ r.2.multiHuPos
        rw [hmulti, List.mem_filter]
        exact ⟨hp, decide_eq_true (List.mem_map_of_mem hmem)⟩
      · right
        refine ⟨hgrab, hl p hp, ?_⟩
        show (o = .mg ∧ (r.2.playerList p).canGang b = true) ∨
          (o = .peng ∧ (r.2.playerList p).canPeng b = true) ∨
          (p = t + 1 ∧ o ∈ (r.2.playerList p).getCanChiType b)
        rw [hplayers]
        exact htake
    · exact Or.inl rfl
  · intro p o ho hne map l' hmap hl'
    obtain ⟨hp, -⟩ := hopen p o ho
    change r.2.playerCanDoMap p = some map at hmap
    have hmap' : r.2.playerCanDoMap p = some { CanDoMap.ofOffers (withCancel
        (claims s t b bGrabGang p)) with
        operList := some (operList (claims s t b bGrabGang) s.piaoHuaPos p) } := by
      rw [hoff.frame]
      exact if_pos hp
    rw [hmap'] at hmap
    obtain rfl := Option.some.inj hmap
    rcases mem_withCancel (CanDoMap.mem_of_cards_ofOffers hl') with h | h
    · exact (mem_claims h).1
    · exact absurd (congrArg Prod.fst h) hne
  · exact PlayerGrabMgr.chosen_clear.of_done hoff.done
  · intro p o ho
    show r.2.playerGrabMgr.doneGrabMgr.opers p = []
    rw [hoff.done]
    simp [cleared, PlayerGrabMgr.setPos, PlayerGrabMgr.clear]

end Claims

end Tongxiang
