import JsmjServer.Nanjing.GamePlaying
import JsmjServer.Mahjong.Winners

set_option relaxedAutoImplicit false
set_option autoImplicit false

/-!
# The winners of a round of nanjing mahjong

As in hongzhong mahjong, `doHu` counts all seats of `multiHuPos` as winners, unless the winner has
drawn the tile. Here a seat may also win on a discarded tile, and with the tiles left after a peng,
by declaration or automatically: then `multiHuPos` is left over from the tile of the peng.

## Main definitions

* `Nanjing.TimelyEvent` — the condition on the events of a run.

## Main results

* `Nanjing.onClientMsg_kept`, `Nanjing.buHua_kept` — such an event keeps the invariant, or ends the
  round rightly.
* `Nanjing.winners_of_timely` — so do whole runs.
-/

namespace Nanjing

open Mahjong

/-- The tiles still to come are valid. -/
def Legal (s : Table) : Prop :=
  (∀ c ∈ s.mjWall, MJCard.isValid c = true) ∧
    ∀ p c, s.testPlayerNeedCard p = some c → MJCard.isValid c = true

lemma Legal.of_same {s s' : Table} (h : Legal s) (hwall : s'.mjWall = s.mjWall)
    (hneed : s'.testPlayerNeedCard = s.testPlayerNeedCard) : Legal s' := by
  unfold Legal
  rw [hwall, hneed]
  exact h

/-- The round goes on with fair offers and valid tiles. -/
structure Going (s : Table) : Prop extends s.Fair where
  legal : Legal s

/-- The round goes on, or it is drawn, or won by declaration. -/
def Kept (s : Table) : Prop :=
  Going s ∨ ∃ a, s.endArgs = some a ∧ (a.isLiuJu = true ∨ s.WonByDeclaration a)

lemma Kept.fine {s : Table} (h : Kept s) : s.Fine := h.imp_left fun hgo => hgo.toFair

/-! ### The table of offers -/

section Clear

variable {s : Table} {q : Seat}

/-- Clearing empties entries and makes none disappear. -/
lemma clearAllCanDoMap_entry (s : Table) (q : Seat) :
    (clearAllCanDoMap s).playerCanDoMap q = some .empty ∨
      (clearAllCanDoMap s).playerCanDoMap q = s.playerCanDoMap q := by
  show ite _ _ _ = _ ∨ ite _ _ _ = _
  split_ifs
  · exact Or.inl rfl
  · exact Or.inr rfl

lemma isSome_clearAllCanDoMap (h : (s.playerCanDoMap q).isSome) :
    ((clearAllCanDoMap s).playerCanDoMap q).isSome := by
  rcases clearAllCanDoMap_entry s q with hq | hq <;> rw [hq]
  · rfl
  · exact h

/-- When no entry is missing, all are emptied. -/
lemma clearAllCanDoMap_of_full (h : ∀ q, (s.playerCanDoMap q).isSome) (q : Seat) :
    (clearAllCanDoMap s).playerCanDoMap q = some .empty := by
  have hcount : canDoCount s = 4 := by
    have hall : seats.takeWhile (fun pos => (s.playerCanDoMap pos).isSome) = seats :=
      List.takeWhile_eq_self_iff.mpr fun p _ => h p
    unfold canDoCount
    rw [hall]
    rfl
  refine if_pos ?_
  rw [hcount]
  exact q.isLt

/-- An offer to win is not made by clearing. -/
lemma huOffered_of_clearAllCanDoMap {l : List ℕ} (h : (clearAllCanDoMap s).HuOffered q l) :
    s.HuOffered q l ∧ (clearAllCanDoMap s).playerCanDoMap q ≠ some .empty := by
  have hne : (clearAllCanDoMap s).playerCanDoMap q ≠ some .empty := by
    intro hempty
    have htiles := h.2
    rw [hempty] at htiles
    exact absurd htiles (by simp [CanDoMap.empty])
  refine ⟨⟨h.1, ?_⟩, hne⟩
  rw [← (clearAllCanDoMap_entry s q).resolve_left hne]
  exact h.2

lemma clearAllCanDoMap_fair (h : s.Fair) : (clearAllCanDoMap s).Fair := by
  refine ⟨h.going, h.valid, h.chosen, h.free, h.placed,
    fun q hq => isSome_clearAllCanDoMap (h.mapped q hq),
    fun hm q => isSome_clearAllCanDoMap (h.full hm q), ?_⟩
  intro q l hq
  obtain ⟨hoff, hne⟩ := huOffered_of_clearAllCanDoMap hq
  rcases h.fair q l hoff with hn | ⟨hmem, -⟩
  · exact Or.inl hn
  · exact absurd (clearAllCanDoMap_of_full (h.full (List.ne_nil_of_mem hmem)) q) hne

end Clear

/-! ### Offers and draws -/

section Draw

variable (gameProgress : GameProgress) {s : Table} {t p : Seat} {b : ℕ}

lemma liuJu_kept (s : Table) : Kept (s.gotoNextState .liuJu) := Or.inr ⟨.liuJu, rfl, Or.inl rfl⟩

/-- A win of a seat that is the only winner. -/
lemma doHu_single (s : Table) (c : ℕ) (h : s.bZiMo t = true ∨ s.multiHuPos = [t]) :
    Kept (doHu s t c) := by
  refine Or.inr ⟨_, rfl, Or.inr ?_⟩
  apply Table.wonByDeclaration_single rfl rfl
  show (if s.bZiMo t then [t] else s.multiHuPos) = [t]
  split_ifs with hz
  · rfl
  · exact h.resolve_left hz

lemma mem_myOffers {countHuType : CountHuType} {player : MJPlayer} {checkOp : Bool} {o : Oper}
    (h : o ∈ (myOffers countHuType player checkOp).map Prod.fst) : o ∈ operLevel := by
  obtain ⟨⟨o, l⟩, hmem, rfl⟩ := List.mem_map.mp h
  have hoffers : ∀ {offers : List (Oper × List ℕ)}, (∀ x ∈ offers, x.1 ∈ operLevel) →
      (o, l) ∈ (if selfHu countHuType player then offers else withCancel offers) →
      o ∈ operLevel := by
    intro offers hall hx
    split_ifs at hx
    · exact hall _ hx
    · rcases mem_withCancel hx with hx | hx
      · exact hall _ hx
      · rw [Prod.mk.injEq] at hx
        rw [hx.1]
        decide
  rw [myOffers, List.mem_cons] at hmem
  rcases hmem with hmem | hmem
  · rw [Prod.mk.injEq] at hmem
    rw [hmem.1]
    simp [operLevel]
  · refine hoffers ?_ hmem
    intro x hx
    simp only [List.mem_append] at hx
    rcases hx with (hx | hx) | hx <;> split_ifs at hx <;> simp only [List.mem_singleton,
      List.not_mem_nil] at hx <;> rw [hx] <;> simp [operLevel]

/-- The offers to the seat whose turn it is, where an automatic win needs that the seat has drawn
its tile or is alone in `multiHuPos`. -/
lemma checkMyOper_kept (h : Going s) (checkOp : Bool)
    (hauto : (gameProgress.countHuType t none).isAutoHu = true →
      (s.playerList t).hasNewCard = true → s.bZiMo t = true ∨ s.multiHuPos = [t]) :
    Kept (checkMyOper gameProgress s t checkOp) := by
  have hclear := clearAllCanDoMap_fair h.toFair
  unfold checkMyOper
  dsimp only
  by_cases hn : (s.playerList t).hasNewCard = true
  · have hn' : ¬((clearAllCanDoMap s).playerList t).hasNewCard = false := by
      show ¬(s.playerList t).hasNewCard = false
      simp [hn]
    rw [if_neg hn']
    split_ifs with hauto'
    · exact doHu_single _ _ (hauto hauto' hn)
    · refine Or.inl ⟨?_, h.legal⟩
      exact Table.turn_fair _ hclear.going hn (fun o ho => mem_myOffers ho) hclear.full
  · have hn' : ((clearAllCanDoMap s).playerList t).hasNewCard = false := by
      show (s.playerList t).hasNewCard = false
      simpa using hn
    rw [if_pos hn']
    exact Or.inl ⟨hclear, h.legal⟩

lemma takeCard_legal {s' : Table} {c : ℕ} (h : Legal s) (htake : takeCard s t = some (c, s')) :
    MJCard.isValid c = true ∧ Legal s' := by
  unfold takeCard at htake
  cases hneed : s.testPlayerNeedCard t with
  | some c' =>
    simp only [hneed, Option.some.injEq, Prod.mk.injEq] at htake
    obtain ⟨rfl, rfl⟩ := htake
    refine ⟨h.2 t c' hneed, h.1, fun p c hp => ?_⟩
    by_cases hpt : p = t
    · simp [hpt] at hp
    · exact h.2 p c (by simpa [hpt] using hp)
  | none =>
    simp only [hneed, Option.map_eq_some_iff, Prod.mk.injEq] at htake
    obtain ⟨r, hr, rfl, rfl⟩ := htake
    cases hwall : s.mjWall with
    | nil => simp [hwall, getFrontCard] at hr
    | cons c wall =>
      simp only [hwall, getFrontCard, Option.some.injEq] at hr
      obtain rfl := hr
      refine ⟨h.1 c (by simp [hwall]), fun c' hc' => h.1 c' ?_, h.2⟩
      rw [hwall]
      exact List.mem_cons_of_mem c hc'

/-- A draw, whatever hand the seat has: the tile it draws is valid. -/
lemma giveNewCard_setPlayer (h : Going s) (player : MJPlayer) :
    Kept (giveNewCard gameProgress (s.setPlayer t player) t) := by
  unfold giveNewCard
  split_ifs
  · exact liuJu_kept _
  cases hcard : takeCard (s.setPlayer t player) t with
  | none => exact liuJu_kept _
  | some r =>
    obtain ⟨c, s₁⟩ := r
    obtain ⟨hvalid, hlegal⟩ := takeCard_legal (s := s.setPlayer t player) h.legal hcard
    obtain ⟨wall, need, rfl⟩ := takeCard_frame hcard
    dsimp only
    set player' : MJPlayer := { ((s.setPlayer t player).playerList t).addNewCard c with
      justDoOper := .newCard } with hplayer'
    have hnew : player'.hasNewCard = true := by
      have hadd : ((s.setPlayer t player).playerList t).addNewCard c =
          { (s.setPlayer t player).playerList t with justDoOper := .newCard, newCard := c } :=
        if_pos hvalid
      rw [hplayer', hadd]
      simpa [MJPlayer.hasNewCard] using MJPlayer.ne_kCardNull_of_isValid hvalid
    set s₂ : Table := Table.setPlayer { s.setPlayer t player with
      mjWall := wall
      testPlayerNeedCard := need
      playerGrabMgr := (s.setPlayer t player).playerGrabMgr.setPos t
      mjCancelMgr := (s.setPlayer t player).mjCancelMgr.clearSeat t } t player' with hs₂
    have hplayers : s₂.playerList t = player' := Function.update_self _ _ _
    have hfair : s₂.Fair := by
      refine h.toFair.of_same rfl rfl rfl (fun _ => Option.some_ne_none t) rfl rfl fun q _ hn => ?_
      by_cases hq : q = t
      · rw [hq, hplayers]
        exact hnew
      · have hsame : s₂.playerList q = s.playerList q := by
          show Function.update (Function.update s.playerList t player) t player' q = _
          rw [Function.update_of_ne hq, Function.update_of_ne hq]
        rw [hsame]
        exact hn
    split_ifs
    · exact Or.inl ⟨hfair.of_same rfl rfl rfl id rfl rfl fun _ _ => id, hlegal⟩
    · refine checkMyOper_kept gameProgress ⟨hfair, hlegal⟩ true fun _ _ => Or.inl ?_
      unfold Table.bZiMo
      rw [hplayers, hnew]
      rfl

lemma giveNewCard_kept (h : Going s) : Kept (giveNewCard gameProgress s t) := by
  have heta : s.setPlayer t (s.playerList t) = s := by
    show { s with playerList := Function.update s.playerList t (s.playerList t) } = s
    rw [Function.update_eq_self]
  have hgive := giveNewCard_setPlayer gameProgress (t := t) h (s.playerList t)
  rwa [heta] at hgive

/-- The exchange of a flower. -/
lemma buHua_kept (h : Going s) : Kept (buHua gameProgress s t) := by
  unfold buHua
  dsimp only
  split_ifs
  · exact giveNewCard_setPlayer gameProgress h _
  · exact Or.inl h

end Draw

/-! ### Claims on a tile -/

section Claims

variable (gameProgress : GameProgress) {s : Table} {t p : Seat} {b : ℕ}

lemma mem_claims {pos : Seat} {bGrabGang : Bool} {o : Oper} {l : List ℕ}
    (h : (o, l) ∈ claims gameProgress s t pos b bGrabGang) : l = [b] ∧ o ∈ operLevel := by
  simp only [claims, List.mem_append] at h
  rcases h with (h | h) | h <;> split_ifs at h <;>
    simp only [List.not_mem_nil, List.mem_singleton, Prod.mk.injEq] at h <;>
    exact ⟨h.2, by rw [h.1]; decide⟩

/-- A seat that may win on another's tile has no new tile. -/
lemma hasNewCard_of_otherHu (h : otherHu gameProgress s t p b = true) :
    (s.playerList p).hasNewCard = false := by
  simp only [otherHu, MJPlayer.canHu, MJPlayer.canHuQiDui, Bool.and_eq_true, Bool.or_eq_true,
    Bool.not_eq_true'] at h
  rcases h.1.2 with hhu | hhu
  · exact hhu.1
  · exact hhu.1

lemma offersHu_iff {bGrabGang : Bool} :
    Table.offersHu (fun pos => claims gameProgress s t pos b bGrabGang) p = true ↔
      otherHu gameProgress s t p b = true := by
  simp only [Table.offersHu, decide_eq_true_eq]
  constructor
  · intro h
    obtain ⟨⟨o, l⟩, hmem, ho⟩ := List.mem_map.mp h
    obtain rfl : o = .hu := ho
    rcases mem_withCancel hmem with hx | hx
    · simp only [claims, List.mem_append] at hx
      rcases hx with (hx | hx) | hx <;> split_ifs at hx with hcond <;> simp at hx
      exact hcond
    · simp at hx
  · intro h
    refine List.mem_map.mpr ⟨(.hu, [b]), ?_, rfl⟩
    refine List.mem_append_left _ ?_
    simp [claims, h]

/-- The offers of a tile, and the seat that wins on it automatically. -/
lemma checkOtherOper_fair (hgo : s.endArgs = none) (ht : (s.playerCanDoMap t).isSome) (b : ℕ)
    (bGrabGang : Bool) :
    (∃ s', checkOtherOper gameProgress s t b bGrabGang = .error s' ∧ s'.Fair ∧
        (Legal s → Legal s')) ∨
      ∃ c, checkOtherOper gameProgress s t b bGrabGang = .ok c ∧ c.2.2.Fair ∧
        (Legal s → Legal c.2.2) ∧
        ∀ p, c.2.1 = some p → c.2.2.HuOffered p [b] ∧ c.2.2.Timely p := by
  set s₀ : Table := { clearAllCanDoMap s with
    playerGrabMgr := s.playerGrabMgr.clear.setPos t, multiHuPos := [] } with hs₀
  have hstops : ∀ p q, canHuStops gameProgress s₀ t b p = false →
      canHuStops gameProgress s₀ t b q = true →
      Table.offersHu (fun pos => claims gameProgress s₀ t pos b bGrabGang) p = false := by
    intro p q hp hq
    rw [← Bool.not_eq_true, offersHu_iff]
    intro hhu
    have hnew := hasNewCard_of_otherHu gameProgress hhu
    simp only [canHuStops, Bool.and_eq_true, decide_eq_true_eq] at hq
    simp only [otherHu, Bool.and_eq_true] at hhu
    simp [canHuStops, hnew, hhu.1.1.1, hhu.1.1.2, hq.2] at hp
  have hturn : (s₀.playerCanDoMap t).isSome := isSome_clearAllCanDoMap ht
  set offers := fun pos => claims gameProgress s₀ t pos b bGrabGang with hoffers
  have hhu : ∀ p l, (Oper.hu, l) ∈ offers p → l = [b] := fun p l hl => (mem_claims _ hl).1
  have hfair := Table.offerUntil_fair (s := s₀) (t := t) (b := b) (g := s.playerGrabMgr) hgo rfl rfl
    (fun p x hx => (mem_claims gameProgress hx).2) hhu hstops hturn
  have hcheck : checkOtherOper gameProgress s t b bGrabGang =
      (s₀.offerUntil t (canHuStops gameProgress s₀ t b) offers).map
        fun r => (r.1, autoHuPos gameProgress s₀ t b, r.2) := rfl
  rw [hcheck]
  rcases hfair with ⟨s', herr, hs'⟩ | ⟨hok, hs'⟩
  · rw [herr]
    refine Or.inl ⟨s', rfl, hs', fun hlegal => ?_⟩
    unfold Table.offerUntil at herr
    dsimp only at herr
    split_ifs at herr
    obtain rfl := Except.error.inj herr
    rw [(Table.foldl_offerTo_offered _ _).frame]
    exact hlegal
  · rw [hok]
    have hoff := Table.offerToOthers_offered offers s₀ t
    refine Or.inr ⟨_, rfl, hs', fun hlegal => ?_, fun p hp => ?_⟩
    · dsimp only
      rw [hoff.frame]
      exact hlegal
    · -- the seat is one of those offered to win, and nobody has answered yet
      have hmem := List.mem_of_mem_getLast? hp
      rw [List.mem_filter, Bool.and_eq_true] at hmem
      have hwin := fun q => hoff.huOffered rfl rfl hhu q
      have hmulti : p ∈ (s₀.offerToOthers t offers).2.multiHuPos := by
        rw [hoff.frame]
        exact List.mem_append_right _
          (List.mem_filter.mpr ⟨hmem.1, (offersHu_iff gameProgress).mpr hmem.2.1⟩)
      refine ⟨((hwin p).1 hmulti).1, Or.inr ?_⟩
      have hplayers : (s₀.offerToOthers t offers).2.playerList = s₀.playerList := by
        rw [hoff.frame]
      have hnew := hasNewCard_of_otherHu gameProgress hmem.2.1
      rw [← hplayers] at hnew
      show ite (((s₀.offerToOthers t offers).2.playerList p).hasNewCard = true) _ _
      rw [if_neg (by simp [hnew])]
      exact fun q hq _ => ((hwin q).1 hq).2

/-- An automatic win on another seat's tile. -/
lemma autoHu_kept (h : Going s) {pos : Option Seat}
    (hpos : ∀ p, pos = some p → s.HuOffered p [b] ∧ s.Timely p) : Kept (autoHu s pos b) := by
  cases pos with
  | none => exact Or.inl h
  | some p =>
    obtain ⟨hoff, htimely⟩ := hpos p rfl
    exact Or.inr ⟨_, rfl, Or.inr
      (h.toFair.won hoff (by simp) htimely rfl (fun _ _ => rfl) rfl rfl rfl)⟩

end Claims

/-! ### The prevailing choice -/

section Moves

variable (gameProgress : GameProgress) {s : Table} {p : Seat}

/-- A peng may be followed by an automatic win, which needs that the seat is alone in
`multiHuPos`. -/
lemma doPeng_kept (h : Going s) (hp : ¬s.Unanswered p) (b : ℕ) (grabedPos : Seat)
    (hauto : (gameProgress.countHuType p none).isAutoHu = true → s.multiHuPos = [p]) :
    Kept (doPeng gameProgress s p b grabedPos).2 ∧
      ((doPeng gameProgress s p b grabedPos).1 = false →
        Going (doPeng gameProgress s p b grabedPos).2) := by
  unfold doPeng
  dsimp only
  split_ifs
  · refine ⟨?_, by simp⟩
    apply checkMyOper_kept
    · exact ⟨(h.toFair.setPlayer hp _).of_same rfl rfl rfl id rfl rfl fun _ _ => id, h.legal⟩
    · exact fun hwin _ => Or.inr (hauto hwin)
  · exact ⟨Or.inl h, fun _ => h⟩

lemma doGang_kept (h : Going s) (b : ℕ) (grabedPos : Seat) :
    Kept (doGang gameProgress s p b grabedPos).2 ∧
      ((doGang gameProgress s p b grabedPos).1 = false →
        Going (doGang gameProgress s p b grabedPos).2) := by
  unfold doGang
  dsimp only
  split_ifs
  · refine ⟨?_, by simp⟩
    have hriver : Going (s.setRiver grabedPos (MJRiver.popCard (s.riverCardList grabedPos))) :=
      ⟨h.toFair.of_same rfl rfl rfl id rfl rfl fun _ _ => id, h.legal⟩
    exact giveNewCard_setPlayer gameProgress hriver _
  · exact ⟨Or.inl h, fun _ => h⟩

lemma doAnGang_kept (h : Going s) (b : ℕ) (grabedPos : Seat) :
    Kept (doAnGang gameProgress s p b grabedPos) := by
  unfold doAnGang
  dsimp only
  split_ifs
  · exact giveNewCard_setPlayer gameProgress h _
  · exact Or.inl h

lemma doMXGang_kept (h : Going s) (hp : ¬s.Unanswered p) (b : ℕ) :
    Kept (Handled.state (doMXGang gameProgress s p b)) := by
  unfold doMXGang
  dsimp only
  split_ifs
  · set s₁ := s.setPlayer p ((s.playerList p).doMXGang b).2 with hs₁
    have hgo : s₁.endArgs = none := h.going
    have hmap : (s₁.playerCanDoMap p).isSome := h.mapped p (Or.inr hp)
    have hlegal : Legal s₁ := h.legal
    rcases checkOtherOper_fair gameProgress hgo hmap b true with
      ⟨s', herr, hs', hl⟩ | ⟨c, hok, hc, hl, hauto⟩
    · rw [herr]
      exact Or.inl ⟨hs', hl hlegal⟩
    · rw [hok]
      show Kept (if c.1 then autoHu _ c.2.1 b else giveNewCard gameProgress c.2.2 p)
      split_ifs
      · apply autoHu_kept
        · exact ⟨hc.of_same rfl rfl rfl id rfl rfl fun _ _ => id, hl hlegal⟩
        · exact hauto
      · exact giveNewCard_kept gameProgress ⟨hc, hl hlegal⟩
  · exact Or.inl h

/-- A tile is played, and nothing is offered yet. -/
lemma discard_fair (h : s.Fair) (ho : .play ∈ s.playerGrabMgr.canGrabMgr.opers p) (b : ℕ)
    (player : MJPlayer) : (discard s p b player).Fair := by
  rw [discard_eq (h.mapped p (Or.inl (List.ne_nil_of_mem ho)))]
  set s₁ : Table := { s with
    playerGrabMgr := (s.playerGrabMgr.playerDoGrab p .play (some b)).2
    playerCanDoMap := Function.update s.playerCanDoMap p (some .empty) } with hs₁
  have hfair : s₁.Fair := by
    refine h.choose ho (by decide) b rfl rfl (fun q hq => Function.update_of_ne hq _ _) ?_ rfl rfl
    rw [hs₁]
    simp
  have hans : ¬s₁.Unanswered p := PlayerGrabMgr.opers_playerDoGrab_ne_nil ho
  exact (hfair.setPlayer hans player).of_same rfl rfl rfl id rfl rfl fun q _ hn => hn

lemma onPlayCard_kept (h : Going s) (pos : Seat) (card : Option ℕ) :
    Kept (Handled.state (onPlayCard gameProgress s pos card)) := by
  unfold onPlayCard
  cases card with
  | none => exact Or.inl h
  | some b =>
    dsimp only
    by_cases hhas : s.playerGrabMgr.hasOper pos .play = true
    · rw [hhas, Bool.not_true, if_neg (by simp)]
      have hplay := PlayerGrabMgr.hasOper_iff.mp hhas
      set player := ((s.playerList pos).doPlayCard b).2
      have hfair := discard_fair h.toFair hplay b player
      have hlegal : Legal (discard s pos b player) := by
        rw [discard_eq (h.mapped pos (Or.inl (List.ne_nil_of_mem hplay)))]
        exact h.legal
      have hmap : ((discard s pos b player).playerCanDoMap pos).isSome := by
        rw [discard_eq (h.mapped pos (Or.inl (List.ne_nil_of_mem hplay)))]
        simp
      split_ifs
      · exact Or.inl h
      · exact Or.inl ⟨hfair, hlegal⟩
      · rcases checkOtherOper_fair gameProgress hfair.going hmap b false with
          ⟨s', herr, hs', hl⟩ | ⟨c, hok, hc, hl, hauto⟩
        · rw [herr]
          exact Or.inl ⟨hs', hl hlegal⟩
        · rw [hok]
          show Kept (if !c.1 then giveNewCard gameProgress c.2.2 (nextPlayerPos pos)
            else autoHu c.2.2 c.2.1 b)
          split_ifs
          · exact giveNewCard_kept gameProgress ⟨hc, hl hlegal⟩
          · exact autoHu_kept ⟨hc, hl hlegal⟩ hauto
    · rw [Bool.not_eq_true] at hhas
      rw [hhas, Bool.not_false, if_pos rfl]
      exact Or.inl h

lemma cancelEnd_kept (h : Going s) (pos grabedPos : Seat) :
    Kept (Handled.state (cancelEnd gameProgress s pos grabedPos)) := by
  unfold cancelEnd
  split_ifs
  · cases s.qiangGangInfo with
    | none => exact Or.inl h
    | some tPos =>
      apply giveNewCard_kept
      exact ⟨h.toFair.of_same rfl rfl rfl id rfl rfl fun _ _ => id, h.legal⟩
  · cases s.playerCanDoMap pos with
    | none => exact Or.inl h
    | some map =>
      dsimp only
      split_ifs
      · exact Or.inl h
      · exact giveNewCard_kept gameProgress h

/-- A choice other than to win is carried out. -/
lemma grabEnd_kept (h : Going s)
    (hauto : ∀ q, (gameProgress.countHuType q none).isAutoHu = true →
      .peng ∈ s.playerGrabMgr.doneGrabMgr.opers q → s.multiHuPos = [q]) :
    Kept (Handled.state (grabEnd gameProgress s)) := by
  unfold grabEnd
  cases hpos : s.playerGrabMgr.pos with
  | none => exact Or.inl h
  | some grabedPos =>
    dsimp only
    cases hnode : s.playerGrabMgr.getPowestNode with
    | none => exact giveNewCard_kept gameProgress h
    | some node =>
      obtain ⟨o, c, hdone, ho, hcard, hne⟩ := h.toFair.node hnode
      have hans : ¬s.Unanswered node.pos := by simp [Table.Unanswered, hdone]
      dsimp only
      rw [ho, hcard, List.head?_cons]
      cases o with
      | hu => exact absurd rfl hne
      | cancel => exact cancelEnd_kept gameProgress h _ _
      | peng =>
        dsimp only
        have hkept := doPeng_kept gameProgress h hans c grabedPos
          fun hwin => hauto node.pos hwin (by simp [hdone])
        split_ifs with hdo
        · exact hkept.1
        · exact giveNewCard_kept gameProgress (hkept.2 (by simpa using hdo))
      | mg =>
        dsimp only
        have hkept := doGang_kept gameProgress (p := node.pos) h c grabedPos
        split_ifs with hdo
        · exact hkept.1
        · exact giveNewCard_kept gameProgress (hkept.2 (by simpa using hdo))
      | ag => exact doAnGang_kept gameProgress h c grabedPos
      | mxg => exact doMXGang_kept gameProgress h hans c
      | play => exact onPlayCard_kept gameProgress h _ _
      | _ => exact Or.inl h

lemma decideOrWait_kept (h : Going s)
    (hauto : ∀ q, (gameProgress.countHuType q none).isAutoHu = true →
      .peng ∈ s.playerGrabMgr.doneGrabMgr.opers q → s.multiHuPos = [q]) :
    Kept (Handled.state (decideOrWait gameProgress s)) := by
  unfold decideOrWait
  cases s.playerGrabMgr.needWait with
  | none => exact Or.inl h
  | some wait =>
    cases wait with
    | true => exact Or.inl h
    | false => exact grabEnd_kept gameProgress h hauto

end Moves

/-! ### Messages -/

section Messages

variable (gameProgress : GameProgress) {s : Table} {p : Seat} {oper : Oper}

/-- A choice other than to win, after which the entry of the seat is emptied. -/
lemma choose_going {s' : Table} (h : Going s)
    (ho : oper ∈ s.playerGrabMgr.canGrabMgr.opers p) (hne : oper ≠ .hu) (c : ℕ)
    (hs' : s' = clearCanDoMap { s with
      playerGrabMgr := (s.playerGrabMgr.playerDoGrab p oper (some c)).2 } p)
    (cancelMgr : MJCancelMgr) : Going { s' with mjCancelMgr := cancelMgr } := by
  have hsome : (s.playerCanDoMap p).isSome := h.mapped p (Or.inl (List.ne_nil_of_mem ho))
  have hclear : s' = Table.setCanDoMap { s with
      playerGrabMgr := (s.playerGrabMgr.playerDoGrab p oper (some c)).2 } p .empty := by
    rw [hs']
    exact clearCanDoMap_eq hsome
  subst hclear
  refine ⟨h.toFair.choose ho hne c rfl rfl (fun q hq => ?_) ?_ rfl rfl, h.legal⟩
  · exact Function.update_of_ne hq _ _
  · show (Function.update s.playerCanDoMap p (some .empty) p).isSome
    simp

/-- A declared win ends the round at once. -/
lemma decideOrWait_hu {l : List ℕ} {b : ℕ} (h : Going s) (hoff : s.HuOffered p l) (hb : b ∈ l)
    (ht : s.Timely p) :
    Kept (Handled.state (decideOrWait gameProgress (clearCanDoMap { s with
      playerGrabMgr := (s.playerGrabMgr.playerDoGrab p .hu (some b)).2 } p))) := by
  have hsome : (s.playerCanDoMap p).isSome := h.mapped p (Or.inl (List.ne_nil_of_mem hoff.1))
  set s₁ : Table := Table.setCanDoMap { s with
    playerGrabMgr := (s.playerGrabMgr.playerDoGrab p .hu (some b)).2 } p .empty with hs₁
  have hclear : clearCanDoMap { s with
      playerGrabMgr := (s.playerGrabMgr.playerDoGrab p .hu (some b)).2 } p = s₁ :=
    clearCanDoMap_eq hsome
  obtain ⟨hwait, node, hnode, hpos, ho, hcard⟩ := h.toFair.decided hoff.1 b
  obtain ⟨grabedPos, hgrabed⟩ :=
    Option.ne_none_iff_exists'.mp (h.placed p (List.ne_nil_of_mem hoff.1))
  have hgrabed₁ : s₁.playerGrabMgr.pos = some grabedPos :=
    PlayerGrabMgr.pos_playerDoGrab (some b) |>.trans hgrabed
  have hwait₁ : s₁.playerGrabMgr.needWait = some false := hwait
  have hnode₁ : s₁.playerGrabMgr.getPowestNode = some node := hnode
  have hdo : grabEnd gameProgress s₁ = .ok (doHu s₁ p b) := by
    unfold grabEnd
    rw [hgrabed₁]
    dsimp only
    rw [hnode₁]
    dsimp only
    rw [ho, hcard, hpos]
    rfl
  rw [hclear, decideOrWait, hwait₁]
  dsimp only
  rw [hdo]
  refine Or.inr ⟨_, rfl, Or.inr (h.toFair.won hoff hb ht rfl (fun q hq => ?_) rfl rfl rfl)⟩
  exact Function.update_of_ne hq _ _

lemma onGrabCard_kept (h : Going s) (pos : Seat) (card : Option ℕ)
    (ht : oper = .hu → ∀ c l, card = some c → s.HuOffered pos l → c ∈ l → s.Timely pos)
    (hauto : ∀ q, (gameProgress.countHuType q none).isAutoHu = true →
      .peng ∈ s.playerGrabMgr.doneGrabMgr.opers q ∨ q = pos ∧ oper = .peng →
      s.multiHuPos = [q]) :
    Kept (Handled.state (onGrabCard gameProgress s pos oper card)) := by
  unfold onGrabCard
  by_cases hmem : oper ∈ s.playerGrabMgr.canGrabMgr.opers pos
  · rw [PlayerGrabMgr.hasOper_iff.mpr hmem, Bool.not_true, if_neg (by simp)]
    have hsome : (s.playerCanDoMap pos).isSome := h.mapped pos (Or.inl (List.ne_nil_of_mem hmem))
    -- what is recorded after the choice was recorded before, or is the choice
    have hpeng : ∀ c, ∀ q, (gameProgress.countHuType q none).isAutoHu = true →
        .peng ∈ (s.playerGrabMgr.playerDoGrab pos oper (some c)).2.doneGrabMgr.opers q →
        s.multiHuPos = [q] := by
      intro c q hwin hq
      refine hauto q hwin ?_
      rcases PlayerGrabMgr.mem_done_playerDoGrab hq with hold | ⟨hqp, ho⟩
      · exact Or.inl hold
      · exact Or.inr ⟨hqp, ho.symm⟩
    have hclear : ∀ c, clearCanDoMap { s with
        playerGrabMgr := (s.playerGrabMgr.playerDoGrab pos oper (some c)).2 } pos =
        Table.setCanDoMap { s with
          playerGrabMgr := (s.playerGrabMgr.playerDoGrab pos oper (some c)).2 } pos .empty :=
      fun c => clearCanDoMap_eq hsome
    cases hmap : s.playerCanDoMap pos with
    | none => exact Or.inl h
    | some map =>
      dsimp only
      cases hcards : map.cards oper with
      | none => exact Or.inl h
      | some cardList =>
        dsimp only
        split_ifs with hcancel hnew
        · apply decideOrWait_kept
          · exact choose_going h hmem (by rw [hcancel]; decide) 1 rfl _
          · rw [hclear]
            exact hpeng 1
        · apply decideOrWait_kept
          · exact choose_going h hmem (by rw [hcancel]; decide) 1 rfl _
          · rw [hclear]
            exact hpeng 1
        · cases card with
          | none => exact Or.inl h
          | some c =>
            dsimp only
            split_ifs with hc
            · by_cases hhu : oper = .hu
              · subst hhu
                have hoff : s.HuOffered pos cardList := ⟨hmem, by simp [hmap, hcards]⟩
                exact decideOrWait_hu gameProgress h hoff hc (ht rfl c cardList rfl hoff hc)
              · apply decideOrWait_kept
                · exact choose_going h hmem hhu c rfl _
                · rw [hclear]
                  exact hpeng c
            · exact Or.inl h
  · have hhas := PlayerGrabMgr.hasOper_eq_false hmem
    rw [hhas, Bool.not_false, if_pos rfl]
    exact Or.inl h

end Messages

/-! ### Runs -/

/-- The event declares an offered win only in time; and the evaluation lets no seat that takes a
tile by peng win automatically, unless it is alone in `multiHuPos`. -/
def TimelyEvent (s : Table) (e : GameProgress × Event) : Prop :=
  match e.2 with
  | .clientMsg pos pkg =>
    (s.declaresHu pos pkg = true → s.Timely pos) ∧
      ∀ q, (e.1.countHuType q none).isAutoHu = true →
        .peng ∈ s.playerGrabMgr.doneGrabMgr.opers q ∨
          q = pos ∧ Oper.ofCode pkg.operation = some .peng →
        s.multiHuPos = [q]
  | .buHua _ => True

instance (s : Table) (e : GameProgress × Event) : Decidable (TimelyEvent s e) := by
  unfold TimelyEvent
  split <;> infer_instance

section Runs

variable {gameProgress : GameProgress} {s : Table}

/-- Any message, of the debug operation too. -/
lemma onClientMsg_kept (h : Going s) (pos : Seat) (pkg : ClientMsg)
    (ht : TimelyEvent s (gameProgress, .clientMsg pos pkg)) :
    Kept (Handled.state (onClientMsg gameProgress s pos pkg)) := by
  unfold onClientMsg
  cases ho : Oper.ofCode pkg.operation with
  | none => exact Or.inl h
  | some oper =>
    have hgrab : Kept (Handled.state (onGrabCard gameProgress s pos oper
        (fromOld2NowCardByteMap pkg.card_bytes))) := by
      refine onGrabCard_kept gameProgress h pos _ ?_ ?_
      · rintro rfl c l hc hoff hmem
        exact ht.1 (Table.declaresHu_iff ho hc hoff hmem)
      · intro q hwin hq
        refine ht.2 q hwin (hq.imp_right fun hpeng => ⟨hpeng.1, ?_⟩)
        rw [ho, hpeng.2]
    cases oper with
    | play => exact onPlayCard_kept gameProgress h pos _
    | syncData => exact Or.inl h
    | testNeedCard =>
      refine Or.inl ⟨h.toFair.of_same rfl rfl rfl id rfl rfl fun _ _ => id, h.legal.1, ?_⟩
      intro p c hp
      change Function.update s.testPlayerNeedCard pos _ p = some c at hp
      by_cases hpos : p = pos
      · subst hpos
        rw [Function.update_self] at hp
        exact isValid_fromOld2NowCardByteMap hp
      · rw [Function.update_of_ne hpos] at hp
        exact h.legal.2 p c hp
    | _ => exact hgrab

end Runs

/-! ### The deal -/

section Deal

/-- A new tile has been drawn. -/
def Drawn (player : MJPlayer) : Prop := player.hasNewCard = true → player.justDoOper = .newCard

variable {player : MJPlayer} {c : ℕ}

lemma drawn_new : Drawn MJPlayer.new := by
  intro h
  simp [MJPlayer.new, MJPlayer.hasNewCard] at h

lemma Drawn.addNewCard (h : Drawn player) (c : ℕ) : Drawn (player.addNewCard c) := by
  unfold MJPlayer.addNewCard
  split_ifs
  · exact fun _ => rfl
  · exact h

lemma Drawn.addHandCard (h : Drawn player) (c : ℕ) : Drawn (player.addHandCard c) := by
  unfold MJPlayer.addHandCard
  split_ifs
  · exact h
  · exact h

lemma Drawn.delHandCard (h : Drawn player) (c : ℕ) : Drawn (player.delHandCard c).2 := by
  rw [MJPlayer.delHandCard_snd]
  exact h

lemma Drawn.delNewCard (h : Drawn player) (c : ℕ) : Drawn (player.delNewCard c).2 := by
  unfold MJPlayer.delNewCard
  split_ifs
  · intro hn
    simp [MJPlayer.hasNewCard] at hn
  · exact h

/-- Dealing a hand draws from the wall. -/
lemma dealHand_drawn (n : ℕ) (player : MJPlayer) (wall : List ℕ) (h : Drawn player) :
    Drawn (dealHand n player wall).1 ∧ (dealHand n player wall).2 ⊆ wall := by
  induction n, player, wall using dealHand.induct with
  | case1 player wall => exact ⟨h, fun c hc => hc⟩
  | case2 player n ih => exact ih h
  | case3 player n c wall ih =>
    obtain ⟨hdrawn, hsub⟩ := ih (h.addHandCard c)
    exact ⟨hdrawn, List.Subset.trans hsub (List.subset_cons_self c wall)⟩

/-- So does the exchange of flowers. -/
lemma buHuaNew_drawn (player : MJPlayer) (wall : List ℕ) (h : Drawn player) :
    Drawn (buHuaNew player wall).1 ∧ (buHuaNew player wall).2 ⊆ wall := by
  induction wall generalizing player with
  | nil => exact ⟨h, fun c hc => hc⟩
  | cons c wall ih =>
    have hcons : wall ⊆ c :: wall := List.subset_cons_self c wall
    set hua := player.getHua huaList with hhua
    have hadd : Drawn (player.addHuaWithoutHis hua) := h
    unfold buHuaNew
    dsimp only
    split_ifs
    · obtain ⟨hdrawn, hsub⟩ := ih _ (((hadd.delHandCard hua).delNewCard hua).addNewCard c)
      exact ⟨hdrawn, List.Subset.trans hsub hcons⟩
    · obtain ⟨hdrawn, hsub⟩ := ih _ ((hadd.delHandCard hua).addHandCard c)
      exact ⟨hdrawn, List.Subset.trans hsub hcons⟩
    · exact ⟨h, fun c hc => hc⟩

/-- A pass over the seats, each dealt with from what the wall has left. -/
lemma foldl_drawn {deal : MJPlayer → List ℕ → MJPlayer × List ℕ} {f : MJPlayer → MJPlayer}
    (hdeal : ∀ player wall, Drawn player → Drawn (deal player wall).1 ∧ (deal player wall).2 ⊆ wall)
    (hf : ∀ player, Drawn player → Drawn (f player)) (l : List Seat)
    (r : (Seat → MJPlayer) × List ℕ) (hr : ∀ p, Drawn (r.1 p)) :
    (∀ p, Drawn ((l.foldl (fun r pos =>
        (Function.update r.1 pos (deal (f (r.1 pos)) r.2).1, (deal (f (r.1 pos)) r.2).2)) r).1 p)) ∧
      (l.foldl (fun r pos =>
        (Function.update r.1 pos (deal (f (r.1 pos)) r.2).1, (deal (f (r.1 pos)) r.2).2)) r).2 ⊆
        r.2 := by
  induction l generalizing r with
  | nil => exact ⟨hr, fun c hc => hc⟩
  | cons pos l ih =>
    obtain ⟨hdrawn, hsub⟩ := hdeal (f (r.1 pos)) r.2 (hf _ (hr pos))
    have hnext : ∀ p, Drawn (Function.update r.1 pos (deal (f (r.1 pos)) r.2).1 p) := by
      intro p
      by_cases hp : p = pos
      · rw [hp, Function.update_self]
        exact hdrawn
      · rw [Function.update_of_ne hp]
        exact hr p
    obtain ⟨hall, hwall⟩ := ih (_, (deal (f (r.1 pos)) r.2).2) hnext
    exact ⟨hall, List.Subset.trans hwall hsub⟩

lemma dealHandCards_drawn (wall : List ℕ) (banker : Seat) :
    (∀ p, Drawn ((dealHandCards wall banker).1 p)) ∧ (dealHandCards wall banker).2 ⊆ wall := by
  obtain ⟨hall, hsub⟩ := foldl_drawn (dealHand_drawn 13) (f := fun _ => MJPlayer.new)
    (fun _ _ => drawn_new) seats ((fun _ => MJPlayer.new : Seat → MJPlayer), wall)
    fun _ => drawn_new
  unfold dealHandCards
  dsimp only
  split
  · exact ⟨hall, hsub⟩
  · rename_i c rest hwall
    rw [hwall] at hsub
    refine ⟨fun p => ?_, List.Subset.trans (List.subset_cons_self c rest) hsub⟩
    by_cases hp : p = banker
    · rw [hp]
      simpa using (hall banker).addNewCard c
    · simpa [hp] using hall p

lemma dealHandCardsNew_drawn (wall : List ℕ) (banker : Seat) :
    (∀ p, Drawn ((dealHandCardsNew wall banker).1 p)) ∧
      (dealHandCardsNew wall banker).2 ⊆ wall := by
  obtain ⟨hdealt, hleft⟩ := dealHandCards_drawn wall banker
  obtain ⟨hall, hsub⟩ := foldl_drawn buHuaNew_drawn (f := id) (fun _ => id) seats
    (dealHandCards wall banker) hdealt
  exact ⟨hall, List.Subset.trans hsub hleft⟩

end Deal

lemma wallTiles_valid : ∀ c ∈ wallTiles, MJCard.isValid c = true := by decide +kernel

/-- After the deal the offers are fair, or the banker has won with its new tile. -/
lemma onEntry_kept (gameProgress : GameProgress) (d : Deal) : Kept (onEntry gameProgress d) := by
  obtain ⟨hdrawn, hsub⟩ := dealHandCardsNew_drawn d.wall d.banker
  unfold onEntry
  apply checkMyOper_kept
  · refine ⟨⟨rfl, PlayerGrabMgr.valid_clear, PlayerGrabMgr.chosen_clear, ?_, ?_, ?_, ?_, ?_⟩,
      fun c hc => ?_, fun p c hc => ?_⟩
    · intro q o ho
      simp [PlayerGrabMgr.clear] at ho
    · intro q hq
      simp [PlayerGrabMgr.clear] at hq
    · intro q hq
      simp [PlayerGrabMgr.clear, Table.Unanswered] at hq
    · intro hm
      exact absurd rfl hm
    · intro q l hq
      have hmem := hq.1
      simp [PlayerGrabMgr.clear] at hmem
    · exact wallTiles_valid c (d.perm.subset (hsub hc))
    · obtain ⟨b, hb⟩ := d.asked p c hc
      exact isValid_fromOld2NowCardByteMap hb
  · intro _ hnew
    left
    simp [Table.bZiMo, hnew, hdrawn d.banker hnew]

/-- In every run of timely events, a round that is not drawn is won by declaration. -/
lemma winners_of_timely {gameProgress : GameProgress} {d : Deal} {s : Table}
    (hs : Runs.Reaches step TimelyEvent (onEntry gameProgress d) s) : Kept s := by
  refine Runs.Reaches.invariant hs (onEntry_kept gameProgress d) ?_
  rintro s ⟨gameProgress, e⟩ s' hkept hok hstep
  unfold step at hstep
  split_ifs at hstep with hover
  rcases hkept with h | ⟨a, ha, -⟩
  · cases e with
    | clientMsg pos pkg =>
      obtain rfl := Option.some.inj hstep
      exact onClientMsg_kept h pos pkg hok
    | buHua turn =>
      dsimp only at hstep
      split_ifs at hstep
      obtain rfl := Option.some.inj hstep
      apply buHua_kept
      exact ⟨h.toFair.of_same rfl rfl rfl id rfl rfl fun _ _ => id, h.legal⟩
  · simp [ha] at hover

end Nanjing
