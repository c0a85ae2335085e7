import JsmjServer.Tongxiang.Moves

set_option relaxedAutoImplicit false
set_option autoImplicit false

/-!
# The tiles not to be played after a run in tongxiang mahjong

A seat that claims a tile for a run is not to play that tile next, nor the one that would complete
the run at the other end. `doChi` keeps these tiles in `canNotChu` and sends them to the client,
while `onPlayCard` clears the list without having looked at it.

## Main definitions

* `Tongxiang.eaten` — the run a seat has claimed since its last discard, with the claimed tile.
* `Tongxiang.Forbidden` — the tiles not to be played after it.
* `Tongxiang.HoldsNone` — no seat with the turn holds such a tile.

## Main results

* `Tongxiang.noSwap_iff` — the list is right in every state, and the rule is kept from a state
  exactly when the seat with the turn holds none of the tiles.
* `Tongxiang.swapped` — the claimed tile is played next.
-/

namespace Tongxiang

open Mahjong

/-! ### The run claimed last -/

/-- The kinds of runs. -/
def isChi (o : Oper) : Bool := o ∈ [.lChi, .mChi, .rChi]

/-- The run a seat with this history and these piles has claimed since its last discard: its kind,
and the claimed tile, which stands first in the pile. -/
def eaten (history : List Oper) (pileList : List MJPile) : Option (Oper × ℕ) :=
  match (history.filter fun o => isChi o || o == .play).getLast? with
  | none => none
  | some o =>
    if isChi o then
      (pileList.filter fun pile => isChi pile.operType).getLast?.bind fun pile =>
        pile.cardList.head?.map fun b => (pile.operType, b)
    else none

/-- The tile `c` is not to be played after `b` has been claimed for a run: it is the same, or it has
its place in the suit at the other end of the two tiles shown with `b`. -/
def Forbidden (o : Oper) (b c : ℕ) : Prop :=
  c = b ∨ (o = .lChi ∧ c + 3 = b ∧ c / 10 = b / 10 ∧ c % 10 ≠ 0) ∨
    (o = .rChi ∧ c = b + 3 ∧ c / 10 = b / 10 ∧ c % 10 ≠ 0)

section Eaten

variable {history : List Oper} {pileList pileList' : List MJPile} {o : Oper} {b c : ℕ}

lemma eaten_append (h : isChi o = false) (hplay : o ≠ .play) :
    eaten (history ++ [o]) pileList = eaten history pileList := by
  have hfilter : (history ++ [o]).filter (fun o => isChi o || o == .play) =
      history.filter fun o => isChi o || o == .play := by
    simp [List.filter_append, h, hplay]
  simp only [eaten, hfilter]

lemma eaten_play : eaten (history ++ [.play]) pileList = none := by
  have hfilter : (history ++ [Oper.play]).filter (fun o => isChi o || o == .play) =
      (history.filter fun o => isChi o || o == .play) ++ [.play] := by
    simp [List.filter_append, isChi]
  simp only [eaten, hfilter, List.getLast?_concat]
  rfl

lemma eaten_chi {c₁ c₂ : ℕ} {fromPos : Seat} (h : isChi o = true) :
    eaten (history ++ [o]) (pileList ++ [⟨[b, c₁, c₂], o, fromPos⟩]) = some (o, b) := by
  have hfilter : (history ++ [o]).filter (fun o => isChi o || o == .play) =
      (history.filter fun o => isChi o || o == .play) ++ [o] := by
    simp [List.filter_append, h]
  have hpiles : (pileList ++ [(⟨[b, c₁, c₂], o, fromPos⟩ : MJPile)]).filter
      (fun pile => isChi pile.operType) =
      (pileList.filter fun pile => isChi pile.operType) ++ [⟨[b, c₁, c₂], o, fromPos⟩] := by
    simp [List.filter_append, h]
  simp only [eaten, hfilter, hpiles, List.getLast?_concat, h, if_true]
  rfl

/-- Other piles do not matter. -/
lemma eaten_congr (h : (pileList'.filter fun pile => isChi pile.operType) =
    pileList.filter fun pile => isChi pile.operType) :
    eaten history pileList' = eaten history pileList := by
  simp only [eaten, h]

/-- A seat at rest has claimed nothing since it played. -/
lemma eaten_of_rested (h : history = [] ∨ history.getLast? = some .play) :
    eaten history pileList = none := by
  rcases h with rfl | h
  · rfl
  · obtain ⟨l, rfl⟩ := List.getLast?_eq_some_iff.mp h
    exact eaten_play

/-- The list of `doChi` holds the forbidden tiles, for a run with its place in the suit. -/
lemma mem_chiCanNotChu (h : (o = .lChi ∧ 3 ≤ b % 10) ∨ (o = .mChi ∧ 2 ≤ b % 10 ∧ b % 10 ≤ 8) ∨
    (o = .rChi ∧ b % 10 ≤ 7)) : c ∈ chiCanNotChu o b ↔ Forbidden o b c := by
  rcases h with ⟨rfl, hb⟩ | ⟨rfl, -⟩ | ⟨rfl, hb⟩
  · simp only [chiCanNotChu, Forbidden, true_and, reduceCtorEq, false_and, or_false]
    split_ifs with h3 h3'
    · simp only [List.mem_cons, List.not_mem_nil, or_false]
      omega
    · simp only [List.mem_cons, List.not_mem_nil, or_false]
      omega
    · omega
  · simp [chiCanNotChu, Forbidden]
  · simp only [chiCanNotChu, Forbidden, true_and, reduceCtorEq, false_and, false_or]
    split_ifs with h7 h7'
    · simp only [List.mem_cons, List.not_mem_nil, or_false]
      omega
    · simp only [List.mem_cons, List.not_mem_nil, or_false]
      omega
    · omega

end Eaten

/-! ### The list is right -/

/-- The list fits a run claimed last. -/
def NotedAt (canNotChu : List ℕ) : Option (Oper × ℕ) → Prop
  | none => canNotChu = []
  | some (o, b) => ∀ c, c ∈ canNotChu ↔ Forbidden o b c

/-- Every list fits the run the seat has claimed since its last discard. -/
def Noted (s : Game) : Prop :=
  ∀ p, NotedAt (s.canNotChu p) (eaten (s.opHistoryList p) (s.playerList p).pileList)

section Noted

variable (rule : RoomRuleMap) {s s' : Game} {t p : Seat} {b c : ℕ} {o : Oper}

lemma Noted.of_eaten (h : Noted s) (hlist : s'.canNotChu = s.canNotChu)
    (heaten : ∀ p, eaten (s'.opHistoryList p) (s'.playerList p).pileList =
      eaten (s.opHistoryList p) (s.playerList p).pileList) : Noted s' := by
  intro p
  rw [hlist, heaten]
  exact h p

/-- An operation other than a run or a discard keeps the list. -/
lemma Noted.used {player : MJPlayer} (h : Noted s) (hjust : isChi player.justDoOper = false)
    (hplay : player.justDoOper ≠ .play)
    (hpile : (player.pileList.filter fun pile => isChi pile.operType) =
      (s.playerList p).pileList.filter fun pile => isChi pile.operType) :
    Noted (used s p player) := by
  refine h.of_eaten rfl fun q => ?_
  show eaten (Function.update s.opHistoryList p _ q) (Function.update s.playerList p player q).pileList
    = _
  rw [Function.update_apply, Function.update_apply]
  split_ifs with hq
  · rw [eaten_append hjust hplay, eaten_congr hpile, hq]
  · rfl

lemma giveNewCard_noted (hs : Sound s) (h : Noted s) : Noted (giveNewCard rule s t).state := by
  rcases giveNewCard_frame rule hs with heq | ⟨c, _, _, _, _, _, _, _, heq, -, -⟩ <;> rw [heq]
  · exact h
  · refine h.of_eaten rfl fun q => ?_
    show eaten (Function.update s.opHistoryList t _ q) (Function.update s.playerList t _ q).pileList
      = _
    rw [Function.update_apply, Function.update_apply]
    split_ifs with hq
    · rw [hq]
      exact eaten_append rfl (by decide)
    · rfl

lemma checkMyOper_noted (hn : (s.playerList t).hasNewCard = true) (checkCanGang : Bool)
    (h : Noted s) : Noted (checkMyOper rule s t checkCanGang).state := by
  obtain ⟨_, _, _, _, heq, -, -⟩ := checkMyOper_frame rule hn checkCanGang
  rw [heq]
  exact h

/-- What a handler that discards nothing keeps: the lists are right, and no river grows. -/
def Notes (s s' : Game) : Prop :=
  Noted s' ∧ ∀ q, (s'.riverCardList q).length ≤ (s.riverCardList q).length

lemma notes_self (h : Noted s) : Notes s s := ⟨h, fun _ => le_rfl⟩

lemma giveNewCard_notes (hs : Sound s') (h : Noted s')
    (hriver : ∀ q, (s'.riverCardList q).length ≤ (s.riverCardList q).length) :
    Notes s (giveNewCard rule s' t).state := by
  refine ⟨giveNewCard_noted rule hs h, fun q => ?_⟩
  rcases giveNewCard_frame rule hs with heq | ⟨c, _, _, _, _, _, _, _, heq, -, -⟩ <;> rw [heq]
  · exact hriver q
  · exact hriver q

/-- A discard that is taken leaves its river shorter. -/
lemma length_setRiver_le (q : Seat) :
    (Function.update s.riverCardList t (MJRiver.popCard (s.riverCardList t)) q).length ≤
      (s.riverCardList q).length := by
  rw [Function.update_apply]
  split_ifs with hq
  · rw [hq, MJRiver.popCard, List.length_dropLast]
    omega
  · exact le_rfl

lemma checkMyOper_notes {player : MJPlayer} {l : List ℕ}
    (hn : player.hasNewCard = true) (h : Noted (used (forbid s p l) p player)) :
    Notes s (checkMyOper rule ((used (forbid s p l) p player).setRiver t
      (MJRiver.popCard (s.riverCardList t))) p true).state := by
  have hnew : (((used (forbid s p l) p player).setRiver t
      (MJRiver.popCard (s.riverCardList t))).playerList p).hasNewCard = true := by
    show (Function.update s.playerList p player p).hasNewCard = true
    rw [Function.update_self]
    exact hn
  refine ⟨checkMyOper_noted rule hnew true (h.of_eaten rfl fun _ => rfl), fun q => ?_⟩
  obtain ⟨_, _, _, _, heq, -, -⟩ := checkMyOper_frame rule hnew true
  rw [heq]
  exact length_setRiver_le q

/-- A claimed run is noted: nothing was before it. -/
lemma doChi_notes (hg : Going s) (hc : Claim s t b) (htake : MayTake s t b p o)
    (ho : o = .lChi ∨ o = .mChi ∨ o = .rChi) (h : Noted s) :
    Notes s (doChi rule s p o b t).state := by
  by_cases hr : ((s.playerList p).doChi b o t).1 = true
  swap
  · rw [doChi, if_neg hr]
    exact notes_self h
  obtain ⟨hcan, -, hn, hjust, c₁, c₂, hpile⟩ := (hg.held p).doChi hr
  have hkind : isChi o = true := by rcases ho with rfl | rfl | rfl <;> rfl
  have hempty : s.canNotChu p = [] := by
    have hp := h p
    rwa [eaten_of_rested (hc.rested p (Or.inl htake.1))] at hp
  rw [doChi_eq rule hr]
  refine checkMyOper_notes rule hn fun q => ?_
  show NotedAt (Function.update s.canNotChu p (s.canNotChu p ++ chiCanNotChu o b) q)
    (eaten (Function.update s.opHistoryList p _ q) (Function.update s.playerList p _ q).pileList)
  simp only [Function.update_apply]
  split_ifs with hq
  · rw [hjust, hpile, eaten_chi hkind, hempty, List.nil_append]
    exact fun c => mem_chiCanNotChu ((hg.held p).chi_point hcan)
  · exact h q

lemma doPeng_notes (hg : Going s) (hc : Claim s t b) (htake : MayTake s t b p .peng)
    (h : Noted s) {r : Handled} (hr : doPeng rule s p b t = some r) : Notes s r.state := by
  obtain ⟨player, hdo, -, hn, hjust, hpile⟩ := (hg.held p).doPeng t htake.canPeng hc.valid
  rw [doPeng_eq rule (by rw [hdo]), hdo, Option.some.injEq] at hr
  subst hr
  have hforbid : forbid s p [] = s := by
    simp only [forbid, List.append_nil, Function.update_eq_self]
  have hnoted : Noted (used (forbid s p []) p player) := by
    rw [hforbid]
    exact h.used (by rw [hjust]; rfl) (by rw [hjust]; decide)
      (by rw [hpile]; simp [List.filter_append, isChi])
  have hnotes := checkMyOper_notes rule (t := t) hn hnoted
  rw [hforbid] at hnotes
  exact hnotes

lemma doGang_notes (hg : Going s) (hc : Claim s t b) (htake : MayTake s t b p .mg) (h : Noted s)
    {r : Handled} (hr : doGang rule s p b t = some r) : Notes s r.state := by
  obtain ⟨player, hdo, hheld, -, hjust, hpile⟩ := (hg.held p).doGang t htake.canGang hc.valid
  obtain ⟨gangPiao, heq⟩ := doGang_eq rule (s := s) (p := p) (b := b) (t := t) (by rw [hdo])
  rw [heq, hdo, Option.some.injEq] at hr
  subst hr
  have hnoted : Noted (used s p player) := h.used (by rw [hjust]; rfl) (by rw [hjust]; decide)
    (by rw [hpile]; simp [List.filter_append, isChi])
  exact giveNewCard_notes rule ((hg.toSound.used hheld).of_same rfl rfl rfl rfl)
    (hnoted.of_eaten rfl fun _ => rfl) fun q => length_setRiver_le q

lemma doAnGang_notes (hg : Going s) (h : Noted s) : Notes s (doAnGang rule s t c t).state := by
  by_cases hr : ((s.playerList t).doAnGang c t).1 = true
  · obtain ⟨hheld, -, hjust, hpile⟩ := (hg.held t).doAnGang hr
    obtain ⟨gangPiao, heq⟩ := doAnGang_eq rule hr
    rw [heq]
    have hnoted : Noted (Tongxiang.used s t ((s.playerList t).doAnGang c t).2) :=
      h.used (by rw [hjust]; rfl) (by rw [hjust]; decide)
        (by rw [hpile]; simp [List.filter_append, isChi])
    exact giveNewCard_notes rule ((hg.toSound.used hheld).of_same rfl rfl rfl rfl)
      (hnoted.of_eaten rfl fun _ => rfl) fun _ => le_rfl
  · rw [doAnGang, if_neg hr]
    exact notes_self h

lemma doMXGang_notes (hg : Going s) (h : Noted s) : Notes s (doMXGang rule s t c).state := by
  by_cases hr : ((s.playerList t).doMXGang c).1 = true
  swap
  · rw [doMXGang, if_neg hr]
    exact notes_self h
  obtain ⟨-, hheld, -, hjust, pre, w, v, post, hold, hnew, hpeng, hv⟩ := (hg.held t).doMXGang hr
  obtain ⟨gangPiao, hcases⟩ := doMXGang_cases rule hr
  have hsound : Sound (added s t c gangPiao) := (hg.toSound.used hheld).of_same rfl rfl rfl rfl
  have hnoted : Noted (added s t c gangPiao) := by
    have hused : Noted (Tongxiang.used s t ((s.playerList t).doMXGang c).2) := by
      refine h.used ?_ ?_ ?_
      · rcases hjust with hj | hj <;> rw [hj] <;> rfl
      · rcases hjust with hj | hj <;> rw [hj] <;> decide
      · -- the pile that becomes a kong is no run before or after
        have hw : isChi w.operType = false := by
          rw [hpeng]
          rfl
        have hv' : isChi v.operType = false := by rcases hv with hv | hv <;> rw [hv] <;> rfl
        rw [hold, hnew]
        simp [List.filter_append, hw, hv']
    exact hused.of_eaten rfl fun _ => rfl
  rcases hcases with heq | ⟨l, r, -, -, hoff, hcases⟩
  · rw [heq]
    exact giveNewCard_notes rule hsound hnoted fun _ => le_rfl
  have hnoted' : Noted { added s t c gangPiao with toTable := r.2 } := by
    rw [hoff.frame]
    exact hnoted.of_eaten rfl fun _ => rfl
  have hriver : ∀ q, (r.2.riverCardList q).length ≤ (s.riverCardList q).length := by
    intro q
    rw [hoff.frame]
    exact le_rfl
  rcases hcases with ⟨heq, -⟩ | heq | heq <;> rw [heq]
  · exact ⟨hnoted', hriver⟩
  · exact ⟨hnoted'.of_eaten rfl fun _ => rfl, hriver⟩
  · refine giveNewCard_notes rule ?_ hnoted' hriver
    rw [hoff.frame]
    exact hsound.of_same rfl rfl rfl rfl

/-- What is carried out keeps the lists right. -/
lemma Decided.notes {r : Handled} (hg : Going s) (h : Noted s) (hd : Decided rule s r) :
    Notes s r.state := by
  cases hd with
  | stay => exact notes_self h
  | stop => exact notes_self h
  | pass hc hq => exact giveNewCard_notes rule hg.toSound h fun _ => le_rfl
  | kong hc hq =>
    exact giveNewCard_notes rule (hg.toSound.of_same rfl rfl rfl rfl)
      (h.of_eaten rfl fun _ => rfl) fun _ => le_rfl
  | peng hc htake _ heq => exact doPeng_notes rule hg hc htake h heq
  | gang hc htake heq => exact doGang_notes rule hg hc htake h heq
  | chi hc htake ho _ => exact doChi_notes rule hg hc htake ho h
  | anGang c ht => exact doAnGang_notes rule hg h
  | mxGang c ht => exact doMXGang_notes rule hg h

/-- A discard clears its list, and grows its river. -/
lemma onPlayCard_notes (hg : Going s) (ht : Turn s t)
    (hr : ((s.playerList t).doPlayCard b).1 = true) (h : Noted s) :
    Noted (onPlayCard rule s t (some b)).state ∧
      (onPlayCard rule s t (some b)).state.riverCardList t = s.riverCardList t ++ [b] := by
  obtain ⟨l, r, hl, -, hoff, hcases⟩ := onPlayCard_cases rule ht hr
  obtain ⟨-, -, hv, -, -, hjust, -⟩ := (hg.held t).doPlayCard hr
  have hidle := (discard_idle hg ht hr).1
  set player := ((s.playerList t).doPlayCard b).2 with hplayer
  obtain ⟨gangPiao, grab, map, n, hframe⟩ := discard_frame s t b player
  have hnoted : Noted { discard s t b player with toTable := r.2 } := by
    rw [hoff.frame, hframe]
    intro q
    show NotedAt (Function.update s.canNotChu t [] q)
      (eaten (Function.update s.opHistoryList t _ q) (Function.update s.playerList t _ q).pileList)
    simp only [Function.update_apply]
    split_ifs with hq
    · rw [hjust, eaten_play]
      rfl
    · exact h q
  have hriver : r.2.riverCardList t = s.riverCardList t ++ [b] := by
    rw [hoff.frame]
    show (discard s t b player).riverCardList t = _
    rw [hframe]
    show Function.update s.riverCardList t _ t = _
    rw [Function.update_self, MJRiver.pushCard, if_pos hv]
  rcases hcases with ⟨heq, -⟩ | ⟨heq, -⟩ | ⟨heq, -⟩ <;> rw [heq]
  · exact ⟨hnoted, hriver⟩
  · exact ⟨hnoted, hriver⟩
  · have hsound := (hidle.offered hoff).toSound
    refine ⟨giveNewCard_noted rule hsound hnoted, ?_⟩
    rcases giveNewCard_frame rule hsound with heq' | ⟨c, _, _, _, _, _, _, _, heq', -, -⟩ <;>
      rw [heq']
    · exact hriver
    · exact hriver

end Noted

/-! ### Runs -/

/-- No seat that may play a tile holds one that is not to be played. -/
def HoldsNone (s : Game) : Prop :=
  ∀ p, s.playerGrabMgr.hasOper p .play = true → ∀ b ∈ s.canNotChu p,
    b ∉ (s.playerList p).newCard :: (s.playerList p).cardList

/-- No message puts a tile that is not to be played on the river of its seat. -/
def Refuses (rule : RoomRuleMap) (s : Game) : Prop :=
  ∀ e s' b, step rule s e = some s' → b ∈ s.canNotChu e.1 →
    s'.riverCardList e.1 ≠ s.riverCardList e.1 ++ [b]

section Runs

variable (rule : RoomRuleMap) {s : Game} {p : Seat} {b : ℕ}

/-- A message keeps the lists right, and a river grows only by the tile that is played. -/
lemma Outcome.notes {oper : Option Oper} {card : Option ℕ} {r : Handled} (hg : Going s)
    (h : Noted s) (ho : Outcome rule s p oper card r) : Noted r.state ∧
      ((∀ q, (r.state.riverCardList q).length ≤ (s.riverCardList q).length) ∨
        ∃ b, Turn s p ∧ ((s.playerList p).doPlayCard b).1 = true ∧
          r.state.riverCardList p = s.riverCardList p ++ [b]) := by
  cases ho with
  | same => exact ⟨h, Or.inl fun _ => le_rfl⟩
  | stop => exact ⟨h, Or.inl fun _ => le_rfl⟩
  | ask _ => exact ⟨h.of_eaten rfl fun _ => rfl, Or.inl fun _ => le_rfl⟩
  | wait _ _ => exact ⟨h.of_eaten rfl fun _ => rfl, Or.inl fun _ => le_rfl⟩
  | @decide o card c m r hch hhu hd =>
    have hnoted : Noted (afterChoice s p o c m) := h.of_eaten rfl fun _ => rfl
    have hnotes := hd.notes rule (hg.choose hch hhu m) hnoted
    exact ⟨hnotes.1, Or.inl hnotes.2⟩
  | declare _ => exact ⟨h.of_eaten rfl fun _ => rfl, Or.inl fun _ => le_rfl⟩
  | @play b ht hr =>
    obtain ⟨hnoted, hriver⟩ := onPlayCard_notes rule hg ht hr h
    exact ⟨hnoted, Or.inr ⟨b, ht, hr, hriver⟩⟩

/-- The deal leaves the lists empty. -/
lemma onEntry_noted (d : Deal) : Noted (onEntry rule d).state := by
  obtain ⟨-, hnew, -⟩ := dealt_sound d
  exact checkMyOper_noted rule ((hnew d.banker).mpr rfl) false fun p => rfl

/-- A tile that is not to be played is refused exactly when the seat that may play holds none. -/
lemma refuses_iff (hg : Going s) (h : Noted s) : Refuses rule s ↔ HoldsNone s := by
  constructor
  · intro href p hplay b hb hmem
    have ht : Turn s p := hg.turn_of_play (PlayerGrabMgr.hasOper_iff.mp hplay)
    have hn : (s.playerList p).hasNewCard = true := (ht.newCard p).mpr rfl
    have hdo := MJPlayer.doPlayCard_of_mem hn hmem
    obtain ⟨x, hstep⟩ := hg.exists_play rule hn hmem
    exact href _ _ b hstep hb (onPlayCard_notes rule hg ht hdo h).2
  · intro hnone e s' b hstep hb hriver
    obtain ⟨r, hout, rfl⟩ := step_outcome hg hstep
    rcases (hout.notes rule hg h).2 with hle | ⟨b', ht, hdo, hriver'⟩
    · have hlen := hle e.1
      rw [hriver, List.length_append, List.length_singleton] at hlen
      omega
    · rw [hriver'] at hriver
      obtain rfl : b' = b := by simpa using hriver
      obtain ⟨-, hmem, -⟩ := (hg.held e.1).doPlayCard hdo
      exact hnone e.1 (PlayerGrabMgr.hasOper_iff.mpr ht.play) b' hb hmem

/-- In every state of a round the list of tiles not to be played holds the tile a seat has claimed
for a run since its last discard and, where it has its place in the suit, the tile at the other end;
it is empty for a seat that has claimed none. While the round goes on, these tiles are refused as
discards exactly when the seat that may play holds none of them.

**Proof sketch.** A seat claims a run only at rest, that is with its list empty, and other
operations leave the list and the run claimed last as they are. A discard is accepted whenever the
seat has the turn and holds the tile. -/
theorem noSwap_iff (rule : RoomRuleMap) (d : Deal) (s : Game)
    (hs : Runs.Reaches (step rule) (fun _ _ => True) (onEntry rule d).state s) :
    (∀ p, eaten (s.opHistoryList p) (s.playerList p).pileList = none → s.canNotChu p = []) ∧
    (∀ p o b, eaten (s.opHistoryList p) (s.playerList p).pileList = some (o, b) →
      ∀ c, c ∈ s.canNotChu p ↔ Forbidden o b c) ∧
    (s.endArgs = none → (Refuses rule s ↔ HoldsNone s)) := by
  have hnoted : Noted s := by
    induction hs with
    | init => exact onEntry_noted rule d
    | step hs _ hstep ih =>
      have hgo := going_of_step hs hstep
      obtain ⟨r, hout, rfl⟩ := step_outcome hgo hstep
      exact (hout.notes rule hgo ih).1
  refine ⟨fun p hp => ?_, fun p o b hp => ?_, fun hover => ?_⟩
  · have hat := hnoted p
    rwa [hp] at hat
  · have hat := hnoted p
    rwa [hp] at hat
  · rcases going_of_reaches hs with hgo | hdrawn | ⟨s₀, p, c, -, -, rfl⟩
    · exact refuses_iff rule hgo hnoted
    · rw [hdrawn] at hover
      exact absurd hover (by simp)
    · exact absurd hover (by simp [doHu, Game.gotoNextState, Table.gotoNextState])

end Runs

/-! ### The claimed tile comes back -/

/-- Hands in which the banker has `3` to play, and the next seat holds `4`, `5` and the given
tile. -/
def runHands (b : ℕ) : List ℕ :=
  [3, 12, 14, 16, 18, 22, 24, 26, 28, 31, 32, 33, 34] ++
  [b, 4, 5, 8, 11, 13, 17, 19, 21, 25, 27, 29, 32] ++
  [11, 12, 13, 14, 15, 16, 17, 18, 19, 21, 21, 21, 5] ++
  [22, 22, 23, 23, 24, 24, 25, 25, 26, 27, 28, 29, 29] ++ [31]

/-- The next seat holds no other `3`, and no `6`. -/
def noneHeldDeal : Deal where
  wall := runHands 9 ++ wallTiles.diff (runHands 9)
  perm := by decide +kernel
  banker := 0
  m_bBaoZi := false
  baiDa := 36
  fanDa := by decide +kernel
  last := newGame
  asked := newGame_asked

/-- The next seat holds another `3`. -/
def oneHeldDeal : Deal where
  wall := runHands 3 ++ wallTiles.diff (runHands 3)
  perm := by decide +kernel
  banker := 0
  m_bBaoZi := false
  baiDa := 36
  fanDa := by decide +kernel
  last := newGame
  asked := newGame_asked

instance (s : Game) : Decidable (HoldsNone s) := by
  unfold HoldsNone
  infer_instance

/-- After a run on `3` the tiles `6` and `3` are not to be played, and a seat without them
cannot. -/
theorem noSwap_none_held : ∃ s,
    Runs.exec (step ⟨false, true, false⟩) (fun _ _ => True)
      (onEntry ⟨false, true, false⟩ noneHeldDeal).state [(0, ⟨10, 67⟩), (1, ⟨8, 67⟩)] = some s ∧
      eaten (s.opHistoryList 1) (s.playerList 1).pileList = some (.rChi, 3) ∧
      s.canNotChu 1 = [6, 3] ∧ (∀ c, c ∈ s.canNotChu 1 ↔ Forbidden .rChi 3 c) ∧
      Refuses ⟨false, true, false⟩ s := by
  have hrun : ((Runs.exec (step ⟨false, true, false⟩) (fun _ _ => True)
      (onEntry ⟨false, true, false⟩ noneHeldDeal).state
      [(0, ⟨10, 67⟩), (1, ⟨8, 67⟩)]).any fun s => s.endArgs.isNone &&
        decide (eaten (s.opHistoryList 1) (s.playerList 1).pileList = some (.rChi, 3) ∧
          s.canNotChu 1 = [6, 3] ∧ HoldsNone s)) = true := by
    decide +kernel
  obtain ⟨s, hs, hend⟩ := (Option.any_eq_true _ _).mp hrun
  rw [Bool.and_eq_true, Option.isNone_iff_eq_none] at hend
  obtain ⟨heaten, hlist, hnone⟩ := of_decide_eq_true hend.2
  obtain ⟨-, hforbidden, hiff⟩ := noSwap_iff _ noneHeldDeal s (Runs.reaches_of_exec _ .init hs)
  exact ⟨s, hs, heaten, hlist, hforbidden 1 .rChi 3 heaten, (hiff hend.1).mpr hnone⟩

/-- A seat that has claimed `3` for a run plays another `3` at once. -/
theorem swapped : ∃ s s',
    Runs.exec (step ⟨false, true, false⟩) (fun _ _ => True)
      (onEntry ⟨false, true, false⟩ oneHeldDeal).state [(0, ⟨10, 67⟩), (1, ⟨8, 67⟩)] = some s ∧
      s.canNotChu 1 = [6, 3] ∧ step ⟨false, true, false⟩ s (1, ⟨10, 67⟩) = some s' ∧
      s'.riverCardList 1 = s.riverCardList 1 ++ [3] ∧ ¬Refuses ⟨false, true, false⟩ s := by
  have hrun : ((Runs.exec (step ⟨false, true, false⟩) (fun _ _ => True)
      (onEntry ⟨false, true, false⟩ oneHeldDeal).state
      [(0, ⟨10, 67⟩), (1, ⟨8, 67⟩)]).any fun s =>
        (step ⟨false, true, false⟩ s (1, ⟨10, 67⟩)).any fun s' =>
          decide (s.canNotChu 1 = [6, 3] ∧
            s'.riverCardList 1 = s.riverCardList 1 ++ [3])) = true := by
    decide +kernel
  obtain ⟨s, hs, hnext⟩ := (Option.any_eq_true _ _).mp hrun
  obtain ⟨s', hs', hend⟩ := (Option.any_eq_true _ _).mp hnext
  obtain ⟨hlist, hriver⟩ := of_decide_eq_true hend
  refine ⟨s, s', hs, hlist, hs', hriver, fun href => ?_⟩
  exact href (1, ⟨10, 67⟩) s' 3 hs' (by rw [hlist]; simp) hriver

end Tongxiang
