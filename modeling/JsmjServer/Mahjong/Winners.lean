import JsmjServer.Mahjong.Table
import Mathlib.Data.List.TakeWhile

set_option relaxedAutoImplicit false
set_option autoImplicit false

/-!
# Winners of a round

When a seat declares a win on a tile, `doHu` takes the winners from `multiHuPos`, the seats to which
the win was offered when the tile was. The module says when these are the seats that have not
given up the win, for the managers that hongzhong and nanjing mahjong share: the offers, the
recorded choices and the table of offered tiles.

## Main definitions

* `Mahjong.Table.WonByDeclaration` — every other winner still had the offer when the round ended.
* `Mahjong.Table.Timely` — the condition: no other seat of `multiHuPos` has answered.
* `Mahjong.Table.Fair` — the invariant of the managers.

## Main results

* `Mahjong.Table.offers_fair`, `Mahjong.Table.Fair.choose` — offers and choices keep the invariant.
* `Mahjong.Table.Fair.declare` — a timely declaration finds only winners that may win.
-/

namespace Mahjong

/-! ### Choices -/

namespace PlayerGrabMgr

variable {g : PlayerGrabMgr} {p q : Seat} {o : Oper}

/-- A choice leaves the other seats alone. -/
lemma opers_playerDoGrab_of_ne (hq : q ≠ p) (c : Option ℕ) :
    (g.playerDoGrab p o c).2.canGrabMgr.opers q = g.canGrabMgr.opers q ∧
      (g.playerDoGrab p o c).2.doneGrabMgr.opers q = g.doneGrabMgr.opers q := by
  rcases playerDoGrab_cases g p o c with ⟨-, h⟩ | ⟨-, h⟩ | ⟨-, h⟩ <;> rw [h]
  · exact ⟨rfl, rfl⟩
  · exact ⟨by rw [CanGrabMgr.opers_delPlayer, if_neg hq], rfl⟩
  · exact ⟨by rw [CanGrabMgr.opers_delPlayer, if_neg hq],
      by rw [CanGrabMgr.opers_setCanOperList, if_neg hq]⟩

/-- After its choice a seat may at most play a tile. -/
lemma opers_playerDoGrab_self (h : o ∈ g.canGrabMgr.opers p) (c : Option ℕ) :
    ∀ o' ∈ (g.playerDoGrab p o c).2.canGrabMgr.opers p, o' = .play := by
  have hdel : ∀ o' ∈ (g.canGrabMgr.delPlayer p).2.opers p, o' = .play := by
    intro o' ho'
    rw [CanGrabMgr.opers_delPlayer, if_pos rfl] at ho'
    split_ifs at ho'
    · simpa using ho'
    · simp at ho'
  rcases playerDoGrab_cases g p o c with ⟨hnot, -⟩ | ⟨-, heq⟩ | ⟨-, heq⟩
  · exact absurd h hnot
  · rw [heq]
    exact hdel
  · rw [heq]
    exact hdel

/-- What is recorded was recorded before, or is the choice. -/
lemma mem_done_playerDoGrab {o' : Oper} {c : Option ℕ}
    (h : o' ∈ (g.playerDoGrab p o c).2.doneGrabMgr.opers q) :
    o' ∈ g.doneGrabMgr.opers q ∨ q = p ∧ o' = o := by
  rcases playerDoGrab_cases g p o c with ⟨-, heq⟩ | ⟨-, heq⟩ | ⟨-, heq⟩ <;> rw [heq] at h
  · exact Or.inl h
  · exact Or.inl h
  · rw [CanGrabMgr.opers_setCanOperList] at h
    split_ifs at h with hq
    · exact Or.inr ⟨hq, by simpa [sortOpers] using h⟩
    · exact Or.inl h

/-- A recorded win is the prevailing choice. -/
lemma getPowestNode_hu (hv : g.Valid) (h : .hu ∈ g.doneGrabMgr.opers p) :
    ∃ node, g.getPowestNode = some node ∧ .hu ∈ node.operList := by
  obtain ⟨oper, hoper, ⟨q, hq⟩, hmin⟩ :=
    CanGrabMgr.getPowestOper_spec hv.done ⟨p, List.ne_nil_of_mem h⟩
  have hhu : oper = .hu := by
    have hlevel : level oper ≤ level .hu := hmin p .hu h
    exact level_injOn (hv.done.drawn q oper hq) (by decide)
      (le_antisymm hlevel (by simp [level, operLevel]))
  obtain ⟨node, hnode⟩ := exists_getPowestNode hv (List.ne_nil_of_mem h)
  refine ⟨node, hnode, ?_⟩
  rw [PlayerGrabMgr.getPowestNode, hoper] at hnode
  obtain ⟨r, -, hr⟩ := List.exists_of_findSome?_eq_some hnode
  rw [Option.filter_eq_some_iff, hhu] at hr
  simpa [GrabItem.hasOper] using hr.2

/-- An operation that nobody has chosen is not recorded. -/
lemma Chosen.notMem (h : g.Chosen fun _ o' _ => o' ≠ o) (q : Seat) :
    o ∉ g.doneGrabMgr.opers q := by
  intro hmem
  unfold CanGrabMgr.opers at hmem
  cases hitem : g.doneGrabMgr.getItem q with
  | none => simp [hitem] at hmem
  | some item =>
    rw [hitem] at hmem
    dsimp only at hmem
    rcases h q item hitem with hnil | ⟨o', c, ho, -, hne⟩
    · simp [hnil] at hmem
    · rw [ho, List.mem_singleton] at hmem
      exact hne hmem.symm

/-- A win declared first is decided at once, in favour of the seat that declared it. -/
lemma decided_hu (hv : g.Valid) (hch : g.Chosen fun _ o _ => o ≠ .hu)
    (hmem : .hu ∈ g.canGrabMgr.opers p) (hfree : g.doneGrabMgr.opers p = []) (c : ℕ) :
    (g.playerDoGrab p .hu (some c)).2.needWait = some false ∧
      ∃ node, (g.playerDoGrab p .hu (some c)).2.getPowestNode = some node ∧
        node.pos = p ∧ node.operList = [.hu] ∧ node.byteCard = some c := by
  set g' := (g.playerDoGrab p .hu (some c)).2 with hg'
  have hvalid : g'.Valid := hv.playerDoGrab _
  have hchosen : g'.Chosen fun q o c' => o ≠ .hu ∨ q = p ∧ c' = c :=
    (hch.mono fun _ _ _ hne => Or.inl hne).playerDoGrab fun _ => Or.inr ⟨rfl, rfl⟩
  have hdone : g'.doneGrabMgr.opers p = [.hu] := by
    rw [hg', playerDoGrab_of_mem hmem hfree]
    simp [sortOpers]
  constructor
  · obtain ⟨wait, hwait, hiff⟩ := needWait_spec hvalid
    rw [hwait, hiff.mpr (Or.inr ⟨p, .hu, by rw [hdone]; rfl, Or.inl rfl⟩)]
  · obtain ⟨node, hnode, hhu⟩ := getPowestNode_hu hvalid (p := p) (by rw [hdone]; simp)
    obtain ⟨-, o, c', ho, hc', hkind⟩ := hchosen.getPowestNode hnode
    obtain rfl : o = .hu := by
      rw [ho] at hhu
      exact (List.mem_singleton.mp hhu).symm
    obtain ⟨hpos, rfl⟩ := hkind.resolve_left fun hne => hne rfl
    exact ⟨node, hnode, hpos, ho, hc'⟩

end PlayerGrabMgr

/-- A new tile takes the place of the one a seat had. -/
lemma MJPlayer.hasNewCard_addNewCard {player : MJPlayer} (b : ℕ) (h : player.hasNewCard = true) :
    (player.addNewCard b).hasNewCard = true := by
  unfold MJPlayer.addNewCard
  split_ifs with hv
  · have hne := MJPlayer.ne_kCardNull_of_isValid hv
    simpa [MJPlayer.hasNewCard] using hne
  · exact h

/-- Drawing a tile changes the wall or the tiles asked for. -/
lemma takeCard_frame {s s' : Table} {t : Seat} {c : ℕ} (h : takeCard s t = some (c, s')) :
    ∃ wall need, s' = { s with mjWall := wall, testPlayerNeedCard := need } := by
  unfold takeCard at h
  cases hneed : s.testPlayerNeedCard t with
  | some c' =>
    simp only [hneed, Option.some.injEq, Prod.mk.injEq] at h
    exact ⟨s.mjWall, _, h.2.symm⟩
  | none =>
    simp only [hneed, Option.map_eq_some_iff, Prod.mk.injEq] at h
    obtain ⟨r, -, -, heq⟩ := h
    exact ⟨r.2, s.testPlayerNeedCard, heq.symm⟩

namespace Table

/-! ### Offers of a win -/

/-- The seat is offered to win with one of the tiles `l`. -/
def HuOffered (s : Table) (q : Seat) (l : List ℕ) : Prop :=
  .hu ∈ s.playerGrabMgr.canGrabMgr.opers q ∧
    (s.playerCanDoMap q).bind (fun map => map.cards .hu) = some l

/-- The seat has chosen nothing since the last offers. -/
def Unanswered (s : Table) (q : Seat) : Prop := s.playerGrabMgr.doneGrabMgr.opers q = []

instance (s : Table) (q : Seat) : Decidable (s.Unanswered q) := inferInstanceAs (Decidable (_ = _))

/-- The winners of a round that a seat has won: itself, and seats that are offered to win on the
very tile and have made no choice. -/
def WonByDeclaration (s : Table) (a : EndArgs) : Prop :=
  ∃ pos c, a.huPos = some pos ∧ a.huCard = some c ∧ pos ∈ a.winnerPosList ∧
    ∀ q ∈ a.winnerPosList, q ≠ pos → s.HuOffered q [c] ∧ s.Unanswered q

/-- The message declares a win that is offered to the seat. -/
def declaresHu (s : Table) (p : Seat) (pkg : ClientMsg) : Bool :=
  Oper.ofCode pkg.operation == some .hu && s.playerGrabMgr.hasOper p .hu &&
    (fromOld2NowCardByteMap pkg.card_bytes).any fun c =>
      ((s.playerCanDoMap p).bind fun map => map.cards .hu).any fun l => l.contains c

/-- The seat may declare a win that brings in no other winner who has answered: it has drawn the
tile, or no other seat of `multiHuPos` has made a choice. A seat with a new tile it has not drawn
has taken a tile by peng, and `multiHuPos` is left over from that tile. -/
def Timely (s : Table) (p : Seat) : Prop :=
  s.bZiMo p = true ∨
    if (s.playerList p).hasNewCard then s.multiHuPos = [p]
    else ∀ q ∈ s.multiHuPos, q ≠ p → s.Unanswered q

instance (s : Table) (p : Seat) : Decidable (s.Timely p) := inferInstanceAs (Decidable (_ ∨ ite _ _ _))

/-- The offers and choices fit together. In particular a win is offered to a seat with a new tile,
or to the seats of `multiHuPos` on one tile, as long as they have not answered (`fair`). -/
structure Fair (s : Table) : Prop where
  going : s.endArgs = none
  valid : s.playerGrabMgr.Valid
  chosen : s.playerGrabMgr.Chosen fun _ o _ => o ≠ .hu
  free : ∀ q, ∀ o ∈ s.playerGrabMgr.canGrabMgr.opers q, o ≠ .play → s.Unanswered q
  placed : ∀ q, s.playerGrabMgr.canGrabMgr.opers q ≠ [] → s.playerGrabMgr.pos ≠ none
  mapped : ∀ q, s.playerGrabMgr.canGrabMgr.opers q ≠ [] ∨ ¬s.Unanswered q →
    (s.playerCanDoMap q).isSome
  full : s.multiHuPos ≠ [] → ∀ q, (s.playerCanDoMap q).isSome
  fair : ∀ q l, s.HuOffered q l → (s.playerList q).hasNewCard = true ∨
    q ∈ s.multiHuPos ∧ ∃ b, l = [b] ∧ ∀ r ∈ s.multiHuPos, ¬s.Unanswered r ∨ s.HuOffered r [b]

/-- The round goes on fairly, or it is drawn, or won by declaration. -/
def Fine (s : Table) : Prop :=
  s.Fair ∨ ∃ a, s.endArgs = some a ∧ (a.isLiuJu = true ∨ s.WonByDeclaration a)

section Fair

variable {s s' : Table} {t p q : Seat} {b c : ℕ} {o : Oper} {l : List ℕ}

lemma declaresHu_iff {pkg : ClientMsg} (ho : Oper.ofCode pkg.operation = some .hu)
    (hc : fromOld2NowCardByteMap pkg.card_bytes = some c) (h : s.HuOffered p l) (hmem : c ∈ l) :
    s.declaresHu p pkg = true := by
  have hhas := PlayerGrabMgr.hasOper_iff.mpr h.1
  simp [declaresHu, ho, hc, hhas, h.2, hmem]

/-- What is known of a round that has ended. -/
lemma Fine.ended {a : EndArgs} (h : s.Fine) (ha : s.endArgs = some a) :
    a.isLiuJu = true ∨ s.WonByDeclaration a := by
  rcases h with hfair | ⟨a', ha', hend⟩
  · rw [hfair.going] at ha
    exact absurd ha.symm (Option.some_ne_none a)
  · rw [ha] at ha'
    obtain rfl := Option.some.inj ha'
    exact hend

/-- A winner who has answered has not won by declaration. -/
lemma not_wonByDeclaration {a : EndArgs} (hpos : a.huPos = some p) (hq : q ∈ a.winnerPosList)
    (hne : q ≠ p) (hans : ¬s.Unanswered q) : ¬s.WonByDeclaration a := by
  rintro ⟨pos, c, hpos', -, -, hall⟩
  rw [hpos] at hpos'
  obtain rfl := Option.some.inj hpos'
  exact hans (hall q hq hne).2

lemma liuJu_fine (s : Table) : (s.gotoNextState .liuJu).Fine :=
  Or.inr ⟨.liuJu, rfl, Or.inl rfl⟩

/-- The invariant looks at the managers, and at the new tiles of the seats that may win. -/
lemma Fair.of_same (h : s.Fair) (hgo : s'.endArgs = s.endArgs)
    (hcan : s'.playerGrabMgr.canGrabMgr = s.playerGrabMgr.canGrabMgr)
    (hdone : s'.playerGrabMgr.doneGrabMgr = s.playerGrabMgr.doneGrabMgr)
    (hpos : s.playerGrabMgr.pos ≠ none → s'.playerGrabMgr.pos ≠ none)
    (hmap : s'.playerCanDoMap = s.playerCanDoMap) (hmulti : s'.multiHuPos = s.multiHuPos)
    (hnew : ∀ q, .hu ∈ s.playerGrabMgr.canGrabMgr.opers q →
      (s.playerList q).hasNewCard = true → (s'.playerList q).hasNewCard = true) : s'.Fair := by
  have hun : ∀ q, s'.Unanswered q ↔ s.Unanswered q := fun q => by
    unfold Unanswered
    rw [hdone]
  have hoff : ∀ q l, s'.HuOffered q l ↔ s.HuOffered q l := fun q l => by
    unfold HuOffered
    rw [hcan, hmap]
  refine ⟨hgo.trans h.going, ⟨hcan ▸ h.valid.can, hdone ▸ h.valid.done⟩, h.chosen.of_done hdone,
    ?_, ?_, ?_, ?_, ?_⟩
  · intro q o ho hne
    rw [hcan] at ho
    exact (hun q).mpr (h.free q o ho hne)
  · intro q hq
    rw [hcan] at hq
    exact hpos (h.placed q hq)
  · intro q hq
    rw [hcan, hun] at hq
    rw [hmap]
    exact h.mapped q hq
  · rw [hmulti, hmap]
    exact h.full
  · intro q l hq
    rw [hoff] at hq
    rcases h.fair q l hq with hn | ⟨hmem, b, hl, hall⟩
    · exact Or.inl (hnew q hq.1 hn)
    · refine Or.inr ⟨by rwa [hmulti], b, hl, fun r hr => ?_⟩
      rw [hmulti] at hr
      rw [hun, hoff]
      exact hall r hr

/-- A seat that has answered is not offered to win. -/
lemma Fair.not_hu (h : s.Fair) (hq : ¬s.Unanswered q) :
    .hu ∉ s.playerGrabMgr.canGrabMgr.opers q := fun hmem => hq (h.free q .hu hmem (by decide))

/-- The hand of a seat that has answered may change. -/
lemma Fair.setPlayer (h : s.Fair) (hp : ¬s.Unanswered p) (player : MJPlayer) :
    (s.setPlayer p player).Fair := by
  refine h.of_same rfl rfl rfl id rfl rfl fun q hq hn => ?_
  show (Function.update s.playerList p player q).hasNewCard = true
  by_cases hqp : q = p
  · rw [hqp] at hq
    exact absurd hq (h.not_hu hp)
  · rwa [Function.update_of_ne hqp]

/-- A choice other than to win: the seat has answered, and its entry of the table may be cleared. -/
lemma Fair.choose (h : s.Fair) (ho : o ∈ s.playerGrabMgr.canGrabMgr.opers p) (hne : o ≠ .hu)
    (c : ℕ) (hgo : s'.endArgs = s.endArgs)
    (hgrab : s'.playerGrabMgr = (s.playerGrabMgr.playerDoGrab p o (some c)).2)
    (hmap : ∀ q, q ≠ p → s'.playerCanDoMap q = s.playerCanDoMap q)
    (hself : (s'.playerCanDoMap p).isSome) (hmulti : s'.multiHuPos = s.multiHuPos)
    (hplayers : s'.playerList = s.playerList) : s'.Fair := by
  have hother := fun q (hq : q ≠ p) => PlayerGrabMgr.opers_playerDoGrab_of_ne (g := s.playerGrabMgr)
    (o := o) hq (some c)
  have hplay := PlayerGrabMgr.opers_playerDoGrab_self ho (some c)
  have hun : ∀ q, q ≠ p → (s'.Unanswered q ↔ s.Unanswered q) := fun q hq => by
    unfold Unanswered
    rw [hgrab, (hother q hq).2]
  have hanswered : ¬s'.Unanswered p := by
    unfold Unanswered
    rw [hgrab]
    exact PlayerGrabMgr.opers_playerDoGrab_ne_nil ho
  have hoff : ∀ q, q ≠ p → ∀ l, (s'.HuOffered q l ↔ s.HuOffered q l) := fun q hq l => by
    unfold HuOffered
    rw [hgrab, (hother q hq).1, hmap q hq]
  have hsome : ∀ q, (s.playerCanDoMap q).isSome → (s'.playerCanDoMap q).isSome := by
    intro q hq
    by_cases hqp : q = p
    · rw [hqp]
      exact hself
    · rw [hmap q hqp]
      exact hq
  refine ⟨hgo.trans h.going, hgrab ▸ h.valid.playerDoGrab _,
    hgrab ▸ h.chosen.playerDoGrab fun _ => hne, ?_, ?_, ?_, ?_, ?_⟩
  · intro q o' ho' hne'
    rw [hgrab] at ho'
    by_cases hqp : q = p
    · rw [hqp] at ho'
      exact absurd (hplay o' ho') hne'
    · rw [(hother q hqp).1] at ho'
      exact (hun q hqp).mpr (h.free q o' ho' hne')
  · intro _ _
    rw [hgrab, PlayerGrabMgr.pos_playerDoGrab]
    exact h.placed p (List.ne_nil_of_mem ho)
  · intro q hq
    by_cases hqp : q = p
    · rw [hqp]
      exact hself
    · rw [hgrab, (hother q hqp).1, hun q hqp] at hq
      exact hsome q (h.mapped q hq)
  · rw [hmulti]
    exact fun hm q => hsome q (h.full hm q)
  · intro q l hq
    by_cases hqp : q = p
    · rw [hqp] at hq
      have hhu := hq.1
      rw [hgrab] at hhu
      exact absurd (hplay _ hhu) (by decide)
    · rw [hoff q hqp] at hq
      rw [hplayers, hmulti]
      rcases h.fair q l hq with hn | ⟨hmem, b, hl, hall⟩
      · exact Or.inl hn
      · refine Or.inr ⟨hmem, b, hl, fun r hr => ?_⟩
        by_cases hrp : r = p
        · rw [hrp]
          exact Or.inl hanswered
        · rw [hun r hrp, hoff r hrp]
          exact hall r hr

/-- The winners of a declaration that is timely: no other winner has answered. -/
lemma Fair.declare (h : s.Fair) (hoff : s.HuOffered p l) (hc : c ∈ l) (ht : s.Timely p) :
    p ∈ (if s.bZiMo p then [p] else s.multiHuPos) ∧
      ∀ q ∈ (if s.bZiMo p then [p] else s.multiHuPos), q ≠ p →
        s.HuOffered q [c] ∧ s.Unanswered q := by
  by_cases hz : s.bZiMo p = true
  · rw [if_pos hz]
    exact ⟨by simp, fun q hq hne => absurd (by simpa using hq) hne⟩
  rw [if_neg hz]
  have htimely := ht.resolve_left hz
  by_cases hnew : (s.playerList p).hasNewCard = true
  · rw [if_pos hnew] at htimely
    rw [htimely]
    exact ⟨by simp, fun q hq hne => absurd (by simpa using hq) hne⟩
  · rw [if_neg hnew] at htimely
    obtain ⟨hmem, b, rfl, hall⟩ := (h.fair p l hoff).resolve_left hnew
    obtain rfl : c = b := by simpa using hc
    refine ⟨hmem, fun q hq hne => ⟨?_, htimely q hq hne⟩⟩
    exact (hall q hq).resolve_left fun hans => hans (htimely q hq hne)

/-- The prevailing choice is recorded for its seat, and it is not to win. -/
lemma Fair.node {node : GrabItem} (h : s.Fair) (hnode : s.playerGrabMgr.getPowestNode = some node) :
    ∃ o c, s.playerGrabMgr.doneGrabMgr.opers node.pos = [o] ∧ node.operList = [o] ∧
      node.byteCard = some c ∧ o ≠ .hu := by
  obtain ⟨hitem, o, c, ho, hcard, hne⟩ := h.chosen.getPowestNode hnode
  refine ⟨o, c, ?_, ho, hcard, hne⟩
  unfold CanGrabMgr.opers
  rw [hitem]
  exact ho

/-- A declared win is decided at once, in favour of the seat that declared it. -/
lemma Fair.decided (h : s.Fair) (hmem : .hu ∈ s.playerGrabMgr.canGrabMgr.opers p) (c : ℕ) :
    (s.playerGrabMgr.playerDoGrab p .hu (some c)).2.needWait = some false ∧
      ∃ node, (s.playerGrabMgr.playerDoGrab p .hu (some c)).2.getPowestNode = some node ∧
        node.pos = p ∧ node.operList = [.hu] ∧ node.byteCard = some c :=
  PlayerGrabMgr.decided_hu h.valid h.chosen hmem (h.free p .hu hmem (by decide)) c

/-- A single winner is the one who declared. -/
lemma wonByDeclaration_single {a : EndArgs} (hpos : a.huPos = some p) (hcard : a.huCard = some c)
    (hwin : a.winnerPosList = [p]) : s.WonByDeclaration a := by
  refine ⟨p, c, hpos, hcard, by simp [hwin], fun q hq hne => ?_⟩
  rw [hwin] at hq
  exact absurd (by simpa using hq) hne

/-- The round won by a timely declaration. -/
lemma Fair.won {a : EndArgs} (h : s.Fair) (hoff : s.HuOffered p l) (hc : c ∈ l)
    (ht : s.Timely p) (hgrab : s'.playerGrabMgr = (s.playerGrabMgr.playerDoGrab p .hu (some c)).2)
    (hmap : ∀ q, q ≠ p → s'.playerCanDoMap q = s.playerCanDoMap q) (hpos : a.huPos = some p)
    (hcard : a.huCard = some c)
    (hwin : a.winnerPosList = if s.bZiMo p then [p] else s.multiHuPos) :
    s'.WonByDeclaration a := by
  obtain ⟨hmem, hall⟩ := h.declare hoff hc ht
  refine ⟨p, c, hpos, hcard, by rw [hwin]; exact hmem, fun q hq hne => ?_⟩
  rw [hwin] at hq
  obtain ⟨hopen, hun⟩ := hall q hq hne
  have hother := PlayerGrabMgr.opers_playerDoGrab_of_ne (g := s.playerGrabMgr) (o := .hu) hne
    (some c)
  refine ⟨⟨?_, ?_⟩, ?_⟩
  · rw [hgrab, hother.1]
    exact hopen.1
  · rw [hmap q hne]
    exact hopen.2
  · unfold Unanswered
    rw [hgrab, hother.2]
    exact hun

end Fair

/-! ### New offers -/

section Offers

variable {s : Table} {t : Seat} {b : ℕ}

/-- The offers to the seat whose turn it is. -/
lemma turn_fair {offers : List (Oper × List ℕ)} {map : Seat → Option CanDoMap}
    (g : PlayerGrabMgr) (hgo : s.endArgs = none) (hnew : (s.playerList t).hasNewCard = true)
    (hlevel : ∀ o ∈ offers.map Prod.fst, o ∈ operLevel)
    (hfull : s.multiHuPos ≠ [] → ∀ q, (map q).isSome) :
    Fair { s with
      playerGrabMgr := (g.clear.addCanDoItem t (offers.map Prod.fst)).setPos t
      playerCanDoMap := Function.update map t (some (.ofOffers offers)) } := by
  have hopers : ∀ q, ((g.clear.addCanDoItem t (offers.map Prod.fst)).setPos
      t).canGrabMgr.opers q = if q = t then sortOpers (offers.map Prod.fst) else [] := by
    intro q
    simp [PlayerGrabMgr.setPos, PlayerGrabMgr.addCanDoItem, PlayerGrabMgr.clear]
  have honly : ∀ q, ((g.clear.addCanDoItem t (offers.map Prod.fst)).setPos
      t).canGrabMgr.opers q ≠ [] → q = t := by
    intro q hq
    rw [hopers] at hq
    by_contra hqt
    rw [if_neg hqt] at hq
    exact hq rfl
  have hdone : ∀ q, g.clear.doneGrabMgr.opers q = [] := by
    intro q
    simp [PlayerGrabMgr.clear]
  refine ⟨hgo, (PlayerGrabMgr.valid_clear.addCanDoItem hlevel).setPos,
    PlayerGrabMgr.chosen_clear.of_done rfl, fun q _ _ _ => hdone q, fun _ _ => by
      simp [PlayerGrabMgr.setPos], ?_, ?_, ?_⟩
  · intro q hq
    have hqt : q = t := hq.elim (honly q) fun hans => absurd (hdone q) hans
    dsimp only
    rw [hqt, Function.update_self]
    rfl
  · intro hm q
    dsimp only
    by_cases hqt : q = t
    · rw [hqt, Function.update_self]
      rfl
    · rw [Function.update_of_ne hqt]
      exact hfull hm q
  · intro q l hq
    obtain rfl : q = t := honly q (List.ne_nil_of_mem hq.1)
    exact Or.inl hnew

section Others

variable {claims : Seat → List (Oper × List ℕ)} {l : List Seat} {r : Bool × Table}
  {g : PlayerGrabMgr}

/-- After the offers of a tile, `multiHuPos` holds the seats that may win on it. -/
lemma Offered.huOffered (h : Offered claims l (false, s) r)
    (hgrab : s.playerGrabMgr = g.clear.setPos t) (hmulti : s.multiHuPos = [])
    (hhu : ∀ p l', (Oper.hu, l') ∈ claims p → l' = [b]) (q : Seat) :
    (q ∈ r.2.multiHuPos → r.2.HuOffered q [b] ∧ r.2.Unanswered q) ∧
      ∀ l', r.2.HuOffered q l' → q ∈ r.2.multiHuPos ∧ l' = [b] := by
  have hm : r.2.multiHuPos = l.filter (offersHu claims) := by
    rw [h.frame]
    simp [hmulti]
  have hmap : r.2.playerCanDoMap q = if q ∈ l then some (.ofOffers (withCancel (claims q)))
      else s.playerCanDoMap q := by
    rw [h.frame]
  have hempty : ∀ p, s.playerGrabMgr.canGrabMgr.opers p = [] := by
    intro p
    simp [hgrab, PlayerGrabMgr.setPos, PlayerGrabMgr.clear]
  have hoffer : offersHu claims q = true ↔ .hu ∈ (withCancel (claims q)).map Prod.fst := by
    simp [offersHu]
  have hcards : ∀ l', (CanDoMap.ofOffers (withCancel (claims q))).cards .hu = some l' →
      l' = [b] := by
    intro l' hl'
    rcases mem_withCancel (CanDoMap.mem_of_cards_ofOffers hl') with hmem | heq
    · exact hhu q l' hmem
    · exact absurd (congrArg Prod.fst heq) (by simp)
  constructor
  · intro hq
    rw [hm, List.mem_filter] at hq
    have hmem := hoffer.mp hq.2
    have hne : claims q ≠ [] := by
      intro hnil
      simp [hnil, withCancel] at hmem
    obtain ⟨l', hl'⟩ := CanDoMap.cards_ofOffers_isSome hmem
    refine ⟨⟨?_, ?_⟩, ?_⟩
    · rw [h.opers, if_pos ⟨hq.1, hne⟩]
      exact PlayerGrabMgr.Round.mem_sortOpers.mpr hmem
    · rw [hmap, if_pos hq.1, Option.bind_some, hl', hcards l' hl']
    · unfold Unanswered
      rw [h.done]
      simp [hgrab, PlayerGrabMgr.setPos, PlayerGrabMgr.clear]
  · intro l' hq
    have hopen := hq.1
    rw [h.opers] at hopen
    split_ifs at hopen with hcond
    · have hmem := PlayerGrabMgr.Round.mem_sortOpers.mp hopen
      refine ⟨?_, ?_⟩
      · rw [hm, List.mem_filter]
        exact ⟨hcond.1, hoffer.mpr hmem⟩
      · have htile := hq.2
        rw [hmap, if_pos hcond.1, Option.bind_some] at htile
        exact hcards l' htile
    · simp [hempty] at hopen

/-- The offers of a tile to other seats. -/
lemma Offered.fair (h : Offered claims l (false, s) r) (hgo : s.endArgs = none)
    (hgrab : s.playerGrabMgr = g.clear.setPos t) (hmulti : s.multiHuPos = [])
    (hlevel : ∀ p, ∀ x ∈ claims p, x.1 ∈ operLevel)
    (hhu : ∀ p l', (Oper.hu, l') ∈ claims p → l' = [b])
    (hfull : r.2.multiHuPos ≠ [] → ∀ q, q ∉ l → (s.playerCanDoMap q).isSome) : r.2.Fair := by
  have hwin := fun q => h.huOffered hgrab hmulti hhu q
  have hdone : ∀ q, r.2.Unanswered q := by
    intro q
    unfold Unanswered
    rw [h.done]
    simp [hgrab, PlayerGrabMgr.setPos, PlayerGrabMgr.clear]
  have hmap : ∀ q, r.2.playerCanDoMap q = if q ∈ l then some (.ofOffers (withCancel (claims q)))
      else s.playerCanDoMap q := by
    intro q
    rw [h.frame]
  have hvalid : s.playerGrabMgr.Valid := by
    rw [hgrab]
    exact PlayerGrabMgr.valid_clear.setPos
  have hchosen : s.playerGrabMgr.Chosen fun _ o _ => o ≠ .hu := by
    rw [hgrab]
    exact PlayerGrabMgr.chosen_clear.of_done rfl
  refine ⟨?_, h.valid hlevel hvalid, hchosen.of_done h.done, fun q _ _ _ => hdone q, ?_, ?_, ?_, ?_⟩
  · rw [h.frame]
    exact hgo
  · intro _ _
    rw [h.pos]
    simp [hgrab, PlayerGrabMgr.setPos]
  · intro q hq
    have hopen := hq.resolve_right fun hans => hans (hdone q)
    rw [h.opers] at hopen
    split_ifs at hopen with hcond
    · rw [hmap, if_pos hcond.1]
      rfl
    · simp [hgrab, PlayerGrabMgr.setPos, PlayerGrabMgr.clear] at hopen
  · intro hm q
    rw [hmap]
    split_ifs with hq
    · rfl
    · exact hfull hm q hq
  · intro q l' hq
    obtain ⟨hmem, hl'⟩ := (hwin q).2 l' hq
    exact Or.inr ⟨hmem, b, hl', fun r' hr' => Or.inr ((hwin r').1 hr').1⟩

/-- The offers of a tile to the other seats, with the seats before the one that stops them if one
does. -/
lemma offerUntil_fair {stops : Seat → Bool} (hgo : s.endArgs = none)
    (hgrab : s.playerGrabMgr = g.clear.setPos t) (hmulti : s.multiHuPos = [])
    (hlevel : ∀ p, ∀ x ∈ claims p, x.1 ∈ operLevel)
    (hhu : ∀ p l', (Oper.hu, l') ∈ claims p → l' = [b])
    (hstops : ∀ p q, stops p = false → stops q = true → offersHu claims p = false)
    (hturn : (s.playerCanDoMap t).isSome) :
    (∃ s', offerUntil s t stops claims = .error s' ∧ s'.Fair) ∨
      offerUntil s t stops claims = .ok (offerToOthers s t claims) ∧
        (offerToOthers s t claims).2.Fair := by
  by_cases hany : [t + 1, t + 2, t + 3].any stops = true
  · obtain ⟨q, -, hq⟩ := List.any_eq_true.mp hany
    refine Or.inl ⟨_, if_pos hany, ?_⟩
    have hoff : Offered claims ([t + 1, t + 2, t + 3].takeWhile fun pos => !stops pos) (false, s)
        (([t + 1, t + 2, t + 3].takeWhile fun pos => !stops pos).foldl (offerTo claims) (false, s)) :=
      foldl_offerTo_offered _ _
    refine hoff.fair hgo hgrab hmulti hlevel hhu fun hne => absurd ?_ hne
    rw [hoff.frame]
    simp only [hmulti, List.nil_append, List.filter_eq_nil_iff]
    intro p hp
    have hgoes : stops p = false := by simpa using List.mem_takeWhile_imp hp
    simp [hstops p q hgoes hq]
  · have hgoes : ∀ p ∈ [t + 1, t + 2, t + 3], (!stops p) = true := by
      intro p hp
      rw [Bool.not_eq_true, List.any_eq_false] at hany
      simpa using hany p hp
    have hok : offerUntil s t stops claims = .ok (offerToOthers s t claims) := by
      have hall := List.takeWhile_eq_self_iff.mpr hgoes
      unfold offerUntil
      dsimp only
      rw [if_neg hany, hall]
      rfl
    refine Or.inr ⟨hok, (offerToOthers_offered claims s t).fair hgo hgrab hmulti hlevel hhu ?_⟩
    intro _ q hq
    rw [mem_otherSeats, not_not] at hq
    rw [hq]
    exact hturn

end Others

end Offers

end Table

end Mahjong
