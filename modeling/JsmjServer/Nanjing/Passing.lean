import JsmjServer.Nanjing.Conservation

set_option relaxedAutoImplicit false
set_option autoImplicit false

/-!
# Passing on a tile in nanjing mahjong

A seat that cancels an offer to win or to peng is not offered the same on that tile again until it
has drawn. `onGrabCard` writes the tile into the manager of cancelled operations, `checkOtherOper`
looks it up, and `giveNewCard` clears it. The module keeps beside the state what each seat has
passed on since its last draw, as it can be read off the events and the states, and compares it with
the offers over whole runs.

The offers to a seat that has just taken a tile by peng do not ask the manager: where another seat
has to pay for all (`isBaoPai`), it may win with the last tile of its own hand, also when it has
passed on that tile before.

## Main definitions

* `Nanjing.offered` — the tiles with which an operation is offered to a seat.
* `Nanjing.passes`, `Nanjing.dealt`, `Nanjing.trackStep` — what an event passes on, to whom it
  deals a tile, and the run with the tiles passed on.
* `Nanjing.Passing.Bound` — the invariant.

## Main results

* `Nanjing.passed_not_offered` — every run.
-/

namespace Mahjong

namespace MJCancelMgr

variable {m : MJCancelMgr} {p q : Seat} {o o' : Oper} {b c : ℕ}

/-- The tiles of the first item of an operation. -/
def cardsOf (items : List CancelItem) (o : Oper) : List ℕ :=
  match items.find? fun item => item.oper = o with
  | some item => item.cardList
  | none => []

lemma isCancelOper_iff :
    m.isCancelOper p o c = true ↔ c ∈ cardsOf ((m.cancelMap p).getD []) o := by
  unfold isCancelOper getCancelItem cardsOf
  cases m.cancelMap p with
  | none => simp
  | some items =>
    simp only [Option.bind_some, Option.getD_some]
    cases items.find? fun item => item.oper = o with
    | none => simp
    | some item => simp

lemma cardsOf_addCard (items : List CancelItem) :
    c ∈ cardsOf (addCard o b items) o' ↔ c ∈ cardsOf items o' ∨ o' = o ∧ c = b := by
  induction items with
  | nil =>
    by_cases h : o = o'
    · simp [addCard, cardsOf, h]
    · simp [addCard, cardsOf, h, Ne.symm h]
  | cons item items ih =>
    by_cases h : item.oper = o
    · by_cases h' : o = o'
      · subst h'
        simp [addCard, cardsOf, h]
      · have hne : item.oper ≠ o' := h ▸ h'
        simp only [addCard, h, if_true, cardsOf, List.find?_cons]
        simp [h', Ne.symm h']
    · by_cases h' : item.oper = o'
      · have hne : o' ≠ o := h' ▸ h
        rw [addCard, if_neg h]
        simp [cardsOf, h', hne]
      · have hcons : ∀ l, cardsOf (item :: l) o' = cardsOf l o' := by
          intro l
          simp [cardsOf, h']
        rw [addCard, if_neg h, hcons, hcons]
        exact ih

/-- A tile added to the cancelled ones. -/
lemma isCancelOper_addCancelOper :
    (m.addCancelOper q o b).isCancelOper p o' c = true ↔
      m.isCancelOper p o' c = true ∨ p = q ∧ o' = o ∧ c = b := by
  rw [isCancelOper_iff, isCancelOper_iff, addCancelOper]
  by_cases h : p = q
  · subst h
    simp [cardsOf_addCard]
  · simp [h]

lemma cardsOf_clearItems (items : List CancelItem) : cardsOf (clearItems items) o = [] := by
  unfold cardsOf clearItems
  induction items with
  | nil => rfl
  | cons item items ih =>
    by_cases h : item.oper = o
    · simp [h]
    · simpa [h] using ih

/-- The tiles of a seat are forgotten. -/
lemma isCancelOper_clearSeat :
    (m.clearSeat q).isCancelOper p o c = true ↔ p ≠ q ∧ m.isCancelOper p o c = true := by
  rw [isCancelOper_iff, isCancelOper_iff, clearSeat]
  by_cases h : p = q
  · subst h
    cases m.cancelMap p with
    | none => simp [cardsOf]
    | some items => simp [cardsOf_clearItems]
  · simp [h]

lemma isCancelOper_clear : m.clear.isCancelOper p o c = false := by
  rw [← Bool.not_eq_true, isCancelOper_iff, clear]
  dsimp only
  cases m.cancelMap p with
  | none => simp [cardsOf]
  | some items => simp [cardsOf_clearItems]

end MJCancelMgr

/-- A seat that cancels passes on the tile of one offer. -/
lemma isCancelOper_addOffered (m : MJCancelMgr) {p q : Seat} {o : Oper} (oper : Oper) {c : ℕ}
    {map : CanDoMap} :
    (match (map.cards oper).bind List.head? with
      | some card => m.addCancelOper q oper card
      | none => m).isCancelOper p o c = true ↔
    m.isCancelOper p o c = true ∨ p = q ∧ o = oper ∧ (map.cards o).bind List.head? = some c := by
  cases hcard : (map.cards oper).bind List.head? with
  | none =>
    have hnot : ¬(p = q ∧ o = oper ∧ (map.cards o).bind List.head? = some c) := by
      rintro ⟨-, rfl, h⟩
      simp [hcard] at h
    simp only [hnot, or_false]
  | some card =>
    simp only [MJCancelMgr.isCancelOper_addCancelOper]
    constructor
    · rintro (h | ⟨hp, rfl, rfl⟩)
      · exact Or.inl h
      · exact Or.inr ⟨hp, rfl, hcard⟩
    · rintro (h | ⟨hp, rfl, hc⟩)
      · exact Or.inl h
      · exact Or.inr ⟨hp, rfl, Option.some.inj (hc.symm.trans hcard)⟩

/-- The tiles a seat that cancels has passed on. -/
lemma isCancelOper_addCancelOpers {m : MJCancelMgr} {p q : Seat} {o : Oper} {c : ℕ}
    {map : CanDoMap} : (addCancelOpers m q map).isCancelOper p o c = true ↔
      m.isCancelOper p o c = true ∨
        p = q ∧ (o = .hu ∨ o = .peng) ∧ (map.cards o).bind List.head? = some c := by
  refine (isCancelOper_addOffered _ .peng).trans
    ((or_congr_left (isCancelOper_addOffered m .hu)).trans ?_)
  rw [or_assoc, ← and_or_left, ← or_and_right]

end Mahjong

namespace Nanjing

open Mahjong

/-! ### Offers and tiles passed on -/

/-- The tiles with which an operation is offered to a seat. -/
def offered (s : Table) (p : Seat) (o : Oper) : List ℕ :=
  if o ∈ s.playerGrabMgr.canGrabMgr.opers p then
    ((s.playerCanDoMap p).bind fun map => map.cards o).getD []
  else []

/-- The message cancels, and is accepted. -/
def cancels (s : Table) (p : Seat) (pkg : ClientMsg) : Bool :=
  Oper.ofCode pkg.operation == some .cancel && s.playerGrabMgr.hasOper p .cancel &&
    ((s.playerCanDoMap p).bind fun map => map.cards .cancel).isSome

/-- The tiles a seat passes on: those of the offer to win, or to peng, that it cancels. -/
def passes (s : Table) (e : Event) (p : Seat) (o : Oper) : List ℕ :=
  match e with
  | .clientMsg q pkg =>
    if p = q ∧ (o = .hu ∨ o = .peng) ∧ cancels s q pkg = true then offered s p o else []
  | .buHua _ => []

/-- The message asks for a tile by the debug operation. -/
def asksForTile : Event → Bool
  | .clientMsg _ pkg => Oper.ofCode pkg.operation == some .testNeedCard
  | .buHua _ => false

/-- `giveNewCard` has dealt a tile to the seat while the event was handled: only there a tile leaves
the wall, or is taken of those asked for, and the seat becomes the position. -/
def dealt (s : Table) (e : Event) (s' : Table) (p : Seat) : Bool :=
  !asksForTile e && s'.playerGrabMgr.pos == some p &&
    (s'.mjWall != s.mjWall || seats.any fun q => s'.testPlayerNeedCard q != s.testPlayerNeedCard q)

/-- For each seat and operation, the tiles passed on since the seat was last dealt a tile. -/
abbrev Passed := Seat → Oper → List ℕ

/-- The seat has been dealt a tile, and may claim all tiles again. -/
def Passed.clear (passed : Passed) (t : Seat) : Passed := fun p o => if p = t then [] else passed p o

/-- A step with the tiles passed on. -/
def trackStep (x : Table × Passed) (e : GameProgress × Event) : Option (Table × Passed) :=
  (step x.1 e).map fun s' =>
    (s', fun p o => if dealt x.1 e.2 s' p then [] else x.2 p o ++ passes x.1 e.2 p o)

namespace Passing

/-! ### The invariant -/

/-- The seat has a new tile, and has nothing to do but to wait for another: it has cancelled a claim
after a timer had given it the tile. -/
structure Waiting (s : Table) (p : Seat) : Prop where
  newCard : (s.playerList p).hasNewCard = true
  opers : s.playerGrabMgr.canGrabMgr.opers p = []
  done : ∀ o ∈ s.playerGrabMgr.doneGrabMgr.opers p, o = .cancel

/-- The offers and the table of offered tiles fit together. -/
structure Offers (s : Table) : Prop where
  single : ∀ p map o l, o = .hu ∨ o = .peng → s.playerCanDoMap p = some map →
    map.cards o = some l → ∃ b, l = [b]
  whole : ∀ p map o l, .cancel ∈ s.playerGrabMgr.canGrabMgr.opers p →
    s.playerCanDoMap p = some map → map.cards o = some l →
    o ∈ s.playerGrabMgr.canGrabMgr.opers p
  apart : ∀ p o, .cancel ∈ s.playerGrabMgr.canGrabMgr.opers p → o = .hu ∨ o = .peng →
    o ∈ s.playerGrabMgr.canGrabMgr.opers p → .play ∉ s.playerGrabMgr.canGrabMgr.opers p
  free : ∀ p, ∀ o ∈ s.playerGrabMgr.canGrabMgr.opers p, o ≠ .play →
    s.playerGrabMgr.doneGrabMgr.opers p = []

/-- The tiles passed on are those of the manager, and no claim on them is offered. A seat may be
offered to win with its own new tile all the same. -/
structure Bound (passed : Passed) (s : Table) : Prop extends Offers s where
  only : ∀ p o c, s.mjCancelMgr.isCancelOper p o c = true → c ∈ passed p o
  kept : ∀ p o c, c ∈ passed p o → s.mjCancelMgr.isCancelOper p o c = true ∨ Waiting s p
  fresh : ∀ p o c, o = .hu ∨ o = .peng → c ∈ offered s p o → c ∈ passed p o →
    o = .hu ∧ (s.playerList p).hasNewCard = true ∧ c = (s.playerList p).newCard

/-- What is left of the invariant when new offers are about to be made. -/
structure Memo (passed : Passed) (s : Table) : Prop where
  single : ∀ p map o l, o = .hu ∨ o = .peng → s.playerCanDoMap p = some map →
    map.cards o = some l → ∃ b, l = [b]
  only : ∀ p o c, s.mjCancelMgr.isCancelOper p o c = true → c ∈ passed p o
  kept : ∀ p o c, c ∈ passed p o → s.mjCancelMgr.isCancelOper p o c = true ∨
    (s.playerList p).hasNewCard = true

/-- The invariant for all seats but `t`, which is about to be dealt a tile. -/
structure Ready (passed : Passed) (s : Table) (t : Seat) : Prop extends Offers s where
  only : ∀ p o c, s.mjCancelMgr.isCancelOper p o c = true → c ∈ passed p o
  kept : ∀ p o c, p ≠ t → c ∈ passed p o →
    s.mjCancelMgr.isCancelOper p o c = true ∨ Waiting s p
  fresh : ∀ p o c, p ≠ t → o = .hu ∨ o = .peng → c ∈ offered s p o → c ∈ passed p o →
    o = .hu ∧ (s.playerList p).hasNewCard = true ∧ c = (s.playerList p).newCard

/-- What one move leaves, when the round goes on: a tile has been dealt to a seat, or none. -/
def Result (passed : Passed) (s s' : Table) : Prop :=
  s'.endArgs = none →
    (s'.mjWall = s.mjWall ∧ s'.testPlayerNeedCard = s.testPlayerNeedCard ∧ Bound passed s') ∨
    ∃ t, s'.playerGrabMgr.pos = some t ∧
      (s'.mjWall ≠ s.mjWall ∨ s'.testPlayerNeedCard ≠ s.testPlayerNeedCard) ∧
      Bound (passed.clear t) s'

section Lemmas

variable {passed : Passed} {s s' : Table} {t p : Seat} {o : Oper} {c : ℕ}

lemma mem_offered : c ∈ offered s p o ↔ o ∈ s.playerGrabMgr.canGrabMgr.opers p ∧
    ∃ map l, s.playerCanDoMap p = some map ∧ map.cards o = some l ∧ c ∈ l := by
  unfold offered
  split_ifs with h
  · cases hmap : s.playerCanDoMap p with
    | none => simp
    | some map =>
      cases hl : map.cards o with
      | none => simp [h, hl]
      | some l => simp [h, hl]
  · simp [h]

lemma Bound.memo (h : Bound passed s) : Memo passed s :=
  ⟨h.single, h.only, fun p o c hc => (h.kept p o c hc).imp_right Waiting.newCard⟩

lemma Bound.ready (h : Bound passed s) (t : Seat) : Ready passed s t :=
  ⟨h.toOffers, h.only, fun p o c _ => h.kept p o c, fun p o c _ => h.fresh p o c⟩

lemma Bound.result (h : Bound passed s') (hwall : s'.mjWall = s.mjWall)
    (htest : s'.testPlayerNeedCard = s.testPlayerNeedCard) : Result passed s s' :=
  fun _ => Or.inl ⟨hwall, htest, h⟩

/-- A move from a state with the same wall. -/
lemma Result.of_same {s₁ : Table} (h : Result passed s₁ s') (hwall : s₁.mjWall = s.mjWall)
    (htest : s₁.testPlayerNeedCard = s.testPlayerNeedCard) : Result passed s s' := by
  intro hgo
  have hr := h hgo
  rw [hwall, htest] at hr
  exact hr

lemma result_over (h : s'.endArgs ≠ none) : Result passed s s' := fun hgo => absurd hgo h

/-- The offers look at the managers of offers and choices only, and an emptied entry of the table of
tiles offers nothing. -/
lemma Offers.of_same (h : Offers s)
    (hcan : s'.playerGrabMgr.canGrabMgr = s.playerGrabMgr.canGrabMgr)
    (hdone : s'.playerGrabMgr.doneGrabMgr = s.playerGrabMgr.doneGrabMgr)
    (hmap : ∀ p, s'.playerCanDoMap p = s.playerCanDoMap p ∨ s'.playerCanDoMap p = some .empty) :
    Offers s' := by
  have hcards : ∀ p map o l, s'.playerCanDoMap p = some map → map.cards o = some l →
      s.playerCanDoMap p = some map := by
    intro p map o l hmap' hl
    rcases hmap p with heq | heq
    · rw [← heq]
      exact hmap'
    · rw [heq] at hmap'
      obtain rfl := Option.some.inj hmap'
      simp [CanDoMap.empty] at hl
  refine ⟨fun p map o l ho hmap' hl => ?_, fun p map o l hc hmap' hl => ?_, ?_, ?_⟩
  · exact h.single p map o l ho (hcards p map o l hmap' hl) hl
  · rw [hcan] at hc ⊢
    exact h.whole p map o l hc (hcards p map o l hmap' hl) hl
  · rw [hcan]
    exact h.apart
  · rw [hcan, hdone]
    exact h.free

/-- Fewer tiles are offered when entries of the table of tiles are emptied. -/
lemma offered_of_same (hcan : s'.playerGrabMgr.canGrabMgr = s.playerGrabMgr.canGrabMgr)
    (hmap : s'.playerCanDoMap p = s.playerCanDoMap p ∨ s'.playerCanDoMap p = some .empty)
    (h : c ∈ offered s' p o) : c ∈ offered s p o := by
  rw [mem_offered] at h ⊢
  obtain ⟨hmem, map, l, hmap', hl, hc⟩ := h
  rw [hcan] at hmem
  refine ⟨hmem, map, l, ?_, hl, hc⟩
  rcases hmap with heq | heq
  · rw [← heq]
    exact hmap'
  · rw [heq] at hmap'
    obtain rfl := Option.some.inj hmap'
    simp [CanDoMap.empty] at hl

/-- The players other than `t` and the managers are the same, but for emptied entries. -/
lemma Ready.of_same (h : Ready passed s t)
    (hcan : s'.playerGrabMgr.canGrabMgr = s.playerGrabMgr.canGrabMgr)
    (hdone : s'.playerGrabMgr.doneGrabMgr = s.playerGrabMgr.doneGrabMgr)
    (hmap : ∀ p, s'.playerCanDoMap p = s.playerCanDoMap p ∨ s'.playerCanDoMap p = some .empty)
    (hcancel : s'.mjCancelMgr = s.mjCancelMgr)
    (hplayers : ∀ p, p ≠ t → s'.playerList p = s.playerList p) : Ready passed s' t := by
  refine ⟨h.toOffers.of_same hcan hdone hmap, hcancel ▸ h.only, fun p o c hp hc => ?_,
    fun p o c hp ho hoff hc => ?_⟩
  · rw [hcancel]
    rcases h.kept p o c hp hc with hk | ⟨hnew, hopers, hd⟩
    · exact Or.inl hk
    · refine Or.inr ⟨?_, ?_, ?_⟩
      · rw [hplayers p hp]
        exact hnew
      · rw [hcan]
        exact hopers
      · rw [hdone]
        exact hd
  · rw [hplayers p hp]
    exact h.fresh p o c hp ho (offered_of_same hcan (hmap p) hoff) hc

/-- The same for all seats. -/
lemma Bound.of_same (h : Bound passed s)
    (hcan : s'.playerGrabMgr.canGrabMgr = s.playerGrabMgr.canGrabMgr)
    (hdone : s'.playerGrabMgr.doneGrabMgr = s.playerGrabMgr.doneGrabMgr)
    (hmap : ∀ p, s'.playerCanDoMap p = s.playerCanDoMap p ∨ s'.playerCanDoMap p = some .empty)
    (hcancel : s'.mjCancelMgr = s.mjCancelMgr) (hplayers : s'.playerList = s.playerList) :
    Bound passed s' := by
  have hready : ∀ t, Ready passed s' t := fun t =>
    (h.ready t).of_same hcan hdone hmap hcancel fun p _ => by rw [hplayers]
  have hother : ∀ p : Seat, p ≠ p + 1 := by decide
  exact ⟨(hready 0).toOffers, (hready 0).only, fun p o c => (hready (p + 1)).kept p o c (hother p),
    fun p o c => (hready (p + 1)).fresh p o c (hother p)⟩

/-- Clearing the table of tiles keeps or empties each entry. -/
lemma clearAllCanDoMap_cases (s : Table) (p : Seat) :
    (clearAllCanDoMap s).playerCanDoMap p = s.playerCanDoMap p ∨
      (clearAllCanDoMap s).playerCanDoMap p = some .empty := by
  simp only [clearAllCanDoMap]
  split_ifs
  · exact Or.inr rfl
  · exact Or.inl rfl

end Lemmas

/-! ### New offers -/

section NewOffers

variable (gameProgress : GameProgress) {passed : Passed} {s : Table} {t p : Seat} {b : ℕ} {o : Oper}
  {l : List ℕ} {bGrabGang : Bool}

/-- No claim is allowed to a seat with a new tile, nor one on a tile it has passed on. -/
lemma of_mem_claims (h : (o, l) ∈ claims gameProgress s t p b bGrabGang) :
    (s.playerList p).hasNewCard = false ∧
      (o = .hu ∨ o = .peng → s.mjCancelMgr.isCancelOper p o b = false) := by
  simp only [claims, List.mem_append] at h
  rcases h with (h | h) | h <;> split_ifs at h with hc <;>
    simp only [List.not_mem_nil, List.mem_singleton, Prod.mk.injEq] at h
  · simp only [otherHu, MJPlayer.canHu, MJPlayer.canHuQiDui, Bool.and_eq_true, Bool.or_eq_true,
      Bool.not_eq_true'] at hc
    refine ⟨?_, fun _ => ?_⟩
    · rcases hc.1.2 with hnew | hnew
      · exact hnew.1
      · exact hnew.1
    · rw [h.1]
      exact hc.1.1.2
  · simp only [MJPlayer.canGang, Bool.and_eq_true, Bool.not_eq_true'] at hc
    refine ⟨hc.2.1, fun ho => ?_⟩
    rw [h.1] at ho
    simp at ho
  · simp only [MJPlayer.canPeng, Bool.and_eq_true, Bool.not_eq_true'] at hc
    refine ⟨hc.2.1, fun _ => ?_⟩
    rw [h.1]
    exact hc.1.2

/-- A seat with a new tile has no claims. -/
lemma claims_eq_nil (h : (s.playerList p).hasNewCard = true) :
    claims gameProgress s t p b bGrabGang = [] := by
  by_contra hne
  obtain ⟨⟨o, l⟩, hmem⟩ := List.exists_mem_of_ne_nil _ hne
  have hnew := (of_mem_claims gameProgress hmem).1
  rw [h] at hnew
  exact absurd hnew (by decide)

/-- A seat that may win with its new tile cannot cancel, and is not offered to peng. -/
lemma myOffers_apart {countHuType : CountHuType} {player : MJPlayer} {checkOp : Bool}
    (hc : .cancel ∈ (myOffers countHuType player checkOp).map Prod.fst) :
    .hu ∉ (myOffers countHuType player checkOp).map Prod.fst ∧
      .peng ∉ (myOffers countHuType player checkOp).map Prod.fst := by
  constructor
  · intro hhu
    by_cases hself : selfHu countHuType player = true
    · obtain ⟨⟨o, l⟩, hmem, rfl⟩ := List.mem_map.mp hc
      simp only [myOffers, hself, if_true, List.mem_cons, List.mem_append] at hmem
      rcases hmem with h | (h | h) | h
      · simp at h
      all_goals
        split_ifs at h <;> simp at h
    · rw [Bool.not_eq_true] at hself
      obtain ⟨⟨o, l⟩, hmem, rfl⟩ := List.mem_map.mp hhu
      simp only [myOffers, hself, Bool.false_and, Bool.false_eq_true, if_false, List.mem_cons,
        List.nil_append] at hmem
      rcases hmem with h | h
      · simp at h
      rcases mem_withCancel h with h | h
      · rcases List.mem_append.mp h with h | h <;> split_ifs at h <;> simp at h
      · simp at h
  · intro hpeng
    obtain ⟨⟨o, l⟩, hmem, rfl⟩ := List.mem_map.mp hpeng
    rcases Hands.mem_myOffers hmem with ⟨h, -⟩ | ⟨h, -⟩ | ⟨h, -⟩ | ⟨h, -⟩ | ⟨h, -⟩ <;> simp at h

/-- The offers to the seat whose turn it is. The tiles it has passed on are in the manager. -/
lemma checkMyOper_bound (h : Memo passed s) (hnew : (s.playerList t).hasNewCard = true)
    (ht : ∀ o c, c ∈ passed t o → s.mjCancelMgr.isCancelOper t o c = true) (checkOp : Bool)
    (hgo : (checkMyOper gameProgress s t checkOp).endArgs = none) :
    Bound passed (checkMyOper gameProgress s t checkOp) := by
  have hn : ¬((clearAllCanDoMap s).playerList t).hasNewCard = false := by
    show ¬(s.playerList t).hasNewCard = false
    simp [hnew]
  unfold checkMyOper at hgo ⊢
  dsimp only at hgo ⊢
  rw [if_neg hn] at hgo ⊢
  split_ifs at hgo ⊢ with hauto
  · simp [doHu, Table.gotoNextState] at hgo
  set offers := myOffers (gameProgress.countHuType t none) (s.playerList t) checkOp with hoffers
  set s' : Table := { clearAllCanDoMap s with
    playerGrabMgr := (s.playerGrabMgr.clear.addCanDoItem t (offers.map Prod.fst)).setPos
      t }.setCanDoMap t (.ofOffers offers) with hs'
  show Bound passed s'
  have hopers : ∀ p, s'.playerGrabMgr.canGrabMgr.opers p =
      if p = t then sortOpers (offers.map Prod.fst) else [] := by
    intro p
    simp [hs', Table.setCanDoMap, PlayerGrabMgr.setPos, PlayerGrabMgr.addCanDoItem,
      PlayerGrabMgr.clear]
  have hdone : ∀ p, s'.playerGrabMgr.doneGrabMgr.opers p = [] := by
    intro p
    simp [hs', Table.setCanDoMap, PlayerGrabMgr.setPos, PlayerGrabMgr.addCanDoItem,
      PlayerGrabMgr.clear]
  have hself : ∀ o, o ∈ s'.playerGrabMgr.canGrabMgr.opers t ↔ o ∈ offers.map Prod.fst := by
    intro o
    rw [hopers, if_pos rfl, PlayerGrabMgr.Round.mem_sortOpers]
  have hmem : ∀ p, ∀ o ∈ s'.playerGrabMgr.canGrabMgr.opers p, p = t := by
    intro p o ho
    by_contra hp
    rw [hopers, if_neg hp] at ho
    simp at ho
  have hmap : s'.playerCanDoMap t = some (.ofOffers offers) := Function.update_self _ _ _
  have hmapne : ∀ p, p ≠ t → s'.playerCanDoMap p = s.playerCanDoMap p ∨
      s'.playerCanDoMap p = some .empty := by
    intro p hp
    have heq : s'.playerCanDoMap p = (clearAllCanDoMap s).playerCanDoMap p :=
      Function.update_of_ne hp _ _
    rw [heq]
    exact clearAllCanDoMap_cases s p
  have hcards : ∀ o l, (CanDoMap.ofOffers offers).cards o = some l → (o = .hu ∨ o = .peng) →
      o = .hu ∧ l = [(s.playerList t).newCard] := by
    intro o l hl ho
    rcases Hands.mem_myOffers (CanDoMap.mem_of_cards_ofOffers hl) with
      ⟨h, -⟩ | ⟨h, -⟩ | ⟨h, hl'⟩ | ⟨h, -⟩ | ⟨h, -⟩
    · simp [h] at ho
    · simp [h] at ho
    · exact ⟨h, hl'⟩
    · simp [h] at ho
    · simp [h] at ho
  refine ⟨⟨fun p map o l ho hmap' hl => ?_, fun p map o l hc hmap' hl => ?_,
    fun p o hc ho hmem' => ?_, fun p o _ _ => hdone p⟩, h.only, fun p o c hc => ?_,
    fun p o c ho hoff _ => ?_⟩
  · by_cases hp : p = t
    · subst hp
      rw [hmap] at hmap'
      obtain rfl := Option.some.inj hmap'
      exact ⟨_, (hcards o l hl ho).2⟩
    · rcases hmapne p hp with heq | heq
      · rw [heq] at hmap'
        exact h.single p map o l ho hmap' hl
      · rw [heq] at hmap'
        obtain rfl := Option.some.inj hmap'
        simp [CanDoMap.empty] at hl
  · obtain rfl := hmem p _ hc
    rw [hmap] at hmap'
    obtain rfl := Option.some.inj hmap'
    rw [hself]
    exact List.mem_map_of_mem (f := Prod.fst) (CanDoMap.mem_of_cards_ofOffers hl)
  · obtain rfl := hmem p _ hc
    rw [hself] at hc hmem'
    have hapart := myOffers_apart hc
    rcases ho with rfl | rfl
    · exact absurd hmem' hapart.1
    · exact absurd hmem' hapart.2
  · by_cases hp : p = t
    · rw [hp] at hc ⊢
      exact Or.inl (ht o c hc)
    · rcases h.kept p o c hc with hk | hk
      · exact Or.inl hk
      · refine Or.inr ⟨hk, ?_, ?_⟩
        · rw [hopers, if_neg hp]
        · rw [hdone]
          simp
  · rw [mem_offered] at hoff
    obtain ⟨hopen, map, l, hmap', hl, hcl⟩ := hoff
    obtain rfl := hmem p _ hopen
    rw [hmap] at hmap'
    obtain rfl := Option.some.inj hmap'
    obtain ⟨rfl, rfl⟩ := hcards o l hl ho
    exact ⟨rfl, hnew, List.mem_singleton.mp hcl⟩

/-- The offers to the other seats, also when they are cut short. -/
lemma offered_bound {seats : List Seat} {r : Bool × Table} (h : Memo passed s)
    (hoff : Table.Offered (fun pos => claims gameProgress (Hands.cleared s t) t pos b bGrabGang)
      seats (false, Hands.cleared s t) r) : Bound passed r.2 := by
  have hframe := hoff.frame
  have hcancel : r.2.mjCancelMgr = s.mjCancelMgr := by
    rw [hframe]
    rfl
  have hplayers : r.2.playerList = s.playerList := by
    rw [hframe]
    rfl
  have hdone : ∀ p, r.2.playerGrabMgr.doneGrabMgr.opers p = [] := by
    intro p
    rw [hoff.done]
    simp [Hands.cleared, PlayerGrabMgr.setPos, PlayerGrabMgr.clear]
  have hopen : ∀ p, ∀ o ∈ r.2.playerGrabMgr.canGrabMgr.opers p, p ∈ seats ∧
      o ∈ (withCancel (claims gameProgress (Hands.cleared s t) t p b bGrabGang)).map Prod.fst := by
    intro p o ho
    rw [hoff.opers] at ho
    split_ifs at ho with h
    · exact ⟨h.1, PlayerGrabMgr.Round.mem_sortOpers.mp ho⟩
    · simp [Hands.cleared, PlayerGrabMgr.setPos, PlayerGrabMgr.clear] at ho
  have hmap : ∀ p ∈ seats, r.2.playerCanDoMap p = some (.ofOffers
      (withCancel (claims gameProgress (Hands.cleared s t) t p b bGrabGang))) := by
    intro p hp
    rw [hframe]
    exact if_pos hp
  have hmapne : ∀ p, p ∉ seats → r.2.playerCanDoMap p = s.playerCanDoMap p ∨
      r.2.playerCanDoMap p = some .empty := by
    intro p hp
    have heq : r.2.playerCanDoMap p = (clearAllCanDoMap s).playerCanDoMap p := by
      rw [hframe]
      exact if_neg hp
    rw [heq]
    exact clearAllCanDoMap_cases s p
  have hcards : ∀ p o l, (CanDoMap.ofOffers (withCancel
      (claims gameProgress (Hands.cleared s t) t p b bGrabGang))).cards o = some l →
      (o = .hu ∨ o = .peng) → l = [b] ∧ (s.playerList p).hasNewCard = false ∧
        s.mjCancelMgr.isCancelOper p o b = false := by
    intro p o l hl ho
    rcases mem_withCancel (CanDoMap.mem_of_cards_ofOffers hl) with h | h
    · have hfresh := of_mem_claims gameProgress h
      exact ⟨(Hands.mem_claims h).1, hfresh.1, hfresh.2 ho⟩
    · have hcancel : o = .cancel := congrArg Prod.fst h
      rw [hcancel] at ho
      simp at ho
  refine ⟨⟨fun p map o l ho hmap' hl => ?_, fun p map o l hc hmap' hl => ?_,
    fun p o hc ho hmem hplay => ?_, fun p o _ _ => hdone p⟩, fun p o c hc => ?_,
    fun p o c hc => ?_, fun p o c ho hoff' hc => ?_⟩
  · by_cases hp : p ∈ seats
    · rw [hmap p hp] at hmap'
      obtain rfl := Option.some.inj hmap'
      exact ⟨b, (hcards p o l hl ho).1⟩
    · rcases hmapne p hp with heq | heq
      · rw [heq] at hmap'
        exact h.single p map o l ho hmap' hl
      · rw [heq] at hmap'
        obtain rfl := Option.some.inj hmap'
        simp [CanDoMap.empty] at hl
  · have hp := (hopen p _ hc).1
    rw [hmap p hp] at hmap'
    obtain rfl := Option.some.inj hmap'
    rw [hoff.opers] at hc ⊢
    split_ifs at hc ⊢ with hif
    · rw [PlayerGrabMgr.Round.mem_sortOpers]
      exact List.mem_map_of_mem (f := Prod.fst) (CanDoMap.mem_of_cards_ofOffers hl)
    · simp [Hands.cleared, PlayerGrabMgr.setPos, PlayerGrabMgr.clear] at hc
  · obtain ⟨⟨o', l⟩, hmem', ho'⟩ := List.mem_map.mp (hopen p _ hplay).2
    rcases mem_withCancel hmem' with hx | hx
    · exact (Hands.mem_claims hx).2.mem_operLevel.2 ho'
    · rw [hx] at ho'
      simp at ho'
  · rw [hcancel] at hc
    exact h.only p o c hc
  · rw [hcancel]
    rcases h.kept p o c hc with hk | hk
    · exact Or.inl hk
    · have hnil : claims gameProgress (Hands.cleared s t) t p b bGrabGang = [] :=
        claims_eq_nil gameProgress hk
      refine Or.inr ⟨by rw [hplayers]; exact hk, ?_, by rw [hdone]; simp⟩
      rw [hoff.opers, if_neg fun hif => hif.2 hnil]
      simp [Hands.cleared, PlayerGrabMgr.setPos, PlayerGrabMgr.clear]
  · rw [mem_offered] at hoff'
    obtain ⟨hmem, map, l, hmap', hl, hcl⟩ := hoff'
    rw [hmap p (hopen p o hmem).1] at hmap'
    obtain rfl := Option.some.inj hmap'
    obtain ⟨rfl, hnew, hnot⟩ := hcards p o l hl ho
    obtain rfl := List.mem_singleton.mp hcl
    rcases h.kept p o c hc with hk | hk
    · rw [hnot] at hk
      exact absurd hk (by decide)
    · rw [hnew] at hk
      exact absurd hk (by decide)

end NewOffers

/-! ### Choices -/

section Choices

variable {passed : Passed} {s s' : Table} {p q : Seat} {o : Oper} {b : ℕ}

/-- A choice closes the seat's offers, except to play a tile. -/
lemma Offers.choose (h : Offers s) (ho : o ∈ s.playerGrabMgr.canGrabMgr.opers p)
    (hgrab : s'.playerGrabMgr = (s.playerGrabMgr.playerDoGrab p o (some b)).2)
    (hmap : ∀ q, s'.playerCanDoMap q = s.playerCanDoMap q ∨ s'.playerCanDoMap q = some .empty) :
    Offers s' := by
  have hself : ∀ o' ∈ s'.playerGrabMgr.canGrabMgr.opers p, o' = .play := by
    rw [hgrab]
    exact PlayerGrabMgr.opers_playerDoGrab_self ho (some b)
  have hcan : ∀ q, q ≠ p →
      s'.playerGrabMgr.canGrabMgr.opers q = s.playerGrabMgr.canGrabMgr.opers q := by
    intro q hq
    rw [hgrab]
    exact (PlayerGrabMgr.opers_playerDoGrab_of_ne hq (some b)).1
  have hdone : ∀ q, q ≠ p →
      s'.playerGrabMgr.doneGrabMgr.opers q = s.playerGrabMgr.doneGrabMgr.opers q := by
    intro q hq
    rw [hgrab]
    exact (PlayerGrabMgr.opers_playerDoGrab_of_ne hq (some b)).2
  have hcards : ∀ q map o' l, s'.playerCanDoMap q = some map → map.cards o' = some l →
      s.playerCanDoMap q = some map := by
    intro q map o' l hmap' hl
    rcases hmap q with heq | heq
    · rw [← heq]
      exact hmap'
    · rw [heq] at hmap'
      obtain rfl := Option.some.inj hmap'
      simp [CanDoMap.empty] at hl
  refine ⟨fun q map o' l ho' hmap' hl => ?_, fun q map o' l hc hmap' hl => ?_,
    fun q o' hc ho' hmem => ?_, fun q o' hmem hne => ?_⟩
  · exact h.single q map o' l ho' (hcards q map o' l hmap' hl) hl
  all_goals
    have hq : q ≠ p := by
      rintro rfl
      first
        | exact absurd (hself _ hc) (by decide)
        | exact absurd (hself _ hmem) hne
  · rw [hcan q hq] at hc ⊢
    exact h.whole q map o' l hc (hcards q map o' l hmap' hl) hl
  · rw [hcan q hq] at hc hmem ⊢
    exact h.apart q o' hc ho' hmem
  · rw [hcan q hq] at hmem
    rw [hdone q hq]
    exact h.free q o' hmem hne

/-- A seat that waits still waits when another one chooses. -/
lemma Waiting.choose (h : Waiting s q) (hq : q ≠ p)
    (hgrab : s'.playerGrabMgr = (s.playerGrabMgr.playerDoGrab p o (some b)).2)
    (hplayers : ∀ q, q ≠ p → s'.playerList q = s.playerList q) : Waiting s' q := by
  obtain ⟨hcan, hdone⟩ :=
    PlayerGrabMgr.opers_playerDoGrab_of_ne (g := s.playerGrabMgr) (o := o) hq (some b)
  refine ⟨?_, ?_, ?_⟩
  · rw [hplayers q hq]
    exact h.newCard
  · rw [hgrab, hcan]
    exact h.opers
  · rw [hgrab, hdone]
    exact h.done

/-- A seat with an open offer does not wait. -/
lemma Bound.isCancelOper (h : Bound passed s) (ho : o ∈ s.playerGrabMgr.canGrabMgr.opers p)
    {o' : Oper} {c : ℕ} (hc : c ∈ passed p o') : s.mjCancelMgr.isCancelOper p o' c = true := by
  rcases h.kept p o' c hc with hk | hw
  · exact hk
  · rw [hw.opers] at ho
    simp at ho

/-- The offers to the other seats stay as they are. -/
lemma offered_choose (hq : q ≠ p)
    (hgrab : s'.playerGrabMgr = (s.playerGrabMgr.playerDoGrab p o (some b)).2)
    (hmap : s'.playerCanDoMap q = s.playerCanDoMap q ∨ s'.playerCanDoMap q = some .empty)
    {o' : Oper} {c : ℕ} (h : c ∈ offered s' q o') : c ∈ offered s q o' := by
  rw [mem_offered] at h ⊢
  obtain ⟨hmem, map, l, hmap', hl, hc⟩ := h
  rw [hgrab, (PlayerGrabMgr.opers_playerDoGrab_of_ne hq (some b)).1] at hmem
  refine ⟨hmem, map, l, ?_, hl, hc⟩
  rcases hmap with heq | heq
  · rw [← heq]
    exact hmap'
  · rw [heq] at hmap'
    obtain rfl := Option.some.inj hmap'
    simp [CanDoMap.empty] at hl

/-- A choice that passes on nothing; the tiles of its seat may change. -/
lemma Bound.choose (h : Bound passed s) (ho : o ∈ s.playerGrabMgr.canGrabMgr.opers p)
    (hgrab : s'.playerGrabMgr = (s.playerGrabMgr.playerDoGrab p o (some b)).2)
    (hmap : ∀ q, s'.playerCanDoMap q = s.playerCanDoMap q ∨ s'.playerCanDoMap q = some .empty)
    (hcancel : s'.mjCancelMgr = s.mjCancelMgr)
    (hplayers : ∀ q, q ≠ p → s'.playerList q = s.playerList q) : Bound passed s' := by
  refine ⟨h.toOffers.choose ho hgrab hmap, hcancel ▸ h.only, fun q o' c hc => ?_,
    fun q o' c ho' hoff hc => ?_⟩
  · rw [hcancel]
    by_cases hq : q = p
    · rw [hq] at hc ⊢
      exact Or.inl (h.isCancelOper ho hc)
    · exact (h.kept q o' c hc).imp_right fun hw => hw.choose hq hgrab hplayers
  · by_cases hq : q = p
    · rw [hq, mem_offered, hgrab] at hoff
      have hplay := PlayerGrabMgr.opers_playerDoGrab_self ho (some b) o' hoff.1
      rw [hplay] at ho'
      simp at ho'
    · rw [hplayers q hq]
      exact h.fresh q o' c ho' (offered_choose hq hgrab (hmap q) hoff) hc

/-- The tiles passed on when the seat `p` cancels its offers. -/
def addPassed (passed : Passed) (s : Table) (p : Seat) : Passed := fun q o =>
  passed q o ++ if q = p ∧ (o = .hu ∨ o = .peng) then offered s q o else []

/-- The choice to cancel passes on the tiles offered to win or to peng. -/
lemma Bound.cancel (h : Bound passed s) (ho : .cancel ∈ s.playerGrabMgr.canGrabMgr.opers p)
    {map : CanDoMap} (hmap : s.playerCanDoMap p = some map)
    (hgrab : s'.playerGrabMgr = (s.playerGrabMgr.playerDoGrab p .cancel (some b)).2)
    (hmaps : s'.playerCanDoMap = Function.update s.playerCanDoMap p (some .empty))
    (hplayers : s'.playerList = s.playerList)
    (hcancel : s'.mjCancelMgr = if (s.playerList p).hasNewCard then s.mjCancelMgr
      else addCancelOpers s.mjCancelMgr p map) : Bound (addPassed passed s p) s' := by
  have hmaps' : ∀ q, s'.playerCanDoMap q = s.playerCanDoMap q ∨
      s'.playerCanDoMap q = some .empty := by
    intro q
    rw [hmaps]
    by_cases hq : q = p
    · rw [hq, Function.update_self]
      exact Or.inr rfl
    · rw [Function.update_of_ne hq]
      exact Or.inl rfl
  have hoffered : ∀ o l c, (o = .hu ∨ o = .peng) → map.cards o = some l → c ∈ l →
      c ∈ addPassed passed s p p o := by
    intro o l c ho' hl hc
    rw [addPassed, if_pos ⟨rfl, ho'⟩]
    refine List.mem_append_right _ (mem_offered.mpr ⟨?_, map, l, hmap, hl, hc⟩)
    exact h.whole p map o l ho hmap hl
  have hmono : ∀ q o c, s.mjCancelMgr.isCancelOper q o c = true →
      s'.mjCancelMgr.isCancelOper q o c = true := by
    intro q o c hc
    rw [hcancel]
    split_ifs
    · exact hc
    · exact isCancelOper_addCancelOpers.mpr (Or.inl hc)
  refine ⟨h.toOffers.choose ho hgrab hmaps', fun q o c hc => ?_, fun q o c hc => ?_,
    fun q o c ho' hoff hc => ?_⟩
  · have hold : s.mjCancelMgr.isCancelOper q o c = true → c ∈ addPassed passed s p q o :=
      fun hc => List.mem_append_left _ (h.only q o c hc)
    rw [hcancel] at hc
    split_ifs at hc
    · exact hold hc
    · rcases isCancelOper_addCancelOpers.mp hc with hc | ⟨rfl, ho', hhead⟩
      · exact hold hc
      · obtain ⟨l, hl, hcl⟩ := Option.bind_eq_some_iff.mp hhead
        exact hoffered o l c ho' hl (List.mem_of_head? hcl)
  · rcases List.mem_append.mp hc with hold | hpass
    · rcases h.kept q o c hold with hk | hw
      · exact Or.inl (hmono q o c hk)
      · have hq : q ≠ p := by
          rintro rfl
          rw [hw.opers] at ho
          simp at ho
        exact Or.inr (hw.choose hq hgrab fun q _ => by rw [hplayers])
    · split_ifs at hpass with hif
      · obtain ⟨rfl, ho'⟩ := hif
        obtain ⟨hopen, map', l, hmap', hl, hcl⟩ := mem_offered.mp hpass
        rw [hmap] at hmap'
        obtain rfl := Option.some.inj hmap'
        obtain ⟨b', rfl⟩ := h.single q map o l ho' hmap hl
        obtain rfl := List.mem_singleton.mp hcl
        by_cases hnew : (s.playerList q).hasNewCard = true
        · -- the seat holds a tile that a timer has given it
          refine Or.inr ⟨by rw [hplayers]; exact hnew, ?_, ?_⟩
          · rw [hgrab]
            apply List.eq_nil_iff_forall_not_mem.mpr
            intro o' ho''
            have hplay := PlayerGrabMgr.opers_playerDoGrab_self ho (some b) o' ho''
            have hmem := PlayerGrabMgr.opers_playerDoGrab_subset (some b) ho''
            rw [hplay] at hmem
            exact h.apart q o ho ho' hopen hmem
          · rw [hgrab]
            intro o' ho''
            rcases PlayerGrabMgr.mem_done_playerDoGrab ho'' with hold | ⟨-, rfl⟩
            · rw [h.free q .cancel ho (by decide)] at hold
              simp at hold
            · rfl
        · left
          rw [hcancel, if_neg hnew]
          exact isCancelOper_addCancelOpers.mpr (Or.inr ⟨rfl, ho', by rw [hl]; rfl⟩)
      · simp at hpass
  · by_cases hq : q = p
    · rw [hq, mem_offered, hgrab] at hoff
      have hplay := PlayerGrabMgr.opers_playerDoGrab_self ho (some b) o hoff.1
      rw [hplay] at ho'
      simp at ho'
    · rw [addPassed, if_neg fun hif => hq hif.1, List.append_nil] at hc
      rw [hplayers]
      exact h.fresh q o c ho' (offered_choose hq hgrab (hmaps' q) hoff) hc

end Choices

/-! ### Moves -/

section Moves

variable (gameProgress : GameProgress) {passed : Passed} {s : Table} {t p : Seat} {b : ℕ}

/-- The offers to the seat whose turn it is, or none when it has no new tile. -/
lemma checkMyOper_result (h : Bound passed s)
    (ht : ∀ o c, c ∈ passed t o → s.mjCancelMgr.isCancelOper t o c = true) (checkOp : Bool)
    (hgo : (checkMyOper gameProgress s t checkOp).endArgs = none) :
    Bound passed (checkMyOper gameProgress s t checkOp) := by
  by_cases hnew : (s.playerList t).hasNewCard = true
  · exact checkMyOper_bound gameProgress h.memo hnew ht checkOp hgo
  · have hcheck : checkMyOper gameProgress s t checkOp = clearAllCanDoMap s := by
      rw [Bool.not_eq_true] at hnew
      unfold checkMyOper
      exact if_pos hnew
    rw [hcheck]
    exact h.of_same rfl rfl (clearAllCanDoMap_cases s) rfl rfl

/-- `checkMyOper` draws no tile. -/
lemma checkMyOper_frame (s : Table) (t : Seat) (checkOp : Bool) :
    (checkMyOper gameProgress s t checkOp).mjWall = s.mjWall ∧
      (checkMyOper gameProgress s t checkOp).testPlayerNeedCard = s.testPlayerNeedCard ∧
      (s.playerGrabMgr.pos = some t →
        (checkMyOper gameProgress s t checkOp).playerGrabMgr.pos = some t) := by
  unfold checkMyOper
  dsimp only
  split_ifs
  · exact ⟨rfl, rfl, fun h => h⟩
  · refine ⟨rfl, rfl, fun _ => ?_⟩
    exact (PlayerGrabMgr.pos_playerDoGrab _).trans rfl
  · exact ⟨rfl, rfl, fun _ => rfl⟩

/-- A drawn tile leaves the wall, or the tiles asked for. -/
lemma takeCard_dealt {s' : Table} {c : ℕ} (h : takeCard s t = some (c, s')) :
    ∃ wall need, s' = { s with mjWall := wall, testPlayerNeedCard := need } ∧
      (wall ≠ s.mjWall ∨ need ≠ s.testPlayerNeedCard) := by
  unfold takeCard at h
  cases hneed : s.testPlayerNeedCard t with
  | some c' =>
    simp only [hneed, Option.some.injEq, Prod.mk.injEq] at h
    refine ⟨s.mjWall, _, h.2.symm, Or.inr fun heq => ?_⟩
    have hat := congrFun heq t
    rw [Function.update_self, hneed] at hat
    exact absurd hat (by simp)
  | none =>
    simp only [hneed, Option.map_eq_some_iff, Prod.mk.injEq] at h
    obtain ⟨r, hr, -, heq⟩ := h
    refine ⟨r.2, s.testPlayerNeedCard, heq.symm, Or.inl fun hsame => ?_⟩
    unfold getFrontCard at hr
    cases hwall : s.mjWall with
    | nil => simp [hwall] at hr
    | cons c' wall =>
      rw [hwall] at hr hsame
      obtain rfl := Option.some.inj hr
      have hlen := congrArg List.length hsame
      simp at hlen

/-- The seat that is dealt a tile may claim all tiles again. -/
lemma giveNewCard_result (h : Ready passed s t) :
    Result passed s (giveNewCard gameProgress s t) := by
  unfold giveNewCard
  split_ifs
  · exact result_over (by simp [Table.gotoNextState])
  cases htake : takeCard s t with
  | none => exact result_over (by simp [Table.gotoNextState])
  | some x =>
    obtain ⟨c, s₁⟩ := x
    obtain ⟨wall, need, rfl, hdealt⟩ := takeCard_dealt htake
    dsimp only
    set player : MJPlayer := { (s.playerList t).addNewCard c with justDoOper := .newCard }
    set s₂ : Table := { s with
      mjWall := wall
      testPlayerNeedCard := need
      playerGrabMgr := s.playerGrabMgr.setPos t
      mjCancelMgr := s.mjCancelMgr.clearSeat t
      playerList := Function.update s.playerList t player } with hs₂
    have hplayers : ∀ p, p ≠ t → s₂.playerList p = s.playerList p := fun p hp =>
      Function.update_of_ne hp _ _
    have hbound : Bound (passed.clear t) s₂ := by
      have hoffers : Offers s₂ := h.toOffers.of_same rfl rfl fun _ => Or.inl rfl
      refine ⟨hoffers, fun p o c hc => ?_, fun p o c hc => ?_, fun p o c ho hoff hc => ?_⟩
      · obtain ⟨hp, hc⟩ := MJCancelMgr.isCancelOper_clearSeat.mp hc
        rw [Passed.clear, if_neg hp]
        exact h.only p o c hc
      · have hp : p ≠ t := by
          rintro rfl
          simp [Passed.clear] at hc
        rw [Passed.clear, if_neg hp] at hc
        rcases h.kept p o c hp hc with hk | ⟨hnew, hopers, hdone⟩
        · exact Or.inl (MJCancelMgr.isCancelOper_clearSeat.mpr ⟨hp, hk⟩)
        · refine Or.inr ⟨?_, hopers, hdone⟩
          rw [hplayers p hp]
          exact hnew
      · have hp : p ≠ t := by
          rintro rfl
          simp [Passed.clear] at hc
        rw [Passed.clear, if_neg hp] at hc
        rw [hplayers p hp]
        exact h.fresh p o c hp ho hoff hc
    have hnone : ∀ o c, c ∈ passed.clear t t o → s₂.mjCancelMgr.isCancelOper t o c = true := by
      intro o c hc
      simp [Passed.clear] at hc
    intro hgo
    right
    refine ⟨t, ?_⟩
    split_ifs at hgo ⊢ with hhua
    · exact ⟨rfl, hdealt, hbound.of_same rfl rfl (fun _ => Or.inl rfl) rfl rfl⟩
    · obtain ⟨hwall, htest, hpos⟩ := checkMyOper_frame gameProgress s₂ t true
      refine ⟨hpos rfl, ?_, checkMyOper_result gameProgress hbound hnone true hgo⟩
      show (checkMyOper gameProgress s₂ t true).mjWall ≠ s.mjWall ∨
        (checkMyOper gameProgress s₂ t true).testPlayerNeedCard ≠ s.testPlayerNeedCard
      rw [hwall, htest]
      exact hdealt

/-- The claims on a tile, an automatic win, or what follows when nobody claims it. -/
lemma checkOtherOper_result (h : Memo passed s) (bGrabGang : Bool) (info : Option Seat)
    (next : Seat) (rob : Table → Table)
    (hrob : ∀ s, rob s = s ∨ rob s = { s with isQiangGanging := true, qiangGangInfo := info }) :
    Result passed s (Handled.state ((checkOtherOper gameProgress s t b bGrabGang).map fun c =>
      if c.1 then autoHu (rob c.2.2) c.2.1 b else giveNewCard gameProgress c.2.2 next)) := by
  obtain ⟨l, r, -, hoff, hcases⟩ := Hands.checkOtherOper_cases gameProgress s t b bGrabGang
  have hbound : Bound passed r.2 := offered_bound gameProgress h hoff
  have hwall : r.2.mjWall = s.mjWall := by
    rw [hoff.frame]
    rfl
  have htest : r.2.testPlayerNeedCard = s.testPlayerNeedCard := by
    rw [hoff.frame]
    rfl
  rcases hcases with herr | hok
  · rw [herr]
    exact hbound.result hwall htest
  · rw [hok]
    show Result passed s (if r.1 then autoHu (rob r.2)
      (autoHuPos gameProgress (Hands.cleared s t) t b) b else giveNewCard gameProgress r.2 next)
    split_ifs
    · cases autoHuPos gameProgress (Hands.cleared s t) t b with
      | some pos => exact result_over (by simp [autoHu, doHu, Table.gotoNextState])
      | none =>
        show Result passed s (rob r.2)
        rcases hrob r.2 with heq | heq
        · rw [heq]
          exact hbound.result hwall htest
        · rw [heq]
          refine Bound.result ?_ hwall htest
          exact hbound.of_same rfl rfl (fun _ => Or.inl rfl) rfl rfl
    · exact (giveNewCard_result gameProgress (hbound.ready next)).of_same hwall htest

/-- The tile of a seat that may play is put on the river. -/
lemma discard_bound (h : Bound passed s) (ho : .play ∈ s.playerGrabMgr.canGrabMgr.opers p)
    (player : MJPlayer) : Bound passed (discard s p b player) ∧
      (discard s p b player).mjWall = s.mjWall ∧
      (discard s p b player).testPlayerNeedCard = s.testPlayerNeedCard := by
  have hmap : ∀ q, (discard s p b player).playerCanDoMap q = s.playerCanDoMap q ∨
      (discard s p b player).playerCanDoMap q = some .empty := by
    intro q
    unfold discard clearCanDoMap
    dsimp only
    split_ifs
    · by_cases hq : q = p
      · rw [hq]
        exact Or.inr (Function.update_self _ _ _)
      · exact Or.inl (Function.update_of_ne hq _ _)
    · exact clearAllCanDoMap_cases { s.setPlayer p player with
        playerGrabMgr := (s.playerGrabMgr.playerDoGrab p .play (some b)).2 } q
  obtain ⟨map, hdiscard⟩ := Hands.discard_frame s p b player
  refine ⟨h.choose ho (by rw [hdiscard]) hmap (by rw [hdiscard]) fun q hq => ?_,
    by rw [hdiscard], by rw [hdiscard]⟩
  rw [hdiscard]
  exact Function.update_of_ne hq _ _

lemma onPlayCard_result (h : Bound passed s) (p : Seat) (card : Option ℕ) :
    Result passed s (onPlayCard gameProgress s p card).state := by
  have hsame : Result passed s s := h.result rfl rfl
  cases card with
  | none => exact hsame
  | some b =>
    simp only [onPlayCard]
    split_ifs with hplay hdo hstop
    · exact hsame
    · exact hsame
    · obtain ⟨hbound, hwall, htest⟩ := discard_bound (b := b) h
        (PlayerGrabMgr.hasOper_iff.mp (by simpa using hplay)) ((s.playerList p).doPlayCard b).2
      exact hbound.result hwall htest
    · obtain ⟨hbound, hwall, htest⟩ := discard_bound (b := b) h
        (PlayerGrabMgr.hasOper_iff.mp (by simpa using hplay)) ((s.playerList p).doPlayCard b).2
      have hresult := checkOtherOper_result gameProgress (t := p) (b := b) hbound.memo false none
        (nextPlayerPos p) id fun _ => Or.inl rfl
      have hfun : (fun c : Bool × Option Seat × Table =>
          if !c.1 then giveNewCard gameProgress c.2.2 (nextPlayerPos p)
          else autoHu c.2.2 c.2.1 b) = fun c =>
          if c.1 then autoHu (id c.2.2) c.2.1 b
          else giveNewCard gameProgress c.2.2 (nextPlayerPos p) := by
        funext c
        cases c.1 <;> rfl
      rw [hfun]
      exact hresult.of_same hwall htest

/-- A seat without a new tile takes a tile of another, and is offered what its hand allows. -/
lemma doPeng_result (h : Bound passed s) (p t : Seat) :
    Result passed s (doPeng gameProgress s p b t).2 ∧
      ((doPeng gameProgress s p b t).1 = false → (doPeng gameProgress s p b t).2 = s) := by
  unfold doPeng
  dsimp only
  split_ifs with hdo
  · refine ⟨?_, by simp⟩
    have hnew : (s.playerList p).hasNewCard = false := by
      unfold MJPlayer.doPeng at hdo
      split_ifs at hdo with hcan
      simp only [MJPlayer.canPeng, Bool.not_eq_true', Bool.and_eq_true, Bool.not_eq_false] at hcan
      exact hcan.1
    set s₁ := (s.setPlayer p ((s.playerList p).doPeng b t).2).setRiver t (MJRiver.popCard
      ((s.setPlayer p ((s.playerList p).doPeng b t).2).riverCardList t)) with hs₁
    have hcancel : ∀ o c, c ∈ passed p o → s.mjCancelMgr.isCancelOper p o c = true := by
      intro o c hc
      refine (h.kept p o c hc).resolve_right fun hw => ?_
      rw [hw.newCard] at hnew
      exact absurd hnew (by decide)
    have hready : Ready passed s₁ p := (h.ready p).of_same rfl rfl (fun _ => Or.inl rfl) rfl
      fun q hq => Function.update_of_ne hq _ _
    have hbound : Bound passed s₁ := by
      refine ⟨hready.toOffers, hready.only, fun q o c hc => ?_, fun q o c ho hoff hc => ?_⟩
      · by_cases hq : q = p
        · rw [hq] at hc ⊢
          exact Or.inl (hcancel o c hc)
        · exact hready.kept q o c hq hc
      · by_cases hq : q = p
        · rw [hq] at hc hoff
          have hown := h.fresh p o c ho (offered_of_same rfl (Or.inl rfl) hoff) hc
          rw [hnew] at hown
          exact absurd hown.2.1 (by decide)
        · exact hready.fresh q o c hq ho hoff hc
    intro hgo
    obtain ⟨hwall, htest, -⟩ := checkMyOper_frame gameProgress s₁ p false
    exact Or.inl ⟨hwall, htest, checkMyOper_result gameProgress hbound hcancel false hgo⟩
  · exact ⟨h.result rfl rfl, fun _ => rfl⟩

lemma doGang_result (h : Bound passed s) (p t : Seat) :
    Result passed s (doGang gameProgress s p b t).2 ∧
      ((doGang gameProgress s p b t).1 = false → (doGang gameProgress s p b t).2 = s) := by
  unfold doGang
  dsimp only
  split_ifs
  · refine ⟨(giveNewCard_result gameProgress ?_).of_same rfl rfl, by simp⟩
    exact (h.ready p).of_same rfl rfl (fun _ => Or.inl rfl) rfl
      fun q hq => Function.update_of_ne hq _ _
  · exact ⟨h.result rfl rfl, fun _ => rfl⟩

lemma doAnGang_result (h : Bound passed s) (p t : Seat) :
    Result passed s (doAnGang gameProgress s p b t) := by
  unfold doAnGang
  dsimp only
  split_ifs
  · refine (giveNewCard_result gameProgress ?_).of_same rfl rfl
    exact (h.ready p).of_same rfl rfl (fun _ => Or.inl rfl) rfl
      fun q hq => Function.update_of_ne hq _ _
  · exact h.result rfl rfl

/-- The seat of an added kong has chosen it, and so has not cancelled. -/
lemma doMXGang_result (h : Bound passed s)
    (hdone : .mxg ∈ s.playerGrabMgr.doneGrabMgr.opers p) :
    Result passed s (doMXGang gameProgress s p b).state := by
  unfold doMXGang
  dsimp only
  split_ifs
  · set s₁ := s.setPlayer p ((s.playerList p).doMXGang b).2 with hs₁
    have hmemo : Memo passed s₁ := by
      refine ⟨h.single, h.only, fun q o c hc => ?_⟩
      rcases h.kept q o c hc with hk | hw
      · exact Or.inl hk
      · have hq : q ≠ p := by
          rintro rfl
          exact absurd (hw.done _ hdone) (by decide)
        right
        rw [hs₁, Table.playerList_setPlayer, if_neg hq]
        exact hw.newCard
    exact (checkOtherOper_result gameProgress (t := p) (b := b) hmemo true (some p) p
      (fun s => { s with isQiangGanging := true, qiangGangInfo := some p })
      fun _ => Or.inr rfl).of_same rfl rfl
  · exact h.result rfl rfl

lemma cancelEnd_result (h : Bound passed s) (p t : Seat) :
    Result passed s (cancelEnd gameProgress s p t).state := by
  have hsame : Result passed s s := h.result rfl rfl
  unfold cancelEnd
  split_ifs
  · cases s.qiangGangInfo with
    | none => exact hsame
    | some q =>
      refine (giveNewCard_result gameProgress ?_).of_same rfl rfl
      exact (h.ready q).of_same rfl rfl (fun _ => Or.inl rfl) rfl fun _ _ => rfl
  · cases s.playerCanDoMap p with
    | none => exact hsame
    | some map =>
      dsimp only
      split_ifs
      · exact hsame
      · exact giveNewCard_result gameProgress (h.ready _)

/-- The prevailing choice is carried out. -/
lemma grabEnd_result (h : Bound passed s) : Result passed s (grabEnd gameProgress s).state := by
  have hsame : Result passed s s := h.result rfl rfl
  unfold grabEnd
  cases s.playerGrabMgr.pos with
  | none => exact hsame
  | some t =>
    dsimp only
    cases hnode : s.playerGrabMgr.getPowestNode with
    | none => exact giveNewCard_result gameProgress (h.ready _)
    | some node =>
      dsimp only
      have hdone : ∀ o, node.operList.head? = some o →
          o ∈ s.playerGrabMgr.doneGrabMgr.opers node.pos := by
        intro o ho
        have hitem := PlayerGrabMgr.getItem_of_getPowestNode hnode
        unfold CanGrabMgr.opers
        rw [hitem]
        exact List.mem_of_head? ho
      cases hhead : node.operList.head? with
      | none => cases node.byteCard <;> exact hsame
      | some o =>
        cases node.byteCard with
        | none =>
          cases o
          case cancel => exact cancelEnd_result gameProgress h node.pos t
          all_goals exact hsame
        | some b =>
          cases o
          case cancel => exact cancelEnd_result gameProgress h node.pos t
          case hu => exact result_over (by simp [Handled.state, doHu, Table.gotoNextState])
          case peng =>
            obtain ⟨hresult, hfail⟩ := doPeng_result gameProgress (b := b) h node.pos t
            dsimp only
            split_ifs with hr
            · exact hresult
            · rw [hfail (by simpa using hr)]
              exact giveNewCard_result gameProgress (h.ready _)
          case ag => exact doAnGang_result gameProgress h node.pos t
          case mg =>
            obtain ⟨hresult, hfail⟩ := doGang_result gameProgress (b := b) h node.pos t
            dsimp only
            split_ifs with hr
            · exact hresult
            · rw [hfail (by simpa using hr)]
              exact giveNewCard_result gameProgress (h.ready _)
          case mxg => exact doMXGang_result gameProgress h (hdone _ hhead)
          case play => exact onPlayCard_result gameProgress h node.pos (some b)
          all_goals exact hsame

lemma decideOrWait_result (h : Bound passed s) :
    Result passed s (decideOrWait gameProgress s).state := by
  unfold decideOrWait
  cases s.playerGrabMgr.needWait with
  | none => exact h.result rfl rfl
  | some wait =>
    cases wait with
    | false => exact grabEnd_result gameProgress h
    | true => exact h.result rfl rfl

/-- The exchange of a flower, whenever the timer fires. -/
lemma buHua_result (h : Bound passed s) (t : Seat) :
    Result passed s (buHua gameProgress s t) := by
  unfold buHua
  dsimp only
  split_ifs
  · refine (giveNewCard_result gameProgress ?_).of_same rfl rfl
    exact (h.ready t).of_same rfl rfl (fun _ => Or.inl rfl) rfl
      fun q hq => Function.update_of_ne hq _ _
  · exact h.result rfl rfl

end Moves

/-! ### Messages -/

section Messages

variable (gameProgress : GameProgress) {passed : Passed} {s : Table} {p : Seat}

lemma cancels_iff {pkg : ClientMsg} : cancels s p pkg = true ↔
    Oper.ofCode pkg.operation = some .cancel ∧ .cancel ∈ s.playerGrabMgr.canGrabMgr.opers p ∧
      ∃ map l, s.playerCanDoMap p = some map ∧ map.cards .cancel = some l := by
  simp only [cancels, Bool.and_eq_true, beq_iff_eq, PlayerGrabMgr.hasOper_iff,
    Option.isSome_iff_exists, Option.bind_eq_some_iff, and_assoc]
  constructor
  · rintro ⟨h1, h2, l, map, h3, h4⟩
    exact ⟨h1, h2, map, l, h3, h4⟩
  · rintro ⟨h1, h2, map, l, h3, h4⟩
    exact ⟨h1, h2, l, map, h3, h4⟩

/-- A choice other than to cancel. -/
lemma onGrabCard_result (h : Bound passed s) (p : Seat) {oper : Oper} (hoper : oper ≠ .cancel)
    (card : Option ℕ) : Result passed s (onGrabCard gameProgress s p oper card).state := by
  have hsame : Result passed s s := h.result rfl rfl
  unfold onGrabCard
  split_ifs with hhas
  · exact hsame
  cases hmap : s.playerCanDoMap p with
  | none => exact hsame
  | some map =>
    cases hl : map.cards oper with
    | none =>
      simp only [hl]
      exact hsame
    | some l =>
      cases card with
      | none =>
        simp only [hl]
        exact hsame
      | some b =>
        simp only [hl]
        split_ifs
        · have hmem : oper ∈ s.playerGrabMgr.canGrabMgr.opers p :=
            PlayerGrabMgr.hasOper_iff.mp (by simpa using hhas)
          rw [clearCanDoMap_eq (by simp [hmap])]
          refine (decideOrWait_result gameProgress ?_).of_same rfl rfl
          refine h.choose hmem rfl (fun q => ?_) rfl fun _ _ => rfl
          by_cases hq : q = p
          · rw [hq]
            exact Or.inr (Function.update_self _ _ _)
          · exact Or.inl (Function.update_of_ne hq _ _)
        · exact hsame

/-- The choice to cancel. -/
lemma onGrabCard_cancel (h : Bound passed s) {map : CanDoMap} {l : List ℕ}
    (hmem : .cancel ∈ s.playerGrabMgr.canGrabMgr.opers p) (hmap : s.playerCanDoMap p = some map)
    (hl : map.cards .cancel = some l) (card : Option ℕ) :
    Result (addPassed passed s p) s (onGrabCard gameProgress s p .cancel card).state := by
  unfold onGrabCard
  simp only [PlayerGrabMgr.hasOper_iff.mpr hmem, Bool.not_true, Bool.false_eq_true, if_false, hmap,
    hl, if_true]
  rw [clearCanDoMap_eq (by simp [hmap])]
  split_ifs with hnew
  · refine (decideOrWait_result gameProgress ?_).of_same rfl rfl
    exact h.cancel hmem hmap rfl rfl rfl (if_pos hnew).symm
  · refine (decideOrWait_result gameProgress ?_).of_same rfl rfl
    exact h.cancel hmem hmap rfl rfl rfl (if_neg hnew).symm

/-- The tiles passed on after an event, before a tile is dealt. -/
def after (passed : Passed) (s : Table) (e : Event) : Passed := fun p o => passed p o ++ passes s e p o

lemma after_of_not_cancels {pkg : ClientMsg} (h : cancels s p pkg = false) :
    after passed s (.clientMsg p pkg) = passed := by
  funext q o
  simp [after, passes, h]

lemma after_of_cancels {pkg : ClientMsg} (h : cancels s p pkg = true) :
    after passed s (.clientMsg p pkg) = addPassed passed s p := by
  funext q o
  simp [after, passes, addPassed, h]

/-- A message other than the debug operation. -/
lemma onClientMsg_result (h : Bound passed s) (p : Seat) (pkg : ClientMsg)
    (htest : Oper.ofCode pkg.operation ≠ some .testNeedCard) :
    Result (after passed s (.clientMsg p pkg)) s (onClientMsg gameProgress s p pkg).state := by
  by_cases hcancels : cancels s p pkg = true
  · rw [after_of_cancels hcancels]
    obtain ⟨hop, hmem, map, l, hmap, hl⟩ := cancels_iff.mp hcancels
    unfold onClientMsg
    rw [hop]
    exact onGrabCard_cancel gameProgress h hmem hmap hl _
  rw [Bool.not_eq_true] at hcancels
  rw [after_of_not_cancels hcancels]
  have hsame : Result passed s s := h.result rfl rfl
  unfold onClientMsg
  dsimp only
  cases hop : Oper.ofCode pkg.operation with
  | none => exact hsame
  | some oper =>
    by_cases hcancel : oper = .cancel
    · -- a choice to cancel that is not accepted changes nothing
      subst hcancel
      have hnot : onGrabCard gameProgress s p .cancel (fromOld2NowCardByteMap pkg.card_bytes) =
          .ok s := by
        unfold onGrabCard
        by_cases hmem : .cancel ∈ s.playerGrabMgr.canGrabMgr.opers p
        swap
        · have hhas := PlayerGrabMgr.hasOper_eq_false hmem
          rw [hhas]
          rfl
        simp only [PlayerGrabMgr.hasOper_iff.mpr hmem, Bool.not_true, Bool.false_eq_true, if_false]
        cases hmap : s.playerCanDoMap p with
        | none => rfl
        | some map =>
          cases hl : map.cards .cancel with
          | none => simp only [hl]
          | some l =>
            have := cancels_iff.mpr ⟨hop, hmem, map, l, hmap, hl⟩
            rw [hcancels] at this
            exact absurd this (by decide)
      show Result passed s (Handled.state
        (onGrabCard gameProgress s p .cancel (fromOld2NowCardByteMap pkg.card_bytes)))
      rw [hnot]
      exact hsame
    · have hgrab := onGrabCard_result gameProgress h p hcancel
        (fromOld2NowCardByteMap pkg.card_bytes)
      have hplay := onPlayCard_result gameProgress h p (fromOld2NowCardByteMap pkg.card_bytes)
      rw [hop] at htest
      cases oper <;> first | exact hplay | exact absurd rfl htest | exact hsame | exact hgrab

end Messages

/-! ### Every run -/

section Runs

variable {passed : Passed} {s s' : Table}

/-- What is observed of a move is what it did. -/
lemma Result.track {e : Event} (h : Result (after passed s e) s s') (he : asksForTile e = false)
    (hgo : s'.endArgs = none) :
    Bound (fun p o => if dealt s e s' p then [] else passed p o ++ passes s e p o) s' := by
  rcases h hgo with ⟨hwall, htest, hbound⟩ | ⟨t, hpos, hdealt, hbound⟩
  · have hnot : ∀ p, dealt s e s' p = false := by
      intro p
      simp [dealt, hwall, htest]
    simp only [hnot, Bool.false_eq_true, if_false]
    exact hbound
  · have hdrew : (s'.mjWall != s.mjWall ||
        seats.any fun q => s'.testPlayerNeedCard q != s.testPlayerNeedCard q) = true := by
      rw [Bool.or_eq_true, bne_iff_ne, List.any_eq_true]
      rcases hdealt with hw | ht
      · exact Or.inl hw
      · right
        obtain ⟨q, hq⟩ := Function.ne_iff.mp ht
        exact ⟨q, by simp [seats], by simpa using hq⟩
    have hiff : ∀ p, dealt s e s' p = decide (p = t) := by
      intro p
      rw [dealt, he, hdrew, hpos]
      by_cases hp : p = t
      · simp [hp]
      · simp [hp, Ne.symm hp]
    have hclear : (fun p o => if dealt s e s' p = true then [] else passed p o ++ passes s e p o) =
        (after passed s e).clear t := by
      funext p o
      rw [hiff]
      simp only [Passed.clear, after, decide_eq_true_eq]
    rw [hclear]
    exact hbound

/-- The invariant of a run. -/
lemma trackStep_bound {x x' : Table × Passed} {e : GameProgress × Event}
    (h : x.1.endArgs = none → Bound x.2 x.1) (hstep : trackStep x e = some x')
    (hgo' : x'.1.endArgs = none) : Bound x'.2 x'.1 := by
  obtain ⟨s, passed⟩ := x
  obtain ⟨gameProgress, event⟩ := e
  obtain ⟨s', hs', rfl⟩ := Option.map_eq_some_iff.mp hstep
  unfold step at hs'
  split_ifs at hs' with hover
  have hgo : s.endArgs = none := by simpa using hover
  have hbound : Bound passed s := h hgo
  cases event with
  | clientMsg p pkg =>
    obtain rfl := Option.some.inj hs'
    by_cases htest : Oper.ofCode pkg.operation = some .testNeedCard
    · -- the debug operation changes the tiles asked for only
      have hask : asksForTile (.clientMsg p pkg) = true := by simp [asksForTile, htest]
      have hnot : cancels s p pkg = false := by simp [cancels, htest]
      have hsame : (fun q o => if dealt s (.clientMsg p pkg)
          (Handled.state (onClientMsg gameProgress s p pkg)) q then []
          else passed q o ++ passes s (.clientMsg p pkg) q o) = passed := by
        funext q o
        simp [dealt, hask, passes, hnot]
      show Bound (fun q o => if dealt s (.clientMsg p pkg)
        (Handled.state (onClientMsg gameProgress s p pkg)) q then []
        else passed q o ++ passes s (.clientMsg p pkg) q o) _
      rw [hsame]
      unfold onClientMsg
      rw [htest]
      exact hbound.of_same rfl rfl (fun _ => Or.inl rfl) rfl rfl
    · exact (onClientMsg_result gameProgress hbound p pkg htest).track
        (by simpa [asksForTile] using htest) hgo'
  | buHua t =>
    dsimp only at hs'
    split_ifs at hs'
    obtain rfl := Option.some.inj hs'
    have hresult : Result passed s
        (buHua gameProgress { s with timers := s.timers.erase t } t) := by
      refine (buHua_result gameProgress ?_ t).of_same rfl rfl
      exact hbound.of_same rfl rfl (fun _ => Or.inl rfl) rfl rfl
    have hafter : after passed s (.buHua t) = passed := by
      funext q o
      simp [after, passes]
    rw [← hafter] at hresult
    exact hresult.track rfl hgo'

/-- At the beginning nothing is passed on, and only the banker has offers. -/
lemma onEntry_bound (gameProgress : GameProgress) (d : Deal)
    (hgo : (onEntry gameProgress d).endArgs = none) :
    Bound (fun _ _ => []) (onEntry gameProgress d) := by
  unfold onEntry at hgo ⊢
  refine checkMyOper_result gameProgress ?_ (by simp) true hgo
  have hnone : ∀ p, (d.last.playerGrabMgr.clear.canGrabMgr.opers p) = [] := by
    intro p
    simp [PlayerGrabMgr.clear]
  refine ⟨⟨?_, ?_, ?_, ?_⟩, ?_, ?_, ?_⟩
  · intro p map o l _ hmap
    exact absurd hmap.symm (Option.some_ne_none _)
  · intro p map o l _ hmap
    exact absurd hmap.symm (Option.some_ne_none _)
  · intro p o hc
    change _ ∈ d.last.playerGrabMgr.clear.canGrabMgr.opers p at hc
    simp [hnone p] at hc
  · intro p o ho
    change o ∈ d.last.playerGrabMgr.clear.canGrabMgr.opers p at ho
    simp [hnone p] at ho
  · intro p o c hc
    change d.last.mjCancelMgr.clear.isCancelOper p o c = true at hc
    rw [MJCancelMgr.isCancelOper_clear] at hc
    exact absurd hc (by decide)
  · intro p o c hc
    simp at hc
  · intro p o c _ _ hc
    simp at hc

end Runs

end Passing

/-- **Passing is binding.** In every run, with the tiles each seat has passed on since it was last
dealt a tile: no standing offer to a seat is to win or to peng with a tile it has passed on, unless
it is to win with its own new tile; no claim on a tile of another seat that the seat has passed on
would be allowed to it; and claims on other tiles are decided as if nothing had ever been cancelled.

**Proof sketch.** The manager of cancelled operations holds exactly the tiles passed on, except for
a seat that has cancelled a claim after a timer has given it a tile (`Bound.kept`); such a seat
cannot claim anything before it is dealt another one (`Waiting`). -/
theorem passed_not_offered (gameProgress : GameProgress) (d : Deal) (s : Table) (passed : Passed)
    (hs : Runs.Reaches trackStep (fun _ _ => True) (onEntry gameProgress d, fun _ _ => [])
      (s, passed)) (hgo : s.endArgs = none) (p : Seat) :
    (∀ c ∈ offered s p .hu, c ∈ passed p .hu →
      (s.playerList p).hasNewCard = true ∧ c = (s.playerList p).newCard) ∧
    (∀ c ∈ offered s p .peng, c ∉ passed p .peng) ∧
    ∀ (answers : GameProgress) (turn : Seat) (b : ℕ) (bGrabGang : Bool),
      (∀ o l, o = .hu ∨ o = .peng → b ∈ passed p o →
        (o, l) ∉ claims answers s turn p b bGrabGang) ∧
      (b ∉ passed p .hu → b ∉ passed p .peng → claims answers s turn p b bGrabGang =
        claims answers { s with mjCancelMgr := .new } turn p b bGrabGang) := by
  have hinv : ∀ x, Runs.Reaches trackStep (fun _ _ => True)
      (onEntry gameProgress d, fun _ _ => []) x → x.1.endArgs = none → Passing.Bound x.2 x.1 := by
    intro x hx
    exact Runs.Reaches.invariant hx (fun hgo => Passing.onEntry_bound gameProgress d hgo)
      fun x e x' h _ hstep hgo' => Passing.trackStep_bound h hstep hgo'
  have hb : Passing.Bound passed s := hinv (s, passed) hs hgo
  refine ⟨fun c hoff hc => ?_, fun c hoff hc => ?_, fun answers turn b bGrabGang => ⟨?_, ?_⟩⟩
  · exact (hb.fresh p .hu c (Or.inl rfl) hoff hc).2
  · exact absurd (hb.fresh p .peng c (Or.inr rfl) hoff hc).1 (by decide)
  · intro o l ho hc hmem
    obtain ⟨hnew, hnot⟩ := Passing.of_mem_claims answers hmem
    rcases hb.kept p o b hc with hk | hw
    · rw [hnot ho] at hk
      exact absurd hk (by decide)
    · rw [hw.newCard] at hnew
      exact absurd hnew (by decide)
  · intro hhu hpeng
    have hno : ∀ o, b ∉ passed p o → s.mjCancelMgr.isCancelOper p o b = false := by
      intro o ho
      rw [← Bool.not_eq_true]
      exact fun hk => ho (hb.only p o b hk)
    have hnew : ∀ o, MJCancelMgr.new.isCancelOper p o b = false := fun o => rfl
    simp only [claims, otherHu, hno .hu hhu, hno .peng hpeng, hnew]

/-- The hands of a deal in which seat `3` collects three pengs from the banker. -/
def baoPaiHands : List ℕ :=
  [1, 2, 3, 9, 14, 14, 16, 18, 22, 24, 26, 28, 33] ++
  [14, 6, 7, 8, 11, 12, 13, 15, 16, 17, 19, 21, 23] ++
  [6, 7, 8, 11, 12, 13, 15, 17, 18, 19, 21, 23, 25] ++
  [1, 1, 2, 2, 3, 3, 5, 5, 5, 9, 9, 31, 32] ++ [34] ++ [29, 27, 25]

/-- The tiles of `baoPaiHands` come first. -/
def baoPaiDeal : Deal where
  wall := baoPaiHands ++ wallTiles.diff baoPaiHands
  perm := by decide +kernel
  banker := 0
  last := newTable
  asked := newTable_asked

/-- The hand of seat `3` has triplets only; the banker pays for all once it has given three. -/
def baoPaiAnswers (isBaoPai : Bool) : GameProgress where
  countHuType := fun p _ => ⟨false, isBaoPai && p == 3, false, p == 3⟩
  isOut := fun _ => false
  getJYZCount := 0

/-- The banker plays `1` and `2`, which seat `3` takes by peng, and then `9`, which it passes on. -/
def baoPaiPass : List (GameProgress × Event) :=
  [(0, ⟨10, 65⟩), (3, ⟨2, 65⟩), (3, ⟨10, 170⟩), (0, ⟨10, 66⟩), (3, ⟨2, 66⟩), (3, ⟨10, 171⟩),
    (0, ⟨10, 73⟩), (3, ⟨11, 0⟩)].map fun m => (baoPaiAnswers false, .clientMsg m.1 m.2)

/-- The banker takes a tile of seat `1` by peng and plays `3`, the third peng of seat `3`. -/
def baoPaiPeng : List (GameProgress × Event) :=
  [(1, ⟨10, 132⟩), (0, ⟨2, 132⟩), (0, ⟨10, 67⟩)].map
    (fun m : Seat × ClientMsg => (baoPaiAnswers false, Event.clientMsg m.1 m.2)) ++
  [(baoPaiAnswers true, .clientMsg 3 ⟨2, 67⟩)]

/-- Seat `3` of `baoPaiDeal` has passed on `9`. -/
theorem baoPai_passed :
    ∃ s passed, Runs.exec trackStep (fun _ _ => True)
        (onEntry (baoPaiAnswers false) baoPaiDeal, fun _ _ => []) baoPaiPass = some (s, passed) ∧
      s.endArgs = none ∧ passed 3 .hu = [9] ∧ passed 3 .peng = [9] ∧
      (∀ c ∈ offered s 3 .hu, c ∈ passed 3 .hu →
        (s.playerList 3).hasNewCard = true ∧ c = (s.playerList 3).newCard) ∧
      (∀ c ∈ offered s 3 .peng, c ∉ passed 3 .peng) ∧
      ∀ (answers : GameProgress) (turn : Seat) (b : ℕ) (bGrabGang : Bool),
        (∀ o l, o = .hu ∨ o = .peng → b ∈ passed 3 o →
          (o, l) ∉ claims answers s turn 3 b bGrabGang) ∧
        (b ∉ passed 3 .hu → b ∉ passed 3 .peng → claims answers s turn 3 b bGrabGang =
          claims answers { s with mjCancelMgr := .new } turn 3 b bGrabGang) := by
  have hrun : ((Runs.exec trackStep (fun _ _ => True)
      (onEntry (baoPaiAnswers false) baoPaiDeal, fun _ _ => []) baoPaiPass).any fun x =>
        x.1.endArgs.isNone && x.2 3 .hu == [9] && x.2 3 .peng == [9]) = true := by
    decide +kernel
  obtain ⟨⟨s, passed⟩, hs, hfacts⟩ := (Option.any_eq_true _ _).mp hrun
  simp only [Bool.and_eq_true, Option.isNone_iff_eq_none, beq_iff_eq] at hfacts
  obtain ⟨⟨hgo, hhu⟩, hpeng⟩ := hfacts
  exact ⟨s, passed, hs, hgo, hhu, hpeng, passed_not_offered (baoPaiAnswers false) baoPaiDeal s passed
    (Runs.reaches_of_exec _ .init hs) hgo 3⟩

/-- Seat `3` of `baoPaiDeal` is offered to win with the `9` of its own hand, which it has passed on,
when it takes its third tile of the banker by peng. -/
theorem passed_offered_own :
    ∃ s passed, Runs.exec trackStep (fun _ _ => True)
        (onEntry (baoPaiAnswers false) baoPaiDeal, fun _ _ => []) (baoPaiPass ++ baoPaiPeng) =
        some (s, passed) ∧
      s.endArgs = none ∧ 9 ∈ passed 3 .hu ∧ 9 ∈ offered s 3 .hu := by
  have hrun : ((Runs.exec trackStep (fun _ _ => True)
      (onEntry (baoPaiAnswers false) baoPaiDeal, fun _ _ => []) (baoPaiPass ++ baoPaiPeng)).any
        fun x => x.1.endArgs.isNone && (x.2 3 .hu).contains 9 && (offered x.1 3 .hu).contains 9) =
        true := by
    decide +kernel
  obtain ⟨⟨s, passed⟩, hs, hfacts⟩ := (Option.any_eq_true _ _).mp hrun
  simp only [Bool.and_eq_true, Option.isNone_iff_eq_none, List.contains_iff_mem] at hfacts
  exact ⟨s, passed, hs, hfacts.1.1, hfacts.1.2, hfacts.2⟩

end Nanjing
