import JsmjServer.Mahjong.Table

set_option relaxedAutoImplicit false
set_option autoImplicit false

/-!
# Draws from the wall

`giveNewCard` hands out the tile that the seat has asked for by the debug operation
`kOperTestNeedCard`, and only without such a request the front of the wall. The rooms of hongzhong
and nanjing mahjong let the debug operation through in the environment `develop` only. The module
says what it means that a step deals from the front of the wall, and what of the table matters for
that.

## Main definitions

* `Mahjong.passes` — the test of `room.REQUEST:onPlayerOperation`.
* `Mahjong.isGameOper` — the messages that are operations of the game.
* `Mahjong.Table.drawn`, `Mahjong.Table.undealt` — the tile a seat has drawn, and the tiles to come.
* `Mahjong.Table.DealsFront` — the step hands out nothing, or one tile, the front of the wall.
* `Mahjong.Table.Undrawn`, `Mahjong.Table.Dealt` — nothing has been handed out since a table, or
  what has been was the front of its wall.

## Main results

* `Mahjong.Table.Undrawn.draw` — a draw without a request is from the front.
-/

namespace Mahjong

/-! ### Messages -/

/-- The test of `room.REQUEST:onPlayerOperation`: the debug operation is dropped unless the
environment `skynet.getenv("runenv")`, by default `product`, is `develop`. -/
def passes (runenv : Option String) (pkg : ClientMsg) : Bool :=
  !(Oper.ofCode pkg.operation == some .testNeedCard && runenv.getD "product" != "develop")

/-- The message asks for an operation of the game: to play a tile, to claim one or to cancel. A
request for the state of the game, the debug operation and unknown codes are none. -/
def isGameOper (pkg : ClientMsg) : Bool :=
  match Oper.ofCode pkg.operation with
  | none | some .syncData | some .testNeedCard => false
  | some _ => true

lemma passes_iff {runenv : Option String} (h : runenv.getD "product" ≠ "develop")
    {pkg : ClientMsg} :
    passes runenv pkg = true ↔ Oper.ofCode pkg.operation ≠ some .testNeedCard := by
  have hne : (runenv.getD "product" != "develop") = true := bne_iff_ne.mpr h
  simp [passes, hne]

/-! ### What the players do -/

namespace MJPlayer

variable (p : MJPlayer) (b : ℕ) (pos : Seat)

/-- An operation that is done leaves a mark of its own, not that of a draw. -/
lemma justDoOper_doPeng (h : (p.doPeng b pos).1 = true) :
    (p.doPeng b pos).2.justDoOper ≠ .newCard := by
  unfold doPeng at h ⊢
  split_ifs at h ⊢
  dsimp only [pushLastCardToNewCard, MJPile.setPile, MJPile.new]
  split_ifs <;> simp

lemma justDoOper_doGang (h : (p.doGang b pos).1 = true) :
    (p.doGang b pos).2.justDoOper ≠ .newCard := by
  unfold doGang at h ⊢
  split_ifs at h ⊢
  dsimp only [MJPile.setPile, MJPile.new]
  split_ifs <;> simp

lemma justDoOper_doAnGang (h : (p.doAnGang b pos).1 = true) :
    (p.doAnGang b pos).2.justDoOper ≠ .newCard := by
  unfold doAnGang at h ⊢
  split_ifs at h ⊢
  dsimp only [MJPile.setPile, MJPile.new]
  split_ifs <;> simp

/-- The pile that takes in a tile was a peng. -/
lemma operType_addToPile {l l' : List MJPile} {pile : MJPile}
    (h : addToPile b l = some (pile, l')) : pile.operType ≠ .newCard := by
  induction l generalizing l' with
  | nil => simp [addToPile] at h
  | cons v l ih =>
    rw [addToPile] at h
    split_ifs at h with hv
    · simp only [Option.some.injEq, Prod.mk.injEq] at h
      have hpeng : v.operType = .peng := by
        simp only [isPengOf, Bool.and_eq_true, beq_iff_eq] at hv
        exact hv.2
      rw [← h.1]
      simp only [MJPile.setPile]
      split_ifs <;> simp [hpeng]
    · obtain ⟨r, hr, heq⟩ := Option.map_eq_some_iff.mp h
      simp only [Prod.mk.injEq] at heq
      have hr' : addToPile b l = some (pile, r.2) := by rw [hr, ← heq.1]
      exact ih hr'

lemma justDoOper_doMXGang (h : (p.doMXGang b).1 = true) :
    (p.doMXGang b).2.justDoOper ≠ .newCard := by
  unfold doMXGang at h ⊢
  split_ifs at h ⊢
  cases hadd : addToPile b p.pileList with
  | none => simp [hadd] at h
  | some r => exact operType_addToPile b hadd

lemma justDoOper_doPlayCard (h : (p.doPlayCard b).1 = true) :
    (p.doPlayCard b).2.justDoOper ≠ .newCard := by
  unfold doPlayCard at h ⊢
  dsimp only at h ⊢
  split_ifs at h ⊢ <;> simp

end MJPlayer

namespace Table

/-! ### Dealing from the front of the wall -/

/-- The tile that a seat has drawn and not yet played or used. -/
def drawn (s : Table) (p : Seat) : Option ℕ :=
  if s.bZiMo p then some (s.playerList p).newCard else none

/-- The tiles that have not been handed to a player: those taken for the bonus of a won round, and
the wall. -/
def undealt (s : Table) : List ℕ := (s.endArgs.elim [] EndArgs.zhaMaCards) ++ s.mjWall

/-- The seat has no drawn tile in `s'`, or nothing has changed for it since `s`. -/
def Keeps (s s' : Table) (p : Seat) : Prop :=
  s'.drawn p = none ∨ s'.playerList p = s.playerList p

/-- On the way from `s` to `s'` no tile is handed out, or exactly one, and this is the tile removed
from the front of the wall. -/
inductive DealsFront (s s' : Table) : Prop
  | nothing (wall : s'.undealt = s.undealt) (kept : ∀ p, s.Keeps s' p)
  | tile (turn : Seat) (byteCard : ℕ) (wall : s.mjWall = byteCard :: s'.mjWall)
      (given : s'.drawn turn = some byteCard) (kept : ∀ p, p ≠ turn → s.Keeps s' p)

/-- Nothing has been handed out since the table `s₀`, no tile has been asked for, and the tiles to
come are valid. -/
structure Undrawn (s₀ s : Table) : Prop where
  going : s.endArgs = none
  wall : s.mjWall = s₀.mjWall
  legal : ∀ c ∈ s.mjWall, MJCard.isValid c = true
  need : ∀ p, s.testPlayerNeedCard p = none
  kept : ∀ p, s₀.Keeps s p

/-- What has been handed out since the table `s₀` was the front of its wall, and no tile has been
asked for. -/
structure Dealt (s₀ s : Table) : Prop where
  front : s₀.DealsFront s
  legal : ∀ c ∈ s.mjWall, MJCard.isValid c = true
  need : ∀ p, s.testPlayerNeedCard p = none

/-- The wall, the players and the requests are as before; the round may have been won without a
bonus. -/
structure SameHands (s s' : Table) : Prop where
  wall : s'.mjWall = s.mjWall
  players : s'.playerList = s.playerList
  need : s'.testPlayerNeedCard = s.testPlayerNeedCard
  endArgs : s'.endArgs = s.endArgs ∨ ∃ a, s'.endArgs = some a ∧ a.zhaMaCards = []

section Lemmas

variable {s₀ s s' : Table} {p turn : Seat} {c : ℕ}

lemma drawn_congr (h : s'.playerList p = s.playerList p) : s'.drawn p = s.drawn p := by
  have hz : s'.bZiMo p = s.bZiMo p := by simp only [bZiMo, h]
  simp only [drawn, hz, h]

lemma drawn_of_justDoOper (h : (s.playerList p).justDoOper ≠ .newCard) : s.drawn p = none := by
  have hz : s.bZiMo p = false := by simp [bZiMo, h]
  simp [drawn, hz]

lemma drawn_of_newCard (hnew : (s.playerList p).newCard = c) (hc : c ≠ kCardNull)
    (hjust : (s.playerList p).justDoOper = .newCard) : s.drawn p = some c := by
  have hz : s.bZiMo p = true := by simp [bZiMo, MJPlayer.hasNewCard, hnew, hc, hjust]
  simp [drawn, hz, hnew]

lemma Keeps.congr (h : s₀.Keeps s p) (heq : s'.playerList p = s.playerList p) : s₀.Keeps s' p := by
  rcases h with hnone | hsame
  · exact Or.inl ((drawn_congr heq).trans hnone)
  · exact Or.inr (heq.trans hsame)

lemma undealt_of_going (h : s.endArgs = none) : s.undealt = s.mjWall := by
  simp [undealt, h]

namespace Undrawn

lemma refl (hgo : s.endArgs = none) (hlegal : ∀ c ∈ s.mjWall, MJCard.isValid c = true)
    (hneed : ∀ p, s.testPlayerNeedCard p = none) : Undrawn s s :=
  ⟨hgo, rfl, hlegal, hneed, fun _ => Or.inr rfl⟩

/-- The other fields of the table do not matter. -/
lemma congr (h : Undrawn s₀ s) (hs : SameHands s s') (hgo : s'.endArgs = none) : Undrawn s₀ s' where
  going := hgo
  wall := hs.wall.trans h.wall
  legal := by
    rw [hs.wall]
    exact h.legal
  need p := by
    rw [hs.need]
    exact h.need p
  kept p := (h.kept p).congr (by rw [hs.players])

/-- A player may be replaced by one who has drawn nothing. -/
lemma setPlayer (h : Undrawn s₀ s) (turn : Seat) {player : MJPlayer} (hj : player.justDoOper ≠ .newCard) :
    Undrawn s₀ (s.setPlayer turn player) where
  going := h.going
  wall := h.wall
  legal := h.legal
  need := h.need
  kept q := by
    by_cases hq : q = turn
    · refine Or.inl (drawn_of_justDoOper ?_)
      rw [playerList_setPlayer, if_pos hq]
      exact hj
    · refine (h.kept q).congr ?_
      rw [playerList_setPlayer, if_neg hq]

/-- A table since which nothing has been handed out, or on which the round has ended thereby. -/
lemma ended (h : Undrawn s₀ s) (hgo : s₀.endArgs = none) (hwall : s'.undealt = s.mjWall)
    (hp : s'.playerList = s.playerList) (hn : s'.testPlayerNeedCard = s.testPlayerNeedCard) :
    Dealt s₀ s' where
  front := by
    refine .nothing ?_ fun p => (h.kept p).congr (by rw [hp])
    rw [hwall, h.wall, undealt_of_going hgo]
  legal c hc := by
    refine h.legal c ?_
    rw [← hwall]
    exact List.mem_append_right _ hc
  need p := by
    rw [hn]
    exact h.need p

lemma same (h : Undrawn s₀ s) (hgo : s₀.endArgs = none) (hs : SameHands s s') : Dealt s₀ s' := by
  refine h.ended hgo ?_ hs.players hs.need
  rcases hs.endArgs with hover | ⟨a, hover, ha⟩
  · rw [undealt_of_going (hover.trans h.going), hs.wall]
  · simp [undealt, hover, ha, hs.wall]

lemma dealt (h : Undrawn s₀ s) (hgo : s₀.endArgs = none) : Dealt s₀ s :=
  h.same hgo ⟨rfl, rfl, rfl, Or.inl rfl⟩

lemma liuJu (h : Undrawn s₀ s) (hgo : s₀.endArgs = none) : Dealt s₀ (s.gotoNextState .liuJu) :=
  h.same hgo ⟨rfl, rfl, rfl, Or.inr ⟨_, rfl, rfl⟩⟩

/-- Without a request the tile for `giveNewCard` is the front of the wall. -/
lemma takeCard_eq (h : Undrawn s₀ s) (turn : Seat) :
    (s.mjWall = [] ∧ takeCard s turn = none) ∨
      ∃ c wall, s.mjWall = c :: wall ∧ takeCard s turn = some (c, { s with mjWall := wall }) := by
  unfold takeCard
  rw [h.need turn]
  cases hwall : s.mjWall with
  | nil => exact Or.inl ⟨rfl, rfl⟩
  | cons c wall => exact Or.inr ⟨c, wall, rfl, rfl⟩

/-- The front of the wall is handed to a seat. -/
lemma draw (h : Undrawn s₀ s) (player : MJPlayer) {wall : List ℕ} (hwall : s.mjWall = c :: wall)
    (hnew : player.newCard = c) (hj : player.justDoOper = .newCard) (hs' : s'.mjWall = wall)
    (hp : s'.playerList = Function.update s.playerList turn player)
    (hn : s'.testPlayerNeedCard = s.testPlayerNeedCard) : Dealt s₀ s' where
  front := by
    have hturn : s'.playerList turn = player := by rw [hp, Function.update_self]
    refine .tile turn c ?_ ?_ ?_
    · rw [← h.wall, hwall, hs']
    · have hc : MJCard.isValid c = true := h.legal c (by simp [hwall])
      exact drawn_of_newCard (by rw [hturn, hnew]) (MJPlayer.ne_kCardNull_of_isValid hc)
        (by rw [hturn, hj])
    · intro p hne
      refine (h.kept p).congr ?_
      rw [hp, Function.update_of_ne hne]
  legal c' hc' := h.legal c' (by
    rw [hwall, ← hs']
    exact List.mem_cons_of_mem _ hc')
  need p := by
    rw [hn]
    exact h.need p

end Undrawn

lemma SameHands.trans {s₁ s₂ : Table} (h₁ : SameHands s s₁) (h₂ : SameHands s₁ s₂) :
    SameHands s s₂ := by
  refine ⟨h₂.wall.trans h₁.wall, h₂.players.trans h₁.players, h₂.need.trans h₁.need, ?_⟩
  rcases h₂.endArgs with hover | hended
  · rw [hover]
    exact h₁.endArgs
  · exact Or.inr hended

/-- The offers to the other seats leave the hands alone, also when looking at a seat stops. -/
lemma offerUntil_same (s : Table) (turn : Seat) (stops : Seat → Bool)
    (claims : Seat → List (Oper × List ℕ)) :
    (∃ s', s.offerUntil turn stops claims = .error s' ∧ SameHands s s' ∧ s'.endArgs = s.endArgs) ∨
      ∃ r, s.offerUntil turn stops claims = .ok r ∧ SameHands s r.2 ∧ r.2.endArgs = s.endArgs := by
  unfold offerUntil
  dsimp only
  have hoff : Offered claims _ (false, s)
      (([turn + 1, turn + 2, turn + 3].takeWhile fun pos => !stops pos).foldl (offerTo claims)
        (false, s)) := foldl_offerTo_offered _ _
  have hframe := hoff.frame
  set r := ([turn + 1, turn + 2, turn + 3].takeWhile fun pos => !stops pos).foldl (offerTo claims)
    (false, s)
  have hsame : SameHands s r.2 := by
    rw [hframe]
    exact ⟨rfl, rfl, rfl, Or.inl rfl⟩
  have hover : r.2.endArgs = s.endArgs := by rw [hframe]
  split_ifs
  · exact Or.inl ⟨r.2, rfl, hsame, hover⟩
  · exact Or.inr ⟨r, rfl, hsame, hover⟩

end Lemmas

end Table

end Mahjong
