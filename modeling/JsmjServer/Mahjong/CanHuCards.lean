import JsmjServer.Mahjong.TingHints

set_option relaxedAutoImplicit false
set_option autoImplicit false

/-!
# The loop that looks for the winning tiles

`MJMath:getCanHuCards` of `mj_core/MJMath.lua` as it runs: it puts each tile of the suits it does
not skip on the table it was given, asks the recogniser, and takes the tile off again. The
recogniser works on a copy of the table.

## Main definitions

* `Mahjong.MJMath.WaitState`, `Mahjong.MJMath.tryCard` — what the loop mutates, and its body.
* `Mahjong.MJMath.getCanHuCardsLoop` — the loop over the suits.

## Main results

* `Mahjong.MJMath.getCanHuCardsLoop_eq` — the loop computes the list `getCanHuCards` and leaves the
  table as it was.
* `Mahjong.MJMath.getCanHuCardsLoop_exact` — the list names every tile that wins, in order.
-/

namespace Mahjong.MJMath

/-! ### The loop -/

/-- What `getCanHuCards` mutates: its argument `pai` and the result `list`. -/
structure WaitState where
  /-- The count table. -/
  pai : ℕ → ℕ
  /-- The tiles found so far. -/
  list : List ℕ

/-- The body of the loop: one tile more, the recogniser, one tile less. -/
def tryCard (s : WaitState) (j : ℕ) : WaitState :=
  let pai := addAt s.pai j 1
  ⟨fun i => if i = j then pai i - 1 else pai i, if canHu pai then s.list ++ [j] else s.list⟩

/-- `ingorSuit`: without wild tiles, the suit holds a multiple of three tiles. -/
def ingorSuit (pai : ℕ → ℕ) (suit : List ℕ) : Bool := pai 0 == 0 && (suit.map pai).sum % 3 == 0

/-- `MJMath:getCanHuCards`, with the table it leaves. Which suits are skipped is decided before the
loop. -/
def getCanHuCardsLoop (pai : ℕ → ℕ) : WaitState :=
  if (remain pai + pai 0) % 3 ≠ 1 then ⟨pai, []⟩
  else suitCards.foldl
    (fun s suit => if ingorSuit pai suit then s else suit.foldl tryCard s) ⟨pai, []⟩

/-! ### The table is restored -/

lemma tryCard_eq (pai : ℕ → ℕ) (list : List ℕ) (j : ℕ) :
    tryCard ⟨pai, list⟩ j =
      ⟨pai, if canHu (addAt pai j 1) then list ++ [j] else list⟩ := by
  have hback : (fun i => if i = j then addAt pai j 1 i - 1 else addAt pai j 1 i) = pai := by
    funext i
    unfold addAt
    split_ifs <;> rfl
  simp only [tryCard, hback]

/-- The loop over one suit. -/
lemma foldl_tryCard (pai : ℕ → ℕ) (suit list : List ℕ) :
    suit.foldl tryCard ⟨pai, list⟩ =
      ⟨pai, list ++ suit.filter fun j => canHu (addAt pai j 1)⟩ := by
  induction suit generalizing list with
  | nil => simp
  | cons j suit ih =>
    rw [List.foldl_cons, tryCard_eq, ih, List.filter_cons]
    split_ifs
    · rw [List.append_assoc, List.singleton_append]
    · rfl

/-- The loop over the suits. -/
lemma foldl_suits (q : List ℕ → Bool) (suits : List (List ℕ)) (pai : ℕ → ℕ) (list : List ℕ) :
    suits.foldl (fun s suit => if q suit then s else suit.foldl tryCard s) ⟨pai, list⟩ =
      ⟨pai, list ++ (suits.filter fun suit => !q suit).flatMap fun suit =>
        suit.filter fun j => canHu (addAt pai j 1)⟩ := by
  induction suits generalizing list with
  | nil => simp
  | cons suit suits ih =>
    rw [List.foldl_cons, List.filter_cons]
    cases hq : q suit with
    | true =>
      rw [if_pos rfl, ih]
      rfl
    | false =>
      rw [if_neg Bool.false_ne_true, foldl_tryCard, ih, Bool.not_false, if_pos rfl,
        List.flatMap_cons, List.append_assoc]

/-- The loop computes the list of `getCanHuCards` and leaves the table as it was. -/
theorem getCanHuCardsLoop_eq (pai : ℕ → ℕ) : getCanHuCardsLoop pai = ⟨pai, getCanHuCards pai⟩ := by
  have hskip : (fun suit => !ingorSuit pai suit) =
      fun suit => decide (pai 0 ≠ 0) || decide ((suit.map pai).sum % 3 ≠ 0) := by
    funext suit
    by_cases h0 : pai 0 = 0 <;> by_cases hsum : (suit.map pai).sum % 3 = 0 <;>
      simp [ingorSuit, h0, hsum]
  unfold getCanHuCardsLoop getCanHuCards
  split_ifs with hmod
  · rfl
  · rw [foldl_suits, hskip]
    rfl

/-! ### The order of the list -/

lemma flatMap_filter_sublist (q : List ℕ → Bool) (r : ℕ → Bool) (suits : List (List ℕ)) :
    ((suits.filter q).flatMap fun suit => suit.filter r).Sublist suits.flatten := by
  induction suits with
  | nil => exact List.Sublist.refl _
  | cons suit suits ih =>
    rw [List.filter_cons, List.flatten_cons]
    split_ifs with hq
    · rw [List.flatMap_cons]
      exact List.filter_sublist.append ih
    · exact ih.trans (List.sublist_append_right suit _)

/-- The tiles of the suits are listed in increasing order. -/
lemma sortedLT_getCanHuCards (pai : ℕ → ℕ) : (getCanHuCards pai).SortedLT := by
  have hall : suitCards.flatten.SortedLT := by decide
  have hsub : (getCanHuCards pai).Sublist suitCards.flatten := by
    unfold getCanHuCards
    split_ifs with hmod
    · exact List.nil_sublist _
    · exact flatMap_filter_sublist _ _ _
  exact (hall.pairwise.sublist hsub).sortedLT

/-- **The suits that are skipped hold no winning tile.** For every count map the loop returns, in
increasing order, exactly the suit and honour tiles which complete the hand, and leaves the map as
it was.

**Proof sketch.** The loop restores the map after each tile (`foldl_tryCard`), so that it computes
`getCanHuCards`. Both lists are sorted and have the same members (`mem_getCanHuCards`): in a suit
that is skipped one tile more would be left over. -/
theorem getCanHuCardsLoop_exact (m : CountMap) :
    (getCanHuCardsLoop m.pai).pai = m.pai ∧ (getCanHuCardsLoop m.pai).list =
      indices.filter fun j => IsTile j ∧ canHu (addAt m.pai j 1) = true := by
  rw [getCanHuCardsLoop_eq]
  refine ⟨rfl, ?_⟩
  have hindices : indices.SortedLT := by decide
  refine (sortedLT_getCanHuCards m.pai).eq_of_mem_iff
    (hindices.pairwise.sublist List.filter_sublist).sortedLT fun j => ?_
  rw [mem_getCanHuCards m.gap, List.mem_filter, decide_eq_true_eq]
  refine ⟨fun h => ⟨?_, h⟩, fun h => h.2⟩
  obtain ⟨h1, h37, -⟩ := h.1
  exact List.mem_range'_1.mpr ⟨h1, by omega⟩

end Mahjong.MJMath
