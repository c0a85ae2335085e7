import JsmjServer.Tongxiang.TXMJPlayer

set_option relaxedAutoImplicit false
set_option autoImplicit false

/-!
# A player's record and the six operations on it

`mj_core/MJPlayer.lua` once more, with the two histories the operations write and with the new tile
as the source holds it: `kCardNull` where there is none, and `nil` after `pushLastCardToNewCard` has
taken the last tile of an empty hand.

## Main definitions

* `Mahjong.PlayerRecord` — the fields of a player that the operations read or write.
* `Mahjong.PlayerOp` — `doPeng`, `doGang`, `doAnGang`, `doMXGang`, `doChi` and `doPlayCard` with
  their arguments, and what each is to add to the player's tiles or to take from them.
* `Mahjong.PlayerRecord.WellFormed`, `Mahjong.PlayerRecord.Reached` — what every record satisfies;
  the records built by the functions of `MJPlayer`.
* `Mahjong.PlayerOp.Conserves` — the operation fails and changes nothing, or it succeeds and changes
  the tiles as it should.

## Main results

* `Mahjong.PlayerOp.wellFormed_run` — the operations keep a record well formed.
* `Mahjong.PlayerOp.conserves_iff` — an operation conserves the tiles unless it claims a peng or a
  run with the only two tiles of the hand.
-/

namespace Mahjong

/-- `MJPlayer`: the new tile (`none` is the `nil` of the source), the hand, the exposed piles, the
operations made and the tiles played, and the last operation. -/
structure PlayerRecord where
  newCard : Option ℕ
  cardList : List ℕ
  pileList : List MJPile
  opHistoryList : List Oper
  playedList : List ℕ
  justDoOper : Oper
  deriving DecidableEq

namespace PlayerRecord

/-! ### The functions of `MJPlayer` -/

/-- `MJPlayer:ctor` and `MJPlayer:clear`. -/
def new : PlayerRecord := ⟨some kCardNull, [], [], [], [], .null⟩

/-- `MJPlayer:hasNewCard`. It compares with `kCardNull`, and so `nil` counts as a new tile. -/
def hasNewCard (r : PlayerRecord) : Bool := r.newCard != some kCardNull

/-- `MJPlayer:sortHandCard`. -/
def sortHandCard (r : PlayerRecord) : PlayerRecord :=
  { r with cardList := r.cardList.insertionSort (· ≤ ·) }

/-- `MJPlayer:addNewCard`. -/
def addNewCard (r : PlayerRecord) (byteCard : ℕ) : PlayerRecord :=
  if MJCard.isValid byteCard then { r with justDoOper := .newCard, newCard := some byteCard }
  else r

/-- `MJPlayer:delNewCard`. -/
def delNewCard (r : PlayerRecord) (byteCard : ℕ) : Bool × PlayerRecord :=
  if r.newCard = some byteCard then (true, { r with newCard := some kCardNull }) else (false, r)

/-- `MJPlayer:addHandCard`. -/
def addHandCard (r : PlayerRecord) (byteCard : ℕ) : PlayerRecord :=
  if MJCard.isValid byteCard then sortHandCard { r with cardList := r.cardList ++ [byteCard] }
  else r

/-- `MJPlayer:delHandCard`. -/
def delHandCard (r : PlayerRecord) (byteCard : ℕ) : Bool × PlayerRecord :=
  if byteCard ∈ r.cardList then (true, { r with cardList := r.cardList.erase byteCard })
  else (false, r)

/-- `MJPlayer:getCardCountInHand`. -/
def getCardCountInHand (r : PlayerRecord) (byteCard : ℕ) (bIncludeNewCard : Bool) : ℕ :=
  r.cardList.count byteCard + if bIncludeNewCard && r.newCard == some byteCard then 1 else 0

/-- `MJPlayer:pushLastCardToNewCard`. An empty hand has no last tile. -/
def pushLastCardToNewCard (r : PlayerRecord) : PlayerRecord :=
  { r with newCard := r.cardList.getLast?, cardList := r.cardList.dropLast }

/-- `MJPlayer:pushNewCardToHand`. Inserting `nil` leaves the hand as it is. -/
def pushNewCardToHand (r : PlayerRecord) : PlayerRecord :=
  if r.hasNewCard then
    sortHandCard { r with cardList := r.cardList ++ r.newCard.toList, newCard := some kCardNull }
  else r

/-- The end of the operations that expose a pile: the pile and its operation are recorded. -/
def exposePile (r : PlayerRecord) (pile : MJPile) : PlayerRecord :=
  { r with
    pileList := r.pileList ++ [pile]
    justDoOper := pile.operType
    opHistoryList := r.opHistoryList ++ [pile.operType] }

/-- `MJPlayer:canPeng`. -/
def canPeng (r : PlayerRecord) (byteCard : ℕ) : Bool :=
  !r.hasNewCard && 2 ≤ r.getCardCountInHand byteCard false

/-- `MJPlayer:doPeng`. -/
def doPeng (r : PlayerRecord) (byteCard : ℕ) (pos : Seat) : Bool × PlayerRecord :=
  if !r.canPeng byteCard then (false, r)
  else
    let r := (r.delHandCard byteCard).2
    let r := (r.delHandCard byteCard).2
    let pile := MJPile.new.setPile 3 [byteCard, byteCard, byteCard] pos .peng
    (true, (r.exposePile pile).pushLastCardToNewCard)

/-- `MJPlayer:canGang`. -/
def canGang (r : PlayerRecord) (byteCard : ℕ) : Bool :=
  !r.hasNewCard && 3 ≤ r.getCardCountInHand byteCard false

/-- `MJPlayer:doGang`. -/
def doGang (r : PlayerRecord) (byteCard : ℕ) (pos : Seat) : Bool × PlayerRecord :=
  if !r.canGang byteCard then (false, r)
  else
    let r := (r.delHandCard byteCard).2
    let r := (r.delHandCard byteCard).2
    let r := (r.delHandCard byteCard).2
    let pile := MJPile.new.setPile 4 [byteCard, byteCard, byteCard, byteCard] pos .mg
    (true, r.exposePile pile)

/-- The last tile of a kong of one's own: it leaves the hand, where the new tile takes its place,
or it is the new tile. -/
def takeLast (r : PlayerRecord) (byteCard : ℕ) : PlayerRecord :=
  let d := r.delHandCard byteCard
  if !d.1 then (r.delNewCard byteCard).2 else d.2.pushNewCardToHand

/-- `MJPlayer:doAnGang`. -/
def doAnGang (r : PlayerRecord) (byteCard : ℕ) (pos : Seat) : Bool × PlayerRecord :=
  if !r.hasNewCard then (false, r)
  else if r.getCardCountInHand byteCard true < 4 then (false, r)
  else
    let r := (r.delHandCard byteCard).2
    let r := (r.delHandCard byteCard).2
    let r := (r.delHandCard byteCard).2
    let r := r.takeLast byteCard
    let pile := MJPile.new.setPile 4 [byteCard, byteCard, byteCard, byteCard] pos .ag
    (true, r.exposePile pile)

/-- `MJPlayer:doMXGang`. -/
def doMXGang (r : PlayerRecord) (byteCard : ℕ) : Bool × PlayerRecord :=
  if !r.hasNewCard || r.pileList.isEmpty then (false, r)
  else if r.getCardCountInHand byteCard true < 1 then (false, r)
  else
    match MJPlayer.addToPile byteCard r.pileList with
    | none => (false, r)
    | some (pile, pileList) =>
      (true, { r.takeLast byteCard with
        pileList := pileList
        justDoOper := pile.operType
        opHistoryList := r.opHistoryList ++ [pile.operType] })

/-- `MJPlayer:getCanChiType` without wild tiles, as `doChi` calls it. -/
def getCanChiType (r : PlayerRecord) (byteCard : ℕ) : List Oper :=
  if r.hasNewCard then []
  else if !MJCard.isValid byteCard then []
  else if 3 ≤ byteCard / 10 then []
  else MJPlayer.chiTypes (fun i => if i ≤ Zi7 then r.cardList.count i else 0) byteCard

/-- `MJPlayer:doChi`. The two tiles differ, and so it does not matter which leaves the hand
first. -/
def doChi (r : PlayerRecord) (byteCard : ℕ) (chiType : Oper) (pos : Seat) : Bool × PlayerRecord :=
  if chiType ∉ r.getCanChiType byteCard then (false, r)
  else
    match MJPlayer.chiCardList byteCard chiType with
    | none => (false, r)
    | some (c₁, c₂) =>
      let r := (r.delHandCard c₁).2
      let r := (r.delHandCard c₂).2
      let pile := MJPile.new.setPile 3 [byteCard, c₁, c₂] pos chiType
      (true, (r.exposePile pile).pushLastCardToNewCard)

/-- The end of `MJPlayer:doPlayCard`: the tile played is recorded. -/
def recordPlay (r : PlayerRecord) (byteCard : ℕ) : PlayerRecord :=
  { r with
    justDoOper := .play
    opHistoryList := r.opHistoryList ++ [.play]
    playedList := r.playedList ++ [byteCard] }

/-- `MJPlayer:doPlayCard`. -/
def doPlayCard (r : PlayerRecord) (byteCard : ℕ) : Bool × PlayerRecord :=
  if !r.hasNewCard then (false, r)
  else
    let n := r.delNewCard byteCard
    if n.1 then (true, n.2.recordPlay byteCard)
    else
      let h := r.delHandCard byteCard
      if h.1 then (true, h.2.pushNewCardToHand.recordPlay byteCard) else (false, r)

/-! ### The tiles of a record -/

/-- The new tile and the hand. -/
def held (r : PlayerRecord) : Multiset ℕ :=
  MJPlayer.newTiles (r.newCard.getD kCardNull) + ↑r.cardList

/-- All tiles a player has: the new tile, the hand and the piles. -/
def tiles (r : PlayerRecord) : Multiset ℕ := r.held + MJPlayer.pileTiles r.pileList

/-- The new tile is a tile or `kCardNull`, and not `nil`. -/
def HasValidNew (r : PlayerRecord) : Prop :=
  ∃ n, r.newCard = some n ∧ (n = kCardNull ∨ MJCard.isValid n = true)

/-- The hand and the new tile are tiles, as `addHandCard` and `addNewCard` check, and a pile made by
peng is three times its tile, as `doPeng` makes it. -/
structure WellFormed (r : PlayerRecord) : Prop where
  valid : ∀ c ∈ r.cardList, MJCard.isValid c = true
  new : ∀ n, r.newCard = some n → n = kCardNull ∨ MJCard.isValid n = true
  peng : ∀ v ∈ r.pileList, v.operType = .peng → ∃ c, v.cardList = [c, c, c]

end PlayerRecord

/-- An operation of `MJPlayer` with its arguments. -/
inductive PlayerOp
  | peng (byteCard : ℕ) (pos : Seat)
  | gang (byteCard : ℕ) (pos : Seat)
  | anGang (byteCard : ℕ) (pos : Seat)
  | mxGang (byteCard : ℕ)
  | chi (byteCard : ℕ) (chiType : Oper) (pos : Seat)
  | play (byteCard : ℕ)

namespace PlayerOp

open PlayerRecord

/-- The call of the operation. -/
def run (r : PlayerRecord) : PlayerOp → Bool × PlayerRecord
  | peng b pos => r.doPeng b pos
  | gang b pos => r.doGang b pos
  | anGang b pos => r.doAnGang b pos
  | mxGang b => r.doMXGang b
  | chi b t pos => r.doChi b t pos
  | play b => r.doPlayCard b

/-- What the operation is to do to the tiles: a claim adds the claimed tile, a discard takes the
played one, and a kong of one's own only moves tiles. -/
def Changes (before after : Multiset ℕ) : PlayerOp → Prop
  | peng b _ | gang b _ | chi b _ _ => after = b ::ₘ before
  | anGang _ _ | mxGang _ => after = before
  | play b => before = b ::ₘ after

/-- The operation fails and leaves the player as it was, or it succeeds, the tiles change as they
should, the new tile is one or `kCardNull`, and a sorted hand stays sorted. -/
def Conserves (op : PlayerOp) (r : PlayerRecord) : Prop :=
  ((op.run r).1 = false ∧ (op.run r).2.cardList = r.cardList ∧
    (op.run r).2.newCard = r.newCard ∧ (op.run r).2.pileList = r.pileList ∧
    (op.run r).2.opHistoryList = r.opHistoryList ∧ (op.run r).2.playedList = r.playedList) ∨
  ((op.run r).1 = true ∧ op.Changes r.tiles (op.run r).2.tiles ∧ (op.run r).2.HasValidNew ∧
    (r.cardList.Pairwise (· ≤ ·) → (op.run r).2.cardList.Pairwise (· ≤ ·)))

/-- A peng or a run is claimed with the only two tiles of the hand. -/
def EmptiesHand (r : PlayerRecord) : PlayerOp → Prop
  | peng b _ => r.canPeng b = true ∧ r.cardList.length = 2
  | chi b t _ => t ∈ r.getCanChiType b ∧ r.cardList.length = 2
  | _ => False

end PlayerOp

namespace PlayerRecord

/-! ### What the functions do -/

section Tiles

variable {r : PlayerRecord} {b : ℕ}

lemma newCard_of_not_hasNewCard (hn : r.hasNewCard = false) : r.newCard = some kCardNull := by
  simpa [hasNewCard] using hn

/-- A player without a new tile holds the hand. -/
lemma held_of_not_hasNewCard (hn : r.hasNewCard = false) : r.held = ↑r.cardList := by
  rw [held, newCard_of_not_hasNewCard hn, Option.getD_some, MJPlayer.newTiles_kCardNull, zero_add]

/-- The new tile counts as the tile it is; `nil` is none. -/
lemma newTiles_getD (hn : r.hasNewCard = true) :
    MJPlayer.newTiles (r.newCard.getD kCardNull) = ↑r.newCard.toList := by
  cases hnew : r.newCard with
  | none => rfl
  | some n =>
    have hne : n ≠ kCardNull := by
      rintro rfl
      rw [hasNewCard, hnew] at hn
      exact absurd hn (by decide)
    rw [Option.getD_some, MJPlayer.newTiles_of_ne hne]
    rfl

/-- A player with a new tile holds it and the hand. -/
lemma held_of_hasNewCard (hn : r.hasNewCard = true) :
    r.held = ↑(r.cardList ++ r.newCard.toList) := by
  rw [held, newTiles_getD hn, ← Multiset.coe_add, add_comm]

lemma delHandCard_snd (r : PlayerRecord) (b : ℕ) :
    (r.delHandCard b).2 = { r with cardList := r.cardList.erase b } := by
  unfold delHandCard
  split_ifs with h
  · rfl
  · rw [List.erase_of_not_mem h]

lemma delHandCard_fst (r : PlayerRecord) (b : ℕ) :
    (r.delHandCard b).1 = decide (b ∈ r.cardList) := by
  unfold delHandCard
  split_ifs with h <;> simp [h]

lemma getCardCountInHand_false (r : PlayerRecord) (b : ℕ) :
    r.getCardCountInHand b false = r.cardList.count b := by
  simp [getCardCountInHand]

/-- The count that includes the new tile is the number of copies held. -/
lemma getCardCountInHand_true (hn : r.hasNewCard = true) :
    r.getCardCountInHand b true = r.held.count b := by
  rw [held_of_hasNewCard hn, Multiset.coe_count, List.count_append, getCardCountInHand]
  cases hnew : r.newCard with
  | none => simp
  | some n => simp [List.count_singleton]

/-- The new tile of a player who has one is put to the hand. -/
lemma pushNewCardToHand_spec (hn : r.hasNewCard = true) :
    ∃ l : List ℕ, ↑l = r.held ∧ l.Pairwise (· ≤ ·) ∧
      r.pushNewCardToHand = { r with newCard := some kCardNull, cardList := l } := by
  refine ⟨(r.cardList ++ r.newCard.toList).insertionSort (· ≤ ·), ?_,
    List.pairwise_insertionSort _ _, ?_⟩
  · rw [held_of_hasNewCard hn]
    exact Multiset.coe_eq_coe.mpr (List.perm_insertionSort _ _)
  · rw [pushNewCardToHand, if_pos hn]
    rfl

/-- Taking the last copy of a kong, or of a tile that is played, from the tiles held. -/
lemma takeLast_spec (hn : r.hasNewCard = true) (hc : 1 ≤ r.getCardCountInHand b true) :
    ∃ l : List ℕ, r.held = b ::ₘ ↑l ∧ (r.cardList.Pairwise (· ≤ ·) → l.Pairwise (· ≤ ·)) ∧
      r.takeLast b = { r with newCard := some kCardNull, cardList := l } := by
  by_cases hb : b ∈ r.cardList
  · -- the tile is in the hand, and the new one takes its place
    set q : PlayerRecord := { r with cardList := r.cardList.erase b } with hq
    have hqn : q.hasNewCard = true := hn
    obtain ⟨l, hl, hsorted, hpush⟩ := pushNewCardToHand_spec hqn
    refine ⟨l, ?_, fun _ => hsorted, ?_⟩
    · rw [hl]
      have hcons : (r.cardList : Multiset ℕ) = b ::ₘ ↑(r.cardList.erase b) :=
        Multiset.coe_eq_coe.mpr (List.perm_cons_erase hb)
      simp only [held, hq, hcons, Multiset.add_cons]
    · have hfst : (r.delHandCard b).1 = true := by rw [delHandCard_fst, decide_eq_true hb]
      simp only [takeLast, hfst, Bool.not_true, Bool.false_eq_true, if_false, delHandCard_snd]
      rw [hpush]
  · -- the tile is the new one
    have hnew : r.newCard = some b := by
      by_contra hne
      have hzero : r.getCardCountInHand b true = 0 := by
        rw [getCardCountInHand, List.count_eq_zero_of_not_mem hb]
        simp [hne]
      omega
    refine ⟨r.cardList, ?_, id, ?_⟩
    · rw [held_of_hasNewCard hn, hnew, Multiset.cons_coe]
      exact Multiset.coe_eq_coe.mpr (List.perm_append_singleton _ _)
    · have hfst : (r.delHandCard b).1 = false := by rw [delHandCard_fst, decide_eq_false hb]
      simp only [takeLast, hfst, Bool.not_false, if_true, delNewCard, if_pos hnew]

/-- The last tile of the hand becomes the new tile; an empty hand has none. -/
lemma held_pushLastCardToNewCard (hv : ∀ c ∈ r.cardList, MJCard.isValid c = true) :
    r.pushLastCardToNewCard.held = ↑r.cardList := by
  rcases List.eq_nil_or_concat' r.cardList with hnil | ⟨l, x, hl⟩
  · simp [held, pushLastCardToNewCard, hnil]
  · have hx : x ≠ kCardNull := MJPlayer.ne_kCardNull_of_isValid (hv x (by simp [hl]))
    simp only [held, pushLastCardToNewCard, hl, List.getLast?_append, List.getLast?_singleton,
      Option.some_or, Option.getD_some, List.dropLast_concat, MJPlayer.newTiles_of_ne hx]
    exact Multiset.coe_eq_coe.mpr (List.perm_append_singleton x l).symm

/-- After `pushLastCardToNewCard` there is a new tile if and only if the hand was not empty. -/
lemma hasValidNew_pushLastCardToNewCard (hv : ∀ c ∈ r.cardList, MJCard.isValid c = true) :
    r.pushLastCardToNewCard.HasValidNew ↔ r.cardList ≠ [] := by
  constructor
  · rintro ⟨n, hn, -⟩ hnil
    simp [pushLastCardToNewCard, hnil] at hn
  · intro hne
    exact ⟨r.cardList.getLast hne, List.getLast?_eq_some_getLast hne,
      Or.inr (hv _ (List.getLast_mem hne))⟩

lemma sorted_pushLastCardToNewCard (hs : r.cardList.Pairwise (· ≤ ·)) :
    r.pushLastCardToNewCard.cardList.Pairwise (· ≤ ·) :=
  hs.sublist (List.dropLast_sublist _)

end Tiles

/-! ### How the operations end -/

section Operations

variable {r : PlayerRecord} {b : ℕ}

/-- A peng is refused, or it takes two tiles off the hand. -/
lemma doPeng_cases (h : r.WellFormed) (pos : Seat) :
    (r.canPeng b = false ∧ r.doPeng b pos = (false, r)) ∨
    (r.canPeng b = true ∧ r.hasNewCard = false ∧ ∃ l, r.cardList.Perm ([b, b] ++ l) ∧
      l.Sublist r.cardList ∧ r.doPeng b pos = (true,
        (({ r with cardList := l } : PlayerRecord).exposePile
          ⟨[b, b, b], .peng, pos⟩).pushLastCardToNewCard)) := by
  cases hc : r.canPeng b with
  | false => exact Or.inl ⟨rfl, by simp [doPeng, hc]⟩
  | true =>
    have hc' := hc
    simp only [canPeng, Bool.and_eq_true, Bool.not_eq_true', decide_eq_true_eq,
      getCardCountInHand_false] at hc'
    obtain ⟨hn, hcount⟩ := hc'
    have hv : MJCard.isValid b = true := h.valid b (List.count_pos_iff.mp (by omega))
    refine Or.inr ⟨rfl, hn, (r.cardList.erase b).erase b, MJPlayer.perm_erase_two hcount,
      List.erase_sublist.trans List.erase_sublist, ?_⟩
    simp only [doPeng, hc, Bool.not_true, Bool.false_eq_true, if_false, delHandCard_snd,
      MJPlayer.setPile_new_peng pos hv]

/-- A kong on another seat's tile is refused, or it takes three tiles off the hand. -/
lemma doGang_cases (h : r.WellFormed) (pos : Seat) :
    r.doGang b pos = (false, r) ∨
    (r.hasNewCard = false ∧ ∃ l, r.cardList.Perm ([b, b, b] ++ l) ∧ l.Sublist r.cardList ∧
      r.doGang b pos =
        (true, ({ r with cardList := l } : PlayerRecord).exposePile ⟨[b, b, b, b], .mg, pos⟩)) := by
  cases hc : r.canGang b with
  | false => exact Or.inl (by simp [doGang, hc])
  | true =>
    have hc' := hc
    simp only [canGang, Bool.and_eq_true, Bool.not_eq_true', decide_eq_true_eq,
      getCardCountInHand_false] at hc'
    obtain ⟨hn, hcount⟩ := hc'
    have hv : MJCard.isValid b = true := h.valid b (List.count_pos_iff.mp (by omega))
    refine Or.inr ⟨hn, ((r.cardList.erase b).erase b).erase b, MJPlayer.perm_erase_three hcount,
      (List.erase_sublist.trans List.erase_sublist).trans List.erase_sublist, ?_⟩
    simp only [doGang, hc, Bool.not_true, Bool.false_eq_true, if_false, delHandCard_snd]
    rw [MJPlayer.setPile_new_gang pos hv (by decide)]

/-- A concealed kong is refused, or it takes four of the tiles held. -/
lemma doAnGang_cases (h : r.WellFormed) (pos : Seat) :
    r.doAnGang b pos = (false, r) ∨
    ∃ l : List ℕ, r.held = ↑[b, b, b, b] + ↑l ∧
      (r.cardList.Pairwise (· ≤ ·) → l.Pairwise (· ≤ ·)) ∧ r.doAnGang b pos = (true,
        ({ r with newCard := some kCardNull, cardList := l } : PlayerRecord).exposePile
          ⟨[b, b, b, b], .ag, pos⟩) := by
  cases hn : r.hasNewCard with
  | false => exact Or.inl (by simp [doAnGang, hn])
  | true =>
    by_cases hlt : r.getCardCountInHand b true < 4
    · exact Or.inl (by simp [doAnGang, hn, hlt])
    have hcount : 3 ≤ r.cardList.count b := by
      rw [getCardCountInHand] at hlt
      split_ifs at hlt <;> omega
    have hv : MJCard.isValid b = true := h.valid b (List.count_pos_iff.mp (by omega))
    have hperm := MJPlayer.perm_erase_three hcount
    -- the hand after three copies have left it
    set q : PlayerRecord :=
      { r with cardList := ((r.cardList.erase b).erase b).erase b } with hq
    have hqn : q.hasNewCard = true := hn
    have hheld : r.held = ↑[b, b, b] + q.held := by
      simp only [held, hq, Multiset.coe_eq_coe.mpr hperm, ← Multiset.cons_coe,
        ← Multiset.singleton_add, Multiset.coe_nil]
      abel
    have hqcount : 1 ≤ q.getCardCountInHand b true := by
      rw [getCardCountInHand_true hn, hheld, Multiset.count_add,
        ← getCardCountInHand_true hqn] at hlt
      have hthree : Multiset.count b ↑[b, b, b] = 3 := by simp
      omega
    obtain ⟨l, hqheld, hsorted, htake⟩ := takeLast_spec hqn hqcount
    refine Or.inr ⟨l, ?_, fun hs => hsorted (hs.sublist
      ((List.erase_sublist.trans List.erase_sublist).trans List.erase_sublist)), ?_⟩
    · rw [hheld, hqheld]
      simp only [← Multiset.cons_coe, ← Multiset.singleton_add, Multiset.coe_nil]
      abel
    · simp only [doAnGang, hn, Bool.not_true, Bool.false_eq_true, if_false, hlt, delHandCard_snd]
      rw [← hq, htake, MJPlayer.setPile_new_gang pos hv (by decide)]

/-- An added kong is refused, or one of the tiles held goes to a pile. -/
lemma doMXGang_cases (r : PlayerRecord) (b : ℕ) :
    r.doMXGang b = (false, r) ∨
    ∃ (l : List ℕ) (v : MJPile) (piles : List MJPile), r.held = b ::ₘ ↑l ∧
      (r.cardList.Pairwise (· ≤ ·) → l.Pairwise (· ≤ ·)) ∧
      MJPlayer.addToPile b r.pileList = some (v, piles) ∧ r.doMXGang b = (true, { r with
        newCard := some kCardNull
        cardList := l
        pileList := piles
        justDoOper := v.operType
        opHistoryList := r.opHistoryList ++ [v.operType] }) := by
  by_cases hg : (!r.hasNewCard || r.pileList.isEmpty) = true
  · exact Or.inl (by simp only [doMXGang, hg, if_true])
  by_cases hlt : r.getCardCountInHand b true < 1
  · exact Or.inl (by simp only [doMXGang, hg, Bool.false_eq_true, if_false, hlt, if_true])
  cases hadd : MJPlayer.addToPile b r.pileList with
  | none =>
    exact Or.inl (by simp only [doMXGang, hg, Bool.false_eq_true, if_false, hlt, hadd])
  | some a =>
    have hn : r.hasNewCard = true := by
      by_contra hn
      rw [Bool.not_eq_true] at hn
      exact hg (by simp [hn])
    obtain ⟨l, hheld, hsorted, htake⟩ := takeLast_spec hn (not_lt.mp hlt)
    refine Or.inr ⟨l, a.1, a.2, hheld, hsorted, rfl, ?_⟩
    simp only [doMXGang, hg, Bool.false_eq_true, if_false, hlt, hadd, htake]

/-- A claimed run is refused, or it takes two tiles off the hand. -/
lemma doChi_cases (h : r.WellFormed) (t : Oper) (pos : Seat) :
    (t ∉ r.getCanChiType b ∧ r.doChi b t pos = (false, r)) ∨
    (t ∈ r.getCanChiType b ∧ r.hasNewCard = false ∧ t ≠ .peng ∧
      ∃ c₁ c₂ l, r.cardList.Perm ([c₁, c₂] ++ l) ∧ l.Sublist r.cardList ∧
        r.doChi b t pos = (true, (({ r with cardList := l } : PlayerRecord).exposePile
          ⟨[b, c₁, c₂], t, pos⟩).pushLastCardToNewCard)) := by
  by_cases ht : t ∈ r.getCanChiType b
  · have hoffer := ht
    unfold getCanChiType at hoffer
    split_ifs at hoffer with hn hv
    · simp at hoffer
    · simp at hoffer
    · simp at hoffer
    rw [Bool.not_eq_true] at hn
    simp only [Bool.not_eq_true', Bool.not_eq_false] at hv
    have hzero : (0 : ℕ) ∉ r.cardList := fun hmem => absurd (h.valid 0 hmem) (by decide)
    have hmem : ∀ i, 0 < (if i ≤ Zi7 then r.cardList.count i else 0) → i ∈ r.cardList := by
      intro i hi
      split_ifs at hi
      · exact List.count_pos_iff.mp hi
      · exact absurd hi (lt_irrefl 0)
    obtain ⟨c₁, c₂, hcards, h₁, h₂, hne⟩ := MJPlayer.chiTypes_cards hmem hzero hoffer
    have hmem₂ : c₂ ∈ r.cardList.erase c₁ := (List.mem_erase_of_ne hne.symm).mpr h₂
    have hpeng : t ≠ .peng := by
      rintro rfl
      exact absurd hcards (by simp [MJPlayer.chiCardList])
    refine Or.inr ⟨ht, hn, hpeng, c₁, c₂, (r.cardList.erase c₁).erase c₂,
      (List.perm_cons_erase h₁).trans ((List.perm_cons_erase hmem₂).cons c₁),
      List.erase_sublist.trans List.erase_sublist, ?_⟩
    simp only [doChi, ht, not_true_eq_false, if_false, hcards, delHandCard_snd,
      MJPlayer.setPile_new_chi pos hv (h.valid c₁ h₁) (h.valid c₂ h₂) hcards]
  · exact Or.inl ⟨ht, by simp [doChi, ht]⟩

/-- A discard is refused, or it takes one of the tiles held. -/
lemma doPlayCard_cases (r : PlayerRecord) (b : ℕ) :
    r.doPlayCard b = (false, r) ∨
    ∃ l : List ℕ, r.held = b ::ₘ ↑l ∧ (r.cardList.Pairwise (· ≤ ·) → l.Pairwise (· ≤ ·)) ∧
      r.doPlayCard b = (true,
        ({ r with newCard := some kCardNull, cardList := l } : PlayerRecord).recordPlay b) := by
  cases hn : r.hasNewCard with
  | false => exact Or.inl (by simp [doPlayCard, hn])
  | true =>
    by_cases hnew : r.newCard = some b
    · -- the new tile is played, and the hand stays
      refine Or.inr ⟨r.cardList, ?_, id, ?_⟩
      · rw [held_of_hasNewCard hn, hnew, Multiset.cons_coe]
        exact Multiset.coe_eq_coe.mpr (List.perm_append_singleton _ _)
      · simp only [doPlayCard, hn, Bool.not_true, Bool.false_eq_true, if_false, delNewCard, hnew,
          if_true]
    by_cases hb : b ∈ r.cardList
    · -- a tile of the hand is played, and the new one takes its place
      set q : PlayerRecord := { r with cardList := r.cardList.erase b } with hq
      have hqn : q.hasNewCard = true := hn
      obtain ⟨l, hl, hsorted, hpush⟩ := pushNewCardToHand_spec hqn
      have hcons : (r.cardList : Multiset ℕ) = b ::ₘ ↑(r.cardList.erase b) :=
        Multiset.coe_eq_coe.mpr (List.perm_cons_erase hb)
      refine Or.inr ⟨l, ?_, fun _ => hsorted, ?_⟩
      · simp only [hl, held, hq, hcons, Multiset.add_cons]
      · simp only [doPlayCard, hn, Bool.not_true, Bool.false_eq_true, if_false, delNewCard, hnew,
          delHandCard_fst, decide_eq_true hb, if_true, delHandCard_snd]
        rw [← hq, hpush]
    · exact Or.inl (by simp [doPlayCard, hn, delNewCard, hnew, delHandCard_fst, hb])

/-- The pile that grows to a kong gets the tile, and no other pile changes. -/
lemma pileTiles_addToPile {l l' : List MJPile} {v : MJPile}
    (hpeng : ∀ w ∈ l, w.operType = .peng → ∃ c, w.cardList = [c, c, c])
    (hadd : MJPlayer.addToPile b l = some (v, l')) :
    MJPlayer.pileTiles l' = b ::ₘ MJPlayer.pileTiles l ∧
      ∀ w ∈ l', w.operType = .peng → ∃ c, w.cardList = [c, c, c] := by
  induction l generalizing l' with
  | nil => simp [MJPlayer.addToPile] at hadd
  | cons w l ih =>
    have hrest : ∀ u ∈ l, u.operType = .peng → ∃ c, u.cardList = [c, c, c] :=
      fun u hu => hpeng u (List.mem_cons_of_mem w hu)
    unfold MJPlayer.addToPile at hadd
    split_ifs at hadd with hw
    · simp only [Option.some.injEq, Prod.mk.injEq] at hadd
      obtain ⟨rfl, rfl⟩ := hadd
      simp only [MJPlayer.isPengOf, Bool.and_eq_true, beq_iff_eq] at hw
      obtain ⟨c, hc⟩ := hpeng w (by simp) hw.2
      have hcb : c = b := by
        by_contra hne
        simp [MJPile.getCardCount, hc, hne] at hw
      rw [hcb] at hc
      have hset : w.setPile 4 [b, b, b, b] w.fromPos .mxg = ⟨[b, b, b, b], .mxg, w.fromPos⟩ := by
        simp [MJPile.setPile, hc, hw.2]
      rw [hset]
      refine ⟨?_, fun u hu hop => ?_⟩
      · rw [MJPlayer.pileTiles_cons, MJPlayer.pileTiles_cons, hc, ← Multiset.cons_coe,
          Multiset.cons_add]
      · rcases List.mem_cons.mp hu with rfl | hu
        · exact absurd hop (by simp)
        · exact hrest u hu hop
    · obtain ⟨⟨v', l₁⟩, hl₁, heq⟩ := Option.map_eq_some_iff.mp hadd
      simp only [Prod.mk.injEq] at heq
      obtain ⟨rfl, rfl⟩ := heq
      obtain ⟨htiles, hpeng'⟩ := ih hrest hl₁
      refine ⟨?_, fun u hu hop => ?_⟩
      · rw [MJPlayer.pileTiles_cons, MJPlayer.pileTiles_cons, htiles, Multiset.add_cons]
      · rcases List.mem_cons.mp hu with rfl | hu
        · exact hpeng u (by simp) hop
        · exact hpeng' u hu hop

end Operations

/-! ### Well-formed records -/

section WellFormed

variable {r q : PlayerRecord} {b : ℕ}

/-- A tile held by a well-formed record is one. -/
lemma WellFormed.of_mem_held (h : r.WellFormed) {c : ℕ} (hc : c ∈ r.held) :
    MJCard.isValid c = true := by
  rcases Multiset.mem_add.mp hc with hnew | hhand
  · cases hn : r.newCard with
    | none => simp [hn] at hnew
    | some n =>
      rw [hn, Option.getD_some, MJPlayer.newTiles] at hnew
      split_ifs at hnew with h0
      · simp at hnew
      · rw [Multiset.mem_singleton.mp hnew]
        exact (h.new n hn).resolve_left h0
  · exact h.valid c hhand

/-- Without a new tile a player holds the hand. -/
lemma mem_cardList_of_held (hnew : q.newCard = some kCardNull) {c : ℕ} (hc : c ∈ q.held) :
    c ∈ q.cardList := by
  rwa [held, hnew, Option.getD_some, MJPlayer.newTiles_kCardNull, zero_add, Multiset.mem_coe] at hc

/-- A record that holds no other tiles is well formed, if its piles are. -/
lemma WellFormed.of_held (h : r.WellFormed) (hheld : ∀ c ∈ q.held, c ∈ r.held)
    (hpeng : ∀ v ∈ q.pileList, v.operType = .peng → ∃ c, v.cardList = [c, c, c]) :
    q.WellFormed := by
  refine ⟨fun c hc => h.of_mem_held (hheld c (Multiset.mem_add.mpr (Or.inr hc))),
    fun n hn => or_iff_not_imp_left.mpr fun h0 => h.of_mem_held (hheld n ?_), hpeng⟩
  rw [held, hn, Option.getD_some, MJPlayer.newTiles_of_ne h0]
  exact Multiset.mem_add.mpr (Or.inl (Multiset.mem_singleton_self n))

/-- A new pile that is no peng, or one of three equal tiles. -/
lemma WellFormed.append_pile (h : r.WellFormed) {v : MJPile}
    (hv : v.operType = .peng → ∃ c, v.cardList = [c, c, c]) :
    ∀ w ∈ r.pileList ++ [v], w.operType = .peng → ∃ c, w.cardList = [c, c, c] := by
  intro w hw
  rcases List.mem_append.mp hw with hw | hw
  · exact h.peng w hw
  · rw [List.mem_singleton.mp hw]
    exact hv

/-- A claim with tiles of the hand, where the last tile of the hand becomes the new one. -/
lemma WellFormed.claim (h : r.WellFormed) {ts l : List ℕ} {v : MJPile}
    (hperm : r.cardList.Perm (ts ++ l)) (hv : v.operType = .peng → ∃ c, v.cardList = [c, c, c]) :
    (({ r with cardList := l } : PlayerRecord).exposePile v).pushLastCardToNewCard.WellFormed := by
  have hsub : ∀ c ∈ l, c ∈ r.cardList :=
    fun c hc => hperm.symm.subset (List.mem_append_right ts hc)
  refine h.of_held (fun c hc => ?_) (h.append_pile hv)
  rw [held_pushLastCardToNewCard fun c hc => h.valid c (hsub c hc)] at hc
  exact Multiset.mem_add.mpr (Or.inr (hsub c hc))

end WellFormed

end PlayerRecord

namespace PlayerOp

open PlayerRecord

variable {r : PlayerRecord}

/-- **The operations keep a record well formed.** -/
theorem wellFormed_run (op : PlayerOp) (h : r.WellFormed) : (op.run r).2.WellFormed := by
  cases op with
  | peng b pos =>
    show (r.doPeng b pos).2.WellFormed
    rcases doPeng_cases (b := b) h pos with ⟨-, hrun⟩ | ⟨-, -, l, hperm, -, hrun⟩ <;> rw [hrun]
    · exact h
    · exact h.claim hperm fun _ => ⟨b, rfl⟩
  | gang b pos =>
    show (r.doGang b pos).2.WellFormed
    rcases doGang_cases (b := b) h pos with hrun | ⟨-, l, hperm, -, hrun⟩ <;> rw [hrun]
    · exact h
    · refine h.of_held (fun c hc => ?_) (h.append_pile fun hop => absurd hop (by simp))
      rcases Multiset.mem_add.mp hc with hnew | hhand
      · exact Multiset.mem_add.mpr (Or.inl hnew)
      · exact Multiset.mem_add.mpr (Or.inr (hperm.symm.subset (List.mem_append_right _ hhand)))
  | anGang b pos =>
    show (r.doAnGang b pos).2.WellFormed
    rcases doAnGang_cases (b := b) h pos with hrun | ⟨l, hheld, -, hrun⟩ <;> rw [hrun]
    · exact h
    · refine h.of_held (fun c hc => ?_) (h.append_pile fun hop => absurd hop (by simp))
      rw [hheld]
      exact Multiset.mem_add.mpr (Or.inr (mem_cardList_of_held rfl hc))
  | mxGang b =>
    show (r.doMXGang b).2.WellFormed
    rcases doMXGang_cases r b with hrun | ⟨l, v, piles, hheld, -, hadd, hrun⟩ <;> rw [hrun]
    · exact h
    · refine h.of_held (fun c hc => ?_) (pileTiles_addToPile h.peng hadd).2
      rw [hheld]
      exact Multiset.mem_cons_of_mem (mem_cardList_of_held rfl hc)
  | chi b t pos =>
    show (r.doChi b t pos).2.WellFormed
    rcases doChi_cases (b := b) h t pos with ⟨-, hrun⟩ | ⟨-, -, ht, c₁, c₂, l, hperm, -, hrun⟩ <;>
      rw [hrun]
    · exact h
    · exact h.claim hperm fun hop => absurd hop ht
  | play b =>
    show (r.doPlayCard b).2.WellFormed
    rcases doPlayCard_cases r b with hrun | ⟨l, hheld, -, hrun⟩ <;> rw [hrun]
    · exact h
    · refine h.of_held (fun c hc => ?_) h.peng
      rw [hheld]
      exact Multiset.mem_cons_of_mem (mem_cardList_of_held rfl hc)

end PlayerOp

namespace PlayerRecord

/-- The records that the functions of `MJPlayer` build, from the one of `ctor`. -/
inductive Reached : PlayerRecord → Prop
  | new : Reached new
  | addHandCard {r : PlayerRecord} (byteCard : ℕ) : Reached r → Reached (r.addHandCard byteCard)
  | addNewCard {r : PlayerRecord} (byteCard : ℕ) : Reached r → Reached (r.addNewCard byteCard)
  | delHandCard {r : PlayerRecord} (byteCard : ℕ) : Reached r → Reached (r.delHandCard byteCard).2
  | delNewCard {r : PlayerRecord} (byteCard : ℕ) : Reached r → Reached (r.delNewCard byteCard).2
  | run {r : PlayerRecord} (op : PlayerOp) : Reached r → Reached (op.run r).2

/-- **Every record that is reached is well formed.** -/
theorem Reached.wellFormed {r : PlayerRecord} (h : r.Reached) : r.WellFormed := by
  induction h with
  | new =>
    refine ⟨fun c hc => absurd hc (by simp [PlayerRecord.new]), fun n hn => Or.inl ?_,
      fun v hv => absurd hv (by simp [PlayerRecord.new])⟩
    exact (Option.some.inj hn).symm
  | @addHandCard r b _ ih =>
    unfold PlayerRecord.addHandCard
    split_ifs with hv
    · refine ⟨fun c hc => ?_, ih.new, ih.peng⟩
      rcases List.mem_append.mp ((List.mem_insertionSort _).mp hc) with hc | hc
      · exact ih.valid c hc
      · rw [List.mem_singleton.mp hc]
        exact hv
    · exact ih
  | @addNewCard r b _ ih =>
    unfold PlayerRecord.addNewCard
    split_ifs with hv
    · refine ⟨ih.valid, fun n hn => Or.inr ?_, ih.peng⟩
      rw [← Option.some.inj hn]
      exact hv
    · exact ih
  | @delHandCard r b _ ih =>
    rw [delHandCard_snd]
    exact ⟨fun c hc => ih.valid c (List.mem_of_mem_erase hc), ih.new, ih.peng⟩
  | @delNewCard r b _ ih =>
    unfold PlayerRecord.delNewCard
    split_ifs
    · exact ⟨ih.valid, fun n hn => Or.inl (Option.some.inj hn).symm, ih.peng⟩
    · exact ih
  | run op _ ih => exact op.wellFormed_run ih

end PlayerRecord

/-! ### What the operations conserve -/

namespace PlayerOp

open PlayerRecord

variable {r : PlayerRecord} {op : PlayerOp} {b : ℕ}

lemma tiles_exposePile (r : PlayerRecord) (v : MJPile) :
    (r.exposePile v).tiles = r.tiles + ↑v.cardList := by
  simp only [tiles, held, exposePile, MJPlayer.pileTiles_append, MJPlayer.pileTiles_cons,
    MJPlayer.pileTiles_nil, add_zero, add_assoc]

/-- Tiles that leave the hand. -/
lemma tiles_of_perm {ts l : List ℕ} (hperm : r.cardList.Perm (ts ++ l)) :
    r.tiles = ({ r with cardList := l } : PlayerRecord).tiles + ↑ts := by
  simp only [tiles, held, Multiset.coe_eq_coe.mpr hperm, ← Multiset.coe_add]
  abel

/-- An operation that fails conserves the tiles. -/
lemma conserves_of_fails (hrun : op.run r = (false, r)) : op.Conserves r := by
  rw [Conserves, hrun]
  exact Or.inl ⟨rfl, rfl, rfl, rfl, rfl, rfl⟩

/-- A claim with tiles of the hand, where the last tile of the hand becomes the new one: it is as it
should be where the hand keeps a tile, and else the new tile is `nil`. -/
lemma conserves_claim_iff (op : PlayerOp) {ts l : List ℕ} {v : MJPile} (h : r.WellFormed)
    (hn : r.hasNewCard = false) (hperm : r.cardList.Perm (ts ++ l)) (hsub : l.Sublist r.cardList)
    (hpile : v.cardList = b :: ts)
    (hop : ∀ before after, op.Changes before after ↔ after = b ::ₘ before)
    (hrun : op.run r =
      (true, (({ r with cardList := l } : PlayerRecord).exposePile v).pushLastCardToNewCard)) :
    op.Conserves r ↔ l ≠ [] := by
  set p : PlayerRecord := ({ r with cardList := l } : PlayerRecord).exposePile v with hp
  have hpn : p.hasNewCard = false := hn
  have hpv : ∀ c ∈ p.cardList, MJCard.isValid c = true :=
    fun c hc => h.valid c (hperm.symm.subset (List.mem_append_right ts hc))
  have hpush : p.pushLastCardToNewCard.tiles = p.tiles := by
    rw [tiles, tiles, held_pushLastCardToNewCard hpv, held_of_not_hasNewCard hpn]
    rfl
  have htiles : p.pushLastCardToNewCard.tiles = b ::ₘ r.tiles := by
    rw [hpush, hp, tiles_exposePile, tiles_of_perm hperm, hpile, ← Multiset.cons_coe,
      Multiset.add_cons]
  have hnew := hasValidNew_pushLastCardToNewCard hpv
  rw [Conserves, hrun, hop]
  constructor
  · rintro (⟨hfalse, -⟩ | ⟨-, -, hvalid, -⟩)
    · exact absurd hfalse (by simp)
    · exact hnew.mp hvalid
  · intro hl
    exact Or.inr ⟨rfl, htiles, hnew.mpr hl,
      fun hs => sorted_pushLastCardToNewCard (hs.sublist hsub)⟩

/-- What is left of a hand after two tiles have left it. -/
lemma ne_nil_iff_length {l : List ℕ} {c₁ c₂ : ℕ} (hperm : r.cardList.Perm ([c₁, c₂] ++ l)) :
    l ≠ [] ↔ r.cardList.length ≠ 2 := by
  have hlen := hperm.length_eq
  rw [ne_eq, ← List.length_eq_zero_iff]
  simp only [List.length_append, List.length_cons, List.length_nil] at hlen
  omega

/-- **When the operations conserve the tiles**: every operation on every well-formed record fails
and leaves it as it was, or succeeds and changes the tiles as it should, with a tile or `kCardNull`
as the new tile, unless it claims a peng or a run with the only two tiles of the hand.

**Proof sketch.** Each operation is refused or takes its tiles off those held (`doPeng_cases` and
its companions). The tiles that leave the hand or the new tile are those that enter the piles,
besides the claimed one; only `pushLastCardToNewCard`, at the end of a peng and of a run, can leave
no valid new tile, and it does so when the hand is empty (`conserves_claim_iff`). -/
theorem conserves_iff (op : PlayerOp) (r : PlayerRecord) (h : r.WellFormed) :
    op.Conserves r ↔ ¬op.EmptiesHand r := by
  cases op with
  | peng b pos =>
    rcases doPeng_cases (b := b) h pos with ⟨hc, hrun⟩ | ⟨hc, hn, l, hperm, hsub, hrun⟩
    · exact iff_of_true (conserves_of_fails hrun) fun hempty => by simp [hempty.1] at hc
    · rw [conserves_claim_iff (peng b pos) h hn hperm hsub rfl (fun _ _ => Iff.rfl) hrun,
        ne_nil_iff_length hperm]
      exact ⟨fun hlen hempty => hlen hempty.2, fun hne hlen => hne ⟨hc, hlen⟩⟩
  | gang b pos =>
    refine iff_of_true ?_ id
    rcases doGang_cases (b := b) h pos with hrun | ⟨hn, l, hperm, hsub, hrun⟩
    · exact conserves_of_fails hrun
    · rw [Conserves, show (gang b pos).run r = _ from hrun]
      refine Or.inr ⟨rfl, ?_, ⟨kCardNull, newCard_of_not_hasNewCard hn, Or.inl rfl⟩,
        fun hs => hs.sublist hsub⟩
      show _ = b ::ₘ r.tiles
      rw [tiles_exposePile, tiles_of_perm hperm, ← Multiset.cons_coe, Multiset.add_cons]
  | anGang b pos =>
    refine iff_of_true ?_ id
    rcases doAnGang_cases (b := b) h pos with hrun | ⟨l, hheld, hsorted, hrun⟩
    · exact conserves_of_fails hrun
    · rw [Conserves, show (anGang b pos).run r = _ from hrun]
      refine Or.inr ⟨rfl, ?_, ⟨kCardNull, rfl, Or.inl rfl⟩, hsorted⟩
      show _ = r.tiles
      rw [tiles_exposePile, tiles, tiles, hheld]
      simp only [held, Option.getD_some, MJPlayer.newTiles_kCardNull, zero_add]
      abel
  | mxGang b =>
    refine iff_of_true ?_ id
    rcases doMXGang_cases r b with hrun | ⟨l, v, piles, hheld, hsorted, hadd, hrun⟩
    · exact conserves_of_fails hrun
    · rw [Conserves, show (mxGang b).run r = _ from hrun]
      refine Or.inr ⟨rfl, ?_, ⟨kCardNull, rfl, Or.inl rfl⟩, hsorted⟩
      show _ = r.tiles
      rw [tiles, tiles, hheld, (pileTiles_addToPile h.peng hadd).1, Multiset.cons_add,
        ← Multiset.add_cons]
      simp only [held, Option.getD_some, MJPlayer.newTiles_kCardNull, zero_add]
  | chi b t pos =>
    rcases doChi_cases (b := b) h t pos with
      ⟨ht, hrun⟩ | ⟨ht, hn, -, c₁, c₂, l, hperm, hsub, hrun⟩
    · exact iff_of_true (conserves_of_fails hrun) fun hempty => ht hempty.1
    · rw [conserves_claim_iff (chi b t pos) h hn hperm hsub rfl (fun _ _ => Iff.rfl) hrun,
        ne_nil_iff_length hperm]
      exact ⟨fun hlen hempty => hlen hempty.2, fun hne hlen => hne ⟨ht, hlen⟩⟩
  | play b =>
    refine iff_of_true ?_ id
    rcases doPlayCard_cases r b with hrun | ⟨l, hheld, hsorted, hrun⟩
    · exact conserves_of_fails hrun
    · rw [Conserves, show (play b).run r = _ from hrun]
      refine Or.inr ⟨rfl, ?_, ⟨kCardNull, rfl, Or.inl rfl⟩, hsorted⟩
      show r.tiles = b ::ₘ _
      rw [tiles, tiles, hheld, Multiset.cons_add]
      simp only [held, recordPlay, Option.getD_some, MJPlayer.newTiles_kCardNull, zero_add]

/-- The three tiles of a hand: a peng takes two of them and the third becomes the new tile. -/
theorem conserves_three_tiles :
    WellFormed ⟨some kCardNull, [5, 5, 7], [], [], [], .null⟩ ∧
      (peng 5 0).Conserves ⟨some kCardNull, [5, 5, 7], [], [], [], .null⟩ := by
  have hw : WellFormed ⟨some kCardNull, [5, 5, 7], [], [], [], .null⟩ :=
    ⟨by decide, fun n hn => Or.inl (Option.some.inj hn).symm, fun v hv => absurd hv (by simp)⟩
  exact ⟨hw, (conserves_iff (peng 5 0) _ hw).mpr fun hempty => absurd hempty.2 (by decide)⟩

/-- The record of a player who was given the two tiles `5`, `5`. -/
def pairRecord : PlayerRecord := (new.addHandCard 5).addHandCard 5

/-- The player with the tiles `5`, `5` and no others claims a peng: it succeeds, and the new tile
is `nil`. -/
theorem peng_of_pair_not_conserves :
    pairRecord.Reached ∧ ((peng 5 0).run pairRecord).1 = true ∧
      ((peng 5 0).run pairRecord).2.newCard = none ∧ ¬(peng 5 0).Conserves pairRecord := by
  have hrun : ((peng 5 0).run pairRecord).1 = true ∧
      ((peng 5 0).run pairRecord).2.newCard = none := by decide
  refine ⟨(Reached.new.addHandCard 5).addHandCard 5, hrun.1, hrun.2, ?_⟩
  rintro (⟨hfalse, -⟩ | ⟨-, -, ⟨n, hn, -⟩, -⟩)
  · rw [hrun.1] at hfalse
    exact absurd hfalse (by decide)
  · rw [hrun.2] at hn
    exact absurd hn (by simp)

end PlayerOp

end Mahjong
