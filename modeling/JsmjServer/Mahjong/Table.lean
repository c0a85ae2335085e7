import JsmjServer.Mahjong.MJPlayer
import Mathlib.Algebra.BigOperators.Fin
import Mathlib.Algebra.Order.Group.Multiset

set_option relaxedAutoImplicit false
set_option autoImplicit false

/-!
# The table of a round

What the playing states of hongzhong and nanjing mahjong have in common: the fields of
`GamePlaying` (with the wall, the players and the rivers it takes over from `GameProgress`), the
manager of cancelled operations `mj_core/MJCancelMgr.lua`, and the offers made to a seat.

## Main definitions

* `Mahjong.MJCancelMgr` — the operations a seat has cancelled in this turn.
* `Mahjong.CanDoMap` — an entry of `playerCanDoMap`, the offers made to a seat.
* `Mahjong.EndArgs` — what is passed on to the state `GameEnd`.
* `Mahjong.Table` — the state.
* `Mahjong.Table.tiles` — all tiles at the table.
* `Mahjong.Table.offerToOthers` — the offers to the seats other than the one that gave a tile.
* `Mahjong.takeCard`, `Mahjong.dealHandCards` — drawing and dealing.

## Design

The wall is the list of its obtainable tiles in the order in which `getFrontCard` takes them; no
tile is taken from its end. A handler that stops with a runtime error leaves the state as it is at
that moment: `Handled` is the state left behind, by a handler that finished or by one that did not.
-/

namespace Mahjong

/-- `GameProgress:nextPlayerPos` with four players. -/
def nextPlayerPos (pos : Seat) : Seat := pos + 1

/-- `MJWall:getFrontCard` on the list of obtainable tiles. -/
def getFrontCard : List ℕ → Option (ℕ × List ℕ)
  | [] => none
  | b :: wall => some (b, wall)

/-! ### Open offers and recorded choices -/

namespace PlayerGrabMgr

/-- Every recorded choice, with its seat and tile, is of the given kind. -/
def Chosen (g : PlayerGrabMgr) (kind : Seat → Oper → ℕ → Prop) : Prop :=
  ∀ p item, g.doneGrabMgr.getItem p = some item →
    item.operList = [] ∨ ∃ o c, item.operList = [o] ∧ item.byteCard = some c ∧ kind p o c

section Lemmas

variable {g : PlayerGrabMgr} {pos p : Seat} {o : Oper} {kind kind' : Seat → Oper → ℕ → Prop}

lemma hasOper_iff : g.hasOper pos o = true ↔ o ∈ g.canGrabMgr.opers pos := by
  unfold hasOper CanGrabMgr.opers
  cases g.canGrabMgr.getItem pos with
  | none => simp
  | some item => simp [GrabItem.hasOper]

lemma hasOper_eq_false (h : o ∉ g.canGrabMgr.opers pos) : g.hasOper pos o = false := by
  rw [← Bool.not_eq_true]
  exact fun hhas => h (hasOper_iff.mp hhas)

/-- A choice that is not open is rejected. -/
lemma playerDoGrab_of_notMem (h : o ∉ g.canGrabMgr.opers pos) (c : Option ℕ) :
    g.playerDoGrab pos o c = (false, g) := by
  have hhas := hasOper_eq_false h
  unfold hasOper at hhas
  unfold playerDoGrab
  cases hitem : g.canGrabMgr.getItem pos with
  | none => rfl
  | some item =>
    rw [hitem] at hhas
    dsimp only at hhas
    simp [hhas]

/-- A second choice is rejected when the offers of the seat have been reduced. -/
lemma playerDoGrab_of_done (h : o ∈ g.canGrabMgr.opers pos)
    (hdone : g.doneGrabMgr.opers pos ≠ []) (c : Option ℕ) :
    g.playerDoGrab pos o c =
      (false, { g with canGrabMgr := (g.canGrabMgr.delPlayer pos).2 }) := by
  have hhas := hasOper_iff.mpr h
  unfold hasOper at hhas
  unfold playerDoGrab
  cases hitem : g.canGrabMgr.getItem pos with
  | none => simp [hitem] at hhas
  | some item =>
    rw [hitem] at hhas
    dsimp only at hhas
    have hdel : (g.canGrabMgr.delPlayer pos).1 = true := by
      rw [CanGrabMgr.delPlayer, hitem]
      dsimp only
      split_ifs <;> rfl
    simp [hhas, hdel, hdone]

/-- A choice that is not open changes nothing; an open one closes the seat's offers except to play
a tile, and is recorded unless the seat has chosen before. -/
lemma playerDoGrab_cases (g : PlayerGrabMgr) (pos : Seat) (o : Oper) (c : Option ℕ) :
    (o ∉ g.canGrabMgr.opers pos ∧ (g.playerDoGrab pos o c).2 = g) ∨
    (o ∈ g.canGrabMgr.opers pos ∧ (g.playerDoGrab pos o c).2 =
      { g with canGrabMgr := (g.canGrabMgr.delPlayer pos).2 }) ∨
    (o ∈ g.canGrabMgr.opers pos ∧ (g.playerDoGrab pos o c).2 =
      ⟨g.pos, (g.canGrabMgr.delPlayer pos).2, g.doneGrabMgr.setCanOperList pos [o] c⟩) := by
  by_cases hmem : o ∈ g.canGrabMgr.opers pos
  · by_cases hdone : g.doneGrabMgr.opers pos = []
    · rw [playerDoGrab_of_mem hmem hdone]
      exact Or.inr (Or.inr ⟨hmem, rfl⟩)
    · rw [playerDoGrab_of_done hmem hdone]
      exact Or.inr (Or.inl ⟨hmem, rfl⟩)
  · rw [playerDoGrab_of_notMem hmem]
    exact Or.inl ⟨hmem, rfl⟩

@[simp] lemma pos_playerDoGrab (c : Option ℕ) : (g.playerDoGrab pos o c).2.pos = g.pos := by
  rcases playerDoGrab_cases g pos o c with ⟨-, h⟩ | ⟨-, h⟩ | ⟨-, h⟩ <;> rw [h]

/-- A choice opens no offers. -/
lemma opers_playerDoGrab_subset (c : Option ℕ) :
    (g.playerDoGrab pos o c).2.canGrabMgr.opers p ⊆ g.canGrabMgr.opers p := by
  have hdel : (g.canGrabMgr.delPlayer pos).2.opers p ⊆ g.canGrabMgr.opers p := by
    rw [CanGrabMgr.opers_delPlayer]
    split_ifs with hp hplay
    · subst hp
      simpa using hplay
    · simp
    · exact fun _ h => h
  rcases playerDoGrab_cases g pos o c with ⟨-, h⟩ | ⟨-, h⟩ | ⟨-, h⟩ <;> rw [h]
  · exact fun _ h => h
  · exact hdel
  · exact hdel

lemma Chosen.mono (h : g.Chosen kind) (hk : ∀ p o c, kind p o c → kind' p o c) :
    g.Chosen kind' := by
  intro p item hitem
  rcases h p item hitem with hnil | ⟨o, c, ho, hc, hkind⟩
  · exact Or.inl hnil
  · exact Or.inr ⟨o, c, ho, hc, hk p o c hkind⟩

lemma Chosen.of_done {g' : PlayerGrabMgr} (h : g.Chosen kind)
    (hd : g'.doneGrabMgr = g.doneGrabMgr) : g'.Chosen kind := by
  intro p item hitem
  rw [hd] at hitem
  exact h p item hitem

/-- After clearing, nothing is recorded. -/
lemma chosen_clear : g.clear.Chosen kind := by
  intro p item hitem
  left
  simp only [clear, CanGrabMgr.clear, CanGrabMgr.getItem, Option.map_eq_some_iff] at hitem
  obtain ⟨item', -, rfl⟩ := hitem
  rfl

lemma Chosen.playerDoGrab {c : ℕ} (h : g.Chosen kind)
    (hk : o ∈ g.canGrabMgr.opers pos → kind pos o c) :
    (g.playerDoGrab pos o (some c)).2.Chosen kind := by
  rcases playerDoGrab_cases g pos o (some c) with ⟨-, heq⟩ | ⟨-, heq⟩ | ⟨hmem, heq⟩ <;> rw [heq]
  · exact h
  · exact h
  · intro p item hitem
    by_cases hp : p = pos
    · subst hp
      dsimp only at hitem
      rw [CanGrabMgr.getItem_setCanOperList] at hitem
      obtain rfl := Option.some.inj hitem
      exact Or.inr ⟨o, c, rfl, rfl, hk hmem⟩
    · dsimp only at hitem
      rw [CanGrabMgr.getItem_setCanOperList_of_ne hp] at hitem
      exact h p item hitem

/-- The prevailing choice is recorded for its seat. -/
lemma getItem_of_getPowestNode {node : GrabItem} (h : g.getPowestNode = some node) :
    g.doneGrabMgr.getItem node.pos = some node := by
  unfold PlayerGrabMgr.getPowestNode at h
  split at h
  · exact absurd h (by simp)
  · obtain ⟨p, -, hp⟩ := List.exists_of_findSome?_eq_some h
    rw [Option.filter_eq_some_iff] at hp
    rw [g.doneGrabMgr.pos_eq hp.1]
    exact hp.1

/-- The prevailing choice is one of those recorded. -/
lemma Chosen.getPowestNode {node : GrabItem} (h : g.Chosen kind)
    (hnode : g.getPowestNode = some node) :
    g.doneGrabMgr.getItem node.pos = some node ∧
      ∃ o c, node.operList = [o] ∧ node.byteCard = some c ∧ kind node.pos o c := by
  unfold PlayerGrabMgr.getPowestNode at hnode
  split at hnode
  · exact absurd hnode (by simp)
  · rename_i oper _
    obtain ⟨p, -, hp⟩ := List.exists_of_findSome?_eq_some hnode
    rw [Option.filter_eq_some_iff] at hp
    obtain ⟨hitem, hhas⟩ := hp
    have hpos : node.pos = p := g.doneGrabMgr.pos_eq hitem
    rw [hpos]
    refine ⟨hitem, ?_⟩
    rcases h p node hitem with hnil | hsome
    · simp [GrabItem.hasOper, hnil] at hhas
    · exact hsome

/-- When the decision need not wait, the choice carried out is a win or stronger than every open
operation. -/
lemma prevails_of_needWait {node : GrabItem} (hv : g.Valid) (hwait : g.needWait = some false)
    (hnode : g.getPowestNode = some node) (ho : node.operList = [o]) : g.Prevails o := by
  unfold PlayerGrabMgr.getPowestNode at hnode
  split at hnode
  · exact absurd hnode (by simp)
  rename_i oper hoper
  obtain ⟨p, -, hp⟩ := List.exists_of_findSome?_eq_some hnode
  rw [Option.filter_eq_some_iff] at hp
  obtain ⟨hitem, hhas⟩ := hp
  have hopers : g.doneGrabMgr.opers p = [o] := by
    unfold CanGrabMgr.opers
    rw [hitem]
    exact ho
  obtain ⟨oper', hoper', ⟨q, hq⟩, hmin⟩ :=
    CanGrabMgr.getPowestOper_spec hv.done ⟨p, by simp [hopers]⟩
  obtain rfl : oper = oper' := Option.some.inj (hoper.symm.trans hoper')
  obtain rfl : oper = o := by simpa [GrabItem.hasOper, ho] using hhas
  obtain ⟨b, hb, hiff⟩ := needWait_spec hv
  obtain rfl : b = false := Option.some.inj (hb.symm.trans hwait)
  rcases hiff.mp rfl with hall | ⟨r, o', ho', hprev⟩
  · have := (hall p).2
    simp [hopers] at this
  · -- the strongest choice prevails when some choice does
    have hmem : o' ∈ g.doneGrabMgr.opers r := List.mem_of_head? ho'
    have hle := hmin r o' hmem
    rcases hprev with rfl | hlt
    · left
      have hzero : level oper = level .hu := le_antisymm hle (Nat.zero_le _)
      exact level_injOn (hv.done.drawn q oper hq) (by decide) hzero
    · exact Or.inr fun p o'' ho'' => lt_of_le_of_lt hle (hlt p o'' ho'')

/-- When a choice is recorded, one of those recorded prevails. -/
lemma exists_getPowestNode (hv : g.Valid) (h : g.doneGrabMgr.opers p ≠ []) :
    ∃ node, g.getPowestNode = some node := by
  obtain ⟨oper, hoper, ⟨q, hq⟩, -⟩ := CanGrabMgr.getPowestOper_spec hv.done ⟨p, h⟩
  rw [PlayerGrabMgr.getPowestNode, hoper]
  dsimp only
  rw [← Option.isSome_iff_exists, List.findSome?_isSome_iff]
  refine ⟨q, by simp [seats], ?_⟩
  unfold CanGrabMgr.opers at hq
  cases hitem : g.doneGrabMgr.getItem q with
  | none => simp [hitem] at hq
  | some item =>
    rw [hitem] at hq
    simpa [GrabItem.hasOper] using hq

/-- An open choice is recorded, unless one was before. -/
lemma opers_playerDoGrab_ne_nil {c : Option ℕ} (h : o ∈ g.canGrabMgr.opers pos) :
    (g.playerDoGrab pos o c).2.doneGrabMgr.opers pos ≠ [] := by
  by_cases hdone : g.doneGrabMgr.opers pos = []
  · rw [playerDoGrab_of_mem h hdone]
    simp [sortOpers]
  · rcases playerDoGrab_cases g pos o c with ⟨-, heq⟩ | ⟨-, heq⟩ | ⟨-, heq⟩ <;> rw [heq]
    · exact hdone
    · exact hdone
    · simp [sortOpers]

lemma valid_clear : g.clear.Valid := by
  refine ⟨⟨?_, ?_⟩, ⟨?_, ?_⟩⟩ <;> intro p <;> simp [clear]

lemma Valid.setPos (h : g.Valid) : (g.setPos pos).Valid := ⟨h.can, h.done⟩

lemma Valid.addCanDoItem (h : g.Valid) {l : List Oper} (hl : ∀ o ∈ l, o ∈ operLevel) :
    (g.addCanDoItem pos l).Valid := by
  have hsort := CanGrabMgr.sortOpers_valid hl
  refine ⟨⟨fun p o ho => ?_, fun p => ?_⟩, h.done⟩
  · simp only [PlayerGrabMgr.addCanDoItem, CanGrabMgr.opers_addItem] at ho
    split_ifs at ho
    · exact hsort.1 o ho
    · exact h.can.drawn p o ho
  · simp only [PlayerGrabMgr.addCanDoItem, CanGrabMgr.opers_addItem]
    split_ifs
    · exact hsort.2
    · exact h.can.sorted p

lemma Valid.playerDoGrab (h : g.Valid) (c : Option ℕ) : (g.playerDoGrab pos o c).2.Valid := by
  have hcan : (g.canGrabMgr.delPlayer pos).2.Valid := by
    refine ⟨fun p o ho => ?_, fun p => ?_⟩
    · rw [CanGrabMgr.opers_delPlayer] at ho
      split_ifs at ho with hp hplay
      · rw [List.mem_singleton.mp ho]
        decide
      · simp at ho
      · exact h.can.drawn p o ho
    · rw [CanGrabMgr.opers_delPlayer]
      split_ifs
      · exact List.pairwise_singleton _ _
      · exact List.Pairwise.nil
      · exact h.can.sorted p
  rcases playerDoGrab_cases g pos o c with ⟨-, heq⟩ | ⟨-, heq⟩ | ⟨hmem, heq⟩ <;> rw [heq]
  · exact h
  · exact ⟨hcan, h.done⟩
  · have ho := h.can.drawn pos o hmem
    refine ⟨hcan, ⟨fun p o' ho' => ?_, fun p => ?_⟩⟩
    · rw [CanGrabMgr.opers_setCanOperList] at ho'
      split_ifs at ho'
      · obtain rfl : o' = o := by simpa [sortOpers] using ho'
        exact ho
      · exact h.done.drawn p o' ho'
    · rw [CanGrabMgr.opers_setCanOperList]
      split_ifs
      · exact List.pairwise_singleton _ _
      · exact h.done.sorted p

end Lemmas

end PlayerGrabMgr

/-! ### Cancelled operations -/

/-- `CancelItem`: the tiles for which a seat has cancelled an operation. -/
structure CancelItem where
  oper : Oper
  cardList : List ℕ

/-- `MJCancelMgr`: for each seat the list of its items. -/
structure MJCancelMgr where
  cancelMap : Seat → Option (List CancelItem)

namespace MJCancelMgr

/-- `MJCancelMgr:ctor`. -/
def new : MJCancelMgr := ⟨fun _ => none⟩

/-- `CancelItem:clear` on every item of a seat. -/
def clearItems (items : List CancelItem) : List CancelItem :=
  items.map fun item => { item with cardList := [] }

/-- `MJCancelMgr:getCancelItem`. -/
def getCancelItem (m : MJCancelMgr) (pos : Seat) (oper : Oper) : Option CancelItem :=
  (m.cancelMap pos).bind fun items => items.find? fun item => item.oper = oper

/-- Add a tile to the first item of an operation, or a new item at the end. -/
def addCard (oper : Oper) (card : ℕ) : List CancelItem → List CancelItem
  | [] => [⟨oper, [card]⟩]
  | item :: items =>
    if item.oper = oper then { item with cardList := item.cardList ++ [card] } :: items
    else item :: addCard oper card items

/-- `MJCancelMgr:addCancelOper`. -/
def addCancelOper (m : MJCancelMgr) (pos : Seat) (oper : Oper) (card : ℕ) : MJCancelMgr :=
  ⟨Function.update m.cancelMap pos (some (addCard oper card ((m.cancelMap pos).getD [])))⟩

/-- `MJCancelMgr:isCancelOper` for a given tile. -/
def isCancelOper (m : MJCancelMgr) (pos : Seat) (oper : Oper) (card : ℕ) : Bool :=
  match m.getCancelItem pos oper with
  | some item => item.cardList.contains card
  | none => false

/-- `MJCancelMgr:clear` without arguments. -/
def clear (m : MJCancelMgr) : MJCancelMgr :=
  ⟨fun pos => (m.cancelMap pos).map clearItems⟩

/-- `MJCancelMgr:clear` for a seat. -/
def clearSeat (m : MJCancelMgr) (pos : Seat) : MJCancelMgr :=
  ⟨Function.update m.cancelMap pos ((m.cancelMap pos).map clearItems)⟩

/-- `MJCancelMgr:clearPos`. -/
def clearPos (m : MJCancelMgr) (pos : Seat) : MJCancelMgr :=
  ⟨Function.update m.cancelMap pos none⟩

end MJCancelMgr

/-! ### Offers -/

/-- An entry of `playerCanDoMap`: the tiles each offered operation may be done with, and the list
of the offered operations. -/
structure CanDoMap where
  cards : Oper → Option (List ℕ)
  operList : Option (List Oper)

/-- Whoever is offered an operation is also offered to cancel. -/
def withCancel (offers : List (Oper × List ℕ)) : List (Oper × List ℕ) :=
  offers ++ if offers.isEmpty then [] else [(.cancel, [])]

lemma mem_withCancel {offers : List (Oper × List ℕ)} {x : Oper × List ℕ}
    (h : x ∈ withCancel offers) : x ∈ offers ∨ x = (.cancel, []) := by
  rw [withCancel, List.mem_append] at h
  rcases h with h | h
  · exact Or.inl h
  · split_ifs at h
    · simp at h
    · exact Or.inr (List.mem_singleton.mp h)

lemma one_lt_length_withCancel {offers : List (Oper × List ℕ)} :
    1 < ((withCancel offers).map Prod.fst).length ↔ offers ≠ [] := by
  unfold withCancel
  cases offers with
  | nil => simp
  | cons x l => simp

namespace CanDoMap

/-- The empty table. -/
def empty : CanDoMap := ⟨fun _ => none, none⟩

/-- The operations offered with their tiles, in the order of the source. -/
def ofOffers (offers : List (Oper × List ℕ)) : CanDoMap where
  cards := fun oper => (offers.find? fun offer => offer.1 = oper).map Prod.snd
  operList := some (offers.map Prod.fst)

lemma cards_ofOffers_isSome {offers : List (Oper × List ℕ)} {oper : Oper}
    (h : oper ∈ offers.map Prod.fst) : ∃ l, (ofOffers offers).cards oper = some l := by
  obtain ⟨offer, hmem, rfl⟩ := List.mem_map.mp h
  have hsome : (offers.find? fun o => o.1 = offer.1).isSome := by
    rw [List.find?_isSome]
    exact ⟨offer, hmem, by simp⟩
  obtain ⟨o, ho⟩ := Option.isSome_iff_exists.mp hsome
  exact ⟨o.2, by simp [ofOffers, ho]⟩

lemma mem_of_cards_ofOffers {offers : List (Oper × List ℕ)} {oper : Oper} {l : List ℕ}
    (h : (ofOffers offers).cards oper = some l) : (oper, l) ∈ offers := by
  obtain ⟨offer, ho, rfl⟩ := Option.map_eq_some_iff.mp h
  have hmem := List.mem_of_find?_eq_some ho
  have heq : offer.1 = oper := by simpa using List.find?_some ho
  rwa [← heq]

end CanDoMap

/-! ### The state -/

/-- The arguments of `GameEnd:onEntry`. The seat for which `doHu` was called, which the source does
not pass on, and the tiles drawn for the bonus are kept beside them. -/
structure EndArgs where
  isLiuJu : Bool
  isZiMo : Bool
  fangPaoPos : Option Seat
  winnerPosList : List Seat
  huCard : Option ℕ
  isQiangGang : Bool
  huPos : Option Seat
  zhaMaCards : List ℕ

/-- The arguments `{isLiuJu = true}` of a drawn round. -/
def EndArgs.liuJu : EndArgs := ⟨true, false, none, [], none, false, none, []⟩

/-- The state `GamePlaying`. The seats in `timers` wait for the exchange of a flower, by a callback
of `setTimeOut`; `endArgs` holds the arguments of `GameEnd` once the round has ended. -/
structure Table where
  mjWall : List ℕ
  playerList : Seat → MJPlayer
  riverCardList : Seat → List ℕ
  playerGrabMgr : PlayerGrabMgr
  mjCancelMgr : MJCancelMgr
  playerCanDoMap : Seat → Option CanDoMap
  testPlayerNeedCard : Seat → Option ℕ
  isQiangGanging : Bool
  qiangGangInfo : Option Seat
  multiHuPos : List Seat
  timers : List Seat
  endArgs : Option EndArgs

/-- The state a handler leaves, having finished (`ok`) or stopped with a runtime error. -/
abbrev Handled := Except Table Table

/-- The state left behind. -/
def Handled.state : Handled → Table
  | .ok s => s
  | .error s => s

/-- Every byte that denotes a tile denotes a valid one. -/
lemma isValid_fromOld2NowCardByteMap {b : ℤ} {c : ℕ} (h : fromOld2NowCardByteMap b = some c) :
    MJCard.isValid c = true := by
  have hvalid : ∀ c < 63, c % 10 ≠ 0 ∧ (c ≤ 30 ∨ c % 10 ≤ 7 ∨ 40 < c ∧ c % 10 = 8) ∧
      (c ≤ 50 ∨ c % 10 ≤ 4) ∧ (c ≤ 60 ∨ c % 10 ≤ 2) → MJCard.isValid c = true := by decide
  unfold fromOld2NowCardByteMap at h
  split_ifs at h <;> obtain rfl := Option.some.inj h <;> apply hvalid <;> omega

/-- Every tile can be named in a message. -/
lemma exists_fromOld2NowCardByteMap {c : ℕ} (h : MJCard.isValid c = true) :
    ∃ b, fromOld2NowCardByteMap b = some c := by
  have hall : ∀ c < 70, MJCard.isValid c = true →
      ∃ k ∈ [64, 118, 76, 139, 171, 200, 198, 192],
        fromOld2NowCardByteMap (Int.ofNat (c + k)) = some c := by decide +kernel
  have hlt : c < 70 := by
    by_contra hge
    have hsuit : 7 ≤ c / 10 := by omega
    unfold MJCard.isValid at h
    dsimp only at h
    split_ifs at h <;> omega
  obtain ⟨k, -, hk⟩ := hall c hlt h
  exact ⟨_, hk⟩

/-- A message of a client: the codes of its operation and of its tile. -/
structure ClientMsg where
  operation : ℤ
  card_bytes : ℤ

namespace Table

/-- Replace a player. -/
def setPlayer (s : Table) (pos : Seat) (player : MJPlayer) : Table :=
  { s with playerList := Function.update s.playerList pos player }

/-- Replace a river. -/
def setRiver (s : Table) (pos : Seat) (river : List ℕ) : Table :=
  { s with riverCardList := Function.update s.riverCardList pos river }

/-- Replace an entry of `playerCanDoMap`. -/
def setCanDoMap (s : Table) (pos : Seat) (map : CanDoMap) : Table :=
  { s with playerCanDoMap := Function.update s.playerCanDoMap pos (some map) }

/-- `GamePlaying:gotoNextState`. -/
def gotoNextState (s : Table) (args : EndArgs) : Table := { s with endArgs := some args }

/-- `player:hasNewCard()` and the tile is freshly drawn: the test for a win by self-draw. -/
def bZiMo (s : Table) (pos : Seat) : Bool :=
  (s.playerList pos).hasNewCard && (s.playerList pos).justDoOper == .newCard

/-- All tiles at the table: obtainable ones, and those of the players and rivers. -/
def tiles (s : Table) : Multiset ℕ :=
  ↑s.mjWall + ∑ p, (s.playerList p).tiles + ∑ p, (s.riverCardList p : Multiset ℕ)

section Tiles

variable {s : Table} {pos : Seat}

/-- A player whose tiles change from `m + k` to `m' + k`. -/
lemma sum_update {f : Seat → Multiset ℕ} (pos : Seat) (m : Multiset ℕ) :
    ∑ p, Function.update f pos m p + f pos = ∑ p, f p + m := by
  rw [← Finset.add_sum_erase _ _ (Finset.mem_univ pos),
    ← Finset.add_sum_erase _ f (Finset.mem_univ pos), Function.update_self]
  have hrest : ∑ p ∈ Finset.univ.erase pos, Function.update f pos m p =
      ∑ p ∈ Finset.univ.erase pos, f p :=
    Finset.sum_congr rfl fun p hp => Function.update_of_ne (Finset.ne_of_mem_erase hp) _ _
  rw [hrest]
  abel

lemma tiles_setPlayer (s : Table) (pos : Seat) (player : MJPlayer) :
    (s.setPlayer pos player).tiles + (s.playerList pos).tiles = s.tiles + player.tiles := by
  have hfun : (fun p => ((s.setPlayer pos player).playerList p).tiles) =
      Function.update (fun p => (s.playerList p).tiles) pos player.tiles := by
    funext p
    by_cases hp : p = pos
    · subst hp
      simp [setPlayer]
    · simp [setPlayer, hp]
  have hsum := sum_update (f := fun p => (s.playerList p).tiles) pos player.tiles
  have hsame : (s.setPlayer pos player).riverCardList = s.riverCardList := rfl
  simp only [tiles]
  rw [hsame, hfun]
  calc _ = (↑s.mjWall + ∑ p, (s.riverCardList p : Multiset ℕ)) +
        (∑ p, Function.update (fun p => (s.playerList p).tiles) pos player.tiles p +
          (s.playerList pos).tiles) := by
        show ((s.mjWall : Multiset ℕ) + _ + _) + _ = _
        abel
    _ = _ := by
        rw [hsum]
        abel

lemma tiles_setRiver (s : Table) (pos : Seat) (river : List ℕ) :
    (s.setRiver pos river).tiles + ↑(s.riverCardList pos) = s.tiles + ↑river := by
  have hfun : (fun p => ((s.setRiver pos river).riverCardList p : Multiset ℕ)) =
      Function.update (fun p => (s.riverCardList p : Multiset ℕ)) pos ↑river := by
    funext p
    by_cases hp : p = pos
    · subst hp
      simp [setRiver]
    · simp [setRiver, hp]
  have hsum := sum_update (f := fun p => (s.riverCardList p : Multiset ℕ)) pos ↑river
  have hsame : (s.setRiver pos river).playerList = s.playerList := rfl
  simp only [tiles]
  rw [hsame, hfun]
  calc _ = (↑s.mjWall + ∑ p, (s.playerList p).tiles) +
        (∑ p, Function.update (fun p => (s.riverCardList p : Multiset ℕ)) pos ↑river p +
          ↑(s.riverCardList pos)) := by
        show ((s.mjWall : Multiset ℕ) + _ + _) + _ = _
        abel
    _ = _ := by
        rw [hsum]
        abel

/-- A player who takes in a tile adds it to the table. -/
lemma tiles_setPlayer_add {player : MJPlayer} {b : ℕ}
    (h : player.tiles = b ::ₘ (s.playerList pos).tiles) :
    (s.setPlayer pos player).tiles = b ::ₘ s.tiles := by
  have htotal := tiles_setPlayer s pos player
  rw [h, ← Multiset.singleton_add, ← add_assoc, add_comm s.tiles] at htotal
  rw [add_right_cancel htotal, Multiset.singleton_add]

/-- A player who gives away a tile takes it off the table. -/
lemma tiles_setPlayer_sub {player : MJPlayer} {b : ℕ}
    (h : (s.playerList pos).tiles = b ::ₘ player.tiles) :
    b ::ₘ (s.setPlayer pos player).tiles = s.tiles := by
  have htotal := tiles_setPlayer s pos player
  rw [h, ← Multiset.singleton_add, ← add_assoc] at htotal
  rw [← add_right_cancel htotal, add_comm, Multiset.singleton_add]

/-- A player whose tiles stay the same leaves the tiles of the table the same. -/
lemma tiles_setPlayer_same {player : MJPlayer} (h : player.tiles = (s.playerList pos).tiles) :
    (s.setPlayer pos player).tiles = s.tiles := by
  have htotal := tiles_setPlayer s pos player
  rw [h] at htotal
  exact add_right_cancel htotal

/-- A tile at the end of a river. -/
lemma tiles_setRiver_append {l : List ℕ} {b : ℕ} (h : s.riverCardList pos = l) :
    (s.setRiver pos (l ++ [b])).tiles = b ::ₘ s.tiles := by
  have htotal := tiles_setRiver s pos (l ++ [b])
  rw [h, ← Multiset.coe_add, Multiset.coe_singleton, add_comm (l : Multiset ℕ), ← add_assoc]
    at htotal
  rw [add_right_cancel htotal, add_comm, Multiset.singleton_add]

/-- The last tile taken off a river. -/
lemma tiles_setRiver_pop {l : List ℕ} {b : ℕ} (h : s.riverCardList pos = l ++ [b]) :
    b ::ₘ (s.setRiver pos l).tiles = s.tiles := by
  have htotal := tiles_setRiver s pos l
  rw [h, ← Multiset.coe_add, Multiset.coe_singleton, add_comm (l : Multiset ℕ), ← add_assoc]
    at htotal
  rw [← add_right_cancel htotal, add_comm, Multiset.singleton_add]

/-- The players after one of them has been replaced. -/
lemma playerList_setPlayer (s : Table) (p q : Seat) (player : MJPlayer) :
    (s.setPlayer p player).playerList q = if q = p then player else s.playerList q := by
  simp only [setPlayer, Function.update_apply]

/-- A seat takes the last discard of another. -/
lemma tiles_take {player : MJPlayer} {t : Seat} {l : List ℕ} {b : ℕ}
    (hriver : s.riverCardList t = l ++ [b]) (h : player.tiles = b ::ₘ (s.playerList pos).tiles) :
    ((s.setPlayer pos player).setRiver t (MJRiver.popCard (s.riverCardList t))).tiles =
      s.tiles := by
  have hpop : MJRiver.popCard (s.riverCardList t) = l := by
    rw [hriver, MJRiver.popCard, List.dropLast_concat]
  have hsub : b ::ₘ ((s.setPlayer pos player).setRiver t l).tiles = (s.setPlayer pos player).tiles :=
    tiles_setRiver_pop hriver
  rw [tiles_setPlayer_add h] at hsub
  rw [hpop]
  exact (Multiset.cons_inj_right b).mp hsub

/-- A seat puts a tile on its river. -/
lemma tiles_play {player : MJPlayer} {b : ℕ} (hv : MJCard.isValid b = true)
    (h : (s.playerList pos).tiles = b ::ₘ player.tiles) :
    ((s.setPlayer pos player).setRiver pos (MJRiver.pushCard (s.riverCardList pos) b)).tiles =
      s.tiles := by
  have hpush : MJRiver.pushCard (s.riverCardList pos) b = s.riverCardList pos ++ [b] := if_pos hv
  rw [hpush]
  calc _ = b ::ₘ (s.setPlayer pos player).tiles := tiles_setRiver_append rfl
    _ = s.tiles := tiles_setPlayer_sub h

lemma mem_tiles_of_player {t : ℕ} (h : t ∈ (s.playerList pos).tiles) : t ∈ s.tiles := by
  simp only [tiles, Multiset.mem_add, Multiset.mem_sum]
  exact Or.inl (Or.inr ⟨pos, Finset.mem_univ _, h⟩)

lemma mem_tiles_of_wall {t : ℕ} (h : t ∈ s.mjWall) : t ∈ s.tiles := by
  simp [tiles, h]

end Tiles

/-! ### Offers to the other seats -/

/-- The end of the body of the loop of `checkOtherOper`: the claims allowed to a seat are offered to
it, with the possibility to cancel. -/
def offerTo (claims : Seat → List (Oper × List ℕ)) (r : Bool × Table) (pos : Seat) :
    Bool × Table :=
  let offers := withCancel (claims pos)
  let operList := offers.map Prod.fst
  let s := if .hu ∈ operList then { r.2 with multiHuPos := r.2.multiHuPos ++ [pos] } else r.2
  let s := s.setCanDoMap pos (.ofOffers offers)
  if 1 < operList.length then
    (true, { s with playerGrabMgr := s.playerGrabMgr.addCanDoItem pos operList })
  else (r.1, s)

/-- The loop of `checkOtherOper` over the three other seats in their order: whether some seat has a
claim, and the offers. -/
def offerToOthers (s : Table) (turn : Seat) (claims : Seat → List (Oper × List ℕ)) : Bool × Table :=
  [turn + 1, turn + 2, turn + 3].foldl (offerTo claims) (false, s)

/-- The loop when looking at a seat may stop with an error: the offers to the seats before it are
left behind. -/
def offerUntil (s : Table) (turn : Seat) (stops : Seat → Bool)
    (claims : Seat → List (Oper × List ℕ)) : Except Table (Bool × Table) :=
  let r := ([turn + 1, turn + 2, turn + 3].takeWhile fun pos => !stops pos).foldl (offerTo claims)
    (false, s)
  if [turn + 1, turn + 2, turn + 3].any stops then .error r.2 else .ok r

/-- The seat is offered to win. -/
def offersHu (claims : Seat → List (Oper × List ℕ)) (pos : Seat) : Bool :=
  Oper.hu ∈ (withCancel (claims pos)).map Prod.fst

/-- What the loop leaves after the seats `l`. -/
structure Offered (claims : Seat → List (Oper × List ℕ)) (l : List Seat)
    (r r' : Bool × Table) : Prop where
  frame : r'.2 = { r.2 with
    playerGrabMgr := r'.2.playerGrabMgr
    multiHuPos := r.2.multiHuPos ++ l.filter (offersHu claims)
    playerCanDoMap := fun p =>
      if p ∈ l then some (.ofOffers (withCancel (claims p))) else r.2.playerCanDoMap p }
  pos : r'.2.playerGrabMgr.pos = r.2.playerGrabMgr.pos
  done : r'.2.playerGrabMgr.doneGrabMgr = r.2.playerGrabMgr.doneGrabMgr
  valid : (∀ p, ∀ x ∈ claims p, x.1 ∈ operLevel) → r.2.playerGrabMgr.Valid →
    r'.2.playerGrabMgr.Valid
  opers : ∀ p, r'.2.playerGrabMgr.canGrabMgr.opers p =
    if p ∈ l ∧ claims p ≠ [] then sortOpers ((withCancel (claims p)).map Prod.fst)
    else r.2.playerGrabMgr.canGrabMgr.opers p
  grab : r'.1 = (r.1 || l.any fun p => !(claims p).isEmpty)

section Offered

variable {claims : Seat → List (Oper × List ℕ)}

/-- The body of the loop, without its case distinctions. -/
lemma offerTo_eq (r : Bool × Table) (pos : Seat) : offerTo claims r pos =
    (r.1 || !(claims pos).isEmpty,
      { r.2 with
        multiHuPos := r.2.multiHuPos ++ [pos].filter (offersHu claims)
        playerCanDoMap := Function.update r.2.playerCanDoMap pos
          (some (.ofOffers (withCancel (claims pos))))
        playerGrabMgr :=
          if claims pos = [] then r.2.playerGrabMgr
          else r.2.playerGrabMgr.addCanDoItem pos ((withCancel (claims pos)).map Prod.fst) }) := by
  have hfilter : [pos].filter (offersHu claims) =
      if .hu ∈ (withCancel (claims pos)).map Prod.fst then [pos] else [] := by
    simp only [offersHu, List.filter_cons, List.filter_nil, decide_eq_true_eq]
  rw [hfilter]
  simp only [offerTo, one_lt_length_withCancel, setCanDoMap]
  by_cases h : claims pos = []
  · simp [h, withCancel]
  · have hempty : (claims pos).isEmpty = false := by simpa using h
    simp only [h, not_false_eq_true, ne_eq, if_true, hempty, Bool.not_false, Bool.or_true, if_false]
    split_ifs <;> simp

lemma offerTo_offered (r : Bool × Table) (pos : Seat) :
    Offered claims [pos] r (offerTo claims r pos) := by
  rw [offerTo_eq]
  refine ⟨?_, ?_, ?_, ?_, ?_, by simp⟩
  · have hmap : (Function.update r.2.playerCanDoMap pos
        (some (.ofOffers (withCancel (claims pos))))) = fun p => if p ∈ [pos] then
          some (.ofOffers (withCancel (claims p))) else r.2.playerCanDoMap p := by
      funext p
      by_cases h : p = pos
      · subst h
        simp
      · simp [h]
    simp only [hmap]
  · dsimp only
    split_ifs <;> rfl
  · dsimp only
    split_ifs <;> rfl
  · intro hclaims hv
    dsimp only
    split_ifs
    · exact hv
    · refine hv.addCanDoItem fun o ho => ?_
      obtain ⟨x, hx, rfl⟩ := List.mem_map.mp ho
      rcases mem_withCancel hx with hx | rfl
      · exact hclaims pos x hx
      · decide
  · intro p
    dsimp only
    by_cases hp : p = pos
    · subst hp
      by_cases h : claims p = []
      · simp [h]
      · simp [h, PlayerGrabMgr.addCanDoItem]
    · by_cases h : claims pos = []
      · simp [h, hp]
      · simp [h, hp, PlayerGrabMgr.addCanDoItem]

lemma foldl_offerTo_offered (l : List Seat) (r : Bool × Table) :
    Offered claims l r (l.foldl (offerTo claims) r) := by
  induction l generalizing r with
  | nil => exact ⟨by simp, rfl, rfl, fun _ => id, by simp, by simp⟩
  | cons pos l ih =>
    have h1 : Offered claims [pos] r (offerTo claims r pos) := offerTo_offered r pos
    have h2 := ih (offerTo claims r pos)
    rw [List.foldl_cons]
    refine ⟨?_, h2.pos.trans h1.pos, h2.done.trans h1.done,
      fun hclaims hv => h2.valid hclaims (h1.valid hclaims hv), ?_, ?_⟩
    · rw [h2.frame, h1.frame]
      have hmap : (fun p => if p ∈ l then some (CanDoMap.ofOffers (withCancel (claims p)))
          else if p ∈ [pos] then some (.ofOffers (withCancel (claims p)))
          else r.2.playerCanDoMap p) = fun p => if p ∈ pos :: l then
            some (.ofOffers (withCancel (claims p))) else r.2.playerCanDoMap p := by
        funext p
        by_cases h : p ∈ l <;> by_cases h' : p = pos <;> simp [h, h']
      simp only [hmap, List.append_assoc, ← List.filter_append, List.singleton_append]
    · intro p
      rw [h2.opers, h1.opers]
      by_cases hc : claims p = []
      · simp [hc]
      · simp only [List.mem_cons, hc, ne_eq, not_false_eq_true, and_true]
        by_cases h : p ∈ l <;> by_cases h' : p = pos <;> simp [h, h']
    · rw [h2.grab, h1.grab]
      simp [Bool.or_assoc]

lemma mem_otherSeats {turn p : Seat} : p ∈ [turn + 1, turn + 2, turn + 3] ↔ p ≠ turn := by
  revert turn p
  decide

lemma nodup_otherSeats (turn : Seat) : [turn + 1, turn + 2, turn + 3].Nodup := by
  revert turn
  decide

/-- The offers to the three other seats. -/
lemma offerToOthers_offered (claims : Seat → List (Oper × List ℕ)) (s : Table) (turn : Seat) :
    Offered claims [turn + 1, turn + 2, turn + 3] (false, s) (offerToOthers s turn claims) :=
  foldl_offerTo_offered _ _

lemma offerUntil_of_not_stops {s : Table} {turn : Seat} {stops : Seat → Bool}
    (h : ∀ p, stops p = false) :
    offerUntil s turn stops claims = .ok (offerToOthers s turn claims) := by
  simp [offerUntil, offerToOthers, h]

end Offered

end Table

/-! ### What the games do alike -/

/-- The tile for `giveNewCard`: one asked for by the debug operation, else the front of the
wall. -/
def takeCard (s : Table) (turn : Seat) : Option (ℕ × Table) :=
  match s.testPlayerNeedCard turn with
  | some byteCard =>
    some (byteCard, { s with testPlayerNeedCard := Function.update s.testPlayerNeedCard turn none })
  | none => (getFrontCard s.mjWall).map fun r => (r.1, { s with mjWall := r.2 })

/-- The loop of `onGrabCard` over the offers of a seat that cancels. -/
def addCancelOpers (m : MJCancelMgr) (pos : Seat) (canDoMap : CanDoMap) : MJCancelMgr :=
  [Oper.hu, Oper.peng].foldl
    (fun m oper =>
      match (canDoMap.cards oper).bind List.head? with
      | some card => m.addCancelOper pos oper card
      | none => m)
    m

/-- The inner loop of `GameBegin:dealHandCards`. -/
def dealHand : ℕ → MJPlayer → List ℕ → MJPlayer × List ℕ
  | 0, player, wall => (player, wall)
  | n + 1, player, [] => dealHand n player []
  | n + 1, player, byteCard :: wall => dealHand n (player.addHandCard byteCard) wall

/-- `GameBegin:dealHandCards`: thirteen tiles to each seat and one more to the banker. -/
def dealHandCards (wall : List ℕ) (banker : Seat) : (Seat → MJPlayer) × List ℕ :=
  let r := seats.foldl
    (fun r pos =>
      let d := dealHand 13 MJPlayer.new r.2
      (Function.update r.1 pos d.1, d.2))
    ((fun _ => MJPlayer.new : Seat → MJPlayer), wall)
  match r.2 with
  | [] => r
  | byteCard :: wall => (Function.update r.1 banker ((r.1 banker).addNewCard byteCard), wall)

/-- The table before the first round. -/
def newTable : Table where
  mjWall := []
  playerList := fun _ => MJPlayer.new
  riverCardList := fun _ => []
  playerGrabMgr := PlayerGrabMgr.new
  mjCancelMgr := MJCancelMgr.new
  playerCanDoMap := fun _ => none
  testPlayerNeedCard := fun _ => none
  isQiangGanging := false
  qiangGangInfo := none
  multiHuPos := []
  timers := []
  endArgs := none

/-- No seat has asked for a tile before the first round. -/
lemma newTable_noTest (pos : Seat) : newTable.testPlayerNeedCard pos = none := rfl

lemma newTable_asked (pos : Seat) (byteCard : ℕ)
    (h : newTable.testPlayerNeedCard pos = some byteCard) :
    ∃ b, fromOld2NowCardByteMap b = some byteCard :=
  absurd h.symm (Option.some_ne_none _)

end Mahjong
