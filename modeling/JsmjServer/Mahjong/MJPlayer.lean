import JsmjServer.Mahjong.MJMath
import JsmjServer.Mahjong.PlayerGrabMgr
import Mathlib.Data.Multiset.AddSub
import Mathlib.Data.Multiset.Count
import Mathlib.Tactic.Ring
import Mathlib.Tactic.Abel

set_option relaxedAutoImplicit false
set_option autoImplicit false

/-!
# A player's tiles

`mj_core/MJPlayer.lua` with `mj_core/MJPile.lua` and `mj_core/MJRiver.lua`: the hand, the new tile,
the exposed piles and the river of one seat, and the operations that move tiles between them.

## Main definitions

* `Mahjong.MJPile`, `Mahjong.MJPlayer` — an exposed pile; the tiles of one player.
* `Mahjong.MJPlayer.doPeng`, `doGang`, `doAnGang`, `doMXGang`, `doPlayCard` — the operations.
* `Mahjong.MJPlayer.tiles` — all tiles a player holds, as a multiset.

## Main results

* `Mahjong.MJPlayer.doPeng_spec` and its companions — what each operation does when it succeeds,
  with the tiles it takes in and gives away.

## Design

The flower list `huaList` belongs to the players of the single games (`HZMJPlayer`, `NJMJPlayer`);
as both have it, it is a field here. The histories `opHistoryList` and `playedList` are written but
never read by the functions modelled, and are left out. `pushLastCardToNewCard` of an empty hand
leaves `nil` in the source and no tile here; no claim on a tile is offered that would empty a hand.
-/

namespace Mahjong

/-! ### Piles and rivers -/

/-- `MJPile`: an exposed pile, the operation that made it, and the seat its tile came from. -/
structure MJPile where
  cardList : List ℕ
  operType : Oper
  fromPos : Option Seat
  deriving DecidableEq

namespace MJPile

/-- `MJPile:ctor`. -/
def new : MJPile := ⟨[], .null, none⟩

/-- `MJPile:setPile`. A pile that already has three tiles of a peng grows by one for the added
kong and keeps its origin. -/
def setPile (pile : MJPile) (count : ℕ) (cardList : List ℕ) (fromPos : Option Seat)
    (operType : Oper) : MJPile :=
  if count ≠ 3 ∧ count ≠ 4 then pile
  else if operType = .mxg then
    if cardList.head? ≠ pile.cardList.head? then pile
    else if pile.operType ≠ .peng then pile
    else { pile with cardList := pile.cardList ++ cardList.head?.toList, operType := operType }
  else if !cardList.all MJCard.isValid then pile
  else ⟨pile.cardList ++ cardList, operType, fromPos⟩

/-- `MJPile:getCardCount`. -/
def getCardCount (pile : MJPile) (byteCard : ℕ) : ℕ := pile.cardList.count byteCard

/-- A pile as the operations make it: a triplet claimed by peng, or a kong of one of the three
kinds. -/
inductive Formed : MJPile → Prop
  | peng (b : ℕ) (pos : Seat) : Formed ⟨[b, b, b], .peng, pos⟩
  | gang (b : ℕ) (pos : Seat) {o : Oper} (ho : o = .mg ∨ o = .ag ∨ o = .mxg) :
      Formed ⟨[b, b, b, b], o, pos⟩

end MJPile

namespace MJRiver

/-- `MJRiver:pushCard`. -/
def pushCard (river : List ℕ) (byteCard : ℕ) : List ℕ :=
  if MJCard.isValid byteCard then river ++ [byteCard] else river

/-- `MJRiver:popCard`. -/
def popCard (river : List ℕ) : List ℕ := river.dropLast

end MJRiver

/-! ### Seven pairs -/

namespace MJMath

/-- The tiles with an odd count, `MJMath:countSingle`. -/
def countSingle (pai : ℕ → ℕ) : List ℕ := indices.filter fun i => pai i % 2 ≠ 0

/-- `MJMath:canHuQiDui`: seven pairs, wild tiles filling the odd ones. -/
def canHuQiDui (pai : ℕ → ℕ) : Bool :=
  if remain pai + pai 0 ≠ 14 then false
  else
    let list := countSingle pai
    list.length == 0 || (list.length ≤ pai 0 && (pai 0 - list.length) % 2 == 0)

end MJMath

/-! ### The player -/

/-- `MJPlayer`: the tile just taken (`kCardNull` when there is none), the hand, the exposed piles,
the last operation, and the flowers put aside. -/
structure MJPlayer where
  newCard : ℕ
  cardList : List ℕ
  pileList : List MJPile
  justDoOper : Oper
  huaList : List ℕ

namespace MJPlayer

/-- `MJPlayer:ctor` and `MJPlayer:clear`. -/
def new : MJPlayer := ⟨kCardNull, [], [], .null, []⟩

/-- `MJPlayer:hasNewCard`. -/
def hasNewCard (p : MJPlayer) : Bool := p.newCard != kCardNull

/-- `MJPlayer:sortHandCard`. -/
def sortHandCard (p : MJPlayer) : MJPlayer :=
  { p with cardList := p.cardList.insertionSort (· ≤ ·) }

/-- `MJPlayer:addNewCard`. -/
def addNewCard (p : MJPlayer) (byteCard : ℕ) : MJPlayer :=
  if MJCard.isValid byteCard then { p with justDoOper := .newCard, newCard := byteCard } else p

/-- `MJPlayer:delNewCard`. -/
def delNewCard (p : MJPlayer) (byteCard : ℕ) : Bool × MJPlayer :=
  if byteCard = p.newCard then (true, { p with newCard := kCardNull }) else (false, p)

/-- `MJPlayer:addHandCard`. -/
def addHandCard (p : MJPlayer) (byteCard : ℕ) : MJPlayer :=
  if MJCard.isValid byteCard then
    sortHandCard { p with cardList := p.cardList ++ [byteCard] }
  else p

/-- `MJPlayer:delHandCard`. -/
def delHandCard (p : MJPlayer) (byteCard : ℕ) : Bool × MJPlayer :=
  if byteCard ∈ p.cardList then (true, { p with cardList := p.cardList.erase byteCard })
  else (false, p)

/-- `MJPlayer:getCardCountInHand`. -/
def getCardCountInHand (p : MJPlayer) (byteCard : ℕ) (bIncludeNewCard : Bool) : ℕ :=
  p.cardList.count byteCard + if bIncludeNewCard && p.newCard == byteCard then 1 else 0

/-- `MJPlayer:pushLastCardToNewCard`. -/
def pushLastCardToNewCard (p : MJPlayer) : MJPlayer :=
  { p with newCard := p.cardList.getLastD kCardNull, cardList := p.cardList.dropLast }

/-- `MJPlayer:pushNewCardToHand`. -/
def pushNewCardToHand (p : MJPlayer) : MJPlayer :=
  if p.hasNewCard then
    sortHandCard { p with cardList := p.cardList ++ [p.newCard], newCard := kCardNull }
  else p

/-- `MJPlayer:transHandCardsToCountMap`: the counts of the hand, with the wild tiles counted at
index `0`. -/
def transHandCardsToCountMap (p : MJPlayer) (bIncludeNewCard : Bool) (baiDaList : List ℕ) :
    ℕ → ℕ :=
  let map : ℕ → ℕ := fun i =>
    if i ≤ Zi7 then
      p.cardList.count i +
        if bIncludeNewCard && p.newCard != kCardNull && p.newCard == i then 1 else 0
    else 0
  baiDaList.foldl
    (fun map v => fun i =>
      if v ≤ Zi7 then
        (if i = v ∧ v ≠ 0 then 0 else if i = 0 ∧ v ≠ 0 then map 0 + map v else map i)
      else if i = 0 then map 0 + p.getCardCountInHand v true else map i)
    map

/-- `MJPlayer:canPeng`. -/
def canPeng (p : MJPlayer) (byteCard : ℕ) : Bool :=
  !p.hasNewCard && 2 ≤ p.getCardCountInHand byteCard false

/-- `MJPlayer:doPeng`. -/
def doPeng (p : MJPlayer) (byteCard : ℕ) (pos : Seat) : Bool × MJPlayer :=
  if !p.canPeng byteCard then (false, p)
  else
    let p := (p.delHandCard byteCard).2
    let p := (p.delHandCard byteCard).2
    let pile := MJPile.new.setPile 3 [byteCard, byteCard, byteCard] pos .peng
    let p := { p with pileList := p.pileList ++ [pile], justDoOper := pile.operType }
    (true, p.pushLastCardToNewCard)

/-- `MJPlayer:canGang`. -/
def canGang (p : MJPlayer) (byteCard : ℕ) : Bool :=
  !p.hasNewCard && 3 ≤ p.getCardCountInHand byteCard false

/-- `MJPlayer:doGang`. -/
def doGang (p : MJPlayer) (byteCard : ℕ) (pos : Seat) : Bool × MJPlayer :=
  if !p.canGang byteCard then (false, p)
  else
    let p := (p.delHandCard byteCard).2
    let p := (p.delHandCard byteCard).2
    let p := (p.delHandCard byteCard).2
    let pile := MJPile.new.setPile 4 [byteCard, byteCard, byteCard, byteCard] pos .mg
    (true, { p with pileList := p.pileList ++ [pile], justDoOper := pile.operType })

/-- `MJPlayer:canHu`. -/
def canHu (p : MJPlayer) (byteCard : ℕ) (baiDaList : List ℕ) : Bool :=
  !p.hasNewCard &&
    (let countMap := p.transHandCardsToCountMap false baiDaList
     MJMath.canHu fun i => if i = byteCard then countMap i + 1 else countMap i)

/-- `MJPlayer:canHuQiDui`. -/
def canHuQiDui (p : MJPlayer) (byteCard : ℕ) (baiDaList : List ℕ) : Bool :=
  !p.hasNewCard &&
    (let countMap := p.transHandCardsToCountMap false baiDaList
     MJMath.canHuQiDui fun i => if i = byteCard then countMap i + 1 else countMap i)

/-- `MJPlayer:canSelfHu`. -/
def canSelfHu (p : MJPlayer) (baiDaList : List ℕ) : Bool :=
  p.hasNewCard && MJMath.canHu (p.transHandCardsToCountMap true baiDaList)

/-- `MJPlayer:canSelfHuQiDui`. -/
def canSelfHuQiDui (p : MJPlayer) (baiDaList : List ℕ) : Bool :=
  p.hasNewCard && MJMath.canHuQiDui (p.transHandCardsToCountMap true baiDaList)

/-- The loop of `getAnGangCardList` and `getAnGangCardListWithDa`: the tiles of the hand, each
once and none of `baiDaList`, of which the player has four. -/
def anGangLoop (p : MJPlayer) (baiDaList : List ℕ) : List ℕ → List ℕ → List ℕ
  | list, [] => list
  | list, v :: rest =>
    if v ∉ list ∧ v ∉ baiDaList ∧ p.getCardCountInHand v true = 4 then
      anGangLoop p baiDaList (list ++ [v]) rest
    else anGangLoop p baiDaList list rest

/-- `MJPlayer:getAnGangCardListWithDa`; without wild tiles it is `MJPlayer:getAnGangCardList`. -/
def getAnGangCardListWithDa (p : MJPlayer) (baiDaList : List ℕ) : List ℕ :=
  if !p.hasNewCard then [] else p.anGangLoop baiDaList [] p.cardList

/-- `MJPlayer:doAnGang`. -/
def doAnGang (p : MJPlayer) (byteCard : ℕ) (pos : Seat) : Bool × MJPlayer :=
  if !p.hasNewCard then (false, p)
  else if p.getCardCountInHand byteCard true < 4 then (false, p)
  else
    let p := (p.delHandCard byteCard).2
    let p := (p.delHandCard byteCard).2
    let p := (p.delHandCard byteCard).2
    let r := p.delHandCard byteCard
    let p := if !r.1 then (p.delNewCard byteCard).2 else r.2.pushNewCardToHand
    let pile := MJPile.new.setPile 4 [byteCard, byteCard, byteCard, byteCard] pos .ag
    (true, { p with pileList := p.pileList ++ [pile], justDoOper := pile.operType })

/-- A pile that the tile turns into an added kong. -/
def isPengOf (byteCard : ℕ) (pile : MJPile) : Bool :=
  pile.getCardCount byteCard == 3 && pile.operType == .peng

/-- `MJPlayer:getMXGangCardList`. A tile enters the list once for every pile it fits. -/
def getMXGangCardList (p : MJPlayer) : List ℕ :=
  if !p.hasNewCard || p.pileList.isEmpty then []
  else
    let list := (p.pileList.filter (isPengOf p.newCard)).map fun _ => p.newCard
    p.cardList.foldl
      (fun list byteCard =>
        if byteCard ∈ list then list
        else list ++ (p.pileList.filter (isPengOf byteCard)).map fun _ => byteCard)
      list

/-- The loop of `MJPlayer:doMXGang` over the piles: the first pile that fits gets the tile. -/
def addToPile (byteCard : ℕ) : List MJPile → Option (MJPile × List MJPile)
  | [] => none
  | v :: rest =>
    if isPengOf byteCard v then
      let v := v.setPile 4 [byteCard, byteCard, byteCard, byteCard] v.fromPos .mxg
      some (v, v :: rest)
    else (addToPile byteCard rest).map fun r => (r.1, v :: r.2)

/-- `MJPlayer:doMXGang`. -/
def doMXGang (p : MJPlayer) (byteCard : ℕ) : Bool × MJPlayer :=
  if !p.hasNewCard || p.pileList.isEmpty then (false, p)
  else if p.getCardCountInHand byteCard true < 1 then (false, p)
  else
    match addToPile byteCard p.pileList with
    | none => (false, p)
    | some (pile, pileList) =>
      let r := p.delHandCard byteCard
      let p := if !r.1 then (p.delNewCard byteCard).2 else r.2.pushNewCardToHand
      (true, { p with pileList := pileList, justDoOper := pile.operType })

/-- `MJPlayer:doPlayCard`. -/
def doPlayCard (p : MJPlayer) (byteCard : ℕ) : Bool × MJPlayer :=
  if !p.hasNewCard then (false, p)
  else
    let r := p.delNewCard byteCard
    if r.1 then (true, { r.2 with justDoOper := .play })
    else
      let r := p.delHandCard byteCard
      if r.1 then (true, { r.2.pushNewCardToHand with justDoOper := .play })
      else (false, p)

/-- `hasHua` of the game's player: some tile of the hand or the new tile is a flower. -/
def hasHua (p : MJPlayer) (constHuaList : List ℕ) : Bool :=
  p.cardList.any (constHuaList.contains ·) || constHuaList.contains p.newCard

/-- `getHua` of the game's player. -/
def getHua (p : MJPlayer) (constHuaList : List ℕ) : ℕ :=
  match p.cardList.find? (constHuaList.contains ·) with
  | some v => v
  | none => if constHuaList.contains p.newCard then p.newCard else kCardNull

/-- `addHua` of the game's player. -/
def addHua (p : MJPlayer) (byteCard : ℕ) : MJPlayer :=
  { p with huaList := p.huaList ++ [byteCard], justDoOper := .buHua }

/-- `addHuaWithoutHis` of the game's player. -/
def addHuaWithoutHis (p : MJPlayer) (byteCard : ℕ) : MJPlayer :=
  { p with huaList := p.huaList ++ [byteCard] }

/-! ### What the operations do -/

section Spec

variable {p : MJPlayer} {b : ℕ}

lemma delHandCard_snd (p : MJPlayer) (b : ℕ) :
    (p.delHandCard b).2 = { p with cardList := p.cardList.erase b } := by
  unfold delHandCard
  split_ifs with h
  · rfl
  · rw [List.erase_of_not_mem h]

lemma delHandCard_fst (p : MJPlayer) (b : ℕ) : (p.delHandCard b).1 = decide (b ∈ p.cardList) := by
  unfold delHandCard
  split_ifs with h <;> simp [h]

lemma getCardCountInHand_false (p : MJPlayer) (b : ℕ) :
    p.getCardCountInHand b false = p.cardList.count b := by
  simp [getCardCountInHand]

lemma getCardCountInHand_true (p : MJPlayer) (b : ℕ) :
    p.getCardCountInHand b true = (p.newCard :: p.cardList).count b := by
  simp [getCardCountInHand, List.count_cons]

/-- A tile taken out of a hand: what was there is the tile and what is left. -/
lemma perm_erase_of_count {l : List ℕ} (h : 0 < l.count b) : l.Perm (b :: l.erase b) :=
  List.perm_cons_erase (List.count_pos_iff.mp h)

/-- Two copies taken out of a hand. -/
lemma perm_erase_two {l : List ℕ} (h : 2 ≤ l.count b) :
    l.Perm (b :: b :: (l.erase b).erase b) := by
  have h1 := perm_erase_of_count (b := b) (l := l) (by omega)
  have h2 : 0 < (l.erase b).count b := by
    rw [List.count_erase_self]
    omega
  exact h1.trans ((perm_erase_of_count h2).cons b)

/-- Three copies taken out of a hand. -/
lemma perm_erase_three {l : List ℕ} (h : 3 ≤ l.count b) :
    l.Perm (b :: b :: b :: ((l.erase b).erase b).erase b) := by
  have h1 := perm_erase_of_count (b := b) (l := l) (by omega)
  have h2 : 2 ≤ (l.erase b).count b := by
    rw [List.count_erase_self]
    omega
  exact h1.trans ((perm_erase_two h2).cons b)

lemma setPile_new_peng (pos : Seat) (hv : MJCard.isValid b) :
    MJPile.new.setPile 3 [b, b, b] pos .peng = ⟨[b, b, b], .peng, pos⟩ := by
  simp [MJPile.setPile, MJPile.new, hv]

lemma setPile_new_gang (pos : Seat) (hv : MJCard.isValid b) {o : Oper} (ho : o ≠ .mxg) :
    MJPile.new.setPile 4 [b, b, b, b] pos o = ⟨[b, b, b, b], o, pos⟩ := by
  simp [MJPile.setPile, MJPile.new, hv, ho]

/-- A peng takes two tiles off the hand, and the last tile of what is left becomes the new one. -/
lemma doPeng_spec (pos : Seat) (hc : p.canPeng b) (hv : MJCard.isValid b) (hl : 2 < p.cardList.length) :
    ∃ x l, p.cardList.Perm (b :: b :: x :: l) ∧ p.doPeng b pos =
      (true, ⟨x, l, p.pileList ++ [⟨[b, b, b], .peng, pos⟩], .peng, p.huaList⟩) := by
  have hcount : 2 ≤ p.cardList.count b := by
    simp only [canPeng, Bool.and_eq_true, decide_eq_true_eq, getCardCountInHand_false] at hc
    exact hc.2
  have hperm := perm_erase_two hcount
  have hne : (p.cardList.erase b).erase b ≠ [] := by
    intro hnil
    have hlen := hperm.length_eq
    rw [hnil] at hlen
    simp at hlen
    omega
  refine ⟨((p.cardList.erase b).erase b).getLast hne, ((p.cardList.erase b).erase b).dropLast,
    hperm.trans (((List.Perm.of_eq (List.dropLast_append_getLast hne).symm).trans
      (List.perm_append_singleton _ _)).cons b |>.cons b), ?_⟩
  simp only [doPeng, hc, Bool.not_true, Bool.false_eq_true, if_false, delHandCard_snd,
    setPile_new_peng pos hv, pushLastCardToNewCard]
  rw [List.getLastD_eq_getLast?, List.getLast?_eq_some_getLast hne]
  rfl

/-- A kong on another seat's tile takes three tiles off the hand. -/
lemma doGang_spec (pos : Seat) (hc : p.canGang b) (hv : MJCard.isValid b) :
    ∃ l, p.cardList.Perm (b :: b :: b :: l) ∧ p.doGang b pos =
      (true, ⟨p.newCard, l, p.pileList ++ [⟨[b, b, b, b], .mg, pos⟩], .mg, p.huaList⟩) := by
  have hcount : 3 ≤ p.cardList.count b := by
    simp only [canGang, Bool.and_eq_true, decide_eq_true_eq, getCardCountInHand_false] at hc
    exact hc.2
  refine ⟨_, perm_erase_three hcount, ?_⟩
  simp only [doGang, hc, Bool.not_true, Bool.false_eq_true, if_false, delHandCard_snd]
  rw [setPile_new_gang pos hv (by decide)]

/-- The new tile of a player who has one is put to the hand. -/
lemma pushNewCardToHand_spec (h : p.hasNewCard) :
    ∃ l, l.Perm (p.newCard :: p.cardList) ∧
      p.pushNewCardToHand = { p with newCard := kCardNull, cardList := l } := by
  refine ⟨(p.cardList ++ [p.newCard]).insertionSort (· ≤ ·),
    (List.perm_insertionSort _ _).trans (List.perm_append_singleton _ _), ?_⟩
  rw [pushNewCardToHand, if_pos h]
  rfl

/-- The tile leaves the hand, where the new tile takes its place, or it is the new tile. -/
lemma takeOne_spec (hn : p.hasNewCard) (hc : 1 ≤ (p.newCard :: p.cardList).count b) :
    ∃ l, (p.newCard :: p.cardList).Perm (b :: l) ∧
      (if !(p.delHandCard b).1 then (p.delNewCard b).2 else (p.delHandCard b).2.pushNewCardToHand) =
        { p with newCard := kCardNull, cardList := l } := by
  rw [delHandCard_fst, delHandCard_snd]
  by_cases hb : b ∈ p.cardList
  · have hn' : ({ p with cardList := p.cardList.erase b } : MJPlayer).hasNewCard := hn
    obtain ⟨l, hl, hpush⟩ := pushNewCardToHand_spec hn'
    refine ⟨l, ?_, by simpa [hb] using hpush⟩
    have hswap : (p.newCard :: b :: p.cardList.erase b).Perm (b :: p.newCard :: p.cardList.erase b) :=
      List.Perm.swap _ _ _
    exact ((List.perm_cons_erase hb).cons p.newCard).trans (hswap.trans (hl.symm.cons b))
  · have hnew : b = p.newCard := by
      have hmem := List.count_pos_iff.mp hc
      rcases List.mem_cons.mp hmem with h | h
      · exact h
      · exact absurd h hb
    refine ⟨p.cardList, by rw [hnew], ?_⟩
    simp only [hb, decide_false, Bool.not_false, if_true, delNewCard, if_pos hnew]

/-- A concealed kong takes four tiles, the new one included. -/
lemma doAnGang_spec (pos : Seat) (hn : p.hasNewCard) (hc : 4 ≤ p.getCardCountInHand b true)
    (hv : MJCard.isValid b) :
    ∃ l, (p.newCard :: p.cardList).Perm (b :: b :: b :: b :: l) ∧ p.doAnGang b pos =
      (true, ⟨kCardNull, l, p.pileList ++ [⟨[b, b, b, b], .ag, pos⟩], .ag, p.huaList⟩) := by
  have hcount := hc
  rw [getCardCountInHand_true] at hcount
  have hhand : 3 ≤ p.cardList.count b := by
    rw [List.count_cons] at hcount
    split_ifs at hcount <;> omega
  set q : MJPlayer := { p with cardList := ((p.cardList.erase b).erase b).erase b } with hq
  have hqn : q.hasNewCard := hn
  have hthree := perm_erase_three hhand
  have hqc : 1 ≤ (q.newCard :: q.cardList).count b := by
    have hall := (hthree.cons p.newCard).count_eq b
    have hqcount : (q.newCard :: q.cardList).count b + 3 = (p.newCard :: p.cardList).count b := by
      rw [hall]
      simp only [hq, List.count_cons, beq_self_eq_true, if_true]
      ring
    omega
  obtain ⟨l, hl, htake⟩ := takeOne_spec hqn hqc
  refine ⟨l, ?_, ?_⟩
  · have hmove : (p.newCard :: b :: b :: b :: q.cardList).Perm
        (b :: b :: b :: q.newCard :: q.cardList) := by
      refine (List.Perm.swap _ _ _).trans (List.Perm.cons b ?_)
      exact (List.Perm.swap _ _ _).trans ((List.Perm.swap _ _ _).cons b)
    exact (hthree.cons p.newCard).trans (hmove.trans (((hl.cons b).cons b).cons b))
  · have hlt : ¬p.getCardCountInHand b true < 4 := by omega
    have hdel : (((p.delHandCard b).2.delHandCard b).2.delHandCard b).2 = q := by
      simp only [delHandCard_snd, hq]
    simp only [doAnGang, hn, Bool.not_true, Bool.false_eq_true, if_false, hlt, hdel, htake]
    rw [setPile_new_gang pos hv (by decide)]

/-- Playing a tile gives it away; it fails for a tile the player does not have. -/
lemma doPlayCard_spec (hn : p.hasNewCard) :
    (b ∉ p.newCard :: p.cardList ∧ p.doPlayCard b = (false, p)) ∨
      ∃ l, (p.newCard :: p.cardList).Perm (b :: l) ∧ p.doPlayCard b =
        (true, ⟨kCardNull, l, p.pileList, .play, p.huaList⟩) := by
  unfold doPlayCard
  simp only [hn, Bool.not_true, Bool.false_eq_true, if_false, delHandCard_fst, delHandCard_snd]
  by_cases hnew : b = p.newCard
  · refine Or.inr ⟨p.cardList, by rw [hnew], ?_⟩
    simp [delNewCard, hnew]
  · by_cases hb : b ∈ p.cardList
    · have hn' : ({ p with cardList := p.cardList.erase b } : MJPlayer).hasNewCard := hn
      obtain ⟨l, hl, hpush⟩ := pushNewCardToHand_spec hn'
      refine Or.inr ⟨l, ?_, by simp [delNewCard, hnew, hb, hpush]⟩
      exact ((List.perm_cons_erase hb).cons p.newCard).trans
        ((List.Perm.swap _ _ _).trans (hl.symm.cons b))
    · exact Or.inl ⟨by simp [hnew, hb], by simp [delNewCard, hnew, hb]⟩

lemma doPlayCard_of_no_new (hn : p.hasNewCard = false) : p.doPlayCard b = (false, p) := by
  simp [doPlayCard, hn]

end Spec


/-! ### The tiles of a player -/

/-- The new tile, if there is one. -/
def newTiles (newCard : ℕ) : Multiset ℕ := if newCard = kCardNull then 0 else {newCard}

/-- The tiles of the piles. -/
def pileTiles (pileList : List MJPile) : Multiset ℕ := ↑(pileList.flatMap MJPile.cardList)

/-- All tiles a player holds: the new tile, the hand, the piles and the flowers. -/
def tiles (p : MJPlayer) : Multiset ℕ :=
  newTiles p.newCard + ↑p.cardList + pileTiles p.pileList + ↑p.huaList

/-- The tiles of a player fit together: each pile stands for three tiles of the thirteen, the
piles are formed, and every tile is one. -/
structure Sound (p : MJPlayer) : Prop where
  size : p.cardList.length + 3 * p.pileList.length = 13
  formed : ∀ v ∈ p.pileList, v.Formed
  valid : ∀ t ∈ p.tiles, MJCard.isValid t = true

section Tiles

variable {p : MJPlayer} {b : ℕ}

@[simp] lemma newTiles_kCardNull : newTiles kCardNull = 0 := rfl

lemma newTiles_of_ne {c : ℕ} (h : c ≠ kCardNull) : newTiles c = {c} := if_neg h

lemma newTiles_of_hasNewCard (h : p.hasNewCard) : newTiles p.newCard = {p.newCard} := by
  apply newTiles_of_ne
  simpa [hasNewCard] using h

lemma newCard_of_not_hasNewCard (h : p.hasNewCard = false) : p.newCard = kCardNull := by
  simpa [hasNewCard] using h

@[simp] lemma pileTiles_append (l l' : List MJPile) :
    pileTiles (l ++ l') = pileTiles l + pileTiles l' := by
  simp [pileTiles]

@[simp] lemma pileTiles_cons (v : MJPile) (l : List MJPile) :
    pileTiles (v :: l) = ↑v.cardList + pileTiles l := by
  simp [pileTiles]

@[simp] lemma pileTiles_nil : pileTiles [] = 0 := rfl

lemma mem_tiles_of_mem_cardList {t : ℕ} (h : t ∈ p.cardList) : t ∈ p.tiles := by
  simp [tiles, h]

lemma mem_tiles_of_mem_pile {t : ℕ} {v : MJPile} (hv : v ∈ p.pileList) (h : t ∈ v.cardList) :
    t ∈ p.tiles := by
  simp only [tiles, pileTiles, Multiset.mem_add, Multiset.mem_coe, List.mem_flatMap]
  exact Or.inl (Or.inr ⟨v, hv, h⟩)

lemma ne_kCardNull_of_isValid {t : ℕ} (h : MJCard.isValid t = true) : t ≠ kCardNull := by
  rintro rfl
  exact absurd h (by decide)

/-- The new tile and the hand together. -/
lemma tiles_of_hasNewCard (h : p.hasNewCard) :
    p.tiles = ↑(p.newCard :: p.cardList) + pileTiles p.pileList + ↑p.huaList := by
  rw [tiles, newTiles_of_hasNewCard h, ← Multiset.cons_coe, Multiset.singleton_add]

lemma tiles_of_not_hasNewCard (h : p.hasNewCard = false) :
    p.tiles = ↑p.cardList + pileTiles p.pileList + ↑p.huaList := by
  rw [tiles, newCard_of_not_hasNewCard h, newTiles_kCardNull, zero_add]

lemma Sound.append_pile (hs : p.Sound) {v : MJPile} (hv : v.Formed) :
    ∀ w ∈ p.pileList ++ [v], w.Formed := by
  intro w hw
  rcases List.mem_append.mp hw with h | h
  · exact hs.formed w h
  · rw [List.mem_singleton.mp h]
    exact hv

lemma addNewCard_eq (hv : MJCard.isValid b) :
    p.addNewCard b = { p with justDoOper := .newCard, newCard := b } := if_pos hv

/-- A drawn tile is added to the player's tiles. -/
lemma addNewCard_sound (hs : p.Sound) (hn : p.hasNewCard = false) (hv : MJCard.isValid b) :
    (p.addNewCard b).Sound ∧ (p.addNewCard b).tiles = b ::ₘ p.tiles ∧
      (p.addNewCard b).hasNewCard ∧ (p.addNewCard b).justDoOper = .newCard ∧
      (p.addNewCard b).pileList = p.pileList := by
  have hb := ne_kCardNull_of_isValid hv
  have hdef : p.addNewCard b = { p with justDoOper := .newCard, newCard := b } := addNewCard_eq hv
  have hnew : (p.addNewCard b).hasNewCard := by
    rw [hdef]
    simpa [hasNewCard] using hb
  have htiles : (p.addNewCard b).tiles = b ::ₘ p.tiles := by
    rw [tiles_of_hasNewCard hnew, tiles_of_not_hasNewCard hn, hdef, ← Multiset.cons_coe]
    simp only [Multiset.cons_add]
  refine ⟨⟨?_, ?_, ?_⟩, htiles, hnew, by rw [hdef], by rw [hdef]⟩
  · rw [hdef]
    exact hs.size
  · rw [hdef]
    exact hs.formed
  · intro t ht
    rw [htiles, Multiset.mem_cons] at ht
    rcases ht with rfl | ht
    · exact hv
    · exact hs.valid t ht

section Flowers

variable {huaList : List ℕ}

/-- The only flower of a player without flowers in the hand is the new tile. -/
lemma hasHua_iff (h : ∀ x ∈ p.cardList, x ∉ huaList) :
    p.hasHua huaList = true ↔ p.newCard ∈ huaList := by
  have hhand : p.cardList.any (huaList.contains ·) = false := by
    rw [List.any_eq_false]
    intro x hx
    simpa using h x hx
  rw [hasHua, hhand, Bool.false_or, List.contains_iff_mem]

lemma getHua_eq (h : ∀ x ∈ p.cardList, x ∉ huaList) (hnew : p.newCard ∈ huaList) :
    p.getHua huaList = p.newCard := by
  have hnone : p.cardList.find? (huaList.contains ·) = none := by
    rw [List.find?_eq_none]
    intro x hx
    simpa using h x hx
  rw [getHua, hnone]
  simp only [List.contains_iff_mem.mpr hnew, if_true]

lemma hasNewCard_of_mem (hnull : kCardNull ∉ huaList) (hnew : p.newCard ∈ huaList) :
    p.hasNewCard = true := by
  have hne : p.newCard ≠ kCardNull := by
    intro heq
    rw [heq] at hnew
    exact hnull hnew
  simpa [hasNewCard] using hne

/-- A new tile that is put aside as a flower stays among the player's tiles. -/
lemma Sound.buHua (hs : p.Sound) (hnew : p.hasNewCard = true) :
    ((p.addHua p.newCard).delNewCard p.newCard).2.Sound ∧
      ((p.addHua p.newCard).delNewCard p.newCard).2.tiles = p.tiles ∧
      ((p.addHua p.newCard).delNewCard p.newCard).2.cardList = p.cardList ∧
      ((p.addHua p.newCard).delNewCard p.newCard).2.hasNewCard = false := by
  have hdel : ((p.addHua p.newCard).delNewCard p.newCard).2 = { p with
      newCard := kCardNull
      huaList := p.huaList ++ [p.newCard]
      justDoOper := .buHua } := by
    rw [delNewCard, if_pos (show p.newCard = (p.addHua p.newCard).newCard from rfl)]
    rfl
  rw [hdel]
  set q : MJPlayer := { p with
    newCard := kCardNull
    huaList := p.huaList ++ [p.newCard]
    justDoOper := .buHua } with hq
  have hnone : q.hasNewCard = false := rfl
  have htiles : q.tiles = p.tiles := by
    rw [tiles_of_not_hasNewCard hnone, tiles_of_hasNewCard hnew]
    simp only [hq, ← Multiset.cons_coe, ← Multiset.coe_add, ← Multiset.singleton_add]
    abel
  refine ⟨⟨hs.size, hs.formed, fun x hx => ?_⟩, htiles, rfl, hnone⟩
  rw [htiles] at hx
  exact hs.valid x hx

end Flowers

/-- A peng adds the claimed tile. -/
lemma doPeng_sound (pos : Seat) (hs : p.Sound) (hc : p.canPeng b) (hv : MJCard.isValid b)
    (hl : 2 < p.cardList.length) :
    ∃ q, p.doPeng b pos = (true, q) ∧ q.Sound ∧ q.tiles = b ::ₘ p.tiles ∧ q.hasNewCard ∧
      q.justDoOper = .peng ∧ q.pileList = p.pileList ++ [⟨[b, b, b], .peng, pos⟩] := by
  obtain ⟨x, l, hperm, hdo⟩ := doPeng_spec pos hc hv hl
  have hn : p.hasNewCard = false := by
    simp only [canPeng, Bool.and_eq_true, Bool.not_eq_true'] at hc
    exact hc.1
  have hx : x ∈ p.cardList := hperm.symm.subset (by simp)
  have hx0 := ne_kCardNull_of_isValid (hs.valid x (mem_tiles_of_mem_cardList hx))
  have htiles : tiles ⟨x, l, p.pileList ++ [⟨[b, b, b], .peng, pos⟩], .peng, p.huaList⟩ =
      b ::ₘ p.tiles := by
    rw [tiles_of_not_hasNewCard hn, Multiset.coe_eq_coe.mpr hperm]
    simp only [tiles, newTiles_of_ne hx0, pileTiles_append, pileTiles_cons, pileTiles_nil,
      ← Multiset.cons_coe, ← Multiset.singleton_add]
    simp only [Multiset.coe_nil]
    abel
  refine ⟨_, hdo, ⟨?_, hs.append_pile (.peng b pos), ?_⟩, htiles, by simpa [hasNewCard] using hx0,
    rfl, rfl⟩
  · have hlen := hperm.length_eq
    have hsize := hs.size
    simp only [List.length_cons, List.length_append] at hlen ⊢
    simp only [List.length_nil]
    omega
  · intro t ht
    rw [htiles, Multiset.mem_cons] at ht
    rcases ht with rfl | ht
    · exact hv
    · exact hs.valid t ht

/-- A kong on another seat's tile adds the claimed tile. -/
lemma doGang_sound (pos : Seat) (hs : p.Sound) (hc : p.canGang b) (hv : MJCard.isValid b) :
    ∃ q, p.doGang b pos = (true, q) ∧ q.Sound ∧ q.tiles = b ::ₘ p.tiles ∧
      q.hasNewCard = false ∧ q.pileList = p.pileList ++ [⟨[b, b, b, b], .mg, pos⟩] := by
  obtain ⟨l, hperm, hdo⟩ := doGang_spec pos hc hv
  have hn : p.hasNewCard = false := by
    simp only [canGang, Bool.and_eq_true, Bool.not_eq_true'] at hc
    exact hc.1
  have htiles : tiles ⟨p.newCard, l, p.pileList ++ [⟨[b, b, b, b], .mg, pos⟩], .mg, p.huaList⟩ =
      b ::ₘ p.tiles := by
    rw [tiles_of_not_hasNewCard hn, Multiset.coe_eq_coe.mpr hperm]
    simp only [tiles, newCard_of_not_hasNewCard hn, newTiles_kCardNull, pileTiles_append,
      pileTiles_cons, pileTiles_nil, ← Multiset.cons_coe, ← Multiset.singleton_add]
    simp only [Multiset.coe_nil]
    abel
  refine ⟨_, hdo, ⟨?_, hs.append_pile (.gang b pos (Or.inl rfl)), ?_⟩, htiles, hn, rfl⟩
  · have hlen := hperm.length_eq
    have hsize := hs.size
    simp only [List.length_cons, List.length_append] at hlen ⊢
    simp only [List.length_nil]
    omega
  · intro t ht
    rw [htiles, Multiset.mem_cons] at ht
    rcases ht with rfl | ht
    · exact hv
    · exact hs.valid t ht

/-- A concealed kong keeps the player's tiles. -/
lemma doAnGang_sound (pos : Seat) (hs : p.Sound) (hn : p.hasNewCard)
    (hc : 4 ≤ p.getCardCountInHand b true) :
    ∃ q, p.doAnGang b pos = (true, q) ∧ q.Sound ∧ q.tiles = p.tiles ∧
      q.hasNewCard = false ∧ q.pileList = p.pileList ++ [⟨[b, b, b, b], .ag, pos⟩] := by
  have hv : MJCard.isValid b := by
    have hmem : b ∈ p.newCard :: p.cardList := by
      rw [getCardCountInHand_true] at hc
      exact List.count_pos_iff.mp (by omega)
    apply hs.valid
    rw [tiles_of_hasNewCard hn, Multiset.mem_add, Multiset.mem_add]
    exact Or.inl (Or.inl hmem)
  obtain ⟨l, hperm, hdo⟩ := doAnGang_spec pos hn hc hv
  have htiles : tiles ⟨kCardNull, l, p.pileList ++ [⟨[b, b, b, b], .ag, pos⟩], .ag, p.huaList⟩ =
      p.tiles := by
    rw [tiles_of_hasNewCard hn, Multiset.coe_eq_coe.mpr hperm]
    simp only [tiles, newTiles_kCardNull, pileTiles_append, pileTiles_cons, pileTiles_nil,
      ← Multiset.cons_coe, ← Multiset.singleton_add]
    simp only [Multiset.coe_nil]
    abel
  refine ⟨_, hdo, ⟨?_, hs.append_pile (.gang b pos (Or.inr (Or.inl rfl))), ?_⟩, htiles, rfl, rfl⟩
  · have hlen := hperm.length_eq
    have hsize := hs.size
    simp only [List.length_cons, List.length_append] at hlen ⊢
    simp only [List.length_nil]
    omega
  · intro t ht
    rw [htiles] at ht
    exact hs.valid t ht

/-- The pile that gets the tile of an added kong. -/
lemma addToPile_spec {l : List MJPile} (hf : ∀ v ∈ l, v.Formed)
    (h : ∃ v ∈ l, isPengOf b v) :
    ∃ pre from' post, l = pre ++ ⟨[b, b, b], .peng, some from'⟩ :: post ∧
      addToPile b l = some (⟨[b, b, b, b], .mxg, some from'⟩,
        pre ++ ⟨[b, b, b, b], .mxg, some from'⟩ :: post) := by
  induction l with
  | nil => simp at h
  | cons v l ih =>
    by_cases hv : isPengOf b v
    · have hform := hf v (by simp)
      obtain ⟨from', rfl⟩ : ∃ from', v = ⟨[b, b, b], .peng, some from'⟩ := by
        simp only [isPengOf, Bool.and_eq_true, beq_iff_eq] at hv
        cases hform with
        | peng c pos =>
          have hcb : c = b := by
            by_contra hne
            simp [MJPile.getCardCount, hne] at hv
          exact ⟨pos, by rw [hcb]⟩
        | gang c pos ho =>
          rcases ho with ho | ho | ho <;> simp [ho] at hv
      exact ⟨[], from', l, rfl, by simp [addToPile, hv, MJPile.setPile]⟩
    · have hrest : ∃ v ∈ l, isPengOf b v := by
        obtain ⟨w, hw, hpeng⟩ := h
        rcases List.mem_cons.mp hw with rfl | hw
        · exact absurd hpeng hv
        · exact ⟨w, hw, hpeng⟩
      obtain ⟨pre, from', post, hl, hadd⟩ := ih (fun w hw => hf w (by simp [hw])) hrest
      refine ⟨v :: pre, from', post, by rw [hl]; rfl, ?_⟩
      rw [addToPile, if_neg hv, hadd]
      rfl

/-- An added kong keeps the player's tiles. -/
lemma doMXGang_sound (hs : p.Sound) (hn : p.hasNewCard) (hc : b ∈ p.newCard :: p.cardList)
    (hp : ∃ v ∈ p.pileList, isPengOf b v) :
    ∃ q, p.doMXGang b = (true, q) ∧ q.Sound ∧ q.tiles = p.tiles ∧ q.hasNewCard = false ∧
      ∃ v ∈ q.pileList, v.operType = .mxg := by
  obtain ⟨pre, from', post, hl, hadd⟩ := addToPile_spec hs.formed hp
  obtain ⟨l, hperm, htake⟩ := takeOne_spec hn (List.count_pos_iff.mpr hc)
  have hne : p.pileList.isEmpty = false := by
    rw [hl]
    simp
  have hcount : ¬p.getCardCountInHand b true < 1 := by
    rw [getCardCountInHand_true]
    have := List.count_pos_iff.mpr hc
    omega
  have hdo : p.doMXGang b = (true, ⟨kCardNull, l,
      pre ++ ⟨[b, b, b, b], .mxg, some from'⟩ :: post, .mxg, p.huaList⟩) := by
    simp only [doMXGang, hn, hne, Bool.not_true, Bool.or_self, Bool.false_eq_true, if_false,
      hcount, hadd, htake]
  have htiles : tiles ⟨kCardNull, l, pre ++ ⟨[b, b, b, b], .mxg, some from'⟩ :: post, .mxg,
      p.huaList⟩ = p.tiles := by
    rw [tiles_of_hasNewCard hn, Multiset.coe_eq_coe.mpr hperm, hl]
    simp only [tiles, newTiles_kCardNull, pileTiles_append, pileTiles_cons,
      ← Multiset.cons_coe, ← Multiset.singleton_add]
    abel
  refine ⟨_, hdo, ⟨?_, ?_, ?_⟩, htiles, rfl, ⟨[b, b, b, b], .mxg, some from'⟩, by simp, rfl⟩
  · have hlen := hperm.length_eq
    have hsize := hs.size
    rw [hl] at hsize
    simp only [List.length_cons, List.length_append] at hlen hsize ⊢
    omega
  · intro v hv
    have hform := hs.formed
    rw [hl] at hform
    rcases List.mem_append.mp hv with h | h
    · exact hform v (by simp [h])
    · rcases List.mem_cons.mp h with rfl | h
      · exact .gang b from' (Or.inr (Or.inr rfl))
      · exact hform v (by simp [h])
  · intro t ht
    rw [htiles] at ht
    exact hs.valid t ht

/-- A played tile leaves the player; a tile the player does not have is refused. -/
lemma doPlayCard_sound (hs : p.Sound) (hn : p.hasNewCard) :
    (b ∉ p.newCard :: p.cardList ∧ p.doPlayCard b = (false, p)) ∨
      (b ∈ p.newCard :: p.cardList ∧ MJCard.isValid b ∧ ∃ q, p.doPlayCard b = (true, q) ∧
        q.Sound ∧ p.tiles = b ::ₘ q.tiles ∧ q.hasNewCard = false ∧ q.pileList = p.pileList) := by
  rcases doPlayCard_spec (b := b) hn with hfail | ⟨l, hperm, hdo⟩
  · exact Or.inl hfail
  · right
    have htiles : p.tiles = b ::ₘ tiles ⟨kCardNull, l, p.pileList, .play, p.huaList⟩ := by
      rw [tiles_of_hasNewCard hn, Multiset.coe_eq_coe.mpr hperm]
      simp only [tiles, newTiles_kCardNull, ← Multiset.cons_coe, zero_add, Multiset.cons_add]
    refine ⟨hperm.symm.subset (by simp), hs.valid b (by rw [htiles]; simp), _, hdo,
      ⟨?_, hs.formed, ?_⟩, htiles, rfl, rfl⟩
    · have hlen := hperm.length_eq
      have hsize := hs.size
      simp only [List.length_cons] at hlen ⊢
      omega
    · intro t ht
      apply hs.valid
      rw [htiles]
      exact Multiset.mem_cons_of_mem ht

end Tiles

/-! ### Where the tiles of a hand come from -/

section Hand

variable {p : MJPlayer} {b : ℕ}

lemma delHandCard_subset (p : MJPlayer) (b : ℕ) :
    (p.delHandCard b).2.cardList ⊆ p.cardList := by
  rw [delHandCard_snd]
  exact List.erase_subset

lemma pushNewCardToHand_subset (p : MJPlayer) :
    p.pushNewCardToHand.cardList ⊆ p.newCard :: p.cardList := by
  unfold pushNewCardToHand
  split_ifs
  · intro c hc
    have hmem := (List.perm_insertionSort (· ≤ ·) (p.cardList ++ [p.newCard])).subset hc
    simpa [or_comm] using hmem
  · exact List.subset_cons_self _ _

/-- After a peng the hand and the new tile come from the hand. -/
lemma doPeng_subset (p : MJPlayer) (b : ℕ) (pos : Seat) :
    (p.doPeng b pos).2.cardList ⊆ p.cardList ∧ ((p.doPeng b pos).1 = true →
      (p.doPeng b pos).2.newCard = kCardNull ∨ (p.doPeng b pos).2.newCard ∈ p.cardList) := by
  unfold doPeng
  split_ifs
  · exact ⟨fun c hc => hc, by simp⟩
  · have hsub : ((p.delHandCard b).2.delHandCard b).2.cardList ⊆ p.cardList :=
      List.Subset.trans (delHandCard_subset _ b) (delHandCard_subset p b)
    refine ⟨List.Subset.trans (List.dropLast_subset _) hsub, fun _ => ?_⟩
    simp only [pushLastCardToNewCard]
    rcases List.eq_nil_or_concat ((p.delHandCard b).2.delHandCard b).2.cardList with hnil | ⟨l, c, hl⟩
    · rw [hnil]
      exact Or.inl rfl
    · rw [hl] at hsub ⊢
      rw [List.getLastD_eq_getLast?, List.concat_eq_append, List.getLast?_concat]
      exact Or.inr (hsub (by simp))

lemma doGang_subset (p : MJPlayer) (b : ℕ) (pos : Seat) :
    (p.doGang b pos).2.cardList ⊆ p.cardList := by
  unfold doGang
  split_ifs
  · exact fun c hc => hc
  · exact List.Subset.trans (delHandCard_subset _ b)
      (List.Subset.trans (delHandCard_subset _ b) (delHandCard_subset p b))

/-- Where a tile leaves a hand with a new tile, the hand is what is left of both. -/
lemma takeOne_subset (p : MJPlayer) (b : ℕ) :
    (if !(p.delHandCard b).1 then (p.delNewCard b).2
      else (p.delHandCard b).2.pushNewCardToHand).cardList ⊆ p.newCard :: p.cardList := by
  split_ifs
  · unfold delNewCard
    split_ifs <;> exact List.subset_cons_self _ _
  · refine List.Subset.trans (pushNewCardToHand_subset _) ?_
    have hnew : (p.delHandCard b).2.newCard = p.newCard := by rw [delHandCard_snd]
    rw [hnew]
    exact List.cons_subset_cons _ (delHandCard_subset p b)

lemma doAnGang_subset (p : MJPlayer) (b : ℕ) (pos : Seat) :
    (p.doAnGang b pos).2.cardList ⊆ p.newCard :: p.cardList := by
  unfold doAnGang
  split_ifs
  · exact List.subset_cons_self _ _
  · exact List.subset_cons_self _ _
  · set q := (((p.delHandCard b).2.delHandCard b).2.delHandCard b).2 with hq
    have hnew : q.newCard = p.newCard := by simp only [hq, delHandCard_snd]
    have hsub : q.cardList ⊆ p.cardList := List.Subset.trans (delHandCard_subset _ b)
      (List.Subset.trans (delHandCard_subset _ b) (delHandCard_subset p b))
    refine List.Subset.trans (takeOne_subset q b) ?_
    rw [hnew]
    exact List.cons_subset_cons _ hsub

lemma doMXGang_subset (p : MJPlayer) (b : ℕ) :
    (p.doMXGang b).2.cardList ⊆ p.newCard :: p.cardList := by
  unfold doMXGang
  split_ifs
  · exact List.subset_cons_self _ _
  · exact List.subset_cons_self _ _
  · cases addToPile b p.pileList with
    | none => exact List.subset_cons_self _ _
    | some r => exact takeOne_subset p b

end Hand

/-! ### The tiles offered for kongs -/

section Offers

variable {p : MJPlayer} {b : ℕ}

lemma mem_anGangLoop {baiDaList list hand : List ℕ}
    (h : b ∈ p.anGangLoop baiDaList list hand) :
    b ∈ list ∨ p.getCardCountInHand b true = 4 := by
  induction hand generalizing list with
  | nil => exact Or.inl h
  | cons v rest ih =>
    unfold anGangLoop at h
    split_ifs at h with hv
    · rcases ih h with hmem | hc
      · rcases List.mem_append.mp hmem with hmem | hmem
        · exact Or.inl hmem
        · rw [List.mem_singleton.mp hmem]
          exact Or.inr hv.2.2
      · exact Or.inr hc
    · exact ih h

/-- A tile offered for a concealed kong is there four times. -/
lemma count_of_mem_getAnGangCardListWithDa {baiDaList : List ℕ}
    (h : b ∈ p.getAnGangCardListWithDa baiDaList) : p.getCardCountInHand b true = 4 := by
  unfold getAnGangCardListWithDa at h
  split_ifs at h
  · simp at h
  · rcases mem_anGangLoop h with hnil | hc
    · simp at hnil
    · exact hc

/-- A tile offered for an added kong is in the hand and has its pile. -/
lemma mem_of_mem_getMXGangCardList (h : b ∈ p.getMXGangCardList) :
    b ∈ p.newCard :: p.cardList ∧ ∃ v ∈ p.pileList, isPengOf b v := by
  have hfold : ∀ (hand list : List ℕ),
      (∀ c ∈ list, c ∈ p.newCard :: p.cardList ∧ ∃ v ∈ p.pileList, isPengOf c v) →
      (∀ c ∈ hand, c ∈ p.cardList) →
      ∀ c ∈ hand.foldl (fun list byteCard => if byteCard ∈ list then list
          else list ++ (p.pileList.filter (isPengOf byteCard)).map fun _ => byteCard) list,
        c ∈ p.newCard :: p.cardList ∧ ∃ v ∈ p.pileList, isPengOf c v := by
    intro hand
    induction hand with
    | nil => exact fun list hlist _ => hlist
    | cons v rest ih =>
      intro list hlist hhand
      rw [List.foldl_cons]
      apply ih _ _ fun c hc => hhand c (by simp [hc])
      intro c hc
      split_ifs at hc
      · exact hlist c hc
      · rcases List.mem_append.mp hc with hc | hc
        · exact hlist c hc
        · simp only [List.mem_map, List.mem_filter] at hc
          obtain ⟨w, ⟨hw, hpeng⟩, rfl⟩ := hc
          exact ⟨List.mem_cons_of_mem _ (hhand v (by simp)), w, hw, hpeng⟩
  unfold getMXGangCardList at h
  split_ifs at h
  · simp at h
  · refine hfold p.cardList _ (fun c hc => ?_) (fun c hc => hc) b h
    simp only [List.mem_map, List.mem_filter] at hc
    obtain ⟨w, ⟨hw, hpeng⟩, rfl⟩ := hc
    exact ⟨List.mem_cons_self, w, hw, hpeng⟩

@[simp] lemma hasHua_nil (p : MJPlayer) : p.hasHua [] = false := by
  simp [hasHua]

end Offers

end MJPlayer

end Mahjong
