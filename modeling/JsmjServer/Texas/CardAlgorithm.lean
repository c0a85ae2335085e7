import Mathlib.Data.List.Dedup
import Mathlib.Data.List.Sort
import Mathlib.Order.Compare

set_option relaxedAutoImplicit false
set_option autoImplicit false

/-!
# The best hand and the comparison of hands

`texas/CardAlgorithm.lua` with the card bytes of `texas/CardConstant.lua`: `getBestGroup` searches
the categories from the straight flush down, each by its own function, and `compareBestGroup`
compares two of its results.

## Main definitions

* `Texas.CardAlgorithm.BestGroup` — a category with the groups of cards found for it.
* `Texas.CardAlgorithm.getBestGroup`, `Texas.CardAlgorithm.compareBestGroup`.

## Design

A card is its byte. Tables of groups, which `pairs` visits in no particular order, are lists, and a
sort is an insertion sort: where the order of the groups or of cards of one value would matter, a
result does not depend on it. Appending a group that is `nil` appends nothing.
-/

namespace Texas.CardAlgorithm

/-! ### Cards -/

/-- `getCardSuit`. -/
def getCardSuit (card : ℕ) : ℕ := card / 16

/-- `getCardValue`: an ace has the value 1. -/
def getCardValue (card : ℕ) : ℕ := card % 16

/-- `getCardRealValue`: an ace is above the king. -/
def getCardRealValue (card : ℕ) : ℕ := if getCardValue card = 1 then 14 else getCardValue card

/-- `isValidCardData` of the card of a byte. -/
def isValidCard (card : ℕ) : Prop :=
  1 ≤ getCardSuit card ∧ getCardSuit card ≤ 4 ∧ 1 ≤ getCardValue card ∧ getCardValue card ≤ 13

instance (card : ℕ) : Decidable (isValidCard card) :=
  inferInstanceAs (Decidable (1 ≤ getCardSuit card ∧ getCardSuit card ≤ 4 ∧
    1 ≤ getCardValue card ∧ getCardValue card ≤ 13))

/-- `GroupType`. -/
inductive GroupType
  | none | highCard | onePair | twoPair | threeKind | straight | flush | fullHouse | fourKind
  | straightFlush
  deriving DecidableEq, Repr

/-- The number of a category. -/
def GroupType.code : GroupType → ℕ
  | .none => 0
  | .highCard => 1
  | .onePair => 2
  | .twoPair => 3
  | .threeKind => 4
  | .straight => 5
  | .flush => 6
  | .fullHouse => 7
  | .fourKind => 8
  | .straightFlush => 9

/-- What `getBestGroup` returns: the category and the groups of cards. -/
structure BestGroup where
  type : GroupType
  groups : List (List ℕ)
  deriving DecidableEq

/-! ### Groups -/

/-- `sortByValue`, in ascending order. -/
def sortByValue (cards : List ℕ) : List ℕ :=
  cards.insertionSort fun l r => getCardRealValue l ≤ getCardRealValue r

/-- `sortByValueReverse`, in descending order. -/
def sortByValueReverse (cards : List ℕ) : List ℕ :=
  cards.insertionSort fun l r => getCardRealValue r ≤ getCardRealValue l

/-- `sortByValueReverse` with the ace as the smallest card. -/
def sortByValueReverseAIsSmall (cards : List ℕ) : List ℕ :=
  cards.insertionSort fun l r => getCardValue r ≤ getCardValue l

/-- `groupBySuit`. -/
def groupBySuit (cards : List ℕ) : List (List ℕ) :=
  (cards.map getCardSuit).dedup.map fun suit =>
    sortByValue (cards.filter fun c => getCardSuit c = suit)

/-- `groupByValue`. -/
def groupByValue (cards : List ℕ) : List (List ℕ) :=
  (cards.map getCardRealValue).dedup.map fun value =>
    cards.filter fun c => getCardRealValue c = value

/-- The loop of `getMaxGroupByValue`: the group of the largest value among the large enough ones. -/
def maxCardGroup (groups : List (List ℕ)) (same : ℕ) : Option (List ℕ) :=
  groups.foldl (fun maxGroup v =>
    if same ≤ v.length then
      match maxGroup with
      | .none => some v
      | some m =>
        if getCardRealValue (m.headD 0) < getCardRealValue (v.headD 0) then some v else some m
    else maxGroup) .none

/-- `getMaxGroupByValue`: `same` cards of the largest value of which there are as many. -/
def getMaxGroupByValue (cards : List ℕ) (same : ℕ) : Option (List ℕ) :=
  (maxCardGroup (groupByValue cards) same).map fun group => group.take same

/-- `removeFromCards`. -/
def removeFromCards (cards remove : List ℕ) : List ℕ := cards.diff remove

/-- `removeSameCard`. -/
def removeSameCard (cards : List ℕ) : List ℕ := cards.dedup

/-- `isCardContinuousLess`: every card is one above the next one. -/
def isCardContinuousLess (aIsSmall : Bool) : List ℕ → Bool
  | l :: r :: cards =>
    (if aIsSmall then getCardValue l = getCardValue r + 1
      else getCardRealValue l = getCardRealValue r + 1) &&
      isCardContinuousLess aIsSmall (r :: cards)
  | _ => true

/-- The first five consecutive cards that are continuous. -/
def continue5Cards (aIsSmall : Bool) : List ℕ → Option (List ℕ)
  | [] => .none
  | c :: cards =>
    if 4 ≤ cards.length then
      if isCardContinuousLess aIsSmall ((c :: cards).take 5) then some ((c :: cards).take 5)
      else continue5Cards aIsSmall cards
    else .none

/-- The searches for a straight: with the ace as the largest card and, where there is an ace, once
more with the ace as the smallest one. -/
def continueGroups (cards : List ℕ) : List (List ℕ) :=
  (continue5Cards false (sortByValueReverse cards)).toList ++
    if cards.any fun c => getCardValue c = 1 then
      (continue5Cards true (sortByValueReverseAIsSmall cards)).toList
    else []

/-! ### The categories -/

/-- The groups found are returned with their category. -/
def found (type : GroupType) (bestGroup : List (List ℕ)) : Option BestGroup :=
  if bestGroup = [] then .none else some ⟨type, bestGroup⟩

/-- `getBestGroupStraightFlush`. -/
def getBestGroupStraightFlush (cards : List ℕ) : Option BestGroup :=
  found .straightFlush <| (groupBySuit cards).flatMap fun g =>
    if 5 ≤ g.length then
      let gp := removeSameCard g
      if 5 ≤ gp.length then continueGroups gp else []
    else []

/-- `getBestGroupFourKind`. -/
def getBestGroupFourKind (cards : List ℕ) : Option BestGroup :=
  (getMaxGroupByValue cards 4).map fun group =>
    let max1Group := getMaxGroupByValue (removeFromCards cards group) 1
    ⟨.fourKind, group :: max1Group.toList⟩

/-- `getBestGroupFullHouse`. -/
def getBestGroupFullHouse (cards : List ℕ) : Option BestGroup :=
  match getMaxGroupByValue cards 3 with
  | .none => .none
  | some group =>
    (getMaxGroupByValue (removeFromCards cards group) 2).map fun max2Group =>
      ⟨.fullHouse, [group, max2Group]⟩

/-- `getBestGroupFlush`: of six or seven cards of a suit the smallest ones are dropped. -/
def getBestGroupFlush (cards : List ℕ) : Option BestGroup :=
  found .flush <| (groupBySuit cards).flatMap fun v =>
    if 5 ≤ v.length then
      let v := sortByValue v
      [if 5 < v.length then v.drop (if v.length = 7 then 2 else 1) else v]
    else []

/-- `getBestGroupStraight`. -/
def getBestGroupStraight (cards : List ℕ) : Option BestGroup :=
  let groups := groupByValue cards
  if 5 ≤ groups.length then found .straight (continueGroups (groups.map fun v => v.headD 0))
  else .none

/-- The largest groups of the given sizes, one after the other, as long as there are any. -/
def takeGroups : List ℕ → List ℕ → List (List ℕ)
  | _, [] => []
  | cards, same :: sizes =>
    match getMaxGroupByValue cards same with
    | .none => []
    | some group => group :: takeGroups (removeFromCards cards group) sizes

/-- `getBestGroupThreeKind`. -/
def getBestGroupThreeKind (cards : List ℕ) : Option BestGroup :=
  (getMaxGroupByValue cards 3).map fun group =>
    ⟨.threeKind, group :: takeGroups (removeFromCards cards group) [1, 1]⟩

/-- The number of values of which there are two cards. -/
def twoGroupCount (cards : List ℕ) : ℕ := (groupByValue cards).countP fun v => v.length = 2

/-- `getBestGroupTwoPair`. -/
def getBestGroupTwoPair (cards : List ℕ) : Option BestGroup :=
  if 2 ≤ twoGroupCount cards then some ⟨.twoPair, takeGroups cards [2, 2, 1]⟩ else .none

/-- `getBestGroupOnePair`. -/
def getBestGroupOnePair (cards : List ℕ) : Option BestGroup :=
  if 1 ≤ twoGroupCount cards then some ⟨.onePair, takeGroups cards [2, 1, 1, 1]⟩ else .none

/-- `getBestGroupHighCard`. -/
def getBestGroupHighCard (cards : List ℕ) : BestGroup :=
  let cardCopy := sortByValueReverse cards
  ⟨.highCard, (List.range 5).map fun i => (cardCopy[i]?).toList⟩

/-- `getBestGroup`, of no cards `nil`. -/
def getBestGroup (cards5 cards2 : List ℕ) : Option BestGroup :=
  let cards := cards5 ++ cards2
  if cards = [] then .none
  else
    getBestGroupStraightFlush cards <|> getBestGroupFourKind cards <|>
    getBestGroupFullHouse cards <|> getBestGroupFlush cards <|> getBestGroupStraight cards <|>
    getBestGroupThreeKind cards <|> getBestGroupTwoPair cards <|> getBestGroupOnePair cards <|>
    some (getBestGroupHighCard cards)

/-! ### The comparison -/

/-- The loops that compare the first `k` cards of two lists: `GROUP_LESS`, `GROUP_EQUAL`,
`GROUP_GREATER`, and nothing where a card is missing. -/
def compareCards : ℕ → List ℕ → List ℕ → Option Ordering
  | 0, _, _ => some .eq
  | k + 1, l :: ls, r :: rs =>
    if getCardRealValue l > getCardRealValue r then some .gt
    else if getCardRealValue l < getCardRealValue r then some .lt
    else compareCards k ls rs
  | _ + 1, _, _ => .none

/-- The first cards of the groups. -/
def firstCards (groups : List (List ℕ)) : List ℕ := groups.flatMap fun g => g.take 1

/-- `compareBestGroup`; `GROUP_ERROR` is `none`. -/
def compareBestGroup (lg rg : BestGroup) : Option Ordering :=
  if lg.type = .none ∨ rg.type = .none then .none
  else if lg.type.code > rg.type.code then some .gt
  else if lg.type.code < rg.type.code then some .lt
  else
    match lg.type with
    | .straightFlush | .straight =>
      compareCards 1 (sortByValue (lg.groups.headD [])) (sortByValue (rg.groups.headD []))
    | .fourKind | .fullHouse => compareCards 2 (firstCards lg.groups) (firstCards rg.groups)
    | .flush =>
      compareCards 5 (sortByValueReverse (lg.groups.headD []))
        (sortByValueReverse (rg.groups.headD []))
    | .threeKind | .twoPair => compareCards 3 (firstCards lg.groups) (firstCards rg.groups)
    | .onePair => compareCards 4 (firstCards lg.groups) (firstCards rg.groups)
    | .highCard => compareCards 5 (firstCards lg.groups) (firstCards rg.groups)
    | .none => .none

end Texas.CardAlgorithm
