import Mathlib.Data.List.Sort
import Mathlib.Data.List.Dedup
import Mathlib.Data.Int.Notation

set_option relaxedAutoImplicit false
set_option autoImplicit false

/-!
# Play types of the three-player landlord game

The classification of the cards of a play (`ddz3/CardAlgorithm.lua`). A play is a list of card
values from `VALUE_3 = 1` to `VALUE_2 = 13`, with the jokers 14 and 15. The code counts how often
each value occurs, splits the values by that number, and dispatches on the highest one that
occurs.

## Main definitions

* `Ddz3.matchPockerType` — the type, weight and length of a play.
* `Ddz3.getMaxPockerType` — the comparison of two plays.
-/

namespace Ddz3

/-! ### The code -/

/-- `pockerType`. -/
inductive PockerType
  | rocket
  | bomb
  | single
  | double
  | threecards
  | threeandsingle
  | singleSequential
  | doubleSequential
  | threeSequential
  | aircraftSingle
  | bombTwo
  | noneType
  deriving DecidableEq, Repr

/-- `CardConstant.VALUE_1`, the ace. -/
def value1 : ℕ := 12

/-- `CardConstant.VALUE_2`. -/
def value2 : ℕ := 13

/-- `CardConstant.VALUE_BLACK`. -/
def valueBlack : ℕ := 14

/-- `CardConstant.VALUE_RED`. -/
def valueRed : ℕ := 15

/-- `typeMainWeight.base`. -/
def mainWeightBase : ℕ := 0

/-- `typeMainWeight.large`. -/
def mainWeightLarge : ℕ := 10

/-- `typeMainWeight.rocket`. -/
def mainWeightRocket : ℕ := 100

/-- `pockerTypeRes`: the values that occur once, twice, three and four times, in increasing
order, and the number of cards. -/
structure PockerTypeRes where
  single : List ℕ := []
  double : List ℕ := []
  three : List ℕ := []
  four : List ℕ := []
  length : ℕ := 0
  deriving DecidableEq, Repr

/-- `retResult`. -/
structure RetResult where
  bFind : Bool
  type : PockerType
  weight : ℕ
  length : ℕ
  mainWeight : ℕ
  deriving DecidableEq, Repr

/-- `setResult(false, pockerType.NONETYPE, 0, 0, typeMainWeight.base)`. -/
def notFound : RetResult := ⟨false, .noneType, 0, 0, mainWeightBase⟩

/-- The last element `cardList[#cardList]` of a list. -/
def lastValue (cardList : List ℕ) : ℕ := cardList.getLast?.getD 0

/-- `hasSplitCards`. -/
def hasSplitCards (cardList splitList : List ℕ) : Bool :=
  cardList.any fun v => splitList.contains v

/-- The loop of `judgeTableContinuous` from the second card on. Beside the answer it returns the
value at which the list breaks: the first value when the break is right behind it. -/
def continuousFrom (bPrev : Bool) (preValue : ℕ) : List ℕ → Bool × ℕ
  | [] => (true, 0)
  | card :: rest =>
    if card ≠ preValue + 1 then (false, if bPrev then card else preValue)
    else continuousFrom true card rest

/-- `judgeTableContinuous`. The length test in front of the loop reads `(not cardList) and …` and
never applies, so `continuousNumber` has no effect. -/
def judgeTableContinuous (cardList : List ℕ) (_continuousNumber : ℕ) : Bool × ℕ :=
  match cardList with
  | [] => (true, 0)
  | card :: rest => continuousFrom false card rest

/-- `judgeFourThreeScenes`. -/
def judgeFourThreeScenes (res : PockerTypeRes) (splitValue : ℕ) : Bool × ℕ :=
  if res.length = 12 ∧ res.three.length = 4 then
    let cardList := res.three.filter (· ≠ splitValue)
    if (judgeTableContinuous cardList 3).1 && !hasSplitCards cardList [value2] then
      (true, lastValue cardList)
    else (false, 0)
  else (false, 0)

/-- `bombPockerType`. The code subtracts 4 from the length, which is at least 4 here. -/
def bombPockerType (res : PockerTypeRes) : RetResult :=
  if (res.length = res.single.length + 4 ∨ res.length = res.double.length * 2 + 4) ∧
      (res.single.length = 2 ∨ res.double.length = 2 ∨ res.double.length = 1) ∧
      res.four.length = 1 then
    ⟨true, .bombTwo, res.four.head?.getD 0, res.length, mainWeightBase⟩
  else if res.length = 4 then
    ⟨true, .bomb, res.four.head?.getD 0, res.length, mainWeightLarge⟩
  else notFound

/-- The test `aircraftSingle` of `threePockerType`: as many pairs, or as many single cards, as
triples and nothing else. -/
def aircraft (res : PockerTypeRes) : Bool :=
  (res.length = res.three.length * 3 + res.double.length * 2 ∧
      res.three.length = res.double.length) ∨
    (res.length = res.three.length * 3 + res.single.length ∧
      res.three.length = res.single.length)

/-- `threePockerType`. -/
def threePockerType (res : PockerTypeRes) : RetResult :=
  let bHasSplitCard := hasSplitCards res.three [value2]
  let weight := lastValue res.three
  let bContionus := judgeTableContinuous res.three 2
  if res.length = 3 then ⟨true, .threecards, weight, res.length, mainWeightBase⟩
  else if res.three.length = 1 ∧ 3 < res.length then
    if aircraft res then ⟨true, .threeandsingle, weight, res.length, mainWeightBase⟩
    else notFound
  else if bContionus.1 then
    if res.length = res.three.length * 3 ∧ !bHasSplitCard then
      ⟨true, .threeSequential, weight, res.length, mainWeightBase⟩
    else if aircraft res ∧ !bHasSplitCard then
      ⟨true, .aircraftSingle, weight, res.length, mainWeightBase⟩
    else notFound
  else
    let bFourThree := judgeFourThreeScenes res bContionus.2
    if bFourThree.1 then ⟨true, .aircraftSingle, bFourThree.2, res.length, mainWeightBase⟩
    else notFound

/-- `twoPockerType`. -/
def twoPockerType (res : PockerTypeRes) : RetResult :=
  let weight := lastValue res.double
  if res.length = 2 then ⟨true, .double, weight, res.length, mainWeightBase⟩
  else if res.length = res.double.length * 2 ∧ !hasSplitCards res.double [value2] ∧
      2 < res.double.length then
    ⟨true, .doubleSequential, weight, res.length, mainWeightBase⟩
  else notFound

/-- `onePockerType`. -/
def onePockerType (res : PockerTypeRes) : RetResult :=
  let weight := lastValue res.single
  if res.length = 1 then ⟨true, .single, weight, res.length, mainWeightBase⟩
  else if res.length = 2 then
    if res.single = [valueBlack, valueRed] then
      ⟨true, .rocket, weight, res.length, mainWeightRocket⟩
    else notFound
  else if (judgeTableContinuous res.single 5).1 then
    if !hasSplitCards res.single [valueBlack, valueRed, value2] then
      ⟨true, .singleSequential, weight, res.length, mainWeightBase⟩
    else notFound
  else notFound

/-- `judgePockerType`, which returns nothing when there is no card. -/
def judgePockerType (res : PockerTypeRes) : Option RetResult :=
  if 0 < res.four.length then some (bombPockerType res)
  else if 0 < res.three.length then some (threePockerType res)
  else if 0 < res.double.length then some (twoPockerType res)
  else if 0 < res.single.length then some (onePockerType res)
  else none

/-- `sortValue`: the values with the number of their cards, in increasing order. -/
def sortValue (pockerList : List ℕ) : List (ℕ × ℕ) :=
  (pockerList.dedup.insertionSort (· ≤ ·)).map fun v => (v, pockerList.count v)

/-- The loop of `matchPockerType` that places each value by its number. It stops without a
result at a value with more than four cards. -/
def place (res : PockerTypeRes) : List (ℕ × ℕ) → Option PockerTypeRes
  | [] => some res
  | (value, number) :: rest =>
    if number = 1 then
      place { res with single := res.single ++ [value], length := res.length + 1 } rest
    else if number = 2 then
      place { res with double := res.double ++ [value], length := res.length + 2 } rest
    else if number = 3 then
      place { res with three := res.three ++ [value], length := res.length + 3 } rest
    else if number = 4 then
      place { res with four := res.four ++ [value], length := res.length + 4 } rest
    else none

/-- `matchPockerType`; the argument is `nil` when the cards had no values. -/
def matchPockerType (pockerList : Option (List ℕ)) : Option RetResult :=
  match pockerList with
  | none => some notFound
  | some cards =>
    match place {} (sortValue cards) with
    | none => some notFound
    | some res => judgePockerType res

/-- `getMaxPockerType`: whether the plays can be compared, and the difference of the first to
the second. -/
def getMaxPockerType (cardsA cardsB : RetResult) : Bool × ℤ :=
  if !cardsA.bFind || !cardsB.bFind then (false, 0)
  else if cardsA.mainWeight ≠ cardsB.mainWeight then
    (true, (cardsA.mainWeight : ℤ) - cardsB.mainWeight)
  else if cardsA.length = cardsB.length ∧ cardsA.type = cardsB.type ∧
      cardsA.weight ≠ cardsB.weight then
    (true, (cardsA.weight : ℤ) - cardsB.weight)
  else (false, 0)

end Ddz3
