import JsmjServer.Nanjing.HuTypes
import Mathlib.Logic.Equiv.Fin.Basic
import Mathlib.Tactic.FinCases

set_option relaxedAutoImplicit false
set_option autoImplicit false

/-!
# Warnings of wuhu mahjong

`MJWarning:checkWaring` of `wuhumj/MJWarning.lua` warns the table of what the exposed piles of a
player may become. The tests for one suit spell out the suits Wan, Tiao and Tong over the counters
of `WHMJPlayer:getPileDataType`. The test for two kongs of one suit compares the number of Tong
kongs with `2` and with `0`, where the other suits are asked for the number of triplets.

## Main definitions

* `Wuhu.getPileDataType`, `Wuhu.checkWaring` — the counters, and the warnings.
* `Wuhu.swapTile`, `Wuhu.swapPile` — a permutation of the suits, applied to tiles and piles.
* `Wuhu.Balanced` — the condition for equal warnings.

## Main results

* `Wuhu.getPileDataType_eq` — what the counters count.
* `Wuhu.checkWaring_fresh` — the warnings on fresh data.
* `Wuhu.suits_alike_iff` — when a permutation of the suits leaves the warnings as they are.
-/

namespace Wuhu

open Mahjong
open Nanjing.BaoPai (suit isGang)
open Nanjing.HuTypes (point suit_of_isTile point_of_isTile)

/-! ### The program -/

/-- The warnings `kAli...`. -/
inductive Ali
  | hys | qys | dbe | dsh | sdy | sdz
  deriving DecidableEq, Repr

/-- The table filled by `getPileDataType`. -/
@[ext]
structure PileData where
  wanPengNum : ℕ
  wanGangNum : ℕ
  tiaoPengNum : ℕ
  tiaoGangNum : ℕ
  tongPengNum : ℕ
  tongGangNum : ℕ
  fengNum : ℕ
  nMax : ℕ

/-- One pile of the loop in `getPileDataType`. An empty pile ends it with `nil`. -/
def countPile (d : PileData) (pile : MJPile) : Option PileData :=
  match pile.cardList with
  | [] => none
  | card :: _ =>
    let cardSuit := card / 10
    let cardPoint := card - cardSuit * 10
    let feng := if 1 ≤ cardPoint ∧ cardPoint ≤ 7 then { d with fengNum := d.fengNum + 1 } else d
    if pile.operType = .peng then
      let d' :=
        if cardSuit = 0 then { d with wanPengNum := d.wanPengNum + 1 }
        else if cardSuit = 2 then { d with tongPengNum := d.tongPengNum + 1 }
        else if cardSuit = 1 then { d with tiaoPengNum := d.tiaoPengNum + 1 }
        else if cardSuit = 3 then feng else d
      some { d' with nMax := d'.nMax + 1 }
    else if isGang pile.operType then
      let d' :=
        if cardSuit = 0 then { d with wanGangNum := d.wanGangNum + 1 }
        else if cardSuit = 2 then { d with tongGangNum := d.tongGangNum + 1 }
        else if cardSuit = 1 then { d with tiaoGangNum := d.tiaoGangNum + 1 }
        else if cardSuit = 3 then feng else d
      some { d' with nMax := d'.nMax + 1 }
    else some d

/-- `WHMJPlayer:getPileDataType`. -/
def getPileDataType (pileList : List MJPile) : Option PileData :=
  pileList.foldlM countPile ⟨0, 0, 0, 0, 0, 0, 0, 0⟩

/-- The condition of `checkHYSWaring`: one suit and honours. -/
def checkHYSWaring (d : PileData) : Bool :=
  2 < d.nMax && 0 < d.fengNum &&
    (d.wanPengNum + d.wanGangNum + d.fengNum == d.nMax ||
      d.tiaoPengNum + d.tiaoGangNum + d.fengNum == d.nMax ||
      d.tongPengNum + d.tongGangNum + d.fengNum == d.nMax)

/-- The condition of `checkQYSWaring`: one suit. -/
def checkQYSWaring (d : PileData) : Bool :=
  2 < d.nMax &&
    (d.wanPengNum + d.wanGangNum == d.nMax || d.tiaoPengNum + d.tiaoGangNum == d.nMax ||
      d.tongPengNum + d.tongGangNum == d.nMax)

/-- The condition of `checkDBEWaring`: two kongs of one suit. -/
def checkDBEWaring (d : PileData) : Bool :=
  d.fengNum == 0 &&
    ((2 == d.wanGangNum && 0 == d.wanPengNum) || (2 == d.tiaoGangNum && 0 == d.tiaoPengNum) ||
      (2 == d.tongGangNum && 0 == d.tongGangNum))

/-- The first tile of a pile. -/
def first (pile : MJPile) : ℕ := pile.cardList.headD 0

/-- `GameProgress:CheckCardOutNum`, from the number of tiles shown in rivers and piles. -/
def CheckCardOutNum (shown : ℕ → ℕ) (byteCard : ℕ) : ℕ :=
  if 10 = byteCard then 5 else shown byteCard

/-- Two tiles of one suit that fit into one run. -/
def near (b c : ℕ) : Bool :=
  suit b == suit c && ((point b : ℤ) - point c).natAbs < 3 && point b != point c

/-- The condition of `checkDSHWaring`: two triplets that fit, neither of which is shown in full. -/
def checkDSHWaring (pileList : List MJPile) (shown : ℕ → ℕ) : Bool :=
  pileList.any fun v => CheckCardOutNum shown (first v) < 4 && v.operType == .peng &&
    pileList.any fun u => CheckCardOutNum shown (first u) < 4 && u.operType == .peng &&
      near (first v) (first u)

/-- `checkSZB` and the condition of `checkSZBWaring`: three triplets from one other seat, and a
fourth pile from elsewhere. -/
def checkSZB (myPos : Seat) : List MJPile → Bool
  | [v₁, v₂, v₃, v₄] =>
    ([v₁, v₂, v₃].all fun v =>
      v₁.fromPos == v.fromPos && v.fromPos != some myPos && v.operType == .peng) &&
      v₁.fromPos != v₄.fromPos
  | _ => false

/-- The loop over `tbFrom`: the triplets from each seat. A triplet from nowhere stops it. -/
def tbFrom (pileList : List MJPile) : Option (Seat → ℕ) :=
  pileList.foldlM
    (fun tb pile =>
      if pile.operType = .peng then pile.fromPos.map fun q => Function.update tb q (tb q + 1)
      else some tb)
    fun _ => 0

/-- The condition of `checkSPFWaring`: three triplets from one other seat. -/
def checkSPFWaring (myPos : Seat) (pileList : List MJPile) : Option Bool :=
  if pileList.length = 4 ∧ checkSZB myPos pileList = true then some false
  else (tbFrom pileList).map fun tb => decide (∃ pos, 2 < tb pos ∧ myPos ≠ pos)

/-- What `checkWaring` returns, and the field `nAli` it leaves. -/
structure Waring where
  bRet : Bool
  nAliTb : List Ali
  nAli : List Ali

/-- One check: a warning that is not there yet is added to both lists. -/
def addAli (r : Waring) (c : Ali × Bool) : Waring :=
  if c.2 && !r.nAli.contains c.1 then ⟨true, r.nAliTb ++ [c.1], r.nAli ++ [c.1]⟩ else r

/-- `MJWarning:checkWaring`, or `none` where it stops with an error. -/
def checkWaring (myPos : Seat) (pileList : List MJPile) (shown : ℕ → ℕ) (nAli : List Ali) :
    Option Waring :=
  (getPileDataType pileList).bind fun tbPengData =>
    (checkSPFWaring myPos pileList).map fun spf =>
      [(Ali.hys, checkHYSWaring tbPengData), (.qys, checkQYSWaring tbPengData),
        (.dbe, checkDBEWaring tbPengData), (.dsh, checkDSHWaring pileList shown), (.sdy, spf),
        (.sdz, checkSZB myPos pileList)].foldl addAli ⟨false, [], nAli⟩

/-! ### The counters -/

/-- A triplet of the suit. -/
def pengOf (s : ℕ) (pile : MJPile) : Bool := pile.operType == .peng && first pile / 10 == s

/-- A kong of the suit. -/
def gangOf (s : ℕ) (pile : MJPile) : Bool := isGang pile.operType && first pile / 10 == s

/-- A triplet or kong. -/
def setOf (pile : MJPile) : Bool := pile.operType == .peng || isGang pile.operType

/-- A triplet or kong of honours. -/
def fengOf (pile : MJPile) : Bool :=
  setOf pile && first pile / 10 == 3 && 1 ≤ first pile % 10 && first pile % 10 ≤ 7

/-- The counters of a list of piles. -/
def tally (l : List MJPile) : PileData :=
  ⟨l.countP (pengOf 0), l.countP (gangOf 0), l.countP (pengOf 1), l.countP (gangOf 1),
    l.countP (pengOf 2), l.countP (gangOf 2), l.countP fengOf, l.countP setOf⟩

variable {l : List MJPile} {pile : MJPile}

/-- What one pile adds to the counters. -/
def PileData.add (d : PileData) (pile : MJPile) : PileData :=
  ⟨d.wanPengNum + (pengOf 0 pile).toNat, d.wanGangNum + (gangOf 0 pile).toNat,
    d.tiaoPengNum + (pengOf 1 pile).toNat, d.tiaoGangNum + (gangOf 1 pile).toNat,
    d.tongPengNum + (pengOf 2 pile).toNat, d.tongGangNum + (gangOf 2 pile).toNat,
    d.fengNum + (fengOf pile).toNat, d.nMax + (setOf pile).toNat⟩

lemma countPile_eq (d : PileData) (h : pile.cardList ≠ []) :
    countPile d pile = some (d.add pile) := by
  obtain ⟨cardList, o, pos⟩ := pile
  obtain ⟨card, rest, rfl⟩ := List.exists_cons_of_ne_nil h
  have hg : isGang .peng = false := rfl
  have hcases : card / 10 = 0 ∨ card / 10 = 1 ∨ card / 10 = 2 ∨ card / 10 = 3 ∨
      (card / 10 ≠ 0 ∧ card / 10 ≠ 1 ∧ card / 10 ≠ 2 ∧ card / 10 ≠ 3) := by omega
  by_cases hp : o = .peng
  · subst hp
    rcases hcases with hs | hs | hs | hs | hs
    · simp [countPile, PileData.add, pengOf, gangOf, fengOf, setOf, first, hs, hg]
    · simp [countPile, PileData.add, pengOf, gangOf, fengOf, setOf, first, hs, hg]
    · simp [countPile, PileData.add, pengOf, gangOf, fengOf, setOf, first, hs, hg]
    · have hc : (1 ≤ card - 30 ∧ card ≤ 37) ↔ 1 ≤ card % 10 ∧ card % 10 ≤ 7 := by omega
      by_cases h1 : 1 ≤ card % 10 <;> by_cases h7 : card % 10 ≤ 7 <;>
        simp [countPile, PileData.add, pengOf, gangOf, fengOf, setOf, first, hs, hg, hc, h1, h7]
    · simp [countPile, PileData.add, pengOf, gangOf, fengOf, setOf, first, hs, hg]
  · by_cases hg' : isGang o = true
    · rcases hcases with hs | hs | hs | hs | hs
      · simp [countPile, PileData.add, pengOf, gangOf, fengOf, setOf, first, hs, hp, hg']
      · simp [countPile, PileData.add, pengOf, gangOf, fengOf, setOf, first, hs, hp, hg']
      · simp [countPile, PileData.add, pengOf, gangOf, fengOf, setOf, first, hs, hp, hg']
      · have hc : (1 ≤ card - 30 ∧ card ≤ 37) ↔ 1 ≤ card % 10 ∧ card % 10 ≤ 7 := by omega
        by_cases h1 : 1 ≤ card % 10 <;> by_cases h7 : card % 10 ≤ 7 <;>
          simp [countPile, PileData.add, pengOf, gangOf, fengOf, setOf, first, hs, hp, hg', hc, h1,
            h7]
      · simp [countPile, PileData.add, pengOf, gangOf, fengOf, setOf, first, hs, hp, hg']
    · have hp' : (o == .peng) = false := by simpa using hp
      simp [countPile, PileData.add, pengOf, gangOf, fengOf, setOf, hp, hp', hg']

lemma tally_append (l : List MJPile) (pile : MJPile) :
    tally (l ++ [pile]) = (tally l).add pile := by
  have hcount : ∀ q : MJPile → Bool, (l ++ [pile]).countP q = l.countP q + (q pile).toNat := by
    intro q
    rw [List.countP_append, List.countP_singleton]
    cases q pile <;> rfl
  simp only [tally, PileData.add, hcount]

/-- What `getPileDataType` counts. -/
lemma getPileDataType_eq (h : ∀ pile ∈ l, pile.cardList ≠ []) :
    getPileDataType l = some (tally l) := by
  induction l using List.reverseRecOn with
  | nil => rfl
  | append_singleton l pile ih =>
    have hl := ih fun v hv => h v (List.mem_append_left _ hv)
    rw [getPileDataType] at hl ⊢
    rw [List.foldlM_append, hl, tally_append]
    show List.foldlM countPile (tally l) [pile] = _
    rw [List.foldlM_cons, countPile_eq _ (h pile (by simp))]
    rfl

/-! ### The warnings on fresh data -/

/-- A list of piles that the players lay: each has a tile, and a triplet has come from a seat. -/
def Laid (l : List MJPile) : Prop :=
  ∀ pile ∈ l, pile.cardList ≠ [] ∧ (pile.operType = .peng → pile.fromPos ≠ none)

/-- Warnings that are not there yet are added, each once. -/
lemma foldl_addAli (checks : List (Ali × Bool)) (hd : (checks.map Prod.fst).Nodup) (r : Waring)
    (h : ∀ c ∈ checks, c.1 ∉ r.nAli) :
    (checks.foldl addAli r).nAliTb = r.nAliTb ++ (checks.filter Prod.snd).map Prod.fst := by
  induction checks generalizing r with
  | nil => simp
  | cons c checks ih =>
    rw [List.map_cons, List.nodup_cons] at hd
    have hc := h c List.mem_cons_self
    have hother : ∀ d ∈ checks, d.1 ≠ c.1 := fun d hd' heq =>
      hd.1 (heq ▸ List.mem_map_of_mem hd')
    rw [List.foldl_cons, ih hd.2]
    · unfold addAli
      cases hb : c.2 <;> simp [hb, hc]
    · intro d hd'
      have hdr := h d (List.mem_cons_of_mem c hd')
      unfold addAli
      split_ifs
      · simpa using ⟨hdr, hother d hd'⟩
      · exact hdr

lemma tbFrom_isSome (h : Laid l) : ∃ tb, tbFrom l = some tb := by
  induction l using List.reverseRecOn with
  | nil => exact ⟨_, rfl⟩
  | append_singleton l pile ih =>
    obtain ⟨tb, htb⟩ := ih fun v hv => h v (List.mem_append_left _ hv)
    rw [tbFrom] at htb ⊢
    simp only [List.foldlM_append, htb, List.foldlM_cons, List.foldlM_nil, Option.bind_eq_bind,
      Option.bind_some]
    by_cases hp : pile.operType = .peng
    · obtain ⟨q, hq⟩ := Option.ne_none_iff_exists'.mp ((h pile (by simp)).2 hp)
      simp only [hp, if_true, hq]
      exact ⟨_, rfl⟩
    · simp only [hp, if_false]
      exact ⟨_, rfl⟩

/-- The three triplets from one seat, where there is no error. -/
def spf (myPos : Seat) (l : List MJPile) : Bool := (checkSPFWaring myPos l).getD false

/-- Whether a warning applies. -/
def applies (myPos : Seat) (l : List MJPile) (shown : ℕ → ℕ) : Ali → Bool
  | .hys => checkHYSWaring (tally l)
  | .qys => checkQYSWaring (tally l)
  | .dbe => checkDBEWaring (tally l)
  | .dsh => checkDSHWaring l shown
  | .sdy => spf myPos l
  | .sdz => checkSZB myPos l

/-- The checks in the order of the source. -/
def checks (myPos : Seat) (l : List MJPile) (shown : ℕ → ℕ) : List (Ali × Bool) :=
  [(.hys, checkHYSWaring (tally l)), (.qys, checkQYSWaring (tally l)),
    (.dbe, checkDBEWaring (tally l)), (.dsh, checkDSHWaring l shown), (.sdy, spf myPos l),
    (.sdz, checkSZB myPos l)]

/-- `checkWaring` on fresh data returns the warning. -/
def Warns (myPos : Seat) (l : List MJPile) (shown : ℕ → ℕ) (w : Ali) : Prop :=
  ∃ r, checkWaring myPos l shown [] = some r ∧ w ∈ r.nAliTb

/-- The warnings on fresh data are those that apply. -/
lemma checkWaring_fresh (h : Laid l) (myPos : Seat) (shown : ℕ → ℕ) (w : Ali) :
    Warns myPos l shown w ↔ applies myPos l shown w = true := by
  have hspf : checkSPFWaring myPos l = some (spf myPos l) := by
    obtain ⟨tb, htb⟩ := tbFrom_isSome h
    unfold spf checkSPFWaring
    split_ifs
    · rfl
    · rw [htb]
      rfl
  have hrun : checkWaring myPos l shown [] =
      some ((checks myPos l shown).foldl addAli ⟨false, [], []⟩) := by
    rw [checkWaring, getPileDataType_eq fun pile hp => (h pile hp).1, Option.bind_some, hspf]
    rfl
  rw [Warns, hrun]
  simp only [Option.some.injEq, exists_eq_left']
  have hnodup : [Ali.hys, .qys, .dbe, .dsh, .sdy, .sdz].Nodup := by decide
  rw [foldl_addAli (checks myPos l shown) hnodup _ fun c _ => List.not_mem_nil, List.nil_append,
    List.mem_map]
  constructor
  · rintro ⟨c, hc, rfl⟩
    rw [List.mem_filter] at hc
    simp only [checks, List.mem_cons, List.not_mem_nil, or_false] at hc
    obtain ⟨rfl | rfl | rfl | rfl | rfl | rfl, hb⟩ := hc
    all_goals exact hb
  · intro hw
    refine ⟨(w, applies myPos l shown w), List.mem_filter.mpr ⟨?_, hw⟩, rfl⟩
    cases w <;> simp [applies, checks]

/-! ### A permutation of the suits -/

/-- A permutation of the suits Wan, Tiao and Tong, applied to a tile. -/
def swapTile (σ : Equiv.Perm (Fin 3)) (t : ℕ) : ℕ :=
  if h : t / 10 < 3 then σ ⟨t / 10, h⟩ * 10 + t % 10 else t

/-- The same for the tiles of a pile. -/
def swapPile (σ : Equiv.Perm (Fin 3)) (pile : MJPile) : MJPile :=
  { pile with cardList := pile.cardList.map (swapTile σ) }

section Swap

variable (σ : Equiv.Perm (Fin 3)) {t b c : ℕ}

lemma swapTile_div (h : t / 10 < 3) : swapTile σ t / 10 = σ ⟨t / 10, h⟩ := by
  rw [swapTile, dif_pos h]
  omega

lemma swapTile_div_of_le (h : ¬t / 10 < 3) : swapTile σ t = t := dif_neg h

lemma swapTile_mod (t : ℕ) : swapTile σ t % 10 = t % 10 := by
  unfold swapTile
  split_ifs <;> omega

/-- The suit of a tile after the permutation. -/
lemma swapTile_div_eq (t : ℕ) (s : Fin 3) : swapTile σ t / 10 = σ s ↔ t / 10 = s := by
  by_cases h : t / 10 < 3
  · rw [swapTile_div σ h]
    constructor
    · intro heq
      have := σ.injective (Fin.ext heq)
      rw [← this]
    · intro heq
      congr 2
      exact Fin.ext heq
  · rw [swapTile_div_of_le σ h]
    have := s.isLt
    have := (σ s).isLt
    constructor <;> intro <;> omega

lemma swapTile_symm (t : ℕ) : swapTile σ.symm (swapTile σ t) = t := by
  by_cases h : t / 10 < 3
  · have hdiv := swapTile_div σ h
    have hlt : swapTile σ t / 10 < 3 := by
      rw [hdiv]
      exact (σ ⟨t / 10, h⟩).isLt
    have hfin : (⟨swapTile σ t / 10, hlt⟩ : Fin 3) = σ ⟨t / 10, h⟩ := Fin.ext hdiv
    rw [swapTile, dif_pos hlt, hfin, Equiv.symm_apply_apply, swapTile_mod]
    simp only
    omega
  · rw [swapTile_div_of_le σ h, swapTile_div_of_le σ.symm h]

lemma isValid_swapTile (t : ℕ) : MJCard.isValid (swapTile σ t) = MJCard.isValid t := by
  by_cases h : t / 10 < 3
  · have hle : swapTile σ t / 10 ≤ 2 := by
      rw [swapTile_div σ h]
      exact Nat.lt_succ_iff.mp (σ ⟨t / 10, h⟩).isLt
    have hle' : t / 10 ≤ 2 := by omega
    simp only [MJCard.isValid, hle, hle', if_true, swapTile_mod]
  · rw [swapTile_div_of_le σ h]

lemma point_swapTile (t : ℕ) : point (swapTile σ t) = point t := by
  simp only [point, isValid_swapTile, swapTile_mod]

lemma suit_swapTile (hb : MJCard.isValid b = true) (hc : MJCard.isValid c = true) :
    suit (swapTile σ b) = suit (swapTile σ c) ↔ suit b = suit c := by
  rw [suit, if_pos ((isValid_swapTile σ b).trans hb), suit,
    if_pos ((isValid_swapTile σ c).trans hc), suit, if_pos hb, suit, if_pos hc]
  by_cases h : c / 10 < 3
  · rw [swapTile_div σ h]
    exact swapTile_div_eq σ b ⟨c / 10, h⟩
  · rw [swapTile_div_of_le σ h]
    by_cases h' : b / 10 < 3
    · have := (σ ⟨b / 10, h'⟩).isLt
      rw [swapTile_div σ h']
      constructor <;> intro <;> omega
    · rw [swapTile_div_of_le σ h']

/-! ### The counters after the permutation -/

variable {l : List MJPile}

lemma first_swapPile {pile : MJPile} (h : pile.cardList ≠ []) :
    first (swapPile σ pile) = swapTile σ (first pile) := by
  obtain ⟨card, rest, hcards⟩ := List.exists_cons_of_ne_nil h
  simp [first, swapPile, hcards]

/-- A count over the permuted piles. -/
lemma countP_swapPile (hl : Laid l) {q q' : MJPile → Bool}
    (h : ∀ pile : MJPile, pile.cardList ≠ [] → q' (swapPile σ pile) = q pile) :
    (l.map (swapPile σ)).countP q' = l.countP q := by
  rw [List.countP_map]
  exact List.countP_congr fun pile hp => by
    rw [Function.comp_apply, h pile (hl pile hp).1]

/-- The triplets of a suit. -/
def pengNum (l : List MJPile) (s : Fin 3) : ℕ := l.countP (pengOf s)

/-- The kongs of a suit. -/
def gangNum (l : List MJPile) (s : Fin 3) : ℕ := l.countP (gangOf s)

lemma first_div_swapPile {pile : MJPile} (h : pile.cardList ≠ []) (s : Fin 3) :
    (first (swapPile σ pile) / 10 == (σ s : ℕ)) = (first pile / 10 == (s : ℕ)) := by
  rw [first_swapPile σ h, Bool.eq_iff_iff, beq_iff_eq, beq_iff_eq]
  exact swapTile_div_eq σ _ s

lemma pengNum_swapPile (hl : Laid l) (s : Fin 3) :
    pengNum (l.map (swapPile σ)) (σ s) = pengNum l s := by
  refine countP_swapPile σ hl fun pile h => ?_
  rw [pengOf, pengOf, first_div_swapPile σ h]
  rfl

lemma gangNum_swapPile (hl : Laid l) (s : Fin 3) :
    gangNum (l.map (swapPile σ)) (σ s) = gangNum l s := by
  refine countP_swapPile σ hl fun pile h => ?_
  rw [gangOf, gangOf, first_div_swapPile σ h]
  rfl

lemma fengNum_swapPile (hl : Laid l) :
    (tally (l.map (swapPile σ))).fengNum = (tally l).fengNum := by
  refine countP_swapPile σ hl fun pile h => ?_
  have hdiv : (first (swapPile σ pile) / 10 == 3) = (first pile / 10 == 3) := by
    rw [first_swapPile σ h, Bool.eq_iff_iff, beq_iff_eq, beq_iff_eq]
    by_cases hlt : first pile / 10 < 3
    · have := (σ ⟨_, hlt⟩).isLt
      rw [swapTile_div σ hlt]
      constructor <;> intro <;> omega
    · rw [swapTile_div_of_le σ hlt]
  rw [fengOf, fengOf, hdiv, first_swapPile σ h, swapTile_mod]
  rfl

lemma nMax_swapPile (hl : Laid l) : (tally (l.map (swapPile σ))).nMax = (tally l).nMax :=
  countP_swapPile σ hl fun _ _ => rfl

/-- A condition on some suit, before and after the permutation. -/
lemma exists_suit_swap {P P' : Fin 3 → Prop} (h : ∀ s, P' (σ s) ↔ P s) :
    (∃ s, P' s) ↔ ∃ s, P s :=
  (σ.exists_congr fun s => (h s).symm).symm

lemma or_iff_exists_suit (P : Fin 3 → Prop) : (P 0 ∨ P 1) ∨ P 2 ↔ ∃ s, P s := by
  constructor
  · rintro ((h | h) | h)
    exacts [⟨0, h⟩, ⟨1, h⟩, ⟨2, h⟩]
  · rintro ⟨s, h⟩
    fin_cases s
    exacts [Or.inl (Or.inl h), Or.inl (Or.inr h), Or.inr h]

lemma checkHYSWaring_iff (l : List MJPile) : checkHYSWaring (tally l) = true ↔
    (2 < (tally l).nMax ∧ 0 < (tally l).fengNum) ∧
      ∃ s, pengNum l s + gangNum l s + (tally l).fengNum = (tally l).nMax := by
  rw [← or_iff_exists_suit]
  simp only [checkHYSWaring, Bool.and_eq_true, Bool.or_eq_true, beq_iff_eq, decide_eq_true_eq]
  rfl

lemma checkQYSWaring_iff (l : List MJPile) : checkQYSWaring (tally l) = true ↔
    2 < (tally l).nMax ∧ ∃ s, pengNum l s + gangNum l s = (tally l).nMax := by
  rw [← or_iff_exists_suit]
  simp only [checkQYSWaring, Bool.and_eq_true, Bool.or_eq_true, beq_iff_eq, decide_eq_true_eq]
  rfl

/-- Two kongs of the suit and no triplet. -/
def DoubleGang (l : List MJPile) (s : Fin 3) : Prop := gangNum l s = 2 ∧ pengNum l s = 0

instance instDecidableDoubleGang (l : List MJPile) (s : Fin 3) : Decidable (DoubleGang l s) :=
  inferInstanceAs (Decidable (_ ∧ _))

/-- The test of the source never finds two kongs of Tong. -/
lemma checkDBEWaring_iff (l : List MJPile) : checkDBEWaring (tally l) = true ↔
    (tally l).fengNum = 0 ∧ ∃ s, s ≠ 2 ∧ DoubleGang l s := by
  have hor : (∃ s : Fin 3, s ≠ 2 ∧ DoubleGang l s) ↔ DoubleGang l 0 ∨ DoubleGang l 1 := by
    constructor
    · rintro ⟨s, hs, h⟩
      fin_cases s
      exacts [Or.inl h, Or.inr h, absurd rfl hs]
    · rintro (h | h)
      exacts [⟨0, by decide, h⟩, ⟨1, by decide, h⟩]
  have hwan : DoubleGang l 0 ↔ (tally l).wanGangNum = 2 ∧ (tally l).wanPengNum = 0 := Iff.rfl
  have htiao : DoubleGang l 1 ↔ (tally l).tiaoGangNum = 2 ∧ (tally l).tiaoPengNum = 0 := Iff.rfl
  rw [hor, hwan, htiao]
  simp only [checkDBEWaring, Bool.and_eq_true, Bool.or_eq_true, beq_iff_eq]
  omega

/-- The condition: honours are exposed; or, if one suit alone has two kongs and no triplet, the
permutation does not move it to or from Tong. -/
def Balanced (σ : Equiv.Perm (Fin 3)) (l : List MJPile) : Prop :=
  0 < (tally l).fengNum ∨
    ∀ s, DoubleGang l s → (∀ s', DoubleGang l s' → s' = s) → (s = 2 ↔ σ s = 2)

instance instDecidableBalanced (σ : Equiv.Perm (Fin 3)) (l : List MJPile) :
    Decidable (Balanced σ l) := inferInstanceAs (Decidable (_ ∨ _))

/-- Bytes that are no tiles fit with none. -/
lemma isValid_of_near (h : near b c = true) : MJCard.isValid b = true := by
  by_contra hb
  simp only [near, suit, point, hb, if_false, Bool.and_eq_true, beq_iff_eq, bne_iff_ne] at h
  by_cases hc : MJCard.isValid c = true
  · have hle : c / 10 ≤ 6 := by
      unfold MJCard.isValid at hc
      by_contra hgt
      have h2 : ¬c / 10 ≤ 2 := by omega
      have h3 : c / 10 ≠ 3 ∧ c / 10 ≠ 4 ∧ c / 10 ≠ 5 ∧ c / 10 ≠ 6 := by omega
      simp [h2, h3] at hc
    rw [if_pos hc] at h
    omega
  · simp [hc] at h

lemma near_comm (b c : ℕ) : near b c = near c b := by
  have habs : ((point b : ℤ) - point c).natAbs = ((point c : ℤ) - point b).natAbs := by omega
  simp only [near, habs, Bool.beq_comm (a := suit b), bne, Bool.beq_comm (a := point b)]

/-- Two tiles of one suit that fit stay so. -/
lemma near_swapTile (b c : ℕ) : near (swapTile σ b) (swapTile σ c) = near b c := by
  by_cases hb : MJCard.isValid b = true
  · by_cases hc : MJCard.isValid c = true
    · have hsuit : (suit (swapTile σ b) == suit (swapTile σ c)) = (suit b == suit c) := by
        rw [Bool.eq_iff_iff, beq_iff_eq, beq_iff_eq]
        exact suit_swapTile σ hb hc
      simp only [near, hsuit, point_swapTile]
    · rw [near_comm, near_comm b, Bool.eq_iff_iff]
      refine iff_of_false (fun h => hc ?_) fun h => hc (isValid_of_near h)
      exact (isValid_swapTile σ c).symm.trans (isValid_of_near h)
  · rw [Bool.eq_iff_iff]
    refine iff_of_false (fun h => hb ?_) fun h => hb (isValid_of_near h)
    exact (isValid_swapTile σ b).symm.trans (isValid_of_near h)

/-- The tiles shown, counted after the permutation. -/
lemma checkCardOutNum_swapTile (shown : ℕ → ℕ) (hb : MJCard.isValid b = true) :
    CheckCardOutNum (fun t => shown (swapTile σ.symm t)) (swapTile σ b) =
      CheckCardOutNum shown b := by
  have hne : ∀ x, MJCard.isValid x = true → 10 ≠ x := by
    rintro x hx rfl
    exact absurd hx (by decide)
  rw [CheckCardOutNum, CheckCardOutNum, if_neg (hne b hb),
    if_neg (hne _ ((isValid_swapTile σ b).trans hb)), swapTile_symm]

lemma checkDSHWaring_swapPile (hl : Laid l) (shown : ℕ → ℕ) :
    checkDSHWaring (l.map (swapPile σ)) (fun t => shown (swapTile σ.symm t)) =
      checkDSHWaring l shown := by
  have hpair : ∀ v u : MJPile, v ∈ l → u ∈ l → near (first v) (first u) = true →
      CheckCardOutNum (fun t => shown (swapTile σ.symm t)) (first (swapPile σ v)) =
          CheckCardOutNum shown (first v) ∧
        CheckCardOutNum (fun t => shown (swapTile σ.symm t)) (first (swapPile σ u)) =
          CheckCardOutNum shown (first u) := by
    intro v u hv hu h
    rw [first_swapPile σ (hl v hv).1, first_swapPile σ (hl u hu).1]
    exact ⟨checkCardOutNum_swapTile σ shown (isValid_of_near h),
      checkCardOutNum_swapTile σ shown (isValid_of_near ((near_comm _ _).trans h))⟩
  have hnear : ∀ v u : MJPile, v ∈ l → u ∈ l →
      near (first (swapPile σ v)) (first (swapPile σ u)) = near (first v) (first u) := by
    intro v u hv hu
    rw [first_swapPile σ (hl v hv).1, first_swapPile σ (hl u hu).1, near_swapTile]
  rw [Bool.eq_iff_iff]
  simp only [checkDSHWaring, List.any_eq_true, List.mem_map, exists_exists_and_eq_and,
    Bool.and_eq_true, decide_eq_true_eq, beq_iff_eq]
  refine exists_congr fun v => and_congr_right fun hv => ?_
  constructor
  · rintro ⟨⟨hv4, hvp⟩, u, hu, ⟨hu4, hup⟩, hn⟩
    rw [hnear v u hv hu] at hn
    obtain ⟨h1, h2⟩ := hpair v u hv hu hn
    exact ⟨⟨h1 ▸ hv4, hvp⟩, u, hu, ⟨h2 ▸ hu4, hup⟩, hn⟩
  · rintro ⟨⟨hv4, hvp⟩, u, hu, ⟨hu4, hup⟩, hn⟩
    obtain ⟨h1, h2⟩ := hpair v u hv hu hn
    exact ⟨⟨h1 ▸ hv4, hvp⟩, u, hu, ⟨h2 ▸ hu4, hup⟩, (hnear v u hv hu).trans hn⟩

/-! ### The seats -/

lemma checkSZB_swapPile (myPos : Seat) (l : List MJPile) :
    checkSZB myPos (l.map (swapPile σ)) = checkSZB myPos l := by
  rcases l with _ | ⟨v₁, _ | ⟨v₂, _ | ⟨v₃, _ | ⟨v₄, _ | ⟨v₅, l⟩⟩⟩⟩⟩
  all_goals rfl

lemma spf_swapPile (myPos : Seat) (l : List MJPile) :
    spf myPos (l.map (swapPile σ)) = spf myPos l := by
  have htb : tbFrom (l.map (swapPile σ)) = tbFrom l := by
    rw [tbFrom, List.foldlM_map]
    rfl
  rw [spf, checkSPFWaring, checkSZB_swapPile, htb, List.length_map]
  rfl

/-- **Wuhu warnings and the suits.** A permutation of the suits leaves the warnings on fresh data as
they are if and only if it is balanced: the test for two kongs of one suit is blind to Tong.

**Proof sketch.** The counters of a suit move with it (`pengNum_swapPile`, `gangNum_swapPile`), so
that the tests which ask for some suit do not change (`exists_suit_swap`). The test for two kongs
asks for a suit other than Tong (`checkDBEWaring_iff`). -/
theorem suits_alike_iff (hl : Laid l) (myPos : Seat) (shown : ℕ → ℕ) :
    (∀ w, Warns myPos (l.map (swapPile σ)) (fun t => shown (swapTile σ.symm t)) w ↔
      Warns myPos l shown w) ↔ Balanced σ l := by
  have hl' : Laid (l.map (swapPile σ)) := by
    intro pile hp
    obtain ⟨v, hv, rfl⟩ := List.mem_map.mp hp
    exact ⟨by simpa [swapPile] using (hl v hv).1, (hl v hv).2⟩
  have hgang := gangNum_swapPile σ hl
  have hpeng := pengNum_swapPile σ hl
  have hdouble : ∀ s, DoubleGang (l.map (swapPile σ)) (σ s) ↔ DoubleGang l s := by
    intro s
    rw [DoubleGang, hgang, hpeng]
    rfl
  -- all other warnings stay
  have hrest : ∀ w, w ≠ .dbe → (Warns myPos (l.map (swapPile σ))
      (fun t => shown (swapTile σ.symm t)) w ↔ Warns myPos l shown w) := by
    intro w hw
    rw [checkWaring_fresh hl', checkWaring_fresh hl]
    cases w with
    | hys =>
      simp only [applies, checkHYSWaring_iff, fengNum_swapPile σ hl, nMax_swapPile σ hl]
      refine and_congr_right fun _ => exists_suit_swap σ fun s => ?_
      rw [hgang, hpeng]
    | qys =>
      simp only [applies, checkQYSWaring_iff, nMax_swapPile σ hl]
      refine and_congr_right fun _ => exists_suit_swap σ fun s => ?_
      rw [hgang, hpeng]
    | dbe => exact absurd rfl hw
    | dsh => rw [applies, applies, checkDSHWaring_swapPile σ hl]
    | sdy => rw [applies, applies, spf_swapPile]
    | sdz => rw [applies, applies, checkSZB_swapPile]
  have hall : (∀ w, Warns myPos (l.map (swapPile σ)) (fun t => shown (swapTile σ.symm t)) w ↔
      Warns myPos l shown w) ↔ (Warns myPos (l.map (swapPile σ))
        (fun t => shown (swapTile σ.symm t)) .dbe ↔ Warns myPos l shown .dbe) := by
    refine ⟨fun h => h .dbe, fun h w => ?_⟩
    by_cases hw : w = .dbe
    · exact hw ▸ h
    · exact hrest w hw
  -- after the permutation the test is blind to the suit that goes to Tong
  have hmoved : (∃ s, s ≠ 2 ∧ DoubleGang (l.map (swapPile σ)) s) ↔
      ∃ s, σ s ≠ 2 ∧ DoubleGang l s :=
    exists_suit_swap σ fun s => by rw [hdouble]
  rw [hall, checkWaring_fresh hl', checkWaring_fresh hl, applies, applies, checkDBEWaring_iff,
    checkDBEWaring_iff, fengNum_swapPile σ hl, hmoved, Balanced]
  rcases Nat.eq_zero_or_pos (tally l).fengNum with hf | hf
  · simp only [hf, lt_irrefl, true_and, false_or]
    constructor
    · intro h s hs hone
      constructor
      · intro hs2
        by_contra hσ
        obtain ⟨u, hu, hdu⟩ := h.mp ⟨s, hσ, hs⟩
        exact hu ((hone u hdu).trans hs2)
      · intro hσ
        by_contra hs2
        obtain ⟨u, hu, hdu⟩ := h.mpr ⟨s, hs2, hs⟩
        exact hu (hone u hdu ▸ hσ)
    · intro h
      -- two suits with two kongs each: one of them is not Tong
      have htwo : ∀ s, DoubleGang l s → ∀ τ : Equiv.Perm (Fin 3),
          (¬∀ s', DoubleGang l s' → s' = s) → ∃ u, τ u ≠ 2 ∧ DoubleGang l u := by
        intro s hs τ hone
        push Not at hone
        obtain ⟨u, hu, hne⟩ := hone
        by_cases hτ : τ s = 2
        · exact ⟨u, fun hτu => hne (τ.injective (hτu.trans hτ.symm)), hu⟩
        · exact ⟨s, hτ, hs⟩
      constructor
      · rintro ⟨s, hσ, hs⟩
        by_cases hone : ∀ s', DoubleGang l s' → s' = s
        · exact ⟨s, fun hs2 => hσ ((h s hs hone).mp hs2), hs⟩
        · exact htwo s hs (Equiv.refl _) hone
      · rintro ⟨s, hs2, hs⟩
        by_cases hone : ∀ s', DoubleGang l s' → s' = s
        · exact ⟨s, fun hσ => hs2 ((h s hs hone).mpr hσ), hs⟩
        · exact htwo s hs σ hone
  · have hne : (tally l).fengNum ≠ 0 := hf.ne'
    simp [hne, hf]

end Swap

/-- Two kongs of Tong. -/
def tongKongs : List MJPile :=
  [⟨[21, 21, 21, 21], .mg, some 1⟩, ⟨[25, 25, 25, 25], .ag, some 0⟩]

/-- The warning of two kongs does not change when Wan and Tiao change places. -/
theorem tongKongs_balanced :
    Warns 0 (tongKongs.map (swapPile (Equiv.swap 0 1))) (fun _ => 4) .dbe ↔
      Warns 0 tongKongs (fun _ => 4) .dbe :=
  (suits_alike_iff (Equiv.swap 0 1) (by simp [Laid, tongKongs]) 0 fun _ => 4).mpr
    (by decide +kernel) .dbe

/-- The same two kongs of Wan are warned of, those of Tong are not. -/
theorem tongKongs_unwarned :
    Warns 0 (tongKongs.map (swapPile (Equiv.swap 0 2))) (fun _ => 4) .dbe ∧
      ¬Warns 0 tongKongs (fun _ => 4) .dbe := by
  have hlaid : Laid tongKongs := by simp [Laid, tongKongs]
  have hlaid' : Laid (tongKongs.map (swapPile (Equiv.swap 0 2))) := by
    simp [Laid, tongKongs, swapPile]
  rw [checkWaring_fresh hlaid, checkWaring_fresh hlaid']
  decide +kernel

end Wuhu
