import JsmjServer.Mahjong.MJPlayer

set_option relaxedAutoImplicit false
set_option autoImplicit false

/-!
# Who is liable for a win in nanjing mahjong

`CountHuType:calulateBaoPai` of `nanjingmj/CountHuType.lua` looks for the seat that has to pay for a
win alone, by six rules in order of priority. The module puts them beside the rules as they are
meant, for every winner that has come to its piles by playing.

Two of the six go wrong. The second takes the last exposed pile for the kong whose replacement tile
has won; the kong may be concealed, or an exposed triplet of earlier that has been added to. The
sixth counts the suits of which a running total of tiles is positive, so that only honours are of
one suit.

## Main definitions

* `Nanjing.BaoPai.calulateBaoPai` — the six rules of the code.
* `Nanjing.BaoPai.Winner`, `Nanjing.BaoPai.run` — a winner, and how it has played.
* `Nanjing.BaoPai.Winner.liable` — the seat that is liable by the rules.
* `Nanjing.BaoPai.Winner.Agrees` — when the two slips do not matter.

## Main results

* `Nanjing.BaoPai.sound_run` — what is known of a winner.
* `Nanjing.BaoPai.calulateBaoPai_iff` — exactly when the code finds the liable seat.
-/

namespace Nanjing.BaoPai

open Mahjong

/-! ### The program -/

/-- The suit of a tile, `7` for a byte that is none. -/
def suit (byte : ℕ) : ℕ := if MJCard.isValid byte then byte / 10 else 7

/-- `MJPlayer:getSuitCountInPile`. -/
def getSuitCountInPile (pileList : List MJPile) (s : ℕ) : ℕ :=
  (pileList.map fun pile => pile.cardList.countP fun t => suit t = s).sum

/-- The fields of `CountHuType` that are read: the kind of the room, the piles and the history of
the player, and what `setParams` is told about the win. -/
structure CountHuType where
  isJYZ : Bool
  pileList : List MJPile
  opHistoryList : List Oper
  isQiangGang : Bool
  fangPaoPos : Option Seat

/-- The fields of `CountHuType` that are written. -/
structure Assigned where
  isBaoPai : Bool
  baoPaiPos : Option Seat
  isAutoHu : Bool

/-- One of the three kongs. -/
def isGang (o : Oper) : Bool := o = .mg || o = .ag || o = .mxg

/-- `CountHuType:isGangKai`: the last operation but one is a kong. -/
def isGangKai (opHistoryList : List Oper) : Bool :=
  1 < opHistoryList.length && isGang (opHistoryList.getD (opHistoryList.length - 2) .null)

section Rules

variable (t : CountHuType) (noAnGangPileList : List MJPile) (fromList : List Seat)
  (anGangCount : ℕ) (b : Assigned)

/-- `CountHuType:baoPao1`: the kong has been robbed. -/
def baoPao1 : Option Assigned :=
  if t.isQiangGang then some { b with isBaoPai := true, baoPaiPos := t.fangPaoPos } else none

/-- `CountHuType:baoPao2`: the replacement tile of a kong. -/
def baoPao2 : Option Assigned :=
  if isGangKai t.opHistoryList then
    match noAnGangPileList.getLast? with
    | some pile =>
      if pile.operType = .mxg ∨ pile.operType = .mg then
        some { b with isBaoPai := true, baoPaiPos := pile.fromPos }
      else none
    | none => none
  else none

/-- `CountHuType:baoPao3`: three in succession. -/
def baoPao3 : Option Assigned :=
  if 3 ≤ noAnGangPileList.length then
    if fromList[0]? = fromList[1]? ∧ fromList[1]? = fromList[2]? then
      some ⟨true, fromList[0]?, if t.pileList.length = 4 then true else b.isAutoHu⟩
    else if noAnGangPileList.length = 4 then
      if fromList[2]? = fromList[3]? ∧ fromList[1]? = fromList[2]? then
        some ⟨true, fromList[1]?, true⟩
      else none
    else none
  else none

/-- `CountHuType:baoPao4`: two concealed kongs and an exposed pile. -/
def baoPao4 : Option Assigned :=
  if 2 ≤ anGangCount ∧ 0 < noAnGangPileList.length then
    some ⟨true, noAnGangPileList[0]?.bind MJPile.fromPos,
      if t.pileList.length = 4 then true else b.isAutoHu⟩
  else none

/-- `CountHuType:baoPao5`: a concealed kong and two exposed piles from one seat. -/
def baoPao5 : Option Assigned :=
  let isAutoHu := if t.pileList.length = 4 then true else b.isAutoHu
  if anGangCount < 1 then none
  else if fromList.length = 2 then
    if fromList[0]? = fromList[1]? then some ⟨true, fromList[0]?, isAutoHu⟩ else none
  else if fromList.length = 3 then
    if fromList[0]? = fromList[1]? ∨ fromList[0]? = fromList[2]? then
      some ⟨true, fromList[0]?, isAutoHu⟩
    else if fromList[1]? = fromList[2]? then some ⟨true, fromList[1]?, isAutoHu⟩
    else none
  else none

/-- The list `suitCountList`: `suitCount` is not set back to zero between the suits. -/
def suitCountList (pileList : List MJPile) : ℕ → List ℕ → List ℕ
  | _, [] => []
  | suitCount, s :: suits =>
    let suitCount := suitCount + getSuitCountInPile pileList s
    suitCount :: suitCountList pileList suitCount suits

/-- `CountHuType:baoPao6`: four exposed piles of one suit. -/
def baoPao6 : Option Assigned :=
  if noAnGangPileList.length = 4 then
    if (suitCountList t.pileList 0 [0, 1, 2, 3]).countP (0 < ·) = 1 then
      some { b with isBaoPai := true, baoPaiPos := fromList[3]? }
    else none
  else none

end Rules

/-- `CountHuType:calulateBaoPai`. -/
def calulateBaoPai (t : CountHuType) (isAutoHu : Bool) : Assigned :=
  let b : Assigned := ⟨false, none, isAutoHu⟩
  if t.isJYZ then b
  else
    let noAnGangPileList := t.pileList.filter fun v => v.operType ≠ .ag
    let fromList := noAnGangPileList.filterMap MJPile.fromPos
    let anGangCount := t.pileList.length - noAnGangPileList.length
    (baoPao1 t b <|> baoPao2 t noAnGangPileList b <|> baoPao3 t noAnGangPileList fromList b <|>
      baoPao4 t noAnGangPileList anGangCount b <|> baoPao5 t fromList anGangCount b <|>
        baoPao6 t noAnGangPileList fromList b).getD b

/-! ### How a winner has played -/

/-- Thirteen tiles. -/
structure Hand where
  tiles : List ℕ
  length_eq : tiles.length = 13
  valid : ∀ t ∈ tiles, MJCard.isValid t = true

/-- A player with its history. `replaced` is the kong whose replacement tile it has just got; the
program does not remember it. -/
structure Winner where
  player : MJPlayer
  opHistoryList : List Oper
  replaced : Option MJPile

/-- What a player does, with the tile it then gets for a kong or for a flower. -/
inductive Deed
  | newCard (byteCard : ℕ)
  | peng (byteCard : ℕ) (grabedPos : Seat)
  | gang (byteCard : ℕ) (grabedPos : Seat) (next : ℕ)
  | anGang (byteCard : ℕ) (pos : Seat) (next : ℕ)
  | mxGang (byteCard : ℕ) (next : ℕ)
  | play (byteCard : ℕ)
  | buHua (next : ℕ)

namespace Winner

/-- A player that has its tiles. -/
def start (hand : Hand) : Winner := ⟨{ MJPlayer.new with cardList := hand.tiles }, [], none⟩

/-- The part of `GamePlaying:giveNewCard` for the player. -/
def giveNewCard (w : Winner) (byteCard : ℕ) : Winner :=
  { w with
    player := w.player.addNewCard byteCard
    opHistoryList := w.opHistoryList ++ [.newCard] }

/-- An operation of the player that is recorded in its history. -/
def record (w : Winner) (player : MJPlayer) (replaced : Option MJPile) : Winner :=
  ⟨player, w.opHistoryList ++ [player.justDoOper], replaced⟩

/-- A deed; what the player cannot do has no effect. -/
def act (w : Winner) : Deed → Winner
  | .newCard byteCard =>
    if !w.player.hasNewCard && MJCard.isValid byteCard then
      { w with replaced := none }.giveNewCard byteCard
    else w
  | .peng byteCard grabedPos =>
    let r := w.player.doPeng byteCard grabedPos
    if r.1 then w.record r.2 none else w
  | .gang byteCard grabedPos next =>
    let r := w.player.doGang byteCard grabedPos
    if r.1 && MJCard.isValid next then (w.record r.2 r.2.pileList.getLast?).giveNewCard next else w
  | .anGang byteCard pos next =>
    let r := w.player.doAnGang byteCard pos
    if r.1 && MJCard.isValid next then (w.record r.2 r.2.pileList.getLast?).giveNewCard next else w
  | .mxGang byteCard next =>
    let r := w.player.doMXGang byteCard
    if r.1 && MJCard.isValid next then
      (w.record r.2 ((MJPlayer.addToPile byteCard w.player.pileList).map Prod.fst)).giveNewCard next
    else w
  | .play byteCard =>
    let r := w.player.doPlayCard byteCard
    if r.1 then w.record r.2 none else w
  | .buHua next =>
    if w.player.hasNewCard && MJCard.isValid next then
      let player := w.player.addHua w.player.newCard
      ({ w.record player none with player := (player.delNewCard w.player.newCard).2 }).giveNewCard
        next
    else w

end Winner

/-- A player after its deeds. -/
def run (hand : Hand) (deeds : List Deed) : Winner := deeds.foldl Winner.act (.start hand)

/-! ### The rules as they are meant -/

/-- The seat of three successive entries. -/
def inARow : List Seat → Option Seat
  | a :: b :: c :: rest => if a = b ∧ b = c then some a else inARow (b :: c :: rest)
  | _ => none

/-- All tiles of the piles are of one suit. -/
def OneSuit (piles : List MJPile) : Prop := ∃ s < 8, ∀ p ∈ piles, ∀ t ∈ p.cardList, suit t = s

instance (piles : List MJPile) : Decidable (OneSuit piles) :=
  inferInstanceAs (Decidable (∃ s < 8, _))

namespace Winner

variable (w : Winner)

/-- The exposed piles. -/
def exposed : List MJPile := w.player.pileList.filter fun p => p.operType ≠ .ag

/-- The seats from which they have come. -/
def feeders : List Seat := w.exposed.filterMap MJPile.fromPos

/-- The number of concealed kongs. -/
def concealed : ℕ := w.player.pileList.countP fun p => p.operType = .ag

/-- The third rule and the following; `OneSuit` is the test of the sixth. -/
def laterRules (test : List MJPile → Prop) [DecidablePred test] : Option Seat :=
  inARow w.feeders <|>
    (if 2 ≤ w.concealed then w.feeders.head? else none) <|>
    (if 1 ≤ w.concealed then w.feeders.find? fun s => 2 ≤ w.feeders.count s else none) <|>
    (if w.exposed.length = 4 ∧ test w.exposed then w.feeders[3]? else none)

/-- The seat that is liable; `robbed` is the seat whose kong has been robbed, if it has been. -/
def liable (robbed : Option Seat) : Option Seat :=
  robbed <|> w.replaced.bind (fun kong => if kong.operType ≠ .ag then kong.fromPos else none) <|>
    w.laterRules OneSuit

/-- What the program knows of the winner; `fangPaoPos` is the seat that has discarded, if no kong
has been robbed. -/
def countHuType (robbed fangPaoPos : Option Seat) : CountHuType :=
  ⟨false, w.player.pileList, w.opHistoryList, robbed.isSome, robbed <|> fangPaoPos⟩

end Winner

/-- All tiles are honours, up to flowers, which cannot be claimed. -/
def Honours (piles : List MJPile) : Prop :=
  (∃ p ∈ piles, ∃ t ∈ p.cardList, suit t = 3) ∧ ∀ p ∈ piles, ∀ t ∈ p.cardList, 3 ≤ suit t

instance (piles : List MJPile) : Decidable (Honours piles) :=
  inferInstanceAs (Decidable (_ ∧ _))

/-- The slips of the code do not matter: after a concealed kong the last exposed pile is no kong,
after an exposed one it is that kong, and four exposed piles of one suit are honours. The exceptions
are accidents: the other seat is the same. -/
structure Winner.Agrees (w : Winner) : Prop where
  concealed : ∀ kong, w.replaced = some kong → kong.operType = .ag →
    ∀ p, w.exposed.getLast? = some p → isGang p.operType → w.laterRules OneSuit = p.fromPos
  fed : ∀ kong, w.replaced = some kong → kong.operType ≠ .ag →
    ∀ p, w.exposed.getLast? = some p →
      (if isGang p.operType then p.fromPos else w.laterRules Honours) = kong.fromPos
  suits : (∀ kong, w.replaced = some kong → kong.operType = .ag ∧
      ∀ p, w.exposed.getLast? = some p → isGang p.operType = false) →
    w.exposed.length = 4 → inARow w.feeders = none → (OneSuit w.exposed ↔ Honours w.exposed)

/-! ### The single rules -/

section Rules

variable {t : CountHuType} {piles : List MJPile} {froms : List Seat} {n : ℕ} {b : Assigned}

lemma baoPao3_pos (hlen : froms.length = piles.length) (h4 : piles.length ≤ 4) :
    (baoPao3 t piles froms b).map Assigned.baoPaiPos = (inARow froms).map some := by
  unfold baoPao3
  rw [← hlen] at h4 ⊢
  match froms with
  | [] => rfl
  | [_] => rfl
  | [_, _] => rfl
  | [x, y, z] => by_cases h : x = y ∧ y = z <;> simp [inARow, h]
  | [x, y, z, u] =>
    by_cases h : x = y ∧ y = z
    · simp [inARow, h]
    · by_cases h' : y = z ∧ z = u
      · obtain ⟨rfl, rfl⟩ := h'
        have hne : x ≠ y := fun he => h ⟨he, rfl⟩
        simp [inARow, hne]
      · have hcode : ¬(z = u ∧ y = z) := fun hc => h' hc.symm
        simp [inARow, h, h', hcode]
  | _ :: _ :: _ :: _ :: _ :: _ =>
    simp only [List.length_cons] at h4
    omega

lemma baoPao4_pos (hmap : froms.map some = piles.map MJPile.fromPos) :
    (baoPao4 t piles n b).map Assigned.baoPaiPos =
      (if 2 ≤ n then froms.head? else none).map some := by
  unfold baoPao4
  cases piles with
  | nil =>
    have hnil : froms = [] := by simpa using hmap
    simp [hnil]
  | cons p piles =>
    cases froms with
    | nil => simp at hmap
    | cons s froms =>
      obtain ⟨hs, -⟩ := List.cons.inj hmap
      by_cases hn : 2 ≤ n
      · simp [hn, ← hs]
      · simp [hn]

lemma baoPao5_pos (h3 : 1 ≤ n → froms.length ≤ 3) :
    (baoPao5 t froms n b).map Assigned.baoPaiPos =
      (if 1 ≤ n then froms.find? fun s => 2 ≤ froms.count s else none).map some := by
  unfold baoPao5
  by_cases hn : 1 ≤ n
  · have hlt : ¬n < 1 := by omega
    have hle := h3 hn
    simp only [hlt, if_false, hn, if_true]
    match froms with
    | [] => rfl
    | [x] => simp
    | [x, y] =>
      by_cases h : x = y
      · simp [h]
      · simp [h, List.count_cons, Ne.symm h]
    | [x, y, z] =>
      by_cases hxy : x = y
      · simp [hxy]
      · by_cases hxz : x = z
        · simp [hxz, List.count_cons]
        · by_cases hyz : y = z
          · simp [hxz, hyz, List.count_cons, Ne.symm hxz]
          · simp [hxy, hxz, hyz, List.count_cons, Ne.symm hxy, Ne.symm hxz, Ne.symm hyz]
    | _ :: _ :: _ :: _ :: _ =>
      simp only [List.length_cons] at hle
      omega
  · have hlt : n < 1 := by omega
    simp [hlt, hn]

lemma getSuitCountInPile_eq_zero {s : ℕ} :
    getSuitCountInPile piles s = 0 ↔ ∀ p ∈ piles, ∀ t ∈ p.cardList, suit t ≠ s := by
  simp [getSuitCountInPile, List.sum_eq_zero_iff, List.countP_eq_zero]

/-- One running total is positive if only the last suit occurs. -/
lemma countP_suitCountList (piles : List MJPile) :
    (suitCountList piles 0 [0, 1, 2, 3]).countP (0 < ·) = 1 ↔
      (∀ s < 3, getSuitCountInPile piles s = 0) ∧ getSuitCountInPile piles 3 ≠ 0 := by
  have hthree : (∀ s < 3, getSuitCountInPile piles s = 0) ↔ getSuitCountInPile piles 0 = 0 ∧
      getSuitCountInPile piles 1 = 0 ∧ getSuitCountInPile piles 2 = 0 := by
    constructor
    · intro h
      exact ⟨h 0 (by omega), h 1 (by omega), h 2 (by omega)⟩
    · rintro ⟨h0, h1, h2⟩ s hs
      interval_cases s
      exacts [h0, h1, h2]
  rw [hthree]
  simp only [suitCountList, List.countP_cons, List.countP_nil, decide_eq_true_eq]
  split_ifs <;> omega

lemma honours_iff : Honours piles ↔
    (∀ s < 3, getSuitCountInPile piles s = 0) ∧ getSuitCountInPile piles 3 ≠ 0 := by
  have hsome : getSuitCountInPile piles 3 ≠ 0 ↔ ∃ p ∈ piles, ∃ t ∈ p.cardList, suit t = 3 := by
    rw [Ne, getSuitCountInPile_eq_zero]
    push Not
    rfl
  have hnone : (∀ s < 3, getSuitCountInPile piles s = 0) ↔
      ∀ p ∈ piles, ∀ t ∈ p.cardList, 3 ≤ suit t := by
    simp only [getSuitCountInPile_eq_zero]
    constructor
    · intro h p hp t ht
      by_contra hlt
      exact h (suit t) (by omega) p hp t ht rfl
    · intro h s hs p hp t ht heq
      have := h p hp t ht
      omega
  rw [hsome, hnone, and_comm]
  rfl

lemma baoPao6_pos (hpiles : piles.length = 4 → t.pileList = piles) :
    (baoPao6 t piles froms b).map Assigned.baoPaiPos =
      if piles.length = 4 ∧ Honours piles then some froms[3]? else none := by
  unfold baoPao6
  by_cases h4 : piles.length = 4
  · rw [hpiles h4]
    by_cases hh : Honours piles
    · have hc := (countP_suitCountList piles).mpr (honours_iff.mp hh)
      simp [h4, hh, hc]
    · have hc : ¬(suitCountList piles 0 [0, 1, 2, 3]).countP (0 < ·) = 1 := fun hc =>
        hh (honours_iff.mpr ((countP_suitCountList piles).mp hc))
      simp [h4, hh, hc]
  · simp [h4]

end Rules

/-! ### All rules -/

namespace Winner

/-- What is known of a player that has come to its piles by playing. -/
structure Sound (w : Winner) : Prop where
  player : w.player.Sound
  last : ∀ o, w.opHistoryList.getLast? = some o → isGang o = false
  gangKai : isGangKai w.opHistoryList = w.replaced.isSome
  mem : ∀ kong, w.replaced = some kong → kong ∈ w.player.pileList

section Piles

variable {w : Winner}

lemma Sound.length_le (hs : w.Sound) : w.player.pileList.length ≤ 4 := by
  have := hs.player.size
  omega

lemma Sound.isSome_fromPos (hs : w.Sound) {v : MJPile} (hv : v ∈ w.player.pileList) :
    v.fromPos.isSome := by
  cases hs.player.formed v hv <;> rfl

lemma length_exposed (w : Winner) : w.concealed + w.exposed.length = w.player.pileList.length := by
  unfold concealed exposed
  rw [← List.countP_eq_length_filter]
  have := w.player.pileList.length_eq_countP_add_countP fun p => p.operType = .ag
  simp only [decide_not] at this ⊢
  simpa using this.symm

lemma Sound.feeders_map (hs : w.Sound) :
    w.feeders.map some = w.exposed.map MJPile.fromPos := by
  have hall : ∀ v ∈ w.exposed, v.fromPos.isSome := fun v hv =>
    hs.isSome_fromPos (List.mem_of_mem_filter hv)
  unfold feeders
  generalize w.exposed = l at hall ⊢
  induction l with
  | nil => rfl
  | cons v l ih =>
    obtain ⟨s, hv⟩ := Option.isSome_iff_exists.mp (hall v (by simp))
    have htail := ih fun u hu => hall u (by simp [hu])
    simp [hv, htail]

lemma Sound.length_feeders (hs : w.Sound) : w.feeders.length = w.exposed.length := by
  simpa using congrArg List.length hs.feeders_map

lemma pileList_eq_exposed (h4 : w.player.pileList.length ≤ 4) (h : w.exposed.length = 4) :
    w.player.pileList = w.exposed := by
  have hlen := w.length_exposed
  symm
  apply List.filter_eq_self.mpr
  apply List.length_filter_eq_length_iff.mp
  change w.exposed.length = _
  omega

/-- With four exposed piles there is no concealed one. -/
lemma Sound.concealed_eq_zero (hs : w.Sound) (h : w.exposed.length = 4) : w.concealed = 0 := by
  have hlen := w.length_exposed
  have hle := hs.length_le
  omega

/-- The rules of the code after the second. -/
lemma Sound.rules_pos (hs : w.Sound) {t : CountHuType} (ht : t.pileList = w.player.pileList)
    (b : Assigned) :
    (baoPao3 t w.exposed w.feeders b <|> baoPao4 t w.exposed w.concealed b <|>
        baoPao5 t w.feeders w.concealed b <|> baoPao6 t w.exposed w.feeders b).map
      Assigned.baoPaiPos = (w.laterRules Honours).map some := by
  have hlen := hs.length_feeders
  have hle := hs.length_le
  have hsum := w.length_exposed
  have h3 := baoPao3_pos (t := t) (b := b) hlen (by omega)
  have h4 := baoPao4_pos (t := t) (n := w.concealed) (b := b) hs.feeders_map
  have hfive : 1 ≤ w.concealed → w.feeders.length ≤ 3 := fun hn => by omega
  have hsix : w.exposed.length = 4 → t.pileList = w.exposed := fun h =>
    ht.trans (pileList_eq_exposed hle h)
  have h5 := baoPao5_pos (t := t) (b := b) hfive
  have h6 : (baoPao6 t w.exposed w.feeders b).map Assigned.baoPaiPos = _ := baoPao6_pos hsix
  have hfourth : (if w.exposed.length = 4 ∧ Honours w.exposed then some w.feeders[3]? else none) =
      (if w.exposed.length = 4 ∧ Honours w.exposed then w.feeders[3]? else none).map some := by
    split_ifs with h
    · have hlt : 3 < w.feeders.length := by omega
      simp [hlt]
    · rfl
  rw [hfourth] at h6
  simp only [Option.orElse_eq_orElse, Option.orElse_eq_or, Option.map_or, h3, h4, h5, h6,
    laterRules]

/-- The two tests of the sixth rule make no difference unless they are reached. -/
lemma Sound.laterRules_eq_iff (hs : w.Sound) : w.laterRules Honours = w.laterRules OneSuit ↔
    (w.exposed.length = 4 → inARow w.feeders = none →
      (OneSuit w.exposed ↔ Honours w.exposed)) := by
  unfold laterRules
  cases hrow : inARow w.feeders with
  | some s => simp
  | none =>
    by_cases h4 : w.exposed.length = 4
    · have hzero := hs.concealed_eq_zero h4
      have hlt : 3 < w.feeders.length := by
        rw [hs.length_feeders, h4]
        omega
      by_cases hone : OneSuit w.exposed <;> by_cases hhon : Honours w.exposed <;>
        simp [hzero, h4, hone, hhon, hlt]
    · simp [h4]

end Piles

/-! ### A player while it plays -/

section Play

variable {w : Winner}

lemma isGangKai_append (l : List Oper) (o : Oper) :
    isGangKai (l ++ [o]) = l.getLast?.any isGang := by
  induction l using List.reverseRecOn with
  | nil => rfl
  | append_singleton l a _ =>
    simp [isGangKai, List.getD_eq_getElem?_getD]

/-- The start of the game. -/
lemma sound_start (hand : Hand) : (start hand).Sound where
  player := by
    refine ⟨by simp [start, MJPlayer.new, hand.length_eq], by simp [start, MJPlayer.new], ?_⟩
    intro t ht
    apply hand.valid
    simpa [MJPlayer.tiles, start, MJPlayer.new] using ht
  last := by simp [start]
  gangKai := rfl
  mem := by simp [start]

/-- A tile is drawn in the usual way. -/
lemma Sound.newCard (hs : w.Sound) (hn : w.player.hasNewCard = false) {b : ℕ}
    (hv : MJCard.isValid b) : ({ w with replaced := none }.giveNewCard b).Sound := by
  obtain ⟨hplayer, -, -, -, -⟩ := MJPlayer.addNewCard_sound hs.player hn hv
  refine ⟨hplayer, by simp [giveNewCard, isGang], ?_, by simp [giveNewCard]⟩
  simp only [giveNewCard, isGangKai_append, Option.isSome_none]
  cases hlast : w.opHistoryList.getLast? with
  | none => rfl
  | some o => simpa using hs.last o hlast

/-- An operation that is no kong is recorded. -/
lemma Sound.record (hs : w.Sound) {q : MJPlayer} (hq : q.Sound) (ho : isGang q.justDoOper = false) :
    (w.record q none).Sound := by
  refine ⟨hq, by simpa [Winner.record] using ho, ?_, by simp [Winner.record]⟩
  simp only [Winner.record, isGangKai_append, Option.isSome_none]
  cases hlast : w.opHistoryList.getLast? with
  | none => rfl
  | some o => simpa using hs.last o hlast

/-- A kong is recorded, and its replacement tile is drawn. -/
lemma sound_replace (w : Winner) {q : MJPlayer} (hq : q.Sound) (hn : q.hasNewCard = false)
    (ho : isGang q.justDoOper) {kong : MJPile} (hk : kong ∈ q.pileList) {b : ℕ}
    (hv : MJCard.isValid b) : ((w.record q (some kong)).giveNewCard b).Sound := by
  obtain ⟨hplayer, -, -, -, hpiles⟩ := MJPlayer.addNewCard_sound hq hn hv
  refine ⟨hplayer, by simp [giveNewCard, isGang], ?_, ?_⟩
  · simp only [giveNewCard, Winner.record]
    rw [isGangKai_append]
    simp [ho]
  · intro v hv
    have heq : kong = v := by simpa [giveNewCard, Winner.record] using hv
    change v ∈ (q.addNewCard b).pileList
    rw [hpiles, ← heq]
    exact hk

lemma Sound.peng (hs : w.Sound) {b : ℕ} {pos : Seat} (h : (w.player.doPeng b pos).1 = true) :
    (w.record (w.player.doPeng b pos).2 none).Sound := by
  have hc : w.player.canPeng b := by
    by_contra hne
    simp [MJPlayer.doPeng, eq_false_of_ne_true hne] at h
  have hcount : 2 ≤ w.player.cardList.count b := by
    simp only [MJPlayer.canPeng, Bool.and_eq_true, decide_eq_true_eq,
      MJPlayer.getCardCountInHand_false] at hc
    exact hc.2
  have hb : b ∈ w.player.cardList := List.count_pos_iff.mp (by omega)
  have hv := hs.player.valid b (MJPlayer.mem_tiles_of_mem_cardList hb)
  have hl : 2 < w.player.cardList.length := by
    have hle := List.count_le_length (a := b) (l := w.player.cardList)
    have hsize := hs.player.size
    omega
  obtain ⟨q, hdo, hq, -, -, hoper, -⟩ := MJPlayer.doPeng_sound pos hs.player hc hv hl
  rw [hdo]
  exact hs.record hq (by rw [hoper]; rfl)

lemma Sound.gang (hs : w.Sound) {b next : ℕ} {pos : Seat}
    (h : (w.player.doGang b pos).1 = true) (hv : MJCard.isValid next) :
    ((w.record (w.player.doGang b pos).2
      (w.player.doGang b pos).2.pileList.getLast?).giveNewCard next).Sound := by
  have hc : w.player.canGang b := by
    by_contra hne
    simp [MJPlayer.doGang, eq_false_of_ne_true hne] at h
  have hcount : 3 ≤ w.player.cardList.count b := by
    simp only [MJPlayer.canGang, Bool.and_eq_true, decide_eq_true_eq,
      MJPlayer.getCardCountInHand_false] at hc
    exact hc.2
  have hb : b ∈ w.player.cardList := List.count_pos_iff.mp (by omega)
  have hvb := hs.player.valid b (MJPlayer.mem_tiles_of_mem_cardList hb)
  obtain ⟨q, hdo, hq, -, hn, hpiles⟩ := MJPlayer.doGang_sound pos hs.player hc hvb
  obtain ⟨l, -, hspec⟩ := MJPlayer.doGang_spec pos hc hvb
  have hoper : q.justDoOper = .mg := by
    rw [hdo] at hspec
    rw [(Prod.mk.inj hspec).2]
  have hlast : q.pileList.getLast? = some ⟨[b, b, b, b], .mg, some pos⟩ := by
    rw [hpiles, List.getLast?_concat]
  rw [hdo, hlast]
  exact sound_replace w hq hn (by rw [hoper]; rfl) (List.mem_of_getLast? hlast) hv

lemma Sound.anGang (hs : w.Sound) {b next : ℕ} {pos : Seat}
    (h : (w.player.doAnGang b pos).1 = true) (hv : MJCard.isValid next) :
    ((w.record (w.player.doAnGang b pos).2
      (w.player.doAnGang b pos).2.pileList.getLast?).giveNewCard next).Sound := by
  have hnew : w.player.hasNewCard := by
    by_contra hne
    simp [MJPlayer.doAnGang, eq_false_of_ne_true hne] at h
  have hc : 4 ≤ w.player.getCardCountInHand b true := by
    by_contra hlt
    simp [MJPlayer.doAnGang, hnew, show w.player.getCardCountInHand b true < 4 by omega] at h
  have hvb : MJCard.isValid b := by
    rw [MJPlayer.getCardCountInHand_true] at hc
    have hmem : b ∈ w.player.newCard :: w.player.cardList := List.count_pos_iff.mp (by omega)
    apply hs.player.valid
    rw [MJPlayer.tiles_of_hasNewCard hnew, Multiset.mem_add, Multiset.mem_add]
    exact Or.inl (Or.inl hmem)
  obtain ⟨q, hdo, hq, -, hn, hpiles⟩ := MJPlayer.doAnGang_sound pos hs.player hnew hc
  obtain ⟨l, -, hspec⟩ := MJPlayer.doAnGang_spec pos hnew hc hvb
  have hoper : q.justDoOper = .ag := by
    rw [hdo] at hspec
    rw [(Prod.mk.inj hspec).2]
  have hlast : q.pileList.getLast? = some ⟨[b, b, b, b], .ag, some pos⟩ := by
    rw [hpiles, List.getLast?_concat]
  rw [hdo, hlast]
  exact sound_replace w hq hn (by rw [hoper]; rfl) (List.mem_of_getLast? hlast) hv

lemma exists_isPengOf {b : ℕ} {piles : List MJPile} {r : MJPile × List MJPile}
    (h : MJPlayer.addToPile b piles = some r) : ∃ v ∈ piles, MJPlayer.isPengOf b v := by
  induction piles generalizing r with
  | nil => simp [MJPlayer.addToPile] at h
  | cons v piles ih =>
    by_cases hv : MJPlayer.isPengOf b v
    · exact ⟨v, by simp, hv⟩
    · rw [MJPlayer.addToPile, if_neg hv, Option.map_eq_some_iff] at h
      obtain ⟨r, hr, -⟩ := h
      obtain ⟨u, hu, hpeng⟩ := ih hr
      exact ⟨u, by simp [hu], hpeng⟩

lemma Sound.mxGang (hs : w.Sound) {b next : ℕ} (h : (w.player.doMXGang b).1 = true)
    (hv : MJCard.isValid next) :
    ((w.record (w.player.doMXGang b).2
      ((MJPlayer.addToPile b w.player.pileList).map Prod.fst)).giveNewCard next).Sound := by
  have hnew : w.player.hasNewCard := by
    by_contra hne
    simp [MJPlayer.doMXGang, eq_false_of_ne_true hne] at h
  have hempty : w.player.pileList.isEmpty = false := by
    by_contra hne
    simp [MJPlayer.doMXGang, eq_true_of_ne_false hne] at h
  have hcount : ¬w.player.getCardCountInHand b true < 1 := by
    intro hlt
    simp [MJPlayer.doMXGang, hnew, hempty, hlt] at h
  have hmem : b ∈ w.player.newCard :: w.player.cardList := by
    rw [MJPlayer.getCardCountInHand_true] at hcount
    exact List.count_pos_iff.mp (by omega)
  obtain ⟨r, hadd⟩ : ∃ r, MJPlayer.addToPile b w.player.pileList = some r := by
    cases hadd : MJPlayer.addToPile b w.player.pileList with
    | none => simp [MJPlayer.doMXGang, hadd] at h
    | some r => exact ⟨r, rfl⟩
  have hpeng := exists_isPengOf hadd
  obtain ⟨pre, seat, post, -, hspec⟩ := MJPlayer.addToPile_spec hs.player.formed hpeng
  obtain ⟨q, hdo, hq, -, hn, -⟩ := MJPlayer.doMXGang_sound hs.player hnew hmem hpeng
  have hq' : q.justDoOper = .mxg ∧
      q.pileList = pre ++ ⟨[b, b, b, b], .mxg, some seat⟩ :: post := by
    simp only [MJPlayer.doMXGang, hnew, hempty, Bool.not_true, Bool.or_self, Bool.false_eq_true,
      if_false, hcount, hspec] at hdo
    rw [← (Prod.mk.inj hdo).2]
    exact ⟨rfl, rfl⟩
  rw [hdo, hspec]
  exact sound_replace w hq hn (by rw [hq'.1]; rfl) (by rw [hq'.2]; simp) hv

lemma Sound.play (hs : w.Sound) {b : ℕ} (h : (w.player.doPlayCard b).1 = true) :
    (w.record (w.player.doPlayCard b).2 none).Sound := by
  have hnew : w.player.hasNewCard := by
    by_contra hne
    simp [MJPlayer.doPlayCard, eq_false_of_ne_true hne] at h
  rcases MJPlayer.doPlayCard_sound (b := b) hs.player hnew with ⟨-, hdo⟩ | ⟨-, -, q, hdo, hq, -, -⟩
  · rw [hdo] at h
    exact absurd h (by simp)
  · have hoper : q.justDoOper = .play := by
      rcases MJPlayer.doPlayCard_spec (b := b) hnew with ⟨-, hspec⟩ | ⟨l, -, hspec⟩
      · rw [hspec] at h
        exact absurd h (by simp)
      · rw [hdo] at hspec
        rw [(Prod.mk.inj hspec).2]
    rw [hdo]
    exact hs.record hq (by rw [hoper]; rfl)

/-- A flower is put aside, and another tile is drawn for it. -/
lemma Sound.buHua (hs : w.Sound) (hnew : w.player.hasNewCard) {next : ℕ}
    (hv : MJCard.isValid next) :
    (({ w.record (w.player.addHua w.player.newCard) none with
        player := ((w.player.addHua w.player.newCard).delNewCard w.player.newCard).2 } :
      Winner).giveNewCard next).Sound := by
  obtain ⟨hq, -, -, hn⟩ := hs.player.buHua hnew
  have hrec : ({ w.record (w.player.addHua w.player.newCard) none with
      player := ((w.player.addHua w.player.newCard).delNewCard w.player.newCard).2 } :
      Winner).Sound := by
    have hoper : ((w.player.addHua w.player.newCard).delNewCard w.player.newCard).2.justDoOper =
        .buHua := by
      simp [MJPlayer.delNewCard, MJPlayer.addHua]
    have := hs.record hq (by rw [hoper]; rfl)
    rwa [Winner.record, hoper] at this
  exact hrec.newCard hn hv

/-- What one deed preserves. -/
lemma Sound.act (hs : w.Sound) (d : Deed) : (w.act d).Sound := by
  cases d with
  | newCard b =>
    simp only [Winner.act]
    split_ifs with h
    · rw [Bool.and_eq_true, Bool.not_eq_true'] at h
      exact hs.newCard h.1 h.2
    · exact hs
  | peng b pos =>
    simp only [Winner.act]
    split_ifs with h
    · exact hs.peng h
    · exact hs
  | gang b pos next =>
    simp only [Winner.act]
    split_ifs with h
    · rw [Bool.and_eq_true] at h
      exact hs.gang h.1 h.2
    · exact hs
  | anGang b pos next =>
    simp only [Winner.act]
    split_ifs with h
    · rw [Bool.and_eq_true] at h
      exact hs.anGang h.1 h.2
    · exact hs
  | mxGang b next =>
    simp only [Winner.act]
    split_ifs with h
    · rw [Bool.and_eq_true] at h
      exact hs.mxGang h.1 h.2
    · exact hs
  | play b =>
    simp only [Winner.act]
    split_ifs with h
    · exact hs.play h
    · exact hs
  | buHua next =>
    simp only [Winner.act]
    split_ifs with h
    · rw [Bool.and_eq_true] at h
      exact hs.buHua h.1 h.2
    · exact hs

end Play

end Winner

/-- What is known of a player after its deeds. -/
theorem sound_run (hand : Hand) (deeds : List Deed) : (run hand deeds).Sound := by
  induction deeds using List.reverseRecOn with
  | nil => exact Winner.sound_start hand
  | append_singleton deeds d ih =>
    unfold run at ih ⊢
    rw [List.foldl_append]
    exact ih.act d

/-! ### What the code finds -/

namespace Winner

variable {w : Winner}

/-- The second rule of the code. -/
lemma baoPao2_pos {t : CountHuType} (hh : t.opHistoryList = w.opHistoryList) (b : Assigned) :
    (baoPao2 t w.exposed b).map Assigned.baoPaiPos = if isGangKai w.opHistoryList then
      (w.exposed.getLast?.filter fun p => isGang p.operType).map MJPile.fromPos else none := by
  unfold baoPao2
  rw [hh]
  by_cases hk : isGangKai w.opHistoryList
  · rw [if_pos hk, if_pos hk]
    cases hlast : w.exposed.getLast? with
    | none => rfl
    | some p =>
      have hag : p.operType ≠ .ag := by
        simpa using (List.mem_filter.mp (List.mem_of_getLast? hlast)).2
      by_cases hp : isGang p.operType
      · have hcode : p.operType = .mxg ∨ p.operType = .mg := by
          simpa [isGang, hag, or_comm] using hp
        simp [hcode, hp]
      · have hcode : ¬(p.operType = .mxg ∨ p.operType = .mg) := by
          intro hc
          apply hp
          rcases hc with hc | hc <;> simp [isGang, hc]
        simp [hcode, hp]
  · simp [hk]

/-- A kong has been robbed. -/
lemma calulateBaoPai_robbed (w : Winner) (s : Seat) (fangPaoPos : Option Seat) (isAutoHu : Bool) :
    (calulateBaoPai (w.countHuType (some s) fangPaoPos) isAutoHu).baoPaiPos = some s := by
  simp [calulateBaoPai, countHuType, baoPao1]

/-- No kong has been robbed. -/
lemma Sound.calulateBaoPai_pos (hs : w.Sound) (fangPaoPos : Option Seat) (isAutoHu : Bool) :
    (calulateBaoPai (w.countHuType none fangPaoPos) isAutoHu).baoPaiPos =
      ((if w.replaced.isSome then
          (w.exposed.getLast?.filter fun p => isGang p.operType).map MJPile.fromPos
        else none).or ((w.laterRules Honours).map some)).getD none := by
  set t := w.countHuType none fangPaoPos with ht
  set b : Assigned := ⟨false, none, isAutoHu⟩ with hb
  have h1 : baoPao1 t b = none := rfl
  have h2 := baoPao2_pos (w := w) (t := t) rfl b
  have hrest := hs.rules_pos (t := t) rfl b
  have hcount : w.player.pileList.length - w.exposed.length = w.concealed := by
    have := w.length_exposed
    omega
  have hget : ∀ o : Option Assigned, (o.getD b).baoPaiPos =
      (o.map Assigned.baoPaiPos).getD none := fun o => by cases o <;> rfl
  rw [hs.gangKai] at h2
  rw [← h2, ← hrest, ← Option.map_or, ← hget]
  change ((baoPao1 t b <|> baoPao2 t w.exposed b <|> baoPao3 t w.exposed w.feeders b <|>
    baoPao4 t w.exposed (w.player.pileList.length - w.exposed.length) b <|>
    baoPao5 t w.feeders (w.player.pileList.length - w.exposed.length) b <|>
    baoPao6 t w.exposed w.feeders b).getD b).baoPaiPos = _
  rw [h1, hcount]
  simp only [Option.orElse_eq_orElse, Option.orElse_eq_or, Option.none_or]

lemma getD_map_some (x : Option Seat) : (x.map some).getD none = x := by
  cases x <;> rfl

/-- The win is not on a replacement tile. -/
lemma Sound.agrees_of_none (hs : w.Sound) (hrep : w.replaced = none) :
    w.laterRules Honours = w.laterRules OneSuit ↔ w.Agrees := by
  rw [hs.laterRules_eq_iff]
  constructor
  · intro h
    exact ⟨by simp [hrep], by simp [hrep], fun _ => h⟩
  · intro h
    exact h.suits (by simp [hrep])

/-- The win is on the replacement tile of a concealed kong. -/
lemma Sound.agrees_of_concealed (hs : w.Sound) {kong : MJPile} (hrep : w.replaced = some kong)
    (hag : kong.operType = .ag) :
    (((w.exposed.getLast?.filter fun p => isGang p.operType).map MJPile.fromPos).or
        ((w.laterRules Honours).map some)).getD none = w.laterRules OneSuit ↔ w.Agrees := by
  by_cases hlast : ∃ p, w.exposed.getLast? = some p ∧ isGang p.operType
  · obtain ⟨p, hp, hgang⟩ := hlast
    have hcode : (((w.exposed.getLast?.filter fun p => isGang p.operType).map MJPile.fromPos).or
        ((w.laterRules Honours).map some)).getD none = p.fromPos := by
      simp [hp, hgang, Option.filter_some]
    rw [hcode]
    constructor
    · intro h
      refine ⟨?_, ?_, ?_⟩
      · intro _ _ _ q hq _
        rw [hp, Option.some_inj] at hq
        rw [← hq, h]
      · intro k hk hne
        rw [hrep, Option.some_inj] at hk
        exact absurd (hk ▸ hag) hne
      · intro hall
        have := (hall kong hrep).2 p hp
        rw [hgang] at this
        exact absurd this (by simp)
    · intro h
      exact (h.concealed kong hrep hag p hp hgang).symm
  · have hnone : ∀ p, w.exposed.getLast? = some p → isGang p.operType = false := fun p hp =>
      eq_false_of_ne_true fun hgang => hlast ⟨p, hp, hgang⟩
    have hcode : (w.exposed.getLast?.filter fun p => isGang p.operType) = none := by
      cases hp : w.exposed.getLast? with
      | none => rfl
      | some p => simp [hnone p hp]
    rw [hcode, Option.map_none, Option.none_or, getD_map_some, hs.laterRules_eq_iff]
    constructor
    · intro h
      refine ⟨?_, ?_, fun _ => h⟩
      · intro _ _ _ p hp hgang
        exact absurd ⟨p, hp, hgang⟩ hlast
      · intro k hk hne
        rw [hrep, Option.some_inj] at hk
        exact absurd (hk ▸ hag) hne
    · intro h
      apply h.suits
      intro k hk
      rw [hrep, Option.some_inj] at hk
      exact ⟨hk ▸ hag, hnone⟩

/-- The win is on the replacement tile of an exposed kong. -/
lemma Sound.agrees_of_exposed (hs : w.Sound) {kong : MJPile} (hrep : w.replaced = some kong)
    (hag : kong.operType ≠ .ag) :
    (((w.exposed.getLast?.filter fun p => isGang p.operType).map MJPile.fromPos).or
        ((w.laterRules Honours).map some)).getD none = kong.fromPos ↔ w.Agrees := by
  have hmem : kong ∈ w.exposed := by
    simpa [exposed, hag] using hs.mem kong hrep
  obtain ⟨p, hp⟩ : ∃ p, w.exposed.getLast? = some p :=
    ⟨_, List.getLast?_eq_some_getLast (List.ne_nil_of_mem hmem)⟩
  have hcode : (((w.exposed.getLast?.filter fun p => isGang p.operType).map MJPile.fromPos).or
      ((w.laterRules Honours).map some)).getD none =
        if isGang p.operType then p.fromPos else w.laterRules Honours := by
    by_cases hgang : isGang p.operType
    · simp [hp, hgang, Option.filter_some]
    · cases hl : w.laterRules Honours <;> simp [hp, hgang, Option.filter_some]
  rw [hcode]
  constructor
  · intro h
    refine ⟨?_, ?_, ?_⟩
    · intro k hk hne
      rw [hrep, Option.some_inj] at hk
      exact absurd (hk ▸ hne) hag
    · intro k hk _ q hq
      rw [hrep, Option.some_inj] at hk
      rw [hp, Option.some_inj] at hq
      rw [← hk, ← hq, h]
    · intro hall
      exact absurd (hall kong hrep).1 hag
  · intro h
    exact h.fed kong hrep hag p hp

end Winner

/-- The code finds the liable seat of a winner if and only if a kong has been robbed or the two
slips do not matter.

**Proof sketch.** The third rule and the following are the meant ones up to the test of the sixth
(`Sound.rules_pos`), which can only be reached with four exposed piles. The second rule is asked
exactly when the win is on a replacement tile (`Sound.gangKai`), and answers for the last exposed
pile; a kong that is not concealed is one of the exposed piles and has a feeder. -/
theorem calulateBaoPai_iff (hand : Hand) (deeds : List Deed) (robbed fangPaoPos : Option Seat)
    (isAutoHu : Bool) :
    (calulateBaoPai ((run hand deeds).countHuType robbed fangPaoPos) isAutoHu).baoPaiPos =
        (run hand deeds).liable robbed ↔
      robbed.isSome ∨ (run hand deeds).Agrees := by
  have hs := sound_run hand deeds
  generalize run hand deeds = w at hs ⊢
  cases robbed with
  | some s =>
    rw [w.calulateBaoPai_robbed]
    simp [Winner.liable]
  | none =>
    rw [hs.calulateBaoPai_pos]
    cases hrep : w.replaced with
    | none =>
      simpa [Winner.liable, hrep, Winner.getD_map_some] using hs.agrees_of_none hrep
    | some kong =>
      by_cases hag : kong.operType = .ag
      · have hspec : w.liable none = w.laterRules OneSuit := by
          simp [Winner.liable, hrep, hag]
        rw [hspec]
        simpa using hs.agrees_of_concealed hrep hag
      · obtain ⟨s, hfrom⟩ := Option.isSome_iff_exists.mp
          (hs.isSome_fromPos (hs.mem kong hrep))
        have hspec : w.liable none = kong.fromPos := by
          simp [Winner.liable, hrep, hag, hfrom]
        rw [hspec]
        simpa using hs.agrees_of_exposed hrep hag

/-- A hand with which the seat wins after a kong of seat `2` and a concealed kong. -/
def concealedHand : Hand where
  tiles := [1, 1, 1, 2, 2, 2, 11, 12, 13, 14, 15, 16, 21]
  length_eq := rfl
  valid := by decide

/-- The win is on the replacement tile of the concealed kong; the code holds seat `2` liable, which
has fed the kong before. -/
theorem concealed_kong_blamed :
    let w := run concealedHand [.gang 1 2 2, .anGang 2 0 21]
    w.player.canSelfHu [] = true ∧
      (calulateBaoPai (w.countHuType none none) false).baoPaiPos ≠ w.liable none := by
  decide +kernel

/-- A hand of four pairs of one suit. -/
def pairsHand : Hand where
  tiles := [1, 1, 2, 2, 3, 3, 4, 4, 5, 21, 22, 23, 24]
  length_eq := rfl
  valid := by decide

-- Four exposed piles of wan, the last one of seat `2`: the sixth rule of the code does not apply.
example :
    let w := run pairsHand [.peng 1 1, .play 24, .peng 2 2, .play 23, .peng 3 1, .play 22,
      .peng 4 2, .play 21, .newCard 5]
    w.player.canSelfHu [] = true ∧ w.liable none = some 2 ∧
      (calulateBaoPai (w.countHuType none none) false).baoPaiPos = none := by
  decide +kernel

end Nanjing.BaoPai
