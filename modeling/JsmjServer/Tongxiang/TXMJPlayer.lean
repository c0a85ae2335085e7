import JsmjServer.Mahjong.MJPlayer

set_option relaxedAutoImplicit false
set_option autoImplicit false

/-!
# The players of tongxiang mahjong

The parts of `mj_core/MJPlayer.lua` and `mj_core/MJMath.lua` that only games with a wild tile and
with runs claimed from a discard use, and `tongxiangmj/TXMJPlayer.lua`.

## Main definitions

* `Mahjong.MJPlayer.getCanChiType`, `Mahjong.MJPlayer.doChi` — claiming a run.
* `Mahjong.MJMath.getCanHuCards`, `Tongxiang.checkChuKe` — the tiles a hand waits for; a hand that
  wins on every tile.
* `Mahjong.MJPlayer.Held` — thirteen tiles, a pile standing for three, and all of them tiles.

## Main results

* `Mahjong.MJPlayer.Held.doChi` and its companions — the operations keep `Held`.
-/

namespace Mahjong

/-! ### Tiles a hand waits for -/

namespace MJMath

/-- The tiles of the three suits and the honours, suit by suit. -/
def suitCards : List (List ℕ) :=
  [List.range' 1 9, List.range' 11 9, List.range' 21 9, List.range' Zi1 7]

/-- `MJMath:getCanHuCards`. Without wild tiles a suit with a multiple of three tiles is skipped. -/
def getCanHuCards (pai : ℕ → ℕ) : List ℕ :=
  if (remain pai + pai 0) % 3 ≠ 1 then []
  else
    (suitCards.filter fun suit => pai 0 ≠ 0 || (suit.map pai).sum % 3 ≠ 0).flatMap fun suit =>
      suit.filter fun j => canHu fun i => if i = j then pai i + 1 else pai i

end MJMath

namespace MJPlayer

/-! ### Claims in a game with wild tiles -/

/-- `MJPlayer:canPengWithDa`. -/
def canPengWithDa (p : MJPlayer) (byteCard : ℕ) (baiDaList : List ℕ) : Bool :=
  !p.hasNewCard && !baiDaList.contains byteCard && 2 ≤ p.getCardCountInHand byteCard false

/-- `MJPlayer:canGangWithDa`. -/
def canGangWithDa (p : MJPlayer) (byteCard : ℕ) (baiDaList : List ℕ) : Bool :=
  !p.hasNewCard && !baiDaList.contains byteCard && 3 ≤ p.getCardCountInHand byteCard false

/-- The three tests of `getCanChiType` and `getCanChiTypeWithDa`: the run ends, is completed in the
middle, or begins with the tile. An index below `0` has no entry; here it reads the entry at `0`,
which is empty in both functions. -/
def chiTypes (countMap : ℕ → ℕ) (byteCard : ℕ) : List Oper :=
  (if 0 < countMap (byteCard - 1) ∧ 0 < countMap (byteCard - 2) then [.lChi] else []) ++
  (if 0 < countMap (byteCard - 1) ∧ 0 < countMap (byteCard + 1) then [.mChi] else []) ++
  (if 0 < countMap (byteCard + 1) ∧ 0 < countMap (byteCard + 2) then [.rChi] else [])

/-- `MJPlayer:getCanChiType` without wild tiles, as `doChi` calls it. -/
def getCanChiType (p : MJPlayer) (byteCard : ℕ) : List Oper :=
  if p.hasNewCard then []
  else if !MJCard.isValid byteCard then []
  else if 3 ≤ byteCard / 10 then []
  else chiTypes (p.transHandCardsToCountMap false []) byteCard

/-- `MJPlayer:getCanChiTypeWithDa`. -/
def getCanChiTypeWithDa (p : MJPlayer) (byteCard : ℕ) (baiDaList : List ℕ) : List Oper :=
  if p.hasNewCard then []
  else if !MJCard.isValid byteCard then []
  else if 3 ≤ byteCard / 10 then []
  else
    let countMap := p.transHandCardsToCountMap false baiDaList
    chiTypes (fun i => if i = 0 then 0 else countMap i) byteCard

/-- The two tiles of the hand that make a run with the tile, in the order of the pile; `none` for an
operation that claims no run. They differ, and so it does not matter which leaves the hand first. -/
def chiCardList (byteCard : ℕ) : Oper → Option (ℕ × ℕ)
  | .lChi => some (byteCard - 2, byteCard - 1)
  | .mChi => some (byteCard - 1, byteCard + 1)
  | .rChi => some (byteCard + 1, byteCard + 2)
  | _ => none

/-- `MJPlayer:doChi`. -/
def doChi (p : MJPlayer) (byteCard : ℕ) (chiType : Oper) (pos : Seat) : Bool × MJPlayer :=
  if chiType ∉ p.getCanChiType byteCard then (false, p)
  else
    match chiCardList byteCard chiType with
    | none => (false, p)
    | some (c₁, c₂) =>
      let p := (p.delHandCard c₁).2
      let p := (p.delHandCard c₂).2
      let pile := MJPile.new.setPile 3 [byteCard, c₁, c₂] pos chiType
      let p := { p with pileList := p.pileList ++ [pile], justDoOper := pile.operType }
      (true, p.pushLastCardToNewCard)

/-! ### Thirteen tiles -/

/-- The player has thirteen tiles besides the new one, a pile standing for three, and those of the
hand are tiles. -/
structure Held (p : MJPlayer) : Prop where
  size : p.cardList.length + 3 * p.pileList.length = 13
  valid : ∀ c ∈ p.cardList, MJCard.isValid c = true
  new : p.hasNewCard = true → MJCard.isValid p.newCard = true

section Held

variable {p : MJPlayer} {b : ℕ} {o : Oper}

/-- Every tile of a player with a new one is a tile. -/
lemma Held.isValid (h : p.Held) (hn : p.hasNewCard = true) {c : ℕ}
    (hc : c ∈ p.newCard :: p.cardList) : MJCard.isValid c = true := by
  rcases List.mem_cons.mp hc with rfl | hc
  · exact h.new hn
  · exact h.valid c hc

lemma hasNewCard_of_isValid (hv : MJCard.isValid p.newCard = true) : p.hasNewCard = true := by
  simpa [hasNewCard] using ne_kCardNull_of_isValid hv

/-- A tile drawn. -/
lemma Held.addNewCard (h : p.Held) (hv : MJCard.isValid b = true) :
    (p.addNewCard b).Held ∧ p.addNewCard b = { p with justDoOper := .newCard, newCard := b } := by
  have heq : p.addNewCard b = { p with justDoOper := .newCard, newCard := b } := if_pos hv
  rw [heq]
  exact ⟨⟨h.size, h.valid, fun _ => hv⟩, rfl⟩

/-- Where two tiles can leave a hand, a third is left to play. -/
lemma Held.two_lt_length (h : p.Held) (hl : 2 ≤ p.cardList.length) : 2 < p.cardList.length := by
  have := h.size
  omega

/-- A peng gives its player a tile to play. -/
lemma Held.doPeng (h : p.Held) (pos : Seat) (hc : p.canPeng b = true)
    (hv : MJCard.isValid b = true) : ∃ q, p.doPeng b pos = (true, q) ∧ q.Held ∧
      q.hasNewCard = true ∧ q.justDoOper = .peng ∧
      q.pileList = p.pileList ++ [⟨[b, b, b], .peng, pos⟩] := by
  have hlen : 2 ≤ p.cardList.length := by
    have hcount := hc
    simp only [canPeng, Bool.and_eq_true, decide_eq_true_eq, getCardCountInHand_false] at hcount
    exact hcount.2.trans List.count_le_length
  obtain ⟨x, l, hperm, hdo⟩ := doPeng_spec pos hc hv (h.two_lt_length hlen)
  have hx : MJCard.isValid x = true := h.valid x (hperm.symm.subset (by simp))
  have hnew : hasNewCard ⟨x, l, p.pileList ++ [⟨[b, b, b], .peng, some pos⟩], .peng, p.huaList⟩ =
      true := hasNewCard_of_isValid hx
  refine ⟨_, hdo, ⟨?_, fun c hc => ?_, fun _ => hx⟩, hnew, rfl, rfl⟩
  · have hl := hperm.length_eq
    have hsize := h.size
    simp only [List.length_cons, List.length_append, List.length_nil] at hl ⊢
    omega
  · exact h.valid c (hperm.symm.subset (by simp [hc]))

/-- A kong on another seat's tile. -/
lemma Held.doGang (h : p.Held) (pos : Seat) (hc : p.canGang b = true)
    (hv : MJCard.isValid b = true) : ∃ q, p.doGang b pos = (true, q) ∧ q.Held ∧
      q.newCard = p.newCard ∧ q.justDoOper = .mg ∧
      q.pileList = p.pileList ++ [⟨[b, b, b, b], .mg, pos⟩] := by
  obtain ⟨l, hperm, hdo⟩ := doGang_spec pos hc hv
  refine ⟨_, hdo, ⟨?_, fun c hc => ?_, h.new⟩, rfl, rfl, rfl⟩
  · have hl := hperm.length_eq
    have hsize := h.size
    simp only [List.length_cons, List.length_append, List.length_nil] at hl ⊢
    omega
  · exact h.valid c (hperm.symm.subset (by simp [hc]))

/-- A concealed kong that is made. -/
lemma Held.doAnGang (h : p.Held) {pos : Seat} (hr : (p.doAnGang b pos).1 = true) :
    (p.doAnGang b pos).2.Held ∧ (p.doAnGang b pos).2.hasNewCard = false ∧
      (p.doAnGang b pos).2.justDoOper = .ag ∧
      (p.doAnGang b pos).2.pileList = p.pileList ++ [⟨[b, b, b, b], .ag, pos⟩] := by
  have hn : p.hasNewCard = true := by
    by_contra hn
    rw [Bool.not_eq_true] at hn
    simp [MJPlayer.doAnGang, hn] at hr
  have hcount : 4 ≤ p.getCardCountInHand b true := by
    by_contra hlt
    simp [MJPlayer.doAnGang, hn, not_le.mp hlt] at hr
  have hmem : b ∈ p.newCard :: p.cardList := by
    rw [getCardCountInHand_true] at hcount
    exact List.count_pos_iff.mp (by omega)
  obtain ⟨l, hperm, hdo⟩ := doAnGang_spec pos hn hcount (h.isValid hn hmem)
  rw [hdo]
  refine ⟨⟨?_, fun c hc => ?_, fun hn' => ?_⟩, rfl, rfl, rfl⟩
  · have hl := hperm.length_eq
    have hsize := h.size
    simp only [List.length_cons, List.length_append, List.length_nil] at hl ⊢
    omega
  · exact h.isValid hn (hperm.symm.subset (by simp [show c ∈ l from hc]))
  · exact absurd hn' (by simp [hasNewCard])

/-- The pile that gets the tile of an added kong was made by peng, and no other pile changes. -/
lemma addToPile_eq_some {l l' : List MJPile} {v : MJPile} (h : addToPile b l = some (v, l')) :
    ∃ pre w post, l = pre ++ w :: post ∧ l' = pre ++ v :: post ∧ w.operType = .peng ∧
      (v.operType = .mxg ∨ v.operType = .peng) := by
  induction l generalizing l' with
  | nil => simp [addToPile] at h
  | cons w l ih =>
    unfold addToPile at h
    split_ifs at h with hw
    · simp only [Option.some.injEq, Prod.mk.injEq] at h
      obtain ⟨rfl, rfl⟩ := h
      have hpeng : w.operType = .peng := by
        simp only [isPengOf, Bool.and_eq_true, beq_iff_eq] at hw
        exact hw.2
      refine ⟨[], w, l, rfl, rfl, hpeng, ?_⟩
      simp only [MJPile.setPile]
      split_ifs <;> simp_all
    · obtain ⟨⟨v', l₁⟩, hl₁, heq⟩ := Option.map_eq_some_iff.mp h
      simp only [Prod.mk.injEq] at heq
      obtain ⟨rfl, rfl⟩ := heq
      obtain ⟨pre, w', post, rfl, rfl, hpeng, hv⟩ := ih hl₁
      exact ⟨w :: pre, w', post, rfl, rfl, hpeng, hv⟩

/-- An added kong that is made. -/
lemma Held.doMXGang (h : p.Held) (hr : (p.doMXGang b).1 = true) : MJCard.isValid b = true ∧
    (p.doMXGang b).2.Held ∧ (p.doMXGang b).2.hasNewCard = false ∧
      ((p.doMXGang b).2.justDoOper = .mxg ∨ (p.doMXGang b).2.justDoOper = .peng) ∧
      ∃ pre w v post, p.pileList = pre ++ w :: post ∧
        (p.doMXGang b).2.pileList = pre ++ v :: post ∧ w.operType = .peng ∧
        (v.operType = .mxg ∨ v.operType = .peng) := by
  have hn : p.hasNewCard = true := by
    by_contra hn
    rw [Bool.not_eq_true] at hn
    simp [MJPlayer.doMXGang, hn] at hr
  have hne : p.pileList.isEmpty = false := by
    by_contra hne
    have hnil : p.pileList = [] := by simpa using hne
    simp [MJPlayer.doMXGang, hn, hnil] at hr
  have hcount : 1 ≤ p.getCardCountInHand b true := by
    by_contra hlt
    have hlt' : p.getCardCountInHand b true < 1 := not_le.mp hlt
    simp [MJPlayer.doMXGang, hn, hne, hlt'] at hr
  obtain ⟨v, l', hadd⟩ : ∃ v l', addToPile b p.pileList = some (v, l') := by
    cases hadd : addToPile b p.pileList with
    | none =>
      have hlt : ¬p.getCardCountInHand b true < 1 := by omega
      simp [MJPlayer.doMXGang, hn, hne, hlt, hadd] at hr
    | some r => exact ⟨r.1, r.2, rfl⟩
  obtain ⟨pre, w, post, hl, hl', hpeng, hv⟩ := addToPile_eq_some hadd
  rw [getCardCountInHand_true] at hcount
  obtain ⟨l, hperm, htake⟩ := takeOne_spec hn hcount
  have hdo : p.doMXGang b = (true, ⟨kCardNull, l, l', v.operType, p.huaList⟩) := by
    have hlt : ¬p.getCardCountInHand b true < 1 := by
      rw [getCardCountInHand_true]
      omega
    simp only [MJPlayer.doMXGang, hn, hne, Bool.not_true, Bool.or_self, Bool.false_eq_true,
      if_false, hlt, hadd, htake]
  rw [hdo]
  refine ⟨h.isValid hn (hperm.symm.subset (by simp)), ⟨?_, fun c hc => ?_, fun hn' => ?_⟩, rfl, hv,
    pre, w, v, post, hl, hl', hpeng, hv⟩
  · have hlen := hperm.length_eq
    have hsize := h.size
    rw [hl] at hsize
    rw [hl']
    simp only [List.length_cons, List.length_append] at hlen hsize ⊢
    omega
  · exact h.isValid hn (hperm.symm.subset (by simp [show c ∈ l from hc]))
  · exact absurd hn' (by simp [hasNewCard])

/-- A tile that is played: the player had it, and keeps its piles. -/
lemma Held.doPlayCard (h : p.Held) (hr : (p.doPlayCard b).1 = true) :
    p.hasNewCard = true ∧ b ∈ p.newCard :: p.cardList ∧ MJCard.isValid b = true ∧
      (p.doPlayCard b).2.Held ∧ (p.doPlayCard b).2.hasNewCard = false ∧
      (p.doPlayCard b).2.justDoOper = .play ∧ (p.doPlayCard b).2.pileList = p.pileList := by
  have hn : p.hasNewCard = true := by
    by_contra hn
    rw [Bool.not_eq_true] at hn
    simp [MJPlayer.doPlayCard, hn] at hr
  rcases doPlayCard_spec (b := b) hn with ⟨-, hfail⟩ | ⟨l, hperm, hdo⟩
  · rw [hfail] at hr
    exact absurd hr (by simp)
  rw [hdo]
  have hmem : b ∈ p.newCard :: p.cardList := hperm.symm.subset (by simp)
  refine ⟨hn, hmem, h.isValid hn hmem, ⟨?_, fun c hc => ?_, fun hn' => ?_⟩, rfl, rfl, rfl⟩
  · have hl := hperm.length_eq
    have hsize := h.size
    simp only [List.length_cons] at hl ⊢
    omega
  · exact h.isValid hn (hperm.symm.subset (by simp [show c ∈ l from hc]))
  · exact absurd hn' (by simp [hasNewCard])

/-- A tile the player has can be played. -/
lemma doPlayCard_of_mem (hn : p.hasNewCard = true) (hb : b ∈ p.newCard :: p.cardList) :
    (p.doPlayCard b).1 = true := by
  rcases doPlayCard_spec (b := b) hn with ⟨hnot, -⟩ | ⟨l, -, hdo⟩
  · exact absurd hb hnot
  · rw [hdo]

/-! ### Claiming a run -/

lemma transHandCardsToCountMap_nil {i : ℕ} (h : 0 < p.transHandCardsToCountMap false [] i) :
    i ∈ p.cardList := by
  simp only [transHandCardsToCountMap, Bool.false_and, Bool.false_eq_true, if_false, add_zero,
    List.foldl_nil] at h
  split_ifs at h
  · exact List.count_pos_iff.mp h
  · exact absurd h (lt_irrefl 0)

/-- Where the tests read only tiles of the hand, a type names two different ones of them. -/
lemma chiTypes_cards {m : ℕ → ℕ} {l : List ℕ} (hm : ∀ i, 0 < m i → i ∈ l) (hzero : 0 ∉ l)
    (ho : o ∈ chiTypes m b) :
    ∃ c₁ c₂, chiCardList b o = some (c₁, c₂) ∧ c₁ ∈ l ∧ c₂ ∈ l ∧ c₁ ≠ c₂ := by
  simp only [chiTypes, List.mem_append] at ho
  rcases ho with (ho | ho) | ho
  all_goals
    split_ifs at ho with hcount
    swap
    · simp at ho
    have h₁ := hm _ hcount.1
    have h₂ := hm _ hcount.2
    rw [List.mem_singleton.mp ho]
  · -- the tile ends the run
    refine ⟨b - 2, b - 1, rfl, h₂, h₁, fun heq => hzero ?_⟩
    have hb : b - 1 = 0 := by omega
    rwa [hb] at h₁
  · exact ⟨b - 1, b + 1, rfl, h₁, h₂, by omega⟩
  · exact ⟨b + 1, b + 2, rfl, h₁, h₂, by omega⟩

/-- The pile of a claimed run. -/
lemma setPile_new_chi {c₁ c₂ : ℕ} (pos : Seat) (hv : MJCard.isValid b = true)
    (h₁ : MJCard.isValid c₁ = true) (h₂ : MJCard.isValid c₂ = true)
    (hcards : chiCardList b o = some (c₁, c₂)) :
    MJPile.new.setPile 3 [b, c₁, c₂] pos o = ⟨[b, c₁, c₂], o, pos⟩ := by
  have hmxg : o ≠ .mxg := by
    rintro rfl
    exact absurd hcards (by simp [chiCardList])
  simp [MJPile.setPile, MJPile.new, hv, h₁, h₂, hmxg]

/-- A run that can be claimed: the tile is no honour, and the two others are in the hand. -/
lemma Held.chi (h : p.Held) (ho : o ∈ p.getCanChiType b) :
    p.hasNewCard = false ∧ MJCard.isValid b = true ∧ b < 30 ∧
      ∃ c₁ c₂, chiCardList b o = some (c₁, c₂) ∧ c₁ ∈ p.cardList ∧ c₂ ∈ p.cardList ∧ c₁ ≠ c₂ := by
  unfold getCanChiType at ho
  split_ifs at ho with hn hv hsuit
  · simp at ho
  · simp at ho
  · simp at ho
  rw [Bool.not_eq_true] at hn
  simp only [Bool.not_eq_true', Bool.not_eq_false] at hv
  have hzero : (0 : ℕ) ∉ p.cardList := fun hmem => absurd (h.valid 0 hmem) (by decide)
  exact ⟨hn, hv, by omega, chiTypes_cards (fun i => transHandCardsToCountMap_nil) hzero ho⟩

/-- A run that may be claimed takes its two tiles off the hand. -/
lemma doChi_eq {c₁ c₂ : ℕ} (pos : Seat) (ho : o ∈ p.getCanChiType b)
    (hvalid : ∀ c ∈ p.cardList, MJCard.isValid c = true) (hv : MJCard.isValid b = true)
    (hcards : chiCardList b o = some (c₁, c₂)) (h₁ : c₁ ∈ p.cardList) (h₂ : c₂ ∈ p.cardList) :
    p.doChi b o pos = (true, pushLastCardToNewCard { p with
      cardList := (p.cardList.erase c₁).erase c₂
      pileList := p.pileList ++ [⟨[b, c₁, c₂], o, pos⟩]
      justDoOper := o }) := by
  have hpile := setPile_new_chi pos hv (hvalid c₁ h₁) (hvalid c₂ h₂) hcards
  simp only [MJPlayer.doChi, ho, not_true_eq_false, if_false, hcards, delHandCard_snd, hpile]

/-- A run that is claimed gives its player a tile to play. -/
lemma Held.doChi (h : p.Held) {pos : Seat} (hr : (p.doChi b o pos).1 = true) :
    o ∈ p.getCanChiType b ∧ (p.doChi b o pos).2.Held ∧
      (p.doChi b o pos).2.hasNewCard = true ∧ (p.doChi b o pos).2.justDoOper = o ∧
      ∃ c₁ c₂, (p.doChi b o pos).2.pileList = p.pileList ++ [⟨[b, c₁, c₂], o, pos⟩] := by
  have ho : o ∈ p.getCanChiType b := by
    by_contra ho
    simp [MJPlayer.doChi, ho] at hr
  obtain ⟨-, hv, -, c₁, c₂, hcards, h₁, h₂, hne⟩ := h.chi ho
  have hmem : c₂ ∈ p.cardList.erase c₁ := (List.mem_erase_of_ne hne.symm).mpr h₂
  have hperm : p.cardList.Perm (c₁ :: c₂ :: (p.cardList.erase c₁).erase c₂) :=
    (List.perm_cons_erase h₁).trans ((List.perm_cons_erase hmem).cons c₁)
  have hlen := hperm.length_eq
  have hsize := h.size
  simp only [List.length_cons] at hlen
  have hrest : (p.cardList.erase c₁).erase c₂ ≠ [] := by
    intro hnil
    rw [hnil, List.length_nil] at hlen
    omega
  have hdo : p.doChi b o pos = (true,
      ⟨((p.cardList.erase c₁).erase c₂).getLast hrest, ((p.cardList.erase c₁).erase c₂).dropLast,
        p.pileList ++ [⟨[b, c₁, c₂], o, pos⟩], o, p.huaList⟩) := by
    rw [doChi_eq pos ho h.valid hv hcards h₁ h₂, pushLastCardToNewCard]
    simp only [List.getLastD_eq_getLast?, List.getLast?_eq_some_getLast hrest, Option.getD_some]
  have hlast : MJCard.isValid (((p.cardList.erase c₁).erase c₂).getLast hrest) = true :=
    h.valid _ (List.mem_of_mem_erase (List.mem_of_mem_erase (List.getLast_mem hrest)))
  rw [hdo]
  refine ⟨ho, ⟨?_, fun c hc => ?_, fun _ => hlast⟩, hasNewCard_of_isValid hlast, rfl, c₁, c₂, rfl⟩
  · simp only [List.length_dropLast, List.length_append, List.length_cons, List.length_nil]
    have hpos := List.length_pos_of_ne_nil hrest
    omega
  · exact h.valid c (List.mem_of_mem_erase (List.mem_of_mem_erase (List.dropLast_subset _ hc)))

/-- The place of a claimed run in its suit. -/
lemma Held.chi_point (h : p.Held) (ho : o ∈ p.getCanChiType b) :
    (o = .lChi ∧ 3 ≤ b % 10) ∨ (o = .mChi ∧ 2 ≤ b % 10 ∧ b % 10 ≤ 8) ∨ (o = .rChi ∧ b % 10 ≤ 7) := by
  obtain ⟨-, hv, hb, c₁, c₂, hcards, h₁, h₂, -⟩ := h.chi ho
  have hpoint : ∀ c, c < 32 → MJCard.isValid c = true → c % 10 ≠ 0 := by decide +kernel
  have hv₁ := h.valid c₁ h₁
  have hv₂ := h.valid c₂ h₂
  have hb0 := hpoint b (by omega) hv
  cases o <;> simp only [chiCardList, Option.some.injEq, Prod.mk.injEq, reduceCtorEq] at hcards
  · obtain ⟨rfl, rfl⟩ := hcards
    have := hpoint _ (by omega) hv₁
    have := hpoint _ (by omega) hv₂
    exact Or.inl ⟨rfl, by omega⟩
  · obtain ⟨rfl, rfl⟩ := hcards
    have := hpoint _ (by omega) hv₁
    have := hpoint _ (by omega) hv₂
    exact Or.inr (Or.inl ⟨rfl, by omega, by omega⟩)
  · obtain ⟨rfl, rfl⟩ := hcards
    have := hpoint _ (by omega) hv₁
    have := hpoint _ (by omega) hv₂
    exact Or.inr (Or.inr ⟨rfl, by omega⟩)

/-- Wild tiles only take from the counts of the tiles. -/
lemma transHandCardsToCountMap_singleton {i d : ℕ} (hi : i ≠ 0)
    (h : 0 < p.transHandCardsToCountMap false [d] i) :
    0 < p.transHandCardsToCountMap false [] i := by
  simp only [transHandCardsToCountMap, List.foldl_cons, List.foldl_nil] at h ⊢
  split_ifs at h <;> simp_all

lemma chiTypes_mono {f g : ℕ → ℕ} (hfg : ∀ i, 0 < f i → 0 < g i) (h : o ∈ chiTypes f b) :
    o ∈ chiTypes g b := by
  simp only [chiTypes, List.mem_append] at h ⊢
  rcases h with (h | h) | h
  all_goals
    split_ifs at h with hc
    swap
    · simp at h
    have hc' := And.intro (hfg _ hc.1) (hfg _ hc.2)
  · exact Or.inl (Or.inl (by rwa [if_pos hc']))
  · exact Or.inl (Or.inr (by rwa [if_pos hc']))
  · exact Or.inr (by rwa [if_pos hc'])

/-- What may be claimed in the game with a wild tile may be claimed without regard to it. -/
lemma getCanChiType_of_withDa {d : ℕ} (h : o ∈ p.getCanChiTypeWithDa b [d]) :
    o ∈ p.getCanChiType b := by
  unfold getCanChiTypeWithDa at h
  unfold getCanChiType
  split_ifs at h ⊢
  · exact h
  · exact h
  · exact h
  refine chiTypes_mono (fun i hi => ?_) h
  split_ifs at hi with h0
  · exact absurd hi (lt_irrefl 0)
  · exact transHandCardsToCountMap_singleton h0 hi

lemma canPeng_of_withDa {d : ℕ} (h : p.canPengWithDa b [d] = true) : p.canPeng b = true := by
  simp only [canPengWithDa, canPeng, Bool.and_eq_true] at h ⊢
  exact ⟨h.1.1, h.2⟩

lemma canGang_of_withDa {d : ℕ} (h : p.canGangWithDa b [d] = true) : p.canGang b = true := by
  simp only [canGangWithDa, canGang, Bool.and_eq_true] at h ⊢
  exact ⟨h.1.1, h.2⟩

end Held

end MJPlayer

end Mahjong

namespace Tongxiang

open Mahjong

/-! ### `TXMJPlayer` -/

/-- `TXMJPlayer:hasBaiDa` without the new tile: the wild tiles in the hand. -/
def hasBaiDa (p : MJPlayer) (baiDa : ℕ) : ℕ := p.cardList.count baiDa

/-- `TXMJPlayer:getMXGNum`. -/
def getMXGNum (p : MJPlayer) : ℕ := p.pileList.countP fun pile => pile.operType = .mxg

/-- `TXMJPlayer:checkChuKe`, not for seven pairs and without the new tile: every tile wins. -/
def checkChuKe (p : MJPlayer) (baiDa : ℕ) : Bool :=
  (MJMath.getCanHuCards (p.transHandCardsToCountMap false [baiDa])).length == 34

end Tongxiang
