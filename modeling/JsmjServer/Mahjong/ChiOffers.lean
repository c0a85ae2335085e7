import JsmjServer.Mahjong.CountMap
import JsmjServer.Tongxiang.TXMJPlayer

set_option relaxedAutoImplicit false
set_option autoImplicit false

/-!
# Offered runs and claimed runs

`MJPlayer:getCanChiType` and `MJPlayer:getCanChiTypeWithDa` of `mj_core/MJPlayer.lua` offer the runs
that a discarded tile completes, read off the count map of the hand and the wild tiles;
`MJPlayer:doChi` claims one of them, and reads a count map without wild tiles. Only the second offer
empties index `0`, where the map counts the wild tiles, before it reads the neighbours of the tile.

## Main definitions

* `Mahjong.MJPlayer.getCanChiTypeIn` — `getCanChiType` with its list of wild tiles.
* `Mahjong.MJPlayer.Executable` — a type names two tiles of the hand that are not wild, and `doChi`
  takes these two and exposes a run.
* `Mahjong.MJPlayer.WildNeighbour` — the wild tiles at index `0` pass for the tile before `Wan1`.

## Main results

* `Mahjong.MJPlayer.offers_executable_iff` — every type that is offered can be executed, unless the
  wild tiles pass for a tile.
-/

namespace Mahjong.MJPlayer

/-! ### The offers -/

/-- An entry of a count map; an index outside the map has none, and fails the tests as `0` does. -/
def countAt (countMap : ℕ → ℕ) (i : ℤ) : ℕ :=
  if 0 ≤ i ∧ i ≤ Zi7 then countMap i.toNat else 0

/-- `MJPlayer:getCanChiType` with its list of wild tiles. -/
def getCanChiTypeIn (p : MJPlayer) (byteCard : ℕ) (baiDaList : List ℕ) : List Oper :=
  if p.hasNewCard then []
  else if !MJCard.isValid byteCard then []
  else if 3 ≤ byteCard / 10 then []
  else
    let countMap := countAt (p.transHandCardsToCountMap false baiDaList)
    (if 0 < countMap (byteCard - 1) ∧ 0 < countMap (byteCard - 2) then [.lChi] else []) ++
    (if 0 < countMap (byteCard - 1) ∧ 0 < countMap (byteCard + 1) then [.mChi] else []) ++
    (if 0 < countMap (byteCard + 1) ∧ 0 < countMap (byteCard + 2) then [.rChi] else [])

/-- The type names two tiles of the suit that the hand holds and that are not wild; `doChi` succeeds
with it, takes these two tiles off the hand, and exposes three consecutive tiles of one suit. -/
def Executable (p : MJPlayer) (baiDaList : List ℕ) (byteCard : ℕ) (pos : Seat) (t : Oper) : Prop :=
  ∃ c₁ c₂, chiCardList byteCard t = some (c₁, c₂) ∧
    (c₁ / 10 = byteCard / 10 ∧ c₁ ∈ p.cardList ∧ c₁ ∉ baiDaList) ∧
    (c₂ / 10 = byteCard / 10 ∧ c₂ ∈ p.cardList ∧ c₂ ∉ baiDaList) ∧
    (p.doChi byteCard t pos).1 = true ∧
    (p.cardList : Multiset ℕ) = {c₁, c₂} +
      (newTiles (p.doChi byteCard t pos).2.newCard + ↑(p.doChi byteCard t pos).2.cardList) ∧
    (p.doChi byteCard t pos).2.pileList = p.pileList ++ [⟨[byteCard, c₁, c₂], t, pos⟩] ∧
    ∃ a, MJMath.IsRunStart a ∧ [byteCard, c₁, c₂].Perm [a, a + 1, a + 2]

/-- A wild tile is held, and with the entry at index `0` taken for a tile next to `Wan1` the discard
completes a run: `Wan1` with `Wan2` of the hand, or `Wan2` with `Wan1` of the hand. -/
def WildNeighbour (p : MJPlayer) (baiDaList : List ℕ) (byteCard : ℕ) : Prop :=
  (∃ w ∈ baiDaList, w ∈ p.cardList) ∧
    ((byteCard = 1 ∧ 2 ∈ p.cardList ∧ 2 ∉ baiDaList) ∨
      (byteCard = 2 ∧ 1 ∈ p.cardList ∧ 1 ∉ baiDaList))

section Offers

variable {p : MJPlayer} {L : List ℕ} {b : ℕ} {t : Oper}

lemma countAt_pos_iff {m : ℕ → ℕ} {i : ℤ} :
    0 < countAt m i ↔ ∃ n : ℕ, i = n ∧ n ≤ Zi7 ∧ 0 < m n := by
  unfold countAt
  constructor
  · intro h
    split_ifs at h with hi
    · exact ⟨i.toNat, by omega, by omega, h⟩
    · exact absurd h (lt_irrefl 0)
  · rintro ⟨n, rfl, hn, hm⟩
    rw [if_pos ⟨by omega, by omega⟩]
    simpa using hm

/-! ### Claiming the run -/

/-- The tiles of a type, where they are tiles, make a run with the discard. -/
lemma exists_runStart {c₁ c₂ : ℕ} (hv : MJCard.isValid b = true) (hb : b / 10 < 3)
    (hcards : chiCardList b t = some (c₁, c₂)) (h₁ : MJCard.isValid c₁ = true)
    (h₂ : MJCard.isValid c₂ = true) :
    c₁ / 10 = b / 10 ∧ c₂ / 10 = b / 10 ∧
      ∃ a, MJMath.IsRunStart a ∧ [b, c₁, c₂].Perm [a, a + 1, a + 2] := by
  have hpoint : ∀ c, c < 32 → MJCard.isValid c = true → c % 10 ≠ 0 := by decide +kernel
  have hb0 := hpoint b (by omega) hv
  cases t <;> simp only [chiCardList, Option.some.injEq, Prod.mk.injEq, reduceCtorEq] at hcards
  · -- the discard ends the run
    obtain ⟨rfl, rfl⟩ := hcards
    have := hpoint _ (by omega) h₁
    have := hpoint _ (by omega) h₂
    obtain ⟨a, rfl⟩ : ∃ a, b = a + 2 := ⟨b - 2, by omega⟩
    refine ⟨by omega, by omega, a, ⟨by omega, by omega, by omega⟩, ?_⟩
    exact (List.perm_append_singleton (a + 2) [a, a + 1]).symm
  · -- the discard is in the middle
    obtain ⟨rfl, rfl⟩ := hcards
    have := hpoint _ (by omega) h₁
    have := hpoint _ (by omega) h₂
    obtain ⟨a, rfl⟩ : ∃ a, b = a + 1 := ⟨b - 1, by omega⟩
    refine ⟨by omega, by omega, a, ⟨by omega, by omega, by omega⟩, ?_⟩
    exact List.Perm.swap a (a + 1) [a + 2]
  · obtain ⟨rfl, rfl⟩ := hcards
    have := hpoint _ (by omega) h₁
    have := hpoint _ (by omega) h₂
    exact ⟨by omega, by omega, b, ⟨by omega, by omega, by omega⟩, List.Perm.refl _⟩

/-- A run whose two tiles are in the hand may be claimed. -/
lemma mem_getCanChiType {c₁ c₂ : ℕ} (hn : p.hasNewCard = false) (hv : MJCard.isValid b = true)
    (hb : b / 10 < 3) (h0 : 0 ∉ p.cardList) (hcards : chiCardList b t = some (c₁, c₂))
    (h₁ : c₁ ∈ p.cardList) (h₂ : c₂ ∈ p.cardList) : t ∈ p.getCanChiType b := by
  have hb29 : b ≤ 29 := by omega
  have hpos : ∀ c ∈ p.cardList, c ≤ Zi7 → 0 < p.transHandCardsToCountMap false [] c := by
    intro c hc hle
    rw [transHandCardsToCountMap_hand hn]
    exact (tileMap_pos_iff fun h => h0 (h ▸ hc)).mpr ⟨hle, List.not_mem_nil, hc⟩
  rw [getCanChiType, hn, hv]
  simp only [Bool.false_eq_true, if_false, Bool.not_true, if_neg (not_le.mpr hb), chiTypes,
    List.mem_append]
  unfold Zi7 at hpos
  cases t <;> simp only [chiCardList, Option.some.injEq, Prod.mk.injEq, reduceCtorEq] at hcards
  · obtain ⟨rfl, rfl⟩ := hcards
    exact Or.inl (Or.inl (by simp [hpos _ h₁ (by omega), hpos _ h₂ (by omega)]))
  · obtain ⟨rfl, rfl⟩ := hcards
    exact Or.inl (Or.inr (by simp [hpos _ h₁ (by omega), hpos _ h₂ (by omega)]))
  · obtain ⟨rfl, rfl⟩ := hcards
    exact Or.inr (by simp [hpos _ h₁ (by omega), hpos _ h₂ (by omega)])

/-- A type whose two tiles are in the hand and not wild can be executed. -/
lemma executable_of_mem {c₁ c₂ : ℕ} (hn : p.hasNewCard = false)
    (hvalid : ∀ c ∈ p.cardList, MJCard.isValid c = true) (hv : MJCard.isValid b = true)
    (hb : b / 10 < 3) (hcards : chiCardList b t = some (c₁, c₂))
    (h₁ : c₁ ∉ L ∧ c₁ ∈ p.cardList) (h₂ : c₂ ∉ L ∧ c₂ ∈ p.cardList) (pos : Seat) :
    p.Executable L b pos t := by
  have h0 : (0 : ℕ) ∉ p.cardList := fun hmem => absurd (hvalid 0 hmem) (by decide)
  have ht := mem_getCanChiType hn hv hb h0 hcards h₁.2 h₂.2
  obtain ⟨hs₁, hs₂, hrun⟩ :=
    exists_runStart hv hb hcards (hvalid c₁ h₁.2) (hvalid c₂ h₂.2)
  have hne : c₁ ≠ c₂ := by
    rintro rfl
    obtain ⟨a, -, hperm⟩ := hrun
    have hnodup : [a, a + 1, a + 2].Nodup := by simp
    simpa using hperm.nodup_iff.mpr hnodup
  have hmem : c₂ ∈ p.cardList.erase c₁ := (List.mem_erase_of_ne hne.symm).mpr h₂.2
  have hperm : p.cardList.Perm (c₁ :: c₂ :: (p.cardList.erase c₁).erase c₂) :=
    (List.perm_cons_erase h₁.2).trans ((List.perm_cons_erase hmem).cons c₁)
  have hdo := doChi_eq pos ht hvalid hv hcards h₁.2 h₂.2
  refine ⟨c₁, c₂, hcards, ⟨hs₁, h₁.2, h₁.1⟩, ⟨hs₂, h₂.2, h₂.1⟩, by rw [hdo], ?_, by rw [hdo]; rfl,
    hrun⟩
  rw [hdo, Multiset.coe_eq_coe.mpr hperm]
  set l := (p.cardList.erase c₁).erase c₂ with hl
  have hlast : newTiles (l.getLastD kCardNull) + ↑l.dropLast = (l : Multiset ℕ) := by
    rcases List.eq_nil_or_concat' l with hnil | ⟨l', x, hl'⟩
    · rw [hnil]
      rfl
    · have hx : x ∈ l := by simp [hl']
      have hx0 : x ≠ kCardNull := ne_kCardNull_of_isValid
        (hvalid x (List.mem_of_mem_erase (List.mem_of_mem_erase hx)))
      rw [hl', List.dropLast_concat, List.getLastD_concat, newTiles_of_ne hx0]
      exact Multiset.coe_eq_coe.mpr (List.perm_append_singleton x l').symm
  show _ = {c₁, c₂} + (newTiles (l.getLastD kCardNull) + ↑l.dropLast)
  rw [hlast]
  rfl

/-! ### What is offered -/

/-- A type offered on a map names two indices of the map that are not empty. -/
lemma cards_of_chiTypes {m : ℕ → ℕ} (h0 : m 0 = 0) (ht : t ∈ chiTypes m b) :
    ∃ c₁ c₂, chiCardList b t = some (c₁, c₂) ∧ (c₁ ≠ 0 ∧ 0 < m c₁) ∧ c₂ ≠ 0 ∧ 0 < m c₂ := by
  have hne : ∀ i, 0 < m i → i ≠ 0 ∧ 0 < m i := by
    intro i hi
    refine ⟨?_, hi⟩
    rintro rfl
    omega
  simp only [chiTypes, List.mem_append] at ht
  rcases ht with (ht | ht) | ht
  all_goals
    split_ifs at ht with hcount
    swap
    · simp at ht
    rw [List.mem_singleton.mp ht]
  · exact ⟨b - 2, b - 1, rfl, hne _ hcount.2, hne _ hcount.1⟩
  · exact ⟨b - 1, b + 1, rfl, hne _ hcount.1, hne _ hcount.2⟩
  · exact ⟨b + 1, b + 2, rfl, hne _ hcount.1, hne _ hcount.2⟩

/-- A type that `getCanChiTypeWithDa` offers can be executed. -/
lemma executable_of_withDa (hvalid : ∀ c ∈ p.cardList, MJCard.isValid c = true)
    (ht : t ∈ p.getCanChiTypeWithDa b L) (pos : Seat) : p.Executable L b pos t := by
  unfold getCanChiTypeWithDa at ht
  split_ifs at ht with hn hv hb
  · simp at ht
  · simp at ht
  · simp at ht
  rw [Bool.not_eq_true] at hn
  simp only [Bool.not_eq_true', Bool.not_eq_false] at hv
  rw [transHandCardsToCountMap_hand hn] at ht
  have hheld : ∀ c, c ≠ 0 ∧ 0 < (if c = 0 then 0 else tileMap L p.cardList c) →
      c ∉ L ∧ c ∈ p.cardList := by
    intro c hc
    rw [if_neg hc.1] at hc
    exact ((tileMap_pos_iff hc.1).mp hc.2).2
  have hzero : (fun i => if i = 0 then 0 else tileMap L p.cardList i) 0 = 0 := rfl
  obtain ⟨c₁, c₂, hcards, h₁, h₂⟩ := cards_of_chiTypes hzero ht
  exact executable_of_mem hn hvalid hv (not_le.mp hb) hcards (hheld c₁ h₁) (hheld c₂ h₂) pos

/-- What `getCanChiType` offers, where the wild tiles pass for no tile. -/
lemma executable_of_in (hvalid : ∀ c ∈ p.cardList, MJCard.isValid c = true)
    (hwild : ¬p.WildNeighbour L b) (ht : t ∈ p.getCanChiTypeIn b L) (pos : Seat) :
    p.Executable L b pos t := by
  have h0 : (0 : ℕ) ∉ p.cardList := fun hmem => absurd (hvalid 0 hmem) (by decide)
  unfold getCanChiTypeIn at ht
  split_ifs at ht with hn hv hb
  · simp at ht
  · simp at ht
  · simp at ht
  rw [Bool.not_eq_true] at hn
  simp only [Bool.not_eq_true', Bool.not_eq_false] at hv
  have hb1 : 1 ≤ b := Nat.one_le_iff_ne_zero.mpr (ne_kCardNull_of_isValid hv)
  rw [transHandCardsToCountMap_hand hn] at ht
  set m := tileMap L p.cardList with hm
  have hmap : ∀ {i : ℕ}, i ≠ 0 → 0 < m i → i ∉ L ∧ i ∈ p.cardList :=
    fun hi hpos => ((tileMap_pos_iff hi).mp hpos).2
  have hfill : 0 < m 0 → ∃ w ∈ L, w ∈ p.cardList := (tileMap_zero_pos_iff h0).mp
  have hexec : ∀ c₁ c₂, chiCardList b t = some (c₁, c₂) → c₁ ≠ 0 → c₂ ≠ 0 → 0 < m c₁ → 0 < m c₂ →
      p.Executable L b pos t := fun c₁ c₂ hcards hc₁ hc₂ h₁ h₂ =>
    executable_of_mem hn hvalid hv (not_le.mp hb) hcards (hmap hc₁ h₁) (hmap hc₂ h₂) pos
  simp only [List.mem_append] at ht
  rcases ht with (ht | ht) | ht
  all_goals
    split_ifs at ht with hcount
    swap
    · simp at ht
    obtain ⟨⟨i, hi, -, hposi⟩, j, hj, -, hposj⟩ :=
      And.intro (countAt_pos_iff.mp hcount.1) (countAt_pos_iff.mp hcount.2)
    obtain rfl := List.mem_singleton.mp ht
  · -- the discard ends the run; index `0` is read for `Wan2`
    obtain ⟨rfl, rfl⟩ : i = b - 1 ∧ j = b - 2 := ⟨by omega, by omega⟩
    by_cases h2 : b = 2
    · subst h2
      obtain ⟨hnot, hmem⟩ := hmap one_ne_zero hposi
      exact absurd ⟨hfill hposj, Or.inr ⟨rfl, hmem, hnot⟩⟩ hwild
    · exact hexec (b - 2) (b - 1) rfl (by omega) (by omega) hposj hposi
  · -- the discard is in the middle; index `0` is read for `Wan1`
    obtain ⟨rfl, rfl⟩ : i = b - 1 ∧ j = b + 1 := ⟨by omega, by omega⟩
    by_cases h1 : b = 1
    · subst h1
      obtain ⟨hnot, hmem⟩ := hmap two_ne_zero hposj
      exact absurd ⟨hfill hposi, Or.inl ⟨rfl, hmem, hnot⟩⟩ hwild
    · exact hexec (b - 1) (b + 1) rfl (by omega) (by omega) hposi hposj
  · obtain ⟨rfl, rfl⟩ : i = b + 1 ∧ j = b + 2 := ⟨by omega, by omega⟩
    exact hexec (b + 1) (b + 2) rfl (by omega) (by omega) hposi hposj

/-- Where the wild tiles pass for a tile, a type is offered that names the tile `0`. -/
lemma exists_offer_of_wildNeighbour (hn : p.hasNewCard = false)
    (h0 : 0 ∉ p.cardList) (hwild : p.WildNeighbour L b) :
    ∃ t ∈ p.getCanChiTypeIn b L, ∃ c, chiCardList b t = some (0, c) := by
  obtain ⟨hheld, hcase⟩ := hwild
  have hzero : 0 < tileMap L p.cardList 0 := (tileMap_zero_pos_iff h0).mpr hheld
  rcases hcase with ⟨rfl, hmem, hnot⟩ | ⟨rfl, hmem, hnot⟩
  · have htwo : 0 < tileMap L p.cardList 2 :=
      (tileMap_pos_iff two_ne_zero).mpr ⟨by decide, hnot, hmem⟩
    refine ⟨.mChi, ?_, 2, rfl⟩
    have hcount : 0 < countAt (tileMap L p.cardList) ((1 : ℕ) - 1) ∧
        0 < countAt (tileMap L p.cardList) ((1 : ℕ) + 1) :=
      ⟨countAt_pos_iff.mpr ⟨0, by decide, by decide, hzero⟩,
        countAt_pos_iff.mpr ⟨2, by decide, by decide, htwo⟩⟩
    rw [getCanChiTypeIn, hn, transHandCardsToCountMap_hand hn]
    simp only [Bool.false_eq_true, if_false, show MJCard.isValid 1 = true from rfl, Bool.not_true,
      show ¬3 ≤ 1 / 10 by decide, if_pos hcount, List.mem_append]
    exact Or.inl (Or.inr (List.mem_singleton_self _))
  · have hone : 0 < tileMap L p.cardList 1 :=
      (tileMap_pos_iff one_ne_zero).mpr ⟨by decide, hnot, hmem⟩
    refine ⟨.lChi, ?_, 1, rfl⟩
    have hcount : 0 < countAt (tileMap L p.cardList) ((2 : ℕ) - 1) ∧
        0 < countAt (tileMap L p.cardList) ((2 : ℕ) - 2) :=
      ⟨countAt_pos_iff.mpr ⟨1, by decide, by decide, hone⟩,
        countAt_pos_iff.mpr ⟨0, by decide, by decide, hzero⟩⟩
    rw [getCanChiTypeIn, hn, transHandCardsToCountMap_hand hn]
    simp only [Bool.false_eq_true, if_false, show MJCard.isValid 2 = true from rfl, Bool.not_true,
      show ¬3 ≤ 2 / 10 by decide, if_pos hcount, List.mem_append]
    exact Or.inl (Or.inl (List.mem_singleton_self _))

end Offers

/-- **When the offered runs can be executed**: for every hand without a new tile, every list of wild
tiles and every discard, all types that `getCanChiType` and `getCanChiTypeWithDa` return can be
executed, if and only if the wild tiles at index `0` do not pass for a tile next to `Wan1`.

**Proof sketch.** The tests read entries of the count map. An entry at an index other than `0` is
positive only for tiles of the hand that are not wild (`tileMap_pos_iff`), and then `doChi` finds
its two tiles (`executable_of_mem`). Index `0` is read only for the discards `Wan1` and `Wan2`, and
`getCanChiTypeWithDa` has emptied it; where it counts a wild tile, the type names the tile `0`,
which no hand has. -/
theorem offers_executable_iff (p : MJPlayer) (L : List ℕ) (b : ℕ) (pos : Seat)
    (hn : p.hasNewCard = false) (hvalid : ∀ c ∈ p.cardList, MJCard.isValid c = true) :
    (∀ t, t ∈ p.getCanChiTypeIn b L ∨ t ∈ p.getCanChiTypeWithDa b L → p.Executable L b pos t) ↔
      ¬p.WildNeighbour L b := by
  have h0 : (0 : ℕ) ∉ p.cardList := fun hmem => absurd (hvalid 0 hmem) (by decide)
  constructor
  · intro hexec hwild
    obtain ⟨t, ht, c, hcards⟩ := exists_offer_of_wildNeighbour hn h0 hwild
    obtain ⟨c₁, c₂, hcards', ⟨-, hmem, -⟩, -⟩ := hexec t (Or.inl ht)
    rw [hcards, Option.some.injEq, Prod.mk.injEq] at hcards'
    rw [← hcards'.1] at hmem
    exact h0 hmem
  · rintro hwild t (ht | ht)
    · exact executable_of_in hvalid hwild ht pos
    · exact executable_of_withDa hvalid ht pos

/-- The hand `4`, `5`, `5`, `35` with the wild tile `35` and the discard `3`: the run is offered and
can be executed. -/
theorem offers_executable_of_four_five :
    Oper.rChi ∈ getCanChiTypeIn ⟨kCardNull, [4, 5, 5, 35], [], .null, []⟩ 3 [35] ∧
      Executable ⟨kCardNull, [4, 5, 5, 35], [], .null, []⟩ [35] 3 0 .rChi :=
  ⟨by decide,
    (offers_executable_iff ⟨kCardNull, [4, 5, 5, 35], [], .null, []⟩ [35] 3 0 rfl
      (by decide)).mpr (by simp [WildNeighbour]) .rChi (Or.inl (by decide))⟩

/-- The hand `2`, `5`, `5`, `35` with the wild tile `35` and the discard `1`: the run in the middle
is offered, and `doChi` refuses it. -/
theorem offer_of_wan1_not_executable :
    Oper.mChi ∈ getCanChiTypeIn ⟨kCardNull, [2, 5, 5, 35], [], .null, []⟩ 1 [35] ∧
      (doChi ⟨kCardNull, [2, 5, 5, 35], [], .null, []⟩ 1 .mChi 0).1 = false ∧
      ¬Executable ⟨kCardNull, [2, 5, 5, 35], [], .null, []⟩ [35] 1 0 .mChi := by
  have hrefuse : (doChi ⟨kCardNull, [2, 5, 5, 35], [], .null, []⟩ 1 .mChi 0).1 = false := by decide
  refine ⟨by decide, hrefuse, ?_⟩
  rintro ⟨c₁, c₂, -, -, -, hdo, -⟩
  rw [hrefuse] at hdo
  exact absurd hdo (by decide)

end Mahjong.MJPlayer
