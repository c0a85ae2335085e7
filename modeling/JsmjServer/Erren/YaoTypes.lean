import JsmjServer.Erren.CountHuType

set_option relaxedAutoImplicit false
set_option autoImplicit false

/-!
# Terminals and concealed triplets in mahjong for two

`isDuan` asks for a hand without terminals and honours, `isQuanYao` for one with a terminal or an
honour in each block, and `getAnKeCount` counts concealed triplets and kongs. `isDuan` looks at the
indices of the count map and not at its counts. `isQuanYao` takes every pile for a triplet or kong,
forbids it the terminals `Tiao1` and `Tiao9`, and allows it the tiles between.

## Main definitions

* `Erren.IsYao`, `Erren.YaoHand` — terminals and honours; a hand whose blocks all have one.
* `Erren.CountHuType.YaoTypesRight` — the three tests give what they are named for.
* `Erren.CountHuType.YaoCondition` — when they do.

## Main results

* `Erren.yaoHand_iff` — such hands by the counts of the suit Tiao.
* `Erren.CountHuType.yaoTypes_right_iff` — when the three tests are right.
-/

namespace Erren

open Mahjong MJMath

/-! ### Hands with a terminal or an honour in each block -/

/-- Terminals of the suit Tiao and honours. -/
def IsYao (x : ℕ) : Prop := x = 11 ∨ x = 19 ∨ (31 ≤ x ∧ x ≤ 37)

instance decidableIsYao : DecidablePred IsYao := fun _ =>
  inferInstanceAs (Decidable (_ ∨ _ ∨ _ ∧ _))

lemma IsYao.isTile {x : ℕ} (h : IsYao x) : IsTile x := by
  rcases h with rfl | rfl | h
  · decide
  · decide
  · exact ⟨by omega, h.2, by omega⟩

/-- Some division has a terminal or an honour in the pair and in each meld. -/
def YaoHand (n : Multiset ℕ) : Prop :=
  ∃ p ms, Division n p ms ∧ (∃ x ∈ p, IsYao x) ∧ ∀ b ∈ ms, ∃ x ∈ b, IsYao x

/-- The test of `isQuanYao` on the hand: no tile from `Tiao4` to `Tiao6`, and the tiles beside a
terminal are no more than it. -/
structure Flanks (n : Multiset ℕ) : Prop where
  middle : ∀ x ∈ n, ¬(14 ≤ x ∧ x ≤ 16)
  low : n.count 12 ≤ n.count 11 ∧ n.count 13 ≤ n.count 11
  high : n.count 18 ≤ n.count 19 ∧ n.count 17 ≤ n.count 19

/-- A triplet. -/
def ke (a : ℕ) : Multiset ℕ := {a, a, a}

variable {n p : Multiset ℕ} {ms S S' : Multiset (Multiset ℕ)} {a i : ℕ}

lemma eq_of_mem_ke {x : ℕ} (h : x ∈ ke a) : x = a := by simpa [ke] using h

lemma mem_run {x : ℕ} : x ∈ run i ↔ x = i ∨ x = i + 1 ∨ x = i + 2 := by simp [run]

lemma run_ne_ke : run i ≠ ke a := by
  intro h
  have h0 : i = a := eq_of_mem_ke (h ▸ mem_run.mpr (Or.inl rfl))
  have h1 : i + 1 = a := eq_of_mem_ke (h ▸ mem_run.mpr (Or.inr (Or.inl rfl)))
  omega

lemma mem_ke : a ∈ ke a := by simp [ke]

lemma count_run (ha : a ∈ run i) : (run i).count a = 1 := by
  rcases mem_run.mp ha with rfl | rfl | rfl
  all_goals simp [run]

/-- The copies of a tile in melds that have it in one run or in its triplet only. -/
lemma count_sum_melds (ha : a ∈ run i) (h : ∀ b ∈ ms, b = run i ∨ b = ke a ∨ a ∉ b) :
    ms.sum.count a = ms.count (run i) + 3 * ms.count (ke a) := by
  have hthree : (ke a).count a = 3 := by simp [ke]
  induction ms using Multiset.induction_on with
  | empty => rfl
  | cons b ms ih =>
    rw [Multiset.sum_cons, Multiset.count_add, ih fun b hb => h b (Multiset.mem_cons_of_mem hb),
      Multiset.count_cons, Multiset.count_cons]
    rcases h b (Multiset.mem_cons_self b ms) with rfl | rfl | hb
    · rw [if_pos rfl, if_neg run_ne_ke.symm, count_run ha]
      omega
    · rw [if_neg run_ne_ke, if_pos rfl, hthree]
      omega
    · have hke : ke a ≠ b := fun he => hb (he ▸ mem_ke)
      have hrun : run i ≠ b := fun he => hb (he ▸ ha)
      rw [Multiset.count_eq_zero.mpr hb, if_neg hke, if_neg hrun]
      omega

/-- The melds of a hand of the game without the tiles from `Tiao4` to `Tiao6`. -/
lemma meld_cases (hdiv : Division n p ms) (hn : ∀ x ∈ n, IsErren x)
    (hmid : ∀ x ∈ n, ¬(14 ≤ x ∧ x ≤ 16)) :
    ∀ b ∈ ms, b = run 11 ∨ b = run 17 ∨ ∃ x ∈ n, b = ke x := by
  intro b hb
  have hmem : ∀ x ∈ b, x ∈ n := by
    intro x hx
    rw [hdiv.sum]
    exact Multiset.mem_add.mpr (Or.inr (Multiset.mem_join.mpr ⟨b, hb, hx⟩))
  rcases hdiv.melds b hb with ⟨x, -, rfl⟩ | ⟨i, hi, rfl⟩
  · exact Or.inr (Or.inr ⟨x, hmem x (by simp), rfl⟩)
  · have h0 : i ∈ n := hmem i (by simp)
    have h1 := hmid _ (hmem (i + 1) (by simp))
    have h2 := hmid _ (hmem (i + 2) (by simp))
    have hErren := hn i h0
    have hmid0 := hmid i h0
    obtain ⟨hlt, -, h7⟩ := hi
    unfold IsErren at hErren
    obtain rfl | rfl : i = 11 ∨ i = 17 := by omega
    · exact Or.inl rfl
    · exact Or.inr (Or.inl rfl)

/-- The copies of a tile beside a terminal, or of the terminal. -/
lemma count_division (hdiv : Division n p ms)
    (hms : ∀ b ∈ ms, b = run 11 ∨ b = run 17 ∨ ∃ x, b = ke x)
    (hi : (i = 11 ∧ a ∈ run 11) ∨ (i = 17 ∧ a ∈ run 17)) :
    n.count a = p.count a + ms.count (run i) + 3 * ms.count (ke a) := by
  have ha : a ∈ run i := by
    rcases hi with ⟨rfl, h⟩ | ⟨rfl, h⟩
    · exact h
    · exact h
  rw [hdiv.sum, Multiset.count_add, count_sum_melds ha, add_assoc]
  intro b hb
  have hother : ∀ j, (j = 11 ∨ j = 17) → b = run j → b = run i ∨ a ∉ b := by
    rintro j hj rfl
    by_cases hji : j = i
    · exact Or.inl (by rw [hji])
    · refine Or.inr fun hmem => ?_
      rw [mem_run] at hmem ha
      omega
  rcases hms b hb with h | h | ⟨x, rfl⟩
  · exact (hother 11 (Or.inl rfl) h).imp_right Or.inr
  · exact (hother 17 (Or.inr rfl) h).imp_right Or.inr
  · by_cases hx : x = a
    · exact Or.inr (Or.inl (by rw [hx]))
    · exact Or.inr (Or.inr fun hmem => hx (eq_of_mem_ke hmem).symm)

/-- The copies of the tiles around the two terminals. -/
lemma flank_counts (hdiv : Division n p ms)
    (hms : ∀ b ∈ ms, b = run 11 ∨ b = run 17 ∨ ∃ x, b = ke x) :
    (n.count 11 = p.count 11 + ms.count (run 11) + 3 * ms.count (ke 11) ∧
      n.count 12 = p.count 12 + ms.count (run 11) + 3 * ms.count (ke 12) ∧
      n.count 13 = p.count 13 + ms.count (run 11) + 3 * ms.count (ke 13)) ∧
    n.count 17 = p.count 17 + ms.count (run 17) + 3 * ms.count (ke 17) ∧
      n.count 18 = p.count 18 + ms.count (run 17) + 3 * ms.count (ke 18) ∧
      n.count 19 = p.count 19 + ms.count (run 17) + 3 * ms.count (ke 19) := by
  refine ⟨⟨?_, ?_, ?_⟩, ?_, ?_, ?_⟩
  all_goals exact count_division hdiv hms (by decide)

/-- The counts of a hand whose blocks all have a terminal or an honour. -/
lemma YaoHand.flanks (h : YaoHand n) :
    Flanks n ∧ n.count 12 = n.count 13 ∧ n.count 17 = n.count 18 := by
  obtain ⟨p, ms, hdiv, hp, hms⟩ := h
  have hforms : ∀ b ∈ ms, b = run 11 ∨ b = run 17 ∨ ∃ x, IsYao x ∧ b = ke x := by
    intro b hb
    obtain ⟨x, hx, hyao⟩ := hms b hb
    rcases hdiv.melds b hb with ⟨y, -, rfl⟩ | ⟨i, ⟨hlt, h1, h7⟩, rfl⟩
    · exact Or.inr (Or.inr ⟨y, eq_of_mem_ke hx ▸ hyao, rfl⟩)
    · have hcases := mem_run.mp hx
      unfold IsYao at hyao
      obtain rfl | rfl : i = 11 ∨ i = 17 := by omega
      · exact Or.inl rfl
      · exact Or.inr (Or.inl rfl)
  obtain ⟨y, -, hpy⟩ := hdiv.pair
  have hyao : IsYao y := by
    obtain ⟨x, hx, hx'⟩ := hp
    obtain rfl : x = y := by simpa [hpy] using hx
    exact hx'
  have hpair : ∀ x ∈ p, IsYao x := by
    intro x hx
    obtain rfl : x = y := by simpa [hpy] using hx
    exact hyao
  -- tiles beside the terminals are in runs only
  have hnone : ∀ a, ¬IsYao a → p.count a = 0 ∧ ms.count (ke a) = 0 := by
    intro a ha
    refine ⟨Multiset.count_eq_zero.mpr fun hmem => ha (hpair a hmem),
      Multiset.count_eq_zero.mpr fun hmem => ha ?_⟩
    obtain ⟨x, hx, hyao⟩ := hms _ hmem
    exact eq_of_mem_ke hx ▸ hyao
  obtain ⟨⟨h11, h12, h13⟩, h17, h18, h19⟩ := flank_counts hdiv fun b hb =>
    (hforms b hb).imp_right (Or.imp_right (Exists.imp fun _ hx => hx.2))
  have n12 := hnone 12 (by decide)
  have n13 := hnone 13 (by decide)
  have n17 := hnone 17 (by decide)
  have n18 := hnone 18 (by decide)
  refine ⟨⟨fun x hx hmid => ?_, ⟨by omega, by omega⟩, ⟨by omega, by omega⟩⟩, by omega, by omega⟩
  have hnot : ¬IsYao x := by
    unfold IsYao
    omega
  rw [hdiv.sum] at hx
  rcases Multiset.mem_add.mp hx with hx | hx
  · exact hnot (hpair x hx)
  · obtain ⟨b, hb, hxb⟩ := Multiset.mem_join.mp hx
    rcases hforms b hb with rfl | rfl | ⟨y, hy, rfl⟩
    · have := mem_run.mp hxb
      omega
    · have := mem_run.mp hxb
      omega
    · exact hnot (eq_of_mem_ke hxb ▸ hy)

lemma ke_injective : Function.Injective ke := by
  intro a b h
  refine eq_of_mem_ke (a := b) ?_
  rw [← h]
  exact mem_ke

/-- Three triplets in a row are three runs. -/
lemma sum_nsmul_kes (k i : ℕ) :
    (k • (run i).map ke).sum = (Multiset.replicate (3 * k) (run i)).sum := by
  rw [Multiset.sum_nsmul, Multiset.sum_replicate, mul_nsmul]
  congr 1
  ext x
  simp only [run, Multiset.insert_eq_cons, Multiset.map_cons, Multiset.map_singleton,
    Multiset.sum_cons, Multiset.sum_singleton, Multiset.count_add, Multiset.count_nsmul, ke,
    Multiset.count_cons, Multiset.count_singleton]
  split_ifs <;> omega

/-- Triplets in a row are exchanged for runs. -/
lemma exists_straight {k : ℕ} (hk : ∀ a ∈ run i, k ≤ ms.count (ke a)) :
    ∃ ms' : Multiset (Multiset ℕ), ms'.sum = ms.sum ∧ (∀ b ∈ ms', b = run i ∨ b ∈ ms) ∧
      ∀ a, ms'.count (ke a) = ms.count (ke a) - k * (run i).count a := by
  have hcount : ∀ a, (k • (run i).map ke).count (ke a) = k * (run i).count a := by
    intro a
    rw [Multiset.count_nsmul, Multiset.count_map_eq_count' _ _ ke_injective]
  have hle : k • (run i).map ke ≤ ms := by
    rw [Multiset.le_iff_count]
    intro b
    by_cases hb : b ∈ (run i).map ke
    · obtain ⟨a, ha, rfl⟩ := Multiset.mem_map.mp hb
      rw [hcount, count_run ha, mul_one]
      exact hk a ha
    · rw [Multiset.count_nsmul, Multiset.count_eq_zero.mpr hb, mul_zero]
      exact Nat.zero_le _
  refine ⟨Multiset.replicate (3 * k) (run i) + (ms - k • (run i).map ke), ?_, fun b hb => ?_,
    fun a => ?_⟩
  · rw [Multiset.sum_add, ← sum_nsmul_kes, ← Multiset.sum_add, add_tsub_cancel_of_le hle]
  · rcases Multiset.mem_add.mp hb with hb | hb
    · exact Or.inl (Multiset.eq_of_mem_replicate hb)
    · exact Or.inr (Multiset.mem_of_le (Multiset.sub_le_self _ _) hb)
  · rw [Multiset.count_add, Multiset.count_sub, hcount, Multiset.count_replicate,
      if_neg run_ne_ke, zero_add]

/-- **Blocks with a terminal or an honour, by counts**: a hand of the game has such a division
exactly if it wins, has no tile from `Tiao4` to `Tiao6`, as many `Tiao2` as `Tiao3` and no more
than `Tiao1`, and as many `Tiao7` as `Tiao8` and no more than `Tiao9`.

**Proof sketch.** Take any division. Its melds are runs from `Tiao1` or `Tiao7` and triplets, and
equal counts leave no pair of a tile beside a terminal. There are as many triplets of `Tiao2` as of
`Tiao3`, and no fewer of `Tiao1`; these are exchanged for runs. -/
lemma yaoHand_iff (hn : ∀ x ∈ n, IsErren x) : YaoHand n ↔
    Winning n 0 ∧ Flanks n ∧ n.count 12 = n.count 13 ∧ n.count 17 = n.count 18 := by
  constructor
  · intro h
    obtain ⟨p, ms, hdiv, -, -⟩ := id h
    exact ⟨winning_zero_iff.mpr ⟨p, ms, hdiv⟩, h.flanks⟩
  rintro ⟨hwin, ⟨hmid, hlow, hhigh⟩, hl, hh⟩
  obtain ⟨p, ms, hdiv⟩ := winning_zero_iff.mp hwin
  have hforms := meld_cases hdiv hn hmid
  obtain ⟨⟨h11, h12, h13⟩, h17, h18, h19⟩ := flank_counts hdiv fun b hb =>
    (hforms b hb).imp_right (Or.imp_right (Exists.imp fun _ hx => hx.2))
  obtain ⟨y, -, hpy⟩ := hdiv.pair
  have hpcount : ∀ a, p.count a = if a = y then 2 else 0 := by
    intro a
    rw [hpy]
    simp only [Multiset.insert_eq_cons, Multiset.count_cons, Multiset.count_singleton]
    split_ifs <;> rfl
  simp only [hpcount] at h11 h12 h13 h17 h18 h19
  -- the pair is not beside a terminal
  have hy : y ≠ 12 ∧ y ≠ 13 ∧ y ≠ 17 ∧ y ≠ 18 := by
    refine ⟨?_, ?_, ?_, ?_⟩
    all_goals
      rintro rfl
      norm_num at h11 h12 h13 h17 h18 h19
      omega
  rw [if_neg (by omega), zero_add] at h12 h13 h17 h18
  have hp11 : (if 11 = y then 2 else 0) ≤ 2 := by split_ifs <;> omega
  have hp19 : (if 19 = y then 2 else 0) ≤ 2 := by split_ifs <;> omega
  -- the triplets beside the terminals become runs
  have hk₁ : ∀ a ∈ run 11, ms.count (ke 12) ≤ ms.count (ke a) := by
    intro a ha
    have hcases : a = 11 ∨ a = 12 ∨ a = 13 := mem_run.mp ha
    rcases hcases with rfl | rfl | rfl
    all_goals omega
  obtain ⟨ms₁, hsum₁, hmem₁, hke₁⟩ := exists_straight hk₁
  have hhigh₁ : ∀ a, 14 ≤ a → ms₁.count (ke a) = ms.count (ke a) := by
    intro a ha
    have hnot : a ∉ run 11 := by
      rw [mem_run]
      omega
    rw [hke₁, Multiset.count_eq_zero.mpr hnot, mul_zero, Nat.sub_zero]
  have hk₂ : ∀ a ∈ run 17, ms.count (ke 17) ≤ ms₁.count (ke a) := by
    intro a ha
    have hcases : a = 17 ∨ a = 18 ∨ a = 19 := mem_run.mp ha
    rw [hhigh₁ a (by omega)]
    rcases hcases with rfl | rfl | rfl
    all_goals omega
  obtain ⟨ms₂, hsum₂, hmem₂, hke₂⟩ := exists_straight hk₂
  have hgone : ∀ a, a ∈ [12, 13, 17, 18] → ke a ∉ ms₂ := by
    intro a ha
    rw [← Multiset.count_eq_zero, hke₂, hke₁]
    have hrun : (a ∈ run 11 ∧ ms.count (ke a) = ms.count (ke 12)) ∨
        (a ∉ run 11 ∧ a ∈ run 17 ∧ ms.count (ke a) = ms.count (ke 17)) := by
      simp only [List.mem_cons, List.not_mem_nil, or_false] at ha
      rcases ha with rfl | rfl | rfl | rfl
      · exact Or.inl ⟨by decide, rfl⟩
      · exact Or.inl ⟨by decide, by omega⟩
      · exact Or.inr ⟨by decide, by decide, rfl⟩
      · exact Or.inr ⟨by decide, by decide, by omega⟩
    rcases hrun with ⟨h, hc⟩ | ⟨h, h', hc⟩
    · rw [count_run h, hc]
      omega
    · rw [Multiset.count_eq_zero.mpr h, count_run h', hc]
      omega
  have hrest : ∀ x, IsErren x → ¬(14 ≤ x ∧ x ≤ 16) → x ∉ [12, 13, 17, 18] → IsYao x := by
    intro x hx hxmid hnot
    simp only [List.mem_cons, List.not_mem_nil, or_false, not_or] at hnot
    unfold IsErren at hx
    unfold IsYao
    omega
  have hcases : ∀ b ∈ ms₂, b = run 11 ∨ b = run 17 ∨ ∃ x, IsYao x ∧ b = ke x := by
    intro b hb
    rcases hmem₂ b hb with h | h
    · exact Or.inr (Or.inl h)
    rcases hmem₁ b h with h | h
    · exact Or.inl h
    refine (hforms b h).imp_right (Or.imp_right ?_)
    rintro ⟨x, hx, rfl⟩
    exact ⟨x, hrest x (hn x hx) (hmid x hx) fun hmem => hgone x hmem hb, rfl⟩
  have hyn : y ∈ n := by
    rw [hdiv.sum, hpy]
    exact Multiset.mem_add.mpr (Or.inl (Multiset.mem_cons_self y _))
  have hyyao : IsYao y := by
    refine hrest y (hn y hyn) (hmid y hyn) ?_
    simp only [List.mem_cons, List.not_mem_nil, or_false]
    omega
  refine ⟨p, ms₂, ⟨hdiv.pair, fun b hb => ?_, ?_⟩, ⟨y, ?_, hyyao⟩, fun b hb => ?_⟩
  · rcases hcases b hb with rfl | rfl | ⟨x, hx, rfl⟩
    · exact run_mem_melds ⟨by decide, by decide, by decide⟩
    · exact run_mem_melds ⟨by decide, by decide, by decide⟩
    · exact triplet_mem_melds hx.isTile
  · rw [hsum₂, hsum₁]
    exact hdiv.sum
  · rw [hpy]
    exact Multiset.mem_cons_self y _
  · rcases hcases b hb with rfl | rfl | ⟨x, hx, rfl⟩
    · exact ⟨11, by decide, by decide⟩
    · exact ⟨19, by decide, by decide⟩
    · exact ⟨x, mem_ke, hx⟩

/-! ### The tests -/

namespace CountHuType

/-- `isDuan`, `isQuanYao` and `getAnKeCount` give what they are named for. -/
structure YaoTypesRight (t : CountHuType) : Prop where
  duan : t.isDuan = true ↔ (∀ x ∈ t.hand, ¬IsYao x) ∧
    ∀ pile ∈ t.player.pileList, ∀ x ∈ pileTiles pile, ¬IsYao x
  quanYao : t.isQuanYao = true ↔ YaoHand t.hand ∧
    ∀ pile ∈ t.player.pileList, ∃ x ∈ pileTiles pile, IsYao x
  anKe : t.getAnKeCount = (t.player.pileList.countP fun pile => pile.operType = .ag) +
    (t.hand.toFinset.filter fun x => 3 ≤ t.hand.count x).card

/-- The condition: some tile is a terminal or an honour; no pile is a concealed kong; and, on a hand
that passes `Flanks`, no pile has a tile from `Tiao1` to `Tiao3` or from `Tiao7` to `Tiao9` exactly
if each pile has a terminal or an honour, the recogniser accepts the hand, and it has as many
`Tiao2` as `Tiao3` and as many `Tiao7` as `Tiao8`. -/
structure YaoCondition (t : CountHuType) : Prop where
  yao : (∃ x ∈ t.hand, IsYao x) ∨
    ∃ pile ∈ t.player.pileList, ∃ x ∈ pileTiles pile, IsYao x
  noAnGang : ∀ pile ∈ t.player.pileList, pile.operType ≠ .ag
  sets : Flanks t.hand →
    ((∀ pile ∈ t.player.pileList, ∀ x ∈ pile.cardList, x ∉ [11, 12, 13, 17, 18, 19]) ↔
      (∀ pile ∈ t.player.pileList, ∃ x ∈ pileTiles pile, IsYao x) ∧
        MJMath.canHu t.fullCountMap = true ∧ t.hand.count 12 = t.hand.count 13 ∧
          t.hand.count 17 = t.hand.count 18)

section Tests

variable {t : CountHuType}

/-- The count map has the index `Tiao1`, whatever its count. -/
lemma isDuan_eq_false : t.isDuan = false := by
  rw [isDuan, Bool.and_eq_false_iff]
  exact Or.inr (by decide)

lemma isQuanYao_iff : t.isQuanYao = true ↔
    (∀ pile ∈ t.player.pileList, ∀ x ∈ pile.cardList, x ∉ [11, 12, 13, 17, 18, 19]) ∧
      Flanks t.hand := by
  have hpiles : (t.player.pileList.all fun pile => pile.cardList.all fun card =>
      if (oper pile).any fun o => chiType.contains o then
        !([12, 13, 14, 15, 16, 17, 18].contains card)
      else !([11, 12, 13, 17, 18, 19].contains card)) = true ↔
      ∀ pile ∈ t.player.pileList, ∀ x ∈ pile.cardList, x ∉ [11, 12, 13, 17, 18, 19] := by
    simp [oper]
  have hmid : ((List.range' 11 9).all fun i => !(0 < t.fullCountMap i && 14 ≤ i && i ≤ 16)) = true ↔
      ∀ x ∈ t.hand, ¬(14 ≤ x ∧ x ≤ 16) := by
    simp only [List.all_eq_true, List.mem_range'_1, Bool.not_eq_true', Bool.and_eq_false_iff,
      decide_eq_false_iff_not]
    constructor
    · intro h x hx hmid
      have hpos := Multiset.count_pos.mpr hx
      rw [← fullCountMap_eq t (by omega)] at hpos
      have := h x (by omega)
      omega
    · intro h i hi
      by_contra hnot
      have hpos : 0 < t.fullCountMap i := by omega
      rw [fullCountMap_eq t (by omega)] at hpos
      exact h i (Multiset.count_pos.mp hpos) (by omega)
  rw [isQuanYao, Bool.and_eq_true, Bool.and_eq_true, hpiles, hmid, and_assoc]
  refine and_congr_right fun _ => ?_
  simp only [Bool.not_eq_true', Bool.or_eq_false_iff, decide_eq_false_iff_not, not_lt,
    fullCountMap_eq t (show 11 ≤ 37 by decide), fullCountMap_eq t (show 12 ≤ 37 by decide),
    fullCountMap_eq t (show 13 ≤ 37 by decide), fullCountMap_eq t (show 17 ≤ 37 by decide),
    fullCountMap_eq t (show 18 ≤ 37 by decide), fullCountMap_eq t (show 19 ≤ 37 by decide)]
  constructor
  · rintro ⟨hm, ⟨hlow, h18⟩, h17⟩
    exact ⟨hm, hlow, h18, h17⟩
  · rintro ⟨hm, hlow, h18, h17⟩
    exact ⟨hm, ⟨hlow, h18⟩, h17⟩

/-- The program takes no pile for a concealed kong. -/
lemma getAnKeCount_eq (ht : Dealt t) :
    t.getAnKeCount = (t.hand.toFinset.filter fun x => 3 ≤ t.hand.count x).card := by
  have hpiles : (t.player.pileList.countP fun pile => oper pile == some .ag) = 0 := by
    simp [oper]
  rw [getAnKeCount, hpiles, zero_add, List.countP_eq_length_filter,
    ← List.toFinset_card_of_nodup (List.nodup_range.filter _)]
  congr 1
  ext x
  simp only [List.mem_toFinset, List.mem_filter, List.mem_range, decide_eq_true_eq,
    Finset.mem_filter, Multiset.mem_toFinset]
  constructor
  · rintro ⟨hx, hc⟩
    rw [fullCountMap_eq t (by omega)] at hc
    exact ⟨Multiset.count_pos.mp (by omega), hc⟩
  · rintro ⟨hx, hc⟩
    have hle := (ht.isErren x hx).isTile.2.1
    rw [fullCountMap_eq t hle]
    exact ⟨by omega, hc⟩

/-- The recogniser on the hand. -/
lemma canHu_hand (ht : Dealt t) : MJMath.canHu t.fullCountMap = true ↔ Winning t.hand 0 :=
  canHu_iff_of_count (fun x hx => (ht.isErren x hx).isTile) fun _ hi => fullCountMap_eq t hi

/-- **Terminals and concealed triplets**: the three tests are right exactly under the condition.

**Proof sketch.** `isDuan` is never true, and no pile is counted as a concealed kong. `isQuanYao`
looks at `Flanks` of the hand, and `yaoHand_iff` says what is missing for a division. -/
theorem yaoTypes_right_iff (ht : Dealt t) : t.YaoTypesRight ↔ t.YaoCondition := by
  have hduan : (t.isDuan = true ↔ (∀ x ∈ t.hand, ¬IsYao x) ∧
      ∀ pile ∈ t.player.pileList, ∀ x ∈ pileTiles pile, ¬IsYao x) ↔
      (∃ x ∈ t.hand, IsYao x) ∨ ∃ pile ∈ t.player.pileList, ∃ x ∈ pileTiles pile, IsYao x := by
    rw [isDuan_eq_false]
    simp only [Bool.false_eq_true, false_iff, not_and_or, not_forall, not_not, exists_prop]
  have hanKe : (t.getAnKeCount = (t.player.pileList.countP fun pile => pile.operType = .ag) +
      (t.hand.toFinset.filter fun x => 3 ≤ t.hand.count x).card) ↔
      ∀ pile ∈ t.player.pileList, pile.operType ≠ .ag := by
    rw [getAnKeCount_eq ht, right_eq_add, List.countP_eq_zero]
    simp only [decide_eq_true_eq]
  have hquan : (t.isQuanYao = true ↔ YaoHand t.hand ∧
      ∀ pile ∈ t.player.pileList, ∃ x ∈ pileTiles pile, IsYao x) ↔ (Flanks t.hand →
      ((∀ pile ∈ t.player.pileList, ∀ x ∈ pile.cardList, x ∉ [11, 12, 13, 17, 18, 19]) ↔
        (∀ pile ∈ t.player.pileList, ∃ x ∈ pileTiles pile, IsYao x) ∧
          MJMath.canHu t.fullCountMap = true ∧ t.hand.count 12 = t.hand.count 13 ∧
            t.hand.count 17 = t.hand.count 18)) := by
    rw [isQuanYao_iff, yaoHand_iff ht.isErren, canHu_hand ht]
    by_cases hF : Flanks t.hand
    · simp only [hF, and_true, true_and, forall_const]
      exact iff_congr Iff.rfl and_comm
    · simp only [hF, and_false, false_and, false_imp_iff]
  constructor
  · rintro ⟨hd, hq, ha⟩
    exact ⟨hduan.mp hd, hanKe.mp ha, hquan.mp hq⟩
  · rintro ⟨hd, ha, hq⟩
    exact ⟨hduan.mpr hd, hquan.mpr hq, hanKe.mpr ha⟩

end Tests

/-- Triplets of winds, one of them exposed, and a pair of dragons. -/
def windTriplets : CountHuType :=
  ⟨⟨kCardNull, [31, 31, 31, 32, 32, 32, 33, 33, 33, 35], [⟨[34, 34, 34], .peng, none⟩], .null, []⟩,
    some 35⟩

/-- The three tests are right for the triplets of winds. -/
theorem windTriplets_right : windTriplets.YaoTypesRight := by
  refine (yaoTypes_right_iff ⟨by decide, by decide⟩).mpr ⟨Or.inl ⟨35, by decide, by decide⟩,
    by decide, fun _ => iff_of_true (by decide) ⟨by decide, by decide +kernel, ?_, ?_⟩⟩
  all_goals decide

/-- Runs, a triplet and a pair from `Tiao2` to `Tiao8`. -/
def simples : CountHuType :=
  ⟨⟨kCardNull, [12, 12, 12, 13, 13, 14, 14, 15, 15, 15, 16, 17, 18], [], .null, []⟩, some 15⟩

/-- A winning hand without terminals and honours, and no piles: `isDuan` is false. -/
theorem simples_not_duan : simples.player.canHu 15 [] = true ∧ (∀ x ∈ simples.hand, ¬IsYao x) ∧
    simples.player.pileList = [] ∧ simples.isDuan = false := by
  decide +kernel

end CountHuType

end Erren
