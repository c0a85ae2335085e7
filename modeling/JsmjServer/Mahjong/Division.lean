import JsmjServer.Mahjong.MJMath

set_option relaxedAutoImplicit false
set_option autoImplicit false

/-!
# Divisions of a hand without wild tiles

A complete decomposition as a value: the pair, and the multiset of triplets and runs. The types a
win is scored by ask whether some decomposition contains given runs or a given pair.

## Main definitions

* `Mahjong.MJMath.Division` — `n` is the pair `p` and the melds `ms`.
* `Mahjong.MJMath.run` — the run that begins with a tile.

## Main results

* `Mahjong.MJMath.canHu_iff_of_count` — the recogniser on a table that counts a hand.
* `Mahjong.MJMath.Division.block_cases` — where a division has a given tile.
* `Mahjong.MJMath.exists_division_iff` — some division contains given melds exactly if these can be
  taken off the hand and the rest wins.
-/

namespace Mahjong.MJMath

/-- The tiles `n` are the pair `p` and the triplets and runs `ms`. -/
structure Division (n p : Multiset ℕ) (ms : Multiset (Multiset ℕ)) : Prop where
  pair : p ∈ pairs
  melds : ∀ b ∈ ms, b ∈ melds
  sum : n = p + ms.sum

/-- The run of three tiles that begins with `t`. -/
def run (t : ℕ) : Multiset ℕ := {t, t + 1, t + 2}

variable {n p : Multiset ℕ} {ms bs : Multiset (Multiset ℕ)} {pai : ℕ → ℕ}

/-- A hand without wild tiles wins if it has a division. -/
lemma winning_zero_iff : Winning n 0 ↔ ∃ p ms, Division n p ms := by
  constructor
  · rintro ⟨W, ps, ms, hW, -, hk, hP, hM, he⟩
    obtain ⟨p, rfl⟩ := Multiset.card_eq_one.mp hk
    rw [Multiset.card_eq_zero.mp hW, add_zero, Multiset.sum_singleton] at he
    exact ⟨p, ms, hP p (Multiset.mem_singleton_self p), hM, he⟩
  · rintro ⟨p, ms, hp, hms, he⟩
    refine ⟨0, {p}, ms, rfl, by simp, rfl, ?_, hms, ?_⟩
    · intro b hb
      rwa [Multiset.mem_singleton.mp hb]
    · rw [add_zero, Multiset.sum_singleton, he]

/-- **Divisions with given melds**: these can be taken off, and the rest wins. -/
lemma exists_division_iff (hbs : ∀ b ∈ bs, b ∈ melds) :
    (∃ p ms, Division n p ms ∧ bs ≤ ms) ↔ bs.sum ≤ n ∧ Winning (n - bs.sum) 0 := by
  rw [winning_zero_iff]
  constructor
  · rintro ⟨p, ms, ⟨hp, hms, rfl⟩, hle⟩
    obtain ⟨rest, rfl⟩ := Multiset.le_iff_exists_add.mp hle
    have hsum : p + (bs + rest).sum = bs.sum + (p + rest.sum) := by
      rw [Multiset.sum_add, add_left_comm]
    rw [hsum]
    refine ⟨Multiset.le_add_right _ _, p, rest, hp, ?_, add_tsub_cancel_left _ _⟩
    exact fun b hb => hms b (Multiset.mem_add.mpr (Or.inr hb))
  · rintro ⟨hle, p, ms, hp, hms, he⟩
    refine ⟨p, bs + ms, ⟨hp, ?_, ?_⟩, Multiset.le_add_right _ _⟩
    · intro b hb
      rcases Multiset.mem_add.mp hb with hb | hb
      · exact hbs b hb
      · exact hms b hb
    · rw [Multiset.sum_add, add_left_comm, ← he, add_tsub_cancel_of_le hle]

/-! ### The block of a tile -/

lemma cons_pair_rotate (a b c : ℕ) : a ::ₘ {b, c} = ({b, c, a} : Multiset ℕ) := by
  rw [Multiset.insert_eq_cons, Multiset.cons_swap, ← Multiset.insert_eq_cons a,
    Multiset.pair_comm a c]
  rfl

/-- Where a division has a tile: in the pair, in a triplet, or at one of the three places of a run.
Without it the hand is the rest of the block and all other blocks. -/
lemma Division.block_cases {w : ℕ} (h : Division (w ::ₘ n) p ms) :
    (p = {w, w} ∧ n = {w} + ms.sum) ∨
    (∃ ms', ms = {w, w, w} ::ₘ ms' ∧ n = {w, w} + (p + ms'.sum)) ∨
    ∃ i ms', IsRunStart i ∧ ms = run i ::ₘ ms' ∧
      ((w = i ∧ n = {i + 1, i + 2} + (p + ms'.sum)) ∨
        (w = i + 1 ∧ n = {i, i + 2} + (p + ms'.sum)) ∨
        (w = i + 2 ∧ n = {i, i + 1} + (p + ms'.sum))) := by
  obtain ⟨⟨y, hy, hp⟩, hms, he⟩ := h
  have hmem : w ∈ p + ms.sum := he ▸ Multiset.mem_cons_self _ _
  rcases Multiset.mem_add.mp hmem with hwp | hws
  · obtain rfl : w = y := by simpa [hp] using hwp
    rw [hp, Multiset.insert_eq_cons, Multiset.cons_add, Multiset.cons_inj_right] at he
    exact Or.inl ⟨hp, he⟩
  · obtain ⟨b, hb, hwb⟩ := Multiset.mem_join.mp hws
    obtain ⟨ms, rfl⟩ := Multiset.exists_cons_of_mem hb
    -- the rest of the block
    have hrest : ∀ c d : ℕ, b = w ::ₘ {c, d} → n = {c, d} + (p + ms.sum) := by
      intro c d hbcd
      rw [Multiset.sum_cons, hbcd, Multiset.cons_add, Multiset.add_cons,
        Multiset.cons_inj_right] at he
      rw [he, add_left_comm]
    rcases hms b hb with ⟨x, -, rfl⟩ | ⟨i, hi, rfl⟩
    · obtain rfl : w = x := by simpa using hwb
      exact Or.inr (Or.inl ⟨ms, rfl, hrest w w rfl⟩)
    · refine Or.inr (Or.inr ⟨i, ms, hi, rfl, ?_⟩)
      have hcases : w = i ∨ w = i + 1 ∨ w = i + 2 := by simpa using hwb
      rcases hcases with rfl | rfl | rfl
      · exact Or.inl ⟨rfl, hrest _ _ rfl⟩
      · exact Or.inr (Or.inl ⟨rfl, hrest _ _ (Multiset.cons_swap _ _ _)⟩)
      · exact Or.inr (Or.inr ⟨rfl, hrest _ _ (cons_pair_rotate _ _ _).symm⟩)

/-! ### The table of a hand -/

lemma tiles_of_count (hn : ∀ t ∈ n, IsTile t) (hpai : ∀ i ≤ 37, pai i = n.count i) :
    tiles pai = n := by
  ext t
  rw [count_tiles]
  split_ifs with ht
  · exact hpai t ht.2
  · refine (Multiset.count_eq_zero.mpr fun hmem => ht ?_).symm
    exact ⟨(hn t hmem).1, (hn t hmem).2.1⟩

/-- The recogniser on a table that counts the suit and honour tiles `n`. -/
lemma canHu_iff_of_count (hn : ∀ t ∈ n, IsTile t) (hpai : ∀ i ≤ 37, pai i = n.count i) :
    canHu pai = true ↔ Winning n 0 := by
  have hempty : ∀ i ≤ 37, ¬IsTile i → pai i = 0 := by
    intro i hi hnot
    rw [hpai i hi, Multiset.count_eq_zero]
    exact fun hmem => hnot (hn i hmem)
  have hgap : pai 10 = 0 ∧ pai 20 = 0 ∧ pai 30 = 0 :=
    ⟨hempty 10 (by decide) (by decide), hempty 20 (by decide) (by decide),
      hempty 30 (by decide) (by decide)⟩
  rw [canHu_iff hgap, tiles_of_count hn hpai, hempty 0 (by decide) (by decide)]

end Mahjong.MJMath
