import JsmjServer.Mahjong.MJMath

set_option relaxedAutoImplicit false
set_option autoImplicit false

/-!
# The pair the recogniser reports

`MJMath:canHu` keeps the pair tile of the division it found in the field `jiang`, which
`MJMath:getJiangTou` returns. The search sets the field when it takes a pair off the table and
resets it when the rest cannot be divided.

## Main definitions

* `Mahjong.MJMath.canHuJiang` — the recogniser together with the field it leaves.
* `Mahjong.MJMath.PairIs`, `Mahjong.MJMath.WildPair` — some division has the pair `t`, or a pair of
  two wild tiles.

## Main results

* `Mahjong.MJMath.standerHu_restores_any` — a failed search leaves any table and pair as they were.
* `Mahjong.MJMath.reported_of_standerHu` — the pair a successful search leaves.
* `Mahjong.MJMath.getJiangTou_pair` — the pair reported is a pair of a division.
-/

namespace Mahjong.MJMath

/-! ### The field -/

/-- `MJMath:canHu` with the field `jiang`, which `MJMath:getJiangTou` returns afterwards. -/
def canHuJiang (jiang : ℤ) (pai : ℕ → ℕ) : Bool × ℤ :=
  if (remain pai + pai 0) % 3 ≠ 2 then (false, jiang)
  else
    let r := standerHu (remain pai + 1) ⟨pai, kCardNull⟩
    (r.1, r.2.jiang)

lemma canHuJiang_of_mod {pai : ℕ → ℕ} (jiang : ℤ) (h : (remain pai + pai 0) % 3 = 2) :
    canHu pai = (standerHu (remain pai + 1) ⟨pai, kCardNull⟩).1 ∧
      (canHuJiang jiang pai).2 = (standerHu (remain pai + 1) ⟨pai, kCardNull⟩).2.jiang := by
  have hne : ¬(remain pai + pai 0) % 3 ≠ 2 := not_not.mpr h
  simp only [canHu, canHuJiang, hne, if_false, and_self]

/-! ### The pair of a division -/

/-- The natural tiles `n` and `w` wild tiles divide into triplets and runs. -/
def Melds (n : Multiset ℕ) (w : ℕ) : Prop := WildCover IsTile pairs melds 0 n w

/-- Some division of `n` and `w` wild tiles has the pair `t`: two natural copies of it, or one and
a wild tile. -/
def PairIs (n : Multiset ℕ) (w t : ℕ) : Prop :=
  IsTile t ∧ ((∃ rest, n = {t, t} + rest ∧ Melds rest w) ∨
    ∃ rest w', n = {t} + rest ∧ w = 1 + w' ∧ Melds rest w')

/-- Some division of `n` and `w` wild tiles has a pair of two wild tiles. -/
def WildPair (n : Multiset ℕ) (w : ℕ) : Prop := ∃ w', w = 2 + w' ∧ Melds n w'

/-- The value `jiang` names the pair of some division of `n` and `w` wild tiles. -/
def Reported (n : Multiset ℕ) (w : ℕ) (jiang : ℤ) : Prop :=
  (∃ t : ℕ, jiang = t ∧ PairIs n w t) ∨ (jiang = kMJAnyCard ∧ WildPair n w)

section Reported

variable {n N V : Multiset ℕ} {w t : ℕ} {jiang : ℤ}

lemma PairIs.add_meld (h : PairIs n w t) (hb : N + V ∈ melds) (hV : ∀ x ∈ V, IsTile x) :
    PairIs (N + n) (V.card + w) t := by
  obtain ⟨ht, ⟨rest, rfl, hrest⟩ | ⟨rest, w', rfl, rfl, hrest⟩⟩ := h
  · exact ⟨ht, Or.inl ⟨N + rest, add_left_comm _ _ _, WildCover.add_meld hrest hb hV⟩⟩
  · exact ⟨ht, Or.inr ⟨N + rest, V.card + w', add_left_comm _ _ _, add_left_comm _ _ _,
      WildCover.add_meld hrest hb hV⟩⟩

lemma WildPair.add_meld (h : WildPair n w) (hb : N + V ∈ melds) (hV : ∀ x ∈ V, IsTile x) :
    WildPair (N + n) (V.card + w) := by
  obtain ⟨w', rfl, hrest⟩ := h
  exact ⟨V.card + w', add_left_comm _ _ _, WildCover.add_meld hrest hb hV⟩

/-- The pair stays the pair of a division when a meld is put back. -/
lemma Reported.add_meld (h : Reported n w jiang) (hb : N + V ∈ melds) (hV : ∀ x ∈ V, IsTile x) :
    Reported (N + n) (V.card + w) jiang := by
  rcases h with ⟨t, rfl, h⟩ | ⟨rfl, h⟩
  · exact Or.inl ⟨t, rfl, h.add_meld hb hV⟩
  · exact Or.inr ⟨rfl, h.add_meld hb hV⟩

/-- A pair through the tile `t` that is put back. -/
lemma pairIs_of_mem_pairs (h : Melds n w) (hb : N + V ∈ pairs) (ht : t ∈ N) :
    PairIs (N + n) (V.card + w) t := by
  obtain ⟨x, hx, heq⟩ := hb
  have hcard := congrArg Multiset.card heq
  rw [Multiset.card_add, Multiset.card_pair] at hcard
  have hmem : ∀ y ∈ N, y = x := by
    intro y hy
    have : y ∈ ({x, x} : Multiset ℕ) := heq ▸ Multiset.mem_add.mpr (Or.inl hy)
    simpa using this
  obtain rfl := hmem t ht
  have hN : N = Multiset.replicate N.card t := Multiset.eq_replicate.mpr ⟨rfl, hmem⟩
  have hpos : 0 < N.card := Multiset.card_pos_iff_exists_mem.mpr ⟨t, ht⟩
  obtain h1 | h2 : N.card = 1 ∨ N.card = 2 := by omega
  · rw [h1] at hN hcard
    have hV : V.card = 1 := by omega
    rw [hN, hV]
    exact ⟨hx, Or.inr ⟨n, w, rfl, rfl, h⟩⟩
  · rw [h2] at hN hcard
    have hV : V.card = 0 := by omega
    rw [hN, hV, Nat.zero_add]
    exact ⟨hx, Or.inl ⟨n, rfl, h⟩⟩

end Reported

/-! ### Failed searches -/

/-- A branch that is tried finds its tiles on the table, whatever the table is. -/
lemma branches_reversible {s : HuState} {idx : ℕ} {c : Backtrack.Step HuState}
    (hpos : 0 < s.pai idx) (hc : c ∈ branches idx) : c.Reversible s := by
  have hback : ∀ (u : Used) (pair : Bool) (g : HuState → Bool), u.own ≤ s.pai idx →
      u.next ≤ s.pai (idx + 1) → u.last ≤ s.pai (idx + 2) → u.wild ≤ s.pai 0 →
      (pair = true → s.jiang = kCardNull) →
      (branch idx u pair g).undo ((branch idx u pair g).take s) = s := by
    intro u pair g hown hnext hlast hwild hj
    have hpai : (fun i => s.pai i - u.at idx i + u.at idx i) = s.pai := by
      funext i
      refine Nat.sub_add_cancel ?_
      unfold Used.at
      split_ifs with h0 hi hi1 hi2
      · rwa [h0]
      · rwa [hi]
      · rwa [hi1]
      · rwa [hi2]
      · exact Nat.zero_le _
    cases pair with
    | false => simp [branch, hpai]
    | true =>
      have hj' := hj rfl
      cases s with
      | mk pai jiang => simp_all [branch]
  intro hg
  simp only [branches, List.mem_cons, List.not_mem_nil, or_false] at hc
  rcases hc with rfl | rfl | rfl | rfl | rfl | rfl | rfl | rfl | rfl
  all_goals
    simp only [branch, Bool.and_eq_true, decide_eq_true_eq, beq_iff_eq, Bool.not_eq_true',
      decide_eq_false_iff_not] at hg
    apply hback <;> simp only [Nat.zero_le, forall_const, Bool.false_eq_true, false_implies]
  all_goals omega

/-- **A failed search leaves the table and the pair as they were**, whatever they are. -/
lemma standerHu_restores_any (fuel : ℕ) (s : HuState) : Backtrack.Restores (standerHu fuel) s := by
  induction fuel generalizing s with
  | zero => exact fun _ => rfl
  | succ fuel ih =>
    intro hfail
    rw [standerHu] at hfail ⊢
    split_ifs at hfail ⊢ with hr h1
    obtain ⟨-, -, hpos, -⟩ := lowest_spec hr
    exact Backtrack.tryAll_restores (fun c hc => branches_reversible hpos hc)
      (fun c _ _ => ih _) hfail

/-! ### Successful searches -/

/-- What a successful search from `s` reports: the pair chosen before, or the pair of a division. -/
def Reports (s : HuState) (jiang : ℤ) : Prop :=
  if s.jiang = kCardNull then Reported (tiles s.pai) (s.pai 0) jiang
  else jiang = s.jiang ∧ Melds (tiles s.pai) (s.pai 0)

section Search

variable {s : HuState} {idx : ℕ} {u : Used} {pair : Bool} {g : HuState → Bool} {jiang : ℤ}

/-- Putting a block back. -/
lemma Takes.reports (h : Takes s idx u pair) (hr : Reports ((branch idx u pair g).take s) jiang) :
    Reports s jiang := by
  obtain ⟨V, hV, hok, hblock⟩ := h.block
  have hpai : s.pai 0 = V.card + (s.pai 0 - u.at idx 0) := by
    have := h.fits.wild
    rw [Used.at_zero]
    omega
  unfold Reports at hr ⊢
  rw [h.fits.tiles_take, hpai]
  cases pair with
  | false =>
    simp only [branch, Bool.false_eq_true, if_false] at hr hblock
    split_ifs at hr ⊢ with hj
    · exact hr.add_meld hblock hok
    · exact ⟨hr.1, WildCover.add_meld hr.2 hblock hok⟩
  | true =>
    have hne : (idx : ℤ) ≠ kCardNull := by
      have := h.fits.pos
      unfold kCardNull
      omega
    simp only [branch, if_true, hne, if_false] at hr hblock
    rw [if_pos (h.jiang rfl), hr.1]
    refine Or.inl ⟨idx, rfl, pairIs_of_mem_pairs hr.2 hblock ?_⟩
    rw [← Multiset.count_pos, Used.block, Multiset.count_add, Multiset.count_add,
      Multiset.count_replicate_self]
    have := h.own
    omega

/-- Wild tiles alone. -/
lemma reports_of_remain_eq_zero (hs : Sound s) (hr : remain s.pai = 0) :
    Reports s (if s.jiang = kCardNull then kMJAnyCard else s.jiang) := by
  have hzero : tiles s.pai = 0 := by
    rw [← Multiset.card_eq_zero, card_tiles, hr]
  have hmelds : ∀ w, w % 3 = 0 → Melds 0 w := by
    intro w hw
    have htile : IsTile 1 := by decide
    have hpair : ({1, 1} : Multiset ℕ) ∈ pairs := ⟨1, htile, rfl⟩
    have hcover : WildCover IsTile pairs melds 0 0 (0 * 2 + w / 3 * 3) :=
      WildCover.zero_of_card hpair (triplet_mem_melds htile) (by simpa using htile)
        (by simpa using htile) _
    have hcard : w = 0 * 2 + w / 3 * 3 := by omega
    rw [hcard]
    exact hcover
  obtain ⟨-, hmod⟩ := hs
  unfold Reports
  unfold need at hmod
  rw [hzero]
  split_ifs at hmod ⊢ with hj
  · exact Or.inr ⟨rfl, s.pai 0 - 2, by omega, hmelds _ (by omega)⟩
  · exact ⟨rfl, hmelds _ (by omega)⟩

/-- The last natural tile and the last wild tile form the pair. -/
lemma reports_of_remain_eq_one (hs : Sound s) (hr : remain s.pai = 1) (hw : s.pai 0 = 1)
    (hj : s.jiang = kCardNull) : Reports s (getNotNone s.pai) := by
  have hne : remain s.pai ≠ 0 := by omega
  obtain ⟨h1, h37, hpos, -⟩ := lowest_spec hne
  have hlow : getNotNone s.pai = lowest s.pai := by
    obtain ⟨i, hi⟩ : ∃ i, (indices.find? fun i => decide (0 < s.pai i)) = some i := by
      refine Option.isSome_iff_exists.mp (List.find?_isSome.mpr ?_)
      exact ⟨lowest s.pai, List.mem_range'_1.mpr ⟨h1, by omega⟩, by simpa using hpos⟩
    rw [getNotNone, lowest, hi, Option.getD_some, Option.getD_some]
  have hmem : lowest s.pai ∈ tiles s.pai := by
    rw [← Multiset.count_pos, count_tiles, if_pos ⟨h1, h37⟩]
    exact hpos
  obtain ⟨t, ht⟩ := Multiset.card_eq_one.mp ((card_tiles s.pai).trans hr)
  rw [ht, Multiset.mem_singleton] at hmem
  have hmelds : Melds 0 0 := ⟨0, 0, 0, rfl, by simp, rfl, by simp, by simp, by simp⟩
  rw [Reports, if_pos hj, hlow, hw, ht, hmem]
  exact Or.inl ⟨t, rfl, hmem ▸ isTile_lowest hs hne, Or.inr ⟨0, 0, (add_zero _).symm, rfl, hmelds⟩⟩

/-- **The pair a successful search leaves.**

**Proof sketch.** Induction on the fuel. The branch that succeeds takes a block off, and the search
ends as its recursive call does (`Backtrack.exists_of_tryAll`); what that call reports is reported
when the block is put back (`Takes.reports`). -/
lemma reported_of_standerHu (fuel : ℕ) (s : HuState) (hs : Sound s)
    (h : (standerHu fuel s).1 = true) : Reports s (standerHu fuel s).2.jiang := by
  induction fuel generalizing s with
  | zero => simp [standerHu] at h
  | succ fuel ih =>
    rw [standerHu] at h ⊢
    split_ifs at h ⊢ with hr hj h1
    · simpa only [hj, if_true] using reports_of_remain_eq_zero hs hr
    · simpa only [hj, if_false] using reports_of_remain_eq_zero hs hr
    · exact reports_of_remain_eq_one hs h1.1 h1.2.1 h1.2.2.1
    · have ht := isTile_lowest hs hr
      obtain ⟨-, -, hpos, -⟩ := lowest_spec hr
      obtain ⟨c, hc, hg, hrun, heq⟩ := Backtrack.exists_of_tryAll
        (fun c hc => branches_reversible hpos hc)
        (fun c _ _ => standerHu_restores_any fuel (c.take s)) h
      rw [heq]
      obtain ⟨u, pair, g, rfl, htake⟩ := branches_take ht hpos hc hg
      exact htake.reports (ih _ (htake.sound hs).1 hrun)

end Search

/-- **The reported pair is a pair.** After `canHu` has accepted a count map, `getJiangTou` is a tile
that is the pair of a division, with at most one wild tile in it, or `kMJAnyCard`, and then a
division has a pair of wild tiles. No failed call of the search changes the table or the pair. -/
theorem getJiangTou_pair (m : CountMap) (jiang : ℤ) :
    (canHu m.pai = true → Reported (tiles m.pai) (m.pai 0) (canHuJiang jiang m.pai).2) ∧
    ∀ fuel s, (standerHu fuel s).1 = false → (standerHu fuel s).2 = s := by
  refine ⟨fun h => ?_, fun fuel s => standerHu_restores_any fuel s⟩
  have hmod : (remain m.pai + m.pai 0) % 3 = 2 := by
    rw [← card_tiles]
    exact ((canHu_iff m.gap).mp h).card_mod
  obtain ⟨hrun, hjiang⟩ := canHuJiang_of_mod jiang hmod
  have hs : Sound ⟨m.pai, kCardNull⟩ := ⟨m.gap, by simpa [need] using hmod⟩
  have hrep := reported_of_standerHu _ _ hs (hrun ▸ h)
  rw [hjiang]
  rwa [Reports, if_pos rfl] at hrep

end Mahjong.MJMath
