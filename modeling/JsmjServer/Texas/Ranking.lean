import JsmjServer.Texas.BestGroup
import JsmjServer.Texas.Settlement

set_option relaxedAutoImplicit false
set_option autoImplicit false

/-!
# The comparison of hands and the ranking of players

`compareBestGroup` compares two straights by their lowest cards after a sort in which the ace is the
highest card. The lowest card of A-2-3-4-5 is then the two, as in 2-3-4-5-6, and the two straights
count as equal. Everything else is the standard order.

## Main definitions

* `Texas.CardAlgorithm.compareHands` — the comparison of the best groups of two players.
* `Texas.CardAlgorithm.asSix` — the order of the code: the lowest straight counts as the next one.
* `Texas.CardAlgorithm.WheelMeetsSix` — two best hands that the code confuses.
* `Texas.CardAlgorithm.rankLoop` — the ranking of `endNormal` with the comparison of groups.

## Main results

* `Texas.CardAlgorithm.compareHands_eq` — the order of the code.
* `Texas.CardAlgorithm.compareHands_iff` — where it is the standard order, and the ranking then.
-/

namespace Texas.CardAlgorithm

open PokerHands

/-! ### The worth of some cards -/

variable {cards five h h' : List ℕ} {type : GroupType} {g lg rg : BestGroup}

/-- The worth of cards does not depend on their order. -/
lemma strength_perm (hp : h.Perm h') : strength h = strength h' := by
  have hvalues := hp.map getCardRealValue
  have hcount : ∀ k, withCount h k = withCount h' k := fun k => by
    have heq : countOf h = countOf h' := funext fun v => hvalues.count_eq v
    rw [withCount, withCount, heq]
  have htop : straightTop h = straightTop h' := by
    simp only [straightTop, hvalues.mem_iff]
  have hflush : IsFlush h ↔ IsFlush h' := by
    simp only [IsFlush, hp.mem_iff]
  simp only [strength, category, ranks, groupRanks, hcount, htop, hflush]

lemma le_foldr_max {l : List (List ℕ)} {a : List ℕ} (ha : a ∈ l) : a ≤ l.foldr max [] := by
  induction l with
  | nil => cases ha
  | cons b l ih =>
    rcases List.mem_cons.mp ha with rfl | ha
    · exact le_max_left _ _
    · exact (ih ha).trans (le_max_right _ _)

lemma foldr_max_le {l : List (List ℕ)} {b : List ℕ} (hnil : [] ≤ b) (h : ∀ a ∈ l, a ≤ b) :
    l.foldr max [] ≤ b := by
  induction l with
  | nil => exact hnil
  | cons a l ih =>
    obtain ⟨ha, hl⟩ := List.forall_mem_cons.mp h
    exact max_le ha (ih hl)

/-- The best five cards have the worth of the best five cards. -/
lemma IsBest.best_eq (hb : IsBest cards five type) : best cards = strength five := by
  refine le_antisymm (foldr_max_le ?_ fun a ha => ?_) ?_
  · exact le_of_lt (List.nil_lt_cons _ _)
  · obtain ⟨h, hmem, rfl⟩ := List.mem_map.mp ha
    obtain ⟨hsub, hlen⟩ := List.mem_sublistsLen.mp hmem
    exact hb.max h ⟨hsub.subperm, hlen⟩
  · obtain ⟨l, hperm, hsub⟩ := hb.held.subperm
    rw [← strength_perm hperm]
    refine le_foldr_max (List.mem_map_of_mem (List.mem_sublistsLen.mpr ⟨hsub, ?_⟩))
    rw [hperm.length_eq, hb.held.length_eq]

/-! ### The comparison -/

lemma cmp_of_lt {a b : List ℕ} (h : a < b) : cmp a b = .lt := by
  unfold cmp cmpUsing
  rw [if_pos h]

lemma cmp_of_gt {a b : List ℕ} (h : b < a) : cmp a b = .gt := by
  unfold cmp cmpUsing
  rw [if_neg h.asymm, if_pos h]

lemma cmp_self (a : List ℕ) : cmp a a = .eq := by
  unfold cmp cmpUsing
  rw [if_neg (lt_irrefl a), if_neg (lt_irrefl a)]

lemma cmp_cons (a b : ℕ) (l m : List ℕ) :
    cmp (a :: l) (b :: m) = if a > b then .gt else if a < b then .lt else cmp l m := by
  unfold cmp cmpUsing
  simp only [List.cons_lt_cons_iff]
  rcases lt_trichotomy a b with hlt | rfl | hgt
  · simp [hlt, hlt.asymm]
  · simp
  · simp [hgt, hgt.asymm, hgt.ne, hgt.ne']

/-- Straights of one category are in the order of their highest cards. -/
lemma cmp_tops (k t t' : ℕ) : cmp [k, t] [k, t'] = cmp t t' := by
  rw [cmp_cons, if_neg (lt_irrefl k), if_neg (lt_irrefl k), cmp_cons]
  rcases lt_trichotomy t t' with hlt | rfl | hgt
  · rw [if_neg hlt.asymm, if_pos hlt, (cmp_eq_lt_iff t t').mpr hlt]
  · rw [if_neg (lt_irrefl t), if_neg (lt_irrefl t), cmp_self, cmp_self_eq_eq]
  · rw [if_pos hgt, (cmp_eq_gt_iff t t').mpr hgt]

/-- The comparison of the first cards is the one of their values. -/
lemma compareCards_eq {k : ℕ} {ls rs : List ℕ} (hl : ls.length = k) (hr : rs.length = k) :
    compareCards k ls rs =
      some (cmp (ls.map getCardRealValue) (rs.map getCardRealValue)) := by
  induction k generalizing ls rs with
  | zero =>
    rw [List.length_eq_zero_iff.mp hl, List.length_eq_zero_iff.mp hr]
    rfl
  | succ k ih =>
    match ls, rs with
    | l :: ls, r :: rs =>
      simp only [List.length_cons, Nat.add_right_cancel_iff] at hl hr
      rw [List.map_cons, List.map_cons, cmp_cons, compareCards, ih hl hr, apply_ite some,
        apply_ite some]

/-- The lowest value of a straight when the ace is the highest card. -/
def lowest (top : ℕ) : ℕ := if top = 5 then 2 else top - 4

/-- The first card of the sorted straight. -/
lemma head_sortByValue {w : List ℕ} {t : ℕ} (hw : w.length = 5) (ht : straightTop w = some t) :
    ∃ c l, sortByValue w = c :: l ∧ getCardRealValue c = lowest t := by
  have hperm : (sortByValue w).Perm w := List.perm_insertionSort _ _
  have hrun := perm_run ht hw
  have hvalues : ∀ v, v ∈ (sortByValue w).map getCardRealValue ↔ v ∈ run t := fun v =>
    ((hperm.map getCardRealValue).trans hrun.symm).mem_iff
  have htop := (straightTop_spec ht).1
  have hn : (w.map getCardRealValue).Nodup := hrun.nodup_iff.mp (run_nodup htop).1
  have hasc := sortByValue_ascending hn
  have hlow : lowest t ∈ run t ∧ ∀ v ∈ run t, lowest t ≤ v := by
    have hall : ∀ t ∈ tops, lowest t ∈ run t ∧ ∀ v ∈ run t, lowest t ≤ v := by decide
    exact hall t htop
  cases hs : sortByValue w with
  | nil =>
    have hlen := hperm.length_eq
    rw [hs, hw] at hlen
    cases hlen
  | cons c l =>
    refine ⟨c, l, rfl, le_antisymm ?_ (hlow.2 _ ((hvalues _).mp (by simp [hs])))⟩
    have hmem := (hvalues _).mpr hlow.1
    rw [hs, List.map_cons] at hasc hmem
    rcases List.mem_cons.mp hmem with heq | hmem
    · exact heq.ge
    · exact ((List.pairwise_cons.mp hasc).1 _ hmem).le

/-- The worth of a hand in the order of the code, where the lowest straight counts as the next. -/
def asSix (s : List ℕ) : List ℕ :=
  if s = [5, 5] then [5, 6] else if s = [9, 5] then [9, 6] else s

lemma asSix_cons {k : ℕ} {l : List ℕ} (h : k = 5 ∨ k = 9 → l ≠ [5]) :
    asSix (k :: l) = k :: l := by
  unfold asSix
  split_ifs with h₁ h₂
  · obtain ⟨rfl, rfl⟩ := List.cons.inj h₁
    exact absurd rfl (h (.inl rfl))
  · obtain ⟨rfl, rfl⟩ := List.cons.inj h₂
    exact absurd rfl (h (.inr rfl))
  · rfl

/-- Two straights of a category are compared by their lowest cards. -/
lemma cmp_lowest {k t t' : ℕ} (hk : k = 5 ∨ k = 9) (ht : t ∈ tops) (ht' : t' ∈ tops) :
    cmp (lowest t) (lowest t') = cmp (asSix [k, t]) (asSix [k, t']) := by
  have hall : ∀ k ∈ [5, 9], ∀ t ∈ tops, ∀ t' ∈ tops,
      cmp (lowest t) (lowest t') = cmp (asSix [k, t]) (asSix [k, t']) := by decide
  exact hall k (by simpa using hk) t ht t' ht'

/-- The first entry of the worth decides between two categories. -/
lemma head_asSix (k : ℕ) (l : List ℕ) : ∃ m, asSix (k :: l) = k :: m := by
  unfold asSix
  split_ifs with h₁ h₂
  · exact ⟨_, by rw [(List.cons.inj h₁).1]⟩
  · exact ⟨_, by rw [(List.cons.inj h₂).1]⟩
  · exact ⟨l, rfl⟩

/-- The ranks of cards that are no straight are as many as the values of the category. -/
lemma Finds.ranks_length (hd : Dealt cards) (hf : Finds cards g) (hs : g.type ≠ .straight)
    (hsf : g.type ≠ .straightFlush) : (ranks (fiveOf g)).length = (pattern g.type).length := by
  obtain ⟨hheld, hcat, -⟩ := hf.best
  rw [ranks_eq hheld.length_eq (by rwa [hcat]) (by rwa [hcat]), ← List.length_map (countOf _),
    counts_groupRanks (hheld.nodup hd) (hheld.valid hd) hheld.length_eq, hcat]

/-- A straight or straight flush with its highest card. -/
lemma Finds.straight (hf : Finds cards g) (hs : g.type = .straight ∨ g.type = .straightFlush) :
    ∃ t ∈ tops, straightTop (fiveOf g) = some t ∧ fiveOf g = g.groups.headD [] ∧
      ranks (fiveOf g) = [t] := by
  obtain ⟨hheld, hcat, -⟩ := hf.best
  have hne : straightTop (fiveOf g) ≠ none := by
    rcases hs with hs | hs
    · exact category_eq_straight (hcat.trans hs)
    · exact (category_eq_straightFlush (hcat.trans hs)).2
  obtain ⟨t, ht⟩ := Option.ne_none_iff_exists'.mp hne
  exact ⟨t, (straightTop_spec ht).1, ht, if_pos hs, by simp [ranks, ht]⟩

/-- The cards by which a flush is compared. -/
lemma Finds.flush_values (hd : Dealt cards) (hf : Finds cards g) (hg : g.type = .flush) :
    (sortByValueReverse (g.groups.headD [])).map getCardRealValue = ranks (fiveOf g) := by
  obtain ⟨hheld, hcat, -⟩ := hf.best
  have hvalid := hheld.valid hd
  have hn : ((fiveOf g).map getCardRealValue).Nodup := by
    refine List.nodup_iff_count_le_one.mpr ?_
    exact countOf_le_one_of_flush (hheld.nodup hd) hvalid (category_eq_flush (hcat.trans hg))
  have hperm : (sortByValueReverse (fiveOf g)).Perm (fiveOf g) := List.perm_insertionSort _ _
  rw [ranks_eq hheld.length_eq (by rw [hcat, hg]; decide) (by rw [hcat, hg]; decide), hf.flush hg,
    List.headD_cons]
  exact (groupRanks_of_descending (fun c hc => hvalid c (hperm.subset hc))
    (insertionSort_descending getCardRealValue hn) hperm.symm).symm

/-- `compareBestGroup` of two groups that were found is the order of the code. -/
lemma compareBestGroup_eq {cards' : List ℕ} (hd : Dealt cards) (hd' : Dealt cards')
    (hl : Finds cards lg) (hr : Finds cards' rg) :
    compareBestGroup lg rg = some (cmp (asSix (best cards)) (asSix (best cards'))) := by
  rw [hl.best.best_eq, hr.best.best_eq, strength, strength, hl.best.category_eq,
    hr.best.category_eq]
  have hnone : ∀ {cards g}, Finds cards g → g.type ≠ .none := by
    intro cards g hf hg
    have hcode := (le_code (fiveOf g)).1
    rw [hf.best.category_eq, hg] at hcode
    cases hcode
  obtain ⟨l, hl'⟩ := head_asSix lg.type.code (ranks (fiveOf lg))
  obtain ⟨r, hr'⟩ := head_asSix rg.type.code (ranks (fiveOf rg))
  rw [compareBestGroup, if_neg (by simp [hnone hl, hnone hr])]
  rcases lt_trichotomy lg.type.code rg.type.code with hlt | heq | hgt
  · rw [if_neg hlt.asymm, if_pos hlt, hl', hr', cmp_cons, if_neg hlt.asymm, if_pos hlt]
  swap
  · rw [if_pos hgt, hl', hr', cmp_cons, if_pos hgt]
  rw [if_neg heq.not_gt, if_neg heq.not_lt]
  have htype := code_inj heq
  by_cases hs : lg.type = .straight ∨ lg.type = .straightFlush
  · obtain ⟨t, ht, htop, hfive, hranks⟩ := hl.straight hs
    obtain ⟨t', ht', htop', hfive', hranks'⟩ := hr.straight (htype ▸ hs)
    obtain ⟨c, m, hc, hlow⟩ := head_sortByValue hl.best.held.length_eq htop
    obtain ⟨c', m', hc', hlow'⟩ := head_sortByValue hr.best.held.length_eq htop'
    rw [hfive] at hc
    rw [hfive'] at hc'
    have hcode : lg.type.code = 5 ∨ lg.type.code = 9 := by
      rcases hs with hs | hs
      · exact .inl (by rw [hs]; rfl)
      · exact .inr (by rw [hs]; rfl)
    have hcompare : compareCards 1 (sortByValue (lg.groups.headD []))
        (sortByValue (rg.groups.headD [])) = some (cmp (lowest t) (lowest t')) := by
      rw [hc, hc', compareCards, hlow, hlow', compareCards, ← cmp_tops 0, cmp_cons,
        if_neg (lt_irrefl 0), if_neg (lt_irrefl 0), cmp_cons, apply_ite some, apply_ite some,
        cmp_self]
    rw [hranks, hranks', ← heq, ← cmp_lowest hcode ht ht', ← hcompare]
    rcases hs with hs | hs <;> rw [hs]
  · push Not at hs
    have hs' : rg.type ≠ .straight ∧ rg.type ≠ .straightFlush := htype ▸ hs
    have hcode : ∀ l : List ℕ, asSix (lg.type.code :: l) = lg.type.code :: l := fun l =>
      asSix_cons fun hk => by
        rcases hk with hk | hk
        · exact absurd (code_inj (show _ = GroupType.code .straight from hk)) hs.1
        · exact absurd (code_inj (show _ = GroupType.code .straightFlush from hk)) hs.2
    have hlen := hl.ranks_length hd hs.1 hs.2
    have hlen' := hr.ranks_length hd' hs'.1 hs'.2
    rw [← htype] at hlen'
    rw [← heq, hcode, hcode, cmp_cons, if_neg (lt_irrefl _), if_neg (lt_irrefl _)]
    by_cases hfl : lg.type = .flush
    · have hv := hl.flush_values hd hfl
      have hv' := hr.flush_values hd' (htype ▸ hfl)
      rw [← hv] at hlen ⊢
      rw [← hv'] at hlen' ⊢
      rw [List.length_map, hfl] at hlen hlen'
      rw [hfl]
      exact compareCards_eq hlen hlen'
    · have hv := hl.first hs.1 hs.2 hfl
      have hv' := hr.first hs'.1 hs'.2 (htype ▸ hfl)
      rw [← hv] at hlen ⊢
      rw [← hv'] at hlen' ⊢
      rw [List.length_map] at hlen hlen'
      have hg := hnone hl
      cases hcase : lg.type with
      | none => exact absurd hcase hg
      | straight => exact absurd hcase hs.1
      | straightFlush => exact absurd hcase hs.2
      | flush => exact absurd hcase hfl
      | _ =>
        rw [hcase] at hlen hlen'
        exact compareCards_eq hlen hlen'

/-! ### Two hands -/

/-- The comparison of the best groups of the cards of two players. -/
def compareHands (cards5 cards2 cards5' cards2' : List ℕ) : Option Ordering :=
  (getBestGroup cards5 cards2).bind fun lg =>
    (getBestGroup cards5' cards2').bind fun rg => compareBestGroup lg rg

/-- One of two best hands is the lowest straight and the other the next one, of one category. -/
def WheelMeetsSix (l r : List ℕ) : Prop :=
  ∃ k ∈ [5, 9], (l = [k, 5] ∧ r = [k, 6]) ∨ (l = [k, 6] ∧ r = [k, 5])

instance (l r : List ℕ) : Decidable (WheelMeetsSix l r) :=
  inferInstanceAs (Decidable (∃ k ∈ [5, 9],
    (l = [k, 5] ∧ r = [k, 6]) ∨ (l = [k, 6] ∧ r = [k, 5])))

variable {cards5 cards2 cards5' cards2' : List ℕ}

/-- The comparison of two hands is the order of the code, so it is transitive and antisymmetric. -/
lemma compareHands_eq (hd : Dealt (cards5 ++ cards2)) (hd' : Dealt (cards5' ++ cards2')) :
    compareHands cards5 cards2 cards5' cards2' =
      some (cmp (asSix (best (cards5 ++ cards2))) (asSix (best (cards5' ++ cards2')))) := by
  obtain ⟨lg, hlg, hl⟩ := getBestGroup_finds hd
  obtain ⟨rg, hrg, hr⟩ := getBestGroup_finds hd'
  rw [compareHands, hlg, Option.bind_some, hrg, Option.bind_some, compareBestGroup_eq hd hd' hl hr]

/-- The worth of the best hand of the two categories of straights. -/
lemma best_cons (hd : Dealt (cards5 ++ cards2)) : ∃ k l, best (cards5 ++ cards2) = k :: l ∧
    (k = 5 ∨ k = 9 → ∃ t, l = [t]) := by
  obtain ⟨g, -, hg⟩ := getBestGroup_finds hd
  refine ⟨_, _, hg.best.best_eq, fun hk => ?_⟩
  rw [hg.best.category_eq] at hk
  have hs : g.type = .straight ∨ g.type = .straightFlush :=
    hk.imp (fun h => code_inj h) fun h => code_inj h
  obtain ⟨t, -, -, -, ht⟩ := hg.straight hs
  exact ⟨t, ht⟩

/-- The order of the code differs from the standard one on the lowest straight and the next. -/
lemma cmp_asSix_iff {k j : ℕ} {l m : List ℕ} (hl : k = 5 ∨ k = 9 → ∃ t, l = [t])
    (hm : j = 5 ∨ j = 9 → ∃ t, m = [t]) :
    cmp (asSix (k :: l)) (asSix (j :: m)) = cmp (k :: l) (j :: m) ↔
      ¬ WheelMeetsSix (k :: l) (j :: m) := by
  have hhead : WheelMeetsSix (k :: l) (j :: m) → (k = 5 ∨ k = 9) ∧ k = j := by
    rintro ⟨i, hi, ⟨h₁, h₂⟩ | ⟨h₁, h₂⟩⟩ <;>
      exact ⟨by simpa [(List.cons.inj h₁).1] using hi,
        (List.cons.inj h₁).1.trans (List.cons.inj h₂).1.symm⟩
  by_cases hkj : k = j
  · subst hkj
    by_cases hk : k = 5 ∨ k = 9
    · obtain ⟨t, rfl⟩ := hl hk
      obtain ⟨t', rfl⟩ := hm hk
      have hsix : ∀ t, asSix [k, t] = [k, if t = 5 then 6 else t] := by
        intro t
        rcases hk with rfl | rfl <;> by_cases h5 : t = 5 <;> simp [asSix, h5]
      have hmeets : WheelMeetsSix [k, t] [k, t'] ↔ t = 5 ∧ t' = 6 ∨ t = 6 ∧ t' = 5 := by
        rcases hk with rfl | rfl <;> simp [WheelMeetsSix]
      rw [hsix, hsix, hmeets, cmp_tops, cmp_tops]
      by_cases h5 : t = 5
      · subst h5
        rw [if_pos rfl]
        rcases lt_trichotomy t' 6 with hlt | rfl | hgt
        · by_cases h5' : t' = 5
          · subst h5'
            rw [if_pos rfl]
            decide
          · rw [if_neg h5', (cmp_eq_gt_iff 6 t').mpr (by omega),
              (cmp_eq_gt_iff 5 t').mpr (by omega)]
            simp
            omega
        · decide
        · rw [if_neg (by omega), (cmp_eq_lt_iff 6 t').mpr hgt, (cmp_eq_lt_iff 5 t').mpr (by omega)]
          simp
          omega
      · rw [if_neg h5]
        by_cases h5' : t' = 5
        · subst h5'
          rw [if_pos rfl]
          rcases lt_trichotomy t 6 with hlt | rfl | hgt
          · rw [(cmp_eq_lt_iff t 6).mpr hlt, (cmp_eq_lt_iff t 5).mpr (by omega)]
            simp
            omega
          · decide
          · rw [(cmp_eq_gt_iff t 6).mpr hgt, (cmp_eq_gt_iff t 5).mpr (by omega)]
            simp
            omega
        · rw [if_neg h5']
          exact iff_of_true rfl (by omega)
    · rw [asSix_cons fun h => absurd h hk, asSix_cons fun h => absurd h hk]
      exact iff_of_true rfl fun h => hk (hhead h).1
  · obtain ⟨l', hl'⟩ := head_asSix k l
    obtain ⟨m', hm'⟩ := head_asSix j m
    rw [hl', hm', cmp_cons, cmp_cons]
    rw [iff_true_right fun h => hkj (hhead h).2]
    rcases Nat.lt_or_gt_of_ne hkj with hlt | hgt
    · rw [if_neg hlt.asymm, if_pos hlt, if_neg hlt.asymm, if_pos hlt]
    · rw [if_pos hgt, if_pos hgt]

/-- Two hands compare as in standard poker unless the code confuses them. -/
lemma compareHands_eq_iff (hd : Dealt (cards5 ++ cards2)) (hd' : Dealt (cards5' ++ cards2')) :
    compareHands cards5 cards2 cards5' cards2' =
        some (cmp (best (cards5 ++ cards2)) (best (cards5' ++ cards2'))) ↔
      ¬ WheelMeetsSix (best (cards5 ++ cards2)) (best (cards5' ++ cards2')) := by
  rw [compareHands_eq hd hd', Option.some.injEq]
  obtain ⟨k, l, hl, hkl⟩ := best_cons hd
  obtain ⟨j, m, hm, hjm⟩ := best_cons hd'
  rw [hl, hm]
  exact cmp_asSix_iff hkl hjm

/-! ### The ranking -/

section Ranking

variable {n : ℕ}

/-- The loop for the largest group among those not used. -/
def maxGroup (groups : Fin n → BestGroup) (p : Fin n) (unused : List (Fin n)) : Fin n :=
  unused.foldl (fun m g =>
    if compareBestGroup (groups g) (groups m) = some .gt then g else m) p

/-- The loop of `endNormal` that ranks the groups: those equal to the largest one get the weight.
Where no group is equal to the largest one the loop does not end. -/
def rankLoop (groups : Fin n → BestGroup) (unused : List (Fin n)) (baseWeight : ℤ) :
    Option (List (Fin n × ℤ)) :=
  match unused with
  | [] => some []
  | p :: ps =>
    let m := maxGroup groups p ps
    let rest := (p :: ps).filter fun g => compareBestGroup (groups g) (groups m) ≠ some .eq
    if _hless : rest.length < (p :: ps).length then
      (rankLoop groups rest (baseWeight - 1)).map fun ranks =>
        ((p :: ps).filter fun g => compareBestGroup (groups g) (groups m) = some .eq).map
          (fun g => (g, baseWeight)) ++ ranks
    else none
termination_by unused.length
decreasing_by assumption

/-- `uidRank` of the players with their hole cards who have not folded. -/
def rankPlayers (desk : List ℕ) (hole : Fin n → List ℕ) (fold : Fin n → Bool) :
    Option (List (Fin n × ℤ)) :=
  rankLoop (fun p => (getBestGroup desk (hole p)).getD ⟨.none, []⟩)
    ((List.finRange n).filter fun p => !fold p) 10

/-- The number of players whose best hand is worth less. -/
def standardRank (desk : List ℕ) (hole : Fin n → List ℕ) (p : Fin n) : ℕ :=
  (Finset.univ.filter fun q => best (desk ++ hole q) < best (desk ++ hole p)).card

lemma cmp_standardRank (desk : List ℕ) (hole : Fin n → List ℕ) (p q : Fin n) :
    cmp (standardRank desk hole p) (standardRank desk hole q) =
      cmp (best (desk ++ hole p)) (best (desk ++ hole q)) := by
  have hmono : ∀ p q, best (desk ++ hole p) < best (desk ++ hole q) →
      standardRank desk hole p < standardRank desk hole q := by
    intro p q hlt
    refine Finset.card_lt_card (Finset.ssubset_iff_of_subset ?_ |>.mpr ⟨p, ?_, ?_⟩)
    · intro x hx
      simp only [Finset.mem_filter, Finset.mem_univ, true_and] at hx ⊢
      exact hx.trans hlt
    · simpa using hlt
    · simp
  rcases lt_trichotomy (best (desk ++ hole p)) (best (desk ++ hole q)) with hlt | heq | hgt
  · rw [cmp_of_lt hlt, (cmp_eq_lt_iff _ _).mpr (hmono p q hlt)]
  · have hrank : standardRank desk hole p = standardRank desk hole q := by
      rw [standardRank, standardRank, heq]
    rw [heq, cmp_self, (cmp_eq_eq_iff _ _).mpr hrank]
  · rw [cmp_of_gt hgt, (cmp_eq_gt_iff _ _).mpr (hmono q p hgt)]

/-- A comparison that is the order of the ranks gives the ranking of a showdown. -/
lemma rankLoop_eq (t : Showdown n) (groups : Fin n → BestGroup) (unused : List (Fin n))
    (base : ℤ) (h : ∀ p ∈ unused, ∀ q ∈ unused,
      compareBestGroup (groups p) (groups q) = some (cmp (t.rank p) (t.rank q))) :
    rankLoop groups unused base = some (t.rankLoop unused base) := by
  fun_induction Showdown.rankLoop t unused base with
  | case1 => rw [rankLoop]
  | case2 base p ps m ih =>
    have hmax : maxGroup groups p ps = m := by
      have hfold : ∀ (l : List (Fin n)) (a : Fin n), a ∈ p :: ps → l ⊆ p :: ps →
          l.foldl (fun m g =>
            if compareBestGroup (groups g) (groups m) = some .gt then g else m) a =
          l.foldl (fun m g => if t.rank m < t.rank g then g else m) a := by
        intro l
        induction l with
        | nil => exact fun _ _ _ => rfl
        | cons g l ihl =>
          intro a ha hl
          have hg := hl List.mem_cons_self
          have hgt : compareBestGroup (groups g) (groups a) = some .gt ↔ t.rank a < t.rank g := by
            rw [h g hg a ha, Option.some.injEq, cmp_eq_gt_iff]
          simp only [List.foldl_cons, hgt]
          refine ihl _ ?_ fun x hx => hl (List.mem_cons_of_mem _ hx)
          split_ifs
          · exact hg
          · exact ha
      exact hfold ps p List.mem_cons_self fun x hx => List.mem_cons_of_mem _ hx
    have hm : m ∈ p :: ps := (t.maxGroup_spec p ps).1
    have hiff : ∀ g ∈ p :: ps,
        compareBestGroup (groups g) (groups m) = some .eq ↔ t.rank g = t.rank m := fun g hg => by
      rw [h g hg m hm, Option.some.injEq, cmp_eq_eq_iff]
    have heq : (p :: ps).filter (fun g => compareBestGroup (groups g) (groups m) = some .eq) =
        (p :: ps).filter fun g => t.rank g = t.rank m :=
      List.filter_congr fun g hg => by simp only [hiff g hg]
    have hne : (p :: ps).filter (fun g => compareBestGroup (groups g) (groups m) ≠ some .eq) =
        (p :: ps).filter fun g => t.rank g ≠ t.rank m :=
      List.filter_congr fun g hg => by simp only [ne_eq, hiff g hg]
    have hlt : ((p :: ps).filter fun g => t.rank g ≠ t.rank m).length < (p :: ps).length :=
      List.length_filter_lt_length_iff_exists.mpr ⟨m, hm, by simp⟩
    rw [rankLoop]
    simp only [hmax]
    rw [heq, hne, dif_pos hlt, ih fun p' hp' q' hq' =>
      h p' (List.mem_of_mem_filter hp') q' (List.mem_of_mem_filter hq')]
    rfl

/-- Where no two players have hands that the code confuses, they are ranked by the standard order. -/
lemma rankPlayers_eq (t : Showdown n) {desk : List ℕ} {hole : Fin n → List ℕ}
    (hd : ∀ p, Dealt (desk ++ hole p))
    (hnot : ∀ p q, t.fold p = false → t.fold q = false →
      ¬ WheelMeetsSix (best (desk ++ hole p)) (best (desk ++ hole q))) :
    rankPlayers desk hole t.fold = some { t with rank := standardRank desk hole }.uidRank := by
  refine rankLoop_eq { t with rank := standardRank desk hole } _ _ 10 fun p hp q hq => ?_
  have hfold : ∀ x ∈ (List.finRange n).filter (fun p => !t.fold p), t.fold x = false := by
    intro x hx
    simpa using hx
  have hcompare := (compareHands_eq_iff (hd p) (hd q)).mpr (hnot p q (hfold p hp) (hfold q hq))
  obtain ⟨lg, hlg, -⟩ := getBestGroup_finds (hd p)
  obtain ⟨rg, hrg, -⟩ := getBestGroup_finds (hd q)
  rw [compareHands, hlg, Option.bind_some, hrg, Option.bind_some] at hcompare
  rw [hlg, hrg, Option.getD_some, Option.getD_some, hcompare, cmp_standardRank]

end Ranking

/-- **The comparison**: two hands of five to seven cards compare as in standard poker exactly when
not one of the best hands is A-2-3-4-5 and the other 2-3-4-5-6, both straights or both straight
flushes; and where no two players in the hand have such best hands, `endNormal` ranks them by the
standard order. -/
theorem compareHands_iff {cards5 cards2 cards5' cards2' : List ℕ} (hd : Dealt (cards5 ++ cards2))
    (hd' : Dealt (cards5' ++ cards2')) :
    (compareHands cards5 cards2 cards5' cards2' =
        some (cmp (best (cards5 ++ cards2)) (best (cards5' ++ cards2'))) ↔
      ¬ WheelMeetsSix (best (cards5 ++ cards2)) (best (cards5' ++ cards2'))) ∧
    ∀ (n : ℕ) (t : Showdown n) (desk : List ℕ) (hole : Fin n → List ℕ),
      (∀ p, Dealt (desk ++ hole p)) →
      (∀ p q, t.fold p = false → t.fold q = false →
        ¬ WheelMeetsSix (best (desk ++ hole p)) (best (desk ++ hole q))) →
      rankPlayers desk hole t.fold = some { t with rank := standardRank desk hole }.uidRank :=
  ⟨compareHands_eq_iff hd hd', fun _ t _ _ => rankPlayers_eq t⟩

/-- The straight to the nine against the lowest one, with four desk cards in common. -/
theorem nineStraight_beats_wheel :
    compareHands [0x12, 0x23, 0x34, 0x45, 0x16] [0x27, 0x38] [0x12, 0x23, 0x34, 0x45, 0x1D]
      [0x11, 0x39] = some .gt := by
  have h := (@compareHands_iff [0x12, 0x23, 0x34, 0x45, 0x16] [0x27, 0x38]
    [0x12, 0x23, 0x34, 0x45, 0x1D] [0x11, 0x39] (by decide) (by decide)).1.mpr (by decide +kernel)
  rw [h]
  decide +kernel

/-- On the desk 2 3 4 5 K an ace and a six count as equal. -/
theorem wheel_equals_six : ¬ ∀ desk left right : List ℕ, desk.length = 5 → left.length = 2 →
    right.length = 2 → Dealt (desk ++ left) → Dealt (desk ++ right) →
    compareHands desk left desk right =
      some (cmp (best (desk ++ left)) (best (desk ++ right))) := by
  intro h
  have hstandard := h [0x12, 0x23, 0x34, 0x45, 0x1D] [0x11, 0x39] [0x16, 0x29] rfl rfl rfl
    (by decide) (by decide)
  have hequal : compareHands [0x12, 0x23, 0x34, 0x45, 0x1D] [0x11, 0x39]
      [0x12, 0x23, 0x34, 0x45, 0x1D] [0x16, 0x29] = some .eq := by decide +kernel
  have hless : cmp (best ([0x12, 0x23, 0x34, 0x45, 0x1D] ++ [0x11, 0x39]))
      (best ([0x12, 0x23, 0x34, 0x45, 0x1D] ++ [0x16, 0x29])) = .lt := by decide +kernel
  rw [hequal, hless] at hstandard
  cases hstandard

end Texas.CardAlgorithm
