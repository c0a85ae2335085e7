import JsmjServer.Texas.ValueGroups

set_option relaxedAutoImplicit false
set_option autoImplicit false

/-!
# The best group is the best hand

`getBestGroup` tries the categories from the highest one down. Flushes are the highest cards of the
only suit with five cards, straights the highest run of a descending list, searched a second time
with the ace as the smallest card.

## Main definitions

* `Texas.CardAlgorithm.fiveOf` — the five cards of a group.

## Main results

* `Texas.CardAlgorithm.continue5Cards_spec` — the search for five continuous cards.
* `Texas.CardAlgorithm.getBestGroup_best` — the group of every hand.
-/

namespace Texas.CardAlgorithm

open PokerHands

variable {cards five vs : List ℕ} {groups : List (List ℕ)} {type : GroupType}

/-! ### Sorted cards -/

/-- Sorting by different values gives a descending list. -/
lemma insertionSort_descending (f : ℕ → ℕ) {l : List ℕ} (hn : (l.map f).Nodup) :
    ((l.insertionSort fun a b => f b ≤ f a).map f).Pairwise (· > ·) := by
  have htotal : Std.Total fun a b => f b ≤ f a := ⟨fun a b => le_total (f b) (f a)⟩
  have htrans : IsTrans ℕ fun a b => f b ≤ f a := ⟨fun a b c hab hbc => hbc.trans hab⟩
  have hsorted := List.pairwise_insertionSort (fun a b => f b ≤ f a) l
  have hperm := List.perm_insertionSort (fun a b => f b ≤ f a) l
  have hne := List.pairwise_map.mp ((hperm.map f).nodup_iff.mpr hn)
  exact List.pairwise_map.mpr ((hsorted.and hne).imp fun h => lt_of_le_of_ne h.1 h.2.symm)

lemma sortByValue_ascending {l : List ℕ} (hn : (l.map getCardRealValue).Nodup) :
    ((sortByValue l).map getCardRealValue).Pairwise (· < ·) := by
  have htotal : Std.Total fun a b => getCardRealValue a ≤ getCardRealValue b :=
    ⟨fun a b => le_total _ _⟩
  have htrans : IsTrans ℕ fun a b => getCardRealValue a ≤ getCardRealValue b :=
    ⟨fun a b c => le_trans⟩
  have hsorted := List.pairwise_insertionSort
    (fun a b => getCardRealValue a ≤ getCardRealValue b) l
  have hperm := List.perm_insertionSort (fun a b => getCardRealValue a ≤ getCardRealValue b) l
  have hne := List.pairwise_map.mp ((hperm.map getCardRealValue).nodup_iff.mpr hn)
  exact List.pairwise_map.mpr ((hsorted.and hne).imp fun h => lt_of_le_of_ne h.1 h.2)

/-- The ranks of cards of different values are their values in descending order. -/
lemma groupRanks_of_descending {l : List ℕ} (hv : ∀ c ∈ l, isValidCard c)
    (hl : (l.map getCardRealValue).Pairwise (· > ·)) (hperm : five.Perm l) :
    groupRanks five = l.map getCardRealValue := by
  have hcount : ∀ v, countOf five v = (l.map getCardRealValue).count v := fun v =>
    (hperm.map getCardRealValue).count_eq v
  have hn : (l.map getCardRealValue).Nodup := hl.imp fun h => h.ne'
  have hone : ∀ v ∈ l.map getCardRealValue, countOf five v = 1 := fun v hv => by
    rw [hcount]
    exact List.count_eq_one_of_mem hn hv
  refine groupRanks_eq (hl.imp_of_mem fun {v u} hv hu hlt => .inr ⟨?_, hlt⟩) fun v => ?_
  · rw [hone v hv, hone u hu]
  · constructor
    · intro hmem
      obtain ⟨c, hc, rfl⟩ := List.mem_map.mp hmem
      exact ⟨getCardRealValue_mem (hv c hc), (hone _ hmem).ge, by rw [hone _ hmem]; omega⟩
    · rintro ⟨-, hpos, -⟩
      rw [hcount] at hpos
      exact List.count_pos_iff.mp hpos

/-- The five highest cards of a list that holds all cards of the category. -/
lemma isBest_of_descending {l : List ℕ} (hd : Dealt cards) (hsub : l.Subperm cards)
    (hl : (l.map getCardRealValue).Pairwise (· > ·)) (h5l : 5 ≤ l.length)
    (hperm : five.Perm (l.take 5)) (hpat : pattern type = [1, 1, 1, 1, 1])
    (hcat : category five = type) (hs : type ≠ .straight) (hsf : type ≠ .straightFlush)
    (hin : ∀ h, Five cards h → category h = type → h ⊆ l) (hmost : AtMost cards type) :
    IsBest cards five type ∧ ranks five = (l.take 5).map getCardRealValue := by
  have hlen : five.length = 5 := by
    rw [hperm.length_eq, List.length_take, min_eq_left h5l]
  have h5 : Five cards five :=
    ⟨hperm.subperm.trans ((List.take_sublist 5 l).subperm.trans hsub), hlen⟩
  have hranks : ranks five = (l.take 5).map getCardRealValue := by
    rw [ranks_eq hlen (by rwa [hcat]) (by rwa [hcat])]
    refine groupRanks_of_descending (fun c hc => hd.valid c ?_) ?_ hperm
    · exact hsub.subset (List.mem_of_mem_take hc)
    · rw [List.map_take]
      exact hl.sublist (List.take_sublist 5 _)
  refine ⟨isBest_of_ranks h5 hcat hmost fun h hh hcath => ?_, hranks⟩
  rw [hranks, ranks_eq hh.length_eq (by rwa [hcath]) (by rwa [hcath]), List.map_take]
  have hcounts := counts_groupRanks (hh.nodup hd) (hh.valid hd) hh.length_eq
  rw [hcath, hpat] at hcounts
  have hone : ∀ v ∈ groupRanks h, countOf h v = 1 := by
    intro v hv
    have hmem := List.mem_map_of_mem (f := countOf h) hv
    rw [hcounts] at hmem
    simpa using hmem
  have hlen' : (groupRanks h).length = 5 := by
    rw [← List.length_map (countOf h), hcounts]
    rfl
  rw [← hlen']
  refine Picks.le_take hl ((groupRanks_before h).imp_of_mem fun {v u} hv hu hb => ?_) ?_
  · have := hone v hv
    have := hone u hu
    unfold Before at hb
    omega
  · intro v hv
    obtain ⟨c, hc, rfl⟩ := countOf_pos.mp (by rw [hone v hv]; omega : 0 < countOf h v)
    exact List.mem_map_of_mem (hin h hh hcath hc)

/-- The high cards, when all values are different. -/
lemma getBestGroupHighCard_spec (hd : Dealt cards) (h2 : ∀ v, countOf cards v < 2)
    (hmost : AtMost cards .highCard) : ∃ groups,
      getBestGroupHighCard cards = ⟨.highCard, groups⟩ ∧ IsBest cards groups.flatten .highCard ∧
      (firstCards groups).map getCardRealValue = ranks groups.flatten := by
  have hn : (cards.map getCardRealValue).Nodup :=
    List.nodup_iff_count_le_one.mpr fun v => Nat.le_of_lt_succ (h2 v)
  have hl := insertionSort_descending getCardRealValue hn
  have hperm : (sortByValueReverse cards).Perm cards := List.perm_insertionSort _ _
  change ((sortByValueReverse cards).map getCardRealValue).Pairwise (· > ·) at hl
  have hlen : 5 ≤ (sortByValueReverse cards).length := by
    rw [hperm.length_eq]
    exact hd.five_le
  have hgroups : (List.range 5).map (fun i => ((sortByValueReverse cards)[i]?).toList) =
      ((sortByValueReverse cards).take 5).map fun c => [c] := by
    match hs : sortByValueReverse cards, hlen with
    | a :: b :: c :: d :: e :: l, _ => rfl
  have hflat : ((List.range 5).map fun i => ((sortByValueReverse cards)[i]?).toList).flatten =
      (sortByValueReverse cards).take 5 := by
    rw [hgroups, ← List.flatMap_def, List.flatMap_singleton']
  have hfirst : firstCards ((List.range 5).map fun i =>
      ((sortByValueReverse cards)[i]?).toList) = (sortByValueReverse cards).take 5 := by
    rw [hgroups, firstCards, List.flatMap_map]
    exact List.flatMap_singleton' _
  have h5 : Five cards ((sortByValueReverse cards).take 5) :=
    ⟨(List.take_sublist 5 _).subperm.trans hperm.subperm, by
      rw [List.length_take, min_eq_left hlen]⟩
  have hcat : category ((sortByValueReverse cards).take 5) = .highCard :=
    code_inj (le_antisymm (hmost _ h5) (le_code _).1)
  obtain ⟨hbest, hranks⟩ := isBest_of_descending hd hperm.subperm hl hlen (.refl _) rfl hcat
    (by decide) (by decide) (fun h hh _ c hc => hperm.symm.subset (hh.subperm.subset hc)) hmost
  refine ⟨_, rfl, ?_, ?_⟩
  · rwa [hflat]
  · rw [hflat, hfirst, hranks]

/-! ### Suits -/

/-- The cards of a suit. -/
def ofSuit (cards : List ℕ) (suit : ℕ) : List ℕ := cards.filter fun c => getCardSuit c = suit

lemma length_ofSuit_add_le (cards : List ℕ) {suit suit' : ℕ} (hne : suit ≠ suit') :
    (ofSuit cards suit).length + (ofSuit cards suit').length ≤ cards.length := by
  unfold ofSuit
  induction cards with
  | nil => simp
  | cons c cards ih =>
    simp only [List.filter_cons, decide_eq_true_eq]
    split_ifs with h₁ h₂ h₂
    · exact absurd (h₁.symm.trans h₂) hne
    all_goals
      simp only [List.length_cons]
      omega

/-- Only one suit has five cards, and the searches by suit are the search in its cards. -/
lemma flatMap_groupBySuit {β : Type*} (hd : Dealt cards) (F : List ℕ → List β)
    (hF : ∀ g : List ℕ, g.length < 5 → F g = []) :
    ((groupBySuit cards).flatMap F = [] ∧ ∀ suit, (ofSuit cards suit).length < 5) ∨
    ∃ suit, 5 ≤ (ofSuit cards suit).length ∧ (∀ suit', suit' ≠ suit →
      (ofSuit cards suit').length < 5) ∧
      (groupBySuit cards).flatMap F = F (sortByValue (ofSuit cards suit)) := by
  have hlen : ∀ suit, (sortByValue (ofSuit cards suit)).length = (ofSuit cards suit).length :=
    fun suit => List.length_insertionSort _ _
  have hmap : (groupBySuit cards).flatMap F =
      (cards.map getCardSuit).dedup.flatMap fun suit => F (sortByValue (ofSuit cards suit)) := by
    rw [groupBySuit, List.flatMap_map]
    rfl
  rw [hmap]
  by_cases h : ∃ suit, 5 ≤ (ofSuit cards suit).length
  · obtain ⟨suit, h5⟩ := h
    have hother : ∀ suit', suit' ≠ suit → (ofSuit cards suit').length < 5 := by
      intro suit' hne
      have := length_ofSuit_add_le cards hne
      have := hd.le_seven
      omega
    refine .inr ⟨suit, h5, hother, ?_⟩
    have hmem : suit ∈ (cards.map getCardSuit).dedup := by
      obtain ⟨c, hc⟩ := List.exists_mem_of_length_pos (l := ofSuit cards suit) (by omega)
      simp only [ofSuit, List.mem_filter, decide_eq_true_eq] at hc
      exact List.mem_dedup.mpr (List.mem_map.mpr ⟨c, hc⟩)
    obtain ⟨l, l', hl⟩ := List.append_of_mem hmem
    have hn := List.nodup_dedup (cards.map getCardSuit)
    rw [hl] at hn ⊢
    obtain ⟨hn₁, hn₂, hdisjoint⟩ := List.nodup_append.mp hn
    have hnil : ∀ m : List ℕ, suit ∉ m →
        m.flatMap (fun suit => F (sortByValue (ofSuit cards suit))) = [] := by
      intro m hm
      refine List.flatMap_eq_nil_iff.mpr fun suit' hs => hF _ ?_
      rw [hlen]
      exact hother suit' fun heq => hm (heq ▸ hs)
    rw [List.flatMap_append, List.flatMap_cons,
      hnil l fun hmem => hdisjoint suit hmem suit List.mem_cons_self rfl,
      hnil l' (List.nodup_cons.mp hn₂).1, List.nil_append, List.append_nil]
  · push Not at h
    refine .inl ⟨List.flatMap_eq_nil_iff.mpr fun suit _ => hF _ ?_, h⟩
    rw [hlen]
    exact h suit

/-- Five cards of one suit are among the cards of a suit of which there are five. -/
lemma subset_ofSuit {h : List ℕ} (hd : Dealt cards) (hh : Five cards h) (hf : IsFlush h) :
    ∃ suit, h ⊆ ofSuit cards suit ∧ 5 ≤ (ofSuit cards suit).length := by
  obtain ⟨c, hc⟩ := List.exists_mem_of_length_pos (l := h) (by rw [hh.length_eq]; omega)
  have hsub : h ⊆ ofSuit cards (getCardSuit c) := fun c' hc' => by
    simp only [ofSuit, List.mem_filter, decide_eq_true_eq]
    exact ⟨hh.subperm.subset hc', hf c' hc' c hc⟩
  refine ⟨getCardSuit c, hsub, ?_⟩
  have hle := (List.subperm_of_subset (hh.nodup hd) hsub).length_le
  rwa [hh.length_eq] at hle

lemma isFlush_of_subset {h : List ℕ} {suit : ℕ} (hsub : h ⊆ ofSuit cards suit) : IsFlush h := by
  intro c hc c' hc'
  have h₁ := hsub hc
  have h₂ := hsub hc'
  simp only [ofSuit, List.mem_filter, decide_eq_true_eq] at h₁ h₂
  rw [h₁.2, h₂.2]

lemma ofSuit_nodup (hd : Dealt cards) (suit : ℕ) :
    ((ofSuit cards suit).map getCardRealValue).Nodup := by
  refine (hd.nodup.filter _).map_on fun c hc c' hc' heq => ?_
  have hf : IsFlush (ofSuit cards suit) := isFlush_of_subset fun _ h => h
  exact card_ext (hf c hc c' hc') ((getCardRealValue_inj (hd.valid c (List.mem_of_mem_filter hc))
    (hd.valid c' (List.mem_of_mem_filter hc'))).mp heq)

/-- A flush: the five highest cards of the suit. -/
lemma getBestGroupFlush_spec (hd : Dealt cards) (hmost : AtMost cards .flush) :
    (getBestGroupFlush cards = none ∧ Lacks cards .flush) ∨
    ∃ five, getBestGroupFlush cards = some ⟨.flush, [five]⟩ ∧ IsBest cards five .flush := by
  rcases flatMap_groupBySuit hd (fun v => if 5 ≤ v.length then
      [if 5 < (sortByValue v).length then
        (sortByValue v).drop (if (sortByValue v).length = 7 then 2 else 1) else sortByValue v]
      else []) (fun g hg => if_neg (not_le.mpr hg)) with ⟨hnil, hall⟩ | ⟨suit, h5, hother, heq⟩
  · refine .inl ⟨?_, fun h hh hcat => ?_⟩
    · simp only [getBestGroupFlush]
      rw [hnil]
      rfl
    · obtain ⟨suit, -, h5⟩ := subset_ofSuit hd hh (category_eq_flush hcat)
      exact absurd h5 (not_le.mpr (hall suit))
  set group := sortByValue (sortByValue (ofSuit cards suit)) with hgroup
  have hperm : group.Perm (ofSuit cards suit) :=
    (List.perm_insertionSort _ _).trans (List.perm_insertionSort _ _)
  have hlen : (sortByValue (ofSuit cards suit)).length = (ofSuit cards suit).length :=
    List.length_insertionSort _ _
  have hasc : (group.map getCardRealValue).Pairwise (· < ·) := by
    refine sortByValue_ascending ?_
    refine ((List.perm_insertionSort _ _).map getCardRealValue).nodup_iff.mpr ?_
    exact ofSuit_nodup hd suit
  have hle : group.length ≤ 7 := by
    rw [hperm.length_eq]
    exact (List.length_filter_le _ _).trans hd.le_seven
  have hge : 5 ≤ group.length := by rwa [hperm.length_eq]
  rw [if_pos (by rwa [hlen])] at heq
  set five := if 5 < group.length then group.drop (if group.length = 7 then 2 else 1)
    else group with hfive
  have hdrop : five = group.drop (group.length - 5) := by
    rw [hfive]
    by_cases h7 : group.length = 7
    · simp [h7]
    · by_cases h6 : group.length = 6
      · simp [h6]
      · have h5' : group.length = 5 := by omega
        simp [h5']
  have htake : five.Perm (group.reverse.take 5) := by
    rw [hdrop, List.take_reverse]
    exact (List.reverse_perm _).symm
  have hsub : group.Subperm cards := hperm.subperm.trans List.filter_sublist.subperm
  have hh : Five cards five := by
    refine ⟨?_, ?_⟩
    · rw [hdrop]
      exact (List.drop_sublist _ _).subperm.trans hsub
    · rw [hdrop, List.length_drop]
      omega
  have hflush : IsFlush five := isFlush_of_subset fun c hc => by
    rw [hdrop] at hc
    exact hperm.subset (List.mem_of_mem_drop hc)
  have hcat : category five = .flush :=
    code_inj (le_antisymm (hmost _ hh) ((le_code five).2.2.2.2.2.1 hflush))
  refine .inr ⟨five, ?_, (isBest_of_descending hd ((List.reverse_perm _).subperm.trans hsub) ?_
    (by rwa [List.length_reverse]) htake rfl hcat (by decide) (by decide)
    (fun h hh hcat c hc => ?_) hmost).1⟩
  · simp only [getBestGroupFlush]
    rw [heq]
    rfl
  · rw [List.map_reverse]
    exact List.pairwise_reverse.mpr hasc
  · obtain ⟨suit', hsub', h5'⟩ := subset_ofSuit hd hh (category_eq_flush hcat)
    obtain rfl : suit' = suit := by
      by_contra hne
      exact absurd h5' (not_le.mpr (hother suit' hne))
    exact List.mem_reverse.mpr (hperm.symm.subset (hsub' hc))

/-! ### Straights -/

/-- The value by which the search with or without a small ace goes. -/
def valueOf (aIsSmall : Bool) (c : ℕ) : ℕ :=
  if aIsSmall then getCardValue c else getCardRealValue c

lemma isCardContinuousLess_five (aIsSmall : Bool) (a b c d e : ℕ) :
    isCardContinuousLess aIsSmall [a, b, c, d, e] = true ↔
      valueOf aIsSmall a = valueOf aIsSmall b + 1 ∧ valueOf aIsSmall b = valueOf aIsSmall c + 1 ∧
      valueOf aIsSmall c = valueOf aIsSmall d + 1 ∧ valueOf aIsSmall d = valueOf aIsSmall e + 1 := by
  cases aIsSmall <;> simp [isCardContinuousLess, valueOf]

/-- The values `b` to `b + 4` are there. -/
def HasRun (vs : List ℕ) (b : ℕ) : Prop :=
  b + 4 ∈ vs ∧ b + 3 ∈ vs ∧ b + 2 ∈ vs ∧ b + 1 ∈ vs ∧ b ∈ vs

/-- A descending list whose largest value is there begins with it. -/
lemma head_of_descending {vs : List ℕ} {m : ℕ} (hvs : vs.Pairwise (· > ·)) (hle : ∀ x ∈ vs, x ≤ m)
    (hm : m ∈ vs) : ∃ tl, vs = m :: tl ∧ ∀ x, x < m → x ∈ vs → x ∈ tl := by
  cases vs with
  | nil => cases hm
  | cons d tl =>
    have hd := hle d List.mem_cons_self
    have hdm : d = m := by
      rcases List.mem_cons.mp hm with rfl | hm
      · rfl
      · have := (List.pairwise_cons.mp hvs).1 m hm
        omega
    subst hdm
    refine ⟨tl, rfl, fun x hx hmem => ?_⟩
    rcases List.mem_cons.mp hmem with rfl | hmem
    · omega
    · exact hmem

/-- A descending list with a run at its largest value begins with the run. -/
lemma run_of_descending {vs : List ℕ} {b : ℕ} (hvs : vs.Pairwise (· > ·))
    (hle : ∀ x ∈ vs, x ≤ b + 4) (hrun : HasRun vs b) :
    ∃ tl, vs = (b + 4) :: (b + 3) :: (b + 2) :: (b + 1) :: b :: tl := by
  obtain ⟨h₄, h₃, h₂, h₁, h₀⟩ := hrun
  have hstep : ∀ {vs : List ℕ} {m : ℕ}, vs.Pairwise (· > ·) → (∀ x ∈ vs, x ≤ m) → m ∈ vs →
      ∃ tl, vs = m :: tl ∧ (∀ x, x < m → x ∈ vs → x ∈ tl) ∧ tl.Pairwise (· > ·) ∧
        ∀ x ∈ tl, x ≤ m - 1 := by
    intro vs m hvs hle hm
    obtain ⟨tl, rfl, hrest⟩ := head_of_descending hvs hle hm
    obtain ⟨hlt, htl⟩ := List.pairwise_cons.mp hvs
    exact ⟨tl, rfl, hrest, htl, fun x hx => by have := hlt x hx; omega⟩
  obtain ⟨t₁, rfl, r₁, p₁, l₁⟩ := hstep hvs hle h₄
  obtain ⟨t₂, rfl, r₂, p₂, l₂⟩ := hstep p₁ l₁ (r₁ _ (by omega) h₃)
  obtain ⟨t₃, rfl, r₃, p₃, l₃⟩ := hstep p₂ l₂ (r₂ _ (by omega) (r₁ _ (by omega) h₂))
  obtain ⟨t₄, rfl, r₄, p₄, l₄⟩ :=
    hstep p₃ l₃ (r₃ _ (by omega) (r₂ _ (by omega) (r₁ _ (by omega) h₁)))
  obtain ⟨t₅, rfl, -⟩ :=
    hstep p₄ l₄ (r₄ _ (by omega) (r₃ _ (by omega) (r₂ _ (by omega) (r₁ _ (by omega) h₀))))
  exact ⟨t₅, rfl⟩

/-- The search finds the highest run of five values, when there is one.

**Proof sketch.** By induction on the descending list. A run is at its largest value, and then the
first five cards are continuous, or it is in the rest of the list. -/
lemma continue5Cards_spec (aIsSmall : Bool) {l : List ℕ}
    (hl : (l.map (valueOf aIsSmall)).Pairwise (· > ·)) :
    (continue5Cards aIsSmall l = none ∧ ∀ b, ¬ HasRun (l.map (valueOf aIsSmall)) b) ∨
    ∃ w b, continue5Cards aIsSmall l = some w ∧ w.Sublist l ∧
      w.map (valueOf aIsSmall) = [b + 4, b + 3, b + 2, b + 1, b] ∧
      ∀ b', HasRun (l.map (valueOf aIsSmall)) b' → b' ≤ b := by
  induction l with
  | nil => exact .inl ⟨rfl, fun b h => absurd h.1 List.not_mem_nil⟩
  | cons c l ih =>
    have hvs := hl
    rw [List.map_cons] at hl
    obtain ⟨hlt, hl⟩ := List.pairwise_cons.mp hl
    have hle : ∀ x ∈ (c :: l).map (valueOf aIsSmall), x ≤ valueOf aIsSmall c := by
      intro x hx
      rcases List.mem_cons.mp hx with rfl | hx
      · exact le_rfl
      · exact (hlt x hx).le
    -- a run is at the first card, or in the rest
    have hor : ∀ b, HasRun ((c :: l).map (valueOf aIsSmall)) b →
        (b + 4 = valueOf aIsSmall c ∧ ∃ tl, (c :: l).map (valueOf aIsSmall) =
          (b + 4) :: (b + 3) :: (b + 2) :: (b + 1) :: b :: tl) ∨
        HasRun (l.map (valueOf aIsSmall)) b := by
      intro b hrun
      by_cases htop : b + 4 = valueOf aIsSmall c
      · exact .inl ⟨htop, run_of_descending hvs (by rwa [htop]) hrun⟩
      · obtain ⟨h₄, h₃, h₂, h₁, h₀⟩ := hrun
        have htop' : b + 4 ≤ valueOf aIsSmall c := hle _ h₄
        have hrest : ∀ x, x ≤ b + 4 → x ∈ (c :: l).map (valueOf aIsSmall) →
            x ∈ l.map (valueOf aIsSmall) := by
          intro x hx hmem
          rcases List.mem_cons.mp hmem with rfl | hmem
          · omega
          · exact hmem
        exact .inr ⟨hrest _ (by omega) h₄, hrest _ (by omega) h₃, hrest _ (by omega) h₂,
          hrest _ (by omega) h₁, hrest _ (by omega) h₀⟩
    have hskip : (∀ b, ¬ ∃ tl, (c :: l).map (valueOf aIsSmall) =
          (b + 4) :: (b + 3) :: (b + 2) :: (b + 1) :: b :: tl) →
        continue5Cards aIsSmall (c :: l) = continue5Cards aIsSmall l →
        (continue5Cards aIsSmall (c :: l) = none ∧
          ∀ b, ¬ HasRun ((c :: l).map (valueOf aIsSmall)) b) ∨
        ∃ w b, continue5Cards aIsSmall (c :: l) = some w ∧ w.Sublist (c :: l) ∧
          w.map (valueOf aIsSmall) = [b + 4, b + 3, b + 2, b + 1, b] ∧
          ∀ b', HasRun ((c :: l).map (valueOf aIsSmall)) b' → b' ≤ b := by
      intro hno heq
      rw [heq]
      rcases ih hl with ⟨hnone, hall⟩ | ⟨w, b, hw, hsub, hmap, hmax⟩
      · refine .inl ⟨hnone, fun b hrun => ?_⟩
        rcases hor b hrun with ⟨-, h⟩ | h
        · exact hno b h
        · exact hall b h
      · refine .inr ⟨w, b, hw, hsub.cons c, hmap, fun b' hrun => ?_⟩
        rcases hor b' hrun with ⟨-, h⟩ | h
        · exact absurd h (hno b')
        · exact hmax b' h
    match hlist : l with
    | d :: e :: g :: k :: l' =>
      have hlen : 4 ≤ (d :: e :: g :: k :: l').length := by simp
      have htake : (c :: d :: e :: g :: k :: l').take 5 = [c, d, e, g, k] := rfl
      by_cases hcont : isCardContinuousLess aIsSmall [c, d, e, g, k] = true
      · have hval := (isCardContinuousLess_five aIsSmall c d e g k).mp hcont
        refine .inr ⟨[c, d, e, g, k], valueOf aIsSmall k, ?_, ?_, ?_, fun b' hrun => ?_⟩
        · rw [continue5Cards, if_pos hlen, htake, if_pos hcont]
        · exact List.take_sublist 5 (c :: d :: e :: g :: k :: l')
        · simp only [List.map_cons, List.map_nil, List.cons.injEq, and_true]
          omega
        · have := hle _ hrun.1
          omega
      · refine hskip (fun b h => hcont ?_) (by rw [continue5Cards, if_pos hlen, htake, if_neg hcont])
        obtain ⟨tl, htl⟩ := h
        simp only [List.map_cons, List.cons.injEq] at htl
        rw [isCardContinuousLess_five]
        omega
    | [] =>
      refine .inl ⟨by simp [continue5Cards], fun b hrun => ?_⟩
      rcases hor b hrun with ⟨-, tl, htl⟩ | h
      · simp at htl
      · exact absurd h.1 List.not_mem_nil
    | [_] | [_, _] | [_, _, _] =>
      refine .inl ⟨by simp [continue5Cards], fun b hrun => ?_⟩
      rcases hor b hrun with ⟨-, tl, htl⟩ | h
      · simp at htl
      · simp only [HasRun, List.map_cons, List.map_nil, List.mem_cons, List.not_mem_nil,
          or_false] at h
        omega

lemma mem_map_getCardValue {l : List ℕ} (hv : ∀ c ∈ l, isValidCard c) {v : ℕ} (h2 : 2 ≤ v)
    (h13 : v ≤ 13) : v ∈ l.map getCardRealValue ↔ v ∈ l.map getCardValue := by
  simp only [List.mem_map]
  refine exists_congr fun c => and_congr_right fun hc => ?_
  obtain ⟨-, -, h₁, h₁₃⟩ := hv c hc
  unfold getCardRealValue
  split_ifs <;> omega

lemma ace_mem_map {l : List ℕ} (hv : ∀ c ∈ l, isValidCard c) :
    14 ∈ l.map getCardRealValue ↔ 1 ∈ l.map getCardValue := by
  simp only [List.mem_map]
  refine exists_congr fun c => and_congr_right fun hc => ?_
  obtain ⟨-, -, h₁, h₁₃⟩ := hv c hc
  unfold getCardRealValue
  split_ifs <;> omega

lemma run_of_six_le {t : ℕ} (h6 : 6 ≤ t) : run t = [t - 4 + 4, t - 4 + 3, t - 4 + 2, t - 4 + 1,
    t - 4] := by
  rw [run, if_neg (by omega)]
  simp only [List.cons.injEq, and_true]
  omega

lemma mem_tops {t : ℕ} : t ∈ tops ↔ 5 ≤ t ∧ t ≤ 14 := by
  unfold tops
  simp only [List.mem_cons, List.not_mem_nil, or_false]
  omega

lemma hasRun_iff {vs : List ℕ} {b : ℕ} :
    HasRun vs b ↔ [b + 4, b + 3, b + 2, b + 1, b] ⊆ vs := by
  simp [HasRun]

/-- The two searches for a straight among cards of different values: the first result is the highest
straight, and there is a second one only where there is an ace. -/
lemma continueGroups_spec {l : List ℕ} (hv : ∀ c ∈ l, isValidCard c)
    (hn : (l.map getCardRealValue).Nodup) :
    (continueGroups l = [] ∧ ∀ t ∈ tops, ¬ run t ⊆ l.map getCardRealValue) ∨
    ∃ w ws t, continueGroups l = w :: ws ∧ (ws = [] ∨ ∃ c ∈ l, getCardValue c = 1) ∧
      w ⊆ l ∧ w.length = 5 ∧ w.Nodup ∧ straightTop w = some t ∧
      ∀ t' ∈ tops, run t' ⊆ l.map getCardRealValue → t' ≤ t := by
  have hperm : (sortByValueReverse l).Perm l := List.perm_insertionSort _ _
  have hpermA : (sortByValueReverseAIsSmall l).Perm l := List.perm_insertionSort _ _
  have hnA : (l.map getCardValue).Nodup := by
    refine (hn.of_map _).map_on fun c hc c' hc' heq => ?_
    exact List.inj_on_of_nodup_map hn hc hc'
      ((getCardRealValue_inj (hv c hc) (hv c' hc')).mpr heq)
  have hsorted : ((sortByValueReverse l).map (valueOf false)).Pairwise (· > ·) :=
    insertionSort_descending getCardRealValue hn
  have hsortedA : ((sortByValueReverseAIsSmall l).map (valueOf true)).Pairwise (· > ·) :=
    insertionSort_descending getCardValue hnA
  have hmem : ∀ v, v ∈ (sortByValueReverse l).map (valueOf false) ↔ v ∈ l.map getCardRealValue :=
    fun v => (hperm.map getCardRealValue).mem_iff
  have hmemA : ∀ v, v ∈ (sortByValueReverseAIsSmall l).map (valueOf true) ↔ v ∈ l.map getCardValue :=
    fun v => (hpermA.map getCardValue).mem_iff
  -- a straight without a small ace is a run of the first search
  have hhigh : ∀ t ∈ tops, t ≠ 5 → run t ⊆ l.map getCardRealValue →
      HasRun ((sortByValueReverse l).map (valueOf false)) (t - 4) := by
    intro t ht hne hsub
    have h6 : 6 ≤ t := by
      have := mem_tops.mp ht
      omega
    rw [run_of_six_le h6] at hsub
    exact hasRun_iff.mpr fun v hv => (hmem v).mpr (hsub hv)
  have hany : (l.any fun c => getCardValue c = 1) = true ↔ 1 ∈ l.map getCardValue := by
    simp [List.any_eq_true]
  rw [continueGroups]
  rcases continue5Cards_spec false hsorted with ⟨hnone, hall⟩ | ⟨w, b, hw, hsub, hmap, hmax⟩
  · rw [hnone, Option.toList_none, List.nil_append]
    have hlow : ∀ t ∈ tops, run t ⊆ l.map getCardRealValue → t = 5 := by
      intro t ht hrun
      by_contra hne
      exact hall _ (hhigh t ht hne hrun)
    by_cases hace : (l.any fun c => getCardValue c = 1) = true
    · rw [if_pos hace]
      rcases continue5Cards_spec true hsortedA with ⟨hnoneA, hallA⟩ | ⟨w, b, hw, hsub, hmap, hmax⟩
      · refine .inl ⟨by rw [hnoneA]; rfl, fun t ht hrun => hallA 1 ?_⟩
        obtain rfl := hlow t ht hrun
        refine hasRun_iff.mpr fun v hv' => (hmemA v).mpr ?_
        simp only [List.mem_cons, List.not_mem_nil, or_false] at hv'
        by_cases h1 : v = 1
        · subst h1
          exact hany.mp hace
        · exact (mem_map_getCardValue hv (by omega) (by omega)).mp (hrun (by
            rw [run, if_pos rfl]
            simp only [List.mem_cons, List.not_mem_nil, or_false]
            omega))
      · have hwl : w ⊆ l := fun c hc => hpermA.subset (hsub.subset hc)
        have hvw : ∀ c ∈ w, isValidCard c := fun c hc => hv c (hwl hc)
        have hb : b = 1 := by
          have hbmem : b ∈ w.map (valueOf true) := by simp [hmap]
          obtain ⟨c, hc, hcb⟩ := List.mem_map.mp hbmem
          have htop : b + 4 ∈ w.map (valueOf true) := by simp [hmap]
          obtain ⟨c', hc', hcb'⟩ := List.mem_map.mp htop
          have h₁ := (hvw c hc).2.2.1
          have h₁₃ := (hvw c' hc').2.2.2
          change getCardValue c = b at hcb
          change getCardValue c' = b + 4 at hcb'
          by_contra hne
          -- otherwise the first search had found it
          refine hall b (hasRun_iff.mpr fun v hv' => (hmem v).mpr ?_)
          have hvmem : v ∈ w.map (valueOf true) := by rwa [hmap]
          simp only [List.mem_cons, List.not_mem_nil, or_false] at hv'
          refine (mem_map_getCardValue hv (by omega) (by omega)).mpr ?_
          exact (List.map_subset _ hwl) hvmem
        subst hb
        have hreal : w.map getCardRealValue = run 5 := by
          have heq : w.map getCardRealValue =
              (w.map (valueOf true)).map fun v => if v = 1 then 14 else v := by
            rw [List.map_map]
            rfl
          rw [heq, hmap]
          rfl
        refine .inr ⟨w, [], 5, by rw [hw]; rfl, .inl rfl, hwl, ?_, ?_, ?_, fun t ht hrun => ?_⟩
        · rw [← List.length_map (valueOf true), hmap]
          rfl
        · refine List.Nodup.of_map (valueOf true) ?_
          rw [hmap]
          decide
        · exact straightTop_of_perm (by decide) (by rw [hreal])
        · exact (hlow t ht hrun).le
    · refine .inl ⟨by rw [if_neg hace], fun t ht hrun => hace (hany.mpr ?_)⟩
      obtain rfl := hlow t ht hrun
      exact (ace_mem_map hv).mp (hrun (by decide))
  · have hwl : w ⊆ l := fun c hc => hperm.subset (hsub.subset hc)
    have hbmem : b ∈ values := by
      have hmem : b ∈ w.map (valueOf false) := by simp [hmap]
      obtain ⟨c, hc, rfl⟩ := List.mem_map.mp hmem
      exact getCardRealValue_mem (hv c (hwl hc))
    have htmem : b + 4 ∈ values := by
      have hmem : b + 4 ∈ w.map (valueOf false) := by simp [hmap]
      obtain ⟨c, hc, hcb⟩ := List.mem_map.mp hmem
      rw [← hcb]
      exact getCardRealValue_mem (hv c (hwl hc))
    rw [mem_values] at hbmem htmem
    have htop : b + 4 ∈ tops := mem_tops.mpr (by omega)
    have hrun : run (b + 4) = [b + 4, b + 3, b + 2, b + 1, b] := run_of_six_le (by omega)
    have hreal : w.map getCardRealValue = run (b + 4) := hmap.trans hrun.symm
    refine .inr ⟨w, _, b + 4, by rw [hw]; rfl, ?_, hwl, ?_, ?_,
      straightTop_of_perm htop (by rw [hreal]), fun t ht hsub => ?_⟩
    · by_cases hace : (l.any fun c => getCardValue c = 1) = true
      · exact .inr (List.mem_map.mp (hany.mp hace))
      · exact .inl (if_neg hace)
    · rw [← List.length_map (valueOf false), hmap]
      rfl
    · refine List.Nodup.of_map getCardRealValue ?_
      rw [hreal]
      exact (run_nodup htop).1
    · by_cases h5 : t = 5
      · omega
      · have := hmax _ (hhigh t ht h5 hsub)
        omega

/-- Five cards with the highest straight. -/
lemma isBest_of_straight {w : List ℕ} {t : ℕ} (hw : Five cards w) (hcat : category w = type)
    (ht : straightTop w = some t) (hmost : AtMost cards type)
    (hmax : ∀ h, Five cards h → category h = type → ∃ t', straightTop h = some t' ∧ t' ≤ t) :
    IsBest cards w type := by
  refine isBest_of_ranks hw hcat hmost fun h hh hcath => ?_
  obtain ⟨t', ht', hle⟩ := hmax h hh hcath
  unfold ranks
  rw [ht, ht']
  rcases hle.lt_or_eq with hlt | rfl
  · exact Picks.cons_le_cons (.inl hlt)
  · exact le_rfl

/-- The first group found is the best hand, when the search is among cards that hold the values of
all hands of the category and of no other straights. -/
lemma found_continueGroups_spec {group : List ℕ} (hd : Dealt cards) (hmost : AtMost cards type)
    (hsub : group ⊆ cards) (hn : (group.map getCardRealValue).Nodup)
    (hin : ∀ h, Five cards h → category h = type → ∃ t, straightTop h = some t ∧ t ∈ tops ∧
      run t ⊆ group.map getCardRealValue)
    (hcat : ∀ w, w ⊆ group → straightTop w ≠ none → type.code ≤ (category w).code) :
    (found type (continueGroups group) = none ∧ Lacks cards type) ∨
    ∃ w ws, found type (continueGroups group) = some ⟨type, w :: ws⟩ ∧
      IsBest cards w type ∧ (ws = [] ∨ ∃ c ∈ cards, getCardValue c = 1) := by
  rcases continueGroups_spec (fun c hc => hd.valid c (hsub hc)) hn with
    ⟨hnil, hno⟩ | ⟨w, ws, t, hws, hace, hwg, hw5, hwn, ht, hmax⟩
  · refine .inl ⟨by rw [hnil]; rfl, fun h hh hcath => ?_⟩
    obtain ⟨t, -, htop, hrun⟩ := hin h hh hcath
    exact hno t htop hrun
  · have hw : Five cards w :=
      ⟨List.subperm_of_subset hwn fun c hc => hsub (hwg hc), hw5⟩
    have hcatw : category w = type :=
      code_inj (le_antisymm (hmost w hw) (hcat w hwg (by simp [ht])))
    refine .inr ⟨w, ws, by rw [hws]; rfl, isBest_of_straight hw hcatw ht hmost fun h hh hcath => ?_,
      hace.imp_right fun ⟨c, hc, h1⟩ => ⟨c, hsub hc, h1⟩⟩
    obtain ⟨t', ht', htop, hrun⟩ := hin h hh hcath
    exact ⟨t', ht', hmax t' htop hrun⟩

/-- A straight flush: the highest straight of the suit. -/
lemma getBestGroupStraightFlush_spec (hd : Dealt cards) :
    (getBestGroupStraightFlush cards = none ∧ Lacks cards .straightFlush) ∨
    ∃ w ws, getBestGroupStraightFlush cards = some ⟨.straightFlush, w :: ws⟩ ∧
      IsBest cards w .straightFlush ∧ (ws = [] ∨ ∃ c ∈ cards, getCardValue c = 1) := by
  have hmost : AtMost cards .straightFlush := fun h _ => by
    cases category h <;> decide
  rcases flatMap_groupBySuit hd (fun g => if 5 ≤ g.length then
      if 5 ≤ (removeSameCard g).length then continueGroups (removeSameCard g) else [] else [])
    (fun g hg => if_neg (not_le.mpr hg)) with ⟨hnil, hall⟩ | ⟨suit, h5, hother, heq⟩
  · refine .inl ⟨?_, fun h hh hcat => ?_⟩
    · simp only [getBestGroupStraightFlush]
      rw [hnil]
      rfl
    · obtain ⟨suit, -, h5⟩ := subset_ofSuit hd hh (category_eq_straightFlush hcat).1
      exact absurd h5 (not_le.mpr (hall suit))
  set group := sortByValue (ofSuit cards suit) with hgroup
  have hperm : group.Perm (ofSuit cards suit) := List.perm_insertionSort _ _
  have hsub : group ⊆ cards := fun c hc => List.mem_of_mem_filter (hperm.subset hc)
  have hn : (group.map getCardRealValue).Nodup :=
    (hperm.map getCardRealValue).nodup_iff.mpr (ofSuit_nodup hd suit)
  have hsame : removeSameCard group = group := List.Nodup.dedup hn.of_map
  have hlen : 5 ≤ group.length := by rwa [hperm.length_eq]
  rw [hsame, if_pos hlen, if_pos hlen] at heq
  -- a straight flush is among the cards of the suit
  have hin : ∀ h, Five cards h → category h = .straightFlush → ∃ t, straightTop h = some t ∧
      t ∈ tops ∧ run t ⊆ group.map getCardRealValue := by
    intro h hh hcat
    obtain ⟨hf, hs⟩ := category_eq_straightFlush hcat
    obtain ⟨suit', hsub', h5'⟩ := subset_ofSuit hd hh hf
    obtain rfl : suit' = suit := by
      by_contra hne
      exact absurd h5' (not_le.mpr (hother suit' hne))
    obtain ⟨t, ht⟩ := Option.ne_none_iff_exists'.mp hs
    obtain ⟨htop, hrun⟩ := straightTop_spec ht
    refine ⟨t, ht, htop, fun v hv => ?_⟩
    exact List.map_subset _ (fun c hc => hperm.symm.subset (hsub' hc)) (hrun hv)
  simp only [getBestGroupStraightFlush]
  rw [heq]
  refine found_continueGroups_spec hd hmost hsub hn hin fun w hw ht => ?_
  exact (le_code w).2.2.2.2.2.2.2.2 (isFlush_of_subset fun c hc => hperm.subset (hw hc)) ht

/-- A straight: the highest one among one card of each value. -/
lemma getBestGroupStraight_spec (hd : Dealt cards) (hmost : AtMost cards .straight) :
    (getBestGroupStraight cards = none ∧ Lacks cards .straight) ∨
    ∃ w ws, getBestGroupStraight cards = some ⟨.straight, w :: ws⟩ ∧
      IsBest cards w .straight ∧ (ws = [] ∨ ∃ c ∈ cards, getCardValue c = 1) := by
  set singleCards := (groupByValue cards).map fun v => v.headD 0 with hsingle
  have hpos : ∀ v ∈ (cards.map getCardRealValue).dedup, 0 < countOf cards v := fun v hv =>
    List.count_pos_iff.mpr (List.mem_dedup.mp hv)
  have hvalues : singleCards.map getCardRealValue = (cards.map getCardRealValue).dedup := by
    rw [hsingle, groupByValue, List.map_map, List.map_map]
    refine (List.map_congr_left fun v hv => ?_).trans (List.map_id _)
    exact headD_ofValue (hpos v hv)
  have hsub : singleCards ⊆ cards := by
    intro c hc
    rw [hsingle, groupByValue, List.map_map] at hc
    obtain ⟨v, hv, rfl⟩ := List.mem_map.mp hc
    have hlen := hpos v hv
    rw [← length_ofValue] at hlen
    cases hg : ofValue cards v with
    | nil => simp [hg] at hlen
    | cons c g =>
      have hmem : c ∈ ofValue cards v := by simp [hg]
      change (ofValue cards v).headD 0 ∈ cards
      rw [hg]
      exact List.mem_of_mem_filter hmem
  have hn : (singleCards.map getCardRealValue).Nodup := by
    rw [hvalues]
    exact List.nodup_dedup _
  have hin : ∀ h, Five cards h → category h = .straight → ∃ t, straightTop h = some t ∧
      t ∈ tops ∧ run t ⊆ singleCards.map getCardRealValue := by
    intro h hh hcat
    obtain ⟨t, ht⟩ := Option.ne_none_iff_exists'.mp (category_eq_straight hcat)
    obtain ⟨htop, hrun⟩ := straightTop_spec ht
    refine ⟨t, ht, htop, fun v hv => ?_⟩
    rw [hvalues, List.mem_dedup]
    exact List.map_subset _ hh.subperm.subset (hrun hv)
  have hgroups : (groupByValue cards).length = (singleCards.map getCardRealValue).length := by
    rw [List.length_map, hsingle, List.length_map]
  simp only [getBestGroupStraight]
  by_cases hlen : 5 ≤ (groupByValue cards).length
  · rw [if_pos hlen]
    exact found_continueGroups_spec hd hmost hsub hn hin fun w _ ht => (le_code w).2.2.2.2.1 ht
  · refine .inl ⟨if_neg hlen, fun h hh hcat => hlen ?_⟩
    obtain ⟨t, -, htop, hrun⟩ := hin h hh hcat
    obtain ⟨hrn, hr5⟩ := run_nodup htop
    rw [hgroups, ← hr5]
    exact (List.subperm_of_subset hrn hrun).length_le

/-! ### The best group -/

/-- The five cards of a group: of a straight or straight flush the first of its groups. -/
def fiveOf (g : BestGroup) : List ℕ :=
  if g.type = .straight ∨ g.type = .straightFlush then g.groups.headD [] else g.groups.flatten

/-- What `getBestGroup` finds: the best five of the cards, in groups by whose first cards they are
compared. -/
structure Finds (cards : List ℕ) (g : BestGroup) : Prop where
  best : IsBest cards (fiveOf g) g.type
  complete : fiveOf g = g.groups.flatten ∨
    (g.type = .straight ∨ g.type = .straightFlush) ∧ ∃ c ∈ cards, getCardValue c = 1
  first : g.type ≠ .straight → g.type ≠ .straightFlush → g.type ≠ .flush →
    (firstCards g.groups).map getCardRealValue = ranks (fiveOf g)
  flush : g.type = .flush → g.groups = [fiveOf g]

lemma AtMost.of_lacks {type' : GroupType} (h : AtMost cards type) (hl : Lacks cards type)
    (hcode : type.code = type'.code + 1) : AtMost cards type' := by
  intro h' hh
  have hle := h h' hh
  have hne : (category h').code ≠ type.code := fun heq => hl h' hh (code_inj heq)
  omega

/-- The groups of several cards of one value. -/
lemma finds_of_groups (hs : type ≠ .straight) (hsf : type ≠ .straightFlush) (hf : type ≠ .flush)
    (hbest : IsBest cards groups.flatten type)
    (hfirst : (firstCards groups).map getCardRealValue = ranks groups.flatten) :
    Finds cards ⟨type, groups⟩ := by
  have hfive : fiveOf ⟨type, groups⟩ = groups.flatten := if_neg (by simp [hs, hsf])
  refine ⟨by rwa [hfive], .inl hfive, fun _ _ _ => by rwa [hfive], fun h => absurd h hf⟩

/-- The group of a straight. -/
lemma finds_of_straight {w : List ℕ} {ws : List (List ℕ)}
    (hs : type = .straight ∨ type = .straightFlush) (hbest : IsBest cards w type)
    (hace : ws = [] ∨ ∃ c ∈ cards, getCardValue c = 1) : Finds cards ⟨type, w :: ws⟩ := by
  have hfive : fiveOf ⟨type, w :: ws⟩ = w := if_pos hs
  refine ⟨by rwa [hfive], ?_, ?_, ?_⟩
  · rcases hace with rfl | hace
    · exact .inl (by rw [hfive]; simp)
    · exact .inr ⟨hs, hace⟩
  · intro h₁ h₂
    exact absurd hs (by simp [h₁, h₂])
  · rintro rfl
    simp at hs

/-- `getBestGroup` finds the best five of five to seven different cards.

**Proof sketch.** The categories are searched from the highest one down, so when a search begins no
five of the cards are of a higher category, and a search that finds nothing leaves no five cards of
its own. A group of several cards of one value is a greedy pick; a straight is the highest run in a
descending list; flushes and high cards are the beginning of one. -/
lemma getBestGroup_finds {cards5 cards2 : List ℕ} (hd : Dealt (cards5 ++ cards2)) :
    ∃ g, getBestGroup cards5 cards2 = some g ∧ Finds (cards5 ++ cards2) g := by
  set cards := cards5 ++ cards2 with hcards
  have hne : cards ≠ [] := fun h => by
    have := hd.five_le
    simp [h] at this
  rw [getBestGroup, ← hcards, if_neg hne]
  have hmost : AtMost cards .straightFlush := fun h _ => by
    cases category h <;> decide
  rcases getBestGroupStraightFlush_spec hd with ⟨h₉, l₉⟩ | ⟨w, ws, h, hbest, hace⟩
  swap
  · exact ⟨_, by rw [h]; rfl, finds_of_straight (.inr rfl) hbest hace⟩
  have hmost : AtMost cards .fourKind := hmost.of_lacks l₉ rfl
  rcases getBestGroupFourKind_spec hd hmost with ⟨h₈, hall₄⟩ | ⟨gs, h, hbest, hfirst⟩
  swap
  · exact ⟨_, by rw [h₉, h]; rfl,
      finds_of_groups (by decide) (by decide) (by decide) hbest hfirst⟩
  have hmost : AtMost cards .fullHouse := hmost.of_lacks (lacks_of_lt hd rfl hall₄) rfl
  rcases getBestGroupFullHouse_spec hd hall₄ hmost with
    ⟨h₇, l₇, hsingle⟩ | ⟨gs, h, hbest, hfirst⟩
  swap
  · exact ⟨_, by rw [h₉, h₈, h]; rfl,
      finds_of_groups (by decide) (by decide) (by decide) hbest hfirst⟩
  have hmost : AtMost cards .flush := hmost.of_lacks l₇ rfl
  rcases getBestGroupFlush_spec hd hmost with ⟨h₆, l₆⟩ | ⟨five, h, hbest⟩
  swap
  · have hfive : fiveOf ⟨.flush, [five]⟩ = five := by simp [fiveOf]
    refine ⟨_, by rw [h₉, h₈, h₇, h]; rfl, by rwa [hfive], .inl ?_, ?_, ?_⟩
    · simp [fiveOf]
    · exact fun _ _ h => absurd rfl h
    · rw [hfive]
      exact fun _ => rfl
  have hmost : AtMost cards .straight := hmost.of_lacks l₆ rfl
  rcases getBestGroupStraight_spec hd hmost with ⟨h₅, l₅⟩ | ⟨w, ws, h, hbest, hace⟩
  swap
  · exact ⟨_, by rw [h₉, h₈, h₇, h₆, h]; rfl, finds_of_straight (.inl rfl) hbest hace⟩
  have hmost : AtMost cards .threeKind := hmost.of_lacks l₅ rfl
  rcases getBestGroupThreeKind_spec hd hall₄ hsingle hmost with
    ⟨h₄, hall₃⟩ | ⟨gs, h, hbest, hfirst⟩
  swap
  · exact ⟨_, by rw [h₉, h₈, h₇, h₆, h₅, h]; rfl,
      finds_of_groups (by decide) (by decide) (by decide) hbest hfirst⟩
  have hmost : AtMost cards .twoPair := hmost.of_lacks (lacks_of_lt hd rfl hall₃) rfl
  rcases getBestGroupTwoPair_spec hd hall₃ hmost with ⟨h₃, l₃, hunique⟩ | ⟨gs, h, hbest, hfirst⟩
  swap
  · exact ⟨_, by rw [h₉, h₈, h₇, h₆, h₅, h₄, h]; rfl,
      finds_of_groups (by decide) (by decide) (by decide) hbest hfirst⟩
  have hmost : AtMost cards .onePair := hmost.of_lacks l₃ rfl
  rcases getBestGroupOnePair_spec hd hall₃ hunique hmost with
    ⟨h₂, hall₂⟩ | ⟨gs, h, hbest, hfirst⟩
  swap
  · exact ⟨_, by rw [h₉, h₈, h₇, h₆, h₅, h₄, h₃, h]; rfl,
      finds_of_groups (by decide) (by decide) (by decide) hbest hfirst⟩
  have hmost : AtMost cards .highCard := hmost.of_lacks (lacks_of_lt hd rfl hall₂) rfl
  obtain ⟨gs, h, hbest, hfirst⟩ := getBestGroupHighCard_spec hd hall₂ hmost
  exact ⟨_, by rw [h₉, h₈, h₇, h₆, h₅, h₄, h₃, h₂, h]; rfl,
    finds_of_groups (by decide) (by decide) (by decide) hbest hfirst⟩

/-- **The best hand**: of five to seven different cards, `getBestGroup` returns five in the highest
category that five of the cards have, and no other five of the category have higher ranks. These are
all cards that are returned, except that a straight or a straight flush is the first of the groups,
and among cards with an ace another one may follow it. -/
theorem getBestGroup_best {cards5 cards2 : List ℕ} (hd : Dealt (cards5 ++ cards2)) :
    ∃ g, getBestGroup cards5 cards2 = some g ∧ IsBest (cards5 ++ cards2) (fiveOf g) g.type ∧
      (fiveOf g = g.groups.flatten ∨ (g.type = .straight ∨ g.type = .straightFlush) ∧
        ∃ c ∈ cards5 ++ cards2, getCardValue c = 1) := by
  obtain ⟨g, hg, hfinds⟩ := getBestGroup_finds hd
  exact ⟨g, hg, hfinds.best, hfinds.complete⟩

/-- Two pairs of three: the kings and the nines, with the queen beside them. -/
theorem threePairs_best : ∃ g,
    getBestGroup [0x1D, 0x29, 0x3D, 0x14, 0x2C] [0x39, 0x44] = some g ∧
      IsBest ([0x1D, 0x29, 0x3D, 0x14, 0x2C] ++ [0x39, 0x44]) (fiveOf g) .twoPair ∧
      fiveOf g = [0x1D, 0x3D, 0x29, 0x39, 0x2C] := by
  obtain ⟨g, hg, hbest, -⟩ :=
    @getBestGroup_best [0x1D, 0x29, 0x3D, 0x14, 0x2C] [0x39, 0x44] (by decide)
  have hfound : getBestGroup [0x1D, 0x29, 0x3D, 0x14, 0x2C] [0x39, 0x44] =
      some ⟨.twoPair, [[0x1D, 0x3D], [0x29, 0x39], [0x2C]]⟩ := by decide +kernel
  obtain rfl := Option.some.inj (hg.symm.trans hfound)
  exact ⟨_, hfound, hbest, rfl⟩

/-- Among A K 9 8 7 6 5 the straight 9 8 7 6 5 is found twice, and ten cards are returned. -/
theorem straight_found_twice : ¬ ∀ cards5 cards2 : List ℕ, cards5.length = 5 → cards2.length = 2 →
    Dealt (cards5 ++ cards2) →
    ∃ g, getBestGroup cards5 cards2 = some g ∧ g.groups.flatten.length = 5 := by
  intro h
  obtain ⟨g, hg, hlen⟩ := h [0x11, 0x2D, 0x39, 0x48, 0x17] [0x26, 0x35] rfl rfl (by decide)
  have hfound : (getBestGroup [0x11, 0x2D, 0x39, 0x48, 0x17] [0x26, 0x35]).map
      (fun g => g.groups.flatten.length) = some 10 := by decide +kernel
  rw [hg, Option.map_some, hlen] at hfound
  cases hfound

end Texas.CardAlgorithm
