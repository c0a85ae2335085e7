import JsmjServer.Lib.Picks
import JsmjServer.Texas.CardAlgorithm
import Mathlib.Algebra.BigOperators.Group.List.Lemmas
import Mathlib.Data.List.Lex
import Mathlib.Data.List.Perm.Subperm
import Mathlib.Data.List.Sublists
import Mathlib.Tactic.FinCases

set_option relaxedAutoImplicit false
set_option autoImplicit false

/-!
# The standard ranking of poker hands

What five cards are worth, stated without the searches of the code: the category from the numbers of
cards of each value, from the suits and from the runs of five values, of which A-2-3-4-5 is the
lowest; and inside a category the values, those of which there are more cards first.

## Main definitions

* `Texas.PokerHands.category`, `Texas.PokerHands.ranks` — of five cards.
* `Texas.PokerHands.strength` — the category and the ranks, in the lexicographic order.
* `Texas.PokerHands.Dealt` — the cards of a hand, five to seven different ones.

## Main results

* `Texas.PokerHands.counts_groupRanks` — the multiplicities of the values, by the category.
* `Texas.PokerHands.groupRanks_eq` — the ranks of cards with given multiplicities.
-/

namespace Texas.PokerHands

open CardAlgorithm

/-! ### Five cards -/

/-- The values, from the ace down. -/
def values : List ℕ := [14, 13, 12, 11, 10, 9, 8, 7, 6, 5, 4, 3, 2]

/-- The number of cards of a value. -/
def countOf (h : List ℕ) (v : ℕ) : ℕ := (h.map getCardRealValue).count v

/-- The values of which there are `k` cards, in descending order. -/
def withCount (h : List ℕ) (k : ℕ) : List ℕ := values.filter fun v => countOf h v = k

/-- The values, those of which there are more cards first. -/
def groupRanks (h : List ℕ) : List ℕ :=
  withCount h 4 ++ withCount h 3 ++ withCount h 2 ++ withCount h 1

/-- All cards are of one suit. -/
def IsFlush (h : List ℕ) : Prop := ∀ c ∈ h, ∀ c' ∈ h, getCardSuit c = getCardSuit c'

instance (h : List ℕ) : Decidable (IsFlush h) :=
  inferInstanceAs (Decidable (∀ c ∈ h, ∀ c' ∈ h, getCardSuit c = getCardSuit c'))

/-- The values of the straight up to `top`; the ace is below the two in the lowest one. -/
def run (top : ℕ) : List ℕ :=
  if top = 5 then [5, 4, 3, 2, 14] else [top, top - 1, top - 2, top - 3, top - 4]

/-- The highest cards of the straights. -/
def tops : List ℕ := [14, 13, 12, 11, 10, 9, 8, 7, 6, 5]

/-- The highest card of a straight. -/
def straightTop (h : List ℕ) : Option ℕ :=
  tops.find? fun top => (run top).all fun v => v ∈ h.map getCardRealValue

/-- The category of five cards. -/
def category (h : List ℕ) : GroupType :=
  if IsFlush h ∧ straightTop h ≠ none then .straightFlush
  else if withCount h 4 ≠ [] then .fourKind
  else if withCount h 3 ≠ [] ∧ withCount h 2 ≠ [] then .fullHouse
  else if IsFlush h then .flush
  else if straightTop h ≠ none then .straight
  else if withCount h 3 ≠ [] then .threeKind
  else if 2 ≤ (withCount h 2).length then .twoPair
  else if withCount h 2 ≠ [] then .onePair
  else .highCard

/-- The ranks inside a category: the highest card of a straight, and else the values. -/
def ranks (h : List ℕ) : List ℕ :=
  match straightTop h with
  | some top => [top]
  | none => groupRanks h

/-- The worth of five cards: the category first, then the ranks. -/
def strength (h : List ℕ) : List ℕ := (category h).code :: ranks h

/-- The worth of the best five of some cards. -/
def best (cards : List ℕ) : List ℕ := ((cards.sublistsLen 5).map strength).foldr max []

/-- The cards of a player and of the desk: five to seven different cards of the deck. -/
structure Dealt (cards : List ℕ) : Prop where
  nodup : cards.Nodup
  valid : ∀ c ∈ cards, isValidCard c
  five_le : 5 ≤ cards.length
  le_seven : cards.length ≤ 7

instance (cards : List ℕ) : Decidable (Dealt cards) :=
  decidable_of_iff (cards.Nodup ∧ (∀ c ∈ cards, isValidCard c) ∧ 5 ≤ cards.length ∧
    cards.length ≤ 7) ⟨fun ⟨h₁, h₂, h₃, h₄⟩ => ⟨h₁, h₂, h₃, h₄⟩,
      fun h => ⟨h.nodup, h.valid, h.five_le, h.le_seven⟩⟩

/-- Five of the cards. -/
structure Five (cards h : List ℕ) : Prop where
  subperm : h.Subperm cards
  length_eq : h.length = 5

variable {cards h : List ℕ} {c c' v k : ℕ}

/-! ### Values and suits -/

lemma card_ext (hs : getCardSuit c = getCardSuit c') (hv : getCardValue c = getCardValue c') :
    c = c' := by
  unfold getCardSuit at hs
  unfold getCardValue at hv
  omega

lemma getCardRealValue_inj (hc : isValidCard c) (hc' : isValidCard c') :
    getCardRealValue c = getCardRealValue c' ↔ getCardValue c = getCardValue c' := by
  obtain ⟨-, -, h₁, h₂⟩ := hc
  obtain ⟨-, -, h₁', h₂'⟩ := hc'
  unfold getCardRealValue
  split_ifs <;> omega

lemma mem_values : v ∈ values ↔ 2 ≤ v ∧ v ≤ 14 := by
  unfold values
  simp only [List.mem_cons, List.not_mem_nil, or_false]
  omega

lemma getCardRealValue_mem (hc : isValidCard c) : getCardRealValue c ∈ values := by
  obtain ⟨-, -, h₁, h₂⟩ := hc
  rw [mem_values, getCardRealValue]
  split_ifs <;> omega

lemma values_pairwise : values.Pairwise (· > ·) := by
  decide

lemma Five.nodup (h5 : Five cards h) (hd : Dealt cards) : h.Nodup := by
  obtain ⟨l, hperm, hsub⟩ := h5.subperm
  exact hperm.nodup_iff.mp (hd.nodup.sublist hsub)

lemma Five.valid (h5 : Five cards h) (hd : Dealt cards) : ∀ c ∈ h, isValidCard c :=
  fun c hc => hd.valid c (h5.subperm.subset hc)

lemma countOf_pos : 0 < countOf h v ↔ ∃ c ∈ h, getCardRealValue c = v := by
  rw [countOf, List.count_pos_iff, List.mem_map]

/-- There are as many cards of a value as there are suits among them. -/
lemma countOf_eq_length : countOf h v = (h.filter fun c => getCardRealValue c = v).length := by
  rw [countOf, List.count, List.countP_map, List.countP_eq_length_filter]
  congr 1

/-- Of every value there are at most four cards. -/
lemma countOf_le_four (hn : h.Nodup) (hv : ∀ c ∈ h, isValidCard c) (v : ℕ) :
    countOf h v ≤ 4 := by
  rw [countOf_eq_length, ← List.length_map getCardSuit]
  have hsuits : ((h.filter fun c => getCardRealValue c = v).map getCardSuit).Nodup := by
    refine (hn.filter _).map_on fun c hc c' hc' hs => ?_
    simp only [List.mem_filter, decide_eq_true_eq] at hc hc'
    exact card_ext hs ((getCardRealValue_inj (hv c hc.1) (hv c' hc'.1)).mp (hc.2.trans hc'.2.symm))
  have hsub : ((h.filter fun c => getCardRealValue c = v).map getCardSuit) ⊆ [1, 2, 3, 4] := by
    intro s hs
    obtain ⟨c, hc, rfl⟩ := List.mem_map.mp hs
    obtain ⟨h₁, h₂, -⟩ := hv c (List.mem_of_mem_filter hc)
    simp only [List.mem_cons, List.not_mem_nil, or_false]
    omega
  exact (List.subperm_of_subset hsuits hsub).length_le

/-- Cards of one suit have different values. -/
lemma countOf_le_one_of_flush (hn : h.Nodup) (hv : ∀ c ∈ h, isValidCard c) (hf : IsFlush h)
    (v : ℕ) : countOf h v ≤ 1 := by
  refine List.nodup_iff_count_le_one.mp (hn.map_on fun c hc c' hc' heq => ?_) v
  exact card_ext (hf c hc c' hc') ((getCardRealValue_inj (hv c hc) (hv c' hc')).mp heq)

lemma Five.countOf_le (h5 : Five cards h) (v : ℕ) : countOf h v ≤ countOf cards v := by
  obtain ⟨l, hperm, hsub⟩ := h5.subperm
  rw [countOf, ← (hperm.map getCardRealValue).count_eq]
  exact (hsub.map getCardRealValue).count_le v

/-! ### Multiplicities -/

lemma mem_withCount : v ∈ withCount h k ↔ v ∈ values ∧ countOf h v = k := by
  simp [withCount]

lemma withCount_eq_nil : withCount h k = [] ↔ ∀ v ∈ values, countOf h v ≠ k := by
  simp [withCount, List.filter_eq_nil_iff]

lemma mem_groupRanks : v ∈ groupRanks h ↔ v ∈ values ∧ 1 ≤ countOf h v ∧ countOf h v ≤ 4 := by
  simp only [groupRanks, List.mem_append, mem_withCount]
  constructor
  · rintro (((⟨hv, hk⟩ | ⟨hv, hk⟩) | ⟨hv, hk⟩) | ⟨hv, hk⟩) <;> exact ⟨hv, by omega, by omega⟩
  · rintro ⟨hv, h₁, h₄⟩
    have hk : countOf h v = 4 ∨ countOf h v = 3 ∨ countOf h v = 2 ∨ countOf h v = 1 := by omega
    rcases hk with hk | hk | hk | hk <;> simp [hv, hk]

/-- Of the first value there are more cards, or as many and it is higher. -/
def Before (h : List ℕ) (v u : ℕ) : Prop :=
  countOf h u < countOf h v ∨ countOf h v = countOf h u ∧ u < v

instance : Std.Irrefl (Before h) := ⟨fun v hv => by
  rcases hv with hv | ⟨-, hv⟩
  · exact lt_irrefl _ hv
  · exact lt_irrefl _ hv⟩

instance : Std.Antisymm (Before h) := ⟨fun v u hv hu => by
  unfold Before at hv hu
  omega⟩

lemma withCount_before (h : List ℕ) (k : ℕ) : (withCount h k).Pairwise (Before h) := by
  refine (values_pairwise.filter _).imp_of_mem fun hv hu hlt => .inr ⟨?_, hlt⟩
  exact (mem_withCount.mp hv).2.trans (mem_withCount.mp hu).2.symm

lemma groupRanks_before (h : List ℕ) : (groupRanks h).Pairwise (Before h) := by
  have happend : ∀ {l m : List ℕ} {k : ℕ}, l.Pairwise (Before h) → m.Pairwise (Before h) →
      (∀ v ∈ l, k < countOf h v) → (∀ v ∈ m, countOf h v = k) →
      (l ++ m).Pairwise (Before h) := by
    intro l m k hl hm hlt heq
    refine List.pairwise_append.mpr ⟨hl, hm, fun v hv u hu => .inl ?_⟩
    rw [heq u hu]
    exact hlt v hv
  have hcount : ∀ {k v}, v ∈ withCount h k → countOf h v = k := fun hv => (mem_withCount.mp hv).2
  refine happend (k := 1) (happend (k := 2) (happend (k := 3) (withCount_before h 4)
    (withCount_before h 3) ?_ fun v => hcount) (withCount_before h 2) ?_ fun v => hcount)
    (withCount_before h 1) ?_ fun v => hcount
  all_goals
    intro v hv
    simp only [List.mem_append, mem_withCount] at hv
    omega

lemma groupRanks_nodup (h : List ℕ) : (groupRanks h).Nodup := by
  refine (groupRanks_before h).imp fun {v u} hv heq => ?_
  rw [heq] at hv
  exact irrefl_of (Before h) u hv

/-- The ranks are the only list of the values in the order of their multiplicities. -/
lemma groupRanks_eq {vs : List ℕ} (hvs : vs.Pairwise (Before h))
    (hmem : ∀ v, v ∈ vs ↔ v ∈ values ∧ 1 ≤ countOf h v ∧ countOf h v ≤ 4) : groupRanks h = vs :=
  (groupRanks_before h).eq_of_mem_iff hvs fun v => mem_groupRanks.trans (hmem v).symm

lemma map_countOf_withCount (h : List ℕ) (k : ℕ) :
    (withCount h k).map (countOf h) = List.replicate (withCount h k).length k := by
  refine List.eq_replicate_iff.mpr ⟨List.length_map _, fun x hx => ?_⟩
  obtain ⟨v, hv, rfl⟩ := List.mem_map.mp hx
  exact (mem_withCount.mp hv).2

/-- The multiplicities of the values add up to the number of cards. -/
lemma sum_countOf (hn : h.Nodup) (hv : ∀ c ∈ h, isValidCard c) :
    4 * (withCount h 4).length + 3 * (withCount h 3).length + 2 * (withCount h 2).length +
      (withCount h 1).length = h.length := by
  have hsum : ((groupRanks h).map (countOf h)).sum = h.length := by
    rw [← List.length_map getCardRealValue, ← List.sum_map_count_dedup_eq_length]
    refine (List.Perm.map _ ?_).sum_eq
    refine (List.perm_ext_iff_of_nodup (groupRanks_nodup h) (List.nodup_dedup _)).mpr fun v => ?_
    have hmem : v ∈ h.map getCardRealValue ↔ 1 ≤ countOf h v := List.count_pos_iff.symm
    rw [mem_groupRanks, List.mem_dedup, hmem]
    refine ⟨fun hv => hv.2.1, fun hpos => ⟨?_, hpos, countOf_le_four hn hv v⟩⟩
    obtain ⟨c, hc, rfl⟩ := countOf_pos.mp hpos
    exact getCardRealValue_mem (hv c hc)
  simp only [groupRanks, List.map_append, List.sum_append, map_countOf_withCount,
    List.sum_replicate_nat] at hsum
  omega

/-! ### Straights -/

lemma run_nodup {t : ℕ} (ht : t ∈ tops) : (run t).Nodup ∧ (run t).length = 5 := by
  unfold tops at ht
  fin_cases ht <;> decide

lemma run_subset {t t' : ℕ} (ht : t ∈ tops) (ht' : t' ∈ tops) (h : run t ⊆ run t') : t = t' := by
  have hall : ∀ t ∈ tops, ∀ t' ∈ tops, (∀ v ∈ run t, v ∈ run t') → t = t' := by decide
  exact hall t ht t' ht' h

lemma straightTop_eq_none : straightTop h = none ↔
    ∀ t ∈ tops, ¬ run t ⊆ h.map getCardRealValue := by
  simp only [straightTop, List.find?_eq_none, List.all_eq_true, decide_eq_true_eq]
  rfl

lemma straightTop_spec {t : ℕ} (ht : straightTop h = some t) :
    t ∈ tops ∧ run t ⊆ h.map getCardRealValue := by
  refine ⟨List.mem_of_find?_eq_some ht, fun v hv => ?_⟩
  have hall := List.find?_some ht
  simp only [List.all_eq_true, decide_eq_true_eq] at hall
  exact hall v hv

/-- The values of a straight of five cards are those of the run. -/
lemma perm_run {t : ℕ} (ht : straightTop h = some t) (h5 : h.length = 5) :
    (run t).Perm (h.map getCardRealValue) := by
  obtain ⟨hmem, hsub⟩ := straightTop_spec ht
  obtain ⟨hnodup, hlen⟩ := run_nodup hmem
  refine (List.subperm_of_subset hnodup hsub).perm_of_length_le ?_
  rw [List.length_map, h5, hlen]

/-- Cards with the values of a run are a straight. -/
lemma straightTop_of_perm {t : ℕ} (ht : t ∈ tops) (hp : (h.map getCardRealValue).Perm (run t)) :
    straightTop h = some t := by
  cases hs : straightTop h with
  | none => exact absurd (fun v hv => hp.symm.subset hv) (straightTop_eq_none.mp hs t ht)
  | some t' =>
    obtain ⟨ht', hsub⟩ := straightTop_spec hs
    rw [run_subset ht' ht fun v hv => hp.subset (hsub hv)]

lemma countOf_le_one_of_straight (hs : straightTop h ≠ none) (h5 : h.length = 5) (v : ℕ) :
    countOf h v ≤ 1 := by
  obtain ⟨t, ht⟩ := Option.ne_none_iff_exists'.mp hs
  rw [countOf, ← (perm_run ht h5).count_eq]
  exact List.nodup_iff_count_le_one.mp (run_nodup (straightTop_spec ht).1).1 v

/-! ### Categories -/

/-- The multiplicities of the values in the categories. -/
def pattern : GroupType → List ℕ
  | .fourKind => [4, 1]
  | .fullHouse => [3, 2]
  | .threeKind => [3, 1, 1]
  | .twoPair => [2, 2, 1]
  | .onePair => [2, 1, 1, 1]
  | _ => [1, 1, 1, 1, 1]

lemma withCount_eq_nil_of_le_one (h1 : ∀ v, countOf h v ≤ 1) (hk : 2 ≤ k) : withCount h k = [] :=
  withCount_eq_nil.mpr fun v _ => by
    have := h1 v
    omega

/-- The multiplicities of the values of five cards are those of their category. -/
lemma counts_groupRanks (hn : h.Nodup) (hv : ∀ c ∈ h, isValidCard c) (h5 : h.length = 5) :
    (groupRanks h).map (countOf h) = pattern (category h) := by
  have hsum := sum_countOf hn hv
  have hsingle : IsFlush h ∨ straightTop h ≠ none →
      (withCount h 4).length = 0 ∧ (withCount h 3).length = 0 ∧ (withCount h 2).length = 0 := by
    intro hor
    have h1 : ∀ v, countOf h v ≤ 1 := by
      rcases hor with hf | hs
      · exact countOf_le_one_of_flush hn hv hf
      · exact countOf_le_one_of_straight hs h5
    have hnil : ∀ k, 2 ≤ k → (withCount h k).length = 0 := fun k hk => by
      rw [withCount_eq_nil_of_le_one h1 hk, List.length_nil]
    exact ⟨hnil 4 (by omega), hnil 3 (by omega), hnil 2 (by omega)⟩
  simp only [groupRanks, List.map_append, map_countOf_withCount, category,
    ← List.length_pos_iff]
  rw [h5] at hsum
  generalize (withCount h 4).length = n₄ at *
  generalize (withCount h 3).length = n₃ at *
  generalize (withCount h 2).length = n₂ at *
  generalize (withCount h 1).length = n₁ at *
  split_ifs with h₁ h₂ h₃ h₄ h₅ h₆ h₇ h₈
  · obtain ⟨rfl, rfl, rfl⟩ := hsingle (.inl h₁.1)
    obtain rfl : n₁ = 5 := by omega
    rfl
  · obtain ⟨rfl, rfl, rfl, rfl⟩ : n₄ = 1 ∧ n₃ = 0 ∧ n₂ = 0 ∧ n₁ = 1 := by omega
    rfl
  · obtain ⟨rfl, rfl, rfl, rfl⟩ : n₄ = 0 ∧ n₃ = 1 ∧ n₂ = 1 ∧ n₁ = 0 := by omega
    rfl
  · obtain ⟨rfl, rfl, rfl⟩ := hsingle (.inl h₄)
    obtain rfl : n₁ = 5 := by omega
    rfl
  · obtain ⟨rfl, rfl, rfl⟩ := hsingle (.inr h₅)
    obtain rfl : n₁ = 5 := by omega
    rfl
  · obtain ⟨rfl, rfl, rfl, rfl⟩ : n₄ = 0 ∧ n₃ = 1 ∧ n₂ = 0 ∧ n₁ = 2 := by omega
    rfl
  · obtain ⟨rfl, rfl, rfl, rfl⟩ : n₄ = 0 ∧ n₃ = 0 ∧ n₂ = 2 ∧ n₁ = 1 := by omega
    rfl
  · obtain ⟨rfl, rfl, rfl, rfl⟩ : n₄ = 0 ∧ n₃ = 0 ∧ n₂ = 1 ∧ n₁ = 3 := by omega
    rfl
  · obtain ⟨rfl, rfl, rfl, rfl⟩ : n₄ = 0 ∧ n₃ = 0 ∧ n₂ = 0 ∧ n₁ = 5 := by omega
    rfl

/-- The values of five cards of a category are available in every hand that holds them. -/
lemma Five.fits (h5 : Five cards h) (hd : Dealt cards) :
    Picks.Fits (countOf cards) (pattern (category h)) (groupRanks h) := by
  refine ⟨?_, groupRanks_nodup h⟩
  rw [← counts_groupRanks (h5.nodup hd) (h5.valid hd) h5.length_eq, List.forall₂_map_left_iff,
    List.forall₂_same]
  exact fun v _ => h5.countOf_le v

/-- What is sure of the category. -/
lemma le_code (h : List ℕ) : 1 ≤ (category h).code ∧
    (withCount h 2 ≠ [] → 2 ≤ (category h).code) ∧
    (2 ≤ (withCount h 2).length → 3 ≤ (category h).code) ∧
    (withCount h 3 ≠ [] → 4 ≤ (category h).code) ∧
    (straightTop h ≠ none → 5 ≤ (category h).code) ∧
    (IsFlush h → 6 ≤ (category h).code) ∧
    (withCount h 3 ≠ [] → withCount h 2 ≠ [] → 7 ≤ (category h).code) ∧
    (withCount h 4 ≠ [] → 8 ≤ (category h).code) ∧
    (IsFlush h → straightTop h ≠ none → 9 ≤ (category h).code) := by
  have htwo : 2 ≤ (withCount h 2).length → withCount h 2 ≠ [] := fun hle hnil => by
    simp [hnil] at hle
  unfold category
  split_ifs <;> simp_all [GroupType.code]

lemma category_eq_straightFlush (hc : category h = .straightFlush) :
    IsFlush h ∧ straightTop h ≠ none := by
  unfold category at hc
  split_ifs at hc with h₁
  exact h₁

lemma category_eq_flush (hc : category h = .flush) : IsFlush h := by
  unfold category at hc
  split_ifs at hc with h₁ h₂ h₃ h₄
  exact h₄

lemma category_eq_straight (hc : category h = .straight) : straightTop h ≠ none := by
  unfold category at hc
  split_ifs at hc with h₁ h₂ h₃ h₄ h₅
  exact h₅

lemma code_inj {t t' : GroupType} (h : t.code = t'.code) : t = t' := by
  cases t <;> cases t' <;> first | rfl | cases h

/-- A straight has one of the two categories of straights. -/
lemma category_of_straight (h5 : h.length = 5) (hs : straightTop h ≠ none) :
    category h = .straight ∨ category h = .straightFlush := by
  have h1 := countOf_le_one_of_straight hs h5
  unfold category
  rw [withCount_eq_nil_of_le_one h1 (by omega : 2 ≤ 4),
    withCount_eq_nil_of_le_one h1 (by omega : 2 ≤ 3)]
  by_cases hf : IsFlush h
  · exact .inr (by simp [hf, hs])
  · exact .inl (by simp [hf, hs])

end Texas.PokerHands
