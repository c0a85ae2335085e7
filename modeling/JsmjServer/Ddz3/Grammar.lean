import JsmjServer.Lib.Intervals
import JsmjServer.Ddz3.CardAlgorithm
import Mathlib.Tactic

set_option relaxedAutoImplicit false
set_option autoImplicit false

/-!
# The grammar of landlord plays

The comment in front of `ddz3/CardAlgorithm.lua` lists the plays of the game. The module states
them as a grammar over the ranks of a play and compares `matchPockerType` with it.

## Main definitions

* `Ddz3.Shape` — the grammar, by the ranks that occur once, twice, three and four times.
* `Ddz3.Right` — the result of the code is the one of the grammar.

## Main results

* `Ddz3.matchPockerType_right_iff` — the plays on which the code agrees with the grammar.
* `Ddz3.matchPockerType_accepts_three` — a play on which it does not.

## Design

The code works on increasing lists of values, the grammar on finite sets of ranks. A list is
judged continuous exactly when its set is an interval, and each of the four dispatch functions
is compared with the plays of its own number of equal cards.
-/

namespace Ddz3

/-! ### The grammar -/

/-- The documented plays, by the ranks that occur once (`s`), twice (`d`), three times (`t`) and
four times (`f`), with the type and the weight of the play: the top rank of its main part. -/
inductive Shape : (s d t f : Finset ℕ) → PockerType → ℕ → Prop
  | rocket : Shape {valueBlack, valueRed} ∅ ∅ ∅ .rocket valueRed
  | bomb (v : ℕ) : Shape ∅ ∅ ∅ {v} .bomb v
  | single (v : ℕ) : Shape {v} ∅ ∅ ∅ .single v
  | double (v : ℕ) : Shape ∅ {v} ∅ ∅ .double v
  | threecards (v : ℕ) : Shape ∅ ∅ {v} ∅ .threecards v
  | threeandsingle (v w : ℕ) : Shape {w} ∅ {v} ∅ .threeandsingle v
  | threeanddouble (v w : ℕ) : Shape ∅ {w} {v} ∅ .threeandsingle v
  | singleSequential (a b : ℕ) (hab : a + 4 ≤ b) (hb : b ≤ value1) :
      Shape (Finset.Icc a b) ∅ ∅ ∅ .singleSequential b
  | doubleSequential (a b : ℕ) (hab : a + 2 ≤ b) (hb : b ≤ value1) :
      Shape ∅ (Finset.Icc a b) ∅ ∅ .doubleSequential b
  | threeSequential (a b : ℕ) (hab : a + 1 ≤ b) (hb : b ≤ value1) :
      Shape ∅ ∅ (Finset.Icc a b) ∅ .threeSequential b
  | aircraftSingle (a b : ℕ) (wings : Finset ℕ) (hab : a + 1 ≤ b) (hb : b ≤ value1)
      (hw : wings.card = (Finset.Icc a b).card) :
      Shape wings ∅ (Finset.Icc a b) ∅ .aircraftSingle b
  | aircraftDouble (a b : ℕ) (wings : Finset ℕ) (hab : a + 1 ≤ b) (hb : b ≤ value1)
      (hw : wings.card = (Finset.Icc a b).card) :
      Shape ∅ wings (Finset.Icc a b) ∅ .aircraftSingle b
  | aircraftThree (a w : ℕ) (ha : a + 2 ≤ value1) (hw : w ∉ Finset.Icc a (a + 2)) :
      Shape ∅ ∅ (insert w (Finset.Icc a (a + 2))) ∅ .aircraftSingle (a + 2)
  | bombSingles (v w₁ w₂ : ℕ) (hw : w₁ ≠ w₂) : Shape {w₁, w₂} ∅ ∅ {v} .bombTwo v
  | bombDouble (v w : ℕ) : Shape ∅ {w} ∅ {v} .bombTwo v
  | bombDoubles (v w₁ w₂ : ℕ) (hw : w₁ ≠ w₂) : Shape ∅ {w₁, w₂} ∅ {v} .bombTwo v

/-- The ranks that occur `k` times. -/
def ranks (cards : List ℕ) (k : ℕ) : Finset ℕ := cards.toFinset.filter fun v => cards.count v = k

/-- The cards form a documented play of this type and weight. -/
def Forms (cards : List ℕ) (type : PockerType) (weight : ℕ) : Prop :=
  Shape (ranks cards 1) (ranks cards 2) (ranks cards 3) (ranks cards 4) type weight

/-- A non-empty multiset of card values, with at most four of each rank and one of each
joker. -/
structure Valid (cards : List ℕ) : Prop where
  ne_nil : cards ≠ []
  value : ∀ v ∈ cards, 1 ≤ v ∧ v ≤ valueRed
  four : ∀ v, cards.count v ≤ 4
  black : cards.count valueBlack ≤ 1
  red : cards.count valueRed ≤ 1

/-- The result of `matchPockerType` is the one of the grammar: it finds a type exactly when the
cards form a play, and then the returned type and weight are those of such a play and the length
is the number of cards. -/
def Right (cards : List ℕ) : Prop :=
  ∃ r, matchPockerType (some cards) = some r ∧
    (r.bFind = true ↔ ∃ type weight, Forms cards type weight) ∧
    (r.bFind = true → Forms cards r.type r.weight ∧ r.length = cards.length)

/-- Three or four single cards in a row. -/
def ShortStraight (cards : List ℕ) : Prop :=
  ∃ a b, a + 2 ≤ b ∧ b ≤ a + 3 ∧ b ≤ value1 ∧ ranks cards 1 = Finset.Icc a b ∧
    ranks cards 2 = ∅ ∧ ranks cards 3 = ∅ ∧ ranks cards 4 = ∅

/-- Three or more pairs from 3 to the ace that are not consecutive. -/
def LoosePairs (cards : List ℕ) : Prop :=
  ranks cards 1 = ∅ ∧ 3 ≤ (ranks cards 2).card ∧ value2 ∉ ranks cards 2 ∧
    (¬ ∃ a b, ranks cards 2 = Finset.Icc a b) ∧ ranks cards 3 = ∅ ∧ ranks cards 4 = ∅

/-- The triples of queen, king, ace and two: the twos are the wings of the other three. -/
def TriplesToTwo (cards : List ℕ) : Prop :=
  ranks cards 1 = ∅ ∧ ranks cards 2 = ∅ ∧
    ranks cards 3 = Finset.Icc (value1 - 2) value2 ∧ ranks cards 4 = ∅

/-! ### The values by the number of their cards -/

/-- The values that occur `k` times, in increasing order. -/
def kinds (cards : List ℕ) (k : ℕ) : List ℕ :=
  (cards.dedup.insertionSort (· ≤ ·)).filter fun v => cards.count v = k

lemma sortedLT_insertionSort_dedup (cards : List ℕ) :
    (cards.dedup.insertionSort (· ≤ ·)).SortedLT := by
  apply List.SortedLE.sortedLT_of_nodup
  · exact (List.pairwise_insertionSort (· ≤ ·) _).sortedLE
  · exact (List.perm_insertionSort (· ≤ ·) _).nodup_iff.mpr (List.nodup_dedup cards)

lemma sortedLT_kinds (cards : List ℕ) (k : ℕ) : (kinds cards k).SortedLT :=
  ((sortedLT_insertionSort_dedup cards).pairwise.filter _).sortedLT

lemma mem_insertionSort_dedup {cards : List ℕ} {v : ℕ} :
    v ∈ cards.dedup.insertionSort (· ≤ ·) ↔ v ∈ cards := by
  rw [(List.perm_insertionSort (· ≤ ·) _).mem_iff, List.mem_dedup]

@[simp] lemma toFinset_kinds (cards : List ℕ) (k : ℕ) :
    (kinds cards k).toFinset = ranks cards k := by
  ext v
  simp only [kinds, ranks, List.mem_toFinset, List.mem_filter, Finset.mem_filter,
    mem_insertionSort_dedup, decide_eq_true_eq]

/-- What `place` adds to the result it is given. -/
lemma place_eq (l : List (ℕ × ℕ)) (res : PockerTypeRes) (h : ∀ p ∈ l, 1 ≤ p.2 ∧ p.2 ≤ 4) :
    place res l = some
      { single := res.single ++ (l.filter (·.2 = 1)).map Prod.fst
        double := res.double ++ (l.filter (·.2 = 2)).map Prod.fst
        three := res.three ++ (l.filter (·.2 = 3)).map Prod.fst
        four := res.four ++ (l.filter (·.2 = 4)).map Prod.fst
        length := res.length + (l.map Prod.snd).sum } := by
  induction l generalizing res with
  | nil => simp [place]
  | cons p l ih =>
    obtain ⟨value, number⟩ := p
    have hrest : ∀ p ∈ l, 1 ≤ p.2 ∧ p.2 ≤ 4 := fun p hp => h p (List.mem_cons_of_mem _ hp)
    have hnumber : 1 ≤ number ∧ number ≤ 4 := h (value, number) (List.mem_cons_self ..)
    obtain rfl | rfl | rfl | rfl : number = 1 ∨ number = 2 ∨ number = 3 ∨ number = 4 := by omega
    all_goals simp [place, ih _ hrest, Nat.add_assoc]

/-- The number of cards, by the values that occur once, twice, three and four times. -/
lemma sum_map_eq_length_filter (l : List ℕ) (c : ℕ → ℕ) (h : ∀ v ∈ l, 1 ≤ c v ∧ c v ≤ 4) :
    (l.map c).sum = (l.filter (c · = 1)).length + 2 * (l.filter (c · = 2)).length +
      3 * (l.filter (c · = 3)).length + 4 * (l.filter (c · = 4)).length := by
  induction l with
  | nil => simp
  | cons v l ih =>
    have hrest := ih fun v hv => h v (List.mem_cons_of_mem _ hv)
    have hv : 1 ≤ c v ∧ c v ≤ 4 := h v (List.mem_cons_self ..)
    obtain hv | hv | hv | hv : c v = 1 ∨ c v = 2 ∨ c v = 3 ∨ c v = 4 := by omega
    all_goals
      simp only [List.map_cons, List.sum_cons, List.filter_cons, hv, hrest, decide_true,
        decide_false, if_true, List.length_cons, OfNat.ofNat_ne_one, if_false,
        Nat.reduceEqDiff, Bool.false_eq_true]
      omega

variable {cards : List ℕ}

lemma number_of_four (h : ∀ v, cards.count v ≤ 4) {v : ℕ}
    (hv : v ∈ cards.dedup.insertionSort (· ≤ ·)) : 1 ≤ cards.count v ∧ cards.count v ≤ 4 :=
  ⟨List.count_pos_iff.mpr (mem_insertionSort_dedup.mp hv), h v⟩

/-- What `matchPockerType` judges: the values by the number of their cards. -/
lemma matchPockerType_eq (h : ∀ v, cards.count v ≤ 4) :
    matchPockerType (some cards) = judgePockerType
      { single := kinds cards 1, double := kinds cards 2, three := kinds cards 3,
        four := kinds cards 4, length := cards.length } := by
  have hplace : ∀ p ∈ sortValue cards, 1 ≤ p.2 ∧ p.2 ≤ 4 := by
    intro p hp
    obtain ⟨v, hv, rfl⟩ := List.mem_map.mp hp
    exact number_of_four h hv
  have hkinds : ∀ k, ((sortValue cards).filter (·.2 = k)).map Prod.fst = kinds cards k := by
    intro k
    simp [sortValue, kinds, List.filter_map, Function.comp_def]
  have hlength : ((sortValue cards).map Prod.snd).sum = cards.length := by
    rw [sortValue, List.map_map]
    rw [← List.sum_map_count_dedup_eq_length cards]
    exact ((List.perm_insertionSort (· ≤ ·) cards.dedup).map _).sum_eq
  simp [matchPockerType, place_eq _ _ hplace, hkinds, hlength]

/-- The number of cards of a play. -/
lemma length_eq_kinds (h : ∀ v, cards.count v ≤ 4) :
    cards.length = (kinds cards 1).length + 2 * (kinds cards 2).length +
      3 * (kinds cards 3).length + 4 * (kinds cards 4).length := by
  rw [← List.sum_map_count_dedup_eq_length cards,
    ← ((List.perm_insertionSort (· ≤ ·) cards.dedup).map _).sum_eq]
  exact sum_map_eq_length_filter _ _ fun v hv => number_of_four h hv

/-! ### Consecutive values -/

lemma continuousFrom_fst (bPrev : Bool) (preValue : ℕ) (l : List ℕ) :
    (continuousFrom bPrev preValue l).1 = true ↔ l = List.range' (preValue + 1) l.length := by
  induction l generalizing bPrev preValue with
  | nil => simp [continuousFrom]
  | cons card rest ih =>
    by_cases hc : card = preValue + 1
    · simp [continuousFrom, hc, ih, List.range'_succ]
    · simp [continuousFrom, hc, List.range'_succ]

lemma judgeTableContinuous_fst (l : List ℕ) (n : ℕ) :
    (judgeTableContinuous l n).1 = true ↔ ∃ a, l = List.range' a l.length := by
  cases l with
  | nil => simp [judgeTableContinuous]
  | cons card rest =>
    simp only [judgeTableContinuous, continuousFrom_fst, List.length_cons, List.range'_succ,
      List.cons.injEq]
    constructor
    · intro h
      exact ⟨card, rfl, h⟩
    · rintro ⟨a, rfl, h⟩
      exact h

/-- An increasing list is judged continuous exactly when its ranks form an interval. -/
lemma continuous_iff_Icc {l : List ℕ} (hl : l.SortedLT) (hne : l ≠ []) (n : ℕ) :
    (judgeTableContinuous l n).1 = true ↔ ∃ a b, a ≤ b ∧ l.toFinset = Finset.Icc a b := by
  rw [judgeTableContinuous_fst]
  constructor
  · rintro ⟨a, ha⟩
    obtain ⟨m, hm⟩ := Nat.exists_eq_succ_of_ne_zero (List.length_pos_iff.mpr hne).ne'
    rw [hm] at ha
    exact ⟨a, a + m, Nat.le_add_right a m, by rw [ha, Intervals.toFinset_range']⟩
  · rintro ⟨a, b, hab, h⟩
    have := Intervals.eq_range'_of_toFinset hl hab h
    refine ⟨a, ?_⟩
    rw [this, List.length_range']

lemma lastValue_range' (a n : ℕ) : lastValue (List.range' a (n + 1)) = a + n := by
  simp [lastValue, List.range'_concat]

/-- The weight the code takes is the top rank. -/
lemma lastValue_of_Icc {l : List ℕ} {a b : ℕ} (hl : l.SortedLT) (hab : a ≤ b)
    (h : l.toFinset = Finset.Icc a b) : lastValue l = b := by
  rw [Intervals.eq_range'_of_toFinset hl hab h, lastValue_range', Nat.add_sub_cancel' hab]

lemma hasSplitCards_iff (l splitList : List ℕ) :
    hasSplitCards l splitList = true ↔ ∃ v ∈ splitList, v ∈ l.toFinset := by
  simp [hasSplitCards, and_comm]

/-! ### One result against the grammar -/

/-- A result agrees with a set of plays of `n` cards. -/
def Agrees (r : RetResult) (plays : PockerType → ℕ → Prop) (n : ℕ) : Prop :=
  (r.bFind = true ↔ ∃ type weight, plays type weight) ∧
    (r.bFind = true → plays r.type r.weight ∧ r.length = n)

lemma agrees_found {type : PockerType} {weight n mainWeight : ℕ}
    {plays : PockerType → ℕ → Prop} (h : plays type weight) :
    Agrees ⟨true, type, weight, n, mainWeight⟩ plays n :=
  ⟨⟨fun _ => ⟨type, weight, h⟩, fun _ => rfl⟩, fun _ => ⟨h, rfl⟩⟩

lemma agrees_notFound_iff {plays : PockerType → ℕ → Prop} {n : ℕ} :
    Agrees notFound plays n ↔ ¬ ∃ type weight, plays type weight := by
  simp [Agrees, notFound]

lemma Agrees.plays {r : RetResult} {plays : PockerType → ℕ → Prop} {n : ℕ}
    (h : Agrees r plays n) (hr : r.bFind = true) : plays r.type r.weight := (h.2 hr).1

variable {s d t f : List ℕ} {n : ℕ}

/-- The plays formed by four lists of ranks. -/
def plays (s d t f : List ℕ) : PockerType → ℕ → Prop :=
  Shape s.toFinset d.toFinset t.toFinset f.toFinset

lemma exists_pair_of_length {l : List ℕ} (hl : l.SortedLT) (h : l.length = 2) :
    ∃ v w, v ≠ w ∧ l = [v, w] := by
  obtain ⟨v, w, rfl⟩ := List.length_eq_two.mp h
  have := hl.nodup
  simp only [List.nodup_cons, List.mem_singleton] at this
  exact ⟨v, w, this.1, rfl⟩

/-! ### Four of a kind -/

/-- The plays with four of a kind, by the numbers of their ranks. -/
lemma Shape.card_four {S D T F : Finset ℕ} {type : PockerType} {weight : ℕ}
    (h : Shape S D T F type weight) (hF : F.card ≠ 0) :
    F.card = 1 ∧ T.card = 0 ∧ (S.card = 0 ∧ D.card = 0 ∨ S.card = 2 ∧ D.card = 0 ∨
      S.card = 0 ∧ D.card = 1 ∨ S.card = 0 ∧ D.card = 2) := by
  cases h
  case bomb => simp
  case bombSingles hw => simp [Finset.card_pair hw]
  case bombDouble => simp
  case bombDoubles hw => simp [Finset.card_pair hw]
  all_goals exact absurd Finset.card_empty hF

/-- `bombPockerType` agrees with the grammar. -/
lemma agrees_bombPockerType (hs : s.SortedLT) (hd : d.SortedLT) (ht : t.SortedLT)
    (hf : f.SortedLT) (hne : f ≠ [])
    (hn : n = s.length + 2 * d.length + 3 * t.length + 4 * f.length) :
    Agrees (bombPockerType ⟨s, d, t, f, n⟩) (plays s d t f) n := by
  have hpos : 0 < f.length := List.length_pos_iff.mpr hne
  simp only [bombPockerType]
  split_ifs with htwo hbomb
  · -- one rank of four, and two single ranks, one pair or two pairs beside it
    obtain ⟨v, rfl⟩ := List.length_eq_one_iff.mp htwo.2.2
    obtain rfl : t = [] := List.length_eq_zero_iff.mp (by
      simp only [List.length_singleton] at hn; omega)
    apply agrees_found
    simp only [List.length_singleton, List.length_nil] at hn
    obtain h | h | h : (s.length = 2 ∧ d.length = 0) ∨ (s.length = 0 ∧ d.length = 1) ∨
        (s.length = 0 ∧ d.length = 2) := by omega
    · obtain ⟨w₁, w₂, hw, rfl⟩ := exists_pair_of_length hs h.1
      obtain rfl := List.length_eq_zero_iff.mp h.2
      simpa [plays] using Shape.bombSingles v w₁ w₂ hw
    · obtain rfl := List.length_eq_zero_iff.mp h.1
      obtain ⟨w, rfl⟩ := List.length_eq_one_iff.mp h.2
      simpa [plays] using Shape.bombDouble v w
    · obtain rfl := List.length_eq_zero_iff.mp h.1
      obtain ⟨w₁, w₂, hw, rfl⟩ := exists_pair_of_length hd h.2
      simpa [plays] using Shape.bombDoubles v w₁ w₂ hw
  · obtain ⟨v, rfl⟩ := List.length_eq_one_iff.mp (show f.length = 1 by omega)
    obtain rfl : s = [] := List.length_eq_zero_iff.mp (by simp at hn; omega)
    obtain rfl : d = [] := List.length_eq_zero_iff.mp (by simp at hn; omega)
    obtain rfl : t = [] := List.length_eq_zero_iff.mp (by simp at hn; omega)
    apply agrees_found
    simpa [plays] using Shape.bomb v
  · rw [agrees_notFound_iff]
    rintro ⟨type, weight, h⟩
    have hcard := h.card_four (by rw [Intervals.card_toFinset hf]; omega)
    rw [Intervals.card_toFinset hs, Intervals.card_toFinset hd, Intervals.card_toFinset ht,
      Intervals.card_toFinset hf] at hcard
    omega

/-! ### Triples -/

/-- The plays with triples and no four of a kind. -/
lemma Shape.three_cases {S D T : Finset ℕ} {type : PockerType} {weight : ℕ}
    (h : Shape S D T ∅ type weight) (hT : T.card ≠ 0) :
    (T.card = 1 ∧ S.card + D.card ≤ 1) ∨
    (∃ a b, a + 1 ≤ b ∧ b ≤ value1 ∧ T = Finset.Icc a b ∧
      (S.card = 0 ∧ D.card = 0 ∨ S.card = T.card ∧ D.card = 0 ∨ S.card = 0 ∧ D.card = T.card)) ∨
    (∃ a w, a + 2 ≤ value1 ∧ w ∉ Finset.Icc a (a + 2) ∧ S.card = 0 ∧ D.card = 0 ∧
      T = insert w (Finset.Icc a (a + 2))) := by
  generalize hF : (∅ : Finset ℕ) = F at h
  cases h
  case threecards => exact .inl (by simp)
  case threeandsingle => exact .inl (by simp)
  case threeanddouble => exact .inl (by simp)
  case threeSequential a hab hb => exact .inr (.inl ⟨a, weight, hab, hb, rfl, by simp⟩)
  case aircraftSingle a hab hb hw =>
    exact .inr (.inl ⟨a, weight, hab, hb, rfl, by simp [hw]⟩)
  case aircraftDouble a hab hb hw =>
    exact .inr (.inl ⟨a, weight, hab, hb, rfl, by simp [hw]⟩)
  case aircraftThree a w ha hw => exact .inr (.inr ⟨a, w, ha, hw, by simp, by simp, rfl⟩)
  all_goals exact absurd Finset.card_empty hT

lemma value2_notMem_of_not_hasSplitCards {l : List ℕ} (h : ¬ hasSplitCards l [value2] = true) :
    value2 ∉ l.toFinset := by
  intro hv
  exact h ((hasSplitCards_iff l _).mpr ⟨value2, by simp, hv⟩)

/-- Ranks up to the two without the two end at the ace. -/
lemma le_value1_of_Icc {l : List ℕ} {a b : ℕ} (hab : a ≤ b) (h : l.toFinset = Finset.Icc a b)
    (hmax : ∀ v ∈ l, v ≤ value2) (hsplit : value2 ∉ l.toFinset) : b ≤ value1 := by
  have hb : b ∈ l.toFinset := by rw [h]; exact Finset.right_mem_Icc.mpr hab
  have hle : b ≤ value2 := hmax b (List.mem_toFinset.mp hb)
  have hne : b ≠ value2 := fun hb' => hsplit (hb' ▸ hb)
  simp only [value1, value2] at *
  omega

lemma Icc_three (a : ℕ) : Finset.Icc a (a + 2) = {a, a + 1, a + 2} := by
  ext v
  simp only [Finset.mem_Icc, Finset.mem_insert, Finset.mem_singleton]
  omega

/-- A triple that is not next to three consecutive ones breaks the list where the code looks. -/
lemma judgeFourThreeScenes_of_insert {a w : ℕ} (ht : t.SortedLT) (hn : n = 12)
    (ha : a + 2 ≤ value1) (hw : w ∉ Finset.Icc a (a + 2))
    (h : t.toFinset = insert w (Finset.Icc a (a + 2)))
    (hc : ¬ (judgeTableContinuous t 2).1 = true) :
    (judgeFourThreeScenes ⟨s, d, t, f, n⟩ (judgeTableContinuous t 2).2).1 = true := by
  have hlow : w < a ∨ a + 2 < w := by
    simp only [Finset.mem_Icc] at hw
    omega
  simp only [value1] at ha
  subst hn
  obtain hlow | hlow := hlow
  · have hlist : t = [w, a, a + 1, a + 2] := by
      apply Intervals.eq_of_toFinset ht
      · rw [List.sortedLT_iff_pairwise]
        simp
        omega
      · rw [h, Icc_three]
        simp
    subst hlist
    have hgap : ¬ a = w + 1 := by
      intro hgap
      apply hc
      simp [judgeTableContinuous, continuousFrom, hgap]
    have hne : a ≠ w ∧ a + 1 ≠ w ∧ a + 2 ≠ w := by omega
    have htwo : a ≠ value2 ∧ a + 1 ≠ value2 ∧ a + 2 ≠ value2 := by
      simp only [value2]
      omega
    simp [judgeFourThreeScenes, judgeTableContinuous, continuousFrom, hgap, hne, htwo,
      hasSplitCards]
  · have hlist : t = [a, a + 1, a + 2, w] := by
      apply Intervals.eq_of_toFinset ht
      · rw [List.sortedLT_iff_pairwise]
        simp
        omega
      · rw [h, Icc_three]
        ext v
        simp
        tauto
    subst hlist
    have hgap : ¬ w = a + 2 + 1 := by
      intro hgap
      apply hc
      simp [judgeTableContinuous, continuousFrom, hgap]
    have hne : a ≠ w ∧ a + 1 ≠ w ∧ a + 2 ≠ w := by omega
    have htwo : a ≠ value2 ∧ a + 1 ≠ value2 ∧ a + 2 ≠ value2 := by
      simp only [value2]
      omega
    simp [judgeFourThreeScenes, judgeTableContinuous, continuousFrom, hgap, hne, htwo,
      hasSplitCards]

/-- Three values that are judged continuous and hold no two are three ranks in a row up to the
ace. -/
lemma exists_of_continuous_three {x y z k : ℕ} (hmax : z ≤ value2)
    (hc : (judgeTableContinuous [x, y, z] k).1 = true)
    (hsplit : hasSplitCards [x, y, z] [value2] = false) :
    y = x + 1 ∧ z = x + 2 ∧ x + 2 ≤ value1 := by
  obtain ⟨a, ha⟩ := (judgeTableContinuous_fst _ _).mp hc
  simp only [List.length_cons, List.length_nil, List.range'_succ, List.range'_zero,
    List.cons.injEq] at ha
  obtain ⟨rfl, rfl, hz, -⟩ := ha
  have hne : z ≠ value2 := by
    rintro rfl
    simp [hasSplitCards] at hsplit
  refine ⟨rfl, hz, ?_⟩
  simp only [value1, value2] at hmax hne ⊢
  omega

/-- Where the code takes four triples with a gap for three with a fourth as wings, they are. -/
lemma exists_insert_of_judgeFourThreeScenes (ht : t.SortedLT) (hmax : ∀ v ∈ t, v ≤ value2)
    (hc : ¬ (judgeTableContinuous t 2).1 = true)
    (h : (judgeFourThreeScenes ⟨s, d, t, f, n⟩ (judgeTableContinuous t 2).2).1 = true) :
    n = 12 ∧ t.length = 4 ∧ ∃ a w, a + 2 ≤ value1 ∧ w ∉ Finset.Icc a (a + 2) ∧
      t.toFinset = insert w (Finset.Icc a (a + 2)) ∧
      (judgeFourThreeScenes ⟨s, d, t, f, n⟩ (judgeTableContinuous t 2).2).2 = a + 2 := by
  by_cases hlen : n = 12 ∧ t.length = 4
  swap
  · simp [judgeFourThreeScenes, hlen] at h
  refine ⟨hlen.1, hlen.2, ?_⟩
  obtain ⟨x, y, z, w, rfl⟩ : ∃ x y z w, t = [x, y, z, w] := by
    obtain ⟨rfl, h4⟩ := hlen
    match t, h4 with
    | [x, y, z, w], _ => exact ⟨x, y, z, w, rfl⟩
  have hsorted := ht.pairwise
  simp only [List.pairwise_cons, List.mem_cons, List.not_mem_nil, or_false, forall_eq_or_imp,
    forall_eq] at hsorted
  obtain ⟨⟨hxy, hxz, hxw⟩, ⟨hyz, hyw⟩, hzw, -⟩ := hsorted
  have hwmax : w ≤ value2 := hmax w (by simp)
  simp only [judgeFourThreeScenes, hlen, and_self, if_true] at h ⊢
  by_cases hy : y = x + 1
  · subst hy
    by_cases hz : z = x + 1 + 1
    · -- the break is behind the third triple
      subst hz
      have hw : ¬ w = x + 1 + 1 + 1 := by
        intro hw
        apply hc
        simp [judgeTableContinuous, continuousFrom, hw]
      have hbreak : (judgeTableContinuous [x, x + 1, x + 1 + 1, w] 2).2 = w := by
        simp [judgeTableContinuous, continuousFrom, hw]
      have hfilter : [x, x + 1, x + 1 + 1, w].filter (· ≠ w) = [x, x + 1, x + 1 + 1] := by
        simp [hxw.ne, hyw.ne, hzw.ne]
      rw [hbreak, hfilter] at h ⊢
      split_ifs at h ⊢ with hcond
      simp only [Bool.and_eq_true, Bool.not_eq_true'] at hcond
      have htop := (exists_of_continuous_three (by omega) hcond.1 hcond.2).2.2
      refine ⟨x, w, htop, by simp; omega, ?_, rfl⟩
      rw [Icc_three]
      ext v
      simp
      tauto
    · -- a break in the middle leaves no three in a row
      have hbreak : (judgeTableContinuous [x, x + 1, z, w] 2).2 = z := by
        simp [judgeTableContinuous, continuousFrom, hz]
      have hfilter : [x, x + 1, z, w].filter (· ≠ z) = [x, x + 1, w] := by
        simp [hxz.ne, hyz.ne, hzw.ne']
      rw [hbreak, hfilter] at h
      split_ifs at h with hcond
      simp only [Bool.and_eq_true, Bool.not_eq_true'] at hcond
      have hw := (exists_of_continuous_three hwmax hcond.1 hcond.2).2.1
      omega
  · -- the break is behind the first triple
    have hbreak : (judgeTableContinuous [x, y, z, w] 2).2 = x := by
      simp [judgeTableContinuous, continuousFrom, hy]
    have hfilter : [x, y, z, w].filter (· ≠ x) = [y, z, w] := by
      simp [hxy.ne', hxz.ne', hxw.ne']
    rw [hbreak, hfilter] at h ⊢
    split_ifs at h ⊢ with hcond
    simp only [Bool.and_eq_true, Bool.not_eq_true'] at hcond
    obtain ⟨rfl, rfl, htop⟩ := exists_of_continuous_three hwmax hcond.1 hcond.2
    refine ⟨y, x, htop, by simp; omega, ?_, rfl⟩
    rw [Icc_three]
    simp

lemma aircraft_iff (res : PockerTypeRes) : aircraft res = true ↔
    (res.length = res.three.length * 3 + res.double.length * 2 ∧
      res.three.length = res.double.length) ∨
    (res.length = res.three.length * 3 + res.single.length ∧
      res.three.length = res.single.length) := by
  simp [aircraft]

/-- `threePockerType` agrees with the grammar on one triple. -/
lemma agrees_threePockerType_one (hs : s.SortedLT) (hd : d.SortedLT) (ht : t.length = 1)
    (hn : n = s.length + 2 * d.length + 3 * t.length) :
    Agrees (threePockerType ⟨s, d, t, [], n⟩) (plays s d t []) n := by
  obtain ⟨v, rfl⟩ := List.length_eq_one_iff.mp ht
  simp only [List.length_singleton] at hn
  by_cases h3 : n = 3
  · obtain rfl : s = [] := List.length_eq_zero_iff.mp (by omega)
    obtain rfl : d = [] := List.length_eq_zero_iff.mp (by omega)
    subst h3
    apply agrees_found
    simpa [plays, lastValue] using Shape.threecards v
  have hlong : 3 < n := by omega
  by_cases ha : aircraft ⟨s, d, [v], [], n⟩ = true
  · simp only [threePockerType, h3, ha, hlong, List.length_singleton, and_self, if_true, if_false]
    rw [aircraft_iff] at ha
    simp only [List.length_singleton] at ha
    apply agrees_found
    obtain h | h : (s.length = 0 ∧ d.length = 1) ∨ (s.length = 1 ∧ d.length = 0) := by omega
    · obtain rfl := List.length_eq_zero_iff.mp h.1
      obtain ⟨w, rfl⟩ := List.length_eq_one_iff.mp h.2
      simpa [plays, lastValue] using Shape.threeanddouble v w
    · obtain ⟨w, rfl⟩ := List.length_eq_one_iff.mp h.1
      obtain rfl := List.length_eq_zero_iff.mp h.2
      simpa [plays, lastValue] using Shape.threeandsingle v w
  · simp only [threePockerType, h3, ha, hlong, List.length_singleton, and_self, if_true, if_false,
      Bool.false_eq_true]
    rw [aircraft_iff] at ha
    simp only [List.length_singleton] at ha
    rw [agrees_notFound_iff]
    rintro ⟨type, weight, h⟩
    have hcases := h.three_cases (by simp)
    simp only [Intervals.card_toFinset hs, Intervals.card_toFinset hd] at hcases
    obtain hcard | ⟨a, b, hab, -, hT, -⟩ | ⟨a, w, -, hw, -, -, hT⟩ := hcases
    · omega
    · have := congrArg Finset.card hT
      simp only [List.toFinset_cons, List.toFinset_nil, insert_empty_eq,
        Finset.card_singleton, Nat.card_Icc] at this
      omega
    · have := congrArg Finset.card hT
      rw [Finset.card_insert_of_notMem hw, Nat.card_Icc] at this
      simp only [List.toFinset_cons, List.toFinset_nil, insert_empty_eq,
        Finset.card_singleton] at this
      omega

/-- Three consecutive triples and one more, in a row that ends at the two. -/
lemma eq_Icc_of_insert {T : Finset ℕ} {a b c w : ℕ} (hT : T = Finset.Icc a b)
    (h : T = insert w (Finset.Icc c (c + 2))) (hw : w ∉ Finset.Icc c (c + 2))
    (hmem : value2 ∈ T) (hmax : ∀ v ∈ T, v ≤ value2) :
    T = Finset.Icc (value1 - 2) value2 := by
  have hcard : T.card = 4 := by
    rw [h, Finset.card_insert_of_notMem hw, Nat.card_Icc]
    omega
  rw [hT, Nat.card_Icc] at hcard
  have hb : b = value2 := by
    have hle := hmax b (by rw [hT]; exact Finset.right_mem_Icc.mpr (by omega))
    rw [hT, Finset.mem_Icc] at hmem
    omega
  have ha : a = value1 - 2 := by
    simp only [value1, value2] at hb ⊢
    omega
  rw [hT, hb, ha]

/-- `threePockerType` on triples in a row: it misses only the four triples that end at the
two. -/
lemma agrees_threePockerType_row (hs : s.SortedLT) (hd : d.SortedLT) (ht : t.SortedLT)
    (hlen : 2 ≤ t.length) (hmax : ∀ v ∈ t, v ≤ value2)
    (hc : (judgeTableContinuous t 2).1 = true)
    (hn : n = s.length + 2 * d.length + 3 * t.length) :
    Agrees (threePockerType ⟨s, d, t, [], n⟩) (plays s d t []) n ↔
      ¬ (s = [] ∧ d = [] ∧ t.toFinset = Finset.Icc (value1 - 2) value2) := by
  have hne : t ≠ [] := by
    rintro rfl
    simp at hlen
  obtain ⟨a, b, hab, hT⟩ := (continuous_iff_Icc ht hne 2).mp hc
  have hcard : t.length = b + 1 - a := by
    rw [← Intervals.card_toFinset ht, hT, Nat.card_Icc]
  have hlast : lastValue t = b := lastValue_of_Icc ht hab hT
  have h3 : ¬ n = 3 := by omega
  have h1 : ¬ (t.length = 1 ∧ 3 < n) := by omega
  simp only [threePockerType, h3, h1, hc, hlast, if_true, if_false]
  by_cases hsplit : hasSplitCards t [value2] = true
  · -- with the two in the row nothing is found
    obtain ⟨v, hv, hmem⟩ := (hasSplitCards_iff t _).mp hsplit
    obtain rfl : v = value2 := by simpa using hv
    simp only [hsplit, Bool.not_true, Bool.false_eq_true, and_false, if_false]
    rw [agrees_notFound_iff, not_iff_not]
    constructor
    · rintro ⟨type, weight, h⟩
      obtain hone | ⟨a', b', -, hb', hT', -⟩ | ⟨a', w, -, hw, hs0, hd0, hT'⟩ :=
        h.three_cases (by rw [Intervals.card_toFinset ht]; omega)
      · rw [Intervals.card_toFinset ht] at hone
        omega
      · rw [hT', Finset.mem_Icc] at hmem
        simp only [value1, value2] at hb' hmem
        omega
      · rw [Intervals.card_toFinset hs, List.length_eq_zero_iff] at hs0
        rw [Intervals.card_toFinset hd, List.length_eq_zero_iff] at hd0
        refine ⟨hs0, hd0, eq_Icc_of_insert hT hT' hw hmem ?_⟩
        intro v hv
        exact hmax v (List.mem_toFinset.mp hv)
    · rintro ⟨rfl, rfl, hfour⟩
      refine ⟨.aircraftSingle, value1, ?_⟩
      have hinsert : t.toFinset = insert value2 (Finset.Icc (value1 - 2) (value1 - 2 + 2)) := by
        rw [hfour]
        decide
      simp only [plays, hinsert]
      exact Shape.aircraftThree (value1 - 2) value2 (le_refl _) (by simp [value1, value2])
  · -- without it the row ends at the ace
    have htwo := value2_notMem_of_not_hasSplitCards hsplit
    have hb := le_value1_of_Icc hab hT hmax htwo
    have hnot : ¬ (s = [] ∧ d = [] ∧ t.toFinset = Finset.Icc (value1 - 2) value2) := by
      rintro ⟨-, -, h⟩
      apply htwo
      rw [h]
      simp [value1, value2]
    rw [iff_true_right hnot]
    simp only [hsplit, Bool.not_false, and_true]
    split_ifs with hseq hair
    · obtain rfl : s = [] := List.length_eq_zero_iff.mp (by omega)
      obtain rfl : d = [] := List.length_eq_zero_iff.mp (by omega)
      apply agrees_found
      simpa [plays, hT] using Shape.threeSequential a b (by omega) hb
    · rw [aircraft_iff] at hair
      simp only at hair
      apply agrees_found
      obtain h | h : (s.length = 0 ∧ d.length = t.length) ∨
          (s.length = t.length ∧ d.length = 0) := by omega
      · obtain rfl := List.length_eq_zero_iff.mp h.1
        have hw : d.toFinset.card = (Finset.Icc a b).card := by
          rw [Intervals.card_toFinset hd, ← hT, Intervals.card_toFinset ht, h.2]
        simpa [plays, hT] using Shape.aircraftDouble a b d.toFinset (by omega) hb hw
      · obtain rfl := List.length_eq_zero_iff.mp h.2
        have hw : s.toFinset.card = (Finset.Icc a b).card := by
          rw [Intervals.card_toFinset hs, ← hT, Intervals.card_toFinset ht, h.1]
        simpa [plays, hT] using Shape.aircraftSingle a b s.toFinset (by omega) hb hw
    · rw [aircraft_iff] at hair
      simp only at hair
      rw [agrees_notFound_iff]
      rintro ⟨type, weight, h⟩
      have hcases := h.three_cases (by rw [Intervals.card_toFinset ht]; omega)
      simp only [Intervals.card_toFinset hs, Intervals.card_toFinset hd,
        Intervals.card_toFinset ht] at hcases
      omega

/-- `threePockerType` agrees with the grammar on triples with a gap. -/
lemma agrees_threePockerType_gap (hs : s.SortedLT) (hd : d.SortedLT) (ht : t.SortedLT)
    (hlen : 2 ≤ t.length) (hmax : ∀ v ∈ t, v ≤ value2)
    (hc : ¬ (judgeTableContinuous t 2).1 = true)
    (hn : n = s.length + 2 * d.length + 3 * t.length) :
    Agrees (threePockerType ⟨s, d, t, [], n⟩) (plays s d t []) n := by
  have h3 : ¬ n = 3 := by omega
  have h1 : ¬ (t.length = 1 ∧ 3 < n) := by omega
  simp only [threePockerType, h3, h1, hc, if_false, Bool.false_eq_true]
  split_ifs with hfour
  · obtain ⟨rfl, h4, a, w, ha, hw, hT, hval⟩ :=
      exists_insert_of_judgeFourThreeScenes ht hmax hc hfour
    obtain rfl : s = [] := List.length_eq_zero_iff.mp (by omega)
    obtain rfl : d = [] := List.length_eq_zero_iff.mp (by omega)
    apply agrees_found
    rw [hval]
    simpa [plays, hT] using Shape.aircraftThree a w ha hw
  · rw [agrees_notFound_iff]
    rintro ⟨type, weight, h⟩
    obtain hone | ⟨a, b, hab, -, hT, -⟩ | ⟨a, w, ha, hw, hs0, hd0, hT⟩ :=
      h.three_cases (by rw [Intervals.card_toFinset ht]; omega)
    · rw [Intervals.card_toFinset ht] at hone
      omega
    · apply hc
      have hne : t ≠ [] := by
        rintro rfl
        simp at hlen
      exact (continuous_iff_Icc ht hne 2).mpr ⟨a, b, by omega, hT⟩
    · apply hfour
      have h4 := congrArg Finset.card hT
      rw [Finset.card_insert_of_notMem hw, Nat.card_Icc, Intervals.card_toFinset ht] at h4
      rw [Intervals.card_toFinset hs] at hs0
      rw [Intervals.card_toFinset hd] at hd0
      exact judgeFourThreeScenes_of_insert ht (by omega) ha hw hT hc

/-- `threePockerType` agrees with the grammar, but for the triples of queen, king, ace and
two.

**Proof sketch.** One triple is decided by the numbers of the other ranks. Triples in a row are a
sequence or an aircraft unless the two is among them; then only the four triples that end at the
two form a play. Triples with a gap form a play exactly when they are three in a row and a
fourth, and the gap is then where the code looks for it. -/
lemma agrees_threePockerType_iff (hs : s.SortedLT) (hd : d.SortedLT) (ht : t.SortedLT)
    (hne : t ≠ []) (hmax : ∀ v ∈ t, v ≤ value2)
    (hn : n = s.length + 2 * d.length + 3 * t.length) :
    Agrees (threePockerType ⟨s, d, t, [], n⟩) (plays s d t []) n ↔
      ¬ (s = [] ∧ d = [] ∧ t.toFinset = Finset.Icc (value1 - 2) value2) := by
  have hpos : 0 < t.length := List.length_pos_iff.mpr hne
  by_cases h1 : t.length = 1
  · refine iff_of_true (agrees_threePockerType_one hs hd h1 hn) ?_
    rintro ⟨-, -, hT⟩
    have := congrArg Finset.card hT
    rw [Intervals.card_toFinset ht, h1] at this
    simp [value1, value2] at this
  by_cases hc : (judgeTableContinuous t 2).1 = true
  · exact agrees_threePockerType_row hs hd ht (by omega) hmax hc hn
  · refine iff_of_true (agrees_threePockerType_gap hs hd ht (by omega) hmax hc hn) ?_
    rintro ⟨-, -, hT⟩
    exact hc ((continuous_iff_Icc ht hne 2).mpr ⟨_, _, by simp [value1, value2], hT⟩)

/-! ### Pairs -/

/-- The plays whose highest number is two. -/
lemma Shape.two_cases {S D T F : Finset ℕ} {type : PockerType} {weight : ℕ}
    (h : Shape S D T F type weight) (hT : T = ∅) (hF : F = ∅) (hD : D.card ≠ 0) :
    S.card = 0 ∧ (D.card = 1 ∨ ∃ a b, a + 2 ≤ b ∧ b ≤ value1 ∧ D = Finset.Icc a b) := by
  cases h
  case double => simp
  case doubleSequential a hab hb => exact ⟨by simp, .inr ⟨a, weight, hab, hb, rfl⟩⟩
  case aircraftDouble a hab hb hw =>
    rw [Finset.Icc_eq_empty_iff] at hT
    omega
  case threeanddouble => simp at hT
  case bombDouble => simp at hF
  case bombDoubles => simp at hF
  all_goals exact absurd Finset.card_empty hD

/-- `twoPockerType` agrees with the grammar, but for pairs that are not consecutive. -/
lemma agrees_twoPockerType_iff (hs : s.SortedLT) (hd : d.SortedLT) (hne : d ≠ [])
    (hmax : ∀ v ∈ d, v ≤ value2) (hn : n = s.length + 2 * d.length) :
    Agrees (twoPockerType ⟨s, d, [], [], n⟩) (plays s d [] []) n ↔
      ¬ (s = [] ∧ 3 ≤ d.toFinset.card ∧ value2 ∉ d.toFinset ∧
        ¬ ∃ a b, d.toFinset = Finset.Icc a b) := by
  have hpos : 0 < d.length := List.length_pos_iff.mpr hne
  have hcard := Intervals.card_toFinset hd
  simp only [twoPockerType]
  split_ifs with h2 hseq
  · obtain ⟨v, rfl⟩ := List.length_eq_one_iff.mp (show d.length = 1 by omega)
    obtain rfl : s = [] := List.length_eq_zero_iff.mp (by simp at hn; omega)
    refine iff_of_true (agrees_found ?_) (by simp)
    simpa [plays, lastValue] using Shape.double v
  · obtain ⟨hlen, hsplit, h3⟩ := hseq
    obtain rfl : s = [] := List.length_eq_zero_iff.mp (by omega)
    have htwo := value2_notMem_of_not_hasSplitCards (by simpa using hsplit)
    constructor
    · rintro hagree ⟨-, -, -, hrow⟩
      obtain ⟨-, h1 | ⟨a, b, -, -, hD⟩⟩ := (hagree.plays rfl).two_cases rfl rfl (by omega)
      · omega
      · exact hrow ⟨a, b, hD⟩
    · intro hnot
      have hrow : ∃ a b, d.toFinset = Finset.Icc a b := by
        by_contra hrow
        exact hnot ⟨rfl, by omega, htwo, hrow⟩
      obtain ⟨a, b, hD⟩ := hrow
      have hlen' : d.length = b + 1 - a := by rw [← hcard, hD, Nat.card_Icc]
      have hb := le_value1_of_Icc (by omega) hD hmax htwo
      rw [lastValue_of_Icc hd (by omega) hD]
      apply agrees_found
      simpa [plays, hD] using Shape.doubleSequential a b (by omega) hb
  · refine iff_of_true (agrees_notFound_iff.mpr ?_) ?_
    · rintro ⟨type, weight, h⟩
      obtain ⟨hs0, h1 | ⟨a, b, hab, hb, hD⟩⟩ := h.two_cases rfl rfl (by omega)
      · rw [Intervals.card_toFinset hs] at hs0
        omega
      · rw [Intervals.card_toFinset hs] at hs0
        apply hseq
        rw [hD, Nat.card_Icc] at hcard
        refine ⟨by omega, ?_, by omega⟩
        simp only [Bool.not_eq_true', Bool.eq_false_iff]
        intro hsplit
        obtain ⟨v, hv, hmem⟩ := (hasSplitCards_iff d _).mp hsplit
        obtain rfl : v = value2 := by simpa using hv
        rw [hD, Finset.mem_Icc] at hmem
        simp only [value1, value2] at hb hmem
        omega
    · rintro ⟨rfl, h3, htwo, -⟩
      apply hseq
      refine ⟨by simp at hn; omega, ?_, by omega⟩
      simp only [Bool.not_eq_true', Bool.eq_false_iff]
      intro hsplit
      obtain ⟨v, hv, hmem⟩ := (hasSplitCards_iff d _).mp hsplit
      obtain rfl : v = value2 := by simpa using hv
      exact htwo hmem

/-! ### Single cards -/

/-- The plays of single cards. -/
lemma Shape.one_cases {S D T F : Finset ℕ} {type : PockerType} {weight : ℕ}
    (h : Shape S D T F type weight) (hD : D = ∅) (hT : T = ∅) (hF : F = ∅) :
    S.card = 1 ∨ S = {valueBlack, valueRed} ∨
      ∃ a b, a + 4 ≤ b ∧ b ≤ value1 ∧ S = Finset.Icc a b := by
  cases h
  case rocket => exact .inr (.inl rfl)
  case single => exact .inl (by simp)
  case threeandsingle => exact .inl (by simp)
  case singleSequential a hab hb => exact .inr (.inr ⟨a, weight, hab, hb, rfl⟩)
  case doubleSequential a hab hb =>
    rw [Finset.Icc_eq_empty_iff] at hD
    omega
  case threeSequential a hab hb =>
    rw [Finset.Icc_eq_empty_iff] at hT
    omega
  case aircraftSingle a hab hb hw =>
    rw [Finset.Icc_eq_empty_iff] at hT
    omega
  case aircraftDouble a hab hb hw =>
    rw [Finset.Icc_eq_empty_iff] at hT
    omega
  all_goals first
    | exact absurd hF (Finset.singleton_ne_empty _)
    | exact absurd hT (Finset.singleton_ne_empty _)
    | exact absurd hT (Finset.insert_ne_empty _ _)
    | exact absurd hD (Finset.singleton_ne_empty _)

/-- `onePockerType` agrees with the grammar, but for rows of three and four cards. -/
lemma agrees_onePockerType_iff (hs : s.SortedLT) (hne : s ≠ []) (hmax : ∀ v ∈ s, v ≤ valueRed)
    (hn : n = s.length) :
    Agrees (onePockerType ⟨s, [], [], [], n⟩) (plays s [] [] []) n ↔
      ¬ ∃ a b, a + 2 ≤ b ∧ b ≤ a + 3 ∧ b ≤ value1 ∧ s.toFinset = Finset.Icc a b := by
  have hcard := Intervals.card_toFinset hs
  have hlong : ∀ {a b}, a + 2 ≤ b → s.toFinset = Finset.Icc a b → 3 ≤ s.length := by
    intro a b hab hS
    rw [← hcard, hS, Nat.card_Icc]
    omega
  have hrocket : s.toFinset = {valueBlack, valueRed} → s = [valueBlack, valueRed] := by
    intro hS
    apply Intervals.eq_of_toFinset hs
    · rw [List.sortedLT_iff_pairwise]
      simp [valueBlack, valueRed]
    · simpa using hS
  by_cases h1 : n = 1
  · obtain ⟨v, rfl⟩ := List.length_eq_one_iff.mp (hn.symm.trans h1)
    refine iff_of_true ?_ ?_
    · subst h1
      apply agrees_found
      simpa [plays, lastValue] using Shape.single v
    · rintro ⟨a, b, hab, -, -, hS⟩
      have := hlong hab hS
      omega
  by_cases h2 : n = 2
  · refine iff_of_true ?_ ?_
    · by_cases hr : s = [valueBlack, valueRed]
      · simp only [onePockerType, h2, hr, if_true]
        apply agrees_found
        simpa [plays, lastValue] using Shape.rocket
      · simp only [onePockerType, h2, hr, if_true, if_false, OfNat.ofNat_ne_one]
        rw [agrees_notFound_iff]
        rintro ⟨type, weight, h⟩
        obtain hone | hS | ⟨a, b, hab, -, hS⟩ := h.one_cases rfl rfl rfl
        · omega
        · exact hr (hrocket hS)
        · have := hlong (by omega) hS
          omega
    · rintro ⟨a, b, hab, -, -, hS⟩
      have := hlong hab hS
      omega
  have hpos : 0 < s.length := List.length_pos_iff.mpr hne
  simp only [onePockerType, h1, h2, if_false]
  split_ifs with hc hsplit
  · -- a row up to the ace is found, whatever its length
    obtain ⟨a, b, hab, hS⟩ := (continuous_iff_Icc hs hne 5).mp hc
    have hlen : s.length = b + 1 - a := by rw [← hcard, hS, Nat.card_Icc]
    have hb : b ≤ value1 := by
      have hmem : b ∈ s.toFinset := by rw [hS]; exact Finset.right_mem_Icc.mpr hab
      have hle := hmax b (List.mem_toFinset.mp hmem)
      have hb2 : b ≠ value2 ∧ b ≠ valueBlack ∧ b ≠ valueRed := by
        refine ⟨?_, ?_, ?_⟩ <;>
        · rintro rfl
          simp only [Bool.not_eq_true', Bool.eq_false_iff] at hsplit
          exact hsplit ((hasSplitCards_iff s _).mpr ⟨_, by simp, hmem⟩)
      simp only [value1, value2, valueBlack, valueRed] at *
      omega
    rw [lastValue_of_Icc hs hab hS]
    constructor
    · rintro hagree ⟨a', b', hab', hba', -, hS'⟩
      have hlen' : s.length = b' + 1 - a' := by rw [← hcard, hS', Nat.card_Icc]
      obtain hone | hS'' | ⟨a'', b'', hab'', -, hS''⟩ :=
        (hagree.plays rfl).one_cases rfl rfl rfl
      · omega
      · have := congrArg List.length (hrocket hS'')
        simp at this
        omega
      · rw [hS'', Nat.card_Icc] at hcard
        omega
    · intro hshort
      apply agrees_found
      have h5 : a + 4 ≤ b := by
        by_contra h5
        exact hshort ⟨a, b, by omega, by omega, hb, hS⟩
      simpa [plays, hS] using Shape.singleSequential a b h5 hb
  · -- a row that reaches the two or a joker is not found and forms no play
    simp only [Bool.not_eq_true', Bool.not_eq_false] at hsplit
    obtain ⟨v, hv, hmem⟩ := (hasSplitCards_iff s _).mp hsplit
    have hv' : value1 < v := by
      simp only [List.mem_cons, List.not_mem_nil, or_false] at hv
      obtain rfl | rfl | rfl := hv <;> decide
    refine iff_of_true (agrees_notFound_iff.mpr ?_) ?_
    · rintro ⟨type, weight, h⟩
      obtain hone | hS | ⟨a, b, hab, hb, hS⟩ := h.one_cases rfl rfl rfl
      · omega
      · have := congrArg List.length (hrocket hS)
        simp at this
        omega
      · rw [hS, Finset.mem_Icc] at hmem
        omega
    · rintro ⟨a, b, -, -, hb, hS⟩
      rw [hS, Finset.mem_Icc] at hmem
      omega
  · -- cards that are not in a row form no play
    have hrow : ¬ ∃ a b, a ≤ b ∧ s.toFinset = Finset.Icc a b := by
      rwa [← continuous_iff_Icc hs hne 5]
    refine iff_of_true (agrees_notFound_iff.mpr ?_) ?_
    · rintro ⟨type, weight, h⟩
      obtain hone | hS | ⟨a, b, hab, hb, hS⟩ := h.one_cases rfl rfl rfl
      · omega
      · have := congrArg List.length (hrocket hS)
        simp at this
        omega
      · exact hrow ⟨a, b, by omega, hS⟩
    · rintro ⟨a, b, hab, -, -, hS⟩
      exact hrow ⟨a, b, by omega, hS⟩

/-! ### The whole classification -/

lemma Valid.le_valueRed (h : Valid cards) {k v : ℕ} (hv : v ∈ kinds cards k) : v ≤ valueRed := by
  rw [← List.mem_toFinset, toFinset_kinds, ranks, Finset.mem_filter, List.mem_toFinset] at hv
  exact (h.value v hv.1).2

/-- Only the jokers are above the two, and no joker comes twice. -/
lemma Valid.le_value2 (h : Valid cards) {k v : ℕ} (hk : 2 ≤ k) (hv : v ∈ kinds cards k) :
    v ≤ value2 := by
  have hle := h.le_valueRed hv
  rw [← List.mem_toFinset, toFinset_kinds, ranks, Finset.mem_filter, List.mem_toFinset] at hv
  have hblack : v ≠ valueBlack := by
    rintro rfl
    have := h.black
    omega
  have hred : v ≠ valueRed := by
    rintro rfl
    have := h.red
    omega
  simp only [value2, valueBlack, valueRed] at *
  omega

/-- What it means that the result is the one of the grammar. -/
lemma right_iff_agrees {r : RetResult} (h : matchPockerType (some cards) = some r) :
    Right cards ↔ Agrees r
      (plays (kinds cards 1) (kinds cards 2) (kinds cards 3) (kinds cards 4)) cards.length := by
  simp only [Right, Agrees, plays, toFinset_kinds, Forms, h, Option.some.injEq, exists_eq_left']

lemma ranks_eq_empty_iff {k : ℕ} : ranks cards k = ∅ ↔ kinds cards k = [] := by
  rw [← toFinset_kinds, List.toFinset_eq_empty_iff]

/-- The code agrees with the grammar on exactly the plays that are none of these: rows of three
or four single cards, three or more pairs that are not consecutive, and the triples of queen,
king, ace and two.

**Proof sketch.** The code dispatches on the highest number of cards of one rank. Four of a kind
is decided by the numbers of the other ranks; triples, pairs and single cards by whether their
ranks form an interval, which is what the loop of `judgeTableContinuous` computes. -/
theorem matchPockerType_right_iff (h : Valid cards) :
    Right cards ↔ ¬ ShortStraight cards ∧ ¬ LoosePairs cards ∧ ¬ TriplesToTwo cards := by
  have hmatch := matchPockerType_eq h.four
  have hlen := length_eq_kinds h.four
  have hsort := sortedLT_kinds cards
  by_cases hf : kinds cards 4 = []
  swap
  · have hjudge : matchPockerType (some cards) = some (bombPockerType
        ⟨kinds cards 1, kinds cards 2, kinds cards 3, kinds cards 4, cards.length⟩) := by
      simp [hmatch, judgePockerType, List.length_pos_iff.mpr hf]
    rw [right_iff_agrees hjudge]
    refine iff_of_true (agrees_bombPockerType (hsort 1) (hsort 2) (hsort 3) (hsort 4) hf hlen) ?_
    simp [ShortStraight, LoosePairs, TriplesToTwo, ranks_eq_empty_iff, hf]
  by_cases ht : kinds cards 3 = []
  swap
  · have hjudge : matchPockerType (some cards) = some (threePockerType
        ⟨kinds cards 1, kinds cards 2, kinds cards 3, [], cards.length⟩) := by
      simp [hmatch, judgePockerType, hf, List.length_pos_iff.mpr ht]
    rw [hf, List.length_nil] at hlen
    rw [right_iff_agrees hjudge, hf, agrees_threePockerType_iff (hsort 1) (hsort 2) (hsort 3) ht
      (fun v hv => h.le_value2 (by norm_num) hv) (by omega)]
    simp [ShortStraight, LoosePairs, TriplesToTwo, ranks_eq_empty_iff, hf, ht]
  by_cases hd : kinds cards 2 = []
  swap
  · have hjudge : matchPockerType (some cards) = some (twoPockerType
        ⟨kinds cards 1, kinds cards 2, [], [], cards.length⟩) := by
      simp [hmatch, judgePockerType, hf, ht, List.length_pos_iff.mpr hd]
    rw [hf, ht, List.length_nil] at hlen
    rw [right_iff_agrees hjudge, hf, ht, agrees_twoPockerType_iff (hsort 1) (hsort 2) hd
      (fun v hv => h.le_value2 (by norm_num) hv) (by omega)]
    simp [ShortStraight, LoosePairs, TriplesToTwo, ranks_eq_empty_iff, hf, ht, hd]
  have hs : kinds cards 1 ≠ [] := by
    intro hs
    rw [hf, ht, hd, hs] at hlen
    exact h.ne_nil (List.length_eq_zero_iff.mp hlen)
  have hjudge : matchPockerType (some cards) = some (onePockerType
      ⟨kinds cards 1, [], [], [], cards.length⟩) := by
    simp [hmatch, judgePockerType, hf, ht, hd, List.length_pos_iff.mpr hs]
  rw [hf, ht, hd, List.length_nil] at hlen
  rw [right_iff_agrees hjudge, hf, ht, hd, agrees_onePockerType_iff (hsort 1) hs
    (fun v hv => h.le_valueRed hv) (by omega)]
  simp [ShortStraight, LoosePairs, TriplesToTwo, ranks_eq_empty_iff, hf, ht, hd, hs]

/-- Distinct values without the jokers' doubles form a valid list. -/
lemma Valid.of_nodup (hne : cards ≠ []) (hvalue : ∀ v ∈ cards, 1 ≤ v ∧ v ≤ valueRed)
    (hnodup : cards.Nodup) : Valid cards := by
  have hcount := List.nodup_iff_count_le_one.mp hnodup
  exact ⟨hne, hvalue, fun v => (hcount v).trans (by norm_num), hcount _, hcount _⟩

/-- A straight of five cards is classified as the grammar says. -/
theorem matchPockerType_right_straight : Valid [3, 1, 2, 5, 4] ∧ Right [3, 1, 2, 5, 4] := by
  have hvalid : Valid [3, 1, 2, 5, 4] :=
    .of_nodup (by decide) (by decide) (by decide)
  refine ⟨hvalid, (matchPockerType_right_iff hvalid).mpr ⟨?_, ?_, ?_⟩⟩
  · rintro ⟨a, b, hab, hba, -, hS, -⟩
    have h5 := congrArg Finset.card hS
    rw [Nat.card_Icc, show (ranks [3, 1, 2, 5, 4] 1).card = 5 by decide] at h5
    omega
  · rintro ⟨hs, -⟩
    exact absurd hs (by decide)
  · rintro ⟨hs, -⟩
    exact absurd hs (by decide)

/-- The cards three, four and five are accepted as a straight, although the grammar has no
straight of fewer than five cards. -/
theorem matchPockerType_accepts_three :
    Valid [1, 2, 3] ∧
      matchPockerType (some [1, 2, 3]) = some ⟨true, .singleSequential, 3, 3, mainWeightBase⟩ ∧
      (¬ ∃ type weight, Forms [1, 2, 3] type weight) ∧ ¬ Right [1, 2, 3] := by
  have hform : ¬ ∃ type weight, Forms [1, 2, 3] type weight := by
    rintro ⟨type, weight, h⟩
    have h3 : (ranks [1, 2, 3] 1).card = 3 := by decide
    obtain h1 | hS | ⟨a, b, hab, -, hS⟩ := h.one_cases (by decide) (by decide) (by decide)
    · omega
    · exact absurd hS (by decide)
    · rw [hS, Nat.card_Icc] at h3
      omega
  refine ⟨.of_nodup (by decide) (by decide) (by decide), by decide, hform, ?_⟩
  rintro ⟨r, hr, hfind, -⟩
  obtain rfl : ⟨true, .singleSequential, 3, 3, mainWeightBase⟩ = r := by
    have : matchPockerType (some [1, 2, 3]) =
        some ⟨true, .singleSequential, 3, 3, mainWeightBase⟩ := by decide
    exact Option.some.inj (this.symm.trans hr)
  exact hform (hfind.mp rfl)

end Ddz3
