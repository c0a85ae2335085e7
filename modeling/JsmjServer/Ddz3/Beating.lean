import JsmjServer.Ddz3.Grammar

set_option relaxedAutoImplicit false
set_option autoImplicit false

/-!
# Which play beats which

`getMaxPockerType` of `ddz3/CardAlgorithm.lua` compares the results of two plays: first by their
main weights, then, for plays of one type and length, by their weights.

## Main definitions

* `Ddz3.Play` — cards in which `matchPockerType` finds a play.
* `Ddz3.Beats` — the first play beats the second.

## Main results

* `Ddz3.Play.rocket_iff`, `Ddz3.Play.bomb_iff` — the cards of the rocket and of the bombs.
* `Ddz3.beats_strictOrder` — beating is a strict order, with the rocket and the bombs on top.

## Design

A result carries no card, so what the order needs of it is stated once for the result of each of
the four dispatch functions (`Fits`): the main weight is the one of its type, and its length is
the number of cards.
-/

namespace Ddz3

/-! ### Plays -/

/-- Cards in which `matchPockerType` finds a play, with the result. -/
structure Play where
  cards : List ℕ
  result : RetResult
  matched : matchPockerType (some cards) = some result
  found : result.bFind = true

/-- `getMaxPockerType` can compare the plays, and the first is the higher one. -/
def Beats (a b : Play) : Prop :=
  (getMaxPockerType a.result b.result).1 = true ∧ 0 < (getMaxPockerType a.result b.result).2

instance (a b : Play) : Decidable (Beats a b) := inferInstanceAs (Decidable (_ ∧ _))

/-- The order of two results, when both are found. -/
lemma beats_iff (a b : Play) : Beats a b ↔
    b.result.mainWeight < a.result.mainWeight ∨
      a.result.mainWeight = b.result.mainWeight ∧ a.result.length = b.result.length ∧
        a.result.type = b.result.type ∧ b.result.weight < a.result.weight := by
  unfold Beats getMaxPockerType
  simp only [a.found, b.found, Bool.not_true, Bool.or_self, Bool.false_eq_true, if_false]
  by_cases hmain : a.result.mainWeight = b.result.mainWeight
  · by_cases hsame : a.result.length = b.result.length ∧ a.result.type = b.result.type ∧
        a.result.weight ≠ b.result.weight
    · rw [if_neg (by simpa using hmain), if_pos hsame]
      obtain ⟨hlength, htype, -⟩ := hsame
      simp only [true_and, hmain, hlength, htype, lt_irrefl, false_or]
      omega
    · rw [if_neg (by simpa using hmain), if_neg hsame]
      simp only [Bool.false_eq_true, false_and, false_iff, hmain, lt_irrefl, false_or, true_and]
      rintro ⟨hlength, htype, hweight⟩
      exact hsame ⟨hlength, htype, hweight.ne'⟩
  · rw [if_pos hmain]
    simp only [true_and, hmain, false_and, or_false]
    omega

/-! ### The result of a play -/

/-- `typeMainWeight` of a type. -/
def PockerType.mainWeight : PockerType → ℕ
  | .rocket => mainWeightRocket
  | .bomb => mainWeightLarge
  | .single | .double | .threecards | .threeandsingle | .singleSequential | .doubleSequential
  | .threeSequential | .aircraftSingle | .bombTwo | .noneType => mainWeightBase

/-- What is the same in every result that is found from the values `res` of the cards: the main
weight is that of the type, the length is that of the cards. The rocket is the two jokers, and a
bomb is one value four times. -/
structure Fits (res : PockerTypeRes) (r : RetResult) : Prop where
  mainWeight : r.mainWeight = r.type.mainWeight
  length : r.length = res.length
  rocket : r.type = .rocket ↔ res.single = [valueBlack, valueRed] ∧ res.length = 2
  bomb : r.type = .bomb ↔ res.four ≠ [] ∧ res.length = 4

/-- A result of neither the rocket nor a bomb. -/
lemma fits_base {res : PockerTypeRes} {type : PockerType} {weight : ℕ}
    (hrocket : ¬(res.single = [valueBlack, valueRed] ∧ res.length = 2))
    (hbomb : ¬(res.four ≠ [] ∧ res.length = 4)) (htype : type ≠ .rocket) (htype' : type ≠ .bomb) :
    Fits res ⟨true, type, weight, res.length, mainWeightBase⟩ := by
  refine ⟨?_, rfl, iff_of_false htype hrocket, iff_of_false htype' hbomb⟩
  cases type <;> first | rfl | contradiction

section Results

variable {res : PockerTypeRes} {r : RetResult}

/-- The number of the cards, by the values that come once, twice, three and four times. -/
def Totals (res : PockerTypeRes) : Prop :=
  res.length = res.single.length + 2 * res.double.length + 3 * res.three.length +
    4 * res.four.length

lemma fits_bombPockerType (htotal : Totals res) (hfour : 0 < res.four.length)
    (hfound : (bombPockerType res).bFind = true) : Fits res (bombPockerType res) := by
  unfold Totals at htotal
  have hrocket : ¬(res.single = [valueBlack, valueRed] ∧ res.length = 2) := by omega
  unfold bombPockerType at hfound ⊢
  split
  · rename_i htwo
    refine fits_base hrocket ?_ (by decide) (by decide)
    omega
  · split
    · rename_i hfour'
      exact ⟨rfl, rfl, iff_of_false nofun hrocket,
        iff_of_true rfl ⟨List.length_pos_iff.mp hfour, hfour'⟩⟩
    · rename_i h h'
      rw [if_neg h, if_neg h'] at hfound
      exact absurd hfound (by decide)

lemma fits_threePockerType (htotal : Totals res) (hfour : res.four = [])
    (hthree : 0 < res.three.length) (hfound : (threePockerType res).bFind = true) :
    Fits res (threePockerType res) := by
  unfold Totals at htotal
  have hrocket : ¬(res.single = [valueBlack, valueRed] ∧ res.length = 2) := by omega
  have hbomb : ¬(res.four ≠ [] ∧ res.length = 4) := fun h => h.1 hfour
  unfold threePockerType at hfound ⊢
  dsimp only at hfound ⊢
  split_ifs at hfound ⊢
  all_goals first
    | exact fits_base hrocket hbomb (by decide) (by decide)
    | exact absurd hfound (by decide)

lemma fits_twoPockerType (htotal : Totals res) (hfour : res.four = [])
    (hdouble : 0 < res.double.length) (hfound : (twoPockerType res).bFind = true) :
    Fits res (twoPockerType res) := by
  unfold Totals at htotal
  have hrocket : ¬(res.single = [valueBlack, valueRed] ∧ res.length = 2) := by
    rintro ⟨hsingle, hlength⟩
    rw [hsingle, List.length_cons] at htotal
    omega
  have hbomb : ¬(res.four ≠ [] ∧ res.length = 4) := fun h => h.1 hfour
  unfold twoPockerType at hfound ⊢
  dsimp only at hfound ⊢
  split_ifs at hfound ⊢
  all_goals first
    | exact fits_base hrocket hbomb (by decide) (by decide)
    | exact absurd hfound (by decide)

lemma fits_onePockerType (hfour : res.four = []) (hfound : (onePockerType res).bFind = true) :
    Fits res (onePockerType res) := by
  have hbomb : ¬(res.four ≠ [] ∧ res.length = 4) := fun h => h.1 hfour
  have hno : notFound.bFind ≠ true := by decide
  unfold onePockerType at hfound ⊢
  dsimp only at hfound ⊢
  split
  · rename_i hone
    exact fits_base (by omega) hbomb (by decide) (by decide)
  rename_i hone
  rw [if_neg hone] at hfound
  split
  · -- the two jokers, or nothing
    rename_i htwo
    rw [if_pos htwo] at hfound
    split
    · rename_i hjokers
      exact ⟨rfl, rfl, iff_of_true rfl ⟨hjokers, htwo⟩, iff_of_false nofun hbomb⟩
    · rename_i hjokers
      exact absurd (by rwa [if_neg hjokers] at hfound) hno
  · rename_i htwo
    rw [if_neg htwo] at hfound
    have hrocket : ¬(res.single = [valueBlack, valueRed] ∧ res.length = 2) := fun h => htwo h.2
    split_ifs at hfound ⊢
    all_goals first
      | exact fits_base hrocket hbomb (by decide) (by decide)
      | exact absurd hfound hno

/-- Every result that is found fits the values of the cards. -/
lemma fits_judgePockerType (htotal : Totals res) (h : judgePockerType res = some r)
    (hfound : r.bFind = true) : Fits res r := by
  unfold judgePockerType at h
  split at h
  · rename_i hfour
    obtain rfl := Option.some.inj h
    exact fits_bombPockerType htotal hfour hfound
  rename_i hfour
  have hfour : res.four = [] := List.length_eq_zero_iff.mp (by omega)
  split at h
  · rename_i hthree
    obtain rfl := Option.some.inj h
    exact fits_threePockerType htotal hfour hthree hfound
  split at h
  · rename_i hdouble
    obtain rfl := Option.some.inj h
    exact fits_twoPockerType htotal hfour hdouble hfound
  split at h
  · obtain rfl := Option.some.inj h
    exact fits_onePockerType hfour hfound
  · cases h

end Results

/-- What `place` does not refuse: no value comes more than four times. -/
lemma number_of_place {l : List (ℕ × ℕ)} {res res' : PockerTypeRes} (h : place res l = some res') :
    ∀ p ∈ l, 1 ≤ p.2 ∧ p.2 ≤ 4 := by
  induction l generalizing res with
  | nil => simp
  | cons p l ih =>
    obtain ⟨value, number⟩ := p
    rw [place] at h
    intro q hq
    obtain rfl | hq := List.mem_cons.mp hq
    · dsimp only
      split_ifs at h <;> omega
    · split_ifs at h
      all_goals exact ih h q hq

namespace Play

variable (p : Play)

/-- No value comes more than four times in a play. -/
lemma count_le (v : ℕ) : p.cards.count v ≤ 4 := by
  by_cases hv : v ∈ p.cards
  swap
  · rw [List.count_eq_zero_of_not_mem hv]
    omega
  have hmatched := p.matched
  rw [matchPockerType] at hmatched
  cases hplace : place {} (sortValue p.cards) with
  | none =>
    rw [hplace] at hmatched
    have hfound := p.found
    rw [← Option.some.inj hmatched] at hfound
    exact absurd hfound (by decide)
  | some res =>
    have hmem : (v, p.cards.count v) ∈ sortValue p.cards :=
      List.mem_map.mpr ⟨v, mem_insertionSort_dedup.mpr hv, rfl⟩
    exact (number_of_place hplace _ hmem).2

/-- The values of the cards of a play. -/
def res : PockerTypeRes where
  single := kinds p.cards 1
  double := kinds p.cards 2
  three := kinds p.cards 3
  four := kinds p.cards 4
  length := p.cards.length

lemma fits : Fits p.res p.result := by
  refine fits_judgePockerType ?_ ?_ p.found
  · exact length_eq_kinds p.count_le
  · rw [res, ← matchPockerType_eq p.count_le, p.matched]

/-- The length of the result is the number of cards. -/
lemma length_eq : p.result.length = p.cards.length := p.fits.length

/-- The rocket is the two jokers. -/
lemma rocket_iff : p.result.type = .rocket ↔ p.cards.Perm [valueBlack, valueRed] := by
  rw [p.fits.rocket]
  constructor
  · rintro ⟨hsingle, hlength⟩
    have hsingle : kinds p.cards 1 = [valueBlack, valueRed] := hsingle
    have hlength : p.cards.length = 2 := hlength
    have hsub : [valueBlack, valueRed] ⊆ p.cards := by
      intro v hv
      rw [← hsingle] at hv
      exact mem_insertionSort_dedup.mp (List.mem_filter.mp hv).1
    have hsubperm := List.subperm_of_subset (by decide) hsub
    exact (hsubperm.perm_of_length_le (by rw [hlength]; rfl)).symm
  · intro hperm
    have hsingle : kinds p.cards 1 = kinds [valueBlack, valueRed] 1 := by
      apply Intervals.eq_of_toFinset (sortedLT_kinds _ _) (sortedLT_kinds _ _)
      simp only [toFinset_kinds, ranks, List.toFinset_eq_of_perm _ _ hperm, hperm.count_eq]
    exact ⟨hsingle, hperm.length_eq⟩

/-- A bomb is one value four times. -/
lemma bomb_iff : p.result.type = .bomb ↔ ∃ v, p.cards = List.replicate 4 v := by
  rw [p.fits.bomb]
  constructor
  · rintro ⟨hfour, hlength⟩
    have hlength : p.cards.length = 4 := hlength
    obtain ⟨v, hv⟩ := List.exists_mem_of_ne_nil _ hfour
    have hcount : p.cards.count v = p.cards.length := by
      rw [hlength]
      simpa using (List.mem_filter.mp hv).2
    refine ⟨v, List.eq_replicate_iff.mpr ⟨hlength, fun w hw => ?_⟩⟩
    exact (List.count_eq_length.mp hcount w hw).symm
  · rintro ⟨v, hv⟩
    have hmem : v ∈ kinds p.cards 4 := by
      rw [kinds, List.mem_filter, mem_insertionSort_dedup, hv]
      simp
    refine ⟨List.ne_nil_of_mem hmem, ?_⟩
    change p.cards.length = 4
    rw [hv, List.length_replicate]

end Play

/-! ### The order -/

lemma mainWeight_other {type : PockerType} (hrocket : type ≠ .rocket) (hbomb : type ≠ .bomb) :
    type.mainWeight = mainWeightBase := by
  cases type <;> first | rfl | contradiction

lemma mainWeight_lt_rocket {type : PockerType} (h : type ≠ .rocket) :
    type.mainWeight < mainWeightRocket := by
  cases type <;> first | decide | contradiction

/-- **Beating is a strict order**: it is irreflexive, asymmetric and transitive. The rocket beats
every other play, a bomb every play that is neither a bomb nor the rocket, and of two plays that
are neither, one beats the other only when they have the same type and number of cards.

**Proof sketch.** One play beats another when its main weight is higher, or when the main weights,
the lengths and the types are the same and its weight is higher (`beats_iff`), which is a
lexicographic order. The main weight is that of the type (`Play.fits`), so that it decides between
the rocket, the bombs and the rest, and never between two plays of the rest. -/
theorem beats_strictOrder :
    (∀ a, ¬ Beats a a) ∧
      (∀ a b, Beats a b → ¬ Beats b a) ∧
      (∀ a b c, Beats a b → Beats b c → Beats a c) ∧
      (∀ a b : Play, a.result.type = .rocket → b.result.type ≠ .rocket → Beats a b) ∧
      (∀ a b : Play, a.result.type = .bomb → b.result.type ≠ .bomb → b.result.type ≠ .rocket →
        Beats a b) ∧
      ∀ a b : Play, a.result.type ≠ .bomb → a.result.type ≠ .rocket → b.result.type ≠ .bomb →
        b.result.type ≠ .rocket → Beats a b ∨ Beats b a →
          a.result.type = b.result.type ∧ a.cards.length = b.cards.length := by
  refine ⟨fun a h => ?_, fun a b hab hba => ?_, fun a b c hab hbc => ?_, fun a b ha hb => ?_,
    fun a b ha hb hb' => ?_, fun a b ha ha' hb hb' h => ?_⟩
  · rw [beats_iff] at h
    omega
  · rw [beats_iff] at hab hba
    omega
  · rw [beats_iff] at hab hbc ⊢
    obtain hab | ⟨hmain, hlength, htype, hweight⟩ := hab
    · omega
    · obtain hbc | ⟨hmain', hlength', htype', hweight'⟩ := hbc
      · omega
      · exact .inr ⟨hmain.trans hmain', hlength.trans hlength', htype.trans htype',
          hweight'.trans hweight⟩
  · rw [beats_iff, a.fits.mainWeight, b.fits.mainWeight, ha]
    exact .inl (mainWeight_lt_rocket hb)
  · rw [beats_iff, a.fits.mainWeight, b.fits.mainWeight, ha, mainWeight_other hb' hb]
    exact .inl (by decide)
  · have hmain : a.result.mainWeight = b.result.mainWeight := by
      rw [a.fits.mainWeight, b.fits.mainWeight, mainWeight_other ha' ha, mainWeight_other hb' hb]
    rw [← a.length_eq, ← b.length_eq]
    rw [beats_iff, beats_iff] at h
    obtain (h | ⟨-, hlength, htype, -⟩) | (h | ⟨-, hlength, htype, -⟩) := h
    · omega
    · exact ⟨htype, hlength⟩
    · omega
    · exact ⟨htype.symm, hlength.symm⟩

/-- The two jokers. -/
def rocket : Play := ⟨[15, 14], _, rfl, rfl⟩

/-- Four sixes. -/
def sixes : Play := ⟨[4, 4, 4, 4], _, rfl, rfl⟩

/-- A pair of twos. -/
def twos : Play := ⟨[13, 13], _, rfl, rfl⟩

/-- The rocket beats the sixes, which beat the twos, and it beats the twos. -/
theorem rocket_beats_sixes : Beats rocket sixes ∧ Beats sixes twos ∧ Beats rocket twos := by
  obtain ⟨-, -, htrans, hrocket, hbomb, -⟩ := beats_strictOrder
  have hfirst : Beats rocket sixes := hrocket _ _ rfl (by decide)
  have hsecond : Beats sixes twos := hbomb _ _ rfl (by decide) (by decide)
  exact ⟨hfirst, hsecond, htrans _ _ _ hfirst hsecond⟩

end Ddz3
