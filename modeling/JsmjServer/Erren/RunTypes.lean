import JsmjServer.Erren.YaoTypes
import JsmjServer.Mahjong.JiangTou

set_option relaxedAutoImplicit false
set_option autoImplicit false

/-!
# Types of runs in mahjong for two

`isQingLong`, `isLaoShao`, `isSanBuGao` and `isSiBuGao` ask whether the tiles of some runs are in
the hand, `getTongCount` how often those of one run are. Whether the hand can be divided with these
runs is not asked, and the runs of the piles are not found. `isShuangLong` compares the counts of
the suit with a list that begins at another index.

## Main definitions

* `Erren.CountHuType.Contains` — some division of the hand, with the exposed runs, contains melds.
* `Erren.CountHuType.RunTypesRight` — the six tests give what they are named for.
* `Erren.CountHuType.accepts` — the recogniser on the hand without the melds that are not exposed.
* `Erren.CountHuType.RunCondition` — when the six tests are right.

## Main results

* `Erren.CountHuType.fits_iff` — the loop over counts asks for tiles of the hand.
* `Erren.CountHuType.contains_iff` — divisions with given melds, by the recogniser.
* `Erren.CountHuType.runTypes_right_iff` — when the six tests are right.
-/

namespace Erren

open Mahjong MJMath

/-! ### Runs of a type -/

/-- Tiles from an index on, with their counts. -/
def tilesFrom : ℕ → List ℕ → Multiset ℕ
  | _, [] => 0
  | i, c :: cs => Multiset.replicate c i + tilesFrom (i + 1) cs

/-- 123 456 789. -/
def qingLong : List (Multiset (Multiset ℕ)) := [{run 11, run 14, run 17}]

/-- 123 789. -/
def laoShao : List (Multiset (Multiset ℕ)) := [{run 11, run 17}]

/-- Three runs, each one tile up from the one before. -/
def sanBuGao : List (Multiset (Multiset ℕ)) :=
  (List.range' 11 5).map fun i => {run i, run (i + 1), run (i + 2)}

/-- Four runs, each one tile up from the one before. -/
def siBuGao : List (Multiset (Multiset ℕ)) :=
  (List.range' 11 4).map fun i => {run i, run (i + 1), run (i + 2), run (i + 3)}

/-- The runs of 123 123 55 789 789. -/
def shuangLong : Multiset (Multiset ℕ) := {run 11, run 11, run 17, run 17}

section TilesFrom

variable {i x : ℕ} {cs : List ℕ} {n : Multiset ℕ}

lemma le_of_mem_tilesFrom (h : x ∈ tilesFrom i cs) : i ≤ x := by
  induction cs generalizing i with
  | nil => exact absurd h (Multiset.notMem_zero x)
  | cons c cs ih =>
    rcases Multiset.mem_add.mp h with h | h
    · exact (Multiset.eq_of_mem_replicate h).ge
    · have := ih h
      omega

/-- Tiles of one kind and tiles of others. -/
lemma replicate_add_le_iff {s : Multiset ℕ} {c : ℕ} (hs : i ∉ s) :
    Multiset.replicate c i + s ≤ n ↔ c ≤ n.count i ∧ s ≤ n := by
  simp only [Multiset.le_iff_count, Multiset.count_add, Multiset.count_replicate]
  have hzero := Multiset.count_eq_zero.mpr hs
  constructor
  · intro h
    refine ⟨?_, fun x => le_trans (Nat.le_add_left _ _) (h x)⟩
    have := h i
    rwa [if_pos rfl, hzero, add_zero] at this
  · rintro ⟨hc, hle⟩ x
    by_cases hx : i = x
    · subst hx
      rwa [if_pos rfl, hzero, add_zero]
    · rw [if_neg hx, zero_add]
      exact hle x

/-- The inner loop of `isSiBuGao` and `isSanBuGao` asks for tiles of the hand. -/
lemma fits_iff {map : ℕ → ℕ} (hmap : ∀ j, i ≤ j → j < i + cs.length → map j = n.count j) :
    CountHuType.fits map i cs = true ↔ tilesFrom i cs ≤ n := by
  induction cs generalizing i with
  | nil => exact iff_of_true rfl (Multiset.zero_le n)
  | cons c cs ih =>
    have hnot : i ∉ tilesFrom (i + 1) cs := fun h => by
      have := le_of_mem_tilesFrom h
      omega
    rw [CountHuType.fits, Bool.and_eq_true, decide_eq_true_eq, tilesFrom,
      replicate_add_le_iff hnot, hmap i le_rfl (by simp), ih]
    intro j hj hlt
    exact hmap j (by omega) (by rw [List.length_cons]; omega)

lemma run_eq_tilesFrom (k : ℕ) : (Multiset.replicate k (run i)).sum = tilesFrom i [k, k, k] := by
  rw [Multiset.sum_replicate]
  ext x
  simp only [run, tilesFrom, Multiset.count_nsmul, Multiset.insert_eq_cons, Multiset.count_cons,
    Multiset.count_singleton, Multiset.count_add, Multiset.count_replicate, Multiset.count_zero]
  split_ifs <;> omega

end TilesFrom

/-! ### Divisions with a given pair -/

section Pair

variable {n p : Multiset ℕ} {bs : Multiset (Multiset ℕ)}

lemma melds_zero_iff : Melds n 0 ↔ ∃ ms : Multiset (Multiset ℕ), (∀ b ∈ ms, b ∈ melds) ∧
    n = ms.sum := by
  constructor
  · rintro ⟨W, ps, ms, hW, -, hk, -, hM, he⟩
    rw [Multiset.card_eq_zero.mp hW, add_zero, Multiset.card_eq_zero.mp hk, Multiset.sum_zero,
      zero_add] at he
    exact ⟨ms, hM, he⟩
  · rintro ⟨ms, hM, he⟩
    refine ⟨0, 0, ms, rfl, by simp, rfl, by simp, hM, ?_⟩
    rw [add_zero, Multiset.sum_zero, zero_add, he]

/-- Divisions with a given pair and given melds: these can be taken off, and the rest are melds. -/
lemma exists_division_pair_iff (hp : p ∈ pairs) (hbs : ∀ b ∈ bs, b ∈ melds) :
    (∃ ms, Division n p ms ∧ bs ≤ ms) ↔ p + bs.sum ≤ n ∧ Melds (n - (p + bs.sum)) 0 := by
  rw [melds_zero_iff]
  constructor
  · rintro ⟨ms, ⟨-, hms, rfl⟩, hle⟩
    obtain ⟨rest, rfl⟩ := Multiset.le_iff_exists_add.mp hle
    rw [Multiset.sum_add, ← add_assoc]
    refine ⟨Multiset.le_add_right _ _, rest, ?_, add_tsub_cancel_left _ _⟩
    exact fun b hb => hms b (Multiset.mem_add.mpr (Or.inr hb))
  · rintro ⟨hle, rest, hrest, he⟩
    refine ⟨bs + rest, ⟨hp, ?_, ?_⟩, Multiset.le_add_right _ _⟩
    · intro b hb
      rcases Multiset.mem_add.mp hb with hb | hb
      · exact hbs b hb
      · exact hrest b hb
    · rw [Multiset.sum_add, ← add_assoc, ← he, add_tsub_cancel_of_le hle]

end Pair

namespace CountHuType

/-! ### Divisions with the exposed runs -/

/-- The runs of the piles. -/
def exposedRuns (t : CountHuType) : Multiset (Multiset ℕ) :=
  ((t.player.pileList.filter fun pile => chiType.contains pile.operType).map fun pile =>
    (pileTiles pile : Multiset ℕ) : List (Multiset ℕ))

/-- Some division of the hand, together with the exposed runs, contains the melds. -/
def Contains (t : CountHuType) (bs : Multiset (Multiset ℕ)) : Prop :=
  ∃ p ms, Division t.hand p ms ∧ bs ≤ ms + t.exposedRuns

/-- Just so many runs of one kind are in some division: two or more, and no more in any; or none,
if no two are in any. -/
def TongIs (t : CountHuType) (k : ℕ) : Prop :=
  (k = 0 ∧ ∀ n i, 2 ≤ n → IsRunStart i → ¬t.Contains (Multiset.replicate n (run i))) ∨
    (2 ≤ k ∧ (∃ i, IsRunStart i ∧ t.Contains (Multiset.replicate k (run i))) ∧
      ∀ n i, IsRunStart i → t.Contains (Multiset.replicate n (run i)) → n ≤ k)

/-- The six tests give what they are named for. -/
structure RunTypesRight (t : CountHuType) : Prop where
  qingLong : t.isQingLong = true ↔ ∃ bs ∈ qingLong, t.Contains bs
  laoShao : t.isLaoShao = true ↔ ∃ bs ∈ laoShao, t.Contains bs
  sanBuGao : t.isSanBuGao = true ↔ ∃ bs ∈ sanBuGao, t.Contains bs
  siBuGao : t.isSiBuGao = true ↔ ∃ bs ∈ siBuGao, t.Contains bs
  shuangLong : t.isShuangLong = true ↔
    ∃ ms, Division t.hand {15, 15} ms ∧ shuangLong ≤ ms + t.exposedRuns
  tong : t.TongIs t.getTongCount

/-- The melds that are not exposed can be taken off the hand, and the recogniser accepts the rest of
it. -/
def accepts (t : CountHuType) (bs : Multiset (Multiset ℕ)) : Bool :=
  decide ((bs - t.exposedRuns).sum ≤ t.hand) &&
    MJMath.canHu fun i => (t.hand - (bs - t.exposedRuns).sum).count i

section Contains

variable {t : CountHuType} {bs : Multiset (Multiset ℕ)}

/-- Divisions with given melds, by the recogniser. -/
lemma contains_iff (ht : Dealt t) (hbs : ∀ b ∈ bs, b ∈ melds) :
    t.Contains bs ↔ t.accepts bs = true := by
  have hmelds : ∀ b ∈ bs - t.exposedRuns, b ∈ melds := fun b hb =>
    hbs b (Multiset.mem_of_le (Multiset.sub_le_self _ _) hb)
  have hcan : (MJMath.canHu fun i => (t.hand - (bs - t.exposedRuns).sum).count i) = true ↔
      Winning (t.hand - (bs - t.exposedRuns).sum) 0 := by
    refine canHu_iff_of_count (fun x hx => ?_) fun _ _ => rfl
    exact (ht.isErren x (Multiset.mem_of_le (Multiset.sub_le_self _ _) hx)).isTile
  rw [accepts, Bool.and_eq_true, decide_eq_true_eq, hcan, ← exists_division_iff hmelds, Contains]
  simp only [tsub_le_iff_right]

/-- A division with the pair of `Tiao5` and the runs of two dragons. -/
lemma shuangLong_iff : (∃ ms, Division t.hand {15, 15} ms ∧ shuangLong ≤ ms + t.exposedRuns) ↔
    {15, 15} + (shuangLong - t.exposedRuns).sum ≤ t.hand ∧
      Melds (t.hand - ({15, 15} + (shuangLong - t.exposedRuns).sum)) 0 := by
  have hmelds : ∀ b ∈ shuangLong - t.exposedRuns, b ∈ melds := by
    intro b hb
    have hb := Multiset.mem_of_le (Multiset.sub_le_self _ _) hb
    simp only [shuangLong, Multiset.insert_eq_cons, Multiset.mem_cons,
      Multiset.mem_singleton] at hb
    rcases hb with rfl | rfl | rfl | rfl
    all_goals exact run_mem_melds ⟨by decide, by decide, by decide⟩
  rw [← exists_division_pair_iff ⟨15, by decide, rfl⟩ hmelds]
  simp only [tsub_le_iff_right]

end Contains

/-! ### The tests -/

section Tests

variable {t : CountHuType}

/-- No pile is found to be a run. -/
lemma mapWithChi_eq (t : CountHuType) : t.mapWithChi = t.fullCountMap := by
  have hstep : ∀ (piles : List MJPile) (map : ℕ → ℕ), piles.foldl (fun map pile =>
      if (oper pile).any fun o => chiType.contains o then
        pile.cardList.foldl (fun map card => addAt map card 1) map
      else map) map = map := by
    intro piles map
    induction piles with
    | nil => rfl
    | cons pile piles ih => rw [List.foldl_cons, if_neg (by simp [oper]), ih]
  exact hstep _ _

/-- The loops ask for tiles of the hand. -/
lemma fits_mapWithChi (t : CountHuType) {i : ℕ} {cs : List ℕ} (h : i + cs.length ≤ 38) :
    fits t.mapWithChi i cs = true ↔ tilesFrom i cs ≤ t.hand := by
  refine fits_iff fun j _ hj => ?_
  rw [mapWithChi_eq]
  exact fullCountMap_eq t (by omega)

lemma isQingLong_iff : t.isQingLong = true ↔ ∃ bs ∈ qingLong, bs.sum ≤ t.hand := by
  have htiles : ({run 11, run 14, run 17} : Multiset (Multiset ℕ)).sum =
      tilesFrom 11 [1, 1, 1, 1, 1, 1, 1, 1, 1] := by decide
  rw [qingLong]
  simp only [List.mem_singleton, exists_eq_left]
  rw [htiles, ← fits_mapWithChi t (by decide)]
  rfl

lemma isLaoShao_iff : t.isLaoShao = true ↔ ∃ bs ∈ laoShao, bs.sum ≤ t.hand := by
  have htiles : ({run 11, run 17} : Multiset (Multiset ℕ)).sum =
      tilesFrom 11 [1, 1, 1, 0, 0, 0, 1, 1, 1] := by decide
  rw [laoShao]
  simp only [List.mem_singleton, exists_eq_left]
  rw [htiles, ← fits_mapWithChi t (by decide)]
  simp [isLaoShao, fits, Nat.one_le_iff_ne_zero]

/-- The outer loops over the first tile of the lowest run. -/
lemma any_fits_iff (t : CountHuType) {starts counts : List ℕ} {runsAt : ℕ → Multiset (Multiset ℕ)}
    (htiles : ∀ i ∈ starts, (runsAt i).sum = tilesFrom i counts)
    (hlen : ∀ i ∈ starts, i + counts.length ≤ 38) :
    (starts.any fun i => fits t.mapWithChi i counts) = true ↔
      ∃ bs ∈ starts.map runsAt, bs.sum ≤ t.hand := by
  rw [List.any_eq_true]
  simp only [List.mem_map, exists_exists_and_eq_and]
  refine exists_congr fun i => and_congr_right fun hi => ?_
  rw [htiles i hi, fits_mapWithChi t (hlen i hi)]

lemma isSanBuGao_iff : t.isSanBuGao = true ↔ ∃ bs ∈ sanBuGao, bs.sum ≤ t.hand :=
  any_fits_iff t (by decide) (by decide)

lemma isSiBuGao_iff : t.isSiBuGao = true ↔ ∃ bs ∈ siBuGao, bs.sum ≤ t.hand :=
  any_fits_iff t (by decide) (by decide)

/-- The list of counts has no entry from the index `11` on. -/
lemma isShuangLong_eq_false : t.isShuangLong = false := by
  rw [isShuangLong, List.all_eq_false]
  exact ⟨11, by decide, by simp⟩

/-- The first run that is twice in the hand. -/
structure FirstTong (t : CountHuType) (i : ℕ) : Prop where
  mem : 11 ≤ i ∧ i ≤ 17
  twice : (Multiset.replicate 2 (run i)).sum ≤ t.hand
  least : ∀ j, 11 ≤ j → j < i → ¬(Multiset.replicate 2 (run j)).sum ≤ t.hand

lemma FirstTong.unique {i j : ℕ} (hi : FirstTong t i) (hj : FirstTong t j) : i = j := by
  rcases lt_trichotomy i j with h | h | h
  · exact absurd hi.twice (hj.least i hi.mem.1 h)
  · exact h
  · exact absurd hj.twice (hi.least j hj.mem.1 h)

/-- The number of copies of a run in the hand. -/
lemma runs_le_iff (t : CountHuType) {i : ℕ} (hi : i + 2 ≤ 37) (k : ℕ) :
    (Multiset.replicate k (run i)).sum ≤ t.hand ↔
      k ≤ min (t.mapWithChi i) (min (t.mapWithChi (i + 1)) (t.mapWithChi (i + 2))) := by
  have hlen : i + 3 ≤ 38 := by omega
  rw [run_eq_tilesFrom, ← fits_mapWithChi t hlen]
  simp [fits]

/-- What `getTongCount` returns: the copies of the first run that is twice in the hand. -/
lemma getTongCount_spec (t : CountHuType) :
    ((∀ i, ¬FirstTong t i) ∧ t.getTongCount = 0) ∨
      ∃ i, FirstTong t i ∧ 2 ≤ t.getTongCount ∧
        ∀ k, (Multiset.replicate k (run i)).sum ≤ t.hand ↔ k ≤ t.getTongCount := by
  have htest : ∀ i, i + 2 ≤ 37 → ((1 < t.mapWithChi i && 1 < t.mapWithChi (i + 1) &&
      1 < t.mapWithChi (i + 2)) = true ↔ (Multiset.replicate 2 (run i)).sum ≤ t.hand) := by
    intro i hi
    rw [runs_le_iff t hi]
    simp only [Bool.and_eq_true, decide_eq_true_eq]
    omega
  rw [getTongCount]
  cases hfind : (List.range' 11 7).find? fun i => 1 < t.mapWithChi i && 1 < t.mapWithChi (i + 1) &&
      1 < t.mapWithChi (i + 2) with
  | none =>
    refine Or.inl ⟨fun i hi => ?_, rfl⟩
    rw [List.find?_eq_none] at hfind
    have hmem := hi.mem
    exact hfind i (List.mem_range'_1.mpr (by omega)) ((htest i (by omega)).mpr hi.twice)
  | some i =>
    rw [List.find?_range'_eq_some, List.mem_range'_1] at hfind
    obtain ⟨htwo, hmem, hmin⟩ := hfind
    refine Or.inr ⟨i, ⟨by omega, (htest i (by omega)).mp htwo, fun j hj hlt => ?_⟩, ?_,
      runs_le_iff t (by omega)⟩
    · intro hle
      have hno := hmin j hj hlt
      rw [(htest j (by omega)).mpr hle] at hno
      exact absurd hno (by decide)
    · exact (runs_le_iff t (by omega) 2).mp ((htest i (by omega)).mp htwo)

/-! ### When the tests are right -/

/-- For one of the types: the tiles of its runs are in the hand exactly if, without the runs that
are not exposed, the hand is accepted. -/
def CountedIffAccepted (t : CountHuType) (types : List (Multiset (Multiset ℕ))) : Prop :=
  (∃ bs ∈ types, bs.sum ≤ t.hand) ↔ ∃ bs ∈ types, t.accepts bs = true

/-- The condition: for four of the types as above; the hand without the pair of `Tiao5` and the runs
of two dragons that are not exposed is not left with melds; the copies of the first run that is
twice in the hand can be copies of a run of a division, and they are no fewer than those. -/
structure RunCondition (t : CountHuType) : Prop where
  qingLong : t.CountedIffAccepted qingLong
  laoShao : t.CountedIffAccepted laoShao
  sanBuGao : t.CountedIffAccepted sanBuGao
  siBuGao : t.CountedIffAccepted siBuGao
  shuangLong : ¬({15, 15} + (shuangLong - t.exposedRuns).sum ≤ t.hand ∧
    Melds (t.hand - ({15, 15} + (shuangLong - t.exposedRuns).sum)) 0)
  found : ∀ i k, t.FirstTong i → (∀ n, (Multiset.replicate n (run i)).sum ≤ t.hand ↔ n ≤ k) →
    ∃ j, IsRunStart j ∧ t.accepts (Multiset.replicate k (run j)) = true
  most : ∀ n j, 2 ≤ n → IsRunStart j → t.accepts (Multiset.replicate n (run j)) = true →
    ∃ i, t.FirstTong i ∧ (Multiset.replicate n (run i)).sum ≤ t.hand

/-- The copies of one run. -/
lemma tongIs_iff (ht : Dealt t) : t.TongIs t.getTongCount ↔
    (∀ i k, t.FirstTong i → (∀ n, (Multiset.replicate n (run i)).sum ≤ t.hand ↔ n ≤ k) →
      ∃ j, IsRunStart j ∧ t.accepts (Multiset.replicate k (run j)) = true) ∧
    ∀ n j, 2 ≤ n → IsRunStart j → t.accepts (Multiset.replicate n (run j)) = true →
      ∃ i, t.FirstTong i ∧ (Multiset.replicate n (run i)).sum ≤ t.hand := by
  have hcon : ∀ n j, IsRunStart j → (t.Contains (Multiset.replicate n (run j)) ↔
      t.accepts (Multiset.replicate n (run j)) = true) := by
    intro n j hj
    refine contains_iff ht fun b hb => ?_
    rw [Multiset.eq_of_mem_replicate hb]
    exact run_mem_melds hj
  rcases t.getTongCount_spec with ⟨hnone, hzero⟩ | ⟨i, hi, htwo, hcopies⟩
  · rw [hzero, TongIs]
    constructor
    · rintro (⟨-, h⟩ | ⟨h, -⟩)
      · refine ⟨fun i _ hi => absurd hi (hnone i), fun n j hn hj hacc => ?_⟩
        exact absurd ((hcon n j hj).mpr hacc) (h n j hn hj)
      · omega
    · rintro ⟨-, h⟩
      refine Or.inl ⟨rfl, fun n j hn hj hc => ?_⟩
      obtain ⟨i, hi, -⟩ := h n j hn hj ((hcon n j hj).mp hc)
      exact hnone i hi
  · have hk : ∀ k, (∀ n, (Multiset.replicate n (run i)).sum ≤ t.hand ↔ n ≤ k) →
        k = t.getTongCount := by
      intro k h
      exact le_antisymm ((hcopies k).mp ((h k).mpr le_rfl))
        ((h _).mp ((hcopies _).mpr le_rfl))
    constructor
    · rintro (⟨h, -⟩ | ⟨-, ⟨j, hj, hc⟩, hmost⟩)
      · omega
      · refine ⟨fun i' k hi' h => ?_, fun n j' hn hj' hacc => ?_⟩
        · rw [FirstTong.unique hi' hi] at h
          rw [hk k h]
          exact ⟨j, hj, (hcon _ j hj).mp hc⟩
        · exact ⟨i, hi, (hcopies n).mpr (hmost n j' hj' ((hcon n j' hj').mpr hacc))⟩
    · rintro ⟨hfound, hmost⟩
      refine Or.inr ⟨htwo, ?_, fun n j hj hc => ?_⟩
      · obtain ⟨j, hj, hacc⟩ := hfound i _ hi hcopies
        exact ⟨j, hj, (hcon _ j hj).mpr hacc⟩
      · by_cases hn : 2 ≤ n
        · obtain ⟨i', hi', hle⟩ := hmost n j hn hj ((hcon n j hj).mp hc)
          rw [FirstTong.unique hi' hi] at hle
          exact (hcopies n).mp hle
        · omega

/-- Four of the types: the test and the runs of a division. -/
lemma test_right_iff (ht : Dealt t) {b : Bool} {types : List (Multiset (Multiset ℕ))}
    (hruns : ∀ bs ∈ types, ∀ b ∈ bs, b ∈ (List.range' 11 7).map run)
    (htest : b = true ↔ ∃ bs ∈ types, bs.sum ≤ t.hand) :
    (b = true ↔ ∃ bs ∈ types, t.Contains bs) ↔ t.CountedIffAccepted types := by
  have hcon : (∃ bs ∈ types, t.Contains bs) ↔ ∃ bs ∈ types, t.accepts bs = true := by
    refine exists_congr fun bs => and_congr_right fun hbs => contains_iff ht fun b hb => ?_
    obtain ⟨i, hi, rfl⟩ := List.mem_map.mp (hruns bs hbs b hb)
    rw [List.mem_range'_1] at hi
    exact run_mem_melds ⟨by omega, by omega, by omega⟩
  rw [htest, hcon, CountedIffAccepted]

/-- **Types of runs**: the six tests are right exactly under the condition.

**Proof sketch.** The tests ask whether the tiles of the runs are in the hand. The runs are in a
division exactly if those that are not exposed can be taken off and the rest is accepted. -/
theorem runTypes_right_iff (ht : Dealt t) : t.RunTypesRight ↔ t.RunCondition := by
  have hqing := test_right_iff ht (by decide) (isQingLong_iff (t := t))
  have hlao := test_right_iff ht (by decide) (isLaoShao_iff (t := t))
  have hsan := test_right_iff ht (by decide) (isSanBuGao_iff (t := t))
  have hsi := test_right_iff ht (by decide) (isSiBuGao_iff (t := t))
  have hshuang : (t.isShuangLong = true ↔
      ∃ ms, Division t.hand {15, 15} ms ∧ shuangLong ≤ ms + t.exposedRuns) ↔
      ¬({15, 15} + (shuangLong - t.exposedRuns).sum ≤ t.hand ∧
        Melds (t.hand - ({15, 15} + (shuangLong - t.exposedRuns).sum)) 0) := by
    rw [isShuangLong_eq_false, shuangLong_iff]
    simp only [Bool.false_eq_true, false_iff]
  have htong := tongIs_iff ht
  constructor
  · rintro ⟨h1, h2, h3, h4, h5, h6⟩
    obtain ⟨hfound, hmost⟩ := htong.mp h6
    exact ⟨hqing.mp h1, hlao.mp h2, hsan.mp h3, hsi.mp h4, hshuang.mp h5, hfound, hmost⟩
  · rintro ⟨h1, h2, h3, h4, h5, hfound, hmost⟩
    exact ⟨hqing.mpr h1, hlao.mpr h2, hsan.mpr h3, hsi.mpr h4, hshuang.mpr h5,
      htong.mpr ⟨hfound, hmost⟩⟩

end Tests

/-! ### An exposed run -/

/-- A hand from `Tiao4` to `Tiao9`, a triplet and a pair of winds, and the run 123 exposed. -/
def exposedRun : CountHuType :=
  ⟨⟨kCardNull, [14, 15, 16, 17, 18, 19, 31, 31, 31, 32], [⟨[12, 13], .rChi, none⟩], .null, []⟩,
    some 32⟩

/-- The exposed run is missed: the division has 123 456 789, and the test is false. -/
theorem exposedRun_missed : exposedRun.player.canHu 32 [] = true ∧
    exposedRun.Contains {run 11, run 14, run 17} ∧ exposedRun.isQingLong = false := by
  refine ⟨by decide +kernel,
    ⟨{32, 32}, {run 14, run 17, ke 31}, ⟨⟨32, by decide, rfl⟩, ?_, ?_⟩, ?_⟩, by decide⟩
  · intro b hb
    simp only [Multiset.insert_eq_cons, Multiset.mem_cons, Multiset.mem_singleton] at hb
    rcases hb with rfl | rfl | rfl
    · exact run_mem_melds ⟨by decide, by decide, by decide⟩
    · exact run_mem_melds ⟨by decide, by decide, by decide⟩
    · exact triplet_mem_melds (by decide)
  · decide
  · decide

/-- The suit once through, a triplet and a pair of winds. -/
def oneSuit : CountHuType :=
  ⟨⟨kCardNull, [11, 12, 13, 14, 15, 16, 17, 18, 19, 31, 31, 31, 32], [], .null, []⟩, some 32⟩

/-- The tests are right for the suit once through. -/
theorem oneSuit_right : oneSuit.RunTypesRight := by
  have htwice : ∀ i ∈ List.range' 11 7, ¬(Multiset.replicate 2 (run i)).sum ≤ oneSuit.hand := by
    decide
  have hsuit : ∀ x ∈ oneSuit.hand, 2 ≤ oneSuit.hand.count x → 31 ≤ x := by decide
  refine (runTypes_right_iff ⟨by decide, by decide⟩).mpr
    ⟨iff_of_true (by decide) (by decide +kernel), iff_of_true (by decide) (by decide +kernel),
      iff_of_false (by decide) (by decide +kernel), iff_of_false (by decide) (by decide +kernel),
      fun h => absurd h.1 (by decide), fun i k hi _ => ?_, fun n j hn hj hacc => ?_⟩
  · have hmem := hi.mem
    exact absurd hi.twice (htwice i (List.mem_range'_1.mpr (by omega)))
  · rw [accepts, Bool.and_eq_true, decide_eq_true_eq] at hacc
    have hle : (Multiset.replicate n (run j)).sum ≤ oneSuit.hand := hacc.1
    have hcount : n ≤ oneSuit.hand.count j := by
      rw [run_eq_tilesFrom] at hle
      refine le_trans ?_ (Multiset.count_le_of_le j hle)
      rw [tilesFrom, Multiset.count_add, Multiset.count_replicate_self]
      exact Nat.le_add_right _ _
    have := hsuit j (Multiset.count_pos.mp (by omega)) (by omega)
    have := hj.1
    omega

end CountHuType

end Erren
