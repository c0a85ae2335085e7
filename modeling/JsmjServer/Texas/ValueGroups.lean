import JsmjServer.Texas.PokerHands

set_option relaxedAutoImplicit false
set_option autoImplicit false

/-!
# Groups of cards of one value

`getMaxGroupByValue` takes cards of the largest value of which there are enough, and the categories
with several cards of one value take such groups one after the other. The values are a greedy pick,
and where the sizes of the groups are the multiplicities of the highest category, the groups are the
best hand.

## Main definitions

* `Texas.CardAlgorithm.Taken` — groups taken one after the other.
* `Texas.CardAlgorithm.IsBest` — five cards of a category that no other five of the cards beat.

## Main results

* `Texas.CardAlgorithm.Taken.spec` — the values of the groups are a greedy pick.
* `Texas.CardAlgorithm.isBest_of_taken` — groups of the sizes of the highest category.
-/

namespace Texas.CardAlgorithm

open PokerHands

variable {cards : List ℕ} {same v : ℕ}

/-! ### The largest group of a value -/

/-- The cards of a value. -/
def ofValue (cards : List ℕ) (v : ℕ) : List ℕ := cards.filter fun c => getCardRealValue c = v

lemma length_ofValue (cards : List ℕ) (v : ℕ) : (ofValue cards v).length = countOf cards v :=
  countOf_eq_length.symm

lemma map_ofValue (cards : List ℕ) (v : ℕ) :
    (ofValue cards v).map getCardRealValue = List.replicate (countOf cards v) v := by
  refine List.eq_replicate_iff.mpr ⟨by rw [List.length_map, length_ofValue], fun u hu => ?_⟩
  obtain ⟨c, hc, rfl⟩ := List.mem_map.mp hu
  simpa using (List.mem_filter.mp hc).2

lemma headD_ofValue (hv : 0 < countOf cards v) :
    getCardRealValue ((ofValue cards v).headD 0) = v := by
  have hmap := map_ofValue cards v
  rw [← length_ofValue] at hv hmap
  cases hg : ofValue cards v with
  | nil => simp [hg] at hv
  | cons c g =>
    simp only [hg, List.map_cons, List.length_cons, List.replicate_succ, List.cons.injEq] at hmap
    exact hmap.1

/-- The loop of `getMaxGroupByValue` over values instead of their groups. -/
def maxValue (cards : List ℕ) (same : ℕ) (vs : List ℕ) (acc : Option ℕ) : Option ℕ :=
  vs.foldl (fun m v => if same ≤ countOf cards v then some (m.elim v (max v)) else m) acc

/-- The loop over the groups of some values keeps the group of the value kept. -/
lemma foldl_ofValue (same : ℕ) (vs : List ℕ) (hvs : ∀ v ∈ vs, 0 < countOf cards v)
    (acc : Option ℕ) (hacc : ∀ m ∈ acc, 0 < countOf cards m) :
    (vs.map (ofValue cards)).foldl (fun maxGroup v =>
      if same ≤ v.length then
        match maxGroup with
        | .none => some v
        | some m =>
          if getCardRealValue (m.headD 0) < getCardRealValue (v.headD 0) then some v else some m
      else maxGroup) (acc.map (ofValue cards)) =
    (maxValue cards same vs acc).map (ofValue cards) := by
  induction vs generalizing acc with
  | nil => rfl
  | cons v vs ih =>
    obtain ⟨hv, hvs⟩ := List.forall_mem_cons.mp hvs
    simp only [List.map_cons, List.foldl_cons, length_ofValue, maxValue]
    by_cases hsame : same ≤ countOf cards v
    · simp only [if_pos hsame]
      cases acc with
      | none => exact ih hvs (some v) (by simpa using hv)
      | some m =>
        have hm : 0 < countOf cards m := hacc m rfl
        simp only [Option.map_some, headD_ofValue hm, headD_ofValue hv, Option.elim_some]
        split_ifs with hlt
        · rw [max_eq_left hlt.le]
          exact ih hvs (some v) (by simpa using hv)
        · rw [max_eq_right (not_lt.mp hlt)]
          exact ih hvs (some m) (by simpa using hm)
    · simp only [if_neg hsame]
      exact ih hvs acc hacc

/-- What the loop keeps: nothing when no value is frequent enough, and else the largest one. -/
lemma maxValue_spec (cards : List ℕ) (same : ℕ) (vs : List ℕ) (acc : Option ℕ) :
    (maxValue cards same vs acc = none ∧ acc = none ∧ ∀ v ∈ vs, countOf cards v < same) ∨
    ∃ m, maxValue cards same vs acc = some m ∧ (acc = some m ∨ same ≤ countOf cards m) ∧
      (∀ v ∈ vs, same ≤ countOf cards v → v ≤ m) ∧ ∀ a ∈ acc, a ≤ m := by
  induction vs generalizing acc with
  | nil =>
    cases acc with
    | none => exact .inl ⟨rfl, rfl, nofun⟩
    | some m => exact .inr ⟨m, rfl, .inl rfl, nofun, fun a ha => (Option.some.inj ha).ge⟩
  | cons v vs ih =>
    simp only [maxValue, List.foldl_cons]
    by_cases hsame : same ≤ countOf cards v
    · rw [if_pos hsame]
      rcases ih (some (acc.elim v (max v))) with ⟨-, h, -⟩ | ⟨m, hr, hor, hmax, hold⟩
      · cases h
      · have hle := hold _ rfl
        refine .inr ⟨m, hr, ?_, List.forall_mem_cons.mpr ⟨fun _ => ?_, hmax⟩, fun a ha => ?_⟩
        · rcases hor with heq | hle'
          · cases acc with
            | none =>
              obtain rfl : v = m := Option.some.inj heq
              exact .inr hsame
            | some a =>
              obtain rfl : max v a = m := Option.some.inj heq
              rcases le_total a v with h | h
              · rw [max_eq_left h]
                exact .inr hsame
              · rw [max_eq_right h]
                exact .inl rfl
          · exact .inr hle'
        · cases acc with
          | none => exact hle
          | some a => exact (le_max_left v a).trans hle
        · obtain rfl : acc = some a := ha
          exact (le_max_right v a).trans hle
    · rw [if_neg hsame]
      rcases ih acc with ⟨hr, hnone, hall⟩ | ⟨m, hr, hor, hmax, hold⟩
      · exact .inl ⟨hr, hnone, List.forall_mem_cons.mpr ⟨not_le.mp hsame, hall⟩⟩
      · exact .inr ⟨m, hr, hor, List.forall_mem_cons.mpr ⟨fun h => absurd h hsame, hmax⟩, hold⟩

/-- `getMaxGroupByValue`: cards of the largest value that is frequent enough. -/
lemma getMaxGroupByValue_cases (cards : List ℕ) (hsame : 0 < same) :
    (getMaxGroupByValue cards same = none ∧ ∀ v, countOf cards v < same) ∨
    ∃ v, getMaxGroupByValue cards same = some ((ofValue cards v).take same) ∧
      same ≤ countOf cards v ∧ ∀ u, same ≤ countOf cards u → u ≤ v := by
  have hmem : ∀ v, v ∈ (cards.map getCardRealValue).dedup ↔ 0 < countOf cards v := fun v => by
    rw [List.mem_dedup]
    exact List.count_pos_iff.symm
  have hfold := foldl_ofValue same (cards.map getCardRealValue).dedup
    (fun v hv => (hmem v).mp hv) none nofun
  have hgroup : maxCardGroup (groupByValue cards) same =
      (maxValue cards same (cards.map getCardRealValue).dedup none).map (ofValue cards) := hfold
  rw [getMaxGroupByValue, hgroup]
  rcases maxValue_spec cards same (cards.map getCardRealValue).dedup none with
    ⟨hr, -, hall⟩ | ⟨v, hr, hor, hmax, -⟩
  · refine .inl ⟨by rw [hr]; rfl, fun v => ?_⟩
    by_cases hv : 0 < countOf cards v
    · exact hall v ((hmem v).mpr hv)
    · omega
  · refine .inr ⟨v, by rw [hr]; rfl, hor.resolve_left nofun, fun u hu => ?_⟩
    exact hmax u ((hmem u).mpr (hsame.trans_le hu)) hu

/-- The cards of a group and the others. -/
lemma perm_removeFromCards (cards : List ℕ) (same v : ℕ) :
    ((ofValue cards v).take same ++ removeFromCards cards ((ofValue cards v).take same)).Perm
      cards := by
  refine List.subperm_append_diff_self_of_count_le fun c _ => ?_
  exact ((List.take_sublist _ _).trans List.filter_sublist).count_le c

lemma map_take_ofValue (hv : same ≤ countOf cards v) :
    ((ofValue cards v).take same).map getCardRealValue = List.replicate same v := by
  rw [List.map_take, map_ofValue, List.take_replicate, min_eq_left hv]

/-- What is left of the values without a group. -/
lemma countOf_removeFromCards (hv : same ≤ countOf cards v) :
    countOf (removeFromCards cards ((ofValue cards v).take same)) =
      Picks.take (countOf cards) same v := by
  funext u
  have hcount := ((perm_removeFromCards cards same v).map getCardRealValue).count_eq u
  rw [List.map_append, List.count_append, map_take_ofValue hv] at hcount
  change _ + countOf (removeFromCards cards ((ofValue cards v).take same)) u = countOf cards u
    at hcount
  rcases eq_or_ne u v with rfl | hne
  · rw [List.count_replicate_self] at hcount
    rw [Picks.take_self]
    omega
  · rw [List.count_eq_zero_of_not_mem fun hmem => hne (List.mem_replicate.mp hmem).2] at hcount
    rw [Picks.take_of_ne hne]
    omega

lemma length_removeFromCards (hv : same ≤ countOf cards v) :
    (removeFromCards cards ((ofValue cards v).take same)).length = cards.length - same := by
  have hlen := (perm_removeFromCards cards same v).length_eq
  rw [List.length_append, List.length_take, length_ofValue, min_eq_left hv] at hlen
  omega

/-! ### Groups one after the other -/

/-- The largest groups of the sizes are taken one after the other. -/
inductive Taken : List ℕ → List ℕ → List (List ℕ) → Prop
  | nil (cards : List ℕ) : Taken cards [] []
  | cons {cards : List ℕ} {same : ℕ} {sizes : List ℕ} {group : List ℕ} {groups : List (List ℕ)} :
      getMaxGroupByValue cards same = some group →
      Taken (removeFromCards cards group) sizes groups →
      Taken cards (same :: sizes) (group :: groups)

variable {sizes vs : List ℕ} {groups : List (List ℕ)}

/-- The values of the groups taken are the greedy pick of the sizes. -/
lemma Taken.spec (h : Taken cards sizes groups) (hp : ∀ k ∈ sizes, 0 < k) :
    ∃ vs, Picks.Greedy (countOf cards) sizes vs ∧
      groups.flatten.map getCardRealValue = Picks.spread sizes vs ∧
      (firstCards groups).map getCardRealValue = vs ∧ groups.flatten.Subperm cards := by
  induction h with
  | nil cards => exact ⟨[], .nil _, rfl, rfl, List.nil_subperm⟩
  | @cons cards same sizes group groups hgroup _ ih =>
    obtain ⟨hsame, hsizes⟩ := List.forall_mem_cons.mp hp
    obtain ⟨vs, hgreedy, hvalues, hfirst, hsub⟩ := ih hsizes
    rcases getMaxGroupByValue_cases cards hsame with ⟨hnone, -⟩ | ⟨v, hv, hle, hmax⟩
    · rw [hnone] at hgroup
      cases hgroup
    · obtain rfl : (ofValue cards v).take same = group := Option.some.inj (hv.symm.trans hgroup)
      rw [countOf_removeFromCards hle] at hgreedy
      have hmap := map_take_ofValue hle
      refine ⟨v :: vs, .cons hle hmax hgreedy, ?_, ?_, ?_⟩
      · rw [List.flatten_cons, List.map_append, hmap, hvalues]
        rfl
      · rw [firstCards, List.flatMap_cons, List.map_append, List.map_take, hmap,
          List.take_replicate, min_eq_left (by omega)]
        rw [firstCards] at hfirst
        rw [hfirst]
        rfl
      · rw [List.flatten_cons]
        have happend := (List.subperm_append_left ((ofValue cards v).take same)).mpr hsub
        exact happend.trans (perm_removeFromCards _ same v).subperm

/-- Where a list of values fits the first sizes and enough cards are left for single ones, the
groups can be taken. -/
lemma taken_of_fits {w : List ℕ} {m : ℕ} (hw : Picks.Fits (countOf cards) sizes w)
    (hp : ∀ k ∈ sizes, 0 < k) (hsorted : sizes.Pairwise (· ≥ ·))
    (hlen : sizes.sum + m ≤ cards.length) : Taken cards (sizes ++ List.replicate m 1)
      (takeGroups cards (sizes ++ List.replicate m 1)) := by
  induction sizes generalizing cards w with
  | nil =>
    induction m generalizing cards w with
    | zero => exact .nil _
    | succ m ih =>
      rcases getMaxGroupByValue_cases cards one_pos with ⟨-, hall⟩ | ⟨v, hv, hle, -⟩
      · -- there is a card left
        obtain ⟨c, hc⟩ := List.exists_mem_of_length_pos (l := cards) (by
          rw [List.sum_nil] at hlen
          omega)
        have := hall (getCardRealValue c)
        have := countOf_pos.mpr ⟨c, hc, rfl⟩
        omega
      · have hrest := @ih (removeFromCards cards ((ofValue cards v).take 1)) []
          ⟨.nil, List.nodup_nil⟩ (by
            rw [length_removeFromCards hle]
            simp only [List.sum_nil] at hlen ⊢
            omega)
        simp only [List.nil_append, List.replicate_succ] at hrest ⊢
        rw [takeGroups, hv]
        exact .cons hv hrest
  | cons same sizes ih =>
    obtain ⟨hsame, hsizes⟩ := List.forall_mem_cons.mp hp
    obtain ⟨hge, hsorted⟩ := List.pairwise_cons.mp hsorted
    rcases getMaxGroupByValue_cases cards hsame with ⟨-, hall⟩ | ⟨v, hv, hle, -⟩
    · obtain ⟨enough, -⟩ := hw
      cases enough with
      | cons hx _ => exact absurd hx (not_le.mpr (hall _))
    · obtain ⟨w', hw'⟩ := hw.rest hge v
      rw [← countOf_removeFromCards hle] at hw'
      rw [List.cons_append, takeGroups, hv]
      refine .cons hv (ih hw' hsizes hsorted ?_)
      rw [length_removeFromCards hle]
      rw [List.sum_cons] at hlen
      omega

/-! ### The best five cards -/

/-- Five of the cards, of a category, that no other five of the cards beat. -/
structure IsBest (cards five : List ℕ) (type : GroupType) : Prop where
  held : Five cards five
  category_eq : category five = type
  max : ∀ h, Five cards h → strength h ≤ strength five

/-- No five of the cards are of a higher category. -/
def AtMost (cards : List ℕ) (type : GroupType) : Prop :=
  ∀ h, Five cards h → (category h).code ≤ type.code

/-- No five of the cards are of the category. -/
def Lacks (cards : List ℕ) (type : GroupType) : Prop := ∀ h, Five cards h → category h ≠ type

variable {five : List ℕ} {type : GroupType}

/-- Five cards of the highest category are the best ones when they are in their category. -/
lemma isBest_of_ranks (h5 : Five cards five) (hcat : category five = type)
    (hmost : AtMost cards type)
    (hranks : ∀ h, Five cards h → category h = type → ranks h ≤ ranks five) :
    IsBest cards five type := by
  refine ⟨h5, hcat, fun h hh => Picks.cons_le_cons ?_⟩
  rw [hcat]
  rcases (hmost h hh).lt_or_eq with hlt | heq
  · exact .inl hlt
  · exact .inr ⟨heq, hranks h hh (code_inj heq)⟩

/-- Without a straight the ranks are the values by their multiplicities. -/
lemma ranks_eq (h5 : five.length = 5) (hs : category five ≠ .straight)
    (hsf : category five ≠ .straightFlush) : ranks five = groupRanks five := by
  unfold ranks
  split
  · next t ht =>
    have hor := category_of_straight h5 (by simp [ht])
    exact absurd hor (by simp [hs, hsf])
  · rfl

/-- Groups of different values whose sizes are the pattern of the highest category are the best. -/
lemma isBest_of_taken (type : GroupType) (hd : Dealt cards) (ht : Taken cards (pattern type) groups)
    (hgreedy : Picks.Greedy (countOf cards) (pattern type) vs)
    (hvs : (firstCards groups).map getCardRealValue = vs) (hn : vs.Nodup)
    (hpos : ∀ k ∈ pattern type, 0 < k) (hsorted : (pattern type).Pairwise (· ≥ ·))
    (hsum : (pattern type).sum = 5) (hunique : ∀ t, pattern t = pattern type → t = type)
    (hmost : AtMost cards type) : IsBest cards groups.flatten type ∧
      (firstCards groups).map getCardRealValue = ranks groups.flatten := by
  obtain ⟨vs', hgreedy', hvalues, hvs', hsub⟩ := ht.spec hpos
  obtain rfl : vs' = vs := hvs'.symm.trans hvs
  set five := groups.flatten with hfive
  have hlen : five.length = 5 := by
    rw [← List.length_map getCardRealValue, hvalues, hgreedy.length_spread, hsum]
  have h5 : Five cards five := ⟨hsub, hlen⟩
  obtain ⟨horder, hcounts, -⟩ := hgreedy.spec hsorted hn
  rw [← hvalues] at horder hcounts
  have hnv := h5.nodup hd
  have hval := h5.valid hd
  have hranks : groupRanks five = vs' := by
    refine groupRanks_eq horder fun v => ⟨fun hv => ?_, fun hv => ?_⟩
    · have hmem := List.mem_map_of_mem (f := fun v => countOf five v) hv
      have hone : 0 < countOf five v := hpos _ (hcounts ▸ hmem)
      obtain ⟨c, hc, rfl⟩ := countOf_pos.mp hone
      exact ⟨getCardRealValue_mem (hval c hc), hone, countOf_le_four hnv hval _⟩
    · have hmem := List.count_pos_iff.mp hv.2.1
      rw [hvalues] at hmem
      exact Picks.mem_of_mem_spread hmem
  have hcat : category five = type := by
    refine hunique _ ?_
    rw [← counts_groupRanks hnv hval hlen, hranks]
    exact hcounts
  have hns : type ≠ .straight ∧ type ≠ .straightFlush := by
    constructor
    · rintro rfl
      exact absurd (hunique .flush rfl) (by decide)
    · rintro rfl
      exact absurd (hunique .flush rfl) (by decide)
  have heq : ranks five = groupRanks five :=
    ranks_eq hlen (by rw [hcat]; exact hns.1) (by rw [hcat]; exact hns.2)
  refine ⟨isBest_of_ranks h5 hcat hmost fun h hh hcath => ?_, by rw [heq, hranks, hvs]⟩
  rw [heq, hranks, ranks_eq hh.length_eq (by rw [hcath]; exact hns.1) (by rw [hcath]; exact hns.2)]
  have hfits := hh.fits hd
  rw [hcath] at hfits
  exact hfits.le hgreedy

/-! ### Several cards of one value -/

/-- Without values of which there are `k` cards no category begins with as many. -/
lemma lacks_of_lt {k : ℕ} {p : List ℕ} (hd : Dealt cards) (hpat : pattern type = k :: p)
    (hall : ∀ v, countOf cards v < k) : Lacks cards type := by
  intro h hh hcat
  obtain ⟨enough, -⟩ := hh.fits hd
  rw [hcat, hpat] at enough
  generalize groupRanks h = w at enough
  cases enough with
  | cons hle _ => exact absurd hle (not_le.mpr (hall _))

/-- Four of a kind. -/
lemma getBestGroupFourKind_spec (hd : Dealt cards) (hmost : AtMost cards .fourKind) :
    (getBestGroupFourKind cards = none ∧ ∀ v, countOf cards v < 4) ∨
    ∃ groups, getBestGroupFourKind cards = some ⟨.fourKind, groups⟩ ∧
      IsBest cards groups.flatten .fourKind ∧
      (firstCards groups).map getCardRealValue = ranks groups.flatten := by
  rcases getMaxGroupByValue_cases cards (show 0 < 4 by omega) with ⟨hnone, hall⟩ | ⟨v, hv, hle, -⟩
  · exact .inl ⟨by rw [getBestGroupFourKind, hnone]; rfl, hall⟩
  have hfits : Picks.Fits (countOf cards) [4] [v] := ⟨.cons hle .nil, List.nodup_singleton v⟩
  have htaken := taken_of_fits (m := 1) hfits (by simp) (by simp) hd.five_le
  obtain ⟨vs, hgreedy, -, hvs, -⟩ := htaken.spec (by simp)
  have hn : vs.Nodup := by
    cases hgreedy with
    | cons _ _ hrest =>
      refine hrest.nodup_cons (by simp) (countOf_le_four hd.nodup hd.valid _) ?_
      cases hrest with
      | cons _ _ hrest =>
        cases hrest
        exact List.nodup_singleton _
  refine .inr ⟨_, ?_, isBest_of_taken .fourKind hd htaken hgreedy hvs hn (by decide)
    (by decide) rfl (fun t => by cases t <;> decide) hmost⟩
  rw [getBestGroupFourKind, hv]
  simp only [Option.map_some, List.replicate_succ, List.replicate_zero, List.cons_append,
    List.nil_append, takeGroups, hv]
  cases getMaxGroupByValue (removeFromCards cards ((ofValue cards v).take 4)) 1 <;> rfl

/-- A full house. Without one nothing but single cards is beside three of a kind. -/
lemma getBestGroupFullHouse_spec (hd : Dealt cards) (h4 : ∀ v, countOf cards v < 4)
    (hmost : AtMost cards .fullHouse) :
    (getBestGroupFullHouse cards = none ∧ Lacks cards .fullHouse ∧
      ∀ v, getMaxGroupByValue cards 3 = some ((ofValue cards v).take 3) → 3 ≤ countOf cards v →
        ∀ u, Picks.take (countOf cards) 3 v u ≤ 1) ∨
    ∃ groups, getBestGroupFullHouse cards = some ⟨.fullHouse, groups⟩ ∧
      IsBest cards groups.flatten .fullHouse ∧
      (firstCards groups).map getCardRealValue = ranks groups.flatten := by
  rcases getMaxGroupByValue_cases cards (show 0 < 3 by omega) with ⟨hnone, hall⟩ | ⟨v, hv, hle, -⟩
  · refine .inl ⟨by rw [getBestGroupFullHouse, hnone], lacks_of_lt hd rfl hall, fun v hv => ?_⟩
    rw [hnone] at hv
    cases hv
  rcases getMaxGroupByValue_cases (removeFromCards cards ((ofValue cards v).take 3))
    (show 0 < 2 by omega) with ⟨hnone, hall⟩ | ⟨u, hu, hleu, -⟩
  · rw [countOf_removeFromCards hle] at hall
    refine .inl ⟨by rw [getBestGroupFullHouse, hv]; simp [hnone], fun h hh hcat => ?_,
      fun v' hv' hle' => ?_⟩
    · have hfits := hh.fits hd
      rw [hcat] at hfits
      obtain ⟨w, enough, -⟩ := hfits.rest (by simp) v
      cases enough with
      | cons hle _ => exact absurd hle (not_le.mpr (hall _))
    · have heq := Option.some.inj (hv.symm.trans hv')
      have hvv : v = v' := by
        have hmap := congrArg (List.map getCardRealValue) heq
        rw [map_take_ofValue hle, map_take_ofValue hle'] at hmap
        simpa using hmap
      subst hvv
      exact fun u => Nat.le_of_lt_succ (hall u)
  · have htaken : Taken cards [3, 2] [(ofValue cards v).take 3,
        (ofValue (removeFromCards cards ((ofValue cards v).take 3)) u).take 2] :=
      .cons hv (.cons hu (.nil _))
    obtain ⟨vs, hgreedy, -, hvs, -⟩ := htaken.spec (by simp)
    have hn : vs.Nodup := by
      cases hgreedy with
      | cons _ _ hrest =>
        refine hrest.nodup_cons (by simp) (Nat.le_of_lt_succ (h4 _)) ?_
        cases hrest with
        | cons _ _ hrest =>
          cases hrest
          exact List.nodup_singleton _
    refine .inr ⟨_, ?_, isBest_of_taken .fullHouse hd htaken hgreedy hvs hn (by decide)
      (by decide) rfl (fun t => by cases t <;> decide) hmost⟩
    rw [getBestGroupFullHouse, hv]
    simp only [hu, Option.map_some]

/-- Three of a kind beside single cards. -/
lemma getBestGroupThreeKind_spec (hd : Dealt cards) (h4 : ∀ v, countOf cards v < 4)
    (hsingle : ∀ v, getMaxGroupByValue cards 3 = some ((ofValue cards v).take 3) →
      3 ≤ countOf cards v → ∀ u, Picks.take (countOf cards) 3 v u ≤ 1)
    (hmost : AtMost cards .threeKind) :
    (getBestGroupThreeKind cards = none ∧ ∀ v, countOf cards v < 3) ∨
    ∃ groups, getBestGroupThreeKind cards = some ⟨.threeKind, groups⟩ ∧
      IsBest cards groups.flatten .threeKind ∧
      (firstCards groups).map getCardRealValue = ranks groups.flatten := by
  rcases getMaxGroupByValue_cases cards (show 0 < 3 by omega) with ⟨hnone, hall⟩ | ⟨v, hv, hle, -⟩
  · exact .inl ⟨by rw [getBestGroupThreeKind, hnone]; rfl, hall⟩
  have hfits : Picks.Fits (countOf cards) [3] [v] := ⟨.cons hle .nil, List.nodup_singleton v⟩
  have htaken := taken_of_fits (m := 2) hfits (by simp) (by simp) hd.five_le
  have hgroups : takeGroups cards ([3] ++ List.replicate 2 1) =
      (ofValue cards v).take 3 ::
        takeGroups (removeFromCards cards ((ofValue cards v).take 3)) [1, 1] := by
    simp only [List.replicate_succ, List.replicate_zero, List.cons_append, List.nil_append]
    rw [takeGroups, hv]
  rw [hgroups] at htaken
  have hrest : Taken (removeFromCards cards ((ofValue cards v).take 3)) [1, 1]
      (takeGroups (removeFromCards cards ((ofValue cards v).take 3)) [1, 1]) := by
    cases htaken with
    | cons _ h => exact h
  obtain ⟨vs, hgreedy, -, hvs, -⟩ := htaken.spec (by simp)
  have hn : vs.Nodup := by
    obtain ⟨vs', hgreedy', -, hvs', -⟩ := hrest.spec (by simp)
    rw [countOf_removeFromCards hle] at hgreedy'
    have hn' : vs'.Nodup := hgreedy'.nodup (by simp) (hsingle v hv hle)
    have hcons : vs = v :: vs' := by
      rw [← hvs, firstCards, List.flatMap_cons, List.map_append, List.map_take,
        map_take_ofValue hle, ← hvs']
      rfl
    rw [hcons]
    exact hgreedy'.nodup_cons (by simp) (Nat.le_of_lt_succ (h4 v)) hn'
  refine .inr ⟨_, ?_, isBest_of_taken .threeKind hd htaken hgreedy hvs hn (by decide)
    (by decide) rfl (fun t => by cases t <;> decide) hmost⟩
  rw [getBestGroupThreeKind, hv]
  rfl

/-! ### Pairs -/

lemma twoGroupCount_eq (cards : List ℕ) : twoGroupCount cards =
    ((cards.map getCardRealValue).dedup.filter fun v => countOf cards v = 2).length := by
  rw [twoGroupCount, groupByValue, List.countP_map, List.countP_eq_length_filter]
  congr 1
  refine List.filter_congr fun v _ => ?_
  have hlen := length_ofValue cards v
  rw [ofValue] at hlen
  simp [hlen]

lemma mem_two (v : ℕ) : v ∈ ((cards.map getCardRealValue).dedup.filter fun v =>
    countOf cards v = 2) ↔ countOf cards v = 2 := by
  rw [List.mem_filter, List.mem_dedup, decide_eq_true_eq, and_iff_right_iff_imp]
  intro htwo
  exact List.count_pos_iff.mp (by rw [← countOf, htwo]; omega)

lemma two_le_twoGroupCount : 2 ≤ twoGroupCount cards ↔
    ∃ v u, v ≠ u ∧ countOf cards v = 2 ∧ countOf cards u = 2 := by
  rw [twoGroupCount_eq]
  have hn := (List.nodup_dedup (cards.map getCardRealValue)).filter fun v => countOf cards v = 2
  constructor
  · intro hle
    match hl : (cards.map getCardRealValue).dedup.filter fun v => countOf cards v = 2, hle with
    | v :: u :: l, _ =>
      rw [hl] at hn
      refine ⟨v, u, fun heq => ?_, (mem_two v).mp (by simp [hl]), (mem_two u).mp (by simp [hl])⟩
      simp [heq] at hn
  · rintro ⟨v, u, hne, hv, hu⟩
    have hsub : [v, u] ⊆ (cards.map getCardRealValue).dedup.filter fun v => countOf cards v = 2 := by
      intro x hx
      simp only [List.mem_cons, List.not_mem_nil, or_false] at hx
      rcases hx with rfl | rfl
      · exact (mem_two x).mpr hv
      · exact (mem_two x).mpr hu
    exact (List.subperm_of_subset (by simpa using hne) hsub).length_le

lemma one_le_twoGroupCount : 1 ≤ twoGroupCount cards ↔ ∃ v, countOf cards v = 2 := by
  rw [twoGroupCount_eq]
  refine (List.length_pos_iff_exists_mem).trans ?_
  simp only [mem_two]

/-- Two pairs, when there are no three of a kind. -/
lemma getBestGroupTwoPair_spec (hd : Dealt cards) (h3 : ∀ v, countOf cards v < 3)
    (hmost : AtMost cards .twoPair) :
    (getBestGroupTwoPair cards = none ∧ Lacks cards .twoPair ∧
      ∀ v u, countOf cards v = 2 → countOf cards u = 2 → v = u) ∨
    ∃ groups, getBestGroupTwoPair cards = some ⟨.twoPair, groups⟩ ∧
      IsBest cards groups.flatten .twoPair ∧
      (firstCards groups).map getCardRealValue = ranks groups.flatten := by
  by_cases htwo : 2 ≤ twoGroupCount cards
  · obtain ⟨v, u, hne, hv, hu⟩ := two_le_twoGroupCount.mp htwo
    have hfits : Picks.Fits (countOf cards) [2, 2] [v, u] :=
      ⟨.cons hv.ge (.cons hu.ge .nil), by simpa using hne⟩
    have htaken := taken_of_fits (m := 1) hfits (by simp) (by simp) hd.five_le
    obtain ⟨vs, hgreedy, -, hvs, -⟩ := htaken.spec (by simp)
    have hn : vs.Nodup := by
      cases hgreedy with
      | cons _ _ hrest =>
        refine hrest.nodup_cons (by simp) (Nat.le_of_lt_succ (h3 _)) ?_
        cases hrest with
        | cons _ _ hrest =>
          refine hrest.nodup_cons (by simp) ((Picks.take_le ..).trans (Nat.le_of_lt_succ (h3 _))) ?_
          cases hrest with
          | cons _ _ hrest =>
            cases hrest
            exact List.nodup_singleton _
    refine .inr ⟨_, ?_, isBest_of_taken .twoPair hd htaken hgreedy hvs hn (by decide)
      (by decide) rfl (fun t => by cases t <;> decide) hmost⟩
    rw [getBestGroupTwoPair, if_pos htwo]
    rfl
  · have hunique : ∀ v u, countOf cards v = 2 → countOf cards u = 2 → v = u := by
      intro v u hv hu
      by_contra hne
      exact htwo (two_le_twoGroupCount.mpr ⟨v, u, hne, hv, hu⟩)
    refine .inl ⟨by rw [getBestGroupTwoPair, if_neg htwo], fun h hh hcat => ?_, hunique⟩
    obtain ⟨enough, nodup⟩ := hh.fits hd
    rw [hcat] at enough
    match hg : groupRanks h, enough, nodup with
    | v :: u :: w, .cons hv (.cons hu _), nodup =>
      have h₁ := h3 v
      have h₂ := h3 u
      obtain rfl := hunique v u (by omega) (by omega)
      simp at nodup

/-- One pair, when there are no two pairs and no three of a kind. -/
lemma getBestGroupOnePair_spec (hd : Dealt cards) (h3 : ∀ v, countOf cards v < 3)
    (hunique : ∀ v u, countOf cards v = 2 → countOf cards u = 2 → v = u)
    (hmost : AtMost cards .onePair) :
    (getBestGroupOnePair cards = none ∧ ∀ v, countOf cards v < 2) ∨
    ∃ groups, getBestGroupOnePair cards = some ⟨.onePair, groups⟩ ∧
      IsBest cards groups.flatten .onePair ∧
      (firstCards groups).map getCardRealValue = ranks groups.flatten := by
  by_cases hone : 1 ≤ twoGroupCount cards
  · obtain ⟨v, hv⟩ := one_le_twoGroupCount.mp hone
    have hfits : Picks.Fits (countOf cards) [2] [v] := ⟨.cons hv.ge .nil, List.nodup_singleton v⟩
    have htaken := taken_of_fits (m := 3) hfits (by simp) (by simp) hd.five_le
    obtain ⟨vs, hgreedy, -, hvs, -⟩ := htaken.spec (by simp)
    have hn : vs.Nodup := by
      cases hgreedy with
      | @cons _ _ _ u _ hu _ hrest =>
        have hu2 : countOf cards u = 2 := le_antisymm (Nat.le_of_lt_succ (h3 u)) hu
        refine hrest.nodup_cons (by simp) hu2.le (hrest.nodup (by simp) fun x => ?_)
        rcases eq_or_ne x u with rfl | hne
        · rw [Picks.take_self]
          omega
        · rw [Picks.take_of_ne hne]
          have hx : countOf cards x ≠ 2 := fun hx => hne (hunique x u hx hu2)
          have := h3 x
          omega
    refine .inr ⟨_, ?_, isBest_of_taken .onePair hd htaken hgreedy hvs hn (by decide)
      (by decide) rfl (fun t => by cases t <;> decide) hmost⟩
    rw [getBestGroupOnePair, if_pos hone]
    rfl
  · refine .inl ⟨by rw [getBestGroupOnePair, if_neg hone], fun v => ?_⟩
    have hv : countOf cards v ≠ 2 := fun hv => hone (one_le_twoGroupCount.mpr ⟨v, hv⟩)
    have := h3 v
    omega

end Texas.CardAlgorithm
