import JsmjServer.Texas.Settlement

set_option relaxedAutoImplicit false
set_option autoImplicit false

/-!
# The pots that are shown

`calcPotInfo` of `texas/GameLogic.lua` and the part of `GameStart` that prepares it. The pots are
cut at the chips the players began with. Whether a pot is shown at all is a flag that no call takes
back.

## Main definitions

* `Texas.PotInfo` — an entry of `betPot2`.
* `Texas.gameStartPots`, `Texas.calcPotInfo` — the pots of a hand, and what the players have in
  them.

## Main results

* `Texas.calcPotInfo_exact` — the amounts shown, after any earlier calls.
* `Texas.calcPotInfo_players` — the pots that the settlement announces are these.
-/

namespace Texas

open Finset

variable {n : ℕ}

/-- An entry of `betPot2`. -/
structure PotInfo (n : ℕ) where
  potIndex : ℕ
  betUnit : ℕ
  enable : Bool
  players : Fin n → Option ℕ

/-- The initial chips without repetitions, as `GameStart` collects and sorts them. -/
def initChips (initialChips : Fin n → ℕ) : List ℕ :=
  ((List.finRange n).foldl
    (fun initChips p =>
      if initChips.contains (initialChips p) then initChips else initChips ++ [initialChips p])
    []).insertionSort (· ≤ ·)

/-- The loop of `GameStart` over the sorted chips. -/
def makePots (potIndex tmpChipsAmount : ℕ) : List ℕ → List (PotInfo n)
  | [] => []
  | tmpChips :: rest =>
    let betUnit := tmpChips - tmpChipsAmount
    ⟨potIndex, betUnit, false, fun _ => none⟩ ::
      makePots (potIndex + 1) (tmpChipsAmount + betUnit) rest

/-- `betPot2` when a hand begins. -/
def gameStartPots (initialChips : Fin n → ℕ) : List (PotInfo n) :=
  makePots 1 0 (initChips initialChips)

/-- A player puts an amount into a pot. -/
def PotInfo.put (pot : PotInfo n) (p : Fin n) (amount : ℕ) : PotInfo n :=
  { pot with enable := true, players := Function.update pot.players p (some amount) }

/-- The inner loop of `calcPotInfo`: the bets of a player fill the pots one after the other. -/
def putBets (p : Fin n) : ℕ → List (PotInfo n) → List (PotInfo n)
  | _, [] => []
  | playerBets, potInfo :: rest =>
    if playerBets > potInfo.betUnit then
      potInfo.put p potInfo.betUnit :: putBets p (playerBets - potInfo.betUnit) rest
    else if playerBets > 0 then potInfo.put p playerBets :: putBets p 0 rest
    else potInfo :: putBets p playerBets rest

/-- `calcPotInfo` for the total bets of the players: `betPot2` with the players' amounts, and
`betPot`, the amounts of the enabled pots by their index. -/
def calcPotInfo (betPot2 : List (PotInfo n)) (getTotalBet : Fin n → ℕ) :
    List (PotInfo n) × List (ℕ × ℕ) :=
  let betPot2 := betPot2.map fun potInfo => { potInfo with players := fun _ => none }
  let betPot2 := (List.finRange n).foldl (fun pots p => putBets p (getTotalBet p) pots) betPot2
  (betPot2, (betPot2.filter fun betPot => betPot.enable).map fun betPot =>
    (betPot.potIndex, ∑ i, (betPot.players i).getD 0))

/-! ### Filling the pots -/

/-- A player puts an amount into a pot, or nothing. -/
def PotInfo.add (pot : PotInfo n) (p : Fin n) : Option ℕ → PotInfo n
  | none => pot
  | some amount => pot.put p amount

section Fill

variable {pots : List (PotInfo n)} {p : Fin n} {b : ℕ}

@[simp] lemma PotInfo.potIndex_add (pot : PotInfo n) (p : Fin n) (a : Option ℕ) :
    (pot.add p a).potIndex = pot.potIndex := by
  cases a <;> rfl

@[simp] lemma PotInfo.betUnit_add (pot : PotInfo n) (p : Fin n) (a : Option ℕ) :
    (pot.add p a).betUnit = pot.betUnit := by
  cases a <;> rfl

lemma length_fill (units : List ℕ) (b : ℕ) : (Showdown.fill units b).length = units.length := by
  induction units generalizing b with
  | nil => rfl
  | cons u units ih =>
    rw [Showdown.fill]
    split_ifs <;> rw [List.length_cons, List.length_cons, ih]

/-- The bets of a player, pot by pot. -/
lemma putBets_eq (p : Fin n) (b : ℕ) (pots : List (PotInfo n)) : putBets p b pots =
    List.zipWith (fun pot a => pot.add p a) pots (Showdown.fill (pots.map PotInfo.betUnit) b) := by
  induction pots generalizing b with
  | nil => rfl
  | cons pot pots ih =>
    rw [putBets, List.map_cons, Showdown.fill]
    split_ifs <;> rw [ih] <;> rfl

lemma map_betUnit_putBets : (putBets p b pots).map PotInfo.betUnit = pots.map PotInfo.betUnit := by
  rw [putBets_eq]
  refine List.ext_getElem ?_ fun k _ _ => by simp
  simp [length_fill]

lemma map_potIndex_putBets :
    (putBets p b pots).map PotInfo.potIndex = pots.map PotInfo.potIndex := by
  rw [putBets_eq]
  refine List.ext_getElem ?_ fun k _ _ => by simp
  simp [length_fill]

/-- The pots after several players, one by one. -/
lemma getElem?_foldl_putBets (bet : Fin n → ℕ) (ps : List (Fin n)) (pots : List (PotInfo n))
    (k : ℕ) : (ps.foldl (fun pots p => putBets p (bet p) pots) pots)[k]? =
      pots[k]?.map fun pot => ps.foldl (fun pot p =>
        pot.add p ((Showdown.fill (pots.map PotInfo.betUnit) (bet p))[k]?).join) pot := by
  induction ps generalizing pots with
  | nil => simp
  | cons p ps ih =>
    rw [List.foldl_cons, ih, map_betUnit_putBets, putBets_eq, List.getElem?_zipWith]
    have hlen := length_fill (pots.map PotInfo.betUnit) (bet p)
    rw [List.length_map] at hlen
    rcases lt_or_ge k pots.length with hk | hk
    · have hk' : k < (Showdown.fill (pots.map PotInfo.betUnit) (bet p)).length := by omega
      simp only [List.foldl_cons, List.getElem?_eq_getElem hk, List.getElem?_eq_getElem hk',
        Option.map_some, Option.join_some]
    · rw [List.getElem?_eq_none hk]
      rfl

/-- A pot stays enabled. -/
lemma enable_foldl_add (amount : Fin n → Option ℕ) (ps : List (Fin n)) {pot : PotInfo n}
    (h : pot.enable = true) :
    (ps.foldl (fun pot p => pot.add p (amount p)) pot).enable = true := by
  induction ps generalizing pot with
  | nil => exact h
  | cons p ps ih =>
    refine ih ?_
    dsimp only
    cases amount p with
    | none => exact h
    | some a => rfl

/-- Whoever puts something into a pot enables it. -/
lemma amount_eq_none (amount : Fin n → Option ℕ) (ps : List (Fin n)) {pot : PotInfo n}
    (h : (ps.foldl (fun pot p => pot.add p (amount p)) pot).enable = false) :
    ∀ p ∈ ps, amount p = none := by
  induction ps generalizing pot with
  | nil => simp
  | cons p ps ih =>
    intro q hq
    rcases List.mem_cons.mp hq with rfl | hq
    · cases hamount : amount q with
      | none => rfl
      | some a =>
        rw [List.foldl_cons, hamount, enable_foldl_add amount ps rfl] at h
        exact absurd h (by decide)
    · exact ih h q hq

/-- What is in a pot after several players, each at most once. -/
lemma players_foldl_add (amount : Fin n → Option ℕ) (ps : List (Fin n)) (hps : ps.Nodup)
    {pot : PotInfo n} (hpot : ∀ p ∈ ps, pot.players p = none) (i : Fin n) :
    (ps.foldl (fun pot p => pot.add p (amount p)) pot).players i =
      if i ∈ ps then amount i else pot.players i := by
  induction ps generalizing pot with
  | nil => simp
  | cons p ps ih =>
    obtain ⟨hp, hps⟩ := List.nodup_cons.mp hps
    have hadd : ∀ i, (pot.add p (amount p)).players i =
        if i = p then amount p else pot.players i := by
      intro i
      cases hamount : amount p with
      | none =>
        split_ifs with hi
        · rw [hi]
          exact hpot p List.mem_cons_self
        · rfl
      | some a => exact Function.update_apply pot.players p (some a) i
    rw [List.foldl_cons, ih hps, hadd i]
    · by_cases hi : i = p
      · subst hi
        rw [if_neg hp, if_pos rfl, if_pos List.mem_cons_self]
      · simp [hi]
    · intro q hq
      have hne : q ≠ p := by
        rintro rfl
        exact hp hq
      rw [hadd q, if_neg hne]
      exact hpot q (List.mem_cons_of_mem p hq)

end Fill

/-! ### The units -/

section Units

variable {units : List ℕ} {t : ℕ} {l : List ℕ}

/-- The bets fill the units from below. -/
lemma getD_fill (units : List ℕ) (b k : ℕ) (hk : k < units.length) :
    (((Showdown.fill units b)[k]?).join).getD 0 = min (b - (units.take k).sum) units[k] := by
  induction units generalizing b k with
  | nil => simp at hk
  | cons u units ih =>
    cases k with
    | zero =>
      rw [Showdown.fill]
      split_ifs <;> simp <;> omega
    | succ k =>
      rw [List.length_cons] at hk
      rw [Showdown.fill, List.take_succ_cons, List.sum_cons, List.getElem_cons_succ]
      split_ifs <;> rw [List.getElem?_cons_succ, ih _ _ (by omega)] <;> omega

/-- All units together. -/
lemma sum_fill (units : List ℕ) (b : ℕ) :
    ((Showdown.fill units b).map fun a => a.getD 0).sum = min b units.sum := by
  induction units generalizing b with
  | nil => simp [Showdown.fill]
  | cons u units ih =>
    rw [Showdown.fill, List.sum_cons]
    split_ifs <;> rw [List.map_cons, List.sum_cons, ih] <;> simp only [Option.getD_some,
      Option.getD_none] <;> omega

lemma length_betUnits (t : ℕ) (l : List ℕ) : (Showdown.betUnits t l).length = l.length := by
  induction l generalizing t with
  | nil => rfl
  | cons x l ih => rw [Showdown.betUnits, List.length_cons, List.length_cons, ih]

lemma getElem_betUnits (t : ℕ) (l : List ℕ) {k : ℕ} (hk : k < l.length)
    (hku : k < (Showdown.betUnits t l).length) :
    (Showdown.betUnits t l)[k] = l[k] - (t :: l).get ⟨k, hk.trans (Nat.lt_succ_self _)⟩ := by
  induction l generalizing t k with
  | nil => simp at hk
  | cons x l ih =>
    cases k with
    | zero => rfl
    | succ k => exact ih x (by simpa using hk) (by simpa [Showdown.betUnits] using hku)

/-- The units up to a level are the level. -/
lemma sum_take_betUnits (hl : (t :: l).Pairwise (· ≤ ·)) {k : ℕ} (hk : k < (t :: l).length) :
    ((Showdown.betUnits t l).take k).sum = (t :: l)[k] - t := by
  induction l generalizing t k with
  | nil =>
    obtain rfl : k = 0 := by simpa using hk
    simp
  | cons x l ih =>
    cases k with
    | zero => simp
    | succ k =>
      obtain ⟨ht, hl⟩ := List.pairwise_cons.mp hl
      have hx : t ≤ x := ht x List.mem_cons_self
      have hk' : k < (x :: l).length := by simpa using hk
      have hxk : x ≤ (x :: l)[k] := by
        cases k with
        | zero => exact le_refl x
        | succ k => exact (List.pairwise_cons.mp hl).1 _ (List.getElem_mem _)
      rw [Showdown.betUnits, List.take_succ_cons, List.sum_cons, ih hl hk',
        List.getElem_cons_succ]
      omega

/-- The loop of `GameStart` makes these units. -/
lemma map_betUnit_makePots (hl : (t :: l).Pairwise (· ≤ ·)) (i : ℕ) :
    (makePots i t l : List (PotInfo n)).map PotInfo.betUnit = Showdown.betUnits t l := by
  induction l generalizing t i with
  | nil => rfl
  | cons x l ih =>
    obtain ⟨ht, hl⟩ := List.pairwise_cons.mp hl
    have hx : t + (x - t) = x := Nat.add_sub_cancel' (ht x List.mem_cons_self)
    rw [makePots, List.map_cons, hx, ih hl, Showdown.betUnits]

lemma map_potIndex_makePots (i t : ℕ) (l : List ℕ) :
    (makePots i t l : List (PotInfo n)).map PotInfo.potIndex = List.range' i l.length := by
  induction l generalizing t i with
  | nil => rfl
  | cons x l ih => rw [makePots, List.map_cons, ih, List.length_cons, List.range'_succ]

end Units

/-- The sorted distinct initial chips. -/
def chipLevels (initialChips : Fin n → ℕ) : List ℕ := (univ.image initialChips).sort (· ≤ ·)

lemma initChips_eq (initialChips : Fin n → ℕ) :
    initChips initialChips = chipLevels initialChips := by
  have hloop : ∀ (ps : List (Fin n)) (acc : List ℕ), acc.Nodup →
      (ps.foldl (fun initChips p => if initChips.contains (initialChips p) then initChips
        else initChips ++ [initialChips p]) acc).Nodup ∧
      ∀ x, x ∈ ps.foldl (fun initChips p => if initChips.contains (initialChips p) then initChips
        else initChips ++ [initialChips p]) acc ↔ x ∈ acc ∨ ∃ p ∈ ps, initialChips p = x := by
    intro ps
    induction ps with
    | nil => simp
    | cons p ps ih =>
      intro acc hacc
      rw [List.foldl_cons]
      by_cases hmem : initialChips p ∈ acc
      · rw [if_pos (List.contains_iff_mem.mpr hmem)]
        refine ⟨(ih acc hacc).1, fun x => ?_⟩
        rw [(ih acc hacc).2]
        simp only [List.mem_cons, exists_eq_or_imp]
        constructor
        · tauto
        · rintro (h | rfl | h)
          · exact .inl h
          · exact .inl hmem
          · exact .inr h
      · rw [if_neg (mt List.contains_iff_mem.mp hmem)]
        have hacc' : (acc ++ [initialChips p]).Nodup := by
          refine List.nodup_append.mpr ⟨hacc, List.nodup_singleton _, ?_⟩
          rintro x hx y hy rfl
          exact hmem (List.mem_singleton.mp hy ▸ hx)
        refine ⟨(ih _ hacc').1, fun x => ?_⟩
        rw [(ih _ hacc').2]
        simp only [List.mem_append, List.mem_cons, List.not_mem_nil, false_or, exists_eq_or_imp,
          or_assoc, @eq_comm _ x]
  obtain ⟨hnodup, hmem⟩ := hloop (List.finRange n) [] List.nodup_nil
  refine List.Perm.eq_of_pairwise' (r := (· ≤ ·)) ?_ (pairwise_sort _ _) ?_
  · exact List.pairwise_insertionSort _ _
  · refine (List.perm_ext_iff_of_nodup ?_ (sort_nodup _ _)).mpr fun x => ?_
    · exact (List.perm_insertionSort _ _).nodup_iff.mpr hnodup
    · rw [initChips, List.mem_insertionSort, hmem, mem_sort]
      simp

/-! ### A call of `calcPotInfo` -/

section Call

variable {pots : List (PotInfo n)} {bet : Fin n → ℕ}

lemma map_foldl_putBets {β : Type*} (f : PotInfo n → β)
    (hf : ∀ (p : Fin n) (b : ℕ) (pots : List (PotInfo n)), (putBets p b pots).map f = pots.map f)
    (bet : Fin n → ℕ) (ps : List (Fin n)) (pots : List (PotInfo n)) :
    (ps.foldl (fun pots p => putBets p (bet p) pots) pots).map f = pots.map f := by
  induction ps generalizing pots with
  | nil => rfl
  | cons p ps ih => rw [List.foldl_cons, ih, hf]

/-- A call keeps the units and the indices. -/
lemma map_betUnit_calcPotInfo (pots : List (PotInfo n)) (bet : Fin n → ℕ) :
    (calcPotInfo pots bet).1.map PotInfo.betUnit = pots.map PotInfo.betUnit := by
  rw [calcPotInfo, map_foldl_putBets _ (fun _ _ _ => map_betUnit_putBets), List.map_map]
  rfl

lemma map_potIndex_calcPotInfo (pots : List (PotInfo n)) (bet : Fin n → ℕ) :
    (calcPotInfo pots bet).1.map PotInfo.potIndex = pots.map PotInfo.potIndex := by
  rw [calcPotInfo, map_foldl_putBets _ (fun _ _ _ => map_potIndex_putBets), List.map_map]
  rfl

/-- What a call leaves in a pot: the part of every bet that belongs there, and nothing if the pot is
not enabled. -/
lemma calcPotInfo_spec {k : ℕ} {pot : PotInfo n} (h : (calcPotInfo pots bet).1[k]? = some pot) :
    (∀ i, pot.players i = ((Showdown.fill (pots.map PotInfo.betUnit) (bet i))[k]?).join) ∧
    (pot.enable = false → ∀ i, pot.players i = none) := by
  rw [calcPotInfo, getElem?_foldl_putBets, List.map_map, List.getElem?_map, Option.map_map] at h
  obtain ⟨old, -, rfl⟩ := Option.map_eq_some_iff.mp h
  have hplayers : ∀ i, ((List.finRange n).foldl (fun (pot : PotInfo n) p =>
      pot.add p ((Showdown.fill (pots.map PotInfo.betUnit) (bet p))[k]?).join)
      { old with players := fun _ => none }).players i =
      ((Showdown.fill (pots.map PotInfo.betUnit) (bet i))[k]?).join := fun i => by
    rw [players_foldl_add (fun p => ((Showdown.fill (pots.map PotInfo.betUnit) (bet p))[k]?).join) _
      (List.nodup_finRange n) (fun _ _ => rfl), if_pos (List.mem_finRange i)]
  refine ⟨hplayers, fun hoff i => ?_⟩
  exact (hplayers i).trans (amount_eq_none _ _ hoff i (List.mem_finRange i))

/-- The amount of a pot. -/
def PotInfo.total (pot : PotInfo n) : ℕ := ∑ i, (pot.players i).getD 0

/-- What is shown is the total of all pots. -/
lemma sum_enabled (pots : List (PotInfo n)) (h : ∀ pot ∈ pots, pot.enable = false → pot.total = 0) :
    (((pots.filter fun pot => pot.enable).map fun pot => (pot.potIndex, pot.total)).map
      Prod.snd).sum = (pots.map PotInfo.total).sum := by
  induction pots with
  | nil => rfl
  | cons pot pots ih =>
    have hrest := ih fun q hq => h q (List.mem_cons_of_mem pot hq)
    cases henable : pot.enable with
    | true =>
      rw [List.filter_cons_of_pos henable, List.map_cons, List.map_cons, List.sum_cons, hrest,
        List.map_cons, List.sum_cons]
    | false =>
      rw [List.filter_cons_of_neg (by simp [henable]), hrest, List.map_cons, List.sum_cons,
        h pot List.mem_cons_self henable, Nat.zero_add]

/-- What is shown for one pot. -/
lemma lookup_enabled (pots : List (PotInfo n)) (hnodup : (pots.map PotInfo.potIndex).Nodup)
    (h : ∀ pot ∈ pots, pot.enable = false → pot.total = 0) {pot : PotInfo n} (hpot : pot ∈ pots) :
    (((pots.filter fun pot => pot.enable).map fun pot => (pot.potIndex, pot.total)).lookup
      pot.potIndex).getD 0 = pot.total := by
  induction pots with
  | nil => cases hpot
  | cons q pots ih =>
    obtain ⟨hq, hnodup⟩ := List.nodup_cons.mp hnodup
    have hnone : ∀ l : List (PotInfo n), (∀ x ∈ l, x.potIndex ≠ q.potIndex) →
        (l.map fun pot => (pot.potIndex, pot.total)).lookup q.potIndex = none := by
      intro l hl
      refine List.lookup_eq_none_iff.mpr fun x hx => ?_
      obtain ⟨y, hy, rfl⟩ := List.mem_map.mp hx
      simpa using (hl y hy).symm
    have hother : ∀ x ∈ pots, x.potIndex ≠ q.potIndex := fun x hx heq =>
      hq (heq ▸ List.mem_map_of_mem hx)
    rcases List.mem_cons.mp hpot with rfl | hpot
    · cases henable : pot.enable with
      | true => rw [List.filter_cons_of_pos henable, List.map_cons, List.lookup_cons_self]; rfl
      | false =>
        rw [List.filter_cons_of_neg (by simp [henable]),
          hnone _ fun x hx => hother x (List.mem_filter.mp hx).1,
          h pot List.mem_cons_self henable]
        rfl
    · have hrest := ih hnodup (fun x hx => h x (List.mem_cons_of_mem q hx)) hpot
      cases henable : q.enable with
      | true =>
        have hne : (pot.potIndex == q.potIndex) = false := by simpa using hother pot hpot
        rw [List.filter_cons_of_pos henable, List.map_cons, List.lookup_cons, hne]
        exact hrest
      | false =>
        rw [List.filter_cons_of_neg (by simp [henable])]
        exact hrest

/-- All pots together hold what the bets fill of all units. -/
lemma sum_total (pots : List (PotInfo n)) (bet : Fin n → ℕ) :
    ((calcPotInfo pots bet).1.map PotInfo.total).sum =
      ∑ i, min (bet i) (pots.map PotInfo.betUnit).sum := by
  have hswap : ∀ l : List (PotInfo n), (l.map PotInfo.total).sum =
      ∑ i, (l.map fun pot => (pot.players i).getD 0).sum := by
    intro l
    induction l with
    | nil => simp
    | cons pot l ih =>
      simp only [List.map_cons, List.sum_cons, sum_add_distrib, ih]
      rfl
  rw [hswap]
  refine sum_congr rfl fun i _ => ?_
  rw [← sum_fill]
  congr 1
  have hlen : (calcPotInfo pots bet).1.length = pots.length := by
    rw [← List.length_map PotInfo.betUnit, map_betUnit_calcPotInfo, List.length_map]
  refine List.ext_getElem (by simp [hlen, length_fill]) fun k hk hk' => ?_
  rw [List.length_map] at hk hk'
  rw [List.getElem_map, List.getElem_map, (calcPotInfo_spec (List.getElem?_eq_getElem hk)).1 i,
    List.getElem?_eq_getElem hk', Option.join_some]

end Call

/-! ### The pots of a hand -/

/-- The state of the pots after some calls in a hand. -/
def potsAfter (initialChips : Fin n → ℕ) (calls : List (Fin n → ℕ)) : List (PotInfo n) :=
  calls.foldl (fun pots bet => (calcPotInfo pots bet).1) (gameStartPots initialChips)

lemma pairwise_chipLevels (initialChips : Fin n → ℕ) :
    (0 :: chipLevels initialChips).Pairwise (· ≤ ·) :=
  List.pairwise_cons.mpr ⟨fun _ _ => Nat.zero_le _, pairwise_sort _ _⟩

/-- The units and indices are those of the beginning. -/
lemma map_potsAfter (initialChips : Fin n → ℕ) (calls : List (Fin n → ℕ)) :
    (potsAfter initialChips calls).map PotInfo.betUnit =
      Showdown.betUnits 0 (chipLevels initialChips) ∧
    (potsAfter initialChips calls).map PotInfo.potIndex =
      List.range' 1 (chipLevels initialChips).length := by
  induction calls using List.reverseRecOn with
  | nil =>
    rw [potsAfter, List.foldl_nil, gameStartPots, initChips_eq]
    exact ⟨map_betUnit_makePots (pairwise_chipLevels _) 1, map_potIndex_makePots _ _ _⟩
  | append_singleton calls bet ih =>
    rw [potsAfter, List.foldl_append, List.foldl_cons, List.foldl_nil, map_betUnit_calcPotInfo,
      map_potIndex_calcPotInfo]
    exact ih

/-- **The pots are exact**: when no bet is larger than the chips the player began with, the amounts
shown after any earlier calls sum up to the bets, and each is what the bets have between two
successive initial amounts.

**Proof sketch.** A call keeps the units, empties the pots and lets every player fill them
(`calcPotInfo_spec`). A pot that is not enabled is empty, as putting something in enables it. The
units up to a pot are the initial amount below it (`sum_take_betUnits`). -/
theorem calcPotInfo_exact (initialChips : Fin n → ℕ) (calls : List (Fin n → ℕ))
    (getTotalBet : Fin n → ℕ) (h : ∀ i, getTotalBet i ≤ initialChips i) :
    (((calcPotInfo (potsAfter initialChips calls) getTotalBet).2.map Prod.snd).sum =
      ∑ i, getTotalBet i) ∧
    ∀ (k : ℕ) (hk : k < (chipLevels initialChips).length),
      ((calcPotInfo (potsAfter initialChips calls) getTotalBet).2.lookup (k + 1)).getD 0 =
        ∑ i, min
          (getTotalBet i - (0 :: chipLevels initialChips).get ⟨k, hk.trans (Nat.lt_succ_self _)⟩)
          ((chipLevels initialChips)[k] -
            (0 :: chipLevels initialChips).get ⟨k, hk.trans (Nat.lt_succ_self _)⟩) := by
  obtain ⟨hunits, hindex⟩ := map_potsAfter initialChips calls
  set pots := potsAfter initialChips calls
  have hempty : ∀ pot ∈ (calcPotInfo pots getTotalBet).1, pot.enable = false → pot.total = 0 := by
    intro pot hpot hoff
    obtain ⟨k, hk, rfl⟩ := List.getElem_of_mem hpot
    have hnone := (calcPotInfo_spec (List.getElem?_eq_getElem hk)).2 hoff
    simp [PotInfo.total, hnone]
  refine ⟨?_, fun k hk => ?_⟩
  · refine (sum_enabled _ hempty).trans ?_
    rw [sum_total, hunits]
    refine sum_congr rfl fun i _ => min_eq_left ?_
    -- the units sum up to the largest initial amount
    obtain ⟨k, hk, hki⟩ := List.getElem_of_mem (show initialChips i ∈ chipLevels initialChips by
      simp [chipLevels])
    have hsum := sum_take_betUnits (pairwise_chipLevels initialChips) (k := k + 1) (by
      rw [List.length_cons]
      omega)
    rw [List.getElem_cons_succ, hki, Nat.sub_zero] at hsum
    have hle := (List.take_sublist (k + 1) (Showdown.betUnits 0 (chipLevels initialChips))).sum_le_sum
      fun _ _ => Nat.zero_le _
    exact (h i).trans (hsum ▸ hle)
  · have hlen : (calcPotInfo pots getTotalBet).1.length = (chipLevels initialChips).length := by
      rw [← List.length_map PotInfo.betUnit, map_betUnit_calcPotInfo, hunits, length_betUnits]
    have hk' : k < (calcPotInfo pots getTotalBet).1.length := by omega
    have hkey : ((calcPotInfo pots getTotalBet).1[k]).potIndex = k + 1 := by
      have hmap : ((calcPotInfo pots getTotalBet).1.map PotInfo.potIndex)[k]? =
          (List.range' 1 (chipLevels initialChips).length)[k]? := by
        rw [map_potIndex_calcPotInfo, hindex]
      rw [List.getElem?_map, List.getElem?_eq_getElem hk', Option.map_some,
        List.getElem?_range' hk] at hmap
      have := Option.some.inj hmap
      omega
    have hnodup : ((calcPotInfo pots getTotalBet).1.map PotInfo.potIndex).Nodup := by
      rw [map_potIndex_calcPotInfo, hindex]
      exact List.nodup_range'
    have hlookup := lookup_enabled _ hnodup hempty (List.getElem_mem hk')
    rw [hkey] at hlookup
    refine hlookup.trans (sum_congr rfl fun i _ => ?_)
    have hku : k < (Showdown.betUnits 0 (chipLevels initialChips)).length := by
      rw [length_betUnits]
      exact hk
    rw [(calcPotInfo_spec (List.getElem?_eq_getElem hk')).1 i, hunits, getD_fill _ _ _ hku,
      sum_take_betUnits (pairwise_chipLevels initialChips) (by rw [List.length_cons]; omega),
      getElem_betUnits _ _ hk hku, Nat.sub_zero]
    rfl

/-- The pots of the unit test, after a call for the blinds: nobody has bet more than 2000. -/
theorem unitTest_pots :
    (((calcPotInfo (potsAfter ![1990, 2000, 2010] [![5, 10, 0]]) ![1990, 2000, 2000]).2.map
      Prod.snd).sum = ∑ i, ![1990, 2000, 2000] i) ∧
    (calcPotInfo (potsAfter ![1990, 2000, 2010] [![5, 10, 0]]) ![1990, 2000, 2000]).2 =
      [(1, 5970), (2, 20)] :=
  ⟨(calcPotInfo_exact ![1990, 2000, 2010] [![5, 10, 0]] ![1990, 2000, 2000] (by decide)).1,
    by decide +kernel⟩

/-- The pots that the settlement announces are those of the last call. -/
theorem calcPotInfo_players (t : Showdown n) (calls : List (Fin n → ℕ)) :
    (calcPotInfo (potsAfter (fun i => t.chips i + t.bet i) calls) t.bet).1.map PotInfo.players =
      t.betPot2 := by
  obtain ⟨hunits, -⟩ := map_potsAfter (fun i => t.chips i + t.bet i) calls
  have hpots : t.betPot2 = (List.range (Showdown.betUnits 0
      (chipLevels fun i => t.chips i + t.bet i)).length).map fun k i =>
        ((Showdown.fill (Showdown.betUnits 0 (chipLevels fun i => t.chips i + t.bet i))
          (t.bet i))[k]?).join := rfl
  rw [hpots]
  refine List.ext_getElem ?_ fun k hk hk' => ?_
  · rw [List.length_map, ← List.length_map PotInfo.betUnit, map_betUnit_calcPotInfo, hunits,
      List.length_map, List.length_range]
  · rw [List.length_map] at hk
    rw [List.getElem_map, List.getElem_map, List.getElem_range]
    funext i
    rw [(calcPotInfo_spec (List.getElem?_eq_getElem hk)).1 i, hunits]

end Texas
