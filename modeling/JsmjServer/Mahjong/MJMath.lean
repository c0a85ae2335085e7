import JsmjServer.Lib.WildCover
import JsmjServer.Lib.Backtrack
import JsmjServer.Mahjong.Const
import Mathlib.Algebra.BigOperators.Group.Finset.Piecewise
import Mathlib.Order.Interval.Finset.Nat
import Mathlib.Tactic.IntervalCases

set_option relaxedAutoImplicit false
set_option autoImplicit false

/-!
# The winning-hand recogniser

`MJMath:canHu` of `mj_core/MJMath.lua`: a backtracking search on a table of tile counts. Index
`0` of the table counts the wild cards, index `t` the natural copies of the tile `t`.

## Main definitions

* `Mahjong.MJMath.HuState` — what the search mutates: the count table and the pair tile.
* `Mahjong.MJMath.standerHu`, `Mahjong.MJMath.canHu` — the search and its entry point.
* `Mahjong.MJMath.Winning` — the specification: one pair and any number of triplets and runs.

## Main results

* `Mahjong.MJMath.standerHu_iff` — the search decides whether the table can be divided.
* `Mahjong.MJMath.standerHu_restores` — a failed search leaves the table as it was.
* `Mahjong.MJMath.canHu_iff_winning` — the recogniser is sound and complete.

## Design

The search always works on the lowest tile `idx` left and tries nine ways to take off a block
through it. Soundness puts the block back (`WildCover.add_meld`, `WildCover.add_pair`).
Completeness takes off the block through `idx` of a given division with its natural tiles first
(`WildCover.exists_block`); the block that is left after replacing wild cards by natural tiles is
always one of the nine.
-/

namespace Mahjong.MJMath

/-! ### The program -/

/-- The indices `1 .. #pai` of a count table. -/
def indices : List ℕ := List.range' 1 37

/-- The number of natural tiles of a count table. -/
def remain (pai : ℕ → ℕ) : ℕ := (indices.map pai).sum

/-- The lowest index holding a tile, `0` when there is none. -/
def getNotNone (pai : ℕ → ℕ) : ℕ := (indices.find? fun i => 0 < pai i).getD 0

/-- The loop of `standerHu` that looks for the lowest tile; `1` when there is none. -/
def lowest (pai : ℕ → ℕ) : ℕ := (indices.find? fun i => 0 < pai i).getD 1

/-- The pair tile `kMJAnyCard`: the pair consists of wild cards. -/
def kMJAnyCard : ℤ := -1

/-- What `standerHu` mutates: its argument `pai` and the field `self.jiang`. -/
structure HuState where
  /-- The count table. -/
  pai : ℕ → ℕ
  /-- The pair tile chosen so far, `kCardNull` when none is. -/
  jiang : ℤ

/-- The copies a block takes from the table: `own` at `idx`, `next` at `idx + 1`, `last` at
`idx + 2`, and `wild` wild cards. -/
structure Used where
  /-- Copies of the lowest tile. -/
  own : ℕ
  /-- Copies of the tile after it. -/
  next : ℕ
  /-- Copies of the tile two after it. -/
  last : ℕ
  /-- Wild cards. -/
  wild : ℕ

/-- The number of copies taken at each index. -/
def Used.at (u : Used) (idx i : ℕ) : ℕ :=
  if i = 0 then u.wild
  else if i = idx then u.own
  else if i = idx + 1 then u.next
  else if i = idx + 2 then u.last
  else 0

/-- One branch of `standerHu`: when `guard` holds, take the copies `u` off the table, call the
search, and put them back when it fails. A branch that takes the pair also records it. -/
def branch (idx : ℕ) (u : Used) (pair : Bool) (guard : HuState → Bool) :
    Backtrack.Step HuState where
  guard := guard
  take := fun s => ⟨fun i => s.pai i - u.at idx i, if pair then idx else s.jiang⟩
  undo := fun s => ⟨fun i => s.pai i + u.at idx i, if pair then kCardNull else s.jiang⟩

/-- The branches of `standerHu`, in the order of the source. The branch for two neighbouring
tiles and a wild card takes `idx + 1` when it is there and `idx + 2` only otherwise. -/
def branches (idx : ℕ) : List (Backtrack.Step HuState) :=
  [ branch idx ⟨3, 0, 0, 0⟩ false fun s => 3 ≤ s.pai idx,
    branch idx ⟨2, 0, 0, 0⟩ true fun s => 2 ≤ s.pai idx && s.jiang == kCardNull,
    branch idx ⟨1, 1, 1, 0⟩ false fun s =>
      idx < Zi1 && 0 < s.pai (idx + 1) && 0 < s.pai (idx + 2) && idx % 10 ≤ 7,
    branch idx ⟨2, 0, 0, 1⟩ false fun s => 2 ≤ s.pai idx && 0 < s.pai 0,
    branch idx ⟨1, 0, 0, 2⟩ false fun s => 1 ≤ s.pai idx && 2 ≤ s.pai 0,
    branch idx ⟨1, 1, 0, 1⟩ false fun s =>
      1 ≤ s.pai 0 && idx < Zi1 && idx % 10 ≤ 7 && 1 ≤ s.pai (idx + 1),
    branch idx ⟨1, 0, 1, 1⟩ false fun s =>
      1 ≤ s.pai 0 && idx < Zi1 && idx % 10 ≤ 7 && !(1 ≤ s.pai (idx + 1)) && 1 ≤ s.pai (idx + 2),
    branch idx ⟨1, 1, 0, 1⟩ false fun s =>
      1 ≤ s.pai 0 && idx < Zi1 && idx % 10 ≤ 8 && 1 ≤ s.pai (idx + 1),
    branch idx ⟨1, 0, 0, 1⟩ true fun s => 1 ≤ s.pai 0 && s.jiang == kCardNull ]

/-- `MJMath:standerHu`, with fuel for the depth of the recursion: whether the search succeeds,
and the state it leaves. -/
def standerHu : ℕ → HuState → Bool × HuState
  | 0, s => (false, s)
  | fuel + 1, s =>
    if remain s.pai = 0 then
      (true, if s.jiang = kCardNull then { s with jiang := kMJAnyCard } else s)
    else if remain s.pai = 1 ∧ s.pai 0 = 1 ∧ s.jiang = kCardNull ∧ getNotNone s.pai ≠ 0 then
      (true, { s with jiang := getNotNone s.pai })
    else Backtrack.tryAll (standerHu fuel) (branches (lowest s.pai)) s

/-- `MJMath:canHu`. Every call takes at least one tile off the table, so that `remain pai + 1`
calls are enough. -/
def canHu (pai : ℕ → ℕ) : Bool :=
  if (remain pai + pai 0) % 3 ≠ 2 then false
  else (standerHu (remain pai + 1) ⟨pai, kCardNull⟩).1

/-! ### The specification -/

/-- The first tile of a run of three tiles of one suit. -/
def IsRunStart (t : ℕ) : Prop := t < 30 ∧ 1 ≤ t % 10 ∧ t % 10 ≤ 7

/-- Pairs of equal tiles. -/
def pairs : Set (Multiset ℕ) := {b | ∃ t, IsTile t ∧ b = {t, t}}

/-- Triplets of equal tiles and runs of three tiles of one suit. -/
def melds : Set (Multiset ℕ) :=
  {b | (∃ t, IsTile t ∧ b = {t, t, t}) ∨ ∃ t, IsRunStart t ∧ b = {t, t + 1, t + 2}}

/-- The natural tiles `n` and `w` wild cards divide into one pair, triplets and runs. -/
def Winning (n : Multiset ℕ) (w : ℕ) : Prop := WildCover IsTile pairs melds 1 n w

/-- The natural tiles of a count table. -/
def tiles (pai : ℕ → ℕ) : Multiset ℕ :=
  ∑ t ∈ Finset.Icc 1 37, Multiset.replicate (pai t) t

/-- A count table as the callers of `canHu` build it: no tile has a byte divisible by ten. -/
structure CountMap where
  /-- The count at each index. -/
  pai : ℕ → ℕ
  /-- The indices that denote no tile are empty. -/
  gap : pai 10 = 0 ∧ pai 20 = 0 ∧ pai 30 = 0

/-! ### Count tables -/

/-- The copies of a tile among the tiles of a table. -/
lemma count_tiles (pai : ℕ → ℕ) (t : ℕ) :
    (tiles pai).count t = if 1 ≤ t ∧ t ≤ 37 then pai t else 0 := by
  simp only [tiles, Multiset.count_sum', Multiset.count_replicate]
  rw [Finset.sum_ite_eq']
  simp

/-- `remain` counts the tiles of a table. -/
lemma card_tiles (pai : ℕ → ℕ) : (tiles pai).card = remain pai := by
  simp only [tiles, Multiset.card_sum, Multiset.card_replicate, remain, indices]
  rw [Nat.Icc_eq_range']
  rfl

/-- What is left on a table after taking copies off. -/
lemma tiles_sub (pai q : ℕ → ℕ) : tiles (fun i => pai i - q i) = tiles pai - tiles q := by
  ext t
  simp only [Multiset.count_sub, count_tiles]
  split_ifs <;> omega

/-- The lowest tile of a table that is not empty. -/
lemma lowest_spec {pai : ℕ → ℕ} (h : remain pai ≠ 0) :
    1 ≤ lowest pai ∧ lowest pai ≤ 37 ∧ 0 < pai (lowest pai) ∧
      ∀ j, 1 ≤ j → j < lowest pai → pai j = 0 := by
  obtain ⟨i, hi⟩ : ∃ i, (indices.find? fun i => decide (0 < pai i)) = some i := by
    by_contra hnone
    rw [not_exists] at hnone
    have hfind := Option.eq_none_iff_forall_ne_some.mpr hnone
    rw [List.find?_eq_none] at hfind
    apply h
    rw [remain, List.sum_eq_zero_iff]
    intro x hx
    obtain ⟨i, hi, rfl⟩ := List.mem_map.mp hx
    have := hfind i hi
    simpa using this
  have hlow : lowest pai = i := by rw [lowest, hi, Option.getD_some]
  rw [indices, List.find?_range'_eq_some] at hi
  obtain ⟨hpos, hmem, hmin⟩ := hi
  rw [List.mem_range'_1] at hmem
  rw [hlow]
  refine ⟨hmem.1, by omega, by simpa using hpos, ?_⟩
  intro j h1 hj
  simpa using hmin j h1 hj

/-! ### One block -/

/-- The natural tiles of a block. -/
def Used.block (u : Used) (idx : ℕ) : Multiset ℕ :=
  Multiset.replicate u.own idx + Multiset.replicate u.next (idx + 1) +
    Multiset.replicate u.last (idx + 2)

/-- The block lies on the table: its indices are tiles and there are enough copies. -/
structure Used.Fits (u : Used) (idx : ℕ) (pai : ℕ → ℕ) : Prop where
  pos : 1 ≤ idx
  le : if u.next = 0 ∧ u.last = 0 then idx ≤ 37 else idx + 2 ≤ 37
  own : u.own ≤ pai idx
  next : u.next ≤ pai (idx + 1)
  last : u.last ≤ pai (idx + 2)
  wild : u.wild ≤ pai 0

variable {u : Used} {idx : ℕ} {pai : ℕ → ℕ}

lemma Used.Fits.at_le (h : u.Fits idx pai) (i : ℕ) : u.at idx i ≤ pai i := by
  have := h.own
  have := h.next
  have := h.last
  have := h.wild
  unfold Used.at
  split_ifs with h0 h1 h2 h3
  · rwa [h0]
  · rwa [h1]
  · rwa [h2]
  · rwa [h3]
  · exact Nat.zero_le _

lemma Used.Fits.tiles_at (h : u.Fits idx pai) : tiles (u.at idx) = u.block idx := by
  have hpos := h.pos
  have hle := h.le
  ext t
  simp only [count_tiles, Used.block, Multiset.count_add, Multiset.count_replicate, Used.at]
  split_ifs at hle ⊢ <;> omega

/-- Taking a block off a table leaves its tiles and wild cards without the block's. -/
lemma Used.Fits.tiles_take (h : u.Fits idx pai) :
    tiles pai = u.block idx + tiles (fun i => pai i - u.at idx i) := by
  rw [tiles_sub, h.tiles_at]
  refine (add_tsub_cancel_of_le ?_).symm
  rw [← h.tiles_at, Multiset.le_iff_count]
  intro t
  have := h.at_le t
  simp only [count_tiles]
  split_ifs <;> omega

/-- The same for the number of tiles. -/
lemma Used.Fits.remain_take (h : u.Fits idx pai) :
    remain pai = u.own + u.next + u.last + remain (fun i => pai i - u.at idx i) := by
  rw [← card_tiles, h.tiles_take, Multiset.card_add, card_tiles]
  simp [Used.block]

lemma Used.at_zero : u.at idx 0 = u.wild := by simp [Used.at]

/-- The natural tiles of a block `b` through the lowest tile: as many copies of each of its tiles
as the table has. -/
lemma inter_tiles {b : Multiset ℕ} (hpos : 1 ≤ idx) (hlow : ∀ j, 1 ≤ j → j < idx → pai j = 0)
    (hb : ∀ t ∈ b, t ≤ 37 ∧ t ≤ idx + 2) (hown : min (b.count idx) (pai idx) = u.own)
    (hnext : min (b.count (idx + 1)) (pai (idx + 1)) = u.next)
    (hlast : min (b.count (idx + 2)) (pai (idx + 2)) = u.last) :
    b ∩ tiles pai = u.block idx := by
  have habsent : ∀ t, ¬(t ≤ 37 ∧ t ≤ idx + 2) → b.count t = 0 := by
    intro t ht
    exact Multiset.count_eq_zero.mpr fun hmem => ht (hb t hmem)
  ext t
  simp only [Multiset.count_inter, count_tiles, Used.block, Multiset.count_add,
    Multiset.count_replicate]
  have ht := habsent t
  rcases lt_trichotomy t idx with h | rfl | h
  · have := hlow t
    split_ifs <;> omega
  · simp only [Nat.add_eq_left, one_ne_zero, OfNat.ofNat_ne_zero, if_true, if_false]
    split_ifs <;> omega
  · by_cases h1 : t = idx + 1
    · subst h1
      split_ifs <;> omega
    · by_cases h2 : t = idx + 2
      · subst h2
        split_ifs <;> omega
      · split_ifs <;> omega

/-- If the natural tiles of the block `b` are those `u` takes, `u` spends the wild cards the
block needs. -/
lemma Used.card_sub_tiles {b : Multiset ℕ} (hb : b ∩ tiles pai = u.block idx)
    (hcard : b.card = u.own + u.next + u.last + u.wild) : (b - tiles pai).card = u.wild := by
  have hsum := congrArg Multiset.card (Multiset.sub_add_inter b (tiles pai))
  rw [Multiset.card_add, hb, hcard] at hsum
  simp only [Used.block, Multiset.card_add, Multiset.card_replicate] at hsum
  omega

/-- If the natural tiles of the block `b` are those `u` takes, taking off `u` or `b` leaves the
same natural tiles. -/
lemma Used.Fits.tiles_take_eq {b : Multiset ℕ} (h : u.Fits idx pai)
    (hb : b ∩ tiles pai = u.block idx) :
    tiles (fun i => pai i - u.at idx i) = tiles pai - b := by
  rw [tiles_sub, h.tiles_at, ← hb]
  ext t
  simp only [Multiset.count_sub, Multiset.count_inter]
  omega

/-! ### The branches -/

/-- The pairs still to be found: none once the pair tile is chosen. -/
def need (s : HuState) : ℕ := if s.jiang = kCardNull then 1 else 0

/-- What the search decides: the table divides into the pairs still needed and melds. -/
def Covered (s : HuState) : Prop :=
  WildCover IsTile pairs melds (need s) (tiles s.pai) (s.pai 0)

/-- A table the search may meet: no tile at the gaps, and as many tiles and wild cards as whole
melds and the missing pair take. -/
def Sound (s : HuState) : Prop :=
  (s.pai 10 = 0 ∧ s.pai 20 = 0 ∧ s.pai 30 = 0) ∧ (remain s.pai + s.pai 0) % 3 = 2 * need s

/-- A branch taken in the state `s` takes a block: `u` fits on the table, and the wild cards it
spends complete it to a pair, where a pair is missing, or to a meld. -/
structure Takes (s : HuState) (idx : ℕ) (u : Used) (pair : Bool) : Prop where
  fits : u.Fits idx s.pai
  own : 1 ≤ u.own
  jiang : pair = true → s.jiang = kCardNull
  block : ∃ V : Multiset ℕ, V.card = u.wild ∧ (∀ t ∈ V, IsTile t) ∧
    u.block idx + V ∈ if pair then pairs else melds

lemma triplet_mem_melds {t : ℕ} (ht : IsTile t) : ({t, t, t} : Multiset ℕ) ∈ melds :=
  Or.inl ⟨t, ht, rfl⟩

lemma run_mem_melds {t : ℕ} (ht : IsRunStart t) : ({t, t + 1, t + 2} : Multiset ℕ) ∈ melds :=
  Or.inr ⟨t, ht, rfl⟩

lemma card_of_mem_pairs {b : Multiset ℕ} (hb : b ∈ pairs) : b.card = 2 := by
  obtain ⟨t, -, rfl⟩ := hb
  rfl

lemma card_of_mem_melds {b : Multiset ℕ} (hb : b ∈ melds) : b.card = 3 := by
  rcases hb with ⟨t, -, rfl⟩ | ⟨t, -, rfl⟩
  · rfl
  · rfl

/-- The tiles of a run are tiles. -/
lemma IsRunStart.isTile {t : ℕ} (ht : IsRunStart t) :
    IsTile t ∧ IsTile (t + 1) ∧ IsTile (t + 2) := by
  obtain ⟨h1, h2, h3⟩ := ht
  exact ⟨⟨by omega, by omega, by omega⟩, ⟨by omega, by omega, by omega⟩,
    ⟨by omega, by omega, by omega⟩⟩

/-- Every branch that is tried takes a block. -/
lemma branches_take {s : HuState} {c : Backtrack.Step HuState} (ht : IsTile idx)
    (hpos : 0 < s.pai idx) (hc : c ∈ branches idx) (hg : c.guard s = true) :
    ∃ u pair g, c = branch idx u pair g ∧ Takes s idx u pair := by
  obtain ⟨h1, h37, h10⟩ := id ht
  have hsuit : idx < Zi1 → idx ≤ 29 := by
    unfold Zi1
    omega
  simp only [branches, List.mem_cons, List.not_mem_nil, or_false] at hc
  rcases hc with rfl | rfl | rfl | rfl | rfl | rfl | rfl | rfl | rfl
  all_goals
    refine ⟨_, _, _, rfl, ?_⟩
    simp only [branch, Bool.and_eq_true, decide_eq_true_eq, beq_iff_eq, Bool.not_eq_true',
      decide_eq_false_iff_not] at hg
  · refine ⟨⟨h1, by simpa using h37, hg, by simp, by simp, by simp⟩, by simp, by simp, 0, rfl,
      by simp, ?_⟩
    exact Or.inl ⟨idx, ht, by simp [Used.block, Multiset.replicate_succ]⟩
  · refine ⟨⟨h1, by simpa using h37, hg.1, by simp, by simp, by simp⟩, by simp, fun _ => hg.2, 0,
      rfl, by simp, ?_⟩
    exact ⟨idx, ht, by simp [Used.block, Multiset.replicate_succ]⟩
  · obtain ⟨⟨⟨hz, hn⟩, hl⟩, h7⟩ := hg
    have hlt := hsuit hz
    refine ⟨⟨h1, by simp; omega, hpos, hn, hl, by simp⟩, by simp, by simp, 0, rfl, by simp, ?_⟩
    exact run_mem_melds ⟨by omega, by omega, h7⟩
  · refine ⟨⟨h1, by simpa using h37, hg.1, by simp, by simp, hg.2⟩, by simp, by simp, {idx}, rfl,
      by simpa using ht, ?_⟩
    exact triplet_mem_melds ht
  · refine ⟨⟨h1, by simpa using h37, hg.1, by simp, by simp, hg.2⟩, by simp, by simp, {idx, idx},
      rfl, by simpa using ht, ?_⟩
    exact triplet_mem_melds ht
  · obtain ⟨⟨⟨hw, hz⟩, h7⟩, hn⟩ := hg
    have hlt := hsuit hz
    have hrun : IsRunStart idx := ⟨by omega, by omega, h7⟩
    refine ⟨⟨h1, by simp; omega, hpos, hn, by simp, hw⟩, by simp, by simp, {idx + 2}, rfl,
      by simpa using hrun.isTile.2.2, ?_⟩
    exact run_mem_melds hrun
  · obtain ⟨⟨⟨⟨hw, hz⟩, h7⟩, -⟩, hl⟩ := hg
    have hlt := hsuit hz
    have hrun : IsRunStart idx := ⟨by omega, by omega, h7⟩
    refine ⟨⟨h1, by simp; omega, hpos, by simp, hl, hw⟩, by simp, by simp, {idx + 1}, rfl,
      by simpa using hrun.isTile.2.1, ?_⟩
    have hblock : Used.block ⟨1, 0, 1, 1⟩ idx + {idx + 1} = {idx, idx + 1, idx + 2} :=
      congrArg (idx ::ₘ ·) (Multiset.cons_swap (idx + 2) (idx + 1) 0)
    simpa only [Bool.false_eq_true, if_false, hblock] using run_mem_melds hrun
  · obtain ⟨⟨⟨hw, hz⟩, h8⟩, hn⟩ := hg
    have hlt := hsuit hz
    have hfits : Used.Fits ⟨1, 1, 0, 1⟩ idx s.pai := ⟨h1, by simp; omega, hpos, hn, by simp, hw⟩
    -- next to an eight the missing tile is the seven
    rcases Nat.lt_or_ge (idx % 10) 8 with h7 | h8'
    · have hrun : IsRunStart idx := ⟨by omega, by omega, by omega⟩
      exact ⟨hfits, by simp, by simp, {idx + 2}, rfl, by simpa using hrun.isTile.2.2,
        run_mem_melds hrun⟩
    · obtain ⟨t, rfl⟩ : ∃ t, idx = t + 1 := ⟨idx - 1, by omega⟩
      have hrun : IsRunStart t := ⟨by omega, by omega, by omega⟩
      refine ⟨hfits, by simp, by simp, {t}, rfl, by simpa using hrun.isTile.1, ?_⟩
      have hblock : Used.block ⟨1, 1, 0, 1⟩ (t + 1) + {t} = {t, t + 1, t + 2} := by
        rw [add_comm]
        rfl
      simpa only [Bool.false_eq_true, if_false, hblock] using run_mem_melds hrun
  · refine ⟨⟨h1, by simpa using h37, hpos, by simp, by simp, hg.1⟩, by simp, fun _ => hg.2, {idx},
      rfl, by simpa using ht, ?_⟩
    exact ⟨idx, ht, rfl⟩

section Branch

variable {s : HuState} {pair : Bool} {g : HuState → Bool}

lemma Takes.reversible (h : Takes s idx u pair) : (branch idx u pair g).Reversible s := by
  intro _
  have hpai : (fun i => s.pai i - u.at idx i + u.at idx i) = s.pai := by
    funext i
    exact Nat.sub_add_cancel (h.fits.at_le i)
  cases pair with
  | false => simp [branch, hpai]
  | true =>
    have hj := h.jiang rfl
    cases s with
    | mk pai jiang => simp_all [branch]

/-- A pair branch uses up the missing pair, the others leave it missing. -/
lemma Takes.need_take (h : Takes s idx u pair) :
    need s = need ((branch idx u pair g).take s) + if pair then 1 else 0 := by
  have hpos := h.fits.pos
  cases pair with
  | false => simp [need, branch]
  | true =>
    have hne : (idx : ℤ) ≠ kCardNull := by
      unfold kCardNull
      omega
    simp [need, branch, h.jiang rfl, hne]

/-- A division of what a branch leaves gives a division of the table. -/
lemma Takes.covered (h : Takes s idx u pair) (hc : Covered ((branch idx u pair g).take s)) :
    Covered s := by
  obtain ⟨V, hV, hok, hblock⟩ := h.block
  have hneed := h.need_take (g := g)
  have hpai : s.pai 0 = V.card + (s.pai 0 - u.at idx 0) := by
    have := h.fits.wild
    rw [Used.at_zero]
    omega
  unfold Covered at hc ⊢
  rw [h.fits.tiles_take, hpai, hneed]
  cases pair with
  | false => exact hc.add_meld hblock hok
  | true => exact hc.add_pair hblock hok

/-- A pair has two tiles and a meld has three. -/
lemma Takes.card (h : Takes s idx u pair) :
    u.own + u.next + u.last + u.wild = if pair then 2 else 3 := by
  obtain ⟨V, hV, -, hblock⟩ := h.block
  have hcard : (u.block idx + V).card = u.own + u.next + u.last + u.wild := by
    simp [Used.block, hV]
  rw [← hcard]
  cases pair with
  | false =>
    exact card_of_mem_melds hblock
  | true =>
    exact card_of_mem_pairs hblock

/-- A branch leaves a table the search may meet, with fewer tiles. -/
lemma Takes.sound (h : Takes s idx u pair) (hs : Sound s) :
    Sound ((branch idx u pair g).take s) ∧
      remain ((branch idx u pair g).take s).pai < remain s.pai := by
  have hremain : remain s.pai =
      u.own + u.next + u.last + remain ((branch idx u pair g).take s).pai := h.fits.remain_take
  have hzero : ((branch idx u pair g).take s).pai 0 = s.pai 0 - u.wild := by
    simp [branch, Used.at_zero]
  have hneed := h.need_take (g := g)
  have hcard := h.card
  have hown := h.own
  have hwild := h.fits.wild
  obtain ⟨⟨h10, h20, h30⟩, hmod⟩ := hs
  refine ⟨⟨by simp [branch, h10, h20, h30], ?_⟩, by omega⟩
  have hle : need s ≤ 1 := by
    unfold need
    split_ifs <;> omega
  rw [hzero]
  cases pair with
  | false =>
    simp only [Bool.false_eq_true, if_false] at hcard hneed
    omega
  | true =>
    simp only [if_true] at hcard hneed
    omega

end Branch

section Complete

variable {s : HuState} {k w' : ℕ}

/-- A block `b` of a division through the lowest tile is taken off by the branch that takes its
natural tiles. -/
lemma exists_branch_of_block {b : Multiset ℕ} {pair : Bool} {g : HuState → Bool}
    (own next last wild : ℕ) (hpos : 1 ≤ idx) (hlow : ∀ j, 1 ≤ j → j < idx → s.pai j = 0)
    (hb : ∀ t ∈ b, t ≤ 37 ∧ t ≤ idx + 2) (hw : s.pai 0 = (b - tiles s.pai).card + w')
    (hc : WildCover IsTile pairs melds k (tiles s.pai - b) w')
    (hle : if next = 0 ∧ last = 0 then idx ≤ 37 else idx + 2 ≤ 37)
    (hown : min (b.count idx) (s.pai idx) = own)
    (hnext : min (b.count (idx + 1)) (s.pai (idx + 1)) = next)
    (hlast : min (b.count (idx + 2)) (s.pai (idx + 2)) = last)
    (hcard : b.card = own + next + last + wild)
    (hk : need ((branch idx ⟨own, next, last, wild⟩ pair g).take s) = k)
    (hmem : branch idx ⟨own, next, last, wild⟩ pair g ∈ branches idx)
    (hg : Used.Fits ⟨own, next, last, wild⟩ idx s.pai → g s = true) :
    ∃ c ∈ branches idx, c.guard s = true ∧ Covered (c.take s) := by
  have hinter : b ∩ tiles s.pai = Used.block ⟨own, next, last, wild⟩ idx :=
    inter_tiles hpos hlow hb hown hnext hlast
  have hwild : (b - tiles s.pai).card = wild := Used.card_sub_tiles hinter hcard
  have hfits : Used.Fits ⟨own, next, last, wild⟩ idx s.pai :=
    ⟨hpos, hle, by simp only; omega, by simp only; omega, by simp only; omega,
      by simp only; omega⟩
  refine ⟨_, hmem, hg hfits, ?_⟩
  unfold Covered
  have hleft : ((branch idx ⟨own, next, last, wild⟩ pair g).take s).pai 0 = w' := by
    simp only [branch, Used.at_zero]
    omega
  rw [hk, hleft]
  simpa only [branch, hfits.tiles_take_eq hinter] using hc

/-- A triplet is taken off by the number of its natural tiles. -/
lemma exists_branch_triplet (ht : IsTile idx) (hpos : 0 < s.pai idx)
    (hlow : ∀ j, 1 ≤ j → j < idx → s.pai j = 0)
    (hw : s.pai 0 = (({idx, idx, idx} : Multiset ℕ) - tiles s.pai).card + w')
    (hc : WildCover IsTile pairs melds (need s) (tiles s.pai - {idx, idx, idx}) w') :
    ∃ c ∈ branches idx, c.guard s = true ∧ Covered (c.take s) := by
  obtain ⟨h1, h37, -⟩ := ht
  have hb : ∀ t ∈ ({idx, idx, idx} : Multiset ℕ), t ≤ 37 ∧ t ≤ idx + 2 := by
    intro t ht
    obtain rfl : t = idx := by simpa using ht
    omega
  have h0 : ({idx, idx, idx} : Multiset ℕ).count idx = 3 := by simp
  have hn : ({idx, idx, idx} : Multiset ℕ).count (idx + 1) = 0 := by simp
  have hl : ({idx, idx, idx} : Multiset ℕ).count (idx + 2) = 0 := by simp
  obtain h3 | h2 | h1' : 3 ≤ s.pai idx ∨ s.pai idx = 2 ∨ s.pai idx = 1 := by omega
  · refine exists_branch_of_block 3 0 0 0 h1 hlow hb hw hc (by simpa using h37) (by omega)
      (by omega) (by omega) rfl (by rfl) (.head _) ?_
    intro h
    simpa using h.own
  · refine exists_branch_of_block 2 0 0 1 h1 hlow hb hw hc (by simpa using h37) (by omega)
      (by omega) (by omega) rfl (by rfl) (.tail _ <| .tail _ <| .tail _ <| .head _) ?_
    intro h
    simpa using ⟨h.own, h.wild⟩
  · refine exists_branch_of_block 1 0 0 2 h1 hlow hb hw hc (by simpa using h37) (by omega)
      (by omega) (by omega) rfl (by rfl) (.tail _ <| .tail _ <| .tail _ <| .tail _ <| .head _) ?_
    intro h
    simpa using ⟨h.own, h.wild⟩

/-- A pair is taken off by the number of its natural tiles. -/
lemma exists_branch_pair (ht : IsTile idx) (hpos : 0 < s.pai idx)
    (hlow : ∀ j, 1 ≤ j → j < idx → s.pai j = 0)
    (hw : s.pai 0 = (({idx, idx} : Multiset ℕ) - tiles s.pai).card + w') (hk : need s = k + 1)
    (hc : WildCover IsTile pairs melds k (tiles s.pai - {idx, idx}) w') :
    ∃ c ∈ branches idx, c.guard s = true ∧ Covered (c.take s) := by
  obtain ⟨h1, h37, -⟩ := ht
  have hjiang : s.jiang = kCardNull := by
    by_contra hne
    simp [need, hne] at hk
  have hk0 : k = 0 := by
    simp only [need, hjiang, if_true] at hk
    omega
  subst hk0
  have hneed : ∀ u g, need ((branch idx u true g).take s) = 0 := by
    intro u g
    have hne : (idx : ℤ) ≠ kCardNull := by
      unfold kCardNull
      omega
    simp [need, branch, hne]
  have hb : ∀ t ∈ ({idx, idx} : Multiset ℕ), t ≤ 37 ∧ t ≤ idx + 2 := by
    intro t ht
    obtain rfl : t = idx := by simpa using ht
    omega
  have h0 : ({idx, idx} : Multiset ℕ).count idx = 2 := by simp
  have hn : ({idx, idx} : Multiset ℕ).count (idx + 1) = 0 := by simp
  have hl : ({idx, idx} : Multiset ℕ).count (idx + 2) = 0 := by simp
  obtain h2 | h1' : 2 ≤ s.pai idx ∨ s.pai idx = 1 := by omega
  · refine exists_branch_of_block 2 0 0 0 h1 hlow hb hw hc (by simpa using h37) (by omega)
      (by omega) (by omega) rfl (hneed _ _) (.tail _ <| .head _) ?_
    intro h
    simpa [hjiang] using h.own
  · refine exists_branch_of_block 1 0 0 1 h1 hlow hb hw hc (by simpa using h37) (by omega)
      (by omega) (by omega) rfl (hneed _ _) (List.mem_of_getLast? rfl) ?_
    intro h
    simpa [hjiang] using h.wild

/-- A run is taken off by which of its tiles are natural; the tiles below the lowest one are
wild cards. -/
lemma exists_branch_run {t : ℕ} (hrun : IsRunStart t) (hpos : 0 < s.pai idx)
    (hlow : ∀ j, 1 ≤ j → j < idx → s.pai j = 0) (hidx : idx = t ∨ idx = t + 1 ∨ idx = t + 2)
    (hw : s.pai 0 = (({t, t + 1, t + 2} : Multiset ℕ) - tiles s.pai).card + w')
    (hc : WildCover IsTile pairs melds (need s) (tiles s.pai - {t, t + 1, t + 2}) w') :
    ∃ c ∈ branches idx, c.guard s = true ∧ Covered (c.take s) := by
  obtain ⟨ht30, ht1, ht7⟩ := hrun
  have h1 : 1 ≤ idx := by omega
  have hz : t + 1 < Zi1 := by
    unfold Zi1
    omega
  have hb : ∀ i ∈ ({t, t + 1, t + 2} : Multiset ℕ), i ≤ 37 ∧ i ≤ idx + 2 := by
    intro i hi
    have : i = t ∨ i = t + 1 ∨ i = t + 2 := by simpa using hi
    omega
  have hcount : ∀ i, ({t, t + 1, t + 2} : Multiset ℕ).count i =
      if i = t ∨ i = t + 1 ∨ i = t + 2 then 1 else 0 := by
    intro i
    simp only [Multiset.insert_eq_cons, Multiset.count_cons, Multiset.count_singleton]
    split_ifs <;> omega
  have h0 := hcount idx
  have hn := hcount (idx + 1)
  have hl := hcount (idx + 2)
  -- two wild cards: the branch for a triplet takes the one natural tile
  have hone : min (({t, t + 1, t + 2} : Multiset ℕ).count (idx + 1)) (s.pai (idx + 1)) = 0 →
      min (({t, t + 1, t + 2} : Multiset ℕ).count (idx + 2)) (s.pai (idx + 2)) = 0 →
      ∃ c ∈ branches idx, c.guard s = true ∧ Covered (c.take s) := by
    intro hn0 hl0
    refine exists_branch_of_block 1 0 0 2 h1 hlow hb hw hc (by simp; omega) ?_ hn0 hl0 rfl
      (by rfl) (.tail _ <| .tail _ <| .tail _ <| .tail _ <| .head _) ?_
    · rw [if_pos hidx] at h0
      omega
    · intro h
      simpa using ⟨h.own, h.wild⟩
  rcases hidx with rfl | rfl | rfl
  · simp only [true_or, or_true, Nat.add_eq_left, one_ne_zero, if_pos] at h0 hn hl
    have hz := Nat.lt_of_succ_lt hz
    rcases Nat.eq_zero_or_pos (s.pai (idx + 1)) with hn0 | hn1
    · rcases Nat.eq_zero_or_pos (s.pai (idx + 2)) with hl0 | hl1
      · exact hone (by omega) (by omega)
      · refine exists_branch_of_block 1 0 1 1 h1 hlow hb hw hc (by simp; omega) (by omega)
          (by omega) (by omega) rfl (by rfl)
          (.tail _ <| .tail _ <| .tail _ <| .tail _ <| .tail _ <| .tail _ <| .head _) ?_
        intro h
        have hwild : 1 ≤ s.pai 0 := h.wild
        simp [hz]
        omega
    · rcases Nat.eq_zero_or_pos (s.pai (idx + 2)) with hl0 | hl1
      · refine exists_branch_of_block 1 1 0 1 h1 hlow hb hw hc (by simp; omega) (by omega)
          (by omega) (by omega) rfl (by rfl)
          (.tail _ <| .tail _ <| .tail _ <| .tail _ <| .tail _ <| .head _) ?_
        intro h
        have hwild : 1 ≤ s.pai 0 := h.wild
        simp [hz]
        omega
      · refine exists_branch_of_block 1 1 1 0 h1 hlow hb hw hc (by simp; omega) (by omega)
          (by omega) (by omega) rfl (by rfl) (.tail _ <| .tail _ <| .head _) ?_
        intro h
        simp [hz]
        omega
  · have hl0 : ({t, t + 1, t + 2} : Multiset ℕ).count (t + 1 + 2) = 0 := by
      rw [hl, if_neg (by omega)]
    rw [if_pos (by omega)] at h0 hn
    rcases Nat.eq_zero_or_pos (s.pai (t + 1 + 1)) with hn0 | hn1
    · exact hone (by omega) (by omega)
    · refine exists_branch_of_block 1 1 0 1 h1 hlow hb hw hc (by simp; omega) (by omega)
        (by omega) (by omega) rfl (by rfl)
        (.tail _ <| .tail _ <| .tail _ <| .tail _ <| .tail _ <| .tail _ <| .tail _ <| .head _) ?_
      intro h
      have hwild : 1 ≤ s.pai 0 := h.wild
      simp [hz]
      omega
  · rw [if_neg (by omega)] at hn hl
    exact hone (by omega) (by omega)

/-- **Completeness of the branches**: a table that divides has a branch through its lowest tile
that leaves a table that divides.

**Proof sketch.** Take off the block through the lowest tile, natural tiles first, and let its
shape and its natural tiles select the branch. -/
lemma exists_branch (ht : IsTile idx) (hpos : 0 < s.pai idx)
    (hlow : ∀ j, 1 ≤ j → j < idx → s.pai j = 0) (hc : Covered s) :
    ∃ c ∈ branches idx, c.guard s = true ∧ Covered (c.take s) := by
  have hmem : idx ∈ tiles s.pai := by
    rw [← Multiset.count_pos, count_tiles, if_pos ⟨ht.1, ht.2.1⟩]
    exact hpos
  rcases hc.exists_block hmem with ⟨b, hb, hib, w', hw, hcov⟩ | ⟨b, hb, hib, w', k', hw, hk, hcov⟩
  · rcases hb with ⟨t, -, rfl⟩ | ⟨t, hrun, rfl⟩
    · obtain rfl : idx = t := by simpa using hib
      exact exists_branch_triplet ht hpos hlow hw hcov
    · exact exists_branch_run hrun hpos hlow (by simpa using hib) hw hcov
  · obtain ⟨t, -, rfl⟩ := hb
    obtain rfl : idx = t := by simpa using hib
    exact exists_branch_pair ht hpos hlow hw hk hcov

end Complete

/-! ### The search -/

/-- The lowest tile of a table without tiles at the gaps is a tile. -/
lemma isTile_lowest {s : HuState} (hs : Sound s) (hr : remain s.pai ≠ 0) :
    IsTile (lowest s.pai) := by
  obtain ⟨h1, h37, hpos, -⟩ := lowest_spec hr
  obtain ⟨⟨h10, h20, h30⟩, -⟩ := hs
  refine ⟨h1, h37, ?_⟩
  intro hgap
  obtain h | h | h : lowest s.pai = 10 ∨ lowest s.pai = 20 ∨ lowest s.pai = 30 := by omega
  all_goals
    rw [h] at hpos
    omega

/-- A table without natural tiles divides: the wild cards form the missing pair and melds. -/
lemma covered_of_remain_eq_zero {s : HuState} (hs : Sound s) (hr : remain s.pai = 0) :
    Covered s := by
  have htile : IsTile 1 := by decide
  have hzero : tiles s.pai = 0 := by
    rw [← Multiset.card_eq_zero, card_tiles, hr]
  have hle : need s ≤ 1 := by
    unfold need
    split_ifs <;> omega
  obtain ⟨-, hmod⟩ := hs
  have hcard : s.pai 0 = need s * 2 + (s.pai 0 - 2 * need s) / 3 * 3 := by omega
  have hpair : ({1, 1} : Multiset ℕ) ∈ pairs := ⟨1, htile, rfl⟩
  unfold Covered
  rw [hzero, hcard]
  exact WildCover.zero_of_card hpair (triplet_mem_melds htile) (by simpa using htile)
    (by simpa using htile) _

/-- One natural tile and one wild card form the missing pair. -/
lemma covered_of_remain_eq_one {s : HuState} (hs : Sound s) (hr : remain s.pai = 1)
    (hw : s.pai 0 = 1) (hj : s.jiang = kCardNull) : Covered s := by
  have hne : remain s.pai ≠ 0 := by omega
  obtain ⟨-, -, hpos, -⟩ := lowest_spec hne
  obtain ⟨u, pair, g, -, htake⟩ := branches_take (isTile_lowest hs hne) hpos
    (List.mem_of_getLast? rfl) (by simp [branch, hw, hj])
  obtain ⟨hsound, hlt⟩ := htake.sound (g := g) hs
  exact htake.covered (g := g) (covered_of_remain_eq_zero hsound (by omega))

/-- A failed search leaves the table and the pair tile as they were. -/
lemma standerHu_restores (fuel : ℕ) (s : HuState) (hs : Sound s) :
    Backtrack.Restores (standerHu fuel) s := by
  induction fuel generalizing s with
  | zero => exact fun _ => rfl
  | succ fuel ih =>
    intro hfail
    rw [standerHu] at hfail ⊢
    split_ifs at hfail ⊢ with hr h1
    have ht := isTile_lowest hs hr
    obtain ⟨-, -, hpos, -⟩ := lowest_spec hr
    refine Backtrack.tryAll_restores ?_ ?_ hfail
    · intro c hc hg
      obtain ⟨u, pair, g, rfl, htake⟩ := branches_take ht hpos hc hg
      exact htake.reversible hg
    · intro c hc hg
      obtain ⟨u, pair, g, rfl, htake⟩ := branches_take ht hpos hc hg
      exact ih _ (htake.sound hs).1

/-- **The search decides**: with fuel for every natural tile it succeeds iff the table divides.

**Proof sketch.** Induction on the fuel. A branch that is tried takes a block, so that success of
its recursive call gives a division (`Takes.covered`); conversely a division has a branch leaving
a division (`exists_branch`). Failed branches restore the state, so that `Backtrack.tryAll`
succeeds iff some branch does. -/
lemma standerHu_iff (fuel : ℕ) (s : HuState) (hs : Sound s) (hfuel : remain s.pai < fuel) :
    (standerHu fuel s).1 = true ↔ Covered s := by
  induction fuel generalizing s with
  | zero => omega
  | succ fuel ih =>
    rw [standerHu]
    by_cases hr : remain s.pai = 0
    · rw [if_pos hr]
      exact iff_of_true rfl (covered_of_remain_eq_zero hs hr)
    rw [if_neg hr]
    split_ifs with h1
    · exact iff_of_true rfl (covered_of_remain_eq_one hs h1.1 h1.2.1 h1.2.2.1)
    · have ht := isTile_lowest hs hr
      obtain ⟨-, -, hpos, hlow⟩ := lowest_spec hr
      have hrec : ∀ c ∈ branches (lowest s.pai), c.guard s = true →
          ((standerHu fuel (c.take s)).1 = true ↔ Covered (c.take s)) := by
        intro c hc hg
        obtain ⟨u, pair, g, rfl, htake⟩ := branches_take ht hpos hc hg
        obtain ⟨hsound, hlt⟩ := htake.sound (g := g) hs
        exact ih _ hsound (by omega)
      rw [Backtrack.tryAll_iff]
      · constructor
        · rintro ⟨c, hc, hg, hrun⟩
          have hcov := (hrec c hc hg).mp hrun
          obtain ⟨u, pair, g, rfl, htake⟩ := branches_take ht hpos hc hg
          exact htake.covered hcov
        · intro hcov
          obtain ⟨c, hc, hg, hleft⟩ := exists_branch ht hpos hlow hcov
          exact ⟨c, hc, hg, (hrec c hc hg).mpr hleft⟩
      · intro c hc hg
        obtain ⟨u, pair, g, rfl, htake⟩ := branches_take ht hpos hc hg
        exact htake.reversible hg
      · intro c hc hg
        obtain ⟨u, pair, g, rfl, htake⟩ := branches_take ht hpos hc hg
        exact standerHu_restores fuel _ (htake.sound hs).1

/-- The number of tiles in one pair and melds. -/
lemma Winning.card_mod {n : Multiset ℕ} {w : ℕ} (h : Winning n w) : (n.card + w) % 3 = 2 := by
  obtain ⟨j, hj⟩ := h.card_eq (fun _ => card_of_mem_pairs) (fun _ => card_of_mem_melds)
  omega

/-- The recogniser on a table with empty gaps. -/
lemma canHu_iff {pai : ℕ → ℕ} (hgap : pai 10 = 0 ∧ pai 20 = 0 ∧ pai 30 = 0) :
    canHu pai = true ↔ Winning (tiles pai) (pai 0) := by
  unfold canHu
  split_ifs with hmod
  · refine iff_of_false (by simp) fun hwin => hmod ?_
    rw [← card_tiles]
    exact hwin.card_mod
  · have hs : Sound ⟨pai, kCardNull⟩ := ⟨hgap, by simpa [need] using hmod⟩
    rw [standerHu_iff _ _ hs (Nat.lt_succ_self _)]
    simp [Covered, Winning, need]

/-- **The winning-hand recogniser is sound and complete**: `canHu` accepts a count map iff its
natural tiles and wild cards divide into one pair and any number of triplets and runs. -/
theorem canHu_iff_winning (m : CountMap) :
    canHu m.pai = true ↔ Winning (tiles m.pai) (m.pai 0) :=
  canHu_iff m.gap

end Mahjong.MJMath
