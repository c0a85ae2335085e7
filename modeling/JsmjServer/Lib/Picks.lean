import Mathlib.Data.List.Lex
import Mathlib.Data.List.Nodup
import Mathlib.Order.Basic
import Mathlib.Algebra.Order.Ring.Nat
import Mathlib.Order.Lattice

set_option relaxedAutoImplicit false
set_option autoImplicit false

/-!
# Greedy picks

From values that are available a number of times each, a pattern of multiplicities asks for one
value after the other, the first as often as its first entry says, and so on. Picking the largest
possible value every time gives the largest list of values in the lexicographic order, and where
the multiplicities decrease it succeeds whenever some list of different values fits the pattern.

## Main definitions

* `Picks.Fits` — different values that are available as often as the pattern says.
* `Picks.Greedy` — the values of the greedy choice.

## Main results

* `Picks.Fits.le` — no list that fits is larger than the greedy one.
* `Picks.Fits.rest` — after a greedy pick the rest of the pattern still has a list that fits.
* `Picks.le_take` — the largest values of a descending list.
-/

namespace Picks

variable {α : Type*} [LinearOrder α] {c : α → ℕ} {k : ℕ} {p : List ℕ} {v u : α} {vs w : List α}

/-- The values are different, and each is available as often as the pattern says. -/
structure Fits (c : α → ℕ) (p : List ℕ) (w : List α) : Prop where
  enough : List.Forall₂ (fun k x => k ≤ c x) p w
  nodup : w.Nodup

/-- The values left after `k` of the value `v` are taken. -/
def take (c : α → ℕ) (k : ℕ) (v : α) : α → ℕ := Function.update c v (c v - k)

/-- The greedy choice: always the largest value that is available often enough. -/
inductive Greedy : (α → ℕ) → List ℕ → List α → Prop
  | nil (c : α → ℕ) : Greedy c [] []
  | cons {c : α → ℕ} {k : ℕ} {p : List ℕ} {v : α} {vs : List α} : k ≤ c v →
      (∀ u, k ≤ c u → u ≤ v) → Greedy (take c k v) p vs → Greedy c (k :: p) (v :: vs)

lemma take_self (c : α → ℕ) (k : ℕ) (v : α) : take c k v v = c v - k := Function.update_self ..

lemma take_of_ne (h : u ≠ v) : take c k v u = c u := Function.update_of_ne h ..

lemma take_le (c : α → ℕ) (k : ℕ) (v u : α) : take c k v u ≤ c u := by
  rcases eq_or_ne u v with rfl | h
  · rw [take_self]
    exact Nat.sub_le ..
  · exact (take_of_ne h).le

lemma cons_le_cons {a b : α} {l m : List α} (h : a < b ∨ a = b ∧ l ≤ m) : a :: l ≤ b :: m := by
  rcases h with h | ⟨rfl, h⟩
  · exact le_of_lt (List.cons_lt_cons_iff.mpr (.inl h))
  · rcases h.lt_or_eq with h | rfl
    · exact le_of_lt (List.cons_lt_cons_iff.mpr (.inr ⟨rfl, h⟩))
    · exact le_rfl

/-- Values other than `v` fit also when some of the value `v` are taken. -/
lemma Fits.take (h : Fits c p w) (hv : v ∉ w) : Fits (take c k v) p w := by
  refine ⟨?_, h.nodup⟩
  refine (List.forall₂_iff_get.mpr ⟨h.enough.length_eq, fun i h₁ h₂ => ?_⟩)
  have hne : w.get ⟨i, h₂⟩ ≠ v := fun heq => hv (heq ▸ List.get_mem w ⟨i, h₂⟩)
  rw [take_of_ne hne]
  exact (List.forall₂_iff_get.mp h.enough).2 i h₁ h₂

/-- No list of different values that fits the pattern is larger than the greedy one.

**Proof sketch.** By induction on the greedy choice. Its first value is at least the one of the
list. Where these agree, the other values of the list are still available, since they are
different. -/
lemma Fits.le (hw : Fits c p w) (hv : Greedy c p vs) : w ≤ vs := by
  induction hv generalizing w with
  | nil => rw [List.forall₂_nil_left_iff.mp hw.enough]
  | cons hk hmax _ ih =>
    obtain ⟨enough, nodup⟩ := hw
    cases enough with
    | cons hu henough =>
      obtain ⟨hnot, nodup⟩ := List.nodup_cons.mp nodup
      rcases (hmax _ hu).lt_or_eq with hlt | rfl
      · exact cons_le_cons (.inl hlt)
      · exact cons_le_cons (.inr ⟨rfl, ih (Fits.take ⟨henough, nodup⟩ hnot)⟩)

/-- After a pick of any value the rest of a decreasing pattern still has a list that fits: the value
that was picked is exchanged for the first one. -/
lemma Fits.rest (hw : Fits c (k :: p) w) (hp : ∀ j ∈ p, j ≤ k) (v : α) :
    ∃ w', Fits (Picks.take c k v) p w' := by
  obtain ⟨enough, nodup⟩ := hw
  cases enough with
  | @cons _ x _ ws hx henough =>
    obtain ⟨hnot, nodup⟩ := List.nodup_cons.mp nodup
    by_cases hv : v ∈ ws
    · have hne : x ≠ v := fun h => hnot (h ▸ hv)
      refine ⟨ws.map fun y => if y = v then x else y, ?_, ?_⟩
      · rw [List.forall₂_map_right_iff]
        refine List.forall₂_iff_get.mpr ⟨henough.length_eq, fun i h₁ h₂ => ?_⟩
        have henough := (List.forall₂_iff_get.mp henough).2 i h₁ h₂
        split_ifs with hy
        · rw [take_of_ne hne]
          exact (hp _ (List.get_mem ..)).trans hx
        · rwa [take_of_ne hy]
      · refine nodup.map_on fun y hy z hz heq => ?_
        split_ifs at heq with h₁ h₂ h₂
        · rw [h₁, h₂]
        · exact absurd (heq ▸ hz) hnot
        · exact absurd (heq ▸ hy) hnot
        · exact heq
    · exact ⟨ws, Fits.take ⟨henough, nodup⟩ hv⟩

/-- A value that is not available is not picked. -/
lemma Greedy.not_mem (h : Greedy c p vs) (hp : ∀ j ∈ p, 0 < j) (hu : c u = 0) : u ∉ vs := by
  induction h with
  | nil => exact List.not_mem_nil
  | @cons c k p v vs hk _ _ ih =>
    intro hmem
    rcases List.mem_cons.mp hmem with rfl | hmem
    · have := hp k List.mem_cons_self
      omega
    · have := take_le c k v u
      exact ih (fun j hj => hp j (List.mem_cons_of_mem _ hj)) (by omega) hmem

/-- The values of which no more are available than are picked are picked once. -/
lemma Greedy.nodup_cons (h : Greedy (take c k v) p vs) (hp : ∀ j ∈ p, 0 < j) (hv : c v ≤ k)
    (hvs : vs.Nodup) : (v :: vs).Nodup := by
  refine List.nodup_cons.mpr ⟨h.not_mem hp ?_, hvs⟩
  rw [take_self]
  omega

/-- Values that are available once are picked once. -/
lemma Greedy.nodup (h : Greedy c p vs) (hp : ∀ j ∈ p, 0 < j) (hc : ∀ u, c u ≤ 1) : vs.Nodup := by
  induction h with
  | nil => exact List.nodup_nil
  | @cons c k p v vs hk _ hrest ih =>
    have hk' := hp k List.mem_cons_self
    have hp' : ∀ j ∈ p, 0 < j := fun j hj => hp j (List.mem_cons_of_mem _ hj)
    refine hrest.nodup_cons hp' ((hc v).trans hk') (ih hp' fun u => ?_)
    exact (take_le c k v u).trans (hc u)

/-- As many of every value as the pattern says. -/
def spread {α : Type*} (p : List ℕ) (vs : List α) : List α :=
  (List.zipWith (fun k v => List.replicate k v) p vs).flatten

omit [LinearOrder α] in
lemma mem_of_mem_spread (h : u ∈ spread p vs) : u ∈ vs := by
  obtain ⟨l, hl, hu⟩ := List.mem_flatten.mp h
  obtain ⟨i, hi, rfl⟩ := List.mem_iff_getElem.mp hl
  rw [List.getElem_zipWith] at hu
  rw [(List.mem_replicate.mp hu).2]
  exact List.getElem_mem _

lemma Greedy.length_spread (h : Greedy c p vs) : (spread p vs).length = p.sum := by
  induction h with
  | nil => rfl
  | @cons c k p v vs _ _ _ ih =>
    have hcons : spread (k :: p) (v :: vs) = List.replicate k v ++ spread p vs := rfl
    rw [hcons, List.length_append, List.length_replicate, ih, List.sum_cons]

/-- The greedy values in their order: those that are picked more often first, the others from the
largest one down. Every value is there as often as it was picked. -/
lemma Greedy.spec (h : Greedy c p vs) (hp : p.Pairwise (· ≥ ·)) (hn : vs.Nodup) :
    (vs.Pairwise fun v u => (spread p vs).count u < (spread p vs).count v ∨
      (spread p vs).count v = (spread p vs).count u ∧ u < v) ∧
    vs.map (fun v => (spread p vs).count v) = p ∧ ∀ v ∈ vs, (spread p vs).count v ≤ c v := by
  induction h with
  | nil => simp
  | @cons c k p v vs hk hmax hrest ih =>
    obtain ⟨hle, hp⟩ := List.pairwise_cons.mp hp
    obtain ⟨hv, hn⟩ := List.nodup_cons.mp hn
    obtain ⟨horder, hcount, havail⟩ := ih hp hn
    have hcons : spread (k :: p) (v :: vs) = List.replicate k v ++ spread p vs := rfl
    have hself : (spread (k :: p) (v :: vs)).count v = k := by
      rw [hcons, List.count_append, List.count_replicate_self,
        List.count_eq_zero_of_not_mem fun hmem => hv (mem_of_mem_spread hmem), Nat.add_zero]
    have hother : ∀ u ∈ vs, (spread (k :: p) (v :: vs)).count u = (spread p vs).count u := by
      intro u hu
      have hne : v ≠ u := fun heq => hv (heq ▸ hu)
      rw [hcons, List.count_append, List.count_eq_zero_of_not_mem fun hmem =>
        hne (List.mem_replicate.mp hmem).2.symm, Nat.zero_add]
    have hat : ∀ u ∈ vs, (spread p vs).count u ≤ c u := fun u hu =>
      (havail u hu).trans (take_le c k v u)
    refine ⟨List.pairwise_cons.mpr ⟨fun u hu => ?_, ?_⟩, ?_, ?_⟩
    · rw [hself, hother u hu]
      have hmem := List.mem_map_of_mem (f := fun u => (spread p vs).count u) hu
      rw [hcount] at hmem
      rcases (hle _ hmem).lt_or_eq with hlt | heq
      · exact .inl hlt
      · refine .inr ⟨heq.symm, lt_of_le_of_ne (hmax u (heq ▸ hat u hu)) fun huv => hv (huv ▸ hu)⟩
    · refine horder.imp_of_mem fun hu hu' h => ?_
      rwa [hother _ hu, hother _ hu']
    · rw [List.map_cons, hself, List.map_congr_left hother, hcount]
    · intro u hu
      rcases List.mem_cons.mp hu with rfl | hu
      · rwa [hself]
      · rw [hother u hu]
        exact hat u hu

/-- Of two descending lists the first, whose values are among those of the second, is at most the
beginning of the second. -/
lemma le_take {l : List α} (hl : l.Pairwise (· > ·)) (hw : w.Pairwise (· > ·)) (h : w ⊆ l) :
    w ≤ l.take w.length := by
  induction w generalizing l with
  | nil => exact le_rfl
  | cons a w ih =>
    cases l with
    | nil => exact absurd (h List.mem_cons_self) List.not_mem_nil
    | cons b l =>
      obtain ⟨hb, hl'⟩ := List.pairwise_cons.mp hl
      obtain ⟨ha, hw⟩ := List.pairwise_cons.mp hw
      rw [List.length_cons, List.take_succ_cons]
      rcases List.mem_cons.mp (h List.mem_cons_self) with rfl | hmem
      · refine cons_le_cons (.inr ⟨rfl, ih hl' hw fun x hx => ?_⟩)
        rcases List.mem_cons.mp (h (List.mem_cons_of_mem _ hx)) with rfl | hx'
        · exact absurd (ha x hx) (lt_irrefl x)
        · exact hx'
      · exact cons_le_cons (.inl (hb a hmem))

end Picks
