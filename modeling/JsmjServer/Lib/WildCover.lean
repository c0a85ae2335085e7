import Mathlib.Algebra.BigOperators.Group.Multiset.Basic
import Mathlib.Data.Multiset.Bind
import Mathlib.Algebra.Order.Sub.Basic
import Mathlib.Tactic.Abel
import Mathlib.Tactic.Ring
import Mathlib.Data.Multiset.UnionInter
import Mathlib.Algebra.Order.BigOperators.Group.Multiset

set_option relaxedAutoImplicit false
set_option autoImplicit false

/-!
# Covering a multiset by blocks, with wild cards

A multiset `n` of natural pieces and `w` wild cards are to be divided completely into blocks:
exactly `k` blocks of a family `P` and any number of blocks of a family `M`. A wild card may
stand for any piece satisfying `ok`. The module gives the two facts a search for such a
division needs: a block can be put back, and some block through a given natural piece can be
taken off, always with as many natural pieces in it as there are.

## Main definitions

* `WildCover` — `n` and `w` wild cards divide into `k` blocks of `P` and blocks of `M`.

## Main results

* `WildCover.add_meld`, `WildCover.add_pair` — putting a block back.
* `WildCover.exists_block` — taking off a block through a given natural piece, greedily.
* `WildCover.zero_of_card` — dividing wild cards alone.
* `WildCover.card_eq` — the number of pieces that can be divided.
* `WildCover.succ_iff` — a wild card more and a natural piece more.
* `WildCover.countP_mod` — the number of pieces of one kind.

## Design

The multiset equation `n + W = ps.sum + ms.sum` does not say which copies of a piece are
natural. Taking off a block `b` as `n - b` uses the natural copies first, so that a wild card
is spent on a piece of `b` only when no natural copy of it is left. This is what makes the
skipped alternatives of a greedy search harmless.
-/

variable {α : Type*}

/-- The natural pieces `n` and `w` wild cards, each standing for a piece satisfying `ok`,
divide into `k` blocks of `P` and any number of blocks of `M`. -/
def WildCover (ok : α → Prop) (P M : Set (Multiset α)) (k : ℕ) (n : Multiset α) (w : ℕ) : Prop :=
  ∃ (W : Multiset α) (ps ms : Multiset (Multiset α)), W.card = w ∧ (∀ t ∈ W, ok t) ∧
    ps.card = k ∧ (∀ b ∈ ps, b ∈ P) ∧ (∀ b ∈ ms, b ∈ M) ∧ n + W = ps.sum + ms.sum

namespace WildCover

variable {ok : α → Prop} {P M : Set (Multiset α)} {k w : ℕ} {n : Multiset α}

/-- A block of `M` made of the natural pieces `N` and the wild cards `V` may be put back. -/
lemma add_meld {N V : Multiset α} (h : WildCover ok P M k n w) (hb : N + V ∈ M)
    (hV : ∀ t ∈ V, ok t) : WildCover ok P M k (N + n) (V.card + w) := by
  obtain ⟨W, ps, ms, hW, hok, hk, hP, hM, he⟩ := h
  refine ⟨V + W, ps, (N + V) ::ₘ ms, by simp [hW], ?_, hk, hP, ?_, ?_⟩
  · intro t ht
    rcases Multiset.mem_add.mp ht with h' | h'
    · exact hV t h'
    · exact hok t h'
  · intro b hb'
    rcases Multiset.mem_cons.mp hb' with rfl | h'
    · exact hb
    · exact hM b h'
  · rw [Multiset.sum_cons, add_add_add_comm, he]
    abel

/-- A block of `P` made of the natural pieces `N` and the wild cards `V` may be put back; one
more block of `P` is then needed. -/
lemma add_pair {N V : Multiset α} (h : WildCover ok P M k n w) (hb : N + V ∈ P)
    (hV : ∀ t ∈ V, ok t) : WildCover ok P M (k + 1) (N + n) (V.card + w) := by
  obtain ⟨W, ps, ms, hW, hok, hk, hP, hM, he⟩ := h
  refine ⟨V + W, (N + V) ::ₘ ps, ms, by simp [hW], ?_, by simp [hk], ?_, hM, ?_⟩
  · intro t ht
    rcases Multiset.mem_add.mp ht with h' | h'
    · exact hV t h'
    · exact hok t h'
  · intro b hb'
    rcases Multiset.mem_cons.mp hb' with rfl | h'
    · exact hb
    · exact hP b h'
  · rw [Multiset.sum_cons, add_add_add_comm, he]
    abel

/-- Wild cards alone divide into `k` blocks of `P` and `m` of `M`, when one block of each is
made of admissible pieces. -/
lemma zero_of_card {p q : Multiset α} (hp : p ∈ P) (hq : q ∈ M) (hpo : ∀ t ∈ p, ok t)
    (hqo : ∀ t ∈ q, ok t) (m : ℕ) : WildCover ok P M k 0 (k * p.card + m * q.card) := by
  refine ⟨k • p + m • q, Multiset.replicate k p, Multiset.replicate m q, by simp, ?_, by simp,
    ?_, ?_, by simp⟩
  · intro t ht
    rcases Multiset.mem_add.mp ht with h' | h'
    · exact hpo t (Multiset.mem_of_mem_nsmul h')
    · exact hqo t (Multiset.mem_of_mem_nsmul h')
  · intro b hb
    rwa [Multiset.eq_of_mem_replicate hb]
  · intro b hb
    rwa [Multiset.eq_of_mem_replicate hb]

/-- Blocks of one size add up to a multiple of it. -/
lemma card_sum_of_forall {bs : Multiset (Multiset α)} {m : ℕ} (h : ∀ b ∈ bs, b.card = m) :
    bs.sum.card = bs.card * m := by
  induction bs using Multiset.induction with
  | empty => simp
  | cons b bs ih =>
    rw [Multiset.sum_cons, Multiset.card_add, Multiset.card_cons, h b (Multiset.mem_cons_self b bs),
      ih fun c hc => h c (Multiset.mem_cons_of_mem hc)]
    ring

/-- The number of pieces divided, when the blocks of each family have one size. -/
lemma card_eq {p m : ℕ} (h : WildCover ok P M k n w) (hp : ∀ b ∈ P, b.card = p)
    (hm : ∀ b ∈ M, b.card = m) : ∃ j, n.card + w = k * p + j * m := by
  obtain ⟨W, ps, ms, rfl, -, rfl, hP, hM, he⟩ := h
  refine ⟨ms.card, ?_⟩
  rw [← Multiset.card_add, he, Multiset.card_add,
    card_sum_of_forall fun b hb => hp b (hP b hb), card_sum_of_forall fun b hb => hm b (hM b hb)]

/-- One more wild card is as good as some natural piece more. -/
lemma succ_iff : WildCover ok P M k n (w + 1) ↔ ∃ t, ok t ∧ WildCover ok P M k (t ::ₘ n) w := by
  constructor
  · rintro ⟨W, ps, ms, hW, hok, hk, hP, hM, he⟩
    obtain ⟨t, ht⟩ := Multiset.exists_mem_of_ne_zero (fun h0 : W = 0 => by simp [h0] at hW)
    obtain ⟨V, rfl⟩ := Multiset.exists_cons_of_mem ht
    refine ⟨t, hok t ht, V, ps, ms, by simpa using hW,
      fun x hx => hok x (Multiset.mem_cons_of_mem hx), hk, hP, hM, ?_⟩
    rw [Multiset.cons_add, ← Multiset.add_cons, he]
  · rintro ⟨t, ht, V, ps, ms, hV, hok, hk, hP, hM, he⟩
    refine ⟨t ::ₘ V, ps, ms, by simp [hV], fun x hx => ?_, hk, hP, hM, ?_⟩
    · rcases Multiset.mem_cons.mp hx with rfl | hx
      · exact ht
      · exact hok x hx
    · rw [Multiset.add_cons, ← Multiset.cons_add, he]

/-- Pieces of a kind that each block has a multiple of. -/
lemma countP_sum_mod {q : α → Prop} [DecidablePred q] {m : ℕ} {bs : Multiset (Multiset α)}
    (h : ∀ b ∈ bs, b.countP q % m = 0) : bs.sum.countP q % m = 0 := by
  induction bs using Multiset.induction with
  | empty => simp
  | cons b bs ih =>
    rw [Multiset.sum_cons, Multiset.countP_add, Nat.add_mod, h b (Multiset.mem_cons_self b bs),
      ih fun c hc => h c (Multiset.mem_cons_of_mem hc), Nat.add_zero, Nat.zero_mod]

/-- Without wild cards, the pieces of a kind that each block of `M` has a multiple of are, up to
such multiples, those of the block of `P`. -/
lemma countP_mod {q : α → Prop} [DecidablePred q] {m : ℕ} (h : WildCover ok P M 1 n 0)
    (hm : ∀ b ∈ M, b.countP q % m = 0) : ∃ b ∈ P, n.countP q % m = b.countP q % m := by
  obtain ⟨W, ps, ms, hW, -, hk, hP, hM, he⟩ := h
  obtain ⟨b, rfl⟩ := Multiset.card_eq_one.mp hk
  refine ⟨b, hP b (Multiset.mem_singleton_self b), ?_⟩
  rw [Multiset.card_eq_zero.mp hW, add_zero, Multiset.sum_singleton] at he
  rw [he, Multiset.countP_add, Nat.add_mod, countP_sum_mod fun c hc => hm c (hM c hc),
    Nat.add_zero, Nat.mod_mod]

variable [DecidableEq α]

/-- If `b + R` are the pieces of `n` and `W` together, the pieces of `b` missing in `n` are
among the wild cards, and `R` is what is left of both. -/
lemma sub_add_sub {b R W : Multiset α} (he : n + W = b + R) :
    b - n ≤ W ∧ (n - b) + (W - (b - n)) = R := by
  have hle : b - n ≤ W := by
    rw [tsub_le_iff_left, he]
    exact Multiset.le_add_right b R
  refine ⟨hle, ?_⟩
  ext t
  have ht := congrArg (Multiset.count t) he
  have hc := Multiset.le_iff_count.mp hle t
  simp only [Multiset.count_add, Multiset.count_sub] at ht hc ⊢
  omega

/-- **Taking off a block**: in a division of `n` and `w` wild cards every natural piece `a`
lies in some block `b`, and dividing what remains after taking `b` off, its natural pieces
first, is possible again.

**Proof sketch.** `a` occurs in one of the blocks of the sum. Split that block off the sum and
apply `sub_add_sub` to the remaining pieces. -/
lemma exists_block {a : α} (h : WildCover ok P M k n w) (ha : a ∈ n) :
    (∃ b ∈ M, a ∈ b ∧ ∃ w', w = (b - n).card + w' ∧ WildCover ok P M k (n - b) w') ∨
    (∃ b ∈ P, a ∈ b ∧ ∃ w' k', w = (b - n).card + w' ∧ k = k' + 1 ∧
      WildCover ok P M k' (n - b) w') := by
  obtain ⟨W, ps, ms, hW, hok, hk, hP, hM, he⟩ := h
  have hrest : ∀ {b : Multiset α}, b - n ≤ W →
      w = (b - n).card + (W - (b - n)).card ∧ ∀ t ∈ W - (b - n), ok t := by
    intro b hle
    refine ⟨?_, fun t ht => hok t (Multiset.mem_of_le (Multiset.sub_le_self _ _) ht)⟩
    rw [Multiset.card_sub hle, ← hW]
    have := Multiset.card_le_card hle
    omega
  have hmem : a ∈ ps.sum + ms.sum := he ▸ Multiset.mem_add.mpr (Or.inl ha)
  rcases Multiset.mem_add.mp hmem with hs | hs
  · right
    obtain ⟨b, hb, hab⟩ := Multiset.mem_join.mp hs
    obtain ⟨ps', rfl⟩ := Multiset.exists_cons_of_mem hb
    rw [Multiset.sum_cons, add_assoc] at he
    obtain ⟨hle, heq⟩ := sub_add_sub he
    obtain ⟨hw, hok'⟩ := hrest hle
    refine ⟨b, hP b hb, hab, _, ps'.card, hw, ?_, W - (b - n), ps', ms, rfl, hok', rfl, ?_, hM,
      heq⟩
    · simpa using hk.symm
    · exact fun c hc => hP c (Multiset.mem_cons_of_mem hc)
  · left
    obtain ⟨b, hb, hab⟩ := Multiset.mem_join.mp hs
    obtain ⟨ms', rfl⟩ := Multiset.exists_cons_of_mem hb
    rw [Multiset.sum_cons, add_left_comm] at he
    obtain ⟨hle, heq⟩ := sub_add_sub he
    obtain ⟨hw, hok'⟩ := hrest hle
    refine ⟨b, hM b hb, hab, _, hw, W - (b - n), ps, ms', rfl, hok', hk, hP, ?_, heq⟩
    exact fun c hc => hM c (Multiset.mem_cons_of_mem hc)

end WildCover
