import Mathlib.Data.List.AList
import Mathlib.Data.Finset.Card
import Mathlib.Order.Interval.Finset.Nat

set_option relaxedAutoImplicit false
set_option autoImplicit false

/-!
# Tables with values of one type

Association lists without duplicate keys whose values all have one type: what a key is mapped to
after an insertion or a removal, and a bound on the number of keys of a table that maps different
keys to different numbers of an interval.

## Main results

* `Tables.lookup_insert_eq_some`, `Tables.lookup_erase_eq_some` — the values after an update.
* `Tables.length_keys_le` — a table that is injective into `1, …, n` has at most `n` keys.
-/

namespace Tables

variable {α β : Type} [DecidableEq α]

lemma mem_iff_lookup (t : AList fun _ : α => β) (a : α) : a ∈ t ↔ ∃ b, t.lookup a = some b := by
  rw [← AList.lookup_isSome, Option.isSome_iff_exists]

lemma lookup_insert_eq_some (t : AList fun _ : α => β) (a c : α) (b d : β) :
    (t.insert a b).lookup c = some d ↔ (c = a ∧ b = d) ∨ (c ≠ a ∧ t.lookup c = some d) := by
  by_cases h : c = a
  · subst h
    simp [AList.lookup_insert]
  · simp [AList.lookup_insert_ne h, h]

lemma lookup_erase_eq_some (t : AList fun _ : α => β) (a c : α) (d : β) :
    (t.erase a).lookup c = some d ↔ c ≠ a ∧ t.lookup c = some d := by
  by_cases h : c = a
  · subst h
    simp [AList.lookup_erase]
  · simp [AList.lookup_erase_ne h, h]

lemma mem_entries_iff (t : AList fun _ : α => β) (a : α) (b : β) :
    (⟨a, b⟩ : Sigma fun _ : α => β) ∈ t.entries ↔ t.lookup a = some b := by
  rw [← AList.mem_lookup_iff, Option.mem_def]

/-- A list without duplicates of keys that are mapped to different numbers of `1, …, n` has at most
`n` elements. -/
lemma length_le_of_injective {t : AList fun _ : α => ℕ} {n : ℕ} {l : List α} (hl : l.Nodup)
    (hkeys : ∀ a ∈ l, a ∈ t)
    (hinj : ∀ a b p, t.lookup a = some p → t.lookup b = some p → a = b)
    (hrange : ∀ a p, t.lookup a = some p → 1 ≤ p ∧ p ≤ n) : l.length ≤ n := by
  have hval : ∀ a ∈ l, t.lookup a = some ((t.lookup a).getD 0) := by
    intro a ha
    obtain ⟨p, hp⟩ := (mem_iff_lookup t a).mp (hkeys a ha)
    rw [hp]
    rfl
  have hcard : l.toFinset.card ≤ (Finset.Icc 1 n).card := by
    refine Finset.card_le_card_of_injOn (fun a => (t.lookup a).getD 0) ?_ ?_
    · intro a ha
      have hp := hrange a _ (hval a (List.mem_toFinset.mp ha))
      exact Finset.mem_coe.mpr (Finset.mem_Icc.mpr hp)
    · intro a ha b hb hab
      refine hinj a b _ (hval a (List.mem_toFinset.mp ha)) ?_
      rw [show (t.lookup a).getD 0 = (t.lookup b).getD 0 from hab]
      exact hval b (List.mem_toFinset.mp hb)
  rwa [List.toFinset_card_of_nodup hl, Nat.card_Icc, Nat.add_sub_cancel] at hcard

lemma length_keys_le {t : AList fun _ : α => ℕ} {n : ℕ}
    (hinj : ∀ a b p, t.lookup a = some p → t.lookup b = some p → a = b)
    (hrange : ∀ a p, t.lookup a = some p → 1 ≤ p ∧ p ≤ n) : t.keys.length ≤ n := by
  apply length_le_of_injective t.keys_nodup _ hinj hrange
  intro a ha
  exact AList.mem_keys.mpr ha

end Tables
