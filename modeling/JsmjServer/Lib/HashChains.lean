import Mathlib.Data.List.Basic
import Mathlib.Logic.Function.Basic

set_option relaxedAutoImplicit false
set_option autoImplicit false

/-!
# Hash tables with chains

A table of chains of entries. The entries of a key are in the chain that its hash selects, together
with the entries of all keys of the same hash. A new entry is put in front of its chain; taking an
entry searches the chain for the key and unlinks the first entry found.

## Main definitions

* `HashChains` — a table of chains.
* `HashChains.values` — the values of a key, the last one put in first.
* `HashChains.take`, `HashChains.insert` — the operations.

## Main results

* `HashChains.take_fst`, `HashChains.values_take_self`, `HashChains.values_insert_self` — a key's
  values are a stack.
* `HashChains.values_take_of_ne`, `HashChains.values_insert_of_ne` — the other keys do not notice,
  of the same hash or not.
-/

/-- A table of `n` chains. -/
structure HashChains (κ ν : Type*) (n : ℕ) where
  chain : Fin n → List (κ × ν)

namespace HashChains

variable {κ ν : Type*} {n : ℕ} [DecidableEq κ]

/-- The table without entries. -/
def empty : HashChains κ ν n := ⟨fun _ => []⟩

variable (hash : κ → Fin n) (t : HashChains κ ν n) (k : κ)

/-- The values of a key. -/
def values : List ν := ((t.chain (hash k)).filter fun e => e.1 = k).map Prod.snd

/-- Search the chain of a key and unlink the first entry found. -/
def take : Option ν × HashChains κ ν n :=
  (((t.chain (hash k)).find? fun e => e.1 = k).map Prod.snd,
    ⟨Function.update t.chain (hash k) ((t.chain (hash k)).eraseP fun e => e.1 = k)⟩)

/-- Put an entry in front of its chain. -/
def insert (v : ν) : HashChains κ ν n :=
  ⟨Function.update t.chain (hash k) ((k, v) :: t.chain (hash k))⟩

@[simp] lemma values_empty : values hash (empty : HashChains κ ν n) k = [] := rfl

/-- What is taken is the value put in last. -/
lemma take_fst : (t.take hash k).1 = (t.values hash k).head? := by
  rw [take, values, List.head?_map, List.head?_filter]

/-- Without the first entry of a key the filter has lost its head. -/
lemma filter_eraseP (l : List (κ × ν)) :
    ((l.eraseP fun e => e.1 = k).filter fun e => e.1 = k) = (l.filter fun e => e.1 = k).tail := by
  induction l with
  | nil => rfl
  | cons e l ih =>
    by_cases he : e.1 = k
    · simp [he]
    · simp [he, ih]

/-- Unlinking an entry of a key leaves the entries of another. -/
lemma filter_eraseP_of_ne {k' : κ} (h : k' ≠ k) (l : List (κ × ν)) :
    ((l.eraseP fun e => e.1 = k).filter fun e => e.1 = k') = l.filter fun e => e.1 = k' := by
  induction l with
  | nil => rfl
  | cons e l ih =>
    by_cases he : e.1 = k
    · simp [he, Ne.symm h]
    · simp [he, List.filter_cons, ih]

lemma values_take_self : (t.take hash k).2.values hash k = (t.values hash k).tail := by
  simp only [take, values, Function.update_self, filter_eraseP, List.map_tail]

lemma values_insert_self (v : ν) : (t.insert hash k v).values hash k = v :: t.values hash k := by
  simp [insert, values]

variable {k}

lemma values_take_of_ne {k' : κ} (h : k' ≠ k) :
    (t.take hash k).2.values hash k' = t.values hash k' := by
  by_cases hh : hash k' = hash k
  · simp only [take, values, hh, Function.update_self, filter_eraseP_of_ne k h]
  · simp only [take, values, Function.update_of_ne hh]

lemma values_insert_of_ne {k' : κ} (h : k' ≠ k) (v : ν) :
    (t.insert hash k v).values hash k' = t.values hash k' := by
  by_cases hh : hash k' = hash k
  · simp [insert, values, hh, Ne.symm h]
  · simp only [insert, values, Function.update_of_ne hh]

end HashChains
