import Mathlib.Data.List.Basic
import Mathlib.Logic.Function.Basic

set_option relaxedAutoImplicit false
set_option autoImplicit false

/-!
# Things filed in lists

Things are kept in many lists, each thing in the list that a function of the thing says. When the
function changes, the things in one of the lists are taken out and filed anew; where the function
did not change for the others, all the lists are then as if everything had been filed by the new
function, each in the order in which the things came.

## Main definitions

* `Filing.file` — the lists of things that came in some order.
* `Filing.add` — one more thing.
* `Filing.refile` — the things of one list are filed anew.

## Main results

* `Filing.file_append` — a thing that comes is added.
* `Filing.update_file` — a list that is emptied.
* `Filing.refile_file` — filing one list anew.
-/

namespace Filing

variable {κ α : Type*} [DecidableEq κ]

/-- The lists of things that came in the order of `items`, each filed under its place. -/
def file (place : α → κ) (items : List α) (k : κ) : List α := items.filter (place · = k)

/-- A thing is put behind those in its place. -/
def add (place : α → κ) (lists : κ → List α) (x : α) : κ → List α :=
  Function.update lists (place x) (lists (place x) ++ [x])

/-- A list is taken out, and its things are added one after the other. -/
def refile (place : α → κ) (lists : κ → List α) (k : κ) : κ → List α :=
  (lists k).foldl (add place) (Function.update lists k [])

variable {place place' : α → κ} {items : List α}

lemma file_append (place : α → κ) (items : List α) (x : α) :
    file place (items ++ [x]) = add place (file place items) x := by
  funext k
  by_cases hk : k = place x
  · subst hk
    simp [file, add]
  · simp [file, add, Function.update_of_ne hk, Ne.symm hk]

/-- Emptying a list takes away the things in its place. -/
lemma update_file (place : α → κ) (items : List α) (k : κ) :
    Function.update (file place items) k [] = file place (items.filter (place · ≠ k)) := by
  funext k'
  by_cases hk : k' = k
  · subst hk
    simp [file]
  · rw [Function.update_of_ne hk, file, file, List.filter_filter]
    refine List.filter_congr fun x _ => ?_
    by_cases hx : place x = k'
    · simp [hx, hk]
    · simp [hx]

lemma foldl_add (place : α → κ) (xs : List α) (lists : κ → List α) (k : κ) :
    xs.foldl (add place) lists k = lists k ++ xs.filter (place · = k) := by
  induction xs generalizing lists with
  | nil => simp
  | cons x xs ih =>
    rw [List.foldl_cons, ih, List.filter_cons]
    by_cases hk : place x = k
    · simp [add, hk]
    · simp [add, hk, Function.update_of_ne (Ne.symm hk)]

/-- Filing one list anew is enough when the places of the things in the other lists are the same,
and no thing of this list comes to one of the others. -/
lemma refile_file {k : κ} (hsame : ∀ x ∈ items, place x ≠ k → place' x = place x)
    (hother : ∀ x ∈ items, place x = k → ∀ y ∈ items, place y ≠ k → place' x ≠ place y) :
    refile place' (file place items) k = file place' items := by
  funext k'
  rw [refile, foldl_add, file, List.filter_filter]
  by_cases hk : k' = k
  · subst hk
    rw [Function.update_self, List.nil_append, file]
    refine List.filter_congr fun x hx => ?_
    by_cases hplace : place x = k'
    · simp [hplace]
    · simp [hsame x hx hplace, hplace]
  · rw [Function.update_of_ne hk]
    -- either nothing comes to this list, or there was nothing in it
    by_cases hcomes : ∃ x ∈ items, place x = k ∧ place' x = k'
    · obtain ⟨x, hx, hplace, hplace'⟩ := hcomes
      have hempty : file place items k' = [] := by
        refine List.filter_eq_nil_iff.mpr fun y hy => ?_
        have hne : place y ≠ k' := by
          rintro heq
          exact hother x hx hplace y hy (by rw [heq]; exact hk) (by rw [hplace', heq])
        simpa using hne
      rw [hempty, List.nil_append, file]
      refine List.filter_congr fun y hy => ?_
      by_cases hplace : place y = k
      · simp [hplace]
      · have hne : place y ≠ k' := by
          rintro heq
          exact hother x hx ‹place x = k› y hy hplace (by rw [hplace', heq])
        simp [hsame y hy hplace, hne]
    · have hnone : items.filter (fun x => decide (place' x = k') && decide (place x = k)) = [] := by
        refine List.filter_eq_nil_iff.mpr fun x hx => ?_
        simpa using fun hplace' hplace => hcomes ⟨x, hx, hplace, hplace'⟩
      rw [hnone, List.append_nil, file, file]
      refine List.filter_congr fun x hx => ?_
      by_cases hplace : place x = k
      · have hne : place' x ≠ k' := fun heq => hcomes ⟨x, hx, hplace, heq⟩
        simp [hplace, Ne.symm hk, hne]
      · simp [hsame x hx hplace]

end Filing
