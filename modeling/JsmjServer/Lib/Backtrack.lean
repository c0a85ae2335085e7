import Mathlib.Data.List.Basic

set_option relaxedAutoImplicit false
set_option autoImplicit false

/-!
# Backtracking over a mutable state

A search procedure that changes a state, calls itself, and undoes the change when the call
fails. One alternative is a `Backtrack.Step`; `Backtrack.tryAll` tries a list of them in order.

## Main definitions

* `Backtrack.Step` — a guarded change of the state together with its inverse.
* `Backtrack.tryAll` — try the alternatives in order, undoing each one that fails.

## Main results

* `Backtrack.tryAll_iff` — the search succeeds iff some applicable alternative does.
* `Backtrack.exists_of_tryAll` — a search that succeeds ends as one of its alternatives does.
* `Backtrack.tryAll_restores` — a search that fails leaves the state as it was.
-/

namespace Backtrack

variable {σ : Type*}

/-- One alternative of a backtracking search: it applies when `guard` holds, `take` makes the
change and `undo` reverts it. -/
structure Step (σ : Type*) where
  /-- When the alternative is tried. -/
  guard : σ → Bool
  /-- The change made before the recursive call. -/
  take : σ → σ
  /-- The change made after a failed recursive call. -/
  undo : σ → σ

/-- The alternative reverts itself in the state `s`, if it applies there. -/
def Step.Reversible (c : Step σ) (s : σ) : Prop := c.guard s = true → c.undo (c.take s) = s

/-- A procedure that leaves the state as it was when it fails. -/
def Restores (rec : σ → Bool × σ) (s : σ) : Prop := (rec s).1 = false → (rec s).2 = s

/-- Try the alternatives in order: make the change, call `rec`, and undo the change when the
call fails. -/
def tryAll (rec : σ → Bool × σ) : List (Step σ) → σ → Bool × σ
  | [], s => (false, s)
  | c :: cs, s =>
    if c.guard s then
      let r := rec (c.take s)
      if r.1 then r else tryAll rec cs (c.undo r.2)
    else tryAll rec cs s

variable {rec : σ → Bool × σ} {s : σ}

/-- A failed alternative passes the unchanged state on to the next ones. -/
lemma tryAll_cons_of_fails {c : Step σ} {cs : List (Step σ)} (hc : c.Reversible s)
    (hr : c.guard s = true → Restores rec (c.take s))
    (hf : c.guard s = true → (rec (c.take s)).1 = false) :
    tryAll rec (c :: cs) s = tryAll rec cs s := by
  rw [tryAll]
  split_ifs with hg
  · have hs : c.undo (rec (c.take s)).2 = s := by rw [hr hg (hf hg), hc hg]
    simp [hf hg, hs]
  · rfl

/-- A successful alternative ends the search. -/
lemma tryAll_cons_of_succeeds {c : Step σ} {cs : List (Step σ)} (hg : c.guard s = true)
    (ht : (rec (c.take s)).1 = true) : tryAll rec (c :: cs) s = rec (c.take s) := by
  simp [tryAll, hg, ht]

/-- The search succeeds iff some applicable alternative succeeds from the initial state.

**Proof sketch.** Induction on the list. If the first alternative fails, the state it hands on
is the initial one (`tryAll_cons_of_fails`), so the remaining alternatives are tried from the
same state. -/
lemma tryAll_iff {cs : List (Step σ)} (hc : ∀ c ∈ cs, c.Reversible s)
    (hr : ∀ c ∈ cs, c.guard s = true → Restores rec (c.take s)) :
    (tryAll rec cs s).1 = true ↔ ∃ c ∈ cs, c.guard s = true ∧ (rec (c.take s)).1 = true := by
  induction cs with
  | nil => simp [tryAll]
  | cons c cs ih =>
    have ih' := ih (fun d hd => hc d (List.mem_cons_of_mem c hd))
      (fun d hd => hr d (List.mem_cons_of_mem c hd))
    by_cases h : c.guard s = true ∧ (rec (c.take s)).1 = true
    · rw [tryAll_cons_of_succeeds h.1 h.2]
      exact ⟨fun _ => ⟨c, List.mem_cons_self, h⟩, fun _ => h.2⟩
    · have hf : c.guard s = true → (rec (c.take s)).1 = false := fun hg => by
        simpa using fun ht => h ⟨hg, ht⟩
      rw [tryAll_cons_of_fails (hc c List.mem_cons_self) (hr c List.mem_cons_self) hf, ih']
      constructor
      · rintro ⟨d, hd, hds⟩
        exact ⟨d, List.mem_cons_of_mem c hd, hds⟩
      · rintro ⟨d, hd, hds⟩
        rcases List.mem_cons.mp hd with rfl | hd'
        · exact absurd hds h
        · exact ⟨d, hd', hds⟩

/-- A search that succeeds ends in the state in which the alternative that succeeded ends. -/
lemma exists_of_tryAll {cs : List (Step σ)} (hc : ∀ c ∈ cs, c.Reversible s)
    (hr : ∀ c ∈ cs, c.guard s = true → Restores rec (c.take s))
    (h : (tryAll rec cs s).1 = true) :
    ∃ c ∈ cs, c.guard s = true ∧ (rec (c.take s)).1 = true ∧ tryAll rec cs s = rec (c.take s) := by
  induction cs with
  | nil => simp [tryAll] at h
  | cons c cs ih =>
    by_cases hs : c.guard s = true ∧ (rec (c.take s)).1 = true
    · exact ⟨c, List.mem_cons_self, hs.1, hs.2, tryAll_cons_of_succeeds hs.1 hs.2⟩
    · have hf : c.guard s = true → (rec (c.take s)).1 = false := fun hg => by
        simpa using fun ht => hs ⟨hg, ht⟩
      rw [tryAll_cons_of_fails (hc c List.mem_cons_self) (hr c List.mem_cons_self) hf] at h ⊢
      obtain ⟨d, hd, hds⟩ := ih (fun d hd => hc d (List.mem_cons_of_mem c hd))
        (fun d hd => hr d (List.mem_cons_of_mem c hd)) h
      exact ⟨d, List.mem_cons_of_mem c hd, hds⟩

/-- A search all of whose alternatives restore the state restores it when it fails. -/
lemma tryAll_restores {cs : List (Step σ)} (hc : ∀ c ∈ cs, c.Reversible s)
    (hr : ∀ c ∈ cs, c.guard s = true → Restores rec (c.take s)) : Restores (tryAll rec cs) s := by
  induction cs with
  | nil => exact fun _ => rfl
  | cons c cs ih =>
    intro hfail
    by_cases h : c.guard s = true ∧ (rec (c.take s)).1 = true
    · rw [tryAll_cons_of_succeeds h.1 h.2, h.2] at hfail
      exact absurd hfail (by decide)
    · have hf : c.guard s = true → (rec (c.take s)).1 = false := fun hg => by
        simpa using fun ht => h ⟨hg, ht⟩
      rw [tryAll_cons_of_fails (hc c List.mem_cons_self) (hr c List.mem_cons_self) hf]
        at hfail ⊢
      exact ih (fun d hd => hc d (List.mem_cons_of_mem c hd))
        (fun d hd => hr d (List.mem_cons_of_mem c hd)) hfail

end Backtrack
