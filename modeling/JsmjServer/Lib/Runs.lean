import Mathlib.Data.List.Chain
import Mathlib.Logic.Basic
import Mathlib.Tactic.SplitIfs

set_option relaxedAutoImplicit false
set_option autoImplicit false

/-!
# Runs of a transition function

A system moves from state to state by a partial function of the state and an event. The module
gives the states reached by runs all of whose events are admissible where they occur, and the
rule by which an invariant is proved of them.

## Main definitions

* `Runs.Reaches` — reached from a state by admissible events.
* `Runs.exec` — the state after a list of events.
* `Runs.passes` — the events of a run, each with the state it meets.
* `Runs.Along` — a property of every event of a run in the state it meets.
* `Runs.outputs` — what a machine with outputs says in a run.

## Main results

* `Runs.Reaches.invariant` — an invariant of the initial state and of every step.
* `Runs.reaches_of_exec` — a computed run reaches its last state.
* `Runs.invariant_of_passes` — an invariant along a run all of whose events are admissible.
* `Runs.exists_foldlM` — when no step fails, no run fails.
* `Runs.isChain_scanl`, `Runs.foldl_filter` — from the steps of a total function to its runs.
* `Runs.along_congr` — when two properties hold of the same runs.
* `Runs.outputs_eq` — machines that simulate each other say the same.
-/

namespace Runs

variable {σ ε : Type*}

/-- The states reached from `s₀` by events that are admissible in the state they meet. -/
inductive Reaches (step : σ → ε → Option σ) (ok : σ → ε → Prop) (s₀ : σ) : σ → Prop
  | init : Reaches step ok s₀ s₀
  | step {s s' : σ} {e : ε} : Reaches step ok s₀ s → ok s e → step s e = some s' →
      Reaches step ok s₀ s'

/-- What holds initially and is preserved by every admissible step holds of every state
reached. -/
lemma Reaches.invariant {step : σ → ε → Option σ} {ok : σ → ε → Prop} {s₀ s : σ}
    {I : σ → Prop} (h : Reaches step ok s₀ s) (h₀ : I s₀)
    (hstep : ∀ s e s', I s → ok s e → step s e = some s' → I s') : I s := by
  induction h with
  | init => exact h₀
  | step _ hok hs ih => exact hstep _ _ _ ih hok hs

/-- When every step from a state with the invariant goes through and keeps it, every run does. -/
lemma exists_foldlM {step : σ → ε → Option σ} {I : σ → Prop} {es : List ε}
    (hstep : ∀ s, ∀ e ∈ es, I s → ∃ s', step s e = some s' ∧ I s') {s : σ} (h₀ : I s) :
    ∃ s', es.foldlM step s = some s' ∧ I s' := by
  induction es generalizing s with
  | nil => exact ⟨s, rfl, h₀⟩
  | cons e es ih =>
    obtain ⟨s₁, hs₁, h₁⟩ := hstep s e List.mem_cons_self h₀
    obtain ⟨s', hs', h'⟩ := ih (fun s e he => hstep s e (List.mem_cons_of_mem _ he)) h₁
    exact ⟨s', by rw [List.foldlM_cons, hs₁]; exact hs', h'⟩

/-- A run may be continued by another. -/
lemma Reaches.trans {step : σ → ε → Option σ} {ok : σ → ε → Prop} {s₀ s₁ s₂ : σ}
    (h₁ : Reaches step ok s₀ s₁) (h₂ : Reaches step ok s₁ s₂) : Reaches step ok s₀ s₂ := by
  induction h₂ with
  | init => exact h₁
  | step _ hok hs ih => exact ih.step hok hs

/-- The state after a list of events, when every event is admissible where it occurs. -/
def exec (step : σ → ε → Option σ) (ok : σ → ε → Prop) [∀ s e, Decidable (ok s e)] :
    σ → List ε → Option σ
  | s, [] => some s
  | s, e :: es => if ok s e then (step s e).bind fun s' => exec step ok s' es else none

/-- A computed run reaches its last state. -/
lemma reaches_of_exec {step : σ → ε → Option σ} {ok : σ → ε → Prop}
    [∀ s e, Decidable (ok s e)] {s₀ : σ} (es : List ε) {s s' : σ}
    (hs : Reaches step ok s₀ s) (h : exec step ok s es = some s') : Reaches step ok s₀ s' := by
  induction es generalizing s with
  | nil =>
    obtain rfl : s = s' := Option.some.inj h
    exact hs
  | cons e es ih =>
    simp only [exec] at h
    split_ifs at h with hok
    obtain ⟨s₁, h₁, hrest⟩ := Option.bind_eq_some_iff.mp h
    exact ih (hs.step hok h₁) hrest

/-- The events of a run, each with the state it meets; the run ends where a step is not
possible. -/
def passes (step : σ → ε → Option σ) : σ → List ε → List (σ × ε)
  | _, [] => []
  | s, e :: es =>
    (s, e) :: match step s e with
      | none => []
      | some s' => passes step s' es

lemma mem_passes_cons (step : σ → ε → Option σ) (s : σ) (e : ε) (es : List ε) :
    (s, e) ∈ passes step s (e :: es) := by
  rw [passes]
  exact List.mem_cons_self

/-- An invariant of the admissible steps holds in every state that a run meets, when all its events
are admissible there. -/
lemma invariant_of_passes {step : σ → ε → Option σ} {ok : σ → ε → Prop} {I : σ → Prop}
    (hstep : ∀ s e s', I s → ok s e → step s e = some s' → I s') {es : List ε} {s : σ} (h₀ : I s)
    (hok : ∀ x ∈ passes step s es, ok x.1 x.2) : ∀ x ∈ passes step s es, I x.1 := by
  induction es generalizing s with
  | nil => simp [passes]
  | cons e es ih =>
    intro x hx
    rw [passes, List.mem_cons] at hx
    rcases hx with rfl | hx
    · exact h₀
    · cases hs : step s e with
      | none => simp [hs] at hx
      | some s' =>
        rw [hs] at hx
        refine ih (hstep s e s' h₀ (hok (s, e) (mem_passes_cons step s e es)) hs)
          (fun y hy => hok y ?_) x hx
        · rw [passes, hs]
          exact List.mem_cons_of_mem _ hy

/-! ### Steps that are always possible -/

section Fold

variable (next : σ → ε → σ)

/-- What every step does from states with an invariant, every step of a run does. -/
lemma isChain_scanl {I : σ → Prop} {R : σ → σ → Prop} (hI : ∀ s e, I s → I (next s e))
    (hR : ∀ s e, I s → R s (next s e)) (es : List ε) {s : σ} (h : I s) :
    (es.scanl next s).IsChain R ∧ I (es.foldl next s) := by
  induction es generalizing s with
  | nil => exact ⟨by simp, h⟩
  | cons e es ih =>
    obtain ⟨hchain, hlast⟩ := ih (hI s e h)
    refine ⟨?_, hlast⟩
    rw [List.scanl_cons]
    cases es with
    | nil => simpa using hR s e h
    | cons e' es =>
      rw [List.scanl_cons] at hchain ⊢
      exact List.IsChain.cons_cons (hR s e h) hchain

/-- Events that change nothing can be left out. -/
lemma foldl_filter (keep : ε → Bool) (h : ∀ s e, keep e = false → next s e = s) (es : List ε)
    (s : σ) : (es.filter keep).foldl next s = es.foldl next s := by
  induction es generalizing s with
  | nil => rfl
  | cons e es ih =>
    rw [List.filter_cons]
    split_ifs with hkeep
    · exact ih (next s e)
    · rw [ih, List.foldl_cons, h s e (by simpa using hkeep)]

/-- Each event of a run has the property in the state that it meets. -/
def Along (P : σ → ε → Prop) (s : σ) (es : List ε) : Prop :=
  ∀ pre e, pre ++ [e] <+: es → P (pre.foldl next s) e

variable {next} {P Q : σ → ε → Prop} {s : σ} {e : ε} {es : List ε}

lemma along_cons : Along next P s (e :: es) ↔ P s e ∧ Along next P (next s e) es := by
  constructor
  · intro h
    refine ⟨h [] e (by simp), fun pre e' hpre => ?_⟩
    exact h (e :: pre) e' (by simpa using hpre)
  · rintro ⟨h, hrest⟩ pre e' hpre
    cases pre with
    | nil =>
      obtain rfl : e' = e := by simpa using hpre
      exact h
    | cons d pre =>
      rw [List.cons_append, List.cons_prefix_cons] at hpre
      obtain ⟨rfl, hpre⟩ := hpre
      exact hrest pre e' hpre

/-- Two properties hold of the same runs if they agree while the invariant holds, and the second
one keeps the invariant. -/
lemma along_congr {I : σ → Prop} (hkeep : ∀ s e, I s → Q s e → I (next s e))
    (hiff : ∀ s e, I s → (P s e ↔ Q s e)) (h : I s) : Along next P s es ↔ Along next Q s es := by
  induction es generalizing s with
  | nil => simp [Along]
  | cons e es ih =>
    rw [along_cons, along_cons, hiff s e h]
    exact and_congr_right fun hQ => ih (hkeep s e h hQ)

end Fold

/-! ### Machines with outputs -/

section Outputs

variable {τ o : Type*}

/-- The outputs of a run, up to the first one that stops the machine. -/
def outputs (call : σ → ε → o × σ) (stops : o → Bool) : σ → List ε → List o
  | _, [] => []
  | s, e :: es =>
    let r := call s e
    if stops r.1 then [r.1] else r.1 :: outputs call stops r.2 es

/-- Machines that answer every event alike in related states, and stay related, have the same
outputs in every run. -/
lemma outputs_eq {R : σ → τ → Prop} {call : σ → ε → o × σ} {call' : τ → ε → o × τ}
    (hcall : ∀ s t e, R s t → (call s e).1 = (call' t e).1 ∧ R (call s e).2 (call' t e).2)
    (stops : o → Bool) (es : List ε) {s : σ} {t : τ} (h : R s t) :
    outputs call stops s es = outputs call' stops t es := by
  induction es generalizing s t with
  | nil => rfl
  | cons e es ih =>
    obtain ⟨hout, hnext⟩ := hcall s t e h
    rw [outputs, outputs, hout, ih hnext]

end Outputs

end Runs
