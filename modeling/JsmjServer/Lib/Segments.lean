import Mathlib.Data.List.Basic
import Mathlib.Logic.Function.Basic

set_option relaxedAutoImplicit false
set_option autoImplicit false

/-!
# Streams of frames cut into chunks

Several connections, told apart by a key, each carry the concatenation of the encodings of a
list of frames. The bytes arrive in chunks cut anywhere, the chunks of different connections
interleaved. A receiver is fed chunk by chunk and keeps, for each connection, the bytes of the
frame under way. The module derives from what one chunk does that the whole run delivers, on
every connection, exactly the frames in order.

## Main definitions

* `Segments.Inside` — bytes that are a proper part of the first of some frames.
* `Segments.Receives` — what feeding one chunk must do.
* `Segments.run` — feeding a list of chunks.

## Main results

* `Segments.split_first` — a chunk ends inside the frame under way or completes it.
* `Segments.run_outputs` — every segmentation and interleaving delivers the frames in order.
-/

namespace Segments

variable {K F β O σ : Type*}

/-- The bytes `b` are a proper initial part of the first frame of `fs`; with no frame left there
are none. -/
def Inside (enc : F → List β) (b : List β) : List F → Prop
  | [] => b = []
  | f :: _ => b <+: enc f ∧ b.length < (enc f).length

/-- The chunk `c` following the bytes `b` of a frame `e` either leaves the frame incomplete or
completes it, and what is left of it belongs to the frames after. -/
lemma split_first {b c rest e tail : List β} (h : b ++ (c ++ rest) = e ++ tail) (hb : b <+: e) :
    (b ++ c <+: e ∧ (b ++ c).length < e.length) ∨
      ∃ c₁ c₂, c = c₁ ++ c₂ ∧ e = b ++ c₁ ∧ c₂ ++ rest = tail := by
  obtain ⟨e', rfl⟩ := hb
  rw [List.append_assoc, List.append_cancel_left_eq] at h
  rcases List.append_eq_append_iff.mp h with ⟨l, rfl, hl⟩ | ⟨l, rfl, hl⟩
  · cases l with
    | nil => exact Or.inr ⟨c, [], by simp, by simp, by simpa using hl⟩
    | cons x l =>
      refine Or.inl ⟨⟨x :: l, by simp⟩, ?_⟩
      simp only [List.length_append, List.length_cons]
      omega
  · exact Or.inr ⟨e', l, rfl, rfl, hl.symm⟩

/-- A receiver `feed` with memory `Rep s k b` of the bytes `b` of the frame under way on the
connection `k`: a non-empty chunk delivers the frames it completes and is remembered, and the
memory of the other connections is untouched. -/
def Receives (enc : F → List β) (out : F → O) (Rep : σ → K → List β → Prop)
    (feed : σ → K → List β → List (K × O) × σ) : Prop :=
  ∀ {s k b c rest fs}, Rep s k b → c ≠ [] → Inside enc b fs →
    b ++ (c ++ rest) = fs.flatMap enc → ∃ fs₁ fs₂ b', fs = fs₁ ++ fs₂ ∧
      (feed s k c).1 = fs₁.map (fun f => (k, out f)) ∧ Rep (feed s k c).2 k b' ∧
      Inside enc b' fs₂ ∧ b' ++ rest = fs₂.flatMap enc ∧
      ∀ k' b, k' ≠ k → Rep s k' b → Rep (feed s k c).2 k' b

/-- Feed the chunks in order and collect the deliveries. -/
def run (feed : σ → K → List β → List (K × O) × σ) (s : σ) : List (K × List β) → List (K × O)
  | [] => []
  | (k, c) :: rest => (feed s k c).1 ++ run feed (feed s k c).2 rest

variable [DecidableEq K]

/-- The bytes that the chunks bring for one connection. -/
def bytesOf (chunks : List (K × List β)) (k : K) : List β :=
  ((chunks.filter fun d => d.1 = k).map Prod.snd).flatten

/-- The deliveries on one connection. -/
def outputsOf (outputs : List (K × O)) (k : K) : List O :=
  (outputs.filter fun o => o.1 = k).map Prod.snd

variable {enc : F → List β} {out : F → O} {Rep : σ → K → List β → Prop}
  {feed : σ → K → List β → List (K × O) × σ}

lemma bytesOf_cons_self (k : K) (c : List β) (chunks : List (K × List β)) :
    bytesOf ((k, c) :: chunks) k = c ++ bytesOf chunks k := by
  simp [bytesOf]

lemma bytesOf_cons_of_ne {k k' : K} (h : k ≠ k') (c : List β) (chunks : List (K × List β)) :
    bytesOf ((k, c) :: chunks) k' = bytesOf chunks k' := by
  simp [bytesOf, h]

lemma outputsOf_append (a b : List (K × O)) (k : K) :
    outputsOf (a ++ b) k = outputsOf a k ++ outputsOf b k := by
  simp [outputsOf]

lemma outputsOf_map_self (k : K) (fs : List F) :
    outputsOf (fs.map fun f => (k, out f)) k = fs.map out := by
  simp [outputsOf, List.filter_map, Function.comp_def]

lemma outputsOf_map_of_ne {k k' : K} (h : k ≠ k') (fs : List F) :
    outputsOf (fs.map fun f => (k, out f)) k' = [] := by
  simp [outputsOf, List.filter_map, Function.comp_def, h]

/-- **Independence of segmentation**: if the chunks bring on each connection the rest of the
encodings of its frames, then feeding them delivers on each connection exactly these frames, in
order.

**Proof sketch.** Induction on the chunks, for all memories and frames still to come. A chunk
delivers the frames it completes and leaves a memory inside the next one (`Receives`); the
other connections do not notice it. When the chunks are used up, the bytes remembered of a frame
under way would have to be the whole of it. -/
theorem run_outputs (hr : Receives enc out Rep feed) (chunks : List (K × List β))
    (hne : ∀ d ∈ chunks, d.2 ≠ []) :
    ∀ (s : σ) (b : K → List β) (fs : K → List F), (∀ k, Rep s k (b k)) →
      (∀ k, Inside enc (b k) (fs k)) →
      (∀ k, b k ++ bytesOf chunks k = (fs k).flatMap enc) →
      ∀ k, outputsOf (run feed s chunks) k = (fs k).map out := by
  induction chunks with
  | nil =>
    intro s b fs _ hin hbytes k
    have hb := hbytes k
    have hi := hin k
    cases hfs : fs k with
    | nil => rfl
    | cons f rest =>
      rw [hfs] at hb hi
      have hlen := congrArg List.length hb
      simp only [bytesOf, List.filter_nil, List.map_nil, List.flatten_nil, List.append_nil,
        List.flatMap_cons, List.length_append] at hlen
      have := hi.2
      omega
  | cons d chunks ih =>
    obtain ⟨k₀, c⟩ := d
    intro s b fs hrep hin hbytes k
    have hc : c ≠ [] := hne (k₀, c) List.mem_cons_self
    have hb₀ := hbytes k₀
    rw [bytesOf_cons_self] at hb₀
    obtain ⟨fs₁, fs₂, b', hfs, hout, hrep', hin', hbytes', hframe⟩ :=
      hr (hrep k₀) hc (hin k₀) hb₀
    -- the memory and the frames still to come change on the connection `k₀` only
    have hrest := ih (fun d hd => hne d (List.mem_cons_of_mem _ hd)) (feed s k₀ c).2
      (Function.update b k₀ b') (Function.update fs k₀ fs₂)
    have hrun : outputsOf (run feed s ((k₀, c) :: chunks)) k =
        outputsOf (feed s k₀ c).1 k ++ outputsOf (run feed (feed s k₀ c).2 chunks) k :=
      outputsOf_append _ _ k
    rw [hrun, hrest, hout]
    · by_cases hk : k = k₀
      · subst hk
        rw [outputsOf_map_self, Function.update_self, hfs, List.map_append]
      · rw [outputsOf_map_of_ne (fun h => hk h.symm), Function.update_of_ne hk, List.nil_append]
    · intro k'
      by_cases hk : k' = k₀
      · subst hk
        rwa [Function.update_self]
      · rw [Function.update_of_ne hk]
        exact hframe k' (b k') hk (hrep k')
    · intro k'
      by_cases hk : k' = k₀
      · subst hk
        rwa [Function.update_self, Function.update_self]
      · rw [Function.update_of_ne hk, Function.update_of_ne hk]
        exact hin k'
    · intro k'
      by_cases hk : k' = k₀
      · subst hk
        rwa [Function.update_self, Function.update_self]
      · rw [Function.update_of_ne hk, Function.update_of_ne hk, ← hbytes k',
          bytesOf_cons_of_ne (fun h => hk h.symm)]

end Segments
