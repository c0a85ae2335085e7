import JsmjServer.Lib.Segments

set_option relaxedAutoImplicit false
set_option autoImplicit false

/-!
# Streams of frames on connections that are closed

A receiver of `Segments` whose connections are also closed, anywhere in their streams, and whose
keys are used again for other connections. Each connection carries the encodings of a list of frames
and may be cut off inside one of them. The receiver delivers, on each connection, the frames of
which all bytes have come, and nothing of an earlier connection of the same key.

## Main definitions

* `Connections.Event` — a chunk, or the end of a connection.
* `Connections.streams`, `Connections.deliveries` — the bytes and the deliveries of the connections
  of a key, one after the other.
* `Connections.complete` — the frames that are complete in a number of bytes.

## Main results

* `Connections.deliveries_eq` — the deliveries of every connection, for every segmentation and
  interleaving.
* `Connections.deliveries_congr` — receivers that simulate each other deliver the same.
-/

namespace Connections

open Segments

variable {K F β O σ : Type*}

/-- A chunk of bytes for the connection of a key, or the end of that connection. -/
inductive Event (K β : Type*)
  | chunk (k : K) (c : List β)
  | close (k : K)

/-- The frames of which all bytes are among the first `n`. -/
def complete (enc : F → List β) : List F → ℕ → List F
  | [], _ => []
  | f :: fs, n => if (enc f).length ≤ n then f :: complete enc fs (n - (enc f).length) else []

section Complete

variable {enc : F → List β}

lemma complete_append (fs₁ fs₂ : List F) (n : ℕ) :
    complete enc (fs₁ ++ fs₂) ((fs₁.flatMap enc).length + n) = fs₁ ++ complete enc fs₂ n := by
  induction fs₁ with
  | nil => simp
  | cons f fs₁ ih =>
    rw [List.cons_append, complete, List.flatMap_cons, List.length_append, if_pos (by omega),
      show (enc f).length + (fs₁.flatMap enc).length + n - (enc f).length =
        (fs₁.flatMap enc).length + n by omega, ih, List.cons_append]

/-- Nothing is complete inside the first frame. -/
lemma complete_of_inside {b : List β} {fs : List F} (h : Inside enc b fs) :
    complete enc fs b.length = [] := by
  cases fs with
  | nil => rfl
  | cons f fs => rw [complete, if_neg (by have := h.2; omega)]

end Complete

variable [DecidableEq K]

/-- The bytes that the events bring on the present connection of a key, and on each later one. -/
def streams (k : K) : List (Event K β) → List β × List (List β)
  | [] => ([], [])
  | .chunk k' c :: es =>
    let r := streams k es
    if k' = k then (c ++ r.1, r.2) else r
  | .close k' :: es =>
    let r := streams k es
    if k' = k then ([], r.1 :: r.2) else r

/-- The deliveries on the present connection of a key, and on each later one. -/
def deliveries (feed : σ → K → List β → List (K × O) × σ) (drop : σ → K → σ) (k : K) :
    σ → List (Event K β) → List O × List (List O)
  | _, [] => ([], [])
  | s, .chunk k' c :: es =>
    let r := deliveries feed drop k (feed s k' c).2 es
    (outputsOf (feed s k' c).1 k ++ r.1, r.2)
  | s, .close k' :: es =>
    let r := deliveries feed drop k (drop s k') es
    if k' = k then ([], r.1 :: r.2) else r

/-- Receivers that deliver the same and stay related deliver the same in every run. -/
lemma deliveries_congr {τ : Type*} {R : σ → τ → Prop} {feed : σ → K → List β → List (K × O) × σ}
    {drop : σ → K → σ} {feed' : τ → K → List β → List (K × O) × τ} {drop' : τ → K → τ}
    (hfeed : ∀ s t k c, R s t → (feed s k c).1 = (feed' t k c).1 ∧ R (feed s k c).2 (feed' t k c).2)
    (hdrop : ∀ s t k, R s t → R (drop s k) (drop' t k)) (k : K) (es : List (Event K β)) {s : σ}
    {t : τ} (h : R s t) : deliveries feed drop k s es = deliveries feed' drop' k t es := by
  induction es generalizing s t with
  | nil => rfl
  | cons e es ih =>
    cases e with
    | chunk k' c =>
      obtain ⟨hout, hnext⟩ := hfeed s t k' c h
      rw [deliveries, deliveries, hout, ih hnext]
    | close k' => rw [deliveries, deliveries, ih (hdrop s t k' h)]

/-- A connection that is closed is forgotten, and the others are not touched. -/
def Drops (Rep : σ → K → List β → Prop) (drop : σ → K → σ) : Prop :=
  ∀ s k b, Rep s k b → Rep (drop s k) k [] ∧ ∀ k' b', k' ≠ k → Rep s k' b' → Rep (drop s k) k' b'

variable {enc : F → List β} {out : F → O} {Rep : σ → K → List β → Prop}
  {feed : σ → K → List β → List (K × O) × σ} {drop : σ → K → σ}

/-- What a connection delivers of its frames when it brings these bytes. -/
def delivered (enc : F → List β) (out : F → O) (fs : List F) (bytes : List β) : List O :=
  (complete enc fs bytes.length).map out

/-- On the connections of a key the bytes `b` of a frame under way are remembered, and the events
bring parts of what is left of the frames: of those of the present connection, and of those of each
later one. -/
structure Pending (enc : F → List β) (Rep : σ → K → List β → Prop) (es : List (Event K β)) (s : σ)
    (k : K) (b : List β) (fs : List F × List (List F)) : Prop where
  rep : Rep s k b
  inside : Inside enc b fs.1
  present : b ++ (streams k es).1 <+: fs.1.flatMap enc
  later : List.Forall₂ (fun fs bytes => bytes <+: fs.flatMap enc) fs.2 (streams k es).2

section Pending

variable {es : List (Event K β)} {s : σ} {k k' : K} {b c : List β} {fs : List F × List (List F)}

/-- A chunk delivers the frames it completes. -/
lemma Pending.chunk (h : Pending enc Rep (.chunk k c :: es) s k b fs)
    (hr : Receives enc out Rep feed) (hc : c ≠ []) : ∃ fs₁ fs₂ b', fs.1 = fs₁ ++ fs₂ ∧
      (feed s k c).1 = fs₁.map (fun f => (k, out f)) ∧
      Pending enc Rep es (feed s k c).2 k b' (fs₂, fs.2) ∧
      (b ++ (c ++ (streams k es).1)).length =
        (fs₁.flatMap enc).length + (b' ++ (streams k es).1).length ∧
      ∀ k' b', k' ≠ k → Rep s k' b' → Rep (feed s k c).2 k' b' := by
  have hpre := h.present
  have hlater := h.later
  rw [streams, if_pos rfl] at hpre hlater
  obtain ⟨rest, hrest⟩ := hpre
  simp only [List.append_assoc] at hrest
  obtain ⟨fs₁, fs₂, b', hfs, hout, hrep', hin', hbytes', hframe⟩ := hr h.rep hc h.inside hrest
  refine ⟨fs₁, fs₂, b', hfs, hout, ⟨hrep', hin', ?_, hlater⟩, ?_, hframe⟩
  · rw [← hbytes', ← List.append_assoc]
    exact List.prefix_append _ _
  · have h₁ := congrArg List.length hrest
    have h₂ := congrArg List.length hbytes'
    rw [hfs, List.flatMap_append] at h₁
    simp only [List.length_append] at h₁ h₂ ⊢
    omega

/-- The end of a connection makes the next one the present one. -/
lemma Pending.close (h : Pending enc Rep (.close k :: es) s k b fs) (hdrop : Drops Rep drop)
    (hnil : ∀ fs : List F, Inside enc [] fs) : ∃ next later, fs.2 = next :: later ∧
      Pending enc Rep es (drop s k) k [] (next, later) := by
  have hlater := h.later
  rw [streams, if_pos rfl] at hlater
  cases hfs : fs.2 with
  | nil =>
    rw [hfs] at hlater
    exact nomatch hlater
  | cons next later =>
    rw [hfs] at hlater
    cases hlater with
    | cons hnext hrest => exact ⟨next, later, rfl, (hdrop s k b h.rep).1, hnil next, hnext, hrest⟩

/-- An event of another connection changes nothing. -/
lemma Pending.of_ne {e : Event K β} {s' : σ} (h : Pending enc Rep (e :: es) s k' b fs)
    (hs : streams k' (e :: es) = streams k' es) (hrep : Rep s' k' b) :
    Pending enc Rep es s' k' b fs :=
  ⟨hrep, h.inside, hs ▸ h.present, hs ▸ h.later⟩

end Pending

/-- **Every connection delivers its complete frames**: if the connections of each key carry parts of
the encodings of their frames, then each delivers exactly the frames that it brings completely, in
order.

**Proof sketch.** Induction on the events, for all memories of the frames under way. A chunk
delivers the frames it completes and leaves a memory inside the next one (`Receives`), whose bytes
then count for the rest of the stream. Closing forgets a part of a frame, in which nothing is
complete, and the key begins with its next connection. -/
theorem deliveries_eq (hr : Receives enc out Rep feed) (hdrop : Drops Rep drop)
    (hnil : ∀ fs : List F, Inside enc [] fs) (es : List (Event K β))
    (hne : ∀ k c, Event.chunk k c ∈ es → c ≠ []) {s : σ}
    (hall : ∀ k, ∃ b fs, Pending enc Rep es s k b fs) {k : K} {b : List β}
    {fs : List F × List (List F)} (h : Pending enc Rep es s k b fs) :
    deliveries feed drop k s es = (delivered enc out fs.1 (b ++ (streams k es).1),
      List.zipWith (delivered enc out) fs.2 (streams k es).2) := by
  induction es generalizing s b fs with
  | nil =>
    simp only [deliveries, streams, List.append_nil, List.zipWith_nil_right, delivered,
      complete_of_inside h.inside, List.map_nil]
  | cons e es ih =>
    have hne' : ∀ k c, Event.chunk k c ∈ es → c ≠ [] :=
      fun k c hc => hne k c (List.mem_cons_of_mem _ hc)
    cases e with
    | chunk k₀ c =>
      have hc : c ≠ [] := hne k₀ c List.mem_cons_self
      obtain ⟨b₀, fs₀, h₀⟩ := hall k₀
      obtain ⟨_, _, b', _, hout, hnext, _, hframe⟩ := h₀.chunk hr hc
      have hstream : ∀ k', k' ≠ k₀ → streams k' (.chunk k₀ c :: es) = streams k' es :=
        fun k' hk => by rw [streams, if_neg (Ne.symm hk)]
      have hall' : ∀ k', ∃ b fs, Pending enc Rep es (feed s k₀ c).2 k' b fs := by
        intro k'
        by_cases hk : k' = k₀
        · subst hk
          exact ⟨_, _, hnext⟩
        · obtain ⟨b₁, fs₁, h₁⟩ := hall k'
          exact ⟨b₁, fs₁, h₁.of_ne (hstream k' hk) (hframe k' b₁ hk h₁.rep)⟩
      by_cases hk : k = k₀
      · subst hk
        obtain ⟨fs₁, fs₂, b₁, hfs, hout₁, hnext₁, hlen, -⟩ := h.chunk hr hc
        have hsplit : complete enc (fs₁ ++ fs₂)
            ((fs₁.flatMap enc).length + (b₁ ++ (streams k es).1).length) =
              fs₁ ++ complete enc fs₂ (b₁ ++ (streams k es).1).length := complete_append fs₁ fs₂ _
        rw [deliveries, ih hne' hall' hnext₁, hout₁]
        simp only [streams, if_true, outputsOf_map_self, delivered, hlen]
        rw [hfs, hsplit, List.map_append]
      · rw [deliveries, ih hne' hall' (h.of_ne (hstream k hk) (hframe k b hk h.rep)), hout,
          hstream k hk, outputsOf_map_of_ne (Ne.symm hk), List.nil_append]
    | close k₀ =>
      obtain ⟨b₀, fs₀, h₀⟩ := hall k₀
      obtain ⟨next, later, -, hnext⟩ := h₀.close hdrop hnil
      have hframe := (hdrop s k₀ b₀ h₀.rep).2
      have hstream : ∀ k', k' ≠ k₀ → streams k' (.close k₀ :: es) = streams k' es :=
        fun k' hk => by rw [streams, if_neg (Ne.symm hk)]
      have hall' : ∀ k', ∃ b fs, Pending enc Rep es (drop s k₀) k' b fs := by
        intro k'
        by_cases hk : k' = k₀
        · subst hk
          exact ⟨_, _, hnext⟩
        · obtain ⟨b₁, fs₁, h₁⟩ := hall k'
          exact ⟨b₁, fs₁, h₁.of_ne (hstream k' hk) (hframe k' b₁ hk h₁.rep)⟩
      by_cases hk : k = k₀
      · subst hk
        obtain ⟨next₁, later₁, hfs, hnext₁⟩ := h.close hdrop hnil
        have hinside : delivered enc out fs.1 (b ++ []) = [] := by
          rw [List.append_nil, delivered, complete_of_inside h.inside, List.map_nil]
        rw [deliveries, ih hne' hall' hnext₁, streams, if_pos rfl, if_pos rfl, hinside, hfs]
        rfl
      · rw [deliveries, if_neg (Ne.symm hk), hstream k hk,
          ih hne' hall' (h.of_ne (hstream k hk) (hframe k b hk h.rep))]

end Connections
