import JsmjServer.Common.TimeManager
import Mathlib.Tactic.SplitIfs

set_option relaxedAutoImplicit false
set_option autoImplicit false

/-!
# What timers may be relied on for

The handle of a timer is what a counter showed when the timer was set. The counter is set back when
all timers are cleared, and when it has passed 10000 while few timers are pending. Within one lap of
the counter all handles differ, so two timers can share a handle only if one of them is from an
earlier lap.

## Main results

* `Common.handles_nodup`, `Common.fine_of_spares` — what holds of every run that keeps to the
  conditions.
* `Common.handle_given_twice`, `Common.deleted_timer_runs` — runs that do not.

## Design

The conditions `SetsFresh` and `Spares` are on the event and the state it meets. That no timer of an
earlier lap holds the next handle is all that is asked of the handles: those of the same lap differ
anyway.
-/

namespace Common

variable {C : Type}

/-! ### Handles -/

/-- The pending timers are numbered: they have different handles, and those of the present lap have
handles below the counter. -/
structure Numbered (w : Watch C) : Prop where
  id_lt : ∀ t ∈ w.timers.mgr.timeoutList, t.id < w.timers.mgr.made
  lap : ∀ t ∈ w.timers.mgr.timeoutList, w.lapStart ≤ t.id → t.uuid < w.timers.mgr.uuid
  uuids : (w.timers.mgr.timeoutList.map (·.uuid)).Nodup

/-- Whatever only removes pending timers keeps them numbered. -/
lemma Numbered.of_sublist {w w' : Watch C} (h : Numbered w)
    (hlist : w'.timers.mgr.timeoutList.Sublist w.timers.mgr.timeoutList)
    (hmade : w'.timers.mgr.made = w.timers.mgr.made)
    (huuid : w'.timers.mgr.uuid = w.timers.mgr.uuid) (hlap : w'.lapStart = w.lapStart) :
    Numbered w' where
  id_lt t ht := hmade ▸ h.id_lt t (hlist.subset ht)
  lap t ht hle := huuid ▸ h.lap t (hlist.subset ht) (hlap ▸ hle)
  uuids := h.uuids.sublist (hlist.map _)

/-- With a fresh handle, the new timer has a handle of its own. -/
lemma Numbered.uuid_ne {w : Watch C} (h : Numbered w) (hfresh : Fresh w) {t : Timeout C}
    (ht : t ∈ w.timers.mgr.timeoutList) : t.uuid ≠ w.timers.mgr.uuid := by
  by_cases hlap : t.id < w.lapStart
  · exact hfresh t ht hlap
  · exact (h.lap t ht (by omega)).ne

lemma begin_timers (w : Watch C) (p : Option (Pass C)) : (w.begin p).timers = w.timers := by
  cases p <;> rfl

lemma begin_lapStart (w : Watch C) (p : Option (Pass C)) : (w.begin p).lapStart = w.lapStart := by
  cases p <;> rfl

/-- Setting a timer with a fresh handle. -/
lemma Numbered.setTimeOut {w : Watch C} (h : Numbered w) (hfresh : Fresh w) (now delayMS : ℕ)
    (callback : Option C) (s : Timers C)
    (hs : s.mgr = w.timers.mgr.setTimeOut now delayMS callback) :
    Numbered (w.note s (.setTimeOut now delayMS callback)) := by
  set item : Timeout C := ⟨w.timers.mgr.made, w.timers.mgr.uuid, now + delayMS, callback⟩ with hitem
  have hlist : s.mgr.timeoutList = w.timers.mgr.timeoutList ++ [item] := by rw [hs]; rfl
  have hmade : s.mgr.made = w.timers.mgr.made + 1 := by rw [hs]; rfl
  have hid : ∀ t ∈ s.mgr.timeoutList, t.id < s.mgr.made := by
    intro t ht
    rw [hlist, List.mem_append, List.mem_singleton] at ht
    rw [hmade]
    obtain ht | rfl := ht
    · exact Nat.lt_succ_of_lt (h.id_lt t ht)
    · exact Nat.lt_succ_self _
  refine ⟨hid, ?_, ?_⟩
  · intro t ht hle
    have hlt := hid t ht
    simp only [Watch.note] at ht hle ⊢
    rw [hs, TimeManager.uuid_setTimeOut]
    by_cases hwraps : w.timers.mgr.wraps
    · rw [if_pos hwraps] at hle
      omega
    · rw [if_neg hwraps] at hle ⊢
      rw [hlist, List.mem_append, List.mem_singleton] at ht
      obtain ht | rfl := ht
      · exact Nat.lt_succ_of_lt (h.lap t ht hle)
      · exact Nat.lt_succ_self _
  · simp only [Watch.note]
    rw [hlist, List.map_append, List.map_singleton]
    refine h.uuids.append (List.nodup_singleton _) ?_
    rw [List.disjoint_singleton]
    intro hmem
    obtain ⟨t, ht, huuid⟩ := List.mem_map.mp hmem
    exact h.uuid_ne hfresh ht huuid

/-- The timers stay numbered. -/
lemma Numbered.step {w w' : Watch C} {e : Event C} (h : Numbered w) (hok : SetsFresh w e)
    (hstep : w.step e = some w') : Numbered w' := by
  obtain ⟨s, hs, rfl⟩ := Option.map_eq_some_iff.mp hstep
  cases e with
  | setTimeOut now delayMS callback =>
    simp only [Timers.step] at hs
    split_ifs at hs
    obtain rfl := Option.some.inj hs
    exact h.setTimeOut hok now delayMS callback _ rfl
  | deleteTimeOut handle =>
    obtain rfl := Option.some.inj hs
    exact h.of_sublist List.eraseP_sublist rfl rfl rfl
  | clearAllTimeOut =>
    obtain rfl := Option.some.inj hs
    exact ⟨fun t ht => absurd ht List.not_mem_nil, fun t ht => absurd ht List.not_mem_nil,
      List.nodup_nil⟩
  | dealTimeOutEvent now =>
    simp only [Timers.step] at hs
    split_ifs at hs
    obtain rfl := Option.some.inj hs
    refine h.of_sublist ?_ ?_ ?_ (begin_lapStart _ _) <;> simp [Watch.note, begin_timers]
  | callbackDone =>
    simp only [Timers.step] at hs
    split at hs
    · cases hs
    · obtain rfl := Option.some.inj hs
      refine h.of_sublist ?_ ?_ ?_ (begin_lapStart _ _) <;>
        simp [Watch.note, begin_timers, TimeManager.deleteTimeOut, List.eraseP_sublist]

/-- **Pending timers have different handles** in every state of a run in which no timer is set while
a timer of an earlier lap of the counter is pending with the handle that is given out.

**Proof sketch.** Within a lap the counter grows with every timer that is set, so the timers of the
lap have handles below it; by the condition the others do not have its value either. -/
theorem handles_nodup {w : Watch C} (h : Runs.Reaches Watch.step SetsFresh {} w) :
    (w.timers.mgr.timeoutList.map (·.uuid)).Nodup := by
  have hinit : Numbered ({} : Watch C) :=
    ⟨fun t ht => absurd ht List.not_mem_nil, fun t ht => absurd ht List.not_mem_nil, List.nodup_nil⟩
  have hinv := h.invariant hinit fun _ _ _ hinv hok hstep => hinv.step hok hstep
  exact hinv.uuids

/-- Two timers are set and one of them is deleted. -/
theorem handles_nodup_two_set :
    ∃ w : Watch Unit, Runs.Reaches Watch.step SetsFresh {} w ∧ w.timers.mgr.timeoutList ≠ [] ∧
      (w.timers.mgr.timeoutList.map (·.uuid)).Nodup := by
  have hrun : ((Runs.exec Watch.step SetsFresh ({} : Watch Unit)
      [.setTimeOut 0 100 (some ()), .setTimeOut 0 200 (some ()), .deleteTimeOut 0,
        .setTimeOut 5 100 (some ())]).any fun w => w.timers.mgr.timeoutList.length == 2) = true := by
    decide
  obtain ⟨w, hw, hlength⟩ := (Option.any_eq_true _ _).mp hrun
  have hreaches := Runs.reaches_of_exec _ .init hw
  refine ⟨w, hreaches, ?_, handles_nodup hreaches⟩
  rw [← List.length_pos_iff_ne_nil, beq_iff_eq.mp hlength]
  decide

/-- Two timers with the handles 0 and 1 are pending while `n` others were set and deleted. -/
def twoPending (n : ℕ) : Timers Unit where
  mgr := ⟨[⟨0, 0, 90000, some ()⟩, ⟨1, 1, 90000, some ()⟩], 2 + n, 2 + n⟩

/-- A timer that is set and deleted at once leaves the others as they are. -/
lemma exists_reaches_twoPending (n : ℕ) (hn : n < 10000) :
    ∃ w : Watch Unit, Runs.Reaches Watch.step AnyEvent {} w ∧ w.timers = twoPending n := by
  induction n with
  | zero =>
    refine ⟨_, Runs.reaches_of_exec [.setTimeOut 0 90000 (some ()), .setTimeOut 0 90000 (some ())]
      .init rfl, rfl⟩
  | succ n ih =>
    obtain ⟨w, hw, htimers⟩ := ih (by omega)
    have hset : w.timers.step (.setTimeOut 0 0 (some ())) = some
        { twoPending n with mgr := (twoPending n).mgr.setTimeOut 0 0 (some ()) } := by
      rw [htimers]
      rfl
    have hreach := (hw.step trivial (by rw [Watch.step, hset]; rfl)).step
      (e := .deleteTimeOut (2 + n)) trivial rfl
    refine ⟨_, hreach, ?_⟩
    have hne : ¬ 10000 < 2 + n := by omega
    have hfirst : ¬ 0 = 2 + n := by omega
    have hsecond : ¬ 1 = 2 + n := by omega
    simp [Watch.note, twoPending, TimeManager.setTimeOut, TimeManager.deleteTimeOut, hne, hfirst,
      hsecond, Nat.add_assoc]

/-- After 10000 timers have been set and deleted at once, the counter is set back, and the next
timer is given the handle of one that is still pending. -/
theorem handle_given_twice :
    ¬ ∀ w : Watch Unit, Runs.Reaches Watch.step AnyEvent {} w →
      (w.timers.mgr.timeoutList.map (·.uuid)).Nodup := by
  intro h
  obtain ⟨w, hw, htimers⟩ := exists_reaches_twoPending 9999 (by decide)
  have hwrap : w.timers.step (.setTimeOut 0 0 (some ())) = some
      { twoPending 9999 with mgr := (twoPending 9999).mgr.setTimeOut 0 0 (some ()) } := by
    rw [htimers]
    rfl
  have hset := (hw.step trivial (by rw [Watch.step, hwrap]; rfl)).step
    (e := .setTimeOut 0 0 (some ())) trivial rfl
  have hlast : ¬ ((((twoPending 9999).mgr.setTimeOut 0 0 (some ())).setTimeOut 0 0
      (some ())).timeoutList.map (·.uuid)).Nodup := by
    decide
  exact hlast (h _ hset)

/-! ### Passes -/

/-- The entries still to come in a pass. -/
lemma nextDue_eq_some {now : ℕ} {l : List (Timeout C)} {p : Pass C} (h : nextDue now l = some p) :
    p.now = now ∧ p.item.isDue now ∧ (p.item :: p.rest).Sublist l := by
  induction l with
  | nil => cases h
  | cons v rest ih =>
    simp only [nextDue] at h
    split_ifs at h with hdue
    · obtain rfl := Option.some.inj h
      exact ⟨rfl, hdue, List.Sublist.refl _⟩
    · obtain ⟨hnow, hitem, hsub⟩ := ih h
      exact ⟨hnow, hitem, hsub.cons v⟩

/-- What holds of a pass under way: its timer has run, the entries still to come that are due are
pending, and no other pending timer has the handle of the one that runs. -/
structure PassInv (w : Watch C) (p : Pass C) : Prop where
  ran : p.item.id ∈ w.ran
  handle : w.handles[p.item.id]? = some p.item.uuid
  lap : w.lapStart ≤ p.item.id → p.item.uuid < w.timers.mgr.uuid
  alone : ∀ t ∈ w.timers.mgr.timeoutList, t.uuid = p.item.uuid → t.id = p.item.id
  rest : ∀ v ∈ p.rest, v.isDue p.now → v ∈ w.timers.mgr.timeoutList
  ids : ((p.item :: p.rest).map (·.id)).Nodup

/-- Nothing has gone wrong so far, and no pending timer is gone. -/
structure Sound (w : Watch C) : Prop extends Numbered w, Fine w where
  made : w.timers.mgr.made = w.handles.length
  handle : ∀ t ∈ w.timers.mgr.timeoutList, w.handles[t.id]? = some t.uuid
  ids : (w.timers.mgr.timeoutList.map (·.id)).Nodup
  not_gone : ∀ t ∈ w.timers.mgr.timeoutList, t.id ∉ w.gone
  gone_lt : ∀ i ∈ w.gone, i < w.handles.length
  ran_lt : ∀ i ∈ w.ran, i < w.handles.length

/-- The invariant of runs in which no callback meddles with the pass: a pending timer has not run
unless it is the one that runs. -/
structure WatchInv (w : Watch C) : Prop extends Sound w where
  not_ran : ∀ t ∈ w.timers.mgr.timeoutList, t.id ∈ w.ran →
    ∃ p, w.timers.pass = some p ∧ p.item.id = t.id
  pass : ∀ p, w.timers.pass = some p → PassInv w p

/-- With different handles, a deletion takes the timers with the handle and no others. -/
lemma mem_deleteTimeOut {m : TimeManager C} (h : (m.timeoutList.map (·.uuid)).Nodup) (handle : ℕ)
    {t : Timeout C} :
    t ∈ (m.deleteTimeOut handle).timeoutList ↔ t ∈ m.timeoutList ∧ t.uuid ≠ handle := by
  constructor
  · intro ht
    refine ⟨List.mem_of_mem_eraseP ht, fun heq => ?_⟩
    obtain ⟨a, l₁, l₂, hl₁, ha, hl, herase⟩ := List.exists_of_eraseP (List.mem_of_mem_eraseP ht)
      (p := fun v => v.uuid == handle) (beq_iff_eq.mpr heq)
    have ht' : t ∈ l₁ ++ l₂ := herase ▸ ht
    rw [hl, List.map_append, List.map_cons] at h
    have hnot := (List.nodup_middle.mp h)
    refine (List.nodup_cons.mp hnot).1 ?_
    rw [← List.map_append, beq_iff_eq.mp ha, ← heq]
    exact List.mem_map_of_mem ht'
  · rintro ⟨ht, hne⟩
    exact (List.mem_eraseP_of_neg (by simpa using hne)).mpr ht

lemma mem_holders {w : Watch C} {handle i : ℕ} (h : i ∈ w.holders handle) :
    w.handles[i]? = some handle := by
  have := (List.mem_filter.mp h).2
  exact beq_iff_eq.mp this

/-- A pass goes on to its next callback: what is still to come must be pending if it is due, and no
pending timer may have run. -/
lemma Sound.begin {w : Watch C} (h : Sound w) {now : ℕ} {l : List (Timeout C)}
    (hl : ∀ v ∈ l, v.isDue now → v ∈ w.timers.mgr.timeoutList) (hids : (l.map (·.id)).Nodup)
    (hran : ∀ t ∈ w.timers.mgr.timeoutList, t.id ∉ w.ran)
    (hpass : w.timers.pass = nextDue now l) : WatchInv (w.begin w.timers.pass) := by
  cases hnext : w.timers.pass with
  | none =>
    refine ⟨h, fun t ht hmem => absurd hmem (hran t ht), fun p hp => ?_⟩
    simp only [Watch.begin, hnext] at hp
    cases hp
  | some p =>
    obtain ⟨hnow, hdue, hsub⟩ := nextDue_eq_some (hpass ▸ hnext)
    have hitem : p.item ∈ w.timers.mgr.timeoutList := hl _ (hsub.subset List.mem_cons_self) hdue
    have hlt := (List.getElem?_eq_some_iff.mp (h.handle _ hitem)).1
    refine ⟨⟨⟨h.id_lt, h.lap, h.uuids⟩, ⟨?_, ?_, h.not_lost⟩, h.made, h.handle, h.ids, h.not_gone,
      h.gone_lt, ?_⟩, ?_, ?_⟩
    · refine h.once.append (List.nodup_singleton _) ?_
      exact List.disjoint_singleton.mpr (hran _ hitem)
    · simp only [Watch.begin]
      rw [if_neg (h.not_gone _ hitem)]
      exact h.not_late
    · intro i hi
      obtain hi | hi := List.mem_append.mp hi
      · exact h.ran_lt i hi
      · exact List.mem_singleton.mp hi ▸ hlt
    · intro t ht hmem
      obtain hmem | hmem := List.mem_append.mp hmem
      · exact absurd hmem (hran t ht)
      · exact ⟨p, hnext, (List.mem_singleton.mp hmem).symm⟩
    · intro p' hp'
      obtain rfl : p = p' := Option.some.inj (hnext.symm.trans hp')
      refine ⟨List.mem_append_right _ (List.mem_singleton_self _), h.handle _ hitem, h.lap _ hitem,
        ?_, ?_, hids.sublist (hsub.map _)⟩
      · intro t ht huuid
        rw [List.inj_on_of_nodup_map h.uuids ht hitem huuid]
      · intro v hv hdue
        rw [hnow] at hdue
        exact hl v (hsub.subset (List.mem_cons_of_mem _ hv)) hdue

/-- Setting a timer keeps the invariant when its handle is fresh. -/
lemma WatchInv.setTimeOut {w : Watch C} (h : WatchInv w) (now delayMS : ℕ) (callback : Option C)
    (hok : Spares w (.setTimeOut now delayMS callback)) (s : Timers C)
    (hs : s.mgr = w.timers.mgr.setTimeOut now delayMS callback) (hpass : s.pass = w.timers.pass) :
    WatchInv (w.note s (.setTimeOut now delayMS callback)) := by
  have hnumbered := h.toNumbered.setTimeOut hok.1 now delayMS callback s hs
  set item : Timeout C := ⟨w.timers.mgr.made, w.timers.mgr.uuid, now + delayMS, callback⟩ with hitem
  have hlist : s.mgr.timeoutList = w.timers.mgr.timeoutList ++ [item] := by rw [hs]; rfl
  have hmade : s.mgr.made = w.timers.mgr.made + 1 := by rw [hs]; rfl
  have hget : ∀ i u : ℕ, w.handles[i]? = some u →
      (w.handles ++ [w.timers.mgr.uuid])[i]? = some u := by
    intro i u hi
    rw [List.getElem?_append_left (List.getElem?_eq_some_iff.mp hi).1]
    exact hi
  have hnew : (w.handles ++ [w.timers.mgr.uuid])[w.timers.mgr.made]? = some w.timers.mgr.uuid := by
    rw [h.made, List.getElem?_append_right (le_refl _), Nat.sub_self]
    rfl
  have hlength : (w.handles ++ [w.timers.mgr.uuid]).length = w.handles.length + 1 := by
    rw [List.length_append, List.length_singleton]
  have hid_new : ∀ i, i < w.handles.length → i ≠ item.id := by
    intro i hi heq
    rw [heq, hitem, ← h.made] at hi
    exact lt_irrefl _ hi
  refine ⟨⟨hnumbered, ⟨h.once, h.not_late, h.not_lost⟩, ?_, ?_, ?_, ?_, ?_, ?_⟩, ?_, ?_⟩
  · simp only [Watch.note]
    rw [hmade, h.made, hlength]
  · simp only [Watch.note, hlist, List.mem_append, List.mem_singleton]
    rintro t (ht | rfl)
    · exact hget _ _ (h.handle t ht)
    · exact hnew
  · simp only [Watch.note]
    rw [hlist, List.map_append, List.map_singleton]
    refine h.ids.append (List.nodup_singleton _) (List.disjoint_singleton.mpr fun hmem => ?_)
    obtain ⟨t, ht, hid⟩ := List.mem_map.mp hmem
    exact hid_new t.id (h.made ▸ h.id_lt t ht) hid
  · simp only [Watch.note, hlist, List.mem_append, List.mem_singleton]
    rintro t (ht | rfl)
    · exact h.not_gone t ht
    · exact fun hgone => hid_new _ (h.gone_lt _ hgone) rfl
  · intro i hi
    simp only [Watch.note] at hi ⊢
    rw [hlength]
    exact Nat.lt_succ_of_lt (h.gone_lt i hi)
  · intro i hi
    simp only [Watch.note] at hi ⊢
    rw [hlength]
    exact Nat.lt_succ_of_lt (h.ran_lt i hi)
  · simp only [Watch.note, hlist, List.mem_append, List.mem_singleton, hpass]
    rintro t (ht | rfl) hran
    · exact h.not_ran t ht hran
    · exact absurd rfl (hid_new _ (h.ran_lt _ hran))
  · intro p hp
    simp only [Watch.note, hpass] at hp
    have hinv := h.pass p hp
    have hbelow : p.item.uuid ≠ w.timers.mgr.uuid := by
      by_cases hlap : p.item.id < w.lapStart
      · exact hok.2 p hp hlap
      · exact (hinv.lap (by omega)).ne
    refine ⟨hinv.ran, hget _ _ hinv.handle, ?_, ?_, ?_, hinv.ids⟩
    · have hlt := h.ran_lt _ hinv.ran
      simp only [Watch.note]
      rw [hs, TimeManager.uuid_setTimeOut, ← hs, hmade, h.made]
      split_ifs
      · omega
      · exact fun hle => Nat.lt_succ_of_lt (hinv.lap hle)
    · simp only [Watch.note, hlist, List.mem_append, List.mem_singleton]
      rintro t (ht | rfl) huuid
      · exact hinv.alone t ht huuid
      · exact absurd huuid.symm hbelow
    · intro v hv hdue
      simp only [Watch.note]
      rw [hlist]
      exact List.mem_append_left _ (hinv.rest v hv hdue)

/-- Deleting a timer keeps the invariant when it is not one still to come in the pass. -/
lemma WatchInv.deleteTimeOut {w : Watch C} (h : WatchInv w) (handle : ℕ)
    (hok : Spares w (.deleteTimeOut handle)) :
    WatchInv (w.note { w.timers with mgr := w.timers.mgr.deleteTimeOut handle }
      (.deleteTimeOut handle)) := by
  have hmem {t : Timeout C} := mem_deleteTimeOut h.uuids handle (t := t)
  have hsub : (w.timers.mgr.deleteTimeOut handle).timeoutList.Sublist w.timers.mgr.timeoutList :=
    List.eraseP_sublist
  refine ⟨⟨h.toNumbered.of_sublist hsub rfl rfl rfl, ⟨h.once, h.not_late, h.not_lost⟩, h.made,
    fun t ht => h.handle t (hsub.subset ht), h.ids.sublist (hsub.map _), ?_, ?_, h.ran_lt⟩,
    fun t ht => h.not_ran t (hsub.subset ht), ?_⟩
  · intro t ht hgone
    obtain ⟨ht, hne⟩ := hmem.mp ht
    obtain hgone | hgone := List.mem_append.mp hgone
    · exact h.not_gone t ht hgone
    · exact hne (Option.some.inj ((h.handle t ht).symm.trans (mem_holders hgone)))
  · intro i hi
    obtain hi | hi := List.mem_append.mp hi
    · exact h.gone_lt i hi
    · exact (List.getElem?_eq_some_iff.mp (mem_holders hi)).1
  · intro p hp
    have hinv := h.pass p hp
    exact ⟨hinv.ran, hinv.handle, hinv.lap, fun t ht => hinv.alone t (hsub.subset ht),
      fun v hv hdue => hmem.mpr ⟨hinv.rest v hv hdue, hok p hp v hv hdue⟩, hinv.ids⟩

/-- Clearing all timers keeps the invariant when none that is due is still to come in the pass. -/
lemma WatchInv.clearAllTimeOut {w : Watch C} (h : WatchInv w) (hok : Spares w .clearAllTimeOut) :
    WatchInv (w.note { w.timers with mgr := w.timers.mgr.clearAllTimeOut } .clearAllTimeOut) := by
  have hnone : ∀ t : Timeout C, t ∉ (w.timers.mgr.clearAllTimeOut).timeoutList :=
    fun t => List.not_mem_nil
  refine ⟨⟨⟨fun t ht => absurd ht (hnone t), fun t ht => absurd ht (hnone t), List.nodup_nil⟩,
    ⟨h.once, h.not_late, h.not_lost⟩, h.made, fun t ht => absurd ht (hnone t), List.nodup_nil,
    fun t ht => absurd ht (hnone t), ?_, h.ran_lt⟩, fun t ht => absurd ht (hnone t), ?_⟩
  · intro i hi
    obtain hi | hi := List.mem_append.mp hi
    · exact h.gone_lt i hi
    · exact List.mem_range.mp hi
  · intro p hp
    have hinv := h.pass p hp
    refine ⟨hinv.ran, hinv.handle, fun hle => ?_, fun t ht => absurd ht (hnone t),
      fun v hv hdue => absurd hdue (hok p hp v hv), hinv.ids⟩
    have hlt := h.ran_lt _ hinv.ran
    have hle : w.timers.mgr.made ≤ p.item.id := hle
    rw [h.made] at hle
    omega

/-- When a callback returns, the pass deletes the timer that ran and no other. -/
lemma WatchInv.callbackDone {w : Watch C} (h : WatchInv w) {p : Pass C}
    (hp : w.timers.pass = some p) :
    WatchInv (w.note { w.timers with
      mgr := w.timers.mgr.deleteTimeOut p.item.uuid
      pass := nextDue p.now p.rest } .callbackDone) := by
  have hinv := h.pass p hp
  have hmem {t : Timeout C} := mem_deleteTimeOut h.uuids p.item.uuid (t := t)
  have hsub : (w.timers.mgr.deleteTimeOut p.item.uuid).timeoutList.Sublist
      w.timers.mgr.timeoutList := List.eraseP_sublist
  obtain ⟨hitem, hrest⟩ := List.nodup_cons.mp hinv.ids
  have hmissing : missing p.item w.timers.mgr.timeoutList
      (w.timers.mgr.deleteTimeOut p.item.uuid).timeoutList = [] := by
    refine List.filter_eq_nil_iff.mpr fun i hi => ?_
    obtain ⟨t, ht, rfl⟩ := List.mem_map.mp hi
    simp only [decide_eq_true_eq, not_and, not_not]
    intro hne
    exact List.mem_map_of_mem (hmem.mpr ⟨ht, fun huuid => hne (hinv.alone t ht huuid)⟩)
  let s : Timers C := { w.timers with
    mgr := w.timers.mgr.deleteTimeOut p.item.uuid
    pass := nextDue p.now p.rest }
  let w₁ : Watch C := { w with
    timers := s
    lost := w.lost ++ (w.timers.pass.map fun p =>
      missing p.item w.timers.mgr.timeoutList s.mgr.timeoutList).getD [] }
  have hlost : w₁.lost = [] := by
    simp only [w₁, s, hp, Option.map_some, Option.getD_some, hmissing, h.not_lost, List.append_nil]
  have hsound : Sound w₁ := ⟨h.toNumbered.of_sublist hsub rfl rfl rfl,
    ⟨h.once, h.not_late, hlost⟩, h.made, fun t ht => h.handle t (hsub.subset ht),
    h.ids.sublist (hsub.map _), fun t ht => h.not_gone t (hsub.subset ht), h.gone_lt, h.ran_lt⟩
  refine hsound.begin ?_ hrest ?_ rfl
  · intro v hv hdue
    refine hmem.mpr ⟨hinv.rest v hv hdue, fun huuid => hitem ?_⟩
    exact List.mem_map.mpr ⟨v, hv, hinv.alone v (hinv.rest v hv hdue) huuid⟩
  · intro t ht hran
    obtain ⟨ht, hne⟩ := hmem.mp ht
    obtain ⟨p', hp', hid⟩ := h.not_ran t ht hran
    obtain rfl : p = p' := Option.some.inj (hp.symm.trans hp')
    have hhandle := hinv.handle
    rw [hid, h.handle t ht] at hhandle
    exact hne (Option.some.inj hhandle)

lemma WatchInv.step {w w' : Watch C} {e : Event C} (h : WatchInv w) (hok : Spares w e)
    (hstep : w.step e = some w') : WatchInv w' := by
  obtain ⟨s, hs, rfl⟩ := Option.map_eq_some_iff.mp hstep
  cases e with
  | setTimeOut now delayMS callback =>
    simp only [Timers.step] at hs
    split_ifs at hs
    obtain rfl := Option.some.inj hs
    exact h.setTimeOut now delayMS callback hok _ rfl rfl
  | deleteTimeOut handle =>
    obtain rfl := Option.some.inj hs
    exact h.deleteTimeOut handle hok
  | clearAllTimeOut =>
    obtain rfl := Option.some.inj hs
    exact h.clearAllTimeOut hok
  | dealTimeOutEvent now =>
    simp only [Timers.step] at hs
    split_ifs at hs with hblocked
    obtain rfl := Option.some.inj hs
    have hidle : w.timers.pass = none := by
      simpa using fun hsome => hblocked (.inr hsome)
    let s : Timers C := { w.timers with pass := nextDue now w.timers.mgr.timeoutList, clock := now }
    have hsound : Sound { w with timers := s } := ⟨⟨h.id_lt, h.lap, h.uuids⟩,
      ⟨h.once, h.not_late, h.not_lost⟩, h.made, h.handle, h.ids, h.not_gone, h.gone_lt, h.ran_lt⟩
    refine hsound.begin (fun v hv _ => hv) h.ids ?_ rfl
    intro t ht hran
    obtain ⟨p, hp, -⟩ := h.not_ran t ht hran
    exact absurd hp (by rw [hidle]; exact nofun)
  | callbackDone =>
    simp only [Timers.step] at hs
    split at hs
    · cases hs
    · rename_i p hp
      obtain rfl := Option.some.inj hs
      exact h.callbackDone hp

/-- **Timers run at most once, and not after they were deleted or cleared, and a pass deletes no
timer but the one it ran**, in every state of a run in which timers are set with fresh handles and
no callback deletes or clears a timer that is due and still to come in the same pass.

**Proof sketch.** The invariant is `WatchInv`: an entry still to come in a pass that is due is
pending, a pending timer is not gone and has not run, and no other pending timer has the handle of
the one that runs. The conditions are what the operations need to keep it. When a callback returns,
the handle of its timer is that of no other pending timer, so the deletion takes that timer only. -/
theorem fine_of_spares {w : Watch C} (h : Runs.Reaches Watch.step Spares {} w) : Fine w := by
  have hinit : WatchInv ({} : Watch C) := by
    refine ⟨⟨⟨?_, ?_, List.nodup_nil⟩, ⟨List.nodup_nil, rfl, rfl⟩, rfl, ?_, List.nodup_nil, ?_, ?_,
      ?_⟩, ?_, nofun⟩ <;> exact fun _ hmem => absurd hmem List.not_mem_nil
  have hinv := h.invariant hinit fun _ _ _ hinv hok hstep => hinv.step hok hstep
  exact hinv.toFine

/-- Two timers are due in one pass. The callback of the first sets a third, that of the second
deletes it again. -/
theorem fine_of_callbacks :
    ∃ w : Watch Unit, Runs.Reaches Watch.step Spares {} w ∧ w.ran = [0, 1] ∧ Fine w := by
  have hrun : ((Runs.exec Watch.step Spares ({} : Watch Unit)
      [.setTimeOut 0 100 (some ()), .setTimeOut 0 100 (some ()), .dealTimeOutEvent 100,
        .setTimeOut 100 50 (some ()), .callbackDone, .deleteTimeOut 2, .callbackDone,
        .dealTimeOutEvent 200]).any fun w => w.ran == [0, 1]) = true := by
    decide
  obtain ⟨w, hw, hran⟩ := (Option.any_eq_true _ _).mp hrun
  have hreaches := Runs.reaches_of_exec _ .init hw
  exact ⟨w, hreaches, beq_iff_eq.mp hran, fine_of_spares hreaches⟩

/-- Two timers are due in one pass, and the callback of the first deletes the second: it runs all
the same, from the copy of the list. -/
theorem deleted_timer_runs :
    ¬ ∀ w : Watch Unit, Runs.Reaches Watch.step AnyEvent {} w → Fine w := by
  intro h
  have hrun : ((Runs.exec Watch.step AnyEvent ({} : Watch Unit)
      [.setTimeOut 0 100 (some ()), .setTimeOut 0 100 (some ()), .dealTimeOutEvent 100,
        .deleteTimeOut 1, .callbackDone]).any fun w => w.late == [1]) = true := by
    decide
  obtain ⟨w, hw, hlate⟩ := (Option.any_eq_true _ _).mp hrun
  have hnil := (h w (Runs.reaches_of_exec _ .init hw)).not_late
  rw [beq_iff_eq.mp hlate] at hnil
  cases hnil

end Common
