import JsmjServer.Common.VoteSafety

set_option relaxedAutoImplicit false
set_option autoImplicit false

/-!
# The countdown of a vote

A vote starts a countdown that sets itself again every second (`startVoteTimeOut`). The paths that
end a vote early delete the timer that would end it, and leave that of the countdown.

## Main definitions

* `Common.CountdownRight`, `Common.CountdownExact` — the countdown shows the seconds that are left.
* `Common.Punctual` — a condition on the timers of a room: they run on time and have handles of
  their own.
* `Common.Alone` — a vote is opened when no countdown is under way.

## Main results

* `Common.countdown_right` — the countdown is right in every run in which votes are opened alone.
* `Common.countdown_twice_as_fast` — a vote that follows a refused one is counted down twice.

## Design

Time is that of the events. An event may come on the tick on which a timer is due and before the
pass that runs it, so that between passes the countdown may still show the second that ends.
-/

namespace Common

open VoteRoom

/-! ### The countdown -/

/-- The timer belongs to a countdown. -/
def Timeout.isCountdown (t : Timeout VoteCallback) : Bool :=
  match t.callback with
  | some .startVoteTimeOut => true
  | _ => false

/-- The countdown of the open vote shows 60 less the first step and one for each second that has
passed since the request. On the tick on which a second ends, its step may be still to come. -/
def CountdownRight (s : VoteRoom) : Prop :=
  ∀ b, s.ballot = some b → ∃ k, b.since + kPerecent * k ≤ s.clock ∧
    s.clock ≤ b.since + kPerecent * (k + 1) ∧ s.leftTimeOut + 1 + k = kVoteTimeOut / kPerecent

/-- The countdown shows 60 less the first step and the whole seconds since the request. -/
def CountdownExact (s : VoteRoom) : Prop :=
  ∀ b, s.ballot = some b →
    s.leftTimeOut + 1 + (s.clock - b.since) / kPerecent = kVoteTimeOut / kPerecent

/-! ### The conditions -/

/-- No pending timer has the handle that is given out next. -/
def NewHandle {C : Type} (m : TimeManager C) : Prop := ∀ t ∈ m.timeoutList, t.uuid ≠ m.uuid

instance {C : Type} (m : TimeManager C) : Decidable (NewHandle m) :=
  inferInstanceAs (Decidable (∀ t ∈ m.timeoutList, _))

/-- The countdowns and votes that a pass goes on with are given new handles for their timers. -/
def PassNew (now : ℕ) : VoteRoom → List (Timeout VoteCallback) → Prop
  | _, [] => True
  | s, v :: rest =>
    (v.endTime ≤ now → v.isCountdown ∨ v.isVote → NewHandle s.timeMgr) ∧
      PassNew now (dealTimeOut now s v) rest

instance decidablePassNew (now : ℕ) :
    (s : VoteRoom) → (l : List (Timeout VoteCallback)) → Decidable (PassNew now s l)
  | _, [] => .isTrue trivial
  | s, v :: rest =>
    have := decidablePassNew now (dealTimeOut now s v) rest
    inferInstanceAs (Decidable ((v.endTime ≤ now → _ → NewHandle s.timeMgr) ∧ _))

/-- The message opens a vote. -/
def VoteRoom.Opens (s : VoteRoom) (uid isRequest : ℕ) : Prop :=
  isRequest = 1 ∧ s.voteHandle = none ∧ s.isVIPLock = true ∧ (s.seatOf uid).isSome = true

instance (s : VoteRoom) (uid isRequest : ℕ) : Decidable (s.Opens uid isRequest) :=
  inferInstanceAs (Decidable (_ ∧ s.voteHandle = none ∧ _))

/-- Where an event may set timers, they are given new handles. The rest of the room deletes none of
the timers of a vote. -/
def NewHandles (s : VoteRoom) : VoteRoom.Event → Prop
  | .requestVIPDisband now uid isRequest _ =>
    NewHandle s.timeMgr ∧ (s.Opens uid isRequest → NewHandle (s.beforeVote now))
  | .dealTimeOutEvent now => PassNew now s s.timeMgr.timeoutList
  | .setTimeOut _ _ => NewHandle s.timeMgr
  | .deleteTimeOut handle =>
    ∀ t ∈ s.timeMgr.timeoutList, t.isCountdown ∨ t.isVote → t.uuid ≠ handle
  | .seats _ _ | .lock => True

instance (s : VoteRoom) : (e : VoteRoom.Event) → Decidable (NewHandles s e)
  | .requestVIPDisband _ uid isRequest _ =>
    inferInstanceAs (Decidable (NewHandle s.timeMgr ∧ (s.Opens uid isRequest → _)))
  | .dealTimeOutEvent now => inferInstanceAs (Decidable (PassNew now s _))
  | .setTimeOut _ _ => inferInstanceAs (Decidable (NewHandle s.timeMgr))
  | .deleteTimeOut _ => inferInstanceAs (Decidable (∀ t ∈ s.timeMgr.timeoutList, _))
  | .seats _ _ | .lock => .isTrue trivial

/-- The timers of a vote and its countdown run on the tick on which they are due: no event comes
later than that while they are pending. -/
def OnTime (s : VoteRoom) (e : VoteRoom.Event) : Prop :=
  ∀ now ∈ e.time?, ∀ t ∈ s.timeMgr.timeoutList, t.isCountdown ∨ t.isVote → now ≤ t.endTime

/-- The timers of the room run on time and have handles of their own. -/
def Punctual (s : VoteRoom) (e : VoteRoom.Event) : Prop := NewHandles s e ∧ OnTime s e

instance (s : VoteRoom) (e : VoteRoom.Event) : Decidable (Punctual s e) :=
  inferInstanceAs (Decidable (NewHandles s e ∧ ∀ now ∈ e.time?, _))

/-- A vote is opened only when no countdown is under way. -/
def Alone (s : VoteRoom) : VoteRoom.Event → Prop
  | .requestVIPDisband _ uid isRequest _ =>
    s.Opens uid isRequest → ∀ t ∈ s.timeMgr.timeoutList, ¬ t.isCountdown
  | _ => True

instance (s : VoteRoom) : (e : VoteRoom.Event) → Decidable (Alone s e)
  | .requestVIPDisband _ uid isRequest _ =>
    inferInstanceAs (Decidable (s.Opens uid isRequest → ∀ t ∈ s.timeMgr.timeoutList, _))
  | .dealTimeOutEvent _ | .seats _ _ | .lock | .setTimeOut _ _ | .deleteTimeOut _ => .isTrue trivial

/-- The events of a run in which the countdown is right. -/
def CountsAlone (s : VoteRoom) (e : VoteRoom.Event) : Prop := Punctual s e ∧ Alone s e

instance (s : VoteRoom) (e : VoteRoom.Event) : Decidable (CountsAlone s e) :=
  inferInstanceAs (Decidable (Punctual s e ∧ Alone s e))

/-! ### Handles -/

section Handles

variable {l : List (Timeout VoteCallback)} {t v : Timeout VoteCallback} {h : ℕ}

/-- The pending timers have different handles. -/
def Apart (l : List (Timeout VoteCallback)) : Prop := (l.map (·.uuid)).Nodup

/-- Deleting by a handle takes the one timer that has it. -/
lemma mem_eraseP_iff (hl : Apart l) :
    t ∈ l.eraseP (fun v => v.uuid == h) ↔ t ∈ l ∧ t.uuid ≠ h := by
  induction l with
  | nil => simp
  | cons v l ih =>
    obtain ⟨hv, hl⟩ := List.nodup_cons.mp hl
    by_cases hh : v.uuid = h
    · rw [List.eraseP_cons_of_pos (by simpa using hh)]
      constructor
      · intro ht
        refine ⟨List.mem_cons_of_mem _ ht, fun heq => hv ?_⟩
        exact List.mem_map.mpr ⟨t, ht, heq.trans hh.symm⟩
      · rintro ⟨ht, hne⟩
        obtain rfl | ht := List.mem_cons.mp ht
        · exact absurd hh hne
        · exact ht
    · rw [List.eraseP_cons_of_neg (by simpa using hh), List.mem_cons, List.mem_cons, ih hl]
      constructor
      · rintro (rfl | ⟨ht, hne⟩)
        · exact ⟨.inl rfl, hh⟩
        · exact ⟨.inr ht, hne⟩
      · rintro ⟨rfl | ht, hne⟩
        · exact .inl rfl
        · exact .inr ⟨ht, hne⟩

lemma Apart.eraseP (hl : Apart l) (h : ℕ) : Apart (l.eraseP fun v => v.uuid == h) :=
  hl.sublist (List.eraseP_sublist.map _)

lemma Apart.append (hl : Apart l) (hnew : ∀ t ∈ l, t.uuid ≠ v.uuid) : Apart (l ++ [v]) := by
  rw [Apart, List.map_append, List.nodup_append]
  refine ⟨hl, List.nodup_singleton _, ?_⟩
  rintro a ha b hb rfl
  obtain ⟨t, ht, rfl⟩ := List.mem_map.mp ha
  exact hnew t ht (List.mem_singleton.mp hb)

lemma Apart.eq (hl : Apart l) (ht : t ∈ l) (hv : v ∈ l) (h : t.uuid = v.uuid) : t = v :=
  List.inj_on_of_nodup_map hl ht hv h

/-- A timer is not both. -/
lemma Timeout.not_isVote (h : t.isCountdown) : ¬ t.isVote := by
  unfold Timeout.isCountdown at h
  unfold Timeout.isVote
  split at h
  · rename_i hcallback
    rw [hcallback]
    exact Bool.false_ne_true
  · cases h

end Handles

/-! ### The invariant -/

/-- The countdown of a vote at the time `now`: the timer for its next second is pending, or, on the
tick on which the vote ends, the last second is over. -/
def BallotCounts (l : List (Timeout VoteCallback)) (b : Ballot) (leftTimeOut now : ℕ) : Prop :=
  ∃ k, b.since + kPerecent * k ≤ now ∧ now ≤ b.since + kPerecent * (k + 1) ∧
    leftTimeOut + 1 + k = kVoteTimeOut / kPerecent ∧
    ((∃ t ∈ l, t.isCountdown ∧ t.endTime = b.since + kPerecent * (k + 1)) ∨
      now = b.since + kVoteTimeOut ∧ ∀ t ∈ l, ¬ t.isCountdown)

/-- The pending timers of votes and their countdowns at the time `now`: handles tell them apart,
there is one countdown at most, and the open vote has its timer and its countdown. -/
structure Counting (l : List (Timeout VoteCallback)) (voteHandle : Option ℕ)
    (ballot : Option Ballot) (leftTimeOut now : ℕ) : Prop where
  apart : Apart l
  one : ∀ t ∈ l, t.isCountdown → ∀ t' ∈ l, t'.isCountdown → t = t'
  vote : ∀ t ∈ l, t.isVote → voteHandle = some t.uuid
  closed : ballot = none → voteHandle = none
  ends : ∀ b, ballot = some b → ∃ t ∈ l, t.isVote ∧ t.endTime = b.since + kVoteTimeOut
  counts : ∀ b, ballot = some b → BallotCounts l b leftTimeOut now

section Counting

variable {l l' : List (Timeout VoteCallback)} {voteHandle : Option ℕ} {ballot : Option Ballot}
  {leftTimeOut now : ℕ}

/-- Timers that belong to no vote may come and go. -/
lemma Counting.of_same (h : Counting l voteHandle ballot leftTimeOut now) (hapart : Apart l')
    (hsame : ∀ t, t.isCountdown ∨ t.isVote → (t ∈ l' ↔ t ∈ l)) :
    Counting l' voteHandle ballot leftTimeOut now where
  apart := hapart
  one t ht hcount t' ht' hcount' :=
    h.one t ((hsame t (.inl hcount)).mp ht) hcount t' ((hsame t' (.inl hcount')).mp ht') hcount'
  vote t ht hvote := h.vote t ((hsame t (.inr hvote)).mp ht) hvote
  closed := h.closed
  ends b hb := by
    obtain ⟨t, ht, hvote, hend⟩ := h.ends b hb
    exact ⟨t, (hsame t (.inr hvote)).mpr ht, hvote, hend⟩
  counts b hb := by
    obtain ⟨k, hfrom, hto, hleft, ⟨t, ht, hcount, hend⟩ | ⟨hnow, hnone⟩⟩ := h.counts b hb
    · exact ⟨k, hfrom, hto, hleft, .inl ⟨t, (hsame t (.inl hcount)).mpr ht, hcount, hend⟩⟩
    · refine ⟨k, hfrom, hto, hleft, .inr ⟨hnow, fun t ht hcount => ?_⟩⟩
      exact hnone t ((hsame t (.inl hcount)).mp ht) hcount

/-- Time goes on while the timers of the vote are not overdue. -/
lemma Counting.later (h : Counting l voteHandle ballot leftTimeOut now) {now' : ℕ}
    (hnow : now ≤ now') (hdue : ∀ t ∈ l, t.isCountdown ∨ t.isVote → now' ≤ t.endTime) :
    Counting l voteHandle ballot leftTimeOut now' where
  apart := h.apart
  one := h.one
  vote := h.vote
  closed := h.closed
  ends := h.ends
  counts b hb := by
    obtain ⟨k, hfrom, hto, hleft, ⟨t, ht, hcount, hend⟩ | ⟨hlast, hnone⟩⟩ := h.counts b hb
    · have ht' := hdue t ht (.inl hcount)
      exact ⟨k, by omega, by omega, hleft, .inl ⟨t, ht, hcount, hend⟩⟩
    · obtain ⟨t, ht, hvote, hend⟩ := h.ends b hb
      have ht' := hdue t ht (.inr hvote)
      obtain rfl : now' = now := by omega
      exact ⟨k, hfrom, hto, hleft, .inr ⟨hlast, hnone⟩⟩

/-- A countdown that nobody waits for. -/
lemma counting_closed (hapart : Apart l)
    (hone : ∀ t ∈ l, t.isCountdown → ∀ t' ∈ l, t'.isCountdown → t = t')
    (hvote : ∀ t ∈ l, ¬ t.isVote) : Counting l none none leftTimeOut now where
  apart := hapart
  one := hone
  vote t ht h := absurd h (hvote t ht)
  closed _ := rfl
  ends _ hb := nomatch hb
  counts _ hb := nomatch hb

/-- With the vote ends its timer, and the countdown goes on. -/
lemma Counting.close (h : Counting l voteHandle ballot leftTimeOut now) {handle : ℕ}
    (hhandle : voteHandle = some handle) {left' : ℕ} :
    Counting (l.eraseP fun t => t.uuid == handle) none none left' now := by
  refine counting_closed (h.apart.eraseP handle) ?_ ?_
  · intro t ht hcount t' ht' hcount'
    exact h.one t ((mem_eraseP_iff h.apart).mp ht).1 hcount t'
      ((mem_eraseP_iff h.apart).mp ht').1 hcount'
  · intro t ht hvote
    obtain ⟨ht, hne⟩ := (mem_eraseP_iff h.apart).mp ht
    have := h.vote t ht hvote
    rw [hhandle] at this
    exact hne (Option.some.inj this).symm

/-- A second of the countdown: its timer goes and, unless it is over, the next one comes. -/
lemma Counting.second (h : Counting l voteHandle ballot leftTimeOut now)
    {v next : Timeout VoteCallback} (hv : v ∈ l) (hcount : v.isCountdown) (hdue : v.endTime ≤ now)
    (hnext : next.isCountdown) (hend : next.endTime = now + kPerecent)
    (hnew : ∀ t ∈ l, t.uuid ≠ next.uuid) :
    Counting (if 0 < leftTimeOut then (l.eraseP fun t => t.uuid == v.uuid) ++ [next]
      else l.eraseP fun t => t.uuid == v.uuid) voteHandle ballot (leftTimeOut - 1) now := by
  have hmem : ∀ t, t ∈ (l.eraseP fun t => t.uuid == v.uuid) ↔ t ∈ l ∧ t.uuid ≠ v.uuid :=
    fun t => mem_eraseP_iff h.apart
  have hgone : ∀ t ∈ (l.eraseP fun t => t.uuid == v.uuid), ¬ t.isCountdown := by
    intro t ht htcount
    obtain ⟨ht, hne⟩ := (hmem t).mp ht
    exact hne (by rw [h.one t ht htcount v hv hcount])
  have hkept : ∀ t ∈ l, t.isVote → t ∈ l.eraseP fun t => t.uuid == v.uuid := by
    intro t ht hvote
    refine (hmem t).mpr ⟨ht, fun heq => ?_⟩
    rw [h.apart.eq ht hv heq] at hvote
    exact Timeout.not_isVote hcount hvote
  by_cases hleft : 0 < leftTimeOut
  · simp only [if_pos hleft]
    have hapart := (h.apart.eraseP v.uuid).append fun t ht => hnew t ((hmem t).mp ht).1
    refine ⟨hapart, ?_, ?_, h.closed, ?_, ?_⟩
    · have hall : ∀ t ∈ (l.eraseP fun t => t.uuid == v.uuid) ++ [next],
          t.isCountdown → t = next := by
        intro t ht htcount
        obtain ht | ht := List.mem_append.mp ht
        · exact absurd htcount (hgone t ht)
        · exact List.mem_singleton.mp ht
      intro t ht htcount t' ht' htcount'
      rw [hall t ht htcount, hall t' ht' htcount']
    · intro t ht hvote
      obtain ht | ht := List.mem_append.mp ht
      · exact h.vote t ((hmem t).mp ht).1 hvote
      · rw [List.mem_singleton.mp ht] at hvote
        exact absurd hvote (Timeout.not_isVote hnext)
    · intro b hb
      obtain ⟨t, ht, hvote, htend⟩ := h.ends b hb
      exact ⟨t, List.mem_append_left _ (hkept t ht hvote), hvote, htend⟩
    · intro b hb
      obtain ⟨k, hfrom, hto, hk, ⟨t, ht, htcount, htend⟩ | ⟨-, hnone⟩⟩ := h.counts b hb
      · obtain rfl := h.one t ht htcount v hv hcount
        refine ⟨k + 1, by omega, by rw [Nat.mul_succ]; omega, by omega, .inl ⟨next, ?_, hnext, ?_⟩⟩
        · exact List.mem_append_right _ (List.mem_singleton_self _)
        · rw [hend, Nat.mul_succ]
          omega
      · exact absurd hcount (hnone v hv)
  · simp only [if_neg hleft]
    refine ⟨h.apart.eraseP _, ?_, ?_, h.closed, ?_, ?_⟩
    · exact fun t ht htcount => absurd htcount (hgone t ht)
    · exact fun t ht hvote => h.vote t ((hmem t).mp ht).1 hvote
    · intro b hb
      obtain ⟨t, ht, hvote, htend⟩ := h.ends b hb
      exact ⟨t, hkept t ht hvote, hvote, htend⟩
    · intro b hb
      obtain ⟨k, hfrom, hto, hk, ⟨t, ht, htcount, htend⟩ | ⟨-, hnone⟩⟩ := h.counts b hb
      · obtain rfl := h.one t ht htcount v hv hcount
        have hlast : k = 59 := by
          simp only [kVoteTimeOut, kPerecent] at hk
          omega
        refine ⟨k, hfrom, hto, by omega, .inr ⟨?_, hgone⟩⟩
        simp only [kVoteTimeOut, kPerecent] at *
        omega
      · exact absurd hcount (hnone v hv)

/-- A timer that belongs to no vote is set. -/
lemma Counting.append_other (h : Counting l voteHandle ballot leftTimeOut now)
    {item : Timeout VoteCallback} (hother : item.callback = some .other)
    (hnew : ∀ t ∈ l, t.uuid ≠ item.uuid) :
    Counting (l ++ [item]) voteHandle ballot leftTimeOut now := by
  refine h.of_same (h.apart.append hnew) fun t ht => ?_
  rw [List.mem_append, List.mem_singleton]
  refine or_iff_left fun hitem => ?_
  subst hitem
  simp [Timeout.isCountdown, Timeout.isVote, hother] at ht

/-- Of a vote only the time of its request counts. -/
lemma Counting.agree (h : Counting l voteHandle ballot leftTimeOut now) (pos : ℕ) :
    Counting l voteHandle (ballot.map fun b => { b with yes := b.yes ++ [pos] }) leftTimeOut
      now where
  apart := h.apart
  one := h.one
  vote := h.vote
  closed hb := h.closed (Option.map_eq_none_iff.mp hb)
  ends b hb := by
    obtain ⟨b', hb', rfl⟩ := Option.map_eq_some_iff.mp hb
    exact h.ends b' hb'
  counts b hb := by
    obtain ⟨b', hb', rfl⟩ := Option.map_eq_some_iff.mp hb
    exact h.counts b' hb'

/-- Without a handle there is no vote. -/
lemma Counting.ballot_eq_none (h : Counting l none ballot leftTimeOut now) : ballot = none := by
  cases hb : ballot with
  | none => rfl
  | some b =>
    obtain ⟨t, ht, hvote, -⟩ := h.ends b hb
    exact absurd (h.vote t ht hvote) nofun

end Counting

/-! ### Passes -/

/-- The timers of the room count at the time `now`. -/
def VoteRoom.Counts (s : VoteRoom) (now : ℕ) : Prop :=
  Counting s.timeMgr.timeoutList s.voteHandle s.ballot s.leftTimeOut now

/-- In the middle of a pass: its other timers are still pending, and of those of votes no other is
due. -/
structure InPass (now : ℕ) (s : VoteRoom) (rest : List (Timeout VoteCallback)) : Prop where
  counts : s.Counts now
  apart : Apart rest
  pending : ∀ v ∈ rest, v ∈ s.timeMgr.timeoutList
  due : ∀ t ∈ s.timeMgr.timeoutList, t.isCountdown ∨ t.isVote → t.endTime ≤ now → t ∈ rest

section Passes

variable {now : ℕ} {s s' : VoteRoom} {v : Timeout VoteCallback}
  {rest : List (Timeout VoteCallback)}

/-- The pass is done with a timer. -/
lemma InPass.tail (h : InPass now s (v :: rest)) (hcounts : s'.Counts now)
    (hkept : ∀ t ∈ s.timeMgr.timeoutList, t.uuid ≠ v.uuid → t ∈ s'.timeMgr.timeoutList)
    (hdue : ∀ t ∈ s'.timeMgr.timeoutList, t.isCountdown ∨ t.isVote → t.endTime ≤ now →
      t ∈ s.timeMgr.timeoutList ∧ t ≠ v) : InPass now s' rest := by
  obtain ⟨hv, hrest⟩ := List.nodup_cons.mp h.apart
  refine ⟨hcounts, hrest, fun t ht => ?_, fun t ht hvote hend => ?_⟩
  · refine hkept t (h.pending t (List.mem_cons_of_mem _ ht)) fun heq => hv ?_
    exact List.mem_map.mpr ⟨t, ht, heq⟩
  · obtain ⟨hmem, hne⟩ := hdue t ht hvote hend
    exact (List.mem_cons.mp (h.due t hmem hvote hend)).resolve_left hne

/-- The entry of a pass that the timers are deleted by, and a new timer behind them. -/
lemma mem_eraseP_append {l : List (Timeout VoteCallback)} {item : Timeout VoteCallback}
    (hv : v ∈ l) : (l ++ [item]).eraseP (fun t => t.uuid == v.uuid) =
      l.eraseP (fun t => t.uuid == v.uuid) ++ [item] :=
  List.eraseP_append_left (p := fun t => t.uuid == v.uuid) (a := v) (beq_self_eq_true _) _ hv

/-- One entry of a pass. -/
lemma InPass.dealTimeOut (h : InPass now s (v :: rest))
    (hnew : v.endTime ≤ now → v.isCountdown ∨ v.isVote → NewHandle s.timeMgr) :
    InPass now (VoteRoom.dealTimeOut now s v) rest := by
  have hv := h.pending v List.mem_cons_self
  have hapart := h.counts.apart
  have hmem : ∀ t, t ∈ (s.timeMgr.timeoutList.eraseP fun t => t.uuid == v.uuid) ↔
      t ∈ s.timeMgr.timeoutList ∧ t.uuid ≠ v.uuid := fun t => mem_eraseP_iff hapart
  have hgone : ∀ t ∈ (s.timeMgr.timeoutList.eraseP fun t => t.uuid == v.uuid),
      t ∈ s.timeMgr.timeoutList ∧ t ≠ v := by
    intro t ht
    obtain ⟨ht, hne⟩ := (hmem t).mp ht
    exact ⟨ht, fun heq => hne (by rw [heq])⟩
  unfold VoteRoom.dealTimeOut
  cases hcallback : v.callback with
  | none =>
    refine h.tail h.counts (fun t ht _ => ht) fun t ht hvote _ => ⟨ht, ?_⟩
    rintro rfl
    simp [Timeout.isCountdown, Timeout.isVote, hcallback] at hvote
  | some callback =>
    by_cases hdue : v.endTime ≤ now
    swap
    · simp only [if_neg hdue]
      refine h.tail h.counts (fun t ht _ => ht) fun t ht _ hend => ⟨ht, ?_⟩
      rintro rfl
      exact hdue hend
    simp only [if_pos hdue]
    cases callback with
    | startVoteTimeOut =>
      have hcount : v.isCountdown := by rw [Timeout.isCountdown, hcallback]
      set next : Timeout VoteCallback :=
        ⟨s.timeMgr.made, s.timeMgr.uuid, now + kPerecent, some .startVoteTimeOut⟩ with hnext
      have hsecond := h.counts.second hv hcount hdue (show next.isCountdown from rfl) rfl
        (hnew hdue (.inl hcount))
      simp only [VoteRoom.runCallback, VoteRoom.startVoteTimeOut]
      split_ifs with hleft
      · have hlist : (({ s with leftTimeOut := s.leftTimeOut - 1 }.setTimeOut now kPerecent
            .startVoteTimeOut).deleteTimeOut v.uuid).timeMgr.timeoutList =
            (s.timeMgr.timeoutList.eraseP fun t => t.uuid == v.uuid) ++ [next] :=
          mem_eraseP_append hv
        rw [if_pos hleft] at hsecond
        refine h.tail ?_ (fun t ht hne => ?_) fun t ht _ hend => ?_
        · rw [VoteRoom.Counts, hlist]
          exact hsecond
        · rw [hlist]
          exact List.mem_append_left _ ((hmem t).mpr ⟨ht, hne⟩)
        · rw [hlist] at ht
          obtain ht | ht := List.mem_append.mp ht
          · exact hgone t ht
          · rw [List.mem_singleton.mp ht, hnext, kPerecent] at hend
            dsimp only at hend
            omega
      · have hzero : s.leftTimeOut - 1 = 0 := by omega
        rw [if_neg hleft, hzero] at hsecond
        exact h.tail hsecond (fun t ht hne => (hmem t).mpr ⟨ht, hne⟩) fun t ht _ _ => hgone t ht
    | voteTimeOut uid =>
      have hvote : v.isVote := by rw [Timeout.isVote, hcallback]
      set item : Timeout VoteCallback :=
        ⟨s.timeMgr.made, s.timeMgr.uuid, now + kRobotTimeOut, some .other⟩ with hitem
      have hlist :
          ((s.runCallback now (.voteTimeOut uid)).deleteTimeOut v.uuid).timeMgr.timeoutList =
          (s.timeMgr.timeoutList.eraseP fun t => t.uuid == v.uuid) ++ [item] :=
        mem_eraseP_append hv
      refine h.tail ?_ (fun t ht hne => ?_) fun t ht _ hend => ?_
      · rw [VoteRoom.Counts, hlist]
        refine (h.counts.close (h.counts.vote v hv hvote)).append_other rfl fun t ht => ?_
        exact hnew hdue (.inr hvote) t ((hmem t).mp ht).1
      · rw [hlist]
        exact List.mem_append_left _ ((hmem t).mpr ⟨ht, hne⟩)
      · rw [hlist] at ht
        obtain ht | ht := List.mem_append.mp ht
        · exact hgone t ht
        · rw [List.mem_singleton.mp ht, hitem, kRobotTimeOut, kPerecent] at hend
          dsimp only at hend
          omega
    | other =>
      refine h.tail (h.counts.of_same (hapart.eraseP _) fun t ht => ?_)
        (fun t ht hne => (hmem t).mpr ⟨ht, hne⟩) fun t ht _ _ => hgone t ht
      refine (hmem t).trans (and_iff_left_of_imp fun hmem heq => ?_)
      rw [hapart.eq hmem hv heq] at ht
      simp [Timeout.isCountdown, Timeout.isVote, hcallback] at ht

lemma InPass.foldl (rest : List (Timeout VoteCallback)) {s : VoteRoom} (h : InPass now s rest)
    (hnew : PassNew now s rest) : InPass now (rest.foldl (VoteRoom.dealTimeOut now) s) [] := by
  induction rest generalizing s with
  | nil => exact h
  | cons v rest ih => exact ih (h.dealTimeOut hnew.1) hnew.2

/-- A pass leaves the timers in count, and none of them due. -/
lemma VoteRoom.Counts.dealTimeOutEvent (h : s.Counts now)
    (hnew : PassNew now s s.timeMgr.timeoutList) : InPass now (s.dealTimeOutEvent now) [] :=
  InPass.foldl _ ⟨h, h.apart, fun _ hv => hv, fun _ ht _ _ => ht⟩ hnew

end Passes

/-! ### Events -/

section Events

variable {now : ℕ} {s s' : VoteRoom} {e : VoteRoom.Event}

/-- A disbanding ends the vote. -/
lemma VoteRoom.Counts.onDisband (h : s.Counts now) (hnew : NewHandle s.timeMgr) :
    (s.onDisband now).Counts now := by
  have hcounts := h
  rw [VoteRoom.Counts] at hcounts
  unfold VoteRoom.onDisband
  cases hhandle : s.voteHandle with
  | none =>
    have hballot : s.ballot = none := by
      rw [hhandle] at hcounts
      exact hcounts.ballot_eq_none
    rw [hballot] at hcounts
    refine hcounts.append_other rfl ?_
    exact hnew
  | some handle =>
    refine (hcounts.close hhandle).append_other rfl fun t ht => ?_
    exact hnew t ((mem_eraseP_iff h.apart).mp ht).1

/-- A vote that is opened alone. -/
lemma VoteRoom.Counts.openVote (h : s.Counts now) (hclosed : s.voteHandle = none) (uid pos : ℕ)
    (hnew : NewHandle s.timeMgr) (hnew' : NewHandle (s.beforeVote now))
    (halone : ∀ t ∈ s.timeMgr.timeoutList, ¬ t.isCountdown) :
    (s.openVote now uid pos).Counts now := by
  set first : Timeout VoteCallback :=
    ⟨s.timeMgr.made, s.timeMgr.uuid, now + kPerecent, some .startVoteTimeOut⟩ with hfirst
  set last : Timeout VoteCallback := ⟨(s.beforeVote now).made, (s.beforeVote now).uuid,
    now + kVoteTimeOut, some (.voteTimeOut uid)⟩ with hlast
  have hnone : ∀ t ∈ s.timeMgr.timeoutList, ¬ t.isVote := by
    intro t ht hvote
    have := h.vote t ht hvote
    rw [hclosed] at this
    cases this
  have hmem : ∀ t, t ∈ s.timeMgr.timeoutList ++ [first] ++ [last] ↔
      t ∈ s.timeMgr.timeoutList ∨ t = first ∨ t = last := by
    intro t
    simp only [List.mem_append, List.mem_singleton, or_assoc]
  change Counting (s.timeMgr.timeoutList ++ [first] ++ [last]) (some last.uuid) (some ⟨now, [pos]⟩)
    (kVoteTimeOut / kPerecent - 1) now
  have hone : ∀ t ∈ s.timeMgr.timeoutList ++ [first] ++ [last], t.isCountdown → t = first := by
    intro t ht hcount
    obtain ht | rfl | rfl := (hmem t).mp ht
    · exact absurd hcount (halone t ht)
    · rfl
    · cases hcount
  constructor
  · have hapart : Apart (s.timeMgr.timeoutList ++ [first]) := h.apart.append (v := first) hnew
    exact hapart.append (v := last) hnew'
  · intro t ht hcount t' ht' hcount'
    rw [hone t ht hcount, hone t' ht' hcount']
  · intro t ht hvote
    obtain ht | rfl | rfl := (hmem t).mp ht
    · exact absurd hvote (hnone t ht)
    · cases hvote
    · rfl
  · exact nofun
  · intro b hb
    obtain rfl := Option.some.inj hb
    exact ⟨last, (hmem last).mpr (.inr (.inr rfl)), rfl, rfl⟩
  · intro b hb
    obtain rfl := Option.some.inj hb
    refine ⟨0, by simp, by simp, by decide, .inl ⟨first, ?_, rfl, ?_⟩⟩
    · exact (hmem first).mpr (.inr (.inl rfl))
    · simp [hfirst]

lemma VoteRoom.Counts.onPlayerRequestDisband (h : s.Counts now) (uid willDisband : ℕ)
    (hnew : NewHandles s (.requestVIPDisband now uid 1 willDisband))
    (halone : Alone s (.requestVIPDisband now uid 1 willDisband)) :
    (s.onPlayerRequestDisband now uid).Counts now := by
  unfold VoteRoom.onPlayerRequestDisband
  by_cases hvote : s.voteHandle.isSome
  · rw [if_pos hvote]
    exact h
  rw [if_neg hvote]
  have hclosed : s.voteHandle = none := by simpa using hvote
  by_cases hplayer : (s.players uid).isSome
  · rw [if_pos hplayer]
    cases hpos : s.seatOf uid with
    | none => exact h
    | some pos =>
      dsimp only
      split_ifs with hlock hown
      · have hopens : s.Opens uid 1 := ⟨rfl, hclosed, hlock, by rw [hpos]; rfl⟩
        exact h.openVote hclosed uid pos hnew.1 (hnew.2 hopens) (halone hopens)
      · exact h.onDisband hnew.1
      · exact h
  · rw [if_neg hplayer]
    split_ifs
    · exact h.onDisband hnew.1
    · exact h

lemma VoteRoom.Counts.onPlayerVote (h : s.Counts now) (uid willDisband : ℕ)
    (hnew : NewHandle s.timeMgr) : (s.onPlayerVote now uid willDisband).Counts now := by
  unfold VoteRoom.onPlayerVote
  split
  · exact h
  rename_i handle hhandle
  split
  · exact h
  rename_i pos hpos
  by_cases hdisagree : willDisband = kVoteClientDisagree
  · rw [if_pos hdisagree]
    exact Counting.close h hhandle
  rw [if_neg hdisagree]
  have hagree : (s.agree uid pos).Counts now := Counting.agree h pos
  dsimp only
  split_ifs
  · exact hagree.onDisband hnew
  · exact hagree

/-- What an event leaves of the timers when it comes in time. -/
lemma VoteRoom.Counts.handle (h : s.Counts now) (hnow : ∀ t ∈ e.time?, t = now)
    (hnew : NewHandles s e) (halone : Alone s e) : (s.handle e).Counts now := by
  cases e with
  | requestVIPDisband t uid isRequest willDisband =>
    obtain rfl := hnow t rfl
    simp only [VoteRoom.handle, VoteRoom.onPlayerDisband]
    split_ifs with hrequest
    · subst hrequest
      exact h.onPlayerRequestDisband uid willDisband hnew halone
    · exact h.onPlayerVote uid willDisband hnew.1
  | dealTimeOutEvent t =>
    obtain rfl := hnow t rfl
    exact (h.dealTimeOutEvent hnew).counts
  | seats players watchers => exact h
  | lock => exact h
  | setTimeOut t delayMS =>
    obtain rfl := hnow t rfl
    exact Counting.append_other h rfl hnew
  | deleteTimeOut handle =>
    refine Counting.of_same h (h.apart.eraseP handle) fun t ht => ?_
    exact (mem_eraseP_iff h.apart).trans (and_iff_left_of_imp fun hmem => hnew t hmem ht)

/-- The time of an event that comes in time. -/
lemma VoteRoom.Counts.later (h : s.Counts s.clock) (htime : OnTime s e)
    (hstep : s.step e = some s') :
    s.Counts s'.clock ∧ (∀ t ∈ e.time?, t = s'.clock) ∧
      s' = { s.handle e with clock := s'.clock } := by
  simp only [VoteRoom.step] at hstep
  split_ifs at hstep with hpast
  obtain rfl := Option.some.inj hstep
  cases htime? : e.time? with
  | none => exact ⟨h, fun t ht => absurd ht (by simp), rfl⟩
  | some t =>
    rw [htime?, Option.any_some, decide_eq_true_eq] at hpast
    refine ⟨Counting.later h (by simpa using hpast) (htime t htime?), ?_, rfl⟩
    exact fun t' ht' => (Option.some.inj ht').symm

lemma VoteRoom.Counts.step (h : s.Counts s.clock) (hok : CountsAlone s e)
    (hstep : s.step e = some s') : s'.Counts s'.clock := by
  obtain ⟨⟨hnew, htime⟩, halone⟩ := hok
  obtain ⟨hlater, hnow, hs'⟩ := h.later htime hstep
  rw [hs']
  exact hlater.handle hnow hnew halone

/-- The count of the timers makes the countdown right. -/
lemma VoteRoom.Counts.right (h : s.Counts s.clock) : CountdownRight s := by
  intro b hb
  obtain ⟨k, hfrom, hto, hleft, -⟩ := h.counts b hb
  exact ⟨k, hfrom, hto, hleft⟩

/-- After a pass the second is over only when its step is done. -/
lemma VoteRoom.Counts.exact (h : s.Counts s.clock) {now : ℕ}
    (hok : CountsAlone s (.dealTimeOutEvent now))
    (hstep : s.step (.dealTimeOutEvent now) = some s') : CountdownExact s' := by
  obtain ⟨⟨hnew, htime⟩, -⟩ := hok
  obtain ⟨hlater, hnow, hs'⟩ := h.later htime hstep
  obtain rfl := hnow now rfl
  have hpass := hlater.dealTimeOutEvent hnew
  intro b hb
  rw [hs'] at hb
  obtain ⟨k, hfrom, hto, hleft, ⟨t, ht, hcount, hend⟩ | ⟨hlast, -⟩⟩ := hpass.counts.counts b hb
  · have hlater : s'.clock < t.endTime := by
      by_contra hdue
      exact absurd (hpass.due t ht (.inl hcount) (by omega)) List.not_mem_nil
    have hseconds : (s'.clock - b.since) / kPerecent = k := by
      rw [Nat.div_eq_iff (by decide)]
      simp only [kPerecent] at *
      omega
    rw [hseconds, ← hleft, hs']
    rfl
  · obtain ⟨t, ht, hvote, hend⟩ := hpass.counts.ends b hb
    exact absurd (hpass.due t ht (.inr hvote) (by omega)) List.not_mem_nil

end Events

/-- **The countdown of a vote is right** in every run in which the timers run on time, with handles
of their own, and a vote is opened only when no countdown is under way: it shows 60 less the first
step and one for every second since the request, and after every pass it is exact.

**Proof sketch.** The invariant is `Counting`: there is one countdown at most, and that of the open
vote is due where the next second ends. An entry of a pass replaces it by the one for the second
after (`Counting.second`); a vote that ends takes its own timer with it and leaves the countdown,
which goes on for itself and is the reason why the next vote has to be opened alone. -/
theorem countdown_right {s₀ s : VoteRoom} (hnew : NewRoom s₀)
    (h : Runs.Reaches VoteRoom.step CountsAlone s₀ s) :
    CountdownRight s ∧ ∀ now s', CountsAlone s (.dealTimeOutEvent now) →
      s.step (.dealTimeOutEvent now) = some s' → CountdownExact s' := by
  have hinit : s₀.Counts s₀.clock := by
    rw [VoteRoom.Counts, hnew.timers, hnew.voteHandle, hnew.ballot]
    exact counting_closed List.nodup_nil nofun nofun
  have hcounts : s.Counts s.clock :=
    h.invariant (I := fun s => s.Counts s.clock) hinit
      fun _ _ _ hcounts hok hstep => hcounts.step hok hstep
  exact ⟨hcounts.right, fun now s' hok hstep => hcounts.exact hok hstep⟩

/-- A vote is refused, its countdown runs out, and three seconds after the request for another one
57 less the first step are left. -/
theorem countdown_right_second_vote :
    ∃ s, Runs.Reaches VoteRoom.step CountsAlone twoSeats s ∧ s.ballot = some ⟨6020, [1]⟩ ∧
      s.clock = 6320 ∧ s.leftTimeOut = 56 ∧ CountdownRight s := by
  have hrun : ((Runs.exec VoteRoom.step CountsAlone twoSeats
      ([.requestVIPDisband 10 1 1 1, .requestVIPDisband 20 2 0 0] ++
        (List.range 60).map (fun k => .dealTimeOutEvent (110 + 100 * k)) ++
        [.requestVIPDisband 6020 1 1 1, .dealTimeOutEvent 6120, .dealTimeOutEvent 6220,
          .dealTimeOutEvent 6320])).any fun s =>
      s.ballot == some ⟨6020, [1]⟩ && s.clock == 6320 && s.leftTimeOut == 56) = true := by
    decide +kernel
  obtain ⟨s, hs, hfinal⟩ := (Option.any_eq_true _ _).mp hrun
  simp only [Bool.and_eq_true, beq_iff_eq] at hfinal
  obtain ⟨⟨hballot, hclock⟩, hleft⟩ := hfinal
  have hreaches := Runs.reaches_of_exec _ .init hs
  exact ⟨s, hreaches, hballot, hclock, hleft, (countdown_right ⟨rfl, rfl, rfl, rfl⟩ hreaches).1⟩

/-- A vote is refused at once and the next one opened, and after one second two of its seconds are
gone: the countdown of the first vote is still under way. -/
theorem countdown_twice_as_fast :
    ∃ s, Runs.Reaches VoteRoom.step Punctual twoSeats s ∧ ¬ CountdownRight s := by
  have hrun : ((Runs.exec VoteRoom.step Punctual twoSeats
      [.requestVIPDisband 10 1 1 1, .requestVIPDisband 10 2 0 0, .requestVIPDisband 10 1 1 1,
        .dealTimeOutEvent 110]).any fun s =>
      s.ballot == some ⟨10, [1]⟩ && s.clock == 110 && s.leftTimeOut == 57) = true := by
    decide +kernel
  obtain ⟨s, hs, hfinal⟩ := (Option.any_eq_true _ _).mp hrun
  simp only [Bool.and_eq_true, beq_iff_eq] at hfinal
  obtain ⟨⟨hballot, hclock⟩, hleft⟩ := hfinal
  refine ⟨s, Runs.reaches_of_exec _ .init hs, fun hright => ?_⟩
  obtain ⟨k, hfrom, -, hk⟩ := hright _ hballot
  rw [hclock, hleft] at *
  simp only [kVoteTimeOut, kPerecent] at hfrom hk
  omega

end Common
