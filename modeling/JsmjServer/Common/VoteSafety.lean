import JsmjServer.Common.VoteManager
import Mathlib.Data.List.Nodup

set_option relaxedAutoImplicit false
set_option autoImplicit false

/-!
# A room is disbanded by its vote

Four paths end a vote, and each of them deletes the timer that would end it. The deletion goes by
the handle of the timer and takes the first pending timer that has it. A timer that is set later
comes later in the list, so it is enough that no timer had the handle when the vote was opened.

## Main results

* `Common.voteSafe_of_fresh` — in a run in which votes are opened with fresh handles, a locked room
  is disbanded only by the vote that is open.
* `Common.timer_of_ended_vote` — a run that disbands a room by the timer of an ended vote.
-/

namespace Common

open VoteRoom

/-! ### The first timer with a handle -/

section First

variable {C : Type} {l : List (Timeout C)} {t : Timeout C} {h k : ℕ}

/-- Deleting by another handle does not change which timer is the first with a handle. -/
lemma find?_eraseP_of_ne (hne : k ≠ h) :
    (l.eraseP fun v => v.uuid == k).find? (fun v => v.uuid == h) = l.find? fun v => v.uuid == h := by
  induction l with
  | nil => rfl
  | cons v l ih =>
    by_cases hk : v.uuid = k
    · have hv : ¬ v.uuid = h := fun hvh => hne (hk.symm.trans hvh)
      rw [List.eraseP_cons_of_pos (by simpa using hk), List.find?_cons_of_neg (by simpa using hv)]
    · rw [List.eraseP_cons_of_neg (by simpa using hk), List.find?_cons, List.find?_cons, ih]

/-- Deleting by a handle takes the first timer that has it. -/
lemma notMem_eraseP_of_find? (hnodup : l.Nodup) (hfind : l.find? (fun v => v.uuid == h) = some t) :
    t ∉ l.eraseP fun v => v.uuid == h := by
  induction l with
  | nil => cases hfind
  | cons v l ih =>
    obtain ⟨hv, hnodup⟩ := List.nodup_cons.mp hnodup
    by_cases hh : v.uuid = h
    · rw [List.find?_cons_of_pos (by simpa using hh)] at hfind
      rw [List.eraseP_cons_of_pos (by simpa using hh), ← Option.some.inj hfind]
      exact hv
    · rw [List.find?_cons_of_neg (by simpa using hh)] at hfind
      rw [List.eraseP_cons_of_neg (by simpa using hh), List.mem_cons]
      rintro (rfl | hmem)
      · exact hv (List.mem_of_find?_eq_some hfind)
      · exact ih hnodup hfind hmem

end First

/-! ### The timer of the vote -/

/-- A pending timer that ends a vote is that of the open vote: it is not due before 60 seconds have
passed, and it is the first with the handle of the vote. -/
def TimerOk (l : List (Timeout VoteCallback)) (voteHandle : Option ℕ) (ballot : Option Ballot) :
    Prop :=
  ∀ t ∈ l, t.isVote → ∃ h b, voteHandle = some h ∧ ballot = some b ∧
    b.since + kVoteTimeOut ≤ t.endTime ∧ l.find? (fun v => v.uuid == h) = some t

section TimerOk

variable {l : List (Timeout VoteCallback)} {voteHandle : Option ℕ} {ballot : Option Ballot}

lemma TimerOk.none_left (h : TimerOk l none ballot) : ∀ t ∈ l, ¬ t.isVote := by
  intro t ht hvote
  obtain ⟨_, _, hhandle, -⟩ := h t ht hvote
  cases hhandle

lemma timerOk_of_none_left (h : ∀ t ∈ l, ¬ t.isVote) : TimerOk l voteHandle ballot :=
  fun t ht hvote => absurd hvote (h t ht)

lemma TimerOk.eraseP (h : TimerOk l voteHandle ballot) (hnodup : l.Nodup) (k : ℕ) :
    TimerOk (l.eraseP fun v => v.uuid == k) voteHandle ballot := by
  intro t ht hvote
  obtain ⟨handle, b, hhandle, hb, hend, hfind⟩ := h t (List.mem_of_mem_eraseP ht) hvote
  refine ⟨handle, b, hhandle, hb, hend, ?_⟩
  by_cases hk : k = handle
  · subst hk
    exact absurd ht (notMem_eraseP_of_find? hnodup hfind)
  · rw [find?_eraseP_of_ne hk]
    exact hfind

/-- Deleting by the handle of the vote leaves no timer that ends a vote. -/
lemma TimerOk.closed {handle : ℕ} (h : TimerOk l (some handle) ballot) (hnodup : l.Nodup) :
    ∀ t ∈ l.eraseP fun v => v.uuid == handle, ¬ t.isVote := by
  intro t ht hvote
  obtain ⟨_, b, hhandle, hb, hend, hfind⟩ := h t (List.mem_of_mem_eraseP ht) hvote
  obtain rfl := Option.some.inj hhandle
  exact notMem_eraseP_of_find? hnodup hfind ht

lemma TimerOk.append (h : TimerOk l voteHandle ballot) {x : Timeout VoteCallback}
    (hx : ¬ x.isVote) : TimerOk (l ++ [x]) voteHandle ballot := by
  intro t ht hvote
  obtain ht | ht := List.mem_append.mp ht
  · obtain ⟨handle, b, hhandle, hb, hend, hfind⟩ := h t ht hvote
    refine ⟨handle, b, hhandle, hb, hend, ?_⟩
    rw [List.find?_append, hfind]
    rfl
  · exact absurd (List.mem_singleton.mp ht ▸ hvote) hx

end TimerOk

/-! ### The invariant -/

/-- The pending timers are different tables. -/
structure Distinct {C : Type} (m : TimeManager C) : Prop where
  id_lt : ∀ t ∈ m.timeoutList, t.id < m.made
  nodup : m.timeoutList.Nodup

lemma Distinct.setTimeOut {C : Type} {m : TimeManager C} (h : Distinct m) (now delayMS : ℕ)
    (callback : Option C) : Distinct (m.setTimeOut now delayMS callback) := by
  constructor
  · intro t ht
    obtain ht | ht := List.mem_append.mp ht
    · exact Nat.lt_succ_of_lt (h.id_lt t ht)
    · rw [List.mem_singleton.mp ht]
      exact Nat.lt_succ_self _
  · refine h.nodup.append (List.nodup_singleton _) (List.disjoint_singleton.mpr fun hmem => ?_)
    exact lt_irrefl _ (h.id_lt _ hmem)

lemma Distinct.deleteTimeOut {C : Type} {m : TimeManager C} (h : Distinct m) (handle : ℕ) :
    Distinct (m.deleteTimeOut handle) :=
  ⟨fun t ht => h.id_lt t (List.mem_of_mem_eraseP ht), h.nodup.sublist List.eraseP_sublist⟩

/-- The seats that count are those that asked or agreed in the vote. -/
def Counted (voteList : List VoteItem) (maxPlayer : ℕ) (b : Ballot) : Prop :=
  ∀ pos, 1 ≤ pos → pos ≤ maxPlayer →
    ∃ item, voteList[pos - 1]? = some item ∧ (item.status ≠ .null ↔ pos ∈ b.yes)

structure VoteInv (s : VoteRoom) : Prop where
  distinct : Distinct s.timeMgr
  timer : TimerOk s.timeMgr.timeoutList s.voteHandle s.ballot
  open_iff : s.voteHandle = none ↔ s.ballot = none
  counted : ∀ b, s.ballot = some b → Counted s.voteList s.maxPlayer b
  fair : ∀ d ∈ s.disbandings, d.locked → d.Fair s.maxPlayer

lemma VoteInv.voteSafe {s : VoteRoom} (h : VoteInv s) : VoteSafe s where
  fair := h.fair
  ended hballot := by
    have hhandle := h.open_iff.mpr hballot
    have htimer := h.timer
    rw [hhandle] at htimer
    exact ⟨hhandle, htimer.none_left⟩
  counted := h.counted

/-- Where no vote is open it is enough that no timer of a vote is pending. -/
lemma voteInv_closed {s : VoteRoom} (hdistinct : Distinct s.timeMgr)
    (hleft : ∀ t ∈ s.timeMgr.timeoutList, ¬ t.isVote) (hhandle : s.voteHandle = none)
    (hballot : s.ballot = none) (hfair : ∀ d ∈ s.disbandings, d.locked → d.Fair s.maxPlayer) :
    VoteInv s where
  distinct := hdistinct
  timer := timerOk_of_none_left hleft
  open_iff := iff_of_true hhandle hballot
  counted b hb := absurd hb (by rw [hballot]; exact nofun)
  fair := hfair

/-- Other timers may be set. -/
lemma VoteInv.setTimeOut {s : VoteRoom} (h : VoteInv s) (now delayMS : ℕ) {callback : VoteCallback}
    (hother : ∀ uid, callback ≠ .voteTimeOut uid) : VoteInv (s.setTimeOut now delayMS callback) where
  distinct := h.distinct.setTimeOut now delayMS _
  timer := by
    refine h.timer.append ?_
    cases callback with
    | startVoteTimeOut => exact Bool.false_ne_true
    | voteTimeOut uid => exact absurd rfl (hother uid)
    | other => exact Bool.false_ne_true
  open_iff := h.open_iff
  counted := h.counted
  fair := h.fair

/-- Any timer may be deleted. -/
lemma VoteInv.deleteTimeOut {s : VoteRoom} (h : VoteInv s) (handle : ℕ) :
    VoteInv (s.deleteTimeOut handle) where
  distinct := h.distinct.deleteTimeOut handle
  timer := h.timer.eraseP h.distinct.nodup handle
  open_iff := h.open_iff
  counted := h.counted
  fair := h.fair

lemma VoteInv.startVoteTimeOut {s : VoteRoom} (h : VoteInv s) (now : ℕ) :
    VoteInv (s.startVoteTimeOut now) := by
  unfold VoteRoom.startVoteTimeOut
  split_ifs
  · exact VoteInv.setTimeOut (s := { s with leftTimeOut := s.leftTimeOut - 1 })
      ⟨h.distinct, h.timer, h.open_iff, h.counted, h.fair⟩ now kPerecent nofun
  · exact ⟨h.distinct, h.timer, h.open_iff, h.counted, h.fair⟩

/-- A disbanding that the open vote allows. -/
lemma VoteInv.onDisband {s : VoteRoom} (h : VoteInv s) (now : ℕ)
    (hfair : s.isVIPLock → (Disbanding.mk s.ballot now s.isVIPLock).Fair s.maxPlayer) :
    VoteInv (s.onDisband now) := by
  have hall : ∀ d ∈ s.disbandings ++ [Disbanding.mk s.ballot now s.isVIPLock], d.locked →
      d.Fair s.maxPlayer := by
    intro d hd hlocked
    obtain hd | hd := List.mem_append.mp hd
    · exact h.fair d hd hlocked
    · rw [List.mem_singleton.mp hd] at hlocked ⊢
      exact hfair hlocked
  unfold VoteRoom.onDisband
  have htimer := h.timer
  cases hhandle : s.voteHandle with
  | none =>
    rw [hhandle] at htimer
    exact (voteInv_closed (s := { s with
      disband := true
      ballot := none
      disbandings := _ }) h.distinct htimer.none_left hhandle rfl hall).setTimeOut now _ nofun
  | some handle =>
    rw [hhandle] at htimer
    exact (voteInv_closed (s := { s.deleteTimeOut handle with
      voteHandle := none
      disband := true
      ballot := none
      disbandings := _ }) (h.distinct.deleteTimeOut handle) (htimer.closed h.distinct.nodup) rfl rfl
      hall).setTimeOut now _ nofun

/-! ### Votes -/

lemma seatOf_spec {s : VoteRoom} {uid pos : ℕ} (h : s.seatOf uid = some pos) :
    1 ≤ pos ∧ pos ≤ s.maxPlayer := by
  have hpos := (Option.filter_eq_some_iff.mp h).2
  simp only [Bool.and_eq_true, decide_eq_true_eq] at hpos
  exact hpos

/-- In a new vote the seat that asked counts, and no other. -/
lemma counted_openVote {maxPlayer pos : ℕ} (now uid : ℕ) (hpos : 1 ≤ pos) (hmax : pos ≤ maxPlayer) :
    Counted ((List.replicate maxPlayer (VoteItem.mk .null 0)).set (pos - 1) ⟨.request, uid⟩) maxPlayer
      ⟨now, [pos]⟩ := by
  intro q hq hqmax
  rw [List.getElem?_set, List.length_replicate]
  by_cases heq : pos = q
  · subst heq
    rw [if_pos rfl, if_pos (by omega)]
    exact ⟨_, rfl, by simp⟩
  · rw [if_neg (by omega), List.getElem?_replicate, if_pos (by omega)]
    exact ⟨_, rfl, by simp [Ne.symm heq]⟩

/-- A seat that agrees counts from then on. -/
lemma Counted.agree {voteList : List VoteItem} {maxPlayer pos : ℕ} {b : Ballot}
    (h : Counted voteList maxPlayer b) (uid : ℕ) (hpos : 1 ≤ pos) (hmax : pos ≤ maxPlayer) :
    Counted (if (voteList[pos - 1]?).any (fun item => item.status == .null) then
        voteList.set (pos - 1) ⟨.agree, uid⟩ else voteList) maxPlayer
      { b with yes := b.yes ++ [pos] } := by
  obtain ⟨item, hitem, hcounted⟩ := h pos hpos hmax
  intro q hq hqmax
  by_cases heq : pos = q
  · subst heq
    rw [hitem, Option.any_some]
    split_ifs with hnull
    · have hlt := (List.getElem?_eq_some_iff.mp hitem).1
      rw [List.getElem?_set_self hlt]
      exact ⟨_, rfl, by simp⟩
    · exact ⟨item, hitem, by simpa using hnull⟩
  · obtain ⟨item', hitem', hcounted'⟩ := h q hq hqmax
    refine ⟨item', ?_, by simpa [Ne.symm heq] using hcounted'⟩
    split_ifs
    · rw [List.getElem?_set_ne (by omega)]
      exact hitem'
    · exact hitem'

lemma VoteInv.openVote {s : VoteRoom} (h : VoteInv s) (now uid pos : ℕ) (hclosed : s.voteHandle = none)
    (hseat : s.seatOf uid = some pos)
    (hfresh : ∀ t ∈ (s.beforeVote now).timeoutList, t.uuid ≠ (s.beforeVote now).uuid) :
    VoteInv (s.openVote now uid pos) := by
  obtain ⟨hpos, hmax⟩ := seatOf_spec hseat
  have htimer := h.timer
  rw [hclosed] at htimer
  have hbefore : ∀ t ∈ (s.beforeVote now).timeoutList, ¬ t.isVote := by
    intro t ht
    obtain ht | ht := List.mem_append.mp ht
    · exact htimer.none_left t ht
    · rw [List.mem_singleton.mp ht]
      exact Bool.false_ne_true
  refine ⟨(h.distinct.setTimeOut _ _ _).setTimeOut _ _ _, ?_, ?_, ?_, h.fair⟩
  · intro t ht hvote
    have ht : t ∈ (s.beforeVote now).timeoutList ++ [_] := ht
    obtain ht | ht := List.mem_append.mp ht
    · exact absurd hvote (hbefore t ht)
    · obtain rfl := List.mem_singleton.mp ht
      refine ⟨_, _, rfl, rfl, le_refl _, ?_⟩
      have hnone : (s.beforeVote now).timeoutList.find?
          (fun v => v.uuid == (s.beforeVote now).uuid) = none :=
        List.find?_eq_none.mpr fun t ht => by simpa using hfresh t ht
      change ((s.beforeVote now).timeoutList ++ [_]).find?
        (fun v : Timeout VoteCallback => v.uuid == (s.beforeVote now).uuid) = _
      rw [List.find?_append, hnone, Option.none_or]
      exact List.find?_cons_of_pos (beq_self_eq_true _)
  · exact iff_of_false nofun nofun
  · intro b hb
    obtain rfl := Option.some.inj hb
    exact counted_openVote now uid hpos hmax

lemma VoteInv.onPlayerRequestDisband {s : VoteRoom} (h : VoteInv s) (now uid willDisband : ℕ)
    (hok : FreshVote s (.requestVIPDisband now uid 1 willDisband)) :
    VoteInv (s.onPlayerRequestDisband now uid) := by
  have hopen : ¬ s.isVIPLock → VoteInv (s.sendVoteResultMsg now true) :=
    fun hlock => h.onDisband now fun hlocked => absurd hlocked hlock
  unfold VoteRoom.onPlayerRequestDisband
  by_cases hvote : s.voteHandle.isSome
  · rw [if_pos hvote]
    exact h
  rw [if_neg hvote]
  have hclosed : s.voteHandle = none := by simpa using hvote
  by_cases hplayer : (s.players uid).isSome
  · rw [if_pos hplayer]
    cases hpos : s.seatOf uid with
    | none => exact h
    | some pos =>
      dsimp only
      split_ifs with hlock hown
      · exact h.openVote now uid pos hclosed hpos (hok rfl hclosed hlock (by rw [hpos]; rfl))
      · exact hopen hlock
      · exact h
  · rw [if_neg hplayer]
    split_ifs with hown
    · exact hopen hown.2.2
    · exact h

lemma VoteInv.onPlayerVote {s : VoteRoom} (h : VoteInv s) (now uid willDisband : ℕ) :
    VoteInv (s.onPlayerVote now uid willDisband) := by
  unfold VoteRoom.onPlayerVote
  split
  · exact h
  rename_i handle hhandle
  split
  · exact h
  rename_i pos hpos
  obtain ⟨hpos, hmax⟩ := seatOf_spec hpos
  have htimer := h.timer
  rw [hhandle] at htimer
  by_cases hdisagree : willDisband = kVoteClientDisagree
  · rw [if_pos hdisagree]
    exact voteInv_closed (h.distinct.deleteTimeOut handle) (htimer.closed h.distinct.nodup) rfl rfl
      h.fair
  rw [if_neg hdisagree]
  obtain ⟨b, hb⟩ : ∃ b, s.ballot = some b := by
    rw [← Option.ne_none_iff_exists']
    intro hnone
    exact absurd (h.open_iff.mpr hnone) (by rw [hhandle]; exact nofun)
  have hballot : (s.agree uid pos).ballot = some { b with yes := b.yes ++ [pos] } := by
    simp only [VoteRoom.agree, hb, Option.map_some]
  have hcounted := (h.counted b hb).agree uid hpos hmax
  have hagree : VoteInv (s.agree uid pos) := by
    refine ⟨h.distinct, ?_, ?_, ?_, h.fair⟩
    · intro t ht hvote
      obtain ⟨handle', b', hhandle', hb', hend, hfind⟩ := h.timer t ht hvote
      obtain rfl := Option.some.inj (hb.symm.trans hb')
      exact ⟨handle', _, hhandle', hballot, hend, hfind⟩
    · rw [hballot]
      exact iff_of_false (by simp [VoteRoom.agree, hhandle]) nofun
    · intro b' hb'
      obtain rfl := Option.some.inj (hballot.symm.trans hb')
      exact hcounted
  dsimp only
  split_ifs with hall
  · refine hagree.onDisband now fun _ => ⟨_, hballot, .inl ?_⟩
    intro q hq hqmax
    obtain ⟨item, hitem, hiff⟩ := hcounted q hq hqmax
    have hmem : item ∈ (s.agree uid pos).voteList := List.mem_of_getElem? hitem
    have hnot := List.all_eq_true.mp hall item hmem
    exact hiff.mp (by simpa using hnot)
  · exact hagree

/-! ### Passes -/

/-- The timer of the vote fires: 60 seconds have passed, and with the timer the vote is over. -/
lemma VoteInv.timeout {s : VoteRoom} (h : VoteInv s) {v : Timeout VoteCallback} {now uid : ℕ}
    (hv : v ∈ s.timeMgr.timeoutList) (hcallback : v.callback = some (.voteTimeOut uid))
    (hdue : v.endTime ≤ now) :
    VoteInv ((s.runCallback now (.voteTimeOut uid)).deleteTimeOut v.uuid) ∧
      ∀ t ∈ s.timeMgr.timeoutList, t.isVote → t = v := by
  have hvote : v.isVote := by rw [Timeout.isVote, hcallback]
  obtain ⟨handle, b, hhandle, hb, hend, hfind⟩ := h.timer v hv hvote
  have huuid : v.uuid = handle := by simpa using List.find?_some hfind
  have hall : ∀ t ∈ s.timeMgr.timeoutList, t.isVote → t = v := by
    intro t ht htvote
    obtain ⟨handle', -, hhandle', -, -, hfind'⟩ := h.timer t ht htvote
    obtain rfl := Option.some.inj (hhandle.symm.trans hhandle')
    exact Option.some.inj (hfind'.symm.trans hfind)
  refine ⟨voteInv_closed ((h.distinct.setTimeOut _ _ _).deleteTimeOut _) ?_ rfl rfl ?_, hall⟩
  · intro t ht htvote
    set item : Timeout VoteCallback :=
      ⟨s.timeMgr.made, s.timeMgr.uuid, now + kRobotTimeOut, some .other⟩ with hitem
    have ht : t ∈ (s.timeMgr.timeoutList ++ [item]).eraseP fun t => t.uuid == v.uuid := ht
    rw [List.eraseP_append_left (p := fun t => t.uuid == v.uuid) (a := v) (beq_self_eq_true _) _
      hv] at ht
    obtain ht | ht := List.mem_append.mp ht
    · refine notMem_eraseP_of_find? h.distinct.nodup ?_ ht
      rw [huuid, hfind, hall t (List.mem_of_mem_eraseP ht) htvote]
    · rw [List.mem_singleton.mp ht] at htvote
      exact Bool.false_ne_true htvote
  · intro d hd hlocked
    have hd : d ∈ s.disbandings ++ [Disbanding.mk s.ballot now s.isVIPLock] := hd
    obtain hd | hd := List.mem_append.mp hd
    · exact h.fair d hd hlocked
    · rw [List.mem_singleton.mp hd]
      exact ⟨b, hb, .inr (hend.trans hdue)⟩

/-- What is still to come in a pass: different timers, of which the one that ends the vote is still
pending and has a handle that none before it has. -/
structure ToCome (s : VoteRoom) (l : List (Timeout VoteCallback)) : Prop where
  nodup : l.Nodup
  vote : ∀ v ∈ l, v.isVote →
    v ∈ s.timeMgr.timeoutList ∧ l.find? (fun t => t.uuid == v.uuid) = some v

/-- An entry that does not end a vote only takes timers with its own handle from the list. -/
lemma ToCome.tail {s s' : VoteRoom} {v : Timeout VoteCallback} {l : List (Timeout VoteCallback)}
    (h : ToCome s (v :: l))
    (hkept : ∀ t ∈ s.timeMgr.timeoutList, t.uuid ≠ v.uuid → t ∈ s'.timeMgr.timeoutList) :
    ToCome s' l := by
  obtain ⟨hv, hnodup⟩ := List.nodup_cons.mp h.nodup
  refine ⟨hnodup, fun t ht hvote => ?_⟩
  obtain ⟨hmem, hfind⟩ := h.vote t (List.mem_cons_of_mem _ ht) hvote
  by_cases huuid : v.uuid = t.uuid
  · rw [List.find?_cons_of_pos (by simpa using huuid)] at hfind
    exact absurd (Option.some.inj hfind ▸ ht) hv
  · rw [List.find?_cons_of_neg (by simpa using huuid)] at hfind
    exact ⟨hkept t hmem (Ne.symm huuid), hfind⟩

lemma VoteInv.dealTimeOut {s : VoteRoom} {v : Timeout VoteCallback} {l : List (Timeout VoteCallback)}
    (h : VoteInv s) (hcome : ToCome s (v :: l)) (now : ℕ) :
    VoteInv (VoteRoom.dealTimeOut now s v) ∧ ToCome (VoteRoom.dealTimeOut now s v) l := by
  have hskip : VoteInv s ∧ ToCome s l := ⟨h, hcome.tail fun t ht _ => ht⟩
  unfold VoteRoom.dealTimeOut
  cases hcallback : v.callback with
  | none => exact hskip
  | some callback =>
    by_cases hdue : v.endTime ≤ now
    · simp only [if_pos hdue]
      cases callback with
      | startVoteTimeOut =>
        refine ⟨(h.startVoteTimeOut now).deleteTimeOut v.uuid, hcome.tail fun t ht hne => ?_⟩
        refine (List.mem_eraseP_of_neg (by simpa using hne)).mpr ?_
        simp only [VoteRoom.runCallback, VoteRoom.startVoteTimeOut]
        split_ifs
        · exact List.mem_append_left _ ht
        · exact ht
      | voteTimeOut uid =>
        have hvote : v.isVote := by rw [Timeout.isVote, hcallback]
        obtain ⟨hinv, hall⟩ := h.timeout (hcome.vote v List.mem_cons_self hvote).1 hcallback hdue
        obtain ⟨hv, hnodup⟩ := List.nodup_cons.mp hcome.nodup
        refine ⟨hinv, hnodup, fun t ht htvote => ?_⟩
        -- no other timer ends a vote
        have hmem := (hcome.vote t (List.mem_cons_of_mem _ ht) htvote).1
        exact absurd (hall t hmem htvote ▸ ht) hv
      | other =>
        exact ⟨h.deleteTimeOut v.uuid, hcome.tail fun t ht hne =>
          (List.mem_eraseP_of_neg (by simpa using hne)).mpr ht⟩
    · simp only [if_neg hdue]
      exact hskip

lemma VoteInv.foldl {l : List (Timeout VoteCallback)} (now : ℕ) {s : VoteRoom} (h : VoteInv s)
    (hcome : ToCome s l) : VoteInv (l.foldl (VoteRoom.dealTimeOut now) s) := by
  induction l generalizing s with
  | nil => exact h
  | cons v l ih =>
    obtain ⟨hinv, hrest⟩ := h.dealTimeOut hcome now
    exact ih hinv hrest

lemma VoteInv.dealTimeOutEvent {s : VoteRoom} (h : VoteInv s) (now : ℕ) :
    VoteInv (s.dealTimeOutEvent now) := by
  refine h.foldl now ⟨h.distinct.nodup, fun v hv hvote => ⟨hv, ?_⟩⟩
  obtain ⟨handle, b, -, -, -, hfind⟩ := h.timer v hv hvote
  rw [show v.uuid = handle by simpa using List.find?_some hfind]
  exact hfind

/-! ### Runs -/

lemma VoteInv.step {s s' : VoteRoom} {e : VoteRoom.Event} (h : VoteInv s) (hok : FreshVote s e)
    (hstep : s.step e = some s') : VoteInv s' := by
  simp only [VoteRoom.step] at hstep
  split_ifs at hstep
  obtain rfl := Option.some.inj hstep
  suffices hhandle : VoteInv (s.handle e) from
    ⟨hhandle.distinct, hhandle.timer, hhandle.open_iff, hhandle.counted, hhandle.fair⟩
  cases e with
  | requestVIPDisband now uid isRequest willDisband =>
    simp only [VoteRoom.handle, VoteRoom.onPlayerDisband]
    split_ifs with hrequest
    · subst hrequest
      exact h.onPlayerRequestDisband now uid willDisband hok
    · exact h.onPlayerVote now uid willDisband
  | dealTimeOutEvent now => exact h.dealTimeOutEvent now
  | seats players watchers => exact ⟨h.distinct, h.timer, h.open_iff, h.counted, h.fair⟩
  | lock => exact ⟨h.distinct, h.timer, h.open_iff, h.counted, h.fair⟩
  | setTimeOut now delayMS => exact h.setTimeOut now delayMS nofun
  | deleteTimeOut handle => exact h.deleteTimeOut handle

/-- A new room: no vote, and no timers. -/
structure NewRoom (s : VoteRoom) : Prop where
  timers : s.timeMgr = {}
  voteHandle : s.voteHandle = none
  ballot : s.ballot = none
  disbandings : s.disbandings = []

/-- **A locked room is disbanded only by its vote**, in every run in which no pending timer has the
handle that the timer of a new vote is given: when every seat has asked or agreed in the open vote,
or 60 seconds after the request for it. Of a vote that has ended neither the votes nor the timer
are left.

**Proof sketch.** The invariant is `VoteInv`: a pending timer that ends a vote belongs to the open
vote and is the first with its handle. So the paths that end a vote delete its timer
(`TimerOk.closed`), and when the timer fires the open vote is 60 seconds old. A pass goes through a
copy of the list, but nothing that runs in it ends a vote before the timer of the vote does. -/
theorem voteSafe_of_fresh {s₀ s : VoteRoom} (hnew : NewRoom s₀)
    (h : Runs.Reaches VoteRoom.step FreshVote s₀ s) : VoteSafe s := by
  have hinit : VoteInv s₀ := by
    refine voteInv_closed ⟨?_, ?_⟩ ?_ hnew.voteHandle hnew.ballot ?_
    · rw [hnew.timers]
      exact fun t ht => absurd ht List.not_mem_nil
    · rw [hnew.timers]
      exact List.nodup_nil
    · rw [hnew.timers]
      exact fun t ht => absurd ht List.not_mem_nil
    · rw [hnew.disbandings]
      exact fun d hd => absurd hd List.not_mem_nil
  have hinv := h.invariant hinit fun _ _ _ hinv hok hstep => hinv.step hok hstep
  exact hinv.voteSafe

/-- A locked room with two seats. -/
def twoSeats : VoteRoom where
  maxPlayer := 2
  players uid := if uid = 1 then some 1 else if uid = 2 then some 2 else none
  isVIPLock := true

/-- Both seats want to disband the room: one asks, the other agrees. -/
theorem voteSafe_agreed :
    ∃ s, Runs.Reaches VoteRoom.step FreshVote twoSeats s ∧ s.disband ∧ VoteSafe s := by
  have hrun : ((Runs.exec VoteRoom.step FreshVote twoSeats
      [.requestVIPDisband 10 1 1 1, .dealTimeOutEvent 110, .requestVIPDisband 120 2 0 1]).any
        fun s => s.disband) = true := by
    decide
  obtain ⟨s, hs, hdisband⟩ := (Option.any_eq_true _ _).mp hrun
  have hreaches := Runs.reaches_of_exec _ .init hs
  exact ⟨s, hreaches, hdisband, voteSafe_of_fresh ⟨rfl, rfl, rfl, rfl⟩ hreaches⟩

/-! ### A timer that survives its vote -/

/-- Every event is allowed. -/
def AnyVoteEvent (_ : VoteRoom) (_ : VoteRoom.Event) : Prop := True

/-- A run from the two seats leads to a state without an open vote, with these timers. -/
def Visits (m : TimeManager VoteCallback) (leftTimeOut clock : ℕ) : Prop :=
  ∃ s, Runs.Reaches VoteRoom.step AnyVoteEvent twoSeats s ∧ s.timeMgr = m ∧
    s.leftTimeOut = leftTimeOut ∧ s.clock = clock ∧ s.voteHandle = none ∧ s.ballot = none ∧
    s.maxPlayer = 2 ∧ s.isVIPLock = true ∧ s.players = twoSeats.players

/-- The timers after a request and a disagreement. -/
def afterVote (m : TimeManager VoteCallback) (now : ℕ) : TimeManager VoteCallback :=
  let m₁ := m.setTimeOut now kPerecent (some .startVoteTimeOut)
  (m₁.setTimeOut now kVoteTimeOut (some (.voteTimeOut 1))).deleteTimeOut m₁.uuid

/-- One seat asks, the other disagrees at once. -/
lemma Visits.vote {m : TimeManager VoteCallback} {leftTimeOut clock : ℕ}
    (h : Visits m leftTimeOut clock) : Visits (afterVote m clock) 59 clock := by
  obtain ⟨s, hreach, rfl, -, rfl, hhandle, hballot, hmax, hlock, hplayers⟩ := h
  have hseat : ∀ s' : VoteRoom, s'.players = s.players → s'.maxPlayer = s.maxPlayer →
      s'.seatOf 1 = some 1 ∧ s'.seatOf 2 = some 2 := by
    intro s' hp hm
    rw [VoteRoom.seatOf, VoteRoom.seatOf, hp, hm, hplayers, hmax]
    exact ⟨rfl, rfl⟩
  set s₁ : VoteRoom := { s.openVote s.clock 1 1 with clock := s.clock } with hs₁
  have hrequest : s.step (.requestVIPDisband s.clock 1 1 1) = some s₁ := by
    simp only [VoteRoom.step, VoteRoom.Event.time?, VoteRoom.handle, VoteRoom.onPlayerDisband,
      VoteRoom.onPlayerRequestDisband, hhandle, (hseat s rfl rfl).1, hlock, hplayers]
    simp [twoSeats, hs₁]
  set handle := (s.timeMgr.setTimeOut s.clock kPerecent (some .startVoteTimeOut)).uuid
  have hs₁handle : s₁.voteHandle = some handle := rfl
  set s₂ : VoteRoom := { s₁.deleteTimeOut handle with
    voteHandle := none, ballot := none, disband := false, round := s₁.round + 1 } with hs₂
  have hvote : s₁.step (.requestVIPDisband s.clock 2 0 0) = some s₂ := by
    simp only [VoteRoom.step, VoteRoom.Event.time?, VoteRoom.handle, VoteRoom.onPlayerDisband,
      VoteRoom.onPlayerVote, hs₁handle, (hseat s₁ rfl rfl).2]
    simp [hs₁, hs₂, kVoteClientDisagree, VoteRoom.sendVoteResultMsg, VoteRoom.deleteTimeOut]
  exact ⟨s₂, (hreach.step trivial hrequest).step trivial hvote, rfl, rfl, rfl, rfl, rfl, hmax, hlock,
    hplayers⟩

/-- The entry of the countdown that is shown to the clients. -/
def countdown (id uuid endTime : ℕ) : Timeout VoteCallback :=
  ⟨id, uuid, endTime, some .startVoteTimeOut⟩

/-- A pass over one entry of the countdown. -/
lemma Visits.pass {i h e u n left clock : ℕ}
    (hv : Visits ⟨[countdown i h e], u, n⟩ left clock) (now : ℕ) (hclock : clock ≤ now) (he : e ≤ now) :
    Visits (((if 0 < left then
        (⟨[countdown i h e], u, n⟩ : TimeManager VoteCallback).setTimeOut now kPerecent
          (some .startVoteTimeOut)
      else ⟨[countdown i h e], u, n⟩)).deleteTimeOut h) (left - 1) now := by
  obtain ⟨s, hreach, hmgr, rfl, rfl, hhandle, hballot, hmax, hlock, hplayers⟩ := hv
  have hstep : s.step (.dealTimeOutEvent now) =
      some { (s.startVoteTimeOut now).deleteTimeOut h with clock := now } := by
    simp [VoteRoom.step, VoteRoom.Event.time?, VoteRoom.handle, VoteRoom.dealTimeOutEvent, hmgr,
      VoteRoom.dealTimeOut, VoteRoom.runCallback, countdown, he, Nat.not_lt.mpr hclock]
  refine ⟨_, hreach.step trivial hstep, ?_⟩
  unfold VoteRoom.startVoteTimeOut
  split_ifs with hleft
  · exact ⟨by rw [← hmgr]; rfl, rfl, rfl, hhandle, hballot, hmax, hlock, hplayers⟩
  · refine ⟨by rw [← hmgr]; rfl, ?_, rfl, hhandle, hballot, hmax, hlock, hplayers⟩
    change 0 = _
    omega

/-- A second of the countdown. -/
lemma Visits.tick {i h u left clock : ℕ}
    (hv : Visits ⟨[countdown i h (clock + 100)], u, u⟩ left clock) (hleft : 0 < left)
    (hu : u ≤ 10000) (hh : h < u) :
    Visits ⟨[countdown u u (clock + 100 + 100)], u + 1, u + 1⟩ (left - 1) (clock + 100) := by
  have hpass := hv.pass (clock + 100) (by omega) (le_refl _)
  have hne : ¬ 10000 < u := by omega
  have hstay : ¬ u = h := by omega
  simpa [hleft, TimeManager.setTimeOut, TimeManager.deleteTimeOut, countdown, kPerecent, hne,
    hstay] using hpass

/-- The countdown goes on for `k + 1` seconds. -/
lemma Visits.ticks (k : ℕ) {i h u left clock : ℕ}
    (hv : Visits ⟨[countdown i h (clock + 100)], u, u⟩ left clock) (hk : k < left)
    (hu : u + k ≤ 10000) (hh : h < u) :
    Visits ⟨[countdown (u + k) (u + k) (clock + 100 * (k + 1) + 100)], u + k + 1, u + k + 1⟩
      (left - (k + 1)) (clock + 100 * (k + 1)) := by
  induction k with
  | zero => exact hv.tick hk hu hh
  | succ k ih => exact (ih (by omega) (by omega)).tick (by omega) hu (by omega)

/-- A vote that is refused at once, and its countdown to the end. -/
lemma Visits.round {u left clock : ℕ} (hv : Visits ⟨[], u, u⟩ left clock) (hu : u + 60 ≤ 10000) :
    Visits ⟨[], u + 61, u + 61⟩ 0 (clock + 6000) := by
  have hvote := hv.vote
  have hfirst : ¬ 10000 < u := by omega
  have hsecond : ¬ 10000 < u + 1 := by omega
  have hstart : afterVote ⟨[], u, u⟩ clock = ⟨[countdown u u (clock + 100)], u + 2, u + 2⟩ := by
    simp [afterVote, TimeManager.setTimeOut, TimeManager.deleteTimeOut, countdown, kPerecent, hfirst,
      hsecond]
  rw [hstart] at hvote
  have hlast := (hvote.ticks 58 (by decide) (by omega) (by omega)).pass (clock + 6000)
    (by omega) (by omega)
  simpa [TimeManager.deleteTimeOut, countdown] using hlast

/-- Many refused votes. -/
lemma Visits.rounds (r : ℕ) (hr : 61 * r ≤ 10001) :
    ∃ left clock, Visits ⟨[], 61 * r, 61 * r⟩ left clock := by
  induction r with
  | zero =>
    exact ⟨0, 0, twoSeats, .init, rfl, rfl, rfl, rfl, rfl, rfl, rfl, rfl⟩
  | succ r ih =>
    obtain ⟨left, clock, hv⟩ := ih (by omega)
    exact ⟨0, clock + 6000, hv.round (by omega)⟩

/-- The timers after `k` votes that are refused at once, from when the counter was set back while
the entries with the handles 9999 and 10000 were pending. -/
def refused (clock k : ℕ) : TimeManager VoteCallback where
  timeoutList := countdown 9999 9999 (clock + 100) :: countdown 10000 10000 (clock + 100) ::
    (List.range k).map fun i => countdown (10002 + 2 * i) (2 * i + 1) (clock + 100)
  uuid := 2 * k + 1
  made := 10002 + 2 * k

/-- The counter is set back. -/
lemma exists_visits_refused : ∃ left clock, Visits (refused clock 0) left clock := by
  obtain ⟨left, clock, hv⟩ := Visits.rounds 163 (by decide)
  have hticks := hv.vote.ticks (i := 9943) (h := 9943) (u := 9945) 54 (by decide) (by decide)
    (by decide)
  exact ⟨59, _, hticks.vote⟩

/-- The timers before the deletion that ends the vote after `k` others. -/
lemma timers_refused (clock k : ℕ) (hk : k < 5000) :
    afterVote (refused clock k) clock =
      { timeoutList := ((refused clock k).timeoutList ++
          [countdown (10002 + 2 * k) (2 * k + 1) (clock + 100),
            ⟨10002 + (2 * k + 1), 2 * k + 2, clock + 6000, some (.voteTimeOut 1)⟩]).eraseP
          fun v => v.uuid == 2 * k + 2
        uuid := 2 * k + 3
        made := 10002 + (2 * k + 2) } := by
  have hfirst : ¬ 10000 < 2 * k + 1 := by omega
  have hsecond : ¬ 10000 < 2 * k + 1 + 1 := by omega
  simp [afterVote, refused, TimeManager.setTimeOut, TimeManager.deleteTimeOut, countdown, kPerecent,
    kVoteTimeOut, hfirst, hsecond, Nat.add_assoc]

/-- One more vote is refused. -/
lemma Visits.refuse {clock k left : ℕ} (hv : Visits (refused clock k) left clock) (hk : k < 4999) :
    Visits (refused clock (k + 1)) 59 clock := by
  have hvote := hv.vote
  rw [timers_refused clock k (by omega)] at hvote
  have hodd : ∀ v ∈ (refused clock k).timeoutList, ¬ v.uuid = 2 * k + 2 := by
    simp only [refused, List.mem_cons, List.mem_map, List.mem_range]
    rintro v (rfl | rfl | ⟨i, hi, rfl⟩) <;> simp only [countdown] <;> omega
  rw [List.eraseP_append_right _ (by simpa using hodd)] at hvote
  convert hvote using 2
  · simp [refused, countdown, List.range_succ]
  · change 2 * (k + 1) + 1 = 2 * k + 3
    omega
  · change 10002 + 2 * (k + 1) = 10002 + (2 * k + 2)
    omega

lemma exists_visits_all_refused : ∃ left clock, Visits (refused clock 4999) left clock := by
  obtain ⟨left, clock, hv⟩ := exists_visits_refused
  have hall : ∀ k ≤ 4999, ∃ left, Visits (refused clock k) left clock := by
    intro k
    induction k with
    | zero => exact fun _ => ⟨left, hv⟩
    | succ k ih =>
      intro hk
      obtain ⟨left, hv⟩ := ih (by omega)
      exact ⟨59, hv.refuse (by omega)⟩
  obtain ⟨left, hv⟩ := hall 4999 (le_refl _)
  exact ⟨left, clock, hv⟩

/-- Without an open vote a pass opens none, and the timer of a vote disbands the room all the
same. -/
lemma dealTimeOut_of_closed {s : VoteRoom} (now : ℕ) (v : Timeout VoteCallback)
    (hballot : s.ballot = none) (hlock : s.isVIPLock = true) :
    (VoteRoom.dealTimeOut now s v).ballot = none ∧
      (VoteRoom.dealTimeOut now s v).isVIPLock = true ∧
      (∀ d ∈ s.disbandings, d ∈ (VoteRoom.dealTimeOut now s v).disbandings) ∧
      (v.isVote → v.endTime ≤ now →
        Disbanding.mk none now true ∈ (VoteRoom.dealTimeOut now s v).disbandings) := by
  unfold VoteRoom.dealTimeOut Timeout.isVote
  cases v.callback with
  | none => exact ⟨hballot, hlock, fun d hd => hd, nofun⟩
  | some callback =>
    by_cases hdue : v.endTime ≤ now
    · simp only [if_pos hdue]
      cases callback with
      | startVoteTimeOut =>
        simp only [VoteRoom.runCallback, VoteRoom.startVoteTimeOut]
        split_ifs <;> exact ⟨hballot, hlock, fun d hd => hd, nofun⟩
      | voteTimeOut uid =>
        refine ⟨rfl, hlock, fun d hd => List.mem_append_left _ hd, fun _ _ => ?_⟩
        rw [← hballot, ← hlock]
        exact List.mem_append_right _ (List.mem_singleton_self _)
      | other => exact ⟨hballot, hlock, fun d hd => hd, nofun⟩
    · simp only [if_neg hdue]
      exact ⟨hballot, hlock, fun d hd => hd, fun _ h => absurd h hdue⟩

lemma mem_disbandings_foldl (now : ℕ) {v : Timeout VoteCallback} (hvote : v.isVote)
    (hdue : v.endTime ≤ now) (l : List (Timeout VoteCallback)) {s : VoteRoom}
    (hballot : s.ballot = none) (hlock : s.isVIPLock = true)
    (hv : v ∈ l ∨ Disbanding.mk none now true ∈ s.disbandings) :
    Disbanding.mk none now true ∈ (l.foldl (VoteRoom.dealTimeOut now) s).disbandings := by
  induction l generalizing s with
  | nil => simpa using hv
  | cons x l ih =>
    obtain ⟨hballot', hlock', hkept, hfires⟩ := dealTimeOut_of_closed now x hballot hlock
    refine ih hballot' hlock' ?_
    obtain hv | hd := hv
    · obtain rfl | hv := List.mem_cons.mp hv
      · exact .inr (hfires hvote hdue)
      · exact .inl hv
    · exact .inr (hkept _ hd)

/-- A seat asks to disband the room and the other disagrees, 5165 times. The counter of the timers
comes round meanwhile, and the timer of the last vote is given the handle 10000, which an entry of
the countdown still has. The disagreement deletes that entry. So the timer of the vote that has
ended disbands the room 60 seconds later, when no vote is open. -/
theorem timer_of_ended_vote :
    ¬ ∀ s, Runs.Reaches VoteRoom.step AnyVoteEvent twoSeats s → VoteSafe s := by
  intro hall
  obtain ⟨left, clock, hv⟩ := exists_visits_all_refused
  have hvote := hv.vote
  rw [timers_refused clock 4999 (by decide)] at hvote
  obtain ⟨s, hreach, hmgr, -, rfl, -, hballot, -, hlock, -⟩ := hvote
  have hdeal : s.step (.dealTimeOutEvent (s.clock + 6000)) =
      some { s.dealTimeOutEvent (s.clock + 6000) with clock := s.clock + 6000 } := by
    simp [VoteRoom.step, VoteRoom.Event.time?, VoteRoom.handle]
  have hsafe := hall _ (hreach.step trivial hdeal)
  -- the countdown's entry comes first in the list, so the timer of the vote is still in it
  have hmem : (⟨20001, 10000, s.clock + 6000, some (.voteTimeOut 1)⟩ : Timeout VoteCallback) ∈
      s.timeMgr.timeoutList := by
    rw [hmgr]
    simp [refused, countdown]
  have hdisbanded := mem_disbandings_foldl (s.clock + 6000) rfl (le_refl _) s.timeMgr.timeoutList
    hballot hlock (.inl hmem)
  obtain ⟨b, hb, -⟩ := hsafe.fair _ hdisbanded rfl
  cases hb

end Common
