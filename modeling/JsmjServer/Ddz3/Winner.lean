import JsmjServer.Ddz3.Tricks

set_option relaxedAutoImplicit false
set_option autoImplicit false

/-!
# The end of a landlord game

When a hand becomes empty the end is scheduled, but the step and the seat in turn stay until the
timer switches. The module follows a deal from that moment on: nothing changes until the end is
executed, and it is executed once, unless the winner passes in the meantime.

## Main definitions

* `Ddz3.WinnerPass` — the winner passes while the end is scheduled.

## Main results

* `Ddz3.won_stays_won` — what follows a won game when the winner does not pass.
* `Ddz3.winner_pass_undoes_end` — a pass of the winner takes the end back.
-/

namespace Ddz3

/-- The seat in turn passes, by message or timeout, while the end is scheduled. -/
def WinnerPass (r : Room) (a : Attempt) : Prop :=
  r.logicStep = .outCard ∧ r.next.map Prod.fst = some .stepEnd ∧ a.op = .outCardPass ∧
    a.pos = r.outCardPos

/-! ### The scheduled end -/

/-- The end is scheduled for a seat with an empty hand, and a deal is ended once. -/
structure EndInv (r : Room) (h : History) : Prop where
  won : ∀ time, r.next = some (.stepEnd, time) →
    r.winnerPos = some r.outCardPos ∧ r.hands r.outCardPos = []
  going : r.logicStep ≠ .stepEnd → h.ends = 0
  ended : r.logicStep = .stepEnd → h.ends = 1

/-- An operation keeps the step, so it keeps the number of ends. -/
lemma EndInv.ofWon {r r' : Room} {h h' : History} (hI : EndInv r h)
    (hlogic : r'.logicStep = r.logicStep) (hends : h'.ends = h.ends)
    (hwon : ∀ time, r'.next = some (.stepEnd, time) →
      r'.winnerPos = some r'.outCardPos ∧ r'.hands r'.outCardPos = []) : EndInv r' h' where
  won := hwon
  going := by
    rw [hlogic, hends]
    exact hI.going
  ended := by
    rw [hlogic, hends]
    exact hI.ended

lemma EndInv.operation {r : Room} {h : History} (hI : EndInv r h) (hord : InOrder r) (k : Tick)
    (a : Attempt) : EndInv (handle r k a).room (h.operation r k a) := by
  refine hI.ofWon (handle_schedule r k a).1 rfl ?_
  intro time htime
  by_cases hstep : r.logicStep = .outCard
  swap
  · exact absurd (by rw [htime]; rfl) (not_stepEnd_of_handle hord hstep)
  obtain heq | ⟨cards, tp, hpos, -, -, -, -, -, -, -, heq⟩ | ⟨last, -, -, -, -, heq⟩ :=
    outCard_cases r k a hstep
  · rw [heq] at htime ⊢
    exact hI.won time htime
  · rw [heq, playCards] at htime ⊢
    split_ifs at htime ⊢ with hempty
    · refine ⟨congrArg some hpos, ?_⟩
      simpa [startStepEnd, logicStartStep, incOperationSeq, ← hpos] using hempty
    · refine ⟨congrArg some hpos, ?_⟩
      simpa [startStepEnd, logicStartStep, logicStopTimeout, incOperationSeq, ← hpos] using hempty
    · exact absurd htime (by simp [logicStopTimeout, logicStartStep])
  · rw [heq, passTurn] at htime
    exact absurd htime (by simp [logicStopTimeout, logicStartStep])

lemma EndInv.onStepSwitch {r : Room} {h : History} (hI : EndInv r h) (hord : InOrder r)
    (k : Tick) {step : LogicStep} {time : ℕ} (hnext : r.next = some (step, time)) :
    EndInv (onStepSwitch { logicStopStep r with logicStep := step } k step) (h.switch step) := by
  have hfollows := hord.next _ hnext
  have hlogic := onStepSwitch_logicStep r k step
  refine ⟨fun time htime => absurd (by rw [htime]; rfl) (onStepSwitch_next_ne r k step), ?_, ?_⟩
  · rw [hlogic]
    intro hend
    by_cases hsend : step = .sendCards
    · subst hsend
      rfl
    · have hends : (h.switch step).ends = h.ends := by
        cases step <;> first | rfl | exact absurd rfl hend | exact absurd rfl hsend
      rw [hends]
      apply hI.going
      intro hended
      rw [hended] at hfollows
      revert hfollows hsend
      cases step <;> simp [follows]
  · rw [hlogic]
    rintro rfl
    have hgoing : h.ends = 0 := by
      apply hI.going
      intro hended
      rw [hended] at hfollows
      exact absurd hfollows (by simp [follows])
    simp [History.switch, hgoing]

lemma sortPlayerHandCards_nil : sortPlayerHandCards [] = [] := rfl

lemma endInv_kept (ok : Room → Attempt → Prop) : KeptInOrder EndInv ok where
  start := fun k _ hI _ => hI.ofWon rfl rfl fun time htime =>
    absurd htime (by simp [gameStart, startStepSendCards, logicStartStep])
  switch := fun k step time hord hI hnext => hI.onStepSwitch hord k hnext
  operation := fun k a hord hI _ => hI.operation hord k a
  stopTimeout := fun hI => hI.ofWon rfl rfl hI.won
  startOutCard := fun k hI _ => hI.ofWon rfl rfl fun time htime =>
    absurd htime (by simp [startStepOutCard, logicStartStep])
  cutBack := by
    intro r h pos hI
    refine hI.ofWon rfl rfl fun time htime => ?_
    obtain ⟨hwinner, hempty⟩ := hI.won time htime
    refine ⟨hwinner, ?_⟩
    show Function.update r.hands pos (sortPlayerHandCards (r.hands pos)) r.outCardPos = []
    by_cases hpos : r.outCardPos = pos
    · subst hpos
      rw [Function.update_self, hempty, sortPlayerHandCards_nil]
    · rw [Function.update_of_ne hpos, hempty]

lemma endInv_new : EndInv {} {} where
  won := fun _ htime => absurd htime (by simp)
  going := fun _ => rfl
  ended := fun hs => absurd hs (by simp)

/-! ### From the won game on -/

/-- The deal `d` has been won: until the end, the winner, the schedule and the hands stay; after
it, the end has been executed once. -/
structure Won (d time : ℕ) (winner : Option Seat) (hands : Seat → List ℤ) (r : Room)
    (h : History) : Prop where
  inv : EndInv r h
  deals : d ≤ h.deals
  stays : h.deals = d → r.winnerPos = winner ∧
    (r.logicStep = .outCard ∧ r.next = some (.stepEnd, time) ∧
        (∀ seat, (r.hands seat).Perm (hands seat)) ∧ h.ends = 0 ∨
      r.logicStep = .stepEnd ∧ h.ends = 1)

section Stays

variable {d time : ℕ} {winner : Option Seat} {hands : Seat → List ℤ}

/-- While the end is scheduled an operation does nothing, unless the winner passes. -/
lemma EndInv.handle_eq {r : Room} {h : History} (hI : EndInv r h) (k : Tick) {a : Attempt}
    (hstep : r.logicStep = .outCard) (hnext : r.next = some (.stepEnd, time))
    (hok : ¬ WinnerPass r a) : (handle r k a).room = incOperationSeq r := by
  obtain ⟨-, hempty⟩ := hI.won time hnext
  obtain heq | ⟨cards, tp, hpos, -, -, hne, hhas, -⟩ | ⟨last, hpos, hop, -⟩ :=
    outCard_cases r k a hstep
  · exact heq
  · -- the winner has no card to play
    rw [hpos, hempty] at hhas
    obtain ⟨card, rest, rfl⟩ := List.exists_cons_of_ne_nil hne
    exact absurd hhas (by simp [hasCards])
  · exact absurd ⟨hstep, by simp [hnext], hop, hpos⟩ hok

lemma won_kept : KeptInOrder (Won d time winner hands) fun r a => ¬ WinnerPass r a where
  start := by
    intro r h k hord hI hplaying
    refine ⟨(endInv_kept fun r a => ¬ WinnerPass r a).start k hord hI.inv hplaying, hI.deals, ?_⟩
    intro hd
    obtain ⟨hwinner, ⟨-, hnext, -⟩ | hended⟩ := hI.stays hd
    · rw [(hord.waiting hplaying).2] at hnext
      exact absurd hnext (by simp)
    · exact ⟨hwinner, .inr hended⟩
  switch := by
    intro r h k step time' hord hI hnext'
    have hfollows := hord.next _ hnext'
    refine ⟨hI.inv.onStepSwitch hord k hnext', ?_, ?_⟩
    · have hle := hI.deals
      cases step with
      | sendCards => exact hle.trans (Nat.le_succ _)
      | _ => exact hle
    · intro hd
      by_cases hsend : step = .sendCards
      · -- a new deal
        subst hsend
        have hle := hI.deals
        simp only [History.switch] at hd
        omega
      have hdeals : h.deals = d := by
        cases step <;> first | exact hd | exact absurd rfl hsend
      obtain ⟨hwinner, ⟨hstep, hnext, -, hends⟩ | ⟨hended, -⟩⟩ := hI.stays hdeals
      · obtain ⟨rfl, rfl⟩ := Prod.mk.inj (Option.some.inj (hnext.symm.trans hnext'))
        refine ⟨hwinner, .inr ⟨rfl, ?_⟩⟩
        simp [History.switch, hends]
      · rw [hended] at hfollows
        revert hfollows hsend
        cases step <;> simp [follows]
  operation := by
    intro r h k a hord hI hok
    refine ⟨hI.inv.operation hord k a, hI.deals, ?_⟩
    intro hd
    obtain ⟨hwinner, ⟨hstep, hnext, hhands, hends⟩ | ⟨hended, hends⟩⟩ := hI.stays hd
    · rw [hI.inv.handle_eq k hstep hnext hok]
      exact ⟨hwinner, .inl ⟨hstep, hnext, hhands, hends⟩⟩
    · rw [handle_of_other r k a (by simp [hended]) (by simp [hended]) (by simp [hended])
        (by simp [hended])]
      exact ⟨hwinner, .inr ⟨hended, hends⟩⟩
  stopTimeout := fun hI =>
    ⟨(endInv_kept fun r a => ¬ WinnerPass r a).stopTimeout hI.inv, hI.deals, hI.stays⟩
  startOutCard := by
    intro r h k hI hdouble
    refine ⟨(endInv_kept fun r a => ¬ WinnerPass r a).startOutCard k hI.inv hdouble, hI.deals, ?_⟩
    intro hd
    obtain ⟨-, ⟨hstep, -⟩ | ⟨hstep, -⟩⟩ := hI.stays hd
    · exact absurd hstep (by simp [hdouble])
    · exact absurd hstep (by simp [hdouble])
  cutBack := by
    intro r h pos hI
    refine ⟨(endInv_kept fun r a => ¬ WinnerPass r a).cutBack pos hI.inv, hI.deals, ?_⟩
    intro hd
    obtain ⟨hwinner, ⟨hstep, hnext, hhands, hends⟩ | hended⟩ := hI.stays hd
    · refine ⟨hwinner, .inl ⟨hstep, hnext, fun seat => ?_, hends⟩⟩
      by_cases hseat : seat = pos
      · subst hseat
        simpa [onUserCutBack] using (sortPlayerHandCards_perm _).trans (hhands seat)
      · simpa [onUserCutBack, Function.update_of_ne hseat] using hhands seat
    · exact ⟨hwinner, .inr hended⟩

end Stays

/-- The timer executes the scheduled end when its time is over. -/
lemma watchStep_timer_end {w w' : Room × History} {time : ℕ} {k : Tick}
    (hnext : w.1.next = some (.stepEnd, time)) (hk : k.now > time)
    (hs : watchStep w (k, .timer) = some w') :
    w'.1.logicStep = .stepEnd ∧ w'.2.ends = w.2.ends + 1 := by
  have hswitch : switchLogicStep w.1 k =
      onStepEnd { logicStopStep w.1 with logicStep := .stepEnd } := by
    simp only [switchLogicStep, hnext, hk, if_true]
    rfl
  have hnot : ¬ TimeoutDue (switchLogicStep w.1 k) k := by
    rintro ⟨time', htime, -⟩
    rw [hswitch] at htime
    exact absurd htime (by simp [onStepEnd, clearResource, incOperationSeq, logicStopTimeout])
  have hhandled : handled w.1 (k, .timer) = none := by simp [handled, hnot]
  obtain rfl := Option.some.inj hs
  have hroom : (onGameTimer w.1 k).room =
      onStepEnd { logicStopStep w.1 with logicStep := .stepEnd } := by
    rw [onGameTimer, hswitch]
    rfl
  have hafter : w.2.afterSwitch w.1 k = w.2.switch .stepEnd := by
    simp only [History.afterSwitch, hnext, hk, if_true]
  simp only [hroom, hhandled, hafter]
  exact ⟨rfl, rfl⟩

/-- Once the end of a deal is scheduled, and as long as the winner does not pass, every state of
the run that belongs to this deal has the same winner, and either the end is still scheduled for
the same time, no hand has changed and the end was not executed, or it was executed once. The timer
executes it as soon as its time is over.

**Proof sketch.** The end is scheduled for the seat in turn, whose hand is empty: it cannot play,
the others are not in turn, and the timer either waits or executes the end, after which no
operation is handled until the cards are sent again. -/
theorem won_stays_won {w₀ w : Room × History} {time : ℕ}
    (h₀ : Plays (fun r a => ¬ WinnerPass r a) w₀) (hwon : w₀.1.next = some (.stepEnd, time))
    (h : Runs.Reaches watchStep (fun w e => Meets (fun r a => ¬ WinnerPass r a) w.1 e) w₀ w)
    (hdeal : w.2.deals = w₀.2.deals) :
    w.1.winnerPos = w₀.1.winnerPos ∧
      ((w.1.next = some (.stepEnd, time) ∧
          (∀ seat, (w.1.hands seat).Perm (w₀.1.hands seat)) ∧ w.2.ends = 0 ∧
          ∀ k w', k.now > time → watchStep w (k, .timer) = some w' →
            w'.1.logicStep = .stepEnd ∧ w'.2.ends = 1) ∨
        w.1.logicStep = .stepEnd ∧ w.2.ends = 1) := by
  obtain ⟨hord, hend⟩ := (endInv_kept _).plays endInv_new h₀
  have hstep : w₀.1.logicStep = .outCard := by
    have hfollows := hord.next _ hwon
    revert hfollows
    cases w₀.1.logicStep <;> simp [follows]
  have hends : w₀.2.ends = 0 := hend.going (by simp [hstep])
  have hw₀ : InOrder w₀.1 ∧
      Won w₀.2.deals time w₀.1.winnerPos w₀.1.hands w₀.1 w₀.2 :=
    ⟨hord, hend, le_refl _, fun _ => ⟨rfl, .inl ⟨hstep, hwon, fun _ => .refl _, hends⟩⟩⟩
  have hw : InOrder w.1 ∧ Won w₀.2.deals time w₀.1.winnerPos w₀.1.hands w.1 w.2 := by
    apply h.invariant (I := fun w => InOrder w.1 ∧
      Won w₀.2.deals time w₀.1.winnerPos w₀.1.hands w.1 w.2) hw₀
    intro s e s' hs hok hstep'
    exact won_kept.kept.watchStep hs hok hstep'
  obtain ⟨hwinner, ⟨-, hnext, hhands, hzero⟩ | hended⟩ := hw.2.stays hdeal
  · refine ⟨hwinner, .inl ⟨hnext, hhands, hzero, ?_⟩⟩
    intro k w' hk hs
    have := watchStep_timer_end hnext hk hs
    rwa [hzero] at this
  · exact ⟨hwinner, .inr hended⟩

/-! ### Runs -/

instance (r : Room) (a : Attempt) : Decidable (WinnerPass r a) := by
  unfold WinnerPass
  infer_instance

/-- The first seat plays its ten pairs at once. -/
def toWin : List (Tick × Event) :=
  toPlay ++ [(pairsAt 1382, .operation 0 .outCard none (some [17, 18, 19, 20, 21, 22, 23, 24, 25, 26,
    33, 34, 35, 36, 37, 38, 39, 40, 41, 42]))]

/-- The first seat has won, and after a message of another seat the timer ends the deal. -/
theorem won_stays_won_of_pairs : ∃ (w₀ w : Room × History) (time : ℕ),
    Plays (fun r a => ¬ WinnerPass r a) w₀ ∧
    Runs.Reaches watchStep (fun w e => Meets (fun r a => ¬ WinnerPass r a) w.1 e) w₀ w ∧
    w₀.1.next = some (.stepEnd, time) ∧ w₀.1.winnerPos = some 0 ∧ w.1.logicStep = .stepEnd ∧
    w.1.winnerPos = some 0 ∧ w.2.ends = 1 := by
  have hexec : ((Runs.exec watchStep (fun w e => Meets (fun r a => ¬ WinnerPass r a) w.1 e) ({}, {})
      toWin).any fun w₀ => w₀.1.next == some (.stepEnd, 1392) && w₀.1.winnerPos == some 0 &&
        (Runs.exec watchStep (fun w e => Meets (fun r a => ¬ WinnerPass r a) w.1 e) w₀
          [(pairsAt 1383, .operation 1 .outCardPass none none), (pairsAt 1393, .timer)]).any
          fun w => w.1.logicStep == .stepEnd && w.2.deals == w₀.2.deals) = true := by
    decide +kernel
  obtain ⟨w₀, hrun₀, hw₀⟩ := (Option.any_eq_true _ _).mp hexec
  simp only [Bool.and_eq_true, beq_iff_eq] at hw₀
  obtain ⟨⟨hnext, hwinner⟩, hafter⟩ := hw₀
  obtain ⟨w, hrun, hw⟩ := (Option.any_eq_true _ _).mp hafter
  simp only [Bool.and_eq_true, beq_iff_eq] at hw
  obtain ⟨hstep, hdeals⟩ := hw
  have hplays : Plays (fun r a => ¬ WinnerPass r a) w₀ := Runs.reaches_of_exec _ .init hrun₀
  have hreaches : Runs.Reaches watchStep (fun w e => Meets (fun r a => ¬ WinnerPass r a) w.1 e)
      w₀ w := Runs.reaches_of_exec _ .init hrun
  obtain ⟨hsame, hsched | ⟨-, hends⟩⟩ := won_stays_won hplays hnext hreaches hdeals
  · -- the end is executed, so it is not scheduled any more
    have hord := ((endInv_kept _).plays endInv_new (hplays.trans hreaches)).1
    have hfollows := hord.next _ hsched.1
    rw [hstep] at hfollows
    exact absurd hfollows (by simp [follows])
  · exact ⟨w₀, w, 1392, hplays, hreaches, hnext, hwinner, hstep, hsame.trans hwinner, hends⟩

/-- The first seat has won and passes before the timer ends the deal: the next seat is asked to
play, and the deal goes on without an end. -/
theorem winner_pass_undoes_end : ∃ w₀ w, Plays (fun _ _ => True) w₀ ∧
    w₀.1.next = some (.stepEnd, 1392) ∧ w₀.1.hands 0 = [] ∧
    watchStep w₀ (pairsAt 1383, .operation 0 .outCardPass none none) = some w ∧
    w.2.deals = w₀.2.deals ∧ w.1.next = some (.outCard, 1393) ∧
    ∃ w', watchStep w (pairsAt 1394, .timer) = some w' ∧ w'.2.deals = w₀.2.deals ∧
      w'.1.logicStep = .outCard ∧ w'.1.outCardPos = 1 ∧ w'.2.ends = 0 := by
  have hexec : ((Runs.exec watchStep (fun w e => Meets (fun _ _ => True) w.1 e) ({}, {})
      toWin).any fun w₀ => w₀.1.next == some (.stepEnd, 1392) && w₀.1.hands 0 == [] &&
        (watchStep w₀ (pairsAt 1383, .operation 0 .outCardPass none none)).any fun w =>
          w.2.deals == w₀.2.deals && w.1.next == some (.outCard, 1393) &&
          (watchStep w (pairsAt 1394, .timer)).any fun w' => w'.2.deals == w₀.2.deals &&
            w'.1.logicStep == .outCard && w'.1.outCardPos == 1 && w'.2.ends == 0) = true := by
    decide +kernel
  obtain ⟨w₀, hrun, hw₀⟩ := (Option.any_eq_true _ _).mp hexec
  simp only [Bool.and_eq_true, beq_iff_eq] at hw₀
  obtain ⟨⟨hnext, hempty⟩, hpass⟩ := hw₀
  obtain ⟨w, hw, hgoes⟩ := (Option.any_eq_true _ _).mp hpass
  simp only [Bool.and_eq_true, beq_iff_eq] at hgoes
  obtain ⟨⟨hdeals, hresched⟩, htimer⟩ := hgoes
  obtain ⟨w', hw', hlast⟩ := (Option.any_eq_true _ _).mp htimer
  simp only [Bool.and_eq_true, beq_iff_eq] at hlast
  obtain ⟨⟨⟨hdeals', hstep⟩, hpos⟩, hends⟩ := hlast
  exact ⟨w₀, w, Runs.reaches_of_exec _ .init hrun, hnext, hempty, hw, hdeals, hresched, w', hw',
    hdeals', hstep, hpos, hends⟩

end Ddz3
