import JsmjServer.Ddz3.History

set_option relaxedAutoImplicit false
set_option autoImplicit false

/-!
# The grab phase of the landlord game

After the call phase the seats may grab the landlord from the highest bidder, in turn, until all
others have passed or the search for the next seat has met the bidder three times. The module
bounds the phase and says who is the landlord after it.

## Main definitions

* `Ddz3.FairGrab` — what the grab phase of a deal looks like.
* `Ddz3.GrabOpen` — an operation that does not come after the end of the phase.

## Main results

* `Ddz3.fairGrab_of_plays` — runs without operations after the end of the phase.
* `Ddz3.grab_after_pass` — a seat that passed becomes the landlord.
-/

namespace Ddz3

/-- The grab phase or a later phase of the deal. -/
def Grabbing (r : Room) : Prop :=
  r.logicStep = .grabLandLord ∨ r.logicStep = .sendBaseCards ∨ r.logicStep = .doubleScore ∨
    r.logicStep = .outCard

/-- The seats that have grabbed in this deal. -/
def grabbers (h : History) : List Seat := (h.grabs.filter fun grab => grab.2).map Prod.fst

/-- The grab phase of the current deal: it is over after eight accepted operations at the latest;
the landlord is the last seat that grabbed, or the highest bidder when none did, and never a seat
that has passed; and the score doubles with every grab. -/
structure FairGrab (r : Room) (h : History) : Prop where
  bounded : h.grabs.length ≤ 8
  ended : r.logicStep = .grabLandLord → h.grabs.length = 8 →
    r.next.map Prod.fst = some .sendBaseCards
  landlord : Grabbing r → r.landLordPos = (grabbers h).getLast?.getD r.maxCallPointsPos
  passed : Grabbing r → ∀ seat, (seat, false) ∈ h.grabs → r.landLordPos ≠ seat
  multi : Grabbing r → r.grabLandLordScoreMulti = 2 ^ (grabbers h).length

/-- An operation of the grab phase that is not accepted after the base cards are scheduled. -/
def GrabOpen (r : Room) (a : Attempt) : Prop :=
  GrabAccepted r a → r.next.map Prod.fst ≠ some .sendBaseCards

/-! ### The invariant -/

/-- What `startStepGrabLandLord` sets. -/
structure Ready (r : Room) : Prop where
  pos : r.grabLandLordPos = getNextPosition r.maxCallPointsPos
  landlord : r.landLordPos = r.maxCallPointsPos
  cannot : r.cannotGrabPos = []
  multi : r.grabLandLordScoreMulti = 1
  counts : r.grabLandLordCounts = 0

/-- The next seat may grab: it has not passed and is not the landlord, and every operation has
gone at least one seat further in the three rounds. -/
structure Turn (r : Room) (h : History) : Prop where
  counts : r.grabLandLordCounts < grabLandLordUpLimit
  measure : h.grabs.length + 1 ≤ 3 * r.grabLandLordCounts + offset r r.grabLandLordPos
  cannot : r.grabLandLordPos ∉ r.cannotGrabPos
  landlord : r.grabLandLordPos ≠ r.landLordPos

/-- The landlord, the seats that passed and the score, by the history. -/
structure Tally (r : Room) (h : History) : Prop where
  landlord : r.landLordPos = (grabbers h).getLast?.getD r.maxCallPointsPos
  passed : ∀ seat, (seat, false) ∈ h.grabs → seat ∈ r.cannotGrabPos
  cannot : r.landLordPos ∉ r.cannotGrabPos
  multi : r.grabLandLordScoreMulti = 2 ^ (grabbers h).length

/-- What holds of the grab phase in every state. -/
structure GrabInv (r : Room) (h : History) : Prop where
  early : r.logicStep = .sendCards ∨ r.logicStep = .callPoints → h.grabs = []
  ready : r.logicStep = .callPoints → r.next.map Prod.fst = some .grabLandLord → Ready r
  turn : r.logicStep = .grabLandLord → r.next.map Prod.fst ≠ some .sendBaseCards → Turn r h
  bounded : h.grabs.length ≤ 8
  tally : Grabbing r → Tally r h

lemma GrabInv.fairGrab {r : Room} {h : History} (hI : GrabInv r h) : FairGrab r h where
  bounded := hI.bounded
  ended := by
    intro hstep hlen
    by_contra hbase
    have hturn := hI.turn hstep hbase
    have hcounts := hturn.counts
    have hmeasure := hturn.measure
    have hoffset : offset r r.grabLandLordPos < 3 := (r.grabLandLordPos - r.maxCallPointsPos).isLt
    simp only [grabLandLordUpLimit] at hcounts
    omega
  landlord := fun hg => (hI.tally hg).landlord
  passed := by
    rintro hg seat hseat rfl
    exact (hI.tally hg).cannot ((hI.tally hg).passed _ hseat)
  multi := fun hg => (hI.tally hg).multi

lemma Tally.frame {r r' : Room} {h h' : History} (hT : Tally r h) (hgrabs : h'.grabs = h.grabs)
    (hland : r'.landLordPos = r.landLordPos) (hmax : r'.maxCallPointsPos = r.maxCallPointsPos)
    (hcannot : r'.cannotGrabPos = r.cannotGrabPos)
    (hmulti : r'.grabLandLordScoreMulti = r.grabLandLordScoreMulti) : Tally r' h' := by
  have hg : grabbers h' = grabbers h := by rw [grabbers, hgrabs, grabbers]
  refine ⟨?_, ?_, ?_, ?_⟩
  · rw [hland, hmax, hg]
    exact hT.landlord
  · rw [hgrabs, hcannot]
    exact hT.passed
  · rw [hland, hcannot]
    exact hT.cannot
  · rw [hmulti, hg]
    exact hT.multi

/-- The fields of the grab phase stay as they are. -/
structure SameGrab (r r' : Room) : Prop where
  pos : r'.grabLandLordPos = r.grabLandLordPos
  landlord : r'.landLordPos = r.landLordPos
  cannot : r'.cannotGrabPos = r.cannotGrabPos
  multi : r'.grabLandLordScoreMulti = r.grabLandLordScoreMulti
  counts : r'.grabLandLordCounts = r.grabLandLordCounts
  max : r'.maxCallPointsPos = r.maxCallPointsPos

lemma SameGrab.turn {r r' : Room} {h h' : History} (hs : SameGrab r r')
    (hgrabs : h'.grabs = h.grabs) (hT : Turn r h) : Turn r' h' := by
  refine ⟨?_, ?_, ?_, ?_⟩
  · rw [hs.counts]
    exact hT.counts
  · rw [hgrabs, hs.counts, hs.pos, offset, hs.max]
    exact hT.measure
  · rw [hs.pos, hs.cannot]
    exact hT.cannot
  · rw [hs.pos, hs.landlord]
    exact hT.landlord

lemma SameGrab.tally {r r' : Room} {h h' : History} (hs : SameGrab r r')
    (hgrabs : h'.grabs = h.grabs) (hT : Tally r h) : Tally r' h' :=
  hT.frame hgrabs hs.landlord hs.max hs.cannot hs.multi

/-- The start of the phase. -/
lemma Ready.turn {r : Room} {h : History} (hr : Ready r) (hgrabs : h.grabs = []) : Turn r h := by
  have hoffset : ∀ b : Seat, (b + 1 - b).val = 1 ∧ b + 1 ≠ b := by decide
  refine ⟨?_, ?_, ?_, ?_⟩
  · rw [hr.counts]
    decide
  · rw [hgrabs, hr.counts, hr.pos, offset, getNextPosition, (hoffset _).1]
    rfl
  · rw [hr.cannot]
    simp
  · rw [hr.pos, hr.landlord]
    exact (hoffset _).2

lemma Ready.tally {r : Room} {h : History} (hr : Ready r) (hgrabs : h.grabs = []) :
    Tally r h := by
  refine ⟨?_, ?_, ?_, ?_⟩
  · rw [hr.landlord, grabbers, hgrabs]
    rfl
  · rw [hgrabs]
    simp
  · rw [hr.cannot]
    simp
  · rw [hr.multi, grabbers, hgrabs]
    rfl

/-! ### Operations of the grab phase -/

/-- The room after a grab or a pass, when the landlord, the seats that passed and the score are
booked and the next seat is searched from `pos` on. -/
lemma GrabInv.grabNext {r₁ : Room} {h' : History} {stop pos : Seat} {k : Tick}
    (hstep : r₁.logicStep = .grabLandLord) (htally : Tally r₁ h')
    (hstop : stop = r₁.landLordPos)
    (hcounts : r₁.grabLandLordCounts < grabLandLordUpLimit)
    (hmeasure : h'.grabs.length ≤ 3 * r₁.grabLandLordCounts + offset r₁ pos) :
    GrabInv (grabNext r₁ k (nextGrabPos stop k 3 r₁ pos)).room h' := by
  have hbound : h'.grabs.length ≤ 8 := by
    have hoffset : offset r₁ pos < 3 := (pos - r₁.maxCallPointsPos).isLt
    simp only [grabLandLordUpLimit] at hcounts
    omega
  obtain ⟨⟨r', found⟩, hfound⟩ := nextGrabPos_terminates stop k r₁ pos
  have hfound' := hfound 0
  rw [Nat.zero_add] at hfound'
  rw [hfound']
  have hlate : ¬ (r₁.logicStep = .sendCards ∨ r₁.logicStep = .callPoints) := by simp [hstep]
  have hcall : r₁.logicStep ≠ .callPoints := by simp [hstep]
  obtain ⟨rfl, c, rfl⟩ | ⟨q, c, rfl, rfl, hq, hc, hm⟩ := nextGrabPos_cases hfound'
  · exact ⟨fun hs => absurd hs hlate, fun hs => absurd hs hcall, fun _ hn => absurd rfl hn,
      hbound, fun _ => htally.frame rfl rfl rfl rfl rfl⟩
  · simp only [Ddz3.grabNext]
    split_ifs with hland
    · exact ⟨fun hs => absurd hs hlate, fun hs => absurd hs hcall, fun _ hn => absurd rfl hn,
        hbound, fun _ => htally.frame rfl rfl rfl rfl rfl⟩
    · refine ⟨fun hs => absurd hs hlate, fun hs => absurd hs hcall, fun _ _ => ?_, hbound,
        fun _ => htally.frame rfl rfl rfl rfl rfl⟩
      have hqland : q ≠ r₁.landLordPos := hland
      refine ⟨hc hcounts, ?_, ?_, hqland⟩
      · show h'.grabs.length + 1 ≤ 3 * c + offset r₁ q
        omega
      · exact hq.resolve_right (hstop ▸ hqland)

lemma grabs_operation {r : Room} {h : History} (k : Tick) {a : Attempt} (ha : GrabAccepted r a) :
    (h.operation r k a).grabs = h.grabs ++ [(a.pos, decide (a.op = .grabLandLord))] := by
  simp [History.operation, ha]

lemma grabs_operation_of_not {r : Room} {h : History} (k : Tick) {a : Attempt}
    (ha : ¬ GrabAccepted r a) : (h.operation r k a).grabs = h.grabs := by
  simp [History.operation, ha]

/-- An operation of the grab phase keeps the invariant, unless it comes after the end. -/
lemma GrabInv.grabLandLord {r : Room} {h : History} (hI : GrabInv r h) (k : Tick) (a : Attempt)
    (hstep : r.logicStep = .grabLandLord) (hok : GrabOpen r a) :
    GrabInv (handle r k a).room (h.operation r k a) := by
  obtain ⟨hnot, heq⟩ | ⟨ha, hop, heq⟩ | ⟨ha, hop, heq⟩ := grabLandLord_cases r k a hstep
  · have hgrabs := grabs_operation_of_not (h := h) k hnot
    have hsame : SameGrab r r := ⟨rfl, rfl, rfl, rfl, rfl, rfl⟩
    rw [heq]
    exact ⟨fun hs => hgrabs.trans (hI.early hs), hI.ready,
      fun hs hn => hsame.turn hgrabs (hI.turn hs hn), hgrabs ▸ hI.bounded,
      fun hg => hsame.tally hgrabs (hI.tally hg)⟩
  · have hturn := hI.turn hstep (hok ha)
    have htally := hI.tally (.inl hstep)
    have hgrabs := grabs_operation (h := h) k ha
    rw [decide_eq_true hop] at hgrabs
    have hpos : a.pos = r.grabLandLordPos := ha.2.1
    have hg : grabbers (h.operation r k a) = grabbers h ++ [a.pos] := by
      simp [grabbers, hgrabs, List.filter_append]
    rw [heq]
    refine GrabInv.grabNext hstep ⟨?_, ?_, ?_, ?_⟩ rfl hturn.counts ?_
    · rw [hg]
      simp
    · intro seat hseat
      rw [hgrabs] at hseat
      exact htally.passed seat (by simpa using hseat)
    · show a.pos ∉ r.cannotGrabPos
      rw [hpos]
      exact hturn.cannot
    · show r.grabLandLordScoreMulti * 2 = _
      rw [hg, htally.multi, List.length_append, List.length_singleton, pow_succ]
    · show _ ≤ 3 * r.grabLandLordCounts + offset r a.pos
      rw [hgrabs, hpos, List.length_append, List.length_singleton]
      exact hturn.measure
  · have hturn := hI.turn hstep (hok ha)
    have htally := hI.tally (.inl hstep)
    have hgrabs := grabs_operation (h := h) k ha
    rw [decide_eq_false (by simp [hop])] at hgrabs
    have hpos : a.pos = r.grabLandLordPos := ha.2.1
    have hg : grabbers (h.operation r k a) = grabbers h := by
      simp [grabbers, hgrabs, List.filter_append]
    rw [heq]
    refine GrabInv.grabNext hstep ⟨?_, ?_, ?_, ?_⟩ rfl hturn.counts ?_
    · rw [hg]
      exact htally.landlord
    · intro seat hseat
      rw [hgrabs] at hseat
      show seat ∈ r.cannotGrabPos ++ [a.pos]
      obtain hseat | hseat := List.mem_append.mp hseat
      · exact List.mem_append_left _ (htally.passed seat hseat)
      · simp only [List.mem_singleton, Prod.mk.injEq] at hseat
        exact List.mem_append_right _ (by simp [hseat.1])
    · show r.landLordPos ∉ r.cannotGrabPos ++ [a.pos]
      rw [List.mem_append, List.mem_singleton, hpos]
      rintro (hmem | heq)
      · exact htally.cannot hmem
      · exact hturn.landlord heq.symm
    · show r.grabLandLordScoreMulti = _
      rw [hg]
      exact htally.multi
    · show _ ≤ 3 * r.grabLandLordCounts + offset r a.pos
      rw [hgrabs, hpos, List.length_append, List.length_singleton]
      exact hturn.measure

/-! ### The other events -/

/-- A room in a step before the grab phase or after the deal. -/
lemma GrabInv.outside {r r' : Room} {h h' : History} (hI : GrabInv r h)
    (hgrabs : h'.grabs = h.grabs)
    (hstep : r'.logicStep ≠ .sendCards ∧ r'.logicStep ≠ .callPoints ∧ ¬ Grabbing r') :
    GrabInv r' h' where
  early := fun hs => absurd hs (by simp [hstep.1, hstep.2.1])
  ready := fun hs => absurd hs hstep.2.1
  turn := fun hs => absurd (.inl hs) hstep.2.2
  bounded := hgrabs ▸ hI.bounded
  tally := fun hg => absurd hg hstep.2.2

/-- An event that touches nothing of the grab phase. -/
lemma GrabInv.frame {r r' : Room} {h h' : History} (hI : GrabInv r h)
    (hgrabs : h'.grabs = h.grabs) (hlogic : r'.logicStep = r.logicStep) (hsame : SameGrab r r')
    (hnext : r.logicStep = .callPoints ∨ r.logicStep = .grabLandLord → r'.next = r.next) :
    GrabInv r' h' where
  early := by
    rw [hlogic, hgrabs]
    exact hI.early
  ready := by
    intro hs hn
    rw [hlogic] at hs
    rw [hnext (.inl hs)] at hn
    have hr := hI.ready hs hn
    refine ⟨?_, ?_, ?_, ?_, ?_⟩
    · rw [hsame.pos, hsame.max, hr.pos]
    · rw [hsame.landlord, hsame.max, hr.landlord]
    · rw [hsame.cannot, hr.cannot]
    · rw [hsame.multi, hr.multi]
    · rw [hsame.counts, hr.counts]
  turn := by
    intro hs hn
    rw [hlogic] at hs
    rw [hnext (.inr hs)] at hn
    exact hsame.turn hgrabs (hI.turn hs hn)
  bounded := hgrabs ▸ hI.bounded
  tally := by
    intro hg
    simp only [Grabbing, hlogic] at hg
    exact hsame.tally hgrabs (hI.tally hg)

/-- An operation of the call phase. -/
lemma GrabInv.callPoints {r : Room} {h : History} (hI : GrabInv r h) (k : Tick) (a : Attempt)
    (hstep : r.logicStep = .callPoints) : GrabInv (handle r k a).room (h.operation r k a) := by
  have hgrabs : (h.operation r k a).grabs = h.grabs :=
    grabs_operation_of_not k fun ha => absurd ha.1 (by simp [hstep])
  have hnil := hI.early (.inr hstep)
  -- the phase has not begun, so only the fields that the start of the phase sets matter
  have hbuild : ∀ r' : Room, r'.logicStep = .callPoints →
      (r'.next.map Prod.fst = some .grabLandLord → Ready r') →
      GrabInv r' (h.operation r k a) := by
    intro r' hs hready
    refine ⟨fun _ => hgrabs.trans hnil, fun _ => hready, ?_, hgrabs ▸ hI.bounded, ?_⟩
    · intro hs'
      exact absurd hs' (by simp [hs])
    · intro hg
      exact absurd hg (by simp [Grabbing, hs])
  obtain ⟨-, heq⟩ | ⟨hpos, -, points, -, -, ⟨-, heq⟩ | ⟨-, -, heq⟩⟩ |
    ⟨-, -, ⟨-, -, heq⟩ | ⟨-, heq⟩⟩ := callPoints_cases r k a hstep
  · rw [heq]
    exact hbuild r hstep (hI.ready hstep)
  · rw [heq]
    exact hbuild _ hstep fun _ => ⟨rfl, rfl, rfl, rfl, rfl⟩
  · rw [heq]
    exact hbuild _ hstep fun hn => absurd hn (by simp [logicStopTimeout, logicStartStep])
  · rw [heq]
    exact hbuild _ hstep fun hn => absurd hn (by simp [logicStopTimeout, startStepSendCards,
      logicStartStep])
  · rw [heq]
    exact hbuild _ hstep fun hn => absurd hn (by simp [logicStopTimeout, logicStartStep])

lemma GrabInv.operation {r : Room} {h : History} (hI : GrabInv r h) (k : Tick) (a : Attempt)
    (hok : GrabOpen r a) : GrabInv (handle r k a).room (h.operation r k a) := by
  by_cases hcall : r.logicStep = .callPoints
  · exact hI.callPoints k a hcall
  by_cases hgrab : r.logicStep = .grabLandLord
  · exact hI.grabLandLord k a hgrab hok
  have hgrabs : (h.operation r k a).grabs = h.grabs :=
    grabs_operation_of_not k fun ha => hgrab ha.1
  have hsame : SameGrab r (handle r k a).room := by
    obtain ⟨hpos, hlandlord, hcannot, hmulti, hcounts⟩ := (handle_untouched r k a).grab hcall hgrab
    exact ⟨hpos, hlandlord, hcannot, hmulti, hcounts, ((handle_untouched r k a).call hcall).2⟩
  exact hI.frame hgrabs (handle_schedule r k a).1 hsame fun hs => absurd hs (by simp [hcall, hgrab])

/-- The switch to a step touches nothing of the grab phase. -/
lemma onStepSwitch_sameGrab (r : Room) (k : Tick) {step : LogicStep} (hstep : step ≠ .sendCards) :
    SameGrab r (onStepSwitch { logicStopStep r with logicStep := step } k step) := by
  cases step with
  | sendCards => exact absurd rfl hstep
  | _ => exact ⟨rfl, rfl, rfl, rfl, rfl, rfl⟩

/-- A step before the grab phase comes after such a step. -/
lemma grabs_eq_nil_of_follows {r : Room} {h : History} {step : LogicStep}
    (hearly : r.logicStep = .sendCards ∨ r.logicStep = .callPoints → h.grabs = [])
    (hfollows : follows r.logicStep step = true) (hsend : step ≠ .sendCards) :
    step = .sendCards ∨ step = .callPoints → h.grabs = [] := by
  rintro (hs | rfl)
  · exact absurd hs hsend
  · apply hearly
    revert hfollows
    cases r.logicStep <;> simp [follows]

/-- The grab phase begins after the call phase. -/
lemma Grabbing.before {r r' : Room} (hg : Grabbing r')
    (hfollows : follows r.logicStep r'.logicStep = true) :
    r.logicStep = .callPoints ∧ r'.logicStep = .grabLandLord ∨ Grabbing r := by
  revert hg hfollows
  simp only [Grabbing]
  cases r.logicStep <;> cases r'.logicStep <;> simp [follows]

lemma GrabInv.onStepSwitch {r : Room} {h : History} (hI : GrabInv r h) (hord : InOrder r)
    (k : Tick) {step : LogicStep} {time : ℕ} (hnext : r.next = some (step, time)) :
    GrabInv (onStepSwitch { logicStopStep r with logicStep := step } k step) (h.switch step) := by
  have hfollows := hord.next _ hnext
  have hsched : r.next.map Prod.fst = some step := by simp [hnext]
  have hlogic := onStepSwitch_logicStep r k step
  by_cases hsend : step = .sendCards
  · subst hsend
    refine ⟨fun _ => rfl, ?_, ?_, by simp [History.switch], ?_⟩
    · intro hs
      exact absurd (hlogic.symm.trans hs) (by simp)
    · intro hs
      exact absurd (hlogic.symm.trans hs) (by simp)
    · intro hg
      simp only [Grabbing, hlogic] at hg
      exact absurd hg (by simp)
  have hsame := onStepSwitch_sameGrab r k hsend
  have hgrabs : (h.switch step).grabs = h.grabs := by rw [h.switch_of_ne hsend]
  refine ⟨?_, ?_, ?_, hgrabs ▸ hI.bounded, ?_⟩
  · rw [hlogic, hgrabs]
    exact grabs_eq_nil_of_follows hI.early hfollows hsend
  · rw [hlogic]
    rintro rfl hn
    exact absurd hn (by simp [Ddz3.onStepSwitch, onStepCallPoints, logicStartTimeout,
      incOperationSeq, logicStopStep])
  · rw [hlogic]
    rintro rfl -
    apply hsame.turn hgrabs
    have hstep : r.logicStep = .callPoints ∨ r.logicStep = .grabLandLord := by
      revert hfollows
      cases r.logicStep <;> simp [follows]
    obtain hstep | hstep := hstep
    · exact (hI.ready hstep hsched).turn (hI.early (.inr hstep))
    · exact hI.turn hstep (by simp [hsched])
  · intro hg
    apply hsame.tally hgrabs
    obtain ⟨hcall, hgrab⟩ | hg := hg.before (hlogic.symm ▸ hfollows)
    · rw [← hlogic, hgrab] at hsched
      exact (hI.ready hcall hsched).tally (hI.early (.inr hcall))
    · exact hI.tally hg

/-- The invariant of the grab phase is kept by every event without operations after its end. -/
lemma grabInv_kept : KeptInOrder GrabInv GrabOpen where
  start := by
    intro r h k hord hI hplaying
    apply hI.outside rfl
    have hlogic : (gameStart r k).logicStep = r.logicStep := rfl
    simp only [Grabbing, hlogic]
    obtain hstep | hstep := (hord.waiting hplaying).1 <;> simp [hstep]
  switch := fun k step time hord hI hnext => hI.onStepSwitch hord k hnext
  operation := fun k a _ hI hok => hI.operation k a hok
  stopTimeout := fun hI => hI.frame rfl rfl ⟨rfl, rfl, rfl, rfl, rfl, rfl⟩ fun _ => rfl
  startOutCard := fun k hI hdouble => hI.frame rfl rfl ⟨rfl, rfl, rfl, rfl, rfl, rfl⟩
    fun hs => absurd hs (by simp [hdouble])
  cutBack := fun pos hI => hI.frame rfl rfl ⟨rfl, rfl, rfl, rfl, rfl, rfl⟩ fun _ => rfl

lemma grabInv_new : GrabInv {} {} where
  early := fun _ => rfl
  ready := fun hs => absurd hs (by simp)
  turn := fun hs => absurd hs (by simp)
  bounded := by simp
  tally := fun hg => absurd hg (by simp [Grabbing])

/-- Both loops of the grab phase end. In every run in which no operation of the grab phase is
accepted after its end, the phase has at most eight operations, and the landlord, the seats that
passed and the score are as they should be.

**Proof sketch.** Count three for every time the search has met the bidder and one for every seat
behind the bidder. Every operation raises the count, the search stops the phase when it meets the
bidder for the third time, and the count starts at one. A seat in turn has not passed and is not
the landlord; so the landlord never passes, and a grab comes from a seat that has not. -/
theorem fairGrab_of_plays {w : Room × History} (h : Plays GrabOpen w) :
    FairGrab w.1 w.2 ∧ ∀ (stop : Seat) (k : Tick) (r : Room) (pos : Seat),
      ∃ found, ∀ fuel, nextGrabPos stop k (fuel + 3) r pos = some found :=
  ⟨(grabInv_kept.plays grabInv_new h).2.fairGrab, nextGrabPos_terminates⟩

/-! ### Runs -/

instance (r : Room) (a : Attempt) : Decidable (GrabOpen r a) := by
  unfold GrabOpen
  infer_instance

/-- The first seat calls three points and the second seat is asked whether it grabs. -/
def called : List (Tick × Event) :=
  asked ++ [(unshuffled 823, .operation 0 .callPoints (some 3) none), (unshuffled 834, .timer)]

/-- The second seat grabs, the others pass, and it gets the base cards. -/
theorem fairGrab_of_grab : ∃ w, Plays GrabOpen w ∧ FairGrab w.1 w.2 ∧
    w.1.logicStep = .sendBaseCards ∧ w.1.landLordPos = 1 ∧ w.1.grabLandLordScoreMulti = 2 := by
  have hexec : ((Runs.exec watchStep (fun w e => Meets GrabOpen w.1 e) ({}, {}) (called ++
      [(unshuffled 835, .operation 1 .grabLandLord none none), (unshuffled 846, .timer),
        (unshuffled 847, .operation 2 .grabLandLordPass none none), (unshuffled 858, .timer),
        (unshuffled 859, .operation 0 .grabLandLordPass none none), (unshuffled 870, .timer)])).any
      fun w => w.1.logicStep == .sendBaseCards && w.1.landLordPos == 1 &&
        w.1.grabLandLordScoreMulti == 2) = true := by
    decide +kernel
  obtain ⟨w, hrun, hw⟩ := (Option.any_eq_true _ _).mp hexec
  simp only [Bool.and_eq_true, beq_iff_eq] at hw
  have hplays : Plays GrabOpen w := Runs.reaches_of_exec _ .init hrun
  exact ⟨w, hplays, (fairGrab_of_plays hplays).1, hw.1.1, hw.1.2, hw.2⟩

/-- The second and the third seat pass, so the base cards are scheduled for the bidder. Before the
timer switches, the third seat grabs, and it gets the base cards although it has passed. -/
theorem grab_after_pass : ∃ w, Plays (fun _ _ => True) w ∧ w.1.logicStep = .sendBaseCards ∧
    w.1.landLordPos = 2 ∧ (2, false) ∈ w.2.grabs ∧ ¬ FairGrab w.1 w.2 := by
  have hexec : ((Runs.exec watchStep (fun w e => Meets (fun _ _ => True) w.1 e) ({}, {}) (called ++
      [(unshuffled 835, .operation 1 .grabLandLordPass none none), (unshuffled 846, .timer),
        (unshuffled 847, .operation 2 .grabLandLordPass none none),
        (unshuffled 848, .operation 2 .grabLandLord none none),
        (unshuffled 859, .timer), (unshuffled 860, .operation 0 .grabLandLordPass none none),
        (unshuffled 871, .timer)])).any
      fun w => w.1.logicStep == .sendBaseCards && w.1.landLordPos == 2 &&
        w.2.grabs.contains (2, false)) = true := by
    decide +kernel
  obtain ⟨w, hrun, hw⟩ := (Option.any_eq_true _ _).mp hexec
  simp only [Bool.and_eq_true, beq_iff_eq, List.contains_iff_mem] at hw
  obtain ⟨⟨hstep, hland⟩, hmem⟩ := hw
  refine ⟨w, Runs.reaches_of_exec _ .init hrun, hstep, hland, hmem, ?_⟩
  intro hfair
  exact hfair.passed (.inr (.inl hstep)) 2 hmem hland

end Ddz3
