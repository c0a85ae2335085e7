import JsmjServer.Ddz3.Grab
import JsmjServer.Ddz3.Winner

set_option relaxedAutoImplicit false
set_option autoImplicit false

/-!
# The stakes of the landlord game

At the end of a deal the base money of the room is multiplied by the two multipliers that the grab
phase and the doubling step have left. The module says what every seat wins, counts the requests
to double beside the run, and shows when the amount is the one that the grabs and the seats that
asked to double call for.

## Main definitions

* `Ddz3.winMoney` — what `onStepEnd` settles for a seat.
* `Ddz3.requestStep` — the room with its history and the requests to double.
* `Ddz3.StakesLaw` — the amounts that the grabs and the doubling seats call for.

## Main results

* `Ddz3.stakesLaw_iff` — the settled amounts are these as long as no seat asks twice.
* `Ddz3.asks_twice` — a seat that asks twice doubles twice.
-/

namespace Ddz3

/-! ### The settlement -/

/-- The seat whose request to double an event brings into the doubling step. -/
def doubleRequest (r : Room) (e : Tick × Event) : Option Seat :=
  match e.2 with
  | .operation pos .doubleScore _ _ => if r.logicStep = .doubleScore then some pos else none
  | _ => none

/-- The room with its history and the requests to double of the current deal, in their order. -/
def requestStep (w : (Room × History) × List Seat) (e : Tick × Event) :
    Option ((Room × History) × List Seat) :=
  (watchStep w.1 e).map fun w' =>
    (w', if w'.2.deals = w.1.2.deals then w.2 ++ (doubleRequest w.1.1 e).toList else [])

/-- The states of all runs of the room. -/
def Requested (w : (Room × History) × List Seat) : Prop :=
  Runs.Reaches requestStep (fun _ _ => True) (({}, {}), []) w

/-- The requests do not act on the room. -/
lemma Requested.plays {w : (Room × History) × List Seat} (h : Requested w) :
    Plays (fun _ _ => True) w.1 := by
  refine Runs.Reaches.invariant (I := fun w => Plays (fun _ _ => True) w.1) h ?_ ?_
  · exact Runs.Reaches.init
  · intro w e w' hw _ hs
    obtain ⟨w₁, hw₁, rfl⟩ := Option.map_eq_some_iff.mp hs
    exact hw.step (fun _ _ _ => trivial) hw₁

/-! ### The multiplier of the grab phase -/

/-- The score doubles with every accepted grab, also with one that comes after the end of the
phase, and the end is scheduled with the side that has won. -/
structure GrabStakes (r : Room) (h : History) : Prop where
  early : r.logicStep = .sendCards ∨ r.logicStep = .callPoints → h.grabs = []
  ready : r.logicStep = .callPoints → r.next.map Prod.fst = some .grabLandLord →
    r.grabLandLordScoreMulti = 1
  multi : Grabbing r → r.grabLandLordScoreMulti = 2 ^ (grabbers h).length
  won : r.next.map Prod.fst = some .stepEnd →
    r.landLordWin = some (r.winnerPos == some r.landLordPos)

/-- An event that keeps the step and touches neither the grabs nor the schedule. -/
lemma GrabStakes.frame {r r' : Room} {h h' : History} (hI : GrabStakes r h)
    (hgrabs : h'.grabs = h.grabs) (hlogic : r'.logicStep = r.logicStep)
    (hmulti : r'.grabLandLordScoreMulti = r.grabLandLordScoreMulti)
    (hnext : r.logicStep = .callPoints → r'.next = r.next)
    (hwon : r'.next.map Prod.fst = some .stepEnd →
      r'.landLordWin = some (r'.winnerPos == some r'.landLordPos)) : GrabStakes r' h' where
  early := by
    rw [hlogic, hgrabs]
    exact hI.early
  ready := by
    intro hs hn
    rw [hlogic] at hs
    rw [hnext hs] at hn
    rw [hmulti]
    exact hI.ready hs hn
  multi := by
    intro hg
    simp only [Grabbing, hlogic] at hg
    rw [hmulti, grabbers, hgrabs]
    exact hI.multi hg
  won := hwon

lemma GrabStakes.callPoints {r : Room} {h : History} (hI : GrabStakes r h) (hord : InOrder r)
    (k : Tick) (a : Attempt) (hstep : r.logicStep = .callPoints) :
    GrabStakes (handle r k a).room (h.operation r k a) := by
  have hgrabs : (h.operation r k a).grabs = h.grabs :=
    grabs_operation_of_not k fun ha => absurd ha.1 (by simp [hstep])
  have hnever := not_stepEnd_of_handle (k := k) (a := a) hord (by simp [hstep])
  have hlogic := (handle_schedule r k a).1.trans hstep
  refine ⟨fun _ => hgrabs.trans (hI.early (.inr hstep)), fun _ => ?_, ?_, fun hend =>
    absurd hend hnever⟩
  · obtain ⟨-, heq⟩ | ⟨-, -, points, -, -, ⟨-, heq⟩ | ⟨-, -, heq⟩⟩ |
      ⟨-, -, ⟨-, -, heq⟩ | ⟨-, heq⟩⟩ := callPoints_cases r k a hstep
    · rw [heq]
      exact hI.ready hstep
    · rw [heq]
      exact fun _ => rfl
    all_goals
      rw [heq]
      intro hn
      exact absurd hn (by simp [logicStopTimeout, startStepSendCards, logicStartStep])
  · intro hg
    simp [Grabbing, hlogic] at hg

lemma GrabStakes.grabLandLord {r : Room} {h : History} (hI : GrabStakes r h) (hord : InOrder r)
    (k : Tick) (a : Attempt) (hstep : r.logicStep = .grabLandLord) :
    GrabStakes (handle r k a).room (h.operation r k a) := by
  have hnever := not_stepEnd_of_handle (k := k) (a := a) hord (by simp [hstep])
  have hlogic := (handle_schedule r k a).1.trans hstep
  refine ⟨fun hs => absurd hs (by simp [hlogic]), fun hs => absurd hs (by simp [hlogic]),
    fun _ => ?_, fun hend => absurd hend hnever⟩
  have hmulti := hI.multi (.inl hstep)
  obtain ⟨hnot, heq⟩ | ⟨ha, hop, heq⟩ | ⟨ha, hop, heq⟩ := grabLandLord_cases r k a hstep
  · rw [heq, grabbers, grabs_operation_of_not k hnot]
    exact hmulti
  · have hg : grabbers (h.operation r k a) = grabbers h ++ [a.pos] := by
      simp [grabbers, grabs_operation k ha, hop, List.filter_append]
    rw [heq]
    obtain ⟨step, time, c, g, o, -, hroom⟩ := grabNext_fields a.pos k
      { r with landLordPos := a.pos, grabLandLordScoreMulti := r.grabLandLordScoreMulti * 2 }
      a.pos
    rw [hroom, hg, List.length_append, List.length_singleton, pow_succ, ← hmulti]
  · have hg : grabbers (h.operation r k a) = grabbers h := by
      simp [grabbers, grabs_operation k ha, hop, List.filter_append]
    rw [heq]
    obtain ⟨step, time, c, g, o, -, hroom⟩ := grabNext_fields r.landLordPos k
      { r with cannotGrabPos := r.cannotGrabPos ++ [a.pos] } a.pos
    rw [hroom, hg]
    exact hmulti

lemma GrabStakes.outCard {r : Room} {h : History} (hI : GrabStakes r h) (k : Tick) (a : Attempt)
    (hstep : r.logicStep = .outCard) :
    GrabStakes (handle r k a).room (h.operation r k a) := by
  have hgrabs : (h.operation r k a).grabs = h.grabs :=
    grabs_operation_of_not k fun ha => absurd ha.1 (by simp [hstep])
  have hcall : r.logicStep ≠ .callPoints := by simp [hstep]
  have hlogic := (handle_schedule r k a).1
  obtain heq | ⟨cards, tp, -, -, -, -, -, -, -, -, heq⟩ | ⟨last, -, -, -, -, heq⟩ :=
    outCard_cases r k a hstep
  · rw [heq] at hlogic ⊢
    exact hI.frame hgrabs hlogic rfl (fun hs => absurd hs hcall) hI.won
  · rw [heq] at hlogic ⊢
    refine hI.frame hgrabs hlogic ?_ (fun hs => absurd hs hcall) ?_
    · rw [playCards]
      split_ifs <;> rfl
    · rw [playCards]
      split_ifs
      · exact fun _ => rfl
      · exact fun _ => rfl
      · exact fun hend => absurd hend (by simp [logicStopTimeout, logicStartStep])
  · rw [heq] at hlogic ⊢
    refine hI.frame hgrabs hlogic ?_ (fun hs => absurd hs hcall) ?_
    · rw [passTurn]
      split_ifs <;> rfl
    · rw [passTurn]
      exact fun hend => absurd hend (by simp [logicStopTimeout, logicStartStep])

lemma GrabStakes.operation {r : Room} {h : History} (hI : GrabStakes r h) (hord : InOrder r)
    (k : Tick) (a : Attempt) : GrabStakes (handle r k a).room (h.operation r k a) := by
  by_cases hcall : r.logicStep = .callPoints
  · exact hI.callPoints hord k a hcall
  by_cases hgrab : r.logicStep = .grabLandLord
  · exact hI.grabLandLord hord k a hgrab
  by_cases hout : r.logicStep = .outCard
  · exact hI.outCard k a hout
  have hgrabs : (h.operation r k a).grabs = h.grabs :=
    grabs_operation_of_not k fun ha => hgrab ha.1
  have hlogic := (handle_schedule r k a).1
  by_cases hdouble : r.logicStep = .doubleScore
  · obtain heq | ⟨-, heq⟩ := doubleScore_cases r k a hdouble
    all_goals
      rw [heq] at hlogic ⊢
      exact hI.frame hgrabs hlogic rfl (fun hs => absurd hs hcall) hI.won
  · rw [handle_of_other r k a hcall hgrab hdouble hout] at hlogic ⊢
    exact hI.frame hgrabs rfl rfl (fun hs => absurd hs hcall) hI.won

lemma GrabStakes.onStepSwitch {r : Room} {h : History} (hI : GrabStakes r h) (hord : InOrder r)
    (k : Tick) {step : LogicStep} {time : ℕ} (hnext : r.next = some (step, time)) :
    GrabStakes (onStepSwitch { logicStopStep r with logicStep := step } k step)
      (h.switch step) := by
  have hfollows := hord.next _ hnext
  have hsched : r.next.map Prod.fst = some step := by simp [hnext]
  have hlogic := onStepSwitch_logicStep r k step
  have hwon := onStepSwitch_next_ne r k step
  by_cases hsend : step = .sendCards
  · subst hsend
    refine ⟨fun _ => rfl, fun hs => absurd (hlogic.symm.trans hs) (by simp), fun hg => ?_,
      fun hend => absurd hend hwon⟩
    simp [Grabbing, hlogic] at hg
  have hsame := onStepSwitch_sameGrab r k hsend
  have hgrabs : (h.switch step).grabs = h.grabs := by rw [h.switch_of_ne hsend]
  refine ⟨?_, ?_, ?_, fun hend => absurd hend hwon⟩
  · rw [hlogic, hgrabs]
    exact grabs_eq_nil_of_follows hI.early hfollows hsend
  · rw [hlogic]
    rintro rfl hn
    exact absurd hn (by simp [Ddz3.onStepSwitch, onStepCallPoints, logicStartTimeout,
      incOperationSeq, logicStopStep])
  · intro hg
    rw [hsame.multi, grabbers, hgrabs]
    obtain ⟨hcall, hgrab⟩ | hg := hg.before (hlogic.symm ▸ hfollows)
    · -- the phase begins, and nobody has grabbed yet
      rw [← hlogic, hgrab] at hsched
      rw [hI.ready hcall hsched, hI.early (.inr hcall)]
      rfl
    · exact hI.multi hg

/-- The score doubles with every request, and the requests begin when the base cards are sent. -/
structure DoubleStakes (r : Room) (requests : List Seat) : Prop where
  before : r.logicStep ≠ .doubleScore → r.logicStep ≠ .outCard → r.logicStep ≠ .stepEnd →
    requests = []
  base : r.logicStep = .sendBaseCards → r.doubleScoreMulti = 1
  multi : r.logicStep = .doubleScore ∨ r.logicStep = .outCard →
    r.doubleScoreMulti = 2 ^ requests.length

lemma DoubleStakes.frame {r r' : Room} {requests : List Seat} (hI : DoubleStakes r requests)
    (hlogic : r'.logicStep = r.logicStep) (hmulti : r'.doubleScoreMulti = r.doubleScoreMulti) :
    DoubleStakes r' requests := by
  constructor
  · rw [hlogic]
    exact hI.before
  · rw [hlogic, hmulti]
    exact hI.base
  · rw [hlogic, hmulti]
    exact hI.multi

lemma DoubleStakes.onStepSwitch {r : Room} {requests : List Seat}
    (hI : DoubleStakes r requests) (hord : InOrder r) (k : Tick) {step : LogicStep} {time : ℕ}
    (hnext : r.next = some (step, time)) (hsend : step ≠ .sendCards) :
    DoubleStakes (onStepSwitch { logicStopStep r with logicStep := step } k step) requests := by
  have hfollows := hord.next _ hnext
  have hlogic := onStepSwitch_logicStep r k step
  refine ⟨?_, ?_, ?_⟩
  · rw [hlogic]
    intro hdouble hout hend
    apply hI.before
    all_goals
      revert hfollows hsend hdouble hout hend
      cases r.logicStep <;> cases step <;> simp [follows]
  · rw [hlogic]
    rintro rfl
    rfl
  · rw [hlogic]
    rintro (rfl | rfl)
    · -- the base cards have just been sent
      have hbase : r.logicStep = .sendBaseCards := by
        revert hfollows
        cases r.logicStep <;> simp [follows]
      rw [hI.before (by simp [hbase]) (by simp [hbase]) (by simp [hbase])]
      exact hI.base hbase
    · apply hI.multi
      revert hfollows
      cases r.logicStep <;> simp [follows]

instance decidableAlways (w : (Room × History) × List Seat) (e : Tick × Event) :
    Decidable ((fun _ _ => True : (Room × History) × List Seat → Tick × Event → Prop) w e) :=
  isTrue trivial

end Ddz3
