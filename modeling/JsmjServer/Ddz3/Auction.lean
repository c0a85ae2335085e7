import JsmjServer.Ddz3.History

set_option relaxedAutoImplicit false
set_option autoImplicit false

/-!
# The call phase of the landlord game

The seats call points in turn, from `firstCallPointsPos` on. The module shows when the phase is one
lap: no seat acts twice, the points rise within 1 to 3, and after three accepted operations at the
latest the cards are sent again or the highest bidder goes on to the grab phase.

## Main definitions

* `Ddz3.OneLap` — what the call phase of a deal looks like.
* `Ddz3.Orderly` — an operation that does not leave the lap.

## Main results

* `Ddz3.oneLap_of_plays` — runs of orderly operations keep to one lap.
* `Ddz3.call_of_five` — a call of five points is accepted.
-/

namespace Ddz3

/-- The step that is scheduled. -/
def scheduled (r : Room) : Option LogicStep := r.next.map Prod.fst

/-- The points called in this deal. -/
def bids (h : History) : List ℤ := h.calls.filterMap Prod.snd

/-- The call phase of the current deal: every seat acts at most once; the points rise and stay
within 1 to 3, and `callPoints` is the last of them; after three operations the phase is over,
with a redeal when all have passed and else with the highest bidder. -/
structure OneLap (r : Room) (h : History) : Prop where
  once : (h.calls.map Prod.fst).Nodup
  rising : (bids h).Pairwise (· < ·)
  range : ∀ points ∈ bids h, 1 ≤ points ∧ points ≤ 3
  recorded : r.callPoints = (bids h).getLast?.getD 0
  three : h.calls.length ≤ 3
  ended : r.logicStep = .callPoints → h.calls.length = 3 →
    scheduled r = some (if bids h = [] then .sendCards else .grabLandLord)
  redeal : r.logicStep = .callPoints → scheduled r = some .sendCards →
    h.calls.length = 3 ∧ bids h = []
  highest : (r.logicStep = .callPoints ∧ scheduled r = some .grabLandLord ∨
      r.logicStep = .grabLandLord ∨ r.logicStep = .sendBaseCards ∨ r.logicStep = .doubleScore ∨
      r.logicStep = .outCard) →
    ∃ points, (r.maxCallPointsPos, some points) ∈ h.calls ∧ ∀ b ∈ bids h, b ≤ points

/-- An operation of the call phase that keeps to the lap: it is not accepted after the phase has
ended and before the timer switches, it calls no more than three points, and it is no pass of the
last seat after somebody called. -/
def Orderly (r : Room) (a : Attempt) : Prop :=
  CallAccepted r a →
    scheduled r ≠ some .grabLandLord ∧ scheduled r ≠ some .sendCards ∧
    (a.op = .callPoints → ∀ points ∈ a.param, points ≤ 3) ∧
    ¬ (a.op = .callPointsPass ∧ r.callPoints ≠ 0 ∧ getNextPosition a.pos = r.firstCallPointsPos)

/-! ### The seats of a lap -/

/-- The first `n` seats from `first` on. -/
def lap (first : Seat) : ℕ → List Seat
  | 0 => []
  | n + 1 => lap first n ++ [first + Fin.ofNat 3 n]

lemma lap_nodup (first : Seat) (n : ℕ) (hn : n ≤ 3) : (lap first n).Nodup := by
  revert first
  interval_cases n <;> decide

lemma next_ofNat (first : Seat) (n : ℕ) :
    getNextPosition (first + Fin.ofNat 3 n) = first + Fin.ofNat 3 (n + 1) := by
  have : Fin.ofNat 3 (n + 1) = Fin.ofNat 3 n + 1 := by
    ext
    simp [Fin.ofNat, Fin.val_add]
  rw [getNextPosition, this, add_assoc]

lemma add_ofNat_eq_iff (first : Seat) (n : ℕ) (hn : n < 3) :
    first + Fin.ofNat 3 (n + 1) = first ↔ n = 2 := by
  revert first
  interval_cases n <;> decide

/-! ### The invariant -/

/-- The phase is open: the next seat of the lap may act. -/
def Calling (r : Room) : Prop :=
  (r.logicStep = .sendCards ∨ r.logicStep = .callPoints) ∧
    scheduled r ≠ some .grabLandLord ∧ scheduled r ≠ some .sendCards

/-- What holds of the call phase in every state. -/
structure CallInv (r : Room) (h : History) : Prop where
  once : (h.calls.map Prod.fst).Nodup
  rising : (bids h).Pairwise (· < ·)
  range : ∀ points ∈ bids h, 1 ≤ points ∧ points ≤ 3
  recorded : r.callPoints = (bids h).getLast?.getD 0
  bound : ∀ points ∈ bids h, points ≤ r.callPoints
  max : bids h ≠ [] → (r.maxCallPointsPos, some r.callPoints) ∈ h.calls
  three : h.calls.length ≤ 3
  calling : Calling r → h.calls.length < 3 ∧
    h.calls.map Prod.fst = lap r.firstCallPointsPos h.calls.length ∧
    r.callPointsPos = r.firstCallPointsPos + Fin.ofNat 3 h.calls.length
  redeal : r.logicStep = .callPoints → scheduled r = some .sendCards →
    h.calls.length = 3 ∧ bids h = []
  later : (r.logicStep = .callPoints ∧ scheduled r = some .grabLandLord ∨
      r.logicStep = .grabLandLord ∨ r.logicStep = .sendBaseCards ∨ r.logicStep = .doubleScore ∨
      r.logicStep = .outCard) → bids h ≠ []

lemma CallInv.oneLap {r : Room} {h : History} (hI : CallInv r h) : OneLap r h where
  once := hI.once
  rising := hI.rising
  range := hI.range
  recorded := hI.recorded
  three := hI.three
  ended := by
    intro hstep hlen
    by_cases hgrab : scheduled r = some .grabLandLord
    · rw [if_neg (hI.later (.inl ⟨hstep, hgrab⟩)), hgrab]
    by_cases hsend : scheduled r = some .sendCards
    · rw [if_pos (hI.redeal hstep hsend).2, hsend]
    have := (hI.calling ⟨.inr hstep, hgrab, hsend⟩).1
    omega
  redeal := hI.redeal
  highest := fun hlater => ⟨r.callPoints, hI.max (hI.later hlater), hI.bound⟩

/-- Nobody has called exactly when `callPoints` is 0. -/
lemma CallInv.bids_eq_nil_iff {r : Room} {h : History} (hI : CallInv r h) :
    bids h = [] ↔ r.callPoints = 0 := by
  constructor
  · intro hnil
    rw [hI.recorded, hnil]
    rfl
  · intro hzero
    by_contra hne
    obtain ⟨points, hpoints⟩ := List.exists_mem_of_ne_nil _ hne
    have h₁ := (hI.range points hpoints).1
    have h₂ := hI.bound points hpoints
    omega

lemma CallInv.nonneg {r : Room} {h : History} (hI : CallInv r h) : 0 ≤ r.callPoints := by
  by_cases hnil : bids h = []
  · exact (hI.bids_eq_nil_iff.mp hnil).ge
  · obtain ⟨points, hpoints⟩ := List.exists_mem_of_ne_nil _ hnil
    have h₁ := (hI.range points hpoints).1
    have h₂ := hI.bound points hpoints
    omega

/-- What the invariant reads of the room. -/
lemma CallInv.frame {r r' : Room} {h h' : History} (hI : CallInv r h)
    (hcalls : h'.calls = h.calls) (hpoints : r'.callPoints = r.callPoints)
    (hmax : r'.maxCallPointsPos = r.maxCallPointsPos)
    (hcalling : Calling r' → Calling r ∧ r'.callPointsPos = r.callPointsPos ∧
      r'.firstCallPointsPos = r.firstCallPointsPos)
    (hredeal : r'.logicStep = .callPoints → scheduled r' = some .sendCards →
      r.logicStep = .callPoints ∧ scheduled r = some .sendCards)
    (hlater : (r'.logicStep = .callPoints ∧ scheduled r' = some .grabLandLord ∨
        r'.logicStep = .grabLandLord ∨ r'.logicStep = .sendBaseCards ∨
        r'.logicStep = .doubleScore ∨ r'.logicStep = .outCard) →
      (r.logicStep = .callPoints ∧ scheduled r = some .grabLandLord ∨
        r.logicStep = .grabLandLord ∨ r.logicStep = .sendBaseCards ∨
        r.logicStep = .doubleScore ∨ r.logicStep = .outCard)) : CallInv r' h' := by
  have hbids : bids h' = bids h := by rw [bids, hcalls, bids]
  refine ⟨?_, ?_, ?_, ?_, ?_, ?_, ?_, ?_, ?_, ?_⟩
  · rw [hcalls]
    exact hI.once
  · rw [hbids]
    exact hI.rising
  · rw [hbids]
    exact hI.range
  · rw [hbids, hpoints]
    exact hI.recorded
  · rw [hbids, hpoints]
    exact hI.bound
  · rw [hbids, hpoints, hmax, hcalls]
    exact hI.max
  · rw [hcalls]
    exact hI.three
  · intro hc
    obtain ⟨hc', hpos, hfirst⟩ := hcalling hc
    rw [hcalls, hpos, hfirst]
    exact hI.calling hc'
  · intro hstep hsend
    rw [hcalls, hbids]
    exact (fun hp => hI.redeal hp.1 hp.2) (hredeal hstep hsend)
  · intro hl
    rw [hbids]
    exact hI.later (hlater hl)

/-! ### Operations of the call phase -/

/-- The history after an accepted operation of the call phase. -/
lemma calls_operation {r : Room} {h : History} (k : Tick) {a : Attempt} (ha : CallAccepted r a) :
    (h.operation r k a).calls =
      h.calls ++ [(a.pos, if a.op = .callPoints then a.param else none)] := by
  simp [History.operation, ha]

lemma calls_operation_of_not {r : Room} {h : History} (k : Tick) {a : Attempt}
    (ha : ¬ CallAccepted r a) : (h.operation r k a).calls = h.calls := by
  simp [History.operation, ha]

/-- The seats of the lap with one more of them. -/
lemma CallInv.lap_succ {r : Room} {h : History} (hI : CallInv r h) (hc : Calling r)
    (x : Option ℤ) : ((h.calls ++ [(r.callPointsPos, x)]).map Prod.fst) =
      lap r.firstCallPointsPos (h.calls.length + 1) := by
  obtain ⟨-, hlap, hpos⟩ := hI.calling hc
  rw [List.map_append, hlap, lap, hpos]
  rfl

/-- An accepted call. -/
lemma CallInv.call {r r' : Room} {h h' : History} {points : ℤ} (hI : CallInv r h)
    (hc : Calling r) (hpoints : r.callPoints < points) (hle : points ≤ 3)
    (hcalls : h'.calls = h.calls ++ [(r.callPointsPos, some points)])
    (hr' : r'.callPoints = points) (hmax : r'.maxCallPointsPos = r.callPointsPos)
    (hfirst : r'.firstCallPointsPos = r.firstCallPointsPos)
    (hnext : scheduled r' = some .grabLandLord ∨
      scheduled r' = some .callPoints ∧
        getNextPosition r.callPointsPos ≠ r.firstCallPointsPos ∧
        r'.callPointsPos = getNextPosition r.callPointsPos) : CallInv r' h' := by
  obtain ⟨hlt, hlap, hpos⟩ := hI.calling hc
  have hbids : bids h' = bids h ++ [points] := by simp [bids, hcalls]
  have hseats := hI.lap_succ hc (some points)
  have hnonneg := hI.nonneg
  refine ⟨?_, ?_, ?_, ?_, ?_, ?_, ?_, ?_, ?_, ?_⟩
  · rw [hcalls, hseats]
    exact lap_nodup _ _ (by omega)
  · rw [hbids, List.pairwise_append]
    refine ⟨hI.rising, List.pairwise_singleton _ _, ?_⟩
    intro b hb c hc'
    obtain rfl := List.mem_singleton.mp hc'
    have := hI.bound b hb
    omega
  · rw [hbids]
    intro b hb
    obtain hb | hb := List.mem_append.mp hb
    · exact hI.range b hb
    · obtain rfl := List.mem_singleton.mp hb
      omega
  · rw [hbids, hr']
    simp
  · rw [hbids, hr']
    intro b hb
    obtain hb | hb := List.mem_append.mp hb
    · have := hI.bound b hb
      omega
    · exact (List.mem_singleton.mp hb).le
  · intro _
    rw [hcalls, hr', hmax]
    simp
  · rw [hcalls, List.length_append, List.length_singleton]
    omega
  · rintro ⟨-, hgrab, -⟩
    obtain hnext | ⟨-, hne, hpos'⟩ := hnext
    · exact absurd hnext hgrab
    rw [hcalls, hseats, hpos', hfirst, List.length_append, List.length_singleton]
    rw [hpos, next_ofNat] at hne ⊢
    have hne' := mt (add_ofNat_eq_iff r.firstCallPointsPos h.calls.length hlt).mpr hne
    exact ⟨by omega, rfl, rfl⟩
  · intro _ hsend
    obtain hnext | ⟨hnext, -⟩ := hnext
    · rw [hnext] at hsend
      exact absurd hsend (by simp)
    · rw [hnext] at hsend
      exact absurd hsend (by simp)
  · intro _
    rw [hbids]
    simp

/-- An accepted pass. -/
lemma CallInv.pass {r r' : Room} {h h' : History} (hI : CallInv r h) (hc : Calling r)
    (hcalls : h'.calls = h.calls ++ [(r.callPointsPos, none)])
    (hstep' : r'.logicStep = .callPoints) (hr' : r'.callPoints = r.callPoints)
    (hmax : r'.maxCallPointsPos = r.maxCallPointsPos)
    (hfirst : r'.firstCallPointsPos = r.firstCallPointsPos)
    (hnext : scheduled r' = some .sendCards ∧ r.callPoints = 0 ∧
        getNextPosition r.callPointsPos = r.firstCallPointsPos ∨
      scheduled r' = some .callPoints ∧
        getNextPosition r.callPointsPos ≠ r.firstCallPointsPos ∧
        r'.callPointsPos = getNextPosition r.callPointsPos) : CallInv r' h' := by
  obtain ⟨hlt, hlap, hpos⟩ := hI.calling hc
  have hbids : bids h' = bids h := by simp [bids, hcalls]
  have hseats := hI.lap_succ hc none
  have hlast := add_ofNat_eq_iff r.firstCallPointsPos h.calls.length hlt
  rw [hpos, next_ofNat] at hnext
  refine ⟨?_, ?_, ?_, ?_, ?_, ?_, ?_, ?_, ?_, ?_⟩
  · rw [hcalls, hseats]
    exact lap_nodup _ _ (by omega)
  · rw [hbids]
    exact hI.rising
  · rw [hbids]
    exact hI.range
  · rw [hbids, hr']
    exact hI.recorded
  · rw [hbids, hr']
    exact hI.bound
  · intro hne
    rw [hcalls, hr', hmax]
    exact List.mem_append_left _ (hI.max (hbids ▸ hne))
  · rw [hcalls, List.length_append, List.length_singleton]
    omega
  · rintro ⟨-, -, hsend⟩
    obtain ⟨hnext, -⟩ | ⟨-, hne, hpos'⟩ := hnext
    · exact absurd hnext hsend
    rw [hcalls, hseats, hpos', hfirst, List.length_append, List.length_singleton]
    have hne' := mt hlast.mpr hne
    exact ⟨by omega, rfl, rfl⟩
  · intro _ hsend
    obtain ⟨-, hzero, hfull⟩ | ⟨hnext, -⟩ := hnext
    · rw [hcalls, hbids, List.length_append, List.length_singleton, hlast.mp hfull]
      exact ⟨rfl, hI.bids_eq_nil_iff.mpr hzero⟩
    · rw [hnext] at hsend
      exact absurd hsend (by simp)
  · rintro (⟨-, hgrab⟩ | hl)
    · obtain ⟨hnext, -⟩ | ⟨hnext, -⟩ := hnext
      · rw [hnext] at hgrab
        exact absurd hgrab (by simp)
      · rw [hnext] at hgrab
        exact absurd hgrab (by simp)
    · rw [hstep'] at hl
      exact absurd hl (by simp)

/-- An orderly operation of the call phase keeps the invariant. -/
lemma CallInv.callPoints {r : Room} {h : History} (hI : CallInv r h) (k : Tick) (a : Attempt)
    (hstep : r.logicStep = .callPoints) (hok : Orderly r a) :
    CallInv (handle r k a).room (h.operation r k a) := by
  obtain ⟨hnot, heq⟩ | ⟨hpos, hop, points, hparam, hpoints, hcases⟩ | ⟨hpos, hop, hcases⟩ :=
    callPoints_cases r k a hstep
  · rw [heq]
    exact hI.frame (calls_operation_of_not k hnot) rfl rfl (fun hc => ⟨hc, rfl, rfl⟩)
      (fun hs hn => ⟨hs, hn⟩) id
  · have ha : CallAccepted r a := ⟨hstep, hpos, .inl ⟨hop, by simpa [hparam] using hpoints⟩⟩
    obtain ⟨hgrab, hsend, hle, -⟩ := hok ha
    have hcalls := calls_operation (h := h) k ha
    rw [hpos, if_pos hop, hparam] at hcalls
    have hc : Calling r := ⟨.inr hstep, hgrab, hsend⟩
    obtain ⟨-, heq⟩ | ⟨-, hne, heq⟩ := hcases
    · rw [heq]
      exact hI.call hc hpoints (hle hop points hparam) hcalls rfl hpos rfl (.inl rfl)
    · rw [heq]
      exact hI.call hc hpoints (hle hop points hparam) hcalls rfl hpos rfl
        (.inr ⟨rfl, hpos ▸ hne, congrArg getNextPosition hpos⟩)
  · have ha : CallAccepted r a := ⟨hstep, hpos, .inr hop⟩
    obtain ⟨hgrab, hsend, -, hlast⟩ := hok ha
    have hcalls := calls_operation (h := h) k ha
    rw [hpos, if_neg (by simp [hop])] at hcalls
    have hc : Calling r := ⟨.inr hstep, hgrab, hsend⟩
    obtain ⟨hzero, hfull, heq⟩ | ⟨hmore, heq⟩ := hcases
    · rw [heq]
      exact hI.pass hc hcalls hstep rfl rfl rfl (.inl ⟨rfl, hzero, hpos ▸ hfull⟩)
    · have hne : getNextPosition r.callPointsPos ≠ r.firstCallPointsPos := by
        intro hfull
        rw [← hpos] at hfull
        by_cases hzero : r.callPoints = 0
        · exact hmore ⟨hzero, hfull⟩
        · exact hlast ⟨hop, hzero, hfull⟩
      rw [heq]
      exact hI.pass hc hcalls hstep rfl rfl rfl
        (.inr ⟨rfl, hne, congrArg getNextPosition hpos⟩)

/-! ### The other events -/

lemma CallInv.operation {r : Room} {h : History} (hI : CallInv r h) (k : Tick) (a : Attempt)
    (hok : Orderly r a) : CallInv (handle r k a).room (h.operation r k a) := by
  by_cases hstep : r.logicStep = .callPoints
  · exact hI.callPoints k a hstep hok
  obtain ⟨hlogic, -, -⟩ := handle_schedule r k a
  obtain ⟨hpoints, hmax⟩ := (handle_untouched r k a).call hstep
  apply hI.frame (calls_operation_of_not k fun ha => hstep ha.1) hpoints hmax
  · rintro ⟨hs | hs, hgrab, hsend⟩
    · rw [hlogic] at hs
      have heq : (handle r k a).room = r :=
        handle_of_other r k a hstep (by simp [hs]) (by simp [hs]) (by simp [hs])
      rw [heq] at hgrab hsend ⊢
      exact ⟨⟨.inl hs, hgrab, hsend⟩, rfl, rfl⟩
    · exact absurd (hlogic ▸ hs) hstep
  · intro hs
    exact absurd (hlogic ▸ hs) hstep
  · rw [hlogic]
    rintro (⟨hs, -⟩ | hl)
    · exact absurd hs hstep
    · exact .inr hl

/-- Only sending the cards touches the fields of the call phase. -/
lemma onStepSwitch_callFields (r : Room) (k : Tick) {step : LogicStep} (hstep : step ≠ .sendCards) :
    (onStepSwitch r k step).callPoints = r.callPoints ∧
      (onStepSwitch r k step).maxCallPointsPos = r.maxCallPointsPos ∧
      (onStepSwitch r k step).callPointsPos = r.callPointsPos ∧
      (onStepSwitch r k step).firstCallPointsPos = r.firstCallPointsPos := by
  cases step with
  | sendCards => exact absurd rfl hstep
  | _ => exact ⟨rfl, rfl, rfl, rfl⟩

/-- Sending the cards starts a new lap. -/
lemma callInv_sendCards (r : Room) (h : History) (k : Tick) (hlogic : r.logicStep = .sendCards) :
    CallInv (onStepSwitch r k .sendCards) (h.switch .sendCards) := by
  have hlogic' : (onStepSwitch r k .sendCards).logicStep = .sendCards := hlogic
  refine ⟨List.nodup_nil, List.Pairwise.nil, by simp [bids, History.switch], rfl,
    by simp [bids, History.switch], by simp [bids, History.switch], by simp [History.switch],
    ?_, ?_, ?_⟩
  · intro _
    exact ⟨by simp [History.switch], rfl, by simp [onStepSwitch, onStepSendCards,
      startStepCallPoints, logicStartStep, History.switch]⟩
  · intro hs
    exact absurd hs (by simp [hlogic'])
  · intro hl
    exact absurd hl (by simp [hlogic'])

/-- The switch to the scheduled step keeps the invariant. -/
lemma CallInv.onStepSwitch {r : Room} {h : History} (hI : CallInv r h) (hord : InOrder r)
    (k : Tick) {step : LogicStep} {time : ℕ} (hnext : r.next = some (step, time)) :
    CallInv (onStepSwitch { logicStopStep r with logicStep := step } k step) (h.switch step) := by
  have hfollows := hord.next _ hnext
  have hsched : scheduled r = some step := by simp [scheduled, hnext]
  by_cases hsend : step = .sendCards
  · subst hsend
    exact callInv_sendCards _ h k rfl
  have hlogic := onStepSwitch_logicStep r k step
  obtain ⟨hpoints, hmax, hpos, hfirst⟩ :=
    onStepSwitch_callFields { logicStopStep r with logicStep := step } k hsend
  have hcalls : (h.switch step).calls = h.calls := by rw [h.switch_of_ne hsend]
  have hnone : step = .callPoints → scheduled
      (Ddz3.onStepSwitch { logicStopStep r with logicStep := step } k step) = none := by
    rintro rfl
    rfl
  refine hI.frame hcalls hpoints hmax ?_ ?_ ?_
  · rintro ⟨hs, -⟩
    rw [hlogic] at hs
    obtain rfl : step = .callPoints := hs.resolve_left hsend
    refine ⟨⟨?_, by simp [hsched], by simp [hsched]⟩, hpos, hfirst⟩
    revert hfollows
    cases r.logicStep <;> simp [follows]
  · intro hs hn
    rw [hnone (hlogic ▸ hs)] at hn
    exact absurd hn (by simp)
  · rw [hlogic, hsched]
    rintro (⟨hs, hn⟩ | hl)
    · rw [hnone hs] at hn
      exact absurd hn (by simp)
    · revert hfollows hl
      cases r.logicStep <;> cases step <;> simp [follows]

/-- The invariant of the call phase is kept by orderly operations and every other event. -/
lemma callInv_kept : KeptInOrder CallInv Orderly where
  start := by
    intro r h k hord hI hplaying
    have hstep := (hord.waiting hplaying).1
    have hcall : r.logicStep ≠ .callPoints := by
      obtain hstep | hstep := hstep <;> simp [hstep]
    refine hI.frame rfl rfl rfl ?_ ?_ ?_
    · rintro ⟨hs | hs, -⟩
      · exact absurd (show r.logicStep = .sendCards from hs)
          (by obtain hstep | hstep := hstep <;> simp [hstep])
      · exact absurd hs hcall
    · exact fun hs => absurd hs hcall
    · rintro (⟨hs, -⟩ | hl)
      · exact absurd hs hcall
      · exact .inr hl
  switch := fun k step time hord hI hnext => hI.onStepSwitch hord k hnext
  operation := fun k a _ hI hok => hI.operation k a hok
  stopTimeout := fun hI =>
    hI.frame rfl rfl rfl (fun hc => ⟨hc, rfl, rfl⟩) (fun hs hn => ⟨hs, hn⟩) id
  startOutCard := by
    intro r h k hI hdouble
    refine hI.frame rfl rfl rfl ?_ ?_ ?_
    · rintro ⟨hs, -⟩
      exact absurd (show r.logicStep = .sendCards ∨ r.logicStep = .callPoints from hs)
        (by simp [hdouble])
    · intro hs
      exact absurd (show r.logicStep = .callPoints from hs) (by simp [hdouble])
    · exact fun _ => .inr (.inr (.inr (.inl hdouble)))
  cutBack := fun pos hI =>
    hI.frame rfl rfl rfl (fun hc => ⟨hc, rfl, rfl⟩) (fun hs hn => ⟨hs, hn⟩) id

lemma callInv_new : CallInv {} {} := by
  refine ⟨by simp, by simp [bids], by simp [bids], rfl, by simp [bids], by simp [bids], by simp,
    ?_, by simp, by simp⟩
  rintro ⟨hs, -⟩
  exact absurd hs (by simp)

/-- In every run whose operations are orderly, the call phase of every deal is one lap.

**Proof sketch.** While the phase is open the seats that have acted are the first ones from
`firstCallPointsPos` on and the next one is in turn, so a call or pass adds a new seat. A call
raises the points; the third seat's call ends the phase, and its pass ends it only when nobody has
called. Once the phase has ended no operation is accepted until the timer switches. -/
theorem oneLap_of_plays {w : Room × History} (h : Plays Orderly w) : OneLap w.1 w.2 :=
  (callInv_kept.plays callInv_new h).2.oneLap

/-! ### Runs -/

instance (r : Room) (a : Attempt) : Decidable (Orderly r a) := by
  unfold Orderly
  infer_instance

/-- The first seat calls one point, the second passes, the third calls two, and the phase is over
with the third seat as the highest bidder. -/
theorem oneLap_of_calls : ∃ w, Plays Orderly w ∧ OneLap w.1 w.2 ∧
    w.2.calls = [(0, some 1), (1, none), (2, some 2)] ∧ w.1.logicStep = .grabLandLord ∧
    w.1.maxCallPointsPos = 2 := by
  have hexec : ((Runs.exec watchStep (fun w e => Meets Orderly w.1 e) ({}, {}) (asked ++
      [(unshuffled 823, .operation 0 .callPoints (some 1) none), (unshuffled 834, .timer),
        (unshuffled 835, .operation 1 .callPointsPass none none), (unshuffled 846, .timer),
        (unshuffled 847, .operation 2 .callPoints (some 2) none), (unshuffled 858, .timer)])).any
      fun w => w.2.calls == [(0, some 1), (1, none), (2, some 2)] &&
        w.1.logicStep == .grabLandLord && w.1.maxCallPointsPos == 2) = true := by
    decide +kernel
  obtain ⟨w, hrun, hw⟩ := (Option.any_eq_true _ _).mp hexec
  simp only [Bool.and_eq_true, beq_iff_eq] at hw
  have hplays : Plays Orderly w := Runs.reaches_of_exec _ .init hrun
  exact ⟨w, hplays, oneLap_of_plays hplays, hw.1.1, hw.1.2, hw.2⟩

/-- A call of five points is accepted. -/
theorem call_of_five : ∃ w, Plays (fun _ _ => True) w ∧ w.1.callPoints = 5 ∧
    ¬ OneLap w.1 w.2 := by
  have hexec : ((Runs.exec watchStep (fun w e => Meets (fun _ _ => True) w.1 e) ({}, {}) (asked ++
      [(unshuffled 823, .operation 0 .callPoints (some 5) none)])).any
      fun w => w.1.callPoints == 5 && w.2.calls == [(0, some 5)]) = true := by
    decide +kernel
  obtain ⟨w, hrun, hw⟩ := (Option.any_eq_true _ _).mp hexec
  simp only [Bool.and_eq_true, beq_iff_eq] at hw
  refine ⟨w, Runs.reaches_of_exec _ .init hrun, hw.1, ?_⟩
  intro hlap
  have := (hlap.range 5 (by simp [bids, hw.2])).2
  omega

end Ddz3
