import JsmjServer.Ddz3.Room
import Mathlib.Tactic

set_option relaxedAutoImplicit false
set_option autoImplicit false

/-!
# Runs of the landlord room with their history

An operation reaches the room by a client message or by the timeout of the seat whose turn it is.
The module names the operation an event leads to, keeps the accepted operations of the current
deal beside the room, and gives the rule by which an invariant is proved of every run.

## Main definitions

* `Ddz3.handled` — the operation an event leads to, and the room that handles it.
* `Ddz3.History` — the accepted operations of the current deal.
* `Ddz3.watchStep` — the room together with its history.
* `Ddz3.Plays` — the states reached by runs whose operations all meet a condition.

## Main results

* `Ddz3.Kept.plays` — the rule for invariants.
* `Ddz3.exists_plays_of_reaches` — every run of the room has its history.
* `Ddz3.callPoints_cases`, `Ddz3.grabLandLord_cases`, `Ddz3.outCard_cases` — what an operation can
  do.
-/

namespace Ddz3

/-! ### The operation an event leads to -/

/-- An operation with the seat it comes from. -/
structure Attempt where
  pos : Seat
  op : Operation
  param : Option ℤ
  cards : Option (List ℤ)

/-- The room after an operation. -/
def handle (r : Room) (k : Tick) (a : Attempt) : Outcome :=
  onPlayerOperation r k a.pos a.op a.param a.cards

/-- The cards of the last entry of the play list; no cards for an empty list. -/
def lastCards (r : Room) : List ℤ := (r.outCards.getLast?.map OutCardInfo.cards).getD []

/-- The operation of the timeout in each step. -/
def timeoutAttempt (r : Room) : Option Attempt :=
  match r.logicStep with
  | .callPoints => some ⟨r.callPointsPos, .callPointsPass, none, none⟩
  | .grabLandLord => some ⟨r.grabLandLordPos, .grabLandLordPass, none, none⟩
  | .outCard =>
    if (lastCards r).length = 0 then
      (r.hands r.outCardPos).getLast?.map fun card => ⟨r.outCardPos, .outCard, none, some [card]⟩
    else some ⟨r.outCardPos, .outCardPass, none, none⟩
  | _ => none

/-- The operation timeout is over. -/
def TimeoutDue (r : Room) (k : Tick) : Prop := ∃ time, r.operationTimeoutTime = some time ∧
  k.now > time

instance (r : Room) (k : Tick) : Decidable (TimeoutDue r k) :=
  match h : r.operationTimeoutTime with
  | none => isFalse (by simp [TimeoutDue, h])
  | some time => decidable_of_iff (k.now > time) (by simp [TimeoutDue, h])

/-- The operation an event leads to, and the room that handles it. -/
def handled (r : Room) (e : Tick × Event) : Option (Room × Attempt) :=
  match e.2 with
  | .operation pos op param cards => some (r, ⟨pos, op, param, cards⟩)
  | .timer =>
    let r := switchLogicStep r e.1
    if TimeoutDue r e.1 then (timeoutAttempt r).map fun a => (r, a) else none
  | _ => none

/-! ### The history of a deal -/

/-- The room accepts an operation of the call phase. -/
def CallAccepted (r : Room) (a : Attempt) : Prop :=
  r.logicStep = .callPoints ∧ a.pos = r.callPointsPos ∧
    (a.op = .callPoints ∧ (a.param.any fun points => points > r.callPoints) ∨
      a.op = .callPointsPass)

/-- The room accepts an operation of the grab phase. -/
def GrabAccepted (r : Room) (a : Attempt) : Prop :=
  r.logicStep = .grabLandLord ∧ a.pos = r.grabLandLordPos ∧
    (a.op = .grabLandLord ∨ a.op = .grabLandLordPass)

instance (r : Room) (a : Attempt) : Decidable (CallAccepted r a) := by
  unfold CallAccepted
  infer_instance

instance (r : Room) (a : Attempt) : Decidable (GrabAccepted r a) := by
  unfold GrabAccepted
  infer_instance

/-- The number of deals, and the accepted operations since the cards were last sent: calls with
their points, passes without; grabs and passes; plays with their cards, passes without. Last, how
often the game was ended in this deal. -/
structure History where
  deals : ℕ := 0
  calls : List (Seat × Option ℤ) := []
  grabs : List (Seat × Bool) := []
  moves : List (Seat × Option (List ℤ)) := []
  ends : ℕ := 0

/-- Sending the cards starts a new deal. -/
def History.switch (h : History) : LogicStep → History
  | .sendCards => { deals := h.deals + 1 }
  | .stepEnd => { h with ends := h.ends + 1 }
  | _ => h

lemma History.switch_of_ne (h : History) {step : LogicStep} (hsend : step ≠ .sendCards) :
    h.switch step = { h with ends := (h.switch step).ends } := by
  cases step with
  | sendCards => exact absurd rfl hsend
  | _ => rfl

/-- The history after an operation. A play is accepted when the play list grows, a pass in the
play phase when the turn moves on. -/
def History.operation (h : History) (r : Room) (k : Tick) (a : Attempt) : History :=
  { h with
    calls := if CallAccepted r a then
        h.calls ++ [(a.pos, if a.op = .callPoints then a.param else none)]
      else h.calls
    grabs := if GrabAccepted r a then h.grabs ++ [(a.pos, decide (a.op = .grabLandLord))] else h.grabs
    moves :=
      if r.logicStep = .outCard ∧ a.op = .outCard ∧ (handle r k a).room.outCards ≠ r.outCards then
        h.moves ++ [(a.pos, a.cards)]
      else if r.logicStep = .outCard ∧ a.op = .outCardPass ∧
          (handle r k a).room.outCardPos ≠ r.outCardPos then
        h.moves ++ [(a.pos, none)]
      else h.moves }

/-- The history after the first half of a timer event. -/
def History.afterSwitch (h : History) (r : Room) (k : Tick) : History :=
  match r.next with
  | none => h
  | some (step, time) => if k.now > time then h.switch step else h

/-- The room together with its history. -/
def watchStep (w : Room × History) (e : Tick × Event) : Option (Room × History) :=
  match e.2 with
  | .start => if w.1.isPlaying then none else some (gameStart w.1 e.1, w.2)
  | .timer =>
    let h := w.2.afterSwitch w.1 e.1
    some ((onGameTimer w.1 e.1).room,
      match handled w.1 e with
      | some (r, a) => h.operation r e.1 a
      | none => h)
  | .operation pos op param cards =>
    some ((onPlayerOperation w.1 e.1 pos op param cards).room,
      w.2.operation w.1 e.1 ⟨pos, op, param, cards⟩)
  | .cutBack pos => some (onUserCutBack w.1 pos, w.2)

/-- The history does not act on the room. -/
lemma watchStep_fst (w : Room × History) (e : Tick × Event) :
    (watchStep w e).map Prod.fst = step w.1 e := by
  obtain ⟨k, e⟩ := e
  cases e with
  | start =>
    simp only [watchStep, step]
    split_ifs <;> rfl
  | timer => rfl
  | operation pos op param cards => rfl
  | cutBack pos => rfl

/-- Every operation an event leads to meets a condition on the room and the operation. -/
def Meets (ok : Room → Attempt → Prop) (r : Room) (e : Tick × Event) : Prop :=
  ∀ r₁ a, handled r e = some (r₁, a) → ok r₁ a

lemma meets_iff (ok : Room → Attempt → Prop) (r : Room) (e : Tick × Event) :
    Meets ok r e ↔ ∀ p ∈ handled r e, ok p.1 p.2 := by
  constructor
  · rintro h ⟨r₁, a⟩ hp
    exact h r₁ a hp
  · intro h r₁ a hp
    exact h (r₁, a) hp

instance (ok : Room → Attempt → Prop) [∀ r a, Decidable (ok r a)] (r : Room)
    (e : Tick × Event) : Decidable (Meets ok r e) :=
  decidable_of_iff (∀ p ∈ handled r e, ok p.1 p.2) (meets_iff ok r e).symm

/-- The states reached from the new room by runs whose operations all meet a condition. -/
def Plays (ok : Room → Attempt → Prop) (w : Room × History) : Prop :=
  Runs.Reaches watchStep (fun w e => Meets ok w.1 e) ({}, {}) w

/-- Every run of the room has its history. -/
lemma exists_plays_of_reaches {ok : Room → Attempt → Prop} {r : Room}
    (h : Runs.Reaches step (Meets ok) {} r) : ∃ hist, Plays ok (r, hist) := by
  induction h with
  | init => exact ⟨{}, .init⟩
  | @step r r' e _ hok hs ih =>
    obtain ⟨hist, hplays⟩ := ih
    rw [show r = (r, hist).1 from rfl, ← watchStep_fst, Option.map_eq_some_iff] at hs
    obtain ⟨w, hw, rfl⟩ := hs
    exact ⟨w.2, hplays.step hok hw⟩

/-! ### The rule for invariants -/

/-- What an invariant of the room and its history has to be kept by. -/
structure Kept (I : Room → History → Prop) (ok : Room → Attempt → Prop) : Prop where
  start : ∀ {r h} k, I r h → r.isPlaying = false → I (gameStart r k) h
  switch : ∀ {r h} k step time, I r h → r.next = some (step, time) →
    I (onStepSwitch { logicStopStep r with logicStep := step } k step) (h.switch step)
  operation : ∀ {r h} k a, I r h → ok r a → I (handle r k a).room (h.operation r k a)
  stopTimeout : ∀ {r h}, I r h → I (logicStopTimeout r) h
  startOutCard : ∀ {r h} k, I r h → r.logicStep = .doubleScore → I (startStepOutCard r k) h
  cutBack : ∀ {r h} pos, I r h → I (onUserCutBack r pos) h

/-- The timeout is the operation of the seat in turn, or starts the play after the doubling. An
error in it leaves the timeout running. -/
lemma onOperationTimeout_cases (r : Room) (k : Tick) :
    (∃ a, timeoutAttempt r = some a ∧
      ((onOperationTimeout r k).room = (handle r k a).room ∨
        (onOperationTimeout r k).room = logicStopTimeout (handle r k a).room)) ∨
    timeoutAttempt r = none ∧
      ((onOperationTimeout r k).room = r ∨ (onOperationTimeout r k).room = logicStopTimeout r ∨
        r.logicStep = .doubleScore ∧
          (onOperationTimeout r k).room = logicStopTimeout (startStepOutCard r k)) := by
  have hmap : ∀ o : Outcome, Outcome.room (o.map logicStopTimeout) = o.room ∨
      Outcome.room (o.map logicStopTimeout) = logicStopTimeout o.room := by
    intro o
    cases o with
    | error r => exact .inl rfl
    | ok r => exact .inr rfl
  cases hstep : r.logicStep with
  | callPoints =>
    refine .inl ⟨_, by simp only [timeoutAttempt, hstep]; rfl, ?_⟩
    simp only [onOperationTimeout, hstep]
    exact hmap _
  | grabLandLord =>
    refine .inl ⟨_, by simp only [timeoutAttempt, hstep]; rfl, ?_⟩
    simp only [onOperationTimeout, hstep]
    exact hmap _
  | outCard =>
    simp only [timeoutAttempt, onOperationTimeout, onTimeoutOutCard, hstep, lastCards]
    by_cases hlast : ((r.outCards.getLast?.map OutCardInfo.cards).getD []).length = 0
    · simp only [hlast, if_true]
      cases hcard : (r.hands r.outCardPos).getLast? with
      | none => exact .inr ⟨rfl, .inl rfl⟩
      | some card => exact .inl ⟨_, rfl, hmap _⟩
    · simp only [hlast, if_false]
      exact .inl ⟨_, rfl, hmap _⟩
  | doubleScore =>
    refine .inr ⟨by simp only [timeoutAttempt, hstep], .inr (.inr ⟨rfl, ?_⟩)⟩
    simp only [onOperationTimeout, hstep]
    rfl
  | idle =>
    refine .inr ⟨by simp only [timeoutAttempt, hstep], .inr (.inl ?_)⟩
    simp only [onOperationTimeout, hstep]
    rfl
  | sendCards =>
    refine .inr ⟨by simp only [timeoutAttempt, hstep], .inr (.inl ?_)⟩
    simp only [onOperationTimeout, hstep]
    rfl
  | sendBaseCards =>
    refine .inr ⟨by simp only [timeoutAttempt, hstep], .inr (.inl ?_)⟩
    simp only [onOperationTimeout, hstep]
    rfl
  | stepEnd =>
    refine .inr ⟨by simp only [timeoutAttempt, hstep], .inr (.inl ?_)⟩
    simp only [onOperationTimeout, hstep]
    rfl

section Rule

variable {I : Room → History → Prop} {ok : Room → Attempt → Prop}

lemma Kept.afterSwitch (hI : Kept I ok) {r : Room} {h : History} (k : Tick) (hr : I r h) :
    I (switchLogicStep r k) (h.afterSwitch r k) := by
  simp only [switchLogicStep, History.afterSwitch]
  cases hnext : r.next with
  | none => exact hr
  | some p =>
    obtain ⟨step, time⟩ := p
    simp only
    split_ifs
    · exact hI.switch k step time hr hnext
    · exact hr

/-- One event keeps the invariant. -/
lemma Kept.watchStep (hI : Kept I ok) {w w' : Room × History} {e : Tick × Event} (hw : I w.1 w.2)
    (hok : Meets ok w.1 e) (hs : Ddz3.watchStep w e = some w') : I w'.1 w'.2 := by
  obtain ⟨r, h⟩ := w
  obtain ⟨k, e⟩ := e
  cases e with
  | start =>
    simp only [Ddz3.watchStep] at hs
    split_ifs at hs with hplaying
    obtain rfl := Option.some.inj hs
    exact hI.start k hw (Bool.eq_false_iff.mpr hplaying)
  | operation pos op param cards =>
    obtain rfl := Option.some.inj hs
    exact hI.operation k _ hw (hok _ _ rfl)
  | cutBack pos =>
    obtain rfl := Option.some.inj hs
    exact hI.cutBack pos hw
  | timer =>
    obtain rfl := Option.some.inj hs
    have hswitch := hI.afterSwitch k hw
    by_cases hdue : TimeoutDue (switchLogicStep r k) k
    · have htimer : (onGameTimer r k).room =
          (onOperationTimeout (switchLogicStep r k) k).room := by
        obtain ⟨time, htime, hnow⟩ := hdue
        simp only [onGameTimer, checkOperationTimeout, htime, hnow, if_true]
      simp only [htimer]
      obtain ⟨a, ha, hroom⟩ | ⟨ha, hroom⟩ := onOperationTimeout_cases (switchLogicStep r k) k
      · have hhandled : handled r (k, .timer) = some (switchLogicStep r k, a) := by
          simp [handled, hdue, ha]
        have hop := hI.operation k a hswitch (hok _ _ hhandled)
        simp only [hhandled]
        obtain hroom | hroom := hroom
        · rw [hroom]
          exact hop
        · rw [hroom]
          exact hI.stopTimeout hop
      · have hhandled : handled r (k, .timer) = none := by simp [handled, hdue, ha]
        simp only [hhandled]
        obtain hroom | hroom | ⟨hdouble, hroom⟩ := hroom
        · rw [hroom]
          exact hswitch
        · rw [hroom]
          exact hI.stopTimeout hswitch
        · rw [hroom]
          exact hI.stopTimeout (hI.startOutCard k hswitch hdouble)
    · have htimer : (onGameTimer r k).room = switchLogicStep r k := by
        simp only [onGameTimer, checkOperationTimeout]
        cases htime : (switchLogicStep r k).operationTimeoutTime with
        | none => rfl
        | some time =>
          have hnow : ¬ k.now > time := fun hnow => hdue ⟨time, htime, hnow⟩
          simp only [hnow, if_false]
          rfl
      have hhandled : handled r (k, .timer) = none := by simp [handled, hdue]
      simp only [htimer, hhandled]
      exact hswitch

/-- What the new room satisfies and every event keeps holds in every state of a run. -/
lemma Kept.plays (hI : Kept I ok) (h₀ : I {} {}) {w : Room × History} (h : Plays ok w) :
    I w.1 w.2 := by
  apply Runs.Reaches.invariant (I := fun w => I w.1 w.2) h h₀
  intro w e w' hw hok hs
  exact hI.watchStep hw hok hs

end Rule

/-! ### What an operation can do -/

/-- What an operation does in the call phase. -/
lemma callPoints_cases (r : Room) (k : Tick) (a : Attempt) (hstep : r.logicStep = .callPoints) :
    (¬ CallAccepted r a ∧ (handle r k a).room = r) ∨
    (a.pos = r.callPointsPos ∧ a.op = .callPoints ∧ ∃ points, a.param = some points ∧
      points > r.callPoints ∧
      ((points = 3 ∨ getNextPosition a.pos = r.firstCallPointsPos) ∧
        (handle r k a).room = logicStopTimeout (startStepGrabLandLord
          { r with callPoints := points, maxCallPointsPos := a.pos } k) ∨
      points ≠ 3 ∧ getNextPosition a.pos ≠ r.firstCallPointsPos ∧
        (handle r k a).room = logicStopTimeout (logicStartStep
          { r with callPoints := points, maxCallPointsPos := a.pos,
                   callPointsPos := getNextPosition a.pos } k .callPoints stepInterval))) ∨
    (a.pos = r.callPointsPos ∧ a.op = .callPointsPass ∧
      (r.callPoints = 0 ∧ getNextPosition a.pos = r.firstCallPointsPos ∧
        (handle r k a).room = logicStopTimeout (startStepSendCards r k) ∨
      ¬ (r.callPoints = 0 ∧ getNextPosition a.pos = r.firstCallPointsPos) ∧
        (handle r k a).room = logicStopTimeout (logicStartStep
          { r with callPointsPos := getNextPosition a.pos } k .callPoints stepInterval))) := by
  obtain ⟨pos, op, param, cards⟩ := a
  simp only [handle, onPlayerOperation, hstep, onPlayerOperationStepCallPoints, CallAccepted,
    true_and]
  by_cases hpos : pos = r.callPointsPos
  swap
  · exact .inl ⟨fun h => hpos h.1, by simp only [ne_eq, hpos, not_false_eq_true, if_true]; rfl⟩
  simp only [ne_eq, hpos, not_true_eq_false, if_false, true_and]
  by_cases hcall : op = .callPoints
  · subst hcall
    simp only [if_true, true_and, reduceCtorEq, or_false, false_and]
    cases param with
    | none => exact .inl ⟨by simp, rfl⟩
    | some points =>
      by_cases hpoints : points > r.callPoints
      swap
      · refine .inl ⟨by simpa using hpoints, ?_⟩
        simp only [hpoints, if_false]
        rfl
      refine .inr ⟨points, rfl, hpoints, ?_⟩
      simp only [hpoints, if_true]
      by_cases h3 : points = 3
      · subst h3
        exact .inl ⟨.inl rfl, rfl⟩
      by_cases hnext : getNextPosition r.callPointsPos = r.firstCallPointsPos
      · refine .inl ⟨.inr hnext, ?_⟩
        simp only [h3, hnext, if_true, if_false]
        rfl
      · refine .inr ⟨h3, hnext, ?_⟩
        simp only [h3, hnext, if_false]
        rfl
  by_cases hpass : op = .callPointsPass
  · subst hpass
    refine .inr (.inr ⟨rfl, ?_⟩)
    by_cases hredeal : r.callPoints = 0 ∧ getNextPosition r.callPointsPos = r.firstCallPointsPos
    · refine .inl ⟨hredeal.1, hredeal.2, ?_⟩
      simp only [reduceCtorEq, if_false, if_true, hredeal, and_self]
      rfl
    · refine .inr ⟨hredeal, ?_⟩
      simp only [reduceCtorEq, if_false, if_true, hredeal]
      rfl
  · refine .inl ⟨by simp [hcall, hpass], ?_⟩
    simp only [hcall, hpass, if_false]
    rfl

/-- What an operation does in the grab phase. -/
lemma grabLandLord_cases (r : Room) (k : Tick) (a : Attempt)
    (hstep : r.logicStep = .grabLandLord) :
    (¬ GrabAccepted r a ∧ (handle r k a).room = r) ∨
    (GrabAccepted r a ∧ a.op = .grabLandLord ∧ handle r k a =
      grabNext { r with landLordPos := a.pos,
                        grabLandLordScoreMulti := r.grabLandLordScoreMulti * 2 } k
        (nextGrabPos a.pos k 3 { r with
          landLordPos := a.pos
          grabLandLordScoreMulti := r.grabLandLordScoreMulti * 2 } a.pos)) ∨
    (GrabAccepted r a ∧ a.op = .grabLandLordPass ∧ handle r k a =
      grabNext { r with cannotGrabPos := r.cannotGrabPos ++ [a.pos] } k
        (nextGrabPos r.landLordPos k 3
          { r with cannotGrabPos := r.cannotGrabPos ++ [a.pos] } a.pos)) := by
  obtain ⟨pos, op, param, cards⟩ := a
  simp only [handle, onPlayerOperation, hstep, onPlayerOperationGrabLandLord, GrabAccepted,
    true_and]
  by_cases hpos : pos = r.grabLandLordPos
  swap
  · exact .inl ⟨fun h => hpos h.1, by simp only [ne_eq, hpos, not_false_eq_true, if_true]; rfl⟩
  simp only [ne_eq, hpos, not_true_eq_false, if_false, true_and]
  by_cases hgrab : op = .grabLandLord
  · subst hgrab
    exact .inr (.inl ⟨.inl rfl, rfl, by simp⟩)
  by_cases hpass : op = .grabLandLordPass
  · subst hpass
    exact .inr (.inr ⟨.inr rfl, rfl, by simp⟩)
  · refine .inl ⟨by simp [hgrab, hpass], ?_⟩
    simp only [hgrab, hpass, if_false]
    rfl

/-- The loop of the grab phase ends at `stop` at the latest. -/
lemma nextGrabPos_of_lt (stop : Seat) (k : Tick) (n : ℕ) (r : Room) (pos : Seat)
    (hn : (stop - getNextPosition pos).val < n) :
    ∃ found, ∀ fuel, nextGrabPos stop k (fuel + n) r pos = some found := by
  induction n generalizing r pos with
  | zero => omega
  | succ n ih =>
    have hcloser : getNextPosition pos ≠ stop →
        (stop - getNextPosition (getNextPosition pos)).val < n := by
      have : ∀ s p : Seat, p + 1 ≠ s → (s - (p + 1 + 1)).val + 1 = (s - (p + 1)).val := by decide
      intro hne
      have := this stop pos hne
      simp only [getNextPosition] at hn ⊢
      omega
    simp only [nextGrabPos]
    split_ifs with hlimit hstop
    · exact ⟨_, fun _ => rfl⟩
    · exact ⟨_, fun _ => rfl⟩
    · exact ih _ _ (hcloser fun h => hstop (.inr h))

/-- Both loops of the grab phase end within three turns. -/
lemma nextGrabPos_terminates (stop : Seat) (k : Tick) (r : Room) (pos : Seat) :
    ∃ found, ∀ fuel, nextGrabPos stop k (fuel + 3) r pos = some found :=
  nextGrabPos_of_lt stop k 3 r pos (stop - getNextPosition pos).isLt

/-- How many seats a position is behind the bidder, round the table. -/
def offset (r : Room) (pos : Seat) : ℕ := (pos - r.maxCallPointsPos).val

/-- One turn of the loop goes one seat further in the count of rounds and seats. -/
lemma grabLandLordLimit_cases (r : Room) (k : Tick) (pos : Seat) :
    ((grabLandLordLimit r k (getNextPosition pos)).2 = true ∧
      ∃ c, (grabLandLordLimit r k (getNextPosition pos)).1 =
        logicStartStep { r with grabLandLordCounts := c } k .sendBaseCards stepInterval) ∨
    ((grabLandLordLimit r k (getNextPosition pos)).2 = false ∧
      ∃ c, (grabLandLordLimit r k (getNextPosition pos)).1 = { r with grabLandLordCounts := c } ∧
        (r.grabLandLordCounts < grabLandLordUpLimit → c < grabLandLordUpLimit) ∧
        3 * c + offset r (getNextPosition pos) = 3 * r.grabLandLordCounts + offset r pos + 1) := by
  have hoffset : ∀ b p : Seat, b ≠ p + 1 → (p + 1 - b).val = (p - b).val + 1 := by decide
  have hround : ∀ b p : Seat, b = p + 1 → (p + 1 - b).val = 0 ∧ (p - b).val = 2 := by decide
  by_cases hb : r.maxCallPointsPos = getNextPosition pos
  · obtain ⟨hzero, htwo⟩ := hround _ _ hb
    by_cases hlimit : r.grabLandLordCounts + 1 ≥ grabLandLordUpLimit
    · have heq : grabLandLordLimit r k (getNextPosition pos) = (logicStartStep
          { r with grabLandLordCounts := r.grabLandLordCounts + 1 } k .sendBaseCards stepInterval,
          true) := by
        simp only [grabLandLordLimit, hb, hlimit, if_true]
      rw [heq]
      exact .inl ⟨rfl, _, rfl⟩
    · have heq : grabLandLordLimit r k (getNextPosition pos) =
          ({ r with grabLandLordCounts := r.grabLandLordCounts + 1 }, false) := by
        simp only [grabLandLordLimit, hb, hlimit, if_true, if_false]
      rw [heq]
      refine .inr ⟨rfl, _, rfl, fun _ => by omega, ?_⟩
      simp only [offset, getNextPosition]
      omega
  · have heq : grabLandLordLimit r k (getNextPosition pos) = (r, false) := by
      simp only [grabLandLordLimit, hb, if_false]
    rw [heq]
    refine .inr ⟨rfl, r.grabLandLordCounts, rfl, id, ?_⟩
    have := hoffset _ _ hb
    simp only [offset, getNextPosition]
    omega

/-- What the loop of the grab phase returns: it reaches the limit and schedules the base cards, or
it finds a seat further on that has not passed, or `stop`. -/
lemma nextGrabPos_cases {stop : Seat} {k : Tick} {fuel : ℕ} {r r' : Room} {pos : Seat}
    {found : Option Seat} (h : nextGrabPos stop k fuel r pos = some (r', found)) :
    (found = none ∧ ∃ c,
      r' = logicStartStep { r with grabLandLordCounts := c } k .sendBaseCards stepInterval) ∨
    (∃ q c, found = some q ∧ r' = { r with grabLandLordCounts := c } ∧
      (q ∉ r.cannotGrabPos ∨ q = stop) ∧
      (r.grabLandLordCounts < grabLandLordUpLimit → c < grabLandLordUpLimit) ∧
      3 * r.grabLandLordCounts + offset r pos < 3 * c + offset r q) := by
  induction fuel generalizing r pos with
  | zero => simp [nextGrabPos] at h
  | succ fuel ih =>
    simp only [nextGrabPos] at h
    obtain ⟨hlimit, c, hroom⟩ | ⟨hlimit, c, hroom, hc, hcount⟩ := grabLandLordLimit_cases r k pos
    · simp only [hlimit, if_true, Option.some.injEq, Prod.mk.injEq] at h
      obtain ⟨rfl, rfl⟩ := h
      exact .inl ⟨rfl, c, hroom⟩
    · rw [hroom] at h
      simp only [hlimit, if_false, Bool.false_eq_true] at h
      split_ifs at h with hstop
      · obtain ⟨rfl, rfl⟩ := Prod.mk.inj (Option.some.inj h)
        exact .inr ⟨_, c, rfl, rfl, hstop, hc, by omega⟩
      · obtain ⟨hfound, c', hroom'⟩ | ⟨q, c', hfound, hroom', hq, hc', hcount'⟩ := ih h
        · exact .inl ⟨hfound, c', hroom'⟩
        · refine .inr ⟨q, c', hfound, hroom', hq, fun hr => hc' (hc hr), ?_⟩
          simp only [offset] at hcount hcount' ⊢
          omega

/-- What an operation does when the score is doubled. -/
lemma doubleScore_cases (r : Room) (k : Tick) (a : Attempt) (hstep : r.logicStep = .doubleScore) :
    (handle r k a).room = r ∨ a.op = .doubleScore ∧
      (handle r k a).room = { r with doubleScoreMulti := r.doubleScoreMulti * 2 } := by
  simp only [handle, onPlayerOperation, hstep, onPlayerOperationDoubleScore]
  split_ifs with hop
  · exact .inr ⟨hop, rfl⟩
  · exact .inl rfl

/-- Only plays of a type are compared. -/
lemma getMaxPockerType_bFind {cardsA cardsB : RetResult}
    (h : (getMaxPockerType cardsA cardsB).1 = true) : cardsA.bFind = true := by
  by_contra hA
  have hA' : cardsA.bFind = false := Bool.eq_false_iff.mpr hA
  simp [getMaxPockerType, hA'] at h

/-- The room after a pass in the play phase. -/
def passTurn (r : Room) (k : Tick) (pos : Seat) (last : OutCardInfo) : Room :=
  let r : Room := if last.pos = some (getNextPosition pos) then
      { r with outCards := r.outCards ++ [{ cards := [], pos := none }] }
    else r
  logicStopTimeout
    (logicStartStep { r with outCardPos := getNextPosition pos } k .outCard stepInterval)

/-- What an operation does in the play phase: nothing but count the message, or a play with cards
of the hand that are of a type and beat the play of the trick, or a pass. -/
lemma outCard_cases (r : Room) (k : Tick) (a : Attempt) (hstep : r.logicStep = .outCard) :
    (handle r k a).room = incOperationSeq r ∨
    (∃ cards tp, a.pos = r.outCardPos ∧ a.op = .outCard ∧ a.cards = some cards ∧ cards ≠ [] ∧
      hasCards (r.hands a.pos) cards = true ∧
      matchPockerType (tanslateCardsToValues cards) = some tp ∧ tp.bFind = true ∧
      (lastCards r ≠ [] → ∃ tpB, matchPockerType (tanslateCardsToValues (lastCards r)) = some tpB ∧
        (getMaxPockerType tp tpB).1 = true ∧ 0 < (getMaxPockerType tp tpB).2) ∧
      (handle r k a).room =
        playCards (incOperationSeq r) k a.pos cards (decide (lastCards r = []))) ∨
    (∃ last, a.pos = r.outCardPos ∧ a.op = .outCardPass ∧ r.outCards.getLast? = some last ∧
      last.cards ≠ [] ∧ (handle r k a).room = passTurn (incOperationSeq r) k a.pos last) := by
  obtain ⟨pos, op, param, cards⟩ := a
  simp only [handle, onPlayerOperation, hstep, onPlayerOperationOutCard]
  by_cases hpos : pos = r.outCardPos
  swap
  · refine .inl ?_
    rw [if_pos (by exact hpos)]
    rfl
  rw [if_neg (by exact not_not.mpr hpos)]
  by_cases hplay : op = .outCard
  · rw [if_pos hplay]
    cases cards with
    | none => exact .inl rfl
    | some cards =>
      by_cases hnil : cards.length = 0
      · refine .inl ?_
        simp only [hnil, if_true]
        rfl
      by_cases hhas : hasCards (r.hands pos) cards = true
      swap
      · refine .inl ?_
        simp only [hnil, incOperationSeq, hhas, if_false, if_true, Bool.not_false]
        rfl
      have hne : cards ≠ [] := fun h => hnil (by simp [h])
      have hlast : ((incOperationSeq r).outCards.getLast?.map OutCardInfo.cards).getD [] =
          lastCards r := rfl
      have hhas' : hasCards ((incOperationSeq r).hands pos) cards = true := hhas
      simp only [hlast, hhas', hnil, if_false, Bool.not_true, Bool.false_eq_true]
      by_cases hlead : lastCards r = []
      · simp only [hlead, List.length_nil, if_true]
        cases htp : matchPockerType (tanslateCardsToValues cards) with
        | none => exact .inl rfl
        | some tp =>
          by_cases hfind : tp.bFind = true
          · refine .inr (.inl ⟨cards, tp, hpos, hplay, rfl, hne, hhas, htp, hfind,
              fun h => absurd rfl h, ?_⟩)
            simp only [hfind, Bool.not_true, if_false, decide_true, Bool.false_eq_true]
            rfl
          · refine .inl ?_
            simp only [hfind, Bool.not_false, if_true]
            rfl
      · have hlen : ¬ (lastCards r).length = 0 := by simpa using hlead
        simp only [hlen, if_false]
        cases htp : matchPockerType (tanslateCardsToValues cards) with
        | none => exact .inl rfl
        | some tp =>
          cases htpB : matchPockerType (tanslateCardsToValues (lastCards r)) with
          | none => exact .inl rfl
          | some tpB =>
            by_cases hmore : (getMaxPockerType tp tpB).1 = true
            swap
            · refine .inl ?_
              simp only [hmore, Bool.not_false, if_true]
              rfl
            by_cases hbeats : 0 ≥ (getMaxPockerType tp tpB).2
            · refine .inl ?_
              simp only [hmore, hbeats, Bool.not_true, if_false, if_true, Bool.false_eq_true]
              rfl
            · refine .inr (.inl ⟨cards, tp, hpos, hplay, rfl, hne, hhas, htp,
                getMaxPockerType_bFind hmore, fun _ => ⟨tpB, rfl, hmore, not_le.mp hbeats⟩, ?_⟩)
              simp only [hmore, hbeats, hlead, Bool.not_true, if_false, decide_false,
                Bool.false_eq_true]
              rfl
  rw [if_neg hplay]
  by_cases hpass : op = .outCardPass
  · rw [if_pos hpass]
    cases hlast : r.outCards.getLast? with
    | none =>
      refine .inl ?_
      simp only [incOperationSeq, hlast]
      rfl
    | some last =>
      by_cases hempty : last.cards.length = 0
      · refine .inl ?_
        simp only [incOperationSeq, hlast, hempty, if_true]
        rfl
      · refine .inr (.inr ⟨last, hpos, hpass, rfl, by simpa using hempty, ?_⟩)
        simp only [incOperationSeq, hlast, hempty, if_false]
        rfl
  · rw [if_neg hpass]
    exact .inl rfl

/-- In the other steps an operation does nothing. -/
lemma handle_of_other (r : Room) (k : Tick) (a : Attempt) (hcall : r.logicStep ≠ .callPoints)
    (hgrab : r.logicStep ≠ .grabLandLord) (hdouble : r.logicStep ≠ .doubleScore)
    (hout : r.logicStep ≠ .outCard) : (handle r k a).room = r := by
  simp only [handle, onPlayerOperation]
  rfl

/-! ### The order of the steps -/

/-- The steps that can be scheduled in a step. -/
def follows : LogicStep → LogicStep → Bool
  | .idle, .sendCards => true
  | .sendCards, .callPoints => true
  | .callPoints, .callPoints => true
  | .callPoints, .grabLandLord => true
  | .callPoints, .sendCards => true
  | .grabLandLord, .grabLandLord => true
  | .grabLandLord, .sendBaseCards => true
  | .sendBaseCards, .doubleScore => true
  | .doubleScore, .outCard => true
  | .outCard, .outCard => true
  | .outCard, .stepEnd => true
  | .stepEnd, .sendCards => true
  | _, _ => false

/-- Only steps in order are scheduled, and none while no game is played. -/
structure InOrder (r : Room) : Prop where
  next : ∀ p, r.next = some p → follows r.logicStep p.1 = true
  waiting : r.isPlaying = false → (r.logicStep = .idle ∨ r.logicStep = .stepEnd) ∧ r.next = none

/-- What follows the search for the next seat in the grab phase: the grab phase or the base cards
are scheduled. -/
lemma grabNext_fields (stop : Seat) (k : Tick) (r : Room) (pos : Seat) :
    ∃ step time c g o, (step = .grabLandLord ∨ step = .sendBaseCards) ∧
      (grabNext r k (nextGrabPos stop k 3 r pos)).room =
        { r with next := some (step, time), grabLandLordCounts := c, grabLandLordPos := g,
                 operationTimeoutTime := o } := by
  obtain ⟨⟨r', found⟩, hfound⟩ := nextGrabPos_terminates stop k r pos
  rw [show 3 = 0 + 3 from rfl, hfound 0]
  obtain ⟨rfl, c, rfl⟩ | ⟨q, c, rfl, rfl, -⟩ := nextGrabPos_cases (hfound 0)
  · exact ⟨_, _, _, _, _, .inr rfl, rfl⟩
  · simp only [grabNext]
    split_ifs
    · exact ⟨_, _, _, _, _, .inr rfl, rfl⟩
    · exact ⟨_, _, _, _, _, .inl rfl, rfl⟩

/-- A play schedules the next play or the end, and keeps the step. -/
lemma playCards_next (r : Room) (k : Tick) (pos : Seat) (cards : List ℤ) (leading : Bool) :
    ∃ step time, (playCards r k pos cards leading).next = some (step, time) ∧
      (step = .outCard ∨ step = .stepEnd) := by
  simp only [playCards]
  split_ifs
  · exact ⟨_, _, rfl, .inr rfl⟩
  · exact ⟨_, _, rfl, .inr rfl⟩
  · exact ⟨_, _, rfl, .inl rfl⟩

/-- The fields of the cards after a play. -/
lemma playCards_fields (r : Room) (k : Tick) (pos : Seat) (cards : List ℤ) (leading : Bool) :
    (playCards r k pos cards leading).hands =
        Function.update r.hands pos (removeCards (r.hands pos) cards) ∧
      (playCards r k pos cards leading).outCards =
        r.outCards ++ [{ cards := cards, pos := some pos }] ∧
      (playCards r k pos cards leading).cardPool = r.cardPool ∧
      (playCards r k pos cards leading).logicStep = r.logicStep ∧
      (playCards r k pos cards leading).landLordPos = r.landLordPos ∧
      (playCards r k pos cards leading).isPlaying = r.isPlaying := by
  simp only [playCards]
  split_ifs <;> exact ⟨rfl, rfl, rfl, rfl, rfl, rfl⟩

/-- The fields of a step are touched by its own operations only, except that those of the call phase
also set up the grab phase. -/
structure Untouched (r r' : Room) (a : Attempt) : Prop where
  call : r.logicStep ≠ .callPoints →
    r'.callPoints = r.callPoints ∧ r'.maxCallPointsPos = r.maxCallPointsPos
  grab : r.logicStep ≠ .callPoints → r.logicStep ≠ .grabLandLord →
    r'.grabLandLordPos = r.grabLandLordPos ∧ r'.landLordPos = r.landLordPos ∧
      r'.cannotGrabPos = r.cannotGrabPos ∧
      r'.grabLandLordScoreMulti = r.grabLandLordScoreMulti ∧
      r'.grabLandLordCounts = r.grabLandLordCounts
  double : ¬ (r.logicStep = .doubleScore ∧ a.op = .doubleScore) →
    r'.doubleScoreMulti = r.doubleScoreMulti
  play : r.logicStep ≠ .outCard → r'.outCards = r.outCards

lemma handle_untouched (r : Room) (k : Tick) (a : Attempt) :
    Untouched r (handle r k a).room a := by
  by_cases hcall : r.logicStep = .callPoints
  · obtain ⟨-, heq⟩ | ⟨-, -, points, -, -, ⟨-, heq⟩ | ⟨-, -, heq⟩⟩ |
      ⟨-, -, ⟨-, -, heq⟩ | ⟨-, heq⟩⟩ := callPoints_cases r k a hcall
    all_goals
      rw [heq]
      exact ⟨fun h => absurd hcall h, fun h => absurd hcall h, fun _ => rfl, fun _ => rfl⟩
  by_cases hgrab : r.logicStep = .grabLandLord
  · obtain ⟨-, heq⟩ | ⟨-, -, heq⟩ | ⟨-, -, heq⟩ := grabLandLord_cases r k a hgrab
    · rw [heq]
      exact ⟨fun _ => ⟨rfl, rfl⟩, fun _ h => absurd hgrab h, fun _ => rfl, fun _ => rfl⟩
    · obtain ⟨step, time, c, g, o, -, hroom⟩ := grabNext_fields a.pos k
        { r with landLordPos := a.pos, grabLandLordScoreMulti := r.grabLandLordScoreMulti * 2 }
        a.pos
      rw [heq, hroom]
      exact ⟨fun _ => ⟨rfl, rfl⟩, fun _ h => absurd hgrab h, fun _ => rfl, fun _ => rfl⟩
    · obtain ⟨step, time, c, g, o, -, hroom⟩ := grabNext_fields r.landLordPos k
        { r with cannotGrabPos := r.cannotGrabPos ++ [a.pos] } a.pos
      rw [heq, hroom]
      exact ⟨fun _ => ⟨rfl, rfl⟩, fun _ h => absurd hgrab h, fun _ => rfl, fun _ => rfl⟩
  by_cases hdouble : r.logicStep = .doubleScore
  · obtain heq | ⟨hop, heq⟩ := doubleScore_cases r k a hdouble
    · rw [heq]
      exact ⟨fun _ => ⟨rfl, rfl⟩, fun _ _ => ⟨rfl, rfl, rfl, rfl, rfl⟩, fun _ => rfl, fun _ => rfl⟩
    · rw [heq]
      exact ⟨fun _ => ⟨rfl, rfl⟩, fun _ _ => ⟨rfl, rfl, rfl, rfl, rfl⟩,
        fun h => absurd ⟨hdouble, hop⟩ h, fun _ => rfl⟩
  by_cases hout : r.logicStep = .outCard
  · obtain heq | ⟨cards, tp, -, -, -, -, -, -, -, -, heq⟩ | ⟨last, -, -, -, -, heq⟩ :=
      outCard_cases r k a hout
    · rw [heq]
      exact ⟨fun _ => ⟨rfl, rfl⟩, fun _ _ => ⟨rfl, rfl, rfl, rfl, rfl⟩, fun _ => rfl,
        fun h => absurd hout h⟩
    · rw [heq, playCards]
      split_ifs
      all_goals
        exact ⟨fun _ => ⟨rfl, rfl⟩, fun _ _ => ⟨rfl, rfl, rfl, rfl, rfl⟩, fun _ => rfl,
          fun h => absurd hout h⟩
    · rw [heq, passTurn]
      split_ifs
      all_goals
        exact ⟨fun _ => ⟨rfl, rfl⟩, fun _ _ => ⟨rfl, rfl, rfl, rfl, rfl⟩, fun _ => rfl,
          fun h => absurd hout h⟩
  · rw [handle_of_other r k a hcall hgrab hdouble hout]
    exact ⟨fun _ => ⟨rfl, rfl⟩, fun _ _ => ⟨rfl, rfl, rfl, rfl, rfl⟩, fun _ => rfl, fun _ => rfl⟩

/-- What an operation does to the schedule: nothing, or it schedules a step in order. -/
lemma handle_schedule (r : Room) (k : Tick) (a : Attempt) :
    (handle r k a).room.logicStep = r.logicStep ∧
      (handle r k a).room.isPlaying = r.isPlaying ∧
      ((handle r k a).room.next = r.next ∨ ∃ step time,
        (handle r k a).room.next = some (step, time) ∧ follows r.logicStep step = true ∧
          r.logicStep ≠ .idle ∧ r.logicStep ≠ .stepEnd) := by
  by_cases hcall : r.logicStep = .callPoints
  · obtain ⟨-, heq⟩ | ⟨-, -, points, -, -, ⟨-, heq⟩ | ⟨-, -, heq⟩⟩ |
      ⟨-, -, ⟨-, -, heq⟩ | ⟨-, heq⟩⟩ := callPoints_cases r k a hcall
    · rw [heq]
      exact ⟨rfl, rfl, .inl rfl⟩
    all_goals
      rw [heq]
      exact ⟨rfl, rfl, .inr ⟨_, _, rfl, by rw [hcall]; rfl, by simp [hcall], by simp [hcall]⟩⟩
  by_cases hgrab : r.logicStep = .grabLandLord
  · have hfollows : ∀ step, step = .grabLandLord ∨ step = .sendBaseCards →
        follows r.logicStep step = true := by
      rintro step (rfl | rfl) <;> rw [hgrab] <;> rfl
    obtain ⟨-, heq⟩ | ⟨-, -, heq⟩ | ⟨-, -, heq⟩ := grabLandLord_cases r k a hgrab
    · rw [heq]
      exact ⟨rfl, rfl, .inl rfl⟩
    · rw [heq]
      obtain ⟨step, time, c, g, o, hs, hroom⟩ := grabNext_fields a.pos k
        { r with landLordPos := a.pos, grabLandLordScoreMulti := r.grabLandLordScoreMulti * 2 }
        a.pos
      rw [hroom]
      exact ⟨rfl, rfl, .inr ⟨_, _, rfl, hfollows _ hs, by simp [hgrab], by simp [hgrab]⟩⟩
    · rw [heq]
      obtain ⟨step, time, c, g, o, hs, hroom⟩ := grabNext_fields r.landLordPos k
        { r with cannotGrabPos := r.cannotGrabPos ++ [a.pos] } a.pos
      rw [hroom]
      exact ⟨rfl, rfl, .inr ⟨_, _, rfl, hfollows _ hs, by simp [hgrab], by simp [hgrab]⟩⟩
  by_cases hdouble : r.logicStep = .doubleScore
  · obtain heq | ⟨-, heq⟩ := doubleScore_cases r k a hdouble
    · rw [heq]
      exact ⟨rfl, rfl, .inl rfl⟩
    · rw [heq]
      exact ⟨rfl, rfl, .inl rfl⟩
  by_cases hout : r.logicStep = .outCard
  · obtain heq | ⟨cards, tp, -, -, -, -, -, -, -, -, heq⟩ | ⟨last, -, -, -, -, heq⟩ :=
      outCard_cases r k a hout
    · rw [heq]
      exact ⟨rfl, rfl, .inl rfl⟩
    · rw [heq]
      obtain ⟨-, -, -, hlogic, -, hplaying⟩ :=
        playCards_fields (incOperationSeq r) k a.pos cards (decide (lastCards r = []))
      obtain ⟨step, time, hnext, hs⟩ :=
        playCards_next (incOperationSeq r) k a.pos cards (decide (lastCards r = []))
      refine ⟨hlogic, hplaying, .inr ⟨step, time, hnext, ?_, by simp [hout], by simp [hout]⟩⟩
      obtain rfl | rfl := hs <;> rw [hout] <;> rfl
    · rw [heq, passTurn]
      split_ifs
      all_goals
        exact ⟨rfl, rfl, .inr ⟨_, _, rfl, by rw [hout]; rfl, by simp [hout], by simp [hout]⟩⟩
  · rw [handle_of_other r k a hcall hgrab hdouble hout]
    exact ⟨rfl, rfl, .inl rfl⟩

/-- Outside the play phase the end is not scheduled. -/
lemma not_stepEnd_of_handle {r : Room} {k : Tick} {a : Attempt} (hord : InOrder r)
    (hstep : r.logicStep ≠ .outCard) :
    (handle r k a).room.next.map Prod.fst ≠ some .stepEnd := by
  intro hend
  obtain ⟨⟨step, time⟩, hnext, rfl⟩ := Option.map_eq_some_iff.mp hend
  have hfollows : follows r.logicStep .stepEnd = true := by
    obtain hsame | ⟨step', time', hnew, hfollows, -⟩ := (handle_schedule r k a).2.2
    · exact hord.next _ (hsame.symm.trans hnext)
    · obtain ⟨rfl, -⟩ := Prod.mk.inj (Option.some.inj (hnew.symm.trans hnext))
      exact hfollows
  revert hfollows hstep
  cases r.logicStep <;> simp [follows]

lemma onStepSwitch_logicStep (r : Room) (k : Tick) (step : LogicStep) :
    (onStepSwitch { logicStopStep r with logicStep := step } k step).logicStep = step := by
  cases step <;> rfl

/-- No step schedules the end when it begins. -/
lemma onStepSwitch_next_ne (r : Room) (k : Tick) (step : LogicStep) :
    (onStepSwitch { logicStopStep r with logicStep := step } k step).next.map Prod.fst ≠
      some .stepEnd := by
  cases step <;> simp [onStepSwitch, onStepSendCards, startStepCallPoints, onStepCallPoints,
    onStepGrabLandLord, onStepSendBaseCards, startStepDoubleScore, onStepDoubleScore,
    onStepOutCard, onStepEnd, clearResource, logicStartStep, logicStartTimeout, incOperationSeq,
    logicStopTimeout, logicStopStep]

/-- The order of the steps is kept by every event. -/
lemma inOrder_kept (ok : Room → Attempt → Prop) : Kept (fun r _ => InOrder r) ok where
  start := by
    intro r _ k h hplaying
    refine ⟨?_, fun hw => absurd hw (by simp [gameStart, startStepSendCards, logicStartStep])⟩
    rintro p hp
    obtain rfl := Option.some.inj hp
    show follows r.logicStep .sendCards = true
    obtain hstep | hstep := (h.waiting hplaying).1 <;> rw [hstep] <;> rfl
  switch := by
    intro r _ k step time h hnext
    have hfollows := h.next _ hnext
    have hplaying : r.isPlaying ≠ false := by
      intro hw
      rw [(h.waiting hw).2] at hnext
      exact absurd hnext (by simp)
    cases step with
    | idle =>
      exfalso
      revert hfollows
      cases r.logicStep <;> simp [follows]
    | sendCards =>
      refine ⟨?_, fun hw => absurd hw hplaying⟩
      rintro p hp
      obtain rfl := Option.some.inj hp
      rfl
    | sendBaseCards =>
      refine ⟨?_, fun hw => absurd hw hplaying⟩
      rintro p hp
      obtain rfl := Option.some.inj hp
      rfl
    | stepEnd =>
      refine ⟨?_, fun _ => ⟨.inr rfl, rfl⟩⟩
      rintro p hp
      exact absurd hp (by simp [onStepSwitch, onStepEnd, clearResource, incOperationSeq,
        logicStopTimeout, logicStopStep])
    | _ =>
      refine ⟨?_, fun hw => absurd hw hplaying⟩
      rintro p hp
      exact absurd hp (by simp [onStepSwitch, onStepCallPoints, onStepGrabLandLord,
        onStepDoubleScore, onStepOutCard, logicStartTimeout, incOperationSeq, logicStopStep])
  operation := by
    intro r _ k a h _
    obtain ⟨hlogic, hplaying, hnext⟩ := handle_schedule r k a
    constructor
    · rintro p hp
      rw [hlogic]
      obtain hsame | ⟨step, time, hnew, hfollows, -⟩ := hnext
      · exact h.next p (hsame ▸ hp)
      · obtain rfl := Option.some.inj (hnew.symm.trans hp)
        exact hfollows
    · intro hw
      obtain ⟨hstep, hnone⟩ := h.waiting (hplaying.symm.trans hw)
      obtain hsame | ⟨-, -, -, -, hidle, hend⟩ := hnext
      · rw [hlogic, hsame]
        exact ⟨hstep, hnone⟩
      · exact absurd hstep (by simp [hidle, hend])
  stopTimeout := fun h => ⟨h.next, h.waiting⟩
  startOutCard := by
    intro r _ k h hdouble
    refine ⟨?_, ?_⟩
    · rintro p hp
      obtain rfl := Option.some.inj hp
      show follows r.logicStep .outCard = true
      rw [hdouble]
      rfl
    · intro hw
      exact absurd (h.waiting hw).1 (by simp [hdouble])
  cutBack := fun _ h => ⟨h.next, h.waiting⟩

lemma inOrder_new : InOrder {} := ⟨by simp, fun _ => ⟨.inl rfl, rfl⟩⟩

/-- What an invariant has to be kept by when the steps come in order. -/
structure KeptInOrder (I : Room → History → Prop) (ok : Room → Attempt → Prop) : Prop where
  start : ∀ {r h} k, InOrder r → I r h → r.isPlaying = false → I (gameStart r k) h
  switch : ∀ {r h} k step time, InOrder r → I r h → r.next = some (step, time) →
    I (onStepSwitch { logicStopStep r with logicStep := step } k step) (h.switch step)
  operation : ∀ {r h} k a, InOrder r → I r h → ok r a →
    I (handle r k a).room (h.operation r k a)
  stopTimeout : ∀ {r h}, I r h → I (logicStopTimeout r) h
  startOutCard : ∀ {r h} k, I r h → r.logicStep = .doubleScore → I (startStepOutCard r k) h
  cutBack : ∀ {r h} pos, I r h → I (onUserCutBack r pos) h

section InOrderRule

variable {I : Room → History → Prop} {ok : Room → Attempt → Prop}

lemma KeptInOrder.kept (hI : KeptInOrder I ok) : Kept (fun r h => InOrder r ∧ I r h) ok where
  start := fun {_ h} k hw hplaying =>
    ⟨(inOrder_kept ok).start (h := h) k hw.1 hplaying, hI.start k hw.1 hw.2 hplaying⟩
  switch := fun {_ h} k step time hw hnext =>
    ⟨(inOrder_kept ok).switch (h := h) k step time hw.1 hnext,
      hI.switch k step time hw.1 hw.2 hnext⟩
  operation := fun {_ h} k a hw hok =>
    ⟨(inOrder_kept ok).operation (h := h) k a hw.1 hok, hI.operation k a hw.1 hw.2 hok⟩
  stopTimeout := fun {_ h} hw =>
    ⟨(inOrder_kept ok).stopTimeout (h := h) hw.1, hI.stopTimeout hw.2⟩
  startOutCard := fun {_ h} k hw hdouble =>
    ⟨(inOrder_kept ok).startOutCard (h := h) k hw.1 hdouble, hI.startOutCard k hw.2 hdouble⟩
  cutBack := fun {_ h} pos hw =>
    ⟨(inOrder_kept ok).cutBack (h := h) pos hw.1, hI.cutBack pos hw.2⟩

/-- What the new room satisfies and every event keeps, while the steps come in order, holds in
every state of a run. -/
lemma KeptInOrder.plays (hI : KeptInOrder I ok) (h₀ : I {} {}) {w : Room × History}
    (h : Plays ok w) : InOrder w.1 ∧ I w.1 w.2 :=
  hI.kept.plays ⟨inOrder_new, h₀⟩ h

end InOrderRule

/-! ### The start of a run -/

/-- The deck in its initial order, at a time. -/
def unshuffled (now : ℕ) : Tick := ⟨now, initPoker, .refl _⟩

/-- A game is started, the cards are sent and the first seat is asked. -/
def asked : List (Tick × Event) :=
  [(unshuffled 0, .start), (unshuffled 411, .timer), (unshuffled 822, .timer)]

end Ddz3
