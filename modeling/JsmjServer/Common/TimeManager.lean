import JsmjServer.Lib.Runs
import Mathlib.Data.List.Nodup
import Mathlib.Data.List.Range

set_option relaxedAutoImplicit false
set_option autoImplicit false

/-!
# The timers of a room

`common/utils/TimeManager.lua`: the timers of a room are the entries of one list. A pass
(`dealTimeOutEvent`) goes through a copy of the list and runs the callback of every entry that is
due; when a callback returns, the entry is deleted from the list by its handle. While a callback
runs, timers may be set, deleted or cleared.

## Main definitions

* `Common.TimeManager` — the list and the counter that gives the handles, with its operations.
* `Common.Timers.step` — an operation, the begin of a pass, or the return of a callback.
* `Common.Watch` — the timers with what has happened to them so far.
* `Common.Fresh`, `Common.Spares` — conditions on a step of a run.

## Implementation notes

A Lua table is known by its reference, which is the number `id` here. Time is counted in the ticks
of `skynet.now`. A callback stands for itself together with its parameter.
-/

namespace Common

variable {C : Type}

/-- An entry of `timeoutList`. -/
structure Timeout (C : Type) where
  id : ℕ
  uuid : ℕ
  endTime : ℕ
  callback : Option C
  deriving DecidableEq, Repr

/-- The condition under which a pass runs the callback. -/
def Timeout.isDue (v : Timeout C) (now : ℕ) : Bool := decide (v.endTime ≤ now) && v.callback.isSome

/-- `TimeManager`. The number of tables made so far gives the next one its identity. -/
structure TimeManager (C : Type) where
  timeoutList : List (Timeout C) := []
  uuid : ℕ := 0
  made : ℕ := 0
  deriving DecidableEq, Repr

namespace TimeManager

/-- `TimeManager:clearAllTimeOut`. -/
def clearAllTimeOut (m : TimeManager C) : TimeManager C := { m with timeoutList := [], uuid := 0 }

/-- `TimeManager:setTimeOut` at the time `now`. -/
def setTimeOut (m : TimeManager C) (now delayMS : ℕ) (callback : Option C) : TimeManager C :=
  let item : Timeout C := ⟨m.made, m.uuid, now + delayMS, callback⟩
  let timeoutList := m.timeoutList ++ [item]
  let uuid :=
    if 10000 < m.uuid then if timeoutList.length < 10 then 0 else m.uuid
    else m.uuid
  { timeoutList := timeoutList, uuid := uuid + 1, made := m.made + 1 }

/-- `TimeManager:deleteTimeOut`: the first entry with the handle goes. -/
def deleteTimeOut (m : TimeManager C) (handle : ℕ) : TimeManager C :=
  { m with timeoutList := m.timeoutList.eraseP fun v => v.uuid == handle }

/-- The counter is set back when the next timer is set. -/
def wraps (m : TimeManager C) : Bool :=
  decide (10000 < m.uuid) && decide (m.timeoutList.length + 1 < 10)

lemma uuid_setTimeOut (m : TimeManager C) (now delayMS : ℕ) (callback : Option C) :
    (m.setTimeOut now delayMS callback).uuid = if m.wraps then 1 else m.uuid + 1 := by
  by_cases hfar : 10000 < m.uuid <;> by_cases hfew : m.timeoutList.length + 1 < 10 <;>
    simp [setTimeOut, wraps, hfar, hfew]

end TimeManager

/-! ### Passes -/

/-- A pass: the time it began, the entry whose callback runs, and the rest of the copied list. -/
structure Pass (C : Type) where
  now : ℕ
  item : Timeout C
  rest : List (Timeout C)
  deriving DecidableEq, Repr

/-- The loop of a pass up to the next callback. -/
def nextDue (now : ℕ) : List (Timeout C) → Option (Pass C)
  | [] => none
  | v :: rest => if v.isDue now then some ⟨now, v, rest⟩ else nextDue now rest

/-- The timers of a room, the pass under way, and the time of the last operation. -/
structure Timers (C : Type) where
  mgr : TimeManager C := {}
  pass : Option (Pass C) := none
  clock : ℕ := 0
  deriving DecidableEq, Repr

inductive Event (C : Type)
  | setTimeOut (now delayMS : ℕ) (callback : Option C)
  | deleteTimeOut (handle : ℕ)
  | clearAllTimeOut
  | dealTimeOutEvent (now : ℕ)
  /-- The callback of the pass returns, and the loop goes on to the next one. -/
  | callbackDone
  deriving DecidableEq, Repr

/-- One event. Time does not go back, a pass begins when none is under way, and a callback returns
when one runs. -/
def Timers.step (s : Timers C) : Event C → Option (Timers C)
  | .setTimeOut now delayMS callback =>
    if now < s.clock then none
    else some { s with mgr := s.mgr.setTimeOut now delayMS callback, clock := now }
  | .deleteTimeOut handle => some { s with mgr := s.mgr.deleteTimeOut handle }
  | .clearAllTimeOut => some { s with mgr := s.mgr.clearAllTimeOut }
  | .dealTimeOutEvent now =>
    if now < s.clock ∨ s.pass.isSome then none
    else some { s with pass := nextDue now s.mgr.timeoutList, clock := now }
  | .callbackDone =>
    match s.pass with
    | none => none
    | some p =>
      some { s with mgr := s.mgr.deleteTimeOut p.item.uuid, pass := nextDue p.now p.rest }

/-! ### What has happened -/

/-- The timers, with a record of the run.

* `lapStart` is the number of timers that were made when the counter was last set back.
* `handles` are the handles given out, in order.
* `ran` are the timers whose callbacks ran, `gone` those deleted through their handle or cleared.
* `late` are the timers that ran when they were gone, and `lost` the pending timers that were
  deleted when a pass was done with another timer. -/
structure Watch (C : Type) where
  timers : Timers C := {}
  lapStart : ℕ := 0
  handles : List ℕ := []
  ran : List ℕ := []
  gone : List ℕ := []
  late : List ℕ := []
  lost : List ℕ := []
  deriving DecidableEq, Repr

/-- The timers that have been given the handle. -/
def Watch.holders (w : Watch C) (handle : ℕ) : List ℕ :=
  (List.range w.handles.length).filter fun i => w.handles[i]? == some handle

/-- Record the timer whose callback begins to run. -/
def Watch.begin (w : Watch C) : Option (Pass C) → Watch C
  | none => w
  | some p =>
    { w with
      ran := w.ran ++ [p.item.id]
      late := if p.item.id ∈ w.gone then w.late ++ [p.item.id] else w.late }

/-- The timers other than `item` that are in the first list but not in the second. -/
def missing (item : Timeout C) (before after : List (Timeout C)) : List ℕ :=
  (before.map (·.id)).filter fun i => i ≠ item.id ∧ i ∉ after.map (·.id)

/-- Record what an event does. -/
def Watch.note (w : Watch C) (s : Timers C) : Event C → Watch C
  | .setTimeOut _ _ _ =>
    { w with
      timers := s
      handles := w.handles ++ [w.timers.mgr.uuid]
      lapStart := if w.timers.mgr.wraps then s.mgr.made else w.lapStart }
  | .deleteTimeOut handle => { w with timers := s, gone := w.gone ++ w.holders handle }
  | .clearAllTimeOut =>
    { w with timers := s, gone := w.gone ++ List.range w.handles.length, lapStart := s.mgr.made }
  | .dealTimeOutEvent _ => { w with timers := s }.begin s.pass
  | .callbackDone =>
    let lost := (w.timers.pass.map fun p =>
      missing p.item w.timers.mgr.timeoutList s.mgr.timeoutList).getD []
    { w with timers := s, lost := w.lost ++ lost }.begin s.pass

def Watch.step (w : Watch C) (e : Event C) : Option (Watch C) :=
  (w.timers.step e).map fun s => w.note s e

/-- A timer of an earlier lap of the counter does not hold the handle that is given out next. -/
def Fresh (w : Watch C) : Prop :=
  ∀ t ∈ w.timers.mgr.timeoutList, t.id < w.lapStart → t.uuid ≠ w.timers.mgr.uuid

/-- Timers are only set when the handle is fresh. -/
def SetsFresh (w : Watch C) : Event C → Prop
  | .setTimeOut _ _ _ => Fresh w
  | _ => True

/-- The condition on an event under which timers behave. A timer is set when its handle is fresh,
and not that of a timer of an earlier lap whose callback runs. A callback does not delete or clear a
timer that is due and still to come in the pass. -/
def Spares (w : Watch C) : Event C → Prop
  | .setTimeOut _ _ _ =>
    Fresh w ∧ ∀ p ∈ w.timers.pass, p.item.id < w.lapStart → p.item.uuid ≠ w.timers.mgr.uuid
  | .deleteTimeOut handle => ∀ p ∈ w.timers.pass, ∀ v ∈ p.rest, v.isDue p.now → v.uuid ≠ handle
  | .clearAllTimeOut => ∀ p ∈ w.timers.pass, ∀ v ∈ p.rest, ¬ v.isDue p.now
  | .dealTimeOutEvent _ | .callbackDone => True

/-- Every event is allowed. -/
def AnyEvent (_ : Watch C) (_ : Event C) : Prop := True

/-- No callback ran twice, none ran after its timer was deleted or cleared, and no pending timer was
deleted for another. -/
structure Fine (w : Watch C) : Prop where
  once : w.ran.Nodup
  not_late : w.late = []
  not_lost : w.lost = []

instance (w : Watch C) : Decidable (Fresh w) :=
  inferInstanceAs (Decidable (∀ t ∈ w.timers.mgr.timeoutList, _))

instance (w : Watch C) : (e : Event C) → Decidable (SetsFresh w e)
  | .setTimeOut _ _ _ => inferInstanceAs (Decidable (Fresh w))
  | .deleteTimeOut _ | .clearAllTimeOut | .dealTimeOutEvent _ | .callbackDone => .isTrue trivial

instance (w : Watch C) : (e : Event C) → Decidable (Spares w e)
  | .setTimeOut _ _ _ => inferInstanceAs (Decidable (Fresh w ∧ ∀ p ∈ w.timers.pass, _))
  | .deleteTimeOut _ => inferInstanceAs (Decidable (∀ p ∈ w.timers.pass, ∀ v ∈ p.rest, _))
  | .clearAllTimeOut => inferInstanceAs (Decidable (∀ p ∈ w.timers.pass, ∀ v ∈ p.rest, _))
  | .dealTimeOutEvent _ | .callbackDone => .isTrue trivial

instance (w : Watch C) (e : Event C) : Decidable (AnyEvent w e) := .isTrue trivial

end Common
