import JsmjServer.Lib.Runs
import JsmjServer.Mahjong.Table

set_option relaxedAutoImplicit false
set_option autoImplicit false

/-!
# The choice that is rejected

`PlayerGrabMgr:playerDoGrab` takes the operations of a seat away before it looks whether the seat
has chosen already. A choice that comes too late is answered with `false`, and the offers that the
seat still had are gone. Within one offer this does no harm: the seat is left with the offer to play
a tile, and that one is kept. It does when the seat is offered something again before the choices
are cleared.

## Main definitions

* `Mahjong.PlayerGrabMgr.Call`, `Mahjong.PlayerGrabMgr.call` — the calls that change a manager.
* `Mahjong.PlayerGrabMgr.RejectedUnchanged` — what is claimed of a call.
* `Mahjong.PlayerGrabMgr.Late` — a choice of a seat that has chosen, from offers that are more than
  the one to play a tile.

## Main results

* `Mahjong.PlayerGrabMgr.rejected_unchanged_iff` — along a run the rejected choices change nothing
  if and only if no choice is late.
-/

namespace Mahjong

namespace PlayerGrabMgr

/-- The seat at a position; `CanGrabMgr` has no items at other positions. -/
def seatAt (pos : ℤ) : Option Seat := seats.find? fun p => (p : ℤ) + 1 = pos

/-- `PlayerGrabMgr:clearGrabInfo`. -/
def clearGrabInfo (g : PlayerGrabMgr) : PlayerGrabMgr :=
  { g with canGrabMgr := g.canGrabMgr.clear, doneGrabMgr := g.doneGrabMgr.clear }

/-- `PlayerGrabMgr:addCanDoItem` for any position. -/
def addCanDoItemAt (g : PlayerGrabMgr) (pos : ℤ) (operList : List Oper) : PlayerGrabMgr :=
  match seatAt pos with
  | some p => g.addCanDoItem p operList
  | none => g

/-- `PlayerGrabMgr:playerDoGrab` for any position. -/
def playerDoGrabAt (g : PlayerGrabMgr) (pos : ℤ) (oper : Oper) (byteCard : Option ℕ) :
    Bool × PlayerGrabMgr :=
  match seatAt pos with
  | some p => g.playerDoGrab p oper byteCard
  | none => (false, g)

/-- The calls that change the offers and the choices. -/
inductive Call
  | addCanDoItem (pos : ℤ) (operList : List Oper)
  | playerDoGrab (pos : ℤ) (oper : Oper) (byteCard : Option ℕ)
  | clear
  | clearGrabInfo

/-- The manager after a call. -/
def call (g : PlayerGrabMgr) : Call → PlayerGrabMgr
  | .addCanDoItem pos operList => g.addCanDoItemAt pos operList
  | .playerDoGrab pos oper byteCard => (g.playerDoGrabAt pos oper byteCard).2
  | .clear => g.clear
  | .clearGrabInfo => g.clearGrabInfo

/-- The offers and the choices of all seats are the same. -/
def SameOpers (g g' : PlayerGrabMgr) : Prop :=
  ∀ p, g'.canGrabMgr.opers p = g.canGrabMgr.opers p ∧
    g'.doneGrabMgr.opers p = g.doneGrabMgr.opers p

/-- A choice that is answered with `false` leaves all operations as they are. -/
def RejectedUnchanged (g : PlayerGrabMgr) : Call → Prop
  | .playerDoGrab pos oper byteCard =>
    (g.playerDoGrabAt pos oper byteCard).1 = false →
      g.SameOpers (g.playerDoGrabAt pos oper byteCard).2
  | _ => True

/-- A choice of an offered operation by a seat that has chosen before, and that has other offers
than the one to play a tile. -/
def Late (g : PlayerGrabMgr) : Call → Prop
  | .playerDoGrab pos oper _ =>
    ∃ p, seatAt pos = some p ∧ oper ∈ g.canGrabMgr.opers p ∧ g.doneGrabMgr.opers p ≠ [] ∧
      g.canGrabMgr.opers p ≠ [.play]
  | _ => False

/-! ### One choice -/

section Choice

variable {g : PlayerGrabMgr} {p : Seat} {o : Oper} {c : Option ℕ}

/-- The offers of a seat are the same after its choice if only the play of a tile was offered. -/
lemma opers_delPlayer_eq_iff (h : o ∈ g.canGrabMgr.opers p) :
    (g.canGrabMgr.delPlayer p).2.opers p = g.canGrabMgr.opers p ↔
      g.canGrabMgr.opers p = [.play] := by
  rw [CanGrabMgr.opers_delPlayer, if_pos rfl]
  split_ifs with hplay
  · exact eq_comm
  · constructor
    · intro hnil
      rw [← hnil] at h
      exact absurd h List.not_mem_nil
    · intro hone
      rw [hone] at hplay
      exact absurd List.mem_cons_self hplay

/-- A rejected choice changes nothing unless it is late. -/
lemma rejected_unchanged :
    ((g.playerDoGrab p o c).1 = false → g.SameOpers (g.playerDoGrab p o c).2) ↔
      ¬(o ∈ g.canGrabMgr.opers p ∧ g.doneGrabMgr.opers p ≠ [] ∧
        g.canGrabMgr.opers p ≠ [.play]) := by
  by_cases hopen : o ∈ g.canGrabMgr.opers p
  · by_cases hdone : g.doneGrabMgr.opers p = []
    · rw [playerDoGrab_of_mem hopen hdone]
      simp [hdone]
    · have hsame : g.SameOpers { g with canGrabMgr := (g.canGrabMgr.delPlayer p).2 } ↔
          g.canGrabMgr.opers p = [.play] := by
        rw [← opers_delPlayer_eq_iff hopen]
        constructor
        · exact fun h => (h p).1
        · intro h q
          refine ⟨?_, rfl⟩
          by_cases hq : q = p
          · rw [hq]
            exact h
          · exact CanGrabMgr.opers_delPlayer.trans (if_neg hq)
      rw [playerDoGrab_of_done hopen hdone]
      simp [hopen, hdone, hsame]
  · rw [playerDoGrab_of_notMem hopen]
    exact iff_of_true (fun _ q => ⟨rfl, rfl⟩) fun h => hopen h.1

end Choice

/-- **Rejected choices**: in a run of calls, the choices that are answered with `false` leave the
offers and the choices of all seats as they are if and only if no choice is late.

**Proof sketch.** A choice that is not open is rejected at once. One that is open takes the offers
of the seat away except the one to play a tile (`opers_delPlayer_eq_iff`), and is rejected
afterwards if the seat has chosen (`playerDoGrab_of_done`). -/
theorem rejected_unchanged_iff (calls : List Call) :
    Runs.Along call RejectedUnchanged new calls ↔
      Runs.Along call (fun g e => ¬g.Late e) new calls := by
  refine Runs.along_congr (I := fun _ => True) (fun _ _ _ _ => trivial) (fun g e _ => ?_) trivial
  cases e with
  | addCanDoItem pos operList => exact iff_of_true trivial id
  | clear => exact iff_of_true trivial id
  | clearGrabInfo => exact iff_of_true trivial id
  | playerDoGrab pos oper byteCard =>
    simp only [RejectedUnchanged, Late, playerDoGrabAt]
    cases seatAt pos with
    | none => simp [SameOpers]
    | some p => simpa using rejected_unchanged

/-- A seat that has taken a peng is offered one again, and answers: the offer is gone. -/
theorem rejected_grab_changes : ¬∀ calls, Runs.Along call RejectedUnchanged new calls := by
  intro h
  have hlost := h [.addCanDoItem 1 [.peng], .playerDoGrab 1 .peng (some 5),
    .addCanDoItem 1 [.peng, .cancel], .playerDoGrab 1 .cancel none]
    [.addCanDoItem 1 [.peng], .playerDoGrab 1 .peng (some 5), .addCanDoItem 1 [.peng, .cancel]]
    (.playerDoGrab 1 .cancel none) (List.prefix_refl _) (by decide) 0
  revert hlost
  decide

end PlayerGrabMgr

end Mahjong
