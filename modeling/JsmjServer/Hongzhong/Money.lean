import JsmjServer.Lobby.EnterRoom
import JsmjServer.Mahjong.PlayerGrabMgr
import Mathlib.Algebra.BigOperators.Fin
import Mathlib.Algebra.Order.BigOperators.Group.Finset

set_option relaxedAutoImplicit false
set_option autoImplicit false

/-!
# The money of the players

`MJPlayer:updateMoney` of `mj_core/MJPlayer.lua` and `GameProgress:updatePlayersMoney` of
`hongzhongmj/GameProgress.lua`: a settled round changes the balances of the players in a common
room. The change of a player stops at a balance of zero, and the amount that is left of it is sent
to the player's agent.

## Main definitions

* `Hongzhong.Balance.updateMoney` — the change of one balance, with the amount applied.
* `Hongzhong.MoneyRoom.updatePlayersMoney` — the changes of a settlement, with the amounts applied.

## Main results

* `Hongzhong.conserves_iff_covered` — a settlement keeps the money of the players exactly when every
  loser has what is taken from it.

## Implementation notes

`pairs` goes through the settlement in an order of its own, which is the order of the list here. The
agent's answer is not read. The check of the types of the arguments is the typing of `updateMoney`.
-/

namespace Hongzhong

open Mahjong

/-- The money of an `MJPlayer`. -/
structure Balance where
  money : ℤ
  deriving DecidableEq, Repr

/-- `MJPlayer:updateMoney`: the new balance, and the amount that the agent is told to apply. -/
def Balance.updateMoney (player : Balance) (siMoney : ℤ) : Balance × ℤ :=
  let siPreMoney := player.money
  if siMoney < 0 ∧ siMoney + siPreMoney < 0 then (⟨0⟩, 0 - siPreMoney)
  else (⟨siPreMoney + siMoney⟩, siMoney)

/-- What `updatePlayersMoney` reads and writes: the type of the room, the uid of every seat, and the
players who play, by their uid. Two seats never have the same uid. -/
structure MoneyRoom where
  roomType : Option Lobby.RoomType
  playerList : Seat → ℕ
  playingPlayers : ℕ → Option Balance
  uid_injective : Function.Injective playerList

namespace MoneyRoom

def isCommonRoom (r : MoneyRoom) : Bool := r.roomType == some .common

/-- One round of the loop of `updatePlayersMoney`. A seat whose user does not play is passed
over. -/
def updateSeat (r : MoneyRoom) (pos : Seat) (money : ℤ) : MoneyRoom × List ℤ :=
  match r.playingPlayers (r.playerList pos) with
  | none => (r, [])
  | some player =>
    let (player', siTemp) := player.updateMoney money
    ({ r with
        playingPlayers := Function.update r.playingPlayers (r.playerList pos) (some player') },
      [siTemp])

/-- The loop of `updatePlayersMoney`, with the amounts applied. -/
def updateSeats (r : MoneyRoom) : List (Seat × ℤ) → MoneyRoom × List ℤ
  | [] => (r, [])
  | (pos, money) :: tbMoney =>
    let (r₁, applied) := r.updateSeat pos money
    let (r₂, rest) := r₁.updateSeats tbMoney
    (r₂, applied ++ rest)

/-- `GameProgress:updatePlayersMoney`. In rooms of the other types nothing happens. -/
def updatePlayersMoney (r : MoneyRoom) (tbMoney : List (Seat × ℤ)) : MoneyRoom × List ℤ :=
  if r.isCommonRoom then r.updateSeats tbMoney else (r, [])

end MoneyRoom

/-! ### What a settlement applies -/

/-- The amount that is applied to a balance, cut off where the balance would become negative. -/
def cutOff (balance money : ℤ) : ℤ := if 0 ≤ balance + money then money else -balance

variable {balance money : ℤ}

lemma updateMoney_eq (hbalance : 0 ≤ balance) :
    Balance.updateMoney ⟨balance⟩ money = (⟨balance + cutOff balance money⟩, cutOff balance money) := by
  unfold Balance.updateMoney cutOff
  by_cases hcovered : 0 ≤ balance + money
  · rw [if_pos hcovered, if_neg (by intro h; have := h.2; dsimp only at this; omega)]
  · rw [if_neg hcovered, if_pos (by dsimp only; omega), Int.add_right_neg, Int.zero_sub]

lemma add_cutOff_nonneg : 0 ≤ balance + cutOff balance money := by
  unfold cutOff
  split_ifs <;> omega

lemma le_cutOff : money ≤ cutOff balance money := by
  unfold cutOff
  split_ifs <;> omega

lemma cutOff_eq_iff : money = cutOff balance money ↔ 0 ≤ balance + money := by
  unfold cutOff
  split_ifs <;> omega

lemma playerList_updateSeat (r : MoneyRoom) (pos : Seat) (money : ℤ) :
    (r.updateSeat pos money).1.playerList = r.playerList := by
  unfold MoneyRoom.updateSeat
  split <;> rfl

lemma playerList_updateSeats (r : MoneyRoom) (tbMoney : List (Seat × ℤ)) :
    (r.updateSeats tbMoney).1.playerList = r.playerList := by
  induction tbMoney generalizing r with
  | nil => rfl
  | cons entry tbMoney ih => exact (ih _).trans (playerList_updateSeat r entry.1 entry.2)

/-- The four seats of the room play, with these balances. -/
def MoneyRoom.Has (r : MoneyRoom) (balance : Seat → ℤ) : Prop :=
  ∀ pos, r.playingPlayers (r.playerList pos) = some ⟨balance pos⟩

/-- A round of the loop changes the balance of its seat only. -/
lemma MoneyRoom.Has.updateSeat {r : MoneyRoom} {balance : Seat → ℤ} (h : r.Has balance) (pos : Seat)
    (money : ℤ) (hbalance : 0 ≤ balance pos) :
    (r.updateSeat pos money).2 = [cutOff (balance pos) money] ∧
      (r.updateSeat pos money).1.Has
        (Function.update balance pos (balance pos + cutOff (balance pos) money)) := by
  unfold MoneyRoom.updateSeat
  rw [h pos]
  simp only [updateMoney_eq hbalance]
  refine ⟨trivial, fun p => ?_⟩
  dsimp only
  by_cases hp : p = pos
  · subst hp
    rw [Function.update_self, Function.update_self]
  · rw [Function.update_of_ne (r.uid_injective.ne hp), Function.update_of_ne hp]
    exact h p

/-- The loop applies to every seat it goes through the amount cut off at its balance.

**Proof sketch.** By induction on the seats still to come: as no seat comes twice, each finds the
balance it had at the start. -/
lemma MoneyRoom.Has.updateSeats {r : MoneyRoom} {balance : Seat → ℤ} (h : r.Has balance)
    (money : Seat → ℤ) (hbalance : ∀ pos, 0 ≤ balance pos) {order : List Seat}
    (hnodup : order.Nodup) :
    (r.updateSeats (order.map fun pos => (pos, money pos))).2 =
        order.map (fun pos => cutOff (balance pos) (money pos)) ∧
      (r.updateSeats (order.map fun pos => (pos, money pos))).1.Has fun pos =>
        if pos ∈ order then balance pos + cutOff (balance pos) (money pos) else balance pos := by
  induction order generalizing r balance with
  | nil => exact ⟨rfl, by simpa [MoneyRoom.updateSeats] using h⟩
  | cons pos order ih =>
    obtain ⟨hpos, hnodup⟩ := List.nodup_cons.mp hnodup
    obtain ⟨happlied, hhas⟩ := h.updateSeat pos (money pos) (hbalance pos)
    set balance' := Function.update balance pos (balance pos + cutOff (balance pos) (money pos))
      with hbalance'
    have hsame : ∀ p ∈ order, balance' p = balance p := by
      intro p hp
      exact Function.update_of_ne (ne_of_mem_of_not_mem hp hpos) _ _
    have hnonneg : ∀ p, 0 ≤ balance' p := by
      intro p
      by_cases hp : p = pos
      · subst hp
        rw [hbalance', Function.update_self]
        exact add_cutOff_nonneg
      · rw [hbalance', Function.update_of_ne hp]
        exact hbalance p
    obtain ⟨hrest, hlast⟩ := ih hhas hnonneg hnodup
    refine ⟨?_, fun p => ?_⟩
    · simp only [List.map_cons, MoneyRoom.updateSeats, happlied, hrest, List.singleton_append,
        List.cons.injEq, true_and]
      exact List.map_congr_left fun p hp => by rw [hsame p hp]
    · refine (hlast p).trans ?_
      dsimp only
      by_cases hp : p = pos
      · subst hp
        rw [if_neg hpos, if_pos List.mem_cons_self, hbalance', Function.update_self]
      · rw [hbalance', Function.update_of_ne hp]
        simp [hp]

/-- The settlement keeps the money of the players: what is applied sums to zero, and no balance is
negative after it. -/
def Conserves (r : MoneyRoom) (tbMoney : List (Seat × ℤ)) : Prop :=
  (r.updatePlayersMoney tbMoney).2.sum = 0 ∧
    ∀ pos player, (r.updatePlayersMoney tbMoney).1.playingPlayers (r.playerList pos) = some player →
      0 ≤ player.money

/-- In a common room a settlement of sum zero keeps the money of the players **exactly when** every
player can pay what it loses.

**Proof sketch.** Every seat is applied its amount cut off at its balance (`Has.updateSeats`), which
is never less than the amount itself. The sum of the amounts is zero, so the sum of those applied is
zero exactly when nothing is cut off. A balance is never negative in either case. -/
theorem conserves_iff_covered (r : MoneyRoom) (hcommon : r.isCommonRoom) (balance money : Seat → ℤ)
    (hhas : r.Has balance) (hbalance : ∀ pos, 0 ≤ balance pos) (hzero : ∑ pos, money pos = 0)
    (order : List Seat) (horder : order.Perm (List.finRange 4)) :
    Conserves r (order.map fun pos => (pos, money pos)) ↔ ∀ pos, 0 ≤ balance pos + money pos := by
  have hnodup : order.Nodup := horder.nodup_iff.mpr (List.nodup_finRange 4)
  have hmem : ∀ pos, pos ∈ order := fun pos => horder.mem_iff.mpr (List.mem_finRange pos)
  obtain ⟨happlied, hlast⟩ := hhas.updateSeats money hbalance hnodup
  have hsum : (order.map fun pos => cutOff (balance pos) (money pos)).sum =
      ∑ pos, cutOff (balance pos) (money pos) := by
    rw [(horder.map _).sum_eq, ← List.ofFn_eq_map, List.sum_ofFn]
  have hnonneg : ∀ pos player,
      (r.updateSeats (order.map fun pos => (pos, money pos))).1.playingPlayers (r.playerList pos) =
        some player → 0 ≤ player.money := by
    intro pos player hplayer
    have hpos := hlast pos
    rw [playerList_updateSeats, hplayer] at hpos
    rw [Option.some.inj hpos]
    dsimp only
    rw [if_pos (hmem pos)]
    exact add_cutOff_nonneg
  unfold Conserves MoneyRoom.updatePlayersMoney
  rw [if_pos hcommon, happlied, hsum]
  constructor
  · rintro ⟨happlied, -⟩ pos
    have hall := (Finset.sum_eq_sum_iff_of_le fun pos _ => le_cutOff).mp (hzero.trans happlied.symm)
    exact cutOff_eq_iff.mp (hall pos (Finset.mem_univ pos))
  · intro hcovered
    refine ⟨?_, hnonneg⟩
    rw [← hzero]
    exact Finset.sum_congr rfl fun pos _ => (cutOff_eq_iff.mpr (hcovered pos)).symm

/-! ### Two settlements -/

/-- A common room whose seats are taken by the users 1 to 4, with the given balances. -/
def commonRoom (balance : Seat → ℤ) : MoneyRoom where
  roomType := some .common
  playerList pos := pos + 1
  playingPlayers uid := if uid = 0 ∨ 4 < uid then none else some ⟨balance (Fin.ofNat 4 (uid - 1))⟩
  uid_injective := by decide

/-- Where everyone has what it loses, the settlement keeps the money. -/
theorem conserves_covered_settlement :
    Conserves (commonRoom ![30, 100, 100, 100])
      ((List.finRange 4).map fun pos => (pos, ![-30, 90, -30, -30] pos)) := by
  refine (conserves_iff_covered (commonRoom ![30, 100, 100, 100]) rfl ![30, 100, 100, 100]
    ![-30, 90, -30, -30] ?_ ?_ ?_ (List.finRange 4) (List.Perm.refl _)).mpr ?_
  · unfold MoneyRoom.Has
    decide
  all_goals decide

/-- A loser with 10 pays only these 10 of the 30 it loses, and the winner gets the full 90: 20 more
than was paid. -/
theorem unpaid_loss_creates_money :
    ¬ Conserves (commonRoom ![10, 100, 100, 100])
      ((List.finRange 4).map fun pos => (pos, ![-30, 90, -30, -30] pos)) := by
  intro h
  exact absurd h.1 (by decide)

end Hongzhong
