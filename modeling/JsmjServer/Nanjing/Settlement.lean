import JsmjServer.Nanjing.Accounts
import JsmjServer.Nanjing.GamePlaying

set_option relaxedAutoImplicit false
set_option autoImplicit false

/-!
# The settlement of a round of nanjing mahjong

What `GameEnd:calculateMoney` computes for a won round: whether the amounts add up to zero and
nobody pays more than is left, and which seat pays which winner. Several winners are paid in turn,
so their payments are recorded one by one; the amounts are what the record adds up to.

## Main definitions

* `Nanjing.WonArgs` — the arguments of a won round.
* `Nanjing.Payment`, `Nanjing.payments` — the payments to several winners.
* `Nanjing.RightSeats` — every winner is paid by its liable seat, or else by the discarder.

## Main results

* `Nanjing.calculateMoney_zero_sum` — the amounts add up to zero and leave nobody below zero.
* `Nanjing.rightSeats_iff` — when the right seats pay several winners.
* `Nanjing.liable_pays_other_winner` — the seat liable for one winner pays another.
-/

namespace Nanjing

open Mahjong

/-! ### The arguments -/

/-- The arguments of a won round: one seat has drawn its winning tile, or the tile comes from
another seat. -/
def WonArgs (args : EndArgs) : Prop :=
  (args.isZiMo = true ∧ ∃ pos, args.winnerPosList = [pos]) ∨
    (args.isZiMo = false ∧ args.fangPaoPos.isSome)

/-- A win ends the round with such arguments. -/
lemma wonArgs_doHu {s : Table} (hpos : s.playerGrabMgr.pos.isSome) (pos : Seat) (byteCard : ℕ)
    {args : EndArgs} (h : (doHu s pos byteCard).endArgs = some args) : WonArgs args := by
  obtain rfl := Option.some.inj h
  by_cases hzimo : s.bZiMo pos = true
  · exact .inl ⟨hzimo, pos, by simp [hzimo]⟩
  · exact .inr ⟨by simpa using hzimo, hpos⟩

section Settle

variable {rule : RoomRule} {leftMoney : Seat → ℤ} {evaluate : Seat → Evaluation} {args : EndArgs}

/-- The seats that are liable for a winner, in the order of the winners. -/
def liableSeats (rule : RoomRule) (evaluate : Seat → Evaluation) (winners : List Seat) : List Seat :=
  (seats.filter (· ∈ winners)).filterMap fun winPos => (evaluate winPos).baoPai rule

lemma foldl_or {α : Type*} (f : Seat → Option α) (order : List Seat) (x : Option α) :
    order.foldl (fun x pos => (f pos).or x) x = (order.filterMap f).getLast?.or x := by
  induction order generalizing x with
  | nil => rfl
  | cons pos order ih =>
    rw [List.foldl_cons, ih, List.filterMap_cons]
    cases hpos : f pos with
    | none => rfl
    | some y =>
      dsimp only
      rw [List.getLast?_cons]
      cases (order.filterMap f).getLast? <;> rfl

/-- The seat that is to pay for all is the last that is liable for a winner. -/
lemma liable_eq : liable rule evaluate args =
    (liableSeats rule evaluate args.winnerPosList).getLast?.or args.fangPaoPos :=
  foldl_or _ _ _

lemma liable_isSome (h : args.fangPaoPos.isSome) : (liable rule evaluate args).isSome := by
  rw [liable_eq]
  cases (liableSeats rule evaluate args.winnerPosList).getLast? with
  | none => exact h
  | some _ => rfl

/-! ### The record of the payments -/

/-- A payment to a winner. -/
structure Payment where
  winner : Seat
  payer : Seat
  amount : ℤ
  deriving DecidableEq

/-- The amounts of the seats after some payments. -/
def paid (log : List Payment) : Seat → ℤ :=
  log.foldl (fun money p => pay money p.winner p.payer p.amount) fun _ => 0

lemma foldl_pay (log : List Payment) (money : Seat → ℤ) (i : Seat) :
    log.foldl (fun money p => pay money p.winner p.payer p.amount) money i = money i + paid log i := by
  unfold paid
  induction log generalizing money with
  | nil => simp
  | cons p log ih =>
    rw [List.foldl_cons, List.foldl_cons, ih, ih (pay _ _ _ _), pay_apply, pay_apply]
    ring

lemma paid_cons (p : Payment) (log : List Payment) (i : Seat) :
    paid (p :: log) i = pay (fun _ => 0) p.winner p.payer p.amount i + paid log i :=
  foldl_pay log _ i

/-- Payments add up to zero. -/
lemma sum_paid (log : List Payment) : ∑ i, paid log i = 0 := by
  induction log with
  | nil => simp [paid]
  | cons p log ih =>
    rw [Finset.sum_congr rfl fun i _ => paid_cons p log i, Finset.sum_add_distrib, sum_pay, ih]
    simp

/-- The order in which several winners are paid, from the paying seat on. -/
def payOrder (fangPaoPos : Seat) : List Seat :=
  [fangPaoPos, fangPaoPos + 1, fangPaoPos + 2, fangPaoPos + 3]

/-- The payments of `payWinnersJYZ`, where `left` is what the paying seat has left. -/
def paymentsJYZ (rule : RoomRule) (evaluate : Seat → Evaluation) (winners : List Seat)
    (fangPaoPos : Seat) : ℤ → List Seat → List Payment
  | _, [] => []
  | left, pos :: order =>
    if pos ∈ winners then
      let total := totalMoney rule evaluate pos
      let total := if left < total then left else total
      ⟨pos, fangPaoPos, total⟩ :: paymentsJYZ rule evaluate winners fangPaoPos (left - total) order
    else paymentsJYZ rule evaluate winners fangPaoPos left order

/-- The payments of `payWinners`, where `left` is what the seats have left. -/
def paymentsOpen (rule : RoomRule) (evaluate : Seat → Evaluation) (winners : List Seat)
    (fangPaoPos : Seat) : (Seat → ℤ) → List Seat → List Payment
  | _, [] => []
  | left, pos :: order =>
    if pos ∈ winners then
      let losePos := ((evaluate pos).baoPai rule).getD fangPaoPos
      let total := totalMoney rule evaluate pos
      let total := if 0 < rule.limitScore ∧ left losePos < total then left losePos else total
      ⟨pos, losePos, total⟩ ::
        paymentsOpen rule evaluate winners fangPaoPos (pay left pos losePos total) order
    else paymentsOpen rule evaluate winners fangPaoPos left order

/-- The payments to several winners. -/
def payments (rule : RoomRule) (leftMoney : Seat → ℤ) (evaluate : Seat → Evaluation)
    (winners : List Seat) (fangPaoPos : Seat) : List Payment :=
  if rule.isJYZ then
    paymentsJYZ rule evaluate winners fangPaoPos (leftMoney fangPaoPos) (payOrder fangPaoPos)
  else paymentsOpen rule evaluate winners fangPaoPos leftMoney (payOrder fangPaoPos)

lemma payWinnersJYZ_eq (winners : List Seat) (fangPaoPos : Seat) :
    payWinnersJYZ rule leftMoney evaluate winners fangPaoPos =
      paid (paymentsJYZ rule evaluate winners fangPaoPos (leftMoney fangPaoPos)
        (payOrder fangPaoPos)) := by
  have hfold : ∀ (order : List Seat) (left : ℤ) (money : Seat → ℤ),
      (order.foldl (fun (r : ℤ × (Seat → ℤ)) pos =>
        if pos ∈ winners then
          let total := totalMoney rule evaluate pos
          let total := if r.1 < total then r.1 else total
          (r.1 - total, pay r.2 pos fangPaoPos total)
        else r) (left, money)).2 =
      (paymentsJYZ rule evaluate winners fangPaoPos left order).foldl
        (fun money p => pay money p.winner p.payer p.amount) money := by
    intro order
    induction order with
    | nil => exact fun _ _ => rfl
    | cons pos order ih =>
      intro left money
      rw [List.foldl_cons, paymentsJYZ]
      by_cases hwin : pos ∈ winners
      · rw [if_pos hwin, if_pos hwin]
        exact ih _ _
      · rw [if_neg hwin, if_neg hwin]
        exact ih _ _
  exact hfold _ _ _

/-- The two updates of what is left are those of a payment. -/
lemma update_left (left : Seat → ℤ) (pos losePos : Seat) (total : ℤ) :
    Function.update (Function.update left losePos (left losePos - total)) pos
      (Function.update left losePos (left losePos - total) pos + total) =
      pay left pos losePos total := by
  funext i
  rw [pay_apply]
  by_cases hpos : i = pos
  · subst hpos
    rw [Function.update_self, if_pos rfl]
    by_cases hlose : i = losePos
    · subst hlose
      rw [Function.update_self, if_pos rfl]
      ring
    · rw [Function.update_of_ne hlose, if_neg hlose]
      ring
  · rw [Function.update_of_ne hpos, if_neg hpos]
    by_cases hlose : i = losePos
    · subst hlose
      rw [Function.update_self, if_pos rfl]
      ring
    · rw [Function.update_of_ne hlose, if_neg hlose]
      ring

lemma payWinners_eq (winners : List Seat) (fangPaoPos : Seat) :
    payWinners rule leftMoney evaluate winners fangPaoPos =
      paid (paymentsOpen rule evaluate winners fangPaoPos leftMoney (payOrder fangPaoPos)) := by
  have hfold : ∀ (order : List Seat) (left money : Seat → ℤ),
      (order.foldl (fun (r : (Seat → ℤ) × (Seat → ℤ)) pos =>
        if pos ∈ winners then
          let losePos := ((evaluate pos).baoPai rule).getD fangPaoPos
          let total := totalMoney rule evaluate pos
          let total := if 0 < rule.limitScore ∧ r.1 losePos < total then r.1 losePos else total
          let leftMoneys := Function.update r.1 losePos (r.1 losePos - total)
          (Function.update leftMoneys pos (leftMoneys pos + total), pay r.2 pos losePos total)
        else r) (left, money)).2 =
      (paymentsOpen rule evaluate winners fangPaoPos left order).foldl
        (fun money p => pay money p.winner p.payer p.amount) money := by
    intro order
    induction order with
    | nil => exact fun _ _ => rfl
    | cons pos order ih =>
      intro left money
      rw [List.foldl_cons, paymentsOpen]
      by_cases hwin : pos ∈ winners
      · rw [if_pos hwin, if_pos hwin]
        dsimp only
        rw [update_left]
        exact ih _ _
      · rw [if_neg hwin, if_neg hwin]
        exact ih _ _
  exact hfold _ _ _

/-- The amounts for several winners are what their payments add up to. -/
lemma calculateMoney_eq_paid {fangPaoPos : Seat} (hseveral : args.winnerPosList.length ≠ 1)
    (hpays : liable rule evaluate args = some fangPaoPos) :
    calculateMoney rule leftMoney evaluate args =
      some (paid (payments rule leftMoney evaluate args.winnerPosList fangPaoPos)) := by
  unfold calculateMoney payments
  rw [hpays]
  dsimp only
  split
  · rename_i pos heq
    exact absurd (by rw [heq]; rfl) hseveral
  · split_ifs
    · rw [Option.map_some, payWinnersJYZ_eq]
    · rw [Option.map_some, payWinners_eq]

/-! ### Sum and solvency -/

/-- The amounts of a settlement: they add up to zero and, where payments are cut off, leave nobody
below zero. -/
structure Sound (rule : RoomRule) (leftMoney money : Seat → ℤ) : Prop where
  sum : ∑ i, money i = 0
  left : rule.isLimited = true → 0 ≤ rule.unitCoin → ∀ i, 0 ≤ leftMoney i + money i

lemma totalMoney_nonneg (hunit : 0 ≤ rule.unitCoin) (pos : Seat) :
    0 ≤ totalMoney rule evaluate pos :=
  Int.mul_nonneg (Int.natCast_nonneg _) hunit

/-- The loop of `payWinners` leaves nobody below zero, when it cuts payments off.

**Proof sketch.** By induction on the seats still to come, for what the seats have left at that
moment: a payment is at most what its payer has left, and what is left afterwards includes it. -/
lemma paymentsOpen_left (hlimit : 0 < rule.limitScore) (hunit : 0 ≤ rule.unitCoin)
    (winners : List Seat) (fangPaoPos : Seat) (order : List Seat) {left : Seat → ℤ}
    (hleft : ∀ i, 0 ≤ left i) (i : Seat) :
    0 ≤ left i + paid (paymentsOpen rule evaluate winners fangPaoPos left order) i := by
  induction order generalizing left with
  | nil => simpa [paymentsOpen, paid] using hleft i
  | cons pos order ih =>
    rw [paymentsOpen]
    by_cases hwin : pos ∈ winners
    · rw [if_pos hwin]
      dsimp only
      set losePos := ((evaluate pos).baoPai rule).getD fangPaoPos
      have htotal : 0 ≤ totalMoney rule evaluate pos := totalMoney_nonneg hunit pos
      set total := if 0 < rule.limitScore ∧ left losePos < totalMoney rule evaluate pos then
        left losePos else totalMoney rule evaluate pos with htot
      have hlose := hleft losePos
      have hnonneg : 0 ≤ total := by
        rw [htot]
        split_ifs <;> omega
      have hatmost : total ≤ left losePos := by
        rw [htot]
        split_ifs with hcut
        · exact le_refl _
        · exact not_lt.mp fun hlt => hcut ⟨hlimit, hlt⟩
      have hafter : ∀ j, 0 ≤ pay left pos losePos total j := by
        intro j
        have hj := hleft j
        rw [pay_apply]
        split_ifs with hpos hpayer hpayer
        · omega
        · omega
        · subst hpayer
          omega
        · omega
      have hrest := ih hafter
      rw [pay_apply] at hrest
      rw [paid_cons, pay_apply]
      dsimp only
      omega
    · rw [if_neg hwin]
      exact ih hleft

/-- A single winner is paid by all others, or by one seat. -/
lemma payWinner_sound (hleft : ∀ i, 0 ≤ leftMoney i) {isZiMo : Bool} {pos : Seat}
    {fangPaoPos : Option Seat} {money : Seat → ℤ}
    (h : payWinner rule leftMoney evaluate isZiMo pos fangPaoPos = some money) :
    Sound rule leftMoney money := by
  -- what one seat pays it can afford
  have hone : ∀ losePos, Sound rule leftMoney
      (pay (fun _ => 0) pos losePos (afford rule (leftMoney losePos)
        (totalMoney rule evaluate pos))) := by
    intro losePos
    refine ⟨by simp [sum_pay], fun hlimit hunit => ?_⟩
    exact (covered_pay hleft (afford_nonneg (hleft losePos) (totalMoney_nonneg hunit pos))
      (afford_le hlimit)).left
  unfold payWinner at h
  dsimp only at h
  split at h
  · obtain rfl := Option.some.inj h
    exact hone _
  · split_ifs at h
    · obtain rfl := Option.some.inj h
      refine ⟨sum_payEach _ _, fun hlimit hunit => ?_⟩
      exact (covered_payEach hleft (fun i => afford_nonneg (hleft i)
        (third_nonneg (totalMoney_nonneg hunit pos))) fun _ => afford_le hlimit).left
    · obtain ⟨losePos, -, rfl⟩ := Option.map_eq_some_iff.mp h
      exact hone losePos

lemma payWinner_isSome {isZiMo : Bool} {pos : Seat} {fangPaoPos : Option Seat}
    (h : isZiMo = true ∨ fangPaoPos.isSome) :
    (payWinner rule leftMoney evaluate isZiMo pos fangPaoPos).isSome := by
  unfold payWinner
  dsimp only
  split
  · rfl
  · split_ifs with hzimo
    · rfl
    · rw [Option.isSome_map]
      exact h.resolve_left hzimo

/-- The settlement of a won round, for every set of winners, whatever their hands are worth and
whoever is liable for them, and for every score that the seats have left: it is computed, its
amounts add up to zero, and in a jin-yuan-zi room or with a score limit it leaves nobody below zero.
The stake is a number of coins; only its product with the fan, rounded up, is used.

**Proof sketch.** Every branch pays between seats, so the amounts add up to zero. What a seat pays
at once it can afford; and when several winners are paid in turn, each payment is at most what its
payer has left after the payments before. -/
theorem calculateMoney_zero_sum (hleft : ∀ i, 0 ≤ leftMoney i) (hargs : WonArgs args) :
    ∃ money, calculateMoney rule leftMoney evaluate args = some money ∧
      Sound rule leftMoney money := by
  have hpays : args.fangPaoPos.isSome → (liable rule evaluate args).isSome := liable_isSome
  by_cases hone : args.winnerPosList.length = 1
  · obtain ⟨pos, hpos⟩ := List.length_eq_one_iff.mp hone
    have hcalc : calculateMoney rule leftMoney evaluate args =
        payWinner rule leftMoney evaluate args.isZiMo pos (liable rule evaluate args) := by
      unfold calculateMoney
      dsimp only
      rw [hpos]
    have hsome : (payWinner rule leftMoney evaluate args.isZiMo pos
        (liable rule evaluate args)).isSome :=
      payWinner_isSome (hargs.imp (fun h => h.1) fun h => hpays h.2)
    obtain ⟨money, hmoney⟩ := Option.isSome_iff_exists.mp hsome
    exact ⟨money, hcalc.trans hmoney, payWinner_sound hleft hmoney⟩
  · have hsome : args.fangPaoPos.isSome := by
      obtain ⟨-, pos, hpos⟩ | ⟨-, hsome⟩ := hargs
      · exact absurd (by rw [hpos]; rfl) hone
      · exact hsome
    obtain ⟨fangPaoPos, hliable⟩ := Option.isSome_iff_exists.mp (hpays hsome)
    have hcalc : calculateMoney rule leftMoney evaluate args =
        some (paid (payments rule leftMoney evaluate args.winnerPosList fangPaoPos)) :=
      calculateMoney_eq_paid hone hliable
    refine ⟨_, hcalc, sum_paid _, fun hlimit hunit => ?_⟩
    by_cases hjyz : rule.isJYZ = true
    · exact (covered_calculateMoney hlimit hunit hjyz hleft hcalc).left
    · have hscore : 0 < rule.limitScore := by simpa [RoomRule.isLimited, hjyz] using hlimit
      rw [payments, if_neg hjyz]
      exact paymentsOpen_left hscore hunit _ _ _ hleft

/-! ### Who pays whom -/

/-- Every winner is paid once: by the seat that is liable for it, or else by the discarder. A
payment of nothing counts, too. -/
def RightSeats (rule : RoomRule) (evaluate : Seat → Evaluation) (discarder : Seat)
    (winners : List Seat) (log : List Payment) : Prop :=
  ∀ winPos ∈ winners, (log.filter (·.winner = winPos)).map Payment.payer =
    [((evaluate winPos).baoPai rule).getD discarder]

/-- The winners come in order, and each is paid by its liable seat or by the one that pays for
all. -/
lemma payments_map (winners : List Seat) (fangPaoPos : Seat) :
    (payments rule leftMoney evaluate winners fangPaoPos).map (fun p => (p.winner, p.payer)) =
      ((payOrder fangPaoPos).filter (· ∈ winners)).map fun winPos =>
        (winPos, ((evaluate winPos).baoPai rule).getD fangPaoPos) := by
  unfold payments
  split_ifs with hjyz
  · have hbao : ∀ winPos, (evaluate winPos).baoPai rule = none := fun _ => if_pos hjyz
    simp only [hbao, Option.getD_none]
    generalize leftMoney fangPaoPos = left
    induction payOrder fangPaoPos generalizing left with
    | nil => rfl
    | cons pos order ih =>
      rw [paymentsJYZ, List.filter_cons]
      by_cases hwin : pos ∈ winners
      · simp only [hwin, if_true, decide_true, List.map_cons, ih]
      · simp only [hwin, if_false, decide_false, Bool.false_eq_true, ih]
  · generalize leftMoney = left
    induction payOrder fangPaoPos generalizing left with
    | nil => rfl
    | cons pos order ih =>
      rw [paymentsOpen, List.filter_cons]
      by_cases hwin : pos ∈ winners
      · simp only [hwin, if_true, decide_true, List.map_cons, ih]
      · simp only [hwin, if_false, decide_false, Bool.false_eq_true, ih]

lemma filter_payOrder : ∀ fangPaoPos winPos : Seat,
    (payOrder fangPaoPos).filter (· = winPos) = [winPos] := by
  decide

lemma payments_payer {winners : List Seat} {winPos : Seat} (hwin : winPos ∈ winners)
    (fangPaoPos : Seat) :
    ((payments rule leftMoney evaluate winners fangPaoPos).filter (·.winner = winPos)).map
      Payment.payer = [((evaluate winPos).baoPai rule).getD fangPaoPos] := by
  calc ((payments rule leftMoney evaluate winners fangPaoPos).filter (·.winner = winPos)).map
        Payment.payer
      = (((payments rule leftMoney evaluate winners fangPaoPos).map
          fun p => (p.winner, p.payer)).filter (·.1 = winPos)).map Prod.snd := by
        rw [List.filter_map, List.map_map]
        rfl
    _ = (((payOrder fangPaoPos).filter (· = winPos)).filter (· ∈ winners)).map
          fun w => ((evaluate w).baoPai rule).getD fangPaoPos := by
        rw [payments_map, List.filter_map, List.map_map, List.filter_filter, List.filter_filter]
        simp only [Function.comp_def, Bool.and_comm]
    _ = [((evaluate winPos).baoPai rule).getD fangPaoPos] := by
        rw [filter_payOrder]
        simp [hwin]

/-- For every round that several seats have won on a discarded tile: the amounts are the sum of the
recorded payments, and these come from the right seats if and only if every winner has a liable
seat, or the last liable seat, in the order of the winners, is the discarder, or there is none.

**Proof sketch.** The last liable seat takes the place of the discarder in the arguments
(`liable_eq`), and pays every winner without a liable seat; the other winners are paid by their
own. -/
theorem rightSeats_iff {discarder : Seat} (hseveral : 2 ≤ args.winnerPosList.length)
    (hdiscard : args.fangPaoPos = some discarder) :
    ∃ fangPaoPos, liable rule evaluate args = some fangPaoPos ∧
      calculateMoney rule leftMoney evaluate args =
        some (paid (payments rule leftMoney evaluate args.winnerPosList fangPaoPos)) ∧
      (RightSeats rule evaluate discarder args.winnerPosList
          (payments rule leftMoney evaluate args.winnerPosList fangPaoPos) ↔
        (∀ winPos ∈ args.winnerPosList, ((evaluate winPos).baoPai rule).isSome) ∨
          ∀ pos ∈ (liableSeats rule evaluate args.winnerPosList).getLast?, pos = discarder) := by
  have hpays : liable rule evaluate args =
      some ((liableSeats rule evaluate args.winnerPosList).getLast?.getD discarder) := by
    rw [liable_eq, hdiscard]
    cases (liableSeats rule evaluate args.winnerPosList).getLast? <;> rfl
  refine ⟨_, hpays, calculateMoney_eq_paid (by omega) hpays, ?_⟩
  set last := (liableSeats rule evaluate args.winnerPosList).getLast? with hlast
  have hsame : last.getD discarder = discarder ↔ ∀ pos ∈ last, pos = discarder := by
    cases last with
    | none => simp
    | some pos => simp
  rw [← hsame]
  constructor
  · intro hright
    by_contra hnot
    simp only [not_or, not_forall] at hnot
    obtain ⟨⟨winPos, hwin, hfree⟩, hother⟩ := hnot
    have hseat := hright winPos hwin
    rw [payments_payer hwin, Option.not_isSome_iff_eq_none.mp hfree] at hseat
    exact hother (List.singleton_inj.mp hseat)
  · rintro (hall | heq) winPos hwin
    · obtain ⟨pos, hpos⟩ := Option.isSome_iff_exists.mp (hall winPos hwin)
      rw [payments_payer hwin, hpos]
      rfl
    · rw [payments_payer hwin, heq]

end Settle

/-! ### Settlements -/

/-- An open-head room with the stake 1, without a score limit. -/
def unlimited : RoomRule := ⟨false, 0, false, 1, 8⟩

/-- An open-head room with the stake 1 and the limit 30. -/
def limited30 : RoomRule := ⟨false, 30, false, 1, 8⟩

/-- The first seat has discarded the tile 5, and the second and the third win. -/
def twoWinners : EndArgs := ⟨false, false, some 0, [1, 2], some 5, false, some 1, []⟩

/-- Hands of 20 fan; for the third seat `pos` is liable. -/
def fedBy (pos : Seat) (i : Seat) : Evaluation := ⟨20, if i = 2 then some pos else none, false⟩

/-- The first seat is liable for the third, too: it has 30 left for both winners. -/
theorem two_winners_paid :
    ∃ money, calculateMoney limited30 (fun _ => 30) (fedBy 0) twoWinners = some money ∧
      money 0 = -30 ∧ money 1 = 20 ∧ money 2 = 10 ∧ Sound limited30 (fun _ => 30) money := by
  have hsettles : ∃ money, calculateMoney limited30 (fun _ => 30) (fedBy 0) twoWinners =
      some money ∧ Sound limited30 (fun _ => 30) money :=
    calculateMoney_zero_sum (by decide) (.inr ⟨rfl, rfl⟩)
  obtain ⟨money, hmoney, hsound⟩ := hsettles
  have hvalues : ((calculateMoney limited30 (fun _ => 30) (fedBy 0) twoWinners).any fun money =>
      money 0 = -30 ∧ money 1 = 20 ∧ money 2 = 10) = true := by decide
  rw [hmoney] at hvalues
  simp only [Option.any_some, decide_eq_true_eq] at hvalues
  exact ⟨money, hmoney, hvalues.1, hvalues.2.1, hvalues.2.2, hsound⟩

/-- The discarder is liable for the third seat: both winners are paid by the right seat. -/
theorem discarder_pays_both : ∃ fangPaoPos, liable unlimited (fedBy 0) twoWinners = some fangPaoPos ∧
    RightSeats unlimited (fedBy 0) 0 [1, 2]
      (payments unlimited (fun _ => 0) (fedBy 0) [1, 2] fangPaoPos) := by
  obtain ⟨fangPaoPos, hpays, -, hright⟩ :=
    @rightSeats_iff unlimited (fun _ => 0) (fedBy 0) twoWinners 0 (by decide) rfl
  exact ⟨fangPaoPos, hpays, hright.mpr (.inr (by decide))⟩

/-- The fourth seat is liable for the third: it pays the second as well, and the discarder
nothing. -/
theorem liable_pays_other_winner : ∃ fangPaoPos money,
    liable unlimited (fedBy 3) twoWinners = some fangPaoPos ∧
    calculateMoney unlimited (fun _ => 0) (fedBy 3) twoWinners = some money ∧
    money 0 = 0 ∧ money 1 = 20 ∧ money 2 = 20 ∧ money 3 = -40 ∧
    ¬ RightSeats unlimited (fedBy 3) 0 [1, 2]
      (payments unlimited (fun _ => 0) (fedBy 3) [1, 2] fangPaoPos) := by
  refine ⟨3, _, rfl, rfl, by decide, by decide, by decide, by decide, ?_⟩
  intro hright
  exact absurd (hright 1 (by decide)) (by decide)

end Nanjing
