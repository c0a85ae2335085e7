import JsmjServer.Tongxiang.PlayedOut
import JsmjServer.Tongxiang.Winners
import JsmjServer.Tongxiang.GameEnd
import JsmjServer.Lib.Transfers

set_option relaxedAutoImplicit false
set_option autoImplicit false

/-!
# The ledger of a tongxiang room

The kong points of a round are collected while it is played, shown in the details of its result, and
added to the payments for the win. A drawn round shows them and books zeros.

## Main definitions

* `Tongxiang.winPays`, `Tongxiang.winPayment` — who pays whom for a win, and the net amounts.
* `Tongxiang.Matches` — the entry booked is the payment for the win with the points shown.

## Main results

* `Tongxiang.step_gang` — the kong points of a round sum to zero.
* `Tongxiang.Won.settled` — a round that is won has one winner, and its settlement does not stop.
* `Tongxiang.ledger_iff` — the ledger is right exactly when no drawn round has kong points.
-/

namespace Tongxiang

open Mahjong

/-! ### Payments for a win -/

/-- What a payer owes a winner: the value of its hand, three times for a robbed kong, capped. -/
def handValue (info : RoomInfo) (s : Game) (args : EndArgs) (w : Seat) : ℤ :=
  let fan : ℕ := (calculate s w args.isZiMo).getD 0
  fengDing info.roomRuleMap 16 ((if args.isQiangGang then fan * 3 else fan : ℕ) * info.unitCoin)

/-- The seat `q` pays the seat `p`: all others pay a winner that has drawn the tile, otherwise the
seat does whose tile it is. -/
def winPays (info : RoomInfo) (s : Game) (args : EndArgs) (p q : Seat) : ℤ :=
  if p ∈ args.winnerPosList then
    if args.isZiMo then if q = p then 0 else handValue info s args p
    else if args.fangPaoPos = some q then handValue info s args p else 0
  else 0

/-- The net payment for the win; zero in a drawn round. -/
def winPayment (info : RoomInfo) (rd : Round) : Seat → ℤ :=
  Transfers.net (winPays info rd.final rd.args)

/-- The entry of the round is the payment for the win together with the kong points shown. -/
def Matches (info : RoomInfo) (rd : Round) : Prop :=
  ∀ p, ∃ gang, rd.shown p = some gang ∧ rd.score p = winPayment info rd p + gang

/-! ### Kong points -/

section Gang

variable (rule : RoomRuleMap) {s s' : Game} {t p : Seat}

lemma sum_tbMoney (p : Seat) (loss : ℤ) : ∑ i, tbMoney p (3 * loss) loss i = 0 := by
  have hsplit : ∀ i, tbMoney p (3 * loss) loss i = (if i = p then 4 * loss else 0) - loss := by
    intro i
    unfold tbMoney
    split_ifs <;> ring
  rw [Finset.sum_congr rfl fun i _ => hsplit i, Finset.sum_sub_distrib, Finset.sum_ite_eq']
  simp

lemma sum_addRoundGangScore (s : Game) (p : Seat) (loss : ℤ) :
    ∑ i, (addRoundGangScore s (tbMoney p (3 * loss) loss)).roundGangScore i =
      ∑ i, s.roundGangScore i := by
  have hadd := Finset.sum_add_distrib (s := Finset.univ) (f := s.roundGangScore)
    (g := tbMoney p (3 * loss) loss)
  rw [sum_tbMoney, add_zero] at hadd
  exact hadd

lemma offerTurn_gang (s : Game) (t : Seat) (bHu : Bool) :
    (offerTurn s t bHu).roundGangScore = s.roundGangScore := by
  obtain ⟨xiangGong, hframe⟩ := offerTurn_frame s t bHu
  rw [hframe]

lemma checkMyOper_gang (s : Game) (t : Seat) (b : Bool) :
    (checkMyOper rule s t b).state.roundGangScore = s.roundGangScore := by
  unfold checkMyOper
  dsimp only
  split_ifs
  · rfl
  · rfl
  · exact offerTurn_gang _ t _

lemma giveNewCard_gang (s : Game) (t : Seat) :
    (giveNewCard rule s t).state.roundGangScore = s.roundGangScore := by
  unfold giveNewCard
  cases takeCard s.toTable t with
  | none => rfl
  | some r => exact checkMyOper_gang rule _ t false

lemma doMXGang_gang (s : Game) (p : Seat) (c : ℕ) :
    ∑ i, (doMXGang rule s p c).state.roundGangScore i = ∑ i, s.roundGangScore i := by
  by_cases hr : ((s.playerList p).doMXGang c).1 = true
  · obtain ⟨gangPiao, hcases⟩ := doMXGang_cases rule hr
    have hadded : ∑ i, (added s p c gangPiao).roundGangScore i = ∑ i, s.roundGangScore i :=
      sum_addRoundGangScore { used s p ((s.playerList p).doMXGang c).2 with gangPiao := gangPiao } p 1
    rcases hcases with heq | ⟨l, r, -, -, -, ⟨heq, -⟩ | heq | heq⟩ <;> rw [heq]
    · rw [giveNewCard_gang]
      exact hadded
    · exact hadded
    · exact hadded
    · rw [giveNewCard_gang]
      exact hadded
  · rw [doMXGang, if_neg hr]
    rfl

/-- What is carried out moves kong points from seat to seat. -/
lemma Decided.gang_sum {r : Handled} (hd : Decided rule s r) :
    ∑ i, r.state.roundGangScore i = ∑ i, s.roundGangScore i := by
  cases hd with
  | stay => rfl
  | stop => rfl
  | pass _ _ => rw [giveNewCard_gang]
  | kong _ _ => rw [giveNewCard_gang]
  | @peng t q b r hc htake _ heq =>
    by_cases hr : ((s.playerList q).doPeng b t).1 = true
    · rw [doPeng_eq rule hr] at heq
      rw [← Option.some.inj heq, checkMyOper_gang]
      rfl
    · rw [doPeng, if_neg hr] at heq
      cases heq
  | @gang t q b r hc htake heq =>
    by_cases hr : ((s.playerList q).doGang b t).1 = true
    · obtain ⟨gangPiao, heq'⟩ := doGang_eq rule hr
      rw [heq'] at heq
      rw [← Option.some.inj heq, giveNewCard_gang]
      exact sum_addRoundGangScore
        { used s q ((s.playerList q).doGang b t).2 with gangPiao := gangPiao } q 1
    · rw [doGang, if_neg hr] at heq
      cases heq
  | @chi t q b o hc htake _ _ =>
    by_cases hr : ((s.playerList q).doChi b o t).1 = true
    · rw [doChi_eq rule hr, checkMyOper_gang]
      rfl
    · rw [doChi, if_neg hr]
      rfl
  | @anGang t c ht =>
    by_cases hr : ((s.playerList t).doAnGang c t).1 = true
    · obtain ⟨gangPiao, heq⟩ := doAnGang_eq rule hr
      rw [heq, giveNewCard_gang]
      exact sum_addRoundGangScore
        { used s t ((s.playerList t).doAnGang c t).2 with gangPiao := gangPiao } t 2
    · rw [doAnGang, if_neg hr]
      rfl
  | mxGang c ht => exact doMXGang_gang rule s _ c

lemma discard_gang (s : Game) (p : Seat) (b : ℕ) (player : MJPlayer) :
    (discard s p b player).roundGangScore = s.roundGangScore := by
  obtain ⟨gangPiao, grab, map, n, hframe⟩ := discard_frame s p b player
  rw [hframe]

lemma onPlayCard_gang {b : ℕ} (ht : Turn s t) (hr : ((s.playerList t).doPlayCard b).1 = true) :
    (onPlayCard rule s t (some b)).state.roundGangScore = s.roundGangScore := by
  obtain ⟨l, r, -, -, -, ⟨heq, -⟩ | ⟨heq, -⟩ | ⟨heq, -⟩⟩ := onPlayCard_cases rule ht hr <;> rw [heq]
  · exact discard_gang s t b _
  · exact discard_gang s t b _
  · rw [giveNewCard_gang]
    exact discard_gang s t b _

lemma Outcome.gang_sum {oper : Option Oper} {card : Option ℕ} {r : Handled}
    (ho : Outcome rule s p oper card r) :
    ∑ i, r.state.roundGangScore i = ∑ i, s.roundGangScore i := by
  cases ho with
  | same => rfl
  | stop => rfl
  | ask _ => rfl
  | wait _ _ => rfl
  | decide _ _ hd => exact hd.gang_sum rule
  | declare _ => rfl
  | play ht hr => rw [onPlayCard_gang rule ht hr]

/-- The kong points of a round sum to what they did before the step. -/
lemma step_gang {e : Seat × ClientMsg} (h : Going s) (hstep : step rule s e = some s') :
    ∑ i, s'.roundGangScore i = ∑ i, s.roundGangScore i := by
  obtain ⟨r, hout, rfl⟩ := step_outcome h hstep
  exact hout.gang_sum rule

end Gang

/-! ### The settlement of a round that is won -/

section Settle

variable {s : Game} {args : EndArgs} {w t : Seat}

/-- The arguments of a round that is won: one seat has won, with its own tile or with that of
another seat, and the evaluation of its hand does not stop. -/
structure Settled (s : Game) (args : EndArgs) (w : Seat) : Prop where
  endArgs : s.endArgs = some args
  won : args.isLiuJu = false
  winner : args.winnerPosList = [w]
  payer : (args.isZiMo = true ∧ args.isQiangGang = false) ∨
    (args.isZiMo = false ∧ ∃ t, args.fangPaoPos = some t ∧ t ≠ w)
  fan : ∃ fan, calculate s w args.isZiMo = some fan

lemma Won.settled (h : Won s) : ∃ args w, Settled s args w := by
  obtain ⟨args, hover, hcalc⟩ := h.calculate
  obtain ⟨s₀, p, c, hgo, hch, rfl⟩ := h
  have hargs := Option.some.inj hover
  suffices hwin : ∃ w, args.winnerPosList = [w] ∧
      ((args.isZiMo = true ∧ args.isQiangGang = false) ∨
        (args.isZiMo = false ∧ ∃ t, args.fangPaoPos = some t ∧ t ≠ w)) by
    obtain ⟨w, hwinner, hpayer⟩ := hwin
    refine ⟨args, w, hover, by rw [← hargs], hwinner, hpayer, ?_⟩
    exact Option.ne_none_iff_exists'.mp (hcalc w (by simp [hwinner]))
  rw [← hargs]
  rcases hgo.phase with ⟨t, ht⟩ | ⟨t, b, hc⟩ | hs
  · obtain ⟨rfl, hdo⟩ := ht.opers p .hu hch.1
    obtain ⟨hziMo, -⟩ : s₀.bZiMo p = true ∧ isPiaoGang s₀ p = false := by simpa [MayDo] using hdo
    exact ⟨p, if_pos hziMo, Or.inl ⟨hziMo, ht.quiet⟩⟩
  · have hz : s₀.bZiMo p = false := by simp [Table.bZiMo, hc.newCard p]
    have hp : p ∈ s₀.multiHuPos := by
      rcases hc.opers p .hu hch.1 with h | ⟨-, h⟩ | h
      · exact absurd h (by decide)
      · exact h
      · rcases h.kind with h | h | h | h | h <;> exact absurd h (by decide)
    have hpos : (s₀.playerGrabMgr.playerDoGrab p .hu (some c)).2.pos = some t :=
      (PlayerGrabMgr.pos_playerDoGrab _).trans hc.pos
    obtain ⟨w, hw, heq, -⟩ := winner_spec hc hp
    refine ⟨w, ?_, Or.inr ⟨hz, t, hpos, ?_⟩⟩
    · have hz' : (afterChoice s₀ p .hu c s₀.mjCancelMgr).bZiMo p = false := hz
      have hpos' : (afterChoice s₀ p .hu c s₀.mjCancelMgr).playerGrabMgr.pos = some t := hpos
      simp only [hz', hpos', Bool.false_eq_true, if_false]
      exact heq
    · rintro rfl
      exact hc.multi.1 hw
  · have hmem := hch.1
    simp [hs p] at hmem

/-- The cap on a win that three seats pay is the cap on each of the payments. -/
lemma fengDing_three (rule : RoomRuleMap) (m : ℤ) :
    fengDing rule 48 (3 * m) = 3 * fengDing rule 16 m := by
  unfold fengDing
  cases rule.tx_extrarule2_16fd with
  | false => simp
  | true =>
    by_cases h : 16 ≤ m
    · have h' : 48 ≤ 3 * m := by omega
      simp [h, h']
    · have h' : ¬48 ≤ 3 * m := by omega
      simp [h, h']

/-- All others pay a winner that has drawn the tile. -/
lemma Settled.payAll (h : Settled s args w) (info : RoomInfo) (hz : args.isZiMo = true) (p : Seat) :
    Tongxiang.payAll (fun _ => 0) w (3 * handValue info s args w) p =
      Transfers.net (winPays info s args) p := by
  have hpays : winPays info s args =
      Transfers.fromOthers fun p => if p = w then handValue info s args w else 0 := by
    funext p q
    by_cases hp : p = w <;> simp [winPays, Transfers.fromOthers, h.winner, hz, hp]
  have hthird : -(-(3 * handValue info s args w) / 3) = handValue info s args w := by
    omega
  rw [hpays, Transfers.net_fromOthers, Transfers.sum_ite_eq_zero, Tongxiang.payAll, hthird]
  by_cases hp : p = w
  · simp [hp]
  · simp [hp]

/-- One seat pays the winner on its tile. -/
lemma Settled.payOne (h : Settled s args w) (info : RoomInfo) (hz : args.isZiMo = false)
    (ht : args.fangPaoPos = some t) (hne : t ≠ w) (p : Seat) :
    Tongxiang.payOne (fun _ => 0) w t (handValue info s args w) p =
      Transfers.net (winPays info s args) p := by
  have hpays : winPays info s args = Transfers.fromOne (· = w) t (handValue info s args w) := by
    funext p q
    have hpayer : args.fangPaoPos = some q ↔ q = t := by
      rw [ht, Option.some.injEq, eq_comm]
    by_cases hp : p = w <;> simp [winPays, Transfers.fromOne, h.winner, hz, hpayer, hp]
  rw [hpays, Transfers.net_fromOne, Tongxiang.payOne]
  by_cases hp : p = w
  · subst hp
    simp [hne.symm]
  · by_cases hpt : p = t
    · subst hpt
      simp [hp]
    · simp [hp, hpt]

/-- The loop books the payments for the win and the kong points once. -/
lemma Settled.calculateMoney (h : Settled s args w) (info : RoomInfo)
    (hgang : info.roomRuleMap.tx_extrarule1_gangf = true) :
    calculateMoney info.roomRuleMap info.unitCoin s args = some fun p =>
      Transfers.net (winPays info s args) p + s.roundGangScore p := by
  obtain ⟨fan, hfan⟩ := h.fan
  suffices hpay : ∃ money, payWinner info.roomRuleMap info.unitCoin args w fan (fun _ => 0) =
      some money ∧ ∀ p, money p = Transfers.net (winPays info s args) p by
    obtain ⟨money, hmoney, hnet⟩ := hpay
    simp only [Tongxiang.calculateMoney, h.winner, payWinners, hfan, hmoney, addGang, hgang,
      if_true, hnet]
  have hvalue : handValue info s args w = fengDing info.roomRuleMap 16
      ((if args.isQiangGang then fan * 3 else fan : ℕ) * info.unitCoin) := by
    simp only [handValue, hfan, Option.getD_some]
  rcases h.payer with ⟨hz, hq⟩ | ⟨hz, t, ht, hne⟩
  · refine ⟨_, ?_, h.payAll info hz⟩
    have htotal : ((getTotalFan args fan : ℕ) : ℤ) * info.unitCoin = 3 * (fan * info.unitCoin) := by
      simp only [getTotalFan, hz, hq, if_true, Bool.false_eq_true, if_false]
      push_cast
      ring
    rw [hvalue]
    simp only [payWinner, hq, hz, Bool.not_true, Bool.false_eq_true, if_false, htotal,
      fengDing_three]
  · refine ⟨_, ?_, h.payOne info hz ht hne⟩
    have htotal : getTotalFan args fan = if args.isQiangGang then fan * 3 else fan := by
      simp [getTotalFan, hz]
    rw [hvalue]
    simp only [payWinner, ht, hz, htotal, Bool.not_false, if_true, Option.map_some, ite_self]

end Settle

/-! ### The rooms -/

/-- A finished round: it has ended in a draw or has been won, its kong points sum to zero, and its
entry and the points shown are those of the settlement. -/
structure Booked (info : RoomInfo) (rd : Round) : Prop where
  endArgs : rd.final.endArgs = some rd.args
  ended : rd.args = .liuJu ∨ Won rd.final
  gang : ∑ p, rd.final.roundGangScore p = 0
  score : gameEnd info.roomRuleMap info.unitCoin rd.final rd.args = some rd.score
  shown : rd.shown = details info.roomRuleMap rd.final

/-- A room in which every finished round has been booked, and the round that is played goes on. -/
structure Room.Kept (info : RoomInfo) (r : Room) : Prop where
  going : r.playing = true → Going r.game ∧ ∑ p, r.game.roundGangScore p = 0
  fresh : r.playing = false → r.disbanded = false → r.game.roundGangScore = fun _ => 0
  booked : ∀ rd ∈ r.rounds, Booked info rd

section Rooms

variable {info : RoomInfo} {r r' : Room} {rd : Round}

/-- A drawn round books zeros, and one that is won the payments with the kong points. -/
lemma gameEnd_eq {s : Game} {args : EndArgs}
    (hgang : info.roomRuleMap.tx_extrarule1_gangf = true) (hover : s.endArgs = some args)
    (hended : args = .liuJu ∨ Won s) :
    gameEnd info.roomRuleMap info.unitCoin s args = some fun p =>
      if args.isLiuJu then 0 else Transfers.net (winPays info s args) p + s.roundGangScore p := by
  rcases hended with rfl | hwon
  · rfl
  · obtain ⟨args', w, hset⟩ := hwon.settled
    obtain rfl : args' = args := by simpa [hover, eq_comm] using hset.endArgs
    simp only [gameEnd, hset.won, Bool.false_eq_true, if_false, hset.calculateMoney info hgang]

/-- The end of a round keeps the room. -/
lemma endRound_kept {s : Game} {args : EndArgs}
    (hrule : info.roomRuleMap.tx_extrarule1_gangf = true) (h : r.Kept info)
    (hover : s.endArgs = some args) (hended : args = .liuJu ∨ Won s)
    (hgang : ∑ p, s.roundGangScore p = 0) : (endRound info r s args).Kept info := by
  obtain ⟨score, hscore⟩ : ∃ score, gameEnd info.roomRuleMap info.unitCoin s args = some score :=
    ⟨_, gameEnd_eq hrule hover hended⟩
  have hbooked : ∀ rd ∈ r.rounds ++ [⟨s, args, score, details info.roomRuleMap s⟩],
      Booked info rd := by
    intro rd hrd
    rcases List.mem_append.mp hrd with hrd | hrd
    · exact h.booked rd hrd
    · rw [List.mem_singleton.mp hrd]
      exact ⟨hover, hended, hgang, hscore, rfl⟩
  unfold endRound
  rw [hscore]
  dsimp only
  split_ifs
  · refine ⟨fun hp => ?_, fun _ hd => ?_, hbooked⟩
    · cases hp
    · cases hd
  · refine ⟨fun hp => ?_, fun _ _ => rfl, hbooked⟩
    cases hp

lemma roomStep_kept {e : RoomEvent} (hrule : info.roomRuleMap.tx_extrarule1_gangf = true)
    (h : r.Kept info) (hok : Follows r e) (hstep : roomStep info r e = some r') :
    r'.Kept info := by
  cases e with
  | start d =>
    simp only [roomStep] at hstep
    split_ifs at hstep with hidle
    simp only [Bool.or_eq_true, decide_eq_true_eq, not_or, Bool.not_eq_true] at hidle
    obtain rfl := Option.some.inj hstep
    obtain ⟨s, hentry, hgo, -⟩ := onEntry_turn info.roomRuleMap d
    have hfresh : (onEntry info.roomRuleMap d).state.roundGangScore = fun _ => 0 := by
      have hlast : d.last = r.game := hok
      calc (onEntry info.roomRuleMap d).state.roundGangScore
          = d.last.roundGangScore := checkMyOper_gang _ (dealt d) d.banker false
        _ = fun _ => 0 := by rw [hlast, h.fresh hidle.1.1 hidle.1.2]
    refine ⟨fun _ => ⟨?_, ?_⟩, fun hp => ?_, h.booked⟩
    · rw [hentry]
      exact hgo
    · rw [hfresh]
      simp
    · cases hp
  | msg e =>
    simp only [roomStep] at hstep
    split_ifs at hstep with hidle
    rw [Bool.not_eq_true, Bool.not_eq_false'] at hidle
    obtain ⟨s, hs, hr⟩ := Option.map_eq_some_iff.mp hstep
    obtain ⟨hgo, hsum⟩ := h.going hidle
    have hsum' : ∑ p, s.roundGangScore p = 0 := (step_gang _ hgo hs).trans hsum
    rcases hgo.step hs with hgo' | hdrawn | hwon
    · rw [hgo'.going] at hr
      rw [← hr]
      refine ⟨fun _ => ⟨hgo', hsum'⟩, fun hp => ?_, h.booked⟩
      change r.playing = false at hp
      rw [hidle] at hp
      cases hp
    · rw [hdrawn] at hr
      rw [← hr]
      exact endRound_kept hrule h hdrawn (Or.inl rfl) hsum'
    · obtain ⟨args, w, hset⟩ := hwon.settled
      rw [hset.endArgs] at hr
      rw [← hr]
      exact endRound_kept hrule h hset.endArgs (Or.inr hwon) hsum'
  | disband =>
    simp only [roomStep] at hstep
    split_ifs at hstep
    obtain rfl := Option.some.inj hstep
    refine ⟨fun hp => ?_, fun _ hd => ?_, h.booked⟩
    · cases hp
    · cases hd

lemma room_kept (hrule : info.roomRuleMap.tx_extrarule1_gangf = true)
    (h : Runs.Reaches (roomStep info) Follows newRoom r) : r.Kept info := by
  have hnew : newRoom.Kept info := by
    refine ⟨fun hp => ?_, fun _ _ => rfl, fun rd hrd => ?_⟩
    · cases hp
    · cases hrd
  exact h.invariant (I := fun r => r.Kept info) hnew fun r e r' => roomStep_kept hrule

/-- The scores booked for a round. -/
lemma Booked.score_eq (h : Booked info rd) (hrule : info.roomRuleMap.tx_extrarule1_gangf = true)
    (p : Seat) : rd.score p =
      if rd.args.isLiuJu then 0 else winPayment info rd p + rd.final.roundGangScore p := by
  have hscore := h.score
  rw [gameEnd_eq hrule h.endArgs h.ended] at hscore
  rw [← Option.some.inj hscore]
  rfl

/-- Nobody pays in a drawn round. -/
lemma winPayment_liuJu (h : rd.args = .liuJu) (p : Seat) : winPayment info rd p = 0 := by
  simp [winPayment, Transfers.net, winPays, h, EndArgs.liuJu]

lemma Booked.sum_score (h : Booked info rd) (hrule : info.roomRuleMap.tx_extrarule1_gangf = true) :
    ∑ p, rd.score p = 0 := by
  rw [Finset.sum_congr rfl fun p _ => h.score_eq hrule p]
  cases rd.args.isLiuJu with
  | true => simp
  | false =>
    simp only [Bool.false_eq_true, if_false]
    rw [Finset.sum_add_distrib, h.gang, winPayment, Transfers.sum_net, add_zero]

lemma Booked.matches_iff (h : Booked info rd)
    (hrule : info.roomRuleMap.tx_extrarule1_gangf = true) :
    Matches info rd ↔ (rd.args.isLiuJu = true → ∀ p, rd.final.roundGangScore p = 0) := by
  have hshown : ∀ p, rd.shown p = some (rd.final.roundGangScore p) := by
    intro p
    rw [h.shown, details, if_pos hrule]
  cases hdraw : rd.args.isLiuJu with
  | true =>
    have hargs : rd.args = .liuJu := by
      refine h.ended.resolve_right fun hwon => ?_
      obtain ⟨args, w, hset⟩ := hwon.settled
      obtain rfl : args = rd.args := by simpa [h.endArgs, eq_comm] using hset.endArgs
      rw [hset.won] at hdraw
      cases hdraw
    have hzero : ∀ p, rd.score p = 0 := by
      intro p
      rw [h.score_eq hrule, if_pos hdraw]
    constructor
    · intro hm _ p
      obtain ⟨gang, hgang, heq⟩ := hm p
      rw [hshown] at hgang
      rw [hzero, winPayment_liuJu hargs, ← Option.some.inj hgang, zero_add] at heq
      exact heq.symm
    · intro hgang p
      refine ⟨_, hshown p, ?_⟩
      rw [hzero, winPayment_liuJu hargs, hgang rfl p, add_zero]
  | false =>
    refine ⟨fun _ hdraw => ?_, fun _ p => ⟨_, hshown p, ?_⟩⟩
    · cases hdraw
    · rw [h.score_eq hrule, hdraw]
      rfl

end Rooms

/-- In every VIP room in which kong points count, whatever the stake and the cap: the round that is
played is not over, so that every round that has ended has been booked; the entry of every finished
round sums to zero; and it is the payment for the win together with the kong points shown exactly
when the round is won or nobody has kong points.

**Proof sketch.** Every kong moves points from the three other seats to its own. A round is won by
one seat, so that the loop over the winners adds the points once, and the payment of three seats is
divided evenly also when it is capped. -/
theorem ledger_iff (info : RoomInfo) (hrule : info.roomRuleMap.tx_extrarule1_gangf = true) (r : Room)
    (h : Runs.Reaches (roomStep info) Follows newRoom r) :
    (r.playing = true → r.game.endArgs = none) ∧
    ∀ rd ∈ r.rounds, rd.final.endArgs = some rd.args ∧ ∑ p, rd.score p = 0 ∧
      (Matches info rd ↔ (rd.args.isLiuJu = true → ∀ p, rd.final.roundGangScore p = 0)) := by
  have hkept := room_kept hrule h
  refine ⟨fun hp => (hkept.going hp).1.going, fun rd hrd => ?_⟩
  have hbooked := hkept.booked rd hrd
  exact ⟨hbooked.endArgs, hbooked.sum_score hrule, hbooked.matches_iff hrule⟩

/-! ### A round that is won, and one that is drawn -/

/-- One point a fan, kong points, no cap, eight rounds. -/
def gangRoom : RoomInfo := ⟨⟨false, true, false⟩, 1, 8⟩

/-- The next seat wins with the first tile: it is paid, and nobody has kong points. -/
theorem ledger_won : ∃ r rd, Runs.Reaches (roomStep gangRoom) Follows newRoom r ∧
    r.rounds = [rd] ∧ rd.args.isLiuJu = false ∧ ∑ p, rd.score p = 0 ∧ Matches gangRoom rd := by
  have hrun : (((roomStep gangRoom newRoom (.start pairedDeal)).bind fun r =>
      (roomStep gangRoom r (.msg (0, ⟨10, 69⟩))).bind fun r =>
        roomStep gangRoom r (.msg (1, ⟨1, 69⟩))).any fun r =>
          decide (r.rounds.length = 1) && r.rounds.all fun rd => !rd.args.isLiuJu) = true := by
    decide +kernel
  obtain ⟨r, hr, hend⟩ := (Option.any_eq_true _ _).mp hrun
  obtain ⟨r₁, h₁, hr⟩ := Option.bind_eq_some_iff.mp hr
  obtain ⟨r₂, h₂, h₃⟩ := Option.bind_eq_some_iff.mp hr
  rw [Bool.and_eq_true, decide_eq_true_eq, List.all_eq_true] at hend
  obtain ⟨rd, hrd⟩ := List.length_eq_one_iff.mp hend.1
  have hreach : Runs.Reaches (roomStep gangRoom) Follows newRoom r :=
    ((Runs.Reaches.init.step (show Follows newRoom (.start pairedDeal) from rfl) h₁).step
      (show Follows r₁ (.msg _) from trivial) h₂).step (show Follows r₂ (.msg _) from trivial) h₃
  have hwon : rd.args.isLiuJu = false := by simpa using hend.2 rd (by simp [hrd])
  obtain ⟨-, hsum, hiff⟩ := (ledger_iff gangRoom rfl r hreach).2 rd (by simp [hrd])
  refine ⟨r, rd, hreach, hrd, hwon, hsum, hiff.mpr fun hdraw => ?_⟩
  rw [hwon] at hdraw
  cases hdraw

section Drawn

variable {info : RoomInfo} {r : Room} {s : Game}

/-- The steps of a round in its room. -/
lemma room_of_reaches {ok : Game → Seat × ClientMsg → Prop} (hp : r.playing = true)
    (hgo : r.game.endArgs = none) (h : Runs.Reaches (step info.roomRuleMap) ok r.game s) :
    (s.endArgs = none → Runs.Reaches (roomStep info) Follows r { r with game := s }) ∧
      ∀ args, s.endArgs = some args → Runs.Reaches (roomStep info) Follows r (endRound info r s args) := by
  induction h with
  | init =>
    refine ⟨fun _ => .init, fun args hargs => ?_⟩
    rw [hgo] at hargs
    cases hargs
  | @step s₁ s₂ e _ _ hstep ih =>
    have hover : s₁.endArgs = none := by
      cases hover : s₁.endArgs with
      | none => rfl
      | some args => simp [step, hover] at hstep
    have hroom := ih.1 hover
    have hend : ∀ args, endRound info { r with game := s₁ } s₂ args = endRound info r s₂ args :=
      fun _ => rfl
    simp only [hp] at hend
    have hok : Follows { r with game := s₁ } (.msg e) := trivial
    refine ⟨fun hnone => hroom.step hok ?_, fun args hargs => hroom.step hok ?_⟩
    · simp [roomStep, hp, hstep, hnone]
    · simp [roomStep, hp, hstep, hargs, hend]

end Drawn

/-- The banker has a concealed kong of `4`. -/
def gangHands : List ℕ :=
  [1, 4, 4, 4, 4, 7, 7, 7, 7, 31, 31, 31, 31] ++ [1, 11, 11, 11, 11, 14, 14, 14, 14, 17, 17, 17, 17] ++
  [1, 21, 21, 21, 21, 24, 24, 24, 24, 27, 27, 27, 27] ++
  [1, 32, 32, 32, 32, 33, 33, 33, 33, 34, 34, 34, 34] ++ [35]

/-- The wild tile is `37`. -/
def gangDeal : Deal where
  wall := gangHands ++ wallTiles.diff gangHands
  perm := by decide +kernel
  banker := 0
  m_bBaoZi := false
  baiDa := 37
  fanDa := by decide +kernel
  last := newGame
  asked := newGame_asked

/-- The banker declares the kong, and the round is played out: six points are shown for it, and
nothing is booked. -/
theorem drawn_gang_lost : ∃ r rd, Runs.Reaches (roomStep gangRoom) Follows newRoom r ∧
    rd ∈ r.rounds ∧ rd.args.isLiuJu = true ∧ rd.shown 0 = some 6 ∧ rd.score 0 = 0 ∧
    ¬Matches gangRoom rd := by
  have hrun : (((roomStep gangRoom newRoom (.start gangDeal)).bind fun r =>
      roomStep gangRoom r (.msg (0, ⟨4, 68⟩))).any fun r =>
        r.playing && r.game.endArgs.isNone && r.game.playerGrabMgr.hasOper 0 .play &&
          decide (r.game.roundGangScore 0 = 6 ∧ (r.game.playerList 0).newCard ≤ Zi7 ∧
            (∀ c ∈ r.game.mjWall, c ≤ Zi7) ∧ ∀ p, r.game.testPlayerNeedCard p = none)) = true := by
    decide +kernel
  obtain ⟨r, hr, hend⟩ := (Option.any_eq_true _ _).mp hrun
  obtain ⟨r₁, h₁, h₂⟩ := Option.bind_eq_some_iff.mp hr
  simp only [Bool.and_eq_true, decide_eq_true_eq, Option.isNone_iff_eq_none] at hend
  obtain ⟨⟨⟨hp, hover⟩, hplay⟩, hgang, hnew, hwall, hasked⟩ := hend
  have hreach : Runs.Reaches (roomStep gangRoom) Follows newRoom r :=
    (Runs.Reaches.init.step (show Follows newRoom (.start gangDeal) from rfl) h₁).step
      (show Follows r₁ (.msg _) from trivial) h₂
  have hgo := ((room_kept rfl hreach).going hp).1
  obtain ⟨s, hs, hdrawn, hsame⟩ := (hgo.turn_of_play (PlayerGrabMgr.hasOper_iff.mp hplay)).playedOut
    gangRoom.roomRuleMap hgo ⟨hwall, hasked⟩ hnew
  have hend := (room_of_reaches hp hover hs).2 .liuJu hdrawn
  set rd : Round := ⟨s, .liuJu, fun _ => 0, details gangRoom.roomRuleMap s⟩ with hrd
  have hmem : rd ∈ (endRound gangRoom r s .liuJu).rounds := by
    have hscore : gameEnd gangRoom.roomRuleMap gangRoom.unitCoin s .liuJu = some fun _ => 0 := rfl
    simp only [endRound, hscore]
    split_ifs <;> simp [hrd]
  have hshown : rd.shown 0 = some 6 := by
    show some (s.roundGangScore 0) = some 6
    rw [hsame, hgang]
  refine ⟨_, rd, hreach.trans hend, hmem, rfl, hshown, rfl, fun hmatch => ?_⟩
  obtain ⟨gang, hg, heq⟩ := hmatch 0
  rw [hshown] at hg
  rw [winPayment_liuJu rfl, ← Option.some.inj hg] at heq
  change (0 : ℤ) = 0 + 6 at heq
  omega

end Tongxiang
