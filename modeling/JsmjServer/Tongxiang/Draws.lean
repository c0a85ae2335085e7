import JsmjServer.Tongxiang.Moves

set_option relaxedAutoImplicit false
set_option autoImplicit false

/-!
# Draws in tongxiang mahjong

A draw ends the round or gives its seat the turn, unless the evaluation of the hand stops in the
branch `飘杠`: the tile is drawn after a kong, completes the hand, and the last tile the seat has
discarded is the wild one. The table is then left without offers. No other evaluation stops, neither
in a turn that begins without a draw nor at the end of a round.

## Main definitions

* `Tongxiang.LeavesMove` — the draw has not stopped, and its seat can go on.
* `Tongxiang.PiaoGang` — the tile to be drawn leads into the branch that stops.
* `Tongxiang.Draws` — the message that makes a seat draw.

## Main results

* `Tongxiang.leavesMove_iff` — a draw is right exactly outside of that branch.
* `Tongxiang.frozen` — the table after such a draw.
-/

namespace Tongxiang

open Mahjong

/-- The handler has finished, and the round is over or the seat has a new tile it may play. -/
def LeavesMove (r : Handled) (t : Seat) : Prop :=
  ∃ s, r = .ok s ∧ (s.endArgs.isSome = true ∨
    (s.playerList t).hasNewCard = true ∧ s.playerGrabMgr.hasOper t .play = true)

/-- The next tile of the seat completes its hand, the last tile in its river is wild, and the last
thing it has done is a kong. -/
def PiaoGang (s : Game) (t : Seat) : Prop :=
  ∃ c table, takeCard s.toTable t = some (c, table) ∧
    ((s.playerList t).addNewCard c).canSelfHu [s.baiDa] = true ∧
    (s.riverCardList t).getLast? = some s.baiDa ∧
    ∃ o ∈ [Oper.mg, .ag, .mxg, .buHua], (s.opHistoryList t).getLast? = some o

/-- The handling of the message ends with a draw of the seat `t`, from the state `s₁` between two
turns. -/
def Draws (rule : RoomRuleMap) (s : Game) (e : Seat × ClientMsg) (s₁ : Game) (t : Seat) : Prop :=
  Idle s₁ t ∧ onClientMsg rule s e.1 e.2 = giveNewCard rule s₁ t

section Draw

variable {rule : RoomRuleMap} {s : Game} {t : Seat} {c : ℕ} {table : Table}

/-- The condition of the branch `飘杠` before and after the draw. -/
lemma isPiaoGang_drawn (hi : Idle s t) (htake : takeCard s.toTable t = some (c, table)) :
    isPiaoGang (drawn s table t c) t = true ↔
      (s.riverCardList t).getLast? = some s.baiDa ∧
        ∃ o ∈ [Oper.mg, .ag, .mxg, .buHua], (s.opHistoryList t).getLast? = some o := by
  obtain ⟨-, -, hnew, -, -, hhist⟩ := hi.drawn htake
  obtain ⟨-, wall, need, grab, cancel, hframe, -, -⟩ := drawn_frame hi.toSound htake
  have hriver : (drawn s table t c).riverCardList t = s.riverCardList t := by rw [hframe]
  have hbaiDa : (drawn s table t c).baiDa = s.baiDa := by rw [hframe]
  have hprev : prevOper (drawn s table t c) t = (s.opHistoryList t).getLast? := by
    rw [prevOper, hhist, List.dropLast_concat]
  rw [isPiaoGang, isGangKai, hriver, hbaiDa, hprev, (hnew t).mpr rfl, Bool.and_true,
    Bool.and_eq_true, beq_iff_eq, Option.any_eq_true]
  refine and_congr_right fun _ => exists_congr fun o => ?_
  rw [decide_eq_true_eq, and_comm]

/-- The hand after the draw. -/
lemma playerList_drawn (hi : Idle s t) (htake : takeCard s.toTable t = some (c, table)) :
    (drawn s table t c).playerList t = (s.playerList t).addNewCard c := by
  obtain ⟨-, wall, need, rfl, -, -⟩ := hi.toSound.takeCard htake
  simp [drawn, Game.record, Game.setPlayer, Table.setPlayer]

/-- The draw stops exactly in the branch `飘杠`. -/
lemma giveNewCard_error (rule : RoomRuleMap) (hi : Idle s t) :
    (∃ f s', giveNewCard rule s t = .error (f, s')) ↔ PiaoGang s t := by
  rcases giveNewCard_cases rule hi with
    ⟨htake, heq⟩ | ⟨c, table, htake, ⟨heq, hhu, hgang⟩ | ⟨hfree, s', heq, -, -⟩⟩
  · constructor
    · rintro ⟨f, s', herr⟩
      rw [heq] at herr
      cases herr
    · rintro ⟨c, table, htake', -⟩
      rw [htake] at htake'
      cases htake'
  · refine ⟨fun _ => ⟨c, table, htake, ?_, (isPiaoGang_drawn hi htake).mp hgang⟩,
      fun _ => ⟨_, _, heq⟩⟩
    rw [← playerList_drawn hi htake]
    exact hhu
  · constructor
    · rintro ⟨f, s'', herr⟩
      rw [heq] at herr
      cases herr
    · rintro ⟨c', table', htake', hhu, hgang⟩
      rw [htake] at htake'
      obtain ⟨rfl, rfl⟩ := Prod.mk.inj (Option.some.inj htake')
      rw [← playerList_drawn hi htake] at hhu
      have hstop := (isPiaoGang_drawn hi htake).mpr hgang
      rw [hfree hhu] at hstop
      cases hstop

/-- A draw that stops leaves the new tile with its seat, and no offers. -/
lemma giveNewCard_stops {f : Fault} {s' : Game} (hi : Idle s t)
    (herr : giveNewCard rule s t = .error (f, s')) :
    (∀ p, (s'.playerList p).hasNewCard = true ↔ p = t) ∧ Stuck s' := by
  rcases giveNewCard_cases rule hi with
    ⟨-, heq⟩ | ⟨c, table, htake, ⟨heq, -⟩ | ⟨-, s'', heq, -⟩⟩
  · rw [heq] at herr
    cases herr
  · rw [heq] at herr
    obtain ⟨rfl, rfl⟩ := Prod.mk.inj (Except.error.inj herr)
    refine ⟨(hi.drawn htake).2.2.1, fun p => ?_⟩
    simp [opened, PlayerGrabMgr.clear]
  · rw [heq] at herr
    cases herr

/-- A draw that does not stop leaves its seat able to move. -/
lemma leavesMove_of_ok {s' : Game} (hi : Idle s t) (hok : giveNewCard rule s t = .ok s') :
    LeavesMove (giveNewCard rule s t) t := by
  rcases giveNewCard_cases rule hi with
    ⟨-, heq⟩ | ⟨c, table, -, ⟨heq, -⟩ | ⟨-, s'', heq, -, hturn⟩⟩
  · exact ⟨_, heq, Or.inl rfl⟩
  · rw [heq] at hok
    cases hok
  · exact ⟨s'', heq, Or.inr ⟨(hturn.newCard t).mpr rfl, PlayerGrabMgr.hasOper_iff.mpr hturn.play⟩⟩

lemma Idle.leavesMove (hi : Idle s t) :
    LeavesMove (giveNewCard rule s t) t ↔ ¬PiaoGang s t := by
  rw [← giveNewCard_error rule hi]
  constructor
  · rintro ⟨s', hok, -⟩ ⟨f, s'', herr⟩
    rw [hok] at herr
    cases herr
  · intro hnot
    cases hr : giveNewCard rule s t with
    | error e => exact absurd ⟨e.1, e.2, hr⟩ hnot
    | ok s' =>
      rw [← hr]
      exact leavesMove_of_ok hi hr

end Draw

/-! ### The end of a round -/

section End

variable {rule : RoomRuleMap} {s : Game}

/-- The evaluations at the end of a round that is won do not stop: a seat that wins with its own
tile has passed the evaluation before, and nobody has a new tile when the tile of another seat is
claimed. -/
lemma Won.calculate (h : Won s) : ∃ args, s.endArgs = some args ∧
    ∀ w ∈ args.winnerPosList, calculate s w args.isZiMo ≠ none := by
  obtain ⟨s₀, p, c, hgo, hch, rfl⟩ := h
  set args : EndArgs := ⟨false, s₀.bZiMo p, _, _, some c, s₀.isQiangGanging, some p, []⟩
  refine ⟨args, rfl, fun w hw => ?_⟩
  rw [Ne, calculate_eq_none, Bool.not_eq_true]
  show isPiaoGang s₀ w = false
  rcases hgo.phase with ⟨t, ht⟩ | ⟨t, b, hc⟩ | hs
  · obtain ⟨rfl, hdo⟩ := ht.opers p .hu hch.1
    obtain ⟨hziMo, hfree⟩ : s₀.bZiMo p = true ∧ isPiaoGang s₀ p = false := by
      simpa [MayDo] using hdo
    have hwin : args.winnerPosList = [p] := if_pos hziMo
    rw [hwin, List.mem_singleton] at hw
    rw [hw]
    exact hfree
  · simp [isPiaoGang, isGangKai, hc.newCard w]
  · have hmem := hch.1
    simp [hs p] at hmem

/-- The first evaluation of a round does not stop, as no tile has been played. -/
lemma onEntry_turn (rule : RoomRuleMap) (d : Deal) :
    ∃ s, onEntry rule d = .ok s ∧ Going s ∧ Turn s d.banker := by
  obtain ⟨hsound, hnew, hjust⟩ := dealt_sound d
  rcases checkMyOper_turn rule hsound rfl hnew (fun p _ => Or.inl rfl) false (Or.inl hjust) with
    ⟨-, -, hgang⟩ | ⟨-, s, hok, hgo, hturn⟩
  · have hnot : isPiaoGang (dealt d) d.banker = false := rfl
    rw [hnot] at hgang
    cases hgang
  · exact ⟨s, hok, hgo, hturn⟩

end End

/-! ### Runs -/

section Messages

variable {rule : RoomRuleMap} {s s' : Game} {e : Seat × ClientMsg} {p : Seat}

lemma going_of_over {ok : Game → Seat × ClientMsg → Prop} {d : Deal}
    (h : Runs.Reaches (step rule) ok (onEntry rule d).state s) (hover : s.endArgs = none) :
    Going s := by
  rcases going_of_reaches h with hgo | hdrawn | ⟨s₀, p, c, -, -, rfl⟩
  · exact hgo
  · simp [hover] at hdrawn
  · cases hover

/-- A message makes a seat draw, or draws nothing, or ends the round by a win. -/
lemma Going.draws (h : Going s) (rule : RoomRuleMap) (e : Seat × ClientMsg) :
    (∃ s₁ t, Draws rule s e s₁ t) ∨ NoDraw s (onClientMsg rule s e.1 e.2) ∨
      ∃ s' args, onClientMsg rule s e.1 e.2 = .ok s' ∧ s'.endArgs = some args ∧
        args.isLiuJu = false := by
  rcases (onClientMsg_outcome rule h e.1 e.2).handles rule h with
    (⟨s₁, t, hi, heq⟩ | hno) | ⟨c, -, -, -, heq⟩
  · exact Or.inl ⟨s₁, t, hi, heq⟩
  · exact Or.inr (Or.inl hno)
  · exact Or.inr (Or.inr ⟨_, _, heq, rfl, rfl⟩)

/-- A message after which a seat has drawn once more, and the round goes on. -/
lemma Going.draws_of_count (h : Going s) (hr : onClientMsg rule s e.1 e.2 = .ok s')
    (hover : s'.endArgs = none)
    (hcount : (s.opHistoryList p).count .newCard < (s'.opHistoryList p).count .newCard) :
    ∃ s₁ t, Draws rule s e s₁ t ∧ LeavesMove (onClientMsg rule s e.1 e.2) t := by
  rcases h.draws rule e with ⟨s₁, t, hi, heq⟩ | hno | ⟨s'', args, heq, hargs, -⟩
  · refine ⟨s₁, t, ⟨hi, heq⟩, ?_⟩
    rw [heq]
    exact leavesMove_of_ok hi (heq.symm.trans hr)
  · have hsame := hno.drawn p
    rw [hr] at hsame
    exact absurd hsame hcount.ne'
  · rw [hr] at heq
    obtain rfl := Except.ok.inj heq
    rw [hover] at hargs
    cases hargs

/-- A message whose handling stops in an evaluation makes the seat with the new tile draw, and
leaves no offers. -/
lemma Going.draws_of_error (h : Going s) (hr : onClientMsg rule s e.1 e.2 = .error (.describe, s'))
    (hnew : (s'.playerList p).hasNewCard = true) :
    (∃ s₁, Draws rule s e s₁ p) ∧ Stuck s' := by
  rcases h.draws rule e with ⟨s₁, t, hi, heq⟩ | hno | ⟨s'', args, heq, -⟩
  · obtain ⟨hiff, hstuck⟩ := giveNewCard_stops hi (heq.symm.trans hr)
    obtain rfl : p = t := (hiff p).mp hnew
    exact ⟨⟨s₁, hi, heq⟩, hstuck⟩
  · exact absurd rfl (hno.fault _ _ hr)
  · rw [hr] at heq
    cases heq

end Messages

/-- In every state of a round: a draw finishes and leaves its seat able to move exactly when it is
not made in the situation `PiaoGang`; a message makes a seat draw, or draws nothing and does not
stop in an evaluation, or ends the round by a win; the first turn and the evaluations at the end of
a round that is won do not stop.

**Proof sketch.** While a round goes on, what a message does ends with a draw between two turns, or
draws nothing (`Outcome.handles`). Between two turns the seats other than the one that draws have
last played a tile, and nobody has a new one, so that the turn after the draw is as `Turn` says
unless the evaluation stops. -/
theorem leavesMove_iff (rule : RoomRuleMap) (d : Deal) :
    (∃ s, onEntry rule d = .ok s) ∧
    ∀ s, Runs.Reaches (step rule) (fun _ _ => True) (onEntry rule d).state s →
      (∀ e s₁ t, Draws rule s e s₁ t →
        (LeavesMove (onClientMsg rule s e.1 e.2) t ↔ ¬PiaoGang s₁ t)) ∧
      (s.endArgs = none → ∀ e, (∃ s₁ t, Draws rule s e s₁ t) ∨
        NoDraw s (onClientMsg rule s e.1 e.2) ∨
        ∃ s' args, onClientMsg rule s e.1 e.2 = .ok s' ∧ s'.endArgs = some args ∧
          args.isLiuJu = false) ∧
      ∀ args, s.endArgs = some args → ∀ w ∈ args.winnerPosList,
        calculate s w args.isZiMo ≠ none := by
  obtain ⟨s₀, hentry, -⟩ := onEntry_turn rule d
  refine ⟨⟨s₀, hentry⟩, fun s hs => ⟨?_, fun hover e => ?_, fun args hargs w hw => ?_⟩⟩
  · rintro e s₁ t ⟨hi, heq⟩
    rw [heq]
    exact hi.leavesMove
  · exact (going_of_over hs hover).draws rule e
  · rcases going_of_reaches hs with hgo | hdrawn | hwon
    · rw [hgo.going] at hargs
      cases hargs
    · rw [hdrawn] at hargs
      obtain rfl := Option.some.inj hargs
      simp [EndArgs.liuJu] at hw
    · obtain ⟨args', hover, hcalc⟩ := hwon.calculate
      rw [hover] at hargs
      obtain rfl := Option.some.inj hargs
      exact hcalc w hw

/-! ### A draw that stops -/

/-- The banker holds the wild tile `36` and three of `9`, and waits for `34` once it has called a
kong of them. The next seat draws the fourth `9`, and the tile after it is `34`. -/
def frozenHands : List ℕ :=
  [36, 9, 9, 9, 11, 12, 13, 14, 15, 16, 17, 18, 34] ++
  [1, 3, 5, 7, 11, 13, 17, 19, 21, 25, 27, 29, 32] ++
  [11, 12, 13, 14, 15, 16, 17, 18, 19, 21, 21, 21, 5] ++
  [22, 22, 23, 23, 24, 24, 25, 25, 26, 27, 28, 29, 29] ++ [19, 9, 34]

/-- The wild tile is `36`. -/
def frozenDeal : Deal where
  wall := frozenHands ++ wallTiles.diff frozenHands
  perm := by decide +kernel
  banker := 0
  m_bBaoZi := false
  baiDa := 36
  fanDa := by decide +kernel
  last := newGame
  asked := newGame_asked

/-- The banker discards the wild tile, and the draw of the next seat is right. -/
theorem leavesMove_first : ∃ s s₁ t,
    Runs.Reaches (step ⟨false, true, false⟩) (fun _ _ => True)
      (onEntry ⟨false, true, false⟩ frozenDeal).state s ∧
      Draws ⟨false, true, false⟩ s (0, ⟨10, 207⟩) s₁ t ∧
      LeavesMove (onClientMsg ⟨false, true, false⟩ s 0 ⟨10, 207⟩) t ∧ ¬PiaoGang s₁ t := by
  have hrun : ((Runs.exec (step ⟨false, true, false⟩) (fun _ _ => True)
      (onEntry ⟨false, true, false⟩ frozenDeal).state []).any fun s =>
        (onClientMsg ⟨false, true, false⟩ s 0 ⟨10, 207⟩).toOption.any fun s' =>
          s.endArgs.isNone && s'.endArgs.isNone &&
            decide ((s.opHistoryList 1).count .newCard < (s'.opHistoryList 1).count .newCard)) =
      true := by
    decide +kernel
  obtain ⟨s, hs, hnext⟩ := (Option.any_eq_true _ _).mp hrun
  obtain ⟨s', hs', hend⟩ := (Option.any_eq_true _ _).mp hnext
  simp only [Bool.and_eq_true, Option.isNone_iff_eq_none, decide_eq_true_eq] at hend
  obtain ⟨⟨hover, hover'⟩, hcount⟩ := hend
  have hreach := Runs.reaches_of_exec [] .init hs
  have hr : onClientMsg ⟨false, true, false⟩ s 0 ⟨10, 207⟩ = .ok s' := by
    cases hr : onClientMsg ⟨false, true, false⟩ s 0 ⟨10, 207⟩ with
    | error e => simp [hr, Except.toOption] at hs'
    | ok s'' => simpa [hr, Except.toOption] using hs'
  obtain ⟨s₁, t, hd, hleaves⟩ :=
    (going_of_over hreach hover).draws_of_count (e := (0, ⟨10, 207⟩)) hr hover' hcount
  exact ⟨s, s₁, t, hreach, hd, hleaves,
    (((leavesMove_iff _ frozenDeal).2 s hreach).1 _ s₁ t hd).mp hleaves⟩

/-- The banker calls the kong and draws `34`: the handler stops, and nobody is offered anything. -/
theorem frozen : ∃ s s' s₁,
    Runs.Reaches (step ⟨false, true, false⟩) (fun _ _ => True)
      (onEntry ⟨false, true, false⟩ frozenDeal).state s ∧
      Draws ⟨false, true, false⟩ s (0, ⟨3, 73⟩) s₁ 0 ∧
      onClientMsg ⟨false, true, false⟩ s 0 ⟨3, 73⟩ = .error (.describe, s') ∧
      ¬LeavesMove (onClientMsg ⟨false, true, false⟩ s 0 ⟨3, 73⟩) 0 ∧
      s'.endArgs = none ∧ ∀ p, s'.playerGrabMgr.canGrabMgr.opers p = [] := by
  have hrun : ((Runs.exec (step ⟨false, true, false⟩) (fun _ _ => True)
      (onEntry ⟨false, true, false⟩ frozenDeal).state
        [(0, ⟨10, 207⟩), (1, ⟨10, 73⟩)]).any fun s =>
          s.endArgs.isNone && match onClientMsg ⟨false, true, false⟩ s 0 ⟨3, 73⟩ with
            | .error (.describe, s') => s'.endArgs.isNone && (s'.playerList 0).hasNewCard
            | _ => false) = true := by
    decide +kernel
  obtain ⟨s, hs, hend⟩ := (Option.any_eq_true _ _).mp hrun
  rw [Bool.and_eq_true, Option.isNone_iff_eq_none] at hend
  obtain ⟨hover, hend⟩ := hend
  have hreach := Runs.reaches_of_exec _ .init hs
  split at hend
  case h_2 => cases hend
  case h_1 s' hr =>
    rw [Bool.and_eq_true, Option.isNone_iff_eq_none] at hend
    obtain ⟨⟨s₁, hd⟩, hstuck⟩ :=
      (going_of_over hreach hover).draws_of_error (e := (0, ⟨3, 73⟩)) hr hend.2
    refine ⟨s, s', s₁, hreach, hd, hr, ?_, hend.1, hstuck⟩
    rintro ⟨s'', hok, -⟩
    rw [hr] at hok
    cases hok

end Tongxiang
