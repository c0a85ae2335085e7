import JsmjServer.Hongzhong.Draws
import JsmjServer.Hongzhong.GameEnd
import JsmjServer.Mahjong.Winners

set_option relaxedAutoImplicit false
set_option autoImplicit false

/-!
# The bonus of a round of hongzhong mahjong

`calcExtraFans` files the value of the bonus tiles in `ZhaMaFen`, but not when no tile could be
drawn from the wall. Nothing else sets the field, so that a round that is won after the last tile is
settled with the bonus of an earlier one.

## Main definitions

* `Hongzhong.Bonus` — the tiles drawn for the bonus are the front of the wall.
* `Hongzhong.leftOver` — the value of the bonus tiles of the last round that had some.

## Main results

* `Hongzhong.step_bonus` — a message that ends a round by a win draws from the wall it meets.
* `Hongzhong.zhaMa_of_round_iff` — the bonus charged for a round is that of its own tiles if and
  only if the wall is not empty at the win, or nothing is left of the earlier rounds.
-/

namespace Hongzhong

open Mahjong

/-! ### The message that ends a round -/

/-- If the round is over and won, the tiles drawn for the bonus are from the front of the wall. -/
def Bonus (rule : RoomRuleMap) (wall : List ℕ) (s : Table) : Prop :=
  ∀ a, s.endArgs = some a → a.isLiuJu = false → a.zhaMaCards = wall.take (needCardNum rule)

section Steps

variable {rule : RoomRuleMap} {wall : List ℕ} {s : Table} {t : Seat} {b : ℕ} {oper : Oper}

lemma bonus_of_going (hgo : s.endArgs = none) : Bonus rule wall s := by
  intro a ha
  rw [hgo] at ha
  cases ha

lemma liuJu_bonus (s : Table) : Bonus rule wall (s.gotoNextState .liuJu) := by
  intro a ha hwon
  obtain rfl := Option.some.inj ha
  cases hwon

lemma doHu_bonus (s : Table) (pos : Seat) (c : ℕ) : Bonus rule s.mjWall (doHu rule s pos c) := by
  intro a ha _
  rw [← Option.some.inj ha]

lemma endArgs_checkMyOper (checkOp : Bool) :
    (checkMyOper rule s t checkOp).endArgs = s.endArgs := by
  unfold checkMyOper
  dsimp only
  split_ifs <;> rfl

/-- A draw ends a round only when the wall is empty. -/
lemma giveNewCard_bonus (hgo : s.endArgs = none) : Bonus rule wall (giveNewCard rule s t) := by
  unfold giveNewCard
  cases hcard : takeCard s t with
  | none => exact liuJu_bonus s
  | some r =>
    obtain ⟨c, s₁⟩ := r
    obtain ⟨wall', need, rfl⟩ := takeCard_frame hcard
    simp only [redraw_eq, if_true]
    apply bonus_of_going
    rw [endArgs_checkMyOper]
    exact hgo

lemma checkOtherOper_going (hgo : s.endArgs = none) (b : ℕ) (bGrabGang : Bool) :
    (∃ s', checkOtherOper s t b bGrabGang = .error s' ∧ s'.endArgs = none) ∨
      ∃ c, checkOtherOper s t b bGrabGang = .ok c ∧ c.2.endArgs = none := by
  set s₁ : Table := { s with
    playerGrabMgr := s.playerGrabMgr.clear.setPos t, multiHuPos := [] } with hs₁
  rcases Table.offerUntil_same s₁ t (canHuStops s₁ b bGrabGang)
    (fun pos => claims s₁ pos b bGrabGang) with ⟨s', heq, -, hover⟩ | ⟨r, heq, -, hover⟩
  · exact Or.inl ⟨s', heq, hover.trans hgo⟩
  · exact Or.inr ⟨r, heq, hover.trans hgo⟩

lemma doPeng_going (hgo : s.endArgs = none) (pos : Seat) (b : ℕ) (grabedPos : Seat) :
    (doPeng rule s pos b grabedPos).2.endArgs = none := by
  unfold doPeng
  dsimp only
  split_ifs
  · rw [endArgs_checkMyOper]
    exact hgo
  · exact hgo

lemma doGang_bonus (hgo : s.endArgs = none) (pos : Seat) (b : ℕ) (grabedPos : Seat) :
    Bonus rule wall (doGang rule s pos b grabedPos).2 := by
  unfold doGang
  dsimp only
  split_ifs
  · exact giveNewCard_bonus hgo
  · exact bonus_of_going hgo

lemma doGang_going (hgo : s.endArgs = none) (pos : Seat) (b : ℕ) (grabedPos : Seat)
    (hdo : ¬(doGang rule s pos b grabedPos).1 = true) :
    (doGang rule s pos b grabedPos).2.endArgs = none := by
  unfold doGang at hdo ⊢
  dsimp only at hdo ⊢
  split_ifs at hdo ⊢
  · exact absurd rfl hdo
  · exact hgo

lemma doAnGang_bonus (hgo : s.endArgs = none) (pos : Seat) (b : ℕ) (grabedPos : Seat) :
    Bonus rule wall (doAnGang rule s pos b grabedPos) := by
  unfold doAnGang
  dsimp only
  split_ifs
  · exact giveNewCard_bonus hgo
  · exact bonus_of_going hgo

lemma doMXGang_bonus (hgo : s.endArgs = none) (pos : Seat) (b : ℕ) :
    Bonus rule wall (Handled.state (doMXGang rule s pos b)) := by
  unfold doMXGang
  dsimp only
  split_ifs
  · rcases checkOtherOper_going (t := pos)
      (s := s.setPlayer pos ((s.playerList pos).doMXGang b).2) hgo b true with
      ⟨s', herr, hs'⟩ | ⟨c, hok, hc⟩
    · rw [herr]
      exact bonus_of_going hs'
    · rw [hok]
      show Bonus rule wall (if c.1 then _ else giveNewCard rule c.2 pos)
      split_ifs
      · exact bonus_of_going hc
      · exact giveNewCard_bonus hc
  · exact bonus_of_going hgo

lemma onPlayCard_bonus (hgo : s.endArgs = none) (pos : Seat) (card : Option ℕ) :
    Bonus rule wall (Handled.state (onPlayCard rule s pos card)) := by
  unfold onPlayCard
  cases card with
  | none => exact bonus_of_going hgo
  | some b =>
    dsimp only
    split_ifs
    · exact bonus_of_going hgo
    · exact bonus_of_going hgo
    · set played : Table := { s.setPlayer pos ((s.playerList pos).doPlayCard b).2 with
        playerGrabMgr := (s.playerGrabMgr.playerDoGrab pos .play (some b)).2 } with hplayed
      set s₁ := (played.setCanDoMap pos .empty).setRiver pos
        (MJRiver.pushCard (s.riverCardList pos) b) with hs₁
      have hgo₁ : s₁.endArgs = none := hgo
      show Bonus rule wall (Handled.state ((checkOtherOper s₁ pos b false).map _))
      rcases checkOtherOper_going (t := pos) hgo₁ b false with ⟨s', herr, hs'⟩ | ⟨c, hok, hc⟩
      · rw [herr]
        exact bonus_of_going hs'
      · rw [hok]
        show Bonus rule wall (if !c.1 then giveNewCard rule c.2 (nextPlayerPos pos) else c.2)
        split_ifs
        · exact giveNewCard_bonus hc
        · exact bonus_of_going hc

lemma cancelEnd_bonus (hgo : s.endArgs = none) (pos grabedPos : Seat) :
    Bonus rule wall (Handled.state (cancelEnd rule s pos grabedPos)) := by
  unfold cancelEnd
  split_ifs
  · cases s.qiangGangInfo with
    | none => exact bonus_of_going hgo
    | some tPos => exact giveNewCard_bonus hgo
  · cases s.playerCanDoMap pos with
    | none => exact bonus_of_going hgo
    | some map =>
      dsimp only
      split_ifs
      · exact bonus_of_going hgo
      · exact giveNewCard_bonus hgo

/-- Of the choices that are carried out, only a win draws for the bonus. -/
lemma grabEnd_bonus (hgo : s.endArgs = none) :
    Bonus rule s.mjWall (Handled.state (grabEnd rule s)) := by
  unfold grabEnd
  cases s.playerGrabMgr.pos with
  | none => exact bonus_of_going hgo
  | some grabedPos =>
    dsimp only
    cases s.playerGrabMgr.getPowestNode with
    | none => exact giveNewCard_bonus hgo
    | some node =>
      dsimp only
      split
      · exact cancelEnd_bonus hgo _ _
      · exact bonus_of_going hgo
      · exact doHu_bonus s _ _
      · split_ifs
        · exact bonus_of_going (doPeng_going hgo _ _ _)
        · exact giveNewCard_bonus (doPeng_going hgo _ _ _)
      · exact doAnGang_bonus hgo _ _ _
      · split_ifs with hdo
        · exact doGang_bonus hgo _ _ _
        · exact giveNewCard_bonus (doGang_going hgo _ _ _ hdo)
      · exact doMXGang_bonus hgo _ _
      · exact onPlayCard_bonus hgo _ _
      · exact bonus_of_going hgo

lemma decideOrWait_bonus (hgo : s.endArgs = none) :
    Bonus rule s.mjWall (Handled.state (decideOrWait rule s oper)) := by
  unfold decideOrWait
  cases needWait s oper with
  | none => exact bonus_of_going hgo
  | some decide =>
    cases decide with
    | true => exact grabEnd_bonus hgo
    | false => exact bonus_of_going hgo

lemma onGrabCard_bonus (hgo : s.endArgs = none) (pos : Seat) (card : Option ℕ) :
    Bonus rule s.mjWall (Handled.state (onGrabCard rule s pos oper card)) := by
  unfold onGrabCard
  by_cases hhas : (!s.playerGrabMgr.hasOper pos oper) = true
  · rw [if_pos hhas]
    exact bonus_of_going hgo
  · rw [if_neg hhas]
    cases s.playerCanDoMap pos with
    | none => exact bonus_of_going hgo
    | some map =>
      dsimp only
      cases map.cards oper with
      | none => exact bonus_of_going hgo
      | some cardList =>
        dsimp only
        split_ifs
        · exact decideOrWait_bonus (s := { s with
            playerGrabMgr := (s.playerGrabMgr.playerDoGrab pos oper (some 1)).2 }) hgo
        · exact decideOrWait_bonus (s := { s with
            playerGrabMgr := (s.playerGrabMgr.playerDoGrab pos oper (some 1)).2
            mjCancelMgr := addCancelOpers s.mjCancelMgr pos map }) hgo
        · cases card with
          | none => exact bonus_of_going hgo
          | some b =>
            dsimp only
            split_ifs
            · exact decideOrWait_bonus (s := { s with
                playerGrabMgr := (s.playerGrabMgr.playerDoGrab pos oper (some b)).2 }) hgo
            · exact bonus_of_going hgo

/-- A round that a message ends by a win has its bonus tiles from the wall that the message
meets. -/
lemma step_bonus {s' : Table} {e : Seat × ClientMsg} (hstep : step rule s e = some s') :
    Bonus rule s.mjWall s' := by
  unfold step at hstep
  split_ifs at hstep with hover
  rw [Bool.not_eq_true, Option.isSome_eq_false_iff, Option.isNone_iff_eq_none] at hover
  obtain rfl := Option.some.inj hstep
  unfold onClientMsg
  dsimp only
  cases Oper.ofCode e.2.operation with
  | none => exact bonus_of_going hover
  | some oper =>
    cases oper with
    | play => exact onPlayCard_bonus hover _ _
    | syncData => exact bonus_of_going hover
    | testNeedCard => exact bonus_of_going hover
    | _ => exact onGrabCard_bonus hover _ _

end Steps

/-! ### The rounds of a room -/

/-- The value of the bonus tiles of the last round that had some; `0` if there is none. -/
def leftOver (rule : RoomRuleMap) (rounds : List Round) : ℕ :=
  rounds.foldl (fun fen rd =>
    if rd.args.zhaMaCards = [] then fen else getZhaMaCount rule rd.args.zhaMaCards) 0

/-- A round of the room that has ended. -/
structure Played (info : RoomInfo) (rd : Round) : Prop where
  reachable : ∃ d, d.rule = info.roomRuleMap ∧ Reachable d rd.before
  last : ∃ e, NoTest rd.before e ∧ step info.roomRuleMap rd.before e = some rd.final
  endArgs : rd.final.endArgs = some rd.args

/-- What every room keeps. The round that is played has been dealt and goes on, and every value of
`ZhaMaFen` is that of the last tiles. -/
structure Room.Kept (info : RoomInfo) (r : Room) : Prop where
  going : r.playing = true → r.game.endArgs = none ∧
    ∃ d, d.rule = info.roomRuleMap ∧ Reachable d r.game
  played : ∀ rd ∈ r.rounds, Played info rd
  ZhaMaFen : r.ZhaMaFen = leftOver info.roomRuleMap r.rounds
  charged : ∀ pre rd post, r.rounds = pre ++ rd :: post →
    rd.ZhaMaFen = leftOver info.roomRuleMap (pre ++ [rd])

section Rooms

variable {info : RoomInfo} {r r' : Room} {rd : Round}

@[simp] lemma leftOver_nil (rule : RoomRuleMap) : leftOver rule [] = 0 := rfl

@[simp] lemma leftOver_concat (rule : RoomRuleMap) (rounds : List Round) (rd : Round) :
    leftOver rule (rounds ++ [rd]) = if rd.args.zhaMaCards = [] then leftOver rule rounds
      else getZhaMaCount rule rd.args.zhaMaCards := by
  rw [leftOver, List.foldl_append]
  rfl

/-- How the round has ended. -/
lemma Played.outcome (h : Played info rd) : Outcome rd.final rd.args := by
  obtain ⟨d, hrule, hreach⟩ := h.reachable
  obtain ⟨e, hok, hstep⟩ := h.last
  have hfinal : Reachable d rd.final := hreach.step hok (hrule ▸ hstep)
  cases hfinal.kept with
  | playing hp =>
    have hgo := hp.going
    rw [h.endArgs] at hgo
    cases hgo
  | ended a ha hended =>
    obtain rfl : a = rd.args := Option.some.inj (ha.symm.trans h.endArgs)
    exact hended.outcome

/-- A round that is drawn has no bonus tiles. -/
lemma Played.zhaMaCards_liuJu (h : Played info rd) (hdraw : rd.args.isLiuJu = true) :
    rd.args.zhaMaCards = [] := by
  cases h.outcome with
  | liuJu ha =>
    rw [ha]
    rfl
  | ziMo t hwon =>
    rw [hdraw] at hwon
    cases hwon
  | qiangGang t pos hwon =>
    rw [hdraw] at hwon
    cases hwon

/-- A round that is won has a winner. -/
lemma Played.winnerPosList_ne_nil (h : Played info rd) (hwon : rd.args.isLiuJu = false) :
    rd.args.winnerPosList ≠ [] := by
  cases h.outcome with
  | liuJu ha =>
    rw [ha] at hwon
    cases hwon
  | ziMo t _ _ _ _ _ hwin =>
    rw [hwin]
    exact List.cons_ne_nil _ _
  | qiangGang t pos _ _ _ _ _ hwin => exact List.ne_nil_of_mem hwin

/-- The tiles of a round that is won are those of the wall at the win. -/
lemma Played.zhaMaCards_won (h : Played info rd) (hwon : rd.args.isLiuJu = false) :
    rd.args.zhaMaCards = rd.before.mjWall.take (needCardNum info.roomRuleMap) := by
  obtain ⟨e, -, hstep⟩ := h.last
  exact step_bonus hstep rd.args h.endArgs hwon

lemma Played.wins (h : Played info rd) (hcards : rd.args.zhaMaCards ≠ []) :
    rd.args.winnerPosList ≠ [] := by
  apply h.winnerPosList_ne_nil
  cases hdraw : rd.args.isLiuJu with
  | true => exact absurd (h.zhaMaCards_liuJu hdraw) hcards
  | false => rfl

/-- A round in a list that ends with another is that one, or one before it. -/
lemma concat_eq_append_cons {rounds pre post : List Round} {rd rd' : Round}
    (h : rounds ++ [rd'] = pre ++ rd :: post) :
    pre = rounds ∧ rd = rd' ∨ ∃ post', rounds = pre ++ rd :: post' := by
  rcases List.append_eq_append_iff.mp h with ⟨l, hpre, hl⟩ | ⟨l, hrounds, hl⟩
  · have hlen := congrArg List.length hl
    simp only [List.length_append, List.length_cons, List.length_nil] at hlen
    obtain rfl : l = [] := List.eq_nil_of_length_eq_zero (by omega)
    rw [List.nil_append, List.cons.injEq] at hl
    exact Or.inl ⟨by rw [hpre, List.append_nil], hl.1.symm⟩
  · cases l with
    | nil =>
      rw [List.nil_append, List.cons.injEq] at hl
      exact Or.inl ⟨by rw [hrounds, List.append_nil], hl.1⟩
    | cons rd'' l =>
      rw [List.cons_append, List.cons.injEq] at hl
      exact Or.inr ⟨l, by rw [hrounds, hl.1]⟩

/-- The end of a round keeps the room. -/
lemma endRound_kept {s : Table} {args : EndArgs} (h : r.Kept info)
    (hplayed : ∀ fans fen, Played info ⟨r.game, s, args, fans, fen⟩) :
    (endRound info r s args).Kept info := by
  set fans := calcExtraFans info.roomRuleMap args.winnerPosList args.zhaMaCards r.ZhaMaFen
  set rd : Round := ⟨r.game, s, args, fans.1, fans.2⟩ with hrd
  have hfen : fans.2 = leftOver info.roomRuleMap (r.rounds ++ [rd]) := by
    rw [leftOver_concat, ← h.ZhaMaFen]
    exact calcExtraFans_ZhaMaFen _ (hplayed fans.1 fans.2).wins
  have hcharged : ∀ pre rd' post, r.rounds ++ [rd] = pre ++ rd' :: post →
      rd'.ZhaMaFen = leftOver info.roomRuleMap (pre ++ [rd']) := by
    intro pre rd' post heq
    rcases concat_eq_append_cons heq with ⟨rfl, rfl⟩ | ⟨post', hrounds⟩
    · exact hfen
    · exact h.charged pre rd' post' hrounds
  have hall : ∀ rd' ∈ r.rounds ++ [rd], Played info rd' := by
    intro rd' hmem
    rcases List.mem_append.mp hmem with hmem | hmem
    · exact h.played rd' hmem
    · rw [List.mem_singleton.mp hmem]
      exact hplayed fans.1 fans.2
  have hidle : ∀ {p : Prop}, false = true → p := fun h => by cases h
  unfold endRound
  dsimp only
  split_ifs <;> exact ⟨hidle, hall, hfen, hcharged⟩

lemma roomStep_kept {e : RoomEvent} (h : r.Kept info) (hok : Follows info r e)
    (hstep : roomStep info r e = some r') : r'.Kept info := by
  cases e with
  | start d =>
    simp only [roomStep] at hstep
    split_ifs at hstep
    obtain rfl := Option.some.inj hstep
    exact ⟨fun _ => ⟨(start_playing d).going, d, hok.1, .init⟩, h.played, h.ZhaMaFen, h.charged⟩
  | msg e =>
    simp only [roomStep] at hstep
    split_ifs at hstep with hidle
    rw [Bool.not_eq_true, Bool.not_eq_false'] at hidle
    obtain ⟨s, hs, hr⟩ := Option.map_eq_some_iff.mp hstep
    obtain ⟨hgo, d, hrule, hreach⟩ := h.going hidle
    cases hargs : s.endArgs with
    | none =>
      rw [hargs] at hr
      rw [← hr]
      have hreach' : Reachable d s := hreach.step hok (hrule ▸ hs)
      exact ⟨fun _ => ⟨hargs, d, hrule, hreach'⟩, h.played, h.ZhaMaFen, h.charged⟩
    | some args =>
      rw [hargs] at hr
      rw [← hr]
      exact endRound_kept h fun _ _ => ⟨⟨d, hrule, hreach⟩, ⟨e, hok, hs⟩, hargs⟩
  | disband =>
    simp only [roomStep] at hstep
    split_ifs at hstep
    obtain rfl := Option.some.inj hstep
    refine ⟨fun hp => ?_, h.played, h.ZhaMaFen, h.charged⟩
    cases hp

lemma room_kept (h : Runs.Reaches (roomStep info) (Follows info) newRoom r) : r.Kept info := by
  have hnew : newRoom.Kept info := by
    refine ⟨fun hp => ?_, fun rd hrd => ?_, rfl, fun pre rd post heq => ?_⟩
    · cases hp
    · cases hrd
    · exact absurd heq.symm (by simp [newRoom])
  exact h.invariant (I := fun r => r.Kept info) hnew fun r e r' => roomStep_kept

/-- Without a rule for the bonus no round leaves anything. -/
lemma leftOver_eq_zero (hnone : needCardNum info.roomRuleMap = 0) (rounds : List Round)
    (h : ∀ rd ∈ rounds, Played info rd) : leftOver info.roomRuleMap rounds = 0 := by
  induction rounds using List.reverseRecOn with
  | nil => rfl
  | append_singleton rounds rd ih =>
    have hcards : rd.args.zhaMaCards = [] := by
      have hplayed := h rd (by simp)
      cases hdraw : rd.args.isLiuJu with
      | true => exact hplayed.zhaMaCards_liuJu hdraw
      | false => rw [hplayed.zhaMaCards_won hdraw, hnone, List.take_zero]
    rw [leftOver_concat, if_pos hcards]
    exact ih fun rd' hmem => h rd' (List.mem_append_left _ hmem)

end Rooms

/-- **When the bonus belongs to the round**: in every room, under all rules and whatever the walls
and the messages, the `ZhaMaFen` with which `CountHuType:calculate` settles a round that is won is
the value of the tiles drawn for the bonus of this round if and only if the wall is not empty at the
win, or nothing is left of the earlier rounds.

**Proof sketch.** Every value of `ZhaMaFen` is that of the last tiles that some round has drawn
(`room_kept`), and a round that is won draws from the wall that its last message meets
(`Played.zhaMaCards_won`). -/
theorem zhaMa_of_round_iff (info : RoomInfo) (r : Room)
    (h : Runs.Reaches (roomStep info) (Follows info) newRoom r) (pre post : List Round) (rd : Round)
    (hr : r.rounds = pre ++ rd :: post) (hwon : rd.args.isLiuJu = false) (i : Seat) :
    (rd.countHuType i).ZhaMaFen = getZhaMaCount info.roomRuleMap rd.args.zhaMaCards ↔
      rd.before.mjWall ≠ [] ∨ leftOver info.roomRuleMap pre = 0 := by
  have hkept := room_kept h
  have hplayed : Played info rd := hkept.played rd (by simp [hr])
  have hfen := hkept.charged pre rd post hr
  have hcards := hplayed.zhaMaCards_won hwon
  show (rd.ZhaMaFen : ℤ) = _ ↔ _
  rw [Nat.cast_inj, hfen, leftOver_concat]
  by_cases hnil : rd.args.zhaMaCards = []
  · rw [if_pos hnil, hnil, getZhaMaCount_nil]
    refine ⟨Or.inr, fun hcond => ?_⟩
    rcases hcond with hwall | hzero
    · -- no tile is drawn from a wall that is not empty
      have hnone : needCardNum info.roomRuleMap = 0 := by
        rw [hnil, eq_comm, List.take_eq_nil_iff] at hcards
        exact hcards.resolve_right hwall
      exact leftOver_eq_zero hnone pre fun rd' hmem => hkept.played rd' (by simp [hr, hmem])
    · exact hzero
  · rw [if_neg hnil]
    refine ⟨fun _ => Or.inl fun hwall => hnil ?_, fun _ => rfl⟩
    rw [hcards, hwall, List.take_nil]

/-! ### A win after the last tile -/

section Runs

variable {info : RoomInfo} {r : Room} {s : Table} {args : EndArgs}

/-- The steps of a round in its room. -/
lemma room_of_reaches (hp : r.playing = true)
    (h : Runs.Reaches (step info.roomRuleMap) NoTest r.game s) (hgo : s.endArgs = none) :
    Runs.Reaches (roomStep info) (Follows info) r { r with game := s } := by
  induction h with
  | init => exact .init
  | @step s₁ s₂ e _ hok hstep ih =>
    have hover : s₁.endArgs = none := by
      cases hover : s₁.endArgs with
      | none => rfl
      | some args => simp [step, hover] at hstep
    refine (ih hover).step (e := .msg e) hok ?_
    simp [roomStep, hp, hstep, hgo]

/-- The message that ends a round in its room. -/
lemma room_of_ended {s' : Table} {e : Seat × ClientMsg} (hp : r.playing = true)
    (h : Runs.Reaches (step info.roomRuleMap) NoTest r.game s) (hgo : s.endArgs = none)
    (hok : NoTest s e) (hstep : step info.roomRuleMap s e = some s')
    (hargs : s'.endArgs = some args) :
    Runs.Reaches (roomStep info) (Follows info) r
      (endRound info { r with game := s } s' args) := by
  refine (room_of_reaches hp h hgo).step (e := .msg e) hok ?_
  simp [roomStep, hp, hstep, hargs]

/-- The byte of the clients' code for a tile of the wall. -/
def cardByte (c : ℕ) : ℤ :=
  if c < 10 then 64 + c else if c < 20 then 118 + c else if c < 30 then 76 + c else 171 + c

/-- Eight rounds in a VIP room, with one tile for the bonus. -/
def bonusRoom : RoomInfo := ⟨⟨false, true, false, false, false⟩, true, 8⟩

/-- Three straights and a part of a fourth. -/
def straights : List ℕ := [1, 2, 3, 4, 5, 6, 7, 8, 9, 11, 12, 13, 15]

/-- The banker's new tile is `15`, and the next tile of the wall is `9`. -/
def luckyHands : List ℕ :=
  straights ++ (wallTiles.filter fun c => decide (20 < c)).take 39 ++ [15, 9]

/-- A deal with which the banker has won. -/
def luckyDeal : Deal where
  rule := bonusRoom.roomRuleMap
  wall := luckyHands ++ wallTiles.diff luckyHands
  perm := by decide +kernel
  banker := 0
  last := newTable
  noTest := newTable_noTest

/-- The table after the banker's win. -/
def luckyTable : Table :=
  (onClientMsg bonusRoom.roomRuleMap (start luckyDeal) 0 ⟨1, cardByte 15⟩).state

/-- The room while the round of `luckyDeal` is played. -/
def luckyRoom : Room := ⟨start luckyDeal, true, false, 1, 0, []⟩

lemma luckyTable_step :
    step bonusRoom.roomRuleMap (start luckyDeal) (0, ⟨1, cardByte 15⟩) = some luckyTable :=
  if_neg (by rw [(start_playing luckyDeal).going]; decide)

/-- The banker of the first round wins, with the bonus tile `9`. -/
lemma lucky_reaches : ∃ args, args.isLiuJu = false ∧ args.winnerPosList = [0] ∧
    args.zhaMaCards = [9] ∧ Runs.Reaches (roomStep bonusRoom) (Follows bonusRoom) newRoom
      (endRound bonusRoom luckyRoom luckyTable args) := by
  have hrun : (luckyTable.endArgs.any fun a => !a.isLiuJu &&
      decide (a.winnerPosList = [0] ∧ a.zhaMaCards = [9])) = true := by
    decide +kernel
  obtain ⟨args, hargs, hend⟩ := (Option.any_eq_true _ _).mp hrun
  rw [Bool.and_eq_true, Bool.not_eq_true', decide_eq_true_eq] at hend
  have hstart : Runs.Reaches (roomStep bonusRoom) (Follows bonusRoom) newRoom luckyRoom :=
    Runs.Reaches.init.step (show Follows bonusRoom newRoom (.start luckyDeal) from ⟨rfl, rfl⟩) rfl
  refine ⟨args, hend.1, hend.2.1, hend.2.2, hstart.trans ?_⟩
  exact room_of_ended rfl .init (start_playing luckyDeal).going (by decide) luckyTable_step hargs

/-- The first round of `luckyRoom` is settled with its own bonus. -/
theorem lucky_zhaMa : ∃ r rd, Runs.Reaches (roomStep bonusRoom) (Follows bonusRoom) newRoom r ∧
    r.rounds = [rd] ∧ rd.args.isLiuJu = false ∧
      (rd.countHuType 0).ZhaMaFen = getZhaMaCount bonusRoom.roomRuleMap rd.args.zhaMaCards := by
  obtain ⟨args, hwon, hwin, hcards, hreach⟩ := lucky_reaches
  refine ⟨_, ⟨start luckyDeal, luckyTable, args, _, _⟩, hreach, rfl, hwon, ?_⟩
  exact (zhaMa_of_round_iff bonusRoom _ hreach [] [] _ rfl hwon 0).mpr (Or.inr rfl)

/-- A hand that is far from winning. -/
def gapped : List ℕ := [1, 2, 4, 7, 9, 11, 14, 17, 19, 21, 24, 27, 29]

/-- The fourth seat waits for the tile `15`, and no seat has two tiles of a kind. -/
def lastHands : List ℕ := gapped ++ gapped ++ gapped ++ straights

/-- A deal in which the fourth seat draws the last tile of the wall, a `15`. -/
def lastDeal : Deal where
  rule := bonusRoom.roomRuleMap
  wall := lastHands ++ wallTiles.diff (lastHands ++ [15]) ++ [15]
  perm := by decide +kernel
  banker := 0
  last := luckyTable
  noTest := by decide +kernel

/-- Every seat in turn plays the tile that it has drawn. -/
def lastMsgs : List (Seat × ClientMsg) :=
  ((lastDeal.wall.drop 52).take 59).zipIdx.map fun x => (Fin.ofNat 4 x.2, ⟨10, cardByte x.1⟩)

/-- In the second round of `luckyRoom`, the fourth seat wins with the last tile of the wall: no
bonus tile is drawn, and the nine points of the first round are charged again. -/
theorem last_zhaMa_stale : ∃ r rd,
    Runs.Reaches (roomStep bonusRoom) (Follows bonusRoom) newRoom r ∧ rd ∈ r.rounds ∧
      rd.args.isLiuJu = false ∧ rd.args.zhaMaCards = [] ∧
      getZhaMaCount bonusRoom.roomRuleMap rd.args.zhaMaCards = 0 ∧
      (rd.countHuType 3).ZhaMaFen = 9 := by
  have hrun : ((Runs.exec (step bonusRoom.roomRuleMap) NoTest (start lastDeal) lastMsgs).any
      fun s => s.endArgs.isNone &&
        (step bonusRoom.roomRuleMap s (3, ⟨1, cardByte 15⟩)).any fun s' =>
          s'.endArgs.any fun a => !a.isLiuJu && decide (a.zhaMaCards = [])) = true := by
    decide +kernel
  obtain ⟨s, hs, hend⟩ := (Option.any_eq_true _ _).mp hrun
  rw [Bool.and_eq_true, Option.isNone_iff_eq_none] at hend
  obtain ⟨s', hs', hend'⟩ := (Option.any_eq_true _ _).mp hend.2
  obtain ⟨args, hargs, hwon⟩ := (Option.any_eq_true _ _).mp hend'
  rw [Bool.and_eq_true, Bool.not_eq_true', decide_eq_true_eq] at hwon
  obtain ⟨args₁, -, hwin₁, hcards₁, hreach₁⟩ := lucky_reaches
  set r₁ := endRound bonusRoom luckyRoom luckyTable args₁ with hr₁
  have hfen : r₁.ZhaMaFen = 9 := by
    show (calcExtraFans bonusRoom.roomRuleMap args₁.winnerPosList args₁.zhaMaCards 0).2 = 9
    rw [hwin₁, hcards₁]
    rfl
  set r₂ : Room := { r₁ with game := start lastDeal, playing := true } with hr₂
  have hstart : Runs.Reaches (roomStep bonusRoom) (Follows bonusRoom) newRoom r₂ :=
    hreach₁.step (show Follows bonusRoom r₁ (.start lastDeal) from ⟨rfl, rfl⟩) rfl
  have hplayed : Runs.Reaches (step bonusRoom.roomRuleMap) NoTest r₂.game s :=
    Runs.reaches_of_exec lastMsgs .init hs
  have hhu : NoTest s (3, ⟨1, cardByte 15⟩) := show Oper.ofCode 1 ≠ some .testNeedCard by decide
  have hreach := hstart.trans (room_of_ended rfl hplayed hend.1 hhu hs' hargs)
  set fans := calcExtraFans bonusRoom.roomRuleMap args.winnerPosList args.zhaMaCards r₁.ZhaMaFen
    with hfans
  have hstale : fans.2 = 9 := by
    rw [hfans, hwon.2, calcExtraFans_nil, hfen]
  refine ⟨_, ⟨s, s', args, fans.1, fans.2⟩, hreach, ?_, hwon.1, hwon.2, ?_, ?_⟩
  · show _ ∈ r₁.rounds ++ [_]
    exact List.mem_append_right _ (List.mem_singleton.mpr rfl)
  · rw [hwon.2, getZhaMaCount_nil]
  · show ((fans.2 : ℕ) : ℤ) = 9
    rw [hstale]
    rfl

end Runs

end Hongzhong
