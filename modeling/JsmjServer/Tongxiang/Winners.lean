import JsmjServer.Tongxiang.Moves
import JsmjServer.Lib.Circle
import JsmjServer.Winners

set_option relaxedAutoImplicit false
set_option autoImplicit false

/-!
# The winner of a round of tongxiang mahjong

One seat wins on a tile of another: `checkFirstHuPos` takes the first seat of `multiHuPos` after the
one whose tile it is. That list holds the seats to which a win has been offered, and no answer
changes it, while the first win that is declared ends the round.

## Main definitions

* `Tongxiang.WonByFirst` — the winner has declared, before any other in the order of the turns.
* `Tongxiang.Nearest` — no seat nearer to the one that discarded may win.

## Main results

* `Tongxiang.winner_declared_iff` — the winner is right exactly when the nearest seat declares.
* `Tongxiang.undeclared_winner` — a seat that has not declared wins otherwise.
-/

namespace Tongxiang

open Mahjong

/-- The single winner on the tile of another seat has declared the win with that tile, and comes
first after that seat among those who have declared. -/
def WonByFirst (s : Game) (a : EndArgs) : Prop :=
  ∃ w t item, a.winnerPosList = [w] ∧ a.fangPaoPos = some t ∧
    s.playerGrabMgr.doneGrabMgr.getItem w = some item ∧ item.operList = [.hu] ∧
    item.byteCard = a.huCard ∧
    ∀ q, .hu ∈ s.playerGrabMgr.doneGrabMgr.opers q → Circle.dist t w ≤ Circle.dist t q

/-- No seat to which the win has been offered comes before the seat `p`. -/
def Nearest (s : Game) (p : Seat) : Prop :=
  ∀ t, s.playerGrabMgr.pos = some t → ∀ q ∈ s.multiHuPos, Circle.dist t p ≤ Circle.dist t q

instance (s : Game) (p : Seat) : Decidable (Nearest s p) := by
  unfold Nearest
  infer_instance

/-- A win on the tile of another seat is declared by the nearest seat that may. -/
def NearestMsg (s : Game) (e : Seat × ClientMsg) : Prop :=
  s.declaresHu e.1 e.2 = true → s.bZiMo e.1 = false → Nearest s e.1

instance (s : Game) (e : Seat × ClientMsg) : Decidable (NearestMsg s e) := by
  unfold NearestMsg
  infer_instance

/-! ### The choice of the winner -/

section Winner

variable {s : Game} {p t : Seat} {b c : ℕ} {l : List Seat}

lemma dist_injective (t : Seat) : Function.Injective (Circle.dist t) := by
  intro p q h
  have hsub : p - t = q - t := Fin.ext h
  exact sub_left_injective hsub

/-- The search goes around the table. -/
lemma checkFirstHuPos_spec (hne : l ≠ []) (ht : t ∉ l) :
    ∃ w ∈ l, checkFirstHuPos l t = [w] ∧ ∀ q ∈ l, Circle.dist t w ≤ Circle.dist t q := by
  have hround : ∀ t q : Seat, q ∈ [t + 1, t + 2, t + 3, t] := by decide
  -- the seat itself comes last in the search
  have hsorted : ∀ t : Seat, [t + 1, t + 2, t + 3, t].Pairwise fun x y =>
      (if x = t then 4 else Circle.dist t x) < if y = t then 4 else Circle.dist t y := by
    decide
  obtain ⟨q, hq⟩ := List.exists_mem_of_ne_nil l hne
  obtain ⟨w, hw⟩ : ∃ w, [t + 1, t + 2, t + 3, t].find? (l.contains ·) = some w := by
    rw [← Option.isSome_iff_exists, List.find?_isSome]
    exact ⟨q, hround t q, by simpa using hq⟩
  obtain ⟨hmem, hmin⟩ := Circle.find?_pairwise (hsorted t) hw
  have hwl : w ∈ l := by simpa using hmem
  have hkey : ∀ q ∈ l, (if q = t then 4 else Circle.dist t q) = Circle.dist t q := by
    intro q hq
    rw [if_neg]
    rintro rfl
    exact ht hq
  refine ⟨w, hwl, by rw [checkFirstHuPos, hw]; rfl, fun q hq => ?_⟩
  have hle := hmin q (hround t q) (by simpa using hq)
  rw [hkey w hwl, hkey q hq] at hle
  exact hle

/-- The winner on the tile of another seat is the nearest one that might declare. -/
lemma winner_spec (hc : Claim s t b) (hp : p ∈ s.multiHuPos) :
    ∃ w ∈ s.multiHuPos, (if 1 < s.multiHuPos.length then checkFirstHuPos s.multiHuPos t
      else s.multiHuPos) = [w] ∧ ∀ q ∈ s.multiHuPos, Circle.dist t w ≤ Circle.dist t q := by
  by_cases hlen : 1 < s.multiHuPos.length
  · obtain ⟨w, hw, heq, hmin⟩ := checkFirstHuPos_spec (List.ne_nil_of_mem hp) hc.multi.1
    rw [if_pos hlen]
    exact ⟨w, hw, heq, hmin⟩
  · have hone : s.multiHuPos = [p] := by
      obtain ⟨q, hq⟩ := List.length_eq_one_iff.mp
        (le_antisymm (not_lt.mp hlen) (List.length_pos_of_mem hp))
      rw [hq] at hp ⊢
      rw [List.mem_singleton.mp hp]
    rw [if_neg hlen, hone]
    refine ⟨p, by simp, rfl, fun q hq => ?_⟩
    rw [List.mem_singleton.mp hq]

/-- A declared win is settled as it should be exactly when the nearest seat has declared it. -/
lemma wonByFirst_iff {a : EndArgs} (h : Going s) (hch : Chooses s p .hu c)
    (hz : s.bZiMo p = false)
    (ha : (doHu (afterChoice s p .hu c s.mjCancelMgr) p c).endArgs = some a) :
    WonByFirst (doHu (afterChoice s p .hu c s.mjCancelMgr) p c) a ↔ Nearest s p := by
  -- without a tile drawn, the win is on a tile that others may claim
  obtain ⟨t, b, hc⟩ : ∃ t b, Claim s t b := by
    rcases h.phase with ⟨t, ht⟩ | hc | hs
    · obtain ⟨rfl, hdo⟩ := ht.opers p .hu hch.1
      rcases hdo with h | h | h | h | ⟨-, h, -⟩
      · exact absurd h (by decide)
      · exact absurd h (by decide)
      · exact absurd h (by decide)
      · exact absurd h (by decide)
      · rw [hz] at h
        exact absurd h (by decide)
    · exact hc
    · have hmem := hch.1
      simp [hs p] at hmem
  have hp : p ∈ s.multiHuPos := by
    rcases hc.opers p .hu hch.1 with h | ⟨-, h⟩ | h
    · exact absurd h (by decide)
    · exact h
    · rcases h.kind with h | h | h | h | h <;> exact absurd h (by decide)
  obtain ⟨w, hw, heq, hmin⟩ := winner_spec hc hp
  have hpos : (s.playerGrabMgr.playerDoGrab p .hu (some c)).2.pos = some t :=
    (PlayerGrabMgr.pos_playerDoGrab _).trans hc.pos
  have hargs : a = ⟨false, false, some t, [w], some c, s.isQiangGanging, some p, []⟩ := by
    have hz' : (afterChoice s p .hu c s.mjCancelMgr).bZiMo p = false := hz
    have hpos' : (afterChoice s p .hu c s.mjCancelMgr).playerGrabMgr.pos = some t := hpos
    simp only [doHu, Game.gotoNextState, Table.gotoNextState, Option.some.injEq, hz', hpos',
      Bool.false_eq_true, if_false] at ha
    rw [← ha, ← heq]
    rfl
  -- the only win recorded is the one just declared
  have hitem : (s.playerGrabMgr.playerDoGrab p .hu (some c)).2.doneGrabMgr.getItem p =
      some ⟨p, [.hu], some c⟩ := by
    rw [PlayerGrabMgr.playerDoGrab_of_mem hch.1 (hc.free p .hu hch.1)]
    exact CanGrabMgr.getItem_setCanOperList
  have honly : ∀ q, .hu ∈ (s.playerGrabMgr.playerDoGrab p .hu (some c)).2.doneGrabMgr.opers q →
      q = p := by
    intro q hq
    rcases PlayerGrabMgr.mem_done_playerDoGrab hq with hq | ⟨hq, -⟩
    · exact absurd hq ((h.chosen_ne hch.1).notMem q)
    · exact hq
  constructor
  · rintro ⟨w', t', item, hwin, -, hitem', ho, -, -⟩
    rw [hargs] at hwin
    obtain rfl : w = w' := by simpa using hwin
    have hwp : w = p := by
      apply honly
      unfold CanGrabMgr.opers
      rw [show (s.playerGrabMgr.playerDoGrab p .hu (some c)).2.doneGrabMgr.getItem w = some item
        from hitem']
      simp [ho]
    intro t' ht'
    rw [hc.pos] at ht'
    obtain rfl := Option.some.inj ht'
    rw [← hwp]
    exact hmin
  · intro hnear
    have hwp : w = p := dist_injective t (le_antisymm (hmin p hp) (hnear t hc.pos w hw))
    rw [hargs, hwp]
    refine ⟨p, t, _, rfl, rfl, hitem, rfl, rfl, fun q hq => ?_⟩
    rw [honly q hq]

end Winner

/-! ### Runs -/

section Runs

variable {rule : RoomRuleMap} {s s' : Game} {e : Seat × ClientMsg} {a : EndArgs}

/-- A step that ends the round otherwise than in a draw declares a win. -/
lemma declared_of_step (h : Going s) (hstep : step rule s e = some s') (ha : s'.endArgs = some a)
    (hdraw : a.isLiuJu = false) : ∃ c, Chooses s e.1 .hu c ∧ s.declaresHu e.1 e.2 = true ∧
      s' = doHu (afterChoice s e.1 .hu c s.mjCancelMgr) e.1 c := by
  obtain ⟨r, hout, rfl⟩ := step_outcome h hstep
  rcases hout.kept rule h with hkept | ⟨c, ho, hcard, hch, rfl⟩
  · rcases hkept.state with hgo | hdrawn
    · rw [hgo.going] at ha
      exact absurd ha (by simp)
    · rw [hdrawn] at ha
      obtain rfl := Option.some.inj ha
      exact absurd hdraw (by decide)
  · obtain ⟨hmem, -, map, l, hmap, hl, hc⟩ := hch
    have hcl : c ∈ l := hc.resolve_left (by decide)
    exact ⟨c, ⟨hmem, by decide, map, l, hmap, hl, hc⟩,
      Table.declaresHu_iff ho hcard ⟨hmem, by simp [hmap, hl]⟩ hcl, rfl⟩

/-- A step that settles a win on the tile of another seat. -/
lemma step_wonByFirst_iff (h : Going s) (hstep : step rule s e = some s') (ha : s'.endArgs = some a)
    (hdraw : a.isLiuJu = false) (hz : a.isZiMo = false) :
    s.declaresHu e.1 e.2 = true ∧ s.bZiMo e.1 = false ∧ (WonByFirst s' a ↔ Nearest s e.1) := by
  obtain ⟨c, hch, hdeclares, rfl⟩ := declared_of_step h hstep ha hdraw
  have hself : s.bZiMo e.1 = false := by
    obtain rfl := Option.some.inj ha
    exact hz
  exact ⟨hdeclares, hself, wonByFirst_iff h hch hself ha⟩

/-- When a win on the tile of another seat is settled, its winner is the first of those who have
declared it exactly when the seat that declares is nearest to the one whose tile it is among those
that might. In a run in which only nearest seats declare, every such win has the right winner.

**Proof sketch.** Offers and recorded choices keep the phases `Turn` and `Claim`, so that no win is
recorded before one is declared, and the first one declared is carried out at once. The winner is
then the nearest seat of `multiHuPos`, and the declaration recorded is that of one seat. -/
theorem winner_declared_iff (rule : RoomRuleMap) (d : Deal) :
    (∀ s a, Runs.Reaches (step rule) NearestMsg (onEntry rule d).state s → s.endArgs = some a →
      a.isLiuJu = false → a.isZiMo = false → WonByFirst s a) ∧
    ∀ s e s' a, Runs.Reaches (step rule) (fun _ _ => True) (onEntry rule d).state s →
      step rule s e = some s' → s'.endArgs = some a → a.isLiuJu = false → a.isZiMo = false →
      (WonByFirst s' a ↔ Nearest s e.1) := by
  constructor
  · intro s a hs ha hdraw hz
    cases hs with
    | init =>
      rcases (onEntry_kept d).state with hgo | hdrawn
      · rw [hgo.going] at ha
        exact absurd ha (by simp)
      · rw [hdrawn] at ha
        obtain rfl := Option.some.inj ha
        exact absurd hdraw (by decide)
    | step hs hok hstep =>
      obtain ⟨hdeclares, hself, hiff⟩ := step_wonByFirst_iff (going_of_step hs hstep) hstep ha hdraw hz
      exact hiff.mpr (hok hdeclares hself)
  · intro s e s' a hs hstep ha hdraw hz
    exact (step_wonByFirst_iff (going_of_step hs hstep) hstep ha hdraw hz).2.2

end Runs

/-! ### Two seats that may win on one tile -/

/-- The banker plays `5`, with which the next two seats may win as it is the first tile. -/
def pairedDeal : Deal where
  wall := pairedHands ++ wallTiles.diff pairedHands
  perm := by decide +kernel
  banker := 0
  m_bBaoZi := false
  baiDa := 36
  fanDa := by decide +kernel
  last := newGame
  asked := newGame_asked

/-- The first of the two seats declares. -/
theorem winner_declared_nearest : ∃ s a,
    Runs.exec (step ⟨false, true, false⟩) NearestMsg (onEntry ⟨false, true, false⟩ pairedDeal).state
      [(0, ⟨10, 69⟩), (1, ⟨1, 69⟩)] = some s ∧ s.multiHuPos = [1, 2] ∧ s.endArgs = some a ∧
      WonByFirst s a := by
  have hrun : ((Runs.exec (step ⟨false, true, false⟩) NearestMsg
      (onEntry ⟨false, true, false⟩ pairedDeal).state [(0, ⟨10, 69⟩), (1, ⟨1, 69⟩)]).any fun s =>
        decide (s.multiHuPos = [1, 2]) &&
          s.endArgs.any fun a => a.isLiuJu == false && a.isZiMo == false) = true := by
    decide +kernel
  obtain ⟨s, hs, hend⟩ := (Option.any_eq_true _ _).mp hrun
  rw [Bool.and_eq_true, decide_eq_true_eq] at hend
  obtain ⟨a, ha, hargs⟩ := (Option.any_eq_true _ _).mp hend.2
  rw [Bool.and_eq_true, beq_iff_eq, beq_iff_eq] at hargs
  exact ⟨s, a, hs, hend.1, ha, (winner_declared_iff _ pairedDeal).1 s a
    (Runs.reaches_of_exec _ .init hs) ha hargs.1 hargs.2⟩

/-- The second of the two seats declares, and the first, which has not, is the winner. -/
theorem undeclared_winner : ∃ s a,
    Runs.exec (step ⟨false, true, false⟩) (fun _ _ => True)
      (onEntry ⟨false, true, false⟩ pairedDeal).state [(0, ⟨10, 69⟩), (2, ⟨1, 69⟩)] = some s ∧
      s.endArgs = some a ∧ a.isLiuJu = false ∧ a.isZiMo = false ∧ a.winnerPosList = [1] ∧
      s.playerGrabMgr.doneGrabMgr.opers 1 = [] ∧ s.playerGrabMgr.doneGrabMgr.opers 2 = [.hu] ∧
      ¬WonByFirst s a := by
  have hrun : ((Runs.exec (step ⟨false, true, false⟩) (fun _ _ => True)
      (onEntry ⟨false, true, false⟩ pairedDeal).state [(0, ⟨10, 69⟩), (2, ⟨1, 69⟩)]).any fun s =>
        s.endArgs.any fun a => decide (a.isLiuJu = false ∧ a.isZiMo = false ∧
          a.winnerPosList = [1] ∧ s.playerGrabMgr.doneGrabMgr.opers 1 = [] ∧
          s.playerGrabMgr.doneGrabMgr.opers 2 = [.hu])) = true := by
    decide +kernel
  obtain ⟨s, hs, hend⟩ := (Option.any_eq_true _ _).mp hrun
  obtain ⟨a, ha, hargs⟩ := (Option.any_eq_true _ _).mp hend
  obtain ⟨hdraw, hz, hwin, hfirst, hsecond⟩ := of_decide_eq_true hargs
  refine ⟨s, a, hs, ha, hdraw, hz, hwin, hfirst, hsecond, ?_⟩
  rintro ⟨w, t, item, hw, -, hitem, ho, -, -⟩
  rw [hwin] at hw
  obtain rfl : (1 : Seat) = w := by simpa using hw
  simp [CanGrabMgr.opers, hitem, ho] at hfirst

end Tongxiang
