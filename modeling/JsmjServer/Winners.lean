import JsmjServer.Hongzhong.Winners
import JsmjServer.Nanjing.Winners

set_option relaxedAutoImplicit false
set_option autoImplicit false

/-!
# The winners of a round

`doHu` of hongzhong and of nanjing mahjong counts as winners the seats in `multiHuPos`, which is
filled when a tile is offered and not touched by the answers. The two games are put together here.

## Main results

* `Mahjong.winners_declared` — in runs of timely declarations every winner has declared the win, or
  still had the offer of the tile when the round ended.
* `Mahjong.cancelled_winner` — a seat that has cancelled may be counted as a winner otherwise.
-/

namespace Mahjong

/-- In both games, and whatever the order of the messages and timers: when every declaration is
timely, a round ends in a draw or its winners are right.

**Proof sketch.** Offers, recorded choices and the table of offered tiles keep the invariant
`Table.Fair` as long as nobody declares a win. A declaration is carried out at once, and by the
invariant every seat of `multiHuPos` that has not answered is still offered to win on the same
tile. -/
theorem winners_declared {s : Table} {a : EndArgs} (ha : s.endArgs = some a) :
    (∀ (rule : Hongzhong.RoomRuleMap) (wall : List ℕ) (banker : Seat) (last : Table),
      Runs.Reaches (Hongzhong.step rule) Hongzhong.TimelyMsg
        (Hongzhong.onEntry rule wall banker last) s →
      a.isLiuJu = true ∨ s.WonByDeclaration a) ∧
    ∀ (gameProgress : Nanjing.GameProgress) (d : Nanjing.Deal),
      Runs.Reaches Nanjing.step Nanjing.TimelyEvent (Nanjing.onEntry gameProgress d) s →
      a.isLiuJu = true ∨ s.WonByDeclaration a := by
  constructor
  · intro rule wall banker last hs
    exact (Hongzhong.winners_of_timely hs).ended ha
  · intro gameProgress d hs
    exact (Nanjing.winners_of_timely hs).fine.ended ha

/-! ### Two seats that may win on one tile -/

/-- The hands of the four seats and the banker's new tile: the second and the third seat wait for
the tile `5`. -/
def pairedHands : List ℕ :=
  [5, 12, 14, 16, 18, 22, 24, 26, 28, 31, 32, 33, 34] ++
  [1, 1, 1, 2, 3, 4, 5, 6, 7, 8, 9, 9, 9] ++
  [11, 12, 13, 14, 15, 16, 17, 18, 19, 21, 21, 21, 5] ++
  [22, 22, 23, 23, 24, 24, 25, 25, 26, 27, 28, 29, 29] ++ [31]

/-- A deal of nanjing mahjong without flowers in the hands. -/
def paired : Nanjing.Deal where
  wall := pairedHands ++ Nanjing.wallTiles.diff pairedHands
  perm := by decide +kernel
  banker := 0
  last := newTable
  asked := newTable_asked

/-- The evaluation of hands without melds: each is `kMengQing` or a form of seven pairs. -/
def concealed : Nanjing.GameProgress where
  countHuType := fun _ _ => ⟨false, false, false, true⟩
  isOut := fun _ => false
  getJYZCount := 0

/-- The banker plays `5`; further messages follow. -/
def pairedMsgs (msgs : List (Seat × ClientMsg)) : List (Nanjing.GameProgress × Nanjing.Event) :=
  ((0, ⟨10, 69⟩) :: msgs).map fun m => (concealed, .clientMsg m.1 m.2)

/-- Declarations while the other seat that may win has not answered. -/
theorem winners_declared_two :
    (∃ s a, Runs.exec (Hongzhong.step Hongzhong.robbedKong.rule) Hongzhong.TimelyMsg
        (Hongzhong.start Hongzhong.robbedKong) (Hongzhong.robbedMsgs.take 6 ++ [(3, ⟨1, 68⟩)]) =
        some s ∧ s.endArgs = some a ∧ a.winnerPosList = [2, 3] ∧
        (a.isLiuJu = true ∨ s.WonByDeclaration a)) ∧
    ∃ s a, Runs.exec Nanjing.step Nanjing.TimelyEvent (Nanjing.onEntry concealed paired)
        (pairedMsgs [(2, ⟨1, 69⟩)]) = some s ∧ s.endArgs = some a ∧ a.winnerPosList = [1, 2] ∧
        (a.isLiuJu = true ∨ s.WonByDeclaration a) := by
  constructor
  · have hrun : ((Runs.exec (Hongzhong.step Hongzhong.robbedKong.rule) Hongzhong.TimelyMsg
        (Hongzhong.start Hongzhong.robbedKong)
        (Hongzhong.robbedMsgs.take 6 ++ [(3, ⟨1, 68⟩)])).any fun s =>
          s.endArgs.any fun a => decide (a.winnerPosList = [2, 3])) = true := by
      decide +kernel
    obtain ⟨s, hs, hover⟩ := (Option.any_eq_true _ _).mp hrun
    obtain ⟨a, ha, hwin⟩ := (Option.any_eq_true _ _).mp hover
    exact ⟨s, a, hs, ha, of_decide_eq_true hwin,
      (winners_declared ha).1 _ _ _ _ (Runs.reaches_of_exec _ .init hs)⟩
  · have hrun : ((Runs.exec Nanjing.step Nanjing.TimelyEvent (Nanjing.onEntry concealed paired)
        (pairedMsgs [(2, ⟨1, 69⟩)])).any fun s =>
          s.endArgs.any fun a => decide (a.winnerPosList = [1, 2])) = true := by
      decide +kernel
    obtain ⟨s, hs, hover⟩ := (Option.any_eq_true _ _).mp hrun
    obtain ⟨a, ha, hwin⟩ := (Option.any_eq_true _ _).mp hover
    exact ⟨s, a, hs, ha, of_decide_eq_true hwin,
      (winners_declared ha).2 _ _ (Runs.reaches_of_exec _ .init hs)⟩

/-- In both games a seat that has cancelled is among the winners when another declares after it. -/
theorem cancelled_winner :
    (∃ s a, Runs.exec (Hongzhong.step Hongzhong.robbedKong.rule) (fun _ _ => True)
        (Hongzhong.start Hongzhong.robbedKong) Hongzhong.robbedMsgs = some s ∧
        s.endArgs = some a ∧ a.isLiuJu = false ∧ a.winnerPosList = [2, 3] ∧
        s.playerGrabMgr.doneGrabMgr.opers 2 = [.cancel] ∧ ¬s.WonByDeclaration a) ∧
    ∃ s a, Runs.exec Nanjing.step (fun _ _ => True) (Nanjing.onEntry concealed paired)
        (pairedMsgs [(1, ⟨11, 0⟩), (2, ⟨1, 69⟩)]) = some s ∧
        s.endArgs = some a ∧ a.isLiuJu = false ∧ a.winnerPosList = [1, 2] ∧
        s.playerGrabMgr.doneGrabMgr.opers 1 = [.cancel] ∧ ¬s.WonByDeclaration a := by
  constructor
  · have hrun : ((Runs.exec (Hongzhong.step Hongzhong.robbedKong.rule) (fun _ _ => True)
        (Hongzhong.start Hongzhong.robbedKong) Hongzhong.robbedMsgs).any fun s =>
          s.endArgs.any fun a => decide (a.isLiuJu = false ∧ a.winnerPosList = [2, 3] ∧
            a.huPos = some 3 ∧ s.playerGrabMgr.doneGrabMgr.opers 2 = [.cancel])) = true := by
      decide +kernel
    obtain ⟨s, hs, hover⟩ := (Option.any_eq_true _ _).mp hrun
    obtain ⟨a, ha, hend⟩ := (Option.any_eq_true _ _).mp hover
    obtain ⟨hdraw, hwin, hpos, hdone⟩ := of_decide_eq_true hend
    refine ⟨s, a, hs, ha, hdraw, hwin, hdone, ?_⟩
    exact Table.not_wonByDeclaration (q := 2) hpos (by simp [hwin]) (by decide)
      (by simp [Table.Unanswered, hdone])
  · have hrun : ((Runs.exec Nanjing.step (fun _ _ => True) (Nanjing.onEntry concealed paired)
        (pairedMsgs [(1, ⟨11, 0⟩), (2, ⟨1, 69⟩)])).any fun s =>
          s.endArgs.any fun a => decide (a.isLiuJu = false ∧ a.winnerPosList = [1, 2] ∧
            a.huPos = some 2 ∧ s.playerGrabMgr.doneGrabMgr.opers 1 = [.cancel])) = true := by
      decide +kernel
    obtain ⟨s, hs, hover⟩ := (Option.any_eq_true _ _).mp hrun
    obtain ⟨a, ha, hend⟩ := (Option.any_eq_true _ _).mp hover
    obtain ⟨hdraw, hwin, hpos, hdone⟩ := of_decide_eq_true hend
    refine ⟨s, a, hs, ha, hdraw, hwin, hdone, ?_⟩
    exact Table.not_wonByDeclaration (q := 1) hpos (by simp [hwin]) (by decide)
      (by simp [Table.Unanswered, hdone])

end Mahjong
