import JsmjServer.Nanjing.Conservation
import JsmjServer.Nanjing.Room
import Mathlib.Algebra.BigOperators.Intervals

set_option relaxedAutoImplicit false
set_option autoImplicit false

/-!
# The ledger of a nanjing room

Every payment in a room is booked in the list of the scores of the round and, but for the payment
at the end of a round, in that of the kongs or that of the fines. The exception is the payment kept
for an added kong that might have been robbed: it is booked in the list of the scores only, and it
is the amount that the payer could afford when the kong was made.

## Main definitions

* `Nanjing.Room.decided` — the choice that a message makes prevail.
* `Nanjing.Room.Paid` — what an event does to the accounts.
* `Nanjing.Accounts.Capped`, `Nanjing.Room.Solvent` — the scores of a jin-yuan-zi room, and the
  condition under which they are kept.
* `Nanjing.Room.AddsUp`, `Nanjing.Room.BooksKong` — the lists of the rounds, and the condition under
  which they agree.

## Main results

* `Nanjing.Room.handle_paid` — every event.
* `Nanjing.Room.scores_capped`, `Nanjing.Room.lists_add_up` — every run.
-/

namespace Nanjing

open Mahjong

namespace Room

/-- The choice that is carried out, when the decision need not wait. -/
def prevailing (g : PlayerGrabMgr) : Option GrabItem :=
  if g.needWait = some false then g.getPowestNode else none

/-- The choice that prevails once the message is recorded. -/
def decided (s : Room) : RoomEvent → Option GrabItem
  | .play (.clientMsg pos pkg) =>
    match Oper.ofCode pkg.operation with
    | none | some .play | some .syncData | some .testNeedCard => none
    | some oper =>
      let card := if oper = .cancel then some 1 else fromOld2NowCardByteMap pkg.card_bytes
      prevailing (s.table.playerGrabMgr.playerDoGrab pos oper card).2
  | _ => none

/-- The seat that pays for a kong that is chosen: the one whose tile is taken, now or for the
peng. -/
def payer (s : Room) (node : GrabItem) : Option Seat :=
  match node.operList.head? with
  | some .mg => s.table.playerGrabMgr.pos
  | some .mxg => node.byteCard.bind fun byteCard =>
    ((s.table.playerList node.pos).pileList.find? (MJPlayer.isPengOf byteCard)).bind MJPile.fromPos
  | _ => none

/-- A fine is booked as a whole or not at all. -/
def Fined (rule : RoomRule) (isBiXiaHu : Bool) (a a' : Accounts) : Prop :=
  a' = a ∨ ∃ loser, a' = (a.addRoundScore rule (fine rule isBiXiaHu loser)).addRoundFaScore
      (fine rule isBiXiaHu loser) ∧
    (rule.isJYZ = true → (∀ i, 0 ≤ a.leftMoney i) → Covered a.leftMoney (fine rule isBiXiaHu loser))

/-- What is paid when the choice `node` prevails, or without one: the accounts afterwards, and the
payment that is kept. -/
inductive Paid (rule : RoomRule) (s : Room) (node : Option GrabItem) :
    Accounts → Option (Seat → ℤ) → Prop
  | nothing : Paid rule s node s.accounts s.qiangGangMoney
  | kong {k : GrabItem} {q : Seat} (hk : node = some k) (hq : s.payer k = some q) :
      Paid rule s node (s.bookGang rule (oneFee rule s.accounts s.isBiXiaHu k.pos q)).accounts
        s.qiangGangMoney
  | kept {k : GrabItem} {q : Seat} (hk : node = some k) (hq : s.payer k = some q) :
      Paid rule s node s.accounts (some (oneFee rule s.accounts s.isBiXiaHu k.pos q))
  | all (p : Seat) :
      Paid rule s node (s.bookGang rule (anGangFee rule s.accounts s.isBiXiaHu p)).accounts
        s.qiangGangMoney
  | fines {a a' : Accounts} (h : Fined rule s.isBiXiaHu s.accounts a)
      (h' : Fined rule s.isBiXiaHu a a') : Paid rule s node a' s.qiangGangMoney
  | cancel {k : GrabItem} {money : Seat → ℤ} (hk : node = some k)
      (hc : k.operList.head? = some .cancel) (hq : s.table.isQiangGanging = true)
      (hm : s.qiangGangMoney = some money) :
      Paid rule s node (s.accounts.addRoundScore rule money) none
  | fresh (hjyz : rule.isJYZ = false) :
      Paid rule s node { s.accounts with leftMoney := fun _ => rule.limitScore } s.qiangGangMoney

/-! ### What the handlers pay -/

section Handlers

variable (rule : RoomRule) (ask : Seat → Option ℕ → CountHuType) {s s' : Room}
  {node : Option GrabItem} {k : GrabItem}

/-- What the payments depend on. -/
structure Same (s s' : Room) : Prop where
  accounts : s'.accounts = s.accounts
  kept : s'.qiangGangMoney = s.qiangGangMoney
  twice : s'.isBiXiaHu = s.isBiXiaHu
  players : s'.table.playerList = s.table.playerList
  pos : s'.table.playerGrabMgr.pos = s.table.playerGrabMgr.pos
  robbing : s'.table.isQiangGanging = s.table.isQiangGanging

lemma Same.payer_eq (h : Same s s') (k : GrabItem) : s'.payer k = s.payer k := by
  unfold payer
  rw [h.players, h.pos]

lemma Paid.of_same {a : Accounts} {kept : Option (Seat → ℤ)} (hp : Paid rule s' node a kept)
    (h : Same s s') : Paid rule s node a kept := by
  cases hp with
  | nothing =>
    rw [h.accounts, h.kept]
    exact .nothing
  | kong hk hq =>
    rw [h.payer_eq] at hq
    unfold bookGang
    rw [h.accounts, h.kept, h.twice]
    exact .kong hk hq
  | kept hk hq =>
    rw [h.payer_eq] at hq
    rw [h.accounts, h.twice]
    exact .kept hk hq
  | all p =>
    unfold bookGang
    rw [h.accounts, h.kept, h.twice]
    exact .all p
  | fines h₁ h₂ =>
    rw [h.kept]
    rw [h.accounts, h.twice] at h₁
    rw [h.twice] at h₂
    exact .fines h₁ h₂
  | cancel hk hc hq hm =>
    rw [h.accounts]
    exact .cancel hk hc (h.robbing ▸ hq) (h.kept ▸ hm)
  | fresh hjyz =>
    rw [h.accounts, h.kept]
    exact .fresh hjyz

lemma buHua_paid (s : Room) (turn : Seat) : Paid rule s node (buHua rule ask s turn).accounts
    (buHua rule ask s turn).qiangGangMoney := by
  unfold buHua
  dsimp only
  split_ifs
  · split
    · exact .nothing
    · rw [huaGangFee_eq]
      exact .all turn
  · exact .nothing

lemma doGang_paid {q : Seat} (hq : s.payer k = some q) (b : ℕ) :
    Paid rule s (some k) (doGang rule ask s k.pos b q).2.accounts
      (doGang rule ask s k.pos b q).2.qiangGangMoney := by
  unfold doGang
  dsimp only
  split_ifs
  · exact .kong rfl hq
  · exact .nothing

lemma doAnGang_paid (s : Room) (p : Seat) (b : ℕ) (q : Seat) :
    Paid rule s node (doAnGang rule ask s p b q).accounts
      (doAnGang rule ask s p b q).qiangGangMoney := by
  unfold doAnGang
  dsimp only
  split_ifs
  · exact .all p
  · exact .nothing

lemma doMXGang_paid {b : ℕ} (ho : k.operList.head? = some .mxg) (hb : k.byteCard = some b) :
    Paid rule s (some k) (doMXGang rule ask s k.pos b).state.accounts
      (doMXGang rule ask s k.pos b).state.qiangGangMoney := by
  unfold doMXGang
  dsimp only
  split_ifs
  · split
    · exact .nothing
    · rename_i q hfrom
      have hq : s.payer k = some q := by
        rw [payer, ho, hb]
        exact hfrom
      split
      · exact .nothing
      · split_ifs
        · exact .kept rfl hq
        · exact .kong rfl hq
  · exact .nothing

lemma faFen_fined (s : Room) (loser : Seat) :
    Fined rule s.isBiXiaHu s.accounts (faFen rule s loser).state.accounts ∧
      (faFen rule s loser).state.isBiXiaHu = s.isBiXiaHu ∧
      (faFen rule s loser).state.qiangGangMoney = s.qiangGangMoney := by
  unfold faFen
  dsimp only
  split
  · exact ⟨Or.inl rfl, rfl, rfl⟩
  · rename_i a ha
    refine ⟨?_, rfl, rfl⟩
    rcases broadcastOutCardMoney_cases ha with heq | ⟨heq, hcov⟩
    · exact Or.inl heq
    · exact Or.inr ⟨loser, heq, hcov⟩

/-- Two fines at most, one after the other. -/
lemma faFens_fined (s : Room) (pos : Seat) (b : ℕ) : ∃ a,
    Fined rule s.isBiXiaHu s.accounts a ∧
      Fined rule s.isBiXiaHu a (faFens rule s pos b).state.accounts ∧
      (faFens rule s pos b).state.qiangGangMoney = s.qiangGangMoney := by
  obtain ⟨r, hr, hfined, htwice, hkept⟩ : ∃ r : Handled,
      r = (if (s.table.riverCardList pos).count b = 4 then faFen rule s pos else .ok s) ∧
      Fined rule s.isBiXiaHu s.accounts r.state.accounts ∧ r.state.isBiXiaHu = s.isBiXiaHu ∧
      r.state.qiangGangMoney = s.qiangGangMoney := by
    refine ⟨_, rfl, ?_⟩
    split_ifs
    · exact faFen_fined rule s pos
    · exact ⟨Or.inl rfl, rfl, rfl⟩
  refine ⟨r.state.accounts, hfined, ?_⟩
  unfold faFens
  rw [← hr]
  cases r with
  | error s₁ => exact ⟨Or.inl rfl, hkept⟩
  | ok s₁ =>
    change Fined rule s.isBiXiaHu s₁.accounts (Handled.state (if isGeng4 s₁.table pos b then
      faFen rule s₁ (nextPlayerPos pos) else .ok s₁)).accounts ∧ (Handled.state
        (if isGeng4 s₁.table pos b then faFen rule s₁ (nextPlayerPos pos) else .ok
          s₁)).qiangGangMoney = s.qiangGangMoney
    change s₁.isBiXiaHu = s.isBiXiaHu at htwice
    change s₁.qiangGangMoney = s.qiangGangMoney at hkept
    rw [← htwice, ← hkept]
    split_ifs
    · exact ⟨(faFen_fined rule s₁ _).1, (faFen_fined rule s₁ _).2.2⟩
    · exact ⟨Or.inl rfl, rfl⟩

lemma onPlayCard_paid (s : Room) (pos : Seat) (card : Option ℕ) :
    Paid rule s node (onPlayCard rule ask s pos card).state.accounts
      (onPlayCard rule ask s pos card).state.qiangGangMoney := by
  cases card with
  | none => exact .nothing
  | some b =>
    unfold onPlayCard
    dsimp only
    split_ifs
    · exact .nothing
    · exact .nothing
    · obtain ⟨a, h₁, h₂, hkept⟩ := faFens_fined rule
        { s with table := discard s.table pos b ((s.table.playerList pos).doPlayCard b).2 } pos b
      cases hr : faFens rule
        { s with table := discard s.table pos b ((s.table.playerList pos).doPlayCard b).2 } pos b with
      | error s₁ =>
        rw [hr] at h₂ hkept
        change Paid rule s node s₁.accounts s₁.qiangGangMoney
        rw [show s₁.qiangGangMoney = s.qiangGangMoney from hkept]
        exact .fines h₁ h₂
      | ok s₁ =>
        rw [hr] at h₂ hkept
        have hfines : Paid rule s node s₁.accounts s₁.qiangGangMoney := by
          rw [show s₁.qiangGangMoney = s.qiangGangMoney from hkept]
          exact .fines h₁ h₂
        simp only [Except.bind]
        split
        · exact hfines
        · split_ifs
          · exact hfines
          · exact hfines

lemma cancelEnd_paid {q : Seat} (hc : k.operList.head? = some .cancel) :
    Paid rule s (some k) (cancelEnd rule ask s k.pos q).state.accounts
      (cancelEnd rule ask s k.pos q).state.qiangGangMoney := by
  unfold cancelEnd
  split_ifs with hrob
  · split
    · rename_i hm
      exact .cancel rfl hc hrob hm
    · exact .nothing
  · split
    · exact .nothing
    · split_ifs
      · exact .nothing
      · exact .nothing

/-- The prevailing choice is paid for. -/
lemma grabEnd_paid (s : Room) : Paid rule s s.table.playerGrabMgr.getPowestNode
    (grabEnd rule ask s).state.accounts (grabEnd rule ask s).state.qiangGangMoney := by
  unfold grabEnd
  split
  · exact .nothing
  · rename_i grabedPos hpos
    cases hnode : s.table.playerGrabMgr.getPowestNode with
    | none => exact .nothing
    | some k =>
      dsimp only
      split
      · rename_i hc
        exact cancelEnd_paid rule ask hc
      · exact .nothing
      · exact .nothing
      · split_ifs
        · exact .nothing
        · exact .nothing
      · exact doAnGang_paid rule ask s _ _ _
      · rename_i ho _
        have hq : s.payer k = some grabedPos := by
          rw [payer, ho]
          exact hpos
        split_ifs
        · exact doGang_paid rule ask hq _
        · exact doGang_paid rule ask hq _
      · rename_i ho hb
        exact doMXGang_paid rule ask ho hb
      · exact onPlayCard_paid rule ask s _ _
      · exact .nothing

lemma decideOrWait_paid (s : Room) : Paid rule s (prevailing s.table.playerGrabMgr)
    (decideOrWait rule ask s).state.accounts (decideOrWait rule ask s).state.qiangGangMoney := by
  unfold decideOrWait
  cases hwait : s.table.playerGrabMgr.needWait with
  | none => exact .nothing
  | some wait =>
    cases wait with
    | false =>
      rw [prevailing, if_pos hwait]
      exact grabEnd_paid rule ask s
    | true => exact .nothing

/-- Emptying the offers of a seat changes nothing else. -/
lemma clearCanDoMap_others (table : Table) (pos : Seat) :
    ∃ map, clearCanDoMap table pos = { table with playerCanDoMap := map } := by
  unfold clearCanDoMap
  split_ifs
  · exact ⟨_, rfl⟩
  · exact ⟨_, rfl⟩

lemma onGrabCard_paid (s : Room) (pos : Seat) (oper : Oper) (card : Option ℕ) :
    Paid rule s (prevailing (s.table.playerGrabMgr.playerDoGrab pos oper
        (if oper = .cancel then some 1 else card)).2)
      (onGrabCard rule ask s pos oper card).state.accounts
      (onGrabCard rule ask s pos oper card).state.qiangGangMoney := by
  unfold onGrabCard
  by_cases hhas : (!s.table.playerGrabMgr.hasOper pos oper) = true
  · simp only [if_pos hhas]
    exact .nothing
  simp only [if_neg hhas]
  rcases s.table.playerCanDoMap pos with _ | canDoMap
  · exact .nothing
  dsimp only
  rcases canDoMap.cards oper with _ | cardList
  · exact .nothing
  by_cases hcancel : oper = .cancel
  · simp only [if_pos hcancel]
    obtain ⟨map, hclear⟩ := clearCanDoMap_others { s.table with
      playerGrabMgr := (s.table.playerGrabMgr.playerDoGrab pos oper (some 1)).2 } pos
    rw [hclear]
    -- the table on which the decision is made differs in the offers and in the cancelled operations
    have hpaid : ∀ table : Table, table.playerGrabMgr =
        (s.table.playerGrabMgr.playerDoGrab pos oper (some 1)).2 →
        table.playerList = s.table.playerList → table.isQiangGanging = s.table.isQiangGanging →
        Paid rule s (prevailing (s.table.playerGrabMgr.playerDoGrab pos oper (some 1)).2)
          (decideOrWait rule ask { s with table := table }).state.accounts
          (decideOrWait rule ask { s with table := table }).state.qiangGangMoney := by
      intro table hgrab hplayers hrob
      rw [← hgrab]
      have hpos := (congrArg PlayerGrabMgr.pos hgrab).trans (PlayerGrabMgr.pos_playerDoGrab (some 1))
      exact (decideOrWait_paid rule ask { s with table := table }).of_same rule
        ⟨rfl, rfl, rfl, hplayers, hpos, hrob⟩
    split_ifs
    · exact hpaid _ rfl rfl rfl
    · exact hpaid _ rfl rfl rfl
  · simp only [if_neg hcancel]
    cases card with
    | none => exact .nothing
    | some b =>
      dsimp only
      split_ifs
      · obtain ⟨map, hclear⟩ := clearCanDoMap_others { s.table with
          playerGrabMgr := (s.table.playerGrabMgr.playerDoGrab pos oper (some b)).2 } pos
        rw [hclear]
        have hpaid := decideOrWait_paid rule ask { s with table := { s.table with
          playerGrabMgr := (s.table.playerGrabMgr.playerDoGrab pos oper (some b)).2
          playerCanDoMap := map } }
        exact hpaid.of_same rule ⟨rfl, rfl, rfl, rfl, PlayerGrabMgr.pos_playerDoGrab (some b), rfl⟩
      · exact .nothing

lemma onClientMsg_paid (s : Room) (pos : Seat) (pkg : ClientMsg) :
    Paid rule s (decided s (.play (.clientMsg pos pkg)))
      (onClientMsg rule ask s pos pkg).state.accounts
      (onClientMsg rule ask s pos pkg).state.qiangGangMoney := by
  unfold onClientMsg
  cases hop : Oper.ofCode pkg.operation with
  | none => exact .nothing
  | some oper =>
    have hgrab := onGrabCard_paid rule ask s pos oper (fromOld2NowCardByteMap pkg.card_bytes)
    unfold decided
    dsimp only
    rw [hop]
    cases oper <;> first
      | exact onPlayCard_paid rule ask s pos _ | exact .nothing | exact hgrab

end Handlers

/-! ### What an event and the end of a round pay -/

section Events

variable {rule : RoomRule} {asked : Asked} {s s' : Room} {e : RoomEvent}

/-- **What an event pays.** -/
lemma handle_paid (h : handle rule asked s e = some s') :
    Paid rule s (decided s e) s'.accounts s'.qiangGangMoney := by
  cases e with
  | gameStart d =>
    unfold handle at h
    dsimp only at h
    split_ifs at h
    · obtain rfl := Option.some.inj h
      exact .nothing
    · obtain rfl := Option.some.inj h
      unfold gameBegin
      cases hjyz : rule.isJYZ with
      | false => exact .fresh hjyz
      | true => exact .nothing
  | disband =>
    obtain rfl := Option.some.inj h
    exact .nothing
  | play event =>
    cases event with
    | clientMsg pos pkg =>
      unfold handle at h
      dsimp only at h
      split_ifs at h
      obtain rfl := Option.some.inj h
      exact onClientMsg_paid rule asked.countHuType s pos pkg
    | buHua turn =>
      unfold handle at h
      dsimp only at h
      split_ifs at h
      obtain rfl := Option.some.inj h
      exact (buHua_paid rule asked.countHuType _ turn).of_same rule ⟨rfl, rfl, rfl, rfl, rfl, rfl⟩

lemma loopTo_accounts (rule : RoomRule) (s : Room) : (loopTo rule s).accounts = s.accounts ∨
    (loopTo rule s).accounts = { s.accounts with roundCount := s.accounts.roundCount + 1 } := by
  unfold loopTo
  split_ifs
  · exact Or.inr rfl
  · exact Or.inl rfl

lemma loopTo_kept (rule : RoomRule) (s : Room) :
    (loopTo rule s).qiangGangMoney = s.qiangGangMoney := by
  unfold loopTo
  split_ifs <;> rfl

/-- What the end of a round books: nothing, zeros, or what `calculateMoney` has returned. -/
def Settled (rule : RoomRule) (a a' : Accounts) : Prop :=
  a' = a ∨ a' = a.addRoundScore rule (fun _ => 0) ∨ ∃ evaluate args money,
    calculateMoney rule a.leftMoney evaluate args = some money ∧ a' = a.addSettlement rule money

/-- **What the end of a round pays.** -/
lemma settle_paid (rule : RoomRule) (asked : Asked) (s : Room) :
    (settle rule asked s).qiangGangMoney = s.qiangGangMoney ∧
      ∃ a, Settled rule s.accounts a ∧ ((settle rule asked s).accounts = a ∨
        (settle rule asked s).accounts = { a with roundCount := a.roundCount + 1 }) := by
  unfold settle
  split
  · exact ⟨rfl, s.accounts, Or.inl rfl, Or.inl rfl⟩
  · rename_i args _
    unfold gameEnd
    by_cases hliu : args.isLiuJu = true
    · simp only [if_pos hliu]
      exact ⟨loopTo_kept rule _, _, Or.inr (Or.inl rfl), loopTo_accounts rule _⟩
    · simp only [if_neg hliu]
      by_cases hstop : asked.stops = true
      · simp only [if_pos hstop]
        exact ⟨trivial, s.accounts, Or.inl rfl, Or.inl rfl⟩
      · simp only [if_neg hstop]
        cases hmoney : calculateMoney rule s.accounts.leftMoney asked.evaluate args with
        | none => exact ⟨rfl, s.accounts, Or.inl rfl, Or.inl rfl⟩
        | some money =>
          exact ⟨loopTo_kept rule _, _, Or.inr (Or.inr ⟨_, _, money, hmoney, rfl⟩),
            loopTo_accounts rule _⟩

end Events

end Room

/-! ### The scores of a jin-yuan-zi room -/

namespace Accounts

/-- The scores that are left: none is negative, in total they are what the seats began with, and
each is what it began with and the scores of all rounds. -/
structure Capped (rule : RoomRule) (a : Accounts) : Prop where
  nonneg : ∀ i, 0 ≤ a.leftMoney i
  sum : ∑ i, a.leftMoney i = 4 * rule.limitScore
  total : ∀ i, a.leftMoney i = rule.limitScore +
    ∑ r ∈ Finset.Icc 1 a.roundCount, entry a.roundScoreList r i
  first : 1 ≤ a.roundCount
  later : ∀ r, r ∉ Finset.Icc 1 a.roundCount → a.roundScoreList r = none

section Capped

variable {rule : RoomRule} {a a' : Accounts} {money : Seat → ℤ}

/-- A covered payment keeps the scores together. -/
lemma Capped.addRoundScore (h : a.Capped rule) (hcov : Covered a.leftMoney money) :
    (a.addRoundScore rule money).Capped rule := by
  have hleft := leftMoney_addRoundScore rule hcov
  have hmem : a.roundCount ∈ Finset.Icc 1 a.roundCount := Finset.mem_Icc.mpr ⟨h.first, le_refl _⟩
  refine ⟨fun i => ?_, ?_, fun i => ?_, h.first, fun r hr => ?_⟩
  · rw [hleft i]
    exact hcov.left i
  · rw [Finset.sum_congr rfl fun i _ => hleft i, Finset.sum_add_distrib, hcov.sum, h.sum, add_zero]
  · have hrest : ∀ r ∈ (Finset.Icc 1 a.roundCount).erase a.roundCount,
        entry (addEntry a.roundScoreList a.roundCount money) r i = entry a.roundScoreList r i :=
      fun r hr => entry_addEntry_of_ne _ _ _ (Finset.ne_of_mem_erase hr) i
    rw [hleft i, h.total i]
    change _ = _ + ∑ r ∈ Finset.Icc 1 a.roundCount,
      entry (addEntry a.roundScoreList a.roundCount money) r i
    rw [← Finset.add_sum_erase _ _ hmem, ← Finset.add_sum_erase _ _ hmem, Finset.sum_congr rfl hrest,
      entry_addEntry_self]
    ring
  · refine addEntry_eq_none _ _ _ ?_ (h.later r hr)
    rintro rfl
    exact hr hmem

/-- The other lists do not matter. -/
lemma Capped.of_eq (h : a.Capped rule) (hleft : a'.leftMoney = a.leftMoney)
    (hround : a'.roundCount = a.roundCount) (hlist : a'.roundScoreList = a.roundScoreList) :
    a'.Capped rule := by
  refine ⟨?_, ?_, ?_, ?_, ?_⟩ <;> simp only [hleft, hround, hlist]
  · exact h.nonneg
  · exact h.sum
  · exact h.total
  · exact h.first
  · exact h.later

/-- The next round has no entry yet. -/
lemma Capped.nextRound (h : a.Capped rule) :
    ({ a with roundCount := a.roundCount + 1 } : Accounts).Capped rule := by
  refine ⟨h.nonneg, h.sum, fun i => ?_, Nat.le_succ_of_le h.first, fun r hr => h.later r ?_⟩
  · have hnone : a.roundScoreList (a.roundCount + 1) = none :=
      h.later _ (by rw [Finset.mem_Icc]; omega)
    change a.leftMoney i = _ + ∑ r ∈ Finset.Icc 1 (a.roundCount + 1), entry a.roundScoreList r i
    rw [Finset.sum_Icc_succ_top (by omega), entry, hnone, h.total i]
    simp
  · rw [Finset.mem_Icc] at hr ⊢
    dsimp only at hr
    omega

/-- Nobody pays anything. -/
lemma Capped.covered_zero (h : a.Capped rule) : Covered a.leftMoney fun _ => 0 :=
  ⟨by simp, fun i => by simpa using h.nonneg i⟩

end Capped

end Accounts

namespace Room

/-- The condition on an event: the seat that pays for a kong is not the one that makes it, and when
nobody robs a kong, the payment kept for it can still be paid. -/
def Solvent (s : Room) (e : Asked × RoomEvent) : Prop :=
  (∀ node ∈ s.decided e.2, s.payer node ≠ some node.pos) ∧
    ∀ node ∈ s.decided e.2, node.operList.head? = some .cancel → s.table.isQiangGanging = true →
      ∀ money ∈ s.qiangGangMoney, ∀ i, 0 ≤ s.accounts.leftMoney i + money i

instance (s : Room) (e : Asked × RoomEvent) : Decidable (s.Solvent e) :=
  inferInstanceAs (Decidable ((∀ node ∈ s.decided e.2, s.payer node ≠ some node.pos) ∧
    ∀ node ∈ s.decided e.2, node.operList.head? = some .cancel → s.table.isQiangGanging = true →
      ∀ money ∈ s.qiangGangMoney, ∀ i, 0 ≤ s.accounts.leftMoney i + money i))

section Capped

variable {rule : RoomRule} {s s' : Room} {e : Asked × RoomEvent}

/-- The scores are capped, and the payment that is kept is one between the seats. -/
structure CappedInv (rule : RoomRule) (s : Room) : Prop where
  capped : s.accounts.Capped rule
  kept : ∀ money ∈ s.qiangGangMoney, ∑ i, money i = 0

lemma Fined.capped {isBiXiaHu : Bool} {a a' : Accounts} (hjyz : rule.isJYZ = true)
    (hf : Fined rule isBiXiaHu a a') (h : a.Capped rule) : a'.Capped rule := by
  rcases hf with rfl | ⟨loser, rfl, hcov⟩
  · exact h
  · exact (h.addRoundScore (hcov hjyz h.nonneg)).of_eq rfl rfl rfl

/-- What an event pays keeps the scores together. -/
lemma Paid.capped {a : Accounts} {kept : Option (Seat → ℤ)} (hjyz : rule.isJYZ = true)
    (hunit : 0 ≤ rule.unitCoin) (h : CappedInv rule s) (hok : s.Solvent e)
    (hp : Paid rule s (s.decided e.2) a kept) :
    a.Capped rule ∧ ∀ money ∈ kept, ∑ i, money i = 0 := by
  have hlimit : rule.isLimited = true := by
    rw [RoomRule.isLimited, hjyz]
    rfl
  cases hp with
  | nothing => exact ⟨h.capped, h.kept⟩
  | @kong k q hk hq =>
    have hne : k.pos ≠ q := fun heq => hok.1 k hk (hq.trans (congrArg some heq.symm))
    exact ⟨(h.capped.addRoundScore (covered_oneFee hlimit hunit h.capped.nonneg hne)).of_eq rfl rfl rfl,
      h.kept⟩
  | @kept k q hk hq =>
    have hne : k.pos ≠ q := fun heq => hok.1 k hk (hq.trans (congrArg some heq.symm))
    refine ⟨h.capped, fun money hmoney => ?_⟩
    obtain rfl := Option.some.inj hmoney
    exact (covered_oneFee hlimit hunit h.capped.nonneg hne).sum
  | all p =>
    exact ⟨(h.capped.addRoundScore (covered_anGangFee hlimit hunit h.capped.nonneg)).of_eq rfl rfl rfl,
      h.kept⟩
  | fines h₁ h₂ => exact ⟨h₂.capped hjyz (h₁.capped hjyz h.capped), h.kept⟩
  | @cancel k money hk hc hrob hm =>
    have hcov : Covered s.accounts.leftMoney money :=
      ⟨h.kept money hm, hok.2 k hk hc hrob money hm⟩
    exact ⟨h.capped.addRoundScore hcov, by simp⟩
  | fresh hopen => exact absurd (hjyz.symm.trans hopen) (by simp)

/-- The end of a round keeps the scores together. -/
lemma Settled.capped {a a' : Accounts} (hjyz : rule.isJYZ = true) (hunit : 0 ≤ rule.unitCoin)
    (hs : Settled rule a a') (h : a.Capped rule) : a'.Capped rule := by
  have hlimit : rule.isLimited = true := by
    rw [RoomRule.isLimited, hjyz]
    rfl
  rcases hs with rfl | rfl | ⟨evaluate, args, money, hmoney, rfl⟩
  · exact h
  · exact h.addRoundScore h.covered_zero
  · have hcov := covered_calculateMoney hlimit hunit hjyz h.nonneg hmoney
    exact (h.addRoundScore hcov).of_eq rfl rfl rfl

lemma step_capped (hjyz : rule.isJYZ = true) (hunit : 0 ≤ rule.unitCoin) (h : CappedInv rule s)
    (hok : s.Solvent e) (hstep : s.step rule e = some s') : CappedInv rule s' := by
  obtain ⟨s₁, hs₁, rfl⟩ := Option.map_eq_some_iff.mp hstep
  obtain ⟨hcapped, hkept⟩ := (handle_paid hs₁).capped hjyz hunit h hok
  obtain ⟨hsame, a, hset, hend⟩ := settle_paid rule e.1 s₁
  have ha := hset.capped hjyz hunit hcapped
  refine ⟨?_, fun money hmoney => hkept money (hsame ▸ hmoney)⟩
  rcases hend with hend | hend <;> rw [hend]
  · exact ha
  · exact ha.nextRound

lemma opened_capped (rule : RoomRule) : CappedInv rule (opened rule) := by
  refine ⟨⟨fun i => ?_, ?_, fun i => ?_, le_refl 1, fun r _ => rfl⟩, by simp [opened]⟩
  · exact Int.natCast_nonneg rule.limitScore
  · simp [opened]
  · simp [opened, entry]

/-- **The scores of a jin-yuan-zi room**: in every run of rounds in which the seat that pays for a
kong is never the one that makes it, and the payment kept for a kong can still be paid when it is
booked, no score that is left is negative, in total they are four times the limit, and each is the
limit and the scores of all rounds.

**Proof sketch.** Every payment is between the seats and takes from nobody more than is left
(`Paid.capped`, `Settled.capped`), so that `addRoundScore` never cuts off. -/
theorem scores_capped {s : Room} (hjyz : rule.isJYZ = true) (hunit : 0 ≤ rule.unitCoin)
    (h : Runs.Reaches (step rule) Solvent (opened rule) s) : s.accounts.Capped rule :=
  (h.invariant (opened_capped rule) fun _ _ _ hI hok hstep => step_capped hjyz hunit hI hok hstep).capped

end Capped

/-- A jin-yuan-zi room in which the seats begin with 100. -/
def jinYuanZi : RoomRule := ⟨true, 100, false, 4, 8⟩

/-- Answers of `CountHuType` for concealed hands, which may win. -/
def concealed : Asked :=
  ⟨fun _ _ => ⟨false, false, false, true⟩, fun _ => ⟨0, none, false⟩, false⟩

/-- Events with these answers. -/
def played (d : Deal) (es : List Event) : List (Asked × RoomEvent) :=
  (concealed, .gameStart d) :: es.map fun e => (concealed, .play e)

/-- The banker of `flowerDeal` makes its concealed kong, which all others pay. -/
theorem concealed_kong_capped :
    ∃ s, Runs.exec (step jinYuanZi) Solvent (opened jinYuanZi)
        (played flowerDeal [.clientMsg 0 ⟨4, 69⟩]) = some s ∧
      s.accounts.leftMoney 0 = 220 ∧ s.accounts.Capped jinYuanZi := by
  have hrun : ((Runs.exec (step jinYuanZi) Solvent (opened jinYuanZi)
      (played flowerDeal [.clientMsg 0 ⟨4, 69⟩])).any fun s => s.accounts.leftMoney 0 == 220) =
      true := by decide +kernel
  obtain ⟨s, hs, hleft⟩ := (Option.any_eq_true _ _).mp hrun
  exact ⟨s, hs, by simpa using hleft,
    scores_capped rfl (by decide) (Runs.reaches_of_exec _ .init hs)⟩

/-- The hands of a deal in which the banker has three flowers and a concealed kong, and the tiles
after them. -/
def lateHands : List ℕ :=
  [5, 5, 5, 5, 16, 18, 22, 24, 26, 31, 41, 42, 43] ++
  [2, 4, 6, 8, 17, 19, 21, 23, 25, 27, 33, 33, 34] ++
  [1, 3, 6, 8, 8, 9, 16, 18, 21, 23, 25, 27, 32] ++
  [7, 9, 11, 11, 11, 12, 12, 12, 13, 13, 13, 14, 14] ++ [34] ++ [1, 15, 28] ++ [44, 9, 33, 8]

/-- The banker draws its fourth flower, `44`, after its kong. -/
def lateDeal : Deal where
  wall := lateHands ++ wallTiles.diff lateHands
  perm := by decide +kernel
  banker := 0
  last := newTable
  asked := newTable_asked

/-- The banker plays over its flower, and seat 2 adds a tile to its peng. The timer fires before
seat 3 declines to rob the kong. -/
def lateEvents : List Event :=
  [.clientMsg 0 ⟨4, 69⟩, .clientMsg 0 ⟨10, 170⟩, .clientMsg 1 ⟨10, 72⟩, .clientMsg 2 ⟨2, 72⟩,
    .clientMsg 3 ⟨11, 0⟩, .clientMsg 2 ⟨10, 171⟩, .clientMsg 3 ⟨10, 172⟩, .clientMsg 1 ⟨2, 172⟩,
    .clientMsg 1 ⟨10, 173⟩, .clientMsg 2 ⟨5, 72⟩, .buHua 0, .clientMsg 3 ⟨11, 0⟩]

/-- Seat 1 has paid for the flowers of the banker when the payment for the kong of seat 2, which it
could afford before, is booked: it has 20 left and loses 40, so that 20 come from nowhere. -/
theorem late_flower_kong_not_capped :
    ∃ s, Runs.Reaches (step jinYuanZi) (fun _ _ => True) (opened jinYuanZi) s ∧
      s.accounts.leftMoney 0 = 340 ∧ s.accounts.leftMoney 1 = 0 ∧ s.accounts.leftMoney 2 = 60 ∧
      s.accounts.leftMoney 3 = 20 ∧ ∑ i, s.accounts.leftMoney i ≠ 4 * jinYuanZi.limitScore := by
  have hrun : ((Runs.exec (step jinYuanZi) (fun _ _ => True) (opened jinYuanZi)
      (played lateDeal lateEvents)).any fun s => s.accounts.leftMoney 0 == 340 &&
        s.accounts.leftMoney 1 == 0 && s.accounts.leftMoney 2 == 60 &&
        s.accounts.leftMoney 3 == 20) = true := by decide +kernel
  obtain ⟨s, hs, hleft⟩ := (Option.any_eq_true _ _).mp hrun
  simp only [Bool.and_eq_true, beq_iff_eq] at hleft
  obtain ⟨⟨⟨h0, h1⟩, h2⟩, h3⟩ := hleft
  refine ⟨s, Runs.reaches_of_exec _ .init hs, h0, h1, h2, h3, ?_⟩
  rw [Fin.sum_univ_four, h0, h1, h2, h3]
  decide

/-! ### The lists of a round -/

/-- In every round the scores are the payments for kongs, the fines, and what `calculateMoney` has
returned at its end. -/
def AddsUp (a : Accounts) : Prop :=
  ∀ r i, entry a.roundScoreList r i = entry a.roundGangScoreList r i +
    entry a.roundFaScoreList r i + entry a.settled r i

/-- The condition on an event: when nobody robs a kong, no payment is kept for it. -/
def BooksKong (s : Room) (e : Asked × RoomEvent) : Prop :=
  ∀ node ∈ s.decided e.2, node.operList.head? = some .cancel → s.table.isQiangGanging = true →
    ∀ money ∈ s.qiangGangMoney, ∀ i, money i = 0

instance (s : Room) (e : Asked × RoomEvent) : Decidable (s.BooksKong e) :=
  inferInstanceAs (Decidable (∀ node ∈ s.decided e.2, node.operList.head? = some .cancel →
    s.table.isQiangGanging = true → ∀ money ∈ s.qiangGangMoney, ∀ i, money i = 0))

section AddsUp

variable {rule : RoomRule} {s s' : Room} {e : Asked × RoomEvent} {a a' : Accounts}
  {money : Seat → ℤ}

/-- The entry of the current round grows, the others stay. -/
lemma entry_addEntry (list : ℕ → Option (Seat → ℤ)) (round r : ℕ) (scoreMap : Seat → ℤ) (i : Seat) :
    entry (addEntry list round scoreMap) r i =
      entry list r i + if r = round then scoreMap i else 0 := by
  split_ifs with hr
  · subst hr
    exact entry_addEntry_self list r scoreMap i
  · rw [entry_addEntry_of_ne list round scoreMap hr i, add_zero]

lemma AddsUp.gang (h : AddsUp a) :
    AddsUp ((a.addRoundScore rule money).addRoundGangScore money) := by
  intro r i
  have hr := h r i
  simp only [Accounts.addRoundScore, Accounts.addRoundGangScore, entry_addEntry]
  omega

lemma AddsUp.fa (h : AddsUp a) : AddsUp ((a.addRoundScore rule money).addRoundFaScore money) := by
  intro r i
  have hr := h r i
  simp only [Accounts.addRoundScore, Accounts.addRoundFaScore, entry_addEntry]
  omega

lemma AddsUp.settlement (h : AddsUp a) : AddsUp (a.addSettlement rule money) := by
  intro r i
  have hr := h r i
  simp only [Accounts.addSettlement, Accounts.addRoundScore, entry_addEntry]
  omega

lemma AddsUp.zero (h : AddsUp a) (hzero : ∀ i, money i = 0) : AddsUp (a.addRoundScore rule money) := by
  intro r i
  have hr := h r i
  simp only [Accounts.addRoundScore, entry_addEntry, hzero, ite_self, add_zero]
  exact hr

lemma Fined.addsUp {isBiXiaHu : Bool} (hf : Fined rule isBiXiaHu a a') (h : AddsUp a) : AddsUp a' := by
  rcases hf with rfl | ⟨loser, rfl, -⟩
  · exact h
  · exact h.fa

/-- What an event pays is in two lists. -/
lemma Paid.addsUp {kept : Option (Seat → ℤ)} (h : AddsUp s.accounts) (hok : s.BooksKong e)
    (hp : Paid rule s (s.decided e.2) a kept) : AddsUp a := by
  cases hp with
  | nothing => exact h
  | kong _ _ => exact h.gang
  | kept _ _ => exact h
  | all _ => exact h.gang
  | fines h₁ h₂ => exact h₂.addsUp (h₁.addsUp h)
  | cancel hk hc hrob hm => exact h.zero (hok _ hk hc hrob _ hm)
  | fresh _ => exact h

lemma Settled.addsUp (hs : Settled rule a a') (h : AddsUp a) : AddsUp a' := by
  rcases hs with rfl | rfl | ⟨evaluate, args, money, -, rfl⟩
  · exact h
  · exact h.zero fun _ => rfl
  · exact h.settlement

lemma step_addsUp (h : AddsUp s.accounts) (hok : s.BooksKong e) (hstep : s.step rule e = some s') :
    AddsUp s'.accounts := by
  obtain ⟨s₁, hs₁, rfl⟩ := Option.map_eq_some_iff.mp hstep
  obtain ⟨-, a, hset, hend⟩ := settle_paid rule e.1 s₁
  have ha := hset.addsUp ((handle_paid hs₁).addsUp h hok)
  rcases hend with hend | hend <;> rw [hend]
  · exact ha
  · exact ha

/-- **The lists of the rounds add up**: in every run in which no payment is kept for a kong that
nobody robs, and for every seat and round, the score is the sum of the payments for kongs, the
fines, and what `calculateMoney` has returned.

**Proof sketch.** All payments but the one that is kept are booked in two lists (`Paid.addsUp`). -/
theorem lists_add_up {s : Room} (h : Runs.Reaches (step rule) BooksKong (opened rule) s) :
    AddsUp s.accounts :=
  h.invariant (fun _ _ => rfl) fun _ _ _ hI hok hstep => step_addsUp hI hok hstep

end AddsUp

/-- The concealed kong of `flowerDeal` is in both lists. -/
theorem concealed_kong_adds_up :
    ∃ s, Runs.exec (step jinYuanZi) BooksKong (opened jinYuanZi)
        (played flowerDeal [.clientMsg 0 ⟨4, 69⟩]) = some s ∧
      entry s.accounts.roundGangScoreList 1 0 = 120 ∧ AddsUp s.accounts := by
  have hrun : ((Runs.exec (step jinYuanZi) BooksKong (opened jinYuanZi)
      (played flowerDeal [.clientMsg 0 ⟨4, 69⟩])).any fun s =>
        entry s.accounts.roundGangScoreList 1 0 == 120) = true := by decide +kernel
  obtain ⟨s, hs, hgang⟩ := (Option.any_eq_true _ _).mp hrun
  exact ⟨s, hs, by simpa using hgang, lists_add_up (Runs.reaches_of_exec _ .init hs)⟩

/-- The hands of a deal in which seat 2 may rob a kong of seat 1, and the tiles after them. -/
def robHands : List ℕ :=
  [8, 11, 13, 15, 17, 19, 21, 23, 25, 27, 29, 32, 33] ++
  [8, 8, 11, 12, 14, 16, 18, 22, 24, 26, 28, 31, 32] ++
  [1, 1, 1, 2, 2, 2, 3, 3, 3, 5, 5, 7, 31] ++
  [12, 13, 14, 15, 16, 17, 18, 19, 21, 23, 25, 27, 29] ++ [34] ++ [9, 34, 33, 8]

/-- Seat 1 draws the fourth tile of its peng. -/
def robDeal : Deal where
  wall := robHands ++ wallTiles.diff robHands
  perm := by decide +kernel
  banker := 0
  last := newTable
  asked := newTable_asked

/-- Seat 1 adds the tile to its peng, and seat 2 declines to rob the kong. -/
def robEvents : List Event :=
  [.clientMsg 0 ⟨10, 72⟩, .clientMsg 1 ⟨2, 72⟩, .clientMsg 1 ⟨10, 170⟩, .clientMsg 2 ⟨10, 170⟩,
    .clientMsg 3 ⟨10, 173⟩, .clientMsg 0 ⟨10, 172⟩, .clientMsg 1 ⟨5, 72⟩, .clientMsg 2 ⟨11, 0⟩]

/-- The payment for a kong that is not robbed is missing in the list of the kong payments. -/
theorem declined_robbery_does_not_add_up :
    ∃ s, Runs.Reaches (step jinYuanZi) (fun _ _ => True) (opened jinYuanZi) s ∧
      entry s.accounts.roundScoreList 1 1 = 40 ∧ entry s.accounts.roundGangScoreList 1 1 = 0 ∧
      entry s.accounts.roundFaScoreList 1 1 = 0 ∧ entry s.accounts.settled 1 1 = 0 ∧
      ¬AddsUp s.accounts := by
  have hrun : ((Runs.exec (step jinYuanZi) (fun _ _ => True) (opened jinYuanZi)
      (played robDeal robEvents)).any fun s => entry s.accounts.roundScoreList 1 1 == 40 &&
        entry s.accounts.roundGangScoreList 1 1 == 0 &&
        entry s.accounts.roundFaScoreList 1 1 == 0 && entry s.accounts.settled 1 1 == 0) =
      true := by decide +kernel
  obtain ⟨s, hs, hlists⟩ := (Option.any_eq_true _ _).mp hrun
  simp only [Bool.and_eq_true, beq_iff_eq] at hlists
  obtain ⟨⟨⟨hscore, hgang⟩, hfa⟩, hsettled⟩ := hlists
  refine ⟨s, Runs.reaches_of_exec _ .init hs, hscore, hgang, hfa, hsettled, fun hadds => ?_⟩
  have h := hadds 1 1
  omega

end Room

end Nanjing
