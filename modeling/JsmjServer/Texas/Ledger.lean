import JsmjServer.Texas.GameLogic
import Mathlib.Algebra.Order.BigOperators.Group.List
import Mathlib.Tactic.Ring

set_option relaxedAutoImplicit false
set_option autoImplicit false
set_option linter.unusedSectionVars false

/-!
# The chips of a hand

Chips leave a player's stack only as bets. Every operation and every step of a hand appends
payments to the bets of players and takes them from their chips, so chips and bets together stay
what the player started with. The one exception is a raise by a negative amount that undercuts
the call: the code checks the amount from above only, and such a raise moves chips back.

## Main definitions

* `Texas.GameLogic.Pays` — one state follows another by payments.
* `Texas.GameLogic.Ledger` — the accounts balance.
* `Texas.GameLogic.NoUndercut` — an event is no raise below the call.

## Main results

* `Texas.GameLogic.next?_pays` — one event.
* `Texas.GameLogic.ledger_of_noUndercut` — every run.
-/

namespace Texas

/-! ### Payments -/

/-- A player after some payments, each of them non-negative and none beyond his chips. -/
structure PokerPlayer.Pays (p p' : PokerPlayer) : Prop where
  payments : ∃ l : List ℤ, p'.betList = p.betList ++ l ∧ (∀ b ∈ l, 0 ≤ b) ∧
    p'.chips = p.chips - l.sum
  solvent : 0 ≤ p.chips → 0 ≤ p'.chips

namespace PokerPlayer

lemma Pays.of_eq {p p' : PokerPlayer} (hc : p'.chips = p.chips) (hb : p'.betList = p.betList) :
    p.Pays p' :=
  ⟨⟨[], by simp [hb], by simp, by simp [hc]⟩, fun h => hc ▸ h⟩

lemma Pays.trans {p p' p'' : PokerPlayer} (h : p.Pays p') (h' : p'.Pays p'') : p.Pays p'' := by
  obtain ⟨l, hb, hl, hc⟩ := h.payments
  obtain ⟨l', hb', hl', hc'⟩ := h'.payments
  refine ⟨⟨l ++ l', by rw [hb', hb, List.append_assoc], ?_, ?_⟩, h'.solvent ∘ h.solvent⟩
  · intro b hb
    exact (List.mem_append.mp hb).elim (hl b) (hl' b)
  · rw [hc', hc, List.sum_append]
    ring

lemma pays_pay {p : PokerPlayer} {amount : ℤ} (h : 0 ≤ amount) (hle : amount ≤ p.chips) :
    p.Pays (p.pay amount) :=
  ⟨⟨[amount], rfl, by simpa using h, by simp [pay]⟩, fun _ => by simp only [pay]; omega⟩

lemma Pays.getTotalBet_le {p p' : PokerPlayer} (h : p.Pays p') :
    p.getTotalBet ≤ p'.getTotalBet := by
  obtain ⟨l, hb, hl, -⟩ := h.payments
  have := List.sum_nonneg hl
  simp only [getTotalBet, hb, List.sum_append]
  omega

end PokerPlayer

namespace GameLogic

variable {n : ℕ} {s s' s'' : GameLogic n}

/-- A state after some payments of the players; the players and what the hand was started with
are the same. -/
structure Pays (s s' : GameLogic n) : Prop where
  initialChips : s'.initialChips = s.initialChips
  sbBet : s'.sbBet = s.sbBet
  bbBet : s'.bbBet = s.bbBet
  players : ∀ pos, Option.Rel PokerPlayer.Pays (s.players pos) (s'.players pos)

/-- States that differ in the course of the hand only. -/
lemma Pays.of_players (hp : s'.players = s.players) (hi : s'.initialChips = s.initialChips)
    (hsb : s'.sbBet = s.sbBet) (hbb : s'.bbBet = s.bbBet) : s.Pays s' := by
  refine ⟨hi, hsb, hbb, fun pos => ?_⟩
  rw [hp]
  cases s.players pos with
  | none => exact .none
  | some p => exact .some (.of_eq rfl rfl)

lemma Pays.refl (s : GameLogic n) : s.Pays s := .of_players rfl rfl rfl rfl

lemma Pays.trans (h : s.Pays s') (h' : s'.Pays s'') : s.Pays s'' := by
  refine ⟨h'.initialChips.trans h.initialChips, h'.sbBet.trans h.sbBet, h'.bbBet.trans h.bbBet,
    fun pos => ?_⟩
  have h₁ := h.players pos
  have h₂ := h'.players pos
  generalize s.players pos = o at h₁ ⊢
  generalize s'.players pos = o' at h₁ h₂
  generalize s''.players pos = o'' at h₂ ⊢
  cases h₁ with
  | none => exact h₂
  | some h₁ =>
    cases h₂ with
    | some h₂ => exact .some (h₁.trans h₂)

/-- The payment of one player. -/
lemma Pays.set {pos : Fin n} {p p' : PokerPlayer} (hp : s.players pos = some p)
    (h : p.Pays p') : s.Pays (s.set pos p') := by
  refine ⟨rfl, rfl, rfl, fun q => ?_⟩
  rcases eq_or_ne q pos with rfl | hq
  · simp only [GameLogic.set, Function.update_self, hp]
    exact .some h
  · simp only [GameLogic.set, Function.update_of_ne hq]
    exact (Pays.refl s).players q

/-! ### Accounts -/

/-- The accounts of a hand: no player has debts, every bet is non-negative, and chips and bets
are together what the player started with. -/
structure Ledger (s : GameLogic n) : Prop where
  sbBet : 0 ≤ s.sbBet
  bbBet : 0 ≤ s.bbBet
  chips : ∀ pos p, s.players pos = some p → 0 ≤ p.chips
  bets : ∀ pos p, s.players pos = some p → ∀ b ∈ p.betList, 0 ≤ b
  balance : ∀ pos p, s.players pos = some p → p.chips + p.getTotalBet = s.initialChips pos

/-- Payments keep the accounts. -/
lemma Ledger.of_pays (hs : s.Ledger) (h : s.Pays s') : s'.Ledger := by
  have hpre : ∀ pos p', s'.players pos = some p' → ∃ p, s.players pos = some p ∧ p.Pays p' := by
    intro pos p' hp'
    have hrel := h.players pos
    rw [hp'] at hrel
    generalize s.players pos = o at hrel
    cases hrel with
    | some h => exact ⟨_, rfl, h⟩
  refine ⟨h.sbBet ▸ hs.sbBet, h.bbBet ▸ hs.bbBet, ?_, ?_, ?_⟩
  · intro pos p' hp'
    obtain ⟨p, hp, hpay⟩ := hpre pos p' hp'
    exact hpay.solvent (hs.chips pos p hp)
  · intro pos p' hp' b hb
    obtain ⟨p, hp, hpay⟩ := hpre pos p' hp'
    obtain ⟨l, hbets, hl, -⟩ := hpay.payments
    rw [hbets] at hb
    exact (List.mem_append.mp hb).elim (hs.bets pos p hp b) (hl b)
  · intro pos p' hp'
    obtain ⟨p, hp, hpay⟩ := hpre pos p' hp'
    obtain ⟨l, hbets, -, hchips⟩ := hpay.payments
    rw [h.initialChips, ← hs.balance pos p hp, PokerPlayer.getTotalBet, hbets, hchips,
      List.sum_append, PokerPlayer.getTotalBet]
    ring

/-! ### Operations -/

variable [NeZero n] {pos : Fin n} {p : PokerPlayer} {now : ℕ}

lemma onPlayerCall_pays (hp : s.players pos = some p) (hc : 0 ≤ p.chips) :
    s.Pays (s.onPlayerCall pos p).2 := by
  simp only [onPlayerCall]
  split_ifs <;> try exact Pays.refl s
  all_goals exact .set hp (PokerPlayer.pays_pay (by omega) (by omega))

/-- A raise is a payment when it does not undercut the call. -/
lemma onPlayerRaise_pays (hp : s.players pos = some p) {chips : ℤ}
    (h : 0 ≤ s.needChips p → s.needChips p ≤ p.chips → 0 ≤ s.needChips p + chips) :
    s.Pays (s.onPlayerRaise pos p chips).2 := by
  simp only [onPlayerRaise]
  split_ifs <;> try exact Pays.refl s
  have hset : s.Pays (s.set pos (p.pay (s.needChips p + chips))) :=
    .set hp (PokerPlayer.pays_pay (h (by omega) (by omega)) (by omega))
  exact hset.trans (.of_players rfl rfl rfl rfl)

lemma onPlayerAllIn_pays (hp : s.players pos = some p) (hc : 0 ≤ p.chips) :
    s.Pays (s.onPlayerAllIn pos p).2 := by
  rw [onPlayerAllIn]
  split_ifs with h
  · exact onPlayerCall_pays hp hc
  · exact onPlayerRaise_pays hp (by omega)

lemma onPlayerFold_pays (hp : s.players pos = some p) :
    s.Pays (s.onPlayerFold now pos p).2 := by
  have hset : s.Pays (s.set pos { p with fold := true }) := .set hp (.of_eq rfl rfl)
  rw [onPlayerFold]
  split_ifs
  · exact hset.trans (.of_players rfl rfl rfl rfl)
  · exact hset

/-- The raise of a message does not undercut the call. -/
def RaiseCovers (s : GameLogic n) (p : PokerPlayer) (op : Option Operation) (data : ℤ) : Prop :=
  op = some .raise → 0 ≤ s.needChips p → s.needChips p ≤ p.chips → 0 ≤ s.needChips p + data

lemma execute_pays (hp : s.players pos = some p) (hc : 0 ≤ p.chips) {op : Option Operation}
    {data : ℤ} (h : s.RaiseCovers p op data) : s.Pays (s.execute now pos p op data).2 := by
  rcases op with _ | op
  · exact Pays.refl s
  cases op with
  | bet => exact Pays.refl s
  | call => exact onPlayerCall_pays hp hc
  | fold => exact onPlayerFold_pays hp
  | check => exact Pays.refl s
  | raise => exact onPlayerRaise_pays hp (h rfl)
  | reraise => exact Pays.refl s
  | allin => exact onPlayerAllIn_pays hp hc

lemma advance_pays : s.Pays (s.advance now) := by
  rw [advance]
  split <;> exact .of_players rfl rfl rfl rfl

lemma proceed_pays (h : s.proceed now pos = some s') : s.Pays s' := by
  rw [proceed] at h
  split_ifs at h
  · cases h
    exact advance_pays
  · split at h
    · cases h
    · cases h
      exact advance_pays
    · cases h
      exact .of_players rfl rfl rfl rfl

/-- An operation of a player pays, when his raise does not undercut the call. -/
lemma onPlayerOperation_pays {op : Option Operation} {data : ℤ} {r : Requests n}
    (hc : ∀ p, s.players pos = some p → 0 ≤ p.chips)
    (hok : some pos = s.currentOperatorPos →
      ∀ p, s.players pos = some p → s.RaiseCovers p op data)
    (h : s.onPlayerOperation now pos op data = some (s', r)) : s.Pays s' := by
  obtain ⟨rfl, -⟩ | ⟨p, hpos, hp, h⟩ := onPlayerOperation_cases h
  · exact Pays.refl _
  have hexec : s.Pays (s.execute now pos p op data).2 :=
    execute_pays hp (hc p hp) (hok hpos.symm p hp)
  obtain ⟨-, rfl, -⟩ | ⟨-, -, p', e, heq, h⟩ | ⟨rfl, -, rfl⟩ := h
  · exact Pays.refl _
  · -- the operations of the player are reset, then the hand goes on
    have hrel := hexec.players pos
    simp only [heq, set, Function.update_self, hp] at hrel
    cases hrel with
    | some hpay =>
      have hset : s.Pays (s.set pos { p' with operations := [] }) :=
        .set hp (hpay.trans (.of_eq rfl rfl))
      refine hset.trans (Pays.trans ?_ (proceed_pays h))
      exact .of_players rfl rfl rfl rfl
  · have hset : s.Pays (s.set pos { p with fold := true }) := .set hp (.of_eq rfl rfl)
    exact hset.trans (.of_players rfl rfl rfl rfl)

/-! ### Steps -/

lemma postBlind_pays {betSum : ℤ} (hb : 0 ≤ betSum) (h : s.postBlind pos betSum = some s') :
    s.Pays s' := by
  rw [postBlind] at h
  split at h
  · cases h
  · next p hp =>
    split_ifs at h
    cases h
    exact .set hp (PokerPlayer.pays_pay hb (by omega))

lemma onStepFirstBet_pays (hsb : 0 ≤ s.sbBet) (hbb : 0 ≤ s.bbBet) :
    s.Pays (s.onStepFirstBet now) := by
  rw [onStepFirstBet]
  split
  · exact Pays.refl s
  · next s₁ h₁ =>
    have hs₁ := postBlind_pays hsb h₁
    split
    · exact hs₁
    · next s₂ h₂ =>
      have hs₂ := postBlind_pays (hs₁.bbBet ▸ hbb) h₂
      exact (hs₁.trans hs₂).trans (.of_players rfl rfl rfl rfl)

lemma onStepSend2Cards_pays (h : s.onStepSend2Cards now = some s') : s.Pays s' := by
  rw [onStepSend2Cards] at h
  obtain ⟨pos, -, h⟩ := Option.bind_eq_some_iff.mp h
  obtain ⟨endPos, -, h⟩ := Option.bind_eq_some_iff.mp h
  cases h
  exact .of_players rfl rfl rfl rfl

lemma onStepBet_pays : s.Pays (s.onStepBet now).1 := by
  rw [onStepBet]
  split
  · exact Pays.refl s
  · next pos _ =>
    split
    · exact Pays.refl s
    · next p hp =>
      have hset : s.Pays (s.set pos { p with operations := s.getPlayerOperations pos p }) :=
        .set hp (.of_eq rfl rfl)
      exact hset.trans (.of_players rfl rfl rfl rfl)

lemma showCards_pays {bet skip : Step} {interval : ℕ}
    (h : s.showCards now bet skip interval = some s') : s.Pays s' := by
  rw [showCards] at h
  split_ifs at h
  · cases h
    exact .of_players rfl rfl rfl rfl
  · cases h
    exact .of_players rfl rfl rfl rfl
  · obtain ⟨pos, -, h⟩ := Option.bind_eq_some_iff.mp h
    obtain ⟨endPos, -, h⟩ := Option.bind_eq_some_iff.mp h
    cases h
    exact .of_players rfl rfl rfl rfl

/-- Every step of a hand up to the settlement pays. -/
lemma onStepSwitch_pays {r : Requests n} (hsb : 0 ≤ s.sbBet) (hbb : 0 ≤ s.bbBet)
    (h : s.onStepSwitch now = some (s', r)) : s.Pays s' := by
  rw [onStepSwitch] at h
  split at h
  case h_1 => cases h; exact Pays.refl s
  case h_2 => cases h; exact onStepFirstBet_pays hsb hbb
  case h_3 =>
    obtain ⟨s₁, h₁, hr⟩ := Option.map_eq_some_iff.mp h
    cases hr
    exact onStepSend2Cards_pays h₁
  case h_11 => cases h; exact .of_players rfl rfl rfl rfl
  case h_7 | h_8 | h_9 | h_10 =>
    have hs' : (s.onStepBet now).1 = s' := congrArg Prod.fst (Option.some.inj h)
    exact hs' ▸ onStepBet_pays
  all_goals
    obtain ⟨s₁, h₁, hr⟩ := Option.map_eq_some_iff.mp h
    cases hr
    exact showCards_pays h₁

/-! ### Runs -/

/-- The event is no raise of the operator by a negative amount larger than his call. A raise that
the code refuses for another reason does no harm: the operator cannot pay the call, or has bet
more than it. -/
def NoUndercut (s : GameLogic n) : Event n → Prop
  | .message _ pos op data => some pos = s.currentOperatorPos →
      ∀ p ∈ s.players pos, s.RaiseCovers p (Operation.ofCode op) data
  | .stepTimer _ => True
  | .timeoutTimer _ => True

instance (s : GameLogic n) (p : PokerPlayer) (op : Option Operation) (data : ℤ) :
    Decidable (s.RaiseCovers p op data) :=
  inferInstanceAs (Decidable (_ → _ → _ → _))

instance (s : GameLogic n) (e : Event n) : Decidable (s.NoUndercut e) :=
  match e with
  | .message _ pos op data => inferInstanceAs (Decidable (some pos = s.currentOperatorPos →
      ∀ p ∈ s.players pos, s.RaiseCovers p (Operation.ofCode op) data))
  | .stepTimer _ => .isTrue trivial
  | .timeoutTimer _ => .isTrue trivial

lemma onOperationTimeout_pays {r : Requests n} (hs : s.Ledger)
    (h : s.onOperationTimeout now = some (s', r)) : s.Pays s' := by
  rw [onOperationTimeout] at h
  split_ifs at h
  · split at h
    · cases h
      exact Pays.refl _
    · next pos _ =>
      split at h
      · cases h
        exact Pays.refl _
      · -- a call or a fold, never a raise
        split_ifs at h
        · exact onPlayerOperation_pays (hs.chips pos) (fun _ _ _ hop => by cases hop) h
        · exact onPlayerOperation_pays (hs.chips pos) (fun _ _ _ hop => by cases hop) h
  · cases h
    exact Pays.refl _

/-- One event pays. -/
lemma next?_pays {e : Event n} (hs : s.Ledger) (hok : s.NoUndercut e)
    (h : s.next? e = some s') : s.Pays s' := by
  obtain ⟨⟨s₁, r⟩, hstep, rfl⟩ := Option.map_eq_some_iff.mp h
  unfold step at hstep
  split_ifs at hstep
  · cases hstep
    exact Pays.refl _
  cases e with
  | message now pos op data => exact onPlayerOperation_pays (hs.chips pos) hok hstep
  | stepTimer now =>
    simp only [stepTimer] at hstep
    split at hstep
    · cases hstep
      exact Pays.refl _
    · split_ifs at hstep
      · refine Pays.trans (Pays.of_players ?_ ?_ ?_ ?_) (onStepSwitch_pays ?_ ?_ hstep)
        all_goals first | rfl | exact hs.sbBet | exact hs.bbBet
      · cases hstep
        exact Pays.refl _
  | timeoutTimer now =>
    simp only [timeoutTimer] at hstep
    split at hstep
    · cases hstep
      exact Pays.refl _
    · split_ifs at hstep
      · exact onOperationTimeout_pays hs hstep
      · cases hstep
        exact Pays.refl _

/-- At the start of a hand the accounts balance. -/
lemma gameStart_ledger {c : Setup n} (h : gameStart c now = some s) : s.Ledger := by
  obtain ⟨button, sb, bb, -, -, -, rfl⟩ := gameStart_eq_some h
  have hplayer : ∀ pos p, c.table.players pos = some p →
      ∃ chips : ℕ, c.chips pos = some chips ∧ (⟨chips, false, [], []⟩ : PokerPlayer) = p := by
    intro pos p hp
    unfold Setup.table at hp
    exact Option.map_eq_some_iff.mp hp
  refine ⟨?_, Int.natCast_nonneg _, ?_, ?_, ?_⟩
  · exact Int.ediv_nonneg (Int.natCast_nonneg _) (by decide)
  · intro pos p hp
    obtain ⟨chips, -, rfl⟩ := hplayer pos p hp
    exact Int.natCast_nonneg chips
  · intro pos p hp
    obtain ⟨chips, -, rfl⟩ := hplayer pos p hp
    simp
  · intro pos p hp
    obtain ⟨chips, hchips, rfl⟩ := hplayer pos p hp
    simp [PokerPlayer.getTotalBet, logicStartStep, Setup.table, hchips]

/-- From balanced accounts a run without undercutting raises pays. -/
lemma pays_of_reaches (hs : s.Ledger) (h : Runs.Reaches next? NoUndercut s s') :
    s.Pays s' := by
  refine h.invariant (Pays.refl s) fun s₁ e s₂ h₁ hok h₂ => ?_
  exact h₁.trans (next?_pays (hs.of_pays h₁) hok h₂)

/-- In every state of a run without undercutting raises, every player has non-negative chips and
non-negative bets, chips and bets are together what he started with, and his total bet is at
least what it was in every state before.

**Proof sketch.** Every event of such a run pays: it appends non-negative payments to the bets of
players and takes them from their chips. Payments compose, and they keep the accounts of the
start of the hand. -/
theorem ledger_of_noUndercut {c : Setup n} {s₀ : GameLogic n} (h₀ : gameStart c now = some s₀)
    (h : Runs.Reaches next? NoUndercut s₀ s) (hp : s.players pos = some p) :
    0 ≤ p.chips ∧ (∀ b ∈ p.betList, 0 ≤ b) ∧
      p.chips + p.getTotalBet = s₀.initialChips pos ∧
      ∀ s', Runs.Reaches next? NoUndercut s s' →
        ∃ p', s'.players pos = some p' ∧ p.getTotalBet ≤ p'.getTotalBet := by
  have hpays := pays_of_reaches (gameStart_ledger h₀) h
  have hs := (gameStart_ledger h₀).of_pays hpays
  refine ⟨hs.chips pos p hp, hs.bets pos p hp, ?_, fun s' h' => ?_⟩
  · rw [← hpays.initialChips]
    exact hs.balance pos p hp
  · have hrel := (pays_of_reaches hs h').players pos
    rw [hp] at hrel
    generalize s'.players pos = o at hrel
    cases hrel with
    | some hpay => exact ⟨_, rfl, hpay.getTotalBet_le⟩

/-- Two players with a hundred chips each and blinds of one and two. -/
def headsUp : Setup 2 := ⟨fun _ => some 100, 2, 1, 0⟩

/-- The blinds are posted, the cards are dealt, and the small blind is asked to bet. -/
def headsUpOpening : List (Event 2) := [.stepTimer 51, .stepTimer 102, .stepTimer 153]

/-- The small blind calls and raises by ten, and his account balances. -/
theorem headsUp_raise : ∃ (s₀ s : GameLogic 2) (p : PokerPlayer),
    gameStart headsUp 0 = some s₀ ∧ Runs.Reaches next? NoUndercut s₀ s ∧
    s.players 0 = some p ∧ p.betList = [1, 11] ∧ 0 ≤ p.chips ∧
    p.chips + p.getTotalBet = s₀.initialChips 0 := by
  have hrun : ((gameStart headsUp 0).bind fun s₀ =>
      (Runs.exec next? NoUndercut s₀ (headsUpOpening ++ [.message 160 0 5 10])).bind fun s =>
        (s.players 0).map (·.betList)) = some [1, 11] := by decide
  obtain ⟨s₀, h₀, hrun⟩ := Option.bind_eq_some_iff.mp hrun
  obtain ⟨s, hs, hrun⟩ := Option.bind_eq_some_iff.mp hrun
  obtain ⟨p, hp, hbets⟩ := Option.map_eq_some_iff.mp hrun
  have hreach := Runs.reaches_of_exec _ .init hs
  have hledger := ledger_of_noUndercut h₀ hreach hp
  exact ⟨s₀, s, p, h₀, hreach, hp, hbets, hledger.1, hledger.2.2.1⟩

/-- The small blind raises by minus five and gets four of his chips back. -/
theorem headsUp_undercut : ¬ ∀ (s₀ s : GameLogic 2) (pos : Fin 2) (p : PokerPlayer),
    gameStart headsUp 0 = some s₀ → Runs.Reaches next? (fun _ _ => True) s₀ s →
    s.players pos = some p → ∀ b ∈ p.betList, 0 ≤ b := by
  intro h
  have hrun : ((gameStart headsUp 0).bind fun s₀ =>
      (Runs.exec next? (fun _ _ => True) s₀ (headsUpOpening ++ [.message 160 0 5 (-5)])).bind
        fun s => (s.players 0).map (·.betList)) = some [1, -4] := by decide
  obtain ⟨s₀, h₀, hrun⟩ := Option.bind_eq_some_iff.mp hrun
  obtain ⟨s, hs, hrun⟩ := Option.bind_eq_some_iff.mp hrun
  obtain ⟨p, hp, hbets⟩ := Option.map_eq_some_iff.mp hrun
  have hneg := h s₀ s 0 p h₀ (Runs.reaches_of_exec _ .init hs) hp (-4) (by simp [hbets])
  omega

end GameLogic

end Texas
