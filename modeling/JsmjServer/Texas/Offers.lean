import JsmjServer.Texas.Betting

set_option relaxedAutoImplicit false
set_option autoImplicit false
set_option linter.unusedSectionVars false

/-!
# What is offered, and what a timeout does

`getPlayerOperations` says what a seat is offered, `sendPlayerOperationReq` between which amounts
it may raise, and the handlers of the operations check again what they are sent. A raise is an
amount beyond the call there, but the largest amount that is named are all chips of the player. A
timeout takes one of the offered operations.

## Main definitions

* `Texas.GameLogic.minRaiseAmount`, `Texas.GameLogic.maxRaiseAmount` — the amounts that are named.
* `Texas.GameLogic.OffersSucceed` — every operation that is offered is accepted.
* `Texas.GameLogic.OffersFit` — the condition for it.
* `Texas.GameLogic.KeepsRule` — the timeout spends nothing, folds against a larger bet and else
  checks.

## Main results

* `Texas.GameLogic.offersSucceed_iff` — the offers of a state.
* `Texas.GameLogic.keepsRule_iff` — the timeout in every state of every run.
-/

namespace Texas.GameLogic

open Betting

variable {n : ℕ} [NeZero n]

/-! ### The offers -/

/-- `MaxRaiseAmount` of the request: the chips of the player. -/
def maxRaiseAmount (p : PokerPlayer) : ℤ := p.chips

/-- `MinRaiseAmount` of the request: twice the call, or two big blinds, and at most all chips. -/
def minRaiseAmount (s : GameLogic n) (p : PokerPlayer) : ℤ :=
  let minAmount := if 0 < s.needChips p then 2 * s.needChips p else 2 * s.bbBet
  if maxRaiseAmount p < minAmount then maxRaiseAmount p else minAmount

/-- The amounts a player may send with an operation that is offered. -/
def Named (s : GameLogic n) (p : PokerPlayer) (op : Operation) (data : ℤ) : Prop :=
  op = .raise → s.minRaiseAmount p ≤ data ∧ data ≤ maxRaiseAmount p

/-- Every operation that is offered to the operator is accepted, a raise with every amount between
the smallest and the largest one that is named. -/
def OffersSucceed (s : GameLogic n) (pos : Fin n) (p : PokerPlayer) : Prop :=
  ∀ op ∈ s.getPlayerOperations pos p, ∀ data, s.Named p op data →
    s.accepts pos (some op) data = true

/-- The condition for it. Against a larger bet the player has chips, and not as many as to be
offered a raise. Otherwise nobody with chips is behind the largest bet, and a player with chips,
whose bet is that one, may raise by a positive big blind. -/
def OffersFit (s : GameLogic n) (pos : Fin n) (p : PokerPlayer) : Prop :=
  if p.getTotalBet < s.getPlayerMaxBet then
    p.chips ≠ 0 ∧ (p.chips ≤ s.needChips p ∨ s.maxOtherChips pos ≤ s.needChips p)
  else
    (∀ q, ∀ p' ∈ s.players q, p'.fold = false → p'.chips ≠ 0 →
      s.getPlayerMaxBet ≤ p'.getTotalBet) ∧
    (0 < p.chips → p.getTotalBet = s.getPlayerMaxBet ∧ 0 < s.bbBet)

instance (s : GameLogic n) (pos : Fin n) (p : PokerPlayer) : Decidable (s.OffersFit pos p) :=
  inferInstanceAs (Decidable (if p.getTotalBet < s.getPlayerMaxBet then
    p.chips ≠ 0 ∧ (p.chips ≤ s.needChips p ∨ s.maxOtherChips pos ≤ s.needChips p)
  else
    (∀ q, ∀ p' ∈ s.players q, p'.fold = false → p'.chips ≠ 0 →
      s.getPlayerMaxBet ≤ p'.getTotalBet) ∧
    (0 < p.chips → p.getTotalBet = s.getPlayerMaxBet ∧ 0 < s.bbBet)))

variable {s s' : GameLogic n} {now : ℕ} {pos : Fin n} {p : PokerPlayer}

lemma accepts_iff (hpos : s.currentOperatorPos = some pos) (hp : s.players pos = some p)
    (op : Option Operation) (data : ℤ) :
    s.accepts pos op data = true ↔ s.refuses p op data = false := by
  simp [accepts, hpos, hp]

/-- The bets of all players who are in the hand and have chips left are the largest one. -/
lemma isPlayerBetEqual_iff : s.isPlayerBetEqual = true ↔
    ∀ q, ∀ p' ∈ s.players q, p'.fold = false → p'.chips ≠ 0 →
      s.getPlayerMaxBet ≤ p'.getTotalBet := by
  rw [isPlayerBetEqual, List.all_eq_true]
  simp only [playing, List.mem_filterMap, List.mem_finRange, true_and, Bool.or_eq_true,
    Bool.not_eq_true', decide_eq_false_iff_not, not_lt, PokerPlayer.isAllIn, decide_eq_true_eq,
    forall_exists_index]
  constructor
  · intro h q p' hp' hfold hchips
    rcases h p' q hp' with (h | h) | h
    · rw [hfold] at h
      cases h
    · exact h
    · exact absurd h hchips
  · intro h p' q hp'
    cases hfold : p'.fold with
    | true => exact .inl (.inl rfl)
    | false =>
      by_cases hchips : p'.chips = 0
      · exact .inr hchips
      · exact .inl (.inr (h q p' hp' hfold hchips))

/-- Against a larger bet. -/
lemma offersSucceed_behind (hpos : s.currentOperatorPos = some pos) (hp : s.players pos = some p)
    (hlt : p.getTotalBet < s.getPlayerMaxBet) : s.OffersSucceed pos p ↔
      p.chips ≠ 0 ∧ (p.chips ≤ s.needChips p ∨ s.maxOtherChips pos ≤ s.needChips p) := by
  have hneed : s.needChips p = s.getPlayerMaxBet - p.getTotalBet := rfl
  unfold OffersSucceed
  simp only [accepts_iff hpos hp, getPlayerOperations, if_pos hlt, ← hneed]
  by_cases hchips : p.chips > s.needChips p
  · by_cases hmax : s.maxOtherChips pos > 0 ∧ s.maxOtherChips pos > s.needChips p
    · -- a raise is offered, up to more than the player has beyond the call
      rw [if_pos hchips, if_pos hmax]
      refine ⟨fun h => absurd (h .raise (by simp) p.chips fun _ => ⟨?_, le_rfl⟩) ?_,
        fun h => by omega⟩
      · unfold minRaiseAmount maxRaiseAmount
        dsimp only
        split_ifs <;> omega
      · simp only [refuses, Bool.or_eq_false_iff, decide_eq_false_iff_not]
        omega
    · rw [if_pos hchips, if_neg hmax]
      refine ⟨fun _ => by omega, fun _ op hop data _ => ?_⟩
      simp only [List.mem_cons, List.not_mem_nil, or_false] at hop
      rcases hop with rfl | rfl
      · simp only [refuses, PokerPlayer.isAllIn, Bool.or_eq_false_iff, decide_eq_false_iff_not]
        omega
      · rfl
  · rw [if_neg hchips, if_pos (by omega)]
    refine ⟨fun h => ?_, fun h op hop data _ => ?_⟩
    · have hall := h .allin (by simp) 0 fun hraise => absurd hraise (by decide)
      rw [refuses, if_pos (by omega)] at hall
      simp only [PokerPlayer.isAllIn, Bool.or_eq_false_iff, decide_eq_false_iff_not] at hall
      exact ⟨hall.1, .inl (by omega)⟩
    · simp only [List.mem_cons, List.not_mem_nil, or_false] at hop
      rcases hop with rfl | rfl
      · rfl
      · rw [refuses, if_pos (by omega)]
        simp only [PokerPlayer.isAllIn, Bool.or_eq_false_iff, decide_eq_false_iff_not]
        exact ⟨h.1, by omega⟩

/-- Without a larger bet. -/
lemma offersSucceed_even (hpos : s.currentOperatorPos = some pos) (hp : s.players pos = some p)
    (hge : ¬ p.getTotalBet < s.getPlayerMaxBet) : s.OffersSucceed pos p ↔
      s.isPlayerBetEqual = true ∧
        (0 < p.chips → p.getTotalBet = s.getPlayerMaxBet ∧ 0 < s.bbBet) := by
  have hneed : s.needChips p = s.getPlayerMaxBet - p.getTotalBet := rfl
  have hcheck : s.refuses p (some .check) 0 = false ↔ s.isPlayerBetEqual = true := by
    simp [refuses]
  unfold OffersSucceed
  simp only [accepts_iff hpos hp, getPlayerOperations, if_neg hge]
  by_cases hchips : p.chips > 0
  · rw [if_pos hchips]
    have hmin : s.minRaiseAmount p ≤ p.chips := by
      unfold minRaiseAmount maxRaiseAmount
      dsimp only
      split_ifs <;> omega
    have hbb : 0 < s.minRaiseAmount p ↔ 0 < s.bbBet := by
      unfold minRaiseAmount maxRaiseAmount
      dsimp only
      split_ifs <;> omega
    constructor
    · intro h
      have hchecks := h .check (by simp) 0 fun hraise => absurd hraise (by decide)
      refine ⟨hcheck.mp hchecks, fun _ => ?_⟩
      have hraise := h .raise (by simp)
      have hlast := hraise p.chips fun _ => ⟨hmin, le_rfl⟩
      simp only [refuses, Bool.or_eq_false_iff, decide_eq_false_iff_not] at hlast
      refine ⟨by omega, hbb.mp ?_⟩
      -- otherwise nothing may be added to the bet
      by_contra hle
      have hzero := hraise 0 fun _ => ⟨by omega, by unfold maxRaiseAmount; omega⟩
      simp [refuses] at hzero
    · rintro ⟨hequal, hraise⟩ op hop data hnamed
      obtain ⟨hbet, hpos⟩ := hraise hchips
      simp only [List.mem_cons, List.not_mem_nil, or_false] at hop
      rcases hop with rfl | rfl | rfl | rfl
      · exact hcheck.mpr hequal
      · rfl
      · obtain ⟨hle, hge⟩ := hnamed rfl
        have := hbb.mpr hpos
        unfold maxRaiseAmount at hge
        simp only [refuses, Bool.or_eq_false_iff, decide_eq_false_iff_not]
        omega
      · rw [refuses, if_neg (by omega)]
        simp only [decide_eq_false_iff_not]
        omega
  · rw [if_neg hchips]
    constructor
    · intro h
      have hchecks := h .check (by simp) 0 fun hraise => absurd hraise (by decide)
      exact ⟨hcheck.mp hchecks, fun hlt => absurd hlt hchips⟩
    · rintro ⟨hequal, -⟩ op hop data -
      simp only [List.mem_cons, List.not_mem_nil, or_false] at hop
      rcases hop with rfl | rfl
      · exact hcheck.mpr hequal
      · rfl

/-- **The offers**: in every state of a hand, every operation offered to the operator is accepted, a
raise with every amount that is named, exactly when the condition holds.
 **Proof sketch.** Against a larger bet the largest raise that is named exceeds what is left beyond
the call, so that no raise may be offered, and somebody without chips is offered to go all in.
Without one the raise of all chips is accepted, and a check is when nobody with chips is behind. -/
theorem offersSucceed_iff (hpos : s.currentOperatorPos = some pos) (hp : s.players pos = some p) :
    s.OffersSucceed pos p ↔ s.OffersFit pos p := by
  unfold OffersFit
  split_ifs with hlt
  · exact offersSucceed_behind hpos hp hlt
  · rw [offersSucceed_even hpos hp hlt, isPlayerBetEqual_iff]

/-- The small blind has called, and every offer to the big blind is accepted. -/
theorem headsUp_offers_check : ∃ (s₀ s : GameLogic 2) (p : PokerPlayer),
    gameStart headsUp 0 = some s₀ ∧ Runs.Reaches next? (fun _ _ => True) s₀ s ∧
    s.logicStep = .send2CardsBet ∧ s.currentOperatorPos = some 1 ∧ s.players 1 = some p ∧
    p.operations = [.check, .fold, .raise, .allin] ∧ s.OffersSucceed 1 p := by
  have hrun : ((gameStart headsUp 0).bind fun s₀ =>
      (Runs.exec next? (fun _ _ => True) s₀
        (headsUpOpening ++ [.message 160 0 2 0, .stepTimer 211])).bind fun s =>
          (s.players 1).map fun p =>
            (s.logicStep, s.currentOperatorPos, p.operations, decide (s.OffersFit 1 p))) =
      some (.send2CardsBet, some 1, [.check, .fold, .raise, .allin], true) := by
    decide +kernel
  obtain ⟨s₀, h₀, hrun⟩ := Option.bind_eq_some_iff.mp hrun
  obtain ⟨s, hs, hrun⟩ := Option.bind_eq_some_iff.mp hrun
  obtain ⟨p, hp, hrun⟩ := Option.map_eq_some_iff.mp hrun
  simp only [Prod.mk.injEq, decide_eq_true_eq] at hrun
  obtain ⟨hstep, hpos, hops, hfit⟩ := hrun
  exact ⟨s₀, s, p, h₀, Runs.reaches_of_exec _ .init hs, hstep, hpos, hp, hops,
    (offersSucceed_iff hpos hp).mpr hfit⟩

/-- The small blind has 99 chips left and lacks one to call. He is offered a raise, of at most 99,
and a raise of 99 is refused. -/
theorem headsUp_raise_refused : ¬ ∀ (s₀ s : GameLogic 2) (pos : Fin 2) (p : PokerPlayer),
    gameStart headsUp 0 = some s₀ → Runs.Reaches next? (fun _ _ => True) s₀ s →
    betStep s.logicStep = true → s.currentOperatorPos = some pos → s.players pos = some p →
    s.OffersSucceed pos p := by
  intro h
  have hrun : ((gameStart headsUp 0).bind fun s₀ =>
      (Runs.exec next? (fun _ _ => True) s₀ headsUpOpening).bind fun s =>
        (s.players 0).map fun p =>
          (betStep s.logicStep, s.currentOperatorPos,
            (s.getPlayerOperations 0 p).contains .raise, s.minRaiseAmount p, maxRaiseAmount p,
            s.accepts 0 (some .raise) 99)) =
      some (true, some 0, true, 2, 99, false) := by
    decide +kernel
  obtain ⟨s₀, h₀, hrun⟩ := Option.bind_eq_some_iff.mp hrun
  obtain ⟨s, hs, hrun⟩ := Option.bind_eq_some_iff.mp hrun
  obtain ⟨p, hp, hrun⟩ := Option.map_eq_some_iff.mp hrun
  simp only [Prod.mk.injEq] at hrun
  obtain ⟨hbet, hpos, hraise, hmin, hmax, hrefused⟩ := hrun
  have haccepts := h s₀ s 0 p h₀ (Runs.reaches_of_exec _ .init hs) hbet hpos hp .raise
    (List.contains_iff_mem.mp hraise) 99 fun _ => by omega
  rw [hrefused] at haccepts
  cases haccepts

/-! ### The timeout -/

/-- The rule of the comment at the timeout: it takes no chips of the operator, folds his hand
against a larger bet, and otherwise leaves him in the hand. -/
def KeepsRule (s : GameLogic n) (now : ℕ) (pos : Fin n) (p : PokerPlayer) : Prop :=
  ∃ s' r p', s.onOperationTimeout now = some (s', r) ∧ s'.players pos = some p' ∧
    p'.chips = p.chips ∧ p'.betList = p.betList ∧
    p'.fold = decide (p.getTotalBet < s.getPlayerMaxBet)

/-- What a run keeps for the search of the next operator: the blinds, and a playing seat at the end
of the round once there is an operator. -/
structure Seated (s : GameLogic n) : Prop where
  blinds : s.Blinds
  last : s.currentOperatorPos ≠ none → ∃ e, s.endOperatorPos = some e ∧ (s.players e).isSome

variable {op : Option Operation} {data : ℤ} {r : Requests n}

/-- Whoever plays, plays on, at the same blinds. -/
structure SameTable (s s' : GameLogic n) : Prop where
  playing : ∀ q, (s'.players q).isSome = (s.players q).isSome
  sbPos : s'.sbPos = s.sbPos
  bbPos : s'.bbPos = s.bbPos
  buttonSeat : s'.buttonSeat = s.buttonSeat

/-- A new end of the round at a playing seat. -/
lemma Seated.of_last {e : Fin n} (hs : s.Seated) (h : s.SameTable s')
    (hlast : s'.endOperatorPos = some e) (he : (s.players e).isSome) : s'.Seated :=
  ⟨hs.blinds.congr h.playing h.sbPos h.bbPos h.buttonSeat,
    fun _ => ⟨e, hlast, (h.playing e).trans he⟩⟩

/-- The same operator and the same end of the round. -/
lemma Seated.congr (hs : s.Seated) (h : s.SameTable s')
    (hcur : s'.currentOperatorPos = s.currentOperatorPos)
    (hlast : s'.endOperatorPos = s.endOperatorPos) : s'.Seated := by
  refine ⟨hs.blinds.congr h.playing h.sbPos h.bbPos h.buttonSeat, fun hne => ?_⟩
  rw [hcur] at hne
  obtain ⟨e, he, hplay⟩ := hs.last hne
  exact ⟨e, hlast.trans he, (h.playing e).trans hplay⟩

/-- The handlers leave the end of the round or move it to the player before. -/
lemma execute_last (s : GameLogic n) (now : ℕ) (pos : Fin n) (p : PokerPlayer)
    (op : Option Operation) (data : ℤ) :
    (s.execute now pos p op data).2.endOperatorPos = s.endOperatorPos ∨
    (s.execute now pos p op data).2.endOperatorPos = s.getPrevPlayer pos := by
  rcases op with _ | op
  · exact .inl rfl
  cases op with
  | bet => exact .inl rfl
  | reraise => exact .inl rfl
  | check => exact .inl rfl
  | fold =>
    rw [execute, onPlayerFold]
    split_ifs <;> exact .inl rfl
  | call =>
    rw [execute, onPlayerCall_eq data]
    split_ifs <;> exact .inl rfl
  | raise =>
    rw [execute, onPlayerRaise_eq]
    split_ifs
    · exact .inl rfl
    · exact .inr rfl
  | allin =>
    rw [execute, onPlayerAllIn_eq data]
    split_ifs
    · exact .inl rfl
    · exact .inl rfl
    · exact .inr rfl

/-- What follows an accepted operation changes no player and not the end of the round. -/
lemma proceed_frame (h : s.proceed now pos = some s') :
    s'.players = s.players ∧ s.SameTable s' ∧ s'.endOperatorPos = s.endOperatorPos := by
  have hadvance : (s.advance now).players = s.players ∧ s.SameTable (s.advance now) ∧
      (s.advance now).endOperatorPos = s.endOperatorPos := by
    rw [advance]
    split <;> exact ⟨rfl, ⟨fun _ => rfl, rfl, rfl, rfl⟩, rfl⟩
  rw [proceed] at h
  split_ifs at h
  · cases h
    exact hadvance
  · split at h
    · cases h
    · cases h
      exact hadvance
    · cases h
      exact ⟨rfl, ⟨fun _ => rfl, rfl, rfl, rfl⟩, rfl⟩

lemma Seated.onPlayerOperation (hs : s.Seated)
    (h : s.onPlayerOperation now pos op data = some (s', r)) : s'.Seated := by
  obtain ⟨rfl, -, -⟩ | ⟨p, hpos, hp, h⟩ := onPlayerOperation_cases h
  · exact hs
  obtain ⟨e, hlast, he⟩ := hs.last (by simp [hpos])
  obtain ⟨-, rfl, -⟩ | ⟨-, -, p', e', hexec, hproc⟩ | ⟨-, -, rfl⟩ := h
  · exact hs
  · obtain ⟨-, htable, hend⟩ := proceed_frame hproc
    have htable : s.SameTable s' := ⟨fun q => (htable.playing q).trans (isSome_set hp _ q),
      htable.sbPos, htable.bbPos, htable.buttonSeat⟩
    have hmoves := execute_last s now pos p op data
    rw [hexec] at hmoves
    rcases hmoves with hsame | hprev
    · exact hs.of_last htable (hend.trans (hsame.trans hlast)) he
    · obtain ⟨l, hl⟩ := getPrevPlayer_isSome (Option.isSome_of_eq_some hp)
      exact hs.of_last htable (hend.trans (hprev.trans hl)) (getPrevPlayer_spec hl).1
  · exact hs.congr ⟨isSome_set hp _, rfl, rfl, rfl⟩ rfl rfl

lemma Seated.onOperationTimeout (hs : s.Seated) (h : s.onOperationTimeout now = some (s', r)) :
    s'.Seated := by
  rw [GameLogic.onOperationTimeout] at h
  split_ifs at h
  · split at h
    · cases h
      exact hs
    · split at h
      · cases h
        exact hs
      · split_ifs at h <;> exact hs.onPlayerOperation h
  · cases h
    exact hs

lemma Seated.onStepFirstBet (hs : s.Seated) : (s.onStepFirstBet now).Seated := by
  rw [GameLogic.onStepFirstBet]
  split
  · exact hs
  · next s₁ h₁ =>
    obtain ⟨p₁, hp₁, rfl⟩ := postBlind_frame h₁
    have hs₁ : (s.set s.sbPos (p₁.pay s.sbBet)).Seated :=
      hs.congr ⟨isSome_set hp₁ _, rfl, rfl, rfl⟩ rfl rfl
    split
    · exact hs₁
    · next s₂ h₂ =>
      obtain ⟨p₂, hp₂, rfl⟩ := postBlind_frame h₂
      exact hs₁.congr ⟨isSome_set hp₂ _, rfl, rfl, rfl⟩ rfl rfl

lemma Seated.showCards {bet skip : Step} {interval : ℕ} (hs : s.Seated)
    (h : s.showCards now bet skip interval = some s') : s'.Seated := by
  rw [GameLogic.showCards] at h
  split_ifs at h with hfew hcount
  · cases h
    exact hs.congr ⟨fun _ => rfl, rfl, rfl, rfl⟩ rfl rfl
  · cases h
    exact hs.of_last ⟨fun _ => rfl, rfl, rfl, rfl⟩ rfl (hs.blinds.small hcount)
  · obtain ⟨pos, -, h⟩ := Option.bind_eq_some_iff.mp h
    obtain ⟨endPos, hend, h⟩ := Option.bind_eq_some_iff.mp h
    cases h
    obtain ⟨p, hp, -⟩ := activeAt_iff.mp (List.find?_some hend)
    exact hs.of_last ⟨fun _ => rfl, rfl, rfl, rfl⟩ rfl (Option.isSome_of_eq_some hp)

lemma Seated.onStepSend2Cards (hs : s.Seated) (h : s.onStepSend2Cards now = some s') :
    s'.Seated := by
  rw [GameLogic.onStepSend2Cards] at h
  obtain ⟨pos, -, h⟩ := Option.bind_eq_some_iff.mp h
  obtain ⟨endPos, hend, h⟩ := Option.bind_eq_some_iff.mp h
  cases h
  exact hs.of_last ⟨fun _ => rfl, rfl, rfl, rfl⟩ rfl (getPrevPlayer_spec hend).1

lemma Seated.onStepBet (hs : s.Seated) : (s.onStepBet now).1.Seated := by
  rw [GameLogic.onStepBet]
  split
  · exact hs
  · split
    · exact hs
    · next p hp => exact hs.congr ⟨isSome_set hp _, rfl, rfl, rfl⟩ rfl rfl

/-- Every step that begins keeps a playing seat at the end of the round. -/
lemma Seated.onStepSwitch (hs : s.Seated) (h : s.onStepSwitch now = some (s', r)) :
    s'.Seated := by
  rw [GameLogic.onStepSwitch] at h
  split at h
  case h_1 =>
    cases h
    exact hs
  case h_2 =>
    cases h
    exact hs.onStepFirstBet
  case h_3 =>
    obtain ⟨s₁, h₁, hr⟩ := Option.map_eq_some_iff.mp h
    cases hr
    exact hs.onStepSend2Cards h₁
  case h_4 | h_5 | h_6 =>
    obtain ⟨s₁, h₁, hr⟩ := Option.map_eq_some_iff.mp h
    cases hr
    exact Seated.showCards hs h₁
  case h_11 =>
    cases h
    exact hs.congr ⟨fun _ => rfl, rfl, rfl, rfl⟩ rfl rfl
  case h_7 | h_8 | h_9 | h_10 =>
    have hbet : (s.onStepBet now).1.Seated := hs.onStepBet
    rw [Option.some.inj h] at hbet
    exact hbet

/-- One event keeps a playing seat at the end of the round. -/
lemma Seated.next? {e : Event n} (hs : s.Seated) (h : s.next? e = some s') : s'.Seated := by
  obtain ⟨⟨s₁, r⟩, hy, rfl⟩ := Option.map_eq_some_iff.mp h
  rw [step.eq_def] at hy
  split_ifs at hy
  · cases hy
    exact hs
  cases e with
  | message now pos op data => exact hs.onPlayerOperation hy
  | stepTimer now =>
    have hy : s.stepTimer now = some (s₁, r) := hy
    rw [GameLogic.stepTimer] at hy
    split at hy
    · cases hy
      exact hs
    · next step time _ =>
      split_ifs at hy
      · have hbegin : { s with next := none, logicStep := step }.Seated :=
          hs.congr ⟨fun _ => rfl, rfl, rfl, rfl⟩ rfl rfl
        exact hbegin.onStepSwitch hy
      · cases hy
        exact hs
  | timeoutTimer now =>
    have hy : s.timeoutTimer now = some (s₁, r) := hy
    rw [GameLogic.timeoutTimer] at hy
    split at hy
    · cases hy
      exact hs
    · split_ifs at hy
      · exact hs.onOperationTimeout hy
      · cases hy
        exact hs

lemma gameStart_seated {c : Setup n} (h : gameStart c now = some s) : s.Seated := by
  refine ⟨Betting.gameStart_blinds h, fun hne => absurd ?_ hne⟩
  obtain ⟨button, sb, bb, -, -, -, rfl⟩ := gameStart_eq_some h
  rfl

/-- A fold of the operator takes effect, and nothing but his hand is given up. -/
lemma Seated.fold (hs : s.Seated) (hpos : s.currentOperatorPos = some pos)
    (hp : s.players pos = some p) (now : ℕ) : ∃ s' r p',
    s.onPlayerOperation now pos (some .fold) 0 = some (s', r) ∧ s'.players pos = some p' ∧
      p'.chips = p.chips ∧ p'.betList = p.betList ∧ p'.fold = true := by
  obtain ⟨e, hlast, he⟩ := hs.last (by simp [hpos])
  have hat : ∀ p', (s.set pos p').players pos = some p' := fun p' => Function.update_self ..
  by_cases hone : (s.set pos { p with fold := true }).getFoldCount + 1 =
      (s.set pos { p with fold := true }).getPlayingCount
  · refine ⟨(s.set pos { p with fold := true }).logicStopTimeout.logicStartStep now .stepEnd
      (stepInterval * 2), [], _, ?_, hat _, rfl, rfl, rfl⟩
    simp [GameLogic.onPlayerOperation, hpos, hp, execute, onPlayerFold, hone]
  · have hexec : s.execute now pos p (some .fold) 0 =
        (true, { s.set pos { p with fold := true } with endOperatorPos := s.endOperatorPos }) := by
      rw [execute, onPlayerFold, if_neg hone]
      rfl
    rw [onPlayerOperation_of_execute hpos hp hexec]
    set s₁ := { s.set pos { p with fold := true, operations := [] } with
      endOperatorPos := s.endOperatorPos }.logicStopTimeout with hs₁
    have hreturns : ∃ s', s₁.proceed now pos = some s' := by
      rw [proceed]
      split_ifs with hend
      · exact ⟨_, rfl⟩
      · have hplay : (s₁.players e).isSome := (isSome_set hp _ e).trans he
        have hne : pos ≠ e := fun h => hend (h ▸ hlast.symm)
        obtain ⟨q, b, hnext, -⟩ := nextOperator_spec (s := s₁) hlast hplay hne
        rw [hnext]
        cases b <;> exact ⟨_, rfl⟩
    obtain ⟨s', hproc⟩ := hreturns
    refine ⟨s', [], { p with fold := true, operations := [] }, by rw [hproc]; rfl, ?_, rfl, rfl,
      rfl⟩
    rw [(proceed_frame hproc).1]
    exact hat _

/-- An accepted call against a larger bet takes chips. -/
lemma call_spends (hpos : s.currentOperatorPos = some pos) (hp : s.players pos = some p)
    (hneed : 0 < s.needChips p) (hchips : s.needChips p < p.chips)
    (h : s.onPlayerOperation now pos (some .call) 0 = some (s', r)) {p' : PokerPlayer}
    (hp' : s'.players pos = some p') : p'.chips < p.chips := by
  have href : s.refuses p (some .call) 0 = false := by
    simp only [refuses, PokerPlayer.isAllIn, Bool.or_eq_false_iff, decide_eq_false_iff_not]
    omega
  have hexec : s.execute now pos p (some .call) 0 =
      (true, { s.set pos (p.pay (min p.chips (s.needChips p))) with
        endOperatorPos := s.endOperatorPos }) := by
    rw [execute, onPlayerCall_eq 0, href]
    rfl
  rw [onPlayerOperation_of_execute hpos hp hexec] at h
  obtain ⟨s₁, hproc, hr⟩ := Option.map_eq_some_iff.mp h
  cases hr
  rw [(proceed_frame hproc).1] at hp'
  have hat := hp'.symm.trans (Function.update_self ..)
  rw [Option.some.inj hat]
  simp only [PokerPlayer.pay]
  omega

/-- The timeout calls when the operator has more chips than the call, and folds otherwise. -/
lemma timeoutOperation_eq : s.timeoutOperation pos p =
    if p.getTotalBet < s.getPlayerMaxBet ∧ s.needChips p < p.chips then .call else .fold := by
  have hneed : s.needChips p = s.getPlayerMaxBet - p.getTotalBet := rfl
  have hcall : (s.getPlayerOperations pos p).contains .call = true ↔
      p.getTotalBet < s.getPlayerMaxBet ∧ s.needChips p < p.chips := by
    simp only [getPlayerOperations, ← hneed]
    by_cases hlt : p.getTotalBet < s.getPlayerMaxBet
    · by_cases hchips : s.needChips p < p.chips
      · rw [if_pos hlt, if_pos hchips]
        split_ifs <;> simp [hlt, hchips]
      · rw [if_pos hlt, if_neg hchips, if_pos (by omega)]
        simp [hchips]
    · rw [if_neg hlt]
      split_ifs <;> simp [hlt]
  simp only [timeoutOperation, hcall]

/-- **The timeout**: in every betting round of every run, the timeout keeps the rule exactly when
the operator faces a larger bet and his chips do not exceed the call.
 **Proof sketch.** The timeout of every street is the one of the first: it calls where a call is
offered, which spends chips, and folds otherwise, also where a check is free. A fold is carried
out, since the search for the next operator ends at a playing seat. -/
theorem keepsRule_iff {c : Setup n} {s₀ : GameLogic n} {start : ℕ}
    (h₀ : gameStart c start = some s₀) (h : Runs.Reaches next? (fun _ _ => True) s₀ s)
    (hbet : betStep s.logicStep = true) (hpos : s.currentOperatorPos = some pos)
    (hp : s.players pos = some p) : s.KeepsRule now pos p ↔
      p.getTotalBet < s.getPlayerMaxBet ∧ p.chips ≤ s.needChips p := by
  have hs : s.Seated := h.invariant (I := Seated) (gameStart_seated h₀)
    fun s e s' hs _ hstep => hs.next? hstep
  unfold KeepsRule
  rw [onOperationTimeout_eq hbet hpos hp, timeoutOperation_eq]
  split_ifs with hcall
  · constructor
    · rintro ⟨s', r, p', h, hp', hsame, -⟩
      have hneed : 0 < s.needChips p := by
        rw [needChips]
        omega
      have := call_spends hpos hp hneed hcall.2 h hp'
      omega
    · rintro ⟨-, hle⟩
      omega
  · obtain ⟨s', r, p', hfold, hp', hchips, hbets, hout⟩ := hs.fold hpos hp now
    constructor
    · rintro ⟨s₁, r₁, p₁, h, hp₁, -, -, hrule⟩
      obtain ⟨rfl, rfl⟩ := Prod.mk.inj (Option.some.inj (hfold.symm.trans h))
      obtain rfl := Option.some.inj (hp'.symm.trans hp₁)
      have hlt := of_decide_eq_true (hrule.symm.trans hout)
      exact ⟨hlt, not_lt.mp fun hchips => hcall ⟨hlt, hchips⟩⟩
    · rintro ⟨hlt, -⟩
      exact ⟨s', r, p', hfold, hp', hchips, hbets, by rw [hout, decide_eq_true hlt]⟩

/-- Two players with a hundred chips each, and twenty seconds for an operation. -/
def timed : Setup 2 := ⟨fun _ => some 100, 2, 1, 20⟩

/-- The small blind goes all in, and the timeout folds the hand of the big blind. -/
theorem timed_folds : ∃ (s₀ s : GameLogic 2) (p : PokerPlayer), gameStart timed 0 = some s₀ ∧
    Runs.Reaches next? (fun _ _ => True) s₀ s ∧ s.operationTimeoutTime = some 2211 ∧
    s.players 1 = some p ∧ p.chips = 98 ∧ s.needChips p = 98 ∧ s.KeepsRule 2212 1 p := by
  have hrun : ((gameStart timed 0).bind fun s₀ =>
      (Runs.exec next? (fun _ _ => True) s₀
        (headsUpOpening ++ [.message 160 0 7 0, .stepTimer 211])).bind fun s =>
          (s.players 1).map fun p =>
            (betStep s.logicStep, s.currentOperatorPos, s.operationTimeoutTime, p.chips,
              s.needChips p, decide (p.getTotalBet < s.getPlayerMaxBet))) =
      some (true, some 1, some 2211, 98, 98, true) := by
    decide +kernel
  obtain ⟨s₀, h₀, hrun⟩ := Option.bind_eq_some_iff.mp hrun
  obtain ⟨s, hs, hrun⟩ := Option.bind_eq_some_iff.mp hrun
  obtain ⟨p, hp, hrun⟩ := Option.map_eq_some_iff.mp hrun
  simp only [Prod.mk.injEq, decide_eq_true_eq] at hrun
  obtain ⟨hbet, hpos, htime, hchips, hneed, hlt⟩ := hrun
  have hreach := Runs.reaches_of_exec _ .init hs
  exact ⟨s₀, s, p, h₀, hreach, htime, hp, hchips, hneed,
    (keepsRule_iff h₀ hreach hbet hpos hp).mpr ⟨hlt, by omega⟩⟩

/-- The small blind has called, and the timeout folds the hand of the big blind, who faces no larger
bet. -/
theorem timed_folds_free_hand : ¬ ∀ (s₀ s : GameLogic 2) (pos : Fin 2) (p : PokerPlayer)
    (time now : ℕ), gameStart timed 0 = some s₀ → Runs.Reaches next? (fun _ _ => True) s₀ s →
    betStep s.logicStep = true → s.operationTimeoutTime = some time → time < now →
    s.currentOperatorPos = some pos → s.players pos = some p → s.KeepsRule now pos p := by
  intro h
  have hrun : ((gameStart timed 0).bind fun s₀ =>
      (Runs.exec next? (fun _ _ => True) s₀
        (headsUpOpening ++ [.message 160 0 2 0, .stepTimer 211])).bind fun s =>
          (s.players 1).bind fun p => (s.onOperationTimeout 2212).bind fun y =>
            (y.1.players 1).map fun p' =>
              (betStep s.logicStep, s.currentOperatorPos, s.operationTimeoutTime,
                decide (p.getTotalBet < s.getPlayerMaxBet), p'.fold)) =
      some (true, some 1, some 2211, false, true) := by
    decide +kernel
  obtain ⟨s₀, h₀, hrun⟩ := Option.bind_eq_some_iff.mp hrun
  obtain ⟨s, hs, hrun⟩ := Option.bind_eq_some_iff.mp hrun
  obtain ⟨p, hp, hrun⟩ := Option.bind_eq_some_iff.mp hrun
  obtain ⟨y, hy, hrun⟩ := Option.bind_eq_some_iff.mp hrun
  obtain ⟨p', hp', hrun⟩ := Option.map_eq_some_iff.mp hrun
  simp only [Prod.mk.injEq] at hrun
  obtain ⟨hbet, hpos, htime, hlt, hout⟩ := hrun
  obtain ⟨s', r, p₁, hy₁, hp₁, -, -, hrule⟩ := h s₀ s 1 p 2211 2212 h₀
    (Runs.reaches_of_exec _ .init hs) hbet htime (by omega) hpos hp
  obtain rfl : y = (s', r) := Option.some.inj (hy.symm.trans hy₁)
  obtain rfl := Option.some.inj (hp'.symm.trans hp₁)
  rw [hlt, hout] at hrule
  cases hrule

end Texas.GameLogic
