import JsmjServer.Lib.Circle
import JsmjServer.Texas.Requests
import Mathlib.Data.Finset.Card
import Mathlib.Data.Fintype.Card

set_option relaxedAutoImplicit false
set_option autoImplicit false
set_option linter.unusedSectionVars false

/-!
# Betting rounds

A betting round ends when the operation comes to `endOperatorPos`, a seat that every raise moves
to the player before the raiser. That player may have folded or be all in, and the search for the
next operator skips such players, so it is not plain that nobody is left out. This module keeps
beside a run who has acted since the last raise of the round, and shows that these are exactly the
active players beyond the end of the round as seen from the operator.

## Main definitions

* `Texas.GameLogic.Betting` — a state of a hand with the seats that have acted.
* `Texas.GameLogic.Proper` — an accepted operation was offered, and a raise is positive.
* `Texas.GameLogic.Betting.Settled` — every active player has acted and has bet the most.
* `Texas.GameLogic.Betting.Open` — who has acted, by the distance from the operator.

## Main results

* `Texas.GameLogic.Betting.Round.watch` — one event.
* `Texas.GameLogic.settled_of_closes` — every accepted operation of every run.
-/

namespace Texas.GameLogic

open Circle

variable {n : ℕ} [NeZero n]

/-! ### Who has acted -/

/-- The operation raises the bet to call: a raise, or an all in beyond it. -/
def raises (s : GameLogic n) (p : PokerPlayer) (op : Operation) : Bool :=
  op = .raise || (op = .allin && s.needChips p < p.chips)

/-- The steps that deal cards; each begins a round. -/
def dealStep : Step → Bool
  | .send2Cards | .show3Cards | .show4Cards | .show5Cards => true
  | _ => false

/-- The step after a betting round. -/
def stepAfter : Step → Option Step
  | .send2CardsBet => some .show3Cards
  | .show3CardsBet => some .show4Cards
  | .show4CardsBet => some .show5Cards
  | .show5CardsBet => some .stepEnd
  | _ => none

/-- An event begins to deal cards. -/
def deals (s : GameLogic n) : Event n → Bool
  | .stepTimer now => s.logicStep ≠ .stepEnd && s.next.any fun y => now > y.2 && dealStep y.1
  | _ => false

/-- A state with the seats that have acted since the last raise of the round. -/
structure Betting (n : ℕ) where
  state : GameLogic n
  acted : Finset (Fin n)

/-- The seats that have acted after an accepted operation: after a raise the raiser alone. -/
def act (acted : Finset (Fin n)) (s : GameLogic n) (pos : Fin n) (op : Operation) :
    Finset (Fin n) :=
  if (s.players pos).any fun p => s.raises p op then {pos} else insert pos acted

/-- The seats that have acted after an event. -/
def actedAfter (x : Betting n) (e : Event n) : Finset (Fin n) :=
  match x.state.asks e with
  | some (pos, op, data) =>
    if x.state.accepts pos (some op) data then act x.acted x.state pos op else x.acted
  | none => if x.state.deals e then ∅ else x.acted

/-- One event, with the seats that have acted. -/
def watch (x : Betting n) (e : Event n) : Option (Betting n) :=
  (x.state.step e).map fun y => ⟨y.1, actedAfter x e⟩

/-- An accepted operation of a message was offered to the player, and a raise is positive. -/
def Proper (s : GameLogic n) : Event n → Prop
  | .message _ pos op data => s.accepts pos (Operation.ofCode op) data = true →
      ∃ p ∈ s.players pos, ∃ o ∈ p.operations, Operation.ofCode op = some o ∧
        (o = .raise → 0 < data)
  | .stepTimer _ => True
  | .timeoutTimer _ => True

instance (s : GameLogic n) (e : Event n) : Decidable (s.Proper e) :=
  match e with
  | .message _ pos op data => inferInstanceAs (Decidable (
      s.accepts pos (Operation.ofCode op) data = true →
      ∃ p ∈ s.players pos, ∃ o ∈ p.operations, Operation.ofCode op = some o ∧
        (o = .raise → 0 < data)))
  | .stepTimer _ => .isTrue trivial
  | .timeoutTimer _ => .isTrue trivial

namespace Betting

/-- The round is settled: every player who has not folded and has chips left has bet as much as
the largest bet and has acted since the last raise. -/
def Settled (x : Betting n) : Prop :=
  ∀ pos p, x.state.players pos = some p → p.active = true →
    p.getTotalBet = x.state.getPlayerMaxBet ∧ pos ∈ x.acted

instance (x : Betting n) : Decidable x.Settled :=
  inferInstanceAs (Decidable (∀ pos, ∀ p ∈ x.state.players pos, p.active = true →
    p.getTotalBet = x.state.getPlayerMaxBet ∧ pos ∈ x.acted))

/-- Of the active players exactly those beyond the end of the round, seen from the operator, have
acted, and these have bet the most. -/
structure Open (x : Betting n) (c e : Fin n) : Prop where
  current : x.state.currentOperatorPos = some c
  last : x.state.endOperatorPos = some e
  current_playing : (x.state.players c).isSome
  last_playing : (x.state.players e).isSome
  acted_iff : ∀ q, x.state.activeAt q = true → (q ∈ x.acted ↔ dist c e < dist c q)
  equal : ∀ q p, x.state.players q = some p → p.active = true → q ∈ x.acted →
    p.getTotalBet = x.state.getPlayerMaxBet

/-- The operator is asked, or is about to be asked. -/
def Live (s : GameLogic n) : Prop :=
  (∃ st t, s.next = some (st, t) ∧ betStep st = true) ∨
  (∃ q p, s.players q = some p ∧ p.operations ≠ []) ∨ s.operationTimeoutTime ≠ none

end Betting

variable {s s' : GameLogic n} {now : ℕ} {pos : Fin n} {p : PokerPlayer}

/-! ### The largest bet -/

/-- The largest bet is the least bound of the bets of the players who have not folded. -/
lemma getPlayerMaxBet_le_iff {m : ℤ} : s.getPlayerMaxBet ≤ m ↔
    0 ≤ m ∧ ∀ q p, s.players q = some p → p.fold = false → p.getTotalBet ≤ m := by
  have hfold : ∀ (l : List PokerPlayer) (k : ℤ),
      l.foldl (fun m p => if !p.fold && m < p.getTotalBet then p.getTotalBet else m) k ≤ m ↔
        k ≤ m ∧ ∀ p ∈ l, p.fold = false → p.getTotalBet ≤ m := by
    intro l
    induction l with
    | nil => simp
    | cons p l ih =>
      intro k
      simp only [List.foldl_cons, ih, List.forall_mem_cons]
      cases hp : p.fold with
      | true => simp
      | false =>
        simp only [Bool.not_false, Bool.true_and, decide_eq_true_eq]
        split_ifs with hlt
        · constructor
          · rintro ⟨h₁, h₂⟩
            exact ⟨by omega, fun _ => h₁, h₂⟩
          · rintro ⟨-, h₁, h₂⟩
            exact ⟨h₁ trivial, h₂⟩
        · constructor
          · rintro ⟨h₁, h₂⟩
            exact ⟨h₁, fun _ => by omega, h₂⟩
          · rintro ⟨h₁, -, h₂⟩
            exact ⟨h₁, h₂⟩
  rw [getPlayerMaxBet, hfold, playing]
  simp only [List.mem_filterMap, List.mem_finRange, true_and]
  constructor
  · rintro ⟨h₀, h⟩
    exact ⟨h₀, fun q p hp => h p ⟨q, hp⟩⟩
  · rintro ⟨h₀, h⟩
    refine ⟨h₀, fun p hmem => ?_⟩
    obtain ⟨q, hp⟩ := hmem
    exact h q p hp

lemma getPlayerMaxBet_nonneg : 0 ≤ s.getPlayerMaxBet :=
  (getPlayerMaxBet_le_iff.mp le_rfl).1

lemma getTotalBet_le_max (hp : s.players pos = some p) (hfold : p.fold = false) :
    p.getTotalBet ≤ s.getPlayerMaxBet :=
  (getPlayerMaxBet_le_iff.mp le_rfl).2 pos p hp hfold

lemma fold_of_active (h : p.active = true) : p.fold = false := by
  simp only [PokerPlayer.active, Bool.not_eq_true', Bool.or_eq_false_iff] at h
  exact h.2

/-! ### Accepted operations -/

/-- What an accepted operation makes of a player and of the end of the round: a raise goes beyond
the largest bet, and after any other operation an active player has bet just as much. -/
structure Effect (s : GameLogic n) (pos : Fin n) (p : PokerPlayer) (op : Operation)
    (p' : PokerPlayer) (e : Option (Fin n)) : Prop where
  raised : s.raises p op = true → e = s.getPrevPlayer pos ∧
    (p'.fold = false → s.getPlayerMaxBet < p'.getTotalBet)
  followed : s.raises p op = false → e = s.endOperatorPos ∧
    (p'.fold = false → p'.getTotalBet ≤ s.getPlayerMaxBet) ∧
    (p'.active = true → p'.getTotalBet = s.getPlayerMaxBet)

lemma getTotalBet_pay (p : PokerPlayer) (amount : ℤ) :
    (p.pay amount).getTotalBet = p.getTotalBet + amount := by
  simp [PokerPlayer.pay, PokerPlayer.getTotalBet]

lemma chips_ne_zero_of_active (h : p.active = true) : p.chips ≠ 0 := by
  simp only [PokerPlayer.active, PokerPlayer.isAllIn, Bool.not_eq_true', Bool.or_eq_false_iff,
    decide_eq_false_iff_not] at h
  exact h.1

/-- The effect of a handler that does not refuse. -/
lemma effect_of_execute {op : Operation} {data : ℤ} {p' : PokerPlayer} {e : Option (Fin n)}
    (hp : s.players pos = some p) (href : s.refuses p (some op) data = false)
    (hdata : op = .raise → 0 < data)
    (h : s.execute now pos p (some op) data =
      (true, { s.set pos p' with endOperatorPos := e })) : s.Effect pos p op p' e := by
  have hinj : ∀ {p₁ e₁}, (true, { s.set pos p₁ with endOperatorPos := e₁ }) =
      (true, { s.set pos p' with endOperatorPos := e }) → p₁ = p' ∧ e₁ = e := by
    intro p₁ e₁ heq
    have hs := (Prod.mk.inj heq).2
    have hat := congrFun (congrArg GameLogic.players hs) pos
    simp only [set, Function.update_self] at hat
    exact ⟨Option.some.inj hat, congrArg GameLogic.endOperatorPos hs⟩
  cases op with
  | bet => cases href
  | reraise => cases href
  | fold =>
    rw [execute, onPlayerFold] at h
    split_ifs at h
    · cases (Prod.mk.inj h).1
    · obtain ⟨rfl, rfl⟩ := hinj h
      exact ⟨fun hr => by simp [raises] at hr, fun _ => ⟨rfl, by simp, by
        simp [PokerPlayer.active]⟩⟩
  | call =>
    rw [execute, onPlayerCall_eq data, href] at h
    obtain ⟨rfl, rfl⟩ : _ = p' ∧ s.endOperatorPos = e := hinj h
    refine ⟨fun hr => by simp [raises] at hr, fun _ => ⟨rfl, fun _ => ?_, fun hact => ?_⟩⟩
    · rw [getTotalBet_pay, needChips]
      omega
    · have hchips := chips_ne_zero_of_active hact
      simp only [PokerPlayer.pay, needChips] at hchips
      rw [getTotalBet_pay, needChips]
      omega
  | raise =>
    rw [execute, onPlayerRaise_eq, href] at h
    obtain ⟨rfl, rfl⟩ := hinj h
    refine ⟨fun _ => ⟨rfl, fun _ => ?_⟩, fun hr => by simp [raises] at hr⟩
    have := hdata rfl
    rw [getTotalBet_pay, needChips]
    omega
  | allin =>
    rw [execute, onPlayerAllIn_eq data, href] at h
    by_cases hle : p.chips ≤ s.needChips p
    · simp only [if_pos hle] at h
      obtain ⟨rfl, rfl⟩ : _ = p' ∧ s.endOperatorPos = e := hinj h
      refine ⟨fun hr => ?_, fun _ => ⟨rfl, fun _ => ?_, fun hact => ?_⟩⟩
      · simp [raises, not_lt.mpr hle] at hr
      · rw [getTotalBet_pay]
        rw [needChips] at hle
        omega
      · exact absurd (by simp [PokerPlayer.pay]) (chips_ne_zero_of_active hact)
    · simp only [if_neg hle] at h
      obtain ⟨rfl, rfl⟩ := hinj h
      have hlt := not_le.mp hle
      refine ⟨fun _ => ⟨rfl, fun _ => ?_⟩, fun hr => by simp [raises, hlt] at hr⟩
      rw [getTotalBet_pay]
      rw [needChips] at hlt
      omega
  | check =>
    rw [execute, onPlayerCheck] at h
    have hself : s.set pos p = s := by
      rw [set, ← hp, Function.update_eq_self]
    have heq : s.isPlayerBetEqual = true := (Prod.mk.inj h).1
    rw [heq] at h
    obtain ⟨rfl, rfl⟩ : p = p' ∧ s.endOperatorPos = e := by
      apply hinj
      rw [hself]
      exact h
    refine ⟨fun hr => by simp [raises] at hr, fun _ => ⟨rfl, getTotalBet_le_max hp, ?_⟩⟩
    intro hact
    have hfold := fold_of_active hact
    have hle := getTotalBet_le_max hp hfold
    have hall := chips_ne_zero_of_active hact
    have hmem : p ∈ s.playing := List.mem_filterMap.mpr ⟨pos, List.mem_finRange _, hp⟩
    have hge := List.all_eq_true.mp heq p hmem
    simp only [hfold, PokerPlayer.isAllIn, hall, decide_false, Bool.or_false, Bool.false_or,
      Bool.not_eq_true', decide_eq_false_iff_not] at hge
    omega

/-! ### The next operator -/

lemma mem_forward (a b : Fin n) : b ∈ forward a := mem_add (a + 1) b

/-- What the search for the next operator meets at a seat. -/
def stopsAt (s : GameLogic n) (q : Fin n) : Option (Fin n × Bool) :=
  if s.activeAt q then some (q, false)
  else if (s.players q).isSome ∧ some q = s.endOperatorPos then some (q, true)
  else none

lemma nextOperator_eq (pos : Fin n) : s.nextOperator pos = (forward pos).findSome? s.stopsAt := by
  rw [nextOperator]
  congr 1
  funext q
  cases hp : s.players q with
  | none => simp [stopsAt, activeAt, hp]
  | some p => simp [stopsAt, activeAt, hp]

/-- What the search for the next operator finds: the first seat after `c` that is active, or the
end of the round when no active seat comes before it. -/
lemma nextOperator_spec {c e : Fin n} (hlast : s.endOperatorPos = some e)
    (he : (s.players e).isSome) (hne : c ≠ e) : ∃ q b, s.nextOperator c = some (q, b) ∧
      q ≠ c ∧ dist c q ≤ dist c e ∧ (b = false → s.activeAt q = true) ∧
      (b = true → q = e ∧ s.activeAt q = false) ∧
      ∀ q', q' ≠ c → s.activeAt q' = true → dist c q ≤ dist c q' := by
  have hactive : ∀ q, s.activeAt q = true → s.stopsAt q ≠ none := by
    intro q hq
    simp [stopsAt, hq]
  have hstop : s.stopsAt e ≠ none := by
    rw [stopsAt]
    split_ifs with h₁ h₂
    · simp
    · simp
    · exact absurd ⟨he, hlast.symm⟩ h₂
  obtain ⟨y, hy⟩ : ∃ y, s.nextOperator c = some y := by
    cases hnone : s.nextOperator c with
    | some y => exact ⟨y, rfl⟩
    | none =>
      rw [nextOperator_eq] at hnone
      exact absurd (List.findSome?_eq_none_iff.mp hnone e (mem_forward c e)) hstop
  have hsearch := hy
  rw [nextOperator_eq] at hsearch
  obtain ⟨q, -, hq, hmin⟩ := findSome?_pairwise (pairwise_add (c + 1)) hsearch
  have hbefore : ∀ x, s.stopsAt x ≠ none → dist (c + 1) q ≤ dist (c + 1) x := by
    intro x hx
    by_contra hlt
    exact hx (hmin x (mem_add _ _) (not_le.mp hlt))
  have hn := NeZero.pos n
  have hqe := hbefore e hstop
  rw [dist_add_one c e, if_neg hne] at hqe
  have hlt := dist_lt c e
  have hde : dist c e ≠ 0 := fun h0 => hne (dist_eq_zero.mp h0)
  have hqc : q ≠ c := by
    rintro rfl
    rw [dist_add_one, if_pos rfl] at hqe
    omega
  have hdq : dist c q ≠ 0 := fun h0 => hqc (dist_eq_zero.mp h0).symm
  rw [dist_add_one, if_neg hqc.symm] at hqe
  have hfirst : ∀ q', q' ≠ c → s.activeAt q' = true → dist c q ≤ dist c q' := by
    intro q' hq' hact
    have hle := hbefore q' (hactive q' hact)
    have hd' : dist c q' ≠ 0 := fun h0 => hq' (dist_eq_zero.mp h0).symm
    rw [dist_add_one, dist_add_one, if_neg hqc.symm, if_neg hq'.symm] at hle
    omega
  rw [stopsAt] at hq
  split_ifs at hq with hact hend
  · obtain rfl := Option.some.inj hq
    exact ⟨q, false, hy, hqc, by omega, fun _ => hact, nofun, hfirst⟩
  · obtain rfl := Option.some.inj hq
    have hqe' : q = e := Option.some.inj (hend.2.trans hlast)
    exact ⟨q, true, hy, hqc, by omega, nofun, fun _ => ⟨hqe', Bool.eq_false_of_not_eq_true hact⟩,
      hfirst⟩

/-- After an accepted operation of `c` the round closes with everyone active having acted, or the
next operator is active and has not, and again exactly the active players beyond the end of the
round have. -/
lemma proceed_spec {c e : Fin n} (now : ℕ) (acted : Finset (Fin n))
    (hlast : s.endOperatorPos = some e) (he : (s.players e).isSome)
    (hacted : ∀ q, q ≠ c → s.activeAt q = true → (q ∈ acted ↔ dist c e < dist c q)) :
    (s.proceed now c = some (s.advance now) ∧
      ∀ q, s.activeAt q = true → q ∈ insert c acted) ∨
    ∃ q, s.proceed now c = some ({ s with currentOperatorPos := some q }.logicStartStep now
        s.logicStep stepInterval) ∧ s.activeAt q = true ∧ q ∉ insert c acted ∧
      ∀ q', s.activeAt q' = true → (q' ∈ insert c acted ↔ dist q e < dist q q') := by
  by_cases hce : c = e
  · subst hce
    refine .inl ⟨by simp [proceed, hlast], fun q hq => ?_⟩
    by_cases hqc : q = c
    · simp [hqc]
    · have hd : dist c q ≠ 0 := fun h0 => hqc (dist_eq_zero.mp h0).symm
      have hmem := (hacted q hqc hq).mpr (by rw [Circle.dist_self]; omega)
      exact Finset.mem_insert_of_mem hmem
  obtain ⟨q, b, hnext, hqc, hqe, hfalse, htrue, hfirst⟩ := nextOperator_spec hlast he hce
  have hne : some c ≠ s.endOperatorPos := by simpa [hlast] using hce
  cases b with
  | true =>
    obtain ⟨rfl, hidle⟩ := htrue rfl
    refine .inl ⟨by rw [proceed, if_neg hne, hnext], fun q' hq' => ?_⟩
    by_cases hq'c : q' = c
    · simp [hq'c]
    · -- the end of the round is not active, so the active seats are beyond it
      have hle := hfirst q' hq'c hq'
      have hne : dist c q' ≠ dist c q := by
        intro heq
        have h0 : dist q q' = 0 := by rw [dist_sub hle]; omega
        rw [dist_eq_zero.mp h0, hq'] at hidle
        cases hidle
      exact Finset.mem_insert_of_mem ((hacted q' hq'c hq').mpr (by omega))
  | false =>
    have hact := hfalse rfl
    have hnot : q ∉ insert c acted := by
      rw [Finset.mem_insert, hacted q hqc hact]
      push Not
      exact ⟨hqc, hqe⟩
    refine .inr ⟨q, by rw [proceed, if_neg hne, hnext], hact, hnot, fun q' hq' => ?_⟩
    rw [dist_sub hqe]
    by_cases hq'c : q' = c
    · subst hq'c
      have hlt := dist_lt q' e
      rw [dist_back hqc.symm]
      simp only [Finset.mem_insert_self, true_iff]
      omega
    · have hle := hfirst q' hq'c hq'
      rw [Finset.mem_insert, hacted q' hq'c hq', dist_sub hle]
      constructor
      · rintro (h | h)
        · exact absurd h hq'c
        · omega
      · intro h
        exact .inr (by omega)

/-! ### Rounds -/

lemma activeAt_iff {q : Fin n} :
    s.activeAt q = true ↔ ∃ p, s.players q = some p ∧ p.active = true := by
  cases hp : s.players q with
  | none => simp [activeAt, hp]
  | some p => simp [activeAt, hp]

lemma getPlayerMaxBet_congr (h : s'.players = s.players) :
    s'.getPlayerMaxBet = s.getPlayerMaxBet := by
  simp only [getPlayerMaxBet, playing, h]

/-- At a table of two the players are the blinds, and the button is the small one. -/
structure Blinds (s : GameLogic n) : Prop where
  playing : s.getPlayingCount = 2 → ∀ q, (s.players q).isSome → q = s.sbPos ∨ q = s.bbPos
  small : s.getPlayingCount = 2 → (s.players s.sbPos).isSome
  big : s.getPlayingCount = 2 → (s.players s.bbPos).isSome
  button : s.getPlayingCount = 2 → s.buttonSeat = s.sbPos

lemma getPlayingCount_congr (h : ∀ q, (s'.players q).isSome = (s.players q).isSome) :
    s'.getPlayingCount = s.getPlayingCount := by
  simp only [getPlayingCount, GameLogic.playing, List.length_filterMap_eq_countP]
  congr 1
  funext q
  exact h q

/-- The blinds depend on who plays only. -/
lemma Blinds.congr (hs : s.Blinds) (hplay : ∀ q, (s'.players q).isSome = (s.players q).isSome)
    (hsb : s'.sbPos = s.sbPos) (hbb : s'.bbPos = s.bbPos) (hb : s'.buttonSeat = s.buttonSeat) :
    s'.Blinds := by
  have hcount := getPlayingCount_congr hplay
  refine ⟨fun h q hq => ?_, fun h => ?_, fun h => ?_, fun h => ?_⟩
  · rw [hsb, hbb]
    exact hs.playing (hcount ▸ h) q (hplay q ▸ hq)
  · rw [hsb, hplay]
    exact hs.small (hcount ▸ h)
  · rw [hbb, hplay]
    exact hs.big (hcount ▸ h)
  · rw [hsb, hb]
    exact hs.button (hcount ▸ h)

/-- Replacing a player changes nothing about who plays. -/
lemma isSome_set (hp : s.players pos = some p) (p' : PokerPlayer) (q : Fin n) :
    ((s.set pos p').players q).isSome = (s.players q).isSome := by
  rcases eq_or_ne q pos with rfl | hq
  · simp [set, hp]
  · simp [set, Function.update_of_ne hq]

namespace Betting

/-- The invariant of a hand that is not settled: operations are recorded for the operator of a
betting round only, and not while a step is scheduled; and while the operator is asked or about
to be asked, the round is open. -/
structure Round (x : Betting n) : Prop where
  asked : ∀ q p, x.state.players q = some p → p.operations ≠ [] →
    x.state.currentOperatorPos = some q ∧ betStep x.state.logicStep = true
  quiet : ∀ st t, x.state.next = some (st, t) → st ≠ .stepEnd →
    x.state.operationTimeoutTime = none ∧ ∀ q p, x.state.players q = some p → p.operations = []
  opened : Live x.state → ∃ c e, x.Open c e
  blinds : x.state.Blinds

/-- A state in which nobody is asked or about to be asked. -/
lemma Round.of_not_live {x : Betting n} (h : ¬ Live x.state) (hb : x.state.Blinds) :
    x.Round := by
  have hnot := h
  simp only [Live, not_or, not_exists, not_and, not_not] at hnot
  obtain ⟨-, hops, htime⟩ := hnot
  exact ⟨fun q p hp hne => absurd (hops q p hp) hne, fun _ _ _ _ => ⟨htime, hops⟩,
    fun hlive => absurd hlive h, hb⟩

variable {x : Betting n} {c e : Fin n} {op : Operation} {p' : PokerPlayer} {e' : Option (Fin n)}

lemma act_of_raises (hp : s.players pos = some p) (acted : Finset (Fin n)) :
    act acted s pos op = insert pos (if s.raises p op then ∅ else acted) := by
  simp only [act, hp, Option.any_some]
  split_ifs <;> rfl

/-- Who has acted has bet the most also after an operation. -/
lemma Open.equal_after (hx : x.Open c e) (hp : x.state.players c = some p)
    (heff : x.state.Effect c p op p' e')
    (hs' : s'.players = Function.update x.state.players c (some p')) :
    ∀ q p₁, s'.players q = some p₁ → p₁.active = true → q ∈ act x.acted x.state c op →
      p₁.getTotalBet = s'.getPlayerMaxBet := by
  intro q p₁ hp₁ hact hq
  have hle := getTotalBet_le_max hp₁ (fold_of_active hact)
  have hold : ∀ q p₁, q ≠ c → s'.players q = some p₁ → x.state.players q = some p₁ := by
    intro q p₁ hqc hp₁
    rwa [hs', Function.update_of_ne hqc] at hp₁
  have hat : ∀ p₁, s'.players c = some p₁ → p₁ = p' := by
    intro p₁ hp₁
    rw [hs', Function.update_self] at hp₁
    exact (Option.some.inj hp₁).symm
  rw [act_of_raises hp] at hq
  cases hr : x.state.raises p op with
  | true =>
    obtain rfl : q = c := by simpa [hr] using hq
    obtain rfl := hat p₁ hp₁
    have hlt := (heff.raised hr).2 (fold_of_active hact)
    have hnonneg := getPlayerMaxBet_nonneg (s := x.state)
    refine le_antisymm hle (getPlayerMaxBet_le_iff.mpr ⟨by omega, fun q' p₂ hp₂ hfold => ?_⟩)
    by_cases hq' : q' = q
    · subst hq'
      rw [hat p₂ hp₂]
    · have := getTotalBet_le_max (hold q' p₂ hq' hp₂) hfold
      omega
  | false =>
    obtain ⟨-, hbound, hequal⟩ := heff.followed hr
    have hmax : s'.getPlayerMaxBet ≤ x.state.getPlayerMaxBet := by
      refine getPlayerMaxBet_le_iff.mpr ⟨getPlayerMaxBet_nonneg, fun q' p₂ hp₂ hfold => ?_⟩
      by_cases hq' : q' = c
      · subst hq'
        obtain rfl := hat p₂ hp₂
        exact hbound hfold
      · exact getTotalBet_le_max (hold q' p₂ hq' hp₂) hfold
    refine le_antisymm hle (hmax.trans (le_of_eq ?_))
    by_cases hqc : q = c
    · subst hqc
      obtain rfl := hat p₁ hp₁
      exact (hequal hact).symm
    · have hmem : q ∈ x.acted := by simpa [hr, hqc] using hq
      exact (hx.equal q p₁ (hold q p₁ hqc hp₁) hact hmem).symm

/-- The next player is the one at the least distance from the next seat. -/
lemma getNextPlayer_spec {c q : Fin n} (h : s.getNextPlayer c = some q) :
    (s.players q).isSome ∧
      ∀ q', (s.players q').isSome → dist (c + 1) q ≤ dist (c + 1) q' := by
  obtain ⟨hq, hmin⟩ := find?_pairwise (pairwise_add (c + 1)) h
  exact ⟨hq, fun q' hq' => hmin q' (mem_add _ _) hq'⟩

/-- The previous player is the one at the largest distance. -/
lemma getPrevPlayer_spec {c e : Fin n} (h : s.getPrevPlayer c = some e) :
    (s.players e).isSome ∧ ∀ q, (s.players q).isSome → dist c q ≤ dist c e := by
  obtain ⟨he, hmin⟩ := find?_pairwise (pairwise_sub (c - 1)) h
  refine ⟨he, fun q hq => ?_⟩
  have hle := hmin q (mem_sub _ _) hq
  rw [dist_sub_one, dist_sub_one] at hle
  have h₁ := dist_lt c q
  have h₂ := dist_lt c e
  omega

lemma getPrevPlayer_isSome {c : Fin n} (h : (s.players c).isSome) :
    ∃ e, s.getPrevPlayer c = some e := by
  rw [← Option.isSome_iff_exists, getPrevPlayer, List.find?_isSome]
  exact ⟨c, mem_sub (c - 1) c, h⟩

/-- The end of the round after an operation, and who has acted before it of the others. -/
lemma Open.last_after (hx : x.Open c e) (heff : x.state.Effect c p op p' e') :
    ∃ l, e' = some l ∧ (x.state.players l).isSome ∧ ∀ q, q ≠ c → x.state.activeAt q = true →
      (q ∈ (if x.state.raises p op then ∅ else x.acted) ↔ dist c l < dist c q) := by
  cases hr : x.state.raises p op with
  | true =>
    obtain ⟨l, hl⟩ := getPrevPlayer_isSome hx.current_playing
    obtain ⟨hsome, hfar⟩ := getPrevPlayer_spec hl
    refine ⟨l, (heff.raised hr).1.trans hl, hsome, fun q _ hact => ?_⟩
    obtain ⟨p₁, hp₁, -⟩ := activeAt_iff.mp hact
    have hle := hfar q (by simp [hp₁])
    simpa using hle
  | false =>
    refine ⟨e, (heff.followed hr).1.trans hx.last, hx.last_playing, fun q _ hact => ?_⟩
    simpa using hx.acted_iff q hact

/-- The step after a betting round is scheduled when the round is closed. -/
lemma advance_eq (now : ℕ) (hbet : betStep s.logicStep = true) : ∃ st t,
    stepAfter s.logicStep = some st ∧ betStep st = false ∧
      s.advance now = s.logicStartStep now st t := by
  cases hstep : s.logicStep with
  | send2CardsBet | show3CardsBet | show4CardsBet | show5CardsBet =>
    simp only [advance, hstep]
    exact ⟨_, _, rfl, rfl, rfl⟩
  | _ => simp [hstep, betStep] at hbet

/-- What an accepted operation leads to: it is the fold that leaves one player and ends the hand;
or the round is settled and the step after it is scheduled; or it is not, and the next operator is
an active player who has not acted. -/
def Outcome (x x' : Betting n) (op : Operation) : Prop :=
  (op = .fold ∧ x'.state.getFoldCount + 1 = x'.state.getPlayingCount ∧
    ∃ t, x'.state.next = some (.stepEnd, t)) ∨
  (x'.Settled ∧ ∃ st t, stepAfter x.state.logicStep = some st ∧ x'.state.next = some (st, t)) ∨
  ∃ q t, x'.state.currentOperatorPos = some q ∧ x'.state.activeAt q = true ∧ q ∉ x'.acted ∧
    x'.state.next = some (x.state.logicStep, t)

/-- An accepted operation after which the hand goes on. -/
lemma Round.proceed (now : ℕ) (hx : x.Round) (hopen : x.Open c e)
    (hbet : betStep x.state.logicStep = true) (hp : x.state.players c = some p)
    (heff : x.state.Effect c p op p' e') :
    ∃ s', { x.state.set c { p' with operations := [] } with
        endOperatorPos := e' }.logicStopTimeout.proceed now c = some s' ∧
      Round ⟨s', act x.acted x.state c op⟩ ∧ x.Outcome ⟨s', act x.acted x.state c op⟩ op := by
  set s₁ := { x.state.set c { p' with operations := [] } with
    endOperatorPos := e' }.logicStopTimeout with hs₁
  have hplayers : s₁.players =
      Function.update x.state.players c (some { p' with operations := [] }) := rfl
  have heff' : x.state.Effect c p op { p' with operations := [] } e' :=
    ⟨heff.raised, heff.followed⟩
  have hequal := hopen.equal_after hp heff' hplayers
  obtain ⟨l, hl, hlplay, hacted⟩ := hopen.last_after heff
  have hplay : ∀ q, (s₁.players q).isSome = (x.state.players q).isSome := isSome_set hp _
  have hothers : ∀ q, q ≠ c → s₁.activeAt q = x.state.activeAt q := by
    intro q hq
    simp only [activeAt, hplayers, Function.update_of_ne hq]
  have hops : ∀ q p₁, s₁.players q = some p₁ → p₁.operations = [] := by
    intro q p₁ hp₁
    rw [hplayers] at hp₁
    by_cases hq : q = c
    · subst hq
      rw [Function.update_self] at hp₁
      obtain rfl := Option.some.inj hp₁
      rfl
    · rw [Function.update_of_ne hq] at hp₁
      by_contra hne
      have hcur := (hx.asked q p₁ hp₁ hne).1
      rw [hopen.current] at hcur
      exact hq (Option.some.inj hcur).symm
  have hblinds : s₁.Blinds := hx.blinds.congr hplay rfl rfl rfl
  have hspec := proceed_spec (s := s₁) now (if x.state.raises p op then ∅ else x.acted) hl
    (hplay l ▸ hlplay) fun q hq hact => hacted q hq (hothers q hq ▸ hact)
  rw [← act_of_raises hp] at hspec
  obtain ⟨hproc, hall⟩ | ⟨q, hproc, hact, hnot, hiff⟩ := hspec
  · refine ⟨_, hproc, ?_⟩
    obtain ⟨st, t, hst, hnobet, hadv⟩ := advance_eq (s := s₁) now hbet
    rw [hadv]
    refine ⟨.of_not_live ?_ (hblinds.congr (fun _ => rfl) rfl rfl rfl), .inr (.inl ⟨?_, ?_⟩)⟩
    · rintro (⟨st', t', hnext, hb⟩ | ⟨q, p₁, hp₁, hne⟩ | htime)
      · obtain ⟨rfl, -⟩ : st = st' ∧ now + t = t' := by simpa [logicStartStep] using hnext
        simp [hnobet] at hb
      · exact hne (hops q p₁ hp₁)
      · exact htime rfl
    · intro q p₁ hp₁ hact
      have hmem := hall q (activeAt_iff.mpr ⟨p₁, hp₁, hact⟩)
      exact ⟨hequal q p₁ hp₁ hact hmem, hmem⟩
    · exact ⟨st, now + t, hst, rfl⟩
  · refine ⟨_, hproc, ⟨?_, ?_, fun _ => ?_, ?_⟩, .inr (.inr ⟨q, _, rfl, hact, hnot, rfl⟩)⟩
    · exact fun q p₁ hp₁ hne => absurd (hops q p₁ hp₁) hne
    · exact fun _ _ _ _ => ⟨rfl, hops⟩
    · obtain ⟨p₁, hp₁, -⟩ := activeAt_iff.mp hact
      exact ⟨q, l, rfl, hl, Option.isSome_of_eq_some hp₁, hplay l ▸ hlplay, hiff, hequal⟩
    · exact hblinds.congr (fun _ => rfl) rfl rfl rfl

/-- An accepted operation of the operator. -/
lemma Round.operate {data : ℤ} (now : ℕ) (hx : x.Round) (hlive : Live x.state)
    (hbet : betStep x.state.logicStep = true) (hpos : x.state.currentOperatorPos = some pos)
    (hp : x.state.players pos = some p) (href : x.state.refuses p (some op) data = false)
    (hdata : op = .raise → 0 < data) :
    ∃ s', x.state.onPlayerOperation now pos (some op) data = some (s', []) ∧
      Round ⟨s', act x.acted x.state pos op⟩ ∧ x.Outcome ⟨s', act x.acted x.state pos op⟩ op := by
  obtain ⟨c, e, hopen⟩ := hx.opened hlive
  obtain rfl : pos = c := Option.some.inj (hpos.symm.trans hopen.current)
  obtain ⟨href', -⟩ | ⟨-, p', e', hexec⟩ | ⟨hfold, hexec⟩ := execute_cases now (some op) data hp
  · simp [href] at href'
  · obtain ⟨s', hproc, hround⟩ := hx.proceed now hopen hbet hp
      (effect_of_execute hp href hdata hexec)
    exact ⟨s', by rw [onPlayerOperation_of_execute hpos hp hexec, hproc]; rfl, hround⟩
  · -- the fold that leaves one player: the operations recorded for him stay
    obtain rfl := Option.some.inj hfold
    have hcount : (x.state.set pos { p with fold := true }).getFoldCount + 1 =
        (x.state.set pos { p with fold := true }).getPlayingCount := by
      simp only [execute, onPlayerFold] at hexec
      split_ifs at hexec with hcount
      · exact hcount
      · cases (Prod.mk.inj hexec).1
    have heff : x.state.Effect pos p .fold { p with fold := true } x.state.endOperatorPos :=
      ⟨by simp [raises], fun _ => ⟨rfl, by simp, by simp [PokerPlayer.active]⟩⟩
    set s' := (x.state.set pos { p with fold := true }).logicStopTimeout.logicStartStep now
      .stepEnd (stepInterval * 2) with hs'
    have hplayers : s'.players =
        Function.update x.state.players pos (some { p with fold := true }) := rfl
    have hequal := hopen.equal_after hp heff hplayers
    have hplay : ∀ q, (s'.players q).isSome = (x.state.players q).isSome := isSome_set hp _
    refine ⟨s', ?_, ⟨?_, ?_, fun _ => ?_, hx.blinds.congr hplay rfl rfl rfl⟩,
      .inl ⟨rfl, hcount, _, rfl⟩⟩
    · rw [onPlayerOperation, if_neg (not_not.mpr hpos.symm)]
      simp only [hp, hexec, Bool.not_false, if_true]
    · intro q p₁ hp₁ hne
      rw [hplayers] at hp₁
      by_cases hq : q = pos
      · subst hq
        rw [Function.update_self] at hp₁
        obtain rfl := Option.some.inj hp₁
        exact hx.asked q p hp hne
      · rw [Function.update_of_ne hq] at hp₁
        exact hx.asked q p₁ hp₁ hne
    · intro st t hnext hst
      obtain ⟨rfl, -⟩ : Step.stepEnd = st ∧ _ = t := by simpa [hs', logicStartStep] using hnext
      exact absurd rfl hst
    · refine ⟨pos, e, hopen.current, hopen.last, hplay pos ▸ hopen.current_playing,
        hplay e ▸ hopen.last_playing, fun q hq => ?_, hequal⟩
      obtain ⟨p₁, hp₁, hact⟩ := activeAt_iff.mp hq
      have hne : q ≠ pos := by
        rintro rfl
        rw [hplayers, Function.update_self] at hp₁
        obtain rfl := Option.some.inj hp₁
        simp [PokerPlayer.active] at hact
      rw [hplayers, Function.update_of_ne hne] at hp₁
      rw [act_of_raises hp, ← hopen.acted_iff q (activeAt_iff.mpr ⟨p₁, hp₁, hact⟩)]
      simp [raises, hne]

/-! ### Steps -/

variable {acted : Finset (Fin n)} {r : Requests n}

/-- Nobody is asked while no operations are recorded and no betting step is scheduled. -/
lemma not_live (hnext : ∀ st t, s.next = some (st, t) → betStep st = false)
    (htime : s.operationTimeoutTime = none)
    (hops : ∀ q p, s.players q = some p → p.operations = []) : ¬ Live s := by
  rintro (⟨st, t, h, hbet⟩ | ⟨q, p, hp, hne⟩ | h)
  · simp [hnext st t h] at hbet
  · exact hne (hops q p hp)
  · exact h htime

/-- A round begins, with an end behind every active seat. -/
lemma Round.begin (hb : s.Blinds) (htime : s.operationTimeoutTime = none)
    (hops : ∀ q p, s.players q = some p → p.operations = [])
    (hcur : s.currentOperatorPos = some c) (hlast : s.endOperatorPos = some e)
    (hc : (s.players c).isSome) (he : (s.players e).isSome)
    (hfar : ∀ q, s.activeAt q = true → dist c q ≤ dist c e) : Round ⟨s, ∅⟩ := by
  refine ⟨fun q p hp hne => absurd (hops q p hp) hne, fun _ _ _ _ => ⟨htime, hops⟩,
    fun _ => ⟨c, e, hcur, hlast, hc, he, fun q hq => ?_, by simp⟩, hb⟩
  have := hfar q hq
  simp only [Finset.notMem_empty, false_iff]
  omega

lemma onStepSend2Cards_round (hb : s.Blinds) (htime : s.operationTimeoutTime = none)
    (hops : ∀ q p, s.players q = some p → p.operations = [])
    (h : s.onStepSend2Cards now = some s') : Round ⟨s', ∅⟩ := by
  rw [onStepSend2Cards] at h
  obtain ⟨pos, hpos, h⟩ := Option.bind_eq_some_iff.mp h
  obtain ⟨endPos, hend, h⟩ := Option.bind_eq_some_iff.mp h
  cases h
  have hplays : (s.players pos).isSome := by
    rw [firstOperator] at hpos
    split_ifs at hpos with hcount
    · obtain rfl := Option.some.inj hpos
      rw [hb.button hcount]
      exact hb.small hcount
    · exact (getNextPlayer_spec hpos).1
  obtain ⟨he, hfar⟩ := getPrevPlayer_spec hend
  refine Round.begin (hb.congr (fun _ => rfl) rfl rfl rfl) htime hops rfl rfl hplays he ?_
  intro q hq
  obtain ⟨p, hp, -⟩ := activeAt_iff.mp hq
  exact hfar q (Option.isSome_of_eq_some hp)

/-- The first active seat from the small blind on and the last one before it. -/
lemma first_last_active {sb : Fin n} (hc : (sb :: forward sb).find? s.activeAt = some c)
    (he : (backward sb).find? s.activeAt = some e) :
    s.activeAt c = true ∧ s.activeAt e = true ∧
      ∀ q, s.activeAt q = true → dist c q ≤ dist c e := by
  have hfirst : ∀ q, s.activeAt q = true → dist sb c ≤ dist sb q := by
    intro q hq
    cases hsb : s.activeAt sb with
    | true =>
      rw [List.find?_cons_of_pos hsb] at hc
      obtain rfl := Option.some.inj hc
      simp
    | false =>
      rw [List.find?_cons_of_neg (by simp [hsb])] at hc
      obtain ⟨hact, hmin⟩ := find?_pairwise (pairwise_add (sb + 1)) hc
      have hle := hmin q (mem_add _ _) hq
      have hcsb : sb ≠ c := by
        rintro rfl
        simp [hsb] at hact
      have hqsb : sb ≠ q := by
        rintro rfl
        simp [hsb] at hq
      have hdq : dist sb q ≠ 0 := fun h0 => hqsb (dist_eq_zero.mp h0)
      rw [dist_add_one, dist_add_one, if_neg hcsb, if_neg hqsb] at hle
      omega
  obtain ⟨hacte, hmax⟩ := find?_pairwise (pairwise_sub (sb - 1)) he
  refine ⟨List.find?_some hc, hacte, fun q hq => ?_⟩
  have hle := hmax q (mem_sub _ _) hq
  rw [dist_sub_one, dist_sub_one] at hle
  have h₁ := dist_lt sb q
  have h₂ := dist_lt sb e
  rw [dist_sub (hfirst q hq), dist_sub (hfirst e hacte)]
  omega

lemma showCards_round {bet skip : Step} {interval : ℕ} (hskip : betStep skip = false)
    (hb : s.Blinds) (htime : s.operationTimeoutTime = none)
    (hops : ∀ q p, s.players q = some p → p.operations = [])
    (h : s.showCards now bet skip interval = some s') : Round ⟨s', ∅⟩ := by
  rw [showCards] at h
  split_ifs at h with hfew hcount
  · cases h
    refine .of_not_live (not_live (fun st t hst => ?_) htime hops)
      (hb.congr (fun _ => rfl) rfl rfl rfl)
    obtain ⟨rfl, -⟩ : skip = st ∧ _ = t := by simpa [logicStartStep] using hst
    exact hskip
  · cases h
    refine Round.begin (hb.congr (fun _ => rfl) rfl rfl rfl) htime hops rfl rfl (hb.big hcount)
      (hb.small hcount) fun q hq => ?_
    obtain ⟨p, hp, -⟩ := activeAt_iff.mp hq
    rcases hb.playing hcount q (Option.isSome_of_eq_some hp) with rfl | rfl
    · exact le_rfl
    · simp
  · obtain ⟨pos, hpos, h⟩ := Option.bind_eq_some_iff.mp h
    obtain ⟨endPos, hend, h⟩ := Option.bind_eq_some_iff.mp h
    cases h
    obtain ⟨hc, he, hfar⟩ := first_last_active hpos hend
    obtain ⟨p, hp, -⟩ := activeAt_iff.mp hc
    obtain ⟨p', hp', -⟩ := activeAt_iff.mp he
    exact Round.begin (hb.congr (fun _ => rfl) rfl rfl rfl) htime hops rfl rfl
      (Option.isSome_of_eq_some hp) (Option.isSome_of_eq_some hp') hfar

/-- Asking the operator keeps the round open. -/
lemma onStepBet_round (now : ℕ) (hb : s.Blinds) (hbet : betStep s.logicStep = true)
    (hnext : s.next = none) (hops : ∀ q p, s.players q = some p → p.operations = [])
    (hopen : Open ⟨s, acted⟩ c e) : Round ⟨(s.onStepBet now).1, acted⟩ := by
  have hcur : s.currentOperatorPos = some c := hopen.current
  obtain ⟨p, hp⟩ := Option.isSome_iff_exists.mp hopen.current_playing
  have hp : s.players c = some p := hp
  set ops := s.getPlayerOperations c p with hopseq
  set s' := (s.onStepBet now).1 with hs'
  have hstate : s' = (s.set c { p with operations := ops }).logicStartTimeout now := by
    simp only [hs', onStepBet, hcur, hp, hopseq]
  have hplayers : s'.players = (s.set c { p with operations := ops }).players := by
    rw [hstate]
    rfl
  have hmax : s'.getPlayerMaxBet = s.getPlayerMaxBet := by
    rw [getPlayerMaxBet_congr hplayers, getPlayerMaxBet_set_operations hp]
  have hplay : ∀ q, (s'.players q).isSome = (s.players q).isSome := by
    rw [hplayers]
    exact isSome_set hp _
  have hold : ∀ q p', s'.players q = some p' → ∃ p₀, s.players q = some p₀ ∧
      p'.active = p₀.active ∧ p'.getTotalBet = p₀.getTotalBet ∧ (q ≠ c → p' = p₀) := by
    intro q p' hp'
    rw [hplayers] at hp'
    by_cases hq : q = c
    · subst hq
      simp only [set, Function.update_self] at hp'
      obtain rfl := Option.some.inj hp'
      exact ⟨p, hp, rfl, rfl, fun h => absurd rfl h⟩
    · simp only [set, Function.update_of_ne hq] at hp'
      exact ⟨p', hp', rfl, rfl, fun _ => rfl⟩
  refine ⟨fun q p' hp' hne => ?_, ?_, fun _ => ⟨c, e, ?_, ?_, ?_, ?_, fun q hq => ?_, ?_⟩, ?_⟩
  · obtain ⟨p₀, hp₀, -, -, heq⟩ := hold q p' hp'
    by_cases hq : q = c
    · subst hq
      rw [hstate]
      exact ⟨hcur, hbet⟩
    · rw [heq hq] at hne
      exact absurd (hops q p₀ hp₀) hne
  · intro st t h
    rw [hstate] at h
    simp [logicStartTimeout, set, hnext] at h
  · rw [hstate]
    exact hcur
  · rw [hstate]
    exact hopen.last
  · exact hplay c ▸ hopen.current_playing
  · exact hplay e ▸ hopen.last_playing
  · obtain ⟨p', hp', hact⟩ := activeAt_iff.mp hq
    obtain ⟨p₀, hp₀, hact₀, -⟩ := hold q p' hp'
    exact hopen.acted_iff q (activeAt_iff.mpr ⟨p₀, hp₀, hact₀ ▸ hact⟩)
  · intro q p' hp' hact hmem
    obtain ⟨p₀, hp₀, hact₀, hbet₀, -⟩ := hold q p' hp'
    rw [hbet₀, hmax]
    exact hopen.equal q p₀ hp₀ (hact₀ ▸ hact) hmem
  · refine hb.congr hplay ?_ ?_ ?_
    all_goals
      rw [hstate]
      rfl

lemma postBlind_frame {bet : ℤ} (h : s.postBlind pos bet = some s') :
    ∃ p, s.players pos = some p ∧ s' = s.set pos (p.pay bet) := by
  rw [postBlind] at h
  split at h
  · cases h
  · next p hp =>
    split_ifs at h
    cases h
    exact ⟨p, hp, rfl⟩

/-- A bet records no operations. -/
lemma operations_pay (hp : s.players pos = some p) (amount : ℤ)
    (hops : ∀ q p, s.players q = some p → p.operations = []) :
    ∀ q p', (s.set pos (p.pay amount)).players q = some p' → p'.operations = [] := by
  intro q p' hp'
  by_cases hq : q = pos
  · subst hq
    simp only [set, Function.update_self] at hp'
    obtain rfl := Option.some.inj hp'
    exact hops q p hp
  · simp only [set, Function.update_of_ne hq] at hp'
    exact hops q p' hp'

lemma onStepFirstBet_round (hb : s.Blinds) (hnext : s.next = none)
    (htime : s.operationTimeoutTime = none)
    (hops : ∀ q p, s.players q = some p → p.operations = []) :
    Round ⟨s.onStepFirstBet now, acted⟩ := by
  rw [onStepFirstBet]
  split
  · exact .of_not_live (not_live (by simp [hnext]) htime hops) hb
  · next s₁ h₁ =>
    obtain ⟨p₁, hp₁, rfl⟩ := postBlind_frame h₁
    have hb₁ := hb.congr (isSome_set hp₁ (p₁.pay s.sbBet)) rfl rfl rfl
    have hops₁ := operations_pay hp₁ s.sbBet hops
    split
    · refine .of_not_live (not_live ?_ htime hops₁) hb₁
      simp [set, hnext]
    · next s₂ h₂ =>
      obtain ⟨p₂, hp₂, rfl⟩ := postBlind_frame h₂
      have hb₂ := hb₁.congr (isSome_set hp₂ (p₂.pay s.bbBet)) rfl rfl rfl
      have hops₂ := operations_pay hp₂ s.bbBet hops₁
      refine .of_not_live (not_live (fun st t hst => ?_) htime hops₂)
        (hb₂.congr (fun _ => rfl) rfl rfl rfl)
      obtain ⟨rfl, -⟩ : Step.send2Cards = st ∧ _ = t := by simpa [logicStartStep] using hst
      rfl

/-- Every step that begins keeps the invariant. -/
lemma onStepSwitch_round (hnext : s.next = none) (htime : s.operationTimeoutTime = none)
    (hops : ∀ q p, s.players q = some p → p.operations = []) (hb : s.Blinds)
    (hopen : betStep s.logicStep = true → ∃ c e, Open ⟨s, acted⟩ c e)
    (h : s.onStepSwitch now = some (s', r)) :
    s'.logicStep = .stepEnd ∨ Round ⟨s', if dealStep s.logicStep then ∅ else acted⟩ := by
  rw [onStepSwitch] at h
  split at h
  case h_1 hstep =>
    cases h
    exact .inr (.of_not_live (not_live (by simp [hnext]) htime hops) hb)
  case h_2 hstep =>
    cases h
    exact .inr (onStepFirstBet_round hb hnext htime hops)
  case h_3 hstep =>
    obtain ⟨s₁, h₁, hr⟩ := Option.map_eq_some_iff.mp h
    cases hr
    rw [hstep]
    exact .inr (onStepSend2Cards_round hb htime hops h₁)
  case h_11 hstep =>
    cases h
    exact .inl hstep
  case h_7 hstep | h_8 hstep | h_9 hstep | h_10 hstep =>
    have hbet : betStep s.logicStep = true := by rw [hstep]; rfl
    obtain ⟨c, e, hopen⟩ := hopen hbet
    have hround := onStepBet_round now hb hbet hnext hops hopen
    rw [Option.some.inj h] at hround
    rw [hstep]
    exact .inr hround
  case h_4 hstep | h_5 hstep | h_6 hstep =>
    obtain ⟨s₁, h₁, hr⟩ := Option.map_eq_some_iff.mp h
    cases hr
    rw [hstep]
    exact .inr (showCards_round (by rfl) hb htime hops h₁)

/-! ### Runs -/

lemma gameStart_blinds {c : Setup n} (h : gameStart c now = some s) : s.Blinds := by
  obtain ⟨button, sb, bb, hbutton, hsb, hbb, rfl⟩ := gameStart_eq_some h
  set t := c.table with ht
  have hbig := getNextPlayer_spec hbb
  suffices htwo : t.getPlayingCount = 2 → sb = button ∧
      ∀ q, (t.players q).isSome → q = sb ∨ q = bb by
    have hsmall : t.getPlayingCount = 2 → (t.players sb).isSome := by
      intro hcount
      rw [(htwo hcount).1]
      exact (getNextPlayer_spec hbutton).1
    exact ⟨fun hcount => (htwo hcount).2, hsmall, fun _ => hbig.1, fun hcount =>
      (htwo hcount).1.symm⟩
  intro hcount
  rw [Setup.smallBlind, if_pos hcount] at hsb
  obtain rfl := Option.some.inj hsb
  refine ⟨rfl, ?_⟩
  -- the two seats are different, and two play
  set playing := Finset.univ.filter fun q => (t.players q).isSome with hplaying
  have hcard : playing.card = 2 := by
    rw [← hcount, getPlayingCount, GameLogic.playing, List.length_filterMap_eq_countP]
    rw [hplaying, Fin.univ_def]
    simp [Finset.filter, List.countP_eq_length_filter]
  have hmem : button ∈ playing := by
    simpa [hplaying] using (getNextPlayer_spec hbutton).1
  have hmem' : bb ∈ playing := by simpa [hplaying] using hbig.1
  have hne : button ≠ bb := by
    rintro rfl
    have hall : playing ⊆ {button} := by
      intro q hq
      have hle := hbig.2 q (by simpa [hplaying] using hq)
      rw [dist_add_one, if_pos rfl, dist_add_one] at hle
      have hlt := dist_lt button q
      split_ifs at hle with hq'
      · simp [hq']
      · have : dist button q ≠ 0 := fun h0 => hq' (dist_eq_zero.mp h0)
        omega
    have := Finset.card_le_card hall
    simp only [Finset.card_singleton] at this
    omega
  have hpair : {button, bb} = playing := by
    apply Finset.eq_of_subset_of_card_le
    · simp [Finset.insert_subset_iff, hmem, hmem']
    · rw [hcard, Finset.card_pair hne]
  intro q hq
  have hq' : q ∈ playing := by simpa [hplaying] using hq
  simpa [← hpair] using hq'

/-- An event that asks for an operation carries it out. -/
lemma step_of_asks {ev : Event n} {data : ℤ} (h : s.asks ev = some (pos, op, data)) :
    ∃ now, s.step ev = s.onPlayerOperation now pos (some op) data := by
  unfold asks at h
  split_ifs at h with hstep
  cases ev with
  | message now pos' code data' =>
    obtain ⟨o, ho, heq⟩ := Option.map_eq_some_iff.mp h
    cases heq
    refine ⟨now, ?_⟩
    unfold step
    simp only [if_neg hstep, ho]
  | stepTimer now => cases h
  | timeoutTimer now =>
    obtain ⟨time, htime, h⟩ := Option.bind_eq_some_iff.mp h
    obtain ⟨pos', hpos, h⟩ := Option.bind_eq_some_iff.mp h
    obtain ⟨p, hp, h⟩ := Option.bind_eq_some_iff.mp h
    split_ifs at h with hdue
    cases h
    refine ⟨now, ?_⟩
    unfold step
    simp only [if_neg hstep, timeoutTimer, htime, if_pos hdue.1]
    exact onOperationTimeout_eq hdue.2 hpos hp

/-- An operation that is not accepted changes nothing. -/
lemma eq_of_not_accepts {o : Option Operation} {data : ℤ} (hacc : s.accepts pos o data = false)
    (h : s.onPlayerOperation now pos o data = some (s', r)) : s' = s := by
  obtain ⟨rfl, -⟩ | ⟨p, hpos, hp, h⟩ := onPlayerOperation_cases h
  · rfl
  have href : s.refuses p o data = true := by simpa [accepts, hpos, hp] using hacc
  obtain ⟨-, rfl, -⟩ | ⟨href', -⟩ | ⟨rfl, -⟩ := h
  · rfl
  · simp [href] at href'
  · cases href

/-- Where a proper operation is accepted, the operator of a betting round was asked. -/
lemma Round.accepted {ev : Event n} {data : ℤ} (hx : x.Round) (hok : x.state.Proper ev)
    (hasks : x.state.asks ev = some (pos, op, data))
    (hacc : x.state.accepts pos (some op) data = true) :
    Live x.state ∧ betStep x.state.logicStep = true ∧ (op = .raise → 0 < data) := by
  unfold asks at hasks
  split_ifs at hasks with hstep
  cases ev with
  | message now pos' code data' =>
    obtain ⟨o, ho, heq⟩ := Option.map_eq_some_iff.mp hasks
    cases heq
    obtain ⟨p, hp, o', hmem, ho', hraise⟩ := hok (by rw [ho]; exact hacc)
    obtain rfl : op = o' := Option.some.inj (ho.symm.trans ho')
    have hne : p.operations ≠ [] := List.ne_nil_of_mem hmem
    exact ⟨.inr (.inl ⟨pos, p, hp, hne⟩), (hx.asked pos p hp hne).2, hraise⟩
  | stepTimer now => cases hasks
  | timeoutTimer now =>
    obtain ⟨time, htime, h⟩ := Option.bind_eq_some_iff.mp hasks
    obtain ⟨pos', hpos, h⟩ := Option.bind_eq_some_iff.mp h
    obtain ⟨p, hp, h⟩ := Option.bind_eq_some_iff.mp h
    split_ifs at h with hdue
    cases h
    refine ⟨.inr (.inr (by simp [htime])), hdue.2, fun hop => ?_⟩
    rw [timeoutOperation] at hop
    split_ifs at hop

/-- A proper operation that is accepted: the state after it. -/
lemma Round.watch_accepted {ev : Event n} {data : ℤ} (hx : x.Round) (hok : x.state.Proper ev)
    (hasks : x.state.asks ev = some (pos, op, data))
    (hacc : x.state.accepts pos (some op) data = true) :
    ∃ x', watch x ev = some x' ∧ x'.Round ∧ x.Outcome x' op := by
  obtain ⟨hlive, hbet, hdata⟩ := hx.accepted hok hasks hacc
  obtain ⟨now, hstep⟩ := step_of_asks hasks
  simp only [accepts, Bool.and_eq_true, decide_eq_true_eq, Option.any_eq_true] at hacc
  obtain ⟨hpos, p, hp, href⟩ := hacc
  have href : x.state.refuses p (some op) data = false := by simpa using href
  obtain ⟨s', hop, hround, hout⟩ := hx.operate now hlive hbet hpos hp href hdata
  refine ⟨⟨s', act x.acted x.state pos op⟩, ?_, hround, hout⟩
  have hacc : x.state.accepts pos (some op) data = true := by simp [accepts, hpos, hp, href]
  simp [watch, hstep, hop, actedAfter, hasks, hacc]

/-- A scheduled step that is due keeps the invariant. -/
lemma Round.stepTimer (hx : x.Round) (hend : x.state.logicStep ≠ .stepEnd)
    (h : x.state.stepTimer now = some (s', r)) :
    s'.logicStep = .stepEnd ∨
      Round ⟨s', if x.state.deals (.stepTimer now) then ∅ else x.acted⟩ := by
  rw [GameLogic.stepTimer] at h
  cases hnext : x.state.next with
  | none =>
    simp only [hnext] at h
    cases h
    simp only [deals, hnext, Option.any_none, Bool.and_false]
    exact .inr hx
  | some y =>
    obtain ⟨st, t⟩ := y
    simp only [hnext] at h
    split_ifs at h with hdue
    · by_cases hst : st = .stepEnd
      · subst hst
        cases h
        exact .inl rfl
      obtain ⟨htime, hops⟩ := hx.quiet st t hnext hst
      have hdeals : x.state.deals (.stepTimer now) = dealStep st := by
        simp [deals, hend, hnext, hdue]
      rw [hdeals]
      refine onStepSwitch_round (s := { x.state with next := none, logicStep := st }) rfl htime
        hops (hx.blinds.congr (fun _ => rfl) rfl rfl rfl) (fun hbet => ?_) h
      obtain ⟨c, e, hopen⟩ := hx.opened (.inl ⟨st, t, hnext, hbet⟩)
      exact ⟨c, e, hopen.current, hopen.last, hopen.current_playing, hopen.last_playing,
        hopen.acted_iff, hopen.equal⟩
    · cases h
      simp only [deals, hnext, Option.any_some, hdue, decide_false, Bool.false_and,
        Bool.and_false]
      exact .inr hx

/-- One proper event keeps the invariant. -/
lemma Round.watch {x' : Betting n} {ev : Event n} (hx : x.state.logicStep = .stepEnd ∨ x.Round)
    (hok : x.state.Proper ev) (h : watch x ev = some x') :
    x'.state.logicStep = .stepEnd ∨ x'.Round := by
  by_cases hend : x.state.logicStep = .stepEnd
  · obtain ⟨y, hy, rfl⟩ := Option.map_eq_some_iff.mp h
    unfold step at hy
    rw [if_pos hend] at hy
    cases hy
    exact .inl hend
  have hx := hx.resolve_left hend
  cases hasks : x.state.asks ev with
  | some y =>
    obtain ⟨pos, op, data⟩ := y
    cases hacc : x.state.accepts pos (some op) data with
    | true =>
      obtain ⟨x₁, h₁, hround, -⟩ := hx.watch_accepted hok hasks hacc
      obtain rfl := Option.some.inj (h₁.symm.trans h)
      exact .inr hround
    | false =>
      obtain ⟨⟨s', r⟩, hy, rfl⟩ := Option.map_eq_some_iff.mp h
      obtain ⟨now, hstep⟩ := step_of_asks hasks
      rw [hstep] at hy
      obtain rfl := eq_of_not_accepts hacc hy
      simp only [actedAfter, hasks, hacc]
      exact .inr hx
  | none =>
    obtain ⟨⟨s', r⟩, hy, rfl⟩ := Option.map_eq_some_iff.mp h
    simp only [actedAfter, hasks]
    unfold step at hy
    rw [if_neg hend] at hy
    cases ev with
    | message now pos code data =>
      have hnone : Operation.ofCode code = none := by simpa [asks, hend] using hasks
      simp only [hnone] at hy
      obtain rfl := eq_of_not_accepts (by simp [accepts, refuses]) hy
      exact .inr hx
    | stepTimer now => exact hx.stepTimer hend hy
    | timeoutTimer now =>
      obtain ⟨rfl, -⟩ | ⟨pos, p, -, -, -, hasks', -⟩ := timeoutTimer_cases hend hy
      · exact .inr hx
      · simp [hasks] at hasks'

lemma gameStart_round {c : Setup n} (h : gameStart c now = some s) : Round ⟨s, ∅⟩ := by
  refine .of_not_live (not_live ?_ ?_ ?_) (gameStart_blinds h)
  all_goals
    obtain ⟨button, sb, bb, -, -, -, rfl⟩ := gameStart_eq_some h
  · intro st t hst
    obtain ⟨rfl, -⟩ : Step.firstBet = st ∧ _ = t := by simpa [logicStartStep] using hst
    rfl
  · rfl
  · intro q p hp
    simp only [logicStartStep, Setup.table, Option.map_eq_some_iff] at hp
    obtain ⟨chips, -, rfl⟩ := hp
    rfl

end Betting

/-- In every run whose accepted operations were offered and whose raises are positive, an accepted
operation, of a player or of the timeout, has one of three results: it is a fold that leaves one
player in the hand, and the settlement is scheduled; or every player who has not folded and has
chips left has bet as much as the largest bet and has acted since the last raise of the round, and
the step after the round is scheduled; or such a player who has not acted is the next operator.

**Proof sketch.** Seen from the operator, the active players who have acted since the last raise
are those beyond the end of the round. The search for the next operator stops at the first active
seat or at the end of the round, and nobody active lies in between. A raise moves the end of the
round to the playing seat farthest from the raiser. Calls and checks leave an active player with
the largest bet, and a fold does not lower it while one of those who have acted holds it. -/
theorem settled_of_closes {c : Setup n} {s₀ : GameLogic n} (h₀ : gameStart c now = some s₀)
    {x : Betting n} (h : Runs.Reaches watch (fun x e => x.state.Proper e) ⟨s₀, ∅⟩ x)
    {e : Event n} (hok : x.state.Proper e) {op : Operation} {data : ℤ}
    (hasks : x.state.asks e = some (pos, op, data))
    (hacc : x.state.accepts pos (some op) data = true) :
    ∃ x', watch x e = some x' ∧
      ((op = .fold ∧ x'.state.getFoldCount + 1 = x'.state.getPlayingCount ∧
          ∃ t, x'.state.next = some (.stepEnd, t)) ∨
        (x'.Settled ∧ ∃ st t, stepAfter x.state.logicStep = some st ∧
          x'.state.next = some (st, t)) ∨
        ∃ q t, x'.state.currentOperatorPos = some q ∧ x'.state.activeAt q = true ∧
          q ∉ x'.acted ∧ x'.state.next = some (x.state.logicStep, t)) := by
  have hx : x.state.logicStep = .stepEnd ∨ x.Round :=
    h.invariant (I := fun x => x.state.logicStep = .stepEnd ∨ x.Round)
      (.inr (Betting.gameStart_round h₀)) fun x e x' hx hok hs => Betting.Round.watch hx hok hs
  rcases hx with hend | hx
  · simp [asks, hend] at hasks
  · obtain ⟨x', hw, -, hout⟩ := hx.watch_accepted hok hasks hacc
    exact ⟨x', hw, hout⟩

/-- The small blind calls and the big blind checks, and the round is closed. -/
theorem headsUp_check_closes : ∃ (s₀ : GameLogic 2) (x x' : Betting 2),
    gameStart headsUp 0 = some s₀ ∧
    Runs.Reaches watch (fun x e => x.state.Proper e) ⟨s₀, ∅⟩ x ∧
    x.state.asks (.message 220 1 4 0) = some (1, .check, 0) ∧
    watch x (.message 220 1 4 0) = some x' ∧ x'.state.next = some (.show3Cards, 270) ∧
    x'.Settled := by
  have hrun : ((gameStart headsUp 0).bind fun s₀ =>
      (Runs.exec watch (fun x e => x.state.Proper e) ⟨s₀, ∅⟩
        (headsUpOpening ++ [.message 160 0 2 0, .stepTimer 211])).bind fun x =>
          (watch x (.message 220 1 4 0)).map fun x' =>
            (decide (x.state.Proper (.message 220 1 4 0)), x.state.asks (.message 220 1 4 0),
              x.state.accepts 1 (some .check) 0, x.state.logicStep, x'.state.next)) =
      some (true, some (1, .check, 0), true, .send2CardsBet, some (.show3Cards, 270)) := by
    rfl
  obtain ⟨s₀, h₀, hrun⟩ := Option.bind_eq_some_iff.mp hrun
  obtain ⟨x, hx, hrun⟩ := Option.bind_eq_some_iff.mp hrun
  obtain ⟨x', hw, hrun⟩ := Option.map_eq_some_iff.mp hrun
  simp only [Prod.mk.injEq, decide_eq_true_eq] at hrun
  obtain ⟨hok, hasks, hacc, hlogic, hnext⟩ := hrun
  have hreach := Runs.reaches_of_exec _ .init hx
  obtain ⟨x₁, hw₁, h₁⟩ := settled_of_closes h₀ hreach hok hasks hacc
  obtain rfl := Option.some.inj (hw.symm.trans hw₁)
  refine ⟨s₀, x, x', h₀, hreach, hasks, hw, hnext, ?_⟩
  rcases h₁ with ⟨hfold, -⟩ | ⟨hsettled, -⟩ | ⟨q, t, -, -, -, hnext'⟩
  · cases hfold
  · exact hsettled
  · simp [hnext, hlogic] at hnext'

/-- The small blind folds: the big blind has not acted, and no operator is named who is still in
the hand. -/
theorem headsUp_fold_unsettled : ¬ ∀ (s₀ : GameLogic 2) (x x' : Betting 2) (e : Event 2)
    (pos : Fin 2) (op : Operation) (data : ℤ), gameStart headsUp 0 = some s₀ →
    Runs.Reaches watch (fun x e => x.state.Proper e) ⟨s₀, ∅⟩ x → x.state.Proper e →
    x.state.asks e = some (pos, op, data) → x.state.accepts pos (some op) data = true →
    watch x e = some x' → ¬ x'.Settled →
    ∃ q, x'.state.currentOperatorPos = some q ∧ x'.state.activeAt q = true := by
  intro h
  have hrun : ((gameStart headsUp 0).bind fun s₀ =>
      (Runs.exec watch (fun x e => x.state.Proper e) ⟨s₀, ∅⟩ headsUpOpening).bind fun x =>
        (watch x (.message 160 0 3 0)).map fun x' =>
          (decide (x.state.Proper (.message 160 0 3 0)), x.state.asks (.message 160 0 3 0),
            x.state.accepts 0 (some .fold) 0, decide x'.Settled, x'.state.currentOperatorPos,
            x'.state.activeAt 0)) =
      some (true, some (0, .fold, 0), true, false, some 0, false) := by rfl
  obtain ⟨s₀, h₀, hrun⟩ := Option.bind_eq_some_iff.mp hrun
  obtain ⟨x, hx, hrun⟩ := Option.bind_eq_some_iff.mp hrun
  obtain ⟨x', hw, hrun⟩ := Option.map_eq_some_iff.mp hrun
  simp only [Prod.mk.injEq, decide_eq_true_eq, decide_eq_false_iff_not] at hrun
  obtain ⟨hok, hasks, hacc, hsettled, hcur, hidle⟩ := hrun
  obtain ⟨q, hq, hact⟩ := h s₀ x x' _ 0 .fold 0 h₀ (Runs.reaches_of_exec _ .init hx) hok hasks
    hacc hw hsettled
  obtain rfl : 0 = q := Option.some.inj (hcur.symm.trans hq)
  simp [hidle] at hact

end Texas.GameLogic
