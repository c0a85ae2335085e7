import JsmjServer.Ddz3.History
import Mathlib.Algebra.BigOperators.Fin

set_option relaxedAutoImplicit false
set_option autoImplicit false

/-!
# The cards of the landlord game

From the moment the cards are sent to the end of a deal, every card of the deck is in a hand, in
the play list or in the pool, as long as the deal is not thrown in: a deal in which nobody calls
points is dealt again onto the old hands.

## Main definitions

* `Ddz3.Conserved` — the hands have their sizes, and the cards are those of the deck.
* `Ddz3.Redeals` — an operation that throws the deal in.

## Main results

* `Ddz3.conserved_of_reaches` — every run in which no deal is thrown in conserves the cards.
* `Ddz3.redeal_doubles_hands` — a run in which one is.
-/

namespace Ddz3

/-- The cards have been sent and the deal is not over. -/
def Dealt (r : Room) : Prop := r.logicStep ≠ .idle ∧ r.logicStep ≠ .stepEnd

/-- The landlord has the base cards. -/
def BaseSent (r : Room) : Prop :=
  r.logicStep = .sendBaseCards ∨ r.logicStep = .doubleScore ∨ r.logicStep = .outCard

instance (r : Room) : Decidable (BaseSent r) := by
  unfold BaseSent
  infer_instance

/-- How many cards a seat has played. -/
def played (r : Room) (seat : Seat) : ℕ :=
  ((r.outCards.filter fun out => out.pos = some seat).map fun out => out.cards.length).sum

/-- How many cards a seat was given. -/
def given (r : Room) (seat : Seat) : ℕ := if BaseSent r ∧ seat = r.landLordPos then 20 else 17

/-- The cards in the hands, in the play list and in the pool. -/
def allCards (r : Room) : Multiset ℤ :=
  (∑ seat, (r.hands seat : Multiset ℤ)) +
    (r.outCards.map fun out => (out.cards : Multiset ℤ)).sum + (r.cardPool : Multiset ℤ)

/-- Every hand is what the seat was given less what it has played, and all cards together are the
deck, no card twice. -/
structure Conserved (r : Room) : Prop where
  hand : ∀ seat, (r.hands seat).length + played r seat = given r seat
  deck : allCards r = (initPoker : Multiset ℤ)
  nodup : (allCards r).Nodup

/-- A pass that throws the deal in: the last seat of the lap passes and nobody has called. -/
def Redeals (r : Room) (a : Attempt) : Prop :=
  r.logicStep = .callPoints ∧ a.pos = r.callPointsPos ∧ a.op = .callPointsPass ∧
    r.callPoints = 0 ∧ getNextPosition a.pos = r.firstCallPointsPos

/-! ### Moving cards -/

lemma initPoker_nodup : initPoker.Nodup := by decide

lemma popCards_eq (n : ℕ) (pool : List ℤ) (h : n ≤ pool.length) :
    popCards n pool = (pool.take n, pool.drop n) := by
  induction n generalizing pool with
  | zero => simp [popCards]
  | succ n ih =>
    cases pool with
    | nil => simp at h
    | cons card rest =>
      simp only [List.length_cons, Nat.add_le_add_iff_right] at h
      simp [popCards, popCard, ih rest h]

lemma sortPlayerHandCards_perm (cards : List ℤ) : (sortPlayerHandCards cards).Perm cards :=
  List.perm_insertionSort _ _

/-- The cards of a play leave the hand. -/
lemma removeCards_perm {hand cards : List ℤ} (h : hasCards hand cards = true) :
    (cards ++ removeCards hand cards).Perm hand := by
  induction cards generalizing hand with
  | nil => simp [removeCards]
  | cons card rest ih =>
    simp only [hasCards] at h
    split_ifs at h with hmem
    simp only [removeCards, List.cons_append]
    exact ((ih h).cons card).trans (List.perm_cons_erase hmem).symm

/-! ### The invariant -/

/-- The order of the steps of a deal that is not thrown in. -/
def precedes (now next : LogicStep) : Bool :=
  follows now next && !(now == .callPoints && next == .sendCards)

/-- What holds of the cards in every state. -/
structure CardInv (r : Room) : Prop where
  next : ∀ p, r.next = some p → precedes r.logicStep p.1 = true
  undealt : ¬ Dealt r → (∀ seat, r.hands seat = []) ∧ r.outCards = [] ∧
    (r.next ≠ none → r.cardPool.Perm initPoker)
  dealt : Dealt r → Conserved r
  early : Dealt r → ¬ BaseSent r → r.outCards = [] ∧ r.cardPool.length = 3
  waiting : r.isPlaying = false → ¬ Dealt r ∧ r.next = none

/-- The cards depend on the hands up to their order, on the play list and on the pool. -/
lemma Conserved.frame {r r' : Room} (h : Conserved r) (hbase : BaseSent r' ↔ BaseSent r)
    (hhands : ∀ seat, (r'.hands seat).Perm (r.hands seat)) (hout : r'.outCards = r.outCards)
    (hpool : r'.cardPool = r.cardPool) (hland : BaseSent r → r'.landLordPos = r.landLordPos) :
    Conserved r' := by
  have hall : allCards r' = allCards r := by
    have : ∀ seat, (r'.hands seat : Multiset ℤ) = r.hands seat := fun seat =>
      Multiset.coe_eq_coe.mpr (hhands seat)
    simp only [allCards, this, hout, hpool]
  refine ⟨fun seat => ?_, hall.trans h.deck, hall ▸ h.nodup⟩
  have hgiven : given r' seat = given r seat := by
    by_cases hb : BaseSent r
    · simp [given, hbase.mpr hb, hb, hland hb]
    · simp [given, mt hbase.mp hb, hb]
  have hplayed : played r' seat = played r seat := by simp only [played, hout]
  rw [(hhands seat).length_eq, hplayed, hgiven]
  exact h.hand seat

/-- An event that moves no card keeps the invariant when it schedules a step in order. -/
lemma CardInv.frame {r r' : Room} (h : CardInv r) (hdealt : Dealt r' ↔ Dealt r)
    (hbase : BaseSent r' ↔ BaseSent r) (hhands : ∀ seat, (r'.hands seat).Perm (r.hands seat))
    (hout : r'.outCards = r.outCards) (hpool : r'.cardPool = r.cardPool)
    (hland : BaseSent r → r'.landLordPos = r.landLordPos)
    (hplaying : r'.isPlaying = r.isPlaying)
    (hnext : ∀ p, r'.next = some p → precedes r'.logicStep p.1 = true)
    (hwait : ¬ Dealt r → r'.next = r.next) : CardInv r' where
  next := hnext
  undealt := by
    intro hd
    have hd' := mt hdealt.mpr hd
    obtain ⟨hempty, hcards, hperm⟩ := h.undealt hd'
    refine ⟨fun seat => ?_, hout.trans hcards, ?_⟩
    · have := hhands seat
      rw [hempty seat] at this
      exact this.eq_nil
    · rw [hwait hd', hpool]
      exact hperm
  dealt := fun hd => (h.dealt (hdealt.mp hd)).frame hbase hhands hout hpool hland
  early := by
    intro hd hb
    rw [hout, hpool]
    exact h.early (hdealt.mp hd) (mt hbase.mpr hb)
  waiting := by
    intro hw
    obtain ⟨hd, hn⟩ := h.waiting (hplaying.symm.trans hw)
    exact ⟨mt hdealt.mp hd, (hwait hd).trans hn⟩

/-! ### Sending the cards -/

lemma sendCardsTo_hands (r : Room) (pos : Seat) (h : 17 ≤ r.cardPool.length)
    (hempty : r.hands pos = []) :
    sendCardsTo r pos = { r with
      cardPool := r.cardPool.drop 17
      hands := Function.update r.hands pos (sortPlayerHandCards (r.cardPool.take 17)) } := by
  simp [sendCardsTo, popCards_eq 17 _ h, hempty]

/-- Sending a shuffled deck to empty hands conserves the cards. -/
lemma conserved_onStepSendCards {r : Room} (k : Tick) (hlogic : r.logicStep = .sendCards)
    (hempty : ∀ seat, r.hands seat = []) (hout : r.outCards = [])
    (hperm : r.cardPool.Perm initPoker) :
    Conserved (onStepSendCards r k) ∧ (onStepSendCards r k).outCards = [] ∧
      (onStepSendCards r k).cardPool.length = 3 := by
  have hlen : r.cardPool.length = 54 := by
    rw [hperm.length_eq]
    decide
  set p := r.cardPool with hp
  have hsend : onStepSendCards r k = startStepCallPoints
      { incOperationSeq r with
        cardPool := ((p.drop 17).drop 17).drop 17
        hands := fun seat => sortPlayerHandCards (((p.drop (17 * seat.val))).take 17) } k := by
    rw [onStepSendCards, sendCardsTo_hands (incOperationSeq r) 0
        (by show 17 ≤ p.length; omega) (hempty 0),
      sendCardsTo_hands _ 1 (by simp [incOperationSeq, ← hp]; omega)
        (by simpa [incOperationSeq] using hempty 1),
      sendCardsTo_hands _ 2 (by simp [incOperationSeq, ← hp]; omega)
        (by simpa [incOperationSeq] using hempty 2)]
    congr 2
    funext seat
    fin_cases seat <;> simp [Function.update, incOperationSeq, ← hp]
  have hbase : ¬ BaseSent (onStepSendCards r k) := by
    rw [hsend]
    simp [BaseSent, startStepCallPoints, logicStartStep, incOperationSeq, hlogic]
  have hcards : allCards (onStepSendCards r k) = (initPoker : Multiset ℤ) := by
    rw [← Multiset.coe_eq_coe.mpr hperm, hsend]
    have hsort : ∀ l, (sortPlayerHandCards l : Multiset ℤ) = l := fun l =>
      Multiset.coe_eq_coe.mpr (sortPlayerHandCards_perm l)
    have hsplit : p.take 17 ++ (p.drop 17).take 17 ++ ((p.drop 17).drop 17).take 17 ++
        ((p.drop 17).drop 17).drop 17 = p := by
      rw [List.append_assoc, List.take_append_drop, List.append_assoc, List.take_append_drop,
        List.take_append_drop]
    have hdrop : p.drop (17 * (2 : Seat).val) = (p.drop 17).drop 17 := by
      rw [List.drop_drop]
      rfl
    simp only [allCards, startStepCallPoints, logicStartStep, incOperationSeq, hsort, hout,
      Fin.sum_univ_three, List.map_nil, List.sum_nil, Multiset.coe_add, add_zero, hdrop]
    exact congrArg _ hsplit
  refine ⟨⟨fun seat => ?_, hcards, ?_⟩, ?_, ?_⟩
  · have hplayed : played (onStepSendCards r k) seat = 0 := by
      rw [hsend]
      simp [played, startStepCallPoints, logicStartStep, incOperationSeq, hout]
    rw [hplayed, given, if_neg (fun h => hbase h.1), hsend]
    simp only [startStepCallPoints, logicStartStep, incOperationSeq]
    rw [(sortPlayerHandCards_perm _).length_eq, List.length_take, List.length_drop, hlen]
    have := seat.isLt
    omega
  · rw [hcards]
    exact Multiset.coe_nodup.mpr initPoker_nodup
  · rw [hsend]
    simpa [startStepCallPoints, logicStartStep, incOperationSeq] using hout
  · rw [hsend]
    simp [startStepCallPoints, logicStartStep, incOperationSeq, ← hp, hlen]

/-! ### Base cards and plays -/

/-- The hands when one of them is replaced. -/
lemma sum_update_hands (hands : Seat → List ℤ) (pos : Seat) (hand : List ℤ) :
    (hands pos : Multiset ℤ) + ∑ seat, (Function.update hands pos hand seat : Multiset ℤ) =
      (hand : Multiset ℤ) + ∑ seat, (hands seat : Multiset ℤ) := by
  have hsplit : ∀ g : Seat → List ℤ, ∑ seat, (g seat : Multiset ℤ) =
      (g pos : Multiset ℤ) + ∑ seat ∈ Finset.univ.erase pos, (g seat : Multiset ℤ) := fun g =>
    (Finset.add_sum_erase _ _ (Finset.mem_univ pos)).symm
  have hrest : ∑ seat ∈ Finset.univ.erase pos, (Function.update hands pos hand seat : Multiset ℤ) =
      ∑ seat ∈ Finset.univ.erase pos, (hands seat : Multiset ℤ) := by
    apply Finset.sum_congr rfl
    intro seat hseat
    rw [Function.update_of_ne (Finset.ne_of_mem_erase hseat)]
  rw [hsplit (Function.update hands pos hand), hsplit hands, hrest, Function.update_self]
  exact add_left_comm _ _ _

/-- The base cards go from the pool to the landlord. -/
lemma Conserved.onStepSendBaseCards {r : Room} (h : Conserved r) (k : Tick)
    (hbase : ¬ BaseSent r) (hpool : r.cardPool.length = 3) :
    Conserved (onStepSendBaseCards { logicStopStep r with logicStep := .sendBaseCards } k) := by
  have hpop : popCards 3 r.cardPool = (r.cardPool, []) := by
    rw [popCards_eq 3 _ hpool.ge, List.take_of_length_le hpool.le, List.drop_of_length_le hpool.le]
  set r' := Ddz3.onStepSendBaseCards { logicStopStep r with logicStep := .sendBaseCards } k with hr'
  have hhands : r'.hands =
      Function.update r.hands r.landLordPos (r.hands r.landLordPos ++ r.cardPool) := by
    simp [hr', Ddz3.onStepSendBaseCards, startStepDoubleScore, logicStartStep, logicStopStep, hpop]
  have hpool' : r'.cardPool = [] := by
    simp [hr', Ddz3.onStepSendBaseCards, startStepDoubleScore, logicStartStep, logicStopStep, hpop]
  have hout : r'.outCards = r.outCards := rfl
  have hland : r'.landLordPos = r.landLordPos := rfl
  have hall : allCards r' = allCards r := by
    have := sum_update_hands r.hands r.landLordPos (r.hands r.landLordPos ++ r.cardPool)
    rw [← Multiset.coe_add, add_assoc, add_right_inj] at this
    simp only [allCards, hhands, hpool', hout, this, Multiset.coe_nil, add_zero]
    abel
  refine ⟨fun seat => ?_, hall.trans h.deck, hall ▸ h.nodup⟩
  have hhand := h.hand seat
  simp only [given, hbase, false_and, if_false] at hhand
  have hsent : BaseSent r' := .inl rfl
  simp only [given, hsent, true_and, hland, hhands, played, hout] at hhand ⊢
  by_cases hseat : seat = r.landLordPos
  · subst hseat
    simp only [Function.update_self, List.length_append, if_true]
    omega
  · simp only [Function.update_of_ne hseat, hseat, if_false]
    omega

/-- The cards of a play go from the hand to the play list. -/
lemma Conserved.playCards {r : Room} (h : Conserved r) (k : Tick) {pos : Seat} {cards : List ℤ}
    (leading : Bool) (hhas : hasCards (r.hands pos) cards = true) :
    Conserved (playCards r k pos cards leading) := by
  obtain ⟨hhands, hout, hpool, hlogic, hland, -⟩ := playCards_fields r k pos cards leading
  set r' := Ddz3.playCards r k pos cards leading with hr'
  have hperm := removeCards_perm hhas
  have hall : allCards r' = allCards r := by
    have := sum_update_hands r.hands pos (removeCards (r.hands pos) cards)
    rw [← Multiset.coe_eq_coe.mpr hperm, ← Multiset.coe_add, add_assoc, add_left_comm,
      add_right_inj] at this
    simp only [allCards, hhands, hpool, hout, ← this, List.map_append, List.sum_append,
      List.map_cons, List.map_nil, List.sum_singleton]
    abel
  refine ⟨fun seat => ?_, hall.trans h.deck, hall ▸ h.nodup⟩
  have hbase : BaseSent r' ↔ BaseSent r := by simp only [BaseSent, hlogic]
  have hgiven : given r' seat = given r seat := by simp only [given, hbase, hland]
  have hlen := hperm.length_eq
  rw [List.length_append] at hlen
  rw [hgiven, ← h.hand seat, hhands]
  by_cases hseat : pos = seat
  · subst hseat
    simp [played, hout, List.filter_append]
    omega
  · simp [played, hout, List.filter_append, hseat, Function.update_of_ne (Ne.symm hseat)]

/-! ### Every event keeps the invariant -/

lemma CardInv.gameStart {r : Room} (h : CardInv r) (k : Tick) (hplaying : r.isPlaying = false) :
    CardInv (gameStart r k) := by
  obtain ⟨hd, -⟩ := h.waiting hplaying
  obtain ⟨hempty, hout, -⟩ := h.undealt hd
  have hd' : ¬ Dealt (Ddz3.gameStart r k) := hd
  refine ⟨?_, fun _ => ⟨hempty, hout, fun _ => k.shuffled.2⟩, fun h => absurd h hd',
    fun h => absurd h hd', fun h => absurd h (by simp [Ddz3.gameStart, startStepSendCards,
      logicStartStep])⟩
  rintro p hp
  obtain rfl := Option.some.inj hp
  have hstep : r.logicStep = .idle ∨ r.logicStep = .stepEnd := by
    simp only [Dealt] at hd
    tauto
  show precedes r.logicStep .sendCards = true
  obtain hstep | hstep := hstep <;> rw [hstep] <;> rfl

/-- The steps that only ask the seat in turn. -/
lemma CardInv.ask {r : Room} (h : CardInv r) (k : Tick) {step : LogicStep} {time ms : ℕ}
    (hnext : r.next = some (step, time)) (hstep : step ≠ .sendCards ∧ step ≠ .sendBaseCards ∧
      step ≠ .stepEnd ∧ step ≠ .idle) :
    CardInv (logicStartTimeout (incOperationSeq { logicStopStep r with logicStep := step }) k ms) := by
  have hprec := h.next _ hnext
  have hlogic : (logicStartTimeout (incOperationSeq { logicStopStep r with logicStep := step }) k
      ms).logicStep = step := rfl
  apply h.frame
  · simp only [Dealt, hlogic]
    revert hprec hstep
    cases hr : r.logicStep <;> cases step <;> simp [precedes, follows]
  · simp only [BaseSent, hlogic]
    revert hprec hstep
    cases hr : r.logicStep <;> cases step <;> simp [precedes, follows]
  · exact fun _ => .refl _
  · rfl
  · rfl
  · exact fun _ => rfl
  · rfl
  · rintro p hp
    exact absurd hp (by simp [logicStartTimeout, incOperationSeq, logicStopStep])
  · intro hd
    exfalso
    simp only [Dealt] at hd
    revert hprec hstep hd
    cases hr : r.logicStep <;> cases step <;> simp [precedes, follows]

/-- The switch to the scheduled step keeps the invariant. -/
lemma CardInv.onStepSwitch {r : Room} (h : CardInv r) (k : Tick) {step : LogicStep} {time : ℕ}
    (hnext : r.next = some (step, time)) :
    CardInv (onStepSwitch { logicStopStep r with logicStep := step } k step) := by
  have hprec := h.next _ hnext
  cases step with
  | idle =>
    exfalso
    revert hprec
    cases r.logicStep <;> simp [precedes, follows]
  | callPoints => exact h.ask k hnext (by simp)
  | grabLandLord => exact h.ask k hnext (by simp)
  | doubleScore => exact h.ask k hnext (by simp)
  | outCard => exact h.ask k hnext (by simp)
  | sendCards =>
    have hd : ¬ Dealt r := by
      simp only [Dealt]
      revert hprec
      cases r.logicStep <;> simp [precedes, follows]
    obtain ⟨hempty, hout, hperm⟩ := h.undealt hd
    have hplaying : r.isPlaying ≠ false := by
      intro hw
      rw [(h.waiting hw).2] at hnext
      exact absurd hnext (by simp)
    obtain ⟨hcons, hout', hpool'⟩ := conserved_onStepSendCards
      (r := { logicStopStep r with logicStep := .sendCards }) k rfl hempty hout
      (hperm (by simp [hnext]))
    refine ⟨?_, ?_, fun _ => hcons, fun _ _ => ⟨hout', hpool'⟩, fun hw => absurd hw hplaying⟩
    · rintro p hp
      obtain rfl := Option.some.inj hp
      rfl
    · intro hd'
      exact absurd (show Dealt _ from ⟨LogicStep.noConfusion, LogicStep.noConfusion⟩) hd'
  | sendBaseCards =>
    have hstep : r.logicStep = .grabLandLord := by
      revert hprec
      cases r.logicStep <;> simp [precedes, follows]
    have hd : Dealt r := by simp [Dealt, hstep]
    have hb : ¬ BaseSent r := by simp [BaseSent, hstep]
    have hplaying : r.isPlaying ≠ false := by
      intro hw
      exact (h.waiting hw).1 hd
    obtain ⟨-, hpool⟩ := h.early hd hb
    refine ⟨?_, ?_, fun _ => (h.dealt hd).onStepSendBaseCards k hb hpool, ?_,
      fun hw => absurd hw hplaying⟩
    · rintro p hp
      obtain rfl := Option.some.inj hp
      rfl
    · intro hd'
      exact absurd (show Dealt _ from ⟨LogicStep.noConfusion, LogicStep.noConfusion⟩) hd'
    · intro _ hb'
      exact absurd (Or.inl rfl) hb'
  | stepEnd =>
    have hd' : ¬ Dealt (Ddz3.onStepSwitch { logicStopStep r with logicStep := .stepEnd } k .stepEnd) :=
      fun hd => hd.2 rfl
    refine ⟨?_, fun _ => ⟨fun _ => rfl, rfl, fun hn => absurd rfl hn⟩, fun hd => absurd hd hd',
      fun hd => absurd hd hd', fun _ => ⟨hd', rfl⟩⟩
    rintro p hp
    exact absurd hp (by simp [Ddz3.onStepSwitch, onStepEnd, clearResource, incOperationSeq,
      logicStopTimeout, logicStopStep])

/-- An operation that moves no card and schedules a step in order keeps the invariant. -/
lemma CardInv.move {r r' : Room} (h : CardInv r) (hd : Dealt r)
    (hlogic : r'.logicStep = r.logicStep) (hhands : r'.hands = r.hands)
    (hout : r'.outCards = r.outCards) (hpool : r'.cardPool = r.cardPool)
    (hland : BaseSent r → r'.landLordPos = r.landLordPos) (hplaying : r'.isPlaying = r.isPlaying)
    (hnext : r'.next = r.next ∨ ∃ step time, r'.next = some (step, time) ∧
      precedes r.logicStep step = true) : CardInv r' := by
  apply h.frame _ _ (fun seat => by rw [hhands]) hout hpool hland hplaying _
    (fun hd' => absurd hd hd')
  · simp only [Dealt, hlogic]
  · simp only [BaseSent, hlogic]
  · rintro p hp
    rw [hlogic]
    obtain hsame | ⟨step, time, hnew, hprec⟩ := hnext
    · exact h.next p (hsame ▸ hp)
    · obtain rfl := Option.some.inj (hnew.symm.trans hp)
      exact hprec

lemma CardInv.callPoints {r : Room} (h : CardInv r) (k : Tick) (a : Attempt)
    (hstep : r.logicStep = .callPoints) (hok : ¬ Redeals r a) : CardInv (handle r k a).room := by
  have hd : Dealt r := by simp [Dealt, hstep]
  have hb : ¬ BaseSent r := by simp [BaseSent, hstep]
  obtain ⟨-, heq⟩ | ⟨-, -, points, -, -, ⟨-, heq⟩ | ⟨-, -, heq⟩⟩ |
    ⟨hpos, hop, ⟨hzero, hlast, -⟩ | ⟨-, heq⟩⟩ := callPoints_cases r k a hstep
  · rw [heq]
    exact h
  · rw [heq]
    exact h.move hd rfl rfl rfl rfl (fun hb' => absurd hb' hb) rfl
      (.inr ⟨_, _, rfl, by rw [hstep]; rfl⟩)
  · rw [heq]
    exact h.move hd rfl rfl rfl rfl (fun hb' => absurd hb' hb) rfl
      (.inr ⟨_, _, rfl, by rw [hstep]; rfl⟩)
  · exact absurd ⟨hstep, hpos, hop, hzero, hlast⟩ hok
  · rw [heq]
    exact h.move hd rfl rfl rfl rfl (fun hb' => absurd hb' hb) rfl
      (.inr ⟨_, _, rfl, by rw [hstep]; rfl⟩)

lemma CardInv.grabLandLord {r : Room} (h : CardInv r) (k : Tick) (a : Attempt)
    (hstep : r.logicStep = .grabLandLord) : CardInv (handle r k a).room := by
  have hd : Dealt r := by simp [Dealt, hstep]
  have hb : ¬ BaseSent r := by simp [BaseSent, hstep]
  have hprec : ∀ step, step = .grabLandLord ∨ step = .sendBaseCards →
      precedes r.logicStep step = true := by
    rintro step (rfl | rfl) <;> rw [hstep] <;> rfl
  obtain ⟨-, heq⟩ | ⟨-, -, heq⟩ | ⟨-, -, heq⟩ := grabLandLord_cases r k a hstep
  · rw [heq]
    exact h
  · rw [heq]
    obtain ⟨step, time, c, g, o, hs, hroom⟩ := grabNext_fields a.pos k
      { r with landLordPos := a.pos, grabLandLordScoreMulti := r.grabLandLordScoreMulti * 2 } a.pos
    rw [hroom]
    exact h.move hd rfl rfl rfl rfl (fun hb' => absurd hb' hb) rfl
      (.inr ⟨_, _, rfl, hprec _ hs⟩)
  · rw [heq]
    obtain ⟨step, time, c, g, o, hs, hroom⟩ := grabNext_fields r.landLordPos k
      { r with cannotGrabPos := r.cannotGrabPos ++ [a.pos] } a.pos
    rw [hroom]
    exact h.move hd rfl rfl rfl rfl (fun hb' => absurd hb' hb) rfl
      (.inr ⟨_, _, rfl, hprec _ hs⟩)

lemma CardInv.doubleScore {r : Room} (h : CardInv r) (k : Tick) (a : Attempt)
    (hstep : r.logicStep = .doubleScore) : CardInv (handle r k a).room := by
  have hd : Dealt r := by simp [Dealt, hstep]
  obtain heq | ⟨-, heq⟩ := doubleScore_cases r k a hstep
  · rw [heq]
    exact h
  · rw [heq]
    exact h.move hd rfl rfl rfl rfl (fun _ => rfl) rfl (.inl rfl)

/-- The mark of a new trick holds no cards. -/
lemma Conserved.mark {r : Room} (h : Conserved r) :
    Conserved { r with outCards := r.outCards ++ [{ cards := [], pos := none }] } := by
  have hall : allCards { r with outCards := r.outCards ++ [{ cards := [], pos := none }] } =
      allCards r := by
    simp [allCards]
  refine ⟨fun seat => ?_, hall.trans h.deck, hall ▸ h.nodup⟩
  have hplayed : played { r with outCards := r.outCards ++ [{ cards := [], pos := none }] } seat =
      played r seat := by
    simp [played, List.filter_append]
  rw [hplayed]
  exact h.hand seat

/-- A room in the play phase whose cards are conserved. -/
lemma CardInv.ofConserved {r r' : Room} (h : CardInv r) (hstep : r.logicStep = .outCard)
    (hlogic : r'.logicStep = r.logicStep) (hplaying : r'.isPlaying = r.isPlaying)
    (hcons : Conserved r') (hnext : ∃ step time, r'.next = some (step, time) ∧
      precedes .outCard step = true) : CardInv r' := by
  have hd : Dealt r := by simp [Dealt, hstep]
  have hd' : Dealt r' := by simp [Dealt, hlogic, hstep]
  have hb' : BaseSent r' := by simp [BaseSent, hlogic, hstep]
  refine ⟨?_, fun h => absurd hd' h, fun _ => hcons, fun _ h => absurd hb' h, ?_⟩
  · rintro p hp
    obtain ⟨step, time, hnew, hprec⟩ := hnext
    obtain rfl := Option.some.inj (hnew.symm.trans hp)
    rw [hlogic, hstep]
    exact hprec
  · intro hw
    exact absurd hd (h.waiting (hplaying.symm.trans hw)).1

lemma CardInv.outCard {r : Room} (h : CardInv r) (k : Tick) (a : Attempt)
    (hstep : r.logicStep = .outCard) : CardInv (handle r k a).room := by
  have hd : Dealt r := by simp [Dealt, hstep]
  have hinc : Conserved (incOperationSeq r) :=
    (h.dealt hd).frame Iff.rfl (fun _ => .refl _) rfl rfl fun _ => rfl
  obtain heq | ⟨cards, tp, -, -, -, -, hhas, -, -, -, heq⟩ | ⟨last, -, -, -, -, heq⟩ :=
    outCard_cases r k a hstep
  · rw [heq]
    exact h.move hd rfl rfl rfl rfl (fun _ => rfl) rfl (.inl rfl)
  · rw [heq]
    obtain ⟨-, -, -, hlogic, -, hplaying⟩ :=
      playCards_fields (incOperationSeq r) k a.pos cards (decide (lastCards r = []))
    obtain ⟨step, time, hnext, hs⟩ :=
      playCards_next (incOperationSeq r) k a.pos cards (decide (lastCards r = []))
    refine h.ofConserved hstep hlogic hplaying (hinc.playCards k _ hhas) ⟨step, time, hnext, ?_⟩
    obtain rfl | rfl := hs <;> rfl
  · rw [heq, passTurn]
    split_ifs
    · exact h.ofConserved hstep rfl rfl
        (hinc.mark.frame Iff.rfl (fun _ => .refl _) rfl rfl fun _ => rfl) ⟨_, _, rfl, rfl⟩
    · exact h.ofConserved hstep rfl rfl
        (hinc.frame Iff.rfl (fun _ => .refl _) rfl rfl fun _ => rfl) ⟨_, _, rfl, rfl⟩

/-- The invariant is kept by every event that does not throw the deal in. -/
lemma cardInv_kept : Kept (fun r _ => CardInv r) fun r a => ¬ Redeals r a where
  start := fun k h hplaying => h.gameStart k hplaying
  switch := fun k step time h hnext => h.onStepSwitch k hnext
  operation := by
    intro r _ k a h hok
    by_cases hcall : r.logicStep = .callPoints
    · exact h.callPoints k a hcall hok
    by_cases hgrab : r.logicStep = .grabLandLord
    · exact h.grabLandLord k a hgrab
    by_cases hdouble : r.logicStep = .doubleScore
    · exact h.doubleScore k a hdouble
    by_cases hout : r.logicStep = .outCard
    · exact h.outCard k a hout
    · rw [handle_of_other r k a hcall hgrab hdouble hout]
      exact h
  stopTimeout := fun h => h.frame Iff.rfl Iff.rfl (fun _ => .refl _) rfl rfl (fun _ => rfl) rfl
    h.next fun _ => rfl
  startOutCard := by
    intro r _ k h hdouble
    have hd : Dealt r := by simp [Dealt, hdouble]
    exact h.move hd rfl rfl rfl rfl (fun _ => rfl) rfl
      (.inr ⟨_, _, rfl, by rw [hdouble]; rfl⟩)
  cutBack := by
    intro r _ pos h
    refine h.frame Iff.rfl Iff.rfl (fun seat => ?_) rfl rfl (fun _ => rfl) rfl h.next
      fun _ => rfl
    by_cases hseat : seat = pos
    · subst hseat
      simpa [onUserCutBack] using sortPlayerHandCards_perm _
    · simp [onUserCutBack, Function.update_of_ne hseat]

lemma cardInv_new : CardInv {} := by
  refine ⟨by simp, fun _ => ⟨fun _ => rfl, rfl, by simp⟩, ?_, ?_, fun _ => ⟨?_, rfl⟩⟩
  · exact fun hd => absurd rfl hd.1
  · exact fun hd => absurd rfl hd.1
  · exact fun hd => absurd rfl hd.1

/-- In every run in which no deal is thrown in, from the end of sending the cards to the end of
the deal, every hand has the 17 cards it was given (20 for the landlord after the base cards) less
those the seat has played, and the hands, the played cards and the pool together are the deck.

**Proof sketch.** The steps of a deal come in a fixed order, so the cards are sent only to empty
hands and from a full pool, and the base cards only from the three cards left of it. A play moves
cards from a hand to the play list; no other event moves a card. -/
theorem conserved_of_reaches {r : Room}
    (h : Runs.Reaches step (Meets fun r a => ¬ Redeals r a) {} r) (hd : Dealt r) :
    Conserved r := by
  obtain ⟨hist, hplays⟩ := exists_plays_of_reaches h
  exact (cardInv_kept.plays cardInv_new hplays).dealt hd

/-! ### A deal that is thrown in -/

instance (r : Room) (a : Attempt) : Decidable (Redeals r a) := by
  unfold Redeals
  infer_instance

/-- The first seat calls three points in a run that conserves the cards. -/
theorem conserved_of_reaches_call : ∃ r, Runs.Reaches step (Meets fun r a => ¬ Redeals r a) {} r ∧
    Dealt r ∧ r.callPoints = 3 ∧ Conserved r := by
  have hexec : ((Runs.exec step (Meets fun r a => ¬ Redeals r a) {}
      (asked ++ [(unshuffled 823, .operation 0 .callPoints (some 3) none)])).any fun r =>
        r.logicStep == .callPoints && r.callPoints == 3) = true := by
    decide +kernel
  obtain ⟨r, hrun, hr⟩ := (Option.any_eq_true _ _).mp hexec
  simp only [Bool.and_eq_true, beq_iff_eq] at hr
  have hreach := Runs.reaches_of_exec _ .init hrun
  have hd : Dealt r := by simp [Dealt, hr.1]
  exact ⟨r, hreach, hd, hr.2, conserved_of_reaches hreach hd⟩

/-- All three seats pass: the deck is dealt again onto the old hands, and every seat has 34
cards. -/
theorem redeal_doubles_hands : ∃ r, Runs.Reaches step (fun _ _ => True) {} r ∧ Dealt r ∧
    (∀ seat, (r.hands seat).length = 34) ∧ ¬ Conserved r := by
  have hexec : ((Runs.exec step (fun _ _ => True) {} (asked ++
      [(unshuffled 823, .operation 0 .callPointsPass none none), (unshuffled 834, .timer),
        (unshuffled 835, .operation 1 .callPointsPass none none), (unshuffled 846, .timer),
        (unshuffled 847, .operation 2 .callPointsPass none none), (unshuffled 1258, .timer)])).any
      fun r => r.logicStep == .sendCards && r.outCards == [] &&
        decide (∀ seat, (r.hands seat).length = 34)) = true := by
    decide +kernel
  obtain ⟨r, hrun, hr⟩ := (Option.any_eq_true _ _).mp hexec
  simp only [Bool.and_eq_true, beq_iff_eq, decide_eq_true_eq] at hr
  obtain ⟨⟨hlogic, hout⟩, hlen⟩ := hr
  refine ⟨r, Runs.reaches_of_exec _ .init hrun, by simp [Dealt, hlogic], hlen, ?_⟩
  intro hcons
  have := hcons.hand 0
  rw [hlen 0] at this
  simp [played, hout, given, BaseSent, hlogic] at this

end Ddz3
