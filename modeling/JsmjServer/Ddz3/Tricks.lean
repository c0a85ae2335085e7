import JsmjServer.Ddz3.Cards

set_option relaxedAutoImplicit false
set_option autoImplicit false

/-!
# The play phase of the landlord game

The code keeps the current trick only as the last entry of the play list: the cards to beat, or an
empty entry that is added when the pass goes back to the seat that played last. The module reads
the trick off the accepted plays and passes and compares it with the play list.

## Main definitions

* `Ddz3.trick` — the last play and the seats that have passed since.
* `Ddz3.Leads` — a seat leads a new trick.
* `Ddz3.TrickRules` — what an operation of the play phase may do.

## Main results

* `Ddz3.trickRules_iff` — every operation keeps the rules but the pass at the very first lead.
* `Ddz3.first_lead_pass_fails` — that pass raises an error.
-/

namespace Ddz3

/-! ### The trick -/

/-- The trick after one more play or pass. -/
def trickStep (t : Option (Seat × List ℤ × List Seat)) (move : Seat × Option (List ℤ)) :
    Option (Seat × List ℤ × List Seat) :=
  match move.2 with
  | some cards => some (move.1, cards, [])
  | none => t.map fun t => (t.1, t.2.1, t.2.2 ++ [move.1])

/-- The last play of a deal with the seat that made it, and the seats that have passed since. -/
def trick (moves : List (Seat × Option (List ℤ))) : Option (Seat × List ℤ × List Seat) :=
  moves.foldl trickStep none

/-- A seat leads a new trick: the two others have passed since its last play, or there was no
play. -/
def Leads (h : History) (seat : Seat) : Prop :=
  ∀ p cards passed, trick h.moves = some (p, cards, passed) →
    p = seat ∧ ∀ other, other ≠ p → other ∈ passed

/-- The rules of the play phase for one operation: a play is accepted only from the seat in turn,
with cards it holds and of a valid type, and if the trick already has a play it beats this one; the
code takes the seat in turn for leading exactly when it leads; and a leading seat's pass changes
nothing but the message counter and raises no error. -/
structure TrickRules (w : Room × History) (k : Tick) (a : Attempt) : Prop where
  accepted : ∀ seat cards,
    (handle w.1 k a).room.outCards = w.1.outCards ++ [{ cards := cards, pos := some seat }] →
    seat = w.1.outCardPos ∧ a.pos = seat ∧ a.op = .outCard ∧ a.cards = some cards ∧
      (cards : Multiset ℤ) ≤ (w.1.hands seat : Multiset ℤ) ∧
      ∃ tp, matchPockerType (tanslateCardsToValues cards) = some tp ∧ tp.bFind = true ∧
        (¬ Leads w.2 seat → ∃ p last passed tpB, trick w.2.moves = some (p, last, passed) ∧
          matchPockerType (tanslateCardsToValues last) = some tpB ∧
          (getMaxPockerType tp tpB).1 = true ∧ 0 < (getMaxPockerType tp tpB).2)
  lead : lastCards w.1 = [] ↔ Leads w.2 w.1.outCardPos
  leadingPass : a.op = .outCardPass → a.pos = w.1.outCardPos → Leads w.2 a.pos →
    handle w.1 k a = .ok (incOperationSeq w.1)

/-! ### The play list against the trick -/

/-- The play list and the turn, by the last play and the seats that have passed since. The seat of
the last play is still in turn when this play was its last, and may then pass as well. -/
structure OnTable (r : Room) (p : Seat) (cards : List ℤ) (passed : List Seat) : Prop where
  nonempty : cards ≠ []
  turn : (passed.filter (· ≠ p) = [] ∧
        r.outCards.getLast? = some { cards := cards, pos := some p } ∧
        (r.outCardPos = p ∨ r.outCardPos = p + 1)) ∨
    (passed.filter (· ≠ p) = [p + 1] ∧
        r.outCards.getLast? = some { cards := cards, pos := some p } ∧ r.outCardPos = p + 2) ∨
    (passed.filter (· ≠ p) = [p + 1, p + 2] ∧
        r.outCards.getLast? = some { cards := [], pos := none } ∧ r.outCardPos = p)

/-- What holds of the play list in every state. -/
structure TrickInv (r : Room) (h : History) : Prop where
  early : r.logicStep ≠ .outCard → r.outCards = []
  fresh : r.logicStep ≠ .outCard → r.logicStep ≠ .stepEnd → h.moves = []
  table : r.logicStep = .outCard → (h.moves = [] ∧ r.outCards = []) ∨
    ∃ p cards passed, trick h.moves = some (p, cards, passed) ∧ OnTable r p cards passed

lemma mem_of_filter_ne {p s : Seat} {passed others : List Seat}
    (h : passed.filter (· ≠ p) = others) (hs : s ≠ p) : s ∈ passed ↔ s ∈ others := by
  rw [← h, List.mem_filter]
  simp [hs]

/-- The code and the history agree on who leads. -/
lemma OnTable.lead_iff {r : Room} {h : History} {p : Seat} {cards : List ℤ} {passed : List Seat}
    (ht : OnTable r p cards passed) (htrick : trick h.moves = some (p, cards, passed)) :
    lastCards r = [] ↔ Leads h r.outCardPos := by
  have hseats : ∀ p : Seat, p + 1 ≠ p ∧ p + 2 ≠ p ∧ p + 2 ≠ p + 1 ∧
      ∀ s, s ≠ p → s = p + 1 ∨ s = p + 2 := by decide
  obtain ⟨h₁, h₂, h₂₁, hall⟩ := hseats p
  obtain ⟨hothers, hlast, -⟩ | ⟨hothers, hlast, -⟩ | ⟨hothers, hlast, hpos⟩ := ht.turn
  · refine iff_of_false ?_ ?_
    · simp [lastCards, hlast, ht.nonempty]
    · intro hlead
      have := (hlead p cards passed htrick).2 (p + 1) h₁
      rw [mem_of_filter_ne hothers h₁] at this
      simp at this
  · refine iff_of_false ?_ ?_
    · simp [lastCards, hlast, ht.nonempty]
    · intro hlead
      have := (hlead p cards passed htrick).2 (p + 2) h₂
      rw [mem_of_filter_ne hothers h₂, List.mem_singleton] at this
      exact h₂₁ this
  · refine iff_of_true ?_ ?_
    · simp [lastCards, hlast]
    · intro q cs ps hq
      rw [htrick, Option.some.injEq, Prod.mk.injEq, Prod.mk.injEq] at hq
      obtain ⟨rfl, -, rfl⟩ := hq
      refine ⟨hpos.symm, fun s hs => ?_⟩
      rw [mem_of_filter_ne hothers hs]
      simpa using hall s hs

/-- When the trick has a play, this is the play the code compares with. -/
lemma OnTable.lastCards_eq {r : Room} {p : Seat} {cards : List ℤ} {passed : List Seat}
    (ht : OnTable r p cards passed) (hlast : lastCards r ≠ []) : lastCards r = cards := by
  obtain ⟨-, heq, -⟩ | ⟨-, heq, -⟩ | ⟨-, heq, -⟩ := ht.turn
  · simp [lastCards, heq]
  · simp [lastCards, heq]
  · exact absurd (by simp [lastCards, heq]) hlast

lemma trick_append (moves : List (Seat × Option (List ℤ))) (move : Seat × Option (List ℤ)) :
    trick (moves ++ [move]) = trickStep (trick moves) move := by
  simp [trick, List.foldl_append]

/-- A play opens the table anew. -/
lemma onTable_playCards (r : Room) (k : Tick) {cards : List ℤ} (leading : Bool)
    (hne : cards ≠ []) :
    OnTable (playCards r k r.outCardPos cards leading) r.outCardPos cards [] := by
  have hlast : (playCards r k r.outCardPos cards leading).outCards.getLast? =
      some { cards := cards, pos := some r.outCardPos } := by
    rw [(playCards_fields r k r.outCardPos cards leading).2.1]
    simp
  refine ⟨hne, .inl ⟨rfl, hlast, ?_⟩⟩
  simp only [playCards]
  split_ifs
  · exact .inl rfl
  · exact .inl rfl
  · exact .inr rfl

/-- A pass goes on to the next seat, and the third seat gets the lead back. -/
lemma OnTable.passTurn {r : Room} {p : Seat} {cards : List ℤ} {passed : List Seat} (k : Tick)
    {last : OutCardInfo} (ht : OnTable r p cards passed) (hlast : r.outCards.getLast? = some last)
    (hcards : last.cards ≠ []) :
    OnTable (passTurn r k r.outCardPos last) p cards (passed ++ [r.outCardPos]) := by
  have hseats : ∀ p : Seat, p + 1 ≠ p ∧ p + 2 ≠ p ∧ p + 1 + 1 = p + 2 ∧ p + 2 + 1 = p ∧
      p ≠ p + 2 := by decide
  obtain ⟨h₁, h₂, h₁₁, h₂₁, h₃⟩ := hseats p
  refine ⟨ht.nonempty, ?_⟩
  obtain ⟨hothers, heq, hpos⟩ | ⟨hothers, heq, hpos⟩ | ⟨hothers, heq, hpos⟩ := ht.turn
  · obtain rfl := Option.some.inj (heq.symm.trans hlast)
    obtain hpos | hpos := hpos
    · -- the seat of the last play passes itself, after its last card
      refine .inl ⟨?_, ?_, .inr ?_⟩
      · rw [List.filter_append, hothers, hpos]
        simp
      · simp [Ddz3.passTurn, getNextPosition, hpos, h₁.symm, heq, logicStopTimeout,
          logicStartStep]
      · simp [Ddz3.passTurn, getNextPosition, hpos, h₁.symm, logicStopTimeout, logicStartStep]
    · refine .inr (.inl ⟨?_, ?_, ?_⟩)
      · rw [List.filter_append, hothers, hpos]
        simp [h₁]
      · simp [Ddz3.passTurn, getNextPosition, hpos, h₁₁, h₃, heq, logicStopTimeout,
          logicStartStep]
      · simp [Ddz3.passTurn, getNextPosition, hpos, h₁₁, h₃, logicStopTimeout, logicStartStep]
  · obtain rfl := Option.some.inj (heq.symm.trans hlast)
    refine .inr (.inr ⟨?_, ?_, ?_⟩)
    · rw [List.filter_append, hothers, hpos]
      simp [h₂]
    · simp [Ddz3.passTurn, getNextPosition, hpos, h₂₁, logicStopTimeout, logicStartStep]
    · simp [Ddz3.passTurn, getNextPosition, hpos, h₂₁, logicStopTimeout, logicStartStep]
  · obtain rfl := Option.some.inj (heq.symm.trans hlast)
    exact absurd rfl hcards

/-! ### Every event keeps the play list in step -/

/-- The history of a play that is accepted. -/
lemma moves_play {r : Room} {h : History} {k : Tick} {a : Attempt} {cards : List ℤ}
    (hstep : r.logicStep = .outCard) (hop : a.op = .outCard) (hcards : a.cards = some cards)
    (hout : (handle r k a).room.outCards ≠ r.outCards) :
    (h.operation r k a).moves = h.moves ++ [(a.pos, some cards)] := by
  simp [History.operation, hstep, hop, hcards, hout]

/-- The history of a pass that is accepted. -/
lemma moves_pass {r : Room} {h : History} {k : Tick} {a : Attempt}
    (hstep : r.logicStep = .outCard) (hop : a.op = .outCardPass)
    (hpos : (handle r k a).room.outCardPos ≠ r.outCardPos) :
    (h.operation r k a).moves = h.moves ++ [(a.pos, none)] := by
  simp [History.operation, hstep, hop, hpos]

/-- An operation that is not accepted leaves the moves. -/
lemma moves_same {r : Room} {h : History} {k : Tick} {a : Attempt}
    (hsame : r.logicStep = .outCard → (handle r k a).room.outCards = r.outCards ∧
      (handle r k a).room.outCardPos = r.outCardPos) :
    (h.operation r k a).moves = h.moves := by
  simp only [History.operation]
  split_ifs with hplay hpass
  · exact absurd (hsame hplay.1).1 hplay.2.2
  · exact absurd (hsame hpass.1).2 hpass.2.2
  · rfl

lemma playCards_outCards_ne (r : Room) (k : Tick) (pos : Seat) (cards : List ℤ) (leading : Bool) :
    (playCards r k pos cards leading).outCards ≠ r.outCards := by
  rw [(playCards_fields r k pos cards leading).2.1]
  simp

lemma passTurn_outCardPos (r : Room) (k : Tick) (pos : Seat) (last : OutCardInfo) :
    (passTurn r k pos last).outCardPos = getNextPosition pos := by
  simp only [passTurn]
  split_ifs <;> rfl

/-- An operation of the play phase keeps the play list in step with the trick. -/
lemma TrickInv.outCard {r : Room} {h : History} (hI : TrickInv r h) (k : Tick) (a : Attempt)
    (hstep : r.logicStep = .outCard) : TrickInv (handle r k a).room (h.operation r k a) := by
  have hlogic := (handle_schedule r k a).1
  have htable : ∀ {q}, (handle r k a).room = q →
      ((h.operation r k a).moves = [] ∧ q.outCards = [] ∨
        ∃ p cards passed, trick (h.operation r k a).moves = some (p, cards, passed) ∧
          OnTable q p cards passed) → TrickInv (handle r k a).room (h.operation r k a) := by
    rintro q rfl ht
    exact ⟨fun hs => absurd (hlogic.trans hstep) hs, fun hs => absurd (hlogic.trans hstep) hs,
      fun _ => ht⟩
  have hnext : ∀ s : Seat, getNextPosition s ≠ s := by decide
  obtain heq | ⟨cards, tp, hpos, hop, hcards, hne, -, -, -, -, heq⟩ |
    ⟨last, hpos, hop, hlast, hlastCards, heq⟩ := outCard_cases r k a hstep
  · refine htable heq ?_
    rw [moves_same fun _ => by rw [heq]; exact ⟨rfl, rfl⟩]
    obtain hempty | ⟨p, cards, passed, htrick, ht⟩ := hI.table hstep
    · exact .inl hempty
    · exact .inr ⟨p, cards, passed, htrick, ht.nonempty, ht.turn⟩
  · refine htable heq (.inr ⟨r.outCardPos, cards, [], ?_, ?_⟩)
    · have hout := playCards_outCards_ne (incOperationSeq r) k a.pos cards
        (decide (lastCards r = []))
      rw [moves_play hstep hop hcards (by rw [heq]; exact hout), trick_append, hpos]
      rfl
    · rw [hpos]
      exact onTable_playCards (incOperationSeq r) k _ hne
  · refine htable heq (.inr ?_)
    rw [moves_pass hstep hop
      (by rw [heq, passTurn_outCardPos, hpos]; exact hnext _), trick_append]
    obtain ⟨-, hempty⟩ | ⟨p, cards, passed, htrick, ht⟩ := hI.table hstep
    · rw [hempty] at hlast
      exact absurd hlast (by simp)
    · refine ⟨p, cards, passed ++ [r.outCardPos], ?_, ?_⟩
      · rw [htrick, hpos]
        rfl
      · rw [hpos]
        have ht' : OnTable (incOperationSeq r) p cards passed := ⟨ht.nonempty, ht.turn⟩
        exact ht'.passTurn k hlast hlastCards

/-- Outside the play phase the play list is empty. -/
lemma TrickInv.outside {r r' : Room} {h h' : History} (hI : TrickInv r h)
    (hstep : r.logicStep ≠ .outCard) (hlogic : r'.logicStep = r.logicStep)
    (hout : r'.outCards = r.outCards) (hmoves : h'.moves = h.moves) : TrickInv r' h' where
  early := fun _ => hout.trans (hI.early hstep)
  fresh := fun _ hend => hmoves.trans (hI.fresh hstep (hlogic ▸ hend))
  table := fun hs => absurd (hlogic ▸ hs) hstep

/-- What the invariant reads of the room. -/
lemma TrickInv.frame {r r' : Room} {h : History} (hI : TrickInv r h)
    (hlogic : r'.logicStep = r.logicStep) (hout : r'.outCards = r.outCards)
    (hpos : r'.outCardPos = r.outCardPos) : TrickInv r' h where
  early := by
    rw [hlogic, hout]
    exact hI.early
  fresh := by
    rw [hlogic]
    exact hI.fresh
  table := by
    intro hs
    rw [hlogic] at hs
    obtain ⟨hmoves, hempty⟩ | ⟨p, cards, passed, htrick, ht⟩ := hI.table hs
    · exact .inl ⟨hmoves, hout.trans hempty⟩
    · refine .inr ⟨p, cards, passed, htrick, ht.nonempty, ?_⟩
      rw [hout, hpos]
      exact ht.turn

lemma TrickInv.onStepSwitch {r : Room} {h : History} (hI : TrickInv r h) (hord : InOrder r)
    (k : Tick) {step : LogicStep} {time : ℕ} (hnext : r.next = some (step, time)) :
    TrickInv (onStepSwitch { logicStopStep r with logicStep := step } k step) (h.switch step) := by
  have hfollows := hord.next _ hnext
  have hlogic := onStepSwitch_logicStep r k step
  by_cases hout : step = .outCard
  · subst hout
    by_cases hplaying : r.logicStep = .outCard
    · exact hI.frame hplaying.symm rfl rfl
    · have hend : r.logicStep ≠ .stepEnd := by
        intro hend
        rw [hend] at hfollows
        exact absurd hfollows (by simp [follows])
      refine ⟨fun hs => absurd rfl hs, fun hs => absurd rfl hs, fun _ => .inl ⟨?_, ?_⟩⟩
      · exact hI.fresh hplaying hend
      · exact hI.early hplaying
  have hout' : (Ddz3.onStepSwitch { logicStopStep r with logicStep := step } k step).outCards =
      [] := by
    cases step with
    | outCard => exact absurd rfl hout
    | stepEnd => rfl
    | _ =>
      apply hI.early
      intro hplaying
      rw [hplaying] at hfollows
      exact absurd hfollows (by simp [follows])
  refine ⟨fun _ => hout', ?_, fun hs => absurd (hlogic.symm.trans hs) hout⟩
  intro _ hend
  rw [hlogic] at hend
  cases step with
  | sendCards => rfl
  | stepEnd => exact absurd rfl hend
  | outCard => exact absurd rfl hout
  | _ =>
    apply hI.fresh
    · intro hplaying
      rw [hplaying] at hfollows
      exact absurd hfollows (by simp [follows])
    · intro hended
      rw [hended] at hfollows
      exact absurd hfollows (by simp [follows])

lemma trickInv_kept (ok : Room → Attempt → Prop) : KeptInOrder TrickInv ok where
  start := by
    intro r h k hord hI hplaying
    have hstep : r.logicStep ≠ .outCard := by
      obtain hstep | hstep := (hord.waiting hplaying).1 <;> simp [hstep]
    exact hI.outside hstep rfl rfl rfl
  switch := fun k step time hord hI hnext => hI.onStepSwitch hord k hnext
  operation := by
    intro r h k a _ hI _
    by_cases hstep : r.logicStep = .outCard
    · exact hI.outCard k a hstep
    · exact hI.outside hstep (handle_schedule r k a).1 ((handle_untouched r k a).play hstep)
        (moves_same fun hs => absurd hs hstep)
  stopTimeout := fun hI => hI.frame rfl rfl rfl
  startOutCard := fun k hI hdouble => hI.outside (by simp [hdouble]) rfl rfl rfl
  cutBack := fun pos hI => hI.frame rfl rfl rfl

lemma trickInv_new : TrickInv {} {} where
  early := fun _ => rfl
  fresh := fun _ _ => rfl
  table := fun hs => absurd hs (by simp)

/-- The code and the history agree on who leads. -/
lemma TrickInv.lead_iff {r : Room} {h : History} (hI : TrickInv r h)
    (hstep : r.logicStep = .outCard) : lastCards r = [] ↔ Leads h r.outCardPos := by
  obtain ⟨hmoves, hempty⟩ | ⟨p, cards, passed, htrick, ht⟩ := hI.table hstep
  · refine iff_of_true (by simp [lastCards, hempty]) ?_
    intro p cards passed hsome
    rw [hmoves] at hsome
    exact absurd hsome (by simp [trick])
  · exact ht.lead_iff htrick

/-! ### The rules -/

/-- The seat in turn passes at the very first lead of a deal. -/
def FirstLeadPass (r : Room) (a : Attempt) : Prop :=
  a.op = .outCardPass ∧ a.pos = r.outCardPos ∧ r.outCards = []

/-- At the first lead the code takes the length of `nil`. -/
lemma handle_firstLeadPass {r : Room} (k : Tick) {a : Attempt} (hstep : r.logicStep = .outCard)
    (ha : FirstLeadPass r a) : handle r k a = .error (incOperationSeq r) := by
  obtain ⟨hop, hpos, hempty⟩ := ha
  simp [handle, onPlayerOperation, hstep, onPlayerOperationOutCard, hop, hpos, incOperationSeq,
    hempty]

/-- At a later lead the pass is turned down. -/
lemma handle_leadingPass {r : Room} (k : Tick) {a : Attempt} (hstep : r.logicStep = .outCard)
    (hop : a.op = .outCardPass) (hpos : a.pos = r.outCardPos) (hlead : lastCards r = [])
    (hne : r.outCards ≠ []) : handle r k a = .ok (incOperationSeq r) := by
  have hlast := List.getLast?_eq_some_getLast hne
  have hcards : (r.outCards.getLast hne).cards = [] := by simpa [lastCards, hlast] using hlead
  simp [handle, onPlayerOperation, hstep, onPlayerOperationOutCard, hop, hpos, incOperationSeq,
    hlast, hcards]

/-- A play that is accepted obeys the rules. -/
lemma TrickInv.accepted {r : Room} {h : History} (hI : TrickInv r h) {k : Tick} {a : Attempt}
    (hstep : r.logicStep = .outCard) {seat : Seat} {cards : List ℤ}
    (hout : (handle r k a).room.outCards = r.outCards ++ [{ cards := cards, pos := some seat }]) :
    seat = r.outCardPos ∧ a.pos = seat ∧ a.op = .outCard ∧ a.cards = some cards ∧
      (cards : Multiset ℤ) ≤ (r.hands seat : Multiset ℤ) ∧
      ∃ tp, matchPockerType (tanslateCardsToValues cards) = some tp ∧ tp.bFind = true ∧
        (¬ Leads h seat → ∃ p last passed tpB, trick h.moves = some (p, last, passed) ∧
          matchPockerType (tanslateCardsToValues last) = some tpB ∧
          (getMaxPockerType tp tpB).1 = true ∧ 0 < (getMaxPockerType tp tpB).2) := by
  obtain heq | ⟨cards', tp, hpos, hop, hcards, -, hhas, htp, hfind, hbeats, heq⟩ |
    ⟨last, -, -, -, -, heq⟩ := outCard_cases r k a hstep
  · rw [heq] at hout
    exact absurd hout (by simp [incOperationSeq])
  · rw [heq, (playCards_fields _ _ _ _ _).2.1] at hout
    have hentry := List.append_cancel_left hout
    simp only [List.cons.injEq, OutCardInfo.mk.injEq, Option.some.injEq, and_true] at hentry
    obtain ⟨rfl, rfl⟩ := hentry
    refine ⟨hpos, rfl, hop, hcards, ?_, tp, htp, hfind, ?_⟩
    · rw [← Multiset.coe_eq_coe.mpr (removeCards_perm hhas), ← Multiset.coe_add]
      exact Multiset.le_add_right _ _
    · intro hnot
      have hlast : lastCards r ≠ [] := by
        intro hlast
        rw [hpos] at hnot
        exact hnot ((hI.lead_iff hstep).mp hlast)
      obtain ⟨-, hempty⟩ | ⟨p, last, passed, htrick, ht⟩ := hI.table hstep
      · exact absurd (by simp [lastCards, hempty]) hlast
      · obtain ⟨tpB, htpB, hmore⟩ := hbeats hlast
        rw [ht.lastCards_eq hlast] at htpB
        exact ⟨p, last, passed, tpB, htrick, htpB, hmore⟩
  · rw [heq, passTurn] at hout
    split_ifs at hout
    · have hentry := List.append_cancel_left hout
      exact absurd hentry (by simp)
    · exact absurd hout (by simp [logicStopTimeout, logicStartStep, incOperationSeq])

/-- In every run, at every moment of the play phase and for every operation: the rules are kept if
and only if the operation is not a pass at the very first lead of the deal.

**Proof sketch.** The last entry of the play list is the last play until both other seats have
passed, and the empty mark afterwards; so an empty entry or list means that the seat in turn
leads. A play is accepted after the code has checked the seat, the hand, the type and the play to
beat. A leading pass is turned down by the test for an empty entry, which fails on an empty
list. -/
theorem trickRules_iff {w : Room × History} (h : Plays (fun _ _ => True) w)
    (hstep : w.1.logicStep = .outCard) (k : Tick) (a : Attempt) :
    TrickRules w k a ↔ ¬ FirstLeadPass w.1 a := by
  have hI := ((trickInv_kept _).plays trickInv_new h).2
  constructor
  · intro hrules hfirst
    have hlead : Leads w.2 a.pos := by
      rw [hfirst.2.1, ← hI.lead_iff hstep]
      simp [lastCards, hfirst.2.2]
    have hok := hrules.leadingPass hfirst.1 hfirst.2.1 hlead
    rw [handle_firstLeadPass k hstep hfirst] at hok
    exact absurd hok (by simp)
  · intro hfirst
    refine ⟨fun seat cards hout => hI.accepted hstep hout, hI.lead_iff hstep, ?_⟩
    intro hop hpos hlead
    rw [hpos, ← hI.lead_iff hstep] at hlead
    exact handle_leadingPass k hstep hop hpos hlead fun hempty => hfirst ⟨hop, hpos, hempty⟩

/-! ### Runs -/

/-- A pool that gives the first seat the pairs of three to queen as its hand and base cards. -/
def pairsPool : List ℤ :=
  let pairs := (List.range' 1 10).map (fun value => (16 + value : ℤ)) ++
    (List.range' 1 10).map fun value => (32 + value : ℤ)
  pairs.take 17 ++ initPoker.filter (fun card => card ∉ pairs) ++ pairs.drop 17

/-- That pool, at a time. -/
def pairsAt (now : ℕ) : Tick := ⟨now, pairsPool, by decide +kernel⟩

/-- A deal in which the first seat calls three points, the others do not grab, and the first seat
is asked to play. -/
def toPlay : List (Tick × Event) :=
  [(pairsAt 0, .start), (pairsAt 411, .timer), (pairsAt 822, .timer),
    (pairsAt 823, .operation 0 .callPoints (some 3) none), (pairsAt 834, .timer),
    (pairsAt 835, .operation 1 .grabLandLordPass none none), (pairsAt 846, .timer),
    (pairsAt 847, .operation 2 .grabLandLordPass none none), (pairsAt 858, .timer),
    (pairsAt 869, .timer), (pairsAt 1370, .timer), (pairsAt 1381, .timer)]

instance (w : Room × History) (e : Tick × Event) :
    Decidable (Meets (fun _ _ => True) w.1 e) :=
  isTrue fun _ _ _ => trivial

/-- The first seat plays a three, and the other two pass: the rules are kept when it passes as the
leader. -/
theorem trickRules_of_lead : ∃ w, Plays (fun _ _ => True) w ∧ w.1.logicStep = .outCard ∧
    w.1.outCards ≠ [] ∧ lastCards w.1 = [] ∧ w.1.outCardPos = 0 ∧
    TrickRules w (pairsAt 1500) ⟨0, .outCardPass, none, none⟩ := by
  have hexec : ((Runs.exec watchStep (fun w e => Meets (fun _ _ => True) w.1 e) ({}, {}) (toPlay ++
      [(pairsAt 1382, .operation 0 .outCard none (some [17])), (pairsAt 1393, .timer),
        (pairsAt 1394, .operation 1 .outCardPass none none), (pairsAt 1405, .timer),
        (pairsAt 1406, .operation 2 .outCardPass none none), (pairsAt 1417, .timer)])).any
      fun w => w.1.logicStep == .outCard && w.1.outCards != [] && lastCards w.1 == [] &&
        w.1.outCardPos == 0) = true := by
    decide +kernel
  obtain ⟨w, hrun, hw⟩ := (Option.any_eq_true _ _).mp hexec
  simp only [Bool.and_eq_true, beq_iff_eq, bne_iff_ne] at hw
  obtain ⟨⟨⟨hstep, hne⟩, hlead⟩, hpos⟩ := hw
  have hplays : Plays (fun _ _ => True) w := Runs.reaches_of_exec _ .init hrun
  refine ⟨w, hplays, hstep, hne, hlead, hpos, ?_⟩
  exact (trickRules_iff hplays hstep _ _).mpr fun hfirst => hne hfirst.2.2

/-- The first seat passes at the very first lead: the code takes the length of `nil` and raises an
error. -/
theorem first_lead_pass_fails : ∃ w, Plays (fun _ _ => True) w ∧ w.1.logicStep = .outCard ∧
    Leads w.2 w.1.outCardPos ∧ (∃ r, handle w.1 (pairsAt 1382) ⟨w.1.outCardPos, .outCardPass, none,
      none⟩ = .error r) ∧
    ¬ TrickRules w (pairsAt 1382) ⟨w.1.outCardPos, .outCardPass, none, none⟩ := by
  have hexec : ((Runs.exec watchStep (fun w e => Meets (fun _ _ => True) w.1 e) ({}, {})
      toPlay).any fun w => w.1.logicStep == .outCard && w.1.outCards == []) = true := by
    decide +kernel
  obtain ⟨w, hrun, hw⟩ := (Option.any_eq_true _ _).mp hexec
  simp only [Bool.and_eq_true, beq_iff_eq] at hw
  have hplays : Plays (fun _ _ => True) w := Runs.reaches_of_exec _ .init hrun
  have hI := ((trickInv_kept _).plays trickInv_new hplays).2
  have hlead : Leads w.2 w.1.outCardPos :=
    (hI.lead_iff hw.1).mp (by simp [lastCards, hw.2])
  have herror := handle_firstLeadPass (pairsAt 1382)
    (a := ⟨w.1.outCardPos, .outCardPass, none, none⟩) hw.1 ⟨rfl, rfl, hw.2⟩
  refine ⟨w, hplays, hw.1, hlead, ⟨_, herror⟩, ?_⟩
  intro hrules
  have hok := hrules.leadingPass rfl rfl hlead
  rw [herror] at hok
  exact absurd hok (by simp)

end Ddz3
