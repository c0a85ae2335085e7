import JsmjServer.Lib.Runs
import JsmjServer.Mahjong.Table

set_option relaxedAutoImplicit false
set_option autoImplicit false

/-!
# What the manager of cancelled operations remembers

`mj_core/MJCancelMgr.lua` with all its arguments, for any positions, operations and tiles. What it
is to remember is said of the history of its calls: an operation is cancelled for a tile if it has
been added for the tile since it was last cleared. The class clears the tiles of an item but keeps
the item, and a query without a tile asks for the item only; and `clearPos` with an operation drops
all items of the position.

## Main definitions

* `Mahjong.CancelMgr` — the manager, with `addCancelOper`, `isCancelOper`, `clear`, `clearPos`.
* `Mahjong.CancelMgr.Call`, `Mahjong.CancelMgr.Recorded` — the histories, and what they record.
* `Mahjong.CancelMgr.Exact`, `Mahjong.CancelMgr.Untouched` — what is claimed.
* `Mahjong.CancelMgr.Harmless` — the condition on a call.

## Main results

* `Mahjong.CancelMgr.pass_memory_exact_iff` — the memory is exact along a history if and only if all
  its calls are harmless.
* `Mahjong.CancelMgr.ofSeats_addCancelOper`, `Mahjong.CancelMgr.ofSeats_clear`,
  `Mahjong.CancelMgr.ofSeats_clearSeat`, `Mahjong.CancelMgr.ofSeats_clearPos`,
  `Mahjong.CancelMgr.isCancelOper_ofSeats` — the manager of a table is this one.
-/

namespace Mahjong

universe u

/-- `MJCancelMgr`: for each position the list of its items, an item with the tiles of an
operation. -/
structure CancelMgr (Pos Oper Card : Type u) where
  cancelMap : Pos → Option (List (Oper × List Card))

namespace CancelMgr

variable {Pos Oper Card : Type u} [DecidableEq Pos] [DecidableEq Oper]

/-- `MJCancelMgr:ctor`. -/
def new : CancelMgr Pos Oper Card := ⟨fun _ => none⟩

/-- `MJCancelMgr:getCancelItem`. -/
def getCancelItem (m : CancelMgr Pos Oper Card) (pos : Pos) (oper : Oper) :
    Option (Oper × List Card) :=
  (m.cancelMap pos).bind fun items => items.find? fun item => item.1 = oper

/-- Add a tile to the first item of an operation, or to a new one at the end. Without a tile the
item is made, and nothing is added to it. -/
def addCard (oper : Oper) (card : Option Card) :
    List (Oper × List Card) → List (Oper × List Card)
  | [] => [(oper, card.toList)]
  | item :: items =>
    if item.1 = oper then (item.1, item.2 ++ card.toList) :: items
    else item :: addCard oper card items

/-- `MJCancelMgr:addCancelOper`. -/
def addCancelOper (m : CancelMgr Pos Oper Card) (pos : Pos) (oper : Oper) (card : Option Card) :
    CancelMgr Pos Oper Card :=
  ⟨Function.update m.cancelMap pos (some (addCard oper card ((m.cancelMap pos).getD [])))⟩

/-- `MJCancelMgr:isCancelOper`; without a tile it is asked whether there is an item. -/
def isCancelOper [DecidableEq Card] (m : CancelMgr Pos Oper Card) (pos : Pos) (oper : Oper)
    (card : Option Card) : Bool :=
  match m.getCancelItem pos oper, card with
  | some item, some card => item.2.contains card
  | some _, none => true
  | none, _ => false

/-- `CancelItem:clear` on the items of a position that `clear` goes through. -/
def clearItems (oper : Option Oper) (items : List (Oper × List Card)) :
    List (Oper × List Card) :=
  items.map fun item => if oper = none ∨ oper = some item.1 then (item.1, []) else item

/-- `MJCancelMgr:clear`. With an operation but no position it finds nothing to clear. -/
def clear (m : CancelMgr Pos Oper Card) (pos : Option Pos) (oper : Option Oper) :
    CancelMgr Pos Oper Card :=
  match pos, oper with
  | none, none => ⟨fun p => (m.cancelMap p).map (clearItems none)⟩
  | none, some _ => m
  | some p, oper => ⟨Function.update m.cancelMap p ((m.cancelMap p).map (clearItems oper))⟩

/-- `MJCancelMgr:clearPos`: whatever the operation, the items of the position are dropped after
some have been cleared. -/
def clearPos (m : CancelMgr Pos Oper Card) (pos : Pos) (oper : Option Oper) :
    CancelMgr Pos Oper Card :=
  match m.cancelMap pos with
  | none => m
  | some items =>
    let cleared := Function.update m.cancelMap pos (some (clearItems oper items))
    ⟨Function.update cleared pos none⟩

/-! ### Histories -/

/-- The calls that change the manager. -/
inductive Call (Pos Oper Card : Type u)
  | addCancelOper (pos : Pos) (oper : Oper) (card : Option Card)
  | clear (pos : Option Pos) (oper : Option Oper)
  | clearPos (pos : Pos) (oper : Option Oper)

/-- The manager after a call. -/
def call (m : CancelMgr Pos Oper Card) : Call Pos Oper Card → CancelMgr Pos Oper Card
  | .addCancelOper pos oper card => m.addCancelOper pos oper card
  | .clear pos oper => m.clear pos oper
  | .clearPos pos oper => m.clearPos pos oper

/-- The manager after a history. -/
def after (h : List (Call Pos Oper Card)) : CancelMgr Pos Oper Card := h.foldl call new

/-- The arguments of a call that clears cover an operation of a position: an argument that is left
out covers everything. -/
def Call.Covers (pos : Pos) (oper : Oper) : Call Pos Oper Card → Prop
  | .addCancelOper _ _ _ => False
  | .clear p o => (p = none ∨ p = some pos) ∧ (o = none ∨ o = some oper)
  | .clearPos p o => p = pos ∧ (o = none ∨ o = some oper)

/-- The operation has been added for the tile, or for any when none is given, since the last call
that covers it. -/
def Recorded (h : List (Call Pos Oper Card)) (pos : Pos) (oper : Oper) (card : Option Card) :
    Prop :=
  ∃ earlier added later, h = earlier ++ .addCancelOper pos oper added :: later ∧
    (card = none ∨ added = card) ∧ ∀ c ∈ later, ¬c.Covers pos oper

/-- The answers to all queries after a history are those of the history. -/
def Exact [DecidableEq Card] (h : List (Call Pos Oper Card)) : Prop :=
  ∀ pos oper card, (after h).isCancelOper pos oper card = true ↔ Recorded h pos oper card

/-- A call of `clearPos` with an operation leaves the other operations of the position alone. -/
def Untouched [DecidableEq Card] (m : CancelMgr Pos Oper Card) : Call Pos Oper Card → Prop
  | .clearPos pos (some oper) => ∀ oper' card, oper' ≠ oper →
      (m.clearPos pos (some oper)).isCancelOper pos oper' card = m.isCancelOper pos oper' card
  | _ => True

/-- A call that clears finds no item that it covers, unless it is `clearPos`; that one finds no item
of the position that it does not cover. -/
def Harmless (m : CancelMgr Pos Oper Card) : Call Pos Oper Card → Prop
  | .addCancelOper _ _ _ => True
  | .clear pos oper => ∀ p o, (Call.clear pos oper : Call Pos Oper Card).Covers p o →
      m.getCancelItem p o = none
  | .clearPos pos oper => ∀ o, ¬(Call.clearPos pos oper : Call Pos Oper Card).Covers pos o →
      m.getCancelItem pos o = none

/-! ### The items after a call -/

/-- The tiles of an operation's item, if there is an item. -/
def tiles (m : CancelMgr Pos Oper Card) (pos : Pos) (oper : Oper) : Option (List Card) :=
  (m.getCancelItem pos oper).map Prod.snd

section Items

variable {m : CancelMgr Pos Oper Card} {p pos : Pos} {o oper : Oper} {card : Option Card}

omit [DecidableEq Pos] in
lemma tiles_eq_none : m.tiles p o = none ↔ m.getCancelItem p o = none := by simp [tiles]

omit [DecidableEq Pos] in
lemma isCancelOper_iff [DecidableEq Card] : m.isCancelOper p o card = true ↔
    ∃ l, m.tiles p o = some l ∧ (card = none ∨ ∃ c ∈ l, card = some c) := by
  unfold isCancelOper tiles
  cases m.getCancelItem p o with
  | none => simp
  | some item => cases card <;> simp

lemma find?_addCard (items : List (Oper × List Card)) :
    ((addCard oper card items).find? fun item => item.1 = o).map Prod.snd =
      if o = oper then
        some (((items.find? fun item => item.1 = o).map Prod.snd).getD [] ++ card.toList)
      else (items.find? fun item => item.1 = o).map Prod.snd := by
  induction items with
  | nil => by_cases ho : o = oper <;> simp [addCard, ho, eq_comm]
  | cons item items ih =>
    by_cases hitem : item.1 = oper
    · by_cases ho : o = oper
      · simp [addCard, hitem, ho]
      · simp [addCard, hitem, ho, Ne.symm ho]
    · by_cases ho : item.1 = o
      · have hne : o ≠ oper := fun h => hitem (ho.trans h)
        simp [addCard, ho, hne]
      · simpa [addCard, hitem, ho] using ih

/-- An addition makes the item of the operation or adds to it. -/
lemma tiles_addCancelOper : (m.addCancelOper pos oper card).tiles p o =
    if p = pos ∧ o = oper then some ((m.tiles p o).getD [] ++ card.toList) else m.tiles p o := by
  unfold tiles getCancelItem addCancelOper
  by_cases hp : p = pos
  · subst hp
    simp only [Function.update_self, Option.bind_some, find?_addCard]
    cases m.cancelMap p <;> simp
  · simp only [Function.update_of_ne hp, hp, false_and, if_false]

lemma find?_clearItems (oper : Option Oper) (items : List (Oper × List Card)) :
    ((clearItems oper items).find? fun item => item.1 = o).map Prod.snd =
      ((items.find? fun item => item.1 = o).map Prod.snd).map fun l =>
        if oper = none ∨ oper = some o then [] else l := by
  induction items with
  | nil => rfl
  | cons item items ih =>
    rw [clearItems, List.map_cons, List.find?_cons, List.find?_cons]
    by_cases ho : item.1 = o
    · subst ho
      by_cases hoper : oper = none ∨ oper = some item.1 <;> simp [hoper]
    · have hkey : (if oper = none ∨ oper = some item.1 then (item.1, []) else item).1 = item.1 := by
        split_ifs <;> rfl
      rw [hkey]
      simpa [ho, clearItems] using ih

/-- What `clear` covers loses its tiles and keeps its item; with an operation only nothing is
lost. -/
lemma tiles_clear (pos : Option Pos) (oper : Option Oper) : (m.clear pos oper).tiles p o =
    if (pos = none ∧ oper = none) ∨ (pos = some p ∧ (oper = none ∨ oper = some o)) then
      (m.tiles p o).map fun _ => []
    else m.tiles p o := by
  unfold tiles getCancelItem clear
  cases pos with
  | none =>
    cases oper with
    | none =>
      cases hm : m.cancelMap p with
      | none => simp [hm]
      | some items => simp [hm, find?_clearItems, Function.comp_def]
    | some oper => simp
  | some pos =>
    by_cases hp : p = pos
    · subst hp
      simp only [Function.update_self]
      cases m.cancelMap p with
      | none => simp
      | some items =>
        rw [Option.map_some, Option.bind_some, Option.bind_some, find?_clearItems]
        by_cases h : oper = none ∨ oper = some o <;> simp [h, Function.comp_def]
    · have hne : pos ≠ p := Ne.symm hp
      simp [Function.update_of_ne hp, hne]

lemma tiles_clear_eq_none {pos : Option Pos} {oper : Option Oper} :
    (m.clear pos oper).tiles p o = none ↔ m.tiles p o = none := by
  rw [tiles_clear]
  split_ifs <;> simp

lemma tiles_clear_of_not_covers {pos : Option Pos} {oper : Option Oper}
    (h : ¬(Call.clear pos oper : Call Pos Oper Card).Covers p o) :
    (m.clear pos oper).tiles p o = m.tiles p o := by
  rw [tiles_clear, if_neg]
  rintro (⟨rfl, rfl⟩ | ⟨rfl, ho⟩)
  · exact h ⟨.inl rfl, .inl rfl⟩
  · exact h ⟨.inr rfl, ho⟩

lemma tiles_clearPos (oper : Option Oper) :
    (m.clearPos pos oper).tiles p o = if p = pos then none else m.tiles p o := by
  unfold tiles getCancelItem clearPos
  cases hm : m.cancelMap pos with
  | none =>
    by_cases hp : p = pos
    · simp [hp, hm]
    · simp [hp]
  | some items =>
    by_cases hp : p = pos
    · simp [hp]
    · simp [hp]

end Items

/-! ### One call -/

section Step

variable {h : List (Call Pos Oper Card)} {e : Call Pos Oper Card} {p : Pos} {o : Oper}
  {card : Option Card}

lemma after_append : after (h ++ [e]) = (after h).call e := by simp [after]

omit [DecidableEq Pos] [DecidableEq Oper] in
/-- What a history and one more call record. -/
lemma recorded_append : Recorded (h ++ [e]) p o card ↔
    (∃ added, e = .addCancelOper p o added ∧ (card = none ∨ added = card)) ∨
      Recorded h p o card ∧ ¬e.Covers p o := by
  constructor
  · rintro ⟨earlier, added, later, heq, hcard, hlater⟩
    rcases List.eq_nil_or_concat later with rfl | ⟨later, e', rfl⟩
    · obtain ⟨-, he⟩ := List.append_inj' heq rfl
      exact .inl ⟨added, List.singleton_inj.mp he, hcard⟩
    · rw [List.concat_eq_append] at heq hlater
      rw [← List.cons_append, ← List.append_assoc] at heq
      obtain ⟨rfl, he⟩ := List.append_inj' heq rfl
      obtain rfl := List.singleton_inj.mp he
      exact .inr ⟨⟨earlier, added, later, rfl, hcard, fun c hc => hlater c (by simp [hc])⟩,
        hlater e (by simp)⟩
  · rintro (⟨added, rfl, hcard⟩ | ⟨⟨earlier, added, later, rfl, hcard, hlater⟩, he⟩)
    · exact ⟨h, added, [], rfl, hcard, by simp⟩
    · refine ⟨earlier, added, later ++ [e], by simp, hcard, fun c hc => ?_⟩
      rcases List.mem_append.mp hc with hc | hc
      · exact hlater c hc
      · rw [List.mem_singleton.mp hc]
        exact he

variable [DecidableEq Card]

/-- An addition is remembered. -/
lemma exact_addCancelOper (hex : Exact h) (pos : Pos) (oper : Oper) (added : Option Card) :
    Exact (h ++ [.addCancelOper pos oper added]) := by
  intro p o card
  have hold := hex p o card
  rw [isCancelOper_iff] at hold
  rw [isCancelOper_iff, after_append, recorded_append, call, tiles_addCancelOper, ← hold]
  by_cases hsame : p = pos ∧ o = oper
  · obtain ⟨rfl, rfl⟩ := hsame
    cases card with
    | none => simp [Call.Covers]
    | some c => cases (after h).tiles p o <;> simp [Call.Covers, or_comm]
  · have hother : ∀ added', (Call.addCancelOper pos oper added : Call Pos Oper Card) ≠
        .addCancelOper p o added' := by
      rintro added' heq
      injection heq with hp ho
      exact hsame ⟨hp.symm, ho.symm⟩
    simp [hsame, hother, Call.Covers]

/-- `clear` is remembered if and only if there was nothing to clear: an item that is left without
tiles still answers the query without a tile. -/
lemma exact_clear_iff (hex : Exact h) (pos : Option Pos) (oper : Option Oper) :
    Exact (h ++ [.clear pos oper]) ↔ (after h).Harmless (.clear pos oper) := by
  constructor
  · intro hex' p o hcov
    by_contra hitem
    have hkept : ((after h).clear pos oper).tiles p o ≠ none := by
      rw [Ne, tiles_clear_eq_none, tiles_eq_none]
      exact hitem
    obtain ⟨l, hl⟩ := Option.ne_none_iff_exists'.mp hkept
    have hrec := (hex' p o none).mp (by
      rw [isCancelOper_iff, after_append]
      exact ⟨l, hl, .inl rfl⟩)
    rcases recorded_append.mp hrec with ⟨added, hadd, -⟩ | ⟨-, hnot⟩
    · cases hadd
    · exact hnot hcov
  · intro hharm p o card
    rw [isCancelOper_iff, after_append, recorded_append, call]
    by_cases hcov : (Call.clear pos oper : Call Pos Oper Card).Covers p o
    · have hnone : ((after h).clear pos oper).tiles p o = none :=
        tiles_clear_eq_none.mpr (tiles_eq_none.mpr (hharm p o hcov))
      simp [hnone, hcov]
    · rw [tiles_clear_of_not_covers hcov, ← isCancelOper_iff, hex p o card]
      simp [hcov]

/-- `clearPos` is remembered if and only if there was no item of the position that it does not
cover. -/
lemma exact_clearPos_iff (hex : Exact h) (pos : Pos) (oper : Option Oper) :
    Exact (h ++ [.clearPos pos oper]) ↔ (after h).Harmless (.clearPos pos oper) := by
  constructor
  · intro hex' o hcov
    by_contra hitem
    have hrec := (hex pos o none).mp (by
      obtain ⟨l, hl⟩ := Option.ne_none_iff_exists'.mp (tiles_eq_none.not.mpr hitem)
      exact isCancelOper_iff.mpr ⟨l, hl, .inl rfl⟩)
    have hlost := (hex' pos o none).mpr (recorded_append.mpr (.inr ⟨hrec, hcov⟩))
    rw [isCancelOper_iff, after_append, call] at hlost
    simp [tiles_clearPos] at hlost
  · intro hharm p o card
    rw [isCancelOper_iff, after_append, recorded_append, call, tiles_clearPos]
    by_cases hp : p = pos
    · subst hp
      by_cases hcov : (Call.clearPos p oper : Call Pos Oper Card).Covers p o
      · simp [hcov]
      · have hnone := tiles_eq_none.mpr (hharm o hcov)
        rw [if_pos rfl, ← hex p o card, isCancelOper_iff, hnone]
        simp
    · have hcov : ¬(Call.clearPos pos oper : Call Pos Oper Card).Covers p o :=
        fun hcov => hp hcov.1.symm
      rw [if_neg hp, ← isCancelOper_iff, hex p o card]
      simp [hcov]

/-- A harmless call of `clearPos` takes nothing from the other operations. -/
lemma untouched_of_harmless {m : CancelMgr Pos Oper Card} (hharm : m.Harmless e) :
    m.Untouched e := by
  cases e with
  | addCancelOper pos oper card => exact trivial
  | clear pos oper => exact trivial
  | clearPos pos oper =>
    cases oper with
    | none => exact trivial
    | some oper =>
      intro o card ho
      have hnone := tiles_eq_none.mpr (hharm o (by simp [Call.Covers, Ne.symm ho]))
      rw [Bool.eq_iff_iff, isCancelOper_iff, isCancelOper_iff, tiles_clearPos, if_pos rfl, hnone]

end Step

/-- **The memory of passes**: along a history the answers to all queries are those of the history,
and no call of `clearPos` touches an operation that it does not name, if and only if all calls are
harmless.

**Proof sketch.** While the answers are exact, a call keeps them so if and only if it is harmless:
an item that is cleared answers the query without a tile (`exact_clear_iff`), and an item that is
dropped answers none (`exact_clearPos_iff`). -/
theorem pass_memory_exact_iff [DecidableEq Card] (calls : List (Call Pos Oper Card)) :
    Runs.Along (fun h e => h ++ [e])
        (fun h e => Exact (h ++ [e]) ∧ (after h).Untouched e) [] calls ↔
      Runs.Along (fun h e => h ++ [e]) (fun h e => (after h).Harmless e) [] calls := by
  have hiff : ∀ (h : List (Call Pos Oper Card)) e, Exact h →
      (Exact (h ++ [e]) ∧ (after h).Untouched e ↔ (after h).Harmless e) := by
    intro h e hex
    have hexact : Exact (h ++ [e]) ↔ (after h).Harmless e := by
      cases e with
      | addCancelOper pos oper card =>
        exact iff_of_true (exact_addCancelOper hex pos oper card) trivial
      | clear pos oper => exact exact_clear_iff hex pos oper
      | clearPos pos oper => exact exact_clearPos_iff hex pos oper
    rw [hexact, and_iff_left_of_imp untouched_of_harmless]
  refine Runs.along_congr (I := Exact) (fun h e hex hharm => ((hiff h e hex).mpr hharm).1) hiff ?_
  intro p o card
  simp [after, new, isCancelOper, getCancelItem, Recorded]

/-- A pass is forgotten by `clear`, and the query without a tile still finds it. -/
theorem cleared_pass_remembered : ¬∀ calls : List (Call ℕ ℕ ℕ),
    Runs.Along (fun h e => h ++ [e]) (fun h e => Exact (h ++ [e]) ∧ (after h).Untouched e)
      [] calls := by
  intro h
  have hex := (h [.addCancelOper 1 1 (some 5), .clear none none] [.addCancelOper 1 1 (some 5)]
    (.clear none none) (List.prefix_refl _)).1
  have hrec := (hex 1 1 none).mp (by decide)
  rcases recorded_append.mp hrec with ⟨added, hadd, -⟩ | ⟨-, hnot⟩
  · cases hadd
  · exact hnot ⟨.inl rfl, .inl rfl⟩

/-! ### The manager of a table -/

/-- An item as a pair. -/
def ofItem (item : CancelItem) : Mahjong.Oper × List ℕ := (item.oper, item.cardList)

/-- The manager of a table, whose positions are the seats. -/
def ofSeats (m : MJCancelMgr) : CancelMgr Seat Mahjong.Oper ℕ :=
  ⟨fun pos => (m.cancelMap pos).map fun items => items.map ofItem⟩

section Seats

variable (m : MJCancelMgr) (pos : Seat) (oper : Mahjong.Oper) (card : ℕ)

lemma addCard_map_ofItem (items : List CancelItem) :
    (MJCancelMgr.addCard oper card items).map ofItem =
      addCard oper (some card) (items.map ofItem) := by
  induction items with
  | nil => rfl
  | cons item items ih =>
    by_cases hitem : item.oper = oper
    · simp [MJCancelMgr.addCard, addCard, ofItem, hitem]
    · simp [MJCancelMgr.addCard, addCard, ofItem, hitem, ih]

lemma clearItems_map_ofItem (items : List CancelItem) :
    (MJCancelMgr.clearItems items).map ofItem = clearItems none (items.map ofItem) := by
  simp [MJCancelMgr.clearItems, clearItems, ofItem, Function.comp_def]

lemma ofSeats_addCancelOper :
    ofSeats (m.addCancelOper pos oper card) = (ofSeats m).addCancelOper pos oper (some card) := by
  unfold ofSeats MJCancelMgr.addCancelOper addCancelOper
  congr 1
  funext p
  by_cases hp : p = pos
  · subst hp
    cases hm : m.cancelMap p <;> simp [hm, addCard_map_ofItem, addCard]
  · simp [hp]

lemma ofSeats_clear : ofSeats m.clear = (ofSeats m).clear none none := by
  unfold ofSeats MJCancelMgr.clear clear
  congr 1
  funext p
  cases hm : m.cancelMap p <;> simp [hm, clearItems_map_ofItem]

lemma ofSeats_clearSeat : ofSeats (m.clearSeat pos) = (ofSeats m).clear (some pos) none := by
  unfold ofSeats MJCancelMgr.clearSeat clear
  congr 1
  funext p
  by_cases hp : p = pos
  · subst hp
    cases hm : m.cancelMap p <;> simp [hm, clearItems_map_ofItem]
  · simp [hp]

lemma ofSeats_clearPos : ofSeats (m.clearPos pos) = (ofSeats m).clearPos pos none := by
  unfold ofSeats MJCancelMgr.clearPos clearPos
  cases hm : m.cancelMap pos with
  | none =>
    simp only [hm, Option.map_none]
    congr 1
    funext p
    by_cases hp : p = pos
    · simp [hp, hm]
    · simp [hp]
  | some items =>
    simp only [hm, Option.map_some]
    congr 1
    funext p
    by_cases hp : p = pos
    · simp [hp]
    · simp [hp]

/-- The manager of a table answers as this one. -/
lemma isCancelOper_ofSeats :
    (ofSeats m).isCancelOper pos oper (some card) = m.isCancelOper pos oper card := by
  unfold isCancelOper MJCancelMgr.isCancelOper getCancelItem MJCancelMgr.getCancelItem ofSeats
  cases hm : m.cancelMap pos with
  | none => simp [hm]
  | some items =>
    have hfind : (items.map ofItem).find? (fun item => item.1 = oper) =
        (items.find? fun item => item.oper = oper).map ofItem := by
      rw [List.find?_map]
      rfl
    simp only [hm, Option.map_some, Option.bind_some, hfind]
    cases items.find? fun item => item.oper = oper <;> rfl

end Seats

end CancelMgr

end Mahjong
