import JsmjServer.Mahjong.Const
import Mathlib.Data.List.Sort
import Mathlib.Data.Fintype.Basic
import Mathlib.Data.Fintype.Card
import Mathlib.Data.Fin.Basic
import Mathlib.Data.Finset.Max
import Mathlib.Data.List.FinRange
import Mathlib.Logic.Function.Basic
import JsmjServer.Lib.Sizes

set_option relaxedAutoImplicit false
set_option autoImplicit false

/-!
# The claims of several seats on one tile

`mj_core/PlayerGrabMgr.lua`: which operations each seat may still choose, which it has chosen,
whether a decision must wait for the others, and which choice prevails.

## Main definitions

* `Mahjong.GrabItem`, `Mahjong.CanGrabMgr`, `Mahjong.PlayerGrabMgr` — the three classes.
* `Mahjong.PlayerGrabMgr.Round` — offers and choices of one round of claims.
* `Mahjong.PlayerGrabMgr.Round.after` — the manager after some seats have submitted.

## Main results

* `Mahjong.CanGrabMgr.getPowestOper_spec` — the strongest operation of a manager.
* `Mahjong.PlayerGrabMgr.needWait_eq_false_iff` — when the decision need not wait.
* `Mahjong.PlayerGrabMgr.Round.decides_strongest` — every order of submission ends with the
  strongest choice, and it is reached unless a kept offer to play a tile blocks it.

## Design

Positions `1 .. 4` are `Seat := Fin 4`; a game of fewer players leaves the last seats without
items. Lua compares levels of operations found in `operLevel`; for any other operation the
comparison raises an error, which is the result `none` here.
-/

namespace Mahjong

/-- A position at the table; seat `i` is the position `i + 1` of the source. -/
abbrev Seat := Fin 4

instance instLawfulBEqSeat : LawfulBEq Seat := inferInstance

/-- The seats in the order of their positions. -/
def seats : List Seat := List.finRange 4

/-- The operations by strength, strongest first. -/
def operLevel : List Oper :=
  [.hu, .peng, .mg, .ag, .mxg, .lChi, .mChi, .rChi, .play, .cancel]

/-- `table.keyof(operLevel, oper)`: the level of an operation, smaller for stronger. -/
def keyof (oper : Oper) : Option ℕ := operLevel.idxOf? oper

/-- The level of an operation of `operLevel`. -/
def level (oper : Oper) : ℕ := operLevel.idxOf oper

lemma keyof_eq_level {oper : Oper} (h : oper ∈ operLevel) : keyof oper = some (level oper) := by
  revert oper
  decide

lemma getElem_level {oper : Oper} (h : oper ∈ operLevel) :
    operLevel[level oper]? = some oper := by
  revert oper
  decide

lemma level_injOn {a b : Oper} (ha : a ∈ operLevel) (hb : b ∈ operLevel)
    (h : level a = level b) : a = b := by
  have hab := getElem_level ha
  rw [h, getElem_level hb] at hab
  exact (Option.some.inj hab).symm

/-- The levels follow the codes, so that the first of a sorted list is the strongest. -/
lemma level_le_level {a b : Oper} (ha : a ∈ operLevel) (hb : b ∈ operLevel)
    (h : a.code ≤ b.code) : level a ≤ level b := by
  have hall : ∀ a ∈ operLevel, ∀ b ∈ operLevel, a.code ≤ b.code → level a ≤ level b := by decide
  exact hall a ha b hb h

/-! ### The managers -/

/-- The operations of one seat, kept sorted by their codes, and the tile they are about. -/
structure GrabItem where
  pos : Seat
  operList : List Oper
  byteCard : Option ℕ

/-- `table.sort` of a list of operations by code. -/
def sortOpers (operList : List Oper) : List Oper :=
  operList.insertionSort fun a b => a.code ≤ b.code

namespace GrabItem

/-- `GrabItem:ctor`. -/
def new (pos : Seat) (operList : List Oper) (byteCard : Option ℕ) : GrabItem :=
  ⟨pos, sortOpers operList, byteCard⟩

/-- `GrabItem:setOperList`. -/
def setOperList (item : GrabItem) (operList : List Oper) : GrabItem :=
  { item with operList := sortOpers operList }

/-- `GrabItem:hasOper`. -/
def hasOper (item : GrabItem) (oper : Oper) : Bool := item.operList.contains oper

end GrabItem

/-- `CanGrabMgr`: at most one item for each seat, filed under its position. -/
structure CanGrabMgr where
  itemList : Seat → Option GrabItem
  pos_eq : ∀ {pos item}, itemList pos = some item → item.pos = pos

namespace CanGrabMgr

/-- `CanGrabMgr:ctor`. -/
def new : CanGrabMgr := ⟨fun _ => none, by simp⟩

/-- `CanGrabMgr:getItem`. -/
def getItem (m : CanGrabMgr) (pos : Seat) : Option GrabItem := m.itemList pos

/-- Put an item in the place of the seat's old one, or overwrite the fields of the old one. -/
def set (m : CanGrabMgr) (item : GrabItem) : CanGrabMgr where
  itemList := Function.update m.itemList item.pos (some item)
  pos_eq := by
    intro pos item' h
    by_cases hp : pos = item.pos
    · subst hp
      simp only [Function.update_self, Option.some.injEq] at h
      rw [h]
    · rw [Function.update_of_ne hp] at h
      exact m.pos_eq h

/-- `CanGrabMgr:addItem`. -/
def addItem (m : CanGrabMgr) (pos : Seat) (operList : List Oper) (byteCard : Option ℕ) :
    CanGrabMgr :=
  m.set (GrabItem.new pos operList byteCard)

/-- `CanGrabMgr:setCanOperList`. -/
def setCanOperList (m : CanGrabMgr) (pos : Seat) (operList : List Oper) (byteCard : Option ℕ) :
    CanGrabMgr :=
  match m.getItem pos with
  | some item => m.set { item.setOperList operList with byteCard := byteCard }
  | none => m.addItem pos operList byteCard

/-- `CanGrabMgr:delPlayer`: the seat's operations are removed, but the operation to play a tile
is kept. -/
def delPlayer (m : CanGrabMgr) (pos : Seat) : Bool × CanGrabMgr :=
  match m.getItem pos with
  | some item =>
    if item.hasOper .play then (true, m.set (item.setOperList [.play]))
    else (true, m.set (item.setOperList []))
  | none => (false, m)

/-- `CanGrabMgr:clear`. -/
def clear (m : CanGrabMgr) : CanGrabMgr where
  itemList := fun pos => (m.itemList pos).map fun item => item.setOperList []
  pos_eq := by
    intro pos item h
    obtain ⟨item', h', rfl⟩ := Option.map_eq_some_iff.mp h
    have hpos : item'.pos = pos := m.pos_eq h'
    exact hpos

/-- The operations recorded for a seat. -/
def opers (m : CanGrabMgr) (pos : Seat) : List Oper :=
  match m.getItem pos with
  | some item => item.operList
  | none => []

/-- `CanGrabMgr:getCount`: the number of seats with operations. -/
def getCount (m : CanGrabMgr) : ℕ := (seats.filter fun pos => m.opers pos ≠ []).length

/-- `CanGrabMgr:getPowestOper`. With one seat left it is the first of the seat's sorted
operations, with several the operation of the least level; `none` is Lua's `nil`. -/
def getPowestOper (m : CanGrabMgr) : Option Oper :=
  if m.getCount = 0 then some .null
  else if m.getCount = 1 then
    (seats.find? fun pos => m.opers pos ≠ []).bind fun pos => (m.opers pos).head?
  else
    let weightList := seats.flatMap fun pos => (m.opers pos).filterMap keyof
    weightList.min?.bind fun idx => operLevel[idx]?

/-! ### One manager -/

section Lemmas

variable {m : CanGrabMgr} {pos p : Seat} {l : List Oper} {c : Option ℕ}

lemma getItem_set (item : GrabItem) :
    (m.set item).getItem p = if p = item.pos then some item else m.getItem p := by
  simp only [getItem, set, Function.update_apply]

lemma opers_set (item : GrabItem) :
    (m.set item).opers p = if p = item.pos then item.operList else m.opers p := by
  unfold opers
  rw [getItem_set]
  split_ifs <;> rfl

@[simp] lemma opers_addItem :
    (m.addItem pos l c).opers p = if p = pos then sortOpers l else m.opers p := by
  rw [addItem, opers_set]
  rfl

@[simp] lemma opers_setCanOperList :
    (m.setCanOperList pos l c).opers p = if p = pos then sortOpers l else m.opers p := by
  unfold setCanOperList
  split
  · rename_i item h
    rw [opers_set]
    simp [GrabItem.setOperList, m.pos_eq h]
  · rw [opers_addItem]

/-- The item a seat has after its operations have been set. -/
lemma getItem_setCanOperList :
    (m.setCanOperList pos l c).getItem pos = some ⟨pos, sortOpers l, c⟩ := by
  unfold setCanOperList
  split
  · rename_i item h
    rw [getItem_set]
    simp [GrabItem.setOperList, m.pos_eq h]
  · rw [addItem, getItem_set]
    simp [GrabItem.new]

lemma getItem_setCanOperList_of_ne (h : p ≠ pos) :
    (m.setCanOperList pos l c).getItem p = m.getItem p := by
  unfold setCanOperList
  split
  · rename_i item hi
    rw [getItem_set, if_neg]
    simpa [GrabItem.setOperList, m.pos_eq hi] using h
  · rw [addItem, getItem_set, if_neg]
    simpa [GrabItem.new] using h

lemma opers_delPlayer : (m.delPlayer pos).2.opers p =
    if p = pos then (if .play ∈ m.opers pos then [.play] else []) else m.opers p := by
  unfold delPlayer
  split
  · rename_i item h
    have hopers : m.opers pos = item.operList := by rw [opers, h]
    have hmem : item.hasOper .play = true ↔ .play ∈ m.opers pos := by
      rw [hopers, GrabItem.hasOper, List.contains_iff_mem]
    by_cases hp : .play ∈ m.opers pos
    · rw [if_pos (hmem.mpr hp), opers_set]
      simp [GrabItem.setOperList, m.pos_eq h, hp, sortOpers]
    · rw [if_neg (fun h' => hp (hmem.mp h')), opers_set]
      simp [GrabItem.setOperList, m.pos_eq h, hp, sortOpers]
  · rename_i h
    have hopers : m.opers pos = [] := by rw [opers, h]
    by_cases hp : p = pos
    · subst hp
      simp [hopers]
    · simp [hp]

@[simp] lemma opers_clear : m.clear.opers p = [] := by
  unfold opers clear getItem
  cases h : m.itemList p with
  | none => simp [h]
  | some item => simp [h, GrabItem.setOperList, sortOpers]

end Lemmas

/-- The operations of a manager come from `operLevel` and are sorted. -/
structure Valid (m : CanGrabMgr) : Prop where
  drawn : ∀ p, ∀ o ∈ m.opers p, o ∈ operLevel
  sorted : ∀ p, (m.opers p).Pairwise fun a b => a.code ≤ b.code

section Valid

variable {m : CanGrabMgr}

/-- The sorted operations of a list of operations of `operLevel`. -/
lemma sortOpers_valid {l : List Oper} (h : ∀ o ∈ l, o ∈ operLevel) :
    (∀ o ∈ sortOpers l, o ∈ operLevel) ∧
      (sortOpers l).Pairwise fun a b => a.code ≤ b.code := by
  refine ⟨fun o ho => h o ((List.perm_insertionSort _ l).mem_iff.mp ho), ?_⟩
  have : Std.Total fun a b : Oper => a.code ≤ b.code := ⟨fun a b => Nat.le_total _ _⟩
  have : IsTrans Oper fun a b => a.code ≤ b.code := ⟨fun a b c => Nat.le_trans⟩
  exact List.pairwise_insertionSort _ l

lemma getPowestOper_of_empty (h : ∀ p, m.opers p = []) : m.getPowestOper = some .null := by
  have hcount : m.getCount = 0 := by simp [getCount, h]
  rw [getPowestOper, if_pos hcount]

/-- With one seat left, the strongest operation is the first one of the seat. -/
lemma getPowestOper_of_count_one (hv : m.Valid) (hc : m.getCount = 1) :
    ∃ o, m.getPowestOper = some o ∧ (∃ p, o ∈ m.opers p) ∧
      ∀ p, ∀ o' ∈ m.opers p, level o ≤ level o' := by
  obtain ⟨q, hq⟩ : ∃ q, (seats.filter fun pos => m.opers pos ≠ []) = [q] :=
    List.length_eq_one_iff.mp hc
  have honly : ∀ p, m.opers p ≠ [] ↔ p = q := by
    intro p
    have hmem : p ∈ (seats.filter fun pos => m.opers pos ≠ []) ↔ m.opers p ≠ [] := by
      simp [seats]
    rw [← hmem, hq, List.mem_singleton]
  have hfind : (seats.find? fun pos => m.opers pos ≠ []) = some q := by
    rw [← List.head?_filter, hq]
    rfl
  have hne : m.opers q ≠ [] := (honly q).mpr rfl
  obtain ⟨o, l, hl⟩ := List.exists_cons_of_ne_nil hne
  have hsorted := hv.sorted q
  have hdrawn := hv.drawn q
  rw [hl] at hsorted hdrawn
  refine ⟨o, ?_, ⟨q, by simp [hl]⟩, ?_⟩
  · rw [getPowestOper, if_neg (by omega), if_pos hc, hfind]
    simp [hl]
  · intro p o' ho'
    obtain rfl : p = q := (honly p).mp (List.ne_nil_of_mem ho')
    rw [hl] at ho'
    rcases List.mem_cons.mp ho' with rfl | hmem
    · exact le_rfl
    · exact level_le_level (hdrawn o (by simp)) (hdrawn o' ho')
        ((List.pairwise_cons.mp hsorted).1 o' hmem)

/-- With several seats left, the strongest operation is the one of the least level. -/
lemma getPowestOper_of_count_ne_one (hv : m.Valid) (h0 : m.getCount ≠ 0) (h1 : m.getCount ≠ 1) :
    ∃ o, m.getPowestOper = some o ∧ (∃ p, o ∈ m.opers p) ∧
      ∀ p, ∀ o' ∈ m.opers p, level o ≤ level o' := by
  have hmem : ∀ i, (i ∈ seats.flatMap fun pos => (m.opers pos).filterMap keyof) ↔
      ∃ p, ∃ o ∈ m.opers p, level o = i := by
    intro i
    simp only [List.mem_flatMap, List.mem_filterMap]
    constructor
    · rintro ⟨p, -, o, ho, hi⟩
      rw [keyof_eq_level (hv.drawn p o ho)] at hi
      exact ⟨p, o, ho, Option.some.inj hi⟩
    · rintro ⟨p, o, ho, rfl⟩
      exact ⟨p, by simp [seats], o, ho, keyof_eq_level (hv.drawn p o ho)⟩
  obtain ⟨p, hp⟩ : ∃ p, m.opers p ≠ [] := by
    by_contra hnone
    rw [not_exists] at hnone
    exact h0 (by simp_all [getCount])
  obtain ⟨o, l, hl⟩ := List.exists_cons_of_ne_nil hp
  obtain ⟨i, hi⟩ : ∃ i, (seats.flatMap fun pos => (m.opers pos).filterMap keyof).min? = some i := by
    cases hmin : (seats.flatMap fun pos => (m.opers pos).filterMap keyof).min? with
    | some i => exact ⟨i, rfl⟩
    | none =>
      rw [List.min?_eq_none_iff] at hmin
      have := (hmem (level o)).mpr ⟨p, o, by simp [hl], rfl⟩
      rw [hmin] at this
      exact absurd this List.not_mem_nil
  have hspec := List.min?_eq_some_iff.mp hi
  obtain ⟨q, o', ho', rfl⟩ := (hmem i).mp hspec.1
  refine ⟨o', ?_, ⟨q, ho'⟩, ?_⟩
  · rw [getPowestOper, if_neg h0, if_neg h1]
    simp [hi, getElem_level (hv.drawn q o' ho')]
  · intro r b hb
    exact hspec.2 _ ((hmem _).mpr ⟨r, b, hb, rfl⟩)

/-- **The strongest operation**: both methods of `getPowestOper` return an operation of the
manager of the least level. -/
lemma getPowestOper_spec (hv : m.Valid) (hne : ∃ p, m.opers p ≠ []) :
    ∃ o, m.getPowestOper = some o ∧ (∃ p, o ∈ m.opers p) ∧
      ∀ p, ∀ o' ∈ m.opers p, level o ≤ level o' := by
  have h0 : m.getCount ≠ 0 := by
    obtain ⟨p, hp⟩ := hne
    intro h
    have := List.eq_nil_of_length_eq_zero h
    rw [List.filter_eq_nil_iff] at this
    exact this p (by simp [seats]) (by simpa using hp)
  by_cases h1 : m.getCount = 1
  · exact getPowestOper_of_count_one hv h1
  · exact getPowestOper_of_count_ne_one hv h0 h1

end Valid

end CanGrabMgr

/-- `PlayerGrabMgr`: the operations still open, those chosen, and the position of the seat whose
tile is claimed. -/
structure PlayerGrabMgr where
  pos : Option Seat
  canGrabMgr : CanGrabMgr
  doneGrabMgr : CanGrabMgr

namespace PlayerGrabMgr

/-- `PlayerGrabMgr:ctor`. -/
def new : PlayerGrabMgr := ⟨none, CanGrabMgr.new, CanGrabMgr.new⟩

/-- `PlayerGrabMgr:setPos`. -/
def setPos (g : PlayerGrabMgr) (pos : Seat) : PlayerGrabMgr := { g with pos := some pos }

/-- `PlayerGrabMgr:clear`. -/
def clear (g : PlayerGrabMgr) : PlayerGrabMgr := ⟨none, g.canGrabMgr.clear, g.doneGrabMgr.clear⟩

/-- `PlayerGrabMgr:getPowestNode`. -/
def getPowestNode (g : PlayerGrabMgr) : Option GrabItem :=
  match g.doneGrabMgr.getPowestOper with
  | none => none
  | some oper => seats.findSome? fun pos =>
      (g.doneGrabMgr.getItem pos).filter fun item => item.hasOper oper

/-- `PlayerGrabMgr:hasPowerOper`: whether an open operation is at least as strong as `oper`;
`none` when a level is missing. -/
def hasPowerOper (g : PlayerGrabMgr) (oper : Oper) : Option Bool :=
  if g.canGrabMgr.getPowestOper = some .null then some false
  else if oper = .hu then some false
  else do
    let canOper ← g.canGrabMgr.getPowestOper
    let idx ← keyof canOper
    let idx1 ← keyof oper
    return decide (idx ≤ idx1)

/-- `PlayerGrabMgr:addCanDoItem`. -/
def addCanDoItem (g : PlayerGrabMgr) (pos : Seat) (operList : List Oper) : PlayerGrabMgr :=
  { g with canGrabMgr := g.canGrabMgr.addItem pos operList none }

/-- `PlayerGrabMgr:hasOper`. -/
def hasOper (g : PlayerGrabMgr) (pos : Seat) (oper : Oper) : Bool :=
  match g.canGrabMgr.getItem pos with
  | none => false
  | some item => item.hasOper oper

/-- `PlayerGrabMgr:playerDoGrab`. -/
def playerDoGrab (g : PlayerGrabMgr) (pos : Seat) (oper : Oper) (byteCard : Option ℕ) :
    Bool × PlayerGrabMgr :=
  match g.canGrabMgr.getItem pos with
  | none => (false, g)
  | some item =>
    if !item.hasOper oper then (false, g)
    else
      let r := g.canGrabMgr.delPlayer pos
      if !r.1 then (false, { g with canGrabMgr := r.2 })
      else if g.doneGrabMgr.opers pos ≠ [] then (false, { g with canGrabMgr := r.2 })
      else (true, ⟨g.pos, r.2, g.doneGrabMgr.setCanOperList pos [oper] byteCard⟩)

/-- The loop of `needWait` over the chosen operations: stop at the first one no open operation
is as strong as. -/
def waitLoop (g : PlayerGrabMgr) : List Seat → Option Bool
  | [] => some true
  | pos :: rest =>
    match g.doneGrabMgr.opers pos with
    | [] => waitLoop g rest
    | oper :: _ => do
      let power ← g.hasPowerOper oper
      if power then waitLoop g rest else return false

/-- `PlayerGrabMgr:needWait`. -/
def needWait (g : PlayerGrabMgr) : Option Bool :=
  if g.canGrabMgr.getCount + g.doneGrabMgr.getCount = 0 then some false
  else g.waitLoop seats

/-! ### Waiting -/

/-- Both managers are valid. -/
structure Valid (g : PlayerGrabMgr) : Prop where
  can : g.canGrabMgr.Valid
  done : g.doneGrabMgr.Valid

/-- A chosen operation that no open operation stands against. -/
def Prevails (g : PlayerGrabMgr) (o : Oper) : Prop :=
  o = .hu ∨ ∀ p, ∀ o' ∈ g.canGrabMgr.opers p, level o < level o'

section Wait

variable {g : PlayerGrabMgr}

lemma hasPowerOper_spec (hv : g.Valid) {o : Oper} (ho : o ∈ operLevel) :
    ∃ b, g.hasPowerOper o = some b ∧ (b = false ↔ g.Prevails o) := by
  unfold hasPowerOper Prevails
  by_cases hne : ∃ p, g.canGrabMgr.opers p ≠ []
  · obtain ⟨q, hq, ⟨p, hp⟩, hmin⟩ := CanGrabMgr.getPowestOper_spec hv.can hne
    have hmem := hv.can.drawn p q hp
    have hnull : q ≠ .null := by
      rintro rfl
      exact absurd hmem (by decide)
    rw [hq, if_neg (by simpa using hnull)]
    by_cases hhu : o = .hu
    · exact ⟨false, by simp [hhu], by simp [hhu]⟩
    · refine ⟨decide (level q ≤ level o), ?_, ?_⟩
      · simp [hhu, keyof_eq_level hmem, keyof_eq_level ho]
      · simp only [hhu, false_or, decide_eq_false_iff_not, not_le]
        exact ⟨fun hlt r o' ho' => lt_of_lt_of_le hlt (hmin r o' ho'), fun h => h p q hp⟩
  · have hempty : ∀ p, g.canGrabMgr.opers p = [] := by simpa using hne
    rw [CanGrabMgr.getPowestOper_of_empty hempty]
    exact ⟨false, by simp, by simp [hempty]⟩

lemma waitLoop_spec (hv : g.Valid) (l : List Seat) :
    ∃ b, g.waitLoop l = some b ∧
      (b = false ↔ ∃ p ∈ l, ∃ o, (g.doneGrabMgr.opers p).head? = some o ∧ g.Prevails o) := by
  induction l with
  | nil => exact ⟨true, rfl, by simp⟩
  | cons p l ih =>
    obtain ⟨b, hb, hiff⟩ := ih
    cases hl : g.doneGrabMgr.opers p with
    | nil =>
      refine ⟨b, by rw [waitLoop, hl, hb], ?_⟩
      simp [hiff, hl]
    | cons o rest =>
      have ho : o ∈ operLevel := hv.done.drawn p o (by simp [hl])
      obtain ⟨c, hc, hprev⟩ := hasPowerOper_spec hv ho
      cases c with
      | false =>
        refine ⟨false, by simp [waitLoop, hl, hc], ?_⟩
        simp only [true_iff]
        exact ⟨p, by simp, o, by simp [hl], hprev.mp rfl⟩
      | true =>
        have hnot : ¬g.Prevails o := fun h => absurd (hprev.mpr h) (by simp)
        refine ⟨b, by simp [waitLoop, hl, hc, hb], ?_⟩
        simp [hiff, hl, hnot]

/-- **When the decision need not wait**: `needWait` raises no error, and it is false iff nothing
is open or chosen, or some chosen operation prevails over all open ones. -/
lemma needWait_spec (hv : g.Valid) :
    ∃ b, g.needWait = some b ∧
      (b = false ↔ (∀ p, g.canGrabMgr.opers p = [] ∧ g.doneGrabMgr.opers p = []) ∨
        ∃ p o, (g.doneGrabMgr.opers p).head? = some o ∧ g.Prevails o) := by
  have hcount : ∀ m : CanGrabMgr, m.getCount = 0 ↔ ∀ p, m.opers p = [] := by
    intro m
    simp [CanGrabMgr.getCount, seats]
  unfold needWait
  split_ifs with h
  · refine ⟨false, rfl, ?_⟩
    simp only [true_iff]
    left
    intro p
    exact ⟨(hcount _).mp (by omega) p, (hcount _).mp (by omega) p⟩
  · obtain ⟨b, hb, hiff⟩ := waitLoop_spec hv seats
    refine ⟨b, hb, hiff.trans ?_⟩
    constructor
    · rintro ⟨p, -, o, ho⟩
      exact Or.inr ⟨p, o, ho⟩
    · rintro (hall | ⟨p, o, ho⟩)
      · have hc := (hcount g.canGrabMgr).mpr fun p => (hall p).1
        have hd := (hcount g.doneGrabMgr).mpr fun p => (hall p).2
        omega
      · exact ⟨p, by simp [seats], o, ho⟩

end Wait

/-! ### A round of claims -/

/-- A choice that is open, from a seat that has chosen nothing yet, is recorded. -/
lemma playerDoGrab_of_mem {g : PlayerGrabMgr} {pos : Seat} {oper : Oper} {card : Option ℕ}
    (hmem : oper ∈ g.canGrabMgr.opers pos) (hdone : g.doneGrabMgr.opers pos = []) :
    g.playerDoGrab pos oper card = (true, ⟨g.pos, (g.canGrabMgr.delPlayer pos).2,
      g.doneGrabMgr.setCanOperList pos [oper] card⟩) := by
  unfold playerDoGrab
  cases hitem : g.canGrabMgr.getItem pos with
  | none =>
    rw [CanGrabMgr.opers, hitem] at hmem
    exact absurd hmem List.not_mem_nil
  | some item =>
    have hhas : item.hasOper oper = true := by
      rw [CanGrabMgr.opers, hitem] at hmem
      simpa [GrabItem.hasOper] using hmem
    have hdel : (g.canGrabMgr.delPlayer pos).1 = true := by
      rw [CanGrabMgr.delPlayer, hitem]
      dsimp only
      split_ifs <;> rfl
    simp [hhas, hdel, hdone]

/-- The offers of one round of claims and the choice each seat makes. Only `Cancel` may be
offered to two seats. -/
structure Round where
  offers : Seat → List Oper
  choice : Seat → Oper
  drawn : ∀ p, ∀ o ∈ offers p, o ∈ operLevel
  exclusive : ∀ p q, p ≠ q → ∀ o ∈ offers p, o ∈ offers q → o = .cancel
  chosen : ∀ p, offers p ≠ [] → choice p ∈ offers p

namespace Round

/-- A cleared manager with the offers put in. -/
def start (r : Round) (g : PlayerGrabMgr) : PlayerGrabMgr :=
  seats.foldl (fun g p => if r.offers p = [] then g else g.addCanDoItem p (r.offers p)) g.clear

/-- The manager after the seats `order` have submitted their choices in this order. -/
def after (r : Round) (g : PlayerGrabMgr) (card : Seat → Option ℕ) (order : List Seat) :
    PlayerGrabMgr :=
  order.foldl (fun g p => (g.playerDoGrab p (r.choice p) (card p)).2) (r.start g)

/-- The number of submissions after which `needWait` is false for the first time. -/
def firstMoment (r : Round) (g : PlayerGrabMgr) (card : Seat → Option ℕ) (order : List Seat) :
    Option ℕ :=
  (List.range (order.length + 1)).find? fun k =>
    (r.after g card (order.take k)).needWait = some false

/-- The seat with the strongest choice; the first seat if all choose `Cancel`. -/
def IsStrongest (r : Round) (p : Seat) : Prop :=
  r.offers p ≠ [] ∧ ∀ q, r.offers q ≠ [] →
    level (r.choice p) ≤ level (r.choice q) ∧ (r.choice q = r.choice p → p ≤ q)

variable {r : Round} {g : PlayerGrabMgr} {card : Seat → Option ℕ}

lemma start_spec (r : Round) (g : PlayerGrabMgr) (p : Seat) :
    (r.start g).canGrabMgr.opers p = sortOpers (r.offers p) ∧
      (r.start g).doneGrabMgr.opers p = [] := by
  have hfold : ∀ (l : List Seat) (g : PlayerGrabMgr),
      (l.foldl (fun g p => if r.offers p = [] then g else g.addCanDoItem p (r.offers p))
        g).canGrabMgr.opers p =
          (if p ∈ l ∧ r.offers p ≠ [] then sortOpers (r.offers p) else g.canGrabMgr.opers p) ∧
      (l.foldl (fun g p => if r.offers p = [] then g else g.addCanDoItem p (r.offers p))
        g).doneGrabMgr = g.doneGrabMgr := by
    intro l
    induction l with
    | nil => simp
    | cons q l ih =>
      intro g
      rw [List.foldl_cons]
      obtain ⟨hcan, hdone⟩ := ih (if r.offers q = [] then g else g.addCanDoItem q (r.offers q))
      rw [hcan, hdone]
      by_cases hq : r.offers q = []
      · by_cases hpq : p = q
        · subst hpq
          simp [hq]
        · simp [hq, hpq]
      · by_cases hpq : p = q
        · subst hpq
          simp [hq, addCanDoItem]
        · simp [hq, hpq, addCanDoItem]
  obtain ⟨hcan, hdone⟩ := hfold seats g.clear
  unfold start
  refine ⟨?_, ?_⟩
  · rw [hcan]
    by_cases h : r.offers p = []
    · simp [h, clear, sortOpers]
    · simp [h, seats]
  · rw [hdone]
    simp [clear]

lemma mem_sortOpers {l : List Oper} {o : Oper} : o ∈ sortOpers l ↔ o ∈ l :=
  (List.perm_insertionSort _ l).mem_iff

/-- What the manager records after some submissions: a seat that has submitted has its choice
recorded and keeps at most the operation to play a tile, the others keep their offers. -/
structure Recorded (r : Round) (card : Seat → Option ℕ) (order : List Seat) (g : PlayerGrabMgr) :
    Prop where
  can : ∀ p, g.canGrabMgr.opers p =
    if p ∈ order then (if .play ∈ r.offers p then [.play] else []) else sortOpers (r.offers p)
  done : ∀ p, g.doneGrabMgr.opers p = if p ∈ order then [r.choice p] else []
  item : ∀ p ∈ order, g.doneGrabMgr.getItem p = some ⟨p, [r.choice p], card p⟩

/-- Every order of submission leaves what it should.

**Proof sketch.** Induction on the order, last submission first off. The seat that submits has
its offers untouched and nothing recorded, so that `playerDoGrab` records its choice. -/
lemma after_recorded (r : Round) (g : PlayerGrabMgr) (card : Seat → Option ℕ)
    (order : List Seat) (hnodup : order.Nodup) (hoff : ∀ p ∈ order, r.offers p ≠ []) :
    Recorded r card order (r.after g card order) := by
  induction order using List.reverseRecOn with
  | nil =>
    refine ⟨fun p => ?_, fun p => ?_, fun p hp => absurd hp List.not_mem_nil⟩
    · simpa [after] using (r.start_spec g p).1
    · simpa [after] using (r.start_spec g p).2
  | append_singleton order q ih =>
    have hq : q ∉ order := by
      rw [List.nodup_append] at hnodup
      intro hmem
      exact hnodup.2.2 q hmem q (by simp) rfl
    have hrec := ih (List.Nodup.of_append_left hnodup)
      (fun p hp => hoff p (List.mem_append_left [q] hp))
    have hstep : r.after g card (order ++ [q]) =
        ((r.after g card order).playerDoGrab q (r.choice q) (card q)).2 := by
      simp [after, List.foldl_append]
    have hcan := hrec.can q
    have hdone := hrec.done q
    rw [if_neg hq] at hcan hdone
    have hmem : r.choice q ∈ (r.after g card order).canGrabMgr.opers q := by
      rw [hcan, mem_sortOpers]
      exact r.chosen q (hoff q (by simp))
    rw [hstep, playerDoGrab_of_mem hmem hdone]
    refine ⟨fun p => ?_, fun p => ?_, fun p hp => ?_⟩
    · dsimp only
      rw [CanGrabMgr.opers_delPlayer, hcan, hrec.can p]
      by_cases hpq : p = q
      · subst hpq
        simp [mem_sortOpers]
      · simp [hpq]
    · dsimp only
      rw [CanGrabMgr.opers_setCanOperList, hrec.done p]
      by_cases hpq : p = q
      · subst hpq
        simp [sortOpers]
      · simp [hpq]
    · dsimp only
      by_cases hpq : p = q
      · subst hpq
        exact CanGrabMgr.getItem_setCanOperList
      · rw [CanGrabMgr.getItem_setCanOperList_of_ne hpq]
        have hp' : p ∈ order := by simpa [hpq] using hp
        exact hrec.item p hp'

/-- The recorded operations come from `operLevel` and are sorted. -/
lemma Recorded.valid {order : List Seat} (h : Recorded r card order g)
    (hoff : ∀ p ∈ order, r.offers p ≠ []) : g.Valid := by
  have hplay : (.play : Oper) ∈ operLevel := by decide
  have hsort := fun p => CanGrabMgr.sortOpers_valid (r.drawn p)
  refine ⟨⟨fun p o ho => ?_, fun p => ?_⟩, ⟨fun p o ho => ?_, fun p => ?_⟩⟩
  · rw [h.can p] at ho
    split_ifs at ho
    · rw [List.mem_singleton.mp ho]
      exact hplay
    · exact absurd ho List.not_mem_nil
    · exact (hsort p).1 o ho
  · rw [h.can p]
    split_ifs
    · exact List.pairwise_singleton _ _
    · exact List.Pairwise.nil
    · exact (hsort p).2
  · rw [h.done p] at ho
    split_ifs at ho with hp
    · rw [List.mem_singleton.mp ho]
      exact r.drawn p _ (r.chosen p (hoff p hp))
    · exact absurd ho List.not_mem_nil
  · rw [h.done p]
    split_ifs
    · exact List.pairwise_singleton _ _
    · exact List.Pairwise.nil

lemma findSome?_seats {β : Type*} {f : Seat → Option β} {p : Seat} {b : β} (hp : f p = some b)
    (hlt : ∀ q, q < p → f q = none) : seats.findSome? f = some b := by
  have hsplit : ∀ p : Seat, seats = seats.take p ++ p :: seats.drop (p + 1) := by decide
  have htake : ∀ p : Seat, ∀ q ∈ seats.take p, q < p := by decide
  rw [List.findSome?_eq_some_iff]
  exact ⟨_, p, _, hsplit p, hp, fun q hq => hlt q (htake p q hq)⟩

/-- The strongest of the recorded choices is the one `getPowestNode` returns. -/
lemma Recorded.getPowestNode_eq {order : List Seat} (h : Recorded r card order g)
    (hoff : ∀ p ∈ order, r.offers p ≠ []) {p : Seat} (hp : p ∈ order)
    (hmin : ∀ q ∈ order, level (r.choice p) ≤ level (r.choice q) ∧
      (r.choice q = r.choice p → p ≤ q)) :
    g.getPowestNode = some ⟨p, [r.choice p], card p⟩ := by
  have hv := h.valid hoff
  have hmem : ∀ q o, o ∈ g.doneGrabMgr.opers q ↔ q ∈ order ∧ o = r.choice q := by
    intro q o
    rw [h.done q]
    by_cases hq : q ∈ order
    · simp [hq]
    · simp [hq]
  obtain ⟨o, ho, ⟨q, hq⟩, hleast⟩ := CanGrabMgr.getPowestOper_spec hv.done
    ⟨p, List.ne_nil_of_mem ((hmem p _).mpr ⟨hp, rfl⟩)⟩
  obtain ⟨hqo, rfl⟩ := (hmem q o).mp hq
  have hle := hleast p _ ((hmem p _).mpr ⟨hp, rfl⟩)
  have heq : r.choice q = r.choice p :=
    level_injOn (hv.done.drawn q _ hq) (hv.done.drawn p _ ((hmem p _).mpr ⟨hp, rfl⟩))
      (le_antisymm hle (hmin q hqo).1)
  rw [getPowestNode, ho]
  refine findSome?_seats (p := p) ?_ ?_
  · rw [h.item p hp]
    simp [GrabItem.hasOper, heq]
  · intro q' hlt
    by_cases hq' : q' ∈ order
    · have hne : r.choice q' ≠ r.choice p := fun hc =>
        absurd ((hmin q' hq').2 hc) (not_le.mpr hlt)
      rw [h.item q' hq']
      simp [GrabItem.hasOper, heq, hne.symm]
    · cases hitem : g.doneGrabMgr.getItem q' with
      | none => rfl
      | some item =>
        have hnil : item.operList = [] := by
          have hdone := h.done q'
          rwa [if_neg hq', CanGrabMgr.opers, hitem] at hdone
        simp [GrabItem.hasOper, hnil]

/-- Some seat has the strongest choice.

**Proof sketch.** Take a seat of the least level, and among the seats with that choice the first
one. -/
lemma exists_isStrongest (r : Round) (hne : ∃ p, r.offers p ≠ []) : ∃ p, r.IsStrongest p := by
  obtain ⟨p, hp, hmin⟩ := (Finset.univ.filter fun p => r.offers p ≠ []).exists_min_image
    (fun p => (level (r.choice p)) * 4 + p.val) (by
      obtain ⟨p, hp⟩ := hne
      exact ⟨p, by simp [hp]⟩)
  refine ⟨p, by simpa using hp, fun q hq => ?_⟩
  have hle := hmin q (by simpa using hq)
  refine ⟨by omega, fun hc => ?_⟩
  rw [hc] at hle
  exact Fin.le_def.mpr (by omega)

/-- A moment at which the decision need not wait: some recorded choice prevails. -/
lemma Recorded.exists_prevails {order : List Seat} (h : Recorded r card order g)
    (hoff : ∀ p ∈ order, r.offers p ≠ []) (hne : ∃ p, r.offers p ≠ []) :
    g.needWait = some false ↔ ∃ p ∈ order, g.Prevails (r.choice p) := by
  obtain ⟨b, hb, hiff⟩ := needWait_spec (h.valid hoff)
  rw [hb, Option.some.injEq, hiff]
  constructor
  · rintro (hall | ⟨p, o, ho, hprev⟩)
    · obtain ⟨p, hp⟩ := hne
      obtain ⟨hcan, hdone⟩ := hall p
      rw [h.can p] at hcan
      rw [h.done p] at hdone
      by_cases hmem : p ∈ order
      · simp [hmem] at hdone
      · rw [if_neg hmem] at hcan
        have hlen := (List.perm_insertionSort (fun a b : Oper => a.code ≤ b.code)
          (r.offers p)).length_eq
        rw [sortOpers] at hcan
        rw [hcan] at hlen
        exact absurd (List.eq_nil_of_length_eq_zero hlen.symm) hp
    · rw [h.done p] at ho
      split_ifs at ho with hmem
      · obtain rfl : r.choice p = o := by simpa using ho
        exact ⟨p, hmem, hprev⟩
      · simp at ho
  · rintro ⟨p, hmem, hprev⟩
    exact Or.inr ⟨p, r.choice p, by simp [h.done p, hmem], hprev⟩

/-- When a recorded choice prevails, the strongest choice of all is recorded: an open one would
stand against it. -/
lemma Recorded.mem_of_prevails {order : List Seat} (h : Recorded r card order g)
    (hoff : ∀ p ∈ order, r.offers p ≠ []) {p q : Seat} (hp : r.IsStrongest p) (hq : q ∈ order)
    (hprev : g.Prevails (r.choice q)) : p ∈ order := by
  by_contra hmem
  have hopen : r.choice p ∈ g.canGrabMgr.opers p := by
    rw [h.can p, if_neg hmem, mem_sortOpers]
    exact r.chosen p hp.1
  have hle := (hp.2 q (hoff q hq)).1
  rcases hprev with hhu | hlt
  · have hdrawn := r.drawn p _ (r.chosen p hp.1)
    have heq : r.choice p = .hu := by
      refine level_injOn hdrawn (by decide) ?_
      rw [hhu] at hle
      exact le_antisymm hle (Nat.zero_le _)
    have hne : p ≠ q := fun he => hmem (he ▸ hq)
    have hcancel := r.exclusive p q hne (r.choice p) (r.chosen p hp.1)
      (heq.trans hhu.symm ▸ r.chosen q (hoff q hq))
    rw [heq] at hcancel
    exact absurd hcancel (by decide)
  · exact absurd (hlt p _ hopen) (not_lt.mpr hle)

/-- **Order independence of simultaneous claims**: in every order of submission, at the first
moment the decision need not wait, `getPowestNode` returns the seat and operation of the
strongest choice. Such a moment comes, at the latest when all have submitted, unless a seat was
offered to play a tile, an offer its submission does not remove, and the strongest choice is to
play a tile or to cancel.

**Proof sketch.** `after_recorded` says what each prefix of the order leaves recorded. When some
recorded choice prevails, the strongest one is among the recorded (`mem_of_prevails`) and is
returned (`getPowestNode_eq`). After all submissions only offers to play a tile are open, so that
the strongest choice prevails iff it is stronger than that. -/
theorem firstMoment_decides_strongest (r : Round) (g : PlayerGrabMgr) (card : Seat → Option ℕ)
    (order : List Seat) (hnodup : order.Nodup) (hoff : ∀ p, p ∈ order ↔ r.offers p ≠ [])
    (hne : order ≠ []) :
    ∃ p, r.IsStrongest p ∧
      (∀ k, r.firstMoment g card order = some k →
        (r.after g card (order.take k)).getPowestNode = some ⟨p, [r.choice p], card p⟩) ∧
      ((r.firstMoment g card order).isSome ↔
        ((∃ q, .play ∈ r.offers q) → level (r.choice p) < level .play)) := by
  have hoffered : ∃ p, r.offers p ≠ [] := by
    obtain ⟨p, l, rfl⟩ := List.exists_cons_of_ne_nil hne
    exact ⟨p, (hoff p).mp (by simp)⟩
  have hpre : ∀ k, ∀ p ∈ order.take k, r.offers p ≠ [] :=
    fun k p hp => (hoff p).mp (List.mem_of_mem_take hp)
  have hrec : ∀ k, Recorded r card (order.take k) (r.after g card (order.take k)) :=
    fun k => r.after_recorded g card _ (hnodup.sublist (List.take_sublist k order)) (hpre k)
  obtain ⟨p, hp⟩ := r.exists_isStrongest hoffered
  refine ⟨p, hp, fun k hk => ?_, ?_⟩
  · have hfalse : (r.after g card (order.take k)).needWait = some false := by
      simpa using List.find?_some hk
    obtain ⟨q, hq, hprev⟩ := ((hrec k).exists_prevails (hpre k) hoffered).mp hfalse
    refine (hrec k).getPowestNode_eq (hpre k) ((hrec k).mem_of_prevails (hpre k) hp hq hprev) ?_
    exact fun q' hq' => hp.2 q' (hpre k q' hq')
  · have hsome : (r.firstMoment g card order).isSome ↔
        ∃ k ≤ order.length, ∃ q ∈ order.take k,
          (r.after g card (order.take k)).Prevails (r.choice q) := by
      simp only [firstMoment, List.find?_isSome, List.mem_range, decide_eq_true_eq,
        Nat.lt_succ_iff]
      exact exists_congr fun k => and_congr_right fun _ => (hrec k).exists_prevails (hpre k) hoffered
    rw [hsome]
    constructor
    · rintro ⟨k, -, q, hq, hprev⟩ ⟨q', hplay⟩
      have hopen : .play ∈ (r.after g card (order.take k)).canGrabMgr.opers q' := by
        rw [(hrec k).can q']
        split_ifs
        · exact List.mem_singleton.mpr rfl
        · exact mem_sortOpers.mpr hplay
      refine lt_of_le_of_lt (hp.2 q (hpre k q hq)).1 ?_
      rcases hprev with hhu | hlt
      · rw [hhu]
        decide
      · exact hlt q' _ hopen
    · intro hplay
      refine ⟨order.length, le_rfl, p, ?_, Or.inr fun q o ho => ?_⟩
      · rw [List.take_length]
        exact (hoff p).mpr hp.1
      · rw [(hrec _).can q, List.take_length] at ho
        split_ifs at ho with hq hpq
        · rw [List.mem_singleton.mp ho]
          exact hplay ⟨q, hpq⟩
        · exact absurd ho List.not_mem_nil
        · have hq' : r.offers q = [] := by
            by_contra hne'
            exact hq ((hoff q).mpr hne')
          rw [hq'] at ho
          exact absurd ho (by simp [sortOpers])

/-- One seat may play a tile or cancel, and cancels. -/
def playOrCancel : Round where
  offers := fun p => if p = 0 then [.play, .cancel] else []
  choice := fun _ => .cancel
  drawn := by decide
  exclusive := by decide
  chosen := by decide

/-- The seat keeps its offer to play a tile, and the decision waits forever. -/
theorem playOrCancel_waits : ¬∀ (r : Round) (g : PlayerGrabMgr) (card : Seat → Option ℕ)
    (order : List Seat), order.Nodup → (∀ p, p ∈ order ↔ r.offers p ≠ []) → order ≠ [] →
    ∃ p k, r.IsStrongest p ∧ r.firstMoment g card order = some k ∧
      (r.after g card (order.take k)).getPowestNode = some ⟨p, [r.choice p], card p⟩ := by
  intro h
  obtain ⟨p, k, -, hk, -⟩ := h playOrCancel .new (fun _ => none) [0] (by decide) (by decide)
    (by decide)
  have hnone : playOrCancel.firstMoment .new (fun _ => none) [0] = none := by decide
  rw [hnone] at hk
  exact absurd hk (by simp)

/-- Two claims on one tile: the one to win is submitted last and prevails. -/
def pengAndHu : Round where
  offers := fun p => if p = 0 then [.peng, .cancel] else if p = 2 then [.hu, .cancel] else []
  choice := fun p => if p = 0 then .peng else .hu
  drawn := by decide
  exclusive := by decide
  chosen := by decide

/-- The claims `pengAndHu`, submitted in the order of the seats, are decided by the rule above. -/
theorem pengAndHu_decided : ∃ p, pengAndHu.IsStrongest p ∧
    (∀ k, pengAndHu.firstMoment .new (fun _ => some 5) [0, 2] = some k →
      (pengAndHu.after .new (fun _ => some 5) ([0, 2].take k)).getPowestNode =
        some ⟨p, [pengAndHu.choice p], some 5⟩) ∧
    ((pengAndHu.firstMoment .new (fun _ => some 5) [0, 2]).isSome ↔
      ((∃ q, .play ∈ pengAndHu.offers q) → level (pengAndHu.choice p) < level .play)) :=
  firstMoment_decides_strongest pengAndHu .new (fun _ => some 5) [0, 2] (by decide) (by decide)
    (by decide)

end Round

end PlayerGrabMgr

end Mahjong
