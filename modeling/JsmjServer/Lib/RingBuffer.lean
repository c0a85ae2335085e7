import Mathlib.Data.List.Rotate
import Mathlib.Data.Nat.ModEq

set_option relaxedAutoImplicit false
set_option autoImplicit false

/-!
# Ring buffers that grow

A queue kept in an array that is used in a circle. An item is written at the tail and taken at the
head. When the tail catches up with the head the array is full; its items are then copied in order
to the front of a larger array, so that between two calls at least one cell is free and an empty
queue is told from a full one.

## Main definitions

* `RingBuffer` — the array with its two indexes.
* `RingBuffer.toList` — the queue it stands for.
* `RingBuffer.push`, `RingBuffer.pop`, `RingBuffer.popAll`, `RingBuffer.clear` — the operations.

## Main results

* `RingBuffer.toList_push` — an item is appended, whether the array grows or not.
* `RingBuffer.toList_of_pop`, `RingBuffer.pop_eq_none_iff` — the first item is taken.
* `RingBuffer.popAll_eq` — popping to the end gives the items in order.
* `RingBuffer.live_eq` — a walk from the head to the tail meets the items, each once.
-/

/-- An array whose cells from `head` up to `tail`, around its end, hold the items of a queue. -/
structure RingBuffer (α : Type*) where
  cells : List α
  head : ℕ
  tail : ℕ
  head_lt : head < cells.length
  tail_lt : tail < cells.length

namespace RingBuffer

variable {α : Type*}

/-- The index after `i` in a circle of `cap` cells. -/
def wrap (cap i : ℕ) : ℕ := if i + 1 < cap then i + 1 else 0

lemma wrap_lt {cap i : ℕ} (h : i < cap) : wrap cap i < cap := by
  rw [wrap]
  split_ifs <;> omega

/-- The number of cells from `head` up to `tail` in a circle of `cap` cells. -/
def span (cap head tail : ℕ) : ℕ := if head ≤ tail then tail - head else tail + cap - head

lemma span_lt {cap head tail : ℕ} (hhead : head < cap) (htail : tail < cap) :
    span cap head tail < cap := by
  rw [span]
  split_ifs <;> omega

lemma span_eq_zero_iff {cap head tail : ℕ} (hhead : head < cap) :
    span cap head tail = 0 ↔ head = tail := by
  rw [span]
  split_ifs <;> omega

/-- Unless the circle is full, the next tail is one cell further from the head. -/
lemma span_wrap_tail {cap head tail : ℕ} (hhead : head < cap) (htail : tail < cap)
    (h : wrap cap tail ≠ head) : span cap head (wrap cap tail) = span cap head tail + 1 := by
  rw [wrap] at h ⊢
  by_cases hlt : tail + 1 < cap
  · rw [if_pos hlt] at h ⊢
    simp only [span]
    split_ifs <;> omega
  · rw [if_neg hlt] at h ⊢
    simp only [span]
    split_ifs <;> omega

/-- The tail that comes to the head leaves one cell free. -/
lemma span_of_full {cap head tail : ℕ} (hhead : head < cap) (htail : tail < cap)
    (h : wrap cap tail = head) : span cap head tail + 1 = cap := by
  rw [wrap] at h
  rw [span]
  split_ifs at h ⊢ <;> omega

/-- Unless the circle is empty, the next head is one cell nearer to the tail. -/
lemma span_wrap_head {cap head tail : ℕ} (hhead : head < cap) (htail : tail < cap)
    (h : head ≠ tail) : span cap head tail = span cap (wrap cap head) tail + 1 := by
  rw [wrap]
  by_cases hlt : head + 1 < cap
  · rw [if_pos hlt]
    simp only [span]
    split_ifs <;> omega
  · rw [if_neg hlt]
    simp only [span]
    split_ifs <;> omega

variable (b : RingBuffer α)

/-- The number of cells. -/
def cap : ℕ := b.cells.length

/-- The number of items. -/
def size : ℕ := span b.cap b.head b.tail

/-- The items, from the head on. -/
def toList : List α := (b.cells.rotate b.head).take b.size

lemma size_lt : b.size < b.cap := span_lt b.head_lt b.tail_lt

lemma length_toList : b.toList.length = b.size := by
  have := b.size_lt
  rw [cap] at this
  rw [toList, List.length_take, List.length_rotate, min_eq_left this.le]

/-- The tail is `size` cells after the head. -/
lemma head_add_size_mod : (b.head + b.size) % b.cap = b.tail := by
  have hhead := b.head_lt
  have htail := b.tail_lt
  rw [size, cap, span]
  split_ifs with h
  · rw [Nat.add_sub_cancel' h, Nat.mod_eq_of_lt htail]
  · rw [show b.head + (b.tail + b.cells.length - b.head) = b.tail + b.cells.length by omega,
      Nat.add_mod_right, Nat.mod_eq_of_lt htail]

/-! ### Pushing -/

/-- The cells with an item written at the tail. -/
def written (x : α) : List α := b.cells.set b.tail x

/-- From the head on, the item is written after the items that are there. -/
lemma rotate_written (x : α) :
    (b.written x).rotate b.head = (b.cells.rotate b.head).set b.size x := by
  have hsize := b.size_lt
  have hmod := b.head_add_size_mod
  have hhead := b.head_lt
  have htail := b.tail_lt
  rw [cap] at hsize hmod
  refine List.ext_getElem ?_ fun i h₁ h₂ => ?_
  · simp [written]
  · have hi : i < b.cells.length := by simpa [written] using h₁
    have hlen : (b.written x).length = b.cells.length := List.length_set
    rw [List.getElem_rotate, List.getElem_set, List.getElem_rotate]
    simp only [written, List.getElem_set, List.length_set]
    by_cases his : b.size = i
    · subst his
      rw [if_pos rfl, if_pos (by rw [Nat.add_comm]; exact hmod.symm)]
    · have hne : ¬b.tail = (i + b.head) % b.cells.length := by
        rw [← hmod]
        intro heq
        have hdiff : b.size ≡ i [MOD b.cells.length] := by
          refine Nat.ModEq.add_left_cancel' b.head ?_
          rw [Nat.ModEq, heq, Nat.add_comm i]
        exact his (Nat.ModEq.eq_of_lt_of_lt hdiff hsize hi)
      rw [if_neg his, if_neg hne]

/-- The items and the new one, read from the head on. -/
lemma take_rotate_written (x : α) :
    ((b.written x).rotate b.head).take (b.size + 1) = b.toList ++ [x] := by
  have hsize := b.size_lt
  rw [cap] at hsize
  have hlen : b.size < (b.cells.rotate b.head).length := by rwa [List.length_rotate]
  rw [rotate_written, List.take_add_one, List.take_set_of_le le_rfl, List.getElem?_set_self hlen]
  rfl

section Push

variable [Inhabited α]

/-- An empty buffer of `cap` cells. -/
def new (cap : ℕ) (h : 0 < cap) : RingBuffer α where
  cells := List.replicate cap default
  head := 0
  tail := 0
  head_lt := by simpa using h
  tail_lt := by simpa using h

lemma toList_new {cap : ℕ} (h : 0 < cap) : (new cap h : RingBuffer α).toList = [] := by
  simp [toList, size, span, new]

/-- Append an item. A full array is replaced by one that has `extra` cells more, which begins with
the items in order. -/
def push (x : α) (extra : ℕ) (h : 0 < extra) : RingBuffer α :=
  if wrap b.cap b.tail = b.head then
    { cells := (b.written x).rotate b.head ++ List.replicate extra default
      head := 0
      tail := b.cap
      head_lt := by
        rw [List.length_append, List.length_replicate]
        omega
      tail_lt := by
        rw [List.length_append, List.length_replicate, List.length_rotate, written, List.length_set,
          cap]
        omega }
  else
    { cells := b.written x
      head := b.head
      tail := wrap b.cap b.tail
      head_lt := by
        rw [written, List.length_set]
        exact b.head_lt
      tail_lt := by
        rw [written, List.length_set]
        exact wrap_lt b.tail_lt }

/-- **Pushing appends**, whether the array is full or not. -/
theorem toList_push (x : α) (extra : ℕ) (h : 0 < extra) :
    (b.push x extra h).toList = b.toList ++ [x] := by
  have hhead := b.head_lt
  have htail := b.tail_lt
  rw [← take_rotate_written, push]
  split_ifs with hfull
  · -- the tail has come to the head: every cell but the one just written was in use
    have hall : b.size + 1 = b.cap := span_of_full hhead htail hfull
    have hlen : ((b.written x).rotate b.head).length = b.cap := by simp [written, cap]
    rw [hall]
    simp only [toList, size, span, Nat.zero_le, if_true, Nat.sub_zero, List.rotate_zero]
    rw [List.take_append_of_le_length hlen.ge]
  · have hlen : (b.written x).length = b.cap := List.length_set
    have hnext : span b.cap b.head (wrap b.cap b.tail) = b.size + 1 :=
      span_wrap_tail hhead htail hfull
    simp only [toList, size, cap] at hlen hnext ⊢
    rw [hlen, hnext]

end Push

/-! ### Popping -/

/-- Take the first item. -/
def pop : Option (α × RingBuffer α) :=
  if b.head = b.tail then none
  else some (b.cells.get ⟨b.head, b.head_lt⟩,
    { b with head := wrap b.cap b.head, head_lt := wrap_lt b.head_lt })

/-- Nothing is popped exactly from an empty queue. -/
lemma pop_eq_none_iff : b.pop = none ↔ b.toList = [] := by
  have hiff : b.size = 0 ↔ b.head = b.tail := span_eq_zero_iff b.head_lt
  rw [← List.length_eq_zero_iff, length_toList, hiff, pop]
  split_ifs with h <;> simp [h]

variable {b}

/-- Popping takes the first item and leaves the others. -/
lemma toList_of_pop {x : α} {b' : RingBuffer α} (h : b.pop = some (x, b')) :
    b.toList = x :: b'.toList := by
  have hhead := b.head_lt
  have htail := b.tail_lt
  rw [pop] at h
  split_ifs at h with hne
  obtain ⟨rfl, rfl⟩ := Prod.mk.inj (Option.some.inj h)
  have hcap : b.cap = b.cells.length := rfl
  have hsize : b.size = span b.cap (wrap b.cap b.head) b.tail + 1 :=
    span_wrap_head hhead htail hne
  have hrest : span b.cap (wrap b.cap b.head) b.tail < b.cells.length :=
    span_lt (wrap_lt hhead) htail
  have hmod : wrap b.cap b.head = (b.head + 1) % b.cells.length := by
    rw [wrap, hcap]
    split_ifs with hlt
    · rw [Nat.mod_eq_of_lt hlt]
    · rw [show b.head + 1 = b.cells.length by omega, Nat.mod_self]
  have hfirst : b.cells.rotate b.head =
      b.cells.get ⟨b.head, hhead⟩ :: (b.cells.drop (b.head + 1) ++ b.cells.take b.head) := by
    rw [List.rotate_eq_drop_append_take hhead.le, List.drop_eq_getElem_cons hhead]
    rfl
  -- the rest of the circle is the circle from the next cell on, but for its last cell
  have hrotate : b.cells.rotate (wrap b.cap b.head) =
      (b.cells.drop (b.head + 1) ++ b.cells.take b.head) ++ [b.cells.get ⟨b.head, hhead⟩] := by
    rw [hmod, List.rotate_mod, List.rotate_eq_drop_append_take (by omega : b.head + 1 ≤ _),
      List.take_succ_eq_append_getElem hhead, List.append_assoc]
    rfl
  change b.toList = _ :: (b.cells.rotate (wrap b.cap b.head)).take
    (span b.cap (wrap b.cap b.head) b.tail)
  have hlen : span b.cap (wrap b.cap b.head) b.tail ≤
      (b.cells.drop (b.head + 1) ++ b.cells.take b.head).length := by
    rw [List.length_append, List.length_drop, List.length_take]
    omega
  rw [toList, hsize, hfirst, List.take_succ_cons, hrotate, List.take_append_of_le_length hlen]

/-- Pop until the queue is empty, at most `fuel` times. -/
def popAll : ℕ → RingBuffer α → List α × RingBuffer α
  | 0, b => ([], b)
  | fuel + 1, b =>
    match b.pop with
    | none => ([], b)
    | some (x, b) => let (xs, b) := popAll fuel b; (x :: xs, b)

/-- **Popping to the end** gives all items in order and leaves none. -/
theorem popAll_eq {fuel : ℕ} {b : RingBuffer α} (h : b.toList.length ≤ fuel) :
    (popAll fuel b).1 = b.toList ∧ (popAll fuel b).2.toList = [] := by
  induction fuel generalizing b with
  | zero =>
    have hnil : b.toList = [] := List.length_eq_zero_iff.mp (Nat.le_zero.mp h)
    exact ⟨hnil.symm, hnil⟩
  | succ fuel ih =>
    rw [popAll]
    cases hpop : b.pop with
    | none =>
      have hnil := b.pop_eq_none_iff.mp hpop
      exact ⟨hnil.symm, hnil⟩
    | some r =>
      obtain ⟨x, b'⟩ := r
      have hlist := toList_of_pop hpop
      obtain ⟨hall, hnil⟩ := ih (b := b') (by
        rw [hlist, List.length_cons] at h
        omega)
      rw [hlist]
      exact ⟨congrArg (x :: ·) hall, hnil⟩

/-! ### Clearing -/

variable (b)

/-- The items that a walk from the head to the tail meets, the indexes taken around the end. -/
def live : List α :=
  (List.range' b.head b.size).filterMap fun i => b.cells[i % b.cap]?

lemma live_eq : b.live = b.toList := by
  have hhead := b.head_lt
  have hsize := b.size_lt
  rw [cap] at hsize
  have hget : ∀ i, i < b.cells.length →
      b.cells[(b.head + i) % b.cap]? = (b.cells.rotate b.head)[i]? := by
    intro i hi
    rw [List.getElem?_rotate hi, cap, Nat.add_comm]
  have htake : ∀ (l : List α) (n : ℕ), n ≤ l.length →
      (List.range n).filterMap (fun i => l[i]?) = l.take n := by
    intro l n hn
    induction n with
    | zero => rfl
    | succ n ih =>
      rw [List.range_succ, List.filterMap_append, ih (by omega), List.take_add_one]
      rfl
  rw [live, List.range'_eq_map_range, List.filterMap_map, toList,
    ← htake _ _ (by rw [List.length_rotate]; exact hsize.le)]
  refine List.filterMap_congr fun i hi => ?_
  exact hget i ((List.mem_range.mp hi).trans hsize)

/-- Forget the items. -/
def clear : RingBuffer α where
  cells := b.cells
  head := 0
  tail := 0
  head_lt := Nat.zero_lt_of_lt b.head_lt
  tail_lt := Nat.zero_lt_of_lt b.tail_lt

lemma toList_clear : b.clear.toList = [] := by
  simp [toList, size, span, clear]

end RingBuffer
