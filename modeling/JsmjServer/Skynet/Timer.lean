import JsmjServer.Lib.Filing
import JsmjServer.Lib.Runs
import Mathlib.Data.Nat.Bitwise
import Mathlib.Tactic.IntervalCases
import Mathlib.Tactic.Ring

set_option relaxedAutoImplicit false
set_option autoImplicit false

/-!
# The timer of skynet

The timer of `skynet-src/skynet_timer.c`, from which every timeout of the services comes: 256 lists
for the timeouts of the near future, four times 64 lists for the others, and a clock of 32 bits
that takes the timeouts from the latter to the former.

## Main definitions

* `Skynet.Timer` — the lists and the clock.
* `Skynet.Timer.addNode`, `Skynet.Timer.timerShift`, `Skynet.Timer.execute` — the functions of the
  source.
* `Skynet.Timer.call` — what the threads do, stretch by stretch between the locks.
* `Skynet.Agenda` — the timeouts that are to come, by a clock that does not wrap.

## Main results

* `Skynet.Timer.shift_files` — a tick keeps every timeout in the list of its time.
* `Skynet.Timer.run_agenda` — in every run, the timer sends what the agenda says.

## Design

`near` and `t` are one family of lists. The numbers are natural numbers with the wrap of 32 bits
written out where the code adds. `timer_update` gives the lock up while a list is sent, so that it
is cut into stretches there, and timeouts may be added between any two of them.
-/

namespace Skynet

/-! ### The program -/

/-- A list of the timer: `near[i]` or `t[i][j]`. -/
inductive Slot
  | near (i : ℕ)
  | level (i j : ℕ)
  deriving DecidableEq

/-- `struct timer_node` with its `struct timer_event`. -/
structure Node (α : Type*) where
  expire : ℕ
  event : α

/-- `struct timer`. -/
structure Timer (α : Type*) where
  lists : Slot → List (Node α)
  time : ℕ

/-- The loop of `add_node`. -/
def findLevel (time currentTime : ℕ) : ℕ → ℕ → ℕ → ℕ
  | 0, i, _ => i
  | fuel + 1, i, mask =>
    if time ||| (mask - 1) = currentTime ||| (mask - 1) then i
    else findLevel time currentTime fuel (i + 1) (mask <<< 6)

/-- The list that `add_node` chooses. -/
def place (currentTime time : ℕ) : Slot :=
  if time ||| 255 = currentTime ||| 255 then .near (time &&& 255)
  else
    let i := findLevel time currentTime 3 0 (256 <<< 6)
    .level i (time >>> (8 + i * 6) &&& 63)

namespace Timer

variable {α : Type*}

/-- `timer_create_timer`. -/
def create : Timer α := ⟨fun _ => [], 0⟩

/-- `add_node`. -/
def addNode (T : Timer α) (node : Node α) : Timer α :=
  { T with lists := Filing.add (fun n => place T.time n.expire) T.lists node }

/-- `timer_add`. -/
def timerAdd (T : Timer α) (event : α) (time : ℕ) : Timer α :=
  T.addNode ⟨(time + T.time) % 2 ^ 32, event⟩

/-- `move_list`: `add_node` for every node of the list. -/
def moveList (T : Timer α) (level idx : ℕ) : Timer α :=
  { T with lists := Filing.refile (fun n => place T.time n.expire) T.lists (.level level idx) }

/-- The loop of `timer_shift`. -/
def shiftLoop (T : Timer α) : ℕ → ℕ → ℕ → ℕ → Timer α
  | 0, _, _, _ => T
  | fuel + 1, i, mask, time =>
    if T.time &&& (mask - 1) = 0 then
      let idx := time &&& 63
      if idx ≠ 0 then T.moveList i idx else shiftLoop T fuel (i + 1) (mask <<< 6) (time >>> 6)
    else T

/-- `timer_shift`. -/
def timerShift (T : Timer α) : Timer α :=
  let ct := (T.time + 1) % 2 ^ 32
  let T := { T with time := ct }
  if ct = 0 then T.moveList 3 0 else T.shiftLoop 4 0 256 (ct >>> 8)

/-- One turn of the loop of `timer_execute`: what is sent, if there is anything. -/
def execute (T : Timer α) : List α × Timer α :=
  let slot := .near (T.time &&& 255)
  ((T.lists slot).map Node.event, { T with lists := Function.update T.lists slot [] })

end Timer

/-- Where `timer_update` is. -/
inductive Phase
  /-- In the loop that sends timeouts of no time. -/
  | before
  /-- In the loop behind `timer_shift`. -/
  | after
  deriving DecidableEq

/-- What happens to the timer. -/
inductive Call (α : Type*)
  /-- `skynet_timeout`. -/
  | timeout (event : α) (time : Int32)
  /-- The timer thread goes on to where it gives the lock up. -/
  | turn

/-- The timer, and where the timer thread is. -/
structure Machine (α : Type*) where
  timer : Timer α
  phase : Phase

variable {α : Type*}

/-- What is sent, and the timer then. -/
def Machine.call (s : Machine α) : Call α → List α × Machine α
  | .timeout event time =>
    if time.toInt ≤ 0 then ([event], s)
    else ([], { s with timer := s.timer.timerAdd event time.toInt.toNat })
  | .turn =>
    if s.timer.lists (.near (s.timer.time &&& 255)) ≠ [] then
      (s.timer.execute.1, { s with timer := s.timer.execute.2 })
    else
      match s.phase with
      | .before => ([], ⟨s.timer.timerShift, .after⟩)
      | .after => ([], { s with phase := .before })

/-! ### The agenda -/

/-- What is to come: each timeout with its time, in the order in which they were asked for. -/
structure Agenda (α : Type*) where
  clock : ℕ
  pending : List (ℕ × α)
  phase : Phase

/-- The timeouts whose time it is. -/
def Agenda.due (s : Agenda α) : List (ℕ × α) := s.pending.filter (·.1 = s.clock)

/-- A timeout of no time is sent at once. Every other one is sent when the clock has come to its
time, with the others of that time, in the order in which they were asked for; the clock does not
go on before that. -/
def Agenda.call (s : Agenda α) : Call α → List α × Agenda α
  | .timeout event time =>
    if time.toInt ≤ 0 then ([event], s)
    else ([], { s with pending := s.pending ++ [(s.clock + time.toInt.toNat, event)] })
  | .turn =>
    if s.due ≠ [] then
      (s.due.map Prod.snd, { s with pending := s.pending.filter (·.1 ≠ s.clock) })
    else
      match s.phase with
      | .before => ([], { s with clock := s.clock + 1, phase := .after })
      | .after => ([], { s with phase := .before })

/-! ### The list of a time -/

lemma or_mask_eq_iff (x y k : ℕ) :
    x ||| (2 ^ k - 1) = y ||| (2 ^ k - 1) ↔ x / 2 ^ k = y / 2 ^ k := by
  constructor
  · intro h
    refine Nat.eq_of_testBit_eq fun i => ?_
    have hbit := congrArg (Nat.testBit · (i + k)) h
    have hge : ¬i + k < k := by omega
    simpa [Nat.testBit_or, Nat.testBit_two_pow_sub_one, Nat.testBit_div_two_pow, hge] using hbit
  · intro h
    refine Nat.eq_of_testBit_eq fun i => ?_
    rw [Nat.testBit_or, Nat.testBit_or, Nat.testBit_two_pow_sub_one]
    by_cases hi : i < k
    · simp [hi]
    · have hbit := congrArg (Nat.testBit · (i - k)) h
      simp only [Nat.testBit_div_two_pow, show i - k + k = i by omega] at hbit
      rw [hbit]

/-- The block of the clock at a level: what is left of it without the digits below. -/
def block (m x : ℕ) : ℕ := x / 2 ^ (8 + 6 * m)

/-- The first level at which two times are in the same block. -/
def rank (now e : ℕ) : ℕ :=
  if block 0 e = block 0 now then 0
  else if block 1 e = block 1 now then 1
  else if block 2 e = block 2 now then 2
  else if block 3 e = block 3 now then 3
  else 4

/-- The list of a time at a rank. -/
def slotAt (e : ℕ) : ℕ → Slot
  | 0 => .near (e % 2 ^ 8)
  | i + 1 => .level i (block i e % 64)

lemma place_eq (now e : ℕ) : place now e = slotAt e (rank now e) := by
  have h₀ : e ||| 255 = now ||| 255 ↔ block 0 e = block 0 now := or_mask_eq_iff e now 8
  have h₁ : e ||| (256 <<< 6 - 1) = now ||| (256 <<< 6 - 1) ↔ block 1 e = block 1 now :=
    or_mask_eq_iff e now 14
  have h₂ : e ||| (256 <<< 6 <<< 6 - 1) = now ||| (256 <<< 6 <<< 6 - 1) ↔
      block 2 e = block 2 now := or_mask_eq_iff e now 20
  have h₃ : e ||| (256 <<< 6 <<< 6 <<< 6 - 1) = now ||| (256 <<< 6 <<< 6 <<< 6 - 1) ↔
      block 3 e = block 3 now := or_mask_eq_iff e now 26
  have hnear : e &&& 255 = e % 2 ^ 8 := Nat.and_two_pow_sub_one_eq_mod e 8
  have hlevel : ∀ m, e >>> (8 + m * 6) &&& 63 = block m e % 64 := by
    intro m
    rw [Nat.shiftRight_eq_div_pow, block, mul_comm m]
    exact Nat.and_two_pow_sub_one_eq_mod _ 6
  simp only [place, findLevel, rank, h₀, h₁, h₂, h₃, hnear, hlevel]
  split_ifs <;> rfl

lemma block_succ (m x : ℕ) : block (m + 1) x = block m x / 64 := by
  rw [block, block, Nat.div_div_eq_div_mul]
  congr 1
  ring

/-- Two times of a block are in one block above. -/
lemma block_eq_of_le {m n x y : ℕ} (h : block m x = block m y) (hle : m ≤ n) :
    block n x = block n y := by
  induction n, hle using Nat.le_induction with
  | base => exact h
  | succ n _ ih => rw [block_succ, block_succ, ih]

/-- A rank is below a level when the times are in one block there. -/
lemma rank_le_iff {now e m : ℕ} (hnow : now < 2 ^ 32) (he : e < 2 ^ 32) (hm : m ≤ 4) :
    rank now e ≤ m ↔ block m e = block m now := by
  have hlast : block 4 e = block 4 now := by
    rw [block, block, Nat.div_eq_of_lt he, Nat.div_eq_of_lt hnow]
  have hup : ∀ {a b}, block a e = block a now → a ≤ b → block b e = block b now :=
    fun h hle => block_eq_of_le h hle
  have h01 := hup (a := 0) (b := 1)
  have h12 := hup (a := 1) (b := 2)
  have h23 := hup (a := 2) (b := 3)
  rw [rank]
  interval_cases m <;> split_ifs <;> simp_all

lemma rank_le (now e : ℕ) : rank now e ≤ 4 := by
  rw [rank]
  split_ifs <;> omega

lemma slotAt_inj {e e' r r' : ℕ} (h : slotAt e r = slotAt e' r') : r = r' := by
  cases r <;> cases r' <;> simp_all [slotAt]

/-! ### A tick -/

/-- The time is one that a timeout may have that has not been sent. -/
def Soon (now e : ℕ) : Prop :=
  e < 2 ^ 32 ∧ 1 ≤ (e + 2 ^ 32 - now) % 2 ^ 32 ∧ (e + 2 ^ 32 - now) % 2 ^ 32 < 2 ^ 31

/-- The next time of the clock. -/
def tick (now : ℕ) : ℕ := (now + 1) % 2 ^ 32

lemma tick_lt (now : ℕ) : tick now < 2 ^ 32 := Nat.mod_lt _ (by decide)

/-- At the end of a block, no timeout to come is in it. -/
lemma Soon.block_ne {now e m : ℕ} (h : Soon now e) (hm : m ≤ 3)
    (hend : tick now % 2 ^ (8 + 6 * m) = 0) : block m e ≠ block m now := by
  obtain ⟨he, hpos, hlt⟩ := h
  rw [tick] at hend
  rw [block, block]
  interval_cases m <;> simp only [Nat.reduceMul, Nat.reduceAdd] at hend ⊢ <;> omega

/-- A tick within a block stays in it. -/
lemma block_tick {now m : ℕ} (hnow : now < 2 ^ 32) (hm : m ≤ 4)
    (hin : tick now % 2 ^ (8 + 6 * m) ≠ 0 ∨ m = 4) : block m (tick now) = block m now := by
  rw [tick] at hin ⊢
  rw [block, block]
  interval_cases m <;> simp only [Nat.reduceMul, Nat.reduceAdd] at hin ⊢ <;> omega

/-- The blocks above a digit that is not zero are those before the tick. -/
lemma block_tick_of_lt {now m n : ℕ} (hnow : now < 2 ^ 32)
    (hdigit : block m (tick now) % 64 ≠ 0 ∨ m = 3) (hmn : m < n) (hn : n ≤ 4) :
    block n (tick now) = block n now := by
  refine block_tick hnow hn ?_
  rcases hdigit with hdigit | rfl
  · left
    intro hzero
    refine hdigit ?_
    have hdvd : 2 ^ (8 + 6 * m) * 64 ∣ tick now := by
      refine dvd_trans ?_ (Nat.dvd_of_mod_eq_zero hzero)
      rw [show 2 ^ (8 + 6 * m) * 64 = 2 ^ (8 + 6 * (m + 1)) by ring]
      exact pow_dvd_pow 2 (by omega)
    obtain ⟨q, hq⟩ := hdvd
    rw [block, hq, mul_assoc, Nat.mul_div_cancel_left _ (by positivity), Nat.mul_mod_right]
  · right
    omega

/-- A tick that does not end a block of the near future changes no list. -/
lemma place_tick {now : ℕ} (hnow : now < 2 ^ 32) (hin : tick now % 2 ^ 8 ≠ 0) (e : ℕ) :
    place (tick now) e = place now e := by
  have hblock : ∀ {m}, m ≤ 4 → block m (tick now) = block m now := by
    intro m hm
    refine block_tick hnow hm (.inl fun hzero => hin ?_)
    have hdvd : 2 ^ 8 ∣ 2 ^ (8 + 6 * m) := pow_dvd_pow 2 (by omega)
    exact Nat.mod_eq_zero_of_dvd (hdvd.trans (Nat.dvd_of_mod_eq_zero hzero))
  have hrank : rank (tick now) e = rank now e := by
    simp only [rank, hblock (m := 0) (by omega), hblock (m := 1) (by omega),
      hblock (m := 2) (by omega), hblock (m := 3) (by omega)]
  rw [place_eq, place_eq, hrank]

lemma rank_tick_le_iff {now m e n : ℕ} (hnow : now < 2 ^ 32) (he : Soon now e)
    (hdigit : block m (tick now) % 64 ≠ 0 ∨ m = 3) (hmn : m < n) (hn : n ≤ 4) :
    rank (tick now) e ≤ n ↔ rank now e ≤ n := by
  rw [rank_le_iff (tick_lt now) he.1 hn, rank_le_iff hnow he.1 hn,
    block_tick_of_lt hnow hdigit hmn hn]

section Cascade

variable {now m : ℕ} (hnow : now < 2 ^ 32) (hm : m ≤ 3)
  (hend : tick now % 2 ^ (8 + 6 * m) = 0) (hdigit : block m (tick now) % 64 ≠ 0 ∨ m = 3)

include hnow hm hend

/-- At the end of a block, no timeout to come is in the lists below its level. -/
lemma Soon.lt_rank {e : ℕ} (he : Soon now e) : m < rank now e := by
  by_contra hle
  exact he.block_ne hm hend ((rank_le_iff hnow he.1 (by omega)).mp (by omega))

include hdigit

/-- The list of a timeout is the same after the tick, unless it is the list of the new digit. -/
lemma place_tick_of_ne {e : ℕ} (he : Soon now e)
    (hne : place now e ≠ .level m (block m (tick now) % 64)) :
    place (tick now) e = place now e := by
  have hlt := he.lt_rank hnow hm hend
  have hiff := fun n => rank_tick_le_iff hnow he hdigit (n := n)
  have hlt' : m < rank (tick now) e := by
    by_contra hle
    refine hne ?_
    have hblock := (rank_le_iff (tick_lt now) he.1 (by omega)).mp (not_lt.mp hle)
    have hrank : rank now e = m + 1 := by
      have := (hiff (m + 1) (by omega) (by omega)).mp (by omega)
      omega
    rw [place_eq, hrank, slotAt, hblock]
  have hrank : rank (tick now) e = rank now e :=
    le_antisymm ((hiff _ hlt (rank_le now e)).mpr le_rfl)
      ((hiff _ hlt' (rank_le _ e)).mp le_rfl)
  rw [place_eq, place_eq, hrank]

/-- A timeout of the list of the new digit goes to a list below, where there is no other. -/
lemma place_tick_ne {x y : ℕ} (hx : Soon now x) (hy : Soon now y)
    (hplace : place now x = .level m (block m (tick now) % 64)) :
    place (tick now) x ≠ place now y := by
  rw [place_eq] at hplace
  have hslot : slotAt x (rank now x) = slotAt (tick now) (m + 1) := hplace
  have hrank := slotAt_inj hslot
  rw [hrank] at hplace
  have hmod : block m x % 64 = block m (tick now) % 64 := by
    simpa [slotAt] using hplace
  have hdiv : block m x / 64 = block m (tick now) / 64 := by
    rw [← block_succ, ← block_succ]
    exact (rank_le_iff (tick_lt now) hx.1 (by omega)).mp
      ((rank_tick_le_iff hnow hx hdigit (by omega) (by omega)).mpr hrank.le)
  have hle : rank (tick now) x ≤ m := by
    rw [rank_le_iff (tick_lt now) hx.1 (by omega), ← Nat.div_add_mod (block m x) 64, hdiv, hmod,
      Nat.div_add_mod]
  have hlt := hy.lt_rank hnow hm hend
  rw [place_eq, place_eq]
  intro heq
  have := slotAt_inj heq
  omega

end Cascade

namespace Timer

variable {T : Timer α} {nodes : List (Node α)}

/-- Every timeout is in the list of its time. -/
def Files (T : Timer α) (nodes : List (Node α)) : Prop :=
  T.lists = Filing.file (fun n => place T.time n.expire) nodes

/-- What `timer_shift` comes to: the clock goes on, and at the end of a block one list is moved. -/
lemma timerShift_cases (T : Timer α) :
    (tick T.time % 2 ^ 8 ≠ 0 ∧ T.timerShift = { T with time := tick T.time }) ∨
    ∃ m ≤ 3, tick T.time % 2 ^ (8 + 6 * m) = 0 ∧ (block m (tick T.time) % 64 ≠ 0 ∨ m = 3) ∧
      T.timerShift = { T with time := tick T.time }.moveList m (block m (tick T.time) % 64) := by
  set ct := tick T.time with hdef
  have hmask : ∀ m, ct &&& (2 ^ (8 + 6 * m) - 1) = ct % 2 ^ (8 + 6 * m) :=
    fun m => Nat.and_two_pow_sub_one_eq_mod ct _
  have hdigit : ∀ m, block m ct &&& 63 = block m ct % 64 :=
    fun m => Nat.and_two_pow_sub_one_eq_mod _ 6
  have hblock : ∀ m, block m ct >>> 6 = block (m + 1) ct := fun m => by
    rw [block_succ, Nat.shiftRight_eq_div_pow]
  have hshift : T.timerShift = if ct = 0 then { T with time := ct }.moveList 3 0
      else { T with time := ct }.shiftLoop 4 0 256 (ct >>> 8) := rfl
  -- a turn of the loop, at the mask and the digits of its level
  have hturn : ∀ fuel m, { T with time := ct }.shiftLoop (fuel + 1) m (2 ^ (8 + 6 * m))
      (block m ct) = if ct % 2 ^ (8 + 6 * m) = 0 then
        if block m ct % 64 ≠ 0 then { T with time := ct }.moveList m (block m ct % 64)
        else { T with time := ct }.shiftLoop fuel (m + 1) (2 ^ (8 + 6 * (m + 1)))
          (block (m + 1) ct)
      else { T with time := ct } := by
    intro fuel m
    rw [shiftLoop, hmask, hdigit, hblock, Nat.shiftLeft_eq, ← pow_add,
      show 8 + 6 * m + 6 = 8 + 6 * (m + 1) by ring]
  -- behind a digit that is zero the level above has ended too
  have hup : ∀ m, ct % 2 ^ (8 + 6 * m) = 0 → block m ct % 64 = 0 →
      ct % 2 ^ (8 + 6 * (m + 1)) = 0 := by
    intro m hend hzero
    obtain ⟨q, hq⟩ := Nat.dvd_of_mod_eq_zero hend
    rw [block, hq, Nat.mul_div_cancel_left _ (by positivity)] at hzero
    obtain ⟨r, hr⟩ := Nat.dvd_of_mod_eq_zero hzero
    refine Nat.mod_eq_zero_of_dvd ⟨r, ?_⟩
    rw [hq, hr]
    ring
  rw [hshift]
  by_cases hct : ct = 0
  · exact .inr ⟨3, le_rfl, by simp [hct], .inr rfl, by simp [hct, block]⟩
  · rw [if_neg hct, show ct >>> 8 = block 0 ct from Nat.shiftRight_eq_div_pow _ _,
      show 256 = 2 ^ (8 + 6 * 0) from rfl]
    by_cases h₀ : ct % 2 ^ (8 + 6 * 0) = 0
    · right
      by_cases d₀ : block 0 ct % 64 = 0
      · have h₁ := hup 0 h₀ d₀
        by_cases d₁ : block 1 ct % 64 = 0
        · have h₂ := hup 1 h₁ d₁
          by_cases d₂ : block 2 ct % 64 = 0
          · have h₃ := hup 2 h₂ d₂
            have d₃ : block 3 ct % 64 ≠ 0 := by
              intro d₃
              have h₄ := hup 3 h₃ d₃
              have hlt := tick_lt T.time
              exact hct (by rwa [Nat.mod_eq_of_lt hlt] at h₄)
            refine ⟨3, by omega, h₃, .inl d₃, ?_⟩
            rw [hturn, if_pos h₀, if_neg (not_not.mpr d₀), hturn, if_pos h₁,
              if_neg (not_not.mpr d₁), hturn, if_pos h₂, if_neg (not_not.mpr d₂), hturn,
              if_pos h₃, if_pos d₃]
          · refine ⟨2, by omega, h₂, .inl d₂, ?_⟩
            rw [hturn, if_pos h₀, if_neg (not_not.mpr d₀), hturn, if_pos h₁,
              if_neg (not_not.mpr d₁), hturn, if_pos h₂, if_pos d₂]
        · refine ⟨1, by omega, h₁, .inl d₁, ?_⟩
          rw [hturn, if_pos h₀, if_neg (not_not.mpr d₀), hturn, if_pos h₁, if_pos d₁]
      · refine ⟨0, by omega, h₀, .inl d₀, ?_⟩
        rw [hturn, if_pos h₀, if_pos d₀]
    · exact .inl ⟨h₀, by rw [hturn, if_neg h₀]⟩

/-- A tick keeps every timeout that is to come in the list of its time. -/
lemma shift_files (hT : T.Files nodes) (htime : T.time < 2 ^ 32)
    (hsoon : ∀ n ∈ nodes, Soon T.time n.expire) :
    T.timerShift.Files nodes ∧ T.timerShift.time = tick T.time := by
  rcases T.timerShift_cases with ⟨hin, hshift⟩ | ⟨m, hm, hend, hdigit, hshift⟩
  · refine ⟨?_, by rw [hshift]⟩
    rw [hshift, Files]
    simp only [place_tick htime hin]
    exact hT
  · refine ⟨?_, by rw [hshift, moveList]⟩
    rw [hshift, Files, moveList]
    simp only [show T.lists = _ from hT]
    exact Filing.refile_file
      (fun x hx hne => place_tick_of_ne htime hm hend hdigit (hsoon x hx) hne)
      (fun x hx hplace y hy _ => place_tick_ne htime hm hend hdigit (hsoon x hx) (hsoon y hy)
        hplace)

/-- The list that is sent has the timeouts whose time it is. -/
lemma place_eq_near_iff {now e : ℕ} (hnow : now < 2 ^ 32) (he : e < 2 ^ 32) :
    place now e = .near (now &&& 255) ↔ e = now := by
  have hand : now &&& 255 = now % 2 ^ 8 := Nat.and_two_pow_sub_one_eq_mod now 8
  rw [place_eq, hand]
  constructor
  · intro heq
    have hslot : slotAt e (rank now e) = slotAt now 0 := heq
    have hrank := slotAt_inj hslot
    have hblock := (rank_le_iff hnow he (by omega)).mp hrank.le
    rw [hrank] at heq
    have hmod : e % 2 ^ 8 = now % 2 ^ 8 := by simpa [slotAt] using heq
    rw [← Nat.div_add_mod e (2 ^ 8), ← Nat.div_add_mod now (2 ^ 8), hmod,
      show e / 2 ^ 8 = now / 2 ^ 8 from hblock]
  · rintro rfl
    simp [rank, slotAt]

end Timer

/-! ### The timer and the agenda -/

/-- The node of a timeout. -/
def node (p : ℕ × α) : Node α := ⟨p.1 % 2 ^ 32, p.2⟩

/-- The timer holds what the agenda says, and the agenda has only what the 32 bits can tell
apart. -/
structure Stands (s : Machine α) (t : Agenda α) : Prop where
  phase : s.phase = t.phase
  time : s.timer.time = t.clock % 2 ^ 32
  files : s.timer.Files (t.pending.map node)
  window : ∀ p ∈ t.pending, t.clock ≤ p.1 ∧ p.1 < t.clock + 2 ^ 31

namespace Stands

variable {s : Machine α} {t : Agenda α}

lemma time_lt (h : Stands s t) : s.timer.time < 2 ^ 32 := by
  rw [h.time]
  exact Nat.mod_lt _ (by decide)

/-- The list that is sent next is what is due. -/
lemma place_eq_near_iff (h : Stands s t) {p : ℕ × α} (hp : p ∈ t.pending) :
    place s.timer.time (node p).expire = .near (s.timer.time &&& 255) ↔ p.1 = t.clock := by
  have hlt : (node p).expire < 2 ^ 32 := Nat.mod_lt _ (by decide)
  rw [Timer.place_eq_near_iff h.time_lt hlt, h.time, node]
  have hwin := h.window p hp
  simp only
  omega

lemma due (h : Stands s t) :
    s.timer.lists (.near (s.timer.time &&& 255)) = t.due.map node := by
  rw [show s.timer.lists = _ from h.files, Filing.file, List.filter_map, Agenda.due]
  congr 1
  refine List.filter_congr fun p hp => ?_
  simp [h.place_eq_near_iff hp]

/-- What is due is sent. -/
lemma execute (h : Stands s t) : s.timer.execute.1 = t.due.map Prod.snd ∧
    Stands { s with timer := s.timer.execute.2 }
      { t with pending := t.pending.filter (·.1 ≠ t.clock) } := by
  refine ⟨?_, h.phase, h.time, ?_, fun p hp => h.window p (List.mem_filter.mp hp).1⟩
  · rw [Timer.execute, h.due, List.map_map]
    rfl
  · simp only [Timer.execute, Timer.Files, show s.timer.lists = _ from h.files,
      Filing.update_file, List.filter_map]
    congr 2
    refine List.filter_congr fun p hp => ?_
    simp [h.place_eq_near_iff hp]

/-- When nothing is due the clock goes on. -/
lemma shift (h : Stands s t) (hdue : t.due = []) :
    Stands ⟨s.timer.timerShift, .after⟩ { t with clock := t.clock + 1, phase := .after } := by
  have hlate : ∀ p ∈ t.pending, t.clock < p.1 := by
    intro p hp
    have hne : p.1 ≠ t.clock := by simpa using List.filter_eq_nil_iff.mp hdue p hp
    have := (h.window p hp).1
    omega
  have hsoon : ∀ n ∈ t.pending.map node, Soon s.timer.time n.expire := by
    intro n hn
    obtain ⟨p, hp, rfl⟩ := List.mem_map.mp hn
    have hwin := h.window p hp
    have := hlate p hp
    rw [Soon, h.time, node]
    simp only
    omega
  obtain ⟨hfiles, htime⟩ := Timer.shift_files h.files h.time_lt hsoon
  refine ⟨rfl, ?_, hfiles, fun p hp => ?_⟩
  · simp only [htime, tick, h.time]
    omega
  · have hwin := h.window p hp
    have := hlate p hp
    simp only
    omega

/-- A timeout is asked for. -/
lemma timerAdd (h : Stands s t) (event : α) {time : ℕ} (htime : time < 2 ^ 31) :
    Stands { s with timer := s.timer.timerAdd event time }
      { t with pending := t.pending ++ [(t.clock + time, event)] } := by
  refine ⟨h.phase, h.time, ?_, fun p hp => ?_⟩
  · have hnode : (⟨(time + s.timer.time) % 2 ^ 32, event⟩ : Node α) =
        node (t.clock + time, event) := by
      simp only [node, h.time, Node.mk.injEq, and_true]
      omega
    rw [Timer.timerAdd, hnode, Timer.Files, Timer.addNode, List.map_append, List.map_singleton,
      Filing.file_append, show s.timer.lists = _ from h.files]
  · rcases List.mem_append.mp hp with hp | hp
    · exact h.window p hp
    · obtain rfl := List.mem_singleton.mp hp
      simp only
      omega

lemma call (h : Stands s t) (c : Call α) :
    (s.call c).1 = (t.call c).1 ∧ Stands (s.call c).2 (t.call c).2 := by
  cases c with
  | timeout event time =>
    rw [Machine.call, Agenda.call]
    split_ifs with hzero
    · exact ⟨rfl, h⟩
    · refine ⟨rfl, h.timerAdd event ?_⟩
      have hlt := time.toInt_lt
      omega
  | turn =>
    have hiff : s.timer.lists (.near (s.timer.time &&& 255)) ≠ [] ↔ t.due ≠ [] := by
      rw [h.due, ne_eq, List.map_eq_nil_iff]
    rw [Machine.call, Agenda.call]
    simp only [hiff]
    split_ifs with hdue
    · exact h.execute
    · rw [h.phase]
      cases t.phase with
      | before => exact ⟨rfl, h.shift (not_not.mp hdue)⟩
      | after => exact ⟨rfl, rfl, h.time, h.files, h.window⟩

end Stands

/-- The timer when the process starts. -/
def Machine.start : Machine α := ⟨.create, .before⟩

/-- The agenda when the process starts. -/
def Agenda.start : Agenda α := ⟨0, [], .before⟩

/-- In every run the timer sends what the agenda sends: a timeout of a positive time goes out when
the clock has gone on by that time, neither before nor after, behind those of the same time that
were asked for before it, however long the process runs.

**Proof sketch.** The lists are the pending timeouts filed by the place that `add_node` gives them
at the present time. The place is the level at which the timeout and the clock come to be in one
block. A tick that ends a block moves one list, the one of the new digit; no other place changes,
since the timeouts that are to come are none in the blocks that have ended, and the lists below,
where the moved ones go, were empty. The clock wraps only where its last block ends, and no timeout
is further off than half of its range. -/
theorem Timer.run_agenda (calls : List (Call α)) :
    Runs.outputs Machine.call (fun _ => false) Machine.start calls =
      Runs.outputs Agenda.call (fun _ => false) Agenda.start calls := by
  refine Runs.outputs_eq (R := Stands) (fun s t c h => h.call c) _ calls ?_
  refine ⟨rfl, rfl, ?_, by simp [Agenda.start]⟩
  funext slot
  rfl

end Skynet
