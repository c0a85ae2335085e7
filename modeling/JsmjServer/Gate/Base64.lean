import Mathlib.Algebra.Order.Group.Nat
import Mathlib.Data.List.Basic
import Mathlib.Data.Nat.Bitwise
import Mathlib.Tactic.Ring

set_option relaxedAutoImplicit false
set_option autoImplicit false

/-!
# The base64 of the crypt library

`lb64encode` and `lb64decode` of `lualib-src/lua-crypt.c`, with which the gate server writes the
names of its players and reads what they send.

## Main definitions

* `Gate.lb64encode`, `Gate.lb64decode` — the two functions.
* `Gate.clean` — the characters of a text that the decoder does not skip.

## Main results

* `Gate.lb64decode_eq_clean` — skipped characters change nothing, unless the text ends in one.
* `Gate.lb64decode_append` — the decoder on an encoded text with something after it.
* `Gate.lb64decode_noisy` — what the decoder makes of encoded texts with other characters among
  them.

## Design

The error "Invalid base64 text" of `lb64decode` is `none`. The loops of the decoder run over the
bytes that are left; the outer one has fuel, and the length of the text is enough.
-/

namespace Gate

/-! ### The program -/

/-- `encoding`, from `A` to `Z`, from `a` to `z`, from `0` to `9`, `+` and `/`. -/
def encoding (v : ℕ) : UInt8 :=
  [65, 66, 67, 68, 69, 70, 71, 72, 73, 74, 75, 76, 77, 78, 79, 80, 81, 82, 83, 84, 85, 86, 87, 88,
    89, 90, 97, 98, 99, 100, 101, 102, 103, 104, 105, 106, 107, 108, 109, 110, 111, 112, 113, 114,
    115, 116, 117, 118, 119, 120, 121, 122, 48, 49, 50, 51, 52, 53, 54, 55, 56, 57, 43, 47].getD v 0

/-- `lb64encode`. -/
def lb64encode : List UInt8 → List UInt8
  | a :: b :: c :: text =>
    let v := a.toNat <<< 16 ||| b.toNat <<< 8 ||| c.toNat
    encoding (v >>> 18) :: encoding (v >>> 12 &&& 0x3f) :: encoding (v >>> 6 &&& 0x3f) ::
      encoding (v &&& 0x3f) :: lb64encode text
  | [a] =>
    let v := a.toNat
    [encoding (v >>> 2), encoding ((v &&& 3) <<< 4), 61, 61]
  | [a, b] =>
    let v := a.toNat <<< 8 ||| b.toNat
    [encoding (v >>> 10), encoding (v >>> 4 &&& 0x3f), encoding ((v &&& 0xf) <<< 2), 61]
  | [] => []

/-- `decoding`. -/
def decoding : List ℤ :=
  [62, -1, -1, -1, 63, 52, 53, 54, 55, 56, 57, 58, 59, 60, 61, -1, -1, -1, -2, -1, -1, -1, 0, 1, 2,
    3, 4, 5, 6, 7, 8, 9, 10, 11, 12, 13, 14, 15, 16, 17, 18, 19, 20, 21, 22, 23, 24, 25, -1, -1, -1,
    -1, -1, -1, 26, 27, 28, 29, 30, 31, 32, 33, 34, 35, 36, 37, 38, 39, 40, 41, 42, 43, 44, 45, 46,
    47, 48, 49, 50, 51]

/-- `b64index`. -/
def b64index (c : UInt8) : ℤ :=
  if c < 43 then -1 else decoding.getD (c - 43).toNat (-1)

/-- The inner loop of `lb64decode` up to the next character that counts: its index, and the
text behind it. -/
def nextIndex : List UInt8 → Option (ℤ × List UInt8)
  | [] => none
  | x :: text => if b64index x = -1 then nextIndex text else some (b64index x, text)

/-- The inner loop of `lb64decode`: four indexes, and the text behind them. -/
def nextIndexes (text : List UInt8) : Option ((ℤ × ℤ × ℤ × ℤ) × List UInt8) := do
  let (c₀, text) ← nextIndex text
  let (c₁, text) ← nextIndex text
  let (c₂, text) ← nextIndex text
  let (c₃, text) ← nextIndex text
  return ((c₀, c₁, c₂, c₃), text)

/-- What `lb64decode` makes of four indexes, by the number of the paddings among them. -/
def decodeQuad : ℤ × ℤ × ℤ × ℤ → Option (List UInt8)
  | (c₀, c₁, c₂, c₃) =>
    match [c₀, c₁, c₂, c₃].count (-2) with
    | 0 =>
      let v := c₀.toNat <<< 18 ||| c₁.toNat <<< 12 ||| c₂.toNat <<< 6 ||| c₃.toNat
      some [(v >>> 16).toUInt8, (v >>> 8 &&& 0xff).toUInt8, (v &&& 0xff).toUInt8]
    | 1 =>
      if c₃ ≠ -2 ∨ c₂.toNat &&& 3 ≠ 0 then none
      else
        let v := c₀.toNat <<< 10 ||| c₁.toNat <<< 4 ||| c₂.toNat >>> 2
        some [(v >>> 8).toUInt8, (v &&& 0xff).toUInt8]
    | 2 =>
      if c₃ ≠ -2 ∨ c₂ ≠ -2 ∨ c₁.toNat &&& 0xf ≠ 0 then none
      else
        let v := c₀.toNat <<< 2 ||| c₁.toNat >>> 4
        some [v.toUInt8]
    | _ => none

/-- The outer loop of `lb64decode`. -/
def decodeLoop : ℕ → List UInt8 → Option (List UInt8)
  | _, [] => some []
  | 0, _ :: _ => none
  | fuel + 1, text => do
    let (c, text) ← nextIndexes text
    let output ← decodeQuad c
    return output ++ (← decodeLoop fuel text)

/-- `lb64decode`. -/
def lb64decode (text : List UInt8) : Option (List UInt8) :=
  decodeLoop text.length text

/-! ### The fuel -/

lemma nextIndex_length {text rest : List UInt8} {c : ℤ} (h : nextIndex text = some (c, rest)) :
    rest.length < text.length := by
  induction text with
  | nil => simp [nextIndex] at h
  | cons x text ih =>
    rw [nextIndex] at h
    split_ifs at h with hx
    · exact (ih h).trans (by simp)
    · simp only [Option.some.injEq, Prod.mk.injEq] at h
      simp [h.2]

lemma nextIndexes_eq_some_iff {text rest : List UInt8} {c : ℤ × ℤ × ℤ × ℤ} :
    nextIndexes text = some (c, rest) ↔ ∃ t₁ t₂ t₃, nextIndex text = some (c.1, t₁) ∧
      nextIndex t₁ = some (c.2.1, t₂) ∧ nextIndex t₂ = some (c.2.2.1, t₃) ∧
        nextIndex t₃ = some (c.2.2.2, rest) := by
  obtain ⟨c₀, c₁, c₂, c₃⟩ := c
  simp only [nextIndexes, Option.bind_eq_bind, Option.bind_eq_some_iff, Prod.exists,
    Option.pure_def, Option.some.injEq, Prod.mk.injEq]
  constructor
  · rintro ⟨a₀, t₁, h₀, a₁, t₂, h₁, a₂, t₃, h₂, a₃, t₄, h₃, ⟨rfl, rfl, rfl, rfl⟩, rfl⟩
    exact ⟨t₁, t₂, t₃, h₀, h₁, h₂, h₃⟩
  · rintro ⟨t₁, t₂, t₃, h₀, h₁, h₂, h₃⟩
    exact ⟨_, t₁, h₀, _, t₂, h₁, _, t₃, h₂, _, _, h₃, ⟨rfl, rfl, rfl, rfl⟩, rfl⟩

lemma nextIndexes_length {text rest : List UInt8} {c : ℤ × ℤ × ℤ × ℤ}
    (h : nextIndexes text = some (c, rest)) : rest.length < text.length := by
  obtain ⟨t₁, t₂, t₃, h₀, h₁, h₂, h₃⟩ := nextIndexes_eq_some_iff.mp h
  have := nextIndex_length h₀
  have := nextIndex_length h₁
  have := nextIndex_length h₂
  have := nextIndex_length h₃
  omega

/-- Fuel for every byte of the text is enough. -/
lemma decodeLoop_of_le {fuel fuel' : ℕ} {text : List UInt8} (h : text.length ≤ fuel)
    (h' : text.length ≤ fuel') : decodeLoop fuel text = decodeLoop fuel' text := by
  induction fuel generalizing fuel' text with
  | zero =>
    obtain rfl : text = [] := List.length_eq_zero_iff.mp (by omega)
    cases fuel' <;> rfl
  | succ fuel ih =>
    cases text with
    | nil => cases fuel' <;> rfl
    | cons x text =>
      cases fuel' with
      | zero => simp at h'
      | succ fuel' =>
        simp only [decodeLoop]
        cases hn : nextIndexes (x :: text) with
        | none => rfl
        | some p =>
          have hlt : p.2.length < (x :: text).length := nextIndexes_length hn
          have hrest : decodeLoop fuel p.2 = decodeLoop fuel' p.2 := by
            simp only [List.length_cons] at h h' hlt
            exact ih (by omega) (by omega)
          simp only [Option.bind_eq_bind, Option.bind_some]
          rw [hrest]

/-- One turn of the outer loop of `lb64decode`. -/
lemma lb64decode_of_ne_nil {text : List UInt8} (h : text ≠ []) :
    lb64decode text = (nextIndexes text).bind fun p =>
      (decodeQuad p.1).bind fun output => (lb64decode p.2).map (output ++ ·) := by
  cases text with
  | nil => exact absurd rfl h
  | cons x text =>
    rw [lb64decode, List.length_cons, decodeLoop]
    · cases hn : nextIndexes (x :: text) with
      | none => rfl
      | some p =>
        have hle : p.2.length ≤ text.length := Nat.lt_succ_iff.mp (nextIndexes_length hn)
        simp only [Option.bind_eq_bind, Option.bind_some, lb64decode]
        rw [decodeLoop_of_le hle le_rfl]
        cases decodeQuad p.1 with
        | none => rfl
        | some output => cases decodeLoop p.2.length p.2 <;> rfl
    · simp

@[simp] lemma lb64decode_nil : lb64decode [] = some [] := rfl

/-! ### The characters that are skipped -/

/-- The characters that the decoder does not skip. -/
def clean (text : List UInt8) : List UInt8 := text.filter (b64index · ≠ -1)

/-- The text is empty or its last character counts. -/
def Ends (text : List UInt8) : Prop := ∀ x ∈ text.getLast?, b64index x ≠ -1

instance (text : List UInt8) : Decidable (Ends text) := Option.decidableForallMem text.getLast?

lemma clean_cons_of_ne {x : UInt8} (h : b64index x ≠ -1) (text : List UInt8) :
    clean (x :: text) = x :: clean text := by simp [clean, h]

lemma clean_cons_of_eq {x : UInt8} (h : b64index x = -1) (text : List UInt8) :
    clean (x :: text) = clean text := by simp [clean, h]

lemma ends_cons_iff {x : UInt8} {text : List UInt8} :
    Ends (x :: text) ↔ (text = [] → b64index x ≠ -1) ∧ Ends text := by
  cases text with
  | nil => simp [Ends]
  | cons y text => simp [Ends]

/-- What the skipping loop does, read off the characters that count. -/
lemma nextIndex_spec (text : List UInt8) :
    match nextIndex text with
    | none => clean text = []
    | some (c, rest) => ∃ x, b64index x = c ∧ c ≠ -1 ∧ clean text = x :: clean rest ∧
        (Ends text ↔ Ends rest) := by
  induction text with
  | nil => rfl
  | cons x text ih =>
    rw [nextIndex]
    split_ifs with hx
    · rw [clean_cons_of_eq hx]
      cases hn : nextIndex text with
      | none => rwa [hn] at ih
      | some p =>
        rw [hn] at ih
        obtain ⟨y, hy, hne, hclean, hends⟩ := ih
        have htext : text ≠ [] := by
          rintro rfl
          simp [clean] at hclean
        exact ⟨y, hy, hne, hclean, by simp [ends_cons_iff, htext, hends]⟩
    · exact ⟨x, rfl, hx, clean_cons_of_ne hx text, by simp [ends_cons_iff, hx]⟩

lemma nextIndex_of_clean {text rest : List UInt8} {c : ℤ} (h : nextIndex text = some (c, rest)) :
    nextIndex (clean text) = some (c, clean rest) ∧ (Ends text ↔ Ends rest) := by
  have hspec := nextIndex_spec text
  rw [h] at hspec
  obtain ⟨x, hx, hne, hclean, hends⟩ := hspec
  exact ⟨by rw [hclean, nextIndex, if_neg (hx ▸ hne), hx], hends⟩

lemma nextIndex_clean_eq_none {text : List UInt8} (h : nextIndex text = none) :
    nextIndex (clean text) = none := by
  have hspec := nextIndex_spec text
  rw [h] at hspec
  rw [show clean text = [] from hspec]
  rfl

lemma nextIndexes_of_clean {text rest : List UInt8} {c : ℤ × ℤ × ℤ × ℤ}
    (h : nextIndexes text = some (c, rest)) :
    nextIndexes (clean text) = some (c, clean rest) ∧ (Ends text ↔ Ends rest) := by
  obtain ⟨t₁, t₂, t₃, h₀, h₁, h₂, h₃⟩ := nextIndexes_eq_some_iff.mp h
  obtain ⟨h₀, e₀⟩ := nextIndex_of_clean h₀
  obtain ⟨h₁, e₁⟩ := nextIndex_of_clean h₁
  obtain ⟨h₂, e₂⟩ := nextIndex_of_clean h₂
  obtain ⟨h₃, e₃⟩ := nextIndex_of_clean h₃
  exact ⟨nextIndexes_eq_some_iff.mpr ⟨_, _, _, h₀, h₁, h₂, h₃⟩, by rw [e₀, e₁, e₂, e₃]⟩

lemma nextIndexes_clean_eq_none {text : List UInt8} (h : nextIndexes text = none) :
    nextIndexes (clean text) = none := by
  simp only [nextIndexes, Option.bind_eq_bind] at h ⊢
  cases h₀ : nextIndex text with
  | none => simp [nextIndex_clean_eq_none h₀]
  | some p₀ =>
    cases h₁ : nextIndex p₀.2 with
    | none => simp [(nextIndex_of_clean h₀).1, nextIndex_clean_eq_none h₁]
    | some p₁ =>
      cases h₂ : nextIndex p₁.2 with
      | none =>
        simp [(nextIndex_of_clean h₀).1, (nextIndex_of_clean h₁).1, nextIndex_clean_eq_none h₂]
      | some p₂ =>
        cases h₃ : nextIndex p₂.2 with
        | none =>
          simp [(nextIndex_of_clean h₀).1, (nextIndex_of_clean h₁).1, (nextIndex_of_clean h₂).1,
            nextIndex_clean_eq_none h₃]
        | some p₃ => simp [h₀, h₁, h₂, h₃] at h

/-- A text of skipped characters only does not end well. -/
lemma eq_nil_of_ends {text : List UInt8} (h : clean text = []) (hends : Ends text) : text = [] := by
  by_contra hne
  have hlast := List.getLast?_eq_some_getLast hne
  have hmem : text.getLast hne ∈ clean text :=
    List.mem_filter.mpr ⟨List.getLast_mem hne, by simpa using hends _ (by simp [hlast])⟩
  simp [h] at hmem

/-- Skipped characters change nothing, but a text must not end in one: the loop has then begun a
group that it cannot finish. -/
lemma lb64decode_eq_clean (text : List UInt8) :
    lb64decode text = if Ends text then lb64decode (clean text) else none := by
  induction hn : text.length using Nat.strong_induction_on generalizing text with
  | _ n ih =>
    by_cases htext : text = []
    · subst htext
      simp [Ends, clean]
    · rw [lb64decode_of_ne_nil htext]
      cases hnext : nextIndexes text with
      | none =>
        rw [Option.bind_none]
        split_ifs with hends
        · have hne : clean text ≠ [] := fun hc => htext (eq_nil_of_ends hc hends)
          rw [lb64decode_of_ne_nil hne, nextIndexes_clean_eq_none hnext, Option.bind_none]
        · rfl
      | some p =>
        obtain ⟨c, rest⟩ := p
        obtain ⟨hclean, hends⟩ := nextIndexes_of_clean hnext
        have hne : clean text ≠ [] := by
          intro hc
          rw [hc] at hclean
          simp [nextIndexes, nextIndex] at hclean
        rw [Option.bind_some, ih _ (hn ▸ nextIndexes_length hnext) rest rfl,
          lb64decode_of_ne_nil hne, hclean, Option.bind_some]
        simp only [hends]
        split_ifs with h
        · rfl
        · simp

/-! ### The alphabet -/

/-- The index of a digit is what it stands for. -/
lemma b64index_encoding {v : ℕ} (h : v < 64) : b64index (encoding v) = v := by
  have hall : ∀ v : Fin 64, b64index (encoding v) = (v : ℕ) := by decide
  exact hall ⟨v, h⟩

lemma b64index_padding : b64index 61 = -2 := by decide

lemma nextIndex_encoding {v : ℕ} (h : v < 64) (text : List UInt8) :
    nextIndex (encoding v :: text) = some ((v : ℤ), text) := by
  rw [nextIndex, b64index_encoding h, if_neg (by omega)]

lemma nextIndex_padding (text : List UInt8) : nextIndex (61 :: text) = some (-2, text) := by
  rw [nextIndex, b64index_padding, if_neg (by decide)]

/-! ### The bits of a group -/

lemma shiftLeft_or_eq {a b i : ℕ} (h : b < 2 ^ i) : a <<< i ||| b = a * 2 ^ i + b := by
  rw [← Nat.shiftLeft_add_eq_or_of_lt h, Nat.shiftLeft_eq]

lemma and_six (v : ℕ) : v &&& 0x3f = v % 2 ^ 6 := Nat.and_two_pow_sub_one_eq_mod v 6

lemma and_four (v : ℕ) : v &&& 0xf = v % 2 ^ 4 := Nat.and_two_pow_sub_one_eq_mod v 4

lemma and_two (v : ℕ) : v &&& 3 = v % 2 ^ 2 := Nat.and_two_pow_sub_one_eq_mod v 2

lemma and_eight (v : ℕ) : v &&& 0xff = v % 2 ^ 8 := Nat.and_two_pow_sub_one_eq_mod v 8

lemma join_four (v : ℕ) : v >>> 18 <<< 18 ||| (v >>> 12 &&& 0x3f) <<< 12 |||
    (v >>> 6 &&& 0x3f) <<< 6 ||| (v &&& 0x3f) = v := by
  rw [Nat.lor_assoc, Nat.lor_assoc]
  simp only [and_six, Nat.shiftRight_eq_div_pow]
  rw [shiftLeft_or_eq (i := 6) (by omega), shiftLeft_or_eq (i := 12) (by omega),
    shiftLeft_or_eq (i := 18) (by omega)]
  omega

lemma join_three (v : ℕ) : v >>> 10 <<< 10 ||| (v >>> 4 &&& 0x3f) <<< 4 |||
    ((v &&& 0xf) <<< 2) >>> 2 = v := by
  rw [Nat.lor_assoc]
  simp only [and_six, and_four, Nat.shiftRight_eq_div_pow, Nat.shiftLeft_eq _ 2]
  rw [shiftLeft_or_eq (i := 4) (by omega), shiftLeft_or_eq (i := 10) (by omega)]
  omega

lemma join_two (v : ℕ) : v >>> 2 <<< 2 ||| ((v &&& 3) <<< 4) >>> 4 = v := by
  simp only [and_two, Nat.shiftRight_eq_div_pow, Nat.shiftLeft_eq _ 4]
  rw [shiftLeft_or_eq (by omega)]
  omega

lemma three_bytes (a b c : UInt8) : a.toNat <<< 16 ||| b.toNat <<< 8 ||| c.toNat =
    a.toNat * 2 ^ 16 + (b.toNat * 2 ^ 8 + c.toNat) := by
  have hb := b.toNat_lt
  have hc := c.toNat_lt
  rw [Nat.lor_assoc, shiftLeft_or_eq (i := 8) hc, shiftLeft_or_eq (i := 16) (by omega)]

lemma two_bytes (a b : UInt8) : a.toNat <<< 8 ||| b.toNat = a.toNat * 2 ^ 8 + b.toNat :=
  shiftLeft_or_eq b.toNat_lt

lemma three_bytes_high (a b c : UInt8) :
    (a.toNat <<< 16 ||| b.toNat <<< 8 ||| c.toNat) >>> 18 < 64 := by
  have ha := a.toNat_lt
  have hb := b.toNat_lt
  have hc := c.toNat_lt
  rw [three_bytes, Nat.shiftRight_eq_div_pow]
  omega

lemma two_bytes_high (a b : UInt8) : (a.toNat <<< 8 ||| b.toNat) >>> 10 < 64 := by
  have ha := a.toNat_lt
  have hb := b.toNat_lt
  rw [two_bytes, Nat.shiftRight_eq_div_pow]
  omega

lemma one_byte_high (a : UInt8) : a.toNat >>> 2 < 64 := by
  have ha := a.toNat_lt
  rw [Nat.shiftRight_eq_div_pow]
  omega

lemma and_six_lt (v : ℕ) : v &&& 0x3f < 64 := by
  rw [and_six]
  omega

lemma and_four_shiftLeft_lt (v : ℕ) : (v &&& 0xf) <<< 2 < 64 := by
  rw [and_four, Nat.shiftLeft_eq]
  omega

lemma and_two_shiftLeft_lt (v : ℕ) : (v &&& 3) <<< 4 < 64 := by
  rw [and_two, Nat.shiftLeft_eq]
  omega

lemma toUInt8_eq {v : ℕ} {x : UInt8} (h : v = x.toNat) : v.toUInt8 = x := by
  rw [h]
  exact UInt8.ofNat_toNat

/-- A group of three bytes. -/
lemma decodeQuad_three (a b c : UInt8) {v : ℕ}
    (hv : v = a.toNat <<< 16 ||| b.toNat <<< 8 ||| c.toNat) :
    decodeQuad ((v >>> 18 : ℕ), (v >>> 12 &&& 0x3f : ℕ), (v >>> 6 &&& 0x3f : ℕ),
      (v &&& 0x3f : ℕ)) = some [a, b, c] := by
  have ha := a.toNat_lt
  have hb := b.toNat_lt
  have hc := c.toNat_lt
  have hcount : [((v >>> 18 : ℕ) : ℤ), (v >>> 12 &&& 0x3f : ℕ), (v >>> 6 &&& 0x3f : ℕ),
      (v &&& 0x3f : ℕ)].count (-2) = 0 := by
    rw [List.count_eq_zero]
    simp only [List.mem_cons, List.not_mem_nil, or_false, not_or]
    omega
  simp only [decodeQuad, hcount, Int.toNat_natCast, join_four, Option.some.injEq,
    List.cons.injEq, and_true]
  rw [three_bytes] at hv
  simp only [and_eight, Nat.shiftRight_eq_div_pow]
  exact ⟨toUInt8_eq (by omega), toUInt8_eq (by omega), toUInt8_eq (by omega)⟩

/-- A group of two bytes. -/
lemma decodeQuad_two (a b : UInt8) {v : ℕ} (hv : v = a.toNat <<< 8 ||| b.toNat) :
    decodeQuad ((v >>> 10 : ℕ), (v >>> 4 &&& 0x3f : ℕ), ((v &&& 0xf) <<< 2 : ℕ), -2) =
      some [a, b] := by
  have ha := a.toNat_lt
  have hb := b.toNat_lt
  have hcount : [((v >>> 10 : ℕ) : ℤ), (v >>> 4 &&& 0x3f : ℕ), ((v &&& 0xf) <<< 2 : ℕ),
      -2].count (-2) = 1 := by
    rw [List.count_cons_of_ne (by omega), List.count_cons_of_ne (by omega),
      List.count_cons_of_ne (by omega), List.count_singleton_self]
  have hlow : ((v &&& 0xf) <<< 2) &&& 3 = 0 := by
    rw [and_two, and_four, Nat.shiftLeft_eq]
    omega
  simp only [decodeQuad, hcount, Int.toNat_natCast, hlow, ne_eq, not_true_eq_false, or_self,
    if_false, join_three, Option.some.injEq, List.cons.injEq, and_true]
  rw [two_bytes] at hv
  simp only [and_eight, Nat.shiftRight_eq_div_pow]
  exact ⟨toUInt8_eq (by omega), toUInt8_eq (by omega)⟩

/-- A group of one byte. -/
lemma decodeQuad_one (a : UInt8) :
    decodeQuad ((a.toNat >>> 2 : ℕ), ((a.toNat &&& 3) <<< 4 : ℕ), -2, -2) = some [a] := by
  have hcount : [((a.toNat >>> 2 : ℕ) : ℤ), ((a.toNat &&& 3) <<< 4 : ℕ), -2, -2].count (-2) =
      2 := by
    rw [List.count_cons_of_ne (by omega), List.count_cons_of_ne (by omega)]
    rfl
  have hlow : ((a.toNat &&& 3) <<< 4) &&& 0xf = 0 := by
    rw [and_two, and_four, Nat.shiftLeft_eq]
    omega
  simp only [decodeQuad, hcount, Int.toNat_natCast, hlow, ne_eq, not_true_eq_false, or_self,
    if_false, join_two, Option.some.injEq, List.cons.injEq, and_true]
  exact toUInt8_eq rfl

/-! ### Round trip -/

/-- One group of an encoded text. -/
lemma lb64decode_group {x₀ x₁ x₂ x₃ : UInt8} {c₀ c₁ c₂ c₃ : ℤ} {output : List UInt8}
    (h₀ : ∀ text, nextIndex (x₀ :: text) = some (c₀, text))
    (h₁ : ∀ text, nextIndex (x₁ :: text) = some (c₁, text))
    (h₂ : ∀ text, nextIndex (x₂ :: text) = some (c₂, text))
    (h₃ : ∀ text, nextIndex (x₃ :: text) = some (c₃, text))
    (h : decodeQuad (c₀, c₁, c₂, c₃) = some output) (text : List UInt8) :
    lb64decode (x₀ :: x₁ :: x₂ :: x₃ :: text) = (lb64decode text).map (output ++ ·) := by
  have hnext : nextIndexes (x₀ :: x₁ :: x₂ :: x₃ :: text) = some ((c₀, c₁, c₂, c₃), text) :=
    nextIndexes_eq_some_iff.mpr ⟨_, _, _, h₀ _, h₁ _, h₂ _, h₃ _⟩
  rw [lb64decode_of_ne_nil (by simp), hnext, Option.bind_some, h, Option.bind_some]

/-- An encoded text with something after it: the decoder gives the text and goes on. -/
lemma lb64decode_append (bytes text : List UInt8) :
    lb64decode (lb64encode bytes ++ text) = (lb64decode text).map (bytes ++ ·) := by
  induction bytes using lb64encode.induct with
  | case1 a b c bytes ih =>
    simp only [lb64encode, List.cons_append]
    rw [lb64decode_group (nextIndex_encoding (three_bytes_high a b c))
      (nextIndex_encoding (and_six_lt _)) (nextIndex_encoding (and_six_lt _))
      (nextIndex_encoding (and_six_lt _)) (decodeQuad_three a b c rfl), ih]
    cases lb64decode text <;> simp
  | case2 a =>
    simp only [lb64encode, List.cons_append, List.nil_append]
    exact lb64decode_group (nextIndex_encoding (one_byte_high a))
      (nextIndex_encoding (and_two_shiftLeft_lt _)) nextIndex_padding nextIndex_padding
      (decodeQuad_one a) text
  | case3 a b =>
    simp only [lb64encode, List.cons_append, List.nil_append]
    exact lb64decode_group (nextIndex_encoding (two_bytes_high a b))
      (nextIndex_encoding (and_six_lt _)) (nextIndex_encoding (and_four_shiftLeft_lt _))
      nextIndex_padding (decodeQuad_two a b rfl) text
  | case4 => simp [lb64encode]

/-- An encoded text has characters of the alphabet and paddings only. -/
lemma b64index_of_mem_lb64encode {bytes : List UInt8} {x : UInt8} (h : x ∈ lb64encode bytes) :
    b64index x ≠ -1 := by
  have hdigit : ∀ {v : ℕ}, v < 64 → x = encoding v → b64index x ≠ -1 := by
    rintro v hv rfl
    rw [b64index_encoding hv]
    omega
  have hpadding : x = 61 → b64index x ≠ -1 := by
    rintro rfl
    rw [b64index_padding]
    decide
  induction bytes using lb64encode.induct with
  | case1 a b c bytes ih =>
    simp only [lb64encode, List.mem_cons] at h
    rcases h with h | h | h | h | h
    · exact hdigit (three_bytes_high a b c) h
    · exact hdigit (and_six_lt _) h
    · exact hdigit (and_six_lt _) h
    · exact hdigit (and_six_lt _) h
    · exact ih h
  | case2 a =>
    simp only [lb64encode, List.mem_cons, List.not_mem_nil, or_false] at h
    rcases h with h | h | h | h
    · exact hdigit (one_byte_high a) h
    · exact hdigit (and_two_shiftLeft_lt _) h
    · exact hpadding h
    · exact hpadding h
  | case3 a b =>
    simp only [lb64encode, List.mem_cons, List.not_mem_nil, or_false] at h
    rcases h with h | h | h | h
    · exact hdigit (two_bytes_high a b) h
    · exact hdigit (and_six_lt _) h
    · exact hdigit (and_four_shiftLeft_lt _) h
    · exact hpadding h
  | case4 => simp [lb64encode] at h

/-- What is encoded is decoded. -/
lemma lb64decode_lb64encode (bytes : List UInt8) : lb64decode (lb64encode bytes) = some bytes := by
  simpa using lb64decode_append bytes []

lemma lb64decode_flatten (texts : List (List UInt8)) :
    lb64decode (texts.map lb64encode).flatten = some texts.flatten := by
  induction texts with
  | nil => rfl
  | cons bytes texts ih => simp [lb64decode_append, ih]

/-- A text that holds encoded texts one after the other, with any other characters among them, is
decoded to what was encoded, unless it ends in another character: then it is refused.

**Proof sketch.** The inner loop takes the next character that counts, so that a turn of the outer
loop takes the same group from a text and from its characters that count. Behind the last group
the loop is left only when nothing is left at all. A group written by the encoder is three, two or
one bytes by the bits of the shifts, and the loop goes on behind it. -/
theorem lb64decode_noisy (text : List UInt8) (texts : List (List UInt8))
    (h : clean text = (texts.map lb64encode).flatten) :
    lb64decode text = if Ends text then some texts.flatten else none := by
  rw [lb64decode_eq_clean, h, lb64decode_flatten]

/-- A line break within an encoded text, and one behind it. -/
theorem lb64decode_lineBreak :
    lb64decode [81, 10, 81, 61, 61] = some [65] ∧ lb64decode [81, 81, 61, 61, 10] = none := by
  constructor
  · rw [lb64decode_noisy [81, 10, 81, 61, 61] [[65]] (by decide), if_pos (by decide)]
    rfl
  · rw [lb64decode_noisy [81, 81, 61, 61, 10] [[65]] (by decide), if_neg (by decide)]

end Gate
