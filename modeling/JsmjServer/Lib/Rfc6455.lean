import Mathlib.Algebra.Order.Ring.Nat
import Mathlib.Data.Fin.VecNotation
import Mathlib.Data.List.Induction
import Mathlib.Data.Nat.Digits.Defs
import Mathlib.Tactic.Ring
import JsmjServer.Lib.Sizes

set_option relaxedAutoImplicit false
set_option autoImplicit false

/-!
# The base framing of RFC 6455

The frames of the websocket protocol: their bytes, and the parser, which accepts exactly these. A
length is written in as few bytes as possible, and its most significant bit is not set; the reserved
bits are zero, as no extension is in use.

## Main definitions

* `Rfc6455.toBytes`, `Rfc6455.ofBytes` — numbers in network byte order.
* `Rfc6455.Frame` — a frame and its bytes.
* `Rfc6455.parse` — the parser.

## Main results

* `Rfc6455.parse_eq_some_iff` — the parser accepts the bytes of frames and nothing else.
-/

namespace Rfc6455

/-! ### Network byte order -/

/-- The number that some bytes denote, the most significant byte first. -/
def ofBytes (bytes : List UInt8) : ℕ := Nat.ofDigits 256 (bytes.reverse.map UInt8.toNat)

/-- A number in `k` bytes. -/
def toBytes : ℕ → ℕ → List UInt8
  | 0, _ => []
  | k + 1, n => toBytes k (n / 256) ++ [UInt8.ofNat n]

@[simp] lemma ofBytes_nil : ofBytes [] = 0 := rfl

@[simp] lemma ofBytes_concat (bytes : List UInt8) (b : UInt8) :
    ofBytes (bytes ++ [b]) = ofBytes bytes * 256 + b.toNat := by
  simp only [ofBytes, List.reverse_append, List.reverse_singleton, List.singleton_append,
    List.map_cons, Nat.ofDigits_cons]
  ring

lemma ofBytes_append (a b : List UInt8) :
    ofBytes (a ++ b) = ofBytes a * 256 ^ b.length + ofBytes b := by
  simp only [ofBytes, List.reverse_append, List.map_append, Nat.ofDigits_append, List.length_map,
    List.length_reverse]
  ring

@[simp] lemma length_toBytes (k n : ℕ) : (toBytes k n).length = k := by
  induction k generalizing n with
  | zero => rfl
  | succ k ih => simp [toBytes, ih]

lemma ofBytes_toBytes {k n : ℕ} (h : n < 256 ^ k) : ofBytes (toBytes k n) = n := by
  induction k generalizing n with
  | zero =>
    rw [Nat.pow_zero] at h
    rw [toBytes, ofBytes_nil]
    omega
  | succ k ih =>
    rw [Nat.pow_succ] at h
    rw [toBytes, ofBytes_concat, ih (Nat.div_lt_of_lt_mul (by omega)), UInt8.toNat_ofNat']
    omega

lemma toBytes_ofBytes (bytes : List UInt8) : toBytes bytes.length (ofBytes bytes) = bytes := by
  induction bytes using List.reverseRecOn with
  | nil => rfl
  | append_singleton bytes b ih =>
    have hb := b.toNat_lt
    have hdiv : (ofBytes bytes * 256 + b.toNat) / 256 = ofBytes bytes := by omega
    have hmod : UInt8.ofNat (ofBytes bytes * 256 + b.toNat) = b := by
      rw [← UInt8.toNat_inj, UInt8.toNat_ofNat']
      omega
    rw [List.length_append, List.length_singleton, toBytes, ofBytes_concat, hdiv, hmod, ih]

lemma ofBytes_lt (bytes : List UInt8) : ofBytes bytes < 256 ^ bytes.length := by
  induction bytes using List.reverseRecOn with
  | nil => simp
  | append_singleton bytes b ih =>
    have hb := b.toNat_lt
    rw [ofBytes_concat, List.length_append, List.length_singleton, Nat.pow_succ]
    omega

/-! ### Frames -/

/-- The four bytes of a masking key. -/
abbrev Mask := Fin 4 → UInt8

/-- A frame: the FIN bit, the opcode, the masking key if there is one, and the payload before
masking. -/
structure Frame where
  fin : Bool
  opcode : Fin 16
  mask : Option Mask
  payload : List UInt8
  length_lt : payload.length < 2 ^ 63

/-- Masking or unmasking. -/
def applyMask : Option Mask → List UInt8 → List UInt8
  | none, bytes => bytes
  | some m, bytes => bytes.mapIdx fun i b => b ^^^ m (Fin.ofNat 4 i)

/-- The seven bits and the further bytes in which a length is written. -/
def lengthForm (n : ℕ) : ℕ × List UInt8 :=
  if n < 126 then (n, []) else if n < 65536 then (126, toBytes 2 n) else (127, toBytes 8 n)

/-- The bytes of a masking key. -/
def maskBytes : Option Mask → List UInt8
  | none => []
  | some m => List.ofFn m

namespace Frame

variable (f : Frame)

/-- The first byte. -/
def byte0 : UInt8 := UInt8.ofNat ((if f.fin then 128 else 0) + f.opcode.val)

/-- The second byte. -/
def byte1 : UInt8 :=
  UInt8.ofNat ((if f.mask.isSome then 128 else 0) + (lengthForm f.payload.length).1)

/-- The bytes of the frame. -/
def encode : List UInt8 :=
  f.byte0 :: f.byte1 ::
    ((lengthForm f.payload.length).2 ++ (maskBytes f.mask ++ applyMask f.mask f.payload))

end Frame

/-! ### The parser -/

/-- The length behind the seven bits `l`, in the form that these tell, and the bytes after it. -/
def readLength (l : ℕ) (rest : List UInt8) : Option (ℕ × List UInt8) :=
  if l < 126 then some (l, rest)
  else
    let k := if l = 126 then 2 else 8
    if rest.length < k then none else some (ofBytes (rest.take k), rest.drop k)

/-- The length that the bytes of a header denote, in whatever form. -/
def announcedLength : List UInt8 → Option ℕ
  | _ :: b1 :: rest => (readLength (b1.toNat % 128) rest).map Prod.fst
  | _ => none

/-- The masking key, and the bytes after it. -/
def readMask (masked : Bool) (rest : List UInt8) : Option (Option Mask × List UInt8) :=
  if masked then
    match rest with
    | k0 :: k1 :: k2 :: k3 :: rest => some (some ![k0, k1, k2, k3], rest)
    | _ => none
  else some (none, rest)

/-- The first frame of some bytes, and the bytes after it. -/
def parse : List UInt8 → Option (Frame × List UInt8)
  | b0 :: b1 :: rest =>
    if b0.toNat / 16 % 8 ≠ 0 then none
    else
      match readLength (b1.toNat % 128) rest with
      | none => none
      | some (n, rest) =>
        if (lengthForm n).1 ≠ b1.toNat % 128 then none
        else
          match readMask (decide (128 ≤ b1.toNat)) rest with
          | none => none
          | some (mask, rest) =>
            let payload := applyMask mask (rest.take n)
            if h : n ≤ rest.length ∧ payload.length < 2 ^ 63 then
              some (⟨decide (128 ≤ b0.toNat), Fin.ofNat 16 b0.toNat, mask, payload, h.2⟩,
                rest.drop n)
            else none
  | _ => none

/-! ### The parser inverts the encoding -/

@[simp] lemma length_applyMask (mask : Option Mask) (bytes : List UInt8) :
    (applyMask mask bytes).length = bytes.length := by
  cases mask with
  | none => rfl
  | some m => simp [applyMask]

@[simp] lemma applyMask_applyMask (mask : Option Mask) (bytes : List UInt8) :
    applyMask mask (applyMask mask bytes) = bytes := by
  cases mask with
  | none => rfl
  | some m =>
    apply List.ext_getElem
    · simp [applyMask]
    · intro i h1 h2
      simp only [applyMask, List.getElem_mapIdx]
      rw [UInt8.xor_assoc, UInt8.xor_self, UInt8.xor_zero]

lemma lengthForm_lt (n : ℕ) : (lengthForm n).1 < 128 := by
  unfold lengthForm
  split_ifs <;> omega

/-- A length is read as it was written, and no other way. -/
lemma readLength_iff {n : ℕ} {rest rest' : List UInt8} {l : ℕ} (hn : n < 2 ^ 63) :
    (readLength l rest = some (n, rest') ∧ (lengthForm n).1 = l) ↔
      (lengthForm n).1 = l ∧ rest = (lengthForm n).2 ++ rest' := by
  rw [and_comm]
  refine and_congr_right fun hl => ?_
  subst hl
  unfold readLength lengthForm
  by_cases h7 : n < 126
  · simp [h7]
  · have hread : ∀ k, n < 256 ^ k →
        ((if rest.length < k then none else some (ofBytes (rest.take k), rest.drop k)) =
          some (n, rest') ↔ rest = toBytes k n ++ rest') := by
      intro k hk
      constructor
      · intro h
        split_ifs at h with hlen
        obtain ⟨hn', rfl⟩ := Prod.mk.inj (Option.some.inj h)
        have htake : (rest.take k).length = k := by
          rw [List.length_take]
          omega
        have hbytes := toBytes_ofBytes (rest.take k)
        rw [htake, hn'] at hbytes
        rw [hbytes, List.take_append_drop]
      · rintro rfl
        have hlen : ¬(toBytes k n ++ rest').length < k := by
          rw [List.length_append, length_toBytes]
          omega
        have htake : (toBytes k n ++ rest').take k = toBytes k n :=
          List.take_left' (length_toBytes k n)
        have hdrop : (toBytes k n ++ rest').drop k = rest' :=
          List.drop_left' (length_toBytes k n)
        rw [if_neg hlen, htake, hdrop, ofBytes_toBytes hk]
    by_cases h16 : n < 65536
    · simpa [h7, h16] using hread 2 (by omega)
    · simpa [h7, h16] using hread 8 (by omega)

lemma readMask_iff {masked : Bool} {mask : Option Mask} {rest rest' : List UInt8} :
    readMask masked rest = some (mask, rest') ↔
      mask.isSome = masked ∧ rest = maskBytes mask ++ rest' := by
  unfold readMask
  cases masked with
  | false => cases mask with
    | none => simp [maskBytes]
    | some m => simp
  | true =>
    simp only [if_true]
    cases mask with
    | none =>
      simp only [Option.isSome_none, Bool.false_eq_true, false_and, iff_false]
      split <;> simp
    | some m =>
      constructor
      · intro h
        split at h
        · obtain ⟨hm, rfl⟩ := Prod.mk.inj (Option.some.inj h)
          obtain rfl := Option.some.inj hm
          simp [maskBytes, List.ofFn_succ]
        · cases h
      · rintro ⟨-, rfl⟩
        simp only [maskBytes, List.ofFn_succ, List.ofFn_zero, List.cons_append, List.nil_append,
          Option.some.injEq, Prod.mk.injEq, and_true]
        funext i
        match i with
        | 0 => rfl
        | 1 => rfl
        | 2 => rfl
        | 3 => rfl

lemma Frame.toNat_byte0 (f : Frame) :
    f.byte0.toNat = (if f.fin then 128 else 0) + f.opcode.val := by
  have ho := f.opcode.isLt
  rw [byte0, UInt8.toNat_ofNat']
  split_ifs <;> omega

lemma Frame.toNat_byte1 (f : Frame) :
    f.byte1.toNat = (if f.mask.isSome then 128 else 0) + (lengthForm f.payload.length).1 := by
  have hl := lengthForm_lt f.payload.length
  rw [byte1, UInt8.toNat_ofNat']
  split_ifs <;> omega

/-- **The parser accepts the bytes of frames and nothing else**, and returns what follows them.

**Proof sketch.** Both the length and the masking key are read just where they are written
(`readLength_iff`, `readMask_iff`); the bits of the first two bytes are compared as numbers. -/
theorem parse_eq_some_iff {bytes rest' : List UInt8} {f : Frame} :
    parse bytes = some (f, rest') ↔ bytes = f.encode ++ rest' := by
  constructor
  · intro h
    match bytes with
    | [] => cases h
    | [_] => cases h
    | b0 :: b1 :: rest =>
      rw [parse] at h
      split_ifs at h with hrsv
      cases hread : readLength (b1.toNat % 128) rest with
      | none => simp [hread] at h
      | some p =>
        obtain ⟨n, r⟩ := p
        simp only [hread] at h
        split_ifs at h with hmin
        cases hmask : readMask (decide (128 ≤ b1.toNat)) r with
        | none => simp [hmask] at h
        | some p =>
          obtain ⟨mask, r'⟩ := p
          simp only [hmask] at h
          split_ifs at h with hlen
          obtain ⟨rfl, rfl⟩ := Prod.mk.inj (Option.some.inj h)
          obtain ⟨hsome, rfl⟩ := readMask_iff.mp hmask
          have hn : (applyMask mask (r'.take n)).length = n := by
            rw [length_applyMask, List.length_take, min_eq_left hlen.1]
          have hn' : n < 2 ^ 63 := hn ▸ hlen.2
          obtain ⟨-, rfl⟩ := (readLength_iff hn').mp ⟨hread, not_not.mp hmin⟩
          have hb0 := b0.toNat_lt
          have hb1 := b1.toNat_lt
          have h0 : ∀ g : Frame, g.fin = decide (128 ≤ b0.toNat) →
              g.opcode = Fin.ofNat 16 b0.toNat → g.byte0 = b0 := by
            intro g hfin hop
            rw [← UInt8.toNat_inj, g.toNat_byte0, hfin, hop]
            simp only [decide_eq_true_eq, Fin.val_ofNat]
            split_ifs <;> omega
          have h1 : ∀ g : Frame, g.mask = mask → g.payload.length = n → g.byte1 = b1 := by
            intro g hm hg
            rw [← UInt8.toNat_inj, g.toNat_byte1, hm, hg, hsome, not_not.mp hmin]
            simp only [decide_eq_true_eq]
            split_ifs <;> omega
          rw [Frame.encode, h0 _ rfl rfl, h1 _ rfl hn]
          simp only [hn, applyMask_applyMask, List.cons_append, List.append_assoc,
            List.take_append_drop]
  · rintro rfl
    have ho := f.opcode.isLt
    have hl := lengthForm_lt f.payload.length
    have hrsv : ¬f.byte0.toNat / 16 % 8 ≠ 0 := by
      rw [f.toNat_byte0]
      split_ifs <;> omega
    have hmod : f.byte1.toNat % 128 = (lengthForm f.payload.length).1 := by
      rw [f.toNat_byte1]
      split_ifs <;> omega
    have hmasked : decide (128 ≤ f.byte1.toNat) = f.mask.isSome := by
      rw [f.toNat_byte1]
      cases f.mask with
      | none => simpa using hl
      | some m => simp
    have hfin : decide (128 ≤ f.byte0.toNat) = f.fin := by
      rw [f.toNat_byte0]
      cases f.fin with
      | true => simp
      | false => simp; omega
    have hop : Fin.ofNat 16 f.byte0.toNat = f.opcode := by
      apply Fin.ext
      rw [Fin.val_ofNat, f.toNat_byte0]
      split_ifs <;> omega
    have hread := ((@readLength_iff _ _ (maskBytes f.mask ++ (applyMask f.mask f.payload ++ rest'))
      _ f.length_lt).mpr ⟨rfl, rfl⟩).1
    have hmask := (@readMask_iff _ f.mask _ (applyMask f.mask f.payload ++ rest')).mpr ⟨rfl, rfl⟩
    have htake : (applyMask f.mask f.payload ++ rest').take f.payload.length =
        applyMask f.mask f.payload := List.take_left' (length_applyMask _ _)
    have hdrop : (applyMask f.mask f.payload ++ rest').drop f.payload.length = rest' :=
      List.drop_left' (length_applyMask _ _)
    simp only [Frame.encode, List.cons_append, List.append_assoc, parse, hrsv, if_false, hmod,
      hread, ne_eq, not_true_eq_false, hmasked, hmask, htake, applyMask_applyMask, hdrop, hfin, hop]
    rw [dif_pos ⟨by simp, f.length_lt⟩]

end Rfc6455
