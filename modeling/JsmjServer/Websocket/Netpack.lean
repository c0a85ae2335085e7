import JsmjServer.Lib.Segments
import Mathlib.Data.Int.Basic
import Mathlib.Data.Fin.VecNotation
import Mathlib.Data.Nat.Basic
import Mathlib.Tactic.Ring
import JsmjServer.Lib.Sizes

set_option relaxedAutoImplicit false
set_option autoImplicit false

/-!
# The websocket unpacker

`filter_data_` of `lualib-src/lua-websocketnetpack.c`, after the handshake: the bytes a socket
read delivers are cut into websocket frames, whose payloads are unmasked and handed to Lua, one
directly or several through a queue.

## Main definitions

* `Websocket.readSize` — the header of a frame.
* `Websocket.pushMore`, `Websocket.filterData` — the unpacker.
* `Websocket.deliver` — one socket read, with the queue popped afterwards.
* `Websocket.Frame` — well-formed frames and their bytes.

## Main results

* `Websocket.readSize_of_prefix` — what the header parser says on a part of a frame.
* `Websocket.deliver_receives` — what one socket read does, wherever it is cut.
* `Websocket.packets_eq_payloads` — the packets do not depend on the segmentation.

## Design

A `struct uncomplete` either collects header bytes (`read` is `-1`) or a payload; the two uses
are the constructors of `Uncomplete`. The hash table of them is a function of the socket. Sizes
that C computes in an `int` are integers; a negative size that is not one of the two error codes
makes C allocate and copy a negative number of bytes, the result `fault` here.
-/

namespace Websocket

/-! ### The program -/

/-- The largest payload. -/
def maxPacksize : ℤ := 10 * 1024

/-- The four bytes of a masking key. -/
abbrev Mask := Fin 4 → UInt8

/-- The results of `read_size` besides the size: the length of the header and the mask. -/
structure Header where
  packHeadLength : ℕ
  mask : Option Mask

/-- The results before `read_size` sets them. -/
def Header.unset : Header := ⟨0, none⟩

/-- The number a list of bytes denotes in network order. -/
def beNat (bytes : List UInt8) : ℕ := bytes.foldl (fun n b => n * 256 + b.toNat) 0

/-- The value of a C `int` an unsigned number is assigned to. -/
def toInt (n : ℕ) : ℤ := Int.bmod n (2 ^ 32)

/-- The payload length of a header and the number of bytes up to its end, when they are there. -/
def readLength (buffer : List UInt8) (length : UInt8) : Option (ℤ × ℕ) :=
  if length < 0x7E then some (length.toNat, 2)
  else if length = 0x7E then
    if buffer.length < 4 then none else some (beNat ((buffer.drop 2).take 2), 4)
  else if buffer.length < 10 then none
  else some (toInt (beNat ((buffer.drop 2).take 8)), 10)

/-- `read_size`: the size of the payload; `-1` when the header is not complete, `-2` when its
first two bytes are to be dropped. -/
def readSize (buffer : List UInt8) : ℤ × Header :=
  match buffer with
  | b0 :: b1 :: _ =>
    let fin := (b0 >>> 7) &&& 0x1
    let rsv1 := (b0 >>> 6) &&& 0x1
    let rsv2 := (b0 >>> 5) &&& 0x1
    let rsv3 := (b0 >>> 4) &&& 0x1
    let opcode := b0 &&& 0xf
    let isMask := (b1 >>> 7) &&& 0x1
    if 0 ≠ rsv1 ∨ 0 ≠ rsv2 ∨ 0 ≠ rsv3 then (-2, .unset)
    else if fin = 0 ∨ opcode = 0 then (-2, .unset)
    else
      match readLength buffer (b1 &&& 0x7f) with
      | none => (-1, .unset)
      | some (packSize, offset) =>
        if isMask ≠ 0 then
          if offset + 4 > buffer.length then (-1, .unset)
          else (packSize, ⟨offset + 4, some fun i => buffer.getD (offset + i) 0⟩)
        else (packSize, ⟨offset, none⟩)
  | _ => (-1, .unset)

/-- `decode_wsmask_data`: unmask the bytes of a payload that follow `hasunmask` others. -/
def decodeWsmaskData (mask : Option Mask) (hasunmask : ℕ) (buffer : List UInt8) : List UInt8 :=
  match mask with
  | none => buffer
  | some m => buffer.mapIdx fun i b => b ^^^ m (Fin.ofNat 4 (i + hasunmask))

/-- The bytes counted as unmasked after `size` more of them. -/
def unmasked (mask : Option Mask) (hasunmask size : ℕ) : ℕ :=
  if mask.isSome then hasunmask + size else hasunmask

/-- `struct uncomplete`: a header under way, or a payload of `size` bytes whose first ones are
in `buffer`. -/
inductive Uncomplete
  | header (header : List UInt8)
  | payload (size : ℕ) (buffer : List UInt8) (mask : Option Mask) (hasunmask : ℕ)

/-- `struct queue`: the frames under way by socket, and the packets to be popped. -/
structure Queue where
  hash : ℤ → Option Uncomplete
  queue : List (ℤ × List UInt8)

namespace Queue

/-- `get_queue` the first time. -/
def new : Queue := ⟨fun _ => none, []⟩

/-- `push_data`. -/
def pushData (q : Queue) (fd : ℤ) (packet : List UInt8) : Queue :=
  { q with queue := q.queue ++ [(fd, packet)] }

/-- `save_uncomplete` and filling it. -/
def saveUncomplete (q : Queue) (fd : ℤ) (uc : Uncomplete) : Queue :=
  { q with hash := Function.update q.hash fd (some uc) }

/-- `find_uncomplete` takes the frame under way out of the table. -/
def takeUncomplete (q : Queue) (fd : ℤ) : Queue :=
  { q with hash := Function.update q.hash fd none }

end Queue

/-- The loops that drop two bytes as long as `read_size` returns a size `bad` holds of. -/
def skipInvalid (bad : ℤ → Bool) : List UInt8 → List UInt8
  | b0 :: b1 :: rest =>
    if bad (readSize (b0 :: b1 :: rest)).1 then skipInvalid bad rest else b0 :: b1 :: rest
  | buffer => buffer

/-- The sizes `filter_data_` skips. -/
def badSize (size : ℤ) : Bool := size = -2 || maxPacksize < size

/-- The sizes `push_more` skips. -/
def badSizeMore (size : ℤ) : Bool := size ≤ -2 || maxPacksize < size

/-- `push_more`, with fuel for the depth of the recursion. -/
def pushMore : ℕ → Queue → ℤ → List UInt8 → Queue
  | 0, q, _, _ => q
  | fuel + 1, q, fd, buffer =>
    let buffer := skipInvalid badSizeMore buffer
    let r := readSize buffer
    if r.1 = -1 then q.saveUncomplete fd (.header buffer)
    else
      let packSize := r.1.toNat
      let mask := r.2.mask
      let buffer := buffer.drop r.2.packHeadLength
      if buffer.length < packSize then
        q.saveUncomplete fd (.payload packSize (decodeWsmaskData mask 0 buffer) mask
          (unmasked mask 0 buffer.length))
      else
        let q := q.pushData fd (decodeWsmaskData mask 0 (buffer.take packSize))
        let buffer := buffer.drop packSize
        if buffer = [] then q else pushMore fuel q fd buffer

/-- What `filter_data_` returns: nothing yet, one packet (`TYPE_DATA`), or packets in the queue
(`TYPE_MORE`). -/
inductive Result
  | none
  | data (packet : List UInt8)
  | more
  | fault

/-- The loop of `filter_data_` that appends bytes to a header under way until its size is known
or the bytes are used up. -/
def headerLoop (header : List UInt8) (r : ℤ × Header) :
    List UInt8 → List UInt8 × (ℤ × Header) × List UInt8
  | [] => (header, r, [])
  | b :: rest =>
    let header := skipInvalid badSize (header ++ [b])
    let r := readSize header
    if r.1 ≥ 0 ∨ rest = [] then (header, r, rest) else headerLoop header r rest

/-- The part of `filter_data_` that completes a payload under way. -/
def fillPayload (q : Queue) (fd : ℤ) (size : ℕ) (read : List UInt8) (mask : Option Mask)
    (hasunmask : ℕ) (buffer : List UInt8) : Result × Queue :=
  let need := size - read.length
  if buffer.length < need then
    (.none, q.saveUncomplete fd (.payload size (read ++ decodeWsmaskData mask hasunmask buffer)
      mask (unmasked mask hasunmask buffer.length)))
  else
    let packet := read ++ decodeWsmaskData mask hasunmask (buffer.take need)
    let buffer := buffer.drop need
    if buffer = [] then (.data packet, q)
    else (.more, pushMore buffer.length (q.pushData fd packet) fd buffer)

/-- `filter_data_` with `wsocket_handeshake` zero. -/
def filterData (q : Queue) (fd : ℤ) (buffer : List UInt8) : Result × Queue :=
  match q.hash fd with
  | some (.header header) =>
    let q := q.takeUncomplete fd
    let (header, r, buffer) := headerLoop header (0, .unset) buffer
    if r.1 = -1 then (.none, q.saveUncomplete fd (.header header))
    else if r.1 < 0 then (.fault, q)
    else fillPayload q fd r.1.toNat [] r.2.mask 0 buffer
  | some (.payload size read mask hasunmask) =>
    fillPayload (q.takeUncomplete fd) fd size read mask hasunmask buffer
  | none =>
    let buffer := skipInvalid badSize buffer
    let r := readSize buffer
    if r.1 = -1 then (.none, q.saveUncomplete fd (.header buffer))
    else if r.1 < 0 then (.fault, q)
    else
      let packSize := r.1.toNat
      let mask := r.2.mask
      let buffer := buffer.drop r.2.packHeadLength
      if buffer.length < packSize then
        (.none, q.saveUncomplete fd (.payload packSize (decodeWsmaskData mask 0 buffer) mask
          (unmasked mask 0 buffer.length)))
      else if buffer.length = packSize then (.data (decodeWsmaskData mask 0 buffer), q)
      else
        let q := q.pushData fd (decodeWsmaskData mask 0 (buffer.take packSize))
        let buffer := buffer.drop packSize
        (.more, pushMore buffer.length q fd buffer)

/-- The packets Lua gets from a result of `filter_data_`: the one returned, or those `lpop` takes
off the queue when more are announced. -/
def collect (fd : ℤ) : Result × Queue → List (ℤ × List UInt8) × Queue
  | (.none, q) => ([], q)
  | (.data packet, q) => ([(fd, packet)], q)
  | (.more, q) => (q.queue, { q with queue := [] })
  | (.fault, q) => ([], q)

/-- One socket read. -/
def deliver (q : Queue) (fd : ℤ) (buffer : List UInt8) : List (ℤ × List UInt8) × Queue :=
  collect fd (filterData q fd buffer)

/-! ### Well-formed frames -/

/-- The three forms of the payload length in a header. -/
inductive LengthForm
  | seven | sixteen | sixtyFour
  deriving DecidableEq

/-- The bytes of a number in network order. -/
def beBytes : ℕ → ℕ → List UInt8
  | 0, _ => []
  | k + 1, n => UInt8.ofNat (n / 256 ^ k) :: beBytes k n

/-- A well-formed unfragmented frame: FIN set, no reserved bit, a non-zero opcode, and a payload
within the limit whose length fits the form it is written in. -/
structure Frame where
  opcode : Fin 16
  form : LengthForm
  mask : Option Mask
  payload : List UInt8
  opcode_ne : opcode ≠ 0
  length_le : payload.length ≤ 10240
  form_fits : form = .seven → payload.length < 126

namespace Frame

variable (f : Frame)

/-- The seven length bits of the second byte. -/
def lengthBits : ℕ :=
  match f.form with
  | .seven => f.payload.length
  | .sixteen => 126
  | .sixtyFour => 127

/-- The extended length. -/
def extended : List UInt8 :=
  match f.form with
  | .seven => []
  | .sixteen => beBytes 2 f.payload.length
  | .sixtyFour => beBytes 8 f.payload.length

/-- The masking key. -/
def maskBytes : List UInt8 :=
  match f.mask with
  | none => []
  | some m => List.ofFn m

/-- The first byte: FIN and the opcode. -/
def byte0 : UInt8 := UInt8.ofNat (128 + f.opcode.val)

/-- The second byte: the mask bit and the length bits. -/
def byte1 : UInt8 := UInt8.ofNat ((if f.mask.isSome then 128 else 0) + f.lengthBits)

/-- The header of the frame. -/
def header : List UInt8 := f.byte0 :: f.byte1 :: (f.extended ++ f.maskBytes)

/-- The bytes of the frame: the header and the masked payload. -/
def encode : List UInt8 := f.header ++ decodeWsmaskData f.mask 0 f.payload

end Frame

/-! ### Masks and numbers -/

@[simp] lemma length_decodeWsmaskData (mask : Option Mask) (n : ℕ) (l : List UInt8) :
    (decodeWsmaskData mask n l).length = l.length := by
  cases mask with
  | none => rfl
  | some m => simp [decodeWsmaskData]

/-- Unmasking a payload in two parts, the second with the count of the first. -/
lemma decodeWsmaskData_append (mask : Option Mask) (n : ℕ) (l l' : List UInt8) :
    decodeWsmaskData mask n (l ++ l') =
      decodeWsmaskData mask n l ++ decodeWsmaskData mask (unmasked mask n l.length) l' := by
  cases mask with
  | none => rfl
  | some m =>
    simp only [decodeWsmaskData, List.mapIdx_append, unmasked, Option.isSome_some, if_true]
    congr 2
    funext i b
    rw [Nat.add_right_comm, Nat.add_assoc]

/-- Masking is undone by masking again. -/
lemma decodeWsmaskData_decodeWsmaskData (mask : Option Mask) (n : ℕ) (l : List UInt8) :
    decodeWsmaskData mask n (decodeWsmaskData mask n l) = l := by
  cases mask with
  | none => rfl
  | some m =>
    apply List.ext_getElem
    · simp [decodeWsmaskData]
    · intro i h1 h2
      simp only [decodeWsmaskData, List.getElem_mapIdx]
      rw [UInt8.xor_assoc, UInt8.xor_self, UInt8.xor_zero]

lemma unmasked_add (mask : Option Mask) (n a b : ℕ) :
    unmasked mask (unmasked mask n a) b = unmasked mask n (a + b) := by
  unfold unmasked
  split_ifs <;> omega

@[simp] lemma length_beBytes (k n : ℕ) : (beBytes k n).length = k := by
  induction k with
  | zero => rfl
  | succ k ih => simp [beBytes, ih]

/-- Reading back the bytes of a number. -/
lemma beNat_beBytes (k n : ℕ) (h : n < 256 ^ k) : beNat (beBytes k n) = n := by
  have hacc : ∀ k acc n, (beBytes k n).foldl (fun n b => n * 256 + b.toNat) acc =
      acc * 256 ^ k + n % 256 ^ k := by
    intro k
    induction k with
    | zero => simp [beBytes, Nat.mod_one]
    | succ k ih =>
      intro acc n
      have hmod : n % 256 ^ (k + 1) = n / 256 ^ k % 256 * 256 ^ k + n % 256 ^ k := by
        rw [Nat.pow_succ, Nat.mod_mul, Nat.mul_comm (256 ^ k), Nat.add_comm]
      simp only [beBytes, List.foldl_cons, ih, UInt8.toNat_ofNat', hmod]
      ring
  rw [beNat, hacc, Nat.zero_mul, Nat.zero_add, Nat.mod_eq_of_lt h]

lemma toInt_of_le {n : ℕ} (h : n ≤ 10240) : toInt n = n := by
  unfold toInt
  rw [Int.bmod_eq_of_le] <;> omega

/-! ### Headers -/

lemma byte0_spec : ∀ o : Fin 16, o ≠ 0 →
    (UInt8.ofNat (128 + o.val) >>> 6) &&& 0x1 = 0 ∧
    (UInt8.ofNat (128 + o.val) >>> 5) &&& 0x1 = 0 ∧
    (UInt8.ofNat (128 + o.val) >>> 4) &&& 0x1 = 0 ∧
    (UInt8.ofNat (128 + o.val) >>> 7) &&& 0x1 ≠ 0 ∧
    UInt8.ofNat (128 + o.val) &&& 0xf ≠ 0 := by
  decide

lemma byte1_spec : ∀ (masked : Bool) (n : Fin 128),
    ((UInt8.ofNat ((if masked then 128 else 0) + n.val) >>> 7) &&& 0x1 ≠ 0 ↔ masked = true) ∧
    UInt8.ofNat ((if masked then 128 else 0) + n.val) &&& 0x7f = UInt8.ofNat n.val := by
  decide

section Headers

variable (f : Frame)

lemma Frame.lengthBits_lt : f.lengthBits < 128 := by
  unfold lengthBits
  split
  · rename_i hf
    have := f.form_fits hf
    omega
  · omega
  · omega

/-- `read_size` after the first two bytes of a frame. -/
lemma readSize_cons (t : List UInt8) :
    readSize (f.byte0 :: f.byte1 :: t) =
      match readLength (f.byte0 :: f.byte1 :: t) (UInt8.ofNat f.lengthBits) with
      | none => (-1, .unset)
      | some (packSize, offset) =>
        if f.mask.isSome then
          if offset + 4 > t.length + 2 then (-1, .unset)
          else (packSize, ⟨offset + 4,
            some fun i => (f.byte0 :: f.byte1 :: t).getD (offset + i) 0⟩)
        else (packSize, ⟨offset, none⟩) := by
  obtain ⟨h6, h5, h4, hfin, hop⟩ := byte0_spec f.opcode f.opcode_ne
  obtain ⟨hmask, hlen⟩ := byte1_spec f.mask.isSome ⟨f.lengthBits, f.lengthBits_lt⟩
  change f.byte1 &&& 0x7f = _ at hlen
  change (f.byte1 >>> 7) &&& 0x1 ≠ 0 ↔ _ at hmask
  change (f.byte0 >>> 6) &&& 0x1 = 0 at h6
  change (f.byte0 >>> 5) &&& 0x1 = 0 at h5
  change (f.byte0 >>> 4) &&& 0x1 = 0 at h4
  change (f.byte0 >>> 7) &&& 0x1 ≠ 0 at hfin
  change f.byte0 &&& 0xf ≠ 0 at hop
  unfold readSize
  dsimp only
  rw [if_neg (by simp [h6, h5, h4]), if_neg (by simp [hfin, hop]), hlen]
  simp only [hmask, List.length_cons]

/-- Before the extended length is complete there is no size. -/
lemma readLength_of_lt {t : List UInt8} (ht : t.length < f.extended.length) :
    readLength (f.byte0 :: f.byte1 :: t) (UInt8.ofNat f.lengthBits) = none := by
  unfold readLength
  unfold Frame.extended at ht
  unfold Frame.lengthBits
  cases hf : f.form with
  | seven => simp [hf] at ht
  | sixteen =>
    simp only [hf, length_beBytes] at ht
    dsimp only
    rw [if_neg (by decide), if_pos (by decide), if_pos]
    simp only [List.length_cons]
    omega
  | sixtyFour =>
    simp only [hf, length_beBytes] at ht
    dsimp only
    rw [if_neg (by decide), if_neg (by decide), if_pos]
    simp only [List.length_cons]
    omega

/-- With the extended length the size of the payload is read. -/
lemma readLength_extended (t : List UInt8) :
    readLength (f.byte0 :: f.byte1 :: (f.extended ++ t)) (UInt8.ofNat f.lengthBits) =
      some ((f.payload.length : ℤ), 2 + f.extended.length) := by
  have hle := f.length_le
  unfold readLength
  unfold Frame.extended Frame.lengthBits
  cases hf : f.form with
  | seven =>
    have hlt := f.form_fits hf
    have hnat : (UInt8.ofNat f.payload.length).toNat = f.payload.length := by
      rw [UInt8.toNat_ofNat']
      omega
    rw [if_pos]
    · simp [hnat]
    · rw [UInt8.lt_iff_toNat_lt, hnat]
      exact hlt
  | sixteen =>
    have htake : (List.drop 2 (f.byte0 :: f.byte1 :: (beBytes 2 f.payload.length ++ t))).take 2 =
        beBytes 2 f.payload.length := by
      simp
    dsimp only
    rw [if_neg (by decide), if_pos (by decide), if_neg (by simp), htake,
      beNat_beBytes 2 _ (by omega)]
    simp
  | sixtyFour =>
    have htake : (List.drop 2 (f.byte0 :: f.byte1 :: (beBytes 8 f.payload.length ++ t))).take 8 =
        beBytes 8 f.payload.length := by
      simp
    dsimp only
    rw [if_neg (by decide), if_neg (by decide), if_neg (by simp), htake,
      beNat_beBytes 8 _ (by omega), toInt_of_le hle]
    simp

/-- A complete header is read as it was written. -/
lemma readSize_header (t : List UInt8) :
    readSize (f.header ++ t) = ((f.payload.length : ℤ), ⟨f.header.length, f.mask⟩) := by
  have hcons : f.header ++ t = f.byte0 :: f.byte1 :: (f.extended ++ (f.maskBytes ++ t)) := by
    simp [Frame.header]
  rw [hcons, readSize_cons, readLength_extended]
  cases hm : f.mask with
  | none =>
    simp [Frame.header, Frame.maskBytes, hm]
    omega
  | some m =>
    have hbytes : f.maskBytes = List.ofFn m := by simp [Frame.maskBytes, hm]
    have hlen : f.header.length = 2 + f.extended.length + 4 := by
      simp [Frame.header, hbytes]
      omega
    simp only [Option.isSome_some, if_true]
    rw [if_neg (by simp [hbytes]; omega), hlen]
    congr 3
    funext i
    have hi : 2 + f.extended.length + i.val = f.extended.length + i.val + 1 + 1 := by omega
    rw [List.getD_eq_getElem?_getD, hi, List.getElem?_cons_succ, List.getElem?_cons_succ,
      List.getElem?_append_right (by omega), Nat.add_sub_cancel_left, hbytes,
      List.getElem?_append_left (by simp), List.getElem?_ofFn, dif_pos i.isLt]
    rfl

/-- A header that is not complete has no size yet. -/
lemma readSize_of_prefix_header {l : List UInt8} (hl : l <+: f.header)
    (hlt : l.length < f.header.length) : (readSize l).1 = -1 := by
  match l with
  | [] => rfl
  | [b] => rfl
  | b0 :: b1 :: t =>
    rw [Frame.header, List.cons_prefix_cons, List.cons_prefix_cons] at hl
    obtain ⟨rfl, rfl, ht⟩ := hl
    simp only [Frame.header, List.length_cons, List.length_append] at hlt
    rcases Nat.lt_or_ge t.length f.extended.length with hext | hext
    · rw [readSize_cons, readLength_of_lt f hext]
    · obtain ⟨t', rfl⟩ : f.extended <+: t :=
        List.prefix_of_prefix_length_le (List.prefix_append _ _) ht hext
      rw [readSize_cons, readLength_extended]
      simp only [List.length_append] at hlt
      cases hm : f.mask with
      | none =>
        simp only [Frame.maskBytes, hm, List.length_nil] at hlt
        omega
      | some m =>
        simp only [Frame.maskBytes, hm, List.length_ofFn] at hlt
        simp only [Option.isSome_some, if_true]
        rw [if_pos]
        simp only [List.length_append]
        omega

end Headers

/-! ### One socket read -/

lemma skipInvalid_of_not_bad {bad : ℤ → Bool} {l : List UInt8} (h : bad (readSize l).1 = false) :
    skipInvalid bad l = l := by
  match l with
  | [] => rfl
  | [b] => rfl
  | b0 :: b1 :: t => rw [skipInvalid, h]; rfl

/-- The sizes met on well-formed frames are not skipped. -/
lemma not_bad_of_incomplete : badSize (-1) = false ∧ badSizeMore (-1) = false := by decide

lemma not_bad_of_length (f : Frame) :
    badSize f.payload.length = false ∧ badSizeMore f.payload.length = false := by
  have hle := f.length_le
  have hmax : ¬maxPacksize < f.payload.length := by
    unfold maxPacksize
    omega
  have hneg : ¬(f.payload.length : ℤ) ≤ -2 := by omega
  have hne : ¬(f.payload.length : ℤ) = -2 := by omega
  simp [badSize, badSizeMore, hmax, hneg, hne]

/-- The bytes a buffer with the start of a frame holds: a part of the header, the header and a
part of the payload, or the whole frame and bytes of the frames after it. -/
lemma first_frame (f : Frame) {l rest tail : List UInt8} (h : l ++ rest = f.encode ++ tail) :
    (l <+: f.header ∧ l.length < f.header.length) ∨
    (∃ p, l = f.header ++ p ∧ p <+: decodeWsmaskData f.mask 0 f.payload ∧
      p.length < f.payload.length) ∨
    ∃ l', l = f.encode ++ l' ∧ l' ++ rest = tail := by
  rcases Segments.split_first (b := []) h List.nil_prefix with ⟨hpre, hlt⟩ | ⟨c₁, c₂, rfl, he, htail⟩
  · rw [List.nil_append] at hpre hlt
    rcases Nat.lt_or_ge l.length f.header.length with hhead | hhead
    · left
      exact ⟨List.prefix_of_prefix_length_le hpre (List.prefix_append _ _) hhead.le, hhead⟩
    · right
      left
      obtain ⟨p, rfl⟩ := List.prefix_of_prefix_length_le (List.prefix_append f.header _) hpre hhead
      refine ⟨p, rfl, (List.prefix_append_right_inj _).mp hpre, ?_⟩
      simp only [Frame.encode, List.length_append, length_decodeWsmaskData] at hlt
      omega
  · right
    right
    exact ⟨c₂, by rw [he, List.nil_append], htail⟩

/-- The bytes a frame under way stands for. -/
def Holds : Option Uncomplete → List UInt8 → Prop
  | none, b => b = []
  | some (.header header), b => b = header ∧ (readSize header).1 = -1
  | some (.payload size read mask hasunmask), b => ∃ h m : List UInt8, b = h ++ m ∧
      readSize b = ((size : ℤ), ⟨h.length, mask⟩) ∧ read = decodeWsmaskData mask 0 m ∧
      hasunmask = unmasked mask 0 m.length

/-- Some frames of `fs` are delivered as `packets`, the frame under way is remembered in `uc`,
and `rest` is still to come. -/
def Received (rest : List UInt8) (fs : List Frame) (packets : List (List UInt8))
    (uc : Option Uncomplete) : Prop :=
  ∃ fs₁ fs₂ b, fs = fs₁ ++ fs₂ ∧ packets = fs₁.map Frame.payload ∧ Holds uc b ∧
    Segments.Inside Frame.encode b fs₂ ∧ b ++ rest = fs₂.flatMap Frame.encode

section Read

variable {rest : List UInt8} {f : Frame} {fs : List Frame} {packets : List (List UInt8)}
  {uc : Option Uncomplete}

lemma Received.cons (h : Received rest fs packets uc) :
    Received rest (f :: fs) (f.payload :: packets) uc := by
  obtain ⟨fs₁, fs₂, b, rfl, rfl, h'⟩ := h
  exact ⟨f :: fs₁, fs₂, b, rfl, rfl, h'⟩

/-- No bytes of the first frame have come. -/
lemma inside_nil (fs : List Frame) : Segments.Inside Frame.encode [] fs := by
  cases fs with
  | nil => rfl
  | cons f fs =>
    refine ⟨List.nil_prefix, ?_⟩
    simp [Frame.encode, Frame.header]

/-- At the boundary between two frames nothing is remembered. -/
lemma received_none (h : rest = fs.flatMap Frame.encode) : Received rest fs [] none :=
  ⟨[], fs, [], rfl, rfl, rfl, inside_nil fs, h⟩

/-- A part of a header is remembered as it is. -/
lemma received_header {l : List UInt8} (hl : l <+: f.header) (hlt : l.length < f.header.length)
    (h : l ++ rest = (f :: fs).flatMap Frame.encode) :
    Received rest (f :: fs) [] (some (.header l)) := by
  refine ⟨[], f :: fs, l, rfl, rfl, ⟨rfl, readSize_of_prefix_header f hl hlt⟩, ⟨?_, ?_⟩, h⟩
  · exact hl.trans (List.prefix_append _ _)
  · simp only [Frame.encode, List.length_append]
    omega

/-- A header and a part of the payload are remembered as the unmasked part. -/
lemma received_payload {p : List UInt8} (hp : p <+: decodeWsmaskData f.mask 0 f.payload)
    (hlt : p.length < f.payload.length)
    (h : f.header ++ p ++ rest = (f :: fs).flatMap Frame.encode) :
    Received rest (f :: fs) [] (some (.payload f.payload.length (decodeWsmaskData f.mask 0 p)
      f.mask (unmasked f.mask 0 p.length))) := by
  refine ⟨[], f :: fs, f.header ++ p, rfl, rfl,
    ⟨f.header, p, rfl, readSize_header f p, rfl, rfl⟩, ⟨?_, ?_⟩, h⟩
  · exact (List.prefix_append_right_inj _).mpr hp
  · simp only [Frame.encode, List.length_append, length_decodeWsmaskData]
    omega

/-- **The frames of a buffer**: `push_more` queues the frames it completes and remembers the one
under way.

**Proof sketch.** Induction on the fuel. The buffer holds a part of the first frame, which is
remembered, or all of it, which is queued before the rest of the buffer is treated. -/
lemma pushMore_spec (fuel : ℕ) (q : Queue) (fd : ℤ) (hq : q.hash fd = none) {l : List UInt8}
    (hl : l ≠ []) (hfuel : l.length ≤ fuel) (h : l ++ rest = fs.flatMap Frame.encode) :
    ∃ packets uc, pushMore fuel q fd l =
        ⟨Function.update q.hash fd uc, q.queue ++ packets.map fun p => (fd, p)⟩ ∧
      Received rest fs packets uc := by
  induction fuel generalizing q l fs with
  | zero =>
    have := List.length_pos_iff.mpr hl
    omega
  | succ fuel ih =>
    cases fs with
    | nil =>
      rw [List.flatMap_nil, List.append_eq_nil_iff] at h
      exact absurd h.1 hl
    | cons f fs =>
      rw [List.flatMap_cons] at h
      rcases first_frame f h with ⟨hpre, hlt⟩ | ⟨p, rfl, hp, hlt⟩ | ⟨l', rfl, hl'⟩
      · have hsize := readSize_of_prefix_header f hpre hlt
        have hskip : skipInvalid badSizeMore l = l :=
          skipInvalid_of_not_bad (by rw [hsize]; exact not_bad_of_incomplete.2)
        refine ⟨[], some (.header l), ?_, received_header hpre hlt h⟩
        simp [pushMore, hskip, hsize, Queue.saveUncomplete]
      · have hsize := readSize_header f p
        have hskip : skipInvalid badSizeMore (f.header ++ p) = f.header ++ p :=
          skipInvalid_of_not_bad (by rw [hsize]; exact (not_bad_of_length f).2)
        refine ⟨[], _, ?_, received_payload hp hlt h⟩
        have hne : (f.payload.length : ℤ) ≠ -1 := by omega
        simp [pushMore, hskip, hsize, Queue.saveUncomplete, hlt, hne]
      · have hsize := readSize_header f (decodeWsmaskData f.mask 0 f.payload ++ l')
        have henc : f.encode ++ l' =
            f.header ++ (decodeWsmaskData f.mask 0 f.payload ++ l') := by
          rw [Frame.encode, List.append_assoc]
        have hskip : skipInvalid badSizeMore
            (f.header ++ (decodeWsmaskData f.mask 0 f.payload ++ l')) =
              f.header ++ (decodeWsmaskData f.mask 0 f.payload ++ l') :=
          skipInvalid_of_not_bad (by rw [hsize]; exact (not_bad_of_length f).2)
        have hne : (f.payload.length : ℤ) ≠ -1 := by omega
        have hstep : pushMore (fuel + 1) q fd (f.encode ++ l') =
            if l' = [] then q.pushData fd f.payload
            else pushMore fuel (q.pushData fd f.payload) fd l' := by
          rw [henc, pushMore]
          simp [hskip, hsize, hne, decodeWsmaskData_decodeWsmaskData]
        rw [hstep]
        split_ifs with hnil
        · subst hnil
          refine ⟨[f.payload], none, ?_, (received_none hl').cons⟩
          simp [Queue.pushData, ← hq, Function.update_eq_self]
        · have hlen : l'.length ≤ fuel := by
            simp only [Frame.encode, Frame.header, List.length_append, List.length_cons] at hfuel
            omega
          obtain ⟨packets, uc, heq, hrec⟩ := ih (q.pushData fd f.payload) hq hnil hlen hl'
          refine ⟨f.payload :: packets, uc, ?_, hrec.cons⟩
          rw [heq]
          simp [Queue.pushData]

/-- A payload under way is completed or grows by the whole chunk. -/
lemma fillPayload_spec (q : Queue) (fd : ℤ) (hq : q.hash fd = none) (hempty : q.queue = [])
    {m c : List UInt8} (hm : m <+: decodeWsmaskData f.mask 0 f.payload)
    (h : m ++ (c ++ rest) = decodeWsmaskData f.mask 0 f.payload ++ fs.flatMap Frame.encode) :
    ∃ packets uc, collect fd (fillPayload q fd f.payload.length (decodeWsmaskData f.mask 0 m) f.mask
        (unmasked f.mask 0 m.length) c) =
          (packets.map fun p => (fd, p), ⟨Function.update q.hash fd uc, []⟩) ∧
      Received rest (f :: fs) packets uc := by
  rcases Segments.split_first h hm with ⟨hpre, hlt⟩ | ⟨c₁, c₂, rfl, he, htail⟩
  · rw [length_decodeWsmaskData] at hlt
    have hstream : f.header ++ (m ++ c) ++ rest = (f :: fs).flatMap Frame.encode := by
      rw [List.flatMap_cons, Frame.encode, List.append_assoc, List.append_assoc, h,
        List.append_assoc]
    refine ⟨[], _, ?_, received_payload hpre hlt hstream⟩
    have hneed : c.length < f.payload.length - m.length := by
      rw [List.length_append] at hlt
      omega
    simp [fillPayload, collect, hneed, Queue.saveUncomplete, hempty, decodeWsmaskData_append,
      unmasked_add]
  · have hlen := congrArg List.length he
    simp only [length_decodeWsmaskData, List.length_append] at hlen
    have hneed : f.payload.length - m.length = c₁.length := by omega
    have hpacket : decodeWsmaskData f.mask 0 m ++
        decodeWsmaskData f.mask (unmasked f.mask 0 m.length) c₁ = f.payload := by
      rw [← decodeWsmaskData_append, ← he, decodeWsmaskData_decodeWsmaskData]
    have hstep : fillPayload q fd f.payload.length (decodeWsmaskData f.mask 0 m) f.mask
        (unmasked f.mask 0 m.length) (c₁ ++ c₂) =
          if c₂ = [] then (.data f.payload, q)
          else (.more, pushMore c₂.length (q.pushData fd f.payload) fd c₂) := by
      simp [fillPayload, hneed, hpacket]
    rw [hstep]
    split_ifs with hnil
    · subst hnil
      refine ⟨[f.payload], none, ?_, (received_none htail).cons⟩
      simp [collect, ← hq, Function.update_eq_self, ← hempty]
    · obtain ⟨packets, uc, heq, hrec⟩ :=
        pushMore_spec c₂.length (q.pushData fd f.payload) fd hq hnil le_rfl htail
      refine ⟨f.payload :: packets, uc, ?_, hrec.cons⟩
      rw [heq]
      simp [collect, Queue.pushData, hempty]

/-- Bytes that do not complete a header are all appended to it. -/
lemma headerLoop_of_incomplete {h c : List UInt8} (r : ℤ × Header) (hc : c ≠ [])
    (hpre : h ++ c <+: f.header) (hlt : (h ++ c).length < f.header.length) :
    headerLoop h r c = (h ++ c, readSize (h ++ c), []) := by
  induction c generalizing h r with
  | nil => exact absurd rfl hc
  | cons b c ih =>
    have hassoc : h ++ b :: c = h ++ [b] ++ c := by simp
    have hlen : (h ++ [b]).length < f.header.length := by
      simp only [List.length_append, List.length_cons, List.length_nil] at hlt ⊢
      omega
    have hpre' : h ++ [b] <+: f.header := by
      rw [hassoc] at hpre
      exact (List.prefix_append _ _).trans hpre
    have hsize := readSize_of_prefix_header f hpre' hlen
    have hskip : skipInvalid badSize (h ++ [b]) = h ++ [b] :=
      skipInvalid_of_not_bad (by rw [hsize]; exact not_bad_of_incomplete.1)
    have hneg : ¬(0 ≤ (readSize (h ++ [b])).1) := by
      rw [hsize]
      decide
    cases c with
    | nil => simp [headerLoop, hskip]
    | cons b' c =>
      rw [headerLoop]
      simp only [hskip, ge_iff_le, hneg, reduceCtorEq, or_self, if_false]
      rw [hassoc, ih _ (by simp) (hassoc ▸ hpre) (hassoc ▸ hlt)]

/-- Bytes that complete a header are appended up to its end. -/
lemma headerLoop_of_complete {h c₁ c₂ : List UInt8} (r : ℤ × Header) (hc : c₁ ≠ [])
    (he : f.header = h ++ c₁) :
    headerLoop h r (c₁ ++ c₂) = (f.header, readSize f.header, c₂) := by
  induction c₁ generalizing h r with
  | nil => exact absurd rfl hc
  | cons b c ih =>
    have hassoc : f.header = h ++ [b] ++ c := by simpa using he
    cases c with
    | nil =>
      have hhead : h ++ [b] = f.header := by simpa using hassoc.symm
      have hsize := readSize_header f []
      rw [List.append_nil] at hsize
      have hskip : skipInvalid badSize f.header = f.header :=
        skipInvalid_of_not_bad (by rw [hsize]; exact (not_bad_of_length f).1)
      simp [headerLoop, hhead, hskip, hsize]
    | cons b' c =>
      have hlen : (h ++ [b]).length < f.header.length := by
        rw [hassoc]
        simp
      have hpre : h ++ [b] <+: f.header := ⟨b' :: c, hassoc.symm⟩
      have hsize := readSize_of_prefix_header f hpre hlen
      have hskip : skipInvalid badSize (h ++ [b]) = h ++ [b] :=
        skipInvalid_of_not_bad (by rw [hsize]; exact not_bad_of_incomplete.1)
      have hneg : ¬(0 ≤ (readSize (h ++ [b])).1) := by
        rw [hsize]
        decide
      rw [List.cons_append, headerLoop]
      simp only [hskip, ge_iff_le, hneg, List.cons_append, reduceCtorEq, or_self, if_false]
      exact ih (readSize (h ++ [b])) (by simp) hassoc

/-- A chunk at the boundary between two frames. -/
lemma deliver_none (q : Queue) (fd : ℤ) (hq : q.hash fd = none) (hempty : q.queue = [])
    {c : List UInt8} (h : c ++ rest = f.encode ++ fs.flatMap Frame.encode) :
    ∃ packets uc, deliver q fd c =
        (packets.map fun p => (fd, p), ⟨Function.update q.hash fd uc, []⟩) ∧
      Received rest (f :: fs) packets uc := by
  have hne : (f.payload.length : ℤ) ≠ -1 := by omega
  have hneg : ¬(f.payload.length : ℤ) < 0 := by omega
  rcases first_frame f h with ⟨hpre, hlt⟩ | ⟨p, rfl, hp, hlt⟩ | ⟨l', rfl, hl'⟩
  · have hsize := readSize_of_prefix_header f hpre hlt
    have hskip : skipInvalid badSize c = c :=
      skipInvalid_of_not_bad (by rw [hsize]; exact not_bad_of_incomplete.1)
    refine ⟨[], some (.header c), ?_, received_header hpre hlt h⟩
    simp [deliver, filterData, hq, hskip, hsize, collect, Queue.saveUncomplete, hempty]
  · have hsize := readSize_header f p
    have hskip : skipInvalid badSize (f.header ++ p) = f.header ++ p :=
      skipInvalid_of_not_bad (by rw [hsize]; exact (not_bad_of_length f).1)
    refine ⟨[], _, ?_, received_payload hp hlt h⟩
    simp [deliver, filterData, hq, hskip, hsize, collect, Queue.saveUncomplete, hempty, hlt, hne,
      hneg]
  · have henc : f.encode ++ l' = f.header ++ (decodeWsmaskData f.mask 0 f.payload ++ l') := by
      rw [Frame.encode, List.append_assoc]
    have hsize := readSize_header f (decodeWsmaskData f.mask 0 f.payload ++ l')
    have hskip : skipInvalid badSize
        (f.header ++ (decodeWsmaskData f.mask 0 f.payload ++ l')) =
          f.header ++ (decodeWsmaskData f.mask 0 f.payload ++ l') :=
      skipInvalid_of_not_bad (by rw [hsize]; exact (not_bad_of_length f).1)
    have hstep : filterData q fd (f.encode ++ l') =
        if l' = [] then (.data f.payload, q)
        else (.more, pushMore l'.length (q.pushData fd f.payload) fd l') := by
      rw [henc]
      by_cases hnil : l' = []
      · subst hnil
        rw [List.append_nil] at hskip hsize ⊢
        simp [filterData, hq, hskip, hsize, hne, hneg, decodeWsmaskData_decodeWsmaskData]
      · have hpos := List.length_pos_iff.mpr hnil
        simp [filterData, hq, hskip, hsize, hne, hneg, decodeWsmaskData_decodeWsmaskData, hnil]
    rw [deliver, hstep]
    split_ifs with hnil
    · subst hnil
      refine ⟨[f.payload], none, ?_, (received_none hl').cons⟩
      simp [collect, ← hq, Function.update_eq_self, ← hempty]
    · obtain ⟨packets, uc, heq, hrec⟩ :=
        pushMore_spec l'.length (q.pushData fd f.payload) fd hq hnil le_rfl hl'
      refine ⟨f.payload :: packets, uc, ?_, hrec.cons⟩
      rw [heq]
      simp [collect, Queue.pushData, hempty]

/-- A chunk that continues a header. -/
lemma deliver_header (q : Queue) (fd : ℤ) {hd c : List UInt8} (hq : q.hash fd = some (.header hd))
    (hempty : q.queue = []) (hc : c ≠ []) (hpre : hd <+: f.header)
    (hlt : hd.length < f.header.length)
    (h : hd ++ (c ++ rest) = f.encode ++ fs.flatMap Frame.encode) :
    ∃ packets uc, deliver q fd c =
        (packets.map fun p => (fd, p), ⟨Function.update q.hash fd uc, []⟩) ∧
      Received rest (f :: fs) packets uc := by
  have hstream : hd ++ (c ++ rest) = f.header ++
      (decodeWsmaskData f.mask 0 f.payload ++ fs.flatMap Frame.encode) := by
    rw [h, Frame.encode, List.append_assoc]
  have hne : (f.payload.length : ℤ) ≠ -1 := by omega
  have hneg : ¬(f.payload.length : ℤ) < 0 := by omega
  rcases Segments.split_first hstream hpre with ⟨hpre', hlt'⟩ | ⟨c₁, c₂, rfl, he, htail⟩
  · have hsize := readSize_of_prefix_header f hpre' hlt'
    refine ⟨[], some (.header (hd ++ c)), ?_, received_header hpre' hlt' ?_⟩
    · simp [deliver, filterData, hq, headerLoop_of_incomplete _ hc hpre' hlt', hsize, collect,
        Queue.takeUncomplete, Queue.saveUncomplete, hempty]
    · rw [List.append_assoc, h, List.flatMap_cons]
  · have hc₁ : c₁ ≠ [] := by
      rintro rfl
      rw [he, List.append_nil] at hlt
      omega
    have hsize := readSize_header f []
    rw [List.append_nil] at hsize
    have hstep : filterData q fd (c₁ ++ c₂) =
        fillPayload (q.takeUncomplete fd) fd f.payload.length (decodeWsmaskData f.mask 0 []) f.mask
          (unmasked f.mask 0 0) c₂ := by
      simp only [filterData, hq, headerLoop_of_complete _ hc₁ he, hsize, hne, hneg, if_false,
        Int.toNat_natCast]
      cases f.mask with
      | none => rfl
      | some m => rfl
    have hspec := fillPayload_spec (f := f) (q.takeUncomplete fd) fd
      (by simp [Queue.takeUncomplete]) hempty List.nil_prefix htail
    rw [deliver, hstep]
    simpa [Queue.takeUncomplete] using hspec

/-- **One socket read, wherever it is cut**: it delivers the payloads of the frames it completes,
remembers the frame under way, and does not touch the other connections. -/
lemma deliver_spec (q : Queue) (fd : ℤ) (hempty : q.queue = []) {b c : List UInt8}
    (hb : Holds (q.hash fd) b) (hc : c ≠ []) (hin : Segments.Inside Frame.encode b fs)
    (h : b ++ (c ++ rest) = fs.flatMap Frame.encode) :
    ∃ packets uc, deliver q fd c =
        (packets.map fun p => (fd, p), ⟨Function.update q.hash fd uc, []⟩) ∧
      Received rest fs packets uc := by
  cases fs with
  | nil =>
    simp only [List.flatMap_nil, List.append_eq_nil_iff] at h
    exact absurd h.2.1 hc
  | cons f fs =>
    rw [List.flatMap_cons] at h
    obtain ⟨hpre, hlt⟩ := hin
    -- a part of the frame has a size exactly when it holds the header
    have hcomplete : ¬b.length < f.header.length → ∃ m, b = f.header ++ m ∧
        m <+: decodeWsmaskData f.mask 0 f.payload := by
      intro hge
      obtain ⟨m, rfl⟩ := List.prefix_of_prefix_length_le (List.prefix_append f.header _) hpre
        (Nat.le_of_not_lt hge)
      exact ⟨m, rfl, (List.prefix_append_right_inj _).mp hpre⟩
    cases hq : q.hash fd with
    | none =>
      rw [hq] at hb
      subst hb
      exact deliver_none q fd hq hempty h
    | some uc =>
      rw [hq] at hb
      cases uc with
      | header hd =>
        obtain ⟨rfl, hsize⟩ := hb
        have hshort : b.length < f.header.length := by
          by_contra hge
          obtain ⟨m, rfl, -⟩ := hcomplete hge
          rw [readSize_header] at hsize
          simp only at hsize
          omega
        exact deliver_header q fd hq hempty hc
          (List.prefix_of_prefix_length_le hpre (List.prefix_append _ _) hshort.le) hshort h
      | payload size read mask hasunmask =>
        obtain ⟨hd, m, hbm, hsize, rfl, rfl⟩ := hb
        have hlong : ¬b.length < f.header.length := by
          intro hshort
          have hinc := readSize_of_prefix_header f
            (List.prefix_of_prefix_length_le hpre (List.prefix_append _ _) hshort.le) hshort
          rw [hsize] at hinc
          simp only at hinc
          omega
        obtain ⟨m', hbm', hm'⟩ := hcomplete hlong
        rw [hbm', readSize_header] at hsize
        simp only [Prod.mk.injEq, Int.natCast_inj, Header.mk.injEq] at hsize
        obtain ⟨rfl, hlen, rfl⟩ := hsize
        obtain ⟨-, rfl⟩ := List.append_inj (hbm'.symm.trans hbm) hlen
        have hstream : m' ++ (c ++ rest) =
            decodeWsmaskData f.mask 0 f.payload ++ fs.flatMap Frame.encode := by
          rw [hbm', Frame.encode, List.append_assoc, List.append_assoc,
            List.append_cancel_left_eq] at h
          exact h
        have hspec := fillPayload_spec (q.takeUncomplete fd) fd
          (by simp [Queue.takeUncomplete]) hempty hm' hstream
        rw [deliver, filterData, hq]
        simpa [Queue.takeUncomplete] using hspec

end Read

/-- The memory of a connection between socket reads. -/
def Remembers (q : Queue) (fd : ℤ) (b : List UInt8) : Prop := q.queue = [] ∧ Holds (q.hash fd) b

/-- Socket reads receive streams of frames. -/
lemma deliver_receives : Segments.Receives Frame.encode Frame.payload Remembers deliver := by
  intro q fd b c rest fs hrep hc hin h
  obtain ⟨packets, uc, heq, fs₁, fs₂, b', rfl, rfl, hb', hin', hrest⟩ :=
    deliver_spec q fd hrep.1 hrep.2 hc hin h
  refine ⟨fs₁, fs₂, b', rfl, ?_, ?_, hin', hrest, ?_⟩
  · rw [heq, List.map_map]
    rfl
  · rw [heq]
    exact ⟨rfl, by simpa using hb'⟩
  · intro fd' b₂ hne h₂
    rw [heq]
    refine ⟨rfl, ?_⟩
    dsimp only
    rw [Function.update_of_ne hne]
    exact h₂.2

/-- **The packets do not depend on the segmentation**: on every socket that carries well-formed
frames cut into chunks anywhere, interleaved in any way with the chunks of other sockets, the
packets delivered are exactly the unmasked payloads, in order. -/
theorem packets_eq_payloads (frames : ℤ → List Frame) (reads : List (ℤ × List UInt8))
    (hne : ∀ r ∈ reads, r.2 ≠ [])
    (hbytes : ∀ fd, Segments.bytesOf reads fd = (frames fd).flatMap Frame.encode) (fd : ℤ) :
    Segments.outputsOf (Segments.run deliver Queue.new reads) fd =
      (frames fd).map Frame.payload := by
  refine Segments.run_outputs deliver_receives reads hne Queue.new (fun _ => []) frames
    (fun _ => ⟨rfl, rfl⟩) (fun fd => inside_nil (frames fd)) (fun fd => ?_) fd
  rw [List.nil_append, hbytes fd]

/-- A masked text frame whose length is written in the long form. -/
def maskedFrame : Frame where
  opcode := 1
  form := .sixtyFour
  mask := some ![0x37, 0xfa, 0x21, 0x3d]
  payload := [0x48, 0x65, 0x6c, 0x6c, 0x6f]
  opcode_ne := by decide
  length_le := by decide
  form_fits := by decide

/-- The frame, cut inside its header and inside its payload, is delivered unmasked. -/
theorem maskedFrame_in_three_reads :
    Segments.outputsOf (Segments.run deliver Queue.new [(7, maskedFrame.encode.take 5),
      (7, (maskedFrame.encode.drop 5).take 12), (7, maskedFrame.encode.drop 17)]) 7 =
        [[0x48, 0x65, 0x6c, 0x6c, 0x6f]] := by
  refine packets_eq_payloads (fun fd => if fd = 7 then [maskedFrame] else []) _ ?_ ?_ 7
  · decide
  · intro fd
    by_cases hfd : fd = 7
    · subst hfd
      decide
    · have hne : ¬(7 : ℤ) = fd := fun h => hfd h.symm
      simp [Segments.bytesOf, hfd, hne]

end Websocket
