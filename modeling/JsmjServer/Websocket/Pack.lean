import JsmjServer.Lib.Rfc6455
import JsmjServer.Websocket.Netpack

set_option relaxedAutoImplicit false
set_option autoImplicit false

/-!
# The frames that the server writes

`lpack` of `lualib-src/lua-websocketnetpack.c` puts a header before the bytes of a message: a binary
frame without a mask. The unpacker of the same file reads it back.

## Main definitions

* `Websocket.frameHeader`, `Websocket.lpack` — the header, and the frame.

## Main results

* `Websocket.parse_lpack` — a packed message of any length is a frame of RFC 6455.
* `Websocket.lpack_decodes` — `read_size` and the unpacker on a packed message.
* `Websocket.packed_delivered` — packed messages on any sockets, cut anywhere.
-/

namespace Websocket

/-! ### The program -/

/-- `FRAME_SET_FIN`, and `FRAME_SET_MASK`. -/
def frameSetFin (byte : UInt8) : UInt8 := (byte &&& 0x01) <<< 7

/-- `FRAME_SET_OPCODE`. -/
def frameSetOpcode (byte : UInt8) : UInt8 := byte &&& 0x0F

/-- `FRAME_SET_LENGTH`: a byte of a number. -/
def frameSetLength (x idx : ℕ) : UInt8 := UInt8.ofNat ((x >>> (idx * 8)) &&& 0xFF)

/-- The array `frame_header` of `lpack`, up to `pos`. -/
def frameHeader (len : ℕ) : List UInt8 :=
  (frameSetFin 1 ||| frameSetOpcode 2) ::
    if len < 126 then [frameSetFin 0 ||| frameSetLength len 0]
    else
      (if len < 65536 then [frameSetFin 0 ||| 126]
      else
        [frameSetFin 0 ||| 127, frameSetLength len 7, frameSetLength len 6, frameSetLength len 5,
          frameSetLength len 4, frameSetLength len 3, frameSetLength len 2]) ++
        [frameSetLength len 1, frameSetLength len 0]

/-- `lpack`. -/
def lpack (message : List UInt8) : List UInt8 := frameHeader message.length ++ message

/-- The payload of the first frame of a buffer, by what `read_size` says of it. -/
def firstPayload (buffer : List UInt8) : List UInt8 :=
  let r := readSize buffer
  decodeWsmaskData r.2.mask 0 ((buffer.drop r.2.packHeadLength).take r.1.toNat)

/-! ### The header -/

lemma frameSetLength_eq (x idx : ℕ) : frameSetLength x idx = UInt8.ofNat (x / 256 ^ idx) := by
  have hmask : (0xFF : ℕ) = 2 ^ 8 - 1 := rfl
  have hpow : 2 ^ (idx * 8) = 256 ^ idx := by rw [Nat.mul_comm, Nat.pow_mul]
  rw [frameSetLength, hmask, Nat.and_two_pow_sub_one_eq_mod, Nat.shiftRight_eq_div_pow, hpow,
    ← UInt8.toNat_inj, UInt8.toNat_ofNat', UInt8.toNat_ofNat', Nat.mod_mod]

lemma toBytes_two (n : ℕ) :
    Rfc6455.toBytes 2 n = [frameSetLength n 1, frameSetLength n 0] := by
  simp [Rfc6455.toBytes, frameSetLength_eq]

lemma toBytes_eight (n : ℕ) :
    Rfc6455.toBytes 8 n = [frameSetLength n 7, frameSetLength n 6, frameSetLength n 5,
      frameSetLength n 4, frameSetLength n 3, frameSetLength n 2, frameSetLength n 1,
      frameSetLength n 0] := by
  simp [Rfc6455.toBytes, frameSetLength_eq, Nat.div_div_eq_div_mul]

/-- The header in the terms of the protocol. -/
lemma frameHeader_eq (n : ℕ) :
    frameHeader n = 0x82 :: UInt8.ofNat (Rfc6455.lengthForm n).1 :: (Rfc6455.lengthForm n).2 := by
  unfold frameHeader Rfc6455.lengthForm
  have hfirst : frameSetFin 1 ||| frameSetOpcode 2 = 0x82 := by decide
  have hmask : ∀ b : UInt8, frameSetFin 0 ||| b = b := fun b => UInt8.zero_or
  rw [hfirst]
  split_ifs with h7 h16
  · simp [hmask, frameSetLength_eq]
  · simp [hmask, toBytes_two]
  · simp [hmask, toBytes_eight]

/-- **A packed message is a frame of RFC 6455**: a final binary frame without a mask. -/
theorem parse_lpack (message rest : List UInt8) (h : message.length < 2 ^ 63) :
    Rfc6455.parse (lpack message ++ rest) = some (⟨true, 2, none, message, h⟩, rest) := by
  rw [Rfc6455.parse_eq_some_iff, lpack, frameHeader_eq]
  simp [Rfc6455.Frame.encode, Rfc6455.Frame.byte0, Rfc6455.Frame.byte1, Rfc6455.maskBytes,
    Rfc6455.applyMask]

/-! ### The unpacker on a packed message -/

/-- The frame of a message that is not too long. -/
def packed (message : List UInt8) (h : message.length ≤ 10240) : Frame where
  opcode := 2
  form := if message.length < 126 then .seven else .sixteen
  mask := none
  payload := message
  opcode_ne := by decide
  length_le := h
  form_fits := by
    split_ifs with h7
    · exact fun _ => h7
    · nofun

lemma header_packed (message : List UInt8) (h : message.length ≤ 10240) :
    (packed message h).header = frameHeader message.length := by
  rw [frameHeader_eq]
  unfold Rfc6455.lengthForm
  have h16 : message.length < 65536 := by omega
  by_cases h7 : message.length < 126
  · simp [packed, Frame.header, Frame.byte0, Frame.byte1, Frame.lengthBits, Frame.extended,
      Frame.maskBytes, h7]
  · simp [packed, Frame.header, Frame.byte0, Frame.byte1, Frame.lengthBits, Frame.extended,
      Frame.maskBytes, h7, h16, toBytes_two, beBytes, frameSetLength_eq]

lemma encode_packed (message : List UInt8) (h : message.length ≤ 10240) :
    (packed message h).encode = lpack message := by
  rw [Frame.encode, header_packed]
  rfl

/-- **Packing and unpacking**: on a packed message within the limit, whatever follows it,
`read_size` returns the length of the message and that of the header, which give the message back;
and the unpacker delivers it. -/
theorem lpack_decodes (message rest : List UInt8) (h : (message.length : ℤ) ≤ maxPacksize) :
    readSize (lpack message ++ rest) =
        ((message.length : ℤ), ⟨(frameHeader message.length).length, none⟩) ∧
      firstPayload (lpack message ++ rest) = message ∧
      ∀ q fd, q.hash fd = none → filterData q fd (lpack message) = (.data message, q) := by
  have hle : message.length ≤ 10240 := by
    unfold maxPacksize at h
    omega
  have hread : ∀ rest, readSize (lpack message ++ rest) =
      ((message.length : ℤ), ⟨(frameHeader message.length).length, none⟩) := by
    intro rest
    have hsize := readSize_header (packed message hle) (message ++ rest)
    rw [header_packed] at hsize
    rw [lpack, List.append_assoc, hsize]
    rfl
  refine ⟨hread rest, ?_, fun q fd hq => ?_⟩
  · rw [firstPayload, hread rest]
    simp [lpack, decodeWsmaskData]
  · have hsize := hread []
    rw [List.append_nil] at hsize
    have hskip : skipInvalid badSize (lpack message) = lpack message :=
      skipInvalid_of_not_bad (by rw [hsize]; simp [badSize, h])
    have hone : (message.length : ℤ) ≠ -1 := by omega
    have hneg : ¬(message.length : ℤ) < 0 := by omega
    have hdrop : (lpack message).drop (frameHeader message.length).length = message :=
      List.drop_left' rfl
    simp [filterData, hq, hskip, hsize, hone, hneg, hdrop, decodeWsmaskData]

/-- A short message. -/
theorem lpack_decodes_two_bytes : ((([104, 105] : List UInt8).length : ℤ) ≤ maxPacksize) ∧
    firstPayload (lpack [104, 105] ++ []) = [104, 105] :=
  ⟨by decide, (lpack_decodes [104, 105] [] (by decide)).2.1⟩

/-- **Packed messages on any sockets**: cut into chunks anywhere, in any interleaving, they are
delivered as they are. -/
theorem packed_delivered (messages : ℤ → List {m : List UInt8 // m.length ≤ 10240})
    (reads : List (ℤ × List UInt8)) (hne : ∀ r ∈ reads, r.2 ≠ [])
    (hbytes : ∀ fd, Segments.bytesOf reads fd = (messages fd).flatMap fun m => lpack m.val)
    (fd : ℤ) :
    Segments.outputsOf (Segments.run deliver Queue.new reads) fd =
      (messages fd).map Subtype.val := by
  refine (Segments.run_outputs deliver_receives reads hne Queue.new (fun _ => [])
    (fun fd => (messages fd).map fun m => packed m.val m.property) (fun _ => ⟨rfl, rfl⟩)
    (fun fd => inside_nil _) (fun fd => ?_) fd).trans ?_
  · simp [hbytes, List.flatMap_map, encode_packed]
  · rw [List.map_map]
    rfl

end Websocket
