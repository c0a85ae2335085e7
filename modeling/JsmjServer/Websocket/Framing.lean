import JsmjServer.Websocket.LuaWebsocket

set_option relaxedAutoImplicit false
set_option autoImplicit false

/-!
# Frames on a websocket connection

How the loop of `filter_data_` follows a masked frame, wherever the chunks are cut.

## Main definitions

* `LuaWebsocket.WsFrame` — a masked frame and its bytes.
* `LuaWebsocket.WsFrame.readLen` — the length that the code reads from its header.
* `LuaWebsocket.WsConn.Awaits`, `LuaWebsocket.WsConn.Reads` — a connection in the header of a
  frame, and in its payload.

## Main results

* `LuaWebsocket.check_header`, `LuaWebsocket.check_part` — a header, complete and not.
* `LuaWebsocket.toInt_readSize` — a payload of 65536 bytes or more is read with a wrong length.
* `LuaWebsocket.step_header`, `LuaWebsocket.step_body`, `LuaWebsocket.step_lastBody` — one round.
-/

namespace LuaWebsocket

open Websocket

/-- A masked frame. Its length is below `2 ^ 63`. -/
structure WsFrame where
  fin : Bool
  opcode : Fin 16
  mask : Mask
  payload : List UInt8
  length_lt : payload.length < 2 ^ 63

namespace WsFrame

variable (f : WsFrame)

/-- The payload fits in a length of two bytes. -/
def Short : Prop := f.payload.length < 65536

instance : Decidable f.Short := inferInstanceAs (Decidable (_ < _))

/-- The seven length bits of the second byte. -/
def lengthBits : ℕ :=
  if f.payload.length < 126 then f.payload.length
  else if f.payload.length < 65536 then 126
  else 127

/-- The extended length, in as few bytes as possible. -/
def extended : List UInt8 :=
  if f.payload.length < 126 then []
  else if f.payload.length < 65536 then beBytes 2 f.payload.length
  else beBytes 8 f.payload.length

/-- The first byte: FIN and the opcode. -/
def byte0 : UInt8 := UInt8.ofNat ((if f.fin then 128 else 0) + f.opcode.val)

/-- The second byte: the mask bit and the length bits. -/
def byte1 : UInt8 := UInt8.ofNat (128 + f.lengthBits)

/-- The header of the frame. -/
def header : List UInt8 := f.byte0 :: f.byte1 :: (f.extended ++ List.ofFn f.mask)

/-- The masked payload. -/
def body : List UInt8 := decodeWsmaskData (some f.mask) 0 f.payload

/-- The bytes of the frame. -/
def encode : List UInt8 := f.header ++ f.body

/-- The length the code reads: of a length of eight bytes only the first four. -/
def readLen : ℕ := if f.payload.length < 65536 then f.payload.length else f.payload.length / 2 ^ 32

end WsFrame

/-! ### Headers -/

lemma byte0_bits : ∀ (fin : Bool) (o : Fin 16),
    UInt8.ofNat ((if fin then 128 else 0) + o.val) &&& 0xf = UInt8.ofNat o.val ∧
    decide (UInt8.ofNat ((if fin then 128 else 0) + o.val) >>> 7 ≠ 0) = fin := by
  decide

lemma byte1_bits : ∀ n : Fin 128,
    UInt8.ofNat (128 + n.val) &&& 128 ≠ 0 ∧ UInt8.ofNat (128 + n.val) &&& 127 = UInt8.ofNat n.val := by
  decide

section Headers

variable (f : WsFrame)

lemma WsFrame.lengthBits_lt : f.lengthBits < 128 := by
  unfold lengthBits
  split_ifs <;> omega

@[simp] lemma WsFrame.length_body : f.body.length = f.payload.length := length_decodeWsmaskData _ _ _

lemma WsFrame.length_encode : f.encode.length = f.header.length + f.payload.length := by
  simp [encode]

/-- Unmasking the payload. -/
lemma WsFrame.unmask_body : wsUnmaskData f.body f.mask = f.payload :=
  decodeWsmaskData_decodeWsmaskData _ _ _

lemma getD_header_one (t : List UInt8) : (f.header ++ t).getD 1 0 = f.byte1 := rfl

lemma byte1_mask : f.byte1 &&& 128 ≠ 0 := (byte1_bits ⟨_, f.lengthBits_lt⟩).1

lemma byte1_length : f.byte1 &&& 127 = UInt8.ofNat f.lengthBits :=
  (byte1_bits ⟨_, f.lengthBits_lt⟩).2

/-- The size of the header by the seven length bits, as the code finds it. -/
lemma headerLen_eq :
    (if UInt8.ofNat f.lengthBits < 126 then 6 else if UInt8.ofNat f.lengthBits = 126 then 8 else 14) =
      f.header.length := by
  unfold WsFrame.header WsFrame.extended WsFrame.lengthBits
  by_cases h : f.payload.length < 126
  · have hlt : UInt8.ofNat f.payload.length < 126 := by
      rw [UInt8.lt_iff_toNat_lt, UInt8.toNat_ofNat']
      exact lt_of_le_of_lt (Nat.mod_le _ _) h
    simp [h, hlt]
  · by_cases h' : f.payload.length < 65536
    · simp [h, h']
    · simp [h, h']

lemma header_length_pos : 6 ≤ f.header.length ∧ f.header.length ≤ 14 := by
  rw [← headerLen_eq]
  split_ifs <;> omega

/-- A complete header. -/
lemma check_header (t : List UInt8) :
    wsCheckFrameheaderComplete (f.header ++ t) = f.header.length := by
  have hlen := headerLen_eq f
  unfold wsCheckFrameheaderComplete
  rw [getD_header_one, if_neg (by simp [WsFrame.header]), if_neg (byte1_mask f)]
  dsimp only
  rw [byte1_length, hlen, if_neg (by simp)]

lemma getD_one_of_part {h : List UInt8} (hp : h <+: f.header) (hlen : ¬h.length < 2) :
    h.getD 1 0 = f.byte1 := by
  obtain ⟨t, ht⟩ := hp
  have hget : (h ++ t)[1]? = h[1]? := List.getElem?_append_left (by omega)
  rw [List.getD_eq_getElem?_getD, ← hget, ht]
  rfl

/-- A part of a header. -/
lemma check_part {h : List UInt8} (hp : h <+: f.header) (hlt : h.length < f.header.length) :
    wsCheckFrameheaderComplete h = 0 := by
  unfold wsCheckFrameheaderComplete
  split_ifs with hshort hmask
  · rfl
  · rw [getD_one_of_part f hp hshort] at hmask
    exact absurd hmask (byte1_mask f)
  · dsimp only
    rw [getD_one_of_part f hp hshort, byte1_length, headerLen_eq, if_pos hlt]

lemma readOpcode_header (t : List UInt8) :
    wsReadOpcode (f.header ++ t) = UInt8.ofNat f.opcode.val :=
  (byte0_bits f.fin f.opcode).1

lemma readFin_header (t : List UInt8) : wsReadFin (f.header ++ t) = f.fin :=
  (byte0_bits f.fin f.opcode).2

/-- The first four of eight bytes. -/
lemma take_beBytes_eight (n : ℕ) : (beBytes 8 n).take 4 = beBytes 4 (n / 2 ^ 32) := by
  simp only [beBytes, List.take_succ_cons, List.take_zero, Nat.div_div_eq_div_mul]
  norm_num

lemma toInt_of_lt {n m : ℕ} (h : n < 2 ^ 31) : toInt (m * 2 ^ 32 + n) = n := by
  have hcast : ((m * 2 ^ 32 + n : ℕ) : ℤ) = n + ((2 ^ 32 : ℕ) : ℤ) * m := by
    push_cast
    ring
  unfold toInt
  rw [hcast, Int.add_mul_bmod_self_left, Int.bmod_eq_of_le] <;> omega

/-- The length that is read. -/
lemma toInt_readSize (t : List UInt8) : toInt (wsReadSize (f.header ++ t)) = f.readLen := by
  have hlt := f.length_lt
  unfold wsReadSize
  rw [getD_header_one, byte1_length]
  unfold WsFrame.readLen WsFrame.header WsFrame.extended WsFrame.lengthBits
  by_cases h : f.payload.length < 126
  · have hnat : (UInt8.ofNat f.payload.length).toNat = f.payload.length := by
      rw [UInt8.toNat_ofNat']
      omega
    have hlt' : UInt8.ofNat f.payload.length < 126 := by
      rw [UInt8.lt_iff_toNat_lt, hnat]
      exact h
    have hint := toInt_of_lt (m := 0) (n := f.payload.length) (by omega)
    rw [Nat.zero_mul, Nat.zero_add] at hint
    simp only [h, if_true, hlt', hnat, hint]
    rw [if_pos (by omega)]
  · by_cases h' : f.payload.length < 65536
    · have hint := toInt_of_lt (m := 0) (n := f.payload.length) (by omega)
      rw [Nat.zero_mul, Nat.zero_add] at hint
      simp only [h, h', if_false, if_true]
      rw [if_neg (by decide), if_pos (by decide)]
      have htake : (List.drop 2 (f.byte0 :: f.byte1 :: (beBytes 2 f.payload.length ++
          List.ofFn f.mask) ++ t)).take 2 = beBytes 2 f.payload.length := by
        simp
      rw [htake, beNat_beBytes 2 _ (by omega), hint]
    · simp only [h, h', if_false]
      rw [if_neg (by decide), if_neg (by decide)]
      have htake : (List.drop 2 (f.byte0 :: f.byte1 :: (beBytes 8 f.payload.length ++
          List.ofFn f.mask) ++ t)).take 4 = beBytes 4 (f.payload.length / 2 ^ 32) := by
        rw [← take_beBytes_eight]
        simp [List.take_append_of_le_length]
      rw [htake, beNat_beBytes 4 _ (by omega)]
      exact toInt_of_lt (by omega)

/-- The mask that is read. -/
lemma readMask_header (t : List UInt8) : wsReadMask (f.header ++ t) = f.mask := by
  have hmask : ∀ (n : ℕ) (e : List UInt8), e.length = n → ∀ i : Fin 4,
      (f.byte0 :: f.byte1 :: (e ++ List.ofFn f.mask) ++ t).getD (2 + n + i) 0 = f.mask i := by
    intro n e he i
    have hidx : 2 + n + i = e.length + i.val + 1 + 1 := by omega
    rw [hidx]
    simp only [List.getD_eq_getElem?_getD, List.cons_append, List.getElem?_cons_succ,
      List.append_assoc, List.getElem?_append_right (Nat.le_add_right _ _), Nat.add_sub_cancel_left]
    rw [List.getElem?_append_left (by simp), List.getElem?_ofFn]
    simp
  funext i
  unfold wsReadMask
  rw [getD_header_one, byte1_length]
  unfold WsFrame.header WsFrame.extended WsFrame.lengthBits
  by_cases h : f.payload.length < 126
  · have hlt' : UInt8.ofNat f.payload.length < 126 := by
      rw [UInt8.lt_iff_toNat_lt, UInt8.toNat_ofNat']
      exact lt_of_le_of_lt (Nat.mod_le _ _) h
    simp only [h, if_true, hlt']
    exact hmask 0 [] rfl i
  · by_cases h' : f.payload.length < 65536
    · simp only [h, h', if_false, if_true]
      rw [if_neg (by decide), if_pos (by decide)]
      exact hmask 2 _ (length_beBytes 2 _) i
    · simp only [h, h', if_false]
      rw [if_neg (by decide), if_neg (by decide)]
      exact hmask 8 _ (length_beBytes 8 _) i

end Headers

/-! ### A connection in the middle of a frame -/

/-- The connection is in the header of a frame, of which the bytes `r` have come; `base` is the
buffer of the fragments before. -/
structure WsConn.Awaits (conn : WsConn) (r : List UInt8) (base : Option Pack) : Prop where
  state : conn.state = .f0h
  header : conn.frameHeader = r
  pack : conn.pack = base

/-- The connection is in the payload of the frame `f`, of which `n` bytes have come. -/
structure WsConn.Reads (conn : WsConn) (f : WsFrame) (n : ℕ) (pk : Pack) : Prop where
  state : conn.state = if f.fin then .f1b else .f0b
  header : conn.frameHeader = []
  opcode : conn.opcode = UInt8.ofNat f.opcode.val
  mask : conn.mask = f.mask
  len : conn.len = f.readLen
  read : conn.read = n
  pack : conn.pack = some pk
  room : f.readLen ≤ pk.bytes.length
  bytes : f.fin = true → pk.bytes.take n = f.body.take n

lemma WsFrame.Short.readLen {f : WsFrame} (h : f.Short) : f.readLen = f.payload.length := if_pos h

section Steps

variable {junk : ℕ → UInt8} {p : Pass} {f : WsFrame} {r b : List UInt8} {base : Option Pack}
  {pack : Pack} {n : ℕ}

lemma step_of_awaits (h : p.conn.Awaits r base) : step junk p = headerStep junk p := by
  unfold step
  rw [h.state]

variable (junk) in
/-- The header does not become complete. -/
lemma step_part (h : p.conn.Awaits r base) (hp : r ++ p.buffer <+: f.header)
    (hlt : (r ++ p.buffer).length < f.header.length) :
    ∃ conn, step junk p = .done (p.leave conn) .none ∧ conn.Awaits (r ++ p.buffer) base := by
  have hlen := (header_length_pos f).2
  have hheader : p.header = r ++ p.buffer := by
    rw [Pass.header, h.header, List.take_of_length_le]
    rw [List.length_append] at hlt
    omega
  refine ⟨{ p.conn with read := 0, frameHeader := p.header }, ?_, h.state, hheader, h.pack⟩
  rw [step_of_awaits h, headerStep]
  dsimp only
  rw [hheader, check_part f hp hlt]
  rfl

variable (junk) in
/-- The header becomes complete. -/
lemma step_header (h : p.conn.Awaits r base) (hr : r.length ≤ f.header.length)
    (heq : r ++ p.buffer = f.header ++ b) :
    ∃ conn, step junk p = .next { p with
        conn := conn
        buffer := b
        allocs := if base.isNone then p.allocs + 1 else p.allocs } ∧
      conn.Reads f 0 (grow junk base p.allocs f.readLen) := by
  have hlen := (header_length_pos f).2
  have hheader : p.header = f.header ++ b.take (14 - f.header.length) := by
    have htake : (r ++ p.buffer).take 14 = r ++ p.buffer.take (14 - r.length) := by
      rw [List.take_append, List.take_of_length_le (by omega)]
    rw [Pass.header, h.header, ← htake, heq, List.take_append, List.take_of_length_le hlen]
  have hdrop : p.buffer.drop (f.header.length - r.length) = b := by
    have hall : (r ++ p.buffer).drop f.header.length = b := by
      rw [heq, List.drop_left]
    rw [List.drop_append, List.drop_eq_nil_of_le hr, List.nil_append] at hall
    exact hall
  have hpos := (header_length_pos f).1
  refine ⟨(takeHeader junk p).conn, ?_, ?_⟩
  · rw [step_of_awaits h, headerStep]
    dsimp only
    rw [hheader, check_header, toInt_readSize, if_neg (by omega), if_neg (by omega),
      if_neg (by omega)]
    congr 1
    simp only [takeHeader, hheader, check_header, Int.toNat_natCast, h.header, hdrop, h.pack]
  · simp only [takeHeader, hheader, toInt_readSize, readFin_header, readOpcode_header,
      readMask_header, h.pack]
    refine ⟨rfl, rfl, rfl, rfl, rfl, rfl, rfl, ?_, fun _ => rfl⟩
    cases base with
    | none => simp [grow]
    | some pack =>
      simp only [grow, List.length_append, List.length_take, List.length_map, List.length_range']
      omega

/-- Bytes that fit in a buffer. -/
lemma store_eq (pack : Pack) (n : ℕ) (src : List UInt8) (h : n + src.length ≤ pack.bytes.length) :
    pack.store n src = some { pack with
      bytes := pack.bytes.take n ++ src ++ pack.bytes.drop (n + src.length) } := if_pos h

lemma length_stored {src : List UInt8} (h : n + src.length ≤ pack.bytes.length) :
    (pack.bytes.take n ++ src ++ pack.bytes.drop (n + src.length)).length = pack.bytes.length := by
  simp only [List.length_append, List.length_take, List.length_drop]
  omega

/-- A payload in the middle: what is still to come. -/
lemma WsConn.Reads.need (h : p.conn.Reads f n pack) (hs : f.Short) (hn : n ≤ f.payload.length) :
    p.need = f.payload.length - n ∧ (p.short = true ↔ p.buffer.length < f.payload.length - n) := by
  rw [Pass.need, Pass.short, h.len, h.read, hs.readLen, Bool.or_eq_true, decide_eq_true_iff,
    decide_eq_true_iff]
  omega

variable (junk) in
/-- The payload does not become complete. -/
lemma step_bodyPart (h : p.conn.Reads f n pack) (hs : f.Short)
    (hlt : n + p.buffer.length < f.payload.length) (hb : p.buffer <+: f.body.drop n) :
    ∃ conn pack', step junk p = .done (p.leave conn) .none ∧
      conn.Reads f (n + p.buffer.length) pack' ∧ pack'.addr = pack.addr ∧
      pack'.bytes.length = pack.bytes.length := by
  have hroom := h.room
  rw [hs.readLen] at hroom
  have hshort : p.short = true := (h.need hs (by omega)).2.mpr (by omega)
  have hportion : p.portion = p.buffer := by rw [Pass.portion, if_pos hshort]
  by_cases hfin : f.fin = true
  · have hstore := store_eq pack n p.buffer (by omega)
    refine ⟨{ p.conn with
        frameHeader := []
        read := n + p.buffer.length
        pack := some { pack with
          bytes := pack.bytes.take n ++ p.buffer ++ pack.bytes.drop (n + p.buffer.length) } },
      _, ?_, ⟨h.state, rfl, h.opcode, h.mask, h.len, rfl, rfl, ?_, fun _ => ?_⟩, rfl,
      length_stored (by omega)⟩
    · unfold step
      rw [h.state, h.pack, if_pos hfin]
      simp only [lastBodyStep, h.read, hportion, hstore]
      rw [if_pos hshort]
    · rw [length_stored (by omega), hs.readLen]
      exact hroom
    · obtain ⟨t, ht⟩ := hb
      have hpart : f.body.take (n + p.buffer.length) = f.body.take n ++ p.buffer := by
        rw [List.take_add, ← ht, List.take_left]
      rw [hpart, List.take_append_of_le_length, List.take_of_length_le, h.bytes hfin]
      · simp
      · simp
        omega
  · have hlen : (wsUnmaskData p.buffer p.conn.mask).length = p.buffer.length :=
      length_decodeWsmaskData _ _ _
    have hstore := store_eq pack n (wsUnmaskData p.buffer p.conn.mask)
      (by omega)
    refine ⟨{ p.conn with
        frameHeader := []
        read := n + p.buffer.length
        pack := some { pack with
          bytes := pack.bytes.take n ++ wsUnmaskData p.buffer p.conn.mask ++
            pack.bytes.drop (n + (wsUnmaskData p.buffer p.conn.mask).length) } },
      _, ?_, ⟨h.state, rfl, h.opcode, h.mask, h.len, rfl, rfl, ?_, fun hf => absurd hf hfin⟩, rfl,
      length_stored (by omega)⟩
    · unfold step
      rw [h.state, h.pack, if_neg hfin]
      simp only [bodyStep, h.read, hportion, hstore]
      rw [if_pos hshort]
    · rw [length_stored (by omega), hs.readLen]
      exact hroom

/-- A chunk with the rest of the payload: that rest is taken off the buffer. -/
lemma WsConn.Reads.portion (h : p.conn.Reads f n pack) (hs : f.Short) (hn : n ≤ f.payload.length)
    (heq : p.buffer = f.body.drop n ++ b) :
    ¬p.short = true ∧ p.portion = f.body.drop n ∧
      p.buffer.drop (f.payload.length - n) = b := by
  obtain ⟨hneed, hshort⟩ := h.need hs hn
  have hbody : (f.body.drop n).length = f.payload.length - n := by simp
  have hge : ¬p.short = true := by
    rw [hshort, heq, List.length_append, hbody]
    omega
  refine ⟨hge, ?_, ?_⟩
  · rw [Pass.portion, if_neg hge, hneed, heq, ← hbody, List.take_left]
  · rw [heq, ← hbody, List.drop_left]

variable (junk) in
/-- The payload of a fragment that is not the last becomes complete. -/
lemma step_body (h : p.conn.Reads f n pack) (hs : f.Short) (hfin : f.fin = false)
    (hn : n ≤ f.payload.length) (heq : p.buffer = f.body.drop n ++ b) :
    ∃ conn pack', step junk p = .next { p with conn := conn, buffer := b } ∧
      conn.Awaits [] (some pack') := by
  have hroom := h.room
  rw [hs.readLen] at hroom
  have hneed := (h.need hs hn).1
  have hbody : (f.body.drop n).length = f.payload.length - n := by simp
  obtain ⟨hge, hportion, hdrop⟩ := h.portion hs hn heq
  have hlen : (wsUnmaskData (f.body.drop n) p.conn.mask).length = f.payload.length - n := by
    rw [← hbody]
    exact length_decodeWsmaskData _ _ _
  have hstore := store_eq pack n (wsUnmaskData (f.body.drop n) p.conn.mask)
    (by omega)
  refine ⟨{ p.conn with
      frameHeader := []
      pack := some { pack with
        bytes := pack.bytes.take n ++ wsUnmaskData (f.body.drop n) p.conn.mask ++
          pack.bytes.drop (n + (wsUnmaskData (f.body.drop n) p.conn.mask).length) }
      read := n + (f.payload.length - n)
      state := .f0h }, _, ?_, rfl, rfl, rfl⟩
  unfold step
  rw [h.state, h.pack, if_neg (by simp [hfin])]
  simp only [bodyStep, h.read, hneed, hportion, hstore, hdrop]
  rw [if_neg hge]

variable (junk) in
/-- The payload of the last frame of a message becomes complete. -/
lemma step_lastBody (h : p.conn.Reads f n pack) (hs : f.Short) (hfin : f.fin = true)
    (hn : n ≤ f.payload.length) (heq : p.buffer = f.body.drop n ++ b) :
    ∃ conn pack', step junk p = messageEnd p conn pack' b ∧ conn.state = .f0h ∧
      conn.frameHeader = [] ∧ conn.opcode = UInt8.ofNat f.opcode.val ∧ pack'.addr = pack.addr ∧
      (pack.bytes.length = f.payload.length → pack'.bytes = f.payload) := by
  have hroom := h.room
  rw [hs.readLen] at hroom
  have hneed := (h.need hs hn).1
  have hbody : (f.body.drop n).length = f.payload.length - n := by simp
  obtain ⟨hge, hportion, hdrop⟩ := h.portion hs hn heq
  have hstore := store_eq pack n (f.body.drop n) (by omega)
  refine ⟨{ p.conn with frameHeader := [], state := .f0h, read := 0 },
    { pack with bytes := wsUnmaskData (pack.bytes.take n ++ f.body.drop n ++
      pack.bytes.drop (n + (f.body.drop n).length)) p.conn.mask }, ?_, rfl, rfl, h.opcode, rfl, ?_⟩
  · unfold step
    rw [h.state, h.pack, if_pos hfin]
    simp only [lastBodyStep, h.read, hneed, hportion, hstore, hdrop]
    rw [if_neg hge]
  · intro hsize
    have hend : pack.bytes.drop (n + (f.body.drop n).length) = [] := by
      apply List.drop_eq_nil_of_le
      omega
    dsimp only
    rw [hend, h.bytes hfin, h.mask, List.append_nil, List.take_append_drop]
    exact f.unmask_body

end Steps

end LuaWebsocket
