import JsmjServer.Lib.Rfc6455
import JsmjServer.Websocket.LuaWebsocket

set_option relaxedAutoImplicit false
set_option autoImplicit false

/-!
# The frames of `lua-websocket.c`

`ws_send_frame` writes a frame without a mask, `ws_read_size` reads the length from the header of
one. The first copies the payload over the extended length; the second takes the halves of a length
of eight bytes in the wrong order.

## Main definitions

* `LuaWebsocket.wsSendFrame` — the bytes sent.
* `LuaWebsocket.RoundTrips` — both directions against RFC 6455.
* `LuaWebsocket.Sendable`, `LuaWebsocket.Readable` — when they are right.

## Main results

* `LuaWebsocket.wsSendFrame_eq` — the bytes sent, by the size of the payload.
* `LuaWebsocket.parse_sent_iff`, `LuaWebsocket.wsReadSize_iff` — each direction.
* `LuaWebsocket.round_trips_iff` — both.
-/

namespace LuaWebsocket

open Websocket (beNat beBytes)

/-! ### The program -/

/-- `memcpy` to an offset of some memory. -/
def memcpy (mem : List UInt8) (offset : ℕ) (src : List UInt8) : List UInt8 :=
  mem.take offset ++ src ++ mem.drop (offset + src.length)

/-- The bytes that `ws_send_frame` sends. The memory of the frame holds the bytes `junk` before. -/
def wsSendFrame (junk : ℕ → UInt8) (opcode : UInt8) (buffer : List UInt8) : List UInt8 :=
  let size := buffer.length
  let frame := (List.range (size + 14)).map junk
  let frame := frame.set 0 (0x80 ||| opcode)
  let (frame, hdrLen) :=
    if size < 126 then (frame.set 1 (UInt8.ofNat size), 2)
    else if size ≤ 65536 then (memcpy (frame.set 1 126) 2 (beBytes 2 size), 4)
    else (frame, 2)
  (memcpy frame 2 buffer).take (size + hdrLen)

/-! ### What is right -/

/-- The payload comes back from the bytes sent as one frame, and from a header its length. -/
structure RoundTrips (junk : ℕ → UInt8) (opcode : Fin 16) (payload header : List UInt8) :
    Prop where
  sent : ∃ h, Rfc6455.parse (wsSendFrame junk (UInt8.ofNat opcode) payload) =
    some (⟨true, opcode, none, payload, h⟩, [])
  read : ∀ n, Rfc6455.announcedLength header = some n → wsReadSize header = n

/-- The payload is short; or, by accident, it consists, with the two bytes of memory after it, of
its own length over and over. -/
def Sendable (junk : ℕ → UInt8) (payload : List UInt8) : Prop :=
  payload.length < 126 ∨ (payload.length < 65536 ∧
    payload ++ [junk (payload.length + 2), junk (payload.length + 3)] =
      beBytes 2 payload.length ++ payload)

/-- A length of eight bytes has equal halves. -/
def Readable (header : List UInt8) : Prop :=
  10 ≤ header.length → header.getD 1 0 &&& 127 = 127 →
    (header.drop 2).take 4 = (header.drop 6).take 4

/-! ### Numbers -/

lemma beNat_eq (bytes : List UInt8) : beNat bytes = Rfc6455.ofBytes bytes := by
  induction bytes using List.reverseRecOn with
  | nil => rfl
  | append_singleton bytes b ih =>
    rw [Rfc6455.ofBytes_concat, ← ih, beNat, List.foldl_append]
    rfl

lemma beBytes_two (n : ℕ) : beBytes 2 n = Rfc6455.toBytes 2 n := by
  simp [beBytes, Rfc6455.toBytes]

/-- Equal numbers have equal bytes. -/
lemma ofBytes_inj {a b : List UInt8} (hlen : a.length = b.length) :
    Rfc6455.ofBytes a = Rfc6455.ofBytes b ↔ a = b := by
  refine ⟨fun h => ?_, fun h => by rw [h]⟩
  rw [← Rfc6455.toBytes_ofBytes a, ← Rfc6455.toBytes_ofBytes b, h, hlen]

/-! ### Sending -/

section Send

variable (junk : ℕ → UInt8) (opcode : UInt8) (payload : List UInt8)

@[simp] lemma memcpy_two (a b : UInt8) (mem src : List UInt8) :
    memcpy (a :: b :: mem) 2 src = a :: b :: (src ++ mem.drop src.length) := by
  simp [memcpy, Nat.add_comm 2]

lemma fresh_eq (n : ℕ) :
    (List.range (n + 14)).map junk =
      junk 0 :: junk 1 :: (List.range (n + 12)).map fun i => junk (i + 2) := by
  have hlen : n + 14 = n + 12 + 1 + 1 := by omega
  rw [hlen, List.range_succ_eq_map, List.range_succ_eq_map]
  simp [Function.comp_def]

/-- The memory behind a payload. -/
lemma stale_eq (n : ℕ) (f : ℕ → UInt8) :
    (((List.range (n + 12)).map f).drop n).take 2 = [f n, f (n + 1)] := by
  rw [List.range_add, List.map_append, List.drop_left' (by simp)]
  rfl

/-- **What is sent**: the payload lies where its length was written. -/
lemma wsSendFrame_eq :
    wsSendFrame junk opcode payload =
      if payload.length < 126 then (0x80 ||| opcode) :: UInt8.ofNat payload.length :: payload
      else if payload.length ≤ 65536 then
        (0x80 ||| opcode) :: 126 ::
          (payload ++ [junk (payload.length + 2), junk (payload.length + 3)])
      else (0x80 ||| opcode) :: junk 1 :: payload := by
  unfold wsSendFrame
  dsimp only
  rw [fresh_eq]
  split_ifs with h7 h16
  · simp
  · -- the two bytes of the length are overwritten
    have hdrop : ∀ (x y : UInt8) (mem : List UInt8),
        (x :: y :: mem.drop 2).drop payload.length = mem.drop payload.length := by
      intro x y mem
      obtain ⟨k, hk⟩ := Nat.exists_eq_add_of_le (show 2 ≤ payload.length by omega)
      rw [hk, Nat.add_comm 2 k, List.drop_succ_cons, List.drop_succ_cons, List.drop_drop,
        Nat.add_comm 2 k]
    have hstale := stale_eq payload.length fun i => junk (i + 2)
    simp only [List.set_cons_zero, List.set_cons_succ, memcpy_two, beBytes, List.cons_append,
      List.nil_append, List.length_cons, List.length_nil, hdrop, List.take_succ_cons]
    rw [List.take_length_add_append, hstale]
  · simp

/-- The bytes of the frame that should be sent. -/
lemma parse_sent (o : Fin 16) (h : payload.length < 2 ^ 63) (bytes : List UInt8) :
    Rfc6455.parse bytes = some (⟨true, o, none, payload, h⟩, []) ↔
      bytes = (0x80 ||| UInt8.ofNat o) :: UInt8.ofNat (Rfc6455.lengthForm payload.length).1 ::
        ((Rfc6455.lengthForm payload.length).2 ++ payload) := by
  have hfirst : ∀ o : Fin 16, UInt8.ofNat (128 + o.val) = 0x80 ||| UInt8.ofNat o := by decide
  rw [Rfc6455.parse_eq_some_iff, List.append_nil]
  simp [Rfc6455.Frame.encode, Rfc6455.Frame.byte0, Rfc6455.Frame.byte1, Rfc6455.maskBytes,
    Rfc6455.applyMask, hfirst]

/-- **Sending** is right just for short payloads, up to an accident. -/
lemma parse_sent_iff (o : Fin 16) :
    (∃ h, Rfc6455.parse (wsSendFrame junk (UInt8.ofNat o) payload) =
      some (⟨true, o, none, payload, h⟩, [])) ↔ Sendable junk payload := by
  simp only [parse_sent, wsSendFrame_eq, exists_prop, Rfc6455.lengthForm, Sendable]
  by_cases h7 : payload.length < 126
  · simp only [h7, if_true, true_or, iff_true, List.nil_append, and_true]
    omega
  · by_cases h16 : payload.length < 65536
    · have hle : payload.length ≤ 65536 := h16.le
      have hlt : payload.length < 9223372036854775808 := by omega
      simp [h7, h16, hle, hlt, beBytes_two]
    · -- the lengths of the two byte strings differ
      simp only [h7, h16, if_false, false_and, or_false, iff_false, not_and]
      intro _ heq
      have hlen := congrArg List.length heq
      split_ifs at hlen <;>
        simp only [List.length_cons, List.length_append, List.length_nil, Rfc6455.length_toBytes]
          at hlen <;> omega

end Send

/-! ### Reading -/

/-- **Reading** is right unless the halves of a length of eight bytes differ. -/
lemma wsReadSize_iff (header : List UInt8) :
    (∀ n, Rfc6455.announcedLength header = some n → wsReadSize header = n) ↔ Readable header := by
  match header with
  | [] => simp [Rfc6455.announcedLength, Readable]
  | [_] => simp [Rfc6455.announcedLength, Readable]
  | b0 :: b1 :: rest =>
    have hb1 : (b1 &&& 127).toNat = b1.toNat % 128 := by
      rw [UInt8.toNat_and]
      exact Nat.and_two_pow_sub_one_eq_mod _ 7
    have hlt : b1 &&& 127 < 126 ↔ b1.toNat % 128 < 126 := by
      rw [UInt8.lt_iff_toNat_lt, hb1]
      rfl
    have heq : ∀ k : UInt8, b1 &&& 127 = k ↔ b1.toNat % 128 = k.toNat := by
      intro k
      rw [← UInt8.toNat_inj, hb1]
    have hsize : (b0 :: b1 :: rest).getD 1 0 = b1 := rfl
    unfold Readable wsReadSize Rfc6455.announcedLength Rfc6455.readLength
    simp only [hsize, hlt, heq, hb1, beNat_eq]
    by_cases h7 : b1.toNat % 128 < 126
    · have h64 : b1.toNat % 128 ≠ 127 := by omega
      simp [h7, h64]
    · by_cases h16 : b1.toNat % 128 = 126
      · by_cases hlen : rest.length < 2
        · simp [h16, hlen]
        · simp [h16, hlen]
      · have h64 : b1.toNat % 128 = 127 := by omega
        by_cases hlen : rest.length < 8
        · simp [h64, hlen]
        · have hlong : 10 ≤ (b0 :: b1 :: rest).length := by
            simp only [List.length_cons]
            omega
          have hfour : ((rest.drop 4).take 4).length = 4 := by
            simp only [List.length_take, List.length_drop]
            omega
          have hfour' : (rest.take 4).length = 4 := by
            simp only [List.length_take]
            omega
          have hsplit : rest.take 8 = rest.take 4 ++ (rest.drop 4).take 4 := by
            rw [← List.take_add]
          have hpos := Rfc6455.ofBytes_lt (rest.take 4)
          have hpos' := Rfc6455.ofBytes_lt ((rest.drop 4).take 4)
          have hhalves := ofBytes_inj (hfour'.trans hfour.symm)
          rw [hfour'] at hpos
          rw [hfour] at hpos'
          simp only [h64, hlen, hlong, hsplit, Rfc6455.ofBytes_append, hfour, List.drop_succ_cons,
            List.drop_zero, if_false, Option.map_some, Option.some.injEq, forall_eq', true_imp_iff,
            UInt8.reduceToNat, Nat.reduceLT, Nat.reduceEqDiff, ← hhalves]
          omega

/-! ### Both directions -/

/-- **The frames of `lua-websocket.c`**: a payload comes back from what is sent, and a length from
the header, exactly when the payload has fewer than 126 bytes or happens to repeat its own length,
and a length of eight bytes has equal halves. -/
theorem round_trips_iff (junk : ℕ → UInt8) (opcode : Fin 16) (payload header : List UInt8) :
    RoundTrips junk opcode payload header ↔ Sendable junk payload ∧ Readable header :=
  ⟨fun h => ⟨(parse_sent_iff junk payload opcode).mp h.sent, (wsReadSize_iff header).mp h.read⟩,
    fun h => ⟨(parse_sent_iff junk payload opcode).mpr h.1, (wsReadSize_iff header).mpr h.2⟩⟩

/-- A payload of 126 zero bytes is sent with the length zero in their place; and of a header that
announces 65536 bytes the halves are exchanged. -/
theorem frames_not_round_trip : ¬(∀ (junk : ℕ → UInt8) (opcode : Fin 16)
    (payload header : List UInt8), RoundTrips junk opcode payload header) ∧
      wsReadSize [0x82, 0x7F, 0, 0, 0, 0, 0, 1, 0, 0] = 65536 * 2 ^ 32 := by
  refine ⟨fun h => ?_, by decide⟩
  obtain ⟨_, hsent⟩ := (h (fun _ => 0) 2 (List.replicate 126 0) []).sent
  have hnone : Rfc6455.parse (wsSendFrame (fun _ => 0) (UInt8.ofNat (2 : Fin 16))
      (List.replicate 126 0)) = none := by
    decide +kernel
  rw [hnone] at hsent
  cases hsent

end LuaWebsocket
