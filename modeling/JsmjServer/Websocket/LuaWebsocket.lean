import JsmjServer.Websocket.Netpack

set_option relaxedAutoImplicit false
set_option autoImplicit false

/-!
# The websocket connection

`filter_data_` of `lualib-src/lua-websocket.c`: the handshake of a connection, the frames that
follow it, and the messages that Lua gets, one directly or several through a queue.

## Main definitions

* `LuaWebsocket.WsConn`, `LuaWebsocket.Socket` — a connection, and the queue beside it.
* `LuaWebsocket.wsCheckHandshakeComplete` — the request of the handshake.
* `LuaWebsocket.wsCheckFrameheaderComplete`, `LuaWebsocket.wsReadSize` — the header of a frame.
* `LuaWebsocket.step`, `LuaWebsocket.loop` — the loop of `filter_data_`, one round at a time.
* `LuaWebsocket.filterData`, `LuaWebsocket.receive` — one chunk, and a list of chunks with the queue
  popped whenever more is announced.

## Main results

* `LuaWebsocket.filterData_of_ends` — a loop that ends, ends within the fuel it is given.

## Design

Memory that has just been allocated holds arbitrary bytes, `junk`. A buffer keeps the number of its
allocation, so that messages with equal bytes are told apart. The mask, the opcode and the length
of a frame share memory with its header, which is not read any more once they are written. What is
only sent or printed is left out, and so are the client's address and the other connections.
Allocations succeed unless the size is negative; a negative size, and a write beyond the end of a
buffer, are the result `fault`. `int` values other than the length of a frame are never negative,
and are natural numbers.
-/

namespace LuaWebsocket

open Websocket (Mask decodeWsmaskData beNat toInt)

/-! ### The handshake -/

/-- The bytes of a string literal. -/
def bytes (literal : String) : List UInt8 := literal.toList.map fun c => UInt8.ofNat c.toNat

/-- `tolower` on a byte. -/
def toLower (b : UInt8) : UInt8 := if 65 ≤ b ∧ b ≤ 90 then b + 32 else b

/-- `isalnum` on a byte. -/
def isalnum (b : UInt8) : Bool :=
  (48 ≤ b && b ≤ 57) || (65 ≤ b && b ≤ 90) || (97 ≤ b && b ≤ 122)

/-- `strncasecmp(orig, search, strlen(search)) == 0`. -/
def startsWith (orig : List UInt8) (search : String) : Bool :=
  (orig.take search.length).map toLower == (bytes search).map toLower

/-- `my_strstr`. -/
def myStrstr (orig : List UInt8) (search : String) : Option ℕ :=
  (List.range (orig.length + 1 - search.length)).find? fun i => startsWith (orig.drop i) search

/-- `first_character`. -/
def firstCharacter (orig : List UInt8) : Option ℕ := orig.findIdx? isalnum

/-- The request has a field of this name whose value, looked for from the colon on, begins with
`value`. -/
def fieldIs (request : List UInt8) (name value : String) : Bool :=
  match myStrstr request name with
  | none => false
  | some idx =>
    let rest := request.drop (idx + name.length - 1)
    match firstCharacter rest with
    | none => false
    | some valueIdx => startsWith (rest.drop valueIdx) value

/-- `ws_check_handshake_complete`: the size of the request, `0` when it is not complete and `-1`
when it is none. -/
def wsCheckHandshakeComplete (buffer : List UInt8) : ℤ :=
  if buffer.length < 3 then 0
  else if buffer.take 3 ≠ bytes "GET" then -1
  else if 4096 ≤ buffer.length then -1
  else
    match myStrstr buffer "\r\n\r\n" with
    | none => 0
    | some httpEnd =>
      let request := buffer.take (httpEnd + 4)
      if (myStrstr request "HTTP/1.1\r\n").isNone then -1
      else if !fieldIs request "upgrade:" "websocket" then -1
      else if !fieldIs request "connection:" "upgrade" then -1
      else if !fieldIs request "sec-websocket-version:" "13" then -1
      else if (myStrstr request "sec-websocket-key:").isNone then -1
      else (httpEnd + 4 : ℕ)

/-- The number of bytes that `ws_send_handshake` copies to its array `protocol`. -/
def protoLen (request : List UInt8) : ℕ :=
  match myStrstr request "sec-websocket-protocol:" with
  | none => 0
  | some idx => (myStrstr (request.drop idx) "\r\n").getD 0

/-! ### The header of a frame -/

/-- `ws_check_frameheader_complete`: the size of the header, `0` when it is not complete and `-1`
when the frame is not masked. -/
def wsCheckFrameheaderComplete (buffer : List UInt8) : ℤ :=
  if buffer.length < 2 then 0
  else if buffer.getD 1 0 &&& 128 = 0 then -1
  else
    let packSize := buffer.getD 1 0 &&& 127
    let headerLen := if packSize < 126 then 6 else if packSize = 126 then 8 else 14
    if buffer.length < headerLen then 0 else (headerLen : ℕ)

/-- `ws_read_size`. The two halves of a length of eight bytes are taken in the wrong order. -/
def wsReadSize (header : List UInt8) : ℕ :=
  let packSize := header.getD 1 0 &&& 127
  if packSize < 126 then packSize.toNat
  else if packSize = 126 then beNat ((header.drop 2).take 2)
  else
    let hi := beNat ((header.drop 6).take 4)
    let low := beNat ((header.drop 2).take 4)
    hi * 2 ^ 32 + low

/-- `ws_read_opcode`. -/
def wsReadOpcode (header : List UInt8) : UInt8 := header.getD 0 0 &&& 0xf

/-- `ws_read_mask`. -/
def wsReadMask (header : List UInt8) : Mask :=
  let packSize := header.getD 1 0 &&& 127
  let offset := if packSize < 126 then 2 else if packSize = 126 then 4 else 10
  fun i => header.getD (offset + i) 0

/-- `ws_read_fin`. -/
def wsReadFin (header : List UInt8) : Bool := header.getD 0 0 >>> 7 ≠ 0

/-- `ws_unmask_data`, always from the first byte of the mask on. -/
def wsUnmaskData (src : List UInt8) (mask : Mask) : List UInt8 := decodeWsmaskData (some mask) 0 src

/-- `ws_handle_control_frame`: whether the frame is dropped. -/
def wsHandleControlFrame (opcode : UInt8) : Bool := !(opcode = 1 || opcode = 2)

/-! ### The connection -/

/-- The states `WS_STATE_*`. -/
inductive WsState
  | hs | f0h | f0b | f1h | f1b
  deriving DecidableEq

/-- A buffer with the number of its allocation. -/
structure Pack where
  addr : ℕ
  bytes : List UInt8
  deriving DecidableEq

/-- `struct ws_conn`. The bytes of `http_header` and `frame_header` are those read so far; `pack` is
`none` when `pack.buffer` is `NULL`. -/
structure WsConn where
  state : WsState
  read : ℕ
  httpHeader : List UInt8
  frameHeader : List UInt8
  fin : Bool
  opcode : UInt8
  mask : Mask
  len : ℤ
  pack : Option Pack

/-- `ws_create_conn`. -/
def wsCreateConn : WsConn := ⟨.hs, 0, [], [], false, 0, fun _ => 0, 0, none⟩

/-- The connection, `none` once it is deleted, the packets to be popped, and the number of
allocations. -/
structure Socket where
  conn : Option WsConn
  queue : List Pack
  allocs : ℕ

/-- A new connection. -/
def Socket.new : Socket := ⟨some wsCreateConn, [], 0⟩

/-- A connection after the handshake. -/
def Socket.opened : Socket := ⟨some { wsCreateConn with state := .f0h }, [], 0⟩

/-- How `filter_data_` ends: with what it returns, or not at all. -/
inductive Result
  | none
  | data (pack : Pack)
  | more
  | error
  | opened
  | assertFailed
  | fault
  | hang
  deriving DecidableEq

/-- The call has not returned. -/
def Result.fatal : Result → Bool
  | .assertFailed | .fault | .hang => true
  | _ => false

/-- The part of `filter_data_` for the handshake. -/
def handshake (s : Socket) (conn : WsConn) (buffer : List UInt8) : Socket × Result :=
  let size := buffer.length
  let maxCopyLen := if 4096 < conn.read then size else min size (4096 - conn.read)
  if 4096 < maxCopyLen + conn.read then (s, .assertFailed)
  else
    let httpHeader := conn.httpHeader.take conn.read ++ buffer.take maxCopyLen
    let hsLen := wsCheckHandshakeComplete httpHeader
    if 4096 < hsLen then (s, .assertFailed)
    else if hsLen < 0 then ({ s with conn := none }, .error)
    else if hsLen = 0 then
      ({ s with conn := some { conn with httpHeader := httpHeader, read := conn.read + size } }, .none)
    else
      let consume := hsLen - conn.read
      if 1024 ≤ protoLen (httpHeader.take hsLen.toNat) then (s, .fault)
      else if size ≠ consume then (s, .assertFailed)
      else
        ({ s with conn := some { conn with
            state := .f0h, read := 0, httpHeader := [], frameHeader := [] } }, .opened)

/-- The variables of the loop; `deleted` when the connection has been freed. -/
structure Pass where
  conn : WsConn
  buffer : List UInt8
  moreFlag : Bool
  queue : List Pack
  allocs : ℕ
  deleted : Bool

/-- What is left when the loop is left with the connection as it is now. -/
def Pass.leave (p : Pass) (conn : WsConn) : Socket :=
  ⟨if p.deleted then none else some conn, p.queue, p.allocs⟩

/-- A round of the loop is followed by another, or it is the last. -/
inductive Step
  | next (p : Pass)
  | done (s : Socket) (r : Result)

/-- `memcpy` to a buffer, when it fits. -/
def Pack.store (pack : Pack) (offset : ℕ) (src : List UInt8) : Option Pack :=
  if offset + src.length ≤ pack.bytes.length then
    some { pack with
      bytes := pack.bytes.take offset ++ src ++ pack.bytes.drop (offset + src.length) }
  else none

section Loop

variable (junk : ℕ → UInt8)

/-- `pack.size`. -/
def WsConn.packSize (conn : WsConn) : ℕ := (conn.pack.map fun pack => pack.bytes.length).getD 0

/-- The buffer for `len` more bytes: `skynet_realloc`, or `skynet_malloc` when there is none. -/
def grow (pack : Option Pack) (addr : ℕ) (len : ℤ) : Pack :=
  match pack with
  | some pack =>
    let size := (pack.bytes.length + len).toNat
    ⟨pack.addr, pack.bytes.take size ++
      (List.range' pack.bytes.length (size - pack.bytes.length)).map junk⟩
  | none => ⟨addr, (List.range len.toNat).map junk⟩

@[simp] lemma grow_none_addr (addr : ℕ) (len : ℤ) : (grow junk none addr len).addr = addr := rfl

@[simp] lemma grow_some_addr (pack : Pack) (addr : ℕ) (len : ℤ) :
    (grow junk (some pack) addr len).addr = pack.addr := rfl

/-- `frame_header` with the bytes of the chunk that fit in it. -/
def Pass.header (p : Pass) : List UInt8 :=
  p.conn.frameHeader ++ p.buffer.take (14 - p.conn.frameHeader.length)

/-- A complete header is evaluated, and room is made for the payload. -/
def takeHeader (p : Pass) : Pass :=
  let consume := (wsCheckFrameheaderComplete p.header).toNat - p.conn.frameHeader.length
  let len := toInt (wsReadSize p.header)
  let fin := wsReadFin p.header
  { p with
    conn := { p.conn with
      read := 0
      frameHeader := []
      opcode := wsReadOpcode p.header
      mask := wsReadMask p.header
      len := len
      fin := fin
      state := if fin then .f1b else .f0b
      pack := grow junk p.conn.pack p.allocs len }
    buffer := p.buffer.drop consume
    allocs := if p.conn.pack.isNone then p.allocs + 1 else p.allocs }

/-- A round in the states `F0H` and `F1H`. A frame without a mask deletes the connection, and the
loop goes on with it as if nothing had happened. -/
def headerStep (p : Pass) : Step :=
  let conn := { p.conn with read := 0 }
  let wsHdrLen := wsCheckFrameheaderComplete p.header
  if wsHdrLen < 0 then .next { p with conn := conn, deleted := true }
  else if wsHdrLen = 0 then .done (p.leave { conn with frameHeader := p.header }) .none
  else if p.conn.packSize + toInt (wsReadSize p.header) < 0 then .done (p.leave conn) .fault
  else .next (takeHeader junk p)

/-- The payload does not become complete: `size < need`, where a negative `need` is taken for a
large number. -/
def Pass.short (p : Pass) : Bool :=
  p.conn.len < p.conn.read || p.buffer.length < p.conn.len - p.conn.read

/-- `need`, when it is not negative. -/
def Pass.need (p : Pass) : ℕ := (p.conn.len - p.conn.read).toNat

/-- The bytes of the chunk that are written to the buffer. -/
def Pass.portion (p : Pass) : List UInt8 := if p.short then p.buffer else p.buffer.take p.need

/-- A round in the state `F0B`: every part of the payload is unmasked as it comes. -/
def bodyStep (p : Pass) (pack : Pack) : Step :=
  let conn := { p.conn with frameHeader := [] }
  match pack.store conn.read (wsUnmaskData p.portion conn.mask) with
  | none => .done (p.leave conn) .fault
  | some pack =>
    if p.short then
      .done (p.leave { conn with pack := pack, read := conn.read + p.buffer.length }) .none
    else .next { p with
      conn := { conn with pack := pack, read := conn.read + p.need, state := .f0h }
      buffer := p.buffer.drop p.need }

/-- The end of a message: a data frame is returned at once when it is all the chunk has brought,
else it is queued, and the queue is announced when the chunk ends with it. -/
def messageEnd (p : Pass) (conn : WsConn) (pack : Pack) (buffer : List UInt8) : Step :=
  if wsHandleControlFrame conn.opcode then
    .next { p with conn := { conn with pack := none }, buffer := buffer, moreFlag := true }
  else if p.moreFlag = false ∧ buffer = [] then
    .done (p.leave { conn with pack := none }) (.data pack)
  else
    let p : Pass := { p with conn := { conn with pack := none }, queue := p.queue ++ [pack] }
    if p.moreFlag = true ∧ buffer = [] then .done (p.leave p.conn) .more
    else .next { p with buffer := buffer, moreFlag := true }

/-- A round in the state `F1B`: the last payload is unmasked with the whole buffer. -/
def lastBodyStep (p : Pass) (pack : Pack) : Step :=
  let conn := { p.conn with frameHeader := [] }
  match pack.store conn.read p.portion with
  | none => .done (p.leave conn) .fault
  | some pack =>
    if p.short then
      .done (p.leave { conn with pack := pack, read := conn.read + p.buffer.length }) .none
    else
      messageEnd p { conn with state := .f0h, read := 0 }
        { pack with bytes := wsUnmaskData pack.bytes conn.mask } (p.buffer.drop p.need)

/-- A round of the loop. In the states of a payload there is a buffer; without one the bytes would
be written to `NULL`. -/
def step (p : Pass) : Step :=
  match p.conn.state, p.conn.pack with
  | .f0b, some pack => bodyStep p pack
  | .f1b, some pack => lastBodyStep p pack
  | .f0h, _ | .f1h, _ => headerStep junk p
  | _, _ => .done (p.leave p.conn) .fault

/-- At most `fuel` rounds of the loop. -/
def loop : ℕ → Pass → Option (Socket × Result)
  | 0, _ => none
  | fuel + 1, p =>
    match step junk p with
    | .next p => loop fuel p
    | .done s r => some (s, r)

/-- Rounds that bring the loop nearer to its end. -/
def Pass.rounds (p : Pass) : ℕ :=
  2 * p.buffer.length + if p.conn.state = .f0b ∨ p.conn.state = .f1b then 1 else 0

/-- The loop is entered. -/
def Socket.enter (s : Socket) (conn : WsConn) (buffer : List UInt8) : Pass :=
  ⟨conn, buffer, false, s.queue, s.allocs, false⟩

/-- `filter_data_`. A loop that has not ended after as many rounds as can make progress goes round
forever. -/
def filterData (s : Socket) (buffer : List UInt8) : Socket × Result :=
  match s.conn with
  | none => (s, .none)
  | some conn =>
    if conn.state = .hs then handshake s conn buffer
    else
      let p := s.enter conn buffer
      match loop junk (p.rounds + 1) p with
      | some r => r
      | none => (s, .hang)

/-- The messages Lua gets from a call: the one returned, or those that `lpop` takes off the queue
when more are announced. -/
def messages : Socket × Result → List Pack × Socket
  | (s, .data pack) => ([pack], s)
  | (s, .more) => (s.queue, { s with queue := [] })
  | (s, _) => ([], s)

/-- The messages Lua gets from a list of chunks, as long as the calls return. -/
def receive (s : Socket) : List (List UInt8) → List Pack × Socket
  | [] => ([], s)
  | chunk :: chunks =>
    let r := filterData junk s chunk
    if r.2.fatal then ([], r.1)
    else
      let m := messages r
      let rest := receive m.2 chunks
      (m.1 ++ rest.1, rest.2)

end Loop

/-! ### The rounds of the loop -/

/-- A header that is complete is longer than a part of it that was not. -/
lemma length_lt_of_complete {h rest : List UInt8} (hinc : wsCheckFrameheaderComplete h = 0)
    (hcom : 0 < wsCheckFrameheaderComplete (h ++ rest)) :
    (h.length : ℤ) < wsCheckFrameheaderComplete (h ++ rest) := by
  unfold wsCheckFrameheaderComplete at hinc hcom ⊢
  by_cases hlen : h.length < 2
  · dsimp only at hcom ⊢
    split_ifs at hcom ⊢ <;> omega
  · have hbyte : (h ++ rest).getD 1 0 = h.getD 1 0 := by
      rw [List.getD_eq_getElem?_getD, List.getD_eq_getElem?_getD,
        List.getElem?_append_left (by omega)]
    rw [hbyte] at hcom ⊢
    dsimp only at hinc hcom ⊢
    split_ifs at hinc hcom ⊢ <;> omega

section Rounds

variable (junk : ℕ → UInt8)

/-- The loop comes to an end with the result `x`. -/
inductive Ends : Pass → Socket × Result → Prop
  | done {p : Pass} {s : Socket} {r : Result} (h : step junk p = .done s r) : Ends p (s, r)
  | next {p p' : Pass} {x : Socket × Result} (h : step junk p = .next p') (h' : Ends p' x) : Ends p x

/-- The part of a header read before is not complete. -/
def Pass.Fits (p : Pass) : Prop := wsCheckFrameheaderComplete p.conn.frameHeader = 0

variable {junk} {p p' : Pass} {x : Socket × Result}

lemma fits_of_nil (h : p.conn.frameHeader = []) : p.Fits := by
  simp [Pass.Fits, h, wsCheckFrameheaderComplete]

/-- What a round in a header state does. -/
lemma headerStep_cases (junk : ℕ → UInt8) (p : Pass) :
    (wsCheckFrameheaderComplete p.header < 0 ∧
      headerStep junk p = .next { p with conn := { p.conn with read := 0 }, deleted := true }) ∨
    (wsCheckFrameheaderComplete p.header = 0 ∧ headerStep junk p =
      .done (p.leave { p.conn with read := 0, frameHeader := p.header }) .none) ∨
    (0 < wsCheckFrameheaderComplete p.header ∧ p.conn.packSize + toInt (wsReadSize p.header) < 0 ∧
      headerStep junk p = .done (p.leave { p.conn with read := 0 }) .fault) ∨
    (0 < wsCheckFrameheaderComplete p.header ∧ 0 ≤ p.conn.packSize + toInt (wsReadSize p.header) ∧
      headerStep junk p = .next (takeHeader junk p)) := by
  rcases lt_trichotomy (wsCheckFrameheaderComplete p.header) 0 with hneg | hzero | hpos
  · exact Or.inl ⟨hneg, if_pos hneg⟩
  · refine Or.inr (Or.inl ⟨hzero, ?_⟩)
    rw [headerStep]
    exact (if_neg (by omega)).trans (if_pos hzero)
  · refine Or.inr (Or.inr ?_)
    have hstep : headerStep junk p = if p.conn.packSize + toInt (wsReadSize p.header) < 0
        then .done (p.leave { p.conn with read := 0 }) .fault else .next (takeHeader junk p) :=
      (if_neg (by omega)).trans (if_neg (by omega))
    by_cases hlen : p.conn.packSize + toInt (wsReadSize p.header) < 0
    · exact Or.inl ⟨hpos, hlen, hstep.trans (if_pos hlen)⟩
    · exact Or.inr ⟨hpos, by omega, hstep.trans (if_neg hlen)⟩

/-- A round in a header state consumes bytes, or it goes round forever. -/
lemma headerStep_next (hf : p.Fits) (hs : p.conn.state ≠ .f0b ∧ p.conn.state ≠ .f1b)
    (h : headerStep junk p = .next p') :
    (p'.rounds < p.rounds ∧ p'.Fits) ∨
      headerStep junk p' = .next p' ∧ p'.conn.state = p.conn.state := by
  rcases headerStep_cases junk p with ⟨hneg, heq⟩ | ⟨-, heq⟩ | ⟨-, -, heq⟩ | ⟨hcom, -, heq⟩ <;>
    rw [heq] at h
  · right
    obtain rfl := Step.next.inj h
    exact ⟨if_pos hneg, rfl⟩
  · exact Step.noConfusion h
  · exact Step.noConfusion h
  · left
    obtain rfl := Step.next.inj h
    have hlt : (p.conn.frameHeader.length : ℤ) < wsCheckFrameheaderComplete p.header :=
      length_lt_of_complete hf hcom
    have hnonempty : p.buffer ≠ [] := by
      intro hnil
      have hsame : p.header = p.conn.frameHeader := by
        rw [Pass.header, hnil, List.take_nil, List.append_nil]
      rw [hsame, hf] at hcom
      exact lt_irrefl 0 hcom
    have hpos := List.length_pos_iff.mpr hnonempty
    refine ⟨?_, fits_of_nil rfl⟩
    simp only [Pass.rounds, takeHeader, List.length_drop, hs.1, hs.2, or_self, if_false]
    split_ifs <;> omega

/-- A round in a payload state leads to a header state. -/
lemma body_next (hs : p.conn.state = .f0b ∨ p.conn.state = .f1b) {buffer : List UInt8}
    (hb : p'.buffer = buffer) (hle : buffer.length ≤ p.buffer.length) (hs' : p'.conn.state = .f0h)
    (hnil : p'.conn.frameHeader = []) : p'.rounds < p.rounds ∧ p'.Fits := by
  refine ⟨?_, fits_of_nil hnil⟩
  simp only [Pass.rounds, hs, hs', hb, if_true]
  simp
  omega

lemma messageEnd_next {conn : WsConn} {pack : Pack} {buffer : List UInt8}
    (h : messageEnd p conn pack buffer = .next p') :
    p'.buffer = buffer ∧ p'.conn = { conn with pack := none } := by
  unfold messageEnd at h
  dsimp only at h
  split_ifs at h <;> obtain rfl := Step.next.inj h <;> exact ⟨rfl, rfl⟩

lemma bodyStep_next {pack : Pack} (h : bodyStep p pack = .next p') :
    p'.buffer.length ≤ p.buffer.length ∧ p'.conn.state = .f0h ∧ p'.conn.frameHeader = [] := by
  unfold bodyStep at h
  dsimp only at h
  split at h
  · exact Step.noConfusion h
  · split_ifs at h
    obtain rfl := Step.next.inj h
    exact ⟨by simp, rfl, rfl⟩

lemma lastBodyStep_next {pack : Pack} (h : lastBodyStep p pack = .next p') :
    p'.buffer.length ≤ p.buffer.length ∧ p'.conn.state = .f0h ∧ p'.conn.frameHeader = [] := by
  unfold lastBodyStep at h
  dsimp only at h
  split at h
  · exact Step.noConfusion h
  · split_ifs at h
    obtain ⟨hb, hconn⟩ := messageEnd_next h
    rw [hb, hconn]
    exact ⟨by simp, rfl, rfl⟩

/-- Every round brings the loop nearer to its end, or it goes round forever. -/
lemma step_next (hf : p.Fits) (h : step junk p = .next p') :
    (p'.rounds < p.rounds ∧ p'.Fits) ∨ step junk p' = .next p' := by
  unfold step at h
  split at h
  · rename_i hs _
    obtain ⟨hle, hs', hnil⟩ := bodyStep_next h
    exact Or.inl (body_next (Or.inl hs) rfl hle hs' hnil)
  · rename_i hs _
    obtain ⟨hle, hs', hnil⟩ := lastBodyStep_next h
    exact Or.inl (body_next (Or.inr hs) rfl hle hs' hnil)
  · rename_i hs
    rcases headerStep_next hf (by simp [hs]) h with hlt | ⟨heq, hstate⟩
    · exact Or.inl hlt
    · right
      unfold step
      rw [hstate, hs]
      exact heq
  · rename_i hs
    rcases headerStep_next hf (by simp [hs]) h with hlt | ⟨heq, hstate⟩
    · exact Or.inl hlt
    · right
      unfold step
      rw [hstate, hs]
      exact heq
  · exact Step.noConfusion h

/-- A loop that goes round forever does not end. -/
lemma not_ends (h : step junk p = .next p) : ¬Ends junk p x := by
  intro hends
  induction hends with
  | done hdone =>
    rw [h] at hdone
    exact Step.noConfusion hdone
  | next hnext _ ih =>
    rw [h] at hnext
    obtain rfl := Step.next.inj hnext
    exact ih h

lemma loop_mono {n m : ℕ} (h : loop junk n p = some x) (hle : n ≤ m) : loop junk m p = some x := by
  induction n generalizing p m with
  | zero => simp [loop] at h
  | succ n ih =>
    obtain ⟨m, rfl⟩ : ∃ k, m = k + 1 := ⟨m - 1, by omega⟩
    rw [loop] at h ⊢
    cases hstep : step junk p with
    | done s r =>
      rw [hstep] at h
      exact h
    | next p' =>
      rw [hstep] at h
      exact ih h (by omega)

/-- A loop that ends, ends within the rounds that can make progress. -/
lemma loop_of_ends (hf : p.Fits) (h : Ends junk p x) : loop junk (p.rounds + 1) p = some x := by
  induction h with
  | done hdone => rw [loop, hdone]
  | next hnext hends ih =>
    rw [loop, hnext]
    rcases step_next hf hnext with ⟨hlt, hf'⟩ | hstuck
    · exact loop_mono (ih hf') hlt
    · exact absurd hends (not_ends hstuck)

/-- What a loop reaches keeps what every round keeps. -/
lemma ends_of_loop {n : ℕ} (h : loop junk n p = some x) : Ends junk p x := by
  induction n generalizing p with
  | zero => simp [loop] at h
  | succ n ih =>
    rw [loop] at h
    cases hstep : step junk p with
    | done s r =>
      rw [hstep] at h
      obtain rfl := Option.some.inj h
      exact .done hstep
    | next p' =>
      rw [hstep] at h
      exact .next hstep (ih h)

/-- `filter_data_` for a connection that is open. -/
lemma filterData_of_ends {s : Socket} {conn : WsConn} {buffer : List UInt8} (hc : s.conn = some conn)
    (hs : conn.state ≠ .hs) (hf : wsCheckFrameheaderComplete conn.frameHeader = 0)
    (h : Ends junk (s.enter conn buffer) x) : filterData junk s buffer = x := by
  have hloop := loop_of_ends (p := s.enter conn buffer) hf h
  unfold filterData
  rw [hc]
  dsimp only
  rw [if_neg hs, hloop]

end Rounds

end LuaWebsocket
