import JsmjServer.Websocket.Delivery

set_option relaxedAutoImplicit false
set_option autoImplicit false

/-!
# Which bytes a client may send

Every call of `filter_data_` returns as long as three things do not happen: the chunk that
completes the request of the handshake brings more bytes, or a very long line
`Sec-WebSocket-Protocol`; a frame has no mask; a frame has a length that is negative as an `int`
and the buffer cannot take the bytes that follow. In each of these cases the call does not return.

## Main definitions

* `LuaWebsocket.Accepted` — bytes that can be read from the beginning of a header on.
* `LuaWebsocket.Takes`, `LuaWebsocket.Fine` — the condition on a chunk, in the state before it.
* `LuaWebsocket.Sound` — the invariant of a connection.

## Main results

* `LuaWebsocket.takes_iff_step` — a round of the loop.
* `LuaWebsocket.returns_iff` — one call.
* `LuaWebsocket.all_return_iff` — any list of chunks on a new connection.
-/

namespace LuaWebsocket

open Websocket

/-- The length of a frame as the code reads it. -/
def frameLen (bytes : List UInt8) : ℤ := toInt (wsReadSize bytes)

/-- The bytes from the beginning of a header on are masked frames, of which the last may be
incomplete. Behind a negative length there are no more bytes than the buffer has left; `size` is
the size of the buffer so far. -/
inductive Accepted : ℕ → List UInt8 → Prop
  | part {size : ℕ} {bytes : List UInt8} (h : wsCheckFrameheaderComplete bytes = 0) :
      Accepted size bytes
  | frame {size : ℕ} {bytes : List UInt8} (h : 0 < wsCheckFrameheaderComplete bytes)
      (hlen : 0 ≤ frameLen bytes)
      (hrest : Accepted (if wsReadFin bytes then 0 else size + (frameLen bytes).toNat)
        (bytes.drop ((wsCheckFrameheaderComplete bytes).toNat + (frameLen bytes).toNat))) :
      Accepted size bytes
  | negative {size : ℕ} {bytes : List UInt8} (h : 0 < wsCheckFrameheaderComplete bytes)
      (hlen : frameLen bytes < 0)
      (hfit : bytes.length - wsCheckFrameheaderComplete bytes ≤ size + frameLen bytes) :
      Accepted size bytes

/-- The condition on a chunk. -/
def Takes (conn : WsConn) (chunk : List UInt8) : Prop :=
  match conn.state with
  | .hs =>
    let request := conn.httpHeader ++ chunk
    0 < wsCheckHandshakeComplete request →
      wsCheckHandshakeComplete request = request.length ∧ protoLen request < 1024
  | .f0h | .f1h => Accepted conn.packSize (conn.frameHeader ++ chunk)
  | .f0b =>
    if conn.len < conn.read then conn.read + chunk.length ≤ conn.packSize
    else Accepted conn.packSize (chunk.drop (conn.len - conn.read).toNat)
  | .f1b =>
    if conn.len < conn.read then conn.read + chunk.length ≤ conn.packSize
    else Accepted 0 (chunk.drop (conn.len - conn.read).toNat)

/-- The condition on a chunk; it is dropped when there is no connection. -/
def Fine (s : Socket) (chunk : List UInt8) : Prop := ∀ conn, s.conn = some conn → Takes conn chunk

/-- The invariant of a connection. -/
def Sound (conn : WsConn) : Prop :=
  match conn.state with
  | .hs => conn.httpHeader.length = conn.read ∧ conn.read < 4096
  | .f0h | .f1h => wsCheckFrameheaderComplete conn.frameHeader = 0
  | .f0b | .f1b => conn.frameHeader = [] ∧ ∃ pack, conn.pack = some pack ∧
      conn.len ≤ pack.bytes.length ∧ (0 ≤ conn.len → conn.read ≤ conn.len)

/-! ### The first bytes of a header -/

section Readers

variable (bytes : List UInt8)

lemma getD_take {n i : ℕ} (h : i < n) : (bytes.take n).getD i 0 = bytes.getD i 0 := by
  rw [List.getD_eq_getElem?_getD, List.getD_eq_getElem?_getD, List.getElem?_take, if_pos h]

lemma take_drop_take {n i m : ℕ} (h : i + m ≤ n) :
    ((bytes.take n).drop i).take m = (bytes.drop i).take m := by
  rw [List.drop_take, List.take_take, min_eq_left (by omega)]

/-- The header is found in the first 14 bytes. -/
lemma check_take : wsCheckFrameheaderComplete (bytes.take 14) = wsCheckFrameheaderComplete bytes := by
  unfold wsCheckFrameheaderComplete
  rw [getD_take bytes (by omega), List.length_take]
  dsimp only
  split_ifs <;> first | rfl | omega

lemma readSize_take : wsReadSize (bytes.take 14) = wsReadSize bytes := by
  unfold wsReadSize
  rw [getD_take bytes (by omega), take_drop_take bytes (by omega), take_drop_take bytes (by omega),
    take_drop_take bytes (by omega)]

lemma readFin_take : wsReadFin (bytes.take 14) = wsReadFin bytes := by
  unfold wsReadFin
  rw [getD_take bytes (by omega)]

/-- A complete header has so many bytes. -/
lemma check_le_length : wsCheckFrameheaderComplete bytes ≤ bytes.length ∧
    wsCheckFrameheaderComplete bytes ≤ 14 := by
  unfold wsCheckFrameheaderComplete
  dsimp only
  split_ifs <;> omega

lemma length_lt_of_check_zero (h : wsCheckFrameheaderComplete bytes = 0) : bytes.length < 14 := by
  unfold wsCheckFrameheaderComplete at h
  dsimp only at h
  split_ifs at h <;> omega

end Readers

/-! ### A round of the loop -/

/-- A round is followed by a pass that meets the condition, or the call returns. -/
def Step.Good : Step → Prop
  | .next p => Takes p.conn p.buffer
  | .done _ r => r.fatal = false

/-- What a round keeps, as long as the calls return. -/
def Step.Sound : Step → Prop
  | .next p => LuaWebsocket.Sound p.conn ∧ p.conn.state ≠ .hs
  | .done s r => r.fatal = false → ∀ conn, s.conn = some conn → LuaWebsocket.Sound conn

section Rounds

variable {junk : ℕ → UInt8} {p : Pass}

/-- The header with the bytes of the chunk. -/
lemma header_eq_take (hf : p.Fits) : p.header = (p.conn.frameHeader ++ p.buffer).take 14 := by
  have hlt := length_lt_of_check_zero _ hf
  rw [Pass.header, List.take_append, List.take_of_length_le hlt.le]

/-- The connection is left as it is. -/
lemma sound_leave {conn : WsConn} (h : Sound conn) : ∀ c, (p.leave conn).conn = some c → Sound c := by
  intro c hc
  unfold Pass.leave at hc
  split_ifs at hc with hd
  obtain rfl := Option.some.inj hc
  exact h

/-- The size of the buffer for a frame. -/
lemma length_grow_eq (pack : Option Pack) (addr : ℕ) (len : ℤ) :
    (grow junk pack addr len).bytes.length =
      (((pack.map fun pack => pack.bytes.length).getD 0 : ℕ) + len).toNat := by
  cases pack with
  | none => simp [grow]
  | some pack =>
    simp only [grow, List.length_append, List.length_take, List.length_map, List.length_range',
      Option.map_some, Option.getD_some]
    omega

lemma takes_header (conn : WsConn) (h : conn.state = .f0h ∨ conn.state = .f1h) (chunk : List UInt8) :
    Takes conn chunk ↔ Accepted conn.packSize (conn.frameHeader ++ chunk) := by
  rcases h with h | h <;> simp only [Takes, h]

/-- Behind a negative length. -/
lemma takes_negative {conn : WsConn} (h : conn.state = .f0b ∨ conn.state = .f1b)
    (hneg : conn.len < conn.read) (chunk : List UInt8) :
    Takes conn chunk ↔ conn.read + chunk.length ≤ conn.packSize := by
  rcases h with h | h <;> simp only [Takes, h, hneg, if_true]

lemma takes_body {conn : WsConn} (h : conn.state = .f0b ∨ conn.state = .f1b)
    (hle : conn.read ≤ conn.len) (chunk : List UInt8) :
    Takes conn chunk ↔ Accepted (if conn.state = .f1b then 0 else conn.packSize)
      (chunk.drop (conn.len - conn.read).toNat) := by
  have hneg : ¬conn.len < conn.read := by omega
  rcases h with h | h <;> simp [Takes, h, hneg]

/-- The pass after a complete header. -/
structure HeaderTaken (p p' : Pass) (total : List UInt8) : Prop where
  state : p'.conn.state = if wsReadFin total then .f1b else .f0b
  header : p'.conn.frameHeader = []
  len : p'.conn.len = frameLen total
  read : p'.conn.read = 0
  pack : ∃ pack, p'.conn.pack = some pack ∧
    pack.bytes.length = (p.conn.packSize + frameLen total).toNat
  buffer : p'.buffer = total.drop (wsCheckFrameheaderComplete total).toNat

variable (junk) in
lemma takeHeader_taken (hf : p.Fits)
    (hpos : 0 < wsCheckFrameheaderComplete (p.conn.frameHeader ++ p.buffer)) :
    HeaderTaken p (takeHeader junk p) (p.conn.frameHeader ++ p.buffer) := by
  have hlt : (p.conn.frameHeader.length : ℤ) <
      wsCheckFrameheaderComplete (p.conn.frameHeader ++ p.buffer) := length_lt_of_complete hf hpos
  have hheader := header_eq_take hf
  refine ⟨?_, rfl, ?_, rfl, ⟨_, rfl, ?_⟩, ?_⟩
  · simp only [takeHeader, hheader, readFin_take]
  · simp only [takeHeader, hheader, readSize_take, frameLen]
  · rw [hheader, readSize_take]
    exact length_grow_eq _ _ _
  · simp only [takeHeader, hheader, check_take]
    have hnil : p.conn.frameHeader.drop
        (wsCheckFrameheaderComplete (p.conn.frameHeader ++ p.buffer)).toNat = [] := by
      apply List.drop_eq_nil_of_le
      omega
    rw [List.drop_append, hnil, List.nil_append]

lemma HeaderTaken.body {p' : Pass} {total : List UInt8} (h : HeaderTaken p p' total) :
    p'.conn.state = .f0b ∨ p'.conn.state = .f1b := by
  rw [h.state]
  split_ifs
  · exact Or.inr rfl
  · exact Or.inl rfl

lemma HeaderTaken.packSize {p' : Pass} {total : List UInt8} (h : HeaderTaken p p' total) :
    p'.conn.packSize = (p.conn.packSize + frameLen total).toNat := by
  obtain ⟨pack, hpack, hlen⟩ := h.pack
  rw [← hlen, WsConn.packSize, hpack]
  rfl

lemma HeaderTaken.sound {p' : Pass} {total : List UInt8} (h : HeaderTaken p p' total) :
    Sound p'.conn ∧ p'.conn.state ≠ .hs := by
  obtain ⟨pack, hpack, hlen⟩ := h.pack
  have hroom : p'.conn.len ≤ pack.bytes.length := by
    rw [hlen, h.len]
    omega
  have hread : 0 ≤ p'.conn.len → (p'.conn.read : ℤ) ≤ p'.conn.len := by
    intro hnonneg
    rw [h.read]
    exact hnonneg
  rcases h.body with hs | hs
  · simp only [Sound, hs]
    exact ⟨⟨h.header, pack, hpack, hroom, hread⟩, by simp⟩
  · simp only [Sound, hs]
    exact ⟨⟨h.header, pack, hpack, hroom, hread⟩, by simp⟩

/-- The condition after a complete header. -/
lemma HeaderTaken.takes {p' : Pass} {total : List UInt8} (h : HeaderTaken p p' total)
    (hpos : 0 < wsCheckFrameheaderComplete total) (hsize : 0 ≤ p.conn.packSize + frameLen total) :
    Takes p'.conn p'.buffer ↔ Accepted p.conn.packSize total := by
  have hle := (check_le_length total).1
  by_cases hlen : frameLen total < 0
  · have hneg : p'.conn.len < p'.conn.read := by
      rw [h.len, h.read]
      push_cast
      omega
    rw [takes_negative h.body hneg, h.packSize, h.read, h.buffer, List.length_drop]
    constructor
    · intro hfit
      exact .negative hpos hlen (by omega)
    · intro hacc
      cases hacc with
      | part hzero => omega
      | frame _ hnonneg _ => omega
      | negative _ _ hfit => omega
  · have hread : (p'.conn.read : ℤ) ≤ p'.conn.len := by
      rw [h.len, h.read]
      push_cast
      omega
    have hsame : (if p'.conn.state = .f1b then 0 else p'.conn.packSize) =
        if wsReadFin total then 0 else p.conn.packSize + (frameLen total).toNat := by
      rw [h.state, h.packSize]
      by_cases hfin : wsReadFin total = true
      · rw [if_pos hfin, if_pos hfin, if_pos rfl]
      · rw [if_neg hfin, if_neg hfin, if_neg (by simp)]
        omega
    rw [takes_body h.body hread, hsame, h.buffer, List.drop_drop, h.len, h.read]
    have hneed : (frameLen total - ((0 : ℕ) : ℤ)).toNat = (frameLen total).toNat := by
      rw [Nat.cast_zero, sub_zero]
    rw [hneed]
    constructor
    · intro hrest
      exact .frame hpos (by omega) hrest
    · intro hacc
      cases hacc with
      | part hzero => omega
      | frame _ _ hrest => exact hrest
      | negative _ hneg _ => omega

/-- A round in a header. -/
lemma headerStep_good (hs : p.conn.state = .f0h ∨ p.conn.state = .f1h) (hf : p.Fits) :
    (Takes p.conn p.buffer ↔ (headerStep junk p).Good) ∧ (headerStep junk p).Sound := by
  have hheader := header_eq_take hf
  have hopen : p.conn.state ≠ .hs := by rcases hs with hs | hs <;> simp [hs]
  have hsound : ∀ conn : WsConn, conn.state = p.conn.state →
      wsCheckFrameheaderComplete conn.frameHeader = 0 → Sound conn := by
    intro conn hstate hzero
    rcases hs with hs | hs <;> simp only [Sound, hstate, hs] <;> exact hzero
  have hlen : frameLen (p.conn.frameHeader ++ p.buffer) = toInt (wsReadSize p.header) := by
    rw [frameLen, hheader, readSize_take]
  have hcheck : wsCheckFrameheaderComplete p.header =
      wsCheckFrameheaderComplete (p.conn.frameHeader ++ p.buffer) := by
    rw [hheader, check_take]
  rw [takes_header p.conn hs]
  rcases headerStep_cases junk p with ⟨-, heq⟩ | ⟨hzero, heq⟩ | ⟨hpos, hsize, heq⟩ |
    ⟨hpos, hsize, heq⟩ <;> rw [heq]
  · -- the header is found again
    refine ⟨?_, hsound _ rfl hf, hopen⟩
    exact (takes_header { p.conn with read := 0 } hs p.buffer).symm
  · refine ⟨iff_of_true (.part (hcheck ▸ hzero)) rfl, fun _ => sound_leave (hsound _ rfl hzero)⟩
  · refine ⟨iff_of_false ?_ (by simp [Step.Good, Result.fatal]), by simp [Step.Sound, Result.fatal]⟩
    intro hacc
    have hle := (check_le_length (p.conn.frameHeader ++ p.buffer)).1
    rw [hcheck] at hpos
    rw [← hlen] at hsize
    cases hacc with
    | part hzero => omega
    | frame _ hnonneg _ => omega
    | negative _ _ hfit => omega
  · rw [hcheck] at hpos
    rw [← hlen] at hsize
    have htaken := takeHeader_taken junk hf hpos
    exact ⟨(htaken.takes hpos hsize).symm, htaken.sound⟩

lemma takes_nil (size : ℕ) : Accepted size [] := .part (by simp [wsCheckFrameheaderComplete])

/-- A header state with nothing read. -/
lemma takes_fresh (conn : WsConn) (hs : conn.state = .f0h) (hheader : conn.frameHeader = [])
    (chunk : List UInt8) : Takes conn chunk ↔ Accepted conn.packSize chunk := by
  rw [takes_header conn (Or.inl hs), hheader, List.nil_append]

lemma sound_fresh {conn : WsConn} (hs : conn.state = .f0h) (hheader : conn.frameHeader = []) :
    Sound conn := by
  simp [Sound, hs, hheader, wsCheckFrameheaderComplete]

/-- A round in a payload: the bytes `src` are written to the buffer, and the round ends with `next`
when the payload is complete. -/
lemma payload_good (next : Pack → Step) {pack : Pack} {src : List UInt8}
    (hs : p.conn.state = .f0b ∨ p.conn.state = .f1b) (hsound : Sound p.conn)
    (hpack : p.conn.pack = some pack) (hsrc : src.length = p.portion.length)
    (hnext : ∀ pack', pack'.bytes.length = pack.bytes.length →
      (Accepted (if p.conn.state = .f1b then 0 else p.conn.packSize) (p.buffer.drop p.need) ↔
        (next pack').Good) ∧ (next pack').Sound) {st : Step}
    (hfault : pack.store p.conn.read src = none →
      st = .done (p.leave { p.conn with frameHeader := [] }) .fault)
    (hstore : ∀ pack', pack.store p.conn.read src = some pack' → st = if p.short then
      .done (p.leave { p.conn with
        frameHeader := []
        pack := some pack'
        read := p.conn.read + p.buffer.length }) .none else next pack') :
    (Takes p.conn p.buffer ↔ st.Good) ∧ st.Sound := by
  obtain ⟨hroom, hread⟩ : p.conn.len ≤ pack.bytes.length ∧
      (0 ≤ p.conn.len → (p.conn.read : ℤ) ≤ p.conn.len) := by
    rcases hs with hs | hs <;> simp only [Sound, hs] at hsound <;>
      obtain ⟨-, pack', hpack', hroom, hread⟩ := hsound <;>
      obtain rfl := Option.some.inj (hpack.symm.trans hpack') <;> exact ⟨hroom, hread⟩
  have hsize : p.conn.packSize = pack.bytes.length := by
    rw [WsConn.packSize, hpack]
    rfl
  have hkeep : ∀ pack' : Pack, pack'.bytes.length = pack.bytes.length →
      (0 ≤ p.conn.len → ((p.conn.read + p.buffer.length : ℕ) : ℤ) ≤ p.conn.len) →
      Sound { p.conn with
        frameHeader := []
        pack := some pack'
        read := p.conn.read + p.buffer.length } := by
    intro pack' hlen hle
    rcases hs with hs | hs <;> simp only [Sound, hs] <;>
      exact ⟨trivial, pack', rfl, by omega, hle⟩
  by_cases hneg : p.conn.len < p.conn.read
  · -- a negative length: all bytes are written
    have hshort : p.short = true := by simp [Pass.short, hneg]
    have hportion : p.portion = p.buffer := by rw [Pass.portion, if_pos hshort]
    rw [takes_negative hs hneg, hsize]
    rw [hportion] at hsrc
    by_cases hfit : p.conn.read + src.length ≤ pack.bytes.length
    · have hst := hstore _ (store_eq _ _ _ hfit)
      rw [if_pos hshort] at hst
      rw [hst]
      refine ⟨iff_of_true (by omega) rfl, fun _ => sound_leave (hkeep _ (length_stored hfit) ?_)⟩
      intro hnonneg
      have := hread hnonneg
      omega
    · have hst := hfault (if_neg hfit)
      rw [hst]
      exact ⟨iff_of_false (by omega) (by simp [Step.Good, Result.fatal]),
        by simp [Step.Sound, Result.fatal]⟩
  · have hle : (p.conn.read : ℤ) ≤ p.conn.len := by omega
    have hneed : (p.conn.read : ℤ) + p.need = p.conn.len := by
      rw [Pass.need]
      omega
    have hshort : p.short = true ↔ p.buffer.length < p.need := by
      rw [Pass.short, Pass.need, Bool.or_eq_true, decide_eq_true_iff, decide_eq_true_iff]
      omega
    have hportion : p.portion.length ≤ p.need := by
      rw [Pass.portion]
      split_ifs with h
      · have := hshort.mp h
        omega
      · rw [List.length_take]
        omega
    have hfit : p.conn.read + src.length ≤ pack.bytes.length := by omega
    have hst := hstore _ (store_eq _ _ _ hfit)
    rw [takes_body hs hle, hst]
    change (Accepted _ (p.buffer.drop p.need) ↔ _) ∧ _
    by_cases hpart : p.short = true
    · have hlt := hshort.mp hpart
      rw [if_pos hpart, List.drop_eq_nil_of_le hlt.le]
      refine ⟨iff_of_true (takes_nil _) rfl, fun _ => sound_leave (hkeep _ (length_stored hfit) ?_)⟩
      intro _
      push_cast
      omega
    · rw [if_neg hpart]
      exact hnext _ (length_stored hfit)

lemma bodyStep_good {pack : Pack} (hs : p.conn.state = .f0b) (hsound : Sound p.conn)
    (hpack : p.conn.pack = some pack) :
    (Takes p.conn p.buffer ↔ (bodyStep p pack).Good) ∧ (bodyStep p pack).Sound := by
  refine payload_good (fun pack' => .next { p with
      conn := { p.conn with
        frameHeader := []
        pack := some pack'
        read := p.conn.read + p.need
        state := .f0h }
      buffer := p.buffer.drop p.need }) (Or.inl hs) hsound hpack
    (length_decodeWsmaskData (some p.conn.mask) 0 p.portion) ?_ ?_ ?_
  · intro pack' hlen
    refine ⟨?_, sound_fresh rfl rfl, by simp⟩
    have hsize : p.conn.packSize = pack'.bytes.length := by
      rw [WsConn.packSize, hpack, hlen]
      rfl
    rw [if_neg (by simp [hs]), hsize]
    exact (takes_fresh { p.conn with
      frameHeader := []
      pack := some pack'
      read := p.conn.read + p.need
      state := .f0h } rfl rfl _).symm
  · intro hnone
    simp only [bodyStep, wsUnmaskData, hnone]
  · intro pack' hsome
    simp only [bodyStep, wsUnmaskData, hsome]

/-- The end of a message. -/
lemma messageEnd_good {conn : WsConn} {pack : Pack} {buffer : List UInt8} (hs : conn.state = .f0h)
    (hheader : conn.frameHeader = []) :
    (Accepted 0 buffer ↔ (messageEnd p conn pack buffer).Good) ∧
      (messageEnd p conn pack buffer).Sound := by
  have hsound : Sound { conn with pack := none } := sound_fresh hs hheader
  have htakes : Accepted 0 buffer ↔ Takes { conn with pack := none } buffer :=
    (takes_fresh { conn with pack := none } hs hheader buffer).symm
  have hopen : conn.state ≠ .hs := by simp [hs]
  unfold messageEnd
  dsimp only
  split_ifs with hctrl hdata hmore
  · exact ⟨htakes, hsound, hopen⟩
  · rw [hdata.2]
    exact ⟨iff_of_true (takes_nil 0) rfl, fun _ => sound_leave hsound⟩
  · rw [hmore.2]
    exact ⟨iff_of_true (takes_nil 0) rfl, fun _ => sound_leave hsound⟩
  · exact ⟨htakes, hsound, hopen⟩

lemma lastBodyStep_good {pack : Pack} (hs : p.conn.state = .f1b) (hsound : Sound p.conn)
    (hpack : p.conn.pack = some pack) :
    (Takes p.conn p.buffer ↔ (lastBodyStep p pack).Good) ∧ (lastBodyStep p pack).Sound := by
  refine payload_good (fun pack' => messageEnd p
      { p.conn with frameHeader := [], state := .f0h, read := 0 }
      { pack' with bytes := wsUnmaskData pack'.bytes p.conn.mask } (p.buffer.drop p.need))
    (Or.inr hs) hsound hpack rfl ?_ ?_ ?_
  · intro pack' _
    rw [if_pos hs]
    exact messageEnd_good rfl rfl
  · intro hnone
    simp only [lastBodyStep, hnone]
  · intro pack' hsome
    simp only [lastBodyStep, hsome]

variable (junk) in
/-- **A round of the loop**: the condition says that the round returns, or that the condition holds
for the next round. -/
lemma takes_iff_step (hsound : Sound p.conn) (hopen : p.conn.state ≠ .hs) :
    (Takes p.conn p.buffer ↔ (step junk p).Good) ∧ (step junk p).Sound := by
  cases hs : p.conn.state with
  | hs => exact absurd hs hopen
  | f0h =>
    have hf : p.Fits := by simpa only [Sound, hs, Pass.Fits] using hsound
    have hstep : step junk p = headerStep junk p := by simp only [step, hs]
    rw [hstep]
    exact headerStep_good (Or.inl hs) hf
  | f1h =>
    have hf : p.Fits := by simpa only [Sound, hs, Pass.Fits] using hsound
    have hstep : step junk p = headerStep junk p := by simp only [step, hs]
    rw [hstep]
    exact headerStep_good (Or.inr hs) hf
  | f0b =>
    obtain ⟨-, pack, hpack, -⟩ : p.conn.frameHeader = [] ∧ _ := by
      simpa only [Sound, hs, Pass.Fits] using hsound
    have hstep : step junk p = bodyStep p pack := by simp only [step, hs, hpack]
    rw [hstep]
    exact bodyStep_good hs hsound hpack
  | f1b =>
    obtain ⟨-, pack, hpack, -⟩ : p.conn.frameHeader = [] ∧ _ := by
      simpa only [Sound, hs, Pass.Fits] using hsound
    have hstep : step junk p = lastBodyStep p pack := by simp only [step, hs, hpack]
    rw [hstep]
    exact lastBodyStep_good hs hsound hpack

/-- A loop that returns. -/
lemma takes_of_ends {x : Socket × Result} (hx : Ends junk p x) (hsound : Sound p.conn)
    (hopen : p.conn.state ≠ .hs) (hr : x.2.fatal = false) :
    Takes p.conn p.buffer ∧ ∀ conn, x.1.conn = some conn → Sound conn := by
  induction hx with
  | done hstep =>
    obtain ⟨hiff, hkeep⟩ := takes_iff_step junk hsound hopen
    rw [hstep] at hiff hkeep
    exact ⟨hiff.mpr hr, hkeep hr⟩
  | next hstep _ ih =>
    obtain ⟨hiff, hkeep⟩ := takes_iff_step junk hsound hopen
    rw [hstep] at hiff hkeep
    obtain ⟨htakes, hafter⟩ := ih hkeep.1 hkeep.2 hr
    exact ⟨hiff.mpr htakes, hafter⟩

lemma fits_of_sound (hsound : Sound p.conn) (hopen : p.conn.state ≠ .hs) : p.Fits := by
  cases hs : p.conn.state with
  | hs => exact absurd hs hopen
  | f0h => simpa only [Sound, hs, Pass.Fits] using hsound
  | f1h => simpa only [Sound, hs, Pass.Fits] using hsound
  | f0b =>
    simp only [Sound, hs] at hsound
    exact fits_of_nil hsound.1
  | f1b =>
    simp only [Sound, hs] at hsound
    exact fits_of_nil hsound.1

/-- A header that is found again and again belongs to a frame without a mask. -/
lemma not_takes_of_headerStep (hs : p.conn.state = .f0h ∨ p.conn.state = .f1h) (hf : p.Fits)
    (h : headerStep junk p = .next p) : ¬Takes p.conn p.buffer := by
  rw [takes_header p.conn hs]
  have hcheck : wsCheckFrameheaderComplete p.header =
      wsCheckFrameheaderComplete (p.conn.frameHeader ++ p.buffer) := by
    rw [header_eq_take hf, check_take]
  rcases headerStep_cases junk p with ⟨hneg, -⟩ | ⟨-, heq⟩ | ⟨-, -, heq⟩ | ⟨hpos, -, heq⟩
  · rw [hcheck] at hneg
    intro hacc
    cases hacc with
    | part hzero => omega
    | frame hpos _ _ => omega
    | negative hpos _ _ => omega
  · rw [heq] at h
    exact Step.noConfusion h
  · rw [heq] at h
    exact Step.noConfusion h
  · rw [heq] at h
    have hbody := (takeHeader_taken junk hf (hcheck ▸ hpos)).body
    rw [Step.next.inj h] at hbody
    rcases hs with hs | hs <;> simp [hs] at hbody

/-- A loop that goes round forever has found a frame without a mask. -/
lemma not_takes_of_stuck (hsound : Sound p.conn) (hopen : p.conn.state ≠ .hs)
    (h : step junk p = .next p) : ¬Takes p.conn p.buffer := by
  have hf := fits_of_sound hsound hopen
  unfold step at h
  split at h
  · rename_i hs _
    have hnext := (bodyStep_next h).2.1
    simp [hs] at hnext
  · rename_i hs _
    have hnext := (lastBodyStep_next h).2.1
    simp [hs] at hnext
  · rename_i hs
    exact not_takes_of_headerStep (Or.inl hs) hf h
  · rename_i hs
    exact not_takes_of_headerStep (Or.inr hs) hf h
  · exact Step.noConfusion h

variable (junk) in
/-- **A loop that meets the condition returns.**

**Proof sketch.** By induction on the rounds that can make progress: a round that makes none has
found a frame without a mask. -/
lemma ends_of_takes (hsound : Sound p.conn) (hopen : p.conn.state ≠ .hs)
    (h : Takes p.conn p.buffer) : ∃ x, Ends junk p x ∧ x.2.fatal = false := by
  induction hn : p.rounds using Nat.strong_induction_on generalizing p with
  | _ n ih =>
    obtain ⟨hiff, hkeep⟩ := takes_iff_step junk hsound hopen
    cases hstep : step junk p with
    | done s r =>
      rw [hstep] at hiff
      exact ⟨(s, r), .done hstep, hiff.mp h⟩
    | next p' =>
      rw [hstep] at hiff hkeep
      have htakes : Takes p'.conn p'.buffer := hiff.mp h
      rcases step_next (fits_of_sound hsound hopen) hstep with ⟨hlt, -⟩ | hstuck
      · rw [hn] at hlt
        obtain ⟨x, hx, hfatal⟩ := ih _ hlt hkeep.1 hkeep.2 htakes rfl
        exact ⟨x, .next hstep hx, hfatal⟩
      · exact absurd htakes (not_takes_of_stuck hkeep.1 hkeep.2 hstuck)

end Rounds

/-! ### Calls -/

section Calls

variable {junk : ℕ → UInt8} {s : Socket} {conn : WsConn} {chunk : List UInt8}

/-- The size of a request. -/
lemma checkHandshake_le (buffer : List UInt8) :
    wsCheckHandshakeComplete buffer ≤ buffer.length := by
  unfold wsCheckHandshakeComplete
  split_ifs with h1 h2 h3
  · omega
  · omega
  · omega
  · split
    · omega
    · rename_i httpEnd hfind
      have hmem := List.mem_of_find?_eq_some hfind
      rw [List.mem_range] at hmem
      have hlen : "\r\n\r\n".length = 4 := rfl
      dsimp only
      split_ifs <;> omega

/-- A request that is too long. -/
lemma checkHandshake_long {buffer : List UInt8} (h : 4096 ≤ buffer.length) :
    wsCheckHandshakeComplete buffer = -1 := by
  unfold wsCheckHandshakeComplete
  rw [if_neg (by omega), if_pos h]
  split_ifs <;> rfl

/-- The request, as far as it is copied. -/
lemma copied_eq (hlen : conn.httpHeader.length = conn.read) (hread : conn.read < 4096) :
    conn.httpHeader.take conn.read ++ chunk.take (min chunk.length (4096 - conn.read)) =
      (conn.httpHeader ++ chunk).take 4096 := by
  have hheader : conn.httpHeader.take conn.read = conn.httpHeader := List.take_of_length_le hlen.le
  have hwhole : conn.httpHeader.take 4096 = conn.httpHeader := List.take_of_length_le (by omega)
  have hchunk : chunk.take (min chunk.length (4096 - conn.read)) = chunk.take (4096 - conn.read) := by
    rw [List.take_eq_take_iff]
    omega
  rw [hheader, hchunk, List.take_append, hwhole, hlen]

/-- A call in the handshake that brings the request to 4096 bytes or more. -/
lemma handshake_long (hlen : conn.httpHeader.length = conn.read) (hread : conn.read < 4096)
    (hlong : 4096 ≤ (conn.httpHeader ++ chunk).length) :
    handshake s conn chunk = ({ s with conn := none }, .error) := by
  have hcheck : wsCheckHandshakeComplete ((conn.httpHeader ++ chunk).take 4096) = -1 := by
    apply checkHandshake_long
    rw [List.length_take]
    omega
  unfold handshake
  dsimp only
  rw [if_neg (show ¬4096 < conn.read by omega), copied_eq hlen hread, hcheck, if_neg (by omega),
    if_neg (by omega), if_pos (by omega)]

/-- A call in the handshake with a request that is not too long. -/
lemma handshake_short (hlen : conn.httpHeader.length = conn.read)
    (hshort : (conn.httpHeader ++ chunk).length < 4096) :
    handshake s conn chunk =
      if wsCheckHandshakeComplete (conn.httpHeader ++ chunk) < 0 then ({ s with conn := none }, .error)
      else if wsCheckHandshakeComplete (conn.httpHeader ++ chunk) = 0 then
        ({ s with conn := some { conn with
          httpHeader := conn.httpHeader ++ chunk
          read := conn.read + chunk.length } }, .none)
      else if 1024 ≤ protoLen ((conn.httpHeader ++ chunk).take
          (wsCheckHandshakeComplete (conn.httpHeader ++ chunk)).toNat) then (s, .fault)
      else if (chunk.length : ℤ) ≠ wsCheckHandshakeComplete (conn.httpHeader ++ chunk) - conn.read then
        (s, .assertFailed)
      else ({ s with conn := some { conn with
        state := .f0h, read := 0, httpHeader := [], frameHeader := [] } }, .opened) := by
  have hbound := checkHandshake_le (conn.httpHeader ++ chunk)
  have htotal : conn.read + chunk.length < 4096 := by
    rw [List.length_append, hlen] at hshort
    exact hshort
  unfold handshake
  dsimp only
  rw [if_neg (show ¬4096 < conn.read by omega), copied_eq hlen (by omega),
    List.take_of_length_le hshort.le, if_neg (by omega), if_neg (by omega)]

/-- A call in the handshake. -/
lemma handshake_returns (hs : conn.state = .hs) (hsound : Sound conn) :
    ((handshake s conn chunk).2.fatal = false ↔ Takes conn chunk) ∧
      ((handshake s conn chunk).2.fatal = false →
        ∀ c, (handshake s conn chunk).1.conn = some c → Sound c) := by
  obtain ⟨hlen, hread⟩ : conn.httpHeader.length = conn.read ∧ conn.read < 4096 := by
    simpa only [Sound, hs] using hsound
  have htakes : Takes conn chunk ↔ (0 < wsCheckHandshakeComplete (conn.httpHeader ++ chunk) →
      wsCheckHandshakeComplete (conn.httpHeader ++ chunk) = (conn.httpHeader ++ chunk).length ∧
        protoLen (conn.httpHeader ++ chunk) < 1024) := by
    simp only [Takes, hs]
  rw [htakes]
  have htotal : (conn.httpHeader ++ chunk).length = conn.read + chunk.length := by
    rw [List.length_append, hlen]
  by_cases hlong : 4096 ≤ (conn.httpHeader ++ chunk).length
  · rw [handshake_long hlen hread hlong, checkHandshake_long hlong]
    exact ⟨iff_of_true rfl (fun h => by omega), fun _ c hc => by simp at hc⟩
  · rw [handshake_short hlen (by omega)]
    rcases lt_trichotomy (wsCheckHandshakeComplete (conn.httpHeader ++ chunk)) 0 with hneg | hzero | hpos
    · rw [if_pos hneg]
      exact ⟨iff_of_true rfl (fun h => by omega), fun _ c hc => by simp at hc⟩
    · rw [if_neg (by omega), if_pos hzero]
      refine ⟨iff_of_true rfl (fun h => by omega), ?_⟩
      rintro - c ⟨⟩
      simp only [Sound, hs]
      exact ⟨htotal, by omega⟩
    · rw [if_neg (by omega), if_neg (by omega)]
      by_cases hend : wsCheckHandshakeComplete (conn.httpHeader ++ chunk) =
          (conn.httpHeader ++ chunk).length
      · have hall : (conn.httpHeader ++ chunk).take
            (wsCheckHandshakeComplete (conn.httpHeader ++ chunk)).toNat = conn.httpHeader ++ chunk := by
          rw [hend, Int.toNat_natCast, List.take_length]
        rw [hall]
        by_cases hproto : 1024 ≤ protoLen (conn.httpHeader ++ chunk)
        · rw [if_pos hproto]
          refine ⟨iff_of_false (by simp [Result.fatal]) fun h => ?_, fun h => by simp [Result.fatal] at h⟩
          have := (h hpos).2
          omega
        · rw [if_neg hproto, if_neg (by omega)]
          refine ⟨iff_of_true rfl fun _ => ⟨hend, by omega⟩, ?_⟩
          rintro - c ⟨⟩
          exact sound_fresh rfl rfl
      · refine ⟨iff_of_false ?_ fun h => hend (h hpos).1, fun h => ?_⟩
        · split_ifs <;> simp [Result.fatal]
          omega
        · split_ifs at h <;> simp [Result.fatal] at h
          omega

variable (junk chunk) in
/-- **One call** returns exactly when the chunk meets the condition. -/
lemma returns_iff (hsound : ∀ conn, s.conn = some conn → Sound conn) :
    ((filterData junk s chunk).2.fatal = false ↔ Fine s chunk) ∧
      ((filterData junk s chunk).2.fatal = false →
        ∀ conn, (filterData junk s chunk).1.conn = some conn → Sound conn) := by
  cases hc : s.conn with
  | none =>
    have hcall : filterData junk s chunk = (s, .none) := by
      unfold filterData
      rw [hc]
    rw [hcall]
    exact ⟨iff_of_true rfl fun conn h => by simp [hc] at h, fun _ => hsound⟩
  | some conn =>
    have hfine : Fine s chunk ↔ Takes conn chunk := by
      unfold Fine
      rw [hc]
      exact ⟨fun h => h conn rfl, fun h c hc => Option.some.inj hc ▸ h⟩
    have hconn := hsound conn hc
    rw [hfine]
    by_cases hs : conn.state = .hs
    · have hcall : filterData junk s chunk = handshake s conn chunk := by
        unfold filterData
        rw [hc]
        dsimp only
        rw [if_pos hs]
      rw [hcall]
      exact handshake_returns hs hconn
    · constructor
      · constructor
        · intro hr
          rcases filterData_cases junk hc hs chunk with hends | hfatal
          · exact (takes_of_ends hends hconn hs hr).1
          · rw [hr] at hfatal
            exact Bool.noConfusion hfatal
        · intro h
          obtain ⟨x, hends, hr⟩ := ends_of_takes junk (p := s.enter conn chunk) hconn hs h
          rw [filterData_of_ends hc hs (fits_of_sound (p := s.enter conn chunk) hconn hs) hends]
          exact hr
      · intro hr
        rcases filterData_cases junk hc hs chunk with hends | hfatal
        · exact (takes_of_ends hends hconn hs hr).2
        · rw [hr] at hfatal
          exact Bool.noConfusion hfatal

end Calls

/-! ### Any list of chunks -/

section Run

variable (junk : ℕ → UInt8)

/-- The results of the calls, up to one that does not return. -/
def results (s : Socket) : List (List UInt8) → List Result
  | [] => []
  | chunk :: chunks =>
    let r := filterData junk s chunk
    r.2 :: if r.2.fatal then [] else results (messages r).2 chunks

/-- Every chunk meets the condition in the state before it. -/
def AllFine (s : Socket) : List (List UInt8) → Prop
  | [] => True
  | chunk :: chunks => Fine s chunk ∧ AllFine (messages (filterData junk s chunk)).2 chunks

variable {junk}

lemma conn_messages (x : Socket × Result) : (messages x).2.conn = x.1.conn := by
  obtain ⟨s, r⟩ := x
  cases r <;> rfl

/-- From any state that keeps the invariant. -/
lemma results_iff {s : Socket} (hsound : ∀ conn, s.conn = some conn → Sound conn)
    (chunks : List (List UInt8)) :
    (∀ r ∈ results junk s chunks, r.fatal = false) ↔ AllFine junk s chunks := by
  induction chunks generalizing s with
  | nil => simp [results, AllFine]
  | cons chunk chunks ih =>
    obtain ⟨hcall, hkeep⟩ := returns_iff junk chunk hsound
    rw [results, AllFine, ← hcall, List.forall_mem_cons]
    refine and_congr_right fun hr => ?_
    rw [hr]
    apply ih
    intro conn hc
    rw [conn_messages] at hc
    exact hkeep hr conn hc

/-- **All calls for the chunks of a new connection return exactly when each chunk meets the
condition in the state before it.**

**Proof sketch.** A new connection keeps the invariant, and every call that returns keeps it. -/
theorem all_return_iff (junk : ℕ → UInt8) (chunks : List (List UInt8)) :
    (∀ r ∈ results junk .new chunks, r.fatal = false) ↔ AllFine junk .new chunks := by
  apply results_iff
  rintro conn ⟨⟩
  exact ⟨rfl, by decide⟩

end Run

/-- A request for the handshake. -/
def request : List UInt8 :=
  bytes ("GET / HTTP/1.1\r\nUpgrade: websocket\r\nConnection: Upgrade\r\n" ++
    "Sec-WebSocket-Version: 13\r\nSec-WebSocket-Key: dGhl\r\n\r\n")

/-- A client that does not wait for the answer to its request. -/
theorem pipelined_fails : ¬∀ (junk : ℕ → UInt8) (chunks : List (List UInt8)),
    ∀ r ∈ results junk .new chunks, r.fatal = false := by
  intro h
  have hfails := h (fun _ => 0) [request ++ [0x81]] .assertFailed (by decide +kernel)
  exact Bool.noConfusion hfails

-- a frame without a mask, after the handshake
example : results (fun _ => 0) .new [request, [0x81, 0x00]] = [.opened, .hang] := by decide +kernel

end LuaWebsocket
