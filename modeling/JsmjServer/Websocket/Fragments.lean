import JsmjServer.Websocket.Delivery

set_option relaxedAutoImplicit false
set_option autoImplicit false

/-!
# Fragmented websocket messages

The end of a message is handled by the opcode of its last frame. That of a continuation frame is
`0`, which `ws_handle_control_frame` takes for a control frame: a message of several frames is
dropped when its last fragment is complete. (The buffer would hold the wrong bytes in any case:
each fragment is written over the one before, and all of it is unmasked with the mask of the last.)

## Main definitions

* `LuaWebsocket.Message` — a message in one frame or more.
* `LuaWebsocket.Silent` — frames none of which ends a data message.
* `LuaWebsocket.Collects` — a connection that follows such frames.

## Main results

* `LuaWebsocket.step_quiet`, `LuaWebsocket.receive_quiet` — such frames bring no message.
* `LuaWebsocket.inTurn_single` — a single frame is never overtaken.
* `LuaWebsocket.reassembled` — when a message comes.
-/

namespace LuaWebsocket

open Websocket

/-- A message: a data frame and the frames that continue it, of which the last is final. -/
structure Message where
  first : WsFrame
  rest : List WsFrame
  data : first.isData = true
  continuation : ∀ f ∈ rest, f.opcode = 0
  final : (first :: rest).map WsFrame.fin = List.replicate rest.length false ++ [true]

/-- The frames of a message. -/
def Message.frames (m : Message) : List WsFrame := m.first :: m.rest

/-- The bytes of a message. -/
def Message.payload (m : Message) : List UInt8 := m.frames.flatMap WsFrame.payload

/-! ### Frames that bring no message -/

/-- Frames that are not too long, and none of which ends a data message. -/
def Silent (frames : List WsFrame) : Prop :=
  ∀ f ∈ frames, f.Short ∧ (f.fin = true → f.isData = false)

/-- The connection has come `off` bytes into the first of the frames, with any buffer. -/
inductive Collects (conn : WsConn) (off : ℕ) (frames : List WsFrame) : Prop
  | header {base : Option Pack} (h : conn.Awaits ((stream frames).take off) base)
      (hnil : frames = [] → off = 0) (hlt : ∀ f ∈ frames.head?, off < f.header.length)
  | body {f : WsFrame} {fs : List WsFrame} {pack : Pack} (hf : frames = f :: fs)
      (h : conn.Reads f (off - f.header.length) pack) (hle : f.header.length ≤ off)
      (hge : off ≤ f.encode.length)

/-- The connection follows frames that bring no message, of which the bytes `bytes` are to come. -/
def Quiet (conn : WsConn) (bytes : List UInt8) : Prop :=
  ∃ off frames, Silent frames ∧ Collects conn off frames ∧ bytes <+: (stream frames).drop off

/-- What a round keeps. -/
def Step.Quiet (rest : List UInt8) : Step → Prop
  | .next p => p.queue = [] ∧ p.deleted = false ∧ LuaWebsocket.Quiet p.conn (p.buffer ++ rest)
  | .done s r => r = .none ∧ s.queue = [] ∧ ∃ conn, s.conn = some conn ∧ LuaWebsocket.Quiet conn rest

section Quiet

variable {junk : ℕ → UInt8} {p : Pass} {rest : List UInt8} {f : WsFrame} {fs : List WsFrame} {off : ℕ}

/-- Between two frames. -/
lemma collects_zero {conn : WsConn} {base : Option Pack} {frames : List WsFrame}
    (h : conn.Awaits [] base) : Collects conn 0 frames := by
  have hheader : conn.Awaits ((stream frames).take 0) base := by simpa using h
  refine .header hheader (fun _ => rfl) ?_
  intro f _
  have := (header_length_pos f).1
  omega

/-- The bytes after a part of those to come. -/
lemma prefix_drop {bytes chunk tail : List UInt8} (h : chunk ++ tail <+: bytes.drop off) :
    tail <+: bytes.drop (off + chunk.length) := by
  obtain ⟨t, ht⟩ := h
  refine ⟨t, ?_⟩
  rw [← List.drop_drop, ← ht, List.append_assoc, List.drop_left]

/-- The chunk ends before the frames do, and no message is complete. -/
lemma quiet_leave {conn : WsConn} {frames : List WsFrame} (hq : p.queue = []) (hd : p.deleted = false)
    (hs : Silent frames) (h : Collects conn (off + p.buffer.length) frames)
    (hp : p.buffer ++ rest <+: (stream frames).drop off) :
    (Step.done (p.leave conn) .none).Quiet rest := by
  refine ⟨rfl, hq, conn, ?_, off + p.buffer.length, frames, hs, h, prefix_drop hp⟩
  rw [Pass.leave, hd]
  rfl

/-- A round in the header of a frame. -/
lemma header_quiet {base : Option Pack} (hq : p.queue = []) (hd : p.deleted = false)
    (hs : Silent (f :: fs)) (h : p.conn.Awaits ((stream (f :: fs)).take off) base)
    (hoff : off < f.header.length) (hp : p.buffer ++ rest <+: (stream (f :: fs)).drop off) :
    (step junk p).Quiet rest := by
  rw [take_stream hoff.le] at h
  have hall : f.header.take off ++ (p.buffer ++ rest) <+: f.header ++ (f.body ++ stream fs) := by
    obtain ⟨t, ht⟩ := hp
    refine ⟨t, ?_⟩
    have htake : (stream (f :: fs)).take off = f.header.take off := take_stream hoff.le
    rw [List.append_assoc, ht, ← htake, List.take_append_drop, stream, List.flatMap_cons,
      WsFrame.encode, List.append_assoc]
    rfl
  have hlen : (f.header.take off ++ p.buffer).length = off + p.buffer.length := by
    rw [List.length_append, List.length_take]
    omega
  rw [← List.append_assoc] at hall
  have hbuffer := (List.prefix_append (f.header.take off ++ p.buffer) rest).trans hall
  by_cases hin : off + p.buffer.length < f.header.length
  · have hpart : f.header.take off ++ p.buffer <+: f.header := by
      refine List.prefix_of_prefix_length_le hbuffer (List.prefix_append _ _) ?_
      rw [hlen]
      exact hin.le
    obtain ⟨conn, hstep, hconn⟩ := step_part junk h hpart (by rw [hlen]; exact hin)
    rw [hstep]
    have htake := List.prefix_iff_eq_take.mp hpart
    rw [hlen] at htake
    rw [htake, ← take_stream hin.le] at hconn
    exact quiet_leave hq hd hs (.header hconn (by simp) (by simpa using hin)) hp
  · obtain ⟨b, hb⟩ : f.header <+: f.header.take off ++ p.buffer := by
      refine List.prefix_of_prefix_length_le (List.prefix_append _ _) hbuffer ?_
      rw [hlen]
      omega
    obtain ⟨conn, hstep, hconn⟩ := step_header junk h (by
      rw [List.length_take]
      omega) hb.symm
    rw [hstep]
    refine ⟨hq, hd, f.header.length, f :: fs, hs, .body rfl (by simpa using hconn) le_rfl ?_, ?_⟩
    · rw [f.length_encode]
      omega
    · rw [← hb, List.append_assoc, List.prefix_append_right_inj] at hall
      rw [stream, List.flatMap_cons, WsFrame.encode, List.append_assoc, List.drop_left]
      exact hall

/-- A round in the payload of a frame. -/
lemma body_quiet {pack : Pack} (hq : p.queue = []) (hd : p.deleted = false) (hs : Silent (f :: fs))
    (h : p.conn.Reads f (off - f.header.length) pack) (hle : f.header.length ≤ off)
    (hge : off ≤ f.encode.length) (hp : p.buffer ++ rest <+: (stream (f :: fs)).drop off) :
    (step junk p).Quiet rest := by
  obtain ⟨hshort, hcontrol⟩ := hs f (by simp)
  have hlen := f.length_encode
  have hn : off - f.header.length ≤ f.payload.length := by omega
  have hdrop : (stream (f :: fs)).drop off = f.body.drop (off - f.header.length) ++ stream fs := by
    rw [stream, List.flatMap_cons, List.drop_append_of_le_length hge, WsFrame.encode,
      List.drop_append, List.drop_eq_nil_of_le hle, List.nil_append]
    rfl
  have hbody : (f.body.drop (off - f.header.length)).length =
      f.payload.length - (off - f.header.length) := by
    rw [List.length_drop, f.length_body]
  by_cases hlt : off - f.header.length + p.buffer.length < f.payload.length
  · have hpart : p.buffer <+: f.body.drop (off - f.header.length) := by
      rw [hdrop] at hp
      refine List.prefix_of_prefix_length_le ((List.prefix_append _ _).trans hp)
        (List.prefix_append _ _) ?_
      omega
    obtain ⟨conn, pack', hstep, hconn, -, -⟩ := step_bodyPart junk h hshort hlt hpart
    rw [hstep]
    have hsub : off + p.buffer.length - f.header.length =
        off - f.header.length + p.buffer.length := by omega
    rw [← hsub] at hconn
    exact quiet_leave hq hd hs (.body rfl hconn (by omega) (by omega)) hp
  · rw [hdrop] at hp
    obtain ⟨b, hb⟩ : f.body.drop (off - f.header.length) <+: p.buffer := by
      refine List.prefix_of_prefix_length_le (List.prefix_append _ _)
        ((List.prefix_append _ _).trans hp) ?_
      omega
    have hrest : b ++ rest <+: (stream fs).drop 0 := by
      rw [← hb, List.append_assoc] at hp
      exact (List.prefix_append_right_inj _).mp hp
    have hs' : Silent fs := fun g hg => hs g (List.mem_cons_of_mem _ hg)
    cases hfin : f.fin with
    | false =>
      obtain ⟨conn, pack', hstep, hconn⟩ := step_body junk h hshort hfin hn hb.symm
      rw [hstep]
      exact ⟨hq, hd, 0, fs, hs', collects_zero hconn, hrest⟩
    | true =>
      -- the message ends with a frame that is taken for a control frame
      obtain ⟨conn, pack', hstep, hstate, hheader, hop, -, -⟩ :=
        step_lastBody junk h hshort hfin hn hb.symm
      have hctrl : wsHandleControlFrame conn.opcode = true := by
        rw [hop, handleControlFrame_eq]
        have hdata := hcontrol hfin
        unfold WsFrame.isData at hdata
        rw [hdata]
        rfl
      rw [hstep, messageEnd, if_pos hctrl]
      exact ⟨hq, hd, 0, fs, hs', collects_zero ⟨hstate, hheader, rfl⟩, hrest⟩

variable (junk) in
/-- A round of the loop. -/
lemma step_quiet (hq : p.queue = []) (hd : p.deleted = false) (h : Quiet p.conn (p.buffer ++ rest)) :
    (step junk p).Quiet rest := by
  obtain ⟨off, frames, hs, hcollects, hp⟩ := h
  cases hcollects with
  | header h hnil hlt =>
    cases frames with
    | cons f fs => exact header_quiet hq hd hs h (hlt f rfl) hp
    | nil =>
      obtain rfl := hnil rfl
      have hbuffer : p.buffer = [] := by
        have hempty : p.buffer ++ rest = [] := by simpa [stream] using hp
        exact (List.append_eq_nil_iff.mp hempty).1
      let g : WsFrame := ⟨true, 0, fun _ => 0, [], by simp⟩
      obtain ⟨conn, hstep, hconn⟩ := step_part junk (f := g) h (by simp [stream, hbuffer])
        (by
          have := (header_length_pos g).1
          simp only [stream, List.flatMap_nil, List.take_nil, hbuffer, List.append_nil,
            List.length_nil]
          omega)
      rw [hstep]
      refine quiet_leave hq hd hs ?_ hp
      rw [hbuffer]
      exact collects_zero (by simpa [stream, hbuffer] using hconn)
  | body hf h hle hge =>
    subst hf
    exact body_quiet hq hd hs h hle hge hp

/-- A chunk of such frames. -/
lemma ends_quiet {x : Socket × Result} (hx : Ends junk p x) (hq : p.queue = [])
    (hd : p.deleted = false) (h : Quiet p.conn (p.buffer ++ rest)) :
    (Step.done x.1 x.2).Quiet rest := by
  induction hx with
  | done hstep =>
    have hquiet := step_quiet junk hq hd h
    rw [hstep] at hquiet
    exact hquiet
  | next hstep _ ih =>
    have hquiet := step_quiet junk hq hd h
    rw [hstep] at hquiet
    exact ih hquiet.1 hquiet.2.1 hquiet.2.2

lemma messages_of_none {x : Socket × Result} (h : x.2 = .none) : messages x = ([], x.1) := by
  obtain ⟨s, r⟩ := x
  obtain rfl : r = .none := h
  rfl

lemma Collects.opened {conn : WsConn} {frames : List WsFrame} (h : Collects conn off frames) :
    conn.state ≠ .hs := by
  cases h with
  | header h _ _ => simp [h.state]
  | body _ h _ _ =>
    rw [h.state]
    split_ifs <;> simp

/-- **Frames none of which ends a data message bring no message**, however they are cut. -/
lemma receive_quiet {s : Socket} {conn : WsConn} {chunks : List (List UInt8)} (hc : s.conn = some conn)
    (hq : s.queue = []) (h : Quiet conn chunks.flatten) : (receive junk s chunks).1 = [] := by
  induction chunks generalizing s conn with
  | nil => rfl
  | cons chunk chunks ih =>
    have hopen : conn.state ≠ .hs := by
      obtain ⟨_, _, _, hcollects, _⟩ := h
      exact hcollects.opened
    rw [receive]
    dsimp only
    split_ifs with hfatal
    · rfl
    · rw [List.flatten_cons] at h
      rcases filterData_cases junk hc hopen chunk with hends | hfatal'
      · obtain ⟨hnone, hqueue, conn', hconn', hquiet⟩ :=
          ends_quiet hends (p := s.enter conn chunk) hq rfl h
        rw [messages_of_none hnone]
        exact ih hconn' hqueue hquiet
      · exact absurd hfatal' hfatal

end Quiet

/-! ### Messages -/

/-- Empty chunks, when all frames have come. -/
lemma inTurn_nil (chunks : List (List UInt8)) (h : chunks.flatten.length = 0) :
    InTurn false 0 [] chunks := by
  induction chunks with
  | nil => rfl
  | cons chunk chunks ih =>
    rw [List.flatten_cons, List.length_append] at h
    have hchunk : chunk.length = 0 := by omega
    simp only [InTurn, hchunk, Nat.add_zero, advance]
    simpa [endsWithData] using ih (by omega)

/-- A single frame is never overtaken. -/
lemma inTurn_single {f : WsFrame} (hdata : f.isData = true) {off : ℕ} {chunks : List (List UInt8)}
    (hoff : off < f.encode.length) (h : off + chunks.flatten.length = f.encode.length) :
    InTurn false off [f] chunks := by
  induction chunks generalizing off with
  | nil => rfl
  | cons chunk chunks ih =>
    rw [List.flatten_cons, List.length_append] at h
    simp only [InTurn]
    by_cases hlt : off + chunk.length < f.encode.length
    · have hadvance : advance (off + chunk.length) [f] = ([], off + chunk.length) := by
        rw [advance, if_pos hlt]
      rw [hadvance]
      simpa [endsWithData] using ih hlt (by omega)
    · have hadvance : advance (off + chunk.length) [f] = ([f], 0) := by
        rw [advance, if_neg hlt, advance]
        simp
        omega
      rw [hadvance]
      have hend := inTurn_nil chunks (by omega)
      simpa [endsWithData, hdata] using hend

section Message

variable (m : Message)

/-- The last of the flags. -/
lemma Message.fin_of_single (h : m.rest = []) : m.first.fin = true := by
  have hfinal := m.final
  rw [h] at hfinal
  simpa using hfinal

lemma Message.plain_of_single (h : m.rest = []) : ∀ f ∈ m.frames, f.Plain := by
  intro f hf
  rw [Message.frames, h, List.mem_singleton] at hf
  rw [hf]
  exact ⟨m.fin_of_single h, Or.inl m.data⟩

lemma Message.payloads_of_single (h : m.rest = []) : payloads 0 m.frames = [⟨0, m.payload⟩] := by
  simp [Message.payload, Message.frames, h, payloads, m.data]

/-- No frame of a message in several frames is final and a data frame. -/
lemma Message.silent (hrest : m.rest ≠ []) (hshort : ∀ f ∈ m.frames, f.Short) : Silent m.frames := by
  intro f hf
  refine ⟨hshort f hf, fun hfin => ?_⟩
  rcases List.mem_cons.mp hf with rfl | hf
  · obtain ⟨g, gs, hgs⟩ := List.exists_cons_of_ne_nil hrest
    have hfinal := m.final
    rw [hgs, List.length_cons, List.replicate_succ, List.map_cons, List.cons_append] at hfinal
    rw [(List.cons.inj hfinal).1] at hfin
    exact Bool.noConfusion hfin
  · simp [WsFrame.isData, m.continuation f hf]

/-- **When a message comes**: it is sent in one frame, which is not too long. A message in several
frames, none of them too long, never comes.

**Proof sketch.** A single frame is a list of plain frames, in which nothing is overtaken. A
message in several frames has no final data frame. -/
theorem reassembled (junk : ℕ → UInt8) (m : Message) (chunks : List (List UInt8))
    (hcut : chunks.flatten = stream m.frames) :
    (m.rest = [] ∧ m.first.Short → (receive junk .opened chunks).1 = [⟨0, m.payload⟩]) ∧
      ((∀ f ∈ m.frames, f.Short) ∨ m.rest = [] →
        (receive junk .opened chunks).1 = [⟨0, m.payload⟩] → m.rest = [] ∧ m.first.Short) := by
  constructor
  · rintro ⟨hone, hshort⟩
    have hframes : m.frames = [m.first] := by rw [Message.frames, hone]
    have hok : ∀ f ∈ m.frames, f.Plain ∧ f.Short := by
      intro f hf
      refine ⟨m.plain_of_single hone f hf, ?_⟩
      rw [hframes, List.mem_singleton] at hf
      rw [hf]
      exact hshort
    rw [← m.payloads_of_single hone, receive_eq_payloads_iff junk hok hcut, hframes]
    apply inTurn_single m.data
    · have := encode_length_pos m.first
      omega
    · rw [hcut, hframes]
      simp [stream]
  · intro hlen heq
    by_cases hone : m.rest = []
    · refine ⟨hone, ?_⟩
      by_contra hlong
      have hframes : m.frames = [] ++ m.first :: [] := by rw [Message.frames, hone, List.nil_append]
      rw [hframes] at hcut
      have hne := receive_ne_payloads junk (by simp)
        (m.plain_of_single hone m.first (by simp [Message.frames])) hlong hcut
      rw [← hframes, m.payloads_of_single hone] at hne
      exact hne heq
    · have hshort := hlen.resolve_right hone
      have hquiet : Quiet { wsCreateConn with state := .f0h } chunks.flatten := by
        have hstart : WsConn.Awaits { wsCreateConn with state := .f0h } [] none := ⟨rfl, rfl, rfl⟩
        refine ⟨0, m.frames, m.silent hone hshort, collects_zero hstart, ?_⟩
        rw [hcut]
        simp
      rw [receive_quiet (s := .opened) rfl rfl hquiet] at heq
      exact absurd heq (by simp)

end Message

/-- A message in one frame. -/
def Message.single (b : UInt8) : Message := ⟨letter b, [], rfl, by simp, rfl⟩

/-- A message in one frame, cut in three. -/
theorem reassembled_single : (receive (fun _ => 0) .opened [[0x81], [0x81, 1, 2], [3, 4, 4]]).1 =
    [⟨0, [5]⟩] :=
  (reassembled (fun _ => 0) (Message.single 5) [[0x81], [0x81, 1, 2], [3, 4, 4]] (by decide)).1
    ⟨rfl, by decide⟩

/-- A message of two bytes in two frames. -/
def Message.pair (b c : UInt8) : Message :=
  ⟨⟨false, 1, ![1, 2, 3, 4], [b], length_singleton_lt b⟩,
    [⟨true, 0, ![5, 6, 7, 8], [c], length_singleton_lt c⟩], rfl, by simp, rfl⟩

/-- A message in two fragments does not come. -/
theorem pair_not_reassembled : ¬∀ (junk : ℕ → UInt8) (m : Message) (chunks : List (List UInt8)),
    chunks.flatten = stream m.frames →
      (receive junk .opened chunks).1.map Pack.bytes = [m.payload] := by
  intro h
  have hlost := h (fun _ => 0) (Message.pair 5 6) [stream (Message.pair 5 6).frames] (by decide)
  revert hlost
  decide

end LuaWebsocket
