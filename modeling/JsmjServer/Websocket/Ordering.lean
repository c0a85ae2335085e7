import JsmjServer.Websocket.Framing

set_option relaxedAutoImplicit false
set_option autoImplicit false

/-!
# The order of websocket messages

What Lua gets from `lua-websocket.c` for a list of unfragmented frames, however their bytes are cut
into chunks. A chunk that ends with a data frame and has brought no other frame returns the message
at once, and so past the messages that wait in the queue: these were completed by earlier chunks
that did not end with a data frame, and have not been announced.

## Main definitions

* `LuaWebsocket.Plain` — well-formed unfragmented frames.
* `LuaWebsocket.payloads` — the messages as they should come.
* `LuaWebsocket.advance`, `LuaWebsocket.InTurn` — the frames that a chunk completes, and the
  condition on the cuts.
* `LuaWebsocket.announceAll` — what comes, in terms of frames.

## Main results

* `LuaWebsocket.receive_eq_announceAll` — the code does just that, when no frame is too long.
* `LuaWebsocket.announceAll_eq_iff` — the order, in terms of frames.
-/

namespace LuaWebsocket

open Websocket

/-! ### Frames and chunks -/

/-- A text or binary frame. -/
def WsFrame.isData (f : WsFrame) : Bool := f.opcode = 1 || f.opcode = 2

/-- A well-formed unfragmented frame: a data frame, or a control frame, which has at most 125
bytes. -/
def WsFrame.Plain (f : WsFrame) : Prop :=
  f.fin = true ∧ (f.isData = true ∨
    (f.opcode = 8 ∨ f.opcode = 9 ∨ f.opcode = 10) ∧ f.payload.length ≤ 125)

instance (f : WsFrame) : Decidable f.Plain :=
  inferInstanceAs (Decidable (f.fin = true ∧ (f.isData = true ∨
    (f.opcode = 8 ∨ f.opcode = 9 ∨ f.opcode = 10) ∧ f.payload.length ≤ 125)))

/-- The messages of a list of frames; the buffer of the first has the number `idx`. -/
def payloads (idx : ℕ) : List WsFrame → List Pack
  | [] => []
  | f :: fs => (if f.isData then [⟨idx, f.payload⟩] else []) ++ payloads (idx + 1) fs

/-- The bytes of a list of frames. -/
def stream (frames : List WsFrame) : List UInt8 := frames.flatMap WsFrame.encode

/-- The frames that are complete after `n` bytes, and the number of bytes of the next. -/
def advance : ℕ → List WsFrame → List WsFrame × ℕ
  | n, [] => ([], n)
  | n, f :: fs =>
    if n < f.encode.length then ([], n)
    else
      let r := advance (n - f.encode.length) fs
      (f :: r.1, r.2)

/-- The chunk ends with the end of a data frame. -/
def endsWithData (r : List WsFrame × ℕ) : Bool := r.2 = 0 && r.1.getLast?.any WsFrame.isData

/-- The condition on the cuts, where `off` bytes of the first frame have come before, and `waiting`
says whether a message is in the queue: a chunk that ends with a data frame and completes no other
frame finds the queue empty, and it is empty in the end. -/
def InTurn : Bool → ℕ → List WsFrame → List (List UInt8) → Prop
  | waiting, _, _, [] => waiting = false
  | waiting, off, frames, chunk :: chunks =>
    let r := advance (off + chunk.length) frames
    let rest := frames.drop r.1.length
    if endsWithData r then (waiting = true → 2 ≤ r.1.length) ∧ InTurn false r.2 rest chunks
    else InTurn (waiting || r.1.any WsFrame.isData) r.2 rest chunks

instance decidableInTurn : ∀ waiting off frames chunks, Decidable (InTurn waiting off frames chunks)
  | waiting, _, _, [] => inferInstanceAs (Decidable (waiting = false))
  | waiting, off, frames, chunk :: chunks =>
    have : ∀ w n rest, Decidable (InTurn w n rest chunks) :=
      fun w n rest => decidableInTurn w n rest chunks
    inferInstanceAs (Decidable (if endsWithData (advance (off + chunk.length) frames) = true
      then (waiting = true → 2 ≤ (advance (off + chunk.length) frames).1.length) ∧ InTurn false _ _ _
      else InTurn _ _ _ _))

/-- What a chunk brings: the messages that come, and those that wait. -/
def announced (moreFlag : Bool) (queue msgs : List Pack) (r : List WsFrame × ℕ) :
    List Pack × List Pack :=
  if endsWithData r then
    if moreFlag = false ∧ r.1.length = 1 then (msgs, queue) else (queue ++ msgs, [])
  else ([], queue ++ msgs)

/-- What a list of chunks brings. -/
def announceAll : List Pack → ℕ → ℕ → List WsFrame → List (List UInt8) → List Pack
  | _, _, _, _, [] => []
  | queue, idx, off, frames, chunk :: chunks =>
    let r := advance (off + chunk.length) frames
    let a := announced false queue (payloads idx r.1) r
    a.1 ++ announceAll a.2 (idx + r.1.length) r.2 (frames.drop r.1.length) chunks

section Advance

variable {f : WsFrame} {fs frames : List WsFrame} {n idx : ℕ}

lemma payloads_append (idx : ℕ) (fs gs : List WsFrame) :
    payloads idx (fs ++ gs) = payloads idx fs ++ payloads (idx + fs.length) gs := by
  induction fs generalizing idx with
  | nil => simp [payloads]
  | cons f fs ih =>
    simp only [List.cons_append, payloads, ih, List.append_assoc, List.length_cons]
    rw [Nat.add_right_comm, Nat.add_assoc]

/-- The numbers of the buffers of a list of frames. -/
lemma addr_lt_of_mem_payloads {m : Pack} (h : m ∈ payloads idx fs) :
    idx ≤ m.addr ∧ m.addr < idx + fs.length := by
  induction fs generalizing idx with
  | nil => simp [payloads] at h
  | cons f fs ih =>
    rw [payloads, List.mem_append] at h
    rw [List.length_cons]
    rcases h with h | h
    · split_ifs at h
      · rw [List.mem_singleton.mp h]
        exact ⟨le_rfl, by dsimp only; omega⟩
      · simp at h
    · have := ih h
      omega

lemma payloads_ne_nil (idx : ℕ) (fs : List WsFrame) :
    payloads idx fs ≠ [] ↔ fs.any WsFrame.isData = true := by
  induction fs generalizing idx with
  | nil => simp [payloads]
  | cons f fs ih =>
    rw [payloads, List.any_cons]
    cases hf : f.isData with
    | true => simp
    | false => simpa using ih (idx + 1)

lemma encode_length_pos (f : WsFrame) : 6 ≤ f.encode.length := by
  have := (header_length_pos f).1
  rw [f.length_encode]
  omega

/-- The complete frames come first. -/
lemma advance_spec (n : ℕ) (frames : List WsFrame) :
    (advance n frames).1 ++ frames.drop (advance n frames).1.length = frames ∧
      (stream (advance n frames).1).length + (advance n frames).2 = n ∧
      ∀ f ∈ (frames.drop (advance n frames).1.length).head?, (advance n frames).2 < f.encode.length := by
  induction frames generalizing n with
  | nil => simp [advance, stream]
  | cons f fs ih =>
    rw [advance]
    split_ifs with hlt
    · simpa [stream] using hlt
    · obtain ⟨h1, h2, h3⟩ := ih (n - f.encode.length)
      refine ⟨?_, ?_, ?_⟩
      · simpa using h1
      · simp only [stream, List.flatMap_cons, List.length_append] at h2 ⊢
        omega
      · simpa using h3

lemma advance_zero (frames : List WsFrame) : advance 0 frames = ([], 0) := by
  cases frames with
  | nil => rfl
  | cons f fs =>
    have := encode_length_pos f
    rw [advance, if_pos (by omega)]

end Advance

/-! ### The order in terms of frames -/

section Order

variable {queue : List Pack} {idx off : ℕ} {frames : List WsFrame} {chunks : List (List UInt8)}

/-- When a chunk ends with a data frame, it completes a frame. -/
lemma length_pos_of_endsWithData {r : List WsFrame × ℕ} (h : endsWithData r = true) :
    1 ≤ r.1.length := by
  rw [Nat.one_le_iff_ne_zero, Ne, List.length_eq_zero_iff]
  intro hnil
  simp [endsWithData, hnil] at h

/-- A single frame with which a chunk ends is a message. -/
lemma payloads_of_single {r : List WsFrame × ℕ} (h : endsWithData r = true)
    (hone : r.1.length = 1) (idx : ℕ) : ∃ bytes, payloads idx r.1 = [⟨idx, bytes⟩] := by
  obtain ⟨f, hf⟩ := List.length_eq_one_iff.mp hone
  have hdata : f.isData = true := by
    simp only [endsWithData, hf, List.getLast?_singleton, Option.any_some, Bool.and_eq_true] at h
    exact h.2
  exact ⟨f.payload, by simp [hf, payloads, hdata]⟩

/-- Whatever waits and whatever is to come, it comes in order exactly when the cuts allow it.

**Proof sketch.** By induction on the chunks. Where a chunk returns its only message at once while
the queue is not empty, the first message to come is not the first that waits. -/
lemma announceAll_eq_iff (hq : ∀ m ∈ queue, m.addr < idx)
    (hoff : ∀ f ∈ frames.head?, off < f.encode.length)
    (hlen : off + chunks.flatten.length = (stream frames).length) :
    announceAll queue idx off frames chunks = queue ++ payloads idx frames ↔
      InTurn (!queue.isEmpty) off frames chunks := by
  induction chunks generalizing queue idx off frames with
  | nil =>
    have hnil : frames = [] := by
      cases frames with
      | nil => rfl
      | cons f fs =>
        have hlt := hoff f rfl
        simp only [List.flatten_nil, List.length_nil, stream, List.flatMap_cons,
          List.length_append] at hlen
        omega
    subst hnil
    cases queue with
    | nil => simp [announceAll, payloads, InTurn]
    | cons m queue => simp [announceAll, payloads, InTurn]
  | cons chunk chunks ih =>
    obtain ⟨hparts, hcount, hnext⟩ := advance_spec (off + chunk.length) frames
    simp only [announceAll, InTurn]
    set r := advance (off + chunk.length) frames with hr
    have hrest : r.2 + chunks.flatten.length = (stream (frames.drop r.1.length)).length := by
      have htotal := congrArg (fun l => (stream l).length) hparts
      simp only [stream, List.flatMap_append, List.length_append] at htotal hcount hlen ⊢
      rw [List.flatten_cons, List.length_append] at hlen
      omega
    have hall : payloads idx frames =
        payloads idx r.1 ++ payloads (idx + r.1.length) (frames.drop r.1.length) := by
      rw [← payloads_append, hparts]
    have haddr : ∀ m ∈ queue ++ payloads idx r.1, m.addr < idx + r.1.length := by
      intro m hm
      rcases List.mem_append.mp hm with hm | hm
      · have := hq m hm
        omega
      · exact (addr_lt_of_mem_payloads hm).2
    rw [hall]
    unfold announced
    by_cases hends : endsWithData r = true
    · rw [if_pos hends, if_pos hends]
      by_cases hone : r.1.length = 1
      · rw [if_pos ⟨rfl, hone⟩]
        obtain ⟨bytes, hmsg⟩ := payloads_of_single hends hone idx
        cases hqueue : queue with
        | nil =>
          have hih := @ih [] (idx + r.1.length) _ _ (by simp) hnext hrest
          simpa [hmsg, hone] using hih
        | cons m queue =>
          have hlt := hq m (by simp [hqueue])
          refine iff_of_false ?_ ?_
          · intro heq
            rw [hmsg, List.cons_append, List.cons_append] at heq
            have hhead := (List.cons.inj heq).1
            rw [← hhead] at hlt
            exact lt_irrefl _ hlt
          · rintro ⟨htwo, -⟩
            have := htwo rfl
            omega
      · rw [if_neg fun h => hone h.2]
        have hpos := length_pos_of_endsWithData hends
        have hih := @ih [] (idx + r.1.length) _ _ (by simp) hnext hrest
        rw [← List.append_assoc, List.append_cancel_left_eq]
        have htwo : 2 ≤ r.1.length := by omega
        simpa [htwo] using hih
    · rw [if_neg hends, if_neg hends]
      have hih := ih haddr hnext hrest
      have hwait : (!(queue ++ payloads idx r.1).isEmpty) =
          (!queue.isEmpty || r.1.any WsFrame.isData) := by
        rw [Bool.eq_iff_iff, Bool.or_eq_true, ← payloads_ne_nil idx]
        cases queue with
        | nil => simp
        | cons m queue => simp
      rw [hwait] at hih
      simpa using hih

end Order

/-! ### Following the frames -/

/-- The connection has come `off` bytes into the first of the frames, whose buffer has the number
`idx`. -/
inductive Follows (conn : WsConn) (allocs off : ℕ) (frames : List WsFrame) (idx : ℕ) : Prop
  | header (h : conn.Awaits ((stream frames).take off) none) (hnil : frames = [] → off = 0)
      (hlt : ∀ f ∈ frames.head?, off < f.header.length) (hidx : allocs = idx)
  | body {f : WsFrame} {fs : List WsFrame} {pack : Pack} (hf : frames = f :: fs)
      (h : conn.Reads f (off - f.header.length) pack) (hle : f.header.length ≤ off)
      (hlt : off < f.encode.length) (haddr : pack.addr = idx)
      (hsize : pack.bytes.length = f.payload.length) (hidx : allocs = idx + 1)

/-- The results of the loop after a round. -/
def Step.Ends (junk : ℕ → UInt8) : Step → Socket × Result → Prop
  | .next p, x => LuaWebsocket.Ends junk p x
  | .done s r, x => x = (s, r)

section Frame

variable {junk : ℕ → UInt8} {p : Pass} {x : Socket × Result} {f : WsFrame} {fs : List WsFrame}
  {off idx : ℕ}

lemma ends_iff : Ends junk p x ↔ (step junk p).Ends junk x := by
  constructor
  · intro h
    cases h with
    | done h => rw [h, Step.Ends]
    | next h h' =>
      rw [h]
      exact h'
  · intro h
    cases hstep : step junk p with
    | next p' =>
      rw [hstep] at h
      exact .next hstep h
    | done s r =>
      rw [hstep] at h
      rw [show x = (s, r) from h]
      exact .done hstep

variable (junk) in
/-- A connection in the header of a frame, once the header is complete. -/
lemma ends_header {r b : List UInt8} (h : p.conn.Awaits r none) (hr : r.length ≤ f.header.length)
    (heq : r ++ p.buffer = f.header ++ b) :
    ∃ conn, conn.Reads f 0 (grow junk none p.allocs f.readLen) ∧ ∀ x, Ends junk p x ↔
      Ends junk { p with conn := conn, buffer := b, allocs := p.allocs + 1 } x := by
  obtain ⟨conn, hstep, hconn⟩ := step_header junk h hr heq
  refine ⟨conn, hconn, fun x => ?_⟩
  rw [ends_iff, hstep]
  rfl

/-- The buffer of a new frame. -/
lemma length_grow (allocs len : ℕ) : (grow junk none allocs len).bytes.length = len := by
  simp [grow]

/-- A part of the first header. -/
lemma take_stream (h : off ≤ f.header.length) :
    (stream (f :: fs)).take off = f.header.take off := by
  rw [stream, List.flatMap_cons, WsFrame.encode, List.append_assoc, List.take_append_of_le_length h]

/-- The bytes of a frame with the chunk, which begins in its header. -/
lemma prefix_encode (hoff : off ≤ f.header.length) (hp : p.buffer <+: f.encode.drop off) :
    f.header.take off ++ p.buffer <+: f.encode := by
  have htake : f.header.take off = f.encode.take off := by
    rw [WsFrame.encode, List.take_append_of_le_length hoff]
  rw [htake]
  obtain ⟨t, ht⟩ := hp
  exact ⟨t, by rw [List.append_assoc, ht, List.take_append_drop]⟩

variable (junk fs) in
/-- The chunk ends within the header, whatever the length of the payload. -/
lemma header_part (h : p.conn.Awaits (f.header.take off) none) (hidx : p.allocs = idx)
    (hd : p.deleted = false) (hp : p.buffer <+: f.encode.drop off)
    (hin : off + p.buffer.length < f.header.length) :
    ∃ conn, Follows conn p.allocs (off + p.buffer.length) (f :: fs) idx ∧
      ∀ x, Ends junk p x ↔ x = (⟨some conn, p.queue, p.allocs⟩, .none) := by
  have hlen : (f.header.take off ++ p.buffer).length = off + p.buffer.length := by
    rw [List.length_append, List.length_take]
    omega
  have hpart : f.header.take off ++ p.buffer <+: f.header := by
    refine List.prefix_of_prefix_length_le (prefix_encode (by omega) hp)
      (List.prefix_append _ _) ?_
    rw [hlen]
    exact hin.le
  obtain ⟨conn, hstep, hconn⟩ := step_part junk h hpart (by rw [hlen]; exact hin)
  refine ⟨conn, .header ?_ (by simp) (by simpa using hin) hidx, fun x => ?_⟩
  · have htake := List.prefix_iff_eq_take.mp hpart
    rw [hlen] at htake
    rw [take_stream hin.le, ← htake]
    exact hconn
  · rw [ends_iff, hstep, Pass.leave, hd]
    rfl

variable (junk) in
/-- The chunk ends within the frame. -/
lemma frame_part (h : Follows p.conn p.allocs off (f :: fs) idx) (hs : f.Short)
    (hd : p.deleted = false) (hp : p.buffer <+: f.encode.drop off)
    (hlt : off + p.buffer.length < f.encode.length) :
    ∃ conn allocs, Follows conn allocs (off + p.buffer.length) (f :: fs) idx ∧
      ∀ x, Ends junk p x ↔ x = (⟨some conn, p.queue, allocs⟩, .none) := by
  have hlen := f.length_encode
  cases h with
  | header h hnil hoff hidx =>
    have hoff := hoff f rfl
    rw [take_stream hoff.le] at h
    have hall := prefix_encode hoff.le hp
    have hrlen : (f.header.take off).length = off := by
      rw [List.length_take]
      omega
    by_cases hin : off + p.buffer.length < f.header.length
    · obtain ⟨conn, hfollows, hends⟩ := header_part junk fs h hidx hd hp hin
      exact ⟨conn, p.allocs, hfollows, hends⟩
    · -- the header becomes complete, and a part of the payload comes with it
      obtain ⟨b, hb⟩ : f.header <+: f.header.take off ++ p.buffer := by
        refine List.prefix_of_prefix_length_le (List.prefix_append _ _) hall ?_
        rw [List.length_append, hrlen]
        omega
      obtain ⟨conn, hconn, hends⟩ := ends_header junk h (by omega) hb.symm
      have hblen : b.length = off + p.buffer.length - f.header.length := by
        have := congrArg List.length hb
        rw [List.length_append, List.length_append, hrlen] at this
        omega
      have hbody : b <+: f.body := by
        rw [← hb, WsFrame.encode] at hall
        exact (List.prefix_append_right_inj _).mp hall
      set p' : Pass := { p with conn := conn, buffer := b, allocs := p.allocs + 1 } with hp'
      obtain ⟨conn', pack', hstep, hconn', haddr, hsize⟩ := step_bodyPart junk (p := p')
        hconn hs (by
          change 0 + b.length < f.payload.length
          omega) (by simpa using hbody)
      have hn : off + p.buffer.length - f.header.length = 0 + p'.buffer.length := by
        change _ = 0 + b.length
        omega
      rw [← hn] at hconn'
      refine ⟨conn', p.allocs + 1, .body rfl hconn' (by omega) hlt ?_ ?_ (by omega), fun x => ?_⟩
      · rw [haddr]
        exact hidx
      · rw [hsize, length_grow, hs.readLen]
      · rw [hends, ends_iff, hstep, Pass.leave]
        simp only [hp', hd]
        rfl
  | body hf h hle hoff haddr hsize hidx =>
    obtain ⟨rfl, rfl⟩ := List.cons.inj hf
    obtain ⟨conn', pack', hstep, hconn', haddr', hsize'⟩ := step_bodyPart junk h hs
      (by omega) (by
        have hdrop : f.encode.drop off = f.body.drop (off - f.header.length) := by
          rw [WsFrame.encode, List.drop_append, List.drop_eq_nil_of_le hle, List.nil_append]
        rwa [hdrop] at hp)
    have hn : off + p.buffer.length - f.header.length = off - f.header.length + p.buffer.length := by
      omega
    rw [← hn] at hconn'
    refine ⟨conn', p.allocs, .body rfl hconn' (by omega) hlt (haddr'.trans haddr)
      (hsize'.trans hsize) hidx, fun x => ?_⟩
    · rw [ends_iff, hstep, Pass.leave, hd]
      rfl

variable (junk) in
/-- The chunk brings the end of the frame, and the bytes `b` after it. -/
lemma frame_whole {b : List UInt8} (h : Follows p.conn p.allocs off (f :: fs) idx) (hs : f.Short)
    (hfin : f.fin = true) (heq : p.buffer = f.encode.drop off ++ b) :
    ∃ conn, conn.state = .f0h ∧ conn.frameHeader = [] ∧ conn.opcode = UInt8.ofNat f.opcode.val ∧
      ∀ x, Ends junk p x ↔ (messageEnd { p with allocs := idx + 1 } conn ⟨idx, f.payload⟩ b).Ends
        junk x := by
  cases h with
  | header h hnil hoff hidx =>
    have hoff := hoff f rfl
    rw [take_stream hoff.le] at h
    have hb : f.header.take off ++ p.buffer = f.header ++ (f.body ++ b) := by
      rw [heq, WsFrame.encode, List.drop_append_of_le_length hoff.le, List.append_assoc,
        ← List.append_assoc, List.take_append_drop]
    obtain ⟨conn, hconn, hends⟩ := ends_header junk h (by
      rw [List.length_take]
      omega) hb
    set p' : Pass := { p with conn := conn, buffer := f.body ++ b, allocs := p.allocs + 1 } with hp'
    obtain ⟨conn', pack', hstep, hs', hheader', hop', haddr', hbytes'⟩ :=
      step_lastBody junk (p := p') (b := b) hconn hs hfin (Nat.zero_le _) (by simp [hp'])
    have hpack : pack' = ⟨idx, f.payload⟩ := by
      have h1 : pack'.addr = idx := haddr'.trans hidx
      have h2 : pack'.bytes = f.payload := hbytes' (by rw [length_grow, hs.readLen])
      rw [← h1, ← h2]
    refine ⟨conn', hs', hheader', hop', fun x => ?_⟩
    rw [hends, ends_iff, hstep, hpack, ← hidx]
    -- the end of a message does not look at the connection and the bytes before
    rfl
  | body hf h hle hoff haddr hsize hidx =>
    obtain ⟨rfl, rfl⟩ := List.cons.inj hf
    have hdrop : f.encode.drop off = f.body.drop (off - f.header.length) := by
      rw [WsFrame.encode, List.drop_append, List.drop_eq_nil_of_le hle, List.nil_append]
    have hlen := f.length_encode
    rw [hdrop] at heq
    obtain ⟨conn', pack', hstep, hs', hheader', hop', haddr', hbytes'⟩ :=
      step_lastBody junk h hs hfin (by omega) heq
    have hpack : pack' = ⟨idx, f.payload⟩ := by
      have h1 : pack'.addr = idx := haddr'.trans haddr
      have h2 : pack'.bytes = f.payload := hbytes' hsize
      rw [← h1, ← h2]
    refine ⟨conn', hs', hheader', hop', fun x => ?_⟩
    rw [ends_iff, hstep, hpack, ← hidx]

lemma Follows.off_lt {conn : WsConn} {allocs : ℕ} (h : Follows conn allocs off (f :: fs) idx) :
    off < f.encode.length := by
  have hlen := f.length_encode
  cases h with
  | header _ _ hlt _ =>
    have := hlt f rfl
    omega
  | body hf _ _ hlt _ _ _ =>
    obtain ⟨rfl, rfl⟩ := List.cons.inj hf
    exact hlt

/-- Between two frames. -/
lemma follows_zero {conn : WsConn} {allocs : ℕ} {frames : List WsFrame} (hs : conn.state = .f0h)
    (hheader : conn.frameHeader = []) (hpack : conn.pack = none) :
    Follows conn allocs 0 frames allocs := by
  refine .header ⟨hs, by simpa using hheader, hpack⟩ (fun _ => rfl) ?_ rfl
  intro f _
  have := (header_length_pos f).1
  omega

lemma handleControlFrame_eq : ∀ o : Fin 16,
    wsHandleControlFrame (UInt8.ofNat o.val) = !(decide (o = 1) || decide (o = 2)) := by
  decide

end Frame

/-! ### Chunks -/

section Chunks

variable {junk : ℕ → UInt8} {frames : List WsFrame}

/-- A frame after which the loop goes on: its message is queued, and the rest is announced as
more. -/
lemma announced_cons {moreFlag : Bool} {queue : List Pack} {f : WsFrame} {r : List WsFrame × ℕ}
    (idx : ℕ) (h : r.1 = [] → r.2 = 0 → f.isData = false) :
    announced moreFlag queue (payloads idx (f :: r.1)) (f :: r.1, r.2) =
      announced true (queue ++ if f.isData then [⟨idx, f.payload⟩] else [])
        (payloads (idx + 1) r.1) r := by
  obtain ⟨l, n⟩ := r
  cases l with
  | nil =>
    have hends : endsWithData ([f], n) = false := by
      by_cases hn : n = 0
      · simp [endsWithData, h rfl hn]
      · simp [endsWithData, hn]
    have hends' : endsWithData (([] : List WsFrame), n) = false := by simp [endsWithData]
    simp [announced, hends, hends', payloads]
  | cons g l =>
    have hsame : endsWithData (f :: g :: l, n) = endsWithData (g :: l, n) := by
      simp [endsWithData]
    simp only [announced, hsame, payloads, List.length_cons, List.append_assoc]
    split_ifs <;> simp_all

variable (junk) in
/-- What a chunk brings, once the loop has been entered.

**Proof sketch.** By induction on the frames. The first is completed or not; when it is and bytes
are left, the loop goes on with the others, with `moreFlag` set. -/
lemma pass_messages (hok : ∀ f ∈ frames, f.Plain ∧ f.Short) {p : Pass} {off idx : ℕ}
    (h : Follows p.conn p.allocs off frames idx) (hd : p.deleted = false)
    (hp : p.buffer <+: (stream frames).drop off) :
    ∃ x conn allocs, Ends junk p x ∧ x.2.fatal = false ∧
      Follows conn allocs (advance (off + p.buffer.length) frames).2
        (frames.drop (advance (off + p.buffer.length) frames).1.length)
        (idx + (advance (off + p.buffer.length) frames).1.length) ∧
      messages x =
        ((announced p.moreFlag p.queue (payloads idx (advance (off + p.buffer.length) frames).1)
            (advance (off + p.buffer.length) frames)).1,
          ⟨some conn, (announced p.moreFlag p.queue
            (payloads idx (advance (off + p.buffer.length) frames).1)
            (advance (off + p.buffer.length) frames)).2, allocs⟩) := by
  induction frames generalizing p off idx with
  | nil =>
    have hbuffer : p.buffer = [] := by simpa [stream] using hp
    cases h with
    | body hf => simp at hf
    | header h hnil _ hidx =>
      obtain rfl := hnil rfl
      obtain ⟨conn, hstep, hconn⟩ := step_part junk h
        (f := ⟨true, 0, fun _ => 0, [], by simp⟩) (by simp [stream, hbuffer]) (by
          have := (header_length_pos ⟨true, 0, fun _ => 0, [], by simp⟩).1
          simp only [stream, List.flatMap_nil, List.take_nil, hbuffer, List.append_nil,
            List.length_nil]
          omega)
      refine ⟨_, conn, p.allocs, .done hstep, rfl, ?_, ?_⟩
      · simp only [hbuffer, advance, List.length_nil, List.drop_nil, Nat.add_zero, ← hidx]
        apply follows_zero hconn.state _ hconn.pack
        simpa [stream, hbuffer] using hconn.header
      · simp [messages, Pass.leave, hd, announced, endsWithData, hbuffer, advance, payloads]
  | cons f fs ih =>
    have hoff := h.off_lt
    have hdrop : (stream (f :: fs)).drop off = f.encode.drop off ++ stream fs := by
      rw [stream, List.flatMap_cons, List.drop_append_of_le_length hoff.le]
      rfl
    rw [hdrop] at hp
    obtain ⟨hplain, hshort⟩ := hok f (by simp)
    rw [advance]
    by_cases hlt : off + p.buffer.length < f.encode.length
    · have hpart : p.buffer <+: f.encode.drop off := by
        refine List.prefix_of_prefix_length_le hp (List.prefix_append _ _) ?_
        rw [List.length_drop]
        omega
      obtain ⟨conn, allocs, hfollows, hends⟩ := frame_part junk h hshort hd hpart hlt
      rw [if_pos hlt]
      refine ⟨_, conn, allocs, (hends _).mpr rfl, rfl, hfollows, ?_⟩
      simp [messages, announced, endsWithData, payloads]
    · obtain ⟨b, hb⟩ : f.encode.drop off <+: p.buffer := by
        refine List.prefix_of_prefix_length_le (List.prefix_append _ _) hp ?_
        rw [List.length_drop]
        omega
      have hrest : b <+: stream fs := by
        rw [← hb] at hp
        exact (List.prefix_append_right_inj _).mp hp
      have hblen : off + p.buffer.length - f.encode.length = b.length := by
        rw [← hb, List.length_append, List.length_drop]
        omega
      rw [if_neg hlt, hblen]
      obtain ⟨conn, hs, hheader, hop, hends⟩ := frame_whole junk h hshort hplain.1 hb.symm
      have hctrl : wsHandleControlFrame conn.opcode = !f.isData := by
        rw [hop, handleControlFrame_eq]
        rfl
      -- the loop goes on with the other frames
      have hgo : ∀ queue, ∃ x conn' allocs, Ends junk ({ p with
            conn := { conn with pack := none }
            buffer := b
            moreFlag := true
            queue := queue
            allocs := idx + 1 } : Pass) x ∧ x.2.fatal = false ∧
          Follows conn' allocs (advance b.length fs).2 (fs.drop (advance b.length fs).1.length)
            (idx + 1 + (advance b.length fs).1.length) ∧
          messages x = ((announced true queue (payloads (idx + 1) (advance b.length fs).1)
              (advance b.length fs)).1,
            ⟨some conn', (announced true queue (payloads (idx + 1) (advance b.length fs).1)
              (advance b.length fs)).2, allocs⟩) := by
        intro queue
        have hih := ih (fun g hg => hok g (List.mem_cons_of_mem _ hg)) (p := { p with
            conn := { conn with pack := none }
            buffer := b
            moreFlag := true
            queue := queue
            allocs := idx + 1 }) (follows_zero hs hheader rfl) hd (by simpa using hrest)
        simpa using hih
      have hidx : idx + 1 + (advance b.length fs).1.length =
          idx + (f :: (advance b.length fs).1).length := by
        rw [List.length_cons]
        omega
      cases hdata : f.isData with
      | false =>
        obtain ⟨x, conn', allocs, hx, hfatal, hfollows, hmsgs⟩ := hgo p.queue
        refine ⟨x, conn', allocs, ?_, hfatal, ?_, ?_⟩
        · rw [hends, messageEnd, hctrl, hdata]
          exact hx
        · rw [← hidx]
          exact hfollows
        · rw [announced_cons idx fun _ _ => hdata, hdata]
          simpa using hmsgs
      | true =>
        by_cases hnil : b = []
        · -- the chunk ends with the message
          subst hnil
          simp only [List.length_nil, advance_zero, List.length_cons, Nat.zero_add]
          have hpay : payloads idx [f] = [⟨idx, f.payload⟩] := by simp [payloads, hdata]
          have hlast : endsWithData ([f], 0) = true := by simp [endsWithData, hdata]
          rw [hpay, announced, hlast]
          cases hmore : p.moreFlag with
          | false =>
            refine ⟨(⟨some { conn with pack := none }, p.queue, idx + 1⟩, .data ⟨idx, f.payload⟩),
              { conn with pack := none }, idx + 1, (hends _).mpr ?_, rfl,
              follows_zero hs hheader rfl, ?_⟩
            · simp [messageEnd, hctrl, hdata, hmore, Pass.leave, hd, Step.Ends]
            · simp [messages]
          | true =>
            refine ⟨(⟨some { conn with pack := none }, p.queue ++ [⟨idx, f.payload⟩], idx + 1⟩, .more),
              { conn with pack := none }, idx + 1, (hends _).mpr ?_, rfl,
              follows_zero hs hheader rfl, ?_⟩
            · simp [messageEnd, hctrl, hdata, hmore, Pass.leave, hd, Step.Ends]
            · simp [messages]
        · have hpos : (advance b.length fs).1 = [] → (advance b.length fs).2 = 0 → f.isData = false := by
            intro hone hzero
            have hcount := (advance_spec b.length fs).2.1
            rw [hone, hzero] at hcount
            exact absurd (List.length_eq_zero_iff.mp hcount.symm) hnil
          obtain ⟨x, conn', allocs, hx, hfatal, hfollows, hmsgs⟩ :=
            hgo (p.queue ++ [⟨idx, f.payload⟩])
          refine ⟨x, conn', allocs, ?_, hfatal, ?_, ?_⟩
          · rw [hends, messageEnd, hctrl, hdata]
            simp only [hnil, and_false, if_false]
            exact hx
          · rw [← hidx]
            exact hfollows
          · rw [announced_cons idx hpos, hdata]
            simpa using hmsgs

/-- A connection that follows frames is open, and in the middle of a header at most. -/
lemma Follows.fits {conn : WsConn} {allocs off idx : ℕ} (h : Follows conn allocs off frames idx) :
    conn.state ≠ .hs ∧ wsCheckFrameheaderComplete conn.frameHeader = 0 := by
  cases h with
  | header h hnil hlt _ =>
    refine ⟨by simp [h.state], ?_⟩
    rw [h.header]
    cases frames with
    | nil => simp [stream, wsCheckFrameheaderComplete]
    | cons f fs =>
      have hlt := hlt f rfl
      rw [take_stream hlt.le]
      refine check_part f (List.take_prefix _ _) ?_
      rw [List.length_take]
      omega
  | body hf h _ _ _ _ _ =>
    refine ⟨?_, by simp [h.header, wsCheckFrameheaderComplete]⟩
    rw [h.state]
    split_ifs <;> simp

/-- The bytes that follow a chunk. -/
lemma stream_advance {off : ℕ} {chunk rest : List UInt8}
    (h : chunk ++ rest <+: (stream frames).drop off) :
    rest <+: (stream (frames.drop (advance (off + chunk.length) frames).1.length)).drop
      (advance (off + chunk.length) frames).2 := by
  obtain ⟨hparts, hcount, -⟩ := advance_spec (off + chunk.length) frames
  set r := advance (off + chunk.length) frames
  have hstream : stream frames = stream r.1 ++ stream (frames.drop r.1.length) := by
    rw [stream, stream, stream, ← List.flatMap_append, hparts]
  have hdrop : (stream frames).drop (off + chunk.length) =
      (stream (frames.drop r.1.length)).drop r.2 := by
    rw [hstream, ← hcount, ← List.drop_drop, List.drop_left]
  obtain ⟨t, ht⟩ := h
  refine ⟨t, ?_⟩
  rw [← hdrop, ← List.drop_drop, ← ht, List.append_assoc, List.drop_left]

/-- **What comes, in terms of frames**, when no frame is too long. -/
lemma receive_eq_announceAll (hok : ∀ f ∈ frames, f.Plain ∧ f.Short) {s : Socket} {conn : WsConn}
    {chunks : List (List UInt8)} {off idx : ℕ} (hc : s.conn = some conn)
    (h : Follows conn s.allocs off frames idx) (hp : chunks.flatten <+: (stream frames).drop off) :
    (receive junk s chunks).1 = announceAll s.queue idx off frames chunks := by
  induction chunks generalizing s conn off idx frames with
  | nil => rfl
  | cons chunk chunks ih =>
    rw [List.flatten_cons] at hp
    obtain ⟨x, conn', allocs, hends, hfatal, hfollows, hmsgs⟩ := pass_messages junk hok
      (p := s.enter conn chunk) h rfl ((List.prefix_append _ _).trans hp)
    have hdata := filterData_of_ends hc h.fits.1 h.fits.2 hends
    have hrest := ih (fun f hf => hok f (List.mem_of_mem_drop hf))
      (s := (messages x).2) (by rw [hmsgs]) (by rw [hmsgs]; exact hfollows) (stream_advance hp)
    rw [receive]
    dsimp only
    rw [hdata, hfatal]
    simp only [Bool.false_eq_true, if_false]
    rw [hrest, hmsgs]
    rfl

end Chunks

end LuaWebsocket
