import JsmjServer.Websocket.Ordering

set_option relaxedAutoImplicit false
set_option autoImplicit false

/-!
# Exactly when websocket messages come in order

A frame of 65536 bytes or more is read with a wrong length, since `ws_read_size` takes the two
halves of a length of eight bytes in the wrong order. Its message never comes, whatever the bytes
after it are taken for. With the results for shorter frames this gives the exact condition for a
list of frames to be delivered in order.

## Main definitions

* `LuaWebsocket.Spoiled` — the buffer of a frame that is too long has been allocated.
* `LuaWebsocket.Doomed` — a frame that is too long is on its way.

## Main results

* `LuaWebsocket.receive_lost` — a frame that is too long never comes.
* `LuaWebsocket.delivered_iff` — exactly when the messages come in order, each once.
-/

namespace LuaWebsocket

open Websocket

/-! ### A frame that is too long -/

/-- The message in the buffer `k` does not have `n` bytes. -/
def Lost (k n : ℕ) (m : Pack) : Prop := m.addr = k → m.bytes.length ≠ n

/-- The buffer `k` has been allocated for another length than `n`, and takes in no more frames. -/
structure Spoiled (k n : ℕ) (s : Socket) : Prop where
  past : k < s.allocs
  queue : ∀ m ∈ s.queue, Lost k n m
  opened : ∀ conn, s.conn = some conn → conn.state ≠ .hs
  pack : ∀ conn pk, s.conn = some conn → conn.pack = some pk → pk.addr = k →
    conn.state = .f1b ∧ pk.bytes.length ≠ n

/-- The socket in the middle of the loop. -/
def Pass.socket (p : Pass) : Socket := ⟨some p.conn, p.queue, p.allocs⟩

section Long

variable {junk : ℕ → UInt8} {k n : ℕ} {p : Pass}

/-- What a round keeps. -/
def Step.Spoiled (k n : ℕ) : Step → Prop
  | .next p => LuaWebsocket.Spoiled k n p.socket
  | .done s r => LuaWebsocket.Spoiled k n s ∧ ∀ m ∈ (messages (s, r)).1, Lost k n m

/-- The connection may be left, or the loop goes on, with another connection and queue. -/
lemma spoiled_leave {q : Pass} {conn : WsConn} (h : Spoiled k n ⟨some conn, q.queue, q.allocs⟩) :
    Spoiled k n (q.leave conn) := by
  unfold Pass.leave
  cases q.deleted with
  | false => exact h
  | true =>
    exact ⟨h.past, h.queue, fun conn hc => absurd hc (by simp), fun conn pk hc => absurd hc (by simp)⟩

lemma headerStep_spoiled (h : Spoiled k n p.socket) (hs : p.conn.state = .f0h ∨ p.conn.state = .f1h) :
    (headerStep junk p).Spoiled k n := by
  have hopen := h.opened p.conn rfl
  have haddr : ∀ pk, p.conn.pack = some pk → pk.addr ≠ k := by
    intro pk hpk hk
    have hstate := (h.pack p.conn pk rfl hpk hk).1
    rcases hs with hs | hs <;> rw [hs] at hstate <;> exact WsState.noConfusion hstate
  have hsame : ∀ conn : WsConn, conn.state = p.conn.state → conn.pack = p.conn.pack →
      Spoiled k n ⟨some conn, p.queue, p.allocs⟩ := by
    intro conn hst hpk
    refine ⟨h.past, h.queue, ?_, ?_⟩
    · rintro _ ⟨⟩
      rw [hst]
      exact hopen
    · rintro _ pk ⟨⟩ hpack hk
      rw [hpk] at hpack
      exact absurd hk (haddr pk hpack)
  have htake : Spoiled k n (takeHeader junk p).socket := by
    refine ⟨?_, h.queue, ?_, ?_⟩
    · have := h.past
      simp only [Pass.socket, takeHeader] at this ⊢
      split_ifs <;> omega
    · rintro _ ⟨⟩
      simp only [takeHeader]
      split_ifs <;> simp
    · rintro _ pk ⟨⟩ hpack hk
      simp only [takeHeader, Option.some.injEq] at hpack
      rw [← hpack] at hk
      cases hold : p.conn.pack with
      | none =>
        rw [hold, grow_none_addr] at hk
        have := h.past
        simp only [Pass.socket] at this
        omega
      | some old =>
        rw [hold, grow_some_addr] at hk
        exact absurd hk (haddr old hold)
  rcases headerStep_cases junk p with ⟨-, heq⟩ | ⟨-, heq⟩ | ⟨-, -, heq⟩ | ⟨-, -, heq⟩ <;> rw [heq]
  · exact hsame _ rfl rfl
  · exact ⟨spoiled_leave (hsame _ rfl rfl), by simp [messages]⟩
  · exact ⟨spoiled_leave (hsame _ rfl rfl), by simp [messages]⟩
  · exact htake

lemma store_spec {pack pack' : Pack} {offset : ℕ} {src : List UInt8}
    (h : pack.store offset src = some pack') :
    pack'.addr = pack.addr ∧ pack'.bytes.length = pack.bytes.length := by
  unfold Pack.store at h
  split_ifs at h with hle
  obtain rfl := Option.some.inj h
  exact ⟨rfl, length_stored hle⟩

lemma bodyStep_spoiled {pack : Pack} (h : Spoiled k n p.socket) (hs : p.conn.state = .f0b)
    (hpack : p.conn.pack = some pack) : (bodyStep p pack).Spoiled k n := by
  have haddr : pack.addr ≠ k := by
    intro hk
    have hstate := (h.pack p.conn pack rfl hpack hk).1
    rw [hs] at hstate
    exact WsState.noConfusion hstate
  have hnew : ∀ conn : WsConn, conn.state ≠ .hs → (∀ pk, conn.pack = some pk → pk.addr ≠ k) →
      Spoiled k n ⟨some conn, p.queue, p.allocs⟩ := by
    intro conn hst hpk
    refine ⟨h.past, h.queue, ?_, ?_⟩
    · rintro _ ⟨⟩
      exact hst
    · rintro _ pk ⟨⟩ hpack hk
      exact absurd hk (hpk pk hpack)
  unfold bodyStep
  dsimp only
  split
  · refine ⟨spoiled_leave (hnew _ (by simp [hs]) ?_), by simp [messages]⟩
    intro pk hpk
    obtain rfl := Option.some.inj (hpack.symm.trans hpk)
    exact haddr
  · rename_i pack' hstore
    have haddr' : pack'.addr ≠ k := by
      rw [(store_spec hstore).1]
      exact haddr
    split_ifs
    · refine ⟨spoiled_leave (hnew _ (by simp [hs]) ?_), by simp [messages]⟩
      rintro pk ⟨⟩
      exact haddr'
    · refine hnew _ (by simp) ?_
      rintro pk ⟨⟩
      exact haddr'

/-- The end of a message that is not the one of the buffer `k`, or is too short. -/
lemma messageEnd_spoiled {conn : WsConn} {pack : Pack} {buffer : List UInt8} (hpast : k < p.allocs)
    (hqueue : ∀ m ∈ p.queue, Lost k n m) (hs : conn.state ≠ .hs) (hpack : Lost k n pack) :
    (messageEnd p conn pack buffer).Spoiled k n := by
  have hnew : ∀ queue : List Pack, (∀ m ∈ queue, Lost k n m) →
      Spoiled k n ⟨some { conn with pack := none }, queue, p.allocs⟩ := by
    intro queue hq
    refine ⟨hpast, hq, ?_, ?_⟩
    · rintro _ ⟨⟩
      exact hs
    · rintro _ pk ⟨⟩ hpk
      exact absurd hpk (by simp)
  have hqueue' : ∀ m ∈ p.queue ++ [pack], Lost k n m := by
    intro m hm
    rcases List.mem_append.mp hm with hm | hm
    · exact hqueue m hm
    · rw [List.mem_singleton.mp hm]
      exact hpack
  unfold messageEnd
  dsimp only
  split_ifs
  · exact hnew _ hqueue
  · refine ⟨spoiled_leave (hnew _ hqueue), ?_⟩
    intro m hm
    rw [List.mem_singleton.mp hm]
    exact hpack
  · exact ⟨spoiled_leave (hnew _ hqueue'), hqueue'⟩
  · exact hnew _ hqueue'

lemma lastBodyStep_spoiled {pack : Pack} (h : Spoiled k n p.socket) (hs : p.conn.state = .f1b)
    (hpack : p.conn.pack = some pack) : (lastBodyStep p pack).Spoiled k n := by
  have hlost : Lost k n pack := fun hk => (h.pack p.conn pack rfl hpack hk).2
  have hkeep : ∀ (conn : WsConn) (pk : Pack), conn.state = .f1b → conn.pack = some pk →
      Lost k n pk → Spoiled k n ⟨some conn, p.queue, p.allocs⟩ := by
    intro conn pk hst hpk hl
    refine ⟨h.past, h.queue, ?_, ?_⟩
    · rintro _ ⟨⟩
      simp [hst]
    · rintro _ pk' ⟨⟩ hpk' hk
      obtain rfl := Option.some.inj (hpk.symm.trans hpk')
      exact ⟨hst, hl hk⟩
  unfold lastBodyStep
  dsimp only
  split
  · exact ⟨spoiled_leave (hkeep _ pack hs hpack hlost), by simp [messages]⟩
  · rename_i pack' hstore
    obtain ⟨haddr, hlen⟩ := store_spec hstore
    have hlost' : Lost k n pack' := by
      intro hk
      rw [hlen]
      exact hlost (haddr ▸ hk)
    split_ifs
    · exact ⟨spoiled_leave (hkeep _ pack' hs rfl hlost'), by simp [messages]⟩
    · refine messageEnd_spoiled h.past h.queue (by simp) ?_
      intro hk
      have hlen' : (wsUnmaskData pack'.bytes p.conn.mask).length = pack'.bytes.length :=
        length_decodeWsmaskData _ _ _
      dsimp only
      rw [hlen']
      exact hlost' hk

variable (junk) in
lemma step_spoiled (h : Spoiled k n p.socket) : (step junk p).Spoiled k n := by
  unfold step
  split
  · rename_i hs hpack
    exact bodyStep_spoiled h hs hpack
  · rename_i hs hpack
    exact lastBodyStep_spoiled h hs hpack
  · rename_i hs
    exact headerStep_spoiled h (Or.inl hs)
  · rename_i hs
    exact headerStep_spoiled h (Or.inr hs)
  · exact ⟨spoiled_leave h, by simp [messages]⟩

/-- Whatever bytes come. -/
lemma ends_spoiled {x : Socket × Result} (h : Spoiled k n p.socket) (hx : Ends junk p x) :
    Spoiled k n x.1 ∧ ∀ m ∈ (messages x).1, Lost k n m := by
  induction hx with
  | done hstep =>
    have := step_spoiled junk h
    rw [hstep] at this
    exact this
  | next hstep _ ih =>
    have := step_spoiled junk h
    rw [hstep] at this
    exact ih this

/-- Popping the queue. -/
lemma spoiled_messages {x : Socket × Result} (h : Spoiled k n x.1) : Spoiled k n (messages x).2 := by
  obtain ⟨s, r⟩ := x
  cases r with
  | more => exact ⟨h.past, by simp [messages], h.opened, h.pack⟩
  | _ => exact h

end Long

/-! ### Before the frame that is too long -/

/-- The frame `f`, whose buffer has the number `k` and which is too long, is on its way with the
bytes `rest`; the frames `pre` come before. Or its header has been read. -/
inductive Doomed (k : ℕ) (f : WsFrame) (post : List WsFrame) (rest : List UInt8) (s : Socket) : Prop
  | before {conn : WsConn} {pre : List WsFrame} {off idx : ℕ} (hc : s.conn = some conn)
      (h : Follows conn s.allocs off (pre ++ f :: post) idx)
      (hpre : ∀ g ∈ pre, g.Plain ∧ g.Short) (hhead : pre = [] → off < f.header.length)
      (hk : idx + pre.length = k) (hq : ∀ m ∈ s.queue, m.addr < k)
      (hrest : rest <+: (stream (pre ++ f :: post)).drop off)
  | spoiled (h : Spoiled k f.payload.length s)

section Doomed

variable {junk : ℕ → UInt8} {k : ℕ} {f : WsFrame} {pre post : List WsFrame} {rest : List UInt8}

lemma lost_of_lt {m : Pack} (h : m.addr < k) : Lost k f.payload.length m :=
  fun hk => absurd hk h.ne

/-- The wrong length is another. -/
lemma readLen_ne (hlong : ¬f.Short) : f.readLen ≠ f.payload.length := by
  have hpos : ¬f.payload.length < 65536 := hlong
  rw [WsFrame.readLen, if_neg hpos]
  omega

/-- The header of the frame that is too long. -/
lemma header_doomed (hlong : ¬f.Short) (hfin : f.fin = true) {p : Pass} {off : ℕ}
    (h : Follows p.conn p.allocs off (f :: post) k) (hoff : off < f.header.length)
    (hd : p.deleted = false) (hq : ∀ m ∈ p.queue, m.addr < k)
    (hp : p.buffer ++ rest <+: (stream (f :: post)).drop off) {x : Socket × Result}
    (hx : Ends junk p x) :
    Doomed k f post rest (messages x).2 ∧ ∀ m ∈ (messages x).1, Lost k f.payload.length m := by
  cases h with
  | body hf _ hle _ _ _ _ =>
    obtain ⟨rfl, rfl⟩ := List.cons.inj hf
    omega
  | header h _ _ hidx =>
    rw [take_stream hoff.le] at h
    have hdrop : (stream (f :: post)).drop off = f.header.drop off ++ (f.body ++ stream post) := by
      rw [stream, List.flatMap_cons, WsFrame.encode, List.append_assoc,
        List.drop_append_of_le_length hoff.le]
      rfl
    by_cases hin : off + p.buffer.length < f.header.length
    · have hpart : p.buffer <+: f.encode.drop off := by
        rw [hdrop] at hp
        rw [WsFrame.encode, List.drop_append_of_le_length hoff.le]
        refine List.prefix_of_prefix_length_le ((List.prefix_append _ _).trans hp) ?_ ?_
        · rw [← List.append_assoc]
          exact List.prefix_append _ _
        · rw [List.length_append, List.length_drop]
          omega
      obtain ⟨conn, hfollows, hends⟩ := header_part junk post h hidx hd hpart hin
      obtain rfl := (hends x).mp hx
      have hnil : Follows conn p.allocs (off + p.buffer.length) ([] ++ f :: post) k := hfollows
      refine ⟨.before rfl hnil (by simp) (fun _ => hin) rfl hq ?_, by simp [messages]⟩
      obtain ⟨t, ht⟩ := hp
      refine ⟨t, ?_⟩
      rw [List.nil_append, ← List.drop_drop, ← ht, List.append_assoc, List.drop_left]
    · -- the buffer is allocated for the wrong length
      obtain ⟨b, hb⟩ : f.header.drop off <+: p.buffer := by
        rw [hdrop] at hp
        refine List.prefix_of_prefix_length_le (List.prefix_append _ _)
          ((List.prefix_append _ _).trans hp) ?_
        rw [List.length_drop]
        omega
      have heq : f.header.take off ++ p.buffer = f.header ++ b := by
        rw [← hb, ← List.append_assoc, List.take_append_drop]
      obtain ⟨conn, hconn, hends⟩ := ends_header junk h (by
        rw [List.length_take]
        omega) heq
      have hstate : conn.state = .f1b := by
        rw [hconn.state, if_pos hfin]
      have hspoiled : Spoiled k f.payload.length
          (⟨some conn, p.queue, p.allocs + 1⟩ : Socket) := by
        refine ⟨by dsimp only; omega, fun m hm => lost_of_lt (hq m hm), ?_, ?_⟩
        · rintro _ ⟨⟩
          simp [hstate]
        · rintro _ pk ⟨⟩ hpk -
          obtain rfl := Option.some.inj (hconn.pack.symm.trans hpk)
          rw [length_grow]
          exact ⟨hstate, readLen_ne hlong⟩
      obtain ⟨hafter, hmsgs⟩ := ends_spoiled (p := { p with
        conn := conn
        buffer := b
        allocs := p.allocs + 1 }) hspoiled ((hends x).mp hx)
      exact ⟨.spoiled (spoiled_messages hafter), hmsgs⟩

/-- A chunk before the frame that is too long, or with it.

**Proof sketch.** By induction on the frames before it, which are followed as if no other came. -/
lemma ends_doomed (hlong : ¬f.Short) (hfin : f.fin = true) {p : Pass} {off idx : ℕ}
    (h : Follows p.conn p.allocs off (pre ++ f :: post) idx)
    (hpre : ∀ g ∈ pre, g.Plain ∧ g.Short) (hhead : pre = [] → off < f.header.length)
    (hk : idx + pre.length = k) (hd : p.deleted = false) (hq : ∀ m ∈ p.queue, m.addr < k)
    (hp : p.buffer ++ rest <+: (stream (pre ++ f :: post)).drop off) {x : Socket × Result}
    (hx : Ends junk p x) :
    Doomed k f post rest (messages x).2 ∧ ∀ m ∈ (messages x).1, Lost k f.payload.length m := by
  induction pre generalizing p off idx with
  | nil =>
    obtain rfl : idx = k := hk
    exact header_doomed hlong hfin h (hhead rfl) hd hq hp hx
  | cons g pre ih =>
    rw [List.cons_append] at h hp
    obtain ⟨hplain, hshort⟩ := hpre g (by simp)
    have hpre' : ∀ g' ∈ pre, g'.Plain ∧ g'.Short := fun g' hg => hpre g' (List.mem_cons_of_mem _ hg)
    rw [List.length_cons] at hk
    have hoff := h.off_lt
    have hdrop : (stream (g :: (pre ++ f :: post))).drop off =
        g.encode.drop off ++ stream (pre ++ f :: post) := by
      rw [stream, List.flatMap_cons, List.drop_append_of_le_length hoff.le]
      rfl
    by_cases hlt : off + p.buffer.length < g.encode.length
    · have hpart : p.buffer <+: g.encode.drop off := by
        rw [hdrop] at hp
        refine List.prefix_of_prefix_length_le ((List.prefix_append _ _).trans hp)
          (List.prefix_append _ _) ?_
        rw [List.length_drop]
        omega
      obtain ⟨conn, allocs, hfollows, hends⟩ := frame_part junk h hshort hd hpart hlt
      obtain rfl := (hends x).mp hx
      rw [← List.cons_append] at hfollows
      refine ⟨.before rfl hfollows hpre (by simp) (by simpa using hk) hq ?_, by simp [messages]⟩
      obtain ⟨t, ht⟩ := hp
      refine ⟨t, ?_⟩
      rw [List.cons_append, ← List.drop_drop, ← ht, List.append_assoc, List.drop_left]
    · rw [hdrop] at hp
      obtain ⟨b, hb⟩ : g.encode.drop off <+: p.buffer := by
        refine List.prefix_of_prefix_length_le (List.prefix_append _ _)
          ((List.prefix_append _ _).trans hp) ?_
        rw [List.length_drop]
        omega
      have hrest : b ++ rest <+: stream (pre ++ f :: post) := by
        rw [← hb, List.append_assoc] at hp
        exact (List.prefix_append_right_inj _).mp hp
      obtain ⟨conn, hs, hheader, -, hends⟩ :=
        frame_whole junk h hshort hplain.1 hb.symm
      have hk' : idx + 1 + pre.length = k := by omega
      have hfoot : pre = [] → 0 < f.header.length := by
        have := (header_length_pos f).1
        omega
      -- after the frame, the loop goes on or the chunk ends
      have hgo : ∀ queue : List Pack, (∀ m ∈ queue, m.addr < k) → Ends junk ({ p with
            conn := { conn with pack := none }
            buffer := b
            moreFlag := true
            queue := queue
            allocs := idx + 1 } : Pass) x →
          Doomed k f post rest (messages x).2 ∧ ∀ m ∈ (messages x).1, Lost k f.payload.length m := by
        intro queue hqueue hx
        exact ih (p := { p with
            conn := { conn with pack := none }
            buffer := b
            moreFlag := true
            queue := queue
            allocs := idx + 1 }) (follows_zero hs hheader rfl) hpre' hfoot hk' hd hqueue
          (by simpa using hrest) hx
      have hstop : ∀ queue : List Pack, (∀ m ∈ queue, m.addr < k) → b = [] →
          Doomed k f post rest ⟨some { conn with pack := none }, queue, idx + 1⟩ := by
        intro queue hqueue hb
        rw [hb, List.nil_append] at hrest
        exact .before rfl (follows_zero hs hheader rfl) hpre' hfoot hk' hqueue (by simpa using hrest)
      have hnew : (⟨idx, g.payload⟩ : Pack).addr < k := by
        dsimp only
        omega
      have hqueue' : ∀ m ∈ p.queue ++ [⟨idx, g.payload⟩], m.addr < k := by
        intro m hm
        rcases List.mem_append.mp hm with hm | hm
        · exact hq m hm
        · rw [List.mem_singleton.mp hm]
          exact hnew
      have hmsg := (hends x).mp hx
      unfold messageEnd at hmsg
      dsimp only at hmsg
      split_ifs at hmsg with hctrl hdata hmore
      · exact hgo _ hq hmsg
      · obtain rfl : x = _ := hmsg
        simp only [messages, Pass.leave, hd]
        refine ⟨hstop _ hq hdata.2, fun m hm => ?_⟩
        rw [List.mem_singleton.mp hm]
        exact lost_of_lt hnew
      · obtain rfl : x = _ := hmsg
        simp only [messages, Pass.leave, hd]
        exact ⟨hstop _ (by simp) hmore.2, fun m hm => lost_of_lt (hqueue' m hm)⟩
      · exact hgo _ hqueue' hmsg

variable (junk) in
/-- `filter_data_` for an open connection: a loop that ends, or a call that does not return. -/
lemma filterData_cases {s : Socket} {conn : WsConn} (hc : s.conn = some conn)
    (hs : conn.state ≠ .hs) (chunk : List UInt8) :
    Ends junk (s.enter conn chunk) (filterData junk s chunk) ∨
      (filterData junk s chunk).2.fatal = true := by
  unfold filterData
  rw [hc]
  dsimp only
  rw [if_neg hs]
  split
  · rename_i x hx
    exact Or.inl (ends_of_loop hx)
  · exact Or.inr rfl

/-- **The message of a frame that is too long never comes**, whatever comes in its buffer. -/
lemma receive_lost (hlong : ¬f.Short) (hfin : f.fin = true) {s : Socket}
    {chunks : List (List UInt8)} (h : Doomed k f post chunks.flatten s) :
    ∀ m ∈ (receive junk s chunks).1, Lost k f.payload.length m := by
  induction chunks generalizing s with
  | nil => simp [receive]
  | cons chunk chunks ih =>
    have hchunk : (filterData junk s chunk).2.fatal = true ∨
        Doomed k f post chunks.flatten (messages (filterData junk s chunk)).2 ∧
          ∀ m ∈ (messages (filterData junk s chunk)).1, Lost k f.payload.length m := by
      rw [List.flatten_cons] at h
      cases h with
      | before hc h hpre hhead hk hq hrest =>
        rcases filterData_cases junk hc h.fits.1 chunk with hends | hfatal
        · exact Or.inr (ends_doomed hlong hfin (p := s.enter _ chunk) h hpre hhead hk rfl hq hrest
            hends)
        · exact Or.inl hfatal
      | spoiled h =>
        cases hc : s.conn with
        | none =>
          have hnone : filterData junk s chunk = (s, .none) := by
            unfold filterData
            rw [hc]
          rw [hnone]
          exact Or.inr ⟨.spoiled h, by simp [messages]⟩
        | some conn =>
          rcases filterData_cases junk hc (h.opened conn hc) chunk with hends | hfatal
          · have hsocket : Spoiled k f.payload.length (s.enter conn chunk).socket := by
              rw [Pass.socket, Socket.enter]
              dsimp only
              rw [← hc]
              exact h
            obtain ⟨hafter, hmsgs⟩ := ends_spoiled hsocket hends
            exact Or.inr ⟨.spoiled (spoiled_messages hafter), hmsgs⟩
          · exact Or.inl hfatal
    rw [receive]
    dsimp only
    rcases hchunk with hfatal | ⟨hdoomed, hmsgs⟩
    · rw [hfatal]
      simp
    · split_ifs
      · simp
      · intro m hm
        rcases List.mem_append.mp hm with hm | hm
        · exact hmsgs m hm
        · exact ih hdoomed m hm

end Doomed

/-! ### The order of the messages -/

/-- A frame that is too long is a data frame. -/
lemma isData_of_long {f : WsFrame} (hplain : f.Plain) (hlong : ¬f.Short) : f.isData = true := by
  rcases hplain.2 with hdata | ⟨-, hle⟩
  · exact hdata
  · have hshort : f.Short := by
      unfold WsFrame.Short
      omega
    exact absurd hshort hlong

/-- A connection after the handshake follows any list of frames. -/
lemma follows_opened (frames : List WsFrame) :
    Follows { wsCreateConn with state := .f0h } Socket.opened.allocs 0 frames 0 :=
  follows_zero rfl rfl rfl

/-- The order, when no frame is too long. -/
lemma receive_eq_payloads_iff (junk : ℕ → UInt8) {frames : List WsFrame} {chunks : List (List UInt8)}
    (hok : ∀ f ∈ frames, f.Plain ∧ f.Short) (hcut : chunks.flatten = stream frames) :
    (receive junk .opened chunks).1 = payloads 0 frames ↔ InTurn false 0 frames chunks := by
  rw [receive_eq_announceAll hok rfl (follows_opened frames) (by simp [hcut])]
  have hoff : ∀ f ∈ frames.head?, 0 < f.encode.length := by
    intro f _
    have := encode_length_pos f
    omega
  have hlen : 0 + chunks.flatten.length = (stream frames).length := by
    rw [hcut, Nat.zero_add]
  have horder := @announceAll_eq_iff [] 0 0 frames chunks (by simp) hoff hlen
  rw [List.nil_append] at horder
  exact horder

/-- A frame that is too long, when those before it are not. -/
lemma receive_ne_payloads (junk : ℕ → UInt8) {pre post : List WsFrame} {f : WsFrame}
    {chunks : List (List UInt8)} (hpre : ∀ g ∈ pre, g.Plain ∧ g.Short) (hplain : f.Plain)
    (hlong : ¬f.Short) (hcut : chunks.flatten = stream (pre ++ f :: post)) :
    (receive junk .opened chunks).1 ≠ payloads 0 (pre ++ f :: post) := by
  intro heq
  have hmem : (⟨pre.length, f.payload⟩ : Pack) ∈ payloads 0 (pre ++ f :: post) := by
    rw [payloads_append]
    simp [payloads, isData_of_long hplain hlong]
  rw [← heq] at hmem
  have hdoomed : Doomed pre.length f post chunks.flatten .opened := by
    refine .before rfl (follows_opened _) hpre ?_ (by simp) (by simp [Socket.opened]) (by simp [hcut])
    intro _
    have := (header_length_pos f).1
    omega
  exact receive_lost hlong hplain.1 hdoomed _ hmem rfl rfl

/-- **Exactly when the messages come in order, each once**: no frame is too long, and no chunk
returns a message past others that wait.

**Proof sketch.** When no frame is too long, the code announces the messages as `announceAll` does.
Otherwise the message of the first frame that is too long has a buffer of another length. -/
theorem delivered_iff (junk : ℕ → UInt8) (frames : List WsFrame) (chunks : List (List UInt8))
    (hplain : ∀ f ∈ frames, f.Plain) (hcut : chunks.flatten = stream frames) :
    (receive junk .opened chunks).1 = payloads 0 frames ↔
      (∀ f ∈ frames, f.Short) ∧ InTurn false 0 frames chunks := by
  cases hfind : frames.find? fun f => ¬f.Short with
  | none =>
    have hshort : ∀ f ∈ frames, f.Short := by
      intro f hf
      simpa using List.find?_eq_none.mp hfind f hf
    rw [receive_eq_payloads_iff junk (fun f hf => ⟨hplain f hf, hshort f hf⟩) hcut]
    exact ⟨fun h => ⟨hshort, h⟩, fun h => h.2⟩
  | some f =>
    obtain ⟨hlong, pre, post, rfl, hpre⟩ := List.find?_eq_some_iff_append.mp hfind
    have hlong : ¬f.Short := by simpa using hlong
    have hpre' : ∀ g ∈ pre, g.Plain ∧ g.Short := by
      intro g hg
      exact ⟨hplain g (by simp [hg]), by simpa using hpre g hg⟩
    refine iff_of_false (receive_ne_payloads junk hpre' (hplain f (by simp)) hlong hcut) ?_
    intro h
    exact hlong (h.1 f (by simp))

lemma length_singleton_lt (b : UInt8) : [b].length < 2 ^ 63 := by simp

/-- A text frame with one byte. -/
def letter (b : UInt8) : WsFrame := ⟨true, 1, ![1, 2, 3, 4], [b], length_singleton_lt b⟩

/-- Two frames and a part of the next in one chunk: the first two wait for the end of the third. -/
theorem delivered_three_letters : (receive (fun _ => 0) .opened
      [stream [letter 5, letter 6] ++ (letter 7).encode.take 3, (letter 7).encode.drop 3 ++
        stream [letter 8]]).1 = payloads 0 [letter 5, letter 6, letter 7, letter 8] :=
  (delivered_iff _ _ _ (by decide) (by decide)).mpr ⟨by decide, by decide⟩

/-- The first frame comes with the first byte of the second: the second message comes alone, and the
first is never announced. -/
theorem letter_not_delivered : ¬∀ (junk : ℕ → UInt8) (frames : List WsFrame)
    (chunks : List (List UInt8)), (∀ f ∈ frames, f.Plain) → chunks.flatten = stream frames →
      (receive junk .opened chunks).1.map Pack.bytes = (payloads 0 frames).map Pack.bytes := by
  intro h
  have hlost := h (fun _ => 0) [letter 5, letter 6]
    [(letter 5).encode ++ (letter 6).encode.take 1, (letter 6).encode.drop 1] (by decide) (by decide)
  revert hlost
  decide

end LuaWebsocket
