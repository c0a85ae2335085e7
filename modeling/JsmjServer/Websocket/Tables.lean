import JsmjServer.Lib.HashChains
import JsmjServer.Lib.RingBuffer
import JsmjServer.Websocket.Handshake

set_option relaxedAutoImplicit false
set_option autoImplicit false

/-!
# The tables of the websocket unpacker

`struct queue` of `lualib-src/lua-websocketnetpack.c` as it is in memory: a table of chains of
`struct uncomplete`, selected by a hash of the socket, and an array of packets that is used in a
circle and replaced by a larger one when it is full. The calls of the unpacker are written once more
over these tables and compared with the calls over a function of the socket and a list of packets.

## Main definitions

* `Websocket.Tables` — the chains and the array.
* `Websocket.Tables.filterData`, `Websocket.Tables.filterDataHandshake`, `Websocket.Tables.lpop` —
  the calls over them.
* `Websocket.Tables.Stands` — the tables stand for a `Queue`.
* `Websocket.Call`, `Websocket.Answer` — what Lua calls, and what it gets.

## Main results

* `Websocket.Tables.filter_stands` — `filter_data_` over the tables returns what it returns over
  the `Queue`.
* `Websocket.Tables.run_eq` — so does every sequence of calls.

## Design

`lua_touserdata` is `NULL` before the first packet or frame under way is stored; a table that is
empty answers as the code does for `NULL`. A new array gets the chains of the old one, whose chains
are cleared, so that the chains are one field here.
-/

namespace Websocket

/-- `QUEUESIZE`. -/
def queueSize : ℕ := 1024

/-- `HASHSIZE`. -/
def hashSize : ℕ := 4096

/-- `hash_fd`. -/
def hashFd (fd : ℤ) : Fin hashSize :=
  ⟨((fd / 2 ^ 24 + fd / 2 ^ 12 + fd) % 2 ^ 32).toNat % hashSize, Nat.mod_lt _ (by decide)⟩

/-- `struct queue`. -/
structure Tables where
  hash : HashChains ℤ Uncomplete hashSize
  queue : RingBuffer (ℤ × List UInt8)

namespace Tables

/-! ### The program -/

/-- `get_queue` the first time. -/
def new : Tables := ⟨.empty, .new queueSize (by decide)⟩

/-- `find_uncomplete`: the frame under way, unlinked from its chain. -/
def findUncomplete (t : Tables) (fd : ℤ) : Option Uncomplete × Tables :=
  ((t.hash.take hashFd fd).1, { t with hash := (t.hash.take hashFd fd).2 })

/-- `save_uncomplete` and filling it. -/
def saveUncomplete (t : Tables) (fd : ℤ) (uc : Uncomplete) : Tables :=
  { t with hash := t.hash.insert hashFd fd uc }

/-- `push_data`, with `expand_queue` when the array is full. -/
def pushData (t : Tables) (fd : ℤ) (packet : List UInt8) : Tables :=
  { t with queue := t.queue.push (fd, packet) queueSize (by decide) }

/-- `lpop`. -/
def lpop (t : Tables) : Option (ℤ × List UInt8) × Tables :=
  match t.queue.pop with
  | none => (none, t)
  | some (packet, queue) => (some packet, { t with queue := queue })

/-- `push_more`, with fuel for the depth of the recursion. -/
def pushMore : ℕ → Tables → ℤ → List UInt8 → Tables
  | 0, t, _, _ => t
  | fuel + 1, t, fd, buffer =>
    let buffer := skipInvalid badSizeMore buffer
    let r := readSize buffer
    if r.1 = -1 then t.saveUncomplete fd (.header buffer)
    else
      let packSize := r.1.toNat
      let mask := r.2.mask
      let buffer := buffer.drop r.2.packHeadLength
      if buffer.length < packSize then
        t.saveUncomplete fd (.payload packSize (decodeWsmaskData mask 0 buffer) mask
          (unmasked mask 0 buffer.length))
      else
        let t := t.pushData fd (decodeWsmaskData mask 0 (buffer.take packSize))
        let buffer := buffer.drop packSize
        if buffer = [] then t else pushMore fuel t fd buffer

/-- The part of `filter_data_` that completes a payload under way. -/
def fillPayload (t : Tables) (fd : ℤ) (size : ℕ) (read : List UInt8) (mask : Option Mask)
    (hasunmask : ℕ) (buffer : List UInt8) : Result × Tables :=
  let need := size - read.length
  if buffer.length < need then
    (.none, t.saveUncomplete fd (.payload size (read ++ decodeWsmaskData mask hasunmask buffer)
      mask (unmasked mask hasunmask buffer.length)))
  else
    let packet := read ++ decodeWsmaskData mask hasunmask (buffer.take need)
    let buffer := buffer.drop need
    if buffer = [] then (.data packet, t)
    else (.more, pushMore buffer.length (t.pushData fd packet) fd buffer)

/-- `filter_data_` with `wsocket_handeshake` zero. -/
def filterData (t : Tables) (fd : ℤ) (buffer : List UInt8) : Result × Tables :=
  match t.findUncomplete fd with
  | (some (.header header), t) =>
    let (header, r, buffer) := headerLoop header (0, .unset) buffer
    if r.1 = -1 then (.none, t.saveUncomplete fd (.header header))
    else if r.1 < 0 then (.fault, t)
    else fillPayload t fd r.1.toNat [] r.2.mask 0 buffer
  | (some (.payload size read mask hasunmask), t) =>
    fillPayload t fd size read mask hasunmask buffer
  | (none, t) =>
    let buffer := skipInvalid badSize buffer
    let r := readSize buffer
    if r.1 = -1 then (.none, t.saveUncomplete fd (.header buffer))
    else if r.1 < 0 then (.fault, t)
    else
      let packSize := r.1.toNat
      let mask := r.2.mask
      let buffer := buffer.drop r.2.packHeadLength
      if buffer.length < packSize then
        (.none, t.saveUncomplete fd (.payload packSize (decodeWsmaskData mask 0 buffer) mask
          (unmasked mask 0 buffer.length)))
      else if buffer.length = packSize then (.data (decodeWsmaskData mask 0 buffer), t)
      else
        let t := t.pushData fd (decodeWsmaskData mask 0 (buffer.take packSize))
        let buffer := buffer.drop packSize
        (.more, pushMore buffer.length t fd buffer)

/-- `push_more` with `wsocket_handeshake` set, with fuel for the depth of the recursion. -/
def pushMoreHandshake : ℕ → Tables → ℤ → List UInt8 → Option Tables
  | 0, t, _, _ => some t
  | fuel + 1, t, fd, buffer =>
    match getHttpHeader buffer with
    | .overrun => none
    | .missing => some (t.saveUncomplete fd (.header buffer))
    | .found packSize =>
      let t := t.pushData fd (buffer.take packSize)
      let buffer := buffer.drop packSize
      if buffer = [] then some t else pushMoreHandshake fuel t fd buffer

/-- The end of a call that has a first packet and may have more bytes. -/
def moreHandshake (t : Tables) (fd : ℤ) (packet buffer : List UInt8) : Result × Tables :=
  if buffer = [] then (.data packet, t)
  else
    match pushMoreHandshake buffer.length (t.pushData fd packet) fd buffer with
    | none => (.fault, t)
    | some t => (.more, t)

/-- `filter_data_` with `wsocket_handeshake` set. -/
def filterDataHandshake (t : Tables) (fd : ℤ) (buffer : List UInt8) : Result × Tables :=
  match t.findUncomplete fd with
  | (some (.header header), t) =>
    let (header, r, buffer) := headerLoopHandshake header (.found 0) buffer
    match r with
    | .overrun => (.fault, t)
    | .missing => (.none, t.saveUncomplete fd (.header header))
    | .found packSize => moreHandshake t fd (header.take packSize) buffer
  | (some (.payload size read mask hasunmask), t) =>
    let need := size - read.length
    if buffer.length < need then
      (.none, t.saveUncomplete fd (.payload size (read ++ decodeWsmaskData mask hasunmask buffer)
        mask (unmasked mask hasunmask buffer.length)))
    else
      moreHandshake t fd (read ++ decodeWsmaskData mask hasunmask (buffer.take need))
        (buffer.drop need)
  | (none, t) =>
    match getHttpHeader buffer with
    | .overrun => (.fault, t)
    | .missing => (.none, t.saveUncomplete fd (.header buffer))
    | .found packSize => moreHandshake t fd (buffer.take packSize) (buffer.drop packSize)

/-- `filter_data_`. -/
def filter (t : Tables) (fd : ℤ) (buffer : List UInt8) (handshake : Bool) : Result × Tables :=
  if handshake then filterDataHandshake t fd buffer else filterData t fd buffer

/-- `close_uncomplete`. -/
def closeUncomplete (t : Tables) (fd : ℤ) : Tables := (t.findUncomplete fd).2

/-- `lclear`: the packets it frees, and the tables it leaves. -/
def lclear (t : Tables) : List (ℤ × List UInt8) × Tables :=
  (t.queue.live, ⟨.empty, t.queue.clear⟩)

/-! ### What the tables stand for -/

/-- The tables stand for a queue: a socket has at most the frame under way that the queue has, and
the array holds the packets in order. -/
structure Stands (t : Tables) (q : Queue) : Prop where
  hash : ∀ fd, t.hash.values hashFd fd = (q.hash fd).toList
  queue : t.queue.toList = q.queue

section Stands

variable {t : Tables} {q : Queue} {fd : ℤ}

lemma stands_new : Stands new Queue.new := 
  ⟨fun _ => rfl, RingBuffer.toList_new (by decide)⟩

lemma Stands.find (h : Stands t q) (fd : ℤ) :
    (t.findUncomplete fd).1 = q.hash fd ∧ Stands (t.findUncomplete fd).2 (q.takeUncomplete fd) := by
  refine ⟨?_, fun fd' => ?_, h.queue⟩
  · rw [findUncomplete, HashChains.take_fst, h.hash]
    cases q.hash fd <;> rfl
  · by_cases hfd : fd' = fd
    · subst hfd
      rw [findUncomplete, HashChains.values_take_self, h.hash, Queue.takeUncomplete]
      simp only [Function.update_self]
      cases q.hash fd' <;> rfl
    · rw [findUncomplete, HashChains.values_take_of_ne hashFd t.hash hfd, h.hash,
        Queue.takeUncomplete]
      simp only [Function.update_of_ne hfd]

/-- A frame under way is only stored for a socket that has none. -/
lemma Stands.save (h : Stands t q) (hnone : q.hash fd = none) (uc : Uncomplete) :
    Stands (t.saveUncomplete fd uc) (q.saveUncomplete fd uc) := by
  refine ⟨fun fd' => ?_, h.queue⟩
  by_cases hfd : fd' = fd
  · subst hfd
    rw [saveUncomplete, HashChains.values_insert_self, h.hash, hnone, Queue.saveUncomplete]
    simp only [Function.update_self]
    rfl
  · rw [saveUncomplete, HashChains.values_insert_of_ne hashFd t.hash hfd, h.hash,
      Queue.saveUncomplete]
    simp only [Function.update_of_ne hfd]

lemma Stands.push (h : Stands t q) (packet : List UInt8) :
    Stands (t.pushData fd packet) (q.pushData fd packet) := by
  refine ⟨h.hash, ?_⟩
  rw [pushData, Queue.pushData, RingBuffer.toList_push, h.queue]

@[simp] lemma hash_takeUncomplete : (q.takeUncomplete fd).hash fd = none := by
  simp [Queue.takeUncomplete]

lemma takeUncomplete_of_none (hnone : q.hash fd = none) : q.takeUncomplete fd = q := by
  rw [Queue.takeUncomplete, ← hnone, Function.update_eq_self]

@[simp] lemma hash_pushData (packet : List UInt8) : (q.pushData fd packet).hash = q.hash := rfl

/-! ### The calls -/

/-- The rest of a buffer is cut in the same way.

**Proof sketch.** Induction on the fuel. A packet is pushed to both, and the socket has no frame
under way until the last bytes are stored for it. -/
lemma Stands.pushMore (fuel : ℕ) (h : Stands t q) (hnone : q.hash fd = none)
    (buffer : List UInt8) :
    Stands (t.pushMore fuel fd buffer) (Websocket.pushMore fuel q fd buffer) := by
  induction fuel generalizing t q buffer with
  | zero => exact h
  | succ fuel ih =>
    simp only [Tables.pushMore, Websocket.pushMore]
    split_ifs
    · exact h.save hnone _
    · exact h.save hnone _
    · exact h.push _
    · exact ih (h.push _) hnone _

/-- A call over the tables returns what the call over the queue returns, and leaves tables that
stand for the queue left there. -/
def Same (x : Result × Tables) (y : Result × Queue) : Prop := x.1 = y.1 ∧ Stands x.2 y.2

lemma Stands.fillPayload (h : Stands t q) (hnone : q.hash fd = none) (size : ℕ)
    (read : List UInt8) (mask : Option Mask) (hasunmask : ℕ) (buffer : List UInt8) :
    Same (t.fillPayload fd size read mask hasunmask buffer)
      (Websocket.fillPayload q fd size read mask hasunmask buffer) := by
  simp only [Tables.fillPayload, Websocket.fillPayload]
  split_ifs
  · exact ⟨rfl, h.save hnone _⟩
  · exact ⟨rfl, h⟩
  · exact ⟨rfl, (h.push _).pushMore _ hnone _⟩

/-- **`filter_data_` over the tables** returns what it returns over the queue.

**Proof sketch.** What `find_uncomplete` finds is the frame under way, and it leaves none for the
socket. From there on every branch pushes packets and at the end stores at most one frame. -/
lemma filterData_stands (h : Stands t q) (fd : ℤ) (buffer : List UInt8) :
    Same (t.filterData fd buffer) (Websocket.filterData q fd buffer) := by
  obtain ⟨hfound, hleft⟩ := h.find fd
  rw [filterData, Websocket.filterData, ← hfound]
  cases hfind : t.findUncomplete fd with
  | mk found t' =>
    rw [hfind] at hfound hleft
    have hnone : (q.takeUncomplete fd).hash fd = none := hash_takeUncomplete
    cases found with
    | none =>
      rw [takeUncomplete_of_none hfound.symm] at hleft hnone
      simp only
      split_ifs
      · exact ⟨rfl, hleft.save hnone _⟩
      · exact ⟨rfl, hleft⟩
      · exact ⟨rfl, hleft.save hnone _⟩
      · exact ⟨rfl, hleft⟩
      · exact ⟨rfl, (hleft.push _).pushMore _ hnone _⟩
    | some uc =>
      cases uc with
      | header header =>
        simp only
        split_ifs
        · exact ⟨rfl, hleft.save hnone _⟩
        · exact ⟨rfl, hleft⟩
        · exact hleft.fillPayload hnone _ _ _ _ _
      | payload size read mask hasunmask => exact hleft.fillPayload hnone _ _ _ _ _

/-- In the handshake the rest of a buffer is cut in the same way. -/
lemma Stands.pushMoreHandshake (fuel : ℕ) (h : Stands t q) (hnone : q.hash fd = none)
    (buffer : List UInt8) :
    Option.Rel Stands (t.pushMoreHandshake fuel fd buffer)
      (Websocket.pushMoreHandshake fuel q fd buffer) := by
  induction fuel generalizing t q buffer with
  | zero => exact .some h
  | succ fuel ih =>
    simp only [Tables.pushMoreHandshake, Websocket.pushMoreHandshake]
    cases getHttpHeader buffer with
    | overrun => exact .none
    | missing => exact .some (h.save hnone _)
    | found packSize =>
      simp only
      split_ifs
      · exact .some (h.push _)
      · exact ih (h.push _) hnone _

lemma Stands.moreHandshake (h : Stands t q) (hnone : q.hash fd = none)
    (packet buffer : List UInt8) :
    Same (t.moreHandshake fd packet buffer) (Websocket.moreHandshake q fd packet buffer) := by
  rw [Tables.moreHandshake, Websocket.moreHandshake]
  split_ifs
  · exact ⟨rfl, h⟩
  · have hpush : Stands (t.pushData fd packet) (q.pushData fd packet) := h.push packet
    have hrel := hpush.pushMoreHandshake buffer.length hnone buffer
    revert hrel
    cases Tables.pushMoreHandshake buffer.length (t.pushData fd packet) fd buffer with
    | none =>
      cases Websocket.pushMoreHandshake buffer.length (q.pushData fd packet) fd buffer with
      | none => exact fun _ => ⟨rfl, h⟩
      | some q' => exact fun hrel => nomatch hrel
    | some t' =>
      cases Websocket.pushMoreHandshake buffer.length (q.pushData fd packet) fd buffer with
      | none => exact fun hrel => nomatch hrel
      | some q' =>
        rintro (hstands | -)
        exact ⟨rfl, hstands⟩

/-- **`filter_data_` over the tables, in the handshake.** -/
lemma filterDataHandshake_stands (h : Stands t q) (fd : ℤ) (buffer : List UInt8) :
    Same (t.filterDataHandshake fd buffer) (Websocket.filterDataHandshake q fd buffer) := by
  obtain ⟨hfound, hleft⟩ := h.find fd
  rw [filterDataHandshake, Websocket.filterDataHandshake, ← hfound]
  cases hfind : t.findUncomplete fd with
  | mk found t' =>
    rw [hfind] at hfound hleft
    have hnone : (q.takeUncomplete fd).hash fd = none := hash_takeUncomplete
    cases found with
    | none =>
      rw [takeUncomplete_of_none hfound.symm] at hleft hnone
      simp only
      cases getHttpHeader buffer with
      | overrun => exact ⟨rfl, hleft⟩
      | missing => exact ⟨rfl, hleft.save hnone _⟩
      | found packSize => exact hleft.moreHandshake hnone _ _
    | some uc =>
      cases uc with
      | header header =>
        simp only
        cases (headerLoopHandshake header (.found 0) buffer).2.1 with
        | overrun => exact ⟨rfl, hleft⟩
        | missing => exact ⟨rfl, hleft.save hnone _⟩
        | found packSize => exact hleft.moreHandshake hnone _ _
      | payload size read mask hasunmask =>
        simp only
        split_ifs
        · exact ⟨rfl, hleft.save hnone _⟩
        · exact hleft.moreHandshake hnone _ _

lemma filter_stands (h : Stands t q) (fd : ℤ) (buffer : List UInt8) (handshake : Bool) :
    Same (t.filter fd buffer handshake) (Websocket.filter q fd buffer handshake) := by
  rw [filter, Websocket.filter]
  split_ifs
  · exact filterDataHandshake_stands h fd buffer
  · exact filterData_stands h fd buffer

end Stands

end Tables

/-! ### Sequences of calls -/

/-- What Lua calls: `filter` with an event of a socket, `pop`, and `clear` at the end. -/
inductive Call
  | filter (event : Event)
  | pop
  | clear

/-- What a call returns; the packets that `clear` frees count as returned. -/
inductive Answer
  | result (r : Result)
  | packet (p : Option (ℤ × List UInt8))
  | closed
  | freed (packets : List (ℤ × List UInt8))

/-- After a fault the call has read or written outside its buffers. -/
def Answer.isFault : Answer → Bool
  | .result .fault => true
  | _ => false

/-- A call over the tables. -/
def Tables.call (t : Tables) : Call → Answer × Tables
  | .filter (.data fd buffer handshake) =>
    (.result (t.filter fd buffer handshake).1, (t.filter fd buffer handshake).2)
  | .filter (.close fd) => (.closed, t.closeUncomplete fd)
  | .pop => (.packet t.lpop.1, t.lpop.2)
  | .clear => (.freed t.lclear.1, t.lclear.2)

/-- The same call over a function of the socket and a list of packets. -/
def Queue.call (q : Queue) : Call → Answer × Queue
  | .filter (.data fd buffer handshake) =>
    (.result (filter q fd buffer handshake).1, (filter q fd buffer handshake).2)
  | .filter (.close fd) => (.closed, q.takeUncomplete fd)
  | .pop => (.packet q.queue.head?, { q with queue := q.queue.tail })
  | .clear => (.freed q.queue, .new)

namespace Tables

section Stands

variable {t : Tables} {q : Queue}

lemma Stands.lpop (h : Stands t q) :
    t.lpop.1 = q.queue.head? ∧ Stands t.lpop.2 { q with queue := q.queue.tail } := by
  rw [Tables.lpop]
  cases hpop : t.queue.pop with
  | none =>
    have hnil : q.queue = [] := by
      rw [← h.queue]
      exact t.queue.pop_eq_none_iff.mp hpop
    rw [hnil]
    exact ⟨rfl, h.hash, h.queue.trans hnil⟩
  | some r =>
    obtain ⟨packet, queue⟩ := r
    have hlist : q.queue = packet :: queue.toList := by
      rw [← h.queue]
      exact RingBuffer.toList_of_pop hpop
    rw [hlist]
    exact ⟨rfl, h.hash, rfl⟩

lemma Stands.lclear (h : Stands t q) : t.lclear.1 = q.queue ∧ Stands t.lclear.2 .new :=
  ⟨t.queue.live_eq.trans h.queue, fun _ => rfl, t.queue.toList_clear⟩

lemma call_stands (h : Stands t q) (c : Call) :
    (t.call c).1 = (q.call c).1 ∧ Stands (t.call c).2 (q.call c).2 := by
  cases c with
  | filter event =>
    cases event with
    | data fd buffer handshake =>
      obtain ⟨hresult, hstands⟩ := filter_stands h fd buffer handshake
      exact ⟨congrArg Answer.result hresult, hstands⟩
    | close fd => exact ⟨rfl, (h.find fd).2⟩
  | pop => exact ⟨congrArg Answer.packet h.lpop.1, h.lpop.2⟩
  | clear => exact ⟨congrArg Answer.freed h.lclear.1, h.lclear.2⟩

end Stands

/-- **The tables are the queue**: in every sequence of calls, of any sockets whether their hashes
collide or not, and however often the array is full, the calls over the chains and the array return
what they return over a function of the socket and a list.

**Proof sketch.** A call keeps the relation `Stands` and returns the same (`call_stands`). A chain
is searched for the socket itself, so that sockets of one hash do not meet; the array is read from
the head on, and a larger one begins with its packets in order. -/
theorem run_eq (calls : List Call) :
    Runs.outputs Tables.call Answer.isFault Tables.new calls =
      Runs.outputs Queue.call Answer.isFault Queue.new calls :=
  Runs.outputs_eq (R := Stands) (fun _ _ c h => call_stands h c) _ calls stands_new

end Tables

end Websocket
