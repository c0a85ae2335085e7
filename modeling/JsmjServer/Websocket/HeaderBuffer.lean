import JsmjServer.Websocket.PackSize

set_option relaxedAutoImplicit false
set_option autoImplicit false

/-!
# The buffer for incomplete headers

`struct uncomplete` has 1024 bytes for a header that is not complete. Three places of
`lua-websocketnetpack.c` write to them, none of which looks at the room that is left: a chunk, or
what remains of it after complete packets, is copied when no header ends in it, and the bytes of the
next chunks are appended one at a time. Incomplete headers of frames are short; but the end of a
request may be missing for long, and a frame whose length is negative as an `int` passes for
incomplete however many bytes follow.

## Main definitions

* `Websocket.Event.writes` — the indices at which an event writes to the buffer.
* `Websocket.Event.searches` — the searches for the end of a request.
* `Websocket.CallSafe` — an event that stays within the buffer.
* `Websocket.Event.HasRoom` — the condition on its bytes.

## Main results

* `Websocket.length_of_incomplete` — an incomplete header of a frame has at most 13 bytes.
* `Websocket.writes_iff` — one event.
* `Websocket.header_buffer_iff` — whole runs.
-/

namespace Websocket

/-- `HEADERSIZE`. -/
def headerSize : ℕ := 1024

/-! ### The writes -/

/-- The indices that `memmove` writes in the loop that drops two bytes of the buffer. -/
def memmoveWrites : List UInt8 → List ℕ
  | b0 :: b1 :: rest =>
    if badSize (readSize (b0 :: b1 :: rest)).1 then List.range rest.length ++ memmoveWrites rest
    else []
  | _ => []

/-- The indices written by the loop that appends bytes to a header under way. -/
def headerLoopWrites (header : List UInt8) : List UInt8 → List ℕ
  | [] => []
  | b :: rest =>
    header.length :: (memmoveWrites (header ++ [b]) ++
      let header := skipInvalid badSize (header ++ [b])
      if (readSize header).1 ≥ 0 ∨ rest = [] then [] else headerLoopWrites header rest)

/-- The indices written by `push_more`: those of the bytes that it copies in the end. -/
def pushMoreWrites : ℕ → List UInt8 → List ℕ
  | 0, _ => []
  | fuel + 1, buffer =>
    let buffer := skipInvalid badSizeMore buffer
    let r := readSize buffer
    if r.1 = -1 then List.range buffer.length
    else
      let buffer := buffer.drop r.2.packHeadLength
      if buffer.length < r.1.toNat then []
      else
        let buffer := buffer.drop r.1.toNat
        if buffer = [] then [] else pushMoreWrites fuel buffer

/-- The indices written after a payload of which `need` bytes are missing. -/
def fillPayloadWrites (need : ℕ) (buffer : List UInt8) : List ℕ :=
  if buffer.length < need then []
  else
    let buffer := buffer.drop need
    if buffer = [] then [] else pushMoreWrites buffer.length buffer

/-- The indices written by `filter_data_` after the handshake. -/
def filterDataWrites (q : Queue) (fd : ℤ) (buffer : List UInt8) : List ℕ :=
  match q.hash fd with
  | some (.header header) =>
    headerLoopWrites header buffer ++
      let (_, r, buffer) := headerLoop header (0, .unset) buffer
      if r.1 < 0 then [] else fillPayloadWrites r.1.toNat buffer
  | some (.payload size read _ _) => fillPayloadWrites (size - read.length) buffer
  | none =>
    let buffer := skipInvalid badSize buffer
    let r := readSize buffer
    if r.1 = -1 then List.range buffer.length
    else if r.1 < 0 then []
    else fillPayloadWrites r.1.toNat (buffer.drop r.2.packHeadLength)

/-- The indices written in the handshake by the loop that appends bytes. -/
def headerLoopHandshakeWrites (header : List UInt8) : List UInt8 → List ℕ
  | [] => []
  | b :: rest =>
    header.length ::
      if getHttpHeader (header ++ [b]) ≠ .missing ∨ rest = [] then []
      else headerLoopHandshakeWrites (header ++ [b]) rest

/-- The indices written by `push_more` in the handshake. -/
def pushMoreHandshakeWrites : ℕ → List UInt8 → List ℕ
  | 0, _ => []
  | fuel + 1, buffer =>
    match getHttpHeader buffer with
    | .overrun => []
    | .missing => List.range buffer.length
    | .found packSize =>
      let buffer := buffer.drop packSize
      if buffer = [] then [] else pushMoreHandshakeWrites fuel buffer

/-- The indices written after a first packet in the handshake. -/
def moreHandshakeWrites (buffer : List UInt8) : List ℕ :=
  if buffer = [] then [] else pushMoreHandshakeWrites buffer.length buffer

/-- The indices written by `filter_data_` in the handshake. -/
def filterDataHandshakeWrites (q : Queue) (fd : ℤ) (buffer : List UInt8) : List ℕ :=
  match q.hash fd with
  | some (.header header) =>
    headerLoopHandshakeWrites header buffer ++
      match headerLoopHandshake header (.found 0) buffer with
      | (_, .found _, buffer) => moreHandshakeWrites buffer
      | _ => []
  | some (.payload size read _ _) =>
    let need := size - read.length
    if buffer.length < need then [] else moreHandshakeWrites (buffer.drop need)
  | none =>
    match getHttpHeader buffer with
    | .overrun => []
    | .missing => List.range buffer.length
    | .found packSize => moreHandshakeWrites (buffer.drop packSize)

/-- The indices at which an event writes to the buffer of a header. -/
def Event.writes (q : Queue) : Event → List ℕ
  | .data fd buffer true => filterDataHandshakeWrites q fd buffer
  | .data fd buffer false => filterDataWrites q fd buffer
  | .close _ => []

/-- The headers under way fit in their buffers. -/
def Queue.Stored (q : Queue) : Prop :=
  ∀ fd header, q.hash fd = some (.header header) → header.length ≤ headerSize

/-- An event that writes within the buffer, and leaves headers that fit. -/
structure CallSafe (q : Queue) (e : Event) : Prop where
  writes : ∀ i ∈ e.writes q, i < headerSize
  stored : ∀ q', next q e = some q' → q'.Stored

/-! ### The condition -/

/-- The searches for the end of a request in `push_more`. -/
def pushMoreSearches : ℕ → List UInt8 → List HeaderRead
  | 0, _ => []
  | fuel + 1, buffer =>
    ⟨.more, buffer⟩ ::
      match getHttpHeader buffer with
      | .found packSize =>
        let buffer := buffer.drop packSize
        if buffer = [] then [] else pushMoreSearches fuel buffer
      | _ => []

/-- The searches in the bytes after a first packet. -/
def moreSearches (buffer : List UInt8) : List HeaderRead :=
  if buffer = [] then [] else pushMoreSearches buffer.length buffer

/-- The searches in a header that grows byte by byte. -/
def headerLoopSearches (header : List UInt8) : List UInt8 → List HeaderRead
  | [] => []
  | b :: rest =>
    ⟨.resumed rest.isEmpty, header ++ [b]⟩ ::
      if getHttpHeader (header ++ [b]) ≠ .missing ∨ rest = [] then []
      else headerLoopSearches (header ++ [b]) rest

/-- The searches of `filter_data_` for the end of a request, in the handshake. -/
def filterDataSearches (q : Queue) (fd : ℤ) (buffer : List UInt8) : List HeaderRead :=
  match q.hash fd with
  | some (.header header) =>
    headerLoopSearches header buffer ++
      match headerLoopHandshake header (.found 0) buffer with
      | (_, .found _, buffer) => moreSearches buffer
      | _ => []
  | some (.payload size read _ _) =>
    let need := size - read.length
    if buffer.length < need then [] else moreSearches (buffer.drop need)
  | none =>
    ⟨.first, buffer⟩ ::
      match getHttpHeader buffer with
      | .found packSize => moreSearches (buffer.drop packSize)
      | _ => []

/-- The searches at an event. -/
def Event.searches (q : Queue) : Event → List HeaderRead
  | .data fd buffer true => filterDataSearches q fd buffer
  | _ => []

namespace HeaderRead

variable (h : HeaderRead)

/-- There is room for the bytes, and for one more if one is to be appended. -/
def Room : Prop :=
  match h.place with
  | .resumed last => last = false → h.buffer.length < headerSize
  | _ => h.buffer.length ≤ headerSize

/-- A frame whose length has the low 32 bits of `-1`, so that it passes for incomplete, or, where
its header has grown byte by byte, of a number below `-2`, has not too many bytes. -/
def Short : Prop :=
  ∀ n, announced h.buffer = some n →
    (toInt n = -1 ∨ (∃ last, h.place = .resumed last) ∧ toInt n < -2) → h.Room

/-- The end of a request is found, or there are not too many bytes. -/
def Ended : Prop := getHttpHeader h.buffer = .missing → h.Room

end HeaderRead

/-- A header under way that grows has fewer than 1024 bytes, no request goes on for more than these,
and neither does a frame with a negative length. -/
structure Event.HasRoom (q : Queue) (e : Event) : Prop where
  grows : ∀ fd buffer handshake header, e = .data fd buffer handshake →
    q.hash fd = some (.header header) → buffer ≠ [] → header.length < headerSize
  searches : ∀ h ∈ e.searches q, h.Ended
  headers : ∀ h ∈ e.headers q, h.Short

/-! ### After the handshake -/

section Frames

variable {place : Place} {buffer : List UInt8}

/-- **An incomplete header** is short: it has not all the bytes of the longest one, of 14 bytes. -/
lemma length_of_incomplete (h : (readSize buffer).1 = -1) (hn : announced buffer = none) :
    buffer.length ≤ 13 := by
  match buffer with
  | [] => simp
  | [_] => simp
  | b0 :: b1 :: rest =>
    unfold announced at hn
    unfold readSize at h
    simp only [ne_comm (a := (0 : UInt8))] at h
    dsimp only at h hn
    rw [List.length_cons, List.length_cons]
    split_ifs at h hn <;> omega

/-- A header that is taken as it is is short, when its size tells nothing. -/
lemma short_iff (place : Place) (buffer : List UInt8) (hp : ∀ last, place ≠ .resumed last) :
    (HeaderRead.mk place buffer).Short ↔
      ((readSize buffer).1 = -1 → buffer.length ≤ headerSize) := by
  have hroom : (HeaderRead.mk place buffer).Room ↔ buffer.length ≤ headerSize := by
    cases place with
    | first => rfl
    | more => rfl
    | resumed last => exact absurd rfl (hp last)
  unfold HeaderRead.Short
  rw [hroom]
  rcases readSize_announced buffer with ⟨n, hn, hsize⟩ | ⟨hn, -⟩
  · simp [hn, hsize, hp]
  · simp only [hn, reduceCtorEq, false_imp_iff, implies_true, true_iff]
    intro hone
    have := length_of_incomplete hone hn
    unfold headerSize
    omega

/-- So is one that grows. -/
lemma short_resumed_iff {last : Bool} :
    (HeaderRead.mk (.resumed last) buffer).Short ↔
      ((readSize buffer).1 = -1 ∨ (readSize buffer).1 < -2 → last = false →
        buffer.length < headerSize) := by
  unfold HeaderRead.Short
  rcases readSize_announced buffer with ⟨n, hn, hsize⟩ | ⟨hn, hcode⟩
  · simp [hn, hsize, HeaderRead.Room]
  · simp only [hn, reduceCtorEq, false_imp_iff, implies_true, true_iff]
    rintro (hone | hneg) -
    · have := length_of_incomplete hone hn
      unfold headerSize
      omega
    · omega

/-- Of the headers that a loop reads only the last may be too long: the others are rejected. -/
lemma short_skipReads (place : Place) (buffer : List UInt8) :
    (∀ h ∈ skipReads place buffer, h.Short) ↔
      (HeaderRead.mk place (skipInvalid place.bad buffer)).Short := by
  fun_induction skipReads place buffer with
  | case1 b0 b1 rest ih =>
    rw [skipInvalid]
    by_cases hbad : place.bad (readSize (b0 :: b1 :: rest)).1 = true
    · have hhead : (HeaderRead.mk place (b0 :: b1 :: rest)).Short := by
        rintro n hn hneg
        rcases readSize_announced (b0 :: b1 :: rest) with ⟨m, hm, hsize⟩ | ⟨hm, -⟩
        · obtain rfl : n = m := Option.some.inj (hn.symm.trans hm)
          rw [hsize, bad_iff] at hbad
          dsimp only at hneg
          unfold maxPacksize at hbad
          rcases hneg with hone | ⟨⟨last, rfl⟩, hlt⟩
          · omega
          · simp only [reduceCtorEq, false_and, or_false] at hbad
            omega
        · rw [hn] at hm
          cases hm
      simp only [hbad, if_true, List.forall_mem_cons, hhead, true_and]
      exact ih
    · simp [hbad]
  | case2 buffer hshort =>
    simp [(skipInvalid_of_short place hshort).2]

/-- `push_more` copies the bytes in which no header ends. -/
lemma pushMore_iff (fuel : ℕ) (buffer : List UInt8) :
    (∀ i ∈ pushMoreWrites fuel buffer, i < headerSize) ↔
      ∀ h ∈ pushMoreReads fuel buffer, h.Short := by
  induction fuel generalizing buffer with
  | zero => simp [pushMoreWrites, pushMoreReads]
  | succ fuel ih =>
    have hskip := short_skipReads .more buffer
    rw [short_iff .more _ fun last => by simp] at hskip
    simp only [pushMoreWrites, pushMoreReads, List.forall_mem_append, hskip, Place.bad]
    set b := skipInvalid badSizeMore buffer
    by_cases hone : (readSize b).1 = -1
    · simp only [hone, if_true, true_imp_iff, List.not_mem_nil, false_imp_iff, implies_true,
        and_true, List.mem_range]
      exact forall_lt_iff_le
    · simp only [hone, if_false, false_imp_iff, true_and]
      split_ifs
      · simp
      · simp
      · exact ih _

lemma fillPayload_iff (need : ℕ) (buffer : List UInt8) :
    (∀ i ∈ fillPayloadWrites need buffer, i < headerSize) ↔
      ∀ h ∈ fillPayloadReads need buffer, h.Short := by
  unfold fillPayloadWrites fillPayloadReads
  dsimp only
  split_ifs
  · simp
  · simp
  · exact pushMore_iff _ _

/-- The bytes that are moved end before the last. -/
lemma lt_of_mem_memmoveWrites {i : ℕ} (h : i ∈ memmoveWrites buffer) : i + 2 < buffer.length := by
  fun_induction memmoveWrites buffer with
  | case1 b0 b1 rest hbad ih =>
    rw [List.length_cons, List.length_cons]
    rcases List.mem_append.mp h with h | h
    · have := List.mem_range.mp h
      omega
    · have := ih h
      omega
  | case2 b0 b1 rest hbad => cases h
  | case3 buffer hshort => cases h

/-- The loop that appends bytes has room for each as long as the header is decided in time. -/
lemma headerLoop_iff (header buffer : List UInt8) :
    (∀ i ∈ headerLoopWrites header buffer, i < headerSize) ↔
      (buffer ≠ [] → header.length < headerSize) ∧
        ∀ h ∈ headerLoopReads header buffer, h.Short := by
  induction buffer generalizing header with
  | nil => simp [headerLoopWrites, headerLoopReads]
  | cons b rest ih =>
    have hskip := short_skipReads (.resumed rest.isEmpty) (header ++ [b])
    rw [short_resumed_iff] at hskip
    simp only [headerLoopWrites, headerLoopReads, List.forall_mem_cons, List.forall_mem_append,
      hskip, Place.bad, ne_eq, reduceCtorEq, not_false_eq_true, true_imp_iff]
    refine and_congr_right fun hlt => ?_
    have hmove : ∀ i ∈ memmoveWrites (header ++ [b]), i < headerSize := by
      intro i hi
      have := lt_of_mem_memmoveWrites hi
      rw [List.length_append, List.length_singleton] at this
      omega
    rw [and_iff_right hmove]
    have hnot := (mem_skipReads (.resumed rest.isEmpty) (header ++ [b])).2
    simp only [Place.bad] at hnot
    set h' := skipInvalid badSize (header ++ [b])
    split_ifs with hend
    · simp only [List.not_mem_nil, false_imp_iff, implies_true, and_true, true_iff]
      intro hneg hmore
      rcases hend with hpos | rfl
      · omega
      · cases hmore
    · rw [ih]
      refine and_congr_left fun _ => ?_
      obtain ⟨hneg, hrest⟩ := not_or.mp hend
      have hcode : (readSize h').1 = -1 ∨ (readSize h').1 < -2 := by
        simp only [badSize, Bool.or_eq_false_iff, decide_eq_false_iff_not] at hnot
        omega
      simp [hcode, hrest]

/-- **After the handshake**: the writes of a call stay within the buffer just when there is room. -/
lemma filterData_iff (q : Queue) (fd : ℤ) (buffer : List UInt8) :
    (∀ i ∈ filterDataWrites q fd buffer, i < headerSize) ↔
      (∀ header, q.hash fd = some (.header header) → buffer ≠ [] → header.length < headerSize) ∧
        ∀ h ∈ headersRead q fd buffer, h.Short := by
  unfold filterDataWrites headersRead
  cases hfd : q.hash fd with
  | none =>
    have hskip := short_skipReads .first buffer
    rw [short_iff .first _ nofun] at hskip
    simp only [List.forall_mem_append, hskip, Place.bad, reduceCtorEq, false_imp_iff, implies_true,
      true_and]
    set b := skipInvalid badSize buffer
    split_ifs with hone hneg hneg
    · simp only [hone, true_imp_iff, List.not_mem_nil, false_imp_iff, implies_true, and_true,
        List.mem_range]
      exact forall_lt_iff_le
    · omega
    · simp [hone]
    · simp only [hone, false_imp_iff, true_and]
      exact fillPayload_iff _ _
  | some uc =>
    cases uc with
    | header header =>
      simp only [List.forall_mem_append, headerLoop_iff, Option.some.injEq,
        Uncomplete.header.injEq, forall_eq', and_assoc]
      refine and_congr_right fun _ => and_congr_right fun _ => ?_
      split_ifs
      · simp
      · exact fillPayload_iff _ _
    | payload size read mask hasunmask =>
      simp only [Option.some.injEq, reduceCtorEq, false_imp_iff, implies_true, true_and]
      exact fillPayload_iff _ _

end Frames

/-! ### In the handshake -/

section Handshake

variable {header buffer : List UInt8}

/-- `push_more` copies the bytes after the last request. -/
lemma pushMoreHandshake_iff (fuel : ℕ) (buffer : List UInt8) :
    (∀ i ∈ pushMoreHandshakeWrites fuel buffer, i < headerSize) ↔
      ∀ h ∈ pushMoreSearches fuel buffer, h.Ended := by
  induction fuel generalizing buffer with
  | zero => simp [pushMoreHandshakeWrites, pushMoreSearches]
  | succ fuel ih =>
    rw [pushMoreHandshakeWrites, pushMoreSearches, List.forall_mem_cons, HeaderRead.Ended]
    cases hr : getHttpHeader buffer with
    | overrun => simp
    | missing =>
      simp only [List.mem_range, true_imp_iff, List.not_mem_nil, false_imp_iff, implies_true,
        and_true]
      exact forall_lt_iff_le
    | found packSize =>
      simp only [reduceCtorEq, false_imp_iff, true_and]
      split_ifs
      · simp
      · exact ih _

lemma moreHandshake_iff (buffer : List UInt8) :
    (∀ i ∈ moreHandshakeWrites buffer, i < headerSize) ↔
      ∀ h ∈ moreSearches buffer, h.Ended := by
  unfold moreHandshakeWrites moreSearches
  split_ifs
  · simp
  · exact pushMoreHandshake_iff _ _

lemma headerLoopHandshake_iff (header buffer : List UInt8) :
    (∀ i ∈ headerLoopHandshakeWrites header buffer, i < headerSize) ↔
      (buffer ≠ [] → header.length < headerSize) ∧
        ∀ h ∈ headerLoopSearches header buffer, h.Ended := by
  induction buffer generalizing header with
  | nil => simp [headerLoopHandshakeWrites, headerLoopSearches]
  | cons b rest ih =>
    simp only [headerLoopHandshakeWrites, headerLoopSearches, List.forall_mem_cons, ne_eq,
      reduceCtorEq, not_false_eq_true, true_imp_iff]
    refine and_congr_right fun _ => ?_
    rw [HeaderRead.Ended, HeaderRead.Room]
    split_ifs with hend
    · simp only [List.not_mem_nil, false_imp_iff, implies_true, and_true, true_iff]
      intro hmissing hmore
      rcases hend with hfound | rfl
      · exact absurd hmissing hfound
      · cases hmore
    · rw [ih]
      obtain ⟨hmissing, hrest⟩ := not_or.mp hend
      simp [not_not.mp hmissing, hrest]

/-- **In the handshake**: the writes of a call stay within the buffer just when there is room. -/
lemma filterDataHandshake_iff (q : Queue) (fd : ℤ) (buffer : List UInt8) :
    (∀ i ∈ filterDataHandshakeWrites q fd buffer, i < headerSize) ↔
      (∀ header, q.hash fd = some (.header header) → buffer ≠ [] → header.length < headerSize) ∧
        ∀ h ∈ filterDataSearches q fd buffer, h.Ended := by
  unfold filterDataHandshakeWrites filterDataSearches
  cases hfd : q.hash fd with
  | none =>
    simp only [reduceCtorEq, false_imp_iff, implies_true, true_and, List.forall_mem_cons,
      HeaderRead.Ended]
    cases hr : getHttpHeader buffer with
    | overrun => simp
    | missing =>
      simp only [List.mem_range, true_imp_iff, List.not_mem_nil, false_imp_iff, implies_true,
        and_true]
      exact forall_lt_iff_le
    | found packSize =>
      simp only [reduceCtorEq, false_imp_iff, true_and]
      exact moreHandshake_iff _
  | some uc =>
    cases uc with
    | header header =>
      simp only [List.forall_mem_append, headerLoopHandshake_iff, Option.some.injEq,
        Uncomplete.header.injEq, forall_eq', and_assoc]
      refine and_congr_right fun _ => and_congr_right fun _ => ?_
      split
      · exact moreHandshake_iff _
      · simp
    | payload size read mask hasunmask =>
      simp only [Option.some.injEq, reduceCtorEq, false_imp_iff, implies_true, true_and]
      split_ifs
      · simp
      · exact moreHandshake_iff _

end Handshake

/-- **One event** writes within the buffer exactly when there is room for its bytes. -/
lemma writes_iff (q : Queue) (e : Event) : (∀ i ∈ e.writes q, i < headerSize) ↔ e.HasRoom q := by
  match e with
  | .close fd =>
    refine iff_of_true (by simp [Event.writes]) ⟨nofun, ?_, ?_⟩
    · simp [Event.searches]
    · simp [Event.headers]
  | .data fd buffer true =>
    rw [Event.writes, filterDataHandshake_iff]
    constructor
    · rintro ⟨hgrows, hsearches⟩
      refine ⟨?_, hsearches, by simp [Event.headers]⟩
      rintro _ _ _ header ⟨⟩
      exact hgrows header
    · exact fun h => ⟨fun header => h.grows fd buffer true header rfl, h.searches⟩
  | .data fd buffer false =>
    rw [Event.writes, filterData_iff]
    constructor
    · rintro ⟨hgrows, hheaders⟩
      refine ⟨?_, by simp [Event.searches], hheaders⟩
      rintro _ _ _ header ⟨⟩
      exact hgrows header
    · exact fun h => ⟨fun header => h.grows fd buffer false header rfl, h.headers⟩

/-! ### What is stored -/

section Stored

variable {q : Queue} {fd : ℤ} {header buffer : List UInt8}

lemma stored_takeUncomplete (hq : q.Stored) : (q.takeUncomplete fd).Stored := by
  intro fd' header h
  by_cases hfd : fd' = fd
  · simp [Queue.takeUncomplete, hfd] at h
  · exact hq fd' header (by simpa [Queue.takeUncomplete, hfd] using h)

lemma stored_header (hq : q.Stored) (h : header.length ≤ headerSize) :
    (q.saveUncomplete fd (.header header)).Stored := by
  intro fd' header' hs
  by_cases hfd : fd' = fd
  · subst hfd
    obtain rfl : header = header' := by simpa [Queue.saveUncomplete] using hs
    exact h
  · exact hq fd' header' (by simpa [Queue.saveUncomplete, hfd] using hs)

lemma stored_payload {size n : ℕ} {read : List UInt8} {mask : Option Mask} (hq : q.Stored) :
    (q.saveUncomplete fd (.payload size read mask n)).Stored := by
  intro fd' header' hs
  by_cases hfd : fd' = fd
  · subst hfd
    simp [Queue.saveUncomplete] at hs
  · exact hq fd' header' (by simpa [Queue.saveUncomplete, hfd] using hs)

lemma pushMore_stored (fuel : ℕ) (hq : q.Stored)
    (h : ∀ i ∈ pushMoreWrites fuel buffer, i < headerSize) :
    (pushMore fuel q fd buffer).Stored := by
  induction fuel generalizing q buffer with
  | zero => exact hq
  | succ fuel ih =>
    rw [pushMoreWrites] at h
    rw [pushMore]
    dsimp only at h ⊢
    split_ifs at h ⊢
    · exact stored_header hq (forall_lt_iff_le.mp fun i hi => h i (List.mem_range.mpr hi))
    · exact stored_payload hq
    · exact hq
    · exact ih hq h

lemma fillPayload_stored {size n : ℕ} {read : List UInt8} {mask : Option Mask} (hq : q.Stored)
    (h : ∀ i ∈ fillPayloadWrites (size - read.length) buffer, i < headerSize) :
    (fillPayload q fd size read mask n buffer).2.Stored := by
  unfold fillPayloadWrites at h
  unfold fillPayload
  dsimp only at h ⊢
  split_ifs at h ⊢
  · exact stored_payload hq
  · exact hq
  · exact pushMore_stored _ hq h

lemma length_skipInvalid_le (bad : ℤ → Bool) (buffer : List UInt8) :
    (skipInvalid bad buffer).length ≤ buffer.length := by
  fun_induction skipInvalid bad buffer with
  | case1 b0 b1 rest hbad ih =>
    simp only [List.length_cons]
    omega
  | case2 b0 b1 rest hbad => rfl
  | case3 buffer hshort => rfl

/-- A header that has grown reaches up to the last byte appended. -/
lemma length_headerLoop {r : ℤ × Header} (hle : header.length ≤ headerSize)
    (h : ∀ i ∈ headerLoopWrites header buffer, i < headerSize) :
    (headerLoop header r buffer).1.length ≤ headerSize := by
  induction buffer generalizing header r with
  | nil => exact hle
  | cons b rest ih =>
    simp only [headerLoopWrites, List.forall_mem_cons, List.forall_mem_append] at h
    obtain ⟨hlt, -, hrest⟩ := h
    have hskip := length_skipInvalid_le badSize (header ++ [b])
    rw [List.length_append, List.length_singleton] at hskip
    have hle' : (skipInvalid badSize (header ++ [b])).length ≤ headerSize := by omega
    rw [headerLoop]
    split_ifs at hrest ⊢
    · exact hle'
    · exact ih hle' hrest

lemma filterData_stored (hq : q.Stored) (h : ∀ i ∈ filterDataWrites q fd buffer, i < headerSize) :
    (filterData q fd buffer).2.Stored := by
  unfold filterDataWrites at h
  unfold filterData
  cases hfd : q.hash fd with
  | none =>
    rw [hfd] at h
    dsimp only at h ⊢
    unfold fillPayloadWrites at h
    dsimp only at h
    split_ifs at h ⊢ with hone hneg hlt hnil heq heq
    · exact stored_header hq (forall_lt_iff_le.mp fun i hi => h i (List.mem_range.mpr hi))
    · exact hq
    · exact stored_payload hq
    · exact hq
    · exact hq
    · rw [List.drop_eq_nil_iff] at heq
      omega
    · exact pushMore_stored _ hq h
  | some uc =>
    rw [hfd] at h
    cases uc with
    | header header =>
      simp only [List.forall_mem_append] at h
      have hlen := @length_headerLoop header buffer (0, .unset) (hq fd header hfd) h.1
      have hrest := h.2
      have htake : (q.takeUncomplete fd).Stored := stored_takeUncomplete hq
      dsimp only
      split_ifs with hone hneg
      · exact stored_header htake hlen
      · exact htake
      · rw [if_neg hneg] at hrest
        exact fillPayload_stored htake hrest
    | payload size read mask n => exact fillPayload_stored (stored_takeUncomplete hq) h

lemma pushMoreHandshake_stored {q' : Queue} (fuel : ℕ) (hq : q.Stored)
    (h : ∀ i ∈ pushMoreHandshakeWrites fuel buffer, i < headerSize)
    (hs : pushMoreHandshake fuel q fd buffer = some q') : q'.Stored := by
  induction fuel generalizing q buffer with
  | zero =>
    obtain rfl := Option.some.inj hs
    exact hq
  | succ fuel ih =>
    rw [pushMoreHandshakeWrites] at h
    rw [pushMoreHandshake] at hs
    cases hr : getHttpHeader buffer with
    | overrun => simp [hr] at hs
    | missing =>
      rw [hr] at h hs
      obtain rfl := Option.some.inj hs
      exact stored_header hq (forall_lt_iff_le.mp fun i hi => h i (List.mem_range.mpr hi))
    | found packSize =>
      rw [hr] at h hs
      dsimp only at h hs
      split_ifs at h hs
      · obtain rfl := Option.some.inj hs
        exact hq
      · exact @ih (q.pushData fd _) _ hq h hs

lemma moreHandshake_stored {packet : List UInt8} (hq : q.Stored)
    (h : ∀ i ∈ moreHandshakeWrites buffer, i < headerSize) :
    (moreHandshake q fd packet buffer).2.Stored := by
  unfold moreHandshakeWrites at h
  unfold moreHandshake
  split_ifs at h ⊢
  · exact hq
  · have hpush : (q.pushData fd packet).Stored := hq
    cases hs : pushMoreHandshake buffer.length (q.pushData fd packet) fd buffer with
    | none => exact hq
    | some q' => exact @pushMoreHandshake_stored _ _ _ q' _ hpush h hs

lemma length_headerLoopHandshake {r : HttpHeader} (hle : header.length ≤ headerSize)
    (h : ∀ i ∈ headerLoopHandshakeWrites header buffer, i < headerSize) :
    (headerLoopHandshake header r buffer).1.length ≤ headerSize := by
  induction buffer generalizing header r with
  | nil => exact hle
  | cons b rest ih =>
    rw [headerLoopHandshakeWrites, List.forall_mem_cons] at h
    have hle' : (header ++ [b]).length ≤ headerSize := by
      rw [List.length_append, List.length_singleton]
      exact h.1
    have hrest := h.2
    rw [headerLoopHandshake]
    split_ifs at hrest ⊢
    · exact hle'
    · exact ih hle' hrest

lemma filterDataHandshake_stored (hq : q.Stored)
    (h : ∀ i ∈ filterDataHandshakeWrites q fd buffer, i < headerSize) :
    (filterDataHandshake q fd buffer).2.Stored := by
  have htake : (q.takeUncomplete fd).Stored := stored_takeUncomplete hq
  unfold filterDataHandshakeWrites at h
  unfold filterDataHandshake
  cases hfd : q.hash fd with
  | none =>
    rw [hfd] at h
    dsimp only at h ⊢
    cases hr : getHttpHeader buffer with
    | overrun => exact hq
    | missing =>
      rw [hr] at h
      exact stored_header hq (forall_lt_iff_le.mp fun i hi => h i (List.mem_range.mpr hi))
    | found packSize =>
      rw [hr] at h
      exact moreHandshake_stored hq h
  | some uc =>
    rw [hfd] at h
    cases uc with
    | header header =>
      simp only [List.forall_mem_append] at h
      have hlen := @length_headerLoopHandshake header buffer (.found 0) (hq fd header hfd) h.1
      have hrest := h.2
      dsimp only
      revert hlen hrest
      generalize headerLoopHandshake header (.found 0) buffer = x
      obtain ⟨header', r, rest⟩ := x
      intro hlen hrest
      cases r with
      | overrun => exact htake
      | missing => exact stored_header htake hlen
      | found packSize => exact moreHandshake_stored htake hrest
    | payload size read mask n =>
      dsimp only at h ⊢
      split_ifs at h ⊢
      · exact stored_payload htake
      · exact moreHandshake_stored htake h

/-- **What an event leaves** in the buffers fits, when it has written within them. -/
lemma next_stored {q' : Queue} {e : Event} (hq : q.Stored) (h : ∀ i ∈ e.writes q, i < headerSize)
    (hs : next q e = some q') : q'.Stored := by
  cases e with
  | close fd =>
    obtain rfl := Option.some.inj hs
    exact stored_takeUncomplete hq
  | data fd buffer handshake =>
    have hcollect : ∀ x : Result × Queue, x.2.Stored → (collect fd x).2.Stored := by
      rintro ⟨r, q⟩ hx
      cases r with
      | none => exact hx
      | data packet => exact hx
      | more => exact hx
      | fault => exact hx
    have hnext : q' = (collect fd (filter q fd buffer handshake)).2 := by
      rw [next] at hs
      split at hs
      · cases hs
      · exact (Option.some.inj hs).symm
    rw [hnext]
    cases handshake with
    | true => exact hcollect _ (filterDataHandshake_stored hq h)
    | false => exact hcollect _ (filterData_stored hq h)

end Stored

/-! ### Runs -/

/-- **The buffer for incomplete headers**: in a run of the unpacker from its beginning, on any
sockets, in any chunks, in the handshake and after it, no event writes outside the buffer, and all
headers kept fit in it, exactly when every event has room.

**Proof sketch.** Event by event the writes stay within the buffer just when there is room
(`writes_iff`): a call writes behind a header that is not decided, and an undecided header of a
frame is incomplete, and short, or has a negative length. Along the run the headers kept are those
written (`next_stored`). -/
theorem header_buffer_iff (events : List Event) :
    (∀ x ∈ Runs.passes next Queue.new events, CallSafe x.1 x.2) ↔
      ∀ x ∈ Runs.passes next Queue.new events, x.2.HasRoom x.1 := by
  constructor
  · intro h x hx
    exact (writes_iff x.1 x.2).mp (h x hx).writes
  · intro h
    have hnew : Queue.new.Stored := nofun
    have hinv := Runs.invariant_of_passes (I := Queue.Stored)
      (fun q e _ hq (he : e.HasRoom q) hs => next_stored hq ((writes_iff q e).mpr he) hs) hnew h
    intro x hx
    have hwrites := (writes_iff x.1 x.2).mpr (h x hx)
    exact ⟨hwrites, fun q' hs => next_stored (hinv x hx) hwrites hs⟩

/-- There is no end of a request in zero bytes. -/
lemma getHttpHeader_replicate {n : ℕ} (hn : 3 ≤ n) :
    getHttpHeader (List.replicate n 0) = .missing := by
  have hfind : websocketStrnpos (List.replicate n 0) = none := by
    rw [websocketStrnpos, List.find?_eq_none]
    intro i _ heq
    rw [List.drop_replicate, List.take_replicate] at heq
    have hmem : (13 : UInt8) ∈ List.replicate (min 4 (n - i)) (0 : UInt8) := by
      rw [of_decide_eq_true heq]
      exact List.mem_cons_self
    exact absurd (List.eq_of_mem_replicate hmem) (by decide)
  rw [getHttpHeader, List.length_replicate, if_neg (not_lt.mpr hn), hfind]

/-- A first chunk in which no request ends is copied, however long it is. -/
lemma not_callSafe_of_missing {fd : ℤ} {buffer : List UInt8} (h : getHttpHeader buffer = .missing)
    (hlen : headerSize < buffer.length) : ¬CallSafe Queue.new (.data fd buffer true) := by
  intro hcall
  have hwrites : (Event.data fd buffer true).writes Queue.new = List.range buffer.length := by
    simp only [Event.writes, filterDataHandshakeWrites, Queue.new, h]
  have hlt := hcall.writes headerSize (by rw [hwrites]; exact List.mem_range.mpr hlen)
  exact absurd hlt (lt_irrefl _)

/-- A chunk of 1025 zero bytes in the handshake ends no request, and is written beyond the
buffer. -/
theorem long_request_overflows : ¬∀ events : List Event,
    ∀ x ∈ Runs.passes next Queue.new events, CallSafe x.1 x.2 := by
  intro h
  have hcall := h [.data 7 (List.replicate 1025 0) true] _ (Runs.mem_passes_cons _ _ _ _)
  have hlen : headerSize < (List.replicate 1025 (0 : UInt8)).length := by
    rw [List.length_replicate]
    decide
  exact not_callSafe_of_missing (getHttpHeader_replicate (by decide)) hlen hcall

end Websocket
