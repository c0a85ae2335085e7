import JsmjServer.Websocket.Handshake

set_option relaxedAutoImplicit false
set_option autoImplicit false

/-!
# The sizes of websocket packets

A header may announce a length of eight bytes, of which `read_size` returns the low 32 bits as an
`int`. The three places that call it in `lua-websocketnetpack.c` reject a size above the limit and
the code `-2`, and `push_more` also what is below. The module says which announced lengths get past
them.

## Main definitions

* `Websocket.announced` — the length that the bytes of a header denote.
* `Websocket.HeaderRead` — a call of `read_size`, and what becomes of its result.
* `Websocket.headersRead` — the headers that a call of `filter_data_` reads.
* `Websocket.CallBounded` — a call that takes and keeps only sizes within the limit.

## Main results

* `Websocket.bounded_iff_fits` — one header.
* `Websocket.filterData_small` — the sizes buffered and delivered are those of accepted headers.
* `Websocket.sizes_bounded_iff` — whole runs.
-/

namespace Websocket

/-! ### What a header announces -/

/-- The payload length of a complete header, as its bytes denote it. -/
def announced (buffer : List UInt8) : Option ℕ :=
  match buffer with
  | b0 :: b1 :: rest =>
    if (b0 >>> 6) &&& 0x1 ≠ 0 ∨ (b0 >>> 5) &&& 0x1 ≠ 0 ∨ (b0 >>> 4) &&& 0x1 ≠ 0 then none
    else if (b0 >>> 7) &&& 0x1 = 0 ∨ b0 &&& 0xf = 0 then none
    else
      let length := b1 &&& 0x7f
      let extended := if length < 0x7E then 0 else if length = 0x7E then 2 else 8
      let masking := if (b1 >>> 7) &&& 0x1 ≠ 0 then 4 else 0
      if rest.length < extended + masking then none
      else some (if length < 0x7E then length.toNat else beNat (rest.take extended))
  | _ => none

/-! ### The calls of `read_size` -/

/-- Where `read_size` is called: on a new chunk, on a header that has grown by a byte, of which
`last` says that no byte follows in the chunk, and in `push_more`. -/
inductive Place
  | first
  | resumed (last : Bool)
  | more
  deriving DecidableEq

/-- What becomes of a header. -/
inductive Verdict
  | rejected
  | undecided
  | accepted (size : ℤ)
  deriving DecidableEq

/-- The sizes that the loop around the call skips. -/
def Place.bad : Place → ℤ → Bool
  | .more => badSizeMore
  | _ => badSize

/-- What the code does with a size. A header that grows byte by byte takes in the next byte as long
as its size is negative. -/
def Place.verdict (place : Place) (size : ℤ) : Verdict :=
  if place.bad size then .rejected
  else if size = -1 then .undecided
  else if place = .resumed false ∧ size < 0 then .undecided
  else .accepted size

/-- A call of `read_size`. -/
structure HeaderRead where
  place : Place
  buffer : List UInt8
  deriving DecidableEq

namespace HeaderRead

variable (h : HeaderRead)

/-- What becomes of the header. -/
def verdict : Verdict := h.place.verdict (readSize h.buffer).1

/-- The size is accepted within the limit only, and a header that announces another is rejected. -/
structure Bounded : Prop where
  accepted : ∀ size, h.verdict = .accepted size → 0 ≤ size ∧ size ≤ maxPacksize
  rejected : ∀ n, announced h.buffer = some n → maxPacksize < n → h.verdict = .rejected

/-- The low 32 bits of the announced length, as a signed number, tell that it is too long. -/
def Fits : Prop :=
  ∀ n, announced h.buffer = some n → n ≤ maxPacksize ∨ toInt n = -2 ∨ maxPacksize < toInt n ∨
    (h.place = .more ∧ toInt n < -2)

end HeaderRead

/-- The headers read by the loop that drops two bytes at a time. -/
def skipReads (place : Place) : List UInt8 → List HeaderRead
  | b0 :: b1 :: rest =>
    ⟨place, b0 :: b1 :: rest⟩ ::
      if place.bad (readSize (b0 :: b1 :: rest)).1 then skipReads place rest else []
  | buffer => [⟨place, buffer⟩]

/-- The headers read by `push_more`. -/
def pushMoreReads : ℕ → List UInt8 → List HeaderRead
  | 0, _ => []
  | fuel + 1, buffer =>
    skipReads .more buffer ++
      let buffer := skipInvalid badSizeMore buffer
      let r := readSize buffer
      if r.1 = -1 then []
      else
        let buffer := buffer.drop r.2.packHeadLength
        if buffer.length < r.1.toNat then []
        else
          let buffer := buffer.drop r.1.toNat
          if buffer = [] then [] else pushMoreReads fuel buffer

/-- The headers read by the loop that appends bytes to a header under way. -/
def headerLoopReads (header : List UInt8) : List UInt8 → List HeaderRead
  | [] => []
  | b :: rest =>
    skipReads (.resumed rest.isEmpty) (header ++ [b]) ++
      let header := skipInvalid badSize (header ++ [b])
      if (readSize header).1 ≥ 0 ∨ rest = [] then [] else headerLoopReads header rest

/-- The headers read after a payload of which `need` bytes are missing. -/
def fillPayloadReads (need : ℕ) (buffer : List UInt8) : List HeaderRead :=
  if buffer.length < need then []
  else
    let buffer := buffer.drop need
    if buffer = [] then [] else pushMoreReads buffer.length buffer

/-- The headers read by `filter_data_` after the handshake. -/
def headersRead (q : Queue) (fd : ℤ) (buffer : List UInt8) : List HeaderRead :=
  match q.hash fd with
  | some (.header header) =>
    headerLoopReads header buffer ++
      let (_, r, buffer) := headerLoop header (0, .unset) buffer
      if r.1 < 0 then [] else fillPayloadReads r.1.toNat buffer
  | some (.payload size read _ _) => fillPayloadReads (size - read.length) buffer
  | none =>
    skipReads .first buffer ++
      let buffer := skipInvalid badSize buffer
      let r := readSize buffer
      if r.1 < 0 then [] else fillPayloadReads r.1.toNat (buffer.drop r.2.packHeadLength)

/-- The headers read at an event. There are none in the handshake. -/
def Event.headers (q : Queue) : Event → List HeaderRead
  | .data fd buffer false => headersRead q fd buffer
  | _ => []

/-- The packets that an event delivers after the handshake. -/
def Event.packets (q : Queue) : Event → List (List UInt8)
  | .data fd buffer false => (deliver q fd buffer).1.map Prod.snd
  | _ => []

/-- A header under way, or a payload within the limit. -/
def Uncomplete.Small : Uncomplete → Prop
  | .header _ => True
  | .payload size read _ _ => (size : ℤ) ≤ maxPacksize ∧ read.length ≤ size

/-- The payloads under way are within the limit. -/
def Queue.Small (q : Queue) : Prop := ∀ fd uc, q.hash fd = some uc → uc.Small

/-- Every size that a call accepts, buffers or delivers is within the limit, and every header that
announces another is rejected. -/
structure CallBounded (q : Queue) (e : Event) : Prop where
  headers : ∀ h ∈ e.headers q, h.Bounded
  packets : ∀ packet ∈ e.packets q, (packet.length : ℤ) ≤ maxPacksize
  buffers : ∀ q', next q e = some q' → q'.Small

/-! ### One header -/

section OneHeader

variable {buffer : List UInt8} {h : HeaderRead}

lemma toInt_of_lt_two_pow {n : ℕ} (hn : n < 2 ^ 31) : toInt n = n := by
  unfold toInt
  rw [Int.bmod_eq_of_le] <;> omega

lemma foldl_beNat (l : List UInt8) (acc : ℕ) :
    l.foldl (fun n b => n * 256 + b.toNat) acc < (acc + 1) * 256 ^ l.length := by
  induction l generalizing acc with
  | nil => simp
  | cons b l ih =>
    have hb := b.toNat_lt
    have hle : (acc * 256 + b.toNat + 1) * 256 ^ l.length ≤ (acc + 1) * 256 * 256 ^ l.length :=
      Nat.mul_le_mul_right _ (by omega)
    calc (b :: l).foldl (fun n b => n * 256 + b.toNat) acc
        < (acc * 256 + b.toNat + 1) * 256 ^ l.length := ih _
      _ ≤ (acc + 1) * 256 * 256 ^ l.length := hle
      _ = (acc + 1) * 256 ^ (b :: l).length := by
        rw [List.length_cons, Nat.pow_succ', Nat.mul_assoc]

lemma beNat_lt (l : List UInt8) : beNat l < 256 ^ l.length := by
  simpa [beNat] using foldl_beNat l 0

/-- A header read by `read_size` up to its extended length. -/
lemma readLength_eq (b0 b1 : UInt8) (rest : List UInt8) (length : UInt8) :
    readLength (b0 :: b1 :: rest) length =
      let extended := if length < 0x7E then 0 else if length = 0x7E then 2 else 8
      if rest.length < extended then none
      else some (toInt (if length < 0x7E then length.toNat else beNat (rest.take extended)),
        2 + extended) := by
  have hbyte := length.toNat_lt
  have htwo : beNat (rest.take 2) < 65536 := by
    have hlt := beNat_lt (rest.take 2)
    have hle : 256 ^ (rest.take 2).length ≤ 256 ^ 2 :=
      Nat.pow_le_pow_right (by omega) (List.length_take_le _ _)
    omega
  unfold readLength
  by_cases h7 : length < 0x7E
  · simp [h7, toInt_of_lt_two_pow (show length.toNat < 2 ^ 31 by omega)]
  · by_cases h16 : length = 0x7E
    · subst h16
      by_cases hl : rest.length < 2
      · simp [hl]
      · simp [hl, Nat.le_of_not_lt hl,
          toInt_of_lt_two_pow (show beNat (rest.take 2) < 2 ^ 31 by omega)]
    · by_cases hl : rest.length < 8
      · simp [h7, h16, hl]
      · simp [h7, h16, hl, Nat.le_of_not_lt hl]

/-- `read_size` returns the low 32 bits of the announced length, or one of its two codes. -/
lemma readSize_announced (buffer : List UInt8) :
    (∃ n, announced buffer = some n ∧ (readSize buffer).1 = toInt n) ∨
      announced buffer = none ∧ ((readSize buffer).1 = -1 ∨ (readSize buffer).1 = -2) := by
  match buffer with
  | [] => exact Or.inr ⟨rfl, Or.inl rfl⟩
  | [_] => exact Or.inr ⟨rfl, Or.inl rfl⟩
  | b0 :: b1 :: rest =>
    simp only [announced, readSize, ne_comm (a := (0 : UInt8))]
    by_cases hrsv : (b0 >>> 6) &&& 0x1 ≠ 0 ∨ (b0 >>> 5) &&& 0x1 ≠ 0 ∨ (b0 >>> 4) &&& 0x1 ≠ 0
    · simp [hrsv]
    · by_cases hfin : (b0 >>> 7) &&& 0x1 = 0 ∨ b0 &&& 0xf = 0
      · simp [hrsv, hfin]
      · simp only [hrsv, hfin, if_false, readLength_eq, List.length_cons]
        generalize
          (if b1 &&& 0x7f < 0x7E then 0 else if b1 &&& 0x7f = 0x7E then 2 else 8) = extended
        generalize (if b1 &&& 0x7f < 0x7E then (b1 &&& 0x7f).toNat
          else beNat (rest.take extended)) = n
        by_cases hext : rest.length < extended
        · simp [hext, Nat.lt_add_right]
        · by_cases hmask : (b1 >>> 7) &&& 0x1 ≠ 0
          · by_cases hlen : rest.length < extended + 4
            · have hover : 2 + extended + 4 > rest.length + 1 + 1 := by omega
              simp [hext, hmask, hlen, hover]
            · have hin : ¬2 + extended + 4 > rest.length + 1 + 1 := by omega
              simp [hext, hmask, hlen, hin]
          · simp [hext, hmask]

lemma bad_iff {place : Place} {size : ℤ} :
    place.bad size = true ↔
      size = -2 ∨ maxPacksize < size ∨ (place = .more ∧ size < -2) := by
  cases place with
  | more =>
    simp only [Place.bad, badSizeMore, Bool.or_eq_true, decide_eq_true_eq, true_and]
    omega
  | first => simp [Place.bad, badSize]
  | resumed last => simp [Place.bad, badSize]

lemma verdict_rejected_iff {place : Place} {size : ℤ} :
    place.verdict size = .rejected ↔ place.bad size = true := by
  unfold Place.verdict
  split_ifs with hbad <;> simp [hbad]

lemma eq_of_verdict_accepted {place : Place} {size s : ℤ} (h : place.verdict size = .accepted s) :
    s = size ∧ place.bad size = false ∧ size ≠ -1 := by
  unfold Place.verdict at h
  split_ifs at h with hbad hone hgrow
  exact ⟨(Verdict.accepted.inj h).symm, by simpa using hbad, hone⟩

/-- **One header**: it is treated as it should be exactly when the low 32 bits of the length that
it announces give it away. -/
lemma bounded_iff_fits (h : HeaderRead) : h.Bounded ↔ h.Fits := by
  rcases readSize_announced h.buffer with ⟨n, hn, hsize⟩ | ⟨hn, hcode⟩
  · -- a complete header: the size is `toInt n`
    have hrejected : h.verdict = .rejected ↔
        toInt n = -2 ∨ maxPacksize < toInt n ∨ (h.place = .more ∧ toInt n < -2) := by
      rw [HeaderRead.verdict, hsize, verdict_rejected_iff, bad_iff]
    have hsmall : (n : ℤ) ≤ maxPacksize → toInt n = n := fun hle =>
      toInt_of_le (by simpa [maxPacksize] using hle)
    constructor
    · intro hb m hm
      obtain rfl : n = m := Option.some.inj (hn.symm.trans hm)
      rcases le_or_gt (n : ℤ) maxPacksize with hle | hgt
      · exact Or.inl hle
      · exact Or.inr (hrejected.mp (hb.rejected n hn hgt))
    · intro hf
      refine ⟨fun size hs => ?_, fun m hm hgt => ?_⟩
      · rcases hf n hn with hle | hbad
        · obtain ⟨rfl, -⟩ := eq_of_verdict_accepted hs
          rw [hsize, hsmall hle]
          omega
        · rw [hrejected.mpr hbad] at hs
          cases hs
      · obtain rfl : n = m := Option.some.inj (hn.symm.trans hm)
        rcases hf n hn with hle | hbad
        · omega
        · exact hrejected.mpr hbad
  · -- no length is announced, and no size is accepted
    refine iff_of_true ⟨fun size hs => ?_, fun m hm => ?_⟩ (fun m hm => ?_)
    · obtain ⟨-, hbad, hone⟩ := eq_of_verdict_accepted hs
      rcases hcode with hcode | hcode
      · exact absurd hcode hone
      · have := bad_iff.mpr (Or.inl hcode : _ ∨ maxPacksize < _ ∨ (h.place = .more ∧ _))
        rw [hbad] at this
        cases this
    · rw [hn] at hm
      cases hm
    · rw [hn] at hm
      cases hm

end OneHeader

/-! ### From headers to sizes -/

section Sizes

variable {q : Queue} {fd : ℤ} {place : Place} {buffer : List UInt8}

/-- The payloads under way and the packets to be popped are within the limit. -/
structure Queue.Within (q : Queue) : Prop where
  small : q.Small
  packets : ∀ p ∈ q.queue, (p.2.length : ℤ) ≤ maxPacksize

lemma small_saveUncomplete {uc : Uncomplete} (hq : q.Small) (huc : uc.Small) :
    (q.saveUncomplete fd uc).Small := by
  intro fd' uc' h
  by_cases hfd : fd' = fd
  · subst hfd
    obtain rfl : uc = uc' := by simpa [Queue.saveUncomplete] using h
    exact huc
  · exact hq fd' uc' (by simpa [Queue.saveUncomplete, hfd] using h)

lemma small_takeUncomplete (hq : q.Small) : (q.takeUncomplete fd).Small := by
  intro fd' uc' h
  by_cases hfd : fd' = fd
  · simp [Queue.takeUncomplete, hfd] at h
  · exact hq fd' uc' (by simpa [Queue.takeUncomplete, hfd] using h)

lemma within_saveUncomplete {uc : Uncomplete} (hq : q.Within) (huc : uc.Small) :
    (q.saveUncomplete fd uc).Within :=
  ⟨small_saveUncomplete hq.small huc, hq.packets⟩

lemma within_pushData {packet : List UInt8} (hq : q.Within)
    (hp : (packet.length : ℤ) ≤ maxPacksize) : (q.pushData fd packet).Within := by
  refine ⟨hq.small, fun p h => ?_⟩
  rcases List.mem_append.mp h with h | h
  · exact hq.packets p h
  · rw [List.mem_singleton.mp h]
    exact hp

/-- Fewer than two bytes are kept. -/
lemma skipInvalid_of_short (place : Place)
    (hshort : ∀ b0 b1 rest, buffer = b0 :: b1 :: rest → False) :
    place.bad (readSize buffer).1 = false ∧ skipInvalid place.bad buffer = buffer := by
  have hbad : place.bad (readSize buffer).1 = false := by
    have hone : (readSize buffer).1 = -1 := by
      unfold readSize
      split
      · exact absurd rfl (hshort _ _ _)
      · rfl
    rw [hone, Bool.eq_false_iff, Ne, bad_iff]
    simp [maxPacksize]
  exact ⟨hbad, skipInvalid_of_not_bad hbad⟩

/-- The loop that drops bytes ends at a header that it has read and not rejected. -/
lemma mem_skipReads (place : Place) (buffer : List UInt8) :
    ⟨place, skipInvalid place.bad buffer⟩ ∈ skipReads place buffer ∧
      place.bad (readSize (skipInvalid place.bad buffer)).1 = false := by
  fun_induction skipReads place buffer with
  | case1 b0 b1 rest ih =>
    rw [skipInvalid]
    by_cases hbad : place.bad (readSize (b0 :: b1 :: rest)).1 = true
    · simp only [hbad, if_true]
      exact ⟨List.mem_cons_of_mem _ ih.1, ih.2⟩
    · simp only [hbad]
      exact ⟨List.mem_cons_self, by simpa using hbad⟩
  | case2 buffer hshort =>
    obtain ⟨hbad, hskip⟩ := skipInvalid_of_short place hshort
    rw [hskip]
    exact ⟨List.mem_singleton.mpr rfl, hbad⟩

/-- The size with which that loop ends is `-1` or within the limit, when the headers have their
due. -/
lemma size_of_bounded (place : Place) (h : ∀ h ∈ skipReads place buffer, h.Bounded)
    (hplace : place = .resumed false → 0 ≤ (readSize (skipInvalid place.bad buffer)).1) :
    (readSize (skipInvalid place.bad buffer)).1 = -1 ∨
      0 ≤ (readSize (skipInvalid place.bad buffer)).1 ∧
        (readSize (skipInvalid place.bad buffer)).1 ≤ maxPacksize := by
  obtain ⟨hmem, hbad⟩ := mem_skipReads place buffer
  by_cases hone : (readSize (skipInvalid place.bad buffer)).1 = -1
  · exact Or.inl hone
  · have hgrow : ¬(place = .resumed false ∧ (readSize (skipInvalid place.bad buffer)).1 < 0) :=
      fun hg => absurd (hplace hg.1) (not_le.mpr hg.2)
    refine Or.inr ((h _ hmem).accepted _ ?_)
    simp [HeaderRead.verdict, Place.verdict, hbad, hone, hgrow]

lemma length_payload {size : ℕ} {mask : Option Mask} {n : ℕ} (h : size ≤ buffer.length) :
    (decodeWsmaskData mask n (buffer.take size)).length = size := by
  rw [length_decodeWsmaskData, List.length_take, min_eq_left h]

/-- `push_more` keeps and queues only sizes within the limit. -/
lemma pushMore_within (fuel : ℕ) (hq : q.Within) (h : ∀ h ∈ pushMoreReads fuel buffer, h.Bounded) :
    (pushMore fuel q fd buffer).Within := by
  induction fuel generalizing q buffer with
  | zero => exact hq
  | succ fuel ih =>
    rw [pushMoreReads] at h
    have hsize := size_of_bounded .more
      (fun x hx => h x (List.mem_append_left _ hx)) nofun
    have hrest := fun x hx => h x (List.mem_append_right _ hx)
    rw [pushMore]
    dsimp only [Place.bad] at hsize hrest ⊢
    set b := skipInvalid badSizeMore buffer
    split_ifs at hrest ⊢ with hone hlt hnil
    · exact within_saveUncomplete hq trivial
    · refine within_saveUncomplete hq ⟨?_, ?_⟩
      · omega
      · rw [length_decodeWsmaskData]
        exact hlt.le
    · refine within_pushData hq ?_
      rw [length_payload (not_lt.mp hlt)]
      omega
    · refine ih (within_pushData hq ?_) hrest
      rw [length_payload (not_lt.mp hlt)]
      omega

/-- So does the completion of a payload. -/
lemma fillPayload_within {size : ℕ} {read : List UInt8} {mask : Option Mask} {n : ℕ} (hq : q.Within)
    (hsize : (size : ℤ) ≤ maxPacksize) (hread : read.length ≤ size)
    (h : ∀ h ∈ fillPayloadReads (size - read.length) buffer, h.Bounded) :
    (fillPayload q fd size read mask n buffer).2.Within ∧
      ∀ packet, (fillPayload q fd size read mask n buffer).1 = .data packet →
        (packet.length : ℤ) ≤ maxPacksize := by
  have hlen : ∀ {need}, need = size - read.length → ¬buffer.length < need →
      ((read ++ decodeWsmaskData mask n (buffer.take need)).length : ℤ) ≤ maxPacksize := by
    rintro _ rfl hlt
    rw [List.length_append, length_payload (not_lt.mp hlt)]
    omega
  unfold fillPayload
  unfold fillPayloadReads at h
  dsimp only at h ⊢
  split_ifs at h ⊢ with hlt hnil
  · refine ⟨within_saveUncomplete hq ⟨hsize, ?_⟩, nofun⟩
    rw [List.length_append, length_decodeWsmaskData]
    omega
  · refine ⟨hq, fun packet hp => ?_⟩
    obtain rfl := Result.data.inj hp
    exact hlen rfl hlt
  · exact ⟨pushMore_within _ (within_pushData hq (hlen rfl hlt)) h, nofun⟩

/-- The loop that appends bytes to a header ends with `-1` or a size within the limit. -/
lemma headerLoop_bounded {header : List UInt8} {r : ℤ × Header}
    (hr : buffer = [] → 0 ≤ r.1 ∧ r.1 ≤ maxPacksize)
    (h : ∀ h ∈ headerLoopReads header buffer, h.Bounded) :
    (headerLoop header r buffer).2.1.1 = -1 ∨
      0 ≤ (headerLoop header r buffer).2.1.1 ∧
        (headerLoop header r buffer).2.1.1 ≤ maxPacksize := by
  induction buffer generalizing header r with
  | nil => exact Or.inr (hr rfl)
  | cons b rest ih =>
    rw [headerLoopReads] at h
    have hrest := fun x hx => h x (List.mem_append_right _ hx)
    have hhere := fun x hx => h x (List.mem_append_left _ hx)
    rw [headerLoop]
    dsimp only at hrest ⊢
    split_ifs at hrest ⊢ with hend
    · refine size_of_bounded (.resumed rest.isEmpty) hhere fun hp => ?_
      rcases hend with hpos | rfl
      · exact hpos
      · cases hp
    · exact ih (fun hnil => absurd (Or.inr hnil) hend) hrest

/-- **What a call buffers and delivers** is within the limit, when the headers that it reads have
their due. -/
lemma filterData_within (hq : q.Within) (h : ∀ h ∈ headersRead q fd buffer, h.Bounded) :
    (filterData q fd buffer).2.Within ∧
      ∀ packet, (filterData q fd buffer).1 = .data packet →
        (packet.length : ℤ) ≤ maxPacksize := by
  have htake : (q.takeUncomplete fd).Within := ⟨small_takeUncomplete hq.small, hq.packets⟩
  unfold filterData
  unfold headersRead at h
  cases hfd : q.hash fd with
  | none =>
    rw [hfd] at h
    have hsize := size_of_bounded .first
      (fun x hx => h x (List.mem_append_left _ hx)) nofun
    have hrest := fun x hx => h x (List.mem_append_right _ hx)
    dsimp only [Place.bad] at hsize hrest ⊢
    set b := skipInvalid badSize buffer
    split_ifs with hone hneg hlt heq
    · exact ⟨within_saveUncomplete hq trivial, nofun⟩
    · exact ⟨hq, nofun⟩
    · refine ⟨within_saveUncomplete hq ⟨by omega, ?_⟩, nofun⟩
      rw [length_decodeWsmaskData]
      exact hlt.le
    · refine ⟨hq, fun packet hp => ?_⟩
      obtain rfl := Result.data.inj hp
      rw [length_decodeWsmaskData, heq]
      omega
    · rw [if_neg hneg, fillPayloadReads, if_neg hlt] at hrest
      have hne : (b.drop (readSize b).2.packHeadLength).drop (readSize b).1.toNat ≠ [] := by
        rw [Ne, List.drop_eq_nil_iff]
        omega
      rw [if_neg hne] at hrest
      refine ⟨pushMore_within _ (within_pushData hq ?_) hrest, nofun⟩
      rw [length_payload (not_lt.mp hlt)]
      omega
  | some uc =>
    rw [hfd] at h
    cases uc with
    | header header =>
      dsimp only at h ⊢
      have hsize := headerLoop_bounded (r := (0, .unset)) (fun _ => by simp [maxPacksize])
        (fun x hx => h x (List.mem_append_left _ hx))
      have hrest := fun x hx => h x (List.mem_append_right _ hx)
      split_ifs with hone hneg
      · exact ⟨within_saveUncomplete htake trivial, nofun⟩
      · exact ⟨htake, nofun⟩
      · rw [if_neg hneg] at hrest
        refine fillPayload_within htake ?_ (Nat.zero_le _) hrest
        rw [Int.toNat_of_nonneg (not_lt.mp hneg)]
        exact (hsize.resolve_left hone).2
    | payload size read mask n =>
      obtain ⟨hsize, hread⟩ := hq.small fd _ hfd
      exact fillPayload_within htake hsize hread h

lemma collect_within {x : Result × Queue} (hx : x.2.Within) : (collect fd x).2.Within := by
  obtain ⟨r, q⟩ := x
  cases r with
  | none => exact hx
  | data packet => exact hx
  | more => exact ⟨hx.small, nofun⟩
  | fault => exact hx

lemma pushMoreHandshake_small {q' : Queue} (fuel : ℕ) (hq : q.Small)
    (h : pushMoreHandshake fuel q fd buffer = some q') : q'.Small := by
  induction fuel generalizing q buffer with
  | zero =>
    obtain rfl := Option.some.inj h
    exact hq
  | succ fuel ih =>
    rw [pushMoreHandshake] at h
    cases hr : getHttpHeader buffer with
    | overrun => simp [hr] at h
    | missing =>
      rw [hr] at h
      obtain rfl := Option.some.inj h
      exact small_saveUncomplete hq trivial
    | found packSize =>
      rw [hr] at h
      dsimp only at h
      split_ifs at h with hnil
      · obtain rfl := Option.some.inj h
        exact hq
      · exact @ih (q.pushData fd _) _ hq h

lemma moreHandshake_within {packet : List UInt8} (hq : q.Within)
    (hx : (moreHandshake q fd packet buffer).1 ≠ .fault) :
    (collect fd (moreHandshake q fd packet buffer)).2.Within := by
  unfold moreHandshake at hx ⊢
  split_ifs at hx ⊢ with hnil
  · exact hq
  · cases hp : pushMoreHandshake buffer.length (q.pushData fd packet) fd buffer with
    | none => simp [hp] at hx
    | some q' =>
      have hsmall : (q.pushData fd packet).Small := hq.small
      exact ⟨@pushMoreHandshake_small _ _ _ q' _ hsmall hp, nofun⟩

/-- In the handshake no payload is begun. -/
lemma filterDataHandshake_within (hq : q.Within)
    (hx : (filterDataHandshake q fd buffer).1 ≠ .fault) :
    (collect fd (filterDataHandshake q fd buffer)).2.Within := by
  have htake : (q.takeUncomplete fd).Within := ⟨small_takeUncomplete hq.small, hq.packets⟩
  unfold filterDataHandshake at hx ⊢
  cases hfd : q.hash fd with
  | none =>
    rw [hfd] at hx
    dsimp only at hx ⊢
    cases hr : getHttpHeader buffer with
    | overrun => simp [hr] at hx
    | missing => exact within_saveUncomplete hq trivial
    | found packSize =>
      rw [hr] at hx
      exact moreHandshake_within hq hx
  | some uc =>
    rw [hfd] at hx
    cases uc with
    | header header =>
      dsimp only at hx ⊢
      cases hr : (headerLoopHandshake header (.found 0) buffer).2.1 with
      | overrun => simp [hr] at hx
      | missing => exact within_saveUncomplete htake trivial
      | found packSize =>
        rw [hr] at hx
        exact moreHandshake_within htake hx
    | payload size read mask n =>
      obtain ⟨hsize, hread⟩ := hq.small fd _ hfd
      dsimp only at hx ⊢
      split_ifs at hx ⊢ with hlt
      · refine within_saveUncomplete htake ⟨hsize, ?_⟩
        rw [List.length_append, length_decodeWsmaskData]
        omega
      · exact moreHandshake_within htake hx

end Sizes

/-! ### Runs -/

/-- An event at which every header has its due keeps the sizes within the limit. -/
lemma next_within {q q' : Queue} {e : Event} (hq : q.Within) (he : ∀ h ∈ e.headers q, h.Bounded)
    (h : next q e = some q') : q'.Within := by
  cases e with
  | close fd =>
    obtain rfl := Option.some.inj h
    exact ⟨small_takeUncomplete hq.small, hq.packets⟩
  | data fd buffer handshake =>
    have hnext : (filter q fd buffer handshake).1 ≠ .fault ∧
        q' = (collect fd (filter q fd buffer handshake)).2 := by
      rw [next] at h
      split at h
      · cases h
      · rename_i hfault
        refine ⟨fun hx => hfault _ (Prod.ext hx rfl), (Option.some.inj h).symm⟩
    obtain ⟨hfault, rfl⟩ := hnext
    cases handshake with
    | true => exact filterDataHandshake_within hq hfault
    | false => exact collect_within (filterData_within hq he).1

/-- The packets of an event at which every header has its due. -/
lemma packets_within {q : Queue} {e : Event} (hq : q.Within) (he : ∀ h ∈ e.headers q, h.Bounded) :
    ∀ packet ∈ e.packets q, (packet.length : ℤ) ≤ maxPacksize := by
  match e with
  | .close _ => exact nofun
  | .data _ _ true => exact nofun
  | .data fd buffer false =>
    obtain ⟨hwithin, hdata⟩ := @filterData_within _ fd buffer hq he
    intro packet hmem
    simp only [Event.packets, deliver, List.mem_map] at hmem
    obtain ⟨p, hp, rfl⟩ := hmem
    revert hwithin hdata hp
    generalize filterData q fd buffer = x
    obtain ⟨r, q'⟩ := x
    intro hwithin hdata hp
    cases r with
    | none => cases hp
    | data packet =>
      obtain rfl := List.mem_singleton.mp hp
      exact hdata _ rfl
    | more => exact hwithin.packets p hp
    | fault => cases hp

/-- **The sizes of websocket packets**: in a run of the unpacker from its beginning, on any sockets,
in any chunks, in the handshake and after it, every size accepted, buffered or delivered is within
the limit and every header that announces another is rejected exactly when all headers that are read
announce a length within the limit, or one whose low 32 bits give it away.

**Proof sketch.** A single header has its due just when its length is as told (`bounded_iff_fits`);
this is one direction. For the other, the sizes under way and those of the packets stay within the
limit along the run: a call keeps and queues only sizes with which a loop around `read_size` ends,
and these are accepted. -/
theorem sizes_bounded_iff (events : List Event) :
    (∀ x ∈ Runs.passes next Queue.new events, CallBounded x.1 x.2) ↔
      ∀ x ∈ Runs.passes next Queue.new events, ∀ h ∈ x.2.headers x.1, h.Fits := by
  constructor
  · intro hb x hx h hh
    exact (bounded_iff_fits h).mp ((hb x hx).headers h hh)
  · intro hf
    have hheaders : ∀ x ∈ Runs.passes next Queue.new events, ∀ h ∈ x.2.headers x.1, h.Bounded :=
      fun x hx h hh => (bounded_iff_fits h).mpr (hf x hx h hh)
    have hnew : Queue.new.Within := ⟨nofun, nofun⟩
    have hinv := Runs.invariant_of_passes (I := Queue.Within)
      (fun _ _ _ hq (he : ∀ h ∈ _, HeaderRead.Bounded h) hs => next_within hq he hs) hnew hheaders
    intro x hx
    exact ⟨hheaders x hx, packets_within (hinv x hx) (hheaders x hx),
      fun q' hs => (next_within (hinv x hx) (hheaders x hx) hs).small⟩

/-- A header that announces `2 ^ 32 + 5` bytes is accepted with the size 5. -/
theorem low_bits_accepted : ¬∀ events : List Event,
    ∀ x ∈ Runs.passes next Queue.new events, CallBounded x.1 x.2 := by
  intro h
  have hcall := h [.data 7 [0x82, 0x7F, 0, 0, 0, 1, 0, 0, 0, 5, 1, 2, 3, 4, 5] false] _
    (Runs.mem_passes_cons _ _ _ _)
  have hread := (hcall.headers ⟨.first, [0x82, 0x7F, 0, 0, 0, 1, 0, 0, 0, 5, 1, 2, 3, 4, 5]⟩
    (by decide)).rejected (2 ^ 32 + 5) (by decide) (by decide)
  revert hread
  decide

end Websocket
