import JsmjServer.Skynet.Seri
import Mathlib.Data.List.Forall2
import Mathlib.Data.List.Pairwise
import Mathlib.Data.List.Perm.Basic
import Mathlib.Tactic.SplitIfs

set_option relaxedAutoImplicit false
set_option autoImplicit false

/-!
# A message means what was packed

What `luaseri_pack` writes, `luaseri_unpack` reads as the same values.

## Main definitions

* `Skynet.Seri.WriteBlock.Adds` — what is written to a chain of blocks.
* `Skynet.Seri.Reads` — bytes that are read as a value, whatever follows them.
* `Skynet.Seri.Same` — equality of values, where a table is its pairs in any order.
* `Skynet.Seri.Fits` — the values that can be packed.

## Main results

* `Skynet.Seri.unpack_pack` — what is packed is unpacked.
* `Skynet.Seri.pack_isSome_iff` — which values are packed.
-/

namespace Skynet.Seri

/-! ### Blocks -/

namespace WriteBlock

/-- What has been written. -/
def toBytes (b : WriteBlock) : List UInt8 := b.full.flatten ++ b.current

/-- The blocks before the current one are full, and the length is that of what has been written. -/
structure Ok (b : WriteBlock) : Prop where
  full : ∀ block ∈ b.full, block.length = blockSize
  current : b.current.length ≤ blockSize
  len : b.len = b.full.length * blockSize + b.current.length

/-- The second block has these bytes more. -/
def Adds (b b' : WriteBlock) (bytes : List UInt8) : Prop :=
  b.Ok → b'.Ok ∧ b'.toBytes = b.toBytes ++ bytes

variable {b b₁ b₂ : WriteBlock} {buffer bytes bytes' : List UInt8}

lemma Adds.refl (b : WriteBlock) : Adds b b [] := fun h => ⟨h, by rw [List.append_nil]⟩

lemma Adds.trans (h : Adds b b₁ bytes) (h' : Adds b₁ b₂ bytes') : Adds b b₂ (bytes ++ bytes') := by
  intro hok
  obtain ⟨hok₁, hb₁⟩ := h hok
  obtain ⟨hok₂, hb₂⟩ := h' hok₁
  exact ⟨hok₂, by rw [hb₂, hb₁, List.append_assoc]⟩

lemma adds_copy (h : b.current.length + buffer.length ≤ blockSize) :
    Adds b (b.copy buffer) buffer := by
  intro hok
  refine ⟨⟨hok.full, by simpa [copy] using h, ?_⟩, by simp [copy, toBytes]⟩
  have := hok.len
  simp only [copy, List.length_append]
  omega

lemma adds_next (h : b.current.length = blockSize) : Adds b b.next [] := by
  intro hok
  refine ⟨⟨fun block hblock => ?_, Nat.zero_le _, ?_⟩, by simp [next, toBytes]⟩
  · rcases List.mem_append.mp hblock with hblock | hblock
    · exact hok.full block hblock
    · rw [List.mem_singleton.mp hblock, h]
  · have := hok.len
    simp only [next, List.length_append, List.length_singleton, List.length_nil, Nat.add_mul]
    omega

/-- Every turn but the last fills a block. -/
lemma adds_pushLoop {fuel : ℕ} (hfuel : buffer.length < fuel)
    (hroom : b.current.length < blockSize) : Adds b (pushLoop fuel b buffer) buffer := by
  induction fuel generalizing b buffer with
  | zero => omega
  | succ fuel ih =>
    rw [pushLoop]
    split_ifs with hle
    · exact adds_copy (by omega)
    · set room := blockSize - b.current.length with hr
      have hcopy : Adds b (b.copy (buffer.take room)) (buffer.take room) :=
        adds_copy (by rw [List.length_take]; omega)
      have hfull : (b.copy (buffer.take room)).current.length = blockSize := by
        simp only [copy, List.length_append, List.length_take]
        omega
      have hrest : Adds (b.copy (buffer.take room)).next
          (pushLoop fuel (b.copy (buffer.take room)).next (buffer.drop room)) (buffer.drop room) :=
        ih (by rw [List.length_drop]; omega) (show 0 < blockSize by decide)
      have h := (hcopy.trans (adds_next hfull)).trans hrest
      rwa [List.append_nil, List.take_append_drop] at h

/-- `wb_push` adds its buffer. -/
lemma adds_push (b : WriteBlock) (buffer : List UInt8) : Adds b (b.push buffer) buffer := by
  intro hok
  have hle := hok.current
  rw [push]
  split_ifs with hfull
  · have h := (adds_next hfull).trans (adds_pushLoop (b := b.next) (Nat.lt_succ_self buffer.length)
      (show 0 < blockSize by decide))
    exact h hok
  · exact adds_pushLoop (Nat.lt_succ_self _) (by omega) hok

lemma seriLoop_eq {full : List (List UInt8)} {current : List UInt8}
    (hfull : ∀ block ∈ full, block.length = blockSize) (hcurrent : current.length ≤ blockSize) :
    seriLoop (full ++ [current]) (full.length * blockSize + current.length) =
      full.flatten ++ current := by
  induction full with
  | nil =>
    simp only [List.nil_append, seriLoop, List.length_nil, Nat.zero_mul, Nat.zero_add,
      List.flatten_nil, List.append_nil, List.take_length]
    split_ifs with h₁ h₂
    · exact (List.length_eq_zero_iff.mp h₁).symm
    · exact List.take_of_length_le hcurrent
    · rfl
  | cons block full ih =>
    have hblock := hfull block List.mem_cons_self
    have hlen : (full.length + 1) * blockSize + current.length =
        blockSize + (full.length * blockSize + current.length) := by
      rw [Nat.add_mul]
      omega
    have hpos : 0 < blockSize := by decide
    rw [List.cons_append, List.length_cons, seriLoop, hlen, if_neg (by omega), if_pos (by omega),
      Nat.add_sub_cancel_left, ih fun block' h => hfull block' (List.mem_cons_of_mem _ h),
      List.take_of_length_le (Nat.le_of_eq hblock), List.flatten_cons, List.append_assoc]

/-- `seri` copies what has been written. -/
lemma Ok.seri_eq (h : b.Ok) : b.seri = b.toBytes := by
  rw [seri, h.len, seriLoop_eq h.full h.current, toBytes]

end WriteBlock

/-! ### Scalars -/

section Scalars

open WriteBlock

variable {lua : Lua} {b : WriteBlock}

/-- The bytes are read as the value, whatever follows them. -/
def Reads (lua : Lua) (bytes : List UInt8) (v : Value) : Prop :=
  bytes ≠ [] ∧
    ∀ fuel rest, bytes.length ≤ fuel → unpackOne lua fuel (bytes ++ rest) = some (v, rest)

lemma combineType_tag : ∀ t < 8, ∀ cookie < 32,
    (combineType t cookie &&& 7).toNat = t ∧ (combineType t cookie >>> 3).toNat = cookie := by
  decide

/-- A value is read from a type byte and what `push_value` takes. -/
lemma reads_tagged {t cookie : ℕ} (ht : t < 8) (hcookie : cookie < 32) {payload : List UInt8}
    {v : Value} (h : ∀ fuel rest, payload.length ≤ fuel →
      pushValue lua (unpackOne lua fuel) (payload ++ rest) t cookie = some (v, rest)) :
    Reads lua (combineType t cookie :: payload) v := by
  refine ⟨List.cons_ne_nil _ _, fun fuel rest hfuel => ?_⟩
  obtain ⟨htag, htail⟩ := combineType_tag t ht cookie hcookie
  cases fuel with
  | zero => simp at hfuel
  | succ fuel =>
    rw [List.cons_append, unpackOne, htag, htail]
    exact h fuel rest (by simpa using hfuel)

lemma rbRead_append (bytes rest : List UInt8) {size : ℕ} (h : bytes.length = size) :
    rbRead (bytes ++ rest) size = some (bytes, rest) := by
  rw [rbRead, if_neg (by rw [List.length_append]; omega), ← h, List.take_left, List.drop_left]

lemma getBuffer_append (s : {bytes : List UInt8 // bytes.length < 2 ^ 31}) (rest : List UInt8) :
    getBuffer (s.1 ++ rest) s.1.length = some (.string s, rest) := by
  rw [getBuffer, dif_pos s.2, if_neg (by rw [List.length_append]; omega)]
  simp only [List.take_left, List.drop_left]

lemma adds_tagged (t cookie : ℕ) (payload : List UInt8) :
    Adds b (b.tagged t cookie payload) (combineType t cookie :: payload) :=
  (adds_push b [combineType t cookie]).trans (adds_push _ payload)

/-- An integer is written in the shortest form that `get_integer` reads back. -/
lemma adds_integer {v : ℤ} (hle : -2 ^ 63 ≤ v) (hlt : v < 2 ^ 63) :
    ∃ cookie payload, Adds b (b.integer v) (combineType typeNumber cookie :: payload) ∧
      cookie < 32 ∧ cookie ≠ typeNumberReal ∧
      ∀ rest, getInteger (payload ++ rest) cookie = some (v, rest) := by
  rw [WriteBlock.integer]
  split_ifs with hzero hlong hneg hbyte hword
  · exact ⟨0, [], adds_push _ _, by decide, by decide, fun rest => by rw [hzero]; rfl⟩
  · refine ⟨6, _, adds_tagged _ _ _, by decide, by decide, fun rest => ?_⟩
    rw [getInteger, rbRead_append _ _ (LittleEndian.length_encodeSigned 8 v), Option.map_some,
      LittleEndian.signed_encodeSigned (by omega) (by omega)]
  · have hbmod := Int.le_bmod (x := v) (m := 2 ^ 32) (by decide)
    refine ⟨4, _, adds_tagged _ _ _, by decide, by decide, fun rest => ?_⟩
    rw [getInteger, rbRead_append _ _ (LittleEndian.length_encodeSigned 4 v), Option.map_some,
      LittleEndian.signed_encodeSigned (by omega) (by omega)]
  · refine ⟨1, _, adds_tagged _ _ _, by decide, by decide, fun rest => ?_⟩
    rw [getInteger, rbRead_append _ _ (LittleEndian.length_encode 1 _), Option.map_some,
      LittleEndian.value_encode (by omega), Int.toNat_of_nonneg (by omega)]
  · refine ⟨2, _, adds_tagged _ _ _, by decide, by decide, fun rest => ?_⟩
    rw [getInteger, rbRead_append _ _ (LittleEndian.length_encode 2 _), Option.map_some,
      LittleEndian.value_encode (by omega), Int.toNat_of_nonneg (by omega)]
  · have hbmod := Int.bmod_lt (x := v) (m := 2 ^ 32) (by decide)
    refine ⟨4, _, adds_tagged _ _ _, by decide, by decide, fun rest => ?_⟩
    have hsigned : LittleEndian.encode 4 v.toNat = LittleEndian.encodeSigned 4 v := by
      rw [LittleEndian.encodeSigned, Int.emod_eq_of_lt (by omega) (by omega)]
    rw [hsigned, getInteger, rbRead_append _ _ (LittleEndian.length_encodeSigned 4 v),
      Option.map_some, LittleEndian.signed_encodeSigned (by omega) (by omega)]

lemma reads_shortString {s : {bytes : List UInt8 // bytes.length < 2 ^ 31}}
    (h : s.1.length < maxCookie) :
    Reads lua (combineType typeShortString s.1.length :: s.1) (.string s) :=
  reads_tagged (by decide) h fun _ rest _ => getBuffer_append s rest

lemma reads_longString {s : {bytes : List UInt8 // bytes.length < 2 ^ 31}} {width : ℕ}
    (hwidth : width = 2 ∨ width = 4) (h : s.1.length < 256 ^ width) :
    Reads lua (combineType typeLongString width :: (LittleEndian.encode width s.1.length ++ s.1))
      (.string s) := by
  refine reads_tagged (by decide) (by omega) fun fuel rest _ => ?_
  have hpush : ∀ bytes, pushValue lua (unpackOne lua fuel) bytes typeLongString width =
      (rbRead bytes width).bind fun r => getBuffer r.2 (LittleEndian.value r.1) :=
    fun bytes => if_pos hwidth
  rw [hpush, List.append_assoc, rbRead_append _ _ (LittleEndian.length_encode width _),
    Option.bind_some, LittleEndian.value_encode h, getBuffer_append]

lemma adds_string (s : {bytes : List UInt8 // bytes.length < 2 ^ 31}) :
    ∃ bytes, Adds b (b.string s.1) bytes ∧ Reads lua bytes (.string s) := by
  have hlt := s.2
  rw [WriteBlock.string]
  split_ifs with hshort hpos hword
  · exact ⟨_, (adds_push b _).trans (adds_push _ s.1), reads_shortString hshort⟩
  · have hnil : s.1 = [] := List.length_eq_zero_iff.mp (by simpa using hpos)
    refine ⟨_, adds_push b _, ?_⟩
    have h : Reads lua (combineType typeShortString s.1.length :: s.1) (.string s) :=
      reads_shortString hshort
    rwa [hnil] at h ⊢
  · exact ⟨_, (adds_tagged _ _ _).trans (adds_push _ s.1),
      reads_longString (.inl rfl) (by omega)⟩
  · exact ⟨_, (adds_tagged _ _ _).trans (adds_push _ s.1),
      reads_longString (.inr rfl) (by omega)⟩

/-- Eight bytes are read as they were written. -/
lemma ofNat_value_encode (payload : UInt64) :
    UInt64.ofNat (LittleEndian.value (LittleEndian.encode 8 payload.toNat)) = payload := by
  have hlt := payload.toNat_lt
  rw [LittleEndian.value_encode (by omega), UInt64.ofNat_toNat]

end Scalars

/-! ### Tables -/

/-- The values are the same, where tables are as long as they have the same pairs in any order. -/
inductive Same : Value → Value → Prop
  | refl (v : Value) : Same v v
  | table {metapairs : Bool} {pairs pairs₁ pairs' : List (Value × Value)} (perm : pairs.Perm pairs₁)
      (keys : List.Forall₂ Same (pairs₁.map Prod.fst) (pairs'.map Prod.fst))
      (values : List.Forall₂ Same (pairs₁.map Prod.snd) (pairs'.map Prod.snd)) :
      Same (.table metapairs pairs) (.table false pairs')

/-- A value that Lua can have: the keys of a table are different and can be keys, and its values are
not `nil`. -/
inductive Lua.Sound (lua : Lua) : Value → Prop
  | nil : lua.Sound .nil
  | boolean (b : Bool) : lua.Sound (.boolean b)
  | integer (v : Int64) : lua.Sound (.integer v)
  | real (bits : UInt64) : lua.Sound (.real bits)
  | string (s : {bytes : List UInt8 // bytes.length < 2 ^ 31}) : lua.Sound (.string s)
  | lightuserdata (p : UInt64) : lua.Sound (.lightuserdata p)
  | other : lua.Sound .other
  | table {metapairs : Bool} {pairs : List (Value × Value)}
      (keys : ∀ p ∈ pairs, lua.Sound p.1) (values : ∀ p ∈ pairs, lua.Sound p.2)
      (key : ∀ p ∈ pairs, lua.key p.1 = some p.1) (value : ∀ p ∈ pairs, p.2.isNil = false)
      (distinct : pairs.Pairwise fun p q => Value.rawEqual p.1 q.1 = false) :
      lua.Sound (.table metapairs pairs)

namespace Same

variable {a a' b b' : Value}

lemma isNil (h : Same a a') : a'.isNil = a.isNil := by
  cases h <;> rfl

lemma rawEqual (ha : Same a a') (hb : Same b b') :
    Value.rawEqual a' b' = Value.rawEqual a b := by
  cases ha with
  | refl =>
    cases hb with
    | refl => rfl
    | table => cases a <;> rfl
  | table => cases hb <;> rfl

lemma inArray (h : Same a a') (size : ℕ) : a'.inArray size = a.inArray size := by
  cases h <;> rfl

lemma key {lua : Lua} (h : Same a a') (hkey : lua.key a = some a) : lua.key a' = some a' := by
  cases h with
  | refl => exact hkey
  | table => rfl

end Same

namespace Value

/-- An index from 1 on is a key of its own. -/
lemma toInt_ofInt_index {i : ℕ} (h : i < 2 ^ 31) : (Int64.ofInt i).toInt = i :=
  Int64.toInt_ofInt_of_le (by omega) (by omega)

lemma rawEqual_integer {v : Int64} {k : Value} :
    rawEqual (.integer v) k = true ↔ k = .integer v := by
  cases k with
  | integer w =>
    rw [rawEqual, beq_iff_eq]
    exact ⟨fun h => by rw [h], fun h => by injection h with h; exact h.symm⟩
  | _ => simp [rawEqual]

lemma inArray_iff {size : ℕ} {k : Value} :
    k.inArray size = true ↔ ∃ v, k = .integer v ∧ 0 < v.toInt ∧ v.toInt ≤ size := by
  cases k <;> simp [inArray]

lemma rawEqual_comm (a b : Value) : rawEqual a b = rawEqual b a := by
  cases a <;> cases b <;> first | rfl | exact BEq.comm

end Value

section Tables

variable {lua : Lua} {one : List UInt8 → Option (Value × List UInt8)}

lemma isNil_of_key {k : Value} (h : lua.key k = some k) : k.isNil = false := by
  cases k with
  | nil => simp [Lua.key] at h
  | _ => rfl

/-- A key that the table does not have is stored behind the others. -/
lemma rawset_of_fresh {pairs : List (Value × Value)} {k v : Value} (hkey : lua.key k = some k)
    (hfresh : ∀ p ∈ pairs, Value.rawEqual k p.1 = false) :
    lua.rawset pairs k v = some (if v.isNil then pairs else pairs ++ [(k, v)]) := by
  have hrest : pairs.filter (fun p => !Value.rawEqual k p.1) = pairs :=
    List.filter_eq_self.mpr fun p hp => by simp [hfresh p hp]
  rw [Lua.rawset, hkey, Option.map_some, hrest]

/-- The pair of a value of an array. -/
def indexPair (i : ℕ) (v : Value) : List (Value × Value) :=
  if v.isNil then [] else [(.integer (Int64.ofInt i), v)]

/-- The pairs of the values of an array from the index `i` on. -/
def arrayPairs : ℕ → List Value → List (Value × Value)
  | _, [] => []
  | i, v :: vs => indexPair i v ++ arrayPairs (i + 1) vs

lemma mem_indexPair {i : ℕ} {v : Value} {p : Value × Value} :
    p ∈ indexPair i v ↔ v.isNil = false ∧ p = (.integer (Int64.ofInt i), v) := by
  rw [indexPair]
  split_ifs with h <;> simp [h]

lemma mem_arrayPairs {i : ℕ} {vs : List Value} {p : Value × Value} :
    p ∈ arrayPairs i vs ↔
      ∃ j v, vs[j]? = some v ∧ v.isNil = false ∧ p = (.integer (Int64.ofInt (i + j : ℕ)), v) := by
  induction vs generalizing i with
  | nil => simp [arrayPairs]
  | cons v vs ih =>
    rw [arrayPairs, List.mem_append, mem_indexPair, ih]
    constructor
    · rintro (⟨hv, rfl⟩ | ⟨j, w, hj, hw, rfl⟩)
      · exact ⟨0, v, rfl, hv, rfl⟩
      · exact ⟨j + 1, w, by simpa using hj, hw, by rw [Nat.add_right_comm]; rfl⟩
    · rintro ⟨j, w, hj, hw, rfl⟩
      cases j with
      | zero =>
        obtain rfl : v = w := by simpa using hj
        exact .inl ⟨hw, rfl⟩
      | succ j => exact .inr ⟨j, w, by simpa using hj, hw, by rw [Nat.add_right_comm]; rfl⟩

/-- The values of an array are stored under their indexes. -/
lemma readArray_chunks (cs : List (List UInt8 × Value))
    (hreads : ∀ c ∈ cs, ∀ rest, one (c.1 ++ rest) = some (c.2, rest)) {i : ℕ}
    (hi : i + cs.length ≤ 2 ^ 31) {pairs : List (Value × Value)}
    (hfresh : ∀ p ∈ pairs, ∃ j < i, p.1 = .integer (Int64.ofInt j)) (rest : List UInt8) :
    readArray lua one cs.length i pairs (cs.flatMap Prod.fst ++ rest) =
      some (pairs ++ arrayPairs i (cs.map Prod.snd), rest) := by
  induction cs generalizing i pairs with
  | nil => simp [readArray, arrayPairs]
  | cons c cs ih =>
    simp only [List.length_cons] at hi
    have hnew : ∀ p ∈ pairs, Value.rawEqual (.integer (Int64.ofInt i)) p.1 = false := by
      intro p hp
      obtain ⟨j, hj, heq⟩ := hfresh p hp
      rw [heq, ← Bool.not_eq_true, Value.rawEqual_integer]
      intro hij
      have hint := congrArg Int64.toInt (Value.integer.inj hij)
      rw [Value.toInt_ofInt_index (by omega), Value.toInt_ofInt_index (by omega)] at hint
      omega
    have hone := hreads c List.mem_cons_self (cs.flatMap Prod.fst ++ rest)
    rw [List.length_cons, readArray, List.flatMap_cons, List.append_assoc, hone, Option.bind_some,
      rawset_of_fresh rfl hnew, Option.bind_some]
    have hpairs : (if c.2.isNil then pairs else pairs ++ [(.integer (Int64.ofInt i), c.2)]) =
        pairs ++ indexPair i c.2 := by
      rw [indexPair]
      split_ifs <;> simp
    rw [hpairs, ih (fun c' hc' => hreads c' (List.mem_cons_of_mem _ hc')) (by omega) ?_,
      List.map_cons, arrayPairs, List.append_assoc]
    intro p hp
    rcases List.mem_append.mp hp with hp | hp
    · obtain ⟨j, hj, heq⟩ := hfresh p hp
      exact ⟨j, by omega, heq⟩
    · exact ⟨i, by omega, by rw [(mem_indexPair.mp hp).2]⟩

/-- The bytes are read as a key and its value. -/
def ReadsPair (one : List UInt8 → Option (Value × List UInt8)) (bytes : List UInt8)
    (p : Value × Value) : Prop :=
  ∃ k v, bytes = k ++ v ∧ k ≠ [] ∧ (∀ rest, one (k ++ rest) = some (p.1, rest)) ∧
    ∀ rest, one (v ++ rest) = some (p.2, rest)

/-- The pairs behind an array are stored until a key is `nil`. -/
lemma readPairs_chunks (cs : List (List UInt8 × (Value × Value)))
    (hreads : ∀ c ∈ cs, ReadsPair one c.1 c.2)
    (hkey : ∀ c ∈ cs, lua.key c.2.1 = some c.2.1 ∧ c.2.1.isNil = false ∧ c.2.2.isNil = false)
    (hdistinct : cs.Pairwise fun c d => Value.rawEqual c.2.1 d.2.1 = false)
    {tail rest : List UInt8} (htail : one tail = some (.nil, rest))
    {pairs : List (Value × Value)}
    (hfresh : ∀ c ∈ cs, ∀ p ∈ pairs, Value.rawEqual c.2.1 p.1 = false) {fuel : ℕ}
    (hfuel : cs.length < fuel) :
    readPairs lua one fuel pairs (cs.flatMap Prod.fst ++ tail) =
      some (.table false (pairs ++ cs.map Prod.snd), rest) := by
  induction cs generalizing pairs fuel with
  | nil =>
    cases fuel with
    | zero => omega
    | succ fuel => simp [readPairs, htail, Value.isNil]
  | cons c cs ih =>
    cases fuel with
    | zero => omega
    | succ fuel =>
      obtain ⟨k, v, hbytes, -, hk, hv⟩ := hreads c List.mem_cons_self
      obtain ⟨hck, hnil, hval⟩ := hkey c List.mem_cons_self
      obtain ⟨hhead, htails⟩ := List.pairwise_cons.mp hdistinct
      rw [readPairs, List.flatMap_cons, hbytes, List.append_assoc, List.append_assoc, hk,
        Option.bind_some, hnil, if_neg Bool.false_ne_true, hv, Option.bind_some,
        rawset_of_fresh hck (hfresh c List.mem_cons_self), Option.bind_some, hval,
        if_neg Bool.false_ne_true]
      rw [ih (fun c' h => hreads c' (List.mem_cons_of_mem _ h))
        (fun c' h => hkey c' (List.mem_cons_of_mem _ h)) htails ?_ (by simpa using hfuel),
        List.map_cons, List.append_assoc]
      · rfl
      · intro c' h p hp
        rcases List.mem_append.mp hp with hp | hp
        · exact hfresh c' (List.mem_cons_of_mem _ h) p hp
        · rw [List.mem_singleton.mp hp, Value.rawEqual_comm]
          exact hhead c' h

/-! ### The pairs of a table -/

section Pairs

variable {pairs : List (Value × Value)}

/-- Pairs with one key are one pair. -/
lemma eq_of_rawEqual (hdistinct : pairs.Pairwise fun p q => Value.rawEqual p.1 q.1 = false)
    {p q : Value × Value} (hp : p ∈ pairs) (hq : q ∈ pairs)
    (h : Value.rawEqual p.1 q.1 = true) : p = q := by
  by_contra hne
  have hsymm : Std.Symm fun p q : Value × Value => Value.rawEqual p.1 q.1 = false :=
    ⟨fun p q h => (Value.rawEqual_comm q.1 p.1).trans h⟩
  have := hdistinct.forall hp hq hne
  rw [h] at this
  exact Bool.noConfusion this

lemma mem_iff_rawgeti (hdistinct : pairs.Pairwise fun p q => Value.rawEqual p.1 q.1 = false)
    (hvalue : ∀ p ∈ pairs, p.2.isNil = false) {i : ℕ} {v : Value} :
    (.integer (Int64.ofInt i), v) ∈ pairs ↔ v.isNil = false ∧ Value.rawgeti pairs i = v := by
  rw [Value.rawgeti]
  cases hfind : pairs.find? fun p => Value.rawEqual (.integer (Int64.ofInt i)) p.1 with
  | none =>
    refine ⟨fun hmem => ?_, fun ⟨hv, heq⟩ => by simp [← heq, Value.isNil] at hv⟩
    have := List.find?_eq_none.mp hfind _ hmem
    simp [Value.rawEqual] at this
  | some q =>
    have hq := List.mem_of_find?_eq_some hfind
    have hkey := List.find?_some hfind
    constructor
    · intro hmem
      have := eq_of_rawEqual hdistinct hmem hq hkey
      exact ⟨hvalue _ hmem, by rw [← this]⟩
    · rintro ⟨-, rfl⟩
      rw [Value.rawEqual_integer] at hkey
      rw [← hkey]
      exact hq

lemma nodup_arrayPairs {i : ℕ} {vs : List Value} (h : i + vs.length ≤ 2 ^ 31) :
    (arrayPairs i vs).Nodup := by
  induction vs generalizing i with
  | nil => exact List.nodup_nil
  | cons v vs ih =>
    simp only [List.length_cons] at h
    rw [arrayPairs, List.nodup_append]
    refine ⟨by rw [indexPair]; split_ifs <;> simp, ih (by omega), fun p hp q hq heq => ?_⟩
    obtain ⟨-, rfl⟩ := mem_indexPair.mp hp
    obtain ⟨j, w, hj, -, rfl⟩ := mem_arrayPairs.mp hq
    have hlt : j < vs.length := (List.getElem?_eq_some_iff.mp hj).1
    have hint := congrArg Int64.toInt (Value.integer.inj (congrArg Prod.fst heq))
    rw [Value.toInt_ofInt_index (by omega), Value.toInt_ofInt_index (by omega)] at hint
    omega

/-- The pairs of a table are those of its array and the others. -/
lemma perm_arrayPairs (hdistinct : pairs.Pairwise fun p q => Value.rawEqual p.1 q.1 = false)
    (hvalue : ∀ p ∈ pairs, p.2.isNil = false) {size : ℕ} (hsize : size < 2 ^ 31) :
    pairs.Perm (arrayPairs 1 ((List.range' 1 size).map (Value.rawgeti pairs)) ++
      pairs.filter fun p => !p.1.inArray size) := by
  have hsplit := List.filter_append_perm (fun p : Value × Value => p.1.inArray size) pairs
  refine hsplit.symm.trans (List.Perm.append_right _ ?_)
  have hnodup : (pairs.filter fun p => p.1.inArray size).Nodup := by
    refine (hdistinct.sublist List.filter_sublist).imp_of_mem fun {p q} hp _ hne heq => ?_
    obtain ⟨v, hv, -⟩ := Value.inArray_iff.mp (List.mem_filter.mp hp).2
    rw [← heq, hv] at hne
    simp [Value.rawEqual] at hne
  refine (List.perm_ext_iff_of_nodup hnodup (nodup_arrayPairs ?_)).mpr fun p => ?_
  · simp only [List.length_map, List.length_range']
    omega
  rw [List.mem_filter, mem_arrayPairs]
  constructor
  · rintro ⟨hmem, hin⟩
    obtain ⟨v, hv, hpos, hle⟩ := Value.inArray_iff.mp hin
    have hindex : Int64.ofInt (1 + (v.toInt.toNat - 1) : ℕ) = v := by
      rw [show ((1 + (v.toInt.toNat - 1) : ℕ) : ℤ) = v.toInt by omega, Int64.ofInt_toInt]
    have hget := (mem_iff_rawgeti hdistinct hvalue (i := 1 + (v.toInt.toNat - 1)) (v := p.2)).mp
      (by rw [hindex, ← hv]; exact hmem)
    refine ⟨v.toInt.toNat - 1, p.2, ?_, hget.1, by rw [hindex, ← hv]⟩
    rw [List.getElem?_map, List.getElem?_range' (by omega), Option.map_some, Nat.one_mul, hget.2]
  · rintro ⟨j, v, hj, hnil, rfl⟩
    rw [List.getElem?_map, Option.map_eq_some_iff] at hj
    obtain ⟨k, hk, hget⟩ := hj
    obtain ⟨hlt, rfl⟩ := List.getElem?_eq_some_iff.mp hk
    simp only [List.length_range'] at hlt
    rw [List.getElem_range', Nat.one_mul] at hget
    refine ⟨(mem_iff_rawgeti hdistinct hvalue).mpr ⟨hnil, hget⟩, Value.inArray_iff.mpr ⟨_, rfl, ?_⟩⟩
    rw [Value.toInt_ofInt_index (by omega)]
    omega

end Pairs

end Tables

/-! ### Packing and unpacking -/

section Pack

open WriteBlock

variable {lua : Lua}

/-- What a loop writes, item by item. -/
lemma foldlM_chunks {α β : Type*} {f : WriteBlock → α → Option WriteBlock}
    {P : α → List UInt8 → β → Prop} {l : List α}
    (h : ∀ a ∈ l, ∀ b b', f b a = some b' → ∃ bytes x, Adds b b' bytes ∧ P a bytes x)
    {b b' : WriteBlock} (hf : l.foldlM f b = some b') :
    ∃ cs : List (List UInt8 × β), Adds b b' (cs.flatMap Prod.fst) ∧
      List.Forall₂ (fun a c => P a c.1 c.2) l cs := by
  induction l generalizing b with
  | nil =>
    obtain rfl : b = b' := by simpa using hf
    exact ⟨[], Adds.refl b, .nil⟩
  | cons a l ih =>
    rw [List.foldlM_cons, Option.bind_eq_bind, Option.bind_eq_some_iff] at hf
    obtain ⟨b₁, hone, hrest⟩ := hf
    obtain ⟨bytes, x, hadds, hP⟩ := h a List.mem_cons_self b b₁ hone
    obtain ⟨cs, hadds', hall⟩ := ih (fun a' h' => h a' (List.mem_cons_of_mem _ h')) hrest
    exact ⟨(bytes, x) :: cs, hadds.trans hadds', .cons hP hall⟩

lemma foldlM_skip (one : WriteBlock → Value → Option WriteBlock) (size : ℕ)
    (pairs : List (Value × Value)) (b : WriteBlock) :
    pairs.foldlM (fun b (p : Value × Value) =>
      if p.1.inArray size then some b else packPair one b p) b =
        (pairs.filter fun p => !p.1.inArray size).foldlM (packPair one) b := by
  induction pairs generalizing b with
  | nil => rfl
  | cons p pairs ih =>
    cases hp : p.1.inArray size with
    | true =>
      rw [List.filter_cons_of_neg (by simp [hp]), List.foldlM_cons, hp, ← ih]
      rfl
    | false =>
      rw [List.filter_cons_of_pos (by simp [hp]), List.foldlM_cons, List.foldlM_cons, hp]
      simp only [Bool.false_eq_true, if_false, ih]

/-- The size of an array is written as `unpack_table` reads it. -/
lemma adds_arraySize (b : WriteBlock) {size : ℕ} (h : size < 2 ^ 31) :
    ∃ cookie payload, Adds b (b.arraySize size) (combineType typeTable cookie :: payload) ∧
      cookie < 32 ∧ ∀ rest, getArraySize (payload ++ rest) cookie = some (size, rest) := by
  rw [WriteBlock.arraySize]
  split_ifs with hlarge
  · obtain ⟨cookie, payload, hadds, hlt, hreal, hget⟩ :=
      adds_integer (b := b.push [combineType typeTable (maxCookie - 1)]) (v := size) (by omega)
        (by omega)
    refine ⟨maxCookie - 1, combineType typeNumber cookie :: payload, (adds_push b _).trans hadds,
      by decide, fun rest => ?_⟩
    obtain ⟨htag, htail⟩ := combineType_tag typeNumber (by decide) cookie hlt
    have hmod : (size : ℤ).bmod (2 ^ 32) = size := Int.bmod_eq_of_le_mul_two (by omega) (by omega)
    rw [List.cons_append, getArraySize, if_pos rfl]
    simp only [htag, htail, ne_eq, not_true_eq_false, hreal, or_self, if_false, hget,
      Option.map_some, hmod, Int.toNat_natCast]
  · refine ⟨size, [], adds_push b _, ?_, fun rest => ?_⟩
    · simp only [maxCookie] at hlarge
      omega
    · have hne : size ≠ maxCookie - 1 := by omega
      simp [getArraySize, hne]

/-- What `pack_one` has written is read as the same value. -/
def Packs (lua : Lua) (one : WriteBlock → Value → Option WriteBlock) : Prop :=
  ∀ v b b', lua.Sound v → one b v = some b' →
    ∃ bytes v', Adds b b' bytes ∧ Same v v' ∧ Reads lua bytes v'

/-- The bytes are read as a pair of the same values. -/
def SamePair (lua : Lua) (p : Value × Value) (bytes : List UInt8) (q : Value × Value) : Prop :=
  Same p.1 q.1 ∧ Same p.2 q.2 ∧ ∃ k v, bytes = k ++ v ∧ Reads lua k q.1 ∧ Reads lua v q.2

lemma packPair_chunks {one : WriteBlock → Value → Option WriteBlock} (hone : Packs lua one)
    {p : Value × Value} (hkey : lua.Sound p.1) (hvalue : lua.Sound p.2) {b b' : WriteBlock}
    (h : packPair one b p = some b') : ∃ bytes q, Adds b b' bytes ∧ SamePair lua p bytes q := by
  obtain ⟨b₁, h₁, h₂⟩ := Option.bind_eq_some_iff.mp h
  obtain ⟨k, key, hk, hsame, hreads⟩ := hone _ _ _ hkey h₁
  obtain ⟨v, value, hv, hsame', hreads'⟩ := hone _ _ _ hvalue h₂
  exact ⟨k ++ v, (key, value), hk.trans hv, hsame, hsame', k, v, rfl, hreads, hreads'⟩

lemma forall₂_arrayPairs {vs vs' : List Value} (h : List.Forall₂ Same vs vs') (i : ℕ) :
    List.Forall₂ Same ((arrayPairs i vs).map Prod.fst) ((arrayPairs i vs').map Prod.fst) ∧
      List.Forall₂ Same ((arrayPairs i vs).map Prod.snd) ((arrayPairs i vs').map Prod.snd) := by
  induction h generalizing i with
  | nil => exact ⟨.nil, .nil⟩
  | cons hsame _ ih =>
    obtain ⟨hkeys, hvalues⟩ := ih (i + 1)
    rw [arrayPairs, arrayPairs, indexPair, indexPair, hsame.isNil]
    split_ifs
    · exact ⟨hkeys, hvalues⟩
    · exact ⟨.cons (.refl _) hkeys, .cons hsame hvalues⟩

/-- What is read of a table whose array and whose other pairs are read. -/
lemma unpackTable_chunks {one : List UInt8 → Option (Value × List UInt8)} {cookie : ℕ}
    {payload tail rest : List UInt8} {cs : List (List UInt8 × Value)}
    {ds : List (List UInt8 × (Value × Value))} (hcount : cs.length < 2 ^ 31)
    (hsize : ∀ rest, getArraySize (payload ++ rest) cookie = some (cs.length, rest))
    (hcs : ∀ c ∈ cs, ∀ rest, one (c.1 ++ rest) = some (c.2, rest))
    (hds : ∀ d ∈ ds, ReadsPair one d.1 d.2)
    (hkey : ∀ d ∈ ds, lua.key d.2.1 = some d.2.1 ∧ d.2.1.isNil = false ∧ d.2.2.isNil = false ∧
      d.2.1.inArray cs.length = false)
    (hdistinct : ds.Pairwise fun c d => Value.rawEqual c.2.1 d.2.1 = false)
    (htail : one tail = some (.nil, rest)) :
    unpackTable lua one (payload ++ (cs.flatMap Prod.fst ++ (ds.flatMap Prod.fst ++ tail))) cookie =
      some (.table false (arrayPairs 1 (cs.map Prod.snd) ++ ds.map Prod.snd), rest) := by
  have harray : readArray lua one cs.length 1 []
      (cs.flatMap Prod.fst ++ (ds.flatMap Prod.fst ++ tail)) =
        some ([] ++ arrayPairs 1 (cs.map Prod.snd), ds.flatMap Prod.fst ++ tail) :=
    readArray_chunks cs hcs (by omega) (fun p hp => by simp at hp) _
  have hfresh : ∀ d ∈ ds, ∀ p ∈ arrayPairs 1 (cs.map Prod.snd),
      Value.rawEqual d.2.1 p.1 = false := by
    intro d hd p hp
    obtain ⟨j, v, hj, -, rfl⟩ := mem_arrayPairs.mp hp
    have hlt : j < cs.length := by simpa using (List.getElem?_eq_some_iff.mp hj).1
    rw [Value.rawEqual_comm, ← Bool.not_eq_true, Value.rawEqual_integer]
    intro heq
    have hin : d.2.1.inArray cs.length = true := by
      refine Value.inArray_iff.mpr ⟨_, heq, ?_⟩
      rw [Value.toInt_ofInt_index (by omega)]
      omega
    rw [(hkey d hd).2.2.2] at hin
    exact Bool.noConfusion hin
  have hlen : ds.length < (ds.flatMap Prod.fst ++ tail).length + 1 := by
    have hle : ds.length ≤ (ds.flatMap Prod.fst).length := by
      clear hkey hdistinct hfresh harray
      induction ds with
      | nil => exact Nat.zero_le _
      | cons d ds ih =>
        obtain ⟨k, v, hbytes, hk, -⟩ := hds d List.mem_cons_self
        have hpos := List.length_pos_iff.mpr hk
        have hrest := ih fun d' h => hds d' (List.mem_cons_of_mem _ h)
        simp only [List.flatMap_cons, hbytes, List.length_append, List.length_cons]
        omega
    rw [List.length_append]
    omega
  rw [unpackTable, hsize, Option.bind_some, harray, Option.bind_some]
  exact readPairs_chunks ds hds (fun d hd => ⟨(hkey d hd).1, (hkey d hd).2.1, (hkey d hd).2.2.1⟩)
    hdistinct htail hfresh hlen

/-- `wb_table` writes the size, the array, the other pairs and `nil`; a table with `__pairs` has no
array. -/
lemma wbTable_cases {one : WriteBlock → Value → Option WriteBlock} {b b' : WriteBlock}
    {metapairs : Bool} {pairs : List (Value × Value)}
    (h : wbTable lua one b metapairs pairs = some b') :
    ∃ size < 2 ^ 31, ∃ b₁ b₂,
      ((List.range' 1 size).map (Value.rawgeti pairs)).foldlM one (b.arraySize size) = some b₁ ∧
      (pairs.filter fun p => !p.1.inArray size).foldlM (packPair one) b₁ = some b₂ ∧
      b' = b₂.nil := by
  rw [wbTable] at h
  split_ifs at h with hmeta
  · obtain ⟨b₂, hhash, rfl⟩ := Option.map_eq_some_iff.mp h
    have hall : (pairs.filter fun p => !p.1.inArray 0) = pairs := by
      refine List.filter_eq_self.mpr fun p _ => ?_
      rw [Bool.not_eq_true', ← Bool.not_eq_true, Value.inArray_iff]
      rintro ⟨v, -, hpos, hle⟩
      omega
    exact ⟨0, by decide, b.push [combineType typeTable 0], b₂, rfl, by rw [hall, hhash], rfl⟩
  · obtain ⟨b₁, harray, hrest⟩ := Option.bind_eq_some_iff.mp h
    obtain ⟨b₂, hhash, rfl⟩ := Option.map_eq_some_iff.mp hrest
    rw [foldlM_skip] at hhash
    exact ⟨lua.rawlen pairs, lua.rawlen_lt pairs, b₁, b₂, harray, hhash, rfl⟩

lemma exists_of_forall₂ {α β : Type*} {P : α → β → Prop} {l : List α} {ds : List β}
    (h : List.Forall₂ P l ds) {d : β} (hd : d ∈ ds) : ∃ a ∈ l, P a d := by
  induction h with
  | nil => simp at hd
  | cons hP _ ih =>
    rcases List.mem_cons.mp hd with rfl | hd
    · exact ⟨_, List.mem_cons_self, hP⟩
    · obtain ⟨a, ha, hPa⟩ := ih hd
      exact ⟨a, List.mem_cons_of_mem _ ha, hPa⟩

lemma pairwise_of_forall₂ {α β : Type*} {P : α → β → Prop} {R : α → α → Prop} {S : β → β → Prop}
    (hS : ∀ a a' d d', P a d → P a' d' → R a a' → S d d') {l : List α} {ds : List β}
    (h : List.Forall₂ P l ds) (hl : l.Pairwise R) : ds.Pairwise S := by
  induction h with
  | nil => exact .nil
  | cons hP hrest ih =>
    obtain ⟨hhead, htail⟩ := List.pairwise_cons.mp hl
    refine .cons (fun d' hd' => ?_) (ih htail)
    obtain ⟨a', ha', hP'⟩ := exists_of_forall₂ hrest hd'
    exact hS _ _ _ _ hP hP' (hhead a' ha')

lemma length_le_flatMap {β : Type*} {cs : List (List UInt8 × β)} {c : List UInt8 × β}
    (h : c ∈ cs) : c.1.length ≤ (cs.flatMap Prod.fst).length := by
  obtain ⟨cs₁, cs₂, rfl⟩ := List.append_of_mem h
  simp only [List.flatMap_append, List.flatMap_cons, List.length_append]
  omega

lemma sound_rawgeti {pairs : List (Value × Value)} (h : ∀ p ∈ pairs, lua.Sound p.2) (i : ℕ) :
    lua.Sound (Value.rawgeti pairs i) := by
  rw [Value.rawgeti]
  cases hfind : pairs.find? fun p => Value.rawEqual (.integer (Int64.ofInt i)) p.1 with
  | none => exact .nil
  | some p => exact h p (List.mem_of_find?_eq_some hfind)

/-- A table is written as the bytes of the same table. -/
lemma packs_table {one : WriteBlock → Value → Option WriteBlock} (hone : Packs lua one)
    {metapairs : Bool} {pairs : List (Value × Value)} (hkeys : ∀ p ∈ pairs, lua.Sound p.1)
    (hvalues : ∀ p ∈ pairs, lua.Sound p.2) (hkey : ∀ p ∈ pairs, lua.key p.1 = some p.1)
    (hvalue : ∀ p ∈ pairs, p.2.isNil = false)
    (hdistinct : pairs.Pairwise fun p q => Value.rawEqual p.1 q.1 = false)
    {b b' : WriteBlock} (h : wbTable lua one b metapairs pairs = some b') :
    ∃ bytes v', Adds b b' bytes ∧ Same (.table metapairs pairs) v' ∧ Reads lua bytes v' := by
  obtain ⟨size, hsize, b₁, b₂, harray, hhash, rfl⟩ := wbTable_cases h
  obtain ⟨cookie, payload, hhead, hcookie, hget⟩ := adds_arraySize b hsize
  obtain ⟨cs, hcs, hcsall⟩ := foldlM_chunks (P := fun v bytes v' => Same v v' ∧ Reads lua bytes v')
    (fun v hv b b' h => hone v b b' (by
      obtain ⟨i, -, rfl⟩ := List.mem_map.mp hv
      exact sound_rawgeti hvalues i) h) harray
  obtain ⟨ds, hds, hdsall⟩ := foldlM_chunks (P := SamePair lua)
    (fun p hp b b' h => packPair_chunks hone (hkeys p (List.mem_of_mem_filter hp))
      (hvalues p (List.mem_of_mem_filter hp)) h) hhash
  have hcount : cs.length = size := by
    rw [← hcsall.length_eq, List.length_map, List.length_range']
  have hadds := hhead.trans (hcs.trans (hds.trans (adds_push b₂ [combineType typeNil 0])))
  refine ⟨combineType typeTable cookie :: (payload ++ (cs.flatMap Prod.fst ++
    (ds.flatMap Prod.fst ++ [combineType typeNil 0]))),
    .table false (arrayPairs 1 (cs.map Prod.snd) ++ ds.map Prod.snd), hadds, ?_, ?_⟩
  · -- the pairs are those of the array and the others
    have harrays : List.Forall₂ Same ((List.range' 1 size).map (Value.rawgeti pairs))
        (cs.map Prod.snd) :=
      List.forall₂_map_right_iff.mpr (hcsall.imp fun _ _ h => h.1)
    obtain ⟨hk, hv⟩ := forall₂_arrayPairs harrays 1
    have hk' : List.Forall₂ Same ((pairs.filter fun p => !p.1.inArray size).map Prod.fst)
        ((ds.map Prod.snd).map Prod.fst) := by
      rw [List.forall₂_map_left_iff, List.forall₂_map_right_iff, List.forall₂_map_right_iff]
      exact hdsall.imp fun _ _ h => h.1
    have hv' : List.Forall₂ Same ((pairs.filter fun p => !p.1.inArray size).map Prod.snd)
        ((ds.map Prod.snd).map Prod.snd) := by
      rw [List.forall₂_map_left_iff, List.forall₂_map_right_iff, List.forall₂_map_right_iff]
      exact hdsall.imp fun _ _ h => h.2.1
    refine .table (perm_arrayPairs hdistinct hvalue hsize) ?_ ?_
    · rw [List.map_append, List.map_append]
      exact List.rel_append hk hk'
    · rw [List.map_append, List.map_append]
      exact List.rel_append hv hv'
  · refine reads_tagged (by decide) hcookie fun fuel rest hfuel => ?_
    simp only [List.length_append, List.length_singleton] at hfuel
    have hpush : ∀ bytes, pushValue lua (unpackOne lua fuel) bytes typeTable cookie =
        unpackTable lua (unpackOne lua fuel) bytes cookie := fun _ => rfl
    rw [hpush, List.append_assoc, List.append_assoc, List.append_assoc]
    refine unpackTable_chunks (by omega) (by rwa [hcount]) (fun c hc rest => ?_) (fun d hd => ?_)
      (fun d hd => ?_) ?_ ?_
    · obtain ⟨v, -, -, hreads⟩ := exists_of_forall₂ hcsall hc
      have := length_le_flatMap hc
      exact hreads.2 fuel rest (by omega)
    · obtain ⟨p, -, -, -, k, v, hbytes, hk, hv⟩ := exists_of_forall₂ hdsall hd
      have := length_le_flatMap hd
      rw [hbytes, List.length_append] at this
      exact ⟨k, v, hbytes, hk.1, fun rest => hk.2 fuel rest (by omega),
        fun rest => hv.2 fuel rest (by omega)⟩
    · obtain ⟨p, hp, hsame, hsame', -⟩ := exists_of_forall₂ hdsall hd
      obtain ⟨hmem, hout⟩ := List.mem_filter.mp hp
      refine ⟨hsame.key (hkey p hmem), ?_, by rw [hsame'.isNil, hvalue p hmem], ?_⟩
      · rw [hsame.isNil, isNil_of_key (hkey p hmem)]
      · rw [hsame.inArray, hcount]
        simpa using hout
    · refine pairwise_of_forall₂ (fun p p' d d' hP hP' hne => ?_) hdsall
        (hdistinct.sublist List.filter_sublist)
      rw [hP.1.rawEqual hP'.1, hne]
    · obtain ⟨fuel, rfl⟩ := Nat.exists_eq_succ_of_ne_zero (show fuel ≠ 0 by omega)
      rfl

/-- `pack_one` writes the bytes of the same value, whatever the depth. -/
lemma packs_packOne (room : ℕ) : Packs lua (packOne lua room) := by
  induction room with
  | zero => exact fun v b b' _ h => by simp [packOne] at h
  | succ room ih =>
    intro v b b' hsound h
    cases hsound with
    | nil =>
      obtain rfl : b.nil = b' := Option.some.inj h
      exact ⟨_, .nil, adds_push b _, .refl _, reads_tagged (by decide) (by decide)
        fun fuel rest _ => rfl⟩
    | boolean v =>
      obtain rfl : b.boolean v = b' := Option.some.inj h
      refine ⟨_, .boolean v, adds_push b _, .refl _, reads_tagged (by decide) ?_
        fun fuel rest _ => ?_⟩
      · split_ifs <;> decide
      · cases v <;> rfl
    | integer v =>
      obtain rfl : b.integer v.toInt = b' := Option.some.inj h
      obtain ⟨cookie, payload, hadds, hlt, hreal, hget⟩ :=
        adds_integer (b := b) v.le_toInt v.toInt_lt
      refine ⟨_, .integer v, hadds, .refl _, reads_tagged (by decide) hlt fun fuel rest _ => ?_⟩
      have hpush : ∀ bytes, pushValue lua (unpackOne lua fuel) bytes typeNumber cookie =
          (getInteger bytes cookie).map fun r => (.integer (Int64.ofInt r.1), r.2) :=
        fun bytes => if_neg hreal
      rw [hpush, hget, Option.map_some, Int64.ofInt_toInt]
    | real bits =>
      obtain rfl : b.real bits = b' := Option.some.inj h
      refine ⟨_, .real bits, adds_tagged _ _ _, .refl _, reads_tagged (by decide) (by decide)
        fun fuel rest _ => ?_⟩
      have hread := rbRead_append _ rest (LittleEndian.length_encode 8 bits.toNat)
      have hpush : ∀ bytes, pushValue lua (unpackOne lua fuel) bytes typeNumber typeNumberReal =
          (rbRead bytes 8).map fun r =>
            (.real (UInt64.ofNat (LittleEndian.value r.1)), r.2) := fun bytes => rfl
      rw [hpush, hread, Option.map_some, ofNat_value_encode]
    | lightuserdata p =>
      obtain rfl : b.pointer p = b' := Option.some.inj h
      refine ⟨_, .lightuserdata p, adds_tagged _ _ _, .refl _, reads_tagged (by decide) (by decide)
        fun fuel rest _ => ?_⟩
      have hread := rbRead_append _ rest (LittleEndian.length_encode 8 p.toNat)
      have hpush : ∀ bytes, pushValue lua (unpackOne lua fuel) bytes typeUserdata 0 =
          (rbRead bytes 8).map fun r =>
            (.lightuserdata (UInt64.ofNat (LittleEndian.value r.1)), r.2) := fun bytes => rfl
      rw [hpush, hread, Option.map_some, ofNat_value_encode]
    | string s =>
      obtain rfl : b.string s.1 = b' := Option.some.inj h
      obtain ⟨bytes, hadds, hreads⟩ : ∃ bytes, Adds b (b.string s.1) bytes ∧
          Reads lua bytes (.string s) := adds_string s
      exact ⟨bytes, .string s, hadds, .refl _, hreads⟩
    | other => simp [packOne] at h
    | table hkeys hvalues hkey hvalue hdistinct =>
      exact packs_table ih hkeys hvalues hkey hvalue hdistinct h

/-- The loop of `luaseri_unpack` reads one value after the other. -/
lemma unpackLoop_chunks {one : List UInt8 → Option (Value × List UInt8)}
    (cs : List (List UInt8 × Value))
    (hcs : ∀ c ∈ cs, c.1 ≠ [] ∧ ∀ rest, one (c.1 ++ rest) = some (c.2, rest)) {fuel : ℕ}
    (hfuel : (cs.flatMap Prod.fst).length < fuel) :
    unpackLoop one fuel (cs.flatMap Prod.fst) = some (cs.map Prod.snd) := by
  induction cs generalizing fuel with
  | nil =>
    obtain ⟨fuel, rfl⟩ := Nat.exists_eq_succ_of_ne_zero (show fuel ≠ 0 by omega)
    rfl
  | cons c cs ih =>
    obtain ⟨fuel, rfl⟩ := Nat.exists_eq_succ_of_ne_zero (show fuel ≠ 0 by omega)
    obtain ⟨hne, hreads⟩ := hcs c List.mem_cons_self
    obtain ⟨t, bytes, hbytes⟩ := List.exists_cons_of_ne_nil hne
    have hread := hreads (cs.flatMap Prod.fst)
    simp only [List.flatMap_cons, hbytes, List.cons_append, List.length_cons, List.length_append]
      at hfuel hread ⊢
    rw [unpackLoop, hread, Option.bind_some,
      ih (fun c' h => hcs c' (List.mem_cons_of_mem _ h)) (by omega)]
    rfl

end Pack

/-- What is packed is unpacked: the same values in the same order, where a table has the same pairs.

**Proof sketch.** The chain of blocks holds what has been pushed. By induction on the depth, what
`pack_one` writes of a value is read as the same value whatever follows it: an integer in the
shortest form that keeps its sign, a string by its length, and a table as its array under the
indexes and then its other pairs, whose keys no index is, up to the key `nil` that no table has. -/
theorem unpack_pack (lua : Lua) {values : List Value} (hsound : ∀ v ∈ values, lua.Sound v)
    {bytes : List UInt8} (hpack : pack lua values = some bytes) :
    ∃ values', unpack lua bytes = some values' ∧ List.Forall₂ Same values values' := by
  obtain ⟨b, hb, rfl⟩ := Option.map_eq_some_iff.mp hpack
  obtain ⟨cs, hcs, hall⟩ := foldlM_chunks (P := fun v bytes v' => Same v v' ∧ Reads lua bytes v')
    (fun v hv b b' h => packs_packOne _ v b b' (hsound v hv) h) hb
  obtain ⟨hok, hbytes⟩ := hcs ⟨fun _ h => by simp [WriteBlock.init] at h, Nat.zero_le _, rfl⟩
  have hwritten : b.toBytes = cs.flatMap Prod.fst := hbytes
  rw [hok.seri_eq, hwritten]
  refine ⟨cs.map Prod.snd, unpackLoop_chunks cs (fun c hc => ?_) (Nat.lt_succ_self _),
    List.forall₂_map_right_iff.mpr (hall.imp fun _ _ h => h.1)⟩
  obtain ⟨v, -, -, hreads⟩ := exists_of_forall₂ hall hc
  have hlen := length_le_flatMap hc
  exact ⟨hreads.1, fun rest => hreads.2 _ rest (by omega)⟩

/-- Lua with tables whose array has one value at most. -/
def Lua.small : Lua where
  rawlen pairs := if (Value.rawgeti pairs 1).isNil then 0 else 1
  rawlen_lt pairs := by split_ifs <;> decide
  rawgeti_rawlen pairs := by
    split_ifs with h
    · exact fun h => absurd h (lt_irrefl 0)
    · exact fun _ => by simpa using h
  toInteger _ := none
  isNaN _ := false

/-- The call of a service with a number and the table `{ok = true, 70000}`. -/
def callValues : List Value :=
  [.integer (-2), .table false
    [(.string ⟨[111, 107], by decide⟩, .boolean true), (.integer 1, .integer 70000)]]

lemma sound_callValues : ∀ v ∈ callValues, Lua.small.Sound v := by
  simp only [callValues, List.forall_mem_cons]
  refine ⟨.integer _, .table ?_ ?_ ?_ ?_ ?_, by simp⟩
  · simpa using ⟨.string _, .integer _⟩
  · simpa using ⟨.boolean _, .integer _⟩
  · simp [Lua.key]
  · simp [Value.isNil]
  · simp [Value.rawEqual]

theorem unpack_pack_call :
    ∃ values', unpack Lua.small
        [34, 254, 255, 255, 255, 14, 34, 112, 17, 1, 0, 20, 111, 107, 9, 0] = some values' ∧
      List.Forall₂ Same callValues values' :=
  unpack_pack Lua.small sound_callValues (by decide +kernel)

/-- The values that can be packed with the depths that are left: those without functions, threads
and full userdata whose tables are not nested deeper. -/
inductive Fits : ℕ → Value → Prop
  | nil {room : ℕ} : Fits (room + 1) .nil
  | boolean {room : ℕ} (b : Bool) : Fits (room + 1) (.boolean b)
  | integer {room : ℕ} (v : Int64) : Fits (room + 1) (.integer v)
  | real {room : ℕ} (bits : UInt64) : Fits (room + 1) (.real bits)
  | string {room : ℕ} (s : {bytes : List UInt8 // bytes.length < 2 ^ 31}) :
      Fits (room + 1) (.string s)
  | lightuserdata {room : ℕ} (p : UInt64) : Fits (room + 1) (.lightuserdata p)
  | table {room : ℕ} {metapairs : Bool} {pairs : List (Value × Value)}
      (keys : ∀ p ∈ pairs, Fits room p.1) (values : ∀ p ∈ pairs, Fits room p.2) :
      Fits (room + 1) (.table metapairs pairs)

section Fits

variable {lua : Lua}

lemma Fits.pos {room : ℕ} {v : Value} (h : Fits room v) : ∃ room', room = room' + 1 := by
  cases h <;> exact ⟨_, rfl⟩

/-- A loop goes through when every item does, and only then. -/
lemma foldlM_isSome_iff {α : Type*} {f : WriteBlock → α → Option WriteBlock} {P : α → Prop}
    {l : List α} (h : ∀ a ∈ l, ∀ b, (f b a).isSome ↔ P a) (b : WriteBlock) :
    (l.foldlM f b).isSome ↔ ∀ a ∈ l, P a := by
  induction l generalizing b with
  | nil => simp
  | cons a l ih =>
    have hone := h a List.mem_cons_self b
    rw [List.foldlM_cons, List.forall_mem_cons, ← hone]
    cases hf : f b a with
    | none => simp
    | some b₁ =>
      rw [Option.bind_eq_bind, Option.bind_some, ih fun a' h' => h a' (List.mem_cons_of_mem _ h')]
      simp

lemma packPair_isSome_iff {one : WriteBlock → Value → Option WriteBlock} {P : Value → Prop}
    {p : Value × Value} (hk : ∀ b, (one b p.1).isSome ↔ P p.1)
    (hv : ∀ b, (one b p.2).isSome ↔ P p.2) (b : WriteBlock) : (packPair one b p).isSome ↔ P p.1 ∧ P p.2 := by
  rw [packPair, ← hk b]
  cases one b p.1 with
  | none => simp
  | some b₁ => simp [← hv b₁]

lemma bind_isSome_iff {α β : Type*} {x : Option α} {f : α → Option β} {Q : Prop}
    (h : ∀ a, (f a).isSome ↔ Q) : (x.bind f).isSome ↔ x.isSome ∧ Q := by
  cases x with
  | none => simp
  | some a => simp [h a]

/-- The array of a table and its other pairs go through when all its pairs do. -/
lemma wbTable_isSome_iff {one : WriteBlock → Value → Option WriteBlock} {P : Value → Prop}
    (hone : ∀ v, lua.Sound v → ∀ b, (one b v).isSome ↔ P v)
    (hscalar : ∀ v, P v → P .nil ∧ ∀ i, P (.integer i)) {metapairs : Bool}
    {pairs : List (Value × Value)} (hkeys : ∀ p ∈ pairs, lua.Sound p.1)
    (hvalues : ∀ p ∈ pairs, lua.Sound p.2) (hvalue : ∀ p ∈ pairs, p.2.isNil = false)
    (hdistinct : pairs.Pairwise fun p q => Value.rawEqual p.1 q.1 = false) (b : WriteBlock) :
    (wbTable lua one b metapairs pairs).isSome ↔ ∀ p ∈ pairs, P p.1 ∧ P p.2 := by
  have hpair : ∀ p ∈ pairs, ∀ b, (packPair one b p).isSome ↔ P p.1 ∧ P p.2 := fun p hp b =>
    packPair_isSome_iff (hone _ (hkeys p hp)) (hone _ (hvalues p hp)) b
  rw [wbTable]
  split_ifs
  · rw [wbTableMetapairs, Option.isSome_map, foldlM_isSome_iff hpair]
  · have hhash : ∀ b, (wbTableHash one b pairs (lua.rawlen pairs)).isSome ↔
        ∀ p ∈ pairs.filter fun p => !p.1.inArray (lua.rawlen pairs), P p.1 ∧ P p.2 := fun b => by
      rw [wbTableHash, foldlM_skip, Option.isSome_map,
        foldlM_isSome_iff fun p hp b => hpair p (List.mem_of_mem_filter hp) b]
    rw [bind_isSome_iff hhash, wbTableArray,
      foldlM_isSome_iff (P := P) (fun v hv b => hone v (by
        obtain ⟨i, -, rfl⟩ := List.mem_map.mp hv
        exact sound_rawgeti hvalues i) b)]
    have hget := fun i v => mem_iff_rawgeti hdistinct hvalue (i := i) (v := v)
    constructor
    · rintro ⟨harray, hrest⟩ p hp
      cases hin : p.1.inArray (lua.rawlen pairs) with
      | false => exact hrest p (List.mem_filter.mpr ⟨hp, by simp [hin]⟩)
      | true =>
        obtain ⟨v, hv, hpos, hle⟩ := Value.inArray_iff.mp hin
        have hindex : Int64.ofInt (v.toInt.toNat : ℕ) = v := by
          rw [Int.toNat_of_nonneg (by omega), Int64.ofInt_toInt]
        have hval := ((hget v.toInt.toNat p.2).mp (by rw [hindex, ← hv]; exact hp)).2
        have hP : P p.2 := hval ▸ harray _ (List.mem_map_of_mem (List.mem_range'_1.mpr (by omega)))
        exact ⟨hv ▸ (hscalar _ hP).2 v, hP⟩
    · intro hall
      refine ⟨fun v hv => ?_, fun p hp => hall p (List.mem_of_mem_filter hp)⟩
      obtain ⟨i, hi, rfl⟩ := List.mem_map.mp hv
      obtain ⟨hpos, hle⟩ := List.mem_range'_1.mp hi
      have hlast := lua.rawgeti_rawlen pairs (by omega)
      cases hnil : (Value.rawgeti pairs i).isNil with
      | false => exact (hall _ ((hget i _).mpr ⟨hnil, rfl⟩)).2
      | true =>
        have hsome := (hall _ ((hget (lua.rawlen pairs) _).mpr ⟨hlast, rfl⟩)).2
        have heq : Value.rawgeti pairs i = .nil := by
          cases hv : Value.rawgeti pairs i <;> simp [hv, Value.isNil] at hnil ⊢
        exact heq ▸ (hscalar _ hsome).1

lemma packOne_isSome_iff (room : ℕ) {v : Value} (hsound : lua.Sound v) (b : WriteBlock) :
    (packOne lua room b v).isSome ↔ Fits room v := by
  induction room generalizing v b with
  | zero =>
    refine ⟨fun h => by simp [packOne] at h, fun h => ?_⟩
    obtain ⟨room, hroom⟩ := h.pos
    omega
  | succ room ih =>
    cases hsound with
    | nil => exact ⟨fun _ => .nil, fun _ => rfl⟩
    | boolean v => exact ⟨fun _ => .boolean v, fun _ => rfl⟩
    | integer v => exact ⟨fun _ => .integer v, fun _ => rfl⟩
    | real bits => exact ⟨fun _ => .real bits, fun _ => rfl⟩
    | string s => exact ⟨fun _ => .string s, fun _ => rfl⟩
    | lightuserdata p => exact ⟨fun _ => .lightuserdata p, fun _ => rfl⟩
    | other => exact ⟨fun h => by simp [packOne] at h, fun h => nomatch h⟩
    | table hkeys hvalues hkey hvalue hdistinct =>
      rw [packOne, wbTable_isSome_iff (P := Fits room) (fun v hv b => ih hv b) ?_ hkeys hvalues
        hvalue hdistinct]
      · refine ⟨fun h => .table (fun p hp => (h p hp).1) fun p hp => (h p hp).2, fun h => ?_⟩
        cases h with
        | table hk hv => exact fun p hp => ⟨hk p hp, hv p hp⟩
      · intro v hv
        obtain ⟨room, rfl⟩ := hv.pos
        exact ⟨.nil, fun i => .integer i⟩

end Fits

/-- A message is packed whatever is in it, unless it has a function, a thread or a full userdata, or
tables that are nested deeper than `MAX_DEPTH`. -/
theorem pack_isSome_iff (lua : Lua) {values : List Value} (hsound : ∀ v ∈ values, lua.Sound v) :
    (pack lua values).isSome ↔ ∀ v ∈ values, Fits (maxDepth + 1) v := by
  rw [pack, Option.isSome_map]
  exact foldlM_isSome_iff (fun v hv b => packOne_isSome_iff _ (hsound v hv) b) _

theorem pack_isSome_call :
    (pack Lua.small callValues).isSome ↔ ∀ v ∈ callValues, Fits (maxDepth + 1) v :=
  pack_isSome_iff Lua.small sound_callValues

end Skynet.Seri
