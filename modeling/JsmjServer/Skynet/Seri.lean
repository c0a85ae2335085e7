import JsmjServer.Lib.LittleEndian
import Mathlib.Data.List.Basic

set_option relaxedAutoImplicit false
set_option autoImplicit false

/-!
# The messages between services

`lualib-src/lua-seri.c`: how the arguments of a call are packed into one message and unpacked by the
service that gets it.

## Main definitions

* `Skynet.Seri.Value` — what can be an argument.
* `Skynet.Seri.WriteBlock` — the chain of blocks that a message is written to.
* `Skynet.Seri.pack`, `Skynet.Seri.unpack` — `luaseri_pack` and `luaseri_unpack`.

## Design

A table is the list of its pairs in the order in which `lua_next` comes to them, or `__pairs` when
its metatable has it, and a table in a table is a part of it, so that a table that contains itself
is no value here. What Lua makes of a table or a floating-point number is the structure `Lua`. A
float is its eight bytes and a pointer its address, on a machine that stores the least byte first.
No length reaches `2 ^ 31`.
-/

namespace Skynet.Seri

/-! ### Values -/

/-- A Lua value; `other` is a function, a thread or a full userdata. -/
inductive Value
  | nil
  | boolean (b : Bool)
  | integer (v : Int64)
  | real (bits : UInt64)
  | string (s : {bytes : List UInt8 // bytes.length < 2 ^ 31})
  | lightuserdata (p : UInt64)
  | table (metapairs : Bool) (pairs : List (Value × Value))
  | other

namespace Value

/-- `lua_isnil`. -/
def isNil : Value → Bool
  | .nil => true
  | _ => false

/-- `lua_rawequal`, where tables are two. -/
def rawEqual : Value → Value → Bool
  | .boolean a, .boolean b => a == b
  | .integer a, .integer b => a == b
  | .real a, .real b => a == b
  | .string a, .string b => a == b
  | .lightuserdata a, .lightuserdata b => a == b
  | _, _ => false

/-- Whether the key is an index from 1 to `size`. -/
def inArray (size : ℕ) : Value → Bool
  | .integer v => 0 < v.toInt && v.toInt ≤ size
  | _ => false

/-- `lua_rawgeti`. -/
def rawgeti (pairs : List (Value × Value)) (i : ℕ) : Value :=
  match pairs.find? fun p => rawEqual (.integer (Int64.ofInt i)) p.1 with
  | none => .nil
  | some p => p.2

end Value

/-- What Lua does with the keys of a table. -/
structure Lua where
  /-- `lua_rawlen`, a border of the table. -/
  rawlen : List (Value × Value) → ℕ
  rawlen_lt (pairs : List (Value × Value)) : rawlen pairs < 2 ^ 31
  rawgeti_rawlen (pairs : List (Value × Value)) :
    0 < rawlen pairs → (Value.rawgeti pairs (rawlen pairs)).isNil = false
  /-- The integer that a float is equal to. -/
  toInteger : UInt64 → Option Int64
  isNaN : UInt64 → Bool

/-- The key under which a value is stored, unless it is none. -/
def Lua.key (lua : Lua) : Value → Option Value
  | .nil => none
  | .real bits =>
    if lua.isNaN bits then none
    else match lua.toInteger bits with
      | some v => some (.integer v)
      | none => some (.real bits)
  | k => some k

/-- `lua_rawset`. -/
def Lua.rawset (lua : Lua) (pairs : List (Value × Value)) (k v : Value) :
    Option (List (Value × Value)) :=
  (lua.key k).map fun k =>
    let rest := pairs.filter fun p => !Value.rawEqual k p.1
    if v.isNil then rest else rest ++ [(k, v)]

/-! ### Blocks -/

/-- `BLOCK_SIZE`. -/
def blockSize : ℕ := 128

/-- `struct write_block`: the blocks before the current one, what is written of that one, and the
length. -/
structure WriteBlock where
  full : List (List UInt8)
  current : List UInt8
  len : ℕ

namespace WriteBlock

/-- `wb_init`. -/
def init : WriteBlock := ⟨[], [], 0⟩

/-- Bytes are copied to the current block. -/
def copy (b : WriteBlock) (buffer : List UInt8) : WriteBlock :=
  ⟨b.full, b.current ++ buffer, b.len + buffer.length⟩

/-- The current block gets a next one. -/
def next (b : WriteBlock) : WriteBlock := ⟨b.full ++ [b.current], [], b.len⟩

/-- The copying of `wb_push`, with fuel for the turns of `_again`. -/
def pushLoop : ℕ → WriteBlock → List UInt8 → WriteBlock
  | 0, b, _ => b
  | fuel + 1, b, buffer =>
    let room := blockSize - b.current.length
    if buffer.length ≤ room then b.copy buffer
    else pushLoop fuel (b.copy (buffer.take room)).next (buffer.drop room)

/-- `wb_push`. -/
def push (b : WriteBlock) (buffer : List UInt8) : WriteBlock :=
  pushLoop (buffer.length + 1) (if b.current.length = blockSize then b.next else b) buffer

/-- The loop of `seri`. -/
def seriLoop : List (List UInt8) → ℕ → List UInt8
  | [], _ => []
  | block :: blocks, len =>
    if len = 0 then []
    else if len ≥ blockSize then block.take blockSize ++ seriLoop blocks (len - blockSize)
    else block.take len

/-- `seri`. -/
def seri (b : WriteBlock) : List UInt8 := seriLoop (b.full ++ [b.current]) b.len

end WriteBlock

/-! ### Packing -/

/-- `TYPE_NIL`. -/
def typeNil : ℕ := 0

/-- `TYPE_BOOLEAN`. -/
def typeBoolean : ℕ := 1

/-- `TYPE_NUMBER`. -/
def typeNumber : ℕ := 2

/-- `TYPE_NUMBER_REAL`. -/
def typeNumberReal : ℕ := 8

/-- `TYPE_USERDATA`. -/
def typeUserdata : ℕ := 3

/-- `TYPE_SHORT_STRING`. -/
def typeShortString : ℕ := 4

/-- `TYPE_LONG_STRING`. -/
def typeLongString : ℕ := 5

/-- `TYPE_TABLE`. -/
def typeTable : ℕ := 6

/-- `MAX_COOKIE`. -/
def maxCookie : ℕ := 32

/-- `MAX_DEPTH`. -/
def maxDepth : ℕ := 32

/-- `COMBINE_TYPE`. -/
def combineType (t v : ℕ) : UInt8 := UInt8.ofNat (t ||| v <<< 3)

namespace WriteBlock

/-- The type byte, and what follows it. -/
def tagged (b : WriteBlock) (t cookie : ℕ) (buffer : List UInt8) : WriteBlock :=
  (b.push [combineType t cookie]).push buffer

/-- `wb_nil`. -/
def nil (b : WriteBlock) : WriteBlock := b.push [combineType typeNil 0]

/-- `wb_boolean`. -/
def boolean (b : WriteBlock) (v : Bool) : WriteBlock :=
  b.push [combineType typeBoolean (if v then 1 else 0)]

/-- `wb_integer`. -/
def integer (b : WriteBlock) (v : ℤ) : WriteBlock :=
  if v = 0 then b.push [combineType typeNumber 0]
  else if v ≠ v.bmod (2 ^ 32) then b.tagged typeNumber 6 (LittleEndian.encodeSigned 8 v)
  else if v < 0 then b.tagged typeNumber 4 (LittleEndian.encodeSigned 4 v)
  else if v < 0x100 then b.tagged typeNumber 1 (LittleEndian.encode 1 v.toNat)
  else if v < 0x10000 then b.tagged typeNumber 2 (LittleEndian.encode 2 v.toNat)
  else b.tagged typeNumber 4 (LittleEndian.encode 4 v.toNat)

/-- `wb_real`. -/
def real (b : WriteBlock) (bits : UInt64) : WriteBlock :=
  b.tagged typeNumber typeNumberReal (LittleEndian.encode 8 bits.toNat)

/-- `wb_pointer`. -/
def pointer (b : WriteBlock) (p : UInt64) : WriteBlock :=
  b.tagged typeUserdata 0 (LittleEndian.encode 8 p.toNat)

/-- `wb_string`. -/
def string (b : WriteBlock) (s : List UInt8) : WriteBlock :=
  if s.length < maxCookie then
    let b := b.push [combineType typeShortString s.length]
    if s.length > 0 then b.push s else b
  else if s.length < 0x10000 then
    (b.tagged typeLongString 2 (LittleEndian.encode 2 s.length)).push s
  else (b.tagged typeLongString 4 (LittleEndian.encode 4 s.length)).push s

/-- The head of `wb_table_array`. -/
def arraySize (b : WriteBlock) (size : ℕ) : WriteBlock :=
  if size ≥ maxCookie - 1 then (b.push [combineType typeTable (maxCookie - 1)]).integer size
  else b.push [combineType typeTable size]

end WriteBlock

section Pack

variable (lua : Lua)

/-- A key and its value are packed. -/
def packPair (one : WriteBlock → Value → Option WriteBlock) (b : WriteBlock) (p : Value × Value) :
    Option WriteBlock :=
  (one b p.1).bind fun b => one b p.2

/-- `wb_table_array`. -/
def wbTableArray (one : WriteBlock → Value → Option WriteBlock) (b : WriteBlock)
    (pairs : List (Value × Value)) (size : ℕ) : Option WriteBlock :=
  ((List.range' 1 size).map (Value.rawgeti pairs)).foldlM one (b.arraySize size)

/-- `wb_table_hash`. -/
def wbTableHash (one : WriteBlock → Value → Option WriteBlock) (b : WriteBlock)
    (pairs : List (Value × Value)) (size : ℕ) : Option WriteBlock :=
  let pack (b : WriteBlock) (p : Value × Value) : Option WriteBlock :=
    if p.1.inArray size then some b else packPair one b p
  (pairs.foldlM pack b).map WriteBlock.nil

/-- `wb_table_metapairs`. -/
def wbTableMetapairs (one : WriteBlock → Value → Option WriteBlock) (b : WriteBlock)
    (pairs : List (Value × Value)) : Option WriteBlock :=
  (pairs.foldlM (packPair one) (b.push [combineType typeTable 0])).map WriteBlock.nil

/-- `wb_table`. -/
def wbTable (one : WriteBlock → Value → Option WriteBlock) (b : WriteBlock) (metapairs : Bool)
    (pairs : List (Value × Value)) : Option WriteBlock :=
  if metapairs then wbTableMetapairs one b pairs
  else
    (wbTableArray one b pairs (lua.rawlen pairs)).bind fun b =>
      wbTableHash one b pairs (lua.rawlen pairs)

/-- `pack_one`, with the depths that are left. -/
def packOne : ℕ → WriteBlock → Value → Option WriteBlock
  | 0, _, _ => none
  | _ + 1, b, .nil => some b.nil
  | _ + 1, b, .boolean v => some (b.boolean v)
  | _ + 1, b, .integer v => some (b.integer v.toInt)
  | _ + 1, b, .real bits => some (b.real bits)
  | _ + 1, b, .string s => some (b.string s.1)
  | _ + 1, b, .lightuserdata p => some (b.pointer p)
  | room + 1, b, .table metapairs pairs => wbTable lua (packOne room) b metapairs pairs
  | _ + 1, _, .other => none

/-- `luaseri_pack` with `pack_from`. -/
def pack (values : List Value) : Option (List UInt8) :=
  (values.foldlM (packOne lua (maxDepth + 1)) WriteBlock.init).map WriteBlock.seri

end Pack

/-! ### Unpacking -/

/-- `rb_read`. -/
def rbRead (bytes : List UInt8) (size : ℕ) : Option (List UInt8 × List UInt8) :=
  if bytes.length < size then none else some (bytes.take size, bytes.drop size)

/-- `get_integer`. -/
def getInteger (bytes : List UInt8) : ℕ → Option (ℤ × List UInt8)
  | 0 => some (0, bytes)
  | 1 => (rbRead bytes 1).map fun r => (LittleEndian.value r.1, r.2)
  | 2 => (rbRead bytes 2).map fun r => (LittleEndian.value r.1, r.2)
  | 4 => (rbRead bytes 4).map fun r => (LittleEndian.signed r.1, r.2)
  | 6 => (rbRead bytes 8).map fun r => (LittleEndian.signed r.1, r.2)
  | _ => none

/-- `get_buffer`; Lua makes no string of a negative length. -/
def getBuffer (bytes : List UInt8) (len : ℕ) : Option (Value × List UInt8) :=
  if h : len < 2 ^ 31 then
    if bytes.length < len then none
    else
      some (.string ⟨bytes.take len, Nat.lt_of_le_of_lt (List.length_take_le len bytes) h⟩,
        bytes.drop len)
  else none

/-- The size of the array in `unpack_table`. -/
def getArraySize (bytes : List UInt8) (cookie : ℕ) : Option (ℕ × List UInt8) :=
  if cookie = maxCookie - 1 then
    match bytes with
    | [] => none
    | t :: bytes =>
      let cookie := (t >>> 3).toNat
      if (t &&& 7).toNat ≠ typeNumber ∨ cookie = typeNumberReal then none
      else (getInteger bytes cookie).map fun r => ((r.1.bmod (2 ^ 32)).toNat, r.2)
  else some (cookie, bytes)

section Unpack

variable (lua : Lua)

/-- The first loop of `unpack_table`: `size` values from the index `i` on. -/
def readArray (one : List UInt8 → Option (Value × List UInt8)) :
    ℕ → ℕ → List (Value × Value) → List UInt8 → Option (List (Value × Value) × List UInt8)
  | 0, _, pairs, bytes => some (pairs, bytes)
  | size + 1, i, pairs, bytes =>
    (one bytes).bind fun r =>
      (lua.rawset pairs (.integer (Int64.ofInt i)) r.1).bind fun pairs =>
        readArray one size (i + 1) pairs r.2

/-- The second loop of `unpack_table`, with fuel for its turns. -/
def readPairs (one : List UInt8 → Option (Value × List UInt8)) :
    ℕ → List (Value × Value) → List UInt8 → Option (Value × List UInt8)
  | 0, _, _ => none
  | fuel + 1, pairs, bytes =>
    (one bytes).bind fun k =>
      if k.1.isNil then some (.table false pairs, k.2)
      else
        (one k.2).bind fun v =>
          (lua.rawset pairs k.1 v.1).bind fun pairs => readPairs one fuel pairs v.2

/-- `unpack_table`. -/
def unpackTable (one : List UInt8 → Option (Value × List UInt8)) (bytes : List UInt8)
    (cookie : ℕ) : Option (Value × List UInt8) :=
  (getArraySize bytes cookie).bind fun r =>
    (readArray lua one r.1 1 [] r.2).bind fun t => readPairs lua one (t.2.length + 1) t.1 t.2

/-- `push_value`. -/
def pushValue (one : List UInt8 → Option (Value × List UInt8)) (bytes : List UInt8)
    (type cookie : ℕ) : Option (Value × List UInt8) :=
  match type with
  | 0 => some (.nil, bytes)
  | 1 => some (.boolean (cookie ≠ 0), bytes)
  | 2 =>
    if cookie = typeNumberReal then
      (rbRead bytes 8).map fun r => (.real (UInt64.ofNat (LittleEndian.value r.1)), r.2)
    else (getInteger bytes cookie).map fun r => (.integer (Int64.ofInt r.1), r.2)
  | 3 => (rbRead bytes 8).map fun r =>
    (.lightuserdata (UInt64.ofNat (LittleEndian.value r.1)), r.2)
  | 4 => getBuffer bytes cookie
  | 5 =>
    if cookie = 2 ∨ cookie = 4 then
      (rbRead bytes cookie).bind fun r => getBuffer r.2 (LittleEndian.value r.1)
    else none
  | 6 => unpackTable lua one bytes cookie
  | _ => none

/-- `unpack_one`, with fuel for the tables in tables. -/
def unpackOne : ℕ → List UInt8 → Option (Value × List UInt8)
  | 0, _ => none
  | _ + 1, [] => none
  | fuel + 1, t :: bytes => pushValue lua (unpackOne fuel) bytes (t &&& 7).toNat (t >>> 3).toNat

/-- The loop of `luaseri_unpack`, with fuel for its turns. -/
def unpackLoop (one : List UInt8 → Option (Value × List UInt8)) :
    ℕ → List UInt8 → Option (List Value)
  | 0, _ => none
  | _ + 1, [] => some []
  | fuel + 1, t :: bytes =>
    (one (t :: bytes)).bind fun r => (unpackLoop one fuel r.2).map (r.1 :: ·)

/-- `luaseri_unpack`. -/
def unpack (bytes : List UInt8) : Option (List Value) :=
  unpackLoop (unpackOne lua (bytes.length + 1)) (bytes.length + 1) bytes

end Unpack

end Skynet.Seri
