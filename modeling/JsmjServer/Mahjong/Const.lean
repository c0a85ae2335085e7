import Mathlib.Data.List.Basic
import Mathlib.Data.Nat.Basic
import Mathlib.Data.Int.Basic
import Mathlib.Tactic.IntervalCases

set_option relaxedAutoImplicit false
set_option autoImplicit false

/-!
# Tiles and operations

The constants of `mj_core/MJConst.lua` and the tile check of `mj_core/MJCard.lua`.

A tile is a byte `suit * 10 + point`: the suits Wan, Tiao and Tong take `1..9`, `11..19` and
`21..29`, the honours `31..37`, the flowers `41..48`, and `51..54`, `61`, `62` are the special
tiles. The byte `0` is the absent tile `kCardNull`. Clients speak an older byte code, which
`fromOld2NowCardByteMap` translates; most bytes denote no tile there.

## Main definitions

* `Mahjong.MJCard.isValid`, `Mahjong.IsTile` — the check of `MJCard`; suit and honour tiles.
* `Mahjong.Oper` — the operations a client may send or the server may record.
* `Mahjong.fromOld2NowCardByteMap` — the tile denoted by a client byte, if any.
-/

namespace Mahjong

/-- The absent tile. -/
def kCardNull : ℕ := 0

/-- The first honour, `Zi1`; suit tiles lie below it. -/
def Zi1 : ℕ := 31

/-- The fourth wind, `Zi4`. -/
def Zi4 : ℕ := 34

/-- The red dragon `Zi5`, the wild tile of hongzhong mahjong. -/
def Zi5 : ℕ := 35

/-- The last honour, `Zi7`, and the last index of a count map. -/
def Zi7 : ℕ := 37

/-- `MJCard:isValid` of the tile built from a byte: the byte denotes a tile. -/
def MJCard.isValid (byte : ℕ) : Bool :=
  let suit := byte / 10
  let point := byte % 10
  if suit ≤ 2 then 1 ≤ point && point ≤ 9
  else if suit = 3 then 1 ≤ point && point ≤ 7
  else if suit = 4 then 1 ≤ point && point ≤ 8
  else if suit = 5 then 1 ≤ point && point ≤ 4
  else if suit = 6 then point == 1 || point == 2
  else false

/-- A tile of one of the three suits or an honour, the tiles a count map has room for. -/
def IsTile (t : ℕ) : Prop := 1 ≤ t ∧ t ≤ 37 ∧ t % 10 ≠ 0

instance : DecidablePred IsTile := fun _ => inferInstanceAs (Decidable (_ ∧ _ ∧ _))

/-- Suit and honour tiles are valid. -/
lemma IsTile.isValid {t : ℕ} (h : IsTile t) : MJCard.isValid t = true := by
  obtain ⟨h1, h2, h3⟩ := h
  interval_cases t <;> first | rfl | exact absurd rfl h3

/-- The operations `kOper...`, in the order of their codes `0..19`. -/
inductive Oper
  | null | hu | peng | mg | ag | mxg | lChi | mChi | rChi | buHua | play | cancel | ting
  | newCard | syncData | tuoGuan | testNeedCard | hg | aiTip | abandonSuit
  deriving DecidableEq, Repr

/-- The operations, listed in the order of their codes. -/
def Oper.all : List Oper :=
  [.null, .hu, .peng, .mg, .ag, .mxg, .lChi, .mChi, .rChi, .buHua, .play, .cancel, .ting,
    .newCard, .syncData, .tuoGuan, .testNeedCard, .hg, .aiTip, .abandonSuit]

/-- The numeric code of an operation. -/
def Oper.code : Oper → ℕ
  | .null => 0 | .hu => 1 | .peng => 2 | .mg => 3 | .ag => 4 | .mxg => 5 | .lChi => 6
  | .mChi => 7 | .rChi => 8 | .buHua => 9 | .play => 10 | .cancel => 11 | .ting => 12
  | .newCard => 13 | .syncData => 14 | .tuoGuan => 15 | .testNeedCard => 16 | .hg => 17
  | .aiTip => 18 | .abandonSuit => 19

/-- The operation with a given code; codes outside `0..19` name none. -/
def Oper.ofCode (c : ℤ) : Option Oper := Oper.all.find? fun o => (o.code : ℤ) = c

/-- Decoding the code of an operation gives it back. -/
@[simp] lemma Oper.ofCode_code (o : Oper) : Oper.ofCode o.code = some o := by
  cases o <;> rfl

/-- Distinct operations have distinct codes. -/
lemma Oper.code_injective : Function.Injective Oper.code := by
  intro a b h
  have ha := Oper.ofCode_code a
  rw [h, Oper.ofCode_code] at ha
  exact (Option.some.inj ha).symm

/-- The tile denoted by a byte of the clients' code, `nil` when the byte denotes none. -/
def fromOld2NowCardByteMap (b : ℤ) : Option ℕ :=
  if 65 ≤ b ∧ b ≤ 73 then some (b - 64).toNat
  else if 129 ≤ b ∧ b ≤ 137 then some (b - 118).toNat
  else if 97 ≤ b ∧ b ≤ 105 then some (b - 76).toNat
  else if 170 ≤ b ∧ b ≤ 173 then some (b - 139).toNat
  else if 206 ≤ b ∧ b ≤ 208 then some (b - 171).toNat
  else if 241 ≤ b ∧ b ≤ 248 then some (b - 200).toNat
  else if 249 ≤ b ∧ b ≤ 252 then some (b - 198).toNat
  else if 253 ≤ b ∧ b ≤ 254 then some (b - 192).toNat
  else none

end Mahjong
