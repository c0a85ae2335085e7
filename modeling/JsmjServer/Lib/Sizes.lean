import Mathlib.Algebra.GroupWithZero.Nat
import Mathlib.Data.Nat.Basic

set_option relaxedAutoImplicit false
set_option autoImplicit false

/-!
# Sizes of index types

The seats of a table, the octets of a mask and the codes of an operation are the elements of a
`Fin n` for a fixed `n`. A numeral of such a type asks for an instance of `NeZero n`; with an
instance for each size in use all modules find the same one, and at once.
-/

namespace Sizes

instance neZero_two : NeZero 2 := ⟨Nat.succ_ne_zero 1⟩

instance neZero_three : NeZero 3 := ⟨Nat.succ_ne_zero 2⟩

instance neZero_four : NeZero 4 := ⟨Nat.succ_ne_zero 3⟩

instance neZero_sixteen : NeZero 16 := ⟨Nat.succ_ne_zero 15⟩

end Sizes
