import Mathlib.Algebra.GroupWithZero.Nat

/-! # Tables of a few places

A numeral that stands for a place needs the number of places not to be zero. The proofs are named here once, so that
two tables of one size have the same places.
-/

namespace H5Server.Lib

instance neZero_two : NeZero 2 := ⟨by decide⟩

instance neZero_three : NeZero 3 := ⟨by decide⟩

instance neZero_four : NeZero 4 := ⟨by decide⟩

instance neZero_five : NeZero 5 := ⟨by decide⟩

end H5Server.Lib
