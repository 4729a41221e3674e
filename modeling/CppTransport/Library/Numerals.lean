import Mathlib.Algebra.Ring.Nat

/-!
# Numerals

The numeral `2` stands for an element of a ring since it is at least two, and `0` for an element of `Fin n` since `n`
is not zero. Here these facts have names, for the numerals of formulas over a ring and for the indices of short
tuples: a definition then mentions the fact, and two definitions with the same numeral mention the same one.
-/

namespace CppTransport.Library.Numerals

/-! ### Elements of a ring -/

scoped instance atLeastTwo_two : Nat.AtLeastTwo 2 := ⟨by decide⟩

scoped instance atLeastTwo_three : Nat.AtLeastTwo 3 := ⟨by decide⟩

scoped instance atLeastTwo_four : Nat.AtLeastTwo 4 := ⟨by decide⟩

scoped instance atLeastTwo_six : Nat.AtLeastTwo 6 := ⟨by decide⟩

scoped instance atLeastTwo_eight : Nat.AtLeastTwo 8 := ⟨by decide⟩

scoped instance atLeastTwo_ten : Nat.AtLeastTwo 10 := ⟨by decide⟩

scoped instance atLeastTwo_thirtyTwo : Nat.AtLeastTwo 32 := ⟨by decide⟩

/-! ### Indices -/

scoped instance (priority := high) neZero_succ (n : ℕ) : NeZero (n + 1) := ⟨n.succ_ne_zero⟩

scoped instance (priority := high) neZero_one : NeZero 1 := neZero_succ 0

scoped instance (priority := high) neZero_two : NeZero 2 := neZero_succ 1

scoped instance (priority := high) neZero_three : NeZero 3 := neZero_succ 2

end CppTransport.Library.Numerals
