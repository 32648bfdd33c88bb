import Mathlib.Data.Nat.Bitwise
import Mathlib.Data.List.Basic

/-!
# C integer operations on words

Words are natural numbers below a power of two.  A shift of a 32-bit operand
reads its count modulo 32, as the x86-64 shift instructions do, and an `int`
result is sign extended when it is stored in a 64-bit word.  The bit counting
builtins take a 32-bit argument and have no value at zero.
-/

namespace ForsKernel.Lib.CInt

/-- `1 << count` of type `int`, converted to a 64-bit word. -/
def intShlOne (count : Nat) : Nat :=
  if count % 32 < 31 then 2 ^ (count % 32) else 2 ^ 64 - 2 ^ 31

/-- `1U << count`, converted to a 64-bit word. -/
def uintShlOne (count : Nat) : Nat :=
  2 ^ (count % 32)

/-- `~word` on 64 bits. -/
def notWord (word : Nat) : Nat :=
  2 ^ 64 - 1 - word

/-- `__builtin_clz`. -/
def builtinClz (word : Nat) : Option Nat :=
  if word % 2 ^ 32 = 0 then none else some (31 - Nat.log2 (word % 2 ^ 32))

/-- `__builtin_ctz`. -/
def builtinCtz (word : Nat) : Option Nat :=
  (List.range 32).find? fun bit => word.testBit bit

@[simp]
theorem intShlOne_of_lt
    {count : Nat}
    (small : count < 31) :
    intShlOne count = 2 ^ count := by
  have low : count % 32 = count := Nat.mod_eq_of_lt (by omega)
  rw [intShlOne, low, if_pos small]

theorem builtinCtz_two_pow
    {k : Nat}
    (small : k < 32) :
    builtinCtz (2 ^ k) = some k := by
  rw [builtinCtz, List.find?_eq_some_iff_getElem]
  refine ⟨by simp, k, by simpa using small, by simp, ?_⟩
  intro earlier before
  rw [List.getElem_range, Nat.testBit_two_pow]
  simp
  omega

/-- `1 << 31` is negative, but its lowest set bit is where it should be. -/
theorem builtinCtz_sign : builtinCtz (2 ^ 64 - 2 ^ 31) = some 31 := by
  decide

theorem builtinClz_of_lt
    {word : Nat}
    (positive : 0 < word)
    (small : word < 2 ^ 32) :
    builtinClz word = some (31 - Nat.log2 word) := by
  rw [builtinClz, Nat.mod_eq_of_lt small, if_neg (by omega)]

/-! ## Operations inside their defined range -/

/-- A bit operation with the operands that decide whether it has a value. -/
inductive BitOp where
  | shl (width places : Nat)
  | bitCount (word : Nat)
deriving DecidableEq, Repr

/--
A shift count is below the width of the shifted type.  The argument of a bit
counting builtin is not zero and is not changed by its conversion to 32 bits.
-/
def BitOp.Defined : BitOp → Prop
  | .shl width places => places < width
  | .bitCount word => word % 2 ^ 32 ≠ 0 ∧ word < 2 ^ 32

instance : (op : BitOp) → Decidable op.Defined
  | .shl width places => inferInstanceAs (Decidable (places < width))
  | .bitCount word =>
      inferInstanceAs (Decidable (word % 2 ^ 32 ≠ 0 ∧ word < 2 ^ 32))

end ForsKernel.Lib.CInt
