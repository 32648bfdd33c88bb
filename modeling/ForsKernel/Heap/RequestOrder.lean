import Mathlib.Order.Bounds.Basic
import ForsKernel.Heap.Runs

/-!
# From a size to an order

`balloc` rounds a request up to a power of two by counting leading zeros.  The
count is taken of a 32-bit word but subtracted from 64, so every shift it
leads to is out of range.  A processor which reads shift counts modulo 32
nevertheless finds the right order for every request up to 2 ^ 30 bytes.
-/

namespace ForsKernel.Buddy

open ForsKernel.Lib.CInt

/-- A block of this order holds a request of `size` bytes and its header. -/
def FitsOrder
    (heap : Heap)
    (size order : Nat) :
    Prop :=
  heap.minOrder ≤ order ∧ size + sizeofBuddyBlock ≤ 2 ^ order

instance
    (heap : Heap)
    (size order : Nat) :
    Decidable (FitsOrder heap size order) :=
  inferInstanceAs (Decidable (_ ∧ _))

/-! ## The result on x86-64 -/

section Result

variable
  {heap : Heap}
  {size : Nat}

/-- The logarithm of the size with its header, rounded up. -/
theorem fits_iff_log2
    (heap : Heap)
    (size order : Nat) :
    FitsOrder heap size order ↔
      heap.minOrder ≤ order ∧ Nat.log2 (size + 23) < order := by
  have notZero : size + 23 ≠ 0 := by omega
  rw [FitsOrder, sizeofBuddyBlock, Nat.log2_lt notZero]
  omega

/-- The rounded size has its lowest set bit at the order wanted. -/
theorem ctz_rounded
    {order log : Nat}
    (minSmall : order ≤ 30)
    (logSmall : log ≤ 30) :
    builtinCtz
        (if intShlOne (33 + log) < uintShlOne order then uintShlOne order
        else intShlOne (33 + log)) =
      some (max order (log + 1)) := by
  have minShift : uintShlOne order = 2 ^ order := by
    rw [uintShlOne, Nat.mod_eq_of_lt (by omega)]
  have count : (33 + log) % 32 = log + 1 := by omega
  have minBound : 2 ^ order ≤ 2 ^ 30 := Nat.pow_le_pow_right (by omega) minSmall
  rw [minShift]
  by_cases top : log = 30
  · -- the shift reaches the sign bit of `int`
    have shift : intShlOne (33 + log) = 2 ^ 64 - 2 ^ 31 := by
      rw [intShlOne, count, if_neg (by omega)]
    rw [shift, if_neg (by omega), builtinCtz_sign, Nat.max_eq_right (by omega),
      top]
  · have shift : intShlOne (33 + log) = 2 ^ (log + 1) := by
      rw [intShlOne, count, if_pos (by omega)]
    rw [shift]
    by_cases below : log + 1 < order
    · rw [if_pos (Nat.pow_lt_pow_right (by omega) below),
        builtinCtz_two_pow (by omega), Nat.max_eq_left (by omega)]
    · rw [if_neg (Nat.not_lt.mpr (Nat.pow_le_pow_right (by omega) (by omega))),
        builtinCtz_two_pow (by omega), Nat.max_eq_right (by omega)]

/-- With shift counts read modulo 32, the order is the least which fits. -/
theorem requestOrder_spec
    (minSmall : heap.minOrder ≤ 30)
    (positive : 1 ≤ size)
    (small : size ≤ 2 ^ 30) :
    ∃ order, requestOrder heap size = some order ∧
      IsLeast {order | FitsOrder heap size order} order ∧ order ≤ 31 := by
  have logSmall : Nat.log2 (size + 23) ≤ 30 := by
    rw [← Nat.lt_succ_iff, Nat.log2_lt (by omega)]
    omega
  refine ⟨max heap.minOrder (Nat.log2 (size + 23) + 1), ?_, ⟨?_, ?_⟩, ?_⟩
  · have wide : (size + sizeofBuddyBlock) % 2 ^ 64 = size + 24 :=
      Nat.mod_eq_of_lt (by rw [sizeofBuddyBlock]; omega)
    have pred : (size + 24 + (2 ^ 64 - 1)) % 2 ^ 64 = size + 23 := by omega
    have zeros : 64 - (31 - Nat.log2 (size + 23)) =
        33 + Nat.log2 (size + 23) := by
      omega
    rw [requestOrder]
    simp only [wide, pred]
    rw [if_neg (by omega), builtinClz_of_lt (by omega) (by omega),
      Option.map_some, Option.bind_some, zeros]
    exact ctz_rounded minSmall logSmall
  · apply (fits_iff_log2 _ _ _).mpr
    omega
  · intro other fits
    have larger := (fits_iff_log2 _ _ _).mp fits
    omega
  · omega

end Result

/-! ## The operations on the way -/

/--
The rounding up of `balloc` with the bit operations it performs, up to the
first builtin which has no value.
-/
def tracedRound (size : Nat) : List BitOp × Option Nat :=
  if size = 1 then
    ([], some 1)
  else
    let word := (size + (2 ^ 64 - 1)) % 2 ^ 64
    let counts := (builtinClz word).map fun zeros => 64 - zeros
    (.bitCount word :: (counts.map (BitOp.shl 32)).toList,
      counts.map intShlOne)

/-- `requestOrder` with the bit operations it performs. -/
def tracedOrder
    (heap : Heap)
    (size : Nat) :
    List BitOp × Option Nat :=
  let rounded := tracedRound ((size + sizeofBuddyBlock) % 2 ^ 64)
  match rounded.2 with
  | none => (rounded.1, none)
  | some size =>
      let word :=
        if size < uintShlOne heap.minOrder then uintShlOne heap.minOrder
        else size
      (rounded.1 ++ [.shl 32 heap.minOrder, .bitCount word],
        builtinCtz word)

theorem tracedRound_snd (size : Nat) :
    (tracedRound size).2 =
      if size = 1 then some 1
      else (builtinClz ((size + (2 ^ 64 - 1)) % 2 ^ 64)).map fun zeros =>
        intShlOne (64 - zeros) := by
  rw [tracedRound]
  split
  · rfl
  · dsimp only
    rw [Option.map_map]
    rfl

/-- The trace belongs to the computation of `balloc`. -/
theorem tracedOrder_snd
    (heap : Heap)
    (size : Nat) :
    (tracedOrder heap size).2 = requestOrder heap size := by
  rw [tracedOrder, requestOrder]
  dsimp only
  rw [← tracedRound_snd]
  generalize tracedRound ((size + sizeofBuddyBlock) % 2 ^ 64) = rounded
  rcases rounded with ⟨ops, _ | size⟩
  · rfl
  · rfl

/-- Whatever rounding up performs is performed for the order. -/
theorem tracedRound_subset
    (heap : Heap)
    (size : Nat)
    {op : BitOp}
    (member : op ∈ (tracedRound ((size + sizeofBuddyBlock) % 2 ^ 64)).1) :
    op ∈ (tracedOrder heap size).1 := by
  rw [tracedOrder]
  dsimp only
  split
  · exact member
  · exact List.mem_append_left _ member

/-- A size which has overflowed to 1 gets a block of the least size. -/
theorem requestOrder_one
    {heap : Heap}
    {size : Nat}
    (minLarge : 0 < heap.minOrder)
    (shift : heap.minOrder < 32)
    (wide : (size + sizeofBuddyBlock) % 2 ^ 64 = 1) :
    requestOrder heap size = some heap.minOrder := by
  have larger : 1 < uintShlOne heap.minOrder := by
    rw [uintShlOne, Nat.mod_eq_of_lt shift]
    exact Nat.one_lt_two_pow (by omega)
  rw [← tracedOrder_snd, tracedOrder, wide, tracedRound, if_pos rfl]
  dsimp only
  rw [if_pos larger, uintShlOne, Nat.mod_eq_of_lt shift,
    builtinCtz_two_pow shift]

/-- The least block size is then computed by a shift. -/
theorem shl_minOrder
    (heap : Heap)
    {size : Nat}
    (wide : (size + sizeofBuddyBlock) % 2 ^ 64 = 1) :
    .shl 32 heap.minOrder ∈ (tracedOrder heap size).1 := by
  rw [tracedOrder, wide, tracedRound, if_pos rfl]
  exact List.mem_cons_self

/-- Unless the size is 1, leading zeros are counted and 1 is shifted. -/
theorem tracedRound_ops
    {size : Nat}
    (notOne : size ≠ 1) :
    .bitCount ((size + (2 ^ 64 - 1)) % 2 ^ 64) ∈ (tracedRound size).1 ∧
      ∀ zeros, builtinClz ((size + (2 ^ 64 - 1)) % 2 ^ 64) = some zeros →
        .shl 32 (64 - zeros) ∈ (tracedRound size).1 := by
  rw [tracedRound, if_neg notOne]
  dsimp only
  refine ⟨List.mem_cons_self, ?_⟩
  intro zeros result
  rw [result]
  simp

/--
Rounding as it should be: every operation is inside its defined range, and the
result is the least order of a block which holds the request.
-/
def WellRounded
    (heap : Heap)
    (size : Nat) :
    Prop :=
  (∀ op ∈ (tracedOrder heap size).1, op.Defined) ∧
    ∃ order, requestOrder heap size = some order ∧
      IsLeast {order | FitsOrder heap size order} order

/--
No request is rounded inside the defined range: leading zeros of a 32-bit word
are at most 31, so the shift count is at least 33.
-/
theorem size_rounding_undefined
    {heap : Heap}
    {size : Nat}
    (minLarge : 5 ≤ heap.minOrder)
    (_minLe : heap.minOrder ≤ heap.maxOrder)
    (_positive : 1 ≤ size)
    (_inside : size ≤ heap.size) :
    ¬ WellRounded heap size := by
  rintro ⟨defined, order, result, fits, _⟩
  by_cases wide : (size + sizeofBuddyBlock) % 2 ^ 64 = 1
  · -- the size has overflowed, so the order found is far too small
    have shift : heap.minOrder < 32 := defined _ (shl_minOrder heap wide)
    cases (requestOrder_one (by omega) shift wide).symm.trans result
    have bound : 2 ^ heap.minOrder < 2 ^ 32 :=
      Nat.pow_lt_pow_right (by omega) shift
    have room : size + sizeofBuddyBlock ≤ 2 ^ heap.minOrder := fits.2
    rw [sizeofBuddyBlock] at wide room
    omega
  · rcases tracedRound_ops wide with ⟨counted, shifted⟩
    have argument := defined _ (tracedRound_subset heap size counted)
    generalize ((size + sizeofBuddyBlock) % 2 ^ 64 + (2 ^ 64 - 1)) % 2 ^ 64 =
      word at argument shifted
    have zeros : builtinClz word = some (31 - Nat.log2 (word % 2 ^ 32)) :=
      if_neg argument.1
    have inRange : 64 - (31 - Nat.log2 (word % 2 ^ 32)) < 32 :=
      defined _ (tracedRound_subset heap size (shifted _ zeros))
    omega

/-- A request of 8 bytes on a heap of 128 bytes shifts by 37. -/
theorem size_rounding_undefined_eight :
    ¬ WellRounded smallHeap.heap 8 :=
  size_rounding_undefined (by decide) (by decide) (by decide) (by decide)

/--
The same request as a counterexample: the order 5 is right, but only because
the shift count 37 is read as 5.
-/
theorem size_rounding_shift :
    .shl 32 37 ∈ (tracedOrder smallHeap.heap 8).1 ∧
      requestOrder smallHeap.heap 8 = some 5 ∧
      ¬ ∀ heap : Heap, ∀ size, 5 ≤ heap.minOrder →
        heap.minOrder ≤ heap.maxOrder → 1 ≤ size → size ≤ heap.size →
          WellRounded heap size := by
  refine ⟨by decide, by decide, ?_⟩
  intro allRounded
  have rounded := allRounded smallHeap.heap 8 (by decide) (by decide)
    (by decide) (by decide)
  have shift := rounded.1 (.shl 32 37) (by decide)
  exact absurd shift (by decide)

end ForsKernel.Buddy
