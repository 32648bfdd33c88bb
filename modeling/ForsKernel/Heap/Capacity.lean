import ForsKernel.Heap.Invariant

/-!
# How large a heap may be

Sizes and addresses have 64 bits, but `buddy_init` counts the trailing zeros
of a 32-bit word, and the buddy masks are shifts of an `int`.  Everything is
computed as intended for heaps of up to 2 GiB.  From 4 GiB on, the size has no
low bit left to count, although there are lists for orders up to
`min_order + 31`.
-/

namespace ForsKernel.Buddy

open ForsKernel.Lib.CInt
open ForsKernel.Lib.Dyadic

/-! ## Setting up -/

/-- The heap with one free block, `base`, of order `maxOrder`. -/
def rootHeap
    (maxOrder minOrder base : Nat)
    (memory : Heap) :
    Heap where
  minOrder := minOrder
  maxOrder := maxOrder
  size := 2 ^ maxOrder
  memoryStart := base
  orderLists := fun i => if i = maxOrder - minOrder then base else 0
  block := Function.update memory.block base ⟨maxOrder, 0, 0, 0⟩

section BuddyInit

variable {maxOrder minOrder base : Nat}

/-- A power of two passes the check of `buddy_init`. -/
theorem size_check (word : maxOrder < 64) :
    2 ^ maxOrder &&& (2 ^ maxOrder + (2 ^ 64 - 1)) % 2 ^ 64 = 0 := by
  have positive := Nat.two_pow_pos maxOrder
  have bound : 2 ^ maxOrder < 2 ^ 64 := Nat.pow_lt_pow_right (by omega) word
  have pred : (2 ^ maxOrder + (2 ^ 64 - 1)) % 2 ^ 64 = 2 ^ maxOrder - 1 := by
    omega
  rw [pred, Nat.and_two_pow_sub_one_eq_mod, Nat.mod_self]

/-- `NULL` is refused. -/
theorem buddyInit_null
    (size : Nat)
    (memory : Heap) :
    buddyInit size 0 minOrder memory = some (-1, memory) := by
  rw [buddyInit]
  split
  · rfl
  · rw [if_pos rfl]

theorem buddyInit_eq
    (memory : Heap)
    (lower : minOrder ≤ maxOrder)
    (small : maxOrder < 32)
    (notNull : base ≠ 0) :
    buddyInit (2 ^ maxOrder) base minOrder memory =
      some (0, rootHeap maxOrder minOrder base memory) := by
  rw [buddyInit, if_neg (not_not.mpr (size_check (by omega))),
    if_neg notNull, builtinCtz_two_pow small, Option.bind_some,
    Nat.mod_eq_of_lt (by omega)]
  dsimp only
  rw [insertBlock_eq notNull, Option.map_some]
  · refine congrArg (fun heap => some ((0 : Int), heap)) ?_
    apply Heap.eq_of_fields <;> first | rfl | intro other
    · rw [orderLists_inserted, Heap.order_setOrder, if_pos rfl]
      rfl
    · by_cases same : other = base
      · simp [rootHeap, Heap.order, Heap.setOrder, inserted, same]
      · simp [rootHeap, Heap.order, Heap.setOrder, inserted, same]
    · by_cases same : other = base
      · simp [rootHeap, Heap.taken, inserted, same]
      · simp [rootHeap, Heap.taken, Heap.setOrder, inserted, same]
    · by_cases same : other = base
      · simp [rootHeap, Heap.next, inserted, headOf, Heap.setOrder, same]
      · simp [rootHeap, Heap.next, inserted, Heap.setOrder, same]
    · by_cases same : other = base
      · simp [rootHeap, Heap.prev, inserted, headOf, Heap.setOrder, same]
      · simp [rootHeap, Heap.prev, inserted, headOf, Heap.setOrder, same]
  · rw [Heap.order_setOrder, if_pos rfl]
    refine ⟨lower, ?_⟩
    show maxOrder - minOrder < buddyNumLists
    rw [buddyNumLists]
    omega

/-- An aligned block which starts below the last address ends there. -/
theorem room_of_aligned
    {top : Nat}
    (aligned : 2 ^ top ∣ base)
    (word : top ≤ 64)
    (fits : base < 2 ^ 64) :
    base + 2 ^ top ≤ 2 ^ 64 := by
  rcases aligned with ⟨quotient, rfl⟩
  have split : (2 : Nat) ^ 64 = 2 ^ top * 2 ^ (64 - top) := by
    rw [← Nat.pow_add, Nat.add_sub_cancel' word]
  rw [split] at fits ⊢
  have next : quotient + 1 ≤ 2 ^ (64 - top) := Nat.lt_of_mul_lt_mul_left fits
  calc 2 ^ top * quotient + 2 ^ top
      = 2 ^ top * (quotient + 1) := by rw [Nat.mul_succ]
    _ ≤ 2 ^ top * 2 ^ (64 - top) := Nat.mul_le_mul_left _ next

/-- `buddy_init` sets up a heap with one free block. -/
theorem rootHeap_inv
    (memory : Heap)
    (large : 5 ≤ minOrder)
    (lower : minOrder ≤ maxOrder)
    (small : maxOrder ≤ 30)
    (aligned : 2 ^ maxOrder ∣ base)
    (fits : base < 2 ^ 64)
    (notNull : base ≠ 0) :
    HeapInv (rootHeap maxOrder minOrder base memory) {base}
      (Function.update (fun _ => []) (maxOrder - minOrder) [base]) [] := by
  generalize heapEq : rootHeap maxOrder minOrder base memory = heap
  have header : heap.block base = ⟨maxOrder, 0, 0, 0⟩ := by
    rw [← heapEq]
    exact Function.update_self _ _ _
  have order : heap.order base = maxOrder := congrArg BuddyBlock.order header
  have taken : heap.taken base = 0 := congrArg BuddyBlock.taken header
  have next : heap.next base = 0 := congrArg BuddyBlock.next header
  have prev : heap.prev base = 0 := congrArg BuddyBlock.prev header
  have heads : ∀ i, heap.orderLists i =
      if i = maxOrder - minOrder then base else 0 := by
    intro i
    rw [← heapEq]
    rfl
  have minEq : heap.minOrder = minOrder := by
    rw [← heapEq]
    rfl
  have maxEq : heap.maxOrder = maxOrder := by
    rw [← heapEq]
    rfl
  have startEq : heap.memoryStart = base := by
    rw [← heapEq]
    rfl
  refine ⟨?_, ?_, ?_, ⟨?_, ?_, ?_⟩, ?_, List.nodup_nil, by simp, by simp,
    by simp⟩
  · have room := room_of_aligned aligned (by omega) fits
    constructor <;> rw [← heapEq] <;> first | assumption | skip
    exact Nat.pos_of_ne_zero notNull
  · rw [startEq, maxEq]
    exact .single _ _ aligned order
  · intro bl member
    rw [Finset.mem_singleton.mp member, order, minEq]
    exact lower
  · intro i _
    rw [heads]
    by_cases here : i = maxOrder - minOrder
    · rw [if_pos here, here, Function.update_self]
      exact ⟨rfl, by simpa using notNull.symm, List.nodup_singleton _,
        prev, next, trivial⟩
    · rw [if_neg here, Function.update_of_ne here]
      exact .empty 0 _ _
  · intro i j different bl member
    by_cases here : i = maxOrder - minOrder
    · rw [Function.update_of_ne (by omega)]
      simp
    · rw [Function.update_of_ne here] at member
      cases member
  · intro i outside
    rw [buddyNumLists] at outside
    exact Function.update_of_ne (by omega) _ _
  · intro i bl
    rw [minEq, Finset.mem_singleton]
    by_cases here : i = maxOrder - minOrder
    · rw [here, Function.update_self, List.mem_singleton]
      constructor
      · rintro rfl
        exact ⟨rfl, by omega, taken⟩
      · exact And.left
    · rw [Function.update_of_ne here]
      constructor
      · intro member
        cases member
      · rintro ⟨rfl, position, _⟩
        omega

end BuddyInit

/-! ## Addresses -/

/-- The address `merge` computes for the left half. -/
def mergeLeft
    (heap : Heap)
    (bl : Nat) :
    Nat :=
  bl &&& notWord (intShlOne (heap.order bl))

/-- `merge` works on `mergeLeft`. -/
theorem merge_mergeLeft
    (heap : Heap)
    (bl : Nat) :
    merge heap bl =
      if heap.order bl = heap.maxOrder then some (0, heap)
      else if getBuddy heap (mergeLeft heap bl) = 0 then none
      else if heap.order (mergeLeft heap bl) ≠
          heap.order (getBuddy heap (mergeLeft heap bl)) then
        some (0, heap)
      else (do
        let heap₁ ← removeBlock heap (mergeLeft heap bl)
        let heap₂ ← removeBlock heap₁ (getBuddy heap₁ (mergeLeft heap bl))
        let heap₃ ← insertBlock (heap₂.setOrder (mergeLeft heap bl)
          ((heap₂.order (mergeLeft heap bl) + 1) % 2 ^ 16))
            (mergeLeft heap bl)
        some (mergeLeft heap bl, heap₃)) :=
  rfl

/-- What is computed for the block at an offset, without overflow. -/
structure Addressed
    (heap : Heap)
    (base offset : Nat) :
    Prop where
  shift : heap.order (base + offset) < 31
  buddy_eq : getBuddy heap (base + offset) =
    base + (offset ^^^ 2 ^ heap.order (base + offset))
  left_eq : mergeLeft heap (base + offset) =
    base + (offset &&& notWord (2 ^ heap.order (base + offset)))

/-- A heap of `2 ^ maxOrder` bytes at `base` is set up and used as intended. -/
structure Managed (maxOrder minOrder base : Nat) : Prop where
  counted : (BitOp.bitCount (2 ^ maxOrder)).Defined
  rooted : ∀ memory, buddyInit (2 ^ maxOrder) base minOrder memory =
    some (0, rootHeap maxOrder minOrder base memory)
  addressed : ∀ heap : Heap, ∀ offset, heap.maxOrder = maxOrder →
    heap.order (base + offset) < maxOrder →
    2 ^ heap.order (base + offset) ∣ offset → offset < 2 ^ maxOrder →
      Addressed heap base offset

section Addresses

variable
  {heap : Heap}
  {maxOrder minOrder base offset : Nat}

/-- Below 4 GiB no shift reaches the sign of `int`. -/
theorem addressed_of_small
    (aligned : 2 ^ maxOrder ∣ base)
    (fits : base < 2 ^ 64)
    (small : maxOrder < 32)
    (top : heap.maxOrder = maxOrder)
    (below : heap.order (base + offset) < maxOrder)
    (multiple : 2 ^ heap.order (base + offset) ∣ offset)
    (inside : offset < 2 ^ maxOrder) :
    Addressed heap base offset := by
  generalize orderEq : heap.order (base + offset) = k at below multiple
  have low : 2 ^ k < 2 ^ maxOrder := Nat.pow_lt_pow_right (by omega) below
  have room := room_of_aligned aligned (by omega) fits
  have blockAligned : 2 ^ k ∣ base + offset :=
    Nat.dvd_add ((Nat.pow_dvd_pow 2 (by omega)).trans aligned) multiple
  refine ⟨by omega, ?_, ?_⟩
  · rw [getBuddy, orderEq, if_neg (by omega), intShlOne_of_lt (by omega),
      offset_xor aligned inside low]
  · rw [mergeLeft, orderEq, intShlOne_of_lt (by omega), notWord,
      and_clear_bit blockAligned (by omega) (by omega),
      and_clear_bit multiple (by omega) (by omega),
      offset_parent aligned below]

/--
A heap is managed as intended exactly up to 2 GiB.  The header promises as
many orders as there are lists.
-/
theorem buddy_capacity_iff
    (lower : minOrder ≤ maxOrder)
    (_upper : maxOrder < minOrder + buddyNumLists)
    (word : maxOrder < 64)
    (aligned : 2 ^ maxOrder ∣ base)
    (fits : base < 2 ^ 64) :
    Managed maxOrder minOrder base ↔ maxOrder ≤ 31 ∧ base ≠ 0 := by
  constructor
  · intro managed
    constructor
    · by_contra large
      apply managed.counted.1
      exact Nat.mod_eq_zero_of_dvd (Nat.pow_dvd_pow 2 (by omega))
    · rintro rfl
      have rooted := managed.rooted
        ⟨0, 0, 0, 0, fun _ => 0, fun _ => ⟨0, 0, 0, 0⟩⟩
      rw [buddyInit_null] at rooted
      exact absurd (Prod.mk.inj (Option.some.inj rooted)).1 (by decide)
  · rintro ⟨small, notNull⟩
    have bound : 2 ^ maxOrder < 2 ^ 32 :=
      Nat.pow_lt_pow_right (by omega) (by omega)
    have positive := Nat.two_pow_pos maxOrder
    refine ⟨⟨?_, bound⟩, ?_, ?_⟩
    · rw [Nat.mod_eq_of_lt bound]
      omega
    · intro memory
      exact buddyInit_eq memory lower (by omega) notNull
    · intro heap offset top below multiple inside
      exact addressed_of_small aligned fits (by omega) top below multiple inside

/-- A heap of 2 GiB at the address 2 GiB. -/
theorem buddy_capacity_iff_large : Managed 31 5 (2 ^ 31) :=
  (buddy_capacity_iff (by decide) (by decide) (by decide) (by decide)
    (by decide)).mpr ⟨by decide, by decide⟩

/-- A heap of 4 GiB, well below what the header promises, is not set up. -/
theorem buddy_capacity_exceeded :
    ¬ ∀ maxOrder minOrder base : Nat, minOrder ≤ maxOrder →
      maxOrder < minOrder + buddyNumLists → maxOrder < 64 →
        2 ^ maxOrder ∣ base → base < 2 ^ 64 → base ≠ 0 →
          Managed maxOrder minOrder base := by
  intro allManaged
  have managed := allManaged 32 5 (2 ^ 32) (by decide) (by decide) (by decide)
    (by decide) (by decide) (by decide)
  exact absurd managed.counted (by decide)

end Addresses

end ForsKernel.Buddy
