import ForsKernel.Heap.Undo

/-!
# Splitting a block and merging it again

`merge` of either half undoes a `split`: the block comes back to the front of
the list which it was taken from, and all other headers and lists are as they
were.  `get_buddy` goes by the order in the header, and so it leads back to a
block just when its buddy has not been split further.
-/

namespace ForsKernel.Buddy

open ForsKernel.Lib.CInt
open ForsKernel.Lib.Dyadic
open ForsKernel.Lib.Transition

/-! ## Merging undoes splitting -/

/-- What splitting the free block `bl` and merging it again leaves behind. -/
structure Reunited
    (heap heap' : Heap)
    (starts : Finset Nat)
    (lists lists' : Nat → List Nat)
    (live : List Nat)
    (bl order : Nat) :
    Prop where
  record : SameRecord heap heap'
  inv : HeapInv heap' starts lists' live
  same : SameFree heap heap'
  free : FreeBlock heap' bl order
  restored : Restored heap heap' starts
  frame : ∀ other, other ≠ bl → other ≠ bl + 2 ^ (order - 1) →
    heap'.order other = heap.order other ∧
      heap'.taken other = heap.taken other
  front : lists' (order - heap.minOrder) =
    bl :: (lists (order - heap.minOrder)).erase bl
  others : ∀ j, j ≠ order - heap.minOrder → lists' j = lists j

section SplitMerge

variable
  {heap halved : Heap}
  {starts : Finset Nat}
  {lists lists₁ lists₂ : Nat → List Nat}
  {live : List Nat}
  {bl i : Nat}

/-- A free block above the least order is not on the first list. -/
theorem FreeBlock.mem_succ
    {order : Nat}
    (inv : HeapInv heap starts lists live)
    (free : FreeBlock heap bl order)
    (large : heap.minOrder < order) :
    ∃ i, order = heap.minOrder + i + 1 ∧ bl ∈ lists (i + 1) := by
  rcases (freeBlock_iff inv bl order).mp free with ⟨start, isFree, orderEq⟩
  have listed := inv.mem_list start isFree
  have index : heap.order bl - heap.minOrder =
      order - heap.minOrder - 1 + 1 := by
    omega
  rw [index] at listed
  exact ⟨order - heap.minOrder - 1, by omega, listed⟩

/-- The parts of a block which was split are as `merge` expects them. -/
theorem Halved.halves
    (inv : HeapInv heap starts lists live)
    (member : bl ∈ lists (i + 1))
    (cut : Halved heap halved lists lists₁ bl i) :
    Halves halved (insert (bl + 2 ^ (heap.minOrder + i)) starts) bl
      (heap.minOrder + i) where
  left_start := Finset.mem_insert_of_mem (inv.listed_start member)
  right_start := Finset.mem_insert_self _ _
  left_order := by rw [cut.order_eq, if_pos (Or.inr rfl)]
  right_order := by rw [cut.order_eq, if_pos (Or.inl rfl)]
  small := by
    have order := ((inv.listed _ bl).mp member).2.1
    have upper := inv.order_le (inv.listed_start member)
    rw [cut.record.maxOrder_eq]
    omega
  aligned := by
    have order := ((inv.listed _ bl).mp member).2.1
    exact inv.aligned (inv.listed_start member) (by omega)

/-- The lists after a split and a merge. -/
theorem Halved.lists_rejoined
    (cut : Halved heap halved lists lists₁ bl i)
    (joins : Rejoined lists₁ lists₂ bl (bl + 2 ^ (heap.minOrder + i)) i) :
    lists₂ (i + 1) = bl :: (lists (i + 1)).erase bl ∧
      ∀ j, j ≠ i + 1 → lists₂ j = lists j := by
  have positive := Nat.two_pow_pos (heap.minOrder + i)
  constructor
  · rw [joins.above, cut.above]
  · intro j notAbove
    by_cases here : j = i
    · -- both halves were put in front of the list
      rw [here, joins.here, cut.here, List.erase_cons_tail (by simp),
        List.erase_cons_head, List.erase_cons_head]
    · rw [joins.others j here notAbove, cut.others j here notAbove]

/-- A split followed by a merge changes no header but that of the right half. -/
theorem Halved.frame_joined
    (cut : Halved heap halved lists lists₁ bl i)
    (free : FreeBlock heap bl (heap.minOrder + i + 1))
    (isFree : heap.taken bl = 0)
    (other : Nat)
    (notRight : other ≠ bl + 2 ^ (heap.minOrder + i)) :
    (joined halved bl (heap.minOrder + i)).order other = heap.order other ∧
      (joined halved bl (heap.minOrder + i)).taken other =
        heap.taken other := by
  have merged := remerged_joined halved ∅ bl (heap.minOrder + i)
  by_cases isBl : other = bl
  · rw [isBl, merged.order_eq, merged.taken_eq, free.order_eq, isFree]
    exact ⟨rfl, rfl⟩
  · have notHalf : ¬ (other = bl + 2 ^ (heap.minOrder + i) ∨ other = bl) := by
      rintro (right | left)
      · exact notRight right
      · exact isBl left
    rw [order_joined, if_neg isBl, taken_joined _ _ _ _ isBl notRight,
      cut.order_eq, cut.taken_eq, if_neg notHalf, if_neg notHalf]
    exact ⟨rfl, rfl⟩

/-- Merging the halves of a block gives the block back. -/
theorem reunited
    {order : Nat}
    (inv : HeapInv heap starts lists live)
    (free : FreeBlock heap bl order)
    (large : heap.minOrder < order) :
    ∃ halved, split heap bl = some (bl + 2 ^ (order - 1), halved) ∧
      getBuddy halved bl = bl + 2 ^ (order - 1) ∧
      getBuddy halved (bl + 2 ^ (order - 1)) = bl ∧
      ∀ half, half = bl ∨ half = bl + 2 ^ (order - 1) →
        ∃ merged lists', merge halved half = some (bl, merged) ∧
          Reunited heap merged starts lists lists' live bl order := by
  rcases free.mem_succ inv large with ⟨i, rfl, member⟩
  rcases split_spec inv member with ⟨halved, lists₁, result, inv₁, cut⟩
  have isFree := ((inv.listed _ bl).mp member).2.2
  have start := inv.listed_start member
  have halves := cut.halves inv member
  have rightNew := inv.half_not_start start free.order_eq
  have freeLeft : halved.taken bl = 0 := by
    rw [cut.taken_eq, if_pos (Or.inr rfl)]
  have freeRight : halved.taken (bl + 2 ^ (heap.minOrder + i)) = 0 := by
    rw [cut.taken_eq, if_pos (Or.inl rfl)]
  rcases joined_of_free inv₁ halves freeLeft freeRight with
    ⟨lists₂, inv₂, joins⟩
  rw [Finset.erase_insert rightNew] at inv₂
  rw [cut.record.minOrder_eq, Nat.add_sub_cancel_left] at joins
  have back := cut.lists_rejoined joins
  have record := cut.record.trans
    (remerged_joined halved starts bl (heap.minOrder + i)).record
  have frame := cut.frame_joined free isFree
  have restored : Restored heap (joined halved bl (heap.minOrder + i))
      starts := by
    intro other isStart
    apply frame
    rintro rfl
    exact rightNew isStart
  have same := restored.sameFree inv inv₂
  have index : heap.minOrder + i + 1 - heap.minOrder = i + 1 := by omega
  rw [Nat.add_sub_cancel]
  refine ⟨halved, result, ?_, ?_, ?_⟩
  · rw [inv₁.getBuddy_eq halves.left_order halves.small,
      buddy_of_aligned halves.aligned]
  · rw [inv₁.getBuddy_eq halves.right_order halves.small,
      ← buddy_of_aligned halves.aligned, buddy_buddy]
  · intro half either
    refine ⟨_, lists₂, merge_eq inv₁ halves either, record, inv₂, same,
      (same bl _).mpr free, restored, fun other _ => frame other, ?_, ?_⟩
    · rw [index]
      exact back.1
    · rw [index]
      exact back.2

end SplitMerge

/-! ## The buddy of a block -/

/-- What `get_buddy` finds for a block `bl` below the order of the heap. -/
structure FindsBuddy
    (heap : Heap)
    (starts : Finset Nat)
    (bl : Nat) :
    Prop where
  start : getBuddy heap bl ∈ starts
  ne : getBuddy heap bl ≠ bl
  order_le : heap.order (getBuddy heap bl) ≤ heap.order bl
  aligned : 2 ^ heap.order bl ∣ getBuddy heap bl
  inside : heap.memoryStart ≤ getBuddy heap bl ∧
    getBuddy heap bl + 2 ^ heap.order bl ≤
      heap.memoryStart + 2 ^ heap.maxOrder
  flipped : getBuddy heap bl ^^^ intShlOne (heap.order bl) = bl
  back_iff : getBuddy heap (getBuddy heap bl) = bl ↔
    heap.order (getBuddy heap bl) = heap.order bl

section FindsBuddy

variable
  {heap : Heap}
  {starts : Finset Nat}
  {lists : Nat → List Nat}
  {live : List Nat}
  {bl : Nat}

/-- The buddy of the buddy is the block if the buddy is whole. -/
theorem getBuddy_back_iff
    (inv : HeapInv heap starts lists live)
    (start : bl ∈ starts)
    (small : heap.order bl < heap.maxOrder) :
    getBuddy heap (buddy bl (heap.order bl)) = bl ↔
      heap.order (buddy bl (heap.order bl)) = heap.order bl := by
  have buddyStart := inv.buddy_start start rfl small
  rw [inv.getBuddy_eq rfl (by omega)]
  constructor
  · intro back
    apply buddy_order_injective
    exact back.trans (buddy_buddy bl (heap.order bl)).symm
  · intro whole
    rw [whole, buddy_buddy]

theorem findsBuddy
    (inv : HeapInv heap starts lists live)
    (start : bl ∈ starts)
    (small : heap.order bl < heap.maxOrder) :
    FindsBuddy heap starts bl := by
  have large := inv.geometry.maxOrder_le
  have aligned := inv.aligned start rfl
  have buddyStart := inv.buddy_start start rfl small
  have isBuddy : getBuddy heap bl = buddy bl (heap.order bl) :=
    inv.getBuddy_eq rfl small
  constructor
  · rw [isBuddy]
    exact buddyStart.1
  · rw [isBuddy]
    have outside := buddy_outside aligned
    have positive := Nat.two_pow_pos (heap.order bl)
    omega
  · rw [isBuddy]
    exact buddyStart.2
  · rw [isBuddy]
    exact buddy_aligned aligned
  · rw [isBuddy]
    exact buddy_inside inv.geometry.aligned aligned small
      (inv.tiling.inside bl start)
  · rw [isBuddy, intShlOne_of_lt (by omega)]
    exact buddy_buddy bl (heap.order bl)
  · rw [isBuddy]
    exact getBuddy_back_iff inv start small

/--
Splitting a free block and merging either half changes neither the free blocks
nor any other header.  `get_buddy` stays in the heap, and it leads back to the
block exactly if the buddy has the order of the block.
-/
theorem merge_undoes_split (inv : HeapInv heap starts lists live) :
    (∀ bl order, FreeBlock heap bl order → heap.minOrder < order →
      ∃ halved, split heap bl = some (bl + 2 ^ (order - 1), halved) ∧
        getBuddy halved bl = bl + 2 ^ (order - 1) ∧
        getBuddy halved (bl + 2 ^ (order - 1)) = bl ∧
        ∀ half, half = bl ∨ half = bl + 2 ^ (order - 1) →
          ∃ merged lists', merge halved half = some (bl, merged) ∧
            Reunited heap merged starts lists lists' live bl order) ∧
    ∀ bl ∈ starts, heap.order bl < heap.maxOrder →
      FindsBuddy heap starts bl := by
  constructor
  · intro bl order free large
    exact reunited inv free large
  · intro bl start small
    exact findsBuddy inv start small

end FindsBuddy

/-! ## A heap after one request -/

/-- The heap of 128 bytes with its first 32 bytes taken. -/
def dividedHeap : HeapState :=
  ((heapSystem.restrict Harmless).replay smallHeap [.balloc 8]).get
    (by decide +kernel)

theorem dividedHeap_inv : StateInv dividedHeap := by
  have reachable : (heapSystem.restrict Harmless).Reachable dividedHeap :=
    System.reachable_of_replay smallHeap_initial (Option.some_get _).symm
  exact stateInv_of_reachable reachable

/-- The second half of the heap is free. -/
theorem dividedHeap_free : FreeBlock dividedHeap.heap 4160 6 := by
  have head : dividedHeap.heap.orderLists 1 = 4160 := by decide +kernel
  have index : 6 - dividedHeap.heap.minOrder = 1 := by decide +kernel
  refine ⟨by decide +kernel, by decide +kernel, ?_, by decide +kernel⟩
  rw [index, ← head]
  exact .head (by rw [head]; decide)

/-- The free half can be split and merged, and its buddy is the taken block. -/
theorem merge_undoes_split_divided :
    ∃ starts halved merged,
      split dividedHeap.heap 4160 = some (4160 + 32, halved) ∧
      merge halved (4160 + 32) = some (4160, merged) ∧
      SameFree dividedHeap.heap merged ∧
      FindsBuddy dividedHeap.heap starts 4160 := by
  rcases dividedHeap_inv with ⟨starts, lists, live, inv, _⟩
  have start := ((freeBlock_iff inv 4160 6).mp dividedHeap_free).1
  rcases merge_undoes_split inv with ⟨undoes, finds⟩
  rcases undoes 4160 6 dividedHeap_free (by decide +kernel) with
    ⟨halved, result, _, _, merges⟩
  rcases merges (4160 + 32) (Or.inr rfl) with ⟨merged, _, back, whole⟩
  exact ⟨starts, halved, merged, result, back, whole.same,
    finds 4160 start (by decide +kernel)⟩

/--
The buddy of the free half starts with the block of 32 bytes which was cut
from it, and the buddy of this block is the next one.
-/
theorem getBuddy_not_involutive :
    ¬ ∀ heap starts lists live, HeapInv heap starts lists live →
      ∀ bl ∈ starts, heap.order bl < heap.maxOrder →
        getBuddy heap (getBuddy heap bl) = bl := by
  intro involutive
  rcases dividedHeap_inv with ⟨starts, lists, live, inv, _⟩
  have start := ((freeBlock_iff inv 4160 6).mp dividedHeap_free).1
  have back := involutive _ starts lists live inv 4160 start
    (by decide +kernel)
  revert back
  decide +kernel

end ForsKernel.Buddy
