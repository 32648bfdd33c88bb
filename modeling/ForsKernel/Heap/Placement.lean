import ForsKernel.Heap.RequestOrder

/-!
# Which block `balloc` hands out

The heap is described by the blocks alone: they tile it, and the lists hold
exactly the free ones.  A request gets the head of the smallest nonempty list
which can serve it, cut down to the least order which fits.  When no free
block is large enough, `balloc` does not return `NULL` but removes it from a
list.
-/

namespace ForsKernel.Buddy

open ForsKernel.Lib.CInt
open ForsKernel.Lib.Dyadic

/--
The state of the allocator with nothing said about the links of live blocks,
which are the blocks not free.
-/
structure BuddyInv
    (heap : Heap)
    (starts : Finset Nat)
    (lists : Nat → List Nat) :
    Prop
      extends HeapInv heap starts lists [] where
  size_eq : heap.size = 2 ^ heap.maxOrder

section Placement

variable
  {heap : Heap}
  {starts : Finset Nat}
  {lists : Nat → List Nat}
  {size k n bl : Nat}

/-- The size of the whole heap fits a positive `int`. -/
theorem BuddyInv.size_le (inv : BuddyInv heap starts lists) :
    heap.size ≤ 2 ^ 30 := by
  rw [inv.size_eq]
  exact Nat.pow_le_pow_right (by omega) inv.geometry.maxOrder_le

/-- The order `balloc` computes is the least which fits. -/
theorem BuddyInv.requestOrder_eq
    (inv : BuddyInv heap starts lists)
    (positive : 1 ≤ size)
    (inside : size ≤ heap.size)
    (least : IsLeast {order | FitsOrder heap size order} k) :
    requestOrder heap size = some k ∧ heap.InRange k := by
  have minLe := inv.geometry.minOrder_le
  have large := inv.geometry.maxOrder_le
  have minGe := inv.geometry.minOrder_ge
  rcases requestOrder_spec (minLe.trans large) positive
      (inside.trans inv.size_le) with ⟨order, result, isLeast, bound⟩
  cases isLeast.unique least
  exact ⟨result, least.1.1, by rw [buddyNumLists]; omega⟩

/-- A free block of a sufficient order is what the search looks for. -/
theorem firstFit_of_free
    (inv : HeapInv heap starts lists [])
    (room : ∃ b ∈ starts, heap.taken b = 0 ∧ k ≤ heap.order b) :
    ∃ n bl, FirstFit heap k n bl := by
  rcases firstFit_or_empty heap k with fit | empty
  · exact fit
  · rcases room with ⟨b, start, free, larger⟩
    have listed := inv.mem_list start free
    have head := empty (heap.order b) larger (inv.order_le start)
    rw [list_nil inv (inv.inRange start).2 head] at listed
    cases listed

/-- What the search finds is free. -/
theorem free_of_firstFit
    (inv : HeapInv heap starts lists [])
    (lower : heap.minOrder ≤ k)
    (fit : FirstFit heap k n bl) :
    bl ∈ starts ∧ heap.taken bl = 0 ∧ heap.order bl = n := by
  rcases fit.list_eq inv lower with ⟨rest, listEq⟩
  have larger := fit.larger
  rcases (inv.listed (n - heap.minOrder) bl).mp (by simp [listEq]) with
    ⟨start, order, free⟩
  exact ⟨start, free, by omega⟩

/-- A block which is larger than one that fits fits as well. -/
theorem FitsOrder.mono
    (fits : FitsOrder heap size k)
    (larger : k ≤ n) :
    FitsOrder heap size n :=
  ⟨fits.1.trans larger,
    fits.2.trans (Nat.pow_le_pow_right (by omega) larger)⟩

/--
A request which some free block can serve gets the head of the smallest
nonempty list, cut down to the least order which fits.
-/
theorem balloc_allocates
    (inv : BuddyInv heap starts lists)
    (positive : 1 ≤ size)
    (inside : size ≤ heap.size)
    (least : IsLeast {order | FitsOrder heap size order} k)
    (room : ∃ b ∈ starts, heap.taken b = 0 ∧ k ≤ heap.order b) :
    ∃ n bl heap' starts' lists', FirstFit heap k n bl ∧
      balloc size heap = some (bl + sizeofBuddyBlock, heap') ∧
      Placed heap heap' starts starts' lists lists' k n bl ∧
      (∀ i, bl ∉ lists' i) ∧ BuddyInv heap' starts' lists' ∧
      bl + sizeofBuddyBlock + size ≤ bl + 2 ^ k := by
  have order := inv.requestOrder_eq positive inside least
  rcases firstFit_of_free inv.toHeapInv room with ⟨n, bl, fit⟩
  rcases balloc_places inv.toHeapInv inside (by omega) order.1 least.1.1
      fit with ⟨heap', starts', lists', result, inv', placed⟩
  have unlinked := inv'.retire bl
  rw [List.erase_cons_head] at unlinked
  refine ⟨n, bl, heap', starts', lists', fit, result, placed, ?_,
    ⟨unlinked, ?_⟩, ?_⟩
  · exact inv'.not_listed (inv'.live_taken bl List.mem_cons_self)
  · rw [placed.record.size_eq, placed.record.maxOrder_eq, inv.size_eq]
  · have fits := least.1.2
    omega

/-! ## When nothing can be found -/

/--
The call does not fault, and if no free block has the order the request needs,
it yields `NULL` and leaves the heap as it is.
-/
def FailsClean
    (heap : Heap)
    (starts : Finset Nat)
    (size : Nat) :
    Prop :=
  balloc size heap ≠ none ∧
    ∀ k, IsLeast {order | FitsOrder heap size order} k →
      (∀ b ∈ starts, heap.taken b = 0 → heap.order b < k) →
        balloc size heap = some (0, heap)

/-- The two checks at the top of `balloc`. -/
theorem balloc_refuses (refused : size = 0 ∨ heap.size < size) :
    balloc size heap = some (0, heap) := by
  rw [balloc]
  rcases refused with rfl | large
  · rw [if_neg (by omega), if_pos rfl]
  · rw [if_pos large]

/-- Without a block which can serve it, an accepted request faults. -/
theorem balloc_faults_of_full
    (inv : BuddyInv heap starts lists)
    (positive : 1 ≤ size)
    (inside : size ≤ heap.size)
    (least : IsLeast {order | FitsOrder heap size order} k)
    (full : ∀ b ∈ starts, heap.taken b = 0 → heap.order b < k) :
    balloc size heap = none := by
  have order := inv.requestOrder_eq positive inside least
  rcases firstFit_or_empty heap k with ⟨n, bl, fit⟩ | empty
  · rcases free_of_firstFit inv.toHeapInv least.1.1 fit with
      ⟨start, free, orderEq⟩
    have below := full bl start free
    have larger := fit.larger
    omega
  · exact balloc_faults inv.toHeapInv inside (by omega) order.1 order.2 empty

/--
A failing request is refused cleanly exactly when it is refused before any
list is searched.
-/
theorem balloc_clean_iff
    (inv : BuddyInv heap starts lists)
    (size : Nat) :
    FailsClean heap starts size ↔
      size = 0 ∨ heap.size < size ∨
        ∃ b ∈ starts, heap.taken b = 0 ∧
          FitsOrder heap size (heap.order b) := by
  by_cases refused : size = 0 ∨ heap.size < size
  · constructor
    · intro _
      rcases refused with zero | large
      · exact Or.inl zero
      · exact Or.inr (Or.inl large)
    · intro _
      have result := balloc_refuses refused
      exact ⟨by rw [result]; simp, fun _ _ _ => result⟩
  have positive : 1 ≤ size := by omega
  have inside : size ≤ heap.size := by omega
  have large := inv.geometry.maxOrder_le
  rcases requestOrder_spec (inv.geometry.minOrder_le.trans large) positive
      (inside.trans inv.size_le) with ⟨k, _, least, _⟩
  constructor
  · rintro ⟨returns, _⟩
    right
    right
    by_contra none
    apply returns
    apply balloc_faults_of_full inv positive inside least
    intro b start free
    by_contra larger
    exact none ⟨b, start, free, least.1.mono (by omega)⟩
  · rintro (zero | tooLarge | ⟨b, start, free, fits⟩)
    · omega
    · omega
    have larger : k ≤ heap.order b := least.2 fits
    rcases balloc_allocates inv positive inside least
        ⟨b, start, free, larger⟩ with ⟨n, bl, heap', _, _, _, result, _⟩
    refine ⟨by rw [result]; simp, ?_⟩
    intro other otherLeast full
    cases otherLeast.unique least
    have below := full b start free
    omega

end Placement

/-! ## A heap of one block -/

/-- The free lists of a heap of 128 bytes at address 4096. -/
def smallLists : Nat → List Nat :=
  Function.update (fun _ => []) 2 [4096]

theorem smallHeap_inv : BuddyInv smallHeap.heap {4096} smallLists := by
  have result : buddyInit (2 ^ 7) 4096 5 blankMemory =
      some (0, rootHeap 7 5 4096 blankMemory) :=
    buddyInit_eq blankMemory (by decide) (by decide) (by decide)
  have heapEq : smallHeap.heap = rootHeap 7 5 4096 blankMemory := by
    simp only [smallHeap, result, Option.get_some]
  have root : HeapInv (rootHeap 7 5 4096 blankMemory) {4096} smallLists [] :=
    rootHeap_inv blankMemory (by decide) (by decide) (by decide) (by decide)
      (by decide) (by decide)
  rw [heapEq]
  exact ⟨root, rfl⟩

/-- 8 bytes need order 5. -/
theorem smallHeap_least :
    IsLeast {order | FitsOrder smallHeap.heap 8 order} 5 :=
  ⟨by decide, fun _ fits => fits.1⟩

/-- The first 8 bytes are cut from the front of the heap. -/
theorem balloc_allocates_eight :
    ∃ n bl heap' starts' lists', FirstFit smallHeap.heap 5 n bl ∧
      balloc 8 smallHeap.heap = some (bl + sizeofBuddyBlock, heap') ∧
      Placed smallHeap.heap heap' {4096} starts' smallLists lists' 5 n bl ∧
      (∀ i, bl ∉ lists' i) ∧ BuddyInv heap' starts' lists' ∧
      bl + sizeofBuddyBlock + 8 ≤ bl + 2 ^ 5 :=
  balloc_allocates smallHeap_inv (by decide) (by decide) smallHeap_least
    ⟨4096, by decide, by decide, by decide⟩

theorem balloc_clean_iff_eight :
    FailsClean smallHeap.heap {4096} 8 :=
  (balloc_clean_iff smallHeap_inv 8).mpr
    (Or.inr (Or.inr ⟨4096, by decide, by decide, by decide⟩))

/--
A request for the whole heap passes the size check, but with its header it
fits no block, and `NULL` is removed from a list.
-/
theorem balloc_whole_faults :
    balloc (2 ^ 7) smallHeap.heap = none ∧
      ¬ ∀ heap starts lists, BuddyInv heap starts lists →
        ∀ size, FailsClean heap starts size := by
  have faults : balloc (2 ^ 7) smallHeap.heap = none := by decide +kernel
  refine ⟨faults, ?_⟩
  intro allClean
  exact (allClean _ _ _ smallHeap_inv (2 ^ 7)).1 faults

end ForsKernel.Buddy
