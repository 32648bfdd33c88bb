import ForsKernel.Heap.Allocate

/-!
# `bfree`

A released block is put on its list, or merged with its buddy and carried up
as far as possible.  `merge` unlinks both halves, although the released block
is on no list: what this does depends on the links the block kept since it was
taken.  Further up, a smaller free left neighbour is compared with its own
sibling instead of the block at hand.  `FreeSafe` states when neither of the
two does harm, in terms of the heap before the call.
-/

namespace ForsKernel.Buddy

open ForsKernel.Lib.CInt
open ForsKernel.Lib.Dyadic
open ForsKernel.Lib.LinkedList

/-! ## The condition -/

/--
Unlinking the unlisted block `bl` next to its free buddy `b` only writes what
is there without it: the list head is already `bl->next` once `b` is gone, or
`bl->prev->next` is already `bl->next`.
-/
def UnlinkSafe
    (heap : Heap)
    (bl b : Nat) :
    Prop :=
  (heap.prev bl = 0 →
    heap.next bl = if headOf heap bl = b then heap.next b else headOf heap bl) ∧
  (heap.prev bl ≠ 0 → heap.next (heap.prev bl) = heap.next bl)

/-- The start of the aligned block of order `k` around an address. -/
def enclosing (bl k : Nat) : Nat :=
  bl / 2 ^ k * 2 ^ k

/-- The buddy of the enclosing block of order `k` is whole and free. -/
def WholeFree
    (heap : Heap)
    (bl k : Nat) :
    Prop :=
  heap.order (buddy (enclosing bl k) k) = k ∧
    heap.taken (buddy (enclosing bl k) k) = 0

/--
A left neighbour `b` of an order-`k` block which is free but has been split
is not of the same order as its own sibling.
-/
def NeighbourSafe
    (heap : Heap)
    (m b k : Nat) :
    Prop :=
  heap.taken b = 0 ∧ heap.order b ≠ k ∧ b < m →
    heap.order (b + 2 ^ heap.order b) ≠ heap.order b

/-- The neighbours are safe wherever merging carries the block. -/
def ClimbSafe
    (heap : Heap)
    (bl : Nat) :
    Prop :=
  ∀ k < heap.maxOrder, heap.order bl < k →
    (∀ j < k, heap.order bl ≤ j → WholeFree heap bl j) →
    NeighbourSafe heap (enclosing bl k) (buddy (enclosing bl k) k) k

/-- When releasing `bl` does no harm. -/
def FreeSafe
    (heap : Heap)
    (bl : Nat) :
    Prop :=
  heap.order bl = heap.maxOrder ∨
    heap.order (buddy bl (heap.order bl)) ≠ heap.order bl ∨
    heap.taken (buddy bl (heap.order bl)) ≠ 0 ∨
    (UnlinkSafe heap bl (buddy bl (heap.order bl)) ∧ ClimbSafe heap bl)

instance
    (heap : Heap)
    (bl b : Nat) :
    Decidable (UnlinkSafe heap bl b) :=
  inferInstanceAs (Decidable (_ ∧ _))

instance
    (heap : Heap)
    (bl k : Nat) :
    Decidable (WholeFree heap bl k) :=
  inferInstanceAs (Decidable (_ ∧ _))

instance
    (heap : Heap)
    (m b k : Nat) :
    Decidable (NeighbourSafe heap m b k) :=
  inferInstanceAs (Decidable (_ → _))

instance
    (heap : Heap)
    (bl : Nat) :
    Decidable (ClimbSafe heap bl) :=
  inferInstanceAs (Decidable (∀ k < heap.maxOrder, _))

instance
    (heap : Heap)
    (bl : Nat) :
    Decidable (FreeSafe heap bl) :=
  inferInstanceAs (Decidable (_ ∨ _ ∨ _ ∨ (_ ∧ _)))

/-! ## Merging two halves -/

/-- The heap after a successful `merge` of the two halves of a block. -/
def joined
    (heap : Heap)
    (left k : Nat) :
    Heap :=
  inserted ((unlinked (unlinked heap left) (left + 2 ^ k)).setOrder left
    (k + 1)) left

section Joined

variable
  (heap : Heap)
  (left k other : Nat)

theorem order_joined : (joined heap left k).order other =
    if other = left then k + 1 else heap.order other := by
  simp [joined]

theorem maxOrder_joined : (joined heap left k).maxOrder = heap.maxOrder :=
  rfl

theorem taken_joined
    (notLeft : other ≠ left)
    (notRight : other ≠ left + 2 ^ k) :
    (joined heap left k).taken other = heap.taken other := by
  simp [joined, notLeft, notRight]

end Joined

section Merge

variable
  {heap : Heap}
  {starts : Finset Nat}
  {lists : Nat → List Nat}
  {live : List Nat}
  {left k : Nat}

/-- The two halves of a block, as `merge` finds them. -/
structure Halves
    (heap : Heap)
    (starts : Finset Nat)
    (left k : Nat) :
    Prop where
  left_start : left ∈ starts
  right_start : left + 2 ^ k ∈ starts
  left_order : heap.order left = k
  right_order : heap.order (left + 2 ^ k) = k
  small : k < heap.maxOrder
  aligned : 2 ^ (k + 1) ∣ left

/-- `merge` clears the bit which separates the two buddies. -/
theorem clear_bit
    (inv : HeapInv heap starts lists live)
    {bl : Nat}
    (member : bl ∈ starts)
    (small : heap.order bl < heap.maxOrder) :
    bl &&& notWord (intShlOne (heap.order bl)) =
      parent bl (heap.order bl) := by
  have large := inv.geometry.maxOrder_le
  have inside := inv.tiling.inside bl member
  have fits := inv.geometry.fits
  have positive := Nat.two_pow_pos (heap.order bl)
  rw [intShlOne_of_lt (by omega), notWord,
    and_clear_bit (inv.aligned member rfl) (by omega) (by omega)]

/-- `merge` computes the left half from either half. -/
theorem merge_eq
    (inv : HeapInv heap starts lists live)
    (halves : Halves heap starts left k)
    {bl : Nat}
    (either : bl = left ∨ bl = left + 2 ^ k) :
    merge heap bl = some (left, joined heap left k) := by
  have large := inv.geometry.maxOrder_le
  have small := halves.small
  have blStart : bl ∈ starts := by
    rcases either with rfl | rfl
    · exact halves.left_start
    · exact halves.right_start
  have blOrder : heap.order bl = k := by
    rcases either with rfl | rfl
    · exact halves.left_order
    · exact halves.right_order
  have leftBuddy : bl &&& notWord (intShlOne (heap.order bl)) = left := by
    rw [clear_bit inv blStart (by omega), blOrder]
    rcases either with rfl | rfl
    · exact parent_self halves.aligned
    · exact parent_half halves.aligned
  have getRight : ∀ heap' : Heap, heap'.order left = k →
      heap'.maxOrder = heap.maxOrder →
      getBuddy heap' left = left + 2 ^ k := by
    intro heap' order sameMax
    rw [getBuddy, order, sameMax, if_neg (by omega),
      intShlOne_of_lt (by omega), ← buddy_of_aligned halves.aligned, buddy]
  have leftNull := inv.ne_null halves.left_start
  have rightNull := inv.ne_null halves.right_start
  have lower := inv.minOrder_le left halves.left_start
  rw [halves.left_order] at lower
  have rightRange : (unlinked heap left).InRange
      ((unlinked heap left).order (left + 2 ^ k)) :=
    inv.inRange halves.right_start
  rw [merge, if_neg (by omega)]
  simp only [leftBuddy]
  rw [getRight heap halves.left_order rfl, if_neg rightNull,
    if_neg (by rw [halves.left_order, halves.right_order]; simp),
    removeBlock_eq leftNull (inv.inRange halves.left_start)]
  simp only [Option.bind_eq_bind, Option.bind_some]
  rw [getRight (unlinked heap left) halves.left_order rfl,
    removeBlock_eq rightNull rightRange, Option.bind_some]
  simp only [order_unlinked, halves.left_order]
  rw [Nat.mod_eq_of_lt (by omega), insertBlock_eq leftNull, Option.bind_some]
  · rfl
  · rw [Heap.order_setOrder, if_pos rfl]
    constructor
    · simp
      omega
    · rw [buddyNumLists]
      simp
      omega

/-- What `merge` of the halves `left` and `right` does to the lists. -/
structure Rejoined
    (lists lists' : Nat → List Nat)
    (left right i : Nat) :
    Prop where
  here : lists' i = ((lists i).erase left).erase right
  above : lists' (i + 1) = left :: lists (i + 1)
  others : ∀ j, j ≠ i → j ≠ i + 1 → lists' j = lists j

/-- Two unlisted halves become one listed block. -/
theorem enlist_joined
    {heap : Heap}
    {i : Nat}
    (inv : HeapInv heap starts lists live)
    (halves : Halves heap starts left k)
    (leftTaken : heap.taken left ≠ 0)
    (rightTaken : heap.taken (left + 2 ^ k) ≠ 0)
    (leftDead : left ∉ live)
    (rightDead : left + 2 ^ k ∉ live)
    (index : k + 1 - heap.minOrder = i) :
    HeapInv (inserted (heap.setOrder left (k + 1)) left)
      (starts.erase (left + 2 ^ k))
      (Function.update lists i (left :: lists i)) live := by
  have positive := Nat.two_pow_pos k
  have whole := inv.join halves.left_start halves.right_start leftTaken
    rightTaken leftDead rightDead halves.left_order halves.right_order
    halves.aligned
  apply whole.enlist _ _ leftDead
  · rw [Heap.order_setOrder, if_pos rfl]
    exact index
  · exact Finset.mem_erase.mpr ⟨by omega, halves.left_start⟩
  · simpa using leftTaken

/-- `merge` of two free halves. -/
theorem joined_of_free
    (inv : HeapInv heap starts lists live)
    (halves : Halves heap starts left k)
    (leftFree : heap.taken left = 0)
    (rightFree : heap.taken (left + 2 ^ k) = 0) :
    ∃ lists', HeapInv (joined heap left k) (starts.erase (left + 2 ^ k))
      lists' live ∧
      Rejoined lists lists' left (left + 2 ^ k) (k - heap.minOrder) := by
  have positive := Nat.two_pow_pos k
  have apart : left + 2 ^ k ≠ left := by omega
  have lower := inv.minOrder_le left halves.left_start
  rw [halves.left_order] at lower
  have leftListed := inv.mem_list halves.left_start leftFree
  have inv₁ := inv.unlink leftListed
  have rightFree₁ : (unlinked heap left).taken (left + 2 ^ k) = 0 := by
    rw [taken_unlinked, if_neg apart]
    exact rightFree
  have inv₂ := inv₁.unlink (inv₁.mem_list halves.right_start rightFree₁)
  have halves₂ : Halves (unlinked (unlinked heap left) (left + 2 ^ k)) starts
      left k :=
    ⟨halves.left_start, halves.right_start, halves.left_order,
      halves.right_order, halves.small, halves.aligned⟩
  have index : k + 1 - heap.minOrder = k - heap.minOrder + 1 := by omega
  refine ⟨_, enlist_joined inv₂ halves₂ (by simp) (by simp) ?_ ?_ index, ?_⟩
  · intro isLive
    exact inv.live_taken _ isLive leftFree
  · intro isLive
    exact inv.live_taken _ isLive rightFree
  · simp only [order_unlinked, minOrder_unlinked, halves.left_order,
      halves.right_order]
    constructor
    · rw [Function.update_of_ne (by omega), Function.update_self,
        Function.update_self]
    · rw [Function.update_self, Function.update_of_ne (by omega),
        Function.update_of_ne (by omega)]
    · intro j notHere notAbove
      rw [Function.update_of_ne notAbove, Function.update_of_ne notHere,
        Function.update_of_ne notHere]

end Merge

/-! ## Merging a released block with its free buddy -/

section First

variable
  {heap : Heap}
  {starts : Finset Nat}
  {lists : Nat → List Nat}
  {live : List Nat}
  {bl b i : Nat}

/-- Unlinking a listed block keeps the links of a live one. -/
theorem links_of_live
    (inv : HeapInv heap starts lists live)
    (isLive : bl ∈ live)
    (listed : b ∈ lists i) :
    (unlinked heap b).next bl = heap.next bl ∧
      (unlinked heap b).prev bl = heap.prev bl := by
  have unlisted := inv.not_listed (inv.live_taken bl isLive) i
  have neighbours := inv.listing.neighbours listed
  rw [next_unlinked, prev_unlinked, if_neg, if_neg]
  · exact ⟨rfl, rfl⟩
  · rintro ⟨notNull, rfl⟩
    exact unlisted (neighbours.1 notNull)
  · rintro ⟨notNull, rfl⟩
    exact unlisted (neighbours.2 notNull)

/-- The head of the list once the buddy is off it. -/
theorem headOf_unlinked
    (inv : HeapInv heap starts lists live)
    (listed : b ∈ lists i)
    (sameOrder : heap.order b = heap.order bl) :
    headOf (unlinked heap b) bl =
      if headOf heap bl = b then heap.next b else headOf heap bl := by
  have index := inv.listed_index listed
  have headIff := inv.listing.prev_eq_null_iff listed
  rw [headOf, orderLists_unlinked, order_unlinked, minOrder_unlinked,
    sameOrder, headOf]
  rw [← index, sameOrder] at headIff
  simp only [headIff, and_true]

/-- Unlinking the released block after its buddy was unlinked. -/
theorem unlink_after_buddy
    (inv : HeapInv heap starts lists live)
    (isLive : bl ∈ live)
    (listed : b ∈ lists i)
    (sameOrder : heap.order b = heap.order bl)
    (first : heap.prev bl = 0)
    (safe : UnlinkSafe heap bl b) :
    unlinked (unlinked heap b) bl = (unlinked heap b).setTaken bl 1 := by
  rcases links_of_live inv isLive listed with ⟨sameNext, samePrev⟩
  have head : headOf (unlinked heap b) bl = heap.next bl := by
    rw [headOf_unlinked inv listed sameOrder]
    exact (safe.1 first).symm
  apply unlinked_of_passed
  · intro _
    rw [sameNext, head]
  · intro notFirst
    rw [samePrev] at notFirst
    exact (notFirst first).elim
  · rw [sameNext, samePrev, first]
    intro notNull
    have inv₁ := inv.unlink listed
    have range := (inv₁.inRange (inv.live_starts bl isLive)).2
    rw [← head] at notNull ⊢
    have member := (inv₁.listing.list _ range).head_mem notNull
    exact (inv₁.listing.prev_eq_null_iff member).mpr rfl

/--
Unlinking the released block before its buddy, which heads the list: both
removals make the successor of the buddy the head.
-/
theorem unlink_clash
    (inv : HeapInv heap starts lists live)
    (listed : b ∈ lists i)
    (sameOrder : heap.order b = heap.order bl)
    (first : heap.prev bl = 0)
    (isHead : headOf heap bl = b)
    (safe : UnlinkSafe heap bl b) :
    unlinked (unlinked heap bl) b = (unlinked heap b).setTaken bl 1 := by
  have index := inv.listed_index listed
  have nextEq : heap.next bl = heap.next b := by
    rw [safe.1 first, if_pos isHead]
  have prevB : heap.prev b = 0 := by
    rw [inv.listing.prev_eq_null_iff listed, ← index, sameOrder]
    exact isHead
  have nextB : (unlinked heap bl).next b = heap.next b := by
    rw [next_unlinked, if_neg (fun both => both.1 first)]
  have prevB' : (unlinked heap bl).prev b = 0 := by
    rw [prev_unlinked, nextEq, if_neg, prevB]
    rintro ⟨_, same⟩
    exact (inv.neighbours_ne listed).1 same.symm
  apply Heap.eq_of_fields <;> first | rfl | intro other
  · rw [orderLists_unlinked, nextB, prevB', order_unlinked, minOrder_unlinked,
      orderLists_unlinked, first, nextEq, sameOrder]
    show _ = (unlinked heap b).orderLists other
    rw [orderLists_unlinked, prevB, sameOrder]
    split <;> rfl
  · simp
  · simp only [taken_unlinked, Heap.taken_setTaken]
    split <;> split <;> rfl
  · rw [next_unlinked, prevB', if_neg (by simp), next_unlinked, first,
      if_neg (by simp), Heap.next_setTaken, next_unlinked, prevB,
      if_neg (by simp)]
  · rw [prev_unlinked, nextB, prevB', prev_unlinked, nextEq, first,
      Heap.prev_setTaken, prev_unlinked, prevB]
    split <;> rfl

/-- Unlinking the released block before its buddy is unlinked. -/
theorem unlink_before_buddy
    (inv : HeapInv heap starts lists live)
    (isLive : bl ∈ live)
    (listed : b ∈ lists i)
    (sameOrder : heap.order b = heap.order bl)
    (safe : UnlinkSafe heap bl b)
    (last : heap.prev bl ≠ 0 → heap.next bl = 0) :
    unlinked (unlinked heap bl) b = (unlinked heap b).setTaken bl 1 := by
  have range := (inv.inRange (inv.live_starts bl isLive)).2
  have list := inv.listing.list _ range
  by_cases clash : heap.prev bl = 0 ∧ headOf heap bl = b
  · exact unlink_clash inv listed sameOrder clash.1 clash.2 safe
  · have marked : unlinked heap bl = heap.setTaken bl 1 := by
      apply unlinked_of_passed
      · intro first
        rw [safe.1 first, if_neg (fun isHead => clash ⟨first, isHead⟩)]
      · exact safe.2
      · intro notNull
        have first : heap.prev bl = 0 := by
          by_contra notFirst
          exact notNull (last notFirst)
        have nextEq : heap.next bl = headOf heap bl := by
          rw [safe.1 first, if_neg (fun isHead => clash ⟨first, isHead⟩)]
        rw [nextEq] at notNull ⊢
        have member := list.head_mem notNull
        rw [first]
        exact (inv.listing.prev_eq_null_iff member).mpr rfl
    rw [marked, unlinked_setTaken]

/-- Where a release is harmless, both halves are unlinked as if listed. -/
theorem unlinked_halves
    {left k : Nat}
    (inv : HeapInv heap starts lists live)
    (halves : Halves heap starts left k)
    (isLive : bl ∈ live)
    (free : heap.taken b = 0)
    (pair : (bl = left ∧ b = left + 2 ^ k) ∨ (b = left ∧ bl = left + 2 ^ k))
    (safe : UnlinkSafe heap bl b) :
    b ∈ lists (heap.order b - heap.minOrder) ∧
      unlinked (unlinked heap left) (left + 2 ^ k) =
        (unlinked heap b).setTaken bl 1 := by
  have stale := inv.stale bl isLive
  rcases pair with ⟨rfl, rfl⟩ | ⟨rfl, rfl⟩
  · have listed := inv.mem_list halves.right_start free
    refine ⟨listed, unlink_before_buddy inv isLive listed
      (halves.right_order.trans halves.left_order.symm) safe ?_⟩
    intro notFirst
    rcases stale with first | ⟨_, last, _⟩
    · exact (notFirst first).elim
    · exact last
  · have listed := inv.mem_list halves.left_start free
    refine ⟨listed, unlink_after_buddy inv isLive listed
      (halves.left_order.trans halves.right_order.symm) ?_ safe⟩
    rcases stale with first | ⟨_, _, before⟩
    · exact first
    · -- a right half was never behind its buddy
      have positive := Nat.two_pow_pos k
      rw [halves.right_order, ← buddy_of_aligned halves.aligned,
        buddy_buddy, buddy_of_aligned halves.aligned] at before
      omega

/-- Two halves which are on no list, and which no client holds. -/
structure Unlisted
    (heap : Heap)
    (starts : Finset Nat)
    (live : List Nat)
    (left k : Nat) :
    Prop where
  halves : Halves heap starts left k
  left_taken : heap.taken left ≠ 0
  right_taken : heap.taken (left + 2 ^ k) ≠ 0
  left_dead : left ∉ live
  right_dead : left + 2 ^ k ∉ live

/-- So they are once the buddy is unlinked and the block itself released. -/
theorem unlisted_of_live
    (inv : HeapInv heap starts lists live)
    {left k : Nat}
    (halves : Halves heap starts left k)
    (isLive : bl ∈ live)
    (free : heap.taken b = 0)
    (pair : (bl = left ∧ b = left + 2 ^ k) ∨
      (b = left ∧ bl = left + 2 ^ k)) :
    (unlinked heap b).taken bl ≠ 0 ∧
      Unlisted ((unlinked heap b).setTaken bl 1) starts (live.erase bl) left
        k := by
  have taken : (unlinked heap b).taken bl ≠ 0 := by
    rw [taken_unlinked]
    split
    · exact one_ne_zero
    · exact inv.live_taken bl isLive
  have blDead : bl ∉ live.erase bl := inv.live_nodup.not_mem_erase
  have bDead : b ∉ live.erase bl := by
    intro isLive
    exact inv.live_taken b (List.mem_of_mem_erase isLive) free
  refine ⟨taken, ⟨halves.left_start, halves.right_start,
    by simpa using halves.left_order, by simpa using halves.right_order,
    halves.small, halves.aligned⟩, ?_, ?_, ?_, ?_⟩
  · rcases pair with ⟨rfl, rfl⟩ | ⟨rfl, rfl⟩ <;> simp
  · rcases pair with ⟨rfl, rfl⟩ | ⟨rfl, rfl⟩ <;> simp
  · rcases pair with ⟨rfl, _⟩ | ⟨rfl, _⟩
    · exact blDead
    · exact bDead
  · rcases pair with ⟨_, rfl⟩ | ⟨_, rfl⟩
    · exact bDead
    · exact blDead

/-- `merge` of a released block with its free buddy. -/
theorem joined_of_live
    (inv : HeapInv heap starts lists live)
    {left k : Nat}
    (halves : Halves heap starts left k)
    (isLive : bl ∈ live)
    (free : heap.taken b = 0)
    (pair : (bl = left ∧ b = left + 2 ^ k) ∨ (b = left ∧ bl = left + 2 ^ k))
    (safe : UnlinkSafe heap bl b) :
    ∃ lists', HeapInv (joined heap left k) (starts.erase (left + 2 ^ k))
      lists' (live.erase bl) := by
  rcases unlinked_halves inv halves isLive free pair safe with
    ⟨listed, unlinks⟩
  rcases unlisted_of_live inv halves isLive free pair with
    ⟨taken, unlisted⟩
  rw [joined, unlinks]
  exact ⟨_, enlist_joined (((inv.unlink listed).setTaken taken).retire bl)
    unlisted.halves unlisted.left_taken unlisted.right_taken
    unlisted.left_dead unlisted.right_dead rfl⟩

end First

/-! ## Climbing -/

theorem enclosing_aligned (bl k : Nat) : 2 ^ k ∣ enclosing bl k :=
  Nat.dvd_mul_left _ _

/-- Going up one order is taking the parent. -/
theorem enclosing_succ (bl k : Nat) :
    enclosing bl (k + 1) = parent (enclosing bl k) k := by
  rw [parent, enclosing, enclosing, Nat.pow_succ, ← Nat.div_div_eq_div_mul,
    ← Nat.div_div_eq_div_mul, Nat.mul_div_cancel _ (Nat.two_pow_pos k)]

theorem enclosing_self
    {bl k : Nat}
    (aligned : 2 ^ k ∣ bl) :
    enclosing bl k = bl :=
  Nat.div_mul_cancel aligned

/--
What the merging loop has reached: the enclosing block of order `k` is free,
and outside of it the headers are those of the heap `heap₀` before the call.
-/
structure Climbed
    (heap₀ : Heap)
    (bl : Nat)
    (heap : Heap)
    (k : Nat) :
    Prop where
  order_eq : heap.order (enclosing bl k) = k
  taken_eq : heap.taken (enclosing bl k) = 0
  max_eq : heap.maxOrder = heap₀.maxOrder
  above : heap₀.order bl < k
  whole : ∀ j < k, heap₀.order bl ≤ j → WholeFree heap₀ bl j
  frame : ∀ other,
    other < enclosing bl k ∨ enclosing bl k + 2 ^ k ≤ other →
      heap.order other = heap₀.order other ∧
        heap.taken other = heap₀.taken other

section Climb

variable
  {heap₀ heap : Heap}
  {starts : Finset Nat}
  {lists : Nat → List Nat}
  {live : List Nat}
  {bl k : Nat}

/-- The buddy of the block reached lies outside of it. -/
theorem buddy_outside
    {m k : Nat}
    (aligned : 2 ^ k ∣ m) :
    buddy m k < m ∧ buddy m k + 2 ^ k = m ∨ m + 2 ^ k ≤ buddy m k := by
  rcases parent_halves aligned with ⟨left, right⟩ | ⟨left, right⟩
  · right
    omega
  · left
    have positive := Nat.two_pow_pos k
    omega

/-- One more merge. -/
theorem climbed_joined
    (maxEq : heap.maxOrder = heap₀.maxOrder)
    (above : heap₀.order bl ≤ k)
    (whole : ∀ j ≤ k, heap₀.order bl ≤ j → WholeFree heap₀ bl j)
    (frame : ∀ other,
      other < enclosing bl k ∨ enclosing bl k + 2 ^ k ≤ other →
        heap.order other = heap₀.order other ∧
          heap.taken other = heap₀.taken other) :
    Climbed heap₀ bl (joined heap (enclosing bl (k + 1)) k) (k + 1) where
  order_eq := by rw [order_joined, if_pos rfl]
  taken_eq := by simp [joined]
  max_eq := maxEq
  above := by omega
  whole j below := whole j (by omega)
  frame other outside := by
    have positive := Nat.two_pow_pos k
    rw [Nat.pow_succ] at outside
    have halves := parent_halves (enclosing_aligned bl k)
    rw [← enclosing_succ] at halves
    rw [order_joined, if_neg (by omega), taken_joined _ _ _ _ (by omega)
      (by omega)]
    apply frame
    omega

/-- The block reached and its whole buddy are two halves. -/
theorem climbed_halves
    {m : Nat}
    (inv : HeapInv heap starts lists live)
    (start : m ∈ starts)
    (order : heap.order m = k)
    (small : k < heap.maxOrder)
    (whole : heap.order (buddy m k) = k) :
    Halves heap starts (parent m k) k := by
  have aligned := inv.aligned start order
  have buddyStart := (inv.buddy_start start order small).1
  have members : parent m k ∈ starts ∧ parent m k + 2 ^ k ∈ starts := by
    rcases parent_halves aligned with ⟨left, right⟩ | ⟨left, right⟩
    · exact ⟨left ▸ start, right ▸ buddyStart⟩
    · exact ⟨left ▸ buddyStart, right ▸ start⟩
  have orders : heap.order (parent m k) = k ∧
      heap.order (parent m k + 2 ^ k) = k := by
    rcases parent_halves aligned with ⟨left, right⟩ | ⟨left, right⟩
    · rw [← right, ← left]
      exact ⟨order, whole⟩
    · rw [← right, ← left]
      exact ⟨whole, order⟩
  exact ⟨members.1, members.2, orders.1, orders.2, small, parent_aligned m k⟩

/-- `merge` gives up on a buddy which has been split. -/
theorem merge_stops
    {m : Nat}
    (inv : HeapInv heap starts lists live)
    (start : m ∈ starts)
    (order : heap.order m = k)
    (small : k < heap.maxOrder)
    (split : heap.order (buddy m k) ≠ k)
    (free : heap.taken (buddy m k) = 0)
    (safe : NeighbourSafe heap m (buddy m k) k) :
    merge heap m = some (0, heap) := by
  have buddyStart := inv.buddy_start start order small
  have leftBuddy := clear_bit inv start (by omega)
  rw [order] at leftBuddy
  rw [merge, if_neg (by omega)]
  simp only [order, leftBuddy]
  rcases parent_halves (inv.aligned start order) with
    ⟨left, right⟩ | ⟨left, right⟩
  · rw [← left, inv.getBuddy_eq order small, order,
      if_neg (inv.ne_null buddyStart.1), if_pos (Ne.symm split)]
  · -- the left neighbour is compared with its own sibling
    have sibling := inv.sibling_start start order small split
    have positive := Nat.two_pow_pos k
    rw [← left, sibling.2, if_neg (inv.ne_null sibling.1),
      if_pos (safe ⟨free, split, by omega⟩).symm]

/-- The neighbours are still safe where merging has come to. -/
theorem climbed_neighbour
    (climbed : Climbed heap₀ bl heap k)
    (safe : ClimbSafe heap₀ bl)
    (small : k < heap.maxOrder)
    (within : heap.order (buddy (enclosing bl k) k) ≤ k) :
    NeighbourSafe heap (enclosing bl k) (buddy (enclosing bl k) k) k := by
  have outside := buddy_outside (enclosing_aligned bl k)
  have sameBuddy := climbed.frame (buddy (enclosing bl k) k) (by omega)
  rintro ⟨free, split, before⟩
  rw [sameBuddy.1] at within split ⊢
  rw [sameBuddy.2] at free
  have shorter : 2 ^ heap₀.order (buddy (enclosing bl k) k) < 2 ^ k :=
    Nat.pow_lt_pow_right (by omega) (Nat.lt_of_le_of_ne within split)
  rw [(climbed.frame _ (Or.inl (by omega))).1]
  exact safe k (climbed.max_eq ▸ small) climbed.above climbed.whole
    ⟨free, split, before⟩

/-- One pass of the merging loop: it stops, or joins two free halves. -/
theorem climb_pass
    (fuel : Nat)
    (inv : HeapInv heap starts lists live)
    (climbed : Climbed heap₀ bl heap k)
    (start : enclosing bl k ∈ starts)
    (safe : ClimbSafe heap₀ bl) :
    mergeLoop (fuel + 1) heap (enclosing bl k) = some heap ∨
      (mergeLoop (fuel + 1) heap (enclosing bl k) =
          mergeLoop fuel (joined heap (enclosing bl (k + 1)) k)
            (enclosing bl (k + 1)) ∧
        Halves heap starts (enclosing bl (k + 1)) k ∧
        heap.taken (enclosing bl (k + 1)) = 0 ∧
        heap.taken (enclosing bl (k + 1) + 2 ^ k) = 0 ∧
        Climbed heap₀ bl (joined heap (enclosing bl (k + 1)) k) (k + 1)) := by
  have order := climbed.order_eq
  have upper := inv.order_le start
  have aligned := enclosing_aligned bl k
  rw [mergeLoop]
  by_cases top : k = heap.maxOrder
  · rw [if_pos (order.trans top)]
    exact .inl rfl
  have small : k < heap.maxOrder := by omega
  have buddyStart := inv.buddy_start start order small
  rw [if_neg (by omega), inv.getBuddy_eq order small,
    if_neg (inv.ne_null buddyStart.1)]
  by_cases free : heap.taken (buddy (enclosing bl k) k) = 0
  · have outside := buddy_outside aligned
    have sameBuddy := climbed.frame (buddy (enclosing bl k) k) (by omega)
    rw [if_neg (not_not.mpr free)]
    by_cases whole : heap.order (buddy (enclosing bl k) k) = k
    · have halves := climbed_halves inv start order small whole
      have members := parent_halves aligned
      have parentEq := enclosing_succ bl k
      rw [merge_eq inv halves (members.imp And.left And.right),
        Option.bind_some]
      dsimp only
      rw [if_neg (inv.ne_null halves.left_start), ← parentEq]
      rw [← parentEq] at halves members
      have frees : heap.taken (enclosing bl (k + 1)) = 0 ∧
          heap.taken (enclosing bl (k + 1) + 2 ^ k) = 0 := by
        rcases members with ⟨left, right⟩ | ⟨left, right⟩
        · rw [← right, ← left]
          exact ⟨climbed.taken_eq, free⟩
        · rw [← right, ← left]
          exact ⟨free, climbed.taken_eq⟩
      refine .inr ⟨rfl, halves, frees.1, frees.2, ?_⟩
      apply climbed_joined climbed.max_eq (Nat.le_of_lt climbed.above)
      · intro j atMost atLeast
        rcases Nat.lt_or_eq_of_le atMost with below | rfl
        · exact climbed.whole j below atLeast
        · exact ⟨sameBuddy.1.symm.trans whole, sameBuddy.2.symm.trans free⟩
      · exact climbed.frame
    · have neighbour := climbed_neighbour climbed safe small buddyStart.2
      rw [merge_stops inv start order small whole free neighbour,
        Option.bind_some]
      exact .inl rfl
  · rw [if_pos free]
    exact .inl rfl

/-- The merging loop, once the block reached is on its list. -/
theorem mergeLoop_spec
    (fuel : Nat)
    (inv : HeapInv heap starts lists live)
    (climbed : Climbed heap₀ bl heap k)
    (start : enclosing bl k ∈ starts)
    (safe : ClimbSafe heap₀ bl)
    (enough : heap.maxOrder - k < fuel) :
    ∃ heap' starts' lists',
      mergeLoop fuel heap (enclosing bl k) = some heap' ∧
      HeapInv heap' starts' lists' live := by
  induction fuel generalizing heap starts lists k with
  | zero => omega
  | succ fuel induction =>
      rcases climb_pass fuel inv climbed start safe with
        stops | ⟨goes, halves, leftFree, rightFree, climbed'⟩
      · exact ⟨heap, starts, lists, stops, inv⟩
      · rcases joined_of_free inv halves leftFree rightFree with
          ⟨lists', inv', _⟩
        have small := halves.small
        have positive := Nat.two_pow_pos k
        rw [goes]
        apply induction inv' climbed'
        · exact Finset.mem_erase.mpr ⟨by omega, halves.left_start⟩
        · rw [maxOrder_joined]
          omega

end Climb

/-! ## The whole of `bfree` -/

/-- The loop may pass more often than there are orders. -/
theorem mergeFuel_large : ∃ fuel, mergeFuel = fuel + 1 ∧ 30 < fuel := by
  refine ⟨2 ^ 23 - 1, ?_, by omega⟩
  rw [mergeFuel]
  omega

/-- A harmless release which begins with a merge. -/
structure FirstMerge
    (heap : Heap)
    (starts : Finset Nat)
    (bl b k : Nat) :
    Prop where
  halves : Halves heap starts (enclosing bl (k + 1)) k
  free : heap.taken b = 0
  pair :
    (bl = enclosing bl (k + 1) ∧ b = enclosing bl (k + 1) + 2 ^ k) ∨
      (b = enclosing bl (k + 1) ∧ bl = enclosing bl (k + 1) + 2 ^ k)
  unlinkSafe : UnlinkSafe heap bl b
  climbSafe : ClimbSafe heap bl
  climbed : Climbed heap bl (joined heap (enclosing bl (k + 1)) k) (k + 1)

section Free

variable
  {heap : Heap}
  {starts : Finset Nat}
  {lists : Nat → List Nat}
  {live : List Nat}
  {bl b k : Nat}

/-- What is left of the two halves begins where the block reached does. -/
theorem FirstMerge.start (merges : FirstMerge heap starts bl b k) :
    enclosing bl (k + 1) ∈
      starts.erase (enclosing bl (k + 1) + 2 ^ k) := by
  have positive := Nat.two_pow_pos k
  exact Finset.mem_erase.mpr ⟨by omega, merges.halves.left_start⟩

/--
The block of the whole heap is leaked, a block whose buddy is in use or split
is listed, and any other block is merged and carried up.
-/
theorem bfree_cases
    (inv : HeapInv heap starts lists live)
    (isLive : bl ∈ live)
    (safe : FreeSafe heap bl) :
    (heap.order bl = heap.maxOrder ∧
        bfree (bl + sizeofBuddyBlock) heap = some heap) ∨
      bfree (bl + sizeofBuddyBlock) heap = some (inserted heap bl) ∨
      ∃ fuel b, 30 < fuel ∧
        FirstMerge heap starts bl b (heap.order bl) ∧
        bfree (bl + sizeofBuddyBlock) heap =
          mergeLoop fuel
            (joined heap (enclosing bl (heap.order bl + 1)) (heap.order bl))
            (enclosing bl (heap.order bl + 1)) := by
  have start := inv.live_starts bl isLive
  have notNull := inv.ne_null start
  have upper := inv.order_le start
  have aligned := inv.aligned start rfl
  have headerEq := inv.header_eq start
  rw [bfree, if_neg (by omega)]
  simp only [headerEq]
  by_cases top : heap.order bl = heap.maxOrder
  · rw [if_pos (by rw [getBuddy, if_pos top])]
    exact .inl ⟨top, rfl⟩
  right
  have small : heap.order bl < heap.maxOrder := by omega
  have buddyStart := inv.buddy_start start rfl small
  rw [inv.getBuddy_eq rfl small, if_neg (inv.ne_null buddyStart.1)]
  by_cases keep : heap.order (buddy bl (heap.order bl)) ≠ heap.order bl ∨
      heap.taken (buddy bl (heap.order bl)) ≠ 0
  · rw [if_pos keep, insertBlock_eq notNull (inv.inRange start)]
    exact .inl rfl
  right
  rw [if_neg keep]
  rw [not_or, not_not, not_not] at keep
  rcases keep with ⟨whole, free⟩
  have both : UnlinkSafe heap bl (buddy bl (heap.order bl)) ∧
      ClimbSafe heap bl := by
    rcases safe with isTop | apart | taken | both
    · exact (top isTop).elim
    · exact (apart whole).elim
    · exact (taken free).elim
    · exact both
  have here := enclosing_self aligned
  have halves := climbed_halves inv start rfl small whole
  have members := parent_halves aligned
  rcases mergeFuel_large with ⟨fuel, fuelEq, enough⟩
  rw [fuelEq, mergeLoop, if_neg top, inv.getBuddy_eq rfl small,
    if_neg (inv.ne_null buddyStart.1), if_neg (not_not.mpr free),
    merge_eq inv halves (members.imp And.left And.right), Option.bind_some]
  dsimp only
  rw [if_neg (inv.ne_null halves.left_start)]
  have parentEq := enclosing_succ bl (heap.order bl)
  rw [here] at parentEq
  rw [← parentEq] at halves members ⊢
  refine ⟨fuel, _, enough, ⟨halves, free, members, both.1, both.2, ?_⟩, rfl⟩
  apply climbed_joined rfl le_rfl
  · intro j atMost atLeast
    have same : j = heap.order bl := by omega
    rw [same, WholeFree, here]
    exact ⟨whole, free⟩
  · exact fun _ _ => ⟨rfl, rfl⟩

/-- A harmless release keeps the invariant. -/
theorem bfree_spec
    (inv : HeapInv heap starts lists live)
    (isLive : bl ∈ live)
    (safe : FreeSafe heap bl) :
    ∃ heap' starts' lists',
      bfree (bl + sizeofBuddyBlock) heap = some heap' ∧
      HeapInv heap' starts' lists' (live.erase bl) := by
  rcases bfree_cases inv isLive safe with
    ⟨_, leaks⟩ | stands | ⟨fuel, b, enough, merges, goes⟩
  · exact ⟨heap, starts, lists, leaks, inv.retire bl⟩
  · exact ⟨_, starts, _, stands, (inv.retire bl).enlist
      (inv.live_starts bl isLive) (inv.live_taken bl isLive)
      inv.live_nodup.not_mem_erase rfl⟩
  · rcases joined_of_live inv merges.halves isLive merges.free merges.pair
      merges.unlinkSafe with ⟨lists', inv'⟩
    rw [goes]
    apply mergeLoop_spec _ inv' merges.climbed merges.start merges.climbSafe
    have large := inv'.geometry.maxOrder_le
    omega

end Free

end ForsKernel.Buddy
