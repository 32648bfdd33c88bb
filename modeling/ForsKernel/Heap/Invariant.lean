import Mathlib.Data.List.Nodup
import ForsKernel.Lib.Dyadic
import ForsKernel.Heap.FreeLists

/-!
# The invariant of the buddy heap

The blocks tile the heap, the free ones are exactly those on the lists, and
the live ones keep the links they had when they were taken.  `HeapInv` is
closed under the primitive edits of the allocator: unlinking a listed block,
listing an unlisted one, halving a block and joining two buddies.  The
functions of the allocator are compositions of these edits.
-/

namespace ForsKernel.Buddy

open ForsKernel.Lib.CInt
open ForsKernel.Lib.Dyadic
open ForsKernel.Lib.LinkedList

/-- The parameters a heap is set up with. -/
structure Geometry (heap : Heap) : Prop where
  minOrder_ge : 5 ≤ heap.minOrder
  minOrder_le : heap.minOrder ≤ heap.maxOrder
  maxOrder_le : heap.maxOrder ≤ 30
  aligned : 2 ^ heap.maxOrder ∣ heap.memoryStart
  start_pos : 0 < heap.memoryStart
  fits : heap.memoryStart + 2 ^ heap.maxOrder ≤ 2 ^ 64

theorem Geometry.congr
    {heap heap' : Heap}
    (geometry : Geometry heap)
    (sameMin : heap'.minOrder = heap.minOrder)
    (sameMax : heap'.maxOrder = heap.maxOrder)
    (sameStart : heap'.memoryStart = heap.memoryStart) :
    Geometry heap' := by
  rcases geometry with ⟨_, _, _, _, _, _⟩
  constructor <;> simp_all

/--
The links a live block kept.  It was first on its list, or it was split off
a larger block and stood last, behind its right half.
-/
def Stale
    (heap : Heap)
    (bl : Nat) :
    Prop :=
  heap.prev bl = 0 ∨
    (heap.prev bl = buddy bl (heap.order bl) ∧ heap.next bl = 0 ∧
      bl < buddy bl (heap.order bl))

/-- The invariant: `starts` are the blocks and `live` the allocated ones. -/
structure HeapInv
    (heap : Heap)
    (starts : Finset Nat)
    (lists : Nat → List Nat)
    (live : List Nat) :
    Prop where
  geometry : Geometry heap
  tiling : Tiling heap.memoryStart heap.maxOrder starts heap.order
  minOrder_le : ∀ bl ∈ starts, heap.minOrder ≤ heap.order bl
  listing : Listing heap lists
  listed : ∀ i bl, bl ∈ lists i ↔
    bl ∈ starts ∧ heap.order bl = heap.minOrder + i ∧ heap.taken bl = 0
  live_nodup : live.Nodup
  live_starts : ∀ bl ∈ live, bl ∈ starts
  live_taken : ∀ bl ∈ live, heap.taken bl ≠ 0
  stale : ∀ bl ∈ live, Stale heap bl

namespace HeapInv

variable
  {heap heap' : Heap}
  {starts : Finset Nat}
  {lists : Nat → List Nat}
  {live : List Nat}
  {bl i : Nat}

theorem order_le
    (inv : HeapInv heap starts lists live)
    (member : bl ∈ starts) :
    heap.order bl ≤ heap.maxOrder :=
  inv.tiling.order_le member

theorem ne_null
    (inv : HeapInv heap starts lists live)
    (member : bl ∈ starts) :
    bl ≠ 0 := by
  have inside := inv.tiling.inside bl member
  have positive := inv.geometry.start_pos
  omega

/-- The header in front of the memory a client was given. -/
theorem header_eq
    (inv : HeapInv heap starts lists live)
    (member : bl ∈ starts) :
    header (bl + sizeofBuddyBlock) = bl := by
  have inside := inv.tiling.inside bl member
  have fits := inv.geometry.fits
  have positive := Nat.two_pow_pos (heap.order bl)
  rw [header, sizeofBuddyBlock]
  omega

theorem inRange
    (inv : HeapInv heap starts lists live)
    (member : bl ∈ starts) :
    heap.InRange (heap.order bl) := by
  have lower := inv.minOrder_le bl member
  have upper := inv.order_le member
  have large := inv.geometry.maxOrder_le
  constructor
  · exact lower
  · rw [buddyNumLists]
    omega

theorem listed_start
    (inv : HeapInv heap starts lists live)
    (member : bl ∈ lists i) :
    bl ∈ starts :=
  ((inv.listed i bl).mp member).1

theorem listed_index
    (inv : HeapInv heap starts lists live)
    (member : bl ∈ lists i) :
    heap.order bl - heap.minOrder = i := by
  have order := ((inv.listed i bl).mp member).2.1
  omega

/-- A free block is on the list of its order. -/
theorem mem_list
    (inv : HeapInv heap starts lists live)
    (member : bl ∈ starts)
    (free : heap.taken bl = 0) :
    bl ∈ lists (heap.order bl - heap.minOrder) := by
  have lower := inv.minOrder_le bl member
  rw [inv.listed]
  exact ⟨member, by omega, free⟩

theorem not_listed
    (inv : HeapInv heap starts lists live)
    (taken : heap.taken bl ≠ 0)
    (j : Nat) :
    bl ∉ lists j := by
  intro member
  exact taken ((inv.listed j bl).mp member).2.2

section Order

variable {k : Nat}

theorem aligned
    (inv : HeapInv heap starts lists live)
    (member : bl ∈ starts)
    (order : heap.order bl = k) :
    2 ^ k ∣ bl := by
  rw [← order]
  exact inv.tiling.aligned bl member

theorem getBuddy_eq
    (inv : HeapInv heap starts lists live)
    (order : heap.order bl = k)
    (small : k < heap.maxOrder) :
    getBuddy heap bl = buddy bl k := by
  have large := inv.geometry.maxOrder_le
  rw [getBuddy, order, if_neg (by omega), intShlOne_of_lt (by omega), buddy]

/-- The buddy address of a block starts a block. -/
theorem buddy_start
    (inv : HeapInv heap starts lists live)
    (member : bl ∈ starts)
    (order : heap.order bl = k)
    (small : k < heap.maxOrder) :
    buddy bl k ∈ starts ∧ heap.order (buddy bl k) ≤ k := by
  subst order
  exact inv.tiling.buddy_mem inv.geometry.aligned member small

/-- A buddy which was split has a sibling next to it. -/
theorem sibling_start
    (inv : HeapInv heap starts lists live)
    (member : bl ∈ starts)
    (order : heap.order bl = k)
    (small : k < heap.maxOrder)
    (split : heap.order (buddy bl k) ≠ k) :
    buddy bl k + 2 ^ heap.order (buddy bl k) ∈ starts ∧
      getBuddy heap (buddy bl k) =
        buddy bl k + 2 ^ heap.order (buddy bl k) := by
  have start := inv.buddy_start member order small
  have smaller : heap.order (buddy bl k) < k := by omega
  have sibling := inv.buddy_start start.1 rfl (by omega)
  have aligned : 2 ^ (heap.order (buddy bl k) + 1) ∣ buddy bl k :=
    (Nat.pow_dvd_pow 2 smaller).trans
      (buddy_aligned (inv.aligned member order))
  rw [inv.getBuddy_eq rfl (by omega)]
  rw [buddy_of_aligned aligned] at sibling ⊢
  exact ⟨sibling.1, rfl⟩

end Order

/-- Nothing outside the blocks' own headers matters. -/
theorem congr
    (inv : HeapInv heap starts lists live)
    (sameMin : heap'.minOrder = heap.minOrder)
    (sameMax : heap'.maxOrder = heap.maxOrder)
    (sameStart : heap'.memoryStart = heap.memoryStart)
    (sameLists : ∀ i, heap'.orderLists i = heap.orderLists i)
    (same : ∀ bl ∈ starts, heap'.block bl = heap.block bl) :
    HeapInv heap' starts lists live where
  geometry := inv.geometry.congr sameMin sameMax sameStart
  tiling := by
    rw [sameMax, sameStart]
    apply inv.tiling.congr
    intro bl member
    rw [Heap.order, same bl member]
    rfl
  minOrder_le bl member := by
    rw [sameMin, Heap.order, same bl member]
    exact inv.minOrder_le bl member
  listing := by
    apply inv.listing.congr sameLists
    · intro i bl member
      rw [Heap.next, same bl (inv.listed_start member)]
      rfl
    · intro i bl member
      rw [Heap.prev, same bl (inv.listed_start member)]
      rfl
  listed i bl := by
    rw [inv.listed i bl]
    apply and_congr_right
    intro member
    simp only [Heap.order, Heap.taken, sameMin, same bl member]
  live_nodup := inv.live_nodup
  live_starts := inv.live_starts
  live_taken bl member := by
    rw [Heap.taken, same bl (inv.live_starts bl member)]
    exact inv.live_taken bl member
  stale bl member := by
    have kept := inv.stale bl member
    simp only [Stale, Heap.prev, Heap.next, Heap.order] at kept ⊢
    rw [same bl (inv.live_starts bl member)]
    exact kept

/-! ## The four edits -/

/-- Take a free block off its list. -/
theorem unlink
    (inv : HeapInv heap starts lists live)
    (member : bl ∈ lists i) :
    HeapInv (unlinked heap bl) starts
      (Function.update lists i ((lists i).erase bl)) live where
  geometry := inv.geometry.congr rfl rfl rfl
  tiling := inv.tiling
  minOrder_le := inv.minOrder_le
  listing := inv.listing.unlink member (inv.listed_index member)
  listed j other := by
    rw [inv.listing.mem_unlink member, inv.listed, taken_unlinked,
      order_unlinked]
    by_cases same : other = bl
    · simp [same]
    · simp [same, unlinked]
  live_nodup := inv.live_nodup
  live_starts := inv.live_starts
  live_taken other isLive := by
    rw [taken_unlinked]
    split
    · exact one_ne_zero
    · exact inv.live_taken other isLive
  stale other isLive := by
    -- the two links written belong to listed blocks
    have unlisted := inv.not_listed (inv.live_taken other isLive) i
    have neighbours := inv.listing.neighbours member
    rw [Stale, next_unlinked, prev_unlinked, order_unlinked, if_neg, if_neg]
    · exact inv.stale other isLive
    · rintro ⟨notNull, rfl⟩
      exact unlisted (neighbours.2 notNull)
    · rintro ⟨notNull, rfl⟩
      exact unlisted (neighbours.1 notNull)

/-- Put a block which is neither listed nor live on its list. -/
theorem enlist
    (inv : HeapInv heap starts lists live)
    (member : bl ∈ starts)
    (taken : heap.taken bl ≠ 0)
    (dead : bl ∉ live)
    (index : heap.order bl - heap.minOrder = i) :
    HeapInv (inserted heap bl) starts
      (Function.update lists i (bl :: lists i)) live where
  geometry := inv.geometry.congr rfl rfl rfl
  tiling := inv.tiling
  minOrder_le := inv.minOrder_le
  listing := by
    apply inv.listing.insert (inv.ne_null member) (inv.not_listed taken) _ index
    rw [← index]
    exact (inv.inRange member).2
  listed j other := by
    rw [mem_insert, inv.listed, taken_inserted, order_inserted]
    have lower := inv.minOrder_le bl member
    by_cases same : other = bl
    · subst same
      simp only [taken, and_false, false_or, true_and, if_true, and_true,
        member]
      show j = i ↔ heap.order other = heap.minOrder + j
      omega
    · simp [same, inserted]
  live_nodup := inv.live_nodup
  live_starts := inv.live_starts
  live_taken other isLive := by
    rw [taken_inserted, if_neg]
    · exact inv.live_taken other isLive
    · rintro rfl
      exact dead isLive
  stale other isLive := by
    have notBl : other ≠ bl := by
      rintro rfl
      exact dead isLive
    rw [Stale, next_inserted, prev_inserted, order_inserted, if_neg notBl,
      if_neg, if_neg notBl]
    · exact inv.stale other isLive
    · rintro ⟨notNull, rfl⟩
      have range := (inv.inRange member).2
      exact inv.not_listed (inv.live_taken _ isLive) _
        ((inv.listing.list _ range).head_mem notNull)

/-- A live block may be given up. -/
theorem retire
    (inv : HeapInv heap starts lists live)
    (bl : Nat) :
    HeapInv heap starts lists (live.erase bl) :=
  { inv with
    live_nodup := inv.live_nodup.erase bl
    live_starts := fun other member =>
      inv.live_starts other (List.mem_of_mem_erase member)
    live_taken := fun other member =>
      inv.live_taken other (List.mem_of_mem_erase member)
    stale := fun other member =>
      inv.stale other (List.mem_of_mem_erase member) }

/-- A block off the lists may be handed out. -/
theorem claim
    (inv : HeapInv heap starts lists live)
    (member : bl ∈ starts)
    (taken : heap.taken bl ≠ 0)
    (dead : bl ∉ live)
    (stale : Stale heap bl) :
    HeapInv heap starts lists (bl :: live) :=
  { inv with
    live_nodup := List.nodup_cons.mpr ⟨dead, inv.live_nodup⟩
    live_starts := by
      intro other isLive
      rcases List.mem_cons.mp isLive with rfl | old
      · exact member
      · exact inv.live_starts other old
    live_taken := by
      intro other isLive
      rcases List.mem_cons.mp isLive with rfl | old
      · exact taken
      · exact inv.live_taken other old
    stale := by
      intro other isLive
      rcases List.mem_cons.mp isLive with rfl | old
      · exact stale
      · exact inv.stale other old }

/-- Marking a block off the lists as taken changes nothing. -/
theorem setTaken
    (inv : HeapInv heap starts lists live)
    (taken : heap.taken bl ≠ 0) :
    HeapInv (heap.setTaken bl 1) starts lists live where
  geometry := inv.geometry.congr rfl rfl rfl
  tiling := by
    apply inv.tiling.congr
    simp
  minOrder_le other member := by
    rw [Heap.order_setTaken]
    exact inv.minOrder_le other member
  listing := by
    apply inv.listing.congr
    · intro j
      rfl
    · simp
    · simp
  listed j other := by
    rw [inv.listed]
    by_cases same : other = bl
    · subst same
      simp [taken]
    · simp [same]
  live_nodup := inv.live_nodup
  live_starts := inv.live_starts
  live_taken other isLive := by
    rw [Heap.taken_setTaken]
    split
    · exact one_ne_zero
    · exact inv.live_taken other isLive
  stale other isLive := by
    have kept := inv.stale other isLive
    simpa [Stale] using kept

/-- No block starts inside another one. -/
theorem inside_not_start
    (inv : HeapInv heap starts lists live)
    {address : Nat}
    (member : bl ∈ starts)
    (behind : bl < address)
    (inside : address < bl + 2 ^ heap.order bl) :
    address ∉ starts := by
  intro start
  have positive := Nat.two_pow_pos (heap.order address)
  have same := inv.tiling.eq_of_meet member start
    ⟨Nat.le_of_lt behind, inside⟩ ⟨le_rfl, by omega⟩
  omega

/-- The middle of a block does not start one. -/
theorem half_not_start
    (inv : HeapInv heap starts lists live)
    {k : Nat}
    (member : bl ∈ starts)
    (order : heap.order bl = k + 1) :
    bl + 2 ^ k ∉ starts := by
  have positive := Nat.two_pow_pos k
  apply inv.inside_not_start member (by omega)
  rw [order, Nat.pow_succ]
  omega

/-- Halve a block which is neither listed nor live. -/
theorem halve
    (inv : HeapInv heap starts lists live)
    {k : Nat}
    (member : bl ∈ starts)
    (taken : heap.taken bl ≠ 0)
    (dead : bl ∉ live)
    (order : heap.order bl = k + 1)
    (large : heap.minOrder ≤ k) :
    HeapInv
      (((heap.setOrder bl k).setOrder (bl + 2 ^ k) k).setTaken (bl + 2 ^ k) 1)
      (insert (bl + 2 ^ k) starts) lists live := by
  have notStart := inv.half_not_start member order
  have apart : bl ≠ bl + 2 ^ k := by
    have positive := Nat.two_pow_pos k
    omega
  have old : ∀ other ∈ starts, other ≠ bl + 2 ^ k := by
    rintro other isStart rfl
    exact notStart isStart
  have oldLive : ∀ other ∈ live, other ≠ bl := by
    rintro other isLive rfl
    exact dead isLive
  refine ⟨inv.geometry.congr rfl rfl rfl, ?_, ?_, ?_, ?_, inv.live_nodup,
    ?_, ?_, ?_⟩
  · apply inv.tiling.split member order
    · simp
    · simp
    · intro other isStart notBl
      simp [old other isStart, notBl]
  · intro other isStart
    rcases Finset.mem_insert.mp isStart with rfl | isStart
    · simpa using large
    · rw [Heap.order_setTaken, Heap.order_setOrder, if_neg (old other isStart),
        Heap.order_setOrder]
      split
      · exact large
      · exact inv.minOrder_le other isStart
  · apply inv.listing.congr
    · intro j
      rfl
    · simp
    · simp
  · intro j other
    rw [inv.listed]
    by_cases isHalf : other = bl + 2 ^ k
    · subst isHalf
      simp [notStart]
    · by_cases isBl : other = bl
      · subst isBl
        simp [taken]
      · simp [isHalf, isBl]
  · intro other isLive
    exact Finset.mem_insert_of_mem (inv.live_starts other isLive)
  · intro other isLive
    rw [Heap.taken_setTaken, if_neg (old other (inv.live_starts other isLive))]
    simpa using inv.live_taken other isLive
  · intro other isLive
    have kept := inv.stale other isLive
    simpa [Stale, oldLive other isLive,
      old other (inv.live_starts other isLive)] using kept

/-- Join two buddies which are neither listed nor live. -/
theorem join
    (inv : HeapInv heap starts lists live)
    {k : Nat}
    (left : bl ∈ starts)
    (right : bl + 2 ^ k ∈ starts)
    (leftTaken : heap.taken bl ≠ 0)
    (rightTaken : heap.taken (bl + 2 ^ k) ≠ 0)
    (leftDead : bl ∉ live)
    (rightDead : bl + 2 ^ k ∉ live)
    (leftOrder : heap.order bl = k)
    (rightOrder : heap.order (bl + 2 ^ k) = k)
    (aligned : 2 ^ (k + 1) ∣ bl) :
    HeapInv (heap.setOrder bl (k + 1)) (starts.erase (bl + 2 ^ k)) lists
      live := by
  have oldLive : ∀ other ∈ live, other ≠ bl := by
    rintro other isLive rfl
    exact leftDead isLive
  refine ⟨inv.geometry.congr rfl rfl rfl, ?_, ?_, ?_, ?_, inv.live_nodup,
    ?_, ?_, ?_⟩
  · apply inv.tiling.merge left right leftOrder rightOrder aligned
    · simp
    · intro other _ notLeft _
      simp [notLeft]
  · intro other isStart
    have old := inv.minOrder_le other (Finset.mem_of_mem_erase isStart)
    rw [Heap.order_setOrder]
    split
    · rename_i same
      rw [same, leftOrder] at old
      exact Nat.le_succ_of_le old
    · exact old
  · apply inv.listing.congr
    · intro j
      rfl
    · simp
    · simp
  · intro j other
    rw [inv.listed, Heap.taken_setOrder, Heap.order_setOrder,
      Finset.mem_erase]
    by_cases isRight : other = bl + 2 ^ k
    · subst isRight
      simp [rightTaken]
    · by_cases isLeft : other = bl
      · subst isLeft
        simp [leftTaken]
      · simp [isRight, isLeft]
  · intro other isLive
    apply Finset.mem_erase.mpr
    refine ⟨?_, inv.live_starts other isLive⟩
    rintro rfl
    exact rightDead isLive
  · intro other isLive
    simpa using inv.live_taken other isLive
  · intro other isLive
    have kept := inv.stale other isLive
    simpa [Stale, oldLive other isLive] using kept

end HeapInv

end ForsKernel.Buddy
