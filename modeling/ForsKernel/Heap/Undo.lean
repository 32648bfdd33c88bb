import ForsKernel.Heap.Placement

/-!
# Releasing a block right after it was handed out

`bfree` merges a block back as often as `balloc` has split for it, and then
should stop.  It does unless the left neighbour of the block reached is free,
smaller, and of the same order as the block behind it: `merge` then takes
that live block for the other half.  A request served by the whole heap is
never given back at all, because the root block has no buddy.
-/

namespace ForsKernel.Buddy

open ForsKernel.Lib.CInt
open ForsKernel.Lib.Dyadic
open ForsKernel.Lib.LinkedList

/-! ## The free blocks -/

/-- The blocks met by following the links from a list head. -/
inductive OnList
    (heap : Heap)
    (i : Nat) :
    Nat → Prop where
  | head : heap.orderLists i ≠ 0 → OnList heap i (heap.orderLists i)
  | next {bl : Nat} : OnList heap i bl → heap.next bl ≠ 0 →
      OnList heap i (heap.next bl)

/-- A free block with its order: it is on the list of that order. -/
structure FreeBlock
    (heap : Heap)
    (bl order : Nat) :
    Prop where
  minOrder_le : heap.minOrder ≤ order
  order_le : order ≤ heap.maxOrder
  listed : OnList heap (order - heap.minOrder) bl
  order_eq : heap.order bl = order

/-- The same blocks are free, with the same orders. -/
def SameFree (heap heap' : Heap) : Prop :=
  ∀ bl order, FreeBlock heap' bl order ↔ FreeBlock heap bl order

section FreeBlocks

variable
  {heap heap' : Heap}
  {starts : Finset Nat}
  {lists lists' : Nat → List Nat}
  {live live' : List Nat}
  {i : Nat}

theorem onList_empty
    (empty : heap.orderLists i = 0)
    {bl : Nat} :
    ¬ OnList heap i bl := by
  intro reached
  induction reached with
  | head notNull => exact notNull empty
  | next _ _ unreached => exact unreached

/-- From the first cell of a linked sequence all cells are reached. -/
theorem onList_of_linked
    {before first : Nat}
    {rest : List Nat}
    (linked : Linked heap.next heap.prev before (first :: rest) 0)
    (notNull : 0 ∉ rest)
    (reached : OnList heap i first) :
    ∀ bl ∈ first :: rest, OnList heap i bl := by
  induction rest generalizing before first with
  | nil =>
      intro bl member
      rw [List.mem_singleton.mp member]
      exact reached
  | cons second rest induction =>
      have nextEq : heap.next first = second := linked.2.1
      have secondNotNull : second ≠ 0 := by
        rintro rfl
        exact notNull List.mem_cons_self
      have onward : OnList heap i second := by
        rw [← nextEq] at secondNotNull ⊢
        exact reached.next secondNotNull
      intro bl member
      rcases List.mem_cons.mp member with rfl | later
      · exact reached
      · exact induction linked.2.2
          (fun null => notNull (List.mem_cons_of_mem _ null)) onward bl later

/-- Following the links finds exactly the list. -/
theorem onList_iff
    (listing : Listing heap lists)
    (inside : i < buddyNumLists)
    (bl : Nat) :
    OnList heap i bl ↔ bl ∈ lists i := by
  have list := listing.list i inside
  constructor
  · intro reached
    induction reached with
    | head notNull => exact list.head_mem notNull
    | next _ notNull member => exact (listing.neighbours member).1 notNull
  · intro member
    cases cells : lists i with
    | nil =>
        rw [cells] at member
        cases member
    | cons first rest =>
        rw [cells] at list member
        have headEq : heap.orderLists i = first := list.head_eq
        have headNotNull : heap.orderLists i ≠ 0 := by
          rw [headEq]
          exact list.ne_null List.mem_cons_self
        have reached : OnList heap i first := headEq ▸ OnList.head headNotNull
        exact onList_of_linked list.linked
          (fun null => list.null_not_mem (List.mem_cons_of_mem _ null))
          reached bl member

/-- The free blocks of a heap which satisfies the invariant. -/
theorem freeBlock_iff
    (inv : HeapInv heap starts lists live)
    (bl order : Nat) :
    FreeBlock heap bl order ↔
      bl ∈ starts ∧ heap.taken bl = 0 ∧ heap.order bl = order := by
  have large := inv.geometry.maxOrder_le
  constructor
  · rintro ⟨lower, upper, listed, orderEq⟩
    have member := (onList_iff inv.listing
      (inRange_of_le inv lower upper).2 bl).mp listed
    have free := (inv.listed _ bl).mp member
    exact ⟨free.1, free.2.2, orderEq⟩
  · rintro ⟨start, free, rfl⟩
    have range := inv.inRange start
    exact ⟨range.1, inv.order_le start,
      (onList_iff inv.listing range.2 bl).mpr (inv.mem_list start free), rfl⟩

/-- The blocks are as they were, up to their links. -/
def Restored
    (heap heap' : Heap)
    (starts : Finset Nat) :
    Prop :=
  ∀ bl ∈ starts,
    heap'.order bl = heap.order bl ∧ heap'.taken bl = heap.taken bl

theorem Restored.sameFree
    (restored : Restored heap heap' starts)
    (inv : HeapInv heap starts lists live)
    (inv' : HeapInv heap' starts lists' live') :
    SameFree heap heap' := by
  intro bl order
  rw [freeBlock_iff inv, freeBlock_iff inv']
  apply and_congr_right
  intro start
  rw [(restored bl start).1, (restored bl start).2]

end FreeBlocks

/-! ## Merging back -/

/-- What merging `bl` up from order `k` to order `n` does. -/
structure Remerged
    (heap heap' : Heap)
    (starts starts' : Finset Nat)
    (bl k n : Nat) :
    Prop where
  record : SameRecord heap heap'
  order_eq : heap'.order bl = n
  taken_eq : heap'.taken bl = 0
  frame : ∀ other, other ≠ bl →
    (∀ j, k ≤ j → j < n → other ≠ bl + 2 ^ j) →
      heap'.order other = heap.order other ∧
        heap'.taken other = heap.taken other
  starts_iff : ∀ other, other ∈ starts' ↔
    other ∈ starts ∧ ∀ j, k ≤ j → j < n → other ≠ bl + 2 ^ j

section Remerge

variable
  {heap : Heap}
  {starts : Finset Nat}
  {lists : Nat → List Nat}
  {live : List Nat}
  {bl k n : Nat}

/-- One pass of the merging loop over a left half whose right half is free. -/
theorem mergeLoop_halves
    (fuel : Nat)
    (inv : HeapInv heap starts lists live)
    (halves : Halves heap starts bl k)
    (free : heap.taken (bl + 2 ^ k) = 0) :
    mergeLoop (fuel + 1) heap bl = mergeLoop fuel (joined heap bl k) bl := by
  have small := halves.small
  have order := halves.left_order
  have rightEq : getBuddy heap bl = bl + 2 ^ k := by
    rw [inv.getBuddy_eq order small, buddy_of_aligned halves.aligned]
  rw [mergeLoop, if_neg (by omega), rightEq,
    if_neg (inv.ne_null halves.right_start), if_neg (not_not.mpr free),
    merge_eq inv halves (Or.inl rfl), Option.bind_some]
  dsimp only
  rw [if_neg (inv.ne_null halves.left_start)]

/-- The effect of one merge. -/
theorem remerged_joined
    (heap : Heap)
    (starts : Finset Nat)
    (bl k : Nat) :
    Remerged heap (joined heap bl k) starts (starts.erase (bl + 2 ^ k)) bl k
      (k + 1) where
  record := ((((SameRecord.refl heap).unlink bl).unlink _).setOrder bl
    (k + 1)).enlist bl
  order_eq := by rw [order_joined, if_pos rfl]
  taken_eq := by simp [joined]
  frame other notLeft notRight := by
    rw [order_joined, if_neg notLeft,
      taken_joined _ _ _ _ notLeft (notRight k le_rfl (by omega))]
    exact ⟨rfl, rfl⟩
  starts_iff other := by
    rw [Finset.mem_erase]
    constructor
    · rintro ⟨notRight, start⟩
      refine ⟨start, ?_⟩
      intro j lower upper
      rwa [show j = k by omega]
    · rintro ⟨start, notRight⟩
      exact ⟨notRight k le_rfl (by omega), start⟩

theorem Remerged.trans
    {heap₁ heap₂ : Heap}
    {starts₁ starts₂ : Finset Nat}
    {m : Nat}
    (lower : k ≤ m)
    (upper : m ≤ n)
    (first : Remerged heap heap₁ starts starts₁ bl k m)
    (second : Remerged heap₁ heap₂ starts₁ starts₂ bl m n) :
    Remerged heap heap₂ starts starts₂ bl k n where
  record := first.record.trans second.record
  order_eq := second.order_eq
  taken_eq := second.taken_eq
  frame other notLeft notRight := by
    have before := first.frame other notLeft
      (fun j atLeast below => notRight j atLeast (by omega))
    have after := second.frame other notLeft
      (fun j atLeast below => notRight j (by omega) below)
    exact ⟨after.1.trans before.1, after.2.trans before.2⟩
  starts_iff other := by
    rw [second.starts_iff, first.starts_iff]
    constructor
    · rintro ⟨⟨start, below⟩, above⟩
      refine ⟨start, ?_⟩
      intro j atLeast atMost
      by_cases early : j < m
      · exact below j atLeast early
      · exact above j (by omega) atMost
    · rintro ⟨start, notRight⟩
      exact ⟨⟨start, fun j atLeast below => notRight j atLeast (by omega)⟩,
        fun j atLeast below => notRight j (by omega) below⟩

/-- The right halves from order `k` up to order `n` are free and whole. -/
def RightHalves
    (heap : Heap)
    (starts : Finset Nat)
    (bl k n : Nat) :
    Prop :=
  ∀ j, k ≤ j → j < n → bl + 2 ^ j ∈ starts ∧
    heap.order (bl + 2 ^ j) = j ∧ heap.taken (bl + 2 ^ j) = 0

/-- Merging once leaves the larger right halves as they are. -/
theorem RightHalves.joined (rights : RightHalves heap starts bl k n) :
    RightHalves (joined heap bl k) (starts.erase (bl + 2 ^ k)) bl (k + 1)
      n := by
  intro j lower upper
  have positive := Nat.two_pow_pos j
  have apart : 2 ^ k < 2 ^ j := Nat.pow_lt_pow_right (by omega) lower
  rcases rights j (by omega) upper with ⟨start, order, free⟩
  rw [order_joined, if_neg (by omega), taken_joined _ _ _ _ (by omega)
    (by omega)]
  exact ⟨Finset.mem_erase.mpr ⟨by omega, start⟩, order, free⟩

/-- The two halves the next merge joins. -/
theorem RightHalves.halves
    (rights : RightHalves heap starts bl k n)
    (below : k < n)
    (top : n ≤ heap.maxOrder)
    (aligned : 2 ^ n ∣ bl)
    (start : bl ∈ starts)
    (order : heap.order bl = k) :
    Halves heap starts bl k where
  left_start := start
  right_start := (rights k le_rfl below).1
  left_order := order
  right_order := (rights k le_rfl below).2.1
  small := by omega
  aligned := (Nat.pow_dvd_pow 2 below).trans aligned

/-- The merging loop on a listed block with its right halves in place. -/
theorem mergeLoop_remerge
    (fuel merges : Nat)
    (inv : HeapInv heap starts lists live)
    (start : bl ∈ starts)
    (order : heap.order bl = k)
    (free : heap.taken bl = 0)
    (rights : RightHalves heap starts bl k (k + merges))
    (top : k + merges ≤ heap.maxOrder)
    (aligned : 2 ^ (k + merges) ∣ bl) :
    ∃ heap' starts' lists',
      mergeLoop (fuel + merges) heap bl = mergeLoop fuel heap' bl ∧
      HeapInv heap' starts' lists' live ∧
      Remerged heap heap' starts starts' bl k (k + merges) := by
  induction merges generalizing heap starts lists k with
  | zero =>
      refine ⟨heap, starts, lists, rfl, inv, .refl heap, order, free, ?_, ?_⟩
      · exact fun _ _ _ => ⟨rfl, rfl⟩
      · intro other
        exact ⟨fun member => ⟨member, by omega⟩, And.left⟩
  | succ merges induction =>
      have halves := rights.halves (by omega) top aligned start order
      have rightFree := (rights k le_rfl (by omega)).2.2
      rcases joined_of_free inv halves free rightFree with ⟨lists₁, inv₁, _⟩
      have step := remerged_joined heap starts bl k
      have positive := Nat.two_pow_pos k
      have shift : k + (merges + 1) = k + 1 + merges := by omega
      rw [shift] at rights top aligned ⊢
      rcases induction inv₁ (Finset.mem_erase.mpr ⟨by omega, start⟩)
          step.order_eq step.taken_eq rights.joined top aligned with
        ⟨heap₂, starts₂, lists₂, loopEq, inv₂, rest⟩
      refine ⟨heap₂, starts₂, lists₂, ?_, inv₂,
        step.trans (by omega) (by omega) rest⟩
      rw [← Nat.add_assoc, mergeLoop_halves _ inv halves rightFree]
      exact loopEq

end Remerge

/-! ## Orders only grow while merging -/

section Grow

variable
  {heap heap' : Heap}
  {bl left : Nat}

/-- `remove_block` writes no order. -/
theorem order_removeBlock (result : removeBlock heap bl = some heap') :
    (∀ other, heap'.order other = heap.order other) ∧
      heap'.maxOrder = heap.maxOrder := by
  rw [removeBlock] at result
  split at result
  · cases result
  change Option.map (fun heap₁ : Heap => heap₁.setTaken bl 1)
    (if heap.prev bl = 0 then
      (rejoined heap (heap.prev bl) (heap.next bl)).setList
        ((rejoined heap (heap.prev bl) (heap.next bl)).order bl)
        (heap.next bl)
    else
      some (rejoined heap (heap.prev bl) (heap.next bl))) = _ at result
  rcases Option.map_eq_some_iff.mp result with ⟨heap₁, linked, rfl⟩
  split at linked
  · rw [Heap.setList] at linked
    split at linked
    · cases linked
      exact ⟨by simp, maxOrder_rejoined heap _ _⟩
    · cases linked
  · cases linked
    exact ⟨by simp, maxOrder_rejoined heap _ _⟩

/-- `insert_block` writes no order. -/
theorem order_insertBlock (result : insertBlock heap bl = some heap') :
    (∀ other, heap'.order other = heap.order other) ∧
      heap'.maxOrder = heap.maxOrder := by
  by_cases isNull : bl = 0
  · rw [insertBlock, if_pos isNull] at result
    cases result
  by_cases inRange : heap.InRange (heap.order bl)
  · rw [insertBlock_eq isNull inRange] at result
    cases result
    exact ⟨fun _ => rfl, rfl⟩
  · rw [insertBlock, if_neg isNull, Heap.getList, if_neg inRange] at result
    cases result

/--
`merge` gives up on a root block and on a left half which does not match its
buddy; otherwise it counts up the order of the left half, and no other.
-/
theorem order_merge (result : merge heap bl = some (left, heap')) :
    (left = 0 ∧ heap' = heap ∧
      (heap.order bl = heap.maxOrder ∨ heap.order (mergeLeft heap bl) ≠
        heap.order (getBuddy heap (mergeLeft heap bl)))) ∨
      (left = mergeLeft heap bl ∧ heap.order left ≠ heap.maxOrder ∧
        heap'.maxOrder = heap.maxOrder ∧
        ∀ other, heap'.order other =
          if other = left then (heap.order left + 1) % 2 ^ 16
          else heap.order other) := by
  rw [merge_mergeLeft] at result
  split at result
  · rename_i root
    cases result
    exact Or.inl ⟨rfl, rfl, Or.inl root⟩
  split at result
  · cases result
  rename_i hasBuddy
  split at result
  · rename_i different
    cases result
    exact Or.inl ⟨rfl, rfl, Or.inr different⟩
  simp only [Option.bind_eq_bind, Option.bind_eq_some_iff] at result
  rcases result with ⟨heap₁, first, heap₂, second, heap₃, listed, result⟩
  rcases Prod.mk.inj (Option.some.inj result) with ⟨rfl, rfl⟩
  have afterFirst := order_removeBlock first
  have afterSecond := order_removeBlock second
  have afterListed := order_insertBlock listed
  right
  refine ⟨rfl, ?_, ?_, ?_⟩
  · intro top
    rw [getBuddy, if_pos top] at hasBuddy
    exact hasBuddy rfl
  · exact afterListed.2.trans (afterSecond.2.trans afterFirst.2)
  · intro other
    rw [afterListed.1, Heap.order_setOrder, afterSecond.1, afterFirst.1,
      afterSecond.1, afterFirst.1]

/-- No pass of the merging loop makes a block smaller. -/
theorem mergeLoop_grows
    (fuel : Nat)
    {m b : Nat}
    (top : heap.maxOrder ≤ 30)
    (larger : m < heap.order b)
    (bounded : heap.order b ≤ heap.maxOrder)
    (result : mergeLoop fuel heap bl = some heap') :
    m < heap'.order b := by
  induction fuel generalizing heap bl with
  | zero => cases result
  | succ fuel induction =>
      rw [mergeLoop] at result
      split at result
      · cases result
        exact larger
      split at result
      · cases result
      split at result
      · cases result
        exact larger
      rcases Option.bind_eq_some_iff.mp result with
        ⟨⟨left, heap₁⟩, merged, rest⟩
      dsimp only at rest
      rcases order_merge merged with
        ⟨rfl, rfl, _⟩ | ⟨_, notTop, sameMax, orders⟩
      · rw [if_pos rfl] at rest
        cases rest
        exact larger
      · have order := orders b
        have grown : m < heap₁.order b ∧
            heap₁.order b ≤ heap₁.maxOrder := by
          by_cases isLeft : b = left
          · subst isLeft
            rw [if_pos rfl] at order
            omega
          · rw [if_neg isLeft] at order
            omega
        split at rest
        · cases rest
          exact grown.1
        · exact induction (by omega) grown.1 grown.2 rest

end Grow

/-! ## The block reached -/

section Reached

variable
  {heap : Heap}
  {starts : Finset Nat}
  {lists : Nat → List Nat}
  {live : List Nat}
  {bl n : Nat}

/--
At the order the block was taken from, the merging loop stops if the left
neighbour is safe.
-/
theorem mergeLoop_stops
    (fuel : Nat)
    (inv : HeapInv heap starts lists live)
    (start : bl ∈ starts)
    (order : heap.order bl = n)
    (apart : n < heap.maxOrder → heap.taken (buddy bl n) = 0 →
      heap.order (buddy bl n) ≠ n)
    (safe : n < heap.maxOrder → NeighbourSafe heap bl (buddy bl n) n) :
    mergeLoop (fuel + 1) heap bl = some heap := by
  have upper := inv.order_le start
  rw [mergeLoop]
  by_cases top : n = heap.maxOrder
  · rw [if_pos (order.trans top)]
  have small : n < heap.maxOrder := by omega
  have buddyStart := inv.buddy_start start order small
  rw [if_neg (by omega), inv.getBuddy_eq order small,
    if_neg (inv.ne_null buddyStart.1)]
  by_cases free : heap.taken (buddy bl n) = 0
  · rw [if_neg (not_not.mpr free), merge_stops inv start order small
      (apart small free) free (safe small), Option.bind_some]
    rfl
  · rw [if_pos free]

/-- An unsafe left neighbour does not keep its order. -/
theorem mergeLoop_swallows
    (fuel : Nat)
    {heap' : Heap}
    (inv : HeapInv heap starts lists live)
    (start : bl ∈ starts)
    (order : heap.order bl = n)
    (small : n < heap.maxOrder)
    (harm : ¬ NeighbourSafe heap bl (buddy bl n) n)
    (result : mergeLoop fuel heap bl = some heap') :
    heap.order (buddy bl n) < heap'.order (buddy bl n) := by
  rw [NeighbourSafe, Classical.not_imp, not_not] at harm
  rcases harm with ⟨⟨free, split, before⟩, sibling⟩
  have large := inv.geometry.maxOrder_le
  have buddyStart := inv.buddy_start start order small
  have siblingEq := (inv.sibling_start start order small split).2
  have leftEq : mergeLeft heap bl = buddy bl n := by
    have cleared := clear_bit inv start (by omega)
    rw [order] at cleared
    rw [mergeLeft, order, cleared, parent_eq (inv.aligned start order),
      Nat.min_eq_right (Nat.le_of_lt before)]
  cases fuel with
  | zero => cases result
  | succ fuel =>
      rw [mergeLoop, if_neg (by omega), inv.getBuddy_eq order small,
        if_neg (inv.ne_null buddyStart.1), if_neg (not_not.mpr free)] at result
      rcases Option.bind_eq_some_iff.mp result with
        ⟨⟨left, heap₁⟩, merged, rest⟩
      have merges := order_merge merged
      rw [leftEq, siblingEq, sibling] at merges
      rcases merges with ⟨_, _, root | differ⟩ | ⟨rfl, notTop, sameMax, orders⟩
      · omega
      · exact (differ rfl).elim
      · have grown := orders (buddy bl n)
        rw [if_pos rfl] at grown
        dsimp only at rest
        rw [if_neg (inv.ne_null buddyStart.1)] at rest
        exact mergeLoop_grows fuel (by omega) (by omega) (by omega) rest

end Reached

/-! ## Allocating and releasing -/

/-- No two free buddies have the same order. -/
def Coalesced
    (heap : Heap)
    (starts : Finset Nat) :
    Prop :=
  ∀ bl ∈ starts, heap.order bl < heap.maxOrder → heap.taken bl = 0 →
    heap.taken (buddy bl (heap.order bl)) = 0 →
      heap.order (buddy bl (heap.order bl)) ≠ heap.order bl

/--
The block found for a request is not the whole heap, and if it has to be split
its left neighbour is not a free block in front of a live one of its order.
-/
def UndoSafe
    (heap : Heap)
    (size : Nat) :
    Prop :=
  ∃ k n bl, IsLeast {order | FitsOrder heap size order} k ∧
    FirstFit heap k n bl ∧ (n = heap.maxOrder → k < n) ∧
    (k < n → n < heap.maxOrder → NeighbourSafe heap bl (buddy bl n) n)

/-- The state before the call determines the block found. -/
theorem FirstFit.unique
    {heap : Heap}
    {k n n' bl bl' : Nat}
    (fit : FirstFit heap k n bl)
    (fit' : FirstFit heap k n' bl') :
    n = n' ∧ bl = bl' := by
  have sameOrder : n = n' := by
    rcases Nat.lt_trichotomy n n' with below | same | above
    · have empty := fit'.empty n fit.larger below
      rw [fit.head] at empty
      exact (fit.not_null empty).elim
    · exact same
    · have empty := fit.empty n' fit'.larger above
      rw [fit'.head] at empty
      exact (fit'.not_null empty).elim
  subst sameOrder
  exact ⟨rfl, fit.head.symm.trans fit'.head⟩

/-- The heap before and after a request of order `k` was served by `bl`. -/
structure Served
    (heap heap' : Heap)
    (starts starts' : Finset Nat)
    (lists lists' : Nat → List Nat)
    (k n bl : Nat) :
    Prop
      extends Placed heap heap' starts starts' lists lists' k n bl where
  before : HeapInv heap starts lists []
  fit : FirstFit heap k n bl
  lower : heap.minOrder ≤ k
  after : HeapInv heap' starts' lists' [bl]

section Served

variable
  {heap heap' : Heap}
  {starts starts' : Finset Nat}
  {lists lists' : Nat → List Nat}
  {k n bl : Nat}

namespace Served

theorem block (served : Served heap heap' starts starts' lists lists' k n bl) :
    bl ∈ starts ∧ heap.taken bl = 0 ∧ heap.order bl = n :=
  free_of_firstFit served.before served.lower served.fit

theorem start (served : Served heap heap' starts starts' lists lists' k n bl) :
    bl ∈ starts' :=
  (served.starts_iff bl).mpr (Or.inl served.block.1)

/-- The buddy at the order the block was taken from. -/
theorem buddy_start
    (served : Served heap heap' starts starts' lists lists' k n bl)
    (small : n < heap.maxOrder) :
    buddy bl n ∈ starts :=
  (served.before.buddy_start served.block.1 served.block.2.2 small).1

theorem buddy_apart
    (served : Served heap heap' starts starts' lists lists' k n bl)
    (coalesced : Coalesced heap starts)
    (small : n < heap.maxOrder)
    (free : heap.taken (buddy bl n) = 0) :
    heap.order (buddy bl n) ≠ n := by
  rcases served.block with ⟨start, blFree, order⟩
  have apart := coalesced bl start (by omega) blFree
  rw [order] at apart
  exact apart free

/-- `bfree` on the block handed out. -/
theorem bfree_eq
    (served : Served heap heap' starts starts' lists lists' k n bl) :
    bfree (bl + sizeofBuddyBlock) heap' =
      if getBuddy heap' bl = 0 then some heap'
      else if heap'.order (getBuddy heap' bl) ≠ k ∨
          heap'.taken (getBuddy heap' bl) ≠ 0 then
        insertBlock heap' bl
      else mergeLoop mergeFuel heap' bl := by
  have notNull := served.after.ne_null served.start
  rw [bfree, if_neg (by omega)]
  simp only [served.after.header_eq served.start, served.order_eq]

/-! ### A block which was split -/

/-- A split leaves the right halves of all orders passed. -/
theorem rightHalves
    (served : Served heap heap' starts starts' lists lists' k n bl) :
    RightHalves heap' starts' bl k n := by
  intro j atLeast below
  have listed : bl + 2 ^ j ∈ lists' (j - heap.minOrder) := by
    rw [served.halves j atLeast below]
    exact List.mem_cons_self
  have lower := served.lower
  have sameMin := served.record.minOrder_eq
  rcases (served.after.listed _ _).mp listed with ⟨start, order, free⟩
  exact ⟨start, by omega, free⟩

/-- The links of the block handed out name its right half, which is alone. -/
theorem unlinkSafe
    (served : Served heap heap' starts starts' lists lists' k n bl)
    (below : k < n) :
    UnlinkSafe heap' bl (bl + 2 ^ k) := by
  have positive := Nat.two_pow_pos k
  have range := inRange_of_le served.before served.lower
    (served.fit.larger.trans served.fit.order_le)
  have alone := served.halves k le_rfl below
  rw [list_nil served.before range.2 (served.fit.empty k le_rfl below)] at alone
  have list := served.after.listing.list _ range.2
  rw [alone] at list
  have list' : IsList 0 heap'.next heap'.prev
      (heap'.orderLists (k - heap.minOrder)) ([] ++ (bl + 2 ^ k) :: []) := list
  have nextEq : heap'.next (bl + 2 ^ k) = 0 := list'.next_eq
  rcases served.links below with ⟨prevEq, lastEq⟩
  constructor
  · intro first
    omega
  · intro _
    rw [prevEq, nextEq, lastEq]

/-- Merging the right halves back restores all blocks. -/
theorem restored
    {heap₂ : Heap}
    {starts₂ : Finset Nat}
    (served : Served heap heap' starts starts' lists lists' k n bl)
    (remerged : Remerged heap' heap₂ starts' starts₂ bl k n) :
    starts₂ = starts ∧ Restored heap heap₂ starts := by
  rcases served.block with ⟨start, free, order⟩
  have new : ∀ other ∈ starts, ∀ j, k ≤ j → j < n → other ≠ bl + 2 ^ j := by
    rintro _ member j atLeast below rfl
    have positive := Nat.two_pow_pos j
    have shorter : 2 ^ j < 2 ^ n := Nat.pow_lt_pow_right (by omega) below
    exact served.before.inside_not_start start (by omega)
      (by rw [order]; omega) member
  constructor
  · ext other
    rw [remerged.starts_iff, served.starts_iff]
    constructor
    · rintro ⟨old | ⟨j, atLeast, below, rfl⟩, notRight⟩
      · exact old
      · exact (notRight j atLeast below rfl).elim
    · intro member
      exact ⟨Or.inl member, new other member⟩
  · intro other member
    by_cases isBl : other = bl
    · rw [isBl, remerged.order_eq, remerged.taken_eq, order, free]
      exact ⟨rfl, rfl⟩
    · have merged := remerged.frame other isBl (new other member)
      have cut := served.frame other member isBl
      exact ⟨merged.1.trans cut.1, merged.2.trans cut.2⟩

/-- `bfree` of a block which was split merges back to the order it had. -/
theorem bfree_remerges
    (served : Served heap heap' starts starts' lists lists' k n bl)
    (below : k < n) :
    ∃ fuel heap₂ lists₂,
      bfree (bl + sizeofBuddyBlock) heap' =
        mergeLoop (fuel + 1) heap₂ bl ∧
      HeapInv heap₂ starts lists₂ [] ∧ SameRecord heap heap₂ ∧
      Restored heap heap₂ starts := by
  rcases served.block with ⟨start, _, order⟩
  have top := served.fit.order_le
  have large := served.before.geometry.maxOrder_le
  have sameMax := served.record.maxOrder_eq
  have aligned := served.before.aligned start order
  have rights := served.rightHalves
  have halves := rights.halves below (by omega) aligned served.start
    served.order_eq
  have rightFree := (rights k le_rfl below).2.2
  rcases joined_of_live served.after halves List.mem_cons_self rightFree
      (Or.inl ⟨rfl, rfl⟩) (served.unlinkSafe below) with ⟨lists₁, inv₁⟩
  rw [List.erase_cons_head] at inv₁
  have step := remerged_joined heap' starts' bl k
  rcases mergeFuel_large with ⟨fuel, fuelEq, enough⟩
  have reach : k + 1 + (n - (k + 1)) = n := by omega
  have fuelSplit : ∃ left, fuel = left + 1 + (n - (k + 1)) :=
    ⟨fuel - (n - (k + 1)) - 1, by omega⟩
  rcases fuelSplit with ⟨left, rfl⟩
  have positive := Nat.two_pow_pos k
  have remerge := mergeLoop_remerge (left + 1) (n - (k + 1)) inv₁
    (Finset.mem_erase.mpr ⟨by omega, served.start⟩)
    step.order_eq step.taken_eq
  rw [reach] at remerge
  rcases remerge rights.joined (by rw [maxOrder_joined]; omega) aligned with
    ⟨heap₂, starts₂, lists₂, loopEq, inv₂, rest⟩
  have whole := step.trans (by omega) (by omega) rest
  rcases served.restored whole with ⟨rfl, restored⟩
  refine ⟨left, heap₂, lists₂, ?_, inv₂, served.record.trans whole.record,
    restored⟩
  have rightEq : getBuddy heap' bl = bl + 2 ^ k := by
    rw [served.after.getBuddy_eq served.order_eq halves.small,
      buddy_of_aligned halves.aligned]
  have matching : ¬ (heap'.order (bl + 2 ^ k) ≠ k ∨
      heap'.taken (bl + 2 ^ k) ≠ 0) := by
    rw [halves.right_order, rightFree]
    simp
  rw [served.bfree_eq, rightEq, if_neg (by omega), if_neg matching, fuelEq,
    mergeLoop_halves _ served.after halves rightFree, loopEq]

/-! ### A block which was not split -/

/-- A root block handed out whole is not taken back. -/
theorem bfree_root_leaks
    (served : Served heap heap' starts starts' lists lists' k n bl)
    (whole : k = n)
    (root : n = heap.maxOrder)
    {heap'' : Heap}
    (result : bfree (bl + sizeofBuddyBlock) heap' = some heap'') :
    ¬ SameFree heap heap'' := by
  have noBuddy : getBuddy heap' bl = 0 := by
    rw [getBuddy, if_pos]
    rw [served.order_eq, served.record.maxOrder_eq, whole, root]
  rw [served.bfree_eq, if_pos noBuddy] at result
  cases result
  intro same
  have listed := (same bl n).mpr ((freeBlock_iff served.before bl n).mpr
    served.block)
  exact served.after.live_taken bl List.mem_cons_self
    ((freeBlock_iff served.after bl n).mp listed).2.1

/-- Any other block goes back in front of its list. -/
theorem bfree_relists
    (served : Served heap heap' starts starts' lists lists' k n bl)
    (coalesced : Coalesced heap starts)
    (whole : k = n)
    (small : n < heap.maxOrder) :
    ∃ heap'', bfree (bl + sizeofBuddyBlock) heap' = some heap'' ∧
      SameFree heap heap'' := by
  rcases served.block with ⟨start, free, order⟩
  have sameStarts : starts = starts' := by
    ext other
    rw [served.starts_iff]
    constructor
    · exact Or.inl
    · rintro (old | ⟨j, atLeast, below, _⟩)
      · exact old
      · omega
  subst sameStarts whole
  have sameMax := served.record.maxOrder_eq
  have buddyStart := served.buddy_start small
  have buddyNe : buddy bl k ≠ bl := by
    have outside := buddy_outside (served.before.aligned start order)
    have positive := Nat.two_pow_pos k
    omega
  have kept := served.frame _ buddyStart buddyNe
  have keep : heap'.order (buddy bl k) ≠ k ∨
      heap'.taken (buddy bl k) ≠ 0 := by
    rw [kept.1, kept.2]
    by_cases buddyFree : heap.taken (buddy bl k) = 0
    · exact Or.inl (served.buddy_apart coalesced small buddyFree)
    · exact Or.inr buddyFree
  have dead := served.after.retire bl
  rw [List.erase_cons_head] at dead
  have listed := dead.enlist start
    (served.after.live_taken bl List.mem_cons_self) List.not_mem_nil rfl
  refine ⟨inserted heap' bl, ?_, ?_⟩
  · rw [served.bfree_eq,
      served.after.getBuddy_eq served.order_eq (by omega),
      if_neg (served.before.ne_null buddyStart), if_pos keep,
      insertBlock_eq (served.after.ne_null start) (served.after.inRange start)]
  · refine Restored.sameFree ?_ served.before listed
    intro other member
    rw [order_inserted, taken_inserted]
    by_cases isBl : other = bl
    · rw [if_pos isBl, isBl, served.order_eq, order, free]
      exact ⟨rfl, rfl⟩
    · rw [if_neg isBl]
      exact served.frame other member isBl

end Served

/-- Whether the left neighbour is safe is a matter of orders and flags. -/
theorem Restored.neighbourSafe_iff
    (inv : HeapInv heap starts lists [])
    (restored : Restored heap heap' starts)
    (start : bl ∈ starts)
    (order : heap.order bl = n)
    (small : n < heap.maxOrder) :
    NeighbourSafe heap' bl (buddy bl n) n ↔
      NeighbourSafe heap bl (buddy bl n) n := by
  have buddyStart := inv.buddy_start start order small
  have kept := restored _ buddyStart.1
  rw [NeighbourSafe, NeighbourSafe, kept.1, kept.2]
  by_cases whole : heap.order (buddy bl n) = n
  · simp [whole]
  · -- the sibling of a split neighbour starts a block as well
    have sibling := (inv.sibling_start start order small whole).1
    rw [(restored _ sibling).1]

/-- Releasing a block which was split. -/
theorem Served.bfree_split_iff
    (served : Served heap heap' starts starts' lists lists' k n bl)
    (coalesced : Coalesced heap starts)
    (below : k < n) :
    (∃ heap'', bfree (bl + sizeofBuddyBlock) heap' = some heap'' ∧
      SameFree heap heap'') ↔
        (n < heap.maxOrder → NeighbourSafe heap bl (buddy bl n) n) := by
  rcases served.block with ⟨start, free, order⟩
  rcases served.bfree_remerges below with
    ⟨fuel, heap₂, lists₂, bfreeEq, inv₂, record, restored⟩
  rw [bfreeEq]
  have order₂ : heap₂.order bl = n := (restored bl start).1.trans order
  have sameMax := record.maxOrder_eq
  constructor
  · rintro ⟨heap'', result, same⟩ small
    by_contra harm
    have buddyStart := served.buddy_start small
    have neighbour := restored _ buddyStart
    rw [← restored.neighbourSafe_iff served.before start order small] at harm
    have grown := mergeLoop_swallows (fuel + 1) inv₂ start order₂ (by omega)
      harm result
    -- the neighbour was free with the order it no longer has
    rw [NeighbourSafe, Classical.not_imp] at harm
    have listed := (same (buddy bl n) (heap₂.order (buddy bl n))).mpr
      ((freeBlock_iff served.before _ _).mpr ⟨buddyStart,
        neighbour.2.symm.trans harm.1.1, neighbour.1.symm⟩)
    have kept := listed.order_eq
    omega
  · intro safe
    refine ⟨heap₂, ?_, restored.sameFree served.before inv₂⟩
    apply mergeLoop_stops fuel inv₂ start order₂
    · intro small buddyFree
      have neighbour := restored _ (served.buddy_start (by omega))
      rw [neighbour.1]
      rw [neighbour.2] at buddyFree
      exact served.buddy_apart coalesced (by omega) buddyFree
    · intro small
      rw [restored.neighbourSafe_iff served.before start order (by omega)]
      exact safe (by omega)

/-- Releasing the block found for a request. -/
theorem Served.bfree_iff
    (served : Served heap heap' starts starts' lists lists' k n bl)
    (coalesced : Coalesced heap starts) :
    (∃ heap'', bfree (bl + sizeofBuddyBlock) heap' = some heap'' ∧
      SameFree heap heap'') ↔
        (n = heap.maxOrder → k < n) ∧
          (k < n → n < heap.maxOrder →
            NeighbourSafe heap bl (buddy bl n) n) := by
  have larger := served.fit.larger
  have atMost := served.fit.order_le
  by_cases below : k < n
  · rw [served.bfree_split_iff coalesced below]
    simp [below]
  have whole : k = n := by omega
  by_cases root : n = heap.maxOrder
  · constructor
    · rintro ⟨heap'', result, same⟩
      exact (served.bfree_root_leaks whole root result same).elim
    · rintro ⟨split, _⟩
      exact (below (split root)).elim
  · constructor
    · intro _
      exact ⟨fun isRoot => (root isRoot).elim, fun split => (below split).elim⟩
    · intro _
      exact served.bfree_relists coalesced whole (by omega)

/--
Releasing a block right after it was handed out restores the free blocks
exactly if the block found for the request was safe to take.
-/
theorem free_undoes_iff
    {size ptr : Nat}
    (inv : BuddyInv heap starts lists)
    (coalesced : Coalesced heap starts)
    (result : balloc size heap = some (ptr, heap'))
    (notNull : ptr ≠ 0) :
    (∃ heap'', bfree ptr heap' = some heap'' ∧ SameFree heap heap'') ↔
      UndoSafe heap size := by
  have accepted : 1 ≤ size ∧ size ≤ heap.size := by
    by_contra refused
    rw [balloc_refuses (by omega)] at result
    exact notNull (Prod.mk.inj (Option.some.inj result)).1.symm
  have large := inv.geometry.maxOrder_le
  rcases requestOrder_spec (inv.geometry.minOrder_le.trans large) accepted.1
      (accepted.2.trans inv.size_le) with ⟨k, _, least, _⟩
  have order := inv.requestOrder_eq accepted.1 accepted.2 least
  rcases firstFit_or_empty heap k with ⟨n, bl, fit⟩ | empty
  · rcases balloc_places inv.toHeapInv accepted.2 (by omega) order.1
        least.1.1 fit with ⟨heap₁, starts', lists', returned, inv', placed⟩
    rcases Prod.mk.inj (Option.some.inj (result.symm.trans returned)) with
      ⟨rfl, rfl⟩
    have served : Served heap heap' starts starts' lists lists' k n bl :=
      ⟨placed, inv.toHeapInv, fit, least.1.1, inv'⟩
    rw [served.bfree_iff coalesced]
    constructor
    · rintro ⟨notRoot, safe⟩
      exact ⟨k, n, bl, least, fit, notRoot, safe⟩
    · rintro ⟨k', n', bl', least', fit', notRoot, safe⟩
      cases least'.unique least
      rcases fit'.unique fit with ⟨rfl, rfl⟩
      exact ⟨notRoot, safe⟩
  · rw [balloc_faults inv.toHeapInv accepted.2 (by omega) order.1 order.2
      empty] at result
    cases result

end Served

/-! ## Two requests to a heap of one block -/

theorem smallHeap_coalesced : Coalesced smallHeap.heap {4096} := by
  intro bl member small
  rw [Finset.mem_singleton.mp member] at small
  exact absurd small (by decide)

/-- A block of 32 bytes cut from the heap is merged back. -/
theorem free_undoes_iff_eight :
    ∃ heap' heap'', balloc 8 smallHeap.heap = some (4096 + 24, heap') ∧
      bfree (4096 + 24) heap' = some heap'' ∧
      SameFree smallHeap.heap heap'' := by
  have safe : UndoSafe smallHeap.heap 8 := by
    refine ⟨5, 7, 4096, smallHeap_least, ⟨by decide, by decide, by decide,
      by decide, ?_⟩, by decide, ?_⟩
    · intro j lower upper
      have cases : j = 5 ∨ j = 6 := by omega
      rcases cases with rfl | rfl <;> decide
    · intro _ small
      exact absurd small (by decide)
  have served : (balloc 8 smallHeap.heap).map Prod.fst =
      some (4096 + 24) := by
    decide +kernel
  rcases Option.map_eq_some_iff.mp served with ⟨⟨ptr, heap'⟩, result, rfl⟩
  rcases (free_undoes_iff smallHeap_inv smallHeap_coalesced result
    (by decide)).mpr safe with ⟨heap'', freed, same⟩
  exact ⟨heap', heap'', result, freed, same⟩

/--
A request which needs the root block leaves nothing free, and releasing the
block changes nothing: the heap is lost.
-/
theorem free_undoes_not :
    ¬ ∀ heap starts lists, BuddyInv heap starts lists →
      Coalesced heap starts → ∀ size ptr heap',
        balloc size heap = some (ptr, heap') → ptr ≠ 0 →
          ∃ heap'', bfree ptr heap' = some heap'' ∧
            SameFree heap heap'' := by
  intro allUndone
  have served : (balloc 100 smallHeap.heap).map (fun result =>
      (result.1, result.2.minOrder, result.2.orderLists 2,
        getBuddy result.2 4096)) = some (4096 + 24, 5, 0, 0) := by
    decide +kernel
  rcases Option.map_eq_some_iff.mp served with ⟨⟨ptr, heap'⟩, result, fields⟩
  simp only [Prod.mk.injEq] at fields
  rcases fields with ⟨rfl, minEq, empty, noBuddy⟩
  rcases allUndone _ _ _ smallHeap_inv smallHeap_coalesced 100 _ _ result
    (by decide) with ⟨heap'', freed, same⟩
  have headerEq : header (4096 + 24) = 4096 := by decide
  rw [bfree, if_neg (by decide)] at freed
  simp only [headerEq, noBuddy, if_true] at freed
  cases freed
  have free : FreeBlock smallHeap.heap 4096 7 :=
    ⟨by decide, by decide, .head (by decide), by decide⟩
  have listed := ((same 4096 7).mpr free).listed
  rw [minEq] at listed
  exact onList_empty empty listed

end ForsKernel.Buddy
