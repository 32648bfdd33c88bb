import ForsKernel.Lib.LinkedList
import ForsKernel.Heap.Buddy

/-!
# The free lists as data structures

Once their guards are discharged, `remove_block` and `insert_block` are total
updates of the heap.  This module states these updates field by field and
derives from the linked list rules what they do to the lists.  Nothing here
depends on the sizes or addresses of the blocks.
-/

namespace ForsKernel.Buddy

open ForsKernel.Lib.LinkedList

/-! ## Single assignments -/

namespace Heap

variable
  (heap : Heap)
  (bl other value : Nat)

@[simp]
theorem order_setOrder : (heap.setOrder bl value).order other =
    if other = bl then value else heap.order other := by
  by_cases same : other = bl <;> simp [setOrder, order, same]

@[simp]
theorem taken_setOrder :
    (heap.setOrder bl value).taken other = heap.taken other := by
  by_cases same : other = bl <;> simp [setOrder, taken, same]

@[simp]
theorem next_setOrder :
    (heap.setOrder bl value).next other = heap.next other := by
  by_cases same : other = bl <;> simp [setOrder, next, same]

@[simp]
theorem prev_setOrder :
    (heap.setOrder bl value).prev other = heap.prev other := by
  by_cases same : other = bl <;> simp [setOrder, prev, same]

@[simp]
theorem order_setTaken :
    (heap.setTaken bl value).order other = heap.order other := by
  by_cases same : other = bl <;> simp [setTaken, order, same]

@[simp]
theorem taken_setTaken : (heap.setTaken bl value).taken other =
    if other = bl then value else heap.taken other := by
  by_cases same : other = bl <;> simp [setTaken, taken, same]

@[simp]
theorem next_setTaken :
    (heap.setTaken bl value).next other = heap.next other := by
  by_cases same : other = bl <;> simp [setTaken, next, same]

@[simp]
theorem prev_setTaken :
    (heap.setTaken bl value).prev other = heap.prev other := by
  by_cases same : other = bl <;> simp [setTaken, prev, same]

@[simp]
theorem order_setNext :
    (heap.setNext bl value).order other = heap.order other := by
  by_cases same : other = bl <;> simp [setNext, order, same]

@[simp]
theorem taken_setNext :
    (heap.setNext bl value).taken other = heap.taken other := by
  by_cases same : other = bl <;> simp [setNext, taken, same]

@[simp]
theorem next_setNext : (heap.setNext bl value).next other =
    if other = bl then value else heap.next other := by
  by_cases same : other = bl <;> simp [setNext, next, same]

@[simp]
theorem prev_setNext :
    (heap.setNext bl value).prev other = heap.prev other := by
  by_cases same : other = bl <;> simp [setNext, prev, same]

@[simp]
theorem order_setPrev :
    (heap.setPrev bl value).order other = heap.order other := by
  by_cases same : other = bl <;> simp [setPrev, order, same]

@[simp]
theorem taken_setPrev :
    (heap.setPrev bl value).taken other = heap.taken other := by
  by_cases same : other = bl <;> simp [setPrev, taken, same]

@[simp]
theorem next_setPrev :
    (heap.setPrev bl value).next other = heap.next other := by
  by_cases same : other = bl <;> simp [setPrev, next, same]

@[simp]
theorem prev_setPrev : (heap.setPrev bl value).prev other =
    if other = bl then value else heap.prev other := by
  by_cases same : other = bl <;> simp [setPrev, prev, same]

@[simp]
theorem order_withList :
    (heap.withList bl value).order other = heap.order other :=
  rfl

@[simp]
theorem taken_withList :
    (heap.withList bl value).taken other = heap.taken other :=
  rfl

@[simp]
theorem next_withList :
    (heap.withList bl value).next other = heap.next other :=
  rfl

@[simp]
theorem prev_withList :
    (heap.withList bl value).prev other = heap.prev other :=
  rfl

theorem orderLists_withList (i : Nat) :
    (heap.withList bl value).orderLists i =
      if i = bl - heap.minOrder then value else heap.orderLists i :=
  Function.update_apply _ _ _ _

@[simp]
theorem minOrder_setOrder :
    (heap.setOrder bl value).minOrder = heap.minOrder :=
  rfl

@[simp]
theorem minOrder_setTaken :
    (heap.setTaken bl value).minOrder = heap.minOrder :=
  rfl

/-- A list head is written once the index is known to be valid. -/
theorem setList_eq
    {heap heap' : Heap}
    {bl : Nat}
    (value : Nat)
    (inRange : heap.InRange (heap.order bl))
    (sameMin : heap'.minOrder = heap.minOrder)
    (sameOrder : heap'.order bl = heap.order bl) :
    heap'.setList (heap'.order bl) value =
      some (heap'.withList (heap.order bl) value) := by
  rw [setList, sameOrder, if_pos]
  rw [InRange, sameMin]
  exact inRange

/-- Heaps with the same allocator record and the same headers are equal. -/
theorem eq_of_fields
    {heap heap' : Heap}
    (sameMin : heap'.minOrder = heap.minOrder)
    (sameMax : heap'.maxOrder = heap.maxOrder)
    (sameSize : heap'.size = heap.size)
    (sameStart : heap'.memoryStart = heap.memoryStart)
    (sameLists : ∀ i, heap'.orderLists i = heap.orderLists i)
    (sameOrder : ∀ bl, heap'.order bl = heap.order bl)
    (sameTaken : ∀ bl, heap'.taken bl = heap.taken bl)
    (sameNext : ∀ bl, heap'.next bl = heap.next bl)
    (samePrev : ∀ bl, heap'.prev bl = heap.prev bl) :
    heap' = heap := by
  ext bl
  · exact sameMin
  · exact sameMax
  · exact sameSize
  · exact sameStart
  · exact sameLists bl
  · exact sameOrder bl
  · exact sameTaken bl
  · exact sameNext bl
  · exact samePrev bl

end Heap

/-! ## The two updates -/


/-- The heap after `remove_block`. -/
def unlinked
    (heap : Heap)
    (bl : Nat) :
    Heap :=
  { heap with
    orderLists := fun i =>
      if heap.prev bl = 0 ∧ i = heap.order bl - heap.minOrder then
        heap.next bl
      else
        heap.orderLists i
    block := fun other =>
      { order := heap.order other
        taken := if other = bl then 1 else heap.taken other
        next :=
          if heap.prev bl ≠ 0 ∧ other = heap.prev bl then heap.next bl
          else heap.next other
        prev :=
          if heap.next bl ≠ 0 ∧ other = heap.next bl then heap.prev bl
          else heap.prev other } }

/-- The first block on the list of a block's order. -/
def headOf
    (heap : Heap)
    (bl : Nat) :
    Nat :=
  heap.orderLists (heap.order bl - heap.minOrder)

/-- The heap after `insert_block`. -/
def inserted
    (heap : Heap)
    (bl : Nat) :
    Heap :=
  { heap with
    orderLists := fun i =>
      if i = heap.order bl - heap.minOrder then bl else heap.orderLists i
    block := fun other =>
      { order := heap.order other
        taken := if other = bl then 0 else heap.taken other
        next := if other = bl then headOf heap bl else heap.next other
        prev :=
          if headOf heap bl ≠ 0 ∧ other = headOf heap bl then bl
          else if other = bl then 0
          else heap.prev other } }

section Fields

variable
  (heap : Heap)
  (bl other i : Nat)

@[simp]
theorem order_unlinked :
    (unlinked heap bl).order other = heap.order other :=
  rfl

@[simp]
theorem taken_unlinked : (unlinked heap bl).taken other =
    if other = bl then 1 else heap.taken other :=
  rfl

theorem next_unlinked : (unlinked heap bl).next other =
    if heap.prev bl ≠ 0 ∧ other = heap.prev bl then heap.next bl
    else heap.next other :=
  rfl

theorem prev_unlinked : (unlinked heap bl).prev other =
    if heap.next bl ≠ 0 ∧ other = heap.next bl then heap.prev bl
    else heap.prev other :=
  rfl

theorem orderLists_unlinked : (unlinked heap bl).orderLists i =
    if heap.prev bl = 0 ∧ i = heap.order bl - heap.minOrder then
      heap.next bl
    else
      heap.orderLists i :=
  rfl

@[simp]
theorem order_inserted :
    (inserted heap bl).order other = heap.order other :=
  rfl

@[simp]
theorem taken_inserted : (inserted heap bl).taken other =
    if other = bl then 0 else heap.taken other :=
  rfl

theorem next_inserted : (inserted heap bl).next other =
    if other = bl then headOf heap bl else heap.next other :=
  rfl

theorem prev_inserted : (inserted heap bl).prev other =
    if headOf heap bl ≠ 0 ∧ other = headOf heap bl then bl
    else if other = bl then 0
    else heap.prev other :=
  rfl

theorem orderLists_inserted : (inserted heap bl).orderLists i =
    if i = heap.order bl - heap.minOrder then bl
    else heap.orderLists i :=
  rfl

@[simp]
theorem minOrder_unlinked : (unlinked heap bl).minOrder = heap.minOrder :=
  rfl

@[simp]
theorem minOrder_inserted : (inserted heap bl).minOrder = heap.minOrder :=
  rfl

end Fields

/--
Removing a block whose neighbours, or the list head, already pass it by only
marks it.
-/
theorem unlinked_of_passed
    {heap : Heap}
    {bl : Nat}
    (head : heap.prev bl = 0 → headOf heap bl = heap.next bl)
    (before : heap.prev bl ≠ 0 → heap.next (heap.prev bl) = heap.next bl)
    (behind : heap.next bl ≠ 0 → heap.prev (heap.next bl) = heap.prev bl) :
    unlinked heap bl = heap.setTaken bl 1 := by
  apply Heap.eq_of_fields <;> first | rfl | intro other
  · rw [orderLists_unlinked]
    split
    · rename_i first
      rw [first.2]
      exact (head first.1).symm
    · rfl
  · simp
  · simp
  · rw [next_unlinked, Heap.next_setTaken]
    split
    · rename_i last
      rw [last.2]
      exact (before last.1).symm
    · rfl
  · rw [prev_unlinked, Heap.prev_setTaken]
    split
    · rename_i first
      rw [first.2]
      exact (behind first.1).symm
    · rfl

/-- Removing one block does not read whether another is taken. -/
theorem unlinked_setTaken
    (heap : Heap)
    (bl other : Nat) :
    unlinked (heap.setTaken other 1) bl =
      (unlinked heap bl).setTaken other 1 := by
  apply Heap.eq_of_fields <;> first | rfl | intro cell
  · rw [orderLists_unlinked, Heap.prev_setTaken, Heap.order_setTaken,
      Heap.next_setTaken]
    rfl
  · simp
  · simp only [taken_unlinked, Heap.taken_setTaken]
    split <;> split <;> rfl
  · simp only [next_unlinked, Heap.next_setTaken, Heap.prev_setTaken]
  · simp only [prev_unlinked, Heap.next_setTaken, Heap.prev_setTaken]

/-- Listing a block does not read whether it is taken. -/
theorem inserted_setTaken
    (heap : Heap)
    (bl value : Nat) :
    inserted (heap.setTaken bl value) bl = inserted heap bl := by
  have head : headOf (heap.setTaken bl value) bl = headOf heap bl := by
    simp only [headOf, Heap.order_setTaken]
    rfl
  apply Heap.eq_of_fields <;> first | rfl | intro cell
  · simp only [orderLists_inserted, Heap.order_setTaken]
    rfl
  · simp
  · simp only [taken_inserted, Heap.taken_setTaken]
    split <;> rfl
  · simp only [next_inserted, head, Heap.next_setTaken]
  · simp only [prev_inserted, head, Heap.prev_setTaken]

/-- Listing one block does not read whether another is taken. -/
theorem inserted_setTaken_of_ne
    (heap : Heap)
    {bl other : Nat}
    (apart : bl ≠ other)
    (value : Nat) :
    inserted (heap.setTaken other value) bl =
      (inserted heap bl).setTaken other value := by
  have head : headOf (heap.setTaken other value) bl = headOf heap bl := by
    simp only [headOf, Heap.order_setTaken]
    rfl
  apply Heap.eq_of_fields <;> first | rfl | intro cell
  · rw [orderLists_inserted, Heap.order_setTaken]
    rfl
  · simp
  · simp only [taken_inserted, Heap.taken_setTaken]
    by_cases same : cell = bl
    · simp [same, apart]
    · simp [same]
  · simp only [next_inserted, head, Heap.next_setTaken]
  · simp only [prev_inserted, head, Heap.prev_setTaken]

/-- Both neighbours of a removed block are made to name each other. -/
def rejoined
    (heap : Heap)
    (left right : Nat) :
    Heap :=
  let heap := if left ≠ 0 then heap.setNext left right else heap
  if right ≠ 0 then heap.setPrev right left else heap

section Rejoined

variable
  (heap : Heap)
  (left right other : Nat)

@[simp]
theorem order_rejoined :
    (rejoined heap left right).order other = heap.order other := by
  simp only [rejoined]
  split_ifs <;> simp

@[simp]
theorem taken_rejoined :
    (rejoined heap left right).taken other = heap.taken other := by
  simp only [rejoined]
  split_ifs <;> simp

theorem next_rejoined : (rejoined heap left right).next other =
    if left ≠ 0 ∧ other = left then right else heap.next other := by
  simp only [rejoined]
  split_ifs <;> simp_all

theorem prev_rejoined : (rejoined heap left right).prev other =
    if right ≠ 0 ∧ other = right then left else heap.prev other := by
  simp only [rejoined]
  split_ifs <;> simp_all

theorem orderLists_rejoined :
    (rejoined heap left right).orderLists = heap.orderLists := by
  simp only [rejoined]
  split_ifs <;> rfl

theorem minOrder_rejoined :
    (rejoined heap left right).minOrder = heap.minOrder := by
  simp only [rejoined]
  split_ifs <;> rfl

theorem maxOrder_rejoined :
    (rejoined heap left right).maxOrder = heap.maxOrder := by
  simp only [rejoined]
  split_ifs <;> rfl

theorem size_rejoined :
    (rejoined heap left right).size = heap.size := by
  simp only [rejoined]
  split_ifs <;> rfl

theorem memoryStart_rejoined :
    (rejoined heap left right).memoryStart = heap.memoryStart := by
  simp only [rejoined]
  split_ifs <;> rfl

end Rejoined

/-- With the right list heads, rejoining the neighbours unlinks a block. -/
theorem unlinked_eq_rejoined
    {heap : Heap}
    {bl : Nat}
    {heads : Nat → Nat}
    (sameHeads : ∀ i, heads i = (unlinked heap bl).orderLists i) :
    ({ rejoined heap (heap.prev bl) (heap.next bl) with
      orderLists := heads } : Heap).setTaken bl 1 = unlinked heap bl := by
  have order := order_rejoined heap (heap.prev bl) (heap.next bl)
  have taken := taken_rejoined heap (heap.prev bl) (heap.next bl)
  apply Heap.eq_of_fields
  · exact minOrder_rejoined heap _ _
  · exact maxOrder_rejoined heap _ _
  · exact size_rejoined heap _ _
  · exact memoryStart_rejoined heap _ _
  · exact sameHeads
  · intro other
    rw [Heap.order_setTaken, order_unlinked]
    exact order other
  · intro other
    rw [Heap.taken_setTaken, taken_unlinked]
    split
    · rfl
    · exact taken other
  · intro other
    rw [Heap.next_setTaken, next_unlinked]
    exact next_rejoined heap _ _ other
  · intro other
    rw [Heap.prev_setTaken, prev_unlinked]
    exact prev_rejoined heap _ _ other

theorem removeBlock_eq
    {heap : Heap}
    {bl : Nat}
    (notNull : bl ≠ 0)
    (inRange : heap.InRange (heap.order bl)) :
    removeBlock heap bl = some (unlinked heap bl) := by
  rw [removeBlock, if_neg notNull]
  change Option.map (fun heap' : Heap => heap'.setTaken bl 1)
    (if heap.prev bl = 0 then
      (rejoined heap (heap.prev bl) (heap.next bl)).setList
        ((rejoined heap (heap.prev bl) (heap.next bl)).order bl)
        (heap.next bl)
    else
      some (rejoined heap (heap.prev bl) (heap.next bl))) = _
  rw [Heap.setList_eq _ inRange (minOrder_rejoined heap _ _)
    (order_rejoined heap _ _ bl)]
  split
  · rename_i first
    refine congrArg some (unlinked_eq_rejoined ?_)
    intro i
    change ((rejoined heap _ _).withList _ _).orderLists i = _
    rw [Heap.orderLists_withList, minOrder_rejoined, orderLists_rejoined,
      orderLists_unlinked]
    simp [first]
  · rename_i notFirst
    refine congrArg some (unlinked_eq_rejoined ?_)
    intro i
    change (rejoined heap (heap.prev bl) (heap.next bl)).orderLists i = _
    rw [orderLists_rejoined, orderLists_unlinked]
    simp [notFirst]

theorem insertBlock_eq
    {heap : Heap}
    {bl : Nat}
    (notNull : bl ≠ 0)
    (inRange : heap.InRange (heap.order bl)) :
    insertBlock heap bl = some (inserted heap bl) := by
  rw [insertBlock, if_neg notNull, Heap.getList, if_pos inRange,
    Option.bind_some]
  change (if headOf heap bl ≠ 0 then _ else _ : Heap).setList
    ((if headOf heap bl ≠ 0 then _ else _ : Heap).order bl) bl = _
  split
  · rename_i head
    refine (Heap.setList_eq bl inRange ?_ ?_).trans ?_
    · rfl
    · simp
    refine congrArg some ?_
    apply Heap.eq_of_fields <;> first | rfl | intro other
    · rw [Heap.orderLists_withList]
      rfl
    · simp
    · simp
    · simp [next_inserted, headOf]
    · simp only [Heap.prev_withList, Heap.prev_setPrev, Heap.prev_setTaken,
        Heap.prev_setNext, prev_inserted, head, ne_eq, not_false_eq_true,
        true_and]
      rfl
  · rename_i head
    refine (Heap.setList_eq bl inRange ?_ ?_).trans ?_
    · rfl
    · simp
    refine congrArg some ?_
    apply Heap.eq_of_fields <;> first | rfl | intro other
    · rw [Heap.orderLists_withList]
      rfl
    · simp
    · simp
    · simp [next_inserted, headOf]
    · simp [prev_inserted, head]

/-! ## The lists in the heap -/

/-- Every list head starts a list, and no block is on two of them. -/
structure Listing
    (heap : Heap)
    (lists : Nat → List Nat) :
    Prop where
  list : ∀ i < buddyNumLists,
    IsList 0 heap.next heap.prev (heap.orderLists i) (lists i)
  apart : ∀ i j, i ≠ j → ∀ bl ∈ lists i, bl ∉ lists j
  bounded : ∀ i, buddyNumLists ≤ i → lists i = []

namespace Listing

variable
  {heap heap' : Heap}
  {lists : Nat → List Nat}
  {bl i : Nat}

theorem index_lt
    (listing : Listing heap lists)
    (member : bl ∈ lists i) :
    i < buddyNumLists := by
  by_contra outside
  rw [listing.bounded i (Nat.not_lt.mp outside)] at member
  exact List.not_mem_nil member

/-- Only the links of listed blocks matter. -/
theorem congr
    (listing : Listing heap lists)
    (sameLists : ∀ i, heap'.orderLists i = heap.orderLists i)
    (sameNext : ∀ i, ∀ bl ∈ lists i, heap'.next bl = heap.next bl)
    (samePrev : ∀ i, ∀ bl ∈ lists i, heap'.prev bl = heap.prev bl) :
    Listing heap' lists where
  list i inside := by
    rw [sameLists i]
    exact (listing.list i inside).congr (sameNext i) (samePrev i)
  apart := listing.apart
  bounded := listing.bounded

/-- The neighbours of a listed block are on the same list. -/
theorem neighbours
    (listing : Listing heap lists)
    (member : bl ∈ lists i) :
    (heap.next bl ≠ 0 → heap.next bl ∈ lists i) ∧
      (heap.prev bl ≠ 0 → heap.prev bl ∈ lists i) := by
  have list := listing.list i (listing.index_lt member)
  rcases List.append_of_mem member with ⟨left, right, split⟩
  rw [split] at list ⊢
  rw [list.next_eq, list.prev_eq]
  constructor
  · intro notNull
    cases right with
    | nil => exact (notNull rfl).elim
    | cons first rest => simp
  · intro notNull
    by_cases empty : left = []
    · subst empty
      exact (notNull rfl).elim
    · exact List.mem_append_left _ (backOr_mem 0 empty)

/-- A listed block has no predecessor exactly when it is the first. -/
theorem prev_eq_null_iff
    (listing : Listing heap lists)
    (member : bl ∈ lists i) :
    heap.prev bl = 0 ↔ heap.orderLists i = bl := by
  have list := listing.list i (listing.index_lt member)
  rcases List.append_of_mem member with ⟨left, right, split⟩
  rw [split] at list
  rw [list.prev_eq, list.head_eq]
  cases left with
  | nil => simp
  | cons first rest =>
      have nodup := (List.nodup_append.mp list.nodup).2.2
      have lastNotNull : backOr 0 (first :: rest) ≠ 0 :=
        list.ne_null (List.mem_append_left _ (backOr_mem 0 (by simp)))
      have firstNe : first ≠ bl := nodup first (by simp) bl (by simp)
      constructor
      · intro null
        exact (lastNotNull null).elim
      · intro same
        exact (firstNe same).elim

/-- Replacing one list by a sparser one keeps the lists apart. -/
theorem apart_update
    (listing : Listing heap lists)
    {cells : List Nat}
    (subset : ∀ bl ∈ cells, ∀ j ≠ i, bl ∉ lists j) :
    ∀ j k, j ≠ k → ∀ bl ∈ Function.update lists i cells j,
      bl ∉ Function.update lists i cells k := by
  intro j k different bl member
  by_cases first : j = i
  · subst first
    rw [Function.update_self] at member
    rw [Function.update_of_ne different.symm]
    exact subset bl member k different.symm
  · rw [Function.update_of_ne first] at member
    by_cases second : k = i
    · subst second
      rw [Function.update_self]
      intro inCells
      exact subset bl inCells j different member
    · rw [Function.update_of_ne second]
      exact listing.apart j k different bl member

/-- `remove_block` on a listed block takes it off its list. -/
theorem unlink
    (listing : Listing heap lists)
    (member : bl ∈ lists i)
    (index : heap.order bl - heap.minOrder = i) :
    Listing (unlinked heap bl)
      (Function.update lists i ((lists i).erase bl)) where
  list j inside := by
    have list := listing.list j inside
    by_cases same : j = i
    · subst same
      rw [Function.update_self]
      rcases List.append_of_mem member with ⟨left, right, split⟩
      rw [split] at list ⊢
      have fresh : bl ∉ left := by
        intro inLeft
        exact (List.nodup_append.mp list.nodup).2.2 bl inLeft bl (by simp) rfl
      rw [List.erase_append_right _ fresh, List.erase_cons_head]
      have nextEq : heap.next bl = frontOr 0 right := list.next_eq
      have prevEq : heap.prev bl = backOr 0 left := list.prev_eq
      have notNull : ∀ other ∈ left ++ right, other ≠ 0 := by
        intro other inside
        apply list.ne_null
        rw [List.mem_append] at inside ⊢
        exact inside.imp_right (List.mem_cons_of_mem bl)
      have list' : IsList 0 heap.next heap.prev (heap.orderLists j)
          (left ++ [bl] ++ right) := by
        simpa using list
      apply list'.cut
      · rintro other inLeft rfl
        rw [next_unlinked, prevEq, nextEq, if_pos]
        exact ⟨notNull _ (List.mem_append_left _ inLeft), rfl⟩
      · intro other _ notLast
        rw [next_unlinked, prevEq, if_neg (fun last => notLast last.2)]
      · rintro other inRight rfl
        rw [prev_unlinked, nextEq, prevEq, if_pos]
        exact ⟨notNull _ (List.mem_append_right _ inRight), rfl⟩
      · intro other _ notFirst
        rw [prev_unlinked, nextEq, if_neg (fun first => notFirst first.2)]
      · rintro rfl
        rw [orderLists_unlinked, if_pos ⟨prevEq, index.symm⟩, nextEq]
      · intro nonempty
        rw [orderLists_unlinked, prevEq, if_neg]
        rintro ⟨isNull, _⟩
        exact notNull _ (List.mem_append_left _ (backOr_mem 0 nonempty)) isNull
    · rw [Function.update_of_ne same, orderLists_unlinked,
        if_neg (fun both => same (both.2.trans index))]
      have neighbours := listing.neighbours member
      apply list.congr
      · intro other inOther
        rw [next_unlinked, if_neg]
        rintro ⟨notNull, rfl⟩
        exact listing.apart j i same _ inOther (neighbours.2 notNull)
      · intro other inOther
        rw [prev_unlinked, if_neg]
        rintro ⟨notNull, rfl⟩
        exact listing.apart j i same _ inOther (neighbours.1 notNull)
  apart := by
    apply listing.apart_update
    intro other inErased j different
    exact listing.apart i j different.symm other
      (List.mem_of_mem_erase inErased)
  bounded j outside := by
    have inside := listing.index_lt member
    rw [Function.update_of_ne (by omega)]
    exact listing.bounded j outside

/-- `insert_block` on an unlisted block puts it in front of its list. -/
theorem insert
    (listing : Listing heap lists)
    (notNull : bl ≠ 0)
    (fresh : ∀ j, bl ∉ lists j)
    (inside : i < buddyNumLists)
    (index : heap.order bl - heap.minOrder = i) :
    Listing (inserted heap bl)
      (Function.update lists i (bl :: lists i)) where
  list j inside' := by
    have list := listing.list j inside'
    have headEq : headOf heap bl = frontOr 0 (lists i) := by
      rw [headOf, index]
      exact (listing.list i inside).head_eq
    have otherNe : ∀ other ∈ lists j, other ≠ bl := by
      rintro other member rfl
      exact fresh j member
    by_cases same : j = i
    · subst same
      rw [Function.update_self]
      have list' : IsList 0 heap.next heap.prev (heap.orderLists j)
          ([] ++ lists j) := list
      apply list'.splice notNull (fresh j)
      · rw [next_inserted, if_pos rfl, headEq]
      · rw [prev_inserted, headEq, if_neg, if_pos rfl]
        · rfl
        · rintro ⟨headNotNull, isHead⟩
          rw [← list.head_eq] at headNotNull isHead
          exact fresh j (isHead ▸ list.head_mem headNotNull)
      · simp
      · intro other member _
        rw [next_inserted, if_neg (otherNe other member)]
      · rintro other member rfl
        rw [prev_inserted, headEq, if_pos ⟨list.ne_null member, rfl⟩]
      · intro other member notFirst
        rw [prev_inserted, headEq, if_neg (fun first => notFirst first.2),
          if_neg (otherNe other member)]
      · intro _
        rw [orderLists_inserted, if_pos index.symm]
      · simp
    · rw [Function.update_of_ne same, orderLists_inserted,
        if_neg (fun equal => same (equal.trans index))]
      apply list.congr
      · intro other inOther
        rw [next_inserted, if_neg (otherNe other inOther)]
      · intro other inOther
        rw [prev_inserted, if_neg, if_neg (otherNe other inOther)]
        rintro ⟨headNotNull, rfl⟩
        rw [headOf, index] at headNotNull inOther
        exact listing.apart j i same _ inOther
          ((listing.list i inside).head_mem headNotNull)
  apart := by
    apply listing.apart_update
    intro other inCons j different
    rcases List.mem_cons.mp inCons with rfl | old
    · exact fresh j
    · exact listing.apart i j different.symm other old
  bounded j outside := by
    rw [Function.update_of_ne (by omega)]
    exact listing.bounded j outside

theorem mem_unlink
    (listing : Listing heap lists)
    (member : bl ∈ lists i)
    (j other : Nat) :
    other ∈ Function.update lists i ((lists i).erase bl) j ↔
      other ∈ lists j ∧ other ≠ bl := by
  by_cases same : j = i
  · subst same
    have nodup := (listing.list j (listing.index_lt member)).nodup
    rw [Function.update_self, nodup.mem_erase_iff]
    exact and_comm
  · rw [Function.update_of_ne same]
    constructor
    · intro inOther
      refine ⟨inOther, ?_⟩
      rintro rfl
      exact listing.apart j i same other inOther member
    · exact And.left

end Listing

theorem mem_insert
    (lists : Nat → List Nat)
    (bl i j other : Nat) :
    other ∈ Function.update lists i (bl :: lists i) j ↔
      other ∈ lists j ∨ (other = bl ∧ j = i) := by
  by_cases same : j = i
  · subst same
    rw [Function.update_self, List.mem_cons]
    tauto
  · rw [Function.update_of_ne same]
    simp [same]

end ForsKernel.Buddy
