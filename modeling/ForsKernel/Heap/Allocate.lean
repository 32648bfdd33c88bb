import ForsKernel.Heap.Invariant

/-!
# `balloc`

A block of the wanted order is taken from the head of its list, or the first
larger block found is halved down to that order.  In both cases the block
returned was on a list just before, which is what keeps the free lists and the
other live blocks intact.
-/

namespace ForsKernel.Buddy

open ForsKernel.Lib.CInt
open ForsKernel.Lib.Dyadic
open ForsKernel.Lib.LinkedList

namespace HeapInv

variable
  {heap heap' : Heap}
  {starts : Finset Nat}
  {lists : Nat → List Nat}
  {live : List Nat}
  {bl i : Nat}

/-- A listed block is not its own neighbour. -/
theorem neighbours_ne
    (inv : HeapInv heap starts lists live)
    (member : bl ∈ lists i) :
    heap.next bl ≠ bl ∧ heap.prev bl ≠ bl := by
  have list := inv.listing.list i (inv.listing.index_lt member)
  rcases List.append_of_mem member with ⟨left, right, split⟩
  rw [split] at list
  have notNull : bl ≠ 0 := list.ne_null (by simp)
  have nodup := List.nodup_append.mp list.nodup
  rw [list.next_eq, list.prev_eq]
  constructor
  · cases right with
    | nil => exact notNull.symm
    | cons first rest =>
        have fresh := (List.nodup_cons.mp nodup.2.1).1
        intro same
        exact fresh (by simp [← same])
  · by_cases empty : left = []
    · subst empty
      exact notNull.symm
    · exact nodup.2.2 _ (backOr_mem 0 empty) bl (by simp)

/-- Taking a block off its list keeps its own links. -/
theorem links_unlinked
    (inv : HeapInv heap starts lists live)
    (member : bl ∈ lists i) :
    (unlinked heap bl).next bl = heap.next bl ∧
      (unlinked heap bl).prev bl = heap.prev bl := by
  have apart := inv.neighbours_ne member
  rw [next_unlinked, prev_unlinked, if_neg, if_neg]
  · exact ⟨rfl, rfl⟩
  · rintro ⟨_, same⟩
    exact apart.1 same.symm
  · rintro ⟨_, same⟩
    exact apart.2 same.symm

/-- Removing a listed block twice is removing it once. -/
theorem unlinked_unlinked
    (inv : HeapInv heap starts lists live)
    (member : bl ∈ lists i) :
    unlinked (unlinked heap bl) bl = unlinked heap bl := by
  rcases inv.links_unlinked member with ⟨sameNext, samePrev⟩
  apply Heap.eq_of_fields <;> first | rfl | intro other
  · rw [orderLists_unlinked, sameNext, samePrev, orderLists_unlinked,
      order_unlinked, minOrder_unlinked]
    split <;> rfl
  · simp
  · rw [taken_unlinked, taken_unlinked]
    split <;> rfl
  · rw [next_unlinked, sameNext, samePrev, next_unlinked]
    split <;> rfl
  · rw [prev_unlinked, sameNext, samePrev, prev_unlinked]
    split <;> rfl

/-- Hand out a listed block. -/
theorem take
    (inv : HeapInv heap starts lists live)
    (member : bl ∈ lists i)
    (stale : Stale heap bl) :
    HeapInv (unlinked heap bl) starts
      (Function.update lists i ((lists i).erase bl)) (bl :: live) := by
  rcases inv.links_unlinked member with ⟨sameNext, samePrev⟩
  apply (inv.unlink member).claim
  · exact inv.listed_start member
  · simp
  · intro isLive
    exact inv.not_listed (inv.live_taken bl isLive) i member
  · rw [Stale, sameNext, samePrev]
    exact stale

end HeapInv

/-! ## Splitting -/

/-- The order a split leaves. -/
theorem order_pred
    {k : Nat}
    (small : k ≤ 30) :
    (k + 1 + 65535) % 2 ^ 16 = k := by
  omega

/-- Two heaps with the same parameters. -/
structure SameRecord (heap heap' : Heap) : Prop where
  minOrder_eq : heap'.minOrder = heap.minOrder
  maxOrder_eq : heap'.maxOrder = heap.maxOrder
  size_eq : heap'.size = heap.size
  memoryStart_eq : heap'.memoryStart = heap.memoryStart

theorem SameRecord.refl (heap : Heap) : SameRecord heap heap :=
  ⟨rfl, rfl, rfl, rfl⟩

theorem SameRecord.trans
    {heap heap₁ heap₂ : Heap}
    (first : SameRecord heap heap₁)
    (second : SameRecord heap₁ heap₂) :
    SameRecord heap heap₂ where
  minOrder_eq := second.minOrder_eq.trans first.minOrder_eq
  maxOrder_eq := second.maxOrder_eq.trans first.maxOrder_eq
  size_eq := second.size_eq.trans first.size_eq
  memoryStart_eq := second.memoryStart_eq.trans first.memoryStart_eq

section Edits

variable {heap heap' : Heap}

theorem SameRecord.unlink
    (same : SameRecord heap heap')
    (bl : Nat) :
    SameRecord heap (unlinked heap' bl) :=
  same.trans ⟨rfl, rfl, rfl, rfl⟩

theorem SameRecord.enlist
    (same : SameRecord heap heap')
    (bl : Nat) :
    SameRecord heap (inserted heap' bl) :=
  same.trans ⟨rfl, rfl, rfl, rfl⟩

theorem SameRecord.setOrder
    (same : SameRecord heap heap')
    (bl value : Nat) :
    SameRecord heap (heap'.setOrder bl value) :=
  same.trans ⟨rfl, rfl, rfl, rfl⟩

end Edits

/-- What a split of `bl` onto the list `i` does. -/
structure Halved
    (heap heap' : Heap)
    (lists lists' : Nat → List Nat)
    (bl i : Nat) :
    Prop where
  record : SameRecord heap heap'
  order_eq : ∀ other, heap'.order other =
    if other = bl + 2 ^ (heap.minOrder + i) ∨ other = bl then
      heap.minOrder + i
    else heap.order other
  taken_eq : ∀ other, heap'.taken other =
    if other = bl + 2 ^ (heap.minOrder + i) ∨ other = bl then 0
    else heap.taken other
  here : lists' i = (bl + 2 ^ (heap.minOrder + i)) :: bl :: lists i
  above : lists' (i + 1) = (lists (i + 1)).erase bl
  others : ∀ j, j ≠ i → j ≠ i + 1 → lists' j = lists j

/-- The two halves of an unlisted block before they are listed. -/
def cut
    (heap : Heap)
    (bl k : Nat) :
    Heap :=
  (((unlinked heap bl).setOrder bl k).setOrder (bl + 2 ^ k) k).setTaken
    (bl + 2 ^ k) 1

/-- A listed block is cut, and one half after the other is listed. -/
theorem cut_inv
    {heap : Heap}
    {starts : Finset Nat}
    {lists : Nat → List Nat}
    {live : List Nat}
    {bl i k : Nat}
    (inv : HeapInv heap starts lists live)
    (member : bl ∈ lists (i + 1))
    (isOrder : heap.minOrder + i = k) :
    HeapInv (cut heap bl k) (insert (bl + 2 ^ k) starts)
        (Function.update lists (i + 1) ((lists (i + 1)).erase bl)) live ∧
      bl ∉ live ∧ bl + 2 ^ k ∉ live := by
  have start := inv.listed_start member
  have free := (inv.listed (i + 1) bl).mp member
  have order : heap.order bl = k + 1 := by omega
  have dead : bl ∉ live := fun isLive => inv.live_taken bl isLive free.2.2
  refine ⟨(inv.unlink member).halve start (by simp) dead order
    (by rw [minOrder_unlinked]; omega), dead, fun isLive => ?_⟩
  exact inv.half_not_start start order (inv.live_starts _ isLive)

theorem split_eq
    {heap : Heap}
    {starts : Finset Nat}
    {lists lists₂ : Nat → List Nat}
    {live : List Nat}
    {bl i k : Nat}
    (inv : HeapInv heap starts lists live)
    (member : bl ∈ lists (i + 1))
    (isOrder : heap.minOrder + i = k)
    (first : HeapInv (inserted (cut heap bl k) bl)
      (insert (bl + 2 ^ k) starts) lists₂ live) :
    split heap bl = some (bl + 2 ^ k,
      inserted (inserted (cut heap bl k) bl) (bl + 2 ^ k)) := by
  have start := inv.listed_start member
  have free := (inv.listed (i + 1) bl).mp member
  have order : heap.order bl = k + 1 := by omega
  have upper := inv.order_le start
  have large := inv.geometry.maxOrder_le
  have aligned := inv.aligned start order
  have positive := Nat.two_pow_pos k
  have apart : bl ≠ bl + 2 ^ k := by omega
  have blRange := (cut_inv inv member isOrder).1.inRange
    (Finset.mem_insert_of_mem start)
  have halfRange := first.inRange (Finset.mem_insert_self _ _)
  have br : getBuddy ((unlinked heap bl).setOrder bl k) bl = bl + 2 ^ k := by
    rw [getBuddy, if_neg, Heap.order_setOrder, if_pos rfl,
      intShlOne_of_lt (by omega), ← buddy_of_aligned aligned, buddy]
    rw [Heap.order_setOrder, if_pos rfl]
    show k ≠ heap.maxOrder
    omega
  rw [cut, inserted_setTaken_of_ne _ apart, inserted_setTaken, split,
    if_neg (by omega), removeBlock_eq (inv.ne_null start) (inv.inRange start)]
  simp only [Option.bind_eq_bind, Option.bind_some, order_unlinked, order,
    order_pred (show k ≤ 30 by omega), br]
  rw [if_neg (by omega), Heap.order_setOrder, if_pos rfl,
    insertBlock_eq (inv.ne_null start), Option.bind_some,
    insertBlock_eq, Option.bind_some]
  · omega
  · simpa [Heap.InRange, cut] using halfRange
  · simpa [Heap.InRange, cut] using blRange

/-- `split` on a listed block of a larger order. -/
theorem split_spec
    {heap : Heap}
    {starts : Finset Nat}
    {lists : Nat → List Nat}
    {live : List Nat}
    {bl i : Nat}
    (inv : HeapInv heap starts lists live)
    (member : bl ∈ lists (i + 1)) :
    ∃ heap' lists',
      split heap bl = some (bl + 2 ^ (heap.minOrder + i), heap') ∧
      HeapInv heap' (insert (bl + 2 ^ (heap.minOrder + i)) starts) lists'
        live ∧
      Halved heap heap' lists lists' bl i := by
  generalize kEq : heap.minOrder + i = k
  have start := inv.listed_start member
  have positive := Nat.two_pow_pos k
  have apart : bl ≠ bl + 2 ^ k := by omega
  rcases cut_inv inv member kEq with ⟨unlisted, dead, halfDead⟩
  have first := unlisted.enlist (i := i)
    (Finset.mem_insert_of_mem start) (by simp [cut]) dead
    (by simp [cut]; omega)
  have second := first.enlist (i := i)
    (Finset.mem_insert_self (bl + 2 ^ k) starts) (by simp [cut]) halfDead
    (by simp [cut]; omega)
  have returned := split_eq inv member kEq first
  rw [cut, inserted_setTaken_of_ne _ apart, inserted_setTaken]
    at second returned
  have record : SameRecord heap (inserted (inserted (((unlinked heap
      bl).setOrder bl k).setOrder (bl + 2 ^ k) k) bl) (bl + 2 ^ k)) :=
    (((((SameRecord.refl heap).unlink bl).setOrder bl k).setOrder _ k).enlist
      _).enlist _
  refine ⟨_, _, returned, second, record, ?_, ?_, ?_, ?_, ?_⟩
  · intro other
    by_cases isHalf : other = bl + 2 ^ k
    · simp [kEq, isHalf]
    · simp [kEq, isHalf]
  · intro other
    by_cases isHalf : other = bl + 2 ^ k
    · simp [kEq, isHalf]
    · by_cases isBl : other = bl
      · simp [kEq, isBl]
      · simp [kEq, isHalf, isBl]
  · simp [kEq]
  · rw [Function.update_of_ne (by omega), Function.update_of_ne (by omega),
      Function.update_self]
  · intro j notHere notAbove
    rw [Function.update_of_ne notHere, Function.update_of_ne notHere,
      Function.update_of_ne notAbove]

/--
What the splitting loop does, which brings `bl` down to the list `i`: each
list on the way gains a right half, and apart from `bl` nothing else changes.
-/
structure CutDown
    (heap heap' : Heap)
    (starts starts' : Finset Nat)
    (lists lists' : Nat → List Nat)
    (bl i splits : Nat) :
    Prop where
  record : SameRecord heap heap'
  member : bl ∈ lists' i
  frame : ∀ other ∈ starts, other ≠ bl →
    heap'.order other = heap.order other ∧
      heap'.taken other = heap.taken other
  starts_iff : ∀ other, other ∈ starts' ↔ other ∈ starts ∨
    ∃ j, i ≤ j ∧ j < i + splits ∧ other = bl + 2 ^ (heap.minOrder + j)
  lists_eq : ∀ j, (lists' j).erase bl =
    if i ≤ j ∧ j < i + splits then
      (bl + 2 ^ (heap.minOrder + j)) :: (lists j).erase bl
    else (lists j).erase bl
  none : splits = 0 → lists' i = lists i
  pair : splits ≠ 0 →
    lists' i = (bl + 2 ^ (heap.minOrder + i)) :: bl :: lists i

section CutDown

variable
  {heap heap₁ heap₂ : Heap}
  {starts starts₂ : Finset Nat}
  {lists lists₁ lists₂ : Nat → List Nat}
  {live : List Nat}
  {bl i splits : Nat}

/-- One split on the lists, `bl` aside. -/
theorem Halved.lists_eq
    (inv : HeapInv heap starts lists live)
    (halved : Halved heap heap₁ lists lists₁ bl i)
    (member : bl ∈ lists (i + 1))
    (j : Nat) :
    (lists₁ j).erase bl =
      if j = i then
        (bl + 2 ^ (heap.minOrder + i)) :: (lists i).erase bl
      else (lists j).erase bl := by
  have positive := Nat.two_pow_pos (heap.minOrder + i)
  have absent : bl ∉ lists i :=
    inv.listing.apart (i + 1) i (by omega) bl member
  by_cases here : j = i
  · rw [if_pos here, here, halved.here, List.erase_cons_tail (by simp),
      List.erase_cons_head, List.erase_of_not_mem absent]
  · rw [if_neg here]
    by_cases above : j = i + 1
    · have nodup := (inv.listing.list _ (inv.listing.index_lt member)).nodup
      rw [above, halved.above, List.erase_of_not_mem nodup.not_mem_erase]
    · rw [halved.others j here above]

/-- A split followed by the rest of the loop. -/
theorem Halved.cutDown
    (inv : HeapInv heap starts lists live)
    (halved : Halved heap heap₁ lists lists₁ bl (i + splits))
    (member : bl ∈ lists (i + splits + 1))
    (rest : CutDown heap₁ heap₂
      (insert (bl + 2 ^ (heap.minOrder + (i + splits))) starts) starts₂
      lists₁ lists₂ bl i splits) :
    CutDown heap heap₂ starts starts₂ lists lists₂ bl i (splits + 1) where
  record := halved.record.trans rest.record
  member := rest.member
  frame other isStart notBl := by
    have order := ((inv.listed _ bl).mp member).2.1
    have notStart := inv.half_not_start (inv.listed_start member)
      (k := heap.minOrder + (i + splits)) (by omega)
    have notHalf : ¬(other = bl + 2 ^ (heap.minOrder + (i + splits)) ∨
        other = bl) := by
      rintro (rfl | rfl)
      · exact notStart isStart
      · exact notBl rfl
    have kept := rest.frame other (Finset.mem_insert_of_mem isStart) notBl
    rw [kept.1, kept.2, halved.order_eq, halved.taken_eq, if_neg notHalf,
      if_neg notHalf]
    exact ⟨rfl, rfl⟩
  starts_iff other := by
    rw [rest.starts_iff, Finset.mem_insert, halved.record.minOrder_eq]
    constructor
    · rintro ((rfl | old) | ⟨j, lower, upper, rfl⟩)
      · exact Or.inr ⟨i + splits, by omega, by omega, rfl⟩
      · exact Or.inl old
      · exact Or.inr ⟨j, lower, by omega, rfl⟩
    · rintro (old | ⟨j, lower, upper, rfl⟩)
      · exact Or.inl (Or.inr old)
      · by_cases last : j = i + splits
        · exact Or.inl (Or.inl (by rw [last]))
        · exact Or.inr ⟨j, lower, by omega, rfl⟩
  lists_eq j := by
    rw [rest.lists_eq, halved.lists_eq inv member, halved.record.minOrder_eq]
    by_cases last : j = i + splits
    · rw [last, if_neg (by omega), if_pos rfl, if_pos (by omega)]
    · rw [if_neg last]
      by_cases between : i ≤ j ∧ j < i + splits
      · rw [if_pos between, if_pos (by omega)]
      · rw [if_neg between, if_neg (by omega)]
  none isZero := by omega
  pair _ := by
    cases splits with
    | zero => exact (rest.none rfl).trans halved.here
    | succ splits =>
        rw [rest.pair (by omega), halved.record.minOrder_eq,
          halved.others i (by omega) (by omega)]

end CutDown

/-- The splitting loop carries one block down to the wanted list. -/
theorem splitLoop_spec
    (splits : Nat)
    {heap : Heap}
    {starts : Finset Nat}
    {lists : Nat → List Nat}
    {live : List Nat}
    {bl i : Nat}
    (inv : HeapInv heap starts lists live)
    (member : bl ∈ lists (i + splits)) :
    ∃ heap' starts' lists', splitLoop splits heap bl = some heap' ∧
      HeapInv heap' starts' lists' live ∧
      CutDown heap heap' starts starts' lists lists' bl i splits := by
  induction splits generalizing heap starts lists with
  | zero =>
      refine ⟨heap, starts, lists, rfl, inv, .refl heap, member, ?_, ?_, ?_,
        fun _ => rfl, fun notZero => (notZero rfl).elim⟩
      · exact fun _ _ _ => ⟨rfl, rfl⟩
      · intro other
        constructor
        · exact Or.inl
        · rintro (old | ⟨j, lower, upper, _⟩)
          · exact old
          · omega
      · intro j
        rw [if_neg (by omega)]
  | succ splits induction =>
      have member' : bl ∈ lists (i + splits + 1) := member
      rcases split_spec inv member' with
        ⟨heap₁, lists₁, splitEq, inv₁, halved⟩
      have member₁ : bl ∈ lists₁ (i + splits) := by
        rw [halved.here]
        simp
      rcases induction inv₁ member₁ with
        ⟨heap₂, starts₂, lists₂, loopEq, inv₂, rest⟩
      refine ⟨heap₂, starts₂, lists₂, ?_, inv₂, halved.cutDown inv member' rest⟩
      rw [splitLoop, splitEq, Option.bind_some]
      exact loopEq

/-! ## The search -/

/--
The first nonempty list for orders from `k` on is that of order `n`, and `bl`
is its head.
-/
structure FirstFit
    (heap : Heap)
    (k n bl : Nat) :
    Prop where
  larger : k ≤ n
  order_le : n ≤ heap.maxOrder
  head : heap.orderLists (n - heap.minOrder) = bl
  not_null : bl ≠ 0
  empty : ∀ j, k ≤ j → j < n → heap.orderLists (j - heap.minOrder) = 0

/-- Either some list from order `k` on has a block or all are empty. -/
theorem firstFit_or_empty
    (heap : Heap)
    (k : Nat) :
    (∃ n bl, FirstFit heap k n bl) ∨
      ∀ j, k ≤ j → j ≤ heap.maxOrder →
        heap.orderLists (j - heap.minOrder) = 0 := by
  by_cases found : ∃ n, k ≤ n ∧ n ≤ heap.maxOrder ∧
      heap.orderLists (n - heap.minOrder) ≠ 0
  · left
    rcases Nat.find_spec found with ⟨larger, atMost, notNull⟩
    refine ⟨Nat.find found, _, larger, atMost, rfl, notNull, ?_⟩
    intro j lower upper
    by_contra notEmpty
    exact Nat.find_min found upper ⟨lower, by omega, notEmpty⟩
  · right
    intro j lower upper
    by_contra notEmpty
    exact found ⟨j, lower, upper, notEmpty⟩

section Search

variable
  {heap : Heap}
  {n found bl : Nat}

/-- The loop over the larger orders stops at the first nonempty list. -/
theorem findLarger_found
    (count : Nat)
    (inRange : ∀ j, n ≤ j → j ≤ found → heap.InRange j)
    (reached : found < n + count)
    (fit : FirstFit heap n found bl) :
    findLarger heap count n = some (bl, found) := by
  induction count generalizing n with
  | zero =>
      have larger := fit.larger
      omega
  | succ count induction =>
      have larger := fit.larger
      rw [findLarger, Heap.getList, if_pos (inRange n le_rfl larger),
        Option.bind_some]
      by_cases here : n = found
      · rw [here, fit.head, if_pos fit.not_null]
      · rw [fit.empty n le_rfl (by omega), if_neg (by simp)]
        apply induction
        · exact fun j lower => inRange j (by omega)
        · omega
        · exact ⟨by omega, fit.order_le, fit.head, fit.not_null,
            fun j lower => fit.empty j (by omega)⟩

/-- The loop over empty lists ends with `NULL`. -/
theorem findLarger_null
    (count : Nat)
    (inRange : ∀ j, n ≤ j → j < n + count → heap.InRange j)
    (empty : ∀ j, n ≤ j → j < n + count →
      heap.orderLists (j - heap.minOrder) = 0) :
    findLarger heap count n = some (0, n + count) := by
  induction count generalizing n with
  | zero => rfl
  | succ count induction =>
      rw [findLarger, Heap.getList, if_pos (inRange n le_rfl (by omega)),
        Option.bind_some, empty n le_rfl (by omega), if_neg (by simp),
        induction, Nat.add_right_comm, Nat.add_assoc]
      · exact fun j lower upper => inRange j (by omega) (by omega)
      · exact fun j lower upper => empty j (by omega) (by omega)

end Search

/-! ## The whole of `balloc` -/

section Balloc

variable
  {heap heap' : Heap}
  {starts : Finset Nat}
  {lists : Nat → List Nat}
  {live : List Nat}
  {k n bl : Nat}

/-- The list of a valid order whose head is `NULL` is empty. -/
theorem list_nil
    (inv : HeapInv heap starts lists live)
    {i : Nat}
    (inside : i < buddyNumLists)
    (empty : heap.orderLists i = 0) :
    lists i = [] := by
  have list := inv.listing.list i inside
  rw [empty] at list
  exact list.eq_nil_of_head_null

/-- There are no blocks beyond the order of the whole heap. -/
theorem head_null
    (inv : HeapInv heap starts lists live)
    {i : Nat}
    (inside : i < buddyNumLists)
    (large : heap.maxOrder < heap.minOrder + i) :
    heap.orderLists i = 0 := by
  by_contra notNull
  have member := (inv.listing.list i inside).head_mem notNull
  have free := (inv.listed i _).mp member
  have upper := inv.order_le free.1
  omega

theorem inRange_of_le
    (inv : HeapInv heap starts lists live)
    (lower : heap.minOrder ≤ k)
    (upper : k ≤ heap.maxOrder) :
    heap.InRange k := by
  have large := inv.geometry.maxOrder_le
  exact ⟨lower, by rw [buddyNumLists]; omega⟩

/-- The block found is the head of its list. -/
theorem FirstFit.list_eq
    (inv : HeapInv heap starts lists live)
    (fit : FirstFit heap k n bl)
    (lower : heap.minOrder ≤ k) :
    ∃ rest, lists (n - heap.minOrder) = bl :: rest := by
  have larger := fit.larger
  have range := inRange_of_le inv (lower.trans larger) fit.order_le
  have list := inv.listing.list _ range.2
  have head := list.head_eq
  rw [fit.head] at head
  cases cells : lists (n - heap.minOrder) with
  | nil =>
      rw [cells] at head
      exact (fit.not_null head).elim
  | cons first rest =>
      rw [cells] at head
      exact ⟨rest, by rw [head]; rfl⟩

/-- The head of a list has no predecessor. -/
theorem FirstFit.stale
    (inv : HeapInv heap starts lists live)
    (fit : FirstFit heap k n bl)
    (lower : heap.minOrder ≤ k) :
    Stale heap bl := by
  rcases fit.list_eq inv lower with ⟨rest, listEq⟩
  have member : bl ∈ lists (n - heap.minOrder) := by simp [listEq]
  exact Or.inl ((inv.listing.prev_eq_null_iff member).mpr fit.head)

/--
What `balloc` does with the block `bl` of order `n` for a request which needs
order `k`.
-/
structure Placed
    (heap heap' : Heap)
    (starts starts' : Finset Nat)
    (lists lists' : Nat → List Nat)
    (k n bl : Nat) :
    Prop where
  record : SameRecord heap heap'
  order_eq : heap'.order bl = k
  taken_eq : heap'.taken bl = 1
  frame : ∀ other ∈ starts, other ≠ bl →
    heap'.order other = heap.order other ∧
      heap'.taken other = heap.taken other
  starts_iff : ∀ other, other ∈ starts' ↔ other ∈ starts ∨
    ∃ j, k ≤ j ∧ j < n ∧ other = bl + 2 ^ j
  head : lists (n - heap.minOrder) = bl :: lists' (n - heap.minOrder)
  halves : ∀ j, k ≤ j → j < n →
    lists' (j - heap.minOrder) = (bl + 2 ^ j) :: lists (j - heap.minOrder)
  others : ∀ i, i < k - heap.minOrder ∨ n - heap.minOrder < i →
    lists' i = lists i
  links : k < n → heap'.prev bl = bl + 2 ^ k ∧ heap'.next bl = 0

section Placed

variable
  {heap₁ : Heap}
  {starts₁ : Finset Nat}
  {lists₁ : Nat → List Nat}

/-- After a split the block stands last on its list, behind its right half. -/
theorem CutDown.links
    (inv : HeapInv heap starts lists live)
    (inv₁ : HeapInv heap₁ starts₁ lists₁ live)
    (fit : FirstFit heap k n bl)
    (lower : heap.minOrder ≤ k)
    (below : k < n)
    (cut : CutDown heap heap₁ starts starts₁ lists lists₁ bl
      (k - heap.minOrder) (n - k)) :
    heap₁.prev bl = bl + 2 ^ k ∧ heap₁.next bl = 0 := by
  have range := inRange_of_le inv lower (fit.larger.trans fit.order_le)
  have pair := cut.pair (by omega)
  rw [list_nil inv range.2 (fit.empty k le_rfl below),
    Nat.add_sub_cancel' lower] at pair
  have list := inv₁.listing.list _ range.2
  rw [pair] at list
  have list' : IsList 0 heap₁.next heap₁.prev
      (heap₁.orderLists (k - heap.minOrder)) ([bl + 2 ^ k] ++ bl :: []) := list
  exact ⟨list'.prev_eq, list'.next_eq⟩

/-- Taking off its list what the splitting loop has cut down. -/
theorem CutDown.placed
    (inv : HeapInv heap starts lists live)
    (inv₁ : HeapInv heap₁ starts₁ lists₁ live)
    (fit : FirstFit heap k n bl)
    (lower : heap.minOrder ≤ k)
    (cut : CutDown heap heap₁ starts starts₁ lists lists₁ bl
      (k - heap.minOrder) (n - k)) :
    Placed heap (unlinked heap₁ bl) starts starts₁ lists
      (Function.update lists₁ (k - heap.minOrder)
        ((lists₁ (k - heap.minOrder)).erase bl)) k n bl := by
  have larger := fit.larger
  have sameMin := cut.record.minOrder_eq
  have free := (inv₁.listed _ bl).mp cut.member
  rcases fit.list_eq inv lower with ⟨rest, listEq⟩
  have member : bl ∈ lists (n - heap.minOrder) := by simp [listEq]
  -- `bl` was on one list only, so it may be erased from all of them
  have erased : ∀ j, Function.update lists₁ (k - heap.minOrder)
      ((lists₁ (k - heap.minOrder)).erase bl) j = (lists₁ j).erase bl := by
    intro j
    by_cases here : j = k - heap.minOrder
    · rw [here, Function.update_self]
    · rw [Function.update_of_ne here, List.erase_of_not_mem]
      exact inv₁.listing.apart _ j (Ne.symm here) bl cut.member
  have absent : ∀ j, j ≠ n - heap.minOrder → (lists j).erase bl = lists j := by
    intro j different
    apply List.erase_of_not_mem
    exact inv.listing.apart _ j (Ne.symm different) bl member
  refine ⟨cut.record.unlink bl, ?_, by simp, ?_, ?_, ?_, ?_,
    ?_, ?_⟩
  · rw [order_unlinked]
    omega
  · intro other isStart notBl
    rw [order_unlinked, taken_unlinked, if_neg notBl]
    exact cut.frame other isStart notBl
  · intro other
    rw [cut.starts_iff]
    apply or_congr_right
    constructor
    · rintro ⟨j, atLeast, below, rfl⟩
      exact ⟨heap.minOrder + j, by omega, by omega, rfl⟩
    · rintro ⟨j, atLeast, below, rfl⟩
      refine ⟨j - heap.minOrder, by omega, by omega, ?_⟩
      rw [Nat.add_sub_cancel' (by omega)]
  · rw [erased, cut.lists_eq, if_neg (by omega), listEq, List.erase_cons_head]
  · intro j atLeast below
    rw [erased, cut.lists_eq, if_pos (by omega), absent _ (by omega),
      Nat.add_sub_cancel' (by omega)]
  · intro i outside
    rw [erased, cut.lists_eq, if_neg (by omega), absent _ (by omega)]
  · intro below
    have kept := inv₁.links_unlinked cut.member
    rw [kept.1, kept.2]
    exact cut.links inv inv₁ fit lower below

/-- The block cut down may be handed out. -/
theorem CutDown.stale
    (inv : HeapInv heap starts lists live)
    (inv₁ : HeapInv heap₁ starts₁ lists₁ live)
    (fit : FirstFit heap k n bl)
    (lower : heap.minOrder ≤ k)
    (below : k < n)
    (cut : CutDown heap heap₁ starts starts₁ lists lists₁ bl
      (k - heap.minOrder) (n - k)) :
    Stale heap₁ bl := by
  rcases fit.list_eq inv lower with ⟨rest, listEq⟩
  have listed := (inv.listed (n - heap.minOrder) bl).mp (by simp [listEq])
  have order := ((inv₁.listed _ bl).mp cut.member).2.1
  have sameMin := cut.record.minOrder_eq
  have larger := fit.larger
  have aligned : 2 ^ (k + 1) ∣ bl :=
    (Nat.pow_dvd_pow 2 below).trans (inv.aligned listed.1 (by omega))
  have positive := Nat.two_pow_pos k
  rw [sameMin, Nat.add_sub_cancel' lower] at order
  rcases cut.links inv inv₁ fit lower below with ⟨prevEq, nextEq⟩
  right
  rw [order, buddy_of_aligned aligned]
  exact ⟨prevEq, nextEq, by omega⟩

end Placed

/-- `balloc` on a request for which some list has a block. -/
theorem balloc_places
    (inv : HeapInv heap starts lists live)
    {size : Nat}
    (inside : size ≤ heap.size)
    (positive : size ≠ 0)
    (order : requestOrder heap size = some k)
    (lower : heap.minOrder ≤ k)
    (fit : FirstFit heap k n bl) :
    ∃ heap' starts' lists',
      balloc size heap = some (bl + sizeofBuddyBlock, heap') ∧
      HeapInv heap' starts' lists' (bl :: live) ∧
      Placed heap heap' starts starts' lists lists' k n bl := by
  have larger := fit.larger
  have atMost := fit.order_le
  have ranges := fun j (atLeast : k ≤ j) (below : j ≤ n) =>
    inRange_of_le inv (lower.trans atLeast) (below.trans atMost)
  rcases fit.list_eq inv lower with ⟨rest, listEq⟩
  have member : bl ∈ lists (n - heap.minOrder) := by simp [listEq]
  have reach : k - heap.minOrder + (n - k) = n - heap.minOrder := by omega
  have member' : bl ∈ lists (k - heap.minOrder + (n - k)) := by rwa [reach]
  rcases splitLoop_spec (n - k) inv member' with
    ⟨heap₁, starts₁, lists₁, loopEq, inv₁, cut⟩
  have start₁ := inv₁.listed_start cut.member
  have removeEq : removeBlock heap₁ bl = some (unlinked heap₁ bl) :=
    removeBlock_eq (inv₁.ne_null start₁) (inv₁.inRange start₁)
  have stale : Stale heap₁ bl := by
    by_cases same : k = n
    · subst same
      rw [Nat.sub_self] at loopEq
      cases loopEq
      exact fit.stale inv lower
    · exact cut.stale inv inv₁ fit lower (by omega)
  refine ⟨_, _, _, ?_, inv₁.take cut.member stale,
    cut.placed inv inv₁ fit lower⟩
  rw [balloc, if_neg (by omega), if_neg positive, order]
  simp only [Option.bind_eq_bind, Option.bind_some]
  rw [Heap.getList, if_pos (ranges k le_rfl larger), Option.bind_some]
  by_cases same : k = n
  · -- the block is removed twice
    subst same
    rw [Nat.sub_self] at loopEq
    cases loopEq
    have again : removeBlock (unlinked heap bl) bl =
        some (unlinked heap bl) := by
      have start := inv.listed_start member
      have inv₂ := inv.unlink member
      rw [removeBlock_eq (inv.ne_null start) (inv₂.inRange start),
        inv.unlinked_unlinked member]
    rw [fit.head, if_pos fit.not_null, removeEq, Option.bind_some, again,
      Option.bind_some]
  · have found := findLarger_found (heap.maxOrder - k) (n := k + 1)
      (fun j atLeast atMost => ranges j (by omega) atMost)
      (by omega)
      ⟨by omega, fit.order_le, fit.head, fit.not_null,
        fun j atLeast below => fit.empty j (by omega) below⟩
    rw [fit.empty k le_rfl (by omega), if_neg (by simp), found,
      Option.bind_some]
    dsimp only
    rw [if_pos fit.not_null, loopEq, Option.bind_some, removeEq,
      Option.bind_some]

/-- `balloc` removes `NULL` when all lists which could serve are empty. -/
theorem balloc_faults
    (inv : HeapInv heap starts lists live)
    {size : Nat}
    (inside : size ≤ heap.size)
    (positive : size ≠ 0)
    (order : requestOrder heap size = some k)
    (inRange : heap.InRange k)
    (empty : ∀ j, k ≤ j → j ≤ heap.maxOrder →
      heap.orderLists (j - heap.minOrder) = 0) :
    balloc size heap = none := by
  have headNull : heap.orderLists (k - heap.minOrder) = 0 := by
    by_cases large : heap.maxOrder < k
    · have lower := inRange.1
      exact head_null inv inRange.2 (by omega)
    · exact empty k le_rfl (by omega)
  have search : ∃ n, findLarger heap (heap.maxOrder - k) (k + 1) =
      some (0, n) := by
    refine ⟨_, findLarger_null _ ?_ ?_⟩
    · intro j atLeast below
      exact inRange_of_le inv (inRange.1.trans (by omega)) (by omega)
    · intro j atLeast below
      exact empty j (by omega) (by omega)
  rcases search with ⟨n, search⟩
  rw [balloc, if_neg (by omega), if_neg positive, order]
  simp only [Option.bind_eq_bind, Option.bind_some]
  rw [Heap.getList, if_pos inRange, Option.bind_some, headNull,
    if_neg (by simp), search, Option.bind_some]
  rfl

/-- Only lists within the array have a head. -/
theorem inRange_of_getList
    {order head : Nat}
    (isHead : heap.getList order = some head) :
    heap.InRange order := by
  rw [Heap.getList] at isHead
  split at isHead
  · assumption
  · cases isHead

/-- A block was found on a list, and then cut down to its order. -/
theorem balloc_placed
    {size ptr : Nat}
    (inv : HeapInv heap starts lists live)
    (result : balloc size heap = some (ptr, heap'))
    (notNull : ptr ≠ 0) :
    ∃ bl k n starts' lists', ptr = bl + sizeofBuddyBlock ∧
      heap.minOrder ≤ k ∧ FirstFit heap k n bl ∧
      HeapInv heap' starts' lists' (bl :: live) ∧
      Placed heap heap' starts starts' lists lists' k n bl := by
  have unfolded := result
  rw [balloc] at unfolded
  split at unfolded
  · rcases Prod.mk.inj (Option.some.inj unfolded) with ⟨null, _⟩
    exact (notNull null.symm).elim
  split at unfolded
  · rcases Prod.mk.inj (Option.some.inj unfolded) with ⟨null, _⟩
    exact (notNull null.symm).elim
  rename_i inside positive
  simp only [Option.bind_eq_bind, Option.bind_eq_some_iff] at unfolded
  rcases unfolded with ⟨k, order, head, isHead, _⟩
  have range := inRange_of_getList isHead
  rcases firstFit_or_empty heap k with ⟨n, bl, fit⟩ | empty
  · rcases balloc_places inv (Nat.not_lt.mp inside) positive order range.1
      fit with ⟨heap₁, starts', lists', returned, inv', placed⟩
    rcases Prod.mk.inj (Option.some.inj (result.symm.trans returned)) with
      ⟨rfl, rfl⟩
    exact ⟨bl, k, n, starts', lists', rfl, range.1, fit, inv', placed⟩
  · rw [balloc_faults inv (Nat.not_lt.mp inside) positive order range
      empty] at result
    cases result

/-- `balloc` hands out a block which was free. -/
theorem balloc_spec
    (inv : HeapInv heap starts lists live)
    {size ptr : Nat}
    (result : balloc size heap = some (ptr, heap'))
    (notNull : ptr ≠ 0) :
    ∃ bl starts' lists', ptr = bl + sizeofBuddyBlock ∧
      HeapInv heap' starts' lists' (bl :: live) := by
  rcases balloc_placed inv result notNull with
    ⟨bl, _, _, starts', lists', isPtr, _, _, inv', _⟩
  exact ⟨bl, starts', lists', isPtr, inv'⟩

end Balloc

end ForsKernel.Buddy
