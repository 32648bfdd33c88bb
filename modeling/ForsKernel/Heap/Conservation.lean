import ForsKernel.Lib.Simulation
import ForsKernel.Lib.TileSizes
import ForsKernel.Heap.Contents

/-!
# No memory is lost

Along harmless runs every block is free or in the hands of a client, and the
sizes of all of them add up to the size of the heap.  There is one exception:
the block of the whole heap is not given back when it is released, and the
heap can do nothing more after that.
-/

namespace ForsKernel.Buddy

open ForsKernel.Lib.Dyadic
open ForsKernel.Lib.LinkedList
open ForsKernel.Lib.Transition

/-! ## Blocks which are neither free nor live -/

/-- Every block which is taken is in the hands of a client. -/
def NoLost
    (heap : Heap)
    (starts : Finset Nat)
    (live : List Nat) :
    Prop :=
  ∀ bl ∈ starts, heap.taken bl ≠ 0 → bl ∈ live

/-- There are no clients, but there is no free block either. -/
def Dead
    (heap : Heap)
    (starts : Finset Nat)
    (live : List Nat) :
    Prop :=
  live = [] ∧ ∀ bl ∈ starts, heap.taken bl ≠ 0

section

variable
  {heap heap' : Heap}
  {starts starts' : Finset Nat}
  {lists lists' : Nat → List Nat}
  {live : List Nat}
  {bl k n : Nat}

/-- The halves which are left over are free. -/
theorem NoLost.placed
    (noLost : NoLost heap starts live)
    (inv' : HeapInv heap' starts' lists' (bl :: live))
    (placed : Placed heap heap' starts starts' lists lists' k n bl) :
    NoLost heap' starts' (bl :: live) := by
  intro other start taken
  by_cases here : other = bl
  · rw [here]
    exact List.mem_cons_self
  · rcases (placed.starts_iff other).mp start with old | ⟨j, lower, upper, half⟩
    · rw [(placed.frame other old here).2] at taken
      exact List.mem_cons_of_mem bl (noLost other old taken)
    · have listed : other ∈ lists' (j - heap.minOrder) := by
        rw [placed.halves j lower upper, half]
        exact List.mem_cons_self
      exact (taken ((inv'.listed _ other).mp listed).2.2).elim

theorem taken_joined_left
    (heap : Heap)
    (left k : Nat) :
    (joined heap left k).taken left = 0 := by
  simp [joined]

/-- The blocks around two halves are taken as before they are joined. -/
theorem taken_of_joined
    {left other : Nat}
    (start : other ∈ starts.erase (left + 2 ^ k))
    (taken : (joined heap left k).taken other ≠ 0) :
    other ≠ left ∧ other ≠ left + 2 ^ k ∧ other ∈ starts ∧
      heap.taken other ≠ 0 := by
  rcases Finset.mem_erase.mp start with ⟨notRight, old⟩
  have notLeft : other ≠ left := by
    rintro rfl
    exact taken (taken_joined_left heap other k)
  rw [taken_joined _ _ _ _ notLeft notRight] at taken
  exact ⟨notLeft, notRight, old, taken⟩

theorem joinStable_accounted (live : List Nat) :
    JoinStable live fun heap starts =>
      NoLost heap starts live ∨ Dead heap starts live := by
  intro heap starts lists left k inv halves leftFree _ accounted
  rcases accounted with noLost | ⟨_, full⟩
  · left
    intro other start taken
    rcases taken_of_joined start taken with ⟨_, _, old, taken'⟩
    exact noLost other old taken'
  · exact (full left halves.left_start leftFree).elim

/-- A harmless release loses nothing but the block of the whole heap. -/
theorem NoLost.bfree
    (noLost : NoLost heap starts live)
    (inv : HeapInv heap starts lists live)
    (isLive : bl ∈ live)
    (safe : FreeSafe heap bl)
    (result : Buddy.bfree (bl + sizeofBuddyBlock) heap = some heap') :
    ∃ starts' lists', HeapInv heap' starts' lists' (live.erase bl) ∧
      (NoLost heap' starts' (live.erase bl) ∨
        Dead heap' starts' (live.erase bl)) := by
  have still {other : Nat} (start : other ∈ starts)
      (taken : heap.taken other ≠ 0) (different : other ≠ bl) :
      other ∈ live.erase bl :=
    (List.mem_erase_of_ne different).mpr (noLost other start taken)
  refine bfree_rule inv isLive safe ?_ ?_ ?_ (joinStable_accounted _) result
  · intro whole
    right
    have alone := fun other (start : other ∈ starts) =>
      inv.tiling.eq_of_whole (inv.live_starts bl isLive) whole start
    constructor
    · apply List.eq_nil_iff_forall_not_mem.mpr
      intro other member
      have same := alone other
        (inv.live_starts other (List.mem_of_mem_erase member))
      rw [same] at member
      exact inv.live_nodup.not_mem_erase member
    · intro other start
      rw [alone other start]
      exact inv.live_taken bl isLive
  · left
    intro other start taken
    rw [taken_inserted] at taken
    by_cases here : other = bl
    · rw [if_pos here] at taken
      exact (taken rfl).elim
    · rw [if_neg here] at taken
      exact still start taken here
  · intro left b k halves free pair _
    left
    intro other start taken
    rcases taken_of_joined start taken with ⟨notLeft, notRight, old, taken'⟩
    apply still old taken'
    rcases pair with ⟨rfl, _⟩ | ⟨_, rfl⟩
    · exact notLeft
    · exact notRight

/-- Nothing can be allocated from a dead heap. -/
theorem Dead.balloc
    {size ptr : Nat}
    (dead : Dead heap starts live)
    (inv : HeapInv heap starts lists live)
    (result : Buddy.balloc size heap = some (ptr, heap')) :
    ptr = 0 := by
  by_contra notNull
  rcases balloc_placed inv result notNull with
    ⟨bl, k, n, _, _, _, lower, fit, _, _⟩
  rcases fit.list_eq inv lower with ⟨rest, isList⟩
  have free := (inv.listed (n - heap.minOrder) bl).mp (by simp [isList])
  exact dead.2 bl free.1 free.2.2

/-! ## Counting -/

/-- The bytes on the free lists. -/
def freeBytes
    (heap : Heap)
    (lists : Nat → List Nat) :
    Nat :=
  ∑ i ∈ Finset.range buddyNumLists,
    ((lists i).map fun bl => 2 ^ heap.order bl).sum

/-- The bytes of the blocks which clients hold. -/
def liveBytes (state : HeapState) : Nat :=
  (state.live.map fun ptr => 2 ^ state.heap.order (header ptr)).sum

/-- The free blocks are those on the lists. -/
theorem freeBytes_eq (inv : HeapInv heap starts lists live) :
    freeBytes heap lists =
      ∑ bl ∈ starts.filter fun bl => heap.taken bl = 0,
        2 ^ heap.order bl := by
  have union : (starts.filter fun bl => heap.taken bl = 0) =
      (Finset.range buddyNumLists).biUnion fun i => (lists i).toFinset := by
    ext bl
    rw [Finset.mem_filter, Finset.mem_biUnion]
    constructor
    · rintro ⟨start, free⟩
      refine ⟨_, Finset.mem_range.mpr (inv.inRange start).2, ?_⟩
      exact List.mem_toFinset.mpr (inv.mem_list start free)
    · rintro ⟨i, _, member⟩
      have free := (inv.listed i bl).mp (List.mem_toFinset.mp member)
      exact ⟨free.1, free.2.2⟩
  have apart : (Finset.range buddyNumLists : Set Nat).PairwiseDisjoint
      fun i => (lists i).toFinset := by
    intro i _ j _ different
    apply Finset.disjoint_left.mpr
    intro bl here there
    exact inv.listing.apart i j different bl (List.mem_toFinset.mp here)
      (List.mem_toFinset.mp there)
  rw [union, Finset.sum_biUnion apart, freeBytes]
  apply Finset.sum_congr rfl
  intro i inside
  have list := inv.listing.list i (Finset.mem_range.mp inside)
  exact (List.sum_toFinset _ list.nodup).symm

/-- With nothing lost, free and live blocks make up the heap. -/
theorem NoLost.sum_eq
    (noLost : NoLost heap starts live)
    (inv : HeapInv heap starts lists live) :
    freeBytes heap lists + (live.map fun bl => 2 ^ heap.order bl).sum =
      2 ^ heap.maxOrder := by
  have taken : (starts.filter fun bl => ¬ heap.taken bl = 0) =
      live.toFinset := by
    ext bl
    rw [Finset.mem_filter, List.mem_toFinset]
    constructor
    · rintro ⟨start, isTaken⟩
      exact noLost bl start isTaken
    · intro isLive
      exact ⟨inv.live_starts bl isLive, inv.live_taken bl isLive⟩
  rw [freeBytes_eq inv, ← List.sum_toFinset _ inv.live_nodup, ← taken,
    Finset.sum_filter_add_sum_filter_not, inv.tiling.sum_size]

end

/-! ## Whole runs -/

/-- Every block is free or held, or the whole heap is neither. -/
def Accounted (state : HeapState) : Prop :=
  ∃ starts lists live, HeapInv state.heap starts lists live ∧
    state.live = live.map (· + sizeofBuddyBlock) ∧
    (NoLost state.heap starts live ∨ Dead state.heap starts live)

section

variable
  {state target : HeapState}
  {op : HeapOp}

theorem initial_accounted (initial : state.Initial) : Accounted state := by
  rcases initial_root initial with ⟨base, lists, inv, free, liveEq⟩
  refine ⟨_, lists, [], inv, liveEq, .inl ?_⟩
  intro bl start taken
  rw [Finset.mem_singleton.mp start] at taken
  exact (taken free).elim

/-- Clients of a dead heap can neither allocate, nor write, nor release. -/
theorem Dead.no_step
    {starts : Finset Nat}
    {lists : Nat → List Nat}
    {live : List Nat}
    (dead : Dead state.heap starts live)
    (inv : HeapInv state.heap starts lists live)
    (liveEq : state.live = live.map (· + sizeofBuddyBlock)) :
    ¬ heapSystem.Step state op target := by
  have nothing : state.live = [] := by
    rw [liveEq, dead.1]
    rfl
  rintro ⟨legal, stepped⟩
  cases op with
  | balloc size =>
      rcases Option.bind_eq_some_iff.mp stepped with
        ⟨⟨ptr, heap⟩, result, returned⟩
      dsimp only at returned
      rw [if_pos (dead.balloc inv result)] at returned
      cases returned
  | bfree ptr =>
      have held : ptr ∈ state.live := legal
      rw [nothing] at held
      cases held
  | write address contents =>
      rcases legal with ⟨ptr, held, _⟩
      rw [nothing] at held
      cases held

/-- A write changes no header, and nothing that is counted. -/
theorem Accounted.write
    {address : Nat}
    {contents : BuddyBlock}
    (accounted : Accounted state)
    (last : heapSystem.Step state (.write address contents) target) :
    Accounted target := by
  rcases accounted with ⟨starts, lists, live, inv, liveEq, counted⟩
  have alive := counted.resolve_right fun dead => dead.no_step inv liveEq last
  rcases last with ⟨⟨ptr, held, lower, upper⟩, stepped⟩
  cases stepped
  rw [liveEq] at held
  rcases List.mem_map.mp held with ⟨own, ownLive, rfl⟩
  have ownStart := inv.live_starts own ownLive
  rw [inv.header_eq ownStart] at lower upper
  have notStart := inv.inside_not_start ownStart
    (show own < address by omega) upper
  have same (bl : Nat) (start : bl ∈ starts) :
      Function.update state.heap.block address contents bl =
        state.heap.block bl := by
    apply Function.update_of_ne
    rintro rfl
    exact notStart start
  refine ⟨starts, lists, live, ?_, liveEq, .inl ?_⟩
  · exact inv.congr rfl rfl rfl (fun _ => rfl) same
  · intro bl start taken
    apply alive bl start
    rw [Heap.taken] at taken ⊢
    rwa [← same bl start]

theorem Accounted.step
    (accounted : Accounted state)
    (last : (heapSystem.restrict Harmless).Step state op target) :
    Accounted target := by
  cases op with
  | write address contents => exact accounted.write last.of_restrict
  | balloc size =>
      rcases accounted with ⟨starts, lists, live, inv, liveEq, counted⟩
      have alive := counted.resolve_right fun dead =>
        dead.no_step inv liveEq last.of_restrict
      rcases Option.bind_eq_some_iff.mp last.2 with
        ⟨⟨ptr, heap⟩, result, returned⟩
      dsimp only at returned
      split at returned
      · cases returned
      · rename_i notNull
        cases returned
        rcases balloc_placed inv result notNull with
          ⟨bl, k, n, starts', lists', rfl, _, _, inv', placed⟩
        exact ⟨starts', lists', bl :: live, inv', by simp [liveEq],
          .inl (alive.placed inv' placed)⟩
  | bfree ptr =>
      rcases accounted with ⟨starts, lists, live, inv, liveEq, counted⟩
      have alive := counted.resolve_right fun dead =>
        dead.no_step inv liveEq last.of_restrict
      have held : ptr ∈ state.live := last.1.1
      rw [liveEq] at held
      rcases List.mem_map.mp held with ⟨bl, isLive, rfl⟩
      have safe : FreeSafe state.heap (header (bl + sizeofBuddyBlock)) :=
        last.1.2
      rw [inv.header_eq (inv.live_starts bl isLive)] at safe
      rcases Option.map_eq_some_iff.mp last.2 with ⟨heap, result, rfl⟩
      rcases alive.bfree inv isLive safe result with
        ⟨starts', lists', inv', counted'⟩
      refine ⟨starts', lists', live.erase bl, inv', ?_, counted'⟩
      show state.live.erase (bl + sizeofBuddyBlock) = _
      rw [liveEq, List.map_erase]
      intro first second same
      exact Nat.add_right_cancel same

/-- What is held is counted by its headers. -/
theorem liveBytes_eq
    {starts : Finset Nat}
    {lists : Nat → List Nat}
    {live : List Nat}
    (inv : HeapInv state.heap starts lists live)
    (liveEq : state.live = live.map (· + sizeofBuddyBlock)) :
    liveBytes state = (live.map fun bl => 2 ^ state.heap.order bl).sum := by
  rw [liveBytes, liveEq, List.map_map]
  apply congrArg List.sum
  apply List.map_congr_left
  intro bl member
  show 2 ^ state.heap.order (header (bl + sizeofBuddyBlock)) = _
  rw [inv.header_eq (inv.live_starts bl member)]

/--
After every harmless run, the blocks on the free lists and the blocks which
clients hold make up the whole heap; or nobody holds anything and no client
can do anything any more.
-/
theorem heap_conserved
    (reachable : (heapSystem.restrict Harmless).Reachable state) :
    ∃ lists, (∀ i < buddyNumLists, IsList 0 state.heap.next state.heap.prev
        (state.heap.orderLists i) (lists i)) ∧
      (freeBytes state.heap lists + liveBytes state =
          2 ^ state.heap.maxOrder ∨
        (freeBytes state.heap lists = 0 ∧ state.live = [] ∧
          ∀ op target, ¬ heapSystem.Step state op target)) := by
  have accounted : Accounted state :=
    reachable.invariant (fun _ initial => initial_accounted initial)
      (fun _ _ _ holds last => holds.step last)
  rcases accounted with ⟨starts, lists, live, inv, liveEq, alive | dead⟩
  · refine ⟨lists, inv.listing.list, .inl ?_⟩
    rw [liveBytes_eq inv liveEq]
    exact alive.sum_eq inv
  · refine ⟨lists, inv.listing.list, .inr ⟨?_, ?_, ?_⟩⟩
    · rw [freeBytes_eq inv, Finset.filter_false_of_mem dead.2]
      rfl
    · rw [liveEq, dead.1]
      rfl
    · exact fun op target last => dead.no_step inv liveEq last

end

/-- Blocks of 64 and of 32 bytes are allocated, and one is released. -/
def roundAbout : List HeapOp :=
  [.balloc 40, .balloc 8, .balloc 8, .bfree (4096 + 64 + 24)]

theorem roundAbout_replayed :
    ((heapSystem.restrict Harmless).replay smallHeap
      roundAbout).isSome = true := by
  decide +kernel

def afterRoundAbout : HeapState :=
  ((heapSystem.restrict Harmless).replay smallHeap roundAbout).get
    roundAbout_replayed

/-- A block of 64 and one of 32 bytes are held; 32 bytes are free. -/
theorem heap_conserved_roundAbout :
    liveBytes afterRoundAbout = 96 ∧
      ∃ lists, (∀ i < buddyNumLists, IsList 0 afterRoundAbout.heap.next
        afterRoundAbout.heap.prev (afterRoundAbout.heap.orderLists i)
          (lists i)) ∧
        freeBytes afterRoundAbout.heap lists = 32 := by
  have reachable : (heapSystem.restrict Harmless).Reachable afterRoundAbout :=
    System.reachable_of_replay smallHeap_initial (Option.some_get _).symm
  have held : liveBytes afterRoundAbout = 96 := by decide +kernel
  have whole : 2 ^ afterRoundAbout.heap.maxOrder = 128 := by decide +kernel
  rcases heap_conserved reachable with
    ⟨lists, listed, sum | ⟨_, none_held, _⟩⟩
  · exact ⟨held, lists, listed, by omega⟩
  · rw [liveBytes, none_held] at held
    cases held

end ForsKernel.Buddy
