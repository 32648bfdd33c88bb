import ForsKernel.Lib.Transition
import ForsKernel.Heap.Capacity
import ForsKernel.Heap.Release

/-!
# Whole runs of the kernel heap

Clients allocate, release what they hold, and write to the memory they were
given.  `HeapSafe` is what they rely on: live blocks never overlap, and the
free lists are well formed lists of free blocks.  It holds along every run
whose releases are harmless in the sense of `FreeSafe`, and it fails along
some run without that condition.
-/

namespace ForsKernel.Buddy

open ForsKernel.Lib.Dyadic
open ForsKernel.Lib.LinkedList
open ForsKernel.Lib.Transition

/-- The heap and the pointers its clients hold. -/
structure HeapState where
  heap : Heap
  live : List Nat

/-- What clients do. -/
inductive HeapOp where
  | balloc (size : Nat)
  | bfree (ptr : Nat)
  | write (address : Nat) (contents : BuddyBlock)

namespace HeapState

/-- The block of a pointer reaches up to here. -/
def blockEnd
    (heap : Heap)
    (bl : Nat) :
    Nat :=
  bl + 2 ^ heap.order bl

/-- Two blocks share no address. -/
def Apart
    (heap : Heap)
    (bl other : Nat) :
    Prop :=
  blockEnd heap bl ≤ other ∨ blockEnd heap other ≤ bl

/--
A client may release what it holds, and write to its memory.  Block headers
are at multiples of 32, so only those beyond the first 32 bytes of a block can
be written.
-/
def legal (state : HeapState) : HeapOp → Prop
  | .balloc size => size < 2 ^ 64
  | .bfree ptr => ptr ∈ state.live
  | .write address _ => ∃ ptr ∈ state.live,
      header ptr + 32 ≤ address ∧ address < blockEnd state.heap (header ptr)

/-- A call to `balloc` counts as a step if it returns a block. -/
def step (state : HeapState) : HeapOp → Option HeapState
  | .balloc size =>
      (balloc size state.heap).bind fun result =>
        if result.1 = 0 then none
        else some ⟨result.2, result.1 :: state.live⟩
  | .bfree ptr =>
      (bfree ptr state.heap).map fun heap => ⟨heap, state.live.erase ptr⟩
  | .write address contents =>
      some ⟨{ state.heap with
        block := Function.update state.heap.block address contents },
        state.live⟩

instance (state : HeapState) : (op : HeapOp) → Decidable (state.legal op)
  | .balloc size => inferInstanceAs (Decidable (size < 2 ^ 64))
  | .bfree ptr => inferInstanceAs (Decidable (ptr ∈ state.live))
  | .write address _ => inferInstanceAs (Decidable (∃ ptr ∈ state.live,
      header ptr + 32 ≤ address ∧
        address < blockEnd state.heap (header ptr)))

/-- A heap just set up by `buddy_init`. -/
def Initial (state : HeapState) : Prop :=
  ∃ order minOrder base before,
    5 ≤ minOrder ∧ minOrder ≤ order ∧ order ≤ 30 ∧ 2 ^ order ∣ base ∧
      base < 2 ^ 64 ∧
      buddyInit (2 ^ order) base minOrder before = some (0, state.heap) ∧
      state.live = []

end HeapState

/-- The kernel heap with its clients. -/
def heapSystem : System HeapState HeapOp where
  init := HeapState.Initial
  legal := HeapState.legal
  step := HeapState.step

/-- Every release is harmless. -/
def Harmless (state : HeapState) : HeapOp → Prop
  | .bfree ptr => FreeSafe state.heap (header ptr)
  | _ => True

instance
    (state : HeapState)
    (op : HeapOp) :
    Decidable (heapSystem.legal state op) :=
  inferInstanceAs (Decidable (state.legal op))

instance (state : HeapState) : (op : HeapOp) → Decidable (Harmless state op)
  | .balloc _ => inferInstanceAs (Decidable True)
  | .bfree ptr =>
      inferInstanceAs (Decidable (FreeSafe state.heap (header ptr)))
  | .write _ _ => inferInstanceAs (Decidable True)

/-- What clients of the heap rely on. -/
structure HeapSafe (state : HeapState) : Prop where
  live_apart : state.live.Pairwise fun ptr other =>
    HeapState.Apart state.heap (header ptr) (header other)
  live_inside : ∀ ptr ∈ state.live,
    state.heap.memoryStart ≤ header ptr ∧
      HeapState.blockEnd state.heap (header ptr) ≤
        state.heap.memoryStart + 2 ^ state.heap.maxOrder
  lists : ∃ lists : Nat → List Nat,
    (∀ i < buddyNumLists,
      IsList 0 state.heap.next state.heap.prev (state.heap.orderLists i)
        (lists i)) ∧
    (∀ i < buddyNumLists, ∀ bl ∈ lists i,
      state.heap.order bl = i + state.heap.minOrder ∧
        2 ^ state.heap.order bl ∣ bl ∧ state.heap.taken bl = 0 ∧
        (∀ ptr ∈ state.live, HeapState.Apart state.heap bl (header ptr)) ∧
        ∀ j < buddyNumLists, ∀ other ∈ lists j,
          (i ≠ j → bl ≠ other) ∧
            (bl ≠ other → HeapState.Apart state.heap bl other))

/-! ## The invariant along runs -/

/-- The heap invariant for some tiling, in terms of the pointers held. -/
def StateInv (state : HeapState) : Prop :=
  ∃ starts lists live, HeapInv state.heap starts lists live ∧
    state.live = live.map (· + sizeofBuddyBlock)

/-- The invariant is what clients rely on, and more. -/
theorem heapSafe_of_inv
    {state : HeapState}
    (inv : StateInv state) :
    HeapSafe state := by
  rcases inv with ⟨starts, lists, live, inv, liveEq⟩
  have start : ∀ ptr ∈ state.live,
      header ptr ∈ live := by
    intro ptr member
    rw [liveEq] at member
    rcases List.mem_map.mp member with ⟨bl, isLive, rfl⟩
    rw [inv.header_eq (inv.live_starts bl isLive)]
    exact isLive
  have apart : ∀ bl ∈ starts, ∀ other ∈ starts, bl ≠ other →
      HeapState.Apart state.heap bl other :=
    fun bl member other => inv.tiling.disjoint bl member other
  refine ⟨?_, ?_, lists, inv.listing.list, ?_⟩
  · rw [liveEq, List.pairwise_map]
    apply inv.live_nodup.imp_of_mem
    intro bl other isLive otherLive different
    have blStart := inv.live_starts bl isLive
    have otherStart := inv.live_starts other otherLive
    rw [inv.header_eq blStart, inv.header_eq otherStart]
    exact apart bl blStart other otherStart different
  · intro ptr member
    exact inv.tiling.inside _ (inv.live_starts _ (start ptr member))
  · intro i inside bl member
    have free := (inv.listed i bl).mp member
    refine ⟨by omega, inv.tiling.aligned bl free.1, free.2.2, ?_, ?_⟩
    · intro ptr isLive
      apply apart bl free.1 _ (inv.live_starts _ (start ptr isLive))
      intro same
      apply inv.live_taken _ (start ptr isLive)
      rw [← same]
      exact free.2.2
    · intro j _ other otherMember
      constructor
      · rintro different rfl
        exact inv.listing.apart i j different bl member otherMember
      · exact apart bl free.1 other (inv.listed_start otherMember)

/-- `buddy_init` sets up a heap with one free block. -/
theorem initial_root
    {state : HeapState}
    (initial : state.Initial) :
    ∃ base lists, HeapInv state.heap {base} lists [] ∧
      state.heap.taken base = 0 ∧ state.live = [] := by
  rcases initial with
    ⟨order, minOrder, base, before, large, lower, small, aligned, fits, result,
      liveEq⟩
  have notNull : base ≠ 0 := by
    rintro rfl
    rw [buddyInit_null] at result
    exact absurd (Prod.mk.inj (Option.some.inj result)).1 (by decide)
  rw [buddyInit_eq before lower (by omega) notNull] at result
  rw [← (Prod.mk.inj (Option.some.inj result)).2]
  refine ⟨base, _, rootHeap_inv before large lower small aligned fits notNull,
    ?_, liveEq⟩
  exact congrArg BuddyBlock.taken
    (Function.update_self base (⟨order, 0, 0, 0⟩ : BuddyBlock) before.block)

theorem initial_inv
    {state : HeapState}
    (initial : state.Initial) :
    StateInv state := by
  rcases initial_root initial with ⟨base, lists, inv, _, liveEq⟩
  exact ⟨_, lists, [], inv, liveEq⟩

/-- One step of a harmless run. -/
theorem step_inv
    {state state' : HeapState}
    {op : HeapOp}
    (inv : StateInv state)
    (stepped : (heapSystem.restrict Harmless).Step state op state') :
    StateInv state' := by
  rcases inv with ⟨starts, lists, live, inv, liveEq⟩
  rcases stepped with ⟨⟨legal, harmless⟩, stepped⟩
  cases op with
  | balloc size =>
      rcases Option.bind_eq_some_iff.mp stepped with
        ⟨⟨ptr, heap⟩, result, stepped⟩
      dsimp only at stepped
      split at stepped
      · cases stepped
      · rename_i notNull
        cases stepped
        rcases balloc_spec inv result notNull with
          ⟨bl, starts', lists', rfl, inv'⟩
        exact ⟨starts', lists', bl :: live, inv', by simp [liveEq]⟩
  | bfree ptr =>
      have held : ptr ∈ state.live := legal
      rw [liveEq] at held
      rcases List.mem_map.mp held with ⟨bl, isLive, rfl⟩
      have safe : FreeSafe state.heap (header (bl + sizeofBuddyBlock)) :=
        harmless
      rw [inv.header_eq (inv.live_starts bl isLive)] at safe
      rcases bfree_spec inv isLive safe with
        ⟨heap', starts', lists', result, inv'⟩
      rcases Option.map_eq_some_iff.mp stepped with ⟨heap, returned, rfl⟩
      cases Option.some.inj (result.symm.trans returned)
      refine ⟨starts', lists', live.erase bl, inv', ?_⟩
      show state.live.erase (bl + sizeofBuddyBlock) = _
      rw [liveEq, List.map_erase]
      intro first second same
      exact Nat.add_right_cancel same
  | write address contents =>
      rcases legal with ⟨ptr, held, lower, upper⟩
      cases stepped
      rw [liveEq] at held
      rcases List.mem_map.mp held with ⟨bl, isLive, rfl⟩
      have start := inv.live_starts bl isLive
      rw [inv.header_eq start] at lower upper
      refine ⟨starts, lists, live, ?_, liveEq⟩
      apply inv.congr
      · rfl
      · rfl
      · rfl
      · intro i
        rfl
      · intro other member
        apply Function.update_of_ne
        rintro rfl
        have positive := Nat.two_pow_pos (state.heap.order other)
        have same := inv.tiling.eq_of_meet start member
          ⟨by omega, upper⟩ ⟨le_rfl, by omega⟩
        omega

/-- The invariant holds along harmless runs. -/
theorem stateInv_of_reachable
    {state : HeapState}
    (reachable : (heapSystem.restrict Harmless).Reachable state) :
    StateInv state :=
  reachable.invariant (fun _ initial => initial_inv initial)
    (fun _ _ _ inv stepped => step_inv inv stepped)

/-- A legal release which is harmless returns. -/
theorem bfree_returns
    {state : HeapState}
    (inv : StateInv state)
    {ptr : Nat}
    (held : ptr ∈ state.live)
    (harmless : FreeSafe state.heap (header ptr)) :
    ∃ heap, bfree ptr state.heap = some heap := by
  rcases inv with ⟨starts, lists, live, inv, liveEq⟩
  rw [liveEq] at held
  rcases List.mem_map.mp held with ⟨bl, isLive, rfl⟩
  rw [inv.header_eq (inv.live_starts bl isLive)] at harmless
  rcases bfree_spec inv isLive harmless with ⟨heap', _, _, result, _⟩
  exact ⟨heap', result⟩

/--
The kernel heap over whole runs: as long as every release is harmless, live
blocks are disjoint, the free lists are well formed lists of free blocks, and
the next harmless release returns.
-/
theorem kernel_heap_runs
    {state : HeapState}
    (reachable : (heapSystem.restrict Harmless).Reachable state) :
    HeapSafe state ∧
      ∀ ptr ∈ state.live, FreeSafe state.heap (header ptr) →
        ∃ heap, bfree ptr state.heap = some heap := by
  have inv := stateInv_of_reachable reachable
  exact ⟨heapSafe_of_inv inv,
    fun ptr held harmless => bfree_returns inv held harmless⟩

/-! ## Two runs on a heap of four minimal blocks -/

/-- Memory before the heap is set up. -/
def blankMemory : Heap :=
  ⟨0, 0, 0, 0, fun _ => 0, fun _ => ⟨0, 0, 0, 0⟩⟩

/-- A heap of 128 bytes at address 4096 with blocks of at least 32 bytes. -/
def smallHeap : HeapState :=
  ⟨((buddyInit (2 ^ 7) 4096 5 blankMemory).get (by decide)).2, []⟩

theorem smallHeap_initial : smallHeap.Initial :=
  ⟨7, 5, 4096, blankMemory, by decide, by decide, by decide, by decide,
    by decide, rfl, rfl⟩

/-- A run whose releases join the heap into one block again. -/
def joiningRun : List HeapOp :=
  [.balloc 40, .write (4096 + 32) ⟨1, 2, 3, 4⟩, .balloc 8,
    .bfree (4096 + 24), .bfree (4096 + 64 + 24)]

/-- The state after `joiningRun`. -/
def joinedHeap : HeapState :=
  ((heapSystem.restrict Harmless).replay smallHeap joiningRun).get
    (by decide +kernel)

theorem kernel_heap_runs_joinedHeap :
    (heapSystem.restrict Harmless).Reachable joinedHeap ∧
      joinedHeap.heap.orderLists 2 = 4096 ∧ HeapSafe joinedHeap := by
  have reachable : (heapSystem.restrict Harmless).Reachable joinedHeap :=
    System.reachable_of_replay smallHeap_initial (Option.some_get _).symm
  exact ⟨reachable, by decide +kernel, (kernel_heap_runs reachable).1⟩

/-- A run which releases the first and the third of three minimal blocks. -/
def overlappingRun : List HeapOp :=
  [.balloc 8, .balloc 8, .balloc 8, .bfree (4096 + 24),
    .bfree (4096 + 64 + 24)]

/-- The state after `overlappingRun`. -/
def overlappedHeap : HeapState :=
  (heapSystem.replay smallHeap overlappingRun).get (by decide +kernel)

/--
Not every run is safe.  The third block climbs to order 6, where `merge` finds
the first block free on its left and joins it with the live second block; the
result is then joined with the third and listed as one block of order 7.
-/
theorem kernel_heap_overlap :
    ¬ ∀ state, heapSystem.Reachable state → HeapSafe state := by
  intro allSafe
  have reachable : heapSystem.Reachable overlappedHeap :=
    System.reachable_of_replay smallHeap_initial (Option.some_get _).symm
  rcases (allSafe overlappedHeap reachable).lists with ⟨lists, list, free⟩
  have head : overlappedHeap.heap.orderLists 2 = 4096 := by decide +kernel
  have listed : 4096 ∈ lists 2 := by
    have two := list 2 (by decide)
    rw [head] at two
    exact two.head_mem (by decide)
  have apart := (free 2 (by decide) 4096 listed).2.2.2.1
  have clash : ¬ HeapState.Apart overlappedHeap.heap 4096
      (header (4096 + 32 + 24)) := by
    unfold HeapState.Apart
    decide +kernel
  exact clash (apart (4096 + 32 + 24) (by decide +kernel))

end ForsKernel.Buddy
