import ForsKernel.Memory.AddressSpace
import ForsKernel.Memory.FrameInvariant

/-!
# One physical memory

The allocator keeps its markers in the free frames, and `map_page_4k` builds
tables in frames which it takes from the allocator.  Both work on the words of
one memory.  A pool is laid over the first two words of every page frame, and
`map_page_4k` is read off the source once more with the allocator's own
answers and its writes to the markers.
-/

namespace ForsKernel.Memory.Frames

open ForsKernel.Lib.LinkedList

/-! ## What the allocator writes -/

/-- Beside `NULL`, only the markers of these frames have been written. -/
def WritesOnly
    (pool pool' : FramePool)
    (frames : List Nat) :
    Prop :=
  ∀ cell ≠ 0, cell ∉ frames → pool'.marker cell = pool.marker cell

theorem marker_setNext
    (pool : FramePool)
    {frame cell : Nat}
    (value : Nat)
    (other : cell ≠ frame) :
    (pool.setNext frame value).marker cell = pool.marker cell :=
  Function.update_of_ne other _ _

theorem marker_setPrev
    (pool : FramePool)
    {frame cell : Nat}
    (value : Nat)
    (other : cell ≠ frame) :
    (pool.setPrev frame value).marker cell = pool.marker cell :=
  Function.update_of_ne other _ _

theorem insertBefore_writes
    (pool : FramePool)
    {toIns prev curr : Nat} :
    WritesOnly pool (insertBefore pool toIns prev curr)
      [toIns, prev, curr] := by
  intro cell _ other
  simp only [List.mem_cons, List.not_mem_nil, or_false, not_or] at other
  unfold insertBefore
  dsimp only
  split
  · show (((((pool.setNext toIns curr).setPrev curr toIns).setPrev toIns
      prev).setNext prev toIns)).marker cell = _
    rw [marker_setNext _ _ other.2.1, marker_setPrev _ _ other.1,
      marker_setPrev _ _ other.2.2, marker_setNext _ _ other.1]
  · show (((pool.setNext toIns curr).setPrev curr toIns).setPrev toIns
      0).marker cell = _
    rw [marker_setPrev _ _ other.1, marker_setPrev _ _ other.2.2,
      marker_setNext _ _ other.1]

theorem insertLast_writes
    (pool : FramePool)
    {toIns curr : Nat} :
    WritesOnly pool (insertLast pool toIns curr) [toIns, curr] := by
  intro cell _ other
  simp only [List.mem_cons, List.not_mem_nil, or_false, not_or] at other
  show (((pool.setNext curr toIns).setNext toIns 0).setPrev toIns
    curr).marker cell = _
  rw [marker_setPrev _ _ other.1, marker_setNext _ _ other.1,
    marker_setNext _ _ other.2]

theorem WritesOnly.mono
    {pool pool' : FramePool}
    {frames more : List Nat}
    (writes : WritesOnly pool pool' frames)
    (subset : ∀ cell ≠ 0, cell ∈ frames → cell ∈ more) :
    WritesOnly pool pool' more := by
  intro cell notNull outside
  exact writes cell notNull fun inside => outside (subset cell notNull inside)

/-- The insertion loop writes to the frame and to its two neighbours. -/
theorem frameInsertLoop_writes
    {pool pool' : FramePool}
    {toIns : Nat}
    {frames : List Nat}
    (closed : ∀ cell ∈ frames, pool.next cell ≠ 0 → pool.next cell ∈ frames)
    (fuel : Nat)
    (prev curr : Nat)
    (behind : prev ≠ 0 → prev ∈ frames)
    (ahead : curr ≠ 0 → curr ∈ frames)
    (returned : frameInsertLoop fuel pool toIns prev curr = some pool') :
    WritesOnly pool pool' (toIns :: frames) := by
  induction fuel generalizing prev curr with
  | zero => cases returned
  | succ fuel induction =>
      rw [frameInsertLoop] at returned
      split at returned
      · cases returned
      · rename_i notNull
        split at returned
        · cases returned
          apply (insertBefore_writes pool).mono
          intro cell cellNotNull member
          simp only [List.mem_cons, List.not_mem_nil, or_false] at member ⊢
          rcases member with rfl | rfl | rfl
          · exact .inl rfl
          · exact .inr (behind cellNotNull)
          · exact .inr (ahead notNull)
        · split at returned
          · cases returned
            apply (insertLast_writes pool).mono
            intro cell _ member
            simp only [List.mem_cons, List.not_mem_nil, or_false] at member ⊢
            rcases member with rfl | rfl
            · exact .inl rfl
            · exact .inr (ahead notNull)
          · exact induction curr (pool.next curr) (fun _ => ahead notNull)
              (closed curr (ahead notNull)) returned

/-- The successor of a listed frame is listed, or there is none. -/
theorem Holds.next_mem
    {pool : FramePool}
    {frames : List Nat}
    (holds : Holds pool frames)
    {cell : Nat}
    (member : cell ∈ frames)
    (more : pool.next cell ≠ 0) :
    pool.next cell ∈ frames := by
  rcases List.mem_iff_append.mp member with ⟨left, right, rfl⟩
  have block : IsList 0 pool.next pool.prev pool.frameList
      (left ++ [cell] ++ right) := by
    rw [List.append_assoc]
    exact holds.list
  have next : pool.next cell = frontOr 0 right :=
    block.next_block (List.cons_ne_nil cell [])
  rw [next] at more ⊢
  have nonempty : right ≠ [] := by
    rintro rfl
    exact more rfl
  exact List.mem_append_right _
    (List.mem_cons_of_mem _ (frontOr_mem 0 nonempty))

theorem frameInsert_writes
    {pool pool' : FramePool}
    {frames : List Nat}
    (holds : Holds pool frames)
    {frame : Nat}
    (returned : frameInsert pool frame = some pool') :
    WritesOnly pool pool' (frame :: frames) := by
  rw [frameInsert] at returned
  split at returned
  · cases returned
    intro cell _ other
    have apart : cell ≠ frame := fun same =>
      other (same ▸ List.mem_cons_self)
    show ((pool.setNext frame 0).setPrev frame 0).marker cell = _
    rw [marker_setPrev _ _ apart, marker_setNext _ _ apart]
  · apply frameInsertLoop_writes (fun cell => holds.next_mem) traversalFuel 0
      pool.frameList (fun absurd => (absurd rfl).elim) _ returned
    intro notNull
    rw [holds.frameList_eq] at notNull ⊢
    apply frontOr_mem
    rintro rfl
    exact notNull rfl

/-- Taking frames out of the list writes to the frames beside them. -/
theorem Taken.writes
    {pool pool' : FramePool}
    {left right : List Nat}
    (taken : Taken pool pool' left right) :
    WritesOnly pool pool' (left ++ right) := by
  intro cell notNull outside
  rw [List.mem_append, not_or] at outside
  have forward : pool'.next cell = pool.next cell := by
    apply taken.next
    rintro rfl
    by_cases empty : left = []
    · subst empty
      exact notNull rfl
    · exact outside.1 (backOr_mem 0 empty)
  have backward : pool'.prev cell = pool.prev cell := by
    apply taken.prev
    rintro rfl
    by_cases empty : right = []
    · subst empty
      exact notNull rfl
    · exact outside.2 (frontOr_mem 0 empty)
  calc pool'.marker cell = ⟨pool'.next cell, pool'.prev cell⟩ := rfl
    _ = ⟨pool.next cell, pool.prev cell⟩ := by rw [forward, backward]
    _ = pool.marker cell := rfl

/-- The frame which an operation of a client is about. -/
def FrameOp.subject : FrameOp → List Nat
  | .allocOne => []
  | .allocConsecutive _ => []
  | .freeOne pf => [pf]
  | .write frame _ => [frame]

/-- Beside its subject an operation writes to free frames only. -/
theorem step_writes
    {initial : FrameSet}
    {state next : FrameSystem}
    {frames : List Nat}
    (inv : FrameInvariant initial state frames)
    {op : FrameOp}
    (returned : state.step op = some next) :
    WritesOnly state.pool next.pool (op.subject ++ frames) := by
  cases op with
  | allocOne =>
      cases returned
      cases frames with
      | nil =>
          intro cell _ _
          rw [pfallocOne_nil inv.holds]
      | cons first rest =>
          apply (pfallocOne_cons inv.holds inv.free.length_lt).2.writes.mono
          intro cell _ member
          exact List.mem_cons_of_mem first member
  | allocConsecutive n =>
      rcases Option.map_eq_some_iff.mp returned with
        ⟨⟨ptr, pool⟩, allocated, rfl⟩
      rcases pfallocConsecutive_spec inv.free n with
        ⟨ptr', pool', allocated',
          nothing | ⟨_, _, left, right, split, taken⟩⟩
      · rw [allocated] at allocated'
        cases allocated'
        intro cell _ _
        rw [nothing.2.1]
      · rw [allocated] at allocated'
        cases allocated'
        apply (taken (inv.searched_eq split).1).writes.mono
        intro cell _ member
        show cell ∈ frames
        rw [split]
        simp only [List.mem_append] at member ⊢
        tauto
  | freeOne pf =>
      rcases Option.map_eq_some_iff.mp returned with ⟨pool, freed, rfl⟩
      exact frameInsert_writes inv.holds freed
  | write frame contents =>
      cases returned
      intro cell _ other
      apply Function.update_of_ne
      rintro rfl
      exact other List.mem_cons_self

end ForsKernel.Memory.Frames

namespace ForsKernel.Memory.Shared

open ForsKernel.Lib.LinkedList
open ForsKernel.Lib.RadixForest
open ForsKernel.Memory.Paging
open ForsKernel.Memory.Frames (FramePool FrameMarker Holds WritesOnly)

/-! ## The words and the markers -/

/-- The words of physical memory, with the two static variables of `phys.c`. -/
structure PhysicalMemory where
  mem : Nat → Nat
  frameList : Nat
  freeFrames : Nat

namespace PhysicalMemory

def read
    (memory : PhysicalMemory)
    (ptr : Nat) :
    Nat :=
  memory.mem (Machine.physical ptr)

def write
    (memory : PhysicalMemory)
    (ptr value : Nat) :
    PhysicalMemory :=
  { memory with mem := Function.update memory.mem (Machine.physical ptr) value }

/-- The markers as they lie in memory: `next` and behind it `prev`. -/
def pool (memory : PhysicalMemory) : FramePool where
  marker := fun frame => ⟨memory.mem frame, memory.mem (frame + 8)⟩
  frameList := memory.frameList
  freeFrames := memory.freeFrames

/-- Memory after the allocator has left the markers of page frames so. -/
def withPool
    (memory : PhysicalMemory)
    (pool : FramePool) :
    PhysicalMemory where
  mem := fun word =>
    if word % archPageSize = 0 then (pool.marker word).next
    else if word % archPageSize = 8 then (pool.marker (word - 8)).prev
    else memory.mem word
  frameList := pool.frameList
  freeFrames := pool.freeFrames

end PhysicalMemory

/-! ## `map_page_4k` with the allocator -/

/-- `pfalloc_one`. -/
def pfallocOne (memory : PhysicalMemory) : Nat × PhysicalMemory :=
  let result := Frames.pfallocOne memory.pool
  (result.1, memory.withPool result.2)

/-- `zero_paging_table`. -/
def zeroPagingTable
    (memory : PhysicalMemory)
    (table : Nat) :
    PhysicalMemory :=
  { memory with mem := (Paging.zeroPagingTable ⟨memory.mem, 0⟩ table).mem }

/-- What `map_page_4k` does at each of the three upper levels. -/
def ensureTable
    (memory : PhysicalMemory)
    (entry flags : Nat) :
    Bool × PhysicalMemory :=
  let linked :=
    if ¬ HasFlag (memory.read entry) psePresent then
      let newTable := (pfallocOne memory).1
      let memory := (pfallocOne memory).2
      if newTable = 0 then
        (false, memory)
      else
        (true, (zeroPagingTable memory newTable).write entry (psePtr newTable))
    else
      (true, memory)
  if linked.1 then
    (true, linked.2.write entry
      (linked.2.read entry ||| (flags ||| psePresent)))
  else
    linked

/-- `map_page_4k`. -/
def mapPage4k
    (memory : PhysicalMemory)
    (pml4Table phys virt flags : Nat) :
    Int × PhysicalMemory :=
  let pml4Entry := entryPtr pml4Table (pml4Index virt)
  let level4 := ensureTable memory pml4Entry flags
  if ¬ level4.1 then
    (eNomem, level4.2)
  else
    let pml3Table := pseGetPtr (level4.2.read pml4Entry)
    let pml3Entry := entryPtr pml3Table (pml3Index virt)
    if HasFlag (level4.2.read pml3Entry) psePagesize then
      (eGeneric, level4.2)
    else
      let level3 := ensureTable level4.2 pml3Entry flags
      if ¬ level3.1 then
        (eNomem, level3.2)
      else
        let pml2Table := pseGetPtr (level3.2.read pml3Entry)
        let pml2Entry := entryPtr pml2Table (pml2Index virt)
        if HasFlag (level3.2.read pml2Entry) psePagesize then
          (eGeneric, level3.2)
        else
          let level2 := ensureTable level3.2 pml2Entry flags
          if ¬ level2.1 then
            (eNomem, level2.2)
          else
            let pml1Table := pseGetPtr (level2.2.read pml2Entry)
            let pml1Entry := entryPtr pml1Table (pml1Index virt)
            (0, level2.2.write pml1Entry (psePtr phys ||| flags))

/-! ## Markers of page frames -/

section

variable
  {memory memory' : PhysicalMemory}
  {pool : FramePool}

theorem IsFrame.mod_eq
    {frame : Nat}
    (isFrame : IsFrame frame) :
    frame % archPageSize = 0 :=
  Nat.mod_eq_zero_of_dvd isFrame.aligned

theorem marker_withPool
    (memory : PhysicalMemory)
    (pool : FramePool)
    {frame : Nat}
    (isFrame : IsFrame frame) :
    (memory.withPool pool).pool.marker frame = pool.marker frame := by
  have first := IsFrame.mod_eq isFrame
  have second : (frame + 8) % archPageSize = 8 := by
    rw [archPageSize] at first ⊢
    omega
  have next : (memory.withPool pool).mem frame = (pool.marker frame).next :=
    if_pos first
  have prev : (memory.withPool pool).mem (frame + 8) =
      (pool.marker frame).prev := by
    show (if (frame + 8) % archPageSize = 0 then _ else _) = _
    rw [second, if_neg (by decide), if_pos rfl, Nat.add_sub_cancel]
  show (⟨_, _⟩ : FrameMarker) = _
  rw [next, prev]

/-- Putting the markers back as they are changes nothing. -/
theorem withPool_pool (memory : PhysicalMemory) :
    memory.withPool memory.pool = memory := by
  have words : (memory.withPool memory.pool).mem = memory.mem := by
    funext word
    show (if word % archPageSize = 0 then _ else _) = _
    split
    · rfl
    · split
      · rename_i second
        show memory.mem (word - 8 + 8) = _
        rw [Nat.sub_add_cancel]
        by_contra small
        rw [Nat.mod_eq_of_lt (by rw [archPageSize]; omega)] at second
        omega
      · rfl
  calc memory.withPool memory.pool
      = ⟨(memory.withPool memory.pool).mem, memory.frameList,
          memory.freeFrames⟩ := rfl
    _ = memory := by rw [words]

/-- A frame whose marker is not written keeps all of its words. -/
theorem table_withPool
    {frame : Nat}
    (isFrame : IsFrame frame)
    (same : pool.marker frame = memory.pool.marker frame)
    (i : Fin 512) :
    table (memory.withPool pool).mem frame i = table memory.mem frame i := by
  have first := IsFrame.mod_eq isFrame
  have bound := i.isLt
  show (if entryPtr frame i % archPageSize = 0 then _ else _) = _
  split
  · rename_i start
    have zero : entryPtr frame i = frame := by
      rw [archPageSize] at first start
      rw [entryPtr] at start ⊢
      omega
    show (pool.marker (entryPtr frame i)).next = memory.mem (entryPtr frame i)
    rw [zero, same]
    rfl
  · split
    · rename_i second
      have one : entryPtr frame i = frame + 8 := by
        rw [archPageSize] at first second
        rw [entryPtr] at second ⊢
        omega
      show (pool.marker (entryPtr frame i - 8)).prev =
        memory.mem (entryPtr frame i)
      rw [one, Nat.add_sub_cancel, same]
      rfl
    · rfl

/-- The marker lies in the first two words of its frame. -/
theorem marker_of_table
    {frame : Nat}
    (same : ∀ i, table memory'.mem frame i = table memory.mem frame i) :
    memory'.pool.marker frame = memory.pool.marker frame := by
  have next : memory'.mem frame = memory.mem frame := same 0
  have prev : memory'.mem (frame + 8) = memory.mem (frame + 8) := same 1
  show (⟨_, _⟩ : FrameMarker) = ⟨_, _⟩
  rw [next, prev]

theorem holds_congr
    {pool' : FramePool}
    {frames : List Nat}
    (holds : Holds pool frames)
    (same : ∀ frame ∈ frames, pool'.marker frame = pool.marker frame)
    (sameList : pool'.frameList = pool.frameList)
    (sameCount : pool'.freeFrames = pool.freeFrames) :
    Holds pool' frames := by
  refine ⟨?_, holds.ascending, sameCount.trans holds.count⟩
  rw [sameList]
  apply holds.list.congr
  · intro frame member
    exact congrArg FrameMarker.next (same frame member)
  · intro frame member
    exact congrArg FrameMarker.prev (same frame member)

/-- The list of free page frames, seen through memory. -/
theorem holds_withPool
    {frames : List Nat}
    (holds : Holds pool frames)
    (isFrame : ∀ frame ∈ frames, IsFrame frame) :
    Holds (memory.withPool pool).pool frames := by
  refine holds_congr holds ?_ rfl rfl
  intro frame member
  exact marker_withPool memory pool (isFrame frame member)

end

end ForsKernel.Memory.Shared
