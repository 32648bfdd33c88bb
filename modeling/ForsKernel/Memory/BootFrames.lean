import Mathlib.Data.List.Nodup
import ForsKernel.Memory.FrameRuns
import ForsKernel.Memory.UserTable

/-!
# The frame pool at boot

`x64_init_physical_memory` puts the frames of all usable entries of the memory
map into the pool.  The entries are visited by an `int` counting down, and so
are the bytes of an entry: of the 64-bit length only the value as an `int` is
used.  An entry of more than 2 GiB therefore loses frames.
-/

namespace ForsKernel.Memory.Frames

open ForsKernel.Lib.LinkedList
open ForsKernel.Memory.Paging (MemmapEntry scanned)

/-! ## The function -/

/-- `LIMINE_MEMMAP_USABLE`. -/
def limineMemmapUsable : Nat := 0

/-- `int byte = ent->length - ARCH_PAGE_SIZE`. -/
def lastByte (length : Nat) : Int :=
  Int.bmod ((length : Int) - archPageSize) (2 ^ 32)

/-- No `int` allows for more passes of a loop in steps of a page. -/
def byteFuel : Nat := 2 ^ 20

/-- The loop over the bytes of an entry, in steps of a page downwards. -/
def byteLoop : Nat → FramePool → (base : Nat) → (byte : Int) →
    Option FramePool
  | 0, _, _, _ => none
  | fuel + 1, pool, base, byte =>
      if 0 ≤ byte then
        (frameInsert pool ((base + byte.toNat) % 2 ^ 64)).bind fun pool =>
          byteLoop fuel pool base (byte - archPageSize)
      else
        some pool

/-- The frames of one entry. -/
def insertEntry
    (pool : FramePool)
    (ent : MemmapEntry) :
    Option FramePool :=
  if ent.type = limineMemmapUsable then
    byteLoop byteFuel pool ent.base (lastByte ent.length)
  else
    some pool

/-- `x64_init_physical_memory`, for the memory map of the boot loader. -/
def x64InitPhysicalMemory
    (memmap : List MemmapEntry)
    (pool : FramePool) :
    Option FramePool :=
  (memmap.take (scanned memmap.length)).reverse.foldlM insertEntry pool

/-! ## The frames of one entry -/

/-- How many frames of an entry of this length are inserted. -/
def insertedPages (length : Nat) : Nat :=
  (lastByte length / archPageSize + 1).toNat

/-- The `int` is the difference up to a multiple of `2 ^ 32`. -/
theorem lastByte_cases (length : Nat) :
    ∃ wraps : Int, lastByte length = length - archPageSize - 2 ^ 32 * wraps ∧
      -2 ^ 31 ≤ lastByte length ∧ lastByte length < 2 ^ 31 := by
  refine ⟨Int.bdiv ((length : Int) - archPageSize) (2 ^ 32), ?_, ?_, ?_⟩
  · exact Int.bmod_eq_self_sub_mul_bdiv _ _
  · exact Int.le_bmod (by decide)
  · exact Int.bmod_lt (by decide)

theorem insertedPages_le
    {length : Nat}
    (aligned : archPageSize ∣ length) :
    insertedPages length ≤ length / archPageSize := by
  rcases aligned with ⟨pages, rfl⟩
  rcases lastByte_cases (archPageSize * pages) with ⟨wraps, byte, low, high⟩
  rw [insertedPages]
  simp only [archPageSize] at byte low high ⊢
  omega

/-- All frames are inserted when the length is at most 2 GiB. -/
theorem insertedPages_all_iff
    {length : Nat}
    (aligned : archPageSize ∣ length)
    (positive : 0 < length) :
    length / archPageSize ≤ insertedPages length ↔ length ≤ 2 ^ 31 := by
  rcases aligned with ⟨pages, rfl⟩
  rcases lastByte_cases (archPageSize * pages) with ⟨wraps, byte, low, high⟩
  rw [insertedPages]
  simp only [archPageSize] at positive byte low high ⊢
  omega

/-- The loop begins at the last of these frames, or ends at once. -/
theorem lastByte_eq
    {length : Nat}
    (aligned : archPageSize ∣ length) :
    (lastByte length < 0 ∧ insertedPages length = 0 ∨
      lastByte length =
        (archPageSize * insertedPages length : Nat) - (archPageSize : Int)) ∧
      insertedPages length < byteFuel := by
  rcases aligned with ⟨pages, rfl⟩
  rcases lastByte_cases (archPageSize * pages) with ⟨wraps, byte, low, high⟩
  rw [insertedPages, byteFuel]
  simp only [archPageSize] at byte low high ⊢
  omega

/-- The loop inserts the frames of a run, the last one first. -/
theorem byteLoop_eq (base count : Nat) :
    ∀ fuel pool, count < fuel → base + archPageSize * count ≤ 2 ^ 64 →
      byteLoop fuel pool base
          ((archPageSize * count : Nat) - (archPageSize : Int)) =
        (runFrom base count).reverse.foldlM frameInsert pool := by
  induction count with
  | zero =>
      intro fuel pool enough _
      cases fuel with
      | zero => exact (Nat.not_lt_zero _ enough).elim
      | succ fuel =>
          rw [byteLoop, if_neg (by simp [archPageSize])]
          rfl
  | succ count induction =>
      intro fuel pool enough fits
      cases fuel with
      | zero => exact (Nat.not_lt_zero _ enough).elim
      | succ fuel =>
          have byte : ((archPageSize * (count + 1) : Nat) : Int) -
              archPageSize = (archPageSize * count : Nat) := by
            simp only [archPageSize]
            omega
          have here : (base + archPageSize * count) % 2 ^ 64 =
              base + archPageSize * count := by
            simp only [archPageSize] at fits ⊢
            omega
          rw [byteLoop, byte, if_pos (Int.natCast_nonneg _), Int.toNat_natCast,
            here, runFrom_succ, List.reverse_append, List.reverse_singleton,
            List.singleton_append, List.foldlM_cons, Option.bind_eq_bind]
          apply Option.bind_congr
          intro pool' _
          apply induction fuel pool' (Nat.lt_of_succ_lt_succ enough)
          simp only [archPageSize] at fits ⊢
          omega

/-- The frames inserted for an entry, in this order. -/
def entryOrder (ent : MemmapEntry) : List Nat :=
  if ent.type = limineMemmapUsable then
    (runFrom ent.base (insertedPages ent.length)).reverse
  else
    []

theorem mem_entryOrder
    {ent : MemmapEntry}
    {frame : Nat} :
    frame ∈ entryOrder ent ↔ ent.type = limineMemmapUsable ∧
      ∃ i < insertedPages ent.length, frame = ent.base + archPageSize * i := by
  rw [entryOrder]
  split
  · rename_i usable
    rw [List.mem_reverse, mem_runFrom]
    exact ⟨fun found => ⟨usable, found⟩, fun found => found.2⟩
  · rename_i unusable
    simp [unusable]

/-- The frames of an entry are inserted one after the other. -/
theorem insertEntry_eq
    {ent : MemmapEntry}
    (aligned : archPageSize ∣ ent.length)
    (fits : ent.base + ent.length ≤ 2 ^ 64)
    (pool : FramePool) :
    insertEntry pool ent = (entryOrder ent).foldlM frameInsert pool := by
  rw [insertEntry, entryOrder]
  split
  · rcases lastByte_eq aligned with ⟨⟨negative, none⟩ | byte, enough⟩
    · have fuel : byteFuel = (byteFuel - 1) + 1 := by decide
      rw [fuel, byteLoop, if_neg (by omega), none]
      rfl
    · have shorter := insertedPages_le aligned
      rw [byte]
      apply byteLoop_eq _ _ _ _ enough
      have whole := Nat.mul_div_le ent.length archPageSize
      have scaled := Nat.mul_le_mul_left archPageSize shorter
      omega
  · rfl

/-! ## The frames of the whole map -/

/-- What the boot loader promises about its memory map. -/
structure MemoryMap (memmap : List MemmapEntry) : Prop where
  aligned : ∀ ent ∈ memmap,
    archPageSize ∣ ent.base ∧ archPageSize ∣ ent.length
  fits : ∀ ent ∈ memmap, ent.base + ent.length ≤ 2 ^ 64
  /-- No address belongs to two entries. -/
  apart : memmap.Pairwise fun ent other =>
    ∀ address, ¬ (ent.Holds address ∧ other.Holds address)
  /-- No usable memory at the physical page zero. -/
  usable_pos : ∀ ent ∈ memmap, ent.type = limineMemmapUsable →
    0 < ent.length → 0 < ent.base

/-- The frame is one of a usable entry. -/
def UsableFrame
    (memmap : List MemmapEntry)
    (frame : Nat) :
    Prop :=
  ∃ ent ∈ memmap, ent.type = limineMemmapUsable ∧
    ∃ i < ent.length / archPageSize, frame = ent.base + archPageSize * i

section Map

variable {memmap : List MemmapEntry}

/-- A frame of an entry belongs to it. -/
theorem MemoryMap.entry_holds
    (map : MemoryMap memmap)
    {ent : MemmapEntry}
    (member : ent ∈ memmap)
    {i : Nat}
    (inside : i < ent.length / archPageSize) :
    ent.Holds (ent.base + archPageSize * i) ∧
      archPageSize * i + archPageSize ≤ ent.length := by
  rcases (map.aligned ent member).2 with ⟨pages, length⟩
  rw [MemmapEntry.Holds]
  simp only [archPageSize] at inside length ⊢
  omega

/-- An inserted frame is one of the entry's frames. -/
theorem MemoryMap.inserted_holds
    (map : MemoryMap memmap)
    {ent : MemmapEntry}
    (member : ent ∈ memmap)
    {frame : Nat}
    (inserted : frame ∈ entryOrder ent) :
    ent.Holds frame ∧ frame ≠ 0 ∧ frame < 2 ^ 64 ∧
      UsableFrame memmap frame := by
  rcases mem_entryOrder.mp inserted with ⟨usable, i, below, rfl⟩
  have inside := below.trans_le (insertedPages_le (map.aligned ent member).2)
  have holds := map.entry_holds member inside
  have fits := map.fits ent member
  have positive := map.usable_pos ent member usable (by
    have paged := holds.2
    simp only [archPageSize] at paged
    omega)
  refine ⟨holds.1, by omega, ?_, ent, member, usable, i, inside, rfl⟩
  have paged := holds.2
  simp only [archPageSize] at paged ⊢
  omega

/-- The entries visited, the last one first. -/
def visitedEntries (memmap : List MemmapEntry) : List MemmapEntry :=
  (memmap.take (scanned memmap.length)).reverse

theorem mem_visitedEntries {ent : MemmapEntry} :
    ent ∈ visitedEntries memmap ↔
      ∃ k < scanned memmap.length, memmap[k]? = some ent := by
  rw [visitedEntries, List.mem_reverse, List.mem_iff_getElem?]
  constructor
  · rintro ⟨k, found⟩
    rw [List.getElem?_take] at found
    split at found
    · rename_i visited
      exact ⟨k, visited, found⟩
    · cases found
  · rintro ⟨k, visited, found⟩
    exact ⟨k, by rw [List.getElem?_take, if_pos visited, found]⟩

theorem visitedEntries_subset
    {ent : MemmapEntry}
    (visited : ent ∈ visitedEntries memmap) :
    ent ∈ memmap := by
  rcases mem_visitedEntries.mp visited with ⟨k, _, found⟩
  exact List.mem_of_getElem? found

/-- Different entries have different frames. -/
theorem MemoryMap.order_nodup (map : MemoryMap memmap) :
    ((visitedEntries memmap).flatMap entryOrder).Nodup := by
  rw [List.nodup_flatMap]
  constructor
  · intro ent _
    rw [entryOrder]
    split
    · rw [List.nodup_reverse]
      exact List.nodup_range' _ (by decide)
    · exact List.nodup_nil
  · have apart : (memmap.take (scanned memmap.length)).reverse.Pairwise
        fun ent other =>
          ∀ address, ¬ (other.Holds address ∧ ent.Holds address) :=
      List.pairwise_reverse.mpr (map.apart.sublist (List.take_sublist _ _))
    apply List.Pairwise.imp_of_mem _ apart
    intro ent other visited visited' disjoint
    rw [Function.onFun, List.disjoint_left]
    intro frame inserted inserted'
    exact disjoint frame
      ⟨(map.inserted_holds (visitedEntries_subset visited') inserted').1,
        (map.inserted_holds (visitedEntries_subset visited) inserted).1⟩

/-- `x64_init_physical_memory` inserts frame after frame. -/
theorem MemoryMap.init_eq
    (map : MemoryMap memmap)
    (pool : FramePool) :
    x64InitPhysicalMemory memmap pool =
      ((visitedEntries memmap).flatMap entryOrder).foldlM frameInsert pool := by
  have each : ∀ ent ∈ visitedEntries memmap, ∀ pool,
      insertEntry pool ent = (entryOrder ent).foldlM frameInsert pool := by
    intro ent visited pool
    have member := visitedEntries_subset visited
    have aligned := (map.aligned ent member).2
    exact insertEntry_eq aligned (map.fits ent member) pool
  rw [x64InitPhysicalMemory, ← visitedEntries]
  generalize visitedEntries memmap = entries at each
  induction entries generalizing pool with
  | nil => rfl
  | cons ent entries induction =>
      rw [List.foldlM_cons, List.flatMap_cons, List.foldlM_append,
        each ent (by simp)]
      apply Option.bind_congr
      intro pool' _
      exact induction pool' fun other member => each other (by simp [member])

/-- The pool has exactly the frames of the entries visited. -/
theorem MemoryMap.init_spec
    (map : MemoryMap memmap)
    (marker : Nat → FrameMarker) :
    ∃ pool frames,
      x64InitPhysicalMemory memmap ⟨marker, 0, 0⟩ = some pool ∧
      Holds pool frames ∧
      ∀ frame, frame ∈ frames ↔
        ∃ ent ∈ visitedEntries memmap, frame ∈ entryOrder ent := by
  have empty : Holds ⟨marker, 0, 0⟩ [] :=
    ⟨IsList.empty 0 _ _, by simp, rfl⟩
  have inserted : ∀ frame ∈ (visitedEntries memmap).flatMap entryOrder,
      frame ≠ 0 ∧ frame < 2 ^ 64 := by
    intro frame member
    rcases List.mem_flatMap.mp member with ⟨ent, visited, inEntry⟩
    have holds := map.inserted_holds (visitedEntries_subset visited) inEntry
    exact ⟨holds.2.1, holds.2.2.1⟩
  have few := length_lt_of_nodup map.order_nodup
    (fun frame member => (inserted frame member).1)
    (fun frame member => (inserted frame member).2)
  rcases fill_spec _ _ [] empty map.order_nodup
      (fun frame member => ⟨(inserted frame member).1, by simp⟩)
      (by simpa using few) with ⟨pool, frames, filled, holds, members⟩
  refine ⟨pool, frames, (map.init_eq _).trans filled, holds, ?_⟩
  intro frame
  rw [← List.mem_toFinset, members]
  simp only [List.toFinset_nil, Finset.empty_union, List.mem_toFinset,
    List.mem_flatMap]

/-- Two entries which hold one address are the same entry. -/
theorem MemoryMap.unique
    (map : MemoryMap memmap)
    {j k : Nat}
    {ent other : MemmapEntry}
    {address : Nat}
    (first : memmap[j]? = some ent)
    (second : memmap[k]? = some other)
    (holds : ent.Holds address)
    (holds' : other.Holds address) :
    j = k := by
  rcases List.getElem?_eq_some_iff.mp first with ⟨jBound, rfl⟩
  rcases List.getElem?_eq_some_iff.mp second with ⟨kBound, rfl⟩
  have apart := List.pairwise_iff_getElem.mp map.apart
  rcases Nat.lt_trichotomy j k with before | same | behind
  · exact (apart j k jBound kBound before address ⟨holds, holds'⟩).elim
  · exact same
  · exact (apart k j kBound jBound behind address ⟨holds', holds⟩).elim

end Map

/-- The free list has the frames of all usable entries, and no others. -/
def PoolComplete
    (memmap : List MemmapEntry)
    (pool? : Option FramePool) :
    Prop :=
  ∃ pool frames, pool? = some pool ∧ Holds pool frames ∧
    ∀ frame, frame ∈ frames ↔ UsableFrame memmap frame

/--
The pool is complete exactly when every usable entry is visited and at most
2 GiB long.
-/
theorem frame_pool_complete_iff
    {memmap : List MemmapEntry}
    (map : MemoryMap memmap)
    (marker : Nat → FrameMarker) :
    PoolComplete memmap (x64InitPhysicalMemory memmap ⟨marker, 0, 0⟩) ↔
      ∀ k ent, memmap[k]? = some ent → ent.type = limineMemmapUsable →
        0 < ent.length → k < scanned memmap.length ∧ ent.length ≤ 2 ^ 31 := by
  rcases map.init_spec marker with ⟨pool, frames, returned, holds, members⟩
  rw [returned]
  constructor
  · rintro ⟨pool', frames', same, holds', complete⟩
    have samePool : pool = pool' := Option.some.inj same
    subst samePool
    have sameFrames : frames = frames' := holds.list.unique holds'.list
    subst sameFrames
    intro k ent found usable positive
    have member := List.mem_of_getElem? found
    have aligned := (map.aligned ent member).2
    -- the last frame of the entry has been inserted for this very entry
    have some : 0 < ent.length / archPageSize :=
      Nat.div_pos (Nat.le_of_dvd positive aligned) (by decide)
    have inside : ent.length / archPageSize - 1 <
        ent.length / archPageSize := by omega
    have inPool := (complete _).mpr
      ⟨ent, member, usable, _, inside, rfl⟩
    rcases (members _).mp inPool with ⟨other, visited, inserted⟩
    rcases mem_visitedEntries.mp visited with ⟨j, below, found'⟩
    have holdsOther :=
      (map.inserted_holds (visitedEntries_subset visited) inserted).1
    have index := map.unique found found'
      (map.entry_holds member inside).1 holdsOther
    subst index
    have sameEntry : ent = other := Option.some.inj (found.symm.trans found')
    subst sameEntry
    rcases mem_entryOrder.mp inserted with ⟨_, i, early, sum⟩
    refine ⟨below, (insertedPages_all_iff aligned positive).mp ?_⟩
    simp only [archPageSize] at sum some ⊢
    omega
  · intro condition
    refine ⟨pool, frames, rfl, holds, ?_⟩
    intro frame
    rw [members]
    constructor
    · rintro ⟨ent, visited, inserted⟩
      exact (map.inserted_holds (visitedEntries_subset visited)
        inserted).2.2.2
    · rintro ⟨ent, member, usable, i, inside, rfl⟩
      rcases List.mem_iff_getElem?.mp member with ⟨k, found⟩
      have paged := (map.entry_holds member inside).2
      have positive : 0 < ent.length := by
        simp only [archPageSize] at paged
        omega
      have good := condition k ent found usable positive
      have all := (insertedPages_all_iff (map.aligned ent member).2
        positive).mpr good.2
      exact ⟨ent, mem_visitedEntries.mpr ⟨k, good.1, found⟩,
        mem_entryOrder.mpr ⟨usable, i, inside.trans_le all, rfl⟩⟩

/-- Two usable pages, and a reserved one above them. -/
def lowMap : List MemmapEntry :=
  [⟨0x1000, 0x2000, 0⟩, ⟨0x3000, 0x1000, 1⟩]

theorem lowMap_promised : MemoryMap lowMap where
  aligned := by decide
  fits := by decide
  apart := by
    simp only [lowMap, List.pairwise_cons, List.mem_singleton, forall_eq,
      MemmapEntry.Holds, List.not_mem_nil, false_implies, implies_true,
      List.Pairwise.nil, and_true]
    omega
  usable_pos := by decide

/-- Both usable pages are in the pool. -/
theorem frame_pool_complete_low :
    MemoryMap lowMap ∧
      PoolComplete lowMap
        (x64InitPhysicalMemory lowMap ⟨fun _ => ⟨0, 0⟩, 0, 0⟩) := by
  refine ⟨lowMap_promised, ?_⟩
  apply (frame_pool_complete_iff lowMap_promised _).mpr
  intro k ent found _ _
  rcases List.getElem?_eq_some_iff.mp found with ⟨below, rfl⟩
  have small : k < 2 := below
  have first : k = 0 ∨ k = 1 := by omega
  rcases first with rfl | rfl
  · show 0 < scanned lowMap.length ∧ 0x2000 ≤ 2 ^ 31
    decide
  · show 1 < scanned lowMap.length ∧ 0x1000 ≤ 2 ^ 31
    decide

/-- One usable entry of 3 GiB. -/
def largeMap : List MemmapEntry :=
  [⟨0x100000, 0xc0000000, 0⟩]

theorem largeMap_promised : MemoryMap largeMap where
  aligned := by decide
  fits := by decide
  apart := List.pairwise_singleton _ _
  usable_pos := by decide

/-- No frame of it gets into the pool. -/
theorem frame_pool_incomplete :
    MemoryMap largeMap ∧
      x64InitPhysicalMemory largeMap ⟨fun _ => ⟨0, 0⟩, 0, 0⟩ =
        some ⟨fun _ => ⟨0, 0⟩, 0, 0⟩ ∧
      ¬ PoolComplete largeMap
        (x64InitPhysicalMemory largeMap ⟨fun _ => ⟨0, 0⟩, 0, 0⟩) := by
  have returned : x64InitPhysicalMemory largeMap ⟨fun _ => ⟨0, 0⟩, 0, 0⟩ =
      some ⟨fun _ => ⟨0, 0⟩, 0, 0⟩ :=
    rfl
  refine ⟨largeMap_promised, returned, ?_⟩
  rintro ⟨pool, frames, same, holds, complete⟩
  have blank : (⟨fun _ => ⟨0, 0⟩, 0, 0⟩ : FramePool) = pool :=
    Option.some.inj (returned.symm.trans same)
  have counted := holds.count
  rw [← blank] at counted
  have none : frames = [] := List.eq_nil_of_length_eq_zero counted.symm
  have first : 0x100000 ∈ frames :=
    (complete _).mpr ⟨_, List.mem_singleton.mpr rfl, rfl, 0, by decide, rfl⟩
  rw [none] at first
  cases first

end ForsKernel.Memory.Frames
