import Mathlib.Data.List.GetD
import ForsKernel.Memory.AddressSpace

/-!
# The table of a new user address space

`new_blank_user_pml4` fills a fresh root with the direct map of all memory
that is not reserved, the kernel image and the kernel heap.  The loops are
modelled by the lists of calls of `map_page_4k` they make, in order.

The direct map is placed at `hhdm_offset + off` where `off` counts from the
start of each memory map entry.  The last section says exactly when every
address of the memory map nevertheless ends up where the direct map should
have it.
-/

namespace ForsKernel.Memory.Paging

/-! ## The function -/

/-- `struct limine_memmap_entry`. -/
structure MemmapEntry where
  base : Nat
  length : Nat
  type : Nat
deriving DecidableEq, Repr

/-- `LIMINE_MEMMAP_RESERVED`. -/
def limineMemmapReserved : Nat := 1

/-- An address belongs to the entry. -/
def MemmapEntry.Holds
    (entry : MemmapEntry)
    (address : Nat) :
    Prop :=
  entry.base ≤ address ∧ address < entry.base + entry.length

/-- Addresses fixed by the boot loader and the linker. -/
structure KernelImage where
  virtualBase : Nat
  physicalBase : Nat
  codeOffset : Nat
  codeEndOffset : Nat
  roOffset : Nat
  roEndOffset : Nat
  rwOffset : Nat
  rwEndOffset : Nat
  heapStart : Nat
  kernelPml4Table : Nat

/-- The values of `off` in `for (off = start; off < limit; off += 4096)`. -/
def offsets (start limit : Nat) : List Nat :=
  (List.range ((limit - start + (archPageSize - 1)) / archPageSize)).map
    fun n => start + archPageSize * n

/-- The calls a loop over these offsets makes. -/
def rangeCalls
    (pml4Table phys virt flags : Nat)
    (offs : List Nat) :
    List MapCall :=
  offs.map fun off =>
    ⟨pml4Table, (phys + off) % 2 ^ 64, (virt + off) % 2 ^ 64, flags⟩

/-- The calls made for one entry of the memory map. -/
def entryCalls
    (pml4Table : Nat)
    (entry : MemmapEntry) :
    List MapCall :=
  if entry.type ≠ limineMemmapReserved then
    rangeCalls pml4Table entry.base hhdmOffset (psePresent ||| pseWritable)
      (offsets 0 entry.length)
  else
    []

/--
How many entries the loop `for (int i = entry_count - 1; i >= 0; i--)` visits:
the 64-bit count is converted to `int`.
-/
def scanned (entryCount : Nat) : Nat :=
  let i := (entryCount + (2 ^ 64 - 1)) % 2 ^ 32
  if i < 2 ^ 31 then i + 1 else 0

/-- Perform the calls in order; a failed one panics. -/
def mapAll (frames : Nat → Nat) : List MapCall → Machine → Option Machine
  | [], state => some state
  | call :: calls, state =>
      let result := mapPage4k frames state call.pml4Table call.phys call.virt
        call.flags
      if result.1 < 0 then none else mapAll frames calls result.2

/-- The calls made for the kernel image. -/
def imageCalls
    (pml4Table : Nat)
    (image : KernelImage) :
    List MapCall :=
  let range := fun start limit flags =>
    rangeCalls pml4Table image.physicalBase image.virtualBase flags
      (offsets start (limit + archPageSize))
  range image.codeOffset image.codeEndOffset psePresent ++
    range image.roOffset image.roEndOffset psePresent ++
    range image.rwOffset image.rwEndOffset (psePresent ||| pseWritable)

/-- `new_blank_user_pml4`; the result of the last call is not looked at. -/
def newBlankUserPml4
    (frames : Nat → Nat)
    (memmap : List MemmapEntry)
    (image : KernelImage)
    (state : Machine) :
    Option (Nat × Machine) := do
  let newPml4 := (pfallocOne frames state).1
  let state := (pfallocOne frames state).2
  let entries := (memmap.take (scanned memmap.length)).reverse
  let state ← mapAll frames (entries.flatMap (entryCalls newPml4)) state
  let state ← mapAll frames (imageCalls newPml4 image) state
  let heap := mapLookup state image.kernelPml4Table image.heapStart
  if heap.1 < 0 then
    none
  else
    let last := mapPage4k frames state newPml4 heap.2 image.heapStart
      (psePresent ||| pseWritable)
    some (newPml4, last.2)

/-! ## What the calls leave -/

/-- The pages of one address space after these calls. -/
def after
    (calls : List MapCall)
    (pages : Nat → Option Translation) :
    Nat → Option Translation :=
  calls.foldl
    (fun pages call => Function.update pages (pageOf call.virt)
      (some (.along (psePtr call.phys) [call.flags])))
    pages

theorem after_cons
    (call : MapCall)
    (calls : List MapCall)
    (pages : Nat → Option Translation) :
    after (call :: calls) pages =
      after calls (Function.update pages (pageOf call.virt)
        (some (.along (psePtr call.phys) [call.flags]))) :=
  rfl

theorem after_append
    (calls more : List MapCall)
    (pages : Nat → Option Translation) :
    after (calls ++ more) pages = after more (after calls pages) :=
  List.foldl_append

/-- Pages which no call is about stay. -/
theorem after_of_untouched
    {calls : List MapCall}
    {page : Nat}
    (pages : Nat → Option Translation)
    (untouched : ∀ call ∈ calls, pageOf call.virt ≠ page) :
    after calls pages page = pages page := by
  induction calls generalizing pages with
  | nil => rfl
  | cons call calls induction =>
      have first := untouched call (by simp)
      have rest : ∀ other ∈ calls, pageOf other.virt ≠ page :=
        fun other member => untouched other (by simp [member])
      rw [after_cons, induction _ rest, Function.update_of_ne (Ne.symm first)]

/-- A page some call is about shows one of the calls about it. -/
theorem after_of_touched
    {calls : List MapCall}
    {page : Nat}
    (pages : Nat → Option Translation)
    (touched : ∃ call ∈ calls, pageOf call.virt = page) :
    ∃ call ∈ calls, pageOf call.virt = page ∧
      after calls pages page =
        some (.along (psePtr call.phys) [call.flags]) := by
  induction calls generalizing pages with
  | nil => simp at touched
  | cons call calls induction =>
      rw [after_cons]
      by_cases later : ∃ other ∈ calls, pageOf other.virt = page
      · rcases induction _ later with ⟨other, member, about, shown⟩
        exact ⟨other, List.mem_cons_of_mem _ member, about, shown⟩
      · have about : pageOf call.virt = page := by
          rcases touched with ⟨other, member, about⟩
          rcases List.mem_cons.mp member with rfl | member
          · exact about
          · exact (later ⟨other, member, about⟩).elim
        refine ⟨call, by simp, about, ?_⟩
        rw [after_of_untouched, ← about, Function.update_self]
        intro other member same
        exact later ⟨other, member, same⟩

/-- The walk from a root shows these pages. -/
def Shows
    (supply : FrameSupply)
    (root : Nat)
    (state : Machine)
    (pages : Nat → Option Translation) :
    Prop :=
  (∃ used rank parent, MachineInv supply state used rank parent) ∧
    ∀ virt, walk state.mem root virt = pages (pageOf virt)

section MapAll

variable
  {supply : FrameSupply}
  {root : Nat}
  {state state' : Machine}
  {pages : Nat → Option Translation}

theorem points_frame
    (isRoot : root ∈ supply.roots)
    (i : Fin 512) :
    Machine.physical (entryPtr root i) = entryPtr root i :=
  physical_low (supply.root_frame root isRoot) i

/-- One call which returned zero. -/
theorem Shows.mapped
    (shows : Shows supply root state pages)
    (isRoot : root ∈ supply.roots)
    {phys virt flags : Nat}
    (isFlags : IsFlags flags)
    (returned : ¬ (mapPage4k supply.frames state root phys virt flags).1 < 0) :
    Shows supply root (mapPage4k supply.frames state root phys virt flags).2
      (Function.update pages (pageOf virt)
        (some (.along (psePtr phys) [flags]))) := by
  rcases shows with ⟨⟨used, rank, parent, inv⟩, same⟩
  rcases mapPage4k_spec inv isRoot (points_frame isRoot) isFlags phys virt with
    ⟨inv', effect⟩
  refine ⟨inv', ?_⟩
  intro virt'
  generalize mapPage4k supply.frames state root phys virt flags = result
    at effect returned
  cases effect with
  | nomem _ => exact (returned (show eNomem < 0 by decide)).elim
  | mapped update =>
      rw [update root isRoot virt', same virt', Function.update_apply]
      simp

/-- Calls which do not panic have all been performed. -/
theorem Shows.mapAll
    {calls : List MapCall}
    (shows : Shows supply root state pages)
    (isRoot : root ∈ supply.roots)
    (legal : ∀ call ∈ calls, call.pml4Table = root ∧ IsFlags call.flags)
    (returned : mapAll supply.frames calls state = some state') :
    Shows supply root state' (after calls pages) := by
  induction calls generalizing state pages with
  | nil =>
      cases returned
      exact shows
  | cons call calls induction =>
      have first := legal call (by simp)
      rw [Paging.mapAll] at returned
      split at returned
      · cases returned
      · rename_i succeeded
        rw [first.1] at returned succeeded
        exact induction (shows.mapped isRoot first.2 succeeded)
          (fun other member => legal other (by simp [member])) returned

end MapAll

/-! ## The direct map -/

/-- What boot loader and linker promise: see the fields. -/
structure BootMap
    (memmap : List MemmapEntry)
    (image : KernelImage)
    (top : Nat) :
    Prop where
  /-- Entries start and end on page boundaries. -/
  aligned : ∀ entry ∈ memmap,
    archPageSize ∣ entry.base ∧ archPageSize ∣ entry.length
  /-- No address belongs to two entries. -/
  apart : memmap.Pairwise fun entry other =>
    ∀ address, ¬ (entry.Holds address ∧ other.Holds address)
  /-- The direct map stays in the upper half of the address space. -/
  below : ∀ entry ∈ memmap, entry.type ≠ limineMemmapReserved →
    entry.base + entry.length ≤ top
  top_aligned : archPageSize ∣ top
  top_le : top ≤ 2 ^ 47
  /-- The kernel image is linked above the direct map of this memory. -/
  image_above : ∀ call ∈ imageCalls 0 image, hhdmOffset + top ≤ call.virt
  heap_above : hhdmOffset + top ≤ image.heapStart
  heap_fits : image.heapStart < 2 ^ 64

/-- `pfalloc_one` yields a zeroed root and then frames of its own. -/
structure FreshRoot
    (frames : Nat → Nat)
    (state : Machine) :
    Prop where
  root_alloc : frames state.calls ≠ 0
  zeroed : ∀ i, table state.mem (frames state.calls) i = 0
  answer_frame : ∀ k ≥ state.calls, frames k ≠ 0 → IsFrame (frames k)
  answer_fresh : ∀ j ≥ state.calls, ∀ k > j, frames k ≠ 0 →
    frames j ≠ frames k

/-- Every address that is not reserved is found in the direct map. -/
def DirectMapped
    (memmap : List MemmapEntry)
    (mem : Nat → Nat)
    (root : Nat) :
    Prop :=
  ∀ entry ∈ memmap, entry.type ≠ limineMemmapReserved →
    ∀ address, entry.Holds address →
      translate mem root (hhdmOffset + address) = some address

/-- Every entry that matters starts at zero and is visited. -/
def StartsAtZero (memmap : List MemmapEntry) : Prop :=
  ∀ k entry, memmap[k]? = some entry → entry.type ≠ limineMemmapReserved →
    0 < entry.length → entry.base = 0 ∧ k < scanned memmap.length

theorem mem_offsets {start limit off : Nat} :
    off ∈ offsets start limit ↔
      ∃ n, off = start + archPageSize * n ∧ off < limit := by
  rw [offsets, List.mem_map]
  simp only [List.mem_range, archPageSize]
  constructor
  · rintro ⟨n, bound, rfl⟩
    exact ⟨n, rfl, by omega⟩
  · rintro ⟨n, rfl, bound⟩
    exact ⟨n, by omega, rfl⟩

/-- The supply of frames for the tables below the new root. -/
def FreshRoot.supply
    {frames : Nat → Nat}
    {state : Machine}
    (fresh : FreshRoot frames state) :
    FrameSupply where
  roots := {frames state.calls}
  frames := frames
  first := state.calls + 1
  root_frame := by
    rintro root rfl
    exact fresh.answer_frame _ le_rfl fresh.root_alloc
  answer_frame := by
    intro k started
    exact fresh.answer_frame k (by omega)
  answer_not_root := by
    intro k started notNull isRoot
    exact fresh.answer_fresh _ le_rfl k (by omega) notNull
      (Set.mem_singleton_iff.mp isRoot).symm
  answer_fresh := by
    intro j started k later
    exact fresh.answer_fresh j (by omega) k later

/-- A zeroed root shows nothing. -/
theorem FreshRoot.shows
    {frames : Nat → Nat}
    {state : Machine}
    (fresh : FreshRoot frames state) :
    Shows fresh.supply (frames state.calls) (pfallocOne frames state).2
      (fun _ => none) := by
  have initial : (pagingSystem fresh.supply).init
      ⟨(pfallocOne frames state).2, []⟩ := by
    refine ⟨?_, rfl, rfl⟩
    rintro root rfl i
    exact fresh.zeroed i
  rcases initial_refines initial with ⟨inv, same⟩
  refine ⟨inv, ?_⟩
  intro virt
  exact same _ rfl virt

section Direct

variable
  {frames : Nat → Nat}
  {memmap : List MemmapEntry}
  {image : KernelImage}
  {state state' : Machine}
  {root top : Nat}

theorem isFlags_present : IsFlags psePresent :=
  ⟨by decide, by decide⟩

theorem isFlags_writable : IsFlags (psePresent ||| pseWritable) :=
  ⟨by decide, by decide⟩

theorem rangeCalls_legal
    {phys virt flags : Nat}
    {offs : List Nat}
    (isFlags : IsFlags flags) :
    ∀ call ∈ rangeCalls root phys virt flags offs,
      call.pml4Table = root ∧ IsFlags call.flags := by
  intro call member
  rcases List.mem_map.mp member with ⟨off, _, rfl⟩
  exact ⟨rfl, isFlags⟩

theorem entryCalls_legal (entries : List MemmapEntry) :
    ∀ call ∈ entries.flatMap (entryCalls root),
      call.pml4Table = root ∧ IsFlags call.flags := by
  intro call member
  rcases List.mem_flatMap.mp member with ⟨entry, _, member⟩
  rw [entryCalls] at member
  split at member
  · exact rangeCalls_legal isFlags_writable call member
  · simp at member

theorem imageCalls_legal (image : KernelImage) :
    ∀ call ∈ imageCalls root image,
      call.pml4Table = root ∧ IsFlags call.flags := by
  intro call member
  rw [imageCalls, List.mem_append, List.mem_append] at member
  rcases member with (code | ro) | rw
  · exact rangeCalls_legal isFlags_present call code
  · exact rangeCalls_legal isFlags_present call ro
  · exact rangeCalls_legal isFlags_writable call rw

/-- The image calls map the same pages whatever the root. -/
theorem imageCalls_virt
    (image : KernelImage)
    (root : Nat) :
    (imageCalls root image).map MapCall.virt =
      (imageCalls 0 image).map MapCall.virt := by
  simp [imageCalls, rangeCalls, Function.comp_def]

theorem rangeCalls_fits
    {phys virt flags : Nat}
    {offs : List Nat} :
    ∀ call ∈ rangeCalls root phys virt flags offs, call.virt < 2 ^ 64 := by
  intro call member
  rcases List.mem_map.mp member with ⟨off, _, rfl⟩
  exact Nat.mod_lt _ (by omega)

theorem imageCalls_fits (image : KernelImage) :
    ∀ call ∈ imageCalls root image, call.virt < 2 ^ 64 := by
  intro call member
  rw [imageCalls, List.mem_append, List.mem_append] at member
  rcases member with (code | ro) | rw
  · exact rangeCalls_fits call code
  · exact rangeCalls_fits call ro
  · exact rangeCalls_fits call rw

/-- Pages of the direct map are not those of higher addresses. -/
theorem page_ne
    {address virt : Nat}
    (top_aligned : archPageSize ∣ top)
    (top_le : top ≤ 2 ^ 47)
    (inside : address < top)
    (above : hhdmOffset + top ≤ virt)
    (fits : virt < 2 ^ 64) :
    pageOf virt ≠ pageOf (hhdmOffset + address) := by
  rcases top_aligned with ⟨quotient, rfl⟩
  rw [pageOf, pageOf]
  rw [hhdmOffset, hhMask, archPageSize] at *
  omega

/-- What the finished table shows in the direct map. -/
theorem newBlankUserPml4_shows
    (boot : BootMap memmap image top)
    (fresh : FreshRoot frames state)
    (returned : newBlankUserPml4 frames memmap image state =
      some (root, state')) :
    root = frames state.calls ∧
      ∀ address < top, walk state'.mem root (hhdmOffset + address) =
        after ((memmap.take (scanned memmap.length)).reverse.flatMap
          (entryCalls root)) (fun _ => none)
          (pageOf (hhdmOffset + address)) := by
  simp only [newBlankUserPml4, Option.bind_eq_bind,
    Option.bind_eq_some_iff] at returned
  rcases returned with ⟨filled, entriesDone, mapped, imageDone, returned⟩
  split at returned
  · cases returned
  rcases Prod.mk.inj (Option.some.inj returned) with ⟨rootEq, rfl⟩
  have rootIs : frames state.calls = root := rootEq
  rw [rootEq] at entriesDone imageDone
  refine ⟨rootIs.symm, ?_⟩
  intro address inside
  have isRoot : root ∈ fresh.supply.roots := rootIs.symm
  have start := fresh.shows
  rw [rootIs] at start
  have entriesShow := start.mapAll isRoot (entryCalls_legal _) entriesDone
  have imageShow := entriesShow.mapAll isRoot (imageCalls_legal image) imageDone
  have imageAway : ∀ call ∈ imageCalls root image,
      pageOf call.virt ≠ pageOf (hhdmOffset + address) := by
    intro call member
    have inMap : call.virt ∈ (imageCalls 0 image).map MapCall.virt := by
      rw [← imageCalls_virt image root]
      exact List.mem_map_of_mem member
    rcases List.mem_map.mp inMap with ⟨other, otherMember, same⟩
    apply page_ne boot.top_aligned boot.top_le inside
    · rw [← same]
      exact boot.image_above other otherMember
    · exact imageCalls_fits image call member
  rcases imageShow with ⟨⟨used, rank, parent, inv⟩, same⟩
  have heapAway := page_ne boot.top_aligned boot.top_le inside
    boot.heap_above boot.heap_fits
  have lastEffect := (mapPage4k_spec inv isRoot (points_frame isRoot)
    isFlags_writable (mapLookup mapped image.kernelPml4Table
      image.heapStart).2 image.heapStart).2
  rw [rootEq]
  have lastSame : walk (mapPage4k frames mapped root
      (mapLookup mapped image.kernelPml4Table image.heapStart).2
      image.heapStart (psePresent ||| pseWritable)).2.mem root
      (hhdmOffset + address) =
      walk mapped.mem root (hhdmOffset + address) := by
    change Effect fresh.supply mapped root _ _ _ (mapPage4k frames mapped root
      _ _ _) at lastEffect
    generalize mapPage4k frames mapped root _ _ _ = result at lastEffect ⊢
    cases lastEffect with
    | nomem unchanged => exact unchanged root isRoot _
    | mapped update =>
        rw [update root isRoot, if_neg]
        rintro ⟨_, samePage⟩
        exact heapAway samePage.symm
  rw [lastSame, same, after_of_untouched _ imageAway]

/-- The calls the nested loop makes for the direct map. -/
theorem mem_entryCalls
    (boot : BootMap memmap image top)
    {n : Nat}
    {call : MapCall} :
    call ∈ (memmap.take n).reverse.flatMap (entryCalls root) ↔
      ∃ k entry off, k < n ∧ memmap[k]? = some entry ∧
        entry.type ≠ limineMemmapReserved ∧ archPageSize ∣ off ∧
        off < entry.length ∧
        call = ⟨root, entry.base + off, hhdmOffset + off,
          psePresent ||| pseWritable⟩ := by
  rw [List.mem_flatMap]
  have wraps : ∀ entry ∈ memmap, entry.type ≠ limineMemmapReserved →
      ∀ off < entry.length, (entry.base + off) % 2 ^ 64 = entry.base + off ∧
        (hhdmOffset + off) % 2 ^ 64 = hhdmOffset + off := by
    intro entry member usable off inside
    have below := boot.below entry member usable
    have small := boot.top_le
    rw [hhdmOffset, hhMask]
    omega
  constructor
  · rintro ⟨entry, member, called⟩
    rw [List.mem_reverse] at member
    rcases List.mem_iff_getElem?.mp member with ⟨k, found⟩
    rw [List.getElem?_take] at found
    split at found
    · rename_i visited
      rw [entryCalls] at called
      split at called
      · rename_i usable
        rcases List.mem_map.mp called with ⟨off, offMember, rfl⟩
        rcases mem_offsets.mp offMember with ⟨pages, rfl, inside⟩
        have wrap := wraps entry (List.mem_of_getElem? found) usable _ inside
        refine ⟨k, entry, _, visited, found, usable, ?_, inside, ?_⟩
        · exact ⟨pages, by omega⟩
        · rw [wrap.1, wrap.2]
      · simp at called
    · cases found
  · rintro ⟨k, entry, off, visited, found, usable, ⟨pages, rfl⟩, inside, rfl⟩
    have wrap := wraps entry (List.mem_of_getElem? found) usable _ inside
    refine ⟨entry, ?_, ?_⟩
    · rw [List.mem_reverse, List.mem_iff_getElem?]
      exact ⟨k, by rw [List.getElem?_take, if_pos visited]; exact found⟩
    · rw [entryCalls, if_pos usable, rangeCalls, List.mem_map]
      refine ⟨archPageSize * pages,
        mem_offsets.mpr ⟨pages, by omega, inside⟩, ?_⟩
      rw [wrap.1, wrap.2]

/-- Two entries which hold one address are the same entry. -/
theorem entry_unique
    (boot : BootMap memmap image top)
    {j k : Nat}
    {entry other : MemmapEntry}
    {address : Nat}
    (first : memmap[j]? = some entry)
    (second : memmap[k]? = some other)
    (holds : entry.Holds address)
    (holds' : other.Holds address) :
    j = k := by
  rcases List.getElem?_eq_some_iff.mp first with ⟨jBound, rfl⟩
  rcases List.getElem?_eq_some_iff.mp second with ⟨kBound, rfl⟩
  have apart := List.pairwise_iff_getElem.mp boot.apart
  rcases Nat.lt_trichotomy j k with before | same | behind
  · exact (apart j k jBound kBound before address ⟨holds, holds'⟩).elim
  · exact same
  · exact (apart k j kBound jBound behind address ⟨holds', holds⟩).elim

/-- Addresses of one page of the direct map. -/
theorem same_page
    {off address : Nat}
    (aligned : archPageSize ∣ off)
    (offSmall : off < 2 ^ 47)
    (small : address < 2 ^ 47) :
    pageOf (hhdmOffset + off) = pageOf (hhdmOffset + address) ↔
      off = address / archPageSize * archPageSize := by
  rcases aligned with ⟨quotient, rfl⟩
  rw [pageOf, pageOf]
  rw [hhdmOffset, hhMask, archPageSize] at *
  omega

/-- The frame of a direct map call is the address it names. -/
theorem psePtr_entry
    (boot : BootMap memmap image top)
    {k : Nat}
    {entry : MemmapEntry}
    {off : Nat}
    (found : memmap[k]? = some entry)
    (usable : entry.type ≠ limineMemmapReserved)
    (aligned : archPageSize ∣ off)
    (inside : off < entry.length) :
    psePtr (entry.base + off) = entry.base + off := by
  have member := List.mem_of_getElem? found
  have below := boot.below entry member usable
  have small := boot.top_le
  exact psePtr_frame (Nat.dvd_add (boot.aligned entry member).1 aligned)
    (by omega)

/-- The direct map leads to an entry counted from its base, or nowhere. -/
theorem direct_map_cases
    (boot : BootMap memmap image top)
    (fresh : FreshRoot frames state)
    (returned : newBlankUserPml4 frames memmap image state =
      some (root, state'))
    {address : Nat}
    (inside : address < top) :
    (translate state'.mem root (hhdmOffset + address) = none ∧
      ∀ k entry, k < scanned memmap.length → memmap[k]? = some entry →
        entry.type ≠ limineMemmapReserved →
          entry.length ≤ address / archPageSize * archPageSize) ∨
    ∃ k entry, k < scanned memmap.length ∧ memmap[k]? = some entry ∧
      entry.type ≠ limineMemmapReserved ∧
      address / archPageSize * archPageSize < entry.length ∧
      translate state'.mem root (hhdmOffset + address) =
        some (entry.base + address) := by
  have small := boot.top_le
  have walks := (newBlankUserPml4_shows boot fresh returned).2 address inside
  by_cases touched : ∃ call ∈
      (memmap.take (scanned memmap.length)).reverse.flatMap (entryCalls root),
      pageOf call.virt = pageOf (hhdmOffset + address)
  · right
    rcases after_of_touched (fun _ => none) touched with
      ⟨call, called, about, shown⟩
    rcases (mem_entryCalls boot).mp called with
      ⟨k, entry, off, visited, found, usable, aligned, within, rfl⟩
    have below := boot.below entry (List.mem_of_getElem? found) usable
    have offIs := (same_page aligned (by omega) (by omega)).mp about
    refine ⟨k, entry, visited, found, usable, by omega, ?_⟩
    have offset : (hhdmOffset + address) % archPageSize =
        address % archPageSize := by
      rw [hhdmOffset, hhMask, archPageSize]
      omega
    rw [translate, walks, shown, Option.map_some,
      psePtr_entry boot found usable aligned within]
    apply congrArg some
    show entry.base + off + (hhdmOffset + address) % archPageSize =
      entry.base + address
    rw [offset, offIs, Nat.add_assoc, Nat.div_add_mod']
  · left
    constructor
    · rw [translate, walks, after_of_untouched]
      · rfl
      · exact fun call called same => touched ⟨call, called, same⟩
    · intro k entry visited found usable
      by_contra within
      rw [not_le] at within
      apply touched
      refine ⟨_, (mem_entryCalls boot).mpr ⟨k, entry, _, visited, found,
        usable, Nat.dvd_mul_left _ _, within, rfl⟩, ?_⟩
      have below := boot.below entry (List.mem_of_getElem? found) usable
      exact (same_page (Nat.dvd_mul_left _ _) (by omega) (by omega)).mpr rfl

/--
The direct map of a new user address space is complete exactly when every
entry of the memory map that is neither reserved nor empty starts at address
zero, and the loop gets to it.
-/
theorem new_blank_user_pml4_direct_map
    (boot : BootMap memmap image top)
    (fresh : FreshRoot frames state)
    (returned : newBlankUserPml4 frames memmap image state =
      some (root, state')) :
    DirectMapped memmap state'.mem root ↔ StartsAtZero memmap := by
  constructor
  · intro direct k entry found usable nonempty
    have member := List.mem_of_getElem? found
    have below := boot.below entry member usable
    have holds : entry.Holds entry.base := ⟨le_rfl, by omega⟩
    have translated := direct entry member usable entry.base holds
    rcases direct_map_cases boot fresh returned
        (show entry.base < top by omega) with
      ⟨nowhere, _⟩ | ⟨j, other, visited, found', usable', within, shown⟩
    · rw [nowhere] at translated
      cases translated
    · -- the page shows an entry, which starts at zero and holds the address
      rw [shown, Option.some.injEq] at translated
      have zero : other.base = 0 := by omega
      have aligned := Nat.div_mul_cancel (boot.aligned entry member).1
      have same : j = k := by
        apply entry_unique boot found' found _ holds
        exact ⟨by omega, by omega⟩
      subst same
      rw [found] at found'
      cases found'
      exact ⟨zero, visited⟩
  · intro zero entry member usable address holds
    rcases List.mem_iff_getElem?.mp member with ⟨k, found⟩
    have below := boot.below entry member usable
    rcases holds with ⟨lower, upper⟩
    have start := zero k entry found usable (by omega)
    have floor := Nat.div_mul_le_self address archPageSize
    rcases direct_map_cases boot fresh returned
        (show address < top by omega) with
      ⟨_, beyond⟩ | ⟨j, other, visited, found', usable', within, shown⟩
    · have last := beyond k entry start.2 found usable
      omega
    · rw [shown, (zero j other found' usable' (by omega)).1, Nat.zero_add]

end Direct

/-! ## Two memory maps -/

/-- A small kernel image at its usual place. -/
def sampleImage : KernelImage where
  virtualBase := 0xffffffff80000000
  physicalBase := 0x200000
  codeOffset := 0
  codeEndOffset := 0
  roOffset := 0x1000
  roEndOffset := 0x1000
  rwOffset := 0x2000
  rwEndOffset := 0x2000
  heapStart := 0xffffffff80010000
  kernelPml4Table := hhdmOffset + 0x100000

/-- Memory which holds the kernel's own mapping of its heap. -/
def sampleMachine : Machine where
  mem address :=
    if address = 0x100000 + 8 * 511 then 0x101003
    else if address = 0x101000 + 8 * 510 then 0x102003
    else if address = 0x102000 then 0x103003
    else if address = 0x103000 + 8 * 16 then 0x300003
    else 0
  calls := 0

def sampleFrames (k : Nat) : Nat :=
  if k < 16 then 0x400000 + 4096 * k else 0

/-- Usable memory from address zero on. -/
def lowMemmap : List MemmapEntry :=
  [⟨0, 0x2000, 0⟩]

/-- Usable memory which starts one page higher. -/
def gapMemmap : List MemmapEntry :=
  [⟨0x1000, 0x1000, 0⟩]

theorem sample_fresh : FreshRoot sampleFrames sampleMachine where
  root_alloc := by decide
  zeroed := by
    intro i
    have bound := i.isLt
    show (sampleMachine.mem (0x400000 + 8 * i.val)) = 0
    simp only [sampleMachine]
    rw [if_neg (by omega), if_neg (by omega), if_neg (by omega),
      if_neg (by omega)]
  answer_frame := by
    intro k _ notNull
    rw [sampleFrames] at notNull ⊢
    split at notNull
    · rename_i few
      rw [if_pos few]
      exact ⟨⟨1024 + k, by rw [archPageSize]; omega⟩, by omega⟩
    · exact (notNull rfl).elim
  answer_fresh := by
    intro j _ k later notNull
    rw [sampleFrames] at notNull
    rw [sampleFrames, sampleFrames]
    split at notNull
    · rename_i few
      rw [if_pos few, if_pos (by omega)]
      omega
    · exact (notNull rfl).elim

theorem lowMemmap_boot : BootMap lowMemmap sampleImage 0x2000 where
  aligned := by decide
  apart := List.pairwise_singleton _ _
  below := by decide
  top_aligned := by decide
  top_le := by decide
  image_above := by decide
  heap_above := by decide
  heap_fits := by decide

theorem gapMemmap_boot : BootMap gapMemmap sampleImage 0x2000 where
  aligned := by decide
  apart := List.pairwise_singleton _ _
  below := by decide
  top_aligned := by decide
  top_le := by decide
  image_above := by decide
  heap_above := by decide
  heap_fits := by decide

def lowTable : Nat × Machine :=
  (newBlankUserPml4 sampleFrames lowMemmap sampleImage sampleMachine).get
    (by decide +kernel)

def gapTable : Nat × Machine :=
  (newBlankUserPml4 sampleFrames gapMemmap sampleImage sampleMachine).get
    (by decide +kernel)

theorem lowTable_returned :
    newBlankUserPml4 sampleFrames lowMemmap sampleImage sampleMachine =
      some (lowTable.1, lowTable.2) := by
  rw [Prod.mk.eta, lowTable, Option.some_get]

theorem gapTable_returned :
    newBlankUserPml4 sampleFrames gapMemmap sampleImage sampleMachine =
      some (gapTable.1, gapTable.2) := by
  rw [Prod.mk.eta, gapTable, Option.some_get]

theorem new_blank_user_pml4_direct_map_low :
    StartsAtZero lowMemmap ∧
      translate lowTable.2.mem lowTable.1 (hhdmOffset + 0x1234) =
        some 0x1234 := by
  have zero : StartsAtZero lowMemmap := by
    intro k entry found _ _
    cases k with
    | zero =>
        cases found
        exact ⟨rfl, by decide⟩
    | succ k => cases found
  have direct := (new_blank_user_pml4_direct_map lowMemmap_boot sample_fresh
    lowTable_returned).mpr zero
  exact ⟨zero, direct ⟨0, 0x2000, 0⟩ (by decide) (by decide) 0x1234
    ⟨by decide, by decide⟩⟩

/-- Usable memory at 0x1000 is mapped at the start of the direct map. -/
theorem new_blank_user_pml4_gap :
    ¬ ∀ (frames : Nat → Nat) (memmap : List MemmapEntry) (image : KernelImage)
        (state state' : Machine) (root top : Nat),
      BootMap memmap image top → FreshRoot frames state →
      newBlankUserPml4 frames memmap image state = some (root, state') →
      DirectMapped memmap state'.mem root := by
  intro allDirect
  have direct := allDirect sampleFrames gapMemmap sampleImage sampleMachine
    gapTable.2 gapTable.1 0x2000 gapMemmap_boot sample_fresh
    gapTable_returned
  have wrong : translate gapTable.2.mem gapTable.1 (hhdmOffset + 0x1000) =
      none := by
    decide +kernel
  have right := direct ⟨0x1000, 0x1000, 0⟩ (by decide) (by decide) 0x1000
    ⟨by decide, by decide⟩
  rw [wrong] at right
  cases right

end ForsKernel.Memory.Paging
