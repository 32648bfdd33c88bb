import Mathlib.Data.Nat.Bitwise
import Mathlib.Logic.Function.Basic

/-!
# Page tables

`arch/x64/memory/virt.c` edits four-level page tables in place.  The model
keeps physical memory as a map from the addresses of 64-bit words to their
contents.  Physical memory is visible identity mapped and again from
`hhdm_offset` on, so every pointer the code follows is resolved to a physical
address.

Page frames come from `pfalloc_one`, which is left open: its answers are a
sequence given from outside, and the state counts how many have been used.
-/

namespace ForsKernel.Memory.Paging

/-! ## Entries and addresses -/

/-- `ARCH_PAGE_SIZE`. -/
def archPageSize : Nat := 4096

/-- `HH_MASK`, which is also where the direct map starts. -/
def hhMask : Nat := 0xffff800000000000

/-- `hhdm_offset`. -/
def hhdmOffset : Nat := hhMask

/-- `PSE_PRESENT`. -/
def psePresent : Nat := 1 <<< 0

/-- `PSE_WRITABLE`. -/
def pseWritable : Nat := 1 <<< 1

/-- `PSE_USER`. -/
def pseUser : Nat := 1 <<< 2

/-- `PSE_PAGESIZE`. -/
def psePagesize : Nat := 1 <<< 7

/-- `PSE_XD`. -/
def pseXd : Nat := 1 <<< 63

/-- `EGENERIC`. -/
def eGeneric : Int := -1

/-- `ENOMAP`. -/
def eNomap : Int := -4

/-- `ENOMEM`. -/
def eNomem : Int := -5

/-- `PSE_PTR`. -/
def psePtr (val : Nat) : Nat :=
  val &&& 0x000ffffffffff000

/-- `PSE_GET_PTR`. -/
def pseGetPtr (val : Nat) : Nat :=
  psePtr val ||| hhMask

/-- The flag is set in the entry. -/
def HasFlag (entry flag : Nat) : Prop :=
  entry &&& flag ≠ 0

instance (entry flag : Nat) : Decidable (HasFlag entry flag) :=
  inferInstanceAs (Decidable (_ ≠ _))

/-- `EXTRACT_PML4_INDEX`. -/
def pml4Index (virt : Nat) : Nat :=
  (virt >>> 39) &&& 0x1ff

/-- `EXTRACT_PML3_INDEX`. -/
def pml3Index (virt : Nat) : Nat :=
  (virt >>> 30) &&& 0x1ff

/-- `EXTRACT_PML2_INDEX`. -/
def pml2Index (virt : Nat) : Nat :=
  (virt >>> 21) &&& 0x1ff

/-- `EXTRACT_PML1_INDEX`. -/
def pml1Index (virt : Nat) : Nat :=
  (virt >>> 12) &&& 0x1ff

/-- `&(table[index])`. -/
def entryPtr (table index : Nat) : Nat :=
  table + 8 * index

/-! ## Memory -/

/-- Physical memory, and the number of answers taken from `pfalloc_one`. -/
structure Machine where
  mem : Nat → Nat
  calls : Nat

namespace Machine

/-- The physical address behind a pointer. -/
def physical (ptr : Nat) : Nat :=
  if hhdmOffset ≤ ptr then ptr - hhdmOffset else ptr

def read
    (state : Machine)
    (ptr : Nat) :
    Nat :=
  state.mem (physical ptr)

def write
    (state : Machine)
    (ptr value : Nat) :
    Machine :=
  { state with mem := Function.update state.mem (physical ptr) value }

end Machine

/-- `zero_paging_table`. -/
def zeroPagingTable
    (state : Machine)
    (table : Nat) :
    Machine :=
  (List.range 512).foldl
    (fun state i => state.write (entryPtr table i) 0) state

/-- `pfalloc_one`; zero is `NULL`. -/
def pfallocOne
    (frames : Nat → Nat)
    (state : Machine) :
    Nat × Machine :=
  (frames state.calls, { state with calls := state.calls + 1 })

/--
What `map_page_4k` does at each of the three upper levels: make sure that the
entry names a table and add the flags.  The result is false if no frame was
left.
-/
def ensureTable
    (frames : Nat → Nat)
    (state : Machine)
    (entry flags : Nat) :
    Bool × Machine :=
  let linked :=
    if ¬ HasFlag (state.read entry) psePresent then
      let newTable := (pfallocOne frames state).1
      let state := (pfallocOne frames state).2
      if newTable = 0 then
        (false, state)
      else
        (true, (zeroPagingTable state newTable).write entry (psePtr newTable))
    else
      (true, state)
  if linked.1 then
    (true, linked.2.write entry
      (linked.2.read entry ||| (flags ||| psePresent)))
  else
    linked

/-- `map_page_4k`. -/
def mapPage4k
    (frames : Nat → Nat)
    (state : Machine)
    (pml4Table phys virt flags : Nat) :
    Int × Machine :=
  let pml4Entry := entryPtr pml4Table (pml4Index virt)
  let level4 := ensureTable frames state pml4Entry flags
  if ¬ level4.1 then
    (eNomem, level4.2)
  else
    let pml3Table := pseGetPtr (level4.2.read pml4Entry)
    let pml3Entry := entryPtr pml3Table (pml3Index virt)
    if HasFlag (level4.2.read pml3Entry) psePagesize then
      (eGeneric, level4.2)
    else
      let level3 := ensureTable frames level4.2 pml3Entry flags
      if ¬ level3.1 then
        (eNomem, level3.2)
      else
        let pml2Table := pseGetPtr (level3.2.read pml3Entry)
        let pml2Entry := entryPtr pml2Table (pml2Index virt)
        if HasFlag (level3.2.read pml2Entry) psePagesize then
          (eGeneric, level3.2)
        else
          let level2 := ensureTable frames level3.2 pml2Entry flags
          if ¬ level2.1 then
            (eNomem, level2.2)
          else
            let pml1Table := pseGetPtr (level2.2.read pml2Entry)
            let pml1Entry := entryPtr pml1Table (pml1Index virt)
            (0, level2.2.write pml1Entry (psePtr phys ||| flags))

/--
`map_lookup`, with the value left in `*phys_ret`.  Both parts of the address
are of type `unsigned int`, and so is their sum.
-/
def mapLookup
    (state : Machine)
    (pml4Table virt : Nat) :
    Int × Nat :=
  let pml4Entry := state.read (entryPtr pml4Table (pml4Index virt))
  if ¬ HasFlag pml4Entry psePresent then
    (eNomap, 0)
  else
    let pdptTable := (hhdmOffset + psePtr pml4Entry) % 2 ^ 64
    let pml3Entry := state.read (entryPtr pdptTable (pml3Index virt))
    if ¬ HasFlag pml3Entry psePresent then
      (eNomap, 0)
    else if HasFlag pml3Entry psePagesize then
      (0, (psePtr pml3Entry + (virt &&& 0x3fffffff)) % 2 ^ 32)
    else
      let pdtTable := (hhdmOffset + psePtr pml3Entry) % 2 ^ 64
      let pml2Entry := state.read (entryPtr pdtTable (pml2Index virt))
      if ¬ HasFlag pml2Entry psePresent then
        (eNomap, 0)
      else if HasFlag pml2Entry psePagesize then
        (0, (psePtr pml2Entry + (virt &&& 0x1fffff)) % 2 ^ 32)
      else
        let pageTable := (hhdmOffset + psePtr pml2Entry) % 2 ^ 64
        let pml1Entry := state.read (entryPtr pageTable (pml1Index virt))
        if ¬ HasFlag pml1Entry psePresent then
          (eNomap, 0)
        else
          (0, (psePtr pml1Entry + (virt &&& 0xfff)) % 2 ^ 32)

/-! ## Translation -/

/-- The page frame of a virtual page and what may be done with it. -/
structure Translation where
  frame : Nat
  writable : Bool
  user : Bool
deriving DecidableEq, Repr

/-- The rights granted by all entries on the way. -/
def Translation.along
    (frame : Nat)
    (entries : List Nat) :
    Translation where
  frame := frame
  writable := entries.all fun entry => decide (HasFlag entry pseWritable)
  user := entries.all fun entry => decide (HasFlag entry pseUser)

/-- The four-level walk from the table at the physical address `root`. -/
def walk
    (mem : Nat → Nat)
    (root virt : Nat) :
    Option Translation :=
  let pml4Entry := mem (entryPtr root (pml4Index virt))
  if ¬ HasFlag pml4Entry psePresent then
    none
  else
    let pml3Entry := mem (entryPtr (psePtr pml4Entry) (pml3Index virt))
    if ¬ HasFlag pml3Entry psePresent then
      none
    else if HasFlag pml3Entry psePagesize then
      some (.along
        (psePtr pml3Entry / 2 ^ 30 * 2 ^ 30 + virt % 2 ^ 30 / 2 ^ 12 * 2 ^ 12)
        [pml4Entry, pml3Entry])
    else
      let pml2Entry := mem (entryPtr (psePtr pml3Entry) (pml2Index virt))
      if ¬ HasFlag pml2Entry psePresent then
        none
      else if HasFlag pml2Entry psePagesize then
        some (.along
          (psePtr pml2Entry / 2 ^ 21 * 2 ^ 21 +
            virt % 2 ^ 21 / 2 ^ 12 * 2 ^ 12)
          [pml4Entry, pml3Entry, pml2Entry])
      else
        let pml1Entry := mem (entryPtr (psePtr pml2Entry) (pml1Index virt))
        if ¬ HasFlag pml1Entry psePresent then
          none
        else
          some (.along (psePtr pml1Entry)
            [pml4Entry, pml3Entry, pml2Entry, pml1Entry])

/-- The full-width translation of an address. -/
def translate
    (mem : Nat → Nat)
    (root virt : Nat) :
    Option Nat :=
  (walk mem root virt).map fun page => page.frame + virt % archPageSize

end ForsKernel.Memory.Paging
