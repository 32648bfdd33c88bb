import Mathlib.Logic.Function.Basic
import ForsKernel.Lib.CInt

/-!
# The buddy allocator of the kernel heap

`generic/heap` keeps a header at the start of every block, free or taken, and
threads the free blocks of each order on a doubly linked list through these
headers.  The model keeps the headers of all addresses and the allocator
record.  Blocks are at least 32 bytes long and aligned to their size, so the
24 header bytes of different blocks never share memory.

`none` stands for a fault: a `NULL` pointer is dereferenced, `order_lists` is
indexed outside its bounds, or a bit counting builtin is applied to zero.
-/

namespace ForsKernel.Buddy

open ForsKernel.Lib.CInt

/-- `BUDDY_NUM_LISTS`. -/
def buddyNumLists : Nat := 32

/-- `sizeof(buddy_block)`. -/
def sizeofBuddyBlock : Nat := 24

/-- `buddy_block`, the header of a block. -/
@[ext]
structure BuddyBlock where
  order : Nat
  taken : Nat
  next : Nat
  prev : Nat
deriving DecidableEq, Repr

/-- The fields of `buddy_allocator` with the headers in memory. -/
@[ext]
structure Heap where
  minOrder : Nat
  maxOrder : Nat
  size : Nat
  memoryStart : Nat
  orderLists : Nat → Nat
  block : Nat → BuddyBlock

namespace Heap

def order
    (heap : Heap)
    (bl : Nat) :
    Nat :=
  (heap.block bl).order

def taken
    (heap : Heap)
    (bl : Nat) :
    Nat :=
  (heap.block bl).taken

def next
    (heap : Heap)
    (bl : Nat) :
    Nat :=
  (heap.block bl).next

def prev
    (heap : Heap)
    (bl : Nat) :
    Nat :=
  (heap.block bl).prev

/-- `bl->order = value`. -/
def setOrder
    (heap : Heap)
    (bl value : Nat) :
    Heap :=
  { heap with
    block := Function.update heap.block bl
      { heap.block bl with order := value } }

/-- `bl->taken = value`. -/
def setTaken
    (heap : Heap)
    (bl value : Nat) :
    Heap :=
  { heap with
    block := Function.update heap.block bl
      { heap.block bl with taken := value } }

/-- `bl->next = value`. -/
def setNext
    (heap : Heap)
    (bl value : Nat) :
    Heap :=
  { heap with
    block := Function.update heap.block bl
      { heap.block bl with next := value } }

/-- `bl->prev = value`. -/
def setPrev
    (heap : Heap)
    (bl value : Nat) :
    Heap :=
  { heap with
    block := Function.update heap.block bl
      { heap.block bl with prev := value } }

/-- `order - alloc->min_order` is an index of `order_lists`. -/
def InRange
    (heap : Heap)
    (order : Nat) :
    Prop :=
  heap.minOrder ≤ order ∧ order - heap.minOrder < buddyNumLists

instance
    (heap : Heap)
    (order : Nat) :
    Decidable (heap.InRange order) :=
  inferInstanceAs (Decidable (_ ∧ _))

/-- Read `order_lists[order - min_order]`. -/
def getList
    (heap : Heap)
    (order : Nat) :
    Option Nat :=
  if heap.InRange order then
    some (heap.orderLists (order - heap.minOrder))
  else
    none

/-- `order_lists[order - min_order] = value`, on a valid index. -/
def withList
    (heap : Heap)
    (order value : Nat) :
    Heap :=
  { heap with
    orderLists :=
      Function.update heap.orderLists (order - heap.minOrder) value }

/-- Write `order_lists[order - min_order]`. -/
def setList
    (heap : Heap)
    (order value : Nat) :
    Option Heap :=
  if heap.InRange order then some (heap.withList order value) else none

end Heap

/-- `remove_block`. -/
def removeBlock
    (heap : Heap)
    (bl : Nat) :
    Option Heap :=
  if bl = 0 then
    none
  else
    let left := heap.prev bl
    let right := heap.next bl
    let heap := if left ≠ 0 then heap.setNext left right else heap
    let heap := if right ≠ 0 then heap.setPrev right left else heap
    let heap? :=
      if left = 0 then heap.setList (heap.order bl) right else some heap
    heap?.map fun heap => heap.setTaken bl 1

/-- `insert_block`. -/
def insertBlock
    (heap : Heap)
    (bl : Nat) :
    Option Heap :=
  if bl = 0 then
    none
  else
    (heap.getList (heap.order bl)).bind fun head =>
      let heap := ((heap.setPrev bl 0).setNext bl head).setTaken bl 0
      let heap := if head ≠ 0 then heap.setPrev head bl else heap
      heap.setList (heap.order bl) bl

/-- `buddy_init`; the heap argument holds the memory before the call. -/
def buddyInit
    (size ptr minOrder : Nat)
    (heap : Heap) :
    Option (Int × Heap) :=
  if size &&& (size + (2 ^ 64 - 1)) % 2 ^ 64 ≠ 0 then
    some (-1, heap)
  else if ptr = 0 then
    some (-1, heap)
  else
    (builtinCtz size).bind fun maxOrder =>
      let heap : Heap :=
        { minOrder := minOrder % 2 ^ 16
          maxOrder := maxOrder
          size := size
          memoryStart := ptr
          orderLists := fun _ => 0
          block := heap.block }
      (insertBlock (heap.setOrder ptr maxOrder) ptr).map fun heap =>
        (0, heap)

/-- `get_buddy`. -/
def getBuddy
    (heap : Heap)
    (bl : Nat) :
    Nat :=
  if heap.order bl = heap.maxOrder then
    0
  else
    bl ^^^ intShlOne (heap.order bl)

/-- `split`, with the returned right half. -/
def split
    (heap : Heap)
    (bl : Nat) :
    Option (Nat × Heap) :=
  if heap.order bl ≤ heap.minOrder then
    some (0, heap)
  else do
    let heap ← removeBlock heap bl
    let heap := heap.setOrder bl ((heap.order bl + 65535) % 2 ^ 16)
    let br := getBuddy heap bl
    if br = 0 then
      none
    else
      let heap := heap.setOrder br (heap.order bl)
      let heap ← insertBlock heap bl
      let heap ← insertBlock heap br
      some (br, heap)

/-- `merge`, with the returned left half. -/
def merge
    (heap : Heap)
    (bl : Nat) :
    Option (Nat × Heap) :=
  if heap.order bl = heap.maxOrder then
    some (0, heap)
  else
    let leftBuddy := bl &&& notWord (intShlOne (heap.order bl))
    if getBuddy heap leftBuddy = 0 then
      none
    else if heap.order leftBuddy ≠
        heap.order (getBuddy heap leftBuddy) then
      some (0, heap)
    else do
      let heap ← removeBlock heap leftBuddy
      let heap ← removeBlock heap (getBuddy heap leftBuddy)
      let heap :=
        heap.setOrder leftBuddy ((heap.order leftBuddy + 1) % 2 ^ 16)
      let heap ← insertBlock heap leftBuddy
      some (leftBuddy, heap)

/-- The order `balloc` computes for a request of `size` bytes. -/
def requestOrder
    (heap : Heap)
    (size : Nat) :
    Option Nat :=
  let size := (size + sizeofBuddyBlock) % 2 ^ 64
  let rounded? :=
    if size = 1 then
      some 1
    else
      (builtinClz ((size + (2 ^ 64 - 1)) % 2 ^ 64)).map fun zeros =>
        intShlOne (64 - zeros)
  rounded?.bind fun size =>
    builtinCtz
      (if size < uintShlOne heap.minOrder then
        uintShlOne heap.minOrder
      else
        size)

/--
The loop of `balloc` over the larger orders, with `count` of them left.  It
yields the first block found and its order, or `NULL`.
-/
def findLarger (heap : Heap) : (count n : Nat) → Option (Nat × Nat)
  | 0, n => some (0, n)
  | count + 1, n =>
      (heap.getList n).bind fun retBlock =>
        if retBlock ≠ 0 then some (retBlock, n)
        else findLarger heap count (n + 1)

/-- The inner loop of `balloc`, which splits one block `splits` times. -/
def splitLoop : (splits : Nat) → Heap → Nat → Option Heap
  | 0, heap, _ => some heap
  | splits + 1, heap, retBlock =>
      (split heap retBlock).bind fun result =>
        splitLoop splits result.2 retBlock

/-- `balloc`. -/
def balloc
    (size : Nat)
    (heap : Heap) :
    Option (Nat × Heap) :=
  if heap.size < size then
    some (0, heap)
  else if size = 0 then
    some (0, heap)
  else do
    let order ← requestOrder heap size
    let head ← heap.getList order
    if head ≠ 0 then
      let heap ← removeBlock heap head
      let heap ← removeBlock heap head
      some (head + sizeofBuddyBlock, heap)
    else
      let found ← findLarger heap (heap.maxOrder - order) (order + 1)
      let retBlock := found.1
      let heap ←
        if retBlock ≠ 0 then splitLoop (found.2 - order) heap retBlock
        else some heap
      let heap ← removeBlock heap retBlock
      some (retBlock + sizeofBuddyBlock, heap)

/--
Each pass of the merging loop either clears a bit of a 64-bit address or
counts up a 16-bit order, so it is left after fewer passes than this.
-/
def mergeFuel : Nat := 2 ^ 23

/-- The merging loop of `bfree`. -/
def mergeLoop : Nat → Heap → Nat → Option Heap
  | 0, _, _ => none
  | fuel + 1, heap, bl =>
      if heap.order bl = heap.maxOrder then
        some heap
      else if getBuddy heap bl = 0 then
        none
      else if heap.taken (getBuddy heap bl) ≠ 0 then
        some heap
      else
        (merge heap bl).bind fun result =>
          if result.1 = 0 then some result.2
          else mergeLoop fuel result.2 result.1

/-- `HEADER`. -/
def header (ptr : Nat) : Nat :=
  (ptr + (2 ^ 64 - sizeofBuddyBlock)) % 2 ^ 64

/-- `bfree`. -/
def bfree
    (ptr : Nat)
    (heap : Heap) :
    Option Heap :=
  if ptr = 0 then
    some heap
  else
    let bl := header ptr
    let buddy := getBuddy heap bl
    if buddy = 0 then
      some heap
    else if heap.order buddy ≠ heap.order bl ∨ heap.taken buddy ≠ 0 then
      insertBlock heap bl
    else
      mergeLoop mergeFuel heap bl

end ForsKernel.Buddy
