import Mathlib.Data.Finset.Sort
import Mathlib.Data.UInt
import ForsKernel.Lib.LinkedList

/-!
# The physical frame allocator

`arch/x64/memory/phys.c` keeps the free page frames in one doubly linked list
ordered by address, with the two link words of a `frame_marker` stored in the
frame itself.  The model keeps that representation: a pool is the contents of
all possible markers, the head pointer `frame_list` and the counter
`free_frames`.  Pointers are addresses and `NULL` is address zero.

The loops only read links while they run.  A traversal of 64-bit addresses
which has not ended after `2 ^ 64` cells is on a cycle, so that bound is the
fuel of every loop and `none` stands for a call which never returns (or ends
in `KPANIC`).  The unused helper `update_cons` has no effect and is left out.
-/

namespace ForsKernel.Memory.Frames

open ForsKernel.Lib.LinkedList

/-- `ARCH_PAGE_SIZE`. -/
def archPageSize : Nat := 4096

/-- `struct frame_marker`, kept in the first bytes of a free frame. -/
structure FrameMarker where
  next : Nat
  prev : Nat
deriving DecidableEq, Repr

/-- The markers of all frames with the file's two static variables. -/
structure FramePool where
  marker : Nat → FrameMarker
  frameList : Nat
  freeFrames : Nat

namespace FramePool

def next
    (pool : FramePool)
    (frame : Nat) :
    Nat :=
  (pool.marker frame).next

def prev
    (pool : FramePool)
    (frame : Nat) :
    Nat :=
  (pool.marker frame).prev

/-- `frame->next = value`. -/
def setNext
    (pool : FramePool)
    (frame value : Nat) :
    FramePool :=
  { pool with
    marker := Function.update pool.marker frame
      { pool.marker frame with next := value } }

/-- `frame->prev = value`. -/
def setPrev
    (pool : FramePool)
    (frame value : Nat) :
    FramePool :=
  { pool with
    marker := Function.update pool.marker frame
      { pool.marker frame with prev := value } }

/-- `frame_list = value`. -/
def setFrameList
    (pool : FramePool)
    (value : Nat) :
    FramePool :=
  { pool with frameList := value }

/-- `free_frames += delta` on an `unsigned long`. -/
def addFree
    (pool : FramePool)
    (delta : Nat) :
    FramePool :=
  { pool with freeFrames := (pool.freeFrames + delta) % 2 ^ 64 }

/-- `free_frames -= delta` on an `unsigned long`, for a 32-bit `delta`. -/
def subFree
    (pool : FramePool)
    (delta : Nat) :
    FramePool :=
  { pool with freeFrames := (pool.freeFrames + (2 ^ 64 - delta)) % 2 ^ 64 }

/-! The effect of each assignment on each link. -/

@[simp]
theorem next_setNext
    (pool : FramePool)
    (frame value other : Nat) :
    (pool.setNext frame value).next other =
      if other = frame then value else pool.next other := by
  by_cases same : other = frame <;> simp [setNext, next, same]

@[simp]
theorem prev_setNext
    (pool : FramePool)
    (frame value other : Nat) :
    (pool.setNext frame value).prev other = pool.prev other := by
  by_cases same : other = frame <;> simp [setNext, prev, same]

@[simp]
theorem next_setPrev
    (pool : FramePool)
    (frame value other : Nat) :
    (pool.setPrev frame value).next other = pool.next other := by
  by_cases same : other = frame <;> simp [setPrev, next, same]

@[simp]
theorem prev_setPrev
    (pool : FramePool)
    (frame value other : Nat) :
    (pool.setPrev frame value).prev other =
      if other = frame then value else pool.prev other := by
  by_cases same : other = frame <;> simp [setPrev, prev, same]

@[simp]
theorem frameList_setNext
    (pool : FramePool)
    (frame value : Nat) :
    (pool.setNext frame value).frameList = pool.frameList :=
  rfl

@[simp]
theorem frameList_setPrev
    (pool : FramePool)
    (frame value : Nat) :
    (pool.setPrev frame value).frameList = pool.frameList :=
  rfl

@[simp]
theorem freeFrames_setNext
    (pool : FramePool)
    (frame value : Nat) :
    (pool.setNext frame value).freeFrames = pool.freeFrames :=
  rfl

@[simp]
theorem freeFrames_setPrev
    (pool : FramePool)
    (frame value : Nat) :
    (pool.setPrev frame value).freeFrames = pool.freeFrames :=
  rfl

@[simp]
theorem next_setFrameList
    (pool : FramePool)
    (value : Nat) :
    (pool.setFrameList value).next = pool.next :=
  rfl

@[simp]
theorem prev_setFrameList
    (pool : FramePool)
    (value : Nat) :
    (pool.setFrameList value).prev = pool.prev :=
  rfl

@[simp]
theorem frameList_setFrameList
    (pool : FramePool)
    (value : Nat) :
    (pool.setFrameList value).frameList = value :=
  rfl

@[simp]
theorem freeFrames_setFrameList
    (pool : FramePool)
    (value : Nat) :
    (pool.setFrameList value).freeFrames = pool.freeFrames :=
  rfl

@[simp]
theorem next_addFree
    (pool : FramePool)
    (delta : Nat) :
    (pool.addFree delta).next = pool.next := by
  cases pool
  rfl

@[simp]
theorem prev_addFree
    (pool : FramePool)
    (delta : Nat) :
    (pool.addFree delta).prev = pool.prev := by
  cases pool
  rfl

@[simp]
theorem frameList_addFree
    (pool : FramePool)
    (delta : Nat) :
    (pool.addFree delta).frameList = pool.frameList := by
  cases pool
  rfl

@[simp]
theorem next_subFree
    (pool : FramePool)
    (delta : Nat) :
    (pool.subFree delta).next = pool.next := by
  cases pool
  rfl

@[simp]
theorem prev_subFree
    (pool : FramePool)
    (delta : Nat) :
    (pool.subFree delta).prev = pool.prev := by
  cases pool
  rfl

@[simp]
theorem frameList_subFree
    (pool : FramePool)
    (delta : Nat) :
    (pool.subFree delta).frameList = pool.frameList := by
  cases pool
  rfl

/-- Decrementing the counter of a pool that counts at least `delta` frames. -/
theorem freeFrames_subFree
    (pool : FramePool)
    {delta : Nat}
    (enough : delta ≤ pool.freeFrames)
    (fits : pool.freeFrames < 2 ^ 64) :
    (pool.subFree delta).freeFrames = pool.freeFrames - delta := by
  simp only [subFree]
  omega

end FramePool

/-- More cells than there are 64-bit addresses are never visited. -/
def traversalFuel : Nat := 2 ^ 64

/-- The branch of `frame_insert` which puts the frame in front of `curr`. -/
def insertBefore
    (pool : FramePool)
    (toIns prev curr : Nat) :
    FramePool :=
  let pool := (pool.setNext toIns curr).setPrev curr toIns
  let pool :=
    if prev ≠ 0 then
      (pool.setPrev toIns prev).setNext prev toIns
    else
      (pool.setPrev toIns 0).setFrameList toIns
  pool.addFree 1

/-- The branch of `frame_insert` which puts the frame behind the last one. -/
def insertLast
    (pool : FramePool)
    (toIns curr : Nat) :
    FramePool :=
  (((pool.setNext curr toIns).setNext toIns 0).setPrev toIns curr).addFree 1

/-- The loop of `frame_insert`, from `curr` on with `prev` just behind it. -/
def frameInsertLoop :
    Nat → FramePool → (toIns prev curr : Nat) → Option FramePool
  | 0, _, _, _, _ => none
  | fuel + 1, pool, toIns, prev, curr =>
      if curr = 0 then
        none
      else if toIns < curr then
        some (insertBefore pool toIns prev curr)
      else if pool.next curr = 0 then
        some (insertLast pool toIns curr)
      else
        frameInsertLoop fuel pool toIns curr (pool.next curr)

/-- `frame_insert`: put a frame into the list, ordered by address. -/
def frameInsert
    (pool : FramePool)
    (framePtr : Nat) :
    Option FramePool :=
  if pool.frameList = 0 then
    some ((((pool.setNext framePtr 0).setPrev framePtr 0).setFrameList
      framePtr).addFree 1)
  else
    frameInsertLoop traversalFuel pool framePtr 0 pool.frameList

/-- `pfalloc_one`. -/
def pfallocOne (pool : FramePool) : Nat × FramePool :=
  if pool.frameList = 0 then
    (0, pool)
  else
    let ret := pool.frameList
    let pool :=
      if pool.next pool.frameList ≠ 0 then
        pool.setPrev (pool.next pool.frameList) 0
      else
        pool
    (ret, (pool.setFrameList (pool.next pool.frameList)).subFree 1)

/--
The search loop of `pfalloc_consecutive`.  The result is `set_start`, `curr`
and `so_far` as they stand when the loop is left.
-/
def searchLoop :
    Nat → FramePool → UInt32 → (setStart curr : Nat) → UInt32 →
      Option (Nat × Nat × UInt32)
  | 0, _, _, _, _, _ => none
  | fuel + 1, pool, n, setStart, curr, soFar =>
      if curr = 0 then
        some (setStart, curr, soFar)
      else if curr = (pool.prev curr + archPageSize) % 2 ^ 64 then
        if soFar + 1 = n then
          some (setStart, curr, soFar + 1)
        else
          searchLoop fuel pool n setStart (pool.next curr) (soFar + 1)
      else
        searchLoop fuel pool n curr (pool.next curr) 1

/-- Cut the frames from `set_start` to `curr` out of the list. -/
def cutRun
    (pool : FramePool)
    (n : UInt32)
    (setStart curr : Nat) :
    FramePool :=
  let pool :=
    if pool.prev setStart ≠ 0 then
      pool.setNext (pool.prev setStart) (pool.next curr)
    else
      pool.setFrameList (pool.next curr)
  let pool :=
    if pool.next curr ≠ 0 then
      pool.setPrev (pool.next curr) (pool.prev setStart)
    else
      pool
  pool.subFree n.toNat

/-- `pfalloc_consecutive`. -/
def pfallocConsecutive
    (pool : FramePool)
    (n : UInt32) :
    Option (Nat × FramePool) :=
  if pool.frameList = 0 then
    some (0, pool)
  else if n = 1 then
    some (pfallocOne pool)
  else
    match searchLoop traversalFuel pool n pool.frameList
        (pool.next pool.frameList) 1 with
    | none => none
    | some (setStart, curr, soFar) =>
        if soFar = n then
          some (setStart, cutRun pool n setStart curr)
        else
          some (0, pool)

/-- `pffree_one`. -/
def pffreeOne
    (pool : FramePool)
    (pf : Nat) :
    Option FramePool :=
  frameInsert pool pf

end ForsKernel.Memory.Frames
