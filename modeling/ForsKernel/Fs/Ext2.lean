import ForsKernel.Fs.Vfs
import ForsKernel.Store.BufferCache

/-!
# The ext2 file system

`generic/fs/ext2.c`, which reads from a block store through the buffer cache.
Most of its operations are not written yet and return zero; the one which reads
the disk is `ext2_node_from_id`.

Undefined behaviour ends an action with a `Fault`.  The cache hands out
pointers, and what is read through one is what it holds at that time.
-/

namespace ForsKernel.Fs.Ext2

open ForsKernel.BufferCache

/-! ## Segments -/

/--
The bytes of a segment, by their distance from its start.  Behind its end there
is whatever follows it in memory, modulo the size of the address space.
-/
abbrev Segment := Nat → UInt8

/-- A value converted to `size_t`. -/
def size (value : Int) : Nat :=
  (value % 2 ^ 64).toNat

def Segment.byte
    (segment : Segment)
    (offset : Nat) :
    Nat :=
  (segment (offset % 2 ^ 64)).toNat

/-- A field of two bytes. -/
def Segment.u16
    (segment : Segment)
    (offset : Nat) :
    Nat :=
  segment.byte offset + 2 ^ 8 * segment.byte (offset + 1)

/-- A field of four bytes. -/
def Segment.u32
    (segment : Segment)
    (offset : Nat) :
    Nat :=
  segment.u16 offset + 2 ^ 16 * segment.u16 (offset + 2)

/-! Fields of `ext2_superblock_t`, from the beginning of a segment. -/

def blkSz (sb : Segment) : Nat := sb.u32 24

def inoPerGroup (sb : Segment) : Nat := sb.u32 40

def szInoStruct (sb : Segment) : Nat := sb.u16 88

/-- The size of `ext2_blkgroup_descriptor_t`. -/
def szDescriptor : Nat := 32

/-- The field of the descriptor with this index. -/
def inodeTableAddr
    (table : Segment)
    (blkGroup : Nat) :
    Nat :=
  table.u32 (blkGroup * szDescriptor + 8)

/-- A field of the `ext2_inode_t` at an offset. -/
def uid
    (segment : Segment)
    (offset : Nat) :
    Nat :=
  segment.u16 (offset + 2)

/-! ## Actions -/

inductive Fault where
  /-- Something is read through `NULL`. -/
  | null
  /-- Something is read through a pointer which was not set. -/
  | unset
  /-- A division by zero, or a shift by more than the width of the type. -/
  | arithmetic
  /-- The cache does not come back. -/
  | stuck
deriving DecidableEq

/--
What the file system works with: the cache, the replies to the calls which it
is going to make, and the segment sizes of the store types.
-/
structure Disk where
  cache : Cache Segment
  replies : Nat → Replies Segment
  segSz : Nat → Nat

abbrev Action := StateT Disk (Except Fault)

/-- A sequence of actions succeeds if both of its parts do. -/
theorem Action.bind_eq_ok
    {α β : Type}
    {action : Action α}
    {next : α → Action β}
    {disk disk' : Disk}
    {b : β}
    (returned : (action >>= next) disk = .ok (b, disk')) :
    ∃ a middle, action disk = .ok (a, middle) ∧
      next a middle = .ok (b, disk') := by
  have split : (action disk >>= fun result => next result.1 result.2) =
      .ok (b, disk') := returned
  cases first : action disk with
  | error fault =>
      rw [first] at split
      cases split
  | ok result =>
      rw [first] at split
      exact ⟨result.1, result.2, rfl, split⟩

/-- The return value of `bc_get`, and the pointer if it was set. -/
def bcGet
    (dev : Int)
    (addr : Nat) :
    Action (Int × Option Nat) := fun disk =>
  match BufferCache.bcGet (disk.replies 0) dev addr disk.cache with
  | none => .error .stuck
  | some (ret, buf, cache) =>
      .ok ((ret, buf),
        { disk with cache := cache, replies := fun n => disk.replies (n + 1) })

/-- What is behind a pointer now. -/
def load (ptr : Nat) : Action Segment := do
  return (← get).cache.buffer ptr

/-- `st->type->seg_sz`. -/
def storeSegSz (store : Fin maxStores) : Action Nat := do
  match ((← get).cache.stores store).type with
  | none => throw .null
  | some type => return (← get).segSz type

def div (dividend divisor : Nat) : Except Fault Nat :=
  if divisor = 0 then .error .arithmetic else .ok (dividend / divisor)

/--
`1024 << blk_sz`, which is an `int`.  From 21 on it overflows, which C leaves
undefined and which is taken to wrap here.
-/
def blkSize (blkSz : Nat) : Except Fault Nat :=
  if 32 ≤ blkSz then .error .arithmetic
  else .ok (size (((1024 : Int) * 2 ^ blkSz).bmod (2 ^ 32)))

def byte2blk (blkSz byte : Nat) : Except Fault Nat := do
  div byte (← blkSize blkSz)

def blk2byte (blkSz blk : Nat) : Except Fault Nat := do
  return size (blk * (← blkSize blkSz))

/-- The pointer to the superblock, or `NULL`. -/
def getSb (dev : Int) : Action (Option Nat) := do
  match getStoreById dev with
  | none => return none
  | some store =>
      let lba ← div 1024 (← storeSegSz store)
      let (ret, sb) ← bcGet dev lba
      if ret = 0 then return none
      return sb

def blk2lba
    (dev : Int)
    (blk : Nat) :
    Action Nat := do
  match getStoreById dev with
  | none => return size (-1)
  | some store =>
      match ← getSb dev with
      | none => throw .null
      | some sb =>
          let byte ← blk2byte (blkSz (← load sb)) blk
          div byte (← storeSegSz store)

/-! ## Inodes -/

/--
The part of `ext2_node_from_id` before the inode is read: the pointer to the
segment of the inode, as far as it was set, and the offset in it.  The return
value of the last `bc_get` is not looked at.
-/
def findInode (dev id : Int) : Action (Option (Option Nat × Nat)) := do
  match ← getSb dev with
  | none => throw .null
  | some sb =>
      let sb ← load sb
      if inoPerGroup sb = 0 then throw .arithmetic
      let blkGroup :=
        size (((id - 1).bmod (2 ^ 64)).tdiv (inoPerGroup sb))
      let indInGrp :=
        size (((id - 1).bmod (2 ^ 64)).tmod (inoPerGroup sb))
      let tableSeg ← blk2lba dev (size (1 + (← byte2blk (blkSz sb) 1024)))
      let (ret, table) ← bcGet dev tableSeg
      if ret = 0 then return none
      match table with
      | none => throw .unset
      | some table =>
          let inodeTableFirstBlk := inodeTableAddr (← load table) blkGroup
          let inodeByte := size (indInGrp * szInoStruct sb)
          let blkSize ← blkSize (blkSz sb)
          let blk := size (inodeTableFirstBlk + (← div inodeByte blkSize))
          let startByte := size (blk * blkSize + inodeByte % blkSize)
          let lba ← blk2lba dev blk
          match getStoreById dev with
          | none => throw .null
          | some store =>
              let byteInSeg := size (startByte - lba * (← storeSegSz store))
              let (_, inoTableSeg) ← bcGet dev lba
              return some (inoTableSeg, byteInSeg)

/-- The owner and the identifier are the only fields which are set here. -/
def nodeFromId
    (dev id : Int)
    (node : FsNode) :
    Action (Int × FsNode) := do
  match ← findInode dev id with
  | none => return (-1, node)
  | some (none, _) => throw .unset
  | some (some inoTableSeg, byteInSeg) =>
      let ino ← load inoTableSeg
      return (0, { node with user := uid ino byteInSeg, internalId := id })

/--
`ext2_type`, on a device.  The state of the disk is lost when the kernel
faults, and no call succeeds from then on.
-/
def ext2Type (dev : Int) : FsOps (Option Disk) where
  retrieveChild := fun parent _ _ disk => ⟨0, parent, disk⟩
  nodeFromId := fun id node disk =>
    match disk.map (nodeFromId dev id node) with
    | some (.ok ((ret, filled), disk)) => ⟨ret, filled, some disk⟩
    | _ => ⟨-1, node, none⟩
  fOpen := fun node disk => ⟨0, node, disk⟩
  fClose := fun file node disk => ⟨0, file.cursor, node, disk⟩
  fSeek := fun file node _ _ disk => ⟨0, file.cursor, node, disk⟩
  fRead := fun file node _ disk => (⟨0, file.cursor, node, disk⟩, [])
  fWrite := fun file node _ _ disk => ⟨0, file.cursor, node, disk⟩

end ForsKernel.Fs.Ext2
