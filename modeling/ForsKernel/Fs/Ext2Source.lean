import ForsKernel.Fs.Ext2

/-!
# The ext2 file system over a source of segments

The functions of `ext2.c` which read the disk get their segments from `bc_get`
and know nothing else of the buffer cache.  Here they are stated over any such
source, and in the pieces in which they fetch: the superblock, the table of
the block groups, and the segment of the inode.
-/

namespace ForsKernel.Fs.Ext2

open ForsKernel.BufferCache

/-! ## Fields and numbers -/

def nIno (sb : Segment) : Nat := sb.u32 0

def versMajor (sb : Segment) : Nat := sb.u32 76

/-- `(id - 1) / sb->ino_per_group`. -/
def blkGroup
    (sb : Segment)
    (id : Int) :
    Nat :=
  size (((id - 1).bmod (2 ^ 64)).tdiv (inoPerGroup sb))

/-- `(id - 1) % sb->ino_per_group`. -/
def indInGrp
    (sb : Segment)
    (id : Int) :
    Nat :=
  size (((id - 1).bmod (2 ^ 64)).tmod (inoPerGroup sb))

inductive FsType where
  | testfs
  | ext2
deriving DecidableEq

/-- `mount_t`. -/
structure Mount where
  dev : Int
  fs : Option FsType
  rootFsnode : Int
deriving DecidableEq

/-- The block group table: the superblock, the segment, and its buffer. -/
structure Table where
  sb : Segment
  seg : Nat
  ptr : Nat

/-! ## The functions -/

/-- Where the file system gets its segments from. -/
structure Source (σ : Type) where
  bcGet : Int → Nat → StateT σ (Except Fault) (Int × Option Nat)
  load : Nat → StateT σ (Except Fault) Segment
  storeSegSz : Fin maxStores → StateT σ (Except Fault) Nat

namespace Source

variable
  {σ : Type}
  (source : Source σ)

/-- The pointer to the superblock, or `NULL`. -/
def getSb (dev : Int) : StateT σ (Except Fault) (Option Nat) := do
  match getStoreById dev with
  | none => return none
  | some store =>
      let lba ← div 1024 (← source.storeSegSz store)
      let (ret, sb) ← source.bcGet dev lba
      if ret = 0 then return none
      return sb

def blk2lba
    (dev : Int)
    (blk : Nat) :
    StateT σ (Except Fault) Nat := do
  match getStoreById dev with
  | none => return size (-1)
  | some store =>
      match ← source.getSb dev with
      | none => throw .null
      | some sb =>
          let byte ← blk2byte (blkSz (← source.load sb)) blk
          div byte (← source.storeSegSz store)

/-- The version is the only thing about the superblock which is checked. -/
def initmnt (mnt : Mount) : StateT σ (Except Fault) (Int × Mount) := do
  match getStoreById mnt.dev with
  | none => return (-1, mnt)
  | some _ =>
      match ← source.getSb mnt.dev with
      | none => throw .null
      | some sb =>
          let sb ← source.load sb
          if versMajor sb < 1 then return (-1, mnt)
          return (0, { mnt with fs := some .ext2, rootFsnode := 2 })

/-- The beginning of `ext2_node_from_id`, up to the block group table. -/
def findTable (dev : Int) : StateT σ (Except Fault) (Option Table) := do
  match ← source.getSb dev with
  | none => throw .null
  | some sb =>
      let sb ← source.load sb
      if inoPerGroup sb = 0 then throw .arithmetic
      let seg ← source.blk2lba dev (size (1 + (← byte2blk (blkSz sb) 1024)))
      let (ret, table) ← source.bcGet dev seg
      if ret = 0 then return none
      match table with
      | none => throw .unset
      | some ptr => return some ⟨sb, seg, ptr⟩

/-- The segment of the inode and the offset in it. -/
def locateInode
    (dev id : Int)
    (table : Table) :
    StateT σ (Except Fault) (Nat × Nat) := do
  let inodeTableFirstBlk :=
    inodeTableAddr (← source.load table.ptr) (blkGroup table.sb id)
  let inodeByte := size (indInGrp table.sb id * szInoStruct table.sb)
  let blkSize ← blkSize (blkSz table.sb)
  let blk := size (inodeTableFirstBlk + (← div inodeByte blkSize))
  let startByte := size (blk * blkSize + inodeByte % blkSize)
  let lba ← source.blk2lba dev blk
  match getStoreById dev with
  | none => throw .null
  | some store =>
      return (lba, size (startByte - lba * (← source.storeSegSz store)))

/-- The pointer to the segment of the inode, as far as it was set. -/
def findInode (dev id : Int) :
    StateT σ (Except Fault) (Option (Option Nat × Nat)) := do
  match ← source.findTable dev with
  | none => return none
  | some table =>
      let (lba, byteInSeg) ← source.locateInode dev id table
      let (_, inoTableSeg) ← source.bcGet dev lba
      return some (inoTableSeg, byteInSeg)

def nodeFromId
    (dev id : Int)
    (node : FsNode) :
    StateT σ (Except Fault) (Int × FsNode) := do
  match ← source.findInode dev id with
  | none => return (-1, node)
  | some (none, _) => throw .unset
  | some (some inoTableSeg, byteInSeg) =>
      let ino ← source.load inoTableSeg
      return (0, { node with user := uid ino byteInSeg, internalId := id })

end Source

/-! ## The buffer cache as a source -/

/-- Segments come from the buffer cache. -/
def cached : Source Disk where
  bcGet := Ext2.bcGet
  load := Ext2.load
  storeSegSz := Ext2.storeSegSz

theorem cached_getSb (dev : Int) : cached.getSb dev = Ext2.getSb dev :=
  rfl

theorem cached_findInode (dev id : Int) :
    cached.findInode dev id = Ext2.findInode dev id := by
  rw [Source.findInode, Source.findTable, Ext2.findInode]
  simp only [bind_assoc, cached_getSb]
  apply bind_congr
  intro sb
  cases sb with
  | none => rfl
  | some sb =>
      simp only [bind_assoc]
      apply bind_congr
      intro sb
      by_cases empty : inoPerGroup sb = 0
      · rw [if_pos empty, if_pos empty]
        rfl
      · rw [if_neg empty, if_neg empty]
        simp only [bind_assoc]
        apply bind_congr
        intro blk
        apply bind_congr
        intro tableSeg
        apply bind_congr
        rintro ⟨ret, table⟩
        by_cases refused : ret = 0
        · simp only [refused, if_true, pure_bind]
        · simp only [refused, if_false]
          cases table with
          | none => rfl
          | some table =>
              simp only [pure_bind, Source.locateInode, bind_assoc]
              apply bind_congr
              intro segment
              apply bind_congr
              intro blkSize
              apply bind_congr
              intro blkInTable
              apply bind_congr
              intro lba
              cases getStoreById dev with
              | none => rfl
              | some store => simp only [bind_assoc, pure_bind]; rfl

/-- The functions over the buffer cache are those of the file system. -/
theorem cached_nodeFromId
    (dev id : Int)
    (node : FsNode) :
    cached.nodeFromId dev id node = Ext2.nodeFromId dev id node := by
  rw [Source.nodeFromId, cached_findInode]
  rfl

/-! ## Running actions -/

section

variable
  {σ α β : Type}
  {state state' : σ}
  {fault : Fault}

theorem run_bind_ok
    {action : StateT σ (Except Fault) α}
    {next : α → StateT σ (Except Fault) β}
    {value : α}
    (returned : action state = .ok (value, state')) :
    (action >>= next) state = next value state' := by
  show (action state >>= fun result => next result.1 result.2) = _
  rw [returned]
  rfl

theorem run_bind_error
    {action : StateT σ (Except Fault) α}
    {next : α → StateT σ (Except Fault) β}
    (faulted : action state = .error fault) :
    (action >>= next) state = .error fault := by
  show (action state >>= fun result => next result.1 result.2) = _
  rw [faulted]
  rfl

theorem run_lift_ok
    {value : α}
    {result : Except Fault α}
    (returned : result = .ok value) :
    (liftM result : StateT σ (Except Fault) α) state =
      .ok (value, state) := by
  rw [returned]
  rfl

theorem run_lift_error
    {result : Except Fault α}
    (faulted : result = .error fault) :
    (liftM result : StateT σ (Except Fault) α) state = .error fault := by
  rw [faulted]
  rfl

end

/-! ## Block sizes -/

/-- The value of `1024 << blk_sz`, where the shift is defined. -/
def blkBytes (blkSz : Nat) : Nat :=
  size (((1024 : Int) * 2 ^ blkSz).bmod (2 ^ 32))

/-- Divisions by this superblock's numbers and shifts by them are defined. -/
def Computable (sb : Segment) : Prop :=
  inoPerGroup sb ≠ 0 ∧ blkSz sb < 22

instance (sb : Segment) : Decidable (Computable sb) :=
  inferInstanceAs (Decidable (_ ∧ _))

theorem blkSize_eq
    {blkSz : Nat}
    (small : blkSz < 32) :
    blkSize blkSz = .ok (blkBytes blkSz) :=
  if_neg (by omega)

/-- The bits of `1024` are shifted out of the word. -/
theorem blkBytes_eq_zero_iff
    {blkSz : Nat}
    (small : blkSz < 32) :
    blkBytes blkSz = 0 ↔ 22 ≤ blkSz := by
  have all : ∀ exponent < 32, blkBytes exponent = 0 ↔ 22 ≤ exponent := by
    decide +kernel
  exact all blkSz small

theorem blkBytes_ne_zero
    {blkSz : Nat}
    (small : blkSz < 22) :
    blkBytes blkSz ≠ 0 := by
  rw [Ne, blkBytes_eq_zero_iff (by omega)]
  omega

theorem blkBytes_eq
    {blkSz : Nat}
    (small : blkSz ≤ 20) :
    blkBytes blkSz = 1024 * 2 ^ blkSz := by
  have all : ∀ exponent ≤ 20, blkBytes exponent = 1024 * 2 ^ exponent := by
    decide +kernel
  exact all blkSz small

theorem div_eq
    {divisor : Nat}
    (nonzero : divisor ≠ 0)
    (dividend : Nat) :
    div dividend divisor = .ok (dividend / divisor) :=
  if_neg nonzero

theorem div_arithmetic (dividend : Nat) :
    div dividend 0 = .error .arithmetic :=
  rfl

theorem byte2blk_of_blkSize
    {blkSz bytes : Nat}
    (shifted : blkSize blkSz = .ok bytes)
    (byte : Nat) :
    byte2blk blkSz byte = div byte bytes := by
  rw [byte2blk, shifted]
  rfl

theorem byte2blk_eq
    {blkSz : Nat}
    (small : blkSz < 22)
    (byte : Nat) :
    byte2blk blkSz byte = .ok (byte / blkBytes blkSz) := by
  rw [byte2blk_of_blkSize (blkSize_eq (by omega))]
  exact div_eq (blkBytes_ne_zero small) _

theorem byte2blk_arithmetic
    {blkSz : Nat}
    (large : 22 ≤ blkSz)
    (byte : Nat) :
    byte2blk blkSz byte = .error .arithmetic := by
  by_cases wide : 32 ≤ blkSz
  · rw [byte2blk, blkSize, if_pos wide]
    rfl
  · have zero := (blkBytes_eq_zero_iff (by omega)).mpr large
    rw [byte2blk_of_blkSize (blkSize_eq (by omega)), zero]
    exact div_arithmetic byte

/-! ## What the fetches lead to -/

namespace Source

variable
  {σ : Type}
  {source : Source σ}
  {dev id : Int}
  {store : Fin maxStores}
  {state fetched after : σ}
  {segSz ptr : Nat}
  {sb : Segment}
  {fault : Fault}

theorem getSb_missing (missing : getStoreById dev = none) :
    source.getSb dev state = .ok (none, state) := by
  rw [getSb, missing]
  rfl

theorem getSb_eq
    {ret : Int}
    {buf : Option Nat}
    (slot : getStoreById dev = some store)
    (size : source.storeSegSz store state = .ok (segSz, state))
    (nonzero : segSz ≠ 0)
    (returned : source.bcGet dev (1024 / segSz) state =
      .ok ((ret, buf), fetched)) :
    source.getSb dev state =
      .ok (if ret = 0 then none else buf, fetched) := by
  rw [getSb, slot]
  simp only []
  rw [run_bind_ok size, run_bind_ok (run_lift_ok (div_eq nonzero 1024)),
    run_bind_ok returned]
  by_cases refused : ret = 0
  · simp only [refused, if_true]
    rfl
  · simp only [refused, if_false]
    rfl

/-- The type of a store which was not registered is a null pointer. -/
theorem getSb_error
    (slot : getStoreById dev = some store)
    (faulted : source.storeSegSz store state = .error fault) :
    source.getSb dev state = .error fault := by
  rw [getSb, slot]
  exact run_bind_error faulted

theorem blk2lba_null
    (slot : getStoreById dev = some store)
    {blk : Nat}
    (null : source.getSb dev state = .ok (none, fetched)) :
    source.blk2lba dev blk state = .error .null := by
  rw [blk2lba, slot]
  exact run_bind_ok null

theorem blk2lba_arithmetic
    (slot : getStoreById dev = some store)
    {blk : Nat}
    (found : source.getSb dev state = .ok (some ptr, fetched))
    (loaded : source.load ptr fetched = .ok (sb, fetched))
    (large : 32 ≤ blkSz sb) :
    source.blk2lba dev blk state = .error .arithmetic := by
  have shift : blk2byte (blkSz sb) blk = .error .arithmetic := by
    rw [blk2byte, blkSize, if_pos large]
    rfl
  rw [blk2lba, slot]
  simp only []
  rw [run_bind_ok found]
  simp only []
  rw [run_bind_ok loaded]
  exact run_bind_error (run_lift_error shift)

/-- The segment which a block starts in. -/
def segOfBlk
    (sb : Segment)
    (segSz blk : Nat) :
    Nat :=
  Ext2.size (blk * blkBytes (blkSz sb)) / segSz

theorem blk2lba_eq
    (slot : getStoreById dev = some store)
    {blk : Nat}
    (found : source.getSb dev state = .ok (some ptr, fetched))
    (loaded : source.load ptr fetched = .ok (sb, fetched))
    (small : blkSz sb < 32)
    (size : source.storeSegSz store fetched = .ok (segSz, fetched))
    (nonzero : segSz ≠ 0) :
    source.blk2lba dev blk state =
      .ok (segOfBlk sb segSz blk, fetched) := by
  have byte : blk2byte (blkSz sb) blk =
      .ok (Ext2.size (blk * blkBytes (blkSz sb))) := by
    rw [blk2byte, blkSize_eq small]
    rfl
  rw [blk2lba, slot]
  simp only []
  rw [run_bind_ok found]
  simp only []
  rw [run_bind_ok loaded, run_bind_ok (run_lift_ok byte),
    run_bind_ok size]
  exact run_lift_ok (div_eq nonzero _)

/-- The block behind the superblock. -/
def tableBlk (sb : Segment) : Nat :=
  Ext2.size (1 + (1024 / blkBytes (blkSz sb) : Nat))

theorem findTable_null (null : source.getSb dev state = .ok (none, fetched)) :
    source.findTable dev state = .error .null :=
  run_bind_ok null

/-- The numbers of the superblock are used before anything else is fetched. -/
theorem findTable_arithmetic
    (found : source.getSb dev state = .ok (some ptr, fetched))
    (loaded : source.load ptr fetched = .ok (sb, fetched))
    (undefined : ¬ Computable sb) :
    source.findTable dev state = .error .arithmetic := by
  rw [findTable, run_bind_ok found]
  simp only []
  rw [run_bind_ok loaded]
  by_cases empty : inoPerGroup sb = 0
  · rw [if_pos empty]
    rfl
  · have large : 22 ≤ blkSz sb := by
      by_contra small
      exact undefined ⟨empty, Nat.lt_of_not_le small⟩
    rw [if_neg empty]
    exact run_bind_error (run_lift_error (byte2blk_arithmetic large 1024))

theorem findTable_error
    (found : source.getSb dev state = .ok (some ptr, fetched))
    (loaded : source.load ptr fetched = .ok (sb, fetched))
    (computable : Computable sb)
    (faulted : source.blk2lba dev (tableBlk sb) fetched = .error fault) :
    source.findTable dev state = .error fault := by
  rw [findTable, run_bind_ok found]
  simp only []
  rw [run_bind_ok loaded, if_neg computable.1,
    run_bind_ok (run_lift_ok (byte2blk_eq computable.2 1024))]
  exact run_bind_error faulted

theorem findTable_refused
    {seg : Nat}
    {buf : Option Nat}
    {mapped : σ}
    (found : source.getSb dev state = .ok (some ptr, fetched))
    (loaded : source.load ptr fetched = .ok (sb, fetched))
    (computable : Computable sb)
    (located : source.blk2lba dev (tableBlk sb) fetched = .ok (seg, mapped))
    (returned : source.bcGet dev seg mapped = .ok ((0, buf), after)) :
    source.findTable dev state = .ok (none, after) := by
  rw [findTable, run_bind_ok found]
  simp only []
  rw [run_bind_ok loaded, if_neg computable.1,
    run_bind_ok (run_lift_ok (byte2blk_eq computable.2 1024))]
  rw [tableBlk] at located
  rw [run_bind_ok located]
  exact run_bind_ok returned

theorem findTable_eq
    {seg table : Nat}
    {ret : Int}
    {mapped : σ}
    (found : source.getSb dev state = .ok (some ptr, fetched))
    (loaded : source.load ptr fetched = .ok (sb, fetched))
    (computable : Computable sb)
    (located : source.blk2lba dev (tableBlk sb) fetched = .ok (seg, mapped))
    (returned : source.bcGet dev seg mapped = .ok ((ret, some table), after))
    (served : ret ≠ 0) :
    source.findTable dev state = .ok (some ⟨sb, seg, table⟩, after) := by
  rw [findTable, run_bind_ok found]
  simp only []
  rw [run_bind_ok loaded, if_neg computable.1,
    run_bind_ok (run_lift_ok (byte2blk_eq computable.2 1024))]
  rw [tableBlk] at located
  rw [run_bind_ok located, run_bind_ok returned]
  exact congrFun (if_neg served) after

/-! The numbers which `ext2_node_from_id` computes from the descriptor. -/

/-- Where the inode is in the table of its group. -/
def inodeByte
    (sb : Segment)
    (id : Int) :
    Nat :=
  Ext2.size (indInGrp sb id * szInoStruct sb)

/-- The block which the inode is in. -/
def inodeBlk
    (sb table : Segment)
    (id : Int) :
    Nat :=
  Ext2.size (inodeTableAddr table (blkGroup sb id) +
    (inodeByte sb id / blkBytes (blkSz sb) : Nat))

/-- The byte of the device which the inode starts at. -/
def startByte
    (sb table : Segment)
    (id : Int) :
    Nat :=
  Ext2.size (inodeBlk sb table id * blkBytes (blkSz sb) +
    inodeByte sb id % blkBytes (blkSz sb))

theorem locateInode_error
    {table : Table}
    {contents : Segment}
    (loaded : source.load table.ptr state = .ok (contents, state))
    (small : blkSz table.sb < 22)
    (faulted : source.blk2lba dev (inodeBlk table.sb contents id) state =
      .error fault) :
    source.locateInode dev id table state = .error fault := by
  have nonzero := blkBytes_ne_zero small
  rw [locateInode, run_bind_ok loaded]
  simp only []
  rw [run_bind_ok (run_lift_ok (blkSize_eq (by omega))),
    run_bind_ok (run_lift_ok (div_eq nonzero _))]
  exact run_bind_error faulted

theorem locateInode_eq
    {table : Table}
    {contents : Segment}
    {lba : Nat}
    (slot : getStoreById dev = some store)
    (loaded : source.load table.ptr state = .ok (contents, state))
    (small : blkSz table.sb < 22)
    (located : source.blk2lba dev (inodeBlk table.sb contents id) state =
      .ok (lba, after))
    (size : source.storeSegSz store after = .ok (segSz, after)) :
    source.locateInode dev id table state =
      .ok ((lba, Ext2.size (startByte table.sb contents id - lba * segSz)),
        after) := by
  have nonzero := blkBytes_ne_zero small
  rw [locateInode, run_bind_ok loaded]
  simp only []
  rw [run_bind_ok (run_lift_ok (blkSize_eq (by omega))),
    run_bind_ok (run_lift_ok (div_eq nonzero _))]
  rw [inodeBlk, inodeByte] at located
  rw [run_bind_ok located, slot]
  simp only []
  rw [run_bind_ok size]
  rfl

theorem findInode_eq
    {table : Table}
    {lba byteInSeg : Nat}
    {ret : Int}
    {buf : Option Nat}
    {mapped : σ}
    (found : source.findTable dev state = .ok (some table, fetched))
    (located : source.locateInode dev id table fetched =
      .ok ((lba, byteInSeg), mapped))
    (returned : source.bcGet dev lba mapped = .ok ((ret, buf), after)) :
    source.findInode dev id state = .ok (some (buf, byteInSeg), after) := by
  rw [findInode, run_bind_ok found]
  simp only []
  rw [run_bind_ok located]
  simp only []
  rw [run_bind_ok returned]
  rfl

theorem findInode_error
    {table : Table}
    (found : source.findTable dev state = .ok (some table, fetched))
    (faulted : source.locateInode dev id table fetched = .error fault) :
    source.findInode dev id state = .error fault := by
  rw [findInode, run_bind_ok found]
  exact run_bind_error faulted

theorem nodeFromId_error
    {node : FsNode}
    (faulted : source.findInode dev id state = .error fault) :
    source.nodeFromId dev id node state = .error fault :=
  run_bind_error faulted

theorem findInode_refused
    (refused : source.findTable dev state = .ok (none, fetched)) :
    source.findInode dev id state = .ok (none, fetched) :=
  run_bind_ok refused

theorem nodeFromId_refused
    {node : FsNode}
    (refused : source.findInode dev id state = .ok (none, fetched)) :
    source.nodeFromId dev id node state = .ok ((-1, node), fetched) :=
  run_bind_ok refused

theorem nodeFromId_unset
    {node : FsNode}
    {byteInSeg : Nat}
    (found : source.findInode dev id state =
      .ok (some (none, byteInSeg), fetched)) :
    source.nodeFromId dev id node state = .error .unset :=
  run_bind_ok found

theorem nodeFromId_eq
    {node : FsNode}
    {byteInSeg : Nat}
    {ino : Segment}
    (found : source.findInode dev id state =
      .ok (some (some ptr, byteInSeg), fetched))
    (loaded : source.load ptr fetched = .ok (ino, fetched)) :
    source.nodeFromId dev id node state =
      .ok ((0, { node with user := uid ino byteInSeg, internalId := id }),
        fetched) := by
  rw [nodeFromId, run_bind_ok found]
  exact run_bind_ok loaded

theorem initmnt_missing
    {mnt : Mount}
    (missing : getStoreById mnt.dev = none) :
    source.initmnt mnt state = .ok ((-1, mnt), state) := by
  rw [initmnt, missing]
  rfl

theorem initmnt_error
    {mnt : Mount}
    (slot : getStoreById mnt.dev = some store)
    (faulted : source.getSb mnt.dev state = .error fault) :
    source.initmnt mnt state = .error fault := by
  rw [initmnt, slot]
  exact run_bind_error faulted

theorem initmnt_null
    {mnt : Mount}
    (slot : getStoreById mnt.dev = some store)
    (null : source.getSb mnt.dev state = .ok (none, fetched)) :
    source.initmnt mnt state = .error .null := by
  rw [initmnt, slot]
  exact run_bind_ok null

theorem initmnt_eq
    {mnt : Mount}
    (slot : getStoreById mnt.dev = some store)
    (found : source.getSb mnt.dev state = .ok (some ptr, fetched))
    (loaded : source.load ptr fetched = .ok (sb, fetched)) :
    source.initmnt mnt state =
      .ok (if versMajor sb < 1 then (-1, mnt)
        else (0, { mnt with fs := some .ext2, rootFsnode := 2 }),
          fetched) := by
  rw [initmnt, slot]
  simp only []
  rw [run_bind_ok found]
  simp only []
  rw [run_bind_ok loaded]
  by_cases old : versMajor sb < 1
  · rw [if_pos old, if_pos old]
    rfl
  · rw [if_neg old, if_neg old]
    rfl

end Source

end ForsKernel.Fs.Ext2
