import ForsKernel.Fs.Ext2Disk

/-!
# Where the inodes of an ext2 file system are

`ext2_node_from_id` fetches one segment for the descriptor of the inode's
group and one for the inode.  Here are the places of both on the device, and
when the segments which are fetched hold them.
-/

namespace ForsKernel.Fs.Ext2

open ForsKernel.BufferCache

/-! ## Places on the device -/

/-- The segments of a store, one behind the other. -/
def deviceBytes
    (disk : Disk)
    (store : Fin maxStores)
    (segSz : Nat) :
    Segment :=
  fun byte => (disk.cache.stores store).dev (byte / segSz) (byte % segSz)

/-- The superblock on the device. -/
def superblockOf
    (disk : Disk)
    (store : Fin maxStores)
    (segSz : Nat) :
    Segment :=
  fun offset => deviceBytes disk store segSz (1024 + offset)

/--
The superblock begins a segment, and its first fields are in this segment.
-/
def SuperblockPlaced (segSz : Nat) : Prop :=
  segSz ∣ 1024 ∧ 44 ≤ segSz

instance (segSz : Nat) : Decidable (SuperblockPlaced segSz) :=
  inferInstanceAs (Decidable (_ ∧ _))

/-- The size of a block. -/
def blockBytes (sb : Segment) : Nat :=
  1024 * 2 ^ blkSz sb

/-- The beginning of the block behind the superblock. -/
def tableStart (sb : Segment) : Nat :=
  (1 + 1024 / blockBytes sb) * blockBytes sb

/-- Inodes are counted from one. -/
def inodeIndex (id : Int) : Nat :=
  (id - 1).toNat

/-- The group of an inode. -/
def groupOf
    (sb : Segment)
    (id : Int) :
    Nat :=
  inodeIndex id / inoPerGroup sb

/-- The distance of an inode from the beginning of its group's table. -/
def tableByte
    (sb : Segment)
    (id : Int) :
    Nat :=
  inodeIndex id % inoPerGroup sb * szInoStruct sb

theorem deviceBytes_of_lt
    {disk : Disk}
    {store : Fin maxStores}
    {segSz offset : Nat}
    (inside : offset < segSz)
    (seg : Nat) :
    deviceBytes disk store segSz (seg * segSz + offset) =
      (disk.cache.stores store).dev seg offset := by
  have positive : 0 < segSz := Nat.zero_lt_of_lt inside
  rw [deviceBytes, Nat.mul_comm, Nat.mul_add_div positive,
    Nat.div_eq_of_lt inside, Nat.mul_add_mod, Nat.mod_eq_of_lt inside,
    Nat.add_zero]

/-! ## Numbers of limited size -/

theorem Segment.byte_lt
    (segment : Segment)
    (offset : Nat) :
    segment.byte offset < 2 ^ 8 :=
  UInt8.toNat_lt _

theorem Segment.u16_lt
    (segment : Segment)
    (offset : Nat) :
    segment.u16 offset < 2 ^ 16 := by
  have low := segment.byte_lt offset
  have high := segment.byte_lt (offset + 1)
  rw [Segment.u16]
  omega

theorem Segment.u32_lt
    (segment : Segment)
    (offset : Nat) :
    segment.u32 offset < 2 ^ 32 := by
  have low := segment.u16_lt offset
  have high := segment.u16_lt (offset + 2)
  rw [Segment.u32]
  omega

/-- A field is read from its own bytes. -/
theorem Segment.u32_congr
    {segment other : Segment}
    {offset place : Nat}
    (same : ∀ byte < 4, segment.byte (offset + byte) =
      other.byte (place + byte)) :
    segment.u32 offset = other.u32 place := by
  have first := same 0 (by decide)
  have second := same 1 (by decide)
  have third := same 2 (by decide)
  have fourth := same 3 (by decide)
  simp only [Nat.add_zero] at first
  simp only [Segment.u32, Segment.u16, Nat.add_assoc, first, second, third,
    fourth]

theorem size_of_lt
    {value : Nat}
    (small : value < 2 ^ 64) :
    size value = value := by
  rw [size]
  omega

section

variable
  {sb contents : Segment}
  {id : Int}
  {segSz blk : Nat}

theorem bmod_sub_one
    (first : 1 ≤ id)
    (small : inodeIndex id < 2 ^ 63) :
    (id - 1).bmod (2 ^ 64) = (inodeIndex id : Int) := by
  rw [inodeIndex] at small ⊢
  rw [Int.bmod_def]
  omega

/-- The quotient of a `long` by an unsigned number of 32 bits. -/
theorem blkGroup_eq
    (first : 1 ≤ id)
    (small : inodeIndex id < 2 ^ 63) :
    blkGroup sb id = groupOf sb id := by
  have bound : groupOf sb id ≤ inodeIndex id := Nat.div_le_self ..
  rw [blkGroup, bmod_sub_one first small, ← Int.ofNat_tdiv]
  exact @size_of_lt (groupOf sb id) (by omega)

theorem indInGrp_eq
    (first : 1 ≤ id)
    (small : inodeIndex id < 2 ^ 63) :
    indInGrp sb id = inodeIndex id % inoPerGroup sb := by
  have bound : inodeIndex id % inoPerGroup sb ≤ inodeIndex id :=
    Nat.mod_le ..
  rw [indInGrp, bmod_sub_one first small, ← Int.ofNat_tmod]
  exact size_of_lt (by omega)

/-! ## The block group table -/

theorem blockBytes_le (small : blkSz sb ≤ 20) : blockBytes sb ≤ 2 ^ 30 :=
  calc blockBytes sb
      ≤ 1024 * 2 ^ 20 :=
        Nat.mul_le_mul_left _ (Nat.pow_le_pow_right (by decide) small)
    _ = 2 ^ 30 := by decide

theorem tableStart_le (sb : Segment) :
    tableStart sb ≤ blockBytes sb + 1024 := by
  have whole : 1024 / blockBytes sb * blockBytes sb ≤ 1024 :=
    Nat.div_mul_le_self ..
  rw [tableStart, Nat.add_mul, Nat.one_mul]
  omega

theorem tableBlk_eq (small : blkSz sb ≤ 20) :
    Source.tableBlk sb = 1 + 1024 / blockBytes sb := by
  have bound : 1024 / blockBytes sb ≤ 1024 := Nat.div_le_self ..
  have bytes : blkBytes (blkSz sb) = blockBytes sb := blkBytes_eq small
  rw [Source.tableBlk, bytes]
  exact_mod_cast @size_of_lt (1 + 1024 / blockBytes sb) (by omega)

/-- The segment of a block whose bytes can be addressed. -/
theorem segOfBlk_eq
    (small : blkSz sb ≤ 20)
    (addressed : blk * blockBytes sb < 2 ^ 64) :
    Source.segOfBlk sb segSz blk = blk * blockBytes sb / segSz := by
  have bytes : blkBytes (blkSz sb) = blockBytes sb := blkBytes_eq small
  rw [Source.segOfBlk, bytes]
  exact congrArg (· / segSz) (size_of_lt addressed)

theorem tableSeg_eq (small : blkSz sb ≤ 20) :
    Source.segOfBlk sb segSz (Source.tableBlk sb) =
      tableStart sb / segSz := by
  have block := blockBytes_le small
  have bound := tableStart_le sb
  rw [tableBlk_eq small]
  apply segOfBlk_eq small
  rw [tableStart] at bound
  omega

/-- The shift by 21 gives a negative number, which is extended. -/
theorem tableSeg_extended (largest : blkSz sb = 21) :
    tableStart sb = 2 ^ 31 ∧
      Source.segOfBlk sb segSz (Source.tableBlk sb) =
        (2 ^ 64 - 2 ^ 31) / segSz := by
  have bytes : blkBytes 21 = 2 ^ 64 - 2 ^ 31 := by decide +kernel
  have first : Source.tableBlk sb = 1 := by
    rw [Source.tableBlk, largest, bytes]
    decide +kernel
  constructor
  · rw [tableStart, blockBytes, largest]
    decide +kernel
  · rw [Source.segOfBlk, first, largest, bytes]
    exact congrArg (· / segSz) (@size_of_lt (1 * (2 ^ 64 - 2 ^ 31))
      (by decide +kernel))

/-- The segment which is fetched begins with the table, or not. -/
theorem tableSeg_placed_iff (computable : Computable sb) :
    Source.segOfBlk sb segSz (Source.tableBlk sb) * segSz =
        tableStart sb ↔
      blkSz sb ≤ 20 ∧ segSz ∣ tableStart sb := by
  by_cases small : blkSz sb ≤ 20
  · rw [tableSeg_eq small, Nat.dvd_iff_div_mul_eq]
    simp only [small, true_and]
  · have largest : blkSz sb = 21 := by
      have bound := computable.2
      omega
    have extended := @tableSeg_extended sb segSz largest
    rw [extended.1, extended.2]
    constructor
    · intro placed
      exfalso
      have positive : 0 < segSz := by
        by_contra zero
        simp [Nat.eq_zero_of_not_pos zero] at placed
      have next := Nat.lt_div_mul_add positive (a := 2 ^ 64 - 2 ^ 31)
      have quotient : 0 < (2 ^ 64 - 2 ^ 31) / segSz := by
        by_contra zero
        rw [Nat.eq_zero_of_not_pos zero] at placed
        omega
      have whole := Nat.le_mul_of_pos_left segSz quotient
      omega
    · rintro ⟨bound, _⟩
      exact (small bound).elim

end

/--
The descriptor which is read lies inside the buffer of the table, and it is
the one of the inode's group on a device with this superblock.
-/
structure DescriptorRead
    (disk disk' : Disk)
    (store : Fin maxStores)
    (segSz : Nat)
    (sb : Segment)
    (table : Table)
    (id : Int) :
    Prop where
  inside : blkGroup table.sb id * szDescriptor + szDescriptor ≤ segSz
  placed : table.seg * segSz + blkGroup table.sb id * szDescriptor =
    tableStart sb + groupOf sb id * szDescriptor
  bytes : ∀ byte < szDescriptor,
    disk'.cache.buffer table.ptr
        (blkGroup table.sb id * szDescriptor + byte) =
      deviceBytes disk store segSz
        (tableStart sb + groupOf sb id * szDescriptor + byte)

section

variable
  {disk disk' : Disk}
  {dev id : Int}
  {store : Fin maxStores}
  {segSz ptr : Nat}
  {table : Table}

/-- The buffer of the table holds the bytes of its segment. -/
theorem Disk.Found.table_bytes
    (found : disk.Found disk' dev store segSz table ptr)
    (mirrors : Mirrors disk.cache)
    {offset : Nat}
    (inside : offset < segSz) :
    disk'.cache.buffer table.ptr offset =
      deviceBytes disk store segSz (table.seg * segSz + offset) := by
  rw [(found.mirrors mirrors).buffer_eq found.out, found.dev_eq,
    deviceBytes_of_lt inside]

theorem Disk.Found.descriptorRead_iff
    (found : disk.Found disk' dev store segSz table ptr)
    (mirrors : Mirrors disk.cache)
    (group : blkGroup table.sb id = groupOf table.sb id) :
    DescriptorRead disk disk' store segSz table.sb table id ↔
      blkSz table.sb ≤ 20 ∧ segSz ∣ tableStart table.sb ∧
        (groupOf table.sb id + 1) * szDescriptor ≤ segSz := by
  rw [← and_assoc, ← tableSeg_placed_iff found.computable, ← found.seg_eq,
    Nat.add_mul, Nat.one_mul]
  constructor
  · rintro ⟨inside, placed, _⟩
    rw [group] at inside placed
    exact ⟨by omega, inside⟩
  · rintro ⟨placed, inside⟩
    refine ⟨?_, ?_, ?_⟩
    · rw [group]
      exact inside
    · rw [group, placed]
    · intro byte below
      rw [group, found.table_bytes mirrors (by omega), placed,
        Nat.add_assoc]

/-! ## The superblock which is fetched -/

/-- The first fields of the superblock are those on the device. -/
theorem u32_fetched
    (mirrors : Mirrors disk'.cache)
    (dev_eq : (disk'.cache.stores store).dev = (disk.cache.stores store).dev)
    (out : CheckedOut store (1024 / segSz) ptr disk'.cache)
    (placed : SuperblockPlaced segSz)
    {field : Nat}
    (inside : field ≤ 40) :
    (disk'.cache.buffer ptr).u32 field =
      (superblockOf disk store segSz).u32 field := by
  rcases placed with ⟨divides, large⟩
  apply Segment.u32_congr
  intro byte below
  have start : 1024 = 1024 / segSz * segSz :=
    (Nat.div_mul_cancel divides).symm
  rw [Segment.byte, Segment.byte, Nat.mod_eq_of_lt (by omega),
    superblockOf, start, deviceBytes_of_lt (by omega),
    mirrors.buffer_eq out, dev_eq]

/-- So the numbers which the code computes with are those on the device. -/
theorem fields_fetched
    (mirrors : Mirrors disk'.cache)
    (dev_eq : (disk'.cache.stores store).dev = (disk.cache.stores store).dev)
    (out : CheckedOut store (1024 / segSz) ptr disk'.cache)
    (placed : SuperblockPlaced segSz) :
    blkSz (disk'.cache.buffer ptr) =
        blkSz (superblockOf disk store segSz) ∧
      inoPerGroup (disk'.cache.buffer ptr) =
        inoPerGroup (superblockOf disk store segSz) :=
  ⟨u32_fetched mirrors dev_eq out placed (by decide),
    u32_fetched mirrors dev_eq out placed (by decide)⟩

/-- With such a superblock on the device the table is found or refused. -/
theorem findTable_defined
    (usable : disk.Usable dev store segSz)
    (mirrors : Mirrors disk.cache)
    (placed : SuperblockPlaced segSz)
    (computable : Computable (superblockOf disk store segSz)) :
    faultOf (cached.findTable dev disk) ≠ some .arithmetic := by
  rcases usable.findTable_cases with
    null | ⟨_, ptr, disk', found, undefined⟩ | ⟨_, absent⟩ |
      ⟨_, _, _, returned, _⟩
  · rw [null]
    simp [faultOf]
  · exfalso
    rcases usable.getSb_cases with
      ⟨_, null⟩ | ⟨ptr', fetched', found', _, fetched⟩
    · rw [null] at found
      cases found
    · rw [found'] at found
      cases found
      rcases fields_fetched (fetched.mirrors mirrors) (fetched.dev_eq store)
        fetched.out placed with ⟨block, groups⟩
      rw [Computable, block, groups] at undefined
      exact undefined computable
  · rw [absent]
    simp [faultOf]
  · rw [returned]
    simp [faultOf]

theorem Disk.Found.descriptorRead_placed_iff
    (found : disk.Found disk' dev store segSz table ptr)
    (mirrors : Mirrors disk.cache)
    (placed : SuperblockPlaced segSz)
    (group : blkGroup table.sb id = groupOf table.sb id) :
    DescriptorRead disk disk' store segSz (superblockOf disk store segSz)
        table id ↔
      blkSz (superblockOf disk store segSz) ≤ 20 ∧
        segSz ∣ tableStart (superblockOf disk store segSz) ∧
        (groupOf (superblockOf disk store segSz) id + 1) * szDescriptor ≤
          segSz := by
  have fields := fields_fetched (found.mirrors mirrors) (found.dev_eq store)
    found.superblock placed
  rw [found.sb_eq] at fields
  rcases fields with ⟨block, groups⟩
  have start : tableStart table.sb =
      tableStart (superblockOf disk store segSz) := by
    rw [tableStart, tableStart, blockBytes, blockBytes, block]
  have place : groupOf table.sb id =
      groupOf (superblockOf disk store segSz) id := by
    rw [groupOf, groupOf, groups]
  have same := found.descriptorRead_iff mirrors group
  rw [start, place, block] at same
  rw [← same]
  constructor
  · rintro ⟨inside, at_, bytes⟩
    rw [← start, ← place] at at_ bytes
    exact ⟨inside, at_, bytes⟩
  · rintro ⟨inside, at_, bytes⟩
    rw [start, place] at at_ bytes
    exact ⟨inside, at_, bytes⟩

end

/--
If the superblock at byte 1024 begins a segment, then with inodes in its groups
and blocks of at most `2 ^ 30` bytes the search for the group table does not
divide by zero, and whenever it finds a table, the descriptor of the group of
any inode in the file system is read from its own place just when the group
table begins with a segment and the descriptor is in this first segment.
-/
theorem ext2_descriptor_read_iff
    {disk : Disk}
    {dev id : Int}
    {store : Fin maxStores}
    {segSz : Nat}
    (reachable : (loadingSystem Segment).Reachable disk.cache)
    (supplied : disk.Supplied)
    (slot : getStoreById dev = some store)
    (size : storeSegSz store disk = .ok (segSz, disk))
    (first : 1 ≤ id)
    (last : id ≤ nIno (superblockOf disk store segSz)) :
    SuperblockPlaced segSz →
      (inoPerGroup (superblockOf disk store segSz) ≠ 0 →
        blkSz (superblockOf disk store segSz) ≤ 20 →
          faultOf (cached.findTable dev disk) ≠ some .arithmetic) ∧
      ∀ table disk', cached.findTable dev disk = .ok (some table, disk') →
        (DescriptorRead disk disk' store segSz
            (superblockOf disk store segSz) table id ↔
          blkSz (superblockOf disk store segSz) ≤ 20 ∧
            segSz ∣ tableStart (superblockOf disk store segSz) ∧
            (groupOf (superblockOf disk store segSz) id + 1) *
              szDescriptor ≤ segSz) := by
  intro placed
  have lists := cacheInv_of_reachable reachable.of_restrict
  have mirrors := mirrors_of_reachable reachable
  constructor
  · intro groups small
    have nonzero : segSz ≠ 0 := by
      have large := placed.2
      omega
    exact findTable_defined ⟨slot, size, nonzero, supplied, lists⟩ mirrors
      placed ⟨groups, by omega⟩
  · intro table disk' returned
    rcases found_of_findTable supplied lists slot size returned with
      ⟨ptr, found⟩
    have bound : nIno (superblockOf disk store segSz) < 2 ^ 32 :=
      Segment.u32_lt ..
    have small : inodeIndex id < 2 ^ 63 := by
      rw [inodeIndex]
      omega
    exact found.descriptorRead_placed_iff mirrors placed
      (blkGroup_eq first small)

/-- The superblock on the small file system. -/
def smallSb : Segment :=
  superblockOf (smallDisk 5) firstStore 512

/-- The descriptor of the root's group, on a small file system. -/
theorem ext2_descriptor_read_root :
    DescriptorRead (smallDisk 5) (stateAfter (smallDisk 5) (smallSearch 5))
      firstStore 512 smallSb (tableFound (smallSearch 5)) 2 :=
  ((ext2_descriptor_read_iff (.start (healthyDisk_initial ..))
    (healthyDisk_supplied _ _) rfl rfl (by decide)
    (by decide +kernel) (by decide)).2 _ _
    (returned_of_isSome (smallDisk 5) (by decide +kernel))).mpr
      (by decide +kernel)

/-- In segments of 2048 bytes the superblock is the second half of the first. -/
def wideSegment (offset : Nat) : UInt8 :=
  if offset < 1024 then 0 else smallSuperblock (offset - 1024)

/-- The device with the small file system, in such segments. -/
def wideDisk : Disk :=
  { healthyDisk smallSuperblock wideSegment with segSz := fun _ => 2048 }

/--
The descriptor of the seventeenth group is behind the segment.  In segments of
2048 bytes the superblock is looked for in the wrong place, where the number of
inodes in a group is zero.
-/
theorem ext2_descriptor_outside :
    ((valueOf (smallSearch 5)).join.isSome ∧
      129 ≤ nIno smallSb ∧
      ¬ DescriptorRead (smallDisk 5)
        (stateAfter (smallDisk 5) (smallSearch 5)) firstStore 512 smallSb
        (tableFound (smallSearch 5)) 129) ∧
      Computable (superblockOf wideDisk firstStore 2048) ∧
      faultOf (cached.findTable 0 wideDisk) = some .arithmetic := by
  refine ⟨⟨by decide +kernel, by decide +kernel, ?_⟩, by decide +kernel,
    by decide +kernel⟩
  intro read
  exact absurd read.inside (by decide +kernel)

/-! ## The inode -/

/-- The size of `ext2_inode_t`. -/
def szInode : Nat := 128

/-- The address of the group's inode table, from the device. -/
def tableAddr
    (disk : Disk)
    (store : Fin maxStores)
    (segSz : Nat)
    (sb : Segment)
    (id : Int) :
    Nat :=
  (deviceBytes disk store segSz).u32
    (tableStart sb + groupOf sb id * szDescriptor + 8)

/-- The byte of the device which the inode starts at. -/
def inodeStart
    (disk : Disk)
    (store : Fin maxStores)
    (segSz : Nat)
    (sb : Segment)
    (id : Int) :
    Nat :=
  tableAddr disk store segSz sb id * blockBytes sb + tableByte sb id

/-- The beginning of the block which the inode starts in. -/
def blockStart
    (disk : Disk)
    (store : Fin maxStores)
    (segSz : Nat)
    (sb : Segment)
    (id : Int) :
    Nat :=
  (tableAddr disk store segSz sb id + tableByte sb id / blockBytes sb) *
    blockBytes sb

/--
What is read as the inode lies inside a buffer of the cache, and it is what
the device holds from byte `start` on.
-/
def InodeRead
    (disk : Disk)
    (store : Fin maxStores)
    (segSz start : Nat) :
    Except Fault (Option (Option Nat × Nat) × Disk) → Prop
  | .ok (some (some ptr, offset), after) =>
      (∃ lba, CheckedOut store lba ptr after.cache ∧
        lba * segSz + offset = start) ∧
      offset + szInode ≤ segSz ∧
      ∀ byte < szInode, after.cache.buffer ptr (offset + byte) =
        deviceBytes disk store segSz (start + byte)
  | _ => False

section

variable
  {disk disk' : Disk}
  {dev id : Int}
  {store : Fin maxStores}
  {segSz ptr : Nat}
  {table : Table}
  {sb : Segment}

/-- The inode starts in its block. -/
theorem inodeStart_eq :
    inodeStart disk store segSz sb id =
      blockStart disk store segSz sb id +
        tableByte sb id % blockBytes sb := by
  have split := Nat.div_add_mod' (tableByte sb id) (blockBytes sb)
  rw [inodeStart, blockStart, Nat.add_mul]
  omega

theorem tableByte_lt (computable : Computable sb) :
    tableByte sb id < 2 ^ 48 := by
  have groups : inoPerGroup sb < 2 ^ 32 := Segment.u32_lt ..
  have bytes : szInoStruct sb < 2 ^ 16 := Segment.u16_lt ..
  have index : inodeIndex id % inoPerGroup sb < 2 ^ 32 :=
    (Nat.mod_lt _ (Nat.pos_of_ne_zero computable.1)).trans groups
  calc tableByte sb id
      < 2 ^ 32 * 2 ^ 16 := Nat.mul_lt_mul'' index bytes
    _ = 2 ^ 48 := by decide

/-- Blocks of at most `2 ^ 30` bytes can all be addressed. -/
theorem inodeStart_lt
    (computable : Computable sb)
    (small : blkSz sb ≤ 20) :
    inodeStart disk store segSz sb id < 2 ^ 63 := by
  have addr : tableAddr disk store segSz sb id < 2 ^ 32 := Segment.u32_lt ..
  have byte := @tableByte_lt id sb computable
  have block : tableAddr disk store segSz sb id * blockBytes sb ≤
      2 ^ 32 * 2 ^ 30 :=
    Nat.mul_le_mul (Nat.le_of_lt addr) (blockBytes_le small)
  rw [inodeStart]
  omega

theorem blockBytes_dvd (sb : Segment) : 512 ∣ blockBytes sb :=
  Dvd.dvd.mul_right (by decide) _

theorem blockStart_dvd : 512 ∣ blockStart disk store segSz sb id :=
  Dvd.dvd.mul_left (blockBytes_dvd sb) _

theorem tableStart_dvd (sb : Segment) : 512 ∣ tableStart sb :=
  Dvd.dvd.mul_left (blockBytes_dvd sb) _

/-- The table is behind the superblock. -/
theorem lt_tableStart (sb : Segment) : 1024 < tableStart sb := by
  have least : 1024 ≤ blockBytes sb :=
    Nat.le_mul_of_pos_right 1024 (Nat.two_pow_pos _)
  rw [tableStart, Nat.add_mul, Nat.one_mul]
  by_cases one : blockBytes sb = 1024
  · rw [one]
    decide
  · omega

/-- What the code computes from the descriptor which is on the device. -/
theorem inodeBlk_eq
    {contents : Segment}
    (computable : Computable sb)
    (small : blkSz sb ≤ 20)
    (first : 1 ≤ id)
    (index : inodeIndex id < 2 ^ 63)
    (addr : inodeTableAddr contents (blkGroup sb id) =
      tableAddr disk store segSz sb id) :
    Source.inodeByte sb id = tableByte sb id ∧
      Source.inodeBlk sb contents id = tableAddr disk store segSz sb id +
        tableByte sb id / blockBytes sb := by
  have byteBound := @tableByte_lt id sb computable
  have addrBound : tableAddr disk store segSz sb id < 2 ^ 32 :=
    Segment.u32_lt ..
  have blocks : tableByte sb id / blockBytes sb ≤ tableByte sb id :=
    Nat.div_le_self ..
  have byte : Source.inodeByte sb id = tableByte sb id := by
    rw [Source.inodeByte, indInGrp_eq first index]
    exact_mod_cast @size_of_lt (tableByte sb id) (by omega)
  have bytes : blkBytes (blkSz sb) = blockBytes sb := blkBytes_eq small
  refine ⟨byte, ?_⟩
  rw [Source.inodeBlk, addr, byte, bytes]
  exact_mod_cast @size_of_lt (tableAddr disk store segSz sb id +
    tableByte sb id / blockBytes sb) (by omega)

/-- The segment which is fetched starts with the block, and so on. -/
theorem located_eq
    {contents : Segment}
    (computable : Computable sb)
    (small : blkSz sb ≤ 20)
    (first : 1 ≤ id)
    (index : inodeIndex id < 2 ^ 63)
    (addr : inodeTableAddr contents (blkGroup sb id) =
      tableAddr disk store segSz sb id)
    {lba : Nat}
    (lba_eq : lba = Source.segOfBlk sb 512 (Source.inodeBlk sb contents id)) :
    lba * 512 = blockStart disk store segSz sb id ∧
      size (Source.startByte sb contents id - lba * (512 : Nat)) =
        tableByte sb id % blockBytes sb := by
  have bound := @inodeStart_lt disk id store segSz sb computable small
  rw [inodeStart_eq] at bound
  rcases inodeBlk_eq computable small first index addr with ⟨byte, block⟩
  have bytes : blkBytes (blkSz sb) = blockBytes sb := blkBytes_eq small
  have begins : (tableAddr disk store segSz sb id +
      tableByte sb id / blockBytes sb) * blockBytes sb =
        blockStart disk store segSz sb id := rfl
  have addressed : (tableAddr disk store segSz sb id +
      tableByte sb id / blockBytes sb) * blockBytes sb < 2 ^ 64 := by
    rw [begins]
    omega
  have start : Source.startByte sb contents id =
      blockStart disk store segSz sb id +
        tableByte sb id % blockBytes sb := by
    rw [Source.startByte, block, byte, bytes]
    exact_mod_cast @size_of_lt (blockStart disk store segSz sb id +
      tableByte sb id % blockBytes sb) (by omega)
  have whole : lba * 512 = blockStart disk store segSz sb id := by
    rw [lba_eq, block, segOfBlk_eq small addressed, begins]
    exact Nat.div_mul_cancel blockStart_dvd
  refine ⟨whole, ?_⟩
  have difference : (Source.startByte sb contents id : Int) -
      lba * (512 : Nat) = (tableByte sb id % blockBytes sb : Nat) := by
    rw [start]
    omega
  rw [difference]
  exact size_of_lt (by omega)

theorem inodeRead_inside
    {start : Nat}
    {result : Except Fault (Option (Option Nat × Nat) × Disk)}
    (read : InodeRead disk store segSz start result) :
    ∃ ptr offset, valueOf result = some (some (some ptr, offset)) ∧
      offset + szInode ≤ segSz := by
  match result with
  | .error _ => exact read.elim
  | .ok (none, _) => exact read.elim
  | .ok (some (none, _), _) => exact read.elim
  | .ok (some (some ptr, offset), _) => exact ⟨ptr, offset, rfl, read.2.1⟩

/-- A segment of the cache holds the inode if it ends within it. -/
theorem inodeRead_iff
    {after : Disk}
    {lba offset start : Nat}
    (out : CheckedOut store lba ptr after.cache)
    (mirrors : Mirrors after.cache)
    (dev_eq : (after.cache.stores store).dev = (disk.cache.stores store).dev)
    (placed : lba * segSz + offset = start) :
    InodeRead disk store segSz start
        (.ok (some (some ptr, offset), after)) ↔
      offset + szInode ≤ segSz := by
  constructor
  · exact fun read => read.2.1
  · intro inside
    refine ⟨⟨lba, out, placed⟩, inside, ?_⟩
    intro byte below
    rw [mirrors.buffer_eq out, dev_eq, ← placed, Nat.add_assoc,
      deviceBytes_of_lt (by omega)]

/-- The descriptor which is read is the one on the device. -/
theorem Disk.Found.tableAddr_eq
    (found : disk.Found disk' dev store 512 table ptr)
    (mirrors : Mirrors disk.cache)
    (small : blkSz table.sb ≤ 20)
    (group : blkGroup table.sb id = groupOf table.sb id)
    (available : (groupOf table.sb id + 1) * szDescriptor ≤ 512) :
    inodeTableAddr (disk'.cache.buffer table.ptr) (blkGroup table.sb id) =
      tableAddr disk store 512 table.sb id := by
  have placed := (@tableSeg_placed_iff table.sb 512 found.computable).mpr
    ⟨small, tableStart_dvd _⟩
  rw [← found.seg_eq] at placed
  have block := blockBytes_le small
  have start := tableStart_le table.sb
  have descriptor : szDescriptor = 32 := rfl
  rw [Nat.add_mul, Nat.one_mul] at available
  rw [inodeTableAddr, tableAddr, group]
  apply Segment.u32_congr
  intro byte below
  rw [Segment.byte, Segment.byte, Nat.mod_eq_of_lt (by omega),
    Nat.mod_eq_of_lt (by omega), found.table_bytes mirrors (by omega),
    placed]
  congr 2
  omega

theorem Disk.Found.inodeRead_iff
    (found : disk.Found disk' dev store 512 table ptr)
    (returned : cached.findTable dev disk = .ok (some table, disk'))
    (mirrors : Mirrors disk.cache)
    (small : blkSz table.sb ≤ 20)
    (first : 1 ≤ id)
    (index : inodeIndex id < 2 ^ 63)
    (available : (groupOf table.sb id + 1) * szDescriptor ≤ 512) :
    InodeRead disk store 512 (inodeStart disk store 512 table.sb id)
        (cached.findInode dev id disk) ↔
      (blockStart disk store 512 table.sb id = 1024 ∨
        blockStart disk store 512 table.sb id = tableStart table.sb) ∧
      tableByte table.sb id % blockBytes table.sb + szInode ≤ 512 := by
  have addr := found.tableAddr_eq mirrors small (blkGroup_eq first index)
    available
  have placed := (@tableSeg_placed_iff table.sb 512 found.computable).mpr
    ⟨small, tableStart_dvd _⟩
  rw [← found.seg_eq] at placed
  have behind := lt_tableStart table.sb
  generalize located : Source.segOfBlk table.sb 512
    (Source.inodeBlk table.sb (disk'.cache.buffer table.ptr) id) = lba
  rcases located_eq found.computable small first index addr located.symm
    with ⟨begins, offset⟩
  rcases found.findInode returned id rfl located.symm with
    ⟨ret, buf, after, fetched, usable, inode⟩
  rw [inode, offset, ← begins]
  have start : lba * 512 + tableByte table.sb id % blockBytes table.sb =
      inodeStart disk store 512 table.sb id := by
    rw [inodeStart_eq, begins]
  -- the two segments in the cache are the only ones which can be had
  have hit {p : Nat} (out : CheckedOut store lba p disk'.cache) :
      InodeRead disk store 512 (inodeStart disk store 512 table.sb id)
          (.ok (some (buf, tableByte table.sb id % blockBytes table.sb),
            after)) ↔
        tableByte table.sb id % blockBytes table.sb + szInode ≤ 512 := by
    rw [(usable.bcGet_hit out).1] at fetched
    cases fetched
    exact Ext2.inodeRead_iff out (found.mirrors mirrors)
      (found.dev_eq store) start
  by_cases superblock : lba = 2
  · subst superblock
    rw [hit found.superblock]
    simp
  · by_cases same : lba = table.seg
    · subst same
      rw [hit found.out, placed]
      simp
    · have shut : ShutOut store lba disk'.next.cache :=
        shutOut_of_two found.superblock found.out (by omega) superblock same
      rcases shut.bcGet found.usable.slot (disk'.next.replies 0) with
        ⟨cache, refused⟩
      rw [bcGet_eq refused] at fetched
      cases fetched
      constructor
      · exact fun read => read.elim
      · rintro ⟨begin | begin, _⟩ <;> omega

end

/--
With segments of 512 bytes, an inode whose descriptor is available is read
from its own place just when its block is the first one of the superblock or
the one of the group table, and the inode is in the first segment of it.
-/
theorem ext2_inode_read_iff
    {disk disk' : Disk}
    {dev id : Int}
    {store : Fin maxStores}
    {table : Table}
    (reachable : (loadingSystem Segment).Reachable disk.cache)
    (supplied : disk.Supplied)
    (slot : getStoreById dev = some store)
    (size : storeSegSz store disk = .ok (512, disk))
    (returned : cached.findTable dev disk = .ok (some table, disk'))
    (geometry : blkSz table.sb ≤ 6)
    (first : 1 ≤ id)
    (available : (groupOf table.sb id + 1) * szDescriptor ≤ 512) :
    InodeRead disk store 512 (inodeStart disk store 512 table.sb id)
        (Ext2.findInode dev id disk) ↔
      (blockStart disk store 512 table.sb id = 1024 ∨
        blockStart disk store 512 table.sb id = tableStart table.sb) ∧
      tableByte table.sb id % blockBytes table.sb + szInode ≤ 512 := by
  have lists := cacheInv_of_reachable reachable.of_restrict
  rcases found_of_findTable supplied lists slot size returned with
    ⟨ptr, found⟩
  have index : inodeIndex id < 2 ^ 63 := by
    have groups : inoPerGroup table.sb < 2 ^ 32 := Segment.u32_lt ..
    have few : groupOf table.sb id < 16 := by
      rw [szDescriptor] at available
      omega
    have bound := (Nat.div_lt_iff_lt_mul
      (Nat.pos_of_ne_zero found.computable.1)).mp few
    omega
  rw [← cached_findInode]
  exact found.inodeRead_iff returned (mirrors_of_reachable reachable)
    (by omega) first index available

/-- The reading of an inode of a small file system comes out right. -/
def SmallRead
    (blk : UInt8)
    (id : Int) :
    Prop :=
  InodeRead (smallDisk blk) firstStore 512
    (inodeStart (smallDisk blk) firstStore 512
      (tableFound (smallSearch blk)).sb id)
    (Ext2.findInode 0 id (smallDisk blk))

/-- The inode table is in the block of the group table. -/
theorem ext2_inode_read_first : SmallRead 2 1 :=
  (@ext2_inode_read_iff (smallDisk 2) _ 0 1 firstStore _
    (.start (healthyDisk_initial ..)) (healthyDisk_supplied _ _) rfl rfl
    (returned_of_isSome (smallDisk 2) (by decide +kernel))
    (by decide +kernel) (by decide) (by decide +kernel)).mpr
      (by decide +kernel)

/--
The segment of the root's inode does not fit into the cache, and the fifth
inode is in the second segment of its block.
-/
theorem ext2_inode_misread :
    ((valueOf (smallSearch 5)).join.isSome ∧ ¬ SmallRead 5 2) ∧
      (valueOf (smallSearch 2)).join.isSome ∧ ¬ SmallRead 2 5 := by
  refine ⟨⟨by decide +kernel, ?_⟩, by decide +kernel, ?_⟩
  · intro read
    have refused : valueOf (Ext2.findInode 0 2 (smallDisk 5)) =
        some (some (none, 128)) := by decide +kernel
    rcases inodeRead_inside read with ⟨ptr, offset, returned, _⟩
    rw [refused] at returned
    cases returned
  · intro read
    have behind : valueOf (Ext2.findInode 0 5 (smallDisk 2)) =
        some (some (some 6, 512)) := by decide +kernel
    rcases inodeRead_inside read with ⟨ptr, offset, returned, inside⟩
    rw [behind] at returned
    cases returned
    exact absurd inside (by decide)

end ForsKernel.Fs.Ext2
