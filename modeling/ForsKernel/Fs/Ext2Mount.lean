import ForsKernel.Fs.Ext2Disk

/-!
# Computing with a mounted superblock

`ext2_initmnt` accepts a superblock by its version.  Whether the numbers in it
can be computed with shows when an inode is read, at any time after the mount.
-/

namespace ForsKernel.Fs.Ext2

open ForsKernel.BufferCache

/--
A later state of a mounted file system.  The cache has been used meanwhile,
but nobody has written to the buffer `ptr` of the superblock.
-/
structure Later
    (mounted later : Disk)
    (ptr : Nat) :
    Prop where
  segSz_eq : later.segSz = mounted.segSz
  supplied : later.Supplied
  run : ∃ ops, ((cacheSystem Segment).restrict
    fun _ op => op.Leaves ptr).Run mounted.cache ops later.cache

section

variable
  {disk mounted later : Disk}
  {dev id : Int}
  {node : FsNode}
  {store : Fin maxStores}
  {segSz lba ptr : Nat}

/--
While a file system is mounted, the superblock stays in the cache as it was,
or it leaves and then there is never room for it again.
-/
structure MountInv
    (store : Fin maxStores)
    (lba ptr : Nat)
    (mounted cache : Cache Segment) :
    Prop where
  type_eq : (cache.stores store).type = (mounted.stores store).type
  lists : ∃ cells, CacheInv cache cells
  superblock : (CheckedOut store lba ptr cache ∧
      cache.buffer ptr = mounted.buffer ptr) ∨ ShutOut store lba cache

theorem MountInv.step
    {mounted cache cache' : Cache Segment}
    {op : CacheOp Segment}
    (inv : MountInv store lba ptr mounted cache)
    (last : (cacheSystem Segment).Step cache op cache')
    (leaves : op.Leaves ptr) :
    MountInv store lba ptr mounted cache' := by
  rcases inv.lists with ⟨cells, lists⟩
  refine ⟨(type_step lists last store).trans inv.type_eq, ?_, ?_⟩
  · rcases lists.step_outcome last with ⟨cells', _, lists'⟩
    exact ⟨cells', lists'⟩
  · rcases inv.superblock with ⟨out, same⟩ | shut
    · rcases out.step_cases last with stays | left
      · exact .inl ⟨stays, (out.buffer_step last leaves).trans same⟩
      · exact .inr left
    · exact .inr (shut.step last)

theorem Later.mountInv
    (after : Later mounted later ptr)
    (out : CheckedOut store lba ptr mounted.cache) :
    MountInv store lba ptr mounted.cache later.cache := by
  rcases after.run with ⟨ops, run⟩
  apply run.invariant
  · exact ⟨rfl, out.imp fun _ checked => checked.1, .inl ⟨out, rfl⟩⟩
  · exact fun cache op cache' inv last =>
      inv.step last.of_restrict last.1.2

/-- With such a superblock in the cache no arithmetic is undefined. -/
theorem nodeFromId_defined
    (usable : disk.Usable dev store segSz)
    (out : CheckedOut store (1024 / segSz) ptr disk.cache)
    (computable : Computable (disk.cache.buffer ptr))
    (id : Int)
    (node : FsNode) :
    faultOf (cached.nodeFromId dev id node disk) ≠ some .arithmetic := by
  rcases usable.findTable_cases with
    null | ⟨_, ptr', disk', found, undefined⟩ | ⟨_, absent⟩ |
      ⟨table, ptr', disk', returned, found⟩
  · rw [Source.nodeFromId_error (run_bind_error null)]
    simp [faultOf]
  · rw [usable.getSb_hit out] at found
    cases found
    exact (undefined computable).elim
  · rw [Source.nodeFromId_refused (Source.findInode_refused absent)]
    simp [faultOf]
  · rcases found.findInode returned id rfl rfl with
      ⟨ret, buf, after, _, _, inode⟩
    cases buf with
    | none =>
        rw [Source.nodeFromId_unset inode]
        simp [faultOf]
    | some inoTableSeg =>
        rw [Source.nodeFromId_eq inode rfl]
        simp [faultOf]

/-- A superblock which cannot be fetched is not computed with. -/
theorem nodeFromId_shutOut
    (slot : getStoreById dev = some store)
    (size : storeSegSz store disk = .ok (segSz, disk))
    (nonzero : segSz ≠ 0)
    (shut : ShutOut store (1024 / segSz) disk.cache)
    (id : Int)
    (node : FsNode) :
    cached.nodeFromId dev id node disk = .error .null := by
  rcases shut.bcGet slot (disk.replies 0) with ⟨cache, refused⟩
  have null := @Source.getSb_eq Disk cached dev store disk _ segSz 0 none
    slot size nonzero (bcGet_eq refused)
  exact Source.nodeFromId_error (run_bind_error
    (Source.findTable_null null))

end

/--
Reading an inode of a mounted file system never divides by zero nor shifts by
too much, for any identifier and at any later time, just when the superblock
has inodes in its groups and blocks of fewer than `2 ^ 32` bytes.
-/
theorem ext2_mount_computable_iff
    {disk mounted : Disk}
    {mnt mnt' : Mount}
    {ptr : Nat}
    (reachable : (cacheSystem Segment).Reachable disk.cache)
    (supplied : disk.Supplied)
    (superblock : cached.getSb mnt.dev disk = .ok (some ptr, mounted))
    (returned : cached.initmnt mnt disk = .ok ((0, mnt'), mounted)) :
    (∀ later, Later mounted later ptr → ∀ id node, 1 ≤ id →
      faultOf (Ext2.nodeFromId mnt'.dev id node later) ≠
        some .arithmetic) ↔
      Computable (mounted.cache.buffer ptr) := by
  rcases usable_of_getSb supplied (cacheInv_of_reachable reachable)
    superblock with ⟨store, segSz, usable⟩
  rcases usable.getSb_cases with
    ⟨_, null⟩ | ⟨ptr', mounted', found, usable', fetched⟩
  · rw [superblock] at null
    cases null
  rw [superblock] at found
  cases found
  have dev_eq : mnt'.dev = mnt.dev := by
    rw [Source.initmnt_eq usable.slot superblock rfl] at returned
    split at returned
    · cases returned
    · cases returned
      rfl
  rw [dev_eq]
  constructor
  · intro safe
    by_contra undefined
    have now : Later mounted mounted ptr :=
      ⟨rfl, usable'.supplied, [], .nil _⟩
    have faulted : cached.nodeFromId mnt.dev 1 emptyNode mounted =
        .error .arithmetic :=
      Source.nodeFromId_error (run_bind_error (Source.findTable_arithmetic
        (usable'.getSb_hit fetched.out) rfl undefined))
    rw [cached_nodeFromId] at faulted
    apply safe mounted now 1 emptyNode (by decide)
    rw [faulted]
    rfl
  · intro computable later after id node _
    have inv := after.mountInv fetched.out
    have size : storeSegSz store later = .ok (segSz, later) := by
      rw [storeSegSz_eq_ok_iff, inv.type_eq, after.segSz_eq]
      exact storeSegSz_eq_ok_iff.mp usable'.size
    rw [← cached_nodeFromId]
    rcases inv.superblock with ⟨out, same⟩ | shut
    · have later_usable : later.Usable mnt.dev store segSz :=
        ⟨usable.slot, size, usable.nonzero, after.supplied, inv.lists⟩
      rw [← same] at computable
      exact nodeFromId_defined later_usable out computable id node
    · rw [nodeFromId_shutOut usable.slot size usable.nonzero shut]
      simp [faultOf]

/-- The superblock of a healthy device has been fetched. -/
def mountedDisk (sb : Segment) : Disk :=
  let disk := healthyDisk sb (smallTable 5)
  stateAfter disk (cached.getSb 0 disk)

theorem ext2_mount_computable_small :
    Computable ((mountedDisk smallSuperblock).cache.buffer 2) ∧
      ∀ later, Later (mountedDisk smallSuperblock) later 2 →
        ∀ id node, 1 ≤ id →
          faultOf (Ext2.nodeFromId 0 id node later) ≠ some .arithmetic := by
  have superblock : cached.getSb 0 (healthyDisk smallSuperblock
      (smallTable 5)) = .ok (some 2, mountedDisk smallSuperblock) :=
    returned_of_value (healthyDisk smallSuperblock (smallTable 5))
      (by decide +kernel)
  have supported : ¬ versMajor ((mountedDisk smallSuperblock).cache.buffer
      2) < 1 := by decide +kernel
  have returned : cached.initmnt ⟨0, none, 0⟩ (healthyDisk smallSuperblock
      (smallTable 5)) = .ok ((0, ⟨0, some .ext2, 2⟩),
        mountedDisk smallSuperblock) := by
    rw [@Source.initmnt_eq Disk cached ⟨0, by decide⟩ _ _ 2 _ ⟨0, none, 0⟩
      rfl superblock rfl, if_neg supported]
  have computable : Computable
      ((mountedDisk smallSuperblock).cache.buffer 2) := by
    decide +kernel
  have safe := @ext2_mount_computable_iff _ _ ⟨0, none, 0⟩
    ⟨0, some .ext2, 2⟩ 2
    (.start (healthyDisk_initial smallSuperblock (smallTable 5)))
    (healthyDisk_supplied smallSuperblock (smallTable 5)) superblock returned
  exact ⟨computable, safe.mpr computable⟩

/-- A superblock of the right version, with these two numbers. -/
def unchecked (blkSz inoPerGroup : UInt8) : Segment
  | 24 => blkSz
  | 40 => inoPerGroup
  | 76 => 1
  | _ => 0

/-- A file system with this superblock is mounted. -/
def uncheckedMount (sb : Segment) : Except Fault ((Int × Mount) × Disk) :=
  cached.initmnt ⟨0, none, 0⟩ (healthyDisk sb (smallTable 5))

/-- The mount succeeds, and reading the root then is undefined. -/
def MountedUndefined (sb : Segment) : Prop :=
  (valueOf (uncheckedMount sb)).map Prod.fst = some 0 ∧
    faultOf (Ext2.nodeFromId 0 2 emptyNode (stateAfter
      (healthyDisk sb (smallTable 5)) (uncheckedMount sb))) =
        some .arithmetic

instance (sb : Segment) : Decidable (MountedUndefined sb) :=
  inferInstanceAs (Decidable (_ ∧ _))

/--
Mounting accepts a superblock with no inodes in its groups, and reading the
root then divides by zero.  It also accepts blocks of `2 ^ 42` bytes.
-/
theorem ext2_mount_accepts_undefined :
    MountedUndefined (unchecked 0 0) ∧ MountedUndefined (unchecked 32 8) := by
  decide +kernel

end ForsKernel.Fs.Ext2
