import Mathlib.Logic.Relation
import ForsKernel.Fs.Ext2Source
import ForsKernel.Store.Residence

/-!
# The ext2 file system over the buffer cache

How the calls which `ext2.c` makes turn out on a cache which works: what a
successful `bc_get` leaves in place for the calls after it, and what has been
read once the block group table is found.
-/

namespace ForsKernel.Fs.Ext2

open ForsKernel.BufferCache

/-! ## Fetching blocks -/

namespace Disk

/-- The first of the replies has been used. -/
def next (disk : Disk) : Disk :=
  { disk with replies := fun n => disk.replies (n + 1) }

/-- Somebody gets a block of a registered store. -/
def Fetches (disk disk' : Disk) : Prop :=
  ∃ dev addr result, (∃ store, disk.cache.Registered dev store) ∧
    bcGet dev addr disk = .ok (result, disk')

/-- Whatever is fetched, `kalloc` then provides memory which is not in use. -/
def Supplied (disk : Disk) : Prop :=
  ∀ later, Relation.ReflTransGen Fetches disk later →
    (later.replies 0).Fresh later.cache

/-- The device has a registered store with segments of this size. -/
structure Usable
    (disk : Disk)
    (dev : Int)
    (store : Fin maxStores)
    (segSz : Nat) :
    Prop where
  slot : getStoreById dev = some store
  size : storeSegSz store disk = .ok (segSz, disk)
  nonzero : segSz ≠ 0
  supplied : disk.Supplied
  lists : ∃ cells, CacheInv disk.cache cells

/-- What a successful call leaves: the block, and all that was there. -/
structure Fetched
    (disk disk' : Disk)
    (store : Fin maxStores)
    (addr ptr : Nat) :
    Prop where
  out : CheckedOut store addr ptr disk'.cache
  keeps : ∀ {other old}, CheckedOut store other old disk.cache →
    CheckedOut store other old disk'.cache ∧
      disk'.cache.buffer old = disk.cache.buffer old
  dev_eq : ∀ j, (disk'.cache.stores j).dev = (disk.cache.stores j).dev
  mirrors : Mirrors disk.cache → Mirrors disk'.cache

end Disk

section

variable
  {disk disk' : Disk}
  {dev id : Int}
  {store : Fin maxStores}
  {segSz addr ptr : Nat}

theorem Disk.Supplied.after
    (supplied : disk.Supplied)
    (fetches : disk.Fetches disk') :
    disk'.Supplied :=
  fun later rest => supplied later (.head fetches rest)

theorem storeSegSz_missing (untyped : (disk.cache.stores store).type = none) :
    storeSegSz store disk = .error .null := by
  have got : (get : Action Disk) disk = .ok (disk, disk) := rfl
  rw [storeSegSz, run_bind_ok got, untyped]
  rfl

theorem storeSegSz_eq
    {type : Nat}
    (typed : (disk.cache.stores store).type = some type) :
    storeSegSz store disk = .ok (disk.segSz type, disk) := by
  have got : (get : Action Disk) disk = .ok (disk, disk) := rfl
  rw [storeSegSz, run_bind_ok got, typed]
  rfl

theorem storeSegSz_eq_ok_iff :
    storeSegSz store disk = .ok (segSz, disk) ↔
      (disk.cache.stores store).type.map disk.segSz = some segSz := by
  cases typed : (disk.cache.stores store).type with
  | none => simp [storeSegSz_missing typed]
  | some type => simp [storeSegSz_eq typed]

/-- A call of the cache is an action of the file system. -/
theorem bcGet_eq
    {ret : Int}
    {buf : Option Nat}
    {cache : Cache Segment}
    (returned : BufferCache.bcGet (disk.replies 0) dev addr disk.cache =
      some (ret, buf, cache)) :
    bcGet dev addr disk =
      .ok ((ret, buf), { disk.next with cache := cache }) := by
  rw [bcGet, returned]
  rfl

namespace Disk.Usable

theorem registered (usable : disk.Usable dev store segSz) :
    disk.cache.Registered dev store := by
  refine ⟨usable.slot, ?_⟩
  have typed := storeSegSz_eq_ok_iff.mp usable.size
  intro missing
  rw [missing] at typed
  cases typed

/-- A call of `bc_get` comes back, and if it succeeds leaves the block. -/
theorem bcGet_cases
    (usable : disk.Usable dev store segSz)
    (addr : Nat) :
    ∃ ret buf disk', bcGet dev addr disk = .ok ((ret, buf), disk') ∧
      disk'.Usable dev store segSz ∧
        (ret = 0 ∨ (ret ≠ 0 ∧
          ∃ ptr, buf = some ptr ∧ disk.Fetched disk' store addr ptr)) := by
  rcases usable.lists with ⟨cells, inv⟩
  have registered := usable.registered
  have fresh := usable.supplied disk .refl
  rcases inv.bcGet_spec addr registered fresh with
    ⟨ret, buf, cache, cells', returned, outcome, inv'⟩
  have legal : disk.cache.legal (.get (disk.replies 0) dev addr) :=
    ⟨⟨store, registered⟩, fresh⟩
  have last : (cacheSystem Segment).Step disk.cache
      (.get (disk.replies 0) dev addr) cache :=
    ⟨legal, Cache.step_get returned⟩
  have returned' := bcGet_eq returned
  refine ⟨ret, buf, _, returned', ?_, ?_⟩
  · refine ⟨usable.slot, ?_, usable.nonzero,
      usable.supplied.after ⟨dev, addr, _, ⟨store, registered⟩, returned'⟩,
      ⟨cells', inv'⟩⟩
    rw [storeSegSz_eq_ok_iff]
    show (cache.stores store).type.map disk.segSz = _
    rw [type_step inv last]
    exact storeSegSz_eq_ok_iff.mp usable.size
  · by_cases refused : ret = 0
    · exact .inl refused
    · right
      refine ⟨refused, ?_⟩
      have set : ∃ ptr, buf = some ptr := by
        cases outcome with
        | hit bc => exact ⟨_, rfl⟩
        | loaded => exact ⟨_, rfl⟩
        | _ => exact (refused rfl).elim
      rcases set with ⟨ptr, rfl⟩
      refine ⟨ptr, rfl, checkedOut_of_get outcome inv', ?_, ?_, ?_⟩
      · intro other old out
        exact ⟨out.step last (spares_of_served returned refused store other),
          out.buffer_step last trivial⟩
      · exact dev_of_served inv legal returned refused
      · exact fun mirrors => mirrors.get legal returned (.inl refused)

/-- A block which is in the cache is handed out. -/
theorem bcGet_hit
    (usable : disk.Usable dev store segSz)
    (out : CheckedOut store addr ptr disk.cache) :
    bcGet dev addr disk = .ok ((1, some ptr), disk.next) ∧
      disk.next.Usable dev store segSz := by
  have returned := bcGet_eq (out.bcGet_hit usable.slot (disk.replies 0))
  have size := storeSegSz_eq_ok_iff.mp usable.size
  refine ⟨returned, usable.slot, storeSegSz_eq_ok_iff.mpr size,
    usable.nonzero, ?_, usable.lists⟩
  exact usable.supplied.after
    ⟨dev, addr, _, ⟨store, usable.registered⟩, returned⟩

/-! ## The superblock -/

theorem getSb_cases (usable : disk.Usable dev store segSz) :
    (∃ disk', cached.getSb dev disk = .ok (none, disk')) ∨
      ∃ ptr disk', cached.getSb dev disk = .ok (some ptr, disk') ∧
        disk'.Usable dev store segSz ∧
          disk.Fetched disk' store (1024 / segSz) ptr := by
  rcases usable.bcGet_cases (1024 / segSz) with
    ⟨ret, buf, disk', returned, usable', outcome⟩
  have found := @Source.getSb_eq Disk cached dev store disk disk' segSz ret
    buf usable.slot usable.size usable.nonzero returned
  rcases outcome with refused | ⟨served, ptr, rfl, fetched⟩
  · rw [if_pos refused] at found
    exact .inl ⟨disk', found⟩
  · rw [if_neg served] at found
    exact .inr ⟨ptr, disk', found, usable', fetched⟩

theorem getSb_hit
    (usable : disk.Usable dev store segSz)
    (out : CheckedOut store (1024 / segSz) ptr disk.cache) :
    cached.getSb dev disk = .ok (some ptr, disk.next) := by
  have found := @Source.getSb_eq Disk cached dev store disk disk.next segSz 1
    (some ptr) usable.slot usable.size usable.nonzero
      (usable.bcGet_hit out).1
  rwa [if_neg (by decide)] at found

/-- With the superblock in the cache, the address of a block is computed. -/
theorem blk2lba_hit
    (usable : disk.Usable dev store segSz)
    (out : CheckedOut store (1024 / segSz) ptr disk.cache)
    (small : blkSz (disk.cache.buffer ptr) < 32)
    (blk : Nat) :
    cached.blk2lba dev blk disk =
      .ok (Source.segOfBlk (disk.cache.buffer ptr) segSz blk, disk.next) :=
  Source.blk2lba_eq usable.slot (usable.getSb_hit out) rfl small
    (usable.bcGet_hit out).2.size usable.nonzero

end Disk.Usable

/-- A superblock is found only on a store which can be divided by. -/
theorem usable_of_getSb
    (supplied : disk.Supplied)
    (lists : ∃ cells, CacheInv disk.cache cells)
    (returned : cached.getSb dev disk = .ok (some ptr, disk')) :
    ∃ store segSz, disk.Usable dev store segSz := by
  cases slot : getStoreById dev with
  | none =>
      rw [Source.getSb_missing slot] at returned
      cases returned
  | some store =>
      cases typed : (disk.cache.stores store).type with
      | none =>
          have faulted : cached.getSb dev disk = .error .null := by
            rw [Source.getSb, slot]
            exact run_bind_error (storeSegSz_missing typed)
          rw [faulted] at returned
          cases returned
      | some type =>
          have size := storeSegSz_eq typed
          refine ⟨store, disk.segSz type, slot, size, ?_, supplied, lists⟩
          intro zero
          have faulted : cached.getSb dev disk = .error .arithmetic := by
            rw [Source.getSb, slot]
            refine (run_bind_ok size).trans (run_bind_error ?_)
            rw [zero]
            exact run_lift_error (div_arithmetic 1024)
          rw [faulted] at returned
          cases returned

/-! ## The block group table -/

/--
The state in which the block group table has been found: the superblock and
the table are in the cache.
-/
structure Disk.Found
    (disk disk' : Disk)
    (dev : Int)
    (store : Fin maxStores)
    (segSz : Nat)
    (table : Table)
    (ptr : Nat) :
    Prop where
  usable : disk'.Usable dev store segSz
  computable : Computable table.sb
  superblock : CheckedOut store (1024 / segSz) ptr disk'.cache
  sb_eq : disk'.cache.buffer ptr = table.sb
  seg_eq : table.seg =
    Source.segOfBlk table.sb segSz (Source.tableBlk table.sb)
  out : CheckedOut store table.seg table.ptr disk'.cache
  dev_eq : ∀ j, (disk'.cache.stores j).dev = (disk.cache.stores j).dev
  mirrors : Mirrors disk.cache → Mirrors disk'.cache

namespace Disk.Usable

/-- How the search for the table ends. -/
theorem findTable_cases (usable : disk.Usable dev store segSz) :
    cached.findTable dev disk = .error .null ∨
      (cached.findTable dev disk = .error .arithmetic ∧
        ∃ ptr disk', cached.getSb dev disk = .ok (some ptr, disk') ∧
          ¬ Computable (disk'.cache.buffer ptr)) ∨
      (∃ disk', cached.findTable dev disk = .ok (none, disk')) ∨
      ∃ table ptr disk',
        cached.findTable dev disk = .ok (some table, disk') ∧
          disk.Found disk' dev store segSz table ptr := by
  rcases usable.getSb_cases with
    ⟨disk', null⟩ | ⟨ptr, fetched, found, usable', first⟩
  · exact .inl (Source.findTable_null null)
  · by_cases computable : Computable (fetched.cache.buffer ptr)
    · have out := first.out
      have located := usable'.blk2lba_hit out
        (Nat.lt_trans computable.2 (by decide))
        (Source.tableBlk (fetched.cache.buffer ptr))
      have shifted := (usable'.bcGet_hit out).2
      rcases shifted.bcGet_cases
        (Source.segOfBlk (fetched.cache.buffer ptr) segSz
          (Source.tableBlk (fetched.cache.buffer ptr))) with
        ⟨ret, buf, disk', returned, usable'', refused | ⟨served, table,
          rfl, second⟩⟩
      · subst refused
        exact .inr (.inr (.inl ⟨disk', Source.findTable_refused found rfl
          computable located returned⟩))
      · right; right; right
        have kept := second.keeps out
        refine ⟨_, ptr, disk', Source.findTable_eq found rfl computable
          located returned served, usable'', computable, kept.1, kept.2,
          rfl, second.out, ?_, ?_⟩
        · exact fun j => (second.dev_eq j).trans (first.dev_eq j)
        · exact fun mirrors => second.mirrors (first.mirrors mirrors)
    · exact .inr (.inl ⟨Source.findTable_arithmetic found rfl computable,
        ptr, fetched, found, computable⟩)

end Disk.Usable

/-- A call which finds a table leaves it in the cache. -/
theorem found_of_findTable
    {table : Table}
    (supplied : disk.Supplied)
    (lists : ∃ cells, CacheInv disk.cache cells)
    (slot : getStoreById dev = some store)
    (size : storeSegSz store disk = .ok (segSz, disk))
    (returned : cached.findTable dev disk = .ok (some table, disk')) :
    ∃ ptr, disk.Found disk' dev store segSz table ptr := by
  rcases Action.bind_eq_ok returned with ⟨sb, fetched, first, rest⟩
  cases sb with
  | none => cases rest
  | some sbPtr =>
      rcases usable_of_getSb supplied lists first with
        ⟨store', segSz', usable⟩
      have slot' := usable.slot
      rw [slot] at slot'
      cases slot'
      have size' := usable.size
      rw [size] at size'
      cases size'
      rcases usable.findTable_cases with
        null | ⟨faulted, _⟩ | ⟨_, absent⟩ | ⟨table', ptr, after, found, read⟩
      · rw [null] at returned
        cases returned
      · rw [faulted] at returned
        cases returned
      · rw [absent] at returned
        cases returned
      · rw [found] at returned
        cases returned
        exact ⟨ptr, read⟩

/-- The rest of the calls, up to the value of the last one. -/
theorem Disk.Found.findInode
    {table : Table}
    (found : disk.Found disk' dev store segSz table ptr)
    (returned : cached.findTable dev disk = .ok (some table, disk'))
    (id : Int)
    {contents : Segment}
    {lba : Nat}
    (contents_eq : contents = disk'.cache.buffer table.ptr)
    (lba_eq : lba = Source.segOfBlk table.sb segSz
      (Source.inodeBlk table.sb contents id)) :
    ∃ ret buf after, bcGet dev lba disk'.next = .ok ((ret, buf), after) ∧
      disk'.next.Usable dev store segSz ∧
      cached.findInode dev id disk = .ok (some (buf,
        size (Source.startByte table.sb contents id - lba * segSz)),
          after) := by
  subst contents_eq lba_eq
  have shifted := (found.usable.bcGet_hit found.superblock).2
  have small : blkSz (disk'.cache.buffer ptr) < 32 := by
    rw [found.sb_eq]
    exact Nat.lt_trans found.computable.2 (by decide)
  have located := found.usable.blk2lba_hit found.superblock small
    (Source.inodeBlk table.sb (disk'.cache.buffer table.ptr) id)
  rw [found.sb_eq] at located
  rcases shifted.bcGet_cases (Source.segOfBlk table.sb segSz
    (Source.inodeBlk table.sb (disk'.cache.buffer table.ptr) id)) with
    ⟨ret, buf, after, fetched, _⟩
  refine ⟨ret, buf, after, fetched, shifted, ?_⟩
  exact Source.findInode_eq returned (Source.locateInode_eq
    found.usable.slot rfl found.computable.2 located shifted.size) fetched

end

/-! ## A device which never fails -/

/-- Groups of eight inodes of 128 bytes, in blocks of 1024 bytes. -/
def smallSuperblock : Segment
  | 0 => 200
  | 40 => 8
  | 76 => 1
  | 88 => 128
  | _ => 0

/-- The inodes of the first group begin in this block. -/
def smallTable (blk : UInt8) : Segment
  | 8 => blk
  | _ => 0

/-- The device carries out every request, and `kalloc` provides new memory. -/
def healthyReplies (call : Nat) : Replies Segment :=
  ⟨fun _ => true, true, fun _ => 0, 2 * call + 1, 2 * call + 2⟩

/-- A device with this superblock, of which nothing is cached yet. -/
def healthyDisk (sb table : Segment) : Disk where
  cache :=
    { bcCachedCount := 0
      stores := fun _ =>
        ⟨some 0, fun addr => if addr = 2 then sb else table, 0⟩
      entry := fun _ => ⟨0, 0, 0⟩
      buffer := fun _ _ => 0
      held := ∅
      wrCalls := [] }
  replies := healthyReplies
  segSz := fun _ => 512

theorem healthyDisk_initial (sb table : Segment) :
    (healthyDisk sb table).cache.Initial :=
  ⟨rfl, fun _ => rfl, by simp [healthyDisk]⟩

/-- The memory in use after some calls, and the replies to come. -/
structure Provided
    (calls : Nat)
    (disk : Disk) :
    Prop where
  replies_eq : ∀ n, disk.replies n = healthyReplies (calls + n)
  used : ∀ ptr ∈ disk.cache.held, ptr ≤ 2 * calls
  lists : ∃ cells, CacheInv disk.cache cells

theorem Provided.fresh
    {calls : Nat}
    {disk : Disk}
    (provided : Provided calls disk) :
    (disk.replies 0).Fresh disk.cache := by
  rw [provided.replies_eq]
  constructor
  · intro used
    have bound : 2 * calls + 1 ≤ 2 * calls := provided.used _ used
    omega
  · intro used
    have bound : 2 * calls + 2 ≤ 2 * calls := provided.used _ used
    omega
  · intro same
    have same' : 2 * calls + 1 = 2 * calls + 2 := same
    omega

theorem Provided.fetch
    {calls : Nat}
    {disk disk' : Disk}
    (provided : Provided calls disk)
    (fetches : disk.Fetches disk') :
    Provided (calls + 1) disk' := by
  rcases fetches with ⟨dev, addr, result, ⟨store, registered⟩, returned⟩
  rcases provided.lists with ⟨cells, inv⟩
  rcases inv.bcGet_spec addr registered provided.fresh with
    ⟨ret, buf, cache, cells', returned', outcome, inv'⟩
  rw [bcGet_eq returned'] at returned
  cases returned
  refine ⟨fun n => ?_, fun ptr used => ?_, ⟨cells', inv'⟩⟩
  · show disk.replies (n + 1) = _
    rw [provided.replies_eq]
    congr 1
    omega
  · have inside := outcome.held_subset used
    rw [provided.replies_eq 0, Finset.mem_insert, Finset.mem_insert]
      at inside
    rcases inside with rfl | rfl | old
    · show 2 * calls + 2 ≤ _
      omega
    · show 2 * calls + 1 ≤ _
      omega
    · exact (provided.used ptr old).trans (by omega)

theorem healthyDisk_supplied (sb table : Segment) :
    (healthyDisk sb table).Supplied := by
  intro later fetches
  have provided : ∃ calls, Provided calls later := by
    induction fetches with
    | refl =>
        refine ⟨0, fun n => ?_, by simp [healthyDisk],
          ⟨_, (healthyDisk_initial sb table).inv⟩⟩
        rw [Nat.zero_add]
        rfl
    | tail _ last induction =>
        rcases induction with ⟨calls, provided⟩
        exact ⟨calls + 1, provided.fetch last⟩
  rcases provided with ⟨calls, provided⟩
  exact provided.fresh

/-- The state which an action leaves, if it comes back. -/
def stateAfter
    {α : Type}
    (disk : Disk) :
    Except Fault (α × Disk) → Disk
  | .ok (_, disk') => disk'
  | .error _ => disk

/-- The value which an action returns, if it comes back. -/
def valueOf {α : Type} : Except Fault (α × Disk) → Option α
  | .ok (value, _) => some value
  | .error _ => none

theorem returned_of_value
    {α : Type}
    (disk : Disk)
    {result : Except Fault (α × Disk)}
    {value : α}
    (returned : valueOf result = some value) :
    result = .ok (value, stateAfter disk result) := by
  cases result with
  | error fault => cases returned
  | ok pair =>
      cases returned
      rfl

/-- How an action ends, if it ends with a fault. -/
def faultOf {α : Type} : Except Fault α → Option Fault
  | .error fault => some fault
  | .ok _ => none

/-- A small file system. -/
def smallDisk (blk : UInt8) : Disk :=
  healthyDisk smallSuperblock (smallTable blk)

/-- The search for its group table. -/
def smallSearch (blk : UInt8) : Except Fault (Option Table × Disk) :=
  cached.findTable 0 (smallDisk blk)

/-- The table which a search has found. -/
def tableFound : Except Fault (Option Table × Disk) → Table
  | .ok (some table, _) => table
  | _ => ⟨fun _ => 0, 0, 0⟩

theorem returned_of_isSome
    (disk : Disk)
    {result : Except Fault (Option Table × Disk)}
    (found : (valueOf result).join.isSome) :
    result = .ok (some (tableFound result), stateAfter disk result) := by
  match result with
  | .error _ => cases found
  | .ok (none, _) => cases found
  | .ok (some _, _) => rfl

/-- A node which nothing has been filled into. -/
def emptyNode : FsNode := ⟨none, 0, .empty, 0, 0, 0, none⟩

end ForsKernel.Fs.Ext2
