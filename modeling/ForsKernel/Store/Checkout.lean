import ForsKernel.Store.CacheRequests

/-!
# Editing a block while others use the cache

A client gets a block, edits the buffer it was handed, and puts the block.
Meanwhile others get and put blocks, and a miss on the full cache may uncache
the very block which is being edited: its buffer is freed, and `bc_put` then
reports success without having written anything.  As long as no miss chooses
that block, the edit reaches the device.
-/

namespace ForsKernel.BufferCache

open ForsKernel.Lib.Transition

variable {β : Type*}

/-- The devices carry out every request. -/
structure Replies.Dependable (replies : Replies β) : Prop where
  wr_ok : ∀ i, replies.wr i = true
  rd_ok : replies.rd = true

namespace CacheOp

/-- The devices carry out everything this operation asks of them. -/
def Dependable : CacheOp β → Prop
  | .get replies _ _ => replies.Dependable
  | .put replies _ _ => replies.Dependable
  | .edit _ _ => True

/-- The operation does not write to the buffer. -/
def Leaves (ptr : Nat) : CacheOp β → Prop
  | .edit other _ => other ≠ ptr
  | _ => True

/--
The operation is not a miss on the full cache which uncaches the block.  The
block it would uncache is the first of the victim's list.
-/
def Spares
    (i : Fin maxStores)
    (addr : Nat)
    (cache : Cache β) :
    CacheOp β → Prop
  | .get replies id addr' =>
      ¬ (cache.bcCachedCount = maxCachedBlocks ∧
        (∃ j, getStoreById id = some j ∧
          cache.lookup j addr' = some 0) ∧
        cache.victim replies storeOrder = some i ∧
        cache.addr (cache.stores i).bcFirst = addr)
  | _ => True

end CacheOp

/-- The cache over devices which never fail. -/
def dependableSystem (β : Type*) : System (Cache β) (CacheOp β) :=
  (cacheSystem β).restrict fun _ op => op.Dependable

/--
A client gets block `addr` of the store in slot `i`, edits the buffer `ptr` it
was handed, and puts the block.  What others do in between meets `others`, and
nobody else writes to the buffer between the edit and the put.
-/
structure EditRun
    (others : Cache β → CacheOp β → Prop)
    (id : Int)
    (i : Fin maxStores)
    (addr ptr : Nat)
    (contents : β)
    (atEdit atPut after : Cache β)
    (ret : Int) :
    Prop where
  slot : getStoreById id = some i
  checkout : ∃ before replies got got_ret,
    (dependableSystem β).Reachable before ∧
      (dependableSystem β).legal before (.get replies id addr) ∧
      bcGet replies id addr before = some (got_ret, some ptr, got) ∧
      got_ret ≠ 0 ∧
      ∃ ops, ((dependableSystem β).restrict others).Run got ops atEdit
  untouched : ∃ ops,
    (((dependableSystem β).restrict others).restrict
      fun _ op => op.Leaves ptr).Run (atEdit.edit ptr contents) ops atPut
  putBack : ∃ replies,
    (dependableSystem β).legal atPut (.put replies id addr) ∧
      bcPut replies id addr atPut = some (ret, after)

/-- The buffer belongs to the entry of the block. -/
def CheckedOut
    (i : Fin maxStores)
    (addr ptr : Nat)
    (cache : Cache β) :
    Prop :=
  ∃ cells, CacheInv cache cells ∧
    ∃ bc ∈ cells i, cache.addr bc = addr ∧ cache.data bc = ptr

section

variable
  {i : Fin maxStores}
  {addr ptr : Nat}
  {cache cache' : Cache β}
  {op : CacheOp β}

theorem CheckedOut.held (out : CheckedOut i addr ptr cache) :
    ptr ∈ cache.held := by
  rcases out with ⟨cells, inv, bc, member, _, rfl⟩
  exact inv.data_held member

theorem CheckedOut.edit
    (out : CheckedOut i addr ptr cache)
    (other : Nat)
    (contents : β) :
    CheckedOut i addr ptr (cache.edit other contents) := by
  rcases out with ⟨cells, inv, bc, member, same, data⟩
  exact ⟨cells, inv.edit other contents, bc, member, same, data⟩

/-- A handed out buffer is the buffer of the block. -/
theorem checkedOut_of_get
    {cells cells' : Lists}
    {replies : Replies β}
    {ret : Int}
    (outcome : GetOutcome replies i addr cache cells ret (some ptr) cache'
      cells')
    (inv' : CacheInv cache' cells') :
    CheckedOut i addr ptr cache' := by
  cases outcome with
  | hit bc member same => exact ⟨cells, inv', bc, member, same, rfl⟩
  | loaded missing room =>
      refine ⟨_, inv', replies.entryPtr, ?_, ?_, ?_⟩
      · rw [Function.update_self]
        simp
      · rw [Cache.addr, Cache.load_entry_self]
      · rw [Cache.data, Cache.load_entry_self]

/-- Steps which spare the block keep it checked out. -/
theorem CheckedOut.step
    (out : CheckedOut i addr ptr cache)
    (last : (cacheSystem β).Step cache op cache')
    (spared : op.Spares i addr cache) :
    CheckedOut i addr ptr cache' := by
  rcases out with ⟨cells, inv, bc, member, same, data⟩
  rcases inv.step_outcome last with ⟨cells', outcome, inv'⟩
  refine ⟨cells', inv', bc, ?_⟩
  cases outcome with
  | @get replies id j addr' ret buf _ _ slot fresh returned outcome =>
      cases outcome with
      | hit => exact ⟨member, same, data⟩
      | stuck => exact ⟨member, same, data⟩
      | uncached calls k blk rest missing full victim first =>
          refine ⟨?_, same, data⟩
          by_cases chosen : i = k
          · subst chosen
            have head := inv.first_eq first
            have different : bc ≠ blk := by
              rintro rfl
              apply spared
              refine ⟨full, ⟨_, slot, inv.lookup_miss missing⟩, victim, ?_⟩
              rw [head]
              exact same
            rw [Function.update_self]
            rw [first] at member
            exact (List.mem_cons.mp member).resolve_left different
          · rwa [Function.update_of_ne chosen]
      | nomem entry _ _ _ old =>
          have kept : entry bc = cache.entry bc := old i bc member
          refine ⟨member, ?_, ?_⟩
          · rw [← same]
            exact congrArg BcEntry.addr kept
          · rw [← data]
            exact congrArg BcEntry.data kept
      | loaded =>
          have kept := cache.load_entry_of_ne replies j addr'
            (inv.ne_entryPtr fresh member)
          refine ⟨?_, ?_, ?_⟩
          · by_cases here : i = j
            · subst here
              rw [Function.update_self]
              exact List.mem_cons_of_mem _ member
            · rwa [Function.update_of_ne here]
          · rw [← same]
            exact congrArg BcEntry.addr kept
          · rw [← data]
            exact congrArg BcEntry.data kept
  | put slot outcome =>
      cases outcome with
      | saved =>
          refine ⟨member, ?_, ?_⟩
          · rw [← same, Cache.wr_addr]
          · rw [← data, Cache.wr_data]
      | absent => exact ⟨member, same, data⟩
  | edit => exact ⟨member, same, data⟩

/-- Nobody else writes to a buffer which is checked out. -/
theorem CheckedOut.buffer_step
    (out : CheckedOut i addr ptr cache)
    (last : (cacheSystem β).Step cache op cache')
    (leaves : op.Leaves ptr) :
    cache'.buffer ptr = cache.buffer ptr := by
  rcases out with ⟨cells, inv, bc, member, same, rfl⟩
  rcases inv.step_outcome last with ⟨cells', outcome, inv'⟩
  cases outcome with
  | get slot fresh returned outcome =>
      cases outcome with
      | hit => rfl
      | stuck => rfl
      | uncached => rfl
      | nomem => rfl
      | loaded =>
          exact cache.load_buffer_of_ne _ _ _
            (inv.data_ne_dataPtr fresh member)
  | put slot outcome =>
      cases outcome with
      | saved => rw [Cache.wr_buffer]
      | absent => rfl
  | edit => exact Function.update_of_ne leaves.symm ..

/-- A block which is checked out is written to its device. -/
theorem CheckedOut.put
    {replies : Replies β}
    {id : Int}
    {ret : Int}
    (out : CheckedOut i addr ptr cache)
    (slot : getStoreById id = some i)
    (registered : ∃ j, cache.Registered id j)
    (dependable : replies.Dependable)
    (returned : bcPut replies id addr cache = some (ret, cache')) :
    ret = 1 ∧ (cache'.stores i).dev addr = cache.buffer ptr := by
  rcases out with ⟨cells, inv, bc, member, same, rfl⟩
  rcases registered with ⟨j, slot', typed⟩
  rw [slot] at slot'
  cases slot'
  rcases inv.bcPut_spec replies addr ⟨slot, typed⟩ with
    ⟨ret', after, returned', outcome, _⟩
  rw [returned] at returned'
  cases returned'
  cases outcome with
  | saved bc' member' same' =>
      have equal : bc' = bc :=
        inv.addr_inj member' member (same'.trans same.symm)
      subst equal
      constructor
      · rw [if_pos (dependable.wr_ok i)]
      · exact cache.wr_dev_self _ _ (dependable.wr_ok i)
  | absent missing => exact (missing bc member same).elim

end

/-! ## The run of a client -/

/-- Along a run which spares the block, it stays checked out. -/
theorem checkedOut_run
    {i : Fin maxStores}
    {addr ptr : Nat}
    {source target : Cache β}
    {ops : List (CacheOp β)}
    (run : ((dependableSystem β).restrict
      fun cache op => op.Spares i addr cache).Run source ops target)
    (out : CheckedOut i addr ptr source) :
    CheckedOut i addr ptr target := by
  apply run.invariant out
  intro state op state' out last
  exact out.step last.of_restrict.of_restrict last.1.2

/--
If no miss on the full cache chooses the block which the client has checked
out, the put reports success and has written the edit to the device, and the
buffer was never freed: it is in use at the edit and at the put, for every run
of the others up to these points.
-/
theorem bc_put_keeps_edit
    {id : Int}
    {i : Fin maxStores}
    {addr ptr : Nat}
    {contents : β}
    {atEdit atPut after : Cache β}
    {ret : Int}
    (run : EditRun (fun cache op => op.Spares i addr cache) id i addr ptr
      contents atEdit atPut after ret) :
    ret = 1 ∧ (after.stores i).dev addr = contents ∧
      ptr ∈ atEdit.held ∧ ptr ∈ atPut.held := by
  rcases run.checkout with
    ⟨before, replies, got, gotRet, reachable, legal, returned, _, ops, first⟩
  rcases cacheInv_of_reachable reachable.of_restrict with ⟨cells, inv⟩
  have gotOut : CheckedOut i addr ptr got := by
    rcases legal with ⟨⟨⟨j, registered⟩, fresh⟩, _⟩
    have slot := registered.1
    rw [run.slot] at slot
    cases slot
    rcases inv.bcGet_spec addr registered fresh with
      ⟨ret', buf, got', cells', returned', outcome, inv'⟩
    rw [returned] at returned'
    cases returned'
    exact checkedOut_of_get outcome inv'
  have editOut : CheckedOut i addr ptr atEdit := checkedOut_run first gotOut
  rcases run.untouched with ⟨ops', second⟩
  have putOut : CheckedOut i addr ptr atPut :=
    checkedOut_run second.of_restrict (editOut.edit ptr contents)
  have kept : CheckedOut i addr ptr atPut ∧ atPut.buffer ptr = contents := by
    apply second.invariant
      ⟨editOut.edit ptr contents, Function.update_self ..⟩
    rintro state op state' ⟨out, buffer⟩ last
    refine ⟨out.step last.of_restrict.of_restrict.of_restrict last.1.1.2, ?_⟩
    rw [out.buffer_step last.of_restrict.of_restrict.of_restrict last.1.2]
    exact buffer
  rcases run.putBack with ⟨replies', ⟨registered, dependable⟩, put⟩
  rcases putOut.put run.slot registered dependable put with
    ⟨success, written⟩
  refine ⟨success, ?_, editOut.held, putOut.held⟩
  rw [written]
  exact kept.2

/-! ## Runs of one client on one store -/

instance (replies : Replies β) : Decidable replies.Dependable :=
  decidable_of_iff ((∀ i, replies.wr i = true) ∧ replies.rd = true)
    ⟨fun ⟨wr_ok, rd_ok⟩ => ⟨wr_ok, rd_ok⟩,
      fun dependable => ⟨dependable.wr_ok, dependable.rd_ok⟩⟩

instance : (op : CacheOp β) → Decidable op.Dependable
  | .get replies _ _ => inferInstanceAs (Decidable replies.Dependable)
  | .put replies _ _ => inferInstanceAs (Decidable replies.Dependable)
  | .edit _ _ => inferInstanceAs (Decidable True)

instance (ptr : Nat) : (op : CacheOp β) → Decidable (op.Leaves ptr)
  | .get _ _ _ => inferInstanceAs (Decidable True)
  | .put _ _ _ => inferInstanceAs (Decidable True)
  | .edit other _ => inferInstanceAs (Decidable (other ≠ ptr))

instance
    (i : Fin maxStores)
    (addr : Nat)
    (cache : Cache β) :
    (op : CacheOp β) → Decidable (op.Spares i addr cache)
  | .get replies id addr' => inferInstanceAs (Decidable
      (¬ (cache.bcCachedCount = maxCachedBlocks ∧
        (∃ j, getStoreById id = some j ∧
          cache.lookup j addr' = some 0) ∧
        cache.victim replies storeOrder = some i ∧
        cache.addr (cache.stores i).bcFirst = addr)))
  | .put _ _ _ => inferInstanceAs (Decidable True)
  | .edit _ _ => inferInstanceAs (Decidable True)

instance
    (cache : Cache β)
    (op : CacheOp β) :
    Decidable ((cacheSystem β).legal cache op) :=
  inferInstanceAs (Decidable (cache.legal op))

instance
    (cache : Cache β)
    (op : CacheOp β) :
    Decidable ((dependableSystem β).legal cache op) :=
  inferInstanceAs (Decidable
    (((cacheSystem β).restrict fun _ op => op.Dependable).legal cache op))

/-- Registered stores, whose devices hold the number of each block. -/
def blankCache : Cache Nat where
  bcCachedCount := 0
  stores := fun _ => ⟨some 0, id, 0⟩
  entry := fun _ => ⟨0, 0, 0⟩
  buffer := fun _ => 0
  held := ∅
  wrCalls := []

theorem blankCache_initial : blankCache.Initial :=
  ⟨rfl, fun _ => rfl, by decide⟩

/-- The devices obey and `kalloc` returns these pointers. -/
def obeying (entryPtr dataPtr : Nat) : Replies Nat where
  wr := fun _ => true
  rd := true
  garbage := 0
  entryPtr := entryPtr
  dataPtr := dataPtr

/-- The slot of the store with id 0. -/
def firstStore : Fin maxStores :=
  ⟨0, by decide⟩

/-- A client gets block 1 with the buffer 20. -/
def gotFirst : GetResult Nat :=
  (bcGet (obeying 10 20) 0 1 blankCache).get (by decide +kernel)

theorem gotFirst_returned :
    bcGet (obeying 10 20) 0 1 blankCache =
      some (1, some 20, gotFirst.2.2) := by
  have ret : gotFirst.1 = 1 := by decide +kernel
  have buf : gotFirst.2.1 = some 20 := by decide +kernel
  rw [← ret, ← buf, gotFirst, Option.some_get]

/-- Others get blocks 2 and 3, and the third block displaces the second. -/
def sparing : Cache Nat :=
  (((dependableSystem Nat).restrict fun cache op =>
      op.Spares firstStore 1 cache).replay gotFirst.2.2
    [.get (obeying 11 21) 0 2, .get (obeying 12 22) 0 3]).get
      (by decide +kernel)

/-- The put of block 1 after the client wrote 99 to its buffer. -/
def sparingPut : Int × Cache Nat :=
  (bcPut (obeying 0 0) 0 1 (sparing.edit 20 99)).get (by decide +kernel)

theorem sparing_editRun :
    EditRun (fun cache op => op.Spares firstStore 1 cache) 0 firstStore 1
      20 99 sparing (sparing.edit 20 99) sparingPut.2 sparingPut.1 := by
  constructor
  · decide +kernel
  · refine ⟨blankCache, obeying 10 20, gotFirst.2.2, 1,
      .start blankCache_initial, by decide +kernel, gotFirst_returned,
      by decide, _, System.run_of_replay (.nil _) (Option.some_get _).symm⟩
  · exact ⟨[], .nil _⟩
  · refine ⟨obeying 0 0, by decide +kernel, ?_⟩
    rw [Prod.mk.eta, sparingPut, Option.some_get]

theorem bc_put_keeps_edit_sparing :
    sparing.bcCachedCount = maxCachedBlocks ∧
      (sparingPut.2.stores firstStore).dev 1 = 99 :=
  ⟨by decide +kernel, (bc_put_keeps_edit sparing_editRun).2.1⟩

/-- Block 2 of the first store is cached. -/
def oneCached : Cache Nat :=
  ((dependableSystem Nat).replay blankCache
    [.get (obeying 10 20) 0 2]).get (by decide +kernel)

theorem oneCached_reachable :
    (dependableSystem Nat).Reachable oneCached :=
  System.reachable_of_replay blankCache_initial (Option.some_get _).symm

/-- A client gets block 1 with the buffer 21. -/
def gotSecond : GetResult Nat :=
  (bcGet (obeying 11 21) 0 1 oneCached).get (by decide +kernel)

theorem gotSecond_returned :
    bcGet (obeying 11 21) 0 1 oneCached =
      some (1, some 21, gotSecond.2.2) := by
  have ret : gotSecond.1 = 1 := by decide +kernel
  have buf : gotSecond.2.1 = some 21 := by decide +kernel
  rw [← ret, ← buf, gotSecond, Option.some_get]

/-- Somebody else gets block 3, which displaces block 1. -/
def displaced : Cache Nat :=
  (((dependableSystem Nat).restrict fun _ _ => True).replay gotSecond.2.2
    [.get (obeying 12 22) 0 3]).get (by decide +kernel)

/-- The put of block 1 after the client wrote 99 to its buffer. -/
def displacedPut : Int × Cache Nat :=
  (bcPut (obeying 0 0) 0 1 (displaced.edit 21 99)).get (by decide +kernel)

theorem displaced_editRun :
    EditRun (fun _ _ => True) 0 firstStore 1 21 99 displaced
      (displaced.edit 21 99) displacedPut.2 displacedPut.1 := by
  constructor
  · decide +kernel
  · refine ⟨oneCached, obeying 11 21, gotSecond.2.2, 1, oneCached_reachable,
      by decide +kernel, gotSecond_returned, by decide, _,
      System.run_of_replay (.nil _) (Option.some_get _).symm⟩
  · exact ⟨[], .nil _⟩
  · refine ⟨obeying 0 0, by decide +kernel, ?_⟩
    rw [Prod.mk.eta, displacedPut, Option.some_get]

/--
A third block displaces the one which the client is editing, and its put
reports success although the device still holds the old contents.
-/
theorem bc_put_loses_edit :
    ¬ ∀ (id : Int) (i : Fin maxStores) (addr ptr contents : Nat)
      (atEdit atPut after : Cache Nat) (ret : Int),
      EditRun (fun _ _ => True) id i addr ptr contents atEdit atPut after
        ret →
      ret = 1 → (after.stores i).dev addr = contents ∧
        ptr ∈ atEdit.held ∧ ptr ∈ atPut.held := by
  intro claim
  have success : displacedPut.1 = 1 := by decide +kernel
  have kept := claim _ _ _ _ _ _ _ _ _ displaced_editRun success
  exact absurd kept.1 (by decide +kernel)

end ForsKernel.BufferCache
