import ForsKernel.Store.CacheRequests

/-!
# The cache in front of devices which answer

In `ForsKernel.Store.BufferCache` the devices reply what they like.  Here the
cache calls the functions of its store types, which run on a state of their
own.  If a device which reports success has done what it was asked for, and
has otherwise kept its blocks, then the cache goes through the same steps as
with the replies which the devices give.
-/

namespace ForsKernel.BufferCache

variable {β σ : Type*}

/--
The functions `wr` and `rd` of the store types, on the state of the devices.
What a call of `rd` finds in the buffer, and leaves there, goes with it.
-/
structure Devices (σ β : Type*) where
  wr : Fin maxStores → Nat → β → σ → Bool × σ
  rd : Fin maxStores → Nat → β → σ → (Bool × β) × σ

namespace Devices

variable (devices : Devices σ β)

/-- The loop of `bc_get` over the stores, which looks for a victim. -/
def uncache : List (Fin maxStores) → Cache β → σ → Option (Cache β × σ)
  | [], cache, state => some (cache, state)
  | i :: rest, cache, state =>
      let victim := cache.stores i
      let blk := victim.bcFirst
      if blk = 0 then
        uncache rest cache state
      else if victim.type = none then
        none
      else
        let saved := devices.wr i (cache.addr blk)
          (cache.buffer (cache.data blk)) state
        if saved.1 then
          some ((cache.setStore i
            { victim with bcFirst := cache.next blk }).kfree
              (cache.data blk), saved.2)
        else
          uncache rest cache saved.2

/-- `kalloc` returns the two pointers, which may be null. -/
def bcGet
    (entryPtr dataPtr : Nat)
    (id : Int)
    (addr : Nat)
    (cache : Cache β)
    (state : σ) :
    Option (Int × Option Nat × Cache β × σ) :=
  match getStoreById id with
  | none => some (0, none, cache, state)
  | some i =>
      (cache.lookup i addr).bind fun bc =>
        if bc ≠ 0 then
          some (1, some (cache.data bc), cache, state)
        else if cache.bcCachedCount = maxCachedBlocks then
          (devices.uncache (List.finRange maxStores) cache state).map
            fun uncached => (0, none, uncached.1, uncached.2)
        else if entryPtr = 0 then
          some (0, none, cache, state)
        else if (cache.stores i).type = none then
          none
        else if dataPtr = 0 then
          some (0, none, ((cache.kalloc entryPtr).setEntry entryPtr
            { cache.entry entryPtr with addr := addr, data := 0 }).kfree
              entryPtr, state)
        else
          let held := (cache.kalloc entryPtr).kalloc dataPtr
          let linked := held.link i addr entryPtr dataPtr
          let read := devices.rd i addr (linked.buffer dataPtr) state
          some (if read.1.1 then 1 else 0, some dataPtr,
            linked.edit dataPtr read.1.2, read.2)

def bcPut
    (id : Int)
    (addr : Nat)
    (cache : Cache β)
    (state : σ) :
    Option (Int × Cache β × σ) :=
  match getStoreById id with
  | none => some (-1, cache, state)
  | some i =>
      (cache.lookup i addr).bind fun bc =>
        if bc ≠ 0 then
          if (cache.stores i).type = none then none
          else
            let saved := devices.wr i addr (cache.buffer (cache.data bc))
              state
            some (if saved.1 then 1 else 0, cache, saved.2)
        else
          some (1, cache, state)

/-! ## The replies which the devices give -/

/-- The values of `wr` for the victims which are tried. -/
def wrReplies (cache : Cache β) :
    List (Fin maxStores) → σ → Fin maxStores → Bool
  | [], _ => fun _ => false
  | i :: rest, state =>
      let blk := (cache.stores i).bcFirst
      if blk = 0 then
        wrReplies cache rest state
      else
        let saved := devices.wr i (cache.addr blk)
          (cache.buffer (cache.data blk)) state
        Function.update (wrReplies cache rest saved.2) i saved.1

def getReplies
    (entryPtr dataPtr : Nat)
    (i : Fin maxStores)
    (addr : Nat)
    (cache : Cache β)
    (state : σ) :
    Replies β :=
  let read := devices.rd i addr (cache.buffer dataPtr) state
  { wr := devices.wrReplies cache (List.finRange maxStores) state
    rd := read.1.1
    garbage := read.1.2
    entryPtr := entryPtr
    dataPtr := dataPtr }

def putReplies
    (i : Fin maxStores)
    (addr : Nat)
    (cache : Cache β)
    (state : σ) :
    Replies β :=
  let bc := (cache.lookup i addr).getD 0
  { wr := fun _ =>
      (devices.wr i addr (cache.buffer (cache.data bc)) state).1
    rd := false
    garbage := cache.buffer 0
    entryPtr := 0
    dataPtr := 0 }

/-! ## What the devices hold -/

/--
The devices hold these blocks.  They are attached to some stores, for which
they take addresses within bounds; a call of `wr` or `rd` which reports success
has done what it was asked for, and no call does anything else.
-/
structure Hold
    (blocks : σ → Fin maxStores → Nat → β)
    (good : σ → Prop)
    (attached : Fin maxStores → Prop)
    (within : Nat → Prop) :
    Prop where
  wr_good : ∀ {state i addr}, good state → attached i → within addr →
    ∀ contents, good (devices.wr i addr contents state).2
  wr_blocks : ∀ {state i addr}, good state → attached i → within addr →
    ∀ contents, blocks (devices.wr i addr contents state).2 =
      if (devices.wr i addr contents state).1 then
        Function.update (blocks state) i
          (Function.update (blocks state i) addr contents)
      else blocks state
  rd_good : ∀ {state i addr}, good state → attached i → within addr →
    ∀ found, good (devices.rd i addr found state).2
  rd_blocks : ∀ {state i addr}, good state → attached i → within addr →
    ∀ found, blocks (devices.rd i addr found state).2 = blocks state
  rd_contents : ∀ {state i addr}, good state → attached i → within addr →
    ∀ found, (devices.rd i addr found state).1.1 = true →
      (devices.rd i addr found state).1.2 = blocks state i addr

end Devices

/-- The cache whose devices hold the blocks, with a log of their calls. -/
def Cache.shown
    (cache : Cache β)
    (blocks : Fin maxStores → Nat → β)
    (log : List (WrCall β)) :
    Cache β :=
  { cache with
    stores := fun j => { cache.stores j with dev := blocks j }
    wrCalls := log }

namespace Cache

variable
  (cache : Cache β)
  (blocks : Fin maxStores → Nat → β)
  (log : List (WrCall β))

theorem lookup_shown
    (i : Fin maxStores)
    (addr : Nat) :
    (cache.shown blocks log).lookup i addr = cache.lookup i addr :=
  rfl

/-- What a call of `wr` does to the blocks of its device. -/
theorem wr_shown
    (replies : Replies β)
    (i : Fin maxStores)
    (addr data : Nat) :
    ∃ log', (cache.shown blocks log).wr replies i addr data =
      cache.shown (if replies.wr i then
        Function.update blocks i
          (Function.update (blocks i) addr (cache.buffer data))
        else blocks) log' := by
  refine ⟨log ++ [⟨i, addr, cache.buffer data, replies.wr i⟩], ?_⟩
  rw [Cache.wr]
  split
  · rw [Cache.shown, Cache.setStore]
    have stores : Function.update
        (fun j => { cache.stores j with dev := blocks j }) i
        { cache.stores i with
          dev := Function.update (blocks i) addr (cache.buffer data) } =
        fun j => { cache.stores j with
          dev := Function.update blocks i (Function.update (blocks i) addr
            (cache.buffer data)) j } := by
      funext j
      by_cases same : j = i
      · rw [same, Function.update_self, Function.update_self]
      · rw [Function.update_of_ne same, Function.update_of_ne same]
    exact congrArg (fun stores => Cache.mk _ stores _ _ _ _) stores
  · rfl

/-- A list of entries can be taken over by either cache. -/
theorem dropFirst_shown
    (i : Fin maxStores)
    (ptr : Nat) :
    ((cache.shown blocks log).setStore i
      { (cache.shown blocks log).stores i with bcFirst := ptr }) =
        (cache.setStore i { cache.stores i with bcFirst := ptr }).shown
          blocks log := by
  have stores : Function.update
      (fun j => { cache.stores j with dev := blocks j }) i
      { cache.stores i with dev := blocks i, bcFirst := ptr } =
      fun j => { Function.update cache.stores i
        { cache.stores i with bcFirst := ptr } j with dev := blocks j } := by
    funext j
    by_cases same : j = i
    · rw [same, Function.update_self, Function.update_self]
    · rw [Function.update_of_ne same, Function.update_of_ne same]
  exact congrArg (fun stores => Cache.mk _ stores _ _ _ _) stores

theorem link_shown
    (i : Fin maxStores)
    (addr blk data : Nat) :
    (cache.shown blocks log).link i addr blk data =
      (cache.link i addr blk data).shown blocks log :=
  congrArg (fun linked : Cache β =>
      { linked with bcCachedCount := cache.bcCachedCount + 1 })
    ((cache.setEntry blk ⟨(cache.stores i).bcFirst, addr,
      data⟩).dropFirst_shown blocks log i blk)

/-- The store of a new entry still has its device. -/
theorem link_dev
    (i : Fin maxStores)
    (addr blk data : Nat) :
    ((cache.link i addr blk data).shown blocks log).stores i =
      { (cache.link i addr blk data).stores i with dev := blocks i } :=
  rfl

end Cache

/-- A store with entries is a candidate. -/
theorem Cache.uncache_cons
    (cache : Cache β)
    {i : Fin maxStores}
    (cached : (cache.stores i).bcFirst ≠ 0)
    (typed : (cache.stores i).type ≠ none)
    (replies : Replies β)
    (rest : List (Fin maxStores)) :
    Cache.uncache replies (i :: rest) cache =
      if replies.wr i then
        some ((((cache.wr replies i (cache.addr (cache.stores i).bcFirst)
          (cache.data (cache.stores i).bcFirst)).setStore i
            { (cache.wr replies i (cache.addr (cache.stores i).bcFirst)
              (cache.data (cache.stores i).bcFirst)).stores i with
              bcFirst := cache.next (cache.stores i).bcFirst }).kfree
                (cache.data (cache.stores i).bcFirst)))
      else
        Cache.uncache replies rest
          (cache.wr replies i (cache.addr (cache.stores i).bcFirst)
            (cache.data (cache.stores i).bcFirst)) := by
  rw [Cache.uncache]
  simp only [if_neg cached, if_neg typed]

namespace Devices.Hold

variable
  {devices : Devices σ β}
  {blocks : σ → Fin maxStores → Nat → β}
  {good : σ → Prop}
  {attached : Fin maxStores → Prop}
  {within : Nat → Prop}
  {cache : Cache β}
  {state : σ}

/-- Any victim of the cache can be saved to its device. -/
def Savable
    (attached : Fin maxStores → Prop)
    (within : Nat → Prop)
    (cache : Cache β) :
    Prop :=
  ∀ i, (cache.stores i).bcFirst ≠ 0 → (cache.stores i).type ≠ none →
    attached i ∧ within (cache.addr (cache.stores i).bcFirst)

/-- The loop over the victims is the one with the replies of the devices. -/
theorem uncache_shown
    (hold : devices.Hold blocks good attached within)
    (savable : Savable attached within cache)
    (replies : Replies β)
    {order : List (Fin maxStores)}
    (nodup : order.Nodup)
    (isGood : good state)
    (agree : ∀ i ∈ order, replies.wr i = devices.wrReplies cache order state i)
    (log : List (WrCall β)) :
    ∃ log', Cache.uncache replies order (cache.shown (blocks state) log) =
        (devices.uncache order cache state).map
          (fun uncached => uncached.1.shown (blocks uncached.2) log') ∧
      ∀ uncached ∈ devices.uncache order cache state, good uncached.2 := by
  induction order generalizing state log with
  | nil =>
      refine ⟨log, rfl, fun uncached ended => ?_⟩
      cases ended
      exact isGood
  | cons i rest induction =>
      have others := List.nodup_cons.mp nodup
      by_cases none_cached : (cache.stores i).bcFirst = 0
      · have agree' : ∀ j ∈ rest,
            replies.wr j = devices.wrReplies cache rest state j := by
          intro j member
          rw [agree j (List.mem_cons_of_mem i member), wrReplies,
            if_pos none_cached]
        rw [Cache.uncache, Devices.uncache]
        simp only [Cache.shown, none_cached, if_true]
        exact induction others.2 isGood agree' log
      by_cases untyped : (cache.stores i).type = none
      · rw [Cache.uncache, Devices.uncache]
        refine ⟨log, ?_, ?_⟩
        · simp only [Cache.shown, none_cached, untyped, if_true, if_false]
          rfl
        · simp only [none_cached, untyped, if_true, if_false]
          exact fun uncached ended => by cases ended
      -- the victim is tried, and the loop ends or goes on with the rest
      rcases savable i none_cached untyped with ⟨isAttached, inside⟩
      have replied : replies.wr i = (devices.wr i
          (cache.addr (cache.stores i).bcFirst)
          (cache.buffer (cache.data (cache.stores i).bcFirst)) state).1 := by
        rw [agree i List.mem_cons_self, wrReplies, if_neg none_cached]
        exact Function.update_self ..
      have written := hold.wr_blocks isGood isAttached inside
        (cache.buffer (cache.data (cache.stores i).bcFirst))
      have good' := hold.wr_good isGood isAttached inside
        (cache.buffer (cache.data (cache.stores i).bcFirst))
      rcases cache.wr_shown (blocks state) log replies i
        (cache.addr (cache.stores i).bcFirst)
        (cache.data (cache.stores i).bcFirst) with ⟨log', saved⟩
      rw [replied, ← written] at saved
      have called := (cache.shown (blocks state) log).uncache_cons
        none_cached untyped replies rest
      rw [called, replied, Devices.uncache]
      simp only [if_neg none_cached, if_neg untyped]
      have agree' : ∀ j ∈ rest, replies.wr j =
          devices.wrReplies cache rest (devices.wr i
            (cache.addr (cache.stores i).bcFirst)
            (cache.buffer (cache.data (cache.stores i).bcFirst))
            state).2 j := by
        intro j member
        have differs : j ≠ i := by
          rintro rfl
          exact others.1 member
        rw [agree j (List.mem_cons_of_mem i member), wrReplies,
          if_neg none_cached]
        exact Function.update_of_ne differs ..
      generalize devices.wr i (cache.addr (cache.stores i).bcFirst)
        (cache.buffer (cache.data (cache.stores i).bcFirst)) state = wrote at *
      by_cases ok : wrote.1 = true
      · rw [if_pos ok, if_pos ok]
        refine ⟨log', ?_, ?_⟩
        · have dropped := cache.dropFirst_shown (blocks wrote.2) log' i
            (cache.next (cache.stores i).bcFirst)
          rw [← saved] at dropped
          exact congrArg (fun dropped : Cache β => some (dropped.kfree
            (cache.data (cache.stores i).bcFirst))) dropped
        · rintro uncached ended
          cases ended
          exact good'
      · rw [if_neg ok, if_neg ok]
        have rest' := induction others.2 good' agree' log'
        rw [← saved] at rest'
        exact rest'

/-- `bc_get` does what it does with the replies of the devices. -/
theorem bcGet_shown
    (hold : devices.Hold blocks good attached within)
    (savable : Savable attached within cache)
    (isGood : good state)
    {id : Int}
    {i : Fin maxStores}
    (slot : getStoreById id = some i)
    (isAttached : attached i)
    {addr : Nat}
    (inside : within addr)
    (entryPtr dataPtr : Nat)
    (log : List (WrCall β)) :
    ∃ log', BufferCache.bcGet
        (devices.getReplies entryPtr dataPtr i addr cache state) id addr
        (cache.shown (blocks state) log) =
          (devices.bcGet entryPtr dataPtr id addr cache state).map
            (fun got => (got.1, got.2.1,
              got.2.2.1.shown (blocks got.2.2.2) log')) ∧
      ∀ got ∈ devices.bcGet entryPtr dataPtr id addr cache state,
        good got.2.2.2 := by
  simp only [BufferCache.bcGet, Devices.bcGet, slot, Cache.lookup_shown]
  cases found : cache.lookup i addr with
  | none => exact ⟨log, rfl, fun got none => by cases none⟩
  | some bc =>
      simp only [Option.bind_some]
      by_cases hit : bc ≠ 0
      · rw [if_pos hit, if_pos hit]
        refine ⟨log, rfl, fun got ended => ?_⟩
        cases ended
        exact isGood
      rw [if_neg hit, if_neg hit]
      by_cases full : cache.bcCachedCount = maxCachedBlocks
      · have full' : (cache.shown (blocks state) log).bcCachedCount =
            maxCachedBlocks := full
        rw [if_pos full, if_pos full']
        rcases hold.uncache_shown savable
          (devices.getReplies entryPtr dataPtr i addr cache state)
          (List.nodup_finRange maxStores) isGood (fun _ _ => rfl) log with
          ⟨log', same, good'⟩
        refine ⟨log', ?_, ?_⟩
        · rw [same]
          cases devices.uncache (List.finRange maxStores) cache state <;> rfl
        · intro got ended
          rcases Option.mem_map.mp ended with ⟨uncached, member, rfl⟩
          exact good' uncached member
      have room : ¬ (cache.shown (blocks state) log).bcCachedCount =
          maxCachedBlocks := full
      rw [if_neg full, if_neg room]
      by_cases noEntry : entryPtr = 0
      · have noEntry' : (devices.getReplies entryPtr dataPtr i addr cache
            state).entryPtr = 0 := noEntry
        rw [if_pos noEntry, if_pos noEntry']
        refine ⟨log, rfl, fun got ended => ?_⟩
        cases ended
        exact isGood
      have someEntry : ¬ (devices.getReplies entryPtr dataPtr i addr cache
          state).entryPtr = 0 := noEntry
      rw [if_neg noEntry, if_neg someEntry]
      by_cases untyped : (cache.stores i).type = none
      · have untyped' : ((cache.shown (blocks state) log).stores i).type =
            none := untyped
        rw [if_pos untyped, if_pos untyped']
        exact ⟨log, rfl, fun got none => by cases none⟩
      have typed : ¬ ((cache.shown (blocks state) log).stores i).type =
          none := untyped
      rw [if_neg untyped, if_neg typed]
      by_cases noData : dataPtr = 0
      · have noData' : (devices.getReplies entryPtr dataPtr i addr cache
            state).dataPtr = 0 := noData
        rw [if_pos noData, if_pos noData']
        refine ⟨log, rfl, fun got ended => ?_⟩
        cases ended
        exact isGood
      have someData : ¬ (devices.getReplies entryPtr dataPtr i addr cache
          state).dataPtr = 0 := noData
      rw [if_neg noData, if_neg someData]
      -- a new entry is filled by its device
      have same := hold.rd_blocks isGood isAttached inside
        (cache.buffer dataPtr)
      have contents := hold.rd_contents isGood isAttached inside
        (cache.buffer dataPtr)
      refine ⟨log, ?_, fun got ended => ?_⟩
      · have linked := ((cache.kalloc entryPtr).kalloc dataPtr).link_shown
          (blocks state) log i addr entryPtr dataPtr
        have filled : (if (devices.rd i addr (cache.buffer dataPtr)
            state).1.1 then blocks state i addr
              else (devices.rd i addr (cache.buffer dataPtr) state).1.2) =
            (devices.rd i addr (cache.buffer dataPtr) state).1.2 := by
          split
          · rename_i ok
            exact (contents ok).symm
          · rfl
        have loaded : ((((cache.kalloc entryPtr).kalloc dataPtr).link i addr
            entryPtr dataPtr).shown (blocks state) log).rd
              (devices.getReplies entryPtr dataPtr i addr cache state) i
              addr dataPtr =
            ((((cache.kalloc entryPtr).kalloc dataPtr).link i addr entryPtr
              dataPtr).edit dataPtr (devices.rd i addr
                (cache.buffer dataPtr) state).1.2).shown (blocks
                  (devices.rd i addr (cache.buffer dataPtr) state).2)
                  log := by
          rw [same, Cache.rd, Cache.link_dev, ← filled]
          rfl
        rw [← linked] at loaded
        exact congrArg (fun after => some (_, some dataPtr, after)) loaded
      · cases ended
        exact hold.rd_good isGood isAttached inside (cache.buffer dataPtr)

/-- `bc_put` likewise. -/
theorem bcPut_shown
    (hold : devices.Hold blocks good attached within)
    (isGood : good state)
    {id : Int}
    {i : Fin maxStores}
    (slot : getStoreById id = some i)
    {addr : Nat}
    (isAttached : (cache.stores i).type ≠ none → attached i)
    (inside : ∀ bc, cache.lookup i addr = some bc → bc ≠ 0 → within addr)
    (log : List (WrCall β)) :
    ∃ log', BufferCache.bcPut (devices.putReplies i addr cache state) id addr
        (cache.shown (blocks state) log) =
          (devices.bcPut id addr cache state).map
            (fun put => (put.1, put.2.1.shown (blocks put.2.2) log')) ∧
      ∀ put ∈ devices.bcPut id addr cache state, good put.2.2 := by
  simp only [BufferCache.bcPut, Devices.bcPut, slot, Cache.lookup_shown]
  cases found : cache.lookup i addr with
  | none => exact ⟨log, rfl, fun put none => by cases none⟩
  | some bc =>
      simp only [Option.bind_some]
      by_cases missing : bc = 0
      · rw [if_neg (not_not.mpr missing), if_neg (not_not.mpr missing)]
        refine ⟨log, rfl, fun put ended => ?_⟩
        cases ended
        exact isGood
      rw [if_pos missing, if_pos missing]
      by_cases untyped : (cache.stores i).type = none
      · have untyped' : ((cache.shown (blocks state) log).stores i).type =
            none := untyped
        rw [if_pos untyped, if_pos untyped']
        exact ⟨log, rfl, fun put none => by cases none⟩
      have typed : ¬ ((cache.shown (blocks state) log).stores i).type =
          none := untyped
      rw [if_neg untyped, if_neg typed]
      have written := hold.wr_blocks isGood (isAttached untyped)
        (inside bc found missing) (cache.buffer (cache.data bc))
      have good' := hold.wr_good isGood (isAttached untyped)
        (inside bc found missing) (cache.buffer (cache.data bc))
      have replied : (devices.putReplies i addr cache state).wr i =
          (devices.wr i addr (cache.buffer (cache.data bc)) state).1 := by
        rw [putReplies, found]
        rfl
      rcases cache.wr_shown (blocks state) log
        (devices.putReplies i addr cache state) i addr (cache.data bc) with
        ⟨log', saved⟩
      rw [replied, ← written] at saved
      refine ⟨log', ?_, fun put ended => ?_⟩
      · rw [Option.map_some, replied]
        exact congrArg (fun after => some (_, after)) saved
      · cases ended
        exact good'

end Devices.Hold

end ForsKernel.BufferCache
