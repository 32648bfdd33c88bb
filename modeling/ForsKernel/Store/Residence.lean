import ForsKernel.Store.Coherence

/-!
# Blocks which stay in the cache

A block leaves the cache by a miss on the full cache only.  The counter of
the blocks is never taken back, so the cache stays full from then on and a
block which has left does not return.  A cache in which nothing is edited
holds what its devices hold.
-/

namespace ForsKernel.BufferCache

open ForsKernel.Lib.Transition

variable
  {β : Type*}
  {cache cache' : Cache β}
  {cells : Lists}
  {i j : Fin maxStores}
  {addr other ptr : Nat}
  {op : CacheOp β}
  {replies : Replies β}
  {id : Int}
  {ret : Int}
  {buf : Option Nat}

/-! ## Leaving the cache -/

/-- The block is not in the cache, which has no room for it. -/
def ShutOut
    (i : Fin maxStores)
    (addr : Nat)
    (cache : Cache β) :
    Prop :=
  ∃ cells, CacheInv cache cells ∧
    cache.bcCachedCount = maxCachedBlocks ∧
      ∀ bc ∈ cells i, cache.addr bc ≠ addr

/-- Nothing is ever loaded into the full cache. -/
theorem ShutOut.step
    (out : ShutOut i addr cache)
    (last : (cacheSystem β).Step cache op cache') :
    ShutOut i addr cache' := by
  rcases out with ⟨cells, inv, full, missing⟩
  rcases inv.step_outcome last with ⟨cells', outcome, inv'⟩
  refine ⟨cells', inv', ?_⟩
  cases outcome with
  | get slot fresh returned outcome =>
      cases outcome with
      | hit => exact ⟨full, missing⟩
      | stuck => exact ⟨full, missing⟩
      | uncached calls k blk rest _ _ victim first =>
          exact ⟨full, fun bc member =>
            missing bc (CacheInv.mem_of_mem_drop first member)⟩
      | nomem entry _ room => exact absurd full (Nat.ne_of_lt room)
      | loaded _ room => exact absurd full (Nat.ne_of_lt room)
  | put slot outcome =>
      cases outcome with
      | saved =>
          rw [Cache.wr_addr]
          refine ⟨?_, missing⟩
          rw [Cache.wr]
          split <;> exact full
      | absent => exact ⟨full, missing⟩
  | edit => exact ⟨full, missing⟩

/-- A block stays in the cache, or it leaves and the cache is full. -/
theorem CheckedOut.step_cases
    (out : CheckedOut i addr ptr cache)
    (last : (cacheSystem β).Step cache op cache') :
    CheckedOut i addr ptr cache' ∨ ShutOut i addr cache' := by
  by_cases spared : op.Spares i addr cache
  · exact .inl (out.step last spared)
  · right
    rcases out with ⟨cells, inv, bc, member, same, data⟩
    rcases inv.step_outcome last with ⟨cells', outcome, inv'⟩
    refine ⟨cells', inv', ?_⟩
    cases outcome with
    | put => exact (spared trivial).elim
    | edit => exact (spared trivial).elim
    | @get replies id k addr' ret buf _ _ slot fresh returned outcome =>
        have left := not_not.mp spared
        rcases left with ⟨full, ⟨k', slot', missed⟩, victim, first⟩
        rw [slot] at slot'
        cases slot'
        cases outcome with
        | hit bc' member' same' =>
            rw [inv.lookup_hit member' same'] at missed
            cases missed
            exact ((inv.chain k).ne_null 0 member' rfl).elim
        | stuck _ _ _ none_saved => rw [none_saved] at victim; cases victim
        | uncached calls v blk rest missing _ chosen front =>
            rw [chosen] at victim
            cases victim
            refine ⟨full, ?_⟩
            intro bc' member' same'
            rw [inv.first_eq front] at first
            have equal : bc' = blk := inv.addr_inj
              (CacheInv.mem_of_mem_drop front member') (by simp [front])
              (same'.trans first.symm)
            subst equal
            exact inv.not_mem_drop front _ member'
        | nomem _ _ room => exact absurd full (Nat.ne_of_lt room)
        | loaded _ room => exact absurd full (Nat.ne_of_lt room)

/-- Stores keep their types. -/
theorem type_step
    (inv : CacheInv cache cells)
    (last : (cacheSystem β).Step cache op cache')
    (j : Fin maxStores) :
    (cache'.stores j).type = (cache.stores j).type := by
  rcases inv.step_outcome last with ⟨cells', outcome, _⟩
  cases outcome with
  | @get replies id i addr ret buf _ _ slot fresh returned outcome =>
      cases outcome with
      | hit => rfl
      | stuck => rfl
      | uncached calls k =>
          show ((cache.dropFirst k).stores j).type = _
          by_cases here : j = k
          · subst here
            rw [Cache.dropFirst_stores_self]
          · rw [Cache.dropFirst_stores_of_ne _ here]
      | nomem => rfl
      | loaded => exact Cache.load_type ..
  | @put replies id i addr ret _ slot outcome =>
      cases outcome with
      | saved bc =>
          by_cases ok : replies.wr i
          · by_cases here : j = i
            · subst here
              simp [Cache.wr, ok, Cache.setStore]
            · simp [Cache.wr, ok, Cache.setStore, here]
          · rw [cache.wr_refused _ _ ok]
      | absent => rfl
  | edit => rfl

/-! ## Getting a block -/

theorem CheckedOut.bcGet_hit
    (out : CheckedOut i addr ptr cache)
    (slot : getStoreById id = some i)
    (replies : Replies β) :
    bcGet replies id addr cache = some (1, some ptr, cache) := by
  rcases out with ⟨cells, inv, bc, member, same, rfl⟩
  have found := inv.lookup_hit member same
  have notNull := (inv.chain i).ne_null bc member
  simp [bcGet, slot, found, notNull]

/-- A block which is shut out is refused. -/
theorem ShutOut.bcGet
    (out : ShutOut i addr cache)
    (slot : getStoreById id = some i)
    (replies : Replies β) :
    ∃ cache', bcGet replies id addr cache = some (0, none, cache') := by
  rcases out with ⟨cells, inv, full, missing⟩
  rcases inv.uncache_eq replies storeOrder with ⟨calls, unfolded⟩
  rw [storeOrder] at unfolded
  have missed := inv.lookup_miss missing
  simp only [BufferCache.bcGet, slot, missed, Option.bind_some, ne_eq,
    not_true_eq_false, if_false, full, if_true, unfolded, Option.map_some]
  exact ⟨_, rfl⟩

/-- A call which succeeds uncaches nothing. -/
theorem spares_of_served
    (returned : bcGet replies id addr cache = some (ret, buf, cache'))
    (served : ret ≠ 0)
    (i : Fin maxStores)
    (other : Nat) :
    (CacheOp.get replies id addr).Spares i other cache := by
  rintro ⟨full, ⟨j, slot, missed⟩, -⟩
  simp only [bcGet, slot, missed, Option.bind_some, ne_eq,
    not_true_eq_false, if_false, full, if_true,
    Option.map_eq_some_iff] at returned
  rcases returned with ⟨_, _, refused⟩
  cases refused
  exact served rfl

/-- Only the memory for a new entry and its buffer comes into use. -/
theorem GetOutcome.held_subset
    {cells' : Lists}
    (outcome : GetOutcome replies i addr cache cells ret buf cache' cells') :
    cache'.held ⊆
      insert replies.dataPtr (insert replies.entryPtr cache.held) := by
  intro ptr used
  have old (old : ptr ∈ cache.held) :
      ptr ∈ insert replies.dataPtr (insert replies.entryPtr cache.held) :=
    Finset.mem_insert_of_mem (Finset.mem_insert_of_mem old)
  cases outcome with
  | loaded => exact used
  | uncached => exact old (Finset.mem_of_mem_erase used)
  | _ => exact old used

/-- With two blocks of a store in the cache there is no room for a third. -/
theorem shutOut_of_two
    {ptr' third : Nat}
    (out : CheckedOut i addr ptr cache)
    (out' : CheckedOut i other ptr' cache)
    (apart : addr ≠ other)
    (new : third ≠ addr)
    (new' : third ≠ other) :
    ShutOut i third cache := by
  rcases out with ⟨cells, inv, bc, member, same, _⟩
  rcases out' with ⟨cells', inv', bc', member', same', _⟩
  rw [← inv'.entries_eq, inv.entries_eq] at member'
  have here : addr ∈ (cells i).map cache.addr :=
    List.mem_map.mpr ⟨bc, member, same⟩
  have here' : other ∈ (cells i).map cache.addr :=
    List.mem_map.mpr ⟨bc', member', same'⟩
  have fits {blocks : List Nat} (nodup : blocks.Nodup)
      (all : blocks ⊆ (cells i).map cache.addr) :
      blocks.length ≤ cache.bcCachedCount :=
    calc blocks.length
        ≤ ((cells i).map cache.addr).length :=
          (nodup.subperm all).length_le
      _ = (cells i).length := List.length_map _
      _ ≤ Lists.total cells := Lists.length_le_total cells i
      _ ≤ cache.bcCachedCount := inv.counted
  have bounded := inv.bounded
  refine ⟨cells, inv, ?_, ?_⟩
  · have two := @fits [addr, other] (by simp [apart])
      (by simp [here, here'])
    exact Nat.le_antisymm bounded two
  · intro bc'' member'' same''
    have here'' : third ∈ (cells i).map cache.addr :=
      List.mem_map.mpr ⟨bc'', member'', same''⟩
    have three := @fits [third, addr, other] (by simp [apart, new, new'])
      (by simp [here, here', here''])
    exact absurd (three.trans bounded) (by simp [maxCachedBlocks])

/-! ## A cache in which nothing is edited -/

/-- The operation loads a block as it is on its device, or saves one. -/
def CacheOp.Loads : CacheOp β → Prop
  | .get replies _ _ => replies.rd = true
  | .put _ _ _ => True
  | .edit _ _ => False

instance : (op : CacheOp β) → Decidable op.Loads
  | .get replies _ _ => inferInstanceAs (Decidable (replies.rd = true))
  | .put _ _ _ => inferInstanceAs (Decidable True)
  | .edit _ _ => inferInstanceAs (Decidable False)

/-- The cache over devices which can be read, and which nobody edits. -/
def loadingSystem (β : Type*) : System (Cache β) (CacheOp β) :=
  (cacheSystem β).restrict fun _ op => op.Loads

/-- No block has been edited, and all of them have been read. -/
def untouched (cache : Cache β) : Session β where
  cache := cache
  lastEdit := fun _ _ => none
  unread := fun _ _ => false

/-- Every block in the cache is as it is on its device. -/
def Mirrors (cache : Cache β) : Prop :=
  ∃ cells, Coherent (untouched cache) cells

theorem Mirrors.buffer_eq
    (mirrors : Mirrors cache)
    (out : CheckedOut i addr ptr cache) :
    cache.buffer ptr = (cache.stores i).dev addr := by
  rcases mirrors with ⟨cells, coherent⟩
  rcases out with ⟨cells', inv, bc, member, rfl, rfl⟩
  have inv' : CacheInv cache cells := coherent.inv
  rw [← inv.entries_eq, inv'.entries_eq] at member
  exact coherent.holds i bc member rfl

theorem afterGet_untouched
    {id : Int}
    {result : GetResult β}
    (kept : result.1 ≠ 0 ∨ result.2.2.bcCachedCount = cache.bcCachedCount) :
    (untouched cache).afterGet id addr result = untouched result.2.2 := by
  rw [Session.afterGet]
  split
  · rfl
  · rename_i added
    have served : (result.1 == 0) = false := by
      simpa using kept.resolve_right added
    cases getStoreById id with
    | none => rfl
    | some i =>
        simp only [Session.enter, served, untouched, ite_self]

/-- A block which is loaded is as on its device. -/
theorem Mirrors.get
    (mirrors : Mirrors cache)
    (legal : cache.legal (.get replies id addr))
    (returned : bcGet replies id addr cache = some (ret, buf, cache'))
    (read : ret ≠ 0 ∨ replies.rd = true) :
    Mirrors cache' := by
  rcases mirrors with ⟨cells, coherent⟩
  rcases legal with ⟨⟨i, registered⟩, fresh⟩
  have inv : CacheInv cache cells := coherent.inv
  rcases inv.bcGet_spec addr registered fresh with
    ⟨ret', buf', after, cells', returned', outcome, inv'⟩
  rw [returned] at returned'
  cases returned'
  refine ⟨cells', ?_⟩
  have kept : ret ≠ 0 ∨ cache'.bcCachedCount = cache.bcCachedCount := by
    rcases read with served | read
    · exact .inl served
    · cases outcome with
      | loaded => exact .inl (by simp [read])
      | _ => exact .inr rfl
  rw [← @afterGet_untouched β cache addr id (ret, buf, cache') kept]
  exact coherent.get registered.1 fresh outcome inv'

theorem mirrors_of_reachable
    (reachable : (loadingSystem β).Reachable cache) : Mirrors cache := by
  apply reachable.invariant
  · intro start initial
    exact ⟨fun _ => [], initial.inv, by simp⟩
  · rintro source op target mirrors ⟨⟨legal, loads⟩, stepped⟩
    cases op with
    | get replies id addr =>
        rcases Option.map_eq_some_iff.mp stepped with
          ⟨⟨ret, buf, after⟩, returned, rfl⟩
        exact mirrors.get legal returned (.inr loads)
    | put replies id addr =>
        rcases mirrors with ⟨cells, coherent⟩
        rcases Option.map_eq_some_iff.mp stepped with
          ⟨⟨ret, after⟩, returned, rfl⟩
        have last : (sessionSystem β).Step (untouched source)
            (.put replies id addr) (untouched after) := by
          refine ⟨legal, ?_⟩
          show (bcPut replies id addr source).map _ = _
          rw [returned, Option.map_some]
          rfl
        exact coherent.step last
    | edit => exact loads.elim

/-- A call which succeeds writes to no device. -/
theorem dev_of_served
    (inv : CacheInv cache cells)
    (legal : cache.legal (.get replies id addr))
    (returned : bcGet replies id addr cache = some (ret, buf, cache'))
    (served : ret ≠ 0)
    (j : Fin maxStores) :
    (cache'.stores j).dev = (cache.stores j).dev := by
  rcases legal with ⟨⟨i, registered⟩, fresh⟩
  rcases inv.bcGet_spec addr registered fresh with
    ⟨ret', buf', after, cells', returned', outcome, _⟩
  rw [returned] at returned'
  cases returned'
  cases outcome with
  | hit => rfl
  | loaded => exact Cache.load_dev ..
  | _ => exact (served rfl).elim

end ForsKernel.BufferCache
