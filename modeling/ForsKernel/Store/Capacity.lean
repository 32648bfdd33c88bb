import ForsKernel.Store.Checkout

/-!
# Capacity of the buffer cache

A sequence of `bc_get` calls over devices and a heap which never fail.  A miss
on the full cache uncaches a block, and then the call leaves the function with
the error of the search that found nothing, so the block asked for is never
loaded.  Every call is served just when the sequence asks for no more blocks
than the cache holds.
-/

namespace ForsKernel.BufferCache

variable {β : Type*}

/-- A call of `bc_get`. -/
structure GetRequest (β : Type*) where
  replies : Replies β
  id : Int
  addr : Nat

/-- The devices and the heap carry out every request. -/
structure Replies.Willing (replies : Replies β) : Prop where
  dependable : replies.Dependable
  entry_ok : replies.entryPtr ≠ 0
  data_ok : replies.dataPtr ≠ 0

/--
The requests name registered stores, and at each of them `kalloc` provides
memory which is not in use.
-/
def Permitted : Cache β → List (GetRequest β) → Prop
  | _, [] => True
  | cache, request :: rest =>
      (∃ i, cache.Registered request.id i) ∧
        request.replies.Fresh cache ∧ request.replies.Willing ∧
          ∀ result ∈ bcGet request.replies request.id request.addr cache,
            Permitted result.2.2 rest

/-- The block has an entry in the list of its store. -/
def Cache.Caches
    (cache : Cache β)
    (id : Int)
    (addr : Nat) :
    Prop :=
  ∃ i, getStoreById id = some i ∧
    ∃ bc ∈ cache.entries i, cache.addr bc = addr

/--
What a call of `bc_get` should do: succeed, keep the counter equal to the
number of entries, and on a full cache replace one block by the one asked for.
-/
structure Served
    (cache : Cache β)
    (id : Int)
    (addr : Nat)
    (ret : Int)
    (cache' : Cache β) :
    Prop where
  success : ret ≠ 0
  counted : cache'.bcCachedCount = ∑ i, (cache'.entries i).length
  bounded : cache'.bcCachedCount ≤ maxCachedBlocks
  replaced : cache.bcCachedCount = maxCachedBlocks →
    ¬ cache.Caches id addr → ∃ victimId victimAddr,
      cache.Caches victimId victimAddr ∧ ∀ otherId otherAddr,
        cache'.Caches otherId otherAddr ↔
          (otherId = id ∧ otherAddr = addr) ∨
            (cache.Caches otherId otherAddr ∧
              ¬ (otherId = victimId ∧ otherAddr = victimAddr))

/-- Every call returns and is served. -/
def AllServed : Cache β → List (GetRequest β) → Prop
  | _, [] => True
  | cache, request :: rest =>
      ∃ ret buf cache',
        bcGet request.replies request.id request.addr cache =
            some (ret, buf, cache') ∧
          Served cache request.id request.addr ret cache' ∧
            AllServed cache' rest

/-- The blocks which a sequence asks for. -/
def blocksAsked (requests : List (GetRequest β)) : Finset (Int × Nat) :=
  (requests.map fun request => (request.id, request.addr)).toFinset

/-- The cache holds exactly the blocks asked for so far. -/
structure Tracks
    (cache : Cache β)
    (cells : Lists)
    (asked : Finset (Int × Nat)) :
    Prop where
  inv : CacheInv cache cells
  exact : cache.bcCachedCount = Lists.total cells
  card : asked.card = cache.bcCachedCount
  mem_iff : ∀ id addr, (id, addr) ∈ asked ↔
    ∃ i, getStoreById id = some i ∧ ∃ bc ∈ cells i, cache.addr bc = addr

/-- Slots determine the ids. -/
theorem getStoreById_inj
    {id id' : Int}
    {i : Fin maxStores}
    (slot : getStoreById id = some i)
    (slot' : getStoreById id' = some i) :
    id = id' := by
  have value : ∀ {id : Int}, getStoreById id = some i → id = i := by
    intro id slot
    rw [getStoreById] at slot
    split at slot
    · cases slot
    · rename_i inside
      cases slot
      have positive : 0 ≤ id := by omega
      exact (Int.toNat_of_nonneg positive).symm
  exact (value slot).trans (value slot').symm

theorem Cache.Initial.tracks
    {cache : Cache β}
    (initial : cache.Initial) :
    Tracks cache (fun _ => []) ∅ := by
  refine ⟨initial.inv, ?_, ?_, ?_⟩
  · simp [Lists.total, initial.count_eq]
  · simp [initial.count_eq]
  · simp

namespace Tracks

variable
  {cache cache' : Cache β}
  {cells cells' : Lists}
  {asked : Finset (Int × Nat)}
  {replies : Replies β}
  {id : Int}
  {i : Fin maxStores}
  {addr : Nat}

/-- A load adds the block to those which the cache holds. -/
theorem load
    (tracks : Tracks cache cells asked)
    (fresh : replies.Fresh cache)
    (slot : getStoreById id = some i)
    (missing : ∀ bc ∈ cells i, cache.addr bc ≠ addr)
    (inv' : CacheInv (cache.load replies i addr)
      (Function.update cells i (replies.entryPtr :: cells i))) :
    Tracks (cache.load replies i addr)
      (Function.update cells i (replies.entryPtr :: cells i))
      (insert (id, addr) asked) := by
  have notAsked : (id, addr) ∉ asked := by
    rw [tracks.mem_iff]
    rintro ⟨j, slot', bc, member, same⟩
    rw [slot] at slot'
    cases slot'
    exact missing bc member same
  refine ⟨inv', ?_, ?_, ?_⟩
  · have total := Lists.total_update cells i (replies.entryPtr :: cells i)
    have exact := tracks.exact
    rw [List.length_cons] at total
    rw [Cache.load_bcCachedCount]
    omega
  · rw [Finset.card_insert_of_notMem notAsked, tracks.card,
      Cache.load_bcCachedCount]
  · intro otherId otherAddr
    rw [Finset.mem_insert, tracks.mem_iff]
    constructor
    · rintro (same | ⟨j, slot', bc, member, same⟩)
      · cases same
        refine ⟨i, slot, replies.entryPtr, by simp, ?_⟩
        rw [Cache.addr, Cache.load_entry_self]
      · refine ⟨j, slot', bc, ?_, ?_⟩
        · by_cases here : j = i
          · subst here
            rw [Function.update_self]
            exact List.mem_cons_of_mem _ member
          · rwa [Function.update_of_ne here]
        · rw [← same, Cache.addr, cache.load_entry_of_ne replies i addr
            (tracks.inv.ne_entryPtr fresh member), ← Cache.addr]
    · rintro ⟨j, slot', bc, member, same⟩
      rcases CacheInv.mem_load member with ⟨rfl, rfl⟩ | old
      · rw [Cache.addr, Cache.load_entry_self] at same
        left
        rw [← same, getStoreById_inj slot slot']
      · right
        refine ⟨j, slot', bc, old, ?_⟩
        rw [← same, Cache.addr, Cache.addr, cache.load_entry_of_ne replies i
          addr (tracks.inv.ne_entryPtr fresh old)]

/-- A call is served, or it is a miss on the full cache and fails. -/
theorem bcGet_cases
    (tracks : Tracks cache cells asked)
    (registered : cache.Registered id i)
    (fresh : replies.Fresh cache)
    (willing : replies.Willing) :
    ∃ ret buf cache',
      bcGet replies id addr cache = some (ret, buf, cache') ∧
        ((Served cache id addr ret cache' ∧ ∃ cells',
            Tracks cache' cells' (insert (id, addr) asked)) ∨
          (ret = 0 ∧ (id, addr) ∉ asked ∧
            asked.card = maxCachedBlocks)) := by
  have inv := tracks.inv
  rcases inv.bcGet_spec addr registered fresh with
    ⟨ret, buf, cache', cells', returned, outcome, inv'⟩
  refine ⟨ret, buf, cache', returned, ?_⟩
  have notAsked (missing : ∀ bc ∈ cells i, cache.addr bc ≠ addr) :
      (id, addr) ∉ asked := by
    rw [tracks.mem_iff]
    rintro ⟨j, slot, bc, member, same⟩
    rw [registered.1] at slot
    cases slot
    exact missing bc member same
  cases outcome with
  | hit bc member same =>
      left
      have here : (id, addr) ∈ asked :=
        (tracks.mem_iff id addr).mpr ⟨i, registered.1, bc, member, same⟩
      refine ⟨⟨by decide, ?_, inv.bounded, ?_⟩, cells, ?_⟩
      · rw [inv.entries_eq]
        exact tracks.exact
      · intro _ missing
        refine (missing ⟨i, registered.1, bc, ?_, same⟩).elim
        rw [inv.entries_eq]
        exact member
      · rwa [Finset.insert_eq_of_mem here]
  | stuck calls missing full =>
      exact .inr ⟨rfl, notAsked missing, tracks.card.trans full⟩
  | uncached calls j blk rest missing full =>
      exact .inr ⟨rfl, notAsked missing, tracks.card.trans full⟩
  | nomem entry missing room refused =>
      rcases refused with entryNull | dataNull
      · exact (willing.entry_ok entryNull).elim
      · exact (willing.data_ok dataNull).elim
  | loaded missing room =>
      left
      have tracks' := tracks.load fresh registered.1 missing inv'
      refine ⟨⟨?_, ?_, inv'.bounded, ?_⟩, _, tracks'⟩
      · rw [if_pos willing.dependable.rd_ok]
        decide
      · rw [inv'.entries_eq]
        exact tracks'.exact
      · intro full
        omega

end Tracks

/-- The calls are served as long as they ask for few enough blocks. -/
theorem allServed_iff
    {cache : Cache β}
    {cells : Lists}
    {asked : Finset (Int × Nat)}
    {requests : List (GetRequest β)}
    (tracks : Tracks cache cells asked)
    (permitted : Permitted cache requests) :
    AllServed cache requests ↔
      (asked ∪ blocksAsked requests).card ≤ maxCachedBlocks := by
  induction requests generalizing cache cells asked with
  | nil =>
      have bounded := tracks.inv.bounded
      rw [← tracks.card] at bounded
      simpa [AllServed, blocksAsked] using bounded
  | cons request rest induction =>
      rcases permitted with ⟨⟨i, registered⟩, fresh, willing, later⟩
      have union : asked ∪ blocksAsked (request :: rest) =
          insert (request.id, request.addr) asked ∪ blocksAsked rest := by
        simp [blocksAsked, Finset.union_insert, Finset.insert_union]
      rw [union]
      rcases tracks.bcGet_cases registered fresh willing with
        ⟨ret, buf, cache', returned, outcome⟩
      rcases outcome with ⟨served, cells', tracks'⟩ | ⟨failed, new, full⟩
      · rw [← induction tracks' (later (ret, buf, cache') returned)]
        constructor
        · rintro ⟨ret', buf', after, returned', _, rest'⟩
          rw [returned] at returned'
          cases returned'
          exact rest'
        · intro rest'
          exact ⟨ret, buf, cache', returned, served, rest'⟩
      · constructor
        · rintro ⟨ret', buf', after, returned', served, _⟩
          rw [returned] at returned'
          cases returned'
          exact (served.success failed).elim
        · intro few
          have more : asked.card + 1 ≤ maxCachedBlocks := by
            rw [← Finset.card_insert_of_notMem new]
            exact (Finset.card_le_card
              Finset.subset_union_left).trans few
          omega

/--
From an empty cache every call of a sequence is served if and only if the
sequence asks for at most `MAX_CACHED_BLOCKS` different blocks.
-/
theorem bc_get_all_served_iff
    {cache : Cache β}
    {requests : List (GetRequest β)}
    (initial : cache.Initial)
    (permitted : Permitted cache requests) :
    AllServed cache requests ↔
      (blocksAsked requests).card ≤ maxCachedBlocks := by
  have served := allServed_iff initial.tracks permitted
  rwa [Finset.empty_union] at served

instance (replies : Replies β) : Decidable replies.Willing :=
  decidable_of_iff
    (replies.Dependable ∧ replies.entryPtr ≠ 0 ∧ replies.dataPtr ≠ 0)
    ⟨fun ⟨dependable, entry_ok, data_ok⟩ => ⟨dependable, entry_ok, data_ok⟩,
      fun willing => ⟨willing.dependable, willing.entry_ok,
        willing.data_ok⟩⟩

instance decidablePermitted : (cache : Cache β) →
    (requests : List (GetRequest β)) → Decidable (Permitted cache requests)
  | _, [] => inferInstanceAs (Decidable True)
  | cache, request :: rest =>
      have _later (after : Cache β) : Decidable (Permitted after rest) :=
        decidablePermitted after rest
      inferInstanceAs (Decidable ((∃ i, cache.Registered request.id i) ∧
        request.replies.Fresh cache ∧ request.replies.Willing ∧
          ∀ result ∈ bcGet request.replies request.id request.addr cache,
            Permitted result.2.2 rest))

/-- Two blocks of one store, and the first of them again. -/
def twoBlocks : List (GetRequest Nat) :=
  [⟨obeying 10 20, 0, 1⟩, ⟨obeying 11 21, 0, 2⟩, ⟨obeying 12 22, 0, 1⟩]

theorem bc_get_all_served_twoBlocks : AllServed blankCache twoBlocks :=
  (bc_get_all_served_iff blankCache_initial (by decide +kernel)).mpr
    (by decide)

/-- Three blocks of one store. -/
def threeBlocks : List (GetRequest Nat) :=
  [⟨obeying 10 20, 0, 1⟩, ⟨obeying 11 21, 0, 2⟩, ⟨obeying 12 22, 0, 3⟩]

/-- The third of three blocks is refused, although nothing has failed. -/
theorem bc_get_refuses_third_block :
    ¬ ∀ (cache : Cache Nat) (requests : List (GetRequest Nat)),
      cache.Initial → Permitted cache requests →
        AllServed cache requests := by
  intro claim
  have permitted : Permitted blankCache threeBlocks := by decide +kernel
  have served := claim blankCache threeBlocks blankCache_initial permitted
  have few := (allServed_iff blankCache_initial.tracks permitted).mp served
  exact absurd few (by decide)

end ForsKernel.BufferCache
