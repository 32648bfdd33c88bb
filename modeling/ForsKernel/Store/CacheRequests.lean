import ForsKernel.Lib.Transition
import ForsKernel.Store.CacheInvariant

/-!
# Requests to the buffer cache

Every way in which `bc_get` and `bc_put` can end, in terms of the lists of
entries, and the cache as a system driven by its clients: they get blocks, put
them back, and edit buffers of the cache.
-/

namespace ForsKernel.BufferCache

open ForsKernel.Lib.Chain
open ForsKernel.Lib.Transition

variable {β : Type*}

/-- The slots in the order of the loop. -/
def storeOrder : List (Fin maxStores) :=
  List.finRange maxStores

/-- The store has a slot in the table and a type. -/
def Cache.Registered
    (cache : Cache β)
    (id : Int)
    (i : Fin maxStores) :
    Prop :=
  getStoreById id = some i ∧ (cache.stores i).type ≠ none

/-- How `bc_get` ends. -/
inductive GetOutcome
    (replies : Replies β)
    (i : Fin maxStores)
    (addr : Nat)
    (cache : Cache β)
    (cells : Lists) :
    Int → Option Nat → Cache β → Lists → Prop where
  | hit (bc : Nat) (member : bc ∈ cells i) (same : cache.addr bc = addr) :
      GetOutcome replies i addr cache cells 1 (some (cache.data bc)) cache
        cells
  | stuck (calls : List (WrCall β))
      (missing : ∀ bc ∈ cells i, cache.addr bc ≠ addr)
      (full : cache.bcCachedCount = maxCachedBlocks)
      (none_saved : cache.victim replies storeOrder = none) :
      GetOutcome replies i addr cache cells 0 none
        { cache with wrCalls := calls } cells
  | uncached (calls : List (WrCall β)) (j : Fin maxStores) (blk : Nat)
      (rest : List Nat)
      (missing : ∀ bc ∈ cells i, cache.addr bc ≠ addr)
      (full : cache.bcCachedCount = maxCachedBlocks)
      (victim : cache.victim replies storeOrder = some j)
      (first : cells j = blk :: rest) :
      GetOutcome replies i addr cache cells 0 none
        { cache.dropFirst j with wrCalls := calls }
        (Function.update cells j rest)
  | nomem (entry : Nat → BcEntry)
      (missing : ∀ bc ∈ cells i, cache.addr bc ≠ addr)
      (room : cache.bcCachedCount < maxCachedBlocks)
      (refused : replies.entryPtr = 0 ∨ replies.dataPtr = 0)
      (same : ∀ j, ∀ bc ∈ cells j, entry bc = cache.entry bc) :
      GetOutcome replies i addr cache cells 0 none
        { cache with entry := entry } cells
  | loaded
      (missing : ∀ bc ∈ cells i, cache.addr bc ≠ addr)
      (room : cache.bcCachedCount < maxCachedBlocks) :
      GetOutcome replies i addr cache cells (if replies.rd then 1 else 0)
        (some replies.dataPtr) (cache.load replies i addr)
        (Function.update cells i (replies.entryPtr :: cells i))

/-- How `bc_put` ends. -/
inductive PutOutcome
    (replies : Replies β)
    (i : Fin maxStores)
    (addr : Nat)
    (cache : Cache β)
    (cells : Lists) :
    Int → Cache β → Prop where
  | saved (bc : Nat) (member : bc ∈ cells i) (same : cache.addr bc = addr) :
      PutOutcome replies i addr cache cells (if replies.wr i then 1 else 0)
        (cache.wr replies i addr (cache.data bc))
  | absent (missing : ∀ bc ∈ cells i, cache.addr bc ≠ addr) :
      PutOutcome replies i addr cache cells 1 cache

namespace CacheInv

variable
  {cache : Cache β}
  {cells : Lists}
  {id : Int}
  {i : Fin maxStores}

/-- A call of `bc_get` returns, and keeps the lists of the cache. -/
theorem bcGet_spec
    (inv : CacheInv cache cells)
    {replies : Replies β}
    (addr : Nat)
    (registered : cache.Registered id i)
    (fresh : replies.Fresh cache) :
    ∃ ret buf cache' cells',
      bcGet replies id addr cache = some (ret, buf, cache') ∧
        GetOutcome replies i addr cache cells ret buf cache' cells' ∧
          CacheInv cache' cells' := by
  rcases registered with ⟨slot, typed⟩
  simp only [bcGet, slot]
  rcases inv.lookup_cases i addr with
    ⟨bc, member, same, notNull, found⟩ | ⟨missing, found⟩
  · refine ⟨_, _, _, cells, ?_, .hit bc member same, inv⟩
    rw [found, Option.bind_some, if_pos notNull]
  · simp only [found, Option.bind_some, ne_eq, not_true_eq_false, if_false]
    by_cases full : cache.bcCachedCount = maxCachedBlocks
    · rw [if_pos full]
      rcases inv.uncache_eq replies storeOrder with ⟨calls, unfolded⟩
      rw [← storeOrder, unfolded, Option.map_some]
      cases victim : cache.victim replies storeOrder with
      | none =>
          exact ⟨_, _, _, cells, rfl, .stuck calls missing full victim,
            inv.withWrCalls calls⟩
      | some j =>
          have nonempty : (cache.stores j).bcFirst ≠ 0 := by
            have chosen := List.find?_some victim
            simp only [decide_eq_true_eq] at chosen
            exact chosen.1
          cases first : cells j with
          | nil => exact (nonempty (inv.first_eq_zero_iff.mpr first)).elim
          | cons blk rest =>
              exact ⟨_, _, _, Function.update cells j rest, rfl,
                .uncached calls j blk rest missing full victim first,
                (inv.dropFirst first).withWrCalls calls⟩
    · have room : cache.bcCachedCount < maxCachedBlocks :=
        Nat.lt_of_le_of_ne inv.bounded full
      rw [if_neg full]
      by_cases entryNull : replies.entryPtr = 0
      · rw [if_pos entryNull]
        exact ⟨_, _, _, cells, rfl,
          .nomem cache.entry missing room (.inl entryNull)
            (fun _ _ _ => rfl), inv⟩
      · rw [if_neg entryNull, if_neg typed]
        by_cases dataNull : replies.dataPtr = 0
        · rw [if_pos dataNull]
          have held : (insert replies.entryPtr cache.held).erase
              replies.entryPtr = cache.held :=
            Finset.erase_insert fresh.entry_new
          have old : ∀ j, ∀ bc ∈ cells j,
              Function.update cache.entry replies.entryPtr
                { cache.entry replies.entryPtr with
                  addr := addr, data := 0 } bc = cache.entry bc :=
            fun j bc member => Function.update_of_ne
              (inv.ne_entryPtr fresh member) ..
          refine ⟨_, _, _, cells, rfl, ?_, ?_⟩
          · simp only [Cache.kfree, Cache.setEntry, Cache.kalloc, held]
            exact .nomem _ missing room (.inr dataNull) old
          · simp only [Cache.kfree, Cache.setEntry, Cache.kalloc, held]
            exact inv.congr (fun _ => rfl) (fun _ => rfl) old rfl rfl
        · rw [if_neg dataNull]
          exact ⟨_, _, _, _, rfl, .loaded missing room,
            inv.load fresh entryNull dataNull typed missing room⟩

/-- A call of `bc_put` returns, and keeps the lists of the cache. -/
theorem bcPut_spec
    (inv : CacheInv cache cells)
    (replies : Replies β)
    (addr : Nat)
    (registered : cache.Registered id i) :
    ∃ ret cache', bcPut replies id addr cache = some (ret, cache') ∧
      PutOutcome replies i addr cache cells ret cache' ∧
        CacheInv cache' cells := by
  rcases registered with ⟨slot, typed⟩
  simp only [bcPut, slot]
  rcases inv.lookup_cases i addr with
    ⟨bc, member, same, notNull, found⟩ | ⟨missing, found⟩
  · refine ⟨_, _, ?_, .saved bc member same, inv.wr _ _ _ _⟩
    rw [found, Option.bind_some, if_pos notNull, if_neg typed]
  · refine ⟨_, _, ?_, .absent missing, inv⟩
    rw [found, Option.bind_some]
    simp

end CacheInv

/-! ## The cache and its clients -/

inductive CacheOp (β : Type*) where
  | get (replies : Replies β) (id : Int) (addr : Nat)
  | put (replies : Replies β) (id : Int) (addr : Nat)
  | edit (ptr : Nat) (contents : β)

namespace Cache

/-- The buffer of some entry. -/
def Lends
    (cache : Cache β)
    (ptr : Nat) :
    Prop :=
  ∃ i, ∃ bc ∈ cache.entries i, cache.data bc = ptr

/-- Clients name registered stores and edit buffers which are cached. -/
def legal (cache : Cache β) : CacheOp β → Prop
  | .get replies id _ =>
      (∃ i, cache.Registered id i) ∧ replies.Fresh cache
  | .put _ id _ => ∃ i, cache.Registered id i
  | .edit ptr _ => cache.Lends ptr

def step (cache : Cache β) : CacheOp β → Option (Cache β)
  | .get replies id addr =>
      (bcGet replies id addr cache).map fun result => result.2.2
  | .put replies id addr =>
      (bcPut replies id addr cache).map fun result => result.2
  | .edit ptr contents => some (cache.edit ptr contents)

theorem step_get
    {cache cache' : Cache β}
    {replies : Replies β}
    {id : Int}
    {addr : Nat}
    {ret : Int}
    {buf : Option Nat}
    (returned : bcGet replies id addr cache = some (ret, buf, cache')) :
    cache.step (.get replies id addr) = some cache' := by
  rw [step, returned, Option.map_some]

theorem step_put
    {cache cache' : Cache β}
    {replies : Replies β}
    {id : Int}
    {addr : Nat}
    {ret : Int}
    (returned : bcPut replies id addr cache = some (ret, cache')) :
    cache.step (.put replies id addr) = some cache' := by
  rw [step, returned, Option.map_some]

/-- Nothing is cached yet. -/
structure Initial (cache : Cache β) : Prop where
  count_eq : cache.bcCachedCount = 0
  first_eq : ∀ i, (cache.stores i).bcFirst = 0
  null_not_held : 0 ∉ cache.held

instance
    (cache : Cache β)
    (id : Int)
    (i : Fin maxStores) :
    Decidable (cache.Registered id i) :=
  inferInstanceAs (Decidable (_ ∧ _))

instance
    (replies : Replies β)
    (cache : Cache β) :
    Decidable (replies.Fresh cache) :=
  decidable_of_iff (replies.entryPtr ∉ cache.held ∧
      replies.dataPtr ∉ cache.held ∧
        (replies.entryPtr = replies.dataPtr → replies.entryPtr = 0))
    ⟨fun ⟨entry_new, data_new, apart⟩ => ⟨entry_new, data_new, apart⟩,
      fun fresh => ⟨fresh.entry_new, fresh.data_new, fresh.apart⟩⟩

instance
    (cache : Cache β)
    (ptr : Nat) :
    Decidable (cache.Lends ptr) :=
  inferInstanceAs (Decidable (∃ i, ∃ bc ∈ cache.entries i, _))

instance (cache : Cache β) : (op : CacheOp β) → Decidable (cache.legal op)
  | .get replies id _ => inferInstanceAs
      (Decidable ((∃ i, cache.Registered id i) ∧ replies.Fresh cache))
  | .put _ id _ => inferInstanceAs (Decidable (∃ i, cache.Registered id i))
  | .edit ptr _ => inferInstanceAs (Decidable (cache.Lends ptr))

end Cache

/-- The buffer cache with its clients. -/
def cacheSystem (β : Type*) : System (Cache β) (CacheOp β) where
  init := Cache.Initial
  legal := Cache.legal
  step := Cache.step

theorem Cache.Initial.inv
    {cache : Cache β}
    (initial : cache.Initial) :
    CacheInv cache fun _ => [] := by
  constructor
  · exact initial.first_eq
  all_goals simp [Lists.total, initial.null_not_held, initial.count_eq]

/-- A step of a client, by the call it makes. -/
inductive StepOutcome
    (cache : Cache β)
    (cells : Lists) :
    CacheOp β → Cache β → Lists → Prop where
  | get {replies : Replies β} {id : Int} {i : Fin maxStores} {addr : Nat}
      {ret : Int} {buf : Option Nat} {cache' : Cache β} {cells' : Lists}
      (slot : getStoreById id = some i) (fresh : replies.Fresh cache)
      (returned : bcGet replies id addr cache = some (ret, buf, cache'))
      (outcome : GetOutcome replies i addr cache cells ret buf cache'
        cells') :
      StepOutcome cache cells (.get replies id addr) cache' cells'
  | put {replies : Replies β} {id : Int} {i : Fin maxStores} {addr : Nat}
      {ret : Int} {cache' : Cache β}
      (slot : getStoreById id = some i)
      (outcome : PutOutcome replies i addr cache cells ret cache') :
      StepOutcome cache cells (.put replies id addr) cache' cells
  | edit {i : Fin maxStores} {bc : Nat} {contents : β}
      (member : bc ∈ cells i) :
      StepOutcome cache cells (.edit (cache.data bc) contents)
        (cache.edit (cache.data bc) contents) cells

namespace CacheInv

variable
  {cache cache' : Cache β}
  {cells : Lists}
  {op : CacheOp β}

/-- What one step does, with the lists it leaves. -/
theorem step_outcome
    (inv : CacheInv cache cells)
    (last : (cacheSystem β).Step cache op cache') :
    ∃ cells', StepOutcome cache cells op cache' cells' ∧
      CacheInv cache' cells' := by
  rcases last with ⟨legal, stepped⟩
  cases op with
  | get replies id addr =>
      rcases legal with ⟨⟨i, registered⟩, fresh⟩
      rcases inv.bcGet_spec addr registered fresh with
        ⟨ret, buf, after, cells', returned, outcome, inv'⟩
      have same : after = cache' :=
        Option.some.inj ((Cache.step_get returned).symm.trans stepped)
      subst same
      exact ⟨cells', .get registered.1 fresh returned outcome, inv'⟩
  | put replies id addr =>
      rcases legal with ⟨i, registered⟩
      rcases inv.bcPut_spec replies addr registered with
        ⟨ret, after, returned, outcome, inv'⟩
      have same : after = cache' :=
        Option.some.inj ((Cache.step_put returned).symm.trans stepped)
      subst same
      exact ⟨cells, .put registered.1 outcome, inv'⟩
  | edit ptr contents =>
      rcases legal with ⟨i, bc, member, rfl⟩
      rw [inv.entries_eq] at member
      have same : cache.edit (cache.data bc) contents = cache' :=
        Option.some.inj stepped
      subst same
      exact ⟨cells, .edit member, inv.edit _ _⟩

end CacheInv

/-- In every reachable state the cache is made of some lists. -/
theorem cacheInv_of_reachable
    {cache : Cache β}
    (reachable : (cacheSystem β).Reachable cache) :
    ∃ cells, CacheInv cache cells := by
  apply reachable.invariant
  · exact fun start initial => ⟨_, initial.inv⟩
  · rintro source op target ⟨cells, inv⟩ last
    rcases inv.step_outcome last with ⟨cells', _, inv'⟩
    exact ⟨cells', inv'⟩

end ForsKernel.BufferCache
