import ForsKernel.Store.Checkout

/-!
# Blocks are saved before they are dropped

The log of device writes, step by step.  A step writes only data of entries
which are cached, each to the store and the address of its own entry, and an
entry leaves its list only in a step which has saved it.
-/

namespace ForsKernel.BufferCache

open ForsKernel.Lib.Chain
open ForsKernel.Lib.Transition

variable {β : Type*}

/-- The call writes the data of a cached entry to its store and address. -/
structure Cache.Saves
    (cache : Cache β)
    (call : WrCall β)
    (bc : Nat) :
    Prop where
  listed : bc ∈ cache.entries call.store
  addr_eq : call.addr = cache.addr bc
  contents_eq : call.contents = cache.buffer (cache.data bc)

/-- Every list ends, names no block twice and shares no entry. -/
structure Cache.Separate (cache : Cache β) : Prop where
  finite : ∀ i,
    IsChain 0 cache.next (cache.stores i).bcFirst (cache.entries i)
  addrs_nodup : ∀ i, ((cache.entries i).map cache.addr).Nodup
  disjoint : ∀ i j, i ≠ j → (cache.entries i).Disjoint (cache.entries j)

/--
A step has made these device writes: each saves a cached entry, an entry which
is not listed any more has been saved, and the devices hold what was written.
-/
structure WritesBack
    (cache cache' : Cache β)
    (calls : List (WrCall β)) :
    Prop where
  logged : cache'.wrCalls = cache.wrCalls ++ calls
  own : ∀ call ∈ calls, ∃ bc, cache.Saves call bc
  dropped : ∀ i, ∀ bc ∈ cache.entries i, bc ∉ cache'.entries i →
    ∃ call ∈ calls, call.store = i ∧ call.ok = true ∧ cache.Saves call bc ∧
      (cache'.stores i).dev (cache.addr bc) = call.contents
  devices : ∀ i addr,
    (cache'.stores i).dev addr ≠ (cache.stores i).dev addr →
      ∃ call ∈ calls, call.store = i ∧ call.ok = true ∧ call.addr = addr ∧
        (cache'.stores i).dev addr = call.contents

theorem CacheInv.separate
    {cache : Cache β}
    {cells : Lists}
    (inv : CacheInv cache cells) :
    cache.Separate := by
  constructor
  · intro i
    rw [inv.entries_eq]
    exact inv.chain i
  · intro i
    rw [inv.entries_eq]
    exact inv.addrs_nodup i
  · intro i j apart bc member member'
    rw [inv.entries_eq] at member member'
    exact apart (inv.entries_apart member member')

/-! ## The attempts of the loop -/

namespace Cache

variable
  {cache : Cache β}
  {replies : Replies β}
  {order : List (Fin maxStores)}

/-- Only stores with entries are tried. -/
theorem mem_saveAttempts
    {call : WrCall β}
    (member : call ∈ cache.saveAttempts replies order) :
    ∃ i, (cache.stores i).bcFirst ≠ 0 ∧ call = cache.saveFirst replies i := by
  induction order with
  | nil => cases member
  | cons i rest induction =>
      rw [saveAttempts] at member
      split at member
      · exact induction member
      · rename_i nonempty
        rcases List.mem_cons.mp member with rfl | later
        · exact ⟨i, nonempty, rfl⟩
        · split at later
          · cases later
          · exact induction later

/-- The victim's first entry has been saved. -/
theorem victim_saved
    {j : Fin maxStores}
    (victim : cache.victim replies order = some j) :
    cache.saveFirst replies j ∈ cache.saveAttempts replies order ∧
      replies.wr j = true := by
  have ok : replies.wr j = true := by
    have chosen := List.find?_some victim
    simp only [decide_eq_true_eq] at chosen
    exact chosen.2
  refine ⟨?_, ok⟩
  induction order with
  | nil => cases victim
  | cons i rest induction =>
      rw [Cache.victim, List.find?_cons] at victim
      rw [saveAttempts]
      split at victim
      · rename_i chosen
        cases victim
        simp only [decide_eq_true_eq] at chosen
        rw [if_neg chosen.1]
        exact List.mem_cons_self
      · rename_i passed
        simp only [decide_eq_false_iff_not, not_and] at passed
        split
        · exact induction victim
        · rename_i nonempty
          rw [if_neg (passed nonempty)]
          exact List.mem_cons_of_mem _ (induction victim)

end Cache

namespace CacheInv

variable
  {cache cache' : Cache β}
  {cells cells' : Lists}
  {replies : Replies β}
  {id : Int}
  {i : Fin maxStores}
  {addr : Nat}

/-- The attempt on a store saves the first entry of its list. -/
theorem saveFirst_saves
    (inv : CacheInv cache cells)
    (replies : Replies β)
    (nonempty : (cache.stores i).bcFirst ≠ 0) :
    cache.Saves (cache.saveFirst replies i) (cache.stores i).bcFirst := by
  refine ⟨?_, rfl, rfl⟩
  rw [inv.entries_eq]
  show _ ∈ cells i
  cases first : cells i with
  | nil => exact (nonempty (inv.first_eq_zero_iff.mpr first)).elim
  | cons blk rest =>
      rw [inv.first_eq first]
      exact List.mem_cons_self

theorem saveAttempts_own
    (inv : CacheInv cache cells)
    (replies : Replies β)
    (order : List (Fin maxStores)) :
    ∀ call ∈ cache.saveAttempts replies order,
      ∃ bc, cache.Saves call bc := by
  intro call member
  rcases Cache.mem_saveAttempts member with ⟨i, nonempty, rfl⟩
  exact ⟨_, inv.saveFirst_saves replies nonempty⟩

/-- What a miss on the full cache does. -/
theorem bcGet_full
    (inv : CacheInv cache cells)
    (slot : getStoreById id = some i)
    (missing : ∀ bc ∈ cells i, cache.addr bc ≠ addr)
    (full : cache.bcCachedCount = maxCachedBlocks) :
    bcGet replies id addr cache = some (0, none,
      { (cache.victim replies storeOrder).elim cache cache.dropFirst with
        wrCalls := cache.wrCalls ++
          cache.saveAttempts replies storeOrder }) := by
  simp only [bcGet, slot, inv.lookup_miss missing, Option.bind_some, ne_eq,
    not_true_eq_false, if_false, if_pos full]
  rw [← storeOrder, inv.uncache_writes, Option.map_some]

/-- A step which writes nothing and drops nothing. -/
theorem writesBack_nil
    (inv : CacheInv cache cells)
    (inv' : CacheInv cache' cells')
    (logged : cache'.wrCalls = cache.wrCalls)
    (kept : ∀ i, ∀ bc ∈ cells i, bc ∈ cells' i)
    (devices : ∀ i, (cache'.stores i).dev = (cache.stores i).dev) :
    WritesBack cache cache' [] := by
  refine ⟨by rw [logged, List.append_nil], by simp, ?_, ?_⟩
  · intro i bc member lost
    rw [inv.entries_eq] at member
    rw [inv'.entries_eq] at lost
    exact (lost (kept i bc member)).elim
  · intro i addr changed
    rw [devices] at changed
    exact (changed rfl).elim

/-- Dropping the victim loses an entry which has been saved. -/
theorem dropFirst_writesBack
    (inv : CacheInv cache cells)
    {j : Fin maxStores}
    {blk : Nat}
    {rest : List Nat}
    (victim : cache.victim replies storeOrder = some j)
    (first : cells j = blk :: rest) :
    WritesBack cache
      { cache.dropFirst j with
        wrCalls := cache.wrCalls ++ cache.saveAttempts replies storeOrder }
      (cache.saveAttempts replies storeOrder) := by
  have head := inv.first_eq first
  have nonempty : (cache.stores j).bcFirst ≠ 0 := by
    rw [Ne, inv.first_eq_zero_iff, first]
    exact List.cons_ne_nil blk rest
  have saves := inv.saveFirst_saves replies nonempty
  rcases Cache.victim_saved victim with ⟨attempted, ok⟩
  have after := (inv.dropFirst first).withWrCalls
    (cache.wrCalls ++ cache.saveAttempts replies storeOrder)
  refine ⟨rfl, inv.saveAttempts_own replies storeOrder, ?_, ?_⟩
  · intro i bc member lost
    rw [inv.entries_eq] at member
    rw [after.entries_eq] at lost
    by_cases here : i = j
    · subst here
      rw [Function.update_self] at lost
      rw [first] at member
      rcases List.mem_cons.mp member with rfl | kept
      · refine ⟨_, attempted, rfl, ok, ?_, ?_⟩
        · rw [← head]
          exact saves
        · show ((cache.dropFirst i).stores i).dev _ = _
          rw [Cache.dropFirst_stores_self, ← head]
          exact Function.update_self ..
      · exact (lost kept).elim
    · rw [Function.update_of_ne here] at lost
      exact (lost member).elim
  · intro i addr changed
    have changed' : ((cache.dropFirst j).stores i).dev addr ≠
        (cache.stores i).dev addr := changed
    by_cases here : i = j
    · subst here
      rw [Cache.dropFirst_stores_self] at changed'
      by_cases same : addr = cache.addr (cache.stores i).bcFirst
      · subst same
        refine ⟨_, attempted, rfl, ok, rfl, ?_⟩
        show ((cache.dropFirst i).stores i).dev _ = _
        rw [Cache.dropFirst_stores_self]
        exact Function.update_self ..
      · exact (changed' (Function.update_of_ne same ..)).elim
    · rw [Cache.dropFirst_stores_of_ne _ here] at changed'
      exact (changed' rfl).elim

/-- A call of `bc_get` saves what it drops. -/
theorem bcGet_writesBack
    (inv : CacheInv cache cells)
    (slot : getStoreById id = some i)
    {ret : Int}
    {buf : Option Nat}
    (returned : bcGet replies id addr cache = some (ret, buf, cache'))
    (outcome : GetOutcome replies i addr cache cells ret buf cache' cells')
    (inv' : CacheInv cache' cells') :
    ∃ calls, WritesBack cache cache' calls := by
  cases outcome with
  | hit =>
      exact ⟨[], inv.writesBack_nil inv' rfl (fun _ _ member => member)
        fun _ => rfl⟩
  | stuck calls missing full stuck =>
      rw [inv.bcGet_full slot missing full, stuck] at returned
      cases returned
      refine ⟨_, rfl, inv.saveAttempts_own replies storeOrder, ?_, ?_⟩
      · exact fun _ _ member lost => (lost member).elim
      · exact fun _ _ changed => (changed rfl).elim
  | uncached calls j blk rest missing full victim first =>
      rw [inv.bcGet_full slot missing full, victim] at returned
      cases returned
      exact ⟨_, inv.dropFirst_writesBack victim first⟩
  | nomem =>
      exact ⟨[], inv.writesBack_nil inv' rfl (fun _ _ member => member)
        fun _ => rfl⟩
  | loaded missing room =>
      refine ⟨[], inv.writesBack_nil inv' rfl ?_
        (cache.load_dev replies i addr)⟩
      intro j bc member
      by_cases here : j = i
      · subst here
        rw [Function.update_self]
        exact List.mem_cons_of_mem _ member
      · rwa [Function.update_of_ne here]

/-- A call of `bc_put` writes the block it names, and drops nothing. -/
theorem bcPut_writesBack
    (inv : CacheInv cache cells)
    {ret : Int}
    (outcome : PutOutcome replies i addr cache cells ret cache')
    (inv' : CacheInv cache' cells) :
    ∃ calls, WritesBack cache cache' calls := by
  cases outcome with
  | absent =>
      exact ⟨[], inv.writesBack_nil inv' rfl (fun _ _ member => member)
        fun _ => rfl⟩
  | saved bc member same =>
      have saves : cache.Saves
          ⟨i, addr, cache.buffer (cache.data bc), replies.wr i⟩ bc := by
        refine ⟨?_, same.symm, rfl⟩
        rw [inv.entries_eq]
        exact member
      refine ⟨[⟨i, addr, cache.buffer (cache.data bc), replies.wr i⟩],
        ?_, ?_, ?_, ?_⟩
      · rw [Cache.wr]
        split <;> rfl
      · intro call called
        rw [List.mem_singleton.mp called]
        exact ⟨bc, saves⟩
      · intro j other listed lost
        rw [inv.entries_eq] at listed
        rw [inv'.entries_eq] at lost
        exact (lost listed).elim
      · intro j other changed
        have here : j = i ∧ other = addr := by
          by_contra elsewhere
          exact changed (cache.wr_dev_of_ne addr _ elsewhere)
        rcases here with ⟨rfl, rfl⟩
        have ok : replies.wr j = true := by
          by_contra refused
          rw [cache.wr_refused other _ refused] at changed
          exact changed rfl
        exact ⟨_, List.mem_singleton.mpr rfl, rfl, ok, rfl,
          cache.wr_dev_self other _ ok⟩

/-- What clients may request comes back. -/
theorem step_returns
    (inv : CacheInv cache cells)
    {op : CacheOp β}
    (legal : cache.legal op) :
    ∃ cache', cache.step op = some cache' := by
  cases op with
  | get replies id addr =>
      rcases legal with ⟨⟨i, registered⟩, fresh⟩
      rcases inv.bcGet_spec addr registered fresh with
        ⟨ret, buf, cache', _, returned, _⟩
      exact ⟨cache', Cache.step_get returned⟩
  | put replies id addr =>
      rcases legal with ⟨i, registered⟩
      rcases inv.bcPut_spec replies addr registered with
        ⟨ret, cache', returned, _⟩
      exact ⟨cache', Cache.step_put returned⟩
  | edit ptr contents => exact ⟨_, rfl⟩

/-- Every step saves what it drops. -/
theorem step_writesBack
    (inv : CacheInv cache cells)
    {op : CacheOp β}
    (last : (cacheSystem β).Step cache op cache') :
    ∃ calls, WritesBack cache cache' calls := by
  rcases inv.step_outcome last with ⟨cells', outcome, inv'⟩
  cases outcome with
  | get slot _ returned outcome =>
      exact inv.bcGet_writesBack slot returned outcome inv'
  | put slot outcome => exact inv.bcPut_writesBack outcome inv'
  | edit =>
      exact ⟨[], inv.writesBack_nil inv' rfl (fun _ _ member => member)
        fun _ => rfl⟩

end CacheInv

/--
In every reachable state the lists are finite, name no block twice and share
no entry.  Every call then returns, has written only cached entries to their
own blocks, and has saved the entries which it dropped.
-/
theorem bc_writes_before_drop
    {cache : Cache β}
    (reachable : (cacheSystem β).Reachable cache) :
    cache.Separate ∧ ∀ op, (cacheSystem β).legal cache op →
      ∃ cache' calls, (cacheSystem β).step cache op = some cache' ∧
        WritesBack cache cache' calls := by
  rcases cacheInv_of_reachable reachable with ⟨cells, inv⟩
  refine ⟨inv.separate, ?_⟩
  intro op legal
  rcases inv.step_returns legal with ⟨cache', stepped⟩
  rcases inv.step_writesBack ⟨legal, stepped⟩ with ⟨calls, writesBack⟩
  exact ⟨cache', calls, stepped, writesBack⟩

/-- Both entries are in use, and the first of them has been edited. -/
def fullCache : Cache Nat :=
  ((cacheSystem Nat).replay blankCache
    [.get (obeying 10 20) 0 1, .get (obeying 11 21) 1 2, .edit 20 99]).get
      (by decide +kernel)

theorem fullCache_reachable : (cacheSystem Nat).Reachable fullCache :=
  System.reachable_of_replay blankCache_initial (Option.some_get _).symm

/-- A miss on the full cache, with a victim in another store. -/
theorem bc_writes_before_drop_miss :
    fullCache.Separate ∧ ∃ cache' calls,
      fullCache.step (.get (obeying 12 22) 2 3) = some cache' ∧
        WritesBack fullCache cache' calls := by
  rcases bc_writes_before_drop fullCache_reachable with ⟨separate, steps⟩
  exact ⟨separate, steps (.get (obeying 12 22) 2 3) (by decide +kernel)⟩

end ForsKernel.BufferCache
