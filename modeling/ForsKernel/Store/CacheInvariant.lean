import Mathlib.Algebra.Order.BigOperators.Group.Finset
import Mathlib.Data.Fintype.Basic
import ForsKernel.Store.BufferCache

/-!
# The lists of the buffer cache

`CacheInv` relates the cache to the entries of each store's list.  The lists
never share an entry or a buffer, no list has two entries for one block, and
everything on them is memory which the cache still holds.  `bc_get` and
`bc_put` are then described by what they do to the lists.
-/

namespace ForsKernel.BufferCache

open ForsKernel.Lib.Chain

variable {β : Type*}

/-- The entries of every store. -/
abbrev Lists := Fin maxStores → List Nat

/-- The number of entries in all lists. -/
def Lists.total (cells : Lists) : Nat :=
  ∑ i, (cells i).length

theorem Lists.total_update
    (cells : Lists)
    (i : Fin maxStores)
    (list : List Nat) :
    Lists.total (Function.update cells i list) + (cells i).length =
      Lists.total cells + list.length := by
  have others : ∑ j ∈ Finset.univ.erase i,
      (Function.update cells i list j).length =
        ∑ j ∈ Finset.univ.erase i, (cells j).length := by
    apply Finset.sum_congr rfl
    intro j member
    rw [Function.update_of_ne (Finset.ne_of_mem_erase member)]
  rw [Lists.total, Lists.total,
    ← Finset.add_sum_erase _ _ (Finset.mem_univ i),
    ← Finset.add_sum_erase _ (fun j => (cells j).length)
      (Finset.mem_univ i), others, Function.update_self]
  omega

theorem Lists.length_le_total
    (cells : Lists)
    (i : Fin maxStores) :
    (cells i).length ≤ Lists.total cells :=
  Finset.single_le_sum (f := fun j => (cells j).length)
    (fun _ _ => Nat.zero_le _) (Finset.mem_univ i)

/-- The cache is made of these lists. -/
structure CacheInv
    (cache : Cache β)
    (cells : Lists) :
    Prop where
  chain : ∀ i, IsChain 0 cache.next (cache.stores i).bcFirst (cells i)
  typed : ∀ i, cells i ≠ [] → (cache.stores i).type ≠ none
  addrs_nodup : ∀ i, ((cells i).map cache.addr).Nodup
  entries_apart : ∀ {i j bc}, bc ∈ cells i → bc ∈ cells j → i = j
  data_inj : ∀ {i j bc bc'}, bc ∈ cells i → bc' ∈ cells j →
    cache.data bc = cache.data bc' → bc = bc'
  data_ne_entry : ∀ {i j bc bc'}, bc ∈ cells i → bc' ∈ cells j →
    cache.data bc ≠ bc'
  entry_held : ∀ {i bc}, bc ∈ cells i → bc ∈ cache.held
  data_held : ∀ {i bc}, bc ∈ cells i → cache.data bc ∈ cache.held
  null_not_held : 0 ∉ cache.held
  counted : Lists.total cells ≤ cache.bcCachedCount
  bounded : cache.bcCachedCount ≤ maxCachedBlocks

/-- `kalloc` provides memory which is not in use, or reports a failure. -/
structure Replies.Fresh
    (replies : Replies β)
    (cache : Cache β) :
    Prop where
  entry_new : replies.entryPtr ∉ cache.held
  data_new : replies.dataPtr ∉ cache.held
  apart : replies.entryPtr = replies.dataPtr → replies.entryPtr = 0

/-! ## Writing a block to its device -/

namespace Cache

variable
  (cache : Cache β)
  {replies : Replies β}
  {i : Fin maxStores}
  (addr data : Nat)

@[simp]
theorem wr_entry : (cache.wr replies i addr data).entry = cache.entry := by
  rw [wr]
  split <;> rfl

@[simp]
theorem wr_addr : (cache.wr replies i addr data).addr = cache.addr := by
  funext bc
  rw [Cache.addr, wr_entry, ← Cache.addr]

@[simp]
theorem wr_data : (cache.wr replies i addr data).data = cache.data := by
  funext bc
  rw [Cache.data, wr_entry, ← Cache.data]

@[simp]
theorem wr_buffer :
    (cache.wr replies i addr data).buffer = cache.buffer := by
  rw [wr]
  split <;> rfl

theorem wr_dev_self (ok : replies.wr i = true) :
    ((cache.wr replies i addr data).stores i).dev addr =
      cache.buffer data := by
  simp [wr, ok, setStore]

/-- A device which refuses the write is left alone. -/
theorem wr_refused (refused : ¬ replies.wr i = true) :
    (cache.wr replies i addr data).stores = cache.stores := by
  rw [wr, if_neg refused]

/-- No other block is written. -/
theorem wr_dev_of_ne
    {j : Fin maxStores}
    {other : Nat}
    (elsewhere : ¬ (j = i ∧ other = addr)) :
    ((cache.wr replies i addr data).stores j).dev other =
      (cache.stores j).dev other := by
  by_cases ok : replies.wr i
  · by_cases here : j = i
    · subst here
      have different : other ≠ addr := fun same => elsewhere ⟨rfl, same⟩
      simp [wr, ok, setStore, different]
    · simp [wr, ok, setStore, here]
  · rw [cache.wr_refused addr data ok]

end Cache

namespace CacheInv

variable
  {cache cache' : Cache β}
  {cells : Lists}
  {i : Fin maxStores}
  {addr bc : Nat}

theorem length_lt
    (inv : CacheInv cache cells)
    (i : Fin maxStores) :
    (cells i).length < listFuel :=
  calc (cells i).length
      ≤ Lists.total cells := Lists.length_le_total cells i
    _ ≤ cache.bcCachedCount := inv.counted
    _ ≤ maxCachedBlocks := inv.bounded
    _ < listFuel := by decide

/-- The lists are the ones the code can follow. -/
theorem entries_eq (inv : CacheInv cache cells) : cache.entries = cells := by
  ext1 i
  exact collect_eq (inv.chain i) (inv.length_lt i)

theorem first_eq_zero_iff (inv : CacheInv cache cells) :
    (cache.stores i).bcFirst = 0 ↔ cells i = [] :=
  (inv.chain i).eq_nil_iff.symm

/-- Entries of one store for the same block are the same. -/
theorem addr_inj
    (inv : CacheInv cache cells)
    {bc' : Nat}
    (member : bc ∈ cells i)
    (member' : bc' ∈ cells i)
    (same : cache.addr bc = cache.addr bc') :
    bc = bc' :=
  List.inj_on_of_nodup_map (inv.addrs_nodup i) member member' same

theorem lookup_eq (inv : CacheInv cache cells) :
    cache.lookup i addr =
      some (((cells i).find? fun bc => cache.addr bc = addr).getD 0) :=
  search_eq (inv.chain i) (inv.length_lt i)

theorem lookup_hit
    (inv : CacheInv cache cells)
    (member : bc ∈ cells i)
    (same : cache.addr bc = addr) :
    cache.lookup i addr = some bc := by
  rw [inv.lookup_eq]
  cases found : (cells i).find? fun bc => cache.addr bc = addr with
  | none =>
      have none_hit := List.find?_eq_none.mp found bc member
      simp [same] at none_hit
  | some other =>
      have hit := List.find?_some found
      have equal : other = bc := by
        apply inv.addr_inj (List.mem_of_find?_eq_some found) member
        rw [same]
        simpa using hit
      rw [equal, Option.getD_some]

theorem lookup_miss
    (inv : CacheInv cache cells)
    (missing : ∀ bc ∈ cells i, cache.addr bc ≠ addr) :
    cache.lookup i addr = some 0 := by
  rw [inv.lookup_eq, List.find?_eq_none.mpr (by simpa using missing),
    Option.getD_none]

/-- The loop over a list finds the entry of the block, if there is one. -/
theorem lookup_cases
    (inv : CacheInv cache cells)
    (i : Fin maxStores)
    (addr : Nat) :
    (∃ bc ∈ cells i, cache.addr bc = addr ∧ bc ≠ 0 ∧
        cache.lookup i addr = some bc) ∨
      ((∀ bc ∈ cells i, cache.addr bc ≠ addr) ∧
        cache.lookup i addr = some 0) := by
  by_cases cached : ∃ bc ∈ cells i, cache.addr bc = addr
  · rcases cached with ⟨bc, member, same⟩
    exact .inl ⟨bc, member, same, (inv.chain i).ne_null bc member,
      inv.lookup_hit member same⟩
  · push Not at cached
    exact .inr ⟨cached, inv.lookup_miss cached⟩

/-! ## What keeps the lists -/

/-- The lists do not depend on devices, buffers and memory elsewhere. -/
theorem congr
    (inv : CacheInv cache cells)
    (first : ∀ i, (cache'.stores i).bcFirst = (cache.stores i).bcFirst)
    (type : ∀ i, (cache'.stores i).type = (cache.stores i).type)
    (entry : ∀ i, ∀ bc ∈ cells i, cache'.entry bc = cache.entry bc)
    (held : cache'.held = cache.held)
    (count : cache'.bcCachedCount = cache.bcCachedCount) :
    CacheInv cache' cells := by
  have next : ∀ i, ∀ bc ∈ cells i, cache'.next bc = cache.next bc :=
    fun i bc member => congrArg BcEntry.next (entry i bc member)
  have addr : ∀ i, ∀ bc ∈ cells i, cache'.addr bc = cache.addr bc :=
    fun i bc member => congrArg BcEntry.addr (entry i bc member)
  have data : ∀ i, ∀ bc ∈ cells i, cache'.data bc = cache.data bc :=
    fun i bc member => congrArg BcEntry.data (entry i bc member)
  constructor
  · intro i
    rw [first]
    exact (inv.chain i).congr (next i)
  · intro i nonempty
    rw [type]
    exact inv.typed i nonempty
  · intro i
    rw [List.map_congr_left (addr i)]
    exact inv.addrs_nodup i
  · exact inv.entries_apart
  · intro i j bc bc' member member' same
    rw [data i bc member, data j bc' member'] at same
    exact inv.data_inj member member' same
  · intro i j bc bc' member member'
    rw [data i bc member]
    exact inv.data_ne_entry member member'
  · intro i bc member
    rw [held]
    exact inv.entry_held member
  · intro i bc member
    rw [held, data i bc member]
    exact inv.data_held member
  · rw [held]
    exact inv.null_not_held
  · rw [count]
    exact inv.counted
  · rw [count]
    exact inv.bounded

theorem edit
    (inv : CacheInv cache cells)
    (ptr : Nat)
    (contents : β) :
    CacheInv (cache.edit ptr contents) cells :=
  inv.congr (fun _ => rfl) (fun _ => rfl) (fun _ _ _ => rfl) rfl rfl

theorem withWrCalls
    (inv : CacheInv cache cells)
    (calls : List (WrCall β)) :
    CacheInv { cache with wrCalls := calls } cells :=
  inv.congr (fun _ => rfl) (fun _ => rfl) (fun _ _ _ => rfl) rfl rfl

theorem wr
    (inv : CacheInv cache cells)
    (replies : Replies β)
    (i : Fin maxStores)
    (addr data : Nat) :
    CacheInv (cache.wr replies i addr data) cells := by
  rw [Cache.wr]
  split
  · apply inv.congr
    · intro j
      by_cases same : j = i
      · subst same
        simp [Cache.setStore]
      · simp [Cache.setStore, same]
    · intro j
      by_cases same : j = i
      · subst same
        simp [Cache.setStore]
      · simp [Cache.setStore, same]
    · intro _ _ _
      rfl
    · rfl
    · rfl
  · exact inv.withWrCalls _

end CacheInv

/-! ## Uncaching a block -/

/-- The first entry of a store has been saved, unlinked and its data freed. -/
def Cache.dropFirst
    (cache : Cache β)
    (i : Fin maxStores) :
    Cache β :=
  let st := cache.stores i
  let blk := st.bcFirst
  (cache.setStore i
    { st with
      dev := Function.update st.dev (cache.addr blk)
        (cache.buffer (cache.data blk))
      bcFirst := cache.next blk }).kfree (cache.data blk)

namespace Cache

@[simp]
theorem dropFirst_entry
    (cache : Cache β)
    (i : Fin maxStores) :
    (cache.dropFirst i).entry = cache.entry :=
  rfl

@[simp]
theorem dropFirst_next
    (cache : Cache β)
    (i : Fin maxStores) :
    (cache.dropFirst i).next = cache.next :=
  rfl

@[simp]
theorem dropFirst_addr
    (cache : Cache β)
    (i : Fin maxStores) :
    (cache.dropFirst i).addr = cache.addr :=
  rfl

@[simp]
theorem dropFirst_data
    (cache : Cache β)
    (i : Fin maxStores) :
    (cache.dropFirst i).data = cache.data :=
  rfl

@[simp]
theorem dropFirst_buffer
    (cache : Cache β)
    (i : Fin maxStores) :
    (cache.dropFirst i).buffer = cache.buffer :=
  rfl

@[simp]
theorem dropFirst_bcCachedCount
    (cache : Cache β)
    (i : Fin maxStores) :
    (cache.dropFirst i).bcCachedCount = cache.bcCachedCount :=
  rfl

@[simp]
theorem dropFirst_stores_self
    (cache : Cache β)
    (i : Fin maxStores) :
    (cache.dropFirst i).stores i =
      { cache.stores i with
        dev := Function.update (cache.stores i).dev
          (cache.addr (cache.stores i).bcFirst)
          (cache.buffer (cache.data (cache.stores i).bcFirst))
        bcFirst := cache.next (cache.stores i).bcFirst } :=
  Function.update_self ..

theorem dropFirst_stores_of_ne
    (cache : Cache β)
    {i j : Fin maxStores}
    (other : j ≠ i) :
    (cache.dropFirst i).stores j = cache.stores j :=
  Function.update_of_ne other ..

end Cache

namespace CacheInv

variable
  {cache : Cache β}
  {cells : Lists}
  {i : Fin maxStores}
  {blk : Nat}
  {rest : List Nat}

theorem first_eq
    (inv : CacheInv cache cells)
    (first : cells i = blk :: rest) :
    (cache.stores i).bcFirst = blk := by
  have chain := inv.chain i
  rw [first] at chain
  exact chain.1

/-- What remains of the lists was there before. -/
theorem mem_of_mem_drop
    (first : cells i = blk :: rest)
    {j : Fin maxStores}
    {bc : Nat}
    (member : bc ∈ Function.update cells i rest j) :
    bc ∈ cells j := by
  by_cases same : j = i
  · subst same
    rw [Function.update_self] at member
    rw [first]
    exact List.mem_cons_of_mem blk member
  · rwa [Function.update_of_ne same] at member

/-- The entry dropped is on no list any more. -/
theorem not_mem_drop
    (inv : CacheInv cache cells)
    (first : cells i = blk :: rest)
    (j : Fin maxStores) :
    blk ∉ Function.update cells i rest j := by
  intro member
  have here : blk ∈ cells i := by simp [first]
  have same : j = i :=
    inv.entries_apart (mem_of_mem_drop first member) here
  subst same
  rw [Function.update_self] at member
  have nodup := inv.addrs_nodup j
  rw [first, List.map_cons, List.nodup_cons] at nodup
  exact nodup.1 (List.mem_map_of_mem member)

theorem dropFirst
    (inv : CacheInv cache cells)
    (first : cells i = blk :: rest) :
    CacheInv (cache.dropFirst i) (Function.update cells i rest) := by
  have head := inv.first_eq first
  have here : blk ∈ cells i := by simp [first]
  have old {j : Fin maxStores} {bc : Nat}
      (member : bc ∈ Function.update cells i rest j) : bc ∈ cells j :=
    mem_of_mem_drop first member
  constructor
  · intro j
    by_cases same : j = i
    · subst same
      have chain := inv.chain j
      rw [first] at chain
      rw [Function.update_self, Cache.dropFirst_stores_self, head]
      exact chain.2.2
    · rw [Function.update_of_ne same, Cache.dropFirst_stores_of_ne _ same]
      exact inv.chain j
  · intro j nonempty
    by_cases same : j = i
    · subst same
      rw [Cache.dropFirst_stores_self]
      exact inv.typed j (by simp [first])
    · rw [Function.update_of_ne same] at nonempty
      rw [Cache.dropFirst_stores_of_ne _ same]
      exact inv.typed j nonempty
  · intro j
    by_cases same : j = i
    · subst same
      have nodup := inv.addrs_nodup j
      rw [first, List.map_cons, List.nodup_cons] at nodup
      rw [Function.update_self]
      exact nodup.2
    · rw [Function.update_of_ne same]
      exact inv.addrs_nodup j
  · intro j j' bc member member'
    exact inv.entries_apart (old member) (old member')
  · intro j j' bc bc' member member' same
    exact inv.data_inj (old member) (old member') same
  · intro j j' bc bc' member member'
    exact inv.data_ne_entry (old member) (old member')
  · intro j bc member
    show bc ∈ cache.held.erase _
    rw [head, Finset.mem_erase]
    exact ⟨(inv.data_ne_entry here (old member)).symm,
      inv.entry_held (old member)⟩
  · intro j bc member
    show cache.data bc ∈ cache.held.erase _
    rw [head, Finset.mem_erase]
    refine ⟨fun same => ?_, inv.data_held (old member)⟩
    have equal := inv.data_inj (old member) here same
    subst equal
    exact inv.not_mem_drop first j member
  · intro member
    exact inv.null_not_held (Finset.mem_of_mem_erase member)
  · have total := Lists.total_update cells i rest
    have counted := inv.counted
    rw [first, List.length_cons] at total
    show _ ≤ cache.bcCachedCount
    omega
  · exact inv.bounded

end CacheInv

/-- The store whose first entry the loop of `bc_get` uncaches. -/
def Cache.victim
    (cache : Cache β)
    (replies : Replies β)
    (order : List (Fin maxStores)) :
    Option (Fin maxStores) :=
  order.find? fun i => (cache.stores i).bcFirst ≠ 0 ∧ replies.wr i

/-- The write with which the loop tries to save the first entry of a store. -/
def Cache.saveFirst
    (cache : Cache β)
    (replies : Replies β)
    (i : Fin maxStores) :
    WrCall β :=
  let blk := (cache.stores i).bcFirst
  ⟨i, cache.addr blk, cache.buffer (cache.data blk), replies.wr i⟩

/-- The writes of the loop, which ends with the first that succeeds. -/
def Cache.saveAttempts
    (cache : Cache β)
    (replies : Replies β) :
    List (Fin maxStores) → List (WrCall β)
  | [] => []
  | i :: rest =>
      if (cache.stores i).bcFirst = 0 then
        cache.saveAttempts replies rest
      else
        cache.saveFirst replies i ::
          if replies.wr i then [] else cache.saveAttempts replies rest

/--
The loop tries the stores in turn and drops the first entry of the victim, if
there is one.
-/
theorem CacheInv.uncache_writes
    {cache : Cache β}
    {cells : Lists}
    (inv : CacheInv cache cells)
    (replies : Replies β)
    (order : List (Fin maxStores)) :
    Cache.uncache replies order cache = some
      { (cache.victim replies order).elim cache cache.dropFirst with
        wrCalls := cache.wrCalls ++ cache.saveAttempts replies order } := by
  -- a write which fails changes the log and nothing else
  suffices general : ∀ log,
      Cache.uncache replies order { cache with wrCalls := log } = some
        { (cache.victim replies order).elim cache cache.dropFirst with
          wrCalls := log ++ cache.saveAttempts replies order } from
    general cache.wrCalls
  induction order with
  | nil =>
      intro log
      rw [Cache.saveAttempts, List.append_nil]
      rfl
  | cons i rest induction =>
      intro log
      rw [Cache.saveAttempts]
      by_cases empty : (cache.stores i).bcFirst = 0
      · rw [Cache.uncache, if_pos empty, if_pos empty, induction log,
          Cache.victim, Cache.victim,
          List.find?_cons_of_neg (by simp [empty])]
      · have nonempty : cells i ≠ [] :=
          fun nil => empty (inv.first_eq_zero_iff.mpr nil)
        have typed := inv.typed i nonempty
        rw [Cache.uncache, if_neg empty, if_neg typed, if_neg empty]
        by_cases saved : replies.wr i
        · rw [if_pos saved, if_pos saved, Cache.victim,
            List.find?_cons_of_pos (by simp [empty, saved])]
          simp [Cache.wr, saved, Cache.dropFirst, Cache.setStore,
            Cache.kfree, Cache.addr, Cache.data, Cache.next,
            Cache.saveFirst]
        · rw [if_neg saved, if_neg saved, Cache.victim,
            List.find?_cons_of_neg (by simp [saved]), ← Cache.victim,
            List.append_cons, ← induction, Cache.wr, if_neg saved]
          rfl

/-- The loop drops the first entry of the victim, if there is one. -/
theorem CacheInv.uncache_eq
    {cache : Cache β}
    {cells : Lists}
    (inv : CacheInv cache cells)
    (replies : Replies β)
    (order : List (Fin maxStores)) :
    ∃ calls, Cache.uncache replies order cache = some
      { (cache.victim replies order).elim cache cache.dropFirst with
        wrCalls := calls } :=
  ⟨_, inv.uncache_writes replies order⟩

/-! ## Loading a block -/

/-- A new entry for the block is in front of the list of its store. -/
def Cache.load
    (cache : Cache β)
    (replies : Replies β)
    (i : Fin maxStores)
    (addr : Nat) :
    Cache β :=
  let held := (cache.kalloc replies.entryPtr).kalloc replies.dataPtr
  (held.link i addr replies.entryPtr replies.dataPtr).rd replies i addr
    replies.dataPtr

namespace Cache

variable
  (cache : Cache β)
  (replies : Replies β)
  (i : Fin maxStores)
  (addr : Nat)

@[simp]
theorem load_entry_self :
    (cache.load replies i addr).entry replies.entryPtr =
      ⟨(cache.stores i).bcFirst, addr, replies.dataPtr⟩ :=
  Function.update_self ..

theorem load_entry_of_ne
    {bc : Nat}
    (other : bc ≠ replies.entryPtr) :
    (cache.load replies i addr).entry bc = cache.entry bc :=
  Function.update_of_ne other ..

@[simp]
theorem load_bcFirst_self :
    ((cache.load replies i addr).stores i).bcFirst = replies.entryPtr := by
  simp [load, rd, Cache.edit, link, setStore, setEntry, kalloc]

theorem load_bcFirst_of_ne
    {j : Fin maxStores}
    (other : j ≠ i) :
    ((cache.load replies i addr).stores j).bcFirst =
      (cache.stores j).bcFirst := by
  simp [load, rd, Cache.edit, link, setStore, setEntry, kalloc, other]

@[simp]
theorem load_type (j : Fin maxStores) :
    ((cache.load replies i addr).stores j).type =
      (cache.stores j).type := by
  by_cases same : j = i
  · subst same
    simp [load, rd, Cache.edit, link, setStore, setEntry, kalloc]
  · simp [load, rd, Cache.edit, link, setStore, setEntry, kalloc, same]

@[simp]
theorem load_dev (j : Fin maxStores) :
    ((cache.load replies i addr).stores j).dev =
      (cache.stores j).dev := by
  by_cases same : j = i
  · subst same
    simp [load, rd, Cache.edit, link, setStore, setEntry, kalloc]
  · simp [load, rd, Cache.edit, link, setStore, setEntry, kalloc, same]

@[simp]
theorem load_held :
    (cache.load replies i addr).held =
      insert replies.dataPtr (insert replies.entryPtr cache.held) :=
  rfl

@[simp]
theorem load_bcCachedCount :
    (cache.load replies i addr).bcCachedCount = cache.bcCachedCount + 1 :=
  rfl

@[simp]
theorem load_buffer_self :
    (cache.load replies i addr).buffer replies.dataPtr =
      if replies.rd then (cache.stores i).dev addr
      else replies.garbage := by
  simp [load, rd, Cache.edit, link, setStore, setEntry, kalloc]

theorem load_buffer_of_ne
    {ptr : Nat}
    (other : ptr ≠ replies.dataPtr) :
    (cache.load replies i addr).buffer ptr = cache.buffer ptr :=
  Function.update_of_ne other ..

end Cache

namespace CacheInv

variable
  {cache : Cache β}
  {cells : Lists}
  {replies : Replies β}
  {i : Fin maxStores}
  {addr : Nat}

/-- A fresh entry is on no list. -/
theorem ne_entryPtr
    (inv : CacheInv cache cells)
    (fresh : replies.Fresh cache)
    {j : Fin maxStores}
    {bc : Nat}
    (member : bc ∈ cells j) :
    bc ≠ replies.entryPtr := by
  rintro rfl
  exact fresh.entry_new (inv.entry_held member)

/-- A fresh buffer belongs to no entry. -/
theorem data_ne_dataPtr
    (inv : CacheInv cache cells)
    (fresh : replies.Fresh cache)
    {j : Fin maxStores}
    {bc : Nat}
    (member : bc ∈ cells j) :
    cache.data bc ≠ replies.dataPtr := by
  intro same
  apply fresh.data_new
  rw [← same]
  exact inv.data_held member

/-- Every listed entry is the new one or an old one. -/
theorem mem_load
    {blk : Nat}
    {j : Fin maxStores}
    {bc : Nat}
    (member : bc ∈ Function.update cells i (blk :: cells i) j) :
    (bc = blk ∧ j = i) ∨ bc ∈ cells j := by
  by_cases same : j = i
  · subst same
    rw [Function.update_self] at member
    rcases List.mem_cons.mp member with new | old
    · exact .inl ⟨new, rfl⟩
    · exact .inr old
  · rw [Function.update_of_ne same] at member
    exact .inr member

/-- Old entries stay as they are. -/
theorem load_entry
    (inv : CacheInv cache cells)
    (fresh : replies.Fresh cache)
    {j : Fin maxStores}
    {bc : Nat}
    (member : bc ∈ cells j) :
    (cache.load replies i addr).entry bc = cache.entry bc :=
  cache.load_entry_of_ne replies i addr (inv.ne_entryPtr fresh member)

theorem load_data
    (inv : CacheInv cache cells)
    (fresh : replies.Fresh cache)
    {j : Fin maxStores}
    {bc : Nat}
    (member : bc ∈ cells j) :
    (cache.load replies i addr).data bc = cache.data bc :=
  congrArg BcEntry.data (inv.load_entry fresh member)

theorem load_data_self :
    (cache.load replies i addr).data replies.entryPtr = replies.dataPtr :=
  congrArg BcEntry.data (cache.load_entry_self replies i addr)

/-- The new entry comes first on its list. -/
theorem load_chain
    (inv : CacheInv cache cells)
    (fresh : replies.Fresh cache)
    (entryOk : replies.entryPtr ≠ 0)
    (j : Fin maxStores) :
    IsChain 0 (cache.load replies i addr).next
      ((cache.load replies i addr).stores j).bcFirst
      (Function.update cells i (replies.entryPtr :: cells i) j) := by
  have oldChain : IsChain 0 (cache.load replies i addr).next
      (cache.stores j).bcFirst (cells j) :=
    (inv.chain j).congr fun bc member =>
      congrArg BcEntry.next (inv.load_entry fresh member)
  have newNext : (cache.load replies i addr).next replies.entryPtr =
      (cache.stores i).bcFirst :=
    congrArg BcEntry.next (cache.load_entry_self replies i addr)
  by_cases same : j = i
  · subst same
    rw [Function.update_self, Cache.load_bcFirst_self]
    refine ⟨rfl, entryOk, ?_⟩
    rw [newNext]
    exact oldChain
  · rw [Function.update_of_ne same, Cache.load_bcFirst_of_ne _ _ _ _ same]
    exact oldChain

theorem load_addrs_nodup
    (inv : CacheInv cache cells)
    (fresh : replies.Fresh cache)
    (missing : ∀ bc ∈ cells i, cache.addr bc ≠ addr)
    (j : Fin maxStores) :
    ((Function.update cells i (replies.entryPtr :: cells i) j).map
      (cache.load replies i addr).addr).Nodup := by
  have oldAddrs : (cells j).map (cache.load replies i addr).addr =
      (cells j).map cache.addr :=
    List.map_congr_left fun bc member =>
      congrArg BcEntry.addr (inv.load_entry fresh member)
  have newAddr : (cache.load replies i addr).addr replies.entryPtr = addr :=
    congrArg BcEntry.addr (cache.load_entry_self replies i addr)
  by_cases same : j = i
  · subst same
    rw [Function.update_self, List.map_cons, oldAddrs, newAddr,
      List.nodup_cons]
    refine ⟨?_, inv.addrs_nodup j⟩
    simpa using missing
  · rw [Function.update_of_ne same, oldAddrs]
    exact inv.addrs_nodup j

/-- The buffers of two entries are different. -/
theorem load_data_inj
    (inv : CacheInv cache cells)
    (fresh : replies.Fresh cache)
    {j j' : Fin maxStores}
    {bc bc' : Nat}
    (member : bc ∈ Function.update cells i (replies.entryPtr :: cells i) j)
    (member' : bc' ∈ Function.update cells i (replies.entryPtr :: cells i) j')
    (same : (cache.load replies i addr).data bc =
      (cache.load replies i addr).data bc') :
    bc = bc' := by
  rcases mem_load member with ⟨rfl, rfl⟩ | old <;>
    rcases mem_load member' with ⟨rfl, rfl⟩ | old'
  · rfl
  · rw [load_data_self, inv.load_data fresh old'] at same
    exact (inv.data_ne_dataPtr fresh old' same.symm).elim
  · rw [load_data_self, inv.load_data fresh old] at same
    exact (inv.data_ne_dataPtr fresh old same).elim
  · rw [inv.load_data fresh old, inv.load_data fresh old'] at same
    exact inv.data_inj old old' same

/-- No buffer is where an entry is. -/
theorem load_data_ne_entry
    (inv : CacheInv cache cells)
    (fresh : replies.Fresh cache)
    (entryOk : replies.entryPtr ≠ 0)
    {j j' : Fin maxStores}
    {bc bc' : Nat}
    (member : bc ∈ Function.update cells i (replies.entryPtr :: cells i) j)
    (member' : bc' ∈ Function.update cells i (replies.entryPtr :: cells i) j') :
    (cache.load replies i addr).data bc ≠ bc' := by
  rcases mem_load member with ⟨rfl, rfl⟩ | old <;>
    rcases mem_load member' with ⟨rfl, rfl⟩ | old'
  · rw [load_data_self]
    intro same
    exact entryOk (fresh.apart same.symm)
  · rw [load_data_self]
    rintro rfl
    exact fresh.data_new (inv.entry_held old')
  · rw [inv.load_data fresh old]
    intro same
    apply fresh.entry_new
    rw [← same]
    exact inv.data_held old
  · rw [inv.load_data fresh old]
    exact inv.data_ne_entry old old'

theorem load
    (inv : CacheInv cache cells)
    (fresh : replies.Fresh cache)
    (entryOk : replies.entryPtr ≠ 0)
    (dataOk : replies.dataPtr ≠ 0)
    (typed : (cache.stores i).type ≠ none)
    (missing : ∀ bc ∈ cells i, cache.addr bc ≠ addr)
    (room : cache.bcCachedCount < maxCachedBlocks) :
    CacheInv (cache.load replies i addr)
      (Function.update cells i (replies.entryPtr :: cells i)) := by
  refine ⟨inv.load_chain fresh entryOk, ?_,
    inv.load_addrs_nodup fresh missing, ?_, inv.load_data_inj fresh,
    inv.load_data_ne_entry fresh entryOk, ?_, ?_, ?_, ?_, ?_⟩
  · intro j nonempty
    rw [Cache.load_type]
    by_cases same : j = i
    · subst same
      exact typed
    · rw [Function.update_of_ne same] at nonempty
      exact inv.typed j nonempty
  · intro j j' bc member member'
    rcases mem_load member with ⟨rfl, rfl⟩ | old <;>
      rcases mem_load member' with ⟨new, rfl⟩ | old'
    · rfl
    · exact (inv.ne_entryPtr fresh old' rfl).elim
    · exact (inv.ne_entryPtr fresh old new).elim
    · exact inv.entries_apart old old'
  · intro j bc member
    rw [Cache.load_held]
    rcases mem_load member with ⟨rfl, rfl⟩ | old
    · simp
    · exact Finset.mem_insert_of_mem
        (Finset.mem_insert_of_mem (inv.entry_held old))
  · intro j bc member
    rw [Cache.load_held]
    rcases mem_load member with ⟨rfl, rfl⟩ | old
    · rw [load_data_self]
      simp
    · rw [inv.load_data fresh old]
      exact Finset.mem_insert_of_mem
        (Finset.mem_insert_of_mem (inv.data_held old))
  · rw [Cache.load_held]
    simp [entryOk.symm, dataOk.symm, inv.null_not_held]
  · have total := Lists.total_update cells i (replies.entryPtr :: cells i)
    have counted := inv.counted
    rw [List.length_cons] at total
    rw [Cache.load_bcCachedCount]
    omega
  · rw [Cache.load_bcCachedCount]
    omega

end CacheInv

end ForsKernel.BufferCache
