import ForsKernel.Store.Checkout

/-!
# Coherence over devices which may fail

The logical contents of a block are the last edit made to its cached buffer,
or the contents of the device if there was none since the block was loaded.
A session records those edits beside the cache.  It also records which blocks
were entered by a read that failed: `bc_get` reports the failure, but the
entry stays, and a later call finds it and reports success.
-/

namespace ForsKernel.BufferCache

open ForsKernel.Lib.Transition

variable {β : Type*}

/-- The cache with the history of its blocks. -/
structure Session (β : Type*) where
  cache : Cache β
  lastEdit : Fin maxStores → Nat → Option β
  unread : Fin maxStores → Nat → Bool

namespace Session

/-- What the block is supposed to contain. -/
def logical
    (session : Session β)
    (i : Fin maxStores)
    (addr : Nat) :
    β :=
  (session.lastEdit i addr).getD ((session.cache.stores i).dev addr)

/-- The block has just been loaded; nobody has edited it since. -/
def enter
    (session : Session β)
    (i : Fin maxStores)
    (addr : Nat)
    (failed : Bool) :
    Session β where
  cache := session.cache
  lastEdit := fun j a =>
    if j = i ∧ a = addr then none else session.lastEdit j a
  unread := fun j a =>
    if j = i ∧ a = addr then failed else session.unread j a

/-- The buffer is the one of the block. -/
def Lends
    (cache : Cache β)
    (i : Fin maxStores)
    (addr ptr : Nat) :
    Prop :=
  ∃ bc ∈ cache.entries i, cache.addr bc = addr ∧ cache.data bc = ptr

instance
    (cache : Cache β)
    (i : Fin maxStores)
    (addr ptr : Nat) :
    Decidable (Lends cache i addr ptr) :=
  inferInstanceAs (Decidable (∃ bc ∈ cache.entries i, _))

/-- A client edits a buffer. -/
def edit
    (session : Session β)
    (ptr : Nat)
    (contents : β) :
    Session β where
  cache := session.cache.edit ptr contents
  lastEdit := fun i addr =>
    if Lends session.cache i addr ptr then some contents
    else session.lastEdit i addr
  unread := fun i addr =>
    if Lends session.cache i addr ptr then false
    else session.unread i addr

/-- The history after a call of `bc_get`, which may have added an entry. -/
def afterGet
    (session : Session β)
    (id : Int)
    (addr : Nat)
    (result : GetResult β) :
    Session β :=
  let session' := { session with cache := result.2.2 }
  if result.2.2.bcCachedCount = session.cache.bcCachedCount then session'
  else
    match getStoreById id with
    | none => session'
    | some i => session'.enter i addr (result.1 == 0)

/-- A call which adds no entry changes no history. -/
theorem afterGet_same
    (session : Session β)
    (id : Int)
    (addr : Nat)
    (result : GetResult β)
    (same : result.2.2.bcCachedCount = session.cache.bcCachedCount) :
    session.afterGet id addr result =
      { session with cache := result.2.2 } :=
  if_pos same

def step (session : Session β) : CacheOp β → Option (Session β)
  | .get replies id addr =>
      (bcGet replies id addr session.cache).map (session.afterGet id addr)
  | .put replies id addr =>
      (bcPut replies id addr session.cache).map fun result =>
        { session with cache := result.2 }
  | .edit ptr contents => some (session.edit ptr contents)

/-- The block was left in the cache by a read which failed, and not edited. -/
def Spoiled
    (session : Session β)
    (i : Fin maxStores)
    (addr : Nat) :
    Prop :=
  session.cache.lookup i addr ≠ some 0 ∧ session.unread i addr = true

/-- The operation does not get a block which a failed read left behind. -/
def Clean (session : Session β) : CacheOp β → Prop
  | .get _ id addr =>
      ¬ ∃ i, getStoreById id = some i ∧ session.Spoiled i addr
  | _ => True

instance
    (session : Session β)
    (i : Fin maxStores)
    (addr : Nat) :
    Decidable (session.Spoiled i addr) :=
  inferInstanceAs (Decidable (_ ∧ _))

instance (session : Session β) :
    (op : CacheOp β) → Decidable (session.Clean op)
  | .get _ id addr => inferInstanceAs (Decidable
      (¬ ∃ i, getStoreById id = some i ∧ session.Spoiled i addr))
  | .put _ _ _ => inferInstanceAs (Decidable True)
  | .edit _ _ => inferInstanceAs (Decidable True)

end Session

/-- The cache with its clients and its history. -/
def sessionSystem (β : Type*) : System (Session β) (CacheOp β) where
  init := fun session => session.cache.Initial
  legal := fun session op => session.cache.legal op
  step := Session.step

instance
    (session : Session β)
    (op : CacheOp β) :
    Decidable ((sessionSystem β).legal session op) :=
  inferInstanceAs (Decidable (session.cache.legal op))

/-- The cache of a session goes through the steps of the cache. -/
theorem Session.cache_step
    {session session' : Session β}
    {op : CacheOp β}
    (last : (sessionSystem β).Step session op session') :
    (cacheSystem β).Step session.cache op session'.cache := by
  rcases last with ⟨legal, stepped⟩
  refine ⟨legal, ?_⟩
  have stepped' : session.step op = some session' := stepped
  show session.cache.step op = some session'.cache
  cases op with
  | get replies id addr =>
      rcases Option.map_eq_some_iff.mp stepped' with
        ⟨result, returned, rfl⟩
      rw [Cache.step_get returned]
      apply congrArg some
      rw [Session.afterGet]
      split
      · rfl
      · split <;> rfl
  | put replies id addr =>
      rcases Option.map_eq_some_iff.mp stepped' with
        ⟨result, returned, rfl⟩
      exact Cache.step_put returned
  | edit ptr contents =>
      cases stepped'
      rfl

/-- Cached blocks hold their logical contents, unless they are spoiled. -/
structure Coherent
    (session : Session β)
    (cells : Lists) :
    Prop where
  inv : CacheInv session.cache cells
  holds : ∀ i, ∀ bc ∈ cells i,
    session.unread i (session.cache.addr bc) = false →
      session.cache.buffer (session.cache.data bc) =
        session.logical i (session.cache.addr bc)

namespace Coherent

variable
  {session session' : Session β}
  {cells cells' : Lists}
  {replies : Replies β}
  {i : Fin maxStores}
  {addr : Nat}

/-- Entries which stay, with their buffers and blocks, stay coherent. -/
theorem keep
    (coherent : Coherent session cells)
    (inv' : CacheInv session'.cache cells')
    (old : ∀ i, ∀ bc ∈ cells' i, bc ∈ cells i)
    (edits : session'.lastEdit = session.lastEdit)
    (unread : session'.unread = session.unread)
    (entry : ∀ i, ∀ bc ∈ cells' i,
      session'.cache.entry bc = session.cache.entry bc)
    (buffer : session'.cache.buffer = session.cache.buffer)
    (dev : ∀ i, ∀ bc ∈ cells' i,
      (session'.cache.stores i).dev (session.cache.addr bc) =
        (session.cache.stores i).dev (session.cache.addr bc)) :
    Coherent session' cells' := by
  refine ⟨inv', ?_⟩
  intro i bc member read
  have addr : session'.cache.addr bc = session.cache.addr bc :=
    congrArg BcEntry.addr (entry i bc member)
  have data : session'.cache.data bc = session.cache.data bc :=
    congrArg BcEntry.data (entry i bc member)
  rw [addr, unread] at read
  rw [Session.logical, addr, data, buffer, edits, dev i bc member]
  exact coherent.holds i bc (old i bc member) read

/-- Uncaching a block writes no other block. -/
theorem uncached
    (coherent : Coherent session cells)
    {j : Fin maxStores}
    {blk : Nat}
    {rest : List Nat}
    (calls : List (WrCall β))
    (first : cells j = blk :: rest) :
    Coherent { session with
      cache := { session.cache.dropFirst j with wrCalls := calls } }
      (Function.update cells j rest) := by
  have inv := coherent.inv
  apply coherent.keep ((inv.dropFirst first).withWrCalls calls)
  · exact fun i bc member => CacheInv.mem_of_mem_drop first member
  · rfl
  · rfl
  · exact fun _ _ _ => rfl
  · rfl
  · intro i bc member
    show ((session.cache.dropFirst j).stores i).dev _ = _
    by_cases here : i = j
    · subst here
      rw [Cache.dropFirst_stores_self, inv.first_eq first]
      apply Function.update_of_ne
      intro same
      have equal : bc = blk := inv.addr_inj
        (CacheInv.mem_of_mem_drop first member) (by simp [first]) same
      subst equal
      exact inv.not_mem_drop first i member
    · rw [Cache.dropFirst_stores_of_ne _ here]

/-- A block whose read succeeded has the contents of the device. -/
theorem loaded
    (coherent : Coherent session cells)
    (fresh : replies.Fresh session.cache)
    (missing : ∀ bc ∈ cells i, session.cache.addr bc ≠ addr)
    (inv' : CacheInv (session.cache.load replies i addr)
      (Function.update cells i (replies.entryPtr :: cells i)))
    {failed : Bool}
    (reported : failed = false → replies.rd = true) :
    Coherent
      (Session.enter
        { session with cache := session.cache.load replies i addr }
        i addr failed)
      (Function.update cells i (replies.entryPtr :: cells i)) := by
  refine ⟨inv', ?_⟩
  intro j bc member read
  rcases CacheInv.mem_load member with ⟨rfl, rfl⟩ | old
  · have newAddr : (session.cache.load replies j addr).addr
        replies.entryPtr = addr :=
      congrArg BcEntry.addr (Cache.load_entry_self ..)
    have newData : (session.cache.load replies j addr).data
        replies.entryPtr = replies.dataPtr :=
      congrArg BcEntry.data (Cache.load_entry_self ..)
    simp only [Session.enter, newAddr, and_self, if_true] at read
    simp only [Session.logical, Session.enter, newAddr, newData, and_self,
      if_true, Option.getD_none, Cache.load_dev, Cache.load_buffer_self,
      reported read]
  · have kept := session.cache.load_entry_of_ne replies i addr
      (coherent.inv.ne_entryPtr fresh old)
    have oldAddr : (session.cache.load replies i addr).addr bc =
        session.cache.addr bc := congrArg BcEntry.addr kept
    have oldData : (session.cache.load replies i addr).data bc =
        session.cache.data bc := congrArg BcEntry.data kept
    have other : ¬ (j = i ∧ session.cache.addr bc = addr) := by
      rintro ⟨rfl, same⟩
      exact missing bc old same
    simp only [Session.enter, oldAddr, if_neg other] at read
    simp only [Session.logical, Session.enter, oldAddr, oldData,
      if_neg other, Cache.load_dev]
    rw [session.cache.load_buffer_of_ne _ _ _
      (coherent.inv.data_ne_dataPtr fresh old)]
    exact coherent.holds j bc old read

/-- A put makes the device agree with the buffer, or changes nothing. -/
theorem put
    (coherent : Coherent session cells)
    {ret : Int}
    {cache' : Cache β}
    (outcome : PutOutcome replies i addr session.cache cells ret cache')
    (inv' : CacheInv cache' cells) :
    Coherent { session with cache := cache' } cells := by
  cases outcome with
  | absent => exact ⟨inv', coherent.holds⟩
  | saved bc' member' same' =>
      refine ⟨inv', ?_⟩
      intro j bc member read
      simp only [Cache.wr_addr] at read
      have holds := coherent.holds j bc member read
      simp only [Session.logical, Cache.wr_addr, Cache.wr_data,
        Cache.wr_buffer]
      by_cases here : j = i ∧ session.cache.addr bc = addr
      · rcases here with ⟨rfl, same⟩
        have equal : bc = bc' :=
          coherent.inv.addr_inj member member' (same.trans same'.symm)
        subst equal
        by_cases ok : replies.wr j
        · rw [same, session.cache.wr_dev_self addr _ ok]
          cases edited : session.lastEdit j addr with
          | none => rfl
          | some contents =>
              rw [holds, Session.logical, same, edited]
              rfl
        · rw [session.cache.wr_refused addr _ ok]
          exact holds
      · rw [session.cache.wr_dev_of_ne addr _ here]
        exact holds

/-- The edited buffer holds the last edit, and no other is touched. -/
theorem edit
    (coherent : Coherent session cells)
    (ptr : Nat)
    (contents : β) :
    Coherent (session.edit ptr contents) cells := by
  have inv := coherent.inv
  refine ⟨inv.edit ptr contents, ?_⟩
  intro i bc member read
  have lends_iff : Session.Lends session.cache i (session.cache.addr bc) ptr ↔
      session.cache.data bc = ptr := by
    rw [Session.Lends, inv.entries_eq]
    constructor
    · rintro ⟨bc', member', same, data⟩
      rwa [inv.addr_inj member' member same] at data
    · intro data
      exact ⟨bc, member, rfl, data⟩
  show Function.update session.cache.buffer ptr contents
    (session.cache.data bc) =
      (if Session.Lends session.cache i (session.cache.addr bc) ptr then
        some contents else session.lastEdit i (session.cache.addr bc)).getD
          ((session.cache.stores i).dev (session.cache.addr bc))
  by_cases here : session.cache.data bc = ptr
  · rw [if_pos (lends_iff.mpr here), here, Function.update_self]
    rfl
  · have apart := fun lends => here (lends_iff.mp lends)
    have unread : session.unread i (session.cache.addr bc) = false := by
      have read' : (if Session.Lends session.cache i (session.cache.addr bc)
        ptr then false else session.unread i (session.cache.addr bc)) =
          false := read
      rwa [if_neg apart] at read'
    rw [if_neg apart, Function.update_of_ne here]
    exact coherent.holds i bc member unread

/-- A call of `bc_get` keeps the blocks coherent. -/
theorem get
    (coherent : Coherent session cells)
    {id : Int}
    {ret : Int}
    {buf : Option Nat}
    {cache' : Cache β}
    (slot : getStoreById id = some i)
    (fresh : replies.Fresh session.cache)
    (outcome : GetOutcome replies i addr session.cache cells ret buf cache'
      cells')
    (inv' : CacheInv cache' cells') :
    Coherent (session.afterGet id addr (ret, buf, cache')) cells' := by
  cases outcome with
  | hit =>
      rw [session.afterGet_same id addr _ rfl]
      exact coherent
  | stuck calls =>
      rw [session.afterGet_same id addr _ rfl]
      exact ⟨inv', coherent.holds⟩
  | uncached calls j blk rest missing full victim first =>
      rw [session.afterGet_same id addr _ rfl]
      exact coherent.uncached calls first
  | nomem entry missing room refused same =>
      rw [session.afterGet_same id addr _ rfl]
      exact coherent.keep inv' (fun _ _ member => member) rfl rfl same rfl
        (fun _ _ _ => rfl)
  | loaded missing room =>
      have added : ¬ session.cache.bcCachedCount + 1 =
          session.cache.bcCachedCount := by omega
      simp only [Session.afterGet, Cache.load_bcCachedCount, if_neg added,
        slot]
      apply coherent.loaded fresh missing inv'
      cases replies.rd <;> simp

theorem step
    (coherent : Coherent session cells)
    {op : CacheOp β}
    (last : (sessionSystem β).Step session op session') :
    ∃ cells', Coherent session' cells' := by
  rcases coherent.inv.step_outcome (Session.cache_step last) with
    ⟨cells', outcome, inv'⟩
  refine ⟨cells', ?_⟩
  have stepped : session.step op = some session' := last.2
  generalize after : session'.cache = cache' at outcome inv'
  cases outcome with
  | get slot fresh returned outcome =>
      rw [Session.step, returned] at stepped
      cases stepped
      exact coherent.get slot fresh outcome inv'
  | put slot outcome =>
      rcases Option.map_eq_some_iff.mp stepped with ⟨result, _, rfl⟩
      subst after
      exact coherent.put outcome inv'
  | edit member =>
      cases stepped
      exact coherent.edit _ _

end Coherent

/-- In every reachable session the cached blocks are coherent. -/
theorem coherent_of_reachable
    {session : Session β}
    (reachable : (sessionSystem β).Reachable session) :
    ∃ cells, Coherent session cells := by
  apply reachable.invariant
  · intro start initial
    exact ⟨fun _ => [], initial.inv, by simp⟩
  · rintro source op target ⟨cells, coherent⟩ last
    exact coherent.step last

/--
In a run which never gets a block left behind by a failed read, every call of
`bc_get` which reports success hands out a buffer with the logical contents of
the block.
-/
theorem bc_get_coherent
    {session session' : Session β}
    {replies : Replies β}
    {id : Int}
    {i : Fin maxStores}
    {addr : Nat}
    {ret : Int}
    {buf : Option Nat}
    {cache' : Cache β}
    (reachable : ((sessionSystem β).restrict Session.Clean).Reachable session)
    (last : ((sessionSystem β).restrict Session.Clean).Step session
      (.get replies id addr) session')
    (slot : getStoreById id = some i)
    (returned : bcGet replies id addr session.cache = some (ret, buf, cache'))
    (success : ret ≠ 0) :
    ∃ ptr, buf = some ptr ∧
      cache'.buffer ptr = session'.logical i addr := by
  rcases coherent_of_reachable reachable.of_restrict with ⟨cells, coherent⟩
  rcases last with ⟨⟨⟨⟨j, registered⟩, fresh⟩, clean⟩, stepped⟩
  have slot' := registered.1
  rw [slot] at slot'
  cases slot'
  rcases coherent.inv.bcGet_spec addr registered fresh with
    ⟨ret', buf', after, cells', returned', outcome, inv'⟩
  rw [returned] at returned'
  cases returned'
  have stepped' : session.step (.get replies id addr) = some session' :=
    stepped
  rw [Session.step, returned] at stepped'
  cases stepped'
  cases outcome with
  | hit bc member same =>
      refine ⟨_, rfl, ?_⟩
      have found : session.cache.lookup i addr ≠ some 0 := by
        rw [coherent.inv.lookup_hit member same]
        intro null
        exact (coherent.inv.chain i).ne_null bc member (Option.some.inj null)
      have read : session.unread i addr = false := by
        apply Bool.eq_false_iff.mpr
        intro unread
        exact clean ⟨i, slot, found, unread⟩
      have holds := coherent.holds i bc member
      rw [same] at holds
      rw [session.afterGet_same id addr _ rfl]
      exact holds read
  | stuck => exact (success rfl).elim
  | uncached => exact (success rfl).elim
  | nomem => exact (success rfl).elim
  | loaded missing room =>
      refine ⟨_, rfl, ?_⟩
      have read : replies.rd = true := by
        by_contra failed
        rw [if_neg failed] at success
        exact success rfl
      simp [Session.afterGet, slot, Session.enter, Session.logical, read]

/-! ## A read which fails -/

/-- The cache before any request, with no history. -/
def blankSession : Session Nat where
  cache := blankCache
  lastEdit := fun _ _ => none
  unread := fun _ _ => false

/-- The device refuses to read, and leaves 77 in the buffer. -/
def failing (entryPtr dataPtr : Nat) : Replies Nat :=
  { obeying entryPtr dataPtr with rd := false, garbage := 77 }

/-- One block is read, another is not; then the first is edited. -/
def editedSession : Session Nat :=
  (((sessionSystem Nat).restrict Session.Clean).replay blankSession
    [.get (obeying 10 20) 0 1, .get (failing 11 21) 0 2, .edit 20 99]).get
      (by decide +kernel)

theorem editedSession_reachable :
    ((sessionSystem Nat).restrict Session.Clean).Reachable editedSession :=
  ⟨blankSession, _, blankCache_initial, System.run_of_replay (.nil _)
    (Option.some_get _).symm⟩

/-- What the next call returns, which gets the edited block. -/
def rereadResult : GetResult Nat :=
  (bcGet (obeying 12 22) 0 1 editedSession.cache).get (by decide +kernel)

/-- The session after that call. -/
def rereadSession : Session Nat :=
  (editedSession.step (.get (obeying 12 22) 0 1)).get (by decide +kernel)

theorem bc_get_coherent_reread :
    ∃ ptr, rereadResult.2.1 = some ptr ∧ rereadResult.2.2.buffer ptr =
      rereadSession.logical firstStore 1 := by
  have last : ((sessionSystem Nat).restrict Session.Clean).Step
      editedSession (.get (obeying 12 22) 0 1) rereadSession :=
    ⟨by decide +kernel, (Option.some_get _).symm⟩
  have returned : bcGet (obeying 12 22) 0 1 editedSession.cache =
      some rereadResult := (Option.some_get _).symm
  exact bc_get_coherent editedSession_reachable last (by decide +kernel)
    returned (by decide +kernel)

/-- One block whose read failed. -/
def spoiledSession : Session Nat :=
  ((sessionSystem Nat).replay blankSession
    [.get (failing 10 20) 0 1]).get (by decide +kernel)

theorem spoiledSession_reachable :
    (sessionSystem Nat).Reachable spoiledSession :=
  ⟨blankSession, _, blankCache_initial, System.run_of_replay (.nil _)
    (Option.some_get _).symm⟩

/-- What the next call returns, which gets the same block. -/
def spoiledResult : GetResult Nat :=
  (bcGet (obeying 11 21) 0 1 spoiledSession.cache).get (by decide +kernel)

/-- The session after that call. -/
def spoiledAgain : Session Nat :=
  (spoiledSession.step (.get (obeying 11 21) 0 1)).get (by decide +kernel)

/--
After a read which failed, the next call for the same block reports success
and hands out what the failure left in the buffer.
-/
theorem bc_get_incoherent :
    ¬ ∀ (session session' : Session Nat) (replies : Replies Nat) (id : Int)
      (i : Fin maxStores) (addr : Nat) (ret : Int) (buf : Option Nat)
      (cache' : Cache Nat),
      (sessionSystem Nat).Reachable session →
      (sessionSystem Nat).Step session (.get replies id addr) session' →
      getStoreById id = some i →
      bcGet replies id addr session.cache = some (ret, buf, cache') →
      ret ≠ 0 →
      ∃ ptr, buf = some ptr ∧
        cache'.buffer ptr = session'.logical i addr := by
  intro claim
  have last : (sessionSystem Nat).Step spoiledSession
      (.get (obeying 11 21) 0 1) spoiledAgain :=
    ⟨by decide +kernel, (Option.some_get _).symm⟩
  have returned : bcGet (obeying 11 21) 0 1 spoiledSession.cache =
      some spoiledResult := (Option.some_get _).symm
  rcases claim spoiledSession spoiledAgain (obeying 11 21) 0 firstStore 1
    spoiledResult.1 spoiledResult.2.1 spoiledResult.2.2
    spoiledSession_reachable last (by decide +kernel) returned
    (by decide +kernel) with ⟨ptr, buf, holds⟩
  have isBuffer : spoiledResult.2.1 = some 20 := by decide +kernel
  rw [isBuffer] at buf
  cases buf
  exact absurd holds (by decide +kernel)

end ForsKernel.BufferCache
