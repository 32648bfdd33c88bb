import Mathlib.Algebra.Group.Nat.Defs
import Mathlib.Data.Finset.Basic
import Mathlib.Data.List.FinRange
import ForsKernel.Lib.Chain

/-!
# The buffer cache of the block stores

`bc_get` hands out a buffer with the contents of a block and `bc_put` writes
the buffer back.  Entries and buffers are memory which `kalloc` provided, so
they are modelled as pointers into two memories, one of entries and one of
buffers; the contents `β` of a buffer, a segment of the device, are never
looked at by the cache.

A call meets devices and a heap which may refuse.  Their replies are part of
the request, as a record `Replies`: no call makes more than one write to the
same store, one read, and one allocation of each kind.  `none` stands for a
call which does not come back.
-/

namespace ForsKernel.BufferCache

open ForsKernel.Lib.Chain

def maxCachedBlocks : Nat := 2

def maxStores : Nat := 8

/-- The loops over a list of entries make fewer turns than this. -/
def listFuel : Nat := 2 ^ 64

/-- `bc_entry_t`, less the field `id` which nothing sets or reads. -/
structure BcEntry where
  next : Nat
  addr : Nat
  data : Nat
deriving DecidableEq

/--
`store_t`.  The type is the index of its entry in `store_types`, absent for a
slot which has not been registered; the device is the blocks it holds.
-/
structure Store (β : Type*) where
  type : Option Nat
  dev : Nat → β
  bcFirst : Nat

/-- A call of a store's `wr`, and whether it succeeded. -/
structure WrCall (β : Type*) where
  store : Fin maxStores
  addr : Nat
  contents : β
  ok : Bool

/--
The globals of the store layer, the memory they point to, and what `kalloc`
has provided so far.
-/
structure Cache (β : Type*) where
  bcCachedCount : Nat
  stores : Fin maxStores → Store β
  entry : Nat → BcEntry
  buffer : Nat → β
  held : Finset Nat
  wrCalls : List (WrCall β)

/-- What the devices and the heap reply during one call. -/
structure Replies (β : Type*) where
  wr : Fin maxStores → Bool
  rd : Bool
  garbage : β
  entryPtr : Nat
  dataPtr : Nat

variable {β : Type*}

namespace Cache

def next
    (cache : Cache β)
    (bc : Nat) :
    Nat :=
  (cache.entry bc).next

def addr
    (cache : Cache β)
    (bc : Nat) :
    Nat :=
  (cache.entry bc).addr

def data
    (cache : Cache β)
    (bc : Nat) :
    Nat :=
  (cache.entry bc).data

def setStore
    (cache : Cache β)
    (i : Fin maxStores)
    (st : Store β) :
    Cache β :=
  { cache with stores := Function.update cache.stores i st }

def setEntry
    (cache : Cache β)
    (bc : Nat)
    (contents : BcEntry) :
    Cache β :=
  { cache with entry := Function.update cache.entry bc contents }

/-- The memory at `ptr` is in use from now on. -/
def kalloc
    (cache : Cache β)
    (ptr : Nat) :
    Cache β :=
  { cache with held := insert ptr cache.held }

def kfree
    (cache : Cache β)
    (ptr : Nat) :
    Cache β :=
  { cache with held := cache.held.erase ptr }

/-- A client writes to memory it was given. -/
def edit
    (cache : Cache β)
    (ptr : Nat)
    (contents : β) :
    Cache β :=
  { cache with buffer := Function.update cache.buffer ptr contents }

/-- A device which refuses a write keeps its blocks. -/
def wr
    (cache : Cache β)
    (replies : Replies β)
    (i : Fin maxStores)
    (addr data : Nat) :
    Cache β :=
  let st := cache.stores i
  let called := { cache with wrCalls := cache.wrCalls ++
    [⟨i, addr, cache.buffer data, replies.wr i⟩] }
  if replies.wr i then
    called.setStore i
      { st with dev := Function.update st.dev addr (cache.buffer data) }
  else
    called

/-- A device which refuses a read leaves anything in the buffer. -/
def rd
    (cache : Cache β)
    (replies : Replies β)
    (i : Fin maxStores)
    (addr data : Nat) :
    Cache β :=
  cache.edit data
    (if replies.rd then (cache.stores i).dev addr else replies.garbage)

/-- The loop of `bc_get` and `bc_put` over the entries of a store. -/
def lookup
    (cache : Cache β)
    (i : Fin maxStores)
    (addr : Nat) :
    Option Nat :=
  search 0 cache.next (fun bc => cache.addr bc = addr) listFuel
    (cache.stores i).bcFirst

/-- The entries of a store, in the order of its list. -/
def entries
    (cache : Cache β)
    (i : Fin maxStores) :
    List Nat :=
  collect 0 cache.next listFuel (cache.stores i).bcFirst

/--
The loop of `bc_get` over the stores, which looks for a block to uncache: the
first one which can be saved is unlinked and its buffer freed.
-/
def uncache (replies : Replies β) :
    List (Fin maxStores) → Cache β → Option (Cache β)
  | [], cache => some cache
  | i :: rest, cache =>
      let victim := cache.stores i
      let blk := victim.bcFirst
      if blk = 0 then
        uncache replies rest cache
      else if victim.type = none then
        none
      else
        let saved := cache.wr replies i (cache.addr blk) (cache.data blk)
        if replies.wr i then
          some ((saved.setStore i
            { saved.stores i with bcFirst := cache.next blk }).kfree
              (cache.data blk))
        else
          uncache replies rest saved

/-- Link a new entry in front of a store's list. -/
def link
    (cache : Cache β)
    (i : Fin maxStores)
    (addr blk data : Nat) :
    Cache β :=
  let linked := cache.setEntry blk ⟨(cache.stores i).bcFirst, addr, data⟩
  { linked.setStore i { cache.stores i with bcFirst := blk } with
    bcCachedCount := cache.bcCachedCount + 1 }

end Cache

/-- The slot of a store, unless the id is out of range. -/
def getStoreById (id : Int) : Option (Fin maxStores) :=
  if inside : id < 0 ∨ maxStores ≤ id then none
  else some ⟨id.toNat, by omega⟩

/-- The return value, the pointer stored to `*buf` if any, and the state. -/
abbrev GetResult (β : Type*) := Int × Option Nat × Cache β

def bcGet
    (replies : Replies β)
    (id : Int)
    (addr : Nat)
    (cache : Cache β) :
    Option (GetResult β) :=
  match getStoreById id with
  | none => some (0, none, cache)
  | some i =>
      (cache.lookup i addr).bind fun bc =>
        if bc ≠ 0 then
          some (1, some (cache.data bc), cache)
        else if cache.bcCachedCount = maxCachedBlocks then
          -- the loop leaves the function in both of its outcomes
          (Cache.uncache replies (List.finRange maxStores) cache).map
            fun cache' => (0, none, cache')
        else if replies.entryPtr = 0 then
          some (0, none, cache)
        else if (cache.stores i).type = none then
          none
        else if replies.dataPtr = 0 then
          let blk := replies.entryPtr
          some (0, none, ((cache.kalloc blk).setEntry blk
            { cache.entry blk with addr := addr, data := 0 }).kfree blk)
        else
          let held := (cache.kalloc replies.entryPtr).kalloc replies.dataPtr
          let linked := held.link i addr replies.entryPtr replies.dataPtr
          some (if replies.rd then 1 else 0, some replies.dataPtr,
            linked.rd replies i addr replies.dataPtr)

/-- A block which is not cached counts as saved. -/
def bcPut
    (replies : Replies β)
    (id : Int)
    (addr : Nat)
    (cache : Cache β) :
    Option (Int × Cache β) :=
  match getStoreById id with
  | none => some (-1, cache)
  | some i =>
      (cache.lookup i addr).bind fun bc =>
        if bc ≠ 0 then
          if (cache.stores i).type = none then none
          else some (if replies.wr i then 1 else 0,
            cache.wr replies i addr (cache.data bc))
        else
          some (1, cache)

end ForsKernel.BufferCache
