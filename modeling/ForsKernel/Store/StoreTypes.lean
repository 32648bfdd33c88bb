import Mathlib.Data.List.GetD
import ForsKernel.Fs.Prefixes
import ForsKernel.Store.BufferCache

/-!
# Store types and stores

Drivers register the type of store they implement under a name, and
`register_store` opens a store of a type which it looks up by its name.  The
lookup compares with `strncmp`, for which the empty name of an unused entry is
as good as any other.
-/

namespace ForsKernel.BufferCache

open ForsKernel.Fs

/-! ## The tables -/

/-- `MAX_STORETYPES`. -/
def maxStoretypes : Nat := 4

/-- The bytes of a `char name[8]` before the first zero byte, if any. -/
structure StoreName where
  bytes : CString
  length_le : bytes.length ≤ 8
  no_nul : 0 ∉ bytes

variable {β : Type*}

/--
`store_type_t`, less what no function here calls.  `init` connects a store to
its device, and is absent in an unused entry.
-/
structure StoreType (β : Type*) where
  name : StoreName
  init : Option ((Nat → β) → CString → Int × (Nat → β))

/-- `store_types`. -/
abbrev StoreTypes (β : Type*) := Nat → StoreType β

/-- `stores`. -/
abbrev Stores (β : Type*) := Fin maxStores → Store β

namespace StoreTypes

/-- No entry has been used yet. -/
def boot : StoreTypes β :=
  fun _ => ⟨⟨[], by decide, by decide⟩, none⟩

/-- The name of an entry. -/
def nameAt
    (types : StoreTypes β)
    (id : Nat) :
    CString :=
  (types id).name.bytes

theorem length_nameAt_le
    (types : StoreTypes β)
    (id : Nat) :
    (types.nameAt id).length ≤ 8 :=
  (types id).name.length_le

end StoreTypes

def findStoretype
    (types : StoreTypes β)
    (name : CString) :
    Int :=
  match (List.range maxStoretypes).find? fun id =>
      strncmp name (types.nameAt id) 8 == 0 with
  | some id => id
  | none => -1

/-- The first entry whose name is empty is free. -/
def registerStoretype
    (types : StoreTypes β)
    (type : StoreType β) :
    Int × StoreTypes β :=
  match (List.range maxStoretypes).find? fun id => types.nameAt id == [] with
  | some id => (id, Function.update types id type)
  | none => (-1, types)

/-- The table after these registrations. -/
def registerAll
    (types : StoreTypes β)
    (registered : List (StoreType β)) :
    StoreTypes β :=
  registered.foldl (fun types type => (registerStoretype types type).2) types

/-- The first slot which no store uses. -/
def freeSlot (stores : Stores β) : Option (Fin maxStores) :=
  (List.finRange maxStores).find? fun id => decide ((stores id).type = none)

/-- The slot is filled in before `init` decides.  An absent `init` faults. -/
def registerStore
    (types : StoreTypes β)
    (storetype cfg : CString)
    (stores : Stores β) :
    Option (Int × Stores β) :=
  match freeSlot stores with
  | none => some (-1, stores)
  | some id =>
      let stid := findStoretype types storetype
      if stid < 0 then some (-1, stores)
      else
        (types stid.toNat).init.map fun init =>
          let started := init (stores id).dev cfg
          let st : Store β :=
            { type := some stid.toNat, dev := started.2, bcFirst := 0 }
          (if started.1 = 0 then -1 else id, Function.update stores id st)

/-! ## Looking a type up -/

/-- The entry has been registered under this name, which ends at 8 bytes. -/
def RegisteredAs
    (types : StoreTypes β)
    (id : Nat)
    (name : CString) :
    Prop :=
  id < maxStoretypes ∧ types.nameAt id ≠ [] ∧ types.nameAt id = name.take 8

/--
The lookup finds an entry registered under the name and fails if there is
none, and then no store can be registered.
-/
structure FindsExactly
    (types : StoreTypes β)
    (name : CString) :
    Prop where
  found : ∀ id : Nat, findStoretype types name = id →
    RegisteredAs types id name
  missing : findStoretype types name = -1 ↔
    ∀ id, ¬ RegisteredAs types id name
  refused : (∀ id, ¬ RegisteredAs types id name) → ∀ cfg stores,
    registerStore types name cfg stores = some (-1, stores)

section

variable
  {types : StoreTypes β}
  {names : List CString}

/-- The entries have these names, and the others are unused. -/
structure Names
    (types : StoreTypes β)
    (names : List CString) :
    Prop where
  length_le : names.length ≤ maxStoretypes
  nonempty : [] ∉ names
  nameAt_eq : ∀ id < maxStoretypes, types.nameAt id = names.getD id []

theorem names_boot : Names (StoreTypes.boot : StoreTypes β) [] :=
  ⟨by decide, by simp, fun _ _ => rfl⟩

theorem Names.nameAt_eq_nil_iff
    (holds : Names types names)
    {id : Nat}
    (inside : id < maxStoretypes) :
    types.nameAt id = [] ↔ names.length ≤ id := by
  rw [holds.nameAt_eq id inside]
  constructor
  · intro empty
    by_contra used
    have lt : id < names.length := by omega
    rw [List.getD_eq_getElem _ _ lt] at empty
    apply holds.nonempty
    rw [← empty]
    exact List.getElem_mem lt
  · exact List.getD_eq_default names []

/-- A type joins behind the others, as long as there is room. -/
theorem Names.register
    (holds : Names types names)
    {type : StoreType β}
    (named : type.name.bytes ≠ []) :
    Names (registerStoretype types type).2
      ((names ++ [type.name.bytes]).take maxStoretypes) := by
  have le := holds.length_le
  by_cases room : names.length < maxStoretypes
  · have free : (List.range maxStoretypes).find? (fun id =>
        types.nameAt id == []) = some names.length := by
      rw [List.find?_range_eq_some]
      refine ⟨?_, List.mem_range.mpr room, ?_⟩
      · rw [beq_iff_eq]
        exact (holds.nameAt_eq_nil_iff room).mpr (Nat.le_refl _)
      · intro id before
        have used : types.nameAt id ≠ [] := by
          rw [Ne, holds.nameAt_eq_nil_iff (by omega)]
          omega
        simpa using used
    have short : (names ++ [type.name.bytes]).length ≤ maxStoretypes := by
      rw [List.length_append, List.length_singleton]
      omega
    rw [registerStoretype, free, List.take_of_length_le short]
    refine ⟨short, ?_, ?_⟩
    · intro empty
      rcases List.mem_append.mp empty with old | new
      · exact holds.nonempty old
      · exact named (List.mem_singleton.mp new).symm
    · intro id inside
      show (Function.update types names.length type id).name.bytes = _
      by_cases here : id = names.length
      · subst here
        simp
      · rw [Function.update_of_ne here]
        have old := holds.nameAt_eq id inside
        by_cases before : id < names.length
        · rw [List.getD_append _ _ _ _ before]
          exact old
        · rw [List.getD_eq_default _ _ (by
            rw [List.length_append, List.length_singleton]
            omega)]
          rw [List.getD_eq_default _ _ (by omega)] at old
          exact old
  · have full : names.length = maxStoretypes := by omega
    have none_free : (List.range maxStoretypes).find? (fun id =>
        types.nameAt id == []) = none := by
      rw [List.find?_eq_none]
      intro id inside
      have used : types.nameAt id ≠ [] := by
        rw [Ne, holds.nameAt_eq_nil_iff (List.mem_range.mp inside), full]
        have := List.mem_range.mp inside
        omega
      simpa using used
    rw [registerStoretype, none_free, ← full, List.take_left]
    exact holds

/-- After some registrations the table has the names of the first of them. -/
theorem Names.registerAll
    (holds : Names types names)
    {registered : List (StoreType β)}
    (named : ∀ type ∈ registered, type.name.bytes ≠ []) :
    Names (registerAll types registered)
      ((names ++ registered.map fun type => type.name.bytes).take
        maxStoretypes) := by
  induction registered generalizing types names with
  | nil =>
      rw [List.map_nil, List.append_nil,
        List.take_of_length_le holds.length_le]
      exact holds
  | cons type rest induction =>
      have next := holds.register (named type List.mem_cons_self)
      have after := induction next fun other member =>
        named other (List.mem_cons_of_mem type member)
      rw [List.map_cons, List.append_cons]
      rw [List.take_append, List.take_take, List.length_take,
        min_self] at after
      rw [List.take_append]
      have left : maxStoretypes -
          min maxStoretypes (names ++ [type.name.bytes]).length =
            maxStoretypes - (names ++ [type.name.bytes]).length := by omega
      rw [left] at after
      exact after

/-- The names of all entries, with the unused ones. -/
theorem Names.map_nameAt (holds : Names types names) :
    (List.range maxStoretypes).map types.nameAt =
      names ++ List.replicate (maxStoretypes - names.length) [] := by
  have le := holds.length_le
  apply List.ext_getElem
  · rw [List.length_map, List.length_range, List.length_append,
      List.length_replicate]
    omega
  · intro id inside _
    rw [List.length_map, List.length_range] at inside
    rw [List.getElem_map, List.getElem_range, holds.nameAt_eq id inside]
    by_cases used : id < names.length
    · rw [List.getElem_append_left used, List.getD_eq_getElem _ _ used]
    · rw [List.getElem_append_right (by omega), List.getElem_replicate,
        List.getD_eq_default _ _ (by omega)]

/-- The lookup takes the first entry whose name has a common prefix. -/
theorem findStoretype_eq
    (types : StoreTypes β)
    (name : CString) :
    findStoretype types name =
      match (List.range maxStoretypes).find? fun id =>
          decide (Comparable (types.nameAt id) (name.take 8)) with
      | some id => id
      | none => -1 := by
  have same (id : Nat) : (strncmp name (types.nameAt id) 8 == 0) =
      decide (Comparable (types.nameAt id) (name.take 8)) := by
    rw [Bool.eq_iff_iff, beq_iff_eq, decide_eq_true_eq, strncmp_eq_zero,
      List.take_of_length_le (types.length_nameAt_le id), Comparable.comm]
  simp only [findStoretype, same]

theorem findStoretype_eq_ofNat_iff
    {name : CString}
    {id : Nat} :
    findStoretype types name = id ↔
      (List.range maxStoretypes).find? (fun id =>
        decide (Comparable (types.nameAt id) (name.take 8))) = some id := by
  rw [findStoretype_eq]
  cases (List.range maxStoretypes).find? fun id =>
      decide (Comparable (types.nameAt id) (name.take 8)) with
  | none =>
      show (-1 : Int) = id ↔ _
      constructor
      · intro negative
        omega
      · intro nothing
        cases nothing
  | some other =>
      rw [Option.some.injEq]
      exact Int.ofNat_inj

theorem findStoretype_eq_neg_one_iff {name : CString} :
    findStoretype types name = -1 ↔
      (List.range maxStoretypes).find? (fun id =>
        decide (Comparable (types.nameAt id) (name.take 8))) = none := by
  rw [findStoretype_eq]
  cases (List.range maxStoretypes).find? fun id =>
      decide (Comparable (types.nameAt id) (name.take 8)) with
  | none => simp
  | some other =>
      show (other : Int) = -1 ↔ _
      constructor
      · intro negative
        omega
      · intro nothing
        cases nothing

/-- No store is registered with a type which is not found. -/
theorem registerStore_of_missing
    {storetype : CString}
    (missing : findStoretype types storetype = -1)
    (cfg : CString)
    (stores : Stores β) :
    registerStore types storetype cfg stores = some (-1, stores) := by
  rw [registerStore]
  cases freeSlot stores with
  | none => rfl
  | some id => simp [missing]

/-- The lookup is exact just when no entry shadows the name. -/
theorem findsExactly_iff {name : CString} :
    FindsExactly types name ↔ name.take 8 ≠ [] ∧
      Unshadowed (name.take 8)
        ((List.range maxStoretypes).map types.nameAt) := by
  constructor
  · intro exact
    refine ⟨?_, ?_⟩
    · intro empty
      have first : findStoretype types name = (0 : Nat) := by
        rw [findStoretype_eq_ofNat_iff, empty]
        have comparable (id : Nat) : Comparable (types.nameAt id) [] :=
          .inr List.nil_prefix
        simp [comparable, maxStoretypes, List.range_succ_eq_map]
      rcases exact.found 0 first with ⟨_, used, same⟩
      exact used (same.trans empty)
    · apply find?_comparable_iff.mp
      intro id found
      exact (exact.found id (findStoretype_eq_ofNat_iff.mpr found)).2.2
  · rintro ⟨nonempty, unshadowed⟩
    have absent : findStoretype types name = -1 ↔
        ∀ id, ¬ RegisteredAs types id name := by
      rw [findStoretype_eq_neg_one_iff, unshadowed.find?_eq,
        List.find?_eq_none]
      constructor
      · rintro none_equal id ⟨inside, _, same⟩
        have different := none_equal id (List.mem_range.mpr inside)
        simp [same] at different
      · intro unregistered id inside
        rw [decide_eq_true_eq]
        intro same
        apply unregistered id
        exact ⟨List.mem_range.mp inside, by rw [same]; exact nonempty, same⟩
    refine ⟨?_, absent, ?_⟩
    · intro id found
      have first := findStoretype_eq_ofNat_iff.mp found
      have same := find?_comparable_iff.mpr unshadowed id first
      exact ⟨List.mem_range.mp (List.mem_of_find?_eq_some first),
        by rw [same]; exact nonempty, same⟩
    · intro unregistered cfg stores
      exact registerStore_of_missing (absent.mpr unregistered) cfg stores

end

/--
After any registrations, a lookup is exact just when the name is not empty,
every registered name which overlaps it stands behind the name itself, and the
name is registered unless the table is full.
-/
theorem find_storetype_exact_iff
    (registered : List (StoreType β))
    (named : ∀ type ∈ registered, type.name.bytes ≠ [])
    (name : CString) :
    FindsExactly (registerAll .boot registered) name ↔
      ∃ names, names =
          (registered.map fun type => type.name.bytes).take maxStoretypes ∧
        name.take 8 ≠ [] ∧ Unshadowed (name.take 8) names ∧
          (names.length < maxStoretypes → name.take 8 ∈ names) := by
  have holds := names_boot.registerAll named
  rw [List.nil_append] at holds
  rw [findsExactly_iff, holds.map_nameAt]
  have le := holds.length_le
  constructor
  · rintro ⟨nonempty, unshadowed⟩
    refine ⟨_, rfl, nonempty, ?_⟩
    rw [unshadowed_append, unshadowed_replicate_nil nonempty] at unshadowed
    refine ⟨unshadowed.1, ?_⟩
    intro room
    rcases unshadowed.2 with inside | full
    · exact inside
    · omega
  · rintro ⟨_, rfl, nonempty, unshadowed, inside⟩
    refine ⟨nonempty, ?_⟩
    rw [unshadowed_append, unshadowed_replicate_nil nonempty]
    refine ⟨unshadowed, ?_⟩
    by_cases room : ((registered.map fun type => type.name.bytes).take
        maxStoretypes).length < maxStoretypes
    · exact .inl (inside room)
    · exact .inr (by omega)

/-- The name of the disk driver. -/
def atapio : CString :=
  [97, 116, 97, 112, 105, 111]

/-- The disk driver, whose `init` always succeeds. -/
def ataStoreType : StoreType Nat where
  name := ⟨atapio, by decide, by decide⟩
  init := some fun dev _ => (1, dev)

/-- The type which the kernel registers is found. -/
theorem find_storetype_exact_atapio :
    FindsExactly (registerAll .boot [ataStoreType]) atapio :=
  (find_storetype_exact_iff [ataStoreType] (by decide) atapio).mpr
    ⟨[atapio], by decide, by decide,
      unshadowed_cons.mpr (by rw [if_pos (by decide)]; decide), by decide⟩

/-- The name of a driver which does not exist. -/
def ramdisk : CString :=
  [114, 97, 109, 100, 105, 115, 107]

/-- An unused entry is returned for a name which nothing is registered as. -/
theorem find_storetype_returns_unused :
    findStoretype (registerAll .boot [ataStoreType]) ramdisk = 1 ∧
      ¬ FindsExactly (registerAll .boot [ataStoreType]) ramdisk := by
  have first : findStoretype (registerAll .boot [ataStoreType]) ramdisk =
      (1 : Nat) := by decide +kernel
  refine ⟨first, ?_⟩
  intro exact
  rcases exact.found 1 first with ⟨_, used, _⟩
  exact used (by decide +kernel)

/-! ## Registering a store -/

/--
A call which fails leaves the table of stores as it was, and any other changes
the slot it returns and no other, which was free.
-/
def LeavesNoTrace
    (types : StoreTypes β)
    (storetype cfg : CString)
    (stores : Stores β) :
    Prop :=
  ∀ ret stores',
    registerStore types storetype cfg stores = some (ret, stores') →
      (ret = -1 ∧ stores' = stores) ∨
        ∃ id : Fin maxStores, ret = id ∧ (stores id).type = none ∧
          ∀ other ≠ id, stores' other = stores other

/-- There is a free slot, and the `init` of the type found refuses. -/
def InitRefuses
    (types : StoreTypes β)
    (storetype cfg : CString)
    (stores : Stores β) :
    Prop :=
  ∃ id stid init, freeSlot stores = some id ∧
    findStoretype types storetype = (stid : Nat) ∧
      (types stid).init = some init ∧ (init (stores id).dev cfg).1 = 0

theorem free_of_freeSlot
    {stores : Stores β}
    {id : Fin maxStores}
    (free : freeSlot stores = some id) :
    (stores id).type = none := by
  have chosen := List.find?_some free
  simpa using chosen

/-- The slot has been filled in before `init` refuses. -/
theorem InitRefuses.trace
    {types : StoreTypes β}
    {storetype cfg : CString}
    {stores : Stores β}
    (refuses : InitRefuses types storetype cfg stores) :
    ¬ LeavesNoTrace types storetype cfg stores := by
  intro traceless
  rcases refuses with ⟨id, stid, init, free, found, typed, refused⟩
  have returned : registerStore types storetype cfg stores =
      some (-1, Function.update stores id
        ⟨some stid, (init (stores id).dev cfg).2, 0⟩) := by
    simp [registerStore, free, found, typed, refused]
  rcases traceless _ _ returned with ⟨_, same⟩ | ⟨slot, negative, _⟩
  · have filled := congrFun same id
    rw [Function.update_self] at filled
    have unused := free_of_freeSlot free
    rw [← filled] at unused
    cases unused
  · omega

/--
A call of `register_store` leaves no trace when it fails, unless it is `init`
which fails: the slot has been filled in by then.
-/
theorem register_store_no_trace_iff
    (types : StoreTypes β)
    (storetype cfg : CString)
    (stores : Stores β) :
    LeavesNoTrace types storetype cfg stores ↔
      ¬ InitRefuses types storetype cfg stores := by
  constructor
  · exact fun traceless refuses => refuses.trace traceless
  · intro accepted ret stores' returned
    rw [registerStore] at returned
    cases free : freeSlot stores with
    | none =>
        rw [free] at returned
        cases returned
        exact .inl ⟨rfl, rfl⟩
    | some id =>
        simp only [free] at returned
        by_cases missing : findStoretype types storetype < 0
        · rw [if_pos missing] at returned
          cases returned
          exact .inl ⟨rfl, rfl⟩
        · rw [if_neg missing] at returned
          rcases Option.map_eq_some_iff.mp returned with
            ⟨init, typed, result⟩
          have started : (init (stores id).dev cfg).1 ≠ 0 := by
            intro refused
            apply accepted
            exact ⟨id, _, init, free, (Int.toNat_of_nonneg (by omega)).symm,
              typed, refused⟩
          rw [if_neg started] at result
          cases result
          exact .inr ⟨id, rfl, free_of_freeSlot free,
            fun other different => Function.update_of_ne different ..⟩

/-- A driver whose device is never there. -/
def absentType : StoreType Nat where
  name := ⟨atapio, by decide, by decide⟩
  init := some fun dev _ => (0, dev)

/-- No slot is in use. -/
def noStores : Stores Nat :=
  fun _ => ⟨none, id, 0⟩

/-- The slot is taken although the registration has failed. -/
theorem register_store_leaves_slot :
    ¬ LeavesNoTrace (registerAll .boot [absentType]) atapio [] noStores := by
  have refuses : InitRefuses (registerAll .boot [absentType]) atapio []
      noStores :=
    ⟨⟨0, by decide⟩, 0, fun dev _ => (0, dev), by decide +kernel,
      by decide +kernel, rfl, rfl⟩
  exact refuses.trace

end ForsKernel.BufferCache
