import ForsKernel.Memory.SharedMemory

/-!
# Page tables beside free frames

`Standing` says that the tables of all roots and the frames of the free list
lie apart in one memory.  A call of `map_page_4k` which draws its tables from
the allocator then has the effect it has when the answers are given from
outside, and it leaves all other frames alone.
-/

namespace ForsKernel.Memory.Shared

open ForsKernel.Lib.RadixForest
open ForsKernel.Memory.Paging
open ForsKernel.Memory.Frames (Holds)

/-! ## The answers of the allocator -/

/--
Frames in the order in which tables take them: the tables there are below the
roots, and then the free frames.
-/
structure FrameOrder
    (roots : Set Nat)
    (order : List Nat) :
    Prop where
  root_frame : ∀ root ∈ roots, IsFrame root
  root_ne_null : ∀ root ∈ roots, root ≠ 0
  frame : ∀ f ∈ order, IsFrame f
  ne_null : ∀ f ∈ order, f ≠ 0
  not_root : ∀ f ∈ order, f ∉ roots
  nodup : order.Nodup

/-- An answer which is not `NULL` is the next frame of the order. -/
theorem getD_mem
    {order : List Nat}
    {k : Nat}
    (notNull : order.getD k 0 ≠ 0) :
    k < order.length ∧ order.getD k 0 ∈ order := by
  by_cases inside : k < order.length
  · refine ⟨inside, ?_⟩
    rw [List.getD_eq_getElem order 0 inside]
    exact List.getElem_mem inside
  · exact (notNull (List.getD_eq_default order 0 (not_lt.mp inside))).elim

namespace FrameOrder

variable
  {roots : Set Nat}
  {order : List Nat}

theorem answer_frame (ordered : FrameOrder roots order) :
    ∀ k ≥ 0, order.getD k 0 ≠ 0 → IsFrame (order.getD k 0) :=
  fun _ _ notNull => ordered.frame _ (getD_mem notNull).2

theorem answer_not_root (ordered : FrameOrder roots order) :
    ∀ k ≥ 0, order.getD k 0 ≠ 0 → order.getD k 0 ∉ roots :=
  fun _ _ notNull => ordered.not_root _ (getD_mem notNull).2

theorem answer_fresh (ordered : FrameOrder roots order) :
    ∀ j ≥ 0, ∀ k > j, order.getD k 0 ≠ 0 →
      order.getD j 0 ≠ order.getD k 0 := by
  intro j _ k later notNull same
  have last := (getD_mem notNull).1
  have first : j < order.length := Nat.lt_trans later last
  rw [List.getD_eq_getElem order 0 first,
    List.getD_eq_getElem order 0 last] at same
  have equal := (ordered.nodup.getElem_inj_iff).mp same
  omega

/-- The allocator as `map_page_4k` sees it. -/
def supply (ordered : FrameOrder roots order) : FrameSupply where
  roots := roots
  frames := fun k => order.getD k 0
  first := 0
  root_frame := ordered.root_frame
  answer_frame := ordered.answer_frame
  answer_not_root := ordered.answer_not_root
  answer_fresh := ordered.answer_fresh

/-- A table is a root or a frame which has been taken. -/
theorem mem_known
    (ordered : FrameOrder roots order)
    {taken f : Nat}
    (bound : taken ≤ order.length) :
    f ∈ ordered.supply.known taken ↔ f ∈ roots ∨ f ∈ order.take taken := by
  refine or_congr Iff.rfl ?_
  rw [List.mem_take_iff_getElem]
  constructor
  · rintro ⟨k, _, below, rfl⟩
    exact ⟨k, by omega, (List.getD_eq_getElem order 0 (by omega)).symm⟩
  · rintro ⟨k, below, rfl⟩
    exact ⟨k, Nat.zero_le k, by omega,
      (List.getD_eq_getElem order 0 (by omega)).symm⟩

theorem not_free
    (ordered : FrameOrder roots order)
    {taken f : Nat}
    (bound : taken ≤ order.length)
    (known : f ∈ ordered.supply.known taken) :
    f ∉ order.drop taken := by
  intro free
  rcases (ordered.mem_known bound).mp known with isRoot | isTaken
  · exact ordered.not_root f (List.mem_of_mem_drop free) isRoot
  · exact List.disjoint_take_drop ordered.nodup (Nat.le_refl taken) isTaken
      free

theorem ne_null_of_known
    (ordered : FrameOrder roots order)
    {taken f : Nat}
    (bound : taken ≤ order.length)
    (known : f ∈ ordered.supply.known taken) :
    f ≠ 0 := by
  rcases (ordered.mem_known bound).mp known with isRoot | isTaken
  · exact ordered.root_ne_null f isRoot
  · exact ordered.ne_null f (List.mem_of_mem_take isTaken)

end FrameOrder

/-! ## Tables beside free frames -/

/-- The tables are in order, and the frames not taken are the free list. -/
structure Standing
    {roots : Set Nat}
    {order : List Nat}
    (ordered : FrameOrder roots order)
    (memory : PhysicalMemory)
    (taken : Nat)
    (used : Set Nat)
    (rank : Nat → Nat)
    (parent : Nat → Nat × Fin 512) :
    Prop where
  bound : taken ≤ order.length
  free : Holds memory.pool (order.drop taken)
  inv : MachineInv ordered.supply ⟨memory.mem, taken⟩ used rank parent

/-- Frames which are neither tables nor free are left alone. -/
def Untouched
    (roots : Set Nat)
    (order : List Nat)
    (memory memory' : PhysicalMemory) :
    Prop :=
  ∀ g, IsFrame g → g ≠ 0 → g ∉ roots → g ∉ order →
    ∀ i, table memory'.mem g i = table memory.mem g i

section

variable
  {roots : Set Nat}
  {order : List Nat}
  {memory memory₁ memory₂ : PhysicalMemory}

theorem Untouched.refl
    (roots : Set Nat)
    (order : List Nat)
    (memory : PhysicalMemory) :
    Untouched roots order memory memory :=
  fun _ _ _ _ _ _ => rfl

theorem Untouched.trans
    (first : Untouched roots order memory memory₁)
    (second : Untouched roots order memory₁ memory₂) :
    Untouched roots order memory memory₂ := by
  intro g isFrame notNull notRoot outside i
  rw [second g isFrame notNull notRoot outside i,
    first g isFrame notNull notRoot outside i]

/-- Only the words of the tables in use matter to them. -/
theorem machineInv_congr
    {supply : FrameSupply}
    {mem mem' : Nat → Nat}
    {calls : Nat}
    {used : Set Nat}
    {rank : Nat → Nat}
    {parent : Nat → Nat × Fin 512}
    (inv : MachineInv supply ⟨mem, calls⟩ used rank parent)
    (same : ∀ f ∈ used, ∀ i, table mem' f i = table mem f i) :
    MachineInv supply ⟨mem', calls⟩ used rank parent ∧
      Extends mem used rank mem' used rank := by
  have tables := inv.tables
  have sameChild : ∀ f ∈ used, 0 < rank f → ∀ i,
      child (table mem' f i) = child (table mem f i) := by
    intro f member _ i
    rw [same f member i]
  refine ⟨⟨⟨tables.frame, tables.forest.congr sameChild, ?_, ?_⟩,
    inv.started, inv.known, inv.root_used, inv.root_rank, inv.rank_le⟩,
    ⟨subset_rfl, fun _ _ => rfl, ?_, ?_⟩⟩
  · intro f member inner i
    show ¬ HasFlag (table mem' f i) psePagesize
    rw [same f member i]
    exact tables.small f member inner i
  · intro f member inner i c edge j present
    replace edge : child (table mem' f i) = some c := edge
    replace present : HasFlag (table mem' c j) psePresent := present
    show Grants (table mem' f i) (table mem' c j)
    rw [same f member i] at edge ⊢
    have below := (tables.forest.linked f member inner i c edge).1
    rw [same c below j] at present ⊢
    exact tables.contained f member inner i c edge j present
  · intro f member inner i c edge
    rw [sameChild f member inner i]
    exact edge
  · intro f member path full j
    apply tables.forest.find_congr sameChild _ member full
    intro last lastMember _ index
    show leaf (table mem' last index) = leaf (table mem last index)
    rw [same last lastMember index]

end

/-! ## One level of `map_page_4k` -/

section

variable
  {roots : Set Nat}
  {order : List Nat}
  {ordered : FrameOrder roots order}
  {memory memory' : PhysicalMemory}
  {taken : Nat}
  {used : Set Nat}
  {rank : Nat → Nat}
  {parent : Nat → Nat × Fin 512}
  {f ptr flags : Nat}
  {i : Fin 512}

namespace Standing

theorem known
    (stands : Standing ordered memory taken used rank parent)
    (member : f ∈ used) :
    f ∈ ordered.supply.known taken :=
  stands.inv.known member

theorem isFrame
    (stands : Standing ordered memory taken used rank parent)
    (member : f ∈ used) :
    IsFrame f :=
  stands.inv.tables.frame f member

theorem ne_of_free
    (stands : Standing ordered memory taken used rank parent)
    {g : Nat}
    (free : g ∈ order.drop taken)
    (member : f ∈ used) :
    g ≠ f := by
  rintro rfl
  exact ordered.not_free stands.bound (stands.known member) free

/-- A frame which is neither a root nor in the order is no table. -/
theorem ne_of_outside
    (stands : Standing ordered memory taken used rank parent)
    {g : Nat}
    (notRoot : g ∉ roots)
    (outside : g ∉ order)
    (member : f ∈ used) :
    g ≠ f := by
  rintro rfl
  rcases (ordered.mem_known stands.bound).mp (stands.known member) with
    isRoot | isTaken
  · exact notRoot isRoot
  · exact outside (List.mem_of_mem_take isTaken)

/-- Writing an entry of a table leaves the free list and all others alone. -/
theorem write
    (stands : Standing ordered memory taken used rank parent)
    (member : f ∈ used)
    (points : Machine.physical ptr = entryPtr f i)
    (value : Nat) :
    Holds (memory.write ptr value).pool (order.drop taken) ∧
      Untouched roots order memory (memory.write ptr value) := by
  have apart : ∀ g, IsFrame g → g ≠ f → ∀ j,
      table (memory.write ptr value).mem g j = table memory.mem g j := by
    intro g gFrame other j
    rw [PhysicalMemory.write, points,
      table_update (stands.isFrame member) gFrame, if_neg]
    exact fun same => other (Prod.mk.inj same).1
  constructor
  · refine holds_congr stands.free ?_ rfl rfl
    intro g free
    exact marker_of_table (apart g
      (ordered.frame g (List.mem_of_mem_drop free))
      (stands.ne_of_free free member))
  · intro g gFrame _ notRoot outside j
    exact apart g gFrame (stands.ne_of_outside notRoot outside member) j

end Standing

/-- The next frame leaves the free list, and only free frames are written. -/
theorem pfallocOne_spec
    (stands : Standing ordered memory taken used rank parent)
    {fresh : Nat}
    {rest : List Nat}
    (free : order.drop taken = fresh :: rest) :
    (pfallocOne memory).1 = fresh ∧ Holds (pfallocOne memory).2.pool rest ∧
      ∀ g, IsFrame g → g ≠ 0 → g ∉ rest → ∀ j,
        table (pfallocOne memory).2.mem g j = table memory.mem g j := by
  have holds := stands.free
  have isFrame : ∀ g ∈ order.drop taken, IsFrame g := fun g member =>
    ordered.frame g (List.mem_of_mem_drop member)
  have small : (fresh :: rest).length < 2 ^ 64 := by
    rw [← free]
    apply Frames.length_lt_of_nodup holds.list.nodup
    · exact fun g => holds.list.ne_null
    · intro g member
      exact Nat.lt_trans (isFrame g member).below (by decide)
  rw [free] at holds isFrame
  rcases Frames.pfallocOne_cons holds small with ⟨answer, takenOut⟩
  refine ⟨answer, ?_, ?_⟩
  · apply holds_withPool takenOut.holds
    intro g member
    exact isFrame g (List.mem_cons_of_mem fresh member)
  · intro g gFrame notNull outside j
    exact table_withPool gFrame (takenOut.writes g notNull outside) j

theorem pfallocOne_empty
    (stands : Standing ordered memory taken used rank parent)
    (free : order.drop taken = []) :
    pfallocOne memory = (0, memory) := by
  have holds := stands.free
  rw [free] at holds
  rw [pfallocOne, Frames.pfallocOne_nil holds, withPool_pool]

/-- An entry which names a table is only given the flags. -/
theorem ensureTable_present (marked : HasFlag (memory.read ptr) psePresent) :
    ensureTable memory ptr flags = (true, memory.write ptr
      (memory.read ptr ||| (flags ||| psePresent))) := by
  simp only [ensureTable, not_true, marked, if_false, if_true]

theorem ensureTable_null
    (absent : ¬ HasFlag (memory.read ptr) psePresent)
    (null : pfallocOne memory = (0, memory)) :
    ensureTable memory ptr flags = (false, memory) := by
  simp only [ensureTable, absent, not_false_eq_true, null, if_true,
    Bool.false_eq_true, if_false]

/-- The words a blank table leaves do not depend on the count of calls. -/
theorem zeroPagingTable_mem
    (mem : Nat → Nat)
    (calls calls' table : Nat) :
    (Paging.zeroPagingTable ⟨mem, calls⟩ table).mem =
      (Paging.zeroPagingTable ⟨mem, calls'⟩ table).mem := by
  have loop : ∀ (indices : List Nat) (state state' : Machine),
      state.mem = state'.mem →
      (indices.foldl (fun state i => state.write (entryPtr table i) 0)
          state).mem =
        (indices.foldl (fun state i => state.write (entryPtr table i) 0)
          state').mem := by
    intro indices
    induction indices with
    | nil => exact fun _ _ same => same
    | cons index indices induction =>
        intro state state' same
        apply induction
        show Function.update state.mem _ 0 = Function.update state'.mem _ 0
        rw [same]
  rw [Paging.zeroPagingTable, Paging.zeroPagingTable]
  exact loop (List.range 512) ⟨mem, calls⟩ ⟨mem, calls'⟩ rfl

/-- With a frame it goes on as if the frame had been given from outside. -/
theorem ensureTable_linked
    {frames : Nat → Nat}
    {calls : Nat}
    (absent : ¬ HasFlag (memory.read ptr) psePresent)
    (absent' : ¬ HasFlag ((pfallocOne memory).2.read ptr) psePresent)
    (answer : frames calls = (pfallocOne memory).1)
    (notNull : (pfallocOne memory).1 ≠ 0) :
    ensureTable memory ptr flags = (true, { (pfallocOne memory).2 with
      mem := (Paging.ensureTable frames ⟨(pfallocOne memory).2.mem, calls⟩ ptr
        flags).2.mem }) := by
  have absent'' : ¬ HasFlag
      (Machine.read ⟨(pfallocOne memory).2.mem, calls⟩ ptr) psePresent :=
    absent'
  have zeroed (calls' table : Nat) : (Paging.zeroPagingTable
      ⟨(pfallocOne memory).2.mem, calls'⟩ table).mem =
        (zeroPagingTable (pfallocOne memory).2 table).mem := by
    rw [zeroPagingTable, zeroPagingTable_mem _ calls' 0]
  simp only [ensureTable, absent, not_false_eq_true, if_true, notNull,
    if_false, Paging.ensureTable, absent'', Paging.pfallocOne, answer]
  simp only [Machine.write, Machine.read, PhysicalMemory.write,
    PhysicalMemory.read, zeroed]
  rfl

/-- The entry already names a table. -/
theorem ensureTable_touched
    (stands : Standing ordered memory taken used rank parent)
    (member : f ∈ used)
    (inner : 0 < rank f)
    (points : Machine.physical ptr = entryPtr f i)
    (isFlags : IsFlags flags)
    (granted : Granted memory.mem used rank f flags)
    (present : HasFlag (table memory.mem f i) psePresent) :
    ∃ memory' c, ensureTable memory ptr flags = (true, memory') ∧
      Standing ordered memory' taken used rank parent ∧
      Untouched roots order memory memory' ∧
      Ensured ordered.supply ⟨memory.mem, taken⟩ used rank f i flags
        ⟨memory'.mem, taken⟩ used rank parent c := by
  have entry : memory.read ptr = table memory.mem f i :=
    congrArg memory.mem points
  have written : (memory.write ptr (memory.read ptr |||
      (flags ||| psePresent))).mem = Function.update memory.mem (entryPtr f i)
        (table memory.mem f i ||| flags) := by
    rw [isFlags.or_present, entry, ← points]
    rfl
  have ensures : ∃ c, Ensured ordered.supply ⟨memory.mem, taken⟩ used rank f i
      flags ⟨(memory.write ptr (memory.read ptr |||
        (flags ||| psePresent))).mem, taken⟩ used rank parent c :=
    Ensured.of_touched stands.inv member inner isFlags granted present rfl
      written
  rcases ensures with ⟨c, ensured⟩
  rcases stands.write member points (memory.read ptr |||
    (flags ||| psePresent)) with ⟨free, untouched⟩
  refine ⟨_, c, ensureTable_present (entry ▸ present), ⟨stands.bound, free,
    ensured.inv⟩, untouched, ensured⟩

/-- The entry is given a table in the next frame. -/
theorem ensureTable_fresh
    (stands : Standing ordered memory taken used rank parent)
    (member : f ∈ used)
    (inner : 0 < rank f)
    (points : Machine.physical ptr = entryPtr f i)
    (isFlags : IsFlags flags)
    (granted : Granted memory.mem used rank f flags)
    (absent : ¬ HasFlag (table memory.mem f i) psePresent)
    {fresh : Nat}
    {rest : List Nat}
    (free : order.drop taken = fresh :: rest) :
    ∃ memory' used' rank' parent' c,
      ensureTable memory ptr flags = (true, memory') ∧
      Standing ordered memory' (taken + 1) used' rank' parent' ∧
      Untouched roots order memory memory' ∧
      Ensured ordered.supply ⟨memory.mem, taken⟩ used rank f i flags
        ⟨memory'.mem, taken + 1⟩ used' rank' parent' c := by
  rcases pfallocOne_spec stands free with ⟨answer, holds, sameTables⟩
  have more : taken < order.length := by
    by_contra none
    rw [List.drop_eq_nil_of_le (not_lt.mp none)] at free
    cases free
  rw [List.drop_eq_getElem_cons more] at free
  rcases List.cons.inj free with ⟨isFresh, isRest⟩
  have next : ordered.supply.frames taken = fresh :=
    (List.getD_eq_getElem order 0 more).trans isFresh
  have freshMember : fresh ∈ order := isFresh ▸ List.getElem_mem more
  have notNull := ordered.ne_null fresh freshMember
  have restFree : ∀ g ∈ rest, g ∈ order.drop taken := by
    intro g inRest
    rw [List.drop_eq_getElem_cons more, isRest]
    exact List.mem_cons_of_mem _ inRest
  have freshOut : fresh ∉ rest := by
    have nodup := stands.free.list.nodup
    rw [List.drop_eq_getElem_cons more, isFresh, isRest] at nodup
    exact (List.nodup_cons.mp nodup).1
  -- the allocator has written to free frames only, so the tables stand
  have same : ∀ g ∈ used, ∀ j,
      table (pfallocOne memory).2.mem g j = table memory.mem g j := by
    intro g gUsed
    apply sameTables g (stands.isFrame gUsed)
      (ordered.ne_null_of_known stands.bound (stands.known gUsed))
    exact fun inRest => stands.ne_of_free (restFree g inRest) gUsed rfl
  rcases machineInv_congr stands.inv same with ⟨inv, ext⟩
  have granted' : Granted (pfallocOne memory).2.mem used rank f flags := by
    intro g gUsed gInner j edge
    rw [same g gUsed j] at edge ⊢
    exact granted g gUsed gInner j edge
  have absent' : ¬ HasFlag (table (pfallocOne memory).2.mem f i)
      psePresent := by
    rw [same f member i]
    exact absent
  have isNext : ordered.supply.frames taken = (pfallocOne memory).1 :=
    next.trans answer.symm
  have unmarked : ¬ HasFlag (memory.read ptr) psePresent := by
    rw [PhysicalMemory.read, points]
    exact absent
  have unmarked' : ¬ HasFlag ((pfallocOne memory).2.read ptr) psePresent := by
    rw [PhysicalMemory.read, points]
    exact absent'
  have ran := @ensureTable_linked memory ptr flags _ _ unmarked unmarked' isNext
    (answer ▸ notNull)
  have isStep : EntryStep ordered.supply.frames
      ⟨(pfallocOne memory).2.mem, taken⟩ f i flags
      (Paging.ensureTable ordered.supply.frames
        ⟨(pfallocOne memory).2.mem, taken⟩ ptr flags) :=
    ensureTable_step (stands.isFrame member) points isFlags
      (fun _ => next ▸ ordered.frame fresh freshMember)
  generalize Paging.ensureTable ordered.supply.frames
    ⟨(pfallocOne memory).2.mem, taken⟩ ptr flags = result at isStep ran
  cases isStep with
  | touched present _ _ => exact (absent' present).elim
  | nomem _ null => exact (notNull (next ▸ null)).elim
  | @linked after _ isAnswer calls newEntry others =>
      rcases Ensured.of_linked inv member inner isFlags granted' absent'
        isAnswer calls newEntry others with
        ⟨used', rank', parent', c, ensured⟩
      have isState : after = ⟨after.mem, taken + 1⟩ := by
        cases after
        cases calls
        rfl
      rw [isState] at ensured
      rw [next] at others
      have kept : ∀ g, IsFrame g → g ≠ f → g ≠ fresh → ∀ j,
          table after.mem g j = table (pfallocOne memory).2.mem g j := by
        intro g gFrame notF notFresh j
        rw [others g gFrame j (fun here => notF (Prod.mk.inj here).1),
          if_neg notFresh]
      refine ⟨_, used', rank', parent', c, ran, ⟨more, ?_, ensured.inv⟩, ?_,
        ⟨ensured.inv, ext.trans ensured.ext, ensured.edge, ensured.granted⟩⟩
      · rw [isRest]
        refine holds_congr holds ?_ rfl rfl
        intro g inRest
        apply marker_of_table
        apply kept g
          (ordered.frame g (List.mem_of_mem_drop (restFree g inRest)))
          (stands.ne_of_free (restFree g inRest) member)
        rintro rfl
        exact freshOut inRest
      · intro g gFrame gNotNull notRoot outside j
        show table after.mem g j = _
        rw [kept g gFrame (stands.ne_of_outside notRoot outside member),
          sameTables g gFrame gNotNull]
        · intro inRest
          exact outside (List.mem_of_mem_drop (restFree g inRest))
        · rintro rfl
          exact outside freshMember

/-- One upper level: there is no frame left, or it goes on with a table. -/
theorem ensureTable_spec
    (stands : Standing ordered memory taken used rank parent)
    (member : f ∈ used)
    (inner : 0 < rank f)
    (points : Machine.physical ptr = entryPtr f i)
    (isFlags : IsFlags flags)
    (granted : Granted memory.mem used rank f flags) :
    ensureTable memory ptr flags = (false, memory) ∨
    ∃ memory' taken' used' rank' parent' c,
      ensureTable memory ptr flags = (true, memory') ∧
      Standing ordered memory' taken' used' rank' parent' ∧
      taken ≤ taken' ∧ Untouched roots order memory memory' ∧
      Ensured ordered.supply ⟨memory.mem, taken⟩ used rank f i flags
        ⟨memory'.mem, taken'⟩ used' rank' parent' c := by
  by_cases present : HasFlag (table memory.mem f i) psePresent
  · rcases ensureTable_touched stands member inner points isFlags granted
      present with ⟨memory', c, ran, stands', untouched, ensured⟩
    exact .inr ⟨memory', taken, used, rank, parent, c, ran, stands',
      Nat.le_refl taken, untouched, ensured⟩
  · cases free : order.drop taken with
    | nil =>
        left
        apply ensureTable_null _ (pfallocOne_empty stands free)
        show ¬ HasFlag (memory.mem (Machine.physical ptr)) psePresent
        rw [points]
        exact present
    | cons fresh rest =>
        rcases ensureTable_fresh stands member inner points isFlags granted
          present free with
          ⟨memory', used', rank', parent', c, ran, stands', untouched, ensured⟩
        exact .inr ⟨memory', taken + 1, used', rank', parent', c, ran, stands',
          Nat.le_succ taken, untouched, ensured⟩

/-! ## A call of `map_page_4k` -/

/-- What a call leaves: the tables stand, and its effect on every walk. -/
structure Called
    (ordered : FrameOrder roots order)
    (memory : PhysicalMemory)
    (taken : Nat)
    (root phys virt flags : Nat)
    (ret : Int)
    (memory' : PhysicalMemory)
    (taken' : Nat) :
    Prop where
  stands : ∃ used rank parent,
    Standing ordered memory' taken' used rank parent
  later : taken ≤ taken'
  untouched : Untouched roots order memory memory'
  effect : Effect ordered.supply ⟨memory.mem, taken⟩ root phys virt flags
    (ret, ⟨memory'.mem, taken'⟩)

/-- The table below an entry, and where its pointer leads. -/
theorem Standing.below
    {taken' : Nat}
    {used' : Set Nat}
    {rank' : Nat → Nat}
    {parent' : Nat → Nat × Fin 512}
    {c : Nat}
    (stands' : Standing ordered memory' taken' used' rank' parent')
    (ensured : Ensured ordered.supply ⟨memory.mem, taken⟩ used rank f i flags
      ⟨memory'.mem, taken'⟩ used' rank' parent' c)
    (member : f ∈ used)
    (inner : 0 < rank f)
    (points : Machine.physical ptr = entryPtr f i) :
    c ∈ used' ∧ rank' c + 1 = rank f ∧
      (∀ j : Fin 512, Machine.physical
        (entryPtr (pseGetPtr (memory'.read ptr)) j) = entryPtr c j) ∧
      (0 < rank' c → ∀ j : Fin 512, ¬ HasFlag (memory'.read
        (entryPtr (pseGetPtr (memory'.read ptr)) j)) psePagesize) := by
  rcases ensured.next member inner points with ⟨below, rankEq, leads⟩
  replace leads : ∀ j : Fin 512, Machine.physical
      (entryPtr (pseGetPtr (memory'.read ptr)) j) = entryPtr c j := leads
  refine ⟨below, rankEq, leads, ?_⟩
  intro innerBelow j
  rw [PhysicalMemory.read, leads j]
  exact stands'.inv.tables.small c below innerBelow j

/-- With the allocator a call has the effects it has on given answers. -/
theorem mapPage4k_spec
    (stands : Standing ordered memory taken used rank parent)
    {root pml4Table : Nat}
    (isRoot : root ∈ roots)
    (points : ∀ i : Fin 512,
      Machine.physical (entryPtr pml4Table i) = entryPtr root i)
    (isFlags : IsFlags flags)
    (phys virt : Nat) :
    ∃ ret memory' taken',
      mapPage4k memory pml4Table phys virt flags = (ret, memory') ∧
      Called ordered memory taken root phys virt flags ret memory' taken' := by
  have member4 := stands.inv.root_used root isRoot
  have rank4 := stands.inv.root_rank root isRoot
  have point4 := points ⟨pml4Index virt, index_lt _⟩
  rw [mapPage4k]
  rcases ensureTable_spec stands member4 (by omega) point4 isFlags
      (granted_root stands.inv isRoot flags) with
    r4 | ⟨m4, taken4, used4, rank4', parent4, t3, r4, stands4, later4, out4,
      ens4⟩
  · simp only [r4, Bool.false_eq_true, not_false_eq_true, if_true]
    exact ⟨_, _, taken, rfl, ⟨_, _, _, stands⟩, Nat.le_refl taken,
      .refl _ _ _, .stopped stands.inv stands.inv (.refl _ _ _) rfl _ _ _ _⟩
  rcases stands4.below ens4 member4 (by omega) point4 with
    ⟨member3, rank3, points3, small3⟩
  have point3 := points3 ⟨pml3Index virt, index_lt _⟩
  simp only [r4, not_true, if_false,
    if_neg (small3 (by omega) ⟨pml3Index virt, index_lt _⟩)]
  rcases ensureTable_spec stands4 member3 (by omega) point3 isFlags
      ens4.granted with
    r3 | ⟨m3, taken3, used3, rank3', parent3, t2, r3, stands3, later3, out3,
      ens3⟩
  · simp only [r3, Bool.false_eq_true, not_false_eq_true, if_true]
    exact ⟨_, _, taken4, rfl, ⟨_, _, _, stands4⟩, later4, out4,
      .stopped stands.inv stands4.inv ens4.ext rfl _ _ _ _⟩
  rcases stands3.below ens3 member3 (by omega) point3 with
    ⟨member2, rank2, points2, small2⟩
  have point2 := points2 ⟨pml2Index virt, index_lt _⟩
  have ext3 := ens4.ext.trans ens3.ext
  simp only [r3, not_true, if_false,
    if_neg (small2 (by omega) ⟨pml2Index virt, index_lt _⟩)]
  rcases ensureTable_spec stands3 member2 (by omega) point2 isFlags
      ens3.granted with
    r2 | ⟨m2, taken2, used2, rank2', parent2, t1, r2, stands2, later2, out2,
      ens2⟩
  · simp only [r2, Bool.false_eq_true, not_false_eq_true, if_true]
    exact ⟨_, _, taken3, rfl, ⟨_, _, _, stands3⟩, later4.trans later3,
      out4.trans out3, .stopped stands.inv stands3.inv ext3 rfl _ _ _ _⟩
  rcases stands2.below ens2 member2 (by omega) point2 with
    ⟨member1, rank1, points1, _⟩
  have ext2 := ext3.trans ens2.ext
  simp only [r2, not_true, if_false]
  have reached : descend child (table m2.mem) root (pathOf virt) = some t1 := by
    have edge3 := ens2.ext.child_eq t3 (ens3.ext.subset member3)
      (by rw [ens3.ext.rank_eq t3 member3]; omega) _ _ ens3.edge
    have edge4 := (ens3.ext.trans ens2.ext).child_eq root
      (ens4.ext.subset member4)
      (by rw [ens4.ext.rank_eq root member4]; omega) _ _ ens4.edge
    simp only [pathOf, descend, edge4, edge3, ens2.edge, Option.bind_some]
  have point1 := points1 (slotOf virt)
  rcases write_leaf stands2.inv isRoot reached point1 isFlags
      ens2.granted with ⟨invLast, effect⟩
  rcases stands2.write member1 point1 (psePtr phys ||| flags) with
    ⟨free, out1⟩
  exact ⟨_, _, taken2, rfl,
    ⟨used2, rank2', parent2, stands2.bound, free, invLast⟩,
    (later4.trans later3).trans later2, ((out4.trans out3).trans out2).trans
      out1, effect.before stands.inv stands2.inv ext2⟩

end

end ForsKernel.Memory.Shared
