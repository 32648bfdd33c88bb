import ForsKernel.Lib.Transition
import ForsKernel.Memory.LargePages
import ForsKernel.Proc.Process

/-!
# The virtual memory interface

`vmap`, `vget_mapping` and `vis_mapped_to` name an address space by the number
of its process, or by `-1` for the kernel.  They are compared here with the
translations of the walk, in page tables of any shape.
-/

namespace ForsKernel.Memory.Paging

open ForsKernel.Lib.RadixForest
open ForsKernel.Lib.Transition
open ForsKernel.Proc

/-! ## The functions -/

/-- `VMAP_EXEC`. -/
def vmapExec : Nat := 1 <<< 0

/-- `VMAP_USER`. -/
def vmapUser : Nat := 1 <<< 1

/-- `VMAP_WRIT`. -/
def vmapWrit : Nat := 1 <<< 2

/-- `VMAP_4K`. -/
def vmap4k : Nat := 1 <<< 3

/-- `EINVARG`. -/
def eInvarg : Int := -2

/-- `EIMPL`. -/
def eImpl : Int := -3

/-- `kernel_pml4_table` and `procs`. -/
structure Spaces where
  kernelPml4Table : Nat
  procs : ProcTable

/-- `mapping_flags` of `vmap`. -/
def mappingFlags (flags : Nat) : Nat :=
  (if HasFlag flags vmapUser then pseUser else 0) |||
    (if HasFlag flags vmapWrit then pseWritable else 0) |||
    (if HasFlag flags vmapExec then 0 else pseXd)

/--
The size is not used.  The flags are of 64 bits, but `map_page_4k` takes them
as an `unsigned int`.
-/
def vmap
    (frames : Nat → Nat)
    (spaces : Spaces)
    (state : Machine)
    (pid : Int)
    (pa va : Nat)
    (_size : Int)
    (flags : Nat) :
    Option (Int × Machine) :=
  let map := fun rootTable =>
    if HasFlag flags vmap4k then
      mapPage4k frames state rootTable pa va
        ((mappingFlags flags ||| psePresent) % 2 ^ 32)
    else
      (eImpl, state)
  if pid = -1 then
    some (map spaces.kernelPml4Table)
  else
    (procAt spaces.procs pid).map fun pr =>
      if !pr.present then (eInvarg, state) else map pr.ctx.cr3

/-- Zero is `NULL`.  The kernel has no entry in the table of processes. -/
def vgetMapping
    (spaces : Spaces)
    (state : Machine)
    (pid : Int)
    (va : Nat) :
    Option Nat :=
  (procAt spaces.procs pid).map fun p =>
    if !p.present then 0
    else if (mapLookup state p.ctx.cr3 va).1 ≠ 0 then 0
    else (mapLookup state p.ctx.cr3 va).2

def visMappedTo
    (spaces : Spaces)
    (state : Machine)
    (pid : Int)
    (va pa : Nat) :
    Option Int :=
  (vgetMapping spaces state pid va).map fun actualPa =>
    if actualPa = 0 then 0 else if actualPa = pa then 1 else 0

/-! ## Address spaces -/

/-- `vmap` takes the number of the kernel and of every process. -/
def Spaces.Accepts
    (spaces : Spaces)
    (pid : Int) :
    Prop :=
  pid = -1 ∨ ∃ proc, procAt spaces.procs pid = some proc ∧
    proc.present = true

/-- The root table of an address space. -/
def Spaces.rootTable
    (spaces : Spaces)
    (pid : Int) :
    Nat :=
  if pid = -1 then spaces.kernelPml4Table
  else ((procAt spaces.procs pid).map fun proc => proc.ctx.cr3).getD 0

/-- The root table by its physical address. -/
def Spaces.root
    (spaces : Spaces)
    (pid : Int) :
    Nat :=
  Machine.physical (spaces.rootTable pid)

/-- The tables of the kernel and of all processes form a forest. -/
structure Ordered
    (frames : Nat → Nat)
    (spaces : Spaces)
    (roots : Set Nat)
    (state : Machine) :
    Prop where
  sound : ∃ used rank parent, Sound frames roots state used rank parent
  isRoot : ∀ pid, spaces.Accepts pid → spaces.root pid ∈ roots

/-- Of the flags only those in the lower half arrive. -/
theorem vmap_flags (flags : Nat) :
    IsFlags ((mappingFlags flags ||| psePresent) % 2 ^ 32) := by
  have all : ∀ user writ exec : Bool,
      ((if user then pseUser else 0) ||| (if writ then pseWritable else 0) |||
        (if exec then 0 else pseXd) ||| psePresent) % 2 ^ 32 < 8 ∧
      HasFlag (((if user then pseUser else 0) |||
        (if writ then pseWritable else 0) ||| (if exec then 0 else pseXd) |||
          psePresent) % 2 ^ 32) psePresent := by
    decide
  have these := all (decide (HasFlag flags vmapUser))
    (decide (HasFlag flags vmapWrit)) (decide (HasFlag flags vmapExec))
  simp only [decide_eq_true_eq] at these
  exact ⟨these.1, these.2⟩

theorem vmap_eq
    {spaces : Spaces}
    {pid : Int}
    (accepted : spaces.Accepts pid)
    {flags : Nat}
    (is4k : HasFlag flags vmap4k)
    (frames : Nat → Nat)
    (state : Machine)
    (pa va : Nat)
    (size : Int) :
    vmap frames spaces state pid pa va size flags =
      some (mapPage4k frames state (spaces.rootTable pid) pa va
        ((mappingFlags flags ||| psePresent) % 2 ^ 32)) := by
  rw [vmap]
  by_cases kernel : pid = -1
  · simp only [kernel, if_true, is4k, Spaces.rootTable]
  · rcases accepted with isKernel | ⟨proc, isProc, present⟩
    · exact (kernel isKernel).elim
    · simp only [kernel, if_false, isProc, Option.map_some, present, is4k,
        Spaces.rootTable]
      rfl

section

variable
  {frames : Nat → Nat}
  {spaces : Spaces}
  {roots : Set Nat}
  {state state' : Machine}
  {pid : Int}
  {pa va flags : Nat}

theorem Ordered.points
    (ordered : Ordered frames spaces roots state)
    (accepted : spaces.Accepts pid)
    (i : Fin 512) :
    Machine.physical (entryPtr (spaces.rootTable pid) i) =
      entryPtr (spaces.root pid) i := by
  rcases ordered.sound with ⟨used, rank, parent, sound⟩
  have isRoot := ordered.isRoot pid accepted
  exact points_table (sound.frame _ (sound.root_used _ isRoot)) i

/-- `vmap` maps one page, or fails and leaves all translations alone. -/
theorem Ordered.vmap
    (ordered : Ordered frames spaces roots state)
    (accepted : spaces.Accepts pid)
    (is4k : HasFlag flags vmap4k)
    (pa va : Nat)
    (size : Int) :
    ∃ ret state', Paging.vmap frames spaces state pid pa va size flags =
        some (ret, state') ∧
      Ordered frames spaces roots state' ∧
      Mapped roots state (spaces.root pid) pa va (ret, state') := by
  have points := ordered.points accepted
  rcases ordered.sound with ⟨used, rank, parent, sound⟩
  rcases sound.mapPage4k (ordered.isRoot pid accepted) points
    (vmap_flags flags) pa va with ⟨⟨used', rank', parent', sound', _⟩, mapped⟩
  exact ⟨_, _, vmap_eq accepted is4k frames state pa va size,
    ⟨⟨used', rank', parent', sound'⟩, ordered.isRoot⟩, mapped⟩

/-- Pages unchanged are translations unchanged. -/
theorem translate_congr
    {mem mem' : Nat → Nat}
    {root virt : Nat}
    (same : pageAt mem' root virt = pageAt mem root virt) :
    translate mem' root virt = translate mem root virt := by
  rw [translate_eq, translate_eq, same]

/-- Zeroed roots form a forest. -/
theorem Sound.zeroed
    {supply : FrameSupply}
    (zeroed : ∀ root ∈ supply.roots, ∀ i, table state.mem root i = 0)
    (calls : state.calls = supply.first) :
    Sound supply.frames supply.roots state supply.roots (fun _ => 3)
      (fun _ => (0, 0)) := by
  apply Sound.blank supply.root_frame
  · intro root isRoot i
    rw [zeroed root isRoot i]
    exact not_hasFlag_zero _
  · rw [calls]
    exact supply.answer_frame
  · rw [calls]
    exact supply.answer_not_root
  · rw [calls]
    exact supply.answer_fresh

/-- Addresses in a page of 4 KiB. -/
theorem translate_small
    {mem : Nat → Nat}
    {root virt frame : Nat}
    (found : pageAt mem root virt = some (0, frame)) :
    translate mem root virt = some (frame + virt % archPageSize) := by
  rw [translate_eq, found]
  rfl

/-! ## Whole regions -/

/-- The number of pages of a region. -/
def pagesOf (size : Int) : Nat :=
  (size.toNat + (archPageSize - 1)) / archPageSize

/-- Addresses of the same page. -/
theorem pageOf_offset
    {o : Nat}
    (aligned : archPageSize ∣ va)
    (offset : o < archPageSize) :
    pageOf (va + o) = pageOf va := by
  rcases aligned with ⟨n, rfl⟩
  rw [archPageSize] at offset
  rw [pageOf, pageOf, archPageSize]
  omega

/-- Addresses of later pages of a region. -/
theorem pageOf_later
    {i : Nat}
    (aligned : archPageSize ∣ va)
    (later : archPageSize ≤ i)
    (below : i < 2 ^ 48) :
    pageOf (va + i) ≠ pageOf va := by
  rcases aligned with ⟨n, rfl⟩
  rw [archPageSize] at later
  rw [pageOf, pageOf, archPageSize]
  omega

theorem psePtr_eq_iff (aligned : archPageSize ∣ pa) :
    psePtr pa = pa ↔ pa < 2 ^ 52 := by
  constructor
  · intro same
    rw [← same]
    apply Nat.lt_pow_two_of_testBit
    intro i high
    rw [testBit_psePtr]
    simp
    omega
  · exact psePtr_frame aligned

/-- The pages of the region are mapped one after the other. -/
def MapsRegion
    (mem : Nat → Nat)
    (root pa va bytes : Nat) :
    Prop :=
  ∀ i < bytes, translate mem root (va + i) = some (pa + i)

/--
A call of `vmap` which succeeds changes nothing outside of the region, and one
which fails changes nothing at all.  It maps the region just when the pages
behind the first were already mapped so before, and the frame is a physical
address.
-/
theorem vmap_region_iff
    (ordered : Ordered frames spaces roots state)
    (accepted : spaces.Accepts pid)
    (alignedPa : archPageSize ∣ pa)
    (alignedVa : archPageSize ∣ va)
    {size : Int}
    (positive : 0 < size)
    (fits : size < 2 ^ 31)
    (is4k : HasFlag flags vmap4k) :
    ∃ ret state', vmap frames spaces state pid pa va size flags =
        some (ret, state') ∧ (ret = 0 ∨ ret < 0) ∧
      (ret < 0 → ∀ root ∈ roots, ∀ virt,
        translate state'.mem root virt = translate state.mem root virt) ∧
      (ret = 0 →
        (∀ root ∈ roots, ∀ virt,
          (root = spaces.root pid → ∀ k < pagesOf size,
            pageOf virt ≠ pageOf (va + archPageSize * k)) →
          translate state'.mem root virt = translate state.mem root virt) ∧
        (MapsRegion state'.mem (spaces.root pid) pa va
            (archPageSize * pagesOf size) ↔
          pa < 2 ^ 52 ∧ ∀ i, archPageSize ≤ i →
            i < archPageSize * pagesOf size →
            translate state.mem (spaces.root pid) (va + i) =
              some (pa + i))) := by
  rcases ordered.vmap accepted is4k pa va size with
    ⟨ret, state', returned, _, mapped⟩
  have isRoot := ordered.isRoot pid accepted
  have pages : 0 < pagesOf size ∧ archPageSize * pagesOf size < 2 ^ 48 := by
    rw [pagesOf, archPageSize]
    omega
  refine ⟨ret, state', returned, ?_⟩
  cases mapped with
  | failed negative same =>
      refine ⟨.inr negative, ?_, fun zero => by omega⟩
      exact fun _ root isRoot' virt => translate_congr (same root isRoot' virt)
  | mapped update =>
      refine ⟨.inl rfl, fun negative => absurd negative (by decide), ?_⟩
      intro _
      constructor
      · intro root isRoot' virt outside
        apply translate_congr
        rw [update root isRoot' virt, if_neg]
        rintro ⟨isSpace, samePage⟩
        apply outside isSpace 0 pages.1
        rw [Nat.mul_zero, Nat.add_zero]
        exact samePage
      · have first (o : Nat) (offset : o < archPageSize) :
            translate state'.mem (spaces.root pid) (va + o) =
              some (psePtr pa + o) := by
          have found : pageAt state'.mem (spaces.root pid) (va + o) =
              some (0, psePtr pa) := by
            rw [update _ isRoot, if_pos ⟨rfl, pageOf_offset alignedVa offset⟩]
          rw [translate_small found, Nat.add_mod,
            Nat.mod_eq_zero_of_dvd alignedVa, Nat.zero_add, Nat.mod_mod,
            Nat.mod_eq_of_lt offset]
        have later (i : Nat) (behind : archPageSize ≤ i)
            (inside : i < archPageSize * pagesOf size) :
            translate state'.mem (spaces.root pid) (va + i) =
              translate state.mem (spaces.root pid) (va + i) := by
          apply translate_congr
          rw [update _ isRoot, if_neg]
          exact fun here => pageOf_later alignedVa behind (by omega) here.2
        constructor
        · intro whole
          constructor
          · have start := whole 0 (Nat.mul_pos (by decide) pages.1)
            rw [first 0 (by decide), Option.some.injEq] at start
            exact (psePtr_eq_iff alignedPa).mp (by omega)
          · intro i behind inside
            rw [← later i behind inside]
            exact whole i inside
        · rintro ⟨below, before⟩ i inside
          by_cases offset : i < archPageSize
          · rw [first i offset, (psePtr_eq_iff alignedPa).mpr below]
          · rw [later i (by omega) inside]
            exact before i (by omega) inside

end

/-! A kernel with one root and three more frames. -/

/-- The kernel and all processes share one root. -/
def oneSpace : Spaces where
  kernelPml4Table := hhMask + 4096
  procs := fun _ =>
    { Process.blank with
      present := true
      ctx := { RegisterCtx.zero with cr3 := 4096 } }

/-- Nothing is mapped yet. -/
def zeroMachine : Machine :=
  ⟨fun _ => 0, 0⟩

theorem oneSpace_root
    {pid : Int}
    (accepted : oneSpace.Accepts pid) :
    oneSpace.root pid = 4096 := by
  rcases accepted with rfl | ⟨proc, isProc, _⟩
  · decide
  · have notKernel := procAt_ne isProc
    rw [Spaces.root, Spaces.rootTable, if_neg notKernel, isProc]
    rw [procAt] at isProc
    split at isProc
    · cases isProc
      show Machine.physical 4096 = 4096
      decide
    · cases isProc

theorem zeroMachine_ordered :
    Ordered threeTables.frames oneSpace threeTables.roots zeroMachine where
  sound := ⟨_, _, _, Sound.zeroed (fun _ _ _ => rfl) rfl⟩
  isRoot := by
    intro pid accepted
    rw [oneSpace_root accepted]
    rfl

/-- One page is mapped as it should be. -/
theorem vmap_region_page :
    ∃ state', vmap threeTables.frames oneSpace zeroMachine (-1) 0x5000
        0x400000 4096 vmap4k = some (0, state') ∧
      MapsRegion state'.mem 4096 0x5000 0x400000 4096 := by
  rcases vmap_region_iff zeroMachine_ordered
      (Or.inl rfl : oneSpace.Accepts (-1))
      (show archPageSize ∣ 0x5000 by decide)
      (show archPageSize ∣ 0x400000 by decide)
      (show (0 : Int) < 4096 by decide)
      (by decide) (show HasFlag vmap4k vmap4k by decide) with
    ⟨ret, state', returned, _, _, mapped⟩
  have success : (vmap threeTables.frames oneSpace zeroMachine (-1) 0x5000
      0x400000 4096 vmap4k).map (fun result => result.1) = some 0 := by
    decide +kernel
  rw [returned] at success
  cases success
  have region := (mapped rfl).2.mpr
  rw [oneSpace_root (.inl rfl)] at region
  refine ⟨state', returned, region ⟨by decide, ?_⟩⟩
  intro i behind inside
  exact absurd inside (Nat.not_lt.mpr behind)

/-- Of two pages only the first is mapped. -/
theorem vmap_region_short :
    ¬ ∀ (frames : Nat → Nat) (spaces : Spaces) (roots : Set Nat)
      (state state' : Machine) (pid : Int) (pa va flags : Nat) (size : Int),
      Ordered frames spaces roots state → spaces.Accepts pid →
      archPageSize ∣ pa → archPageSize ∣ va → 0 < size → size < 2 ^ 31 →
      HasFlag flags vmap4k →
      vmap frames spaces state pid pa va size flags = some (0, state') →
      MapsRegion state'.mem (spaces.root pid) pa va
        (archPageSize * pagesOf size) := by
  intro always
  have success : (vmap threeTables.frames oneSpace zeroMachine (-1) 0x5000
      0x400000 8192 vmap4k).map (fun result =>
        (result.1, translate result.2.mem 4096 0x401000)) =
      some (0, none) := by
    decide +kernel
  rcases Option.map_eq_some_iff.mp success with ⟨⟨ret, state'⟩, returned, both⟩
  rcases Prod.mk.inj both with ⟨rfl, missing⟩
  have region := always threeTables.frames oneSpace threeTables.roots
    zeroMachine state' (-1) 0x5000 0x400000 vmap4k 8192 zeroMachine_ordered
    (.inl rfl) (by decide) (by decide) (by decide) (by decide) (by decide)
    returned 4096 (by decide)
  rw [oneSpace_root (.inl rfl)] at region
  have absent : translate state'.mem 4096 (0x400000 + 4096) = none := missing
  rw [absent] at region
  cases region

/-! ## Lookups -/

section

variable
  {frames : Nat → Nat}
  {spaces : Spaces}
  {roots : Set Nat}
  {state state' : Machine}
  {pid : Int}
  {pa va flags : Nat}

/-- What `vget_mapping` reads in the address space of a process. -/
theorem Ordered.vgetMapping
    (ordered : Ordered frames spaces roots state)
    (accepted : spaces.Accepts pid)
    (isProcess : pid ≠ -1)
    (virt : Nat) :
    Paging.vgetMapping spaces state pid virt =
      some (match pageAt state.mem (spaces.root pid) virt with
        | none => 0
        | some target => (target.2 + offsetIn virt target.1) % 2 ^ 32) := by
  have points := ordered.points accepted
  rcases ordered.sound with ⟨used, rank, parent, sound⟩
  have lookup := sound.mapLookup_eq (ordered.isRoot pid accepted) points virt
  rcases accepted with isKernel | ⟨proc, isProc, present⟩
  · exact (isProcess isKernel).elim
  · have isTable : spaces.rootTable pid = proc.ctx.cr3 := by
      rw [Spaces.rootTable, if_neg isProcess, isProc]
      rfl
    rw [isTable] at lookup
    rw [Paging.vgetMapping, isProc, Option.map_some, lookup, present]
    cases pageAt state.mem (spaces.root pid) virt with
    | none => rfl
    | some target => rfl

/-- Nothing is found where nothing is mapped. -/
theorem Ordered.visMappedTo_unmapped
    (ordered : Ordered frames spaces roots state)
    (accepted : spaces.Accepts pid)
    (isProcess : pid ≠ -1)
    {virt : Nat}
    (unmapped : translate state.mem (spaces.root pid) virt = none)
    (pa : Nat) :
    visMappedTo spaces state pid virt pa = some 0 := by
  have noPage : pageAt state.mem (spaces.root pid) virt = none := by
    rw [translate_eq, Option.map_eq_none_iff] at unmapped
    exact unmapped
  rw [visMappedTo, ordered.vgetMapping accepted isProcess, noPage]
  rfl

/--
After `vmap` the two lookups agree with it just when the address space is that
of a process and the frame is not the first of all, whose address they take
for `NULL`.
-/
theorem vmap_lookup_iff
    (ordered : Ordered frames spaces roots state)
    (accepted : spaces.Accepts pid)
    (alignedPa : archPageSize ∣ pa)
    (below : pa < 2 ^ 32)
    (alignedVa : archPageSize ∣ va)
    (is4k : HasFlag flags vmap4k)
    (returned : vmap frames spaces state pid pa va 4096 flags =
      some (0, state')) :
    ((∀ o < archPageSize,
        vgetMapping spaces state' pid (va + o) = some (pa + o)) ∧
      visMappedTo spaces state' pid va pa = some 1 ∧
      ∀ virt, translate state'.mem (spaces.root pid) virt = none →
        ∀ other, visMappedTo spaces state' pid virt other = some 0) ↔
      pid ≠ -1 ∧ pa ≠ 0 := by
  rcases ordered.vmap accepted is4k pa va 4096 with
    ⟨ret, after, isAfter, ordered', mapped⟩
  rw [returned] at isAfter
  cases isAfter
  have isRoot := ordered.isRoot pid accepted
  have found (o : Nat) (offset : o < archPageSize) :
      pageAt state'.mem (spaces.root pid) (va + o) = some (0, pa) := by
    cases mapped with
    | failed negative _ => exact absurd negative (by decide)
    | mapped update =>
        rw [update _ isRoot, if_pos ⟨rfl, pageOf_offset alignedVa offset⟩,
          psePtr_frame alignedPa (by omega)]
  have reads (isProcess : pid ≠ -1) (o : Nat) (offset : o < archPageSize) :
      vgetMapping spaces state' pid (va + o) = some (pa + o) := by
    have small : (va + o) &&& 0xfff = o := by
      have digit : (va + o) &&& 0xfff = (va + o) % 2 ^ 12 :=
        Nat.and_two_pow_sub_one_eq_mod (va + o) 12
      rcases alignedVa with ⟨n, rfl⟩
      rw [archPageSize] at *
      omega
    rw [ordered'.vgetMapping accepted isProcess, found o offset]
    show some ((pa + ((va + o) &&& 0xfff)) % 2 ^ 32) = _
    rw [small, Nat.mod_eq_of_lt]
    rcases alignedPa with ⟨n, rfl⟩
    rw [archPageSize] at *
    omega
  constructor
  · rintro ⟨gets, isMapped, _⟩
    have isProcess : pid ≠ -1 := by
      rintro rfl
      have got := gets 0 (by decide)
      cases got
    refine ⟨isProcess, ?_⟩
    rintro rfl
    have got := reads isProcess 0 (by decide)
    rw [Nat.add_zero] at got
    rw [visMappedTo, got] at isMapped
    cases isMapped
  · rintro ⟨isProcess, notNull⟩
    refine ⟨reads isProcess, ?_, ?_⟩
    · have got := reads isProcess 0 (by decide)
      rw [Nat.add_zero] at got
      rw [visMappedTo, got, Option.map_some, Nat.add_zero, if_neg notNull,
        if_pos rfl]
    · intro virt unmapped other
      exact ordered'.visMappedTo_unmapped accepted isProcess unmapped other

end

/-- The first process maps a page and finds it. -/
theorem vmap_lookup_page :
    ∃ state', vmap threeTables.frames oneSpace zeroMachine 0 0x5000 0x400000
        4096 vmap4k = some (0, state') ∧
      vgetMapping oneSpace state' 0 0x400123 = some 0x5123 ∧
      visMappedTo oneSpace state' 0 0x400000 0x5000 = some 1 := by
  have success : (vmap threeTables.frames oneSpace zeroMachine 0 0x5000
      0x400000 4096 vmap4k).map (fun result => result.1) = some 0 := by
    decide +kernel
  rcases Option.map_eq_some_iff.mp success with ⟨⟨ret, state'⟩, returned, isRet⟩
  replace isRet : ret = 0 := isRet
  subst isRet
  have accepted : oneSpace.Accepts 0 := .inr ⟨_, rfl, rfl⟩
  have agrees := (vmap_lookup_iff zeroMachine_ordered accepted
    (show archPageSize ∣ 0x5000 by decide) (by decide)
    (show archPageSize ∣ 0x400000 by decide)
    (show HasFlag vmap4k vmap4k by decide) returned).mpr
    ⟨by decide, by decide⟩
  exact ⟨state', returned, agrees.1 0x123 (by decide), agrees.2.1⟩

/-- A page which is mapped to the first frame is not found to be mapped. -/
theorem vmap_lookup_null :
    ¬ ∀ (frames : Nat → Nat) (spaces : Spaces) (roots : Set Nat)
      (state state' : Machine) (pid : Int) (pa va flags : Nat),
      Ordered frames spaces roots state → spaces.Accepts pid →
      archPageSize ∣ pa → pa < 2 ^ 32 → archPageSize ∣ va →
      HasFlag flags vmap4k →
      vmap frames spaces state pid pa va 4096 flags = some (0, state') →
      visMappedTo spaces state' pid va pa = some 1 := by
  intro always
  have success : (vmap threeTables.frames oneSpace zeroMachine 0 0 0x400000
      4096 vmap4k).map (fun result =>
        (result.1, visMappedTo oneSpace result.2 0 0x400000 0)) =
      some (0, some 0) := by
    decide +kernel
  rcases Option.map_eq_some_iff.mp success with ⟨⟨ret, state'⟩, returned, both⟩
  rcases Prod.mk.inj both with ⟨rfl, missed⟩
  have isMapped := always threeTables.frames oneSpace threeTables.roots
    zeroMachine state' 0 0 0x400000 vmap4k zeroMachine_ordered
    (.inr ⟨_, rfl, rfl⟩) (by decide) (by decide) (by decide) (by decide)
    returned
  replace missed : visMappedTo oneSpace state' 0 0x400000 0 = some 0 := missed
  rw [missed] at isMapped
  cases isMapped

end ForsKernel.Memory.Paging
