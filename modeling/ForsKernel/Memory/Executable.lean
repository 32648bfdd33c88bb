import ForsKernel.Memory.Vmap

/-!
# Executable pages

`vmap` asks for `PSE_XD` unless the page is to be executable, and the bit is
lost on the way to `map_page_4k`.  So in an address space which is built by
`vmap` no entry forbids execution, and a page is executable as it should be
just when that was asked for.
-/

namespace ForsKernel.Memory.Paging

open ForsKernel.Lib.Transition

/-! ## Walks without `PSE_XD` -/

/-- The entries which the walk reads. -/
def entriesAt
    (mem : Nat → Nat)
    (root virt : Nat) :
    List Nat :=
  let pml4Entry := mem (entryPtr root (pml4Index virt))
  let pml3Entry := mem (entryPtr (psePtr pml4Entry) (pml3Index virt))
  let pml2Entry := mem (entryPtr (psePtr pml3Entry) (pml2Index virt))
  let pml1Entry := mem (entryPtr (psePtr pml2Entry) (pml1Index virt))
  pml4Entry ::
    if ¬ HasFlag pml4Entry psePresent then []
    else
      pml3Entry ::
        if ¬ HasFlag pml3Entry psePresent ∨ HasFlag pml3Entry psePagesize then
          []
        else
          pml2Entry ::
            if ¬ HasFlag pml2Entry psePresent ∨
                HasFlag pml2Entry psePagesize then
              []
            else
              [pml1Entry]

/-- No level of the walk forbids execution. -/
def Executable
    (mem : Nat → Nat)
    (root virt : Nat) :
    Prop :=
  ∀ entry ∈ entriesAt mem root virt, ¬ HasFlag entry pseXd

instance
    (mem : Nat → Nat)
    (root virt : Nat) :
    Decidable (Executable mem root virt) :=
  inferInstanceAs (Decidable (∀ entry ∈ _, _))

/-- A walk reads entries of the tables in use only. -/
theorem Sound.executable
    {frames : Nat → Nat}
    {roots : Set Nat}
    {state : Machine}
    {used : Set Nat}
    {rank : Nat → Nat}
    {parent : Nat → Nat × Fin 512}
    (sound : Sound frames roots state used rank parent)
    (free : XdFree state.mem used)
    {root : Nat}
    (isRoot : root ∈ roots)
    (virt : Nat) :
    Executable state.mem root virt := by
  have member4 := sound.root_used root isRoot
  have rank4 := sound.root_rank root isRoot
  have free4 := free root member4 ⟨pml4Index virt, index_lt _⟩
  rw [table] at free4
  intro entry member
  rw [entriesAt] at member
  generalize e4Eq : state.mem (entryPtr root (pml4Index virt)) = e4 at *
  rcases List.mem_cons.mp member with rfl | member
  · exact free4
  split at member
  · cases member
  rename_i p4
  rw [not_not] at p4
  rcases sound.descends (i := ⟨pml4Index virt, index_lt _⟩) member4 e4Eq p4
    (.inl rank4) with ⟨_, member3, below3⟩
  have free3 := free _ member3 ⟨pml3Index virt, index_lt _⟩
  rw [table] at free3
  generalize e3Eq : state.mem (entryPtr (psePtr e4) (pml3Index virt)) = e3 at *
  rcases List.mem_cons.mp member with rfl | member
  · exact free3
  split at member
  · cases member
  rename_i p3
  rw [not_or, not_not] at p3
  rcases sound.descends (i := ⟨pml3Index virt, index_lt _⟩) member3 e3Eq p3.1
    (.inr ⟨by omega, p3.2⟩) with ⟨_, member2, below2⟩
  have free2 := free _ member2 ⟨pml2Index virt, index_lt _⟩
  rw [table] at free2
  generalize e2Eq : state.mem (entryPtr (psePtr e3) (pml2Index virt)) = e2 at *
  rcases List.mem_cons.mp member with rfl | member
  · exact free2
  split at member
  · cases member
  rename_i p2
  rw [not_or, not_not] at p2
  rcases sound.descends (i := ⟨pml2Index virt, index_lt _⟩) member2 e2Eq p2.1
    (.inr ⟨by omega, p2.2⟩) with ⟨_, member1, _⟩
  rw [List.mem_singleton.mp member]
  exact free _ member1 (slotOf virt)

/-! ## Sequences of calls -/

/-- The arguments of `vmap` for one page. -/
structure VmapCall where
  pid : Int
  pa : Nat
  va : Nat
  flags : Nat

/-- The machine and the calls which succeeded, the first of them first. -/
structure VmapState where
  machine : Machine
  log : List VmapCall

/-- Pages are mapped in address spaces which start out with zeroed roots. -/
def vmapSystem
    (supply : FrameSupply)
    (spaces : Spaces) :
    System VmapState VmapCall where
  init state := (∀ root ∈ supply.roots, ∀ i,
    table state.machine.mem root i = 0) ∧
    state.machine.calls = supply.first ∧ state.log = []
  legal _ call := spaces.Accepts call.pid ∧ archPageSize ∣ call.pa ∧
    archPageSize ∣ call.va ∧ HasFlag call.flags vmap4k
  step state call :=
    (vmap supply.frames spaces state.machine call.pid call.pa call.va 4096
      call.flags).bind fun result =>
        if result.1 = 0 then some ⟨result.2, state.log ++ [call]⟩ else none

/-- The last call which mapped the page. -/
def lastVmap
    (spaces : Spaces)
    (log : List VmapCall)
    (root page : Nat) :
    Option VmapCall :=
  log.reverse.find? fun call =>
    decide (spaces.root call.pid = root ∧ pageOf call.va = page)

theorem lastVmap_concat
    (spaces : Spaces)
    (log : List VmapCall)
    (call : VmapCall)
    (root page : Nat) :
    lastVmap spaces (log ++ [call]) root page =
      if spaces.root call.pid = root ∧ pageOf call.va = page then some call
      else lastVmap spaces log root page := by
  rw [lastVmap, List.reverse_append, List.reverse_singleton,
    List.singleton_append, List.find?_cons]
  by_cases here : spaces.root call.pid = root ∧ pageOf call.va = page
  · simp [here]
  · rw [if_neg here, decide_eq_false here]
    rfl

/-- The tables forbid nothing, and pages are mapped which were asked for. -/
structure Built
    (supply : FrameSupply)
    (spaces : Spaces)
    (state : VmapState) :
    Prop where
  tables : ∃ used rank parent,
    Sound supply.frames supply.roots state.machine used rank parent ∧
      XdFree state.machine.mem used
  asked : ∀ root ∈ supply.roots, ∀ virt,
    pageAt state.machine.mem root virt ≠ none →
      lastVmap spaces state.log root (pageOf virt) ≠ none

section

variable
  {supply : FrameSupply}
  {spaces : Spaces}
  {state state' : VmapState}

theorem Built.initial (initial : (vmapSystem supply spaces).init state) :
    Built supply spaces state := by
  rcases initial with ⟨zeroed, calls, _⟩
  constructor
  · refine ⟨_, _, _, Sound.zeroed zeroed calls, ?_⟩
    intro root isRoot i
    rw [zeroed root isRoot i]
    exact not_hasFlag_zero _
  · intro root isRoot virt mapped
    have blank : state.machine.mem (entryPtr root (pml4Index virt)) = 0 :=
      zeroed root isRoot ⟨pml4Index virt, index_lt _⟩
    rw [pageAt, blank] at mapped
    simp only [not_hasFlag_zero, not_false_eq_true, if_true] at mapped
    exact (mapped rfl).elim

theorem Built.step
    (built : Built supply spaces state)
    (known : ∀ pid, spaces.Accepts pid → spaces.root pid ∈ supply.roots)
    {call : VmapCall}
    (last : (vmapSystem supply spaces).Step state call state') :
    Built supply spaces state' := by
  rcases last with ⟨⟨accepted, _, _, is4k⟩, stepped⟩
  rcases built.tables with ⟨used, rank, parent, sound, free⟩
  have isRoot := known call.pid accepted
  have points := points_table (sound.frame _ (sound.root_used _ isRoot))
  rcases sound.mapPage4k isRoot points (vmap_flags call.flags) call.pa
    call.va with ⟨⟨used', rank', parent', sound', grown⟩, mapped⟩
  rcases Option.bind_eq_some_iff.mp stepped with
    ⟨⟨ret, machine⟩, returned, ending⟩
  rw [vmap_eq accepted is4k, Option.some.injEq] at returned
  rw [returned] at sound' grown mapped
  split at ending
  · rename_i success
    cases ending
    refine ⟨⟨used', rank', parent', sound', grown.xdFree free⟩, ?_⟩
    intro root isRoot' virt isMapped
    rw [lastVmap_concat]
    split
    · simp
    · rename_i other
      apply built.asked root isRoot' virt
      cases mapped with
      | failed negative _ =>
          exact absurd success (Int.ne_of_lt negative)
      | mapped update =>
          rw [update root isRoot', if_neg] at isMapped
          · exact isMapped
          · rintro ⟨rfl, samePage⟩
            exact other ⟨rfl, samePage.symm⟩
  · cases ending

theorem Built.reachable
    (known : ∀ pid, spaces.Accepts pid → spaces.root pid ∈ supply.roots)
    (reachable : (vmapSystem supply spaces).Reachable state) :
    Built supply spaces state := by
  apply reachable.invariant
  · exact fun start initial => .initial initial
  · exact fun _ call _ built last => built.step known last

theorem Built.executable
    (built : Built supply spaces state)
    {root : Nat}
    (isRoot : root ∈ supply.roots)
    (virt : Nat) :
    Executable state.machine.mem root virt := by
  rcases built.tables with ⟨used, rank, parent, sound, free⟩
  exact sound.executable free isRoot virt

/--
A page which is mapped is executable just as the last call for it asked, if
and only if that call asked for an executable page; and it stays executable
whatever is mapped next.
-/
theorem vmap_executable_iff
    (known : ∀ pid, spaces.Accepts pid → spaces.root pid ∈ supply.roots)
    (reachable : (vmapSystem supply spaces).Reachable state)
    {pid : Int}
    (accepted : spaces.Accepts pid)
    {virt : Nat}
    (mapped : walk state.machine.mem (spaces.root pid) virt ≠ none) :
    (∃ call, lastVmap spaces state.log (spaces.root pid) (pageOf virt) =
        some call ∧
      ((Executable state.machine.mem (spaces.root pid) virt ↔
          HasFlag call.flags vmapExec) ↔ HasFlag call.flags vmapExec)) ∧
    ∀ next after, (vmapSystem supply spaces).Step state next after →
      Executable after.machine.mem (spaces.root pid) virt := by
  have isRoot := known pid accepted
  have built := Built.reachable known reachable
  constructor
  · have isPage : pageAt state.machine.mem (spaces.root pid) virt ≠ none := by
      intro noPage
      have noFrame := walk_frame state.machine.mem (spaces.root pid) virt
      rw [noPage, Option.map_none, Option.map_eq_none_iff] at noFrame
      exact mapped noFrame
    rcases Option.ne_none_iff_exists'.mp
      (built.asked _ isRoot virt isPage) with ⟨call, isLast⟩
    refine ⟨call, isLast, ?_⟩
    have executable := built.executable isRoot virt
    exact ⟨fun iff => iff.mp executable, fun asked =>
      ⟨fun _ => asked, fun _ => executable⟩⟩
  · intro next after last
    exact (built.step known last).executable isRoot virt

end

/-! One page, with and without the flag. -/

theorem oneSpace_known
    (pid : Int)
    (accepted : oneSpace.Accepts pid) :
    oneSpace.root pid ∈ threeTables.roots := by
  rw [oneSpace_root accepted]
  rfl

theorem vmapSystem_step
    {supply : FrameSupply}
    {spaces : Spaces}
    {state : VmapState}
    {call : VmapCall}
    {machine : Machine}
    (accepted : spaces.Accepts call.pid)
    (alignedPa : archPageSize ∣ call.pa)
    (alignedVa : archPageSize ∣ call.va)
    (is4k : HasFlag call.flags vmap4k)
    (returned : vmap supply.frames spaces state.machine call.pid call.pa
      call.va 4096 call.flags = some (0, machine)) :
    (vmapSystem supply spaces).Step state call
      ⟨machine, state.log ++ [call]⟩ := by
  refine ⟨⟨accepted, alignedPa, alignedVa, is4k⟩, ?_⟩
  simp only [vmapSystem, returned, Option.bind_some, if_true]

/-- The kernel maps the frame `0x5000` with these flags. -/
def onePage (flags : Nat) : VmapCall :=
  ⟨-1, 0x5000, 0x400000, flags⟩

/-- What is reached from zeroed tables by one such call. -/
theorem onePage_reachable
    {flags : Nat}
    {machine : Machine}
    (is4k : HasFlag flags vmap4k)
    (returned : vmap threeTables.frames oneSpace zeroMachine (-1) 0x5000
      0x400000 4096 flags = some (0, machine)) :
    (vmapSystem threeTables oneSpace).Reachable
      ⟨machine, [onePage flags]⟩ := by
  have start : (vmapSystem threeTables oneSpace).Reachable
      ⟨zeroMachine, []⟩ :=
    .start ⟨fun _ _ _ => rfl, rfl, rfl⟩
  have isPa : archPageSize ∣ 0x5000 := by decide
  have isVa : archPageSize ∣ 0x400000 := by decide
  have last : (vmapSystem threeTables oneSpace).Step ⟨zeroMachine, []⟩
      (onePage flags) ⟨machine, [] ++ [onePage flags]⟩ :=
    vmapSystem_step (.inl rfl) isPa isVa is4k returned
  exact start.next last

theorem vmap_executable_page :
    ∃ machine, vmap threeTables.frames oneSpace zeroMachine (-1) 0x5000
        0x400000 4096 (vmap4k ||| vmapExec) = some (0, machine) ∧
      Executable machine.mem 4096 0x400000 := by
  have success : (vmap threeTables.frames oneSpace zeroMachine (-1) 0x5000
      0x400000 4096 (vmap4k ||| vmapExec)).map (fun result =>
        (result.1, (walk result.2.mem 4096 0x400000).isSome)) =
      some (0, true) := by
    decide +kernel
  rcases Option.map_eq_some_iff.mp success with ⟨⟨ret, machine⟩, returned, both⟩
  rcases Prod.mk.inj both with ⟨rfl, mapped⟩
  have reachable := onePage_reachable (by decide) returned
  have accepted : oneSpace.Accepts (-1) := .inl rfl
  have isMapped : walk machine.mem (oneSpace.root (-1)) 0x400000 ≠ none := by
    rw [oneSpace_root accepted]
    exact Option.isSome_iff_ne_none.mp mapped
  rcases (vmap_executable_iff oneSpace_known reachable accepted isMapped).1
    with ⟨call, isLast, iff⟩
  have isCall : call = onePage (vmap4k ||| vmapExec) := by
    rw [oneSpace_root accepted] at isLast
    have found : lastVmap oneSpace [onePage (vmap4k ||| vmapExec)] 4096
        (pageOf 0x400000) = some (onePage (vmap4k ||| vmapExec)) := by
      rfl
    exact (Option.some.inj (found.symm.trans isLast)).symm
  subst isCall
  have executable := (iff.mpr (by decide)).mpr (by decide)
  rw [oneSpace_root accepted] at executable
  exact ⟨machine, returned, executable⟩

/-- A page which is not to be executable is executable all the same. -/
theorem vmap_executable_unasked :
    ¬ ∀ (supply : FrameSupply) (spaces : Spaces) (state : VmapState),
      (∀ pid, spaces.Accepts pid → spaces.root pid ∈ supply.roots) →
      (vmapSystem supply spaces).Reachable state →
      ∀ (pid : Int) (virt : Nat) (call : VmapCall), spaces.Accepts pid →
        walk state.machine.mem (spaces.root pid) virt ≠ none →
        lastVmap spaces state.log (spaces.root pid) (pageOf virt) =
          some call →
        (Executable state.machine.mem (spaces.root pid) virt ↔
          HasFlag call.flags vmapExec) := by
  intro always
  have success : (vmap threeTables.frames oneSpace zeroMachine (-1) 0x5000
      0x400000 4096 vmap4k).map (fun result =>
        (result.1, (walk result.2.mem 4096 0x400000).isSome,
          decide (Executable result.2.mem 4096 0x400000))) =
      some (0, true, true) := by
    decide +kernel
  rcases Option.map_eq_some_iff.mp success with ⟨⟨ret, machine⟩, returned, both⟩
  simp only [Prod.mk.injEq, decide_eq_true_eq] at both
  rcases both with ⟨rfl, mapped, executable⟩
  have iff := always threeTables oneSpace _ oneSpace_known
    (onePage_reachable (by decide) returned) (-1) 0x400000 (onePage vmap4k)
    (.inl rfl)
  rw [oneSpace_root (.inl rfl)] at iff
  have asked := (iff (Option.isSome_iff_ne_none.mp mapped) rfl).mp executable
  exact absurd asked (by decide)

end ForsKernel.Memory.Paging
