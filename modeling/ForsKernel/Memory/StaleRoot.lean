import ForsKernel.Memory.KernelImage
import ForsKernel.Memory.LargePages

/-!
# What the frame of a new root held before

`new_blank_user_pml4` takes the frame of its root from `pfalloc_one` and does
not clear it, as `map_page_4k` does with every table below.  What the frame
held before is found among the entries of the new address space.
-/

namespace ForsKernel.Memory.Paging

/-! ## Reachable tables -/

/-- The tables which are reached from a root, with their levels. -/
inductive ReachesTable
    (mem : Nat → Nat)
    (root : Nat) :
    Nat → Nat → Prop where
  | root : ReachesTable mem root 3 root
  | named {level f c : Nat} {i : Fin 512}
      (reached : ReachesTable mem root level f)
      (edge : subtable (level, table mem f i) = some c) :
      ReachesTable mem root (level - 1) c

/--
Nothing is in the new address space but what was mapped: other pages than
those of the loops and of the heap have no translation, and the tables are
frames which the call has allocated.
-/
structure OnlyMapped
    (frames : Nat → Nat)
    (memmap : List MemmapEntry)
    (image : KernelImage)
    (state : Machine)
    (root : Nat)
    (state' : Machine) :
    Prop where
  unmapped : ∀ virt, (∀ call ∈ loopCalls memmap image root,
      pageOf call.virt ≠ pageOf virt) →
    pageOf image.heapStart ≠ pageOf virt →
      translate state'.mem root virt = none
  allocated : ∀ level f, ReachesTable state'.mem root level f →
    HandedOut frames state state' f

/-- `pfalloc_one` yields a root, whatever it holds, and then other frames. -/
structure NewRoot
    (frames : Nat → Nat)
    (state : Machine) :
    Prop where
  root_alloc : frames state.calls ≠ 0
  answer_frame : ∀ k ≥ state.calls, frames k ≠ 0 → IsFrame (frames k)
  answer_fresh : ∀ j ≥ state.calls, ∀ k > j, frames k ≠ 0 →
    frames j ≠ frames k

/-- No entry of the frame is present. -/
def Blank
    (mem : Nat → Nat)
    (f : Nat) :
    Prop :=
  ∀ i, ¬ HasFlag (table mem f i) psePresent

/--
The tables which the old entries of the root name form a tree, apart from the
frames which are still to be handed out.
-/
def Apart
    (frames : Nat → Nat)
    (state : Machine) :
    Prop :=
  ∃ used rank parent, Sound frames {frames state.calls}
    (pfallocOne frames state).2 used rank parent

section

variable
  {frames : Nat → Nat}
  {roots : Set Nat}
  {state state' : Machine}
  {used : Set Nat}
  {rank : Nat → Nat}
  {parent : Nat → Nat × Fin 512}
  {root : Nat}

/-- The reachable tables are those of the forest. -/
theorem Sound.reaches
    (sound : Sound frames roots state used rank parent)
    (isRoot : root ∈ roots)
    {level f : Nat}
    (reached : ReachesTable state.mem root level f) :
    f ∈ used ∧ rank f = level := by
  induction reached with
  | root => exact ⟨sound.root_used root isRoot, sound.root_rank root isRoot⟩
  | named reached edge induction =>
      rcases induction with ⟨member, rfl⟩
      rcases sound.below member edge with ⟨memberBelow, rankBelow⟩
      exact ⟨memberBelow, by omega⟩

/-! ## Sequences of calls -/

/-- A call has no effect on other pages. -/
theorem Mapped.elsewhere
    {phys virt : Nat}
    {result : Int × Machine}
    (mapped : Mapped roots state root phys virt result)
    (isRoot : root ∈ roots)
    {virt' : Nat}
    (other : pageOf virt ≠ pageOf virt') :
    pageAt result.2.mem root virt' = pageAt state.mem root virt' := by
  cases mapped with
  | failed _ same => exact same root isRoot virt'
  | mapped update =>
      rw [update root isRoot virt', if_neg]
      exact fun here => other here.2.symm

/-- Calls which do not panic let the forest grow and keep other pages. -/
theorem Sound.mapAll
    (sound : Sound frames roots state used rank parent)
    (isRoot : root ∈ roots)
    {calls : List MapCall}
    (legal : ∀ call ∈ calls, call.pml4Table = root ∧ IsFlags call.flags)
    (returned : Paging.mapAll frames calls state = some state') :
    ∃ used' rank' parent', Sound frames roots state' used' rank' parent' ∧
      Grown frames state used rank state' used' rank' ∧
      ∀ virt, (∀ call ∈ calls, pageOf call.virt ≠ pageOf virt) →
        pageAt state'.mem root virt = pageAt state.mem root virt := by
  induction calls generalizing state used rank parent with
  | nil =>
      cases returned
      exact ⟨used, rank, parent, sound, .refl _ _ _ _, fun _ _ => rfl⟩
  | cons call calls induction =>
      have first := legal call (by simp)
      rw [Paging.mapAll, first.1] at returned
      have points := physical_low (sound.frame _ (sound.root_used _ isRoot))
      rcases sound.mapPage4k isRoot points first.2 call.phys call.virt with
        ⟨⟨used₁, rank₁, parent₁, sound₁, grown₁⟩, mapped⟩
      split at returned
      · cases returned
      rcases induction sound₁
        (fun other member => legal other (by simp [member])) returned with
        ⟨used', rank', parent', sound', grown', kept⟩
      refine ⟨used', rank', parent', sound', grown₁.trans grown', ?_⟩
      intro virt untouched
      rw [kept virt fun other member => untouched other (by simp [member])]
      exact mapped.elsewhere isRoot (untouched call (by simp))

/-- The same for all that `new_blank_user_pml4` does with its root. -/
theorem Sound.newBlankUserPml4
    {memmap : List MemmapEntry}
    {image : KernelImage}
    (sound : Sound frames {frames state.calls} (pfallocOne frames state).2
      used rank parent)
    (returned : Paging.newBlankUserPml4 frames memmap image state =
      some (root, state')) :
    root = frames state.calls ∧ ∃ used' rank' parent',
      Sound frames {root} state' used' rank' parent' ∧
      Grown frames (pfallocOne frames state).2 used rank state' used' rank' ∧
      ∀ virt, (∀ call ∈ loopCalls memmap image root,
          pageOf call.virt ≠ pageOf virt) →
        pageOf image.heapStart ≠ pageOf virt →
          pageAt state'.mem root virt = pageAt state.mem root virt := by
  rw [newBlankUserPml4_eq, mapLoops] at returned
  rcases Option.bind_eq_some_iff.mp returned with ⟨_, looping, last⟩
  rcases Option.map_eq_some_iff.mp looping with ⟨looped, all, rfl⟩
  simp only at last
  split at last
  · cases last
  rcases Prod.mk.inj (Option.some.inj last) with ⟨rootIs, rfl⟩
  have same : root = frames state.calls := rootIs.symm
  subst same
  refine ⟨rfl, ?_⟩
  have isRoot : frames state.calls ∈ ({frames state.calls} : Set Nat) := rfl
  rcases sound.mapAll isRoot (loopCalls_legal memmap image _) all with
    ⟨used₁, rank₁, parent₁, sound₁, grown₁, kept⟩
  have points := physical_low (sound₁.frame _ (sound₁.root_used _ isRoot))
  rcases sound₁.mapPage4k isRoot points isFlags_writable
    (mapLookup looped image.kernelPml4Table image.heapStart).2
    image.heapStart with ⟨⟨used', rank', parent', sound', grown'⟩, mapped⟩
  refine ⟨used', rank', parent', sound', grown₁.trans grown', ?_⟩
  intro virt untouched notHeap
  exact (mapped.elsewhere isRoot notHeap).trans (kept virt untouched)

/-! ## The new address space -/

/-- A blank root is a tree without branches. -/
theorem NewRoot.sound
    (newRoot : NewRoot frames state)
    (blank : Blank state.mem (frames state.calls)) :
    Sound frames {frames state.calls} (pfallocOne frames state).2
      {frames state.calls} (fun _ => 3) (fun _ => (0, 0)) := by
  apply Sound.blank
  · rintro _ rfl
    exact newRoot.answer_frame _ le_rfl newRoot.root_alloc
  · rintro _ rfl i
    exact blank i
  · intro k after
    exact newRoot.answer_frame k (Nat.le_of_succ_le after)
  · intro k after notNull isRoot
    exact newRoot.answer_fresh _ le_rfl k after notNull isRoot.symm
  · intro j after
    exact newRoot.answer_fresh j (Nat.le_of_succ_le after)

theorem pageAt_blank
    {mem : Nat → Nat}
    (blank : Blank mem root)
    (virt : Nat) :
    pageAt mem root virt = none := by
  rw [pageAt]
  exact if_pos (blank ⟨pml4Index virt, index_lt _⟩)

/-- What is handed out later is handed out also from an earlier call on. -/
theorem HandedOut.earlier
    {middle : Machine}
    {f : Nat}
    (handedOut : HandedOut frames middle state' f)
    (before : state.calls ≤ middle.calls) :
    HandedOut frames state state' f := by
  rcases handedOut with ⟨notNull, k, lower, upper, is⟩
  exact ⟨notNull, k, before.trans lower, upper, is⟩

section

variable
  {memmap : List MemmapEntry}
  {image : KernelImage}

/-- From a blank root on there is nothing but what was mapped. -/
theorem NewRoot.onlyMapped
    (newRoot : NewRoot frames state)
    (returned : newBlankUserPml4 frames memmap image state =
      some (root, state'))
    (blank : Blank state.mem (frames state.calls)) :
    OnlyMapped frames memmap image state root state' := by
  rcases (newRoot.sound blank).newBlankUserPml4 returned with
    ⟨rfl, used', rank', parent', sound', grown, kept⟩
  constructor
  · intro virt untouched notHeap
    have noPage := (kept virt untouched notHeap).trans
      (pageAt_blank blank virt)
    rw [translate_eq, noPage]
    rfl
  · intro level f reached
    rcases grown.allocated f (sound'.reaches rfl reached).1 with rfl | below
    · exact ⟨newRoot.root_alloc, state.calls, le_rfl, grown.calls_le, rfl⟩
    · exact below.earlier (Nat.le_succ _)

/-- An old entry stays, and the table it names was not handed out. -/
theorem OnlyMapped.blank
    (apart : Apart frames state)
    (returned : newBlankUserPml4 frames memmap image state =
      some (root, state'))
    (only : OnlyMapped frames memmap image state root state') :
    Blank state.mem (frames state.calls) := by
  intro i present
  rcases apart with ⟨used, rank, parent, sound⟩
  rcases sound.newBlankUserPml4 returned with
    ⟨rfl, used', rank', parent', sound', grown, _⟩
  have member := sound.root_used _ rfl
  have top := sound.root_rank _ rfl
  rcases sound.descends (i := i) member rfl present (.inl top) with
    ⟨edge, memberBelow, rankBelow⟩
  have stays := grown.edge_eq _ member i _ edge
  rw [ranked, sound'.root_rank _ rfl] at stays
  rcases only.allocated _ _ (.named .root stays) with
    ⟨notNull, k, lower, upper, is⟩
  rw [is] at notNull memberBelow rankBelow
  rcases Nat.eq_or_lt_of_le lower with same | later
  · -- the root is above the table
    rw [same] at rankBelow
    omega
  · exact sound.answer_unused k later notNull memberBelow

end

end

/-! ## Two old contents -/

/--
The sixth word of the frame of the root is this one; the allocator's own links
are before it.  It leads to a table which maps the lowest memory as a large page
for the user.
-/
def heldMachine (word : Nat) : Machine where
  mem address :=
    if address = 0x400000 + 8 * 5 then word
    else if address = 0x500000 then 0x87
    else sampleMachine.mem address
  calls := 0

/-- The frames and the old table lie in usable memory. -/
def heldMemmap : List MemmapEntry :=
  [⟨0, 0x2000, 0⟩, ⟨0x400000, 0x10000, 0⟩, ⟨0x500000, 0x1000, 0⟩]

/-- Only one word of the frame is not zero. -/
theorem heldMachine_root
    (word : Nat)
    (i : Fin 512) :
    table (heldMachine word).mem 0x400000 i =
      if i.val = 5 then word else 0 := by
  show (heldMachine word).mem (0x400000 + 8 * i.val) = _
  have bound := i.isLt
  simp only [heldMachine, sampleMachine]
  by_cases sixth : i.val = 5
  · rw [if_pos sixth, if_pos (by omega)]
  · rw [if_neg sixth, if_neg (by omega), if_neg (by omega),
      if_neg (by omega), if_neg (by omega), if_neg (by omega),
      if_neg (by omega)]

theorem heldMachine_old
    (word : Nat)
    (i : Fin 512) :
    table (heldMachine word).mem 0x500000 i =
      if i.val = 0 then 0x87 else 0 := by
  show (heldMachine word).mem (0x500000 + 8 * i.val) = _
  have bound := i.isLt
  simp only [heldMachine, sampleMachine]
  rw [if_neg (by omega)]
  by_cases first : i.val = 0
  · rw [if_pos first, if_pos (by omega)]
  · rw [if_neg first, if_neg (by omega), if_neg (by omega),
      if_neg (by omega), if_neg (by omega), if_neg (by omega)]

theorem heldMachine_newRoot (word : Nat) :
    NewRoot sampleFrames (heldMachine word) where
  root_alloc := sample_fresh.root_alloc
  answer_frame := sample_fresh.answer_frame
  answer_fresh := sample_fresh.answer_fresh

/-- A word which names the table, but is not present. -/
def absentTable : Nat × Machine :=
  (newBlankUserPml4 sampleFrames heldMemmap sampleImage
    (heldMachine 0x500006)).get (by decide +kernel)

/-- A word which names the table. -/
def staleTable : Nat × Machine :=
  (newBlankUserPml4 sampleFrames heldMemmap sampleImage
    (heldMachine 0x500007)).get (by decide +kernel)

theorem absentTable_returned :
    newBlankUserPml4 sampleFrames heldMemmap sampleImage
      (heldMachine 0x500006) = some (absentTable.1, absentTable.2) := by
  rw [Prod.mk.eta, absentTable, Option.some_get]

theorem staleTable_returned :
    newBlankUserPml4 sampleFrames heldMemmap sampleImage
      (heldMachine 0x500007) = some (staleTable.1, staleTable.2) := by
  rw [Prod.mk.eta, staleTable, Option.some_get]

/-- The root names the old table, which names no other one. -/
theorem heldMachine_edge
    {f next : Nat}
    {i : Fin 512}
    (held : f = 0x400000 ∨ f = 0x500000)
    (edge : subtable (if f = 0x400000 then 3 else 2,
      table (heldMachine 0x500007).mem f i) = some next) :
    f = 0x400000 ∧ i.val = 5 ∧ next = 0x500000 := by
  have named : subtable (3, 0x500007) = some 0x500000 := by decide
  have large : subtable (2, 0x87) = none := by decide
  rcases held with rfl | rfl
  · rw [if_pos rfl, heldMachine_root] at edge
    by_cases sixth : i.val = 5
    · rw [if_pos sixth, named] at edge
      cases edge
      exact ⟨rfl, sixth, rfl⟩
    · rw [if_neg sixth,
        subtable_none_of_absent (not_hasFlag_zero _)] at edge
      cases edge
  · rw [if_neg (by decide), heldMachine_old] at edge
    by_cases first : i.val = 0
    · rw [if_pos first, large] at edge
      cases edge
    · rw [if_neg first,
        subtable_none_of_absent (not_hasFlag_zero _)] at edge
      cases edge

theorem staleTable_apart : Apart sampleFrames (heldMachine 0x500007) := by
  refine ⟨{0x400000, 0x500000}, fun f => if f = 0x400000 then 3 else 2,
    fun _ => (0x400000, ⟨5, by decide⟩), ?_, ⟨?_⟩, ?_, ?_, ?_, ?_, ?_⟩
  · rintro f (rfl | rfl)
    · exact ⟨by decide, by decide⟩
    · exact ⟨by decide, by decide⟩
  · intro f held _ i next edge
    rcases heldMachine_edge held edge with ⟨rfl, sixth, rfl⟩
    exact ⟨.inr rfl, rfl, Prod.ext rfl (Fin.ext sixth.symm)⟩
  · rintro root rfl
    exact .inl rfl
  · rintro root rfl
    rfl
  · intro k after
    exact sample_fresh.answer_frame k (Nat.zero_le k)
  · intro k after notNull member
    have later : 1 ≤ k := after
    rw [sampleFrames] at notNull member
    split at notNull
    · rename_i few
      rw [if_pos few] at member
      rcases member with same | same
      · omega
      · have same' : 0x400000 + 4096 * k = 0x500000 := same
        omega
    · exact notNull rfl
  · intro j after
    exact sample_fresh.answer_fresh j (Nat.zero_le j)

end ForsKernel.Memory.Paging
