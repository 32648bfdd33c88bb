import ForsKernel.Memory.SharedTables

/-!
# The allocator and the page tables over whole runs

Clients take frames, write to them and give them back, while `map_page_4k`
takes frames for its tables.  In every run no frame has two uses: every walk
finds what the calls of `map_page_4k` have put there, whatever clients write
to their frames, and they keep what they have written.
-/

namespace ForsKernel.Memory.Frames

/-! ## What clients hold -/

section

variable
  {initial : FrameSet}
  {state : FrameSystem}
  {frames : List Nat}

/-- What a client is given was free. -/
theorem step_held
    (inv : FrameInvariant initial state frames)
    (held : Finset Nat)
    {op : FrameOp}
    {next : FrameSystem}
    (returned : FrameSystem.step ⟨state.pool, held⟩ op = some next)
    {f : Nat}
    (member : f ∈ next.allocated) :
    f ∈ held ∨ f ∈ frames := by
  cases op with
  | allocOne =>
      cases returned
      cases frames with
      | nil =>
          left
          simpa [pfallocOne_nil inv.holds, handOut] using member
      | cons first rest =>
          have answer := (pfallocOne_cons inv.holds inv.free.length_lt).1
          replace member : f ∈ handOut held (pfallocOne state.pool).1 1 :=
            member
          rw [answer, handOut,
            if_neg (inv.holds.list.ne_null List.mem_cons_self),
            Finset.mem_union, List.mem_toFinset] at member
          refine member.imp_right fun inRun => ?_
          rw [List.mem_singleton.mp inRun]
          exact List.mem_cons_self
  | allocConsecutive n =>
      rcases Option.map_eq_some_iff.mp returned with
        ⟨⟨ptr, pool⟩, allocated, rfl⟩
      replace allocated : pfallocConsecutive state.pool n = some (ptr, pool) :=
        allocated
      replace member : f ∈ handOut held ptr n.toNat := member
      rcases pfallocConsecutive_spec inv.free n with
        ⟨ptr', pool', allocated', nothing | ⟨notNull, _, left, right, split, _⟩⟩
      · rw [allocated] at allocated'
        cases allocated'
        left
        simpa [nothing.1, handOut] using member
      · rw [allocated] at allocated'
        cases allocated'
        rw [(inv.searched_eq split).2] at split
        rw [handOut, if_neg notNull, Finset.mem_union,
          List.mem_toFinset] at member
        refine member.imp_right fun inRun => ?_
        rw [split]
        simp [inRun]
  | freeOne pf =>
      rcases Option.map_eq_some_iff.mp returned with ⟨pool, _, rfl⟩
      exact .inl (Finset.mem_of_mem_erase member)
  | write frame contents =>
      cases returned
      exact .inl member

theorem FrameOp.subject_held
    {pool : FramePool}
    {held : Finset Nat}
    {op : FrameOp}
    (legal : op.legal ⟨pool, held⟩) :
    ∀ f ∈ op.subject, f ∈ held := by
  intro f member
  cases op with
  | allocOne => cases member
  | allocConsecutive n => cases member
  | freeOne pf => exact List.mem_singleton.mp member ▸ legal
  | write frame contents => exact List.mem_singleton.mp member ▸ legal

/-- Who holds more frames may do no less. -/
theorem FrameOp.legal_union
    {pool : FramePool}
    {held : Finset Nat}
    {op : FrameOp}
    (legal : op.legal ⟨pool, held⟩)
    (tables : Finset Nat) :
    op.legal ⟨pool, tables ∪ held⟩ := by
  cases op with
  | allocOne => trivial
  | allocConsecutive n => trivial
  | freeOne pf => exact Finset.mem_union_right tables legal
  | write frame contents => exact Finset.mem_union_right tables legal

/-- The allocator does not ask who else holds frames. -/
theorem step_union
    {pool : FramePool}
    {tables held : Finset Nat}
    {op : FrameOp}
    {next : FrameSystem}
    (legal : op.legal ⟨pool, held⟩)
    (apart : ∀ f ∈ tables, f ∉ held)
    (returned : FrameSystem.step ⟨pool, tables ∪ held⟩ op = some next) :
    ∃ held', FrameSystem.step ⟨pool, held⟩ op = some ⟨next.pool, held'⟩ ∧
      next.allocated = tables ∪ held' := by
  have handed : ∀ ptr n, handOut (tables ∪ held) ptr n =
      tables ∪ handOut held ptr n := by
    intro ptr n
    rw [handOut, handOut]
    split
    · rfl
    · exact Finset.union_assoc _ _ _
  cases op with
  | allocOne =>
      cases returned
      exact ⟨_, rfl, handed _ 1⟩
  | allocConsecutive n =>
      rcases Option.map_eq_some_iff.mp returned with
        ⟨⟨ptr, after⟩, allocated, rfl⟩
      refine ⟨handOut held ptr n.toNat, ?_, handed ptr n.toNat⟩
      rw [FrameSystem.step, allocated]
      rfl
  | freeOne pf =>
      rcases Option.map_eq_some_iff.mp returned with ⟨after, freed, rfl⟩
      refine ⟨held.erase pf, ?_, ?_⟩
      · rw [FrameSystem.step, freed]
        rfl
      · show (tables ∪ held).erase pf = tables ∪ held.erase pf
        rw [Finset.erase_union_distrib, Finset.erase_eq_of_notMem]
        exact fun member => apart pf member legal
  | write frame contents =>
      cases returned
      exact ⟨held, rfl, rfl⟩

end

end ForsKernel.Memory.Frames

namespace ForsKernel.Memory.Shared

open ForsKernel.Lib.RadixForest
open ForsKernel.Lib.Transition
open ForsKernel.Memory.Paging
open ForsKernel.Memory.Frames (FramePool FrameOp FrameSet FrameSystem Holds
  FrameInvariant FreeList)

/-! ## The system -/

/-- The roots there are, and the frames which the allocator is filled with. -/
structure Boot where
  roots : Set Nat
  initial : FrameSet
  root_frame : ∀ root ∈ roots, IsFrame root
  root_ne_null : ∀ root ∈ roots, root ≠ 0
  below : ∀ f ∈ initial.frames, f < 2 ^ 47
  not_root : ∀ f ∈ initial.frames, f ∉ roots

/-- Memory, the frames which clients hold, and the calls with their results. -/
structure MemoryState where
  memory : PhysicalMemory
  held : Finset Nat
  log : List (MapCall × Int)

inductive MemoryOp where
  | map (call : MapCall)
  | client (op : FrameOp)
  | store (frame : Nat) (i : Fin 512) (value : Nat)

/-- The frames of a client which the operation writes to. -/
def MemoryOp.writes : MemoryOp → List Nat
  | .map _ => []
  | .client op => op.subject
  | .store frame _ _ => [frame]

/-- Pages are mapped below a root, and clients use the frames they hold. -/
def MemoryOp.legal
    (boot : Boot)
    (state : MemoryState) :
    MemoryOp → Prop
  | .map call =>
      Machine.physical call.pml4Table ∈ boot.roots ∧
        archPageSize ∣ call.phys ∧ call.phys < 2 ^ 52 ∧ IsFlags call.flags
  | .client op => op.legal ⟨state.memory.pool, state.held⟩
  | .store frame _ _ => frame ∈ state.held

def MemoryState.step (state : MemoryState) : MemoryOp → Option MemoryState
  | .map call =>
      let result := mapPage4k state.memory call.pml4Table call.phys call.virt
        call.flags
      some ⟨result.2, state.held, state.log ++ [(call, result.1)]⟩
  | .client op =>
      (FrameSystem.step ⟨state.memory.pool, state.held⟩ op).map fun next =>
        ⟨state.memory.withPool next.pool, next.allocated, state.log⟩
  | .store frame i value =>
      some { state with
        memory := state.memory.write (entryPtr frame i) value }

/-- `frame_insert` for frame after frame. -/
def fill
    (order : List Nat)
    (memory : PhysicalMemory) :
    Option PhysicalMemory :=
  order.foldlM (fun memory frame =>
    (Frames.frameInsert memory.pool frame).map memory.withPool) memory

/-- Blank roots, and an allocator which has been filled in any order. -/
def memorySystem (boot : Boot) : System MemoryState MemoryOp where
  init state := state.held = ∅ ∧ state.log = [] ∧
    ∃ mem order, order.Nodup ∧ order.toFinset = boot.initial.frames ∧
      (∀ root ∈ boot.roots, ∀ i, table mem root i = 0) ∧
      fill order ⟨mem, 0, 0⟩ = some state.memory
  legal state op := op.legal boot state
  step := MemoryState.step

/-! ## Filling the allocator -/

namespace Boot

theorem isFrame
    (boot : Boot)
    {f : Nat}
    (member : f ∈ boot.initial.frames) :
    IsFrame f :=
  ⟨Nat.dvd_of_mod_eq_zero (boot.initial.aligned f member),
    boot.below f member⟩

/-- Distinct frames of the boot set may be taken in this order. -/
theorem ordered
    (boot : Boot)
    {order : List Nat}
    (nodup : order.Nodup)
    (members : ∀ f ∈ order, f ∈ boot.initial.frames) :
    FrameOrder boot.roots order where
  root_frame := boot.root_frame
  root_ne_null := boot.root_ne_null
  frame f member := boot.isFrame (members f member)
  ne_null f member := boot.initial.ne_null f (members f member)
  not_root f member := boot.not_root f (members f member)
  nodup := nodup

end Boot

/-- Filling links the frames and writes to no other one. -/
theorem fill_spec
    (boot : Boot)
    (order : List Nat) :
    ∀ (memory : PhysicalMemory) (frames : List Nat),
      Holds memory.pool frames → (frames ++ order).Nodup →
      (∀ f ∈ frames ++ order, f ∈ boot.initial.frames) →
      ∃ memory' frames', fill order memory = some memory' ∧
        Holds memory'.pool frames' ∧
        (∀ f, f ∈ frames' ↔ f ∈ frames ++ order) ∧
        ∀ root ∈ boot.roots, ∀ i,
          table memory'.mem root i = table memory.mem root i := by
  induction order with
  | nil =>
      intro memory frames holds _ _
      exact ⟨memory, frames, rfl, holds, by simp, fun _ _ _ => rfl⟩
  | cons frame order induction =>
      intro memory frames holds nodup members
      have isMember := members frame (by simp)
      have fresh : frame ∉ frames := by
        intro listed
        have apart := (List.nodup_append.mp nodup).2.2
        exact apart frame listed frame List.mem_cons_self rfl
      have listed : ∀ f ∈ frames, f ∈ boot.initial.frames := fun f member =>
        members f (List.mem_append_left _ member)
      have room : frames.length + 1 < 2 ^ 64 := by
        have card := Finset.card_le_card (s := frames.toFinset)
          (t := boot.initial.frames)
          (fun f member => listed f (List.mem_toFinset.mp member))
        rw [List.toFinset_card_of_nodup holds.list.nodup] at card
        have few := boot.initial.few
        omega
      rcases Frames.frameInsert_spec holds
        (boot.initial.ne_null frame isMember) fresh room with
        ⟨pool, left, right, inserted, split, holds'⟩
      have same : ∀ f, f ∈ left ++ frame :: right ↔
          f ∈ frames ∨ f = frame := by
        intro f
        rw [split]
        simp only [List.mem_append, List.mem_cons]
        tauto
      have holdsHere : Holds (memory.withPool pool).pool
          (left ++ frame :: right) := by
        apply holds_withPool holds'
        intro f member
        rcases (same f).mp member with old | rfl
        · exact boot.isFrame (listed f old)
        · exact boot.isFrame isMember
      have perm : (left ++ frame :: right ++ order).Nodup := by
        rw [List.nodup_append] at nodup ⊢
        refine ⟨holds'.list.nodup, (List.nodup_cons.mp nodup.2.1).2, ?_⟩
        intro f member g later
        rcases (same f).mp member with old | rfl
        · exact nodup.2.2 f old g (List.mem_cons_of_mem frame later)
        · rintro rfl
          exact (List.nodup_cons.mp nodup.2.1).1 later
      have allMembers : ∀ f ∈ left ++ frame :: right ++ order,
          f ∈ boot.initial.frames := by
        intro f member
        apply members f
        rw [List.mem_append, same f] at member
        simp only [List.mem_append, List.mem_cons]
        tauto
      rcases induction (memory.withPool pool) _ holdsHere perm allMembers with
        ⟨memory', frames', filled, holdsLast, sameLast, roots⟩
      refine ⟨memory', frames', ?_, holdsLast, ?_, ?_⟩
      · rw [fill, List.foldlM_cons, inserted]
        exact filled
      · intro f
        rw [sameLast f, List.mem_append, same f]
        simp only [List.mem_append, List.mem_cons]
        tauto
      · intro root isRoot i
        rw [roots root isRoot i]
        apply table_withPool (boot.root_frame root isRoot)
        apply Frames.frameInsert_writes holds inserted root
          (boot.root_ne_null root isRoot)
        rw [List.mem_cons, not_or]
        refine ⟨?_, fun old => boot.not_root root (listed root old) isRoot⟩
        rintro rfl
        exact boot.not_root root isMember isRoot

/-! ## The invariant -/

/--
The first frames of the order hold tables and the others are free; with the
frames which clients hold they are the frames of the boot set.
-/
structure SharedInv
    (boot : Boot)
    (state : MemoryState)
    (order : List Nat)
    (taken : Nat) :
    Prop where
  ordered : FrameOrder boot.roots order
  partition : order.toFinset ∪ state.held = boot.initial.frames
  apart : ∀ f ∈ order, f ∉ state.held
  stands : ∃ used rank parent,
    Standing ordered state.memory taken used rank parent
  walks : ∀ root ∈ boot.roots, ∀ virt,
    walk state.memory.mem root virt = replay state.log root (pageOf virt)

section

variable
  {boot : Boot}
  {state : MemoryState}
  {order : List Nat}
  {taken : Nat}

namespace SharedInv

theorem mem_initial
    (inv : SharedInv boot state order taken)
    {f : Nat}
    (member : f ∈ order ∨ f ∈ state.held) :
    f ∈ boot.initial.frames := by
  rw [← inv.partition, Finset.mem_union, List.mem_toFinset]
  exact member

theorem held_isFrame
    (inv : SharedInv boot state order taken)
    {f : Nat}
    (held : f ∈ state.held) :
    IsFrame f ∧ f ≠ 0 ∧ f ∉ boot.roots ∧ f ∉ order := by
  have member := inv.mem_initial (.inr held)
  exact ⟨boot.isFrame member, boot.initial.ne_null f member,
    boot.not_root f member, fun listed => inv.apart f listed held⟩

theorem free (inv : SharedInv boot state order taken) :
    Holds state.memory.pool (order.drop taken) := by
  rcases inv.stands with ⟨used, rank, parent, stands⟩
  exact stands.free

/-- To the allocator tables are frames which it has handed out. -/
theorem frames (inv : SharedInv boot state order taken) :
    FrameInvariant boot.initial ⟨state.memory.pool,
      (order.take taken).toFinset ∪ state.held⟩ (order.drop taken) := by
  refine ⟨inv.free, ?_, ?_⟩
  · rw [Finset.disjoint_left]
    intro f free member
    rw [List.mem_toFinset] at free
    rcases Finset.mem_union.mp member with isTaken | held
    · exact List.disjoint_take_drop inv.ordered.nodup (Nat.le_refl taken)
        (List.mem_toFinset.mp isTaken) free
    · exact inv.apart f (List.mem_of_mem_drop free) held
  · rw [← inv.partition, ← Finset.union_assoc]
    congr 1
    ext f
    rw [Finset.mem_union, List.mem_toFinset, List.mem_toFinset,
      List.mem_toFinset, or_comm, ← List.mem_append, List.take_append_drop]

end SharedInv

/-- A boot state is in order. -/
theorem shared_init (initial : (memorySystem boot).init state) :
    ∃ order, SharedInv boot state order 0 := by
  rcases initial with ⟨none, noCalls, mem, order, nodup, members, blank, filled⟩
  have inInitial : ∀ f ∈ [] ++ order, f ∈ boot.initial.frames := by
    intro f member
    rw [← members]
    exact List.mem_toFinset.mpr member
  have empty : Holds (PhysicalMemory.pool ⟨mem, 0, 0⟩) [] :=
    ⟨Lib.LinkedList.IsList.empty 0 _ _, List.Pairwise.nil, rfl⟩
  rcases fill_spec boot order ⟨mem, 0, 0⟩ [] empty nodup inInitial with
    ⟨memory, frames, filled', holds, same, roots⟩
  rw [filled] at filled'
  cases filled'
  have ordered := boot.ordered holds.list.nodup fun f member =>
    inInitial f ((same f).mp member)
  have zeroed : ∀ root ∈ boot.roots, ∀ i,
      table state.memory.mem root i = 0 := by
    intro root isRoot i
    rw [roots root isRoot i]
    exact blank root isRoot i
  have start : (pagingSystem ordered.supply).init
      ⟨⟨state.memory.mem, 0⟩, []⟩ :=
    ⟨zeroed, rfl, rfl⟩
  rcases initial_refines start with ⟨⟨used, rank, parent, inv⟩, walks⟩
  refine ⟨frames, ordered, ?_, ?_, ⟨used, rank, parent, Nat.zero_le _, holds,
    inv⟩, ?_⟩
  · rw [none, Finset.union_empty, ← members]
    ext f
    rw [List.mem_toFinset, List.mem_toFinset]
    exact same f
  · intro f _
    rw [none]
    exact Finset.notMem_empty f
  · intro root isRoot virt
    rw [noCalls]
    exact walks root isRoot virt

/-! ## One operation -/

/-- The frames of clients which an operation leaves alone. -/
def Kept
    (state next : MemoryState)
    (written : List Nat) :
    Prop :=
  ∀ f ∈ state.held, f ∈ next.held → f ∉ written →
    ∀ i, table next.memory.mem f i = table state.memory.mem f i

theorem map_shared
    (inv : SharedInv boot state order taken)
    {call : MapCall}
    (legal : MemoryOp.legal boot state (.map call)) :
    ∃ next taken', state.step (.map call) = some next ∧
      SharedInv boot next order taken' ∧ Kept state next [] := by
  rcases inv.stands with ⟨used, rank, parent, stands⟩
  rcases legal with ⟨isRoot, aligned, fits, isFlags⟩
  rcases mapPage4k_spec stands isRoot
    (points_table (boot.root_frame _ isRoot)) isFlags call.phys call.virt with
    ⟨ret, memory', taken', ran, called⟩
  refine ⟨⟨memory', state.held, state.log ++ [(call, ret)]⟩, taken', ?_,
    ⟨inv.ordered, inv.partition, inv.apart, called.stands, ?_⟩, ?_⟩
  · rw [MemoryState.step, ran]
  · intro root member virt
    have before := inv.walks root member virt
    have effect := called.effect
    rw [replay_concat]
    cases effect with
    | nomem unchanged =>
        rw [if_neg (show eNomem ≠ 0 by decide), ← before]
        exact unchanged root member virt
    | mapped update =>
        rw [if_pos rfl, AddressSpaces.map, ← before,
          ← psePtr_frame aligned fits]
        exact update root member virt
  · intro f held _ _ i
    rcases inv.held_isFrame held with ⟨isFrame, notNull, notRoot, outside⟩
    exact called.untouched f isFrame notNull notRoot outside i

/-- A client changes no word of a table, and what is given out was free. -/
theorem client_shared
    (inv : SharedInv boot state order taken)
    {op : FrameOp}
    (legal : op.legal ⟨state.memory.pool, state.held⟩) :
    ∃ next order', state.step (.client op) = some next ∧
      SharedInv boot next order' taken ∧ Kept state next op.subject := by
  rcases inv.stands with ⟨used, rank, parent, stands⟩
  have bound := stands.bound
  have apart : ∀ f ∈ (order.take taken).toFinset, f ∉ state.held :=
    fun f member => inv.apart f
      (List.mem_of_mem_take (List.mem_toFinset.mp member))
  rcases Frames.step_invariant inv.frames op (FrameOp.legal_union legal _) with
    ⟨⟨pool', allocated⟩, free', ran, frames'⟩
  have writes := Frames.step_writes inv.frames ran
  rcases Frames.step_union legal apart ran with ⟨held', ran', isUnion⟩
  replace isUnion : allocated = (order.take taken).toFinset ∪ held' := isUnion
  subst isUnion
  have notHeld : ∀ f ∈ order.take taken, f ∉ held' := by
    intro f isTaken held
    rcases Frames.step_held inv.frames state.held ran' held with
      before | free
    · exact inv.apart f (List.mem_of_mem_take isTaken) before
    · exact List.disjoint_take_drop inv.ordered.nodup (Nat.le_refl taken)
        isTaken free
  have notFree : ∀ f ∈ free', f ∉ order.take taken ∧ f ∉ held' := by
    intro f free
    have outside := frames'.not_allocated free
    rw [Finset.mem_union, List.mem_toFinset, not_or] at outside
    exact outside
  have partition := frames'.partition
  have ordered' : FrameOrder boot.roots (order.take taken ++ free') := by
    apply boot.ordered
    · refine List.nodup_append.mpr ⟨inv.ordered.nodup.sublist
        (List.take_sublist taken order), frames'.holds.list.nodup, ?_⟩
      rintro f isTaken g free rfl
      exact (notFree f free).1 isTaken
    · intro f member
      rw [← partition]
      simp only [List.mem_append] at member
      simp only [Finset.mem_union, List.mem_toFinset]
      tauto
  have length : (order.take taken).length = taken :=
    List.length_take_of_le bound
  have takes : (order.take taken ++ free').take taken = order.take taken :=
    List.take_left' length
  have drops : (order.take taken ++ free').drop taken = free' :=
    List.drop_left' length
  have bound' : taken ≤ (order.take taken ++ free').length := by
    rw [List.length_append, length]
    exact Nat.le_add_right taken _
  -- frames which are not free and not the subject keep their words
  have same : ∀ g, IsFrame g → g ≠ 0 → g ∉ order.drop taken →
      g ∉ op.subject → ∀ i, table (state.memory.withPool pool').mem g i =
        table state.memory.mem g i := by
    intro g gFrame notNull notFreeG notSubject
    apply table_withPool gFrame
    apply writes g notNull
    rw [List.mem_append, not_or]
    exact ⟨notSubject, notFreeG⟩
  have sameTables : ∀ g ∈ used, ∀ i,
      table (state.memory.withPool pool').mem g i =
        table state.memory.mem g i := by
    intro g gUsed
    have known := stands.known gUsed
    refine same g (stands.isFrame gUsed)
      (inv.ordered.ne_null_of_known bound known)
      (inv.ordered.not_free bound known) ?_
    intro isSubject
    have held := FrameOp.subject_held legal g isSubject
    rcases (inv.ordered.mem_known bound).mp known with isRoot | isTaken
    · exact (inv.held_isFrame held).2.2.1 isRoot
    · exact inv.apart g (List.mem_of_mem_take isTaken) held
  rcases machineInv_congr stands.inv sameTables with ⟨machine, ext⟩
  have stands' : Standing ordered' (state.memory.withPool pool') taken used
      rank parent := by
    refine ⟨bound', ?_, machine.tables, machine.started, ?_,
      machine.root_used, machine.root_rank, machine.rank_le⟩
    · rw [drops]
      apply holds_withPool frames'.holds
      intro f member
      exact boot.isFrame (frames'.mem_initial member)
    · intro f fUsed
      rw [ordered'.mem_known bound', takes]
      exact (inv.ordered.mem_known bound).mp (stands.known fUsed)
  refine ⟨⟨state.memory.withPool pool', held', state.log⟩, _, ?_, ⟨ordered',
    ?_, ?_, ⟨used, rank, parent, stands'⟩, ?_⟩, ?_⟩
  · rw [MemoryState.step, ran']
    rfl
  · rw [← partition]
    ext f
    simp only [Finset.mem_union, List.mem_toFinset, List.mem_append]
    tauto
  · intro f member
    rcases List.mem_append.mp member with isTaken | free
    · exact notHeld f isTaken
    · exact (notFree f free).2
  · intro root isRoot virt
    rw [← inv.walks root isRoot virt]
    exact walk_of_extends stands.inv machine ext isRoot virt
  · intro f held _ notSubject
    rcases inv.held_isFrame held with ⟨isFrame, notNull, _, outside⟩
    exact same f isFrame notNull
      (fun free => outside (List.mem_of_mem_drop free)) notSubject

/-- A word of a frame which a client holds belongs to nothing else. -/
theorem store_shared
    (inv : SharedInv boot state order taken)
    {frame : Nat}
    (held : frame ∈ state.held)
    (i : Fin 512)
    (value : Nat) :
    ∃ next, state.step (.store frame i value) = some next ∧
      SharedInv boot next order taken ∧ Kept state next [frame] := by
  rcases inv.stands with ⟨used, rank, parent, stands⟩
  rcases inv.held_isFrame held with ⟨isFrame, _, notRoot, outside⟩
  have same : ∀ g, IsFrame g → g ≠ frame → ∀ j,
      table (state.memory.write (entryPtr frame i) value).mem g j =
        table state.memory.mem g j := by
    intro g gFrame other j
    rw [PhysicalMemory.write, physical_low isFrame,
      table_update isFrame gFrame, if_neg]
    exact fun equal => other (Prod.mk.inj equal).1
  have sameTables : ∀ g ∈ used, ∀ j,
      table (state.memory.write (entryPtr frame i) value).mem g j =
        table state.memory.mem g j := fun g gUsed =>
    same g (stands.isFrame gUsed)
      (stands.ne_of_outside notRoot outside gUsed).symm
  rcases machineInv_congr stands.inv sameTables with ⟨machine, ext⟩
  refine ⟨_, rfl, ⟨inv.ordered, inv.partition, inv.apart,
    ⟨used, rank, parent, stands.bound, ?_, machine⟩, ?_⟩, ?_⟩
  · refine holds_congr stands.free ?_ rfl rfl
    intro g free
    have listed := List.mem_of_mem_drop free
    apply marker_of_table
    apply same g (inv.ordered.frame g listed)
    rintro rfl
    exact outside listed
  · intro root isRoot virt
    rw [← inv.walks root isRoot virt]
    exact walk_of_extends stands.inv machine ext isRoot virt
  · intro g gHeld _ other
    exact same g (inv.held_isFrame gHeld).1
      (fun equal => other (List.mem_singleton.mpr equal))

/-- Every operation returns and keeps the uses of frames apart. -/
theorem step_shared
    (inv : SharedInv boot state order taken)
    {op : MemoryOp}
    (legal : op.legal boot state) :
    ∃ next order' taken', state.step op = some next ∧
      SharedInv boot next order' taken' ∧ Kept state next op.writes := by
  cases op with
  | map call =>
      rcases map_shared inv legal with ⟨next, taken', ran, inv', kept⟩
      exact ⟨next, order, taken', ran, inv', kept⟩
  | client op =>
      rcases client_shared inv legal with ⟨next, order', ran, inv', kept⟩
      exact ⟨next, order', taken, ran, inv', kept⟩
  | store frame i value =>
      rcases store_shared inv legal i value with ⟨next, ran, inv', kept⟩
      exact ⟨next, order, taken, ran, inv', kept⟩

end

/-! ## Whole runs -/

theorem shared_of_reachable
    {boot : Boot}
    {state : MemoryState}
    (reachable : (memorySystem boot).Reachable state) :
    ∃ order taken, SharedInv boot state order taken := by
  apply reachable.invariant
  · intro start initial
    rcases shared_init initial with ⟨order, inv⟩
    exact ⟨order, 0, inv⟩
  · rintro before op after ⟨order, taken, inv⟩ ⟨legal, ran⟩
    rcases step_shared inv legal with ⟨next, order', taken', ran', inv', _⟩
    have same : next = after := Option.some.inj (ran'.symm.trans ran)
    exact ⟨order', taken', same ▸ inv'⟩

def fourFrames : FrameSet :=
  ⟨{8192, 12288, 16384, 20480}, by decide, by decide, by decide, by decide⟩

theorem fourFrames_below : ∀ f ∈ fourFrames.frames, f < 2 ^ 47 := by
  decide

theorem fourFrames_not_root :
    ∀ f ∈ fourFrames.frames, f ∉ ({4096} : Set Nat) := by
  intro f member isRoot
  rw [Set.mem_singleton_iff.mp isRoot] at member
  revert member
  decide

theorem root_ne_null : ∀ root ∈ ({4096} : Set Nat), root ≠ 0 := by
  rintro root rfl
  decide

def oneRoot : Boot where
  roots := {4096}
  initial := fourFrames
  root_frame := root_isFrame
  root_ne_null := root_ne_null
  below := fourFrames_below
  not_root := fourFrames_not_root

def blankMemory : PhysicalMemory :=
  ⟨fun _ => 0, 0, 0⟩

def booted : MemoryState where
  memory := (fill [20480, 8192, 16384, 12288] blankMemory).getD blankMemory
  held := ∅
  log := []

/-- A client takes a frame, a page is mapped, and the client stores a word. -/
def clientOps : List MemoryOp :=
  [.client .allocOne, .map ⟨4096, 0x9000, 0x400000, 5⟩,
    .store 8192 (slotOf 0x1000) 0xffff]

def served : MemoryState :=
  (clientOps.foldlM MemoryState.step booted).getD booted

theorem booted_init : (memorySystem oneRoot).init booted := by
  refine ⟨rfl, rfl, fun _ => 0, [20480, 8192, 16384, 12288], by decide,
    by decide, fun _ _ _ => rfl, ?_⟩
  have filled : (fill [20480, 8192, 16384, 12288] blankMemory).isSome = true :=
    by decide +kernel
  rcases Option.isSome_iff_exists.mp filled with ⟨memory, isMemory⟩
  show fill [20480, 8192, 16384, 12288] blankMemory = some
    ((fill [20480, 8192, 16384, 12288] blankMemory).getD blankMemory)
  rw [isMemory]
  rfl

end ForsKernel.Memory.Shared
