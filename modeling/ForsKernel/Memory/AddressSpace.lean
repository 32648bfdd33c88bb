import ForsKernel.Lib.Transition
import ForsKernel.Memory.PagingTree

/-!
# `map_page_4k` refines a finite map

An address space is abstractly a map from virtual pages to frames with
rights.  A successful call of `map_page_4k` updates one page of one address
space, and a failed call updates nothing.  Whatever calls were made, the
four-level walk from every root finds what replaying the successful ones
gives.
-/

namespace ForsKernel.Memory.Paging

open ForsKernel.Lib.RadixForest
open ForsKernel.Lib.Transition

/-! ## Virtual pages -/

theorem index_lt (word : Nat) : word &&& 0x1ff < 512 :=
  Nat.lt_succ_of_le Nat.and_le_right

/-- The indices of the three upper levels. -/
def pathOf (virt : Nat) : List (Fin 512) :=
  [⟨pml4Index virt, index_lt _⟩, ⟨pml3Index virt, index_lt _⟩,
    ⟨pml2Index virt, index_lt _⟩]

/-- The index of the last level. -/
def slotOf (virt : Nat) : Fin 512 :=
  ⟨pml1Index virt, index_lt _⟩

/-- The number of the virtual page of a 48-bit address. -/
def pageOf (virt : Nat) : Nat :=
  virt / 2 ^ 12 % 2 ^ 36

/-- The four indices are the digits of the page number. -/
theorem path_eq_iff (virt virt' : Nat) :
    pathOf virt = pathOf virt' ∧ slotOf virt = slotOf virt' ↔
      pageOf virt = pageOf virt' := by
  have digit : ∀ word, word &&& 0x1ff = word % 2 ^ 9 := by
    intro word
    exact Nat.and_two_pow_sub_one_eq_mod word 9
  simp only [pathOf, slotOf, List.cons.injEq, Fin.mk.injEq, and_true,
    pml4Index, pml3Index, pml2Index, pml1Index, digit,
    Nat.shiftRight_eq_div_pow, pageOf]
  omega

/-! ## The walk -/

/-- What a last level entry stands for. -/
def translation (entry : Nat) : Translation :=
  .along (psePtr entry) [entry]

section Walk

variable
  {supply : FrameSupply}
  {state : Machine}
  {used : Set Nat}
  {rank : Nat → Nat}
  {parent : Nat → Nat × Fin 512}

/-- The rights along a chain are those of its end. -/
theorem along_chain
    {e4 e3 e2 e1 : Nat}
    (first : Grants e4 e3)
    (second : Grants e3 e2)
    (third : Grants e2 e1)
    (frame : Nat) :
    Translation.along frame [e4, e3, e2, e1] =
      Translation.along frame [e1] := by
  have writable : HasFlag e1 pseWritable →
      HasFlag e4 pseWritable ∧ HasFlag e3 pseWritable ∧
        HasFlag e2 pseWritable := by
    intro flag
    exact ⟨first.1 (second.1 (third.1 flag)), second.1 (third.1 flag),
      third.1 flag⟩
  have user : HasFlag e1 pseUser →
      HasFlag e4 pseUser ∧ HasFlag e3 pseUser ∧ HasFlag e2 pseUser := by
    intro flag
    exact ⟨first.2 (second.2 (third.2 flag)), second.2 (third.2 flag),
      third.2 flag⟩
  simp only [Translation.along, List.all_cons, List.all_nil, Bool.and_true,
    Translation.mk.injEq, true_and]
  constructor
  · by_cases flag : HasFlag e1 pseWritable
    · simp [flag, writable flag]
    · simp [flag]
  · by_cases flag : HasFlag e1 pseUser
    · simp [flag, user flag]
    · simp [flag]

/-- One level down: the entry read there, and what is known about it. -/
theorem TableInv.below
    {mem : Nat → Nat}
    (tables : TableInv mem used rank parent)
    {f : Nat}
    {i : Fin 512}
    (member : f ∈ used)
    (inner : 0 < rank f)
    (present : HasFlag (table mem f i) psePresent) :
    psePtr (table mem f i) ∈ used ∧
      rank (psePtr (table mem f i)) + 1 = rank f ∧
      ∀ j, HasFlag (table mem (psePtr (table mem f i)) j) psePresent →
        Grants (table mem f i) (table mem (psePtr (table mem f i)) j) := by
  have edge : child (table mem f i) = some (psePtr (table mem f i)) :=
    child_some_iff.mpr ⟨present, rfl⟩
  have linked := tables.forest.linked f member inner i _ edge
  exact ⟨linked.1, linked.2.1, tables.contained f member inner i _ edge⟩

/-- The hardware walk is a lookup in the forest. -/
theorem walk_eq
    (inv : MachineInv supply state used rank parent)
    {root : Nat}
    (isRoot : root ∈ supply.roots)
    (virt : Nat) :
    walk state.mem root virt =
      (find child leaf (table state.mem) root (pathOf virt) (slotOf virt)).map
        translation := by
  have tables := inv.tables
  have member4 := inv.root_used root isRoot
  have rank4 := inv.root_rank root isRoot
  generalize e4Eq : table state.mem root ⟨pml4Index virt, index_lt _⟩ = e4
  have read4 : state.mem (entryPtr root (pml4Index virt)) = e4 := e4Eq
  simp only [walk, find, pathOf, descend, read4, e4Eq]
  by_cases p4 : HasFlag e4 psePresent
  swap
  · rw [if_pos p4, child_none_iff.mpr p4]
    rfl
  rw [if_neg (not_not.mpr p4), child_some_iff.mpr ⟨p4, rfl⟩]
  rcases tables.below member4 (by omega) (e4Eq ▸ p4) with
    ⟨member3, rank3, grants4⟩
  rw [e4Eq] at member3 rank3 grants4
  generalize e3Eq :
    table state.mem (psePtr e4) ⟨pml3Index virt, index_lt _⟩ = e3
  have read3 : state.mem (entryPtr (psePtr e4) (pml3Index virt)) = e3 := e3Eq
  have small3 : ¬ HasFlag e3 psePagesize :=
    e3Eq ▸ tables.small _ member3 (by omega) _
  simp only [Option.bind_some, read3, e3Eq, if_neg small3]
  by_cases p3 : HasFlag e3 psePresent
  swap
  · rw [if_pos p3, child_none_iff.mpr p3]
    rfl
  rw [if_neg (not_not.mpr p3), child_some_iff.mpr ⟨p3, rfl⟩]
  rcases tables.below member3 (by omega) (e3Eq ▸ p3) with
    ⟨member2, rank2, grants3⟩
  rw [e3Eq] at member2 rank2 grants3
  generalize e2Eq :
    table state.mem (psePtr e3) ⟨pml2Index virt, index_lt _⟩ = e2
  have read2 : state.mem (entryPtr (psePtr e3) (pml2Index virt)) = e2 := e2Eq
  have small2 : ¬ HasFlag e2 psePagesize :=
    e2Eq ▸ tables.small _ member2 (by omega) _
  simp only [Option.bind_some, read2, e2Eq, if_neg small2]
  by_cases p2 : HasFlag e2 psePresent
  swap
  · rw [if_pos p2, child_none_iff.mpr p2]
    rfl
  rw [if_neg (not_not.mpr p2), child_some_iff.mpr ⟨p2, rfl⟩]
  rcases tables.below member2 (by omega) (e2Eq ▸ p2) with
    ⟨member1, rank1, grants2⟩
  rw [e2Eq] at member1 rank1 grants2
  generalize e1Eq : table state.mem (psePtr e2) (slotOf virt) = e1
  have read1 : state.mem (entryPtr (psePtr e2) (pml1Index virt)) = e1 := e1Eq
  simp only [Option.bind_some, read1, e1Eq]
  by_cases p1 : HasFlag e1 psePresent
  swap
  · rw [if_pos p1, leaf, if_neg p1]
    rfl
  rw [if_neg (not_not.mpr p1), leaf, if_pos p1, Option.map_some, translation,
    along_chain]
  · exact e3Eq ▸ grants4 _ (e3Eq ▸ p3)
  · exact e2Eq ▸ grants3 _ (e2Eq ▸ p2)
  · exact e1Eq ▸ grants2 _ (e1Eq ▸ p1)

end Walk

/-! ## One call -/

section Call

variable
  {supply : FrameSupply}
  {state : Machine}
  {used : Set Nat}
  {rank : Nat → Nat}
  {parent : Nat → Nat × Fin 512}
  {f ptr flags : Nat}
  {i : Fin 512}

/-- One upper level either finds no frame or goes on with a table. -/
theorem ensureTable_spec
    (inv : MachineInv supply state used rank parent)
    (member : f ∈ used)
    (inner : 0 < rank f)
    (points : Machine.physical ptr = entryPtr f i)
    (isFlags : IsFlags flags)
    (granted : Granted state.mem used rank f flags) :
    (∃ state', ensureTable supply.frames state ptr flags = (false, state') ∧
      state'.mem = state.mem ∧
      MachineInv supply state' used rank parent) ∨
    ∃ state' used' rank' parent' c,
      ensureTable supply.frames state ptr flags = (true, state') ∧
      Ensured supply state used rank f i flags state' used' rank' parent'
        c := by
  have step := ensureTable_step (inv.tables.frame f member) points isFlags
    (supply.answer_frame _ inv.started)
  generalize ensureTable supply.frames state ptr flags = result at step
  cases step with
  | touched present calls mem =>
      right
      rcases Ensured.of_touched inv member inner isFlags granted present calls
        mem with ⟨c, ensured⟩
      exact ⟨_, used, rank, parent, c, rfl, ensured⟩
  | nomem absent null =>
      left
      have started := inv.started
      refine ⟨_, rfl, rfl, inv.tables, Nat.le_succ_of_le started, ?_,
        inv.root_used, inv.root_rank, inv.rank_le⟩
      exact inv.known.trans (supply.known_mono (Nat.le_succ _))
  | linked absent notNull calls newEntry others =>
      right
      rcases Ensured.of_linked inv member inner isFlags granted absent notNull
        calls newEntry others with ⟨used', rank', parent', c, ensured⟩
      exact ⟨_, used', rank', parent', c, rfl, ensured⟩

/-- The table below, its rank, and where its pointer leads. -/
theorem Ensured.next
    {state' : Machine}
    {used' : Set Nat}
    {rank' : Nat → Nat}
    {parent' : Nat → Nat × Fin 512}
    {c : Nat}
    (ensured : Ensured supply state used rank f i flags state' used' rank'
      parent' c)
    (member : f ∈ used)
    (inner : 0 < rank f)
    (points : Machine.physical ptr = entryPtr f i) :
    c ∈ used' ∧ rank' c + 1 = rank f ∧
      ∀ j : Fin 512,
        Machine.physical (entryPtr (pseGetPtr (state'.read ptr)) j) =
          entryPtr c j := by
  have sameRank := ensured.ext.rank_eq f member
  have linked := ensured.inv.tables.forest.linked f
    (ensured.ext.subset member) (by omega) i c ensured.edge
  refine ⟨linked.1, by omega, ?_⟩
  intro j
  rw [read_eq points, pseGetPtr, (child_some_iff.mp ensured.edge).2]
  exact physical_high (ensured.inv.tables.frame c linked.1) j

/-- Lookups unchanged by an extension are walks unchanged. -/
theorem walk_of_extends
    {state' : Machine}
    {used' : Set Nat}
    {rank' : Nat → Nat}
    {parent' : Nat → Nat × Fin 512}
    (inv : MachineInv supply state used rank parent)
    (inv' : MachineInv supply state' used' rank' parent')
    (ext : Extends state.mem used rank state'.mem used' rank')
    {root : Nat}
    (isRoot : root ∈ supply.roots)
    (virt : Nat) :
    walk state'.mem root virt = walk state.mem root virt := by
  have full : (pathOf virt).length = rank root := by
    rw [inv.root_rank root isRoot]
    rfl
  rw [walk_eq inv' isRoot, walk_eq inv isRoot,
    ext.find_eq root (inv.root_used root isRoot) _ full]

/-- The effect of one call on every walk. -/
inductive Effect
    (supply : FrameSupply)
    (state : Machine)
    (root phys virt flags : Nat) :
    Int × Machine → Prop where
  | nomem {state' : Machine}
      (same : ∀ r ∈ supply.roots, ∀ virt',
        walk state'.mem r virt' = walk state.mem r virt') :
      Effect supply state root phys virt flags (eNomem, state')
  | mapped {state' : Machine}
      (update : ∀ r ∈ supply.roots, ∀ virt', walk state'.mem r virt' =
        if r = root ∧ pageOf virt' = pageOf virt then
          some (.along (psePtr phys) [flags])
        else
          walk state.mem r virt') :
      Effect supply state root phys virt flags (0, state')

/-- A call that stops short has only extended the forest. -/
theorem Effect.stopped
    {middle state' : Machine}
    {used' : Set Nat}
    {rank' : Nat → Nat}
    {parent' : Nat → Nat × Fin 512}
    (inv : MachineInv supply state used rank parent)
    (inv' : MachineInv supply middle used' rank' parent')
    (ext : Extends state.mem used rank middle.mem used' rank')
    (same : state'.mem = middle.mem)
    (root phys virt flags : Nat) :
    Effect supply state root phys virt flags (eNomem, state') := by
  apply Effect.nomem
  intro r rRoot virt'
  rw [same]
  exact walk_of_extends inv inv' ext rRoot virt'

/-- The upper levels do not show in the effect of the last. -/
theorem Effect.before
    {middle : Machine}
    {used' : Set Nat}
    {rank' : Nat → Nat}
    {parent' : Nat → Nat × Fin 512}
    {root phys virt flags : Nat}
    {result : Int × Machine}
    (inv : MachineInv supply state used rank parent)
    (inv' : MachineInv supply middle used' rank' parent')
    (ext : Extends state.mem used rank middle.mem used' rank')
    (effect : Effect supply middle root phys virt flags result) :
    Effect supply state root phys virt flags result := by
  cases effect with
  | nomem same =>
      apply Effect.nomem
      intro r rRoot virt'
      rw [same r rRoot virt']
      exact walk_of_extends inv inv' ext rRoot virt'
  | mapped update =>
      apply Effect.mapped
      intro r rRoot virt'
      rw [update r rRoot virt', walk_of_extends inv inv' ext rRoot virt']

theorem leaf_entry
    (phys : Nat)
    (isFlags : IsFlags flags) :
    leaf (psePtr phys ||| flags) = some (psePtr phys ||| flags) := by
  have present : HasFlag (psePtr phys ||| flags) psePresent :=
    (hasFlag_entry (by omega)).mpr isFlags.present
  rw [leaf, if_pos present]

theorem translation_entry
    (phys : Nat)
    (isFlags : IsFlags flags) :
    translation (psePtr phys ||| flags) = .along (psePtr phys) [flags] := by
  have below := isFlags.below
  have frame : psePtr (psePtr phys ||| flags) = psePtr phys := by
    rw [psePtr_or _ (by omega), psePtr_idem]
  rw [translation, frame]
  simp only [Translation.along, List.all_cons, List.all_nil, Bool.and_true,
    Translation.mk.injEq, true_and, decide_eq_decide]
  exact ⟨hasFlag_entry (by omega), hasFlag_entry (by omega)⟩

/-- The last step of a call writes one leaf. -/
theorem write_leaf
    (inv : MachineInv supply state used rank parent)
    {root phys virt t1 : Nat}
    (isRoot : root ∈ supply.roots)
    (reached : descend child (table state.mem) root (pathOf virt) = some t1)
    (points : Machine.physical ptr = entryPtr t1 (slotOf virt))
    (isFlags : IsFlags flags)
    (granted : Granted state.mem used rank t1 flags) :
    MachineInv supply (state.write ptr (psePtr phys ||| flags)) used rank
        parent ∧
      Effect supply state root phys virt flags
        (0, state.write ptr (psePtr phys ||| flags)) := by
  have rootUsed := inv.root_used root isRoot
  have rootRank := inv.root_rank root isRoot
  have full : (pathOf virt).length = rank root := by
    rw [rootRank]
    rfl
  have inside := inv.tables.forest.descend_used rootUsed full.le reached
  have memEq : (state.write ptr (psePtr phys ||| flags)).mem =
      Function.update state.mem (entryPtr t1 (slotOf virt))
        (psePtr phys ||| flags) :=
    write_mem points
  have granted' : Granted state.mem used rank t1 (psePtr phys ||| flags) := by
    intro g gMember gInner j edge
    have grants := granted g gMember gInner j edge
    exact ⟨fun flag => grants.1 ((hasFlag_entry (by omega)).mp flag),
      fun flag => grants.2 ((hasFlag_entry (by omega)).mp flag)⟩
  have inv' : MachineInv supply (state.write ptr (psePtr phys ||| flags)) used
      rank parent := by
    refine ⟨?_, inv.started, inv.known, inv.root_used, inv.root_rank,
      inv.rank_le⟩
    rw [memEq]
    exact inv.tables.setLeaf inside.1 (by omega) granted'
  refine ⟨inv', .mapped ?_⟩
  intro r rRoot virt'
  have t1Frame := inv.tables.frame t1 inside.1
  have elsewhere : ∀ g ∈ used, ∀ j, (g, j) ≠ (t1, slotOf virt) →
      table (Function.update state.mem (entryPtr t1 (slotOf virt))
        (psePtr phys ||| flags)) g j = table state.mem g j := by
    intro g gMember j apart
    rw [table_update t1Frame (inv.tables.frame g gMember), if_neg apart]
  rw [walk_eq inv' rRoot, walk_eq inv rRoot, memEq,
    inv.tables.forest.find_set rootUsed full reached elsewhere
      (inv.root_used r rRoot)
      ((inv.root_rank r rRoot).trans rootRank.symm)
      (by rw [← full]; rfl),
    table_update t1Frame t1Frame, if_pos rfl, leaf_entry phys isFlags]
  have target : (r, pathOf virt', slotOf virt') =
      (root, pathOf virt, slotOf virt) ↔
      r = root ∧ pageOf virt' = pageOf virt := by
    rw [Prod.mk.injEq, Prod.mk.injEq, path_eq_iff]
  by_cases here : r = root ∧ pageOf virt' = pageOf virt
  · rw [if_pos (target.mpr here), if_pos here, Option.map_some,
      translation_entry phys isFlags]
  · rw [if_neg (fun equal => here (target.mp equal)), if_neg here]

/-- No entry names a root. -/
theorem granted_root
    (inv : MachineInv supply state used rank parent)
    {root : Nat}
    (isRoot : root ∈ supply.roots)
    (flags : Nat) :
    Granted state.mem used rank root flags := by
  intro g gMember gInner j edge
  have linked := inv.tables.forest.linked g gMember gInner j root edge
  have top := inv.root_rank root isRoot
  have bound := inv.rank_le g gMember
  omega

/-- One call keeps the tables and has one of two effects. -/
theorem mapPage4k_spec
    (inv : MachineInv supply state used rank parent)
    {root pml4Table : Nat}
    (isRoot : root ∈ supply.roots)
    (points : ∀ i : Fin 512,
      Machine.physical (entryPtr pml4Table i) = entryPtr root i)
    (isFlags : IsFlags flags)
    (phys virt : Nat) :
    (∃ used' rank' parent', MachineInv supply
      (mapPage4k supply.frames state pml4Table phys virt flags).2
        used' rank' parent') ∧
      Effect supply state root phys virt flags
        (mapPage4k supply.frames state pml4Table phys virt flags) := by
  have member4 := inv.root_used root isRoot
  have rank4 := inv.root_rank root isRoot
  have point4 := points ⟨pml4Index virt, index_lt _⟩
  rw [mapPage4k]
  rcases ensureTable_spec inv member4 (by omega) point4 isFlags
      (granted_root inv isRoot flags) with
    ⟨s4, r4, mem4, inv4⟩ | ⟨s4, used4, rank4', parent4, t3, r4, ens4⟩
  · simp only [r4, Bool.false_eq_true, not_false_eq_true, if_true]
    exact ⟨⟨used, rank, parent, inv4⟩,
      .stopped inv inv (.refl _ _ _) mem4 _ _ _ _⟩
  rcases ens4.next member4 (by omega) point4 with ⟨member3, rank3, points3⟩
  have point3 := points3 ⟨pml3Index virt, index_lt _⟩
  have small3 := ens4.inv.tables.small t3 member3 (by omega)
    ⟨pml3Index virt, index_lt _⟩
  rw [← read_eq point3] at small3
  simp only [r4, not_true, if_false, if_neg small3]
  rcases ensureTable_spec ens4.inv member3 (by omega) point3 isFlags
      ens4.granted with
    ⟨s3, r3, mem3, inv3⟩ | ⟨s3, used3, rank3', parent3, t2, r3, ens3⟩
  · simp only [r3, Bool.false_eq_true, not_false_eq_true, if_true]
    exact ⟨⟨_, _, _, inv3⟩, .stopped inv ens4.inv ens4.ext mem3 _ _ _ _⟩
  rcases ens3.next member3 (by omega) point3 with ⟨member2, rank2, points2⟩
  have point2 := points2 ⟨pml2Index virt, index_lt _⟩
  have small2 := ens3.inv.tables.small t2 member2 (by omega)
    ⟨pml2Index virt, index_lt _⟩
  rw [← read_eq point2] at small2
  have ext3 := ens4.ext.trans ens3.ext
  simp only [r3, not_true, if_false, if_neg small2]
  rcases ensureTable_spec ens3.inv member2 (by omega) point2 isFlags
      ens3.granted with
    ⟨s2, r2, mem2, inv2⟩ | ⟨s2, used2, rank2', parent2, t1, r2, ens2⟩
  · simp only [r2, Bool.false_eq_true, not_false_eq_true, if_true]
    exact ⟨⟨_, _, _, inv2⟩, .stopped inv ens3.inv ext3 mem2 _ _ _ _⟩
  rcases ens2.next member2 (by omega) point2 with ⟨member1, rank1, points1⟩
  have ext2 := ext3.trans ens2.ext
  simp only [r2, not_true, if_false]
  have reached : descend child (table s2.mem) root (pathOf virt) = some t1 := by
    have edge3 := ens2.ext.child_eq t3 (ens3.ext.subset member3)
      (by rw [ens3.ext.rank_eq t3 member3]; omega) _ _ ens3.edge
    have edge4 := (ens3.ext.trans ens2.ext).child_eq root
      (ens4.ext.subset member4)
      (by rw [ens4.ext.rank_eq root member4]; omega) _ _ ens4.edge
    simp only [pathOf, descend, edge4, edge3, ens2.edge, Option.bind_some]
  rcases write_leaf ens2.inv isRoot reached (points1 (slotOf virt)) isFlags
      ens2.granted with ⟨invLast, effect⟩
  exact ⟨⟨_, _, _, invLast⟩, effect.before inv ens2.inv ext2⟩

end Call

/-! ## Sequences of calls -/

/-- The arguments of `map_page_4k`. -/
structure MapCall where
  pml4Table : Nat
  phys : Nat
  virt : Nat
  flags : Nat

/-- Virtual pages of all address spaces and what they are mapped to. -/
abbrev AddressSpaces : Type := Nat → Nat → Option Translation

/-- A single page update of the address space with this root. -/
def AddressSpaces.map
    (spaces : AddressSpaces)
    (call : MapCall) :
    AddressSpaces :=
  fun root page =>
    if root = Machine.physical call.pml4Table ∧ page = pageOf call.virt then
      some (.along call.phys [call.flags])
    else
      spaces root page

/-- Replay the calls that returned zero. -/
def replay (log : List (MapCall × Int)) : AddressSpaces :=
  log.foldl
    (fun spaces done => if done.2 = 0 then spaces.map done.1 else spaces)
    (fun _ _ => none)

/-- The machine and the calls made on it with their results. -/
structure PagingState where
  machine : Machine
  log : List (MapCall × Int)

/-- The call is given a root, a page frame and ordinary flags. -/
structure MapCall.Legal
    (supply : FrameSupply)
    (call : MapCall) :
    Prop where
  root : Machine.physical call.pml4Table ∈ supply.roots
  aligned : archPageSize ∣ call.phys
  fits : call.phys < 2 ^ 52
  flags : IsFlags call.flags

/-- Perform a call and log it. -/
def PagingState.call
    (supply : FrameSupply)
    (state : PagingState)
    (call : MapCall) :
    PagingState :=
  let result := mapPage4k supply.frames state.machine call.pml4Table call.phys
    call.virt call.flags
  ⟨result.2, state.log ++ [(call, result.1)]⟩

/-- Address spaces which start out with zeroed roots. -/
def pagingSystem (supply : FrameSupply) : System PagingState MapCall where
  init state :=
    (∀ root ∈ supply.roots, ∀ i, table state.machine.mem root i = 0) ∧
    state.machine.calls = supply.first ∧ state.log = []
  legal _ call := call.Legal supply
  step state call := some (state.call supply call)

/-- The tables are in order and show what the log says. -/
def Refines
    (supply : FrameSupply)
    (state : PagingState) :
    Prop :=
  (∃ used rank parent, MachineInv supply state.machine used rank parent) ∧
    ∀ root ∈ supply.roots, ∀ virt,
      walk state.machine.mem root virt = replay state.log root (pageOf virt)

/-- A table given by either of its two addresses. -/
theorem points_table
    {pml4Table : Nat}
    (isFrame : IsFrame (Machine.physical pml4Table))
    (i : Fin 512) :
    Machine.physical (entryPtr pml4Table i) =
      entryPtr (Machine.physical pml4Table) i := by
  by_cases high : hhdmOffset ≤ pml4Table
  · rw [Machine.physical, Machine.physical, if_pos high, entryPtr, entryPtr,
      if_pos (by omega)]
    omega
  · have same : Machine.physical pml4Table = pml4Table := if_neg high
    rw [same] at isFrame ⊢
    exact physical_low isFrame i

theorem points_root
    {supply : FrameSupply}
    {pml4Table : Nat}
    (isRoot : Machine.physical pml4Table ∈ supply.roots)
    (i : Fin 512) :
    Machine.physical (entryPtr pml4Table i) =
      entryPtr (Machine.physical pml4Table) i :=
  points_table (supply.root_frame _ isRoot) i

theorem replay_concat
    (log : List (MapCall × Int))
    (call : MapCall)
    (ret : Int) :
    replay (log ++ [(call, ret)]) =
      if ret = 0 then (replay log).map call else replay log := by
  rw [replay, List.foldl_append]
  rfl

/-- Zeroed roots map nothing. -/
theorem initial_refines
    {supply : FrameSupply}
    {state : PagingState}
    (initial : (pagingSystem supply).init state) :
    Refines supply state := by
  rcases initial with ⟨zeroed, calls, log⟩
  have blank : ∀ root ∈ supply.roots, ∀ i,
      child (table state.machine.mem root i) = none := by
    intro root isRoot i
    rw [zeroed root isRoot i, child_none_iff]
    exact not_hasFlag_zero _
  have inv : MachineInv supply state.machine supply.roots (fun _ => 3)
      (fun _ => (0, 0)) := by
    refine ⟨⟨supply.root_frame, ⟨?_⟩, ?_, ?_⟩, calls.ge, ?_,
      fun _ isRoot => isRoot, fun _ _ => rfl, fun _ _ => le_rfl⟩
    · intro root isRoot _ i next edge
      rw [blank root isRoot i] at edge
      cases edge
    · intro root isRoot _ i
      rw [zeroed root isRoot i]
      exact not_hasFlag_zero _
    · intro root isRoot _ i c edge
      rw [blank root isRoot i] at edge
      cases edge
    · intro root isRoot
      exact Or.inl isRoot
  refine ⟨⟨_, _, _, inv⟩, ?_⟩
  intro root isRoot virt
  rw [walk_eq inv isRoot, find, pathOf, descend, blank root isRoot, log]
  rfl

/-- One call updates the map or leaves it alone. -/
theorem call_refines
    {supply : FrameSupply}
    {state : PagingState}
    {call : MapCall}
    (refines : Refines supply state)
    (legal : call.Legal supply) :
    Refines supply (state.call supply call) := by
  rcases refines with ⟨⟨used, rank, parent, inv⟩, same⟩
  rcases mapPage4k_spec inv legal.root (points_root legal.root) legal.flags
    call.phys call.virt with ⟨inv', effect⟩
  refine ⟨inv', ?_⟩
  intro root isRoot virt
  rw [PagingState.call, replay_concat]
  generalize mapPage4k supply.frames state.machine call.pml4Table call.phys
    call.virt call.flags = result at effect
  cases effect with
  | nomem unchanged =>
      rw [if_neg (show eNomem ≠ 0 by decide), unchanged root isRoot virt]
      exact same root isRoot virt
  | mapped update =>
      rw [if_pos rfl, update root isRoot virt, AddressSpaces.map,
        same root isRoot virt, psePtr_frame legal.aligned legal.fits]

/--
`map_page_4k` refines a finite map per address space.  After any sequence of
calls every walk finds what replaying the successful calls gives.  The next
call returns zero or `ENOMEM`; it changes no other page and no other address
space, and in the second case no page at all.
-/
theorem map_page_4k_refines
    (supply : FrameSupply)
    {state : PagingState}
    (reachable : (pagingSystem supply).Reachable state) :
    (∀ root ∈ supply.roots, ∀ virt,
      walk state.machine.mem root virt = replay state.log root (pageOf virt)) ∧
    ∀ call : MapCall, call.Legal supply →
      ∃ machine ret,
        mapPage4k supply.frames state.machine call.pml4Table call.phys
          call.virt call.flags = (ret, machine) ∧
        (ret = 0 ∨ ret = eNomem) ∧
        (ret = 0 → walk machine.mem (Machine.physical call.pml4Table)
          call.virt = some (.along call.phys [call.flags])) ∧
        ∀ root ∈ supply.roots, ∀ virt,
          ret ≠ 0 ∨ root ≠ Machine.physical call.pml4Table ∨
            pageOf virt ≠ pageOf call.virt →
          walk machine.mem root virt = walk state.machine.mem root virt := by
  have refines : Refines supply state := by
    apply reachable.invariant
    · intro start initial
      exact initial_refines initial
    · rintro before call after refines ⟨legal, stepped⟩
      cases stepped
      exact call_refines refines legal
  refine ⟨refines.2, ?_⟩
  rintro call legal
  rcases refines.1 with ⟨used, rank, parent, inv⟩
  have effect := (mapPage4k_spec inv legal.root (points_root legal.root)
    legal.flags call.phys call.virt).2
  generalize mapPage4k supply.frames state.machine call.pml4Table call.phys
    call.virt call.flags = result at effect ⊢
  cases effect with
  | nomem unchanged =>
      refine ⟨_, _, rfl, Or.inr rfl, ?_, ?_⟩
      · intro isZero
        exact absurd isZero (by decide)
      · intro root isRoot virt _
        exact unchanged root isRoot virt
  | mapped update =>
      refine ⟨_, _, rfl, Or.inl rfl, ?_, ?_⟩
      · intro _
        rw [update _ legal.root call.virt, if_pos ⟨rfl, rfl⟩,
          psePtr_frame legal.aligned legal.fits]
      · intro root isRoot virt elsewhere
        rw [update root isRoot virt, if_neg]
        rintro ⟨sameRoot, samePage⟩
        rcases elsewhere with notZero | otherRoot | otherPage
        · exact notZero rfl
        · exact otherRoot sameRoot
        · exact otherPage samePage

/-- Three frames, and then none. -/
def threeFrames (k : Nat) : Nat :=
  if k < 3 then 8192 + 4096 * k else 0

theorem threeFrames_eq
    {k : Nat}
    (notNull : threeFrames k ≠ 0) :
    k < 3 ∧ threeFrames k = 8192 + 4096 * k := by
  by_cases few : k < 3
  · exact ⟨few, if_pos few⟩
  · exact (notNull (if_neg few)).elim

theorem root_isFrame : ∀ root ∈ ({4096} : Set Nat), IsFrame root := by
  rintro root rfl
  exact ⟨by decide, by decide⟩

theorem threeFrames_isFrame :
    ∀ k ≥ 0, threeFrames k ≠ 0 → IsFrame (threeFrames k) := by
  intro k _ notNull
  rcases threeFrames_eq notNull with ⟨few, frame⟩
  rw [frame]
  exact ⟨⟨2 + k, by rw [archPageSize]; omega⟩, by omega⟩

theorem threeFrames_not_root :
    ∀ k ≥ 0, threeFrames k ≠ 0 → threeFrames k ∉ ({4096} : Set Nat) := by
  intro k _ notNull isRoot
  rcases threeFrames_eq notNull with ⟨_, frame⟩
  rw [Set.mem_singleton_iff, frame] at isRoot
  omega

theorem threeFrames_fresh :
    ∀ j ≥ 0, ∀ k > j, threeFrames k ≠ 0 → threeFrames j ≠ threeFrames k := by
  intro j _ k before notNull
  rcases threeFrames_eq notNull with ⟨few, frame⟩
  rw [frame, threeFrames, if_pos (before.trans few)]
  omega

/-- One root and three frames for the tables below it. -/
def threeTables : FrameSupply where
  roots := {4096}
  frames := threeFrames
  first := 0
  root_frame := root_isFrame
  answer_frame := threeFrames_isFrame
  answer_not_root := threeFrames_not_root
  answer_fresh := threeFrames_fresh

/-- A read-only user page, and one which needs a fourth table. -/
def twoCalls : List MapCall :=
  [⟨4096, 0x5000, 0x400000, 5⟩, ⟨4096, 0x6000, 0x40000000, 3⟩]

def twoCallsState : PagingState :=
  twoCalls.foldl (PagingState.call threeTables) ⟨⟨fun _ => 0, 0⟩, []⟩

theorem map_page_4k_refines_twoCalls :
    (pagingSystem threeTables).Reachable twoCallsState ∧
      twoCallsState.log.map Prod.snd = [0, eNomem] ∧
      walk twoCallsState.machine.mem 4096 0x400123 =
        some ⟨0x5000, false, true⟩ ∧
      walk twoCallsState.machine.mem 4096 0x40000000 = none := by
  have reachable : (pagingSystem threeTables).Reachable twoCallsState := by
    have start : (pagingSystem threeTables).Reachable
        ⟨⟨fun _ => 0, 0⟩, []⟩ :=
      .start ⟨fun _ _ _ => rfl, rfl, rfl⟩
    have legal : ∀ call ∈ twoCalls, call.Legal threeTables := by
      intro call member
      simp only [twoCalls, List.mem_cons, List.not_mem_nil, or_false] at member
      rcases member with rfl | rfl
      · exact ⟨rfl, by decide, by decide, by decide, by decide⟩
      · exact ⟨rfl, by decide, by decide, by decide, by decide⟩
    have first := start.next
      ⟨legal ⟨4096, 0x5000, 0x400000, 5⟩ (by simp [twoCalls]), rfl⟩
    exact first.next
      ⟨legal ⟨4096, 0x6000, 0x40000000, 3⟩ (by simp [twoCalls]), rfl⟩
  have results : twoCallsState.log.map Prod.snd = [0, eNomem] := by
    decide +kernel
  have refines := (map_page_4k_refines threeTables reachable).1 4096 rfl
  refine ⟨reachable, results, ?_, ?_⟩
  · rw [refines]
    decide +kernel
  · rw [refines]
    decide +kernel

end ForsKernel.Memory.Paging
