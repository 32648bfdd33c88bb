import ForsKernel.Lib.RadixForest
import ForsKernel.Memory.Paging

/-!
# The page tables as a forest

Tables are page frames and entries are words.  `TableInv` says that the tables
reachable from all roots form a forest in which no inner entry maps a large
page and every entry grants at most what the entry above it grants, so that
the rights along a walk are those of its last entry.  The steps of
`map_page_4k` keep it, and only its last step changes a translation.
-/

namespace ForsKernel.Memory.Paging

open ForsKernel.Lib.RadixForest

/-! ## Bits of an entry -/

theorem hasFlag_two_pow (entry k : Nat) :
    HasFlag entry (1 <<< k) ↔ entry.testBit k = true := by
  rw [HasFlag, Nat.one_shiftLeft, Nat.and_two_pow]
  cases entry.testBit k <;> simp

theorem hasFlag_present (entry : Nat) :
    HasFlag entry psePresent ↔ entry.testBit 0 = true :=
  hasFlag_two_pow entry 0

theorem hasFlag_pagesize (entry : Nat) :
    HasFlag entry psePagesize ↔ entry.testBit 7 = true :=
  hasFlag_two_pow entry 7

theorem testBit_psePtr (val i : Nat) :
    (psePtr val).testBit i = (val.testBit i && decide (12 ≤ i ∧ i < 52)) := by
  have mask : 0x000ffffffffff000 = (2 ^ 40 - 1) <<< 12 := by decide
  rw [psePtr, mask, Nat.testBit_and, Nat.testBit_shiftLeft,
    Nat.testBit_two_pow_sub_one]
  congr 1
  simp only [Bool.decide_and, ge_iff_le]
  congr 1
  simp only [decide_eq_decide]
  omega

/-- A page aligned address of 52 bits is its own pointer field. -/
theorem psePtr_frame
    {frame : Nat}
    (aligned : archPageSize ∣ frame)
    (fits : frame < 2 ^ 52) :
    psePtr frame = frame := by
  apply Nat.eq_of_testBit_eq
  intro i
  rw [testBit_psePtr]
  by_cases low : i < 12
  · rcases aligned with ⟨quotient, rfl⟩
    have zero : (archPageSize * quotient).testBit i = false := by
      have size : archPageSize * quotient = quotient <<< 12 := by
        rw [Nat.shiftLeft_eq, Nat.mul_comm]
        rfl
      rw [size, Nat.testBit_shiftLeft]
      simp
      omega
    simp [zero]
  · by_cases high : i < 52
    · simp [high]
      omega
    · have zero : frame.testBit i = false :=
        Nat.testBit_lt_two_pow (fits.trans_le
          (Nat.pow_le_pow_right (by omega) (by omega)))
      simp [zero]

/-- Low bits do not reach the pointer field. -/
theorem psePtr_or
    (val : Nat)
    {flags : Nat}
    (low : flags < 2 ^ 12) :
    psePtr (val ||| flags) = psePtr val := by
  apply Nat.eq_of_testBit_eq
  intro i
  rw [testBit_psePtr, testBit_psePtr, Nat.testBit_or]
  by_cases inField : 12 ≤ i
  · have zero : flags.testBit i = false :=
      Nat.testBit_lt_two_pow (low.trans_le
        (Nat.pow_le_pow_right (by omega) inField))
    simp [zero]
  · simp [inField]

theorem psePtr_idem (val : Nat) : psePtr (psePtr val) = psePtr val := by
  apply Nat.eq_of_testBit_eq
  intro i
  rw [testBit_psePtr, testBit_psePtr, Bool.and_assoc, Bool.and_self]

/-! ## Frames and pointers to them -/

/-- A page frame the tables may lie in. -/
structure IsFrame (frame : Nat) : Prop where
  aligned : archPageSize ∣ frame
  below : frame < 2 ^ 47

theorem IsFrame.psePtr_eq
    {frame : Nat}
    (isFrame : IsFrame frame) :
    psePtr frame = frame :=
  psePtr_frame isFrame.aligned (by have := isFrame.below; omega)

/-- Entries of different tables, or at different indices, are apart. -/
theorem entryPtr_inj
    {frame frame' : Nat}
    (isFrame : IsFrame frame)
    (isFrame' : IsFrame frame')
    {i j : Fin 512} :
    entryPtr frame i = entryPtr frame' j ↔ frame = frame' ∧ i = j := by
  rcases isFrame.aligned with ⟨quotient, rfl⟩
  rcases isFrame'.aligned with ⟨quotient', rfl⟩
  rw [entryPtr, entryPtr, archPageSize, Fin.ext_iff]
  omega

/-- The direct map leads back to the entry of the table. -/
theorem physical_high
    {frame : Nat}
    (isFrame : IsFrame frame)
    (i : Fin 512) :
    Machine.physical (entryPtr (frame ||| hhMask) i) = entryPtr frame i := by
  have below := isFrame.below
  have high : hhMask = 2 ^ 47 * 131071 := by decide
  have sum : frame ||| hhMask = hhMask + frame := by
    rw [high, Nat.or_comm, Nat.two_pow_add_eq_or_of_lt below]
  rw [sum, Machine.physical, hhdmOffset, entryPtr, entryPtr, if_pos (by omega)]
  omega

theorem physical_low
    {frame : Nat}
    (isFrame : IsFrame frame)
    (i : Fin 512) :
    Machine.physical (entryPtr frame i) = entryPtr frame i := by
  have below := isFrame.below
  have aligned := isFrame.aligned
  rw [Machine.physical, hhdmOffset, hhMask, if_neg]
  rw [archPageSize] at aligned
  rw [entryPtr]
  omega

/-! ## Tables -/

/-- The entries of the table in a frame. -/
def table
    (mem : Nat → Nat)
    (frame : Nat)
    (i : Fin 512) :
    Nat :=
  mem (entryPtr frame i)

/-- The table an inner entry names. -/
def child (entry : Nat) : Option Nat :=
  if HasFlag entry psePresent then some (psePtr entry) else none

/-- An entry of a last level table, if it maps a page. -/
def leaf (entry : Nat) : Option Nat :=
  if HasFlag entry psePresent then some entry else none

/-- The upper entry allows whatever the lower one does. -/
def Grants (upper lower : Nat) : Prop :=
  (HasFlag lower pseWritable → HasFlag upper pseWritable) ∧
    (HasFlag lower pseUser → HasFlag upper pseUser)

/-- The flags callers may pass. -/
structure IsFlags (flags : Nat) : Prop where
  below : flags < 8
  present : HasFlag flags psePresent

theorem table_update
    {mem : Nat → Nat}
    {frame frame' : Nat}
    (isFrame : IsFrame frame)
    (isFrame' : IsFrame frame')
    (i j : Fin 512)
    (value : Nat) :
    table (Function.update mem (entryPtr frame i) value) frame' j =
      if (frame', j) = (frame, i) then value else table mem frame' j := by
  rw [table, Function.update_apply]
  simp only [entryPtr_inj isFrame' isFrame, Prod.mk.injEq]
  rfl

theorem child_none_iff {entry : Nat} :
    child entry = none ↔ ¬ HasFlag entry psePresent := by
  rw [child]
  split <;> simp_all

theorem child_some_iff {entry frame : Nat} :
    child entry = some frame ↔
      HasFlag entry psePresent ∧ psePtr entry = frame := by
  rw [child]
  split <;> simp_all

theorem hasFlag_or {entry flags k : Nat} :
    HasFlag (entry ||| flags) (1 <<< k) ↔
      HasFlag entry (1 <<< k) ∨ HasFlag flags (1 <<< k) := by
  rw [hasFlag_two_pow, hasFlag_two_pow, hasFlag_two_pow, Nat.testBit_or,
    Bool.or_eq_true]

theorem not_hasFlag_psePtr
    {val k : Nat}
    (low : k < 12) :
    ¬ HasFlag (psePtr val) (1 <<< k) := by
  rw [hasFlag_two_pow, testBit_psePtr]
  simp
  omega

/-- The flags of a new entry are those it was given. -/
theorem hasFlag_entry
    {ptr flags k : Nat}
    (low : k < 12) :
    HasFlag (psePtr ptr ||| flags) (1 <<< k) ↔ HasFlag flags (1 <<< k) := by
  rw [hasFlag_or]
  exact or_iff_right (not_hasFlag_psePtr low)

theorem not_hasFlag_zero (flag : Nat) : ¬ HasFlag 0 flag := by
  simp [HasFlag]

/-- Small flags leave the page size bit alone. -/
theorem IsFlags.not_pagesize
    {flags : Nat}
    (isFlags : IsFlags flags) :
    ¬ HasFlag flags psePagesize := by
  rw [hasFlag_pagesize, Nat.testBit_lt_two_pow]
  · simp
  · have below := isFlags.below
    omega

theorem IsFlags.not_pagesize_entry
    {flags : Nat}
    (isFlags : IsFlags flags)
    (ptr : Nat) :
    ¬ HasFlag (psePtr ptr ||| flags) psePagesize :=
  fun large => isFlags.not_pagesize ((hasFlag_entry (by omega)).mp large)

theorem IsFlags.or_present
    {flags : Nat}
    (isFlags : IsFlags flags) :
    flags ||| psePresent = flags := by
  apply Nat.eq_of_testBit_eq
  intro i
  have present := (hasFlag_present flags).mp isFlags.present
  rw [Nat.testBit_or]
  by_cases zero : i = 0
  · subst zero
    simp [present]
  · have one : psePresent = 2 ^ 0 := by decide
    rw [one, Nat.testBit_two_pow]
    simp
    omega

/-- The tables in use form a forest with rights that shrink downwards. -/
structure TableInv
    (mem : Nat → Nat)
    (used : Set Nat)
    (rank : Nat → Nat)
    (parent : Nat → Nat × Fin 512) :
    Prop where
  frame : ∀ f ∈ used, IsFrame f
  forest : Forest child (table mem) used rank parent
  small : ∀ f ∈ used, 0 < rank f → ∀ i,
    ¬ HasFlag (table mem f i) psePagesize
  contained : ∀ f ∈ used, 0 < rank f → ∀ i c,
    child (table mem f i) = some c → ∀ j,
      HasFlag (table mem c j) psePresent →
        Grants (table mem f i) (table mem c j)

/-- Whatever names the table already grants these flags. -/
def Granted
    (mem : Nat → Nat)
    (used : Set Nat)
    (rank : Nat → Nat)
    (f flags : Nat) :
    Prop :=
  ∀ g ∈ used, 0 < rank g → ∀ i, child (table mem g i) = some f →
    Grants (table mem g i) flags

/-- The forest grew, and every lookup still finds what it found. -/
structure Extends
    (mem : Nat → Nat)
    (used : Set Nat)
    (rank : Nat → Nat)
    (mem' : Nat → Nat)
    (used' : Set Nat)
    (rank' : Nat → Nat) :
    Prop where
  subset : used ⊆ used'
  rank_eq : ∀ f ∈ used, rank' f = rank f
  child_eq : ∀ f ∈ used, 0 < rank f → ∀ i c,
    child (table mem f i) = some c → child (table mem' f i) = some c
  find_eq : ∀ f ∈ used, ∀ path, path.length = rank f → ∀ j,
    find child leaf (table mem') f path j = find child leaf (table mem) f path j

namespace Extends

variable
  {mem mem₁ mem₂ : Nat → Nat}
  {used used₁ used₂ : Set Nat}
  {rank rank₁ rank₂ : Nat → Nat}

theorem refl
    (mem : Nat → Nat)
    (used : Set Nat)
    (rank : Nat → Nat) :
    Extends mem used rank mem used rank where
  subset := subset_rfl
  rank_eq _ _ := rfl
  child_eq _ _ _ _ _ edge := edge
  find_eq _ _ _ _ _ := rfl

theorem trans
    (first : Extends mem used rank mem₁ used₁ rank₁)
    (second : Extends mem₁ used₁ rank₁ mem₂ used₂ rank₂) :
    Extends mem used rank mem₂ used₂ rank₂ where
  subset := first.subset.trans second.subset
  rank_eq f member := by
    rw [second.rank_eq f (first.subset member), first.rank_eq f member]
  child_eq f member inner i c edge := by
    apply second.child_eq f (first.subset member)
    · rw [first.rank_eq f member]
      exact inner
    · exact first.child_eq f member inner i c edge
  find_eq f member path full j := by
    rw [second.find_eq f (first.subset member) path
      (full.trans (first.rank_eq f member).symm) j]
    exact first.find_eq f member path full j

end Extends

/-! ## The steps of `map_page_4k` -/

namespace TableInv

variable
  {mem : Nat → Nat}
  {used : Set Nat}
  {rank : Nat → Nat}
  {parent : Nat → Nat × Fin 512}
  {f flags : Nat}
  {i : Fin 512}

/-- An inner entry lies in no last level table and in no other table. -/
theorem child_ne
    (inv : TableInv mem used rank parent)
    {g c : Nat}
    {j : Fin 512}
    (member : g ∈ used)
    (inner : 0 < rank g)
    (edge : child (table mem g j) = some c) :
    c ≠ g := by
  have linked := inv.forest.linked g member inner j c edge
  rintro rfl
  omega

/-- Add flags to an inner entry which names a table. -/
theorem touch
    (inv : TableInv mem used rank parent)
    (member : f ∈ used)
    (inner : 0 < rank f)
    (isFlags : IsFlags flags)
    (present : HasFlag (table mem f i) psePresent)
    (granted : Granted mem used rank f flags) :
    TableInv (Function.update mem (entryPtr f i) (table mem f i ||| flags))
        used rank parent ∧
      Extends mem used rank
        (Function.update mem (entryPtr f i) (table mem f i ||| flags))
        used rank := by
  have below := isFlags.below
  have entry : ∀ g ∈ used, ∀ j,
      table (Function.update mem (entryPtr f i) (table mem f i ||| flags)) g j =
        if (g, j) = (f, i) then table mem f i ||| flags else table mem g j :=
    fun g gMember j =>
      table_update (inv.frame f member) (inv.frame g gMember) ..
  have same : ∀ g ∈ used, 0 < rank g → ∀ j,
      child (table (Function.update mem (entryPtr f i)
        (table mem f i ||| flags)) g j) = child (table mem g j) := by
    intro g gMember _ j
    rw [entry g gMember j]
    split
    · rename_i here
      rcases Prod.mk.inj here with ⟨rfl, rfl⟩
      have stays : HasFlag (table mem g j ||| flags) psePresent :=
        hasFlag_or.mpr (Or.inl present)
      rw [child, child, if_pos stays, if_pos present,
        psePtr_or _ (by omega)]
    · rfl
  have sameLeaf : ∀ g ∈ used, rank g = 0 → ∀ j,
      leaf (table (Function.update mem (entryPtr f i)
        (table mem f i ||| flags)) g j) = leaf (table mem g j) := by
    intro g gMember last j
    rw [entry g gMember j, if_neg]
    intro here
    rw [(Prod.mk.inj here).1] at last
    omega
  refine ⟨⟨inv.frame, inv.forest.congr same, ?_, ?_⟩, subset_rfl,
    fun _ _ => rfl, ?_, ?_⟩
  · intro g gMember gInner j
    rw [entry g gMember j]
    split
    · intro large
      rcases hasFlag_or.mp large with old | new
      · exact inv.small f member inner i old
      · exact isFlags.not_pagesize new
    · exact inv.small g gMember gInner j
  · intro g gMember gInner j c edge k live
    rw [same g gMember gInner j] at edge
    have linked := inv.forest.linked g gMember gInner j c edge
    rw [entry c linked.1 k] at live ⊢
    rw [entry g gMember j]
    by_cases lower : (c, k) = (f, i)
    · -- the touched entry as the lower one: the caller granted the flags
      rcases Prod.mk.inj lower with ⟨rfl, rfl⟩
      have apart : (g, j) ≠ (c, k) := by
        intro here
        exact inv.child_ne gMember gInner edge (Prod.mk.inj here).1.symm
      rw [if_pos rfl, if_neg apart]
      have old := inv.contained g gMember gInner j c edge k present
      have new := granted g gMember gInner j edge
      exact ⟨fun flag => (hasFlag_or.mp flag).elim old.1 new.1,
        fun flag => (hasFlag_or.mp flag).elim old.2 new.2⟩
    · rw [if_neg lower] at live ⊢
      have old := inv.contained g gMember gInner j c edge k live
      split
      · rename_i upper
        rcases Prod.mk.inj upper with ⟨rfl, rfl⟩
        exact ⟨fun flag => hasFlag_or.mpr (Or.inl (old.1 flag)),
          fun flag => hasFlag_or.mpr (Or.inl (old.2 flag))⟩
      · exact old
  · intro g gMember gInner j c edge
    rw [same g gMember gInner j]
    exact edge
  · intro g gMember path full j
    exact inv.forest.find_congr same sameLeaf gMember full j

/-- Link a fresh blank table into an empty inner entry. -/
theorem grow
    (inv : TableInv mem used rank parent)
    {mem' : Nat → Nat}
    {fresh : Nat}
    (member : f ∈ used)
    (inner : 0 < rank f)
    (isFlags : IsFlags flags)
    (absent : ¬ HasFlag (table mem f i) psePresent)
    (granted : Granted mem used rank f flags)
    (unused : fresh ∉ used)
    (isFrame : IsFrame fresh)
    (blank : ∀ j, table mem' fresh j = 0)
    (newEntry : table mem' f i = psePtr fresh ||| flags)
    (same : ∀ g ∈ used, ∀ j, (g, j) ≠ (f, i) → table mem' g j = table mem g j) :
    TableInv mem' (insert fresh used)
        (Function.update rank fresh (rank f - 1))
        (Function.update parent fresh (f, i)) ∧
      Extends mem used rank mem' (insert fresh used)
        (Function.update rank fresh (rank f - 1)) := by
  have below := isFlags.below
  have old : ∀ {g}, g ∈ used → g ≠ fresh := by
    rintro g gMember rfl
    exact unused gMember
  have newChild : child (table mem' f i) = some fresh := by
    rw [child_some_iff, newEntry, psePtr_or _ (by omega), psePtr_idem,
      isFrame.psePtr_eq]
    exact ⟨hasFlag_or.mpr (Or.inr isFlags.present), rfl⟩
  have noChild : ∀ j, child (table mem' fresh j) = none := by
    intro j
    rw [blank j, child_none_iff]
    exact not_hasFlag_zero _
  have sameChild : ∀ g ∈ used, ∀ j, (g, j) ≠ (f, i) →
      child (table mem' g j) = child (table mem g j) := by
    intro g gMember j apart
    rw [same g gMember j apart]
  have sameLeaf : ∀ g ∈ used, rank g = 0 → ∀ j,
      leaf (table mem' g j) = leaf (table mem g j) := by
    intro g gMember last j
    rw [same g gMember j]
    intro here
    rw [(Prod.mk.inj here).1] at last
    omega
  have noLeaf : ∀ j, leaf (table mem' fresh j) = none := by
    intro j
    rw [blank j, leaf, if_neg (not_hasFlag_zero _)]
  refine ⟨⟨?_, inv.forest.grow member inner unused newChild noChild sameChild,
    ?_, ?_⟩, Set.subset_insert _ _, ?_, ?_, ?_⟩
  · intro g gMember
    rcases Set.mem_insert_iff.mp gMember with rfl | gMember
    · exact isFrame
    · exact inv.frame g gMember
  · intro g gMember gInner j
    rcases Set.mem_insert_iff.mp gMember with rfl | gMember
    · rw [blank j]
      exact not_hasFlag_zero _
    · rw [Function.update_of_ne (old gMember)] at gInner
      by_cases here : (g, j) = (f, i)
      · rcases Prod.mk.inj here with ⟨rfl, rfl⟩
        rw [newEntry]
        exact isFlags.not_pagesize_entry fresh
      · rw [same g gMember j here]
        exact inv.small g gMember gInner j
  · intro g gMember gInner j c edge k live
    rcases Set.mem_insert_iff.mp gMember with rfl | gMember
    · rw [noChild j] at edge
      cases edge
    · rw [Function.update_of_ne (old gMember)] at gInner
      by_cases here : (g, j) = (f, i)
      · -- the fresh table has no live entry
        rcases Prod.mk.inj here with ⟨rfl, rfl⟩
        cases newChild.symm.trans edge
        rw [blank k] at live
        exact (not_hasFlag_zero _ live).elim
      · rw [sameChild g gMember j here] at edge
        have linked := inv.forest.linked g gMember gInner j c edge
        rw [same g gMember j here]
        by_cases lower : (c, k) = (f, i)
        · rcases Prod.mk.inj lower with ⟨rfl, rfl⟩
          rw [newEntry]
          have new := granted g gMember gInner j edge
          exact ⟨fun flag => new.1 ((hasFlag_entry (by omega)).mp flag),
            fun flag => new.2 ((hasFlag_entry (by omega)).mp flag)⟩
        · rw [same c linked.1 k lower] at live ⊢
          exact inv.contained g gMember gInner j c edge k live
  · intro g gMember
    exact Function.update_of_ne (old gMember) _ _
  · intro g gMember _ j c edge
    rw [sameChild g gMember j]
    · exact edge
    · rintro here
      rcases Prod.mk.inj here with ⟨rfl, rfl⟩
      exact absent (child_some_iff.mp edge).1
  · intro g gMember path full j
    exact inv.forest.find_grow (child_none_iff.mpr absent) newChild noChild
      noLeaf sameChild sameLeaf gMember full j

/-- Write a leaf. -/
theorem setLeaf
    (inv : TableInv mem used rank parent)
    {entry : Nat}
    (member : f ∈ used)
    (last : rank f = 0)
    (granted : Granted mem used rank f entry) :
    TableInv (Function.update mem (entryPtr f i) entry) used rank parent := by
  have written : ∀ g ∈ used, ∀ j,
      table (Function.update mem (entryPtr f i) entry) g j =
        if (g, j) = (f, i) then entry else table mem g j :=
    fun g gMember j =>
      table_update (inv.frame f member) (inv.frame g gMember) ..
  have inner : ∀ g ∈ used, 0 < rank g → ∀ j,
      table (Function.update mem (entryPtr f i) entry) g j =
        table mem g j := by
    intro g gMember gInner j
    rw [written g gMember j, if_neg]
    intro here
    rw [(Prod.mk.inj here).1] at gInner
    omega
  refine ⟨inv.frame, inv.forest.congr ?_, ?_, ?_⟩
  · intro g gMember gInner j
    rw [inner g gMember gInner j]
  · intro g gMember gInner j
    rw [inner g gMember gInner j]
    exact inv.small g gMember gInner j
  · intro g gMember gInner j c edge k live
    rw [inner g gMember gInner j] at edge ⊢
    have linked := inv.forest.linked g gMember gInner j c edge
    rw [written c linked.1 k] at live ⊢
    split at live
    · rename_i here
      rcases Prod.mk.inj here with ⟨rfl, rfl⟩
      rw [if_pos rfl]
      exact granted g gMember gInner j edge
    · rename_i apart
      rw [if_neg apart]
      exact inv.contained g gMember gInner j c edge k live

end TableInv

/-! ## One level of `map_page_4k` -/

/-- Writing through either pointer to an entry writes the entry. -/
theorem write_mem
    {state : Machine}
    {ptr f value : Nat}
    {i : Fin 512}
    (points : Machine.physical ptr = entryPtr f i) :
    (state.write ptr value).mem =
      Function.update state.mem (entryPtr f i) value := by
  rw [Machine.write, points]

theorem read_eq
    {state : Machine}
    {ptr f : Nat}
    {i : Fin 512}
    (points : Machine.physical ptr = entryPtr f i) :
    state.read ptr = table state.mem f i := by
  rw [Machine.read, points, table]

/-- The loop of `zero_paging_table` after `n` passes. -/
theorem zeroLoop_table
    (state : Machine)
    {fresh : Nat}
    (isFrame : IsFrame fresh)
    (n : Nat)
    (bound : n ≤ 512)
    {g : Nat}
    (gFrame : IsFrame g)
    (j : Fin 512) :
    table ((List.range n).foldl
      (fun state i => state.write (entryPtr fresh i) 0) state).mem g j =
      if g = fresh ∧ j.val < n then 0 else table state.mem g j := by
  induction n with
  | zero => simp
  | succ n induction =>
      have here := physical_low isFrame ⟨n, by omega⟩
      rw [List.range_succ, List.foldl_append, List.foldl_cons, List.foldl_nil,
        write_mem here, table_update isFrame gFrame, induction (by omega)]
      by_cases same : g = fresh
      · subst same
        by_cases last : j.val = n
        · simp [Fin.ext_iff, last]
        · have shift : j.val < n + 1 ↔ j.val < n := by omega
          simp [Fin.ext_iff, last, shift]
      · simp [same]

/-- `zero_paging_table` clears the table and nothing else. -/
theorem zeroPagingTable_table
    (state : Machine)
    {fresh g : Nat}
    (isFrame : IsFrame fresh)
    (gFrame : IsFrame g)
    (j : Fin 512) :
    table (zeroPagingTable state fresh).mem g j =
      if g = fresh then 0 else table state.mem g j := by
  have loop := zeroLoop_table state isFrame 512 le_rfl gFrame j
  simpa [zeroPagingTable] using loop

theorem zeroPagingTable_calls
    (state : Machine)
    (fresh : Nat) :
    (zeroPagingTable state fresh).calls = state.calls := by
  have loop : ∀ (indices : List Nat) (state : Machine),
      (indices.foldl (fun state i => state.write (entryPtr fresh i) 0)
        state).calls = state.calls := by
    intro indices
    induction indices with
    | nil => simp
    | cons i indices induction =>
        intro state
        rw [List.foldl_cons, induction]
        rfl
  exact loop _ state

/--
One upper level of `map_page_4k` adds the flags to an entry which names a
table, or links a blank table in the next frame, or there is no frame left.
-/
inductive EntryStep
    (frames : Nat → Nat)
    (state : Machine)
    (f : Nat)
    (i : Fin 512)
    (flags : Nat) :
    Bool × Machine → Prop where
  | touched {state' : Machine}
      (present : HasFlag (table state.mem f i) psePresent)
      (calls : state'.calls = state.calls)
      (mem : state'.mem = Function.update state.mem (entryPtr f i)
        (table state.mem f i ||| flags)) :
      EntryStep frames state f i flags (true, state')
  | nomem (absent : ¬ HasFlag (table state.mem f i) psePresent)
      (null : frames state.calls = 0) :
      EntryStep frames state f i flags
        (false, { state with calls := state.calls + 1 })
  | linked {state' : Machine}
      (absent : ¬ HasFlag (table state.mem f i) psePresent)
      (notNull : frames state.calls ≠ 0)
      (calls : state'.calls = state.calls + 1)
      (newEntry : table state'.mem f i = psePtr (frames state.calls) ||| flags)
      (others : ∀ g, IsFrame g → ∀ j, (g, j) ≠ (f, i) →
        table state'.mem g j =
          if g = frames state.calls then 0 else table state.mem g j) :
      EntryStep frames state f i flags (true, state')

theorem ensureTable_step
    {frames : Nat → Nat}
    {state : Machine}
    {f ptr flags : Nat}
    {i : Fin 512}
    (isFrame : IsFrame f)
    (points : Machine.physical ptr = entryPtr f i)
    (isFlags : IsFlags flags)
    (answer : frames state.calls ≠ 0 → IsFrame (frames state.calls)) :
    EntryStep frames state f i flags
      (ensureTable frames state ptr flags) := by
  by_cases present : HasFlag (table state.mem f i) psePresent
  · have marked : HasFlag (state.read ptr) psePresent := by
      rw [read_eq points]
      exact present
    simp only [ensureTable, not_true, marked, if_false, if_true]
    apply EntryStep.touched present
    · rfl
    · rw [write_mem points, read_eq points, isFlags.or_present]
  · rw [ensureTable, read_eq points, if_pos present]
    simp only [pfallocOne]
    by_cases null : frames state.calls = 0
    · simp only [null, if_true, Bool.false_eq_true, if_false]
      exact .nomem present null
    · simp only [null, if_false, if_true]
      generalize zeroedEq : zeroPagingTable
        { state with calls := state.calls + 1 } (frames state.calls) = zeroed
      have memEq : ((zeroed.write ptr (psePtr (frames state.calls))).write ptr
          ((zeroed.write ptr (psePtr (frames state.calls))).read ptr |||
            (flags ||| psePresent))).mem =
          Function.update zeroed.mem (entryPtr f i)
            (psePtr (frames state.calls) ||| flags) := by
        rw [write_mem points, read_eq points, write_mem points,
          table_update isFrame isFrame, if_pos rfl, isFlags.or_present,
          Function.update_idem]
      apply EntryStep.linked present null
      · show zeroed.calls = _
        rw [← zeroedEq, zeroPagingTable_calls]
      · rw [memEq, table_update isFrame isFrame, if_pos rfl]
      · intro g gFrame j apart
        rw [memEq, table_update isFrame gFrame, if_neg apart, ← zeroedEq,
          zeroPagingTable_table _ (answer null) gFrame]

/--
The roots of address spaces and the answers of `pfalloc_one` from the call
number `first` on: each of them is `NULL` or a frame which no table has been
put in.
-/
structure FrameSupply where
  roots : Set Nat
  frames : Nat → Nat
  first : Nat
  root_frame : ∀ root ∈ roots, IsFrame root
  answer_frame : ∀ k ≥ first, frames k ≠ 0 → IsFrame (frames k)
  answer_not_root : ∀ k ≥ first, frames k ≠ 0 → frames k ∉ roots
  answer_fresh : ∀ j ≥ first, ∀ k > j, frames k ≠ 0 → frames j ≠ frames k

namespace FrameSupply

/-- The frames which may hold a table after so many calls. -/
def known
    (supply : FrameSupply)
    (calls : Nat) :
    Set Nat :=
  { f | f ∈ supply.roots ∨
    ∃ k, supply.first ≤ k ∧ k < calls ∧ f = supply.frames k }

theorem known_mono
    (supply : FrameSupply)
    {calls calls' : Nat}
    (later : calls ≤ calls') :
    supply.known calls ⊆ supply.known calls' := by
  rintro f (root | ⟨k, started, below, equal⟩)
  · exact Or.inl root
  · exact Or.inr ⟨k, started, by omega, equal⟩

theorem next_not_known
    (supply : FrameSupply)
    {calls : Nat}
    (started : supply.first ≤ calls)
    (notNull : supply.frames calls ≠ 0) :
    supply.frames calls ∉ supply.known calls := by
  rintro (root | ⟨k, startedBefore, below, equal⟩)
  · exact supply.answer_not_root calls started notNull root
  · exact supply.answer_fresh k startedBefore calls below notNull equal.symm

end FrameSupply

/-- The tables of a machine, in the frames that are known. -/
structure MachineInv
    (supply : FrameSupply)
    (state : Machine)
    (used : Set Nat)
    (rank : Nat → Nat)
    (parent : Nat → Nat × Fin 512) :
    Prop where
  tables : TableInv state.mem used rank parent
  started : supply.first ≤ state.calls
  known : used ⊆ supply.known state.calls
  root_used : ∀ root ∈ supply.roots, root ∈ used
  root_rank : ∀ root ∈ supply.roots, rank root = 3
  rank_le : ∀ f ∈ used, rank f ≤ 3

section Ensure

variable
  {supply : FrameSupply}
  {state : Machine}
  {used : Set Nat}
  {rank : Nat → Nat}
  {parent : Nat → Nat × Fin 512}
  {f flags : Nat}
  {i : Fin 512}

/-- What one upper level of `map_page_4k` leaves when it goes on. -/
structure Ensured
    (supply : FrameSupply)
    (state : Machine)
    (used : Set Nat)
    (rank : Nat → Nat)
    (f : Nat)
    (i : Fin 512)
    (flags : Nat)
    (state' : Machine)
    (used' : Set Nat)
    (rank' : Nat → Nat)
    (parent' : Nat → Nat × Fin 512)
    (c : Nat) :
    Prop where
  inv : MachineInv supply state' used' rank' parent'
  ext : Extends state.mem used rank state'.mem used' rank'
  edge : child (table state'.mem f i) = some c
  granted : Granted state'.mem used' rank' c flags

/-- The only entry that names a table is the one of its parent. -/
theorem granted_of_edge
    {mem : Nat → Nat}
    {c : Nat}
    (inv : TableInv mem used rank parent)
    (member : f ∈ used)
    (inner : 0 < rank f)
    (edge : child (table mem f i) = some c)
    (grants : Grants (table mem f i) flags) :
    Granted mem used rank c flags := by
  intro g gMember gInner j gEdge
  have up := (inv.forest.linked f member inner i c edge).2.2
  have up' := (inv.forest.linked g gMember gInner j c gEdge).2.2
  rcases Prod.mk.inj (up.symm.trans up') with ⟨rfl, rfl⟩
  exact grants

theorem grants_or (entry flags : Nat) : Grants (entry ||| flags) flags :=
  ⟨fun flag => hasFlag_or.mpr (Or.inr flag),
    fun flag => hasFlag_or.mpr (Or.inr flag)⟩

/-- The entry already names a table. -/
theorem Ensured.of_touched
    (inv : MachineInv supply state used rank parent)
    (member : f ∈ used)
    (inner : 0 < rank f)
    (isFlags : IsFlags flags)
    (granted : Granted state.mem used rank f flags)
    {state' : Machine}
    (present : HasFlag (table state.mem f i) psePresent)
    (calls : state'.calls = state.calls)
    (mem : state'.mem = Function.update state.mem (entryPtr f i)
      (table state.mem f i ||| flags)) :
    ∃ c, Ensured supply state used rank f i flags state' used rank parent
      c := by
  have fFrame := inv.tables.frame f member
  rcases inv.tables.touch (i := i) member inner isFlags present granted with
    ⟨tables, ext⟩
  rw [← mem] at tables ext
  have entry : table state'.mem f i = table state.mem f i ||| flags := by
    rw [mem, table_update fFrame fFrame, if_pos rfl]
  have edge : child (table state'.mem f i) =
      some (psePtr (table state.mem f i)) :=
    ext.child_eq f member inner i _ (child_some_iff.mpr ⟨present, rfl⟩)
  refine ⟨_, ⟨tables, ?_, ?_, inv.root_used, inv.root_rank, inv.rank_le⟩,
    ext, edge, ?_⟩
  · rw [calls]
    exact inv.started
  · rw [calls]
    exact inv.known
  · apply granted_of_edge tables member inner edge
    rw [entry]
    exact grants_or _ _

/-- Beside the entry only the new table is written, and it is left blank. -/
theorem others_of_linked
    {mem mem' : Nat → Nat}
    {used : Set Nat}
    {f fresh : Nat}
    {i : Fin 512}
    (frame : ∀ g ∈ used, IsFrame g)
    (member : f ∈ used)
    (freshFrame : IsFrame fresh)
    (unused : fresh ∉ used)
    (others : ∀ g, IsFrame g → ∀ j, (g, j) ≠ (f, i) →
      table mem' g j = if g = fresh then 0 else table mem g j) :
    (∀ j, table mem' fresh j = 0) ∧
      ∀ g ∈ used, ∀ j, (g, j) ≠ (f, i) → table mem' g j = table mem g j := by
  constructor
  · intro j
    rw [others fresh freshFrame, if_pos rfl]
    intro here
    rw [(Prod.mk.inj here).1] at unused
    exact unused member
  · intro g gMember j apart
    rw [others g (frame g gMember) j apart, if_neg]
    rintro rfl
    exact unused gMember

/-- The entry is given a new table. -/
theorem Ensured.of_linked
    (inv : MachineInv supply state used rank parent)
    (member : f ∈ used)
    (inner : 0 < rank f)
    (isFlags : IsFlags flags)
    (granted : Granted state.mem used rank f flags)
    {state' : Machine}
    (absent : ¬ HasFlag (table state.mem f i) psePresent)
    (notNull : supply.frames state.calls ≠ 0)
    (calls : state'.calls = state.calls + 1)
    (newEntry : table state'.mem f i =
      psePtr (supply.frames state.calls) ||| flags)
    (others : ∀ g, IsFrame g → ∀ j, (g, j) ≠ (f, i) →
      table state'.mem g j =
        if g = supply.frames state.calls then 0 else table state.mem g j) :
    ∃ used' rank' parent' c,
      Ensured supply state used rank f i flags state' used' rank' parent'
        c := by
  have freshFrame := supply.answer_frame _ inv.started notNull
  have unused : supply.frames state.calls ∉ used := by
    intro isUsed
    exact supply.next_not_known inv.started notNull (inv.known isUsed)
  have known : supply.frames state.calls ∈ supply.known (state.calls + 1) :=
    Or.inr ⟨state.calls, inv.started, by omega, rfl⟩
  generalize supply.frames state.calls = fresh at *
  have notFresh : ∀ g ∈ used, g ≠ fresh := by
    rintro g gMember rfl
    exact unused gMember
  rcases others_of_linked inv.tables.frame member freshFrame unused
    others with ⟨blank, same⟩
  rcases inv.tables.grow member inner isFlags absent granted unused
    freshFrame blank newEntry same with ⟨tables, ext⟩
  have edge : child (table state'.mem f i) = some fresh := by
    have below := isFlags.below
    rw [newEntry, child_some_iff, psePtr_or _ (by omega), psePtr_idem,
      freshFrame.psePtr_eq]
    exact ⟨hasFlag_or.mpr (Or.inr isFlags.present), rfl⟩
  refine ⟨_, _, _, fresh, ⟨tables, ?_, ?_, ?_, ?_, ?_⟩, ext, edge, ?_⟩
  · have started := inv.started
    omega
  · intro g gMember
    rw [calls]
    rcases Set.mem_insert_iff.mp gMember with rfl | gMember
    · exact known
    · exact supply.known_mono (by omega) (inv.known gMember)
  · intro root isRoot
    exact Set.mem_insert_of_mem _ (inv.root_used root isRoot)
  · intro root isRoot
    rw [Function.update_of_ne (notFresh root (inv.root_used root isRoot))]
    exact inv.root_rank root isRoot
  · intro g gMember
    have bound := inv.rank_le f member
    rcases Set.mem_insert_iff.mp gMember with rfl | gMember
    · rw [Function.update_self]
      omega
    · rw [Function.update_of_ne (notFresh g gMember)]
      exact inv.rank_le g gMember
  · apply granted_of_edge tables (Set.mem_insert_of_mem _ member) _ edge
    · rw [newEntry]
      exact grants_or _ _
    · rw [Function.update_of_ne (notFresh f member)]
      exact inner

end Ensure

end ForsKernel.Memory.Paging
