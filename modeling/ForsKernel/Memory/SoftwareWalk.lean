import Mathlib.Data.Nat.Bitwise
import ForsKernel.Memory.Paging

/-!
# The walk of `map_lookup` over any tree of tables

A tree of page tables has pages of three sizes, each at an address which is a
multiple of its size.  `map_lookup` finds the page of every address, but keeps
its address in an `unsigned int`, so only pages below 4 GiB are translated
exactly.
-/

namespace ForsKernel.Memory.Paging

/-! ## Trees of page tables -/

/-- The size of a page mapped by an entry of this level. -/
def pageSize (level : Nat) : Nat :=
  2 ^ (12 + 9 * level)

/--
An entry of a table: level zero is that of page tables, level three that of
the root, where no pages are mapped.
-/
inductive PageEntry : Nat → Type
  | absent {level : Nat} : PageEntry level
  | page {level : Nat} (base : Nat) (aligned : pageSize level ∣ base)
      (below : base < 2 ^ 52) (inner : level < 3) : PageEntry level
  | table {level : Nat} (entries : Fin 512 → PageEntry level) :
      PageEntry (level + 1)

/-- The index of an address in a table of this level. -/
def indexAt (virt level : Nat) : Fin 512 :=
  ⟨virt / pageSize level % 512, Nat.mod_lt _ (by decide)⟩

/-- A page: its address and its level. -/
structure FoundPage where
  base : Nat
  level : Nat
deriving DecidableEq, Repr

/-- The page of an address below an entry. -/
def PageEntry.find (virt : Nat) :
    {level : Nat} → PageEntry level → Option FoundPage
  | _, .absent => none
  | level, .page base _ _ _ => some ⟨base, level⟩
  | level + 1, .table entries => (entries (indexAt virt level)).find virt

/--
A word in memory is this entry, and the tables below are stored where its
address points to in the direct map.
-/
def PageEntry.StoredAs (state : Machine) :
    {level : Nat} → PageEntry level → Nat → Prop
  | _, .absent, word => ¬ HasFlag word psePresent
  | level, .page base _ _ _, word =>
      HasFlag word psePresent ∧ (level ≠ 0 → HasFlag word psePagesize) ∧
        psePtr word = base
  | level + 1, .table entries, word =>
      HasFlag word psePresent ∧ (level ≠ 2 → ¬ HasFlag word psePagesize) ∧
        ∀ i : Fin 512, (entries i).StoredAs state
          (state.read (entryPtr ((hhdmOffset + psePtr word) % 2 ^ 64) i))

/-- An absent entry is a word without the present bit. -/
theorem PageEntry.not_present
    {state : Machine}
    {level word : Nat}
    (stored : (@PageEntry.absent level).StoredAs state word) :
    ¬ HasFlag word psePresent :=
  stored

/-- A root table. -/
abbrev PageTree : Type :=
  Fin 512 → PageEntry 3

/-- The page an address is in. -/
def PageTree.find
    (tree : PageTree)
    (virt : Nat) :
    Option FoundPage :=
  (tree (indexAt virt 3)).find virt

/-- The tree is stored from this pointer on. -/
def PageTree.StoredAt
    (tree : PageTree)
    (state : Machine)
    (pml4Table : Nat) :
    Prop :=
  ∀ i : Fin 512, (tree i).StoredAs state (state.read (entryPtr pml4Table i))

/-! ## The walk -/

theorem index_eq (virt level : Nat) :
    (virt >>> (12 + 9 * level)) &&& 0x1ff = indexAt virt level := by
  rw [Nat.shiftRight_eq_div_pow]
  exact Nat.and_two_pow_sub_one_eq_mod _ 9

theorem pml4Index_eq (virt : Nat) : pml4Index virt = indexAt virt 3 :=
  index_eq virt 3

theorem pml3Index_eq (virt : Nat) : pml3Index virt = indexAt virt 2 :=
  index_eq virt 2

theorem pml2Index_eq (virt : Nat) : pml2Index virt = indexAt virt 1 :=
  index_eq virt 1

theorem pml1Index_eq (virt : Nat) : pml1Index virt = indexAt virt 0 :=
  index_eq virt 0

/-- `map_lookup` finds the page and truncates the address. -/
theorem PageTree.mapLookup_eq
    {tree : PageTree}
    {state : Machine}
    {pml4Table : Nat}
    (stored : tree.StoredAt state pml4Table)
    (virt : Nat) :
    mapLookup state pml4Table virt =
      match tree.find virt with
      | none => (eNomap, 0)
      | some found =>
          (0, (found.base + virt % pageSize found.level) % 2 ^ 32) := by
  have stored4 := stored (indexAt virt 3)
  have large : virt &&& 0x3fffffff = virt % pageSize 2 :=
    Nat.and_two_pow_sub_one_eq_mod virt 30
  have medium : virt &&& 0x1fffff = virt % pageSize 1 :=
    Nat.and_two_pow_sub_one_eq_mod virt 21
  have small : virt &&& 0xfff = virt % pageSize 0 :=
    Nat.and_two_pow_sub_one_eq_mod virt 12
  rw [PageTree.find]
  simp only [mapLookup, pml4Index_eq, pml3Index_eq, pml2Index_eq,
    pml1Index_eq, large, medium, small]
  generalize state.read (entryPtr pml4Table (indexAt virt 3)) = word4
    at stored4 ⊢
  generalize tree (indexAt virt 3) = entry4 at stored4 ⊢
  cases entry4 with
  | absent => rw [if_pos (PageEntry.not_present stored4), PageEntry.find]
  | page _ _ _ inner => exact absurd inner (by decide)
  | table entries =>
      rcases stored4 with ⟨present, _, below⟩
      have stored3 := below (indexAt virt 2)
      rw [if_neg (not_not.mpr present), PageEntry.find]
      generalize state.read (entryPtr ((hhdmOffset + psePtr word4) % 2 ^ 64)
        (indexAt virt 2)) = word3 at stored3 ⊢
      generalize entries (indexAt virt 2) = entry3 at stored3 ⊢
      cases entry3 with
      | absent => rw [if_pos (PageEntry.not_present stored3), PageEntry.find]
      | page base _ _ _ =>
          rcases stored3 with ⟨present, large, baseEq⟩
          rw [if_neg (not_not.mpr present), if_pos (large (by decide)),
            baseEq, PageEntry.find]
      | table entries =>
          rcases stored3 with ⟨present, inner, below⟩
          have stored2 := below (indexAt virt 1)
          rw [if_neg (not_not.mpr present), if_neg (inner (by decide)),
            PageEntry.find]
          generalize state.read (entryPtr
            ((hhdmOffset + psePtr word3) % 2 ^ 64) (indexAt virt 1)) = word2
            at stored2 ⊢
          generalize entries (indexAt virt 1) = entry2 at stored2 ⊢
          cases entry2 with
          | absent =>
              rw [if_pos (PageEntry.not_present stored2), PageEntry.find]
          | page base _ _ _ =>
              rcases stored2 with ⟨present, large, baseEq⟩
              rw [if_neg (not_not.mpr present), if_pos (large (by decide)),
                baseEq, PageEntry.find]
          | table entries =>
              rcases stored2 with ⟨present, inner, below⟩
              have stored1 := below (indexAt virt 0)
              rw [if_neg (not_not.mpr present), if_neg (inner (by decide)),
                PageEntry.find]
              generalize state.read (entryPtr
                ((hhdmOffset + psePtr word2) % 2 ^ 64) (indexAt virt 0)) =
                word1 at stored1 ⊢
              generalize entries (indexAt virt 0) = entry1 at stored1 ⊢
              cases entry1 with
              | absent =>
                  rw [if_pos (PageEntry.not_present stored1), PageEntry.find]
              | page base _ _ _ =>
                  rcases stored1 with ⟨present, _, baseEq⟩
                  rw [if_neg (not_not.mpr present), baseEq, PageEntry.find]

/-! ## Which addresses are exact -/

/-- Every page found is aligned to its size, and below the highest level. -/
theorem PageEntry.find_aligned
    {virt level : Nat}
    {entry : PageEntry level}
    {found : FoundPage}
    (result : entry.find virt = some found) :
    pageSize found.level ∣ found.base ∧ found.level < 3 := by
  induction entry with
  | absent => cases result
  | page base aligned below inner =>
      rw [PageEntry.find] at result
      cases result
      exact ⟨aligned, inner⟩
  | table entries induction => exact induction _ result

/-- What the lookup should return: the whole address, or `ENOMAP`. -/
def ExactWalk
    (result : Int × Nat)
    (virt : Nat)
    (found? : Option FoundPage) :
    Prop :=
  (∀ found, found? = some found →
    result = (0, found.base + virt % pageSize found.level)) ∧
  (result = (eNomap, 0) ↔ found? = none)

/--
`map_lookup` is exact when the address is not mapped, and otherwise just for
pages below 4 GiB.
-/
theorem map_lookup_exact_iff
    {tree : PageTree}
    {state : Machine}
    {pml4Table : Nat}
    (stored : tree.StoredAt state pml4Table)
    (virt : Nat) :
    ExactWalk (mapLookup state pml4Table virt) virt (tree.find virt) ↔
      ∀ found, tree.find virt = some found → found.base < 2 ^ 32 := by
  rw [PageTree.mapLookup_eq stored virt]
  cases result : tree.find virt with
  | none => simp [ExactWalk]
  | some found =>
      rcases PageEntry.find_aligned result with ⟨⟨pages, base⟩, inner⟩
      have offset := Nat.mod_lt virt
        (show 0 < pageSize found.level from Nat.two_pow_pos _)
      have codes : (0 : Int) ≠ eNomap := by decide
      constructor
      · rintro ⟨exactly, _⟩ found' same
        cases same
        have sum := (Prod.mk.inj (exactly found rfl)).2
        omega
      · intro low
        have baseLow := low found rfl
        -- the page ends at a multiple of its size, which divides 4 GiB
        have whole : found.base + virt % pageSize found.level < 2 ^ 32 := by
          have divides : 2 ^ 32 =
              2 ^ (32 - (12 + 9 * found.level)) * pageSize found.level := by
            rw [pageSize, ← Nat.pow_add]
            congr 1
            omega
          rw [base, Nat.mul_comm, divides] at baseLow
          have next := Nat.lt_of_mul_lt_mul_right baseLow
          have scaled := Nat.mul_le_mul_right (pageSize found.level) next
          rw [Nat.succ_mul, ← divides] at scaled
          rw [base, Nat.mul_comm]
          omega
        refine ⟨?_, ?_⟩
        · rintro found' same
          cases same
          exact congrArg (Prod.mk 0) (Nat.mod_eq_of_lt whole)
        · simp [codes]

/-- A root at `0x1000` and a table at `0x2000`, whose first entries are set. -/
def largePageMachine (word : Nat) : Machine where
  mem address :=
    if address = 0x1000 then 0x2003 else if address = 0x2000 then word else 0
  calls := 0

/-- A table with one page of 1 GiB. -/
def largePageTable
    (base : Nat)
    (aligned : pageSize 2 ∣ base)
    (below : base < 2 ^ 52) :
    Fin 512 → PageEntry 2 :=
  fun j => if j = 0 then .page base aligned below (by decide) else .absent

/-- A root which maps this page at virtual address zero. -/
def largePageTree
    (base : Nat)
    (aligned : pageSize 2 ∣ base)
    (below : base < 2 ^ 52) :
    PageTree :=
  fun i =>
    if i = 0 then .table (largePageTable base aligned below) else .absent

theorem largePage_stored
    {word base : Nat}
    (aligned : pageSize 2 ∣ base)
    (below : base < 2 ^ 52)
    (present : HasFlag word psePresent)
    (large : HasFlag word psePagesize)
    (baseEq : psePtr word = base) :
    (largePageTree base aligned below).StoredAt (largePageMachine word)
      0x1000 := by
  have high : hhdmOffset = 2 ^ 64 - 2 ^ 47 := by decide
  have blank : ∀ address, address ≠ 0x1000 → address ≠ 0x2000 →
      ¬ HasFlag ((largePageMachine word).mem address) psePresent := by
    intro address notRoot notTable
    rw [largePageMachine]
    dsimp only
    rw [if_neg notRoot, if_neg notTable]
    decide
  intro i
  have root : Machine.physical (entryPtr 0x1000 i) = 0x1000 + 8 * i :=
    if_neg (by rw [entryPtr]; omega)
  rw [Machine.read, root, largePageTree]
  by_cases first : i = 0
  · rw [if_pos first, first]
    show PageEntry.StoredAs _ _ 0x2003
    refine ⟨by decide, by simp, ?_⟩
    intro j
    have pointer : (hhdmOffset + psePtr 0x2003) % 2 ^ 64 =
        hhdmOffset + 0x2000 := by decide
    have inner : Machine.physical (entryPtr (hhdmOffset + 0x2000) j) =
        0x2000 + 8 * j := by
      rw [entryPtr, Machine.physical, if_pos (by omega)]
      omega
    rw [pointer, Machine.read, inner, largePageTable]
    by_cases first' : j = 0
    · rw [if_pos first', first']
      exact ⟨present, fun _ => large, baseEq⟩
    · have apart : (j : Nat) ≠ 0 := Fin.val_ne_of_ne first'
      rw [if_neg first']
      exact blank _ (by omega) (by omega)
  · have apart : (i : Nat) ≠ 0 := Fin.val_ne_of_ne first
    rw [if_neg first]
    exact blank _ (by omega) (by omega)

/-- A large page in the first 4 GiB is translated exactly. -/
theorem map_lookup_exact_low :
    (largePageTree (2 ^ 30) (by decide) (by decide)).StoredAt
        (largePageMachine 0x40000083) 0x1000 ∧
      mapLookup (largePageMachine 0x40000083) 0x1000 0x1234 =
        (0, 2 ^ 30 + 0x1234 % pageSize 2) := by
  have stored : (largePageTree (2 ^ 30) (by decide) (by decide)).StoredAt
      (largePageMachine 0x40000083) 0x1000 :=
    largePage_stored _ _ (by decide) (by decide) (by decide)
  have found : (largePageTree (2 ^ 30) (by decide) (by decide)).find 0x1234 =
      some ⟨2 ^ 30, 2⟩ := rfl
  have exactly := (map_lookup_exact_iff stored 0x1234).mpr (by
    intro page same
    rw [found] at same
    cases same
    decide)
  exact ⟨stored, exactly.1 _ found⟩

/-- A large page at 4 GiB is reported at physical address zero. -/
theorem map_lookup_truncated :
    (largePageTree (2 ^ 32) (by decide) (by decide)).StoredAt
        (largePageMachine 0x100000083) 0x1000 ∧
      mapLookup (largePageMachine 0x100000083) 0x1000 0 = (0, 0) ∧
      ¬ ExactWalk (mapLookup (largePageMachine 0x100000083) 0x1000 0) 0
        ((largePageTree (2 ^ 32) (by decide) (by decide)).find 0) := by
  have stored : (largePageTree (2 ^ 32) (by decide) (by decide)).StoredAt
      (largePageMachine 0x100000083) 0x1000 :=
    largePage_stored _ _ (by decide) (by decide) (by decide)
  have found : (largePageTree (2 ^ 32) (by decide) (by decide)).find 0 =
      some ⟨2 ^ 32, 2⟩ := rfl
  have zero : mapLookup (largePageMachine 0x100000083) 0x1000 0 = (0, 0) := by
    decide
  refine ⟨stored, zero, ?_⟩
  rintro ⟨exactly, _⟩
  have wrong := exactly _ found
  rw [zero] at wrong
  exact absurd wrong (by decide)

end ForsKernel.Memory.Paging
