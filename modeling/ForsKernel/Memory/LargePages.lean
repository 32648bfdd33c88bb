import ForsKernel.Memory.AddressSpace

/-!
# Translations in tables with large pages

The tables the kernel starts with map large pages and grant rights in any way.
What matters for the addresses is only that the tables of all address spaces
form a forest.  An entry is taken together with the level of its table here,
since the same word may name a table at one level and a page at another.
-/

namespace ForsKernel.Memory.Paging

open ForsKernel.Lib.RadixForest

/-! ## Entries by level -/

/-- An entry with the rank of the table it is in. -/
def ranked
    (mem : Nat → Nat)
    (rank : Nat → Nat)
    (f : Nat)
    (i : Fin 512) :
    Nat × Nat :=
  (rank f, table mem f i)

/-- The entry maps a large page, which the highest level does not have. -/
def IsLarge (entry : Nat × Nat) : Prop :=
  entry.1 ≠ 3 ∧ HasFlag entry.2 psePagesize

instance (entry : Nat × Nat) : Decidable (IsLarge entry) :=
  inferInstanceAs (Decidable (_ ∧ _))

/-- The table an entry names. -/
def subtable (entry : Nat × Nat) : Option Nat :=
  if HasFlag entry.2 psePresent ∧ entry.1 ≠ 0 ∧ ¬ IsLarge entry then
    some (psePtr entry.2)
  else
    none

/-- The page an entry maps, and its level. -/
def page (entry : Nat × Nat) : Option (Nat × Nat) :=
  if HasFlag entry.2 psePresent ∧ (entry.1 = 0 ∨ IsLarge entry) then
    some (entry.1, psePtr entry.2)
  else
    none

/-- The frame of an address in a page of this level. -/
def frameIn
    (virt : Nat)
    (target : Nat × Nat) :
    Nat :=
  if target.1 = 0 then target.2
  else if target.1 = 1 then
    target.2 / 2 ^ 21 * 2 ^ 21 + virt % 2 ^ 21 / 2 ^ 12 * 2 ^ 12
  else
    target.2 / 2 ^ 30 * 2 ^ 30 + virt % 2 ^ 30 / 2 ^ 12 * 2 ^ 12

/-- The walk as far as it concerns addresses: the page and its level. -/
def pageAt
    (mem : Nat → Nat)
    (root virt : Nat) :
    Option (Nat × Nat) :=
  let pml4Entry := mem (entryPtr root (pml4Index virt))
  if ¬ HasFlag pml4Entry psePresent then
    none
  else
    let pml3Entry := mem (entryPtr (psePtr pml4Entry) (pml3Index virt))
    if ¬ HasFlag pml3Entry psePresent then
      none
    else if HasFlag pml3Entry psePagesize then
      some (2, psePtr pml3Entry)
    else
      let pml2Entry := mem (entryPtr (psePtr pml3Entry) (pml2Index virt))
      if ¬ HasFlag pml2Entry psePresent then
        none
      else if HasFlag pml2Entry psePagesize then
        some (1, psePtr pml2Entry)
      else
        let pml1Entry := mem (entryPtr (psePtr pml2Entry) (pml1Index virt))
        if ¬ HasFlag pml1Entry psePresent then
          none
        else
          some (0, psePtr pml1Entry)

theorem walk_frame
    (mem : Nat → Nat)
    (root virt : Nat) :
    (walk mem root virt).map Translation.frame =
      (pageAt mem root virt).map (frameIn virt) := by
  simp only [walk, pageAt]
  split
  · rfl
  · split
    · rfl
    · split
      · rfl
      · split
        · rfl
        · split
          · rfl
          · split <;> rfl

theorem translate_eq
    (mem : Nat → Nat)
    (root virt : Nat) :
    translate mem root virt = (pageAt mem root virt).map fun target =>
      frameIn virt target + virt % archPageSize := by
  have frames : translate mem root virt =
      ((walk mem root virt).map Translation.frame).map
        fun frame => frame + virt % archPageSize := by
    rw [translate, Option.map_map]
    rfl
  rw [frames, walk_frame, Option.map_map]
  rfl

theorem subtable_some_iff {level word c : Nat} :
    subtable (level, word) = some c ↔
      (HasFlag word psePresent ∧ level ≠ 0 ∧ ¬ IsLarge (level, word)) ∧
        psePtr word = c := by
  rw [subtable]
  split <;> simp_all

theorem subtable_none_of_absent
    {level word : Nat}
    (absent : ¬ HasFlag word psePresent) :
    subtable (level, word) = none :=
  if_neg fun present => absent present.1

theorem page_none_of_absent
    {level word : Nat}
    (absent : ¬ HasFlag word psePresent) :
    page (level, word) = none :=
  if_neg fun present => absent present.1

/-- The flags do not show in what an entry leads to. -/
theorem subtable_or
    {level word flags : Nat}
    (isFlags : IsFlags flags)
    (present : HasFlag word psePresent) :
    subtable (level, word ||| flags) = subtable (level, word) ∧
      page (level, word ||| flags) = page (level, word) := by
  have below := isFlags.below
  have stays : HasFlag (word ||| flags) psePresent :=
    hasFlag_or.mpr (Or.inl present)
  have pointer : psePtr (word ||| flags) = psePtr word :=
    psePtr_or _ (by omega)
  have large : HasFlag (word ||| flags) psePagesize ↔
      HasFlag word psePagesize := by
    constructor
    · intro flag
      exact (hasFlag_or.mp flag).resolve_right isFlags.not_pagesize
    · exact fun flag => hasFlag_or.mpr (Or.inl flag)
  simp only [subtable, page, IsLarge, stays, present, pointer, large, and_self]

/-! ## The forest -/

/--
The tables of all address spaces form a forest, and `pfalloc_one` answers with
frames which no table is in.
-/
structure Sound
    (frames : Nat → Nat)
    (roots : Set Nat)
    (state : Machine)
    (used : Set Nat)
    (rank : Nat → Nat)
    (parent : Nat → Nat × Fin 512) :
    Prop where
  frame : ∀ f ∈ used, IsFrame f
  forest : Forest subtable (ranked state.mem rank) used rank parent
  root_used : ∀ root ∈ roots, root ∈ used
  root_rank : ∀ root ∈ roots, rank root = 3
  answer_frame : ∀ k ≥ state.calls, frames k ≠ 0 → IsFrame (frames k)
  answer_unused : ∀ k ≥ state.calls, frames k ≠ 0 → frames k ∉ used
  answer_fresh : ∀ j ≥ state.calls, ∀ k > j, frames k ≠ 0 →
    frames j ≠ frames k

/-- No entry of the tables forbids execution. -/
def XdFree
    (mem : Nat → Nat)
    (used : Set Nat) :
    Prop :=
  ∀ f ∈ used, ∀ i, ¬ HasFlag (table mem f i) pseXd

theorem IsFlags.not_xd
    {flags : Nat}
    (isFlags : IsFlags flags) :
    ¬ HasFlag flags pseXd := by
  have below := isFlags.below
  rw [pseXd, hasFlag_two_pow, Nat.testBit_lt_two_pow (by omega)]
  simp

theorem not_xd_psePtr (val : Nat) : ¬ HasFlag (psePtr val) pseXd := by
  rw [pseXd, hasFlag_two_pow, testBit_psePtr]
  simp

/-- The flags do not make an entry forbid execution. -/
theorem not_xd_or
    {word flags : Nat}
    (isFlags : IsFlags flags)
    (free : ¬ HasFlag word pseXd) :
    ¬ HasFlag (word ||| flags) pseXd := by
  intro flag
  rcases hasFlag_or.mp flag with old | new
  · exact free old
  · exact isFlags.not_xd new

/-- `pfalloc_one` handed the frame out between the two states. -/
def HandedOut
    (frames : Nat → Nat)
    (state state' : Machine)
    (f : Nat) :
    Prop :=
  f ≠ 0 ∧ ∃ k, state.calls ≤ k ∧ k < state'.calls ∧ f = frames k

/-- The forest grew by tables which were allocated meanwhile. -/
structure Grown
    (frames : Nat → Nat)
    (state : Machine)
    (used : Set Nat)
    (rank : Nat → Nat)
    (state' : Machine)
    (used' : Set Nat)
    (rank' : Nat → Nat) :
    Prop where
  subset : used ⊆ used'
  rank_eq : ∀ f ∈ used, rank' f = rank f
  edge_eq : ∀ f ∈ used, ∀ i c,
    subtable (ranked state.mem rank f i) = some c →
      subtable (ranked state'.mem rank' f i) = some c
  calls_le : state.calls ≤ state'.calls
  allocated : ∀ f ∈ used', f ∈ used ∨ HandedOut frames state state' f
  xdFree : XdFree state.mem used → XdFree state'.mem used'

/-- And every lookup still finds what it found. -/
structure Kept
    (frames : Nat → Nat)
    (state : Machine)
    (used : Set Nat)
    (rank : Nat → Nat)
    (state' : Machine)
    (used' : Set Nat)
    (rank' : Nat → Nat) :
    Prop
      extends Grown frames state used rank state' used' rank' where
  find_eq : ∀ f ∈ used, ∀ path, path.length ≤ rank f → ∀ j,
    find subtable page (ranked state'.mem rank') f path j =
      find subtable page (ranked state.mem rank) f path j

section

variable
  {frames : Nat → Nat}
  {state state₁ state₂ : Machine}
  {used used₁ used₂ : Set Nat}
  {rank rank₁ rank₂ : Nat → Nat}

theorem Grown.refl
    (frames : Nat → Nat)
    (state : Machine)
    (used : Set Nat)
    (rank : Nat → Nat) :
    Grown frames state used rank state used rank where
  subset := subset_rfl
  rank_eq _ _ := rfl
  edge_eq _ _ _ _ edge := edge
  calls_le := le_rfl
  allocated _ member := .inl member
  xdFree free := free

theorem Grown.trans
    (first : Grown frames state used rank state₁ used₁ rank₁)
    (second : Grown frames state₁ used₁ rank₁ state₂ used₂ rank₂) :
    Grown frames state used rank state₂ used₂ rank₂ where
  subset := first.subset.trans second.subset
  rank_eq f member := by
    rw [second.rank_eq f (first.subset member), first.rank_eq f member]
  edge_eq f member i c edge := by
    apply second.edge_eq f (first.subset member)
    exact first.edge_eq f member i c edge
  calls_le := first.calls_le.trans second.calls_le
  allocated f member := by
    have firstLe := first.calls_le
    have secondLe := second.calls_le
    rcases second.allocated f member with old | ⟨notNull, k, lower, upper, is⟩
    · rcases first.allocated f old with old | ⟨notNull, k, lower, upper, is⟩
      · exact .inl old
      · exact .inr ⟨notNull, k, lower, by omega, is⟩
    · exact .inr ⟨notNull, k, by omega, upper, is⟩
  xdFree free := second.xdFree (first.xdFree free)

theorem Kept.trans
    (first : Kept frames state used rank state₁ used₁ rank₁)
    (second : Kept frames state₁ used₁ rank₁ state₂ used₂ rank₂) :
    Kept frames state used rank state₂ used₂ rank₂ where
  toGrown := first.toGrown.trans second.toGrown
  find_eq f member path short j := by
    rw [second.find_eq f (first.subset member) path
      (short.trans (first.rank_eq f member).ge) j]
    exact first.find_eq f member path short j

end

section

variable
  {frames : Nat → Nat}
  {roots : Set Nat}
  {state state' : Machine}
  {used : Set Nat}
  {rank : Nat → Nat}
  {parent : Nat → Nat × Fin 512}
  {f ptr flags : Nat}
  {i : Fin 512}

/-- Roots without entries form a forest. -/
theorem Sound.blank
    (rootFrame : ∀ root ∈ roots, IsFrame root)
    (absent : ∀ root ∈ roots, ∀ i,
      ¬ HasFlag (table state.mem root i) psePresent)
    (answerFrame : ∀ k ≥ state.calls, frames k ≠ 0 → IsFrame (frames k))
    (answerUnused : ∀ k ≥ state.calls, frames k ≠ 0 → frames k ∉ roots)
    (answerFresh : ∀ j ≥ state.calls, ∀ k > j, frames k ≠ 0 →
      frames j ≠ frames k) :
    Sound frames roots state roots (fun _ => 3) (fun _ => (0, 0)) := by
  refine ⟨rootFrame, ⟨?_⟩, fun _ isRoot => isRoot, fun _ _ => rfl,
    answerFrame, answerUnused, answerFresh⟩
  intro root isRoot _ i next edge
  rw [ranked, subtable_none_of_absent (absent root isRoot i)] at edge
  cases edge

/-- One level down from an entry which names a table. -/
theorem Sound.below
    (sound : Sound frames roots state used rank parent)
    (member : f ∈ used)
    {c : Nat}
    (edge : subtable (ranked state.mem rank f i) = some c) :
    c ∈ used ∧ rank c + 1 = rank f := by
  have inner : 0 < rank f :=
    Nat.pos_of_ne_zero (subtable_some_iff.mp edge).1.2.1
  have linked := sound.forest.linked f member inner i c edge
  exact ⟨linked.1, linked.2.1⟩

/-- A present entry of an upper level leads down, unless it is a large page. -/
theorem Sound.descends
    (sound : Sound frames roots state used rank parent)
    (member : f ∈ used)
    {e : Nat}
    (read : table state.mem f i = e)
    (present : HasFlag e psePresent)
    (upper : rank f = 3 ∨ rank f ≠ 0 ∧ ¬ HasFlag e psePagesize) :
    subtable (rank f, e) = some (psePtr e) ∧ psePtr e ∈ used ∧
      rank (psePtr e) + 1 = rank f := by
  have edge : subtable (rank f, e) = some (psePtr e) := by
    apply subtable_some_iff.mpr
    rcases upper with top | ⟨inner, small⟩
    · exact ⟨⟨present, by omega, fun large => large.1 top⟩, rfl⟩
    · exact ⟨⟨present, inner, fun large => small large.2⟩, rfl⟩
  refine ⟨edge, sound.below (i := i) member ?_⟩
  rw [ranked, read]
  exact edge

/-- The walk is a lookup which may stop at each of three levels. -/
theorem Sound.pageAt_eq
    (sound : Sound frames roots state used rank parent)
    {root : Nat}
    (isRoot : root ∈ roots)
    (virt : Nat) :
    pageAt state.mem root virt =
      (find subtable page (ranked state.mem rank) root
          ((pathOf virt).take 1) ⟨pml3Index virt, index_lt _⟩).or
        ((find subtable page (ranked state.mem rank) root
            ((pathOf virt).take 2) ⟨pml2Index virt, index_lt _⟩).or
          (find subtable page (ranked state.mem rank) root (pathOf virt)
            (slotOf virt))) := by
  have member4 := sound.root_used root isRoot
  have rank4 := sound.root_rank root isRoot
  have large {level word : Nat} (lower : level ≠ 3) :
      IsLarge (level, word) ↔ HasFlag word psePagesize :=
    ⟨fun isLarge => isLarge.2, fun flag => ⟨lower, flag⟩⟩
  generalize e4Eq : table state.mem root ⟨pml4Index virt, index_lt _⟩ = e4
  have read4 : state.mem (entryPtr root (pml4Index virt)) = e4 := e4Eq
  simp only [pageAt, find, pathOf, List.take, descend, ranked, read4,
    e4Eq, rank4]
  by_cases p4 : HasFlag e4 psePresent
  swap
  · rw [if_pos p4, subtable_none_of_absent p4]
    rfl
  rcases sound.descends member4 e4Eq p4 (.inl rank4) with
    ⟨edge4, member3, below3⟩
  have rank3 : rank (psePtr e4) = 2 := by omega
  rw [rank4] at edge4
  generalize e3Eq :
    table state.mem (psePtr e4) ⟨pml3Index virt, index_lt _⟩ = e3
  have read3 : state.mem (entryPtr (psePtr e4) (pml3Index virt)) = e3 := e3Eq
  simp only [if_neg (not_not.mpr p4), edge4, Option.bind_some, read3, e3Eq,
    rank3]
  by_cases p3 : HasFlag e3 psePresent
  swap
  · rw [if_pos p3, subtable_none_of_absent p3, page_none_of_absent p3]
    rfl
  rw [if_neg (not_not.mpr p3)]
  by_cases l3 : HasFlag e3 psePagesize
  · have isPage : page (2, e3) = some (2, psePtr e3) :=
      if_pos ⟨p3, .inr ((large (by decide)).mpr l3)⟩
    rw [if_pos l3, isPage]
    rfl
  rcases sound.descends member3 e3Eq p3 (.inr ⟨by omega, l3⟩) with
    ⟨edge3, member2, below2⟩
  have rank2 : rank (psePtr e3) = 1 := by omega
  rw [rank3] at edge3
  have noPage3 : page (2, e3) = none := by
    apply if_neg
    rintro ⟨_, last | isLarge⟩
    · cases last
    · exact l3 isLarge.2
  generalize e2Eq :
    table state.mem (psePtr e3) ⟨pml2Index virt, index_lt _⟩ = e2
  have read2 : state.mem (entryPtr (psePtr e3) (pml2Index virt)) = e2 := e2Eq
  simp only [if_neg l3, noPage3, edge3, Option.bind_some, read2, e2Eq, rank2,
    Option.none_or]
  by_cases p2 : HasFlag e2 psePresent
  swap
  · rw [if_pos p2, subtable_none_of_absent p2, page_none_of_absent p2]
    rfl
  rw [if_neg (not_not.mpr p2)]
  by_cases l2 : HasFlag e2 psePagesize
  · have isPage : page (1, e2) = some (1, psePtr e2) :=
      if_pos ⟨p2, .inr ((large (by decide)).mpr l2)⟩
    rw [if_pos l2, isPage]
    rfl
  rcases sound.descends member2 e2Eq p2 (.inr ⟨by omega, l2⟩) with
    ⟨edge2, member1, below1⟩
  have rank1 : rank (psePtr e2) = 0 := by omega
  rw [rank2] at edge2
  have noPage2 : page (1, e2) = none := by
    apply if_neg
    rintro ⟨_, last | isLarge⟩
    · cases last
    · exact l2 isLarge.2
  generalize e1Eq : table state.mem (psePtr e2) (slotOf virt) = e1
  have read1 : state.mem (entryPtr (psePtr e2) (pml1Index virt)) = e1 := e1Eq
  simp only [if_neg l2, noPage2, edge2, Option.bind_some, read1, e1Eq, rank1,
    Option.none_or]
  by_cases p1 : HasFlag e1 psePresent
  swap
  · rw [if_pos p1, page_none_of_absent p1]
  have isPage : page (0, e1) = some (0, psePtr e1) := if_pos ⟨p1, .inl rfl⟩
  rw [if_neg (not_not.mpr p1), isPage]

/-- The offset of an address in a page of this level. -/
def offsetIn (virt level : Nat) : Nat :=
  if level = 0 then virt &&& 0xfff
  else if level = 1 then virt &&& 0x1fffff
  else virt &&& 0x3fffffff

theorem physical_sum
    {frame : Nat}
    (isFrame : IsFrame frame)
    (i : Fin 512) :
    Machine.physical (entryPtr ((hhdmOffset + frame) % 2 ^ 64) i) =
      entryPtr frame i := by
  have below := isFrame.below
  have high : hhdmOffset = 2 ^ 64 - 2 ^ 47 := by decide
  rw [Nat.mod_eq_of_lt (by omega), Machine.physical, entryPtr, entryPtr,
    if_pos (by omega)]
  omega

/-- The lookup in software finds the page of the walk. -/
theorem Sound.mapLookup_eq
    (sound : Sound frames roots state used rank parent)
    {root pml4Table : Nat}
    (isRoot : root ∈ roots)
    (points : ∀ i : Fin 512,
      Machine.physical (entryPtr pml4Table i) = entryPtr root i)
    (virt : Nat) :
    mapLookup state pml4Table virt =
      match pageAt state.mem root virt with
      | none => (eNomap, 0)
      | some target => (0, (target.2 + offsetIn virt target.1) % 2 ^ 32) := by
  have member4 := sound.root_used root isRoot
  have rank4 := sound.root_rank root isRoot
  have readBelow {c : Nat} (member : c ∈ used) (i : Fin 512) :
      state.read (entryPtr ((hhdmOffset + c) % 2 ^ 64) i) =
        state.mem (entryPtr c i) := by
    rw [Machine.read, physical_sum (sound.frame c member)]
  have read4 : state.read (entryPtr pml4Table (pml4Index virt)) =
      state.mem (entryPtr root (pml4Index virt)) :=
    congrArg state.mem (points ⟨pml4Index virt, index_lt _⟩)
  simp only [mapLookup, pageAt, read4]
  generalize e4Eq : state.mem (entryPtr root (pml4Index virt)) = e4
  by_cases p4 : HasFlag e4 psePresent
  swap
  · simp only [p4, not_false_eq_true, if_true]
  rcases sound.descends (i := ⟨pml4Index virt, index_lt _⟩) member4 e4Eq p4
    (.inl rank4) with ⟨_, member3, below3⟩
  have read3 := readBelow member3 ⟨pml3Index virt, index_lt _⟩
  simp only at read3
  simp only [p4, not_true, if_false, read3]
  generalize e3Eq : state.mem (entryPtr (psePtr e4) (pml3Index virt)) = e3
  by_cases p3 : HasFlag e3 psePresent
  swap
  · simp only [p3, not_false_eq_true, if_true]
  by_cases l3 : HasFlag e3 psePagesize
  · simp only [p3, l3, not_true, if_false, if_true]
    rfl
  rcases sound.descends (i := ⟨pml3Index virt, index_lt _⟩) member3 e3Eq p3
    (.inr ⟨by omega, l3⟩) with ⟨_, member2, below2⟩
  have read2 := readBelow member2 ⟨pml2Index virt, index_lt _⟩
  simp only at read2
  simp only [p3, l3, not_true, if_false, read2]
  generalize e2Eq : state.mem (entryPtr (psePtr e3) (pml2Index virt)) = e2
  by_cases p2 : HasFlag e2 psePresent
  swap
  · simp only [p2, not_false_eq_true, if_true]
  by_cases l2 : HasFlag e2 psePagesize
  · simp only [p2, l2, not_true, if_false, if_true]
    rfl
  rcases sound.descends (i := ⟨pml2Index virt, index_lt _⟩) member2 e2Eq p2
    (.inr ⟨by omega, l2⟩) with ⟨_, member1, _⟩
  have read1 := readBelow member1 (slotOf virt)
  simp only [slotOf] at read1
  simp only [p2, l2, not_true, if_false, read1]
  generalize state.mem (entryPtr (psePtr e2) (pml1Index virt)) = e1
  by_cases p1 : HasFlag e1 psePresent
  · simp only [p1, not_true, if_false]
    rfl
  · simp only [p1, not_false_eq_true, if_true]

/-- Lookups unchanged are pages unchanged. -/
theorem Kept.pageAt_eq
    {used' : Set Nat}
    {rank' : Nat → Nat}
    {parent' : Nat → Nat × Fin 512}
    (sound : Sound frames roots state used rank parent)
    (sound' : Sound frames roots state' used' rank' parent')
    (kept : Kept frames state used rank state' used' rank')
    {root : Nat}
    (isRoot : root ∈ roots)
    (virt : Nat) :
    pageAt state'.mem root virt = pageAt state.mem root virt := by
  have member := sound.root_used root isRoot
  have top := sound.root_rank root isRoot
  have length : (pathOf virt).length = 3 := rfl
  rw [sound'.pageAt_eq isRoot, sound.pageAt_eq isRoot,
    kept.find_eq root member _ (by simp [length, top]),
    kept.find_eq root member _ (by simp [length, top]),
    kept.find_eq root member _ (by omega)]

/-! ## The steps of a call -/

/-- Flags are added to an entry which leads somewhere. -/
theorem Sound.touched
    (sound : Sound frames roots state used rank parent)
    (member : f ∈ used)
    (isFlags : IsFlags flags)
    (present : HasFlag (table state.mem f i) psePresent)
    (calls : state'.calls = state.calls)
    (mem : state'.mem = Function.update state.mem (entryPtr f i)
      (table state.mem f i ||| flags)) :
    Sound frames roots state' used rank parent ∧
      Kept frames state used rank state' used rank := by
  have same : ∀ g ∈ used, ∀ j,
      subtable (ranked state'.mem rank g j) =
          subtable (ranked state.mem rank g j) ∧
        page (ranked state'.mem rank g j) =
          page (ranked state.mem rank g j) := by
    intro g gMember j
    rw [ranked, ranked, mem,
      table_update (sound.frame f member) (sound.frame g gMember)]
    split
    · rename_i here
      rcases Prod.mk.inj here with ⟨rfl, rfl⟩
      exact subtable_or isFlags present
    · exact ⟨rfl, rfl⟩
  have inner : ∀ g ∈ used, 0 < rank g → ∀ j,
      subtable (ranked state'.mem rank g j) =
        subtable (ranked state.mem rank g j) :=
    fun g gMember _ j => (same g gMember j).1
  constructor
  · refine ⟨sound.frame, sound.forest.congr inner, sound.root_used,
      sound.root_rank, ?_, ?_, ?_⟩
    · rw [calls]
      exact sound.answer_frame
    · rw [calls]
      exact sound.answer_unused
    · rw [calls]
      exact sound.answer_fresh
  · refine ⟨⟨subset_rfl, fun _ _ => rfl, ?_, calls.ge,
      fun _ member => .inl member, ?_⟩, ?_⟩
    · intro g gMember j c edge
      rwa [(same g gMember j).1]
    · intro free g gMember j
      rw [mem, table_update (sound.frame f member) (sound.frame g gMember)]
      split
      · exact not_xd_or isFlags (free f member i)
      · exact free g gMember j
    · intro g gMember path short j
      exact sound.forest.find_congr_level inner gMember short
        (fun last lastMember _ index => (same last lastMember index).2) j

/-- What a blank table which is linked into an empty entry does to lookups. -/
structure Grafted
    (mem : Nat → Nat)
    (used : Set Nat)
    (rank : Nat → Nat)
    (f : Nat)
    (i : Fin 512)
    (fresh : Nat)
    (mem' : Nat → Nat)
    (rank' : Nat → Nat) :
    Prop where
  rank_eq : ∀ g ∈ used, rank' g = rank g
  unlinked : subtable (ranked mem rank f i) = none
  newChild : subtable (ranked mem' rank' f i) = some fresh
  blankChild : ∀ j, subtable (ranked mem' rank' fresh j) = none
  blankPage : ∀ j, page (ranked mem' rank' fresh j) = none
  sameChild : ∀ g ∈ used, ∀ j, (g, j) ≠ (f, i) →
    subtable (ranked mem' rank' g j) = subtable (ranked mem rank g j)
  samePage : ∀ g ∈ used, ∀ j,
    page (ranked mem' rank' g j) = page (ranked mem rank g j)

/-- An entry which names the fresh table, below a table which is not last. -/
theorem names_fresh
    {level fresh : Nat}
    (freshFrame : IsFrame fresh)
    (isFlags : IsFlags flags)
    (inner : 0 < level) :
    subtable (level, psePtr fresh ||| flags) = some fresh ∧
      page (level, psePtr fresh ||| flags) = none := by
  have below := isFlags.below
  have small := isFlags.not_pagesize_entry fresh
  constructor
  · rw [subtable_some_iff]
    refine ⟨⟨hasFlag_or.mpr (Or.inr isFlags.present), by omega, ?_⟩, ?_⟩
    · exact fun large => small large.2
    · rw [psePtr_or _ (by omega), psePtr_idem, freshFrame.psePtr_eq]
  · apply if_neg
    rintro ⟨_, last | large⟩
    · exact absurd last (by simp only; omega)
    · exact small large.2

theorem Sound.grafted
    (sound : Sound frames roots state used rank parent)
    (member : f ∈ used)
    (inner : 0 < rank f)
    (isFlags : IsFlags flags)
    (absent : ¬ HasFlag (table state.mem f i) psePresent)
    {fresh : Nat}
    (freshFrame : IsFrame fresh)
    (unused : fresh ∉ used)
    (newEntry : table state'.mem f i = psePtr fresh ||| flags)
    (others : ∀ g, IsFrame g → ∀ j, (g, j) ≠ (f, i) →
      table state'.mem g j = if g = fresh then 0 else table state.mem g j) :
    Grafted state.mem used rank f i fresh state'.mem
      (Function.update rank fresh (rank f - 1)) := by
  have notFresh : ∀ g ∈ used, g ≠ fresh := by
    rintro g gMember rfl
    exact unused gMember
  have oldRank : ∀ g ∈ used,
      Function.update rank fresh (rank f - 1) g = rank g :=
    fun g gMember => Function.update_of_ne (notFresh g gMember) _ _
  rcases others_of_linked sound.frame member freshFrame unused others with
    ⟨blank, sameEntry⟩
  have same : ∀ g ∈ used, ∀ j, (g, j) ≠ (f, i) →
      ranked state'.mem (Function.update rank fresh (rank f - 1)) g j =
        ranked state.mem rank g j := by
    intro g gMember j apart
    rw [ranked, ranked, sameEntry g gMember j apart, oldRank g gMember]
  have isNew : ranked state'.mem (Function.update rank fresh (rank f - 1)) f
      i = (rank f, psePtr fresh ||| flags) := by
    rw [ranked, newEntry, oldRank f member]
  have names := names_fresh freshFrame isFlags inner
  refine ⟨oldRank, subtable_none_of_absent absent, ?_, ?_, ?_, ?_, ?_⟩
  · rw [isNew]
    exact names.1
  · intro j
    rw [ranked, blank j]
    exact subtable_none_of_absent (not_hasFlag_zero _)
  · intro j
    rw [ranked, blank j]
    exact page_none_of_absent (not_hasFlag_zero _)
  · intro g gMember j apart
    rw [same g gMember j apart]
  · intro g gMember j
    by_cases here : (g, j) = (f, i)
    · rcases Prod.mk.inj here with ⟨rfl, rfl⟩
      rw [isNew, names.2]
      exact (page_none_of_absent absent).symm
    · rw [same g gMember j here]

/-- A fresh blank table is linked into an empty entry. -/
theorem Sound.linked
    (sound : Sound frames roots state used rank parent)
    (member : f ∈ used)
    (inner : 0 < rank f)
    (isFlags : IsFlags flags)
    (absent : ¬ HasFlag (table state.mem f i) psePresent)
    (notNull : frames state.calls ≠ 0)
    (calls : state'.calls = state.calls + 1)
    (newEntry : table state'.mem f i = psePtr (frames state.calls) ||| flags)
    (others : ∀ g, IsFrame g → ∀ j, (g, j) ≠ (f, i) →
      table state'.mem g j =
        if g = frames state.calls then 0 else table state.mem g j) :
    ∃ used' rank' parent', Sound frames roots state' used' rank' parent' ∧
      Kept frames state used rank state' used' rank' ∧
      ∃ c, subtable (ranked state'.mem rank' f i) = some c := by
  have freshFrame := sound.answer_frame _ le_rfl notNull
  have unused := sound.answer_unused _ le_rfl notNull
  have later : ∀ k > state.calls, frames k ≠ 0 →
      frames state.calls ≠ frames k := sound.answer_fresh _ le_rfl
  have grafted := sound.grafted member inner isFlags absent freshFrame unused
    newEntry others
  generalize freshIs : frames state.calls = fresh at *
  refine ⟨insert fresh used, _, Function.update parent fresh (f, i),
    ⟨?_, sound.forest.grow member inner unused grafted.newChild
      grafted.blankChild grafted.sameChild, ?_, ?_, ?_, ?_, ?_⟩,
    ⟨⟨Set.subset_insert _ _, grafted.rank_eq, ?_, by omega, ?_, ?_⟩, ?_⟩,
    fresh, grafted.newChild⟩
  · intro g gMember
    rcases Set.mem_insert_iff.mp gMember with rfl | gMember
    · exact freshFrame
    · exact sound.frame g gMember
  · intro root isRoot
    exact Set.mem_insert_of_mem _ (sound.root_used root isRoot)
  · intro root isRoot
    rw [grafted.rank_eq root (sound.root_used root isRoot)]
    exact sound.root_rank root isRoot
  · intro k after
    exact sound.answer_frame k (by omega)
  · intro k after notNull'
    rw [Set.mem_insert_iff, not_or]
    exact ⟨fun isFresh => later k (by omega) notNull' isFresh.symm,
      sound.answer_unused k (by omega) notNull'⟩
  · intro j after
    exact sound.answer_fresh j (by omega)
  · intro g gMember j c edge
    rw [grafted.sameChild g gMember j]
    · exact edge
    · rintro here
      rcases Prod.mk.inj here with ⟨rfl, rfl⟩
      rw [grafted.unlinked] at edge
      cases edge
  · intro g gMember
    rcases Set.mem_insert_iff.mp gMember with rfl | gMember
    · exact .inr ⟨notNull, state.calls, le_rfl, by omega, freshIs.symm⟩
    · exact .inl gMember
  · intro free g gMember j
    by_cases here : (g, j) = (f, i)
    · rcases Prod.mk.inj here with ⟨rfl, rfl⟩
      rw [newEntry]
      exact not_xd_or isFlags (not_xd_psePtr _)
    rcases Set.mem_insert_iff.mp gMember with rfl | old
    · rw [others g freshFrame j here, if_pos rfl]
      exact not_hasFlag_zero _
    · have notFresh : g ≠ fresh := by
        rintro rfl
        exact unused old
      rw [others g (sound.frame g old) j here, if_neg notFresh]
      exact free g old j
  · intro g gMember path short j
    exact sound.forest.find_grow_level grafted.unlinked grafted.newChild
      grafted.blankChild grafted.blankPage grafted.sameChild gMember short
      (fun last lastMember _ index =>
        grafted.samePage last lastMember index) j

/-- One upper level: no frame is left, or a table is below the entry. -/
theorem Sound.ensureTable
    (sound : Sound frames roots state used rank parent)
    (member : f ∈ used)
    (inner : 0 < rank f)
    (points : Machine.physical ptr = entryPtr f i)
    (isFlags : IsFlags flags)
    (small : ¬ IsLarge (ranked state.mem rank f i)) :
    (∃ state', Paging.ensureTable frames state ptr flags = (false, state') ∧
      Sound frames roots state' used rank parent ∧
      Kept frames state used rank state' used rank) ∨
    ∃ state' used' rank' parent' c,
      Paging.ensureTable frames state ptr flags = (true, state') ∧
      Sound frames roots state' used' rank' parent' ∧
      Kept frames state used rank state' used' rank' ∧
      subtable (ranked state'.mem rank' f i) = some c := by
  have step := ensureTable_step (sound.frame f member) points isFlags
    (sound.answer_frame _ le_rfl)
  generalize Paging.ensureTable frames state ptr flags = result at step
  cases step with
  | touched present calls mem =>
      right
      rcases sound.touched member isFlags present calls mem with
        ⟨sound', kept⟩
      have edge : subtable (ranked state.mem rank f i) =
          some (psePtr (table state.mem f i)) :=
        subtable_some_iff.mpr ⟨⟨present, by omega, small⟩, rfl⟩
      exact ⟨_, used, rank, parent, _, rfl, sound', kept,
        kept.edge_eq f member i _ edge⟩
  | nomem absent null =>
      left
      refine ⟨_, rfl, ⟨sound.frame, sound.forest, sound.root_used,
        sound.root_rank, ?_, ?_, ?_⟩,
        ⟨⟨subset_rfl, fun _ _ => rfl, fun _ _ _ _ edge => edge,
          Nat.le_succ _, fun _ member => .inl member, id⟩,
          fun _ _ _ _ _ => rfl⟩⟩
      · exact fun k after => sound.answer_frame k (Nat.le_of_succ_le after)
      · exact fun k after => sound.answer_unused k (Nat.le_of_succ_le after)
      · exact fun j after => sound.answer_fresh j (Nat.le_of_succ_le after)
  | linked absent notNull calls newEntry others =>
      right
      rcases sound.linked member inner isFlags absent notNull calls newEntry
        others with ⟨used', rank', parent', sound', kept, c, edge⟩
      exact ⟨_, used', rank', parent', c, rfl, sound', kept, edge⟩

/-- The pointer taken from an entry leads to the table below it. -/
theorem Sound.points_below
    (sound : Sound frames roots state used rank parent)
    (member : f ∈ used)
    {c : Nat}
    (edge : subtable (ranked state.mem rank f i) = some c)
    (points : Machine.physical ptr = entryPtr f i)
    (j : Fin 512) :
    Machine.physical (entryPtr (pseGetPtr (state.read ptr)) j) =
      entryPtr c j := by
  rw [read_eq points, pseGetPtr, (subtable_some_iff.mp edge).2]
  exact physical_high (sound.frame c (sound.below member edge).1) j

/-- Where a path goes on there is no page. -/
theorem find_page_none
    {store : Nat → Fin 512 → Nat × Nat}
    {g last : Nat}
    {path rest : List (Fin 512)}
    {j : Fin 512}
    (reached : descend subtable store g (path ++ j :: rest) = some last) :
    find subtable page store g path j = none := by
  rw [descend_append] at reached
  rcases Option.bind_eq_some_iff.mp reached with ⟨middle, first, onwards⟩
  rw [descend] at onwards
  rcases Option.bind_eq_some_iff.mp onwards with ⟨next, edge, _⟩
  rw [find, first]
  show page (store middle j) = none
  generalize store middle j = entry at edge
  rcases entry with ⟨level, word⟩
  have names := (subtable_some_iff.mp edge).1
  apply if_neg
  rintro ⟨_, last | large⟩
  · exact names.2.1 last
  · exact names.2.2 large

/-- Other entries than the one written stay. -/
theorem Sound.ranked_write
    (sound : Sound frames roots state used rank parent)
    (member : f ∈ used)
    (points : Machine.physical ptr = entryPtr f i)
    (word : Nat) :
    ∀ g ∈ used, ∀ j, (g, j) ≠ (f, i) →
      ranked (state.write ptr word).mem rank g j =
        ranked state.mem rank g j := by
  intro g gMember j apart
  rw [ranked, ranked, write_mem points,
    table_update (sound.frame f member) (sound.frame g gMember),
    if_neg apart]

/-- A write to a last level table does not show in the upper levels. -/
theorem Sound.ranked_write_inner
    (sound : Sound frames roots state used rank parent)
    (member : f ∈ used)
    (last : rank f = 0)
    (points : Machine.physical ptr = entryPtr f i)
    (word : Nat) :
    ∀ g ∈ used, 0 < rank g → ∀ j,
      ranked (state.write ptr word).mem rank g j =
        ranked state.mem rank g j := by
  intro g gMember inner j
  apply sound.ranked_write member points word g gMember
  intro here
  rw [(Prod.mk.inj here).1] at inner
  omega

/-- The last step of a call writes one leaf. -/
theorem Sound.setLeaf
    (sound : Sound frames roots state used rank parent)
    (member : f ∈ used)
    (last : rank f = 0)
    (points : Machine.physical ptr = entryPtr f i)
    (isFlags : IsFlags flags)
    (phys : Nat) :
    Sound frames roots (state.write ptr (psePtr phys ||| flags)) used rank
        parent ∧
      Grown frames state used rank
        (state.write ptr (psePtr phys ||| flags)) used rank := by
  have inner := sound.ranked_write_inner member last points
    (psePtr phys ||| flags)
  constructor
  · refine ⟨sound.frame, sound.forest.congr ?_, sound.root_used,
      sound.root_rank, sound.answer_frame, sound.answer_unused,
      sound.answer_fresh⟩
    intro g gMember gInner j
    rw [inner g gMember gInner j]
  · refine ⟨subset_rfl, fun _ _ => rfl, ?_, le_rfl,
      fun _ gMember => .inl gMember, ?_⟩
    · intro g gMember j c edge
      have gInner : 0 < rank g :=
        Nat.pos_of_ne_zero (subtable_some_iff.mp edge).1.2.1
      rwa [inner g gMember gInner j]
    · intro free g gMember j
      rw [write_mem points,
        table_update (sound.frame f member) (sound.frame g gMember)]
      split
      · exact not_xd_or isFlags (not_xd_psePtr _)
      · exact free g gMember j

/-- The leaf shows in the walks of its page, and in no other. -/
theorem Sound.pageAt_setLeaf
    (sound : Sound frames roots state used rank parent)
    {root phys virt t1 : Nat}
    (isRoot : root ∈ roots)
    (reached : descend subtable (ranked state.mem rank) root (pathOf virt) =
      some t1)
    (member : t1 ∈ used)
    (last : rank t1 = 0)
    (points : Machine.physical ptr = entryPtr t1 (slotOf virt))
    (isFlags : IsFlags flags)
    {r : Nat}
    (rRoot : r ∈ roots)
    (virt' : Nat) :
    pageAt (state.write ptr (psePtr phys ||| flags)).mem r virt' =
      if r = root ∧ pageOf virt' = pageOf virt then some (0, psePtr phys)
      else pageAt state.mem r virt' := by
  have rootUsed := sound.root_used root isRoot
  have rootRank := sound.root_rank root isRoot
  have rUsed := sound.root_used r rRoot
  have rRank := sound.root_rank r rRoot
  have full : (pathOf virt).length = rank root := by
    rw [rootRank]
    rfl
  have inner := sound.ranked_write_inner member last points
    (psePtr phys ||| flags)
  have upper (path : List (Fin 512)) (short : path.length < 3)
      (j : Fin 512) :
      find subtable page
          (ranked (state.write ptr (psePtr phys ||| flags)).mem rank) r path
          j = find subtable page (ranked state.mem rank) r path j := by
    apply sound.forest.find_congr_level _ rUsed (by omega)
    · intro g gMember level index
      rw [inner g gMember (by omega)]
    · intro g gMember gInner index
      rw [inner g gMember gInner]
  have newPage : page (ranked (state.write ptr (psePtr phys ||| flags)).mem
      rank t1 (slotOf virt)) = some (0, psePtr phys) := by
    have below := isFlags.below
    have t1Frame := sound.frame t1 member
    rw [ranked, write_mem points, table_update t1Frame t1Frame, if_pos rfl,
      last]
    have present : HasFlag (psePtr phys ||| flags) psePresent :=
      hasFlag_or.mpr (Or.inr isFlags.present)
    rw [page, if_pos ⟨present, .inl rfl⟩, psePtr_or _ (by omega), psePtr_idem]
  have target : (r, pathOf virt', slotOf virt') =
      (root, pathOf virt, slotOf virt) ↔
      r = root ∧ pageOf virt' = pageOf virt := by
    rw [Prod.mk.injEq, Prod.mk.injEq, path_eq_iff]
  rw [(sound.setLeaf member last points isFlags phys).1.pageAt_eq rRoot,
    sound.pageAt_eq rRoot, upper _ (by simp [pathOf]),
    upper _ (by simp [pathOf]),
    sound.forest.find_set rootUsed full reached
      (sound.ranked_write member points _) rUsed (rRank.trans rootRank.symm)
      (by rw [← full]; rfl), newPage]
  by_cases here : r = root ∧ pageOf virt' = pageOf virt
  · rw [if_pos (target.mpr here), if_pos here]
    rcases Prod.mk.inj (target.mpr here) with ⟨rfl, samePath⟩
    rw [← (Prod.mk.inj samePath).1] at reached
    have none3 := find_page_none (j := ⟨pml3Index virt', index_lt _⟩)
      (show descend subtable (ranked state.mem rank) r
        ((pathOf virt').take 1 ++ ⟨pml3Index virt', index_lt _⟩ ::
          [⟨pml2Index virt', index_lt _⟩]) = some t1 from reached)
    have none2 := find_page_none (j := ⟨pml2Index virt', index_lt _⟩)
      (show descend subtable (ranked state.mem rank) r
        ((pathOf virt').take 2 ++ ⟨pml2Index virt', index_lt _⟩ :: []) =
          some t1 from reached)
    rw [none3, none2]
    rfl
  · rw [if_neg (fun equal => here (target.mp equal)), if_neg here]

/-! ## One call -/

/-- A call maps the page, or fails and leaves all translations alone. -/
inductive Mapped
    (roots : Set Nat)
    (state : Machine)
    (root phys virt : Nat) :
    Int × Machine → Prop where
  | failed {state' : Machine} {ret : Int} (negative : ret < 0)
      (same : ∀ r ∈ roots, ∀ virt',
        pageAt state'.mem r virt' = pageAt state.mem r virt') :
      Mapped roots state root phys virt (ret, state')
  | mapped {state' : Machine}
      (update : ∀ r ∈ roots, ∀ virt', pageAt state'.mem r virt' =
        if r = root ∧ pageOf virt' = pageOf virt then some (0, psePtr phys)
        else pageAt state.mem r virt') :
      Mapped roots state root phys virt (0, state')

/-- The upper levels do not show in what comes after. -/
theorem Mapped.before
    {used' : Set Nat}
    {rank' : Nat → Nat}
    {parent' : Nat → Nat × Fin 512}
    {middle : Machine}
    {root phys virt : Nat}
    {result : Int × Machine}
    (sound : Sound frames roots state used rank parent)
    (sound' : Sound frames roots middle used' rank' parent')
    (kept : Kept frames state used rank middle used' rank')
    (mapped : Mapped roots middle root phys virt result) :
    Mapped roots state root phys virt result := by
  cases mapped with
  | failed negative same =>
      refine .failed negative ?_
      intro r rRoot virt'
      rw [same r rRoot virt', kept.pageAt_eq sound sound' rRoot]
  | mapped update =>
      refine .mapped ?_
      intro r rRoot virt'
      rw [update r rRoot virt', kept.pageAt_eq sound sound' rRoot]

/-- One call lets the forest grow and has one of the two effects. -/
theorem Sound.mapPage4k
    (sound : Sound frames roots state used rank parent)
    {root pml4Table : Nat}
    (isRoot : root ∈ roots)
    (points : ∀ i : Fin 512,
      Machine.physical (entryPtr pml4Table i) = entryPtr root i)
    (isFlags : IsFlags flags)
    (phys virt : Nat) :
    (∃ used' rank' parent', Sound frames roots
        (Paging.mapPage4k frames state pml4Table phys virt flags).2 used'
          rank' parent' ∧
      Grown frames state used rank
        (Paging.mapPage4k frames state pml4Table phys virt flags).2 used'
          rank') ∧
      Mapped roots state root phys virt
        (Paging.mapPage4k frames state pml4Table phys virt flags) := by
  have member4 := sound.root_used root isRoot
  have rank4 := sound.root_rank root isRoot
  have point4 := points ⟨pml4Index virt, index_lt _⟩
  have small4 : ¬ IsLarge (ranked state.mem rank root
      ⟨pml4Index virt, index_lt _⟩) := fun large => large.1 rank4
  rw [Paging.mapPage4k]
  rcases sound.ensureTable member4 (by omega) point4 isFlags small4 with
    ⟨s4, r4, sound4, kept4⟩ | ⟨s4, used4, rank4', parent4, t3, r4, sound4,
      kept4, edge4⟩
  · simp only [r4, Bool.false_eq_true, not_false_eq_true, if_true]
    exact ⟨⟨_, _, _, sound4, kept4.toGrown⟩, .before sound sound4 kept4
      (.failed (by decide) fun _ _ _ => rfl)⟩
  rcases sound4.below (kept4.subset member4) edge4 with ⟨member3, rank3⟩
  have top4 := kept4.rank_eq root member4
  have points3 := sound4.points_below (kept4.subset member4) edge4 point4
  have point3 := points3 ⟨pml3Index virt, index_lt _⟩
  simp only [r4, not_true, if_false]
  split
  · exact ⟨⟨_, _, _, sound4, kept4.toGrown⟩, .before sound sound4 kept4
      (.failed (by decide) fun _ _ _ => rfl)⟩
  rename_i small3
  rw [read_eq point3] at small3
  rcases sound4.ensureTable member3 (by omega) point3 isFlags
      (fun large => small3 large.2) with
    ⟨s3, r3, sound3, kept3⟩ | ⟨s3, used3, rank3', parent3, t2, r3, sound3,
      kept3, edge3⟩
  · have keptTo3 := kept4.trans kept3
    simp only [r3, Bool.false_eq_true, not_false_eq_true, if_true]
    exact ⟨⟨_, _, _, sound3, keptTo3.toGrown⟩, .before sound sound3 keptTo3
      (.failed (by decide) fun _ _ _ => rfl)⟩
  rcases sound3.below (kept3.subset member3) edge3 with ⟨member2, rank2⟩
  have top3 := kept3.rank_eq t3 member3
  have points2 := sound3.points_below (kept3.subset member3) edge3 point3
  have point2 := points2 ⟨pml2Index virt, index_lt _⟩
  have keptTo3 := kept4.trans kept3
  simp only [r3, not_true, if_false]
  split
  · exact ⟨⟨_, _, _, sound3, keptTo3.toGrown⟩, .before sound sound3 keptTo3
      (.failed (by decide) fun _ _ _ => rfl)⟩
  rename_i small2
  rw [read_eq point2] at small2
  rcases sound3.ensureTable member2 (by omega) point2 isFlags
      (fun large => small2 large.2) with
    ⟨s2, r2, sound2, kept2⟩ | ⟨s2, used2, rank2', parent2, t1, r2, sound2,
      kept2, edge2⟩
  · have keptTo2 := keptTo3.trans kept2
    simp only [r2, Bool.false_eq_true, not_false_eq_true, if_true]
    exact ⟨⟨_, _, _, sound2, keptTo2.toGrown⟩, .before sound sound2 keptTo2
      (.failed (by decide) fun _ _ _ => rfl)⟩
  have points1 := sound2.points_below (kept2.subset member2) edge2 point2
  have keptTo2 := keptTo3.trans kept2
  simp only [r2, not_true, if_false]
  have reached : descend subtable (ranked s2.mem rank2') root
      (pathOf virt) = some t1 := by
    have found4 := (kept3.trans kept2).edge_eq root (kept4.subset member4) _ _
      edge4
    have found3 := kept2.edge_eq t3 (kept3.subset member3) _ _ edge3
    simp only [pathOf, descend, found4, found3, edge2, Option.bind_some]
  have point1 := points1 (slotOf virt)
  rcases sound2.below (kept2.subset member2) edge2 with ⟨member1, rank1⟩
  have top2 := kept2.rank_eq t2 member2
  have last : rank2' t1 = 0 := by omega
  rcases sound2.setLeaf member1 last point1 isFlags phys with
    ⟨soundLast, grownLast⟩
  refine ⟨⟨_, _, _, soundLast, keptTo2.toGrown.trans grownLast⟩,
    .before sound sound2 keptTo2 (.mapped ?_)⟩
  intro r rRoot virt'
  exact sound2.pageAt_setLeaf isRoot reached member1 last point1 isFlags rRoot
    virt'

end

end ForsKernel.Memory.Paging
