import Mathlib.Data.Set.Insert
import Mathlib.Data.List.Induction
import Mathlib.Logic.Function.Basic

/-!
# Forests of radix tables in a store

A table has one entry for each index, and an entry may name a child table.
All tables of a forest have a rank, counted from the tables of rank zero whose
entries are the leaves, and a table is named by at most one entry.  The latter
is expressed by a function `parent`, so that two paths which meet are equal.

The store changes in three ways: an entry keeps its child, an empty entry is
given a fresh blank table, or a leaf is written.  For each of them there is a
rule for the shape of the forest and one for what every lookup finds.
-/

namespace ForsKernel.Lib.RadixForest

variable {ν ι ε τ : Type*}

/-- Follow the entries along a path of indices. -/
def descend
    (child : ε → Option ν)
    (store : ν → ι → ε) :
    ν → List ι → Option ν
  | table, [] => some table
  | table, index :: path =>
      (child (store table index)).bind fun next =>
        descend child store next path

/-- What the leaf at the end of a path and an index stands for. -/
def find
    (child : ε → Option ν)
    (leaf : ε → Option τ)
    (store : ν → ι → ε)
    (table : ν)
    (path : List ι)
    (index : ι) :
    Option τ :=
  (descend child store table path).bind fun last => leaf (store last index)

theorem descend_append
    (child : ε → Option ν)
    (store : ν → ι → ε)
    (table : ν)
    (path more : List ι) :
    descend child store table (path ++ more) =
      (descend child store table path).bind fun last =>
        descend child store last more := by
  induction path generalizing table with
  | nil => rfl
  | cons index path induction =>
      rw [List.cons_append, descend, descend, Option.bind_assoc]
      congr 1
      funext next
      exact induction next

/-- Every child of an inner table is ranked below it and knows its parent. -/
structure Forest
    (child : ε → Option ν)
    (store : ν → ι → ε)
    (used : Set ν)
    (rank : ν → Nat)
    (parent : ν → ν × ι) :
    Prop where
  linked : ∀ table ∈ used, 0 < rank table → ∀ index next,
    child (store table index) = some next →
      next ∈ used ∧ rank next + 1 = rank table ∧
        parent next = (table, index)

namespace Forest

variable
  {child : ε → Option ν}
  {leaf : ε → Option τ}
  {store store' : ν → ι → ε}
  {used : Set ν}
  {rank : ν → Nat}
  {parent : ν → ν × ι}

/-- A path of at most the table's rank stays inside the forest. -/
theorem descend_used
    (forest : Forest child store used rank parent)
    {table last : ν}
    {path : List ι}
    (member : table ∈ used)
    (short : path.length ≤ rank table)
    (reached : descend child store table path = some last) :
    last ∈ used ∧ rank last + path.length = rank table := by
  induction path generalizing table with
  | nil =>
      cases reached
      exact ⟨member, rfl⟩
  | cons index path induction =>
      rcases Option.bind_eq_some_iff.mp reached with ⟨next, edge, reached⟩
      rw [List.length_cons] at short ⊢
      have linked := forest.linked table member (by omega) index next edge
      have below := induction linked.1 (by omega) reached
      exact ⟨below.1, by omega⟩

/-- Two paths from tables of one rank which end in the same table are equal. -/
theorem descend_unique
    (forest : Forest child store used rank parent)
    {table other last : ν}
    {path path' : List ι}
    (member : table ∈ used)
    (otherMember : other ∈ used)
    (sameRank : rank table = rank other)
    (short : path.length ≤ rank table)
    (sameLength : path.length = path'.length)
    (reached : descend child store table path = some last)
    (reached' : descend child store other path' = some last) :
    table = other ∧ path = path' := by
  -- from the end: the last edges agree because `last` has one parent
  induction path using List.reverseRecOn generalizing path' last with
  | nil =>
      have empty : path' = [] := List.length_eq_zero_iff.mp sameLength.symm
      subst empty
      cases reached
      cases reached'
      exact ⟨rfl, rfl⟩
  | append_singleton path index induction =>
      rcases List.eq_nil_or_concat path' with rfl | ⟨path', index', rfl⟩
      · simp at sameLength
      · rw [List.concat_eq_append] at *
        simp only [List.length_append, List.length_singleton] at short
        simp only [List.length_append, List.length_singleton,
          Nat.add_right_cancel_iff] at sameLength
        rw [descend_append] at reached reached'
        rcases Option.bind_eq_some_iff.mp reached with ⟨middle, first, edge⟩
        rcases Option.bind_eq_some_iff.mp reached' with
          ⟨middle', first', edge'⟩
        have inside := forest.descend_used member (by omega) first
        have inside' := forest.descend_used otherMember (by omega) first'
        rw [descend, Option.bind_eq_some_iff] at edge edge'
        rcases edge with ⟨next, edge, stop⟩
        rcases edge' with ⟨next', edge', stop'⟩
        cases stop
        cases stop'
        have up :=
          (forest.linked middle inside.1 (by omega) index last edge).2.2
        have up' :=
          (forest.linked middle' inside'.1 (by omega) index' last edge').2.2
        rcases Prod.mk.inj (up.symm.trans up') with ⟨rfl, rfl⟩
        rcases induction (by omega) sameLength first first' with ⟨rfl, rfl⟩
        exact ⟨rfl, rfl⟩

/-! ## Entries which keep their child -/

theorem congr
    (forest : Forest child store used rank parent)
    (same : ∀ table ∈ used, 0 < rank table → ∀ index,
      child (store' table index) = child (store table index)) :
    Forest child store' used rank parent where
  linked table member inner index next edge := by
    rw [same table member inner index] at edge
    exact forest.linked table member inner index next edge

theorem descend_congr
    (forest : Forest child store used rank parent)
    (same : ∀ table ∈ used, 0 < rank table → ∀ index,
      child (store' table index) = child (store table index))
    {table : ν}
    {path : List ι}
    (member : table ∈ used)
    (short : path.length ≤ rank table) :
    descend child store' table path = descend child store table path := by
  induction path generalizing table with
  | nil => rfl
  | cons index path induction =>
      rw [List.length_cons] at short
      rw [descend, descend, same table member (by omega) index]
      cases edge : child (store table index) with
      | none => rfl
      | some next =>
          have linked := forest.linked table member (by omega) index next edge
          exact induction linked.1 (by omega)

/-- Leaves may lie at the level where the path ends, whichever it is. -/
theorem find_congr_level
    (forest : Forest child store used rank parent)
    (same : ∀ table ∈ used, 0 < rank table → ∀ index,
      child (store' table index) = child (store table index))
    {table : ν}
    {path : List ι}
    (member : table ∈ used)
    (short : path.length ≤ rank table)
    (sameLeaf : ∀ last ∈ used, rank last + path.length = rank table →
      ∀ index, leaf (store' last index) = leaf (store last index))
    (index : ι) :
    find child leaf store' table path index =
      find child leaf store table path index := by
  rw [find, find, forest.descend_congr same member short]
  cases reached : descend child store table path with
  | none => rfl
  | some last =>
      have inside := forest.descend_used member short reached
      exact sameLeaf last inside.1 inside.2 index

theorem find_congr
    (forest : Forest child store used rank parent)
    (same : ∀ table ∈ used, 0 < rank table → ∀ index,
      child (store' table index) = child (store table index))
    (sameLeaf : ∀ table ∈ used, rank table = 0 → ∀ index,
      leaf (store' table index) = leaf (store table index))
    {table : ν}
    {path : List ι}
    (member : table ∈ used)
    (full : path.length = rank table)
    (index : ι) :
    find child leaf store' table path index =
      find child leaf store table path index := by
  apply forest.find_congr_level same member full.le
  intro last lastMember level
  exact sameLeaf last lastMember (by omega)

/-! ## A fresh table -/

section Grow

variable
  {node fresh : ν}
  {slot : ι}
  [DecidableEq ν]

/-- The shape after a fresh blank table is linked in. -/
theorem grow
    (forest : Forest child store used rank parent)
    (member : node ∈ used)
    (inner : 0 < rank node)
    (unused : fresh ∉ used)
    (newChild : child (store' node slot) = some fresh)
    (blank : ∀ index, child (store' fresh index) = none)
    (same : ∀ table ∈ used, ∀ index, (table, index) ≠ (node, slot) →
      child (store' table index) = child (store table index)) :
    Forest child store' (insert fresh used)
      (Function.update rank fresh (rank node - 1))
      (Function.update parent fresh (node, slot)) where
  linked table tableMember tableInner index next edge := by
    have old : ∀ {other}, other ∈ used → other ≠ fresh := by
      rintro other otherMember rfl
      exact unused otherMember
    rcases Set.mem_insert_iff.mp tableMember with rfl | tableMember
    · rw [blank index] at edge
      cases edge
    · rw [Function.update_of_ne (old tableMember)] at tableInner ⊢
      by_cases here : (table, index) = (node, slot)
      · rcases Prod.mk.inj here with ⟨rfl, rfl⟩
        cases newChild.symm.trans edge
        rw [Function.update_self, Function.update_self]
        exact ⟨Set.mem_insert _ _, by omega, rfl⟩
      · rw [same table tableMember index here] at edge
        have linked :=
          forest.linked table tableMember tableInner index next edge
        rw [Function.update_of_ne (old linked.1),
          Function.update_of_ne (old linked.1)]
        exact ⟨Set.mem_insert_of_mem _ linked.1, linked.2⟩

/-- Old paths stay, and a new one can only end in the fresh table. -/
theorem descend_grow
    (forest : Forest child store used rank parent)
    (unlinked : child (store node slot) = none)
    (newChild : child (store' node slot) = some fresh)
    (blank : ∀ index, child (store' fresh index) = none)
    (same : ∀ table ∈ used, ∀ index, (table, index) ≠ (node, slot) →
      child (store' table index) = child (store table index))
    {table : ν}
    {path : List ι}
    (member : table ∈ used)
    (short : path.length ≤ rank table) :
    descend child store' table path = descend child store table path ∨
      descend child store table path = none ∧
        (descend child store' table path = none ∨
          descend child store' table path = some fresh) := by
  induction path generalizing table with
  | nil => exact Or.inl rfl
  | cons index path induction =>
      rw [List.length_cons] at short
      rw [descend, descend]
      by_cases here : (table, index) = (node, slot)
      · rcases Prod.mk.inj here with ⟨rfl, rfl⟩
        right
        rw [newChild, unlinked, Option.bind_some, Option.bind_none]
        refine ⟨rfl, ?_⟩
        cases path with
        | nil => exact Or.inr rfl
        | cons further path =>
            left
            rw [descend, blank further, Option.bind_none]
      · rw [same table member index here]
        cases edge : child (store table index) with
        | none => exact Or.inl rfl
        | some next =>
            have linked :=
              forest.linked table member (by omega) index next edge
            exact induction linked.1 (by omega)

theorem find_grow_level
    (forest : Forest child store used rank parent)
    (unlinked : child (store node slot) = none)
    (newChild : child (store' node slot) = some fresh)
    (blank : ∀ index, child (store' fresh index) = none)
    (blankLeaf : ∀ index, leaf (store' fresh index) = none)
    (same : ∀ table ∈ used, ∀ index, (table, index) ≠ (node, slot) →
      child (store' table index) = child (store table index))
    {table : ν}
    {path : List ι}
    (member : table ∈ used)
    (short : path.length ≤ rank table)
    (sameLeaf : ∀ last ∈ used, rank last + path.length = rank table →
      ∀ index, leaf (store' last index) = leaf (store last index))
    (index : ι) :
    find child leaf store' table path index =
      find child leaf store table path index := by
  rw [find, find]
  rcases forest.descend_grow unlinked newChild blank same member short with
    equal | ⟨before, none | new⟩
  · rw [equal]
    cases reached : descend child store table path with
    | none => rfl
    | some last =>
        have inside := forest.descend_used member short reached
        exact sameLeaf last inside.1 inside.2 index
  · rw [before, none]
    rfl
  · rw [before, new]
    exact blankLeaf index

theorem find_grow
    (forest : Forest child store used rank parent)
    (unlinked : child (store node slot) = none)
    (newChild : child (store' node slot) = some fresh)
    (blank : ∀ index, child (store' fresh index) = none)
    (blankLeaf : ∀ index, leaf (store' fresh index) = none)
    (same : ∀ table ∈ used, ∀ index, (table, index) ≠ (node, slot) →
      child (store' table index) = child (store table index))
    (sameLeaf : ∀ table ∈ used, rank table = 0 → ∀ index,
      leaf (store' table index) = leaf (store table index))
    {table : ν}
    {path : List ι}
    (member : table ∈ used)
    (full : path.length = rank table)
    (index : ι) :
    find child leaf store' table path index =
      find child leaf store table path index := by
  apply forest.find_grow_level unlinked newChild blank blankLeaf same member
    full.le
  intro last lastMember level
  exact sameLeaf last lastMember (by omega)

end Grow

/-! ## A leaf -/

/-- Writing a leaf changes what is found there and nowhere else. -/
theorem find_set
    [DecidableEq ν]
    [DecidableEq ι]
    (forest : Forest child store used rank parent)
    {table other last : ν}
    {path path' : List ι}
    {slot index : ι}
    (member : table ∈ used)
    (full : path.length = rank table)
    (reached : descend child store table path = some last)
    (elsewhere : ∀ node ∈ used, ∀ i, (node, i) ≠ (last, slot) →
      store' node i = store node i)
    (otherMember : other ∈ used)
    (sameRank : rank other = rank table)
    (full' : path'.length = rank table) :
    find child leaf store' other path' index =
      if (other, path', index) = (table, path, slot) then
        leaf (store' last slot)
      else
        find child leaf store other path' index := by
  have inside := forest.descend_used member full.le reached
  have same : ∀ node ∈ used, 0 < rank node → ∀ i,
      child (store' node i) = child (store node i) := by
    intro node nodeMember inner i
    rw [elsewhere node nodeMember i]
    intro equal
    rw [(Prod.mk.inj equal).1] at inner
    omega
  rw [find, forest.descend_congr same otherMember (by omega)]
  split
  · rename_i equal
    cases equal
    rw [reached]
    rfl
  · rename_i different
    rw [find]
    cases reached' : descend child store other path' with
    | none => rfl
    | some last' =>
        have inside' := forest.descend_used otherMember (by omega) reached'
        show leaf (store' last' index) = leaf (store last' index)
        rw [elsewhere last' inside'.1 index]
        intro equal
        rcases Prod.mk.inj equal with ⟨rfl, rfl⟩
        rcases forest.descend_unique member otherMember sameRank.symm full.le
          (by omega) reached reached' with ⟨rfl, rfl⟩
        exact different rfl

end Forest

end ForsKernel.Lib.RadixForest
